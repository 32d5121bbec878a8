-- What the two consumers in Go have in common: their loop, which puts a message
-- back when its processing fails, and the events that they send.
import RecastAi.Pipeline

open call_programs recast_rules.transcript recast_rules.pipeline

namespace recast_rules.consumers

/-- The processing of a message. Its error is only logged. -/
abbrev Process := Json → Attempt Call Answer String Unit

/-- A failure of the event is logged and dropped. -/
def publishEvent (jobID : String) : Service Unit := do
  let _ ← ask (.notify s!"job:{jobID}:events")

/-- One round of the loop. -/
def serve (process : Process) (tag : Nat) (body : Json) : Service (Except String Unit) := do
  match ← (process body).run with
  | .ok () =>
    let _ ← ask (.ack tag)
    return .ok ()
  | .error e =>
    let _ ← ask (.nack tag true)
    return .error e

/-- `n` rounds. -/
def consume (queue : String) (process : Process) : Nat → Service Unit
  | 0 => return
  | n + 1 => do
    match ← ask (.receive queue) with
    | none => consume queue process n
    | some (tag, body) =>
      let _ ← serve process tag body
      consume queue process n

end recast_rules.consumers
