-- The transactional outbox (`pkg/outbox`): the table `job_events`, the insert
-- that a producer makes inside its own transaction, and the relay that reads
-- the unpublished rows, publishes them and marks them.
import Mathlib.Data.List.Sort
import RecastAi.Interleaving

open call_programs

namespace recast_rules.outbox

/-! ## The table -/

/-- A row of `job_events`. `P` is the type of the payloads. -/
structure JobEvent (P : Type) where
  id : Nat
  jobID : String
  stageAttemptID : String
  queueName : String
  payload : P
  traceID : String
  publishedAt : Option Nat
  attempts : Nat
  lastError : Option String

/-- What producers write to the outbox. A payload that `json.Marshal` refuses is `none`. -/
structure Event (P : Type) where
  jobID : String
  stageAttemptID : String
  queueName : String
  payload : Option P
  traceID : String

/-- The columns that the claim reads. -/
structure Pending (P : Type) where
  id : Nat
  jobID : String
  attemptID : String
  queue : String
  payload : P
  traceID : String

variable {P : Type}

def JobEvent.pending (r : JobEvent P) : Pending P :=
  ⟨r.id, r.jobID, r.stageAttemptID, r.queueName, r.payload, r.traceID⟩

/-- The database: the committed rows in the order of their commits, the rows of the
transactions that are still open, and the next value of the sequence behind `id`. -/
structure Db (P : Type) where
  rows : List (JobEvent P)
  opened : List (Nat × JobEvent P)
  nextID : Nat

/-! ## The calls -/

inductive ClaimError where
  | claimBatch (e : String)
  | scan (e : String)
  | rows (e : String)

inductive Call (P : Type) where
  | claim (maxAttempts batchSize : Int)
  | publish (p : Pending P)
  | markPublished (id : Nat)
  | markFailure (id : Nat) (cause : String)
  | newString
  | insert (tx : Nat) (jobID stageAttemptID queueName : String) (payload : P) (traceID : String)
  | commit (tx : Nat)
  | rollback (tx : Nat)

def Answer : Call P → Type
  | .claim _ _ => Except ClaimError (List (Pending P))
  | .publish _ => Except String Unit
  | .markPublished _ => Except String Unit
  | .markFailure _ _ => Except String Unit
  | .newString => String
  | .insert _ _ _ _ _ _ => Except String Unit
  | .commit _ => Except String Unit
  | .rollback _ => Unit

/-- What the outside chooses at a call. A call that fails may still have had its effect
(`applied`), as when the answer is lost on its way back. `skipped` are the rows that some
other statement in flight has locked at this moment. -/
structure Outcome where
  fails : Bool := false
  applied : Bool := false
  stage : String → ClaimError := ClaimError.claimBatch
  skipped : List Nat := []
  error : String := ""
  fresh : String := ""
  now : Nat := 0

def updateRow (rows : List (JobEvent P)) (id : Nat) (f : JobEvent P → JobEvent P) :
    List (JobEvent P) :=
  rows.map fun r => if r.id = id then f r else r

/-- `SET published_at = NOW(), attempts = attempts + 1`. -/
def JobEvent.marked (now : Nat) (r : JobEvent P) : JobEvent P :=
  { r with publishedAt := some now, attempts := r.attempts + 1 }

/-- `SET attempts = attempts + 1, last_error = $1`. -/
def JobEvent.failed (cause : String) (r : JobEvent P) : JobEvent P :=
  { r with attempts := r.attempts + 1, lastError := some cause }

/-- `WHERE published_at IS NULL AND attempts < $1`. -/
def eligible (maxAttempts : Int) (r : JobEvent P) : Bool :=
  r.publishedAt.isNone && decide ((r.attempts : Int) < maxAttempts)

/-- The rows that the claim returns. The statement is its own transaction, so its row locks
end with it: what `FOR UPDATE SKIP LOCKED` skips are the rows that others have locked while
it runs. -/
def claimRows (rows : List (JobEvent P)) (skipped : List Nat) (maxAttempts batchSize : Int) :
    List (JobEvent P) :=
  (((rows.filter (eligible maxAttempts)).insertionSort (fun a b => a.id ≤ b.id)).filter
    (fun r => !skipped.contains r.id)).take batchSize.toNat

/-- An effect that takes place when the call succeeds, and also when it fails with the
answer lost. -/
def landed (o : Outcome) : Bool := !o.fails || o.applied

def reply (o : Outcome) : Except String Unit := if o.fails then .error o.error else .ok ()

def answerDb (o : Outcome) (db : Db P) : (c : Call P) → Answer c × Db P
  | .claim maxAttempts batchSize =>
    (if o.fails then .error (o.stage o.error)
      else .ok ((claimRows db.rows o.skipped maxAttempts batchSize).map JobEvent.pending), db)
  | .publish _ => (reply o, db)
  | .markPublished id =>
    (reply o, if landed o then { db with rows := updateRow db.rows id (.marked o.now) } else db)
  | .markFailure id cause =>
    (reply o, if landed o then { db with rows := updateRow db.rows id (.failed cause) } else db)
  | .newString => (o.fresh, db)
  | .insert tx jobID stageAttemptID queueName payload traceID =>
    -- a value taken from the sequence is not given back, also when the insert fails
    (reply o, { db with
      nextID := db.nextID + 1
      opened := if o.fails then db.opened else db.opened ++
        [(tx, ⟨db.nextID, jobID, stageAttemptID, queueName, payload, traceID, none, 0, none⟩)] })
  | .commit tx =>
    (reply o, { db with
      rows := if landed o then db.rows ++ (db.opened.filter (·.1 = tx)).map (·.2) else db.rows
      opened := db.opened.filter (·.1 ≠ tx) })
  | .rollback tx => ((), { db with opened := db.opened.filter (·.1 ≠ tx) })

def postgres : World (Call P) Answer (Db P) Outcome := ⟨answerDb⟩

abbrev Outbox (P α : Type) := Prog (Call P) Answer α

def queryContext (maxAttempts batchSize : Int) :
    Outbox P (Except ClaimError (List (Pending P))) := .call (.claim maxAttempts batchSize) .done

def publish (p : Pending P) : Outbox P (Except String Unit) := .call (.publish p) .done

def newString : Outbox P String := .call .newString .done

def execInsert (tx : Nat) (jobID stageAttemptID queueName : String) (payload : P)
    (traceID : String) : Outbox P (Except String Unit) :=
  .call (.insert tx jobID stageAttemptID queueName payload traceID) .done

def commit (tx : Nat) : Outbox P (Except String Unit) := .call (.commit tx) .done

def rollback (tx : Nat) : Outbox P Unit := .call (.rollback tx) .done

/-! ## The producer -/

/-- The attempt id of the event, or a new one when it has none. -/
def attemptID (ev : Event P) : Outbox P String :=
  if ev.stageAttemptID = "" then newString else pure ev.stageAttemptID

/-- `TxPublish` writes an event inside the caller's transaction `tx`. -/
def txPublish (tx : Nat) (ev : Event P) : Outbox P (Except String Unit) := do
  if ev.jobID = "" || ev.queueName = "" then
    return .error "outbox: job_id and queue_name are required"
  let stageAttemptID ← attemptID ev
  match ev.payload with
  | none => return .error "marshal outbox payload"
  | some body =>
    match ← execInsert tx ev.jobID stageAttemptID ev.queueName body ev.traceID with
    | .error e => return .error s!"outbox insert: {e}"
    | .ok () => return .ok ()

/-- A producer: it publishes its events in one transaction and commits, and it rolls back
at the first error, or when it has a reason of its own (`abandons`). -/
def produce (tx : Nat) (abandons : Bool) : List (Event P) → Outbox P Unit
  | [] => do
    if abandons then
      rollback tx
    else
      let _ ← commit tx
  | ev :: evs => do
    match ← txPublish tx ev with
    | .error _ => rollback tx
    | .ok () => produce tx abandons evs

/-! ## The relay -/

/-- `RelayConfig`. The poll interval is in nanoseconds. -/
structure RelayConfig where
  pollInterval : Int
  batchSize : Int
  maxAttempts : Int

def RelayConfig.defaults (c : RelayConfig) : RelayConfig where
  pollInterval := if c.pollInterval ≤ 0 then 1000000000 else c.pollInterval
  batchSize := if c.batchSize ≤ 0 then 100 else c.batchSize
  maxAttempts := if c.maxAttempts ≤ 0 then 8 else c.maxAttempts

def markPublished (id : Nat) : Outbox P (Except String Unit) := .call (.markPublished id) .done

/-- An error of the update is logged and dropped. -/
def markFailure (id : Nat) (cause : String) : Outbox P Unit :=
  .call (.markFailure id cause) fun _ => .done ()

/-- The loop of `tick` over its batch. It counts the rows it published and marked. -/
def publishBatch : List (Pending P) → Nat → Outbox P Nat
  | [], published => return published
  | p :: batch, published => do
    match ← publish p with
    | .error e =>
      markFailure p.id e
      publishBatch batch published
    | .ok () =>
      match ← markPublished p.id with
      | .error _ => publishBatch batch published
      | .ok () => publishBatch batch (published + 1)

/-- One batch of unpublished rows. -/
def tick (cfg : RelayConfig) : Outbox P (Except ClaimError Nat) := do
  match ← queryContext cfg.maxAttempts cfg.batchSize with
  | .error e => return .error e
  | .ok batch => return .ok (← publishBatch batch 0)

theorem tick_eq (cfg : RelayConfig) :
    (tick cfg : Outbox P (Except ClaimError Nat)) =
      queryContext cfg.maxAttempts cfg.batchSize >>= fun claimed =>
        match claimed with
        | .error e => pure (.error e)
        | .ok batch => publishBatch batch 0 >>= fun n => pure (.ok n) := rfl

/-- The loop of `Run`, until the ticker has fired `n` times. An error of a tick is logged,
and the loop goes on. -/
def runLoop (cfg : RelayConfig) : Nat → Outbox P Unit
  | 0 => return
  | n + 1 => do
    let _ ← tick cfg
    runLoop cfg n

/-- A relay as `NewRelay` makes it, which runs for `n` ticks. -/
def relay (cfg : RelayConfig) (n : Nat) : Outbox P Unit := runLoop cfg.defaults n

theorem defaults_pos (c : RelayConfig) :
    0 < c.defaults.pollInterval ∧ 0 < c.defaults.batchSize ∧ 0 < c.defaults.maxAttempts := by
  unfold RelayConfig.defaults
  refine ⟨?_, ?_, ?_⟩ <;> simp only <;> split <;> omega

end recast_rules.outbox
