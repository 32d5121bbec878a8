-- The consumer of `audio.queue` (`cmd/mux-service/main.go`): it downloads the
-- video and the audio of a job, muxes them, stores the result as the output of
-- the job and publishes the delivery.
import RecastAi.Consumers

open call_programs recast_rules.transcript recast_rules.models recast_rules.pipeline
open recast_rules.consumers (Process publishEvent)

namespace recast_rules.mux

def audioQueue : String := "audio.queue"

def deliveryQueue : String := "delivery.queue"

def outputKey (jobID : String) : String := s!"output/{jobID}/final.mp4"

def deliveryMessage (msg : QueueMessage Json) (attemptID userID : String) :
    QueueMessage DeliveryPayload where
  jobID := msg.jobID
  traceID := msg.traceID
  stageAttemptID := attemptID
  payload := ⟨outputKey msg.jobID, userID⟩

/-- The work on a message that was read. -/
def process (msg : QueueMessage Json) (payload : AudioPayload) : Attempt Call Answer String Unit := do
  let _ ← (ask (.exec none (.setStage msg.jobID .muxing))).orGiveUp fun _ => "update job stage"
  ExceptT.lift (publishEvent msg.jobID)
  (ask (.work .tempDir)).orGiveUp fun _ => "create temp dir"
  let video ← (ask (.download payload.originalFile)).orGiveUp fun _ => "download video"
  let audio ← (ask (.download payload.audioFile)).orGiveUp fun _ => "download audio"
  ExceptT.lift (publishEvent msg.jobID)
  let final : Blob ← (ask (.work (.mux video audio))).orGiveUp fun _ => "ffmpeg mux"
  ExceptT.lift (publishEvent msg.jobID)
  (ask (.upload (outputKey msg.jobID) final)).orGiveUp fun _ => "upload output"
  let _ ← (ask (.exec none (.setOutput msg.jobID .muxed (outputKey msg.jobID)))).orGiveUp
    fun _ => "update job after mux"
  let job : Job ← (ask (.query none (.job msg.jobID))).orGiveUp fun _ => "lookup job user_id"
  let attemptID : String ← ExceptT.lift (ask .newString)
  (ask (.publish deliveryQueue
    ((deliveryMessage msg attemptID job.userID).encode DeliveryPayload.encode))).orGiveUp
      fun _ => "publish delivery message"
  ExceptT.lift (publishEvent msg.jobID)

def processMessage : Process := fun body => do
  let msg ← someOr (decodeMessage body) "unmarshal queue message"
  let payload ← someOr (decodeAudio msg.payload) "unmarshal audio payload"
  process msg payload

/-- One round of the consumer. A message that failed is put back. -/
def serve : Nat → Json → Service (Except String Unit) := consumers.serve processMessage

/-- `n` rounds. -/
def consume : Nat → Service Unit := consumers.consume audioQueue processMessage

end recast_rules.mux
