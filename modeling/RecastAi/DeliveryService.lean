-- The consumer of `delivery.queue` (`cmd/delivery-service/main.go`): it makes
-- the link to the output, completes the job and calls the webhooks of the user.
import RecastAi.Consumers

open call_programs recast_rules.transcript recast_rules.models recast_rules.pipeline
open recast_rules.consumers (Process publishEvent)

namespace recast_rules.delivery

def deliveryQueue : String := "delivery.queue"

/-- The webhooks are called one by one. A failure is logged and dropped. -/
def sendWebhooks (jobID downloadURL : String) (durationMs : Int) : List Webhook → Service Unit
  | [] => return
  | hook :: hooks => do
    let _ ← ask (.work (.sendWebhook hook jobID downloadURL durationMs))
    sendWebhooks jobID downloadURL durationMs hooks

/-- Without the rows there is no call. -/
def deliverWebhooks (userID jobID downloadURL : String) (durationMs : Int) : Service Unit := do
  match ← ask (.query none (.webhooks userID)) with
  | .error _ => return
  | .ok hooks => sendWebhooks jobID downloadURL durationMs hooks

def process (msg : QueueMessage Json) (payload : DeliveryPayload) :
    Attempt Call Answer String Unit := do
  let _ ← (ask (.exec none (.setStage msg.jobID .delivering))).orGiveUp fun _ => "update job stage"
  ExceptT.lift (publishEvent msg.jobID)
  let downloadURL : String ← (ask (.presign payload.outputFile)).orGiveUp
    fun _ => "generate presigned URL"
  let job : Job ← (ask (.query none (.job msg.jobID))).orGiveUp fun _ => "lookup job duration"
  let completedAt : Nat ← ExceptT.lift (ask .clock)
  let _ ← (ask (.exec none (.setDownload msg.jobID .completed downloadURL completedAt))).orGiveUp
    fun _ => "update job completed"
  ExceptT.lift (deliverWebhooks payload.userID msg.jobID downloadURL job.durationMs)
  ExceptT.lift (publishEvent msg.jobID)

def processMessage : Process := fun body => do
  let msg ← someOr (decodeMessage body) "unmarshal queue message"
  let payload ← someOr (decodeDelivery msg.payload) "unmarshal delivery payload"
  process msg payload

/-- One round of the consumer. A message that failed is put back. -/
def serve : Nat → Json → Service (Except String Unit) := consumers.serve processMessage

/-- `n` rounds. -/
def consume : Nat → Service Unit := consumers.consume deliveryQueue processMessage

end recast_rules.delivery
