-- The connection of the services in Go to RabbitMQ (`pkg/queue/queue.go`): how
-- it is made, the queues that it declares, and the publish that waits for its
-- confirm. The broker returns a mandatory message that no queue takes, and
-- confirms it all the same.
import RecastAi.CallPrograms
import RecastAi.GoCase
import RecastAi.Models

open call_programs go_text recast_rules.transcript

namespace recast_rules.queue

/-! ## What the broker keeps -/

/-- The table of a `queue.declare`. -/
structure Args where
  deadLetterExchange : Option String := none
  deadLetterRoutingKey : Option String := none
  queueType : Option String := none
  deliveryLimit : Option Nat := none
  messageTTL : Option Nat := none
deriving DecidableEq

structure Publishing where
  persistent : Bool
  contentType : String
  body : Json
  timestamp : Nat
  headers : List (String × String)

/-- `stored` are the messages that a queue took, with its name, and `returned` those that the
broker gave back. `confirms` has the confirm of each delivery tag, where there is one. -/
structure Broker where
  queues : String → Option Args
  stored : List (String × Publishing)
  returned : List Publishing
  confirms : List (Option Bool)

/-! ## Calls -/

inductive Call where
  | dial
  | sleep
  | openChannel
  | qos (prefetch : Nat)
  | confirmMode
  | declare (name : String) (args : Args)
  | clock
  | publish (routingKey : String) (mandatory : Bool) (pub : Publishing)
  | wait (tag : Nat)

def Answer : Call → Type
  | .dial => Except String Unit
  | .sleep => Unit
  | .openChannel => Except String Unit
  | .qos _ => Except String Unit
  | .confirmMode => Except String Unit
  | .declare _ _ => Except String Unit
  | .clock => Nat
  | .publish _ _ _ => Except String Nat
  | .wait _ => Except String Bool

/-- `confirm` is what the broker answers to a message that a queue could take: it is `none` where
no confirm comes in time. A publish that fails may still have been sent (`applied`). -/
structure Outcome where
  fails : Bool := false
  applied : Bool := false
  error : String := ""
  now : Nat := 0
  confirm : Option Bool := some true

def landed (o : Outcome) : Bool := !o.fails || o.applied

def reply {α : Type} (o : Outcome) (a : α) : Except String α :=
  if o.fails then .error o.error else .ok a

/-- A queue that is there is declared again with the same table only. -/
def Broker.declare (b : Broker) (o : Outcome) (name : String) (args : Args) :
    Except String Unit × Broker :=
  match b.queues name with
  | some args' => (if args' = args then reply o () else .error "PRECONDITION_FAILED", b)
  | none =>
    (reply o (),
      if landed o then { b with queues := fun n => if n = name then some args else b.queues n }
      else b)

/-- The default exchange takes the message to the queue of its routing key. A message that no queue
takes is confirmed too, after the return. -/
def Broker.accept (b : Broker) (confirm : Option Bool) (routingKey : String) (mandatory : Bool)
    (pub : Publishing) : Broker :=
  match b.queues routingKey with
  | some _ =>
    { b with
      stored := if confirm = some false then b.stored else b.stored ++ [(routingKey, pub)]
      confirms := b.confirms ++ [confirm] }
  | none =>
    { b with
      returned := if mandatory then b.returned ++ [pub] else b.returned
      confirms := b.confirms ++ [confirm.map fun _ => true] }

/-- The confirm of a delivery tag. Nobody listens for returns. -/
def Broker.confirmed (b : Broker) (o : Outcome) (tag : Nat) : Except String Bool :=
  if o.fails then .error o.error
  else
    match b.confirms[tag]? with
    | some (some ok) => .ok ok
    | _ => .error "context deadline exceeded"

def answerBroker (o : Outcome) (b : Broker) : (c : Call) → Answer c × Broker
  | .dial => (reply o (), b)
  | .sleep => ((), b)
  | .openChannel => (reply o (), b)
  | .qos _ => (reply o (), b)
  | .confirmMode => (reply o (), b)
  | .declare name args => b.declare o name args
  | .clock => (o.now, b)
  | .publish routingKey mandatory pub =>
    (reply o b.confirms.length,
      if landed o then b.accept o.confirm routingKey mandatory pub else b)
  | .wait tag => (b.confirmed o tag, b)

def rabbit : World Call Answer Broker Outcome := ⟨answerBroker⟩

abbrev Try (α : Type) := Attempt Call Answer String α

def ask (c : Call) : Prog Call Answer (Answer c) := .call c .done

/-! ## The connection -/

inductive QueueType where
  | classic | quorum
deriving DecidableEq

/-- `RABBITMQ_QUEUE_TYPE`, which is empty where it is not set. -/
def queueTypeFromEnv (env : String) : QueueType :=
  if toLower env = "quorum" then .quorum else .classic

structure Connection where
  confirmsOn : Bool
  queueType : QueueType
  deliveryLimit : Nat

/-- The loop of `Connect`. The last error is the one that is told. -/
def dialLoop : Nat → String → Try Unit
  | 0, err => throw ("failed to connect to rabbitmq after retries: " ++ err)
  | n + 1, _ => do
    match ← ExceptT.lift (ask .dial) with
    | .ok () => return
    | .error e =>
      ExceptT.lift (ask .sleep)
      dialLoop n e

/-- Where there are no confirms the connection does without. -/
def connect (env : String) : Try Connection := do
  dialLoop 30 ""
  (ask .openChannel).orGiveUp fun e => "failed to open channel: " ++ e
  (ask (.qos 1)).orGiveUp fun e => "failed to set QoS: " ++ e
  match ← ExceptT.lift (ask .confirmMode) with
  | .error _ => return ⟨false, queueTypeFromEnv env, 3⟩
  | .ok () => return ⟨true, queueTypeFromEnv env, 3⟩

def dlqSuffix : String := ".dlq"

def dlqArgs (queueType : QueueType) : Args :=
  match queueType with
  | .quorum => { queueType := some "quorum" }
  | .classic => {}

/-- The table of a queue. The time to live is 24 hours in milliseconds. -/
def queueArgs (c : Connection) (name : String) : Args :=
  let args : Args :=
    { deadLetterExchange := some "", deadLetterRoutingKey := some (name ++ dlqSuffix) }
  match c.queueType with
  | .quorum => { args with queueType := some "quorum", deliveryLimit := some c.deliveryLimit }
  | .classic => { args with messageTTL := some 86400000 }

def declareQueue (c : Connection) (name : String) : Try Unit := do
  let dlq := name ++ dlqSuffix
  (ask (.declare dlq (dlqArgs c.queueType))).orGiveUp fun e => "declare DLQ " ++ dlq ++ ": " ++ e
  (ask (.declare name (queueArgs c name))).orGiveUp fun e => "declare queue " ++ name ++ ": " ++ e

/-- The second half of `Publish`. -/
def awaitConfirm (queueName : String) (tag : Nat) : Try Unit := do
  let confirmed : Bool ← (ask (.wait tag)).orGiveUp fun e =>
    "await publisher confirm for " ++ queueName ++ ": " ++ e
  giveUpIf (!confirmed) ("broker nack for " ++ queueName)

/-- The trace context is injected into the headers. A message that cannot be written as JSON is
`none`. -/
def publish (c : Connection) (trace : List (String × String)) (queueName : String)
    (msg : Option Json) : Try Unit := do
  let body ← someOr msg "marshal message"
  let now : Nat ← ExceptT.lift (ask .clock)
  let pub : Publishing :=
    { persistent := true, contentType := "application/json", body := body, timestamp := now,
      headers := trace }
  if !c.confirmsOn then
    let _ ← (ask (.publish queueName false pub)).orGiveUp fun e => e
  else
    -- mandatory
    let tag : Nat ← (ask (.publish queueName true pub)).orGiveUp fun e =>
      "publish " ++ queueName ++ ": " ++ e
    awaitConfirm queueName tag

/-! ## What a nil of `Publish` says -/

/-- The confirm that the broker has for the message it just accepted. -/
theorem confirms_accept (b : Broker) (confirm : Option Bool) (queueName : String)
    (mandatory : Bool) (pub : Publishing) :
    (b.accept confirm queueName mandatory pub).confirms[b.confirms.length]? =
      some (if (b.queues queueName).isSome then confirm else confirm.map fun _ => true) := by
  unfold Broker.accept
  cases b.queues queueName <;> simp

theorem stored_accept (b : Broker) (confirm : Option Bool) (queueName : String)
    (mandatory : Bool) (pub : Publishing) :
    (b.accept confirm queueName mandatory pub).stored =
      if (b.queues queueName).isSome && confirm ≠ some false then b.stored ++ [(queueName, pub)]
      else b.stored := by
  unfold Broker.accept
  cases b.queues queueName with
  | none => rfl
  | some args => by_cases h : confirm = some false <;> simp [h]

section Law

variable {queueType : QueueType} {limit : Nat} {trace : List (String × String)}
  {queueName : String} {msg : Option Json} {b : Broker} {clock sent waited : Outcome}

/-- `Publish` with confirms, on its own, with what the broker and the network choose. -/
def publishAlone (queueType : QueueType) (limit : Nat) (trace : List (String × String))
    (queueName : String) (msg : Option Json) (b : Broker) (clock sent waited : Outcome) :
    Prog Call Answer (Except String Unit) × Broker :=
  run rabbit [clock, sent, waited] ((publish ⟨true, queueType, limit⟩ trace queueName msg).run, b)

/-- A queue of this name took the message. -/
def Enqueued (b b' : Broker) (queueName : String) (msg : Option Json) : Prop :=
  ∃ pub : Publishing, some pub.body = msg ∧ b'.stored = b.stored ++ [(queueName, pub)]

/-- The message can be written and is sent, and a confirm is there before the time is over. -/
structure ConfirmedInTime (msg : Option Json) (sent waited : Outcome) : Prop where
  written : msg.isSome
  goes_out : sent.fails = false
  comes_back : sent.confirm.isSome
  in_time : waited.fails = false

/-- The message as it goes out. -/
def outgoing (trace : List (String × String)) (clock : Outcome) (body : Json) : Publishing where
  persistent := true
  contentType := "application/json"
  body := body
  timestamp := clock.now
  headers := trace

/-- A publish that was sent waits for its confirm. -/
theorem publishAlone_sent {body : Json} (hsent : sent.fails = false) :
    publishAlone queueType limit trace queueName (some body) b clock sent waited =
      run rabbit [waited] ((awaitConfirm queueName b.confirms.length).run,
        b.accept sent.confirm queueName true (outgoing trace clock body)) := by
  obtain ⟨fails, applied, error, now, confirm⟩ := sent
  dsimp only at hsent
  subst hsent
  rfl

theorem awaitConfirm_eq (queueName : String) (tag : Nat) :
    (awaitConfirm queueName tag).run = .call (.wait tag) fun x : Except String Bool =>
      match x with
      | .error e => .done (.error ("await publisher confirm for " ++ queueName ++ ": " ++ e))
      | .ok false => .done (.error ("broker nack for " ++ queueName))
      | .ok true => .done (.ok ()) := by
  unfold awaitConfirm
  change Prog.call _ _ = _
  congr 1
  funext x
  rcases x with e | _ | _ <;> rfl

/-- It is nil exactly where a positive confirm is there in time. It leaves the broker alone. -/
theorem awaitConfirm_nil {tag : Nat} :
    ((run rabbit [waited] ((awaitConfirm queueName tag).run, b)).1 = .done (.ok ()) ↔
      waited.fails = false ∧ b.confirms[tag]? = some (some true)) ∧
    (run rabbit [waited] ((awaitConfirm queueName tag).run, b)).2 = b := by
  rw [awaitConfirm_eq]
  change ((run rabbit [] (match b.confirmed waited tag with
    | .error e => _
    | .ok false => _
    | .ok true => _, b)).1 = _ ↔ _) ∧ b = b
  refine ⟨?_, rfl⟩
  unfold Broker.confirmed
  cases hfails : waited.fails with
  | true => simp [run]
  | false =>
    rcases hconfirm : b.confirms[tag]? with _ | _ | _ | _ <;> simp [run]

theorem publishAlone_unsent {body : Json} (hsent : sent.fails = true) :
    (publishAlone queueType limit trace queueName (some body) b clock sent waited).1 =
      .done (.error ("publish " ++ queueName ++ ": " ++ sent.error)) := by
  obtain ⟨fails, applied, error, now, confirm⟩ := sent
  dsimp only at hsent
  subst hsent
  rfl

/-- A nil of `Publish` says that a queue took the message exactly where the queue is there, or where
no confirm comes in time: the broker confirms what it cannot route. -/
theorem nil_from_publish_means_enqueued_iff (queueType : QueueType) (limit : Nat)
    (trace : List (String × String)) (queueName : String) (msg : Option Json) (b : Broker)
    (clock sent waited : Outcome) :
    ((publishAlone queueType limit trace queueName msg b clock sent waited).1 = .done (.ok ()) →
      Enqueued b (publishAlone queueType limit trace queueName msg b clock sent waited).2
        queueName msg) ↔
    (b.queues queueName).isSome ∨ ¬ ConfirmedInTime msg sent waited := by
  cases msg with
  | none =>
    constructor
    · exact fun _ => Or.inr fun h => nomatch h.written
    · intro _ hnil
      cases hnil
  | some body =>
    cases hsent : sent.fails with
    | true =>
      constructor
      · exact fun _ => Or.inr fun h => Bool.noConfusion (hsent.symm.trans h.goes_out)
      · intro _ hnil
        rw [publishAlone_unsent hsent] at hnil
        cases hnil
    | false =>
      rw [publishAlone_sent hsent]
      obtain ⟨hnil, hstate⟩ := @awaitConfirm_nil queueName
        (b.accept sent.confirm queueName true (outgoing trace clock body)) waited b.confirms.length
      rw [hnil, hstate, confirms_accept]
      unfold Enqueued
      rw [stored_accept]
      cases hqueue : b.queues queueName with
      | some args =>
        simp only [Option.isSome_some, if_true, Option.some.injEq, true_or, iff_true]
        rintro ⟨-, hconfirm⟩
        refine ⟨outgoing trace clock body, rfl, ?_⟩
        simp [hconfirm]
      | none =>
        simp only [Option.isSome_none, Bool.false_eq_true, if_false, Bool.false_and, false_or]
        constructor
        · rintro hrouted ⟨-, -, hback, htime⟩
          obtain ⟨verdict, hverdict⟩ := Option.isSome_iff_exists.mp hback
          obtain ⟨pub, -, hstored⟩ := hrouted ⟨htime, by rw [hverdict]; rfl⟩
          exact absurd hstored (by simp)
        · rintro hlate ⟨htime, hconfirm⟩
          exfalso
          refine hlate ⟨rfl, hsent, ?_, htime⟩
          cases hback : sent.confirm with
          | none => simp [hback] at hconfirm
          | some verdict => rfl

end Law

/-- A broker without the queue, as before the services have declared it. -/
def bareBroker : Broker := ⟨fun _ => none, [], [], []⟩

/-- The message is returned and confirmed: `Publish` says nil, and no queue took it. -/
theorem a_nil_without_a_queue :
    let r := publishAlone .classic 3 [] "audio.queue" (some (.object [])) bareBroker {} {} {}
    r.1 = .done (.ok ()) ∧ r.2.stored = [] ∧ r.2.returned.length = 1 ∧
      ¬ (r.1 = .done (.ok ()) → Enqueued bareBroker r.2 "audio.queue" (some (.object []))) := by
  intro r
  refine ⟨rfl, rfl, rfl, fun h => ?_⟩
  obtain ⟨pub, -, hstored⟩ := h rfl
  cases hstored

end recast_rules.queue
