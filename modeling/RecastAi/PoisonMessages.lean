-- Poison messages: what RabbitMQ does with a message whose processing fails
-- every time, on the queues that `DeclareQueue` makes, while the consumers run
-- their loops.
import Mathlib.Logic.Function.Basic
import RecastAi.ConsumerDuties
import RecastAi.QueueBroker

open call_programs py_text recast_rules.transcript recast_rules.models recast_rules.pipeline
open recast_rules.py
open recast_rules.deliveries (Consumer)
open recast_rules.queue (Args QueueType queueArgs dlqSuffix)

namespace recast_rules.poison

/-! ## The broker -/

/-- Where a message is. -/
inductive Place where
  | ready
  | unacked
  | acked
  | deadLettered (queue : String)
  | dropped

/-- The services' system with the broker's own record of each message, by its tag: how often it was
put back, and when it came. -/
structure Rabbit where
  system : System
  args : String → Args
  place : Nat → Place
  attempts : Nat → Nat
  arrived : Nat → Nat

/-- Where a dead message of a queue goes: the default exchange takes it to the queue of the key. -/
def grave (args : Args) : Place :=
  match args.deadLetterExchange, args.deadLetterRoutingKey with
  | some "", some key => .deadLettered key
  | _, _ => .dropped

/-- The table of the queue that the message is in. -/
def Rabbit.argsOf (s : Rabbit) (tag : Nat) : Args :=
  match s.system.accepted[tag]? with
  | none => {}
  | some e => s.args e.queue

def Rabbit.put (s : Rabbit) (tag : Nat) (place : Place) : Rabbit :=
  { s with place := Function.update s.place tag place }

/-- The message waited longer than `x-message-ttl`. -/
def Rabbit.expired (s : Rabbit) (now tag : Nat) : Bool :=
  match (s.argsOf tag).messageTTL with
  | none => false
  | some ttl => s.arrived tag + ttl ≤ now

/-- Expired messages are dead-lettered, if they wait. -/
def Rabbit.expire (s : Rabbit) (now : Nat) : Rabbit :=
  { s with
    place := fun tag =>
      match s.place tag with
      | .ready => if s.expired now tag then grave (s.argsOf tag) else .ready
      | p => p }

def Place.isReady : Place → Bool
  | .ready => true
  | _ => false

/-- Any message that waits in the queue may be the next one. -/
def Rabbit.receive (s : Rabbit) (o : Outcome) (queue : String) : Option (Nat × Json) × Rabbit :=
  let s := s.expire o.now
  match ((s.system.inQueue queue).filter fun x => (s.place x.1).isReady)[o.pick]? with
  | none => (none, s)
  | some x => (some x, s.put x.1 .unacked)

def Rabbit.acknowledge (s : Rabbit) (tag : Nat) : Rabbit :=
  match s.place tag with
  | .unacked => s.put tag .acked
  | _ => s

/-- `x-delivery-limit`. -/
def overLimit (args : Args) (attempts : Nat) : Bool :=
  match args.deliveryLimit with
  | none => false
  | some limit => limit < attempts

/-- A message that is not put back is dead-lettered, and so is one that was put back too often. -/
def Rabbit.reject (s : Rabbit) (tag : Nat) (requeue : Bool) : Rabbit :=
  match s.place tag with
  | .unacked =>
    if requeue then
      let attempts := s.attempts tag + 1
      let place := if overLimit (s.argsOf tag) attempts then grave (s.argsOf tag) else .ready
      { s.put tag place with attempts := Function.update s.attempts tag attempts }
    else s.put tag (grave (s.argsOf tag))
  | _ => s

/-- A message that the broker accepted waits in its queue. -/
def Rabbit.enqueue (s : Rabbit) (now : Nat) (system : System) : Rabbit :=
  if system.accepted.length = s.system.accepted.length then { s with system := system }
  else
    let tag := s.system.accepted.length
    { system := system
      args := s.args
      place := Function.update s.place tag .ready
      attempts := Function.update s.attempts tag 0
      arrived := Function.update s.arrived tag now }

def answerRabbit (o : Outcome) (s : Rabbit) : (c : Call) → Answer c × Rabbit
  | .receive queue => s.receive o queue
  | .ack tag => (reply o (), if landed o then s.acknowledge tag else s)
  | .nack tag requeue => (reply o (), if landed o then s.reject tag requeue else s)
  | .publish queue body =>
    ((answerCall o s.system (.publish queue body)).1,
      s.enqueue o.now (answerCall o s.system (.publish queue body)).2)
  | c => ((answerCall o s.system c).1, { s with system := (answerCall o s.system c).2 })

def rabbit : World Call Answer Rabbit Outcome := ⟨answerRabbit⟩

abbrev Snap := Shot Call Answer Rabbit

/-! ## A message with its deliveries -/

def received (tag : Nat) : (c : Call) → Answer c → Bool
  | .receive _, x => (x : Option (Nat × Json)).any (·.1 = tag)
  | _, _ => false

/-- How often the message was delivered. -/
def deliveries (tag : Nat) (log : List (Event Call Answer)) : Nat :=
  log.countP fun e => received tag e.call e.answer

def Acked (tag : Nat) (log : List (Event Call Answer)) : Prop := ∃ e ∈ log, e.call = .ack tag

/-- The connection that declares the queues, as `Connect` makes it. -/
def connection (queueType : QueueType) : queue.Connection := ⟨true, queueType, 3⟩

/-- At most three deliveries after the first, then the dead-letter queue: `d` counts the deliveries
and `a` how often the message was put back. -/
def Standing (queue : String) (d a : Nat) (acked : Prop) : Place → Prop
  | .ready => d = a ∧ a ≤ 3
  | .unacked => d = a + 1 ∧ a ≤ 3
  | .acked => acked
  | .deadLettered q => q = queue ++ dlqSuffix ∧ d ≤ 4
  | .dropped => False

structure Tracked (queueType : QueueType) (queue : String) (tag : Nat) (s : Snap) : Prop where
  message : ∃ e, s.state.system.accepted[tag]? = some e ∧ e.queue = queue
  args : s.state.args queue = queueArgs (connection queueType) queue
  standing : Standing queue (deliveries tag s.log) (s.state.attempts tag) (Acked tag s.log)
    (s.state.place tag)

theorem grave_queueArgs (queueType : QueueType) (queue : String) :
    grave (queueArgs (connection queueType) queue) = .deadLettered (queue ++ dlqSuffix) := by
  cases queueType <;> rfl

theorem Tracked.argsOf {queueType : QueueType} {queue : String} {tag : Nat} {s : Snap}
    (h : Tracked queueType queue tag s) :
    s.state.argsOf tag = queueArgs (connection queueType) queue := by
  obtain ⟨e, he, hqueue⟩ := h.message
  unfold Rabbit.argsOf
  rw [he, ← h.args, ← hqueue]

theorem deliveries_cons (tag : Nat) (e : Event Call Answer) (log : List (Event Call Answer)) :
    deliveries tag (e :: log) =
      deliveries tag log + if received tag e.call e.answer then 1 else 0 := by
  unfold deliveries
  rw [List.countP_cons]

theorem Acked.cons {tag : Nat} {e : Event Call Answer} {log : List (Event Call Answer)}
    (h : Acked tag log) : Acked tag (e :: log) := by
  obtain ⟨e', he', hcall⟩ := h
  exact ⟨e', List.mem_cons_of_mem _ he', hcall⟩

theorem Standing.mono {queue : String} {d a : Nat} {acked acked' : Prop} {p : Place}
    (h : Standing queue d a acked p) (hacked : acked → acked') : Standing queue d a acked' p := by
  cases p with
  | acked => exact hacked h
  | _ => exact h

/-! ## What the broker does -/

@[simp] theorem expire_attempts (s : Rabbit) (now : Nat) : (s.expire now).attempts = s.attempts := rfl

@[simp] theorem put_place (s : Rabbit) (tag : Nat) (p : Place) : (s.put tag p).place tag = p := by
  simp [Rabbit.put]

theorem receive_cases (s : Rabbit) (o : Outcome) (queue : String) :
    s.receive o queue = (none, s.expire o.now) ∨
      ∃ x, (s.expire o.now).place x.1 = .ready ∧
        s.receive o queue = (some x, (s.expire o.now).put x.1 .unacked) := by
  unfold Rabbit.receive
  dsimp only
  split
  · exact Or.inl rfl
  · rename_i x hx
    have hready := (List.mem_filter.mp (List.mem_of_getElem? hx)).2
    refine Or.inr ⟨x, ?_, rfl⟩
    cases hplace : (s.expire o.now).place x.1 with
    | ready => rfl
    | _ => simp [hplace, Place.isReady] at hready

theorem acknowledge_cases (s : Rabbit) (tag : Nat) :
    s.acknowledge tag = s ∨ s.place tag = .unacked ∧ s.acknowledge tag = s.put tag .acked := by
  unfold Rabbit.acknowledge
  split
  · rename_i hplace
    exact Or.inr ⟨hplace, rfl⟩
  · exact Or.inl rfl

/-- Where a message goes that is put back. -/
def backTo (args : Args) (attempts : Nat) : Place :=
  if overLimit args attempts then grave args else .ready

theorem reject_cases (s : Rabbit) (tag : Nat) (requeue : Bool) :
    s.reject tag requeue = s ∨ s.place tag = .unacked ∧
      (requeue = false ∧ s.reject tag requeue = s.put tag (grave (s.argsOf tag)) ∨
        requeue = true ∧ s.reject tag requeue =
          { s.put tag (backTo (s.argsOf tag) (s.attempts tag + 1)) with
            attempts := Function.update s.attempts tag (s.attempts tag + 1) }) := by
  unfold Rabbit.reject
  split
  · rename_i hplace
    cases requeue with
    | false => exact Or.inr ⟨hplace, Or.inl ⟨rfl, rfl⟩⟩
    | true => exact Or.inr ⟨hplace, Or.inr ⟨rfl, rfl⟩⟩
  · exact Or.inl rfl

/-- The tables stay, and the system is what the services made of it. -/
theorem kept_after (o : Outcome) (s : Rabbit) (c : Call) :
    (answerRabbit o s c).2.args = s.args ∧
      ((answerRabbit o s c).2.system = s.system ∨
        (answerRabbit o s c).2.system = (answerCall o s.system c).2) := by
  cases c with
  | receive queue =>
    change (s.receive o queue).2.args = _ ∧ ((s.receive o queue).2.system = _ ∨ _)
    rcases receive_cases s o queue with h | ⟨x, -, h⟩
    · rw [h]
      exact ⟨rfl, Or.inl rfl⟩
    · rw [h]
      exact ⟨rfl, Or.inl rfl⟩
  | ack tag =>
    change (if landed o then s.acknowledge tag else s).args = _ ∧
      ((if landed o then s.acknowledge tag else s).system = _ ∨ _)
    split
    · rcases acknowledge_cases s tag with h | ⟨-, h⟩
      · rw [h]
        exact ⟨rfl, Or.inl rfl⟩
      · rw [h]
        exact ⟨rfl, Or.inl rfl⟩
    · exact ⟨rfl, Or.inl rfl⟩
  | nack tag requeue =>
    change (if landed o then s.reject tag requeue else s).args = _ ∧
      ((if landed o then s.reject tag requeue else s).system = _ ∨ _)
    split
    · rcases reject_cases s tag requeue with h | ⟨-, ⟨-, h⟩ | ⟨-, h⟩⟩
      · rw [h]
        exact ⟨rfl, Or.inl rfl⟩
      · rw [h]
        exact ⟨rfl, Or.inl rfl⟩
      · rw [h]
        exact ⟨rfl, Or.inl rfl⟩
    · exact ⟨rfl, Or.inl rfl⟩
  | publish queue body =>
    change (s.enqueue _ _).args = _ ∧ (_ ∨ (s.enqueue _ _).system = _)
    unfold Rabbit.enqueue
    split
    · exact ⟨rfl, Or.inr rfl⟩
    · exact ⟨rfl, Or.inr rfl⟩
  | _ => exact ⟨rfl, Or.inr rfl⟩

theorem message_after {tag : Nat} {e : Envelope} (o : Outcome) (s : Rabbit) (c : Call)
    (h : s.system.accepted[tag]? = some e) :
    (answerRabbit o s c).2.system.accepted[tag]? = some e := by
  rcases (kept_after o s c).2 with hsame | hsame
  · rw [hsame]
    exact h
  · rw [hsame]
    rcases accepted_after o s.system c with hkept | ⟨queue, body, -, hmore⟩
    · rw [hkept]
      exact h
    · rw [hmore, List.getElem?_append_left (List.getElem?_eq_some_iff.mp h).1]
      exact h

/-! ## One step -/

section Step

variable {queueType : QueueType} {queue : String} {tag : Nat} {s : Snap}

/-- The message is where it may be, after one more event. -/
def StandsAfter (queue : String) (tag : Nat) (s : Snap) (e : Event Call Answer) (r : Rabbit) :
    Prop :=
  Standing queue (deliveries tag (e :: s.log)) (r.attempts tag) (Acked tag (e :: s.log))
    (r.place tag)

theorem stands_same (h : Tracked queueType queue tag s) {e : Event Call Answer} {r : Rabbit}
    (he : received tag e.call e.answer = false) (hattempts : r.attempts tag = s.state.attempts tag)
    (hplace : r.place tag = s.state.place tag) : StandsAfter queue tag s e r := by
  unfold StandsAfter
  rw [deliveries_cons, he, hattempts, hplace]
  exact h.standing.mono Acked.cons

/-- An expired message is dead-lettered. -/
theorem standing_expire (h : Tracked queueType queue tag s) (now : Nat) :
    Standing queue (deliveries tag s.log) (s.state.attempts tag) (Acked tag s.log)
      ((s.state.expire now).place tag) := by
  have hstanding := h.standing
  unfold Rabbit.expire
  dsimp only
  cases hplace : s.state.place tag with
  | ready =>
    rw [hplace] at hstanding
    dsimp only
    split
    · rw [h.argsOf, grave_queueArgs]
      refine ⟨rfl, ?_⟩
      have hcount := hstanding.1
      have hlimit := hstanding.2
      omega
    · exact hstanding
  | _ =>
    rw [hplace] at hstanding
    exact hstanding

theorem stands_receive (h : Tracked queueType queue tag s) (i : Nat) (q : String) (o : Outcome) :
    StandsAfter queue tag s ⟨i, .receive q, (s.state.receive o q).1⟩ (s.state.receive o q).2 := by
  have hexpire := standing_expire h o.now
  unfold StandsAfter
  rw [deliveries_cons]
  rcases receive_cases s.state o q with hnone | ⟨x, hready, hsome⟩
  · rw [hnone]
    exact hexpire.mono Acked.cons
  · rw [hsome]
    by_cases htag : x.1 = tag
    · subst htag
      rw [hready] at hexpire
      simp only [Rabbit.put, received, Function.update_self]
      refine ⟨?_, hexpire.2⟩
      simpa using hexpire.1
    · simp only [Rabbit.put, received, Function.update_of_ne (Ne.symm htag)]
      simpa [htag] using hexpire.mono Acked.cons

theorem stands_ack (h : Tracked queueType queue tag s) (i t : Nat) (o : Outcome)
    (x : Answer (.ack t)) :
    StandsAfter queue tag s ⟨i, .ack t, x⟩ (if landed o then s.state.acknowledge t else s.state) := by
  split
  · rcases acknowledge_cases s.state t with hsame | ⟨-, hacked⟩
    · rw [hsame]
      exact stands_same h rfl rfl rfl
    · rw [hacked]
      by_cases htag : t = tag
      · subst htag
        unfold StandsAfter
        simp only [Rabbit.put, Function.update_self]
        exact ⟨_, List.mem_cons_self, rfl⟩
      · exact stands_same h rfl rfl (Function.update_of_ne (Ne.symm htag) _ _)
  · exact stands_same h rfl rfl rfl

/-- On a quorum queue the fourth time that a message is put back is the last. -/
theorem standing_backTo {d a : Nat} {acked : Prop} (hcount : d = a + 1) (hlimit : a ≤ 3) :
    Standing queue d (a + 1) acked (backTo (queueArgs (connection .quorum) queue) (a + 1)) := by
  unfold backTo
  have hover : overLimit (queueArgs (connection .quorum) queue) (a + 1) = decide (3 < a + 1) := rfl
  rw [hover, grave_queueArgs]
  by_cases hlast : 3 < a + 1
  · rw [if_pos (by simpa using hlast)]
    exact ⟨rfl, by omega⟩
  · rw [if_neg (by simpa using hlast)]
    exact ⟨hcount, by omega⟩

theorem stands_nack (h : Tracked queueType queue tag s) (i t : Nat) (requeue : Bool) (o : Outcome)
    (x : Answer (.nack t requeue)) (hadmitted : queueType = .quorum ∨ requeue = false) :
    StandsAfter queue tag s ⟨i, .nack t requeue, x⟩
      (if landed o then s.state.reject t requeue else s.state) := by
  have hstanding := h.standing
  split
  · by_cases htag : t = tag
    · subst htag
      rcases reject_cases s.state t requeue with hsame | ⟨hunacked, ⟨-, hdead⟩ | ⟨hrequeue, hback⟩⟩
      · rw [hsame]
        exact stands_same h rfl rfl rfl
      · rw [hunacked] at hstanding
        rw [hdead]
        unfold StandsAfter
        simp only [Rabbit.put, Function.update_self, h.argsOf, grave_queueArgs, deliveries_cons,
          received]
        refine ⟨rfl, ?_⟩
        have hcount := hstanding.1
        have hlimit := hstanding.2
        simp only [Bool.false_eq_true, if_false]
        omega
      · have hquorum : queueType = .quorum := by
          rcases hadmitted with hquorum | hkept
          · exact hquorum
          · rw [hrequeue] at hkept
            cases hkept
        subst hquorum
        rw [hunacked] at hstanding
        rw [hback]
        unfold StandsAfter
        simp only [Rabbit.put, Function.update_self, h.argsOf, deliveries_cons, received]
        exact standing_backTo hstanding.1 hstanding.2
    · rcases reject_cases s.state t requeue with hsame | ⟨-, ⟨-, hdead⟩ | ⟨-, hback⟩⟩
      · rw [hsame]
        exact stands_same h rfl rfl rfl
      · rw [hdead]
        exact stands_same h rfl rfl (Function.update_of_ne (Ne.symm htag) _ _)
      · rw [hback]
        exact stands_same h rfl (Function.update_of_ne (Ne.symm htag) _ _)
          (Function.update_of_ne (Ne.symm htag) _ _)
  · exact stands_same h rfl rfl rfl

theorem stands_publish (h : Tracked queueType queue tag s) (i : Nat) (q : String)
    (body : Option Json) (now : Nat) (system : System) (x : Answer (.publish q body)) :
    StandsAfter queue tag s ⟨i, .publish q body, x⟩ (s.state.enqueue now system) := by
  obtain ⟨e, he, -⟩ := h.message
  have hne : tag ≠ s.state.system.accepted.length := by
    have := (List.getElem?_eq_some_iff.mp he).1
    omega
  unfold Rabbit.enqueue
  split
  · exact stands_same h rfl rfl rfl
  · exact stands_same h rfl (Function.update_of_ne hne _ _) (Function.update_of_ne hne _ _)

/-- The calls that the queue bears: on a classic queue nothing is put back. -/
def Admitted (queueType : QueueType) (c : Call) : Prop :=
  queueType = .quorum ∨ ∀ tag, c ≠ .nack tag true

theorem tracked_step {i : Nat} {c : Call} {o : Outcome} (hc : Admitted queueType c)
    (h : Tracked queueType queue tag s) : Tracked queueType queue tag (s.after rabbit i c o) := by
  obtain ⟨e, he, hqueue⟩ := h.message
  refine ⟨⟨e, message_after o s.state c he, hqueue⟩, ?_, ?_⟩
  · change (answerRabbit o s.state c).2.args queue = _
    rw [(kept_after o s.state c).1]
    exact h.args
  · change StandsAfter queue tag s ⟨i, c, (answerRabbit o s.state c).1⟩ (answerRabbit o s.state c).2
    cases c with
    | receive q => exact stands_receive h i q o
    | ack t => exact stands_ack h i t o _
    | nack t requeue =>
      apply stands_nack h
      rcases hc with hquorum | hkept
      · exact Or.inl hquorum
      · cases requeue with
        | false => exact Or.inr rfl
        | true => exact absurd rfl (hkept t)
    | publish q body => exact stands_publish h i q body _ _ _
    | _ => exact stands_same h rfl rfl rfl

/-- Nothing takes a message out of the dead-letter queue. -/
theorem dead_step {r : Rabbit} {e : Envelope} {q : String} (o : Outcome) (c : Call)
    (hmessage : r.system.accepted[tag]? = some e) (h : r.place tag = .deadLettered q) :
    (answerRabbit o r c).2.place tag = .deadLettered q := by
  have hput : ∀ t p, r.place t = .unacked → (r.put t p).place tag = .deadLettered q := by
    intro t p hunacked
    have hne : tag ≠ t := by
      rintro rfl
      rw [h] at hunacked
      cases hunacked
    exact (Function.update_of_ne hne _ _).trans h
  cases c with
  | receive queue =>
    change (r.receive o queue).2.place tag = _
    have hexpire : (r.expire o.now).place tag = .deadLettered q := by
      unfold Rabbit.expire
      simp only [h]
    rcases receive_cases r o queue with hnone | ⟨x, hready, hsome⟩
    · rw [hnone]
      exact hexpire
    · rw [hsome]
      have hne : tag ≠ x.1 := by
        rintro rfl
        rw [hexpire] at hready
        cases hready
      exact (Function.update_of_ne hne _ _).trans hexpire
  | ack t =>
    change (if landed o then r.acknowledge t else r).place tag = _
    split
    · rcases acknowledge_cases r t with hsame | ⟨hunacked, hacked⟩
      · rw [hsame]
        exact h
      · rw [hacked]
        exact hput t _ hunacked
    · exact h
  | nack t requeue =>
    change (if landed o then r.reject t requeue else r).place tag = _
    split
    · rcases reject_cases r t requeue with hsame | ⟨hunacked, ⟨-, hdead⟩ | ⟨-, hback⟩⟩
      · rw [hsame]
        exact h
      · rw [hdead]
        exact hput t _ hunacked
      · rw [hback]
        exact hput t _ hunacked
    · exact h
  | publish queue body =>
    change (r.enqueue _ _).place tag = _
    have hne : tag ≠ r.system.accepted.length := by
      have := (List.getElem?_eq_some_iff.mp hmessage).1
      omega
    unfold Rabbit.enqueue
    split
    · exact h
    · exact (Function.update_of_ne hne _ _).trans h
  | _ => exact h

end Step

/-! ## The consumers -/

def queueOf : Consumer → String
  | .analyzer _ => analyzer.ingestionQueue
  | .synthesis _ => tts.transcriptQueue
  | .mux => mux.audioQueue
  | .delivery => delivery.deliveryQueue

/-- The two consumers in Python dead-letter what they fail at. -/
def isPython : Consumer → Bool
  | .analyzer _ => true
  | .synthesis _ => true
  | .mux => false
  | .delivery => false

def NeverRequeues (c : Call) : Prop := ∀ tag, c ≠ .nack tag true

theorem analyzer_never_requeues (repr : Json → Text) (conn : Conn) (n : Nat) :
    (analyzer.consume repr conn n).Only NeverRequeues fun _ => True := by
  induction n with
  | zero => trivial
  | succ n ih =>
    unfold analyzer.consume
    apply only_bind (Q := fun _ => True) (ask_only (by simp [NeverRequeues]))
    rintro (_ | ⟨tag, msg⟩) _
    · exact ih
    refine only_bind (Q := fun _ => True) ?_ fun _ _ => ih
    unfold analyzer.serve
    have hwork : attemptOnly NeverRequeues (fun _ => True) (fun _ => True)
        (analyzer.processMessage repr conn msg *> must (ask (.ack tag))) := by
      apply then_only
      · exact attempt_mono (analyzer.processMessage_analyzes repr conn msg)
          (fun c hc t => hc.2 t true) (fun _ h => h) fun _ h => h
      · exact fun _ => must_only (ask_only (by simp [NeverRequeues]))
    apply only_bind hwork
    intro x _
    cases x with
    | ok _ => trivial
    | error e => exact ⟨by simp [NeverRequeues], fun _ => ⟨by simp [NeverRequeues], fun _ => trivial⟩⟩

theorem makes_never_requeues {conn : Conn} {ph : transactions.Phase} {c : Call}
    (h : tts.Makes conn ph c) : NeverRequeues c := by
  rintro t rfl
  cases h with
  | speaks h => cases h

theorem synthesis_never_requeues (cfg : tts.Settings) (conn : Conn) (n : Nat) :
    (tts.consume cfg conn n).Only NeverRequeues fun _ => True := by
  induction n with
  | zero => trivial
  | succ n ih =>
    unfold tts.consume
    apply only_bind (Q := fun _ => True) (ask_only (by simp [NeverRequeues]))
    rintro (_ | ⟨tag, msg⟩) _
    · exact ih
    refine only_bind (Q := fun _ => True) ?_ fun _ _ => ih
    exact only_of_follows (tts.serve_follows cfg conn tag msg 0 (h := []) rfl)
      fun _ _ => makes_never_requeues

theorem python_never_requeues {consumer : Consumer} (h : isPython consumer = true) (conn : Conn)
    (n : Nat) : (consumer.program conn n).Only NeverRequeues fun _ => True := by
  cases consumer with
  | analyzer repr => exact analyzer_never_requeues repr conn n
  | synthesis cfg => exact synthesis_never_requeues cfg conn n
  | mux => cases h
  | delivery => cases h

/-! ## Runs -/

/-- Any number of replicas of the consumer, each with its connection to the database and its
rounds. -/
def start (consumer : Consumer) (replicas : List (Conn × Nat)) (s : Rabbit) :
    Config Call Answer Rabbit Unit :=
  ⟨⟨s, []⟩, replicas.map fun r => consumer.program r.1 r.2⟩

/-- A body that is no JSON is read like a number: neither can be decoded. -/
def onWire (body : Option Json) : Json := body.getD (.int 0)

/-- The message waits in the queue of its consumer, and it was not delivered yet. -/
structure Waiting (consumer : Consumer) (queueType : QueueType) (body : Option Json) (tag : Nat)
    (s : Rabbit) : Prop where
  message : s.system.accepted[tag]? = some ⟨queueOf consumer, onWire body⟩
  args : s.args (queueOf consumer) = queueArgs (connection queueType) (queueOf consumer)
  place : s.place tag = .ready
  attempts : s.attempts tag = 0

/-- At most three deliveries after the first, and then the dead-letter queue. -/
def Contained (queue : String) (tag : Nat) (s : Snap) : Prop :=
  match s.state.place tag with
  | .ready => deliveries tag s.log ≤ 3
  | .unacked => deliveries tag s.log ≤ 4
  | .deadLettered q => q = queue ++ dlqSuffix ∧ deliveries tag s.log ≤ 4
  | _ => False

/-- Where the processing of the message fails every time, it is contained, and what is in the
dead-letter queue sits there. -/
def ReachesDLQ (consumer : Consumer) (queueType : QueueType) (body : Option Json) : Prop :=
  ∀ replicas tag s picks, Waiting consumer queueType body tag s →
    let cfg := schedule rabbit picks (start consumer replicas s)
    ¬ Acked tag cfg.shot.log →
      Contained (queueOf consumer) tag cfg.shot ∧
      ∀ q, cfg.shot.state.place tag = .deadLettered q → ∀ more,
        (schedule rabbit more cfg).shot.state.place tag = .deadLettered q

theorem tracked_run {consumer : Consumer} {queueType : QueueType} {body : Option Json} {tag : Nat}
    {s : Rabbit} (hcontained : isPython consumer = true ∨ queueType = .quorum)
    (h : Waiting consumer queueType body tag s) (replicas : List (Conn × Nat))
    (picks : List (Nat × Outcome)) :
    Tracked queueType (queueOf consumer) tag
      (schedule rabbit picks (start consumer replicas s)).shot := by
  have hfollow : AllFollow (fun _ _ c => Admitted queueType c) (fun _ _ _ => True)
      (start consumer replicas s) := by
    refine allFollow_map fun i r _ => ?_
    rcases hcontained with hpython | hquorum
    · exact follows_only (python_never_requeues hpython r.1 r.2) fun _ _ hc => Or.inr hc
    · exact follows_only (only_any _) fun _ _ _ => Or.inl hquorum
  have hstart : Tracked queueType (queueOf consumer) tag (start consumer replicas s).shot := by
    refine ⟨⟨_, h.message, rfl⟩, h.args, ?_⟩
    change Standing _ 0 (s.attempts tag) _ (s.place tag)
    rw [h.place, h.attempts]
    exact ⟨rfl, Nat.zero_le _⟩
  exact invariant_of_due (fun s i c o hc hs => tracked_step hc hs) hfollow hstart picks

theorem contained_of_tracked {queueType : QueueType} {queue : String} {tag : Nat} {s : Snap}
    (h : Tracked queueType queue tag s) (hfails : ¬ Acked tag s.log) : Contained queue tag s := by
  have hstanding := h.standing
  unfold Contained
  cases hplace : s.state.place tag with
  | ready =>
    rw [hplace] at hstanding
    dsimp only
    have hcount := hstanding.1
    have hlimit := hstanding.2
    omega
  | unacked =>
    rw [hplace] at hstanding
    dsimp only
    have hcount := hstanding.1
    have hlimit := hstanding.2
    omega
  | acked =>
    rw [hplace] at hstanding
    exact absurd hstanding hfails
  | deadLettered q =>
    rw [hplace] at hstanding
    exact hstanding
  | dropped =>
    rw [hplace] at hstanding
    exact hstanding

theorem dead_letters_stay {tag : Nat} {e : Envelope} {q : String}
    {cfg : Config Call Answer Rabbit Unit}
    (hmessage : cfg.shot.state.system.accepted[tag]? = some e)
    (h : cfg.shot.state.place tag = .deadLettered q) (more : List (Nat × Outcome)) :
    (schedule rabbit more cfg).shot.state.place tag = .deadLettered q := by
  induction more generalizing cfg with
  | nil => exact h
  | cons pick more ih =>
    rcases advance_cases rabbit cfg pick with hsame | ⟨c, k, -, hstep⟩
    · unfold schedule
      rw [hsame]
      exact ih hmessage h
    · unfold schedule
      rw [hstep]
      exact ih (message_after pick.2 _ c hmessage) (dead_step pick.2 c hmessage h)

/-! ## A poison message on a classic queue -/

/-- The processing can fail before it has done anything: it gives up on the body, or its first
statement fails. -/
def FailsAtOnce (p : Attempt Call Answer String Unit) : Prop :=
  (∃ e, p.run = .done (.error e)) ∨
    ∃ st k, p.run = .call (.exec none st) k ∧ ∀ e, ∃ e', k (.error e) = .done (.error e')

theorem mux_fails_at_once (body : Json) : FailsAtOnce (mux.processMessage body) := by
  unfold mux.processMessage
  cases decodeMessage body with
  | none => exact Or.inl ⟨_, rfl⟩
  | some msg =>
    change FailsAtOnce (someOr (decodeAudio msg.payload) _ >>= _)
    cases decodeAudio msg.payload with
    | none => exact Or.inl ⟨_, rfl⟩
    | some payload => exact Or.inr ⟨_, _, rfl, fun e => ⟨_, rfl⟩⟩

theorem delivery_fails_at_once (body : Json) : FailsAtOnce (delivery.processMessage body) := by
  unfold delivery.processMessage
  cases decodeMessage body with
  | none => exact Or.inl ⟨_, rfl⟩
  | some msg =>
    change FailsAtOnce (someOr (decodeDelivery msg.payload) _ >>= _)
    cases decodeDelivery msg.payload with
    | none => exact Or.inl ⟨_, rfl⟩
    | some payload => exact Or.inr ⟨_, _, rfl, fun e => ⟨_, rfl⟩⟩

/-- The broker of a classic queue with one message that waits. -/
structure Poised (queue : String) (body : Json) (s : Rabbit) : Prop where
  accepted : s.system.accepted = [⟨queue, body⟩]
  args : s.args queue = queueArgs (connection .classic) queue
  place : s.place 0 = .ready

section Round

variable {queue : String} {body : Json} {s : Rabbit}

theorem poised_argsOf (h : Poised queue body s) :
    s.argsOf 0 = queueArgs (connection .classic) queue := by
  unfold Rabbit.argsOf
  rw [h.accepted, ← h.args]
  rfl

/-- At the time 0 nothing is expired, and the message is delivered. -/
theorem receive_poised (h : Poised queue body s) :
    s.receive {} queue = (some (0, body), (s.expire 0).put 0 .unacked) := by
  have hfresh : s.expired 0 0 = false := by
    have httl : (s.argsOf 0).messageTTL = some 86400000 := by
      rw [poised_argsOf h]
      rfl
    unfold Rabbit.expired
    simp only [httl, decide_eq_false_iff_not]
    omega
  have hready : (s.expire 0).place 0 = .ready := by
    unfold Rabbit.expire
    simp only [h.place, hfresh, Bool.false_eq_true, if_false]
  have hqueue : (s.expire 0).system.inQueue queue = [(0, body)] := by
    change s.system.inQueue queue = _
    unfold System.inQueue
    rw [h.accepted]
    simp
  unfold Rabbit.receive
  simp only [hqueue, List.filter_cons, hready, List.filter_nil, Place.isReady, if_true]
  rfl

/-- The consumer has the message. -/
structure Held (queue : String) (body : Json) (s : Rabbit) : Prop where
  accepted : s.system.accepted = [⟨queue, body⟩]
  args : s.args queue = queueArgs (connection .classic) queue
  place : s.place 0 = .unacked

theorem held_receive (h : Poised queue body s) : Held queue body (s.receive {} queue).2 := by
  rw [receive_poised h]
  exact ⟨h.accepted, h.args, put_place ..⟩

/-- A classic queue takes the message back, however often. -/
theorem poised_reject (h : Held queue body s) : Poised queue body (s.reject 0 true) := by
  have hargs : s.argsOf 0 = queueArgs (connection .classic) queue := by
    unfold Rabbit.argsOf
    rw [h.accepted, ← h.args]
    rfl
  have hlimit : ∀ n, overLimit (queueArgs (connection .classic) queue) n = false := fun _ => rfl
  unfold Rabbit.reject
  simp only [h.place, if_true, hargs, hlimit, Bool.false_eq_true, if_false]
  exact ⟨h.accepted, h.args, put_place s 0 .ready⟩

/-- A statement that fails leaves the message with the consumer. -/
theorem held_exec (h : Held queue body s) (st : Statement) :
    (∃ e, (answerRabbit { fails := true } s (.exec none st)).1 = .error e) ∧
      Held queue body (answerRabbit { fails := true } s (.exec none st)).2 := by
  constructor
  · change ∃ e, (answerExec { fails := true } s.system none st).1 = _
    rcases exec_alone_cases { fails := true } s.system st with ⟨e, -, he⟩ | ⟨n, db, -, he | he | he⟩
    · exact ⟨e, by rw [he]⟩
    · unfold answerExec at he
      dsimp only at he
      split at he
      · cases he
      · cases congrArg Prod.fst he
    · exact ⟨_, by rw [he]⟩
    · exact ⟨_, by rw [he]⟩
  · refine ⟨?_, h.args, h.place⟩
    change (answerCall { fails := true } s.system (.exec none st)).2.accepted = _
    rcases accepted_after { fails := true } s.system (.exec none st) with hsame | ⟨q, b, hcall, -⟩
    · rw [hsame]
      exact h.accepted
    · cases hcall

end Round

/-! ## One failing round -/

section FailingRound

variable {queue : String} {body : Json} {process : consumers.Process} {n : Nat} {s : Snap}

/-- A step of a thread that runs alone. -/
theorem advance_alone (s : Snap) (c : Call) (k : Answer c → Service Unit) (o : Outcome) :
    advance rabbit ⟨s, [.call c k]⟩ (0, o) =
      ⟨s.after rabbit 0 c o, [k (answerRabbit o s.state c).1]⟩ := rfl

/-- What a failing round leaves: the message waits again, delivered once more. -/
structure PutBack (queue : String) (body : Json) (deliveredBefore : Nat) (s : Snap) : Prop where
  poised : Poised queue body s.state
  delivered : deliveries 0 s.log = deliveredBefore + 1
  fails : ¬ Acked 0 s.log

theorem not_acked_cons {e : Event Call Answer} {log : List (Event Call Answer)}
    (he : e.call ≠ .ack 0) (h : ¬ Acked 0 log) : ¬ Acked 0 (e :: log) := by
  rintro ⟨e', he', hcall⟩
  rcases List.mem_cons.mp he' with rfl | he'
  · exact he hcall
  · exact h ⟨e', he', hcall⟩

theorem nack_puts_back {d : Nat} (hheld : Held queue body s.state)
    (hdelivered : deliveries 0 s.log = d + 1) (hfails : ¬ Acked 0 s.log) :
    PutBack queue body d (s.after rabbit 0 (.nack 0 true) {}) where
  poised := poised_reject hheld
  delivered := by
    change deliveries 0 (_ :: s.log) = _
    rw [deliveries_cons, hdelivered]
    rfl
  fails := not_acked_cons (nofun) hfails

/-- The consumer with the message at hand. -/
def atWork (queue : String) (process : consumers.Process) (n : Nat) (body : Json) : Service Unit := do
  let _ ← consumers.serve process 0 body
  consumers.consume queue process n

/-- The first step of a round: the message is delivered. -/
theorem schedule_delivered (hpoised : Poised queue body s.state) :
    schedule rabbit [(0, {})] ⟨s, [consumers.consume queue process (n + 1)]⟩ =
      ⟨s.after rabbit 0 (.receive queue) {}, [atWork queue process n body]⟩ := by
  have hanswer : (answerRabbit {} s.state (.receive queue)).1 = some (0, body) := by
    change (s.state.receive {} queue).1 = _
    rw [receive_poised hpoised]
  change advance rabbit ⟨s, [.call (.receive queue) _]⟩ (0, {}) = _
  rw [advance_alone, hanswer]
  rfl

/-- A failing round on the side of the consumer. -/
theorem schedule_fails {d : Nat} (hprocess : FailsAtOnce (process body))
    (hheld : Held queue body s.state) (hdelivered : deliveries 0 s.log = d + 1)
    (hfails : ¬ Acked 0 s.log) :
    ∃ picks s', schedule rabbit picks ⟨s, [atWork queue process n body]⟩ =
        ⟨s', [consumers.consume queue process n]⟩ ∧ PutBack queue body d s' := by
  unfold atWork consumers.serve
  rcases hprocess with ⟨e, hdone⟩ | ⟨st, k, hcall, herror⟩
  · rw [hdone]
    exact ⟨[(0, {})], s.after rabbit 0 (.nack 0 true) {}, rfl,
      nack_puts_back hheld hdelivered hfails⟩
  · obtain ⟨⟨e, hanswer⟩, hheld'⟩ := held_exec hheld st
    obtain ⟨e', hthrown⟩ := herror e
    rw [hcall]
    refine ⟨[(0, { fails := true }), (0, {})],
      (s.after rabbit 0 (.exec none st) { fails := true }).after rabbit 0 (.nack 0 true) {}, ?_, ?_⟩
    · change advance rabbit (advance rabbit ⟨s, [.call (.exec none st) _]⟩ (0, { fails := true }))
        (0, {}) = _
      rw [advance_alone, hanswer]
      dsimp only
      rw [hthrown]
      rfl
    · apply nack_puts_back hheld'
      · change deliveries 0 (_ :: s.log) = _
        rw [deliveries_cons, hdelivered]
        rfl
      · exact not_acked_cons nofun hfails

theorem failing_round (hprocess : FailsAtOnce (process body)) (hpoised : Poised queue body s.state)
    (hfails : ¬ Acked 0 s.log) :
    ∃ picks s', schedule rabbit picks ⟨s, [consumers.consume queue process (n + 1)]⟩ =
        ⟨s', [consumers.consume queue process n]⟩ ∧
      PutBack queue body (deliveries 0 s.log) s' := by
  have hheld : Held queue body (s.after rabbit 0 (.receive queue) {}).state := held_receive hpoised
  have hdelivered : deliveries 0 (s.after rabbit 0 (.receive queue) {}).log =
      deliveries 0 s.log + 1 := by
    change deliveries 0 (⟨0, .receive queue, (s.state.receive {} queue).1⟩ :: s.log) = _
    rw [deliveries_cons, receive_poised hpoised]
    rfl
  obtain ⟨picks, s', hrest, hback⟩ := schedule_fails hprocess hheld hdelivered
    (not_acked_cons nofun hfails) (n := n)
  refine ⟨(0, {}) :: picks, s', ?_, hback⟩
  rw [← List.singleton_append, schedule_append, schedule_delivered hpoised]
  exact hrest

/-- So it goes round after round. -/
theorem failing_rounds (hprocess : FailsAtOnce (process body)) (k : Nat)
    (hpoised : Poised queue body s.state) (hfails : ¬ Acked 0 s.log) :
    ∃ picks s', schedule rabbit picks ⟨s, [consumers.consume queue process (k + n)]⟩ =
        ⟨s', [consumers.consume queue process n]⟩ ∧
      Poised queue body s'.state ∧ deliveries 0 s'.log = deliveries 0 s.log + k ∧
      ¬ Acked 0 s'.log := by
  induction k generalizing s with
  | zero => exact ⟨[], s, by rw [Nat.zero_add]; rfl, hpoised, rfl, hfails⟩
  | succ k ih =>
    obtain ⟨picks, s₁, hround, hback⟩ := failing_round hprocess hpoised hfails (n := k + n)
    obtain ⟨more, s', hrest, hpoised', hcount, hfails'⟩ := ih hback.poised hback.fails
    refine ⟨picks ++ more, s', ?_, hpoised', ?_, hfails'⟩
    · rw [schedule_append, show k + 1 + n = k + n + 1 by omega, hround]
      exact hrest
    · rw [hcount, hback.delivered]
      omega

end FailingRound

/-! ## The law -/

/-- A broker whose only message waits in its queue. -/
def oneMessage (queueType : QueueType) (queue : String) (body : Json) : Rabbit where
  system := ⟨⟨[], [], [], []⟩, fun _ => .idle, 0, fun _ => none, [⟨queue, body⟩], []⟩
  args := queueArgs (connection queueType)
  place _ := .ready
  attempts _ := 0
  arrived _ := 0

/-- Four failing rounds on a classic queue, and the message waits for the fifth delivery. -/
theorem not_contained {consumer : Consumer} (process : consumers.Process) {body : Option Json}
    (hconsumer : ∀ conn n, consumer.program conn n = consumers.consume (queueOf consumer) process n)
    (hprocess : FailsAtOnce (process (onWire body))) :
    ¬ ReachesDLQ consumer .classic body := by
  intro h
  let s := oneMessage .classic (queueOf consumer) (onWire body)
  obtain ⟨picks, s', hrun, hpoised, hcount, hfails⟩ :=
    failing_rounds (n := 0) (s := ⟨s, []⟩) hprocess 4 ⟨rfl, rfl, rfl⟩
      (fun ⟨_, he, _⟩ => nomatch he)
  have hcontained := h [(.worker 0, 4)] 0 s picks ⟨rfl, rfl, rfl, rfl⟩
  have hstart : start consumer [(.worker 0, 4)] s =
      ⟨⟨s, []⟩, [consumers.consume (queueOf consumer) process 4]⟩ := by
    unfold start
    rw [List.map_singleton, hconsumer]
  rw [hstart] at hcontained
  dsimp only at hcontained
  rw [hrun] at hcontained
  have hlimit := (hcontained hfails).1
  unfold Contained at hlimit
  rw [hpoised.place] at hlimit
  dsimp only at hlimit
  rw [hcount] at hlimit
  change 0 + 4 ≤ 3 at hlimit
  omega

end recast_rules.poison
