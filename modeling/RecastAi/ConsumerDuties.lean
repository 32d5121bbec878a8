-- Each of the four consumers does its duty: it moves the job of its message
-- forward and publishes once, for this job.
import RecastAi.Deliveries

open call_programs py_text recast_rules.transcript recast_rules.models recast_rules.pipeline
open recast_rules.py

namespace recast_rules.deliveries

variable {conn : Conn} {c : Call} {h : History} {α β ε : Type}

/-! ## Calls without a part in the duty -/

def Plain (conn : Conn) : Call → Prop
  | .receive _ => False
  | .publish _ _ => False
  | .exec k st => OwnConn conn (.exec k st) ∧ keepsJobs st = true ∧ stageWrite st = none
  | c => OwnConn conn c

theorem plain_own (hc : Plain conn c) : OwnConn conn c := by
  cases c with
  | receive queue => trivial
  | publish queue body => trivial
  | exec k st => exact hc.1
  | _ => exact hc

theorem plain_duty (hc : Plain conn c) (hwaits : waits conn h = false) : Duty conn h c where
  own := plain_own hc
  commit := by
    intro hw
    rw [hwaits] at hw
    cases hw
  keeps := by
    rintro k st rfl
    exact hc.2.1
  stage := by
    rintro k st jobID stage rfl hst
    rw [hc.2.2] at hst
    cases hst
  publish := by
    rintro queue body rfl
    exact hc.elim

theorem plain_position (hc : Plain conn c) (p : Position) (x : Answer c) : p.after c x = p := by
  unfold Position.after
  cases c with
  | receive queue => exact hc.elim
  | publish queue body => exact hc.elim
  | exec k st => simp only [hc.2.2]
  | _ => rfl

theorem plain_waits (hc : Plain conn c) (hwaits : waits conn h = false) (i : Nat) (x : Answer c) :
    waits conn (⟨i, c, x⟩ :: h) = false := by
  cases c with
  | exec k st =>
    cases k with
    | none => exact hwaits
    | some k =>
      change Except DbError Nat at x
      cases x with
      | error e => exact hwaits
      | ok n =>
        unfold waits
        rw [hc.2.2, hwaits]
        simp
  | commit k =>
    unfold waits
    rw [hwaits]
    simp
  | _ => exact hwaits

theorem plain_follows {Q : α → Prop} {p : Service α} (hp : p.Only (Plain conn) Q) (i : Nat)
    (hwaits : waits conn h = false) :
    p.Follows i (Duty conn) (fun a h' => Q a ∧ waits conn h' = false ∧ position h' = position h)
      h := by
  induction p generalizing h with
  | done a => exact ⟨hp, hwaits, rfl⟩
  | call c k ih =>
    refine ⟨plain_duty hp.1 hwaits, fun x => ?_⟩
    refine follows_mono (ih x (hp.2 x) (plain_waits hp.1 hwaits i x)) fun a h' ha => ?_
    exact ⟨ha.1, ha.2.1, ha.2.2.trans (plain_position hp.1 (position h) x)⟩

/-! ## Work on a message -/

/-- The program does its duty and brings its consumer from one position to the other. -/
def Works (conn : Conn) (p p' : Position) (program : Attempt Call Answer String α) : Prop :=
  ∀ i h, position h = p → waits conn h = false →
    followsTry i (Duty conn) (fun _ h => waits conn h = false)
      (fun _ h => position h = p' ∧ waits conn h = false) h program

variable {p p' p'' : Position} {queue : String} {msg : Json} {reached : Nat}

theorem works_then {f : Attempt Call Answer String α} {g : α → Attempt Call Answer String β}
    (hf : Works conn p p' f) (hg : ∀ a, Works conn p' p'' (g a)) : Works conn p p'' (f >>= g) := by
  intro i h hpos hwaits
  apply followsTry_bind
  refine follows_mono (hf i h hpos hwaits) fun x h hx => ?_
  cases x with
  | error e => exact hx
  | ok a => exact hg a i h hx.1 hx.2

theorem works_pure (a : α) : Works conn p p (pure a) := fun _ _ hpos hwaits => ⟨hpos, hwaits⟩

theorem works_throw (e : String) : Works conn p p' (throw e : Attempt Call Answer String α) :=
  fun _ _ _ hwaits => hwaits

theorem works_someOr {x : Option α} {r : String} {g : α → Attempt Call Answer String β}
    (hg : ∀ a, x = some a → Works conn p p' (g a)) : Works conn p p' (someOr x r >>= g) := by
  cases x with
  | none => exact works_throw r
  | some a => exact hg a rfl

theorem works_raising {x : Except String α} {g : α → Py β}
    (hg : ∀ a, x = .ok a → Works conn p p' (g a)) : Works conn p p' (raising x >>= g) := by
  cases x with
  | error e => exact works_throw e
  | ok a => exact hg a rfl

theorem works_plain {program : Attempt Call Answer String α}
    (hp : attemptOnly (Plain conn) (fun _ => True) (fun _ => True) program) :
    Works conn p p program := by
  intro i h hpos hwaits
  refine follows_mono (plain_follows hp i hwaits) fun x h' hx => ?_
  cases x with
  | error e => exact hx.2.1
  | ok a => exact ⟨hx.2.2.trans hpos, hx.2.1⟩

theorem works_giveUp {q : Service (Except ε α)} {r : ε → String}
    (hq : q.Only (Plain conn) fun _ => True) : Works conn p p (q.orGiveUp r) := by
  apply works_plain
  apply attempt_orGiveUp
  refine only_mono hq (fun _ hc => hc) fun x _ => ?_
  cases x <;> trivial

/-- The stage is written. -/
theorem works_stage {st : Statement} {jobID : String} {stage : Stage} {r : DbError → String}
    (hkeeps : keepsJobs st = true) (hst : stageWrite st = some (jobID, stage))
    (hjob : uuidIn jobID = jobOf queue msg) (hle : reached ≤ rank stage) :
    Works conn (.on queue msg reached) (.on queue msg (rank stage))
      ((ask (.exec none st)).orGiveUp r : Attempt Call Answer String Nat) := by
  intro i h hpos hwaits
  apply followsTry_orGiveUp
  refine ⟨⟨trivial, ?_, ?_, ?_, nofun⟩, fun x => ?_⟩
  · intro hw
    rw [hwaits] at hw
    cases hw
  · rintro k st' ⟨⟩
    exact hkeeps
  · rintro k st' jobID' stage' ⟨⟩ hst'
    rw [hst, Option.some.injEq, Prod.mk.injEq] at hst'
    obtain ⟨rfl, rfl⟩ := hst'
    exact ⟨queue, msg, reached, hpos, hjob, hle⟩
  · change Except DbError Nat at x
    cases x with
    | error e => exact hwaits
    | ok n =>
      refine ⟨?_, hwaits⟩
      change (position h).after (.exec none st) _ = _
      rw [hpos]
      unfold Position.after
      simp only [hst]

/-- The stage is written and committed. -/
theorem works_stage_commit {st : Statement} {jobID : String} {stage : Stage}
    (hkeeps : keepsJobs st = true) (hst : stageWrite st = some (jobID, stage))
    (hjob : uuidIn jobID = jobOf queue msg) (hle : reached ≤ rank stage) :
    Works conn (.on queue msg reached) (.on queue msg (rank stage)) (do
      let _ ← sql (ask (.exec (some conn) st))
      sql (ask (.commit conn))) := by
  intro i h hpos hwaits
  apply followsTry_bind
  apply followsTry_orGiveUp
  refine ⟨⟨rfl, ?_, ?_, ?_, nofun⟩, fun x => ?_⟩
  · intro hw
    rw [hwaits] at hw
    cases hw
  · rintro k st' ⟨⟩
    exact hkeeps
  · rintro k st' jobID' stage' ⟨⟩ hst'
    rw [hst, Option.some.injEq, Prod.mk.injEq] at hst'
    obtain ⟨rfl, rfl⟩ := hst'
    exact ⟨queue, msg, reached, hpos, hjob, hle⟩
  · change Except DbError Nat at x
    cases x with
    | error e => exact hwaits
    | ok n =>
      have hmoved : position (⟨i, .exec (some conn) st, (Except.ok n : Except DbError Nat)⟩ :: h) =
          .on queue msg (rank stage) := by
        change (position h).after (.exec (some conn) st) _ = _
        rw [hpos]
        unfold Position.after
        simp only [hst]
      apply followsTry_orGiveUp
      refine ⟨⟨rfl, fun _ => rfl, ?_, ?_, ?_⟩, fun y => ?_⟩
      · rintro k st' ⟨⟩
      · rintro k st' jobID' stage' ⟨⟩
      · rintro queue' body ⟨⟩
      have hclosed : waits conn (⟨i, .commit conn, y⟩ ::
          ⟨i, .exec (some conn) st, (Except.ok n : Except DbError Nat)⟩ :: h) = false := by
        rw [waits]
        simp
      change Except DbError Unit at y
      cases y with
      | error e => exact hclosed
      | ok u => exact ⟨hmoved, hclosed⟩

/-- The message of the next queue is published. -/
theorem works_publish {queue' : String} {body : Option Json} {r : String → String}
    (hle : reached ≤ rank (entry queue'))
    (hjob : ∀ b, body = some b → ∀ id, jobOf queue' b = some id → jobOf queue msg = some id) :
    Works conn (.on queue msg reached) (.done msg)
      ((ask (.publish queue' body)).orGiveUp r : Attempt Call Answer String Unit) := by
  intro i h hpos hwaits
  apply followsTry_orGiveUp
  refine ⟨⟨trivial, ?_, ?_, ?_, ?_⟩, fun x => ?_⟩
  · intro hw
    rw [hwaits] at hw
    cases hw
  · rintro k st ⟨⟩
  · rintro k st jobID stage ⟨⟩
  · rintro queue'' body' ⟨⟩
    exact ⟨queue, msg, reached, hpos, hle, hjob⟩
  · change Except String Unit at x
    cases x with
    | error e => exact hwaits
    | ok u =>
      refine ⟨?_, hwaits⟩
      change (position h).after (.publish queue' body) _ = _
      rw [hpos]
      rfl

/-! ## The analyzer -/

/-- The stage of the job moves to `transcribed`. -/
theorem updateJobStage_works {jobID : String} (durationMs : Int)
    (hjob : uuidIn jobID = jobOf queue msg) (hle : reached ≤ rank .transcribed) :
    Works conn (.on queue msg reached) (.on queue msg (rank .transcribed))
      (analyzer.updateJobStage conn jobID .transcribed durationMs) := by
  unfold analyzer.updateJobStage
  apply works_stage_commit _ _ hjob hle
  · split <;> rfl
  · split <;> rfl

theorem transcriptMessage_job {jobID : String} {traceID : Json} {attemptID : String}
    {segments : List Segment} {voiceID : Json} {durationMs : Int} {id : String}
    (h : jobOf analyzer.transcriptQueue
      (analyzer.transcriptMessage jobID traceID attemptID segments voiceID durationMs) = some id) :
    uuidIn jobID = some id := by
  have hread : subscript (analyzer.transcriptMessage jobID traceID attemptID segments voiceID durationMs)
      "job_id" = .ok (goString jobID) := rfl
  unfold jobOf at h
  rw [if_neg (by decide), hread] at h
  simp only [bind, Except.bind] at h
  unfold idText goString at h
  by_cases hvalid : ((text jobID).all fun c => c.isValidChar && c ≠ 0) = true
  · simp only [if_pos hvalid] at h
    rw [← h]
    exact congrArg uuidIn (ofText_text jobID).symm
  · simp only [if_neg hvalid] at h
    cases h

theorem analyzer_works (repr : Json → Text) (conn : Conn) (msg : Json) :
    Works conn (.on analyzer.ingestionQueue msg (rank (entry analyzer.ingestionQueue))) (.done msg)
      (analyzer.processMessage repr conn msg) := by
  unfold analyzer.processMessage
  apply works_raising
  intro jobID hjobID
  have hjob : uuidIn jobID = jobOf analyzer.ingestionQueue msg := by
    unfold jobOf
    rw [if_neg (by decide), hjobID]
  apply works_raising
  intro traceID _
  apply works_raising
  intro payload _
  apply works_raising
  intro params _
  apply works_then (works_plain (analyzer.downloadVideo_only trivial (fun _ => trivial) _))
  intro video
  apply works_then (works_giveUp (ask_only (by trivial)))
  intro probed
  apply works_then (works_plain (analyzer.existingDurationMs_only rfl))
  intro existing
  apply works_then (works_giveUp (ask_only (by trivial)))
  intro segments
  apply works_then
  · apply works_plain
    apply analyzer.storeSegments_only
    · trivial
    · exact fun _ _ => ⟨rfl, rfl, rfl⟩
    · rfl
  intro _
  apply works_then (updateJobStage_works probed hjob (by decide))
  intro _
  apply works_then (works_plain (attempt_lift (ask_only (by trivial))))
  intro attemptID
  apply works_then
  · apply works_publish (by decide)
    rintro b ⟨⟩ id hid
    rw [← hjob]
    exact transcriptMessage_job hid
  intro _
  apply works_then (works_plain (attempt_lift (ask_only (by trivial))))
  intro _
  exact works_pure ()

/-! ## The synthesis -/

theorem speaks_plain {ph : transactions.Phase} (h : tts.Speaks conn ph c) : Plain conn c := by
  cases h with
  | query jobID ids => rfl
  | setAudio jobID segmentIdx columns => exact ⟨rfl, rfl, rfl⟩
  | commit => rfl
  | work w => trivial
  | upload jobID segmentID clip => trivial

theorem plain_of_keeps {program : Py α} (hp : transactions.Keeps conn (tts.Speaks conn) program) :
    attemptOnly (Plain conn) (fun _ => True) (fun _ => True) program :=
  transactions.only_of_keeps hp fun _ _ => speaks_plain

theorem audioMessage_job {jobID : String} {traceID : Json} {attemptID : String} {ids : List Int}
    {voiceID : Text} {regenOnly : Bool} {id : String}
    (h : jobOf tts.audioQueue (tts.audioMessage jobID traceID attemptID ids voiceID regenOnly) = some id) :
    uuidIn jobID = some id := by
  unfold jobOf at h
  rw [if_pos (by decide)] at h
  unfold decodeMessage tts.audioMessage at h
  simp only [objectFields, Option.bind_eq_bind, Option.bind_some, Option.bind_eq_some_iff,
    Option.pure_def, Option.some.injEq] at h
  obtain ⟨m, ⟨jobID', hjobID, traceID', -, attemptID', -, rfl⟩, hid⟩ := h
  rw [stringField_written (s := jobID) (by simp [valuesAt_cons, valuesAt_nil, text, foldKey]),
    Option.some.injEq] at hjobID
  rw [hjobID]
  exact hid

theorem synthesis_works (cfg : tts.Settings) (conn : Conn) (msg : Json) :
    Works conn (.on tts.transcriptQueue msg (rank (entry tts.transcriptQueue))) (.done msg)
      (tts.processMessage cfg conn msg) := by
  unfold tts.processMessage
  apply works_raising
  intro jobID hjobID
  have hjob : uuidIn jobID = jobOf tts.transcriptQueue msg := by
    unfold jobOf
    rw [if_neg (by decide), hjobID]
  apply works_raising
  intro traceID _
  apply works_raising
  intro payload _
  apply works_raising
  intro voice _
  apply works_then (works_plain (plain_of_keeps (tts.selectSegments_keeps conn jobID _)))
  intro segments
  apply works_then
  · apply works_plain
    unfold giveUpIf
    split <;> trivial
  intro _
  apply works_raising
  intro regenIDs _
  apply works_then (works_plain (plain_of_keeps (tts.processSegments_keeps cfg conn jobID voice segments)))
  intro ids
  -- a regeneration leaves the stage, which is not past `synthesized`
  have hstage : Works conn (.on tts.transcriptQueue msg (rank (entry tts.transcriptQueue)))
      (.on tts.transcriptQueue msg (rank .synthesized))
      (tts.unlessRegen (!regenIDs.isEmpty) (tts.markJobSynthesized conn jobID)) := by
    unfold tts.unlessRegen
    split
    · exact works_pure ()
    · exact works_stage_commit rfl rfl hjob (by decide)
  apply works_then hstage
  intro _
  apply works_then (works_plain (attempt_lift (ask_only (by trivial))))
  intro attemptID
  apply works_then
  · apply works_publish (by decide)
    rintro b ⟨⟩ id hid
    rw [← hjob]
    exact audioMessage_job hid
  intro _
  unfold tts.unlessRegen
  split
  · exact works_pure ()
  · exact works_giveUp (ask_only (by trivial))

/-! ## The services in Go -/

theorem publishEvent_plain (jobID : String) :
    (consumers.publishEvent jobID).Only (Plain conn) fun _ => True := ⟨trivial, fun _ => trivial⟩

theorem deliveryMessage_job {m : QueueMessage DeliveryPayload} {queue : String} {body : Json}
    {id : String} (hqueue : queue = delivery.deliveryQueue)
    (hbody : m.encode DeliveryPayload.encode = some body) (h : jobOf queue body = some id) :
    uuidIn m.jobID = some id := by
  obtain ⟨p, -, hdecode⟩ := decode_encode hbody
  unfold jobOf at h
  rw [if_pos (Or.inr hqueue), hdecode] at h
  exact h

theorem mux_works (conn : Conn) (msg : Json) :
    Works conn (.on mux.audioQueue msg (rank (entry mux.audioQueue))) (.done msg)
      (mux.processMessage msg) := by
  unfold mux.processMessage
  apply works_someOr
  intro m hm
  have hjob : uuidIn m.jobID = jobOf mux.audioQueue msg := by
    unfold jobOf
    rw [if_pos (by decide), hm]
    rfl
  apply works_someOr
  intro payload _
  unfold mux.process
  apply works_then (works_stage rfl rfl hjob (by decide))
  intro _
  apply works_then (works_plain (attempt_lift (publishEvent_plain _)))
  intro _
  apply works_then (works_giveUp (ask_only (by trivial)))
  intro _
  apply works_then (works_giveUp (ask_only (by trivial)))
  intro video
  apply works_then (works_giveUp (ask_only (by trivial)))
  intro audio
  apply works_then (works_plain (attempt_lift (publishEvent_plain _)))
  intro _
  apply works_then (works_giveUp (ask_only (by trivial)))
  intro final
  apply works_then (works_plain (attempt_lift (publishEvent_plain _)))
  intro _
  apply works_then (works_giveUp (ask_only (by trivial)))
  intro _
  apply works_then (works_stage rfl rfl hjob (by decide))
  intro _
  apply works_then (works_giveUp (ask_only (by trivial)))
  intro job
  apply works_then (works_plain (attempt_lift (ask_only (by trivial))))
  intro attemptID
  apply works_then
  · apply works_publish (by decide)
    intro b hb id hid
    rw [← hjob]
    exact deliveryMessage_job rfl hb hid
  intro _
  exact works_plain (attempt_lift (publishEvent_plain _))

theorem sendWebhooks_plain (jobID downloadURL : String) (durationMs : Int) (hooks : List Webhook) :
    (delivery.sendWebhooks jobID downloadURL durationMs hooks).Only (Plain conn) fun _ => True := by
  induction hooks with
  | nil => trivial
  | cons hook hooks ih => exact ⟨trivial, fun _ => ih⟩

theorem deliverWebhooks_plain (userID jobID downloadURL : String) (durationMs : Int) :
    (delivery.deliverWebhooks userID jobID downloadURL durationMs).Only (Plain conn) fun _ => True := by
  unfold delivery.deliverWebhooks
  refine ⟨trivial, fun x => ?_⟩
  change Except DbError (List Webhook) at x
  cases x with
  | error e => trivial
  | ok hooks => exact sendWebhooks_plain jobID downloadURL durationMs hooks

theorem delivery_works (conn : Conn) (msg : Json) :
    Works conn (.on delivery.deliveryQueue msg (rank (entry delivery.deliveryQueue)))
      (.on delivery.deliveryQueue msg (rank .completed)) (delivery.processMessage msg) := by
  unfold delivery.processMessage
  apply works_someOr
  intro m hm
  have hjob : uuidIn m.jobID = jobOf delivery.deliveryQueue msg := by
    unfold jobOf
    rw [if_pos (by decide), hm]
    rfl
  apply works_someOr
  intro payload _
  unfold delivery.process
  apply works_then (works_stage rfl rfl hjob (by decide))
  intro _
  apply works_then (works_plain (attempt_lift (publishEvent_plain _)))
  intro _
  apply works_then (works_giveUp (ask_only (by trivial)))
  intro downloadURL
  apply works_then (works_giveUp (ask_only (by trivial)))
  intro job
  apply works_then (works_plain (attempt_lift (ask_only (by trivial))))
  intro completedAt
  apply works_then (works_stage rfl rfl hjob (by decide))
  intro _
  apply works_then (works_plain (attempt_lift (deliverWebhooks_plain _ _ _ _)))
  intro _
  exact works_plain (attempt_lift (publishEvent_plain _))

/-! ## The loops -/

/-- The program does its duty from a connection on which no stage waits. -/
def Dutiful (conn : Conn) (program : Service Unit) : Prop :=
  ∀ i h, waits conn h = false →
    program.Follows i (Duty conn) (fun _ h => waits conn h = false) h

/-- A loop does its duty where each round does. -/
theorem round_dutiful {queue : String} {k : Option (Nat × Json) → Service Unit}
    (hnone : Dutiful conn (k none))
    (hsome : ∀ tag msg i h, position h = .on queue msg (rank (entry queue)) → waits conn h = false →
      (k (some (tag, msg))).Follows i (Duty conn) (fun _ h => waits conn h = false) h) :
    Dutiful conn (ask (.receive queue) >>= k) := by
  intro i h hwaits
  refine ⟨⟨trivial, ?_, ?_, ?_, ?_⟩, fun x => ?_⟩
  · intro hw
    rw [hwaits] at hw
    cases hw
  · rintro conn' st ⟨⟩
  · rintro conn' st jobID stage ⟨⟩
  · rintro queue' body ⟨⟩
  · change Option (Nat × Json) at x
    rcases x with _ | ⟨tag, msg⟩
    · exact hnone i _ hwaits
    · exact hsome tag msg i _ rfl hwaits

/-- The end of a round: it is acknowledged, or it is not. -/
theorem works_ends {p p' : Position} {program : Attempt Call Answer String α}
    {k : Except String α → Service β} (hp : Works conn p p' program)
    (hk : ∀ x, (k x).Only (Plain conn) fun _ => True) {rest : β → Service Unit}
    (hrest : ∀ b, Dutiful conn (rest b)) (i : Nat) (hpos : position h = p)
    (hwaits : waits conn h = false) :
    (program.run >>= k >>= rest).Follows i (Duty conn) (fun _ h => waits conn h = false) h := by
  apply follows_bind
  apply follows_bind
  refine follows_mono (hp i h hpos hwaits) fun x h hx => ?_
  have hopen : waits conn h = false := by
    cases x with
    | error e => exact hx
    | ok a => exact hx.2
  refine follows_mono (plain_follows (hk x) i hopen) fun b h hb => ?_
  exact hrest b i h hb.2.1

theorem analyzer_dutiful (repr : Json → Text) (conn : Conn) (n : Nat) :
    Dutiful conn (analyzer.consume repr conn n) := by
  induction n with
  | zero => exact fun _ _ hwaits => hwaits
  | succ n ih =>
    unfold analyzer.consume
    apply round_dutiful ih
    intro tag msg i h hpos hwaits
    have hwork := works_then (analyzer_works repr conn msg) fun _ =>
      works_giveUp (r := id) (ask_only (c := .ack tag) (by trivial))
    refine works_ends hwork ?_ (fun _ => ih) i hpos hwaits
    intro x
    cases x with
    | ok _ => trivial
    | error e => exact ⟨rfl, fun _ => ⟨trivial, fun _ => trivial⟩⟩

theorem synthesis_dutiful (cfg : tts.Settings) (conn : Conn) (n : Nat) :
    Dutiful conn (tts.consume cfg conn n) := by
  induction n with
  | zero => exact fun _ _ hwaits => hwaits
  | succ n ih =>
    unfold tts.consume
    apply round_dutiful ih
    intro tag msg i h hpos hwaits
    have hwork := works_then (synthesis_works cfg conn msg) fun _ =>
      works_giveUp (r := id) (ask_only (c := .ack tag) (by trivial))
    refine works_ends hwork ?_ (fun _ => ih) i hpos hwaits
    intro x
    cases x with
    | ok _ => trivial
    | error e => exact ⟨trivial, fun _ => trivial⟩

/-- The loop of the services in Go. -/
theorem go_dutiful {queue : String} {process : consumers.Process} {p : Json → Position}
    (hwork : ∀ msg, Works conn (.on queue msg (rank (entry queue))) (p msg) (process msg)) (n : Nat) :
    Dutiful conn (consumers.consume queue process n) := by
  induction n with
  | zero => exact fun _ _ hwaits => hwaits
  | succ n ih =>
    unfold consumers.consume
    apply round_dutiful ih
    intro tag msg i h hpos hwaits
    refine works_ends (hwork msg) ?_ (fun _ => ih) i hpos hwaits
    intro x
    cases x with
    | ok _ => exact ⟨trivial, fun _ => trivial⟩
    | error e => exact ⟨trivial, fun _ => trivial⟩

/-! ## The consumers -/

inductive Consumer where
  | analyzer (repr : Json → Text)
  | synthesis (cfg : tts.Settings)
  | mux
  | delivery

/-- `n` rounds of the consumer. -/
def Consumer.program (conn : Conn) (n : Nat) : Consumer → Service Unit
  | .analyzer repr => analyzer.consume repr conn n
  | .synthesis cfg => tts.consume cfg conn n
  | .mux => mux.consume n
  | .delivery => delivery.consume n

theorem consumer_dutiful (consumer : Consumer) (conn : Conn) (n : Nat) :
    Dutiful conn (consumer.program conn n) := by
  cases consumer with
  | analyzer repr => exact analyzer_dutiful repr conn n
  | synthesis cfg => exact synthesis_dutiful cfg conn n
  | mux => exact go_dutiful (mux_works conn) n
  | delivery => exact go_dutiful (delivery_works conn) n

end recast_rules.deliveries
