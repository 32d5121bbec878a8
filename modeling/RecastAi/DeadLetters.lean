-- Messages that a consumer rejects although the next service has its message already. The
-- synthesis and the analyzer publish, send an event and acknowledge.
import RecastAi.AudioHop
import RecastAi.ConsumerDuties

open call_programs py_text recast_rules.transcript recast_rules.models recast_rules.pipeline
open recast_rules.py

namespace recast_rules.dead_letters

/-! ## What may fail

A consumer prepares its message, publishes it and sends an event. -/

/-- The calls of the preparation. -/
def Early : Call → Prop
  | .publish _ _ => False
  | .notify _ => False
  | .ack _ => False
  | .nack _ _ => False
  | _ => True

/-- A publish that fails has no effect, and what comes after it does not fail. The event may where
its failure is suppressed. -/
def KeptApart (suppressed : Bool) (_ : System) (c : Call) (o : Outcome) : Prop :=
  match c with
  | .publish _ _ => o.fails = true → o.applied = false
  | .notify _ => suppressed = true ∨ o.fails = false
  | .ack _ => o.fails = false
  | _ => True

section Parts

variable {α : Type} {suppressed : Bool} {os : List Outcome} {s s' : System}

/-- A call that raises its error, and nothing else. -/
theorem run_must {p : Service (Except String α)} {x : Except String α}
    (h : run services os ((must p).run, s) = (.done x, s')) :
    run services os (p, s) = (.done x, s') ∧
      ∀ E, Meets services E os ((must p).run, s) ↔ Meets services E os (p, s) := by
  have hrun : (must p).run = p := by
    unfold must Prog.orGiveUp
    refine Eq.trans (congrArg (p >>= ·) ?_) (Prog.bind_done p)
    funext x
    cases x <;> rfl
  rw [hrun] at h ⊢
  exact ⟨h, fun _ => Iff.rfl⟩

/-- The preparation publishes nothing, whether it fails or not. -/
theorem early_run {p : Py α} (hp : attemptOnly Early (fun _ => True) (fun _ => True) p)
    {x : Except String α} (hrun : run services os (p.run, s) = (.done x, s')) :
    s'.accepted = s.accepted ∧ Meets services (KeptApart suppressed) os (p.run, s) := by
  constructor
  · have hkept := wp_only (w := services) (E := fun _ _ _ => True)
      (J := fun t => t.accepted = s.accepted) hp rfl fun t c o hc _ ht => by
        rcases accepted_after o t c with h | ⟨queue, body, rfl, -⟩
        · exact h.trans ht
        · exact hc.elim
    exact (wp_run_any hkept hrun).2
  · refine meets_only hp (fun t c o hc => ?_) os s
    cases c with
    | publish queue body => exact hc.elim
    | notify channel => exact hc.elim
    | ack tag => exact hc.elim
    | _ => trivial

/-- The publish takes effect, or it fails. -/
theorem publish_run {queue : String} {body : Json} {x : Except String Unit}
    (hrun : run services os ((must (ask (.publish queue (some body)))).run, s) = (.done x, s')) :
    (x = .ok () ∧ s'.accepted ≠ s.accepted ∧
      Meets services (KeptApart suppressed) os ((must (ask (.publish queue (some body)))).run, s)) ∨
    (∃ e, x = .error e) ∧ (s'.accepted = s.accepted ↔ Meets services (KeptApart suppressed) os
      ((must (ask (.publish queue (some body)))).run, s)) := by
  obtain ⟨hask, hmust⟩ := run_must hrun
  obtain ⟨o, hanswer, hone⟩ := run_ask hask
  have hmeets := (hmust (KeptApart suppressed)).trans (hone _)
  obtain ⟨hx, hs⟩ := Prod.mk.inj hanswer
  change reply o () = x at hx
  change (if landed o then { s with accepted := s.accepted ++ [⟨queue, body⟩] } else s) = s' at hs
  change _ ↔ (o.fails = true → o.applied = false) at hmeets
  have hnew : s.accepted ++ [⟨queue, body⟩] ≠ s.accepted := by simp
  unfold reply at hx
  unfold landed at hs
  cases hfails : o.fails with
  | false =>
    rw [hfails] at hx hs hmeets
    exact Or.inl ⟨hx.symm, hs ▸ hnew, hmeets.mpr nofun⟩
  | true =>
    rw [hfails] at hx hs hmeets
    refine Or.inr ⟨⟨_, hx.symm⟩, ?_⟩
    cases happlied : o.applied with
    | false =>
      rw [happlied] at hs hmeets
      exact ⟨fun _ => hmeets.mpr fun _ => rfl, fun _ => hs ▸ rfl⟩
    | true =>
      rw [happlied] at hs hmeets
      exact ⟨fun h => absurd h (hs ▸ hnew), fun h => absurd (hmeets.mp h rfl) (by decide)⟩

/-- It comes after the publish: it publishes nothing, and it is done where nothing fails that may
not fail. -/
def Trails (suppressed : Bool) (p : Py Unit) : Prop :=
  ∀ os s s' x, run services os (p.run, s) = (.done x, s') →
    s'.accepted = s.accepted ∧ (x = .ok () ↔ Meets services (KeptApart suppressed) os (p.run, s))

theorem trails_pure : Trails suppressed (pure ()) := by
  intro os s s' x hrun
  obtain ⟨rfl, rfl⟩ := run_ended hrun
  exact ⟨rfl, fun _ => meets_done _ _ os (Except.ok ()) _, fun _ => rfl⟩

theorem trails_then {p q : Py Unit} (hp : Trails suppressed p) (hq : Trails suppressed q) :
    Trails suppressed (p >>= fun _ => q) := by
  intro os s s' x hrun
  rcases run_attempt_bind hrun with ⟨os₁, e, rfl, h₁, hm⟩ | ⟨os₁, os₂, u, s₁, h₁, h₂, hm⟩
  · obtain ⟨hkept, hiff⟩ := hp _ _ _ _ h₁
    rw [hm]
    exact ⟨hkept, fun h => (nomatch h), fun h => (nomatch hiff.mpr h)⟩
  · obtain ⟨hkept, hiff⟩ := hp _ _ _ _ h₁
    obtain ⟨hkept', hiff'⟩ := hq _ _ _ _ h₂
    rw [hm, hiff', and_iff_right (hiff.mp rfl)]
    exact ⟨hkept'.trans hkept, Iff.rfl⟩

/-- A call with a reply. -/
theorem trails_reply {p : Service (Except String Unit)}
    (h : ∀ os s s' x, run services os (p, s) = (.done x, s') → s'.accepted = s.accepted ∧
      ∃ o, reply o () = x ∧ (Meets services (KeptApart suppressed) os (p, s) ↔ o.fails = false)) :
    Trails suppressed (must p) := by
  intro os s s' x hrun
  obtain ⟨hask, hmust⟩ := run_must hrun
  obtain ⟨hkept, o, rfl, hiff⟩ := h _ _ _ _ hask
  rw [hmust, hiff]
  refine ⟨hkept, ?_⟩
  unfold reply
  cases o.fails <;> simp

theorem notify_trails (channel : String) : Trails false (must (ask (.notify channel))) := by
  refine trails_reply fun os s s' x hrun => ?_
  obtain ⟨o, hanswer, hone⟩ := run_ask hrun
  obtain ⟨hx, rfl⟩ := Prod.mk.inj hanswer
  exact ⟨rfl, o, hx, (hone _).trans (or_iff_right Bool.false_ne_true)⟩

/-- An event whose failure is suppressed. -/
theorem suppressed_trails (channel : String) :
    Trails true (do let _ ← ExceptT.lift (ask (.notify channel))) := by
  intro os s s' x hrun
  obtain ⟨os₁, os₂, y, s₁, h₁, h₂, hm⟩ := run_lift_bind hrun
  obtain ⟨o, hanswer, hone⟩ := run_ask h₁
  obtain ⟨-, rfl⟩ := Prod.mk.inj hanswer
  obtain ⟨hkept, hiff⟩ := trails_pure _ _ _ _ h₂
  rw [hm, hiff]
  exact ⟨hkept, (and_iff_right ((hone _).mpr (Or.inl rfl))).symm⟩

theorem ack_trails (tag : Nat) : Trails suppressed (must (ask (.ack tag))) := by
  refine trails_reply fun os s s' x hrun => ?_
  obtain ⟨o, hanswer, hone⟩ := run_ask hrun
  obtain ⟨hx, hs⟩ := Prod.mk.inj hanswer
  change (if landed o then { s with settled := tag :: s.settled } else s) = s' at hs
  refine ⟨?_, o, hx, hone _⟩
  rw [← hs]
  split <;> rfl

/-- The round of a consumer, up to what it tells the broker where the round fails. -/
theorem round_run {β : Type} {before : Py β} {queue : String} {body : β → Json}
    {after : β → Py Unit}
    (hbefore : attemptOnly Early (fun _ => True) (fun _ => True) before)
    (hafter : ∀ b, Trails suppressed (after b)) {x : Except String Unit}
    (hrun : run services os ((before >>= fun b =>
      must (ask (.publish queue (some (body b)))) >>= fun _ => after b).run, s) = (.done x, s')) :
    ((∃ e, x = .error e) → s'.accepted = s.accepted) ↔
      Meets services (KeptApart suppressed) os ((before >>= fun b =>
        must (ask (.publish queue (some (body b)))) >>= fun _ => after b).run, s) := by
  rcases run_attempt_bind hrun with ⟨os₁, e, rfl, h₁, hm⟩ | ⟨os₁, os₂, b, s₁, h₁, h₂, hm⟩
  · obtain ⟨hkept, hmeets⟩ := early_run hbefore h₁
    exact ⟨fun _ => (hm _).mpr hmeets, fun _ _ => hkept⟩
  obtain ⟨hkept, hmeets⟩ := early_run hbefore h₁
  rw [hm, and_iff_right hmeets, ← hkept]
  rcases run_attempt_bind h₂ with ⟨os₃, e, rfl, h₃, hm⟩ | ⟨os₃, os₄, u, s₂, h₃, h₄, hm⟩
  · rcases publish_run h₃ with ⟨hok, -⟩ | ⟨-, hiff⟩
    · cases hok
    · rw [hm, ← hiff]
      exact forall_prop_of_true ⟨e, rfl⟩
  · rcases publish_run h₃ with ⟨-, hnew, hmeets⟩ | ⟨⟨e, he⟩, -⟩
    · obtain ⟨hkept, hiff⟩ := hafter b _ _ _ _ h₄
      rw [hm, and_iff_right hmeets, ← hiff, hkept]
      -- the message is published, so nothing after it may fail
      cases x with
      | error e => exact ⟨fun h => absurd (h ⟨e, rfl⟩) hnew, fun h => (nomatch h)⟩
      | ok u => exact ⟨fun _ => rfl, fun _ ⟨e, he⟩ => (nomatch he)⟩
    · cases he

/-- What is left to do where the round fails. -/
def Settles : Call → Prop
  | .rollback _ => True
  | .nack _ _ => True
  | _ => False

theorem settles_accepted {c : Call} (h : Settles c) (t : System) (o : Outcome) :
    (answerCall o t c).2.accepted = t.accepted := by
  cases c with
  | rollback conn => exact (records_kept rfl o t).2
  | nack tag requeue => exact (records_kept rfl o t).2
  | _ => exact h.elim

theorem settles_keptApart {c : Call} (h : Settles c) (t : System) (o : Outcome) :
    KeptApart suppressed t c o := by
  cases c with
  | rollback conn => trivial
  | nack tag requeue => trivial
  | _ => exact h.elim

theorem serve_run {β : Type} {before : Py β} {queue : String} {body : β → Json}
    {after : β → Py Unit} {rejects : Service Verdict} {v : Verdict}
    (hbefore : attemptOnly Early (fun _ => True) (fun _ => True) before)
    (hafter : ∀ b, Trails suppressed (after b)) (hrejects : rejects.Only Settles (· = .nacked))
    (hrun : run services os (((before >>= fun b =>
        must (ask (.publish queue (some (body b)))) >>= fun _ => after b).run >>= fun x =>
      match x with
      | .ok () => pure .acked
      | .error _ => rejects), s) = (.done v, s')) :
    (v = .nacked → s'.accepted = s.accepted) ↔
      Meets services (KeptApart suppressed) os (((before >>= fun b =>
        must (ask (.publish queue (some (body b)))) >>= fun _ => after b).run >>= fun x =>
      match x with
      | .ok () => pure .acked
      | .error _ => rejects), s) := by
  obtain ⟨os₁, os₂, x, s₁, h₁, h₂, hm⟩ := run_bind hrun
  rw [hm, ← round_run hbefore hafter h₁]
  cases x with
  | ok u =>
    obtain ⟨rfl, rfl⟩ := run_ended h₂
    exact ⟨fun _ => ⟨fun ⟨e, he⟩ => (nomatch he), meets_done _ _ os₂ Verdict.acked _⟩,
      fun _ hv => (nomatch hv)⟩
  | error e =>
    have hmeets : Meets services (KeptApart suppressed) os₂ (rejects, s₁) :=
      meets_only hrejects (fun t c o hc => settles_keptApart hc t o) os₂ s₁
    have hkept := wp_only (w := services) (E := fun _ _ _ => True)
      (J := fun t => t.accepted = s₁.accepted) hrejects rfl
      fun t c o hc _ ht => (settles_accepted hc t o).trans ht
    obtain ⟨hv, hkept⟩ := wp_run_any hkept h₂
    rw [and_iff_left hmeets, hkept]
    exact ⟨fun h _ => h hv, fun h _ => h ⟨e, rfl⟩⟩

end Parts

/-! ## The synthesis -/

section Synthesis

variable {cfg : tts.Settings} {conn : Conn} {α : Type}

/-- What the synthesis does before it publishes: the job, the message, and whether it is for a
regeneration. -/
def synthesized (cfg : tts.Settings) (conn : Conn) (msg : Json) : Py (String × Json × Bool) := do
  let jobID ← raising (subscript msg "job_id" >>= idText)
  let traceID ← raising (getOr msg "trace_id" (.str []))
  let payload ← raising (getOr msg "payload" (.object []))
  let payload := orElse payload (.object [])
  let voice ← raising (tts.readVoice cfg payload)
  let segments ← tts.selectSegments conn jobID payload
  giveUpIf segments.isEmpty "ValueError"
  let regenIDs ← raising (tts.regenerationIDs payload)
  let regenOnly := !regenIDs.isEmpty
  let ids ← tts.processSegments cfg conn jobID voice segments
  tts.unlessRegen regenOnly (tts.markJobSynthesized conn jobID)
  let attemptID : String ← ExceptT.lift (ask .newString)
  return (jobID, tts.audioMessage jobID traceID attemptID ids voice.voiceID regenOnly, regenOnly)

theorem synthesis_parts (cfg : tts.Settings) (conn : Conn) (msg : Json) (tag : Nat) :
    (tts.processMessage cfg conn msg *> must (ask (.ack tag)) : Py Unit) =
      synthesized cfg conn msg >>= fun b =>
        must (ask (.publish tts.audioQueue (some b.2.1))) >>= fun _ =>
          tts.unlessRegen b.2.2 (must (ask (.notify s!"job:{b.1}"))) >>= fun _ =>
            must (ask (.ack tag)) := by
  change (tts.processMessage cfg conn msg >>= fun _ => must (ask (.ack tag)) : Py Unit) = _
  unfold tts.processMessage synthesized
  simp only [bind_assoc, pure_bind]

theorem speaks_early {p : transactions.Phase} {c : Call} (h : tts.Speaks conn p c) : Early c := by
  cases h <;> trivial

theorem early_of_keeps {p : Py α} (hp : transactions.Keeps conn (tts.Speaks conn) p) :
    attemptOnly Early (fun _ => True) (fun _ => True) p :=
  transactions.only_of_keeps hp fun _ _ => speaks_early

theorem synthesized_early (cfg : tts.Settings) (conn : Conn) (msg : Json) :
    attemptOnly Early (fun _ => True) (fun _ => True) (synthesized cfg conn msg) := by
  unfold synthesized
  apply then_only (raising_only _)
  intro jobID
  apply then_only (raising_only _)
  intro traceID
  apply then_only (raising_only _)
  intro payload
  apply then_only (raising_only _)
  intro voice
  apply then_only (early_of_keeps (tts.selectSegments_keeps conn jobID _))
  intro segments
  apply then_only
  · unfold giveUpIf
    split <;> trivial
  intro _
  apply then_only (raising_only _)
  intro regenIDs
  apply then_only (early_of_keeps (tts.processSegments_keeps cfg conn jobID voice segments))
  intro ids
  have hstage : attemptOnly Early (fun _ => True) (fun _ => True)
      (tts.unlessRegen (!regenIDs.isEmpty) (tts.markJobSynthesized conn jobID)) := by
    unfold tts.unlessRegen
    split
    · trivial
    · exact then_only (sql_only (ask_only trivial)) fun _ => sql_only (ask_only trivial)
  apply then_only hstage
  intro _
  exact then_only (attempt_lift (ask_only trivial)) fun _ => trivial

theorem event_trails (regenOnly : Bool) (channel : String) :
    Trails false (tts.unlessRegen regenOnly (must (ask (.notify channel)))) := by
  cases regenOnly with
  | true => exact trails_pure
  | false => exact notify_trails channel

/-- A rejected message has nothing forwarded exactly where no event and no acknowledgement fails,
and no publish that has taken effect. -/
theorem dead_lettered_means_not_forwarded_iff {tag : Nat} {msg : Json} {os : List Outcome}
    {v : Verdict} {s s' : System}
    (hrun : run services os (tts.serve cfg conn tag msg, s) = (.done v, s')) :
    (v = .nacked → s'.accepted = s.accepted) ↔
      Meets services (KeptApart false) os (tts.serve cfg conn tag msg, s) := by
  unfold tts.serve at hrun ⊢
  rw [synthesis_parts] at hrun ⊢
  exact serve_run (synthesized_early cfg conn msg)
    (fun b => trails_then (event_trails b.2.2 s!"job:{b.1}") (ack_trails tag))
    ⟨trivial, fun _ => rfl⟩ hrun

end Synthesis

/-! ## Runs of a transcript -/

/-- The provider fails, and the message is rejected. -/
def silentProvider : List Outcome := [{ fails := true, error := "no voice" }, {}]

theorem a_failed_synthesis_is_not_forwarded :
    Meets services (KeptApart false) silentProvider
      (tts.serve audio_hop.settings (.worker 0) 0 audio_hop.adasTranscript, audio_hop.waiting) := by
  have hrun : run services silentProvider
      (tts.serve audio_hop.settings (.worker 0) 0 audio_hop.adasTranscript, audio_hop.waiting) =
        (.done .nacked, { audio_hop.waiting with settled := [0] }) := by
    with_unfolding_all rfl
  exact (dead_lettered_means_not_forwarded_iff hrun).mp fun _ => rfl

def fine : Outcome := {}

/-- Only the event fails, after the publish. -/
def silentRedis : List Outcome :=
  List.replicate 11 fine ++ [{ fails := true, error := "ConnectionError" }, fine]

set_option maxRecDepth 2000 in
/-- The audio message is in its queue, and the transcript is rejected. -/
theorem a_failed_event_dead_letters_a_forwarded_job :
    ∃ s', run services silentRedis
        (tts.serve audio_hop.settings (.worker 0) 0 audio_hop.adasTranscript, audio_hop.waiting) =
          (.done .nacked, s') ∧
      s'.accepted = audio_hop.waiting.accepted ++ [⟨tts.audioQueue,
        tts.audioMessage gateway.adasJob.id (goString "t") "" [1] (text "nova") false⟩] := by
  with_unfolding_all exact ⟨_, rfl, rfl⟩

/-! ## The analyzer

The same round, where the failure of the event is suppressed. -/

section Analysis

variable {repr : Json → Text} {conn : Conn}

/-- What the analyzer does before it publishes: the job, and the message. -/
def analyzed (repr : Json → Text) (conn : Conn) (msg : Json) : Py (String × Json) := do
  let jobID ← raising (subscript msg "job_id" >>= idText)
  let traceID ← raising (getOr msg "trace_id" (.str []))
  let payload ← raising (getOr msg "payload" (.object []))
  let params ← raising (analyzer.readParams payload)
  let video ← analyzer.downloadVideo params.objectKey
  let probed : Int ← must (ask (.work (.ffprobe video)))
  let existing ← analyzer.existingDurationMs conn jobID
  let effective := if probed > 0 then probed else existing
  let promptDuration := if effective > 0 then some effective else none
  let segments : List Segment ← must (ask (.work (.analyze (toText repr params.style)
    (toText repr params.language) promptDuration)))
  analyzer.storeSegments conn jobID segments
  analyzer.updateJobStage conn jobID .transcribed probed
  let attemptID : String ← ExceptT.lift (ask .newString)
  return (jobID,
    analyzer.transcriptMessage jobID traceID attemptID segments params.voiceID effective)

theorem analysis_parts (repr : Json → Text) (conn : Conn) (msg : Json) (tag : Nat) :
    (analyzer.processMessage repr conn msg *> must (ask (.ack tag)) : Py Unit) =
      analyzed repr conn msg >>= fun b =>
        must (ask (.publish analyzer.transcriptQueue (some b.2))) >>= fun _ =>
          (do let _ ← ExceptT.lift (ask (.notify s!"job:{b.1}"))) >>= fun _ =>
            must (ask (.ack tag)) := by
  change (analyzer.processMessage repr conn msg >>= fun _ => must (ask (.ack tag)) : Py Unit) = _
  unfold analyzer.processMessage analyzed
  simp only [bind_assoc, pure_bind]

theorem analyzed_early (repr : Json → Text) (conn : Conn) (msg : Json) :
    attemptOnly Early (fun _ => True) (fun _ => True) (analyzed repr conn msg) := by
  unfold analyzed
  apply then_only (raising_only _)
  intro jobID
  apply then_only (raising_only _)
  intro traceID
  apply then_only (raising_only _)
  intro payload
  apply then_only (raising_only _)
  intro params
  apply then_only (analyzer.downloadVideo_only trivial (fun _ => trivial) _)
  intro video
  apply then_only (must_only (ask_only trivial))
  intro probed
  apply then_only (analyzer.existingDurationMs_only trivial)
  intro existing
  apply then_only (must_only (ask_only trivial))
  intro segments
  apply then_only (analyzer.storeSegments_only trivial (fun _ _ => trivial) trivial _)
  intro _
  have hstage : attemptOnly Early (fun _ => True) (fun _ => True)
      (analyzer.updateJobStage conn jobID .transcribed probed) :=
    then_only (sql_only (ask_only trivial)) fun _ => sql_only (ask_only trivial)
  apply then_only hstage
  intro _
  exact then_only (attempt_lift (ask_only trivial)) fun _ => trivial

/-- A failed event is no matter here. -/
theorem rejected_video_is_not_forwarded_iff {tag : Nat} {msg : Json} {os : List Outcome}
    {v : Verdict} {s s' : System}
    (hrun : run services os (analyzer.serve repr conn tag msg, s) = (.done v, s')) :
    (v = .nacked → s'.accepted = s.accepted) ↔
      Meets services (KeptApart true) os (analyzer.serve repr conn tag msg, s) := by
  unfold analyzer.serve at hrun ⊢
  rw [analysis_parts] at hrun ⊢
  exact serve_run (analyzed_early repr conn msg)
    (fun b => trails_then (suppressed_trails s!"job:{b.1}") (ack_trails tag))
    ⟨trivial, fun _ => ⟨trivial, fun _ => rfl⟩⟩ hrun

end Analysis

end recast_rules.dead_letters
