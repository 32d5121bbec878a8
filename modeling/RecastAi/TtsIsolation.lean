-- Messages on one connection of the synthesis. A statement that fails leaves
-- the transaction of the connection behind for the messages after it.
import RecastAi.TtsService

open call_programs py_text recast_rules.transcript recast_rules.models recast_rules.pipeline
open recast_rules.py recast_rules.transactions

namespace recast_rules.tts_isolation

variable {cfg : tts.Settings} {conn : Conn}

/-! ## The outcome of a message -/

/-- The messages that the broker delivers, one after the other. -/
def deliver (cfg : tts.Settings) (conn : Conn) : List (Nat × Json) → Service Unit
  | [] => return
  | (tag, msg) :: more => do
    let _ ← tts.serve cfg conn tag msg
    deliver cfg conn more

/-- The verdict, once there is one, the database after it, and the messages that were published
and settled. -/
structure Effects where
  verdict : Option Verdict
  db : pipeline.Db
  published : List Envelope
  settled : List Nat

def verdict : Service Verdict → Option Verdict
  | .done v => some v
  | .call _ _ => none

def effects (cfg : tts.Settings) (conn : Conn) (tag : Nat) (msg : Json) (os : List Outcome)
    (s : System) : Effects :=
  let x := run services os (tts.serve cfg conn tag msg, s)
  { verdict := verdict x.1
    db := x.2.db
    published := x.2.accepted.drop s.accepted.length
    settled := x.2.settled.take (x.2.settled.length - s.settled.length) }

/-- The next message comes out as on a fresh connection to the same database. -/
def Isolated (cfg : tts.Settings) (conn : Conn) (s : System) : Prop :=
  ∀ tag msg os t, t.db = s.db → t.sessions conn = .idle →
    effects cfg conn tag msg os s = effects cfg conn tag msg os t

/-! ## What a message sees

Only the database and the session of its connection. -/

/-- Two states with the same database and session, and what came to both since the start. -/
structure Alike (conn : Conn) (s₀ t₀ s t : System) : Prop where
  db : s.db = t.db
  session : s.sessions conn = t.sessions conn
  published : ∃ new, s.accepted = s₀.accepted ++ new ∧ t.accepted = t₀.accepted ++ new
  settled : ∃ new, s.settled = new ++ s₀.settled ∧ t.settled = new ++ t₀.settled

variable {s₀ t₀ s t : System}

theorem alike_session (h : Alike conn s₀ t₀ s t) (session : Session) :
    Alike conn s₀ t₀ (s.setSession conn session) (t.setSession conn session) where
  db := h.db
  session := by simp [System.setSession]
  published := h.published
  settled := h.settled

theorem alike_abort (h : Alike conn s₀ t₀ s t) :
    Alike conn s₀ t₀ (s.abort conn) (t.abort conn) := by
  unfold System.abort
  rw [h.session]
  exact alike_session h _

theorem alike_publish (e : Envelope) (h : Alike conn s₀ t₀ s t) :
    Alike conn s₀ t₀ { s with accepted := s.accepted ++ [e] }
      { t with accepted := t.accepted ++ [e] } := by
  obtain ⟨new, hs, ht⟩ := h.published
  refine ⟨h.db, h.session, ⟨new ++ [e], ?_, ?_⟩, h.settled⟩
  · simp only [hs, List.append_assoc]
  · simp only [ht, List.append_assoc]

theorem alike_settle (tag : Nat) (h : Alike conn s₀ t₀ s t) :
    Alike conn s₀ t₀ { s with settled := tag :: s.settled } { t with settled := tag :: t.settled } := by
  obtain ⟨new, hs, ht⟩ := h.settled
  refine ⟨h.db, h.session, h.published, tag :: new, ?_, ?_⟩
  · simp only [hs, List.cons_append]
  · simp only [ht, List.cons_append]

theorem alike_query (o : Outcome) (q : Query) (h : Alike conn s₀ t₀ s t) :
    (answerQuery o s (some conn) q).1 = (answerQuery o t (some conn) q).1 ∧
      Alike conn s₀ t₀ (answerQuery o s (some conn) q).2 (answerQuery o t (some conn) q).2 := by
  unfold answerQuery
  dsimp only
  rw [h.session, h.db]
  split
  · exact ⟨rfl, h⟩
  · split
    · exact ⟨rfl, alike_abort h⟩
    · split
      · exact ⟨rfl, alike_abort h⟩
      · exact ⟨rfl, h⟩

theorem alike_exec (o : Outcome) (st : Statement) (h : Alike conn s₀ t₀ s t) :
    (answerExec o s (some conn) st).1 = (answerExec o t (some conn) st).1 ∧
      Alike conn s₀ t₀ (answerExec o s (some conn) st).2 (answerExec o t (some conn) st).2 := by
  unfold answerExec
  dsimp only
  rw [h.session, h.db]
  split
  · exact ⟨rfl, h⟩
  · split
    · exact ⟨rfl, alike_abort h⟩
    · split
      · exact ⟨rfl, alike_abort h⟩
      · exact ⟨rfl, alike_session h _⟩

theorem alike_commit (o : Outcome) (h : Alike conn s₀ t₀ s t) :
    (answerCommit o s conn).1 = (answerCommit o t conn).1 ∧
      Alike conn s₀ t₀ (answerCommit o s conn).2 (answerCommit o t conn).2 := by
  unfold answerCommit System.commit
  rw [h.session, h.db]
  split
  · exact ⟨rfl, alike_session h _⟩
  · split
    · refine ⟨rfl, alike_session ?_ _⟩
      exact ⟨rfl, h.session, h.published, h.settled⟩
    · exact ⟨rfl, alike_session h _⟩

theorem alike_speaks {p : Phase} {c : Call} (o : Outcome) (hc : tts.Speaks conn p c)
    (h : Alike conn s₀ t₀ s t) :
    (answerCall o s c).1 = (answerCall o t c).1 ∧
      Alike conn s₀ t₀ (answerCall o s c).2 (answerCall o t c).2 := by
  cases hc with
  | query jobID ids => exact alike_query o _ h
  | setAudio jobID segmentIdx columns => exact alike_exec o _ h
  | commit => exact alike_commit o h
  | work w => exact ⟨rfl, h⟩
  | upload jobID segmentID c =>
    unfold answerCall
    dsimp only
    split
    · exact ⟨rfl, h⟩
    · refine ⟨rfl, ?_⟩
      dsimp only
      split
      · exact ⟨h.db, h.session, h.published, h.settled⟩
      · exact h

/-- Each call of the synthesis is answered alike. -/
theorem alike_step {p : Phase} {c : Call} (o : Outcome) (hc : tts.Makes conn p c)
    (h : Alike conn s₀ t₀ s t) :
    (answerCall o s c).1 = (answerCall o t c).1 ∧
      Alike conn s₀ t₀ (answerCall o s c).2 (answerCall o t c).2 := by
  cases hc with
  | speaks hc => exact alike_speaks o hc h
  | setStage jobID => exact alike_exec o _ h
  | newString => exact ⟨rfl, h⟩
  | publish jobID traceID attemptID ids voiceID regenOnly =>
    refine ⟨rfl, ?_⟩
    unfold answerCall
    dsimp only
    split
    · exact alike_publish _ h
    · exact h
  | notify channel => exact ⟨rfl, h⟩
  | ack tag =>
    refine ⟨rfl, ?_⟩
    unfold answerCall
    dsimp only
    split
    · exact alike_settle tag h
    · exact h
  | nack tag p hp =>
    refine ⟨rfl, ?_⟩
    unfold answerCall
    dsimp only
    split
    · exact alike_settle tag h
    · exact h

/-- A message comes out the same from two states with the same database and session. -/
theorem effects_alike (tag : Nat) (msg : Json) (os : List Outcome) (hdb : s.db = t.db)
    (hsession : s.sessions conn = t.sessions conn) :
    effects cfg conn tag msg os s = effects cfg conn tag msg os t := by
  have hmakes : (tts.serve cfg conn tag msg).Only (fun c => ∃ p, tts.Makes conn p c) fun _ => True :=
    only_of_follows (tts.serve_follows cfg conn tag msg 0 (h := []) rfl) fun _ _ h => ⟨_, h⟩
  have hstart : Alike conn s t s t :=
    ⟨hdb, hsession, ⟨[], by simp, by simp⟩, ⟨[], rfl, rfl⟩⟩
  obtain ⟨hprog, hend⟩ := run_alike (w := services) hmakes hstart
    (fun _ _ _ o ⟨_, hc⟩ h => alike_step o hc h) os
  obtain ⟨pub, hs, ht⟩ := hend.published
  obtain ⟨set, hs', ht'⟩ := hend.settled
  unfold effects
  simp only [hprog, hend.db, hs, ht, hs', ht', List.drop_left', List.length_append]
  simp

/-! ## The connection after the messages -/

theorem uses_of_makes {p : Phase} {c : Call} (h : tts.Makes conn p c) : Uses conn c := by
  cases h with
  | speaks h =>
    cases h with
    | query jobID ids => exact .query _
    | setAudio jobID segmentIdx columns => exact .exec _
    | commit => exact .commit
    | _ => exact .aside trivial
  | setStage jobID => exact .exec _
  | _ => exact .aside trivial

theorem aside_of_failed {c : Call} (h : tts.Makes conn .failed c) : Aside c := by
  cases h with
  | speaks h => cases h
  | nack tag p hp => trivial

theorem opened_of_commit {p : Phase} (h : tts.Makes conn p (.commit conn)) : p = .opened := by
  cases h with
  | speaks h =>
    cases h
    rfl

/-- After a message the connection is idle, or one of its statements has failed. -/
theorem serve_leaves {tag : Nat} {msg : Json} {os : List Outcome} {v : Verdict} {s s' : System}
    (hidle : s.sessions conn = .idle)
    (hrun : run services os (tts.serve cfg conn tag msg, s) = (.done v, s')) :
    Meets services (Succeeds conn) os (tts.serve cfg conn tag msg, s) ∧ s'.sessions conn = .idle ∨
      ¬ Meets services (Succeeds conn) os (tts.serve cfg conn tag msg, s) ∧
        (s'.sessions conn).aborted = true := by
  obtain ⟨last, hopened, hend, -, hiff⟩ := run_phase (M := tts.Makes conn) (h := [])
    (fun _ _ => uses_of_makes) (fun _ => aside_of_failed) (tts.serve_follows cfg conn tag msg 0 (h := []) rfl) hidle hrun
  rw [hiff nofun]
  cases last with
  | idle => exact Or.inl ⟨nofun, hend⟩
  | opened => exact absurd rfl hopened
  | failed => exact Or.inr ⟨fun h => h rfl, hend⟩

/-- A statement that has failed stays with the connection. -/
theorem serve_stays_stuck (tag : Nat) (msg : Json) {s : System}
    (haborted : (s.sessions conn).aborted = true) :
    wp services (fun _ _ _ => True) (tts.serve cfg conn tag msg)
      (fun _ s => (s.sessions conn).aborted = true) s := by
  have hstuck := wp_stuck (E := fun _ _ _ => True) (fun _ _ => uses_of_makes)
    (fun _ => opened_of_commit) (tts.serve_follows cfg conn tag msg 0 (h := []) rfl) ⟨haborted, nofun⟩
  exact wp_mono hstuck fun _ _ ⟨_, _, h⟩ => h.aborted

theorem deliver_stays_stuck {msgs : List (Nat × Json)} {s : System}
    (haborted : (s.sessions conn).aborted = true) :
    wp services (fun _ _ _ => True) (deliver cfg conn msgs)
      (fun _ s => (s.sessions conn).aborted = true) s := by
  induction msgs generalizing s with
  | nil => exact haborted
  | cons m msgs ih =>
    unfold deliver
    rw [wp_bind]
    exact wp_mono (serve_stays_stuck m.1 m.2 haborted) fun _ _ h => ih h

theorem deliver_leaves {msgs : List (Nat × Json)} {os : List Outcome} {s s' : System}
    (hidle : s.sessions conn = .idle)
    (hrun : run services os (deliver cfg conn msgs, s) = (.done (), s')) :
    Meets services (Succeeds conn) os (deliver cfg conn msgs, s) ∧ s'.sessions conn = .idle ∨
      ¬ Meets services (Succeeds conn) os (deliver cfg conn msgs, s) ∧
        (s'.sessions conn).aborted = true := by
  induction msgs generalizing os s with
  | nil =>
    unfold deliver at hrun ⊢
    simp only [Prog.pure_eq, run_done, Prod.mk.injEq] at hrun
    exact Or.inl ⟨meets_done _ _ _ _ _, hrun.2 ▸ hidle⟩
  | cons m msgs ih =>
    unfold deliver at hrun ⊢
    obtain ⟨os₁, os₂, v, s₁, h₁, h₂, hm⟩ := run_bind hrun
    rw [hm]
    rcases serve_leaves hidle h₁ with ⟨hmeets, hidle₁⟩ | ⟨hfails, haborted⟩
    · rw [and_iff_right hmeets]
      exact ih hidle₁ h₂
    · have hstays := wp_run_any (deliver_stays_stuck haborted) h₂
      exact Or.inr ⟨fun h => hfails h.1, hstays⟩

/-! ## A message on a stuck connection -/

section Stuck

variable {E : System → Call → Outcome → Prop} {α : Type} {s : System}

/-- A part of the work that gives up, or goes on with the connection as stuck as before. -/
theorem keeps_stuck {p : Py α} (hp : Keeps conn (tts.Speaks conn) p)
    (haborted : (s.sessions conn).aborted = true) :
    wpTry services E p (fun _ _ => True) (fun _ s => (s.sessions conn).aborted = true) s := by
  have hstuck := wp_stuck (E := E) (fun _ _ => uses_of_makes) (fun _ => opened_of_commit)
    (keeps_mono hp (fun _ _ => .speaks) 0 [] rfl) ⟨haborted, nofun⟩
  refine wp_mono hstuck fun x s ⟨_, _, h⟩ => ?_
  cases x with
  | error e => trivial
  | ok a => exact h.aborted

/-- Goes on after such a part. -/
theorem stuck_then {β : Type} {p : Py α} {f : α → Py β} {Q : β → System → Prop}
    (hp : Keeps conn (tts.Speaks conn) p) (haborted : (s.sessions conn).aborted = true)
    (hf : ∀ a s, (s.sessions conn).aborted = true → wpTry services E (f a) (fun _ _ => True) Q s) :
    wpTry services E (p >>= f) (fun _ _ => True) Q s :=
  wpTry_bind (wpTry_mono (keeps_stuck hp haborted) (fun _ _ h => h) hf)

theorem record_is_not_updated (jobID : String) (segmentIdx : Int) (audioPath : String) (flagged : Bool)
    (words : List PgWord) (finalText : Option Text) (haborted : (s.sessions conn).aborted = true) :
    wpTry services E (tts.updateSegmentRecord conn jobID segmentIdx audioPath flagged words finalText)
      (fun _ _ => True) (fun _ _ => False) s := by
  unfold tts.updateSegmentRecord
  apply stuck_then (keeps_raising _) haborted
  intro newText s haborted
  apply wpTry_bind
  apply wpTry_orGiveUp
  intro o _
  have hfails : services.answer o s (.exec (some conn) (.setAudio jobID segmentIdx
      ⟨audioPath, flagged, words, newText⟩)) = (Except.error .failed, s) := by
    change answerExec o s (some conn) _ = _
    unfold answerExec
    simp only [haborted, ↓reduceIte]
  rw [hfails]
  trivial

theorem segment_is_not_processed (jobID : String) (voice : tts.Voice) (segment : tts.SegmentDict)
    (haborted : (s.sessions conn).aborted = true) :
    wpTry services E (tts.processSegment cfg conn jobID voice segment) (fun _ _ => True)
      (fun _ _ => False) s := by
  unfold tts.processSegment
  apply stuck_then (keeps_raising _) haborted
  intro segmentID s haborted
  apply stuck_then (keeps_raising _) haborted
  intro startMs s haborted
  apply stuck_then (keeps_raising _) haborted
  intro endMs s haborted
  apply stuck_then (tts.iterate_keeps conn cfg voice _ _ _ _ _ _) haborted
  intro iteration s haborted
  apply stuck_then (keeps_must (tts.speaks_work _)) haborted
  intro fit s haborted
  apply stuck_then (keeps_must (tts.speaks_work _)) haborted
  intro words s haborted
  apply stuck_then (keeps_must (follows_aside (by trivial) (.upload _ _ _))) haborted
  intro _ s haborted
  apply wpTry_bind
  exact wpTry_mono (record_is_not_updated jobID _ _ _ _ _ haborted) (fun _ _ h => h)
    fun _ _ h => h.elim

theorem message_is_not_processed (msg : Json) (haborted : (s.sessions conn).aborted = true) :
    wpTry services E (tts.processMessage cfg conn msg) (fun _ _ => True) (fun _ _ => False) s := by
  unfold tts.processMessage
  apply stuck_then (keeps_raising _) haborted
  intro jobID s haborted
  apply stuck_then (keeps_raising _) haborted
  intro traceID s haborted
  apply stuck_then (keeps_raising _) haborted
  intro payload s haborted
  apply stuck_then (keeps_raising _) haborted
  intro voice s haborted
  apply stuck_then (tts.selectSegments_keeps conn jobID _) haborted
  intro segments s haborted
  apply wpTry_bind
  apply wpTry_giveUpIf
  · intro _
    trivial
  · intro hsegments
    apply stuck_then (keeps_raising _) haborted
    intro regenIDs s haborted
    apply wpTry_bind
    cases segments with
    | nil => cases hsegments
    | cons segment segments =>
      unfold tts.processSegments
      apply wpTry_bind
      exact wpTry_mono (segment_is_not_processed jobID voice segment haborted) (fun _ _ h => h)
        fun _ _ h => h.elim

/-- On a stuck connection every message is dead-lettered. -/
theorem stuck_messages_are_nacked (tag : Nat) (msg : Json)
    (haborted : (s.sessions conn).aborted = true) :
    wp services E (tts.serve cfg conn tag msg) (fun v _ => v = .nacked) s := by
  unfold tts.serve
  rw [wp_bind]
  have hfails : wpTry services E (tts.processMessage cfg conn msg *> must (ask (.ack tag)))
      (fun _ _ => True) (fun _ _ => False) s :=
    wpTry_bind (wpTry_mono (message_is_not_processed msg haborted) (fun _ _ h => h)
      fun _ _ h => h.elim)
  refine wp_mono hfails fun x s hx => ?_
  cases x with
  | ok u => cases hx
  | error e => exact fun _ _ => rfl

end Stuck

/-! ## A message on an idle connection -/

/-- Nothing fails, and each attempt has just the score that passes. -/
def Smooth (cfg : tts.Settings) (_ : System) (_ : Call) (o : Outcome) : Prop :=
  o.fails = false ∧ o.combined = cfg.qualityPassThreshold

section Smooth

variable {α : Type} {F : String → System → Prop} {Q : α → System → Prop} {s : System}

theorem reply_ok {o : Outcome} (h : o.fails = false) (a : α) : reply o a = .ok a := by
  unfold reply
  rw [h]
  rfl

/-- A part whose calls are answered without an error. -/
theorem smooth_must {p : Service (Except String α)} (hp : wp services (Smooth cfg) p
    (fun x s => ∃ a, x = .ok a ∧ Q a s) s) : wpTry services (Smooth cfg) (must p) F Q s := by
  apply wpTry_orGiveUp
  refine wp_mono hp fun x s ⟨a, hx, ha⟩ => ?_
  rw [hx]
  exact ha

theorem smooth_upload {key : String} {blob : Blob} {Q : Unit → System → Prop} (hkey : key ≠ "")
    (hQ : Q () (s.put key (some blob))) :
    wpTry services (Smooth cfg) (must (ask (.upload key blob))) F Q s := by
  apply wpTry_orGiveUp
  rintro o ⟨ho, -⟩
  have hupload : services.answer o s (.upload key blob) = (Except.ok (), s.put key (some blob)) := by
    change answerCall o s (.upload key blob) = _
    unfold answerCall landed
    simp only [if_neg hkey, reply_ok ho, ho]
    rfl
  rw [hupload]
  exact hQ

/-- The first attempt passes. -/
theorem first_attempt_passes (voice : tts.Voice) (startMs endMs targetMs : Int) (left : Nat)
    (spoken : Text) {Q : tts.IterationResult → System → Prop}
    (hQ : ∀ r, r.finalText = spoken → Q r s) :
    wpTry services (Smooth cfg) (tts.iterate cfg voice startMs endMs targetMs left spoken none) F Q
      s := by
  have honce : wpTry services (Smooth cfg) (tts.synthesizeOnce voice targetMs spoken none) F
      (fun x t => t = s ∧ x.1.finalText = spoken ∧ tts.passes cfg x.2 = true) s := by
    unfold tts.synthesizeOnce
    apply wpTry_bind
    apply smooth_must
    rintro o ⟨ho, -⟩
    refine ⟨_, reply_ok ho _, ?_⟩
    apply wpTry_bind
    apply smooth_must
    rintro o' ⟨ho', hcombined⟩
    refine ⟨_, reply_ok ho' _, rfl, rfl, ?_⟩
    unfold tts.passes
    rw [hcombined]
    exact decide_eq_true Rat.le_refl
  cases left with
  | zero =>
    unfold tts.iterate
    apply wpTry_bind
    refine wpTry_mono honce (fun _ _ h => h) ?_
    rintro x t ⟨rfl, hspoken, -⟩
    exact hQ _ hspoken
  | succ left =>
    unfold tts.iterate
    apply wpTry_bind
    refine wpTry_mono honce (fun _ _ h => h) ?_
    rintro x t ⟨rfl, hspoken, hpasses⟩
    dsimp only
    rw [if_pos hpasses]
    exact hQ _ hspoken

/-- The statement finds no error, and its transaction is over. -/
theorem smooth_commit {st : Statement} {Q : Unit → System → Prop}
    (hidle : s.sessions conn = .idle) (hst : ∀ now, ∃ x, s.db.exec now st = .ok x)
    (hQ : ∀ s, s.sessions conn = .idle → Q () s) :
    wpTry services (Smooth cfg) (do
      let _ ← sql (ask (.exec (some conn) st))
      sql (ask (.commit conn))) F Q s := by
  apply wpTry_bind
  apply wpTry_orGiveUp
  rintro o ⟨ho, -⟩
  obtain ⟨x, hx⟩ := hst o.now
  have hexec : services.answer o s (.exec (some conn) st) =
      (Except.ok x.1, s.setSession conn ⟨[(o.now, st)], false⟩) := by
    change answerExec o s (some conn) st = _
    unfold answerExec
    simp only [hidle, Session.idle, ho, hx]
    rfl
  rw [hexec]
  apply wpTry_orGiveUp
  rintro o' ⟨ho', -⟩
  have hcommit : ∃ s', services.answer o' (s.setSession conn ⟨[(o.now, st)], false⟩) (.commit conn) =
      (Except.ok (), s') ∧ s'.sessions conn = .idle := by
    refine ⟨_, Prod.ext ?_ rfl, idle_after_commit conn o' _⟩
    change (answerCommit o' _ conn).1 = _
    unfold answerCommit replyDb
    simp only [System.setSession, ho', ↓reduceIte, Bool.false_eq_true]
  obtain ⟨s', hcommit, hidle'⟩ := hcommit
  rw [hcommit]
  exact hQ s' hidle'

end Smooth

def aUUID : String := "6f9619ff-8b86-d011-b42d-00c04fc964ff"

/-- A message with one segment, of which it says nothing. -/
def probe : Json :=
  .object [(text "job_id", goString aUUID),
    (text "payload", .object [(text "segments", .array [.object []])])]

def probeSegment : tts.SegmentDict := [(text "segment_id", .int 1)]

theorem uuid_is_read : uuidIn aUUID = some aUUID := by with_unfolding_all rfl

theorem audio_is_written (db : pipeline.Db) (now : Nat) (segmentIdx : Int) (columns : AudioColumns) :
    ∃ x, db.exec now (.setAudio aUUID segmentIdx columns) = .ok x := by
  unfold Db.exec
  dsimp only
  rw [withID_read uuid_is_read]
  exact ⟨_, rfl⟩

theorem stage_is_written (db : pipeline.Db) (now : Nat) (stage : Stage) :
    ∃ x, db.exec now (.setStage aUUID stage) = .ok x := by
  unfold Db.exec
  dsimp only
  rw [withID_read uuid_is_read]
  exact ⟨_, rfl⟩

theorem probe_segment_is_processed (voice : tts.Voice) {s : System} {F : String → System → Prop}
    {Q : Int → System → Prop} (hidle : s.sessions conn = .idle)
    (hQ : ∀ s, s.sessions conn = .idle → Q 1 s) :
    wpTry services (Smooth cfg) (tts.processSegment cfg conn aUUID voice probeSegment) F Q s := by
  have hid : toInt ((probeSegment.lookup (text "segment_id")).getD (.int 0)) = .ok 1 := by
    with_unfolding_all rfl
  have hstart : toInt ((probeSegment.lookup (text "start_ms")).getD (.int 0)) = .ok 0 := by
    with_unfolding_all rfl
  have hend : toInt ((probeSegment.lookup (text "end_ms")).getD (.int 0)) = .ok 0 := by
    with_unfolding_all rfl
  have htext : (probeSegment.lookup (text "text")).getD (.str []) = .str [] := by
    with_unfolding_all rfl
  unfold tts.processSegment
  simp only [hid, hstart, hend, htext, raising_ok_bind]
  apply wpTry_bind
  apply first_attempt_passes
  intro r hr
  apply wpTry_bind
  apply smooth_must
  rintro o ⟨ho, -⟩
  refine ⟨_, reply_ok ho _, ?_⟩
  apply wpTry_bind
  apply smooth_must
  rintro o ⟨ho, -⟩
  refine ⟨_, reply_ok ho _, ?_⟩
  apply wpTry_bind
  apply smooth_upload (by with_unfolding_all decide)
  apply wpTry_bind
  have hsame : strip r.finalText = strip (toText cfg.repr (.str [])) := by
    rw [hr]
    with_unfolding_all rfl
  rw [if_pos hsame]
  unfold tts.updateSegmentRecord
  simp only [raising_ok_bind]
  apply smooth_commit
  · exact hidle
  · exact fun now => audio_is_written _ now 1 _
  · exact hQ

theorem probe_is_processed {s : System} (hidle : s.sessions conn = .idle) :
    wpTry services (Smooth cfg) (tts.processMessage cfg conn probe) (fun _ _ => False)
      (fun _ _ => True) s := by
  have hid : subscript probe "job_id" >>= idText = .ok aUUID := by with_unfolding_all rfl
  have htrace : getOr probe "trace_id" (.str []) = .ok (.str []) := by with_unfolding_all rfl
  have hpayload : getOr probe "payload" (.object []) =
      .ok (.object [(text "segments", .array [.object []])]) := by with_unfolding_all rfl
  have hvoice : ∃ voice, tts.readVoice cfg (orElse
      (.object [(text "segments", .array [.object []])]) (.object [])) = .ok voice := by
    with_unfolding_all exact ⟨_, rfl⟩
  have hids : tts.regenerationIDs (orElse
      (.object [(text "segments", .array [.object []])]) (.object [])) = .ok [] := by
    with_unfolding_all rfl
  have hsegments : tts.selectSegments conn aUUID (orElse
      (.object [(text "segments", .array [.object []])]) (.object [])) = raising (.ok [probeSegment]) := by
    unfold tts.selectSegments
    simp only [hids, raising_ok_bind]
    with_unfolding_all rfl
  obtain ⟨voice, hvoice⟩ := hvoice
  unfold tts.processMessage
  simp only [hid, htrace, hpayload, hvoice, hids, hsegments, raising_ok_bind]
  apply wpTry_bind
  apply wpTry_giveUpIf
  · nofun
  · intro _
    apply wpTry_bind
    unfold tts.processSegments
    apply wpTry_bind
    apply probe_segment_is_processed voice hidle
    intro s hidle
    change wpTry services (Smooth cfg)
      (tts.unlessRegen false (tts.markJobSynthesized conn aUUID) >>= _) _ _ s
    apply wpTry_bind
    apply smooth_commit hidle fun now => stage_is_written _ now _
    intro s hidle
    apply wpTry_bind
    apply wpTry_lift
    intro o _
    apply wpTry_bind
    apply smooth_must
    rintro o' ⟨ho, -⟩
    refine ⟨_, reply_ok ho _, ?_⟩
    apply smooth_must
    rintro o'' ⟨ho, -⟩
    exact ⟨_, reply_ok ho _, trivial⟩

/-- On an idle connection the message can be acknowledged. -/
theorem probe_is_acked (tag : Nat) {s : System} (hidle : s.sessions conn = .idle) :
    wp services (Smooth cfg) (tts.serve cfg conn tag probe) (fun v _ => v = .acked) s := by
  have hack : wpTry services (Smooth cfg) (tts.processMessage cfg conn probe *> must (ask (.ack tag)))
      (fun _ _ => False) (fun _ _ => True) s := by
    apply wpTry_bind
    refine wpTry_mono (probe_is_processed hidle) (fun _ _ h => h) fun _ s _ => ?_
    apply smooth_must
    rintro o ⟨ho, -⟩
    exact ⟨_, reply_ok ho _, trivial⟩
  unfold tts.serve
  rw [wp_bind]
  refine wp_mono hack fun x s hx => ?_
  cases x with
  | ok u => rfl
  | error e => cases hx

/-- A stuck connection answers the message as no fresh one does. -/
theorem stuck_is_not_isolated {s : System} (haborted : (s.sessions conn).aborted = true) :
    ¬ Isolated cfg conn s := by
  intro hisolated
  let fresh := s.setSession conn .idle
  have hfresh : fresh.sessions conn = .idle := by simp [fresh, System.setSession]
  obtain ⟨v, t, os, hmeets, hacked⟩ := ends_of_choice (w := services) (E := Smooth cfg)
    (tts.serve cfg conn 0 probe) fresh
    fun _ _ => ⟨{ combined := cfg.qualityPassThreshold }, rfl, rfl⟩
  have hv := wp_run (probe_is_acked 0 hfresh) hmeets hacked
  have heffects := congrArg Effects.verdict (hisolated 0 probe os fresh rfl hfresh)
  unfold effects at heffects
  simp only [hacked, hv, verdict] at heffects
  cases hx : run services os (tts.serve cfg conn 0 probe, s) with
  | mk p t' =>
    rw [hx] at heffects
    cases p with
    | call c k => cases heffects
    | done v' =>
      have hnacked := wp_run_any (stuck_messages_are_nacked 0 probe haborted) hx
      rw [hnacked] at heffects
      cases heffects

/-! ## The law -/

def settings : tts.Settings := tts.defaults fun _ => []

def empty : System := ⟨⟨[], [], [], []⟩, fun _ => .idle, 0, fun _ => none, [], []⟩

/-- A message without segments is refused before any statement. -/
def noSegments : Json := .object [(text "job_id", goString aUUID)]

/-- The id of this one is no `UUID`, and the statement of its segment fails. -/
def noUUID : Json :=
  .object [(text "job_id", goString "talk"),
    (text "payload", .object [(text "segments", .array [.object []])])]

end recast_rules.tts_isolation
