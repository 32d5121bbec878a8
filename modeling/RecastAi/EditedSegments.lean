-- What an edit of a transcript makes of the segments that it does not name. Its message has the
-- whole transcript, so the synthesis speaks and writes every segment of the job again.
import RecastAi.PyPatterns
import RecastAi.Regenerations
import RecastAi.TranscriptEdits

open call_programs py_text recast_rules.transcript recast_rules.models recast_rules.pipeline
open recast_rules.py recast_rules.regenerations recast_rules.transcript_edits
open recast_rules.gateway (SegmentEdit)

namespace recast_rules.edited_segments

/-! ## The other segments -/

/-- An edit names the row. -/
def Named (edits : List SegmentEdit) (row : TranscriptSegment) : Prop :=
  ∃ seg ∈ edits, uuidIn seg.id = some row.id

/-- What is heard and shown of the row is the same. -/
structure SameContent (row row' : TranscriptSegment) : Prop where
  id : row'.id = row.id
  jobID : row'.jobID = row.jobID
  text : row'.text = row.text
  audioPath : row'.audioPath = row.audioPath
  wordsJson : row'.wordsJson = row.wordsJson
  approved : row'.approved = row.approved
  flagged : row'.flagged = row.flagged

/-- The rows of the job that no edit names are as before. -/
def OthersAlone (id : String) (edits : List SegmentEdit) (s s' : System) : Prop :=
  ∀ row ∈ s.db.segments, row.jobID = id → ¬ Named edits row →
    ∃ row' ∈ s'.db.segments, SameContent row row'

/-- The synthesis, alone, has processed the message. -/
def Processed (cfg : tts.Settings) (conn : Conn) (tag : Nat) (body : Json) (s s' : System) : Prop :=
  ∃ os, run services os (tts.serve cfg conn tag body, s) = (.done .acked, s')

/-! ## A quiet provider

No call fails, the first attempt at a segment passes, and the fit flags each clip or none. -/

def steady (cfg : tts.Settings) (b : Bool) : Outcome where
  combined := cfg.qualityPassThreshold
  flagged := b

def Steady (cfg : tts.Settings) (b : Bool) : System → Call → Outcome → Prop :=
  fun _ _ o => o = steady cfg b

section Steady

variable {cfg : tts.Settings} {b : Bool} {conn : Conn} {t : System}

theorem passes_at_the_threshold (issues : List Text) :
    tts.passes cfg ⟨cfg.qualityPassThreshold, issues⟩ = true :=
  decide_eq_true Rat.le_refl

theorem steady_once (voice : tts.Voice) (targetMs : Int) (spoken : Text) :
    wpTry services (Steady cfg b) (tts.synthesizeOnce voice targetMs spoken none)
      (fun _ _ => False)
      (fun x t' => t' = t ∧ x.1.finalText = spoken ∧ tts.passes cfg x.1.score = true ∧
        tts.passes cfg x.2 = true) t := by
  unfold tts.synthesizeOnce
  rintro _ rfl _ rfl
  exact ⟨rfl, rfl, passes_at_the_threshold [], passes_at_the_threshold []⟩

theorem steady_iterate (voice : tts.Voice) (startMs endMs targetMs : Int) (left : Nat)
    (spoken : Text) :
    wpTry services (Steady cfg b) (tts.iterate cfg voice startMs endMs targetMs left spoken none)
      (fun _ _ => False)
      (fun it t' => t' = t ∧ it.finalText = spoken ∧ tts.passes cfg it.score = true) t := by
  cases left with
  | zero =>
    unfold tts.iterate
    apply wpTry_bind
    refine wpTry_mono (steady_once voice targetMs spoken) (fun _ _ h => h) ?_
    rintro ⟨it, score⟩ t' ⟨rfl, htext, hpasses, -⟩
    exact ⟨rfl, htext, hpasses⟩
  | succ left =>
    unfold tts.iterate
    apply wpTry_bind
    refine wpTry_mono (steady_once voice targetMs spoken) (fun _ _ h => h) ?_
    rintro ⟨it, score⟩ t' ⟨rfl, htext, hpasses, hscore⟩
    dsimp only
    rw [if_pos hscore]
    exact ⟨rfl, htext, hpasses⟩

/-- A statement and its commit. -/
theorem steady_commit {st : Statement} {n : Nat} {db : pipeline.Db}
    (hidle : t.sessions conn = .idle) (hexec : t.db.exec 0 st = .ok (n, db)) :
    wpTry services (Steady cfg b) (do
      let _ ← sql (ask (.exec (some conn) st))
      sql (ask (.commit conn)) : Py Unit)
      (fun _ _ => False) (fun _ t' => t'.sessions conn = .idle ∧ t'.db = db) t := by
  have hstatement : services.answer (steady cfg b) t (.exec (some conn) st) =
      (.ok n, t.setSession conn ⟨[(0, st)], false⟩) := by
    change answerExec _ t (some conn) st = _
    unfold answerExec
    simp only [hidle, Session.idle, steady, hexec, Bool.false_eq_true, if_false, List.nil_append]
    rfl
  have hsession := gateway.session_set t conn ⟨[(0, st)], false⟩
  apply wpTry_bind
  apply wpTry_orGiveUp
  rintro _ rfl
  rw [hstatement]
  apply wpTry_orGiveUp
  rintro _ rfl
  have hcommit : services.answer (steady cfg b) (t.setSession conn ⟨[(0, st)], false⟩) (.commit conn) =
      (.ok (), (t.setSession conn ⟨[(0, st)], false⟩).commit conn) := by
    change answerCommit _ _ conn = _
    unfold answerCommit
    simp only [hsession, Bool.false_eq_true, if_false]
    rfl
  rw [hcommit]
  refine ⟨gateway.session_set _ conn .idle, ?_⟩
  change t.db.execAll ((t.setSession conn ⟨[(0, st)], false⟩).sessions conn).pending = db
  rw [hsession]
  unfold Db.execAll
  rw [hexec]
  rfl

/-! ## The segments -/

/-- The connection is idle, the rows of the job are among these numbers, and the ones that are done
are flagged as the provider wants them. -/
structure Marked (conn : Conn) (id : String) (all done : List Int) (b : Bool) (t : System) : Prop where
  idle : t.sessions conn = .idle
  listed : ∀ row ∈ t.db.segments, row.jobID = id → row.segmentIdx.val ∈ all
  flagged : ∀ row ∈ t.db.segments, row.jobID = id → row.segmentIdx.val ∈ done → row.flagged = b

/-- The audio of one segment is written. -/
def writeAudio (id : String) (idx : Int) (columns : AudioColumns) (row : TranscriptSegment) :
    TranscriptSegment :=
  if row.jobID = id && row.segmentIdx.val = idx then columns.write row else row

theorem writeAudio_keeps (id : String) (idx : Int) (columns : AudioColumns)
    (row : TranscriptSegment) : (writeAudio id idx columns row).jobID = row.jobID ∧
      (writeAudio id idx columns row).segmentIdx = row.segmentIdx := by
  unfold writeAudio
  split <;> exact ⟨rfl, rfl⟩

/-- One more segment is written. -/
theorem Marked.cons {id : String} {all done : List Int} {idx : Int} {t' : System}
    {columns : AudioColumns} (h : Marked conn id all done b t) (hb : columns.flagged = b)
    (hidle : t'.sessions conn = .idle)
    (hrows : t'.db.segments = t.db.segments.map (writeAudio id idx columns)) :
    Marked conn id all (idx :: done) b t' := by
  refine ⟨hidle, fun row' hrow' hjob => ?_, fun row' hrow' hjob hdone => ?_⟩
  all_goals
    rw [hrows] at hrow'
    obtain ⟨row, hrow, rfl⟩ := List.mem_map.mp hrow'
    obtain ⟨hsamejob, hsameidx⟩ := writeAudio_keeps id idx columns row
    rw [hsamejob] at hjob
  · rw [hsameidx]
    exact h.listed row hrow hjob
  · rw [hsameidx] at hdone
    unfold writeAudio
    by_cases hidx : row.segmentIdx.val = idx
    · rw [if_pos (by simp [hjob, hidx])]
      exact hb
    · rw [if_neg (by simp [hidx])]
      exact h.flagged row hrow hjob ((List.mem_cons.mp hdone).resolve_left hidx)

theorem steady_record {jobID id : String} {all done : List Int} {idx : Int} {audioPath : String}
    {words : List PgWord} (hid : uuidIn jobID = some id) (h : Marked conn id all done b t) :
    wpTry services (Steady cfg b)
      (tts.updateSegmentRecord conn jobID idx audioPath b words none)
      (fun _ _ => False) (fun _ t' => Marked conn id all (idx :: done) b t') t := by
  unfold tts.updateSegmentRecord
  have hexec : t.db.exec 0 (.setAudio jobID idx ⟨audioPath, b, words, none⟩) =
      .ok (t.db.updateSegments (fun row => row.jobID = id && row.segmentIdx.val = idx)
        (AudioColumns.write ⟨audioPath, b, words, none⟩)) := withID_read hid _
  refine wpTry_mono (steady_commit h.idle hexec) (fun _ _ h => h) ?_
  rintro _ t' ⟨hidle, hdb⟩
  exact h.cons rfl hidle (congrArg pipeline.Db.segments hdb)

theorem audioKey_named (jobID : String) (idx : Int) : tts.audioKey jobID idx ≠ "" := by
  intro h
  have hlength := congrArg String.length h
  have hparts : tts.audioKey jobID idx = "audio/" ++ jobID ++ "/" ++ toString idx ++ ".mp3" := rfl
  rw [hparts] at hlength
  simp at hlength

theorem steady_upload (jobID : String) (idx : Int) (blob : Blob) (t : System) :
    services.answer (steady cfg b) t (.upload (tts.audioKey jobID idx) blob) =
      (.ok (), t.put (tts.audioKey jobID idx) (some blob)) := by
  change answerCall (steady cfg b) t _ = _
  unfold answerCall
  exact if_neg (audioKey_named jobID idx)

/-- A segment of the message is spoken and written. -/
theorem steady_segment {jobID id : String} {all done : List Int} {row : TranscriptSegment}
    {fields : tts.SegmentDict} (voice : tts.Voice) (hid : uuidIn jobID = some id)
    (hrow : WrittenRow row fields) (h : Marked conn id all done b t) :
    wpTry services (Steady cfg b) (tts.processSegment cfg conn jobID voice fields)
      (fun _ _ => False) (fun _ t' => Marked conn id all (row.segmentIdx.val :: done) b t') t := by
  unfold tts.processSegment
  rw [hrow.id, hrow.start, hrow.stop]
  change wpTry _ _ (raising (.ok row.segmentIdx.val) >>= fun _ => raising (.ok row.startMs.val) >>=
    fun _ => raising (.ok row.endMs.val) >>= _) _ _ _
  simp only [raising_ok_bind]
  apply wpTry_bind
  refine wpTry_mono (steady_iterate voice _ _ _ _ _) (fun _ _ h => h) ?_
  rintro it t' ⟨rfl, htext, hpasses⟩
  have hsame : strip it.finalText = strip (toText cfg.repr ((fields.lookup (text "text")).getD (.str []))) := by
    rw [htext, strip_strip]
  rw [if_pos hsame, hpasses]
  -- the fit, the word timings and the upload
  apply wpTry_bind
  rintro _ rfl
  apply wpTry_bind
  rintro _ rfl
  apply wpTry_bind
  rintro _ rfl
  rw [steady_upload]
  have hstored : ∀ blob, Marked conn id all done b
      (t'.put (tts.audioKey jobID row.segmentIdx.val) blob) :=
    fun _ => ⟨h.idle, h.listed, h.flagged⟩
  have hflag : ((steady cfg b).flagged || !true) = b := Bool.or_false b
  rw [hflag]
  exact wpTry_bind (steady_record hid (hstored _))

/-- All segments of the message are spoken and written. -/
theorem steady_segments {jobID id : String} {all done : List Int} {rows : List TranscriptSegment}
    {dicts : List tts.SegmentDict} (voice : tts.Voice) (hid : uuidIn jobID = some id)
    (hwritten : List.Forall₂ WrittenRow rows dicts) (h : Marked conn id all done b t) :
    wpTry services (Steady cfg b) (tts.processSegments cfg conn jobID voice dicts)
      (fun _ _ => False)
      (fun _ t' => ∃ done', done ⊆ done' ∧ (∀ row ∈ rows, row.segmentIdx.val ∈ done') ∧
        Marked conn id all done' b t') t := by
  induction hwritten generalizing done t with
  | nil => exact ⟨done, List.Subset.refl done, fun _ hrow => absurd hrow List.not_mem_nil, h⟩
  | @cons row fields rows dicts hrow _ ih =>
    unfold tts.processSegments
    apply wpTry_bind
    refine wpTry_mono (steady_segment voice hid hrow h) (fun _ _ h => h) fun _ t' h' => ?_
    apply wpTry_bind
    refine wpTry_mono (ih h') (fun _ _ h => h) ?_
    rintro _ t'' ⟨done', hsub, hrows, h''⟩
    obtain ⟨hfirst, hsub⟩ := List.cons_subset.mp hsub
    refine ⟨done', hsub, fun row' hrow' => ?_, h''⟩
    rcases List.mem_cons.mp hrow' with rfl | hrow'
    · exact hfirst
    · exact hrows row' hrow'

/-! ## The message -/

/-- All rows of the job are flagged as the provider wants them. -/
def AllFlagged (id : String) (b : Bool) (t : System) : Prop :=
  ∀ row ∈ t.db.segments, row.jobID = id → row.flagged = b

theorem uuidBytes_zero {n : Nat} {cs ds rest : List Char} (h : uuidBytes n cs = some (ds, rest))
    (hzero : '\x00' ∈ cs) : '\x00' ∈ rest := by
  induction n generalizing cs ds with
  | zero =>
    obtain ⟨rfl, rfl⟩ := Prod.mk.inj (Option.some.inj h)
    exact hzero
  | succ n ih =>
    rcases cs with _ | ⟨a, _ | ⟨b, cs⟩⟩
    · cases h
    · cases h
    unfold uuidBytes at h
    split at h
    · rename_i x y hx hy
      have ha : a ≠ '\x00' := fun ha => by simp [ha, hexDigit] at hx
      have hb : b ≠ '\x00' := fun hb => by simp [hb, hexDigit] at hy
      obtain ⟨⟨ds', rest'⟩, hrest, heq⟩ := Option.map_eq_some_iff.mp h
      obtain ⟨-, rfl⟩ := Prod.mk.inj heq
      refine ih hrest ?_
      have hcs : '\x00' ∈ cs :=
        (List.mem_cons.mp ((List.mem_cons.mp hzero).resolve_left ha.symm)).resolve_left hb.symm
      split
      · rename_i hhyphen
        cases cs with
        | nil => exact absurd hcs List.not_mem_nil
        | cons c cs =>
          refine (List.mem_cons.mp hcs).resolve_left fun hc => ?_
          simp [← hc] at hhyphen
      · exact hcs
    · cases h

/-- An id of a row can be a parameter of a statement. -/
theorem idText_uuid {jobID id : String} (hid : uuidIn jobID = some id) :
    idText (goString jobID) = .ok jobID := by
  have hzero : '\x00' ∉ jobID.toList := by
    intro hmem
    unfold uuidIn at hid
    split at hid
    · rename_i cs hcs
      rw [hcs] at hmem
      have hcs := (List.mem_cons.mp hmem).resolve_left (by decide)
      split at hid
      · rename_i ds hds
        have hrest := uuidBytes_zero hds hcs
        simp at hrest
      · cases hid
    · split at hid
      · rename_i ds hds
        have hrest := uuidBytes_zero hds hmem
        simp at hrest
      · cases hid
  have hall : (text jobID).all fun c => c.isValidChar && c ≠ 0 := by
    unfold text
    rw [List.all_map, List.all_eq_true]
    intro c hc
    have hne : c.toNat ≠ 0 := fun h0 => hzero (by
      have : c = '\x00' := Char.toNat_inj.mp h0
      rwa [← this])
    simp [hne, show c.toNat.isValidChar from c.valid]
  exact (if_pos hall).trans (congrArg Except.ok (ofText_text jobID))

theorem written_numbers {rows : List TranscriptSegment} {dicts : List tts.SegmentDict}
    (h : List.Forall₂ WrittenRow rows dicts) :
    ∀ fields ∈ dicts, ∃ n, fields.lookup (text "segment_id") = some (.int n) := by
  induction h with
  | nil => exact fun _ hfields => absurd hfields List.not_mem_nil
  | cons hrow _ ih => exact List.forall_mem_cons.mpr ⟨⟨_, hrow.id⟩, ih⟩

/-- The whole job is synthesized. -/
theorem steady_message {jobID id : String} {job : Job} {rows : List TranscriptSegment}
    {dicts : List tts.SegmentDict} (hid : uuidIn jobID = some id) (hrows : rows ≠ [])
    (hwritten : List.Forall₂ WrittenRow rows dicts)
    (h : Marked conn id (rows.map (·.segmentIdx.val)) [] b t) :
    wpTry services (Steady cfg b) (tts.processMessage cfg conn (.object
      [(text "job_id", goString jobID), (text "trace_id", goString job.traceID),
        (text "stage_attempt_id", goString ""), (text "payload", withSegments dicts job.voiceID)]))
      (fun _ _ => False) (fun _ t' => AllFlagged id b t') t := by
  have hdicts : dicts ≠ [] := by
    rintro rfl
    exact hrows (List.forall₂_nil_right_iff.mp hwritten)
  obtain ⟨voice, hvoice⟩ : ∃ voice, tts.readVoice cfg
      (orElse (withSegments dicts job.voiceID) (.object [])) = .ok voice := by
    with_unfolding_all exact ⟨_, rfl⟩
  unfold tts.processMessage
  change wpTry _ _ (raising (idText (goString jobID)) >>= fun _ => raising (.ok (goString job.traceID)) >>=
    fun _ => raising (.ok (withSegments dicts job.voiceID)) >>= _) _ _ _
  rw [idText_uuid hid]
  simp only [raising_ok_bind]
  rw [hvoice, raising_ok_bind, segments_selected conn jobID hdicts (written_numbers hwritten), raising_ok_bind,
    segments_ask_nothing, raising_ok_bind]
  apply wpTry_bind
  apply wpTry_giveUpIf
  · exact fun hempty => hdicts (List.isEmpty_iff.mp hempty)
  intro _
  apply wpTry_bind
  refine wpTry_mono (steady_segments voice hid hwritten h) (fun _ _ h => h) ?_
  rintro ids t' ⟨done, -, hdone, hmarked⟩
  have hflagged : AllFlagged id b t' := by
    intro row hrow hjob
    obtain ⟨row', hrow', hidx⟩ := List.mem_map.mp (hmarked.listed row hrow hjob)
    exact hmarked.flagged row hrow hjob (hidx ▸ hdone row' hrow')
  apply wpTry_bind
  have hstage : t'.db.exec 0 (.setStage jobID .synthesized) = .ok (t'.db.updateJob id
      ({ · with stage := .synthesized, updatedAt := 0 })) := withID_read hid _
  refine wpTry_mono (steady_commit hmarked.idle hstage) (fun _ _ h => h) ?_
  rintro _ t'' ⟨-, hdb⟩
  have hflagged' : AllFlagged id b t'' := by
    unfold AllFlagged
    rw [hdb]
    exact hflagged
  apply wpTry_bind
  rintro _ rfl
  apply wpTry_bind
  rintro _ rfl
  rintro _ rfl
  exact hflagged'

theorem steady_round {jobID id : String} {job : Job} {rows : List TranscriptSegment}
    {dicts : List tts.SegmentDict} (tag : Nat) (hid : uuidIn jobID = some id) (hrows : rows ≠ [])
    (hwritten : List.Forall₂ WrittenRow rows dicts)
    (h : Marked conn id (rows.map (·.segmentIdx.val)) [] b t) :
    wp services (Steady cfg b) (tts.serve cfg conn tag (.object
      [(text "job_id", goString jobID), (text "trace_id", goString job.traceID),
        (text "stage_attempt_id", goString ""), (text "payload", withSegments dicts job.voiceID)]))
      (fun v t' => v = .acked ∧ AllFlagged id b t') t := by
  unfold tts.serve
  rw [wp_bind]
  have hround : wpTry services (Steady cfg b) (tts.processMessage cfg conn (.object
      [(text "job_id", goString jobID), (text "trace_id", goString job.traceID),
        (text "stage_attempt_id", goString ""), (text "payload", withSegments dicts job.voiceID)]) *>
      must (ask (.ack tag))) (fun _ _ => False) (fun _ t' => AllFlagged id b t') t := by
    apply wpTry_bind
    refine wpTry_mono (steady_message hid hrows hwritten h) (fun _ _ h => h) fun _ t' hflagged => ?_
    rintro _ rfl
    exact hflagged
  refine wp_mono hround fun x t' hx => ?_
  cases x with
  | error e => exact hx.elim
  | ok u => exact ⟨rfl, hx⟩

end Steady

/-! ## The law -/

/-- The synthesis can flag every row of the job, or none, after an edit of the job. -/
theorem all_rows_can_be_flagged {id : String} {t : System} {body : Json} (cfg : tts.Settings)
    (conn : Conn) (tag : Nat) (b : Bool) (hidle : t.sessions conn = .idle)
    (hrow : ∃ row ∈ t.db.segments, row.jobID = id) (hbody : Carries t.db id body) :
    ∃ t', Processed cfg conn tag body t t' ∧ AllFlagged id b t' := by
  obtain ⟨jobID, job, rows, hencode, hid, hperm, -⟩ := hbody
  have hmem : ∀ row ∈ t.db.segments, row.jobID = id → row ∈ rows := fun row hrow hjob =>
    hperm.mem_iff.mpr (List.mem_filter.mpr ⟨hrow, decide_eq_true hjob⟩)
  obtain ⟨row, hrow, hjob⟩ := hrow
  have hrows : rows ≠ [] := List.ne_nil_of_mem (hmem row hrow hjob)
  obtain ⟨dicts, hwritten, rfl⟩ := message_has_segments hrows hencode
  have hmarked : Marked conn id (rows.map (·.segmentIdx.val)) [] b t := by
    refine ⟨hidle, fun row hrow hjob => ?_, fun _ _ _ hnil => absurd hnil List.not_mem_nil⟩
    exact List.mem_map.mpr ⟨row, hmem row hrow hjob, rfl⟩
  have hround := @steady_round cfg b conn t jobID id job rows dicts tag hid hrows hwritten hmarked
  obtain ⟨v, t', os, hmeets, hrun⟩ := ends_of_choice (w := services) (tts.serve cfg conn tag _) t
    (E := Steady cfg b) fun _ _ => ⟨_, rfl⟩
  obtain ⟨rfl, hflagged⟩ := wp_run hround hmeets hrun
  exact ⟨t', ⟨os, hrun⟩, hflagged⟩

/-- The edit was made, and its message has the rows of the job as they are now. -/
theorem published_edit {r : gateway.Request} {s s' : System} {os : List Outcome}
    {resp : gateway.Response} {id : String} {edits : List SegmentEdit} {body : Json}
    (hfresh : s.sessions (.tx s.nextTx) = .idle)
    (hrun : run services os (gateway.updateTranscript r, s) = (.done resp, s'))
    (hid : uuidIn (r.urlParam "id") = some id) (hedits : r.edits = some edits)
    (hpublished : s'.accepted = s.accepted ++ [⟨gateway.transcriptQueue, body⟩]) :
    List.Forall₂ (EditedRow id edits) s.db.segments s'.db.segments ∧ Carries s'.db id body := by
  have hdone : AllOrNothing r s s' :=
    wp_run_any (Q := fun _ s' => AllOrNothing r s s') (update_is_all_or_nothing r hfresh) hrun
  have hmore : s'.accepted ≠ s.accepted := by
    rw [hpublished]
    exact fun h => List.cons_ne_nil _ _ (List.append_right_eq_self.mp h)
  obtain hnone | ⟨id', edits', hid', hedits', hedited⟩ := hdone
  · exact absurd hnone.unpublished hmore
  obtain rfl := Option.some.inj (hid'.symm.trans hid)
  obtain rfl := Option.some.inj (hedits'.symm.trans hedits)
  refine ⟨hedited.rows, ?_⟩
  obtain hnone | ⟨body', hbody', hcarries⟩ := hedited.published
  · exact absurd hnone hmore
  · rw [hpublished, List.append_cancel_left_eq, List.cons.injEq, Envelope.mk.injEq] at hbody'
    exact hbody'.1.2 ▸ hcarries

theorem editedRow_jobID {id : String} {edits : List SegmentEdit} {row row' : TranscriptSegment}
    (h : EditedRow id edits row row') : row'.jobID = row.jobID := by
  cases h <;> rfl

/-- Whatever the provider, the scorer and the rewriter do, the segments that an edit does not name
stay as they are, if and only if there are none. -/
theorem edits_leave_the_others_alone_iff_none_is_left {r : gateway.Request} {s s' : System}
    {os : List Outcome} {resp : gateway.Response} {id : String} {edits : List SegmentEdit}
    {body : Json} (hfresh : s.sessions (.tx s.nextTx) = .idle)
    (hrun : run services os (gateway.updateTranscript r, s) = (.done resp, s'))
    (hid : uuidIn (r.urlParam "id") = some id) (hedits : r.edits = some edits)
    (hpublished : s'.accepted = s.accepted ++ [⟨gateway.transcriptQueue, body⟩])
    (cfg : tts.Settings) (conn : Conn) (tag : Nat) (hidle : s'.sessions conn = .idle) :
    (∀ s'', Processed cfg conn tag body s' s'' → OthersAlone id edits s s'') ↔
      ∀ row ∈ s.db.segments, row.jobID = id → Named edits row := by
  constructor
  · intro halone row hrow hjob
    by_contra hother
    obtain ⟨hrows, hcarries⟩ := published_edit hfresh hrun hid hedits hpublished
    have hkept : ∃ row' ∈ s'.db.segments, row'.jobID = id := by
      obtain ⟨i, hi, rfl⟩ := List.getElem_of_mem hrow
      have hi' : i < s'.db.segments.length := hrows.length_eq ▸ hi
      exact ⟨s'.db.segments[i], List.getElem_mem hi',
        (editedRow_jobID (hrows.get hi hi')).trans hjob⟩
    obtain ⟨s'', hprocessed, hflagged⟩ :=
      all_rows_can_be_flagged cfg conn tag (!row.flagged) hidle hkept hcarries
    obtain ⟨row', hrow', hsame⟩ := halone s'' hprocessed row hrow hjob hother
    have hnew := hflagged row' hrow' (hsame.jobID.trans hjob)
    rw [hsame.flagged] at hnew
    exact Bool.not_ne_self _ hnew.symm
  · exact fun hall s'' _ row hrow hjob hother => absurd (hall row hrow hjob) hother

/-! ## Two segments, and an edit of the first -/

theorem two_fits : (-2147483648 : Int) ≤ 2 ∧ (2 : Int) ≤ 2147483647 := by decide

theorem there_fits : (text "there").all storable = true := by decide

def adasSecond : TranscriptSegment :=
  { audio_hop.adasSegment with
    segmentIdx := ⟨2, two_fits⟩
    text := ⟨text "there", there_fits⟩
    id := "7d444840-9dc0-11d1-b245-5ffdce74fad2" }

/-- A job with two segments. -/
def twoSegments : System :=
  { audio_hop.waiting with
    db := ⟨[gateway.adasJob], [audio_hop.adasSegment, adasSecond], [], []⟩
    accepted := [] }

def firstEdits : List SegmentEdit := [⟨audio_hop.adasSegment.id, "hi"⟩]

def firstEdit : gateway.Request :=
  { transcript_edits.adasEdit with edits := some firstEdits }

theorem second_is_not_named : ¬ Named firstEdits adasSecond := by
  rintro ⟨seg, hseg, hid⟩
  rw [List.mem_singleton.mp hseg] at hid
  have hread : uuidIn audio_hop.adasSegment.id = some audio_hop.adasSegment.id := by
    with_unfolding_all rfl
  exact absurd (Option.some.inj (hread.symm.trans hid)) (by decide)

theorem first_edit_is_published : ∃ resp s' body,
    run services (allFine 7) (gateway.updateTranscript firstEdit, twoSegments) = (.done resp, s') ∧
      s'.accepted = [⟨gateway.transcriptQueue, body⟩] ∧ s'.sessions (.worker 0) = .idle := by
  with_unfolding_all exact ⟨_, _, _, rfl, rfl, rfl⟩

/-- The second segment does not stay as it is under every provider. -/
theorem adas_second_segment_is_left : ∃ s' body, s'.accepted = [⟨gateway.transcriptQueue, body⟩] ∧
    ¬ ∀ s'', Processed audio_hop.settings (.worker 0) 0 body s' s'' →
      OthersAlone gateway.adasJob.id firstEdits twoSegments s'' := by
  obtain ⟨resp, s', body, hrun, hbody, hidle⟩ := first_edit_is_published
  refine ⟨s', body, hbody, fun halone => ?_⟩
  have hid : uuidIn (firstEdit.urlParam "id") = some gateway.adasJob.id := by
    with_unfolding_all rfl
  have hall := (edits_leave_the_others_alone_iff_none_is_left rfl hrun hid rfl hbody
    audio_hop.settings (.worker 0) 0 hidle).mp halone
  exact second_is_not_named (hall adasSecond (by simp [twoSegments]) rfl)

/-- The second segment fails its first attempt, and its text is rewritten. -/
def rewritten : List Outcome :=
  allFine 8 ++ [{ combined := 0 }, { rewritten := some (text "where") }] ++ allFine 13

/-- Only the first segment is edited, and the text of the second one changes too. -/
theorem an_edit_rewrites_another_segment : ∃ resp s' body s'',
    run services (allFine 7) (gateway.updateTranscript firstEdit, twoSegments) = (.done resp, s') ∧
      s'.accepted = [⟨gateway.transcriptQueue, body⟩] ∧
      run services rewritten (tts.serve audio_hop.settings (.worker 0) 0 body, s') =
        (.done .acked, s'') ∧
      s''.db.segments.map (·.text.val) = [text "hi", text "where"] ∧
      ¬ OthersAlone gateway.adasJob.id firstEdits twoSegments s'' := by
  have hruns : ∃ resp s' body s'',
      run services (allFine 7) (gateway.updateTranscript firstEdit, twoSegments) = (.done resp, s') ∧
      s'.accepted = [⟨gateway.transcriptQueue, body⟩] ∧
      run services rewritten (tts.serve audio_hop.settings (.worker 0) 0 body, s') =
        (.done .acked, s'') ∧
      s''.db.segments.map (·.text.val) = [text "hi", text "where"] := by
    with_unfolding_all exact ⟨_, _, _, _, rfl, rfl, rfl, rfl⟩
  obtain ⟨resp, s', body, s'', hrun, hbody, hserve, htexts⟩ := hruns
  refine ⟨resp, s', body, s'', hrun, hbody, hserve, htexts, fun halone => ?_⟩
  obtain ⟨row, hrow, hsame⟩ := halone adasSecond (by simp [twoSegments]) rfl second_is_not_named
  have htext : row.text.val ∈ s''.db.segments.map (·.text.val) := List.mem_map_of_mem hrow
  rw [htexts, hsame.text] at htext
  exact absurd htext (by decide)

end recast_rules.edited_segments
