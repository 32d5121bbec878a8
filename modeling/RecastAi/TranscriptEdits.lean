-- The edit of a transcript (`UpdateTranscript` in `internal/gateway/handler/jobs.go`). The texts
-- are written in one transaction, so all of them come into the table or none, and the message
-- that follows has the rows as they are then.
import Mathlib.Data.List.Forall2
import RecastAi.AudioHop
import RecastAi.GatewaySteps

open call_programs py_text recast_rules.transcript recast_rules.models recast_rules.pipeline
open recast_rules.gateway (SegmentEdit)

namespace recast_rules.transcript_edits

/-! ## What is asked for -/

/-- The last text that is given for the segment. -/
def lastText (segmentID : String) : List SegmentEdit → Option String
  | [] => none
  | seg :: segs =>
    (lastText segmentID segs).or (if uuidIn seg.id = some segmentID then some seg.text else none)

/-- What becomes of a row when its job is edited. -/
inductive EditedRow (jobID : String) (edits : List SegmentEdit) (row : TranscriptSegment) :
    TranscriptSegment → Prop where
  | kept (h : row.jobID = jobID → lastText row.id edits = none) : EditedRow jobID edits row row
  | edited (newText : String) (t : PgText) (hjob : row.jobID = jobID)
      (hlast : lastText row.id edits = some newText) (ht : t.val = text newText) :
      EditedRow jobID edits row { row with text := t, approved := false }

/-- The message has the rows of the job in the order of `segment_idx`. -/
def Carries (db : pipeline.Db) (id : String) (body : Json) : Prop :=
  ∃ jobID job segments,
    (gateway.transcriptMessage jobID job segments).encode TranscriptPayload.encode = some body ∧
    uuidIn jobID = some id ∧ segments.Perm (db.segments.filter (·.jobID = id)) ∧
    segments.Pairwise fun a b => a.segmentIdx.val ≤ b.segmentIdx.val

/-- No row has changed, and nothing is published. -/
structure Untouched (s s' : System) : Prop where
  rows : s'.db.segments = s.db.segments
  unpublished : s'.accepted = s.accepted

/-- The edits are in the table, and at most one message is published for them. -/
structure Edited (id : String) (edits : List SegmentEdit) (s s' : System) : Prop where
  rows : List.Forall₂ (EditedRow id edits) s.db.segments s'.db.segments
  listed : ∀ seg ∈ edits, ∃ row ∈ s.db.segments, row.jobID = id ∧ uuidIn seg.id = some row.id
  published : s'.accepted = s.accepted ∨ ∃ body,
    s'.accepted = s.accepted ++ [⟨gateway.transcriptQueue, body⟩] ∧ Carries s'.db id body

/-! ## One statement -/

/-- The text of one row is written. -/
def writeText (segmentID jobID : String) (t : PgText) (row : TranscriptSegment) :
    TranscriptSegment :=
  if row.id = segmentID && row.jobID = jobID then { row with text := t, approved := false } else row

theorem pgText_of {t : Text} {x : PgText} (h : PgText.of t = some x) : x.val = t := by
  unfold PgText.of at h
  split at h
  · exact congrArg PgText.val (Option.some.inj h).symm
  · cases h

/-- The parameters are read, the text is one that a column holds, and the rows are counted. -/
theorem setText_ok {db db' : pipeline.Db} {now n : Nat} {segmentID jobID newText : String}
    (h : db.exec now (.setText segmentID jobID newText) = .ok (n, db')) :
    ∃ sid id t, uuidIn segmentID = some sid ∧ uuidIn jobID = some id ∧
      PgText.of (text newText) = some t ∧
      n = db.segments.countP (fun row => row.id = sid && row.jobID = id) ∧
      db'.segments = db.segments.map (writeText sid id t) := by
  obtain ⟨sid, hsid, h⟩ := withID_ok h
  obtain ⟨id, hid, h⟩ := withID_ok h
  split at h
  · cases h
  · rename_i t ht
    obtain ⟨rfl, rfl⟩ := Prod.mk.inj (Except.ok.inj h)
    exact ⟨sid, id, t, hsid, hid, ht, rfl, rfl⟩

/-- It does not depend on the rows whether the statement fails. -/
theorem setText_again (db : pipeline.Db) (now : Nat) {segmentID jobID newText sid id : String}
    {t : PgText} (hsid : uuidIn segmentID = some sid) (hid : uuidIn jobID = some id)
    (ht : PgText.of (text newText) = some t) :
    ∃ n db', db.exec now (.setText segmentID jobID newText) = .ok (n, db') ∧
      db'.segments = db.segments.map (writeText sid id t) := by
  have h : db.exec now (.setText segmentID jobID newText) =
      .ok (db.updateSegments (fun row => row.id = sid && row.jobID = id)
        fun row => { row with text := t, approved := false }) := by
    change Db.setText db segmentID jobID newText = _
    unfold Db.setText
    rw [withID_read hsid, withID_read hid, ht]
  exact ⟨_, _, h, rfl⟩

/-! ## All statements -/

/-- The edit can be written, and it names a row of the job. -/
structure Writable (db : pipeline.Db) (jobID id : String) (seg : SegmentEdit) : Prop where
  job : uuidIn jobID = some id
  text : ∃ t, PgText.of (py_text.text seg.text) = some t
  listed : ∃ row ∈ db.segments, row.jobID = id ∧ uuidIn seg.id = some row.id

/-- A row that was written once, and is then edited by the other edits. -/
theorem editedRow_cons {id sid : String} {seg : SegmentEdit} {segs : List SegmentEdit} {t : PgText}
    {row row' : TranscriptSegment} (hsid : uuidIn seg.id = some sid) (ht : t.val = text seg.text)
    (h : EditedRow id segs (writeText sid id t row) row') : EditedRow id (seg :: segs) row row' := by
  unfold writeText at h
  by_cases hrow : row.id = sid ∧ row.jobID = id
  · obtain ⟨rfl, rfl⟩ := hrow
    simp only [decide_true, Bool.and_self, if_true] at h
    cases h with
    | kept hkept =>
      refine .edited seg.text t rfl ?_ ht
      unfold lastText
      rw [hkept rfl, if_pos hsid]
      rfl
    | edited newText t' hjob hlast ht' =>
      refine .edited newText t' rfl ?_ ht'
      unfold lastText
      rw [hlast]
      rfl
  · have hno : ¬(decide (row.id = sid) && decide (row.jobID = id)) = true := by simpa using hrow
    rw [if_neg hno] at h
    have hnone : row.jobID = id → (if uuidIn seg.id = some row.id then some seg.text else none) = none := by
      intro hjob
      refine if_neg fun heq => hrow ⟨?_, hjob⟩
      exact (Option.some.inj (hsid.symm.trans heq)).symm
    cases h with
    | kept hkept =>
      refine .kept fun hjob => ?_
      unfold lastText
      rw [hkept hjob, hnone hjob]
      rfl
    | edited newText t' hjob hlast ht' =>
      refine .edited newText t' hjob ?_ ht'
      unfold lastText
      rw [hlast]
      rfl

/-- The statements of the edits, as they are committed. -/
theorem execAll_edits {jobID id : String} {edits : List SegmentEdit}
    {pending : List (Nat × Statement)} {db db₀ : pipeline.Db}
    (hpending : pending.map (·.2) = edits.map fun seg => .setText seg.id jobID seg.text)
    (hwritable : ∀ seg ∈ edits, Writable db₀ jobID id seg) :
    List.Forall₂ (EditedRow id edits) db.segments (db.execAll pending).segments := by
  induction edits generalizing pending db with
  | nil =>
    obtain rfl := List.map_eq_nil_iff.mp hpending
    exact List.forall₂_same.mpr fun row _ => .kept fun _ => rfl
  | cons seg segs ih =>
    obtain ⟨⟨now, st⟩, rest, rfl, rfl, hrest⟩ := List.map_eq_cons_iff.mp hpending
    obtain ⟨hid, ⟨t, ht⟩, ⟨row, -, -, hsid⟩⟩ := hwritable seg List.mem_cons_self
    obtain ⟨n, db', hexec, hrows⟩ := setText_again db now hsid hid ht
    have hnext : db.execAll ((now, .setText seg.id jobID seg.text) :: rest) = db'.execAll rest := by
      rw [Db.execAll, hexec]
    rw [hnext]
    have hlater : List.Forall₂ (EditedRow id segs) db'.segments (db'.execAll rest).segments :=
      ih hrest fun s hs => hwritable s (List.mem_cons_of_mem seg hs)
    rw [hrows, List.forall₂_map_left_iff] at hlater
    exact hlater.imp fun _ _ h => editedRow_cons hsid (pgText_of ht) h

/-! ## The transaction -/

/-- Nothing has come into the tables, and nothing is published. -/
def Kept (s t : System) : Prop := t.db = s.db ∧ t.accepted = s.accepted

/-- The statements of these edits wait in the transaction, and each of them can be written. -/
structure Waiting (tx : Conn) (jobID id : String) (s t : System) (edits : List SegmentEdit) :
    Prop where
  kept : Kept s t
  unaborted : (t.sessions tx).aborted = false
  pending : (t.sessions tx).pending.map (·.2) = edits.map fun seg => .setText seg.id jobID seg.text
  writable : ∀ seg ∈ edits, Writable s.db jobID id seg

theorem countP_listed {db : pipeline.Db} {sid id : String}
    (h : db.segments.countP (fun row => row.id = sid && row.jobID = id) ≠ 0) :
    ∃ row ∈ db.segments, row.jobID = id ∧ row.id = sid := by
  obtain ⟨row, hmem, hrow⟩ := List.countP_pos_iff.mp (Nat.pos_of_ne_zero h)
  simp only [Bool.and_eq_true, decide_eq_true_eq] at hrow
  exact ⟨row, hmem, hrow.2, hrow.1⟩

/-- One more statement waits. -/
theorem Waiting.snoc {tx : Conn} {jobID id : String} {s t : System} {edits : List SegmentEdit}
    {seg : SegmentEdit} {now n : Nat} {db : pipeline.Db} (h : Waiting tx jobID id s t edits)
    (hid : uuidIn jobID = some id)
    (hexec : t.db.exec now (.setText seg.id jobID seg.text) = .ok (n, db)) (hn : n ≠ 0) :
    Waiting tx jobID id s (t.setSession tx
      ⟨(t.sessions tx).pending ++ [(now, .setText seg.id jobID seg.text)], false⟩)
      (edits ++ [seg]) := by
  obtain ⟨sid, id', newText, hsid, hid', htext, hcount, -⟩ := setText_ok hexec
  obtain rfl : id' = id := Option.some.inj (hid'.symm.trans hid)
  obtain ⟨row, hrow, hjob, hrowid⟩ := countP_listed (hcount ▸ hn)
  rw [h.kept.1] at hrow
  refine ⟨h.kept, congrArg Session.aborted (gateway.session_set t tx _), ?_, ?_⟩
  · rw [gateway.session_set, List.map_append, h.pending, List.map_append]
    rfl
  · intro seg' hmem
    rcases List.mem_append.mp hmem with hmem | hmem
    · exact h.writable seg' hmem
    · obtain rfl := List.mem_singleton.mp hmem
      exact ⟨hid, ⟨newText, htext⟩, row, hrow, hjob, hrowid ▸ hsid⟩

/-- The loop: it gives up with nothing written, or all statements wait. -/
theorem texts_wait {tx : Conn} {jobID id : String} {s t : System} (hid : uuidIn jobID = some id)
    (segs : List SegmentEdit) {edits : List SegmentEdit} (h : Waiting tx jobID id s t edits) :
    wpTry services (fun _ _ _ => True) (ExceptT.mk (gateway.updateTexts tx jobID segs))
      (fun _ t' => Kept s t') (fun _ t' => Waiting tx jobID id s t' (edits ++ segs)) t := by
  induction segs generalizing t edits with
  | nil =>
    change Waiting tx jobID id s t (edits ++ [])
    rwa [List.append_nil]
  | cons seg segs ih =>
    unfold gateway.updateTexts
    by_cases hempty : (seg.id = "" || seg.text = "") = true
    · rw [if_pos hempty]
      exact h.kept
    · rw [if_neg hempty]
      intro o _
      have hkept : Kept s (answerCall o t (.exec (some tx) (.setText seg.id jobID seg.text))).2 := by
        obtain ⟨hdb, haccepted⟩ :=
          records_kept (c := .exec (some tx) (.setText seg.id jobID seg.text)) rfl o t
        exact ⟨hdb.trans h.kept.1, haccepted.trans h.kept.2⟩
      have hservices : services.answer o t (.exec (some tx) (.setText seg.id jobID seg.text)) =
          answerCall o t (.exec (some tx) (.setText seg.id jobID seg.text)) := rfl
      rw [hservices]
      rcases gateway.exec_in_transaction h.unaborted o (.setText seg.id jobID seg.text) with
        ⟨e, herror⟩ | ⟨n, db, hexec, hanswer⟩
      · rw [herror]
        exact hkept
      · rw [hanswer] at hkept ⊢
        change wp services _ (if n = 0 then Prog.done (Except.error _)
          else gateway.updateTexts tx jobID segs) _ _
        by_cases hn : n = 0
        · rw [if_pos hn]
          exact hkept
        · rw [if_neg hn]
          have hnext := ih (h.snoc hid hexec hn)
          rwa [List.append_assoc] at hnext

/-- What the transaction leaves: nothing has changed, or all edits are in the table. -/
def Saved (id : String) (edits : List SegmentEdit) (s t : System) : Prop :=
  t.accepted = s.accepted ∧
    List.Forall₂ (EditedRow id edits) s.db.segments t.db.segments ∧
    ∀ seg ∈ edits, ∃ row ∈ s.db.segments, row.jobID = id ∧ uuidIn seg.id = some row.id

theorem saved_of_commit {tx : Conn} {jobID id : String} {edits : List SegmentEdit} {s t t' : System}
    (h : Waiting tx jobID id s t edits) (haccepted : t'.accepted = t.accepted)
    (hdb : t'.db = t.db.execAll (t.sessions tx).pending) : Saved id edits s t' := by
  refine ⟨haccepted.trans h.kept.2, ?_, fun seg hseg => (h.writable seg hseg).listed⟩
  rw [hdb, h.kept.1]
  exact execAll_edits h.pending h.writable

theorem edits_are_saved {jobID id : String} (edits : List SegmentEdit) {s : System}
    (hid : uuidIn jobID = some id) (hfresh : s.sessions (.tx s.nextTx) = .idle) :
    wpTry services (fun _ _ _ => True) (gateway.saveEdits jobID edits)
      (fun _ t => Kept s t ∨ Saved id edits s t) (fun _ t => Saved id edits s t) s := by
  unfold gateway.saveEdits
  apply wpTry_bind
  apply wpTry_orGiveUp
  intro o _
  change wp services _ (.done (replyDb o (Conn.tx s.nextTx))) _ { s with nextTx := s.nextTx + 1 }
  unfold replyDb
  cases o.fails with
  | true => exact Or.inl ⟨rfl, rfl⟩
  | false =>
    have hbegun : Waiting (.tx s.nextTx) jobID id s { s with nextTx := s.nextTx + 1 } [] := by
      refine ⟨⟨rfl, rfl⟩, ?_, ?_, fun seg hseg => absurd hseg List.not_mem_nil⟩
      · exact congrArg Session.aborted hfresh
      · exact congrArg (fun session => session.pending.map (·.2)) hfresh
    apply wpTry_bind
    apply wpTry_lift
    refine wp_mono (texts_wait hid edits hbegun) fun x t ht => ?_
    cases x with
    | error resp =>
      apply wpTry_bind
      apply wpTry_lift
      intro o _
      obtain ⟨hdb, haccepted⟩ := records_kept (c := .rollback (.tx s.nextTx)) rfl o t
      exact Or.inl ⟨hdb.trans ht.1, haccepted.trans ht.2⟩
    | ok u =>
      apply wpTry_orGiveUp
      intro o _
      have hservices : services.answer o t (.commit (.tx s.nextTx)) =
          answerCommit o t (.tx s.nextTx) := rfl
      rw [hservices]
      obtain ⟨haccepted, ⟨⟨e, herror⟩, hdb⟩ | hdb⟩ := gateway.commit_cases ht.unaborted o
      · rw [herror]
        exact Or.inl ⟨hdb.trans ht.kept.1, haccepted.trans ht.kept.2⟩
      · have hsaved : Saved id edits s (answerCommit o t (.tx s.nextTx)).2 :=
          saved_of_commit ht haccepted hdb
        cases (answerCommit o t (.tx s.nextTx)).1 with
        | error e => exact Or.inr hsaved
        | ok u => exact hsaved

/-! ## The request -/

theorem segments_found {db : pipeline.Db} {jobID id : String} {segments : List TranscriptSegment}
    (hid : uuidIn jobID = some id) (h : db.rows (.segments jobID) = .ok segments) :
    segments.Perm (db.segments.filter (·.jobID = id)) ∧
      segments.Pairwise fun a b => a.segmentIdx.val ≤ b.segmentIdx.val := by
  have hrows : db.rows (.segments jobID) = .ok (db.segmentsOf id) := by
    unfold pipeline.Db.rows
    dsimp only
    rw [hid]
  obtain rfl := Except.ok.inj (hrows.symm.trans h)
  have : Std.Total fun a b : TranscriptSegment => a.segmentIdx.val ≤ b.segmentIdx.val :=
    ⟨fun a b => le_total _ _⟩
  have : IsTrans TranscriptSegment fun a b => a.segmentIdx.val ≤ b.segmentIdx.val :=
    ⟨fun a b c => le_trans⟩
  exact ⟨List.perm_insertionSort _ _, List.pairwise_insertionSort _ _⟩

/-- The stage is a column of the jobs. -/
theorem stage_keeps_segments (o : Outcome) (s : System) (jobID : String) (stage : Stage) :
    (answerExec o s none (.setStage jobID stage)).2.db.segments = s.db.segments ∧
      (answerExec o s none (.setStage jobID stage)).2.accepted = s.accepted := by
  rcases exec_alone_cases o s (.setStage jobID stage) with
    ⟨e, -, h⟩ | ⟨n, db, hexec, h | h | h⟩ <;> rw [h]
  · exact ⟨rfl, rfl⟩
  · obtain ⟨id, -, hdb⟩ := withID_ok hexec
    exact ⟨congrArg (fun x => x.2.segments) (Except.ok.inj hdb).symm, rfl⟩
  · obtain ⟨id, -, hdb⟩ := withID_ok hexec
    exact ⟨congrArg (fun x => x.2.segments) (Except.ok.inj hdb).symm, rfl⟩
  · exact ⟨rfl, rfl⟩

/-- The message is published once, or the publication has failed with or without it. -/
theorem wpTry_publishTranscript {jobID : String} {job : Job} {segments : List TranscriptSegment}
    {s : System} {Q : System → Prop} (hnone : Q s)
    (hsome : ∀ body, (gateway.transcriptMessage jobID job segments).encode TranscriptPayload.encode =
      some body → Q { s with accepted := s.accepted ++ [⟨gateway.transcriptQueue, body⟩] }) :
    wpTry services (fun _ _ _ => True) (gateway.publishTranscript jobID job segments)
      (fun _ t => Q t) (fun _ t => Q t) s := by
  unfold gateway.publishTranscript
  apply wpTry_orGiveUp
  intro o _
  cases hbody : (gateway.transcriptMessage jobID job segments).encode TranscriptPayload.encode with
  | none => exact hnone
  | some body =>
    have hservices : services.answer o s (.publish gateway.transcriptQueue (some body)) =
        (reply o (), if landed o then { s with accepted := s.accepted ++
          [⟨gateway.transcriptQueue, body⟩] } else s) := rfl
    rw [hservices]
    have hQ : Q (if landed o then { s with accepted := s.accepted ++
        [⟨gateway.transcriptQueue, body⟩] } else s) := by
      split
      · exact hsome body hbody
      · exact hnone
    unfold reply
    cases o.fails with
    | true => exact hQ
    | false => exact hQ

/-- What a request does to the rows and the messages. -/
def AllOrNothing (r : gateway.Request) (s s' : System) : Prop :=
  Untouched s s' ∨ ∃ id edits, uuidIn (r.urlParam "id") = some id ∧ r.edits = some edits ∧
    Edited id edits s s'

theorem untouched_refl (r : gateway.Request) (s : System) : AllOrNothing r s s := Or.inl ⟨rfl, rfl⟩

/-- After the commit, the rows are read, the stage is set and the message is published. -/
theorem resynthesis_is_asked_for {r : gateway.Request} {job : Job} {id : String}
    {edits : List SegmentEdit} {s t : System} (hid : uuidIn (r.urlParam "id") = some id)
    (hedits : r.edits = some edits) (h : Saved id edits s t) :
    wpTry services (fun _ _ _ => True) (do
      let segments ← gateway.selectSegments (r.urlParam "id")
      let _ ← ExceptT.lift (ask (.exec none (.setStage (r.urlParam "id") .transcribed)))
      gateway.publishTranscript (r.urlParam "id") job segments
      return (⟨200, .transcript segments⟩ : gateway.Response))
      (fun _ s' => AllOrNothing r s s') (fun _ s' => AllOrNothing r s s') t := by
  obtain ⟨haccepted, hrows, hlisted⟩ := h
  have hsaved : ∀ s', s'.db.segments = t.db.segments → s'.accepted = t.accepted →
      AllOrNothing r s s' := fun s' hs' haccepted' => by
    refine Or.inr ⟨id, edits, hid, hedits, ?_, hlisted, Or.inl (haccepted'.trans haccepted)⟩
    rwa [hs']
  apply wpTry_bind
  apply gateway.wpTry_query
  · exact fun _ => hsaved t rfl rfl
  intro segments hsegments
  apply wpTry_bind
  apply wpTry_lift
  intro o _
  obtain ⟨hkept, haccepted'⟩ := stage_keeps_segments o t (r.urlParam "id") .transcribed
  have hservices : services.answer o t (.exec none (.setStage (r.urlParam "id") .transcribed)) =
      answerExec o t none (.setStage (r.urlParam "id") .transcribed) := rfl
  rw [hservices]
  apply wpTry_bind
  refine wpTry_mono (wpTry_publishTranscript (Q := AllOrNothing r s) ?_ ?_) (fun _ _ h => h)
    fun _ _ h => h
  · exact hsaved _ hkept haccepted'
  · intro body hbody
    refine Or.inr ⟨id, edits, hid, hedits, ?_, hlisted, Or.inr ⟨body, ?_, _, job, segments, hbody,
      hid, ?_⟩⟩
    · rw [hkept]
      exact hrows
    · rw [haccepted', haccepted]
    · obtain ⟨hperm, hsorted⟩ := segments_found hid hsegments
      rw [hkept]
      exact ⟨hperm, hsorted⟩

theorem update_is_all_or_nothing (r : gateway.Request) {s : System}
    (hfresh : s.sessions (.tx s.nextTx) = .idle) :
    wp services (fun _ _ _ => True) (gateway.updateTranscript r)
      (fun _ s' => AllOrNothing r s s') s := by
  unfold gateway.updateTranscript
  apply wp_finish
  apply wpTry_bind
  apply wpTry_someOr
  · exact fun _ => untouched_refl r s
  intro claims _
  apply wpTry_bind
  apply wpTry_giveUpIf
  · exact fun _ => untouched_refl r s
  intro _
  apply wpTry_bind
  apply wpTry_someOr
  · exact fun _ => untouched_refl r s
  intro edits hedits
  apply wpTry_bind
  apply wpTry_giveUpIf
  · exact fun _ => untouched_refl r s
  intro _
  apply wpTry_bind
  apply gateway.wpTry_ownedJob
  · exact fun _ _ _ => untouched_refl r s
  intro id job hid _
  apply wpTry_bind
  refine wpTry_mono (edits_are_saved edits hid hfresh) ?_ ?_
  · rintro resp t (⟨hdb, haccepted⟩ | ⟨haccepted, hrows, hlisted⟩)
    · exact Or.inl ⟨congrArg pipeline.Db.segments hdb, haccepted⟩
    · exact Or.inr ⟨id, edits, hid, hedits, hrows, hlisted, Or.inl haccepted⟩
  · exact fun _ t hsaved => resynthesis_is_asked_for hid hedits hsaved

/-- `BEGIN` opens a transaction without statements. -/
theorem transcript_updates_are_all_or_nothing (r : gateway.Request) {s s' : System}
    {os : List Outcome} {resp : gateway.Response} (hfresh : s.sessions (.tx s.nextTx) = .idle)
    (hrun : run services os (gateway.updateTranscript r, s) = (.done resp, s')) :
    AllOrNothing r s s' :=
  wp_run_any (Q := fun _ s' => AllOrNothing r s s') (update_is_all_or_nothing r hfresh) hrun

/-- The words of her only segment are changed. -/
def adasEdit : gateway.Request where
  claims := some ⟨"ada", "user"⟩
  urlParam key := if key = "id" then gateway.adasJob.id else ""
  form := .error ""
  edits := some [⟨audio_hop.adasSegment.id, "bye"⟩, ⟨audio_hop.adasSegment.id, "hi"⟩]

theorem adas_update_is_all_or_nothing : ∃ resp s', run services (List.replicate 8 {})
    (gateway.updateTranscript adasEdit, audio_hop.waiting) = (.done resp, s') ∧
      s'.db.segments.map (·.text.val) = [text "hi"] ∧
      AllOrNothing adasEdit audio_hop.waiting s' := by
  have hrun : ∃ resp s', run services (List.replicate 8 {})
      (gateway.updateTranscript adasEdit, audio_hop.waiting) = (.done resp, s') ∧
      s'.db.segments.map (·.text.val) = [text "hi"] := by
    with_unfolding_all exact ⟨_, _, rfl, rfl⟩
  obtain ⟨resp, s', hrun, htext⟩ := hrun
  exact ⟨resp, s', hrun, htext, transcript_updates_are_all_or_nothing adasEdit rfl hrun⟩

end recast_rules.transcript_edits
