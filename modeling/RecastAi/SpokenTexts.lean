-- Edits of a transcript and the syntheses that follow them, interleaved (`UpdateTranscript` of
-- the gateway, `_process_message` of `services/tts-service`). The text of a segment and its audio
-- are written in separate steps, so between an edit and the end of its synthesis a job is in the
-- hands of one request, of one message, or of the worker that has the message.
import RecastAi.Custody
import RecastAi.EditedSegments
import RecastAi.StageOrder
import RecastAi.UploadKeys

open call_programs py_text recast_rules.transcript recast_rules.models recast_rules.pipeline
open recast_rules.py recast_rules.regenerations recast_rules.transcript_edits
open recast_rules.deliveries (History Snap taken jobOf)

namespace recast_rules.spoken_texts

/-! ## Texts and audio -/

/-- The audio at the path of the row was made of its text. -/
def Spoken (s : System) (row : TranscriptSegment) : Prop :=
  row.audioPath ≠ "" →
    ∃ clip, s.objects row.audioPath = some (.clip clip) ∧ clip.spoken = row.text.val

/-- A row as the services write it: the text has no whitespace around it, and the audio is at the
path of the segment. -/
structure Proper (row : TranscriptSegment) : Prop where
  trimmed : strip row.text.val = row.text.val
  path : row.audioPath = "" ∨ ∃ jobID, uuidIn jobID = some row.jobID ∧
    row.audioPath = tts.audioKey jobID row.segmentIdx.val
  finite : (goFloat row.confidence).isSome

/-- `UNIQUE (job_id, segment_idx)`. -/
def Distinct (rows : List TranscriptSegment) : Prop :=
  rows.Pairwise fun a b => a.jobID = b.jobID → a.segmentIdx.val ≠ b.segmentIdx.val

/-- A message for the synthesis that is not settled. -/
def Unsettled (s : System) (tag : Nat) (body : Json) : Prop :=
  s.accepted[tag]? = some ⟨tts.transcriptQueue, body⟩ ∧ tag ∉ s.settled

/-- A message of the job is not settled. -/
def InFlight (s : System) (id : String) : Prop :=
  ∃ tag body, Unsettled s tag body ∧ jobOf tts.transcriptQueue body = some id

/-! ## What a thread has in its hands -/

/-- The message was delivered to the thread. -/
def Held (h : History) (tag : Nat) : Prop :=
  ∃ e ∈ h, ∃ msg, taken e.call e.answer = some (tag, msg)

/-- The transaction was begun by the thread. -/
def Begun (h : History) (conn : Conn) : Prop :=
  ∃ i, (⟨i, .begin, .ok conn⟩ : Event Call Answer) ∈ h

/-- The edits of a request for the job are committed, and its message is not published yet. -/
structure Editing (h : History) (id : String) : Prop where
  named : ∃ e ∈ h, ∃ conn segmentID jobID newText,
    e.call = .exec conn (.setText segmentID jobID newText) ∧ uuidIn jobID = some id
  committed : ∃ i n, (⟨i, .commit (.tx n), .ok ()⟩ : Event Call Answer) ∈ h
  unpublished : ∀ e ∈ h, ∀ queue body, e.call ≠ .publish queue body

/-- Who has which message, and who edits which job. -/
structure Hands where
  held : Nat → Nat → Prop
  editing : Nat → String → Prop

def hands (s : Snap) : Hands := ⟨fun i tag => Held (s.own i) tag, fun i id => Editing (s.own i) id⟩

/-- The thread has the job in its hands. -/
def Hands.mine (g : Hands) (s : System) (i : Nat) (id : String) : Prop :=
  g.editing i id ∨
    ∃ tag body, g.held i tag ∧ Unsettled s tag body ∧ jobOf tts.transcriptQueue body = some id

/-- Nobody has the job: no message of it is in flight, and no edit of it waits for its message. -/
def Hands.free (g : Hands) (s : System) (id : String) : Prop :=
  ¬ InFlight s id ∧ ∀ i, ¬ g.editing i id

/-! ## The invariant -/

/-- A job is in one pair of hands at most, a message that nobody has tells the rows as they are,
and what nobody has is spoken. -/
structure Sound (s : System) (g : Hands) : Prop where
  proper : ∀ row ∈ s.db.segments, Proper row
  distinct : Distinct s.db.segments
  carried : ∀ tag body, Unsettled s tag body → (∀ i, ¬ g.held i tag) →
    ∃ id, Carries s.db id body
  sole : ∀ tag tag' body body' id, Unsettled s tag body → Unsettled s tag' body' →
    jobOf tts.transcriptQueue body = some id → jobOf tts.transcriptQueue body' = some id → tag = tag'
  apart : ∀ i id, g.editing i id → ¬ InFlight s id
  alone : ∀ i j id, g.editing i id → g.editing j id → i = j
  holder : ∀ i j tag, g.held i tag → g.held j tag → i = j
  known : ∀ i tag, g.held i tag → tag < s.accepted.length
  past : ∀ tag ∈ s.settled, tag < s.accepted.length
  spoken : ∀ row ∈ s.db.segments, g.free s row.jobID → Spoken s row

/-- The transactions of the requests have connections of their own. -/
structure Separate (s : Snap) : Prop where
  own : ∀ i j conn, Begun (s.own i) conn → Begun (s.own j) conn → i = j
  numbered : ∀ i conn, Begun (s.own i) conn → ∃ n < s.state.nextTx, conn = .tx n
  fresh : ∀ n, s.state.nextTx ≤ n → s.state.sessions (.tx n) = .idle

/-! ## Carries and its job -/

theorem jobOf_object {jobID id : String} {more : List (Text × Json)} (hid : uuidIn jobID = some id) :
    jobOf tts.transcriptQueue (.object ((text "job_id", goString jobID) :: more)) = some id := by
  unfold jobOf
  rw [if_neg (by decide)]
  have hread : (subscript (.object ((text "job_id", goString jobID) :: more)) "job_id" >>= idText) =
      .ok jobID := edited_segments.idText_uuid hid
  rw [hread]
  exact hid

/-- The synthesis reads the job of a message of the gateway. -/
theorem carries_job {db : pipeline.Db} {id : String} {body : Json} (h : Carries db id body) :
    jobOf tts.transcriptQueue body = some id := by
  obtain ⟨jobID, job, segments, hencode, hid, -⟩ := h
  unfold QueueMessage.encode gateway.transcriptMessage at hencode
  simp only [Option.bind_eq_bind, Option.bind_eq_some_iff, Option.pure_def,
    Option.some.injEq] at hencode
  obtain ⟨payload, -, rfl⟩ := hencode
  exact jobOf_object hid

/-! ## Keys -/

theorem uuidBytes_foreign {c : Char} (hdigit : hexDigit c = none) (hhyphen : c ≠ '-') {n : Nat}
    {cs ds rest : List Char} (h : uuidBytes n cs = some (ds, rest)) (hc : c ∈ cs) : c ∈ rest := by
  induction n generalizing cs ds with
  | zero =>
    obtain ⟨rfl, rfl⟩ := Prod.mk.inj (Option.some.inj h)
    exact hc
  | succ n ih =>
    rcases cs with _ | ⟨a, _ | ⟨b, cs⟩⟩
    · cases h
    · cases h
    unfold uuidBytes at h
    split at h
    · rename_i x y hx hy
      have ha : a ≠ c := fun ha => by simp [ha, hdigit] at hx
      have hb : b ≠ c := fun hb => by simp [hb, hdigit] at hy
      obtain ⟨⟨ds', rest'⟩, hrest, heq⟩ := Option.map_eq_some_iff.mp h
      obtain ⟨-, rfl⟩ := Prod.mk.inj heq
      refine ih hrest ?_
      have hcs : c ∈ cs :=
        (List.mem_cons.mp ((List.mem_cons.mp hc).resolve_left ha.symm)).resolve_left hb.symm
      split
      · rename_i hstart
        cases cs with
        | nil => exact absurd hcs List.not_mem_nil
        | cons d cs =>
          refine (List.mem_cons.mp hcs).resolve_left fun hd => ?_
          simp [← hd, hhyphen] at hstart
      · exact hcs
    · cases h

/-- An id has digits, hyphens and braces only. -/
theorem uuid_foreign {c : Char} (hdigit : hexDigit c = none) (hhyphen : c ≠ '-')
    (hopen : c ≠ '{') (hclose : c ≠ '}') {s id : String} (h : uuidIn s = some id) :
    c ∉ s.toList := by
  intro hmem
  unfold uuidIn at h
  split at h
  · rename_i cs hcs
    rw [hcs] at hmem
    have hmem := (List.mem_cons.mp hmem).resolve_left hopen
    split at h
    · rename_i ds hds
      have hrest := uuidBytes_foreign hdigit hhyphen hds hmem
      exact hclose (List.mem_singleton.mp hrest)
    · cases h
  · split at h
    · rename_i ds hds
      have hrest := uuidBytes_foreign hdigit hhyphen hds hmem
      exact List.not_mem_nil hrest
    · cases h

theorem natDigits_injective {m n : Nat} (h : Nat.toDigits 10 m = Nat.toDigits 10 n) : m = n := by
  have hread := go_text.digits_toDigits m
  rw [h, go_text.digits_toDigits] at hread
  exact (Option.some.inj hread).symm

theorem intString_injective {a b : Int} (h : (toString a).toList = (toString b).toList) : a = b := by
  have hnat : ∀ n : Nat, (toString (Int.ofNat n)).toList = Nat.toDigits 10 n := fun n => Nat.toList_repr
  have hneg : ∀ n : Nat, (toString (Int.negSucc n)).toList = '-' :: Nat.toDigits 10 (n + 1) := by
    intro n
    have hrepr : toString (Int.negSucc n) = "-" ++ Nat.repr (n + 1) := rfl
    rw [hrepr, String.toList_append, Nat.toList_repr]
    rfl
  cases a with
  | ofNat m =>
    cases b with
    | ofNat n =>
      rw [hnat, hnat] at h
      rw [natDigits_injective h]
    | negSucc n =>
      rw [hnat, hneg] at h
      exact absurd h (go_text.toDigits_unsigned (by decide) _)
  | negSucc m =>
    cases b with
    | ofNat n =>
      rw [hnat, hneg] at h
      exact absurd h.symm (go_text.toDigits_unsigned (by decide) _)
    | negSucc n =>
      rw [hneg, hneg, List.cons.injEq] at h
      have hsame := natDigits_injective h.2
      rw [Nat.succ.inj hsame]

/-- The audio of two segments is at different keys. -/
theorem audioKey_inj {jobID jobID' id id' : String} {idx idx' : Int} (hid : uuidIn jobID = some id)
    (hid' : uuidIn jobID' = some id') (h : tts.audioKey jobID idx = tts.audioKey jobID' idx') :
    id = id' ∧ idx = idx' := by
  have hslash : ∀ {s id : String}, uuidIn s = some id → '/' ∉ s.toList :=
    fun hs => uuid_foreign (by decide) (by decide) (by decide) (by decide) hs
  have hparts : ∀ (s : String) (n : Int), (tts.audioKey s n).toList =
      "audio/".toList ++ (s.toList ++ '/' :: ((toString n).toList ++ ".mp3".toList)) := by
    intro s n
    have hkey : tts.audioKey s n = "audio/" ++ s ++ "/" ++ toString n ++ ".mp3" := rfl
    rw [hkey]
    simp
  have hlist := congrArg String.toList h
  rw [hparts, hparts, List.append_cancel_left_eq] at hlist
  have hsame := upload_service.before_slash (hslash hid) (hslash hid') hlist
  rw [hsame, List.append_cancel_left_eq, List.cons.injEq, List.append_cancel_right_eq] at hlist
  obtain rfl := String.toList_inj.mp hsame
  refine ⟨Option.some.inj (hid.symm.trans hid'), ?_⟩
  exact intString_injective hlist.2

/-! ## Rows that change -/

/-- What may become of a row when somebody writes to the job. -/
structure Touched (id : String) (row row' : TranscriptSegment) : Prop where
  others : row.jobID ≠ id → row' = row
  jobID : row'.jobID = row.jobID
  segmentIdx : row'.segmentIdx = row.segmentIdx
  proper : Proper row → Proper row'

theorem Touched.refl (id : String) (row : TranscriptSegment) : Touched id row row :=
  ⟨fun _ => rfl, rfl, rfl, fun h => h⟩

theorem Touched.trans {id : String} {row row' row'' : TranscriptSegment} (h : Touched id row row')
    (h' : Touched id row' row'') : Touched id row row'' where
  others hne := by
    have hsame := h.others hne
    rw [h'.others (hsame ▸ hne), hsame]
  jobID := h'.jobID.trans h.jobID
  segmentIdx := h'.segmentIdx.trans h.segmentIdx
  proper hrow := h'.proper (h.proper hrow)

section Rows

variable {id : String} {rows rows' : List TranscriptSegment}

theorem touched_refl (id : String) (rows : List TranscriptSegment) :
    List.Forall₂ (Touched id) rows rows := List.forall₂_same.mpr fun row _ => Touched.refl id row

theorem touched_from (h : List.Forall₂ (Touched id) rows rows') {row' : TranscriptSegment}
    (hrow' : row' ∈ rows') : ∃ row ∈ rows, Touched id row row' := by
  induction h with
  | nil => exact absurd hrow' List.not_mem_nil
  | @cons a b as bs hab _ ih =>
    rcases List.mem_cons.mp hrow' with rfl | hrow'
    · exact ⟨a, List.mem_cons_self, hab⟩
    · obtain ⟨row, hrow, htouched⟩ := ih hrow'
      exact ⟨row, List.mem_cons_of_mem a hrow, htouched⟩

/-- The rows of the other jobs are as they were. -/
theorem touched_others (h : List.Forall₂ (Touched id) rows rows') {id' : String} (hid : id' ≠ id) :
    rows'.filter (·.jobID = id') = rows.filter (·.jobID = id') := by
  induction h with
  | nil => rfl
  | @cons a b as bs hab _ ih =>
    by_cases ha : a.jobID = id
    · have hb : b.jobID = id := hab.jobID.trans ha
      rw [List.filter_cons_of_neg (by simp [hb, hid.symm]), List.filter_cons_of_neg (by simp [ha, hid.symm]),
        ih]
    · rw [hab.others ha, List.filter_cons, List.filter_cons, ih]

theorem touched_distinct (h : List.Forall₂ (Touched id) rows rows') (hdistinct : Distinct rows) :
    Distinct rows' := by
  unfold Distinct at hdistinct ⊢
  induction h with
  | nil => exact List.Pairwise.nil
  | @cons a b as bs hab hrest ih =>
    obtain ⟨ha, has⟩ := List.pairwise_cons.mp hdistinct
    refine List.pairwise_cons.mpr ⟨fun b' hb' hjob => ?_, ih has⟩
    obtain ⟨a', ha', htouched⟩ := touched_from hrest hb'
    rw [hab.segmentIdx, htouched.segmentIdx]
    exact ha a' ha' (hab.jobID.symm.trans (hjob.trans htouched.jobID))

/-- A row is told by its job and its number. -/
theorem distinct_row (h : Distinct rows) {a b : TranscriptSegment} (ha : a ∈ rows) (hb : b ∈ rows)
    (hjob : a.jobID = b.jobID) (hidx : a.segmentIdx.val = b.segmentIdx.val) : a = b := by
  by_contra hne
  rcases List.pairwise_iff_getElem.mp h with hall
  obtain ⟨i, hi, rfl⟩ := List.getElem_of_mem ha
  obtain ⟨j, hj, rfl⟩ := List.getElem_of_mem hb
  rcases Nat.lt_trichotomy i j with hlt | heq | hlt
  · exact hall i j hi hj hlt hjob hidx
  · subst heq
    exact hne rfl
  · exact hall j i hj hi hlt hjob.symm hidx.symm

end Rows

/-- Only rows of the job and its audio differ. -/
structure Beside (id : String) (t t' : System) : Prop where
  rows : List.Forall₂ (Touched id) t.db.segments t'.db.segments
  audio : ∀ jobID idx id', uuidIn jobID = some id' → id' ≠ id →
    t'.objects (tts.audioKey jobID idx) = t.objects (tts.audioKey jobID idx)
  accepted : t'.accepted = t.accepted
  settled : t'.settled = t.settled

/-! ## The steps that keep the invariant -/

section Steps

variable {t t' : System} {g g' : Hands} {id : String} {i : Nat}

theorem unsettled_beside (h : Beside id t t') {tag : Nat} {body : Json} :
    Unsettled t' tag body ↔ Unsettled t tag body := by
  unfold Unsettled
  rw [h.accepted, h.settled]

theorem inFlight_beside (h : Beside id t t') {id' : String} : InFlight t' id' ↔ InFlight t id' := by
  unfold InFlight
  simp only [unsettled_beside h]

/-- The rows of other jobs are still spoken. -/
theorem spoken_beside (h : Beside id t t') (hproper : ∀ row ∈ t.db.segments, Proper row)
    {row' : TranscriptSegment} (hrow' : row' ∈ t'.db.segments) (hother : row'.jobID ≠ id)
    (hspoken : ∀ row ∈ t.db.segments, row.jobID = row'.jobID → Spoken t row) : Spoken t' row' := by
  obtain ⟨row, hrow, htouched⟩ := touched_from h.rows hrow'
  obtain rfl := htouched.others fun hjob => hother (htouched.jobID.trans hjob)
  intro hpath
  obtain hempty | ⟨jobID, hid, hkey⟩ := (hproper row' hrow).path
  · exact absurd hempty hpath
  · obtain ⟨clip, hstored, htext⟩ := hspoken row' hrow rfl hpath
    refine ⟨clip, ?_, htext⟩
    rw [hkey] at hstored ⊢
    rw [h.audio jobID _ _ hid hother, hstored]

theorem carries_beside (h : Beside id t t') {id' : String} {body : Json} (hid : id' ≠ id)
    (hcarries : Carries t.db id' body) : Carries t'.db id' body := by
  obtain ⟨jobID, job, segments, hencode, huuid, hperm, hsorted⟩ := hcarries
  exact ⟨jobID, job, segments, hencode, huuid, touched_others h.rows hid ▸ hperm, hsorted⟩

/-- A message that nobody has is of no job that somebody has. -/
theorem Sound.undelivered (h : Sound t g) {tag : Nat} {body : Json} {id' : String}
    (hbody : Unsettled t tag body) (hnone : ∀ j, ¬ g.held j tag)
    (hjob : jobOf tts.transcriptQueue body = some id') : ¬ g.mine t i id' := by
  rintro (hediting | ⟨tag', body', hheld, hbody', hjob'⟩)
  · exact h.apart i id' hediting ⟨tag, body, hbody, hjob⟩
  · obtain rfl := h.sole tag tag' body body' id' hbody hbody' hjob hjob'
    exact hnone i hheld

theorem mine_not_free (h : g.mine t i id) : ¬ g.free t id := by
  rintro ⟨hflight, hediting⟩
  rcases h with hedit | ⟨tag, body, -, hbody, hjob⟩
  · exact hediting i hedit
  · exact hflight ⟨tag, body, hbody, hjob⟩

/-- Who has a job in its hands writes to it. -/
theorem Sound.beside (h : Sound t g) (hbeside : Beside id t t') (hmine : g.mine t i id) :
    Sound t' g where
  proper row' hrow' := by
    obtain ⟨row, hrow, htouched⟩ := touched_from hbeside.rows hrow'
    exact htouched.proper (h.proper row hrow)
  distinct := touched_distinct hbeside.rows h.distinct
  carried tag body hbody hnone := by
    have hbefore := (unsettled_beside hbeside).mp hbody
    obtain ⟨id', hcarries⟩ := h.carried tag body hbefore hnone
    refine ⟨id', carries_beside hbeside ?_ hcarries⟩
    rintro rfl
    exact h.undelivered hbefore hnone (carries_job hcarries) hmine
  sole tag tag' body body' id' hbody hbody' :=
    h.sole tag tag' body body' id' ((unsettled_beside hbeside).mp hbody)
      ((unsettled_beside hbeside).mp hbody')
  apart j id' hediting := by
    rw [inFlight_beside hbeside]
    exact h.apart j id' hediting
  alone := h.alone
  holder := h.holder
  known j tag hheld := by
    rw [hbeside.accepted]
    exact h.known j tag hheld
  past tag htag := by
    rw [hbeside.accepted]
    exact h.past tag (hbeside.settled ▸ htag)
  spoken row' hrow' hfree := by
    have hfree : g.free t row'.jobID := ⟨fun hflight => hfree.1 ((inFlight_beside hbeside).mpr hflight),
      hfree.2⟩
    have hother : row'.jobID ≠ id := fun hjob => mine_not_free hmine (hjob ▸ hfree)
    exact spoken_beside hbeside h.proper hrow' hother fun row hrow hjob =>
      h.spoken row hrow (hjob ▸ hfree)

/-- The edits of a job that nobody has are committed. -/
theorem Sound.edit (h : Sound t g) (hbeside : Beside id t t') (hfree : g.free t id)
    (hheld : g'.held = g.held)
    (hediting : ∀ j id', g'.editing j id' ↔ g.editing j id' ∨ j = i ∧ id' = id) : Sound t' g' where
  proper row' hrow' := by
    obtain ⟨row, hrow, htouched⟩ := touched_from hbeside.rows hrow'
    exact htouched.proper (h.proper row hrow)
  distinct := touched_distinct hbeside.rows h.distinct
  carried tag body hbody hnone := by
    have hbefore := (unsettled_beside hbeside).mp hbody
    obtain ⟨id', hcarries⟩ := h.carried tag body hbefore (hheld ▸ hnone)
    refine ⟨id', carries_beside hbeside ?_ hcarries⟩
    rintro rfl
    exact hfree.1 ⟨tag, body, hbefore, carries_job hcarries⟩
  sole tag tag' body body' id' hbody hbody' :=
    h.sole tag tag' body body' id' ((unsettled_beside hbeside).mp hbody)
      ((unsettled_beside hbeside).mp hbody')
  apart j id' hedit := by
    rw [inFlight_beside hbeside]
    rcases (hediting j id').mp hedit with hedit | ⟨-, rfl⟩
    · exact h.apart j id' hedit
    · exact hfree.1
  alone j j' id' hj hj' := by
    rcases (hediting j id').mp hj with hj | ⟨rfl, rfl⟩ <;>
      rcases (hediting j' id').mp hj' with hj' | ⟨rfl, hid⟩
    · exact h.alone j j' id' hj hj'
    · exact absurd (hid ▸ hj) (hfree.2 j)
    · exact absurd hj' (hfree.2 j')
    · rfl
  holder j j' tag := by
    rw [hheld]
    exact h.holder j j' tag
  known j tag hj := by
    rw [hbeside.accepted]
    exact h.known j tag (hheld ▸ hj)
  past tag htag := by
    rw [hbeside.accepted]
    exact h.past tag (hbeside.settled ▸ htag)
  spoken row' hrow' hfree' := by
    have hother : row'.jobID ≠ id := by
      intro hjob
      exact hfree'.2 i ((hediting i _).mpr (Or.inr ⟨rfl, hjob⟩))
    have hfree' : g.free t row'.jobID := by
      refine ⟨fun hflight => hfree'.1 ((inFlight_beside hbeside).mpr hflight), fun j hj => ?_⟩
      exact hfree'.2 j ((hediting j _).mpr (Or.inl hj))
    exact spoken_beside hbeside h.proper hrow' hother fun row hrow hjob =>
      h.spoken row hrow (hjob ▸ hfree')

/-- The same rows, objects and messages that are not settled. -/
theorem Sound.of_same (h : Sound t g) (hsegments : t'.db.segments = t.db.segments)
    (hobjects : t'.objects = t.objects)
    (hunsettled : ∀ {tag body}, Unsettled t' tag body ↔ Unsettled t tag body)
    (hlonger : t.accepted.length ≤ t'.accepted.length) (hsettled : t'.settled = t.settled) :
    Sound t' g := by
  have hflight : ∀ {id'}, InFlight t' id' ↔ InFlight t id' := by
    intro id'
    unfold InFlight
    simp only [hunsettled]
  refine ⟨?_, ?_, ?_, ?_, ?_, h.alone, h.holder, ?_, ?_, ?_⟩
  · rw [hsegments]
    exact h.proper
  · rw [hsegments]
    exact h.distinct
  · intro tag body' hbody hnone
    obtain ⟨id', jobID, job, segments, hcarries⟩ := h.carried tag body' (hunsettled.mp hbody) hnone
    refine ⟨id', jobID, job, segments, ?_⟩
    rwa [hsegments]
  · exact fun tag tag' b b' id' hb hb' => h.sole tag tag' b b' id' (hunsettled.mp hb) (hunsettled.mp hb')
  · exact fun j id' hediting hf => h.apart j id' hediting (hflight.mp hf)
  · exact fun j tag hheld => (h.known j tag hheld).trans_le hlonger
  · exact fun tag htag => (h.past tag (hsettled ▸ htag)).trans_le hlonger
  · intro row hrow hfree hpath
    rw [hsegments] at hrow
    rw [hobjects]
    exact h.spoken row hrow ⟨fun hf => hfree.1 (hflight.mpr hf), hfree.2⟩ hpath

/-- The step changes nothing that the invariant speaks of. -/
structure SameData (t t' : System) : Prop where
  segments : t'.db.segments = t.db.segments
  objects : t'.objects = t.objects
  accepted : t'.accepted = t.accepted
  settled : t'.settled = t.settled

theorem SameData.beside (h : SameData t t') (id : String) : Beside id t t' where
  rows := h.segments ▸ touched_refl id _
  audio jobID idx id' _ _ := by rw [h.objects]
  accepted := h.accepted
  settled := h.settled

theorem SameData.sound (hsame : SameData t t') (h : Sound t g) : Sound t' g :=
  h.of_same hsame.segments hsame.objects (unsettled_beside (hsame.beside ""))
    (le_of_eq (congrArg List.length hsame.accepted.symm)) hsame.settled

/-- What a publish adds to the messages that are not settled. -/
theorem unsettled_published {queue : String} {body : Json} (hpast : ∀ tag ∈ t.settled, tag < t.accepted.length)
    (haccepted : t'.accepted = t.accepted ++ [⟨queue, body⟩]) (hsettled : t'.settled = t.settled)
    {tag : Nat} {body' : Json} : Unsettled t' tag body' ↔
      Unsettled t tag body' ∨ tag = t.accepted.length ∧ queue = tts.transcriptQueue ∧ body' = body := by
  unfold Unsettled
  rw [haccepted, hsettled]
  rcases Nat.lt_trichotomy tag t.accepted.length with hlt | rfl | hlt
  · rw [List.getElem?_append_left hlt]
    constructor
    · exact Or.inl
    · rintro (h | ⟨rfl, -⟩)
      · exact h
      · exact absurd hlt (Nat.lt_irrefl _)
  · rw [List.getElem?_append_right (Nat.le_refl _), Nat.sub_self]
    constructor
    · rintro ⟨hget, -⟩
      obtain ⟨rfl, rfl⟩ := Envelope.mk.inj (Option.some.inj hget)
      exact Or.inr ⟨rfl, rfl, rfl⟩
    · rintro (⟨hget, -⟩ | ⟨-, rfl, rfl⟩)
      · rw [List.getElem?_eq_none (Nat.le_refl _)] at hget
        cases hget
      · exact ⟨rfl, fun htag => absurd (hpast _ htag) (Nat.lt_irrefl _)⟩
  · constructor
    · rintro ⟨hget, -⟩
      rw [List.getElem?_eq_none (by simp; omega)] at hget
      cases hget
    · rintro (⟨hget, -⟩ | ⟨rfl, -⟩)
      · rw [List.getElem?_eq_none (by omega)] at hget
        cases hget
      · exact absurd hlt (Nat.lt_irrefl _)

/-- A message on another queue. -/
theorem Sound.aside {queue : String} {body : Json} (h : Sound t g)
    (hqueue : queue ≠ tts.transcriptQueue) (hsegments : t'.db.segments = t.db.segments)
    (hobjects : t'.objects = t.objects) (haccepted : t'.accepted = t.accepted ++ [⟨queue, body⟩])
    (hsettled : t'.settled = t.settled) : Sound t' g := by
  refine h.of_same hsegments hobjects ?_ (by simp [haccepted]) hsettled
  intro tag body'
  rw [unsettled_published h.past haccepted hsettled]
  exact ⟨fun hor => hor.resolve_right fun hnew => hqueue hnew.2.1, Or.inl⟩

/-- The request publishes the rows of the job that it has edited. -/
theorem Sound.publish {body : Json} (h : Sound t g) (hediting : g.editing i id)
    (honly : ∀ id', g.editing i id' → id' = id) (hcarries : Carries t.db id body)
    (hsegments : t'.db.segments = t.db.segments) (hobjects : t'.objects = t.objects)
    (haccepted : t'.accepted = t.accepted ++ [⟨tts.transcriptQueue, body⟩])
    (hsettled : t'.settled = t.settled) (hheld : g'.held = g.held)
    (hedits : ∀ j id', g'.editing j id' ↔ j ≠ i ∧ g.editing j id') : Sound t' g' := by
  have hunsettled := fun {tag body'} =>
    @unsettled_published t t' tts.transcriptQueue body h.past haccepted hsettled tag body'
  have hjob := carries_job hcarries
  have hquiet := h.apart i id hediting
  have hlonger : t.accepted.length ≤ t'.accepted.length := by simp [haccepted]
  refine ⟨?_, ?_, ?_, ?_, ?_, ?_, ?_, ?_, ?_, ?_⟩
  · rw [hsegments]
    exact h.proper
  · rw [hsegments]
    exact h.distinct
  · intro tag body' hbody hnone
    rw [hheld] at hnone
    have hkeep : ∀ {id' b}, Carries t.db id' b → Carries t'.db id' b := by
      rintro id' b ⟨jobID, job, segments, hc⟩
      refine ⟨jobID, job, segments, ?_⟩
      rwa [hsegments]
    rcases hunsettled.mp hbody with hold | ⟨-, -, rfl⟩
    · obtain ⟨id', hc⟩ := h.carried tag body' hold hnone
      exact ⟨id', hkeep hc⟩
    · exact ⟨id, hkeep hcarries⟩
  · intro tag tag' b b' id' hb hb' hbjob hbjob'
    rcases hunsettled.mp hb with hold | ⟨rfl, -, rfl⟩ <;>
      rcases hunsettled.mp hb' with hold' | ⟨rfl, -, rfl⟩
    · exact h.sole tag tag' b b' id' hold hold' hbjob hbjob'
    · obtain rfl := Option.some.inj (hjob.symm.trans hbjob')
      exact absurd ⟨tag, b, hold, hbjob⟩ hquiet
    · obtain rfl := Option.some.inj (hjob.symm.trans hbjob)
      exact absurd ⟨tag', b', hold', hbjob'⟩ hquiet
    · rfl
  · rintro j id' hj ⟨tag, b, hb, hbjob⟩
    obtain ⟨hne, hj⟩ := (hedits j id').mp hj
    rcases hunsettled.mp hb with hold | ⟨-, -, rfl⟩
    · exact h.apart j id' hj ⟨tag, b, hold, hbjob⟩
    · obtain rfl := Option.some.inj (hjob.symm.trans hbjob)
      exact hne (h.alone j i id hj hediting)
  · intro j j' id' hj hj'
    exact h.alone j j' id' ((hedits j id').mp hj).2 ((hedits j' id').mp hj').2
  · rw [hheld]
    exact h.holder
  · rw [hheld]
    exact fun j tag hj => (h.known j tag hj).trans_le hlonger
  · exact fun tag htag => (h.past tag (hsettled ▸ htag)).trans_le hlonger
  · intro row hrow hfree hpath
    rw [hsegments] at hrow
    rw [hobjects]
    have hother : row.jobID ≠ id := fun hrowjob =>
      hfree.1 ⟨_, body, hunsettled.mpr (Or.inr ⟨rfl, rfl, rfl⟩), hrowjob ▸ hjob⟩
    refine h.spoken row hrow ⟨?_, fun j hj => ?_⟩ hpath
    · rintro ⟨tag, b, hb, hbjob⟩
      exact hfree.1 ⟨tag, b, hunsettled.mpr (Or.inl hb), hbjob⟩
    · by_cases hji : j = i
      · subst hji
        exact hother (honly _ hj)
      · exact hfree.2 j ((hedits j _).mpr ⟨hji, hj⟩)

/-- A message is delivered for the first time. -/
theorem Sound.deliver {tag : Nat} {body : Json} (h : Sound t g) (hbody : Unsettled t tag body)
    (hnone : ∀ j, ¬ g.held j tag) (hediting : g'.editing = g.editing)
    (hheld : ∀ j tag', g'.held j tag' ↔ g.held j tag' ∨ j = i ∧ tag' = tag) : Sound t g' where
  proper := h.proper
  distinct := h.distinct
  carried tag' body' hbody' hnone' :=
    h.carried tag' body' hbody' fun j hj => hnone' j ((hheld j tag').mpr (Or.inl hj))
  sole := h.sole
  apart := hediting ▸ h.apart
  alone := hediting ▸ h.alone
  holder j j' tag' hj hj' := by
    rcases (hheld j tag').mp hj with hj | ⟨rfl, rfl⟩ <;>
      rcases (hheld j' tag').mp hj' with hj' | ⟨rfl, htag⟩
    · exact h.holder j j' tag' hj hj'
    · exact absurd (htag ▸ hj) (hnone j)
    · exact absurd hj' (hnone j')
    · rfl
  known j tag' hj := by
    rcases (hheld j tag').mp hj with hj | ⟨-, rfl⟩
    · exact h.known j tag' hj
    · obtain ⟨hlt, -⟩ := List.getElem?_eq_some_iff.mp hbody.1
      exact hlt
  past := h.past
  spoken row hrow hfree := h.spoken row hrow ⟨hfree.1, hediting ▸ hfree.2⟩

/-- A message is settled when all rows of its job are spoken. -/
theorem Sound.settle {tag : Nat} (h : Sound t g) (hknown : tag < t.accepted.length)
    (hdone : ∀ body, Unsettled t tag body → ∀ row ∈ t.db.segments,
      jobOf tts.transcriptQueue body = some row.jobID → Spoken t row)
    (hsegments : t'.db.segments = t.db.segments) (hobjects : t'.objects = t.objects)
    (haccepted : t'.accepted = t.accepted) (hsettled : t'.settled = tag :: t.settled) :
    Sound t' g := by
  have hunsettled : ∀ {tag' body}, Unsettled t' tag' body ↔ Unsettled t tag' body ∧ tag' ≠ tag := by
    intro tag' body
    unfold Unsettled
    rw [haccepted, hsettled, List.mem_cons, not_or]
    tauto
  refine ⟨?_, ?_, ?_, ?_, ?_, h.alone, h.holder, ?_, ?_, ?_⟩
  · rw [hsegments]
    exact h.proper
  · rw [hsegments]
    exact h.distinct
  · intro tag' body hbody hnone
    obtain ⟨id', jobID, job, segments, hcarries⟩ := h.carried tag' body (hunsettled.mp hbody).1 hnone
    refine ⟨id', jobID, job, segments, ?_⟩
    rwa [hsegments]
  · exact fun tag' tag'' b b' id' hb hb' =>
      h.sole tag' tag'' b b' id' (hunsettled.mp hb).1 (hunsettled.mp hb').1
  · rintro j id' hediting ⟨tag', b, hb, hjob⟩
    exact h.apart j id' hediting ⟨tag', b, (hunsettled.mp hb).1, hjob⟩
  · rw [haccepted]
    exact h.known
  · rw [haccepted, hsettled]
    exact List.forall_mem_cons.mpr ⟨hknown, h.past⟩
  · intro row hrow hfree hpath
    rw [hsegments] at hrow
    rw [hobjects]
    by_cases hflight : InFlight t row.jobID
    · obtain ⟨tag', body, hbody, hjob⟩ := hflight
      by_cases htag : tag' = tag
      · subst htag
        exact hdone body hbody row hrow hjob hpath
      · exact absurd ⟨tag', body, hunsettled.mpr ⟨hbody, htag⟩, hjob⟩ hfree.1
    · exact h.spoken row hrow ⟨hflight, hfree.2⟩ hpath

end Steps

/-! ## Hands after a step -/

section After

variable {s s' : Snap} {i j : Nat} {c : Call} {o : Outcome} {id : String}

/-- The call is no step of an edit. -/
def NoEdit : Call → Prop
  | .exec _ (.setText _ _ _) => False
  | .commit (.tx _) => False
  | .publish _ _ => False
  | _ => True

theorem held_after (s : Snap) (i : Nat) (c : Call) (o : Outcome) (j tag : Nat) :
    Held ((s.after services i c o).own j) tag ↔
      Held (s.own j) tag ∨ j = i ∧ ∃ msg, taken c (services.answer o s.state c).1 = some (tag, msg) := by
  by_cases hj : j = i
  · subst hj
    rw [own_after_self]
    unfold Held
    simp only [List.mem_cons, exists_eq_or_imp, true_and]
    exact or_comm
  · rw [own_after_ne services s (Ne.symm hj)]
    simp [hj]

theorem begun_after (hc : c ≠ .begin) (j : Nat) (conn : Conn) :
    Begun ((s.after services i c o).own j) conn ↔ Begun (s.own j) conn := by
  by_cases hj : j = i
  · subst hj
    rw [own_after_self]
    unfold Begun
    constructor
    · rintro ⟨k, hmem⟩
      rcases List.mem_cons.mp hmem with heq | hmem
      · exact absurd (congrArg Event.call heq).symm hc
      · exact ⟨k, hmem⟩
    · rintro ⟨k, hmem⟩
      exact ⟨k, List.mem_cons_of_mem _ hmem⟩
  · rw [own_after_ne services s (Ne.symm hj)]

theorem editing_cons {h : History} {e : Event Call Answer} (hc : NoEdit e.call) :
    Editing (e :: h) id ↔ Editing h id := by
  constructor
  · rintro ⟨⟨e', he', conn, segmentID, jobID, newText, hcall, hid⟩, ⟨k, n, hcommit⟩, hunpublished⟩
    refine ⟨?_, ?_, fun e' he' => hunpublished e' (List.mem_cons_of_mem e he')⟩
    · rcases List.mem_cons.mp he' with rfl | he'
      · rw [hcall] at hc
        exact hc.elim
      · exact ⟨e', he', conn, segmentID, jobID, newText, hcall, hid⟩
    · rcases List.mem_cons.mp hcommit with rfl | hcommit
      · exact hc.elim
      · exact ⟨k, n, hcommit⟩
  · rintro ⟨⟨e', he', hnamed⟩, ⟨k, n, hcommit⟩, hunpublished⟩
    refine ⟨⟨e', List.mem_cons_of_mem e he', hnamed⟩, ⟨k, n, List.mem_cons_of_mem e hcommit⟩, ?_⟩
    intro e' he' queue body hcall
    rcases List.mem_cons.mp he' with rfl | he'
    · rw [hcall] at hc
      exact hc.elim
    · exact hunpublished e' he' queue body hcall

theorem editing_other (hj : j ≠ i) :
    Editing ((s.after services i c o).own j) id ↔ Editing (s.own j) id := by
  rw [own_after_ne services s (Ne.symm hj)]

theorem hands_eq {g g' : Hands} (hheld : ∀ j tag, g'.held j tag ↔ g.held j tag)
    (hediting : ∀ j id, g'.editing j id ↔ g.editing j id) : g' = g := by
  cases g
  cases g'
  congr 1
  · funext j tag
    exact propext (hheld j tag)
  · funext j id
    exact propext (hediting j id)

theorem hands_after (hc : NoEdit c) (hnone : taken c (services.answer o s.state c).1 = none) :
    hands (s.after services i c o) = hands s := by
  apply hands_eq
  · intro j tag
    refine (held_after s i c o j tag).trans (or_iff_left ?_)
    rintro ⟨-, msg, htaken⟩
    rw [hnone] at htaken
    cases htaken
  · intro j id
    by_cases hj : j = i
    · subst hj
      change Editing ((s.after services j c o).own j) id ↔ Editing (s.own j) id
      rw [own_after_self]
      exact editing_cons hc
    · exact editing_other hj

/-- Nobody's hands change, where the thread edits nothing before and after. -/
theorem hands_idle (hbefore : ∀ id, ¬ Editing (s.own i) id)
    (hafter : ∀ id, ¬ Editing ((s.after services i c o).own i) id)
    (hnone : taken c (services.answer o s.state c).1 = none) :
    hands (s.after services i c o) = hands s := by
  apply hands_eq
  · intro j tag
    refine (held_after s i c o j tag).trans (or_iff_left ?_)
    rintro ⟨-, msg, htaken⟩
    rw [hnone] at htaken
    cases htaken
  · intro j id
    by_cases hj : j = i
    · subst hj
      exact iff_of_false (hafter id) (hbefore id)
    · exact editing_other hj

theorem uncommitted_not_editing {h : History}
    (hnone : ∀ k n, (⟨k, .commit (.tx n), .ok ()⟩ : Event Call Answer) ∉ h) : ¬ Editing h id := by
  rintro ⟨-, ⟨k, n, hcommit⟩, -⟩
  exact hnone k n hcommit

/-! ## Custody -/

/-- The connections of a thread: the one of a worker, or the transactions of a request. -/
def Uses (s : Snap) (i : Nat) (conn : Conn) : Prop := conn = .worker i ∨ Begun (s.own i) conn

/-- The rows and the audio of the job are the same. -/
structure SamePart (id : String) (t t' : System) : Prop where
  rows : t'.db.segments.filter (·.jobID = id) = t.db.segments.filter (·.jobID = id)
  audio : ∀ jobID idx, uuidIn jobID = some id →
    t'.objects (tts.audioKey jobID idx) = t.objects (tts.audioKey jobID idx)

/-- What a thread finds as it was. -/
structure Spared (i : Nat) (s s' : Snap) : Prop where
  sessions : ∀ conn, Uses s i conn → s'.state.sessions conn = s.state.sessions conn
  accepted : s.state.accepted <+: s'.state.accepted
  settled : ∀ tag, Held (s.own i) tag → (tag ∈ s'.state.settled ↔ tag ∈ s.state.settled)
  part : ∀ id, (hands s).mine s.state i id → SamePart id s.state s'.state

/-- The last message that was delivered. -/
def lastMessage : History → Option Json
  | [] => none
  | e :: h =>
    match taken e.call e.answer with
    | some (_, msg) => some msg
    | none => lastMessage h

/-- The message has the text for the segment. -/
def Tells (msg : Json) (segmentIdx : Int) (t : Text) : Prop :=
  ∃ payload segments fields, subscript msg "payload" = .ok payload ∧
    subscript payload "segments" = .ok (.array segments) ∧ .object fields ∈ segments ∧
    fields.lookup (text "segment_id") = some (.int segmentIdx) ∧
    fields.lookup (text "text") = some (.str t)

/-- A text is replaced by an edit, or by a synthesis whose message has this text. -/
def Lawful (i : Nat) (s s' : Snap) : Prop :=
  ∀ e, s'.log = e :: s.log → (∀ n, e.call ≠ .commit (.tx n)) →
    ∀ row ∈ s.state.db.segments, ∀ row' ∈ s'.state.db.segments, row'.jobID = row.jobID →
      row'.segmentIdx.val = row.segmentIdx.val → row'.text ≠ row.text →
      ∃ msg, lastMessage (s.own i) = some msg ∧ Tells msg row.segmentIdx.val row.text.val

theorem uses_later (hlater : Later i s s') {conn : Conn} : Uses s' i conn ↔ Uses s i conn := by
  unfold Uses
  rw [hlater.own]

theorem unsettled_later (hspared : Spared i s s') {tag : Nat} {body : Json}
    (hheld : Held (s.own i) tag) (h : Unsettled s.state tag body) : Unsettled s'.state tag body := by
  obtain ⟨more, hmore⟩ := hspared.accepted
  obtain ⟨hlt, -⟩ := List.getElem?_eq_some_iff.mp h.1
  refine ⟨?_, fun htag => h.2 ((hspared.settled tag hheld).mp htag)⟩
  rw [← hmore, List.getElem?_append_left hlt]
  exact h.1

theorem mine_later (hlater : Later i s s') (hspared : Spared i s s')
    (h : (hands s).mine s.state i id) : (hands s').mine s'.state i id := by
  rcases h with hediting | ⟨tag, body, hheld, hbody, hjob⟩
  · left
    change Editing (s'.own i) id
    rw [hlater.own]
    exact hediting
  · right
    refine ⟨tag, body, ?_, unsettled_later hspared hheld hbody, hjob⟩
    change Held (s'.own i) tag
    rw [hlater.own]
    exact hheld

theorem SamePart.refl (id : String) (t : System) : SamePart id t t := ⟨rfl, fun _ _ _ => rfl⟩

theorem SamePart.trans {t t' t'' : System} (h : SamePart id t t') (h' : SamePart id t' t'') :
    SamePart id t t'' :=
  ⟨h'.rows.trans h.rows, fun jobID idx hid => (h'.audio jobID idx hid).trans (h.audio jobID idx hid)⟩

def custody : Custody Call Answer System where
  sound s := Sound s.state (hands s) ∧ Separate s
  lawful := Lawful
  spared := Spared
  refl _ _ := ⟨fun _ _ => rfl, List.prefix_rfl, fun _ _ => Iff.rfl, fun id _ => SamePart.refl id _⟩
  trans i s s' s'' hlater h h' := by
    refine ⟨fun conn huse => ?_, h.accepted.trans h'.accepted, fun tag hheld => ?_, fun id hmine => ?_⟩
    · exact (h'.sessions conn ((uses_later hlater).mpr huse)).trans (h.sessions conn huse)
    · exact (h'.settled tag (hlater.own ▸ hheld)).trans (h.settled tag hheld)
    · exact (h.part id hmine).trans (h'.part id (mine_later hlater h hmine))

/-- Two threads use different connections. -/
theorem Separate.apart (h : Separate s) (hij : i ≠ j) {conn k : Conn} (hi : Uses s i conn)
    (hj : Uses s j k) : k ≠ conn := by
  rintro rfl
  rcases hi with rfl | hi <;> rcases hj with hj | hj
  · exact hij (Conn.worker.inj hj)
  · obtain ⟨n, -, hn⟩ := h.numbered j _ hj
    cases hn
  · obtain ⟨n, -, rfl⟩ := h.numbered i k hi
    cases hj
  · exact hij (h.own i j k hi hj)

/-- The rows are the same, so no text is replaced. -/
theorem lawful_same (h : Sound s.state (hands s)) (hrows : s'.state.db.segments = s.state.db.segments) :
    Lawful i s s' := by
  intro e _ _ row hrow row' hrow' hjob hidx htext
  rw [hrows] at hrow'
  exact absurd (congrArg (·.text) (distinct_row h.distinct hrow' hrow hjob hidx)) htext

/-- What a step on an own connection has to keep. -/
theorem kept_of {conn : Conn} (h : custody.sound s) (hc : c ≠ .begin) (huse : Uses s i conn)
    (hown : deliveries.OwnConn conn c)
    (hsound : Sound (services.answer o s.state c).2 (hands (s.after services i c o)))
    (hnext : (services.answer o s.state c).2.nextTx = s.state.nextTx)
    (hlawful : Lawful i s (s.after services i c o))
    (hsettled : ∀ j, j ≠ i → ∀ tag, Held (s.own j) tag →
      (tag ∈ (services.answer o s.state c).2.settled ↔ tag ∈ s.state.settled))
    (hpart : ∀ j, j ≠ i → ∀ id, (hands s).mine s.state j id →
      SamePart id s.state (services.answer o s.state c).2) :
    custody.Kept i s (s.after services i c o) where
  sound := by
    refine ⟨hsound, ?_⟩
    refine ⟨fun j k conn hj hk => ?_, fun j conn hj => ?_, fun n hn => ?_⟩
    · exact h.2.own j k conn ((begun_after hc j conn).mp hj) ((begun_after hc k conn).mp hk)
    · obtain ⟨n, hn, rfl⟩ := h.2.numbered j conn ((begun_after hc j conn).mp hj)
      exact ⟨n, hnext.symm ▸ hn, rfl⟩
    · have hother : Conn.tx n ≠ conn := by
        rintro rfl
        rcases huse with huse | huse
        · cases huse
        · obtain ⟨m, hm, heq⟩ := h.2.numbered i _ huse
          obtain rfl := Conn.tx.inj heq
          change (services.answer o s.state c).2.nextTx ≤ n at hn
          omega
      have hsame := deliveries.session_of_other hown hother o s.state
      have hle : s.state.nextTx ≤ n := hnext ▸ hn
      exact hsame.trans (h.2.fresh n hle)
  lawful := hlawful
  spares j hj := by
    refine ⟨fun k hk => ?_, ?_, hsettled j hj, hpart j hj⟩
    · exact deliveries.session_of_other hown (h.2.apart (Ne.symm hj) huse hk) o s.state
    · change s.state.accepted <+: (answerCall o s.state c).2.accepted
      rcases accepted_after o s.state c with hsame | ⟨queue, body, -, hmore⟩
      · rw [hsame]
      · rw [hmore]
        exact List.prefix_append _ _

/-- A step that changes nothing but an own session. -/
theorem kept_same {conn : Conn} (h : custody.sound s) (hc : c ≠ .begin) (huse : Uses s i conn)
    (hown : deliveries.OwnConn conn c) (hhands : hands (s.after services i c o) = hands s)
    (hsame : SameData s.state (services.answer o s.state c).2)
    (hnext : (services.answer o s.state c).2.nextTx = s.state.nextTx) :
    custody.Kept i s (s.after services i c o) := by
  refine kept_of h hc huse hown (hhands ▸ hsame.sound h.1) hnext (lawful_same h.1 hsame.segments) ?_ ?_
  · intro j _ tag _
    rw [hsame.settled]
  · intro j _ id _
    refine ⟨?_, fun jobID idx _ => ?_⟩
    · rw [hsame.segments]
    · rw [hsame.objects]

/-- The thread knows a fact about its own history. -/
theorem stable_own (P : History → Prop) (i : Nat) : custody.Stable i fun s => P (s.own i) := by
  intro s s' _ hlater _ h
  rw [hlater.own]
  exact h

/-! ## The condition -/

/-- The calls that an edit needs after its commit: those of the request up to its message, and those
of the synthesis up to its last segment. -/
def Needed : Call → Prop
  | .query none (.segments _) => True
  | .publish queue _ => queue = tts.transcriptQueue
  | .work _ => True
  | .upload _ _ => True
  | .exec (some (.worker _)) _ => True
  | .commit (.worker _) => True
  | _ => False

/-- No needed call fails, a commit that is reported as failed has had no effect, a message is
delivered once, and a rewritten text fits its column. -/
structure Fair (s : Snap) (c : Call) (o : Outcome) : Prop where
  succeeds : Needed c → o.fails = false
  honest : ∀ conn, c = .commit conn → o.fails = true → o.applied = false
  once : ∀ tag msg, taken c (services.answer o s.state c).1 = some (tag, msg) →
    tag ∉ s.state.settled ∧ ∀ i, ¬ Held (s.own i) tag
  storable : ∀ t, o.rewritten = some t → (PgText.of (strip t)).isSome

/-- Edits are committed only while no message of their job is in flight and no other edit of it
waits for its message, and their texts have no whitespace around them. -/
def Apart (s : Snap) (c : Call) : Prop :=
  ∀ n, c = .commit (.tx n) → ∀ x ∈ (s.state.sessions (.tx n)).pending,
    ∀ segmentID jobID newText, x.2 = .setText segmentID jobID newText →
      strip (text newText) = text newText ∧
        ∀ id, uuidIn jobID = some id → (hands s).free s.state id

def OneByOne (s : Snap) (_ : Nat) (c : Call) (o : Outcome) : Prop := Fair s c o ∧ Apart s c

end After

end recast_rules.spoken_texts
