-- The synthesis among other threads. The worker that has a message has its job: the rows are as
-- the message tells them until it writes them itself, one by one, and when all of them are spoken
-- the message is settled.
import RecastAi.SpokenTexts
import RecastAi.TtsIsolation

open call_programs py_text recast_rules.transcript recast_rules.models recast_rules.pipeline
open recast_rules.py recast_rules.regenerations recast_rules.transcript_edits
open recast_rules.deliveries (History Snap taken jobOf)
open recast_rules.tts_isolation (reply_ok)

namespace recast_rules.spoken_texts

/-! ## The message -/

/-- What the synthesis reads of a row. -/
structure ToldRow (row : TranscriptSegment) (fields : tts.SegmentDict) : Prop
    extends WrittenRow row fields where
  text : fields.lookup (text "text") = some (.str row.text.val)

theorem row_is_told {row : TranscriptSegment} {json : Json} (h : row.encode = some json) :
    ∃ fields, json = .object fields ∧ ToldRow row fields := by
  unfold TranscriptSegment.encode at h
  simp only [Option.bind_eq_bind, Option.bind_eq_some_iff, Option.pure_def,
    Option.some.injEq] at h
  obtain ⟨confidence, -, rfl⟩ := h
  exact ⟨_, rfl, ⟨rfl, rfl, rfl⟩, rfl⟩

theorem rows_are_told {rows : List TranscriptSegment} {jsons : List Json}
    (h : rows.mapM TranscriptSegment.encode = some jsons) :
    ∃ dicts, jsons = dicts.map .object ∧ List.Forall₂ ToldRow rows dicts := by
  induction rows generalizing jsons with
  | nil =>
    obtain rfl := Option.some.inj h
    exact ⟨[], rfl, .nil⟩
  | cons row rows ih =>
    simp only [List.mapM_cons, Option.bind_eq_bind, Option.bind_eq_some_iff, Option.pure_def,
      Option.some.injEq] at h
    obtain ⟨json, hjson, rest, hrest, rfl⟩ := h
    obtain ⟨fields, rfl, hrow⟩ := row_is_told hjson
    obtain ⟨dicts, rfl, hrows⟩ := ih hrest
    exact ⟨fields :: dicts, rfl, .cons hrow hrows⟩

/-- How the synthesis reads a message of the gateway. -/
structure Read (cfg : tts.Settings) (conn : Conn) (body : Json) (jobID : String)
    (dicts : List tts.SegmentDict) : Prop where
  job : (subscript body "job_id" >>= idText) = .ok jobID
  trace : ∃ traceID, getOr body "trace_id" (.str []) = .ok traceID
  payload : ∃ payload voice, getOr body "payload" (.object []) = .ok payload ∧
    tts.readVoice cfg (orElse payload (.object [])) = .ok voice ∧
    tts.regenerationIDs (orElse payload (.object [])) = .ok [] ∧
    tts.selectSegments conn jobID (orElse payload (.object [])) = raising (.ok dicts)

theorem told_numbers {rows : List TranscriptSegment} {dicts : List tts.SegmentDict}
    (h : List.Forall₂ ToldRow rows dicts) :
    ∀ fields ∈ dicts, ∃ n, fields.lookup (text "segment_id") = some (.int n) := by
  induction h with
  | nil => exact fun _ hfields => absurd hfields List.not_mem_nil
  | cons hrow _ ih => exact List.forall_mem_cons.mpr ⟨⟨_, hrow.id⟩, ih⟩

theorem told_row {rows : List TranscriptSegment} {dicts : List tts.SegmentDict}
    (h : List.Forall₂ ToldRow rows dicts) : ∀ row ∈ rows, ∃ fields ∈ dicts, ToldRow row fields := by
  induction h with
  | nil => exact fun _ hrow => absurd hrow List.not_mem_nil
  | cons hrow _ ih =>
    refine List.forall_mem_cons.mpr ⟨⟨_, List.mem_cons_self, hrow⟩, fun row hmem => ?_⟩
    obtain ⟨fields, hfields, htold⟩ := ih row hmem
    exact ⟨fields, List.mem_cons_of_mem _ hfields, htold⟩

/-- The message is read, row by row. -/
theorem message_read (cfg : tts.Settings) (conn : Conn) {jobID id : String} {job : Job}
    {rows : List TranscriptSegment} {body : Json} (hid : uuidIn jobID = some id)
    (h : (gateway.transcriptMessage jobID job rows).encode TranscriptPayload.encode = some body) :
    ∃ dicts, List.Forall₂ ToldRow rows dicts ∧ Read cfg conn body jobID dicts ∧
      ∀ row ∈ rows, Tells body row.segmentIdx.val row.text.val := by
  unfold QueueMessage.encode TranscriptPayload.encode gateway.transcriptMessage at h
  simp only [Option.bind_eq_bind, Option.bind_eq_some_iff, Option.pure_def,
    Option.some.injEq] at h
  obtain ⟨payload, ⟨jsons, hjsons, rfl⟩, rfl⟩ := h
  obtain ⟨dicts, rfl, htold⟩ := rows_are_told hjsons
  have hjob := edited_segments.idText_uuid hid
  refine ⟨dicts, htold, ?_⟩
  by_cases hdicts : dicts = []
  · subst hdicts
    obtain rfl := List.forall₂_nil_right_iff.mp htold
    refine ⟨⟨hjob, ⟨_, rfl⟩, ?_⟩, fun row hrow => absurd hrow List.not_mem_nil⟩
    have hvoice : ∃ voice, tts.readVoice cfg (.object [(text "segments", .null),
        (text "voice_id", goString job.voiceID)]) = .ok voice := by
      with_unfolding_all exact ⟨_, rfl⟩
    obtain ⟨voice, hvoice⟩ := hvoice
    refine ⟨_, voice, rfl, hvoice, ?_, ?_⟩
    · with_unfolding_all rfl
    · with_unfolding_all rfl
  · have hmap : dicts.map Json.object ≠ [] := fun hnil => hdicts (List.map_eq_nil_iff.mp hnil)
    rw [if_neg hmap]
    have hvoice : ∃ voice, tts.readVoice cfg (orElse (withSegments dicts job.voiceID) (.object [])) =
        .ok voice := by
      with_unfolding_all exact ⟨_, rfl⟩
    obtain ⟨voice, hvoice⟩ := hvoice
    refine ⟨⟨hjob, ⟨_, rfl⟩, withSegments dicts job.voiceID, voice, rfl, hvoice,
      segments_ask_nothing dicts job.voiceID, segments_selected conn jobID hdicts (told_numbers htold)⟩, ?_⟩
    intro row hrow
    obtain ⟨fields, hfields, hrowtold⟩ := told_row htold row hrow
    exact ⟨withSegments dicts job.voiceID, dicts.map .object, fields, rfl, rfl,
      List.mem_map_of_mem hfields, hrowtold.id, hrowtold.text⟩

/-! ## What is left to do -/

/-- Of a job the rows in the list are as they were told, and the other rows are spoken. -/
structure Left (id : String) (rows : List TranscriptSegment) (t : System) : Prop where
  told : ∀ r ∈ rows, ∀ row ∈ t.db.segments, row.jobID = id →
    row.segmentIdx.val = r.segmentIdx.val → row.text = r.text
  spoken : ∀ row ∈ t.db.segments, row.jobID = id →
    (∀ r ∈ rows, row.segmentIdx.val ≠ r.segmentIdx.val) → Spoken t row

/-- The worker has the message, and its connection is in this session. -/
structure At (i tag : Nat) (body : Json) (id : String) (session : Session) (s : Snap) : Prop where
  session : s.state.sessions (.worker i) = session
  uncommitted : ∀ k n, (⟨k, .commit (.tx n), .ok ()⟩ : Event Call Answer) ∉ s.own i
  held : Held (s.own i) tag
  message : Unsettled s.state tag body
  job : jobOf tts.transcriptQueue body = some id
  last : lastMessage (s.own i) = some body

section Workers

variable {s : Snap} {i tag : Nat} {body : Json} {c : Call} {o : Outcome} {jobID id : String}
  {session : Session} {rows : List TranscriptSegment}

theorem At.mine (h : At i tag body id session s) : (hands s).mine s.state i id :=
  Or.inr ⟨tag, body, h.held, h.message, h.job⟩

theorem at_stable (i tag : Nat) (body : Json) (id : String) (session : Session) :
    custody.Stable i (At i tag body id session) := by
  intro s s' _ hlater hspared h
  refine ⟨?_, ?_, ?_, unsettled_later hspared h.held h.message, h.job, ?_⟩
  · exact (hspared.sessions (.worker i) (Or.inl rfl)).trans h.session
  · rw [hlater.own]
    exact h.uncommitted
  · rw [hlater.own]
    exact h.held
  · rw [hlater.own]
    exact h.last

theorem rows_same {t t' : System} (h : SamePart id t t') {row : TranscriptSegment}
    (hjob : row.jobID = id) : row ∈ t'.db.segments ↔ row ∈ t.db.segments := by
  have hmem : ∀ u : System, row ∈ u.db.segments ↔ row ∈ u.db.segments.filter (·.jobID = id) :=
    fun u => by simp [hjob]
  rw [hmem t', hmem t, h.rows]

theorem spoken_same {t t' : System} (h : SamePart id t t') {row : TranscriptSegment}
    (hproper : Proper row) (hjob : row.jobID = id) (hspoken : Spoken t row) : Spoken t' row := by
  intro hpath
  obtain hempty | ⟨jobID, hid, hkey⟩ := hproper.path
  · exact absurd hempty hpath
  · obtain ⟨clip, hstored, htext⟩ := hspoken hpath
    refine ⟨clip, ?_, htext⟩
    rw [hkey] at hstored ⊢
    rw [h.audio jobID _ (hjob ▸ hid), hstored]

theorem left_same {t t' : System} (h : SamePart id t t') (hproper : ∀ row ∈ t.db.segments, Proper row)
    (hleft : Left id rows t) : Left id rows t' where
  told r hr row hrow hjob := hleft.told r hr row ((rows_same h hjob).mp hrow) hjob
  spoken row hrow hjob hother := by
    have hbefore := (rows_same h hjob).mp hrow
    exact spoken_same h (hproper row hbefore) hjob (hleft.spoken row hbefore hjob hother)

/-- The worker is at the message, with these rows left. -/
def Busy (i tag : Nat) (body : Json) (id : String) (session : Session) (rows : List TranscriptSegment)
    (s : Snap) : Prop :=
  At i tag body id session s ∧ Left id rows s.state

theorem busy_stable (i tag : Nat) (body : Json) (id : String) (session : Session)
    (rows : List TranscriptSegment) : custody.Stable i (Busy i tag body id session rows) := by
  intro s s' hsound hlater hspared h
  exact ⟨at_stable i tag body id session s s' hsound hlater hspared h.1,
    left_same (hspared.part id h.1.mine) hsound.1.proper h.2⟩

/-! ## Steps of the worker -/

theorem uncommitted_after
    (hnone : ∀ k n, (⟨k, .commit (.tx n), .ok ()⟩ : Event Call Answer) ∉ s.own i)
    (hc : ∀ n, c ≠ .commit (.tx n)) :
    ∀ k n, (⟨k, .commit (.tx n), .ok ()⟩ : Event Call Answer) ∉ (s.after services i c o).own i := by
  intro k n hmem
  rw [own_after_self] at hmem
  rcases List.mem_cons.mp hmem with heq | hmem
  · exact hc n (congrArg Event.call heq).symm
  · exact hnone k n hmem

theorem last_after (hnone : taken c (services.answer o s.state c).1 = none) :
    lastMessage ((s.after services i c o).own i) = lastMessage (s.own i) := by
  rw [own_after_self, lastMessage]
  dsimp only
  rw [hnone]

/-- The worker has the message after a step that settles nothing. -/
theorem at_after {session' : Session} (h : At i tag body id session s)
    (hsession : (services.answer o s.state c).2.sessions (.worker i) = session')
    (hc : ∀ n, c ≠ .commit (.tx n)) (hnone : taken c (services.answer o s.state c).1 = none)
    (hsettled : (services.answer o s.state c).2.settled = s.state.settled) :
    At i tag body id session' (s.after services i c o) where
  session := hsession
  uncommitted := uncommitted_after h.uncommitted hc
  held := (held_after s i c o i tag).mpr (Or.inl h.held)
  message := by
    obtain ⟨hlt, -⟩ := List.getElem?_eq_some_iff.mp h.message.1
    refine ⟨?_, ?_⟩
    · change (answerCall o s.state c).2.accepted[tag]? = _
      rcases accepted_after o s.state c with hsame | ⟨queue, b, -, hmore⟩
      · rw [hsame]
        exact h.message.1
      · rw [hmore, List.getElem?_append_left hlt]
        exact h.message.1
    · change tag ∉ (services.answer o s.state c).2.settled
      rw [hsettled]
      exact h.message.2
  job := h.job
  last := (last_after hnone).trans h.last

/-- Two threads have different jobs. -/
theorem mine_apart {t : System} {g : Hands} (h : Sound t g) {j : Nat} (hi : g.mine t i id)
    (hj : g.mine t j id) : i = j := by
  rcases hi with hi | ⟨tag, b, hi, hb, hjob⟩ <;> rcases hj with hj | ⟨tag', b', hj, hb', hjob'⟩
  · exact h.alone i j id hi hj
  · exact absurd ⟨tag', b', hb', hjob'⟩ (h.apart i id hi)
  · exact absurd ⟨tag, b, hb, hjob⟩ (h.apart j id hj)
  · obtain rfl := h.sole tag tag' b b' id hb hb' hjob hjob'
    exact h.holder i j tag hi hj

theorem worker_hands
    (hnone : ∀ k n, (⟨k, .commit (.tx n), .ok ()⟩ : Event Call Answer) ∉ s.own i)
    (hc : ∀ n, c ≠ .commit (.tx n)) (htaken : taken c (services.answer o s.state c).1 = none) :
    hands (s.after services i c o) = hands s :=
  hands_idle (fun _ => uncommitted_not_editing hnone)
    (fun _ => uncommitted_not_editing (uncommitted_after hnone hc)) htaken

/-- The worker writes to its job. -/
theorem beside_kept (h : custody.sound s) (hat : At i tag body id session s) (hbegin : c ≠ .begin)
    (hc : ∀ n, c ≠ .commit (.tx n)) (hown : deliveries.OwnConn (.worker i) c)
    (hnone : taken c (services.answer o s.state c).1 = none)
    (hbeside : Beside id s.state (services.answer o s.state c).2)
    (hnext : (services.answer o s.state c).2.nextTx = s.state.nextTx)
    (hlawful : Lawful i s (s.after services i c o)) : custody.Kept i s (s.after services i c o) := by
  refine kept_of h hbegin (Or.inl rfl) hown ?_ hnext hlawful ?_ ?_
  · rw [worker_hands hat.uncommitted hc hnone]
    exact h.1.beside hbeside hat.mine
  · intro j _ tag' _
    rw [hbeside.settled]
  · intro j hj id' hmine
    have hother : id' ≠ id := by
      rintro rfl
      exact hj (mine_apart h.1 hmine hat.mine)
    exact ⟨touched_others hbeside.rows hother,
      fun jobID' idx hid' => hbeside.audio jobID' idx id' hid' hother⟩

/-- The worker does something that changes no row and no audio. -/
theorem busy_step {session' : Session} (h : custody.sound s) (hbusy : Busy i tag body id session rows s)
    (hbegin : c ≠ .begin) (hc : ∀ n, c ≠ .commit (.tx n)) (hown : deliveries.OwnConn (.worker i) c)
    (hnone : taken c (services.answer o s.state c).1 = none)
    (hsame : SameData s.state (services.answer o s.state c).2)
    (hnext : (services.answer o s.state c).2.nextTx = s.state.nextTx)
    (hsession : (services.answer o s.state c).2.sessions (.worker i) = session') :
    custody.Kept i s (s.after services i c o) ∧
      Busy i tag body id session' rows (s.after services i c o) := by
  refine ⟨beside_kept h hbusy.1 hbegin hc hown hnone (hsame.beside id) hnext
    (lawful_same h.1 hsame.segments), at_after hbusy.1 hsession hc hnone hsame.settled, ?_⟩
  have hpart : SamePart id s.state (services.answer o s.state c).2 := by
    refine ⟨?_, fun _ _ _ => ?_⟩
    · rw [hsame.segments]
    · rw [hsame.objects]
  exact left_same hpart h.1.proper hbusy.2

/-! ## The quality loop -/

/-- A work that is done, and whose rewriting fits its column. -/
def Works (o : Outcome) : Prop :=
  o.fails = false ∧ ∀ t, o.rewritten = some t → (PgText.of (strip t)).isSome

theorem work_safe (w : Work) (hs : custody.sound s ∧ Busy i tag body id .idle rows s) :
    safe services OneByOne (custody.pact services) i (ask (.work w))
      (fun x s => custody.sound s ∧ (∃ o, Works o ∧ x = answerWork o w) ∧
        Busy i tag body id .idle rows s) s := by
  refine Custody.safe_call (busy_stable i tag body id .idle rows) (fun x => ?_) ?_ hs
  · intro s s' hsound hlater hspared hx
    exact ⟨hx.1, busy_stable i tag body id .idle rows s s' hsound hlater hspared hx.2⟩
  · intro s o hsound hbusy ho
    obtain ⟨hkept, hbusy'⟩ := @busy_step s i tag body (.work w) o id .idle rows .idle hsound hbusy nofun
      nofun trivial rfl ⟨rfl, rfl, rfl, rfl⟩ rfl hbusy.1.session
    exact ⟨hkept, ⟨o, ⟨ho.1.succeeds trivial, ho.1.storable⟩, rfl⟩, hbusy'⟩

/-- What comes out of the attempts: the clip speaks the text, which is the first one or one that
fits its column, and has no whitespace around. -/
structure Voiced (original : Text) (it : tts.IterationResult) : Prop where
  spoken : it.synthesis.spoken = it.finalText
  trimmed : strip it.finalText = it.finalText
  fits : it.finalText = original ∨ (PgText.of it.finalText).isSome

variable {original : Text}

theorem better_voiced {best : Option tts.IterationResult} {candidate : tts.IterationResult}
    (hbest : ∀ b, best = some b → Voiced original b) (hcandidate : Voiced original candidate) :
    Voiced original (tts.better best candidate) := by
  unfold tts.better
  cases best with
  | none => exact hcandidate
  | some b =>
    dsimp only
    split
    · exact hcandidate
    · exact hbest b rfl

/-- Every work succeeds, so the quality loop comes to its end. -/
theorem once_tries {voice : tts.Voice} {targetMs : Int} {spoken : Text}
    {best : Option tts.IterationResult} (hbest : ∀ b, best = some b → Voiced original b)
    (htrim : strip spoken = spoken) (hfits : spoken = original ∨ (PgText.of spoken).isSome)
    (hs : custody.sound s ∧ Busy i tag body id .idle rows s) :
    tries services OneByOne (custody.pact services) i (tts.synthesizeOnce voice targetMs spoken best)
      (fun _ _ => False)
      (fun x s => Voiced original x.1 ∧ custody.sound s ∧ Busy i tag body id .idle rows s) s := by
  unfold tts.synthesizeOnce
  apply tries_bind
  apply tries_orGiveUp
  refine safe_mono (work_safe _ hs) ?_
  rintro x s ⟨hsound, ⟨o, hworks, rfl⟩, hbusy⟩
  have hsynth : answerWork o (.synthesize spoken voice.voiceID voice.language) =
      .ok ⟨spoken, voice.voiceID, voice.language, max o.ms 0⟩ := reply_ok hworks.1 _
  rw [hsynth]
  apply tries_bind
  apply tries_orGiveUp
  refine safe_mono (work_safe _ ⟨hsound, hbusy⟩) ?_
  rintro x s ⟨hsound, ⟨o', hworks', rfl⟩, hbusy⟩
  have hscore : ∀ clip n, answerWork o' (.score clip n) = .ok ⟨o'.combined, o'.issues⟩ :=
    fun _ _ => reply_ok hworks'.1 _
  rw [hscore]
  intro s' hr
  exact ⟨better_voiced hbest ⟨rfl, htrim, hfits⟩,
    Custody.stable_rely (busy_stable i tag body id .idle rows) hr ⟨hsound, hbusy⟩⟩

theorem rewrite_tries {cfg : tts.Settings} {voice : tts.Voice} {spoken : Text} {startMs endMs : Int}
    {score : Score} (hs : custody.sound s ∧ Busy i tag body id .idle rows s) :
    tries services OneByOne (custody.pact services) i
      (tts.requestRewrite cfg voice spoken startMs endMs score) (fun _ _ => False)
      (fun x s => (∀ t, x = some t → strip t = t ∧ (PgText.of t).isSome) ∧ custody.sound s ∧
        Busy i tag body id .idle rows s) s := by
  have hstable := busy_stable i tag body id .idle rows
  unfold tts.requestRewrite
  split
  · exact fun s' hr => ⟨nofun, Custody.stable_rely hstable hr hs⟩
  · apply tries_bind
    apply tries_orGiveUp
    refine safe_mono (work_safe _ hs) ?_
    rintro x s ⟨hsound, ⟨o, hworks, rfl⟩, hbusy⟩
    have hrewrite : answerWork o (.rewrite spoken startMs endMs voice.style voice.language score) =
        .ok o.rewritten := reply_ok hworks.1 _
    rw [hrewrite]
    intro s' hr
    refine ⟨fun t ht => ?_, Custody.stable_rely hstable hr ⟨hsound, hbusy⟩⟩
    obtain ⟨hmap, -⟩ := Option.filter_eq_some_iff.mp ht
    obtain ⟨raw, hraw, rfl⟩ := Option.map_eq_some_iff.mp hmap
    exact ⟨strip_strip raw, hworks.2 raw hraw⟩

theorem iterate_tries {cfg : tts.Settings} {voice : tts.Voice} {startMs endMs targetMs : Int}
    (left : Nat) {spoken : Text} {best : Option tts.IterationResult}
    (hbest : ∀ b, best = some b → Voiced original b) (htrim : strip spoken = spoken)
    (hfits : spoken = original ∨ (PgText.of spoken).isSome)
    (hs : custody.sound s ∧ Busy i tag body id .idle rows s) :
    tries services OneByOne (custody.pact services) i
      (tts.iterate cfg voice startMs endMs targetMs left spoken best) (fun _ _ => False)
      (fun it s => Voiced original it ∧ custody.sound s ∧ Busy i tag body id .idle rows s) s := by
  have hstable := busy_stable i tag body id .idle rows
  induction left generalizing spoken best s with
  | zero =>
    unfold tts.iterate
    apply tries_bind
    refine tries_mono (once_tries hbest htrim hfits hs) (fun _ _ h => h) ?_
    rintro ⟨it, score⟩ s ⟨hvoiced, hs⟩
    exact fun s' hr => ⟨hvoiced, Custody.stable_rely hstable hr hs⟩
  | succ left ih =>
    unfold tts.iterate
    apply tries_bind
    refine tries_mono (once_tries hbest htrim hfits hs) (fun _ _ h => h) ?_
    rintro ⟨it, score⟩ s ⟨hvoiced, hs⟩
    have hreturn : ∀ {s}, custody.sound s ∧ Busy i tag body id .idle rows s →
        tries services OneByOne (custody.pact services) i (pure it : Py tts.IterationResult)
          (fun _ _ => False)
          (fun it s => Voiced original it ∧ custody.sound s ∧ Busy i tag body id .idle rows s) s :=
      fun hs s' hr => ⟨hvoiced, Custody.stable_rely hstable hr hs⟩
    dsimp only
    split
    · exact hreturn hs
    · apply tries_bind
      refine tries_mono (rewrite_tries hs) (fun _ _ h => h) ?_
      rintro x s ⟨hrewritten, hs⟩
      cases x with
      | none => exact hreturn hs
      | some rewritten =>
        dsimp only
        split
        · exact hreturn hs
        · obtain ⟨htrim', hfits'⟩ := hrewritten rewritten rfl
          refine ih (fun b hb => ?_) htrim' (Or.inr hfits') hs
          obtain rfl := Option.some.inj hb
          exact hvoiced

/-! ## One segment -/

variable {r : TranscriptSegment} {clip : Clip}

/-- The audio of the next segment is stored, and its row is not written yet. -/
def Uploaded (i tag : Nat) (body : Json) (jobID id : String) (session : Session)
    (r : TranscriptSegment) (rows : List TranscriptSegment) (clip : Clip) (s : Snap) : Prop :=
  Busy i tag body id session (r :: rows) s ∧
    s.state.objects (tts.audioKey jobID r.segmentIdx.val) = some (.clip clip)

theorem uploaded_stable (hid : uuidIn jobID = some id) (session : Session) (clip : Clip) :
    custody.Stable i (Uploaded i tag body jobID id session r rows clip) := by
  intro s s' hsound hlater hspared h
  refine ⟨busy_stable i tag body id session (r :: rows) s s' hsound hlater hspared h.1, ?_⟩
  rw [(hspared.part id h.1.1.mine).audio jobID _ hid]
  exact h.2

/-- The audio is stored. -/
theorem upload_kept (h : custody.sound s) (hbusy : Busy i tag body id .idle (r :: rows) s)
    (hid : uuidIn jobID = some id) (hfails : o.fails = false) :
    custody.Kept i s
        (s.after services i (.upload (tts.audioKey jobID r.segmentIdx.val) (.clip clip)) o) ∧
      (services.answer o s.state (.upload (tts.audioKey jobID r.segmentIdx.val) (.clip clip))).1 =
        .ok () ∧
      Uploaded i tag body jobID id .idle r rows clip
        (s.after services i (.upload (tts.audioKey jobID r.segmentIdx.val) (.clip clip)) o) := by
  have hanswer : services.answer o s.state (.upload (tts.audioKey jobID r.segmentIdx.val) (.clip clip)) =
      (.ok (), s.state.put (tts.audioKey jobID r.segmentIdx.val) (some (.clip clip))) := by
    have hput : answerCall o s.state (.upload (tts.audioKey jobID r.segmentIdx.val) (.clip clip)) =
        (reply o (), if landed o then
          s.state.put (tts.audioKey jobID r.segmentIdx.val) (some (.clip clip)) else s.state) := by
      unfold answerCall
      exact if_neg (edited_segments.audioKey_named jobID _)
    refine hput.trans ?_
    unfold reply landed
    rw [hfails]
    rfl
  have hother : ∀ jobID' idx id', uuidIn jobID' = some id' → id' ≠ id ∨ idx ≠ r.segmentIdx.val →
      (s.state.put (tts.audioKey jobID r.segmentIdx.val) (some (.clip clip))).objects
        (tts.audioKey jobID' idx) = s.state.objects (tts.audioKey jobID' idx) := by
    intro jobID' idx id' hid' hne
    refine if_neg fun hkey => ?_
    obtain ⟨rfl, rfl⟩ := audioKey_inj hid' hid hkey
    exact hne.elim (absurd rfl) (absurd rfl)
  have hbeside : Beside id s.state (services.answer o s.state
      (.upload (tts.audioKey jobID r.segmentIdx.val) (.clip clip))).2 := by
    rw [hanswer]
    exact ⟨touched_refl id _, fun jobID' idx id' hid' hne => hother jobID' idx id' hid' (Or.inl hne), rfl,
      rfl⟩
  have hstate := congrArg Prod.snd hanswer
  refine ⟨beside_kept h hbusy.1 nofun nofun trivial rfl hbeside (by rw [hstate]; rfl)
    (lawful_same h.1 (by exact congrArg (fun t => t.db.segments) hstate)),
    congrArg Prod.fst hanswer, ⟨?_, ?_⟩, ?_⟩
  · refine at_after hbusy.1 ?_ nofun rfl hbeside.settled
    rw [hstate]
    exact hbusy.1.session
  · change Left id (r :: rows) (services.answer o s.state _).2
    rw [hstate]
    refine ⟨hbusy.2.told, fun row hrow hjob hlisted hpath => ?_⟩
    obtain hempty | ⟨jobID', hid', hkey⟩ := (h.1.proper row hrow).path
    · exact absurd hempty hpath
    · obtain ⟨clip', hstored, htext⟩ := hbusy.2.spoken row hrow hjob hlisted hpath
      refine ⟨clip', ?_, htext⟩
      rw [hkey] at hstored ⊢
      rw [hother jobID' _ _ hid' (Or.inr (hlisted r List.mem_cons_self)), hstored]
  · change (services.answer o s.state _).2.objects _ = _
    rw [hstate]
    exact if_pos rfl

/-- A statement that succeeds waits in the transaction. -/
theorem exec_done {t : System} {conn : Conn} {pending : List (Nat × Statement)} (st : Statement)
    (hsession : t.sessions conn = ⟨pending, false⟩)
    (hexec : ∃ n db, t.db.exec o.now st = .ok (n, db)) (hfails : o.fails = false) :
    ∃ n, services.answer o t (.exec (some conn) st) =
      (.ok n, t.setSession conn ⟨pending ++ [(o.now, st)], false⟩) := by
  obtain ⟨n, db, hexec⟩ := hexec
  refine ⟨n, ?_⟩
  change answerExec o t (some conn) st = _
  unfold answerExec
  simp only [hsession, hfails, hexec, Bool.false_eq_true, if_false]
  rfl

theorem commit_done {t : System} {conn : Conn} {pending : List (Nat × Statement)}
    (hsession : t.sessions conn = ⟨pending, false⟩) (hfails : o.fails = false) :
    services.answer o t (.commit conn) = (.ok (), t.commit conn) := by
  change answerCommit o t conn = _
  unfold answerCommit replyDb landed
  simp only [hsession, hfails, Bool.not_false, Bool.true_or, Bool.false_eq_true, if_false, if_true]
  rfl

/-- What the one statement of a transaction makes of the rows. -/
theorem commit_segments {t : System} {conn : Conn} {now n : Nat} {st : Statement} {db : pipeline.Db}
    (hsession : t.sessions conn = ⟨[(now, st)], false⟩) (hexec : t.db.exec now st = .ok (n, db)) :
    (t.commit conn).db.segments = db.segments := by
  change (t.db.execAll (t.sessions conn).pending).segments = _
  rw [hsession]
  change (t.db.execAll [(now, st)]).segments = _
  unfold Db.execAll
  rw [hexec]
  rfl

/-- The row of the segment is written, in the transaction. -/
theorem exec_kept {columns : AudioColumns} (h : custody.sound s) (hid : uuidIn jobID = some id)
    (hup : Uploaded i tag body jobID id .idle r rows clip s) (hfails : o.fails = false) :
    custody.Kept i s
        (s.after services i (.exec (some (.worker i)) (.setAudio jobID r.segmentIdx.val columns)) o) ∧
      ∃ n now, (services.answer o s.state
          (.exec (some (.worker i)) (.setAudio jobID r.segmentIdx.val columns))).1 = .ok n ∧
        Uploaded i tag body jobID id ⟨[(now, .setAudio jobID r.segmentIdx.val columns)], false⟩ r rows clip
          (s.after services i (.exec (some (.worker i)) (.setAudio jobID r.segmentIdx.val columns)) o) := by
  obtain ⟨n, hanswer⟩ := exec_done (o := o) (.setAudio jobID r.segmentIdx.val columns)
    hup.1.1.session ⟨_, _, withID_read hid _⟩ hfails
  have hstate := congrArg Prod.snd hanswer
  obtain ⟨hkept, hbusy⟩ := @busy_step s i tag body
    (.exec (some (.worker i)) (.setAudio jobID r.segmentIdx.val columns)) o id .idle (r :: rows)
    ⟨[(o.now, .setAudio jobID r.segmentIdx.val columns)], false⟩ h hup.1 nofun nofun rfl rfl
    (by rw [hstate]; exact ⟨rfl, rfl, rfl, rfl⟩) (by rw [hstate]; rfl)
    (by rw [hstate]; exact gateway.session_set _ _ _)
  refine ⟨hkept, n, o.now, congrArg Prod.fst hanswer, hbusy, ?_⟩
  change (services.answer o s.state _).2.objects _ = _
  rw [hstate]
  exact hup.2

/-- The columns of the segment fit the clip: the text is the new one, or the row keeps what it has. -/
structure Fits (jobID : String) (r : TranscriptSegment) (clip : Clip) (columns : AudioColumns) :
    Prop where
  path : columns.audioPath = tts.audioKey jobID r.segmentIdx.val
  kept : columns.text = none → clip.spoken = strip r.text.val
  written : ∀ t, columns.text = some t → t.val = clip.spoken ∧ strip t.val = t.val

section Record

open edited_segments (writeAudio writeAudio_keeps)

variable {columns : AudioColumns} {row : TranscriptSegment}

theorem writeAudio_here (hjob : row.jobID = id) (hidx : row.segmentIdx.val = r.segmentIdx.val) :
    writeAudio id r.segmentIdx.val columns row = columns.write row := by
  unfold writeAudio
  exact if_pos (by simp [hjob, hidx])

theorem writeAudio_elsewhere (hidx : row.segmentIdx.val ≠ r.segmentIdx.val) :
    writeAudio id r.segmentIdx.val columns row = row := by
  unfold writeAudio
  exact if_neg (by simp [hidx])

theorem writeAudio_touched (hid : uuidIn jobID = some id) (hfits : Fits jobID r clip columns)
    (row : TranscriptSegment) : Touched id row (writeAudio id r.segmentIdx.val columns row) := by
  unfold writeAudio
  split
  · rename_i hhere
    simp only [Bool.and_eq_true, decide_eq_true_eq] at hhere
    refine ⟨fun hne => absurd hhere.1 hne, rfl, rfl, fun hproper => ⟨?_, ?_, hproper.finite⟩⟩
    · change strip (columns.text.getD row.text).val = (columns.text.getD row.text).val
      cases htext : columns.text with
      | none => exact hproper.trimmed
      | some t => exact (hfits.written t htext).2
    · refine Or.inr ⟨jobID, hhere.1 ▸ hid, ?_⟩
      change columns.audioPath = tts.audioKey jobID row.segmentIdx.val
      rw [hhere.2]
      exact hfits.path
  · exact Touched.refl id row

/-- One segment less is left. -/
theorem left_written {t t' : System} (hleft : Left id (r :: rows) t)
    (hproper : ∀ row ∈ t.db.segments, Proper row)
    (hstored : t.objects (tts.audioKey jobID r.segmentIdx.val) = some (.clip clip))
    (hfits : Fits jobID r clip columns) (hdistinct : ∀ r' ∈ rows, r.segmentIdx.val ≠ r'.segmentIdx.val)
    (hrows : t'.db.segments = t.db.segments.map (writeAudio id r.segmentIdx.val columns))
    (hobjects : t'.objects = t.objects) : Left id rows t' := by
  refine ⟨fun r' hr' row' hrow' hjob hidx => ?_, fun row' hrow' hjob hlisted => ?_⟩
  all_goals
    rw [hrows] at hrow'
    obtain ⟨row, hrow, rfl⟩ := List.mem_map.mp hrow'
    obtain ⟨hsamejob, hsameidx⟩ := writeAudio_keeps id r.segmentIdx.val columns row
    rw [hsamejob] at hjob
  · rw [hsameidx] at hidx
    rw [writeAudio_elsewhere (hidx ▸ (hdistinct r' hr').symm)]
    exact hleft.told r' (List.mem_cons_of_mem r hr') row hrow hjob hidx
  · rw [hsameidx] at hlisted
    by_cases hidx : row.segmentIdx.val = r.segmentIdx.val
    · rw [writeAudio_here hjob hidx]
      intro _
      refine ⟨clip, ?_, ?_⟩
      · rw [hobjects]
        change t.objects columns.audioPath = _
        rw [hfits.path]
        exact hstored
      · change clip.spoken = (columns.text.getD row.text).val
        cases htext : columns.text with
        | none =>
          have hsame := hleft.told r List.mem_cons_self row hrow hjob hidx
          rw [hfits.kept htext, ← hsame]
          exact (hproper row hrow).trimmed
        | some newText => exact (hfits.written newText htext).1.symm
    · rw [writeAudio_elsewhere hidx]
      intro hpath
      rw [hobjects]
      exact hleft.spoken row hrow hjob (List.forall_mem_cons.mpr ⟨hidx, hlisted⟩) hpath

/-- The text that is replaced is the one of the message. -/
theorem written_lawful (h : custody.sound s) (hbusy : Busy i tag body id session (r :: rows) s)
    (htells : Tells body r.segmentIdx.val r.text.val)
    (hrows : (services.answer o s.state c).2.db.segments =
      s.state.db.segments.map (writeAudio id r.segmentIdx.val columns)) :
    Lawful i s (s.after services i c o) := by
  intro e _ _ row hrow row' hrow' hjob hidx htext
  refine ⟨body, hbusy.1.last, ?_⟩
  have hrow' : row' ∈ (services.answer o s.state c).2.db.segments := hrow'
  rw [hrows] at hrow'
  obtain ⟨row₀, hrow₀, rfl⟩ := List.mem_map.mp hrow'
  obtain ⟨hsamejob, hsameidx⟩ := writeAudio_keeps id r.segmentIdx.val columns row₀
  obtain rfl : row₀ = row := distinct_row h.1.distinct hrow₀ hrow (hsamejob ▸ hjob) (hsameidx ▸ hidx)
  by_cases hhere : row₀.jobID = id ∧ row₀.segmentIdx.val = r.segmentIdx.val
  · rw [hhere.2, hbusy.2.told r List.mem_cons_self row₀ hrow₀ hhere.1 hhere.2]
    exact htells
  · refine absurd ?_ htext
    unfold writeAudio
    rw [if_neg (by simpa using hhere)]

/-- The row of the segment is written, and one segment less is left. -/
theorem record_kept {now : Nat} (h : custody.sound s) (hid : uuidIn jobID = some id)
    (hfits : Fits jobID r clip columns) (htells : Tells body r.segmentIdx.val r.text.val)
    (hdistinct : ∀ r' ∈ rows, r.segmentIdx.val ≠ r'.segmentIdx.val)
    (hup : Uploaded i tag body jobID id ⟨[(now, .setAudio jobID r.segmentIdx.val columns)], false⟩ r
      rows clip s) (hfails : o.fails = false) :
    custody.Kept i s (s.after services i (.commit (.worker i)) o) ∧
      (services.answer o s.state (.commit (.worker i))).1 = .ok () ∧
      Busy i tag body id .idle rows (s.after services i (.commit (.worker i)) o) := by
  have hexec : s.state.db.exec now (.setAudio jobID r.segmentIdx.val columns) =
      .ok (s.state.db.updateSegments (fun row => row.jobID = id && row.segmentIdx.val = r.segmentIdx.val)
        columns.write) := withID_read hid _
  have hanswer := commit_done hup.1.1.session hfails
  have hstate := congrArg Prod.snd hanswer
  have hrows : (services.answer o s.state (.commit (.worker i))).2.db.segments =
      s.state.db.segments.map (writeAudio id r.segmentIdx.val columns) := by
    rw [hstate]
    exact commit_segments hup.1.1.session hexec
  have hobjects : (services.answer o s.state (.commit (.worker i))).2.objects = s.state.objects := by
    rw [hstate]
    rfl
  have hbeside : Beside id s.state (services.answer o s.state (.commit (.worker i))).2 := by
    refine ⟨?_, fun _ _ _ _ _ => ?_, ?_, ?_⟩
    · rw [hrows, List.forall₂_map_right_iff]
      exact List.forall₂_same.mpr fun row _ => writeAudio_touched hid hfits row
    · rw [hobjects]
    · rw [hstate]
      rfl
    · rw [hstate]
      rfl
  refine ⟨beside_kept h hup.1.1 nofun nofun rfl rfl hbeside ?_
      (written_lawful h hup.1 htells hrows), congrArg Prod.fst hanswer,
    at_after hup.1.1 ?_ nofun rfl hbeside.settled,
    left_written hup.1.2 h.1.proper hup.2 hfits hdistinct hrows hobjects⟩
  · rw [hstate]
    rfl
  · rw [hstate]
    exact gateway.session_set _ _ _

/-- The statement and its commit. -/
theorem record_tries (hid : uuidIn jobID = some id) (hfits : Fits jobID r clip columns)
    (htells : Tells body r.segmentIdx.val r.text.val)
    (hdistinct : ∀ r' ∈ rows, r.segmentIdx.val ≠ r'.segmentIdx.val)
    (hs : custody.sound s ∧ Uploaded i tag body jobID id .idle r rows clip s) :
    tries services OneByOne (custody.pact services) i (do
      let _ ← sql (ask (.exec (some (.worker i)) (.setAudio jobID r.segmentIdx.val columns)))
      sql (ask (.commit (.worker i))) : Py Unit)
      (fun _ _ => False) (fun _ s => custody.sound s ∧ Busy i tag body id .idle rows s) s := by
  apply tries_bind
  apply tries_orGiveUp
  have hexec := Custody.safe_call (w := services) (E := OneByOne)
    (c := .exec (some (.worker i)) (.setAudio jobID r.segmentIdx.val columns))
    (Q := fun x s => ∃ n now, x = .ok n ∧ Uploaded i tag body jobID id
      ⟨[(now, .setAudio jobID r.segmentIdx.val columns)], false⟩ r rows clip s)
    (uploaded_stable hid .idle clip) ?_ ?_ hs
  · refine safe_mono hexec ?_
    rintro x s ⟨hsound, n, now, rfl, hup⟩
    have hcommit := Custody.safe_call (w := services) (E := OneByOne) (c := .commit (.worker i))
      (Q := fun x s => x = .ok () ∧ Busy i tag body id .idle rows s)
      (uploaded_stable hid _ clip) ?_ ?_ ⟨hsound, hup⟩
    · apply tries_orGiveUp
      refine safe_mono hcommit ?_
      rintro x s ⟨hsound, rfl, hbusy⟩
      exact ⟨hsound, hbusy⟩
    · intro x s s' hsound hlater hspared hx
      exact ⟨hx.1, busy_stable i tag body id .idle rows s s' hsound hlater hspared hx.2⟩
    · intro s o hsound hup ho
      exact record_kept hsound hid hfits htells hdistinct hup (ho.1.succeeds trivial)
  · intro x s s' hsound hlater hspared hx
    obtain ⟨n, now, hn, hup⟩ := hx
    exact ⟨n, now, hn, uploaded_stable hid _ clip s s' hsound hlater hspared hup⟩
  · intro s o hsound hup ho
    exact exec_kept hsound hid hup (ho.1.succeeds trivial)

/-- `_update_segment_record` writes the row. -/
theorem update_tries {flagged : Bool} {words : List PgWord} {finalText : Option Text}
    (hid : uuidIn jobID = some id) (hkept : finalText = none → clip.spoken = strip r.text.val)
    (hwritten : ∀ t, finalText = some t → clip.spoken = t ∧ strip t = t ∧ (PgText.of t).isSome)
    (htells : Tells body r.segmentIdx.val r.text.val)
    (hdistinct : ∀ r' ∈ rows, r.segmentIdx.val ≠ r'.segmentIdx.val)
    (hs : custody.sound s ∧ Uploaded i tag body jobID id .idle r rows clip s) :
    tries services OneByOne (custody.pact services) i
      (tts.updateSegmentRecord (.worker i) jobID r.segmentIdx.val
        (tts.audioKey jobID r.segmentIdx.val) flagged words finalText)
      (fun _ _ => False) (fun _ s => custody.sound s ∧ Busy i tag body id .idle rows s) s := by
  unfold tts.updateSegmentRecord
  cases finalText with
  | none => exact record_tries hid ⟨rfl, fun _ => hkept rfl, nofun⟩ htells hdistinct hs
  | some t =>
    obtain ⟨hspoken, htrim, hfits⟩ := hwritten t rfl
    obtain ⟨newText, hnewText⟩ := Option.isSome_iff_exists.mp hfits
    have hval := pgText_of hnewText
    dsimp only
    rw [hnewText]
    refine record_tries hid ⟨rfl, nofun, fun t' ht' => ?_⟩ htells hdistinct hs
    obtain rfl := Option.some.inj ht'
    exact ⟨hval.trans hspoken.symm, by rw [hval, htrim]⟩

end Record

/-- A segment of the message is spoken, and its row is written. -/
theorem segment_tries {cfg : tts.Settings} {voice : tts.Voice} {fields : tts.SegmentDict}
    (hid : uuidIn jobID = some id) (hrow : ToldRow r fields)
    (htells : Tells body r.segmentIdx.val r.text.val)
    (hdistinct : ∀ r' ∈ rows, r.segmentIdx.val ≠ r'.segmentIdx.val)
    (hs : custody.sound s ∧ Busy i tag body id .idle (r :: rows) s) :
    tries services OneByOne (custody.pact services) i
      (tts.processSegment cfg (.worker i) jobID voice fields) (fun _ _ => False)
      (fun _ s => custody.sound s ∧ Busy i tag body id .idle rows s) s := by
  have hread : strip (toText cfg.repr ((fields.lookup (text "text")).getD (.str []))) =
      strip r.text.val := by
    rw [hrow.text]
    rfl
  unfold tts.processSegment
  rw [hrow.id, hrow.start, hrow.stop, hread]
  change tries _ _ _ _ (raising (.ok r.segmentIdx.val) >>= fun _ => raising (.ok r.startMs.val) >>=
    fun _ => raising (.ok r.endMs.val) >>= _) _ _ _
  simp only [raising_ok_bind]
  apply tries_bind
  refine tries_mono (iterate_tries _ nofun (strip_strip _) (Or.inl rfl) hs) (fun _ _ h => h) ?_
  rintro it s ⟨hvoiced, hs⟩
  apply tries_bind
  apply tries_orGiveUp
  refine safe_mono (work_safe _ hs) ?_
  rintro x s ⟨hsound, ⟨o, hworks, rfl⟩, hbusy⟩
  have hfit : ∀ n, answerWork o (.fit it.synthesis n) =
      .ok ⟨{ it.synthesis with durationMs := max o.ms 0 }, o.flagged⟩ :=
    fun _ => reply_ok hworks.1 _
  rw [hfit]
  apply tries_bind
  apply tries_orGiveUp
  refine safe_mono (work_safe _ ⟨hsound, hbusy⟩) ?_
  rintro x s ⟨hsound, ⟨o', hworks', rfl⟩, hbusy⟩
  have hwords : ∀ t a b, answerWork o' (.alignWords t a b) = .ok o'.words :=
    fun _ _ _ => reply_ok hworks'.1 _
  rw [hwords]
  apply tries_bind
  apply tries_orGiveUp
  have hupload := Custody.safe_call (w := services) (E := OneByOne)
    (c := .upload (tts.audioKey jobID r.segmentIdx.val)
      (.clip { it.synthesis with durationMs := max o.ms 0 }))
    (Q := fun x s => x = .ok () ∧ Uploaded i tag body jobID id .idle r rows
      { it.synthesis with durationMs := max o.ms 0 } s)
    (busy_stable i tag body id .idle (r :: rows)) ?_ ?_ ⟨hsound, hbusy⟩
  · refine safe_mono hupload ?_
    rintro x s ⟨hsound, rfl, hup⟩
    apply tries_bind
    refine tries_mono (update_tries hid ?_ ?_ htells hdistinct ⟨hsound, hup⟩) (fun _ _ h => h) ?_
    · intro hnone
      change it.synthesis.spoken = strip r.text.val
      rw [hvoiced.spoken]
      split at hnone
      · rename_i hsame
        rw [← hvoiced.trimmed, hsame]
      · cases hnone
    · intro t ht
      split at ht
      · cases ht
      · rename_i hother
        obtain rfl := Option.some.inj ht
        refine ⟨hvoiced.spoken, hvoiced.trimmed, hvoiced.fits.resolve_left fun hsame => hother ?_⟩
        rw [hsame, strip_strip]
    · exact fun _ s hs s' hr => Custody.stable_rely (busy_stable i tag body id .idle rows) hr hs
  · intro x s s' hsound hlater hspared hx
    exact ⟨hx.1, uploaded_stable hid .idle _ s s' hsound hlater hspared hx.2⟩
  · intro s o hsound hbusy ho
    exact upload_kept hsound hbusy hid (ho.1.succeeds trivial)

/-- All segments of the message are spoken, and their rows are written. -/
theorem segments_tries {cfg : tts.Settings} {voice : tts.Voice} {dicts : List tts.SegmentDict}
    (hid : uuidIn jobID = some id) (hrows : List.Forall₂ ToldRow rows dicts)
    (htells : ∀ r ∈ rows, Tells body r.segmentIdx.val r.text.val)
    (hdistinct : rows.Pairwise fun a b => a.segmentIdx.val ≠ b.segmentIdx.val)
    (hs : custody.sound s ∧ Busy i tag body id .idle rows s) :
    tries services OneByOne (custody.pact services) i
      (tts.processSegments cfg (.worker i) jobID voice dicts) (fun _ _ => False)
      (fun _ s => custody.sound s ∧ Busy i tag body id .idle [] s) s := by
  induction hrows generalizing s with
  | nil => exact fun s' hr => Custody.stable_rely (busy_stable i tag body id .idle []) hr hs
  | @cons row fields rows dicts hrow _ ih =>
    obtain ⟨hother, hdistinct⟩ := List.pairwise_cons.mp hdistinct
    obtain ⟨htold, htells⟩ := List.forall_mem_cons.mp htells
    unfold tts.processSegments
    apply tries_bind
    refine tries_mono (segment_tries hid hrow htold hother hs) (fun _ _ h => h) ?_
    intro _ s hs
    apply tries_bind
    refine tries_mono (ih htells hdistinct hs) (fun _ _ h => h) ?_
    exact fun _ s hs s' hr => Custody.stable_rely (busy_stable i tag body id .idle []) hr hs

/-! ## The end of a message -/

/-- The worker moves the job to `synthesized`. -/
theorem stage_tries (hid : uuidIn jobID = some id)
    (hs : custody.sound s ∧ Busy i tag body id .idle rows s) :
    tries services OneByOne (custody.pact services) i (tts.markJobSynthesized (.worker i) jobID)
      (fun _ _ => False) (fun _ s => custody.sound s ∧ Busy i tag body id .idle rows s) s := by
  have hexec : ∀ (db : pipeline.Db) now, db.exec now (.setStage jobID .synthesized) =
      .ok (db.updateJob id ({ · with stage := .synthesized, updatedAt := now })) :=
    fun db now => withID_read hid _
  unfold tts.markJobSynthesized
  apply tries_bind
  apply tries_orGiveUp
  have hstage := Custody.safe_call (w := services) (E := OneByOne)
    (c := .exec (some (.worker i)) (.setStage jobID .synthesized))
    (Q := fun x s => ∃ n now, x = .ok n ∧
      Busy i tag body id ⟨[(now, .setStage jobID .synthesized)], false⟩ rows s)
    (busy_stable i tag body id .idle rows) ?_ ?_ hs
  · refine safe_mono hstage ?_
    rintro x s ⟨hsound, n, now, rfl, hbusy⟩
    have hcommit := Custody.safe_call (w := services) (E := OneByOne) (c := .commit (.worker i))
      (Q := fun x s => x = .ok () ∧ Busy i tag body id .idle rows s)
      (busy_stable i tag body id _ rows) ?_ ?_ ⟨hsound, hbusy⟩
    · apply tries_orGiveUp
      refine safe_mono hcommit ?_
      rintro x s ⟨hsound, rfl, hbusy⟩
      exact ⟨hsound, hbusy⟩
    · intro x s s' hsound hlater hspared hx
      exact ⟨hx.1, busy_stable i tag body id .idle rows s s' hsound hlater hspared hx.2⟩
    · intro s o hsound hbusy ho
      have hanswer := commit_done hbusy.1.session (ho.1.succeeds trivial)
      have hstate := congrArg Prod.snd hanswer
      have hsegments := commit_segments hbusy.1.session (hexec s.state.db now)
      obtain ⟨hkept, hbusy'⟩ := @busy_step s i tag body (.commit (.worker i)) o id _ rows .idle hsound hbusy
        nofun nofun rfl rfl (by rw [hstate]; exact ⟨hsegments, rfl, rfl, rfl⟩) (by rw [hstate]; rfl)
        (by rw [hstate]; exact gateway.session_set _ _ _)
      exact ⟨hkept, congrArg Prod.fst hanswer, hbusy'⟩
  · intro x s s' hsound hlater hspared hx
    obtain ⟨n, now, hn, hbusy⟩ := hx
    exact ⟨n, now, hn, busy_stable i tag body id _ rows s s' hsound hlater hspared hbusy⟩
  · intro s o hsound hbusy ho
    obtain ⟨n, hanswer⟩ := exec_done (o := o) (.setStage jobID .synthesized) hbusy.1.session
      ⟨_, _, hexec s.state.db o.now⟩ (ho.1.succeeds trivial)
    have hstate := congrArg Prod.snd hanswer
    obtain ⟨hkept, hbusy'⟩ := @busy_step s i tag body
      (.exec (some (.worker i)) (.setStage jobID .synthesized)) o id .idle rows
      ⟨[(o.now, .setStage jobID .synthesized)], false⟩ hsound hbusy nofun nofun rfl rfl
      (by rw [hstate]; exact ⟨rfl, rfl, rfl, rfl⟩) (by rw [hstate]; rfl)
      (by rw [hstate]; exact gateway.session_set _ _ _)
    exact ⟨hkept, n, o.now, congrArg Prod.fst hanswer, hbusy'⟩

/-- The message for the mux service. -/
theorem aside_kept {audio : Json} (h : custody.sound s) (hbusy : Busy i tag body id .idle rows s) :
    custody.Kept i s (s.after services i (.publish tts.audioQueue (some audio)) o) ∧
      Busy i tag body id .idle rows
        (s.after services i (.publish tts.audioQueue (some audio)) o) := by
  by_cases hlanded : landed o
  · have hstate : (services.answer o s.state (.publish tts.audioQueue (some audio))).2 =
        { s.state with accepted := s.state.accepted ++ [⟨tts.audioQueue, audio⟩] } := by
      change (if landed o then _ else s.state) = _
      exact if_pos hlanded
    refine ⟨kept_of h nofun (Or.inl rfl) trivial ?_ (by rw [hstate]) (lawful_same h.1 ?_) ?_ ?_,
      at_after hbusy.1 ?_ nofun rfl (by rw [hstate]), ?_⟩
    · have hqueue : tts.audioQueue ≠ tts.transcriptQueue := by decide
      have hhands := @worker_hands s i (.publish tts.audioQueue (some audio)) o hbusy.1.uncommitted
        nofun rfl
      rw [hhands, hstate]
      exact h.1.aside hqueue rfl rfl rfl rfl
    · exact congrArg (fun t => t.db.segments) hstate
    · intro j _ tag' _
      rw [hstate]
    · intro j _ id' _
      rw [hstate]
      exact ⟨rfl, fun _ _ _ => rfl⟩
    · rw [hstate]
      exact hbusy.1.session
    · change Left id rows (services.answer o s.state _).2
      rw [hstate]
      exact ⟨hbusy.2.told, hbusy.2.spoken⟩
  · have hstate : (services.answer o s.state (.publish tts.audioQueue (some audio))).2 = s.state := by
      change (if landed o then _ else s.state) = _
      exact if_neg hlanded
    refine @busy_step s i tag body (.publish tts.audioQueue (some audio)) o id .idle rows .idle h hbusy
      nofun nofun trivial rfl ?_ (by rw [hstate]) (by rw [hstate]; exact hbusy.1.session)
    rw [hstate]
    exact ⟨rfl, rfl, rfl, rfl⟩

/-- A call that changes nothing that the worker knows. -/
theorem quiet_safe (hs : custody.sound s ∧ Busy i tag body id .idle rows s) (hbegin : c ≠ .begin)
    (hc : ∀ n, c ≠ .commit (.tx n)) (hown : deliveries.OwnConn (.worker i) c)
    (hnone : ∀ x : Answer c, taken c x = none)
    (hsame : ∀ o t, (services.answer o t c).2 = t) :
    safe services OneByOne (custody.pact services) i (ask c)
      (fun _ s => custody.sound s ∧ Busy i tag body id .idle rows s) s := by
  have hstable := busy_stable i tag body id .idle rows
  refine Custody.safe_call hstable (fun _ => hstable) (fun s o hsound hbusy _ => ?_) hs
  have hstate := hsame o s.state
  refine busy_step hsound hbusy hbegin hc hown (hnone _) ?_ ?_ ?_
  · rw [hstate]
    exact ⟨rfl, rfl, rfl, rfl⟩
  · rw [hstate]
  · rw [hstate]
    exact hbusy.1.session

/-- What the worker knows of the message: it tells these rows. -/
structure Told (body : Json) (jobID id : String) (rows : List TranscriptSegment) : Prop where
  encoded : ∃ job, (gateway.transcriptMessage jobID job rows).encode TranscriptPayload.encode = some body
  named : uuidIn jobID = some id
  distinct : rows.Pairwise fun a b => a.segmentIdx.val ≠ b.segmentIdx.val

/-- All rows of the job are spoken when the message is worked off. -/
theorem message_tries {cfg : tts.Settings} (htold : Told body jobID id rows)
    (hs : custody.sound s ∧ Busy i tag body id .idle rows s) :
    tries services OneByOne (custody.pact services) i (tts.processMessage cfg (.worker i) body)
      (fun _ s => custody.sound s ∧ Busy i tag body id .idle [] s)
      (fun _ s => custody.sound s ∧ Busy i tag body id .idle [] s) s := by
  obtain ⟨job, hencode⟩ := htold.encoded
  obtain ⟨dicts, hdicts, ⟨hjob, ⟨traceID, htrace⟩, payload, voice, hpayload, hvoice, hids, hselect⟩, htells⟩ :=
    message_read cfg (.worker i) htold.named hencode
  have hstable := busy_stable i tag body id .idle []
  unfold tts.processMessage
  rw [hjob, raising_ok_bind, htrace, raising_ok_bind, hpayload, raising_ok_bind]
  dsimp only
  rw [hvoice, raising_ok_bind, hselect, raising_ok_bind]
  apply tries_bind
  cases hdicts with
  | nil => exact fun s' hr => Custody.stable_rely hstable hr hs
  | @cons row fields rows dicts hrow hrows =>
    intro s hr
    have hs := Custody.stable_rely (busy_stable i tag body id .idle (row :: rows)) hr hs
    rw [hids, raising_ok_bind]
    apply tries_bind
    refine tries_mono (segments_tries htold.named (.cons hrow hrows) htells htold.distinct hs)
      (fun _ _ h => h.elim) ?_
    intro ids s hs
    apply tries_bind
    refine tries_mono (stage_tries htold.named hs) (fun _ _ h => h.elim) ?_
    intro _ s hs
    apply tries_bind
    apply tries_lift
    refine safe_mono (quiet_safe hs nofun nofun trivial (fun _ => rfl) fun _ _ => rfl) ?_
    intro attemptID s hs
    apply tries_bind
    apply tries_orGiveUp
    have hpublish := Custody.safe_call (w := services) (E := OneByOne)
      (c := .publish tts.audioQueue
        (some (tts.audioMessage jobID traceID attemptID ids voice.voiceID false)))
      (Q := fun _ s => Busy i tag body id .idle [] s) hstable (fun _ => hstable)
      (fun s o hsound hbusy _ => aside_kept hsound hbusy) hs
    refine safe_mono hpublish ?_
    intro x s hs
    change Except String Unit at x
    cases x with
    | error e => exact hs
    | ok u =>
      apply tries_orGiveUp
      refine safe_mono (quiet_safe hs nofun nofun trivial (fun _ => rfl) fun _ _ => rfl) ?_
      intro x s hs
      change Except String Unit at x
      cases x with
      | error e => exact hs
      | ok u => exact hs

/-! ## The rounds -/

/-- The worker is between two messages. -/
structure Resting (i : Nat) (s : Snap) : Prop where
  session : s.state.sessions (.worker i) = .idle
  uncommitted : ∀ k n, (⟨k, .commit (.tx n), .ok ()⟩ : Event Call Answer) ∉ s.own i

theorem resting_stable (i : Nat) : custody.Stable i (Resting i) := by
  intro s s' _ hlater hspared h
  refine ⟨(hspared.sessions (.worker i) (Or.inl rfl)).trans h.session, ?_⟩
  rw [hlater.own]
  exact h.uncommitted

/-- All rows of the message are spoken, unless it is settled. -/
structure Leaving (i tag : Nat) (s : Snap) : Prop extends Resting i s where
  held : Held (s.own i) tag
  spoken : ∀ body, Unsettled s.state tag body → ∀ row ∈ s.state.db.segments,
    jobOf tts.transcriptQueue body = some row.jobID → Spoken s.state row

theorem Busy.leaving (h : Busy i tag body id .idle [] s) : Leaving i tag s := by
  obtain ⟨hat, hleft⟩ := h
  refine ⟨⟨hat.session, hat.uncommitted⟩, hat.held, fun body' hbody' row hrow hjob => ?_⟩
  obtain ⟨-, rfl⟩ := Envelope.mk.inj (Option.some.inj (hbody'.1.symm.trans hat.message.1))
  obtain rfl := Option.some.inj (hat.job.symm.trans hjob)
  exact hleft.spoken row hrow rfl fun _ hr => absurd hr List.not_mem_nil

theorem leaving_stable (i tag : Nat) : custody.Stable i (Leaving i tag) := by
  intro s s' hsound hlater hspared h
  have hheld : Held (s'.own i) tag := by
    rw [hlater.own]
    exact h.held
  refine ⟨resting_stable i s s' hsound hlater hspared h.toResting, hheld, fun body hbody row hrow hjob => ?_⟩
  have hbefore : Unsettled s.state tag body := by
    obtain ⟨more, hmore⟩ := hspared.accepted
    refine ⟨?_, fun htag => hbody.2 ((hspared.settled tag h.held).mpr htag)⟩
    rw [← hbody.1, ← hmore, List.getElem?_append_left (hsound.1.known i tag h.held)]
  have hpart := hspared.part row.jobID (Or.inr ⟨tag, body, h.held, hbefore, hjob⟩)
  have hrow' := (rows_same hpart rfl).mp hrow
  exact spoken_same hpart (hsound.1.proper row hrow') rfl (h.spoken body hbefore row hrow' hjob)

/-- The message is settled, or the worker keeps it. -/
theorem settle_kept (hc : c = .ack tag ∨ c = .nack tag false) (h : custody.sound s)
    (hleaving : Leaving i tag s) :
    custody.Kept i s (s.after services i c o) ∧ Leaving i tag (s.after services i c o) := by
  have hcases : (services.answer o s.state c).2 = s.state ∨
      (services.answer o s.state c).2 = { s.state with settled := tag :: s.state.settled } := by
    rcases hc with rfl | rfl
    · change (if landed o then _ else s.state) = _ ∨ (if landed o then _ else s.state) = _
      split
      · exact Or.inr rfl
      · exact Or.inl rfl
    · change (if landed o && true then _ else s.state) = _ ∨ (if landed o && true then _ else s.state) = _
      split
      · exact Or.inr rfl
      · exact Or.inl rfl
  have hbegin : c ≠ .begin := by rcases hc with rfl | rfl <;> exact nofun
  have hcommit : ∀ n, c ≠ .commit (.tx n) := by rcases hc with rfl | rfl <;> exact nofun
  have hown : deliveries.OwnConn (.worker i) c := by rcases hc with rfl | rfl <;> trivial
  have hnone : taken c (services.answer o s.state c).1 = none := by rcases hc with rfl | rfl <;> rfl
  have hhands := worker_hands hleaving.uncommitted hcommit hnone
  have hresting : Resting i (s.after services i c o) := by
    refine ⟨?_, uncommitted_after hleaving.uncommitted hcommit⟩
    change (services.answer o s.state c).2.sessions _ = _
    rcases hcases with hstate | hstate <;> rw [hstate] <;> exact hleaving.session
  have hheld : Held ((s.after services i c o).own i) tag :=
    (held_after s i c o i tag).mpr (Or.inl hleaving.held)
  rcases hcases with hstate | hstate
  · refine ⟨kept_same h hbegin (Or.inl rfl) hown hhands ?_ (by rw [hstate]), hresting, hheld, ?_⟩
    · rw [hstate]
      exact ⟨rfl, rfl, rfl, rfl⟩
    · intro body hbody row hrow hjob
      change Unsettled (services.answer o s.state c).2 tag body at hbody
      change row ∈ (services.answer o s.state c).2.db.segments at hrow
      change Spoken (services.answer o s.state c).2 row
      rw [hstate] at hbody hrow ⊢
      exact hleaving.spoken body hbody row hrow hjob
  · refine ⟨kept_of h hbegin (Or.inl rfl) hown ?_ (by rw [hstate]) (lawful_same h.1 ?_) ?_ ?_, hresting,
      hheld, ?_⟩
    · rw [hhands, hstate]
      exact h.1.settle (h.1.known i tag hleaving.held) hleaving.spoken rfl rfl rfl rfl
    · exact congrArg (fun t => t.db.segments) hstate
    · intro j hj tag' hheld'
      have hother : tag' ≠ tag := by
        rintro rfl
        exact hj (h.1.holder j i tag' hheld' hleaving.held)
      rw [hstate, List.mem_cons]
      exact or_iff_right hother
    · intro j _ id' _
      rw [hstate]
      exact ⟨rfl, fun _ _ _ => rfl⟩
    · intro body hbody
      change Unsettled (services.answer o s.state c).2 tag body at hbody
      rw [hstate] at hbody
      exact absurd List.mem_cons_self hbody.2

theorem settle_safe (hc : c = .ack tag ∨ c = .nack tag false)
    (hs : custody.sound s ∧ Leaving i tag s) :
    safe services OneByOne (custody.pact services) i (ask c)
      (fun _ s => custody.sound s ∧ Leaving i tag s) s :=
  Custody.safe_call (leaving_stable i tag) (fun _ => leaving_stable i tag)
    (fun _ _ hsound hleaving _ => settle_kept hc hsound hleaving) hs

/-- One message. -/
theorem serve_safe (cfg : tts.Settings) (htold : Told body jobID id rows)
    (hs : custody.sound s ∧ Busy i tag body id .idle rows s) :
    safe services OneByOne (custody.pact services) i (tts.serve cfg (.worker i) tag body)
      (fun _ s => custody.sound s ∧ Resting i s) s := by
  have hround : tries services OneByOne (custody.pact services) i
      (tts.processMessage cfg (.worker i) body *> must (ask (.ack tag)))
      (fun _ s => custody.sound s ∧ Leaving i tag s) (fun _ s => custody.sound s ∧ Leaving i tag s)
      s := by
    apply tries_bind
    refine tries_mono (message_tries htold hs) (fun _ s hs => ⟨hs.1, hs.2.leaving⟩) ?_
    intro _ s hs
    apply tries_orGiveUp
    refine safe_mono (settle_safe (Or.inl rfl) ⟨hs.1, hs.2.leaving⟩) ?_
    intro x s hs
    change Except String Unit at x
    cases x with
    | error e => exact hs
    | ok u => exact hs
  have hdone : ∀ {s : Snap} (v : Verdict), custody.sound s ∧ Leaving i tag s →
      safe services OneByOne (custody.pact services) i (.done v)
        (fun _ s => custody.sound s ∧ Resting i s) s := fun v hs s' hr =>
    Custody.stable_rely (resting_stable i) hr ⟨hs.1, hs.2.toResting⟩
  unfold tts.serve
  apply safe_bind
  refine safe_mono hround ?_
  intro x s hs
  cases x with
  | ok u => exact hdone _ hs
  | error e =>
    apply safe_bind
    refine safe_mono (settle_safe (Or.inr rfl) hs) ?_
    exact fun _ s hs => hdone _ hs

/-- A message of the queue is where its tag says. -/
theorem inQueue_accepted {t : System} {queue : String} {msg : Json}
    (h : (t.inQueue queue)[o.pick]? = some (tag, msg)) : t.accepted[tag]? = some ⟨queue, msg⟩ := by
  have hmem := List.mem_of_getElem? h
  unfold System.inQueue at hmem
  simp only [List.mem_map, List.mem_filter, decide_eq_true_eq, Prod.mk.injEq] at hmem
  obtain ⟨⟨e, tag'⟩, ⟨hzip, hqueue⟩, rfl, rfl⟩ := hmem
  have hget := List.mk_mem_zipIdx_iff_getElem?.mp hzip
  cases e
  dsimp only at hqueue ⊢
  rw [← hqueue]
  exact hget

/-- The rows of the message are the rows of the job. -/
theorem carries_told {t : System} (hdistinct : Distinct t.db.segments) (h : Carries t.db id body) :
    ∃ jobID rows, Told body jobID id rows ∧ Left id rows t := by
  obtain ⟨jobID, job, rows, hencode, hid, hperm, -⟩ := h
  have hmem : ∀ row, row ∈ rows ↔ row ∈ t.db.segments ∧ row.jobID = id := by
    intro row
    rw [hperm.mem_iff, List.mem_filter, decide_eq_true_eq]
  have hrows : rows.Pairwise fun a b => a.segmentIdx.val ≠ b.segmentIdx.val := by
    have hfilter := List.Pairwise.filter (fun row => decide (row.jobID = id)) hdistinct
    have hall : (t.db.segments.filter (·.jobID = id)).Pairwise fun a b =>
        a.segmentIdx.val ≠ b.segmentIdx.val := by
      refine List.Pairwise.imp_of_mem (fun ha hb hab => hab ?_) hfilter
      have hboth := And.intro (List.mem_filter.mp ha).2 (List.mem_filter.mp hb).2
      simp only [decide_eq_true_eq] at hboth
      exact hboth.1.trans hboth.2.symm
    exact hperm.symm.pairwise hall fun hab => hab.symm
  refine ⟨jobID, rows, ⟨⟨job, hencode⟩, hid, hrows⟩, fun r hr row hrow hjob hidx => ?_,
    fun row hrow hjob hlisted => ?_⟩
  · obtain ⟨hr, hrjob⟩ := (hmem r).mp hr
    rw [distinct_row hdistinct hrow hr (hjob.trans hrjob.symm) hidx]
  · exact absurd rfl (hlisted row ((hmem row).mpr ⟨hrow, hjob⟩))

/-- What a worker is at after a `receive`. -/
def Fetched (i : Nat) (x : Option (Nat × Json)) (s : Snap) : Prop :=
  match x with
  | none => Resting i s
  | some (tag, body) => ∃ jobID id rows, Told body jobID id rows ∧ Busy i tag body id .idle rows s

theorem fetched_stable (i : Nat) (x : Option (Nat × Json)) : custody.Stable i (Fetched i x) := by
  cases x with
  | none => exact resting_stable i
  | some x =>
    intro s s' hsound hlater hspared h
    obtain ⟨jobID, id, rows, htold, hbusy⟩ := h
    exact ⟨jobID, id, rows, htold, busy_stable i x.1 x.2 id .idle rows s s' hsound hlater hspared hbusy⟩

/-- A message comes into the hands of the worker. -/
theorem receive_kept (h : custody.sound s) (hresting : Resting i s)
    (honce : ∀ tag msg, taken (.receive tts.transcriptQueue)
      (services.answer o s.state (.receive tts.transcriptQueue)).1 = some (tag, msg) →
        tag ∉ s.state.settled ∧ ∀ i, ¬ Held (s.own i) tag) :
    custody.Kept i s (s.after services i (.receive tts.transcriptQueue) o) ∧
      Fetched i (services.answer o s.state (.receive tts.transcriptQueue)).1
        (s.after services i (.receive tts.transcriptQueue) o) := by
  have hafter := @uncommitted_after s i (.receive tts.transcriptQueue) o hresting.uncommitted nofun
  have huse : Uses s i (.worker i) := Or.inl rfl
  generalize hx : (services.answer o s.state (.receive tts.transcriptQueue)).1 = x at honce
  change Option (Nat × Json) at x
  cases x with
  | none =>
    have hhands := @worker_hands s i (.receive tts.transcriptQueue) o hresting.uncommitted nofun hx
    exact ⟨kept_same h nofun huse trivial hhands ⟨rfl, rfl, rfl, rfl⟩ rfl, hresting.session, hafter⟩
  | some x =>
    obtain ⟨tag, body⟩ := x
    obtain ⟨hsettled, hnobody⟩ := honce tag body rfl
    have hbody : Unsettled s.state tag body := ⟨inQueue_accepted hx, hsettled⟩
    obtain ⟨id, hcarries⟩ := h.1.carried tag body hbody hnobody
    obtain ⟨jobID, rows, htold, hleft⟩ := carries_told h.1.distinct hcarries
    have htaken : taken (.receive tts.transcriptQueue)
        (services.answer o s.state (.receive tts.transcriptQueue)).1 = some (tag, body) := hx
    have hheld : ∀ j tag', (hands (s.after services i (.receive tts.transcriptQueue) o)).held j tag' ↔
        (hands s).held j tag' ∨ j = i ∧ tag' = tag := by
      intro j tag'
      refine (held_after s i _ o j tag').trans (or_congr_right (and_congr_right fun _ => ?_))
      rw [htaken]
      constructor
      · rintro ⟨msg, hmsg⟩
        exact (Prod.mk.inj (Option.some.inj hmsg)).1.symm
      · rintro rfl
        exact ⟨body, rfl⟩
    have hediting : (hands (s.after services i (.receive tts.transcriptQueue) o)).editing =
        (hands s).editing := by
      funext j id'
      by_cases hj : j = i
      · subst hj
        exact propext (iff_of_false (uncommitted_not_editing hafter)
          (uncommitted_not_editing hresting.uncommitted))
      · exact propext (editing_other hj)
    have hsound : Sound s.state (hands (s.after services i (.receive tts.transcriptQueue) o)) :=
      h.1.deliver hbody hnobody hediting hheld
    refine ⟨kept_of h nofun huse trivial hsound rfl (lawful_same h.1 rfl) (fun _ _ _ _ => Iff.rfl)
      fun _ _ id' _ => SamePart.refl id' _, jobID, id, rows, htold, ?_, hleft⟩
    have hown := own_after_self services s i (.receive tts.transcriptQueue) o
    refine ⟨hresting.session, hafter, (hheld i tag).mpr (Or.inr ⟨rfl, rfl⟩), hbody, carries_job hcarries, ?_⟩
    rw [hown, lastMessage]
    dsimp only
    rw [htaken]

/-- The worker never leaves a job half done. -/
theorem consume_safe (cfg : tts.Settings) (n : Nat) (hs : custody.sound s ∧ Resting i s) :
    safe services OneByOne (custody.pact services) i (tts.consume cfg (.worker i) n)
      (fun _ s => custody.sound s ∧ Resting i s) s := by
  induction n generalizing s with
  | zero => exact fun s' hr => Custody.stable_rely (resting_stable i) hr hs
  | succ n ih =>
    unfold tts.consume
    apply safe_bind
    have hreceive := Custody.safe_call (w := services) (E := OneByOne)
      (c := .receive tts.transcriptQueue) (Q := Fetched i) (resting_stable i) (fetched_stable i)
      (fun s o hsound hresting ho => receive_kept hsound hresting ho.1.once) hs
    refine safe_mono hreceive ?_
    rintro x s ⟨hsound, hfetched⟩
    change Option (Nat × Json) at x
    cases x with
    | none => exact ih ⟨hsound, hfetched⟩
    | some x =>
      obtain ⟨tag, body⟩ := x
      obtain ⟨jobID, id, rows, htold, hbusy⟩ := hfetched
      apply safe_bind
      exact safe_mono (serve_safe cfg htold ⟨hsound, hbusy⟩) fun _ _ hs => ih hs

end Workers

end recast_rules.spoken_texts
