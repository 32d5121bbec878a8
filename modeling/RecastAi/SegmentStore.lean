-- The table `transcript_segments` and `_store_segments`, which upserts the
-- validated segments of a job in one transaction. The rows are keyed by the
-- numbers that the model chose, and no row is ever deleted: the job has the
-- validated segments in their order where the numbers increase and every
-- stored number is among them.
import Mathlib.Data.List.Sort
import RecastAi.SynthesizedWords

open py_text

namespace recast_rules.transcript

/-! ## The columns -/

/-- A value of an `INT` column. -/
structure PgInt where
  val : Int
  fits : -2147483648 ≤ val ∧ val ≤ 2147483647
deriving DecidableEq

/-- A value of a `BIGINT` column. -/
structure PgBigint where
  val : Int
  fits : -9223372036854775808 ≤ val ∧ val ≤ 9223372036854775807
deriving DecidableEq

/-- The code points that UTF-8 text in a column may have: all but NUL and the surrogates. -/
def storable (c : Nat) : Bool := c != 0 && !(0xD800 ≤ c && c ≤ 0xDFFF)

/-- A value of a `TEXT` column. -/
structure PgText where
  val : Text
  fits : val.all storable = true
deriving DecidableEq

/-- An entry of `words_json`. `JSONB` has the same limits as `TEXT`, and numbers of any size. -/
structure PgWord where
  word : PgText
  startMs : Int
  endMs : Int
deriving DecidableEq

def PgInt.of (n : Int) : Option PgInt :=
  if h : -2147483648 ≤ n ∧ n ≤ 2147483647 then some ⟨n, h⟩ else none

def PgBigint.of (n : Int) : Option PgBigint :=
  if h : -9223372036854775808 ≤ n ∧ n ≤ 9223372036854775807 then some ⟨n, h⟩ else none

def PgText.of (t : Text) : Option PgText :=
  if h : t.all storable = true then some ⟨t, h⟩ else none

def PgWord.of (w : Word) : Option PgWord := (PgText.of w.word).map (⟨·, w.startMs, w.endMs⟩)

/-! ## The table -/

/-- The columns that `_store_segments` writes. -/
structure Stored where
  segmentIdx : PgInt
  startMs : PgBigint
  endMs : PgBigint
  text : PgText
  wordsJson : List PgWord
  confidence : PyFloat
deriving DecidableEq

structure SegmentRow extends Stored where
  id : Nat
  jobID : String
  audioPath : String
  approved : Bool
  flagged : Bool

/-- The jobs, the rows of `transcript_segments`, and the next `uuid4()`. -/
structure Db where
  jobs : List String
  segments : List SegmentRow
  nextID : Nat

def SegmentRow.key (r : SegmentRow) : String × PgInt := (r.jobID, r.segmentIdx)

/-- `UNIQUE(job_id, segment_idx)`. -/
def Db.Keyed (db : Db) : Prop := (db.segments.map SegmentRow.key).Nodup

/-- The validated segment that a row holds. -/
def Stored.segment (c : Stored) : Segment where
  segmentID := c.segmentIdx.val
  startMs := c.startMs.val
  endMs := c.endMs.val
  text := c.text.val
  confidence := c.confidence
  words := c.wordsJson.map fun w => ⟨w.word.val, w.startMs, w.endMs⟩

/-! ## The statements -/

inductive StoreError where
  | dataError
  | foreignKey

/-- The parameters of the statement, where they fit their columns. -/
def bindParams (seg : Segment) : Option Stored :=
  match PgInt.of seg.segmentID, PgBigint.of seg.startMs, PgBigint.of seg.endMs,
    PgText.of seg.text, seg.words.mapM PgWord.of with
  | some segmentIdx, some startMs, some endMs, some text, some wordsJson =>
    some ⟨segmentIdx, startMs, endMs, text, wordsJson, seg.confidence⟩
  | _, _, _, _, _ => none

/-- `INSERT ... ON CONFLICT (job_id, segment_idx) DO UPDATE`. An update keeps the id, the audio
path and the flags of the row. -/
def upsert (jobID : String) (c : Stored) (db : Db) : Except StoreError Db :=
  if db.segments.any fun r => r.key = (jobID, c.segmentIdx) then
    .ok { db with
      segments := db.segments.map fun r =>
        if r.key = (jobID, c.segmentIdx) then { r with toStored := c } else r
      nextID := db.nextID + 1 }
  else if jobID ∈ db.jobs then
    .ok { db with
      segments := db.segments ++ [⟨c, db.nextID, jobID, "", false, false⟩]
      nextID := db.nextID + 1 }
  else .error .foreignKey

/-- The statements of `_store_segments`, all in one transaction. -/
def execSegments (jobID : String) : List Segment → Db → Except StoreError Db
  | [], db => .ok db
  | seg :: segments, db =>
    match bindParams seg with
    | none => .error .dataError
    | some c =>
      match upsert jobID c db with
      | .error e => .error e
      | .ok db => execSegments jobID segments db

/-- The database after `_store_segments`: the transaction commits, or an error ends it and
nothing of it stays. -/
def storeSegments (jobID : String) (segments : List Segment) (db : Db) : Db :=
  match execSegments jobID segments db with
  | .ok db' => db'
  | .error _ => db

/-- `SELECT ... WHERE job_id = $1 ORDER BY segment_idx`. -/
def selectSegments (db : Db) (jobID : String) : List SegmentRow :=
  (db.segments.filter (·.jobID = jobID)).insertionSort
    (fun a b => a.segmentIdx.val ≤ b.segmentIdx.val)

/-! ## What fits -/

/-- The numbers and the text fit their columns. -/
structure Segment.Fits (s : Segment) : Prop where
  segmentID : s.segmentID ≤ 2147483647
  endMs : s.endMs ≤ 9223372036854775807
  text : s.text.all storable = true

/-- The words are pieces of the text. -/
theorem word_of_text {t : Text} {startMs endMs : Int} {words : List Word}
    (h : synthesizeWords t startMs endMs = .ok words) {w : Word} (hw : w ∈ words) :
    ∀ c ∈ w.word, c ∈ t := by
  have hwords : words.map Word.word = split t :=
    wordsWith_words ((synthesizeWith_trueDivInt t startMs endMs).trans h)
  have hmem : w.word ∈ split t := hwords ▸ List.mem_map_of_mem hw
  exact (mem_split hmem).2

theorem mapM_some {α β : Type} {f : α → Option β} {l : List α} (h : ∀ a ∈ l, (f a).isSome) :
    (l.mapM f).isSome := by
  induction l with
  | nil => rfl
  | cons a l ih =>
    obtain ⟨b, hb⟩ := Option.isSome_iff_exists.mp (h a List.mem_cons_self)
    obtain ⟨bs, hbs⟩ := Option.isSome_iff_exists.mp (ih fun x hx => h x (List.mem_cons_of_mem _ hx))
    simp [List.mapM_cons, hb, hbs]

theorem map_of_mapM {α β : Type} {f : α → Option β} {g : β → α} (hg : ∀ a b, f a = some b → g b = a)
    {l : List α} {bs : List β} (h : l.mapM f = some bs) : bs.map g = l := by
  induction l generalizing bs with
  | nil =>
    obtain rfl := Option.some.inj h
    rfl
  | cons a l ih =>
    simp only [List.mapM_cons, Option.pure_def, Option.bind_eq_bind, Option.bind_eq_some_iff,
      Option.some.injEq] at h
    obtain ⟨b, hb, bs', hbs, rfl⟩ := h
    rw [List.map_cons, hg a b hb, ih hbs]

theorem bindParams_segment {seg : Segment} {c : Stored} (h : bindParams seg = some c) :
    c.segment = seg := by
  unfold bindParams at h
  split at h
  · rename_i segmentIdx startMs endMs t wordsJson hid hstart hend ht hw
    obtain rfl := Option.some.inj h
    have hid' : segmentIdx.val = seg.segmentID := by
      unfold PgInt.of at hid
      split at hid
      · obtain rfl := Option.some.inj hid
        rfl
      · cases hid
    have hbig : ∀ {n : Int} {x}, PgBigint.of n = some x → x.val = n := by
      intro n x hx
      unfold PgBigint.of at hx
      split at hx
      · obtain rfl := Option.some.inj hx
        rfl
      · cases hx
    have htext : ∀ {t : Text} {x}, PgText.of t = some x → x.val = t := by
      intro t x hx
      unfold PgText.of at hx
      split at hx
      · obtain rfl := Option.some.inj hx
        rfl
      · cases hx
    have hwords : wordsJson.map (fun w => (⟨w.word.val, w.startMs, w.endMs⟩ : Word)) = seg.words := by
      refine map_of_mapM (fun w pw hpw => ?_) hw
      obtain ⟨x, hx, rfl⟩ := Option.map_eq_some_iff.mp hpw
      simp [htext hx]
    simp only [Stored.segment, hid', hbig hstart, hbig hend, htext ht, hwords]
  · cases h

/-- A row holds only what fits. -/
theorem segment_fits (c : Stored) : c.segment.Fits :=
  ⟨c.segmentIdx.fits.2, c.endMs.fits.2, c.text.fits⟩

theorem bindParams_some {durationMs : Option Int} {prevEndMs : Int} {seg : Segment}
    (hc : seg.Checked durationMs prevEndMs) (hf : seg.Fits) : ∃ c, bindParams seg = some c := by
  have hid : -2147483648 ≤ seg.segmentID ∧ seg.segmentID ≤ 2147483647 :=
    ⟨by have := hc.positive; omega, hf.segmentID⟩
  have hstart : -9223372036854775808 ≤ seg.startMs ∧ seg.startMs ≤ 9223372036854775807 := by
    have := hc.start
    have := hc.ordered
    have := hf.endMs
    omega
  have hend : -9223372036854775808 ≤ seg.endMs ∧ seg.endMs ≤ 9223372036854775807 := by
    have := hc.start
    have := hc.ordered
    have := hf.endMs
    omega
  have hwords : (seg.words.mapM PgWord.of).isSome := by
    refine mapM_some fun w hw => ?_
    have hall : w.word.all storable = true := by
      rw [List.all_eq_true]
      exact fun x hx => List.all_eq_true.mp hf.text x (word_of_text hc.words hw x hx)
    simp [PgWord.of, PgText.of, hall]
  obtain ⟨wordsJson, hw⟩ := Option.isSome_iff_exists.mp hwords
  refine ⟨⟨⟨_, hid⟩, ⟨_, hstart⟩, ⟨_, hend⟩, ⟨_, hf.text⟩, wordsJson, seg.confidence⟩, ?_⟩
  simp only [bindParams, PgInt.of, PgBigint.of, PgText.of, dif_pos hid, dif_pos hstart,
    dif_pos hend, dif_pos hf.text, hw]

/-! ## The upserts -/

def Db.keys (db : Db) : List (String × PgInt) := db.segments.map SegmentRow.key

theorem keys_update (jobID : String) (c : Stored) (rows : List SegmentRow) :
    (rows.map fun r => if r.key = (jobID, c.segmentIdx) then { r with toStored := c } else r).map
      SegmentRow.key = rows.map SegmentRow.key := by
  rw [List.map_map]
  apply List.map_congr_left
  intro r _
  simp only [Function.comp_apply]
  split
  · rename_i hk
    obtain ⟨hj, hi⟩ := Prod.mk.inj hk
    simp [SegmentRow.key, hi]
  · rfl

/-- What an upsert does to the keys and the rows. -/
structure Upserted (jobID : String) (c : Stored) (db db' : Db) : Prop where
  jobs : db'.jobs = db.jobs
  keyed : db.Keyed → db'.Keyed
  keys : ∀ k, k ∈ db'.keys ↔ k ∈ db.keys ∨ k = (jobID, c.segmentIdx)
  rows : ∀ r ∈ db'.segments, (r ∈ db.segments ∧ r.key ≠ (jobID, c.segmentIdx)) ∨
    (r.key = (jobID, c.segmentIdx) ∧ r.toStored = c)

theorem upsert_ok {jobID : String} {c : Stored} {db db' : Db} (h : upsert jobID c db = .ok db') :
    Upserted jobID c db db' := by
  unfold upsert at h
  split at h
  · rename_i hany
    obtain rfl := Except.ok.inj h
    obtain ⟨r₀, hr₀, hk₀⟩ := List.any_eq_true.mp hany
    have hmem : (jobID, c.segmentIdx) ∈ db.keys := of_decide_eq_true hk₀ ▸ List.mem_map_of_mem hr₀
    refine ⟨rfl, fun hn => ?_, fun k => ?_, fun r hr => ?_⟩
    · simpa only [Db.Keyed, keys_update] using hn
    · simp only [Db.keys, keys_update]
      exact ⟨Or.inl, fun hk => hk.elim id fun hk => hk ▸ hmem⟩
    · obtain ⟨r₁, hr₁, rfl⟩ := List.mem_map.mp hr
      split
      · rename_i hk
        exact Or.inr ⟨by simp [SegmentRow.key, (Prod.mk.inj hk).1], rfl⟩
      · exact Or.inl ⟨hr₁, ‹_›⟩
  · rename_i hany
    have hnew : (jobID, c.segmentIdx) ∉ db.keys := by
      intro hk
      obtain ⟨r, hr, hkey⟩ := List.mem_map.mp hk
      exact hany (List.any_eq_true.mpr ⟨r, hr, decide_eq_true hkey⟩)
    split at h
    · obtain rfl := Except.ok.inj h
      refine ⟨rfl, fun hn => ?_, fun k => ?_, fun r hr => ?_⟩
      · simp only [Db.Keyed, List.map_append, List.map_cons, List.map_nil, SegmentRow.key]
        refine List.nodup_append.mpr ⟨hn, List.nodup_singleton _, ?_⟩
        rintro k hk k' hk' rfl
        exact hnew (List.mem_singleton.mp hk' ▸ hk)
      · simp [Db.keys, SegmentRow.key]
      · rcases List.mem_append.mp hr with hr | hr
        · refine Or.inl ⟨hr, fun hk => hnew (hk ▸ List.mem_map_of_mem hr)⟩
        · obtain rfl := List.mem_singleton.mp hr
          exact Or.inr ⟨rfl, rfl⟩
    · cases h

theorem upsert_some {jobID : String} (c : Stored) {db : Db} (h : jobID ∈ db.jobs) :
    ∃ db', upsert jobID c db = .ok db' := by
  unfold upsert
  split
  · exact ⟨_, rfl⟩
  · exact ⟨_, rfl⟩

/-- What the statements make of the rows of the job. -/
structure Filled (jobID : String) (segments : List Segment) (db db' : Db) : Prop where
  keyed : db'.Keyed
  kept : ∀ k ∈ db.keys, k ∈ db'.keys
  present : ∀ s ∈ segments, ∃ r ∈ db'.segments, r.jobID = jobID ∧ r.segmentIdx.val = s.segmentID
  rows : ∀ r ∈ db'.segments, r.jobID = jobID →
    r ∈ db.segments ∧ (∀ s ∈ segments, s.segmentID ≠ r.segmentIdx.val) ∨
      r.toStored.segment ∈ segments
  fits : ∀ s ∈ segments, s.Fits

theorem row_of_key {db : Db} {jobID : String} {i : PgInt} (h : (jobID, i) ∈ db.keys) :
    ∃ r ∈ db.segments, r.jobID = jobID ∧ r.segmentIdx.val = i.val := by
  obtain ⟨r, hr, hk⟩ := List.mem_map.mp h
  obtain ⟨hj, hi⟩ := Prod.mk.inj hk
  exact ⟨r, hr, hj, congrArg PgInt.val hi⟩

theorem execSegments_ok {jobID : String} {segments : List Segment} {db db' : Db}
    (hk : db.Keyed) (h : execSegments jobID segments db = .ok db') :
    Filled jobID segments db db' := by
  induction segments generalizing db with
  | nil =>
    obtain rfl := Except.ok.inj h
    exact ⟨hk, fun _ hk => hk, nofun, fun r hr _ => Or.inl ⟨hr, nofun⟩, nofun⟩
  | cons seg segments ih =>
    unfold execSegments at h
    split at h
    · cases h
    · rename_i c hc
      split at h
      · cases h
      · rename_i db₁ hup
        have hups := upsert_ok hup
        have hseg := bindParams_segment hc
        have hfill := ih (hups.keyed hk) h
        refine ⟨hfill.keyed, fun k hkey => hfill.kept k ((hups.keys k).mpr (Or.inl hkey)), ?_, ?_, ?_⟩
        · intro s hs
          rcases List.mem_cons.mp hs with rfl | hs
          · obtain ⟨r, hr, hj, hi⟩ := row_of_key (hfill.kept _ ((hups.keys _).mpr (Or.inr rfl)))
            exact ⟨r, hr, hj, hi.trans (congrArg Segment.segmentID hseg)⟩
          · exact hfill.present s hs
        · intro r hr hj
          rcases hfill.rows r hr hj with ⟨hr₁, hne⟩ | hmem
          · rcases hups.rows r hr₁ with ⟨hr₀, hkey⟩ | ⟨-, hcols⟩
            · refine Or.inl ⟨hr₀, fun s hs => ?_⟩
              rcases List.mem_cons.mp hs with rfl | hs
              · -- the row has another key, so it has another number
                intro hid
                refine hkey (Prod.ext hj ?_)
                have hval : c.segmentIdx.val = r.segmentIdx.val :=
                  (congrArg Segment.segmentID hseg).trans hid
                cases hi : c.segmentIdx
                cases hi' : r.segmentIdx
                simp_all [SegmentRow.key]
              · exact hne s hs
            · exact Or.inr (by rw [hcols, hseg]; exact List.mem_cons_self)
          · exact Or.inr (List.mem_cons_of_mem _ hmem)
        · intro s hs
          rcases List.mem_cons.mp hs with rfl | hs
          · exact hseg ▸ segment_fits c
          · exact hfill.fits s hs

theorem execSegments_some {jobID : String} {durationMs : Option Int} {prevEndMs : Int}
    {segments : List Segment} {db : Db} (hj : jobID ∈ db.jobs)
    (hc : ∀ s ∈ segments, s.Checked durationMs prevEndMs) (hf : ∀ s ∈ segments, s.Fits) :
    ∃ db', execSegments jobID segments db = .ok db' := by
  induction segments generalizing db with
  | nil => exact ⟨db, rfl⟩
  | cons seg segments ih =>
    obtain ⟨c, hbind⟩ := bindParams_some (hc seg List.mem_cons_self) (hf seg List.mem_cons_self)
    obtain ⟨db₁, hup⟩ := upsert_some c hj
    have hj₁ : jobID ∈ db₁.jobs := (upsert_ok hup).jobs ▸ hj
    obtain ⟨db', h⟩ := ih hj₁ (fun s hs => hc s (List.mem_cons_of_mem _ hs))
      (fun s hs => hf s (List.mem_cons_of_mem _ hs))
    exact ⟨db', by simp only [execSegments, hbind, hup, h]⟩

/-! ## The law -/

/-- The rows of the job, in the order of the readers, are the validated segments. -/
def Lists (db : Db) (jobID : String) (segments : List Segment) : Prop :=
  (selectSegments db jobID).map (fun r => r.toStored.segment) = segments

theorem mem_selectSegments {db : Db} {jobID : String} {r : SegmentRow} :
    r ∈ selectSegments db jobID ↔ r ∈ db.segments ∧ r.jobID = jobID := by
  unfold selectSegments
  rw [List.mem_insertionSort, List.mem_filter, decide_eq_true_eq]

/-- No two rows of a job have one number, so the readers see increasing numbers. -/
theorem selected_increase {db : Db} (hk : db.Keyed) (jobID : String) :
    ((selectSegments db jobID).map (fun r => r.toStored.segment.segmentID)).Pairwise (· < ·) := by
  have hsorted : (selectSegments db jobID).Pairwise
      (fun a b => a.segmentIdx.val ≤ b.segmentIdx.val) := by
    have : Std.Total (fun a b : SegmentRow => a.segmentIdx.val ≤ b.segmentIdx.val) :=
      ⟨fun a b => Int.le_total _ _⟩
    have : IsTrans SegmentRow (fun a b => a.segmentIdx.val ≤ b.segmentIdx.val) :=
      ⟨fun _ _ _ => Int.le_trans⟩
    exact List.pairwise_insertionSort _ _
  have hkeys : (selectSegments db jobID).Pairwise (fun a b => a.key ≠ b.key) := by
    have hperm := List.perm_insertionSort (fun a b : SegmentRow => a.segmentIdx.val ≤ b.segmentIdx.val)
      (db.segments.filter (·.jobID = jobID))
    have hn : ((selectSegments db jobID).map SegmentRow.key).Nodup :=
      (hperm.map SegmentRow.key).nodup_iff.mpr (hk.sublist (List.filter_sublist.map _))
    exact List.pairwise_map.mp hn
  rw [List.pairwise_map]
  refine (hsorted.and hkeys).imp_of_mem fun {a b} ha hb hab => ?_
  refine lt_of_le_of_ne hab.1 fun hid => hab.2 ?_
  have hja := (mem_selectSegments.mp ha).2
  have hjb := (mem_selectSegments.mp hb).2
  have hidx : a.segmentIdx = b.segmentIdx := by
    cases hi : a.segmentIdx
    cases hi' : b.segmentIdx
    simp_all [Stored.segment]
  exact Prod.ext (hja.trans hjb.symm) hidx

/-- The condition: what was validated fits, its numbers increase, and every number that the job
has stored is among them. -/
structure InOrder (db : Db) (jobID : String) (segments : List Segment) : Prop where
  fits : ∀ s ∈ segments, s.Fits
  increasing : (segments.map Segment.segmentID).Pairwise (· < ·)
  covered : ∀ r ∈ db.segments, r.jobID = jobID →
    r.segmentIdx.val ∈ segments.map Segment.segmentID

/-- For every accepted payload and every table: after `_store_segments` the rows of the job in
the readers' order are the validated segments, which follow each other in time, exactly if the
numbers of the segments increase, the stored numbers are among them, and the values fit. -/
theorem rows_are_the_segments_iff_the_numbers_increase (schemaMessage : Json → String)
    (data : Json) (durationMs : Option Int) (segments : List Segment) (db : Db) (jobID : String)
    (hv : validateTranscript schemaMessage data durationMs = .ok segments) (hk : db.Keyed)
    (hj : jobID ∈ db.jobs) :
    Chronological segments ∧
      (Lists (storeSegments jobID segments db) jobID segments ↔ InOrder db jobID segments) := by
  obtain ⟨hchron, -, hchecked⟩ := accepted_segments_follow_each_other hv
  refine ⟨hchron, fun hl => ?_, fun ho => ?_⟩
  · -- an error leaves rows that fit, so the statements have all run
    have hfits : ∀ s ∈ segments, s.Fits := by
      intro s hs
      obtain ⟨r, -, rfl⟩ := List.mem_map.mp (hl ▸ hs)
      exact segment_fits r.toStored
    obtain ⟨db', h⟩ := execSegments_some hj hchecked hfits
    simp only [storeSegments, h] at hl
    have hfill := execSegments_ok hk h
    refine ⟨hfits, ?_, fun r hr hrj => ?_⟩
    · have hinc := selected_increase hfill.keyed jobID
      rw [← hl, List.map_map]
      exact hinc
    · obtain ⟨r', hr', hj', hi'⟩ := row_of_key (i := r.segmentIdx)
        (hfill.kept (jobID, _) (List.mem_map.mpr ⟨r, hr, Prod.ext hrj rfl⟩))
      rw [← hl, List.map_map]
      exact List.mem_map.mpr ⟨r', mem_selectSegments.mpr ⟨hr', hj'⟩, hi'⟩
  · obtain ⟨db', h⟩ := execSegments_some hj hchecked ho.fits
    simp only [Lists, storeSegments, h]
    have hfill := execSegments_ok hk h
    have hinc := selected_increase hfill.keyed jobID
    have hone : ∀ s ∈ segments, ∀ s' ∈ segments, s.segmentID = s'.segmentID → s = s' := by
      have hn : (segments.map Segment.segmentID).Nodup := ho.increasing.imp ne_of_lt
      exact fun s hs s' hs' he => List.inj_on_of_nodup_map hn hs hs' he
    have hin : ∀ r ∈ selectSegments db' jobID, r.toStored.segment ∈ segments := by
      intro r hr
      obtain ⟨hr, hrj⟩ := mem_selectSegments.mp hr
      rcases hfill.rows r hr hrj with ⟨hold, hne⟩ | hmem
      · obtain ⟨s, hs, hid⟩ := List.mem_map.mp (ho.covered r hold hrj)
        exact absurd hid (hne s hs)
      · exact hmem
    have hinc' : ((selectSegments db' jobID).map fun r => r.toStored.segment).Pairwise
        (fun a b => a.segmentID < b.segmentID) := by
      rw [List.pairwise_map]
      exact List.pairwise_map.mp hinc
    have hperm : ((selectSegments db' jobID).map fun r => r.toStored.segment).Perm segments := by
      refine (List.perm_ext_iff_of_nodup ?_ ?_).mpr fun s => ⟨fun hs => ?_, fun hs => ?_⟩
      · exact hinc'.imp fun hlt he => absurd (congrArg Segment.segmentID he) (ne_of_lt hlt)
      · exact (List.pairwise_map.mp ho.increasing).imp
          fun hlt he => absurd (congrArg Segment.segmentID he) (ne_of_lt hlt)
      · obtain ⟨r, hr, rfl⟩ := List.mem_map.mp hs
        exact hin r hr
      · obtain ⟨r, hr, hrj, hid⟩ := hfill.present s hs
        have hsel := mem_selectSegments.mpr ⟨hr, hrj⟩
        exact List.mem_map.mpr ⟨r, hsel, hone _ (hin r hsel) s hs hid⟩
    exact hperm.eq_of_pairwise (fun a b _ _ hab hba => absurd hab (lt_asymm hba)) hinc'
      (List.pairwise_map.mp ho.increasing)

/-- A payload of two segments of one second each, with the given numbers. -/
def twoSegments (first second : Int) : Json :=
  let segment := fun (n start : Int) (t : String) => Json.object
    [(text "segment_id", .int n), (text "start_ms", .int start), (text "end_ms", .int (start + 1000)),
      (text "text", .str (text t)), (text "confidence", .int 1)]
  .object [(text "segments", .array [segment first 0 "<b>Hello.</b>", segment second 1000 " Bye."])]

/-- The segments that the validator makes of `twoSegments`. -/
def twoChecked (first second : Int) : List Segment :=
  [⟨first, 0, 1000, text "Hello.", .finite (1 : Int), [⟨text "Hello.", 0, 1000⟩]⟩,
    ⟨second, 1000, 2000, text "Bye.", .finite (1 : Int), [⟨text "Bye.", 1000, 2000⟩]⟩]

def freshJob : Db := ⟨["j"], [], 0⟩

theorem rows_are_the_segments_for_increasing_numbers :
    Chronological (twoChecked 1 2) ∧
      (Lists (storeSegments "j" (twoChecked 1 2) freshJob) "j" (twoChecked 1 2) ↔
        InOrder freshJob "j" (twoChecked 1 2)) :=
  rows_are_the_segments_iff_the_numbers_increase (fun _ => "") (twoSegments 1 2) none _ freshJob "j"
    (by with_unfolding_all rfl) List.nodup_nil List.mem_cons_self

/-- The model numbers both segments 1: the second one overwrites the first one's row. -/
theorem a_repeated_number_loses_a_segment :
    ¬ ∀ (schemaMessage : Json → String) (data : Json) (durationMs : Option Int)
      (segments : List Segment) (db : Db) (jobID : String),
      validateTranscript schemaMessage data durationMs = .ok segments → db.Keyed →
      jobID ∈ db.jobs → Lists (storeSegments jobID segments db) jobID segments := by
  intro h
  have hlists := h (fun _ => "") (twoSegments 1 1) none (twoChecked 1 1) freshJob "j"
    (by with_unfolding_all rfl) List.nodup_nil List.mem_cons_self
  have hone : (selectSegments (storeSegments "j" (twoChecked 1 1) freshJob) "j").length = 1 := by
    with_unfolding_all rfl
  have htwo := congrArg List.length hlists
  rw [List.length_map, hone] at htwo
  cases htwo

end recast_rules.transcript
