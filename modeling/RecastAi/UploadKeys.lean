-- What the helpers of the upload service give: the hand-written sort sorts,
-- the keys of one upload stand under its own directory, and the keys of its
-- chunks and of its final file are all different.
import RecastAi.UploadService

open call_programs go_text

namespace recast_rules.upload_service

/-! ## The sort -/

/-- The inner loop puts the next element into the sorted part before it. -/
theorem sinkFrom_spec (p rest : List Nat) (x : Nat) (hp : p.Pairwise (· ≤ ·)) :
    ∃ q, sinkFrom (p ++ x :: rest) p.length = q ++ rest ∧ q.Perm (p ++ [x]) ∧
      q.Pairwise (· ≤ ·) := by
  induction p using List.reverseRecOn generalizing rest with
  | nil => exact ⟨[x], rfl, List.Perm.refl _, List.pairwise_singleton _ _⟩
  | append_singleton p y ih =>
    have hy : (p ++ [y] ++ x :: rest).getD p.length 0 = y := by simp
    have hx : (p ++ [y] ++ x :: rest).getD (p.length + 1) 0 = x := by simp
    obtain ⟨hp', -, hpy⟩ := List.pairwise_append.mp hp
    have hlast : ∀ z ∈ p, z ≤ y := fun z hz => hpy z hz y (List.mem_singleton_self y)
    rw [List.length_append, List.length_singleton]
    unfold sinkFrom
    rw [hx, hy]
    by_cases hlt : y > x
    · rw [if_pos hlt]
      have hswap : ((p ++ [y] ++ x :: rest).set p.length x).set (p.length + 1) y =
          p ++ x :: y :: rest := by simp
      obtain ⟨q, he, hq, hs⟩ := ih (y :: rest) hp'
      refine ⟨q ++ [y], by rw [hswap, he]; simp, ?_, ?_⟩
      · refine (hq.append_right [y]).trans ?_
        rw [List.append_assoc, List.append_assoc]
        exact List.Perm.append_left p (List.Perm.swap y x [])
      · refine List.pairwise_append.mpr ⟨hs, List.pairwise_singleton _ _, ?_⟩
        intro z hz w hw
        rw [List.mem_singleton] at hw
        subst hw
        rcases List.mem_append.mp (hq.subset hz) with hz | hz
        · exact hlast z hz
        · rw [List.mem_singleton] at hz
          omega
    · rw [if_neg hlt]
      refine ⟨p ++ [y] ++ [x], by simp, List.Perm.refl _, ?_⟩
      refine List.pairwise_append.mpr ⟨hp, List.pairwise_singleton _ _, ?_⟩
      intro z hz w hw
      rw [List.mem_singleton] at hw
      subst hw
      rcases List.mem_append.mp hz with hz | hz
      · have := hlast z hz
        omega
      · rw [List.mem_singleton] at hz
        omega

theorem sortLoop_spec (rest p : List Nat) (hp : p.Pairwise (· ≤ ·)) :
    ((List.range' p.length rest.length).foldl sinkFrom (p ++ rest)).Pairwise (· ≤ ·) ∧
      ((List.range' p.length rest.length).foldl sinkFrom (p ++ rest)).Perm (p ++ rest) := by
  induction rest generalizing p with
  | nil => simpa using hp
  | cons x rest ih =>
    obtain ⟨q, he, hq, hs⟩ := sinkFrom_spec p rest x hp
    have hlen : q.length = p.length + 1 := by rw [hq.length_eq, List.length_append]; rfl
    have h := ih q hs
    rw [hlen] at h
    rw [List.length_cons, List.range'_succ, List.foldl_cons, he]
    refine ⟨h.1, h.2.trans ?_⟩
    have hperm := hq.append_right rest
    rwa [List.append_assoc] at hperm

theorem sortInts_spec (a : List Nat) : (sortInts a).Pairwise (· ≤ ·) ∧ (sortInts a).Perm a := by
  cases a with
  | nil => exact ⟨List.Pairwise.nil, List.Perm.refl _⟩
  | cons x rest => exact sortLoop_spec rest [x] (List.pairwise_singleton _ _)

/-! ## The keys of an upload -/

def dirOf (uploadID : String) : String := "uploads/" ++ (uploadID ++ "/")

/-- The key stands under the directory of the upload. -/
def Under (uploadID key : String) : Prop := (dirOf uploadID).toList <+: key.toList

instance (uploadID key : String) : Decidable (Under uploadID key) :=
  inferInstanceAs (Decidable (_ <+: _))

theorem isSafeID_cases {s : String} (h : isSafeID s = true) :
    s ≠ "" ∧ ∀ c ∈ s.toList, safeChar c = true := by
  unfold isSafeID at h
  split at h
  · cases h
  · rename_i hc
    simp only [Bool.or_eq_true, decide_eq_true_eq, not_or] at hc
    exact ⟨hc.1, fun c hc => List.all_eq_true.mp h c hc⟩

theorem safe_plain {s : String} (h : isSafeID s = true) : Plain s.toList := by
  obtain ⟨hne, hall⟩ := isSafeID_cases h
  have hdot : '.' ∉ s.toList := fun hm => absurd (hall '.' hm) (by decide)
  refine ⟨by simpa using hne, fun hm => absurd (hall '/' hm) (by decide), ?_, ?_⟩
  · intro he
    exact hdot (he ▸ List.mem_singleton_self _)
  · intro he
    exact hdot (he ▸ List.mem_cons_self)

/-- What stands before the first slash is determined. -/
theorem before_slash {a b c d : List Char} (ha : '/' ∉ a) (hc : '/' ∉ c)
    (h : a ++ '/' :: b = c ++ '/' :: d) : a = c := by
  induction a generalizing c with
  | nil =>
    cases c with
    | nil => rfl
    | cons y c =>
      injection h with h1 _
      exact absurd (h1 ▸ List.mem_cons_self) hc
  | cons x a ih =>
    cases c with
    | nil =>
      injection h with h1 _
      exact absurd (h1 ▸ List.mem_cons_self) ha
    | cons y c =>
      injection h with h1 h2
      rw [h1, ih (fun hm => ha (List.mem_cons_of_mem _ hm))
        (fun hm => hc (List.mem_cons_of_mem _ hm)) h2]

theorem under_unique {u v key : String} (hu : isSafeID u = true) (hv : isSafeID v = true)
    (h : Under u key) (h' : Under v key) : u = v := by
  obtain ⟨x, hx⟩ := h
  obtain ⟨y, hy⟩ := h'
  have he := hx.trans hy.symm
  simp only [dirOf, String.toList_append, List.append_assoc] at he
  have he' := List.append_cancel_left he
  exact String.toList_inj.mp (before_slash (safe_plain hu).no_slash (safe_plain hv).no_slash he')

theorem chunkKey_eq (u : String) (i : Nat) : chunkKey u i = dirOf u ++ ("chunk_" ++ i.repr) := by
  have h : "/chunk_" = "/" ++ "chunk_" := rfl
  change "uploads/" ++ u ++ "/chunk_" ++ i.repr = _
  rw [h]
  simp only [dirOf, String.append_assoc]

theorem under_chunkKey (u : String) (i : Nat) : Under u (chunkKey u i) := by
  rw [chunkKey_eq, Under, String.toList_append]
  exact List.prefix_append _ _

theorem chunkKey_inj {u : String} {i j : Nat} (h : chunkKey u i = chunkKey u j) : i = j := by
  rw [chunkKey_eq, chunkKey_eq] at h
  have h' := congrArg String.toList h
  simp only [String.toList_append] at h'
  have hd := congrArg (Nat.ofDigitChars 10 · 0) (List.append_cancel_left (List.append_cancel_left h'))
  simpa using hd

/-! ## An accepted request to complete -/

structure Accepted (tables : Unicode) (r : Request) (c : Completion) : Prop where
  uploadID : c.uploadID = requestUploadID r
  safe : isSafeID c.uploadID = true
  json : r.json = some c.req
  userID : r.userID = some c.userID
  ext_eq : c.ext = lowerExt tables c.req.filename
  ext : (c.ext, c.contentType) ∈ allowedExtensions

theorem mem_of_lookup {l : List (String × String)} {k v : String} (h : l.lookup k = some v) :
    (k, v) ∈ l := by
  induction l with
  | nil => cases h
  | cons x l ih =>
    rw [List.lookup_cons] at h
    split at h
    · rename_i he
      injection h with h
      rw [eq_of_beq he, ← h]
      exact List.mem_cons_self
    · exact List.mem_cons_of_mem _ (ih h)

theorem acceptComplete_ok {tables : Unicode} {r : Request} {c : Completion}
    (h : acceptComplete tables r = .ok c) : Accepted tables r c := by
  unfold acceptComplete at h
  split at h
  · cases h
  rename_i hs
  split at h
  · cases h
  rename_i req hjson
  split at h
  · cases h
  rename_i userID huser
  dsimp only at h
  split at h
  · cases h
  rename_i contentType hext
  injection h with h
  subst h
  exact ⟨rfl, by simpa using hs, hjson, (Option.filter_eq_some_iff.mp huser).1, rfl, mem_of_lookup hext⟩

theorem acceptComplete_error {tables : Unicode} {r : Request} {e : Response}
    (h : acceptComplete tables r = .error e) : e.status ≠ 202 := by
  unfold acceptComplete at h
  split at h
  · injection h with h
    rw [← h]
    decide
  split at h
  · injection h with h
    rw [← h]
    decide
  split at h
  · injection h with h
    rw [← h]
    decide
  dsimp only at h
  split at h
  · injection h with h
    rw [← h]
    exact (by decide : (400 : Nat) ≠ 202)
  · cases h

theorem finalKeyOf_eq {tables : Unicode} {r : Request} {c : Completion}
    (h : Accepted tables r c) :
    finalKeyOf c = dirOf c.uploadID ++ ("final" ++ c.ext) := by
  have hext : ∀ x ∈ allowedExtensions, Plain ("final" ++ x.1).toList := by
    intro x hx
    simp only [allowedExtensions, List.mem_cons, List.not_mem_nil, or_false] at hx
    rcases hx with rfl | rfl | rfl | rfl | rfl <;>
      exact ⟨by decide, by decide, by decide, by decide⟩
  have hplain : ∀ e ∈ [("uploads" : String).toList, c.uploadID.toList, ("final" ++ c.ext).toList],
      Plain e := by
    intro e he
    simp only [List.mem_cons, List.not_mem_nil, or_false] at he
    rcases he with rfl | rfl | rfl
    · exact ⟨by decide, by decide, by decide, by decide⟩
    · exact safe_plain h.safe
    · exact hext _ h.ext
  unfold finalKeyOf join
  have hdrop : ["uploads", c.uploadID, "final" ++ c.ext].dropWhile (· = "") =
      ["uploads", c.uploadID, "final" ++ c.ext] := rfl
  simp only [hdrop, List.map_cons, List.map_nil, clean_plain (List.cons_ne_nil _ _) hplain]
  apply String.toList_inj.mp
  simp [dirOf, List.intercalate]

theorem finalKeyOf_path {tables : Unicode} {r : Request} {c : Completion}
    (h : Accepted tables r c) : finalKeyOf c = s!"uploads/{c.uploadID}/final{c.ext}" := by
  have hf : "/final" = "/" ++ "final" := rfl
  change finalKeyOf c = "uploads/" ++ c.uploadID ++ "/final" ++ c.ext
  rw [finalKeyOf_eq h, hf]
  simp only [dirOf, String.append_assoc]

theorem under_finalPath (u ext : String) : Under u s!"uploads/{u}/final{ext}" := by
  have hf : "/final" = "/" ++ "final" := rfl
  have h : s!"uploads/{u}/final{ext}" = dirOf u ++ ("final" ++ ext) := by
    change "uploads/" ++ u ++ "/final" ++ ext = _
    rw [hf]
    simp only [dirOf, String.append_assoc]
  rw [h, Under, String.toList_append]
  exact List.prefix_append _ _

theorem under_finalKey {tables : Unicode} {r : Request} {c : Completion}
    (h : Accepted tables r c) : Under c.uploadID (finalKeyOf c) := by
  rw [finalKeyOf_path h]
  exact under_finalPath _ _

theorem chunkKey_ne_finalKey {tables : Unicode} {r : Request} {c : Completion}
    (h : Accepted tables r c) (i : Nat) :
    chunkKey c.uploadID i ≠ finalKeyOf c := by
  intro he
  rw [finalKeyOf_eq h, chunkKey_eq] at he
  have he' := congrArg String.toList he
  simp only [String.toList_append] at he'
  have he'' := List.append_cancel_left he'
  have hc : ("chunk_" : String).toList = 'c' :: "hunk_".toList := by decide
  have hf : ("final" : String).toList = 'f' :: "inal".toList := by decide
  rw [hc, hf] at he''
  injection he'' with h1 _
  exact absurd h1 (by decide)

end recast_rules.upload_service
