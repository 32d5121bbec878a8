-- What `re.sub` with an empty replacement leaves of a text. The text after it is
-- followed with a gap for each part that was removed, since a match that is left
-- over can only be one that a gap has put together.
import Mathlib.Data.List.DropRight
import Mathlib.Data.List.ReduceOption
import RecastAi.PyText

namespace py_text

/-! ## Matches -/

/-- The pattern takes a text of its own from the front, whatever comes after it. -/
def Local (p : Pattern) : Prop :=
  ∀ t rest, p t = some rest → ∃ w, w ≠ [] ∧ t = w ++ rest ∧ ∀ rest', p (w ++ rest') = some rest'

/-- The pattern matches somewhere in the text. -/
def Occurs (p : Pattern) (t : Text) : Prop := ∃ a b, t = a ++ b ∧ p b ≠ none

theorem occurs_cons {p : Pattern} {c : Nat} {t : Text} (h : Occurs p t) : Occurs p (c :: t) := by
  obtain ⟨a, b, rfl, hb⟩ := h
  exact ⟨c :: a, b, rfl, hb⟩

theorem occurs_front {p : Pattern} {t : Text} (h : p t ≠ none) : Occurs p t := ⟨[], t, rfl, h⟩

/-- A match within a part of the text is a match within the text. -/
theorem occurs_around {p : Pattern} (hp : Local p) {t a b : Text} (h : Occurs p t) :
    Occurs p (a ++ t ++ b) := by
  obtain ⟨u, s, rfl, hs⟩ := h
  obtain ⟨rest, hrest⟩ := Option.ne_none_iff_exists'.mp hs
  obtain ⟨w, -, rfl, hw⟩ := hp s rest hrest
  refine ⟨a ++ u, w ++ rest ++ b, by simp, ?_⟩
  rw [List.append_assoc, hw]
  exact Option.some_ne_none _

theorem subFrom_eq_self {p : Pattern} {n : Nat} {t : Text} (h : ¬ Occurs p t)
    (hn : t.length ≤ n) : subFrom p n t = t := by
  induction t generalizing n with
  | nil => cases n <;> rfl
  | cons c t ih =>
    cases n with
    | zero => rfl
    | succ n =>
      have hfront : p (c :: t) = none := not_not.mp fun hne => h (occurs_front hne)
      simp only [subFrom, hfront]
      rw [ih (fun ht => h (occurs_cons ht)) (by simpa using hn)]

/-- A text without a match stays as it is. -/
theorem sub_eq_self {p : Pattern} {t : Text} (h : ¬ Occurs p t) : sub p t = t :=
  subFrom_eq_self h le_rfl

theorem subFrom_length {p : Pattern} (hp : Local p) (n : Nat) (t : Text) :
    (subFrom p n t).length ≤ t.length := by
  induction n generalizing t with
  | zero => exact le_rfl
  | succ n ih =>
    cases t with
    | nil => exact le_rfl
    | cons c t =>
      unfold subFrom
      split
      · rename_i rest hrest
        obtain ⟨w, -, hw, -⟩ := hp _ _ hrest
        rw [hw, List.length_append]
        exact (ih rest).trans (Nat.le_add_left _ _)
      · exact Nat.succ_le_succ (ih t)

/-! ## Sequences of sets -/

theorem sequence_local {sets : List (List Nat)} {t rest : Text} (h : sequence sets t = some rest) :
    ∃ w, w.length = sets.length ∧ t = w ++ rest ∧ ∀ rest', sequence sets (w ++ rest') = some rest' := by
  induction sets generalizing t with
  | nil =>
    obtain rfl : t = rest := Option.some.inj h
    exact ⟨[], rfl, rfl, fun _ => rfl⟩
  | cons set sets ih =>
    cases t with
    | nil => cases h
    | cons c t =>
      unfold sequence at h
      split at h
      · rename_i hc
        obtain ⟨w, hlen, rfl, hw⟩ := ih h
        refine ⟨c :: w, by simp [hlen], rfl, fun rest' => ?_⟩
        rw [List.cons_append, sequence, if_pos hc, hw]
      · cases h

/-- A sequence looks at as many characters as it has sets. -/
theorem sequence_none {sets : List (List Nat)} {w rest : Text} (hlen : sets.length ≤ w.length)
    (h : sequence sets (w ++ rest) = none) (rest' : Text) : sequence sets (w ++ rest') = none := by
  induction sets generalizing w with
  | nil => cases h
  | cons set sets ih =>
    cases w with
    | nil => exact absurd hlen (by simp)
    | cons c w =>
      rw [List.cons_append, sequence] at h ⊢
      split at h
      · rename_i hc
        rw [if_pos hc]
        exact ih (by simpa using hlen) h
      · rename_i hc
        rw [if_neg hc]

theorem firstAfter_local {sets : List (List Nat)} (hsets : sets ≠ []) {t rest : Text}
    (h : firstAfter (sequence sets) t = some rest) :
    ∃ w, sets.length ≤ w.length ∧ t = w ++ rest ∧
      ∀ rest', firstAfter (sequence sets) (w ++ rest') = some rest' := by
  induction t with
  | nil =>
    cases sets with
    | nil => exact absurd rfl hsets
    | cons set sets => cases h
  | cons c t ih =>
    unfold firstAfter at h
    split at h
    · rename_i found hfound
      obtain rfl := Option.some.inj h
      obtain ⟨w, hlen, ht, hw⟩ := sequence_local hfound
      refine ⟨w, hlen.ge, ht, fun rest' => ?_⟩
      cases w with
      | nil => exact absurd (List.length_eq_zero_iff.mp hlen.symm) hsets
      | cons d w =>
        have hfront := hw rest'
        rw [List.cons_append] at hfront ⊢
        unfold firstAfter
        rw [hfront]
    · rename_i hnone
      obtain ⟨w, hlen, rfl, hw⟩ := ih h
      refine ⟨c :: w, Nat.le_succ_of_le hlen, rfl, fun rest' => ?_⟩
      have hfront := sequence_none (w := c :: w) (Nat.le_succ_of_le hlen) hnone rest'
      rw [List.cons_append] at hfront ⊢
      unfold firstAfter
      rw [hfront]
      exact hw rest'

theorem sequence_snoc {sets : List (List Nat)} {c : Nat} {t rest : Text}
    (h : sequence (sets ++ [[c]]) t = some rest) : ∃ inner, t = inner ++ c :: rest := by
  induction sets generalizing t with
  | nil =>
    cases t with
    | nil => cases h
    | cons d t =>
      rw [List.nil_append, sequence] at h
      split at h
      · rename_i hd
        obtain rfl := List.mem_singleton.mp hd
        obtain rfl := Option.some.inj h
        exact ⟨[], rfl⟩
      · cases h
  | cons set sets ih =>
    cases t with
    | nil => cases h
    | cons d t =>
      rw [List.cons_append, sequence] at h
      split at h
      · obtain ⟨inner, rfl⟩ := ih h
        exact ⟨d :: inner, rfl⟩
      · cases h

theorem firstAfter_snoc {sets : List (List Nat)} {c : Nat} {t rest : Text}
    (h : firstAfter (sequence (sets ++ [[c]])) t = some rest) : ∃ inner, t = inner ++ c :: rest := by
  induction t with
  | nil =>
    unfold firstAfter at h
    obtain ⟨inner, hinner⟩ := sequence_snoc h
    exact ⟨inner, hinner⟩
  | cons d t ih =>
    unfold firstAfter at h
    split at h
    · rename_i found hfound
      obtain rfl := Option.some.inj h
      exact sequence_snoc hfound
    · obtain ⟨inner, rfl⟩ := ih h
      exact ⟨d :: inner, rfl⟩

theorem firstAfter_of_mem {c : Nat} {t : Text} (h : c ∈ t) :
    firstAfter (sequence [[c]]) t ≠ none := by
  induction t with
  | nil => cases h
  | cons d t ih =>
    unfold firstAfter
    split
    · exact Option.some_ne_none _
    · rename_i hnone
      rcases List.mem_cons.mp h with rfl | h
      · simp [sequence] at hnone
      · exact ih h

/-! ## Texts with gaps -/

/-- What is left of `m` when `k` characters are left. -/
def dropTo (k : Nat) : List (Option Nat) → List (Option Nat)
  | [] => []
  | x :: m => if (x :: m).reduceOption.length ≤ k then x :: m else dropTo k m

def cutFrom (p : Pattern) : Nat → List (Option Nat) → List (Option Nat)
  | 0, m => m
  | _ + 1, [] => []
  | n + 1, none :: m => none :: cutFrom p n m
  | n + 1, some c :: m =>
    match p (c :: m.reduceOption) with
    | some rest => none :: cutFrom p n (dropTo rest.length m)
    | none => some c :: cutFrom p n m

/-- `sub p` with a gap for each match. The gaps that are there already are looked through. -/
def cut (p : Pattern) (m : List (Option Nat)) : List (Option Nat) := cutFrom p m.length m

/-- How a text is cut, piece by piece. -/
inductive Cut (p : Pattern) : List (Option Nat) → List (Option Nat) → Prop where
  | nil : Cut p [] []
  | gap {m m' : List (Option Nat)} (h : Cut p m m') : Cut p (none :: m) (none :: m')
  | keep {c : Nat} {m m' : List (Option Nat)} (hp : p (c :: m.reduceOption) = none)
      (h : Cut p m m') : Cut p (some c :: m) (some c :: m')
  | drop {c : Nat} {m after m' : List (Option Nat)}
      (hp : p (c :: m.reduceOption) = some after.reduceOption)
      (hlen : after.reduceOption.length ≤ m.reduceOption.length)
      (hafter : after <:+ m) (h : Cut p after m') : Cut p (some c :: m) (none :: m')

theorem dropTo_suffix (k : Nat) (m : List (Option Nat)) : dropTo k m <:+ m := by
  induction m with
  | nil => exact List.suffix_rfl
  | cons x m ih =>
    unfold dropTo
    split
    · exact List.suffix_rfl
    · exact ih.trans (List.suffix_cons x m)

theorem reduceOption_dropTo {w rest : Text} {m : List (Option Nat)}
    (h : m.reduceOption = w ++ rest) : (dropTo rest.length m).reduceOption = rest := by
  induction m generalizing w with
  | nil =>
    have hnil := List.append_eq_nil_iff.mp h.symm
    rw [hnil.2]
    rfl
  | cons x m ih =>
    unfold dropTo
    split
    · rename_i hlen
      rw [h, List.length_append] at hlen
      obtain rfl : w = [] := List.length_eq_zero_iff.mp (by omega)
      exact h
    · rename_i hlen
      rw [h, List.length_append] at hlen
      cases x with
      | none => exact ih h
      | some c =>
        cases w with
        | nil => simp at hlen
        | cons d w => exact ih (List.cons.inj h).2

theorem cutFrom_cut {p : Pattern} (hp : Local p) {n : Nat} {m : List (Option Nat)}
    (hn : m.length ≤ n) : Cut p m (cutFrom p n m) := by
  induction n generalizing m with
  | zero =>
    obtain rfl := List.length_eq_zero_iff.mp (Nat.le_zero.mp hn)
    exact .nil
  | succ n ih =>
    cases m with
    | nil => exact .nil
    | cons x m =>
      have hm : m.length ≤ n := by simpa using hn
      cases x with
      | none => exact .gap (ih hm)
      | some c =>
        unfold cutFrom
        split
        · rename_i rest hrest
          obtain ⟨w, hne, hw, -⟩ := hp _ _ hrest
          cases w with
          | nil => exact absurd rfl hne
          | cons d w =>
            have hm' : m.reduceOption = w ++ rest := (List.cons.inj hw).2
            have hafter := reduceOption_dropTo hm'
            have hsuffix := dropTo_suffix rest.length m
            refine .drop (by rw [hafter, hrest]) ?_ hsuffix (ih (hsuffix.length_le.trans hm))
            rw [hafter, hm', List.length_append]
            omega
        · rename_i hnone
          exact .keep hnone (ih hm)

theorem cut_spec {p : Pattern} (hp : Local p) (m : List (Option Nat)) : Cut p m (cut p m) :=
  cutFrom_cut hp le_rfl

theorem subFrom_of_cut {p : Pattern} {m m' : List (Option Nat)} (h : Cut p m m') {n : Nat}
    (hn : m.reduceOption.length ≤ n) : subFrom p n m.reduceOption = m'.reduceOption := by
  induction h generalizing n with
  | nil => cases n <;> rfl
  | gap h ih => exact ih hn
  | keep hp h ih =>
    rw [List.reduceOption_cons_of_some] at hn ⊢
    cases n with
    | zero => exact absurd hn (by simp)
    | succ n =>
      simp only [subFrom, hp, List.reduceOption_cons_of_some]
      rw [ih (by simpa using hn)]
  | drop hp hlen _ h ih =>
    rw [List.reduceOption_cons_of_some] at hn ⊢
    cases n with
    | zero => exact absurd hn (by simp)
    | succ n =>
      simp only [subFrom, hp, List.reduceOption_cons_of_none]
      rw [ih (hlen.trans (by simpa using hn))]

/-- The characters outside of the gaps are what `re.sub` leaves. -/
theorem reduceOption_cut {p : Pattern} (hp : Local p) (m : List (Option Nat)) :
    (cut p m).reduceOption = sub p m.reduceOption :=
  (subFrom_of_cut (cut_spec hp m) le_rfl).symm

theorem mem_of_cut {p : Pattern} {m m' : List (Option Nat)} (h : Cut p m m') {c : Nat}
    (hc : some c ∈ m') : some c ∈ m := by
  induction h with
  | nil => exact hc
  | gap h ih => exact List.mem_cons_of_mem _ (ih (by simpa using hc))
  | keep hp h ih =>
    rcases List.mem_cons.mp hc with heq | hc
    · rw [heq]
      exact List.mem_cons_self
    · exact List.mem_cons_of_mem _ (ih hc)
  | drop hp hlen hafter h ih =>
    exact List.mem_cons_of_mem _ (hafter.subset (ih (by simpa using hc)))

/-- Where a character is kept, there was no match, and the cut went on after it. -/
theorem cut_kept {p : Pattern} {m a rest : List (Option Nat)} {c : Nat}
    (h : Cut p m (a ++ some c :: rest)) :
    ∃ b before, m = b ++ some c :: before ∧ p (c :: before.reduceOption) = none ∧
      Cut p before rest := by
  generalize hm' : a ++ some c :: rest = m' at h
  induction h generalizing a with
  | nil => simp at hm'
  | gap h ih =>
    cases a with
    | nil => cases hm'
    | cons x a =>
      obtain ⟨b, before, rfl, hnone, hcut⟩ := ih (List.cons.inj hm').2
      exact ⟨none :: b, before, rfl, hnone, hcut⟩
  | @keep d m m' hp h ih =>
    cases a with
    | nil =>
      obtain ⟨hd, rfl⟩ := List.cons.inj hm'
      obtain rfl := Option.some.inj hd
      exact ⟨[], m, rfl, hp, h⟩
    | cons x a =>
      obtain ⟨b, before, rfl, hnone, hcut⟩ := ih (List.cons.inj hm').2
      exact ⟨some d :: b, before, rfl, hnone, hcut⟩
  | @drop d m after m' hp hlen hafter h ih =>
    cases a with
    | nil => cases hm'
    | cons x a =>
      obtain ⟨pre, rfl⟩ := hafter
      obtain ⟨b, before, rfl, hnone, hcut⟩ := ih (List.cons.inj hm').2
      exact ⟨some d :: (pre ++ b), before, by simp, hnone, hcut⟩

/-- Characters that are kept side by side stood side by side. -/
theorem cut_kept_together {p : Pattern} {m rest : List (Option Nat)} {w : Text}
    (h : Cut p m (w.map some ++ rest)) : ∃ before, m = w.map some ++ before ∧ Cut p before rest := by
  induction w generalizing m with
  | nil => exact ⟨m, rfl, h⟩
  | cons c w ih =>
    rw [List.map_cons, List.cons_append] at h
    cases h with
    | keep hp h =>
      obtain ⟨before, rfl, hcut⟩ := ih h
      exact ⟨before, rfl, hcut⟩

theorem reduceOption_map_some (w : Text) : (w.map some).reduceOption = w := by
  induction w with
  | nil => rfl
  | cons c w ih => rw [List.map_cons, List.reduceOption_cons_of_some, ih]

/-- No match is left whose characters stand side by side. -/
theorem no_match_stands {p : Pattern} {m a rest : List (Option Nat)} {c : Nat} {w : Text}
    (h : Cut p m (a ++ some c :: (w.map some ++ rest)))
    (hmatch : ∀ t, (∀ d ∈ rest.reduceOption, d ∈ t) → p (c :: (w ++ t)) ≠ none) : False := by
  obtain ⟨-, before, -, hnone, hkept⟩ := cut_kept h
  obtain ⟨after, rfl, hcut⟩ := cut_kept_together hkept
  rw [List.reduceOption_append, reduceOption_map_some] at hnone
  refine hmatch after.reduceOption (fun d hd => ?_) hnone
  rw [List.reduceOption_mem_iff] at hd ⊢
  exact mem_of_cut hcut hd

theorem reduceOption_eq_cons {m : List (Option Nat)} {x : Nat} {t : Text}
    (h : m.reduceOption = x :: t) :
    ∃ gaps rest, m = gaps ++ some x :: rest ∧ gaps.reduceOption = [] ∧ rest.reduceOption = t := by
  induction m with
  | nil => cases h
  | cons y m ih =>
    cases y with
    | none =>
      obtain ⟨gaps, rest, rfl, hgaps, hrest⟩ := ih h
      exact ⟨none :: gaps, rest, rfl, hgaps, hrest⟩
    | some c =>
      obtain ⟨rfl, rfl⟩ := List.cons.inj h
      exact ⟨[], m, rfl, rfl, rfl⟩

/-- Where the two ends of a part of the text stand. -/
theorem ends_of_reduceOption {m : List (Option Nat)} {u inner rest : Text} {x y : Nat}
    (h : m.reduceOption = u ++ x :: (inner ++ y :: rest)) :
    ∃ a b c, m = a ++ some x :: (b ++ some y :: c) ∧ a.reduceOption = u ∧
      b.reduceOption = inner ∧ c.reduceOption = rest := by
  obtain ⟨a, m₁, rfl, rfl, hm₁⟩ := (List.reduceOption_eq_append_iff _ _ _).mp h
  obtain ⟨gaps, m₂, rfl, hgaps, hm₂⟩ := reduceOption_eq_cons hm₁
  obtain ⟨b, m₃, rfl, rfl, hm₃⟩ := (List.reduceOption_eq_append_iff _ _ _).mp hm₂
  obtain ⟨gaps', c, rfl, hgaps', rfl⟩ := reduceOption_eq_cons hm₃
  exact ⟨a ++ gaps, b ++ gaps', c, by simp, by simp [List.reduceOption_append, hgaps],
    by simp [List.reduceOption_append, hgaps'], rfl⟩

theorem map_some_of_no_gap {m : List (Option Nat)} (h : none ∉ m) : m = m.reduceOption.map some := by
  induction m with
  | nil => rfl
  | cons y m ih =>
    cases y with
    | none => exact absurd List.mem_cons_self h
    | some c =>
      rw [List.reduceOption_cons_of_some, List.map_cons,
        ← ih fun hm => h (List.mem_cons_of_mem _ hm)]

/-! ## Stripping -/

theorem dropWhile_before {a t : Text} {c : Nat} (hc : isSpace c = false) :
    ∃ a', (a ++ c :: t).dropWhile isSpace = a' ++ c :: t := by
  rw [List.dropWhile_append]
  split
  · exact ⟨[], List.dropWhile_cons_of_neg (by simp [hc])⟩
  · exact ⟨_, rfl⟩

/-- Stripping leaves a part alone that no space begins or ends. -/
theorem strip_around {a w b : Text} {x y : Nat} (hx : isSpace x = false) (hy : isSpace y = false) :
    ∃ a' b', strip (a ++ x :: (w ++ y :: b)) = a' ++ x :: (w ++ y :: b') := by
  obtain ⟨a', ha'⟩ := dropWhile_before (a := a) (t := w ++ y :: b) hx
  unfold strip
  rw [ha']
  have hreverse : (a' ++ x :: (w ++ y :: b)).reverse = b.reverse ++ y :: (w.reverse ++ x :: a'.reverse) := by
    simp
  obtain ⟨b', hb'⟩ := dropWhile_before (a := b.reverse) (t := w.reverse ++ x :: a'.reverse) hy
  rw [hreverse, hb']
  exact ⟨a', b'.reverse, by simp⟩

theorem strip_eq (t : Text) : strip t = (t.dropWhile isSpace).rdropWhile isSpace := rfl

theorem strip_within (t : Text) : strip t <:+: t := by
  rw [strip_eq]
  exact (List.rdropWhile_prefix _ _).isInfix.trans (List.dropWhile_suffix _).isInfix

theorem strip_strip (t : Text) : strip (strip t) = strip t := by
  have hfront : (strip t).dropWhile isSpace = strip t := by
    rw [List.dropWhile_eq_self_iff]
    intro hlen
    -- what is stripped from the back leaves the first character
    have hinit : strip t <+: t.dropWhile isSpace := List.rdropWhile_prefix _ _
    rw [hinit.getElem hlen]
    exact List.dropWhile_get_zero_not _ _ _
  rw [strip_eq (strip t), hfront, strip_eq, List.rdropWhile_idempotent]

end py_text
