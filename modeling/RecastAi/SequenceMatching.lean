-- A matcher for a sequence of patterns that keeps one number, how many of the patterns it has
-- matched. A letter that does not go on with the sequence sets it back to 0, and is not looked at
-- again.
import Mathlib.Data.List.DropRight
import Mathlib.Data.List.Forall2
import Mathlib.Data.List.Induction

namespace sequence_matching

variable {α : Type}

/-- The letters match the patterns, one for one. -/
def Matches (patterns : List (α → Bool)) (letters : List α) : Prop :=
  List.Forall₂ (fun p a => p a = true) patterns letters

instance (patterns : List (α → Bool)) (letters : List α) : Decidable (Matches patterns letters) :=
  inferInstanceAs (Decidable (List.Forall₂ (fun p a => p a = true) patterns letters))

def EndsWith (patterns : List (α → Bool)) (letters : List α) : Prop :=
  Matches patterns (letters.rtake patterns.length)

instance (patterns : List (α → Bool)) (letters : List α) : Decidable (EndsWith patterns letters) :=
  inferInstanceAs (Decidable (Matches patterns (letters.rtake patterns.length)))

/-- The letters end with some of the patterns, from the first one on, but not with all. -/
def Begun (patterns : List (α → Bool)) (letters : List α) : Prop :=
  ∃ j < patterns.length, 0 < j ∧ EndsWith (patterns.take j) letters

instance (patterns : List (α → Bool)) (letters : List α) : Decidable (Begun patterns letters) :=
  inferInstanceAs (Decidable (∃ j < patterns.length, 0 < j ∧ EndsWith (patterns.take j) letters))

/-- One attempt after the other, each of them given up: its letters match the first patterns, up
to the last letter, which does not match the next pattern, if there is one. -/
inductive GivenUp (patterns : List (α → Bool)) : List α → Prop
  | nil : GivenUp patterns []
  | attempt {begun rest : List α} {a : α} :
      Matches (patterns.take begun.length) begun →
      (∀ p, patterns[begun.length]? = some p → p a = false) →
      GivenUp patterns rest → GivenUp patterns (begun ++ a :: rest)

/-! ## The matcher -/

/-- The number of matched patterns, after one more letter. -/
def advance (patterns : List (α → Bool)) (progress : Nat) (a : α) : Nat :=
  match patterns[progress]? with
  | some p => if p a then progress + 1 else 0
  | none => 0

def progress (patterns : List (α → Bool)) (letters : List α) : Nat :=
  letters.foldl (advance patterns) 0

section Matcher

variable {patterns : List (α → Bool)} {letters older begun : List α} {a : α}

theorem Matches.length_eq (h : Matches patterns letters) : patterns.length = letters.length :=
  List.Forall₂.length_eq h

theorem matches_concat {p : α → Bool} (h : Matches patterns letters) (ha : p a = true) :
    Matches (patterns ++ [p]) (letters ++ [a]) :=
  List.rel_append h (.cons ha .nil)

theorem endsWith_iff :
    EndsWith patterns letters ↔ ∃ older occ, letters = older ++ occ ∧ Matches patterns occ := by
  constructor
  · intro h
    exact ⟨_, _, (List.take_append_drop (letters.length - patterns.length) letters).symm, h⟩
  · rintro ⟨older, occ, rfl, h⟩
    have hlength := h.length_eq
    unfold EndsWith List.rtake
    rw [List.length_append, hlength, Nat.add_sub_cancel, List.drop_left]
    exact h

theorem advance_matching {q : Nat} {p : α → Bool} (hp : patterns[q]? = some p) (ha : p a = true) :
    advance patterns q a = q + 1 := by
  unfold advance
  simp only [hp, ha, if_true]

theorem advance_failing {q : Nat} (ha : ∀ p, patterns[q]? = some p → p a = false) :
    advance patterns q a = 0 := by
  unfold advance
  split
  · rename_i p hp
    rw [ha p hp]
    rfl
  · rfl

theorem progress_concat :
    progress patterns (letters ++ [a]) = advance patterns (progress patterns letters) a :=
  List.foldl_append

theorem progress_le : progress patterns letters ≤ patterns.length := by
  induction letters using List.reverseRecOn with
  | nil => exact Nat.zero_le _
  | append_singleton letters a =>
    rw [progress_concat]
    unfold advance
    split
    · rename_i p hp
      obtain ⟨hlt, -⟩ := List.getElem?_eq_some_iff.mp hp
      split <;> omega
    · exact Nat.zero_le _

/-- Letters that match the next patterns are counted one by one. -/
theorem foldl_matches {next : List (α → Bool)} (h : Matches next begun) :
    ∀ q, next <+: patterns.drop q → begun.foldl (advance patterns) q = q + begun.length := by
  induction h with
  | nil => exact fun q _ => rfl
  | @cons p a next begun hp _ ih =>
    intro q hprefix
    obtain ⟨after, hafter⟩ := hprefix
    have hget : patterns[q]? = some p := by
      have := congrArg (·[0]?) hafter
      simpa using this.symm
    have hdrop : next <+: patterns.drop (q + 1) := by
      refine ⟨after, ?_⟩
      rw [← List.drop_drop, ← hafter]
      rfl
    rw [List.foldl_cons, advance_matching hget hp, ih (q + 1) hdrop, List.length_cons]
    omega

theorem progress_begun (h0 : progress patterns older = 0)
    (h : Matches (patterns.take begun.length) begun) :
    progress patterns (older ++ begun) = begun.length := by
  unfold progress at *
  rw [List.foldl_append, h0, foldl_matches h 0 (List.take_prefix _ _), Nat.zero_add]

/-! ## Attempts that were given up -/

theorem GivenUp.append {more : List α} (h : GivenUp patterns letters) (h' : GivenUp patterns more) :
    GivenUp patterns (letters ++ more) := by
  induction h with
  | nil => exact h'
  | attempt hbegun ha _ ih =>
    rw [List.append_assoc, List.cons_append]
    exact .attempt hbegun ha ih

theorem GivenUp.progress_eq (h : GivenUp patterns letters) : progress patterns letters = 0 := by
  induction h with
  | nil => rfl
  | @attempt begun rest a hbegun ha _ ih =>
    have hlength : progress patterns ([] ++ begun) = begun.length := progress_begun rfl hbegun
    rw [List.nil_append] at hlength
    have hback : progress patterns (begun ++ [a]) = 0 := by
      rw [progress_concat, hlength, advance_failing ha]
    rw [List.append_cons]
    unfold progress at *
    rw [List.foldl_append, hback]
    exact ih

/-- The letters are attempts that were given up, and then the one that is under way. -/
theorem progress_splits (patterns : List (α → Bool)) (letters : List α) :
    ∃ given begun, letters = given ++ begun ∧ GivenUp patterns given ∧
      Matches (patterns.take (progress patterns letters)) begun := by
  induction letters using List.reverseRecOn with
  | nil => exact ⟨[], [], rfl, .nil, .nil⟩
  | append_singleton letters a ih =>
    obtain ⟨given, begun, hsplit, hgiven, hbegun⟩ := ih
    have hlength : begun.length = progress patterns letters := by
      rw [← hbegun.length_eq, List.length_take, Nat.min_eq_left progress_le]
    rw [progress_concat]
    by_cases hgoes : ∃ p, patterns[progress patterns letters]? = some p ∧ p a = true
    · obtain ⟨p, hp, ha⟩ := hgoes
      refine ⟨given, begun ++ [a], by rw [hsplit, List.append_assoc], hgiven, ?_⟩
      rw [advance_matching hp ha, List.take_add_one, hp]
      exact matches_concat hbegun ha
    · have ha : ∀ p, patterns[progress patterns letters]? = some p → p a = false := by
        intro p hp
        exact Bool.eq_false_iff.mpr fun ha => hgoes ⟨p, hp, ha⟩
      have hattempt : GivenUp patterns (begun ++ [a]) := by
        rw [← hlength] at hbegun ha
        exact .attempt hbegun ha .nil
      refine ⟨given ++ (begun ++ [a]), [], by rw [hsplit]; simp, hgiven.append hattempt, ?_⟩
      rw [advance_failing ha, List.take_zero]
      exact .nil

theorem givenUp_iff : GivenUp patterns letters ↔ progress patterns letters = 0 := by
  constructor
  · exact GivenUp.progress_eq
  · intro h
    obtain ⟨given, begun, rfl, hgiven, hbegun⟩ := progress_splits patterns letters
    rw [h] at hbegun
    cases hbegun
    rw [List.append_nil]
    exact hgiven

instance : Decidable (GivenUp patterns letters) := decidable_of_iff _ givenUp_iff.symm

/-! ## What the matcher finds -/

theorem begun_of_progress (hpos : 0 < progress patterns letters)
    (hlt : progress patterns letters < patterns.length) : Begun patterns letters := by
  obtain ⟨given, begun, hsplit, -, hbegun⟩ := progress_splits patterns letters
  exact ⟨_, hlt, hpos, endsWith_iff.mpr ⟨given, begun, hsplit, hbegun⟩⟩

theorem progress_eq_length_iff :
    progress patterns letters = patterns.length ↔
      ∃ older occ, letters = older ++ occ ∧ Matches patterns occ ∧ GivenUp patterns older := by
  constructor
  · intro h
    obtain ⟨given, begun, hsplit, hgiven, hbegun⟩ := progress_splits patterns letters
    rw [h, List.take_length] at hbegun
    exact ⟨given, begun, hsplit, hbegun, hgiven⟩
  · rintro ⟨older, occ, rfl, hocc, hgiven⟩
    have hwhole : Matches (patterns.take occ.length) occ := by
      rw [← hocc.length_eq, List.take_length]
      exact hocc
    rw [progress_begun hgiven.progress_eq hwhole, hocc.length_eq]

/-- The matcher is right about the letters exactly where no attempt was under way before an
occurrence at their end. -/
theorem finds_iff :
    (progress patterns letters = patterns.length ↔ EndsWith patterns letters) ↔
      ∀ older occ, letters = older ++ occ → Matches patterns occ → GivenUp patterns older := by
  rw [progress_eq_length_iff, endsWith_iff]
  constructor
  · rintro h older occ hsplit hocc
    obtain ⟨older', occ', hsplit', hocc', hgiven⟩ := h.mpr ⟨older, occ, hsplit, hocc⟩
    have hlength : occ'.length = occ.length := hocc'.length_eq.symm.trans hocc.length_eq
    obtain ⟨rfl, -⟩ := List.append_inj' (hsplit'.symm.trans hsplit) hlength
    exact hgiven
  · intro h
    constructor
    · rintro ⟨older, occ, hsplit, hocc, -⟩
      exact ⟨older, occ, hsplit, hocc⟩
    · rintro ⟨older, occ, hsplit, hocc⟩
      exact ⟨older, occ, hsplit, hocc, h older occ hsplit hocc⟩

end Matcher

end sequence_matching
