-- The best of a row of attempts, where a later attempt has to be better and not
-- only as good to take the place of an earlier one.
import Mathlib.Order.Lattice
import Mathlib.Data.List.Basic

namespace best_so_far

variable {α β : Type} [LinearOrder β] {score : α → β}

/-- The attempt `a` at the place `i` has the highest score, and it is the first one that has. -/
structure EarliestBest (score : α → β) (attempts : List α) (i : Nat) (a : α) : Prop where
  here : attempts[i]? = some a
  highest : ∀ b ∈ attempts, score b ≤ score a
  earliest : ∀ j b, j < i → attempts[j]? = some b → score b < score a

theorem EarliestBest.lt_length {attempts : List α} {i : Nat} {a : α}
    (h : EarliestBest score attempts i a) : i < attempts.length := by
  obtain ⟨hi, -⟩ := List.getElem?_eq_some_iff.mp h.here
  exact hi

theorem earliestBest_first (a : α) : EarliestBest score [a] 0 a where
  here := rfl
  highest := fun b hb => by rw [List.mem_singleton.mp hb]
  earliest := fun j b hj _ => absurd hj (Nat.not_lt_zero j)

/-- An attempt that is not better leaves the best one in its place. -/
theorem earliestBest_keep {attempts : List α} {i : Nat} {a b : α}
    (h : EarliestBest score attempts i a) (hb : score b ≤ score a) :
    EarliestBest score (attempts ++ [b]) i a where
  here := by rw [List.getElem?_append_left h.lt_length, h.here]
  highest := by
    intro c hc
    rcases List.mem_append.mp hc with hc | hc
    · exact h.highest c hc
    · rwa [List.mem_singleton.mp hc]
  earliest := by
    intro j c hj hc
    rw [List.getElem?_append_left (Nat.lt_trans hj h.lt_length)] at hc
    exact h.earliest j c hj hc

/-- A better attempt takes its place. -/
theorem earliestBest_replace {attempts : List α} {i : Nat} {a b : α}
    (h : EarliestBest score attempts i a) (hb : score a < score b) :
    EarliestBest score (attempts ++ [b]) attempts.length b where
  here := by simp
  highest := by
    intro c hc
    rcases List.mem_append.mp hc with hc | hc
    · exact (h.highest c hc).trans hb.le
    · rw [List.mem_singleton.mp hc]
  earliest := by
    intro j c hj hc
    rw [List.getElem?_append_left hj] at hc
    exact (h.highest c (List.mem_of_getElem? hc)).trans_lt hb

/-- The best attempt is the last one exactly where all the others score lower. -/
theorem earliestBest_last_iff {attempts : List α} {i : Nat} {a : α}
    (h : EarliestBest score attempts i a) :
    i + 1 = attempts.length ↔
      ∀ b ∈ attempts.dropLast, ∀ c ∈ attempts.getLast?, score b < score c := by
  have hi := h.lt_length
  constructor
  · intro hlast b hb c hc
    obtain ⟨j, hj⟩ := List.mem_iff_getElem?.mp hb
    rw [List.getLast?_eq_getElem?, ← hlast, Nat.add_sub_cancel, h.here] at hc
    obtain rfl := Option.some.inj hc
    rw [List.getElem?_dropLast] at hj
    split at hj
    · exact h.earliest j b (by omega) hj
    · cases hj
  · intro hall
    by_contra hne
    have hlen : attempts.length - 1 < attempts.length := by omega
    have hlast : attempts.getLast? = some attempts[attempts.length - 1] := by
      rw [List.getLast?_eq_getElem?, List.getElem?_eq_getElem hlen]
    -- the best attempt is one of the others, and the last one is no better
    have hmem : a ∈ attempts.dropLast := by
      refine List.mem_of_getElem? (i := i) ?_
      rw [List.getElem?_dropLast, if_pos (by omega), h.here]
    have hlt := hall a hmem _ hlast
    exact absurd (h.highest _ (List.getElem_mem hlen)) (not_le.mpr hlt)

end best_so_far
