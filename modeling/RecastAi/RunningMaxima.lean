-- The running maximum of a row: the least monotone row that lies above it.
import Mathlib.Data.List.Basic
import Mathlib.Order.Lattice

namespace running_maxima

variable {α : Type} [LinearOrder α]

/-- Each value is lifted to the ones before it, and the first one to `low`. -/
def runningMax (low : α) : List α → List α
  | [] => []
  | x :: xs => max x low :: runningMax (max x low) xs

/-- No value goes down, and none is below `low`. -/
def Rises (low : α) (xs : List α) : Prop := (low :: xs).IsChain (· ≤ ·)

/-- One row lies below another one of the same length. -/
abbrev Below (xs ys : List α) : Prop := List.Forall₂ (· ≤ ·) xs ys

variable {low : α} {xs ys : List α}

theorem rises_nil : Rises low ([] : List α) := .singleton low

theorem rises_cons {x : α} : Rises low (x :: xs) ↔ low ≤ x ∧ Rises x xs := List.isChain_cons_cons

theorem rises_le (h : Rises low xs) : ∀ x ∈ xs, low ≤ x := by
  induction xs generalizing low with
  | nil => exact fun _ hx => absurd hx List.not_mem_nil
  | cons y xs ih =>
    obtain ⟨hy, hrest⟩ := rises_cons.mp h
    intro x hx
    rcases List.mem_cons.mp hx with rfl | hx
    · exact hy
    · exact hy.trans (ih hrest x hx)

theorem below_runningMax : Below xs (runningMax low xs) := by
  induction xs generalizing low with
  | nil => exact .nil
  | cons x xs ih => exact .cons (le_max_left x low) ih

theorem rises_runningMax : Rises low (runningMax low xs) := by
  induction xs generalizing low with
  | nil => exact rises_nil
  | cons x xs ih => exact rises_cons.mpr ⟨le_max_right x low, ih⟩

/-- It lies below each rising row above the given one. -/
theorem runningMax_least {low' : α} (hlow : low ≤ low') (hbelow : Below xs ys)
    (hrises : Rises low' ys) : Below (runningMax low xs) ys := by
  induction hbelow generalizing low low' with
  | nil => exact .nil
  | @cons x y xs ys hxy _ ih =>
    obtain ⟨hy, hrest⟩ := rises_cons.mp hrises
    have hmax : max x low ≤ y := max_le hxy (hlow.trans hy)
    exact .cons hmax (ih hmax hrest)

/-- A rising row stays as it is. -/
theorem runningMax_eq_self (h : Rises low xs) : runningMax low xs = xs := by
  induction xs generalizing low with
  | nil => rfl
  | cons x xs ih =>
    obtain ⟨hx, hrest⟩ := rises_cons.mp h
    rw [runningMax, max_eq_left hx, ih hrest]

end running_maxima
