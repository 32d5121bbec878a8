-- Pieces that cover a range of an order from one end to the other, each
-- piece starting where the one before it stopped.
import Mathlib.Order.Lattice
import Mathlib.Data.List.Chain

namespace tilings

variable {α T : Type} [LinearOrder T] {start stop : α → T}

/-- The pieces take up the range from `a` to `b`, one after the other. -/
def Tiles (start stop : α → T) : T → T → List α → Prop
  | a, b, [] => a = b
  | a, b, x :: xs => start x = a ∧ a ≤ stop x ∧ Tiles start stop (stop x) b xs

theorem tiles_le {a b : T} {xs : List α} (h : Tiles start stop a b xs) : a ≤ b := by
  induction xs generalizing a with
  | nil => exact le_of_eq h
  | cons x xs ih => exact h.2.1.trans (ih h.2.2)

theorem tiles_within {a b : T} {xs : List α} (h : Tiles start stop a b xs) {x : α} (hx : x ∈ xs) :
    a ≤ start x ∧ start x ≤ stop x ∧ stop x ≤ b := by
  induction xs generalizing a with
  | nil => cases hx
  | cons y ys ih =>
    obtain ⟨rfl, hle, hrest⟩ := h
    rcases List.mem_cons.mp hx with rfl | hx
    · exact ⟨le_rfl, hle, tiles_le hrest⟩
    · obtain ⟨hstart, hpiece, hstop⟩ := ih hrest hx
      exact ⟨hle.trans hstart, hpiece, hstop⟩

/-- What a reader of the pieces sees of a tiling. -/
structure Tiling (start stop : α → T) (a b : T) (xs : List α) : Prop where
  first : ∀ x ∈ xs.head?, start x = a
  last : ∀ x ∈ xs.getLast?, stop x = b
  joined : xs.IsChain fun x y => stop x = start y
  within : ∀ x ∈ xs, a ≤ start x ∧ start x ≤ stop x ∧ stop x ≤ b

theorem tiles_last {a b : T} {xs : List α} (h : Tiles start stop a b xs) :
    ∀ x ∈ xs.getLast?, stop x = b := by
  induction xs generalizing a with
  | nil => simp
  | cons y ys ih =>
    intro x hx
    cases ys with
    | nil =>
      obtain rfl : y = x := by simpa using hx
      exact h.2.2
    | cons z zs =>
      rw [List.getLast?_cons_cons] at hx
      exact ih h.2.2 x hx

theorem tiles_joined {a b : T} {xs : List α} (h : Tiles start stop a b xs) :
    xs.IsChain fun x y => stop x = start y := by
  induction xs generalizing a with
  | nil => exact List.IsChain.nil
  | cons y ys ih =>
    cases ys with
    | nil => exact List.IsChain.singleton y
    | cons z zs => exact List.IsChain.cons_cons h.2.2.1.symm (ih h.2.2)

theorem tiling_of_tiles {a b : T} {xs : List α} (h : Tiles start stop a b xs) :
    Tiling start stop a b xs where
  first := by
    cases xs with
    | nil => simp
    | cons y ys =>
      rintro x hx
      obtain rfl : y = x := by simpa using hx
      exact h.1
  last := tiles_last h
  joined := tiles_joined h
  within := fun _ hx => tiles_within h hx

end tilings
