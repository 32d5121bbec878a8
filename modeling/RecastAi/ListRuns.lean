-- The runs of a list between its separators, as a loop finds them that carries the run
-- it is reading.
import Mathlib.Data.List.Basic

namespace list_runs

variable {α β : Type} {p : α → Bool}

/-- The runs between the elements where `p` holds. -/
def runs (p : α → Bool) (xs : List α) : List (List α) := (xs.splitOnP p).filter (!·.isEmpty)

/-- The runs of what is left, after `run` has been read without a separator. -/
noncomputable def runsAfter (p : α → Bool) (run xs : List α) : List (List α) :=
  (xs.splitOnPPrepend p run.reverse).filter (!·.isEmpty)

theorem runsAfter_nothing (xs : List α) : runsAfter p [] xs = runs p xs := rfl

theorem runsAfter_nil (run : List α) : runsAfter p run [] = if run = [] then [] else [run] := by
  unfold runsAfter
  rw [List.splitOnPPrepend_nil, List.reverse_reverse]
  cases run <;> rfl

theorem runsAfter_separator {x : α} (h : p x = true) (run xs : List α) :
    runsAfter p run (x :: xs) = (if run = [] then [] else [run]) ++ runs p xs := by
  unfold runsAfter
  rw [List.splitOnPPrepend_cons_pos h, List.reverse_reverse]
  cases run <;> rfl

theorem runsAfter_element {x : α} (h : p x = false) (run xs : List α) :
    runsAfter p run (x :: xs) = runsAfter p (run ++ [x]) xs := by
  unfold runsAfter
  rw [List.splitOnPPrepend_cons_neg h, List.reverse_append, List.reverse_singleton,
    List.singleton_append]

/-! ## What the runs hold -/

theorem run_not_empty {xs r : List α} (h : r ∈ runs p xs) : r ≠ [] := by
  rintro rfl
  have := (List.mem_filter.mp h).2
  simp at this

/-- Nothing but separators is lost, and nothing is doubled. -/
theorem flatten_runsAfter (run xs : List α) :
    (runsAfter p run xs).flatten = run ++ xs.filter (!p ·) := by
  induction xs generalizing run with
  | nil =>
    rw [runsAfter_nil]
    cases run <;> simp
  | cons x xs ih =>
    cases h : p x with
    | true =>
      rw [runsAfter_separator h, List.flatten_append, ← runsAfter_nothing, ih]
      cases run <;> simp [h]
    | false =>
      rw [runsAfter_element h, ih]
      simp [h]

theorem flatten_runs (xs : List α) : (runs p xs).flatten = xs.filter (!p ·) :=
  flatten_runsAfter [] xs

theorem runsAfter_map (f : α → β) (p : β → Bool) (run xs : List α) :
    runsAfter p (run.map f) (xs.map f) = (runsAfter (p ∘ f) run xs).map (List.map f) := by
  induction xs generalizing run with
  | nil =>
    rw [List.map_nil, runsAfter_nil, runsAfter_nil]
    cases run <;> rfl
  | cons x xs ih =>
    rw [List.map_cons]
    cases h : p (f x) with
    | true =>
      have hnext := ih []
      rw [List.map_nil, runsAfter_nothing, runsAfter_nothing] at hnext
      rw [runsAfter_separator h, runsAfter_separator (p := p ∘ f) h, hnext, List.map_append]
      cases run <;> rfl
    | false =>
      rw [runsAfter_element h, runsAfter_element (p := p ∘ f) h, ← ih, List.map_append,
        List.map_singleton]

theorem runs_map (f : α → β) (p : β → Bool) (xs : List α) :
    runs p (xs.map f) = (runs (p ∘ f) xs).map (List.map f) :=
  runsAfter_map f p [] xs

/-- What holds of the elements one after the other holds in each run and from run to run. -/
theorem runs_pairwise {R : α → α → Prop} {xs : List α} (h : xs.Pairwise R) :
    (∀ r ∈ runs p xs, r.Pairwise R) ∧
      (runs p xs).Pairwise fun r r' => ∀ x ∈ r, ∀ y ∈ r', R x y := by
  rw [← List.pairwise_flatten, flatten_runs]
  exact h.filter _

end list_runs
