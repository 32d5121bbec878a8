-- A loop that runs while its guard holds. It is followed for a number of turns, and what it ends
-- with does not depend on that number.
import Mathlib.Data.Nat.Basic

namespace while_loops

variable {S : Type} {guard : S → Bool} {body : S → S} {I : S → Prop} {s t : S}

/-- The state in which the loop ends, where it ends within that many turns. -/
def whileLoop (guard : S → Bool) (body : S → S) : Nat → S → Option S
  | 0, s => if guard s then none else some s
  | turns + 1, s => if guard s then whileLoop guard body turns (body s) else some s

theorem whileLoop_exit (turns : Nat) (h : guard s = false) :
    whileLoop guard body turns s = some s := by
  cases turns <;> simp [whileLoop, h]

theorem whileLoop_turn {turns : Nat} (h : guard s = true) :
    whileLoop guard body (turns + 1) s = whileLoop guard body turns (body s) := by
  simp [whileLoop, h]

/-- The loop stops at once, or it makes a turn. -/
theorem whileLoop_cases {turns : Nat} (h : whileLoop guard body turns s = some t) :
    guard s = false ∧ t = s ∨
      ∃ fewer, turns = fewer + 1 ∧ guard s = true ∧ whileLoop guard body fewer (body s) = some t := by
  cases hguard : guard s with
  | false =>
    rw [whileLoop_exit turns hguard, Option.some.injEq] at h
    exact Or.inl ⟨rfl, h.symm⟩
  | true =>
    cases turns with
    | zero => simp [whileLoop, hguard] at h
    | succ fewer =>
      rw [whileLoop_turn hguard] at h
      exact Or.inr ⟨fewer, rfl, rfl, h⟩

/-- More turns make no difference to a loop that has ended. -/
theorem whileLoop_more {turns more : Nat} (h : whileLoop guard body turns s = some t)
    (hle : turns ≤ more) : whileLoop guard body more s = some t := by
  induction more generalizing s turns with
  | zero =>
    obtain rfl : turns = 0 := by omega
    exact h
  | succ more ih =>
    rcases whileLoop_cases h with ⟨hguard, rfl⟩ | ⟨fewer, rfl, hguard, hrest⟩
    · exact whileLoop_exit _ hguard
    · rw [whileLoop_turn hguard]
      exact ih hrest (by omega)

/-- The invariant rule: what each turn keeps holds at the end, and the guard does not. -/
theorem whileLoop_rule {turns : Nat} (hbody : ∀ s, I s → guard s = true → I (body s)) (h0 : I s)
    (h : whileLoop guard body turns s = some t) : I t ∧ guard t = false := by
  induction turns generalizing s with
  | zero =>
    rcases whileLoop_cases h with ⟨hguard, rfl⟩ | ⟨fewer, hfewer, -⟩
    · exact ⟨h0, hguard⟩
    · omega
  | succ turns ih =>
    rcases whileLoop_cases h with ⟨hguard, rfl⟩ | ⟨fewer, hfewer, hguard, hrest⟩
    · exact ⟨h0, hguard⟩
    · obtain rfl : turns = fewer := by omega
      exact ih (hbody s h0 hguard) hrest

/-- A loop ends where each turn takes something from a potential. -/
theorem whileLoop_ends (potential : S → Nat)
    (hbody : ∀ s, I s → guard s = true → I (body s) ∧ potential (body s) < potential s)
    {turns : Nat} (h0 : I s) (hturns : potential s ≤ turns) :
    ∃ t, whileLoop guard body turns s = some t := by
  induction turns generalizing s with
  | zero =>
    cases hguard : guard s with
    | true => exact absurd (hbody s h0 hguard).2 (by omega)
    | false => exact ⟨s, whileLoop_exit 0 hguard⟩
  | succ turns ih =>
    cases hguard : guard s with
    | true =>
      obtain ⟨hI, hless⟩ := hbody s h0 hguard
      rw [whileLoop_turn hguard]
      exact ih hI (by omega)
    | false => exact ⟨s, whileLoop_exit _ hguard⟩

/-- A loop whose guard is kept never ends. -/
theorem whileLoop_never (hbody : ∀ s, I s → guard s = true ∧ I (body s)) (h0 : I s) (turns : Nat) :
    whileLoop guard body turns s = none := by
  induction turns generalizing s with
  | zero => simp [whileLoop, (hbody s h0).1]
  | succ turns ih =>
    rw [whileLoop_turn (hbody s h0).1]
    exact ih (hbody s h0).2

end while_loops
