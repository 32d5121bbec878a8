-- Weighted geometric means, as the exponential of the weighted sum of the logarithms. Where the
-- weights are fractions with one denominator, the mean is compared with a bound by whole powers.
import Mathlib.Analysis.SpecialFunctions.Log.Basic

namespace geometric_means

/-- A list of weights and parts. -/
noncomputable def mean (parts : List (ℝ × ℝ)) : ℝ :=
  Real.exp (parts.map fun p => p.1 * Real.log p.2).sum

/-- The product of the parts, each taken as often as its weight says. -/
def powers {K : Type*} [CommSemiring K] (parts : List (ℕ × K)) : K :=
  (parts.map fun p => p.2 ^ p.1).prod

/-- The weights divided by `n`. -/
noncomputable def fractions (n : ℕ) (parts : List (ℕ × ℝ)) : List (ℝ × ℝ) :=
  parts.map fun p => (p.1 / n, p.2)

theorem mean_pos (parts : List (ℝ × ℝ)) : 0 < mean parts := Real.exp_pos _

theorem mean_cons (w x : ℝ) (parts : List (ℝ × ℝ)) :
    mean ((w, x) :: parts) = Real.exp (w * Real.log x) * mean parts := by
  unfold mean
  rw [List.map_cons, List.sum_cons, Real.exp_add]

/-- With parts up to one, each part more lowers the mean. -/
theorem mean_le_one {parts : List (ℝ × ℝ)} (h : ∀ p ∈ parts, 0 ≤ p.1 ∧ 0 < p.2 ∧ p.2 ≤ 1) :
    mean parts ≤ 1 := by
  induction parts with
  | nil => simp [mean]
  | cons p parts ih =>
    obtain ⟨w, x⟩ := p
    obtain ⟨hw, hpos, hone⟩ := h (w, x) List.mem_cons_self
    have hfirst : Real.exp (w * Real.log x) ≤ 1 :=
      Real.exp_le_one_iff.mpr (mul_nonpos_of_nonneg_of_nonpos hw (Real.log_nonpos hpos.le hone))
    rw [mean_cons]
    exact mul_le_one₀ hfirst (mean_pos _).le (ih fun p hp => h p (List.mem_cons_of_mem _ hp))

/-- The power of a mean whose weights have the denominator `n`. -/
theorem mean_fractions_pow {n : ℕ} (hn : n ≠ 0) {parts : List (ℕ × ℝ)} (h : ∀ p ∈ parts, 0 < p.2) :
    mean (fractions n parts) ^ n = powers parts := by
  induction parts with
  | nil => simp [fractions, mean, powers]
  | cons p parts ih =>
    obtain ⟨k, x⟩ := p
    have hx : 0 < x := h (k, x) List.mem_cons_self
    have hn' : (n : ℝ) ≠ 0 := Nat.cast_ne_zero.mpr hn
    have hfirst : Real.exp (k / n * Real.log x) ^ n = x ^ k := by
      rw [← Real.exp_nat_mul, ← mul_assoc, mul_div_cancel₀ _ hn', Real.exp_nat_mul, Real.exp_log hx]
    calc mean (fractions n ((k, x) :: parts)) ^ n
        = (Real.exp (k / n * Real.log x) * mean (fractions n parts)) ^ n := by
          rw [fractions, List.map_cons, mean_cons]
          rfl
      _ = x ^ k * powers parts := by
          rw [mul_pow, hfirst, ih fun p hp => h p (List.mem_cons_of_mem _ hp)]
      _ = powers ((k, x) :: parts) := by
          unfold powers
          rw [List.map_cons, List.prod_cons]

/-- A bound is met exactly where its power is. -/
theorem le_mean_fractions_iff {n : ℕ} (hn : n ≠ 0) {parts : List (ℕ × ℝ)} (h : ∀ p ∈ parts, 0 < p.2)
    (t : ℝ) : t ≤ mean (fractions n parts) ↔ t ≤ 0 ∨ t ^ n ≤ powers parts := by
  rw [← mean_fractions_pow hn h]
  rcases le_or_gt t 0 with ht | ht
  · exact ⟨fun _ => .inl ht, fun _ => ht.trans (mean_pos _).le⟩
  · rw [pow_le_pow_iff_left₀ ht.le (mean_pos _).le hn]
    exact ⟨.inr, fun hor => hor.resolve_left ht.not_ge⟩

theorem powers_cast (parts : List (ℕ × ℚ)) :
    ((powers parts : ℚ) : ℝ) = powers (parts.map fun p => (p.1, (p.2 : ℝ))) := by
  induction parts with
  | nil => simp [powers]
  | cons p parts ih =>
    simp only [powers, List.map_cons, List.prod_cons, Rat.cast_mul, Rat.cast_pow] at ih ⊢
    rw [ih]

end geometric_means
