-- How ffmpeg is told a tempo (`_apply_atempo`, `_build_atempo_chain` in `tts/speed_control.py`).
-- A stage takes a factor from a half to two, so a ratio beyond that is spread over several stages.
-- The floats are read as exact rationals; halving and doubling a float is exact as well.
import Mathlib.Data.Rat.Floor
import RecastAi.PyText
import RecastAi.SpeedControl
import RecastAi.WhileLoops

open py_text while_loops

namespace recast_rules.tts

/-! ## The code -/

/-- `f"{q:.6f}"` of a number that is not negative. -/
def sixDecimals (q : Rat) : String :=
  let n := (roundHalfEven (q * 10 ^ 6)).toNat
  let decimals := String.ofList (List.leftpad 6 '0' (Nat.toDigits 10 (n % 10 ^ 6)))
  s!"{n / 10 ^ 6}.{decimals}"

/-- A filter, and the factor that it was written for. -/
structure Stage where
  filter : String
  factor : Rat
deriving DecidableEq

def stageOf (remaining : Rat) : Stage := ⟨s!"atempo={sixDecimals remaining}", remaining⟩

/-- What the two loops work on. -/
structure Chain where
  filters : List Stage
  remaining : Rat

/-- One turn of a loop: the stage is appended, and the rest is divided by its factor. -/
def Chain.divideOut (stage : Stage) (c : Chain) : Chain :=
  ⟨c.filters ++ [stage], c.remaining / stage.factor⟩

/-- The stage for what remains after the loop. -/
def Chain.close (c : Chain) : List Stage := c.filters ++ [stageOf c.remaining]

/-- `_build_atempo_chain`, with a number of turns for its loops. -/
def buildAtempoChain (turns : Nat) (ratio : Rat) : Option (List Stage) :=
  if |ratio - 1| < 1 / 1000 then some [⟨"atempo=1.0", 1⟩]
  else if ratio > 2 then
    (whileLoop (fun c : Chain => c.remaining > 2) (Chain.divideOut ⟨"atempo=2.0", 2⟩) turns
      ⟨[], ratio⟩).map Chain.close
  else if ratio < 1 / 2 then
    (whileLoop (fun c : Chain => c.remaining < 1 / 2) (Chain.divideOut ⟨"atempo=0.5", 1 / 2⟩) turns
      ⟨[], ratio⟩).map Chain.close
  else some [stageOf ratio]

/-- `_apply_atempo`. Here `ffmpeg` runs with the text of the filters. -/
def applyAtempo (ffmpeg : String → List UInt8 → String → Except String (List UInt8)) (turns : Nat)
    (audioBytes : List UInt8) (ratio : Rat) (mimeType : String) :
    Option (Except String (List UInt8)) :=
  if ratio ≤ 0 then some (.error "ValueError")
  else
    (buildAtempoChain turns ratio).map fun filters =>
      ffmpeg (",".intercalate (filters.map Stage.filter)) audioBytes mimeType

example : (buildAtempoChain 5 5).map (List.map Stage.filter) =
    some ["atempo=2.0", "atempo=2.0", "atempo=1.250000"] := by decide +kernel

/-! ## What a turn keeps -/

def InBand (factor : Rat) : Prop := 1 / 2 ≤ factor ∧ factor ≤ 2

/-- The tempo of stages one after the other. -/
def tempo (stages : List Stage) : Rat := (stages.map Stage.factor).prod

theorem tempo_snoc (stages : List Stage) (stage : Stage) :
    tempo (stages ++ [stage]) = tempo stages * stage.factor := by
  simp [tempo]

/-- Stages that a ratio is spread over. -/
structure Spread (ratio : Rat) (stages : List Stage) : Prop where
  band : ∀ st ∈ stages, InBand st.factor
  tempo : tempo stages = ratio

/-- The stages so far and what remains make up the ratio. -/
structure Chain.Splits (ratio : Rat) (c : Chain) : Prop where
  band : ∀ st ∈ c.filters, InBand st.factor
  tempo : tempo c.filters * c.remaining = ratio

theorem splits_start (ratio : Rat) : Chain.Splits ratio ⟨[], ratio⟩ where
  band := fun _ h => absurd h List.not_mem_nil
  tempo := one_mul ratio

theorem band_snoc {stages : List Stage} {stage : Stage} (h : ∀ st ∈ stages, InBand st.factor)
    (hstage : InBand stage.factor) : ∀ st ∈ stages ++ [stage], InBand st.factor := by
  intro st hst
  rcases List.mem_append.mp hst with hst | hst
  · exact h st hst
  · rw [List.mem_singleton.mp hst]
    exact hstage

theorem InBand.ne_zero {factor : Rat} (h : InBand factor) : factor ≠ 0 := by
  rintro rfl
  exact absurd h.1 (by norm_num)

theorem splits_divideOut {ratio : Rat} {stage : Stage} {c : Chain} (hband : InBand stage.factor)
    (h : c.Splits ratio) : (c.divideOut stage).Splits ratio where
  band := band_snoc h.band hband
  tempo := by
    change tts.tempo (c.filters ++ [stage]) * (c.remaining / stage.factor) = ratio
    rw [tempo_snoc, mul_assoc, mul_div_cancel₀ _ hband.ne_zero]
    exact h.tempo

theorem spread_close {ratio : Rat} {c : Chain} (h : c.Splits ratio) (hband : InBand c.remaining) :
    Spread ratio c.close where
  band := band_snoc h.band hband
  tempo := (tempo_snoc c.filters (stageOf c.remaining)).trans h.tempo

/-! ## The loops -/

/-- A loop that divides out one stage ends, where each turn takes something from `units`. -/
theorem dividing_ends (guard : Rat → Bool) (units : Rat → Nat) {stage : Stage} {J : Rat → Prop}
    {ratio : Rat} (hband : InBand stage.factor)
    (hturn : ∀ q, J q → guard q = true → J (q / stage.factor) ∧ units (q / stage.factor) < units q)
    (hdone : ∀ q, J q → guard q = false → InBand q) (h0 : J ratio) :
    ∃ c : Chain, (∀ turns, units ratio ≤ turns →
      whileLoop (fun c : Chain => guard c.remaining) (Chain.divideOut stage) turns ⟨[], ratio⟩ =
        some c) ∧ Spread ratio c.close := by
  have hbody : ∀ c : Chain, c.Splits ratio ∧ J c.remaining → guard c.remaining = true →
      (c.divideOut stage).Splits ratio ∧ J (c.divideOut stage).remaining :=
    fun c hc hguard => ⟨splits_divideOut hband hc.1, (hturn c.remaining hc.2 hguard).1⟩
  have hless : ∀ c : Chain, c.Splits ratio ∧ J c.remaining → guard c.remaining = true →
      ((c.divideOut stage).Splits ratio ∧ J (c.divideOut stage).remaining) ∧
        units (c.divideOut stage).remaining < units c.remaining :=
    fun c hc hguard => ⟨hbody c hc hguard, (hturn c.remaining hc.2 hguard).2⟩
  obtain ⟨c, hc⟩ := whileLoop_ends (fun c : Chain => units c.remaining) hless
    ⟨splits_start ratio, h0⟩ le_rfl
  obtain ⟨⟨hsplits, hJ⟩, hguard⟩ := whileLoop_rule hbody ⟨splits_start ratio, h0⟩ hc
  exact ⟨c, fun turns hturns => whileLoop_more hc hturns,
    spread_close hsplits (hdone c.remaining hJ hguard)⟩

/-- Half of more than two is a unit less at least. -/
theorem half_is_less {q : Rat} (h : 2 < q) : ⌈q / 2⌉₊ < ⌈q⌉₊ := by
  have hle : q / 2 + 1 ≤ q := by linarith
  calc ⌈q / 2⌉₊ < ⌈q / 2⌉₊ + 1 := Nat.lt_succ_self _
    _ = ⌈q / 2 + 1⌉₊ := (Nat.ceil_add_one (by linarith)).symm
    _ ≤ ⌈q⌉₊ := Nat.ceil_mono hle

theorem halving_ends {ratio : Rat} (h : 2 < ratio) :
    ∃ c : Chain, (∀ turns, ⌈ratio⌉₊ ≤ turns →
      whileLoop (fun c : Chain => c.remaining > 2) (Chain.divideOut ⟨"atempo=2.0", 2⟩) turns
        ⟨[], ratio⟩ = some c) ∧ Spread ratio c.close := by
  refine dividing_ends (fun q => decide (q > 2)) (fun q => ⌈q⌉₊) (J := fun q => 1 / 2 ≤ q)
    ⟨by norm_num, le_rfl⟩ ?_ ?_ (by linarith)
  · intro q _ hguard
    have hq : 2 < q := of_decide_eq_true hguard
    exact ⟨by dsimp only; linarith, half_is_less hq⟩
  · intro q hJ hguard
    exact ⟨hJ, not_lt.mp (of_decide_eq_false hguard)⟩

theorem doubling_ends {ratio : Rat} (hpos : 0 < ratio) (h : ratio < 1 / 2) :
    ∃ c : Chain, (∀ turns, ⌈1 / ratio⌉₊ ≤ turns →
      whileLoop (fun c : Chain => c.remaining < 1 / 2) (Chain.divideOut ⟨"atempo=0.5", 1 / 2⟩) turns
        ⟨[], ratio⟩ = some c) ∧ Spread ratio c.close := by
  refine dividing_ends (fun q => decide (q < 1 / 2)) (fun q => ⌈1 / q⌉₊)
    (J := fun q => 0 < q ∧ q ≤ 2) ⟨le_rfl, by norm_num⟩ ?_ ?_ ⟨hpos, by linarith⟩
  · rintro q ⟨hq, -⟩ hguard
    have hsmall : q < 1 / 2 := of_decide_eq_true hguard
    have hinverse : 2 < 1 / q := by
      rw [lt_div_iff₀ hq]
      linarith
    have hhalf : 1 / (q / (1 / 2)) = 1 / q / 2 := by
      field_simp
    refine ⟨⟨by dsimp only; linarith, by dsimp only; linarith⟩, ?_⟩
    dsimp only
    rw [hhalf]
    exact half_is_less hinverse
  · rintro q ⟨-, hle⟩ hguard
    exact ⟨not_lt.mp (of_decide_eq_false hguard), hle⟩

/-- From a ratio that is not positive the loop would never end. -/
theorem doubling_never_ends {ratio : Rat} (h : ratio ≤ 0) (turns : Nat) :
    buildAtempoChain turns ratio = none := by
  have hfar : ¬|ratio - 1| < 1 / 1000 := by
    rw [abs_lt]
    rintro ⟨hlow, -⟩
    linarith
  have hslow : ¬ratio > 2 := by linarith
  have hloop : whileLoop (fun c : Chain => c.remaining < 1 / 2)
      (Chain.divideOut ⟨"atempo=0.5", 1 / 2⟩) turns ⟨[], ratio⟩ = none := by
    refine whileLoop_never (I := fun c : Chain => c.remaining ≤ 0) (fun c hc => ?_) h turns
    refine ⟨decide_eq_true (by linarith), ?_⟩
    change c.remaining / (1 / 2) ≤ 0
    linarith
  unfold buildAtempoChain
  rw [if_neg hfar, if_neg hslow, if_pos (by linarith), hloop]
  rfl

/-! ## The law -/

theorem chain_near {ratio : Rat} (h : |ratio - 1| < 1 / 1000) (turns : Nat) :
    buildAtempoChain turns ratio = some [⟨"atempo=1.0", 1⟩] := if_pos h

/-- A positive ratio is spread over its stages, in turns that are as many as the ratio or its
inverse has units at most. -/
theorem chain_far {ratio : Rat} (h : 0 < ratio) (hfar : ¬|ratio - 1| < 1 / 1000) :
    ∃ stages, (∀ turns, max ⌈ratio⌉₊ ⌈1 / ratio⌉₊ ≤ turns →
      buildAtempoChain turns ratio = some stages) ∧ Spread ratio stages := by
  unfold buildAtempoChain
  simp only [if_neg hfar]
  by_cases hfast : ratio > 2
  · obtain ⟨c, hloop, hspread⟩ := halving_ends hfast
    simp only [if_pos hfast]
    refine ⟨c.close, fun turns hturns => ?_, hspread⟩
    rw [hloop turns ((le_max_left _ _).trans hturns)]
    rfl
  · simp only [if_neg hfast]
    by_cases hslow : ratio < 1 / 2
    · obtain ⟨c, hloop, hspread⟩ := doubling_ends h hslow
      simp only [if_pos hslow]
      refine ⟨c.close, fun turns hturns => ?_, hspread⟩
      rw [hloop turns ((le_max_right _ _).trans hturns)]
      rfl
    · simp only [if_neg hslow]
      exact ⟨_, fun _ _ => rfl,
        spread_close (splits_start ratio) ⟨not_lt.mp hslow, not_lt.mp hfast⟩⟩

/-- `_apply_atempo` comes to ffmpeg or raises, whatever the ratio is. -/
theorem applyAtempo_returns
    (ffmpeg : String → List UInt8 → String → Except String (List UInt8)) (audioBytes : List UInt8)
    (ratio : Rat) (mimeType : String) :
    ∃ result, ∀ turns, max ⌈ratio⌉₊ ⌈1 / ratio⌉₊ ≤ turns →
      applyAtempo ffmpeg turns audioBytes ratio mimeType = some result := by
  unfold applyAtempo
  by_cases hpos : ratio ≤ 0
  · simp only [if_pos hpos]
    exact ⟨_, fun _ _ => rfl⟩
  · simp only [if_neg hpos]
    by_cases hnear : |ratio - 1| < 1 / 1000
    · exact ⟨_, fun turns _ => congrArg (Option.map _) (chain_near hnear turns)⟩
    · obtain ⟨stages, hstages, -⟩ := chain_far (not_le.mp hpos) hnear
      exact ⟨_, fun turns hturns => congrArg (Option.map _) (hstages turns hturns)⟩

/-- A factor in the band is written as one: the millionths are rounded to no less than a half and
to no more than two. -/
theorem written_in_band {factor : Rat} (h : InBand factor) :
    500000 ≤ roundHalfEven (factor * 10 ^ 6) ∧ roundHalfEven (factor * 10 ^ 6) ≤ 2000000 := by
  have hlow : ((500000 : Int) : Rat) ≤ factor * 10 ^ 6 := by
    have := h.1
    push_cast
    linarith
  have hhigh : factor * 10 ^ 6 ≤ ((2000000 : Int) : Rat) := by
    have := h.2
    push_cast
    linarith
  have hlow' := roundHalfEven_monotone hlow
  have hhigh' := roundHalfEven_monotone hhigh
  rw [roundHalfEven_intCast] at hlow' hhigh'
  exact ⟨hlow', hhigh'⟩

/-- For a positive ratio the chain is built. Its stages are in the band of `atempo` and make up the
ratio, and a ratio near one has the single stage of factor one. -/
theorem atempo_chain_multiplies_to_the_ratio {ratio : Rat} (h : 0 < ratio) :
    ∃ stages, (∀ turns, max ⌈ratio⌉₊ ⌈1 / ratio⌉₊ ≤ turns →
        buildAtempoChain turns ratio = some stages) ∧
      (∀ st ∈ stages, InBand st.factor) ∧
      (|ratio - 1| < 1 / 1000 → stages = [⟨"atempo=1.0", 1⟩]) ∧
      (¬|ratio - 1| < 1 / 1000 → tempo stages = ratio) := by
  by_cases hnear : |ratio - 1| < 1 / 1000
  · refine ⟨_, fun turns _ => chain_near hnear turns, ?_, fun _ => rfl,
      fun hfar => absurd hnear hfar⟩
    intro st hst
    rw [List.mem_singleton.mp hst]
    exact ⟨by norm_num, by norm_num⟩
  · obtain ⟨stages, hstages, hspread⟩ := chain_far h hnear
    exact ⟨stages, hstages, hspread.band, fun hn => absurd hn hnear, fun _ => hspread.tempo⟩

/-- Five is two, two and five quarters. -/
theorem a_fivefold_tempo_has_its_chain :
    ∃ stages, (∀ turns, max ⌈(5 : Rat)⌉₊ ⌈1 / (5 : Rat)⌉₊ ≤ turns →
        buildAtempoChain turns 5 = some stages) ∧
      (∀ st ∈ stages, InBand st.factor) ∧
      (|(5 : Rat) - 1| < 1 / 1000 → stages = [⟨"atempo=1.0", 1⟩]) ∧
      (¬|(5 : Rat) - 1| < 1 / 1000 → tempo stages = 5) :=
  atempo_chain_multiplies_to_the_ratio (by norm_num)

end recast_rules.tts
