-- How the audio of a segment is fitted to its scene (`tts/speed_control.py`), and what the
-- quality gate finds of its length (`tts/quality.py`). The floats are read as exact rationals.
import Mathlib.Algebra.Order.Field.Rat
import Mathlib.Algebra.Order.Group.Abs
import Mathlib.Tactic.FieldSimp
import Mathlib.Tactic.Linarith

namespace recast_rules.tts

/-! ## The fitter -/

def minRatio : Rat := 3 / 4

def maxRatio : Rat := 3 / 2

structure FitResult where
  audioBytes : List UInt8
  finalDurationMs : Int
  appliedRatio : Rat
  speedFlagged : Bool
  mimeType : String
deriving DecidableEq

/-- `_apply_atempo`: ffmpeg plays the audio faster by a ratio, or it fails. -/
abbrev Atempo := List UInt8 → Rat → String → Except String (List UInt8)

/-- The audio is left as it is. -/
def unfitted (audioBytes : List UInt8) (currentMs : Int) (mimeType : String) (speedFlagged : Bool) :
    FitResult := ⟨audioBytes, currentMs, 1, speedFlagged, mimeType⟩

def fitToSegment (applyAtempo : Atempo) (audioBytes : List UInt8) (currentMs targetMs : Int)
    (mimeType : String) : Except String FitResult :=
  if currentMs ≤ 0 then .ok (unfitted audioBytes currentMs mimeType true)
  else if targetMs ≤ 0 then .ok (unfitted audioBytes currentMs mimeType true)
  else
    let ratio : Rat := currentMs / targetMs
    if ratio < minRatio ∨ ratio > maxRatio then .ok (unfitted audioBytes currentMs mimeType true)
    else if |ratio - 1| < 1 / 100 then .ok (unfitted audioBytes currentMs mimeType false)
    else
      match applyAtempo audioBytes ratio mimeType with
      | .error e => .error e
      | .ok adjusted => .ok ⟨adjusted, targetMs, ratio, false, mimeType⟩

/-! ## The gate -/

def minAtempo : Rat := 3 / 4

def maxAtempo : Rat := 3 / 2

/-- `int(x)` cuts at the point. -/
def cut (q : Rat) : Int := q.num.tdiv q.den

/-- The score, and by how much the audio is too long and too short. -/
def scoreDurationFit (audioMs targetMs : Int) : Rat × Int × Int :=
  if targetMs ≤ 0 ∨ audioMs ≤ 0 then (1, 0, 0)
  else
    let minAudioMs := minAtempo * targetMs
    let maxAudioMs := maxAtempo * targetMs
    if minAudioMs ≤ audioMs ∧ audioMs ≤ maxAudioMs then (1, 0, 0)
    else if audioMs > maxAudioMs then
      let overflow := cut (audioMs - maxAudioMs)
      (max 0 (1 - overflow / 10000), overflow, 0)
    else
      let underflow := cut (minAudioMs - audioMs)
      (max 0 (1 - underflow / 10000), 0, underflow)

/-- `lufs` is `none` where it is not finite. -/
def diagnose (overflowMs underflowMs : Int) (silenceRatio : Rat) (lufs : Option Rat) :
    List String :=
  (if overflowMs > 0 then ["too_long_for_scene"] else []) ++
    (if underflowMs > 0 then ["too_short_for_scene"] else []) ++
    (if silenceRatio > 1 / 4 then ["excessive_silence"] else []) ++
    (if ∃ x ∈ lufs, x > -8 then ["too_loud"] else []) ++
    (if ∃ x ∈ lufs, x < -30 then ["too_quiet"] else [])

/-! ## What the fitter does -/

section Fitter

variable {applyAtempo : Atempo} {audioBytes : List UInt8} {currentMs targetMs : Int}
  {mimeType : String}

/-- The audio can be fitted. -/
def Fits (currentMs targetMs : Int) : Prop :=
  0 < currentMs ∧ 0 < targetMs ∧ minRatio ≤ (currentMs / targetMs : Rat) ∧
    (currentMs / targetMs : Rat) ≤ maxRatio

/-- The audio is nearly as long as the scene. -/
def NearlyFits (currentMs targetMs : Int) : Prop := |(currentMs / targetMs : Rat) - 1| < 1 / 100

/-- What the fitter may answer. -/
inductive Fitted (applyAtempo : Atempo) (audioBytes : List UInt8) (currentMs targetMs : Int)
    (mimeType : String) : Except String FitResult → Prop where
  | flagged (h : ¬ Fits currentMs targetMs) :
      Fitted applyAtempo audioBytes currentMs targetMs mimeType
        (.ok (unfitted audioBytes currentMs mimeType true))
  | kept (h : Fits currentMs targetMs) (hnear : NearlyFits currentMs targetMs) :
      Fitted applyAtempo audioBytes currentMs targetMs mimeType
        (.ok (unfitted audioBytes currentMs mimeType false))
  | failed (h : Fits currentMs targetMs) (e : String)
      (hfails : applyAtempo audioBytes (currentMs / targetMs) mimeType = .error e) :
      Fitted applyAtempo audioBytes currentMs targetMs mimeType (.error e)
  | stretched (h : Fits currentMs targetMs) (hfar : ¬ NearlyFits currentMs targetMs)
      (adjusted : List UInt8)
      (hok : applyAtempo audioBytes (currentMs / targetMs) mimeType = .ok adjusted) :
      Fitted applyAtempo audioBytes currentMs targetMs mimeType
        (.ok ⟨adjusted, targetMs, currentMs / targetMs, false, mimeType⟩)

theorem fitToSegment_cases (applyAtempo : Atempo) (audioBytes : List UInt8)
    (currentMs targetMs : Int) (mimeType : String) :
    Fitted applyAtempo audioBytes currentMs targetMs mimeType
      (fitToSegment applyAtempo audioBytes currentMs targetMs mimeType) := by
  unfold fitToSegment
  split
  · rename_i hcurrent
    exact .flagged fun h => absurd h.1 (not_lt.mpr hcurrent)
  · rename_i hcurrent
    split
    · rename_i htarget
      exact .flagged fun h => absurd h.2.1 (not_lt.mpr htarget)
    · rename_i htarget
      dsimp only
      split
      · rename_i hbounds
        refine .flagged fun h => ?_
        rcases hbounds with hlow | hhigh
        · exact absurd h.2.2.1 (not_le.mpr hlow)
        · exact absurd h.2.2.2 (not_le.mpr hhigh)
      · rename_i hbounds
        have hfits : Fits currentMs targetMs := ⟨not_le.mp hcurrent, not_le.mp htarget,
          not_lt.mp fun h => hbounds (Or.inl h), not_lt.mp fun h => hbounds (Or.inr h)⟩
        split
        · rename_i hnear
          exact .kept hfits hnear
        · rename_i hfar
          split
          · rename_i e he
            exact .failed hfits e he
          · rename_i adjusted hok
            exact .stretched hfits hfar adjusted hok

/-- The fitter flags the segment. -/
def Flags (x : Except String FitResult) : Prop := ∃ fit, x = .ok fit ∧ fit.speedFlagged = true

theorem flags_iff : Flags (fitToSegment applyAtempo audioBytes currentMs targetMs mimeType) ↔
    ¬ Fits currentMs targetMs := by
  have hcases := fitToSegment_cases applyAtempo audioBytes currentMs targetMs mimeType
  generalize fitToSegment applyAtempo audioBytes currentMs targetMs mimeType = x at hcases ⊢
  unfold Flags
  cases hcases with
  | flagged h => exact ⟨fun _ => h, fun _ => ⟨_, rfl, rfl⟩⟩
  | kept h _ =>
    refine ⟨?_, fun hno => absurd h hno⟩
    rintro ⟨fit, hfit, hflag⟩
    obtain rfl := Except.ok.inj hfit
    cases hflag
  | failed h _ _ =>
    refine ⟨?_, fun hno => absurd h hno⟩
    rintro ⟨fit, hfit, -⟩
    cases hfit
  | stretched h _ _ _ =>
    refine ⟨?_, fun hno => absurd h hno⟩
    rintro ⟨fit, hfit, hflag⟩
    obtain rfl := Except.ok.inj hfit
    cases hflag

/-- An audio with the ratio 1 is the one that came in. -/
theorem unstretched_of_ratio {fit : FitResult}
    (h : fitToSegment applyAtempo audioBytes currentMs targetMs mimeType = .ok fit)
    (hratio : fit.appliedRatio = 1) : fit.finalDurationMs = currentMs := by
  have hcases := fitToSegment_cases applyAtempo audioBytes currentMs targetMs mimeType
  rw [h] at hcases
  cases hcases with
  | flagged _ => rfl
  | kept _ _ => rfl
  | stretched _ hfar _ _ =>
    have hratio' : (currentMs / targetMs : Rat) = 1 := hratio
    unfold NearlyFits at hfar
    rw [hratio', sub_self, abs_zero] at hfar
    exact absurd (by norm_num) hfar

end Fitter

/-! ## What the gate finds -/

theorem fits_iff {audioMs targetMs : Int} (ha : 0 < audioMs) (ht : 0 < targetMs) :
    Fits audioMs targetMs ↔
      minAtempo * targetMs ≤ audioMs ∧ (audioMs : Rat) ≤ maxAtempo * targetMs := by
  have hpos : (0 : Rat) < targetMs := by exact_mod_cast ht
  unfold Fits
  rw [le_div_iff₀ hpos, div_le_iff₀ hpos]
  exact ⟨fun h => h.2.2, fun h => ⟨ha, ht, h⟩⟩

theorem cut_nonneg {q : Rat} (h : 0 ≤ q) : cut q = q.floor := by
  unfold cut
  rw [Rat.floor_def, Int.tdiv_eq_ediv_of_nonneg (Rat.num_nonneg.mpr h)]

theorem cut_eq_zero_iff {q : Rat} (h : 0 ≤ q) : cut q = 0 ↔ q < 1 := by
  have hfloor : 0 ≤ q.floor := Rat.le_floor_iff.mpr h
  have hlt : q.floor < 1 ↔ q < ((1 : Int) : Rat) := Rat.floor_lt_iff
  rw [cut_nonneg h]
  rw [Int.cast_one] at hlt
  rw [← hlt]
  omega

/-- The audio is beyond what can be fitted, by less than a millisecond. -/
def JustBeyond (audioMs targetMs : Int) : Prop :=
  (maxAtempo * targetMs < audioMs ∧ (audioMs : Rat) < maxAtempo * targetMs + 1) ∨
    ((audioMs : Rat) < minAtempo * targetMs ∧ minAtempo * targetMs < audioMs + 1)

instance (audioMs targetMs : Int) : Decidable (JustBeyond audioMs targetMs) :=
  inferInstanceAs (Decidable ((_ ∧ _) ∨ (_ ∧ _)))

/-- What the gate finds, by where the audio lies. -/
inductive Gated (audioMs targetMs : Int) : Rat × Int × Int → Prop where
  | fits (h : Fits audioMs targetMs) : Gated audioMs targetMs (1, 0, 0)
  | long (h : maxAtempo * targetMs < audioMs) (score : Rat)
      (hscore : cut (audioMs - maxAtempo * targetMs) = 0 → score = 1) :
      Gated audioMs targetMs (score, cut (audioMs - maxAtempo * targetMs), 0)
  | short (h : (audioMs : Rat) < minAtempo * targetMs) (score : Rat)
      (hscore : cut (minAtempo * targetMs - audioMs) = 0 → score = 1) :
      Gated audioMs targetMs (score, 0, cut (minAtempo * targetMs - audioMs))

theorem score_of_no_excess {excess : Int} (h : excess = 0) :
    (max 0 (1 - excess / 10000) : Rat) = 1 := by
  rw [h, Int.cast_zero, zero_div, sub_zero]
  exact max_eq_right zero_le_one

theorem scoreDurationFit_cases {audioMs targetMs : Int} (ha : 0 < audioMs) (ht : 0 < targetMs) :
    Gated audioMs targetMs (scoreDurationFit audioMs targetMs) := by
  unfold scoreDurationFit
  rw [if_neg (by omega)]
  dsimp only
  split
  · rename_i hin
    exact .fits ((fits_iff ha ht).mpr hin)
  · rename_i hout
    split
    · rename_i hlong
      exact .long hlong _ score_of_no_excess
    · rename_i hnotlong
      refine .short ?_ _ score_of_no_excess
      rw [not_and_or, not_le, not_le] at hout
      exact hout.resolve_right hnotlong

theorem bounds_ordered {targetMs : Int} (ht : 0 < targetMs) :
    minAtempo * targetMs < maxAtempo * targetMs := by
  have hpos : (0 : Rat) < targetMs := by exact_mod_cast ht
  exact mul_lt_mul_of_pos_right (by decide +kernel) hpos

theorem perfect_iff {audioMs targetMs : Int} (ha : 0 < audioMs) (ht : 0 < targetMs) :
    scoreDurationFit audioMs targetMs = (1, 0, 0) ↔
      Fits audioMs targetMs ∨ JustBeyond audioMs targetMs := by
  have hbounds := bounds_ordered ht
  have hcases := scoreDurationFit_cases ha ht
  generalize scoreDurationFit audioMs targetMs = x at hcases ⊢
  rw [fits_iff ha ht]
  unfold JustBeyond
  cases hcases with
  | fits h => exact ⟨fun _ => Or.inl ((fits_iff ha ht).mp h), fun _ => rfl⟩
  | long h score hscore =>
    have hzero := cut_eq_zero_iff (q := audioMs - maxAtempo * targetMs) (by linarith)
    constructor
    · intro heq
      have hlt := hzero.mp (congrArg (fun p => p.2.1) heq)
      exact Or.inr (Or.inl ⟨h, by linarith⟩)
    · rintro (⟨-, hle⟩ | ⟨-, hlt⟩ | ⟨hlow, -⟩)
      · exact absurd h (not_lt.mpr hle)
      · have hcut := hzero.mpr (by linarith)
        rw [hscore hcut, hcut]
      · linarith
  | short h score hscore =>
    have hzero := cut_eq_zero_iff (q := minAtempo * targetMs - audioMs) (by linarith)
    constructor
    · intro heq
      have hlt := hzero.mp (congrArg (fun p => p.2.2) heq)
      exact Or.inr (Or.inr ⟨h, by linarith⟩)
    · rintro (⟨hle, -⟩ | ⟨hhigh, -⟩ | ⟨-, hlt⟩)
      · exact absurd h (not_lt.mpr hle)
      · linarith
      · have hcut := hzero.mpr (by linarith)
        rw [hscore hcut, hcut]

theorem justBeyond_not_fits {audioMs targetMs : Int} (ha : 0 < audioMs) (ht : 0 < targetMs)
    (h : JustBeyond audioMs targetMs) : ¬ Fits audioMs targetMs := by
  rw [fits_iff ha ht]
  rintro ⟨hlow, hhigh⟩
  rcases h with ⟨hlong, -⟩ | ⟨hshort, -⟩
  · exact absurd hlong (not_lt.mpr hhigh)
  · exact absurd hshort (not_lt.mpr hlow)

theorem too_long_mem_iff {overflowMs underflowMs : Int} {silenceRatio : Rat} {lufs : Option Rat} :
    "too_long_for_scene" ∈ diagnose overflowMs underflowMs silenceRatio lufs ↔ 0 < overflowMs := by
  unfold diagnose
  simp only [List.mem_append, List.mem_ite_nil_right, List.mem_singleton]
  simp

theorem too_short_mem_iff {overflowMs underflowMs : Int} {silenceRatio : Rat} {lufs : Option Rat} :
    "too_short_for_scene" ∈ diagnose overflowMs underflowMs silenceRatio lufs ↔
      0 < underflowMs := by
  unfold diagnose
  simp only [List.mem_append, List.mem_ite_nil_right, List.mem_singleton]
  simp

/-- The rewriter is told that the audio is too long or too short. -/
def Diagnosed (audioMs targetMs : Int) : Prop :=
  ∀ silenceRatio lufs,
    let issues := diagnose (scoreDurationFit audioMs targetMs).2.1
      (scoreDurationFit audioMs targetMs).2.2 silenceRatio lufs
    "too_long_for_scene" ∈ issues ∨ "too_short_for_scene" ∈ issues

theorem excess_pos {q : Rat} (h : 0 ≤ q) (hne : cut q ≠ 0) : 0 < cut q := by
  have hfloor : 0 ≤ q.floor := Rat.le_floor_iff.mpr h
  rw [cut_nonneg h] at hne ⊢
  omega

theorem diagnosed_of_imperfect {audioMs targetMs : Int} (ha : 0 < audioMs) (ht : 0 < targetMs)
    (h : scoreDurationFit audioMs targetMs ≠ (1, 0, 0)) : Diagnosed audioMs targetMs := by
  have hcases := scoreDurationFit_cases ha ht
  unfold Diagnosed
  generalize scoreDurationFit audioMs targetMs = x at hcases h ⊢
  intro silenceRatio lufs
  dsimp only
  rw [too_long_mem_iff, too_short_mem_iff]
  cases hcases with
  | fits _ => exact absurd rfl h
  | long hlong score hscore =>
    refine Or.inl (excess_pos (by linarith) fun hcut => h ?_)
    rw [hscore hcut, hcut]
  | short hshort score hscore =>
    refine Or.inr (excess_pos (by linarith) fun hcut => h ?_)
    rw [hscore hcut, hcut]

/-! ## The gate and the fitter -/

/-- The gate is satisfied with the clips that the fitter does not flag, and names what is wrong
with the others. -/
structure Agrees (applyAtempo : Atempo) (audioBytes : List UInt8) (audioMs targetMs : Int)
    (mimeType : String) : Prop where
  perfect : scoreDurationFit audioMs targetMs = (1, 0, 0) ↔
    ¬ Flags (fitToSegment applyAtempo audioBytes audioMs targetMs mimeType)
  diagnosed : Flags (fitToSegment applyAtempo audioBytes audioMs targetMs mimeType) →
    Diagnosed audioMs targetMs

/-- The gate and the fitter agree unless the audio is beyond a bound by less than a millisecond:
the gate cuts such an excess to 0. -/
theorem gate_agrees_with_the_fitter_iff (applyAtempo : Atempo) (audioBytes : List UInt8)
    {audioMs targetMs : Int} (mimeType : String) (ha : 0 < audioMs) (ht : 0 < targetMs) :
    Agrees applyAtempo audioBytes audioMs targetMs mimeType ↔ ¬ JustBeyond audioMs targetMs := by
  constructor
  · intro h hbeyond
    have hperfect := h.perfect.mp ((perfect_iff ha ht).mpr (Or.inr hbeyond))
    exact hperfect (flags_iff.mpr (justBeyond_not_fits ha ht hbeyond))
  · intro hbeyond
    have hperfect : scoreDurationFit audioMs targetMs = (1, 0, 0) ↔
        ¬ Flags (fitToSegment applyAtempo audioBytes audioMs targetMs mimeType) := by
      rw [perfect_iff ha ht, flags_iff, not_not]
      exact ⟨fun h => h.resolve_right hbeyond, Or.inl⟩
    exact ⟨hperfect, fun hflags =>
      diagnosed_of_imperfect ha ht fun h => hperfect.mp h hflags⟩

/-- Twice the scene: too long for both. -/
theorem gate_agrees_on_a_long_clip :
    Agrees (fun _ _ _ => .ok []) [] 2000 1000 "audio/mpeg" ↔ ¬ JustBeyond 2000 1000 :=
  gate_agrees_with_the_fitter_iff _ _ _ (by decide) (by decide)

/-- Two milliseconds for a scene of one. -/
theorem gate_misses_half_a_millisecond :
    scoreDurationFit 2 1 = (1, 0, 0) ∧
      fitToSegment (fun _ _ _ => .ok []) [] 2 1 "audio/mpeg" = .ok ⟨[], 2, 1, true, "audio/mpeg"⟩ ∧
      ¬ Agrees (fun _ _ _ => .ok []) [] 2 1 "audio/mpeg" := by
  have hscore : scoreDurationFit 2 1 = (1, 0, 0) := by decide +kernel
  have hfit : fitToSegment (fun _ _ _ => .ok []) [] 2 1 "audio/mpeg" =
      .ok ⟨[], 2, 1, true, "audio/mpeg"⟩ := by decide +kernel
  exact ⟨hscore, hfit, fun h => h.perfect.mp hscore ⟨_, hfit, rfl⟩⟩

end recast_rules.tts
