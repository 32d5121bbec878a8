-- The score of the quality gate (`score_segment` in `tts/quality.py`): a weighted geometric mean of
-- three subscores, and the diagnosis that goes to the rewriter with it. The floats of the subscores
-- are read as exact rationals and those of the mean as reals.
import Mathlib.Data.List.DropRight
import RecastAi.GeometricMeans
import RecastAi.QualityLoop
import RecastAi.SilenceRatio
import RecastAi.SpeedControl

open geometric_means py_text recast_rules.transcript recast_rules.tts
open recast_rules.quality_loop (QualityScore)

namespace recast_rules.quality

/-! ## The loudness -/

/-- `json.loads`, with nothing for an error, and `float` of a text. -/
structure Readers where
  loads : Text → Option Json
  float : Text → Option PyFloat

/-- `_extract_loudnorm_json`: from the last `{` to the last `}`. -/
def extractLoudnormJson (readers : Readers) (stderr : Text) : Option Json :=
  let before := stderr.rdropWhile (· ≠ 0x7B)
  let upTo := stderr.rdropWhile (· ≠ 0x7D)
  if before = [] ∨ upTo.length ≤ before.length then none
  else readers.loads (upTo.drop (before.length - 1))

def Json.float (readers : Readers) : Json → Option PyFloat
  | .int n => some (.finite n)
  | .bool b => some (.finite (if b then 1 else 0))
  | .float x => some x
  | .str t => readers.float t
  | _ => none

/-- `_measure_lufs`, with nothing for what is not finite. `stderr` is `none` where ffmpeg is missing
or takes too long. A text that starts with a brace is read as an object. -/
def measureLufs (readers : Readers) (audioBytes : List UInt8) (stderr : Option Text) : Option Rat :=
  if audioBytes = [] then none
  else
    match stderr.bind (extractLoudnormJson readers) with
    | some (.object fields) =>
      match (fields.lookup (text "input_i")).bind (Json.float readers) with
      | some (.finite lufs) => some lufs
      | _ => none
    | _ => none

/-! ## The subscores -/

def silenceToScore (ratio : Rat) : Rat :=
  if ratio ≤ 15 / 100 then 1
  else if 1 / 2 ≤ ratio then 0
  else 1 - (ratio - 15 / 100) / (35 / 100)

/-- `lufs` is `none` where it is not finite. -/
def lufsToScore (lufs : Option Rat) : Rat :=
  match lufs with
  | none => 1
  | some lufs =>
    let delta := |lufs - (-16)|
    if delta ≤ 4 then 1
    else if 14 ≤ delta then 0
    else 1 - (delta - 4) / 10

/-- What `score_segment` has before it takes the mean. -/
structure Subscores where
  durationFit : Rat
  silence : Rat
  loudness : Rat
  durationOverflowMs : Int
  durationUnderflowMs : Int
  silenceRatio : Rat
  lufs : Option Rat
  issues : List String
deriving DecidableEq

/-- What ffmpeg prints for the audio, by `silencedetect` and by `loudnorm`. -/
structure Printouts where
  silencedetect : Option Text
  loudnorm : Option Text

def subscores (readers : Readers) (audioBytes : List UInt8) (printouts : Printouts)
    (audioDurationMs targetDurationMs : Int) : Subscores :=
  let (durationFit, overflowMs, underflowMs) := scoreDurationFit audioDurationMs targetDurationMs
  let silenceRatio := measureSilenceRatio audioBytes printouts.silencedetect audioDurationMs
  let lufs := measureLufs readers audioBytes printouts.loudnorm
  { durationFit
    silence := silenceToScore silenceRatio
    loudness := lufsToScore lufs
    durationOverflowMs := overflowMs
    durationUnderflowMs := underflowMs
    silenceRatio
    lufs
    issues := diagnose overflowMs underflowMs silenceRatio lufs }

/-! ## The score -/

/-- No subscore counts as less than this. -/
def floor : Rat := 1 / 1000

/-- The weights 0.6, 0.25 and 0.15 as twentieths. -/
def Subscores.parts (s : Subscores) : List (ℕ × Rat) :=
  [(12, max s.durationFit floor), (5, max s.silence floor), (3, max s.loudness floor)]

noncomputable def Subscores.combined (s : Subscores) : ℝ :=
  mean [(0.6, ((max s.durationFit floor : Rat) : ℝ)), (0.25, ((max s.silence floor : Rat) : ℝ)),
    (0.15, ((max s.loudness floor : Rat) : ℝ))]

noncomputable def scoreSegment (readers : Readers) (audioBytes : List UInt8) (printouts : Printouts)
    (audioDurationMs targetDurationMs : Int) : QualityScore ℝ :=
  let s := subscores readers audioBytes printouts audioDurationMs targetDurationMs
  { combined := s.combined
    durationFit := s.durationFit
    silence := s.silence
    loudness := s.loudness
    durationOverflowMs := s.durationOverflowMs
    durationUnderflowMs := s.durationUnderflowMs
    silenceRatio := s.silenceRatio
    lufs := s.lufs.map (↑)
    issues := s.issues }

def defaultPassThreshold : Rat := 7 / 10

/-- `combined >= threshold`, decided without the logarithms. -/
def Subscores.passes (s : Subscores) (threshold : Rat) : Bool :=
  threshold ≤ 0 || threshold ^ 20 ≤ powers s.parts

/-! ## The mean -/

theorem floor_pos : 0 < floor := by decide +kernel

theorem parts_pos (s : Subscores) : ∀ p ∈ s.parts, 0 < p.2 := by
  intro p hp
  simp only [Subscores.parts, List.mem_cons, List.not_mem_nil, or_false] at hp
  rcases hp with rfl | rfl | rfl <;> exact lt_max_of_lt_right floor_pos

theorem combined_eq (s : Subscores) :
    s.combined = mean (fractions 20 (s.parts.map fun p => (p.1, (p.2 : ℝ)))) := by
  unfold Subscores.combined fractions Subscores.parts
  norm_num

/-- The gate can be decided with whole powers. -/
theorem passes_iff (s : Subscores) (threshold : Rat) :
    (threshold : ℝ) ≤ s.combined ↔ s.passes threshold = true := by
  have hpos : ∀ p ∈ s.parts.map fun p => (p.1, (p.2 : ℝ)), 0 < p.2 := by
    intro p hp
    obtain ⟨q, hq, rfl⟩ := List.mem_map.mp hp
    exact Rat.cast_pos.mpr (parts_pos s q hq)
  rw [combined_eq, le_mean_fractions_iff (by decide) hpos, ← powers_cast]
  unfold Subscores.passes
  rw [Bool.or_eq_true, decide_eq_true_eq, decide_eq_true_eq]
  exact_mod_cast Iff.rfl

theorem powers_parts (s : Subscores) :
    powers s.parts = max s.durationFit floor ^ 12 * (max s.silence floor ^ 5 *
      max s.loudness floor ^ 3) := by
  simp only [powers, Subscores.parts, List.map_cons, List.map_nil, List.prod_cons, List.prod_nil,
    mul_one]

/-! ## The subscores -/

/-- A subscore lies between nothing and one. -/
def Subscore (score : Rat) : Prop := 0 ≤ score ∧ score ≤ 1

theorem penalty_subscore {excess : Int} (h : 0 ≤ excess) :
    Subscore (max 0 (1 - excess / 10000) : Rat) := by
  have hexcess : (0 : Rat) ≤ excess := by exact_mod_cast h
  exact ⟨le_max_left _ _, max_le zero_le_one (by linarith)⟩

theorem cut_of_nonneg {q : Rat} (h : 0 ≤ q) : 0 ≤ cut q := by
  rw [cut_nonneg h]
  exact Rat.le_floor_iff.mpr h

theorem durationFit_subscore (audioMs targetMs : Int) :
    Subscore (scoreDurationFit audioMs targetMs).1 := by
  unfold scoreDurationFit
  split
  · exact ⟨zero_le_one, le_rfl⟩
  dsimp only
  split
  · exact ⟨zero_le_one, le_rfl⟩
  rename_i hout
  split
  · rename_i hlong
    exact penalty_subscore (cut_of_nonneg (sub_nonneg.mpr hlong.le))
  · rename_i hnotlong
    rw [not_and_or, not_le, not_le] at hout
    exact penalty_subscore (cut_of_nonneg (sub_nonneg.mpr (hout.resolve_right hnotlong).le))

theorem silenceToScore_subscore (ratio : Rat) : Subscore (silenceToScore ratio) := by
  unfold silenceToScore
  split
  · exact ⟨zero_le_one, le_rfl⟩
  rename_i hsome
  split
  · exact ⟨le_rfl, zero_le_one⟩
  rename_i hless
  rw [not_le] at hsome hless
  constructor <;> linarith

theorem lufsToScore_subscore (lufs : Option Rat) : Subscore (lufsToScore lufs) := by
  unfold lufsToScore
  cases lufs with
  | none => exact ⟨zero_le_one, le_rfl⟩
  | some lufs =>
    dsimp only
    split
    · exact ⟨zero_le_one, le_rfl⟩
    rename_i hfar
    split
    · exact ⟨le_rfl, zero_le_one⟩
    rename_i hnear
    rw [not_le] at hfar hnear
    constructor <;> linarith

theorem Subscore.raised {score : Rat} (h : Subscore score) : Subscore (max score floor) :=
  ⟨h.1.trans (le_max_left _ _), max_le h.2 (by decide +kernel)⟩

/-- The subscores of a segment. -/
structure Scored (s : Subscores) : Prop where
  durationFit : Subscore s.durationFit
  silence : Subscore s.silence
  loudness : Subscore s.loudness

theorem subscores_scored (readers : Readers) (audioBytes : List UInt8) (printouts : Printouts)
    (audioMs targetMs : Int) : Scored (subscores readers audioBytes printouts audioMs targetMs) :=
  ⟨durationFit_subscore audioMs targetMs, silenceToScore_subscore _, lufsToScore_subscore _⟩

theorem parts_le_one {s : Subscores} (h : Scored s) : ∀ p ∈ s.parts, p.2 ≤ 1 := by
  intro p hp
  simp only [Subscores.parts, List.mem_cons, List.not_mem_nil, or_false] at hp
  rcases hp with rfl | rfl | rfl
  · exact h.durationFit.raised.2
  · exact h.silence.raised.2
  · exact h.loudness.raised.2

theorem combined_le_one {s : Subscores} (h : Scored s) : s.combined ≤ 1 := by
  rw [combined_eq]
  refine mean_le_one fun p hp => ?_
  obtain ⟨q, hq, rfl⟩ := List.mem_map.mp hp
  obtain ⟨r, hr, rfl⟩ := List.mem_map.mp hq
  have hone : ((r.2 : Rat) : ℝ) ≤ ((1 : Rat) : ℝ) := Rat.cast_le.mpr (parts_le_one h r hr)
  rw [Rat.cast_one] at hone
  exact ⟨by positivity, Rat.cast_pos.mpr (parts_pos s r hr), hone⟩

theorem combined_lt_iff (s : Subscores) :
    s.combined < defaultPassThreshold ↔ powers s.parts < defaultPassThreshold ^ 20 := by
  rw [← not_le, passes_iff, ← not_le]
  unfold Subscores.passes
  rw [Bool.or_eq_true, decide_eq_true_eq, decide_eq_true_eq, not_or]
  exact ⟨fun h => h.2, fun h => ⟨by decide +kernel, h⟩⟩

/-! ## What is refused -/

/-- One subscore with its weight is too low whatever the others are. -/
theorem product_lt {a b c t : Rat} (ha : 0 ≤ a) (hb : Subscore b) (hc : Subscore c) (h : a < t) :
    a * (b * c) < t :=
  (mul_le_of_le_one_right ha (mul_le_one₀ hb.2 hc.1 hc.2)).trans_lt h

theorem Subscore.pow {x : Rat} (h : Subscore x) (n : ℕ) : Subscore (x ^ n) :=
  ⟨pow_nonneg h.1 n, pow_le_one₀ h.1 h.2⟩

/-- A clip that misses its scene by four and a half seconds, one that is silent for half its time,
and one that is far too loud or too quiet. -/
def Dead (s : Subscores) : Prop :=
  s.durationFit ≤ 11 / 20 ∨ s.silence = 0 ∨ s.loudness = 0

theorem dead_is_refused {s : Subscores} (h : Scored s) (hdead : Dead s) :
    s.combined < defaultPassThreshold := by
  have hfit := h.durationFit.raised
  have hsilence := h.silence.raised
  have hloudness := h.loudness.raised
  rw [combined_lt_iff, powers_parts]
  rcases hdead with hdead | hdead | hdead
  · have hlow : max s.durationFit floor ≤ 11 / 20 := max_le hdead (by decide +kernel)
    refine product_lt (hfit.pow 12).1 (hsilence.pow 5) (hloudness.pow 3) ?_
    exact (pow_le_pow_left₀ hfit.1 hlow 12).trans_lt (by decide +kernel)
  · rw [hdead, mul_left_comm]
    exact product_lt (by decide +kernel) (hfit.pow 12) (hloudness.pow 3) (by decide +kernel)
  · rw [hdead, ← mul_assoc, mul_comm]
    exact product_lt (by decide +kernel) (hfit.pow 12) (hsilence.pow 5) (by decide +kernel)

/-! ## What is refused and not named -/

theorem no_issues_iff {overflowMs underflowMs : Int} {silenceRatio : Rat} {lufs : Option Rat} :
    diagnose overflowMs underflowMs silenceRatio lufs = [] ↔ overflowMs ≤ 0 ∧ underflowMs ≤ 0 ∧
      silenceRatio ≤ 1 / 4 ∧ ∀ x ∈ lufs, x ≤ -8 ∧ -30 ≤ x := by
  unfold diagnose
  simp only [List.append_eq_nil_iff, ite_eq_right_iff, List.cons_ne_nil, imp_false, not_lt,
    gt_iff_lt, not_exists, not_and, and_assoc]
  constructor
  · rintro ⟨hlong, hshort, hsilent, hloud, hquiet⟩
    exact ⟨hlong, hshort, hsilent, fun x hx => ⟨hloud x hx, hquiet x hx⟩⟩
  · rintro ⟨hlong, hshort, hsilent, hlufs⟩
    exact ⟨hlong, hshort, hsilent, fun x hx => (hlufs x hx).1, fun x hx => (hlufs x hx).2⟩

theorem quiet_enough {ratio : Rat} (h : ratio ≤ 1 / 4) : 5 / 7 ≤ silenceToScore ratio := by
  unfold silenceToScore
  split
  · norm_num
  split <;> linarith

/-- Loud enough for the gate, together with the silence that is not named. -/
theorem loud_enough {lufs : Rat} (hlow : -2837 / 100 ≤ lufs) (hhigh : lufs ≤ -8) :
    163 / 1000 ≤ lufsToScore (some lufs) := by
  have hdelta : |lufs - (-16)| ≤ 1237 / 100 := abs_le.mpr ⟨by linarith, by linarith⟩
  unfold lufsToScore
  dsimp only
  split
  · norm_num
  split <;> linarith

/-- The clip fits its scene, its silence is not named, and it is just not quiet enough to be named
as too quiet. -/
structure Unnoticed (s : Subscores) (audioMs targetMs : Int) : Prop where
  duration : scoreDurationFit audioMs targetMs = (1, 0, 0)
  silence : s.silenceRatio ≤ 1 / 4
  lufs : ∃ lufs ∈ s.lufs, -30 ≤ lufs ∧ lufs < -2837 / 100
  product : powers s.parts < defaultPassThreshold ^ 20

theorem perfect_of_unnamed {audioMs targetMs : Int} {silenceRatio : Rat} {lufs : Option Rat}
    (h : diagnose (scoreDurationFit audioMs targetMs).2.1 (scoreDurationFit audioMs targetMs).2.2
      silenceRatio lufs = []) : scoreDurationFit audioMs targetMs = (1, 0, 0) := by
  by_cases hpos : targetMs ≤ 0 ∨ audioMs ≤ 0
  · exact if_pos hpos
  · by_contra hne
    have hdiagnosed := diagnosed_of_imperfect (by omega) (by omega) hne silenceRatio lufs
    rw [h] at hdiagnosed
    rcases hdiagnosed with hmem | hmem <;> exact absurd hmem List.not_mem_nil

theorem passes_of_enough {s : Subscores} (hfit : s.durationFit = 1) (hsilence : 5 / 7 ≤ s.silence)
    (hloudness : 163 / 1000 ≤ s.loudness) : defaultPassThreshold ^ 20 ≤ powers s.parts := by
  rw [powers_parts]
  have hone : 1 ≤ max s.durationFit floor := hfit ▸ le_max_left _ _
  have hsilence' : 5 / 7 ≤ max s.silence floor := hsilence.trans (le_max_left _ _)
  have hloudness' : 163 / 1000 ≤ max s.loudness floor := hloudness.trans (le_max_left _ _)
  calc defaultPassThreshold ^ 20
      ≤ 1 ^ 12 * ((5 / 7) ^ 5 * (163 / 1000) ^ 3) := by decide +kernel
    _ ≤ max s.durationFit floor ^ 12 * (max s.silence floor ^ 5 * max s.loudness floor ^ 3) := by
      gcongr

section Gate

variable (readers : Readers) (audioBytes : List UInt8) (printouts : Printouts)
  (audioMs targetMs : Int)

theorem unnoticed_of_unnamed
    (hfails : (subscores readers audioBytes printouts audioMs targetMs).combined <
      defaultPassThreshold)
    (hnone : (subscores readers audioBytes printouts audioMs targetMs).issues = []) :
    Unnoticed (subscores readers audioBytes printouts audioMs targetMs) audioMs targetMs := by
  have hfit := perfect_of_unnamed hnone
  obtain ⟨-, -, hsilent, hlufs⟩ := no_issues_iff.mp hnone
  rw [combined_lt_iff] at hfails
  refine ⟨hfit, hsilent, ?_, hfails⟩
  -- with the silence that is not named, only the loudness can have failed
  have hloudness : ¬ 163 / 1000 ≤
      lufsToScore (measureLufs readers audioBytes printouts.loudnorm) := fun hloud =>
    hfails.not_ge (passes_of_enough (congrArg Prod.fst hfit) (quiet_enough hsilent) hloud)
  change ∃ lufs ∈ measureLufs readers audioBytes printouts.loudnorm, _
  cases hmeasured : measureLufs readers audioBytes printouts.loudnorm with
  | none =>
    rw [hmeasured] at hloudness
    exact absurd (by decide +kernel) hloudness
  | some lufs =>
    rw [hmeasured] at hloudness hlufs
    obtain ⟨hhigh, hlow⟩ := hlufs lufs rfl
    exact ⟨lufs, rfl, hlow, lt_of_not_ge fun hge => hloudness (loud_enough hge hhigh)⟩

theorem unnamed_of_unnoticed
    (h : Unnoticed (subscores readers audioBytes printouts audioMs targetMs) audioMs targetMs) :
    (subscores readers audioBytes printouts audioMs targetMs).combined < defaultPassThreshold ∧
      (subscores readers audioBytes printouts audioMs targetMs).issues = [] := by
  refine ⟨(combined_lt_iff _).mpr h.product, ?_⟩
  change diagnose (scoreDurationFit audioMs targetMs).2.1 (scoreDurationFit audioMs targetMs).2.2
    _ _ = []
  rw [no_issues_iff, h.duration]
  refine ⟨le_rfl, le_rfl, h.silence, fun x hx => ?_⟩
  obtain ⟨lufs, hlufs, hlow, hhigh⟩ := h.lufs
  obtain rfl := Option.mem_unique hx hlufs
  exact ⟨by linarith, hlow⟩

end Gate

-- At -29.5 LUFS a segment is refused, and no issue says why.
example : lufsToScore (some (-59 / 2)) = 1 / 20 ∧ diagnose 0 0 0 (some (-59 / 2)) = [] ∧
    (⟨1, 1, 1 / 20, 0, 0, 0, some (-59 / 2), []⟩ : Subscores).passes defaultPassThreshold = false := by
  decide +kernel

end recast_rules.quality
