-- The last part of `_process_segment` of the TTS service: the best clip is fitted to
-- its scene, and its words get their times in the video.
import RecastAi.QualityLoop
import RecastAi.RescaledWords
import RecastAi.SpeedControl
import RecastAi.VideoAnalyzer

open py_text tilings recast_rules.transcript recast_rules.py recast_rules.quality_loop

namespace recast_rules.tts

/-! ## The code -/

/-- `{**fields, key: v}`. -/
def setItem (key : Text) (v : Json) : List (Text × Json) → List (Text × Json)
  | [] => [(key, v)]
  | f :: fs => if f.1 = key then (key, v) :: fs else f :: setItem key v fs

/-- `target_ms or duration_ms`, where the scene lasts from `startMs` to `endMs`. -/
def fitTarget (startMs endMs : Int) (synth : SynthesisResult) : Int :=
  if max (endMs - startMs) 0 = 0 then synth.durationMs else max (endMs - startMs) 0

/-- The fit and the words of the best attempt, which spoke the text `finalText`. -/
def fitSegment (applyAtempo : Atempo) (repr : Json → Text) (segment : SegmentDict)
    (finalText : Text) (synth : SynthesisResult) : Except String (FitResult × List Word) := do
  let startMs ← segmentStart segment
  let endMs ← segmentEnd segment
  let fit ← fitToSegment applyAtempo synth.audioBytes synth.durationMs
    (fitTarget startMs endMs synth) synth.mimeType
  let words ← alignWordsToSegment repr (setItem (text "text") (.str finalText) segment)
    synth.wordAlignments fit.finalDurationMs
  return (fit, words)

/-! ## The segment with its new text -/

theorem lookup_setItem_self (key : Text) (v : Json) (fields : List (Text × Json)) :
    (setItem key v fields).lookup key = some v := by
  induction fields with
  | nil => simp [setItem]
  | cons f fs ih =>
    unfold setItem
    split
    · simp
    · rename_i hne
      rw [List.lookup_cons, beq_false_of_ne (Ne.symm hne)]
      exact ih

theorem lookup_setItem_ne {key other : Text} (h : other ≠ key) (v : Json)
    (fields : List (Text × Json)) : (setItem key v fields).lookup other = fields.lookup other := by
  induction fields with
  | nil => simp [setItem, List.lookup_cons, beq_false_of_ne h]
  | cons f fs ih =>
    unfold setItem
    split
    · rename_i hkey
      rw [List.lookup_cons, List.lookup_cons, hkey, beq_false_of_ne h]
    · rw [List.lookup_cons, List.lookup_cons, ih]

theorem segmentStart_setText (spoken : Text) (segment : SegmentDict) :
    segmentStart (setItem (text "text") (.str spoken) segment) = segmentStart segment := by
  unfold segmentStart
  rw [lookup_setItem_ne (by decide)]

theorem segmentText_setText (repr : Json → Text) (spoken : Text) (segment : SegmentDict) :
    segmentText repr (setItem (text "text") (.str spoken) segment) = strip spoken := by
  unfold segmentText
  rw [lookup_setItem_self]
  rfl

theorem fitSegment_of_fit {applyAtempo : Atempo} {repr : Json → Text} {segment : SegmentDict}
    {spoken : Text} {synth : SynthesisResult} {startMs endMs : Int} {fit : FitResult}
    (hstart : segmentStart segment = .ok startMs) (hend : segmentEnd segment = .ok endMs)
    (hfit : fitToSegment applyAtempo synth.audioBytes synth.durationMs
      (fitTarget startMs endMs synth) synth.mimeType = .ok fit) :
    fitSegment applyAtempo repr segment spoken synth =
      (alignWordsToSegment repr (setItem (text "text") (.str spoken) segment) synth.wordAlignments
        fit.finalDurationMs).map (Prod.mk fit) := by
  unfold fitSegment
  rw [hstart, hend]
  change (fitToSegment _ _ _ (fitTarget startMs endMs synth) _ >>= _) = _
  rw [hfit]
  change (alignWordsToSegment _ _ _ _ >>= _) = _
  cases alignWordsToSegment repr (setItem (text "text") (.str spoken) segment)
    synth.wordAlignments fit.finalDurationMs <;> rfl

theorem fitSegment_ok {applyAtempo : Atempo} {repr : Json → Text} {segment : SegmentDict}
    {spoken : Text} {synth : SynthesisResult} {startMs endMs : Int} {fit : FitResult}
    {words : List Word} (hstart : segmentStart segment = .ok startMs)
    (hend : segmentEnd segment = .ok endMs)
    (h : fitSegment applyAtempo repr segment spoken synth = .ok (fit, words)) :
    fitToSegment applyAtempo synth.audioBytes synth.durationMs
        (fitTarget startMs endMs synth) synth.mimeType = .ok fit ∧
      alignWordsToSegment repr (setItem (text "text") (.str spoken) segment) synth.wordAlignments
        fit.finalDurationMs = .ok words := by
  cases hfit : fitToSegment applyAtempo synth.audioBytes synth.durationMs
      (fitTarget startMs endMs synth) synth.mimeType with
  | error e =>
    unfold fitSegment at h
    rw [hstart, hend] at h
    change (fitToSegment _ _ _ (fitTarget startMs endMs synth) _ >>= _) = _ at h
    rw [hfit] at h
    cases h
  | ok fit' =>
    rw [fitSegment_of_fit hstart hend hfit] at h
    cases hwords : alignWordsToSegment repr (setItem (text "text") (.str spoken) segment)
        synth.wordAlignments fit'.finalDurationMs with
    | error e =>
      rw [hwords] at h
      cases h
    | ok words' =>
      rw [hwords] at h
      cases h
      exact ⟨rfl, hwords⟩

/-! ## Audio that is not stretched -/

/-- The word when it is spoken from `startMs` on. -/
def shiftedBy (startMs : Int) (w : Word) : Word := ⟨w.word, w.startMs + startMs, w.endMs + startMs⟩

theorem ordered_shifted {ws : List Word} (h : Ordered ws) (startMs : Int) :
    Ordered (ws.map (shiftedBy startMs)) := by
  obtain ⟨horder, hpair⟩ := h
  constructor
  · intro w hw
    obtain ⟨x, hx, rfl⟩ := List.mem_map.mp hw
    have := horder x hx
    dsimp only [shiftedBy]
    omega
  · rw [List.pairwise_map]
    refine hpair.imp fun hab => ?_
    dsimp only [shiftedBy]
    omega

/-- Times that the factor leaves as they are. -/
theorem rescaleFrom_unscaled {finalDurationMs offsetMs prevEndLocal : Int} {multiplier : Rat}
    {ws : List Word}
    (hscale : ∀ w ∈ ws, roundHalfEven (w.startMs * multiplier) = w.startMs ∧
      roundHalfEven (w.endMs * multiplier) = w.endMs)
    (hordered : Ordered ws) (hfirst : ∀ w ∈ ws.head?, prevEndLocal ≤ w.startMs)
    (hwithin : ∀ w ∈ ws, w.endMs ≤ finalDurationMs) :
    rescaleFrom finalDurationMs multiplier offsetMs prevEndLocal ws =
      ws.map (shiftedBy offsetMs) := by
  induction ws generalizing prevEndLocal with
  | nil => rfl
  | cons x ws ih =>
    obtain ⟨horder, hpair⟩ := hordered
    obtain ⟨hnext, hrest⟩ := List.pairwise_cons.mp hpair
    have hx := horder x List.mem_cons_self
    have hprev : prevEndLocal ≤ x.startMs := hfirst x rfl
    have hend := hwithin x List.mem_cons_self
    obtain ⟨hscaleStart, hscaleEnd⟩ := hscale x List.mem_cons_self
    have htail : rescaleFrom finalDurationMs multiplier offsetMs x.endMs ws =
        ws.map (shiftedBy offsetMs) :=
      ih (fun w hw => hscale w (List.mem_cons_of_mem _ hw))
        ⟨fun w hw => horder w (List.mem_cons_of_mem _ hw), hrest⟩
        (fun w hw => hnext w (List.mem_of_head? hw))
        (fun w hw => hwithin w (List.mem_cons_of_mem _ hw))
    unfold rescaleFrom
    dsimp only
    rw [max_eq_left hprev, max_eq_left (hprev.trans hx), hscaleStart, hscaleEnd, htail,
      if_neg (not_lt.mpr hx), min_eq_left hend, min_eq_left (hx.trans hend), ite_self, ite_self]
    rfl

/-- The last word of the provider ends with the audio, or all of its words stand at the start.
Without words of the provider, there is none in the text either. -/
def TimesKept (ws : List Word) (durationMs : Int) (spoken : Text) : Prop :=
  match ws.getLast? with
  | none => 0 ≤ durationMs ∧ split (strip spoken) = []
  | some last => last.endMs = durationMs ∨ last.endMs = 0

instance (ws : List Word) (durationMs : Int) (spoken : Text) :
    Decidable (TimesKept ws durationMs spoken) := by
  unfold TimesKept
  split <;> infer_instance

section Unstretched

variable {ws : List Word} {durationMs startMs : Int} {repr : Json → Text} {segment : SegmentDict}

theorem ends_before_last {last : Word} (hordered : Ordered ws) (hlast : ws.getLast? = some last) :
    ∀ w ∈ ws, w.endMs ≤ last.endMs := by
  obtain ⟨init, rfl⟩ := List.getLast?_eq_some_iff.mp hlast
  obtain ⟨horder, hpair⟩ := hordered
  intro w hw
  rcases List.mem_append.mp hw with hw | hw
  · have hbefore := (List.pairwise_append.mp hpair).2.2 w hw last List.mem_cons_self
    exact hbefore.trans (horder last (List.mem_append_right _ List.mem_cons_self))
  · rw [List.mem_singleton.mp hw]

/-- The factor is 1, or all times are 0. -/
theorem rescaled_unscaled {last : Word} (hnonneg : ∀ w ∈ ws, 0 ≤ w.startMs) (hordered : Ordered ws)
    (hwithin : ∀ w ∈ ws, w.endMs ≤ durationMs) (hlast : ws.getLast? = some last)
    (h : last.endMs = durationMs ∨ last.endMs = 0) (hstart : 0 ≤ startMs) :
    rescaleProviderAlignment ws durationMs startMs = ws.map (shiftedBy startMs) := by
  have hscale : ∀ multiplier : Rat,
      (multiplier = if durationMs > 0 then (durationMs / (max last.endMs 1 : Int) : Rat) else 1) →
      ∀ w ∈ ws, roundHalfEven (w.startMs * multiplier) = w.startMs ∧
        roundHalfEven (w.endMs * multiplier) = w.endMs := by
    rintro multiplier rfl w hw
    by_cases hpos : durationMs > 0
    · rw [if_pos hpos]
      rcases h with hend | hzero
      · have hne : (durationMs : Rat) ≠ 0 := by exact_mod_cast hpos.ne'
        rw [hend, max_eq_left (by omega : 1 ≤ durationMs), div_self hne, mul_one, mul_one]
        exact ⟨roundHalfEven_intCast _, roundHalfEven_intCast _⟩
      · have hstart := hnonneg w hw
        have horder := hordered.1 w hw
        have hend := ends_before_last hordered hlast w hw
        rw [show w.startMs = 0 by omega, show w.endMs = 0 by omega, Int.cast_zero, zero_mul]
        exact ⟨roundHalfEven_intCast 0, roundHalfEven_intCast 0⟩
    · rw [if_neg hpos, mul_one, mul_one]
      exact ⟨roundHalfEven_intCast _, roundHalfEven_intCast _⟩
  unfold rescaleProviderAlignment
  rw [hlast]
  dsimp only
  rw [rescaleFrom_unscaled (hscale _ rfl) hordered
    (fun w hw => hnonneg w (List.mem_of_head? hw)) hwithin]
  refine enforceMonotonic_eq_self (ordered_shifted hordered startMs) fun w hw => ?_
  obtain ⟨x, hx, rfl⟩ := List.mem_map.mp (List.mem_of_head? hw)
  have := hnonneg x hx
  dsimp only [shiftedBy]
  omega

/-- The last word gets to the end of the audio, wherever the provider has it end. -/
theorem rescaled_eq_shifted_iff {last : Word} (hnonneg : ∀ w ∈ ws, 0 ≤ w.startMs)
    (hordered : Ordered ws) (hwithin : ∀ w ∈ ws, w.endMs ≤ durationMs)
    (hlast : ws.getLast? = some last) (hstart : 0 ≤ startMs) :
    rescaleProviderAlignment ws durationMs startMs = ws.map (shiftedBy startMs) ↔
      last.endMs = durationMs ∨ last.endMs = 0 := by
  constructor
  · intro h
    have hmem : last ∈ ws := List.mem_of_getLast? hlast
    have hlow := hnonneg last hmem
    have horder := hordered.1 last hmem
    have hhigh := hwithin last hmem
    by_contra hne
    rw [not_or] at hne
    have hpositive : ∀ x ∈ ws.getLast?, 0 < x.endMs := by
      intro x hx
      obtain rfl : last = x := Option.some.inj (hlast.symm.trans hx)
      omega
    have hends : ∀ w ∈ (rescaleProviderAlignment ws durationMs startMs).getLast?,
        w.endMs = startMs + durationMs := rescaled_last startMs hstart (by omega) hpositive
    rw [h, List.getLast?_map, hlast] at hends
    have := hends (shiftedBy startMs last) rfl
    dsimp only [shiftedBy] at this
    omega
  · exact fun h => rescaled_unscaled hnonneg hordered hwithin hlast h hstart

theorem proportionalAlignment_eq_nil_iff (t : Text) (durationMs offsetMs : Int) :
    proportionalAlignment t durationMs offsetMs = [] ↔ split t = [] := by
  have hwords : (proportionalAlignment t durationMs offsetMs).map Word.word = split t := by
    unfold proportionalAlignment
    dsimp only
    split
    · rw [List.map_map]
      exact List.map_id _
    · rw [enforceMonotonic_words, proportionalFrom_words]
  rw [← hwords, List.map_eq_nil_iff]

/-- Without words of the provider there are words as soon as there is one in the text. -/
theorem align_nothing_iff {spoken : Text} (hstart : segmentStart segment = .ok startMs) :
    alignWordsToSegment repr (setItem (text "text") (.str spoken) segment) (some []) durationMs =
      .ok [] ↔ 0 ≤ durationMs ∧ split (strip spoken) = [] := by
  unfold alignWordsToSegment
  rw [segmentStart_setText, segmentText_setText, hstart]
  dsimp only
  split
  · rename_i hneg
    exact ⟨nofun, fun h => absurd h.1 (by omega)⟩
  · rename_i hnonneg
    split
    · rename_i hempty
      rw [hempty]
      exact ⟨fun _ => ⟨by omega, rfl⟩, fun _ => rfl⟩
    · rw [Except.ok.injEq, proportionalAlignment_eq_nil_iff]
      exact ⟨fun h => ⟨by omega, h⟩, fun h => h.2⟩

end Unstretched

/-- Audio that the fitter leaves as it is: its words keep the times of the provider exactly where
the last of them ends with the audio, or all stand at its start. Otherwise they are stretched over
the silence at the end. -/
theorem unstretched_words_keep_their_times_iff {applyAtempo : Atempo} {repr : Json → Text}
    {segment : SegmentDict} {spoken : Text} {synth : SynthesisResult} {ws : List Word}
    {startMs endMs : Int} {fit : FitResult} (hstart : segmentStart segment = .ok startMs)
    (hend : segmentEnd segment = .ok endMs) (hpositive : 0 ≤ startMs)
    (hprovider : synth.wordAlignments = some ws) (hnonneg : ∀ w ∈ ws, 0 ≤ w.startMs)
    (hordered : Ordered ws) (hwithin : ∀ w ∈ ws, w.endMs ≤ synth.durationMs)
    (hfit : fitToSegment applyAtempo synth.audioBytes synth.durationMs
      (fitTarget startMs endMs synth) synth.mimeType = .ok fit) (hratio : fit.appliedRatio = 1) :
    fitSegment applyAtempo repr segment spoken synth = .ok (fit, ws.map (shiftedBy startMs)) ↔
      TimesKept ws synth.durationMs spoken := by
  have hmap : ∀ x : Except String (List Word),
      x.map (Prod.mk fit) = .ok (fit, ws.map (shiftedBy startMs)) ↔
        x = .ok (ws.map (shiftedBy startMs)) := by
    intro x
    cases x <;> simp [Except.map]
  rw [fitSegment_of_fit hstart hend hfit, hmap, hprovider, unstretched_of_ratio hfit hratio]
  unfold TimesKept
  cases hlast : ws.getLast? with
  | none =>
    obtain rfl := List.getLast?_eq_none_iff.mp hlast
    exact align_nothing_iff hstart
  | some last =>
    have hne : ws ≠ [] := List.getLast?_isSome.mp (by simp [hlast])
    have hmem : last ∈ ws := List.mem_of_getLast? hlast
    have hduration : 0 ≤ synth.durationMs :=
      (hnonneg last hmem).trans ((hordered.1 last hmem).trans (hwithin last hmem))
    rw [align_with_provider hne ((segmentStart_setText _ _).trans hstart) hduration,
      Except.ok.injEq]
    exact rescaled_eq_shifted_iff hnonneg hordered hwithin hlast hpositive

/-- The words fill the clip of a second. -/
theorem full_clip_keeps_its_times :
    fitSegment (fun _ _ _ => .ok []) (fun _ => [])
        [(text "start_ms", .int 5000), (text "end_ms", .int 6000)] (text "hello")
        ⟨[], 1000, some [⟨text "hello", 0, 1000⟩], "audio/mpeg"⟩ =
      .ok (⟨[], 1000, 1, false, "audio/mpeg"⟩, [(⟨text "hello", 0, 1000⟩ : Word)].map (shiftedBy 5000)) ↔
      TimesKept [⟨text "hello", 0, 1000⟩] 1000 (text "hello") :=
  unstretched_words_keep_their_times_iff (by with_unfolding_all rfl) (by with_unfolding_all rfl)
    (by decide) rfl (by decide) ⟨by decide, by decide⟩ (by decide) (by decide +kernel) rfl

/-- A tenth of a second of silence at the end of a clip that fits its scene. -/
theorem silence_stretches_the_words :
    Ordered [⟨text "hello", 0, 400⟩, ⟨text "world", 400, 900⟩] ∧
      fitSegment (fun _ _ _ => .ok []) (fun _ => [])
          [(text "start_ms", .int 5000), (text "end_ms", .int 6000)] (text "hello world")
          ⟨[], 1000, some [⟨text "hello", 0, 400⟩, ⟨text "world", 400, 900⟩], "audio/mpeg"⟩ =
        .ok (⟨[], 1000, 1, false, "audio/mpeg"⟩,
          [⟨text "hello", 5000, 5444⟩, ⟨text "world", 5444, 6000⟩]) ∧
      [⟨text "hello", 5000, 5444⟩, ⟨text "world", 5444, 6000⟩] ≠
        [(⟨text "hello", 0, 400⟩ : Word), ⟨text "world", 400, 900⟩].map (shiftedBy 5000) :=
  ⟨⟨by decide, by decide⟩, by decide +kernel, by decide⟩

/-! ## Consecutive segments -/

/-- A segment as the message of the analyzer has it. -/
def segmentDict (s : Segment) : SegmentDict :=
  [(text "segment_id", .int s.segmentID), (text "start_ms", .int s.startMs),
    (text "end_ms", .int s.endMs), (text "text", .str s.text),
    (text "confidence", .float s.confidence),
    (text "words", .array (s.words.map analyzer.wordJson))]

/-- The segments of the message are worked on as they are. -/
theorem inlineSegments_segmentJson (idx : Nat) (segments : List Segment) :
    inlineSegments idx (segments.map analyzer.segmentJson) = .ok (segments.map segmentDict) := by
  induction segments generalizing idx with
  | nil => rfl
  | cons s segments ih =>
    have hrest := ih (idx + 1)
    change (do
      let _ ← Except.ok s.segmentID
      let rest ← inlineSegments (idx + 1) (segments.map analyzer.segmentJson)
      return segmentDict s :: rest : Except String _) = _
    rw [hrest]
    rfl

theorem segmentStart_segmentDict (s : Segment) : segmentStart (segmentDict s) = .ok s.startMs := by
  with_unfolding_all rfl

theorem segmentEnd_segmentDict (s : Segment) : segmentEnd (segmentDict s) = .ok s.endMs := by
  with_unfolding_all rfl

/-- By either way, the words of a segment stay in its clip. -/
theorem aligned_words_stay_in_the_clip {repr : Json → Text} {segment : SegmentDict}
    {providerAlignment : Option (List Word)} {finalDurationMs startMs : Int} {words : List Word}
    (hstart : segmentStart segment = .ok startMs) (hnonneg : 0 ≤ startMs)
    (hduration : 0 < finalDurationMs)
    (h : alignWordsToSegment repr segment providerAlignment finalDurationMs = .ok words) :
    ∀ w ∈ words, startMs ≤ w.startMs ∧ w.endMs ≤ startMs + finalDurationMs := by
  unfold alignWordsToSegment at h
  rw [if_neg (by omega), hstart] at h
  dsimp only at h
  split at h
  · obtain rfl := Except.ok.inj h
    intro w hw
    obtain ⟨hlo, -, hhi⟩ := rescaled_within startMs hnonneg hduration w hw
    exact ⟨hlo, hhi⟩
  · split at h
    · obtain rfl := Except.ok.inj h
      exact fun _ hw => absurd hw List.not_mem_nil
    · obtain rfl := Except.ok.inj h
      intro w hw
      by_cases htokens : split (segmentText repr segment) = []
      · rw [(proportionalAlignment_eq_nil_iff _ _ _).mpr htokens] at hw
        cases hw
      · unfold proportionalAlignment at hw
        dsimp only at hw
        rw [if_neg (not_or.mpr ⟨htokens, by omega⟩)] at hw
        have htiles := enforceMonotonic_tiles startMs 0 hduration
          (sharedOut_start finalDurationMs htokens) (by omega)
        have hfirst : roundHalfEven 0 = 0 := roundHalfEven_intCast 0
        rw [hfirst, Int.add_zero, max_eq_left hnonneg] at htiles
        obtain ⟨hlo, -, hhi⟩ := tiles_within htiles hw
        exact ⟨hlo, hhi⟩

/-- A clip that is not flagged is not longer than the scene, up to the hundredth that the fitter
lets pass. -/
theorem unflagged_duration {applyAtempo : Atempo} {audioBytes : List UInt8}
    {currentMs targetMs : Int}
    {mimeType : String} {fit : FitResult}
    (h : fitToSegment applyAtempo audioBytes currentMs targetMs mimeType = .ok fit)
    (hflag : fit.speedFlagged = false) :
    0 < fit.finalDurationMs ∧ 100 * (fit.finalDurationMs - targetMs) < targetMs := by
  have hcases := fitToSegment_cases applyAtempo audioBytes currentMs targetMs mimeType
  rw [h] at hcases
  cases hcases with
  | flagged _ => cases hflag
  | kept hfits hnear =>
    refine ⟨hfits.1, ?_⟩
    have hpos : (0 : Rat) < targetMs := by exact_mod_cast hfits.2.1
    have hratio : (currentMs / targetMs : Rat) < 101 / 100 := by
      have := (abs_lt.mp hnear).2
      linarith
    rw [div_lt_iff₀ hpos] at hratio
    have hscaled : (100 * (currentMs - targetMs) : Rat) < targetMs := by linarith
    exact_mod_cast hscaled
  | stretched hfits _ _ _ =>
    have := hfits.2.1
    dsimp only
    omega

section Consecutive

variable {applyAtempo : Atempo} {repr : Json → Text} {s : Segment} {spoken : Text}
  {synth : SynthesisResult} {fit : FitResult} {words : List Word}

/-- The words of a segment that is not flagged, between the start of its scene and the end of its
clip. -/
theorem unflagged_words (hstart : 0 ≤ s.startMs) (hordered : s.startMs < s.endMs)
    (h : fitSegment applyAtempo repr (segmentDict s) spoken synth = .ok (fit, words))
    (hflag : fit.speedFlagged = false) :
    100 * (fit.finalDurationMs - (s.endMs - s.startMs)) < s.endMs - s.startMs ∧
      ∀ w ∈ words, s.startMs ≤ w.startMs ∧ w.startMs ≤ w.endMs ∧
        w.endMs ≤ s.startMs + fit.finalDurationMs := by
  obtain ⟨hfit, hwords⟩ :=
    fitSegment_ok (segmentStart_segmentDict s) (segmentEnd_segmentDict s) h
  have htarget : fitTarget s.startMs s.endMs synth = s.endMs - s.startMs := by
    unfold fitTarget
    rw [max_eq_left (by omega : 0 ≤ s.endMs - s.startMs), if_neg (by omega)]
  rw [htarget] at hfit
  obtain ⟨hpositive, hlength⟩ := unflagged_duration hfit hflag
  refine ⟨hlength, fun w hw => ?_⟩
  have hclip := aligned_words_stay_in_the_clip
    ((segmentStart_setText _ _).trans (segmentStart_segmentDict s)) hstart hpositive hwords w hw
  exact ⟨hclip.1, (aligned_words_follow_each_other hwords).1 w hw, hclip.2⟩

end Consecutive

/-- Two scenes of a valid transcript, one after the other, whose audio the fitter does not flag:
the first is still spoken when the second starts only where its audio was left longer than the
scene, and then for less than a hundredth of the scene. -/
theorem unflagged_narration_overlaps_by_less_than_a_hundredth {schemaMessage : Json → String}
    {data : Json} {durationMs : Option Int} {before rest : List Segment} {a b : Segment}
    {applyAtempo : Atempo} {repr : Json → Text} {spokenA spokenB : Text}
    {synthA synthB : SynthesisResult} {fitA fitB : FitResult} {wordsA wordsB : List Word}
    (hvalid : validateTranscript schemaMessage data durationMs = .ok (before ++ a :: b :: rest))
    (ha : fitSegment applyAtempo repr (segmentDict a) spokenA synthA = .ok (fitA, wordsA))
    (hb : fitSegment applyAtempo repr (segmentDict b) spokenB synthB = .ok (fitB, wordsB))
    (hflagA : fitA.speedFlagged = false) (hflagB : fitB.speedFlagged = false) :
    ∀ w ∈ wordsA, ∀ x ∈ wordsB.head?,
      (fitA.finalDurationMs ≤ a.endMs - a.startMs → w.endMs ≤ x.startMs) ∧
        100 * (w.endMs - x.startMs) < a.endMs - a.startMs := by
  obtain ⟨hchron, -, hchecked⟩ := accepted_segments_follow_each_other hvalid
  have hcheckedA := hchecked a (by simp)
  have hcheckedB := hchecked b (by simp)
  have hnext : a.endMs ≤ b.startMs :=
    (List.pairwise_cons.mp (List.pairwise_append.mp hchron).2.1).1 b List.mem_cons_self
  obtain ⟨hlength, hwordsA⟩ := unflagged_words hcheckedA.start hcheckedA.ordered ha hflagA
  obtain ⟨-, hwordsB⟩ := unflagged_words hcheckedB.start hcheckedB.ordered hb hflagB
  intro w hw x hx
  have hend := (hwordsA w hw).2.2
  have hstart := (hwordsB x (List.mem_of_head? hx)).1
  constructor
  · intro hfits
    omega
  · omega

/-- Two scenes of a second without a gap. -/
def twoScenes : Json :=
  .object [(text "segments", .array
    [.object [(text "segment_id", .int 1), (text "start_ms", .int 0), (text "end_ms", .int 1000),
      (text "text", .str (text "one")), (text "confidence", .int 1)],
    .object [(text "segment_id", .int 2), (text "start_ms", .int 1000), (text "end_ms", .int 2000),
      (text "text", .str (text "two")), (text "confidence", .int 1)]])]

def sceneOne : Segment := ⟨1, 0, 1000, text "one", .finite 1, [⟨text "one", 0, 1000⟩]⟩

def sceneTwo : Segment := ⟨2, 1000, 2000, text "two", .finite 1, [⟨text "two", 1000, 2000⟩]⟩

theorem twoScenes_valid :
    validateTranscript (fun _ => "") twoScenes none = .ok ([] ++ sceneOne :: sceneTwo :: []) := by
  with_unfolding_all rfl

/-- The clip of the given length, with one word that fills it. -/
def clipOf (word : Text) (durationMs : Int) : SynthesisResult :=
  ⟨[], durationMs, some [⟨word, 0, durationMs⟩], "audio/mpeg"⟩

def wordOne : Word := ⟨text "one", 0, 1000⟩

def wordTwo : Word := ⟨text "two", 1000, 2000⟩

theorem short_narration_leaves_the_next_scene_alone :
    wordOne.endMs ≤ wordTwo.startMs ∧
      100 * (wordOne.endMs - wordTwo.startMs) < sceneOne.endMs - sceneOne.startMs := by
  have hone : fitSegment (fun _ _ _ => .ok []) (fun _ => []) (segmentDict sceneOne) (text "one")
      (clipOf (text "one") 1000) =
        .ok (⟨[], 1000, 1, false, "audio/mpeg"⟩, [wordOne]) := by decide +kernel
  have htwo : fitSegment (fun _ _ _ => .ok []) (fun _ => []) (segmentDict sceneTwo) (text "two")
      (clipOf (text "two") 1000) =
        .ok (⟨[], 1000, 1, false, "audio/mpeg"⟩, [wordTwo]) := by decide +kernel
  have hoverlap := unflagged_narration_overlaps_by_less_than_a_hundredth twoScenes_valid hone htwo
    rfl rfl wordOne List.mem_cons_self wordTwo rfl
  exact ⟨hoverlap.1 (by decide), hoverlap.2⟩

/-- Five milliseconds too many are let pass, and the next scene starts into them. -/
theorem long_narration_runs_into_the_next_scene :
    ∃ fitA wordsA fitB wordsB,
      validateTranscript (fun _ => "") twoScenes none = .ok [sceneOne, sceneTwo] ∧
      fitSegment (fun _ _ _ => .ok []) (fun _ => []) (segmentDict sceneOne) (text "one")
        (clipOf (text "one") 1005) = .ok (fitA, wordsA) ∧
      fitSegment (fun _ _ _ => .ok []) (fun _ => []) (segmentDict sceneTwo) (text "two")
        (clipOf (text "two") 1000) = .ok (fitB, wordsB) ∧
      fitA.speedFlagged = false ∧ fitB.speedFlagged = false ∧
      ¬ ∀ w ∈ wordsA, ∀ x ∈ wordsB.head?, w.endMs ≤ x.startMs := by
  refine ⟨⟨[], 1005, 1, false, "audio/mpeg"⟩, [⟨text "one", 0, 1005⟩],
    ⟨[], 1000, 1, false, "audio/mpeg"⟩, [⟨text "two", 1000, 2000⟩], twoScenes_valid,
    by decide +kernel, by decide +kernel, rfl, rfl, fun h => ?_⟩
  exact absurd (h _ List.mem_cons_self _ rfl) (by decide)

end recast_rules.tts
