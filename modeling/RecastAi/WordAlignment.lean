-- The times of the spoken words in the video (`services/tts-service/tts/alignment.py`):
-- the times of the provider, rescaled, or shares of the clip by the length of the
-- words. The shares tile the clip. The floats are read as exact rationals.
import Mathlib.Algebra.Order.Field.Rat
import Mathlib.Tactic.Linarith
import Mathlib.Tactic.Positivity
import RecastAi.Tilings
import RecastAi.TtsService

open py_text tilings recast_rules.transcript recast_rules.py

namespace recast_rules.tts

/-! ## The code -/

/-- The loop of `_enforce_monotonic_dicts` after a word that ends at `prevEnd`. -/
def enforceMonotonic : Int → List Word → List Word
  | _, [] => []
  | prevEnd, w :: ws =>
    let start := max w.startMs prevEnd
    let stop := max w.endMs start
    ⟨w.word, start, stop⟩ :: enforceMonotonic stop ws

/-- The loop of `_rescale_provider_alignment`. -/
def rescaleFrom (finalDurationMs : Int) (multiplier : Rat) (offsetMs : Int) :
    Int → List Word → List Word
  | _, [] => []
  | prevEndLocal, w :: ws =>
    let startLocal := roundHalfEven (max w.startMs prevEndLocal * multiplier)
    let endLocal := roundHalfEven (max w.endMs prevEndLocal * multiplier)
    let endLocal := if endLocal < startLocal then startLocal else endLocal
    let startLocal := if finalDurationMs > 0 then min startLocal finalDurationMs else startLocal
    let endLocal := if finalDurationMs > 0 then min endLocal finalDurationMs else endLocal
    ⟨w.word, startLocal + offsetMs, endLocal + offsetMs⟩ ::
      rescaleFrom finalDurationMs multiplier offsetMs (max w.endMs prevEndLocal) ws

def rescaleProviderAlignment (alignments : List Word) (finalDurationMs offsetMs : Int) : List Word :=
  match alignments.getLast? with
  | none => []
  | some last =>
    let multiplier : Rat :=
      if finalDurationMs > 0 then finalDurationMs / (max last.endMs 1 : Int) else 1
    enforceMonotonic 0 (rescaleFrom finalDurationMs multiplier offsetMs 0 alignments)

def tokenWeight (tok : Text) : Nat := tok.length + 1

/-- The loop of `_proportional_alignment` from the cursor on. -/
def proportionalFrom (durationMs : Int) (totalWeight : Nat) (offsetMs : Int) :
    Rat → List Text → List Word
  | _, [] => []
  | cursorMs, tok :: toks =>
    let shareMs := durationMs * ((tokenWeight tok : Rat) / totalWeight)
    let startLocal := roundHalfEven cursorMs
    let endLocal := roundHalfEven (cursorMs + shareMs)
    let endLocal := if endLocal ≤ startLocal then startLocal + 1 else endLocal
    let endLocal := if endLocal > durationMs then durationMs else endLocal
    let startLocal := if startLocal > durationMs then durationMs else startLocal
    ⟨tok, offsetMs + startLocal, offsetMs + endLocal⟩ ::
      proportionalFrom durationMs totalWeight offsetMs (cursorMs + shareMs) toks

def proportionalAlignment (t : Text) (durationMs offsetMs : Int) : List Word :=
  let tokens := split t
  if tokens = [] ∨ durationMs ≤ 0 then
    tokens.map fun tok => ⟨tok, offsetMs, offsetMs⟩
  else
    enforceMonotonic 0
      (proportionalFrom durationMs (tokens.map tokenWeight).sum offsetMs 0 tokens)

/-- `str(segment.get("text", "")).strip()`. -/
def segmentText (repr : Json → Text) (segment : SegmentDict) : Text :=
  strip (toText repr ((segment.lookup (text "text")).getD (.str [])))

/-- `int(segment.get("start_ms", 0))`. -/
def segmentStart (segment : SegmentDict) : Except String Int :=
  toInt ((segment.lookup (text "start_ms")).getD (.int 0))

def alignWordsToSegment (repr : Json → Text) (segment : SegmentDict)
    (providerAlignment : Option (List Word)) (finalDurationMs : Int) :
    Except String (List Word) :=
  if finalDurationMs < 0 then .error "ValueError"
  else
    match segmentStart segment with
    | .error e => .error e
    | .ok startMs =>
      match providerAlignment with
      | some (w :: ws) => .ok (rescaleProviderAlignment (w :: ws) finalDurationMs startMs)
      | _ =>
        if segmentText repr segment = [] then .ok []
        else .ok (proportionalAlignment (segmentText repr segment) finalDurationMs startMs)

/-! ## The monotonic pass -/

theorem enforceMonotonic_words (prevEnd : Int) (ws : List Word) :
    (enforceMonotonic prevEnd ws).map Word.word = ws.map Word.word := by
  induction ws generalizing prevEnd with
  | nil => rfl
  | cons w ws ih => simp [enforceMonotonic, ih]

/-- The words follow each other. -/
def Ordered (words : List Word) : Prop :=
  (∀ w ∈ words, w.startMs ≤ w.endMs) ∧ words.Pairwise fun a b => a.endMs ≤ b.startMs

theorem ordered_nil : Ordered [] := ⟨fun _ hw => absurd hw List.not_mem_nil, List.Pairwise.nil⟩

theorem enforceMonotonic_ge {prevEnd : Int} {ws : List Word} {w : Word}
    (h : w ∈ enforceMonotonic prevEnd ws) : prevEnd ≤ w.startMs := by
  induction ws generalizing prevEnd with
  | nil => cases h
  | cons x ws ih =>
    rcases List.mem_cons.mp h with rfl | h
    · exact le_max_right _ _
    · have := ih h
      omega

/-- Whatever the words are, they follow each other after the pass. -/
theorem enforceMonotonic_ordered (prevEnd : Int) (ws : List Word) :
    Ordered (enforceMonotonic prevEnd ws) := by
  induction ws generalizing prevEnd with
  | nil => exact ordered_nil
  | cons w ws ih =>
    obtain ⟨hend, hpair⟩ := ih (max w.endMs (max w.startMs prevEnd))
    constructor
    · intro x hx
      rcases List.mem_cons.mp hx with rfl | hx
      · exact le_max_right _ _
      · exact hend x hx
    · exact List.pairwise_cons.mpr ⟨fun b hb => enforceMonotonic_ge hb, hpair⟩

/-! ## The shares -/

theorem proportionalFrom_words (durationMs : Int) (totalWeight : Nat) (offsetMs : Int)
    (cursorMs : Rat) (toks : List Text) :
    (proportionalFrom durationMs totalWeight offsetMs cursorMs toks).map Word.word = toks := by
  induction toks generalizing cursorMs with
  | nil => rfl
  | cons tok toks ih => simp [proportionalFrom, ih]

/-- What is left of the clip after the cursor is shared out among the tokens that are left. -/
def SharedOut (durationMs : Int) (totalWeight : Nat) (cursorMs : Rat) (toks : List Text) : Prop :=
  cursorMs + durationMs * (((toks.map tokenWeight).sum : Nat) / totalWeight : Rat) = durationMs

theorem sharedOut_nil {durationMs : Int} {totalWeight : Nat} {cursorMs : Rat}
    (h : SharedOut durationMs totalWeight cursorMs []) : cursorMs = durationMs := by
  simpa [SharedOut] using h

theorem sharedOut_cons {durationMs : Int} {totalWeight : Nat} {cursorMs : Rat} {tok : Text}
    {toks : List Text} (h : SharedOut durationMs totalWeight cursorMs (tok :: toks)) :
    SharedOut durationMs totalWeight
      (cursorMs + durationMs * ((tokenWeight tok : Rat) / totalWeight)) toks := by
  unfold SharedOut at h ⊢
  rwa [List.map_cons, List.sum_cons, Nat.cast_add, add_div, mul_add, ← add_assoc] at h

theorem share_nonneg {durationMs : Int} (hduration : 0 < durationMs) (weight totalWeight : Nat) :
    (0 : Rat) ≤ durationMs * ((weight : Rat) / totalWeight) := by
  have : (0 : Rat) < durationMs := by exact_mod_cast hduration
  positivity

theorem sharedOut_le {durationMs : Int} {totalWeight : Nat} {cursorMs : Rat} {toks : List Text}
    (hduration : 0 < durationMs) (h : SharedOut durationMs totalWeight cursorMs toks) :
    cursorMs ≤ durationMs := by
  have := share_nonneg hduration (toks.map tokenWeight).sum totalWeight
  unfold SharedOut at h
  linarith

theorem round_le_duration {durationMs : Int} {q : Rat} (h : q ≤ durationMs) :
    roundHalfEven q ≤ durationMs := by
  have := roundHalfEven_monotone h
  rwa [roundHalfEven_intCast] at this

/-- The monotonic pass starts each word at the rounded cursor, or where the word before it has
been pushed to, and closes every gap. -/
theorem enforceMonotonic_tiles {durationMs : Int} {totalWeight : Nat} (offsetMs : Int)
    {cursorMs : Rat} {toks : List Text} (prevEnd : Int) (hduration : 0 < durationMs)
    (hshared : SharedOut durationMs totalWeight cursorMs toks)
    (hprev : prevEnd ≤ offsetMs + durationMs) :
    Tiles Word.startMs Word.endMs (max (offsetMs + roundHalfEven cursorMs) prevEnd)
      (offsetMs + durationMs)
      (enforceMonotonic prevEnd (proportionalFrom durationMs totalWeight offsetMs cursorMs toks)) := by
  induction toks generalizing cursorMs prevEnd with
  | nil =>
    rw [sharedOut_nil hshared, roundHalfEven_intCast]
    exact max_eq_left hprev
  | cons tok toks ih =>
    have hcursor := sharedOut_le hduration hshared
    have hnext := sharedOut_cons hshared
    have hstart := round_le_duration hcursor
    have hend := round_le_duration (sharedOut_le hduration hnext)
    unfold proportionalFrom
    dsimp only
    generalize cursorMs + durationMs * ((tokenWeight tok : Rat) / totalWeight) = next at *
    generalize hstop : (if (if roundHalfEven next ≤ roundHalfEven cursorMs then
      roundHalfEven cursorMs + 1 else roundHalfEven next) > durationMs then durationMs else
      if roundHalfEven next ≤ roundHalfEven cursorMs then roundHalfEven cursorMs + 1 else
        roundHalfEven next) = stop
    have hstop_le : stop ≤ durationMs := by
      rw [← hstop]
      split_ifs <;> omega
    have hle_stop : roundHalfEven next ≤ stop := by
      rw [← hstop]
      split_ifs <;> omega
    rw [if_neg (by omega)]
    unfold enforceMonotonic
    dsimp only
    refine ⟨rfl, le_max_right _ _, ?_⟩
    -- the next word starts where this one ends, since the cursor is not beyond that
    have hrest := ih (max (offsetMs + stop) (max (offsetMs + roundHalfEven cursorMs) prevEnd))
      hnext (by omega)
    rwa [max_eq_right (a := offsetMs + roundHalfEven next) (by omega)] at hrest

theorem sharedOut_start {toks : List Text} (durationMs : Int) (h : toks ≠ []) :
    SharedOut durationMs (toks.map tokenWeight).sum 0 toks := by
  have hpos : 0 < (toks.map tokenWeight).sum := by
    cases toks with
    | nil => exact absurd rfl h
    | cons tok toks =>
      rw [List.map_cons, List.sum_cons]
      unfold tokenWeight
      omega
  have hne : (((toks.map tokenWeight).sum : Nat) : Rat) ≠ 0 := by exact_mod_cast hpos.ne'
  unfold SharedOut
  rw [div_self hne, mul_one, zero_add]

/-! ## The alignment of a segment -/

theorem align_without_provider {repr : Json → Text} {segment : SegmentDict}
    {providerAlignment : Option (List Word)} {finalDurationMs startMs : Int}
    (hprovider : providerAlignment = none ∨ providerAlignment = some [])
    (hstart : segmentStart segment = .ok startMs) (hduration : 0 ≤ finalDurationMs)
    (htext : segmentText repr segment ≠ []) :
    alignWordsToSegment repr segment providerAlignment finalDurationMs =
      .ok (proportionalAlignment (segmentText repr segment) finalDurationMs startMs) := by
  unfold alignWordsToSegment
  rw [if_neg (by omega), hstart]
  rcases hprovider with rfl | rfl
  · exact if_neg htext
  · exact if_neg htext

/-- Without times of the provider there is a word for each token, and the words take up the clip
without a gap, however many they are. -/
theorem proportional_alignment_tiles_the_clip {repr : Json → Text} {segment : SegmentDict}
    {providerAlignment : Option (List Word)} {finalDurationMs startMs : Int}
    (hprovider : providerAlignment = none ∨ providerAlignment = some [])
    (hstart : segmentStart segment = .ok startMs) (hnonneg : 0 ≤ startMs)
    (hduration : 0 < finalDurationMs) (htokens : split (segmentText repr segment) ≠ []) :
    ∃ words, alignWordsToSegment repr segment providerAlignment finalDurationMs = .ok words ∧
      words.map Word.word = split (segmentText repr segment) ∧
      Tiling Word.startMs Word.endMs startMs (startMs + finalDurationMs) words := by
  have htext : segmentText repr segment ≠ [] := by
    intro hempty
    rw [hempty] at htokens
    exact htokens rfl
  refine ⟨_, align_without_provider hprovider hstart hduration.le htext, ?_⟩
  unfold proportionalAlignment
  dsimp only
  rw [if_neg (not_or.mpr ⟨htokens, by omega⟩)]
  constructor
  · rw [enforceMonotonic_words, proportionalFrom_words]
  · have htiles := enforceMonotonic_tiles startMs 0 hduration
      (sharedOut_start finalDurationMs htokens) (by omega)
    have hfirst : roundHalfEven 0 = 0 := roundHalfEven_intCast 0
    rw [hfirst, Int.add_zero, max_eq_left hnonneg] at htiles
    exact tiling_of_tiles htiles

/-- Three words in two milliseconds. -/
theorem three_words_tile_a_short_clip :
    ∃ words, alignWordsToSegment (fun _ => [])
        [(text "start_ms", .int 10), (text "text", .str (text " I am here "))] none 2 = .ok words ∧
      words.map Word.word = [text "I", text "am", text "here"] ∧
      Tiling Word.startMs Word.endMs 10 (10 + 2) words :=
  proportional_alignment_tiles_the_clip (Or.inl rfl) (by with_unfolding_all rfl) (by decide)
    (by decide) (by decide +kernel)

theorem rescaleProviderAlignment_ordered (alignments : List Word) (finalDurationMs offsetMs : Int) :
    Ordered (rescaleProviderAlignment alignments finalDurationMs offsetMs) := by
  unfold rescaleProviderAlignment
  split
  · exact ordered_nil
  · exact enforceMonotonic_ordered _ _

theorem proportionalAlignment_ordered (t : Text) (durationMs offsetMs : Int) :
    Ordered (proportionalAlignment t durationMs offsetMs) := by
  unfold proportionalAlignment
  dsimp only
  split
  · -- a clip of no length: every word stands at its start
    constructor
    · intro w hw
      obtain ⟨tok, -, rfl⟩ := List.mem_map.mp hw
      exact le_rfl
    · rw [List.pairwise_map]
      exact List.pairwise_of_forall fun _ _ => le_rfl
  · exact enforceMonotonic_ordered _ _

/-- Whatever times the provider gives, the words of a segment follow each other. -/
theorem aligned_words_follow_each_other {repr : Json → Text} {segment : SegmentDict}
    {providerAlignment : Option (List Word)} {finalDurationMs : Int} {words : List Word}
    (h : alignWordsToSegment repr segment providerAlignment finalDurationMs = .ok words) :
    Ordered words := by
  unfold alignWordsToSegment at h
  split at h
  · cases h
  · split at h
    · cases h
    · split at h
      · obtain rfl := Except.ok.inj h
        exact rescaleProviderAlignment_ordered _ _ _
      · split at h
        · obtain rfl := Except.ok.inj h
          exact ordered_nil
        · obtain rfl := Except.ok.inj h
          exact proportionalAlignment_ordered _ _ _

end recast_rules.tts
