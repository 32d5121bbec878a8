-- What is stored of the quality loop (`services/tts-service/main.py`) and what the
-- editor shows of it (`QualityDetails`). The last entry of the history is taken for
-- the audio that landed.
import RecastAi.PyPatterns
import RecastAi.QualityLoop

open best_so_far call_programs py_text recast_rules.tts

namespace recast_rules.quality_loop

/-! ## The stored columns -/

variable {α : Type}

/-- What `fit_to_segment` answers. -/
structure FitResult where
  audioBytes : List UInt8
  finalDurationMs : Int
  speedFlagged : Bool

/-- What `_process_segment` stores of a segment. `text` is `none` where the column is not written. -/
structure StoredSegment (α : Type) where
  audio : List UInt8
  flagged : Bool
  text : Option Text
  iterationCount : Nat
  qualityScore : α
  qualityDiagnosis : Diagnosis α
  rewriteHistory : List (HistoryEntry α)

/-- `fit` fits the audio to so many milliseconds, `original` is the text of the segment. -/
def storedSegment [LinearOrder α] (fit : SynthesisResult → Int → FitResult) (args : Arguments α)
    (original : Text) (r : Result α) : StoredSegment α :=
  let fit := fit r.synthesis
    (if args.targetDurationMs = 0 then r.synthesis.durationMs else args.targetDurationMs)
  { audio := fit.audioBytes
    flagged := fit.speedFlagged || !decide (args.passThreshold ≤ r.score.combined)
    text := if strip r.finalText = original then none else some r.finalText
    iterationCount := r.iterations
    qualityScore := r.score.combined
    qualityDiagnosis := r.score.toDiagnosis args.round
    rewriteHistory := r.rewriteHistory }

/-- The text of the segment afterwards. -/
def StoredSegment.landedText (s : StoredSegment α) (original : Text) : Text := s.text.getD original

/-! ## What the editor shows -/

structure QualityDetails (α : Type) where
  refined : Nat
  qualityScore : α
  overflow : Int
  issues : List String
  history : List (HistoryEntry α)

/-- Only a segment with more than one iteration has the panel. -/
def qualityDetails (s : StoredSegment α) : Option (QualityDetails α) :=
  if 1 < s.iterationCount then
    let final := s.rewriteHistory.getLast?
    some
      { refined := s.iterationCount
        qualityScore := s.qualityScore
        overflow := (final.map fun e => e.diagnosis.durationOverflowMs).getD 0
        issues := (final.map fun e => e.diagnosis.issues).getD []
        history := s.rewriteHistory }
  else none

/-! ## The law -/

variable [LinearOrder α] {fit : SynthesisResult → Int → FitResult} {args : Arguments α}
  {original : Text}

/-- The last entry of the history is the attempt that was returned, its text is the one in the
store, all attempts are counted, and the editor shows the issues of the returned audio. -/
structure DescribesWhatLanded (fit : SynthesisResult → Int → FitResult) (args : Arguments α)
    (original : Text) (es : Calls α) (r : Result α) : Prop where
  last : (storedSegment fit args original r).rewriteHistory.getLast? =
    some (historyEntry args.round r.iterations r.finalText r.synthesis r.score)
  text : ∀ e ∈ (storedSegment fit args original r).rewriteHistory.getLast?,
    strip ((storedSegment fit args original r).landedText original) = strip e.text
  count : (storedSegment fit args original r).iterationCount = es.countP isSynthesis
  panel : ∀ shown ∈ qualityDetails (storedSegment fit args original r),
    shown.issues = r.score.issues ∧ shown.overflow = r.score.durationOverflowMs

/-- The text that is stored is the returned one, up to blanks around it. -/
theorem strip_landedText {r : Result α} (h : strip original = original) :
    strip ((storedSegment fit args original r).landedText original) = strip r.finalText := by
  unfold StoredSegment.landedText storedSegment
  dsimp only
  split
  · rename_i hsame
    rw [Option.getD_none, h, hsame]
  · rfl

/-- The last entry is that of the last attempt. -/
theorem last_entry {attempts : List (Attempt α)} {r : Result α} (h : Returns args attempts r) :
    r.rewriteHistory.getLast? =
      attempts.getLast?.map (entryOf args (attempts.length - 1)) := by
  rw [h.history, List.getLast?_eq_getElem?, List.getElem?_mapIdx, List.length_mapIdx,
    List.getLast?_eq_getElem?]

/-- The stored data is right where the last attempt is returned. -/
theorem describes_of_last {es : Calls α} {r : Result α} (horiginal : strip original = original)
    (hcalls : CallsMade args es) (h : Returns args (attemptsOf es) r)
    (hlast : r.iterations = (attemptsOf es).length) : DescribesWhatLanded fit args original es r := by
  obtain ⟨i, hi, hbest⟩ := h.best
  have hentry : r.rewriteHistory.getLast? =
      some (historyEntry args.round r.iterations r.finalText r.synthesis r.score) := by
    have hhere : (attemptsOf es).getLast? = some (Result.attempt r) := by
      rw [List.getLast?_eq_getElem?, ← hlast, hi, Nat.add_sub_cancel, hbest.here]
    rw [last_entry h, hhere, ← hlast, hi, Nat.add_sub_cancel]
    rfl
  refine ⟨hentry, ?_, hlast.trans hcalls.attempts, ?_⟩
  · intro e he
    obtain rfl := Option.some.inj (hentry.symm.trans he)
    exact strip_landedText horiginal
  · intro shown hshown
    unfold qualityDetails at hshown
    split at hshown
    · obtain rfl := Option.some.inj hshown
      dsimp only [storedSegment]
      rw [hentry]
      exact ⟨rfl, rfl⟩
    · cases hshown

/-- What is stored describes what landed exactly where the last attempt scores higher than all
attempts before it. -/
theorem metadata_describes_what_landed_iff {segment : SegmentDict}
    {p : Prog (LoopCall α) LoopCall.Answer (Result α)} {es : Calls α} {r : Result α}
    (hp : synthesizeWithIteration args segment = .ok p) (h : Trace p es r) :
    DescribesWhatLanded fit args (segmentText args.repr segment) es r ↔
      ∀ a ∈ (attemptsOf es).dropLast, ∀ b ∈ (attemptsOf es).getLast?, a.combined < b.combined := by
  obtain ⟨startMs, endMs, rfl⟩ := runs_of_segment hp
  have hcalls : CallsMade args es := callsMade_of_counted (counted_of_trace h)
  have hreturns : Returns args (attemptsOf es) r :=
    returns_of_trace [] h carries_start fun _ hb => absurd hb List.not_mem_nil
  obtain ⟨i, hi, hbest⟩ := hreturns.best
  rw [← earliestBest_last_iff hbest, ← hi]
  constructor
  · intro hdescribes
    exact hdescribes.count.trans hcalls.attempts.symm
  · exact describes_of_last (strip_strip _) hcalls hreturns

/-! ## Runs of a segment -/

def asItIs (synth : SynthesisResult) (targetMs : Int) : FitResult := ⟨synth.audioBytes, targetMs, false⟩

/-- The second attempt passes, and it is the one that is stored. -/
theorem adas_second_attempt_landed :
    DescribesWhatLanded asItIs adasArguments (text "Hello")
        (spokenCalls adasArguments (adasAttempt "Hello" 40) ++
          rewriteCall adasArguments 0 1000 (adasAttempt "Hello" 40) (some (text "Hi")) ::
          spokenCalls adasArguments (adasAttempt "Hi" 80))
        { candidateOf 2 (adasAttempt "Hi" 80) with
          rewriteHistory := [entryOf adasArguments 0 (adasAttempt "Hello" 40),
            entryOf adasArguments 1 (adasAttempt "Hi" 80)] } ↔
      ∀ a ∈ [adasAttempt "Hello" 40], ∀ b ∈ some (adasAttempt "Hi" 80), a.combined < b.combined :=
  metadata_describes_what_landed_iff adas_segment_is_read
    (.call (.call (.call (.call (.call (.done _))))))

/-- A third attempt that is too loud. -/
def adasLoudAttempt : Attempt Int :=
  ⟨text "Hey", adasSpeech, { adasScore 50 with issues := ["too_loud"] }⟩

def adasLoudCalls : Calls Int :=
  spokenCalls adasArguments (adasAttempt "Hello" 40) ++
    rewriteCall adasArguments 0 1000 (adasAttempt "Hello" 40) (some (text "Hi")) ::
    (spokenCalls adasArguments (adasAttempt "Hi" 60) ++
      rewriteCall adasArguments 0 1000 (adasAttempt "Hi" 60) (some (text "Hey")) ::
      spokenCalls adasArguments adasLoudAttempt)

def adasLoudResult : Result Int :=
  { candidateOf 2 (adasAttempt "Hi" 60) with
    rewriteHistory := [entryOf adasArguments 0 (adasAttempt "Hello" 40),
      entryOf adasArguments 1 (adasAttempt "Hi" 60), entryOf adasArguments 2 adasLoudAttempt] }

/-- The second of three attempts is stored. The last entry is the third one, two attempts are
counted, and the editor shows the issues of the third. -/
theorem the_third_attempt_is_taken_for_the_second :
    synthesizeWithIteration adasArguments adasSegment = .ok adasRun ∧
      Trace adasRun adasLoudCalls adasLoudResult ∧
      ¬ DescribesWhatLanded asItIs adasArguments (text "Hello") adasLoudCalls adasLoudResult ∧
      adasLoudCalls.countP isSynthesis = 3 ∧
      (storedSegment asItIs adasArguments (text "Hello") adasLoudResult).iterationCount = 2 ∧
      adasLoudResult.score.issues = [] ∧
      (qualityDetails (storedSegment asItIs adasArguments (text "Hello") adasLoudResult)).map
        QualityDetails.issues = some ["too_loud"] :=
  ⟨adas_segment_is_read, .call (.call (.call (.call (.call (.call (.call (.call (.done _)))))))),
    fun h => absurd h.count (by decide), rfl, rfl, rfl, rfl⟩

end recast_rules.quality_loop
