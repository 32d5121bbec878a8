-- The quality loop of the TTS service (`services/tts-service/tts/iterate.py`): a
-- segment is spoken, scored and, where the score is low, rewritten and spoken
-- again. The best attempt is returned, with the history of all of them.
import RecastAi.BestSoFar
import RecastAi.WordAlignment

open best_so_far call_programs py_text recast_rules.transcript recast_rules.tts
open recast_rules.py

namespace recast_rules.quality_loop

/-! ## The data -/

/-- What a provider answers. -/
structure SynthesisResult where
  audioBytes : List UInt8
  durationMs : Int
  wordAlignments : Option (List Word)
  mimeType : String

/-- The scores are of any kind of numbers. `lufs` is `none` where it is not finite. -/
structure QualityScore (α : Type) where
  combined : α
  durationFit : α
  silence : α
  loudness : α
  durationOverflowMs : Int
  durationUnderflowMs : Int
  silenceRatio : α
  lufs : Option α
  issues : List String

structure Diagnosis (α : Type) where
  durationOverflowMs : Int
  durationUnderflowMs : Int
  silenceRatio : α
  lufs : Option α
  issues : List String
  combinedScore : α

/-- An entry of `rewrite_history`. -/
structure HistoryEntry (α : Type) where
  attempt : Nat
  text : Text
  synthesizedMs : Int
  score : α
  diagnosis : Diagnosis α

structure IterationResult (Synthesis Score Entry : Type) where
  synthesis : Synthesis
  finalText : Text
  score : Score
  iterations : Nat
  rewriteHistory : List Entry

/-- `round` rounds to a number of decimal places. -/
def QualityScore.toDiagnosis {α : Type} (round : Nat → α → α) (s : QualityScore α) : Diagnosis α where
  durationOverflowMs := s.durationOverflowMs
  durationUnderflowMs := s.durationUnderflowMs
  silenceRatio := round 3 s.silenceRatio
  lufs := s.lufs.map (round 1)
  issues := s.issues
  combinedScore := round 3 s.combined

def historyEntry {α : Type} (round : Nat → α → α) (attempt : Nat) (spoken : Text)
    (synth : SynthesisResult) (score : QualityScore α) : HistoryEntry α where
  attempt := attempt
  text := spoken
  synthesizedMs := synth.durationMs
  score := round 3 score.combined
  diagnosis := score.toDiagnosis round

/-! ## The loop -/

section Loop

variable {m : Type → Type} {Synthesis Score Entry α : Type}

/-- The provider, the scorer and the rewriter, and what is read off a score. -/
structure Oracles (m : Type → Type) (Synthesis Score Entry α : Type) where
  synthesize : Text → m Synthesis
  scoreSegment : Synthesis → m Score
  requestRewrite : Text → Score → m (Option Text)
  combined : Score → α
  record : Nat → Text → Synthesis → Score → Entry

variable [LinearOrder α]

/-- A new attempt has to be better than the best one to take its place. -/
def better (combined : Score → α) (best : Option (IterationResult Synthesis Score Entry))
    (candidate : IterationResult Synthesis Score Entry) : IterationResult Synthesis Score Entry :=
  match best with
  | none => candidate
  | some b => if combined b.score < combined candidate.score then candidate else b

/-- The loop from the attempt with this number on. There may be `left` more after it. -/
def iterateFrom [Monad m] (o : Oracles m Synthesis Score Entry α) (passThreshold : α) :
    Nat → Nat → Text → List Entry → Option (IterationResult Synthesis Score Entry) →
      m (IterationResult Synthesis Score Entry)
  | 0, attempt, spoken, history, best => do
    let synth ← o.synthesize spoken
    let score ← o.scoreSegment synth
    let history := history ++ [o.record attempt spoken synth score]
    return { better o.combined best ⟨synth, spoken, score, attempt, []⟩ with rewriteHistory := history }
  | left + 1, attempt, spoken, history, best => do
    let synth ← o.synthesize spoken
    let score ← o.scoreSegment synth
    let history := history ++ [o.record attempt spoken synth score]
    let best := better o.combined best ⟨synth, spoken, score, attempt, []⟩
    if passThreshold ≤ o.combined score then return { best with rewriteHistory := history }
    else
      match ← o.requestRewrite spoken score with
      | none => return { best with rewriteHistory := history }
      | some rewritten =>
        if rewritten = spoken then return { best with rewriteHistory := history }
        else iterateFrom o passThreshold left (attempt + 1) rewritten history (some best)

end Loop

/-! ## The function -/

/-- The calls of the loop. -/
inductive LoopCall (α : Type) where
  | synthesize (spoken voiceID language : Text)
  | score (synth : SynthesisResult) (targetMs : Int)
  | rewrite (original : Text) (startMs endMs : Int) (style language : Text) (diagnosis : Diagnosis α)

def LoopCall.Answer {α : Type} : LoopCall α → Type
  | .synthesize _ _ _ => SynthesisResult
  | .score _ _ => QualityScore α
  | .rewrite _ _ _ _ _ _ => Option Text

/-- The arguments of `synthesize_with_iteration` beside the segment. -/
structure Arguments (α : Type) where
  voiceID : Text
  language : Text
  style : Text
  targetDurationMs : Int
  maxIterations : Int
  passThreshold : α
  enabled : Bool
  round : Nat → α → α
  repr : Json → Text

abbrev Result (α : Type) := IterationResult SynthesisResult (QualityScore α) (HistoryEntry α)

variable {α : Type}

def asking (args : Arguments α) (startMs endMs : Int) :
    Oracles (Prog (LoopCall α) LoopCall.Answer) SynthesisResult (QualityScore α) (HistoryEntry α) α where
  synthesize spoken := Prog.ask (LoopCall.synthesize spoken args.voiceID args.language)
  scoreSegment synth := Prog.ask (LoopCall.score synth
    (if args.targetDurationMs = 0 then synth.durationMs else args.targetDurationMs))
  requestRewrite spoken score := Prog.ask (LoopCall.rewrite spoken startMs endMs args.style args.language
    (score.toDiagnosis args.round))
  combined := QualityScore.combined
  record := historyEntry args.round

/-- How many attempts there may be. -/
def attempts (args : Arguments α) : Nat :=
  if args.enabled then (max 1 args.maxIterations).toNat else 1

/-- `int(segment.get("end_ms", 0))`. -/
def segmentEnd (segment : SegmentDict) : Except String Int :=
  toInt ((segment.lookup (text "end_ms")).getD (.int 0))

/-- A segment whose times are no numbers raises before there is a call. -/
def synthesizeWithIteration [LinearOrder α] (args : Arguments α) (segment : SegmentDict) :
    Except String (Prog (LoopCall α) LoopCall.Answer (Result α)) := do
  let startMs ← segmentStart segment
  let endMs ← segmentEnd segment
  return iterateFrom (asking args startMs endMs) args.passThreshold (attempts args - 1) 1
    (segmentText args.repr segment) [] none

/-! ## The loop of the consumer

The consumer runs the same loop. It keeps the best result without its number and its history. -/

section Consumer

open recast_rules.pipeline

/-- The calls of the consumer. -/
def working (cfg : Settings) (voice : Voice) (startMs endMs targetMs : Int) :
    Oracles Py Clip Score Unit Rat where
  synthesize spoken := must (Prog.ask (Call.work (.synthesize spoken voice.voiceID voice.language)))
  scoreSegment synth := must (Prog.ask (Call.work (.score synth (orDuration targetMs synth))))
  requestRewrite spoken score := requestRewrite cfg voice spoken startMs endMs score
  combined := Score.combined
  record _ _ _ _ := ()

def withoutHistory (r : IterationResult Clip Score Unit) : tts.IterationResult :=
  ⟨r.synthesis, r.finalText, r.score⟩

theorem better_withoutHistory (best : Option (IterationResult Clip Score Unit))
    (candidate : IterationResult Clip Score Unit) :
    tts.better (best.map withoutHistory) (withoutHistory candidate) =
      withoutHistory (better Score.combined best candidate) := by
  cases best with
  | none => rfl
  | some b =>
    unfold better
    dsimp only
    rw [apply_ite withoutHistory]
    rfl

theorem iterate_runs_the_loop (cfg : Settings) (voice : Voice) (startMs endMs targetMs : Int)
    (left attempt : Nat) (spoken : Text) (history : List Unit)
    (best : Option (IterationResult Clip Score Unit)) :
    iterate cfg voice startMs endMs targetMs left spoken (best.map withoutHistory) =
      withoutHistory <$> iterateFrom (working cfg voice startMs endMs targetMs)
        cfg.qualityPassThreshold left attempt spoken history best := by
  induction left generalizing attempt spoken history best with
  | zero =>
    unfold iterate iterateFrom synthesizeOnce working
    simp only [map_bind, bind_assoc, pure_bind, map_pure]
    congr 1
    funext synth
    congr 1
    funext score
    exact congrArg pure (better_withoutHistory best ⟨synth, spoken, score, attempt, []⟩)
  | succ left ih =>
    unfold iterate iterateFrom synthesizeOnce
    simp only [map_bind, bind_assoc, pure_bind]
    refine bind_congr fun synth => bind_congr fun score => ?_
    have hbetter : tts.better (best.map withoutHistory) ⟨synth, spoken, score⟩ = _ :=
      better_withoutHistory best ⟨synth, spoken, score, attempt, []⟩
    rw [hbetter]
    by_cases hpass : cfg.qualityPassThreshold ≤ score.combined
    · have hpasses : passes cfg score = true := decide_eq_true hpass
      rw [if_pos hpasses]
      change _ = withoutHistory <$> (if cfg.qualityPassThreshold ≤ score.combined then _ else _)
      rw [if_pos hpass]
      rfl
    · have hfails : ¬ passes cfg score = true := fun h => hpass (of_decide_eq_true h)
      rw [if_neg hfails]
      change _ = withoutHistory <$> (if cfg.qualityPassThreshold ≤ score.combined then _ else _)
      rw [if_neg hpass, map_bind]
      refine bind_congr fun rewritten => ?_
      cases rewritten with
      | none => rfl
      | some rewritten =>
        dsimp only
        split
        · rfl
        · exact ih (attempt + 1) rewritten _ (some _)

end Consumer

/-! ## One round -/

abbrev Calls (α : Type) := List (Sigma (LoopCall.Answer (α := α)))

def isSynthesis : Sigma (LoopCall.Answer (α := α)) → Bool
  | ⟨.synthesize _ _ _, _⟩ => true
  | _ => false

def isRewrite : Sigma (LoopCall.Answer (α := α)) → Bool
  | ⟨.rewrite _ _ _ _ _ _, _⟩ => true
  | _ => false

/-- What was spoken in an attempt, and what came of it. -/
structure Attempt (α : Type) where
  text : Text
  synthesis : SynthesisResult
  score : QualityScore α

/-- The attempts among the calls: a synthesis and the score of it. -/
def attemptsOf : Calls α → List (Attempt α)
  | ⟨.synthesize spoken _ _, synth⟩ :: ⟨.score _ _, score⟩ :: es => ⟨spoken, synth, score⟩ :: attemptsOf es
  | _ :: es => attemptsOf es
  | [] => []

def Attempt.combined (a : Attempt α) : α := a.score.combined

/-- The entry of the attempt at the place `i`. -/
def entryOf (args : Arguments α) (i : Nat) (a : Attempt α) : HistoryEntry α :=
  historyEntry args.round (i + 1) a.text a.synthesis a.score

def spokenCalls (args : Arguments α) (a : Attempt α) : Calls α :=
  [⟨.synthesize a.text args.voiceID args.language, a.synthesis⟩,
    ⟨.score a.synthesis
      (if args.targetDurationMs = 0 then a.synthesis.durationMs else args.targetDurationMs), a.score⟩]

def rewriteCall (args : Arguments α) (startMs endMs : Int) (a : Attempt α) (answer : Option Text) :
    Sigma (LoopCall.Answer (α := α)) :=
  ⟨.rewrite a.text startMs endMs args.style args.language (a.score.toDiagnosis args.round), answer⟩

theorem attemptsOf_spoken (args : Arguments α) (a : Attempt α) (es : Calls α) :
    attemptsOf (spokenCalls args a ++ es) = a :: attemptsOf es := rfl

theorem attemptsOf_rewrite (args : Arguments α) (startMs endMs : Int) (a : Attempt α) (answer : Option Text)
    (es : Calls α) : attemptsOf (rewriteCall args startMs endMs a answer :: es) = attemptsOf es := rfl

/-- The result of an attempt, before its history is filled in. -/
def candidateOf (attempt : Nat) (a : Attempt α) : Result α := ⟨a.synthesis, a.text, a.score, attempt, []⟩

section Runs

variable [LinearOrder α] {args : Arguments α} {startMs endMs : Int}

def bestAfter (best : Option (Result α)) (attempt : Nat) (a : Attempt α) : Result α :=
  better QualityScore.combined best (candidateOf attempt a)

/-- How a run goes on from one attempt: it ends with it, the rewriter brings nothing new, or there
is another attempt. -/
inductive Round (args : Arguments α) (startMs endMs : Int) (attempt : Nat) (spoken : Text)
    (history : List (HistoryEntry α)) (best : Option (Result α)) :
    Nat → Calls α → Result α → Prop where
  | ends {left : Nat} {a : Attempt α} (htext : a.text = spoken)
      (h : args.passThreshold ≤ a.combined ∨ left = 0) :
      Round args startMs endMs attempt spoken history best left (spokenCalls args a)
        { bestAfter best attempt a with
          rewriteHistory := history ++ [historyEntry args.round attempt a.text a.synthesis a.score] }
  | unchanged {left : Nat} {a : Attempt α} {answer : Option Text} (htext : a.text = spoken)
      (hlow : a.combined < args.passThreshold) (h : answer = none ∨ answer = some spoken) :
      Round args startMs endMs attempt spoken history best (left + 1)
        (spokenCalls args a ++ [rewriteCall args startMs endMs a answer])
        { bestAfter best attempt a with
          rewriteHistory := history ++ [historyEntry args.round attempt a.text a.synthesis a.score] }
  | again {left : Nat} {a : Attempt α} {rewritten : Text} {es : Calls α} {r : Result α}
      (htext : a.text = spoken) (hlow : a.combined < args.passThreshold) (hne : rewritten ≠ spoken)
      (h : Trace (iterateFrom (asking args startMs endMs) args.passThreshold left (attempt + 1)
        rewritten (history ++ [historyEntry args.round attempt a.text a.synthesis a.score])
        (some (bestAfter best attempt a))) es r) :
      Round args startMs endMs attempt spoken history best (left + 1)
        (spokenCalls args a ++ rewriteCall args startMs endMs a (some rewritten) :: es) r

theorem round_of_trace {left attempt : Nat} {spoken : Text} {history : List (HistoryEntry α)}
    {best : Option (Result α)} {es : Calls α} {r : Result α}
    (h : Trace (iterateFrom (asking args startMs endMs) args.passThreshold left attempt spoken
      history best) es r) : Round args startMs endMs attempt spoken history best left es r := by
  cases left with
  | zero =>
    cases h with
    | @call _ _ synth _ _ h =>
      cases h with
      | @call _ _ score _ _ h =>
        cases h
        exact .ends (a := ⟨spoken, synth, score⟩) rfl (Or.inr rfl)
  | succ left =>
    cases h with
    | @call _ _ synth _ _ h =>
      cases h with
      | @call _ _ score _ _ h =>
        change Trace (if args.passThreshold ≤ score.combined then _ else _) _ _ at h
        split at h
        · rename_i hpass
          cases h
          exact .ends (a := ⟨spoken, synth, score⟩) rfl (Or.inl hpass)
        · rename_i hlow
          cases h with
          | @call _ _ answer _ _ h =>
            cases answer with
            | none =>
              cases h
              exact .unchanged (a := ⟨spoken, synth, score⟩) rfl (not_le.mp hlow) (Or.inl rfl)
            | some rewritten =>
              change Trace (if rewritten = spoken then _ else _) _ _ at h
              split at h
              · rename_i hsame
                cases h
                exact .unchanged (a := ⟨spoken, synth, score⟩) rfl (not_le.mp hlow)
                  (Or.inr (congrArg some hsame))
              · rename_i hne
                exact .again (a := ⟨spoken, synth, score⟩) rfl (not_le.mp hlow) hne h

/-! ## What the loop carries -/

def Result.attempt (r : Result α) : Attempt α := ⟨r.finalText, r.synthesis, r.score⟩

/-- The history and the best result after the attempts `done`. -/
structure Carries (args : Arguments α) (done : List (Attempt α)) (history : List (HistoryEntry α))
    (best : Option (Result α)) : Prop where
  history : history = done.mapIdx (entryOf args)
  none_done : best = none → done = []
  best : ∀ b ∈ best, ∃ i, b.iterations = i + 1 ∧ EarliestBest Attempt.combined done i (Result.attempt b)

theorem bestAfter_spec {done : List (Attempt α)} {history : List (HistoryEntry α)}
    {best : Option (Result α)} (h : Carries args done history best) (a : Attempt α) :
    ∃ i, (bestAfter best (done.length + 1) a).iterations = i + 1 ∧
      EarliestBest Attempt.combined (done ++ [a]) i
        (Result.attempt (bestAfter best (done.length + 1) a)) := by
  cases best with
  | none =>
    obtain rfl := h.none_done rfl
    exact ⟨0, rfl, earliestBest_first a⟩
  | some b =>
    obtain ⟨i, hi, hbest⟩ := h.best b rfl
    unfold bestAfter better
    dsimp only
    split
    · rename_i hlt
      exact ⟨done.length, rfl, earliestBest_replace hbest hlt⟩
    · rename_i hle
      exact ⟨i, hi, earliestBest_keep hbest (not_lt.mp hle)⟩

theorem carries_start : Carries args ([] : List (Attempt α)) [] none where
  history := rfl
  none_done := fun _ => rfl
  best := fun _ hb => nomatch hb

/-- What an attempt does to them. -/
theorem carries_attempt {done : List (Attempt α)} {history : List (HistoryEntry α)}
    {best : Option (Result α)} (h : Carries args done history best) (a : Attempt α) :
    Carries args (done ++ [a])
      (history ++ [historyEntry args.round (done.length + 1) a.text a.synthesis a.score])
      (some (bestAfter best (done.length + 1) a)) where
  history := by
    rw [List.mapIdx_concat, h.history]
    rfl
  none_done := fun hnone => nomatch hnone
  best := by
    rintro b hb
    obtain rfl := Option.some.inj hb
    exact bestAfter_spec h a

/-- The result of a run over these attempts. -/
structure Returns (args : Arguments α) (attempts : List (Attempt α)) (r : Result α) : Prop where
  history : r.rewriteHistory = attempts.mapIdx (entryOf args)
  best : ∃ i, r.iterations = i + 1 ∧ EarliestBest Attempt.combined attempts i (Result.attempt r)
  stops : ∀ i a, attempts[i]? = some a → args.passThreshold ≤ a.combined →
    i + 1 = attempts.length ∧ r.iterations = i + 1

/-- A run ends with the attempt `a`, after attempts that did not pass. -/
theorem returns_end {done : List (Attempt α)} {history : List (HistoryEntry α)}
    {best : Option (Result α)} (h : Carries args done history best)
    (hlow : ∀ b ∈ done, b.combined < args.passThreshold) (a : Attempt α) :
    Returns args (done ++ [a]) { bestAfter best (done.length + 1) a with
      rewriteHistory := history ++
        [historyEntry args.round (done.length + 1) a.text a.synthesis a.score] } := by
  have hcarries := carries_attempt h a
  obtain ⟨i, hi, hbest⟩ := bestAfter_spec h a
  refine ⟨hcarries.history, ⟨i, hi, hbest⟩, fun j b hb hpass => ?_⟩
  -- only the last attempt can have passed, and then it is the best one
  have hj : j = done.length := by
    by_contra hne
    have hlt : j < (done ++ [a]).length := (List.getElem?_eq_some_iff.mp hb).1
    rw [List.length_append, List.length_singleton] at hlt
    rw [List.getElem?_append_left (by omega)] at hb
    exact absurd (hlow b (List.mem_of_getElem? hb)) (not_lt.mpr hpass)
  subst hj
  obtain rfl : a = b := by simpa using hb
  refine ⟨by simp, hi.trans ?_⟩
  have hlast : i + 1 = (done ++ [a]).length := by
    rw [earliestBest_last_iff hbest]
    intro c hc d hd
    rw [List.dropLast_concat] at hc
    obtain rfl : a = d := by simpa using hd
    exact (hlow c hc).trans_le hpass
  simpa using hlast

/-- The law of the loop, from any round on: `done` are the attempts before it. -/
theorem returns_of_trace {left : Nat} (done : List (Attempt α)) {spoken : Text}
    {history : List (HistoryEntry α)} {best : Option (Result α)} {es : Calls α} {r : Result α}
    (h : Trace (iterateFrom (asking args startMs endMs) args.passThreshold left (done.length + 1)
      spoken history best) es r)
    (hcarries : Carries args done history best)
    (hlow : ∀ b ∈ done, b.combined < args.passThreshold) :
    Returns args (done ++ attemptsOf es) r := by
  induction left generalizing done spoken history best es with
  | zero =>
    cases round_of_trace h with
    | ends => exact returns_end hcarries hlow _
  | succ left ih =>
    cases round_of_trace h with
    | ends => exact returns_end hcarries hlow _
    | unchanged => exact returns_end hcarries hlow _
    | @again _ a rewritten es r htext ha hne h =>
      have hnext := ih (done ++ [a]) (by simpa using h) (carries_attempt hcarries a) ?_
      · rw [attemptsOf_spoken, attemptsOf_rewrite]
        simpa using hnext
      · intro b hb
        rcases List.mem_append.mp hb with hb | hb
        · exact hlow b hb
        · rwa [List.mem_singleton.mp hb]

end Runs

/-! ## How many calls there are -/

section Counts

variable {args : Arguments α} {startMs endMs : Int}

/-- The last call asked for a rewrite, and there was no new text. -/
def EndsUnchanged (args : Arguments α) (startMs endMs : Int) (es : Calls α) : Prop :=
  ∃ a answer, es.getLast? = some (rewriteCall args startMs endMs a answer) ∧
    (answer = none ∨ answer = some a.text)

/-- The calls of a loop with `left` attempts after the next one. -/
structure Counted (args : Arguments α) (startMs endMs : Int) (left : Nat) (es : Calls α) : Prop where
  attempts : (attemptsOf es).length = es.countP isSynthesis
  one : 1 ≤ es.countP isSynthesis
  most : es.countP isSynthesis ≤ left + 1
  rewrites : es.countP isRewrite ≤ left
  fewer : es.countP isRewrite < es.countP isSynthesis ∨
    es.countP isRewrite = es.countP isSynthesis ∧ EndsUnchanged args startMs endMs es

theorem counted_end (left : Nat) (a : Attempt α) :
    Counted args startMs endMs left (spokenCalls args a) where
  attempts := rfl
  one := le_rfl
  most := Nat.le_add_left 1 left
  rewrites := Nat.zero_le left
  fewer := Or.inl Nat.one_pos

theorem counted_unchanged (left : Nat) {a : Attempt α} {answer : Option Text}
    (h : answer = none ∨ answer = some a.text) :
    Counted args startMs endMs (left + 1)
      (spokenCalls args a ++ [rewriteCall args startMs endMs a answer]) where
  attempts := rfl
  one := le_rfl
  most := Nat.le_add_left 1 (left + 1)
  rewrites := Nat.le_add_left 1 left
  fewer := Or.inr ⟨rfl, a, answer, rfl, h⟩

theorem counted_again {left : Nat} {es : Calls α} (a : Attempt α) (answer : Option Text)
    (h : Counted args startMs endMs left es) :
    Counted args startMs endMs (left + 1)
      (spokenCalls args a ++ rewriteCall args startMs endMs a answer :: es) := by
  have hsynthesis : (spokenCalls args a ++ rewriteCall args startMs endMs a answer :: es).countP
      isSynthesis = es.countP isSynthesis + 1 := by
    rw [List.countP_append, List.countP_cons_of_neg fun h => Bool.false_ne_true h]
    exact Nat.add_comm 1 _
  have hrewrite : (spokenCalls args a ++ rewriteCall args startMs endMs a answer :: es).countP
      isRewrite = es.countP isRewrite + 1 := by
    rw [List.countP_append, List.countP_cons_of_pos rfl]
    exact Nat.zero_add _
  refine ⟨?_, ?_, ?_, ?_, ?_⟩
  · rw [hsynthesis, ← h.attempts, attemptsOf_spoken, attemptsOf_rewrite, List.length_cons]
  · omega
  · have := h.most
    omega
  · have := h.rewrites
    omega
  · rw [hsynthesis, hrewrite]
    rcases h.fewer with hlt | ⟨heq, a', answer', hlast, hnone⟩
    · exact Or.inl (by omega)
    · refine Or.inr ⟨by omega, a', answer', ?_, hnone⟩
      rw [List.getLast?_append, List.getLast?_cons, hlast]
      rfl

theorem counted_of_trace [LinearOrder α] {left attempt : Nat} {spoken : Text} {history : List (HistoryEntry α)}
    {best : Option (Result α)} {es : Calls α} {r : Result α}
    (h : Trace (iterateFrom (asking args startMs endMs) args.passThreshold left attempt spoken
      history best) es r) : Counted args startMs endMs left es := by
  induction left generalizing attempt spoken history best es with
  | zero =>
    cases round_of_trace h with
    | ends => exact counted_end 0 _
  | succ left ih =>
    cases round_of_trace h with
    | ends => exact counted_end _ _
    | unchanged htext _ hsame => exact counted_unchanged left (htext ▸ hsame)
    | again htext ha hne h => exact counted_again _ _ (ih h)

end Counts

/-! ## The law of the function -/

/-- The calls of a whole run. -/
structure CallsMade (args : Arguments α) (es : Calls α) : Prop where
  attempts : (attemptsOf es).length = es.countP isSynthesis
  one : 1 ≤ es.countP isSynthesis
  most : (es.countP isSynthesis : Int) ≤ max 1 args.maxIterations
  disabled : args.enabled = false → es.countP isSynthesis = 1
  rewrites : (es.countP isRewrite : Int) < max 1 args.maxIterations
  fewer : es.countP isRewrite < es.countP isSynthesis ∨
    es.countP isRewrite = es.countP isSynthesis ∧ ∃ startMs endMs, EndsUnchanged args startMs endMs es

theorem attempts_spec (args : Arguments α) :
    1 ≤ attempts args ∧ (attempts args : Int) ≤ max 1 args.maxIterations ∧
      (args.enabled = false → attempts args = 1) := by
  unfold attempts
  split
  · rename_i henabled
    exact ⟨by omega, by omega, fun h => absurd henabled (by simp [h])⟩
  · exact ⟨le_rfl, by omega, fun _ => rfl⟩

theorem callsMade_of_counted {args : Arguments α} {startMs endMs : Int} {es : Calls α}
    (h : Counted args startMs endMs (attempts args - 1) es) : CallsMade args es := by
  obtain ⟨hone, hmost, hdisabled⟩ := attempts_spec args
  have hcount := h.most
  have hrewrites := h.rewrites
  refine ⟨h.attempts, h.one, by omega, fun hoff => ?_, by omega, ?_⟩
  · have := hdisabled hoff
    have := h.one
    omega
  · exact h.fewer.imp id fun ⟨heq, hends⟩ => ⟨heq, startMs, endMs, hends⟩

/-- What is done with the times of a segment, where it has them. -/
theorem times_of_segment {β : Type} {f : Int → Int → β} {segment : SegmentDict} {b : β}
    (h : (do
      let startMs ← segmentStart segment
      let endMs ← segmentEnd segment
      return f startMs endMs) = .ok b) : ∃ startMs endMs, b = f startMs endMs := by
  cases hstart : segmentStart segment with
  | error e =>
    rw [hstart] at h
    cases h
  | ok startMs =>
    cases hend : segmentEnd segment with
    | error e =>
      rw [hstart, hend] at h
      cases h
    | ok endMs =>
      rw [hstart, hend] at h
      exact ⟨startMs, endMs, (Except.ok.inj h).symm⟩

theorem runs_of_segment [LinearOrder α] {args : Arguments α} {segment : SegmentDict}
    {p : Prog (LoopCall α) LoopCall.Answer (Result α)}
    (h : synthesizeWithIteration args segment = .ok p) :
    ∃ startMs endMs, p = iterateFrom (asking args startMs endMs) args.passThreshold
      (attempts args - 1) 1 (segmentText args.repr segment) [] none := by
  exact times_of_segment h

/-- Three attempts, where a score of 70 of 100 passes. -/
def adasArguments : Arguments Int where
  voiceID := text "ada"
  language := text "en"
  style := text "formal"
  targetDurationMs := 1000
  maxIterations := 3
  passThreshold := 70
  enabled := true
  round := fun _ x => x
  repr := fun _ => []

def adasSegment : SegmentDict :=
  [(text "text", .str (text "Hello")), (text "start_ms", .int 0), (text "end_ms", .int 1000)]

def adasSpeech : SynthesisResult := ⟨[], 1200, none, "audio/mpeg"⟩

def adasScore (combined : Int) : QualityScore Int := ⟨combined, 50, 50, 50, 0, 0, 0, none, []⟩

def adasAttempt (spoken : String) (combined : Int) : Attempt Int :=
  ⟨text spoken, adasSpeech, adasScore combined⟩

def adasRun : Prog (LoopCall Int) LoopCall.Answer (Result Int) :=
  iterateFrom (asking adasArguments 0 1000) 70 2 1 (text "Hello") [] none

theorem adas_segment_is_read : synthesizeWithIteration adasArguments adasSegment = .ok adasRun := by
  with_unfolding_all rfl

end recast_rules.quality_loop
