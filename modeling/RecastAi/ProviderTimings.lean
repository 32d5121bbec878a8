-- The words that the providers time (`tts/synthesizer.py`): ElevenLabs times every
-- character, and Polly marks the start of every word.
import Mathlib.Data.Int.ConditionallyCompleteOrder
import RecastAi.ListRuns
import RecastAi.RescaledWords

open py_text list_runs recast_rules.transcript recast_rules.py

namespace recast_rules.tts

/-! ## The characters of ElevenLabs -/

section Characters

variable {T : Type} {toMs : T → Int}

/-- The word that is being read: its characters, when it starts and when its last character
ends. -/
structure Current (T : Type) where
  chars : List Text
  start : Option T
  stop : T

def isSpaceText (t : Text) : Bool := t ≠ [] && t.all isSpace

/-- `_flush`. Here `toMs` is `int(round(seconds * 1000))`. -/
def flush (toMs : T → Int) (current : Current T) : List Word :=
  match current.start with
  | none => []
  | some start =>
    let token := strip current.chars.flatten
    if current.chars = [] ∨ token = [] then [] else [⟨token, toMs start, toMs current.stop⟩]

/-- The loop of `_aggregate_characters_to_words`. -/
def aggregateFrom [Zero T] (toMs : T → Int) : Current T → List (Text × T × T) → List Word
  | current, [] => flush toMs current
  | current, (char, start, stop) :: rest =>
    if isSpaceText char then flush toMs current ++ aggregateFrom toMs ⟨[], none, 0⟩ rest
    else aggregateFrom toMs ⟨current.chars ++ [char], some (current.start.getD start), stop⟩ rest

def aggregateCharactersToWords [Zero T] (toMs : T → Int) (characters : List Text)
    (startTimes endTimes : List T) : Except String (List Word) :=
  if characters.length = startTimes.length ∧ startTimes.length = endTimes.length then
    .ok (enforceMonotonic 0
      (aggregateFrom toMs ⟨[], none, 0⟩ (characters.zip (startTimes.zip endTimes))))
  else .error "ValueError"

/-- `int(round(seconds * 1000))` of an exact number of seconds. -/
def roundMs (seconds : Rat) : Int := roundHalfEven (seconds * 1000)

/-! ## The words of the text -/

structure TimedChar (T : Type) where
  char : Nat
  start : T
  stop : T

def timedChars (characters : List Nat) (startTimes endTimes : List T) : List (TimedChar T) :=
  (characters.zip (startTimes.zip endTimes)).map fun x => ⟨x.1, x.2.1, x.2.2⟩

/-- The word of a run of characters: from the start of the first to the end of the last. -/
def wordOf (toMs : T → Int) : List (TimedChar T) → Option Word
  | [] => none
  | c :: run => some ⟨(c :: run).map TimedChar.char, toMs c.start,
      toMs ((c :: run).getLast (List.cons_ne_nil c run)).stop⟩

/-- Each character ends after its start, and the next one starts after that. -/
structure InOrder [LE T] (chars : List (TimedChar T)) : Prop where
  ordered : ∀ c ∈ chars, c.start ≤ c.stop
  chained : chars.IsChain fun a b => a.stop ≤ b.start

theorem splitFrom_eq_runsAfter (word t : Text) : splitFrom word t = runsAfter isSpace word t := by
  induction t generalizing word with
  | nil => rw [runsAfter_nil, splitFrom]
  | cons c t ih =>
    unfold splitFrom
    cases h : isSpace c with
    | true =>
      rw [runsAfter_separator h, ih, runsAfter_nothing]
      cases word <;> rfl
    | false =>
      rw [runsAfter_element h, ← ih]
      rfl

/-- `str.split()` gives the runs between the white space. -/
theorem split_eq_runs (t : Text) : split t = runs isSpace t := splitFrom_eq_runsAfter [] t

theorem dropWhile_isSpace {t : Text} (h : ∀ c ∈ t, isSpace c = false) :
    t.dropWhile isSpace = t := by
  cases t with
  | nil => rfl
  | cons c t => exact List.dropWhile_cons_of_neg (by simp [h c List.mem_cons_self])

theorem strip_of_no_space {t : Text} (h : ∀ c ∈ t, isSpace c = false) : strip t = t := by
  unfold strip
  rw [dropWhile_isSpace h, dropWhile_isSpace fun c hc => h c (List.mem_reverse.mp hc),
    List.reverse_reverse]

def spaced (c : TimedChar T) : Bool := isSpace c.char

theorem wordOf_word {runs : List (List (TimedChar T))} (h : ∀ r ∈ runs, r ≠ []) :
    (runs.filterMap (wordOf toMs)).map Word.word = runs.map (List.map TimedChar.char) := by
  induction runs with
  | nil => rfl
  | cons r runs ih =>
    have hrest := ih fun r' hr' => h r' (List.mem_cons_of_mem _ hr')
    cases r with
    | nil => exact absurd rfl (h [] List.mem_cons_self)
    | cons c r => exact congrArg (List.cons _) hrest

/-! ## Characters in order -/

section Ordered

variable [Preorder T] {chars : List (TimedChar T)}

theorem inOrder_pairwise (h : InOrder chars) : chars.Pairwise fun a b => a.stop ≤ b.start := by
  obtain ⟨hordered, hchained⟩ := h
  induction chars with
  | nil => exact List.Pairwise.nil
  | cons a chars ih =>
    have hrest := ih (fun c hc => hordered c (List.mem_cons_of_mem _ hc)) hchained.tail
    refine List.pairwise_cons.mpr ⟨fun c hc => ?_, hrest⟩
    cases chars with
    | nil => cases hc
    | cons b chars =>
      have hab : a.stop ≤ b.start := (List.isChain_cons_cons.mp hchained).1
      rcases List.mem_cons.mp hc with rfl | hc
      · exact hab
      · -- the character in between takes no time back
        have hb := hordered b (List.mem_cons_of_mem _ List.mem_cons_self)
        exact hab.trans (hb.trans ((List.pairwise_cons.mp hrest).1 c hc))

theorem start_le_last {c : TimedChar T} {run : List (TimedChar T)}
    (hordered : ∀ d ∈ c :: run, d.start ≤ d.stop)
    (hpair : (c :: run).Pairwise fun a b => a.stop ≤ b.start) :
    c.start ≤ ((c :: run).getLast (List.cons_ne_nil c run)).stop := by
  have hc := hordered c List.mem_cons_self
  have hmem := List.getLast_mem (List.cons_ne_nil c run)
  rcases List.mem_cons.mp hmem with hlast | hlast
  · rwa [hlast]
  · exact hc.trans (((List.pairwise_cons.mp hpair).1 _ hlast).trans (hordered _ hmem))

/-- The words of characters in order are in order themselves. -/
theorem words_ordered (hmono : Monotone toMs) (h : InOrder chars) :
    Ordered ((runs spaced chars).filterMap (wordOf toMs)) := by
  obtain ⟨hwithin, hbetween⟩ := runs_pairwise (p := spaced) (inOrder_pairwise h)
  constructor
  · intro w hw
    obtain ⟨run, hrun, hword⟩ := List.mem_filterMap.mp hw
    have hordered : ∀ d ∈ run, d.start ≤ d.stop := by
      intro d hd
      have hflat : d ∈ (runs spaced chars).flatten := List.mem_flatten_of_mem hrun hd
      rw [flatten_runs] at hflat
      exact h.ordered d (List.mem_of_mem_filter hflat)
    cases run with
    | nil => cases hword
    | cons c run =>
      obtain rfl := Option.some.inj hword
      exact hmono (start_le_last hordered (hwithin _ hrun))
  · refine hbetween.filterMap (wordOf toMs) fun r r' hrr' w hw w' hw' => ?_
    cases r with
    | nil => cases hw
    | cons c r =>
      cases r' with
      | nil => cases hw'
      | cons d r' =>
        obtain rfl := Option.some.inj hw
        obtain rfl := Option.some.inj hw'
        exact hmono (hrr' _ (List.getLast_mem _) d List.mem_cons_self)

end Ordered

/-! ## The three lists -/

section Lists

variable {characters : List Nat} {startTimes endTimes : List T}

def TimedChar.entry (c : TimedChar T) : Text × T × T := ([c.char], c.start, c.stop)

theorem timedChars_char (hstarts : characters.length = startTimes.length)
    (hends : startTimes.length = endTimes.length) :
    (timedChars characters startTimes endTimes).map TimedChar.char = characters := by
  unfold timedChars
  rw [List.map_map]
  exact List.map_fst_zip (by rw [List.length_zip]; omega)

theorem timedChars_entry : (timedChars characters startTimes endTimes).map TimedChar.entry =
    (characters.map fun c => [c]).zip (startTimes.zip endTimes) := by
  unfold timedChars
  rw [List.map_map, List.zip_map_left]
  rfl

theorem words_of_characters (hstarts : characters.length = startTimes.length)
    (hends : startTimes.length = endTimes.length) :
    ((runs spaced (timedChars characters startTimes endTimes)).filterMap (wordOf toMs)).map
      Word.word = split characters := by
  rw [wordOf_word fun r hr => run_not_empty hr, split_eq_runs]
  conv_rhs => rw [← timedChars_char hstarts hends]
  exact (runs_map TimedChar.char isSpace _).symm

end Lists

/-! ## The loop -/

/-- What the loop holds after the characters of a word. -/
def reading [Zero T] (run : List (TimedChar T)) : Current T :=
  ⟨run.map fun c => [c.char], run.head?.map TimedChar.start,
    (run.getLast?.map TimedChar.stop).getD 0⟩

variable [Zero T]

theorem flush_reading {run : List (TimedChar T)} (h : ∀ c ∈ run, spaced c = false) :
    flush toMs (reading run) = (wordOf toMs run).toList := by
  cases run with
  | nil => rfl
  | cons c run =>
    have hletters : (((c :: run).map fun c => [c.char]).flatten : Text) =
        (c :: run).map TimedChar.char := by
      rw [← List.flatMap_def, ← List.map_eq_flatMap]
    have hstrip : strip ((c :: run).map TimedChar.char) = (c :: run).map TimedChar.char := by
      apply strip_of_no_space
      intro d hd
      obtain ⟨e, he, rfl⟩ := List.mem_map.mp hd
      exact h e he
    have hlast : (c :: run).getLast? = some ((c :: run).getLast (List.cons_ne_nil c run)) :=
      List.getLast?_eq_some_getLast _
    unfold flush reading wordOf
    dsimp only [List.head?_cons, Option.map_some]
    rw [hletters, hstrip, hlast, if_neg (by simp)]
    rfl

theorem aggregateFrom_reading {run chars : List (TimedChar T)} (h : ∀ c ∈ run, spaced c = false) :
    aggregateFrom toMs (reading run) (chars.map TimedChar.entry) =
      (runsAfter spaced run chars).filterMap (wordOf toMs) := by
  induction chars generalizing run with
  | nil =>
    rw [List.map_nil, aggregateFrom, flush_reading h, runsAfter_nil]
    cases run <;> rfl
  | cons c chars ih =>
    have hspace : isSpaceText [c.char] = spaced c := by
      unfold isSpaceText spaced
      simp
    rw [List.map_cons]
    unfold TimedChar.entry aggregateFrom
    rw [hspace]
    cases hc : spaced c with
    | true =>
      rw [if_pos rfl, flush_reading h, runsAfter_separator hc, List.filterMap_append,
        ← runsAfter_nothing]
      have hrest : aggregateFrom toMs ⟨[], none, 0⟩ (chars.map TimedChar.entry) =
          (runsAfter spaced [] chars).filterMap (wordOf toMs) :=
        ih fun _ hd => absurd hd List.not_mem_nil
      rw [← hrest]
      congr 1
      cases run <;> rfl
    | false =>
      have hmore : ∀ d ∈ run ++ [c], spaced d = false := by
        intro d hd
        rcases List.mem_append.mp hd with hd | hd
        · exact h d hd
        · rwa [List.mem_singleton.mp hd]
      have hreading : reading (run ++ [c]) =
          ⟨(reading run).chars ++ [[c.char]], some ((reading run).start.getD c.start), c.stop⟩ := by
        unfold reading
        rw [List.map_append, List.getLast?_concat]
        cases run <;> rfl
      rw [if_neg (by simp), runsAfter_element hc, ← ih hmore, hreading]
      rfl

variable {characters : List Nat} {startTimes endTimes : List T}

/-- The loop folds the characters to the words of the text, before the monotonic pass. -/
theorem aggregateCharactersToWords_eq (hstarts : characters.length = startTimes.length)
    (hends : startTimes.length = endTimes.length) :
    aggregateCharactersToWords toMs (characters.map fun c => [c]) startTimes endTimes =
      .ok (enforceMonotonic 0 ((runs spaced (timedChars characters startTimes endTimes)).filterMap
        (wordOf toMs))) := by
  have hread : aggregateFrom toMs (reading [])
      ((timedChars characters startTimes endTimes).map TimedChar.entry) =
        (runsAfter spaced [] (timedChars characters startTimes endTimes)).filterMap (wordOf toMs) :=
    aggregateFrom_reading fun _ hc => absurd hc List.not_mem_nil
  unfold aggregateCharactersToWords
  rw [if_pos ⟨by rwa [List.length_map], hends⟩, ← timedChars_entry]
  exact congrArg (fun words => Except.ok (enforceMonotonic 0 words)) hread

/-- Over any times, and any rounding that keeps their order. -/
theorem characters_fold_to_words [Preorder T] (hmono : Monotone toMs)
    (htoMs : ∀ t, 0 ≤ t → 0 ≤ toMs t) (hstarts : characters.length = startTimes.length)
    (hends : startTimes.length = endTimes.length) (hnonneg : ∀ t ∈ startTimes, 0 ≤ t) :
    ∃ words, aggregateCharactersToWords toMs (characters.map fun c => [c]) startTimes endTimes =
        .ok words ∧
      words.map Word.word = split characters ∧
      (words.map Word.word).flatten = characters.filter (!isSpace ·) ∧
      Ordered words ∧
      (InOrder (timedChars characters startTimes endTimes) →
        words = (runs spaced (timedChars characters startTimes endTimes)).filterMap
          (wordOf toMs)) := by
  have hwords : (enforceMonotonic 0 ((runs spaced (timedChars characters startTimes
      endTimes)).filterMap (wordOf toMs))).map Word.word = split characters := by
    rw [enforceMonotonic_words, words_of_characters hstarts hends]
  refine ⟨_, aggregateCharactersToWords_eq hstarts hends, hwords, ?_, enforceMonotonic_ordered _ _,
    fun h => ?_⟩
  · rw [hwords, split_eq_runs, flatten_runs]
  · refine enforceMonotonic_eq_self (words_ordered hmono h) fun w hw => ?_
    obtain ⟨run, hrun, hword⟩ := List.mem_filterMap.mp (List.mem_of_head? hw)
    cases run with
    | nil => cases hword
    | cons c run =>
      obtain rfl := Option.some.inj hword
      have hflat : c ∈ (runs spaced (timedChars characters startTimes endTimes)).flatten :=
        List.mem_flatten_of_mem hrun List.mem_cons_self
      rw [flatten_runs] at hflat
      obtain ⟨x, hx, rfl⟩ := List.mem_map.mp (List.mem_of_mem_filter hflat)
      exact htoMs _ (hnonneg _ (List.of_mem_zip (List.of_mem_zip hx).2).1)

end Characters

theorem roundMs_monotone : Monotone roundMs := by
  intro a b h
  exact roundHalfEven_monotone (mul_le_mul_of_nonneg_right h (by norm_num))

theorem roundMs_nonneg (seconds : Rat) (h : 0 ≤ seconds) : 0 ≤ roundMs seconds :=
  round_nonneg (mul_nonneg h (by norm_num))

/-- The characters fold to the words of the text, without one that is lost or doubled, and the
words follow each other. Characters in order leave each word from the start of its first to the
end of its last one. -/
theorem character_times_fold_to_the_words {characters : List Nat} {startTimes endTimes : List Rat}
    (hstarts : characters.length = startTimes.length) (hends : startTimes.length = endTimes.length)
    (hnonneg : ∀ t ∈ startTimes, 0 ≤ t) :
    ∃ words, aggregateCharactersToWords roundMs (characters.map fun c => [c]) startTimes endTimes =
        .ok words ∧
      words.map Word.word = split characters ∧
      (words.map Word.word).flatten = characters.filter (!isSpace ·) ∧
      Ordered words ∧
      (InOrder (timedChars characters startTimes endTimes) →
        words = (runs spaced (timedChars characters startTimes endTimes)).filterMap
          (wordOf roundMs)) :=
  characters_fold_to_words roundMs_monotone roundMs_nonneg hstarts hends hnonneg

/-- A text with white space around it. -/
theorem three_characters_fold_to_two_words :
    ∃ words, aggregateCharactersToWords roundMs ((text " hi I ").map fun c => [c])
        [0, 1 / 10, 2 / 10, 3 / 10, 4 / 10, 5 / 10] [1 / 10, 2 / 10, 3 / 10, 4 / 10, 5 / 10, 6 / 10] =
        .ok words ∧
      words.map Word.word = split (text " hi I ") ∧
      (words.map Word.word).flatten = (text " hi I ").filter (!isSpace ·) ∧
      Ordered words ∧
      (InOrder (timedChars (text " hi I ") [(0 : Rat), 1 / 10, 2 / 10, 3 / 10, 4 / 10, 5 / 10]
          [1 / 10, 2 / 10, 3 / 10, 4 / 10, 5 / 10, 6 / 10]) →
        words = (runs spaced (timedChars (text " hi I ")
          [(0 : Rat), 1 / 10, 2 / 10, 3 / 10, 4 / 10, 5 / 10]
          [1 / 10, 2 / 10, 3 / 10, 4 / 10, 5 / 10, 6 / 10])).filterMap (wordOf roundMs)) :=
  character_times_fold_to_the_words (by decide) (by decide) (by decide +kernel)

example : aggregateCharactersToWords roundMs ((text "hi I").map fun c => [c]) [0, 1 / 10, 2 / 10, 3 / 10]
    [1 / 10, 2 / 10, 3 / 10, 4 / 10] = .ok [⟨text "hi", 0, 200⟩, ⟨text "I", 300, 400⟩] := by
  decide +kernel

/-! ## The marks of Polly -/

abbrev MarkDict := List (Text × Json)

/-- `int(mark.get("time", default))`. -/
def markTime (mark : MarkDict) (default : Int) : Except String Int :=
  toInt ((mark.lookup (text "time")).getD (.int default))

/-- `str(mark.get("value", "")).strip()`. -/
def markValue (repr : Json → Text) (mark : MarkDict) : Text :=
  strip (toText repr ((mark.lookup (text "value")).getD (.str [])))

/-- `sorted(marks, key=...)` is stable. -/
def sortMarks (marks : List MarkDict) : Except String (List MarkDict) := do
  let times ← marks.mapM fun m => markTime m 0
  return ((marks.zip times).insertionSort (fun a b => a.2 ≤ b.2)).map Prod.fst

/-- The loop over the sorted marks. -/
def markWords (repr : Json → Text) : List MarkDict → Except String (List Word)
  | [] => .ok []
  | mark :: rest =>
    let value := markValue repr mark
    if value = [] then markWords repr rest
    else do
      let startMs ← markTime mark 0
      let endMs ← match rest with
        | next :: _ => markTime next startMs
        | [] => .ok (startMs + max 1 (value.length * 70))
      let endMs := if endMs < startMs then startMs else endMs
      let words ← markWords repr rest
      return ⟨value, startMs, endMs⟩ :: words

def marksToAlignment (repr : Json → Text) (marks : List MarkDict) :
    Except String (Option (List Word)) :=
  if marks = [] then .ok none
  else do
    let ordered ← sortMarks marks
    let words ← markWords repr ordered
    if words = [] then return none
    else return some (enforceMonotonic 0 words)

/-! ## What the marks say -/

def timeOf (mark : MarkDict) : Int :=
  match mark.lookup (text "time") with
  | some (.int t) => t
  | _ => 0

/-- A mark with a time that is not negative. -/
structure Timed (mark : MarkDict) : Prop where
  written : mark.lookup (text "time") = some (.int (timeOf mark))
  nonneg : 0 ≤ timeOf mark

/-- The marks by their times, and the marks of one time in the order in which they came. -/
structure StableOrder (marks ordered : List MarkDict) : Prop where
  perm : ordered.Perm marks
  sorted : ordered.Pairwise fun a b => timeOf a ≤ timeOf b
  stable : ∀ t, ordered.filter (timeOf · = t) = marks.filter (timeOf · = t)

/-- A record for each mark with a value, from its time to the time of the next mark. Behind the
last mark there is none, and its record is as long as its value. -/
def recordsOf (repr : Json → Text) : List MarkDict → List Word
  | [] => []
  | [mark] =>
    if markValue repr mark = [] then []
    else [⟨markValue repr mark, timeOf mark,
      timeOf mark + max 1 ((markValue repr mark).length * 70)⟩]
  | mark :: next :: rest =>
    if markValue repr mark = [] then recordsOf repr (next :: rest)
    else ⟨markValue repr mark, timeOf mark, timeOf next⟩ :: recordsOf repr (next :: rest)

theorem markTime_of_timed {mark : MarkDict} (h : Timed mark) (default : Int) :
    markTime mark default = .ok (timeOf mark) := by
  unfold markTime
  rw [h.written]
  rfl

theorem times_of_timed {marks : List MarkDict} (h : ∀ m ∈ marks, Timed m) :
    (marks.mapM fun m => markTime m 0) = .ok (marks.map timeOf) := by
  induction marks with
  | nil => rfl
  | cons m marks ih =>
    rw [List.mapM_cons, markTime_of_timed (h m List.mem_cons_self),
      ih fun m' hm' => h m' (List.mem_cons_of_mem _ hm')]
    rfl

def notLater (a b : MarkDict) : Prop := timeOf a ≤ timeOf b

instance : DecidableRel notLater := fun a b => inferInstanceAs (Decidable (timeOf a ≤ timeOf b))

instance : Std.Total notLater := ⟨fun a b => le_total (timeOf a) (timeOf b)⟩

instance : IsTrans MarkDict notLater := ⟨fun _ _ _ hab hbc => Int.le_trans hab hbc⟩

theorem sortMarks_of_timed {marks : List MarkDict} (h : ∀ m ∈ marks, Timed m) :
    sortMarks marks = .ok (marks.insertionSort notLater) := by
  have hzip : marks.zip (marks.map timeOf) = marks.map fun m => (m, timeOf m) := by
    have hmap : (marks.map id).zip (marks.map timeOf) = marks.map fun m => (m, timeOf m) :=
      List.zip_map'
    rwa [List.map_id] at hmap
  have hfst : ((marks.map fun m => (m, timeOf m)).insertionSort
      fun a b : MarkDict × Int => a.2 ≤ b.2).map Prod.fst = marks.insertionSort notLater := by
    rw [List.map_insertionSort (fun a b : MarkDict × Int => a.2 ≤ b.2) notLater, List.map_map]
    · exact congrArg _ (List.map_id _)
    · intro a ha b hb
      obtain ⟨m, -, rfl⟩ := List.mem_map.mp ha
      obtain ⟨m', -, rfl⟩ := List.mem_map.mp hb
      rfl
  unfold sortMarks
  rw [times_of_timed h]
  change Except.ok _ = _
  rw [hzip, hfst]

/-- The marks of one time are a sorted part of the list, and the sort keeps such a part. -/
theorem sorted_marks (marks : List MarkDict) :
    StableOrder marks (marks.insertionSort notLater) where
  perm := List.perm_insertionSort _ _
  sorted := List.pairwise_insertionSort notLater marks
  stable := by
    intro t
    have hperm := List.perm_insertionSort notLater marks
    have hsame : (marks.filter (timeOf · = t)).Pairwise notLater := by
      rw [List.pairwise_filter]
      refine List.pairwise_of_forall fun a b ha hb => ?_
      have ha := of_decide_eq_true ha
      have hb := of_decide_eq_true hb
      exact (ha.trans hb.symm).le
    have hsub := (List.sublist_insertionSort hsame List.filter_sublist).filter (timeOf · = t)
    simp only [List.filter_filter, Bool.and_self] at hsub
    exact (hsub.eq_of_length (hperm.filter _).length_eq.symm).symm

/-! ## The records -/

section Records

variable {repr : Json → Text}

theorem recordsOf_start {marks : List MarkDict} {w : Word} (h : w ∈ recordsOf repr marks) :
    ∃ m ∈ marks, w.startMs = timeOf m := by
  induction marks with
  | nil => cases h
  | cons mark rest ih =>
    have htail : w ∈ recordsOf repr rest → ∃ m ∈ mark :: rest, w.startMs = timeOf m := by
      intro hw
      obtain ⟨m, hm, hstart⟩ := ih hw
      exact ⟨m, List.mem_cons_of_mem _ hm, hstart⟩
    cases rest with
    | nil =>
      unfold recordsOf at h
      split at h
      · cases h
      · rw [List.mem_singleton.mp h]
        exact ⟨mark, List.mem_cons_self, rfl⟩
    | cons next rest =>
      unfold recordsOf at h
      split at h
      · exact htail h
      · rcases List.mem_cons.mp h with rfl | h
        · exact ⟨mark, List.mem_cons_self, rfl⟩
        · exact htail h

/-- The records of sorted marks follow each other. -/
theorem recordsOf_ordered {marks : List MarkDict}
    (h : marks.Pairwise fun a b => timeOf a ≤ timeOf b) : Ordered (recordsOf repr marks) := by
  induction marks with
  | nil => exact ordered_nil
  | cons mark rest ih =>
    obtain ⟨hmark, hrest⟩ := List.pairwise_cons.mp h
    cases rest with
    | nil =>
      unfold recordsOf
      split
      · exact ordered_nil
      · refine ⟨fun w hw => ?_, List.pairwise_singleton _ _⟩
        rw [List.mem_singleton.mp hw]
        dsimp only
        omega
    | cons next rest =>
      obtain ⟨hends, hpair⟩ := ih hrest
      have hnext : timeOf mark ≤ timeOf next := hmark next List.mem_cons_self
      unfold recordsOf
      split
      · exact ⟨hends, hpair⟩
      · refine ⟨fun w hw => ?_, List.pairwise_cons.mpr ⟨fun w hw => ?_, hpair⟩⟩
        · rcases List.mem_cons.mp hw with rfl | hw
          · exact hnext
          · exact hends w hw
        · -- the record ends where the next mark is, and no later record starts before it
          obtain ⟨m, hm, hstart⟩ := recordsOf_start hw
          rw [hstart]
          rcases List.mem_cons.mp hm with rfl | hm
          · exact le_rfl
          · exact (List.pairwise_cons.mp hrest).1 m hm

theorem recordsOf_word (marks : List MarkDict) :
    (recordsOf repr marks).map Word.word = (marks.map (markValue repr)).filter (· ≠ []) := by
  induction marks with
  | nil => rfl
  | cons mark rest ih =>
    cases rest with
    | nil =>
      unfold recordsOf
      by_cases hvalue : markValue repr mark = []
      · simp [hvalue]
      · simp [hvalue]
    | cons next rest =>
      unfold recordsOf
      rw [List.map_cons]
      by_cases hvalue : markValue repr mark = []
      · rw [if_pos hvalue, ih, List.filter_cons_of_neg (by simp [hvalue])]
      · rw [if_neg hvalue, List.map_cons, ih, List.filter_cons_of_pos (by simp [hvalue])]

/-- No end has to be moved. -/
theorem markWords_of_sorted {marks : List MarkDict} (htimed : ∀ m ∈ marks, Timed m)
    (hsorted : marks.Pairwise fun a b => timeOf a ≤ timeOf b) :
    markWords repr marks = .ok (recordsOf repr marks) := by
  induction marks with
  | nil => rfl
  | cons mark rest ih =>
    obtain ⟨hmark, hrest⟩ := List.pairwise_cons.mp hsorted
    have hih := ih (fun m hm => htimed m (List.mem_cons_of_mem _ hm)) hrest
    have hstart := markTime_of_timed (htimed mark List.mem_cons_self) 0
    cases rest with
    | nil =>
      unfold markWords recordsOf
      dsimp only
      rw [hstart, hih]
      split
      · rfl
      · change Except.ok [(⟨_, _, if timeOf mark + _ < timeOf mark then _ else _⟩ : Word)] = _
        rw [if_neg (by omega)]
    | cons next rest =>
      have hend := markTime_of_timed
        (htimed next (List.mem_cons_of_mem _ List.mem_cons_self)) (timeOf mark)
      have hnext : timeOf mark ≤ timeOf next := hmark next List.mem_cons_self
      unfold markWords recordsOf
      dsimp only
      rw [hstart, hih]
      split
      · rfl
      · change (markTime next (timeOf mark) >>= fun endMs => Except.ok
          ((⟨_, _, if endMs < timeOf mark then timeOf mark else endMs⟩ : Word) :: _)) = _
        rw [hend]
        change Except.ok ((⟨_, _, if timeOf next < timeOf mark then _ else _⟩ : Word) :: _) = _
        rw [if_neg (by omega)]

/-- The marks become records in stable order of their times, one for each mark with a value, each
from its mark to the next. Nothing is returned exactly where no mark has a value. -/
theorem speech_marks_convert_without_loss {marks : List MarkDict} (h : ∀ m ∈ marks, Timed m) :
    ∃ ordered result, StableOrder marks ordered ∧ marksToAlignment repr marks = .ok result ∧
      (result = none ↔ ∀ m ∈ marks, markValue repr m = []) ∧
      ∀ words ∈ result, words = recordsOf repr ordered ∧ Ordered words ∧
        words.map Word.word = (ordered.map (markValue repr)).filter (· ≠ []) := by
  have horder := sorted_marks marks
  refine ⟨marks.insertionSort notLater, ?_⟩
  generalize hsort : marks.insertionSort notLater = ordered at horder ⊢
  have htimed : ∀ m ∈ ordered, Timed m := fun m hm => h m (horder.perm.mem_iff.mp hm)
  have hordered : Ordered (recordsOf repr ordered) := recordsOf_ordered horder.sorted
  have hkept : enforceMonotonic 0 (recordsOf repr ordered) = recordsOf repr ordered := by
    refine enforceMonotonic_eq_self hordered fun w hw => ?_
    obtain ⟨m, hm, hstart⟩ := recordsOf_start (List.mem_of_head? hw)
    rw [hstart]
    exact (htimed m hm).nonneg
  have hblank : recordsOf repr ordered = [] ↔ ∀ m ∈ marks, markValue repr m = [] := by
    rw [← List.map_eq_nil_iff (f := Word.word), recordsOf_word, List.filter_eq_nil_iff]
    simp [horder.perm.mem_iff]
  have hrun : marksToAlignment repr marks =
      .ok (if recordsOf repr ordered = [] then none else some (recordsOf repr ordered)) := by
    unfold marksToAlignment
    split
    · rename_i hnil
      rw [if_pos (hblank.mpr (by simp [hnil]))]
    · rw [sortMarks_of_timed h, hsort]
      change (markWords repr ordered >>= _) = _
      rw [markWords_of_sorted htimed horder.sorted]
      change (if recordsOf repr ordered = [] then _ else _) = _
      split
      · rfl
      · rw [hkept]
        rfl
  refine ⟨_, horder, hrun, ?_, fun words hwords => ?_⟩
  · rw [← hblank]
    split <;> simp_all
  · split at hwords
    · cases hwords
    · obtain rfl := Option.some.inj hwords
      exact ⟨rfl, hordered, recordsOf_word ordered⟩

end Records

/-- A mark with its time and its value. -/
def mark (time : Int) (value : Text) : MarkDict :=
  [(text "time", .int time), (text "type", .str (text "word")), (text "value", .str value)]

/-- A later mark first, and a blank one between two words. -/
theorem three_marks_make_two_records :
    ∃ ordered result, StableOrder [mark 300 (text "you"), mark 100 (text "hi"), mark 200 []] ordered ∧
      marksToAlignment (fun _ => []) [mark 300 (text "you"), mark 100 (text "hi"), mark 200 []] =
        .ok result ∧
      (result = none ↔ ∀ m ∈ [mark 300 (text "you"), mark 100 (text "hi"), mark 200 []],
        markValue (fun _ => []) m = []) ∧
      ∀ words ∈ result, words = recordsOf (fun _ => []) ordered ∧ Ordered words ∧
        words.map Word.word = (ordered.map (markValue fun _ => [])).filter (· ≠ []) := by
  refine speech_marks_convert_without_loss fun m hm => ?_
  simp only [List.mem_cons, List.not_mem_nil, or_false] at hm
  rcases hm with rfl | rfl | rfl
  · exact ⟨by with_unfolding_all rfl, by decide +kernel⟩
  · exact ⟨by with_unfolding_all rfl, by decide +kernel⟩
  · exact ⟨by with_unfolding_all rfl, by decide +kernel⟩

example : marksToAlignment (fun _ => []) [mark 300 (text "you"), mark 100 (text "hi"), mark 200 []] =
    .ok (some [⟨text "hi", 100, 200⟩, ⟨text "you", 300, 510⟩]) := by decide +kernel

end recast_rules.tts
