-- The share of silence that the quality gate reads from the output of ffmpeg
-- (`_measure_silence_ratio` in `tts/quality.py`). The floats are read as exact rationals.
import Mathlib.Algebra.BigOperators.Group.List.Basic
import Mathlib.Algebra.Order.Field.Power
import Mathlib.Tactic.Linarith
import RecastAi.PyNumbers

open py_text

namespace recast_rules.quality

/-! ## The code -/

inductive Kind where
  | start | stop
deriving DecidableEq

def literal (w : String) : Pattern := py_text.sequence ((text w).map fun c => [c])

/-- `(?P<kind>start|end):`. -/
def matchKind (t : Text) : Option (Kind × Text) :=
  match literal "start:" t with
  | some rest => some (.start, rest)
  | none => (literal "end:" t).map fun rest => (.stop, rest)

/-- `_SILENCE_LINE` at the front of a text. -/
def matchSilence (t : Text) : Option (Kind × Rat) := do
  let rest ← literal "silence_" t
  let (kind, rest) ← matchKind rest
  let value ← matchNumber (rest.dropWhile isSpace)
  return (kind, value)

/-- `_SILENCE_LINE.search(line)`. -/
def searchSilence : Text → Option (Kind × Rat)
  | [] => none
  | c :: cs =>
    match matchSilence (c :: cs) with
    | some found => some found
    | none => searchSilence cs

/-- The loop over the lines: the starts and the ends. -/
def readSilences : List Text → List Rat × List Rat
  | [] => ([], [])
  | line :: lines =>
    let (starts, ends) := readSilences lines
    match searchSilence line with
    | none => (starts, ends)
    | some (.start, value) => (max 0 value :: starts, ends)
    | some (.stop, value) => (starts, max 0 value :: ends)

/-- The loop over the starts. The ends are the ones at the same places. -/
def sumSilence (audioSeconds : Rat) : Rat → List Rat → List Rat → Rat
  | total, [], _ => total
  | total, start :: starts, ends =>
    let stop := ends.head?.getD audioSeconds
    sumSilence audioSeconds (total + max 0 (min stop audioSeconds - start)) starts ends.tail

/-- What is made of the output of ffmpeg. -/
def silenceRatio (stderr : Text) (audioDurationMs : Int) : Rat :=
  let (starts, ends) := readSilences (splitlines stderr)
  let audioSeconds : Rat := audioDurationMs / 1000
  let silenceSeconds := sumSilence audioSeconds 0 starts ends
  if audioSeconds ≤ 0 then 0 else max 0 (min 1 (silenceSeconds / audioSeconds))

/-- `stderr` is `none` where ffmpeg is missing or takes too long. -/
def measureSilenceRatio (audioBytes : List UInt8) (stderr : Option Text) (audioDurationMs : Int) :
    Rat :=
  if audioDurationMs ≤ 0 ∨ audioBytes = [] then 0
  else
    match stderr with
    | none => 0
    | some stderr => silenceRatio stderr audioDurationMs

/-! ## What ffmpeg prints -/

/-- A number as `%.6g` writes it. -/
structure GNumber where
  mantissa : Plain
  exponent : Option Int

/-- The exponent has at least two digits. -/
def exponentText (k : Int) : Text :=
  text (if k < 0 then "e-" else "e+") ++ text (if k.natAbs < 10 then "0" else "") ++
    text (toString k.natAbs)

def GNumber.text (n : GNumber) : Text := n.mantissa.text ++ (n.exponent.map exponentText).getD []

def GNumber.value (n : GNumber) : Rat := n.mantissa.value * (n.exponent.map (10 ^ ·)).getD 1

/-- `%.6g`: at most six digits count and no zero stands at the end of the fraction. There is an
exponent exactly where the number is below `1e-4` or not below `1e6`. -/
structure PercentG (n : GNumber) : Prop where
  digits : n.mantissa.Digits
  trimmed : n.mantissa.frac.getLast? ≠ some 0
  short : ((n.mantissa.whole ++ n.mantissa.frac).dropWhile (· = 0)).length ≤ 6
  scientific : ∀ k ∈ n.exponent, (k < -4 ∨ 6 ≤ k) ∧ ∃ d, n.mantissa.whole = [d] ∧ d ≠ 0
  fixed : n.exponent = none → n.value = 0 ∨ (1 / 10000 ≤ |n.value| ∧ |n.value| < 1000000)

/-- The last silence may be open. -/
structure Silence where
  start : GNumber
  stop : Option GNumber

/-- What stands in front of a message of the log. -/
structure LogHead (t : Text) : Prop where
  no_message : ¬ text "silence_" <:+: t

def startLine (head : Text) (n : GNumber) : Text := head ++ (text "silence_start: " ++ n.text)

def endLine (head : Text) (n duration : GNumber) : Text :=
  head ++ (text "silence_end: " ++ (n.text ++ (text " | silence_duration: " ++ duration.text)))

/-- The lines of the log for these silences, among any other lines. -/
inductive Prints : List Text → List Silence → Prop where
  | done : Prints [] []
  | other {lines : List Text} {silences : List Silence} (line : Text)
      (h : searchSilence line = none) (hrest : Prints lines silences) :
      Prints (line :: lines) silences
  | opened {lines : List Text} (head : Text) (n : GNumber) (hhead : LogHead head)
      (hrest : Prints lines []) : Prints (startLine head n :: lines) [⟨n, none⟩]
  | closed {lines between : List Text} {silences : List Silence} (head head' : Text)
      (n m duration : GNumber) (hhead : LogHead head) (hhead' : LogHead head')
      (hbetween : ∀ line ∈ between, searchSilence line = none) (hrest : Prints lines silences) :
      Prints (startLine head n :: (between ++ endLine head' m duration :: lines))
        (⟨n, some m⟩ :: silences)

/-- The text of these lines. -/
def Printed (stderr : Text) (silences : List Silence) : Prop :=
  ∃ lines, (∀ line ∈ lines, ∀ c ∈ line, isLineBreak c = false) ∧
    stderr = lines.flatMap (· ++ [0x0A]) ∧ Prints lines silences

def Silence.times (s : Silence) : List GNumber := s.start :: s.stop.toList

/-- No silence ends before it starts, and the next one starts after that. -/
structure Increasing (silences : List Silence) : Prop where
  ordered : ∀ s ∈ silences, ∀ e ∈ s.stop, s.start.value ≤ e.value
  disjoint : silences.IsChain fun a b => ∃ e, a.stop = some e ∧ e.value ≤ b.start.value

/-- How much of the clip is silent. -/
def Silence.within (audioSeconds : Rat) (s : Silence) : Rat :=
  max 0 (min ((s.stop.map GNumber.value).getD audioSeconds) audioSeconds - max 0 s.start.value)

def silentShare (silences : List Silence) (audioDurationMs : Int) : Rat :=
  (silences.map (Silence.within (audioDurationMs / 1000))).sum / (audioDurationMs / 1000)

/-- The pattern reads the number as it is, or it makes no difference. -/
def Harmless (n : GNumber) : Prop := n.exponent = none ∨ n.mantissa.negative = true

instance (n : GNumber) : Decidable (Harmless n) := inferInstanceAs (Decidable (_ ∨ _))

/-! ## The line -/

theorem sequence_append (w t : Text) : py_text.sequence (w.map fun c => [c]) (w ++ t) = some t := by
  induction w with
  | nil => rfl
  | cons c w ih =>
    rw [List.map_cons, List.cons_append, py_text.sequence, if_pos (List.mem_singleton.mpr rfl), ih]

theorem literal_append (w : String) (t : Text) : literal w (text w ++ t) = some t :=
  sequence_append (text w) t

theorem sequence_some {w t rest : Text} (h : py_text.sequence (w.map fun c => [c]) t = some rest) :
    t = w ++ rest := by
  induction w generalizing t with
  | nil => exact Option.some.inj h
  | cons c w ih =>
    cases t with
    | nil => cases h
    | cons d t =>
      rw [List.map_cons, py_text.sequence] at h
      split at h
      · rename_i hmem
        rw [List.mem_singleton.mp hmem, ih h]
        rfl
      · cases h

/-- No match starts in the head of a line. -/
theorem matchSilence_head {head t : Text} {c : Nat} (h : ¬ text "silence_" <:+: c :: head) :
    matchSilence (c :: head ++ (text "silence_" ++ t)) = none := by
  unfold matchSilence
  cases hmatch : literal "silence_" (c :: head ++ (text "silence_" ++ t)) with
  | none => rfl
  | some rest =>
    have heq : c :: head ++ (text "silence_" ++ t) = text "silence_" ++ rest :=
      sequence_some hmatch
    by_cases hlong : (text "silence_").length ≤ (c :: head).length
    · exact absurd (List.prefix_of_prefix_length_le ⟨rest, heq.symm⟩
        (List.prefix_append _ _) hlong).isInfix h
    · -- the word has its first letter nowhere else, so it does not overlap itself
      have hborder : ∀ i < 8, i ≠ 0 → (text "silence_")[i]? ≠ (text "silence_")[0]? := by decide
      have hshort : (c :: head).length < 8 := Nat.not_le.mp hlong
      have hletter : (c :: head ++ (text "silence_" ++ t))[(c :: head).length]? =
          (text "silence_" ++ rest)[(c :: head).length]? := by rw [heq]
      rw [List.getElem?_append_right le_rfl, Nat.sub_self,
        List.getElem?_append_left (by decide : 0 < (text "silence_").length),
        List.getElem?_append_left hshort] at hletter
      exact absurd hletter.symm (hborder _ hshort (Nat.succ_ne_zero _))

theorem searchSilence_front {t : Text} {found : Kind × Rat} (h : matchSilence t = some found) :
    searchSilence t = some found := by
  cases t with
  | nil => cases h
  | cons c t =>
    unfold searchSilence
    rw [h]

theorem searchSilence_head {head t : Text} (h : LogHead head) {found : Kind × Rat}
    (hfound : matchSilence (text "silence_" ++ t) = some found) :
    searchSilence (head ++ (text "silence_" ++ t)) = some found := by
  obtain ⟨h⟩ := h
  induction head with
  | nil => exact searchSilence_front hfound
  | cons c head ih =>
    rw [List.cons_append, searchSilence, ← List.cons_append, matchSilence_head h]
    exact ih fun hinside => h (hinside.trans (List.suffix_cons c head).isInfix)

/-- What may follow a number. -/
def Ends (rest : Text) : Prop := ∀ c ∈ rest.head?, isDecimal c = false ∧ c ≠ 0x2E

theorem exponent_ends {exponent : Option Int} {rest : Text} (h : Ends rest) :
    Ends ((exponent.map exponentText).getD [] ++ rest) := by
  cases exponent with
  | none => exact h
  | some k =>
    intro c hc
    obtain rfl : 0x65 = c := by
      simp only [Option.map_some, Option.getD_some, exponentText] at hc
      split at hc <;> exact Option.some.inj hc
    decide

theorem plain_text_front {n : Plain} (h : n.Digits) (rest : Text) :
    (0x20 :: (n.text ++ rest)).dropWhile isSpace = n.text ++ rest := by
  have hdigit : ∀ d < 10, isSpace (digitChar d) = false := by decide
  obtain ⟨d, ds, hd⟩ := List.exists_cons_of_ne_nil h.not_empty
  have hfirst := hdigit d (h.whole d (by simp [hd]))
  rw [List.dropWhile_cons_of_pos (by decide)]
  unfold Plain.text
  rw [hd]
  cases n.negative with
  | true => exact List.dropWhile_cons_of_neg (by decide)
  | false => exact List.dropWhile_cons_of_neg (by simp [hfirst])

theorem matchNumber_gnumber {n : GNumber} (h : n.mantissa.Digits) {rest : Text}
    (hrest : Ends rest) :
    matchNumber ((0x20 :: (n.text ++ rest)).dropWhile isSpace) = some n.mantissa.value := by
  unfold GNumber.text
  rw [List.append_assoc, plain_text_front h, matchNumber_text h (exponent_ends hrest)]

theorem matchKind_start (t : Text) : matchKind (text "start:" ++ t) = some (.start, t) := by
  unfold matchKind
  rw [literal_append]

theorem matchKind_end (t : Text) : matchKind (text "end:" ++ t) = some (.stop, t) := by
  unfold matchKind
  rw [literal_append]
  rfl

theorem matchSilence_kind {kind : Kind} {word : Text}
    (hkind : ∀ t, matchKind (word ++ t) = some (kind, t)) {n : GNumber} (h : n.mantissa.Digits) {rest : Text} (hrest : Ends rest) :
    matchSilence (text "silence_" ++ (word ++ 0x20 :: (n.text ++ rest))) =
      some (kind, n.mantissa.value) := by
  unfold matchSilence
  rw [literal_append]
  change (matchKind _ >>= _) = _
  rw [hkind]
  change (matchNumber _ >>= _) = _
  rw [matchNumber_gnumber h hrest]
  rfl

theorem search_startLine {head : Text} (hhead : LogHead head) {n : GNumber}
    (h : n.mantissa.Digits) :
    searchSilence (startLine head n) = some (.start, n.mantissa.value) := by
  have hline : startLine head n =
      head ++ (text "silence_" ++ (text "start:" ++ 0x20 :: (n.text ++ []))) := by
    unfold startLine
    rw [List.append_nil]
    rfl
  rw [hline]
  exact searchSilence_head hhead (matchSilence_kind matchKind_start h fun c hc => nomatch hc)

theorem search_endLine {head : Text} (hhead : LogHead head) {n duration : GNumber}
    (h : n.mantissa.Digits) :
    searchSilence (endLine head n duration) = some (.stop, n.mantissa.value) := by
  refine searchSilence_head hhead (matchSilence_kind matchKind_end h fun c hc => ?_)
  obtain rfl : 0x20 = c := Option.some.inj hc
  decide

/-! ## The log -/

theorem readSilences_other {line : Text} (h : searchSilence line = none) (lines : List Text) :
    readSilences (line :: lines) = readSilences lines := by
  rw [readSilences, h]

theorem readSilences_others {between : List Text} (h : ∀ line ∈ between, searchSilence line = none)
    (lines : List Text) : readSilences (between ++ lines) = readSilences lines := by
  induction between with
  | nil => rfl
  | cons line between ih =>
    rw [List.cons_append, readSilences_other (h line List.mem_cons_self),
      ih fun l hl => h l (List.mem_cons_of_mem _ hl)]

/-- The mantissas are read, and what is below 0 is cut off. -/
theorem readSilences_of_prints {lines : List Text} {silences : List Silence}
    (h : Prints lines silences)
    (hdigits : ∀ s ∈ silences, ∀ n ∈ s.times, n.mantissa.Digits) :
    readSilences lines =
      (silences.map fun s => max 0 s.start.mantissa.value,
        silences.filterMap fun s => s.stop.map fun e => max 0 e.mantissa.value) := by
  induction h with
  | done => rfl
  | other line hline _ ih => rw [readSilences_other hline, ih hdigits]
  | opened head n hhead _ ih =>
    have hn := hdigits _ List.mem_cons_self n List.mem_cons_self
    rw [readSilences, search_startLine hhead hn, ih fun _ hs => absurd hs List.not_mem_nil]
    rfl
  | closed head head' n m duration hhead hhead' hbetween _ ih =>
    have hn := hdigits _ List.mem_cons_self n List.mem_cons_self
    have hm := hdigits _ List.mem_cons_self m (List.mem_cons_of_mem _ List.mem_cons_self)
    have hrest := ih fun s hs => hdigits s (List.mem_cons_of_mem _ hs)
    rw [readSilences, search_startLine hhead hn, readSilences_others hbetween, readSilences,
      search_endLine hhead' hm, hrest]
    rfl

/-! ## The sum -/

section Sum

variable {audioSeconds : Rat} {silences : List Silence}

/-- How much of the clip is taken for silent. -/
def Silence.readWithin (audioSeconds : Rat) (s : Silence) : Rat :=
  max 0 (min ((s.stop.map fun e => max 0 e.mantissa.value).getD audioSeconds) audioSeconds -
    max 0 s.start.mantissa.value)

/-- Since only the last silence may be open, each start meets its own end. -/
theorem sumSilence_of_silences (total : Rat)
    (hopen : silences.IsChain fun a _ => a.stop.isSome = true) :
    sumSilence audioSeconds total (silences.map fun s => max 0 s.start.mantissa.value)
        (silences.filterMap fun s => s.stop.map fun e => max 0 e.mantissa.value) =
      total + (silences.map (Silence.readWithin audioSeconds)).sum := by
  induction silences generalizing total with
  | nil => exact (add_zero total).symm
  | cons s silences ih =>
    have hrest := ih (total + s.readWithin audioSeconds) hopen.tail
    rw [List.map_cons, List.map_cons, List.sum_cons, ← add_assoc, ← hrest, sumSilence]
    obtain ⟨start, stop⟩ := s
    cases stop with
    | some e => rfl
    | none =>
      cases silences with
      | nil => rfl
      | cons t silences => exact absurd (List.isChain_cons_cons.mp hopen).1 (by simp)

theorem max_harmless {n : GNumber} (h : Harmless n) : max 0 n.mantissa.value = max 0 n.value := by
  unfold GNumber.value
  rcases h with hplain | hnegative
  · rw [hplain, Option.map_none, Option.getD_none, mul_one]
  · have hmantissa : n.mantissa.value ≤ 0 := by
      unfold Plain.value signed decimalOf
      rw [if_pos hnegative, neg_nonpos]
      positivity
    have hscale : (0 : Rat) ≤ (n.exponent.map (10 ^ ·)).getD 1 := by
      cases n.exponent with
      | none => exact zero_le_one
      | some k => exact zpow_nonneg (by norm_num) k
    rw [max_eq_left hmantissa, max_eq_left (mul_nonpos_of_nonpos_of_nonneg hmantissa hscale)]

/-- An end before the clip is as good as its start. -/
theorem within_of_end {start stop : Rat} (h : 0 ≤ audioSeconds) :
    max 0 (min (max 0 stop) audioSeconds - max 0 start) =
      max 0 (min stop audioSeconds - max 0 start) := by
  simp only [max_def, min_def]
  split_ifs <;> linarith

theorem readWithin_harmless {s : Silence} (h : ∀ n ∈ s.times, Harmless n)
    (hclip : 0 ≤ audioSeconds) :
    s.readWithin audioSeconds = s.within audioSeconds := by
  unfold Silence.readWithin Silence.within
  rw [max_harmless (h s.start List.mem_cons_self)]
  cases hstop : s.stop with
  | none => rfl
  | some e =>
    have he : e ∈ s.times := by simp [Silence.times, hstop]
    simp only [Option.map_some, Option.getD_some]
    rw [max_harmless (h e he), within_of_end hclip]

/-- A silence and what comes after it. -/
theorem silence_and_rest {start stop : Rat} (h : start ≤ stop) :
    max 0 (min stop audioSeconds - max 0 start) + max 0 (audioSeconds - max 0 stop) ≤
      max 0 (audioSeconds - max 0 start) := by
  simp only [max_def, min_def]
  split_ifs <;> linarith

theorem Increasing.tail {s : Silence} (h : Increasing (s :: silences)) : Increasing silences :=
  ⟨fun t ht => h.ordered t (List.mem_cons_of_mem _ ht), h.disjoint.tail⟩

theorem sum_within_le {lo : Rat} (h : Increasing silences)
    (hlo : ∀ s ∈ silences.head?, lo ≤ s.start.value) :
    (silences.map (Silence.within audioSeconds)).sum ≤ max 0 (audioSeconds - max 0 lo) := by
  induction silences generalizing lo with
  | nil => exact le_max_left _ _
  | cons s silences ih =>
    have hstart : lo ≤ s.start.value := hlo s rfl
    have hfrom : max 0 (audioSeconds - max 0 s.start.value) ≤ max 0 (audioSeconds - max 0 lo) :=
      max_le_max le_rfl (sub_le_sub_left (max_le_max le_rfl hstart) _)
    refine le_trans ?_ hfrom
    rw [List.map_cons, List.sum_cons]
    cases hstop : s.stop with
    | none =>
      have hlast : silences = [] := by
        cases silences with
        | nil => rfl
        | cons t silences =>
          obtain ⟨e, he, -⟩ := (List.isChain_cons_cons.mp h.disjoint).1
          rw [hstop] at he
          cases he
      unfold Silence.within
      rw [hlast, hstop, List.map_nil, List.sum_nil, add_zero, Option.map_none, Option.getD_none,
        min_self]
    | some e =>
      have he := h.ordered s List.mem_cons_self e hstop
      have hnext : ∀ t ∈ silences.head?, e.value ≤ t.start.value := by
        intro t ht
        cases silences with
        | nil => cases ht
        | cons u silences =>
          obtain rfl : u = t := Option.some.inj ht
          obtain ⟨e', he', hle⟩ := (List.isChain_cons_cons.mp h.disjoint).1
          rw [hstop] at he'
          obtain rfl := Option.some.inj he'
          exact hle
      have hwithin : s.within audioSeconds =
          max 0 (min e.value audioSeconds - max 0 s.start.value) := by
        unfold Silence.within
        rw [hstop]
        rfl
      rw [hwithin]
      exact (add_le_add_right (ih h.tail hnext) _).trans (silence_and_rest he)

/-- The silence of a clip is no longer than the clip. -/
theorem sum_within_le_clip (h : Increasing silences) (hclip : 0 ≤ audioSeconds) :
    (silences.map (Silence.within audioSeconds)).sum ≤ audioSeconds := by
  cases silences with
  | nil => exact hclip
  | cons s silences =>
    have hlo : ∀ t ∈ (s :: silences).head?, s.start.value ≤ t.start.value := by
      intro t ht
      rw [Option.some.inj ht]
    exact (sum_within_le h hlo).trans (max_le hclip (sub_le_self _ (le_max_left _ _)))

end Sum

/-! ## The share -/

theorem silenceRatio_bounds (stderr : Text) (audioDurationMs : Int) :
    0 ≤ silenceRatio stderr audioDurationMs ∧ silenceRatio stderr audioDurationMs ≤ 1 := by
  unfold silenceRatio
  dsimp only
  split
  · exact ⟨le_rfl, zero_le_one⟩
  · exact ⟨le_max_left _ _, max_le zero_le_one (min_le_left _ _)⟩

theorem measureSilenceRatio_bounds (audioBytes : List UInt8) (stderr : Option Text)
    (audioDurationMs : Int) :
    0 ≤ measureSilenceRatio audioBytes stderr audioDurationMs ∧
      measureSilenceRatio audioBytes stderr audioDurationMs ≤ 1 := by
  unfold measureSilenceRatio
  split
  · exact ⟨le_rfl, zero_le_one⟩
  · cases stderr with
    | none => exact ⟨le_rfl, zero_le_one⟩
    | some stderr => exact silenceRatio_bounds stderr audioDurationMs

theorem clip_seconds_pos {audioDurationMs : Int} (hclip : 0 < audioDurationMs) :
    (0 : Rat) < audioDurationMs / 1000 := by
  have : (0 : Rat) < audioDurationMs := by exact_mod_cast hclip
  positivity

/-- What the log says of these silences, mantissa by mantissa. -/
theorem silenceRatio_printed {stderr : Text} {silences : List Silence} {audioDurationMs : Int}
    (hprinted : Printed stderr silences) (hincreasing : Increasing silences)
    (hdigits : ∀ s ∈ silences, ∀ n ∈ s.times, n.mantissa.Digits) (hclip : 0 < audioDurationMs) :
    silenceRatio stderr audioDurationMs =
      min 1 ((silences.map (Silence.readWithin (audioDurationMs / 1000))).sum /
        (audioDurationMs / 1000)) := by
  obtain ⟨lines, hlines, rfl, hprints⟩ := hprinted
  have hopen : silences.IsChain fun a _ => a.stop.isSome = true :=
    hincreasing.disjoint.imp fun a b ⟨e, he, _⟩ => by rw [he]; rfl
  have hseconds := clip_seconds_pos hclip
  have hsum : 0 ≤ (silences.map (Silence.readWithin (audioDurationMs / 1000))).sum :=
    List.sum_nonneg fun q hq => by
      obtain ⟨s, -, rfl⟩ := List.mem_map.mp hq
      exact le_max_left _ _
  unfold silenceRatio
  rw [splitlines_of_lines hlines, readSilences_of_prints hprints hdigits]
  dsimp only
  rw [if_neg (not_le.mpr hseconds), sumSilence_of_silences 0 hopen, zero_add]
  exact max_eq_right (le_min zero_le_one (div_nonneg hsum hseconds.le))

theorem silenceRatio_harmless {stderr : Text} {silences : List Silence} {audioDurationMs : Int}
    (hprinted : Printed stderr silences) (hincreasing : Increasing silences)
    (htimes : ∀ s ∈ silences, ∀ n ∈ s.times, PercentG n) (hclip : 0 < audioDurationMs)
    (hharmless : ∀ s ∈ silences, ∀ n ∈ s.times, Harmless n) :
    silenceRatio stderr audioDurationMs = silentShare silences audioDurationMs := by
  have hseconds := clip_seconds_pos hclip
  have hread : silences.map (Silence.readWithin (audioDurationMs / 1000)) =
      silences.map (Silence.within (audioDurationMs / 1000)) :=
    List.map_congr_left fun s hs => readWithin_harmless (hharmless s hs) hseconds.le
  rw [silenceRatio_printed hprinted hincreasing (fun s hs n hn => (htimes s hs n hn).digits) hclip,
    hread]
  exact min_eq_right ((div_le_one hseconds).mpr (sum_within_le_clip hincreasing hseconds.le))

/-! ## Misread times -/

/-- A mantissa in front of an exponent has one digit before the point. -/
theorem mantissa_bounds {n : GNumber} (h : PercentG n) {k : Int} (hk : n.exponent = some k)
    (hnegative : n.mantissa.negative = false) : 1 ≤ n.mantissa.value ∧ n.mantissa.value < 10 := by
  obtain ⟨-, d, hwhole, hd⟩ := h.scientific k hk
  have hdigit : d < 10 := h.digits.whole d (by simp [hwhole])
  have hnumeral : numeral (n.mantissa.whole.map digitChar) = d := by
    rw [hwhole]
    calc numeral ([d].map digitChar) = 10 * 0 + decimalValue (digitChar d) := rfl
      _ = d := by rw [decimalValue_digitChar hdigit, Nat.mul_zero, Nat.zero_add]
  have hbounds := decimalOf_bounds (n.mantissa.whole.map digitChar) h.digits.frac
  rw [hnumeral] at hbounds
  have hone : (1 : Rat) ≤ d := by exact_mod_cast Nat.one_le_iff_ne_zero.mpr hd
  have hnine : (d : Rat) ≤ 9 := by exact_mod_cast Nat.le_of_lt_succ hdigit
  unfold Plain.value signed
  rw [hnegative, if_neg Bool.false_ne_true]
  constructor <;> linarith [hbounds.1, hbounds.2]

theorem misread {n : GNumber} (h : PercentG n) (hbad : ¬ Harmless n) :
    1 ≤ n.mantissa.value ∧ (n.value < 1 / 10000 ∨ 1000000 ≤ n.value) := by
  unfold Harmless at hbad
  obtain ⟨hexponent, hnegative⟩ := not_or.mp hbad
  obtain ⟨k, hk⟩ := Option.ne_none_iff_exists'.mp hexponent
  obtain ⟨hone, hten⟩ := mantissa_bounds h hk (Bool.not_eq_true _ ▸ hnegative)
  have hvalue : n.value = n.mantissa.value * 10 ^ k := by
    unfold GNumber.value
    rw [hk]
    rfl
  refine ⟨hone, ?_⟩
  rw [hvalue]
  rcases (h.scientific k hk).1 with hsmall | hlarge
  · left
    have hpow : (10 : Rat) ^ k ≤ 10 ^ (-5 : Int) := zpow_le_zpow_right₀ (by norm_num) (by omega)
    calc n.mantissa.value * 10 ^ k ≤ n.mantissa.value * 10 ^ (-5 : Int) := by gcongr
      _ < 10 * 10 ^ (-5 : Int) := by gcongr
      _ = 1 / 10000 := by norm_num
  · right
    have hpow : (10 : Rat) ^ (6 : Int) ≤ 10 ^ k := zpow_le_zpow_right₀ (by norm_num) hlarge
    calc (1000000 : Rat) = 1 * 10 ^ (6 : Int) := by norm_num
      _ ≤ n.mantissa.value * 10 ^ k := by gcongr

/-- A silence has to last for a while before it is reported, and no clip lasts for days. -/
structure Detected (silences : List Silence) : Prop where
  late : ∀ s ∈ silences, ∀ e ∈ s.stop, 1 / 10000 ≤ e.value
  below : ∀ s ∈ silences, ∀ n ∈ s.times, n.value < 1000000

theorem later_starts {s : Silence} {silences : List Silence} (h : Increasing (s :: silences))
    (hlate : ∀ t ∈ s :: silences, ∀ e ∈ t.stop, 1 / 10000 ≤ e.value) :
    ∀ t ∈ silences, 1 / 10000 ≤ t.start.value := by
  induction silences generalizing s with
  | nil => exact fun t ht => absurd ht List.not_mem_nil
  | cons u silences ih =>
    intro t ht
    rcases List.mem_cons.mp ht with rfl | hrest
    · obtain ⟨e, he, hle⟩ := (List.isChain_cons_cons.mp h.disjoint).1
      exact (hlate s List.mem_cons_self e he).trans hle
    · exact ih h.tail (fun t ht => hlate t (List.mem_cons_of_mem _ ht)) t hrest

theorem harmless_of_late {n : GNumber} (h : PercentG n) (hlate : 1 / 10000 ≤ n.value)
    (hbelow : n.value < 1000000) : Harmless n := by
  by_contra hbad
  rcases (misread h hbad).2 with hsmall | hlarge
  · exact absurd hlate (not_le.mpr hsmall)
  · exact absurd hbelow (not_lt.mpr hlarge)

/-- A misread start costs silence. -/
theorem readWithin_misread {s : Silence} {audioSeconds : Rat} (hclip : 1 / 1000 ≤ audioSeconds)
    (hstart : 1 ≤ s.start.mantissa.value) (hsmall : s.start.value < 1 / 10000)
    (hstop : ∀ e ∈ s.stop, Harmless e ∧ 1 / 10000 ≤ e.value) :
    s.readWithin audioSeconds < s.within audioSeconds := by
  have hshort : ∀ y : Rat, 1 / 10000 ≤ y →
      max 0 (min y audioSeconds - max 0 s.start.mantissa.value) <
        max 0 (min y audioSeconds - max 0 s.start.value) := by
    intro y hy
    have hmin : (1 : Rat) / 10000 ≤ min y audioSeconds := le_min hy (by linarith)
    have hmax : max 0 s.start.value < 1 / 10000 := max_lt (by norm_num) hsmall
    have hread : 1 ≤ max 0 s.start.mantissa.value := hstart.trans (le_max_right _ _)
    exact max_lt (lt_max_of_lt_right (by linarith)) (lt_max_of_lt_right (by linarith))
  unfold Silence.readWithin Silence.within
  cases hs : s.stop with
  | none => exact hshort audioSeconds (by linarith)
  | some e =>
    obtain ⟨hharmless, hlate⟩ := hstop e hs
    simp only [Option.map_some, Option.getD_some]
    rw [max_harmless hharmless, max_eq_right (by linarith : 0 ≤ e.value)]
    exact hshort e.value hlate

theorem harmless_of_silentShare {stderr : Text} {silences : List Silence} {audioDurationMs : Int}
    (hprinted : Printed stderr silences) (hincreasing : Increasing silences)
    (htimes : ∀ s ∈ silences, ∀ n ∈ s.times, PercentG n) (hclip : 0 < audioDurationMs)
    (hdetected : Detected silences)
    (hright : silenceRatio stderr audioDurationMs = silentShare silences audioDurationMs) :
    ∀ s ∈ silences, ∀ n ∈ s.times, Harmless n := by
  rw [silenceRatio_printed hprinted hincreasing (fun s hs n hn => (htimes s hs n hn).digits)
    hclip] at hright
  have hseconds := clip_seconds_pos hclip
  cases silences with
  | nil => exact fun s hs => absurd hs List.not_mem_nil
  | cons s silences =>
    have hstops : ∀ t ∈ s :: silences, ∀ e ∈ t.stop, Harmless e := by
      intro t ht e he
      have hmem : e ∈ t.times := List.mem_cons_of_mem _ (Option.mem_toList.mpr he)
      exact harmless_of_late (htimes t ht e hmem) (hdetected.late t ht e he)
        (hdetected.below t ht e hmem)
    have hrest : ∀ t ∈ silences, ∀ n ∈ t.times, Harmless n := by
      intro t ht n hn
      have hmem : t ∈ s :: silences := List.mem_cons_of_mem _ ht
      rcases List.mem_cons.mp hn with rfl | he
      · exact harmless_of_late (htimes t hmem _ hn)
          (later_starts hincreasing hdetected.late t ht) (hdetected.below t hmem _ hn)
      · exact hstops t hmem n (Option.mem_toList.mp he)
    have hstart : Harmless s.start := by
      by_contra hbad
      have hmem : s ∈ s :: silences := List.mem_cons_self
      obtain ⟨hone, hside⟩ := misread (htimes s hmem s.start List.mem_cons_self) hbad
      have hsmall : s.start.value < 1 / 10000 :=
        hside.resolve_right (not_le.mpr (hdetected.below s hmem s.start List.mem_cons_self))
      have hms : (1 : Rat) / 1000 ≤ audioDurationMs / 1000 := by
        have : (1 : Rat) ≤ audioDurationMs := by exact_mod_cast hclip
        linarith
      have hless := readWithin_misread hms hone hsmall fun e he =>
        ⟨hstops s hmem e he, hdetected.late s hmem e he⟩
      have hsame : silences.map (Silence.readWithin (audioDurationMs / 1000)) =
          silences.map (Silence.within (audioDurationMs / 1000)) :=
        List.map_congr_left fun t ht => readWithin_harmless (hrest t ht) hseconds.le
      refine absurd hright (ne_of_lt ((min_le_right _ _).trans_lt ?_))
      unfold silentShare
      rw [List.map_cons, List.map_cons, List.sum_cons, List.sum_cons, hsame]
      exact div_lt_div_of_pos_right (add_lt_add_left hless _) hseconds
    intro t ht n hn
    rcases List.mem_cons.mp ht with rfl | ht
    · rcases List.mem_cons.mp hn with rfl | he
      · exact hstart
      · exact hstops _ List.mem_cons_self n (Option.mem_toList.mp he)
    · exact hrest t ht n hn

/-- The result is a share whatever is printed. It is the silent share where no time has an
exponent, but for a time before the clip, and for what the filter detects nowhere else. -/
theorem silence_ratio_is_the_silent_share {stderr : Text} {silences : List Silence}
    {audioDurationMs : Int} (hclip : 0 < audioDurationMs) (hprinted : Printed stderr silences)
    (hincreasing : Increasing silences) (htimes : ∀ s ∈ silences, ∀ n ∈ s.times, PercentG n) :
    ((∀ s ∈ silences, ∀ n ∈ s.times, Harmless n) →
      silenceRatio stderr audioDurationMs = silentShare silences audioDurationMs) ∧
    (Detected silences →
      (silenceRatio stderr audioDurationMs = silentShare silences audioDurationMs ↔
        ∀ s ∈ silences, ∀ n ∈ s.times, Harmless n)) ∧
    ∀ (printed : Text) (clip : Int),
      0 ≤ silenceRatio printed clip ∧ silenceRatio printed clip ≤ 1 :=
  ⟨silenceRatio_harmless hprinted hincreasing htimes hclip,
    fun hdetected => ⟨harmless_of_silentShare hprinted hincreasing htimes hclip hdetected,
      silenceRatio_harmless hprinted hincreasing htimes hclip⟩,
    silenceRatio_bounds⟩

theorem percentG_fixed {m : Plain} (h : m.Digits) (htrimmed : m.frac.getLast? ≠ some 0)
    (hshort : ((m.whole ++ m.frac).dropWhile (· = 0)).length ≤ 6)
    (hvalue : GNumber.value ⟨m, none⟩ = 0 ∨ (1 / 10000 ≤ |GNumber.value ⟨m, none⟩| ∧
      |GNumber.value ⟨m, none⟩| < 1000000)) : PercentG ⟨m, none⟩ :=
  ⟨h, htrimmed, hshort, fun _ hk => (nomatch hk), fun _ => hvalue⟩

def filterHead : Text := text "[silencedetect @ 0x55] "

theorem filterHead_ok : LogHead filterHead := ⟨by decide⟩

/-- From `-0.00133333` to `0.75`. -/
def fromBefore : Silence :=
  ⟨⟨⟨true, [0], [0, 0, 1, 3, 3, 3, 3, 3]⟩, none⟩, some ⟨⟨false, [0], [7, 5]⟩, none⟩⟩

/-- From `1.5` on. -/
def untilTheEnd : Silence := ⟨⟨⟨false, [1], [5]⟩, none⟩, none⟩

/-- `0.751333`. -/
def lengthFromBefore : GNumber := ⟨⟨false, [0], [7, 5, 1, 3, 3, 3]⟩, none⟩

def twoSilences : Text := text ("[silencedetect @ 0x55] silence_start: -0.00133333\n" ++
  "[silencedetect @ 0x55] silence_end: 0.75 | silence_duration: 0.751333\n" ++
  "size=N/A time=00:00:02.00\n" ++ "[silencedetect @ 0x55] silence_start: 1.5\n")

theorem twoSilences_printed : Printed twoSilences [fromBefore, untilTheEnd] :=
  ⟨[startLine filterHead fromBefore.start,
      endLine filterHead ⟨⟨false, [0], [7, 5]⟩, none⟩ lengthFromBefore,
      text "size=N/A time=00:00:02.00", startLine filterHead untilTheEnd.start],
    by decide +kernel, by decide +kernel,
    @Prints.closed _ [] _ _ _ _ _ _ filterHead_ok filterHead_ok
      (fun _ hline => absurd hline List.not_mem_nil)
      (.other _ (by decide +kernel) (.opened _ _ filterHead_ok .done))⟩

theorem twoSilences_times : ∀ s ∈ [fromBefore, untilTheEnd], ∀ n ∈ s.times, PercentG n := by
  refine List.forall_mem_cons.mpr ⟨List.forall_mem_cons.mpr ⟨?_, List.forall_mem_singleton.mpr ?_⟩,
    List.forall_mem_singleton.mpr (List.forall_mem_singleton.mpr ?_)⟩ <;>
    exact percentG_fixed ⟨by decide, by decide, by decide⟩ (by decide) (by decide)
      (by decide +kernel)

theorem twoSilences_increasing : Increasing [fromBefore, untilTheEnd] where
  ordered := by decide +kernel
  disjoint := List.isChain_pair.mpr ⟨_, rfl, by decide +kernel⟩

theorem two_silences_are_measured :
    silenceRatio twoSilences 2000 = silentShare [fromBefore, untilTheEnd] 2000 ∧
      silentShare [fromBefore, untilTheEnd] 2000 = 5 / 8 ∧
      ∀ s ∈ [fromBefore, untilTheEnd], ∀ n ∈ s.times, Harmless n := by
  have hmeasured := silence_ratio_is_the_silent_share (by decide : (0 : Int) < 2000)
    twoSilences_printed twoSilences_increasing twoSilences_times
  have hdetected : Detected [fromBefore, untilTheEnd] :=
    ⟨by decide +kernel, by decide +kernel⟩
  have hharmless : ∀ s ∈ [fromBefore, untilTheEnd], ∀ n ∈ s.times, Harmless n := by decide
  have hshare := hmeasured.1 hharmless
  exact ⟨hshare, by decide +kernel, (hmeasured.2.1 hdetected).mp hshare⟩

/-- From `2.08333e-05`, one sample at 48 kHz, to `1`. -/
def fromTheFirstSample : Silence :=
  ⟨⟨⟨false, [2], [0, 8, 3, 3, 3]⟩, some (-5)⟩, some ⟨⟨false, [1], []⟩, none⟩⟩

/-- `0.999979`. -/
def lengthFromTheFirstSample : GNumber := ⟨⟨false, [0], [9, 9, 9, 9, 7, 9]⟩, none⟩

def oneSilence : Text := text ("[silencedetect @ 0x55] silence_start: 2.08333e-05\n" ++
  "[silencedetect @ 0x55] silence_end: 1 | silence_duration: 0.999979\n")

/-- The exponent is not read. -/
theorem half_a_clip_of_silence_is_missed :
    Printed oneSilence [fromTheFirstSample] ∧ Increasing [fromTheFirstSample] ∧
      (∀ n ∈ fromTheFirstSample.times, PercentG n) ∧
      silenceRatio oneSilence 2000 = 0 ∧
      silentShare [fromTheFirstSample] 2000 = 9999791667 / 20000000000 := by
  refine ⟨⟨[startLine filterHead fromTheFirstSample.start,
      endLine filterHead ⟨⟨false, [1], []⟩, none⟩ lengthFromTheFirstSample],
      by decide +kernel, by decide +kernel,
      @Prints.closed _ [] _ _ _ _ _ _ filterHead_ok filterHead_ok
        (fun _ hline => absurd hline List.not_mem_nil) .done⟩,
    ⟨by decide +kernel, List.isChain_singleton _⟩,
    List.forall_mem_cons.mpr ⟨?_, List.forall_mem_singleton.mpr ?_⟩,
    by decide +kernel, by decide +kernel⟩
  · refine ⟨⟨by decide, by decide, by decide⟩, by decide, by decide, fun k hk => ?_,
      fun hnone => (nomatch hnone)⟩
    obtain rfl : -5 = k := Option.some.inj hk
    exact ⟨by decide, 2, rfl, by decide⟩
  · exact percentG_fixed ⟨by decide, by decide, by decide⟩ (by decide) (by decide)
      (by decide +kernel)

end recast_rules.quality
