-- The two passes that put the times of words in order: `_enforce_monotonic` of the providers
-- (`tts/synthesizer.py`) and `_enforce_monotonic_dicts` of the alignment (`tts/alignment.py`).
-- Both take the running maximum of the times, start and end of one word after the other.
import RecastAi.RescaledWords
import RecastAi.RunningMaxima

open py_text running_maxima recast_rules.transcript recast_rules.py

namespace recast_rules.tts

/-! ## The code -/

/-- The dict of a word. -/
def wordDict (word : Json) (startMs endMs : Int) : Json :=
  .object [(text "word", word), (text "start_ms", .int startMs), (text "end_ms", .int endMs)]

namespace synthesizer

/-- The loop of `_enforce_monotonic`. -/
def enforceFrom : Int → List Json → Except String (List Json)
  | _, [] => .ok []
  | prevEnd, w :: ws => do
    let start := max (← subscript w "start_ms" >>= toInt) prevEnd
    let stop := max (← subscript w "end_ms" >>= toInt) start
    let word ← subscript w "word"
    let rest ← enforceFrom stop ws
    return wordDict word start stop :: rest

def enforceMonotonic (words : List Json) : Except String (List Json) := enforceFrom 0 words

end synthesizer

namespace alignment

/-- The loop of `_enforce_monotonic_dicts`. -/
def enforceFrom (repr : Json → Text) : Int → List Json → Except String (List Json)
  | _, [] => .ok []
  | prevEnd, w :: ws => do
    let start := max (← subscript w "start_ms" >>= toInt) prevEnd
    let stop := max (← subscript w "end_ms" >>= toInt) start
    let word ← subscript w "word"
    let rest ← enforceFrom repr stop ws
    return wordDict (.str (toText repr word)) start stop :: rest

def enforceMonotonicDicts (repr : Json → Text) (words : List Json) : Except String (List Json) :=
  enforceFrom repr 0 words

end alignment

/-! ## Records -/

/-- The dict has the word and its times. It may have other keys. -/
structure Reads (x : Json) (w : Word) : Prop where
  word : subscript x "word" = .ok (.str w.word)
  startMs : subscript x "start_ms" = .ok (.int w.startMs)
  endMs : subscript x "end_ms" = .ok (.int w.endMs)

def recordOf (w : Word) : Json := wordDict (.str w.word) w.startMs w.endMs

theorem recordOf_reads (w : Word) : Reads (recordOf w) w := ⟨rfl, rfl, rfl⟩

theorem records_read (ws : List Word) : List.Forall₂ Reads (ws.map recordOf) ws := by
  induction ws with
  | nil => exact .nil
  | cons w ws ih => exact .cons (recordOf_reads w) ih

theorem synthesizer.enforceFrom_reads {prevEnd : Int} {xs : List Json} {ws : List Word}
    (h : List.Forall₂ Reads xs ws) :
    synthesizer.enforceFrom prevEnd xs = .ok ((tts.enforceMonotonic prevEnd ws).map recordOf) := by
  induction h generalizing prevEnd with
  | nil => rfl
  | @cons x w xs ws hx _ ih =>
    unfold synthesizer.enforceFrom tts.enforceMonotonic
    rw [hx.word, hx.startMs, hx.endMs]
    simp only [bind, Except.bind, pure, Except.pure, toInt, ih, List.map_cons]
    rfl

theorem alignment.enforceFrom_reads (repr : Json → Text) {prevEnd : Int} {xs : List Json}
    {ws : List Word} (h : List.Forall₂ Reads xs ws) :
    alignment.enforceFrom repr prevEnd xs =
      .ok ((tts.enforceMonotonic prevEnd ws).map recordOf) := by
  induction h generalizing prevEnd with
  | nil => rfl
  | @cons x w xs ws hx _ ih =>
    unfold alignment.enforceFrom tts.enforceMonotonic
    rw [hx.word, hx.startMs, hx.endMs]
    simp only [bind, Except.bind, pure, Except.pure, toInt, toText, ih, List.map_cons]
    rfl

/-! ## Times -/

/-- The start and the end of each word in turn. -/
def timesOf (ws : List Word) : List Int := ws.flatMap fun w => [w.startMs, w.endMs]

theorem timesOf_cons (w : Word) (ws : List Word) :
    timesOf (w :: ws) = w.startMs :: w.endMs :: timesOf ws := rfl

/-- The words do not start before zero, and each one ends at or after its start, and at or before
the next one starts. -/
structure InSequence (ws : List Word) : Prop where
  starts : ∀ w ∈ ws, 0 ≤ w.startMs
  ends : ∀ w ∈ ws, w.startMs ≤ w.endMs
  next : ws.IsChain fun a b => a.endMs ≤ b.startMs

/-- The same words, with times that are nowhere earlier. -/
def NotEarlier (ws vs : List Word) : Prop :=
  List.Forall₂ (fun w v => v.word = w.word ∧ w.startMs ≤ v.startMs ∧ w.endMs ≤ v.endMs) ws vs

/-- The same words in their order, in order in time, and none earlier than it was. -/
structure Repairs (ws vs : List Word) : Prop where
  later : NotEarlier ws vs
  order : InSequence vs

theorem notEarlier_times {ws vs : List Word} (h : NotEarlier ws vs) :
    Below (timesOf ws) (timesOf vs) := by
  induction h with
  | nil => exact .nil
  | cons hw _ ih => exact .cons hw.2.1 (.cons hw.2.2 ih)

theorem notEarlier_of_times {ws vs : List Word} (hwords : vs.map Word.word = ws.map Word.word)
    (h : Below (timesOf ws) (timesOf vs)) : NotEarlier ws vs := by
  induction ws generalizing vs with
  | nil =>
    rw [List.map_nil, List.map_eq_nil_iff] at hwords
    subst hwords
    exact .nil
  | cons w ws ih =>
    cases vs with
    | nil => cases hwords
    | cons v vs =>
      obtain ⟨hword, hrest⟩ := List.cons.inj hwords
      rw [timesOf_cons, timesOf_cons] at h
      obtain ⟨hstart, h⟩ := List.forall₂_cons.mp h
      obtain ⟨hend, h⟩ := List.forall₂_cons.mp h
      exact .cons ⟨hword, hstart, hend⟩ (ih hrest h)

theorem notEarlier_words {ws vs : List Word} (h : NotEarlier ws vs) :
    vs.map Word.word = ws.map Word.word := by
  induction h with
  | nil => rfl
  | cons hw _ ih => rw [List.map_cons, List.map_cons, hw.1, ih]

theorem words_ext {ws vs : List Word} (hwords : vs.map Word.word = ws.map Word.word)
    (htimes : timesOf vs = timesOf ws) : vs = ws := by
  induction ws generalizing vs with
  | nil => exact List.map_eq_nil_iff.mp hwords
  | cons w ws ih =>
    cases vs with
    | nil => cases hwords
    | cons v vs =>
      obtain ⟨hword, hrest⟩ := List.cons.inj hwords
      rw [timesOf_cons, timesOf_cons] at htimes
      obtain ⟨hstart, htimes⟩ := List.cons.inj htimes
      obtain ⟨hend, htimes⟩ := List.cons.inj htimes
      rw [ih hrest htimes]
      obtain ⟨word, startMs, endMs⟩ := v
      obtain rfl : word = w.word := hword
      obtain rfl : startMs = w.startMs := hstart
      obtain rfl : endMs = w.endMs := hend
      rfl

theorem rises_times_iff {prevEnd : Int} {ws : List Word} :
    Rises prevEnd (timesOf ws) ↔ (∀ w ∈ ws.head?, prevEnd ≤ w.startMs) ∧
      (∀ w ∈ ws, w.startMs ≤ w.endMs) ∧ ws.IsChain fun a b => a.endMs ≤ b.startMs := by
  induction ws generalizing prevEnd with
  | nil => exact iff_of_true rises_nil ⟨by simp, by simp, .nil⟩
  | cons w ws ih =>
    rw [timesOf_cons, rises_cons, rises_cons, ih, List.isChain_cons, List.forall_mem_cons]
    simp only [List.head?_cons, Option.mem_some_iff, forall_eq']
    tauto

theorem inSequence_iff_rises {ws : List Word} : InSequence ws ↔ Rises 0 (timesOf ws) := by
  constructor
  · intro h
    exact rises_times_iff.mpr ⟨fun w hw => h.starts w (List.mem_of_head? hw), h.ends, h.next⟩
  · intro h
    obtain ⟨-, hends, hnext⟩ := rises_times_iff.mp h
    refine ⟨fun w hw => rises_le h _ ?_, hends, hnext⟩
    exact List.mem_flatMap.mpr ⟨w, hw, List.mem_cons_self⟩

theorem enforceMonotonic_times {prevEnd : Int} {ws : List Word} :
    timesOf (enforceMonotonic prevEnd ws) = runningMax prevEnd (timesOf ws) := by
  induction ws generalizing prevEnd with
  | nil => rfl
  | cons w ws ih =>
    rw [enforceMonotonic, timesOf_cons, timesOf_cons, ih]
    rfl

/-! ## The law -/

theorem enforceMonotonic_repairs (ws : List Word) : Repairs ws (enforceMonotonic 0 ws) where
  later := by
    refine notEarlier_of_times (enforceMonotonic_words 0 ws) ?_
    rw [enforceMonotonic_times]
    exact below_runningMax
  order := by
    rw [inSequence_iff_rises, enforceMonotonic_times]
    exact rises_runningMax

theorem enforceMonotonic_least {ws vs : List Word} (h : Repairs ws vs) :
    NotEarlier (enforceMonotonic 0 ws) vs := by
  refine notEarlier_of_times ?_ ?_
  · rw [enforceMonotonic_words]
    exact notEarlier_words h.later
  · rw [enforceMonotonic_times]
    exact runningMax_least le_rfl (notEarlier_times h.later) (inSequence_iff_rises.mp h.order)

theorem enforceMonotonic_inSequence {ws : List Word} (h : InSequence ws) :
    enforceMonotonic 0 ws = ws := by
  have htimes : timesOf (enforceMonotonic 0 ws) = timesOf ws := by
    rw [enforceMonotonic_times, runningMax_eq_self (inSequence_iff_rises.mp h)]
  exact words_ext (enforceMonotonic_words 0 ws) htimes

/-- Both passes give the same words with the least times that repair them. Words that are in order
stay as they are, so a second pass changes nothing. -/
theorem monotone_repair_is_minimal (repr : Json → Text) {xs : List Json} {ws : List Word}
    (h : List.Forall₂ Reads xs ws) :
    ∃ out, synthesizer.enforceMonotonic xs = .ok (out.map recordOf) ∧
      alignment.enforceMonotonicDicts repr xs = .ok (out.map recordOf) ∧
      Repairs ws out ∧ (∀ vs, Repairs ws vs → NotEarlier out vs) ∧
      (InSequence ws → out = ws) ∧
      synthesizer.enforceMonotonic (out.map recordOf) = .ok (out.map recordOf) ∧
      alignment.enforceMonotonicDicts repr (out.map recordOf) = .ok (out.map recordOf) := by
  have hrepairs := enforceMonotonic_repairs ws
  have hagain := enforceMonotonic_inSequence hrepairs.order
  refine ⟨enforceMonotonic 0 ws, synthesizer.enforceFrom_reads h,
    alignment.enforceFrom_reads repr h, hrepairs, fun vs => enforceMonotonic_least,
    enforceMonotonic_inSequence, ?_, ?_⟩
  · have hfrom : synthesizer.enforceFrom 0 ((enforceMonotonic 0 ws).map recordOf) =
        .ok ((enforceMonotonic 0 (enforceMonotonic 0 ws)).map recordOf) :=
      synthesizer.enforceFrom_reads (records_read _)
    rwa [hagain] at hfrom
  · have hfrom : alignment.enforceFrom repr 0 ((enforceMonotonic 0 ws).map recordOf) =
        .ok ((enforceMonotonic 0 (enforceMonotonic 0 ws)).map recordOf) :=
      alignment.enforceFrom_reads repr (records_read _)
    rwa [hagain] at hfrom

/-- A late word pushes the one after it. -/
theorem a_late_word_is_repaired :
    ∃ out, synthesizer.enforceMonotonic ([⟨text "one", -5, 40⟩, ⟨text "two", 20, 30⟩].map recordOf) =
        .ok (out.map recordOf) ∧
      alignment.enforceMonotonicDicts (fun _ => [])
          ([⟨text "one", -5, 40⟩, ⟨text "two", 20, 30⟩].map recordOf) = .ok (out.map recordOf) ∧
      Repairs [⟨text "one", -5, 40⟩, ⟨text "two", 20, 30⟩] out ∧
      (∀ vs, Repairs [⟨text "one", -5, 40⟩, ⟨text "two", 20, 30⟩] vs → NotEarlier out vs) ∧
      (InSequence [⟨text "one", -5, 40⟩, ⟨text "two", 20, 30⟩] →
        out = [⟨text "one", -5, 40⟩, ⟨text "two", 20, 30⟩]) ∧
      synthesizer.enforceMonotonic (out.map recordOf) = .ok (out.map recordOf) ∧
      alignment.enforceMonotonicDicts (fun _ => []) (out.map recordOf) = .ok (out.map recordOf) :=
  monotone_repair_is_minimal _ (records_read _)

end recast_rules.tts
