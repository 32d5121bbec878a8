-- The keys of `useHotkey` (`web/src/hooks/useHotkey.ts`): a single combo, or a sequence of combos
-- that must be pressed in order, each at most 1200 ms after the one before it.
import Mathlib.Algebra.Order.Field.Rat
import RecastAi.EventMachines
import RecastAi.SequenceMatching

open event_machines sequence_matching

namespace recast_rules.hotkeys

/-! ## Combos -/

structure Combo where
  key : String
  ctrl : Bool
  «meta» : Bool
  alt : Bool
  shift : Bool
deriving DecidableEq, Repr

/-- `\s`, and what `trim` takes away. -/
def isSpace (c : Char) : Bool :=
  c ∈ ['\t', '\n', '\x0b', '\x0c', '\r', ' ', '\u00a0', '\u1680', '\u2028', '\u2029', '\u202f',
    '\u205f', '\u3000', '\ufeff'] || (0x2000 ≤ c.toNat && c.toNat ≤ 0x200a)

def trim (s : String) : String := String.ofList ((s.toList.dropWhile isSpace).rdropWhile isSpace)

/-- The parts between the separators. -/
def splitBy (separator : Char → Bool) (s : String) : List String :=
  (s.toList.splitOnP separator).map String.ofList

/-- `toLowerCase` is `lower`. -/
def normalizeKey (lower : String → String) (token : String) : String :=
  let t := lower (trim token)
  if t = "esc" then "escape"
  else if t = "space" ∨ t = "spacebar" then " "
  else if t = "plus" then "+"
  else if t = "return" then "enter"
  else t

/-- One token of `parseCombo`. -/
def addToken (lower : String → String) (mac : Bool) (combo : Combo) (token : String) : Combo :=
  let norm := lower token
  if norm ∈ ["ctrl", "control"] then { combo with ctrl := true }
  else if norm ∈ ["meta", "cmd", "command", "mod"] then
    if mac then { combo with «meta» := true } else { combo with ctrl := true }
  else if norm ∈ ["alt", "option", "opt"] then { combo with alt := true }
  else if norm = "shift" then { combo with shift := true }
  else { combo with key := normalizeKey lower token }

def parseCombo (lower : String → String) (mac : Bool) (combo : String) : Combo :=
  let raw := trim combo
  let tokens :=
    if raw = "+" then ["+"] else ((splitBy (· = '+') raw).map trim).filter (· ≠ "")
  tokens.foldl (addToken lower mac) ⟨"", false, false, false, false⟩

def rawTokens (combo : String) : List String :=
  (splitBy isSpace (trim combo)).filter (· ≠ "")

/-! ## Keydowns -/

inductive Target where
  | notHTMLElement
  | element (tagName : String) (isContentEditable : Bool)
deriving DecidableEq, Repr

/-- The `key` is missing in some keydowns of browsers. -/
structure KeyboardEvent where
  key : Option String
  ctrlKey : Bool
  metaKey : Bool
  altKey : Bool
  shiftKey : Bool
  target : Target
deriving DecidableEq, Repr

def shouldSkipTarget (ev : KeyboardEvent) : Bool :=
  match ev.target with
  | .notHTMLElement => false
  | .element tagName isContentEditable =>
    if tagName ∈ ["INPUT", "TEXTAREA", "SELECT"] then !ev.ctrlKey && !ev.metaKey
    else isContentEditable

/-- A key of one UTF-16 unit that `/[^a-z0-9]/i` matches. -/
def isSymbol (key : String) : Bool :=
  match key.toList with
  | [c] => c.toNat < 0x10000 && !c.isAlphanum
  | _ => false

def matchesCombo (lower : String → String) (ev : KeyboardEvent) (combo : Combo) : Bool :=
  let eventKey := lower (ev.key.getD "")
  if eventKey ≠ combo.key then false
  else if combo.ctrl ≠ ev.ctrlKey then false
  else if combo.«meta» ≠ ev.metaKey then false
  else if combo.alt ≠ ev.altKey then false
  else if isSymbol combo.key then true
  else combo.shift = ev.shiftKey

def isModifier (ev : KeyboardEvent) : Bool :=
  match ev.key with
  | none => false
  | some key => key ∈ ["Control", "Meta", "Shift", "Alt"]

/-! ## The listener -/

/-- What `useHotkey` listens for. -/
inductive Hotkey where
  | single (parsed : Combo)
  | sequence (parsed : List Combo)

def parsedSequence (lower : String → String) (mac : Bool) (combo : String) : List Combo :=
  (rawTokens combo).map (parseCombo lower mac)

def useHotkey (lower : String → String) (mac : Bool) (combo : String) : Hotkey :=
  if 1 < (rawTokens combo).length then .sequence (parsedSequence lower mac combo)
  else .single (parseCombo lower mac ((rawTokens combo).headD combo))

/-- The variables of the listener of a sequence. The timer is told by the time at which it clears
the progress, in milliseconds. -/
structure Progress where
  progress : Nat
  resetTimer : Option ℚ

def clearProgress : Progress := ⟨0, none⟩

/-- The timer, when `now` is after its time. -/
def Progress.elapse (s : Progress) (now : ℚ) : Progress :=
  match s.resetTimer with
  | none => s
  | some expires => if expires < now then clearProgress else s

structure Keydown where
  ev : KeyboardEvent
  time : ℚ

/-- What a listener did with a keydown: `ev.preventDefault()`, and the call of the handler. -/
structure Handled where
  prevented : Bool
  fired : Bool
deriving DecidableEq, Repr

def ignored : Handled := ⟨false, false⟩

def sequenceListener (lower : String → String) (preventDefault : Bool)
    (parsed : List Combo) (s : Progress) (k : Keydown) : Handled × Progress :=
  let s := s.elapse k.time
  if shouldSkipTarget k.ev then (ignored, s)
  else if isModifier k.ev then (ignored, s)
  else
    match parsed[s.progress]? with
    | none => (ignored, clearProgress)
    | some expected =>
      if matchesCombo lower k.ev expected then
        if s.progress + 1 ≥ parsed.length then (⟨preventDefault, true⟩, clearProgress)
        else (⟨preventDefault, false⟩, ⟨s.progress + 1, some (k.time + 1200)⟩)
      else (ignored, clearProgress)

def listener (lower : String → String) (preventDefault : Bool) (hotkey : Hotkey) (s : Progress)
    (k : Keydown) : Handled × Progress :=
  match hotkey with
  | .single parsed =>
    if shouldSkipTarget k.ev then (ignored, s)
    else if matchesCombo lower k.ev parsed then (⟨preventDefault, true⟩, s)
    else (ignored, s)
  | .sequence parsed => sequenceListener lower preventDefault parsed s k

/-- The keydowns at which the handler is called. -/
def firings (lower : String → String) (preventDefault : Bool) (hotkey : Hotkey) :
    Progress → List Keydown → List Bool
  | _, [] => []
  | s, k :: keydowns =>
    let handled := listener lower preventDefault hotkey s k
    handled.1.fired :: firings lower preventDefault hotkey handled.2 keydowns

/-! ## What a hotkey is for -/

/-- A keydown that counts. -/
def relevant (ev : KeyboardEvent) : Bool := !shouldSkipTarget ev && !isModifier ev

/-- The keydowns that count since the last firing, or since the last gap after a part of the
sequence, and the time of the last keydown that counts. -/
structure Window where
  events : List KeyboardEvent
  last : ℚ

def Window.empty : Window := ⟨[], 0⟩

/-- What each combo of the sequence asks of an event. -/
def patterns (lower : String → String) (parsed : List Combo) : List (KeyboardEvent → Bool) :=
  parsed.map fun combo ev => matchesCombo lower ev combo

section Window

variable (asked : List (KeyboardEvent → Bool))

/-- A gap of more than 1200 ms after a part of the sequence. -/
def Window.elapse (w : Window) (now : ℚ) : Window :=
  if Begun asked w.events ∧ w.last + 1200 < now then ⟨[], w.last⟩ else w

/-- The events that a keydown is judged by, itself with them. -/
def Window.seen (w : Window) (k : Keydown) : List KeyboardEvent :=
  (w.elapse asked k.time).events ++ [k.ev]

/-- The handler should be called. -/
def Window.due (w : Window) (k : Keydown) : Bool :=
  relevant k.ev && EndsWith asked (w.seen asked k)

def Window.turn (w : Window) (k : Keydown) : Window :=
  if relevant k.ev then ⟨if w.due asked k then [] else w.seen asked k, k.time⟩
  else w.elapse asked k.time

/-- The keydowns at which the handler should be called. -/
def dueFirings : Window → List Keydown → List Bool
  | _, [] => []
  | w, k :: keydowns => w.due asked k :: dueFirings (w.turn asked k) keydowns

/-- Where the sequence ends with this keydown, no part of it was under way when its first key
came: the keydowns before are attempts that were given up. -/
def StartsFresh (w : Window) (k : Keydown) : Prop :=
  relevant k.ev = true → ∀ older occ, w.seen asked k = older ++ occ → Matches asked occ →
    GivenUp asked older

end Window

/-! ## The listener counts what it has seen -/

section Counts

variable {lower : String → String} (preventDefault : Bool) {parsed : List Combo}

/-- The listener has matched what the window ends with, and its timer runs from the last keydown
that counts. -/
structure Tracks (asked : List (KeyboardEvent → Bool)) (s : Progress) (w : Window) : Prop where
  progress : s.progress = progress asked w.events
  unfinished : s.progress < asked.length
  timer : 0 < s.progress → s.resetTimer = some (w.last + 1200)

theorem tracks_empty {asked : List (KeyboardEvent → Bool)} (h : 0 < asked.length) :
    Tracks asked clearProgress .empty where
  progress := rfl
  unfinished := h
  timer := fun h0 => absurd h0 (Nat.lt_irrefl 0)

theorem elapse_zero {s : Progress} (h : s.progress = 0) (now : ℚ) :
    (s.elapse now).progress = 0 := by
  unfold Progress.elapse
  split
  · exact h
  · split
    · rfl
    · exact h

/-- The timer clears the progress where the window is given up. -/
theorem Tracks.elapse {asked : List (KeyboardEvent → Bool)} {s : Progress} {w : Window}
    (h : Tracks asked s w) (now : ℚ) : Tracks asked (s.elapse now) (w.elapse asked now) := by
  have hcount := h.progress
  have hlt := h.unfinished
  rcases Nat.eq_zero_or_pos s.progress with hzero | hpos
  · have hz := elapse_zero hzero now
    refine ⟨?_, by omega, by omega⟩
    rw [hz]
    unfold Window.elapse
    split
    · rfl
    · exact hzero.symm.trans hcount
  · have hbegun : Begun asked w.events := begun_of_progress (by omega) (by omega)
    unfold Progress.elapse Window.elapse
    rw [h.timer hpos]
    dsimp only
    by_cases hgap : w.last + 1200 < now
    · rw [if_pos hgap, if_pos ⟨hbegun, hgap⟩]
      exact ⟨rfl, by change 0 < _; omega, fun h0 => absurd h0 (Nat.lt_irrefl 0)⟩
    · rw [if_neg hgap, if_neg fun hboth => hgap hboth.2]
      exact h

/-- What a keydown that counts does, where `n` combos are matched with it. -/
structure Counted (total n : Nat) (time : ℚ) (r : Handled × Progress) : Prop where
  fired : r.1.fired = decide (n = total)
  progress : r.2.progress = if n = total then 0 else n
  timer : 0 < r.2.progress → r.2.resetTimer = some (time + 1200)

theorem sequenceListener_counts {s : Progress} {w : Window} {k : Keydown}
    (h : Tracks (patterns lower parsed) s w) (hk : relevant k.ev = true) :
    Counted (patterns lower parsed).length
      (progress (patterns lower parsed) (w.seen (patterns lower parsed) k)) k.time
      (sequenceListener lower preventDefault parsed s k) := by
  have helapsed := h.elapse k.time
  have hlt := helapsed.unfinished
  have hlength : (patterns lower parsed).length = parsed.length := List.length_map _
  obtain ⟨hskip, hmodifier⟩ : shouldSkipTarget k.ev = false ∧ isModifier k.ev = false := by
    simpa [relevant] using hk
  unfold Window.seen sequenceListener
  rw [progress_concat, ← helapsed.progress]
  simp only [hskip, hmodifier, Bool.false_eq_true, if_false]
  generalize s.elapse k.time = s at hlt
  unfold advance
  rw [hlength] at hlt ⊢
  have hasked : (patterns lower parsed)[s.progress]? =
      some fun ev => matchesCombo lower ev parsed[s.progress] := by
    simp [patterns, hlt]
  rw [hasked, List.getElem?_eq_getElem hlt]
  dsimp only
  split
  · rcases Nat.lt_or_ge (s.progress + 1) parsed.length with hmore | hlast
    · rw [if_neg (Nat.not_le.mpr hmore)]
      have hne : s.progress + 1 ≠ parsed.length := Nat.ne_of_lt hmore
      exact ⟨by simp [hne], by rw [if_neg hne], fun _ => rfl⟩
    · rw [if_pos hlast]
      have heq : s.progress + 1 = parsed.length := by omega
      exact ⟨by simp [heq], by rw [if_pos heq]; rfl, fun h0 => absurd h0 (Nat.lt_irrefl 0)⟩
  · have hne : 0 ≠ parsed.length := by omega
    exact ⟨by simp [hne, ignored], by rw [if_neg hne]; rfl, fun h0 => absurd h0 (Nat.lt_irrefl 0)⟩

theorem sequenceListener_ignores {s : Progress} {k : Keydown} (hk : relevant k.ev = false) :
    sequenceListener lower preventDefault parsed s k = (ignored, s.elapse k.time) := by
  unfold sequenceListener
  dsimp only
  split
  · rfl
  · rename_i hskip
    rw [if_pos]
    simpa [relevant, hskip] using hk

/-! ## The law -/

theorem due_irrelevant {asked : List (KeyboardEvent → Bool)} {w : Window} {k : Keydown}
    (hk : relevant k.ev = false) : w.due asked k = false := by
  unfold Window.due
  rw [hk, Bool.false_and]

theorem due_relevant {asked : List (KeyboardEvent → Bool)} {w : Window} {k : Keydown}
    (hk : relevant k.ev = true) : w.due asked k = decide (EndsWith asked (w.seen asked k)) := by
  unfold Window.due
  rw [hk, Bool.true_and]

/-- The listener is right at a keydown exactly where the sequence started afresh. -/
theorem fired_iff_startsFresh {s : Progress} {w : Window} (k : Keydown)
    (h : Tracks (patterns lower parsed) s w) :
    (sequenceListener lower preventDefault parsed s k).1.fired = w.due (patterns lower parsed) k ↔
      StartsFresh (patterns lower parsed) w k := by
  cases hk : relevant k.ev with
  | false =>
    rw [sequenceListener_ignores preventDefault hk, due_irrelevant hk]
    exact ⟨fun _ hrel => by simp [hk] at hrel, fun _ => rfl⟩
  | true =>
    have hcounted := sequenceListener_counts preventDefault h hk
    rw [hcounted.fired, due_relevant hk, decide_eq_decide, finds_iff]
    exact ⟨fun hall _ => hall, fun hfresh => hfresh hk⟩

/-- Where the listener was right at a keydown, it goes on with the window. -/
theorem tracks_turn {s : Progress} {w : Window} {k : Keydown}
    (h : Tracks (patterns lower parsed) s w)
    (hright : (sequenceListener lower preventDefault parsed s k).1.fired =
      w.due (patterns lower parsed) k) :
    Tracks (patterns lower parsed) (sequenceListener lower preventDefault parsed s k).2
      (w.turn (patterns lower parsed) k) := by
  cases hk : relevant k.ev with
  | false =>
    unfold Window.turn
    rw [sequenceListener_ignores preventDefault hk, hk, if_neg Bool.false_ne_true]
    exact h.elapse k.time
  | true =>
    have hcounted := sequenceListener_counts preventDefault h hk
    have hpos := h.unfinished
    have hle : progress (patterns lower parsed) (w.seen (patterns lower parsed) k) ≤
        (patterns lower parsed).length := progress_le
    have hcount := hcounted.progress
    unfold Window.turn
    rw [hk, if_pos rfl, ← hright, hcounted.fired]
    by_cases hlast : progress (patterns lower parsed) (w.seen (patterns lower parsed) k) =
        (patterns lower parsed).length
    · rw [if_pos hlast] at hcount
      rw [if_pos (decide_eq_true hlast)]
      exact ⟨hcount, by omega, hcounted.timer⟩
    · rw [if_neg hlast] at hcount
      rw [if_neg (by simp [hlast])]
      exact ⟨hcount, by omega, hcounted.timer⟩

/-- In every run the listener is right at every keydown exactly where the sequence starts afresh
whenever it ends. -/
theorem firings_iff {s : Progress} {w : Window} (keydowns : List Keydown)
    (h : Tracks (patterns lower parsed) s w) :
    firings lower preventDefault (.sequence parsed) s keydowns =
        dueFirings (patterns lower parsed) w keydowns ↔
      EveryStep (Window.turn (patterns lower parsed)) (StartsFresh (patterns lower parsed)) w
        keydowns := by
  induction keydowns generalizing s w with
  | nil => exact ⟨fun _ => trivial, fun _ => rfl⟩
  | cons k keydowns ih =>
    have hstep := fired_iff_startsFresh preventDefault k h
    unfold firings dueFirings EveryStep
    dsimp only [listener]
    rw [List.cons.injEq]
    constructor
    · rintro ⟨hfired, hrest⟩
      exact ⟨hstep.mp hfired, (ih (tracks_turn preventDefault h hfired)).mp hrest⟩
    · rintro ⟨hfresh, hrest⟩
      have hfired := hstep.mpr hfresh
      exact ⟨hfired, (ih (tracks_turn preventDefault h hfired)).mpr hrest⟩

end Counts

section Law

variable (lower : String → String) (mac : Bool) (combo : String) (preventDefault : Bool)

/-- What the combos of a hotkey ask, one after the other. -/
def asked : List (KeyboardEvent → Bool) := patterns lower (parsedSequence lower mac combo)

/-- On a stream of keydowns a hotkey for a sequence fires at exactly the keydowns that it should,
if and only if the sequence starts afresh whenever it ends: no part of it is under way when its
first key comes. -/
theorem hotkey_fires_where_sequences_start_fresh (hsequence : 1 < (rawTokens combo).length)
    (keydowns : List Keydown) :
    firings lower preventDefault (useHotkey lower mac combo) clearProgress keydowns =
        dueFirings (asked lower mac combo) .empty keydowns ↔
      EveryStep (Window.turn (asked lower mac combo)) (StartsFresh (asked lower mac combo)) .empty
        keydowns := by
  have hlength : (asked lower mac combo).length = (rawTokens combo).length := by
    simp [asked, patterns, parsedSequence]
  have hstart : Tracks (asked lower mac combo) clearProgress .empty := tracks_empty (by omega)
  unfold useHotkey
  rw [if_pos hsequence]
  exact firings_iff preventDefault keydowns hstart

end Law

/-- A keydown without modifiers, outside of the fields of a form. -/
def press (key : String) (time : ℚ) : Keydown :=
  ⟨⟨some key, false, false, false, false, .notHTMLElement⟩, time⟩

/-- "g d", pressed once, starts afresh. -/
theorem a_pressed_sequence_starts_fresh :
    EveryStep (Window.turn (asked id false "g d")) (StartsFresh (asked id false "g d")) .empty
      [press "g" 0, press "d" 100] :=
  (hotkey_fires_where_sequences_start_fresh id false "g d" true (by decide)
    [press "g" 0, press "d" 100]).mp (by decide +kernel)

/-- After one "g" too many "g d" is missed: the second one ends the attempt of the first one, and
begins none. -/
theorem a_repeated_key_hides_the_sequence :
    dueFirings (asked id false "g d") .empty [press "g" 0, press "g" 100, press "d" 200] =
        [false, false, true] ∧
      firings id true (useHotkey id false "g d") clearProgress
        [press "g" 0, press "g" 100, press "d" 200] = [false, false, false] := by
  decide +kernel

end recast_rules.hotkeys
