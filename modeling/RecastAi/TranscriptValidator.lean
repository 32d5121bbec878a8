-- The validator of the transcripts that the model returns
-- (`services/video-analyzer/analyzer/validator.py`): the JSON schema, the checks
-- on times and text, the cleaning of the text and the timings of the words.
import Mathlib.Data.Rat.Defs
import RecastAi.PyText

open py_text

namespace recast_rules.transcript

/-! ## JSON -/

/-- What `json.loads` makes. The keys of an object are unique. -/
inductive Json where
  | null
  | bool (b : Bool)
  | int (n : Int)
  | float (x : PyFloat)
  | str (t : Text)
  | array (items : List Json)
  | object (fields : List (Text × Json))

/-- `type(data).__name__`. -/
def Json.typeName : Json → String
  | .null => "NoneType"
  | .bool _ => "bool"
  | .int _ => "int"
  | .float _ => "float"
  | .str _ => "str"
  | .array _ => "list"
  | .object _ => "dict"

/-- `isinstance(value, int)` with the value. A `bool` is an `int`. -/
def Json.asInt : Json → Option Int
  | .int n => some n
  | .bool b => some (if b then 1 else 0)
  | _ => none

/-- `float(value)`. The integers that come here are 0 and 1. -/
def Json.asFloat : Json → Option PyFloat
  | .int n => some (.finite n)
  | .bool b => some (.finite (if b then 1 else 0))
  | .float x => some x
  | _ => none

inductive Raised where
  | validation (message : String)
  | keyError (key : String)
  | typeError
  | overflow

/-- `fields[key]`. -/
def getItem (fields : List (Text × Json)) (key : String) : Except Raised Json :=
  match fields.lookup (text key) with
  | some v => .ok v
  | none => .error (.keyError key)

/-! ## The schema -/

def durationToleranceMs : Int := 250

def maxTextLen : Nat := 2000

/-- The schemas of the properties of a segment. -/
inductive Leaf where
  | integer (minimum : Int)
  | number (minimum maximum : Int)
  | string (minLength maxLength : Nat)

/-- A bound fails only on a number that is beyond it, so `NaN` passes. A float without a
fraction is an integer, and a `bool` is no number. -/
def Leaf.accepts : Leaf → Json → Bool
  | .integer minimum, .int n => minimum ≤ n
  | .integer minimum, .float (.finite q) => q.den == 1 && decide ((minimum : Rat) ≤ q)
  | .number minimum maximum, .int n => minimum ≤ n && n ≤ maximum
  | .number minimum maximum, .float (.finite q) =>
    decide ((minimum : Rat) ≤ q) && decide (q ≤ (maximum : Rat))
  | .number _ _, .float .nan => true
  | .string minLength maxLength, .str t => minLength ≤ t.length && t.length ≤ maxLength
  | _, _ => false

/-- The properties of a segment. All of them are required. -/
def segmentProperties : List (String × Leaf) :=
  [("segment_id", .integer 1), ("start_ms", .integer 0), ("end_ms", .integer 0),
    ("text", .string 1 maxTextLen), ("confidence", .number 0 1)]

def acceptsSegment : Json → Bool
  | .object fields => segmentProperties.all fun p =>
    match fields.lookup (text p.1) with
    | some v => p.2.accepts v
    | none => false
  | _ => false

/-- `TRANSCRIPT_SCHEMA`: an object with an array `segments` that is not empty. -/
def transcriptSchema : Json → Bool
  | .object fields =>
    match fields.lookup (text "segments") with
    | some (.array items) => !items.isEmpty && items.all acceptsSegment
    | _ => false
  | _ => false

/-! ## The text -/

/-- The letters of `script` in either case, as `re.IGNORECASE` takes them: also the long s
and the two Turkish i. -/
def scriptWord : List (List Nat) :=
  [[0x73, 0x53, 0x17F], [0x63, 0x43], [0x72, 0x52], [0x69, 0x49, 0x130, 0x131], [0x70, 0x50],
    [0x74, 0x54]]

/-- `<script[\s>].*?</script>`. -/
def scriptBlock : Pattern := fun t =>
  match sequence ([text "<"] ++ scriptWord) t with
  | some (c :: rest) =>
    if isSpace c || text ">" == [c] then
      firstAfter (sequence ([text "<", text "/"] ++ scriptWord ++ [text ">"])) rest
    else none
  | _ => none

def isLetter (c : Nat) : Bool := (0x41 ≤ c && c ≤ 0x5A) || (0x61 ≤ c && c ≤ 0x7A)

/-- `</?[a-zA-Z][^>]*>`. -/
def htmlTag : Pattern := fun t =>
  match sequence [text "<"] t with
  | none => none
  | some rest =>
    match (sequence [text "/"] rest).getD rest with
    | c :: more => if isLetter c then firstAfter (sequence [text ">"]) more else none
    | [] => none

def sanitizeText (t : Text) : Text := strip (sub htmlTag (sub scriptBlock t))

/-! ## The words -/

structure Word where
  word : Text
  startMs : Int
  endMs : Int
deriving DecidableEq

def weight (w : Text) : Nat := max 1 w.length

/-- The loop of `_synthesize_words` from the cursor on. The last word ends with the segment. -/
def wordsFrom (span totalWeight : Nat) (endMs : Int) : Int → List Text → Except Raised (List Word)
  | _, [] => .ok []
  | cursor, [w] => .ok [⟨w, cursor, endMs⟩]
  | cursor, w :: w' :: ws =>
    match trueDivInt (span * weight w) totalWeight with
    | none => .error .overflow
    | some n =>
      let stepped := if cursor + n ≤ cursor then cursor + 1 else cursor + n
      let wEnd := if stepped > endMs then endMs else stepped
      match wordsFrom span totalWeight endMs wEnd (w' :: ws) with
      | .error e => .error e
      | .ok more => .ok (⟨w, cursor, wEnd⟩ :: more)

def synthesizeWords (t : Text) (startMs endMs : Int) : Except Raised (List Word) :=
  let words := split t
  wordsFrom (max 1 (endMs - startMs)).toNat (words.map weight).sum endMs startMs words

/-! ## The checks -/

structure Segment where
  segmentID : Int
  startMs : Int
  endMs : Int
  text : Text
  confidence : PyFloat
  words : List Word
deriving DecidableEq

def checkSegmentID (label : String) (v : Json) : Except Raised Int :=
  match v.asInt with
  | none => .error (.validation s!"{label}.segment_id must be a positive integer")
  | some n =>
    if n < 1 then .error (.validation s!"{label}.segment_id must be a positive integer")
    else .ok n

/-- The check of `start_ms` and of `end_ms`. -/
def checkMs (label name : String) (v : Json) : Except Raised Int :=
  match v.asInt with
  | none => .error (.validation s!"{label}.{name} must be a non-negative integer")
  | some n =>
    if n < 0 then .error (.validation s!"{label}.{name} must be a non-negative integer")
    else .ok n

/-- The end of the video with the tolerance, where its duration is known. -/
def upperBound (durationMs : Option Int) : Option Int :=
  match durationMs with
  | none => none
  | some d => if d > 0 then some (d + durationToleranceMs) else none

def exceeds (endMs : Int) : Option Int → Bool
  | none => false
  | some bound => endMs > bound

def checkTimes (durationMs : Option Int) (label : String) (prevEndMs startMs endMs : Int) :
    Except Raised Unit :=
  if startMs ≥ endMs then
    .error (.validation
      s!"{label}.start_ms ({startMs}) must be strictly less than end_ms ({endMs})")
  else if exceeds endMs (upperBound durationMs) then
    .error (.validation (s!"{label}.end_ms ({endMs}) exceeds video duration " ++
      s!"({durationMs.getD 0} ms + {durationToleranceMs} ms tolerance)"))
  else if startMs < prevEndMs then
    .error (.validation (s!"{label}.start_ms ({startMs}) precedes previous segment end " ++
      s!"({prevEndMs}); segments must be chronologically ordered"))
  else .ok ()

def checkText (label : String) : Json → Except Raised Text
  | .str t =>
    let sanitized := sanitizeText t
    if sanitized = [] then .error (.validation s!"{label}.text is empty after sanitization")
    else if sanitized.length > maxTextLen then
      .error (.validation s!"{label}.text exceeds {maxTextLen} characters")
    else .ok sanitized
  | _ => .error .typeError

def getFloat (v : Json) : Except Raised PyFloat :=
  match v.asFloat with
  | some x => .ok x
  | none => .error .typeError

/-- One round of the loop over the segments. -/
def checkSegment (durationMs : Option Int) (idx : Nat) (prevEndMs : Int) :
    Json → Except Raised Segment
  | .object fields => do
    let label := s!"segment[{idx}]"
    let segmentID ← getItem fields "segment_id"
    let startMs ← getItem fields "start_ms"
    let endMs ← getItem fields "end_ms"
    let t ← getItem fields "text"
    let confidence ← getFloat (← getItem fields "confidence")
    let segmentID ← checkSegmentID label segmentID
    let startMs ← checkMs label "start_ms" startMs
    let endMs ← checkMs label "end_ms" endMs
    checkTimes durationMs label prevEndMs startMs endMs
    let sanitized ← checkText label t
    let words ← synthesizeWords sanitized startMs endMs
    return ⟨segmentID, startMs, endMs, sanitized, confidence, words⟩
  | _ => .error .typeError

def checkSegments (durationMs : Option Int) : Nat → Int → List Json → Except Raised (List Segment)
  | _, _, [] => .ok []
  | idx, prevEndMs, seg :: rest => do
    let s ← checkSegment durationMs idx prevEndMs seg
    let more ← checkSegments durationMs (idx + 1) s.endMs rest
    return s :: more

/-- `list(data["segments"])`, once the schema has passed. -/
def rawSegments (fields : List (Text × Json)) : Except Raised (List Json) := do
  match ← getItem fields "segments" with
  | .array items => return items
  | _ => .error .typeError

/-- `schemaMessage` is the message of the library for a payload that the schema refuses. -/
def validateTranscript (schemaMessage : Json → String) (data : Json) (durationMs : Option Int) :
    Except Raised (List Segment) :=
  match data with
  | .object fields =>
    if transcriptSchema data then do
      let raw ← rawSegments fields
      if raw = [] then
        .error (.validation "transcript must contain at least one segment")
      else
        checkSegments durationMs 0 (-1) raw
    else
      .error (.validation s!"transcript failed schema validation: {schemaMessage data}")
  | _ => .error (.validation s!"transcript payload must be an object, got {data.typeName}")

/-! ## What is accepted -/

theorem bind_ok {α β : Type} {x : Except Raised α} {f : α → Except Raised β} {b : β}
    (h : (x >>= f) = .ok b) : ∃ a, x = .ok a ∧ f a = .ok b := by
  cases x with
  | error e => cases h
  | ok a => exact ⟨a, rfl, h⟩

/-- What the checks leave of a segment whose predecessor ended at `prevEndMs`. -/
structure Segment.Checked (durationMs : Option Int) (prevEndMs : Int) (s : Segment) : Prop where
  positive : 1 ≤ s.segmentID
  start : 0 ≤ s.startMs
  ordered : s.startMs < s.endMs
  after : prevEndMs ≤ s.startMs
  within : ∀ bound ∈ upperBound durationMs, s.endMs ≤ bound
  not_empty : s.text ≠ []
  short : s.text.length ≤ maxTextLen
  words : synthesizeWords s.text s.startMs s.endMs = .ok s.words

theorem checkSegmentID_ok {label : String} {v : Json} {n : Int}
    (h : checkSegmentID label v = .ok n) : 1 ≤ n := by
  unfold checkSegmentID at h
  split at h
  · cases h
  · split at h
    · cases h
    · obtain rfl := Except.ok.inj h
      omega

theorem checkMs_ok {label name : String} {v : Json} {n : Int}
    (h : checkMs label name v = .ok n) : 0 ≤ n := by
  unfold checkMs at h
  split at h
  · cases h
  · split at h
    · cases h
    · obtain rfl := Except.ok.inj h
      omega

theorem checkTimes_ok {durationMs : Option Int} {label : String} {prevEndMs startMs endMs : Int}
    {u : Unit} (h : checkTimes durationMs label prevEndMs startMs endMs = .ok u) :
    startMs < endMs ∧ (∀ bound ∈ upperBound durationMs, endMs ≤ bound) ∧ prevEndMs ≤ startMs := by
  unfold checkTimes at h
  split at h
  · cases h
  · split at h
    · cases h
    · rename_i hbound
      split at h
      · cases h
      · refine ⟨by omega, fun bound hb => ?_, by omega⟩
        rw [Option.mem_def] at hb
        simp only [hb, exceeds, decide_eq_true_eq] at hbound
        omega

theorem checkText_ok {label : String} {v : Json} {t : Text} (h : checkText label v = .ok t) :
    t ≠ [] ∧ t.length ≤ maxTextLen := by
  unfold checkText at h
  split at h
  · dsimp only at h
    split at h
    · cases h
    · split at h
      · cases h
      · obtain rfl := Except.ok.inj h
        exact ⟨by assumption, by omega⟩
  · cases h

theorem checkSegment_ok {durationMs : Option Int} {idx : Nat} {prevEndMs : Int} {v : Json}
    {s : Segment} (h : checkSegment durationMs idx prevEndMs v = .ok s) :
    s.Checked durationMs prevEndMs := by
  unfold checkSegment at h
  split at h
  · obtain ⟨_, -, h⟩ := bind_ok h
    obtain ⟨_, -, h⟩ := bind_ok h
    obtain ⟨_, -, h⟩ := bind_ok h
    obtain ⟨_, -, h⟩ := bind_ok h
    obtain ⟨_, -, h⟩ := bind_ok h
    obtain ⟨_, -, h⟩ := bind_ok h
    obtain ⟨segmentID, hid, h⟩ := bind_ok h
    obtain ⟨startMs, hstart, h⟩ := bind_ok h
    obtain ⟨endMs, -, h⟩ := bind_ok h
    obtain ⟨u, htimes, h⟩ := bind_ok h
    obtain ⟨sanitized, htext, h⟩ := bind_ok h
    obtain ⟨words, hwords, h⟩ := bind_ok h
    obtain rfl := Except.ok.inj h
    obtain ⟨hordered, hwithin, hafter⟩ := checkTimes_ok htimes
    obtain ⟨hne, hshort⟩ := checkText_ok htext
    exact ⟨checkSegmentID_ok hid, checkMs_ok hstart, hordered, hafter, hwithin, hne, hshort, hwords⟩
  · cases h

/-- Segments that follow each other in time. -/
def Chronological (segments : List Segment) : Prop :=
  segments.Pairwise fun a b => a.endMs ≤ b.startMs

theorem checkSegments_ok {durationMs : Option Int} {idx : Nat} {prevEndMs : Int}
    {raw : List Json} {segments : List Segment}
    (h : checkSegments durationMs idx prevEndMs raw = .ok segments) :
    Chronological segments ∧ (∀ s ∈ segments, s.Checked durationMs prevEndMs) ∧
      segments.length = raw.length := by
  induction raw generalizing idx prevEndMs segments with
  | nil =>
    obtain rfl := Except.ok.inj h
    exact ⟨List.Pairwise.nil, nofun, rfl⟩
  | cons v raw ih =>
    obtain ⟨s, hs, h⟩ := bind_ok h
    obtain ⟨more, hmore, h⟩ := bind_ok h
    obtain rfl := Except.ok.inj h
    have hchecked := checkSegment_ok hs
    obtain ⟨hchron, hall, hlen⟩ := ih hmore
    refine ⟨List.pairwise_cons.mpr ⟨fun b hb => (hall b hb).after, hchron⟩, ?_, by simp [hlen]⟩
    intro b hb
    rcases List.mem_cons.mp hb with rfl | hb
    · exact hchecked
    · -- it starts after this segment has ended, so it starts after the one before, too
      have hlater := hall b hb
      have := hlater.after
      have := hchecked.ordered
      have := hchecked.after
      exact { hlater with after := by omega }

/-- Every raw segment of an accepted payload is a segment, in its place, and the segments follow
each other in time. -/
theorem accepted_segments_follow_each_other {schemaMessage : Json → String} {data : Json}
    {durationMs : Option Int} {segments : List Segment}
    (h : validateTranscript schemaMessage data durationMs = .ok segments) :
    Chronological segments ∧ segments ≠ [] ∧
      ∀ s ∈ segments, s.Checked durationMs (-1) := by
  unfold validateTranscript at h
  split at h
  · split at h
    · obtain ⟨raw, -, h⟩ := bind_ok h
      split at h
      · cases h
      · rename_i hraw
        obtain ⟨hchron, hall, hlen⟩ := checkSegments_ok h
        refine ⟨hchron, ?_, hall⟩
        rintro rfl
        exact hraw (List.length_eq_zero_iff.mp hlen.symm)
    · cases h
  · cases h

end recast_rules.transcript
