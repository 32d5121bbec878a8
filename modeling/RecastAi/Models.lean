-- The rows and messages that the services share (`pkg/models`, `migrations`):
-- jobs with their stages, transcript segments, and the envelope of the queues
-- as Go writes it to JSON and reads it back.
import RecastAi.SegmentStore

open py_text recast_rules.transcript

namespace recast_rules.models

/-! ## Rows -/

/-- `jobs.stage`. -/
inductive Stage where
  | uploaded | analyzing | analyzed | transcribing | transcribed | synthesizing | synthesized
  | muxing | muxed | delivering | completed | failed
deriving DecidableEq

/-- A row of `jobs`, as `models.Job` reads it. Times are counted in ticks. -/
structure Job where
  id : String
  userID : String
  stage : Stage
  originalFile : String
  originalName : String
  durationMs : Int
  voiceID : String
  style : String
  language : String
  priority : Int
  audioPath : Option String
  outputFile : Option String
  downloadURL : Option String
  shareToken : Option String
  errorMessage : Option String
  traceID : String
  createdAt : Nat
  updatedAt : Nat
  completedAt : Option Nat
deriving DecidableEq

/-- A row of `transcript_segments`, as `models.TranscriptSegment` reads it. -/
structure TranscriptSegment extends Stored where
  id : String
  jobID : String
  audioPath : String
  approved : Bool
  flagged : Bool
deriving DecidableEq

/-! ## Messages -/

structure QueueMessage (P : Type) where
  jobID : String
  traceID : String
  stageAttemptID : String
  payload : P

structure IngestionPayload where
  userID : String
  originalFile : String
  voiceID : String
  style : String
  language : String
  durationMs : Int

structure TranscriptPayload where
  segments : List TranscriptSegment
  voiceID : String
  durationMs : Int

structure AudioPayload where
  audioFile : String
  originalFile : String
  durationMs : Int

structure DeliveryPayload where
  outputFile : String
  userID : String

/-! ## Encoding -/

def goString (s : String) : Json := .str (text s)

/-- A field with `omitempty`. -/
def omitZero (key : String) (n : Int) : List (Text × Json) :=
  if n = 0 then [] else [(text key, .int n)]

/-- A `float64`. Up to `1e21` a whole number is written without a point, and `NaN` and the
infinities cannot be written. -/
def goFloat : PyFloat → Option Json
  | .finite q =>
    some (if q.den = 1 ∧ -(10 ^ 21) < q ∧ q < 10 ^ 21 then .int q.num else .float (.finite q))
  | _ => none

def QueueMessage.encode {P : Type} (payload : P → Option Json) (m : QueueMessage P) :
    Option Json := do
  let payload ← payload m.payload
  return .object [(text "job_id", goString m.jobID), (text "trace_id", goString m.traceID),
    (text "stage_attempt_id", goString m.stageAttemptID), (text "payload", payload)]

def IngestionPayload.encode (p : IngestionPayload) : Option Json :=
  some (.object ([(text "user_id", goString p.userID),
    (text "original_file", goString p.originalFile), (text "voice_id", goString p.voiceID),
    (text "style", goString p.style), (text "language", goString p.language)] ++
    omitZero "duration_ms" p.durationMs))

/-- `words` is never filled from the row, and `words_json` is not written. -/
def TranscriptSegment.encode (s : TranscriptSegment) : Option Json := do
  let confidence ← goFloat s.confidence
  return .object ([(text "id", goString s.id), (text "job_id", goString s.jobID),
    (text "segment_id", .int s.segmentIdx.val), (text "start_ms", .int s.startMs.val),
    (text "end_ms", .int s.endMs.val), (text "text", .str s.text.val), (text "words", .null),
    (text "confidence", confidence)] ++
    (if s.audioPath = "" then [] else [(text "audio_path", goString s.audioPath)]) ++
    [(text "approved", .bool s.approved), (text "flagged", .bool s.flagged)])

/-- A nil slice is written as `null`. -/
def TranscriptPayload.encode (p : TranscriptPayload) : Option Json := do
  let segments ← p.segments.mapM TranscriptSegment.encode
  return .object ([(text "segments", if segments = [] then .null else .array segments),
    (text "voice_id", goString p.voiceID)] ++ omitZero "duration_ms" p.durationMs)

def DeliveryPayload.encode (p : DeliveryPayload) : Option Json :=
  some (.object [(text "output_file", goString p.outputFile), (text "user_id", goString p.userID)])

/-! ## Decoding -/

/-- A JSON string as a Go string: a surrogate that stands alone is replaced. -/
def ofText (t : Text) : String :=
  String.ofList (t.map fun c => if c.isValidChar then Char.ofNat c else '\uFFFD')

/-- The key of a field is matched in any case. Of the letters that are no ASCII, two fold to one
that is. -/
def foldKey (t : Text) : Text :=
  t.map fun c =>
    if 0x41 ≤ c && c ≤ 0x5A then c + 0x20
    else if c = 0x17F then 0x73
    else if c = 0x212A then 0x6B
    else c

/-- The values at the keys that match, in their order: each is written over the one before. -/
def valuesAt (fields : List (Text × Json)) (key : String) : List Json :=
  (fields.filter fun f => foldKey f.1 = foldKey (text key)).map (·.2)

theorem valuesAt_nil (key : String) : valuesAt [] key = [] := rfl

theorem valuesAt_cons (k : Text) (key : String) (v : Json) (fs : List (Text × Json)) :
    valuesAt ((k, v) :: fs) key =
      (if foldKey k = foldKey (text key) then [v] else []) ++ valuesAt fs key := by
  unfold valuesAt
  by_cases h : foldKey k = foldKey (text key) <;> simp [h]

theorem valuesAt_append (fs gs : List (Text × Json)) (key : String) :
    valuesAt (fs ++ gs) key = valuesAt fs key ++ valuesAt gs key := by
  unfold valuesAt
  rw [List.filter_append, List.map_append]

/-- A string field. What is absent or `null` stays as it is, and other values are errors. -/
def stringField (fields : List (Text × Json)) (key : String) : Option String :=
  (valuesAt fields key).foldlM (fun s v =>
    match v with
    | .null => some s
    | .str t => some (ofText t)
    | _ => none) ""

/-- An `int64` field. -/
def intField (fields : List (Text × Json)) (key : String) : Option Int :=
  (valuesAt fields key).foldlM (fun n v =>
    match v with
    | .null => some n
    | .int m => if -2 ^ 63 ≤ m ∧ m < 2 ^ 63 then some m else none
    | _ => none) 0

/-- The fields of an object, and none for `null`. Other values are errors. -/
def objectFields : Json → Option (List (Text × Json))
  | .null => some []
  | .object fields => some fields
  | _ => none

/-- `json.Unmarshal` into the envelope. The payload stays as it is. -/
def decodeMessage (body : Json) : Option (QueueMessage Json) := do
  let fields ← objectFields body
  let jobID ← stringField fields "job_id"
  let traceID ← stringField fields "trace_id"
  let stageAttemptID ← stringField fields "stage_attempt_id"
  return ⟨jobID, traceID, stageAttemptID, (valuesAt fields "payload").getLast?.getD .null⟩

def decodeAudio (payload : Json) : Option AudioPayload := do
  let fields ← objectFields payload
  let audioFile ← stringField fields "audio_file"
  let originalFile ← stringField fields "original_file"
  let durationMs ← intField fields "duration_ms"
  return ⟨audioFile, originalFile, durationMs⟩

def decodeDelivery (payload : Json) : Option DeliveryPayload := do
  let fields ← objectFields payload
  let outputFile ← stringField fields "output_file"
  let userID ← stringField fields "user_id"
  return ⟨outputFile, userID⟩

/-! ## Round trips -/

theorem ofText_text (s : String) : ofText (text s) = s := by
  unfold ofText text
  rw [List.map_map]
  have h : ((fun c : Nat => if c.isValidChar then Char.ofNat c else '\uFFFD') ∘ Char.toNat) = id := by
    funext c
    change (if c.toNat.isValidChar then Char.ofNat c.toNat else _) = c
    rw [if_pos (show c.toNat.isValidChar from c.valid), Char.ofNat_toNat]
  rw [h, List.map_id, String.ofList_toList]

/-- A string that is left out or written is read back. -/
theorem stringField_omitted {fields : List (Text × Json)} {key s : String}
    (h : valuesAt fields key = if s = "" then [] else [goString s]) :
    stringField fields key = some s := by
  unfold stringField
  rw [h]
  by_cases hs : s = ""
  · simp [hs]
  · simp [hs, goString, ofText_text]

theorem stringField_written {fields : List (Text × Json)} {key s : String}
    (h : valuesAt fields key = [goString s]) : stringField fields key = some s := by
  unfold stringField
  rw [h]
  simp [goString, ofText_text]

theorem stringField_absent {fields : List (Text × Json)} {key : String}
    (h : valuesAt fields key = []) : stringField fields key = some "" := by
  unfold stringField
  rw [h]
  rfl

/-- The envelope is read back as it was written. -/
theorem decode_encode {P : Type} {payload : P → Option Json} {m : QueueMessage P} {body : Json}
    (h : m.encode payload = some body) :
    ∃ p, payload m.payload = some p ∧
      decodeMessage body = some ⟨m.jobID, m.traceID, m.stageAttemptID, p⟩ := by
  unfold QueueMessage.encode at h
  cases hp : payload m.payload with
  | none => simp [hp] at h
  | some p =>
    simp only [hp, Option.bind_eq_bind, Option.bind_some, Option.pure_def, Option.some.injEq] at h
    subst h
    refine ⟨p, rfl, ?_⟩
    unfold decodeMessage
    simp only [objectFields, Option.bind_eq_bind, Option.bind_some]
    rw [stringField_written (s := m.jobID), stringField_written (s := m.traceID),
      stringField_written (s := m.stageAttemptID)]
    · simp [valuesAt_cons, valuesAt_nil, text, foldKey]
    all_goals simp [valuesAt_cons, valuesAt_nil, text, foldKey]

end recast_rules.models
