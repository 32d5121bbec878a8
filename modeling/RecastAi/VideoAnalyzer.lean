-- The consumer of `ingestion.queue` (`services/video-analyzer/main.py`): it
-- downloads the video, has it analyzed, stores the segments, moves the job to
-- `transcribed` and publishes the transcript.
import RecastAi.PyValues

open call_programs py_text recast_rules.transcript recast_rules.models recast_rules.pipeline
open recast_rules.py

namespace recast_rules.analyzer

def ingestionQueue : String := "ingestion.queue"

def transcriptQueue : String := "transcript.queue"

/-- What the payload of an ingestion message asks for. -/
structure Params where
  objectKey : Json
  voiceID : Json
  style : Json
  language : Json

def readParams (payload : Json) : Except String Params := do
  let objectKey ← subscript payload "object_key"
  let voiceID ← getOr payload "voice_id" (.str (text "default"))
  let style ← getOr payload "style" (.str (text "formal"))
  let language ← getOr payload "language" (.str (text "en"))
  return ⟨objectKey, voiceID, style, language⟩

/-! ## The video -/

/-- A key that is no text is no path. -/
def downloadVideo (objectKey : Json) : Py Blob := do
  must (ask (.work .tempDir))
  let key ← raising (idText objectKey)
  must (ask (.download key))

/-! ## The database -/

/-- The upserts of `_store_segments`. A value that does not fit its column raises. -/
def upsertAll (conn : Conn) (jobID : String) : List Segment → Py Unit
  | [] => return
  | seg :: segments => do
    let id : String ← ExceptT.lift (ask .newString)
    let columns ← raising ((bindParams seg).elim (.error "DataError") .ok)
    let _ ← sql (ask (.exec (some conn) (.upsertSegment id jobID columns)))
    upsertAll conn jobID segments

def storeSegments (conn : Conn) (jobID : String) (segments : List Segment) : Py Unit := do
  upsertAll conn jobID segments
  sql (ask (.commit conn))

def updateJobStage (conn : Conn) (jobID : String) (stage : Stage) (durationMs : Int) : Py Unit := do
  let st :=
    if durationMs > 0 then Statement.setStageAndDuration jobID stage durationMs
    else Statement.setStage jobID stage
  let _ ← sql (ask (.exec (some conn) st))
  sql (ask (.commit conn))

/-- The duration that is stored for the job, and 0 where there is no row. -/
def existingDurationMs (conn : Conn) (jobID : String) : Py Int := do
  match ← ExceptT.lift (ask (.query (some conn) (.job jobID))) with
  | .ok job => return job.durationMs
  | .error .noRows => return 0
  | .error .failed => throw "psycopg2.Error"

/-! ## The messages -/

def wordJson (w : Word) : Json :=
  .object [(text "word", .str w.word), (text "start_ms", .int w.startMs),
    (text "end_ms", .int w.endMs)]

def segmentJson (s : Segment) : Json :=
  .object [(text "segment_id", .int s.segmentID), (text "start_ms", .int s.startMs),
    (text "end_ms", .int s.endMs), (text "text", .str s.text), (text "confidence", .float s.confidence),
    (text "words", .array (s.words.map wordJson))]

/-- The message to the synthesis. It has the voice, and no style and language. -/
def transcriptMessage (jobID : String) (traceID : Json) (attemptID : String) (segments : List Segment)
    (voiceID : Json) (durationMs : Int) : Json :=
  .object [(text "job_id", goString jobID), (text "trace_id", traceID),
    (text "stage_attempt_id", goString attemptID),
    (text "payload", .object [(text "segments", .array (segments.map segmentJson)),
      (text "voice_id", voiceID), (text "duration_ms", .int durationMs)])]

/-- `_process_message`. `repr` writes a style or a language that is no text. -/
def processMessage (repr : Json → Text) (conn : Conn) (msg : Json) : Py Unit := do
  let jobID ← raising (subscript msg "job_id" >>= idText)
  let traceID ← raising (getOr msg "trace_id" (.str []))
  let payload ← raising (getOr msg "payload" (.object []))
  let params ← raising (readParams payload)
  let video ← downloadVideo params.objectKey
  let probed : Int ← must (ask (.work (.ffprobe video)))
  let existing ← existingDurationMs conn jobID
  let effective := if probed > 0 then probed else existing
  let promptDuration := if effective > 0 then some effective else none
  let segments : List Segment ← must (ask (.work (.analyze (toText repr params.style)
    (toText repr params.language) promptDuration)))
  storeSegments conn jobID segments
  updateJobStage conn jobID .transcribed probed
  let attemptID : String ← ExceptT.lift (ask .newString)
  must (ask (.publish transcriptQueue
    (some (transcriptMessage jobID traceID attemptID segments params.voiceID effective))))
  -- a failure of the event is suppressed
  let _ ← ExceptT.lift (ask (.notify s!"job:{jobID}"))

/-- One round of the consumer. After an exception the transaction is rolled back. -/
def serve (repr : Json → Text) (conn : Conn) (tag : Nat) (msg : Json) : Service Verdict := do
  match ← (processMessage repr conn msg *> must (ask (.ack tag))).run with
  | .ok () => return .acked
  | .error _ =>
    let _ ← ask (.rollback conn)
    let _ ← ask (.nack tag false)
    return .nacked

/-- `n` rounds. -/
def consume (repr : Json → Text) (conn : Conn) : Nat → Service Unit
  | 0 => return
  | n + 1 => do
    match ← ask (.receive ingestionQueue) with
    | none => consume repr conn n
    | some (tag, msg) =>
      let _ ← serve repr conn tag msg
      consume repr conn n

/-! ## What the parts call -/

section Parts

variable {P : Call → Prop} {conn : Conn}

theorem downloadVideo_only (htemp : P (.work .tempDir)) (hdownload : ∀ key, P (.download key))
    (objectKey : Json) :
    attemptOnly P (fun _ => True) (fun _ => True) (downloadVideo objectKey) := by
  unfold downloadVideo
  apply then_only (must_only (ask_only htemp))
  intro _
  apply then_only (raising_only _)
  intro key
  exact must_only (ask_only (hdownload key))

theorem existingDurationMs_only {jobID : String} (hquery : P (.query (some conn) (.job jobID))) :
    attemptOnly P (fun _ => True) (fun _ => True) (existingDurationMs conn jobID) := by
  unfold existingDurationMs
  apply then_only (attempt_lift (ask_only hquery))
  intro x
  split <;> trivial

theorem upsertAll_only {jobID : String} (hstring : P .newString)
    (hupsert : ∀ id columns, P (.exec (some conn) (.upsertSegment id jobID columns)))
    (segments : List Segment) :
    attemptOnly P (fun _ => True) (fun _ => True) (upsertAll conn jobID segments) := by
  induction segments with
  | nil => trivial
  | cons seg segments ih =>
    apply then_only (attempt_lift (ask_only hstring))
    intro id
    apply then_only (raising_only _)
    intro columns
    apply then_only (sql_only (ask_only (hupsert id columns)))
    intro _
    exact ih

theorem storeSegments_only {jobID : String} (hstring : P .newString)
    (hupsert : ∀ id columns, P (.exec (some conn) (.upsertSegment id jobID columns)))
    (hcommit : P (.commit conn)) (segments : List Segment) :
    attemptOnly P (fun _ => True) (fun _ => True) (storeSegments conn jobID segments) := by
  unfold storeSegments
  apply then_only (upsertAll_only hstring hupsert segments)
  intro _
  exact sql_only (ask_only hcommit)

end Parts

/-! ## What is published -/

/-- Only transcript messages are published. -/
def PublishesTranscripts (c : Call) : Prop :=
  ∀ queue body, c = .publish queue body → queue = transcriptQueue ∧
    ∃ jobID traceID attemptID segments voiceID durationMs,
      body = some (transcriptMessage jobID traceID attemptID segments voiceID durationMs)

/-- Such calls, and none that gives a message back. -/
def Analyzes (c : Call) : Prop := PublishesTranscripts c ∧ ∀ tag requeue, c ≠ .nack tag requeue

theorem processMessage_analyzes (repr : Json → Text) (conn : Conn) (msg : Json) :
    attemptOnly Analyzes (fun _ => True) (fun _ => True) (processMessage repr conn msg) := by
  unfold processMessage
  apply then_only (raising_only _)
  intro jobID
  apply then_only (raising_only _)
  intro traceID
  apply then_only (raising_only _)
  intro payload
  apply then_only (raising_only _)
  intro params
  apply then_only (downloadVideo_only ⟨nofun, nofun⟩ (fun _ => ⟨nofun, nofun⟩) _)
  intro video
  apply then_only (must_only (ask_only ⟨nofun, nofun⟩))
  intro probed
  apply then_only (existingDurationMs_only ⟨nofun, nofun⟩)
  intro existing
  apply then_only (must_only (ask_only ⟨nofun, nofun⟩))
  intro segments
  apply then_only (storeSegments_only ⟨nofun, nofun⟩ (fun _ _ => ⟨nofun, nofun⟩) ⟨nofun, nofun⟩
    segments)
  intro _
  apply then_only
  · unfold updateJobStage
    apply then_only (sql_only (ask_only ⟨nofun, nofun⟩))
    intro _
    exact sql_only (ask_only ⟨nofun, nofun⟩)
  intro _
  apply then_only (attempt_lift (ask_only ⟨nofun, nofun⟩))
  intro attemptID
  apply then_only
  · apply must_only
    apply ask_only
    refine ⟨?_, nofun⟩
    rintro queue body ⟨⟩
    exact ⟨rfl, _, _, _, _, _, _, rfl⟩
  intro _
  apply then_only (attempt_lift (ask_only ⟨nofun, nofun⟩))
  intro _
  trivial

theorem processMessage_publishes (repr : Json → Text) (conn : Conn) (msg : Json) :
    attemptOnly PublishesTranscripts (fun _ => True) (fun _ => True)
      (processMessage repr conn msg) :=
  attempt_mono (processMessage_analyzes repr conn msg) (fun _ h => h.1) (fun _ h => h) fun _ h => h

end recast_rules.analyzer
