-- The job handlers of the gateway (`internal/gateway/handler`): `jobs.go`,
-- `segments.go`, `share.go` and the export in `voices.go`.
import RecastAi.GoText
import RecastAi.Pipeline

open call_programs go_text recast_rules.models recast_rules.pipeline

namespace recast_rules.gateway

/-! ## Requests and responses -/

/-- The claims that the middleware puts into the context. -/
structure Claims where
  userID : String
  role : String

def roleAdmin : String := "admin"

/-- The multipart form of `CreateJob`. -/
structure JobForm where
  file : List UInt8
  filename : String
  voiceID : String
  style : String
  language : String

structure SegmentEdit where
  id : String
  text : String

/-- A request as the handlers read it. `form` is `none` where the form or its file cannot be
read, and `edits` where the body is no JSON of the request type. -/
structure Request where
  claims : Option Claims
  urlParam : String → String
  form : Except String JobForm
  edits : Option (List SegmentEdit)

/-- What everybody sees of a shared job. The URL is empty where there is none. -/
structure PublicJob where
  id : String
  name : String
  duration : Int
  status : Stage
  outputURL : String

inductive Reply where
  | empty
  | error (msg : String)
  | job (job : Job)
  | transcript (segments : List TranscriptSegment)
  | share (token url : String)
  | publicShare (job : PublicJob) (transcript : List TranscriptSegment)
  | export (url : String) (expiresIn : Nat)

structure Response where
  status : Nat
  body : Reply

def writeErr (status : Nat) (msg : String) : Response := ⟨status, .error msg⟩

abbrev Handler (α : Type) := Attempt Call Answer Response α

/-- A statement outside of a transaction. -/
def exec (st : Statement) : Handler Nat :=
  (ask (.exec none st)).orGiveUp fun _ => writeErr 500 "internal server error"

/-! ## The checks that the handlers share -/

def authenticated (r : Request) : Handler Claims :=
  someOr r.claims (writeErr 401 "authentication required")

def requireID (jobID : String) : Handler Unit :=
  giveUpIf (jobID = "") (writeErr 400 "job id is required")

/-- The job, when the user owns it or is an admin. A job of somebody else is not found. -/
def ownedJob (claims : Claims) (jobID : String) : Handler Job := do
  let job ← (ask (.query none (.job jobID))).orGiveUp fun e =>
    match e with
    | .noRows => writeErr 404 "job not found"
    | .failed => writeErr 500 "internal server error"
  giveUpIf (job.userID ≠ claims.userID && claims.role ≠ roleAdmin) (writeErr 404 "job not found")
  return job

/-! ## Jobs -/

def ingestionQueue : String := "ingestion.queue"

def transcriptQueue : String := "transcript.queue"

/-- `filepath.Base`. -/
def base (path : String) : String :=
  let cs := path.toList.rdropWhile (· = '/')
  if path = "" then "."
  else if cs = [] then "/"
  else String.ofList (cs.rtakeWhile (· ≠ '/'))

def orDefault (s default : String) : String := if s = "" then default else s

/-- The row of a new job. -/
def newJob (claims : Claims) (form : JobForm) (jobID traceID objectKey : String) (now : Nat) : Job where
  id := jobID
  userID := claims.userID
  stage := .uploaded
  originalFile := objectKey
  originalName := base form.filename
  durationMs := 0
  voiceID := form.voiceID
  style := orDefault form.style "conversational"
  language := orDefault form.language "en"
  priority := 0
  audioPath := none
  outputFile := none
  downloadURL := none
  shareToken := none
  errorMessage := none
  traceID := traceID
  createdAt := now
  updatedAt := now
  completedAt := none

/-- The message of a new job. It has no stage attempt. -/
def ingestionMessage (job : Job) : QueueMessage IngestionPayload where
  jobID := job.id
  traceID := job.traceID
  stageAttemptID := ""
  payload :=
    { userID := job.userID
      originalFile := job.originalFile
      voiceID := job.voiceID
      style := job.style
      language := job.language
      durationMs := 0 }

def createJob (r : Request) : Service Response := Attempt.finish do
  let claims ← authenticated r
  let form ← ExceptT.mk (.done (r.form.mapError (writeErr 400)))
  giveUpIf (form.voiceID = "") (writeErr 400 "voice_id is required")
  let jobID : String ← ExceptT.lift (ask .newString)
  let traceID : String ← ExceptT.lift (ask .newString)
  let objectKey := s!"uploads/{jobID}/{base form.filename}"
  (ask (.upload objectKey (.file form.file))).orGiveUp fun _ =>
    writeErr 500 "failed to upload file"
  let now : Nat ← ExceptT.lift (ask .clock)
  let job := newJob claims form jobID traceID objectKey now
  let _ ← (ask (.exec none (.insertJob job))).orGiveUp fun _ =>
    writeErr 500 "failed to create job record"
  (ask (.publish ingestionQueue ((ingestionMessage job).encode IngestionPayload.encode))).orGiveUp
    fun _ => writeErr 500 "failed to enqueue job"
  return ⟨201, .job job⟩

/-- The columns that `GetJob` selects. -/
def getJob (r : Request) : Service Response := Attempt.finish do
  let claims ← authenticated r
  requireID (r.urlParam "id")
  let job ← ownedJob claims (r.urlParam "id")
  return ⟨200, .job { job with shareToken := none }⟩

def s3KeysForJob (job : Job) : List String :=
  job.originalFile :: (job.audioPath.toList ++ job.outputFile.toList)

/-- The objects are deleted one by one. A failure is logged and dropped. -/
def deleteObjects : List String → Service Unit
  | [] => return
  | key :: keys =>
    if key = "" then deleteObjects keys
    else do
      let _ ← ask (.deleteObject key)
      deleteObjects keys

def deleteJob (r : Request) : Service Response := Attempt.finish do
  let claims ← authenticated r
  let jobID := r.urlParam "id"
  requireID jobID
  let job ← ownedJob claims jobID
  ExceptT.lift (deleteObjects (s3KeysForJob job))
  let _ ← exec (.deleteSegments jobID)
  let _ ← exec (.deleteJob jobID)
  return ⟨204, .empty⟩

/-! ## Transcripts -/

/-- The segments of the job in their order. -/
def selectSegments (jobID : String) : Handler (List TranscriptSegment) :=
  (ask (.query none (.segments jobID))).orGiveUp fun _ => writeErr 500 "internal server error"

def getTranscript (r : Request) : Service Response := Attempt.finish do
  let claims ← authenticated r
  requireID (r.urlParam "id")
  let _ ← ownedJob claims (r.urlParam "id")
  let segments ← selectSegments (r.urlParam "id")
  return ⟨200, .transcript segments⟩

/-- The loop over the edits, in the transaction. -/
def updateTexts (tx : Conn) (jobID : String) : List SegmentEdit → Service (Except Response Unit)
  | [] => return .ok ()
  | seg :: segs => do
    if seg.id = "" || seg.text = "" then
      return .error (writeErr 400 "each segment must have id and text")
    else
      match ← ask (.exec (some tx) (.setText seg.id jobID seg.text)) with
      | .error _ => return .error (writeErr 500 "internal server error")
      | .ok rows =>
        if rows = 0 then return .error (writeErr 404 s!"segment {seg.id} not found in job")
        else updateTexts tx jobID segs

/-- The transaction: all edits are committed, or it is rolled back. -/
def saveEdits (jobID : String) (edits : List SegmentEdit) : Handler Unit := do
  let tx ← (ask .begin).orGiveUp fun _ => writeErr 500 "internal server error"
  match ← ExceptT.lift (updateTexts tx jobID edits) with
  | .error resp =>
    let _ ← ExceptT.lift (ask (.rollback tx))
    throw resp
  | .ok () => (ask (.commit tx)).orGiveUp fun _ => writeErr 500 "internal server error"

/-- The message for a new synthesis. It has no stage attempt, and no style and language. -/
def transcriptMessage (jobID : String) (job : Job) (segments : List TranscriptSegment) :
    QueueMessage TranscriptPayload where
  jobID := jobID
  traceID := job.traceID
  stageAttemptID := ""
  payload := ⟨segments, job.voiceID, 0⟩

def publishTranscript (jobID : String) (job : Job) (segments : List TranscriptSegment) :
    Handler Unit :=
  (ask (.publish transcriptQueue
    ((transcriptMessage jobID job segments).encode TranscriptPayload.encode))).orGiveUp
      fun _ => writeErr 500 "failed to enqueue re-synthesis"

def updateTranscript (r : Request) : Service Response := Attempt.finish do
  let claims ← authenticated r
  let jobID := r.urlParam "id"
  requireID jobID
  let edits ← someOr r.edits (writeErr 400 "invalid request body")
  giveUpIf (edits.length = 0) (writeErr 400 "at least one segment is required")
  let job ← ownedJob claims jobID
  saveEdits jobID edits
  let segments ← selectSegments jobID
  -- a failure of this statement is logged and dropped
  let _ ← ExceptT.lift (ask (.exec none (.setStage jobID .transcribed)))
  publishTranscript jobID job segments
  return ⟨200, .transcript segments⟩

def regenerateSegment (r : Request) : Service Response := Attempt.finish do
  let claims ← authenticated r
  let jobID := r.urlParam "id"
  let segmentID := r.urlParam "segmentId"
  giveUpIf (jobID = "" || segmentID = "") (writeErr 400 "job id and segment id are required")
  let job ← ownedJob claims jobID
  let rows ← exec (.clearFlags segmentID jobID)
  giveUpIf (rows = 0) (writeErr 404 "segment not found")
  let segment ← (ask (.query none (.segment segmentID jobID))).orGiveUp fun _ =>
    writeErr 500 "internal server error"
  publishTranscript jobID job [segment]
  return ⟨202, .empty⟩

/-! ## Shares and the export -/

def createShare (r : Request) : Service Response := Attempt.finish do
  let claims ← authenticated r
  let jobID := r.urlParam "id"
  requireID jobID
  let _ ← ownedJob claims jobID
  let token : String ← (ask .randomToken).orGiveUp fun _ => writeErr 500 "internal server error"
  let _ ← exec (.setShareToken jobID (some token))
  return ⟨200, .share token ("/share/" ++ token)⟩

def deleteShare (r : Request) : Service Response := Attempt.finish do
  let claims ← authenticated r
  let jobID := r.urlParam "id"
  requireID jobID
  let _ ← ownedJob claims jobID
  let _ ← exec (.setShareToken jobID none)
  return ⟨204, .empty⟩

/-- The URL of the output of a completed job. A failure is logged and dropped. -/
def outputURL (row : Job) : Service String :=
  match row.outputFile with
  | none => return ""
  | some outputFile =>
    if outputFile = "" || row.stage ≠ .completed then return ""
    else do
      match ← ask (.presign outputFile) with
      | .error _ => return ""
      | .ok url => return url

def publicShare (token : String) : Service Response := Attempt.finish do
  giveUpIf (token = "") (writeErr 400 "share token is required")
  let row : Job ← (ask (.query none (.jobByShareToken token))).orGiveUp fun e =>
    match e with
    | .noRows => writeErr 404 "share not found"
    | .failed => writeErr 500 "internal server error"
  giveUpIf (row.shareToken.getD "" = "") (writeErr 404 "share not found")
  let segments ← selectSegments row.id
  let url ← ExceptT.lift (outputURL row)
  return ⟨200, .publicShare ⟨row.id, row.originalName, row.durationMs, row.stage, url⟩ segments⟩

def exportJob (r : Request) : Service Response := Attempt.finish do
  let claims ← authenticated r
  requireID (r.urlParam "id")
  let job ← ownedJob claims (r.urlParam "id")
  giveUpIf (job.stage ≠ .completed) (writeErr 409 "job is not yet completed")
  let outputFile ← someOr (job.outputFile.filter (· ≠ "")) (writeErr 409 "output file is not available")
  let url : String ← (ask (.presign outputFile)).orGiveUp fun _ =>
    writeErr 500 "failed to generate download URL"
  return ⟨200, .export url 3600⟩

/-- The handlers that take the id of a job. -/
inductive JobHandler where
  | getJob | deleteJob | getTranscript | updateTranscript | regenerateSegment | createShare
  | deleteShare | exportJob

def JobHandler.handle : JobHandler → Request → Service Response
  | .getJob => gateway.getJob
  | .deleteJob => gateway.deleteJob
  | .getTranscript => gateway.getTranscript
  | .updateTranscript => gateway.updateTranscript
  | .regenerateSegment => gateway.regenerateSegment
  | .createShare => gateway.createShare
  | .deleteShare => gateway.deleteShare
  | .exportJob => gateway.exportJob

end recast_rules.gateway
