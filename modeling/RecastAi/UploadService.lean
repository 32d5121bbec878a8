-- The upload service (`cmd/upload-service`): chunks are stored one by one and
-- recorded in a tracker, and `handleComplete` puts them together, probes the
-- file, stores it, clears the chunks away and publishes the ingestion message.
import Mathlib.Data.List.AList
import RecastAi.GoText
import RecastAi.Interleaving

open call_programs go_text

namespace recast_rules.upload_service

/-! ## Data -/

abbrev Bytes := List UInt8

structure Object where
  data : Bytes
  contentType : String

structure ProbeResult where
  durationMs : Int
  hasVideo : Bool

structure CompleteRequest where
  filename : String
  voiceID : String
  style : String
  language : String

structure IngestionPayload where
  userID : String
  originalFile : String
  voiceID : String
  style : String
  language : String

structure QueueMessage where
  jobID : String
  traceID : String
  stageAttemptID : String
  payload : IngestionPayload

/-- The tables of the Unicode standard that the handlers use: `unicode.ToLower`, and
`strconv.Quote` with its printable runes. -/
structure Unicode where
  toLower : Char → Char
  quote : String → String

/-- The sizes of the recorded chunks, by their index. -/
abbrev Chunks := AList (fun _ : Nat => Int)

/-- The tracker by upload id, the object store by key, and the messages that the broker
took. -/
structure Uploads where
  chunks : String → Chunks
  objects : String → Option Object
  published : List (String × QueueMessage)

/-! ## The calls -/

/-- The steps on the temporary file and on the readers. -/
inductive FileOp where
  | createTemp (pattern : String)
  | copy
  | closeReader
  | closeTemp
  | reopen
  | stat

inductive Call where
  | newString
  | recordChunk (uploadID : String) (chunkIdx : Nat) (size : Int)
  | totalSize (uploadID : String)
  | listChunks (uploadID : String)
  | purge (uploadID : String)
  | upload (key : String) (data : Bytes) (contentType : String)
  | download (key : String)
  | delete (key : String)
  | file (op : FileOp)
  | probe (data : Bytes)
  | publish (queueName : String) (msg : QueueMessage)

def Answer : Call → Type
  | .newString => String
  | .recordChunk _ _ _ => Except String Unit
  | .totalSize _ => Except String Int
  | .listChunks _ => Except String (List Nat)
  | .purge _ => Except String Unit
  | .upload _ _ _ => Except String Unit
  | .download _ => Except String Bytes
  | .delete _ => Except String Unit
  | .file _ => Except String Unit
  | .probe _ => Except String ProbeResult
  | .publish _ _ => Except String Unit

/-- What the outside chooses at a call. A call that fails may still have had its effect
(`applied`). `order` is the order in which the map of the chunks is walked. -/
structure Outcome where
  fails : Bool := false
  applied : Bool := false
  error : String := ""
  order : List Nat := []
  probe : ProbeResult := ⟨0, true⟩
  fresh : String := ""

def landed (o : Outcome) : Bool := !o.fails || o.applied

def reply {α : Type} (o : Outcome) (a : α) : Except String α :=
  if o.fails then .error o.error else .ok a

/-- 64 bit addition wraps around. -/
def wrap64 (n : Int) : Int := Int.bmod n (2 ^ 64)

def Chunks.totalSize (m : Chunks) : Int :=
  m.entries.foldl (fun total v => wrap64 (total + v.2)) 0

/-- The keys of a map in the order that the outside chooses. -/
def Chunks.list (m : Chunks) (order : List Nat) : List Nat :=
  if order.isPerm m.keys then order else m.keys

def setAt {β : Type} (f : String → β) (k : String) (v : β) : String → β :=
  fun k' => if k' = k then v else f k'

def Uploads.record (u : Uploads) (id : String) (idx : Nat) (size : Int) : Uploads :=
  { u with chunks := setAt u.chunks id ((u.chunks id).insert idx size) }

def Uploads.clear (u : Uploads) (id : String) : Uploads :=
  { u with chunks := setAt u.chunks id ∅ }

def Uploads.put (u : Uploads) (key : String) (x : Option Object) : Uploads :=
  { u with objects := setAt u.objects key x }

def Uploads.send (u : Uploads) (queueName : String) (msg : QueueMessage) : Uploads :=
  { u with published := u.published ++ [(queueName, msg)] }

def answerCall (o : Outcome) (u : Uploads) : (c : Call) → Answer c × Uploads
  | .newString => (o.fresh, u)
  | .recordChunk id idx size => (reply o (), if landed o then u.record id idx size else u)
  | .totalSize id => (reply o (u.chunks id).totalSize, u)
  | .listChunks id => (reply o ((u.chunks id).list o.order), u)
  | .purge id => (reply o (), if landed o then u.clear id else u)
  | .upload key data contentType =>
    (reply o (), if landed o then u.put key (some ⟨data, contentType⟩) else u)
  | .download key =>
    (match u.objects key with
      | none => .error "not found"
      | some obj => reply o obj.data, u)
  | .delete key => (reply o (), if landed o then u.put key none else u)
  | .file _ => (reply o (), u)
  | .probe _ => (reply o o.probe, u)
  | .publish queueName msg => (reply o (), if landed o then u.send queueName msg else u)

def backends : World Call Answer Uploads Outcome := ⟨answerCall⟩

abbrev Upload (α : Type) := Prog Call Answer α

def newString : Upload String := .call .newString .done

def recordChunk (uploadID : String) (chunkIdx : Nat) (size : Int) : Upload (Except String Unit) :=
  .call (.recordChunk uploadID chunkIdx size) .done

def totalSize (uploadID : String) : Upload (Except String Int) := .call (.totalSize uploadID) .done

def listChunks (uploadID : String) : Upload (Except String (List Nat)) :=
  .call (.listChunks uploadID) .done

def purge (uploadID : String) : Upload (Except String Unit) := .call (.purge uploadID) .done

def storeUpload (key : String) (data : Bytes) (contentType : String) :
    Upload (Except String Unit) := .call (.upload key data contentType) .done

def download (key : String) : Upload (Except String Bytes) := .call (.download key) .done

def storeDelete (key : String) : Upload (Except String Unit) := .call (.delete key) .done

def file (op : FileOp) : Upload (Except String Unit) := .call (.file op) .done

def probeFile (data : Bytes) : Upload (Except String ProbeResult) := .call (.probe data) .done

def publish (queueName : String) (msg : QueueMessage) : Upload (Except String Unit) :=
  .call (.publish queueName msg) .done

/-! ## Requests and responses -/

/-- A request as the handlers read it. The body of a chunk is `none` when reading it fails,
and `json` is the body as the JSON decoder reads it. `userID` is that of the claims, which
are absent when the request did not pass `jwtMiddleware`. -/
structure Request where
  query : String → String
  header : String → String
  urlParam : String → String
  requestID : String
  body : Option Bytes
  json : Option CompleteRequest
  userID : Option String

inductive Reply where
  | error (msg : String)
  | chunk (uploadID : String) (chunkIdx received : Nat)
  | complete (jobID traceID objectKey : String) (durationMs : Int) (status : String)
  | status (uploadID : String) (chunks : Nat) (size : Int) (indices : List Nat)
  | purged (uploadID : String) (purged : Nat)

structure Response where
  status : Nat
  body : Reply

def writeError (status : Nat) (msg : String) : Response := ⟨status, .error msg⟩

abbrev Handler (α : Type) := Attempt Call Answer Response α

/-- Answers with an error when the condition holds. -/
def refuseIf (c : Bool) (status : Nat) (msg : String) : Handler Unit :=
  if c then throw (writeError status msg) else pure ()

/-- The value, or an answer with an error when there is none. -/
def orRefuse {α : Type} (x : Option α) (status : Nat) (msg : String) : Handler α :=
  match x with
  | none => throw (writeError status msg)
  | some a => pure a

/-- The value of a call, or an answer with an error when the call fails. -/
def orFail {α : Type} (p : Upload (Except String α)) (status : Nat) (msg : String) : Handler α :=
  p.orGiveUp fun _ => writeError status msg

/-! ## Helpers -/

def maxTotalUploadSize : Int := 2 ^ 31

def maxChunkSize : Nat := 2 ^ 25

def maxDurationMs : Int := 2 * 60 * 60 * 1000

def allowedExtensions : List (String × String) :=
  [(".mp4", "video/mp4"), (".mov", "video/quicktime"), (".webm", "video/webm"),
    (".avi", "video/x-msvideo"), (".mkv", "video/x-matroska")]

def ingestionQueue : String := "ingestion.queue"

def chunkKey (uploadID : String) (idx : Nat) : String := s!"uploads/{uploadID}/chunk_{idx}"

def safeChar (c : Char) : Bool :=
  ('a' ≤ c && c ≤ 'z') || ('A' ≤ c && c ≤ 'Z') || ('0' ≤ c && c ≤ '9') || c = '-' || c = '_'

def isSafeID (s : String) : Bool :=
  if s = "" || 128 < s.utf8ByteSize then false else s.toList.all safeChar

def defaultLanguage (lang : String) : String := if trimSpace lang = "" then "en" else lang

/-- The inner loop of `sortInts` from position `j` down. -/
def sinkFrom (a : List Nat) : Nat → List Nat
  | 0 => a
  | j + 1 =>
    if a.getD j 0 > a.getD (j + 1) 0 then
      sinkFrom ((a.set j (a.getD (j + 1) 0)).set (j + 1) (a.getD j 0)) j
    else a

/-- The insertion sort of the source. -/
def sortInts (a : List Nat) : List Nat := (List.range' 1 (a.length - 1)).foldl sinkFrom a

/-- `io.ReadAll` behind `http.MaxBytesReader`. -/
def readBody (r : Request) : Option Bytes :=
  r.body.filter fun b => b.length ≤ maxChunkSize

def requestUploadID (r : Request) : String :=
  if trimSpace (r.query "upload_id") = "" then trimSpace (r.header "X-Upload-ID")
  else trimSpace (r.query "upload_id")

/-- The index as the request gives it, when it is a number and not negative. -/
def requestChunkIdx (r : Request) : Option Nat :=
  match atoi (if r.query "chunk_idx" = "" then r.header "X-Chunk-Index" else r.query "chunk_idx") with
  | none => none
  | some n => if n < 0 then none else some n.toNat

def reqTraceID (r : Request) : Upload String :=
  if r.header "X-Request-ID" ≠ "" then pure (r.header "X-Request-ID")
  else if r.requestID ≠ "" then pure r.requestID
  else newString

/-! ## The handlers -/

/-- The upload id of a chunk request. A request without one starts a new upload. -/
def chunkUploadID (r : Request) : Upload String :=
  if requestUploadID r = "" then newString else pure (requestUploadID r)

/-- `handleChunk` once the upload id is known. -/
def storeChunk (r : Request) (uploadID : String) : Upload Response := Attempt.finish do
  refuseIf (!isSafeID uploadID) 400 "invalid upload_id"
  let chunkIdx ← orRefuse (requestChunkIdx r) 400 "chunk_idx must be a non-negative integer"
  let buf ← orRefuse (readBody r) 413 "chunk exceeds per-chunk limit or read failed"
  refuseIf (buf.length = 0) 400 "empty chunk"
  let existing ← orFail (totalSize uploadID) 500 "failed to read upload state"
  refuseIf (wrap64 (existing + buf.length) > maxTotalUploadSize) 413
    "upload exceeds 2 GB total limit"
  orFail (storeUpload (chunkKey uploadID chunkIdx) buf "application/octet-stream") 500
    "failed to store chunk"
  orFail (recordChunk uploadID chunkIdx buf.length) 500 "failed to update upload state"
  return ⟨200, .chunk uploadID chunkIdx buf.length⟩

def handleChunk (r : Request) : Upload Response := chunkUploadID r >>= storeChunk r

/-- What `handleComplete` reads from a request that it goes on with. -/
structure Completion where
  uploadID : String
  req : CompleteRequest
  userID : String
  ext : String
  contentType : String

/-- `strings.ToLower(filepath.Ext(filename))`. -/
def lowerExt (tables : Unicode) (filename : String) : String :=
  String.ofList ((ext filename).toList.map tables.toLower)

/-- The checks of `handleComplete` on the request. -/
def acceptComplete (tables : Unicode) (r : Request) : Except Response Completion :=
  if !isSafeID (requestUploadID r) then .error (writeError 400 "invalid or missing upload_id") else
  match r.json with
  | none => .error (writeError 400 "invalid json body")
  | some req =>
    match r.userID.filter (· ≠ "") with
    | none => .error (writeError 401 "missing user claims")
    | some userID =>
      let ext := lowerExt tables req.filename
      match allowedExtensions.lookup ext with
      | none => .error (writeError 400 s!"unsupported extension {tables.quote ext}")
      | some contentType => .ok ⟨requestUploadID r, req, userID, ext, contentType⟩

def listedChunks (uploadID : String) : Handler (List Nat) := do
  let indices ← orFail (listChunks uploadID) 500 "failed to read upload state"
  refuseIf (indices.length = 0) 400 "no chunks recorded for upload"
  return indices

/-- The loop of `concatChunks`. It gives what is in the file after it. -/
def copyChunks (uploadID : String) (written : Bytes) : List Nat → Upload (Except String Bytes)
  | [] => return .ok written
  | idx :: rest => do
    match ← download (chunkKey uploadID idx) with
    | .error e => return .error s!"download chunk {idx}: {e}"
    | .ok data =>
      match ← file .copy with
      | .error e => return .error s!"copy chunk {idx}: {e}"
      | .ok () =>
        match ← file .closeReader with
        | .error e => return .error s!"close chunk {idx}: {e}"
        | .ok () => copyChunks uploadID (written ++ data) rest

def concatChunks (uploadID : String) (indices : List Nat) : Upload (Except String Bytes) :=
  copyChunks uploadID [] (sortInts indices)

/-- From the listing to the probe: the assembled file and what `ffprobe` says of it. -/
def assemble (uploadID ext : String) (indices : List Nat) : Handler (Bytes × ProbeResult) := do
  let total ← orFail (totalSize uploadID) 500 "failed to read upload state"
  refuseIf (total > maxTotalUploadSize) 413 "upload exceeds 2 GB total limit"
  orFail (file (.createTemp ("upload-*" ++ ext))) 500 "failed to allocate temp file"
  let data ← orFail (concatChunks uploadID indices) 500 "failed to assemble upload"
  orFail (file .closeTemp) 500 "failed to finalize temp file"
  let probe ← orFail (probeFile data) 400 "file is not a valid video"
  refuseIf (!probe.hasVideo) 400 "file contains no video stream"
  refuseIf (probe.durationMs > maxDurationMs) 400 "video duration exceeds 2 hour limit"
  return (data, probe)

def storeFinal (finalKey : String) (data : Bytes) (contentType : String) : Handler Unit := do
  orFail (file .reopen) 500 "failed to read assembled file"
  orFail (file .stat) 500 "failed to stat assembled file"
  orFail (storeUpload finalKey data contentType) 500 "failed to store final file"

/-- The chunk objects are deleted one by one. A failure is logged and dropped. -/
def deleteChunks (uploadID : String) : List Nat → Upload Unit
  | [] => return
  | idx :: rest => do
    let _ ← storeDelete (chunkKey uploadID idx)
    deleteChunks uploadID rest

def cleanUp (uploadID : String) (indices : List Nat) : Upload Unit := do
  deleteChunks uploadID indices
  let _ ← purge uploadID

/-- The message of a completed upload. -/
def ingestionMessage (c : Completion) (finalKey jobID traceID stageAttemptID : String) :
    QueueMessage where
  jobID := jobID
  traceID := traceID
  stageAttemptID := stageAttemptID
  payload :=
    { userID := c.userID
      originalFile := finalKey
      voiceID := c.req.voiceID
      style := c.req.style
      language := defaultLanguage c.req.language }

def enqueue (r : Request) (c : Completion) (finalKey : String) (probe : ProbeResult) :
    Handler Response := do
  let jobID ← ExceptT.lift newString
  let traceID ← ExceptT.lift (reqTraceID r)
  let stageAttemptID ← ExceptT.lift newString
  orFail (publish ingestionQueue (ingestionMessage c finalKey jobID traceID stageAttemptID)) 500
    "failed to enqueue job"
  return ⟨202, .complete jobID traceID finalKey probe.durationMs "queued"⟩

def finalKeyOf (c : Completion) : String := join ["uploads", c.uploadID, "final" ++ c.ext]

def handleComplete (tables : Unicode) (r : Request) : Upload Response := Attempt.finish do
  let c ← ExceptT.mk (.done (acceptComplete tables r))
  let indices ← listedChunks c.uploadID
  let (data, probe) ← assemble c.uploadID c.ext indices
  storeFinal (finalKeyOf c) data c.contentType
  ExceptT.lift (cleanUp c.uploadID indices)
  enqueue r c (finalKeyOf c) probe

def handleStatus (r : Request) : Upload Response := Attempt.finish do
  let uploadID := r.urlParam "id"
  refuseIf (!isSafeID uploadID) 400 "invalid upload id"
  let indices ← orFail (listChunks uploadID) 500 "failed to read upload state"
  let size ← orFail (totalSize uploadID) 500 "failed to read upload state"
  return ⟨200, .status uploadID indices.length size indices⟩

def handleDelete (r : Request) : Upload Response := Attempt.finish do
  let uploadID := r.urlParam "id"
  refuseIf (!isSafeID uploadID) 400 "invalid upload id"
  let indices ← orFail (listChunks uploadID) 500 "failed to read upload state"
  ExceptT.lift (cleanUp uploadID indices)
  return ⟨200, .purged uploadID indices.length⟩

-- A proof opens a handler where it speaks of its steps, and nowhere else.
attribute [irreducible] isSafeID requestUploadID requestChunkIdx reqTraceID chunkUploadID
  storeChunk handleChunk acceptComplete listedChunks assemble storeFinal cleanUp enqueue
  handleComplete handleStatus handleDelete

end recast_rules.upload_service
