-- The Gemini analyzer (`services/video-analyzer/analyzer/gemini.py`): a video is uploaded, polled until
-- it is active, given to the model, and deleted again. Uploads and generations are tried five times.
import Mathlib.Data.List.Infix
import RecastAi.CallPrograms
import RecastAi.TranscriptValidator

open call_programs

namespace recast_rules.gemini

open transcript

/-! ## Exceptions -/

/-- An `Exception` as `_is_retryable` sees it: whether it is a `TimeoutError`, its `status_code` where
that is an `int`, and its text. -/
structure Exn where
  timeout : Bool
  statusCode : Option Int
  message : String

/-- What ends a call. `CancelledError` is no `Exception`. -/
inductive Raised where
  | exception (e : Exn)
  | validation (message : String)
  | cancelled

def runtimeError (message : String) : Raised := .exception ⟨false, none, message⟩

/-- `except Exception as exc`. -/
def Raised.caught : Raised → Option Exn
  | .exception e => some e
  | .validation message => some ⟨false, none, message⟩
  | .cancelled => none

/-- What the validator raises. -/
def ofValidator : transcript.Raised → Raised
  | .validation message => .validation message
  | .keyError key => .exception ⟨false, none, s!"'{key}'"⟩
  | .typeError => .exception ⟨false, none, "object is not iterable"⟩
  | .overflow => .exception ⟨false, none, "int too large to convert to float"⟩

/-- What lies outside of this file: the prompts, `json.loads`, `str.lower`, and the messages of the
schema library. -/
structure Tools where
  buildSystemPrompt : String → String → Option Int → String
  buildUserPrompt : String → String → Option Int → String
  loads : String → Except String Json
  lower : String → String
  schemaMessage : Json → String

def contains (message part : String) : Bool := decide (part.toList <:+: message.toList)

def isRetryable (tools : Tools) (e : Exn) : Bool :=
  let message := tools.lower e.message
  e.timeout ||
    e.statusCode.any (fun status => status = 429 || (500 ≤ status && status < 600)) ||
    (contains message "429" || contains message "rate limit" || contains message "quota") ||
    (contains message "timeout" || contains message "timed out") ||
    (contains message "503" || contains message "502" || contains message "500" ||
      contains message "504")

/-! ## The calls -/

structure Response where
  parsed : Option Json
  text : Option String

inductive Call where
  | isfile (path : String)
  | upload (path mimeType : String)
  | sleep (seconds : Nat)
  | monotonic
  | get (name : String)
  | generate (model : String) (file : String) (userPrompt systemPrompt : String)
  | delete (name : String)

def Answer : Call → Type
  | .isfile _ => Bool
  | .upload _ _ => Except Raised String
  | .sleep _ => Except Raised Unit
  | .monotonic => Rat
  | .get _ => Except Raised String
  | .generate _ _ _ _ => Except Raised Response
  | .delete _ => Except Raised Unit

/-- What the outside chooses at a call. An upload that raises may still have made a file, or its
abandoned thread makes one. -/
structure Outcome where
  raised : Option Raised := none
  found : Bool := true
  creates : Bool := true
  name : String := ""
  state : String := "ACTIVE"
  now : Rat := 0
  response : Response := ⟨none, none⟩

/-- The remote files that were made, and those for which a delete was tried. -/
structure Remote where
  created : List String
  deletes : List String

def answering {α : Type} (o : Outcome) (a : α) : Except Raised α :=
  match o.raised with
  | some e => .error e
  | none => .ok a

/-- The call makes a file. -/
def makes (o : Outcome) : Bool := o.raised.isNone || o.creates

def answerCall (o : Outcome) (s : Remote) : (c : Call) → Answer c × Remote
  | .isfile _ => (o.found, s)
  | .upload _ _ =>
    (answering o o.name, if makes o then { s with created := s.created ++ [o.name] } else s)
  | .sleep _ => (answering o (), s)
  | .monotonic => (o.now, s)
  | .get _ => (answering o o.state, s)
  | .generate _ _ _ _ => (answering o o.response, s)
  | .delete name => (answering o (), { s with deletes := s.deletes ++ [name] })

def files : World Call Answer Remote Outcome := ⟨answerCall⟩

/-! ## The analyzer -/

/-- Why there is no result: an exception, or the polling still goes on. -/
inductive Stop where
  | raised (e : Raised)
  | polling

abbrev Gemini (α : Type) := Attempt Call Answer Stop α

def raise {α : Type} (e : Raised) : Gemini α := ExceptT.mk (.done (.error (.raised e)))

/-- The answer of a call, or what it raises. -/
def must {α : Type} (p : Prog Call Answer (Except Raised α)) : Gemini α := p.orGiveUp Stop.raised

def sleep (seconds : Nat) : Gemini Unit := must (.call (.sleep seconds) .done)

def backoffSchedule : List Nat := [2, 4, 8, 16]

/-- `enumerate(_BACKOFF_SCHEDULE + (0,), start=1)`. -/
def attempts : List (Nat × Nat) := [(1, 2), (2, 4), (3, 8), (4, 16), (5, 0)]

/-- The loop of `_upload_with_retry` and of `_generate_with_backoff`. -/
def withBackoff {α : Type} (tools : Tools) (label : String) (once : Gemini α) :
    List (Nat × Nat) → Gemini α
  | [] => raise (runtimeError s!"Gemini {label} exhausted retry budget")
  | (attempt, delay) :: rest => ExceptT.mk (once.run >>= fun x => match x with
    | .ok a => .done (.ok a)
    | .error .polling => .done (.error .polling)
    | .error (.raised e) =>
      match e.caught with
      | none => .done (.error (.raised e))
      | some exn =>
        if backoffSchedule.length < attempt || !isRetryable tools exn then
          (raise (runtimeError
            s!"Gemini {label} failed after {attempt} attempt(s): {exn.message}")).run
        else (sleep delay >>= fun _ => withBackoff tools label once rest).run)

/-- `_mime_type_for`, for the extension in lower case. -/
def mimeTypeFor (ext : String) : String :=
  if ext = "mp4" then "video/mp4"
  else if ext = "m4v" then "video/mp4"
  else if ext = "mov" then "video/quicktime"
  else if ext = "webm" then "video/webm"
  else if ext = "mkv" then "video/x-matroska"
  else if ext = "avi" then "video/x-msvideo"
  else if ext = "mpeg" then "video/mpeg"
  else if ext = "mpg" then "video/mpeg"
  else "video/mp4"

def uploadOnce (path mimeType : String) : Gemini String := must (.call (.upload path mimeType) .done)

def uploadWithRetry (tools : Tools) (path ext : String) : Gemini String :=
  withBackoff tools "file upload" (uploadOnce path (mimeTypeFor ext)) attempts

def pollInterval : Nat := 2

def pollTimeout : Rat := 120

/-- One poll, which goes on with `again` while the file is not active. -/
def pollOnce (name : String) (deadline : Rat) (again : Gemini Unit) : Gemini Unit := do
  let state ← ExceptT.mk ((must (.call (.get name) .done) : Gemini String).run >>= fun x => match x with
    | .ok state => .done (.ok state)
    | .error .polling => .done (.error .polling)
    | .error (.raised e) =>
      match e.caught with
      | none => .done (.error (.raised e))
      | some exn => (raise (runtimeError s!"Gemini files.get failed: {exn.message}")).run)
  if state = "ACTIVE" then return ()
  else if state = "FAILED" then
    raise (runtimeError s!"Gemini file processing failed for {name}")
  else do
    let now : Rat ← ExceptT.lift (.call .monotonic .done)
    if deadline ≤ now then
      raise (runtimeError
        s!"Gemini file {name} did not become ACTIVE within 120s (last state: {state})")
    else do
      sleep pollInterval
      again

/-- The loop of `_wait_until_active`, for so many polls. After them it still goes on. -/
def waitUntilActive (name : String) (deadline : Rat) : Nat → Gemini Unit
  | 0 => ExceptT.mk (.done (.error .polling))
  | n + 1 => pollOnce name deadline (waitUntilActive name deadline n)

/-- `_extract_parsed`. -/
def extractParsed (tools : Tools) (response : Response) : Except Raised Json :=
  match response.parsed with
  | some parsed => .ok parsed
  | none =>
    let text := response.text.getD ""
    if text = "" then
      .error (runtimeError "Gemini response had no parsed payload or text")
    else
      match tools.loads text with
      | .ok v => .ok v
      | .error e => .error (runtimeError s!"Gemini response text was not valid JSON: {e}")

def generateOnce (tools : Tools) (model file userPrompt systemPrompt : String) : Gemini Json := do
  let response ← must (.call (.generate model file userPrompt systemPrompt) .done)
  must (.done (extractParsed tools response))

def generateWithBackoff (tools : Tools) (model file userPrompt systemPrompt : String) : Gemini Json :=
  withBackoff tools "generate_content" (generateOnce tools model file userPrompt systemPrompt)
    attempts

def validated (tools : Tools) (raw : Json) (durationMs : Option Int) : Except Raised (List Segment) :=
  match validateTranscript tools.schemaMessage raw durationMs with
  | .ok segments => .ok segments
  | .error e => .error (ofValidator e)

def stricter (userPrompt error : String) : String :=
  userPrompt ++ "\n\nREMINDER: The previous response failed validation with: " ++ error ++
    ". Return ONLY a JSON object matching the schema exactly. " ++
    "Every segment must have segment_id, start_ms, end_ms, text, " ++
    "confidence. start_ms < end_ms. Segments must be " ++
    "chronologically ordered. No markdown, no commentary."

/-- One generation and its validation. -/
def generateValidated (tools : Tools) (model file userPrompt systemPrompt : String)
    (durationMs : Option Int) : Gemini (List Segment) := do
  let raw ← generateWithBackoff tools model file userPrompt systemPrompt
  must (.done (validated tools raw durationMs))

/-- `_generate_with_schema_retry`: where the first try is not valid, there is a second one. -/
def generateWithSchemaRetry (tools : Tools) (model file userPrompt systemPrompt : String)
    (durationMs : Option Int) : Gemini (List Segment) :=
  ExceptT.mk ((generateValidated tools model file userPrompt systemPrompt durationMs).run >>= fun x =>
    match x with
    | .error (.raised (.validation message)) =>
      (generateValidated tools model file (stricter userPrompt message) systemPrompt durationMs).run
    | x => .done x)

/-- `_delete_quiet`. -/
def deleteQuiet (name : String) : Gemini Unit :=
  ExceptT.mk ((must (.call (.delete name) .done) : Gemini Unit).run >>= fun x => match x with
    | .error (.raised e) =>
      match e.caught with
      | none => .done (.error (.raised e))
      | some _ => .done (.ok ())
    | x => .done x)

/-- `try: .. finally:`. What still goes on has no end yet. -/
def finallyDo {α : Type} (p : Gemini α) (cleanup : Gemini Unit) : Gemini α :=
  ExceptT.mk (p.run >>= fun x => match x with
    | .error .polling => .done (.error .polling)
    | x => cleanup.run >>= fun y => match y with
      | .ok () => .done x
      | .error e => .done (.error e))

/-- What `analyze` does once it has the name of the file. -/
def analyzeFile (tools : Tools) (model style language : String) (durationMs : Option Int)
    (polls : Nat) (name : String) : Gemini (List Segment) := do
  let start : Rat ← ExceptT.lift (.call .monotonic .done)
  waitUntilActive name (start + pollTimeout) polls
  generateWithSchemaRetry tools model name (tools.buildUserPrompt style language durationMs)
    (tools.buildSystemPrompt style language durationMs) durationMs

/-- `analyze`. Before the upload has returned there is no name, and `finally` does nothing. -/
def analyze (tools : Tools) (model path ext style language : String) (durationMs : Option Int)
    (polls : Nat) : Gemini (List Segment) := do
  let found : Bool ← ExceptT.lift (.call (.isfile path) .done)
  if !found then raise (.exception ⟨false, none, s!"video file not found: {path}"⟩)
  else do
    let name ← uploadWithRetry tools path ext
    finallyDo (analyzeFile tools model style language durationMs polls name) (deleteQuiet name)

end recast_rules.gemini
