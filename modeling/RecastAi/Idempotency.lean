-- The idempotency middleware of the gateway. A successful response is kept in
-- Redis under the user, the method, the path, the key that the client chose
-- and a hash of the body, and a repeated request is given it again. The
-- lookup, the handler and the store of its response are separate steps.
import RecastAi.GoEncoding
import RecastAi.Models
import RecastAi.Redis
import RecastAi.Tokens

open call_programs go_text py_text redis recast_rules.auth recast_rules.models
open recast_rules.transcript (Json)

namespace recast_rules.idempotent

abbrev Bytes := List UInt8

/-! ## Writing a response -/

/-- A response as the client gets it. -/
structure Response where
  status : Int
  contentType : String
  body : Bytes
deriving DecidableEq

/-- What a handler does with its `http.ResponseWriter`. -/
inductive Act where
  | setContentType (value : String)
  | writeHeader (code : Int)
  | write (bytes : Bytes)

/-- The `ResponseWriter` of the server: the header as it is now, the status and the content type
that were sent, and the body so far. -/
structure Writer where
  contentType : String := ""
  head : Option (Int × String) := none
  body : Bytes := []

/-- Only the first status counts, and a body without a status has 200. -/
def Writer.act (w : Writer) : Act → Writer
  | .setContentType value => { w with contentType := value }
  | .writeHeader code =>
    match w.head with
    | some _ => w
    | none => { w with head := some (code, w.contentType) }
  | .write bytes =>
    { w with head := w.head.or (some (200, w.contentType)), body := w.body ++ bytes }

def Writer.sent (w : Writer) : Response :=
  match w.head with
  | some (status, contentType) => ⟨status, contentType, w.body⟩
  | none => ⟨200, w.contentType, w.body⟩

def sentBy (acts : List Act) : Response := (acts.foldl Writer.act {}).sent

/-- `recorder`, which passes on what it is given and keeps the status and the body. -/
structure Recorder where
  inner : Writer := {}
  status : Int := 200
  wroteHead : Bool := false
  body : Bytes := []

namespace Recorder

def writeHeader (r : Recorder) (code : Int) : Recorder :=
  if r.wroteHead then r
  else { r with status := code, wroteHead := true, inner := r.inner.act (.writeHeader code) }

def write (r : Recorder) (bytes : Bytes) : Recorder :=
  let r := if r.wroteHead then r else r.writeHeader 200
  { r with body := r.body ++ bytes, inner := r.inner.act (.write bytes) }

def act (r : Recorder) : Act → Recorder
  | .setContentType value => { r with inner := r.inner.act (.setContentType value) }
  | .writeHeader code => r.writeHeader code
  | .write bytes => r.write bytes

end Recorder

def recordActs (acts : List Act) : Recorder := acts.foldl Recorder.act {}

/-- How the handlers behind the middleware answer: `writeJSON`, or a status alone. -/
inductive Written where
  | json (status : Int) (body : Bytes)
  | bare (status : Int)
deriving DecidableEq

def Written.acts : Written → List Act
  | .json status body =>
    [.setContentType "application/json", .writeHeader status, .write body]
  | .bare status => [.writeHeader status]

/-! ## The record -/

structure IdempotentRecord where
  status : Int
  body : String
  contentType : String
  headers : List (String × String)
deriving DecidableEq

def IdempotentRecord.encode (rec : IdempotentRecord) : Json :=
  .object ([(text "status", .int rec.status), (text "body", goString rec.body),
    (text "content_type", goString rec.contentType)] ++
    (if rec.headers = [] then []
      else [(text "headers", .object (rec.headers.map fun h => (text h.1, goString h.2)))]))

/-- A `map[string]string`. -/
def stringMap : Json → Option (List (String × String))
  | .null => some []
  | .object fields => fields.mapM fun f =>
    match f.2 with
    | .null => some (ofText f.1, "")
    | .str t => some (ofText f.1, ofText t)
    | _ => none
  | _ => none

def headersField (fields : List (Text × Json)) : Option (List (String × String)) :=
  (valuesAt fields "headers").foldlM (fun headers v => do return headers ++ (← stringMap v)) []

/-- `json.Unmarshal`. -/
def IdempotentRecord.decode (payload : Json) : Option IdempotentRecord := do
  let fields ← objectFields payload
  let status ← intField fields "status"
  let body ← stringField fields "body"
  let contentType ← stringField fields "content_type"
  let headers ← headersField fields
  return ⟨status, body, contentType, headers⟩

/-- What is cached of a response. -/
def Recorder.envelope (r : Recorder) : IdempotentRecord :=
  ⟨r.status, stdEncoding.encodeToString r.body, r.inner.contentType, []⟩

/-- What a repeated request is answered with. -/
def IdempotentRecord.acts (rec : IdempotentRecord) : List Act :=
  (if rec.contentType = "" then [] else [.setContentType rec.contentType]) ++
    (rec.headers.filter (·.1 = "Content-Type")).map (.setContentType ·.2) ++
    [.writeHeader rec.status] ++
    ((stdEncoding.decodeString rec.body).map Act.write).toList

/-! ## Requests -/

/-- What the middleware reads of a request. The body is what `io.ReadAll` gives of it, up to one
byte more than the limit. -/
structure Request where
  claims : Option Claims
  method : String
  path : String
  key : String
  body : Except String Bytes

def maxBody : Nat := 10 * 2 ^ 20

/-- `IdempotencyTTL`, in seconds. -/
def idempotencyTTL : Nat := 24 * 60 * 60

def Request.userID (r : Request) : String :=
  match r.claims with
  | some claims => claims.userID
  | none => "anon"

/-- The request has a key, and a method that the middleware looks at. -/
def Request.Keyed (r : Request) : Prop := r.key ≠ "" ∧ (r.method = "POST" ∨ r.method = "PATCH")

instance (r : Request) : Decidable r.Keyed := inferInstanceAs (Decidable (_ ∧ _))

/-- The key in Redis, for the first half of a hash. -/
def joinKey (userID method path key : String) (hash : Bytes) : String :=
  "idemp:" ++ userID ++ ":" ++ method ++ ":" ++ path ++ ":" ++ key ++ ":" ++
    String.ofList (hexEncode hash)

section Middleware

-- `sha256.Sum256`
variable (sum256 : Bytes → Vector UInt8 32)

def Request.redisKey (r : Request) (body : Bytes) : String :=
  joinKey r.userID r.method r.path r.key ((sum256 body).toList.take 8)

/-! ## The calls -/

/-- `enter` and `respond` are where the wrapped handler is entered and where it returns. -/
inductive Call where
  | get (key : String)
  | enter
  | respond
  | set (key : String) (payload : Json) (seconds : Nat)

def Answer : Call → Type
  | .get _ => Except Failure (Option Json)
  | .enter => Unit
  | .respond => Written
  | .set _ _ _ => Except Failure Unit

/-- What the outside chooses: how a command fares, and what the handler answers. -/
structure Choice extends Outcome where
  written : Written := .bare 500
deriving DecidableEq

abbrev IdemProg := Prog Call Answer

def ask (c : Call) : IdemProg (Answer c) := Prog.ask c

def answerCall (o : Choice) (s : Store Json) : (c : Call) → Answer c × Store Json
  | .get key => o.reply (s.wait o.wait) ((s.wait o.wait).get key, s.wait o.wait)
  | .enter => ((), s.wait o.wait)
  | .respond => (o.written, s.wait o.wait)
  | .set key payload seconds =>
    o.reply (s.wait o.wait) ((), (s.wait o.wait).set key payload seconds)

def cache : World Call Answer (Store Json) Choice := ⟨answerCall⟩

/-! ## The middleware -/

/-- What the client gets, and whether it is marked `Idempotent-Replay`. -/
structure Reply where
  response : Response
  replayed : Bool
deriving DecidableEq

def serveNext : IdemProg Reply := do
  ask .enter
  let written : Written ← ask .respond
  pure ⟨sentBy written.acts, false⟩

/-- Only success responses are cached. Where the store fails, that is only logged. -/
def cacheResponse (redisKey : String) (rec_ : Recorder) : IdemProg Reply :=
  if 200 ≤ rec_.status ∧ rec_.status < 300 then do
    let _ : Except Failure Unit ← ask (.set redisKey rec_.envelope.encode idempotencyTTL)
    pure ⟨rec_.inner.sent, false⟩
  else pure ⟨rec_.inner.sent, false⟩

def serveRecorded (redisKey : String) : IdemProg Reply := do
  ask .enter
  let written : Written ← ask .respond
  cacheResponse redisKey (recordActs written.acts)

def afterLookup (redisKey : String) (cached : Except Failure (Option Json)) : IdemProg Reply :=
  match cached with
  | .ok (some payload) =>
    match IdempotentRecord.decode payload with
    | some rec_ => pure ⟨sentBy rec_.acts, true⟩
    | none => serveRecorded redisKey
  | _ => serveRecorded redisKey

def errorResponse (status : Int) (msg : String) : Response :=
  sentBy (Written.json status ("\x7b\"error\":\"" ++ msg ++ "\"\x7d\n").toUTF8.toList).acts

def idempotency (r : Request) : IdemProg Reply :=
  if r.Keyed then
    match r.body with
    | .error _ => pure ⟨errorResponse 400 "read request body", false⟩
    | .ok body =>
      if maxBody < body.length then serveNext
      else do
        let cached : Except Failure (Option Json) ← ask (.get (r.redisKey sum256 body))
        afterLookup (r.redisKey sum256 body) cached
  else serveNext

/-- The gateway before its first request with a key, and the requests that come. -/
def start (now : Nat) (requests : List Request) : Config Call Answer (Store Json) Reply :=
  ⟨⟨⟨now, fun _ => none⟩, []⟩, requests.map (idempotency sum256)⟩

end Middleware

/-! ## What is recorded is what was sent -/

/-- The recorder against the writer behind it. -/
structure Recorder.Faithful (r : Recorder) : Prop where
  head : r.inner.head.map (·.1) = if r.wroteHead then some r.status else none
  status : r.wroteHead = false → r.status = 200
  body : r.inner.body = r.body

theorem faithful_writeHeader {r : Recorder} (h : r.Faithful) (code : Int) :
    (r.writeHeader code).Faithful := by
  obtain ⟨hhead, hstatus, hbody⟩ := h
  unfold Recorder.writeHeader
  cases hw : r.wroteHead with
  | true => exact ⟨by simpa [hw] using hhead, fun he => by simp [hw] at he, hbody⟩
  | false =>
    have hnone : r.inner.head = none := by simpa [hw] using hhead
    refine ⟨?_, by simp, ?_⟩
    · simp [Writer.act, hnone]
    · simpa [Writer.act, hnone] using hbody

theorem faithful_act {r : Recorder} (h : r.Faithful) (a : Act) : (r.act a).Faithful := by
  cases a with
  | setContentType value => exact ⟨h.head, h.status, h.body⟩
  | writeHeader code => exact faithful_writeHeader h code
  | write bytes =>
    unfold Recorder.act Recorder.write
    have hhead : ∀ r : Recorder, r.Faithful → r.wroteHead = true →
        ({ r with body := r.body ++ bytes, inner := r.inner.act (.write bytes) } :
          Recorder).Faithful := by
      rintro r ⟨hhead, -, hbody⟩ hw
      refine ⟨?_, fun he => by simp [hw] at he, by simp [Writer.act, hbody]⟩
      cases hinner : r.inner.head with
      | none => simp [hinner, hw] at hhead
      | some p => simpa [Writer.act, hinner, hw] using hhead
    cases hw : r.wroteHead with
    | true => simpa [hw] using hhead r h hw
    | false =>
      have hwrote : (r.writeHeader 200).wroteHead = true := by simp [Recorder.writeHeader, hw]
      simpa [hw] using hhead _ (faithful_writeHeader h 200) hwrote

/-- Whatever a handler does, its status and its body are recorded as they are sent. -/
theorem recorded_as_sent (acts : List Act) :
    (recordActs acts).status = (recordActs acts).inner.sent.status ∧
      (recordActs acts).body = (recordActs acts).inner.sent.body := by
  have hall : ∀ r : Recorder, r.Faithful → (acts.foldl Recorder.act r).Faithful := by
    induction acts with
    | nil => exact fun r h => h
    | cons a acts ih => exact fun r h => ih _ (faithful_act h a)
  obtain ⟨hhead, hstatus, hbody⟩ := hall {} ⟨rfl, fun _ => rfl, rfl⟩
  change (recordActs acts).inner.head.map (·.1) = _ at hhead
  unfold Writer.sent
  cases hw : (recordActs acts).wroteHead with
  | true =>
    rw [show (List.foldl Recorder.act {} acts).wroteHead = true from hw, if_pos rfl] at hhead
    obtain ⟨⟨status, contentType⟩, hsome, rfl⟩ := Option.map_eq_some_iff.mp hhead
    rw [hsome]
    exact ⟨rfl, hbody.symm⟩
  | false =>
    rw [show (List.foldl Recorder.act {} acts).wroteHead = false from hw] at hhead
    have hnone : (recordActs acts).inner.head = none := by simpa using hhead
    rw [hnone]
    exact ⟨hstatus hw, hbody.symm⟩

/-- The writer behind the recorder is told what the handler does. -/
theorem inner_recordActs (written : Written) :
    (recordActs written.acts).inner.sent = sentBy written.acts := by
  cases written <;> rfl

/-! ## What is recorded is what is replayed -/

def Written.status : Written → Int
  | .json status _ => status
  | .bare status => status

/-- The response is one that is cached. -/
def Written.Ok (written : Written) : Prop := 200 ≤ written.status ∧ written.status < 300

instance (written : Written) : Decidable written.Ok := inferInstanceAs (Decidable (_ ∧ _))

def Written.envelope (written : Written) : IdempotentRecord := (recordActs written.acts).envelope

@[simp] theorem sentBy_status (written : Written) :
    (sentBy written.acts).status = written.status := by
  cases written <;> rfl

@[simp] theorem recorded_status (written : Written) :
    (recordActs written.acts).status = written.status := by
  rw [(recorded_as_sent written.acts).1, inner_recordActs, sentBy_status]

theorem intField_written {fields : List (Text × Json)} {key : String} {n : Int}
    (h : valuesAt fields key = [.int n]) (hn : -2 ^ 63 ≤ n ∧ n < 2 ^ 63) :
    intField fields key = some n := by
  unfold intField
  rw [h]
  simp only [List.foldlM_cons, List.foldlM_nil, if_pos hn]
  rfl

/-- A record without headers is read back as it was written. -/
theorem decode_record {rec : IdempotentRecord} (hstatus : -2 ^ 63 ≤ rec.status ∧ rec.status < 2 ^ 63)
    (hheaders : rec.headers = []) : IdempotentRecord.decode rec.encode = some rec := by
  obtain ⟨status, body, contentType, headers⟩ := rec
  subst hheaders
  unfold IdempotentRecord.decode IdempotentRecord.encode
  simp only [objectFields, Option.bind_eq_bind, Option.bind_some, if_true, List.append_nil]
  rw [intField_written (n := status) ?_ hstatus, stringField_written (s := body),
    stringField_written (s := contentType)]
  · simp [headersField, valuesAt_cons, valuesAt_nil, text, foldKey]
  all_goals simp [valuesAt_cons, valuesAt_nil, text, foldKey]

theorem acts_of_record {rec : IdempotentRecord} {body : Bytes} (hheaders : rec.headers = [])
    (hbody : stdEncoding.decodeString rec.body = some body) :
    sentBy rec.acts = ⟨rec.status, rec.contentType, body⟩ := by
  unfold IdempotentRecord.acts
  by_cases hct : rec.contentType = "" <;>
    simp [hct, hheaders, hbody, sentBy, Writer.act, Writer.sent]

/-- The response that is cached is the one that a repeated request gets. -/
theorem replayed_as_sent {written : Written} (hok : written.Ok) :
    IdempotentRecord.decode written.envelope.encode = some written.envelope ∧
      sentBy written.envelope.acts = sentBy written.acts := by
  obtain ⟨hlow, hhigh⟩ := hok
  have hstatus : written.envelope.status = written.status := recorded_status written
  refine ⟨decode_record ⟨by omega, by omega⟩ rfl, ?_⟩
  have hbody : stdEncoding.decodeString written.envelope.body =
      some (recordActs written.acts).body := by
    change stdEncoding.decodeString (stdEncoding.encodeToString _) = _
    exact std_decode_encode _
  rw [acts_of_record rfl hbody, ← inner_recordActs]
  cases written with
  | json status body => simp [Written.envelope, Recorder.envelope, recordActs, Written.acts,
      Recorder.act, Recorder.writeHeader, Recorder.write, Writer.act, Writer.sent]
  | bare status => simp [Written.envelope, Recorder.envelope, recordActs, Written.acts,
      Recorder.act, Recorder.writeHeader, Writer.act, Writer.sent]

/-! ## What a request does -/

/-- The request is looked up, under this key. -/
structure LooksUp (r : Request) (body : Bytes) : Prop where
  keyed : r.Keyed
  read : r.body = .ok body
  small : body.length ≤ maxBody

abbrev History := List (Event Call Answer)

/-- The answer to a lookup that does not end the request. -/
def Missed (found : Except Failure (Option Json)) : Prop :=
  ∀ payload, found = .ok (some payload) → IdempotentRecord.decode payload = none

section Programs

variable (sum256 : Bytes → Vector UInt8 32) (requests : List Request)

/-- The key that request `i` is looked up under. -/
def KeyOf (i : Nat) (redisKey : String) : Prop :=
  ∃ r body, requests[i]? = some r ∧ LooksUp r body ∧ redisKey = r.redisKey sum256 body

/-- Request `i` is not looked up. -/
def Bypasses (i : Nat) : Prop := ∃ r, requests[i]? = some r ∧ ∀ body, ¬ LooksUp r body

/-- A request is looked up first, its handler is entered where nothing was found, and then its
response is stored where it is a success. -/
def Due (i : Nat) (h : History) : Call → Prop
  | .get redisKey => h = [] ∧ KeyOf sum256 requests i redisKey
  | .enter =>
    (h = [] ∧ Bypasses requests i) ∨
      ∃ redisKey found, h = [⟨i, .get redisKey, found⟩] ∧ Missed found
  | .respond => ∃ h', h = ⟨i, .enter, ()⟩ :: h' ∧
      (h' = [] ∨ ∃ redisKey found, h' = [⟨i, .get redisKey, found⟩])
  | .set redisKey payload seconds =>
    KeyOf sum256 requests i redisKey ∧ seconds = idempotencyTTL ∧
      ∃ (written : Written) (h' : History), h = ⟨i, .respond, written⟩ :: h' ∧ written.Ok ∧
        payload = written.envelope.encode

/-- A reply that is marked is what was found, and another is what the handler wrote, or that the
body was not read. -/
def Ends (i : Nat) (reply : Reply) (h : History) : Prop :=
  if reply.replayed then
    ∃ redisKey payload rec_, KeyOf sum256 requests i redisKey ∧
      h = [⟨i, .get redisKey, (Except.ok (some payload) : Except Failure (Option Json))⟩] ∧
      IdempotentRecord.decode payload = some rec_ ∧ reply.response = sentBy rec_.acts
  else
    (h = [] ∧ Bypasses requests i) ∨
      ∃ written : Written, (⟨i, .respond, written⟩ : Event Call Answer) ∈ h ∧
        reply.response = sentBy written.acts

variable {sum256 requests} {i : Nat} {h : History}

theorem serveNext_follows (hh : h = [] ∧ Bypasses requests i) :
    serveNext.Follows i (Due sum256 requests i) (Ends sum256 requests i) h := by
  refine ⟨Or.inl hh, fun _ => ⟨⟨h, rfl, Or.inl hh.1⟩, fun written => ?_⟩⟩
  exact Or.inr ⟨written, List.mem_cons_self, rfl⟩

theorem cacheResponse_follows {redisKey : String} {written : Written} {h' : History}
    (hkey : KeyOf sum256 requests i redisKey) (hh : h = ⟨i, .respond, written⟩ :: h') :
    (cacheResponse redisKey (recordActs written.acts)).Follows i (Due sum256 requests i)
      (Ends sum256 requests i) h := by
  have hends : ∀ h' : History, (⟨i, .respond, written⟩ : Event Call Answer) ∈ h' →
      Ends sum256 requests i ⟨(recordActs written.acts).inner.sent, false⟩ h' := by
    intro h' hmem
    exact Or.inr ⟨written, hmem, inner_recordActs written⟩
  subst hh
  unfold cacheResponse
  rw [recorded_status]
  by_cases hok : 200 ≤ written.status ∧ written.status < 300
  · rw [if_pos hok]
    refine ⟨⟨hkey, rfl, written, h', rfl, hok, rfl⟩, fun _ => ?_⟩
    exact hends _ (List.mem_cons_of_mem _ List.mem_cons_self)
  · rw [if_neg hok]
    exact hends _ List.mem_cons_self

theorem serveRecorded_follows {redisKey : String} {found : Except Failure (Option Json)}
    (hkey : KeyOf sum256 requests i redisKey) (hmissed : Missed found)
    (hh : h = [⟨i, .get redisKey, found⟩]) :
    (serveRecorded redisKey).Follows i (Due sum256 requests i) (Ends sum256 requests i) h := by
  refine ⟨Or.inr ⟨redisKey, found, hh, hmissed⟩,
    fun _ => ⟨⟨h, rfl, Or.inr ⟨redisKey, found, hh⟩⟩, fun written => ?_⟩⟩
  exact cacheResponse_follows hkey rfl

theorem afterLookup_follows {redisKey : String} {found : Except Failure (Option Json)}
    (hkey : KeyOf sum256 requests i redisKey) :
    (afterLookup redisKey found).Follows i (Due sum256 requests i) (Ends sum256 requests i)
      [⟨i, .get redisKey, found⟩] := by
  unfold afterLookup
  cases found with
  | error e => exact serveRecorded_follows hkey (fun _ he => by simp at he) rfl
  | ok found =>
    cases found with
    | none => exact serveRecorded_follows hkey (fun _ he => by simp at he) rfl
    | some payload =>
      dsimp only
      cases hdecode : IdempotentRecord.decode payload with
      | none =>
        refine serveRecorded_follows hkey (fun payload' he => ?_) rfl
        cases he
        exact hdecode
      | some rec_ => exact ⟨redisKey, payload, rec_, hkey, rfl, hdecode, rfl⟩

theorem idempotency_follows {r : Request} (hr : requests[i]? = some r) :
    (idempotency sum256 r).Follows i (Due sum256 requests i) (Ends sum256 requests i) [] := by
  have hnot : (∀ body, ¬ LooksUp r body) → Bypasses requests i := fun hno => ⟨r, hr, hno⟩
  unfold idempotency
  by_cases hkeyed : r.Keyed
  · rw [if_pos hkeyed]
    cases hbody : r.body with
    | error e => exact Or.inl ⟨rfl, hnot fun body hl => by simp [hl.read] at hbody⟩
    | ok body =>
      dsimp only
      by_cases hlong : maxBody < body.length
      · rw [if_pos hlong]
        refine serveNext_follows ⟨rfl, hnot fun body' hl => ?_⟩
        have hsame : body = body' := by simpa [hbody] using hl.read
        rw [hsame] at hlong
        exact absurd hl.small (by omega)
      · rw [if_neg hlong]
        have hkey : KeyOf sum256 requests i (r.redisKey sum256 body) :=
          ⟨r, body, hr, ⟨hkeyed, hbody, by omega⟩, rfl⟩
        exact ⟨⟨rfl, hkey⟩, fun found => afterLookup_follows hkey⟩
  · rw [if_neg hkeyed]
    exact serveNext_follows ⟨rfl, hnot fun body hl => hkeyed hl.keyed⟩

variable (sum256 requests)

theorem all_follow (now : Nat) :
    AllFollow (Due sum256 requests) (Ends sum256 requests) (start sum256 now requests) :=
  allFollow_map fun _ _ hr => idempotency_follows hr

end Programs

end recast_rules.idempotent
