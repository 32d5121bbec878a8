-- The chunked upload of the browser (`web/src/lib/api.ts`) against the upload
-- service: how a file is cut, what the requests name, and what the service makes
-- of them.
import RecastAi.UploadAssembly

open call_programs go_text recast_rules.upload_service

namespace recast_rules.browser

/-! ## The cut -/

structure File where
  name : String
  mimeType : String
  data : Bytes

/-- `Blob.slice`. -/
def slice (data : Bytes) (start stop : Nat) : Bytes := (data.take stop).drop start

def defaultChunkSize : Nat := 8 * 1024 * 1024

/-- `Math.ceil(file.size / chunkSize)`. -/
def totalChunks (file : File) (chunkSize : Nat) : Nat :=
  (file.data.length + chunkSize - 1) / chunkSize

def chunkAt (file : File) (chunkSize idx : Nat) : Bytes :=
  let start := idx * chunkSize
  let stop := min (start + chunkSize) file.data.length
  slice file.data start stop

/-- The chunks with their indices. -/
def cut (file : File) (chunkSize : Nat) : List (Nat × Bytes) :=
  (List.range (totalChunks file chunkSize)).map fun idx => (idx, chunkAt file chunkSize idx)

theorem chunkAt_eq (file : File) (chunkSize idx : Nat) :
    chunkAt file chunkSize idx = (file.data.drop (idx * chunkSize)).take chunkSize := by
  unfold chunkAt slice
  dsimp only
  rw [List.take_eq_take_min, Nat.min_assoc, Nat.min_self, ← List.take_eq_take_min, List.drop_take,
    Nat.add_sub_cancel_left]

theorem take_chunks (file : File) (chunkSize n : Nat) :
    (List.range n).flatMap (chunkAt file chunkSize) = file.data.take (n * chunkSize) := by
  induction n with
  | zero => simp
  | succ n ih =>
    rw [List.range_succ, List.flatMap_append, ih, List.flatMap_singleton, chunkAt_eq, Nat.succ_mul,
      List.take_add]

theorem length_le_total {file : File} {chunkSize : Nat} (h : 0 < chunkSize) :
    file.data.length ≤ totalChunks file chunkSize * chunkSize := by
  unfold totalChunks
  have hdiv := Nat.div_add_mod (file.data.length + chunkSize - 1) chunkSize
  have hmod := Nat.mod_lt (file.data.length + chunkSize - 1) h
  rw [Nat.mul_comm]
  omega

/-- Of an index below the total there is something left in the file. -/
theorem chunkAt_ne_nil {file : File} {chunkSize idx : Nat} (h : idx < totalChunks file chunkSize) :
    chunkAt file chunkSize idx ≠ [] := by
  unfold totalChunks at h
  have hpos : 0 < chunkSize := by
    by_contra hzero
    rw [Nat.eq_zero_of_not_pos hzero, Nat.div_zero] at h
    exact Nat.not_lt_zero _ h
  have hstart : idx * chunkSize < file.data.length := by
    have hle := (Nat.le_div_iff_mul_le hpos).mp (Nat.succ_le_of_lt h)
    rw [Nat.succ_mul] at hle
    omega
  rw [chunkAt_eq, ← List.length_pos_iff, List.length_take, List.length_drop]
  omega

theorem chunkAt_length_le (file : File) (chunkSize idx : Nat) :
    (chunkAt file chunkSize idx).length ≤ chunkSize := by
  rw [chunkAt_eq, List.length_take]
  exact Nat.min_le_left _ _

/-- No chunk is empty, and none is longer than the size. -/
theorem cut_fits {file : File} {chunkSize : Nat} {chunk : Nat × Bytes}
    (h : chunk ∈ cut file chunkSize) : chunk.2 ≠ [] ∧ chunk.2.length ≤ chunkSize := by
  obtain ⟨idx, hidx, rfl⟩ := List.mem_map.mp h
  exact ⟨chunkAt_ne_nil (List.mem_range.mp hidx), chunkAt_length_le file chunkSize idx⟩

theorem lastBody_range (f : Nat → Bytes) (n i : Nat) :
    lastBody ((List.range n).map fun idx => (idx, f idx)) i = if i < n then some (f i) else none := by
  induction n with
  | zero => rfl
  | succ n ih =>
    rw [List.range_succ, List.map_append, List.map_singleton, lastBody_snoc, ih]
    by_cases hlast : i = n
    · rw [if_pos hlast, if_pos (by omega), hlast]
    · rw [if_neg hlast]
      exact if_congr (by omega) rfl rfl

/-- The file is what the service assembles of its chunks, when it gets them under their indices. -/
theorem cut_assembles {file : File} {chunkSize : Nat} (h : 0 < chunkSize) :
    Assembled (cut file chunkSize) file.data := by
  refine ⟨List.range (totalChunks file chunkSize), List.pairwise_lt_range, fun i => ?_, ?_⟩
  · unfold cut
    rw [lastBody_range, List.mem_range]
    by_cases hi : i < totalChunks file chunkSize
    · simp [hi]
    · simp [hi]
  · have hbody : ∀ i ∈ List.range (totalChunks file chunkSize),
        (lastBody (cut file chunkSize) i).getD [] = chunkAt file chunkSize i := by
      intro i hi
      unfold cut
      rw [lastBody_range, if_pos (List.mem_range.mp hi), Option.getD_some]
    rw [List.flatMap_congr hbody, take_chunks, List.take_of_length_le (length_le_total h)]

/-! ## The requests -/

structure UploadParams where
  voiceID : String
  style : String
  language : String
  name : String

inductive Body where
  | bytes (data : Bytes)
  | json (fields : List (String × String))

/-- A request with its query, decoded. -/
structure HttpRequest where
  query : List (String × String)
  headers : List (String × String)
  body : Body

def authHeaders : Option String → List (String × String)
  | none => []
  | some token => if token = "" then [] else [("Authorization", s!"Bearer {token}")]

def uploadChunkXhr (token : Option String) (uploadID : String) (idx total : Nat) (blob : Bytes) :
    HttpRequest where
  query := [("upload_id", uploadID), ("index", toString idx), ("total", toString total)]
  headers := authHeaders token ++ [("Content-Type", "application/octet-stream")]
  body := .bytes blob

def completeUpload (token : Option String) (uploadID : String) (params : UploadParams) :
    HttpRequest where
  query := []
  headers := authHeaders token ++ [("Content-Type", "application/json")]
  body := .json [("upload_id", uploadID), ("voice_id", params.voiceID), ("style", params.style),
    ("language", params.language), ("name", params.name)]

def field (fields : List (String × String)) (key : String) : String := (fields.lookup key).getD ""

/-- The request as the handlers read it. The user is the one of the token. -/
def HttpRequest.received (r : HttpRequest) (requestID : String) (userID : Option String) :
    Request where
  query := field r.query
  header := field r.headers
  urlParam _ := ""
  requestID := requestID
  body :=
    match r.body with
    | .bytes data => some data
    | .json _ => none
  json :=
    match r.body with
    | .bytes _ => none
    | .json fields =>
      some ⟨field fields "filename", field fields "voice_id", field fields "style",
        field fields "language"⟩
  userID := userID

/-! ## The client -/

structure InitResponse where
  uploadID : String
  chunkSize : Option Nat

structure ApiError where
  status : Nat
  code : String
  message : String

inductive WebCall where
  | init (filename : String) (size : Nat) (mimeType : String) (params : UploadParams)
  | chunk (uploadID : String) (idx total : Nat) (blob : Bytes)
  | complete (uploadID : String) (params : UploadParams)

def WebAnswer : WebCall → Type
  | .init _ _ _ _ => Except ApiError InitResponse
  | .chunk _ _ _ _ => Response
  | .complete _ _ => Response

abbrev Web (α : Type) := Attempt WebCall WebAnswer ApiError α

def isOk (resp : Response) : Bool := 200 ≤ resp.status && resp.status < 300

/-- What `http` throws. -/
def httpError (resp : Response) : ApiError :=
  if resp.status = 401 then ⟨401, "unauthorized", "Unauthorized"⟩
  else
    match resp.body with
    | .error msg => ⟨resp.status, "http_error",
        if msg = "" then s!"Request failed: {resp.status}" else msg⟩
    | _ => ⟨resp.status, "http_error", s!"Request failed: {resp.status}"⟩

/-- The loop of `uploadChunks` from an index on. -/
def uploadFrom (file : File) (uploadID : String) (chunkSize total : Nat) : Nat → Nat → Web Unit
  | 0, _ => return
  | left + 1, idx => do
    let resp : Response ←
      ExceptT.lift (Prog.ask (WebCall.chunk uploadID idx total (chunkAt file chunkSize idx)))
    if isOk resp then uploadFrom file uploadID chunkSize total left (idx + 1)
    else throw ⟨resp.status, "chunk_failed", s!"Chunk {idx} upload failed: {resp.status}"⟩

/-- `init.chunk_size || CHUNK_SIZE`. -/
def InitResponse.usedSize (init : InitResponse) : Nat :=
  if init.chunkSize.getD 0 = 0 then defaultChunkSize else init.chunkSize.getD 0

def uploadChunks (file : File) (params : UploadParams) : Web InitResponse := do
  let init : InitResponse ←
    (Prog.ask (WebCall.init file.name file.data.length file.mimeType params)).orGiveUp id
  let total := totalChunks file init.usedSize
  uploadFrom file init.uploadID init.usedSize total total 0
  return init

/-- The call of `completeUpload`. -/
def finish (uploadID : String) (params : UploadParams) : Web Response := do
  let resp : Response ← ExceptT.lift (Prog.ask (WebCall.complete uploadID params))
  if isOk resp then return resp else throw (httpError resp)

/-- The upload of a file: its chunks, and then the request to complete it. -/
def upload (file : File) (params : UploadParams) : Web Response := do
  let init ← uploadChunks file params
  finish init.uploadID params

/-! ## The answers of the service -/

/-- The service, in any state and whatever happens to its calls, answers the request so. Any answer
to `/upload/init` will do. -/
def Answered (tables : Unicode) (token userID : Option String) :
    Sigma WebAnswer → Prop
  | ⟨.init _ _ _ _, _⟩ => True
  | ⟨.chunk uploadID idx total blob, resp⟩ =>
    ∃ requestID os s s', run backends os
      (handleChunk ((uploadChunkXhr token uploadID idx total blob).received requestID userID), s) =
        (.done resp, s')
  | ⟨.complete uploadID params, resp⟩ =>
    ∃ requestID os s s', run backends os
      (handleComplete tables ((completeUpload token uploadID params).received requestID userID), s) =
        (.done resp, s')

/-- The request was refused as one that is wrong. -/
def Refused : Sigma WebAnswer → Prop
  | ⟨.init _ _ _ _, _⟩ => True
  | ⟨.chunk _ _ _ _, resp⟩ => Response.status resp = 400
  | ⟨.complete _ _, resp⟩ => Response.status resp = 400

theorem authHeaders_lookup (token : Option String) {key value : String} (h : key ≠ "Authorization")
    (hvalue : key ≠ "Content-Type") :
    field (authHeaders token ++ [("Content-Type", value)]) key = "" := by
  have hauth : (authHeaders token).lookup key = none := by
    cases token with
    | none => rfl
    | some token =>
      unfold authHeaders
      dsimp only
      split
      · rfl
      · rw [List.lookup_cons, beq_false_of_ne h]
        rfl
  unfold field
  rw [List.lookup_append, hauth, Option.none_or, List.lookup_cons, beq_false_of_ne hvalue]
  rfl

theorem requestChunkIdx_empty {r : Request} (hquery : r.query "chunk_idx" = "")
    (hheader : r.header "X-Chunk-Index" = "") : requestChunkIdx r = none := by
  unfold requestChunkIdx
  rw [if_pos hquery, hheader]
  rfl

/-- A chunk says `index`, and the service asks for `chunk_idx`. -/
theorem chunk_without_index (token userID : Option String) (uploadID requestID : String)
    (idx total : Nat) (blob : Bytes) :
    requestChunkIdx ((uploadChunkXhr token uploadID idx total blob).received requestID userID) =
      none := by
  have hquery : field (uploadChunkXhr token uploadID idx total blob).query "chunk_idx" = "" := rfl
  have hheader : field (uploadChunkXhr token uploadID idx total blob).headers "X-Chunk-Index" = "" :=
    authHeaders_lookup token (by decide) (by decide)
  exact requestChunkIdx_empty hquery hheader

theorem storeChunk_refuses {r : Request} (h : requestChunkIdx r = none) (uploadID : String)
    (s : Uploads) :
    wp backends (fun _ _ _ => True) (storeChunk r uploadID) (fun resp _ => resp.status = 400) s := by
  unfold storeChunk
  apply wp_finish
  refine refuseIf_wp (fun _ => rfl) fun _ => ?_
  rw [h]
  rfl

theorem chunk_is_refused {r : Request} (h : requestChunkIdx r = none) (s : Uploads) :
    wp backends (fun _ _ _ => True) (handleChunk r) (fun resp _ => resp.status = 400) s := by
  unfold handleChunk
  rw [wp_bind]
  unfold chunkUploadID
  split
  · exact fun _ _ => storeChunk_refuses h _ _
  · exact storeChunk_refuses h _ _

/-- The request to complete has its upload id in the body, where the service does not look. -/
theorem complete_without_id (token userID : Option String) (uploadID requestID : String)
    (params : UploadParams) :
    requestUploadID ((completeUpload token uploadID params).received requestID userID) = "" := by
  have hheader : field (completeUpload token uploadID params).headers "X-Upload-ID" = "" :=
    authHeaders_lookup token (by decide) (by decide)
  unfold requestUploadID HttpRequest.received
  dsimp only
  rw [hheader]
  with_unfolding_all rfl

theorem complete_is_refused (tables : Unicode) {r : Request} (h : requestUploadID r = "")
    (s : Uploads) : wp backends (fun _ _ _ => True) (handleComplete tables r)
      (fun resp _ => resp.status = 400) s := by
  have hunsafe : isSafeID "" = false := by with_unfolding_all rfl
  have hrefused : acceptComplete tables r =
      .error (writeError 400 "invalid or missing upload_id") := by
    unfold acceptComplete
    rw [h, hunsafe]
    rfl
  unfold handleComplete
  rw [hrefused]
  exact rfl

theorem every_answer_is_a_refusal {tables : Unicode} {token userID : Option String}
    {e : Sigma WebAnswer} (h : Answered tables token userID e) : Refused e := by
  obtain ⟨c, resp⟩ := e
  cases c with
  | init => trivial
  | chunk uploadID idx total blob =>
    obtain ⟨requestID, os, s, s', hrun⟩ := h
    have hindex := chunk_without_index token userID uploadID requestID idx total blob
    exact wp_run_any (Q := fun resp _ => resp.status = 400) (chunk_is_refused hindex s) hrun
  | complete uploadID params =>
    obtain ⟨requestID, os, s, s', hrun⟩ := h
    have hid := complete_without_id token userID uploadID requestID params
    exact wp_run_any (Q := fun resp _ => resp.status = 400) (complete_is_refused tables hid s) hrun

/-! ## The law -/

theorem not_isOk {resp : Response} (h : resp.status = 400) : isOk resp = false := by
  unfold isOk
  rw [h]
  rfl

/-- What follows the first request, when all that follows is refused. -/
theorem rest_refused {file : File} {params : UploadParams} {init : InitResponse} {n total : Nat}
    {es : List (Sigma WebAnswer)} {r : Except ApiError Response}
    (h : Trace (do
      let init ← (do
        uploadFrom file init.uploadID init.usedSize total n 0
        return init : Web InitResponse)
      finish init.uploadID params : Web Response).run es r)
    (hrefused : ∀ e ∈ es, Refused e) : ∃ e, r = .error e := by
  cases n with
  | zero =>
    change Trace (Prog.call (WebCall.complete init.uploadID params) _) es r at h
    cases h with
    | @call _ _ resp es _ h =>
      change Trace (ExceptT.run (if isOk resp then _ else _)) es r at h
      rw [not_isOk (hrefused _ List.mem_cons_self), if_neg Bool.false_ne_true] at h
      cases h
      exact ⟨_, rfl⟩
  | succ n =>
    change Trace (Prog.call (WebCall.chunk init.uploadID 0 total _) _) es r at h
    cases h with
    | @call _ _ resp es _ h =>
      have hfails : isOk resp = false := not_isOk (hrefused _ List.mem_cons_self)
      change Trace (((if isOk resp then _ else throw _ : Web Unit) >>= fun _ => pure init) >>=
        fun init => finish init.uploadID params : Web Response).run es r at h
      rw [hfails, if_neg Bool.false_ne_true] at h
      cases h
      exact ⟨_, rfl⟩

/-- All chunks were accepted under their indices, and the upload was completed with the bytes of the
file. -/
structure Uploaded (file : File) (es : List (Sigma WebAnswer)) (s : Uploads) : Prop where
  chunks : ∀ uploadID idx total blob resp,
    (⟨.chunk uploadID idx total blob, resp⟩ : Sigma WebAnswer) ∈ es →
      resp = (⟨200, .chunk uploadID idx blob.length⟩ : Response)
  completed : ∃ uploadID params jobID traceID key durationMs status,
    (⟨.complete uploadID params, (⟨202, .complete jobID traceID key durationMs status⟩ : Response)⟩ :
      Sigma WebAnswer) ∈ es ∧ (s.objects key).map Object.data = some file.data

/-- No chunk and no completed upload of the browser is ever accepted, whatever the service does
with its calls, and the browser ends with an error. -/
theorem the_browser_is_refused {tables : Unicode} {token userID : Option String} {file : File}
    {params : UploadParams} {es : List (Sigma WebAnswer)} {r : Except ApiError Response}
    (h : Trace (upload file params).run es r) (hanswered : ∀ e ∈ es, Answered tables token userID e) :
    (∀ e, Answered tables token userID e → Refused e) ∧ (∃ e, r = .error e) ∧
      ∀ s, ¬ Uploaded file es s := by
  have hrefused : ∀ e ∈ es, Refused e := fun e he => every_answer_is_a_refusal (hanswered e he)
  refine ⟨fun _ => every_answer_is_a_refusal, ?_, ?_⟩
  · change Trace (Prog.call _ _) es r at h
    cases h with
    | @call _ _ init es _ h =>
      cases init with
      | error e =>
        cases h
        exact ⟨e, rfl⟩
      | ok init => exact rest_refused h fun e he => hrefused e (List.mem_cons_of_mem _ he)
  · rintro s ⟨-, uploadID, params, jobID, traceID, key, durationMs, status, hmem, -⟩
    exact absurd (hrefused _ hmem) (by simp [Refused])

/-! ## Ada's file -/

def adasFile : File := ⟨"talk.mp4", "video/mp4", [1, 2, 3]⟩

def adasParams : UploadParams := ⟨"nova", "formal", "en", "talk"⟩

def chunkRefused : Response := writeError 400 "chunk_idx must be a non-negative integer"

/-- The first of two chunks is the last request. -/
def adasExchanges : List (Sigma WebAnswer) :=
  [⟨.init "talk.mp4" 3 "video/mp4" adasParams, .ok ⟨"u", some 2⟩⟩,
    ⟨.chunk "u" 0 2 [1, 2], chunkRefused⟩]

def adasError : ApiError := ⟨400, "chunk_failed", "Chunk 0 upload failed: 400"⟩

theorem adas_upload_runs :
    Trace (upload adasFile adasParams).run adasExchanges (.error adasError) :=
  .call (.call (.done _))

theorem adas_chunk_is_answered :
    ∀ e ∈ adasExchanges, Answered ascii (some "token") (some "ada") e := by
  intro e he
  simp only [adasExchanges, List.mem_cons, List.not_mem_nil, or_false] at he
  rcases he with rfl | rfl
  · trivial
  · exact ⟨"", [], empty, empty, by with_unfolding_all rfl⟩

theorem adas_upload_is_refused :
    (∀ e, Answered ascii (some "token") (some "ada") e → Refused e) ∧
      (∃ e, (.error adasError : Except ApiError Response) = .error e) ∧
      ∀ s, ¬ Uploaded adasFile adasExchanges s :=
  the_browser_is_refused adas_upload_runs adas_chunk_is_answered

/-- A file of three bytes in chunks of two. -/
theorem a_first_chunk_is_refused :
    Trace (upload adasFile adasParams).run adasExchanges (.error adasError) ∧
      (∀ e ∈ adasExchanges, Answered ascii (some "token") (some "ada") e) ∧
      cut adasFile 2 = [(0, [1, 2]), (1, [3])] ∧ chunkRefused.status = 400 ∧
      ¬ Uploaded adasFile adasExchanges empty :=
  ⟨adas_upload_runs, adas_chunk_is_answered, by decide, rfl, fun h =>
    have hsame := h.chunks "u" 0 2 [1, 2] chunkRefused (List.mem_cons_of_mem _ List.mem_cons_self)
    absurd (congrArg Response.status hsame) (by decide)⟩

end recast_rules.browser
