-- The webhooks of a completed job (`internal/delivery/webhook.go`): a signed POST that is tried three
-- times. The delivery service with its POSTs carries out the service that calls a webhook in one
-- step, so what holds of that one holds of every POST.
import RecastAi.DeliveryService
import RecastAi.GoEncoding
import RecastAi.Refinements

open call_programs recast_rules.transcript recast_rules.models recast_rules.pipeline
open recast_rules.consumers (publishEvent)

namespace recast_rules.webhooks

/-! ## The calls -/

/-- What `SendWebhook` asks of the outside: a POST with its body and its signature, and the wait
before the next one. -/
inductive WebCall where
  | post (url : String) (body : List UInt8) (signature : String)
  | backoff (seconds : Nat)

/-- The status of the response, or why there is none; and whether the context was cancelled in the
wait. -/
def WebAnswer : WebCall → Type
  | .post _ _ _ => Except String Nat
  | .backoff _ => Bool

abbrev Web (α : Type) := Prog (Call ⊕ WebCall) (Sum.elim Answer WebAnswer) α

abbrev Posts := List (Sigma (Sum.elim Answer WebAnswer))

def askWeb (c : WebCall) : Web (WebAnswer c) :=
  .call (.inr c) .done

/-- `json.Marshal`, HMAC-SHA256, and the layout of a time. -/
structure Tools where
  marshal : Json → Option (List UInt8)
  hmac : List UInt8 → List UInt8 → List UInt8
  rfc3339 : Nat → String

/-! ## `SendWebhook` -/

def sign (tools : Tools) (body : List UInt8) (secret : String) : String :=
  String.ofList (go_text.hexEncode (tools.hmac secret.toUTF8.toList body))

def accepted : Except String Nat → Bool
  | .error _ => false
  | .ok status => 200 ≤ status && status < 300

def doPost (url : String) (body : List UInt8) (signature : String) : Web (Except String Unit) := do
  match ← askWeb (.post url body signature) with
  | .error e => return .error s!"send request: {e}"
  | .ok status =>
    if 200 ≤ status && status < 300 then return .ok ()
    else return .error s!"webhook returned status {status}"

def maxAttempts : Nat := 3

/-- The wait before an attempt, and whether the context was cancelled in it. -/
def pause : Nat → Web Bool
  | 0 => pure false
  | attempt + 1 => askWeb (.backoff (2 ^ (attempt + 1)))

/-- The loop from an attempt on, with the error of the last one. -/
def attemptsFrom (url : String) (body : List UInt8) (signature : String) :
    Nat → Nat → String → Web (Except String Unit)
  | 0, _, lastErr => return .error s!"webhook delivery failed after {maxAttempts} attempts: {lastErr}"
  | left + 1, attempt, _ => do
    if ← pause attempt then return .error "context canceled"
    else
      match ← doPost url body signature with
      | .ok () => return .ok ()
      | .error e => attemptsFrom url body signature left (attempt + 1) e

def sendWebhook (tools : Tools) (url secret : String) (payload : Json) : Web (Except String Unit) :=
  match tools.marshal payload with
  | none => return .error "marshal webhook payload"
  | some body => attemptsFrom url body (sign tools body secret) maxAttempts 0 ""

/-! ## The consumer -/

/-- The link is for an hour. -/
def presignedURLExpiry : Nat := 3600000

/-- The payload, a map with sorted keys. -/
def webhookPayload (tools : Tools) (jobID downloadURL : String) (durationMs : Int) (expiresAt : Nat) :
    Json :=
  .object [(py_text.text "download_url", goString downloadURL),
    (py_text.text "duration_ms", .int durationMs),
    (py_text.text "expires_at", goString (tools.rfc3339 expiresAt)),
    (py_text.text "job_id", goString jobID)]

def sendWebhooks (tools : Tools) (payload : Json) : List Webhook → Web Unit
  | [] => return
  | hook :: hooks => do
    let _ ← sendWebhook tools hook.url hook.secret payload
    sendWebhooks tools payload hooks

def deliverWebhooks (tools : Tools) (userID : String) (payload : Json) : Web Unit := do
  let rows : Except DbError (List Webhook) ← (ask (.query none (.webhooks userID))).left
  match rows with
  | .error _ => return
  | .ok hooks => sendWebhooks tools payload hooks

/-- `processMessage`, after the message was read. -/
def process (tools : Tools) (msg : QueueMessage Json) (payload : DeliveryPayload) :
    Attempt (Call ⊕ WebCall) (Sum.elim Answer WebAnswer) String Unit := do
  let _ ← (ask (.exec none (.setStage msg.jobID .delivering))).left.orGiveUp
    fun _ => "update job stage"
  ExceptT.lift (publishEvent msg.jobID).left
  let downloadURL : String ← (ask (.presign payload.outputFile)).left.orGiveUp
    fun _ => "generate presigned URL"
  let job : Job ← (ask (.query none (.job msg.jobID))).left.orGiveUp fun _ => "lookup job duration"
  let completedAt : Nat ← ExceptT.lift (ask .clock).left
  let _ ← (ask (.exec none (.setDownload msg.jobID .completed downloadURL completedAt))).left.orGiveUp
    fun _ => "update job completed"
  ExceptT.lift (deliverWebhooks tools payload.userID (webhookPayload tools msg.jobID downloadURL
    job.durationMs (completedAt + presignedURLExpiry)))
  ExceptT.lift (publishEvent msg.jobID).left

/-! ## The POSTs of a webhook -/

def outcomeOf : Sigma (Sum.elim Answer WebAnswer) → Option (Except String Nat)
  | ⟨.inr (.post _ _ _), o⟩ => some o
  | _ => none

def waitOf : Sigma (Sum.elim Answer WebAnswer) → Option Nat
  | ⟨.inr (.backoff seconds), _⟩ => some seconds
  | _ => none

/-- The outcomes of the POSTs among the calls. -/
def outcomes (es : Posts) : List (Except String Nat) := es.filterMap outcomeOf

/-- The waits among the calls. -/
def waits (es : Posts) : List Nat := es.filterMap waitOf

/-- The waits before the attempts: none before the first one, and then 2 s and 4 s. -/
def pauses (attempt left : Nat) : List Nat :=
  ((List.range' attempt left).filter (0 < ·)).map (2 ^ ·)

/-- What a webhook is called with. -/
structure Served (url : String) (body : List UInt8) (signature : String) (attempt left : Nat)
    (es : Posts) (x : Except String Unit) : Prop where
  calls : ∀ e ∈ es, e.1 = .inr (.post url body signature) ∨ ∃ seconds, e.1 = .inr (.backoff seconds)
  most : (outcomes es).length ≤ left
  /-- Only the last POST may be accepted, and then the webhook is delivered. -/
  last : ∀ o ∈ (outcomes es).dropLast, accepted o = false
  delivered : x = .ok () ↔ ∃ o ∈ (outcomes es).getLast?, accepted o = true
  waits : waits es <+: pauses attempt left

theorem doPost_trace {url signature : String} {body : List UInt8} {es : Posts}
    {x : Except String Unit} (h : Trace (doPost url body signature) es x) :
    ∃ o : Except String Nat, es = [⟨.inr (.post url body signature), o⟩] ∧
      (x = .ok () ↔ accepted o = true) := by
  cases h with
  | @call _ _ o es _ h =>
    refine ⟨o, ?_⟩
    cases o with
    | error e =>
      cases h
      exact ⟨rfl, by simp [accepted]⟩
    | ok status =>
      change Trace (if (200 ≤ status && status < 300) = true then _ else _) es x at h
      split at h
      · rename_i hstatus
        cases h
        exact ⟨rfl, iff_of_true rfl hstatus⟩
      · rename_i hstatus
        cases h
        exact ⟨rfl, iff_of_false (by simp) hstatus⟩

theorem pauses_succ (attempt left : Nat) :
    pauses attempt (left + 1) = pauses attempt 1 ++ pauses (attempt + 1) left := by
  unfold pauses
  rw [List.range'_succ, List.range'_one, ← List.map_append, ← List.filter_append,
    List.singleton_append]

/-- The wait before an attempt. -/
structure Paused (attempt : Nat) (es : Posts) : Prop where
  calls : ∀ e ∈ es, ∃ seconds, e.1 = .inr (.backoff seconds)
  outcomes : outcomes es = []
  waits : waits es = pauses attempt 1

theorem pause_trace {attempt : Nat} {es : Posts} {cancelled : Bool}
    (h : Trace (pause attempt) es cancelled) : Paused attempt es := by
  cases attempt with
  | zero =>
    cases h
    exact ⟨by simp, rfl, rfl⟩
  | succ attempt =>
    cases h with
    | @call _ _ c es _ h =>
      cases h
      exact ⟨List.forall_mem_singleton.mpr ⟨_, rfl⟩, rfl, rfl⟩

section Serving

variable {url signature : String} {body : List UInt8} {attempt left : Nat} {es es₁ : Posts}
  {o : Except String Nat} {x : Except String Unit}

/-- The context is cancelled in the wait. -/
theorem Paused.cancelled (hp : Paused attempt es₁) (hx : x ≠ .ok ()) :
    Served url body signature attempt (left + 1) es₁ x where
  calls := fun e he => Or.inr (hp.calls e he)
  most := by simp [hp.outcomes]
  last := by simp [hp.outcomes]
  delivered := by simp [hp.outcomes, hx]
  waits := by
    rw [hp.waits, pauses_succ attempt left]
    exact List.prefix_append _ _

theorem Paused.outcomes_post (hp : Paused attempt es₁) :
    webhooks.outcomes (es₁ ++ ⟨.inr (.post url body signature), o⟩ :: es) =
      o :: webhooks.outcomes es := by
  have hnone := hp.outcomes
  unfold webhooks.outcomes at hnone ⊢
  rw [List.filterMap_append, hnone]
  rfl

theorem Paused.waits_post (hp : Paused attempt es₁) :
    webhooks.waits (es₁ ++ ⟨.inr (.post url body signature), o⟩ :: es) =
      pauses attempt 1 ++ webhooks.waits es := by
  have hpause := hp.waits
  unfold webhooks.waits at hpause ⊢
  rw [List.filterMap_append, hpause]
  rfl

theorem Paused.calls_post (hp : Paused attempt es₁)
    (hes : ∀ e ∈ es, e.1 = .inr (.post url body signature) ∨ ∃ seconds, e.1 = .inr (.backoff seconds)) :
    ∀ e ∈ es₁ ++ ⟨.inr (.post url body signature), o⟩ :: es,
      e.1 = .inr (.post url body signature) ∨ ∃ seconds, e.1 = .inr (.backoff seconds) := by
  intro e he
  rcases List.mem_append.mp he with he | he
  · exact Or.inr (hp.calls e he)
  · rcases List.mem_cons.mp he with rfl | he
    · exact Or.inl rfl
    · exact hes e he

/-- The POST is accepted. -/
theorem Paused.accepted (hp : Paused attempt es₁) (ho : webhooks.accepted o = true) :
    Served url body signature attempt (left + 1) (es₁ ++ [⟨.inr (.post url body signature), o⟩])
      (.ok ()) where
  calls := hp.calls_post (fun e he => absurd he List.not_mem_nil)
  most := by
    rw [hp.outcomes_post]
    simp [webhooks.outcomes]
  last := by
    rw [hp.outcomes_post]
    simp [webhooks.outcomes]
  delivered := by
    rw [hp.outcomes_post]
    simp [webhooks.outcomes, ho]
  waits := by
    rw [hp.waits_post, pauses_succ attempt left]
    exact (List.prefix_append_right_inj _).mpr List.nil_prefix

/-- One POST before the others, that was not accepted. -/
theorem Served.again (hp : Paused attempt es₁) (ho : webhooks.accepted o = false)
    (h : Served url body signature (attempt + 1) left es x) :
    Served url body signature attempt (left + 1)
      (es₁ ++ ⟨.inr (.post url body signature), o⟩ :: es) x where
  calls := hp.calls_post h.calls
  most := by
    rw [hp.outcomes_post]
    exact Nat.succ_le_succ h.most
  last := by
    rw [hp.outcomes_post]
    intro o' ho'
    by_cases hnil : webhooks.outcomes es = []
    · simp [hnil] at ho'
    · rw [List.dropLast_cons_of_ne_nil hnil] at ho'
      rcases List.mem_cons.mp ho' with rfl | ho'
      · exact ho
      · exact h.last o' ho'
  delivered := by
    rw [hp.outcomes_post, h.delivered]
    cases hlast : webhooks.outcomes es with
    | nil => simp [ho]
    | cons o' os => rw [List.getLast?_cons_cons]
  waits := by
    rw [hp.waits_post, pauses_succ attempt left]
    exact (List.prefix_append_right_inj _).mpr h.waits

/-- The law of the loop, from any attempt on. -/
theorem attemptsFrom_trace {lastErr : String}
    (h : Trace (attemptsFrom url body signature left attempt lastErr) es x) :
    Served url body signature attempt left es x := by
  induction left generalizing attempt lastErr es with
  | zero =>
    cases h
    exact ⟨by simp, by simp [outcomes], by simp [outcomes], by simp [outcomes], by simp [waits]⟩
  | succ left ih =>
    unfold attemptsFrom at h
    obtain ⟨es₁, es₂, cancelled, rfl, hpause, h⟩ := trace_bind h
    have hp := pause_trace hpause
    cases cancelled with
    | true =>
      cases h
      rw [List.append_nil]
      exact hp.cancelled (by simp)
    | false =>
      obtain ⟨es₃, es₄, y, rfl, hpost, h⟩ := trace_bind h
      obtain ⟨o, rfl, ho⟩ := doPost_trace hpost
      cases y with
      | ok _ =>
        cases h
        exact hp.accepted (ho.mp rfl)
      | error e => exact Served.again hp (by simpa using mt ho.mpr (by simp)) (ih h)

end Serving

/-- What comes of a webhook. A payload that cannot be written is not sent. -/
def Called (tools : Tools) (hook : Webhook) (payload : Json) (es : Posts) (x : Except String Unit) :
    Prop :=
  match tools.marshal payload with
  | none => es = [] ∧ x ≠ .ok ()
  | some body => Served hook.url body (sign tools body hook.secret) 0 maxAttempts es x

theorem sendWebhook_trace {tools : Tools} {hook : Webhook} {payload : Json} {es : Posts}
    {x : Except String Unit} (h : Trace (sendWebhook tools hook.url hook.secret payload) es x) :
    Called tools hook payload es x := by
  unfold sendWebhook at h
  unfold Called
  split at h
  · rename_i hmarshal
    cases h
    exact ⟨rfl, by simp⟩
  · exact attemptsFrom_trace h

/-! ## The service with its POSTs, and the service above it -/

/-- The calls that stand for a call of the service. -/
def Stands (tools : Tools) : (c : Call) → Answer c → Posts → Prop
  | .work (.sendWebhook hook jobID downloadURL durationMs), x, es => ∃ expiresAt,
    Called tools hook (webhookPayload tools jobID downloadURL durationMs expiresAt) es x
  | c, x, es => es = [⟨.inl c, x⟩]

/-- A call that is no webhook. -/
def Plain : Call → Prop
  | .work (.sendWebhook _ _ _ _) => False
  | _ => True

variable {tools : Tools} {msg : QueueMessage Json} {payload : DeliveryPayload}

theorem stands_plain (c : Call) (x : Answer c) (hc : Plain c) : Stands tools c x [⟨.inl c, x⟩] := by
  cases c with
  | work w =>
    cases w with
    | sendWebhook => exact hc.elim
    | _ => exact rfl
  | _ => exact rfl

theorem ask_simulates {c : Call} (hc : Plain c) :
    Simulates (Stands tools) ((ask c).left : Web (Answer c)) (ask c) :=
  simulates_left (P := Plain) stands_plain ⟨hc, fun _ => trivial⟩

theorem publishEvent_simulates (jobID : String) :
    Simulates (Stands tools) ((publishEvent jobID).left : Web Unit) (publishEvent jobID) :=
  simulates_left (P := Plain) stands_plain ⟨trivial, fun _ => trivial⟩

theorem sendWebhooks_simulates (jobID downloadURL : String) (durationMs : Int) (expiresAt : Nat)
    (hooks : List Webhook) : Simulates (Stands tools)
      (sendWebhooks tools (webhookPayload tools jobID downloadURL durationMs expiresAt) hooks)
      (delivery.sendWebhooks jobID downloadURL durationMs hooks) := by
  induction hooks with
  | nil => exact simulates_done ()
  | cons hook hooks ih =>
    have hcall : Simulates (Stands tools)
        (sendWebhook tools hook.url hook.secret
          (webhookPayload tools jobID downloadURL durationMs expiresAt))
        (ask (.work (.sendWebhook hook jobID downloadURL durationMs))) :=
      simulates_ask (c := Call.work (.sendWebhook hook jobID downloadURL durationMs))
        fun run x h => ⟨expiresAt, sendWebhook_trace h⟩
    exact simulates_bind hcall fun _ => ih

theorem deliverWebhooks_simulates (userID jobID downloadURL : String) (durationMs : Int)
    (expiresAt : Nat) : Simulates (Stands tools)
      (deliverWebhooks tools userID (webhookPayload tools jobID downloadURL durationMs expiresAt))
      (delivery.deliverWebhooks userID jobID downloadURL durationMs) := by
  refine simulates_bind (ask_simulates (by trivial)) fun (rows : Except DbError (List Webhook)) => ?_
  cases rows with
  | error e => exact simulates_done ()
  | ok hooks => exact sendWebhooks_simulates jobID downloadURL durationMs expiresAt hooks

/-- The service with its POSTs carries out the service that calls a webhook in one step. -/
theorem process_simulates (tools : Tools) (msg : QueueMessage Json) (payload : DeliveryPayload) :
    SimulatesTry (Stands tools) (process tools msg payload) (delivery.process msg payload) := by
  refine simulatesTry_bind (simulatesTry_orGiveUp (ask_simulates (by trivial))) fun _ => ?_
  refine simulatesTry_bind (simulatesTry_lift (publishEvent_simulates _)) fun _ => ?_
  refine simulatesTry_bind (simulatesTry_orGiveUp (ask_simulates (by trivial))) fun downloadURL => ?_
  refine simulatesTry_bind (simulatesTry_orGiveUp (ask_simulates (by trivial))) fun job => ?_
  refine simulatesTry_bind (simulatesTry_lift (ask_simulates (by trivial))) fun completedAt => ?_
  refine simulatesTry_bind (simulatesTry_orGiveUp (ask_simulates (by trivial))) fun _ => ?_
  refine simulatesTry_bind (simulatesTry_lift (deliverWebhooks_simulates _ _ _ _ _)) fun _ => ?_
  exact simulatesTry_lift (publishEvent_simulates _)

/-! ## What a webhook is told -/

/-- Before the webhook is called, the job was completed with the link, and the webhook was found
among those of the user. -/
structure Told (msg : QueueMessage Json) (payload : DeliveryPayload)
    (h : List (Event Call Answer)) (hook : Webhook) (jobID downloadURL : String) (durationMs : Int) :
    Prop where
  jobID : jobID = msg.jobID
  link : (⟨0, .presign payload.outputFile, .ok downloadURL⟩ : Event Call Answer) ∈ h
  duration : ∃ job : Job, (⟨0, .query none (.job msg.jobID), .ok job⟩ : Event Call Answer) ∈ h ∧
    durationMs = job.durationMs
  completed : ∃ (completedAt n : Nat), (⟨0, .exec none
    (.setDownload msg.jobID .completed downloadURL completedAt), .ok n⟩ : Event Call Answer) ∈ h
  found : ∃ hooks : List Webhook, hook ∈ hooks ∧
    (⟨0, .query none (.webhooks payload.userID), .ok hooks⟩ : Event Call Answer) ∈ h

def Due (msg : QueueMessage Json) (payload : DeliveryPayload) (h : List (Event Call Answer)) :
    Call → Prop
  | .work (.sendWebhook hook jobID downloadURL durationMs) =>
    Told msg payload h hook jobID downloadURL durationMs
  | _ => True

theorem Told.later {h : List (Event Call Answer)} {e : Event Call Answer} {hook : Webhook}
    {jobID downloadURL : String} {durationMs : Int}
    (ht : Told msg payload h hook jobID downloadURL durationMs) :
    Told msg payload (e :: h) hook jobID downloadURL durationMs where
  jobID := ht.jobID
  link := List.mem_cons_of_mem _ ht.link
  duration := by
    obtain ⟨job, hmem, hduration⟩ := ht.duration
    exact ⟨job, List.mem_cons_of_mem _ hmem, hduration⟩
  completed := by
    obtain ⟨completedAt, n, hmem⟩ := ht.completed
    exact ⟨completedAt, n, List.mem_cons_of_mem _ hmem⟩
  found := by
    obtain ⟨hooks, hhook, hmem⟩ := ht.found
    exact ⟨hooks, hhook, List.mem_cons_of_mem _ hmem⟩

theorem sendWebhooks_follows {h : List (Event Call Answer)} {jobID downloadURL : String}
    {durationMs : Int} {hooks : List Webhook}
    (hhooks : ∀ hook ∈ hooks, Told msg payload h hook jobID downloadURL durationMs) :
    (delivery.sendWebhooks jobID downloadURL durationMs hooks).Follows 0 (Due msg payload)
      (fun _ _ => True) h := by
  induction hooks generalizing h with
  | nil => trivial
  | cons hook hooks ih =>
    refine ⟨hhooks hook List.mem_cons_self, fun _ => ih fun other hother => ?_⟩
    exact (hhooks other (List.mem_cons_of_mem _ hother)).later

theorem process_follows (msg : QueueMessage Json) (payload : DeliveryPayload) :
    (delivery.process msg payload).run.Follows 0 (Due msg payload) (fun _ _ => True) [] := by
  refine And.intro trivial fun (staged : Except DbError Nat) => ?_
  cases staged with
  | error e => trivial
  | ok _ =>
    refine And.intro trivial fun _ => And.intro trivial fun (link : Except String String) => ?_
    cases link with
    | error e => trivial
    | ok downloadURL =>
      refine And.intro trivial fun (row : Except DbError Job) => ?_
      cases row with
      | error e => trivial
      | ok job =>
        refine And.intro trivial fun (completedAt : Nat) => And.intro trivial
          fun (completed : Except DbError Nat) => ?_
        cases completed with
        | error e => trivial
        | ok n =>
          refine And.intro trivial fun (rows : Except DbError (List Webhook)) => ?_
          cases rows with
          | error e => exact ⟨trivial, fun _ => trivial⟩
          | ok hooks =>
            refine follows_bind (follows_bind (follows_mono (sendWebhooks_follows fun hook hhook => ?_)
              fun _ _ _ => ?_))
            · exact {
                jobID := rfl
                link := List.mem_of_getElem? (i := 4) rfl
                duration := ⟨job, List.mem_of_getElem? (i := 3) rfl, rfl⟩
                completed := ⟨completedAt, n, List.mem_of_getElem? (i := 1) rfl⟩
                found := ⟨hooks, hhook, List.mem_cons_self⟩ }
            · exact ⟨trivial, fun _ => trivial⟩

/-! ## The law -/

/-- The call of the service is among those before. -/
def Seen (before : Posts) (c : Call) (x : Answer c) : Prop :=
  (⟨.inl c, x⟩ : Sigma (Sum.elim Answer WebAnswer)) ∈ before

/-- What a POST may tell, and to whom: the job is completed with the link that was made for the
output, the webhook was found among those of the user, and its own secret signs the body. -/
structure Justified (tools : Tools) (msg : QueueMessage Json) (payload : DeliveryPayload)
    (before : Posts) (url : String) (body : List UInt8) (signature : String) (hook : Webhook)
    (downloadURL : String) (job : Job) : Prop where
  link : Seen before (.presign payload.outputFile) (.ok downloadURL)
  row : Seen before (.query none (.job msg.jobID)) (.ok job)
  completed : ∃ completedAt n : Nat,
    Seen before (.exec none (.setDownload msg.jobID .completed downloadURL completedAt)) (.ok n)
  found : ∃ hooks : List Webhook, hook ∈ hooks ∧
    Seen before (.query none (.webhooks payload.userID)) (.ok hooks)
  address : url = hook.url
  told : ∃ expiresAt,
    tools.marshal (webhookPayload tools msg.jobID downloadURL job.durationMs expiresAt) = some body
  signed : signature = sign tools body hook.secret

theorem seen_of_mem {before : Posts} {before' : List (Sigma Answer)}
    (h : Expands (Stands tools) before before') {c : Call} {x : Answer c} (hc : Plain c)
    (hmem : (⟨0, c, x⟩ : Event Call Answer) ∈
      (before'.map fun e => (⟨0, e.1, e.2⟩ : Event Call Answer)).reverse ++ []) : Seen before c x := by
  rw [List.append_nil, List.mem_reverse] at hmem
  obtain ⟨⟨c', x'⟩, hbefore, heq⟩ := List.mem_map.mp hmem
  obtain ⟨-, rfl, hanswer⟩ := (Event.mk.injEq ..).mp heq
  obtain rfl := eq_of_heq hanswer
  obtain ⟨run, hstands, hsub⟩ := expands_mem h hbefore
  refine hsub ?_
  have hrun : run = [⟨.inl c', x'⟩] := by
    cases c' with
    | work w =>
      cases w with
      | sendWebhook => exact hc.elim
      | _ => exact hstands
    | _ => exact hstands
  rw [hrun]
  exact List.mem_cons_self

/-- A POST is made only for a webhook, with its address and its secret. -/
theorem post_of_stands {c : Call} {x : Answer c} {first last : Posts} {url signature : String}
    {body : List UInt8} {o : Except String Nat}
    (h : Stands tools c x (first ++ ⟨.inr (.post url body signature), o⟩ :: last)) :
    ∃ hook jobID downloadURL durationMs expiresAt,
      c = .work (.sendWebhook hook jobID downloadURL durationMs) ∧ url = hook.url ∧
      tools.marshal (webhookPayload tools jobID downloadURL durationMs expiresAt) = some body ∧
      signature = sign tools body hook.secret := by
  have hother : ∀ y : Sigma (Sum.elim Answer WebAnswer), y.1 = .inl c →
      first ++ ⟨.inr (.post url body signature), o⟩ :: last = [y] → False := by
    intro y hy heq
    have hmem : (⟨.inr (.post url body signature), o⟩ : Sigma (Sum.elim Answer WebAnswer)) ∈ [y] :=
      heq ▸ List.mem_append_right _ List.mem_cons_self
    rw [← List.mem_singleton.mp hmem] at hy
    cases hy
  cases c with
  | work w =>
    cases w with
    | sendWebhook hook jobID downloadURL durationMs =>
      obtain ⟨expiresAt, hcalled⟩ := h
      refine ⟨hook, jobID, downloadURL, durationMs, expiresAt, rfl, ?_⟩
      unfold Called at hcalled
      split at hcalled
      · exact absurd hcalled.1 (by simp)
      · rename_i hmarshal
        rcases hcalled.calls _ (List.mem_append_right _ List.mem_cons_self) with heq | ⟨seconds, heq⟩
        · cases heq
          exact ⟨rfl, hmarshal, rfl⟩
        · cases heq
    | _ => exact (hother _ rfl h).elim
  | _ => exact (hother _ rfl h).elim

def adasTools : Tools where
  marshal _ := some [0x7B, 0x7D]
  hmac secret _ := secret
  rfc3339 _ := "2026-01-01T00:00:00Z"

def adasMessage : QueueMessage Json := ⟨"job-1", "trace-1", "", .null⟩

def adasHook : Webhook := ⟨"ada", "http://ada/hook", "k", true⟩

def adasJob : Job where
  id := "job-1"
  userID := "ada"
  stage := .delivering
  originalFile := "uploads/1.mp4"
  originalName := "1.mp4"
  durationMs := 1000
  voiceID := "v"
  style := "formal"
  language := "en"
  priority := 0
  audioPath := none
  outputFile := some "outputs/job-1.mp4"
  downloadURL := none
  shareToken := none
  errorMessage := none
  traceID := "trace-1"
  createdAt := 0
  updatedAt := 0
  completedAt := none

/-- The calls before the first POST. -/
def adasCalls : Posts :=
  [⟨.inl (.exec none (.setStage "job-1" .delivering)), (.ok 1 : Except DbError Nat)⟩,
    ⟨.inl (.notify "job:job-1:events"), (.ok () : Except String Unit)⟩,
    ⟨.inl (.presign "outputs/job-1.mp4"), (.ok "http://store/1" : Except String String)⟩,
    ⟨.inl (.query none (.job "job-1")), (.ok adasJob : Except DbError Job)⟩,
    ⟨.inl .clock, (5 : Nat)⟩,
    ⟨.inl (.exec none (.setDownload "job-1" .completed "http://store/1" 5)),
      (.ok 1 : Except DbError Nat)⟩,
    ⟨.inl (.query none (.webhooks "ada")), (.ok [adasHook] : Except DbError (List Webhook))⟩]

end recast_rules.webhooks
