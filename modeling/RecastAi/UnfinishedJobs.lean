-- What follows for the whole pipeline from an audio message without files. The mux service fails
-- on each of them at its download, so nothing is ever published for the delivery, and no job gets
-- an output, whatever the users and the services do.
import RecastAi.AssumedAnswers
import RecastAi.AudioHop
import RecastAi.GatewaySteps
import RecastAi.JobKeys
import RecastAi.Redelivery

open call_programs py_text recast_rules.transcript recast_rules.models recast_rules.pipeline
open recast_rules.py recast_rules.gateway
open recast_rules.deliveries (rank)
open recast_rules.job_keys (Party)

namespace recast_rules.unfinished_jobs

/-! ## What stays true -/

/-- A row that has come no further than to the mux service. -/
structure Unfinished (job : Job) : Prop where
  stage : rank job.stage ≤ rank .muxing
  output : job.outputFile = none
  download : job.downloadURL = none
  completed : job.completedAt = none

/-- The statement gives no job an output, a download or a stage after muxing. -/
def HarmlessStatement : Statement → Prop
  | .insertJob job => Unfinished job
  | .setStage _ stage => rank stage ≤ rank .muxing
  | .setStageAndDuration _ stage _ => rank stage ≤ rank .muxing
  | .setOutput _ _ _ => False
  | .setDownload _ _ _ _ => False
  | _ => True

def AudioMessage (body : Json) : Prop :=
  ∃ jobID traceID attemptID ids voiceID regenOnly,
    body = tts.audioMessage jobID traceID attemptID ids voiceID regenOnly

/-- What may lie in a queue. -/
def Queued (queue : String) (body : Json) : Prop :=
  queue ≠ delivery.deliveryQueue ∧ (queue = tts.audioQueue → AudioMessage body)

def isMuxed : Blob → Bool
  | .muxed _ _ => true
  | _ => false

structure Stuck (s : System) : Prop where
  rows : ∀ job ∈ s.db.jobs, Unfinished job
  pending : ∀ conn, ∀ x ∈ (s.sessions conn).pending, HarmlessStatement x.2
  queues : ∀ m ∈ s.accepted, Queued m.queue m.body
  objects : ∀ key blob, s.objects key = some blob → isMuxed blob = false

/-! ## Calls and their answers -/

def Harmless : Call → Prop
  | .exec _ st => HarmlessStatement st
  | .publish queue body => ∀ b, body = some b → Queued queue b
  | .upload _ blob => isMuxed blob = false
  | .presign _ => False
  | _ => True

/-- What the answers are while the state is stuck. -/
def Hopeless : (c : Call) → Answer c → Prop
  | .query _ (.job _), x => ∀ job : Job, x = .ok job → Unfinished job
  | .query _ (.jobByShareToken _), x => ∀ job : Job, x = .ok job → Unfinished job
  | .receive queue, x => ∀ tag body, x = some (tag, body) → Queued queue body
  | .download key, x => key = "" → ∃ e, x = .error e
  | _, _ => True

section Calls

variable {s : System} {db db' : pipeline.Db}

theorem unfinished_updateJob (h : ∀ job ∈ db.jobs, Unfinished job) {id : String} {f : Job → Job}
    (hf : ∀ job, Unfinished job → Unfinished (f job)) :
    ∀ job ∈ (db.updateJob id f).2.jobs, Unfinished job := by
  intro row hrow
  obtain ⟨job, hjob, rfl⟩ := List.mem_map.mp hrow
  split
  · exact hf job (h job hjob)
  · exact h job hjob

theorem unfinished_exec (h : ∀ job ∈ db.jobs, Unfinished job) {st : Statement}
    (hst : HarmlessStatement st) {now n : Nat} (hexec : db.exec now st = .ok (n, db')) :
    ∀ job ∈ db'.jobs, Unfinished job := by
  cases st with
  | insertJob job =>
    change db.insertJob job = _ at hexec
    unfold Db.insertJob at hexec
    split at hexec
    · split at hexec
      · cases hexec
      · cases hexec
        intro row hrow
        rcases List.mem_append.mp hrow with hold | hnew
        · exact h row hold
        · obtain rfl := List.mem_singleton.mp hnew
          exact ⟨hst.stage, hst.output, hst.download, hst.completed⟩
    · cases hexec
  | setStage jobID stage =>
    obtain ⟨id, -, hexec⟩ := withID_ok hexec
    cases hexec
    exact unfinished_updateJob h fun job hjob =>
      ⟨hst, hjob.output, hjob.download, hjob.completed⟩
  | setStageAndDuration jobID stage durationMs =>
    obtain ⟨id, -, hexec⟩ := withID_ok hexec
    cases hexec
    exact unfinished_updateJob h fun job hjob =>
      ⟨hst, hjob.output, hjob.download, hjob.completed⟩
  | setOutput jobID stage file => exact hst.elim
  | setDownload jobID stage url completedAt => exact hst.elim
  | setShareToken jobID token =>
    obtain ⟨id, -, hexec⟩ := withID_ok hexec
    split at hexec
    · cases hexec
    · cases hexec
      exact unfinished_updateJob h fun job hjob =>
        ⟨hjob.stage, hjob.output, hjob.download, hjob.completed⟩
  | deleteJob jobID =>
    obtain ⟨id, -, hexec⟩ := withID_ok hexec
    cases hexec
    exact fun row hrow => h row (List.mem_filter.mp hrow).1
  | deleteSegments jobID =>
    obtain ⟨id, -, hexec⟩ := withID_ok hexec
    cases hexec
    exact h
  | _ =>
    cases exec_done hexec with
    | staged jobID stage id f hst => simp at hst
    | segments rows => exact h

theorem unfinished_execAll {pending : List (Nat × Statement)} (h : ∀ job ∈ db.jobs, Unfinished job)
    (hpending : ∀ x ∈ pending, HarmlessStatement x.2) :
    ∀ job ∈ (db.execAll pending).jobs, Unfinished job := by
  induction pending generalizing db with
  | nil => exact h
  | cons x pending ih =>
    have hrest := fun y hy => hpending y (List.mem_cons_of_mem x hy)
    unfold Db.execAll
    split
    · exact ih h hrest
    · rename_i n db' hexec
      exact ih (unfinished_exec h (hpending x List.mem_cons_self) hexec) hrest

theorem objects_query (o : Outcome) (s : System) (k : Option Conn) (q : Query) :
    (answerQuery o s k q).2.objects = s.objects := by
  unfold answerQuery
  cases k with
  | none => rfl
  | some k =>
    dsimp only
    split
    · rfl
    · split
      · rfl
      · split <;> rfl

theorem objects_exec (o : Outcome) (s : System) (k : Option Conn) (st : Statement) :
    (answerExec o s k st).2.objects = s.objects := by
  cases k with
  | none =>
    rcases exec_alone_cases o s st with ⟨e, -, heq⟩ | ⟨n, db, -, heq | heq | heq⟩ <;> rw [heq]
  | some k =>
    unfold answerExec
    dsimp only
    split
    · rfl
    · split
      · rfl
      · split <;> rfl

theorem objects_commit (o : Outcome) (s : System) (k : Conn) :
    (answerCommit o s k).2.objects = s.objects := by
  unfold answerCommit
  split
  · rfl
  · dsimp only
    split <;> rfl

/-- An object is stored by its upload. -/
theorem objects_after (o : Outcome) (s : System) (c : Call) {key : String} {blob : Blob}
    (h : (answerCall o s c).2.objects key = some blob) :
    s.objects key = some blob ∨ c = .upload key blob := by
  cases c with
  | query k q => exact Or.inl (objects_query o s k q ▸ h)
  | exec k st => exact Or.inl (objects_exec o s k st ▸ h)
  | commit k => exact Or.inl (objects_commit o s k ▸ h)
  | publish queue body =>
    left
    cases body with
    | none => exact h
    | some body =>
      unfold answerCall at h
      dsimp only at h
      split at h <;> exact h
  | upload key' blob' =>
    unfold answerCall at h
    dsimp only at h
    split at h
    · exact Or.inl h
    · dsimp only at h
      split at h
      · unfold System.put at h
        dsimp only at h
        split at h
        · rename_i hkey
          cases h
          exact Or.inr (by rw [hkey])
        · exact Or.inl h
      · exact Or.inl h
  | deleteObject key' =>
    left
    unfold answerCall at h
    dsimp only at h
    split at h
    · unfold System.put at h
      dsimp only at h
      split at h
      · cases h
      · exact h
    · exact h
  | rollback k | ack tag | nack tag requeue =>
    left
    unfold answerCall at h
    dsimp only at h
    split at h <;> exact h
  | _ => exact Or.inl h

theorem stuck_call {c : Call} (hc : Harmless c) (o : Outcome) (h : Stuck s) :
    Stuck (answerCall o s c).2 where
  rows := by
    rcases db_after o s c with hdb | ⟨st, n, rfl, hexec⟩ | ⟨k, rfl, -, hdb⟩
    · rw [hdb]
      exact h.rows
    · exact unfinished_exec h.rows hc hexec
    · rw [hdb]
      exact unfinished_execAll h.rows (h.pending k)
  pending := by
    intro conn x hx
    rcases job_keys.pending_of hx with hold | ⟨k, rfl⟩
    · exact h.pending conn x hold
    · exact hc
  queues := by
    rcases accepted_after o s c with hsame | ⟨queue, body, rfl, hmore⟩
    · rw [hsame]
      exact h.queues
    · rw [hmore]
      intro m hm
      rcases List.mem_append.mp hm with hold | hnew
      · exact h.queues m hold
      · obtain rfl := List.mem_singleton.mp hnew
        exact hc body rfl
  objects := by
    intro key blob hblob
    rcases objects_after o s c hblob with hold | rfl
    · exact h.objects key blob hold
    · exact hc

theorem rows_of_answer {conn : Option Conn} {q : Query} {o : Outcome} {x : q.Row}
    (h : (answerQuery o s conn q).1 = .ok x) : s.db.rows q = .ok x := by
  unfold answerQuery at h
  cases conn with
  | none =>
    dsimp only at h
    split at h
    · cases h
    · exact h
  | some k =>
    dsimp only at h
    split at h
    · cases h
    · split at h
      · cases h
      · split at h
        · cases h
        · exact h

/-- The answers are without hope. -/
theorem hopeless_answer (c : Call) (o : Outcome) (h : Stuck s) :
    Hopeless c (answerCall o s c).1 := by
  cases c with
  | query k q =>
    cases q with
    | job jobID =>
      intro job hanswer
      obtain ⟨id, -, hjob⟩ := job_found (rows_of_answer hanswer)
      exact h.rows job (List.mem_of_find?_eq_some hjob)
    | jobByShareToken token =>
      intro job hanswer
      have hrows := rows_of_answer hanswer
      unfold Db.rows at hrows
      dsimp only at hrows
      split at hrows
      · cases hrows
      · split at hrows
        · cases hrows
        · rename_i found hfound
          cases hrows
          exact h.rows job (List.mem_of_find?_eq_some hfound)
    | _ => trivial
  | receive queue =>
    intro tag body hanswer
    exact h.queues _ (deliveries.received hanswer)
  | download key =>
    rintro rfl
    exact ⟨_, rfl⟩
  | _ => trivial

end Calls

/-! ## The gateway -/

/-- What is told of a job that is not finished. -/
def Linkless : Reply → Prop
  | .job job => Unfinished job
  | .publicShare job _ => job.outputURL = ""
  | .export _ _ => False
  | _ => True

section Handlers

variable {R α β : Type} {F : R → Prop} {Q : α → Prop}

/-- The program gets nowhere while the answers are without hope. -/
def Tries (F : R → Prop) (Q : α → Prop) (p : Attempt Call Answer R α) : Prop :=
  givenTry Hopeless Harmless F Q p

def Answers (resp : Response) : Prop := Linkless resp.body

theorem ask_given {c : Call} (h : Harmless c) : (ask c).Given Hopeless Harmless (Hopeless c) :=
  given_ask h

/-- A call of a handler that ends with an error when the call fails. -/
theorem tries_ask {ε : Type} {p : Service (Except ε α)} {G : Except ε α → Prop} {r : ε → Response}
    (h : p.Given Hopeless Harmless G) (hr : ∀ e, Answers (r e)) :
    Tries Answers (fun a => G (.ok a)) (p.orGiveUp r) :=
  givenTry_orGiveUp h (fun e _ => hr e) fun _ ha => ha

theorem tries_weaken {Q' : α → Prop} {p : Attempt Call Answer R α} (h : Tries F Q p)
    (hQ : ∀ a, Q a → Q' a) : Tries F Q' p := by
  refine given_mono h fun x hx => ?_
  cases x with
  | error e => exact hx
  | ok a => exact hQ a hx

theorem tries_lift {p : Service α} (h : p.Given Hopeless Harmless Q) :
    Tries F Q (ExceptT.lift p : Attempt Call Answer R α) := givenTry_lift h

theorem tries_giveUpIf (c : Bool) {r : Response} (hr : Answers r) :
    Tries Answers (fun _ => True) (giveUpIf c r) := givenTry_giveUpIf (fun _ => hr) fun _ => by trivial

theorem tries_someOr (x : Option α) {r : Response} (hr : Answers r) :
    Tries Answers (fun _ => True) (someOr x r) := givenTry_someOr (fun _ => hr) fun _ _ => trivial

theorem tries_then {p : Attempt Call Answer R α} {f : α → Attempt Call Answer R β} {Q' : β → Prop}
    (h : Tries F Q p) (hf : ∀ a, Q a → Tries F Q' (f a)) : Tries F Q' (p >>= f) :=
  givenTry_bind h hf

theorem ownedJob_tries (claims : Claims) (jobID : String) :
    Tries Answers Unfinished (ownedJob claims jobID) := by
  unfold ownedJob
  apply tries_then (tries_ask (ask_given (by trivial)) fun e => by cases e <;> trivial)
  intro job hjob
  apply tries_then (tries_giveUpIf _ (by trivial))
  intro _ _
  exact hjob job rfl

theorem owned_answers (r : gateway.Request) {f : Claims → Job → Handler Response}
    (h : ∀ claims job, Unfinished job → Tries Answers Answers (f claims job)) :
    Prog.Given Hopeless Harmless Answers (Attempt.finish do
      let claims ← authenticated r
      requireID (r.urlParam "id")
      let job ← ownedJob claims (r.urlParam "id")
      f claims job) := by
  apply given_finish
  apply tries_then (tries_someOr _ (by trivial))
  intro claims _
  apply tries_then (tries_giveUpIf _ (by trivial))
  intro _ _
  apply tries_then (ownedJob_tries claims _)
  intro job hjob
  exact h claims job hjob

theorem queued_of_ne {queue : String} {body : Json} (h : queue ≠ delivery.deliveryQueue)
    (h' : queue ≠ tts.audioQueue) : Queued queue body := ⟨h, fun heq => absurd heq h'⟩

theorem createJob_answers (r : gateway.Request) :
    (createJob r).Given Hopeless Harmless Answers := by
  unfold createJob
  apply given_finish
  apply tries_then (tries_someOr _ (by trivial))
  intro claims _
  apply tries_then (Q := fun _ => True)
  · cases r.form <;> trivial
  intro form _
  apply tries_then (tries_giveUpIf _ (by trivial))
  intro _ _
  apply tries_then (tries_lift (ask_given (by trivial)))
  intro jobID _
  apply tries_then (tries_lift (ask_given (by trivial)))
  intro traceID _
  apply tries_then (tries_ask (ask_given (by rfl)) fun _ => by trivial)
  intro _ _
  apply tries_then (tries_lift (ask_given (by trivial)))
  intro now _
  have hnew : ∀ key, Unfinished (newJob claims form jobID traceID key now) :=
    fun key => ⟨Nat.zero_le _, rfl, rfl, rfl⟩
  apply tries_then (tries_ask (ask_given (by exact hnew _)) fun _ => by trivial)
  intro _ _
  have hqueue : ∀ body, Harmless (.publish ingestionQueue body) :=
    fun _ _ _ => queued_of_ne (by decide) (by decide)
  apply tries_then (tries_ask (ask_given (hqueue _)) fun _ => by trivial)
  intro _ _
  exact hnew _

theorem deleteObjects_given (keys : List String) :
    (deleteObjects keys).Given Hopeless Harmless fun _ => True := by
  induction keys with
  | nil => trivial
  | cons key keys ih =>
    unfold deleteObjects
    split
    · exact ih
    · exact ⟨trivial, fun _ _ => ih⟩

theorem updateTexts_given (tx : Conn) (jobID : String) (edits : List SegmentEdit) :
    (updateTexts tx jobID edits).Given Hopeless Harmless
      fun x => ∀ resp, x = .error resp → Answers resp := by
  induction edits with
  | nil => exact fun resp h => by cases h
  | cons seg segs ih =>
    unfold updateTexts
    split
    · rintro resp ⟨⟩
      trivial
    · refine ⟨trivial, fun x _ => ?_⟩
      cases x with
      | error e =>
        rintro resp ⟨⟩
        trivial
      | ok rows =>
        change (if rows = 0 then
            (Prog.done (.error (writeErr 404 s!"segment {seg.id} not found in job")) :
              Service (Except Response Unit))
          else updateTexts tx jobID segs).Given Hopeless Harmless _
        split
        · rintro resp ⟨⟩
          trivial
        · exact ih

theorem saveEdits_tries (jobID : String) (edits : List SegmentEdit) :
    Tries Answers (fun _ => True) (saveEdits jobID edits) := by
  unfold saveEdits
  apply tries_then (tries_ask (ask_given (by trivial)) fun _ => by trivial)
  intro tx _
  apply tries_then (tries_lift (updateTexts_given tx jobID edits))
  intro x hx
  cases x with
  | error resp =>
    apply tries_then (tries_lift (ask_given (by trivial)))
    intro _ _
    exact hx resp rfl
  | ok u =>
    have hcommit : Harmless (.commit tx) := trivial
    exact tries_weaken (tries_ask (ask_given hcommit) fun _ => by trivial) fun _ _ => trivial

theorem publishTranscript_tries (jobID : String) (job : Job) (segments : List TranscriptSegment) :
    Tries Answers (fun _ => True) (publishTranscript jobID job segments) := by
  have hqueue : ∀ body, Harmless (.publish transcriptQueue body) :=
    fun _ _ _ => queued_of_ne (by decide) (by decide)
  unfold publishTranscript
  exact tries_weaken (tries_ask (ask_given (hqueue _)) fun _ => by trivial) fun _ _ => trivial

theorem deleteJob_answers (r : gateway.Request) :
    (gateway.deleteJob r).Given Hopeless Harmless Answers := by
  unfold gateway.deleteJob
  apply owned_answers
  intro claims job hjob
  apply tries_then (tries_lift (deleteObjects_given _))
  intro _ _
  apply tries_then (tries_ask (ask_given (by trivial)) fun _ => by trivial)
  intro _ _
  apply tries_then (tries_ask (ask_given (by trivial)) fun _ => by trivial)
  intro _ _
  trivial

theorem updateTranscript_answers (r : gateway.Request) :
    (gateway.updateTranscript r).Given Hopeless Harmless Answers := by
  unfold gateway.updateTranscript
  apply given_finish
  apply tries_then (tries_someOr _ (by trivial))
  intro claims _
  apply tries_then (tries_giveUpIf _ (by trivial))
  intro _ _
  apply tries_then (tries_someOr _ (by trivial))
  intro edits _
  apply tries_then (tries_giveUpIf _ (by trivial))
  intro _ _
  apply tries_then (ownedJob_tries claims _)
  intro job _
  apply tries_then (saveEdits_tries _ edits)
  intro _ _
  apply tries_then (tries_ask (ask_given (by trivial)) fun _ => by trivial)
  intro segments _
  have hstage : Harmless (.exec none (.setStage (r.urlParam "id") .transcribed)) := by
    change rank .transcribed ≤ rank .muxing
    decide
  apply tries_then (tries_lift (ask_given hstage))
  intro _ _
  apply tries_then (publishTranscript_tries _ job segments)
  intro _ _
  trivial

theorem regenerateSegment_answers (r : gateway.Request) :
    (gateway.regenerateSegment r).Given Hopeless Harmless Answers := by
  unfold gateway.regenerateSegment
  apply given_finish
  apply tries_then (tries_someOr _ (by trivial))
  intro claims _
  apply tries_then (tries_giveUpIf _ (by trivial))
  intro _ _
  apply tries_then (ownedJob_tries claims _)
  intro job _
  apply tries_then (tries_ask (ask_given (by trivial)) fun _ => by trivial)
  intro rows _
  apply tries_then (tries_giveUpIf _ (by trivial))
  intro _ _
  apply tries_then (tries_ask (ask_given (by trivial)) fun _ => by trivial)
  intro segment _
  apply tries_then (publishTranscript_tries _ job [segment])
  intro _ _
  trivial

theorem handle_answers (h : JobHandler) (r : gateway.Request) :
    (h.handle r).Given Hopeless Harmless Answers := by
  cases h with
  | getJob =>
    exact owned_answers r fun claims job hjob =>
      ⟨hjob.stage, hjob.output, hjob.download, hjob.completed⟩
  | deleteJob => exact deleteJob_answers r
  | getTranscript =>
    apply owned_answers
    intro claims job _
    apply tries_then (tries_ask (ask_given (by trivial)) fun _ => by trivial)
    intro segments _
    trivial
  | updateTranscript => exact updateTranscript_answers r
  | regenerateSegment => exact regenerateSegment_answers r
  | createShare =>
    apply owned_answers
    intro claims job _
    apply tries_then (tries_ask (ask_given (by trivial)) fun _ => by trivial)
    intro token _
    apply tries_then (tries_ask (ask_given (by trivial)) fun _ => by trivial)
    intro _ _
    trivial
  | deleteShare =>
    apply owned_answers
    intro claims job _
    apply tries_then (tries_ask (ask_given (by trivial)) fun _ => by trivial)
    intro _ _
    trivial
  | exportJob =>
    apply owned_answers
    intro claims job hjob
    -- the stage of the job is not `completed`, so the handler ends here
    have hstage : job.stage ≠ .completed := by
      intro heq
      have hrank := hjob.stage
      rw [heq] at hrank
      exact absurd hrank (by decide)
    apply tries_then (Q := fun _ => False)
    · apply givenTry_giveUpIf
      · exact fun _ => trivial
      · intro hnot
        simp [hstage] at hnot
    · exact fun _ hfalse => hfalse.elim

theorem publicShare_answers (token : String) :
    (gateway.publicShare token).Given Hopeless Harmless Answers := by
  unfold gateway.publicShare
  apply given_finish
  apply tries_then (tries_giveUpIf _ (by trivial))
  intro _ _
  apply tries_then (tries_ask (ask_given (by trivial)) fun e => by cases e <;> trivial)
  intro row hrow
  apply tries_then (tries_giveUpIf _ (by trivial))
  intro _ _
  apply tries_then (tries_ask (ask_given (by trivial)) fun _ => by trivial)
  intro segments _
  have hurl : (outputURL row).Given Hopeless Harmless fun url => url = "" := by
    unfold outputURL
    rw [(hrow row rfl).output]
    rfl
  apply tries_then (tries_lift hurl)
  rintro url rfl
  rfl

end Handlers

/-! ## The consumers -/

section Consumers

theorem analyzer_harmless (repr : Json → Text) (conn : Conn) (msg : Json) :
    attemptOnly Harmless (fun _ => True) (fun _ => True) (analyzer.processMessage repr conn msg) := by
  unfold analyzer.processMessage
  apply then_only (raising_only _)
  intro jobID
  apply then_only (raising_only _)
  intro traceID
  apply then_only (raising_only _)
  intro payload
  apply then_only (raising_only _)
  intro params
  apply then_only (analyzer.downloadVideo_only (by trivial) (fun _ => by trivial) _)
  intro video
  apply then_only (must_only (ask_only (by trivial)))
  intro probed
  apply then_only (analyzer.existingDurationMs_only (by trivial))
  intro existing
  apply then_only (must_only (ask_only (by trivial)))
  intro segments
  apply then_only
    (analyzer.storeSegments_only (by trivial) (fun _ _ => by trivial) (by trivial) segments)
  intro _
  apply then_only
  · unfold analyzer.updateJobStage
    apply then_only
    · apply sql_only
      apply ask_only
      split
      · change rank .transcribed ≤ rank .muxing
        decide
      · change rank .transcribed ≤ rank .muxing
        decide
    intro _
    exact sql_only (ask_only (by trivial))
  intro _
  apply then_only (attempt_lift (ask_only (by trivial)))
  intro attemptID
  have hqueue : ∀ body, Harmless (.publish analyzer.transcriptQueue body) :=
    fun _ _ _ => queued_of_ne (by decide) (by decide)
  apply then_only (must_only (ask_only (hqueue _)))
  intro _
  apply then_only (attempt_lift (ask_only (by trivial)))
  intro _
  trivial

theorem analyzer_given (repr : Json → Text) (conn : Conn) (n : Nat) :
    (analyzer.consume repr conn n).Given Hopeless Harmless fun _ => True := by
  apply given_of_only
  induction n with
  | zero => trivial
  | succ n ih =>
    unfold analyzer.consume
    apply only_bind (Q := fun _ => True) (ask_only (by trivial))
    rintro (_ | ⟨tag, msg⟩) _
    · exact ih
    refine only_bind (Q := fun _ => True) ?_ fun _ _ => ih
    unfold analyzer.serve
    apply only_bind (then_only (analyzer_harmless repr conn msg) fun _ =>
      must_only (ask_only (by trivial)))
    intro x _
    cases x with
    | ok _ => trivial
    | error e => exact ⟨trivial, fun _ => ⟨trivial, fun _ => trivial⟩⟩

theorem makes_harmless {conn : Conn} {ph : transactions.Phase} {c : Call}
    (h : tts.Makes conn ph c) : Harmless c := by
  cases h with
  | speaks h =>
    cases h with
    | upload jobID segmentID clip => rfl
    | _ => trivial
  | setStage jobID =>
    change rank .synthesized ≤ rank .muxing
    decide
  | publish jobID traceID attemptID ids voiceID regenOnly =>
    rintro body ⟨⟩
    exact ⟨by decide, fun _ => ⟨_, _, _, _, _, _, rfl⟩⟩
  | _ => trivial

theorem synthesis_given (cfg : tts.Settings) (conn : Conn) (n : Nat) :
    (tts.consume cfg conn n).Given Hopeless Harmless fun _ => True := by
  apply given_of_only
  induction n with
  | zero => trivial
  | succ n ih =>
    unfold tts.consume
    apply only_bind (Q := fun _ => True) (ask_only (by trivial))
    rintro (_ | ⟨tag, msg⟩) _
    · exact ih
    refine only_bind (Q := fun _ => True) ?_ fun _ _ => ih
    exact only_of_follows (tts.serve_follows cfg conn tag msg 0 (h := []) rfl)
      fun _ _ => makes_harmless

/-- The loop of the consumers in Go, where the work on what may lie in the queue is given. -/
theorem go_given {queue : String} {process : consumers.Process}
    (h : ∀ body, Queued queue body →
      givenTry Hopeless Harmless (fun _ => True) (fun _ => True) (process body)) (n : Nat) :
    (consumers.consume queue process n).Given Hopeless Harmless fun _ => True := by
  induction n with
  | zero => trivial
  | succ n ih =>
    unfold consumers.consume
    apply given_bind (ask_given (by trivial))
    rintro (_ | ⟨tag, body⟩) hreceived
    · exact ih
    refine given_bind (Q := fun _ => True) ?_ fun _ _ => ih
    unfold consumers.serve
    apply given_bind (h body (hreceived tag body rfl))
    intro x _
    cases x with
    | ok _ => exact ⟨trivial, fun _ _ => trivial⟩
    | error e => exact ⟨trivial, fun _ _ => trivial⟩

theorem publishEvent_given (jobID : String) :
    (consumers.publishEvent jobID).Given Hopeless Harmless fun _ => True :=
  ⟨trivial, fun _ _ => trivial⟩

/-- The work on a message without a video ends at its download. -/
theorem mux_given (msg : QueueMessage Json) {payload : AudioPayload}
    (h : payload.originalFile = "") :
    givenTry Hopeless Harmless (fun _ => True) (fun _ => True) (mux.process msg payload) := by
  unfold mux.process
  have hstage : Harmless (.exec none (.setStage msg.jobID .muxing)) := Nat.le_refl _
  apply givenTry_bind (givenTry_orGiveUp (ask_given hstage) (fun _ _ => trivial) fun _ h => h)
  intro _ _
  apply givenTry_bind (givenTry_lift (publishEvent_given _))
  intro _ _
  apply givenTry_bind
    (givenTry_orGiveUp (ask_given (by trivial)) (fun _ _ => trivial) fun _ h => h)
  intro _ _
  rw [h]
  have hdownload : Harmless (.download "") := trivial
  apply givenTry_bind (givenTry_orGiveUp (ask_given hdownload) (fun _ _ => trivial) fun _ h => h)
  intro video hvideo
  obtain ⟨e, he⟩ := hvideo rfl
  cases he

theorem muxQueue_given (body : Json) (h : Queued mux.audioQueue body) :
    givenTry Hopeless Harmless (fun _ => True) (fun _ => True) (mux.processMessage body) := by
  obtain ⟨jobID, traceID, attemptID, ids, voiceID, regenOnly, rfl⟩ := h.2 rfl
  unfold mux.processMessage
  apply givenTry_bind (givenTry_someOr (fun _ => trivial) fun _ h => h)
  intro msg hmsg
  apply givenTry_bind (givenTry_someOr (fun _ => trivial) fun _ h => h)
  intro payload hpayload
  rw [audio_hop.payload_without_files hmsg, Option.some.injEq] at hpayload
  exact mux_given msg (by rw [← hpayload])

theorem consumer_given (c : deliveries.Consumer) (conn : Conn) (n : Nat) :
    (c.program conn n).Given Hopeless Harmless fun _ => True := by
  cases c with
  | analyzer repr => exact analyzer_given repr conn n
  | synthesis cfg => exact synthesis_given cfg conn n
  | mux => exact go_given muxQueue_given n
  | delivery => exact go_given (fun _ h => absurd rfl h.1) n

end Consumers

/-! ## Every run -/

/-- The party, with its response where it is a request. -/
def answered : Party → Service (Option Response)
  | .create r => createJob r >>= fun resp => .done (some resp)
  | .handler h r => h.handle r >>= fun resp => .done (some resp)
  | .share token => gateway.publicShare token >>= fun resp => .done (some resp)
  | .consumer c conn n => c.program conn n >>= fun _ => .done none

def Unserved (x : Option Response) : Prop := ∀ resp, x = some resp → Answers resp

theorem answered_given (party : Party) : (answered party).Given Hopeless Harmless Unserved := by
  have hsome : ∀ resp, Answers resp → (Prog.done (some resp) : Service (Option Response)).Given
      Hopeless Harmless Unserved := by
    rintro resp h _ ⟨⟩
    exact h
  cases party with
  | create r => exact given_bind (createJob_answers r) hsome
  | handler h r => exact given_bind (handle_answers h r) hsome
  | share token => exact given_bind (publicShare_answers token) hsome
  | consumer c conn n =>
    refine given_bind (consumer_given c conn n) fun _ _ => ?_
    rintro resp ⟨⟩

/-- No job has come further than to the mux service, no output is stored, and nothing waits for
the mux service or behind it. -/
structure Before (s : System) : Prop where
  rows : ∀ job ∈ s.db.jobs, Unfinished job
  sessions : ∀ conn, s.sessions conn = .idle
  queues : ∀ m ∈ s.accepted, m.queue ≠ tts.audioQueue ∧ m.queue ≠ delivery.deliveryQueue
  objects : ∀ key blob, s.objects key = some blob → isMuxed blob = false

def reached (s : System) (parties : List Party) (picks : List (Nat × Outcome)) :
    Config Call Answer System (Option Response) :=
  schedule services picks ⟨⟨s, []⟩, parties.map answered⟩

/-- No job is finished, no output is stored, the delivery service gets no message and nothing makes
a link, and no response tells of a link. -/
structure NothingFinished (cfg : Config Call Answer System (Option Response)) : Prop where
  jobs : ∀ job ∈ cfg.shot.state.db.jobs, Unfinished job
  objects : ∀ key blob, cfg.shot.state.objects key = some blob → isMuxed blob = false
  published : ∀ m ∈ cfg.shot.state.accepted, m.queue ≠ delivery.deliveryQueue
  received : ∀ i x, (⟨i, .receive delivery.deliveryQueue, x⟩ : Event Call Answer) ∈ cfg.shot.log →
    x = none
  links : ∀ e ∈ cfg.shot.log, ∀ key, e.call ≠ .presign key
  responses : ∀ (i : Nat) (resp : Response), cfg.threads[i]? = some (.done (some resp)) → Answers resp

theorem no_job_is_ever_finished {s : System} (h : Before s) (parties : List Party)
    (picks : List (Nat × Outcome)) : NothingFinished (reached s parties picks) := by
  have hstart : AllGiven Hopeless Harmless Unserved Stuck
      (⟨⟨s, []⟩, parties.map answered⟩ : Config Call Answer System (Option Response)) := by
    refine ⟨⟨h.rows, ?_, ?_, h.objects⟩, ?_, fun _ he => absurd he List.not_mem_nil⟩
    · intro conn x hx
      rw [h.sessions] at hx
      cases hx
    · intro m hm
      obtain ⟨haudio, hdelivery⟩ := h.queues m hm
      exact queued_of_ne hdelivery haudio
    · intro p hp
      obtain ⟨party, -, rfl⟩ := List.mem_map.mp hp
      exact answered_given party
  have hend := allGiven_schedule (w := services) (fun s c o hc hs =>
    ⟨hopeless_answer c o hs, stuck_call hc o hs⟩) hstart picks
  refine ⟨hend.state.rows, hend.state.objects, fun m hm => (hend.state.queues m hm).1, ?_, ?_, ?_⟩
  · intro i x hx
    cases x with
    | none => rfl
    | some m => exact absurd rfl ((hend.log _ hx).2 m.1 m.2 rfl).1
  · rintro e he key hcall
    have hharmless := (hend.log e he).1
    rw [hcall] at hharmless
    exact hharmless
  · intro i resp hi
    exact hend.threads _ (List.mem_of_getElem? hi) resp rfl

/-! ## A run -/

/-- `ada`'s job, when the analyzer has published its transcript. -/
def adasTranscribedJob : Job :=
  { gateway.adasJob with stage := .transcribed, outputFile := none }

/-- Her transcript waits in its queue, and her video is stored. -/
def transcribed : System :=
  { audio_hop.waiting with db := { audio_hop.waiting.db with jobs := [adasTranscribedJob] } }

/-- The consumers behind the analyzer. -/
def behind : List Party :=
  [.consumer (.synthesis audio_hop.settings) (.worker 0) 1, .consumer .mux (.worker 1) 1,
    .consumer .delivery (.worker 2) 1]

/-- The synthesis publishes its audio message, the mux service takes it and fails, and the
delivery service finds nothing. -/
def adasPicks : List (Nat × Outcome) :=
  List.replicate 14 (deliveries.pick 0) ++ List.replicate 6 (deliveries.pick 1) ++
    [deliveries.pick 2]

theorem before_transcribed : Before transcribed where
  rows := by
    intro job hjob
    obtain rfl := List.mem_singleton.mp hjob
    exact ⟨by decide, rfl, rfl, rfl⟩
  sessions _ := rfl
  queues := by
    intro m hm
    obtain rfl := List.mem_singleton.mp hm
    exact ⟨by decide, by decide⟩
  objects := by
    intro key blob h
    change (if key = "uploads/talk.mp4" then some (Blob.file [1]) else none) = some blob at h
    split at h
    · cases h
      rfl
    · cases h

theorem adas_job_is_not_finished :
    (reached transcribed behind adasPicks).shot.state.accepted.map (·.queue) =
        [tts.transcriptQueue, tts.audioQueue] ∧
      NothingFinished (reached transcribed behind adasPicks) :=
  ⟨by decide +kernel, no_job_is_ever_finished before_transcribed behind adasPicks⟩

end recast_rules.unfinished_jobs
