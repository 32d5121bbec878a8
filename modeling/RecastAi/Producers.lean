-- The two producers of ingestion messages at once: `CreateJob` of the gateway
-- and `handleComplete` of the upload service. The gateway inserts the row of a
-- job before it publishes; the upload service makes up a job id and inserts
-- nothing.
import RecastAi.GatewayOwners
import RecastAi.Histories
import RecastAi.UploadOneJob

open call_programs recast_rules.models recast_rules.pipeline recast_rules.gateway

namespace recast_rules.producers

/-! ## The two services -/

abbrev Call := pipeline.Call ⊕ upload_service.Call

abbrev Answer : Call → Type := Sum.elim pipeline.Answer upload_service.Answer

abbrev Outcome := pipeline.Outcome × upload_service.Outcome

/-- The database and the rest of the pipeline, and what only the upload service uses. -/
abbrev State := System × upload_service.Uploads

def backends : World Call Answer State Outcome := services.both upload_service.backends

inductive Request where
  | create (r : gateway.Request)
  | complete (r : upload_service.Request)

abbrev Response := gateway.Response ⊕ upload_service.Response

def Request.handle (tables : upload_service.Unicode) : Request → Prog Call Answer Response
  | .create r => (createJob r >>= fun resp => .done (Sum.inl resp)).left
  | .complete r => (upload_service.handleComplete tables r >>= fun resp => .done (Sum.inr resp)).right

abbrev Run := Config Call Answer State Response

def start (tables : upload_service.Unicode) (s : State) (rs : List Request) : Run :=
  ⟨⟨s, []⟩, rs.map (Request.handle tables)⟩

/-! ## Messages and rows -/

/-- The user id in the payload of an ingestion message. -/
def payloadUser (payload : transcript.Json) : Option String :=
  objectFields payload >>= fun fields => stringField fields "user_id"

/-- The call publishes an ingestion message for the job and the user. -/
def Ingests : Call → String → String → Prop
  | .inl (.publish queue (some body)), jobID, userID =>
    queue = gateway.ingestionQueue ∧ ∃ m, decodeMessage body = some m ∧ m.jobID = jobID ∧
      payloadUser m.payload = some userID
  | .inr (.publish queue msg), jobID, userID =>
    queue = upload_service.ingestionQueue ∧ msg.jobID = jobID ∧ msg.payload.userID = userID
  | _, _, _ => False

def HasRow (db : Db) (jobID userID : String) : Prop :=
  ∃ row ∈ db.jobs, uuidIn jobID = some row.id ∧ uuidIn userID = some row.userID

abbrev Snap := Shot Call Answer State

/-- A message is published only where the row of its job is there. -/
def Backed (s : Snap) (_ : Nat) (c : Call) (_ : Outcome) : Prop :=
  ∀ jobID userID, Ingests c jobID userID → HasRow s.state.1.db jobID userID

/-- No completion of an upload comes to its publish. -/
def OnlyGateway (_ : Snap) (_ : Nat) (c : Call) (_ : Outcome) : Prop :=
  ∀ queue msg, c ≠ .inr (.publish queue msg)

/-! ## What the gateway does -/

abbrev History := List (Event Call Answer)

/-- The insert of the row was answered without an error. -/
def Inserted (h : History) (job : Job) : Prop :=
  ∃ i n, (⟨i, .inl (.exec none (.insertJob job)), .ok n⟩ : Event Call Answer) ∈ h

/-- The calls of `CreateJob`. -/
def creates : pipeline.Call → Bool
  | .newString => true
  | .upload _ _ => true
  | .clock => true
  | .exec none (.insertJob _) => true
  | .publish _ _ => true
  | _ => false

/-- The gateway creates and deletes nothing else, and its message follows its row. -/
def Due (h : History) : Call → Prop
  | .inl c => creates c = true ∧ ∀ jobID userID, Ingests (.inl c) jobID userID →
      ∃ job : Job, job.id = jobID ∧ job.userID = userID ∧ Inserted h job
  | .inr _ => True

/-- The job and the user of the message that `CreateJob` publishes. -/
theorem ingests_created {job : Job} {queue jobID userID : String}
    (h : Ingests (.inl (.publish queue
      ((ingestionMessage job).encode IngestionPayload.encode))) jobID userID) :
    job.id = jobID ∧ job.userID = userID := by
  cases hbody : (ingestionMessage job).encode IngestionPayload.encode with
  | none =>
    rw [hbody] at h
    exact h.elim
  | some body =>
    rw [hbody] at h
    obtain ⟨-, m, hm, hid, huser⟩ := h
    obtain ⟨p, hp, hdecode⟩ := decode_encode hbody
    rw [hdecode, Option.some.injEq] at hm
    subst hm
    refine ⟨hid, ?_⟩
    unfold IngestionPayload.encode at hp
    rw [Option.some.injEq] at hp
    subst hp
    unfold payloadUser at huser
    simp only [objectFields, Option.bind_eq_bind, Option.bind_some] at huser
    rw [stringField_written (s := job.userID)] at huser
    · exact Option.some.inj huser
    · simp [ingestionMessage, omitZero, valuesAt_cons, valuesAt_nil, py_text.text, foldKey]

theorem createJob_follows (i : Nat) (r : gateway.Request) :
    (createJob r).Follows i (fun h c => Due (h.map Event.left) (.inl c)) (fun _ _ => True) [] := by
  unfold createJob
  apply follows_finish
  apply followsTry_bind
  apply followsTry_someOr trivial
  intro claims _
  apply followsTry_bind
  cases r.form with
  | error msg => trivial
  | ok form =>
    apply followsTry_bind
    apply followsTry_giveUpIf trivial
    intro _
    apply followsTry_bind
    apply followsTry_lift
    refine ⟨⟨rfl, fun _ _ h => h.elim⟩, fun jobID => ?_⟩
    apply followsTry_bind
    apply followsTry_lift
    refine ⟨⟨rfl, fun _ _ h => h.elim⟩, fun traceID => ?_⟩
    apply followsTry_bind
    apply followsTry_orGiveUp
    refine ⟨⟨rfl, fun _ _ h => h.elim⟩, fun uploaded => ?_⟩
    cases uploaded with
    | error e => trivial
    | ok u =>
      apply followsTry_bind
      apply followsTry_lift
      refine ⟨⟨rfl, fun _ _ h => h.elim⟩, fun now => ?_⟩
      apply followsTry_bind
      apply followsTry_orGiveUp
      refine ⟨⟨rfl, fun _ _ h => h.elim⟩, fun inserted => ?_⟩
      cases inserted with
      | error e => trivial
      | ok n =>
        apply followsTry_bind
        apply followsTry_orGiveUp
        refine ⟨⟨rfl, fun jobID' userID' h => ?_⟩, fun published => ?_⟩
        · obtain ⟨hid, huser⟩ := ingests_created h
          exact ⟨_, hid, huser, i, n, List.mem_cons_self⟩
        · cases published <;> trivial

/-! ## What a step does to the rows -/

/-- Every row that was inserted is there. -/
def RowsThere (s : Snap) : Prop := ∀ job, Inserted s.log job → HasRow s.state.1.db job.id job.userID

theorem insertJob_ok {db db' : Db} {job : Job} {n : Nat} (h : db.insertJob job = .ok (n, db')) :
    HasRow db' job.id job.userID ∧ ∀ row ∈ db.jobs, row ∈ db'.jobs := by
  unfold Db.insertJob at h
  cases hid : uuidIn job.id with
  | none => simp [hid] at h
  | some id =>
    cases huser : uuidIn job.userID with
    | none => simp [hid, huser] at h
    | some userID =>
      simp only [hid, huser] at h
      split at h
      · cases h
      · simp only [Except.ok.injEq, Prod.mk.injEq] at h
        obtain ⟨-, rfl⟩ := h
        refine ⟨⟨{ job with id := id, userID := userID }, by simp, hid, huser⟩, ?_⟩
        intro row hrow
        exact List.mem_append_left _ hrow

/-- An insert outside of a transaction. Its answer tells that the row is there, and it takes no
row away. -/
theorem insert_row (o : pipeline.Outcome) (s : System) (job : Job) :
    (∀ row ∈ s.db.jobs, row ∈ (answerExec o s none (.insertJob job)).2.db.jobs) ∧
      ∀ n, (answerExec o s none (.insertJob job)).1 = .ok n →
        HasRow (answerExec o s none (.insertJob job)).2.db job.id job.userID := by
  rcases exec_alone_cases o s (.insertJob job) with ⟨e, -, hanswer⟩ | ⟨n, db, heffect, hanswer⟩
  · rw [hanswer]
    exact ⟨fun _ h => h, fun _ h => nomatch h⟩
  · obtain ⟨hrow, hkept⟩ := insertJob_ok heffect
    rcases hanswer with hanswer | hanswer | hanswer
    · rw [hanswer]
      exact ⟨hkept, fun _ _ => hrow⟩
    · rw [hanswer]
      exact ⟨hkept, fun _ h => nomatch h⟩
    · rw [hanswer]
      exact ⟨fun _ h => h, fun _ h => nomatch h⟩

/-- The calls of `CreateJob` take no row away. -/
theorem rows_kept {c : pipeline.Call} (hc : creates c = true) (o : pipeline.Outcome) (s : System)
    {row : Job} (h : row ∈ s.db.jobs) : row ∈ (answerCall o s c).2.db.jobs := by
  unfold creates at hc
  split at hc
  · exact h
  · rename_i key blob
    change row ∈ (if key = "" then _ else _ : _ × System).2.db.jobs
    split
    · exact h
    · change row ∈ (if landed o then s.put key (some blob) else s).db.jobs
      split <;> exact h
  · exact h
  · exact (insert_row o s _).1 row h
  · rename_i queue body
    cases body with
    | none => exact h
    | some body =>
      change row ∈ (if landed o then
        { s with accepted := s.accepted ++ [⟨queue, body⟩] } else s).db.jobs
      split <;> exact h
  · cases hc

theorem inserted_after {s : Snap} {i : Nat} {c : Call} {o : Outcome} {job : Job}
    (h : Inserted (s.after backends i c o).log job) :
    Inserted s.log job ∨ c = .inl (.exec none (.insertJob job)) ∧
      ∃ n, (answerExec o.1 s.state.1 none (.insertJob job)).1 = .ok n := by
  obtain ⟨j, n, hmem⟩ := h
  rcases Shot.mem_after.mp hmem with heq | hold
  · right
    injection heq with _ hcall hanswer
    subst hcall
    exact ⟨rfl, n, (eq_of_heq hanswer).symm⟩
  · exact Or.inl ⟨j, n, hold⟩

theorem rowsThere_step {s : Snap} {i : Nat} {c : Call} (o : Outcome) (hd : Due (s.own i) c)
    (hs : RowsThere s) : RowsThere (s.after backends i c o) := by
  intro job hjob
  rcases inserted_after hjob with hold | ⟨rfl, n, hn⟩
  · obtain ⟨row, hrow, hkeys⟩ := hs job hold
    refine ⟨row, ?_, hkeys⟩
    cases c with
    | inl c => exact rows_kept hd.1 o.1 s.state.1 hrow
    | inr c => exact hrow
  · exact (insert_row o.1 s.state.1 job).2 n hn

theorem backed_of_due {s : Snap} {i : Nat} {c : Call} {o : Outcome} (ho : OnlyGateway s i c o)
    (hd : Due (s.own i) c) (hs : RowsThere s) : Backed s i c o := by
  intro jobID userID hingest
  cases c with
  | inl c =>
    obtain ⟨job, rfl, rfl, j, n, hmem⟩ := hd.2 jobID userID hingest
    exact hs job ⟨j, n, (mem_own.mp hmem).1⟩
  | inr c =>
    cases c with
    | publish queue msg => exact absurd rfl (ho queue msg)
    | _ => exact hingest.elim

/-! ## The law -/

/-- Where no completion of an upload comes to its publish, every ingestion message is published
while the row of its job is there. -/
theorem ingestion_messages_have_their_job (tables : upload_service.Unicode) (s : State)
    (rs : List Request) (picks : List (Nat × Outcome))
    (hE : Allowed backends OnlyGateway picks (start tables s rs)) :
    Allowed backends Backed picks (start tables s rs) := by
  have hfollow : AllFollow (fun _ => Due) (fun _ _ _ => True) (start tables s rs) := by
    refine allFollow_map fun i r _ => ?_
    cases r with
    | create r =>
      have hcreate : (createJob r >>= fun resp => .done (Sum.inl resp : Response)).Follows i
          (fun h c => Due (h.map Event.left) (.inl c)) (fun _ _ => True) [] := by
        apply follows_bind
        exact follows_mono (createJob_follows i r) fun _ _ _ => trivial
      exact follows_left hcreate
    | complete r => exact follows_right (fun _ _ => trivial) _ _
  have hnone : RowsThere ⟨s, []⟩ := by
    rintro job ⟨i, n, hmem⟩
    cases hmem
  exact (allFollow_schedule (fun _ _ _ o _ hd hs => rowsThere_step o hd hs)
    (fun _ _ _ _ ho hd hs => backed_of_due ho hd hs) hfollow hnone hE).1

/-! ## Two runs -/

def aUUID : String := "6f9619ff-8b86-d011-b42d-00c04fc964ff"

def outside : Nat × Outcome := (0, { fresh := aUUID }, { fresh := aUUID })

/-- The message of the upload that is completed. -/
def uploadMessage : upload_service.QueueMessage where
  jobID := aUUID
  traceID := "trace"
  stageAttemptID := aUUID
  payload := ⟨"ada", "uploads/u/final.mp4", "v", "", "en"⟩

set_option maxRecDepth 2000 in
/-- A completed upload is published as a job that is in no table. -/
theorem a_completion_publishes_without_a_job :
    ¬ ∀ (tables : upload_service.Unicode) (s : State) (rs : List Request)
      (picks : List (Nat × Outcome)), Allowed backends Backed picks (start tables s rs) := by
  intro h
  have hrun := h upload_service.ascii (noJobs, upload_service.oneChunk)
    [.complete upload_service.completeRequest] (List.replicate 15 outside ++ [outside])
  have hstep := ((allowed_append _ _ _ _ _).mp hrun).2.1
  have hthread : ∃ k, (schedule backends (List.replicate 15 outside) (start upload_service.ascii
      (noJobs, upload_service.oneChunk) [.complete upload_service.completeRequest])).threads[0]? =
        some (.call (.inr (.publish "ingestion.queue" uploadMessage)) k) := by
    with_unfolding_all exact ⟨_, rfl⟩
  obtain ⟨k, hk⟩ := hthread
  simp only [StepMeets, outside] at hstep hk
  rw [hk] at hstep
  obtain ⟨row, hrow, _⟩ := hstep aUUID "ada" ⟨rfl, rfl, rfl⟩
  have hjobs : (schedule backends (List.replicate 15 outside) (start upload_service.ascii
      (noJobs, upload_service.oneChunk)
        [.complete upload_service.completeRequest])).shot.state.1.db.jobs = [] := by
    with_unfolding_all rfl
  simp only [outside] at hjobs
  rw [hjobs] at hrow
  cases hrow

def adasForm : gateway.Request where
  claims := some ⟨aUUID, "user"⟩
  urlParam _ := ""
  form := .ok ⟨[1], "talk.mp4", "nova", "", ""⟩
  edits := none

theorem adas_message_has_its_job :
    Allowed backends Backed (List.replicate 7 outside)
      (start upload_service.ascii (noJobs, upload_service.empty) [.create adasForm]) := by
  apply ingestion_messages_have_their_job
  with_unfolding_all exact ⟨nofun, nofun, nofun, nofun, nofun, nofun, trivial, trivial⟩

end recast_rules.producers
