-- Who sees a job. Every handler that takes the id of a job asks for its row
-- first, and a row of somebody else gives the answer of no row. Nothing else
-- is asked, and nothing is changed.
import RecastAi.GatewayJobs

open call_programs recast_rules.models recast_rules.pipeline

namespace recast_rules.gateway

/-- The job is missing, or somebody else owns it. -/
def NotOwned (claims : Claims) (jobID : String) (s : System) : Prop :=
  ∀ id job, uuidIn jobID = some id → s.db.job? id = some job → job.userID ≠ claims.userID

/-- What a handler answers then. It depends on the id and on the database's mood, and on no row. -/
def refusal (jobID : String) (o : Outcome) : Response :=
  if o.fails || (uuidIn jobID).isNone then writeErr 500 "internal server error"
  else writeErr 404 "job not found"

/-- The call reads a row outside of any transaction. -/
def Looks (_ : System) (c : Call) (_ : Outcome) : Prop := ∃ q, c = .query none q

/-! ## The check -/

section Check

variable {claims : Claims} {jobID : String} {s : System} {α : Type}

/-- The row that the check asks for. -/
theorem looked_up (hrole : claims.role ≠ roleAdmin) (hs : NotOwned claims jobID s) (o : Outcome)
    (f : Job → Handler Response) :
    ∃ k, (ownedJob claims jobID >>= f).finish = .call (.query none (.job jobID)) k ∧
      k (answerCall o s (.query none (.job jobID))).1 = .done (refusal jobID o) := by
  refine ⟨_, rfl, ?_⟩
  unfold refusal
  simp only [answerCall, answerQuery]
  cases ho : o.fails with
  | true => rfl
  | false =>
    cases hid : uuidIn jobID with
    | none =>
      have hrows : s.db.rows (.job jobID) = .error .failed := by
        simp only [Db.rows, hid]
      simp only [Bool.false_eq_true, if_false, hrows]
      rfl
    | some id =>
      cases hjob : s.db.job? id with
      | none =>
        have hrows : s.db.rows (.job jobID) = .error .noRows := by
          simp only [Db.rows, hid, hjob]
        simp only [Bool.false_eq_true, if_false, hrows]
        rfl
      | some job =>
        have hrows : s.db.rows (.job jobID) = .ok job := by
          simp only [Db.rows, hid, hjob]
        have hforeign : (decide (job.userID ≠ claims.userID) &&
            decide (claims.role ≠ roleAdmin)) = true := by
          simp [hs id job hid hjob, hrole]
        simp only [Bool.false_eq_true, if_false, hrows]
        change ((giveUpIf (decide (job.userID ≠ claims.userID) && decide (claims.role ≠ roleAdmin))
          (writeErr 404 "job not found") >>= fun _ => pure job) >>= f).finish = _
        rw [hforeign]
        rfl

/-- A run of a handler from its check on. -/
theorem refused_run (hrole : claims.role ≠ roleAdmin) (hs : NotOwned claims jobID s)
    (f : Job → Handler Response) (os : List Outcome) :
    run services os ((ownedJob claims jobID >>= f).finish, s) =
        (match os with
          | [] => ((ownedJob claims jobID >>= f).finish, s)
          | o :: _ => (.done (refusal jobID o), s)) ∧
      Meets services Looks os ((ownedJob claims jobID >>= f).finish, s) := by
  cases os with
  | nil => exact ⟨rfl, trivial⟩
  | cons o os =>
    obtain ⟨k, hk, hdone⟩ := looked_up hrole hs o f
    have hstate : (answerCall o s (.query none (.job jobID))).2 = s := rfl
    rw [hk]
    simp only [run, Meets, services, hdone, hstate]
    exact ⟨run_done services os _ s, ⟨_, rfl⟩, meets_done services Looks os _ s⟩

end Check

/-! ## The handlers -/

/-- The request is refused for what it is, or the job is asked for before anything else. -/
def AsksFirst (claims : Claims) (jobID : String) (p : Handler Response) : Prop :=
  (∃ resp, p.finish = .done resp) ∨ ∃ f, p.finish = (ownedJob claims jobID >>= f).finish

section AsksFirst

variable {claims : Claims} {jobID : String}

theorem asksFirst_owned (f : Job → Handler Response) :
    AsksFirst claims jobID (ownedJob claims jobID >>= f) := Or.inr ⟨f, rfl⟩

theorem asksFirst_giveUpIf {c : Bool} {resp : Response} {g : Unit → Handler Response}
    (h : AsksFirst claims jobID (g ())) : AsksFirst claims jobID (giveUpIf c resp >>= g) := by
  cases c with
  | true => exact Or.inl ⟨resp, rfl⟩
  | false => exact h

theorem asksFirst_someOr {β : Type} {x : Option β} {resp : Response} {g : β → Handler Response}
    (h : ∀ b, x = some b → AsksFirst claims jobID (g b)) :
    AsksFirst claims jobID (someOr x resp >>= g) := by
  cases x with
  | none => exact Or.inl ⟨resp, rfl⟩
  | some b => exact h b rfl

theorem asksFirst_authenticated {r : Request} (hr : r.claims = some claims)
    {g : Claims → Handler Response} (h : AsksFirst claims jobID (g claims)) :
    AsksFirst claims jobID (authenticated r >>= g) := by
  apply asksFirst_someOr
  intro claims' hr'
  rw [hr] at hr'
  injection hr' with hr'
  exact hr' ▸ h

end AsksFirst

theorem handle_asksFirst (h : JobHandler) (r : Request) {claims : Claims}
    (hr : r.claims = some claims) :
    ∃ p, h.handle r = Attempt.finish p ∧ AsksFirst claims (r.urlParam "id") p := by
  cases h with
  | updateTranscript =>
    refine ⟨_, rfl, asksFirst_authenticated hr (asksFirst_giveUpIf ?_)⟩
    exact asksFirst_someOr fun _ _ => asksFirst_giveUpIf (asksFirst_owned _)
  | _ =>
    refine ⟨_, rfl, asksFirst_authenticated hr ?_⟩
    exact asksFirst_giveUpIf (asksFirst_owned _)

/-! ## The law -/

/-- A user who is no admin gets the same answer for a job of somebody else as for one that is
not there, and in both cases nothing but a row is asked for and nothing is changed. -/
theorem a_foreign_job_looks_missing (h : JobHandler) (r : Request) (claims : Claims)
    (hr : r.claims = some claims) (hrole : claims.role ≠ roleAdmin) (s s' : System)
    (hs : NotOwned claims (r.urlParam "id") s) (hs' : NotOwned claims (r.urlParam "id") s')
    (os : List Outcome) :
    (run services os (h.handle r, s)).1 = (run services os (h.handle r, s')).1 ∧
      (run services os (h.handle r, s)).2 = s ∧ (run services os (h.handle r, s')).2 = s' ∧
        Meets services Looks os (h.handle r, s) ∧ Meets services Looks os (h.handle r, s') := by
  obtain ⟨p, hp, ⟨resp, hdone⟩ | ⟨f, hask⟩⟩ := handle_asksFirst h r hr
  · rw [hp, hdone]
    simp only [run_done]
    exact ⟨trivial, trivial, trivial, meets_done services Looks os resp s,
      meets_done services Looks os resp s'⟩
  · rw [hp, hask]
    obtain ⟨hrun, hmeets⟩ := refused_run hrole hs f os
    obtain ⟨hrun', hmeets'⟩ := refused_run hrole hs' f os
    rw [hrun, hrun']
    cases os with
    | nil => exact ⟨rfl, rfl, rfl, hmeets, hmeets'⟩
    | cons o os => exact ⟨rfl, rfl, rfl, hmeets, hmeets'⟩

/-- A finished job of `ada`. -/
def adasJob : Job where
  id := "6f9619ff-8b86-d011-b42d-00c04fc964ff"
  userID := "ada"
  stage := .completed
  originalFile := "uploads/talk.mp4"
  originalName := "talk.mp4"
  durationMs := 0
  voiceID := "nova"
  style := "formal"
  language := "en"
  priority := 0
  audioPath := none
  outputFile := some "output/final.mp4"
  downloadURL := none
  shareToken := none
  errorMessage := none
  traceID := "t"
  createdAt := 0
  updatedAt := 0
  completedAt := none

def noJobs : System := ⟨⟨[], [], [], []⟩, fun _ => .idle, 0, fun _ => none, [], []⟩

def withJob (job : Job) : System := { noJobs with db := { noJobs.db with jobs := [job] } }

def bobsRequest (jobID : String) : Request where
  claims := some ⟨"bob", "user"⟩
  urlParam k := if k = "id" then jobID else ""
  form := .error "file field is required"
  edits := none

theorem adas_job_looks_missing_to_bob :
    (run services [{}] (exportJob (bobsRequest adasJob.id), withJob adasJob)).1 =
      (run services [{}] (exportJob (bobsRequest adasJob.id), noJobs)).1 :=
  (a_foreign_job_looks_missing .exportJob (bobsRequest adasJob.id) ⟨"bob", "user"⟩ rfl (by decide)
    (withJob adasJob) noJobs
    (by
      intro id job _ hjob
      have hmem := List.mem_of_find?_eq_some hjob
      rw [List.mem_singleton.mp hmem]
      decide)
    (fun _ _ _ hjob => nomatch hjob) [{}]).1

end recast_rules.gateway
