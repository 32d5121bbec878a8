-- The changes of the gateway and the messages for them. Each handler changes
-- the database in one call and publishes in a later one, and it writes nothing
-- to `job_events` in between.
import RecastAi.GatewayOwners
import RecastAi.Histories

open call_programs recast_rules.models recast_rules.pipeline recast_rules.gateway

namespace recast_rules.atomicity

/-! ## Requests -/

inductive Task where
  | createJob (r : Request)
  | updateTranscript (r : Request)
  | regenerateSegment (r : Request)

def Task.handle : Task → Service Response
  | .createJob r => gateway.createJob r
  | .updateTranscript r => gateway.updateTranscript r
  | .regenerateSegment r => gateway.regenerateSegment r

abbrev Run := Config Call Answer System Response

def start (s : System) (tasks : List Task) : Run := ⟨⟨s, []⟩, tasks.map Task.handle⟩

abbrev Taken := Step Call Answer System Outcome

/-! ## Changes and messages -/

/-- A change calls for a message for the job, in the queue. -/
structure Change where
  jobID : String
  queue : String

/-- The job of the edits in a transaction. -/
def editedJob (pending : List (Nat × Statement)) : Option String :=
  pending.findSome? fun x => match x.2 with
    | .setText _ jobID _ => some jobID
    | _ => none

/-- The change that comes into the database with the call. -/
def change? (s : System) (c : Call) (o : Outcome) : Option Change :=
  match c with
  | .exec none (.insertJob job) =>
    match s.db.exec o.now (.insertJob job) with
    | .ok _ => if landed o then some ⟨job.id, ingestionQueue⟩ else none
    | .error _ => none
  | .exec none (.clearFlags segmentID jobID) =>
    match s.db.exec o.now (.clearFlags segmentID jobID) with
    | .ok (n, _) => if landed o && n ≠ 0 then some ⟨jobID, transcriptQueue⟩ else none
    | .error _ => none
  | .commit tx =>
    if landed o && !(s.sessions tx).aborted then
      (editedJob (s.sessions tx).pending).map (⟨·, transcriptQueue⟩)
    else none
  | _ => none

/-- The broker accepts the message that the change calls for. -/
def Announces (st : Taken) (change : Change) : Prop :=
  ∃ body msg, st.call = .publish change.queue (some body) ∧ landed st.outcome = true ∧
    decodeMessage body = some msg ∧ msg.jobID = change.jobID

/-- After the steps of the run: for each change of a request its message was accepted, or it is
an event that waits for the relay. -/
def Atomic (picks : List (Nat × Outcome)) (run : Run) : Prop :=
  ∀ st ∈ steps services picks run, ∀ change,
    change? st.shot.state st.call st.outcome = some change →
      (∃ st' ∈ steps services picks run, st'.thread = st.thread ∧ Announces st' change) ∨
        ∃ event ∈ (schedule services picks run).shot.state.db.jobEvents,
          event.jobID = change.jobID ∧ event.queueName = change.queue

/-- No change comes into the database. -/
def Unchanged (shot : Shot Call Answer System) (_ : Nat) (c : Call) (o : Outcome) : Prop :=
  change? shot.state c o = none

/-! ## No event is written -/

theorem exec_keeps_events {db db' : Db} {now n : Nat} {st : Statement}
    (h : db.exec now st = .ok (n, db')) (hnone : db.jobEvents = []) : db'.jobEvents = [] := by
  cases exec_done h with
  | deleted jobID id segments =>
    rw [hnone]
    rfl
  | _ => exact hnone

theorem execAll_keeps_events (pending : List (Nat × Statement)) {db : Db} (hnone : db.jobEvents = []) :
    (db.execAll pending).jobEvents = [] := by
  induction pending generalizing db with
  | nil => exact hnone
  | cons x pending ih =>
    unfold Db.execAll
    split
    · exact ih hnone
    · rename_i n db' h
      exact ih (exec_keeps_events h hnone)

theorem call_keeps_events (o : Outcome) {s : System} (c : Call) (hnone : s.db.jobEvents = []) :
    (answerCall o s c).2.db.jobEvents = [] := by
  rcases db_after o s c with h | ⟨st, n, -, h⟩ | ⟨k, -, -, h⟩
  · rw [h]
    exact hnone
  · exact exec_keeps_events h hnone
  · rw [h]
    exact execAll_keeps_events _ hnone

theorem run_keeps_events (picks : List (Nat × Outcome)) {run : Run}
    (hnone : run.shot.state.db.jobEvents = []) :
    (schedule services picks run).shot.state.db.jobEvents = [] := by
  induction picks generalizing run with
  | nil => exact hnone
  | cons pick picks ih =>
    apply ih
    rcases stepOf_cases services run pick with ⟨-, hsame⟩ | ⟨c, k, -, -, hshot⟩
    · rw [hsame]
      exact hnone
    · rw [hshot]
      exact call_keeps_events pick.2 c hnone

/-! ## The message comes last -/

def publishes : Call → Bool
  | .publish _ _ => true
  | _ => false

/-- Nothing was published so far. -/
def Silent (h : List (Event Call Answer)) : Prop := ∀ e ∈ h, publishes e.call = false

section Parts

variable {α β : Type}

/-- A part of a handler that publishes nothing. -/
def Quiet (p : Handler α) : Prop :=
  ∀ i h, Silent h →
    followsTry i (fun h _ => Silent h) (fun _ _ => True) (fun _ h => Silent h) h p

/-- A part that publishes only at its end. -/
def Last (p : Handler α) : Prop :=
  ∀ i h, Silent h → followsTry i (fun h _ => Silent h) (fun _ _ => True) (fun _ _ => True) h p

theorem silent_ask {c : Call} (hc : publishes c = false) (i : Nat) (h : List (Event Call Answer))
    (hs : Silent h) : (ask c).Follows i (fun h _ => Silent h) (fun _ h => Silent h) h :=
  ⟨hs, fun _ => List.forall_mem_cons.mpr ⟨hc, hs⟩⟩

theorem quiet_pure (a : α) : Quiet (pure a : Handler α) := fun _ _ hs => hs

theorem quiet_throw (resp : Response) : Quiet (throw resp : Handler α) := fun _ _ _ => trivial

theorem quiet_someOr (x : Option α) (resp : Response) : Quiet (someOr x resp) := by
  cases x with
  | none => exact quiet_throw resp
  | some a => exact quiet_pure a

theorem quiet_giveUpIf (b : Bool) (resp : Response) : Quiet (giveUpIf b resp) := by
  cases b with
  | true => exact quiet_throw resp
  | false => exact quiet_pure ()

theorem quiet_orGiveUp {ε : Type} {p : Service (Except ε α)} {r : ε → Response}
    (hp : ∀ i h, Silent h → p.Follows i (fun h _ => Silent h) (fun _ h => Silent h) h) :
    Quiet (p.orGiveUp r) := by
  intro i h hs
  apply followsTry_orGiveUp
  refine follows_mono (hp i h hs) fun x h hx => ?_
  cases x with
  | error e => trivial
  | ok a => exact hx

theorem quiet_lift {p : Service α}
    (hp : ∀ i h, Silent h → p.Follows i (fun h _ => Silent h) (fun _ h => Silent h) h) :
    Quiet (ExceptT.lift p) :=
  fun i h hs => followsTry_lift (hp i h hs)

theorem quiet_then {p : Handler α} {f : α → Handler β} (hp : Quiet p) (hf : ∀ a, Quiet (f a)) :
    Quiet (p >>= f) := by
  intro i h hs
  apply followsTry_bind
  refine follows_mono (hp i h hs) fun x h hx => ?_
  cases x with
  | error e => trivial
  | ok a => exact hf a i h hx

theorem last_then {p : Handler α} {f : α → Handler β} (hp : Quiet p) (hf : ∀ a, Last (f a)) :
    Last (p >>= f) := by
  intro i h hs
  apply followsTry_bind
  refine follows_mono (hp i h hs) fun x h hx => ?_
  cases x with
  | error e => trivial
  | ok a => exact hf a i h hx

/-- One call at the end, whatever it is. -/
theorem last_call {ε : Type} {p : Service (Except ε α)} {r : ε → Response} (b : β)
    (hp : ∀ i h, Silent h → p.Follows i (fun h _ => Silent h) (fun _ _ => True) h) :
    Last (p.orGiveUp r >>= fun _ => pure b) := by
  intro i h hs
  apply followsTry_bind
  apply followsTry_orGiveUp
  refine follows_mono (hp i h hs) fun x h _ => ?_
  cases x <;> trivial

theorem silent_last {c : Call} (i : Nat) (h : List (Event Call Answer)) (hs : Silent h) :
    (ask c).Follows i (fun h _ => Silent h) (fun _ _ => True) h := ⟨hs, fun _ => trivial⟩

theorem finish_follows {p : Handler Response} (hp : Last p) (i : Nat) :
    p.finish.Follows i (fun h _ => Silent h) (fun _ _ => True) [] :=
  follows_finish (hp i [] (List.forall_mem_nil _))

end Parts

theorem ownedJob_quiet (claims : Claims) (jobID : String) : Quiet (ownedJob claims jobID) := by
  unfold ownedJob
  apply quiet_then
  · exact quiet_orGiveUp (silent_ask rfl)
  intro job
  apply quiet_then (quiet_giveUpIf _ _)
  intro _
  exact quiet_pure job

theorem updateTexts_silent (tx : Conn) (jobID : String) (edits : List SegmentEdit) (i : Nat)
    (h : List (Event Call Answer)) (hs : Silent h) :
    (updateTexts tx jobID edits).Follows i (fun h _ => Silent h) (fun _ h => Silent h) h := by
  induction edits generalizing h with
  | nil => exact hs
  | cons seg segs ih =>
    unfold updateTexts
    split
    · exact hs
    · apply follows_bind
      refine follows_mono (silent_ask rfl i h hs) fun x h hx => ?_
      change Except DbError Nat at x
      cases x with
      | error e => exact hx
      | ok rows =>
        dsimp only
        split
        · exact hx
        · exact ih h hx

theorem saveEdits_quiet (jobID : String) (edits : List SegmentEdit) :
    Quiet (saveEdits jobID edits) := by
  unfold saveEdits
  apply quiet_then
  · exact quiet_orGiveUp (silent_ask rfl)
  intro tx
  apply quiet_then (quiet_lift (updateTexts_silent tx jobID edits))
  intro x
  cases x with
  | error resp =>
    apply quiet_then (quiet_lift (silent_ask rfl))
    intro _
    exact quiet_throw resp
  | ok u => exact quiet_orGiveUp (silent_ask rfl)

theorem createJob_last (r : Request) (i : Nat) :
    (gateway.createJob r).Follows i (fun h _ => Silent h) (fun _ _ => True) [] := by
  unfold gateway.createJob
  apply finish_follows
  apply last_then (quiet_someOr _ _)
  intro claims
  apply last_then
  · show Quiet (ExceptT.mk (.done (r.form.mapError (writeErr 400))))
    cases r.form with
    | error msg => exact quiet_throw _
    | ok form => exact quiet_pure form
  intro form
  apply last_then (quiet_giveUpIf _ _)
  intro _
  apply last_then (quiet_lift (silent_ask rfl))
  intro jobID
  apply last_then (quiet_lift (silent_ask rfl))
  intro traceID
  apply last_then
  · exact quiet_orGiveUp (silent_ask rfl)
  intro _
  apply last_then (quiet_lift (silent_ask rfl))
  intro now
  apply last_then
  · exact quiet_orGiveUp (silent_ask rfl)
  intro _
  exact last_call _ silent_last

theorem updateTranscript_last (r : Request) (i : Nat) :
    (gateway.updateTranscript r).Follows i (fun h _ => Silent h) (fun _ _ => True) [] := by
  unfold gateway.updateTranscript
  apply finish_follows
  apply last_then (quiet_someOr _ _)
  intro claims
  apply last_then (quiet_giveUpIf _ _)
  intro _
  apply last_then (quiet_someOr _ _)
  intro edits
  apply last_then (quiet_giveUpIf _ _)
  intro _
  apply last_then (ownedJob_quiet _ _)
  intro job
  apply last_then (saveEdits_quiet _ _)
  intro _
  apply last_then
  · exact quiet_orGiveUp (silent_ask rfl)
  intro segments
  apply last_then (quiet_lift (silent_ask rfl))
  intro _
  exact last_call _ silent_last

theorem regenerateSegment_last (r : Request) (i : Nat) :
    (gateway.regenerateSegment r).Follows i (fun h _ => Silent h) (fun _ _ => True) [] := by
  unfold gateway.regenerateSegment
  apply finish_follows
  apply last_then (quiet_someOr _ _)
  intro claims
  apply last_then (quiet_giveUpIf _ _)
  intro _
  apply last_then (ownedJob_quiet _ _)
  intro job
  apply last_then
  · exact quiet_orGiveUp (silent_ask rfl)
  intro rows
  apply last_then (quiet_giveUpIf _ _)
  intro _
  apply last_then
  · exact quiet_orGiveUp (silent_ask rfl)
  intro segment
  exact last_call _ silent_last

/-- No request makes a call after its publish. -/
theorem start_follows (s : System) (tasks : List Task) :
    AllFollow (fun _ h _ => Silent h) (fun _ _ _ => True) (start s tasks) := by
  refine allFollow_map fun i task _ => ?_
  cases task with
  | createJob r => exact createJob_last r i
  | updateTranscript r => exact updateTranscript_last r i
  | regenerateSegment r => exact regenerateSegment_last r i

/-! ## The law -/

/-- When a change has just come in, its message was not accepted and no event waits. -/
theorem a_change_stands_alone {s : System} {tasks : List Task} {before : List (Nat × Outcome)}
    {pick : Nat × Outcome} {st : Taken} {change : Change} (hnone : s.db.jobEvents = [])
    (hstep : stepOf (schedule services before (start s tasks)) pick = some st)
    (hchange : change? st.shot.state st.call st.outcome = some change) :
    ¬ Atomic (before ++ [pick]) (start s tasks) := by
  intro hatomic
  have hsteps : steps services (before ++ [pick]) (start s tasks) =
      steps services before (start s tasks) ++ [st] := by
    rw [steps_append]
    simp only [steps, hstep, Option.toList_some, List.append_nil]
  unfold Atomic at hatomic
  rw [hsteps] at hatomic
  rcases hatomic st (List.mem_append_right _ (List.mem_singleton_self st)) change hchange with
    ⟨st', hst', hthread, body, msg, hpublish, -⟩ | ⟨event, hevent, -⟩
  · rcases List.mem_append.mp hst' with hbefore | hlast
    · obtain ⟨e, he, hthread', hcall⟩ := logged_of_step hbefore
      rcases stepOf_cases services (schedule services before (start s tasks)) pick with
        ⟨hno, -⟩ | ⟨c, k, hth, hsome, -⟩
      · rw [hno] at hstep
        cases hstep
      · rw [hsome, Option.some.injEq] at hstep
        subst hstep
        have hfollow := allFollow_run (w := services) (start_follows s tasks) before _ _ hth
        have hsilent := hfollow.1 e (mem_own.mpr ⟨he, hthread'.trans hthread⟩)
        rw [hcall, hpublish] at hsilent
        cases hsilent
    · rw [List.mem_singleton.mp hlast] at hpublish
      rw [hpublish] at hchange
      cases hchange
  · have hempty : (start s tasks).shot.state.db.jobEvents = [] := hnone
    rw [run_keeps_events (before ++ [pick]) hempty] at hevent
    cases hevent

/-- From a database without events, state change and publish are atomic in every state of a run
just when no change comes into the database. -/
theorem changes_are_atomic_iff (s : System) (tasks : List Task) (picks : List (Nat × Outcome))
    (hnone : s.db.jobEvents = []) :
    (∀ before after, picks = before ++ after → Atomic before (start s tasks)) ↔
      Allowed services Unchanged picks (start s tasks) := by
  rw [allowed_iff_steps]
  constructor
  · intro hatomic st hst
    unfold Unchanged
    by_contra hchange
    obtain ⟨change, hchange⟩ := Option.ne_none_iff_exists'.mp hchange
    obtain ⟨before, pick, after, hpicks, hstep⟩ := pick_of_step hst
    apply a_change_stands_alone hnone hstep hchange
    apply hatomic (before ++ [pick]) after
    rw [hpicks, List.append_assoc]
    rfl
  · rintro hunchanged before after rfl st hst change hchange
    rw [steps_append] at hunchanged
    have hno := hunchanged st (List.mem_append_left _ hst)
    unfold Unchanged at hno
    rw [hno] at hchange
    cases hchange

/-! ## Two runs -/

def adasForm : Request where
  claims := some ⟨adasJob.id, "user"⟩
  urlParam _ := ""
  form := .ok ⟨[1], "talk.mp4", "nova", "", ""⟩
  edits := none

def outside : Nat × Outcome := (0, { fresh := adasJob.id })

/-- The upload of the video fails, and nothing has changed. -/
theorem a_failed_upload_is_atomic :
    (∀ before after, [outside, outside, (0, { fails := true })] = before ++ after →
      Atomic before (start noJobs [.createJob adasForm])) ↔
    Allowed services Unchanged [outside, outside, (0, { fails := true })]
      (start noJobs [.createJob adasForm]) :=
  changes_are_atomic_iff noJobs [.createJob adasForm] [outside, outside, (0, { fails := true })] rfl

set_option maxRecDepth 2000 in
/-- The gateway crashes after the insert of the job. -/
theorem a_crash_strands_the_job :
    ¬ ∀ (s : System) (tasks : List Task) (picks : List (Nat × Outcome)), s.db.jobEvents = [] →
      ∀ before after, picks = before ++ after → Atomic before (start s tasks) := by
  intro h
  have hstep : ∃ st change, stepOf (schedule services (List.replicate 4 outside)
      (start noJobs [.createJob adasForm])) outside = some st ∧
        change? st.shot.state st.call st.outcome = some change := by
    with_unfolding_all exact ⟨_, _, rfl, rfl⟩
  obtain ⟨st, change, hstep, hchange⟩ := hstep
  exact a_change_stands_alone rfl hstep hchange
    (h noJobs [.createJob adasForm] (List.replicate 4 outside ++ [outside]) rfl _ [] (by simp))

end recast_rules.atomicity
