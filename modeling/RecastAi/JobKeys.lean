-- The keys that the rows of jobs name. Whatever the services do, a row names the video that the
-- gateway stored for it and an output of the mux service at most, and never the audio of a segment.
import RecastAi.ConsumerDuties
import RecastAi.GatewayJobs
import RecastAi.StageOrder

open call_programs py_text recast_rules.transcript recast_rules.models recast_rules.pipeline
open recast_rules.py recast_rules.gateway

namespace recast_rules.job_keys

/-! ## The rows -/

def videoKey (jobID name : String) : String := s!"uploads/{jobID}/{name}"

/-- A row names its video, and an output for its job if it names one. -/
structure Named (job : Job) : Prop where
  video : ∃ jobID name, job.originalFile = videoKey jobID name
  audio : job.audioPath = none
  output : ∀ file, job.outputFile = some file →
    ∃ jobID, uuidIn jobID = some job.id ∧ file = mux.outputKey jobID

def SafeStatement : Statement → Prop
  | .insertJob job => (∃ jobID name, job.originalFile = videoKey jobID name) ∧
      job.audioPath = none ∧ job.outputFile = none
  | .setOutput jobID _ file => file = mux.outputKey jobID
  | _ => True

def AllNamed (db : pipeline.Db) : Prop := ∀ job ∈ db.jobs, Named job

section Rows

variable {db db' : pipeline.Db}

theorem named_updateJob (h : AllNamed db) {id : String} {f : Job → Job}
    (hf : ∀ job ∈ db.jobs, job.id = id → Named (f job)) : AllNamed (db.updateJob id f).2 := by
  intro row hrow
  obtain ⟨job, hjob, rfl⟩ := List.mem_map.mp hrow
  split
  · rename_i hid
    exact hf job hjob hid
  · exact h job hjob

/-- An update that leaves the keys alone. -/
theorem named_kept (h : AllNamed db) {id : String} {f : Job → Job}
    (hid : ∀ job, (f job).id = job.id) (hvideo : ∀ job, (f job).originalFile = job.originalFile)
    (haudio : ∀ job, (f job).audioPath = job.audioPath)
    (houtput : ∀ job, (f job).outputFile = job.outputFile) : AllNamed (db.updateJob id f).2 := by
  refine named_updateJob h fun job hjob _ => ?_
  obtain ⟨hv, ha, ho⟩ := h job hjob
  exact ⟨(hvideo job).symm ▸ hv, (haudio job).trans ha, by rw [houtput, hid]; exact ho⟩

theorem named_exec (h : AllNamed db) {st : Statement} (hst : SafeStatement st) {now n : Nat}
    (hexec : db.exec now st = .ok (n, db')) : AllNamed db' := by
  cases st with
  | insertJob job =>
    change db.insertJob job = _ at hexec
    unfold Db.insertJob at hexec
    split at hexec
    · split at hexec
      · cases hexec
      · cases hexec
        intro row hrow
        rcases List.mem_append.mp hrow with hold | hnew
        · exact h row hold
        · obtain rfl := List.mem_singleton.mp hnew
          obtain ⟨hvideo, haudio, houtput⟩ := hst
          exact ⟨hvideo, haudio, fun file hfile => by cases houtput.symm.trans hfile⟩
    · cases hexec
  | setOutput jobID stage file =>
    obtain ⟨id, hid, hexec⟩ := withID_ok hexec
    cases hexec
    refine named_updateJob h fun job hjob hsame => ?_
    obtain ⟨hv, ha, -⟩ := h job hjob
    refine ⟨hv, ha, ?_⟩
    rintro file' ⟨⟩
    exact ⟨jobID, hid.trans (congrArg some hsame.symm), hst⟩
  | setStage jobID stage =>
    obtain ⟨id, -, hexec⟩ := withID_ok hexec
    cases hexec
    exact named_kept h (fun _ => rfl) (fun _ => rfl) (fun _ => rfl) fun _ => rfl
  | setStageAndDuration jobID stage durationMs =>
    obtain ⟨id, -, hexec⟩ := withID_ok hexec
    cases hexec
    exact named_kept h (fun _ => rfl) (fun _ => rfl) (fun _ => rfl) fun _ => rfl
  | setDownload jobID stage downloadURL completedAt =>
    obtain ⟨id, -, hexec⟩ := withID_ok hexec
    cases hexec
    exact named_kept h (fun _ => rfl) (fun _ => rfl) (fun _ => rfl) fun _ => rfl
  | setShareToken jobID token =>
    obtain ⟨id, -, hexec⟩ := withID_ok hexec
    split at hexec
    · cases hexec
    · cases hexec
      exact named_kept h (fun _ => rfl) (fun _ => rfl) (fun _ => rfl) fun _ => rfl
  | deleteJob jobID =>
    obtain ⟨id, -, hexec⟩ := withID_ok hexec
    cases hexec
    exact fun row hrow => h row (List.mem_filter.mp hrow).1
  | deleteSegments jobID =>
    obtain ⟨id, -, hexec⟩ := withID_ok hexec
    cases hexec
    exact h
  | _ =>
    cases exec_done hexec with
    | staged jobID stage id f hst => simp at hst
    | segments rows => exact h

theorem named_execAll {pending : List (Nat × Statement)} (h : AllNamed db)
    (hpending : ∀ x ∈ pending, SafeStatement x.2) : AllNamed (db.execAll pending) := by
  induction pending generalizing db with
  | nil => exact h
  | cons x pending ih =>
    have hrest := fun y hy => hpending y (List.mem_cons_of_mem x hy)
    unfold Db.execAll
    split
    · exact ih h hrest
    · rename_i n db' hexec
      exact ih (named_exec h (hpending x List.mem_cons_self) hexec) hrest

end Rows

/-! ## The calls -/

def Careful : Call → Prop
  | .exec _ st => SafeStatement st
  | _ => True

/-- The rows, and the statements that wait for a commit. -/
structure Kept (s : System) : Prop where
  rows : AllNamed s.db
  pending : ∀ conn, ∀ x ∈ (s.sessions conn).pending, SafeStatement x.2

/-- A statement waits that waited before, or the one of the call. -/
theorem pending_of {s : System} {c : Call} {o : Outcome} {conn : Conn} {x : Nat × Statement}
    (hx : x ∈ ((answerCall o s c).2.sessions conn).pending) :
    x ∈ (s.sessions conn).pending ∨ ∃ k, c = .exec (some k) x.2 := by
  by_cases hown : deliveries.OwnConn conn c
  · rcases deliveries.pending_after hown o s hx with ⟨hold, -⟩ | ⟨st, rfl, hst, -⟩
    · exact Or.inl hold
    · exact Or.inr ⟨conn, by rw [hst]⟩
  · left
    have hother : ∀ k, deliveries.OwnConn k c → k ≠ conn →
        (answerCall o s c).2.sessions conn = s.sessions conn :=
      fun k hk hne => deliveries.session_of_other hk hne.symm o s
    have hsame : (answerCall o s c).2.sessions conn = s.sessions conn := by
      cases c with
      | query k q =>
        cases k with
        | none => rfl
        | some k => exact hother k rfl hown
      | exec k st =>
        cases k with
        | none => exact absurd trivial hown
        | some k => exact hother k rfl hown
      | commit k => exact hother k rfl hown
      | rollback k => exact hother k rfl hown
      | begin => rfl
      | _ => exact absurd trivial hown
    exact hsame ▸ hx

theorem kept_call {s : System} {c : Call} (hc : Careful c) (o : Outcome) (h : Kept s) :
    Kept (answerCall o s c).2 where
  rows := by
    rcases db_after o s c with hdb | ⟨st, n, rfl, hexec⟩ | ⟨k, rfl, -, hdb⟩
    · rw [hdb]
      exact h.rows
    · exact named_exec h.rows hc hexec
    · rw [hdb]
      exact named_execAll h.rows (h.pending k)
  pending := by
    intro conn x hx
    rcases pending_of hx with hold | ⟨k, rfl⟩
    · exact h.pending conn x hold
    · exact hc

/-! ## The gateway -/

section Handlers

variable {R ε α β : Type}

/-- All calls of the program are careful. -/
def Tries (p : Attempt Call Answer R α) : Prop :=
  attemptOnly Careful (fun _ => True) (fun _ => True) p

theorem tries_then {p : Attempt Call Answer R α} {f : α → Attempt Call Answer R β} (h : Tries p)
    (hf : ∀ a, Tries (f a)) : Tries (p >>= f) := attempt_bind h fun a _ => hf a

theorem tries_orGiveUp {p : Service (Except ε α)} (h : p.Only Careful fun _ => True) (r : ε → R) :
    Tries (p.orGiveUp r) := by
  apply attempt_orGiveUp
  refine only_mono h (fun _ hc => hc) fun x _ => ?_
  cases x <;> trivial

theorem tries_lift {p : Service α} (h : p.Only Careful fun _ => True) :
    Tries (ExceptT.lift p : Attempt Call Answer R α) := attempt_lift h

theorem tries_giveUpIf (c : Bool) (r : R) : Tries (giveUpIf c r) := by
  cases c <;> trivial

theorem tries_someOr (x : Option α) (r : R) : Tries (someOr x r) := by
  cases x <;> trivial

theorem ownedJob_tries (claims : Claims) (jobID : String) : Tries (ownedJob claims jobID) := by
  unfold ownedJob
  apply tries_then (tries_orGiveUp (ask_only (by trivial)) _)
  intro job
  apply tries_then (tries_giveUpIf _ _)
  intro _
  trivial

/-- A handler for a job of the user. -/
theorem owned_careful (r : gateway.Request) {f : Claims → Job → Handler Response}
    (h : ∀ claims job, Tries (f claims job)) :
    Prog.Only Careful (fun _ => True) (Attempt.finish do
      let claims ← authenticated r
      requireID (r.urlParam "id")
      let job ← ownedJob claims (r.urlParam "id")
      f claims job) := by
  apply only_finish
  apply tries_then (tries_someOr _ _)
  intro claims
  apply tries_then (tries_giveUpIf _ _)
  intro _
  apply tries_then (ownedJob_tries claims _)
  intro job
  exact h claims job

theorem createJob_careful (r : gateway.Request) : (createJob r).Only Careful fun _ => True := by
  unfold createJob
  apply only_finish
  apply tries_then (tries_someOr _ _)
  intro claims
  apply tries_then
  · cases r.form <;> trivial
  intro form
  apply tries_then (tries_giveUpIf _ _)
  intro _
  apply tries_then (tries_lift (ask_only (by trivial)))
  intro jobID
  apply tries_then (tries_lift (ask_only (by trivial)))
  intro traceID
  apply tries_then (tries_orGiveUp (ask_only (by trivial)) _)
  intro _
  apply tries_then (tries_lift (ask_only (by trivial)))
  intro now
  apply tries_then (tries_orGiveUp (ask_only ⟨⟨jobID, _, rfl⟩, rfl, rfl⟩) _)
  intro _
  apply tries_then (tries_orGiveUp (ask_only (by trivial)) _)
  intro _
  trivial

theorem deleteObjects_careful (keys : List String) :
    (deleteObjects keys).Only Careful fun _ => True := by
  induction keys with
  | nil => trivial
  | cons key keys ih =>
    unfold deleteObjects
    split
    · exact ih
    · exact ⟨trivial, fun _ => ih⟩

theorem deleteJob_careful (r : gateway.Request) :
    (gateway.deleteJob r).Only Careful fun _ => True := by
  unfold gateway.deleteJob
  apply owned_careful
  intro claims job
  apply tries_then (tries_lift (deleteObjects_careful _))
  intro _
  apply tries_then (tries_orGiveUp (ask_only (by trivial)) _)
  intro _
  apply tries_then (tries_orGiveUp (ask_only (by trivial)) _)
  intro _
  trivial

theorem updateTexts_careful (tx : Conn) (jobID : String) (edits : List SegmentEdit) :
    (updateTexts tx jobID edits).Only Careful fun _ => True := by
  induction edits with
  | nil => trivial
  | cons seg segs ih =>
    unfold updateTexts
    split
    · trivial
    · refine ⟨trivial, fun x => ?_⟩
      cases x with
      | error e => trivial
      | ok rows =>
        change (if rows = 0 then
            (Prog.done (.error (writeErr 404 s!"segment {seg.id} not found in job")) :
              Service (Except Response Unit))
          else updateTexts tx jobID segs).Only Careful _
        split
        · trivial
        · exact ih

theorem saveEdits_tries (jobID : String) (edits : List SegmentEdit) :
    Tries (saveEdits jobID edits) := by
  unfold saveEdits
  apply tries_then (tries_orGiveUp (ask_only (by trivial)) _)
  intro tx
  apply tries_then (tries_lift (updateTexts_careful tx jobID edits))
  intro x
  cases x with
  | error resp =>
    apply tries_then (tries_lift (ask_only (by trivial)))
    intro _
    trivial
  | ok u => exact tries_orGiveUp (ask_only (by trivial)) _

theorem updateTranscript_careful (r : gateway.Request) :
    (gateway.updateTranscript r).Only Careful fun _ => True := by
  unfold gateway.updateTranscript
  apply only_finish
  apply tries_then (tries_someOr _ _)
  intro claims
  apply tries_then (tries_giveUpIf _ _)
  intro _
  apply tries_then (tries_someOr _ _)
  intro edits
  apply tries_then (tries_giveUpIf _ _)
  intro _
  apply tries_then (ownedJob_tries claims _)
  intro job
  apply tries_then (saveEdits_tries _ edits)
  intro _
  apply tries_then (tries_orGiveUp (ask_only (by trivial)) _)
  intro segments
  apply tries_then (tries_lift (ask_only (by trivial)))
  intro _
  apply tries_then (tries_orGiveUp (ask_only (by trivial)) _)
  intro _
  trivial

theorem regenerateSegment_careful (r : gateway.Request) :
    (gateway.regenerateSegment r).Only Careful fun _ => True := by
  unfold gateway.regenerateSegment
  apply only_finish
  apply tries_then (tries_someOr _ _)
  intro claims
  apply tries_then (tries_giveUpIf _ _)
  intro _
  apply tries_then (ownedJob_tries claims _)
  intro job
  apply tries_then (tries_orGiveUp (ask_only (by trivial)) _)
  intro rows
  apply tries_then (tries_giveUpIf _ _)
  intro _
  apply tries_then (tries_orGiveUp (ask_only (by trivial)) _)
  intro segment
  apply tries_then (tries_orGiveUp (ask_only (by trivial)) _)
  intro _
  trivial

theorem handle_careful (h : JobHandler) (r : gateway.Request) :
    (h.handle r).Only Careful fun _ => True := by
  cases h with
  | getJob => exact owned_careful r fun claims job => trivial
  | deleteJob => exact deleteJob_careful r
  | getTranscript =>
    apply owned_careful
    intro claims job
    apply tries_then (tries_orGiveUp (ask_only (by trivial)) _)
    intro segments
    trivial
  | updateTranscript => exact updateTranscript_careful r
  | regenerateSegment => exact regenerateSegment_careful r
  | createShare =>
    apply owned_careful
    intro claims job
    apply tries_then (tries_orGiveUp (ask_only (by trivial)) _)
    intro token
    apply tries_then (tries_orGiveUp (ask_only (by trivial)) _)
    intro _
    trivial
  | deleteShare =>
    apply owned_careful
    intro claims job
    apply tries_then (tries_orGiveUp (ask_only (by trivial)) _)
    intro _
    trivial
  | exportJob =>
    apply owned_careful
    intro claims job
    apply tries_then (tries_giveUpIf _ _)
    intro _
    apply tries_then (tries_someOr _ _)
    intro outputFile
    apply tries_then (tries_orGiveUp (ask_only (by trivial)) _)
    intro url
    trivial

theorem outputURL_careful (row : Job) : (outputURL row).Only Careful fun _ => True := by
  unfold outputURL
  split
  · trivial
  · split
    · trivial
    · refine ⟨trivial, fun x => ?_⟩
      cases x <;> trivial

theorem publicShare_careful (token : String) :
    (gateway.publicShare token).Only Careful fun _ => True := by
  unfold gateway.publicShare
  apply only_finish
  apply tries_then (tries_giveUpIf _ _)
  intro _
  apply tries_then (tries_orGiveUp (ask_only (by trivial)) _)
  intro row
  apply tries_then (tries_giveUpIf _ _)
  intro _
  apply tries_then (tries_orGiveUp (ask_only (by trivial)) _)
  intro segments
  apply tries_then (tries_lift (outputURL_careful row))
  intro url
  trivial

end Handlers

/-! ## The consumers -/

section Consumers

theorem analyzer_tries (repr : Json → Text) (conn : Conn) (msg : Json) :
    Tries (analyzer.processMessage repr conn msg) := by
  unfold analyzer.processMessage
  apply tries_then (raising_only _)
  intro jobID
  apply tries_then (raising_only _)
  intro traceID
  apply tries_then (raising_only _)
  intro payload
  apply tries_then (raising_only _)
  intro params
  apply tries_then (analyzer.downloadVideo_only (by trivial) (fun _ => by trivial) _)
  intro video
  apply tries_then (must_only (ask_only (by trivial)))
  intro probed
  apply tries_then (analyzer.existingDurationMs_only (by trivial))
  intro existing
  apply tries_then (must_only (ask_only (by trivial)))
  intro segments
  apply tries_then
    (analyzer.storeSegments_only (by trivial) (fun _ _ => by trivial) (by trivial) segments)
  intro _
  apply tries_then
  · unfold analyzer.updateJobStage
    apply tries_then
    · apply sql_only
      apply ask_only
      split <;> trivial
    intro _
    exact sql_only (ask_only (by trivial))
  intro _
  apply tries_then (tries_lift (ask_only (by trivial)))
  intro attemptID
  apply tries_then (must_only (ask_only (by trivial)))
  intro _
  apply tries_then (tries_lift (ask_only (by trivial)))
  intro _
  trivial

theorem analyzer_careful (repr : Json → Text) (conn : Conn) (n : Nat) :
    (analyzer.consume repr conn n).Only Careful fun _ => True := by
  induction n with
  | zero => trivial
  | succ n ih =>
    unfold analyzer.consume
    apply only_bind (Q := fun _ => True) (ask_only (by trivial))
    rintro (_ | ⟨tag, msg⟩) _
    · exact ih
    refine only_bind (Q := fun _ => True) ?_ fun _ _ => ih
    have hwork : Tries (analyzer.processMessage repr conn msg *> must (ask (.ack tag))) :=
      tries_then (analyzer_tries repr conn msg) fun _ => must_only (ask_only (by trivial))
    unfold analyzer.serve
    apply only_bind hwork
    intro x _
    cases x with
    | ok _ => trivial
    | error e => exact ⟨trivial, fun _ => ⟨trivial, fun _ => trivial⟩⟩

theorem makes_careful {conn : Conn} {ph : transactions.Phase} {c : Call}
    (h : tts.Makes conn ph c) : Careful c := by
  cases h with
  | speaks h => cases h <;> trivial
  | _ => trivial

theorem synthesis_careful (cfg : tts.Settings) (conn : Conn) (n : Nat) :
    (tts.consume cfg conn n).Only Careful fun _ => True := by
  induction n with
  | zero => trivial
  | succ n ih =>
    unfold tts.consume
    apply only_bind (Q := fun _ => True) (ask_only (by trivial))
    rintro (_ | ⟨tag, msg⟩) _
    · exact ih
    refine only_bind (Q := fun _ => True) ?_ fun _ _ => ih
    exact only_of_follows (tts.serve_follows cfg conn tag msg 0 (h := []) rfl)
      fun _ _ => makes_careful

theorem publishEvent_careful (jobID : String) :
    (consumers.publishEvent jobID).Only Careful fun _ => True := ⟨trivial, fun _ => trivial⟩

theorem mux_tries (body : Json) : Tries (mux.processMessage body) := by
  unfold mux.processMessage
  apply tries_then (tries_someOr _ _)
  intro msg
  apply tries_then (tries_someOr _ _)
  intro payload
  unfold mux.process
  apply tries_then (tries_orGiveUp (ask_only (by trivial)) _)
  intro _
  apply tries_then (tries_lift (publishEvent_careful _))
  intro _
  apply tries_then (tries_orGiveUp (ask_only (by trivial)) _)
  intro _
  apply tries_then (tries_orGiveUp (ask_only (by trivial)) _)
  intro video
  apply tries_then (tries_orGiveUp (ask_only (by trivial)) _)
  intro audio
  apply tries_then (tries_lift (publishEvent_careful _))
  intro _
  apply tries_then (tries_orGiveUp (ask_only (by trivial)) _)
  intro final
  apply tries_then (tries_lift (publishEvent_careful _))
  intro _
  apply tries_then (tries_orGiveUp (ask_only (by trivial)) _)
  intro _
  have houtput : Careful (.exec none (.setOutput msg.jobID .muxed (mux.outputKey msg.jobID))) := rfl
  apply tries_then (tries_orGiveUp (ask_only houtput) _)
  intro _
  apply tries_then (tries_orGiveUp (ask_only (by trivial)) _)
  intro job
  apply tries_then (tries_lift (ask_only (by trivial)))
  intro attemptID
  apply tries_then (tries_orGiveUp (ask_only (by trivial)) _)
  intro _
  exact tries_lift (publishEvent_careful _)

theorem sendWebhooks_careful (jobID downloadURL : String) (durationMs : Int)
    (hooks : List Webhook) :
    (delivery.sendWebhooks jobID downloadURL durationMs hooks).Only Careful fun _ => True := by
  induction hooks with
  | nil => trivial
  | cons hook hooks ih => exact ⟨trivial, fun _ => ih⟩

theorem delivery_tries (body : Json) : Tries (delivery.processMessage body) := by
  unfold delivery.processMessage
  apply tries_then (tries_someOr _ _)
  intro msg
  apply tries_then (tries_someOr _ _)
  intro payload
  unfold delivery.process
  apply tries_then (tries_orGiveUp (ask_only (by trivial)) _)
  intro _
  apply tries_then (tries_lift (publishEvent_careful _))
  intro _
  apply tries_then (tries_orGiveUp (ask_only (by trivial)) _)
  intro downloadURL
  apply tries_then (tries_orGiveUp (ask_only (by trivial)) _)
  intro job
  apply tries_then (tries_lift (ask_only (by trivial)))
  intro completedAt
  apply tries_then (tries_orGiveUp (ask_only (by trivial)) _)
  intro _
  apply tries_then
  · apply tries_lift
    refine ⟨trivial, fun x => ?_⟩
    cases x with
    | error e => trivial
    | ok hooks => exact sendWebhooks_careful _ _ _ hooks
  intro _
  exact tries_lift (publishEvent_careful _)

/-- The loop of the consumers in Go. -/
theorem go_careful {queue : String} {process : consumers.Process} (h : ∀ body, Tries (process body))
    (n : Nat) : (consumers.consume queue process n).Only Careful fun _ => True := by
  induction n with
  | zero => trivial
  | succ n ih =>
    unfold consumers.consume
    apply only_bind (Q := fun _ => True) (ask_only (by trivial))
    rintro (_ | ⟨tag, body⟩) _
    · exact ih
    refine only_bind (Q := fun _ => True) ?_ fun _ _ => ih
    unfold consumers.serve
    apply only_bind (h body)
    intro x _
    cases x with
    | ok _ => exact ⟨trivial, fun _ => trivial⟩
    | error e => exact ⟨trivial, fun _ => trivial⟩

end Consumers

/-! ## What the pipeline reaches -/

/-- The services: requests to the gateway, and rounds of the consumers. -/
inductive Party where
  | create (r : gateway.Request)
  | handler (h : JobHandler) (r : gateway.Request)
  | share (token : String)
  | consumer (c : deliveries.Consumer) (conn : Conn) (n : Nat)

def quietly (p : Service Response) : Service Unit := p >>= fun _ => .done ()

def Party.program : Party → Service Unit
  | .create r => quietly (createJob r)
  | .handler h r => quietly (h.handle r)
  | .share token => quietly (gateway.publicShare token)
  | .consumer c conn n => c.program conn n

theorem party_careful (party : Party) : party.program.Only Careful fun _ => True := by
  cases party with
  | create r => exact only_bind (createJob_careful r) fun _ _ => trivial
  | handler h r => exact only_bind (handle_careful h r) fun _ _ => trivial
  | share token => exact only_bind (publicShare_careful token) fun _ _ => trivial
  | consumer c conn n =>
    cases c with
    | analyzer repr => exact analyzer_careful repr conn n
    | synthesis cfg => exact synthesis_careful cfg conn n
    | mux => exact go_careful mux_tries n
    | delivery => exact go_careful delivery_tries n

/-- The state after some steps of the parties, in any order. -/
def reached (s : System) (parties : List Party) (picks : List (Nat × Outcome)) : System :=
  (schedule services picks ⟨⟨s, []⟩, parties.map Party.program⟩).shot.state

/-- A start without jobs and without open transactions. -/
structure Clean (s : System) : Prop where
  jobs : s.db.jobs = []
  sessions : ∀ conn, s.sessions conn = .idle

theorem kept_reached {s : System} (h : Clean s) (parties : List Party)
    (picks : List (Nat × Outcome)) : Kept (reached s parties picks) := by
  refine only_schedule (P := Careful) (I := Kept) (fun s c o hc hk => kept_call hc o hk) ?_ ?_ picks
  · intro p hp
    obtain ⟨party, -, rfl⟩ := List.mem_map.mp hp
    exact party_careful party
  · refine ⟨fun job hjob => ?_, fun conn x hx => ?_⟩
    · rw [h.jobs] at hjob
      cases hjob
    · rw [h.sessions] at hx
      cases hx

end recast_rules.job_keys
