-- What a consumer is at, told by its history: the message that was delivered to
-- it, how far it has moved the job, and what it has published. From this, which
-- deliveries of a message come too late.
import RecastAi.DeliveryService
import RecastAi.MuxService
import RecastAi.TtsService
import RecastAi.VideoAnalyzer

open call_programs recast_rules.transcript recast_rules.models recast_rules.pipeline
open recast_rules.py

namespace recast_rules.deliveries

/-! ## Stages -/

/-- The place of a stage in the pipeline. -/
def rank : Stage → Nat
  | .uploaded => 0
  | .analyzing => 1
  | .analyzed => 2
  | .transcribing => 3
  | .transcribed => 4
  | .synthesizing => 5
  | .synthesized => 6
  | .muxing => 7
  | .muxed => 8
  | .delivering => 9
  | .completed => 10
  | .failed => 11

/-- The stage that a statement writes, and the parameter for the job. -/
def stageWrite : Statement → Option (String × Stage)
  | .setStage jobID stage => some (jobID, stage)
  | .setStageAndDuration jobID stage _ => some (jobID, stage)
  | .setOutput jobID stage _ => some (jobID, stage)
  | .setDownload jobID stage _ _ => some (jobID, stage)
  | _ => none

/-- The statement neither creates nor deletes a job. -/
def keepsJobs : Statement → Bool
  | .insertJob _ => false
  | .deleteJob _ => false
  | _ => true

/-- How far the job is, and 0 where there is no row. -/
def jobRank (db : pipeline.Db) (id : String) : Nat :=
  match db.job? id with
  | some job => rank job.stage
  | none => 0

theorem job_updateJob (db : pipeline.Db) (id : String) (f : Job → Job) (hid : ∀ j, (f j).id = j.id)
    (id' : String) :
    (db.updateJob id f).2.job? id' = (db.job? id').map fun j => if j.id = id then f j else j := by
  have hsame : ((fun j : Job => decide (j.id = id')) ∘ fun j => if j.id = id then f j else j) =
      fun j => decide (j.id = id') := by
    funext j
    simp only [Function.comp_apply]
    split
    · rw [hid]
    · rfl
  unfold Db.job? Db.updateJob
  rw [List.find?_map, hsame]

/-- The ranks after an update of one job. -/
theorem rank_updateJob (db : pipeline.Db) (id : String) (stage : Stage) (f : Job → Job)
    (hid : ∀ j, (f j).id = j.id) (hstage : ∀ j, (f j).stage = stage) (id' : String) :
    jobRank (db.updateJob id f).2 id' = jobRank db id' ∨
      id = id' ∧ jobRank (db.updateJob id f).2 id' = rank stage := by
  unfold jobRank
  rw [job_updateJob db id f hid]
  cases hjob : db.job? id' with
  | none => exact Or.inl rfl
  | some job =>
    have hjobid : job.id = id' := by
      unfold Db.job? at hjob
      simpa using List.find?_some hjob
    simp only [Option.map_some]
    by_cases h : job.id = id
    · right
      rw [if_pos h]
      exact ⟨h ▸ hjobid, congrArg rank (hstage job)⟩
    · left
      rw [if_neg h]

/-- A statement of a consumer leaves a rank alone, or it writes the stage of this job. -/
theorem rank_exec {db db' : pipeline.Db} {now n : Nat} {st : Statement}
    (h : db.exec now st = .ok (n, db')) (hkeeps : keepsJobs st = true) (id : String) :
    jobRank db' id = jobRank db id ∨ ∃ jobID stage, stageWrite st = some (jobID, stage) ∧
      uuidIn jobID = some id ∧ jobRank db' id = rank stage := by
  cases exec_done h with
  | inserted job jobs => cases hkeeps
  | deleted jobID id' segments => cases hkeeps
  | staged jobID stage id' f hst hid' hsame hstage =>
    have hwrite : stageWrite st = some (jobID, stage) := by
      rcases hst with rfl | ⟨_, rfl⟩ | ⟨_, rfl⟩ | ⟨_, _, rfl⟩ <;> rfl
    rcases rank_updateJob db id' stage f hsame hstage id with hrank | ⟨rfl, hrank⟩
    · exact Or.inl hrank
    · exact Or.inr ⟨jobID, stage, hwrite, hid', hrank⟩
  | shared jobID token id' f hsame hstage =>
    left
    unfold jobRank
    rw [job_updateJob db id' f hsame]
    cases db.job? id with
    | none => rfl
    | some job =>
      simp only [Option.map_some]
      split
      · rw [hstage]
      · rfl
  | segments rows => exact Or.inl rfl

theorem rank_execAll {pending : List (Nat × Statement)} {db : pipeline.Db}
    (hkeeps : ∀ x ∈ pending, keepsJobs x.2 = true) (id : String) :
    jobRank (db.execAll pending) id = jobRank db id ∨ ∃ x ∈ pending, ∃ jobID stage,
      stageWrite x.2 = some (jobID, stage) ∧ uuidIn jobID = some id ∧
        jobRank (db.execAll pending) id = rank stage := by
  induction pending generalizing db with
  | nil => exact Or.inl rfl
  | cons x pending ih =>
    have hrest := fun y hy => hkeeps y (List.mem_cons_of_mem x hy)
    unfold Db.execAll
    split
    · rcases ih hrest with h | ⟨y, hy, h⟩
      · exact Or.inl h
      · exact Or.inr ⟨y, List.mem_cons_of_mem x hy, h⟩
    · rename_i n db' hexec
      rcases ih hrest with h | ⟨y, hy, h⟩
      · rcases rank_exec hexec (hkeeps _ List.mem_cons_self) id with h' | ⟨jobID, stage, hst, hid, h'⟩
        · exact Or.inl (h.trans h')
        · exact Or.inr ⟨_, List.mem_cons_self, jobID, stage, hst, hid, h.trans h'⟩
      · exact Or.inr ⟨y, List.mem_cons_of_mem _ hy, h⟩

/-! ## Queues -/

/-- The first stage that the consumer of the queue writes. -/
def entry (queue : String) : Stage :=
  if queue = analyzer.transcriptQueue then .synthesized
  else if queue = tts.audioQueue then .muxing
  else if queue = mux.deliveryQueue then .delivering
  else .transcribed

/-- The job of a message, as the consumer of the queue reads it. -/
def jobOf (queue : String) (msg : Json) : Option String :=
  if queue = mux.audioQueue ∨ queue = delivery.deliveryQueue then
    decodeMessage msg >>= fun m => uuidIn m.jobID
  else
    match subscript msg "job_id" >>= idText with
    | .ok jobID => uuidIn jobID
    | .error _ => none

/-- `job_id` and `stage_attempt_id` of a message. -/
abbrev Pair := Option Json × Option Json

def pairOf (msg : Json) : Pair :=
  ((subscript msg "job_id").toOption, (subscript msg "stage_attempt_id").toOption)

/-! ## Positions -/

abbrev History := List (Event Call Answer)

/-- A consumer has no message, or it is at one and has moved its job at most that far, or it has
published for the one it has. -/
inductive Position where
  | off
  | on (queue : String) (msg : Json) (reached : Nat)
  | done (msg : Json)

def Position.message : Position → Option Json
  | .off => none
  | .on _ msg _ => some msg
  | .done msg => some msg

/-- The message that an answer delivers, with its tag. -/
def taken : (c : Call) → Answer c → Option (Nat × Json)
  | .receive _, x => x
  | _, _ => none

def Position.after (p : Position) (c : Call) (x : Answer c) : Position :=
  match c with
  | .receive queue =>
    match taken (.receive queue) x with
    | some (_, msg) => .on queue msg (rank (entry queue))
    | none => .off
  | .publish _ _ =>
    match p with
    | .on _ msg _ => .done msg
    | p => p
  | .exec _ st =>
    match stageWrite st, p with
    | some (_, stage), .on queue msg _ => .on queue msg (rank stage)
    | _, p => p
  | _ => p

def position : History → Position
  | [] => .off
  | e :: h => (position h).after e.call e.answer

/-- What a thread tried to publish, with the pair of the message that it had. -/
def outputs : History → List (Pair × Envelope)
  | [] => []
  | e :: h =>
    match e.call, (position h).message with
    | .publish queue (some body), some msg => (pairOf msg, ⟨queue, body⟩) :: outputs h
    | _, _ => outputs h

/-- Whether a stage waits for the commit of the connection. -/
def waits (conn : Conn) : History → Bool
  | [] => false
  | ⟨_, .exec (some k) st, x⟩ :: h =>
    match (x : Except DbError Nat) with
    | .ok _ => k = conn && (stageWrite st).isSome || waits conn h
    | .error _ => waits conn h
  | ⟨_, .commit k, _⟩ :: h => k ≠ conn && waits conn h
  | _ :: h => waits conn h

/-- The call uses no other connection. -/
def OwnConn (conn : Conn) : Call → Prop
  | .query (some k) _ => k = conn
  | .exec (some k) _ => k = conn
  | .commit k => k = conn
  | .rollback k => k = conn
  | .begin => False
  | _ => True

/-- What a consumer does for the message that it is at: it moves the job forward, and it
publishes once, for the same job. -/
structure Duty (conn : Conn) (h : History) (c : Call) : Prop where
  own : OwnConn conn c
  commit : waits conn h = true → c = .commit conn
  keeps : ∀ k st, c = .exec k st → keepsJobs st = true
  stage : ∀ k st jobID stage, c = .exec k st → stageWrite st = some (jobID, stage) →
    ∃ queue msg reached, position h = .on queue msg reached ∧ uuidIn jobID = jobOf queue msg ∧
      reached ≤ rank stage
  publish : ∀ queue' body, c = .publish queue' body →
    ∃ queue msg reached, position h = .on queue msg reached ∧ reached ≤ rank (entry queue') ∧
      ∀ b, body = some b → ∀ id, jobOf queue' b = some id → jobOf queue msg = some id

/-! ## Deliveries and what came of them -/

abbrev Snap := Shot Call Answer System

variable {s : Snap} {i j : Nat} {c : Call}

def At (s : Snap) (i : Nat) (queue : String) (msg : Json) : Prop :=
  ∃ reached, position (s.own i) = .on queue msg reached

/-- A message with the pair was delivered. -/
def Seen (s : Snap) (pair : Pair) : Prop :=
  ∃ e ∈ s.log, ∃ tag msg, taken e.call e.answer = some (tag, msg) ∧ pairOf msg = pair

/-- Something was published for the pair. -/
def Published (s : Snap) (pair : Pair) : Prop :=
  ∃ i x, (pair, x) ∈ outputs (s.own i) ∧ x ∈ s.state.accepted

/-- A message is delivered again only while no other consumer is at one with its pair, and
nothing was published for the pair. -/
def Unspent (s : Snap) (i : Nat) (c : Call) (o : Outcome) : Prop :=
  ∀ tag msg, taken c (services.answer o s.state c).1 = some (tag, msg) → Seen s (pairOf msg) →
    ¬ Published s (pairOf msg) ∧
      ∀ j queue msg', j ≠ i → At s j queue msg' → pairOf msg' ≠ pairOf msg

/-- A message is delivered again only while its job is not past the first stage that the consumer
writes. -/
def InTime (s : Snap) (_ : Nat) (c : Call) (o : Outcome) : Prop :=
  ∀ queue tag msg id, c = .receive queue →
    taken c (services.answer o s.state c).1 = some (tag, msg) → Seen s (pairOf msg) →
    jobOf queue msg = some id → jobRank s.state.db id ≤ rank (entry queue)

/-- No job moves back. -/
def Forward (s : Snap) (_ : Nat) (c : Call) (o : Outcome) : Prop :=
  ∀ id, jobRank s.state.db id ≤ jobRank (services.answer o s.state c).2.db id

/-! ## The history of a consumer after a step -/

theorem position_after (s : Snap) (i : Nat) (c : Call) (o : Outcome) :
    position ((s.after services i c o).own i) =
      (position (s.own i)).after c (services.answer o s.state c).1 := by
  rw [own_after_self]
  rfl

theorem own_of_other (s : Snap) (h : j ≠ i) (c : Call) (o : Outcome) :
    (s.after services i c o).own j = s.own j := own_after_ne services s (Ne.symm h) c o

theorem at_of_other (h : j ≠ i) {o : Outcome} {queue : String} {msg : Json} :
    At (s.after services i c o) j queue msg ↔ At s j queue msg := by
  unfold At
  rw [own_of_other s h]

/-- Only a delivery brings a consumer to a message, and after it has published it is not at it
any more. -/
theorem position_kept {p : Position} {x : Answer c} {queue : String} {msg : Json} {reached : Nat}
    (hnone : taken c x = none) (hpos : p.after c x = .on queue msg reached) :
    (∃ reached', p = .on queue msg reached') ∧ ∀ queue' body, c ≠ .publish queue' body := by
  unfold Position.after at hpos
  cases c with
  | receive q =>
    simp only [hnone] at hpos
    cases hpos
  | publish q body =>
    dsimp only at hpos
    split at hpos
    · cases hpos
    · rename_i hoff
      exact absurd hpos (hoff _ _ _)
  | exec k st =>
    refine ⟨?_, nofun⟩
    dsimp only at hpos
    split at hpos
    · rename_i heq
      cases hpos
      exact ⟨_, rfl⟩
    · exact ⟨_, hpos⟩
  | _ => exact ⟨⟨_, hpos⟩, nofun⟩

/-- A consumer that is at a message after a step was at it before, or it got it. -/
theorem at_after {o : Outcome} {queue : String} {msg : Json}
    (h : At (s.after services i c o) j queue msg) :
    (At s j queue msg ∧ (j = i → ∀ queue' body, c ≠ .publish queue' body)) ∨
      j = i ∧ c = .receive queue ∧
        ∃ tag, taken c (services.answer o s.state c).1 = some (tag, msg) := by
  by_cases hj : j = i
  · subst hj
    obtain ⟨reached, hpos⟩ := h
    rw [position_after] at hpos
    cases ht : taken c (services.answer o s.state c).1 with
    | none =>
      obtain ⟨hbefore, hpublish⟩ := position_kept ht hpos
      exact Or.inl ⟨hbefore, fun _ => hpublish⟩
    | some x =>
      obtain ⟨tag, msg'⟩ := x
      cases c with
      | receive queue' =>
        unfold Position.after at hpos
        simp only [ht, Position.on.injEq] at hpos
        obtain ⟨rfl, rfl, -⟩ := hpos
        exact Or.inr ⟨rfl, rfl, tag, rfl⟩
      | _ => cases ht
  · exact Or.inl ⟨(at_of_other hj).mp h, fun hji => absurd hji hj⟩

theorem message_kept {p : Position} {x : Answer c} {msg : Json} (hnone : taken c x = none)
    (h : (p.after c x).message = some msg) : p.message = some msg := by
  unfold Position.after at h
  cases c with
  | receive q =>
    simp only [hnone] at h
    cases h
  | publish q body => cases p <;> exact h
  | exec k st =>
    dsimp only at h
    split at h <;> exact h
  | _ => exact h

/-- The message that a consumer has was delivered to it. -/
theorem message_seen {h : History} {msg : Json} (hmsg : (position h).message = some msg) :
    ∃ e ∈ h, ∃ tag, taken e.call e.answer = some (tag, msg) := by
  induction h with
  | nil => cases hmsg
  | cons e h ih =>
    cases ht : taken e.call e.answer with
    | none =>
      obtain ⟨e', he', htag⟩ := ih (message_kept ht hmsg)
      exact ⟨e', List.mem_cons_of_mem e he', htag⟩
    | some x =>
      refine ⟨e, List.mem_cons_self, x.1, ?_⟩
      obtain ⟨i, c, y⟩ := e
      cases c with
      | receive queue' =>
        change ((position h).after (.receive queue') y).message = _ at hmsg
        change taken (.receive queue') y = _ at ht
        unfold Position.after at hmsg
        simp only [ht, Position.message, Option.some.injEq] at hmsg
        rw [ht, ← hmsg]
      | _ => cases ht

theorem seen_of_at {queue : String} {msg : Json} (h : At s i queue msg) : Seen s (pairOf msg) := by
  obtain ⟨reached, hpos⟩ := h
  obtain ⟨e, he, tag, ht⟩ := message_seen (congrArg Position.message hpos)
  exact ⟨e, (mem_own.mp he).1, tag, msg, ht, rfl⟩

theorem seen_after {pair : Pair} (h : Seen s pair) (i : Nat) (c : Call) (o : Outcome) :
    Seen (s.after services i c o) pair := by
  obtain ⟨e, he, htaken⟩ := h
  exact ⟨e, List.mem_cons_of_mem _ he, htaken⟩

/-! ## What was published -/

theorem output_seen {h : History} {pair : Pair} {x : Envelope} (hx : (pair, x) ∈ outputs h) :
    ∃ e ∈ h, ∃ tag msg, taken e.call e.answer = some (tag, msg) ∧ pairOf msg = pair := by
  induction h with
  | nil => cases hx
  | cons e h ih =>
    have hrest : (pair, x) ∈ outputs h → ∃ e' ∈ e :: h, ∃ tag msg,
        taken e'.call e'.answer = some (tag, msg) ∧ pairOf msg = pair := by
      intro hx
      obtain ⟨e', he', htaken⟩ := ih hx
      exact ⟨e', List.mem_cons_of_mem e he', htaken⟩
    unfold outputs at hx
    split at hx
    · rename_i msg hcall hmsg
      rcases List.mem_cons.mp hx with heq | hx
      · obtain ⟨e', he', tag, ht⟩ := message_seen hmsg
        exact ⟨e', List.mem_cons_of_mem e he', tag, msg, ht, (congrArg Prod.fst heq).symm⟩
      · exact hrest hx
    · exact hrest hx

theorem seen_of_published {pair : Pair} (h : Published s pair) : Seen s pair := by
  obtain ⟨i, x, hx, -⟩ := h
  obtain ⟨e, he, htaken⟩ := output_seen hx
  exact ⟨e, (mem_own.mp he).1, htaken⟩

theorem outputs_cons (e : Event Call Answer) (h : History) : outputs h ⊆ outputs (e :: h) := by
  intro x hx
  rw [outputs]
  split
  · exact List.mem_cons_of_mem _ hx
  · exact hx

theorem accepted_kept {x : Envelope} {s : System} (h : x ∈ s.accepted) (c : Call) (o : Outcome) :
    x ∈ (services.answer o s c).2.accepted := by
  change x ∈ (answerCall o s c).2.accepted
  rcases accepted_after o s c with hsame | ⟨queue, body, -, hmore⟩
  · rw [hsame]
    exact h
  · rw [hmore]
    exact List.mem_append_left _ h

theorem published_after {pair : Pair} (h : Published s pair) (i : Nat) (c : Call) (o : Outcome) :
    Published (s.after services i c o) pair := by
  obtain ⟨j, x, hx, haccepted⟩ := h
  refine ⟨j, x, ?_, accepted_kept haccepted c o⟩
  by_cases hj : j = i
  · subst hj
    rw [own_after_self]
    exact outputs_cons _ _ hx
  · rw [own_of_other s hj]
    exact hx

/-- What a consumer publishes for its message is published from then on, where it is accepted. -/
theorem published_now {queue : String} {body msg : Json} (o : Outcome)
    (hmsg : (position (s.own i)).message = some msg)
    (haccepted : ⟨queue, body⟩ ∈ (services.answer o s.state (.publish queue (some body))).2.accepted) :
    Published (s.after services i (.publish queue (some body)) o) (pairOf msg) := by
  refine ⟨i, ⟨queue, body⟩, ?_, haccepted⟩
  rw [own_after_self]
  unfold outputs
  simp only [hmsg, List.mem_cons, true_or]

end recast_rules.deliveries
