-- What the relay of the outbox hands to the broker, held against the envelope
-- that the consumers read. The envelope's columns are stored beside the
-- payload, and the relay publishes the payload alone.
import RecastAi.Histories
import RecastAi.Models
import RecastAi.OutboxSafety

open call_programs py_text recast_rules.transcript recast_rules.models

namespace recast_rules.outbox

/-! ## The message -/

/-- The body that `tick` gives to `Publish`: `var msg json.RawMessage = p.payload`. -/
def relayed (p : Pending Json) : Json := p.payload

/-- A consumer reads the columns of the row from the message, and the payload of the event. -/
def Enveloped (p : Pending Json) : Prop :=
  decodeMessage (relayed p) = some ⟨p.jobID, p.traceID, p.attemptID, p.payload⟩

theorem sizeOf_value_lt {fields : List (Text × Json)} {f : Text × Json} (h : f ∈ fields) :
    sizeOf f.2 < sizeOf (Json.object fields) := by
  obtain ⟨key, v⟩ := f
  have hmem := List.sizeOf_lt_of_mem h
  simp only [Prod.mk.sizeOf_spec] at hmem
  simp only [Json.object.sizeOf_spec]
  omega

/-- The payload of a message is a part of it, unless the body is `null`. -/
theorem decoded_payload_ne {body : Json} {m : QueueMessage Json}
    (h : decodeMessage body = some m) (hp : m.payload = body) : body = .null ∧ m.jobID = "" := by
  unfold decodeMessage at h
  cases body with
  | null =>
    simp only [objectFields, Option.bind_eq_bind, Option.bind_some, Option.pure_def,
      stringField_absent (valuesAt_nil _), Option.some.injEq] at h
    exact ⟨rfl, h ▸ rfl⟩
  | object fields =>
    simp only [objectFields, Option.bind_eq_bind, Option.bind_some] at h
    obtain ⟨jobID, -, h⟩ := Option.bind_eq_some_iff.mp h
    obtain ⟨traceID, -, h⟩ := Option.bind_eq_some_iff.mp h
    obtain ⟨attemptID, -, h⟩ := Option.bind_eq_some_iff.mp h
    simp only [Option.pure_def, Option.some.injEq] at h
    subst h
    dsimp only at hp
    cases hlast : (valuesAt fields "payload").getLast? with
    | none =>
      rw [hlast] at hp
      cases hp
    | some v =>
      rw [hlast] at hp
      have hv : v ∈ valuesAt fields "payload" := List.mem_of_getLast? hlast
      unfold valuesAt at hv
      obtain ⟨f, hf, rfl⟩ := List.mem_map.mp hv
      have hlt := sizeOf_value_lt (List.mem_of_mem_filter hf)
      simp only [Option.getD_some] at hp
      rw [hp] at hlt
      exact absurd hlt (lt_irrefl _)
  | _ => simp [objectFields] at h

/-- A row of a job has no message that keeps its envelope. -/
theorem not_enveloped {p : Pending Json} (h : p.jobID ≠ "") : ¬ Enveloped p := by
  intro henv
  exact h (decoded_payload_ne henv rfl).2

/-! ## The rows have a job -/

def NamesJob {P : Type} : Call P → Prop
  | .insert _ jobID _ _ _ _ => jobID ≠ ""
  | _ => True

structure Named {P : Type} (db : Db P) : Prop where
  rows : ∀ r ∈ db.rows, r.jobID ≠ ""
  opened : ∀ x ∈ db.opened, x.2.jobID ≠ ""

section Names

variable {P : Type}

theorem named_answer {db : Db P} {o : Outcome} {c : Call P} (hc : NamesJob c) (h : Named db) :
    Named (answerDb o db c).2 := by
  cases c with
  | markPublished id =>
    simp only [answerDb]
    split
    · refine ⟨fun r hr => ?_, h.opened⟩
      rcases mem_updateRow hr with hr | ⟨r₀, h₀, -, rfl⟩
      · exact h.rows r hr
      · exact h.rows r₀ h₀
    · exact h
  | markFailure id cause =>
    simp only [answerDb]
    split
    · refine ⟨fun r hr => ?_, h.opened⟩
      rcases mem_updateRow hr with hr | ⟨r₀, h₀, -, rfl⟩
      · exact h.rows r hr
      · exact h.rows r₀ h₀
    · exact h
  | insert tx jobID attemptID queueName payload traceID =>
    refine ⟨h.rows, fun x hx => ?_⟩
    simp only [answerDb] at hx
    split at hx
    · exact h.opened x hx
    · rcases List.mem_append.mp hx with hx | hx
      · exact h.opened x hx
      · rw [List.mem_singleton.mp hx]
        exact hc
  | commit tx =>
    refine ⟨fun r hr => ?_, fun x hx => h.opened x (List.mem_of_mem_filter hx)⟩
    simp only [answerDb] at hr
    split at hr
    · rcases List.mem_append.mp hr with hr | hr
      · exact h.rows r hr
      · obtain ⟨x, hx, rfl⟩ := List.mem_map.mp hr
        exact h.opened x (List.mem_of_mem_filter hx)
    · exact h.rows r hr
  | rollback tx => exact ⟨h.rows, fun x hx => h.opened x (List.mem_of_mem_filter hx)⟩
  | _ => exact h

theorem txPublish_names (tx : Nat) (ev : Event P) :
    (txPublish tx ev).Only NamesJob fun _ => True := by
  unfold txPublish
  split
  · trivial
  · rename_i hchecked
    have hjob : ev.jobID ≠ "" := by
      intro hnone
      simp [hnone] at hchecked
    apply only_bind (Q := fun _ => True)
    · unfold attemptID
      split
      · exact ⟨trivial, fun _ => trivial⟩
      · trivial
    intro attempt _
    split
    · trivial
    · refine ⟨hjob, fun x => ?_⟩
      cases x <;> trivial

theorem produce_names (tx : Nat) (abandons : Bool) (evs : List (Event P)) :
    (produce tx abandons evs).Only NamesJob fun _ => True := by
  induction evs with
  | nil =>
    unfold produce
    split <;> exact ⟨trivial, fun _ => trivial⟩
  | cons ev evs ih =>
    apply only_bind (txPublish_names tx ev)
    intro x _
    cases x with
    | error e => exact ⟨trivial, fun _ => trivial⟩
    | ok u => exact ih

theorem publishBatch_names (batch : List (Pending P)) (n : Nat) :
    (publishBatch batch n).Only NamesJob fun _ => True := by
  induction batch generalizing n with
  | nil => trivial
  | cons p batch ih =>
    refine ⟨trivial, fun x => ?_⟩
    cases x with
    | error e => exact ⟨trivial, fun _ => ih n⟩
    | ok u =>
      refine ⟨trivial, fun y => ?_⟩
      cases y with
      | error e => exact ih n
      | ok u => exact ih (n + 1)

theorem relay_names (cfg : RelayConfig) (n : Nat) :
    (relay cfg n : Outbox P Unit).Only NamesJob fun _ => True := by
  unfold relay
  induction n with
  | zero => trivial
  | succ n ih =>
    apply only_bind (Q := fun _ => True)
    · rw [tick_eq]
      refine ⟨trivial, fun x => ?_⟩
      cases x with
      | error e => trivial
      | ok batch =>
        change Prog.Only NamesJob _ (publishBatch batch 0 >>= _)
        exact only_bind (publishBatch_names batch 0) fun _ _ => trivial
    · exact fun _ _ => ih

theorem prog_names (task : Task P) : task.prog.Only NamesJob fun _ => True := by
  cases task with
  | relay cfg ticks => exact relay_names cfg ticks
  | produce tx abandons events => exact produce_names tx abandons events

theorem named_run {db : Db P} (h : Named db) (tasks : List (Task P))
    (picks : List (Nat × Outcome)) :
    Named (schedule postgres picks (start db tasks)).shot.state := by
  have hfollow : AllFollow (fun _ _ c => NamesJob c) (fun _ _ _ => True) (start db tasks) :=
    allFollow_map fun _ task _ => follows_only (prog_names task) fun _ _ hc => hc
  exact invariant_of_due (w := postgres) (I := fun s => Named s.state)
    (fun s i c o hc hs => named_answer (o := o) (c := c) hc hs) hfollow h picks

end Names

/-! ## What is published is a row -/

/-- What a relay handed to the broker is in the table. -/
def PublishedKnown {P : Type} (s : Snap P) : Prop :=
  ∀ i p x, (⟨i, .publish p, x⟩ : call_programs.Event (Call P) Answer) ∈ s.log → Known s p

theorem published_run {P : Type} {db : Db P} (h : Unmarked db) (tasks : List (Task P))
    (picks : List (Nat × Outcome)) :
    PublishedKnown (schedule postgres picks (start db tasks)).shot := by
  have hstep : ∀ (s : Snap P) i c o, AnyChoice s i c o → Due s i c →
      Sound s ∧ PublishedKnown s →
      Sound (s.after postgres i c o) ∧ PublishedKnown (s.after postgres i c o) := by
    rintro s i c o - hdue ⟨hsound, hknown⟩
    refine ⟨sound_step hdue hsound, fun j p x hm => ?_⟩
    rcases Shot.mem_after.mp hm with hm | hm
    · obtain ⟨-, hc, -⟩ := call_programs.Event.mk.inj hm
      subst hc
      exact (hsound.claimed i p hdue).after
    · exact (hknown j p x hm).after
  refine (run_keeps (E := AnyChoice) hstep ⟨sound_start h tasks, ?_⟩ (allowed_true postgres picks _)).2
  intro i p x hm
  cases hm

/-! ## The law -/

/-- No relayed message keeps its envelope: whatever producers and relays run beside each other
over the table of the migration, a message that a relay handed to the broker does not read as the
columns of its row with the payload of its event. -/
theorem relayed_messages_lose_their_envelope (nextID : Nat) (tasks : List (Task Json))
    (picks : List (Nat × Outcome)) :
    ∀ e ∈ (schedule postgres picks (start ⟨[], [], nextID⟩ tasks)).shot.log,
      ∀ p, e.call = .publish p → ¬ Enveloped p := by
  intro e he p hcall
  have hnone : Named (⟨[], [], nextID⟩ : Db Json) :=
    ⟨fun _ h => (List.not_mem_nil h).elim, fun _ h => (List.not_mem_nil h).elim⟩
  have hnamed := named_run hnone tasks picks
  have hunmarked : Unmarked (⟨[], [], nextID⟩ : Db Json) :=
    ⟨List.nodup_nil, fun _ h => (List.not_mem_nil h).elim, fun _ h => (List.not_mem_nil h).elim,
      fun _ h => (List.not_mem_nil h).elim⟩
  obtain ⟨i, c, x⟩ := e
  dsimp only at hcall
  subst hcall
  obtain ⟨r, hr, rfl⟩ := List.mem_map.mp (published_run hunmarked tasks picks i p x he)
  exact not_enveloped (hnamed.rows r hr)

/-- The event of one stage of a job, which names its attempt. -/
def stageEvent : Event Json where
  jobID := "j"
  stageAttemptID := "a"
  queueName := "audio.queue"
  payload := some (.object [(text "audio_file", goString "k")])
  traceID := "t"

/-- Its row. -/
def stageRow : Pending Json :=
  ⟨1, "j", "a", "audio.queue", .object [(text "audio_file", goString "k")], "t"⟩

theorem the_row_of_a_stage_loses_its_envelope : ¬ Enveloped stageRow :=
  relayed_messages_lose_their_envelope 1 [.produce 0 false [stageEvent], .relay ⟨0, 0, 0⟩ 1]
    [(0, {}), (0, {}), (1, {}), (1, {})] ⟨1, .publish stageRow, .ok ()⟩ List.mem_cons_self
    stageRow rfl

/-- An event is written, claimed and published: its consumer reads neither the job nor the
attempt, and no payload. -/
theorem a_relayed_event_has_no_attempt :
    let s := (schedule postgres [(0, {}), (0, {}), (1, {}), (1, {})]
      (start ⟨[], [], 1⟩ [.produce 0 false [stageEvent], .relay ⟨0, 0, 0⟩ 1])).shot
    ∃ p x, (⟨1, .publish p, x⟩ : call_programs.Event (Call Json) Answer) ∈ s.log ∧
      p.jobID = "j" ∧ p.attemptID = "a" ∧
      decodeMessage (relayed p) = some ⟨"", "", "", .null⟩ ∧ ¬ Enveloped p := by
  intro s
  refine ⟨stageRow, .ok (), ?_, rfl, rfl, ?_, ?_⟩
  · exact List.mem_cons_self
  · rfl
  · intro h
    exact absurd (decoded_payload_ne h rfl).2 (by decide)

end recast_rules.outbox
