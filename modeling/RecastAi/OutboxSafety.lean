-- The laws of the outbox: a row is marked as published only after its own
-- payload was published to its own queue, an unpublished row with attempts
-- left is always claimed again, and no step rewrites an event. They hold for
-- any number of relays and producers, with any failures and crashes.
import RecastAi.OutboxRelay

open call_programs

namespace recast_rules.outbox

variable {P : Type}

abbrev Snap (P : Type) := Shot (Call P) Answer (Db P)

/-- What runs beside each other: relays and producers. -/
inductive Task (P : Type) where
  | relay (cfg : RelayConfig) (ticks : Nat)
  | produce (tx : Nat) (abandons : Bool) (events : List (Event P))

def Task.prog : Task P → Outbox P Unit
  | .relay cfg ticks => outbox.relay cfg ticks
  | .produce tx abandons events => outbox.produce tx abandons events

/-- The tasks at their start, over a database. -/
def start (db : Db P) (tasks : List (Task P)) : Config (Call P) Answer (Db P) Unit :=
  ⟨⟨db, []⟩, tasks.map Task.prog⟩

/-! ## What a relay does, told by what was answered to it -/

/-- A claim of thread `i` returned the row. -/
def Claimed (s : Snap P) (i : Nat) (p : Pending P) : Prop :=
  ∃ m b batch, p ∈ batch ∧
    (⟨i, .claim m b, .ok batch⟩ : call_programs.Event (Call P) Answer) ∈ s.log

/-- Thread `i` published the row and the broker took it. -/
def Acked (s : Snap P) (i : Nat) (p : Pending P) : Prop :=
  (⟨i, .publish p, .ok ()⟩ : call_programs.Event (Call P) Answer) ∈ s.log

/-- A relay publishes what it claimed, and it marks what it published. -/
def Due (s : Snap P) (i : Nat) : Call P → Prop
  | .publish p => Claimed s i p
  | .markPublished id => ∃ p, p.id = id ∧ Claimed s i p ∧ Acked s i p
  | _ => True

theorem Claimed.mono {s s' : Snap P} {i : Nat} {p : Pending P} (h : Claimed s i p)
    (hl : s.log <:+ s'.log) : Claimed s' i p := by
  obtain ⟨m, b, batch, hp, hm⟩ := h
  exact ⟨m, b, batch, hp, hl.subset hm⟩

section Programs

variable {E : Snap P → Nat → Call P → Outcome → Prop}

theorem safe_publishBatch (i : Nat) (batch : List (Pending P)) (n : Nat)
    {Q : Nat → Snap P → Prop} (hQ : ∀ a s, Q a s) (s : Snap P) (h : ∀ p ∈ batch, Claimed s i p) :
    safe postgres E (dues postgres E Due) i (publishBatch batch n) Q s := by
  induction batch generalizing n s with
  | nil => exact fun s' _ => hQ _ s'
  | cons p batch ih =>
    have hp : Claimed s i p := h p List.mem_cons_self
    have hrest : ∀ q ∈ batch, Claimed s i q := fun q hq => h q (List.mem_cons_of_mem _ hq)
    refine safe_due (fun s' h' => hp.mono h'.log) fun s₁ o₁ h₁ _ => ?_
    have hl₁ := h₁.log.trans (s₁.log_after postgres i (.publish p) o₁)
    cases hf : o₁.fails
    · -- the broker took it: the acknowledgement is in the log before the mark
      have hack : Acked (s₁.after postgres i (.publish p) o₁) i p := by
        simp [Acked, Shot.after, postgres, answerDb, reply, hf]
      simp only [postgres, answerDb, reply, hf, Bool.false_eq_true, if_false]
      refine safe_due (fun s' h' => ⟨p, rfl, hp.mono (hl₁.trans h'.log), h'.log.subset hack⟩)
        fun s₂ o₂ h₂ _ => ?_
      have hknown : ∀ q ∈ batch, Claimed (s₂.after postgres i (.markPublished p.id) o₂) i q :=
        fun q hq => (hrest q hq).mono ((hl₁.trans h₂.log).trans (List.suffix_cons _ _))
      cases hf₂ : o₂.fails
      · simp only [answerDb, reply, hf₂, Bool.false_eq_true, if_false]
        exact ih _ _ hknown
      · simp only [answerDb, reply, hf₂, if_true]
        exact ih _ _ hknown
    · simp only [postgres, answerDb, reply, hf, if_true]
      refine safe_due (fun _ _ => trivial) fun s₂ o₂ h₂ _ => ih _ _ fun q hq => ?_
      exact (hrest q hq).mono ((hl₁.trans h₂.log).trans (List.suffix_cons _ _))

theorem safe_tick (i : Nat) (cfg : RelayConfig) {Q : Except ClaimError Nat → Snap P → Prop}
    (hQ : ∀ a s, Q a s) (s : Snap P) :
    safe postgres E (dues postgres E Due) i (tick cfg) Q s := by
  rw [tick_eq]
  refine safe_bind (safe_due (fun _ _ => trivial) fun s₁ o₁ _ _ => fun s₂ h₂ => ?_)
  cases hf : o₁.fails
  · simp only [postgres, answerDb, hf, Bool.false_eq_true]
    refine safe_bind (safe_publishBatch i _ 0 (fun a t t' _ => hQ _ t') _ fun p hp => ?_)
    refine ⟨cfg.maxAttempts, cfg.batchSize, _, hp, h₂.log.subset ?_⟩
    simp [Shot.after, postgres, answerDb, hf]
  · simp only [postgres, answerDb, hf]
    exact fun t _ => hQ _ t

theorem safe_runLoop (i : Nat) (cfg : RelayConfig) (n : Nat) (s : Snap P) :
    safe postgres E (dues postgres E Due) i (runLoop cfg n) (fun _ _ => True) s := by
  induction n generalizing s with
  | zero => exact fun _ _ => trivial
  | succ n ih => exact safe_bind (safe_tick i cfg (fun _ t => ih t) s)

theorem safe_attemptID (i : Nat) (ev : Event P) {Q : String → Snap P → Prop}
    (hQ : ∀ a s, Q a s) (s : Snap P) :
    safe postgres E (dues postgres E Due) i (attemptID ev) Q s := by
  unfold attemptID
  split
  · exact safe_due (fun _ _ => trivial) fun s' o _ _ => fun t _ => hQ o.fresh t
  · exact fun t _ => hQ _ t

theorem safe_txPublish (i tx : Nat) (ev : Event P) {Q : Except String Unit → Snap P → Prop}
    (hQ : ∀ a s, Q a s) (s : Snap P) :
    safe postgres E (dues postgres E Due) i (txPublish tx ev) Q s := by
  unfold txPublish
  split
  · exact fun t _ => hQ _ t
  · refine safe_bind (safe_attemptID i ev (fun id s => ?_) s)
    split
    · exact fun t _ => hQ _ t
    · refine safe_due (fun _ _ => trivial) fun s₁ o₁ _ _ => ?_
      cases hf : o₁.fails
      · simp only [postgres, answerDb, reply, hf, Bool.false_eq_true, if_false]
        exact fun t _ => hQ _ t
      · simp only [postgres, answerDb, reply, hf, if_true]
        exact fun t _ => hQ _ t

theorem safe_produce (i tx : Nat) (abandons : Bool) (evs : List (Event P)) (s : Snap P) :
    safe postgres E (dues postgres E Due) i (produce tx abandons evs) (fun _ _ => True) s := by
  induction evs generalizing s with
  | nil =>
    unfold produce
    split
    · exact safe_due (fun _ _ => trivial) fun _ _ _ _ => fun _ _ => trivial
    · exact safe_due (fun _ _ => trivial) fun _ _ _ _ => fun _ _ => trivial
  | cons ev evs ih =>
    refine safe_bind (safe_txPublish i tx ev (fun a t => ?_) s)
    cases a with
    | error e => exact safe_due (fun _ _ => trivial) fun _ _ _ _ => fun _ _ => trivial
    | ok u => exact ih t

theorem allSafe_start (db : Db P) (tasks : List (Task P)) :
    AllSafe postgres E (dues postgres E Due) (fun _ _ _ => True) (start db tasks) := by
  intro i p hp
  simp only [start, List.getElem?_map, Option.map_eq_some_iff] at hp
  obtain ⟨task, -, rfl⟩ := hp
  cases task with
  | relay cfg n => exact safe_runLoop i cfg.defaults n _
  | produce tx abandons evs => exact safe_produce i tx abandons evs _

/-- What every due call keeps is true in every state that a run of relays and producers
reaches. -/
theorem run_keeps {I : Snap P → Prop} {db : Db P} {tasks : List (Task P)}
    {picks : List (Nat × Outcome)}
    (hI : ∀ s i c o, E s i c o → Due s i c → I s → I (s.after postgres i c o))
    (h0 : I (start db tasks).shot) (hE : Allowed postgres E picks (start db tasks)) :
    I (schedule postgres picks (start db tasks)).shot :=
  (dues_schedule hI (allSafe_start db tasks) h0 hE).2

end Programs

/-! ## What each statement does to the table -/

/-- All ids that are in use, committed or not. -/
def Db.ids (db : Db P) : List Nat := db.rows.map (·.id) ++ db.opened.map (·.2.id)

structure Db.Ok (db : Db P) : Prop where
  ids_nodup : db.ids.Nodup
  ids_below : ∀ n ∈ db.ids, n < db.nextID
  open_unmarked : ∀ x ∈ db.opened, x.2.publishedAt = none

section Updates

variable (rows : List (JobEvent P)) (id : Nat) (f : JobEvent P → JobEvent P)

theorem updateRow_pending (hf : ∀ r, (f r).pending = r.pending) :
    (updateRow rows id f).map JobEvent.pending = rows.map JobEvent.pending := by
  unfold updateRow
  rw [List.map_map]
  apply List.map_congr_left
  intro r _
  simp only [Function.comp_apply]
  split
  · exact hf r
  · rfl

theorem updateRow_ids (hf : ∀ r, (f r).id = r.id) :
    (updateRow rows id f).map (·.id) = rows.map (·.id) := by
  unfold updateRow
  rw [List.map_map]
  apply List.map_congr_left
  intro r _
  simp only [Function.comp_apply]
  split
  · exact hf r
  · rfl

end Updates

theorem mem_updateRow {rows : List (JobEvent P)} {id : Nat} {f : JobEvent P → JobEvent P}
    {r : JobEvent P} (h : r ∈ updateRow rows id f) :
    r ∈ rows ∨ ∃ r₀ ∈ rows, r₀.id = id ∧ r = f r₀ := by
  unfold updateRow at h
  obtain ⟨r₀, h₀, rfl⟩ := List.mem_map.mp h
  split
  · exact Or.inr ⟨r₀, h₀, ‹_›, rfl⟩
  · exact Or.inl h₀

/-- Two rows of the table with the same id are one row. -/
theorem row_of_id {db : Db P} (h : db.Ok) {r r' : JobEvent P} (hr : r ∈ db.rows)
    (hr' : r' ∈ db.rows) (hid : r.id = r'.id) : r = r' := by
  have hn : (db.rows.map (·.id)).Nodup := (List.nodup_append.mp h.ids_nodup).1
  exact List.inj_on_of_nodup_map hn hr hr' hid

theorem ok_update {db : Db P} (h : db.Ok) (id : Nat) {f : JobEvent P → JobEvent P}
    (hf : ∀ r, (f r).id = r.id) : ({ db with rows := updateRow db.rows id f } : Db P).Ok := by
  have hids : ({ db with rows := updateRow db.rows id f } : Db P).ids = db.ids := by
    simp only [Db.ids, updateRow_ids _ _ _ hf]
  exact ⟨hids ▸ h.ids_nodup, hids ▸ h.ids_below, h.open_unmarked⟩

theorem ok_drop {db : Db P} (h : db.Ok) (tx : Nat) :
    ({ db with opened := db.opened.filter (·.1 ≠ tx) } : Db P).Ok := by
  have hsub : (db.rows.map (·.id) ++ (db.opened.filter (·.1 ≠ tx)).map (·.2.id)).Sublist db.ids :=
    (List.Sublist.refl _).append (List.filter_sublist.map _)
  exact ⟨h.ids_nodup.sublist hsub, fun n hn => h.ids_below n (hsub.subset hn),
    fun x hx => h.open_unmarked x (List.mem_of_mem_filter hx)⟩

/-- The rows of a transaction move from the open rows to the table. -/
theorem ok_commit {db : Db P} (h : db.Ok) (tx : Nat) :
    ({ db with
      rows := db.rows ++ (db.opened.filter (·.1 = tx)).map (·.2)
      opened := db.opened.filter (·.1 ≠ tx) } : Db P).Ok := by
  have hperm : (db.rows.map (·.id) ++ (db.opened.filter (·.1 = tx)).map (·.2.id) ++
      (db.opened.filter (·.1 ≠ tx)).map (·.2.id)).Perm db.ids := by
    unfold Db.ids
    rw [List.append_assoc, ← List.map_append]
    refine List.Perm.append_left _ (List.Perm.map _ ?_)
    simpa using List.filter_append_perm (fun x : Nat × JobEvent P => decide (x.1 = tx)) db.opened
  have hids : ({ db with
      rows := db.rows ++ (db.opened.filter (·.1 = tx)).map (·.2)
      opened := db.opened.filter (·.1 ≠ tx) } : Db P).ids.Perm db.ids := by
    refine List.Perm.trans ?_ hperm
    simp only [Db.ids, List.map_append, List.map_map]
    exact List.Perm.refl _
  exact ⟨hids.nodup_iff.mpr h.ids_nodup, fun n hn => h.ids_below n (hids.subset hn),
    fun x hx => h.open_unmarked x (List.mem_of_mem_filter hx)⟩

theorem ok_insert {db : Db P} (h : db.Ok) (tx : Nat) (jobID attemptID queueName : String)
    (payload : P) (traceID : String) (o : Outcome) :
    (answerDb o db (.insert tx jobID attemptID queueName payload traceID)).2.Ok := by
  have hbelow : ∀ n ∈ db.ids, n < db.nextID + 1 := fun n hn => Nat.lt_succ_of_lt (h.ids_below n hn)
  by_cases hf : o.fails = true
  · simp only [answerDb, hf, if_true]
    exact ⟨h.ids_nodup, hbelow, h.open_unmarked⟩
  · have hids : (answerDb o db
        (.insert tx jobID attemptID queueName payload traceID)).2.ids = db.ids ++ [db.nextID] := by
      simp [answerDb, hf, Db.ids]
    refine ⟨?_, ?_, ?_⟩
    · rw [hids, List.nodup_append]
      refine ⟨h.ids_nodup, List.nodup_singleton _, ?_⟩
      intro a ha b hb
      simp only [List.mem_singleton] at hb
      have := h.ids_below a ha
      omega
    · rw [hids]
      intro n hn
      rcases List.mem_append.mp hn with hn | hn
      · exact hbelow n hn
      · simp only [List.mem_singleton] at hn
        exact hn ▸ Nat.lt_succ_self _
    · intro x hx
      simp only [answerDb, hf, Bool.false_eq_true, if_false, List.mem_append,
        List.mem_singleton] at hx
      rcases hx with hx | rfl
      · exact h.open_unmarked x hx
      · rfl

theorem ok_answer {db : Db P} (h : db.Ok) (o : Outcome) (c : Call P) : (answerDb o db c).2.Ok := by
  cases c with
  | claim m b => exact h
  | publish p => exact h
  | newString => exact h
  | markPublished id =>
    simp only [answerDb]
    split
    · exact ok_update h id (fun _ => rfl)
    · exact h
  | markFailure id cause =>
    simp only [answerDb]
    split
    · exact ok_update h id (fun _ => rfl)
    · exact h
  | insert tx jobID attemptID queueName payload traceID => exact ok_insert h ..
  | commit tx =>
    simp only [answerDb]
    split
    · exact ok_commit h tx
    · exact ok_drop h tx
  | rollback tx => exact ok_drop h tx

/-- No statement rewrites an event of the table or takes one away. -/
theorem events_answer (db : Db P) (o : Outcome) (c : Call P) :
    db.rows.map JobEvent.pending <+: (answerDb o db c).2.rows.map JobEvent.pending := by
  cases c with
  | markPublished id =>
    simp only [answerDb]
    split
    · exact updateRow_pending db.rows id (.marked o.now) (fun _ => rfl) ▸ List.prefix_rfl
    · exact List.prefix_rfl
  | markFailure id cause =>
    simp only [answerDb]
    split
    · exact updateRow_pending db.rows id (.failed cause) (fun _ => rfl) ▸ List.prefix_rfl
    · exact List.prefix_rfl
  | commit tx =>
    simp only [answerDb]
    split
    · simp only [List.map_append, List.prefix_append]
    · exact List.prefix_rfl
  | _ => exact List.prefix_rfl

/-- A marked row was marked before, or it is marked by this statement. -/
theorem marked_answer {db : Db P} (h : db.Ok) {o : Outcome} {c : Call P} {r : JobEvent P}
    (hr : r ∈ (answerDb o db c).2.rows) (hp : r.publishedAt.isSome) :
    ∃ r₀ ∈ db.rows, r₀.pending = r.pending ∧
      (r₀.publishedAt.isSome ∨ c = .markPublished r.id) := by
  have hold : r ∈ db.rows → ∃ r₀ ∈ db.rows, r₀.pending = r.pending ∧
      (r₀.publishedAt.isSome ∨ c = .markPublished r.id) := fun hm => ⟨r, hm, rfl, Or.inl hp⟩
  cases c with
  | markPublished id =>
    simp only [answerDb] at hr
    split at hr
    · rcases mem_updateRow hr with hm | ⟨r₀, h₀, rfl, rfl⟩
      · exact hold hm
      · exact ⟨r₀, h₀, rfl, Or.inr rfl⟩
    · exact hold hr
  | markFailure id cause =>
    simp only [answerDb] at hr
    split at hr
    · rcases mem_updateRow hr with hm | ⟨r₀, h₀, -, rfl⟩
      · exact hold hm
      · exact ⟨r₀, h₀, rfl, Or.inl hp⟩
    · exact hold hr
  | commit tx =>
    simp only [answerDb] at hr
    split at hr
    · rcases List.mem_append.mp hr with hm | hm
      · exact hold hm
      · obtain ⟨x, hx, rfl⟩ := List.mem_map.mp hm
        rw [h.open_unmarked x (List.mem_of_mem_filter hx)] at hp
        simp at hp
    · exact hold hr
  | _ => exact hold hr

theorem claimRows_sub {rows : List (JobEvent P)} {skipped : List Nat} {m b : Int}
    {r : JobEvent P} (h : r ∈ claimRows rows skipped m b) : r ∈ rows ∧ eligible m r := by
  unfold claimRows at h
  have h1 := List.mem_of_mem_filter (List.mem_of_mem_take h)
  rw [List.mem_insertionSort] at h1
  exact List.mem_filter.mp h1

theorem claim_answer {o : Outcome} {db : Db P} {m b : Int} {batch : List (Pending P)}
    (h : (answerDb o db (.claim m b)).1 = Except.ok batch) :
    o.fails = false ∧ batch = (claimRows db.rows o.skipped m b).map JobEvent.pending := by
  unfold answerDb at h
  cases hf : o.fails
  · rw [hf] at h
    exact ⟨rfl, (Except.ok.inj h).symm⟩
  · rw [hf] at h
    exact nomatch (h : (Except.error _ : Except ClaimError (List (Pending P))) = .ok batch)

/-! ## The invariant -/

/-- The row is in the table, with the columns that the claim read. -/
def Known (s : Snap P) (p : Pending P) : Prop := p ∈ s.state.rows.map JobEvent.pending

structure Sound (s : Snap P) : Prop where
  db_ok : s.state.Ok
  claimed : ∀ i p, Claimed s i p → Known s p
  marked : ∀ r ∈ s.state.rows, r.publishedAt.isSome → ∃ i, Acked s i r.pending

theorem Acked.after {s : Snap P} {i j : Nat} {p : Pending P} {c : Call P} {o : Outcome}
    (h : Acked s i p) : Acked (s.after postgres j c o) i p := List.mem_cons_of_mem _ h

theorem Known.after {s : Snap P} {j : Nat} {p : Pending P} {c : Call P} {o : Outcome}
    (h : Known s p) : Known (s.after postgres j c o) p := (events_answer s.state o c).subset h

/-- What was claimed after a step was claimed before, or the step is the claim. -/
theorem claimed_after {s : Snap P} {i j : Nat} {p : Pending P} {c : Call P} {o : Outcome}
    (h : Claimed (s.after postgres j c o) i p) :
    Claimed s i p ∨ ∃ m b, i = j ∧ c = .claim m b ∧ o.fails = false ∧
      ∃ r ∈ claimRows s.state.rows o.skipped m b, r.pending = p := by
  obtain ⟨m, b, batch, hp, hm⟩ := h
  rcases Shot.mem_after.mp hm with hm | hm
  · obtain ⟨hi, hc, ha⟩ := call_programs.Event.mk.inj hm
    subst hc
    obtain ⟨hf, rfl⟩ := claim_answer (eq_of_heq ha).symm
    exact Or.inr ⟨m, b, hi, rfl, hf, List.mem_map.mp hp⟩
  · exact Or.inl ⟨m, b, batch, hp, hm⟩

theorem sound_step {s : Snap P} {i : Nat} {c : Call P} {o : Outcome} (hd : Due s i c)
    (h : Sound s) : Sound (s.after postgres i c o) := by
  refine ⟨ok_answer h.db_ok o c, ?_, ?_⟩
  · intro j p hp
    rcases claimed_after hp with hp | ⟨m, b, -, -, -, r, hr, rfl⟩
    · exact (h.claimed j p hp).after
    · exact Known.after (List.mem_map_of_mem (claimRows_sub hr).1)
  · intro r hr hp
    obtain ⟨r₀, h₀, he, hm | rfl⟩ := marked_answer h.db_ok hr hp
    · obtain ⟨j, hj⟩ := h.marked r₀ h₀ hm
      exact ⟨j, he ▸ hj.after⟩
    · -- the mark is due, so the relay published the row with this id
      obtain ⟨p, hid, hc, ha⟩ := hd
      obtain ⟨r₁, h₁, rfl⟩ := List.mem_map.mp (h.claimed i p hc)
      have hrow : r₁ = r₀ := row_of_id h.db_ok h₁ h₀ (hid.trans (congrArg Pending.id he).symm)
      exact ⟨i, he ▸ hrow ▸ ha.after⟩

/-- A table with no row marked, as the migration makes it, or after producers alone. -/
structure Unmarked (db : Db P) : Prop where
  ids_nodup : db.ids.Nodup
  ids_below : ∀ n ∈ db.ids, n < db.nextID
  rows : ∀ r ∈ db.rows, r.publishedAt = none
  opened : ∀ x ∈ db.opened, x.2.publishedAt = none

theorem sound_start {db : Db P} (h : Unmarked db) (tasks : List (Task P)) :
    Sound (start db tasks).shot := by
  refine ⟨⟨h.ids_nodup, h.ids_below, h.opened⟩, ?_, ?_⟩
  · rintro i p ⟨m, b, batch, -, hm⟩
    cases hm
  · intro r hr hp
    rw [h.rows r hr] at hp
    simp at hp

/-- Every choice of the outside is admitted. -/
abbrev AnyChoice : Snap P → Nat → Call P → Outcome → Prop := fun _ _ _ _ => True

theorem sound_run {db : Db P} (h : Unmarked db) (tasks : List (Task P))
    (picks : List (Nat × Outcome)) : Sound (schedule postgres picks (start db tasks)).shot :=
  run_keeps (E := AnyChoice) (fun _ _ _ _ _ hd hs => sound_step hd hs) (sound_start h tasks)
    (allowed_true postgres picks _)

/-- From any state that a run reaches, the rest of the run keeps the events. -/
theorem events_run (cfg : Config (Call P) Answer (Db P) Unit) (picks : List (Nat × Outcome)) :
    cfg.shot.state.rows.map JobEvent.pending <+:
      (schedule postgres picks cfg).shot.state.rows.map JobEvent.pending := by
  induction picks generalizing cfg with
  | nil => exact List.prefix_rfl
  | cons pick picks ih =>
    refine List.IsPrefix.trans ?_ (ih _)
    rcases advance_cases postgres cfg pick with he | ⟨c, k, -, he⟩
    · exact he.symm ▸ List.prefix_rfl
    · rw [he]
      exact events_answer cfg.shot.state pick.2 c

/-! ## The laws -/

/-- A claim that skips nothing and has room for all gets every row that is unpublished and
has attempts left. -/
theorem an_unlocked_claim_returns_every_waiting_row (db : Db P) (r : JobEvent P)
    (maxAttempts batchSize : Int) (o : Outcome) (hr : r ∈ db.rows) (hp : r.publishedAt = none)
    (ha : (r.attempts : Int) < maxAttempts) (hs : r.id ∉ o.skipped) (hf : o.fails = false)
    (hroom : ((db.rows.filter (eligible maxAttempts)).length : Int) ≤ batchSize) :
    ∃ batch, (answerDb o db (.claim maxAttempts batchSize)).1 = .ok batch ∧ r.pending ∈ batch := by
  refine ⟨_, by simp only [answerDb, hf]; rfl, List.mem_map_of_mem ?_⟩
  have hlen : (((db.rows.filter (eligible maxAttempts)).insertionSort
      (fun a b => a.id ≤ b.id)).filter (fun r => !o.skipped.contains r.id)).length ≤
      batchSize.toNat := by
    refine (List.length_filter_le _ _).trans ?_
    rw [List.length_insertionSort]
    omega
  unfold claimRows
  rw [List.take_of_length_le hlen, List.mem_filter, List.mem_insertionSort, List.mem_filter]
  refine ⟨⟨hr, ?_⟩, ?_⟩
  · simp [eligible, hp, ha]
  · simpa using hs

/-- No event is lost or falsely marked. In every state that a run reaches, a marked row had
its own payload published to its own queue and taken by the broker; a waiting row is
returned by an unlocked claim with room enough; and the rest of the run rewrites no event. -/
theorem no_event_is_lost_or_falsely_marked (db : Db P) (h : Unmarked db) (tasks : List (Task P))
    (picks : List (Nat × Outcome)) :
    let s := (schedule postgres picks (start db tasks)).shot
    (∀ r ∈ s.state.rows, r.publishedAt.isSome →
      ∃ i p, (⟨i, .publish p, .ok ()⟩ : call_programs.Event (Call P) Answer) ∈ s.log ∧
        p.payload = r.payload ∧ p.queue = r.queueName) ∧
    (∀ r ∈ s.state.rows, r.publishedAt = none → ∀ (cfg : RelayConfig) (o : Outcome),
      (r.attempts : Int) < cfg.defaults.maxAttempts → r.id ∉ o.skipped → o.fails = false →
      ((s.state.rows.filter (eligible cfg.defaults.maxAttempts)).length : Int) ≤
        cfg.defaults.batchSize →
      ∃ batch, (answerDb o s.state
        (.claim cfg.defaults.maxAttempts cfg.defaults.batchSize)).1 = .ok batch ∧
        r.pending ∈ batch) ∧
    (∀ r ∈ s.state.rows, ∀ more,
      ∃ r' ∈ (schedule postgres (picks ++ more) (start db tasks)).shot.state.rows,
        r'.id = r.id ∧ r'.payload = r.payload ∧ r'.queueName = r.queueName ∧
        r'.jobID = r.jobID ∧ r'.stageAttemptID = r.stageAttemptID) ∧
    (s.state.rows.map (·.id)).Nodup := by
  intro s
  have hs : Sound s := sound_run h tasks picks
  refine ⟨?_, ?_, ?_, (List.nodup_append.mp hs.db_ok.ids_nodup).1⟩
  · intro r hr hp
    obtain ⟨i, hi⟩ := hs.marked r hr hp
    exact ⟨i, r.pending, hi, rfl, rfl⟩
  · intro r hr hp cfg o ha hsk hf hroom
    exact an_unlocked_claim_returns_every_waiting_row s.state r _ _ o hr hp ha hsk hf hroom
  · intro r hr more
    rw [schedule_append]
    obtain ⟨r', hr', he⟩ := List.mem_map.mp ((events_run _ more).subset (List.mem_map_of_mem hr))
    simp only [JobEvent.pending, Pending.mk.injEq] at he
    exact ⟨r', hr', he.1, he.2.2.2.2.1, he.2.2.2.1, he.2.1, he.2.2.1⟩

/-- The table as the migration creates it, with one row and two relays. -/
theorem no_event_is_lost_or_falsely_marked_for_two_relays :
    let db : Db String := ⟨[⟨1, "j", "a", "audio.queue", "m", "t", none, 0, none⟩], [], 2⟩
    let s := (schedule postgres [(0, {}), (1, {}), (0, {}), (0, {})]
      (start db [.relay ⟨0, 0, 0⟩ 1, .relay ⟨0, 0, 0⟩ 1])).shot
    ∀ r ∈ s.state.rows, r.publishedAt.isSome →
      ∃ i p, (⟨i, .publish p, .ok ()⟩ : call_programs.Event (Call String) Answer) ∈ s.log ∧
        p.payload = r.payload ∧ p.queue = r.queueName :=
  (no_event_is_lost_or_falsely_marked _ ⟨by decide, by decide, by decide, by decide⟩ _ _).1

end recast_rules.outbox
