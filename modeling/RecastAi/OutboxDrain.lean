-- How long a backlog of the outbox lasts. Each tick of the one relay spends a whole batch of the
-- attempts that were left to older events, or it takes every event of the backlog one attempt
-- further. So after a number of ticks that is known at the start, no event of it is waiting.
import RecastAi.SingleRelay

open call_programs

namespace recast_rules.outbox

variable {P : Type}

/-! ## What is left to do -/

/-- The attempts that the relay may still make for a row. -/
def left (maxAttempts : Int) (r : JobEvent P) : Nat :=
  if eligible maxAttempts r then (maxAttempts - r.attempts).toNat else 0

/-- All rows, committed or not. -/
def Db.all (db : Db P) : List (JobEvent P) := db.rows ++ db.opened.map (·.2)

def attemptsLeft (maxAttempts : Int) (db : Db P) : Nat := (db.all.map (left maxAttempts)).sum

/-- The same for the rows with smaller ids. -/
def leftBelow (maxAttempts : Int) (k : Nat) (r : JobEvent P) : Nat :=
  if r.id < k then left maxAttempts r else 0

def workBelow (maxAttempts : Int) (k : Nat) (db : Db P) : Nat :=
  (db.all.map (leftBelow maxAttempts k)).sum

/-- The events of the backlog, by their ids: they are in the table, nothing else comes before them
than what is counted in `work`, and none of them has more than `most` attempts left. -/
structure Backlog (m : Int) (k : Nat) (ids : List Nat) (work most : Nat) (db : Db P) : Prop where
  ok : db.Ok
  next : k ≤ db.nextID
  below : ∀ id ∈ ids, id < k
  present : ∀ id ∈ ids, id ∈ db.rows.map (·.id)
  work_le : workBelow m k db ≤ work
  left_le : ∀ r ∈ db.rows, r.id ∈ ids → left m r ≤ most

/-- What the producers do to the database. -/
structure Aside (m : Int) (k : Nat) (db db' : Db P) : Prop where
  ok : db.Ok → db'.Ok
  next : db.nextID ≤ db'.nextID
  rows : db.rows <+: db'.rows
  work : k ≤ db.nextID → workBelow m k db' ≤ workBelow m k db

section Rows

variable {m : Int} {k : Nat} {db db' db'' : Db P} {r : JobEvent P}

theorem left_pos (h : eligible m r = true) : 0 < left m r := by
  unfold left
  rw [if_pos h]
  unfold eligible at h
  simp only [Bool.and_eq_true, decide_eq_true_eq] at h
  omega

theorem left_le (m : Int) (r : JobEvent P) : left m r ≤ m.toNat := by
  unfold left
  split <;> omega

theorem left_marked (m : Int) (now : Nat) (r : JobEvent P) : left m (r.marked now) = 0 := rfl

theorem left_failed (h : eligible m r = true) (cause : String) :
    left m (r.failed cause) + 1 = left m r := by
  have hr := h
  unfold eligible at h
  simp only [Bool.and_eq_true, decide_eq_true_eq] at h
  have hfailed : eligible m (r.failed cause) = decide ((r.attempts : Int) + 1 < m) := by
    unfold eligible JobEvent.failed
    simp [h.1]
  unfold left
  rw [if_pos hr, hfailed]
  simp only [decide_eq_true_eq]
  have hattempts : ((r.failed cause).attempts : Int) = r.attempts + 1 := rfl
  split <;> omega

theorem Aside.refl (db : Db P) : Aside m k db db :=
  ⟨id, Nat.le_refl _, List.prefix_rfl, fun _ => Nat.le_refl _⟩

theorem Aside.trans (h : Aside m k db db') (h' : Aside m k db' db'') : Aside m k db db'' :=
  ⟨fun hok => h'.ok (h.ok hok), h.next.trans h'.next, h.rows.trans h'.rows,
    fun hk => (h'.work (hk.trans h.next)).trans (h.work hk)⟩

theorem Backlog.aside {ids : List Nat} {work most : Nat} (h : Backlog m k ids work most db)
    (haside : Aside m k db db') : Backlog m k ids work most db' where
  ok := haside.ok h.ok
  next := h.next.trans haside.next
  below := h.below
  present id hid := (haside.rows.map _).subset (h.present id hid)
  work_le := (haside.work h.next).trans h.work_le
  left_le r hr hid := by
    obtain ⟨r₀, hr₀, heq⟩ := List.mem_map.mp (h.present r.id hid)
    obtain rfl := row_of_id (haside.ok h.ok) (haside.rows.subset hr₀) hr heq
    exact h.left_le r₀ hr₀ hid

/-! ## What the producers do -/

theorem work_of_perm (h : db'.all.Perm db.all) : workBelow m k db' = workBelow m k db :=
  (h.map _).sum_eq

theorem work_of_sublist (h : db'.all.Sublist db.all) : workBelow m k db' ≤ workBelow m k db :=
  List.Sublist.sum_le_sum (h.map _) fun _ _ => Nat.zero_le _

theorem aside_drop (tx : Nat) :
    Aside m k db { db with opened := db.opened.filter (·.1 ≠ tx) } where
  ok h := ok_drop h tx
  next := Nat.le_refl _
  rows := List.prefix_rfl
  work _ := work_of_sublist ((List.Sublist.refl _).append (List.filter_sublist.map _))

theorem aside_commit (tx : Nat) :
    Aside m k db { db with
      rows := db.rows ++ (db.opened.filter (·.1 = tx)).map (·.2)
      opened := db.opened.filter (·.1 ≠ tx) } where
  ok h := ok_commit h tx
  next := Nat.le_refl _
  rows := List.prefix_append _ _
  work _ := by
    refine (work_of_perm ?_).le
    unfold Db.all
    rw [List.append_assoc, ← List.map_append]
    refine List.Perm.append_left _ (List.Perm.map _ ?_)
    simpa using List.filter_append_perm (fun x : Nat × JobEvent P => decide (x.1 = tx)) db.opened

/-- A new event comes after all that are there. -/
theorem aside_insert (o : Outcome) (tx : Nat)
    (jobID attemptID queueName : String) (payload : P) (traceID : String) :
    Aside m k db (answerDb o db (.insert tx jobID attemptID queueName payload traceID)).2 where
  ok h := ok_answer h o _
  next := Nat.le_succ _
  rows := List.prefix_rfl
  work hk := by
    simp only [answerDb]
    split
    · exact Nat.le_refl _
    · unfold workBelow Db.all
      simp only [List.map_append, List.map_cons, List.map_nil, List.sum_append, List.sum_cons,
        List.sum_nil]
      have hnew : leftBelow m k (⟨db.nextID, jobID, attemptID, queueName, payload, traceID, none, 0,
          none⟩ : JobEvent P) = 0 := if_neg (by simpa using hk)
      rw [hnew]
      omega

theorem aside_writes {c : Call P} (hc : Writes c) (o : Outcome) :
    Aside m k db (answerDb o db c).2 := by
  cases c with
  | newString => exact Aside.refl db
  | insert tx jobID attemptID queueName payload traceID => exact aside_insert ..
  | commit tx =>
    simp only [answerDb]
    split
    · exact aside_commit tx
    · exact aside_drop tx
  | rollback tx => exact aside_drop tx
  | _ => exact hc.elim

end Rows

/-! ## What a tick does -/

/-- In the middle of a tick: the rows of the batch that are still to be published are as they were
claimed. Where the batch has the whole backlog (`whole`), the others have one attempt less. -/
structure InTick (m : Int) (k : Nat) (ids : List Nat) (work most : Nat) (whole : Prop)
    (batch : List (JobEvent P)) (db : Db P) : Prop
    extends Backlog m k ids (work + batch.countP (·.id < k)) most db where
  claimed : ∀ r ∈ batch, r ∈ db.rows ∧ eligible m r = true
  distinct : (batch.map (·.id)).Nodup
  spent : whole → ∀ r ∈ db.rows, r.id ∈ ids → r.id ∉ batch.map (·.id) → left m r ≤ most - 1

section Ticks

variable {m : Int} {k : Nat} {ids : List Nat} {work most : Nat} {whole : Prop}
  {batch : List (JobEvent P)} {db db' : Db P} {r : JobEvent P} {f : JobEvent P → JobEvent P}

theorem InTick.aside (h : InTick m k ids work most whole batch db) (haside : Aside m k db db') :
    InTick m k ids work most whole batch db' where
  toBacklog := h.toBacklog.aside haside
  claimed r hr := ⟨haside.rows.subset (h.claimed r hr).1, (h.claimed r hr).2⟩
  distinct := h.distinct
  spent hwhole r hr hid hnot := by
    obtain ⟨r₀, hr₀, heq⟩ := List.mem_map.mp (h.present r.id hid)
    obtain rfl := row_of_id (haside.ok h.ok) (haside.rows.subset hr₀) hr heq
    exact h.spent hwhole r₀ hr₀ hid hnot

theorem updateRow_ne {rows : List (JobEvent P)} {id : Nat} (h : id ∉ rows.map (·.id)) :
    updateRow rows id f = rows := by
  unfold updateRow
  refine List.map_congr_left (fun r hr => ?_) |>.trans (List.map_id rows)
  exact if_neg fun heq => h (List.mem_map.mpr ⟨r, hr, heq⟩)

/-- An update of a row that is there once. -/
theorem updateRow_once {before after : List (JobEvent P)}
    (h : ((before ++ r :: after).map (·.id)).Nodup) :
    updateRow (before ++ r :: after) r.id f = before ++ f r :: after := by
  rw [List.map_append, List.map_cons, List.nodup_append] at h
  obtain ⟨-, hafter, hne⟩ := h
  have hbefore : r.id ∉ before.map (·.id) := fun hmem => hne _ hmem _ List.mem_cons_self rfl
  have hsame : updateRow (before ++ r :: after) r.id f =
      updateRow before r.id f ++ f r :: updateRow after r.id f := by simp [updateRow]
  rw [hsame, updateRow_ne hbefore, updateRow_ne (List.nodup_cons.mp hafter).1]

theorem work_update (hok : db.Ok) (hr : r ∈ db.rows) (hid : (f r).id = r.id)
    (hleft : left m (f r) + 1 ≤ left m r) :
    workBelow m k { db with rows := updateRow db.rows r.id f } + (if r.id < k then 1 else 0) ≤
      workBelow m k db := by
  obtain ⟨before, after, hsplit⟩ := List.append_of_mem hr
  have hnodup : (db.rows.map (·.id)).Nodup := (List.nodup_append.mp hok.ids_nodup).1
  unfold workBelow Db.all
  dsimp only
  rw [hsplit] at hnodup ⊢
  rw [updateRow_once hnodup]
  simp only [List.map_append, List.map_cons, List.sum_append, List.sum_cons]
  have hbelow : leftBelow m k (f r) + (if r.id < k then 1 else 0) ≤ leftBelow m k r := by
    unfold leftBelow
    rw [hid]
    split <;> omega
  omega

/-- The first row of the batch has an attempt less, and the others are as they were. -/
theorem inTick_update (h : InTick m k ids work most whole (r :: batch) db)
    (hid : ∀ r, (f r).id = r.id) (hleft : left m (f r) + 1 ≤ left m r) :
    InTick m k ids work most whole batch { db with rows := updateRow db.rows r.id f } := by
  obtain ⟨hr, -⟩ := h.claimed r List.mem_cons_self
  obtain ⟨hnew, hdistinct⟩ := List.nodup_cons.mp h.distinct
  -- a row of the table after the update is `f r`, or it was there and has another id
  have hrows : ∀ r' ∈ updateRow db.rows r.id f, r' = f r ∨ r' ∈ db.rows ∧ r'.id ≠ r.id := by
    intro r' hr'
    obtain ⟨r₀, hr₀, rfl⟩ := List.mem_map.mp hr'
    by_cases heq : r₀.id = r.id
    · obtain rfl := row_of_id h.ok hr₀ hr heq
      exact Or.inl (if_pos rfl)
    · rw [if_neg heq]
      exact Or.inr ⟨hr₀, heq⟩
  refine ⟨⟨ok_update h.ok r.id hid, h.next, h.below, ?_, ?_, ?_⟩, ?_, hdistinct, ?_⟩
  · intro id hmem
    rw [updateRow_ids _ _ _ hid]
    exact h.present id hmem
  · have hwork := h.work_le
    have hupdate := work_update (k := k) h.ok hr (hid r) hleft
    rw [List.countP_cons] at hwork
    simp only [decide_eq_true_eq] at hwork
    omega
  · intro r' hr' hmem
    rcases hrows r' hr' with rfl | ⟨hold, -⟩
    · rw [hid] at hmem
      have := h.left_le r hr hmem
      omega
    · exact h.left_le r' hold hmem
  · intro r' hr'
    obtain ⟨hold, heligible⟩ := h.claimed r' (List.mem_cons_of_mem _ hr')
    have hne : r'.id ≠ r.id := fun heq => hnew (List.mem_map.mpr ⟨r', hr', heq⟩)
    exact ⟨List.mem_map.mpr ⟨r', hold, if_neg hne⟩, heligible⟩
  · intro hwhole r' hr' hmem hnot
    rcases hrows r' hr' with rfl | ⟨hold, hne⟩
    · rw [hid] at hmem
      have := h.left_le r hr hmem
      omega
    · refine h.spent hwhole r' hold hmem fun hin => ?_
      rcases List.mem_cons.mp hin with heq | hin
      · exact hne heq
      · exact hnot hin

/-- A claim that leaves out a row that waits has no room for more. -/
theorem claimRows_full {b : Int} (hr : r ∈ db.rows) (heligible : eligible m r = true)
    (hnot : r ∉ claimRows db.rows [] m b) : (claimRows db.rows [] m b).length = b.toNat := by
  have hmem : r ∈ ((db.rows.filter (eligible m)).insertionSort fun r r' => r.id ≤ r'.id).filter
      fun r => !([] : List Nat).contains r.id := by
    refine List.mem_filter.mpr ⟨(List.mem_insertionSort _).mpr ?_, rfl⟩
    exact List.mem_filter.mpr ⟨hr, heligible⟩
  unfold claimRows at hnot ⊢
  rw [List.length_take]
  refine Nat.min_eq_left ?_
  by_contra hlt
  rw [List.take_of_length_le (by omega)] at hnot
  exact hnot hmem

theorem countP_le_sum {l : List (JobEvent P)} (h : ∀ r ∈ l, eligible m r = true) :
    l.countP (·.id < k) ≤ (l.map (leftBelow m k)).sum := by
  induction l with
  | nil => exact Nat.le_refl _
  | cons r l ih =>
    have hpos := left_pos (h r List.mem_cons_self)
    have := ih fun r' hr' => h r' (List.mem_cons_of_mem _ hr')
    rw [List.countP_cons, List.map_cons, List.sum_cons]
    unfold leftBelow at this ⊢
    simp only [decide_eq_true_eq]
    split <;> omega

/-- What is claimed is some of the work. -/
theorem claimed_le_work (db : Db P) (b : Int) :
    (claimRows db.rows [] m b).countP (·.id < k) ≤ workBelow m k db := by
  have hsub : (claimRows db.rows [] m b).Sublist
      ((db.rows.filter (eligible m)).insertionSort fun r r' => r.id ≤ r'.id) :=
    (List.take_sublist _ _).trans List.filter_sublist
  have hperm := List.perm_insertionSort (fun r r' : JobEvent P => r.id ≤ r'.id)
    (db.rows.filter (eligible m))
  calc _ ≤ (((db.rows.filter (eligible m)).insertionSort fun r r' => r.id ≤ r'.id).map
          (leftBelow m k)).sum :=
        (countP_le_sum fun r hr => (claimRows_sub hr).2).trans
          (List.Sublist.sum_le_sum (hsub.map _) fun _ _ => Nat.zero_le _)
    _ = ((db.rows.filter (eligible m)).map (leftBelow m k)).sum := (hperm.map _).sum_eq
    _ ≤ (db.rows.map (leftBelow m k)).sum :=
        List.Sublist.sum_le_sum (List.filter_sublist.map _) fun _ _ => Nat.zero_le _
    _ ≤ workBelow m k db := by
        unfold workBelow Db.all
        rw [List.map_append, List.sum_append]
        exact Nat.le_add_right _ _

/-- The claim gets a batch of older events, or the whole backlog. -/
theorem inTick_claim {b : Int} (h : Backlog m k ids work most db) :
    (b.toNat ≤ work ∧ InTick m k ids (work - b.toNat) most False (claimRows db.rows [] m b) db) ∨
      InTick m k ids work most True (claimRows db.rows [] m b) db := by
  have hnodup : (db.rows.map (·.id)).Nodup := (List.nodup_append.mp h.ok.ids_nodup).1
  have hdistinct : ((claimRows db.rows [] m b).map (·.id)).Nodup :=
    List.pairwise_map.mpr ((claimRows_sorted hnodup [] m b).imp fun h => Nat.ne_of_lt h)
  have hclaimed : ∀ r ∈ claimRows db.rows [] m b, r ∈ db.rows ∧ eligible m r = true :=
    fun r hr => claimRows_sub hr
  by_cases hfull : (claimRows db.rows [] m b).countP (·.id < k) = b.toNat
  · left
    have hle := (claimed_le_work (m := m) (k := k) db b).trans h.work_le
    refine ⟨hfull ▸ hle, ⟨h.ok, h.next, h.below, h.present, ?_, h.left_le⟩, hclaimed, hdistinct,
      fun hfalse => hfalse.elim⟩
    have := h.work_le
    omega
  · right
    refine ⟨⟨h.ok, h.next, h.below, h.present, h.work_le.trans (Nat.le_add_right _ _), h.left_le⟩,
      hclaimed, hdistinct, fun _ r hr hid hnot => ?_⟩
    by_cases heligible : eligible m r = true
    · -- the batch is full of rows that come before `r`
      exfalso
      have hout : r ∉ claimRows db.rows [] m b := fun hin => hnot (List.mem_map_of_mem hin)
      refine hfull ((List.countP_eq_length.mpr fun r' hr' => ?_).trans
        (claimRows_full hr heligible hout))
      have hle : ¬ r.id < r'.id := fun hlt => hout (claimRows_closed hr heligible hr' hlt)
      have := h.below r.id hid
      simp only [decide_eq_true_eq]
      omega
    · unfold left
      rw [if_neg heligible]
      exact Nat.zero_le _

theorem InTick.done (h : InTick m k ids work most whole [] db) :
    Backlog m k ids work most db ∧ (whole → Backlog m k ids work (most - 1) db) := by
  refine ⟨⟨h.ok, h.next, h.below, h.present, h.work_le, h.left_le⟩, fun hwhole => ?_⟩
  exact ⟨h.ok, h.next, h.below, h.present, h.work_le,
    fun r hr hid => h.spent hwhole r hr hid List.not_mem_nil⟩

end Ticks

/-! ## The relay among its producers -/

/-- The claims get all rows that they ask for, and each update takes effect. `Publish` may fail. -/
def Working (_ : Snap P) (_ : Nat) : Call P → Outcome → Prop
  | .claim _ _, o => o.fails = false ∧ o.skipped = []
  | .markPublished _, o => landed o = true
  | .markFailure _ _, o => landed o = true
  | _, _ => True

/-- The relay is the thread 0, and the others stay aside. -/
def beside (m : Int) (k : Nat) : Pact (Snap P) where
  guar i s s' := i ≠ 0 → Aside m k s.state s'.state
  rely i s s' := i = 0 → Aside m k s.state s'.state
  rely_refl _ s _ := Aside.refl s.state
  rely_trans _ _ _ _ h h' hi := (h hi).trans (h' hi)
  guar_rely _ _ _ _ hij h hi := h fun hj => hij (hi.trans hj.symm)

section Runs

variable {m : Int} {k : Nat} {ids : List Nat} {work most : Nat} {cfg : RelayConfig}

theorem safe_writes {p : Outbox P Unit} (hp : p.Only Writes fun _ => True) (i : Nat) (s : Snap P) :
    safe postgres Working (beside m k) i p (fun _ _ => True) s := by
  refine safe_mono (safe_only (J := fun _ => True) hp trivial (fun _ _ _ _ => trivial)
    fun s c o hc _ _ => ⟨fun _ => aside_writes hc o, trivial⟩) fun _ _ _ => trivial

theorem safe_batch {whole : Prop} (batch : List (JobEvent P)) (n : Nat) {s : Snap P}
    (h : InTick m k ids work most whole batch s.state) :
    safe postgres Working (beside m k) 0 (publishBatch (batch.map JobEvent.pending) n)
      (fun _ s => InTick m k ids work most whole [] s.state) s := by
  induction batch generalizing n s with
  | nil => exact fun s' haside => h.aside (haside rfl)
  | cons r batch ih =>
    intro s₁ haside o₁ _
    refine ⟨fun hi => absurd rfl hi, ?_⟩
    have h₁ : InTick m k ids work most whole (r :: batch) s₁.state := h.aside (haside rfl)
    have heligible := fun {db : Db P} (h : InTick m k ids work most whole (r :: batch) db) =>
      (h.claimed r List.mem_cons_self).2
    cases hf : o₁.fails
    · simp only [postgres, answerDb, reply, hf, Bool.false_eq_true, if_false]
      intro s₂ haside₂ o₂ hlanded
      refine ⟨fun hi => absurd rfl hi, ?_⟩
      have h₂ : InTick m k ids work most whole (r :: batch) s₂.state := h₁.aside (haside₂ rfl)
      have hpos := left_pos (heligible h₂)
      have hnext : InTick m k ids work most whole batch
          (s₂.after postgres 0 (.markPublished r.id) o₂).state := by
        change InTick m k ids work most whole batch
          (if landed o₂ = true then
            { s₂.state with rows := updateRow s₂.state.rows r.id (JobEvent.marked o₂.now) }
          else s₂.state)
        rw [if_pos (show landed o₂ = true from hlanded)]
        exact inTick_update h₂ (fun _ => rfl) (by rw [left_marked]; omega)
      cases hf₂ : o₂.fails
      · simp only [answerDb, reply, hf₂, Bool.false_eq_true, if_false]
        exact ih _ hnext
      · simp only [answerDb, reply, hf₂, if_true]
        exact ih _ hnext
    · simp only [postgres, answerDb, reply, hf, if_true]
      intro s₂ haside₂ o₂ hlanded
      refine ⟨fun hi => absurd rfl hi, ?_⟩
      have h₂ : InTick m k ids work most whole (r :: batch) s₂.state := h₁.aside (haside₂ rfl)
      refine ih n ?_
      change InTick m k ids work most whole batch
        (if landed o₂ = true then
          { s₂.state with rows := updateRow s₂.state.rows r.id (JobEvent.failed o₁.error) }
        else s₂.state)
      rw [if_pos (show landed o₂ = true from hlanded)]
      exact inTick_update h₂ (fun _ => rfl) (left_failed (heligible h₂) _).le

/-- A tick spends a batch of the work, or an attempt of the whole backlog. -/
theorem safe_tick_spends {s : Snap P} (h : Backlog cfg.maxAttempts k ids work most s.state) :
    safe postgres Working (beside cfg.maxAttempts k) 0 (tick cfg) (fun _ s =>
      Backlog cfg.maxAttempts k ids work (most - 1) s.state ∨
        cfg.batchSize.toNat ≤ work ∧
          Backlog cfg.maxAttempts k ids (work - cfg.batchSize.toNat) most s.state) s := by
  rw [tick_eq]
  apply safe_bind
  intro s₁ haside o ho
  refine ⟨fun hi => absurd rfl hi, ?_⟩
  have h₁ := h.aside (haside rfl)
  obtain ⟨hf, hskipped⟩ := ho
  simp only [postgres, answerDb, hf, hskipped, Bool.false_eq_true]
  intro s₂ haside₂
  have haside₁₂ : Aside cfg.maxAttempts k s₁.state s₂.state := haside₂ rfl
  apply safe_bind
  rcases inTick_claim (b := cfg.batchSize) h₁ with ⟨hle, hin⟩ | hin
  · refine safe_mono (safe_batch _ 0 (hin.aside haside₁₂)) fun _ s hdone => ?_
    exact fun s' haside => Or.inr ⟨hle, hdone.done.1.aside (haside rfl)⟩
  · refine safe_mono (safe_batch _ 0 (hin.aside haside₁₂)) fun _ s hdone => ?_
    exact fun s' haside => Or.inl ((hdone.done.2 trivial).aside (haside rfl))

/-- The ticks that a backlog takes at most. -/
theorem safe_runLoop_drains (hbatch : 0 < cfg.batchSize) (n : Nat) {s : Snap P}
    (h : Backlog cfg.maxAttempts k ids work most s.state)
    (hn : most = 0 ∨ work / cfg.batchSize.toNat + most ≤ n) :
    safe postgres Working (beside cfg.maxAttempts k) 0 (runLoop cfg n)
      (fun _ s => ∃ work, Backlog cfg.maxAttempts k ids work 0 s.state) s := by
  induction n generalizing work most s with
  | zero =>
    have hmost : most = 0 :=
      hn.elim id fun hn => Nat.le_zero.mp ((Nat.le_add_left _ _).trans hn)
    subst hmost
    exact fun s' haside => ⟨work, h.aside (haside rfl)⟩
  | succ n ih =>
    apply safe_bind
    refine safe_mono (safe_tick_spends h) fun _ s hspent => ?_
    rcases hspent with hless | ⟨hle, hless⟩
    · exact ih hless (by omega)
    · refine ih hless ?_
      rcases hn with hzero | hn
      · exact Or.inl hzero
      · right
        rw [Nat.div_eq_sub_div (by omega) hle] at hn
        omega

/-! ## The law -/

theorem attemptsLeft_below {db : Db P} (h : db.Ok) :
    workBelow m db.nextID db = attemptsLeft m db := by
  unfold workBelow attemptsLeft
  refine congrArg List.sum (List.map_congr_left fun r hr => ?_)
  refine if_pos (h.ids_below r.id ?_)
  unfold Db.ids
  rcases List.mem_append.mp hr with hr | hr
  · exact List.mem_append_left _ (List.mem_map_of_mem hr)
  · obtain ⟨x, hx, rfl⟩ := List.mem_map.mp hr
    exact List.mem_append_right _ (List.mem_map_of_mem (f := fun x => x.2.id) hx)

theorem backlog_start {db : Db P} (h : db.Ok) :
    Backlog m db.nextID (db.rows.map (·.id)) (attemptsLeft m db) m.toNat db where
  ok := h
  next := Nat.le_refl _
  below id hid := h.ids_below id (List.mem_append_left _ hid)
  present _ hid := hid
  work_le := (attemptsLeft_below h).le
  left_le r _ _ := left_le m r

theorem startOne_safe {db : Db P} (h : db.Ok) (cfg : RelayConfig) (ticks : Nat)
    (producers : List (Producer P))
    (hticks : attemptsLeft cfg.defaults.maxAttempts db / cfg.defaults.batchSize.toNat +
      cfg.defaults.maxAttempts.toNat ≤ ticks) :
    AllSafe postgres Working (beside cfg.defaults.maxAttempts db.nextID)
      (fun i _ s => i = 0 → ∃ work, Backlog cfg.defaults.maxAttempts db.nextID
        (db.rows.map (·.id)) work 0 s.state) (startOne db cfg ticks producers) := by
  intro i p hp
  unfold startOne start at hp
  rw [List.getElem?_map, Option.map_eq_some_iff] at hp
  obtain ⟨task, htask, rfl⟩ := hp
  cases i with
  | zero =>
    obtain rfl := Option.some.inj htask
    exact safe_mono (safe_runLoop_drains (defaults_pos cfg).2.1 ticks (backlog_start h)
      (Or.inr hticks)) fun _ _ hdone _ => hdone
  | succ i =>
    rw [List.getElem?_cons_succ, List.getElem?_map, Option.map_eq_some_iff] at htask
    obtain ⟨p, -, rfl⟩ := htask
    exact safe_mono (safe_writes (produce_writes p.tx p.abandons p.events) (i + 1) _)
      fun _ _ _ hi => absurd hi (Nat.succ_ne_zero i)

/-- The outbox drains: while every claim is answered and every update takes effect, each event of
the table is published, or its attempts are used up, after a number of ticks that is known when the
relay starts. Any `Publish` may fail, and producers may write as many events as they like. -/
theorem the_outbox_drains {db : Db P} (h : db.Ok) (cfg : RelayConfig) (ticks : Nat)
    (producers : List (Producer P)) (picks : List (Nat × Outcome))
    (hticks : attemptsLeft cfg.defaults.maxAttempts db / cfg.defaults.batchSize.toNat +
      cfg.defaults.maxAttempts.toNat ≤ ticks)
    (hworking : Allowed postgres Working picks (startOne db cfg ticks producers))
    (hdone : (schedule postgres picks (startOne db cfg ticks producers)).threads[0]? =
      some (.done ())) :
    ∀ r₀ ∈ db.rows, ∃ r ∈ (schedule postgres picks (startOne db cfg ticks producers)).shot.state.rows,
      r.pending = r₀.pending ∧
        (r.publishedAt.isSome ∨ cfg.defaults.maxAttempts ≤ (r.attempts : Int)) := by
  intro r₀ hr₀
  obtain ⟨hsafe, -⟩ := allSafe_schedule (I := fun _ => True) (fun _ _ _ _ _ => trivial)
    (startOne_safe h cfg ticks producers hticks) trivial hworking
  obtain ⟨work, hbacklog⟩ := allSafe_done hsafe hdone rfl
  have hstays := events_run (startOne db cfg ticks producers) picks
  obtain ⟨r, hr, hpending⟩ := List.mem_map.mp (hstays.subset (List.mem_map_of_mem hr₀))
  refine ⟨r, hr, hpending, ?_⟩
  have hid : r.id = r₀.id := congrArg Pending.id hpending
  have hleft := hbacklog.left_le r hr (hid ▸ List.mem_map_of_mem hr₀)
  have hnot : eligible cfg.defaults.maxAttempts r ≠ true := fun heligible =>
    absurd (left_pos heligible) (by omega)
  cases hpublished : r.publishedAt with
  | some t => exact Or.inl rfl
  | none =>
    right
    by_contra hlt
    exact hnot (by simpa [eligible, hpublished] using hlt)

/-! ## A run -/

/-- Two events that wait. -/
def waitingEvents : Db String :=
  ⟨[⟨1, "j", "a", "audio.queue", "m", "t", none, 0, none⟩,
    ⟨2, "k", "b", "audio.queue", "n", "t", none, 0, none⟩], [], 3⟩

/-- Another one is written meanwhile, and a transaction of its own commits it. -/
def laterProducer : Producer String := ⟨7, false, [⟨"l", "c", "audio.queue", some "o", "t"⟩]⟩

/-- The first event is refused, the second one is taken, and then the new one is claimed. -/
def drainPicks : List (Nat × Outcome) :=
  [(0, {}), (1, {}), (0, { fails := true, error := "closed" }), (1, {}), (0, {}), (0, {}), (0, {}),
    (0, {}), (0, {}), (0, {}), (0, {})]

/-- One event in a batch and one attempt for each: three ticks are enough. -/
theorem the_waiting_events_are_settled :
    waitingEvents.rows.length = 2 ∧
    ∀ r₀ ∈ waitingEvents.rows, ∃ r ∈ (schedule postgres drainPicks
        (startOne waitingEvents ⟨0, 1, 1⟩ 3 [laterProducer])).shot.state.rows,
      r.pending = r₀.pending ∧ (r.publishedAt.isSome ∨ (1 : Int) ≤ (r.attempts : Int)) :=
  ⟨rfl, the_outbox_drains ⟨by decide, by decide, by decide⟩ ⟨0, 1, 1⟩ 3 [laterProducer] drainPicks
    (by decide)
    ⟨⟨rfl, rfl⟩, trivial, trivial, trivial, rfl, ⟨rfl, rfl⟩, trivial, rfl, ⟨rfl, rfl⟩, trivial, rfl,
      trivial⟩
    rfl⟩

end Runs

end recast_rules.outbox
