-- One relay over the outbox, beside any number of producers. What it has in hand is told by what
-- was answered to it: the rest of its last claim, in the order of the ids.
import RecastAi.Histories
import RecastAi.OutboxSafety

open call_programs

namespace recast_rules.outbox

variable {P : Type}

abbrev Seen (P : Type) := call_programs.Event (Call P) Answer

/-! ## The batch in hand -/

/-- The rows of the last claim that are not marked yet, and marked here also says that the update
was tried. -/
def inHand : List (Seen P) → List (Pending P)
  | [] => []
  | ⟨_, .claim _ _, .ok batch⟩ :: _ => batch
  | ⟨_, .claim _ _, .error _⟩ :: _ => []
  | ⟨_, .markPublished _, _⟩ :: h => (inHand h).tail
  | ⟨_, .markFailure _ _, _⟩ :: h => (inHand h).tail
  | _ :: h => inHand h

/-- How often the row was passed to `Publish`. -/
def publishes (id : Nat) : List (Seen P) → Nat
  | [] => 0
  | ⟨_, .publish p, _⟩ :: h => publishes id h + if p.id = id then 1 else 0
  | _ :: h => publishes id h

/-- How often an update was tried that counts an attempt of the row. -/
def marks (id : Nat) : List (Seen P) → Nat
  | [] => 0
  | ⟨_, .markPublished id', _⟩ :: h => marks id h + if id' = id then 1 else 0
  | ⟨_, .markFailure id' _, _⟩ :: h => marks id h + if id' = id then 1 else 0
  | _ :: h => marks id h

/-- Each row that was passed to `Publish` was marked after it. -/
def Even (h : List (Seen P)) : Prop := ∀ id, publishes id h = marks id h

/-- What the relay does next, told by what was answered to it. -/
def Serving (cfg : RelayConfig) (h : List (Seen P)) : Call P → Prop
  | .claim maxAttempts batchSize =>
    maxAttempts = cfg.maxAttempts ∧ batchSize = cfg.batchSize ∧ Even h
  | .publish p => (inHand h).head? = some p ∧ Even h
  | .markPublished id => ∃ p h', h = ⟨0, .publish p, .ok ()⟩ :: h' ∧ p.id = id ∧
      (inHand h').head? = some p ∧ Even h'
  | .markFailure id cause => ∃ p h', h = ⟨0, .publish p, .error cause⟩ :: h' ∧ p.id = id ∧
      (inHand h').head? = some p ∧ Even h'
  | _ => False

/-- The call of a producer. -/
def Writes : Call P → Prop
  | .newString => True
  | .insert _ _ _ _ _ _ => True
  | .commit _ => True
  | .rollback _ => True
  | _ => False

section Programs

variable {cfg : RelayConfig} {h : List (Seen P)}

theorem follows_publishBatch (batch : List (Pending P)) (n : Nat) (hhand : inHand h = batch)
    (heven : Even h) :
    (publishBatch batch n).Follows 0 (Serving cfg) (fun _ h => Even h) h := by
  induction batch generalizing n h with
  | nil => exact heven
  | cons p batch ih =>
    have hhead : (inHand h).head? = some p := by rw [hhand]; rfl
    refine ⟨⟨hhead, heven⟩, fun x => ?_⟩
    cases x with
    | error e =>
      refine ⟨⟨p, h, rfl, rfl, hhead, heven⟩, fun _ => ih n ?_ ?_⟩
      · exact congrArg List.tail hhand
      · intro id
        exact congrArg (· + if p.id = id then 1 else 0) (heven id)
    | ok _ =>
      refine ⟨⟨p, h, rfl, rfl, hhead, heven⟩, fun x => ?_⟩
      have hnext : Even (⟨0, .markPublished p.id, x⟩ :: ⟨0, .publish p, .ok ()⟩ :: h) := fun id =>
        congrArg (· + if p.id = id then 1 else 0) (heven id)
      cases x with
      | error e => exact ih n (congrArg List.tail hhand) hnext
      | ok _ => exact ih (n + 1) (congrArg List.tail hhand) hnext

theorem follows_tick (heven : Even h) :
    (tick cfg).Follows 0 (Serving cfg) (fun _ h => Even h) h := by
  rw [tick_eq]
  refine ⟨⟨rfl, rfl, heven⟩, fun x => ?_⟩
  cases x with
  | error e => exact heven
  | ok batch =>
    change (publishBatch batch 0 >>= fun n => Prog.done (Except.ok n)).Follows 0 _ _ _
    exact follows_bind (follows_publishBatch batch 0 rfl heven)

theorem follows_runLoop (n : Nat) (heven : Even h) :
    (runLoop cfg n).Follows 0 (Serving cfg) (fun _ _ => True) h := by
  induction n generalizing h with
  | zero => trivial
  | succ n ih => exact follows_bind (follows_mono (follows_tick heven) fun _ _ heven => ih heven)

theorem attemptID_writes (ev : Event P) : (attemptID ev).Only Writes fun _ => True := by
  unfold attemptID
  split
  · exact ⟨trivial, fun _ => trivial⟩
  · trivial

theorem txPublish_writes (tx : Nat) (ev : Event P) :
    (txPublish tx ev).Only Writes fun _ => True := by
  unfold txPublish
  split
  · trivial
  · refine only_bind (attemptID_writes ev) fun id _ => ?_
    split
    · trivial
    · refine ⟨trivial, fun x => ?_⟩
      cases x <;> trivial

theorem produce_writes (tx : Nat) (abandons : Bool) (events : List (Event P)) :
    (produce tx abandons events).Only Writes fun _ => True := by
  induction events with
  | nil =>
    unfold produce
    split
    · exact ⟨trivial, fun _ => trivial⟩
    · exact ⟨trivial, fun _ => trivial⟩
  | cons ev events ih =>
    refine only_bind (txPublish_writes tx ev) fun x _ => ?_
    cases x with
    | error e => exact ⟨trivial, fun _ => trivial⟩
    | ok _ => exact ih

end Programs

/-! ## One relay and its producers -/

/-- A transaction that writes events. -/
structure Producer (P : Type) where
  tx : Nat
  abandons : Bool
  events : List (Event P)

/-- The relay is the thread 0. -/
def startOne (db : Db P) (cfg : RelayConfig) (ticks : Nat) (producers : List (Producer P)) :
    Config (Call P) Answer (Db P) Unit :=
  start db (.relay cfg ticks :: producers.map fun p => .produce p.tx p.abandons p.events)

def Turn (cfg : RelayConfig) (i : Nat) (h : List (Seen P)) (c : Call P) : Prop :=
  if i = 0 then Serving cfg h c else Writes c

section Turns

variable {cfg : RelayConfig} {i : Nat} {h : List (Seen P)}

theorem turn_publish {p : Pending P} (ht : Turn cfg i h (.publish p)) :
    i = 0 ∧ (inHand h).head? = some p ∧ Even h := by
  unfold Turn at ht
  split at ht
  · exact ⟨‹_›, ht⟩
  · exact ht.elim

theorem turn_claim {m b : Int} (ht : Turn cfg i h (.claim m b)) :
    i = 0 ∧ m = cfg.maxAttempts ∧ Even h := by
  unfold Turn at ht
  split at ht
  · exact ⟨‹_›, ht.1, ht.2.2⟩
  · exact ht.elim

theorem turn_markPublished {id : Nat} (ht : Turn cfg i h (.markPublished id)) :
    i = 0 ∧ ∃ p h', h = ⟨0, .publish p, .ok ()⟩ :: h' ∧ p.id = id ∧
      (inHand h').head? = some p ∧ Even h' := by
  unfold Turn at ht
  split at ht
  · exact ⟨‹_›, ht⟩
  · exact ht.elim

theorem turn_markFailure {id : Nat} {cause : String} (ht : Turn cfg i h (.markFailure id cause)) :
    i = 0 ∧ ∃ p h', h = ⟨0, .publish p, .error cause⟩ :: h' ∧ p.id = id ∧
      (inHand h').head? = some p ∧ Even h' := by
  unfold Turn at ht
  split at ht
  · exact ⟨‹_›, ht⟩
  · exact ht.elim

theorem turn_writes {c : Call P} (ht : Turn cfg i h c) (hc : Writes c) : i ≠ 0 := by
  rintro rfl
  unfold Turn at ht
  rw [if_pos rfl] at ht
  cases c with
  | newString => exact ht
  | insert _ _ _ _ _ _ => exact ht
  | commit _ => exact ht
  | rollback _ => exact ht
  | _ => exact hc

end Turns

theorem startOne_follows (db : Db P) (cfg : RelayConfig) (ticks : Nat)
    (producers : List (Producer P)) :
    AllFollow (Turn cfg.defaults) (fun _ _ _ => True) (startOne db cfg ticks producers) := by
  refine allFollow_map fun i task htask => ?_
  cases i with
  | zero =>
    obtain rfl := Option.some.inj htask
    exact follows_admits (follows_runLoop ticks fun _ => rfl) fun _ _ h => by
      unfold Turn
      rwa [if_pos rfl]
  | succ i =>
    simp only [List.getElem?_cons_succ, List.getElem?_map, Option.map_eq_some_iff] at htask
    obtain ⟨p, -, rfl⟩ := htask
    refine follows_mono (follows_only (produce_writes p.tx p.abandons p.events) ?_) fun _ _ h => h
    intro h c hc
    unfold Turn
    rwa [if_neg (Nat.succ_ne_zero i)]

/-! ## What a claim returns -/

theorem sorted_by_id (l : List (JobEvent P)) :
    (l.insertionSort fun r r' => r.id ≤ r'.id).Pairwise fun r r' => r.id ≤ r'.id := by
  have _ : Std.Total fun r r' : JobEvent P => r.id ≤ r'.id := ⟨fun r r' => Nat.le_total r.id r'.id⟩
  have _ : IsTrans (JobEvent P) fun r r' => r.id ≤ r'.id := ⟨fun _ _ _ => Nat.le_trans⟩
  exact List.pairwise_insertionSort _ l

theorem claimRows_sorted {rows : List (JobEvent P)} (hids : (rows.map (·.id)).Nodup)
    (skipped : List Nat) (m b : Int) :
    (claimRows rows skipped m b).Pairwise fun r r' => r.id < r'.id := by
  have hsub : (claimRows rows skipped m b).Sublist
      ((rows.filter (eligible m)).insertionSort fun r r' => r.id ≤ r'.id) :=
    (List.take_sublist _ _).trans List.filter_sublist
  have hne : ((rows.filter (eligible m)).insertionSort fun r r' => r.id ≤ r'.id).Pairwise
      fun r r' => r.id ≠ r'.id := by
    refine List.pairwise_map.mp (?_ : List.Nodup _)
    exact ((List.perm_insertionSort _ _).map _).nodup_iff.mpr
      (hids.sublist (List.filter_sublist.map _))
  refine (((sorted_by_id _).and hne).sublist hsub).imp ?_
  rintro r r' ⟨hle, hne⟩
  exact Nat.lt_of_le_of_ne hle hne

/-- Where nothing is skipped, a row that could be claimed is claimed with each row that has a larger
id. -/
theorem claimRows_closed {rows : List (JobEvent P)} {m b : Int} {a r : JobEvent P} (ha : a ∈ rows)
    (hel : eligible m a = true) (hr : r ∈ claimRows rows [] m b) (hid : a.id < r.id) :
    a ∈ claimRows rows [] m b := by
  have hmem : a ∈ ((rows.filter (eligible m)).insertionSort fun r r' => r.id ≤ r'.id).filter
      fun r => !([] : List Nat).contains r.id := by
    refine List.mem_filter.mpr ⟨(List.mem_insertionSort _).mpr ?_, rfl⟩
    exact List.mem_filter.mpr ⟨ha, hel⟩
  have hsorted := (sorted_by_id (rows.filter (eligible m))).sublist
    (List.filter_sublist (p := fun r => !([] : List Nat).contains r.id))
  unfold claimRows at hr ⊢
  rw [← List.take_append_drop b.toNat (List.filter _ _)] at hmem hsorted
  rcases List.mem_append.mp hmem with htake | hdrop
  · exact htake
  · -- a row that the limit cuts off has no smaller id than one that is claimed
    have hle := (List.pairwise_append.mp hsorted).2.2 r hr a hdrop
    omega

/-! ## What a step does to the rows -/

/-- The update counts an attempt of the row. -/
def Marks (c : Call P) (id : Nat) : Prop := c = .markPublished id ∨ ∃ cause, c = .markFailure id cause

section Rows

variable {db : Db P} {o : Outcome} {c : Call P} {r : JobEvent P} {id : Nat}
  {f : JobEvent P → JobEvent P}

theorem row_of_update (hpending : ∀ r, (f r).pending = r.pending)
    (hattempts : ∀ r, (f r).attempts = r.attempts + 1) (hr : r ∈ updateRow db.rows id f) :
    ∃ r₀ ∈ db.rows, r₀.pending = r.pending ∧ r₀.attempts ≤ r.attempts ∧ (id = r₀.id ∨ r = r₀) := by
  rcases mem_updateRow hr with hold | ⟨r₀, hr₀, hid, rfl⟩
  · exact ⟨r, hold, rfl, le_refl _, Or.inr rfl⟩
  · exact ⟨r₀, hr₀, (hpending r₀).symm, by rw [hattempts]; omega, Or.inl hid.symm⟩

/-- A row of the table was there before, or its transaction is committed. -/
theorem row_before (hr : r ∈ (answerDb o db c).2.rows) :
    (∃ r₀ ∈ db.rows, r₀.pending = r.pending ∧ r₀.attempts ≤ r.attempts ∧
      (Marks c r₀.id ∨ r = r₀)) ∨
    ∃ tx, c = .commit tx ∧ landed o = true ∧ (tx, r) ∈ db.opened := by
  have hsame : r ∈ db.rows → ∃ r₀ ∈ db.rows, r₀.pending = r.pending ∧ r₀.attempts ≤ r.attempts ∧
      (Marks c r₀.id ∨ r = r₀) := fun hold => ⟨r, hold, rfl, le_refl _, Or.inr rfl⟩
  cases c with
  | markPublished id =>
    simp only [answerDb] at hr
    split at hr
    · obtain ⟨r₀, hr₀, hpending, hle, hid⟩ := row_of_update (f := .marked o.now)
        (fun _ => rfl) (fun _ => rfl) hr
      exact Or.inl ⟨r₀, hr₀, hpending, hle, hid.imp_left fun hid => Or.inl (congrArg Call.markPublished hid)⟩
    · exact Or.inl (hsame hr)
  | markFailure id cause =>
    simp only [answerDb] at hr
    split at hr
    · obtain ⟨r₀, hr₀, hpending, hle, hid⟩ := row_of_update (f := .failed cause)
        (fun _ => rfl) (fun _ => rfl) hr
      exact Or.inl ⟨r₀, hr₀, hpending, hle,
        hid.imp_left fun hid => Or.inr ⟨cause, congrArg (Call.markFailure · cause) hid⟩⟩
    · exact Or.inl (hsame hr)
  | commit tx =>
    simp only [answerDb] at hr
    split at hr
    · rename_i hl
      rcases List.mem_append.mp hr with hold | hnew
      · exact Or.inl (hsame hold)
      · obtain ⟨x, hx, rfl⟩ := List.mem_map.mp hnew
        obtain ⟨hmem, htx⟩ := List.mem_filter.mp hx
        exact Or.inr ⟨tx, rfl, hl, of_decide_eq_true htx ▸ hmem⟩
    · exact Or.inl (hsame hr)
  | _ => exact Or.inl (hsame hr)

theorem row_updated (id : Nat) (hpending : ∀ r, (f r).pending = r.pending)
    (hattempts : ∀ r, (f r).attempts = r.attempts + 1) (hr : r ∈ db.rows) :
    ∃ r' ∈ updateRow db.rows id f, r'.pending = r.pending ∧
      r'.attempts = r.attempts + if id = r.id then 1 else 0 := by
  refine ⟨if r.id = id then f r else r, List.mem_map_of_mem hr, ?_⟩
  by_cases hid : r.id = id
  · rw [if_pos hid, if_pos hid.symm]
    exact ⟨hpending r, hattempts r⟩
  · rw [if_neg hid, if_neg (Ne.symm hid)]
    exact ⟨rfl, rfl⟩

/-- A row stays, and an update that takes effect counts an attempt of it. -/
theorem row_after (hr : r ∈ db.rows) :
    ∃ r' ∈ (answerDb o db c).2.rows, r'.pending = r.pending ∧ r.attempts ≤ r'.attempts ∧
      (Marks c r.id → landed o = true → r'.attempts = r.attempts + 1) := by
  have hsame : r ∈ (answerDb o db c).2.rows → (Marks c r.id → landed o = true → False) →
      ∃ r' ∈ (answerDb o db c).2.rows, r'.pending = r.pending ∧ r.attempts ≤ r'.attempts ∧
        (Marks c r.id → landed o = true → r'.attempts = r.attempts + 1) :=
    fun hold hnot => ⟨r, hold, rfl, le_refl _, fun hc hl => (hnot hc hl).elim⟩
  cases c with
  | markPublished id =>
    by_cases hl : landed o = true
    · simp only [answerDb, if_pos hl]
      obtain ⟨r', hr', hpending, hattempts⟩ := row_updated (f := .marked o.now) id
        (fun _ => rfl) (fun _ => rfl) hr
      refine ⟨r', hr', hpending, by omega, fun hc _ => ?_⟩
      obtain hc | ⟨_, hc⟩ := hc
      · rw [hattempts, if_pos (Call.markPublished.inj hc)]
      · cases hc
    · refine hsame ?_ fun _ hl' => hl hl'
      simp only [answerDb, if_neg hl]
      exact hr
  | markFailure id cause =>
    by_cases hl : landed o = true
    · simp only [answerDb, if_pos hl]
      obtain ⟨r', hr', hpending, hattempts⟩ := row_updated (f := .failed cause) id
        (fun _ => rfl) (fun _ => rfl) hr
      refine ⟨r', hr', hpending, by omega, fun hc _ => ?_⟩
      obtain hc | ⟨_, hc⟩ := hc
      · cases hc
      · rw [hattempts, if_pos (Call.markFailure.inj hc).1]
    · refine hsame ?_ fun _ hl' => hl hl'
      simp only [answerDb, if_neg hl]
      exact hr
  | commit tx =>
    refine hsame ?_ fun hc _ => by simp [Marks] at hc
    simp only [answerDb]
    split
    · exact List.mem_append_left _ hr
    · exact hr
  | _ => exact hsame hr fun hc _ => by simp [Marks] at hc

/-- A row of an open transaction has an id of its own. -/
theorem opened_new (h : db.Ok) {tx : Nat} {r' : JobEvent P} (hr : (tx, r) ∈ db.opened)
    (hr' : r' ∈ db.rows) : r'.id ≠ r.id :=
  (List.nodup_append.mp h.ids_nodup).2.2 _ (List.mem_map_of_mem hr') _
    (List.mem_map_of_mem (f := fun x : Nat × JobEvent P => x.2.id) hr)

end Rows

/-! ## The invariant -/

/-- What holds of the batch in hand, whatever fails. -/
structure Alone (s : Snap P) : Prop where
  db_ok : s.state.Ok
  hand_known : ∀ p ∈ inHand (s.own 0), Known s p
  hand_sorted : (inHand (s.own 0)).Pairwise fun p q => p.id < q.id

section Step

variable {cfg : RelayConfig} {s : Snap P} {i : Nat} {c : Call P} {o : Outcome}

theorem own_other (hi : i ≠ 0) : (s.after postgres i c o).own 0 = s.own 0 :=
  own_after_ne postgres s hi c o

/-- An update is about the head of the batch, which it takes away. -/
theorem marks_head (ht : Turn cfg i (s.own i) c) {id : Nat} (hc : Marks c id) :
    ∃ p, p.id = id ∧ (inHand (s.own 0)).head? = some p ∧
      inHand ((s.after postgres i c o).own 0) = (inHand (s.own 0)).tail := by
  obtain rfl | ⟨cause, rfl⟩ := hc
  · obtain ⟨rfl, p, h', hown, hid, hhead, -⟩ := turn_markPublished ht
    exact ⟨p, hid, by rw [hown]; exact hhead, by rw [own_after_self]; rfl⟩
  · obtain ⟨rfl, p, h', hown, hid, hhead, -⟩ := turn_markFailure ht
    exact ⟨p, hid, by rw [hown]; exact hhead, by rw [own_after_self]; rfl⟩

/-- The batch in hand is a new claim, or it stays, or it loses its head to an update. -/
theorem hand_cases (ht : Turn cfg i (s.own i) c) :
    (∃ b, i = 0 ∧ c = .claim cfg.maxAttempts b ∧ inHand ((s.after postgres i c o).own 0) =
      (claimRows s.state.rows o.skipped cfg.maxAttempts b).map JobEvent.pending) ∨
    inHand ((s.after postgres i c o).own 0) = [] ∨
    inHand ((s.after postgres i c o).own 0) = inHand (s.own 0) ∨
    ∃ p, Marks c p.id ∧ (inHand (s.own 0)).head? = some p ∧
      inHand ((s.after postgres i c o).own 0) = (inHand (s.own 0)).tail := by
  by_cases hi : i = 0
  · subst hi
    rw [own_after_self]
    cases c with
    | claim m b =>
      obtain ⟨-, rfl, -⟩ := turn_claim ht
      cases hf : o.fails with
      | false =>
        refine Or.inl ⟨b, rfl, rfl, ?_⟩
        simp only [postgres, answerDb, hf, Bool.false_eq_true]
        rfl
      | true =>
        right
        left
        simp only [postgres, answerDb, hf]
        rfl
    | markPublished id =>
      have hc : Marks (P := P) (.markPublished id) id := Or.inl rfl
      obtain ⟨p, rfl, hhead, -⟩ := marks_head (o := o) ht hc
      exact Or.inr (Or.inr (Or.inr ⟨p, hc, hhead, rfl⟩))
    | markFailure id cause =>
      have hc : Marks (P := P) (.markFailure id cause) id := Or.inr ⟨cause, rfl⟩
      obtain ⟨p, rfl, hhead, -⟩ := marks_head (o := o) ht hc
      exact Or.inr (Or.inr (Or.inr ⟨p, hc, hhead, rfl⟩))
    | publish p => exact Or.inr (Or.inr (Or.inl rfl))
    | newString => exact absurd rfl (turn_writes ht trivial)
    | insert _ _ _ _ _ _ => exact absurd rfl (turn_writes ht trivial)
    | commit _ => exact absurd rfl (turn_writes ht trivial)
    | rollback _ => exact absurd rfl (turn_writes ht trivial)
  · rw [own_other hi]
    exact Or.inr (Or.inr (Or.inl rfl))

/-- The batch in hand is a new claim, or it only gets shorter. -/
theorem hand_after (ht : Turn cfg i (s.own i) c) :
    (∃ b, i = 0 ∧ c = .claim cfg.maxAttempts b ∧ inHand ((s.after postgres i c o).own 0) =
      (claimRows s.state.rows o.skipped cfg.maxAttempts b).map JobEvent.pending) ∨
    (inHand ((s.after postgres i c o).own 0)).Sublist (inHand (s.own 0)) := by
  rcases hand_cases (o := o) ht with hclaim | hnil | hsame | ⟨p, -, -, htail⟩
  · exact Or.inl hclaim
  · exact Or.inr (hnil ▸ List.nil_sublist _)
  · exact Or.inr (hsame ▸ List.Sublist.refl _)
  · exact Or.inr (htail ▸ List.tail_sublist _)

theorem alone_step (ht : Turn cfg i (s.own i) c) (h : Alone s) : Alone (s.after postgres i c o) where
  db_ok := ok_answer h.db_ok o c
  hand_known p hp := by
    rcases hand_after (o := o) ht with ⟨b, -, rfl, hhand⟩ | hsub
    · rw [hhand] at hp
      obtain ⟨r, hr, rfl⟩ := List.mem_map.mp hp
      exact Known.after (List.mem_map_of_mem (claimRows_sub hr).1)
    · exact (h.hand_known p (hsub.subset hp)).after
  hand_sorted := by
    rcases hand_after (o := o) ht with ⟨b, -, rfl, hhand⟩ | hsub
    · rw [hhand]
      exact List.pairwise_map.mpr
        (claimRows_sorted (List.nodup_append.mp h.db_ok.ids_nodup).1 o.skipped _ b)
    · exact h.hand_sorted.sublist hsub

end Step

theorem alone_start {db : Db P} (h : db.Ok) (cfg : RelayConfig) (ticks : Nat)
    (producers : List (Producer P)) : Alone (startOne db cfg ticks producers).shot where
  db_ok := h
  hand_known p hp := by cases hp
  hand_sorted := List.Pairwise.nil

end recast_rules.outbox
