-- The order in which the events of a job are published. The relay goes through its batch by id, and
-- where a publish fails it goes on with the next event, of whatever job that is.
import RecastAi.SingleRelay

open call_programs

namespace recast_rules.outbox

variable {P : Type}

/-- The broker took the event. -/
def Taken (s : Snap P) (p : Pending P) : Prop := ∃ i, Acked s i p

/-- The event was published, or it has no attempts left. -/
def Settled (max : Int) (s : Snap P) (r : JobEvent P) : Prop :=
  Taken s r.pending ∨ max ≤ (r.attempts : Int)

/-- No event was published before an earlier one of its job was settled. -/
def InOrder (cfg : RelayConfig) (s : Snap P) : Prop :=
  ∀ a ∈ s.state.rows, ∀ b ∈ s.state.rows, a.jobID = b.jobID → a.id < b.id → Taken s b.pending →
    Settled cfg.defaults.maxAttempts s a

/-- Only a publish fails, and nothing but the relay locks a row. -/
def OnlyPublishFails (_ : Snap P) (_ : Nat) : Call P → Outcome → Prop
  | .claim _ _, o => o.fails = false ∧ o.skipped = []
  | .publish _, _ => True
  | _, o => o.fails = false

/-- No later event of the same job waits in the batch behind an event whose publish has failed, unless
that was its last attempt; and no event is committed when a later one of its job was published, or is
in the batch. -/
def KeepsOrder (max : Int) (s : Snap P) (_ : Nat) : Call P → Outcome → Prop
  | .claim _ _, o => o.skipped = []
  | .markFailure id _, o => ∀ r ∈ s.state.rows, r.id = id → ∀ q ∈ inHand (s.own 0),
      q.jobID = r.jobID → id < q.id → landed o = true ∧ max ≤ (r.attempts : Int) + 1
  | .commit tx, o => landed o = true → ∀ r, (tx, r) ∈ s.state.opened → ∀ q : Pending P,
      q.jobID = r.jobID → r.id < q.id → ¬Taken s q ∧ q ∉ inHand (s.own 0)
  | _, _ => True

/-! ## The invariant -/

/-- What the broker took is in the table, and what is marked as published it took. -/
structure Told (s : Snap P) : Prop extends Alone s where
  acked_known : ∀ i p, Acked s i p → Known s p
  marked : ∀ r ∈ s.state.rows, r.publishedAt.isSome → Taken s r.pending

structure Ordered (max : Int) (s : Snap P) : Prop extends Told s where
  published : ∀ a ∈ s.state.rows, ∀ b ∈ s.state.rows, a.jobID = b.jobID → a.id < b.id →
    Taken s b.pending → Settled max s a
  waiting : ∀ a ∈ s.state.rows, ∀ q ∈ inHand (s.own 0), a.jobID = q.jobID → a.id < q.id →
    Settled max s a ∨ a.pending ∈ inHand (s.own 0)

section Step

variable {cfg : RelayConfig} {s : Snap P} {i : Nat} {c : Call P} {o : Outcome}

/-- What the broker took after a step was taken before, or it is at the head of the batch. -/
theorem acked_after {j : Nat} {p : Pending P} (ht : Turn cfg i (s.own i) c)
    (h : Acked (s.after postgres i c o) j p) :
    Acked s j p ∨ j = 0 ∧ c = .publish p ∧ (inHand (s.own 0)).head? = some p := by
  rcases Shot.mem_after.mp h with hm | hm
  · obtain ⟨rfl, hc, -⟩ := call_programs.Event.mk.inj hm
    subst hc
    obtain ⟨rfl, hhead, -⟩ := turn_publish ht
    exact Or.inr ⟨rfl, rfl, hhead⟩
  · exact Or.inl hm

/-- A row is marked as published when it was published just before. -/
theorem acked_of_mark {id : Nat} (h : Told s) (ht : Turn cfg i (s.own i) (.markPublished id))
    {r : JobEvent P} (hr : r ∈ s.state.rows) (hid : r.id = id) : Acked s 0 r.pending := by
  obtain ⟨rfl, p, h', hown, hp, -⟩ := turn_markPublished ht
  have hacked : Acked s 0 p := by
    have hmem : ⟨0, .publish p, .ok ()⟩ ∈ s.own 0 := hown ▸ List.mem_cons_self
    exact (mem_own.mp hmem).1
  obtain ⟨r', hr', rfl⟩ := List.mem_map.mp (h.acked_known 0 p hacked)
  rw [row_of_id h.db_ok hr hr' (hid.trans hp.symm)]
  exact hacked

theorem told_step (ht : Turn cfg i (s.own i) c) (h : Told s) : Told (s.after postgres i c o) where
  toAlone := alone_step ht h.toAlone
  acked_known j p hp := by
    rcases acked_after ht hp with hp | ⟨-, -, hhead⟩
    · exact (h.acked_known j p hp).after
    · exact (h.hand_known p (List.mem_of_mem_head? hhead)).after
  marked r hr hp := by
    obtain ⟨r₀, hr₀, hpending, hold | rfl⟩ := marked_answer h.db_ok hr hp
    · obtain ⟨j, hj⟩ := h.marked r₀ hr₀ hold
      exact ⟨j, hpending ▸ hj.after⟩
    · exact ⟨0, hpending ▸ (acked_of_mark h ht hr₀ (congrArg Pending.id hpending)).after⟩

theorem Taken.after {p : Pending P} (h : Taken s p) : Taken (s.after postgres i c o) p :=
  h.imp fun _ hj => hj.after

theorem Settled.after {max : Int} {r r' : JobEvent P} (h : Settled max s r)
    (hpending : r.pending = r'.pending) (hattempts : r.attempts ≤ r'.attempts) :
    Settled max (s.after postgres i c o) r' := by
  rcases h with htaken | hmax
  · exact Or.inl (hpending ▸ htaken.after)
  · exact Or.inr (hmax.trans (Int.ofNat_le.mpr hattempts))

/-- A row that waits in the batch settles when it is marked. -/
theorem settled_by_mark {r : JobEvent P} (ht : Turn cfg i (s.own i) c) (h : Told s)
    (hkeeps : KeepsOrder cfg.maxAttempts s i c o) (hr : r ∈ s.state.rows) (hc : Marks c r.id)
    {q : Pending P} (hq : q ∈ inHand (s.own 0)) (hjob : r.jobID = q.jobID) (hid : r.id < q.id) :
    ∀ r' ∈ (s.after postgres i c o).state.rows, r'.id = r.id →
      Settled cfg.maxAttempts (s.after postgres i c o) r' := by
  intro r' hr' hsame
  obtain ⟨r'', hr'', hpending, -, hcounted⟩ := row_after (o := o) (c := c) hr
  have hdb := ok_answer h.db_ok o c
  have heq : r'' = r' := row_of_id hdb hr'' hr' ((congrArg Pending.id hpending).trans hsame.symm)
  subst heq
  have hrow := hc
  obtain rfl | ⟨cause, rfl⟩ := hc
  · have htaken : Taken s r.pending := ⟨0, acked_of_mark h ht hr rfl⟩
    exact Or.inl (hpending ▸ htaken.after)
  · obtain ⟨hl, hmax⟩ := hkeeps r hr rfl q hq hjob.symm hid
    right
    rw [hcounted hrow hl]
    exact_mod_cast hmax

/-- What waits before a row of a new batch is settled, or it is in the batch itself. -/
theorem waiting_claimed (h : Told s) {b : Int} {a : JobEvent P} (ha : a ∈ s.state.rows)
    {q : Pending P} (hq : q ∈ (claimRows s.state.rows [] cfg.maxAttempts b).map JobEvent.pending)
    (hid : a.id < q.id) : Settled cfg.maxAttempts s a ∨
      a.pending ∈ (claimRows s.state.rows [] cfg.maxAttempts b).map JobEvent.pending := by
  obtain ⟨r, hr, rfl⟩ := List.mem_map.mp hq
  cases hel : eligible cfg.maxAttempts a with
  | true => exact Or.inr (List.mem_map_of_mem (claimRows_closed ha hel hr hid))
  | false =>
    left
    cases hpublished : a.publishedAt with
    | some t =>
      have hsome : a.publishedAt.isSome := by rw [hpublished]; rfl
      exact Or.inl (h.marked a ha hsome)
    | none =>
      right
      unfold eligible at hel
      rw [hpublished, Option.isNone_none, Bool.true_and] at hel
      exact Int.not_lt.mp (of_decide_eq_false hel)

theorem published_step (hkeeps : KeepsOrder cfg.maxAttempts s i c o) (ht : Turn cfg i (s.own i) c)
    (h : Ordered cfg.maxAttempts s) {a b : JobEvent P}
    (ha : a ∈ (s.after postgres i c o).state.rows) (hb : b ∈ (s.after postgres i c o).state.rows)
    (hjob : a.jobID = b.jobID) (hid : a.id < b.id) (htaken : Taken (s.after postgres i c o) b.pending) :
    Settled cfg.maxAttempts (s.after postgres i c o) a := by
  obtain ⟨j, hacked⟩ := htaken
  have hbefore := acked_after ht hacked
  rcases row_before ha with ⟨a₀, ha₀, hpa, hattempts, -⟩ | ⟨tx, rfl, hl, hopened⟩
  · rcases row_before hb with ⟨b₀, hb₀, hpb, -, -⟩ | ⟨tx, rfl, -, hopened⟩
    · refine Settled.after ?_ hpa hattempts
      have hjob₀ : a₀.jobID = b₀.jobID :=
        (congrArg Pending.jobID hpa).trans (hjob.trans (congrArg Pending.jobID hpb).symm)
      have hid₀ : a₀.id < b₀.id := by
        rw [show a₀.id = a.id from congrArg Pending.id hpa,
          show b₀.id = b.id from congrArg Pending.id hpb]
        exact hid
      rw [← hpb] at hbefore
      rcases hbefore with hold | ⟨-, -, hhead⟩
      · exact h.published a₀ ha₀ b₀ hb₀ hjob₀ hid₀ ⟨j, hold⟩
      · -- the event at the head of the batch is published
        obtain ⟨rest, hrest⟩ := List.head?_eq_some_iff.mp hhead
        have hhand := h.waiting a₀ ha₀ b₀.pending (List.mem_of_mem_head? hhead) hjob₀ hid₀
        refine hhand.resolve_right fun hmem => ?_
        have hsorted := h.hand_sorted
        rw [hrest] at hmem hsorted
        rcases List.mem_cons.mp hmem with heq | hmem
        · exact hid₀.ne (congrArg Pending.id heq)
        · exact hid₀.not_gt (List.rel_of_pairwise_cons hsorted hmem)
    · rcases hbefore with hold | ⟨-, hc, -⟩
      · obtain ⟨r, hr, hpending⟩ := List.mem_map.mp (h.acked_known j b.pending hold)
        exact absurd (congrArg Pending.id hpending) (opened_new h.db_ok hopened hr)
      · cases hc
  · rcases hbefore with hold | ⟨-, hc, -⟩
    · exact absurd ⟨j, hold⟩ (hkeeps hl a hopened b.pending hjob.symm hid).1
    · cases hc

theorem waiting_step (hkeeps : KeepsOrder cfg.maxAttempts s i c o) (ht : Turn cfg i (s.own i) c)
    (h : Ordered cfg.maxAttempts s) {a : JobEvent P}
    (ha : a ∈ (s.after postgres i c o).state.rows) {q : Pending P}
    (hq : q ∈ inHand ((s.after postgres i c o).own 0)) (hjob : a.jobID = q.jobID) (hid : a.id < q.id) :
    Settled cfg.maxAttempts (s.after postgres i c o) a ∨
      a.pending ∈ inHand ((s.after postgres i c o).own 0) := by
  rcases row_before ha with ⟨a₀, ha₀, hpa, hattempts, -⟩ | ⟨tx, rfl, hl, hopened⟩
  · have hjob₀ : a₀.jobID = q.jobID := (congrArg Pending.jobID hpa).trans hjob
    have hsame : a₀.id = a.id := congrArg Pending.id hpa
    have hid₀ : a₀.id < q.id := by omega
    have hsettles : Settled cfg.maxAttempts s a₀ → Settled cfg.maxAttempts (s.after postgres i c o) a :=
      fun hs => hs.after hpa hattempts
    rw [← hpa]
    rcases hand_cases (o := o) ht with ⟨b, -, rfl, hhand⟩ | hnil | hkept | ⟨p, hc, hhead, htail⟩
    · have hskipped : o.skipped = [] := hkeeps
      rw [hskipped] at hhand
      rw [hhand] at hq ⊢
      exact (waiting_claimed h.toTold ha₀ hq hid₀).imp_left hsettles
    · rw [hnil] at hq
      cases hq
    · rw [hkept] at hq ⊢
      exact (h.waiting a₀ ha₀ q hq hjob₀ hid₀).imp_left hsettles
    · obtain ⟨rest, hrest⟩ := List.head?_eq_some_iff.mp hhead
      rw [htail] at hq ⊢
      have hold := List.mem_of_mem_tail hq
      rcases h.waiting a₀ ha₀ q hold hjob₀ hid₀ with hs | hmem
      · exact Or.inl (hsettles hs)
      · rw [hrest] at hmem ⊢
        rcases List.mem_cons.mp hmem with rfl | hmem
        · exact Or.inl (settled_by_mark ht h.toTold hkeeps ha₀ hc hold hjob₀ hid₀ a ha hsame.symm)
        · exact Or.inr hmem
  · rcases hand_after (o := o) ht with ⟨b, -, hc, -⟩ | hsub
    · cases hc
    · exact absurd (hsub.subset hq) (hkeeps hl a hopened q hjob.symm hid).2

theorem ordered_step (hkeeps : KeepsOrder cfg.maxAttempts s i c o) (ht : Turn cfg i (s.own i) c)
    (h : Ordered cfg.maxAttempts s) : Ordered cfg.maxAttempts (s.after postgres i c o) where
  toTold := told_step ht h.toTold
  published _ ha _ hb hjob hid htaken := published_step hkeeps ht h ha hb hjob hid htaken
  waiting _ ha _ hq hjob hid := waiting_step hkeeps ht h ha hq hjob hid

end Step

/-! ## The law -/

theorem ordered_start {db : Db P} (h : Unmarked db) (cfg : RelayConfig) (ticks : Nat)
    (producers : List (Producer P)) :
    Ordered cfg.defaults.maxAttempts (startOne db cfg ticks producers).shot where
  toAlone := alone_start ⟨h.ids_nodup, h.ids_below, h.opened⟩ cfg ticks producers
  acked_known j p hp := by cases hp
  marked r hr hp := by
    rw [h.rows r hr] at hp
    cases hp
  published a _ b _ _ _ htaken := by
    obtain ⟨j, hacked⟩ := htaken
    cases hacked
  waiting a _ q hq := by cases hq

/-- Where no failed event leaves a later one of its job behind it in the batch, and no event is
committed after a later one of its job was taken up, the events of each job are published in order. -/
theorem jobs_stay_in_order (db : Db P) (h : Unmarked db) (cfg : RelayConfig) (ticks : Nat)
    (producers : List (Producer P)) (picks : List (Nat × Outcome))
    (hkeeps : Allowed postgres (KeepsOrder cfg.defaults.maxAttempts) picks
      (startOne db cfg ticks producers)) :
    InOrder cfg (schedule postgres picks (startOne db cfg ticks producers)).shot :=
  (invariant_along (fun _ _ _ _ hc ht hs => ordered_step hc ht hs)
    (startOne_follows db cfg ticks producers) (ordered_start h cfg ticks producers) hkeeps).published

/-- Two events of one job. -/
def twoEvents : Db String :=
  ⟨[⟨1, "j", "a", "audio.queue", "m", "t", none, 0, none⟩,
    ⟨2, "j", "b", "video.queue", "n", "t", none, 0, none⟩], [], 3⟩

theorem twoEvents_unmarked : Unmarked twoEvents := ⟨by decide, by decide, by decide, by decide⟩

theorem two_events_are_published_in_order :
    InOrder ⟨0, 0, 0⟩ (schedule postgres [(0, {}), (0, {}), (0, {}), (0, {}), (0, {})]
      (startOne twoEvents ⟨0, 0, 0⟩ 1 [])).shot :=
  jobs_stay_in_order twoEvents twoEvents_unmarked ⟨0, 0, 0⟩ 1 [] _
    ⟨rfl, trivial, trivial, trivial, trivial, trivial⟩

/-- The publish of the first event fails, and the second one is published after it. -/
theorem a_later_event_overtakes_a_failed_one :
    ¬ ∀ (db : Db String) (cfg : RelayConfig) (ticks : Nat) (producers : List (Producer String))
      (picks : List (Nat × Outcome)), Unmarked db →
        Allowed postgres OnlyPublishFails picks (startOne db cfg ticks producers) →
        InOrder cfg (schedule postgres picks (startOne db cfg ticks producers)).shot := by
  intro h
  have horder := h twoEvents ⟨0, 0, 0⟩ 1 []
    [(0, {}), (0, { fails := true, error := "closed" }), (0, {}), (0, {})] twoEvents_unmarked
    ⟨⟨rfl, rfl⟩, trivial, rfl, trivial, trivial⟩
  have hsettled := horder ⟨1, "j", "a", "audio.queue", "m", "t", none, 1, some "closed"⟩
    (List.mem_cons_self) ⟨2, "j", "b", "video.queue", "n", "t", none, 0, none⟩
    (List.mem_cons_of_mem _ List.mem_cons_self) rfl (by decide) ⟨0, List.mem_cons_self⟩
  rcases hsettled with ⟨j, hacked⟩ | hmax
  · have hlog : (⟨j, .publish ⟨1, "j", "a", "audio.queue", "m", "t"⟩, .ok ()⟩ : Seen String) ∈
        [(⟨0, .publish ⟨2, "j", "b", "video.queue", "n", "t"⟩, .ok ()⟩ : Seen String),
          ⟨0, .markFailure 1 "closed", .ok ()⟩,
          ⟨0, .publish ⟨1, "j", "a", "audio.queue", "m", "t"⟩, .error "closed"⟩,
          ⟨0, .claim 8 100, .ok (twoEvents.rows.map JobEvent.pending)⟩] := hacked
    rcases hlog with _ | ⟨_, hlog⟩
    rcases hlog with _ | ⟨_, hlog⟩
    rcases hlog with _ | ⟨_, hlog⟩
    rcases hlog with _ | ⟨_, hlog⟩
    cases hlog
  · exact absurd hmax (by decide)

end recast_rules.outbox
