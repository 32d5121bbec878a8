-- The cap on the attempts of an event. The count of the attempts is in the table, and it is advanced
-- by the updates that come after a publish, so an update that is lost gives the event one more try.
import RecastAi.SingleRelay

open call_programs

namespace recast_rules.outbox

variable {P : Type}

/-- No event was passed to `Publish` more often than `MaxAttempts` says. -/
def Capped (cfg : RelayConfig) (s : Snap P) : Prop :=
  ∀ id, (publishes id s.log : Int) ≤ cfg.defaults.maxAttempts

/-- An update that marks an event takes effect. -/
def Counts (_ : Snap P) (_ : Nat) (c : Call P) (o : Outcome) : Prop :=
  ∀ id, Marks c id → landed o = true

/-! ## The invariant -/

/-- The attempts in the table are what was tried, and what is in hand has some left. -/
structure Counted (max : Int) (s : Snap P) : Prop extends Alone s where
  fresh : ∀ r ∈ s.state.rows, r.pending ∈ inHand (s.own 0) → (r.attempts : Int) < max
  counted : ∀ id, 0 < marks id (s.own 0) →
    ∃ r ∈ s.state.rows, r.id = id ∧ marks id (s.own 0) ≤ r.attempts
  own : ∀ id, publishes id s.log = publishes id (s.own 0)
  capped : ∀ id, (publishes id s.log : Int) ≤ max

section Step

variable {cfg : RelayConfig} {s : Snap P} {i : Nat} {c : Call P} {o : Outcome} {id : Nat}

theorem attempts_tried {max : Int} (h : Counted max s) {r : JobEvent P} (hr : r ∈ s.state.rows) :
    marks r.id (s.own 0) ≤ r.attempts := by
  by_cases hzero : marks r.id (s.own 0) = 0
  · omega
  · obtain ⟨r', hr', hid, hle⟩ := h.counted r.id (Nat.pos_of_ne_zero hzero)
    exact row_of_id h.db_ok hr hr' hid.symm ▸ hle

/-- The row at the head of the batch. -/
theorem head_row (h : Alone s) {p : Pending P} (hhead : (inHand (s.own 0)).head? = some p) :
    ∃ r ∈ s.state.rows, r.pending = p :=
  List.mem_map.mp (h.hand_known p (List.mem_of_mem_head? hhead))

/-- How an update counts. -/
theorem marks_after (ht : Turn cfg i (s.own i) c) (id : Nat) :
    marks id ((s.after postgres i c o).own 0) = marks id (s.own 0) ∨
      Marks c id ∧ marks id ((s.after postgres i c o).own 0) = marks id (s.own 0) + 1 := by
  by_cases hi : i = 0
  · subst hi
    rw [own_after_self]
    cases c with
    | markPublished id' =>
      by_cases hid : id' = id
      · exact Or.inr ⟨Or.inl (congrArg _ hid), congrArg (marks id (s.own 0) + ·) (if_pos hid)⟩
      · exact Or.inl (congrArg (marks id (s.own 0) + ·) (if_neg hid))
    | markFailure id' cause =>
      by_cases hid : id' = id
      · exact Or.inr ⟨Or.inr ⟨cause, congrArg (Call.markFailure · cause) hid⟩,
          congrArg (marks id (s.own 0) + ·) (if_pos hid)⟩
      · exact Or.inl (congrArg (marks id (s.own 0) + ·) (if_neg hid))
    | _ => exact Or.inl rfl
  · rw [own_other hi]
    exact Or.inl rfl

/-- How a publish counts. -/
theorem publishes_after (ht : Turn cfg i (s.own i) c) (id : Nat) :
    publishes id (s.after postgres i c o).log = publishes id s.log ∧
        publishes id ((s.after postgres i c o).own 0) = publishes id (s.own 0) ∨
      ∃ p, c = .publish p ∧ p.id = id ∧
        publishes id (s.after postgres i c o).log = publishes id s.log + 1 ∧
        publishes id ((s.after postgres i c o).own 0) = publishes id (s.own 0) + 1 := by
  by_cases hi : i = 0
  · subst hi
    rw [own_after_self]
    cases c with
    | publish p =>
      by_cases hid : p.id = id
      · exact Or.inr ⟨p, rfl, hid, congrArg (publishes id s.log + ·) (if_pos hid),
          congrArg (publishes id (s.own 0) + ·) (if_pos hid)⟩
      · exact Or.inl ⟨congrArg (publishes id s.log + ·) (if_neg hid),
          congrArg (publishes id (s.own 0) + ·) (if_neg hid)⟩
    | _ => exact Or.inl ⟨rfl, rfl⟩
  · rw [own_other hi]
    cases c with
    | publish p => exact absurd (turn_publish ht).1 hi
    | _ => exact Or.inl ⟨rfl, rfl⟩

/-- What the relay claims has attempts left. -/
theorem claimed_fresh (h : Alone s) {b : Int} {r : JobEvent P} (hr : r ∈ s.state.rows)
    (hmem : r.pending ∈ (claimRows s.state.rows o.skipped cfg.maxAttempts b).map JobEvent.pending) :
    (r.attempts : Int) < cfg.maxAttempts := by
  obtain ⟨r₀, hr₀, hpending⟩ := List.mem_map.mp hmem
  obtain ⟨hrow, hel⟩ := claimRows_sub hr₀
  have hsame := row_of_id h.db_ok hrow hr (congrArg Pending.id hpending)
  unfold eligible at hel
  rw [hsame, Bool.and_eq_true] at hel
  exact of_decide_eq_true hel.2

/-- A row that is marked is no longer in hand. -/
theorem marked_gone (ht : Turn cfg i (s.own i) c) (h : Alone s) {p : Pending P} (hc : Marks c p.id) :
    p ∉ inHand ((s.after postgres i c o).own 0) := by
  obtain ⟨q, hid, hhead, hhand⟩ := marks_head (o := o) ht hc
  obtain ⟨rest, hrest⟩ := List.head?_eq_some_iff.mp hhead
  have hsorted := h.hand_sorted
  rw [hhand, hrest]
  rw [hrest] at hsorted
  intro hmem
  have hlt := List.rel_of_pairwise_cons hsorted hmem
  omega

/-- A row that is new to the table is not in hand. -/
theorem new_not_in_hand (h : Alone s) {tx : Nat} {r : JobEvent P}
    (hopened : (tx, r) ∈ s.state.opened) : r.pending ∉ inHand (s.own 0) := by
  intro hmem
  obtain ⟨r₀, hr₀, hpending⟩ := List.mem_map.mp (h.hand_known _ hmem)
  exact opened_new h.db_ok hopened hr₀ (congrArg Pending.id hpending)

theorem counted_step (hcounts : Counts s i c o) (ht : Turn cfg i (s.own i) c)
    (h : Counted cfg.maxAttempts s) : Counted cfg.maxAttempts (s.after postgres i c o) where
  toAlone := alone_step ht h.toAlone
  fresh r hr hmem := by
    rcases row_before hr with ⟨r₀, hr₀, hpending, -, hmarked⟩ | ⟨tx, rfl, -, hopened⟩
    · rcases hmarked with hmarked | rfl
      · rw [← hpending] at hmem
        exact absurd hmem (marked_gone ht h.toAlone hmarked)
      · rcases hand_after (o := o) ht with ⟨b, -, rfl, hhand⟩ | hsub
        · rw [hhand] at hmem
          exact claimed_fresh h.toAlone hr₀ hmem
        · exact h.fresh r hr₀ (hsub.subset hmem)
    · rcases hand_after (o := o) ht with ⟨b, -, hc, -⟩ | hsub
      · cases hc
      · exact absurd (hsub.subset hmem) (new_not_in_hand h.toAlone hopened)
  counted id hpos := by
    rcases marks_after (o := o) ht id with hsame | ⟨hc, hmore⟩
    · rw [hsame] at hpos ⊢
      obtain ⟨r, hr, hid, hle⟩ := h.counted id hpos
      obtain ⟨r', hr', hpending, hgrown, -⟩ := row_after (o := o) (c := c) hr
      exact ⟨r', hr', (congrArg Pending.id hpending).trans hid, hle.trans hgrown⟩
    · obtain ⟨p, rfl, hhead, -⟩ := marks_head (o := o) ht hc
      obtain ⟨r, hr, rfl⟩ := head_row h.toAlone hhead
      obtain ⟨r', hr', hpending, -, hcounted⟩ := row_after (o := o) hr
      have htried := attempts_tried h hr
      refine ⟨r', hr', congrArg Pending.id hpending, ?_⟩
      rw [hmore, hcounted hc (hcounts _ hc)]
      exact Nat.succ_le_succ htried
  own id := by
    rcases publishes_after (o := o) ht id with ⟨hlog, hown⟩ | ⟨p, -, -, hlog, hown⟩
    · rw [hlog, hown, h.own]
    · rw [hlog, hown, h.own]
  capped id := by
    rcases publishes_after (o := o) ht id with ⟨hlog, -⟩ | ⟨p, rfl, rfl, hlog, -⟩
    · rw [hlog]
      exact h.capped id
    · obtain ⟨rfl, hhead, heven⟩ := turn_publish ht
      obtain ⟨r, hr, rfl⟩ := head_row h.toAlone hhead
      have hleft := h.fresh r hr (List.mem_of_mem_head? hhead)
      have htried : marks r.pending.id (s.own 0) ≤ r.attempts := attempts_tried h hr
      rw [hlog, h.own, heven]
      omega

end Step

/-! ## The law -/

theorem counted_start {db : Db P} (h : db.Ok) (cfg : RelayConfig) (ticks : Nat)
    (producers : List (Producer P)) :
    Counted cfg.defaults.maxAttempts (startOne db cfg ticks producers).shot where
  toAlone := alone_start h cfg ticks producers
  fresh r hr hmem := by cases hmem
  counted id hpos := by cases hpos
  own id := rfl
  capped id := Int.le_of_lt (defaults_pos cfg).2.2

/-- Where every update that marks an event takes effect, no event is passed to `Publish` more than
`MaxAttempts` times, in every state that a run of one relay reaches. -/
theorem attempts_are_capped_while_they_are_counted (db : Db P) (h : db.Ok) (cfg : RelayConfig)
    (ticks : Nat) (producers : List (Producer P)) (picks : List (Nat × Outcome))
    (hcounts : Allowed postgres Counts picks (startOne db cfg ticks producers)) :
    Capped cfg (schedule postgres picks (startOne db cfg ticks producers)).shot :=
  (invariant_along (fun _ _ _ _ hc ht hs => counted_step hc ht hs)
    (startOne_follows db cfg ticks producers) (counted_start h cfg ticks producers) hcounts).capped

def oneEvent : Db String := ⟨[⟨1, "j", "a", "audio.queue", "m", "t", none, 0, none⟩], [], 2⟩

theorem oneEvent_ok : oneEvent.Ok := ⟨by decide, by decide, by decide⟩

/-- A failed publish that is counted. -/
theorem a_counted_failure_is_capped :
    Capped ⟨0, 0, 1⟩ (schedule postgres [(0, {}), (0, { fails := true, error := "closed" }), (0, {})]
      (startOne oneEvent ⟨0, 0, 1⟩ 2 [])).shot :=
  attempts_are_capped_while_they_are_counted oneEvent oneEvent_ok ⟨0, 0, 1⟩ 2 [] _
    ⟨fun _ _ => rfl, fun _ hc => by simp [Marks] at hc, fun _ _ => rfl, trivial⟩

/-- The update after a publish is lost, and with one attempt allowed the event is published twice. -/
theorem a_lost_update_gives_one_more_attempt :
    ¬ ∀ (db : Db String) (cfg : RelayConfig) (ticks : Nat) (producers : List (Producer String))
      (picks : List (Nat × Outcome)), db.Ok →
        Capped cfg (schedule postgres picks (startOne db cfg ticks producers)).shot := by
  intro h
  have hcapped := h oneEvent ⟨0, 0, 1⟩ 2 []
    [(0, {}), (0, {}), (0, { fails := true, error := "timeout" }), (0, {}), (0, {})] oneEvent_ok 1
  have htwice : ((2 : Nat) : Int) ≤ 1 := hcapped
  omega

end recast_rules.outbox
