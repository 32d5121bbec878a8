-- What the rate limiter lets through. A counter that was made anew had expired, so it is made at
-- most once in a window, and it is answered at most `limit` counts that do not exceed the limit.
import RecastAi.RateLimiter

open call_programs redis recast_rules.auth

namespace recast_rules.rate_limits

/-! ## What a request is let through by -/

/-- A count of the key that does not exceed the limit. -/
def lets (key : String) (limit : Nat) : Event Call Answer → Bool
  | ⟨_, .incr k, .ok n⟩ => k = key && n ≤ limit
  | _ => false

/-- An INCR of the key without an answer. The request is let through where it gives up. -/
def fails (key : String) : Event Call Answer → Bool
  | ⟨_, .incr k, .error _⟩ => k = key
  | _ => false

def passes (key : String) (limit : Nat) (e : Event Call Answer) : Bool :=
  lets key limit e || fails key e

section Programs

variable {retries : Nat} {i : Nat} {h : List (Event Call Answer)} {key : String} {limit : Nat}

/-- A served request was let through. -/
def Passed (key : String) (limit : Nat) (response : Response) (h : List (Event Call Answer)) :
    Prop :=
  response.isServed = true → ∃ e ∈ h, passes key limit e = true

theorem resetHeader_keeps {e : Event Call Answer} (he : e ∈ h) :
    (resetHeader retries key).Follows i (Due i) (fun _ h => e ∈ h) h := by
  apply follows_bind
  refine follows_resend (I := fun h => e ∈ h) (fun h he => ?_) retries he
  refine ⟨trivial, fun ttl => ⟨?_, List.mem_cons_of_mem _ he⟩⟩
  change Except Failure Int at ttl
  cases ttl with
  | error _ => exact List.mem_cons_of_mem _ he
  | ok ttl =>
    dsimp only
    split
    · exact ⟨trivial, fun _ => List.mem_cons_of_mem _ (List.mem_cons_of_mem _ he)⟩
    · exact List.mem_cons_of_mem _ he

/-- After its count a request is served where the count does not exceed the limit. -/
theorem afterCount_passed {count : Nat}
    (hcount : (⟨i, .incr key, (Except.ok count : Except Failure Nat)⟩ : Event Call Answer) ∈ h) :
    (afterCount retries limit key count).Follows i (Due i) (Passed key limit) h := by
  refine follows_bind (follows_mono (resetHeader_keeps hcount) fun reset h hcount => ?_)
  dsimp only
  split
  · exact fun hserved => by cases hserved
  · rename_i hle
    refine ⟨trivial, fun _ _ => ⟨_, List.mem_cons_of_mem _ hcount, ?_⟩⟩
    have hle : count ≤ limit := by omega
    simp [passes, lets, hle]

theorem rateLimiter_passed (limit : Int) (r : Request) :
    (rateLimiter retries limit r).Follows i (Due i)
      (Passed (counterKey r.identity) (limitOf limit).toNat) [] := by
  have hlimit : limitOf limit = ((limitOf limit).toNat : Int) :=
    (Int.toNat_of_nonneg (limit_positive limit).le).symm
  unfold rateLimiter
  rw [hlimit]
  apply follows_bind
  refine follows_resend (I := fun _ => True) ?_ retries trivial
  refine fun h _ => ⟨trivial, fun count => ⟨?_, trivial⟩⟩
  change Except Failure Nat at count
  cases count with
  | error e =>
    refine ⟨trivial, fun _ _ => ⟨_, List.mem_cons_of_mem _ List.mem_cons_self, ?_⟩⟩
    simp [passes, fails]
  | ok count =>
    dsimp only
    by_cases hone : count = 1
    · subst hone
      rw [if_pos rfl]
      apply follows_bind
      refine follows_resend (I := fun h => (⟨i, .incr (counterKey r.identity),
        (Except.ok 1 : Except Failure Nat)⟩ : Event Call Answer) ∈ h) (fun h hin => ?_) retries
        List.mem_cons_self
      refine ⟨⟨rfl, hin⟩, fun _ => ⟨?_, List.mem_cons_of_mem _ hin⟩⟩
      exact afterCount_passed (List.mem_cons_of_mem _ hin)
    · rw [if_neg hone]
      exact afterCount_passed List.mem_cons_self

end Programs

/-! ## A counter -/

/-- The counter of a key, when it was made so many times since `start` and so many of its counts did
not exceed the limit. `old` is one where a counter was there at the start. -/
structure Tallied (key : String) (limit start old : Nat) (passed made : Nat) (s : Store Nat) :
    Prop where
  clock : start ≤ s.now
  absent : s.entries key = none → old = 0 ∧ made = 0 ∧ passed = 0
  counted : ∀ e, s.entries key = some e → 0 < made + old ∧
    passed + limit ≤ limit * (made + old) + min e.value limit
  paced : 0 < made → start + 60 * 1000 * (made - 1) ≤ s.now
  expires : ∀ e t, s.entries key = some e → e.expiresAt = some t → 0 < made →
    start + 60 * 1000 * made ≤ t

section Step

variable {key : String} {limit start old passed made : Nat} {s : Store Nat}

theorem tallied_wait (h : Tallied key limit start old passed made s) (d : Nat) :
    Tallied key limit start old passed made (s.wait d) where
  clock := h.clock.trans (Nat.le_add_right _ _)
  absent := h.absent
  counted := h.counted
  paced hmade := (h.paced hmade).trans (Nat.le_add_right _ _)
  expires := h.expires

theorem tallied_put_ne {key' : String} {e : Entry Nat} (hne : key ≠ key')
    (h : Tallied key limit start old passed made s) :
    Tallied key limit start old passed made (s.put key' e) where
  clock := h.clock
  absent hnone := h.absent (by rwa [put_ne hne] at hnone)
  counted e' he := h.counted e' (by rwa [put_ne hne] at he)
  paced := h.paced
  expires e' t he := h.expires e' t (by rwa [put_ne hne] at he)

/-- A counter goes on. -/
theorem tallied_goes_on {e : Entry Nat} (h : Tallied key limit start old passed made s)
    (he : s.entries key = some e) :
    Tallied key limit start old (passed + if e.value + 1 ≤ limit then 1 else 0) made
      (s.put key { e with value := e.value + 1 }) where
  clock := h.clock
  absent hnone := by simp at hnone
  counted e' he' := by
    rw [put_self, Option.some.injEq] at he'
    subst he'
    obtain ⟨hpos, hcount⟩ := h.counted e he
    refine ⟨hpos, ?_⟩
    dsimp only
    split <;> omega
  paced := h.paced
  expires e' t he' ht := by
    rw [put_self, Option.some.injEq] at he'
    subst he'
    exact h.expires e t he ht

theorem tallied_passed_le (h : Tallied key limit start old passed made s) :
    passed ≤ limit * (made + old) := by
  cases hentry : s.entries key with
  | none => simp [(h.absent hentry).2.2]
  | some e =>
    have := (h.counted e hentry).2
    omega

/-- A counter is made anew where it was not there, or had expired. -/
theorem tallied_made (h : Tallied key limit start old passed made s) (hlimit : 0 < limit)
    (hfind : s.find key = none) :
    Tallied key limit start old (passed + 1) (made + 1) (s.put key ⟨1, none⟩) where
  clock := h.clock
  absent hnone := by simp at hnone
  counted e' he' := by
    rw [put_self, Option.some.injEq] at he'
    subst he'
    refine ⟨by omega, ?_⟩
    have hbefore := tallied_passed_le h
    have hmul : limit * (made + 1 + old) = limit * (made + old) + limit := by
      rw [Nat.add_right_comm, Nat.mul_succ]
    dsimp only
    omega
  paced _ := by
    rw [Nat.add_sub_cancel]
    rcases Nat.eq_zero_or_pos made with rfl | hmade
    · exact h.clock
    · cases hentry : s.entries key with
      | none =>
        have := (h.absent hentry).2.1
        omega
      | some e =>
        have hdead := find_eq_none.mp hfind e hentry
        obtain ⟨t, ht, hle⟩ : ∃ t, e.expiresAt = some t ∧ t ≤ s.now := by
          by_contra hno
          have hlive : e.live s.now = true := live_iff.mpr fun t ht => by
            by_contra hlt
            exact hno ⟨t, ht, by omega⟩
          simp [hlive] at hdead
        exact (h.expires e t hentry ht hmade).trans hle
  expires e' t he' ht := by
    rw [put_self, Option.some.injEq] at he'
    subst he'
    cases ht

/-- An expiry is set a window from now. -/
theorem tallied_expire {e : Entry Nat} (h : Tallied key limit start old passed made s)
    (he : s.entries key = some e) :
    Tallied key limit start old passed made
      (s.put key { e with expiresAt := some (s.now + window * 1000) }) where
  clock := h.clock
  absent hnone := by simp at hnone
  counted e' he' := by
    rw [put_self, Option.some.injEq] at he'
    subst he'
    exact h.counted e he
  paced := h.paced
  expires e' t he' ht hmade := by
    rw [put_self, Option.some.injEq] at he'
    subst he'
    have := h.paced hmade
    cases ht
    simp only [window]
    omega

theorem tallied_made_le (h : Tallied key limit start old passed made s) :
    made ≤ (s.now - start) / (60 * 1000) + 1 := by
  have := h.clock
  rcases Nat.eq_zero_or_pos made with rfl | hmade
  · exact Nat.zero_le _
  · have := h.paced hmade
    omega

end Step

/-! ## Every run -/

section Runs

variable {retries : Nat} {limit : Int} {s₀ : Store Nat} {requests : List Request} {key : String}

def lettings (key : String) (limit : Nat) (log : List (Event Call Answer)) : Nat :=
  log.countP (lets key limit)

/-- The requests come while Redis is in some state. -/
def startFrom (retries : Nat) (limit : Int) (s₀ : Store Nat) (requests : List Request) :
    Config Call Answer (Store Nat) Response :=
  ⟨⟨s₀, []⟩, requests.map (rateLimiter retries limit)⟩

def oldCounters (key : String) (s₀ : Store Nat) : Nat := if s₀.entries key = none then 0 else 1

def Bounded (key : String) (limit : Nat) (s₀ : Store Nat) (s : Shot Call Answer (Store Nat)) : Prop :=
  ∃ made, Tallied key limit s₀.now (oldCounters key s₀) (lettings key limit s.log) made s.state

theorem bounded_start (key : String) (limit : Nat) (s₀ : Store Nat) :
    Bounded key limit s₀ ⟨s₀, []⟩ := by
  refine ⟨0, ?_⟩
  constructor
  · exact Nat.le_refl _
  · intro hnone
    change s₀.entries key = none at hnone
    simp [oldCounters, hnone, lettings]
  · intro e he
    change s₀.entries key = some e at he
    simp [oldCounters, he, lettings]
  · exact fun h => absurd h (Nat.lt_irrefl 0)
  · exact fun _ _ _ _ h => absurd h (Nat.lt_irrefl 0)

/-- Fewer counts were within the limit. -/
theorem tallied_less {limit start old passed passed' made : Nat} {s : Store Nat}
    (h : Tallied key limit start old passed made s) (hle : passed' ≤ passed) :
    Tallied key limit start old passed' made s where
  clock := h.clock
  absent hnone := by
    obtain ⟨hold, hmade, rfl⟩ := h.absent hnone
    exact ⟨hold, hmade, Nat.le_zero.mp hle⟩
  counted e he := by
    obtain ⟨hpos, hcount⟩ := h.counted e he
    exact ⟨hpos, by omega⟩
  paced := h.paced
  expires := h.expires

/-- An INCR that is carried out makes the counter or goes on with it. -/
theorem tallied_incr {limit start old passed made : Nat} {s : Store Nat} (hlimit : 0 < limit)
    (h : Tallied key limit start old passed made s) (key' : String) :
    ∃ made', Tallied key limit start old
      (passed + if key' = key ∧ (s.incr key').1 ≤ limit then 1 else 0) made' (s.incr key').2 := by
  by_cases hkey : key' = key
  · subst hkey
    unfold Store.incr
    cases hfind : s.find key' with
    | none => exact ⟨_, by simpa [Nat.succ_le_of_lt hlimit] using tallied_made h hlimit hfind⟩
    | some e => exact ⟨_, by simpa using tallied_goes_on h (find_eq_some.mp hfind).1⟩
  · refine ⟨made, ?_⟩
    rw [if_neg fun hand => hkey hand.1]
    unfold Store.incr
    cases s.find key' <;> exact tallied_put_ne (Ne.symm hkey) h

theorem lettings_cons (e : Event Call Answer) (limit : Nat) (log : List (Event Call Answer)) :
    lettings key limit (e :: log) = lettings key limit log + if lets key limit e then 1 else 0 :=
  List.countP_cons

theorem lettings_aside {e : Event Call Answer} {limit : Nat} (h : lets key limit e = false)
    (log : List (Event Call Answer)) : lettings key limit (e :: log) = lettings key limit log := by
  simp [lettings_cons, h]

theorem bounded_incr {limit : Nat} (hlimit : 0 < limit) {s : Shot Call Answer (Store Nat)} {i : Nat}
    {o : Outcome} (key' : String) (h : Bounded key limit s₀ s) :
    Bounded key limit s₀ (s.after counters i (.incr key') o) := by
  obtain ⟨made, h⟩ := h
  have hwait := tallied_wait h o.wait
  change ∃ made, Tallied key limit s₀.now (oldCounters key s₀)
    (lettings key limit (⟨i, .incr key', (counters.answer o s.state (.incr key')).1⟩ :: s.log)) made
    (if o.lands = true then ((s.state.wait o.wait).incr key').2 else s.state.wait o.wait)
  cases hfault : o.fault with
  | some f =>
    have hanswer : lets key limit
        ⟨i, .incr key', (counters.answer o s.state (.incr key')).1⟩ = false := by
      simp [counters, answerCall, Outcome.reply, hfault, lets]
    rw [lettings_aside hanswer]
    split
    · obtain ⟨made', h'⟩ := tallied_incr hlimit hwait key'
      exact ⟨made', tallied_less h' (Nat.le_add_right _ _)⟩
    · exact ⟨made, hwait⟩
  | none =>
    have hanswer : lets key limit ⟨i, .incr key', (counters.answer o s.state (.incr key')).1⟩ =
        decide (key' = key ∧ ((s.state.wait o.wait).incr key').1 ≤ limit) := by
      simp [counters, answerCall, Outcome.reply, hfault, lets]
    rw [lettings_cons, hanswer, if_pos (lands_of_answered hfault)]
    simpa using tallied_incr hlimit hwait key'

theorem bounded_step {limit : Nat} (hlimit : 0 < limit) (s : Shot Call Answer (Store Nat)) (i : Nat)
    (c : Call) (o : Outcome) (hdue : Due i (s.own i) c) (h : Bounded key limit s₀ s) :
    Bounded key limit s₀ (s.after counters i c o) := by
  cases c with
  | incr key' => exact bounded_incr hlimit key' h
  | expire key' n =>
    obtain ⟨made, h⟩ := h
    have hwait := tallied_wait h o.wait
    refine ⟨made, ?_⟩
    change Tallied key limit s₀.now (oldCounters key s₀) (lettings key limit (_ :: s.log)) made
      (if o.lands = true then ((s.state.wait o.wait).expire key' n).2 else s.state.wait o.wait)
    rw [lettings_aside rfl, hdue.1]
    split
    · unfold Store.expire
      cases hfind : (s.state.wait o.wait).find key' with
      | none => exact hwait
      | some e =>
        by_cases hkey : key = key'
        · subst hkey
          exact tallied_expire hwait (find_eq_some.mp hfind).1
        · exact tallied_put_ne hkey hwait
    · exact hwait
  | ttl key' =>
    obtain ⟨made, h⟩ := h
    refine ⟨made, ?_⟩
    change Tallied _ _ _ _ _ made
      (if o.lands = true then s.state.wait o.wait else s.state.wait o.wait)
    rw [ite_self]
    exact tallied_wait h o.wait
  | clock =>
    obtain ⟨made, h⟩ := h
    exact ⟨made, tallied_wait h o.wait⟩
  | next =>
    obtain ⟨made, h⟩ := h
    exact ⟨made, tallied_wait h o.wait⟩

/-! ## Who is served -/

def finishedServed : LimitProg Response → Bool
  | .done response => response.isServed
  | .call _ _ => false

/-- The requests of the identity that were served. -/
def servedTo (identity : String) (requests : List Request)
    (cfg : Config Call Answer (Store Nat) Response) : Finset Nat :=
  (Finset.range requests.length).filter fun i =>
    (requests[i]?).any (·.identity = identity) && (cfg.threads[i]?).any finishedServed

theorem follow_passed (retries : Nat) (limit : Int) (s₀ : Store Nat) (requests : List Request) :
    AllFollow Due (fun i response h => ∀ r, requests[i]? = some r →
        Passed (counterKey r.identity) (limitOf limit).toNat response h)
      (startFrom retries limit s₀ requests) := by
  refine allFollow_map fun i r hr => follows_mono (rateLimiter_passed limit r) fun response h hp => ?_
  rintro r' hr'
  cases hr.symm.trans hr'
  exact hp

/-- A served request was let through by an event of its own. -/
theorem served_passed {identity : String} {picks : List (Nat × Outcome)} {i : Nat}
    (h : i ∈ servedTo identity requests
      (schedule counters picks (startFrom retries limit s₀ requests))) :
    ∃ e ∈ (schedule counters picks (startFrom retries limit s₀ requests)).shot.log,
      e.thread = i ∧ passes (counterKey identity) (limitOf limit).toNat e = true := by
  have hfollow := allFollow_run (w := counters) (follow_passed retries limit s₀ requests) picks
  unfold servedTo at h
  simp only [Finset.mem_filter, Bool.and_eq_true, Option.any_eq_true, decide_eq_true_eq] at h
  obtain ⟨-, ⟨r, hr, rfl⟩, p, hp, hserved⟩ := h
  cases p with
  | call c k => cases hserved
  | done response =>
    obtain ⟨e, he, hpasses⟩ := hfollow i _ hp r hr hserved
    obtain ⟨hlog, hthread⟩ := mem_own.mp he
    exact ⟨e, hlog, hthread, hpasses⟩

theorem served_le_passes (identity : String) (picks : List (Nat × Outcome)) :
    (servedTo identity requests
      (schedule counters picks (startFrom retries limit s₀ requests))).card ≤
      (schedule counters picks (startFrom retries limit s₀ requests)).shot.log.countP
        (passes (counterKey identity) (limitOf limit).toNat) := by
  rw [List.countP_eq_length_filter, ← List.length_map (f := Event.thread)]
  refine (Finset.card_le_card ?_).trans (List.toFinset_card_le _)
  intro i hi
  obtain ⟨e, he, rfl, hpasses⟩ := served_passed hi
  exact List.mem_toFinset.mpr (List.mem_map_of_mem (List.mem_filter.mpr ⟨he, hpasses⟩))

theorem passes_split (key : String) (limit : Nat) (log : List (Event Call Answer)) :
    log.countP (passes key limit) ≤ lettings key limit log + log.countP (fails key) := by
  induction log with
  | nil => simp
  | cons e log ih =>
    rw [lettings_cons]
    simp only [List.countP_cons]
    unfold passes at ih ⊢
    cases lets key limit e <;> cases fails key e <;> simp <;> omega

/-- In a run of any length an identity gets at most `limit` requests served in each window that has
begun, and in one more where it had a counter already, apart from those whose INCR had no answer. -/
theorem the_limit_holds (retries : Nat) (limit : Int) (s₀ : Store Nat) (requests : List Request)
    (picks : List (Nat × Outcome)) (identity : String) :
    let s := (schedule counters picks (startFrom retries limit s₀ requests)).shot
    (servedTo identity requests
        (schedule counters picks (startFrom retries limit s₀ requests))).card ≤
      (limitOf limit).toNat * ((s.state.now - s₀.now) / (60 * 1000) + 1 +
          oldCounters (counterKey identity) s₀) +
        s.log.countP (fails (counterKey identity)) := by
  intro s
  have hfollow := follow_passed retries limit s₀ requests
  have hlimit : 0 < (limitOf limit).toNat := by
    have := limit_positive limit
    omega
  obtain ⟨made, htallied⟩ := invariant_of_due (w := counters) (bounded_step hlimit) hfollow
    (bounded_start (counterKey identity) _ s₀) picks
  calc _ ≤ s.log.countP (passes (counterKey identity) (limitOf limit).toNat) :=
        served_le_passes identity picks
    _ ≤ lettings (counterKey identity) (limitOf limit).toNat s.log +
          s.log.countP (fails (counterKey identity)) := passes_split _ _ _
    _ ≤ _ := by
        refine Nat.add_le_add_right ((tallied_passed_le htallied).trans ?_) _
        exact Nat.mul_le_mul_left _ (Nat.add_le_add_right (tallied_made_le htallied) _)

end Runs

end recast_rules.rate_limits
