-- The rate limiter of the gateway. It counts the requests of a minute in one
-- Redis counter for each identity. The counter and its expiry are set by two
-- commands, and only the request that is answered the count of one sends the
-- second.
import RecastAi.Redis
import RecastAi.Tokens

open call_programs redis recast_rules.auth

namespace recast_rules.rate_limits

/-! ## The calls -/

inductive Call where
  | incr (key : String)
  | expire (key : String) (seconds : Nat)
  | ttl (key : String)
  | clock
  | next

def Answer : Call → Type
  | .incr _ => Except Failure Nat
  | .expire _ _ => Except Failure Bool
  | .ttl _ => Except Failure Int
  | .clock => Nat
  | .next => Unit

abbrev LimitProg := Prog Call Answer

def ask (c : Call) : LimitProg (Answer c) := Prog.ask c

/-- The clock of the gateway, in milliseconds, goes with that of Redis. -/
def answerCall (o : Outcome) (s : Store Nat) : (c : Call) → Answer c × Store Nat
  | .incr key => o.reply (s.wait o.wait) ((s.wait o.wait).incr key)
  | .expire key seconds => o.reply (s.wait o.wait) ((s.wait o.wait).expire key seconds)
  | .ttl key => o.reply (s.wait o.wait) ((s.wait o.wait).ttl key, s.wait o.wait)
  | .clock => (s.now + o.wait, s.wait o.wait)
  | .next => ((), s.wait o.wait)

def counters : World Call Answer (Store Nat) Outcome := ⟨answerCall⟩

/-! ## The middleware -/

structure Request where
  claims : Option Claims
  remoteAddr : String

def Request.identity (r : Request) : String :=
  match r.claims with
  | some claims => claims.userID
  | none => r.remoteAddr

def counterKey (identity : String) : String := "ratelimit:" ++ identity

def window : Nat := 60

/-- The handler behind the limiter has answered, with these headers set before; or the limiter
itself has. -/
inductive Response where
  | served (headers : List (String × String))
  | limited (status : Nat) (headers : List (String × String)) (error : String)
deriving DecidableEq

def Response.isServed : Response → Bool
  | .served _ => true
  | .limited _ _ _ => false

/-- A limit that is not positive is the default one. -/
def limitOf (limit : Int) : Int := if limit ≤ 0 then 60 else limit

def limitHeaders (limit count : Int) : List (String × String) :=
  [("X-RateLimit-Limit", toString limit),
    ("X-RateLimit-Remaining", toString (if limit - count < 0 then 0 else limit - count))]

/-- `X-RateLimit-Reset`, where the TTL is known and positive. -/
def resetHeader (retries : Nat) (key : String) : LimitProg (List (String × String)) := do
  let ttl : Except Failure Int ← resend (ask (.ttl key)) retries
  match ttl with
  | .error _ => pure []
  | .ok ttl =>
    if 0 < ttl then do
      let now : Nat ← ask .clock
      pure [("X-RateLimit-Reset", toString ((now : Int) / 1000 + ttl))]
    else pure []

/-- What is left to do once the counter has its expiry, as far as it gets one. -/
def afterCount (retries : Nat) (limit : Int) (key : String) (count : Nat) : LimitProg Response := do
  let reset ← resetHeader retries key
  let headers := limitHeaders limit count ++ reset
  if limit < (count : Int) then
    pure (.limited 429 (headers ++ [("Retry-After", "60")]) "rate limit exceeded")
  else do
    ask .next
    pure (.served headers)

def rateLimiter (retries : Nat) (limit : Int) (r : Request) : LimitProg Response := do
  let key := counterKey r.identity
  let count : Except Failure Nat ← resend (ask (.incr key)) retries
  match count with
  | .error _ => do
    ask .next
    pure (.served [])
  | .ok count =>
    if count = 1 then do
      -- An error here is only logged.
      let _ : Except Failure Bool ← resend (ask (.expire key window)) retries
      afterCount retries (limitOf limit) key count
    else afterCount retries (limitOf limit) key count

/-- The gateway before its first request, and the requests that come. -/
def start (retries : Nat) (limit : Int) (now : Nat) (requests : List Request) :
    Config Call Answer (Store Nat) Response :=
  ⟨⟨⟨now, fun _ => none⟩, []⟩, requests.map (rateLimiter retries limit)⟩

/-! ## What no identity should meet -/

/-- Every counter expires within the window, and a request that comes when the window has ended
is served. -/
structure NotLockedOut (retries : Nat) (limit : Int) (s : Store Nat) : Prop where
  expires : ∀ identity e, s.find (counterKey identity) = some e →
    ∃ t, e.expiresAt = some t ∧ t ≤ s.now + 60 * 1000
  admitted : ∀ (r : Request) o os response s', 60 * 1000 ≤ o.wait → o.fault = none →
    run counters (o :: os) (rateLimiter retries limit r, s) = (.done response, s') →
      response.isServed = true

/-- A step that makes a counter: one try of an INCR that finds none. -/
def Creates (key : String) (st : Step Call Answer (Store Nat) Outcome) : Prop :=
  st.call = .incr key ∧ st.outcome.lands = true ∧
    (st.shot.state.wait st.outcome.wait).find key = none

/-- A step that sets the expiry of a counter. -/
def SetsExpiry (key : String) (st : Step Call Answer (Store Nat) Outcome) : Prop :=
  (∃ seconds, st.call = .expire key seconds) ∧ st.outcome.lands = true

/-- The request of the step was answered the count of one. -/
def CountedOne (key : String) (st : Step Call Answer (Store Nat) Outcome) : Prop :=
  (⟨st.thread, .incr key, (Except.ok 1 : Except Failure Nat)⟩ : Event Call Answer) ∈ st.shot.log

/-! ## What a request sends -/

/-- An EXPIRE is for the window, and comes from a request that was answered the count of one. -/
def Due (i : Nat) (h : List (Event Call Answer)) : Call → Prop
  | .expire key seconds => seconds = window ∧
      (⟨i, .incr key, (Except.ok 1 : Except Failure Nat)⟩ : Event Call Answer) ∈ h
  | _ => True

section Programs

variable {retries : Nat} {i : Nat} {h : List (Event Call Answer)}

abbrev Follow (i : Nat) (h : List (Event Call Answer)) {α : Type} (p : LimitProg α) : Prop :=
  p.Follows i (Due i) (fun _ _ => True) h

theorem resetHeader_follow (key : String) : Follow i h (resetHeader retries key) := by
  apply follows_bind
  refine follows_resend (I := fun _ => True) ?_ retries trivial
  refine fun h _ => ⟨trivial, fun ttl => ⟨?_, trivial⟩⟩
  change Except Failure Int at ttl
  cases ttl with
  | error e => trivial
  | ok ttl =>
    dsimp only
    split
    · exact ⟨trivial, fun _ => trivial⟩
    · trivial

theorem afterCount_follow (limit : Int) (key : String) (count : Nat) :
    Follow i h (afterCount retries limit key count) := by
  refine follows_bind (follows_mono (resetHeader_follow key) fun reset _ _ => ?_)
  dsimp only
  split
  · trivial
  · exact ⟨trivial, fun _ => trivial⟩

theorem expire_follow {key : String} {p : LimitProg Response}
    (hone : (⟨i, .incr key, (Except.ok 1 : Except Failure Nat)⟩ : Event Call Answer) ∈ h)
    (hp : ∀ h, Follow i h p) :
    Follow i h (resend (ask (.expire key window)) retries >>= fun _ : Except Failure Bool => p) := by
  apply follows_bind
  refine follows_resend
    (I := fun h => (⟨i, .incr key, (Except.ok 1 : Except Failure Nat)⟩ : Event Call Answer) ∈ h)
    (fun h hone => ?_) retries hone
  exact ⟨⟨rfl, hone⟩, fun _ => ⟨hp _, List.mem_cons_of_mem _ hone⟩⟩

theorem rateLimiter_follow (limit : Int) (r : Request) :
    Follow i h (rateLimiter retries limit r) := by
  apply follows_bind
  refine follows_resend (I := fun _ => True) ?_ retries trivial
  refine fun h _ => ⟨trivial, fun count => ⟨?_, trivial⟩⟩
  change Except Failure Nat at count
  cases count with
  | error e => exact ⟨trivial, fun _ => trivial⟩
  | ok count =>
    dsimp only
    by_cases hone : count = 1
    · subst hone
      rw [if_pos rfl]
      exact expire_follow List.mem_cons_self fun _ => afterCount_follow _ _ _
    · rw [if_neg hone]
      exact afterCount_follow _ _ _

theorem all_follow (retries : Nat) (limit : Int) (now : Nat) (requests : List Request) :
    AllFollow Due (fun _ _ _ => True) (start retries limit now requests) :=
  allFollow_map fun _ r _ => rateLimiter_follow limit r

end Programs

/-! ## One command -/

section Step

variable {o : Outcome} {s : Store Nat} {key : String}

/-- Every expiry is at most a window away. -/
def Within (s : Store Nat) : Prop :=
  ∀ key e t, s.entries key = some e → e.expiresAt = some t → t ≤ s.now + 60 * 1000

theorem within_wait (h : Within s) (d : Nat) : Within (s.wait d) := by
  intro key e t he ht
  have := h key e t he ht
  simp only [wait_now]
  omega

theorem within_put (h : Within s) {e : Entry Nat}
    (he : ∀ t, e.expiresAt = some t → t ≤ s.now + 60 * 1000) : Within (s.put key e) := by
  intro key' e' t he' ht
  by_cases hkey : key' = key
  · subst hkey
    rw [put_self, Option.some.injEq] at he'
    subst he'
    exact he t ht
  · rw [put_ne hkey] at he'
    exact h key' e' t he' ht

theorem within_incr (h : Within s) : Within (s.incr key).2 := by
  unfold Store.incr
  cases hfind : s.find key with
  | none => exact within_put h (by simp)
  | some e => exact within_put h fun t ht => h key e t (find_eq_some.mp hfind).1 ht

theorem within_expire (h : Within s) : Within (s.expire key window).2 := by
  unfold Store.expire
  cases s.find key with
  | none => exact h
  | some e => exact within_put h fun t ht => by simp [window] at ht; omega

theorem within_answer (h : Within s) {c : Call} (hc : ∀ key n, c = .expire key n → n = window) :
    Within (answerCall o s c).2 := by
  have hwait := within_wait h o.wait
  cases c with
  | incr key =>
    simp only [answerCall, Outcome.reply]
    split
    · exact within_incr hwait
    · exact hwait
  | expire key n =>
    simp only [answerCall, Outcome.reply, hc key n rfl]
    split
    · exact within_expire hwait
    · exact hwait
  | ttl key =>
    simp only [answerCall, Outcome.reply, ite_self]
    exact hwait
  | clock => exact hwait
  | next => exact hwait

/-- A counter is without an expiry when this step made it, or when it was so before and this
step did not set one. -/
theorem endless_answer (log : List (Event Call Answer)) (i : Nat) (c : Call) :
    Endless key (answerCall o s c).2 ↔ Creates key ⟨⟨s, log⟩, i, c, o⟩ ∨
      Endless key s ∧ ¬ SetsExpiry key ⟨⟨s, log⟩, i, c, o⟩ := by
  unfold Creates SetsExpiry
  cases c with
  | incr key' =>
    simp only [answerCall, Outcome.reply, Call.incr.injEq, reduceCtorEq, exists_const, false_and,
      not_false_eq_true, and_true]
    by_cases hlands : o.lands = true
    · simp only [hlands, if_true, endless_incr, endless_wait, true_and]
      grind
    · simp [hlands, endless_wait]
  | expire key' n =>
    simp only [answerCall, Outcome.reply, Call.expire.injEq, reduceCtorEq, false_and, false_or]
    by_cases hlands : o.lands = true
    · simp only [hlands, if_true, endless_expire, endless_wait]
      grind
    · simp [hlands, endless_wait]
  | ttl key' => simp [answerCall, Outcome.reply, endless_wait]
  | clock => simp [answerCall, endless_wait]
  | next => simp [answerCall, endless_wait]

end Step

/-! ## Every run -/

section Runs

variable {retries : Nat} {limit : Int} {now : Nat} {requests : List Request}

/-- What the steps so far tell of the counters. -/
structure Counted (sts : List (Step Call Answer (Store Nat) Outcome)) (s : Store Nat) : Prop where
  endless : ∀ key, Endless key s ↔ Unanswered (Creates key) (SetsExpiry key) sts
  within : Within s

theorem counted_start : Counted [] ⟨now, fun _ => none⟩ := by
  refine ⟨fun key => ?_, fun _ _ _ he => by simp at he⟩
  simp [Endless, Unanswered]

theorem counted_step {sts : List (Step Call Answer (Store Nat) Outcome)}
    {s : Shot Call Answer (Store Nat)} {i : Nat} {c : Call} {o : Outcome}
    (h : Counted sts s.state) (hc : ∀ key n, c = .expire key n → n = window) :
    Counted (sts ++ [⟨s, i, c, o⟩]) (s.after counters i c o).state := by
  refine ⟨fun key => ?_, within_answer h.within hc⟩
  rw [unanswered_snoc, ← h.endless]
  exact endless_answer s.log i c

theorem counted_run (retries : Nat) (limit : Int) (now : Nat) (requests : List Request)
    (picks : List (Nat × Outcome)) :
    Counted (steps counters picks (start retries limit now requests))
      (schedule counters picks (start retries limit now requests)).shot.state := by
  induction picks using List.reverseRecOn with
  | nil => exact counted_start
  | append_singleton picks pick ih =>
    have hfollow := allFollow_run (w := counters) (all_follow retries limit now requests) picks
    rw [schedule_append, steps_append]
    generalize schedule counters picks (start retries limit now requests) = cfg at ih hfollow ⊢
    simp only [steps, schedule, List.append_nil]
    rcases stepOf_cases counters cfg pick with ⟨hnone, hsame⟩ | ⟨c, k, hth, hsome, hshot⟩
    · rw [hnone, hsame]
      simpa using ih
    · rw [hsome, hshot]
      refine counted_step ih fun key n hcall => ?_
      subst hcall
      exact (hfollow _ _ hth).1.1

/-- An EXPIRE is sent by a request that was answered the count of one. -/
theorem an_expire_follows_the_count_of_one {picks : List (Nat × Outcome)} {key : String}
    {st : Step Call Answer (Store Nat) Outcome}
    (hst : st ∈ steps counters picks (start retries limit now requests))
    (hset : SetsExpiry key st) : CountedOne key st := by
  have hall : Allowed counters (fun s i c _ => Due i (s.own i) c) picks
      (start retries limit now requests) :=
    allowed_of_due (fun _ _ _ _ hd => hd) (all_follow retries limit now requests) picks
  have hdue := allowed_iff_steps.mp hall st hst
  obtain ⟨⟨n, hcall⟩, -⟩ := hset
  rw [hcall] at hdue
  exact (mem_own.mp hdue.2).1

/-! ## A request after the window -/

theorem limit_positive (limit : Int) : 0 < limitOf limit := by
  unfold limitOf
  split <;> omega

theorem resetHeader_only (key : String) :
    (resetHeader retries key).Only (fun _ => True) (fun _ => True) := only_any _

theorem afterCount_served {limit : Int} {key : String} {count : Nat} (h : (count : Int) ≤ limit) :
    (afterCount retries limit key count).Only (fun _ => True) (·.isServed = true) := by
  refine only_bind (resetHeader_only key) fun reset _ => ?_
  dsimp only
  rw [if_neg (by omega)]
  exact ⟨trivial, fun _ => rfl⟩

/-- The first call of a request, and what it goes on with when it is answered the count of one. -/
theorem the_first_request (retries : Nat) (limit : Int) (r : Request) :
    ∃ k : Except Failure Nat → LimitProg Response,
      rateLimiter retries limit r = .call (.incr (counterKey r.identity)) k ∧
      k (.ok 1) = (resend (ask (.expire (counterKey r.identity) window)) retries >>=
        fun _ : Except Failure Bool =>
          afterCount retries (limitOf limit) (counterKey r.identity) 1) := by
  cases retries with
  | zero => exact ⟨_, rfl, rfl⟩
  | succ n => exact ⟨_, rfl, rfl⟩

theorem served_once_expired {s s' : Store Nat} {r : Request} {o : Outcome} {os : List Outcome}
    {response : Response} (hnone : (s.wait o.wait).find (counterKey r.identity) = none)
    (ho : o.fault = none)
    (hrun : run counters (o :: os) (rateLimiter retries limit r, s) = (.done response, s')) :
    response.isServed = true := by
  obtain ⟨k, hprog, hk⟩ := the_first_request retries limit r
  have hanswer : (answerCall o s (.incr (counterKey r.identity))).1 = Except.ok 1 := by
    simp only [answerCall, Outcome.reply, ho, Store.incr, hnone]
    rfl
  have hlimit := limit_positive limit
  rw [hprog] at hrun
  simp only [run, counters, hanswer, hk] at hrun
  refine (wp_run_any (wp_only (P := fun _ => True) (R := (·.isServed = true)) (J := fun _ => True)
    ?_ trivial fun _ _ _ _ _ _ => trivial) hrun).1
  exact only_bind (only_any _) fun _ _ => afterCount_served (by omega)

/-- With an expiry within the window, the counter is gone when the window has ended. -/
theorem gone_after_window {s : Store Nat} {key : String} {d : Nat} (hwithin : Within s)
    (hends : ¬ Endless key s) (hd : 60 * 1000 ≤ d) : (s.wait d).find key = none := by
  rw [find_eq_none]
  intro e he
  rw [wait_entries] at he
  cases ht : e.expiresAt with
  | none => exact absurd ⟨e, he, ht⟩ hends
  | some t =>
    have hle := hwithin key e t he ht
    have hlt : ¬ s.now + d < t := by omega
    simp [Entry.live, ht, hlt]

theorem notLockedOut_iff {s : Store Nat} (h : Within s) :
    NotLockedOut retries limit s ↔ ∀ identity, ¬ Endless (counterKey identity) s := by
  constructor
  · intro hout identity hendless
    obtain ⟨e, hfind, hnone⟩ := find_of_endless hendless
    obtain ⟨t, ht, -⟩ := hout.expires identity e hfind
    simp [hnone] at ht
  · intro hends
    refine ⟨fun identity e hfind => ?_, fun r o os response s' hwait ho hrun => ?_⟩
    · obtain ⟨he, -⟩ := find_eq_some.mp hfind
      cases ht : e.expiresAt with
      | none => exact absurd ⟨e, he, ht⟩ (hends identity)
      | some t => exact ⟨t, rfl, h _ e t he ht⟩
    · exact served_once_expired (gone_after_window h (hends r.identity) hwait) ho hrun

/-- The law: whatever was answered, lost or never sent again, no identity is locked out exactly
when each step that made a counter was followed by an EXPIRE that landed, from a request that
was answered the count of one. -/
theorem no_identity_is_locked_out_iff (retries : Nat) (limit : Int) (now : Nat)
    (requests : List Request) (picks : List (Nat × Outcome)) :
    NotLockedOut retries limit
        (schedule counters picks (start retries limit now requests)).shot.state ↔
      ∀ identity before st after,
        steps counters picks (start retries limit now requests) = before ++ st :: after →
        Creates (counterKey identity) st →
          ∃ st' ∈ after, SetsExpiry (counterKey identity) st' ∧
            CountedOne (counterKey identity) st' := by
  have hcounted := counted_run retries limit now requests picks
  rw [notLockedOut_iff hcounted.within]
  constructor
  · intro hends identity before st after hsteps hcreates
    by_contra hnone
    refine hends identity ((hcounted.endless _).mpr ⟨before, st, after, hsteps, hcreates, ?_⟩)
    intro st' hst' hset
    have hmem : st' ∈ steps counters picks (start retries limit now requests) := by
      rw [hsteps]
      exact List.mem_append_right _ (List.mem_cons_of_mem _ hst')
    exact hnone ⟨st', hst', hset, an_expire_follows_the_count_of_one hmem hset⟩
  · intro hset identity hendless
    obtain ⟨before, st, after, hsteps, hcreates, hafter⟩ := (hcounted.endless _).mp hendless
    obtain ⟨st', hst', hst, -⟩ := hset identity before st after hsteps hcreates
    exact hafter st' hst' hst

end Runs

/-! ## A day later -/

/-- Two requests from one address. -/
def twoRequests : List Request := List.replicate 2 ⟨none, "203.0.113.7:40000"⟩

/-- Redis is not reached for the EXPIRE of the first request, and the second one comes the day
after. -/
def lostExpiry : List (Nat × Outcome) :=
  let out : Outcome := { fault := some ⟨false, .permanent⟩ }
  [(0, {}), (0, out), (0, {}), (0, {}), (1, { wait := 86400000 }), (1, {})]

/-- The limit is one request a minute, and the second request in a day is turned away: the
counter has no expiry, and never gets one. -/
theorem an_identity_is_locked_out :
    let cfg := schedule counters lostExpiry (start 3 1 0 twoRequests)
    cfg.threads = [.done (.served (limitHeaders 1 1)),
        .done (.limited 429 (limitHeaders 1 2 ++ [("Retry-After", "60")]) "rate limit exceeded")] ∧
      cfg.shot.state.find "ratelimit:203.0.113.7:40000" = some ⟨2, none⟩ ∧
      ¬ NotLockedOut 3 1 cfg.shot.state := by
  have hfind : (schedule counters lostExpiry (start 3 1 0 twoRequests)).shot.state.find
      "ratelimit:203.0.113.7:40000" = some ⟨2, none⟩ := by with_unfolding_all rfl
  refine ⟨by with_unfolding_all rfl, hfind, fun h => ?_⟩
  obtain ⟨t, ht, -⟩ := h.expires "203.0.113.7:40000" _ hfind
  cases ht

end recast_rules.rate_limits
