-- The retry helper (pkg/resilience/retry.go) and what it tells its callers: how often it calls,
-- what it returns, and how long it waits. The waits double by a shift of 64 bits, and from a
-- duration that is too short or too long for that the helper panics or does not wait at all.
import RecastAi.CallPrograms
import Mathlib.Algebra.Ring.Int.Defs
import Mathlib.Algebra.Ring.Nat

open call_programs

namespace recast_rules.resilience

/-- A `time.Duration`, in 64 bits. -/
def duration (n : Int) : Int := n.bmod (2 ^ 64)

inductive CtxErr where
  | canceled
  | deadlineExceeded
  deriving DecidableEq, Repr

/-- The errors of `Do`: "resilience: nil op", the error of the context, and
"resilience: exhausted %d attempts: %w". -/
inductive Err (E : Type) where
  | nilOp
  | ctx (e : CtxErr)
  | exhausted (attempts : Nat) (lastErr : Option E)
  deriving DecidableEq, Repr

inductive Ending (E : Type) where
  | returned (err : Option (Err E))
  | panicked
  deriving DecidableEq, Repr

inductive Call where
  | ctxErr
  | op
  | int64N (n : Int)
  /-- The `select` on the context and a timer. -/
  | wait (d : Int)

/-- `int64N` has no answer where it panics. `wait` answers whether the context was done. -/
abbrev Answer (E : Type) : Call → Type
  | .ctxErr => Option CtxErr
  | .op => Option E
  | .int64N _ => Option Int
  | .wait _ => Bool

section Do

variable {E : Type}

abbrev Retry (E α : Type) := Prog Call (Answer E) α

/-- The `select`: the error of the context where it is done, else what comes next. -/
def select (wait : Int) (next : Retry E (Ending E)) : Retry E (Ending E) := do
  if (← Prog.ask (.wait wait) : Bool) then
    let err := (← Prog.ask .ctxErr : Option CtxErr)
    .done (.returned (err.map .ctx))
  else next

/-- The wait after a failed attempt, and then the next one. -/
def backOff (backoff : Int) (attempt : Nat) (next : Retry E (Ending E)) :
    Retry E (Ending E) := do
  let delay := duration (backoff * 2 ^ attempt)
  match (← Prog.ask (.int64N (delay.tdiv 2)) : Option Int) with
  | none => .done .panicked
  | some jitter => select (duration (delay + jitter)) next

/-- The loop with `left` attempts to come. -/
def loop (attempts : Nat) (backoff : Int) : Nat → Option E → Retry E (Ending E)
  | 0, lastErr => .done (.returned (some (.exhausted attempts lastErr)))
  | left + 1, _ => do
    let attempt := attempts - (left + 1)
    match (← Prog.ask .ctxErr : Option CtxErr) with
    | some err => .done (.returned (some (.ctx err)))
    | none =>
      let lastErr := (← Prog.ask .op : Option E)
      match lastErr with
      | none => .done (.returned none)
      | some _ =>
        if attempt = attempts - 1 then
          .done (.returned (some (.exhausted attempts lastErr)))
        else backOff backoff attempt (loop attempts backoff left lastErr)

/-- The attempts that are made at most. -/
def atLeastOne (attempts : Int64) : Nat := if attempts.toInt < 1 then 1 else attempts.toInt.toNat

/-- The backoff, or 100 milliseconds for one that is not positive. -/
def effective (backoff : Int64) : Int :=
  if backoff.toInt ≤ 0 then 100 * 1000000 else backoff.toInt

/-- `op` is whether there is one. -/
def Do (op : Bool) (attempts backoff : Int64) : Retry E (Ending E) :=
  if op then loop (atLeastOne attempts) (effective backoff) (atLeastOne attempts) none
  else .done (.returned (some .nilOp))

end Do

/-! ## The calls and the context -/

/-- What a run has done. `results` are those of the calls of `op`; `cancelled` is how the context
ended and how many calls had begun then; `late` is whether a call began after that. -/
structure Watch (E : Type) where
  results : List (Option E)
  waits : List Int
  cancelled : Option (CtxErr × Nat)
  late : Bool
  deriving DecidableEq, Repr

/-- What happens at a call. `cancels` is that the context ends before the call is answered; between
a check of the context and the call of `op` it counts to the latter. -/
structure Outcome (E : Type) where
  cancels : Option CtxErr
  result : Option E
  jitter : Int
  /-- The choice of the `select` where the context is done and the timer has fired. -/
  seesDone : Bool

section World

variable {E : Type}

def Watch.start : Watch E := ⟨[], [], none, false⟩

def Watch.cancel (s : Watch E) (err : Option CtxErr) (begun : Nat) : Watch E :=
  { s with cancelled := s.cancelled.or (err.map (·, begun)) }

def answering (o : Outcome E) (s : Watch E) : (c : Call) → Answer E c × Watch E
  | .ctxErr =>
    let s' := s.cancel o.cancels s.results.length
    (s'.cancelled.map (·.1), s')
  | .op =>
    (o.result, { s.cancel o.cancels (s.results.length + 1) with
      results := s.results ++ [o.result], late := s.late || s.cancelled.isSome })
  | .int64N n =>
    (if 0 < n then some o.jitter else none, s.cancel o.cancels s.results.length)
  | .wait d =>
    let s' := s.cancel o.cancels s.results.length
    (s'.cancelled.isSome && o.seesDone, { s' with waits := s.waits ++ [d] })

def clock : World Call (Answer E) (Watch E) (Outcome E) := ⟨answering⟩

/-- `rand.Int64N` draws from `[0, n)`. -/
def Drawn (_ : Watch E) (c : Call) (o : Outcome E) : Prop :=
  match c with
  | .int64N n => 0 < n → 0 ≤ o.jitter ∧ o.jitter < n
  | _ => True

/-- The retry that is due has a delay of two nanoseconds or more, and neither the delay nor the wait
with its jitter is too long for 64 bits. -/
def Fits (backoff : Int) (s : Watch E) (c : Call) (o : Outcome E) : Prop :=
  match c with
  | .int64N _ =>
    2 ≤ backoff * 2 ^ s.waits.length ∧ backoff * 2 ^ s.waits.length < 2 ^ 63 ∧
      backoff * 2 ^ s.waits.length + o.jitter < 2 ^ 63
  | _ => True

end World

/-! ## The rules of the helper -/

section Rules

variable {E : Type}

/-- The context ended with this error before the last call that may be made had begun. -/
def CancelledFirst (attempts : Nat) (s : Watch E) (err : CtxErr) : Prop :=
  ∃ begun < attempts, s.cancelled = some (err, begun)

/-- What a caller is told of a run. -/
structure Kept (attempts : Nat) (backoff : Int) (r : Ending E) (s : Watch E) : Prop where
  no_panic : r ≠ .panicked
  calls : s.results.length ≤ attempts
  after_nil : ∀ i, s.results[i]? = some none → i + 1 = s.results.length
  not_late : s.late = false
  returns_nil : r = .returned none ↔ none ∈ s.results
  returns_ctx : ∀ err, r = .returned (some (.ctx err)) ↔
    none ∉ s.results ∧ CancelledFirst attempts s err
  returns_last : none ∉ s.results → (∀ err, ¬CancelledFirst attempts s err) →
    ∃ e, s.results.getLast? = some (some e) ∧
      r = .returned (some (.exhausted attempts (some e)))
  waits : ∀ i w, s.waits[i]? = some w →
    backoff * 2 ^ i ≤ w ∧ 2 * w < 3 * (backoff * 2 ^ i)

end Rules

/-! ## Durations -/

theorem duration_fits {n : Int} (h0 : 0 ≤ n) (h : n < 2 ^ 63) : duration n = n := by
  unfold duration
  rw [Int.bmod_eq_of_le] <;> omega

theorem duration_over {n : Int} (h : 2 ^ 63 ≤ n) (hlt : n < 2 ^ 64) : duration n < 0 := by
  unfold duration
  rw [Int.bmod_def]
  split <;> omega

/-- The bound of a jitter, where the delay is right. -/
theorem half_of_fits {d : Int} (h2 : 2 ≤ d) (h : d < 2 ^ 63) :
    0 < (duration d).tdiv 2 ∧ 2 * (duration d).tdiv 2 ≤ d := by
  rw [duration_fits (by omega) h, Int.tdiv_eq_ediv_of_nonneg (by omega)]
  omega

/-- A delay of one nanosecond has no half, and one that is too long is negative. -/
theorem half_of_not_fits {d : Int} (h1 : 1 ≤ d) (hlt : d < 2 ^ 64)
    (h : ¬(2 ≤ d ∧ d < 2 ^ 63)) : (duration d).tdiv 2 ≤ 0 := by
  by_cases hover : 2 ^ 63 ≤ d
  · have hneg := duration_over hover hlt
    have hpos : 0 ≤ (-duration d).tdiv 2 := Int.tdiv_nonneg (by omega) (by omega)
    rw [Int.neg_tdiv] at hpos
    omega
  · obtain rfl : d = 1 := by omega
    decide

/-! ## What a run has kept so far -/

section Runs

variable {E : Type} {n : Nat} {b : Int} {s : Watch E}

/-- After calls that all failed, and waits between them. -/
structure Going (b : Int) (calls waits : Nat) (s : Watch E) : Prop where
  results : s.results.length = calls
  failed : none ∉ s.results
  not_late : s.late = false
  cancelled : ∀ err begun, s.cancelled = some (err, begun) → begun ≤ calls
  waited : s.waits.length = waits
  waits : ∀ i w, s.waits[i]? = some w → b * 2 ^ i ≤ w ∧ 2 * w < 3 * (b * 2 ^ i)

theorem going_start : Going b 0 0 (Watch.start : Watch E) where
  results := rfl
  failed := List.not_mem_nil
  not_late := rfl
  cancelled := by simp [Watch.start]
  waited := rfl
  waits := by simp [Watch.start]

theorem cancelled_cancel {err : Option CtxErr} {k : Nat} {x : CtxErr × Nat}
    (h : (s.cancel err k).cancelled = some x) : s.cancelled = some x ∨ x.2 = k := by
  change s.cancelled.or (err.map (·, k)) = some x at h
  rcases Option.or_eq_some_iff.mp h with h | ⟨-, h⟩
  · exact Or.inl h
  · obtain ⟨e, -, rfl⟩ := Option.map_eq_some_iff.mp h
    exact Or.inr rfl

theorem Going.cancel {calls waits : Nat} (h : Going b calls waits s) (err : Option CtxErr) :
    Going b calls waits (s.cancel err s.results.length) :=
  { h with
    cancelled := by
      intro e begun heq
      rcases cancelled_cancel heq with heq | heq
      · exact h.cancelled e begun heq
      · exact Nat.le_of_eq (heq.trans h.results) }

/-- A call that fails. -/
theorem Going.call {calls waits : Nat} (h : Going b calls waits s) (hc : s.cancelled = none)
    {o : Outcome E} {e : E} (ho : o.result = some e) :
    Going b (calls + 1) waits (answering o s .op).2 where
  results := by simp [answering, h.results]
  failed := by simp [answering, ho, h.failed]
  not_late := by simp [answering, h.not_late, hc]
  cancelled := by
    intro err begun heq
    rcases cancelled_cancel heq with heq | heq
    · rw [hc] at heq
      cases heq
    · rw [h.results] at heq
      exact Nat.le_of_eq heq
  waited := h.waited
  waits := h.waits

theorem Going.wait {calls waits : Nat} (h : Going b calls waits s) {d : Int}
    (hlow : b * 2 ^ waits ≤ d) (hhigh : 2 * d < 3 * (b * 2 ^ waits)) (o : Outcome E) :
    Going b calls (waits + 1) (answering o s (.wait d)).2 :=
  { h.cancel o.cancels with
    waited := by simp [answering, h.waited]
    waits := by
      intro i w hi
      simp only [answering, List.getElem?_append, List.getElem?_singleton] at hi
      split at hi
      · exact h.waits i w hi
      · rename_i hlen
        split at hi
        · obtain rfl : i = waits := by have := h.waited; omega
          cases hi
          exact ⟨hlow, hhigh⟩
        · cases hi }

/-! ## How a run ends -/

theorem Going.not_nil {calls waits : Nat} (h : Going b calls waits s) (i : Nat) :
    s.results[i]? ≠ some none :=
  fun hi => h.failed (List.mem_of_getElem? hi)

theorem kept_ctx {calls waits : Nat} (h : Going b calls waits s) (hlt : calls < n)
    {err : CtxErr} {begun : Nat} (hc : s.cancelled = some (err, begun)) :
    Kept n b (.returned (some (.ctx err))) s where
  no_panic := by simp
  calls := by rw [h.results]; exact Nat.le_of_lt hlt
  after_nil i hi := absurd hi (h.not_nil i)
  not_late := h.not_late
  returns_nil := iff_of_false (by simp) h.failed
  returns_ctx err' := by
    have hbegun : begun < n := Nat.lt_of_le_of_lt (h.cancelled err begun hc) hlt
    simp only [Ending.returned.injEq, Option.some.injEq, Err.ctx.injEq]
    constructor
    · rintro rfl
      exact ⟨h.failed, begun, hbegun, hc⟩
    · rintro ⟨-, begun', -, hc'⟩
      rw [hc] at hc'
      cases hc'
      rfl
  returns_last _ hfirst :=
    absurd ⟨begun, Nat.lt_of_le_of_lt (h.cancelled err begun hc) hlt, hc⟩ (hfirst err)
  waits := h.waits

theorem kept_nil {calls waits : Nat} (h : Going b calls waits s) (hlt : calls < n)
    (hc : s.cancelled = none) {o : Outcome E} (ho : o.result = none) :
    Kept n b (.returned none) (answering o s .op).2 where
  no_panic := by simp
  calls := by simp only [answering, List.length_append, h.results, List.length_singleton]; omega
  after_nil i hi := by
    simp only [answering, List.getElem?_append, List.getElem?_singleton] at hi
    simp only [answering, List.length_append, List.length_singleton]
    split at hi
    · exact absurd hi (h.not_nil i)
    · split at hi
      · omega
      · cases hi
  not_late := by simp [answering, h.not_late, hc]
  returns_nil := by simp [answering, ho]
  returns_ctx err := by simp [answering, ho]
  returns_last hnone := by simp [answering, ho] at hnone
  waits := h.waits

theorem kept_exhausted {calls waits : Nat} (h : Going b calls waits s) (hn : calls + 1 = n)
    (hc : s.cancelled = none) {o : Outcome E} {e : E} (ho : o.result = some e) :
    Kept n b (.returned (some (.exhausted n (some e)))) (answering o s .op).2 := by
  have hgo := h.call hc ho
  have hlate : ∀ err, ¬CancelledFirst n (answering o s .op).2 err := by
    rintro err ⟨begun, hbegun, heq⟩
    rcases cancelled_cancel heq with heq | heq
    · rw [hc] at heq
      cases heq
    · rw [h.results] at heq
      omega
  exact
    { no_panic := by simp
      calls := by rw [hgo.results]; exact Nat.le_of_eq hn
      after_nil := fun i hi => absurd hi (hgo.not_nil i)
      not_late := hgo.not_late
      returns_nil := iff_of_false (by simp) hgo.failed
      returns_ctx := fun err => iff_of_false (by simp) fun hfirst => hlate err hfirst.2
      returns_last := fun _ _ => ⟨e, by simp [answering, ho], rfl⟩
      waits := hgo.waits }

/-! ## The loop -/

theorem clock_call {α : Type} {c : Call} {k : Answer E c → Retry E α} {os : List (Outcome E)}
    {s' : Watch E} {a : α} (h : run clock os (.call c k, s) = (.done a, s')) :
    ∃ o rest, os = o :: rest ∧
      run clock rest (k (answering o s c).1, (answering o s c).2) = (.done a, s') := by
  cases os with
  | nil => cases h
  | cons o rest => exact ⟨o, rest, rfl, h⟩

/-- A wait that was made stays among the waits. -/
theorem waits_stay {α : Type} (p : Retry E α) {i : Nat} {w : Int} (hw : s.waits[i]? = some w)
    {os : List (Outcome E)} {s' : Watch E} {a : α}
    (h : run clock os (p, s) = (.done a, s')) : s'.waits[i]? = some w := by
  refine (wp_run_any (wp_only (J := fun s => s.waits[i]? = some w) (only_any p) hw ?_) h).2
  intro s c o _ _ hs
  cases c with
  | wait d =>
    obtain ⟨hlt, -⟩ := List.getElem?_eq_some_iff.mp hs
    change (s.waits ++ [d])[i]? = some w
    rw [List.getElem?_append_left hlt]
    exact hs
  | _ => exact hs

theorem run_done_inj {α : Type} {os : List (Outcome E)} {a r : α} {s' : Watch E}
    (h : run clock os ((.done a : Retry E α), s) = (.done r, s')) : a = r ∧ s = s' := by
  simpa only [run_done, Prod.mk.injEq, Prog.done.injEq] using h

/-- The `select` ends with the error of the context, or the next attempt follows. -/
theorem select_run {i : Nat} {d : Int} {next : Retry E (Ending E)} {os : List (Outcome E)}
    {s' : Watch E} {r : Ending E} (hgo : Going b (i + 1) i s) (hlt : i + 1 < n)
    (hlow : b * 2 ^ i ≤ d) (hhigh : 2 * d < 3 * (b * 2 ^ i))
    (hrun : run clock os (select d next, s) = (.done r, s'))
    (hdrawn : Meets clock Drawn os (select d next, s))
    (hnext : ∀ {os s₁}, Going b (i + 1) (i + 1) s₁ →
      run clock os (next, s₁) = (.done r, s') → Meets clock Drawn os (next, s₁) →
      (Kept n b r s' ↔ Meets clock (Fits b) os (next, s₁))) :
    Kept n b r s' ↔ Meets clock (Fits b) os (select d next, s) := by
  simp only [select, Prog.ask_bind] at hrun hdrawn ⊢
  obtain ⟨o, rest, rfl, hr⟩ := clock_call hrun
  have hgo₁ : Going b (i + 1) (i + 1) (answering o s (.wait d)).2 := hgo.wait hlow hhigh o
  obtain ⟨-, hdrawn⟩ := hdrawn
  refine Iff.trans ?_ (and_iff_right (show Fits b s (.wait d) o from trivial)).symm
  change Meets clock Drawn rest (_, (answering o s (.wait d)).2) at hdrawn
  change _ ↔ Meets clock (Fits b) rest (_, (answering o s (.wait d)).2)
  generalize hs₁ : (answering o s (.wait d)).2 = s₁ at hgo₁ hr hdrawn ⊢
  have hwait : (answering o s (.wait d)).1 = (s₁.cancelled.isSome && o.seesDone) := by
    rw [← hs₁]
    rfl
  change run clock rest ((if (answering o s (.wait d)).1 then _ else _), s₁) = _ at hr
  change Meets clock Drawn rest ((if (answering o s (.wait d)).1 then _ else _), s₁) at hdrawn
  change _ ↔ Meets clock (Fits b) rest ((if (answering o s (.wait d)).1 then _ else _), s₁)
  cases hdone : (answering o s (.wait d)).1 with
  | false =>
    rw [hdone] at hr hdrawn
    exact hnext hgo₁ hr hdrawn
  | true =>
    rw [hdone, if_pos rfl] at hr
    obtain ⟨o', rest', rfl, hr'⟩ := clock_call hr
    obtain ⟨⟨err, begun⟩, hc⟩ : ∃ x, s₁.cancelled = some x := by
      rw [hwait, Bool.and_eq_true] at hdone
      exact Option.isSome_iff_exists.mp hdone.1
    have hc' : (s₁.cancel o'.cancels s₁.results.length).cancelled = some (err, begun) := by
      simp [Watch.cancel, hc]
    obtain ⟨rfl, rfl⟩ := run_done_inj hr'
    refine iff_of_true ?_ ⟨trivial, meets_done ..⟩
    change Kept n b (.returned
      (((s₁.cancel o'.cancels s₁.results.length).cancelled.map (·.1)).map .ctx)) _
    rw [hc']
    exact kept_ctx (hgo₁.cancel o'.cancels) hlt hc'

/-- A wait that is too short is no wait of the rules. -/
theorem select_short {i : Nat} {d : Int} {next : Retry E (Ending E)} {os : List (Outcome E)}
    {s' : Watch E} {r : Ending E} (hwaited : s.waits.length = i) (hd : d < b * 2 ^ i)
    (hrun : run clock os (select d next, s) = (.done r, s')) : ¬Kept n b r s' := by
  intro hkept
  simp only [select, Prog.ask_bind] at hrun
  obtain ⟨o, rest, rfl, hrun⟩ := clock_call hrun
  have hmade : (answering o s (.wait d)).2.waits[i]? = some d := by
    simp [answering, ← hwaited]
  have hlow := (hkept.waits i d (waits_stay _ hmade hrun)).1
  omega

/-- The wait before a retry keeps the rules where it fits, and breaks one where it does not. -/
theorem backOff_run {i : Nat} {next : Retry E (Ending E)} {os : List (Outcome E)} {s' : Watch E}
    {r : Ending E} (hgo : Going b (i + 1) i s) (hlt : i + 1 < n) (h1 : 1 ≤ b * 2 ^ i)
    (h64 : b * 2 ^ i < 2 ^ 64) (hrun : run clock os (backOff b i next, s) = (.done r, s'))
    (hdrawn : Meets clock Drawn os (backOff b i next, s))
    (hnext : ∀ {os s₁}, Going b (i + 1) (i + 1) s₁ → b * 2 ^ i < 2 ^ 63 →
      run clock os (next, s₁) = (.done r, s') → Meets clock Drawn os (next, s₁) →
      (Kept n b r s' ↔ Meets clock (Fits b) os (next, s₁))) :
    Kept n b r s' ↔ Meets clock (Fits b) os (backOff b i next, s) := by
  simp only [backOff, Prog.ask_bind] at hrun hdrawn ⊢
  generalize hd : b * 2 ^ i = d at *
  obtain ⟨o, rest, rfl, hr⟩ := clock_call hrun
  obtain ⟨hjitter, hdrawn⟩ := hdrawn
  change 0 < (duration d).tdiv 2 → _ at hjitter
  have hgo₁ : Going b (i + 1) i (s.cancel o.cancels s.results.length) := hgo.cancel o.cancels
  have hfits : Fits b s (.int64N ((duration d).tdiv 2)) o ↔
      2 ≤ d ∧ d < 2 ^ 63 ∧ d + o.jitter < 2 ^ 63 := by
    rw [← hd, ← hgo.waited]
    rfl
  change _ ↔ Fits b s (.int64N _) o ∧ Meets clock (Fits b) rest _
  rw [hfits]
  by_cases hdelay : 2 ≤ d ∧ d < 2 ^ 63
  · obtain ⟨hpos, hhalf⟩ := half_of_fits hdelay.1 hdelay.2
    obtain ⟨hj0, hj⟩ := hjitter hpos
    have hanswer : (answering o s (.int64N ((duration d).tdiv 2))).1 = some o.jitter := if_pos hpos
    simp only [clock, hanswer] at hr hdrawn ⊢
    rw [duration_fits (by omega) hdelay.2] at hr hdrawn hj hhalf ⊢
    by_cases hwait : d + o.jitter < 2 ^ 63
    · rw [duration_fits (by omega) hwait] at hr hdrawn ⊢
      refine (select_run hgo₁ hlt (by omega) (by omega) hr hdrawn ?_).trans
        (and_iff_right ⟨hdelay.1, hdelay.2, hwait⟩).symm
      exact fun hgo₂ => hnext hgo₂ hdelay.2
    · have hshort : duration (d + o.jitter) < b * 2 ^ i := by
        have := duration_over (n := d + o.jitter) (by omega) (by omega)
        omega
      exact iff_of_false (select_short hgo₁.waited hshort hr) fun h => hwait h.1.2.2
  · have hanswer : (answering o s (.int64N ((duration d).tdiv 2))).1 = none :=
      if_neg (Int.not_lt.mpr (half_of_not_fits h1 h64 hdelay))
    simp only [hanswer] at hr
    obtain ⟨rfl, -⟩ := run_done_inj hr
    exact iff_of_false (fun h => h.no_panic rfl) fun h => hdelay ⟨h.1.1, h.1.2.1⟩

/-- From the start of an attempt on, by induction on the attempts to come. -/
theorem loop_run {left i : Nat} {lastErr : Option E} {os : List (Outcome E)} {s' : Watch E}
    {r : Ending E} (hi : i + left = n) (hlt : i < n) (hb : 1 ≤ b) (h64 : b * 2 ^ i < 2 ^ 64)
    (hgo : Going b i i s) (hrun : run clock os (loop n b left lastErr, s) = (.done r, s'))
    (hdrawn : Meets clock Drawn os (loop n b left lastErr, s)) :
    Kept n b r s' ↔ Meets clock (Fits b) os (loop n b left lastErr, s) := by
  induction left generalizing i lastErr os s with
  | zero => omega
  | succ left ih =>
    have hattempt : n - (left + 1) = i := by omega
    simp only [loop, Prog.ask_bind, hattempt] at hrun hdrawn ⊢
    obtain ⟨o, rest, rfl, hr⟩ := clock_call hrun
    obtain ⟨-, hdrawn⟩ := hdrawn
    have hgo₁ : Going b i i (answering o s .ctxErr).2 := hgo.cancel o.cancels
    have hchecked : (answering o s .ctxErr).1 = (answering o s .ctxErr).2.cancelled.map (·.1) := rfl
    refine Iff.trans ?_ (and_iff_right (show Fits b s .ctxErr o from trivial)).symm
    simp only [clock] at hdrawn ⊢
    generalize (answering o s .ctxErr).2 = s₁ at *
    cases hc : s₁.cancelled with
    | some x =>
      simp only [hchecked, hc, Option.map_some] at hr ⊢
      obtain ⟨rfl, rfl⟩ := run_done_inj hr
      exact iff_of_true (kept_ctx hgo₁ hlt hc) (meets_done ..)
    | none =>
      simp only [hchecked, hc, Option.map_none] at hr hdrawn ⊢
      obtain ⟨o', rest', rfl, hr'⟩ := clock_call hr
      obtain ⟨-, hdrawn'⟩ := hdrawn
      refine Iff.trans ?_ (and_iff_right (show Fits b s₁ .op o' from trivial)).symm
      have hresult : (answering o' s₁ .op).1 = o'.result := rfl
      cases ho : o'.result with
      | none =>
        simp only [hresult, ho] at hr' ⊢
        obtain ⟨rfl, rfl⟩ := run_done_inj hr'
        exact iff_of_true (kept_nil hgo₁ hlt hc ho) (meets_done ..)
      | some e =>
        simp only [hresult, ho] at hr' hdrawn' ⊢
        by_cases hlast : i = n - 1
        · simp only [if_pos hlast] at hr' ⊢
          obtain ⟨rfl, rfl⟩ := run_done_inj hr'
          exact iff_of_true (kept_exhausted hgo₁ (by omega) hc ho) (meets_done ..)
        · simp only [if_neg hlast] at hr' hdrawn' ⊢
          refine backOff_run (hgo₁.call hc ho) (by omega) ?_ h64 hr' hdrawn' ?_
          · exact Int.mul_pos hb (Int.pow_pos (by omega))
          · intro os s₂ hgo₂ h63 hr₂ hdrawn₂
            exact ih (by omega) (by omega) (by rw [Int.pow_succ, ← Int.mul_assoc]; omega) hgo₂ hr₂ hdrawn₂

end Runs

section Do

variable {E : Type}

theorem atLeastOne_pos (attempts : Int64) : 0 < atLeastOne attempts := by
  unfold atLeastOne
  split <;> omega

theorem effective_pos (backoff : Int64) : 1 ≤ effective backoff := by
  unfold effective
  split <;> omega

theorem effective_fits (backoff : Int64) : effective backoff < 2 ^ 63 := by
  have hmax : backoff.toInt < 2 ^ 63 := backoff.toInt_lt
  unfold effective
  split <;> omega

/-- A run keeps the rules iff each retry that it comes to fits in 64 bits. -/
theorem rules_are_kept_iff_the_retries_fit {attempts backoff : Int64} {os : List (Outcome E)}
    {r : Ending E} {s : Watch E}
    (hrun : run clock os (Do true attempts backoff, Watch.start) = (.done r, s))
    (hdrawn : Meets clock Drawn os (Do true attempts backoff, Watch.start)) :
    Kept (atLeastOne attempts) (effective backoff) r s ↔
      Meets clock (Fits (effective backoff)) os (Do true attempts backoff, Watch.start) := by
  have h64 : effective backoff * 2 ^ 0 < 2 ^ 64 := by
    have := effective_fits backoff
    omega
  exact loop_run (Nat.zero_add _) (atLeastOne_pos attempts) (effective_pos backoff) h64 going_start
    hrun hdrawn

/-- An operation that fails with the same error each time. -/
def failing : Outcome Nat := ⟨none, some 1, 0, false⟩

theorem failing_is_drawn (k : Nat) (p : Retry Nat (Ending Nat)) (s : Watch Nat) :
    Meets clock Drawn (List.replicate k failing) (p, s) := by
  refine meets_of_choices (fun o ho s c => ?_) p s
  obtain rfl := List.eq_of_mem_replicate ho
  cases c with
  | int64N n => exact fun hn => ⟨Int.le_refl 0, hn⟩
  | _ => trivial

/-- Three attempts, from ten nanoseconds on. -/
theorem three_attempts_keep_the_rules :
    Kept (atLeastOne 3) (effective 10) (.returned (some (.exhausted 3 (some 1))))
      (⟨[some 1, some 1, some 1], [10, 20], none, false⟩ : Watch Nat) := by
  have hrun : run clock (List.replicate 10 failing) (Do true 3 10, Watch.start) =
      (.done (.returned (some (.exhausted 3 (some 1)))),
        ⟨[some 1, some 1, some 1], [10, 20], none, false⟩) := rfl
  refine (rules_are_kept_iff_the_retries_fit hrun (failing_is_drawn ..)).mpr ?_
  have hfirst : Fits 10 ⟨[some 1], [], none, false⟩ (.int64N 5) failing := by
    refine ⟨?_, ?_, ?_⟩ <;> decide
  have hsecond : Fits 10 ⟨[some 1, some 1], [10], none, false⟩ (.int64N 10) failing := by
    refine ⟨?_, ?_, ?_⟩ <;> decide
  exact ⟨trivial, trivial, hfirst, trivial, trivial, trivial, hsecond, trivial, trivial, trivial,
    trivial⟩

/-- A backoff of one nanosecond has no jitter to draw, and the second attempt is never made. -/
theorem a_retry_after_one_nanosecond_panics :
    ∃ (os : List (Outcome Nat)) (s : Watch Nat),
      Meets clock Drawn os (Do true 2 1, Watch.start) ∧
        run clock os (Do true 2 1, Watch.start) = (.done .panicked, s) ∧
        ¬Kept (atLeastOne 2) (effective 1) .panicked s :=
  ⟨List.replicate 3 failing, ⟨[some 1], [], none, false⟩, failing_is_drawn .., rfl,
    fun h => h.no_panic rfl⟩

end Do

end recast_rules.resilience
