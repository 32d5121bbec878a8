-- The admission controller of the gateway (`internal/gateway/middleware/admission.go`). A poller
-- measures the queue and stores whether it could and how deep it is, one after the other; requests
-- load the two in between.
import Mathlib.Data.Int.Order.Basic
import Mathlib.Data.List.ReduceOption
import RecastAi.Histories

open call_programs

namespace recast_rules.admission

/-! ## The calls -/

/-- The two atomics, and the broker. -/
inductive Call where
  | queueDepth (queue : String)
  | storeHealthy (healthy : Bool)
  | storeDepth (depth : Int)
  | loadHealthy
  | loadDepth

def Answer : Call → Type
  | .queueDepth _ => Option Int
  | .storeHealthy _ => Unit
  | .storeDepth _ => Unit
  | .loadHealthy => Bool
  | .loadDepth => Int

structure Atomics where
  healthy : Bool
  depth : Int

/-- The broker tells a depth, or the poll fails. -/
def answerCall (o : Option Int) (s : Atomics) : (c : Call) → Answer c × Atomics
  | .queueDepth _ => (o, s)
  | .storeHealthy healthy => ((), { s with healthy })
  | .storeDepth depth => ((), { s with depth })
  | .loadHealthy => (s.healthy, s)
  | .loadDepth => (s.depth, s)

def gauge : World Call Answer Atomics (Option Int) := ⟨answerCall⟩

abbrev Gated := Prog Call Answer

def ask (c : Call) : Gated (Answer c) := Prog.ask c

/-! ## The controller -/

/-- `AdmissionConfig`. `PollInterval` is in nanoseconds. -/
structure AdmissionConfig where
  queueName : String
  maxDepth : Int
  pollInterval : Int
  meanStageLatencySeconds : Int

/-- The defaults of `NewAdmissionController`. -/
def withDefaults (cfg : AdmissionConfig) : AdmissionConfig where
  queueName := if cfg.queueName = "" then "ingestion.queue" else cfg.queueName
  maxDepth := cfg.maxDepth
  pollInterval := if cfg.pollInterval ≤ 0 then 2000000000 else cfg.pollInterval
  meanStageLatencySeconds :=
    if cfg.meanStageLatencySeconds ≤ 0 then 30 else cfg.meanStageLatencySeconds

/-- What a thread ends with: the poller was stopped, the request went on to the handler behind, or
it was answered a 429 with these headers. -/
inductive Ended where
  | stopped
  | next
  | busy (retryAfter queueDepth : Int)
deriving DecidableEq

/-- The loop of the poller, for so many ticks. -/
def run (cfg : AdmissionConfig) : Nat → Gated Ended
  | 0 => pure .stopped
  | n + 1 => do
    match ← ask (.queueDepth cfg.queueName) with
    | none => do
      let _ ← ask (.storeHealthy false)
      run cfg n
    | some depth => do
      let _ ← ask (.storeHealthy true)
      let _ ← ask (.storeDepth depth)
      run cfg n

/-- The hint for the client. The product is one of 64 bits, and `/` rounds towards zero. -/
def retryAfter (cfg : AdmissionConfig) (depth : Int) : Int :=
  let excess := depth - cfg.maxDepth
  min (max (((excess * cfg.meanStageLatencySeconds).bmod (2 ^ 64)).tdiv 100) 5) 300

/-- What the middleware makes of a depth. -/
def judged (cfg : AdmissionConfig) (depth : Int) : Ended :=
  if depth ≤ cfg.maxDepth then .next else .busy (retryAfter cfg depth) depth

/-- A request. -/
def middleware (cfg : AdmissionConfig) : Gated Ended :=
  if cfg.maxDepth ≤ 0 then pure .next
  else do
    let healthy : Bool ← ask .loadHealthy
    if !healthy then pure .next
    else do
      let depth : Int ← ask .loadDepth
      pure (judged cfg depth)

/-- The controller with its poller, and so many requests. -/
def startFrom (cfg : AdmissionConfig) (ticks requests : Nat) : Config Call Answer Atomics Ended :=
  ⟨⟨⟨true, 0⟩, []⟩,
    run (withDefaults cfg) ticks :: List.replicate requests (middleware (withDefaults cfg))⟩

/-! ## What was measured -/

abbrev Log := List (Event Call Answer)

/-- What the polls were answered, newest first. -/
def polls : Log → List (Option Int)
  | ⟨_, .queueDepth _, x⟩ :: log => x :: polls log
  | _ :: log => polls log
  | [] => []

/-- The newest measurement. Before the first one the depth is zero. -/
def measured (ps : List (Option Int)) : Int := (ps.reduceOption.head?).getD 0

/-- Whether the newest poll has succeeded. Before the first one it counts as if it had. -/
def answered : List (Option Int) → Bool
  | [] => true
  | p :: _ => p.isSome

/-- The depth is the newest measurement, or the newest before the last poll. -/
def FreshDepth (log : Log) (depth : Int) : Prop :=
  depth = measured (polls log) ∨ depth = measured (polls log).tail

def FreshHealth (log : Log) (healthy : Bool) : Prop :=
  healthy = answered (polls log) ∨ healthy = answered (polls log).tail

/-! ## The poller and the requests -/

/-- The poller is between two polls. -/
def Idle : Log → Prop
  | [] => True
  | ⟨_, .storeDepth _, _⟩ :: _ => True
  | ⟨_, .storeHealthy false, _⟩ :: _ => True
  | _ => False

/-- What the poller does after its own calls. -/
def Polls (cfg : AdmissionConfig) (h : Log) : Call → Prop
  | .queueDepth queue => queue = cfg.queueName ∧ Idle h
  | .storeHealthy healthy =>
    ∃ i queue x rest, h = ⟨i, .queueDepth queue, x⟩ :: rest ∧ healthy = Option.isSome x
  | .storeDepth depth => ∃ i j queue rest,
      h = ⟨i, .storeHealthy true, ()⟩ :: ⟨j, .queueDepth queue, some depth⟩ :: rest
  | _ => False

def Loads : Call → Prop
  | .loadHealthy => True
  | .loadDepth => True
  | _ => False

def Due (cfg : AdmissionConfig) (i : Nat) (h : Log) (c : Call) : Prop :=
  if i = 0 then Polls cfg h c else Loads c

/-- How a request has ended, told by what it has loaded. -/
inductive Judged (cfg : AdmissionConfig) (i : Nat) : Ended → Log → Prop where
  | off (h : cfg.maxDepth ≤ 0) : Judged cfg i .next []
  | unhealthy (h : 0 < cfg.maxDepth) : Judged cfg i .next [⟨i, .loadHealthy, false⟩]
  | measured (h : 0 < cfg.maxDepth) (depth : Int) :
      Judged cfg i (judged cfg depth) [⟨i, .loadDepth, depth⟩, ⟨i, .loadHealthy, true⟩]

theorem run_follows (cfg : AdmissionConfig) (ticks : Nat) {h : Log} (hidle : Idle h) :
    (run cfg ticks).Follows 0 (Polls cfg) (fun _ _ => True) h := by
  induction ticks generalizing h with
  | zero => trivial
  | succ n ih =>
    refine ⟨⟨rfl, hidle⟩, fun (x : Option Int) => ?_⟩
    cases x with
    | none => exact ⟨⟨0, _, none, h, rfl, rfl⟩, fun _ => ih trivial⟩
    | some depth =>
      exact ⟨⟨0, _, some depth, h, rfl, rfl⟩, fun _ => ⟨⟨0, 0, _, h, rfl⟩, fun _ => ih trivial⟩⟩

theorem middleware_follows (cfg : AdmissionConfig) (i : Nat) :
    (middleware cfg).Follows i (fun _ c => Loads c) (Judged cfg i) [] := by
  unfold middleware
  split
  · rename_i hoff
    exact .off hoff
  · rename_i hon
    have hon := not_le.mp hon
    refine ⟨trivial, fun (healthy : Bool) => ?_⟩
    cases healthy with
    | false => exact .unhealthy hon
    | true => exact ⟨trivial, fun depth => .measured hon depth⟩

theorem start_follows (cfg : AdmissionConfig) (ticks requests : Nat) :
    AllFollow (Due (withDefaults cfg)) (fun i x h => i = 0 ∨ Judged (withDefaults cfg) i x h)
      (startFrom cfg ticks requests) := by
  intro i p hp
  cases i with
  | zero =>
    cases hp
    exact follows_mono (follows_admits (run_follows _ ticks trivial) fun _ _ hc => hc)
      fun _ _ _ => Or.inl rfl
  | succ i =>
    have hmem := List.mem_of_getElem? (show (List.replicate _ _)[i]? = some p from hp)
    rw [List.eq_of_mem_replicate hmem]
    exact follows_mono (follows_admits (middleware_follows _ (i + 1)) fun _ _ hc => hc)
      fun _ _ hx => Or.inr hx

/-! ## The invariant -/

/-- The atomics are as far as the poller, whose own calls are given. -/
inductive Synced (a : Atomics) : List (Option Int) → Log → Prop where
  | idle {ps : List (Option Int)} {h : Log} (hidle : Idle h) (hhealthy : a.healthy = answered ps)
      (hdepth : a.depth = measured ps) : Synced a ps h
  | asked {ps : List (Option Int)} {i : Nat} {queue : String} {x : Option Int} {h : Log}
      (hhealthy : a.healthy = answered ps) (hdepth : a.depth = measured ps) :
      Synced a (x :: ps) (⟨i, .queueDepth queue, x⟩ :: h)
  | marked {ps : List (Option Int)} {i j : Nat} {queue : String} {depth : Int} {h : Log}
      (hhealthy : a.healthy = true) (hdepth : a.depth = measured ps) :
      Synced a (some depth :: ps)
        (⟨i, .storeHealthy true, ()⟩ :: ⟨j, .queueDepth queue, some depth⟩ :: h)

theorem fresh_of_synced {a : Atomics} {log h : Log} (hs : Synced a (polls log) h) :
    FreshDepth log a.depth ∧ FreshHealth log a.healthy := by
  unfold FreshDepth FreshHealth
  generalize polls log = ps at hs ⊢
  cases hs with
  | idle _ hhealthy hdepth => exact ⟨Or.inl hdepth, Or.inl hhealthy⟩
  | asked hhealthy hdepth => exact ⟨Or.inr hdepth, Or.inr hhealthy⟩
  | marked hhealthy hdepth => exact ⟨Or.inr hdepth, Or.inl hhealthy⟩

/-- What a request loads is fresh. -/
def Fresh (log : Log) : Event Call Answer → Prop
  | ⟨_, .loadHealthy, healthy⟩ => FreshHealth log healthy
  | ⟨_, .loadDepth, depth⟩ => FreshDepth log depth
  | _ => True

structure Sound (s : Shot Call Answer Atomics) : Prop where
  synced : Synced s.state (polls s.log) (s.own 0)
  fresh : ∀ e log, e :: log <:+ s.log → Fresh log e

/-- A call of the poller keeps step with the atomics. -/
theorem synced_poll {cfg : AdmissionConfig} {a : Atomics} {log h : Log} {c : Call} (o : Option Int)
    (hdue : Polls cfg h c) (hs : Synced a (polls log) h) :
    Synced (gauge.answer o a c).2 (polls (⟨0, c, (gauge.answer o a c).1⟩ :: log))
      (⟨0, c, (gauge.answer o a c).1⟩ :: h) := by
  cases c with
  | loadHealthy => exact hdue.elim
  | loadDepth => exact hdue.elim
  | queueDepth queue =>
    change Synced a (o :: polls log) _
    obtain ⟨-, hidle⟩ := hdue
    generalize polls log = ps at hs ⊢
    cases hs with
    | idle _ hhealthy hdepth => exact .asked hhealthy hdepth
    | asked => exact hidle.elim
    | marked => exact hidle.elim
  | storeHealthy healthy =>
    change Synced { a with healthy } (polls log) _
    obtain ⟨i, queue, x, rest, rfl, rfl⟩ := hdue
    generalize polls log = ps at hs ⊢
    cases hs with
    | idle hidle => exact hidle.elim
    | asked hhealthy hdepth =>
      cases x with
      | none => exact .idle trivial rfl hdepth
      | some depth => exact .marked rfl hdepth
  | storeDepth depth =>
    change Synced { a with depth } (polls log) _
    obtain ⟨i, j, queue, rest, rfl⟩ := hdue
    generalize polls log = ps at hs ⊢
    cases hs with
    | idle hidle => exact hidle.elim
    | marked hhealthy hdepth => exact .idle trivial hhealthy rfl

/-- A call of a request changes nothing. -/
theorem loads_change_nothing {c : Call} (hc : Loads c) (o : Option Int) (a : Atomics) (i : Nat)
    (log : Log) : (gauge.answer o a c).2 = a ∧
      polls (⟨i, c, (gauge.answer o a c).1⟩ :: log) = polls log := by
  cases c with
  | loadHealthy => exact ⟨rfl, rfl⟩
  | loadDepth => exact ⟨rfl, rfl⟩
  | _ => exact hc.elim

theorem fresh_answer {a : Atomics} {log h : Log} (hs : Synced a (polls log) h) (i : Nat) (c : Call)
    (o : Option Int) : Fresh log ⟨i, c, (gauge.answer o a c).1⟩ := by
  cases c with
  | loadHealthy => exact (fresh_of_synced hs).2
  | loadDepth => exact (fresh_of_synced hs).1
  | _ => trivial

theorem sound_after {cfg : AdmissionConfig} (s : Shot Call Answer Atomics) (i : Nat) (c : Call)
    (o : Option Int) (hdue : Due cfg i (s.own i) c) (hs : Sound s) : Sound (s.after gauge i c o) where
  synced := by
    by_cases hi : i = 0
    · subst hi
      rw [own_after_self]
      exact synced_poll o hdue hs.synced
    · obtain ⟨hstate, hpolls⟩ := loads_change_nothing ((if_neg hi).mp hdue) o s.state i s.log
      rw [own_after_ne gauge s hi]
      change Synced (gauge.answer o s.state c).2 (polls (⟨i, c, (gauge.answer o s.state c).1⟩ :: s.log)) _
      rw [hstate, hpolls]
      exact hs.synced
  fresh := by
    intro e log hsuffix
    rcases List.suffix_cons_iff.mp hsuffix with heq | hsuffix
    · obtain ⟨rfl, rfl⟩ := List.cons.inj heq
      exact fresh_answer hs.synced i c o
    · exact hs.fresh e log hsuffix

theorem sound_start (cfg : AdmissionConfig) (ticks requests : Nat) :
    Sound (startFrom cfg ticks requests).shot where
  synced := .idle trivial rfl rfl
  fresh := fun _ _ hsuffix => absurd (List.suffix_nil.mp hsuffix) (List.cons_ne_nil _ _)

/-! ## The law -/

/-- Why a request has ended so: there is no limit, the poller could not measure the queue, or a
depth was loaded and judged. -/
inductive Decided (cfg : AdmissionConfig) (log : Log) (i : Nat) : Ended → Prop where
  | off (h : cfg.maxDepth ≤ 0) : Decided cfg log i .next
  | unhealthy (before : Log) (hload : ⟨i, .loadHealthy, false⟩ :: before <:+ log)
      (hfresh : FreshHealth before false) : Decided cfg log i .next
  | measured (h : 0 < cfg.maxDepth) (depth : Int) (before before' : Log)
      (hhealthy : ⟨i, .loadHealthy, true⟩ :: before <:+ before')
      (hfreshHealth : FreshHealth before true)
      (hdepth : ⟨i, .loadDepth, depth⟩ :: before' <:+ log) (hfreshDepth : FreshDepth before' depth) :
      Decided cfg log i (judged cfg depth)

theorem retryAfter_bounds (cfg : AdmissionConfig) (depth : Int) :
    5 ≤ retryAfter cfg depth ∧ retryAfter cfg depth ≤ 300 := by
  unfold retryAfter
  dsimp only
  omega

/-- What a thread did is in the log in the order of its own calls. -/
theorem own_split {s : Shot Call Answer Atomics} {i : Nat} {e : Event Call Answer} {rest : Log}
    (h : s.own i = e :: rest) : ∃ before, e :: before <:+ s.log ∧ before.filter (·.thread = i) = rest := by
  unfold Shot.own at h
  obtain ⟨later, before, hlog, -, -, hrest⟩ := List.filter_eq_cons_iff.mp h
  exact ⟨before, ⟨later, hlog.symm⟩, hrest⟩

theorem mem_of_measured {ps : List (Option Int)} {depth : Int} (h : depth = measured ps)
    (hne : depth ≠ 0) : some depth ∈ ps := by
  unfold measured at h
  cases hhead : ps.reduceOption.head? with
  | none =>
    rw [hhead] at h
    exact absurd h hne
  | some d =>
    rw [hhead] at h
    obtain rfl : depth = d := h
    exact List.reduceOption_mem_iff.mp (List.mem_of_mem_head? hhead)

theorem polls_suffix {log log' : Log} (h : log <:+ log') : polls log ⊆ polls log' := by
  obtain ⟨later, rfl⟩ := h
  induction later with
  | nil => exact List.Subset.refl _
  | cons e later ih =>
    obtain ⟨i, c, x⟩ := e
    cases c with
    | queueDepth queue => exact List.Subset.trans ih (List.subset_cons_self _ _)
    | _ => exact ih

/-- A fresh depth that is not zero was measured. -/
theorem mem_of_fresh {log : Log} {depth : Int} (h : FreshDepth log depth) (hne : depth ≠ 0) :
    some depth ∈ polls log := by
  rcases h with h | h
  · exact mem_of_measured h hne
  · exact List.mem_of_mem_tail (mem_of_measured h hne)

def adasLimit : AdmissionConfig := ⟨"", 1000, 0, 30⟩

/-- The poller measures 1500, and the one request is turned away. -/
def adasPicks : List (Nat × Option Int) :=
  [(0, some 1500), (0, none), (0, none), (1, none), (1, none)]

end recast_rules.admission
