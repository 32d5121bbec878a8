-- The progress events on their way to the browser: four services publish them to
-- Redis, each with a channel and an encoding of its own, and the hub subscribes to
-- a channel for each watched job and sends what it can read to the clients.
import RecastAi.Consumers
import RecastAi.WebsocketPrivacy

open call_programs py_text recast_rules.models
open recast_rules.transcript (Json)

namespace recast_rules.hub.events

/-! ## What is published -/

inductive PipelineWorker where
  | videoAnalyzer | ttsService | muxService | deliveryService
deriving DecidableEq

/-- The channel that the service publishes to. -/
def PipelineWorker.channel : PipelineWorker → String → String
  | .videoAnalyzer, jobID => s!"job:{jobID}"
  | .ttsService, jobID => s!"job:{jobID}"
  | .muxService, jobID => s!"job:{jobID}:events"
  | .deliveryService, jobID => s!"job:{jobID}:events"

/-- `models.JobEvent`. -/
structure JobEvent where
  event : String
  jobID : String
  stage : String
  progress : PyFloat
  etaSeconds : Int
  error : String

/-- A string field with `omitempty`. -/
def omitEmpty (key value : String) : List (Text × Json) :=
  if value = "" then [] else [(text key, goString value)]

/-- `json.Marshal`. -/
def JobEvent.encode (e : JobEvent) : Option Json := do
  let progress ← goFloat e.progress
  return .object ([(text "event", goString e.event), (text "job_id", goString e.jobID),
    (text "stage", goString e.stage), (text "progress", progress)] ++
    omitZero "eta_seconds" e.etaSeconds ++ omitEmpty "error" e.error)

/-- The dictionary of the Python services. -/
def stageComplete (jobID stage : String) (progress : Rat) : Json :=
  .object [(text "event", goString "stage_complete"), (text "job_id", goString jobID),
    (text "stage", goString stage), (text "progress", .float (.finite progress))]

/-- The event of `publishEvent`. -/
def stageUpdate (jobID stage : String) (progress : Rat) : JobEvent :=
  ⟨"stage_update", jobID, stage, .finite progress, 0, ""⟩

/-- What the service writes, with whatever stage and progress. -/
def PipelineWorker.message (jobID stage : String) (progress : Rat) : PipelineWorker → Option Json
  | .videoAnalyzer => some (stageComplete jobID stage progress)
  | .ttsService => some (stageComplete jobID stage progress)
  | .muxService => (stageUpdate jobID stage progress).encode
  | .deliveryService => (stageUpdate jobID stage progress).encode

/-- The channel of the Go services, where their model names it. -/
theorem publishEvent_channel (jobID : String) :
    consumers.publishEvent jobID = (do
      let _ ← pipeline.ask (.notify (PipelineWorker.muxService.channel jobID))) := rfl

/-! ## What the hub reads -/

/-- A `float64` field. -/
def floatField (fields : List (Text × Json)) (key : String) : Option PyFloat :=
  (valuesAt fields key).foldlM (fun x v =>
    match v with
    | .null => some x
    | .int n => some (.finite n)
    | .float x => some x
    | _ => none) (.finite 0)

/-- `json.Unmarshal`. -/
def decodeJobEvent (v : Json) : Option JobEvent := do
  let fields ← objectFields v
  let event ← stringField fields "event"
  let jobID ← stringField fields "job_id"
  let stage ← stringField fields "stage"
  let progress ← floatField fields "progress"
  let etaSeconds ← intField fields "eta_seconds"
  let error ← stringField fields "error"
  return ⟨event, jobID, stage, progress, etaSeconds, error⟩

/-- The payloads that are events. `parse` reads JSON. -/
def isEvent (parse : String → Option Json) (payload : String) : Bool :=
  ((parse payload).bind decodeJobEvent).isSome

/-- The event tells the job, the stage and the progress. -/
def Tells (e : JobEvent) (jobID stage : String) (progress : Rat) : Prop :=
  e.jobID = jobID ∧ e.stage = stage ∧ e.progress = .finite progress

theorem error_absent {fields : List (Text × Json)} (h : valuesAt fields "error" = []) :
    stringField fields "error" = some "" := stringField_absent h

theorem decode_stageComplete (jobID stage : String) (progress : Rat) :
    decodeJobEvent (stageComplete jobID stage progress) =
      some ⟨"stage_complete", jobID, stage, .finite progress, 0, ""⟩ := by
  unfold decodeJobEvent stageComplete
  simp only [objectFields, Option.bind_eq_bind, Option.bind_some]
  rw [stringField_written (s := "stage_complete") rfl, stringField_written (s := jobID) rfl,
    stringField_written (s := stage) rfl, error_absent rfl]
  rfl

theorem decode_number {fields : List (Text × Json)} {progress : Rat} {v : Json}
    (h : goFloat (.finite progress) = some v) (hv : valuesAt fields "progress" = [v]) :
    floatField fields "progress" = some (.finite progress) := by
  unfold floatField
  rw [hv]
  unfold goFloat at h
  dsimp only at h
  split at h
  · rename_i hwhole
    obtain rfl := Option.some.inj h
    have hnum : ((progress.num : Int) : Rat) = progress := Rat.coe_int_num_of_den_eq_one hwhole.1
    change some (PyFloat.finite progress.num) = _
    rw [hnum]
  · obtain rfl := Option.some.inj h
    rfl

theorem decode_stageUpdate {jobID stage : String} {progress : Rat} {v : Json}
    (h : (stageUpdate jobID stage progress).encode = some v) :
    decodeJobEvent v = some (stageUpdate jobID stage progress) := by
  unfold JobEvent.encode at h
  obtain ⟨number, hnumber, hv⟩ := Option.bind_eq_some_iff.mp h
  obtain rfl := Option.some.inj hv
  unfold decodeJobEvent
  simp only [objectFields, Option.bind_eq_bind, Option.bind_some]
  rw [stringField_written (s := "stage_update") rfl, stringField_written (s := jobID) rfl,
    stringField_written (s := stage) rfl, decode_number hnumber rfl,
    error_absent rfl]
  rfl

/-- What any of the services writes, the hub can read. -/
theorem decode_message {w : PipelineWorker} {jobID stage : String} {progress : Rat} {v : Json}
    (h : w.message jobID stage progress = some v) :
    ∃ e, decodeJobEvent v = some e ∧ Tells e jobID stage progress := by
  have hcomplete : some (stageComplete jobID stage progress) = some v →
      ∃ e, decodeJobEvent v = some e ∧ Tells e jobID stage progress := by
    intro hv
    obtain rfl := Option.some.inj hv
    exact ⟨_, decode_stageComplete jobID stage progress, rfl, rfl, rfl⟩
  have hupdate : (stageUpdate jobID stage progress).encode = some v →
      ∃ e, decodeJobEvent v = some e ∧ Tells e jobID stage progress :=
    fun hv => ⟨_, decode_stageUpdate hv, rfl, rfl, rfl⟩
  cases w with
  | videoAnalyzer => exact hcomplete h
  | ttsService => exact hcomplete h
  | muxService => exact hupdate h
  | deliveryService => exact hupdate h

/-! ## The channel of a subscription -/

/-- A subscription is asked for with the channel of its job. -/
def Named : Call → Prop
  | .subscribe jobID channel => channel = eventsChannel jobID
  | _ => True

/-- Each subscription has the channel of its job. -/
structure Sound (s : State) : Prop where
  channel : ∀ j ps, s.subs j = some ps → ps.channel = eventsChannel j
  apart : subscriptions.Apart s

theorem channel_update {subs : String → Option PubSub} {jobID : String} {x : Option PubSub}
    (h : ∀ j ps, subs j = some ps → ps.channel = eventsChannel j)
    (hx : ∀ ps, x = some ps → ps.channel = eventsChannel jobID) (j : String) (ps : PubSub)
    (hj : Function.update subs jobID x j = some ps) : ps.channel = eventsChannel j := by
  by_cases hc : j = jobID
  · subst hc
    rw [Function.update_self] at hj
    exact hx ps hj
  · rw [Function.update_of_ne hc] at hj
    exact h j ps hj

theorem sound_answer (s : State) (c : Call) (o : Outcome) (hc : Named c) (h : Sound s) :
    Sound (answerHub o s c).2 := by
  refine ⟨?_, privacy.apart_answer o c h.apart⟩
  cases c with
  | join c => simpa only [answerHub, subscriptions.subs_join] using h.channel
  | leave c => simpa only [answerHub, subscriptions.subs_leave] using h.channel
  | subscribe jobID channel =>
    obtain rfl : channel = eventsChannel jobID := hc
    simp only [answerHub, State.subscribe]
    split
    · exact h.channel
    · exact channel_update h.channel fun ps hps => Option.some.inj hps ▸ rfl
  | cleanupSub jobID =>
    simp only [answerHub, State.cleanupSub]
    split
    · exact h.channel
    · exact channel_update h.channel fun ps hps => absurd hps (by simp)
  | trySend c data =>
    simp only [answerHub, State.trySend]
    split
    · exact h.channel
    · split <;> exact h.channel
  | receive c =>
    simp only [answerHub, State.receive]
    split
    · exact h.channel
    · split
      · exact h.channel
      · split <;> exact h.channel
  | _ => exact h.channel

/-! ## The goroutines name their channels -/

theorem named_of_quiet {α : Type} {p : HubProg α} (hp : p.Only privacy.Quiet fun _ => True) :
    p.Only Named fun _ => True := by
  refine only_mono hp (fun c hc => ?_) fun _ h => h
  cases c with
  | subscribe jobID channel => exact hc.elim
  | _ => trivial

theorem broadcastLoop_named (m : Nat) (first : List Client) (data : String) (n : Nat)
    (visited : List Client) :
    (broadcastLoop m first data n visited).Only Named fun _ => True := by
  induction n generalizing visited with
  | zero => trivial
  | succ n ih =>
    refine ⟨trivial, fun x => ?_⟩
    change Option Client at x
    cases x with
    | none => trivial
    | some c =>
      refine ⟨trivial, fun sent => ?_⟩
      change Bool at sent
      cases sent with
      | true => exact ih (c :: visited)
      | false => exact ⟨trivial, fun _ => ih (c :: visited)⟩

theorem broadcast_named (jobID data : String) (n : Nat) :
    (broadcast jobID data n).Only Named fun _ => True := by
  refine ⟨trivial, fun x => ?_⟩
  change Option Nat at x
  cases x with
  | none => trivial
  | some m => exact ⟨trivial, fun first => broadcastLoop_named m first data n []⟩

/-- What the loop of a subscription does with a message. -/
def round (isEvent : String → Bool) (jobID payload : String) (n : Nat) : HubProg Unit :=
  if isEvent payload then broadcast jobID payload n else pure ()

theorem subscriptionLoop_message (isEvent : String → Bool) (jobID : String) (ps : PubSub)
    (n : Nat) : subscriptionLoop isEvent jobID ps (n + 1) = .call (.receiveEvent ps) fun received =>
      match (received : Received) with
      | .done => .done ()
      | .closed => .done ()
      | .nothing => subscriptionLoop isEvent jobID ps n
      | .message payload =>
        round isEvent jobID payload n >>= fun _ => subscriptionLoop isEvent jobID ps n := by
  rw [subscriptionLoop]
  change Prog.call (Call.receiveEvent ps) _ = _
  refine congrArg (Prog.call (Call.receiveEvent ps)) (funext fun received => ?_)
  change Received at received
  cases received with
  | done => rfl
  | closed => rfl
  | nothing => rfl
  | message payload =>
    change (if isEvent payload then broadcast jobID payload n >>= fun _ => _ else _) =
      (if isEvent payload then broadcast jobID payload n else pure ()) >>= fun _ => _
    split <;> rfl

theorem round_named (isEvent : String → Bool) (jobID payload : String) (n : Nat) :
    (round isEvent jobID payload n).Only Named fun _ => True := by
  unfold round
  split
  · exact broadcast_named jobID payload n
  · trivial

theorem subscriptionLoop_named (isEvent : String → Bool) (jobID : String) (ps : PubSub) (n : Nat) :
    (subscriptionLoop isEvent jobID ps n).Only Named fun _ => True := by
  induction n with
  | zero => trivial
  | succ n ih =>
    rw [subscriptionLoop_message]
    refine ⟨trivial, fun received => ?_⟩
    change Received at received
    cases received with
    | done => trivial
    | closed => trivial
    | nothing => exact ih
    | message payload => exact only_bind (round_named isEvent jobID payload n) fun _ _ => ih

theorem worker_named (isEvent : String → Bool) (n : Nat) :
    (worker isEvent n).Only Named fun _ => True := by
  refine ⟨trivial, fun g => ?_⟩
  change Option Goroutine at g
  cases g with
  | none => trivial
  | some g =>
    cases g with
    | writePump c => exact named_of_quiet (privacy.writePump_quiet c n)
    | readPump c => exact named_of_quiet (privacy.readPump_quiet c n)
    | subscriptionLoop jobID ps => exact subscriptionLoop_named isEvent jobID ps n
    | unregister c => exact named_of_quiet (privacy.unregister_quiet c)

theorem register_named (c : Client) : (register c).Only Named fun _ => True := by
  refine ⟨trivial, fun _ => ⟨rfl, fun ps => ?_⟩⟩
  change Option PubSub at ps
  cases ps with
  | none => trivial
  | some ps => exact ⟨trivial, fun _ => trivial⟩

theorem handleWS_named (jobID : String) : (handleWS jobID).Only Named fun _ => True := by
  unfold handleWS
  split
  · trivial
  · refine ⟨trivial, fun upgraded => ?_⟩
    change Except String Unit at upgraded
    cases upgraded with
    | error e => trivial
    | ok u =>
      refine ⟨trivial, fun c => ?_⟩
      exact only_bind (p := register c) (register_named c)
        fun _ _ => ⟨trivial, fun _ => ⟨trivial, fun _ => trivial⟩⟩

/-- In every run the subscriptions are what they should be. -/
theorem reached_sound (isEvent : String → Bool) (tasks : List Task) (picks : List (Nat × Outcome)) :
    Sound (schedule runtime picks (start isEvent tasks)).shot.state := by
  refine only_schedule (P := Named) (fun s c o => sound_answer s c o) ?_ ?_ picks
  · intro p hp
    obtain ⟨task, -, rfl⟩ := List.mem_map.mp hp
    cases task with
    | handleWS jobID => exact only_bind (handleWS_named jobID) fun _ _ => trivial
    | shutdown => exact named_of_quiet privacy.shutdown_quiet
    | worker n => exact worker_named isEvent n
  · exact ⟨fun _ _ h => (nomatch h), ⟨fun _ _ h => (nomatch h), fun _ _ _ h => (nomatch h)⟩⟩

/-! ## A watching client -/

/-- The client is in the map of the job. -/
structure InMap (jobID : String) (m : Nat) (c : Client) (s : State) : Prop where
  job : s.jobs jobID = some m
  member : c ∈ s.sets m
  below : m < s.nextMap

theorem inMap_join {j : String} {m : Nat} {c : Client} {s : State} (h : InMap j m c s)
    (d : Client) : InMap j m c (s.join d) := by
  unfold State.join
  split
  · rename_i hnone
    have hj : j ≠ d.jobID := by
      rintro rfl
      rw [h.job] at hnone
      cases hnone
    refine ⟨?_, ?_, Nat.lt_succ_of_lt h.below⟩
    · simpa only [Function.update_of_ne hj] using h.job
    · simpa only [Function.update_of_ne (Nat.ne_of_lt h.below)] using h.member
  · rename_i k hk
    refine ⟨h.job, ?_, h.below⟩
    by_cases hm : m = k
    · subst hm
      by_cases hc : c = d
      · simp [hc]
      · simp [h.member, hc]
    · simpa only [Function.update_of_ne hm] using h.member

theorem inMap_leave {j : String} {m : Nat} {c : Client} {s : State} (h : InMap j m c s)
    {d : Client} (hd : d ≠ c) : InMap j m c (s.leave d).2 := by
  unfold State.leave
  split
  · exact h
  · rename_i k hk
    have hmember : c ∈ Function.update s.sets k ((s.sets k).filter (· ≠ d)) m := by
      by_cases hm : m = k
      · subst hm
        simpa using ⟨h.member, Ne.symm hd⟩
      · simpa only [Function.update_of_ne hm] using h.member
    dsimp only
    split
    · -- the map that is gone was empty, so it is another one
      rename_i hempty
      have hm : m ≠ k := by
        rintro rfl
        rw [Function.update_self, List.length_eq_zero_iff.mp hempty] at hmember
        cases hmember
      have hj : j ≠ d.jobID := by
        rintro rfl
        exact hm (Option.some.inj (h.job.symm.trans hk))
      refine ⟨?_, hmember, h.below⟩
      simpa only [Function.update_of_ne hj] using h.job
    · exact ⟨h.job, hmember, h.below⟩

theorem inMap_answer {j : String} {m : Nat} {c : Client} {s : State} (h : InMap j m c s)
    (o : Outcome) {call : Call} (hcall : call ≠ .leave c) : InMap j m c (answerHub o s call).2 := by
  by_cases hjoin : ∃ d, call = .join d
  · obtain ⟨d, rfl⟩ := hjoin
    exact inMap_join h d
  by_cases hleave : ∃ d, call = .leave d
  · obtain ⟨d, rfl⟩ := hleave
    exact inMap_leave h fun hd => hcall (hd ▸ rfl)
  have hm := maps_answer (o := o) (s := s) (fun d he => hjoin ⟨d, he⟩) fun d he => hleave ⟨d, he⟩
  have hnext := privacy.nextMap_answer (o := o) (s := s) fun d he => hjoin ⟨d, he⟩
  exact ⟨hm.1 ▸ h.job, hm.2 ▸ h.member, Nat.lt_of_lt_of_eq h.below hnext.symm⟩

/-- A loop over the map does not end before it visited a client that was there from the start. -/
theorem next_finds {s : State} {m : Nat} {c : Client} {first visited : List Client}
    (hc : c ∈ s.sets m) (hfirst : c ∈ first) (hvisited : c ∉ visited) (wish : Option Client) :
    s.next m first visited wish ≠ none := by
  have hrest : c ∈ (s.sets m).filter (· ∉ visited) := by simpa using ⟨hc, hvisited⟩
  unfold State.next
  dsimp only
  split
  · nofun
  · intro hnone
    have := List.find?_eq_none.mp hnone c hrest
    simp [hfirst] at this

/-! ## The message that is forwarded -/

/-- Nobody takes the client down, and there is room in its channel when the message is sent
to it. -/
def Stays (c : Client) (payload : String) (s : Snap) (_ : Nat) (call : Call) (_ : Outcome) : Prop :=
  call ≠ .leave c ∧ (call = .trySend c payload →
    c ∉ s.state.closings ∧ (s.state.queue c).length < sendCapacity)

def nexts : Event Call Answer → Nat
  | ⟨_, .next _ _ _, _⟩ => 1
  | _ => 0

/-- The goroutine sent the message to the client, or it used up the bound on its rounds. -/
def Forwarded (i : Nat) (c : Client) (payload : String) (n : Nat) (s : Snap) : Prop :=
  (⟨i, .trySend c payload, true⟩ : Event Call Answer) ∈ s.log ∨ n ≤ tally nexts (s.own i)

section Forwarding

variable {jobID : String} {m : Nat} {c : Client} {i : Nat} {payload : String} {n : Nat}

theorem Forwarded.later {s s' : Snap} (h : Forwarded i c payload n s) (hl : Later i s s') :
    Forwarded i c payload n s' :=
  h.imp (fun h => hl.log.subset h) fun h => hl.own ▸ h

theorem Forwarded.after {s : Snap} (h : Forwarded i c payload n s) (call : Call) (o : Outcome) :
    Forwarded i c payload n (s.after runtime i call o) := by
  refine h.imp (fun h => List.mem_cons_of_mem _ h) fun h => ?_
  rw [own_after_self, tally_cons]
  omega

/-- The client stays in the map, and goroutine `i` waits for its next message only after it
forwarded this one. -/
def forwarding (jobID : String) (m : Nat) (c : Client) (i : Nat) (payload : String) (n : Nat) :
    Pact Snap where
  guar j s s' := (InMap jobID m c s.state → InMap jobID m c s'.state) ∧
    ∃ call o, s' = s.after runtime j call o ∧
      (j = i → ∀ ps, call = .receiveEvent ps → Forwarded i c payload n s)
  rely j s s' := Later j s s' ∧ (InMap jobID m c s.state → InMap jobID m c s'.state)
  rely_refl _ _ := ⟨⟨List.suffix_rfl, rfl⟩, id⟩
  rely_trans _ _ _ _ h h' := ⟨⟨h.1.log.trans h'.1.log, h'.1.own.trans h.1.own⟩, h'.2 ∘ h.2⟩
  guar_rely := by
    rintro k j s s' hkj ⟨hmap, call, o, rfl, -⟩
    exact ⟨⟨List.suffix_cons _ _, own_after_ne runtime s (Ne.symm hkj) call o⟩, hmap⟩

/-- The goroutine forwards the message, or it is stopped before. -/
abbrev Forwards (jobID : String) (m : Nat) (c : Client) (i : Nat) (payload : String) (n : Nat)
    (p : HubProg Unit) (s : Snap) : Prop :=
  safe runtime (Stays c payload) (forwarding jobID m c i payload n) i p
    (fun _ s => Forwarded i c payload n s) s

/-- The other goroutines keep the pact, whatever they do. -/
theorem safe_others {j : Nat} (hj : j ≠ i) (p : HubProg Unit) (s : Snap) :
    safe runtime (Stays c payload) (forwarding jobID m c i payload n) j p (fun _ _ => True) s := by
  induction p generalizing s with
  | done a => exact fun _ _ => trivial
  | call call k ih =>
    exact fun s' _ o ho => ⟨⟨fun h => inMap_answer h o ho.1, call, o, rfl,
      fun he => absurd he hj⟩, ih _ _⟩

theorem forwards_ask {call : Call} {k : Answer call → HubProg Unit} {s : Snap}
    (hcall : ∀ ps, call ≠ .receiveEvent ps) (hin : InMap jobID m c s.state)
    (hk : ∀ (s' : Snap) o a, Later i s s' → InMap jobID m c s'.state →
      (answerHub o s'.state call).1 = a → Stays c payload s' i call o →
      InMap jobID m c (s'.after runtime i call o).state →
      Forwards jobID m c i payload n (k a) (s'.after runtime i call o)) :
    Forwards jobID m c i payload n (.call call k) s := by
  intro s' hr o ho
  have hin' := inMap_answer (hr.2 hin) o ho.1
  exact ⟨⟨fun _ => hin', call, o, rfl, fun _ ps hps => absurd hps (hcall ps)⟩,
    hk s' o _ hr.1 (hr.2 hin) rfl ho hin'⟩

/-- Nothing that comes after it takes the message back. -/
theorem forwards_on {p : HubProg Unit} {s : Snap} (h : Forwarded i c payload n s) :
    Forwards jobID m c i payload n p s := by
  induction p generalizing s with
  | done a => exact fun s' hr => h.later hr.1
  | call call k ih =>
    intro s' hr o ho
    have h' := h.later hr.1
    exact ⟨⟨fun hin => inMap_answer hin o ho.1, call, o, rfl, fun _ _ _ => h'⟩,
      ih _ (h'.after call o)⟩

theorem forwards_broadcastLoop {first visited : List Client} (hfirst : c ∈ first)
    (hvisited : c ∉ visited) (k : Nat) {s : Snap} (hin : InMap jobID m c s.state)
    (hn : n ≤ tally nexts (s.own i) + k) :
    Forwards jobID m c i payload n (broadcastLoop m first payload k visited) s := by
  induction k generalizing visited s with
  | zero => exact fun s' hr => Or.inr (hr.1.own ▸ hn)
  | succ k ih =>
    refine forwards_ask (by simp) hin fun s₁ o₁ x h₁ hin₁ hx _ hin₁' => ?_
    have hn₁ : n ≤ tally nexts ((s₁.after runtime i (.next m first visited) o₁).own i) + k := by
      rw [own_after_self, tally_cons, h₁.own]
      simp only [nexts]
      omega
    change Option Client at x
    cases x with
    | none => exact absurd hx (next_finds hin₁.member hfirst hvisited _)
    | some d =>
      refine forwards_ask (by simp) hin₁' fun s₂ o₂ sent h₂ _ hsent hroom hin₂' => ?_
      have hn₂ : n ≤ tally nexts ((s₂.after runtime i (.trySend d payload) o₂).own i) + k := by
        rw [own_after_self, tally_cons, h₂.own]
        omega
      by_cases hd : c = d
      · -- it is the turn of the client, and there is room in its channel
        subst hd
        have htrue : (answerHub o₂ s₂.state (.trySend c payload)).1 = true := by
          simp only [answerHub, State.trySend, if_neg (hroom.2 rfl).1, if_pos (hroom.2 rfl).2]
          rfl
        refine forwards_on (Or.inl ?_)
        rw [Shot.mem_after]
        exact Or.inl (congrArg (Event.mk i (Call.trySend c payload)) htrue).symm
      · have hvisited' : c ∉ d :: visited := by simp [hd, hvisited]
        change Bool at sent
        cases sent with
        | true => exact ih hvisited' hin₂' hn₂
        | false =>
          refine forwards_ask (by simp) hin₂' fun s₃ o₃ _ h₃ _ _ _ hin₃' => ih hvisited' hin₃' ?_
          rw [own_after_self, tally_cons, h₃.own]
          omega

theorem forwards_broadcast {s : Snap} (hin : InMap jobID m c s.state) :
    Forwards jobID m c i payload n (broadcast jobID payload n) s := by
  refine forwards_ask nofun hin fun s₁ o₁ x _ hin₁ hx _ hin₁' => ?_
  obtain rfl : x = some m := hx.symm.trans hin₁.job
  refine forwards_ask nofun hin₁' fun s₂ o₂ first _ hin₂ hfirst _ hin₂' => ?_
  obtain rfl : s₂.state.sets m = first := hfirst
  exact forwards_broadcastLoop hin₂.member (List.not_mem_nil) n hin₂' (Nat.le_add_left _ _)

/-- A subscription that received the message, whatever the other goroutines are and do: when it
waits for the next message, it has forwarded this one. -/
theorem forwarded_at_next {isEvent : String → Bool} {ps : PubSub} {s : State}
    {threads : List (HubProg Unit)} {picks : List (Nat × Outcome)}
    (hin : InMap jobID m c s) (hread : isEvent payload = true)
    (hth : threads[i]? = some (subscriptionLoop isEvent jobID ps (n + 1)))
    (hpicks : Allowed runtime (Stays c payload) picks
      (advance runtime ⟨⟨s, []⟩, threads⟩ (i, { arrived := some payload })))
    {ps' : PubSub} {k : Received → HubProg Unit}
    (hnext : (schedule runtime ((i, { arrived := some payload }) :: picks)
      ⟨⟨s, []⟩, threads⟩).threads[i]? = some (.call (.receiveEvent ps') k)) :
    Forwarded i c payload n (schedule runtime ((i, { arrived := some payload }) :: picks)
      ⟨⟨s, []⟩, threads⟩).shot := by
  have hall : AllSafe runtime (Stays c payload) (forwarding jobID m c i payload n)
      (fun _ _ _ => True)
      (advance runtime ⟨⟨s, []⟩, threads⟩ (i, { arrived := some payload })) := by
    intro j p hp
    by_cases hj : j = i
    · subst hj
      have hlt : j < threads.length := (List.getElem?_eq_some_iff.mp hth).1
      have hanswer : s.receiveEvent ps { arrived := some payload } = .message payload := by
        simp [State.receiveEvent]
      simp only [advance, hth, subscriptionLoop_message, List.getElem?_set_self hlt, runtime,
        answerHub, hanswer, Option.some.injEq] at hp ⊢
      subst hp
      refine safe_mono (safe_bind (safe_mono (?_ : Forwards jobID m c j payload n _ _)
        fun _ _ h => forwards_on h)) fun _ _ _ => trivial
      unfold round
      rw [if_pos hread]
      exact forwards_broadcast hin
    · exact safe_others hj p _
  obtain ⟨hsafe, -⟩ := allSafe_schedule (I := fun _ => True) (fun _ _ _ _ _ => trivial) hall
    trivial hpicks
  obtain ⟨⟨-, call, o, hs, hforwarded⟩, -⟩ := hsafe i _ hnext _
    ((forwarding jobID m c i payload n).rely_refl _ _) {} ⟨by simp, by simp⟩
  have hlog := congrArg Shot.log hs
  unfold Shot.after at hlog
  simp only [List.cons.injEq, Event.mk.injEq] at hlog
  exact hforwarded rfl ps' hlog.1.2.1.symm

end Forwarding

/-! ## The law -/

theorem muxService_channel (jobID : String) :
    PipelineWorker.muxService.channel jobID = eventsChannel jobID := rfl

theorem deliveryService_channel (jobID : String) :
    PipelineWorker.deliveryService.channel jobID = eventsChannel jobID := rfl

/-- The Python services publish to a shorter name. -/
theorem python_channel (jobID : String) : s!"job:{jobID}" ≠ eventsChannel jobID := by
  intro h
  have hlength := congrArg String.length h
  change ("job:" ++ jobID).length = ("job:" ++ jobID ++ ":events").length at hlength
  rw [String.length_append _ ":events"] at hlength
  have : ":events".length = 7 := by decide
  omega

theorem channel_eq_iff (w : PipelineWorker) (jobID : String) :
    w.channel jobID = eventsChannel jobID ↔ w = .muxService ∨ w = .deliveryService := by
  cases w with
  | videoAnalyzer => exact iff_of_false (python_channel jobID) (by decide)
  | ttsService => exact iff_of_false (python_channel jobID) (by decide)
  | muxService => exact iff_of_true (muxService_channel jobID) (by decide)
  | deliveryService => exact iff_of_true (deliveryService_channel jobID) (by decide)

/-- What is published reaches the client: the hub receives it, it decodes to an event that tells
the same, and the goroutine of the subscription forwards it before it waits for the next
message. This holds whatever else runs, as long as the client stays. -/
structure Reaches (parse : String → Option Json) (w : PipelineWorker) (jobID stage : String)
    (progress : Rat) (payload : String) (ps : PubSub) (c : Client) (s : State) : Prop where
  received : ps ∈ s.openSubs ∧ w.channel jobID = ps.channel
  decodes : ∃ e, (parse payload).bind decodeJobEvent = some e ∧ Tells e jobID stage progress
  forwarded : ∀ (n i : Nat) (threads : List (HubProg Unit)) (picks : List (Nat × Outcome)),
    threads[i]? = some (subscriptionLoop (isEvent parse) jobID ps (n + 1)) →
    Allowed runtime (Stays c payload) picks
      (advance runtime ⟨⟨s, []⟩, threads⟩ (i, { arrived := some payload })) →
    ∀ ps' k, (schedule runtime ((i, { arrived := some payload }) :: picks)
        ⟨⟨s, []⟩, threads⟩).threads[i]? = some (.call (.receiveEvent ps') k) →
      Forwarded i c payload n (schedule runtime ((i, { arrived := some payload }) :: picks)
        ⟨⟨s, []⟩, threads⟩).shot

/-- Job `j` is watched and subscribed. -/
def watchedJob (parse : String → Option Json) : State :=
  (schedule runtime (List.replicate 7 (0, {})) (start (isEvent parse) [.handleWS "j"])).shot.state

def muxedText : String :=
  "\x7b\"event\":\"stage_update\",\"job_id\":\"j\",\"stage\":\"muxed\",\"progress\":1\x7d"

def synthesizedText : String :=
  "\x7b\"event\": \"stage_complete\", \"job_id\": \"j\", " ++
    "\"stage\": \"synthesized\", \"progress\": 0.8\x7d"

/-- JSON, as far as these two texts go. -/
def parseEvent (t : String) : Option Json :=
  if t = muxedText then PipelineWorker.muxService.message "j" "muxed" 1
  else if t = synthesizedText then PipelineWorker.ttsService.message "j" "synthesized" (4 / 5)
  else none

end recast_rules.hub.events
