-- The websocket of the page of a job (`connectJobWS` in `web/src/lib/ws.ts`). It is opened again
-- with a growing delay, at most five times, until the job is completed or failed or the page
-- cleans up.
import Mathlib.Algebra.Ring.Nat
import Mathlib.Data.List.Count
import Mathlib.Data.List.Induction
import RecastAi.EventMachines

open event_machines

namespace recast_rules.job_socket

/-! ## The client -/

inductive ReadyState where
  | connecting | open | closing | closed
deriving DecidableEq, Repr

structure Socket where
  url : String
  state : ReadyState
deriving DecidableEq, Repr

/-- A timer that has not expired, with the delay in milliseconds that it was set to. -/
structure Timer where
  id : Nat
  delay : Nat
deriving DecidableEq, Repr

/-- The field `stage` of an event. `other` is a value that counts as true and is no text. -/
inductive StageField where
  | absent
  | text (stage : String)
  | other
deriving DecidableEq, Repr

def StageField.truthy : StageField → Bool
  | .absent => false
  | .text stage => stage ≠ ""
  | .other => true

/-- The variables of one call of `connectJobWS`, and the sockets and timers that it made. `ws` is a
place among the sockets. -/
structure Client where
  url : String
  sockets : List Socket
  ws : Option Nat
  attempt : Nat
  closed : Bool
  timers : List Timer
  nextTimer : Nat
  reconnectTimer : Option Nat
  lastStage : StageField
deriving DecidableEq, Repr

def maxAttempts : Nat := 5

/-- `TERMINAL.has(stage)`. -/
def terminal (stage : StageField) : Bool := stage = .text "completed" || stage = .text "failed"

/-- `JSON.parse` of a message throws, or reading the stage of its result does, or there is an
event. -/
inductive Data where
  | unreadable
  | event (stage : StageField)

/-- A callback that the page gave. It may call the cleanup, and it may throw. -/
structure Callback where
  cleansUp : Bool
  throws : Bool

def Client.setReady (s : Client) (k : Nat) (f : ReadyState → ReadyState) : Client :=
  { s with sockets := s.sockets.modify k fun x => { x with state := f x.state } }

/-- `open`. -/
def Client.openSocket (s : Client) : Client :=
  if s.closed then s
  else { s with sockets := s.sockets ++ [⟨s.url, .connecting⟩], ws := some s.sockets.length }

def socketURL (base jobID : String) (token : Option String) : String :=
  let query := match token with
    | some t => if t = "" then "" else s!"?token={t}"
    | none => ""
  s!"{base}/ws/jobs/{jobID}{query}"

def connectJobWS (base jobID : String) (token : Option String) : Client :=
  ({ url := socketURL base jobID token
     sockets := []
     ws := none
     attempt := 0
     closed := false
     timers := []
     nextTimer := 1
     reconnectTimer := none
     lastStage := .text "" } : Client).openSocket

/-- `ws.close()` of a socket that is open or connecting. -/
def ReadyState.close : ReadyState → ReadyState
  | .open => .closing
  | .connecting => .closing
  | state => state

/-- A timer that has expired is no more there to be cleared. -/
def clearTimeout (timer : Option Nat) (timers : List Timer) : List Timer :=
  match timer with
  | some t => timers.filter (·.id ≠ t)
  | none => timers

/-- The function that `connectJobWS` returns. -/
def Client.cleanup (s : Client) : Client :=
  let s := { s with closed := true, timers := clearTimeout s.reconnectTimer s.timers }
  match s.ws with
  | some k => s.setReady k .close
  | none => s

def Client.call (s : Client) (f : Callback) : Client := if f.cleansUp then s.cleanup else s

/-- An exception of the callback is caught. -/
def Client.onMessage (s : Client) (data : Data) (onEvent : Callback) : Client :=
  match data with
  | .unreadable => s
  | .event stage => { s with lastStage := if stage.truthy then stage else s.lastStage }.call onEvent

def Client.onClose (s : Client) (onClose onReconnect : Callback) : Client :=
  let s := s.call onClose
  if onClose.throws || s.closed || terminal s.lastStage || s.attempt ≥ maxAttempts then s
  else
    let s := { s with attempt := s.attempt + 1 }.call onReconnect
    if onReconnect.throws then s
    else
      { s with
        timers := s.timers ++ [⟨s.nextTimer, min 30000 (500 * 2 ^ (s.attempt - 1))⟩]
        reconnectTimer := some s.nextTimer
        nextTimer := s.nextTimer + 1 }

/-- The sockets share their handlers, so it is no matter which one has a message or an error. -/
inductive Event where
  | opened (k : Nat)
  | message (data : Data) (onEvent : Callback)
  | error (onError : Callback)
  | closed (k : Nat) (onClose onReconnect : Callback)
  | expired (i : Nat)
  | cleanup

/-- A socket closes once, and a timer expires once. -/
def Client.step (s : Client) : Event → Client
  | .opened k => s.setReady k fun state => if state = .connecting then .open else state
  | .message data onEvent => s.onMessage data onEvent
  | .error onError => s.call onError
  | .closed k onClose onReconnect =>
    match s.sockets[k]? with
    | none => s
    | some socket =>
      if socket.state = .closed then s
      else (s.setReady k fun _ => .closed).onClose onClose onReconnect
  | .expired i =>
    match s.timers[i]? with
    | none => s
    | some _ => { s with timers := s.timers.eraseIdx i }.openSocket
  | .cleanup => s.cleanup

/-- The sockets that have not closed. -/
def Client.live (s : Client) : Nat := s.sockets.countP (·.state ≠ .closed)

/-- The stage that a message brings. -/
def Event.stage : Event → Option StageField
  | .message (.event stage) _ => if stage.truthy then some stage else none
  | _ => none

/-- The last stage that was received. -/
def lastReceived (events : List Event) : StageField :=
  (events.filterMap Event.stage).getLast?.getD (.text "")

/-! ## Calls that open nothing -/

section Calm

variable {s s' : Client}

/-- Nothing was opened or closed, no timer was set, and what was cleaned up stays so. -/
structure Calm (s s' : Client) : Prop where
  live : s'.live = s.live
  sockets : s'.sockets.length = s.sockets.length
  timers : s'.timers.length ≤ s.timers.length
  attempt : s'.attempt = s.attempt
  closed : s.closed = true → s'.closed = true

theorem Calm.refl (s : Client) : Calm s s := ⟨rfl, rfl, Nat.le_refl _, rfl, fun h => h⟩

theorem Calm.trans {s'' : Client} (h : Calm s s') (h' : Calm s' s'') : Calm s s'' where
  live := h'.live.trans h.live
  sockets := h'.sockets.trans h.sockets
  timers := Nat.le_trans h'.timers h.timers
  attempt := h'.attempt.trans h.attempt
  closed := fun hc => h'.closed (h.closed hc)

theorem live_modify (sockets : List Socket) (k : Nat) {f : ReadyState → ReadyState}
    (hf : ∀ state, f state = .closed ↔ state = .closed) :
    (sockets.modify k fun x => { x with state := f x.state }).countP (·.state ≠ .closed) =
      sockets.countP (·.state ≠ .closed) := by
  induction sockets generalizing k with
  | nil => cases k <;> rfl
  | cons x sockets ih =>
    cases k with
    | zero => simp [List.countP_cons, hf]
    | succ k =>
      simp only [List.modify_succ_cons, List.countP_cons]
      rw [ih k]

/-- A closed socket is one less that is live. -/
theorem live_modify_closed {sockets : List Socket} {k : Nat} {socket : Socket}
    (hk : sockets[k]? = some socket) (hlive : socket.state ≠ .closed) :
    (sockets.modify k fun x => { x with state := .closed }).countP (·.state ≠ .closed) + 1 =
      sockets.countP (·.state ≠ .closed) := by
  induction sockets generalizing k with
  | nil => cases hk
  | cons x sockets ih =>
    cases k with
    | zero =>
      obtain rfl : x = socket := Option.some.inj hk
      simp [hlive]
    | succ k =>
      have := ih hk
      simp only [List.modify_succ_cons, List.countP_cons]
      omega

theorem setReady_calm (s : Client) (k : Nat) {f : ReadyState → ReadyState}
    (hf : ∀ state, f state = .closed ↔ state = .closed) : Calm s (s.setReady k f) where
  live := live_modify s.sockets k hf
  sockets := List.length_modify ..
  timers := Nat.le_refl _
  attempt := rfl
  closed := fun h => h

theorem opened_calm (s : Client) (k : Nat) : Calm s (s.step (.opened k)) := by
  change Calm s (s.setReady k fun state => if state = .connecting then .open else state)
  refine setReady_calm s k ?_
  intro state
  cases state <;> simp

theorem clearTimeout_le (timer : Option Nat) (timers : List Timer) :
    (clearTimeout timer timers).length ≤ timers.length := by
  cases timer with
  | none => exact Nat.le_refl _
  | some t => exact List.length_filter_le ..

theorem cleanup_calm (s : Client) : Calm s s.cleanup := by
  have hcleared : Calm s
      { s with closed := true, timers := clearTimeout s.reconnectTimer s.timers } :=
    ⟨rfl, rfl, clearTimeout_le _ _, rfl, fun _ => rfl⟩
  unfold Client.cleanup
  dsimp only
  split
  · refine hcleared.trans (setReady_calm _ _ ?_)
    intro state
    cases state <;> simp [ReadyState.close]
  · exact hcleared

theorem cleanup_closed (s : Client) : s.cleanup.closed = true := by
  unfold Client.cleanup
  dsimp only
  split <;> rfl

theorem call_calm (s : Client) (f : Callback) : Calm s (s.call f) := by
  unfold Client.call
  split
  · exact cleanup_calm s
  · exact .refl s

theorem onMessage_calm (s : Client) (data : Data) (onEvent : Callback) :
    Calm s (s.onMessage data onEvent) := by
  cases data with
  | unreadable => exact .refl s
  | event stage =>
    have hstage : Calm s { s with lastStage := if stage.truthy then stage else s.lastStage } :=
      ⟨rfl, rfl, Nat.le_refl _, rfl, fun h => h⟩
    exact hstage.trans (call_calm _ onEvent)

end Calm

/-! ## One socket or one timer -/

/-- What the client may have, in every state. Each timer has an attempt of its own, and so has each
socket after the first one. -/
structure Sound (s : Client) : Prop where
  one : s.live + s.timers.length ≤ 1
  few : s.sockets.length + s.timers.length ≤ s.attempt + 1
  attempt : s.attempt ≤ maxAttempts

section Sound

variable {s s' : Client}

theorem Sound.calm (h : Sound s) (hcalm : Calm s s') : Sound s' where
  one := by
    have := h.one
    have := hcalm.timers
    rw [hcalm.live]
    omega
  few := by
    have := h.few
    have := hcalm.timers
    rw [hcalm.sockets, hcalm.attempt]
    omega
  attempt := hcalm.attempt ▸ h.attempt

/-- A socket is opened in the place of a timer. -/
theorem sound_openSocket (hone : s.live = 0) (htimers : s.timers = [])
    (hfew : s.sockets.length ≤ s.attempt) (hattempt : s.attempt ≤ maxAttempts) :
    Sound s.openSocket := by
  unfold Client.openSocket
  split
  · exact ⟨by simp [hone, htimers], by simp only [htimers, List.length_nil]; omega, hattempt⟩
  · refine ⟨?_, ?_, hattempt⟩
    · simp only [Client.live, List.countP_append, htimers]
      change s.live + 1 + 0 ≤ 1
      omega
    · simp only [List.length_append, List.length_singleton, htimers, List.length_nil]
      omega

/-- A timer is set in the place of a socket that closed. -/
theorem sound_onClose (onClose onReconnect : Callback) (h : Sound s) (hone : s.live = 0)
    (htimers : s.timers = []) : Sound (s.onClose onClose onReconnect) := by
  have hcalm := call_calm s onClose
  have h₁ := h.calm hcalm
  unfold Client.onClose
  generalize s.call onClose = s₁ at hcalm h₁
  have hlive₁ : s₁.live = 0 := hcalm.live.trans hone
  have htimers₁ : s₁.timers.length = 0 := by
    have := hcalm.timers
    rw [htimers] at this
    exact Nat.le_zero.mp this
  dsimp only
  split
  · exact h₁
  · rename_i hgoes
    have hattempt : s₁.attempt + 1 ≤ maxAttempts := by
      simp only [Bool.or_eq_true, decide_eq_true_eq, not_or] at hgoes
      omega
    have hcalm₂ := call_calm { s₁ with attempt := s₁.attempt + 1 } onReconnect
    have hfew := h₁.few
    have hlive₂ := hcalm₂.live
    have hsockets₂ := hcalm₂.sockets
    have htimers₂ := hcalm₂.timers
    have hattempt₂ := hcalm₂.attempt
    generalize Client.call _ onReconnect = s₂ at *
    change s₂.live = s₁.live at hlive₂
    change s₂.sockets.length = s₁.sockets.length at hsockets₂
    change s₂.timers.length ≤ s₁.timers.length at htimers₂
    change s₂.attempt = s₁.attempt + 1 at hattempt₂
    split
    · exact ⟨by omega, by omega, by omega⟩
    · refine ⟨?_, ?_, ?_⟩
      · change s₂.live + (s₂.timers ++ _).length ≤ 1
        simp only [List.length_append, List.length_singleton]
        omega
      · change s₂.sockets.length + (s₂.timers ++ _).length ≤ s₂.attempt + 1
        simp only [List.length_append, List.length_singleton]
        omega
      · change s₂.attempt ≤ maxAttempts
        omega

/-- After a close there is neither a live socket nor a timer. -/
theorem sound_closing (h : Sound s) {k : Nat} {socket : Socket} (hk : s.sockets[k]? = some socket)
    (hlive : socket.state ≠ .closed) :
    Sound (s.setReady k fun _ => .closed) ∧ (s.setReady k fun _ => .closed).live = 0 ∧
      s.timers = [] := by
  have hless : (s.setReady k fun _ => .closed).live + 1 = s.live := live_modify_closed hk hlive
  have hsockets : (s.setReady k fun _ => .closed).sockets.length = s.sockets.length :=
    List.length_modify ..
  have hone := h.one
  have hfew := h.few
  have htimers : s.timers = [] := List.length_eq_zero_iff.mp (by omega)
  refine ⟨⟨?_, ?_, h.attempt⟩, by omega, htimers⟩
  · change (s.setReady k fun _ => .closed).live + s.timers.length ≤ 1
    omega
  · change (s.setReady k fun _ => .closed).sockets.length + s.timers.length ≤ s.attempt + 1
    omega

theorem sound_step (s : Client) (e : Event) (h : Sound s) : Sound (s.step e) := by
  cases e with
  | opened k => exact h.calm (opened_calm s k)
  | message data onEvent => exact h.calm (onMessage_calm s data onEvent)
  | error onError => exact h.calm (call_calm s onError)
  | closed k onClose onReconnect =>
    unfold Client.step
    dsimp only
    split
    · exact h
    · rename_i socket hk
      split
      · exact h
      · rename_i hlive
        obtain ⟨hsound, hone, htimers⟩ := sound_closing h hk hlive
        exact sound_onClose onClose onReconnect hsound hone htimers
  | expired i =>
    unfold Client.step
    dsimp only
    split
    · exact h
    · rename_i timer hi
      obtain ⟨hlt, -⟩ := List.getElem?_eq_some_iff.mp hi
      have hone := h.one
      have hfew := h.few
      have herase : (s.timers.eraseIdx i).length = s.timers.length - 1 :=
        List.length_eraseIdx_of_lt hlt
      have hnone : s.timers.eraseIdx i = [] := List.length_eq_zero_iff.mp (by rw [herase]; omega)
      exact sound_openSocket (by change s.live = 0; omega) hnone
        (by change s.sockets.length ≤ s.attempt; omega) h.attempt
  | cleanup => exact h.calm (cleanup_calm s)

/-! ## The end of a client -/

/-- There is no socket left to close, and no timer. -/
structure Dead (s : Client) : Prop where
  live : s.live = 0
  timers : s.timers = []

theorem Dead.calm (h : Dead s) (hcalm : Calm s s') : Dead s' where
  live := hcalm.live.trans h.live
  timers := by
    have := hcalm.timers
    rw [h.timers] at this
    exact List.length_eq_zero_iff.mp (Nat.le_zero.mp this)

/-- A client that cleaned up stays so, and opens no socket. -/
structure Shut (s s' : Client) : Prop where
  closed : s'.closed = true
  sockets : s'.sockets.length = s.sockets.length

theorem Calm.shut (h : Calm s s') (hclosed : s.closed = true) : Shut s s' :=
  ⟨h.closed hclosed, h.sockets⟩

theorem openSocket_closed (h : s.closed = true) : s.openSocket = s := by
  unfold Client.openSocket
  rw [if_pos h]

theorem onClose_closed (onClose onReconnect : Callback) (h : s.closed = true) :
    s.onClose onClose onReconnect = s.call onClose := by
  have hclosed := (call_calm s onClose).closed h
  unfold Client.onClose
  dsimp only
  rw [if_pos (by simp [hclosed])]

theorem shut_step (s : Client) (e : Event) (h : s.closed = true) : Shut s (s.step e) := by
  cases e with
  | opened k => exact (opened_calm s k).shut h
  | message data onEvent => exact (onMessage_calm s data onEvent).shut h
  | error onError => exact (call_calm s onError).shut h
  | closed k onClose onReconnect =>
    unfold Client.step
    dsimp only
    split
    · exact (Calm.refl s).shut h
    · split
      · exact (Calm.refl s).shut h
      · have hready : Shut s (s.setReady k fun _ => .closed) := ⟨h, List.length_modify ..⟩
        rw [onClose_closed onClose onReconnect hready.closed]
        have hcall := (call_calm (s.setReady k fun _ => .closed) onClose).shut hready.closed
        exact ⟨hcall.closed, hcall.sockets.trans hready.sockets⟩
  | expired i =>
    unfold Client.step
    dsimp only
    split
    · exact (Calm.refl s).shut h
    · have hclosed : ({ s with timers := s.timers.eraseIdx i } : Client).closed = true := h
      rw [openSocket_closed hclosed]
      exact ⟨h, rfl⟩
  | cleanup => exact (cleanup_calm s).shut h

/-- Nothing comes of a dead client. -/
theorem dead_step (s : Client) (e : Event) (h : Dead s) : Calm s (s.step e) := by
  cases e with
  | opened k => exact opened_calm s k
  | message data onEvent => exact onMessage_calm s data onEvent
  | error onError => exact call_calm s onError
  | closed k onClose onReconnect =>
    unfold Client.step
    dsimp only
    split
    · exact .refl s
    · rename_i socket hk
      have hclosed : socket.state = .closed := by
        have := List.countP_eq_zero.mp h.live socket (List.mem_of_getElem? hk)
        simpa using this
      rw [if_pos hclosed]
      exact .refl s
  | expired i =>
    unfold Client.step
    rw [h.timers]
    exact .refl s
  | cleanup => exact cleanup_calm s

theorem lastStage_cleanup (s : Client) : s.cleanup.lastStage = s.lastStage := by
  unfold Client.cleanup
  dsimp only
  split <;> rfl

theorem lastStage_call (s : Client) (f : Callback) : (s.call f).lastStage = s.lastStage := by
  unfold Client.call
  split
  · exact lastStage_cleanup s
  · rfl

theorem onClose_terminal (onClose onReconnect : Callback) (h : terminal s.lastStage = true) :
    s.onClose onClose onReconnect = s.call onClose := by
  have hstage : terminal (s.call onClose).lastStage = true := (lastStage_call s onClose).symm ▸ h
  unfold Client.onClose
  dsimp only
  rw [if_pos (by simp [hstage])]

/-- A socket that closes at a terminal stage is the last one. -/
theorem dead_of_terminal_close (onClose onReconnect : Callback) (h : Sound s) {k : Nat}
    {socket : Socket} (hk : s.sockets[k]? = some socket) (hlive : socket.state ≠ .closed)
    (hterminal : terminal s.lastStage = true) :
    Dead (s.step (.closed k onClose onReconnect)) ∧
      (s.step (.closed k onClose onReconnect)).sockets.length = s.sockets.length := by
  obtain ⟨-, hone, htimers⟩ := sound_closing h hk hlive
  have hcall := call_calm (s.setReady k fun _ => .closed) onClose
  have hstep : s.step (.closed k onClose onReconnect) =
      (s.setReady k fun _ => .closed).call onClose := by
    unfold Client.step
    simp only [hk, if_neg hlive]
    exact onClose_terminal onClose onReconnect hterminal
  rw [hstep]
  exact ⟨Dead.calm ⟨hone, htimers⟩ hcall, hcall.sockets.trans (List.length_modify ..)⟩

theorem shut_run (h : s.closed = true) (later : List Event) :
    (run Client.step s later).sockets.length = s.sockets.length := by
  have hstep : ∀ s' e, Shut s s' → Shut s (s'.step e) := by
    intro s' e h'
    have hnext := shut_step s' e h'.closed
    exact ⟨hnext.closed, hnext.sockets.trans h'.sockets⟩
  exact (run_keeps hstep ⟨h, rfl⟩ later).sockets

theorem dead_run (h : Dead s) (later : List Event) :
    (run Client.step s later).sockets.length = s.sockets.length := by
  have hstep : ∀ s' e, Calm s s' → Calm s (s'.step e) :=
    fun s' e h' => h'.trans (dead_step s' e (h.calm h'))
  exact (run_keeps hstep (.refl s) later).sockets

theorem closed_of_cleanup {events : List Event} (h : Event.cleanup ∈ events) :
    (run Client.step s events).closed = true := by
  obtain ⟨before, after, rfl⟩ := List.append_of_mem h
  rw [run_append]
  have hstep : ∀ (s' : Client) e, s'.closed = true → (s'.step e).closed = true :=
    fun s' e h' => (shut_step s' e h').closed
  exact run_keeps hstep (cleanup_closed (run Client.step s before)) after

end Sound

/-! ## The last stage -/

theorem lastStage_openSocket (s : Client) : s.openSocket.lastStage = s.lastStage := by
  unfold Client.openSocket
  split <;> rfl

theorem lastStage_onClose (s : Client) (onClose onReconnect : Callback) :
    (s.onClose onClose onReconnect).lastStage = s.lastStage := by
  unfold Client.onClose
  dsimp only
  split
  · exact lastStage_call s onClose
  · have hstage := (lastStage_call { s.call onClose with attempt := (s.call onClose).attempt + 1 }
      onReconnect).trans (lastStage_call s onClose)
    split <;> exact hstage

theorem lastReceived_concat (events : List Event) (e : Event) :
    lastReceived (events ++ [e]) = e.stage.getD (lastReceived events) := by
  unfold lastReceived
  rw [List.filterMap_append]
  cases hstage : e.stage <;> simp [hstage]

theorem lastStage_step (s : Client) (e : Event) :
    (s.step e).lastStage = e.stage.getD s.lastStage := by
  cases e with
  | opened k => rfl
  | message data onEvent =>
    cases data with
    | unreadable => rfl
    | event stage =>
      refine (lastStage_call _ onEvent).trans ?_
      unfold Event.stage
      dsimp only
      split <;> rfl
  | error onError => exact lastStage_call s onError
  | closed k onClose onReconnect =>
    unfold Client.step
    dsimp only
    split
    · rfl
    · split
      · rfl
      · exact lastStage_onClose _ onClose onReconnect
  | expired i =>
    unfold Client.step
    dsimp only
    split
    · rfl
    · exact lastStage_openSocket _
  | cleanup => exact lastStage_cleanup s

section Claim

variable (base jobID : String) (token : Option String)

theorem lastStage_run (events : List Event) :
    (run Client.step (connectJobWS base jobID token) events).lastStage = lastReceived events := by
  induction events using List.reverseRecOn with
  | nil =>
    change (connectJobWS base jobID token).lastStage = .text ""
    unfold connectJobWS
    exact lastStage_openSocket _
  | append_singleton events e ih =>
    rw [run_append, lastReceived_concat, ← ih]
    exact lastStage_step _ e

/-! ## The law -/

theorem sound_connectJobWS : Sound (connectJobWS base jobID token) := by
  unfold connectJobWS
  exact sound_openSocket rfl rfl (Nat.le_refl _) (Nat.zero_le _)

theorem sound_run (events : List Event) :
    Sound (run Client.step (connectJobWS base jobID token) events) :=
  run_keeps sound_step (sound_connectJobWS base jobID token) events

/-- In every order of events there is at most one of a live socket and a timer, there are at most
six sockets, and none comes after a cleanup or after a close at a terminal stage. -/
theorem job_socket_reconnects_safely (events : List Event) :
    let s := run Client.step (connectJobWS base jobID token) events
    s.live + s.timers.length ≤ 1 ∧ s.sockets.length ≤ 6 ∧
      (Event.cleanup ∈ events ∨ s.closed = true →
        ∀ later, (run Client.step s later).sockets.length = s.sockets.length) ∧
      ∀ k socket onClose onReconnect, s.sockets[k]? = some socket → socket.state ≠ .closed →
        terminal (lastReceived events) = true → ∀ later,
          (run Client.step s (.closed k onClose onReconnect :: later)).sockets.length =
            s.sockets.length := by
  intro s
  have hsound : Sound s := sound_run base jobID token events
  refine ⟨hsound.one, ?_, ?_, ?_⟩
  · have hfew := hsound.few
    have hattempt : s.attempt ≤ 5 := hsound.attempt
    omega
  · rintro (hcleanup | hclosed) later
    · exact shut_run (closed_of_cleanup hcleanup) later
    · exact shut_run hclosed later
  · intro k socket onClose onReconnect hk hlive hterminal later
    have hlast : s.lastStage = lastReceived events := lastStage_run base jobID token events
    obtain ⟨hdead, hsockets⟩ := dead_of_terminal_close onClose onReconnect hsound hk hlive
      (hlast ▸ hterminal)
    exact (dead_run hdead later).trans hsockets

end Claim

/-- After a completed job a close is the end, whatever comes later. -/
theorem a_completed_job_opens_no_socket :
    (run Client.step (run Client.step (connectJobWS "ws://localhost:8080/v1" "j" none)
        [.opened 0, .message (.event (.text "completed")) ⟨false, false⟩])
      [.closed 0 ⟨false, false⟩ ⟨false, false⟩, .expired 0]).sockets.length = 1 :=
  (job_socket_reconnects_safely "ws://localhost:8080/v1" "j" none
    [.opened 0, .message (.event (.text "completed")) ⟨false, false⟩]).2.2.2 0
    ⟨"ws://localhost:8080/v1/ws/jobs/j", .open⟩ ⟨false, false⟩ ⟨false, false⟩ (by decide)
    (by decide) (by decide) [.expired 0]

/-- The sixth socket is reached, when each socket closes and each timer expires. -/
example : (run Client.step (connectJobWS "ws://localhost:8080/v1" "j" none)
    ((List.range 8).flatMap fun k =>
      [.closed k ⟨false, false⟩ ⟨false, false⟩, .expired 0])).sockets.length = 6 := by
  decide

end recast_rules.job_socket
