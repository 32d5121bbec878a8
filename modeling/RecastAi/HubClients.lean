-- The life of a websocket client. Both pumps of a client, a broadcast and a
-- shutdown may each close its channel, and nothing makes them agree. The
-- channel is closed once where only one of them takes the client down, and no
-- broadcast is left with a client that is closed under it.
import RecastAi.Hub

open call_programs

namespace recast_rules.hub

/-! ## What the log tells of a client -/

def creates (c : Client) : Event Call Answer → Nat
  | ⟨_, .newClient _, d⟩ => List.count (α := Client) c [d]
  | _ => 0

def joins (c : Client) : Event Call Answer → Nat
  | ⟨_, .join d, _⟩ => [d].count c
  | _ => 0

def leaves (c : Client) : Event Call Answer → Nat
  | ⟨_, .leave d, _⟩ => [d].count c
  | _ => 0

/-- A shutdown listed the client among those that it closes. -/
def lists (c : Client) : Event Call Answer → Nat
  | ⟨_, .listClients, clients⟩ => List.count (α := Client) c clients
  | _ => 0

def closes (c : Client) : Event Call Answer → Nat
  | ⟨_, .closeSend d, _⟩ => [d].count c
  | _ => 0

/-- The goroutine that was answered this will close the client's channel. -/
def takesDown (c : Client) (e : Event Call Answer) : Nat := leaves c e + lists c e

def picks (c : Client) : Event Call Answer → Bool
  | ⟨_, .next _ _ _, d⟩ => Option.any (α := Client) (· = c) d
  | _ => false

/-- Thread `i` moved on to the client in the loop of a broadcast, and did nothing since. -/
def Picked (s : Snap) (i : Nat) (c : Client) : Prop := (s.own i).head?.any (picks c) = true

/-- Only a thread that did something can stand before a send. -/
instance (s : Snap) (c : Client) : Decidable (∀ i, ¬Picked s i c) :=
  decidable_of_iff (∀ e ∈ s.log, ¬(s.own e.thread).head?.any (picks c) = true) <| by
    refine ⟨fun h i hp => ?_, fun h e _ => h e.thread⟩
    unfold Picked at hp
    cases hown : s.own i with
    | nil => simp [hown] at hp
    | cons e rest =>
      obtain ⟨he, rfl⟩ := mem_own.mp (hown ▸ List.mem_cons_self : e ∈ s.own i)
      exact h e he hp

/-! ## The goroutines -/

inductive Task where
  | handleWS (jobID : String)
  | shutdown
  | worker (rounds : Nat)

def Task.prog (isEvent : String → Bool) : Task → HubProg Unit
  | .handleWS jobID => hub.handleWS jobID >>= fun _ => pure ()
  | .shutdown => hub.shutdown
  | .worker rounds => hub.worker isEvent rounds

/-- The requests, the shutdowns and the goroutines of the hub, at their start. -/
def start (isEvent : String → Bool) (tasks : List Task) : Config Call Answer State Unit :=
  ⟨⟨newHub, []⟩, tasks.map (Task.prog isEvent)⟩

/-- A client joins once for each time it was made, its channel is closed by a goroutine that
took it down, once for each time, and a broadcast sends to the client it moved on to. -/
def Due (s : Snap) (i : Nat) : Call → Prop
  | .join c => tally (joins c) (s.own i) < tally (creates c) (s.own i)
  | .closeSend c => tally (closes c) (s.own i) < tally (takesDown c) (s.own i)
  | .trySend c _ => Picked s i c
  | _ => True

/-- What one thread was answered is in balance. -/
structure Even (s : Snap) (i : Nat) : Prop where
  joined : ∀ c, tally (joins c) (s.own i) ≤ tally (creates c) (s.own i)
  closed : ∀ c, tally (closes c) (s.own i) ≤ tally (takesDown c) (s.own i)

theorem Even.later {s s' : Snap} {i : Nat} (h : Even s i) (hl : Later i s s') : Even s' i :=
  ⟨fun c => hl.own ▸ h.joined c, fun c => hl.own ▸ h.closed c⟩

theorem Even.after {s : Snap} {i : Nat} {c : Call} {o : Outcome} (h : Even s i)
    (hd : Due s i c) : Even (s.after runtime i c o) i := by
  constructor <;> intro d <;> simp only [own_after_self, tally_cons]
  · have hold := h.joined d
    cases c with
    | join c =>
      simp only [Due] at hd
      simp only [joins, creates, List.count_singleton, beq_iff_eq]
      by_cases hcd : c = d
      · subst hcd
        rw [if_pos rfl]
        omega
      · rw [if_neg hcd]
        omega
    | newClient j => exact Nat.le_trans (by simpa [joins] using hold) (Nat.le_add_left _ _)
    | _ => simpa only [joins, creates, Nat.zero_add] using hold
  · have hold := h.closed d
    cases c with
    | closeSend c =>
      simp only [Due] at hd
      simp only [closes, takesDown, leaves, lists, List.count_singleton, beq_iff_eq]
      by_cases hcd : c = d
      · subst hcd
        rw [if_pos rfl]
        omega
      · rw [if_neg hcd]
        omega
    | leave c => exact Nat.le_trans (by simpa [closes] using hold) (Nat.le_add_left _ _)
    | listClients => exact Nat.le_trans (by simpa [closes] using hold) (Nat.le_add_left _ _)
    | _ => simpa only [closes, takesDown, leaves, lists, Nat.zero_add] using hold

section Programs

variable {E : Snap → Nat → Call → Outcome → Prop} {i : Nat}

/-- One call that is due, and the rest of the program. -/
theorem safe_call {α : Type} {c : Call} {k : Answer c → HubProg α} {Q : α → Snap → Prop}
    {s : Snap} (h : Even s i) (hd : ∀ s', Later i s s' → Due s' i c)
    (hk : ∀ (s' : Snap) o, Later i s s' → Even (s'.after runtime i c o) i →
      safe runtime E (dues runtime E Due) i (k (answerHub o s'.state c).1) Q
        (s'.after runtime i c o)) :
    safe runtime E (dues runtime E Due) i (.call c k) Q s :=
  safe_due hd fun s' o hl _ => hk s' o hl ((h.later hl).after (hd s' hl))

/-- The same for a call that is always due. -/
theorem safe_plain {α : Type} {c : Call} {k : Answer c → HubProg α} {Q : α → Snap → Prop}
    {s : Snap} (h : Even s i) (hd : ∀ s' : Snap, Due s' i c)
    (hk : ∀ (s' : Snap) o, Even (s'.after runtime i c o) i →
      safe runtime E (dues runtime E Due) i (k (answerHub o s'.state c).1) Q
        (s'.after runtime i c o)) :
    safe runtime E (dues runtime E Due) i (.call c k) Q s :=
  safe_call h (fun s' _ => hd s') fun s' o _ => hk s' o

theorem safe_end {s : Snap} (h : Even s i) :
    safe runtime E (dues runtime E Due) i (.done ()) (fun _ s => Even s i) s :=
  fun _ hl => h.later hl

theorem safe_unregister (c : Client) {s : Snap} (h : Even s i) :
    safe runtime E (dues runtime E Due) i (unregister c) (fun _ s => Even s i) s := by
  refine safe_call h (fun _ _ => trivial) fun s₁ o₁ h₁ he => ?_
  -- the leave is answered, so one closing is due
  have hdue : tally (closes c) ((s₁.after runtime i (.leave c) o₁).own i) <
      tally (takesDown c) ((s₁.after runtime i (.leave c) o₁).own i) := by
    have := (h.later h₁).closed c
    rw [own_after_self, tally_cons, tally_cons]
    simp only [closes, takesDown, leaves, lists, List.count_singleton_self]
    omega
  refine safe_call he (fun s' h' => by simpa only [Due, h'.own] using hdue) fun s₂ o₂ _ he₂ => ?_
  refine safe_plain he₂ (fun _ => trivial) fun s₃ o₃ h₃ => ?_
  have hlast : ∀ emptied : Bool, safe runtime E (dues runtime E Due) i
      (if emptied then ask (.cleanupSub c.jobID) else pure ()) (fun _ s => Even s i)
      (s₃.after runtime i (.closeConn c) o₃) := by
    intro emptied
    cases emptied
    · exact safe_end h₃
    · exact safe_plain h₃ (fun _ => trivial) fun s₄ o₄ h₄ => safe_end h₄
  exact hlast _

theorem safe_broadcastLoop (m : Nat) (first : List Client) (data : String) (n : Nat)
    (visited : List Client) {s : Snap} (h : Even s i) :
    safe runtime E (dues runtime E Due) i (broadcastLoop m first data n visited)
      (fun _ s => Even s i) s := by
  induction n generalizing visited s with
  | zero => exact safe_end h
  | succ n ih =>
    refine safe_call h (fun _ _ => trivial) fun s₁ o₁ _ he => ?_
    have hown := own_after_self runtime s₁ i (.next m first visited) o₁
    revert he hown
    generalize s₁.after runtime i (.next m first visited) o₁ = t
    simp only [runtime]
    generalize (answerHub o₁ s₁.state (.next m first visited)).1 = x
    intro he hown
    cases (x : Option Client) with
    | none => exact safe_end he
    | some c =>
      have hpick : ∀ s', Later i t s' → Picked s' i c := by
        intro s' h'
        unfold Picked
        rw [h'.own, hown]
        simp [picks]
      refine safe_call he hpick fun s₂ o₂ _ he₂ => ?_
      generalize (answerHub o₂ s₂.state (.trySend c data)).1 = sent
      cases (sent : Bool) with
      | true => exact ih _ he₂
      | false => exact safe_plain he₂ (fun _ => trivial) fun s₃ o₃ h₃ => ih _ h₃

theorem safe_broadcast (jobID data : String) (n : Nat) {s : Snap} (h : Even s i) :
    safe runtime E (dues runtime E Due) i (broadcast jobID data n) (fun _ s => Even s i) s := by
  refine safe_plain h (fun _ => trivial) fun s₁ o₁ h₁ => ?_
  generalize (answerHub o₁ s₁.state (.clientsOf jobID)).1 = clients
  cases (clients : Option Nat) with
  | none => exact safe_end h₁
  | some m =>
    exact safe_plain h₁ (fun _ => trivial) fun _ _ h₂ => safe_broadcastLoop m _ data n [] h₂

theorem safe_subscriptionLoop (isEvent : String → Bool) (jobID : String) (ps : PubSub) (n : Nat)
    {s : Snap} (h : Even s i) :
    safe runtime E (dues runtime E Due) i (subscriptionLoop isEvent jobID ps n)
      (fun _ s => Even s i) s := by
  induction n generalizing s with
  | zero => exact safe_end h
  | succ n ih =>
    refine safe_plain h (fun _ => trivial) fun s₁ o₁ h₁ => ?_
    generalize (answerHub o₁ s₁.state (.receiveEvent ps)).1 = received
    cases (received : Received) with
    | done => exact safe_end h₁
    | closed => exact safe_end h₁
    | nothing => exact ih h₁
    | message payload =>
      have hstep : ∀ valid : Bool, safe runtime E (dues runtime E Due) i
          (if valid then broadcast jobID payload n >>= fun _ => subscriptionLoop isEvent jobID ps n
            else subscriptionLoop isEvent jobID ps n) (fun _ s => Even s i)
          (s₁.after runtime i (.receiveEvent ps) o₁) := by
        intro valid
        cases valid
        · exact ih h₁
        · exact safe_bind (safe_mono (safe_broadcast jobID payload n h₁) fun _ _ h₂ => ih h₂)
      exact hstep (isEvent payload)

theorem safe_readPump (c : Client) (n : Nat) {s : Snap} (h : Even s i) :
    safe runtime E (dues runtime E Due) i (readPump c n) (fun _ s => Even s i) s := by
  induction n generalizing s with
  | zero => exact safe_end h
  | succ n ih =>
    refine safe_plain h (fun _ => trivial) fun s₁ o₁ h₁ => ?_
    generalize (answerHub o₁ s₁.state (.readMessage c)).1 = read
    cases (read : Except String Unit) with
    | error e => exact safe_unregister c h₁
    | ok u => exact ih h₁

theorem safe_writePump (c : Client) (n : Nat) {s : Snap} (h : Even s i) :
    safe runtime E (dues runtime E Due) i (writePump c n) (fun _ s => Even s i) s := by
  induction n generalizing s with
  | zero => exact safe_end h
  | succ n ih =>
    have hwrite : ∀ (data : Option String) {k : Except String Unit → HubProg Unit},
        (∀ e, k (.error e) = unregister c) → k (.ok ()) = writePump c n → ∀ {t : Snap}, Even t i →
        safe runtime E (dues runtime E Due) i (.call (.writeMessage c data) k)
          (fun _ s => Even s i) t := by
      intro data k herror hok t ht
      refine safe_plain ht (fun _ => trivial) fun s₂ o₂ h₂ => ?_
      generalize (answerHub o₂ s₂.state (.writeMessage c data)).1 = written
      cases (written : Except String Unit) with
      | error e => exact (herror e).symm ▸ safe_unregister c h₂
      | ok u => exact hok.symm ▸ ih h₂
    refine safe_plain h (fun _ => trivial) fun s₁ o₁ h₁ => ?_
    generalize (answerHub o₁ s₁.state (.receive c)).1 = selected
    cases (selected : Selected) with
    | closed => exact safe_plain h₁ (fun _ => trivial) fun _ _ h₂ => safe_unregister c h₂
    | message data => exact hwrite (some data) (fun _ => rfl) rfl h₁
    | tick => exact hwrite none (fun _ => rfl) rfl h₁

theorem safe_goroutine (isEvent : String → Bool) (n : Nat) (g : Goroutine) {s : Snap}
    (h : Even s i) :
    safe runtime E (dues runtime E Due) i (g.prog isEvent n) (fun _ s => Even s i) s := by
  cases g with
  | writePump c => exact safe_writePump c n h
  | readPump c => exact safe_readPump c n h
  | subscriptionLoop jobID ps => exact safe_subscriptionLoop isEvent jobID ps n h
  | unregister c => exact safe_unregister c h

theorem safe_worker (isEvent : String → Bool) (n : Nat) {s : Snap} (h : Even s i) :
    safe runtime E (dues runtime E Due) i (worker isEvent n) (fun _ s => Even s i) s := by
  refine safe_plain h (fun _ => trivial) fun s₁ o₁ h₁ => ?_
  generalize (answerHub o₁ s₁.state .start).1 = g
  cases (g : Option Goroutine) with
  | none => exact safe_end h₁
  | some g => exact safe_goroutine isEvent n g h₁

/-- A client that was made once more than it joined joins. -/
theorem safe_register (c : Client) {s : Snap} (h : Even s i)
    (hdue : tally (joins c) (s.own i) < tally (creates c) (s.own i)) :
    safe runtime E (dues runtime E Due) i (register c) (fun _ s => Even s i) s := by
  refine safe_call h (fun s' h' => by simpa only [Due, h'.own] using hdue) fun s₁ o₁ _ he => ?_
  refine safe_plain he (fun _ => trivial) fun s₂ o₂ h₂ => ?_
  generalize (answerHub o₂ s₂.state (.subscribe c.jobID (eventsChannel c.jobID))).1 = ps
  cases (ps : Option PubSub) with
  | none => exact safe_end h₂
  | some ps => exact safe_plain h₂ (fun _ => trivial) fun _ _ h₃ => safe_end h₃

theorem safe_handleWS (jobID : String) {s : Snap} (h : Even s i) :
    safe runtime E (dues runtime E Due) i (handleWS jobID) (fun _ s => Even s i) s := by
  unfold handleWS
  split
  · exact fun _ hl => h.later hl
  · refine safe_plain h (fun _ => trivial) fun s₁ o₁ h₁ => ?_
    generalize (answerHub o₁ s₁.state .upgrade).1 = upgraded
    cases (upgraded : Except String Unit) with
    | error e => exact fun _ hl => h₁.later hl
    | ok u =>
      refine safe_call h₁ (fun _ _ => trivial) fun s₂ o₂ hl₂ h₂ => ?_
      -- the client is made here, and it has not joined more often than it was made before
      have hdue := (h₁.later hl₂).joined ⟨s₂.state.nextClient, jobID⟩
      refine safe_bind (p := register ⟨s₂.state.nextClient, jobID⟩)
        (safe_mono (safe_register _ h₂ ?_) fun _ t h₃ => ?_)
      · have hmade : creates ⟨s₂.state.nextClient, jobID⟩ ⟨i, .newClient jobID,
            (runtime.answer o₂ s₂.state (.newClient jobID)).1⟩ = 1 := List.count_singleton_self
        rw [own_after_self, tally_cons, tally_cons, hmade]
        simp only [joins]
        omega
      · refine safe_plain h₃ (fun _ => trivial) fun _ _ h₄ => ?_
        exact safe_plain h₄ (fun _ => trivial) fun _ _ h₅ => fun _ hl => h₅.later hl

/-- The closing loop of a shutdown. It closes each client as often as it listed it. -/
theorem safe_closeClients (clients : List Client) {s : Snap}
    (hj : ∀ c, tally (joins c) (s.own i) ≤ tally (creates c) (s.own i))
    (h : ∀ c, clients.count c + tally (closes c) (s.own i) ≤ tally (takesDown c) (s.own i)) :
    safe runtime E (dues runtime E Due) i (closeClients clients) (fun _ s => Even s i) s := by
  induction clients generalizing s with
  | nil => exact safe_end ⟨hj, fun c => by simpa using h c⟩
  | cons c cs ih =>
    refine safe_due (fun s' h' => ?_) fun s₁ o₁ h₁ _ => safe_due (fun _ _ => trivial)
      fun s₂ o₂ h₂ _ => ih (fun d => ?_) fun d => ?_
    · have := h c
      simp only [List.count_cons_self] at this
      simp only [Due, h'.own]
      omega
    · simpa only [own_after_self, h₂.own, h₁.own, tally_cons, joins, creates, Nat.zero_add]
        using hj d
    · have := h d
      simp only [own_after_self, h₂.own, h₁.own, tally_cons, closes, takesDown, leaves, lists,
        List.count_nil, List.count_cons] at this ⊢
      omega

theorem safe_shutdown {s : Snap} (h : Even s i) :
    safe runtime E (dues runtime E Due) i shutdown (fun _ s => Even s i) s := by
  refine safe_plain h (fun _ => trivial) fun _ _ h₁ => ?_
  refine safe_plain h₁ (fun _ => trivial) fun _ _ h₂ => ?_
  refine safe_plain h₂ (fun _ => trivial) fun _ _ h₃ => ?_
  refine safe_due (fun _ _ => trivial) fun s₄ o₄ hl₄ _ => ?_
  have h₄ := h₃.later hl₄
  refine safe_bind (p := closeClients (s₄.state.listClients o₄.rank))
    (safe_mono (safe_closeClients _ (fun c => ?_) fun c => ?_) fun _ _ h₅ =>
    safe_plain (c := .unlock) h₅ (fun _ => trivial) fun _ _ h₆ => safe_end h₆)
  · simpa only [own_after_self, tally_cons, joins, creates, Nat.zero_add] using h₄.joined c
  · have := h₄.closed c
    simp only [own_after_self, tally_cons, closes, takesDown, leaves, lists, Nat.zero_add]
    exact Nat.add_le_add_left this _

theorem all_even (isEvent : String → Bool) (tasks : List Task) :
    AllSafe runtime E (dues runtime E Due) (fun i _ s => Even s i) (start isEvent tasks) := by
  have h0 : ∀ i, Even ⟨newHub, []⟩ i := fun _ => ⟨fun _ => Nat.le_refl _, fun _ => Nat.le_refl _⟩
  intro i p hp
  simp only [start, List.getElem?_map, Option.map_eq_some_iff] at hp
  obtain ⟨task, -, rfl⟩ := hp
  cases task with
  | handleWS jobID =>
    exact safe_bind (safe_mono (safe_handleWS jobID (h0 i)) fun _ _ h => safe_end h)
  | shutdown => exact safe_shutdown (h0 i)
  | worker n => exact safe_worker isEvent n (h0 i)

end Programs

/-! ## What one call changes -/

section Frames

variable {o : Outcome} {s : State} {c : Call}

/-- What the clients' laws read beside the maps. -/
structure SameEnds (s t : State) : Prop where
  nextClient : t.nextClient = s.nextClient
  closings : t.closings = s.closings
  lateSends : t.lateSends = s.lateSends
  panicked : t.panicked = s.panicked

structure SameClients (s t : State) : Prop extends SameEnds s t where
  jobs : t.jobs = s.jobs
  sets : t.sets = s.sets

theorem same_join (s : State) (c : Client) : SameEnds s (s.join c) := by
  unfold State.join
  split <;> exact ⟨rfl, rfl, rfl, rfl⟩

theorem same_leave (s : State) (c : Client) : SameEnds s (s.leave c).2 := by
  unfold State.leave
  split
  · exact ⟨rfl, rfl, rfl, rfl⟩
  · dsimp only
    split <;> exact ⟨rfl, rfl, rfl, rfl⟩

theorem trySend_keeps (s : State) (c : Client) (data : String) :
    (s.trySend c data).2.jobs = s.jobs ∧ (s.trySend c data).2.sets = s.sets ∧
      (s.trySend c data).2.nextClient = s.nextClient ∧
      (s.trySend c data).2.closings = s.closings := by
  unfold State.trySend
  split
  · exact ⟨rfl, rfl, rfl, rfl⟩
  · split <;> exact ⟨rfl, rfl, rfl, rfl⟩

/-- The calls that change nothing the laws read. -/
def Call.aside : Call → Bool
  | .newClient _ => false
  | .join _ => false
  | .leave _ => false
  | .closeSend _ => false
  | .trySend _ _ => false
  | _ => true

theorem same_answer (hc : c.aside = true) : SameClients s (answerHub o s c).2 := by
  cases c with
  | newClient j => cases hc
  | join d => cases hc
  | leave d => cases hc
  | closeSend d => cases hc
  | trySend d data => cases hc
  | subscribe jobID channel =>
    simp only [answerHub, State.subscribe]
    split <;> exact ⟨⟨rfl, rfl, rfl, rfl⟩, rfl, rfl⟩
  | cleanupSub jobID =>
    simp only [answerHub, State.cleanupSub]
    split <;> exact ⟨⟨rfl, rfl, rfl, rfl⟩, rfl, rfl⟩
  | receive d =>
    simp only [answerHub, State.receive]
    split
    · exact ⟨⟨rfl, rfl, rfl, rfl⟩, rfl, rfl⟩
    · split
      · exact ⟨⟨rfl, rfl, rfl, rfl⟩, rfl, rfl⟩
      · split <;> exact ⟨⟨rfl, rfl, rfl, rfl⟩, rfl, rfl⟩
  | _ => exact ⟨⟨rfl, rfl, rfl, rfl⟩, rfl, rfl⟩

theorem maps_answer (hj : ∀ d, c ≠ .join d) (hl : ∀ d, c ≠ .leave d) :
    (answerHub o s c).2.jobs = s.jobs ∧ (answerHub o s c).2.sets = s.sets := by
  cases c with
  | join d => exact absurd rfl (hj d)
  | leave d => exact absurd rfl (hl d)
  | newClient j => exact ⟨rfl, rfl⟩
  | closeSend d => exact ⟨rfl, rfl⟩
  | trySend d data => exact ⟨(trySend_keeps s d data).1, (trySend_keeps s d data).2.1⟩
  | _ => exact ⟨(same_answer rfl).jobs, (same_answer rfl).sets⟩

theorem nextClient_answer (hn : ∀ j, c ≠ .newClient j) :
    (answerHub o s c).2.nextClient = s.nextClient := by
  cases c with
  | newClient j => exact absurd rfl (hn j)
  | join d => exact (same_join s d).nextClient
  | leave d => exact (same_leave s d).nextClient
  | closeSend d => rfl
  | trySend d data => exact (trySend_keeps s d data).2.2.1
  | _ => exact (same_answer rfl).nextClient

theorem closings_answer (hc : ∀ d, c ≠ .closeSend d) :
    (answerHub o s c).2.closings = s.closings := by
  cases c with
  | newClient j => rfl
  | join d => exact (same_join s d).closings
  | leave d => exact (same_leave s d).closings
  | closeSend d => exact absurd rfl (hc d)
  | trySend d data => exact (trySend_keeps s d data).2.2.2
  | _ => exact (same_answer rfl).closings

/-- Only a close of a closed channel and a send on one panic. -/
theorem panics_answer (hc : ∀ d, c = .closeSend d → d ∉ s.closings)
    (hs : ∀ d data, c = .trySend d data → d ∉ s.closings) :
    (answerHub o s c).2.lateSends = s.lateSends ∧ (answerHub o s c).2.panicked = s.panicked := by
  cases c with
  | newClient j => exact ⟨rfl, rfl⟩
  | join d => exact ⟨(same_join s d).lateSends, (same_join s d).panicked⟩
  | leave d => exact ⟨(same_leave s d).lateSends, (same_leave s d).panicked⟩
  | closeSend d =>
    have hd := hc d rfl
    simp [answerHub, State.closeSend, hd]
  | trySend d data =>
    simp only [answerHub, State.trySend, hs d data rfl, if_false]
    split <;> exact ⟨rfl, rfl⟩
  | _ => exact ⟨(same_answer rfl).lateSends, (same_answer rfl).panicked⟩

end Frames

/-! ## The maps -/

/-- Each client is in one map at most, and that is the map of its job. -/
structure Placed (s : State) : Prop where
  map : ∀ m c, c ∈ s.sets m → s.jobs c.jobID = some m
  nodup : ∀ m, (s.sets m).Nodup

theorem placed_join {s : State} (h : Placed s) (c : Client) : Placed (s.join c) := by
  unfold State.join
  split
  · -- the job gets its first map
    rename_i hnone
    constructor
    · intro m d hd
      by_cases hm : m = s.nextMap
      · subst hm
        simp only [Function.update_self, List.mem_singleton] at hd
        simp [hd]
      · simp only [Function.update_of_ne hm] at hd
        have hjob : d.jobID ≠ c.jobID := by
          intro he
          have := h.map m d hd
          rw [he, hnone] at this
          cases this
        simpa only [Function.update_of_ne hjob] using h.map m d hd
    · intro m
      by_cases hm : m = s.nextMap
      · subst hm
        simp
      · simpa only [Function.update_of_ne hm] using h.nodup m
  · rename_i k hk
    constructor
    · intro m d hd
      by_cases hm : m = k
      · subst hm
        simp only [Function.update_self, List.mem_cons] at hd
        rcases hd with rfl | hd
        · exact hk
        · exact h.map m d (List.mem_of_mem_filter hd)
      · simp only [Function.update_of_ne hm] at hd
        exact h.map m d hd
    · intro m
      by_cases hm : m = k
      · subst hm
        simp only [Function.update_self, List.nodup_cons]
        exact ⟨by simp, (h.nodup m).filter _⟩
      · simpa only [Function.update_of_ne hm] using h.nodup m

/-- A client of a map after somebody left was there before, and did not leave. -/
theorem mem_leave {s : State} (h : Placed s) {c d : Client} {m : Nat}
    (hd : d ∈ (s.leave c).2.sets m) : d ∈ s.sets m ∧ d ≠ c := by
  unfold State.leave at hd
  split at hd
  · rename_i hnone
    refine ⟨hd, ?_⟩
    rintro rfl
    have := h.map m d hd
    rw [hnone] at this
    cases this
  · rename_i k hk
    have hsets : d ∈ Function.update s.sets k ((s.sets k).filter (· ≠ c)) m := by
      dsimp only at hd
      split at hd <;> exact hd
    by_cases hm : m = k
    · subst hm
      simpa using hsets
    · simp only [Function.update_of_ne hm] at hsets
      refine ⟨hsets, ?_⟩
      rintro rfl
      have := h.map m d hsets
      rw [hk] at this
      exact hm (Option.some.inj this).symm

theorem placed_leave {s : State} (h : Placed s) (c : Client) : Placed (s.leave c).2 := by
  have hsub : ∀ m, ((s.leave c).2.sets m).Sublist (s.sets m) := by
    intro m
    unfold State.leave
    split
    · exact List.Sublist.refl _
    · rename_i k hk
      dsimp only
      have hfilter : (Function.update s.sets k ((s.sets k).filter (· ≠ c)) m).Sublist
          (s.sets m) := by
        by_cases hm : m = k
        · subst hm
          simp only [Function.update_self]
          exact List.filter_sublist
        · simp only [Function.update_of_ne hm]
          exact List.Sublist.refl _
      split <;> exact hfilter
  constructor
  · intro m d hd
    have hold := h.map m d (hsub m |>.subset hd)
    unfold State.leave at hd ⊢
    split
    · exact hold
    · rename_i k hk
      simp only [hk] at hd ⊢
      split at hd
      · -- the map is empty now, so it is not the map of a client that is left
        rename_i hempty
        rw [if_pos hempty]
        have hm : m ≠ k := by
          rintro rfl
          simp only [Function.update_self] at hd
          rw [List.length_eq_zero_iff.mp hempty] at hd
          cases hd
        have hjob : d.jobID ≠ c.jobID := by
          intro he
          rw [he, hk] at hold
          exact hm (Option.some.inj hold).symm
        simpa only [Function.update_of_ne hjob] using hold
      · rename_i hsome
        rw [if_neg hsome]
        exact hold
  · exact fun m => (h.nodup m).sublist (hsub m)

theorem mem_join {s : State} {c d : Client} {m : Nat} (hd : d ∈ (s.join c).sets m) :
    d = c ∨ d ∈ s.sets m := by
  unfold State.join at hd
  split at hd
  · by_cases hm : m = s.nextMap
    · subst hm
      simp only [Function.update_self, List.mem_singleton] at hd
      exact Or.inl hd
    · simp only [Function.update_of_ne hm] at hd
      exact Or.inr hd
  · rename_i k hk
    by_cases hm : m = k
    · subst hm
      simp only [Function.update_self, List.mem_cons] at hd
      exact hd.imp id List.mem_of_mem_filter
    · simp only [Function.update_of_ne hm] at hd
      exact Or.inr hd

theorem mem_listClients {s : State} {rank : Client → Nat} {c : Client}
    (h : c ∈ s.listClients rank) : ∃ m, c ∈ s.sets m := by
  unfold State.listClients at h
  rw [List.mem_insertionSort, List.mem_flatMap] at h
  obtain ⟨m, -, hm⟩ := h
  exact ⟨m, hm⟩

theorem nodup_listClients {s : State} (h : Placed s) (rank : Client → Nat) :
    (s.listClients rank).Nodup := by
  unfold State.listClients
  rw [(List.perm_insertionSort _ _).nodup_iff, List.nodup_flatMap]
  refine ⟨fun m _ => h.nodup m, List.nodup_range.imp ?_⟩
  intro m k hmk c hm hk
  have := (h.map m c hm).symm.trans (h.map k c hk)
  exact hmk (Option.some.inj this)

theorem mem_clientsOf {s : State} {c : Client} (h : c ∈ s.clientsOf c.jobID) :
    ∃ m, c ∈ s.sets m := by
  unfold State.clientsOf at h
  split at h
  · cases h
  · exact ⟨_, h⟩

/-! ## The invariant -/

/-- The condition on the order of the steps. A goroutine takes a client down only while the
client is in the map of its job and no shutdown has listed it; a channel is closed only while
no broadcast stands before its send to it; a shutdown lists only clients that none has listed;
and a broadcast moves on to no client whose channel is closed. -/
def InTurn (s : Snap) (_ : Nat) : Call → Outcome → Prop
  | .leave c, _ => c ∈ s.state.clientsOf c.jobID ∧ tally (lists c) s.log = 0
  | .closeSend c, _ => ∀ i, ¬Picked s i c
  | .listClients, o => ∀ c ∈ s.state.listClients o.rank, tally (lists c) s.log = 0
  | .next m first visited, o => ∀ c ∈ s.state.next m first visited o.client,
      c ∉ s.state.closings
  | _, _ => True

instance (s : Snap) (i : Nat) : (c : Call) → (o : Outcome) → Decidable (InTurn s i c o)
  | .leave c, _ => inferInstanceAs
    (Decidable (c ∈ s.state.clientsOf c.jobID ∧ tally (lists c) s.log = 0))
  | .closeSend c, _ => inferInstanceAs (Decidable (∀ i, ¬Picked s i c))
  | .listClients, o => inferInstanceAs
    (Decidable (∀ c ∈ s.state.listClients o.rank, tally (lists c) s.log = 0))
  | .next m first visited, o => inferInstanceAs
    (Decidable (∀ c ∈ s.state.next m first visited o.client, c ∉ s.state.closings))
  | .upgrade, _ | .newClient _, _ | .join _, _ | .subscribe _ _, _ | .closeConn _, _
  | .cleanupSub _, _ | .go _, _ | .start, _ | .receiveEvent _, _ | .clientsOf _, _
  | .range _, _ | .trySend _ _, _ | .receive _, _ | .writeMessage _ _, _ | .readMessage _, _
  | .cancel, _ | .closeSubs, _ | .lock, _ | .unlock, _ => isTrue trivial

structure Good (s : Snap) : Prop where
  placed : Placed s.state
  even : ∀ i, Even s i
  fresh : ∀ c, s.state.nextClient ≤ c.id → tally (creates c) s.log = 0
  made_once : ∀ c, tally (creates c) s.log ≤ 1
  member : ∀ m c, c ∈ s.state.sets m → 0 < tally (joins c) s.log ∧ tally (leaves c) s.log = 0
  left : ∀ c, 0 < tally (leaves c) s.log → 0 < tally (joins c) s.log
  down_once : ∀ c, tally (takesDown c) s.log ≤ 1
  closings : ∀ c, s.state.closings.count c = tally (closes c) s.log
  picked : ∀ i c, Picked s i c → c ∉ s.state.closings
  sound : s.state.lateSends = [] ∧ s.state.panicked = false

theorem tally_takesDown (c : Client) (log : List (Event Call Answer)) :
    tally (takesDown c) log = tally (leaves c) log + tally (lists c) log := by
  induction log with
  | nil => rfl
  | cons e log ih =>
    simp only [tally_cons, ih, takesDown]
    omega

theorem placed_step {s : State} (h : Placed s) (o : Outcome) (c : Call) :
    Placed (answerHub o s c).2 := by
  by_cases hj : ∃ d, c = .join d
  · obtain ⟨d, rfl⟩ := hj
    exact placed_join h d
  by_cases hl : ∃ d, c = .leave d
  · obtain ⟨d, rfl⟩ := hl
    exact placed_leave h d
  have hm := maps_answer (o := o) (s := s) (fun d he => hj ⟨d, he⟩) (fun d he => hl ⟨d, he⟩)
  exact ⟨by simpa only [hm.1, hm.2] using h.map, by simpa only [hm.2] using h.nodup⟩

theorem even_step {s : Snap} {i : Nat} {c : Call} {o : Outcome} (hd : Due s i c)
    (h : ∀ j, Even s j) (j : Nat) : Even (s.after runtime i c o) j := by
  by_cases hj : i = j
  · exact hj ▸ (h i).after hd
  · constructor <;> intro d <;> rw [own_after_ne runtime s hj]
    · exact (h j).joined d
    · exact (h j).closed d

section Step

variable {s : Snap} {i : Nat} {c : Call} {o : Outcome}

/-- A client is made at its own number, and the numbers are not given twice. -/
theorem fresh_step (h : Good s) (d : Client)
    (hd : (s.after runtime i c o).state.nextClient ≤ d.id) :
    tally (creates d) (s.after runtime i c o).log = 0 := by
  simp only [Shot.after, tally_cons, runtime] at hd ⊢
  cases c with
  | newClient j =>
    simp only [answerHub] at hd
    have hne : (⟨s.state.nextClient, j⟩ : Client) ≠ d := by
      rintro rfl
      simp only at hd
      omega
    have hold := h.fresh d (by omega)
    simp [creates, answerHub, hne, hold]
  | _ =>
    rw [nextClient_answer (by simp)] at hd
    simpa only [creates, Nat.zero_add] using h.fresh d hd

theorem made_once_step (h : Good s) (d : Client) :
    tally (creates d) (s.after runtime i c o).log ≤ 1 := by
  simp only [Shot.after, tally_cons, runtime]
  cases c with
  | newClient j =>
    by_cases hne : (⟨s.state.nextClient, j⟩ : Client) = d
    · have hold := h.fresh d (by rw [← hne])
      simp [creates, answerHub, hne, hold]
    · have hold := h.made_once d
      simp [creates, answerHub, hne, hold]
  | _ => simpa only [creates, Nat.zero_add] using h.made_once d

/-- A client that was made once joins once. -/
theorem joins_le {s : Snap} (he : ∀ j, Even s j) (hm : ∀ d, tally (creates d) s.log ≤ 1)
    (d : Client) : tally (joins d) s.log ≤ 1 :=
  (tally_le_of_own fun j => (he j).joined d).trans (hm d)

theorem closes_le {s : Snap} (he : ∀ j, Even s j) (hm : ∀ d, tally (takesDown d) s.log ≤ 1)
    (d : Client) : tally (closes d) s.log ≤ 1 :=
  (tally_le_of_own fun j => (he j).closed d).trans (hm d)

theorem left_step (hE : InTurn s i c o) (h : Good s) (d : Client)
    (hd : 0 < tally (leaves d) (s.after runtime i c o).log) :
    0 < tally (joins d) (s.after runtime i c o).log := by
  simp only [Shot.after, tally_cons] at hd ⊢
  cases c with
  | leave c =>
    by_cases hc : c = d
    · subst hc
      obtain ⟨m, hm⟩ := mem_clientsOf hE.1
      exact Nat.lt_of_lt_of_le (h.member m c hm).1 (Nat.le_add_left _ _)
    · simp only [leaves, joins, List.count_singleton, beq_iff_eq, hc, if_false, Nat.zero_add] at hd ⊢
      exact h.left d hd
  | join c =>
    simp only [leaves, Nat.zero_add] at hd
    exact Nat.lt_of_lt_of_le (h.left d hd) (Nat.le_add_left _ _)
  | _ =>
    simp only [leaves, joins, Nat.zero_add] at hd ⊢
    exact h.left d hd

theorem member_step (hd : Due s i c) (h : Good s) (m : Nat) (d : Client)
    (hm : d ∈ (s.after runtime i c o).state.sets m) :
    0 < tally (joins d) (s.after runtime i c o).log ∧
      tally (leaves d) (s.after runtime i c o).log = 0 := by
  have hjoins := joins_le (fun j => even_step (o := o) hd h.even j) (made_once_step h) d
  simp only [Shot.after, tally_cons, runtime] at hm hjoins ⊢
  cases c with
  | join c =>
    simp only [joins, leaves, Nat.zero_add] at hjoins ⊢
    rcases mem_join hm with rfl | hm
    · -- it joins only now, so it cannot have left before
      simp only [List.count_singleton_self] at hjoins ⊢
      refine ⟨by omega, ?_⟩
      by_contra hleft
      have := h.left d (Nat.pos_of_ne_zero hleft)
      omega
    · have hold := h.member m d hm
      exact ⟨Nat.lt_of_lt_of_le hold.1 (Nat.le_add_left _ _), hold.2⟩
  | leave c =>
    obtain ⟨hm, hne⟩ := mem_leave h.placed hm
    simpa [joins, leaves, Ne.symm hne] using h.member m d hm
  | _ =>
    rw [(maps_answer (by simp) (by simp)).2] at hm
    simpa only [joins, leaves, Nat.zero_add] using h.member m d hm

/-- A client is taken down once: by the one goroutine that found it in its map, or by the one
shutdown that listed it. -/
theorem down_once_step (hE : InTurn s i c o) (h : Good s) (d : Client) :
    tally (takesDown d) (s.after runtime i c o).log ≤ 1 := by
  simp only [Shot.after, tally_cons, runtime]
  have hold := h.down_once d
  cases c with
  | leave c =>
    simp only [takesDown, leaves, lists, List.count_singleton, beq_iff_eq, Nat.add_zero]
    by_cases hc : c = d
    · subst hc
      obtain ⟨m, hm⟩ := mem_clientsOf hE.1
      have hleft := (h.member m c hm).2
      have hlist : tally (lists c) s.log = 0 := hE.2
      rw [if_pos rfl, tally_takesDown]
      omega
    · rw [if_neg hc, Nat.zero_add]
      exact hold
  | listClients =>
    simp only [answerHub, takesDown, leaves, lists, Nat.zero_add]
    by_cases hd : d ∈ s.state.listClients o.rank
    · obtain ⟨m, hm⟩ := mem_listClients hd
      have hleft := (h.member m d hm).2
      have hlist : tally (lists d) s.log = 0 := hE d hd
      have hone : (s.state.listClients o.rank).count d ≤ 1 :=
        List.nodup_iff_count_le_one.mp (nodup_listClients h.placed _) d
      rw [tally_takesDown]
      omega
    · rw [List.count_eq_zero.mpr hd, Nat.zero_add]
      exact hold
  | _ => simpa only [takesDown, leaves, lists, Nat.zero_add] using hold

theorem closings_step (h : Good s) (d : Client) :
    (s.after runtime i c o).state.closings.count d =
      tally (closes d) (s.after runtime i c o).log := by
  simp only [Shot.after, tally_cons, runtime]
  cases c with
  | closeSend c =>
    simp only [answerHub, State.closeSend, closes, List.count_cons, List.count_nil, h.closings d]
    omega
  | _ =>
    rw [closings_answer (by simp)]
    simpa only [closes, Nat.zero_add] using h.closings d

/-- The channel that a goroutine closes was open. -/
theorem closed_before (hd : Due s i (.closeSend d)) (hE : InTurn s i (.closeSend d) o)
    (h : Good s) : d ∉ s.state.closings := by
  have hle := closes_le (fun j => even_step (o := o) hd h.even j) (down_once_step hE h) d
  simp only [Shot.after, tally_cons, closes, List.count_singleton_self] at hle
  rw [← List.count_eq_zero, h.closings d]
  omega

theorem picked_step (hE : InTurn s i c o) (h : Good s) (j : Nat) (d : Client)
    (hp : Picked (s.after runtime i c o) j d) : d ∉ (s.after runtime i c o).state.closings := by
  have hclose : ∀ e, c = .closeSend e → e ≠ d := by
    rintro e rfl rfl
    refine hE j ?_
    unfold Picked at hp ⊢
    by_cases hj : i = j
    · subst hj
      rw [own_after_self] at hp
      exact nomatch (show false = true from hp)
    · rwa [own_after_ne runtime s hj] at hp
  have hold : d ∉ s.state.closings := by
    unfold Picked at hp
    by_cases hj : i = j
    · subst hj
      rw [own_after_self, List.head?_cons, Option.any_some] at hp
      cases c with
      | next m first visited =>
        obtain ⟨e, he, hed⟩ := (Option.any_eq_true _ _).mp hp
        exact of_decide_eq_true hed ▸ hE e he
      | _ => exact nomatch (show false = true from hp)
    · rw [own_after_ne runtime s hj] at hp
      exact h.picked j d hp
  by_cases hc : ∃ e, c = .closeSend e
  · obtain ⟨e, rfl⟩ := hc
    simp only [Shot.after, runtime, answerHub, State.closeSend, List.mem_cons, not_or]
    exact ⟨Ne.symm (hclose e rfl), hold⟩
  · simp only [Shot.after, runtime]
    rw [closings_answer fun e he => hc ⟨e, he⟩]
    exact hold

theorem good_step (hd : Due s i c) (hE : InTurn s i c o) (h : Good s) :
    Good (s.after runtime i c o) where
  placed := placed_step h.placed o c
  even := even_step hd h.even
  fresh := fresh_step h
  made_once := made_once_step h
  member := member_step hd h
  left := left_step hE h
  down_once := down_once_step hE h
  closings := closings_step h
  picked := picked_step hE h
  sound := by
    have hsame := panics_answer (o := o) (c := c) (s := s.state)
      (by rintro d rfl; exact closed_before hd hE h)
      (by rintro d data rfl; exact h.picked i d hd)
    exact ⟨hsame.1.trans h.sound.1, hsame.2.trans h.sound.2⟩

end Step

theorem good_start (isEvent : String → Bool) (tasks : List Task) :
    Good (start isEvent tasks).shot where
  placed := ⟨fun _ _ hc => (nomatch hc), fun _ => List.nodup_nil⟩
  even _ := ⟨fun _ => Nat.le_refl _, fun _ => Nat.le_refl _⟩
  fresh _ _ := rfl
  made_once _ := Nat.zero_le _
  member _ _ hc := nomatch hc
  left _ hc := nomatch hc
  down_once _ := Nat.zero_le _
  closings _ := rfl
  picked _ _ hp := nomatch hp
  sound := ⟨rfl, rfl⟩

/-! ## The law -/

/-- In every run whose steps are in turn, each channel is closed once at most, nobody sends on
a channel that is closed, and nothing panics. -/
theorem clients_are_closed_once_where_goroutines_take_turns (isEvent : String → Bool)
    (tasks : List Task) (picks : List (Nat × Outcome))
    (h : Allowed runtime (fun s i c o => Possible s i c o ∧ InTurn s i c o) picks
      (start isEvent tasks)) :
    let s := (schedule runtime picks (start isEvent tasks)).shot.state
    (∀ c, s.closings.count c ≤ 1) ∧ s.lateSends = [] ∧ s.panicked = false := by
  intro s
  have hgood : Good (schedule runtime picks (start isEvent tasks)).shot :=
    (dues_schedule (fun _ _ _ _ hE hd hs => good_step hd hE.2 hs) (all_even isEvent tasks)
      (good_start isEvent tasks) h).2
  refine ⟨fun c => ?_, hgood.sound⟩
  rw [hgood.closings c]
  exact closes_le hgood.even hgood.down_once c

/-- A client connects, an event is sent to it, and its read pump takes it down. -/
def oneVisit : List (Nat × Outcome) :=
  List.flatten [List.replicate 7 (0, {}),
    [(1, {}), (1, { arrived := some "e" }), (1, {}), (1, {}), (1, {}), (1, {}), (1, {})],
    [(2, { pick := 1 }), (2, { fails := true }), (2, {}), (2, {}), (2, {}), (2, {})]]

def oneWatcher : List Task := [.handleWS "j", .worker 2, .worker 2]

set_option maxRecDepth 2000 in
theorem clients_are_closed_once_where_one_pump_takes_down :
    let s := (schedule runtime oneVisit (start (fun _ => true) oneWatcher)).shot.state
    (∀ c, s.closings.count c ≤ 1) ∧ s.lateSends = [] ∧ s.panicked = false :=
  clients_are_closed_once_where_goroutines_take_turns (fun _ => true) oneWatcher oneVisit
    (by
      unfold oneVisit oneWatcher
      with_unfolding_all exact ⟨⟨nofun, trivial⟩, ⟨nofun, trivial⟩, ⟨fun _ => rfl, trivial⟩,
        ⟨nofun, trivial⟩, ⟨nofun, trivial⟩, ⟨nofun, trivial⟩, ⟨nofun, trivial⟩,
        ⟨nofun, trivial⟩, ⟨nofun, trivial⟩, ⟨fun _ => rfl, trivial⟩, ⟨nofun, trivial⟩,
        ⟨nofun, by decide⟩, ⟨nofun, trivial⟩, ⟨nofun, by decide⟩,
        ⟨nofun, trivial⟩, ⟨nofun, trivial⟩, ⟨fun _ => rfl, by decide⟩,
        ⟨nofun, by decide⟩, ⟨nofun, trivial⟩, ⟨nofun, trivial⟩, trivial⟩)

/-- A client connects and goes away: the read pump takes it down, and then the write pump does,
which finds the channel closed. -/
def oneDisconnect : List (Nat × Outcome) :=
  List.flatten [List.replicate 7 (0, {}),
    [(1, { pick := 2 }), (1, { fails := true }), (1, {}), (1, {}), (1, {}), (1, {})],
    [(2, { pick := 1 }), (2, {}), (2, {}), (2, {}), (2, {})]]

/-- Each client that goes away has its channel closed twice, and the second close panics. -/
theorem two_pumps_close_one_channel :
    ¬ ∀ (isEvent : String → Bool) (tasks : List Task) (picks : List (Nat × Outcome)),
      Allowed runtime Possible picks (start isEvent tasks) →
        let s := (schedule runtime picks (start isEvent tasks)).shot.state
        (∀ c, s.closings.count c ≤ 1) ∧ s.lateSends = [] ∧ s.panicked = false := by
  intro h
  have hrun := (h (fun _ => true) oneWatcher oneDisconnect (by
      unfold oneDisconnect oneWatcher
      with_unfolding_all exact ⟨nofun, nofun, fun _ => rfl, nofun, nofun, nofun, nofun, nofun,
        nofun, fun _ => rfl, nofun, nofun, nofun, nofun, nofun, nofun, fun _ => rfl, nofun,
        trivial⟩)).2.2
  have hpanic : (schedule runtime oneDisconnect
      (start (fun _ => true) oneWatcher)).shot.state.panicked = true := by
    with_unfolding_all rfl
  rw [hpanic] at hrun
  cases hrun

end recast_rules.hub
