-- Who sees the events of a job. The route of the websocket is outside of the
-- authenticated group and `HandleWS` asks for no token, so the events are
-- private only as far as the handshakes that succeed are those of the owners.
import RecastAi.GatewayOwners
import RecastAi.Histories
import RecastAi.HubClients
import RecastAi.HubSubscriptions
import RecastAi.Tokens

open call_programs recast_rules.models recast_rules.auth
open recast_rules.pipeline (uuidIn)
open recast_rules.gateway (roleAdmin adasJob)

namespace recast_rules.hub.privacy

/-! ## Requests -/

/-- An upgrade request to `/v1/ws/jobs/{id}`: the tokens that it carries, when it comes, and the
rows of `jobs` at this time. -/
structure Upgrade where
  jobID : String
  tokens : List String
  now : Int
  jobs : List Job

/-- A token of the request is valid, and its user owns the job or is an admin. -/
def Upgrade.Authorised (read : String → Option Token) (secret : String) (u : Upgrade) : Prop :=
  ∃ tokenStr ∈ u.tokens, ∃ claims, validateToken read secret u.now tokenStr = some claims ∧
    (claims.role = roleAdmin ∨
      ∃ job ∈ u.jobs, uuidIn u.jobID = some job.id ∧ job.userID = claims.userID)

/-- What runs beside each other: requests, shutdowns, and the goroutines of the hub. -/
inductive Party where
  | request (u : Upgrade)
  | shutdown
  | worker (rounds : Nat)

def Party.prog (isEvent : String → Bool) : Party → HubProg Unit
  | .request u => handleWS u.jobID >>= fun _ => pure ()
  | .shutdown => hub.shutdown
  | .worker rounds => hub.worker isEvent rounds

def start (isEvent : String → Bool) (parties : List Party) : Config Call Answer State Unit :=
  ⟨⟨newHub, []⟩, parties.map (Party.prog isEvent)⟩

/-! ## What a thread may do -/

abbrev History := List (Event Call Answer)

/-- The job that the thread broadcasts for, if it does. -/
def broadcasting (h : History) : Option String :=
  h.findSome? fun e => match e.call with
    | .clientsOf j => some j
    | _ => none

def Upgraded (i : Nat) (h : History) : Prop :=
  (⟨i, .upgrade, (Except.ok () : Except String Unit)⟩ : Event Call Answer) ∈ h

/-- The thread made the client, for the job. -/
def Made (i : Nat) (j : String) (c : Client) (h : History) : Prop :=
  (⟨i, .newClient j, c⟩ : Event Call Answer) ∈ h

/-- The thread found the map of the job. -/
def Found (i : Nat) (j : String) (m : Nat) (h : History) : Prop :=
  (⟨i, .clientsOf j, some m⟩ : Event Call Answer) ∈ h

/-- The thread came to the client in a loop over the map. -/
def Reached (i : Nat) (m : Nat) (c : Client) (h : History) : Prop :=
  ∃ first visited, (⟨i, .next m first visited, some c⟩ : Event Call Answer) ∈ h

/-- A client is made for the job of a request that was upgraded, it joins where it was made, and
a broadcast sends to the clients that it reaches in the map of its job. -/
def Due (parties : List Party) (i : Nat) (h : History) : Call → Prop
  | .newClient j => Upgraded i h ∧ ∃ u, parties[i]? = some (.request u) ∧ u.jobID = j
  | .join c => ∃ j, Made i j c h
  | .next m _ _ => ∃ j, Found i j m h
  | .trySend c _ => ∃ j m, broadcasting h = some j ∧ Found i j m h ∧ Reached i m c h
  | _ => True

section Programs

variable {parties : List Party} {i : Nat} {h : History}

abbrev Follow (parties : List Party) (i : Nat) (h : History) {α : Type} (p : HubProg α) : Prop :=
  p.Follows i (Due parties i) (fun _ _ => True) h

/-- The calls that are always due. -/
def Plain : Call → Prop
  | .newClient _ => False
  | .join _ => False
  | .next _ _ _ => False
  | .trySend _ _ => False
  | _ => True

theorem due_plain {c : Call} (hc : Plain c) : Due parties i h c := by
  cases c <;> first | exact hc.elim | trivial

/-- The calls that are always due, without the subscribing. -/
def Quiet : Call → Prop
  | .subscribe _ _ => False
  | c => Plain c

theorem due_quiet {c : Call} (hc : Quiet c) : Due parties i h c := by
  cases c with
  | subscribe jobID channel => exact hc.elim
  | _ => exact due_plain hc

theorem follow_quiet {α : Type} {p : HubProg α} (hp : p.Only Quiet fun _ => True) :
    Follow parties i h p :=
  follows_only hp fun _ _ hc => due_quiet hc

theorem unregister_quiet (c : Client) : (unregister c).Only Quiet fun _ => True := by
  refine ⟨trivial, fun emptied => ⟨trivial, fun _ => ⟨trivial, fun _ => ?_⟩⟩⟩
  change Bool at emptied
  cases emptied with
  | true => exact ⟨trivial, fun _ => trivial⟩
  | false => trivial

theorem readPump_quiet (c : Client) (n : Nat) : (readPump c n).Only Quiet fun _ => True := by
  induction n with
  | zero => trivial
  | succ n ih =>
    refine ⟨trivial, fun read => ?_⟩
    change Except String Unit at read
    cases read with
    | error e => exact unregister_quiet c
    | ok u => exact ih

theorem writePump_quiet (c : Client) (n : Nat) : (writePump c n).Only Quiet fun _ => True := by
  induction n with
  | zero => trivial
  | succ n ih =>
    have hwritten : ∀ {k : Except String Unit → HubProg Unit},
        (∀ e, k (.error e) = unregister c) → k (.ok ()) = writePump c n →
        ∀ written, (k written).Only Quiet fun _ => True := by
      intro k herror hok written
      cases written with
      | error e => exact (herror e).symm ▸ unregister_quiet c
      | ok u => exact hok.symm ▸ ih
    refine ⟨trivial, fun selected => ?_⟩
    change Selected at selected
    cases selected with
    | closed => exact ⟨trivial, fun _ => unregister_quiet c⟩
    | message data => exact ⟨trivial, hwritten (fun _ => rfl) rfl⟩
    | tick => exact ⟨trivial, hwritten (fun _ => rfl) rfl⟩

theorem closeClients_quiet (clients : List Client) :
    (closeClients clients).Only Quiet fun _ => True := by
  induction clients with
  | nil => trivial
  | cons c cs ih => exact ⟨trivial, fun _ => ⟨trivial, fun _ => ih⟩⟩

theorem shutdown_quiet : shutdown.Only Quiet fun _ => True := by
  refine ⟨trivial, fun _ => ⟨trivial, fun _ => ⟨trivial, fun _ => ⟨trivial, fun clients => ?_⟩⟩⟩⟩
  exact only_bind (p := closeClients clients) (closeClients_quiet clients)
    fun _ _ => ⟨trivial, fun _ => trivial⟩

theorem broadcastLoop_follow (m : Nat) (first : List Client) (data j : String) (n : Nat)
    (visited : List Client) (hjob : broadcasting h = some j) (hfound : Found i j m h) :
    (broadcastLoop m first data n visited).Follows i (Due parties i) (fun _ _ => True) h := by
  induction n generalizing visited h with
  | zero => trivial
  | succ n ih =>
    refine ⟨⟨j, hfound⟩, fun x => ?_⟩
    change Option Client at x
    cases x with
    | none => trivial
    | some c =>
      refine ⟨⟨j, m, hjob, List.mem_cons_of_mem _ hfound, first, visited, List.mem_cons_self⟩,
        fun sent => ?_⟩
      change Bool at sent
      cases sent with
      | true =>
        exact ih (c :: visited) hjob (List.mem_cons_of_mem _ (List.mem_cons_of_mem _ hfound))
      | false =>
        refine ⟨trivial, fun _ => ?_⟩
        exact ih (c :: visited) hjob
          (List.mem_cons_of_mem _ (List.mem_cons_of_mem _ (List.mem_cons_of_mem _ hfound)))

theorem broadcast_follow (jobID data : String) (n : Nat) :
    Follow parties i h (broadcast jobID data n) := by
  refine ⟨trivial, fun x => ?_⟩
  change Option Nat at x
  cases x with
  | none => trivial
  | some m =>
    refine ⟨trivial, fun first => ?_⟩
    exact broadcastLoop_follow m first data jobID n [] rfl
      (List.mem_cons_of_mem _ List.mem_cons_self)

theorem subscriptionLoop_follow (isEvent : String → Bool) (jobID : String) (ps : PubSub) (n : Nat) :
    Follow parties i h (subscriptionLoop isEvent jobID ps n) := by
  induction n generalizing h with
  | zero => trivial
  | succ n ih =>
    refine ⟨trivial, fun received => ?_⟩
    change Received at received
    cases received with
    | done => trivial
    | closed => trivial
    | nothing => exact ih
    | message payload =>
      have hvalid : ∀ (valid : Bool) (h' : History), Follow parties i h'
          (if valid then broadcast jobID payload n >>= fun _ => subscriptionLoop isEvent jobID ps n
            else subscriptionLoop isEvent jobID ps n) := by
        intro valid h'
        cases valid with
        | false => exact ih
        | true => exact follows_bind (follows_mono (broadcast_follow jobID payload n) fun _ _ _ => ih)
      exact hvalid (isEvent payload) _

theorem worker_follow (isEvent : String → Bool) (n : Nat) :
    Follow parties i h (worker isEvent n) := by
  refine ⟨trivial, fun g => ?_⟩
  change Option Goroutine at g
  cases g with
  | none => trivial
  | some g =>
    cases g with
    | writePump c => exact follow_quiet (writePump_quiet c n)
    | readPump c => exact follow_quiet (readPump_quiet c n)
    | subscriptionLoop jobID ps => exact subscriptionLoop_follow isEvent jobID ps n
    | unregister c => exact follow_quiet (unregister_quiet c)

theorem register_follow {c : Client} {j : String} (hmade : Made i j c h) :
    Follow parties i h (register c) := by
  refine ⟨⟨j, hmade⟩, fun _ => ⟨trivial, fun ps => ?_⟩⟩
  change Option PubSub at ps
  cases ps with
  | none => trivial
  | some ps => exact ⟨trivial, fun _ => trivial⟩

theorem handleWS_follow {u : Upgrade} (hu : parties[i]? = some (.request u)) :
    Follow parties i h (handleWS u.jobID) := by
  unfold handleWS
  split
  · trivial
  · refine ⟨trivial, fun upgraded => ?_⟩
    change Except String Unit at upgraded
    cases upgraded with
    | error e => trivial
    | ok _ =>
      refine ⟨⟨List.mem_cons_self, u, hu, rfl⟩, fun c => ?_⟩
      change Client at c
      refine follows_bind (p := register c) ?_
      refine follows_mono (register_follow (j := u.jobID) List.mem_cons_self) fun _ _ _ => ?_
      exact ⟨trivial, fun _ => ⟨trivial, fun _ => trivial⟩⟩

theorem all_follow (isEvent : String → Bool) (parties : List Party) :
    AllFollow (Due parties) (fun _ _ _ => True) (start isEvent parties) := by
  refine allFollow_map fun i party hparty => ?_
  cases party with
  | request u => exact follows_bind (follows_mono (handleWS_follow hparty) fun _ _ _ => trivial)
  | shutdown => exact follow_quiet shutdown_quiet
  | worker n => exact worker_follow isEvent n

end Programs

/-! ## The maps of the hub -/

/-- A map once found stays the map of its job. -/
structure SameMaps (s t : State) : Prop where
  next : s.nextMap ≤ t.nextMap
  jobs : ∀ j m, t.jobs j = some m → s.jobs j = some m ∨ s.nextMap ≤ m

theorem sameMaps_of_jobs {s t : State} (hnext : t.nextMap = s.nextMap) (hjobs : t.jobs = s.jobs) :
    SameMaps s t := by
  refine ⟨by omega, fun j m h => Or.inl ?_⟩
  rw [← hjobs]
  exact h

theorem sameMaps_join (s : State) (c : Client) : SameMaps s (s.join c) := by
  unfold State.join
  split
  · refine ⟨by simp, fun j m h => ?_⟩
    by_cases hj : j = c.jobID
    · subst hj
      simp only [Function.update_self, Option.some.injEq] at h
      exact Or.inr (by omega)
    · simp only [Function.update_of_ne hj] at h
      exact Or.inl h
  · exact sameMaps_of_jobs rfl rfl

theorem sameMaps_leave (s : State) (c : Client) : SameMaps s (s.leave c).2 := by
  unfold State.leave
  split
  · exact sameMaps_of_jobs rfl rfl
  · dsimp only
    split
    · refine ⟨by simp, fun j m h => Or.inl ?_⟩
      by_cases hj : j = c.jobID
      · subst hj
        simp at h
      · simpa only [Function.update_of_ne hj] using h
    · exact sameMaps_of_jobs rfl rfl

theorem nextMap_answer {o : Outcome} {s : State} {c : Call} (hj : ∀ d, c ≠ .join d) :
    (answerHub o s c).2.nextMap = s.nextMap := by
  cases c with
  | join d => exact absurd rfl (hj d)
  | leave d =>
    simp only [answerHub, State.leave]
    split
    · rfl
    · split <;> rfl
  | subscribe j channel =>
    simp only [answerHub, State.subscribe]
    split <;> rfl
  | cleanupSub j =>
    simp only [answerHub, State.cleanupSub]
    split <;> rfl
  | trySend d data =>
    simp only [answerHub, State.trySend]
    split
    · rfl
    · split <;> rfl
  | receive d =>
    simp only [answerHub, State.receive]
    split
    · rfl
    · split
      · rfl
      · split <;> rfl
  | _ => rfl

theorem sameMaps_answer (o : Outcome) (s : State) (c : Call) : SameMaps s (answerHub o s c).2 := by
  by_cases hj : ∃ d, c = .join d
  · obtain ⟨d, rfl⟩ := hj
    exact sameMaps_join s d
  · by_cases hl : ∃ d, c = .leave d
    · obtain ⟨d, rfl⟩ := hl
      exact sameMaps_leave s d
    · have hj' : ∀ d, c ≠ .join d := fun d he => hj ⟨d, he⟩
      exact sameMaps_of_jobs (nextMap_answer hj') (maps_answer hj' fun d he => hl ⟨d, he⟩).1

theorem apart_answer (o : Outcome) {s : State} (c : Call) (h : subscriptions.Apart s) :
    subscriptions.Apart (answerHub o s c).2 := by
  by_cases hj : ∃ d, c = .join d
  · obtain ⟨d, rfl⟩ := hj
    exact subscriptions.apart_join h d
  · by_cases hl : ∃ d, c = .leave d
    · obtain ⟨d, rfl⟩ := hl
      exact subscriptions.apart_leave h d
    · have hj' : ∀ d, c ≠ .join d := fun d he => hj ⟨d, he⟩
      have hjobs := (maps_answer (o := o) (s := s) hj' fun d he => hl ⟨d, he⟩).1
      have hnext := nextMap_answer (o := o) (s := s) hj'
      constructor
      · rw [hjobs, hnext]
        exact h.below
      · rw [hjobs]
        exact h.one_job

/-! ## The invariant -/

section Invariant

variable (read : String → Option Token) (secret : String) (parties : List Party)

/-- The client is the connection of one request, which was authorised for its job. -/
def Entitled (c : Client) (h : History) : Prop :=
  ∃ i u, parties[i]? = some (.request u) ∧ Made i u.jobID c h ∧ u.jobID = c.jobID ∧
    u.Authorised read secret ∧ ∀ i' j, Made i' j c h → i' = i

/-- The handshakes that succeed are those of authorised requests. -/
def OnlyOwners (_ : Snap) (i : Nat) (c : Call) (o : Outcome) : Prop :=
  c = .upgrade → o.fails = false →
    ∀ u, parties[i]? = some (.request u) → u.Authorised read secret

/-- Only entitled clients join, and they are sent events of their job only. -/
def Private (s : Snap) (i : Nat) (c : Call) (_ : Outcome) : Prop :=
  match c with
  | .join d => Entitled read secret parties d s.log
  | .trySend d _ =>
    Entitled read secret parties d s.log ∧ broadcasting (s.own i) = some d.jobID
  | _ => True

structure Held (s : Snap) : Prop where
  upgraded : ∀ i u, parties[i]? = some (.request u) → Upgraded i s.log → u.Authorised read secret
  made : ∀ i j c, Made i j c s.log → c.id < s.state.nextClient ∧ c.jobID = j ∧
    ∃ u, parties[i]? = some (.request u) ∧ u.jobID = j ∧ u.Authorised read secret
  once : ∀ i j i' j' c, Made i j c s.log → Made i' j' c s.log → i' = i
  member : ∀ m c, c ∈ s.state.sets m → ∃ i j, Made i j c s.log
  placed : Placed s.state
  apart : subscriptions.Apart s.state
  found : ∀ i j m, Found i j m s.log → m < s.state.nextMap ∧ ∀ k, s.state.jobs k = some m → k = j
  one_job : ∀ i j i' j' m, Found i j m s.log → Found i' j' m s.log → j' = j
  reached : ∀ i m c, Reached i m c s.log →
    (∃ i' j, Made i' j c s.log) ∧ ∃ i' j, Found i' j m s.log ∧ c.jobID = j

end Invariant

section Step

variable {read : String → Option Token} {secret : String} {parties : List Party} {s : Snap}
  {i : Nat} {c : Call} {o : Outcome}

theorem entitled_of_made (h : Held read secret parties s) {i' : Nat} {j : String} {d : Client}
    (hmade : Made i' j d s.log) : Entitled read secret parties d s.log := by
  obtain ⟨-, hjob, u, hu, huj, hauth⟩ := h.made i' j d hmade
  refine ⟨i', u, hu, ?_, huj.trans hjob.symm, hauth, fun k l hk => h.once i' j k l d hmade hk⟩
  rw [huj]
  exact hmade

/-- What a due call does is private. -/
theorem private_of_due (hd : Due parties i (s.own i) c) (h : Held read secret parties s) :
    Private read secret parties s i c o := by
  cases c with
  | join d =>
    obtain ⟨j, hmade⟩ := hd
    exact entitled_of_made h (mem_own.mp hmade).1
  | trySend d data =>
    obtain ⟨j, m, hjob, hfound, first, visited, hreached⟩ := hd
    obtain ⟨⟨k, l, hmade⟩, k', l', hfound', hdj⟩ :=
      h.reached i m d ⟨first, visited, (mem_own.mp hreached).1⟩
    refine ⟨entitled_of_made h hmade, ?_⟩
    rw [hjob, hdj, h.one_job k' l' i j m hfound' (mem_own.mp hfound).1]
  | _ => trivial

theorem upgraded_step (hE : OnlyOwners read secret parties s i c o)
    (h : Held read secret parties s) (k : Nat) (u : Upgrade)
    (hu : parties[k]? = some (.request u))
    (hup : Upgraded k (s.after runtime i c o).log) : u.Authorised read secret := by
  rcases Shot.mem_after.mp hup with hnew | hold
  · obtain ⟨rfl, rfl, hx⟩ := Event.mk.inj hnew
    refine hE rfl ?_ u hu
    have hreply : (Except.ok () : Except String Unit) = reply o := eq_of_heq hx
    unfold reply at hreply
    split at hreply
    · cases hreply
    · rename_i hfine
      simpa using hfine
  · exact h.upgraded k u hu hold

theorem nextClient_le (o : Outcome) (s : State) (c : Call) :
    s.nextClient ≤ (answerHub o s c).2.nextClient := by
  by_cases hn : ∃ j, c = .newClient j
  · obtain ⟨j, rfl⟩ := hn
    exact Nat.le_succ _
  · rw [nextClient_answer fun j he => hn ⟨j, he⟩]

/-- The client of a new call of `newClient` is not in the log yet. -/
theorem made_after {k : Nat} {j : String} {d : Client}
    (hmade : Made k j d (s.after runtime i c o).log) :
    (k = i ∧ c = .newClient j ∧ d = ⟨s.state.nextClient, j⟩) ∨ Made k j d s.log := by
  rcases Shot.mem_after.mp hmade with hnew | hold
  · obtain ⟨rfl, rfl, hx⟩ := Event.mk.inj hnew
    exact Or.inl ⟨rfl, rfl, eq_of_heq hx⟩
  · exact Or.inr hold

theorem made_step (hd : Due parties i (s.own i) c) (h : Held read secret parties s) (k : Nat)
    (j : String) (d : Client) (hmade : Made k j d (s.after runtime i c o).log) :
    d.id < (s.after runtime i c o).state.nextClient ∧ d.jobID = j ∧
      ∃ u, parties[k]? = some (.request u) ∧ u.jobID = j ∧ u.Authorised read secret := by
  rcases made_after hmade with ⟨rfl, rfl, rfl⟩ | hold
  · obtain ⟨hup, u, hu, huj⟩ := hd
    exact ⟨Nat.lt_succ_self _, rfl, u, hu, huj, h.upgraded k u hu (mem_own.mp hup).1⟩
  · obtain ⟨hid, hrest⟩ := h.made k j d hold
    exact ⟨Nat.lt_of_lt_of_le hid (nextClient_le o s.state c), hrest⟩

theorem once_step (h : Held read secret parties s) (k : Nat) (j : String) (k' : Nat) (j' : String)
    (d : Client) (hmade : Made k j d (s.after runtime i c o).log)
    (hmade' : Made k' j' d (s.after runtime i c o).log) : k' = k := by
  rcases made_after hmade with ⟨rfl, -, rfl⟩ | hold
  · rcases made_after hmade' with ⟨rfl, -, -⟩ | hold'
    · rfl
    · exact absurd (h.made k' j' _ hold').1 (Nat.lt_irrefl _)
  · rcases made_after hmade' with ⟨rfl, -, rfl⟩ | hold'
    · exact absurd (h.made k j _ hold).1 (Nat.lt_irrefl _)
    · exact h.once k j k' j' d hold hold'

theorem member_step (hd : Due parties i (s.own i) c) (h : Held read secret parties s) (m : Nat)
    (d : Client) (hmem : d ∈ (s.after runtime i c o).state.sets m) :
    ∃ k j, Made k j d (s.after runtime i c o).log := by
  have hmade : ∃ k j, Made k j d s.log := by
    by_cases hj : ∃ e, c = .join e
    · obtain ⟨e, rfl⟩ := hj
      rcases mem_join hmem with rfl | hold
      · obtain ⟨j, hmade⟩ := hd
        exact ⟨i, j, (mem_own.mp hmade).1⟩
      · exact h.member m d hold
    · by_cases hl : ∃ e, c = .leave e
      · obtain ⟨e, rfl⟩ := hl
        exact h.member m d (mem_leave h.placed hmem).1
      · have hsets := (maps_answer (o := o) (s := s.state) (fun e he => hj ⟨e, he⟩)
          fun e he => hl ⟨e, he⟩).2
        change d ∈ (answerHub o s.state c).2.sets m at hmem
        rw [hsets] at hmem
        exact h.member m d hmem
  obtain ⟨k, j, hold⟩ := hmade
  exact ⟨k, j, List.mem_cons_of_mem _ hold⟩

/-- A map that is found is that of the job at this time. -/
theorem found_after {k : Nat} {j : String} {m : Nat}
    (hfound : Found k j m (s.after runtime i c o).log) :
    (s.state.jobs j = some m ∧ (answerHub o s.state c).2 = s.state) ∨ Found k j m s.log := by
  rcases Shot.mem_after.mp hfound with hnew | hold
  · obtain ⟨rfl, rfl, hx⟩ := Event.mk.inj hnew
    exact Or.inl ⟨(eq_of_heq hx).symm, rfl⟩
  · exact Or.inr hold

theorem found_step (h : Held read secret parties s) (k : Nat) (j : String) (m : Nat)
    (hfound : Found k j m (s.after runtime i c o).log) :
    m < (s.after runtime i c o).state.nextMap ∧
      ∀ l, (s.after runtime i c o).state.jobs l = some m → l = j := by
  change m < (answerHub o s.state c).2.nextMap ∧
    ∀ l, (answerHub o s.state c).2.jobs l = some m → l = j
  have hsame := sameMaps_answer o s.state c
  rcases found_after hfound with ⟨hjob, hstate⟩ | hold
  · rw [hstate]
    exact ⟨h.apart.below j m hjob, fun l hl => h.apart.one_job l j m hl hjob⟩
  · obtain ⟨hlt, hjobs⟩ := h.found k j m hold
    refine ⟨Nat.lt_of_lt_of_le hlt hsame.next, fun l hl => ?_⟩
    rcases hsame.jobs l m hl with hbefore | hnew
    · exact hjobs l hbefore
    · omega

theorem one_job_step (h : Held read secret parties s) (k : Nat) (j : String) (k' : Nat)
    (j' : String) (m : Nat) (hfound : Found k j m (s.after runtime i c o).log)
    (hfound' : Found k' j' m (s.after runtime i c o).log) : j' = j := by
  rcases found_after hfound with ⟨hjob, -⟩ | hold
  · rcases found_after hfound' with ⟨hjob', -⟩ | hold'
    · exact h.apart.one_job j' j m hjob' hjob
    · exact ((h.found k' j' m hold').2 j hjob).symm
  · rcases found_after hfound' with ⟨hjob', -⟩ | hold'
    · exact (h.found k j m hold).2 j' hjob'
    · exact h.one_job k j k' j' m hold hold'

theorem mem_next {s : State} {m : Nat} {first visited : List Client} {wish : Option Client}
    {d : Client} (h : s.next m first visited wish = some d) : d ∈ s.sets m := by
  unfold State.next at h
  dsimp only at h
  split at h
  · rename_i d' hfind
    cases h
    exact List.mem_of_mem_filter (List.mem_of_find?_eq_some hfind)
  · exact List.mem_of_mem_filter (List.mem_of_find?_eq_some h)

theorem reached_step (hd : Due parties i (s.own i) c) (h : Held read secret parties s) (k m : Nat)
    (d : Client) (hreached : Reached k m d (s.after runtime i c o).log) :
    (∃ k' j, Made k' j d (s.after runtime i c o).log) ∧
      ∃ k' j, Found k' j m (s.after runtime i c o).log ∧ d.jobID = j := by
  have hbefore : (∃ k' j, Made k' j d s.log) ∧ ∃ k' j, Found k' j m s.log ∧ d.jobID = j := by
    obtain ⟨first, visited, hmem⟩ := hreached
    rcases Shot.mem_after.mp hmem with hnew | hold
    · obtain ⟨rfl, rfl, hx⟩ := Event.mk.inj hnew
      have hnext : some d = s.state.next m first visited o.client := eq_of_heq hx
      have hin := mem_next hnext.symm
      obtain ⟨j, hfound⟩ := hd
      refine ⟨h.member m d hin, k, j, (mem_own.mp hfound).1, ?_⟩
      exact (h.found k j m (mem_own.mp hfound).1).2 d.jobID (h.placed.map m d hin)
    · exact h.reached k m d ⟨first, visited, hold⟩
  obtain ⟨⟨k', j, hmade⟩, k'', j', hfound, hjob⟩ := hbefore
  exact ⟨⟨k', j, List.mem_cons_of_mem _ hmade⟩, k'', j', List.mem_cons_of_mem _ hfound, hjob⟩

/-- The step lemma. -/
theorem held_step (hE : OnlyOwners read secret parties s i c o)
    (hd : Due parties i (s.own i) c) (h : Held read secret parties s) :
    Held read secret parties (s.after runtime i c o) where
  upgraded := upgraded_step hE h
  made := made_step hd h
  once := once_step h
  member := member_step hd h
  placed := placed_step h.placed o c
  apart := apart_answer o c h.apart
  found := found_step h
  one_job := one_job_step h
  reached := reached_step hd h

end Step

/-! ## The law -/

theorem held_start (read : String → Option Token) (secret : String) (isEvent : String → Bool)
    (parties : List Party) : Held read secret parties (start isEvent parties).shot where
  upgraded := nofun
  made := nofun
  once := nofun
  member := nofun
  placed := ⟨nofun, fun _ => List.nodup_nil⟩
  apart := ⟨nofun, nofun⟩
  found := nofun
  one_job := nofun
  reached := by
    rintro i m c ⟨first, visited, hmem⟩
    cases hmem

/-- While only authorised requests are upgraded, only their clients join and are sent to, and each
client in the set of a job is entitled to it. -/
theorem websocket_events_are_private_while (read : String → Option Token) (secret : String)
    (isEvent : String → Bool) (parties : List Party) (picks : List (Nat × Outcome))
    (h : Allowed runtime (OnlyOwners read secret parties) picks (start isEvent parties)) :
    Allowed runtime (Private read secret parties) picks (start isEvent parties) ∧
      let s := (schedule runtime picks (start isEvent parties)).shot
      ∀ j, ∀ c ∈ s.state.clientsOf j, c.jobID = j ∧ Entitled read secret parties c s.log := by
  have hrun := allFollow_schedule (w := runtime) (E := OnlyOwners read secret parties)
    (F := Private read secret parties) (I := Held read secret parties)
    (fun s i c o hE hd hs => held_step hE hd hs) (fun s i c o _ hd hs => private_of_due hd hs)
    (all_follow isEvent parties) (held_start read secret isEvent parties) h
  refine ⟨hrun.1, fun j c hc => ?_⟩
  have hs := hrun.2
  unfold State.clientsOf at hc
  split at hc
  · cases hc
  · rename_i m hm
    obtain ⟨k, l, hmade⟩ := hs.member m c hc
    exact ⟨hs.apart.one_job c.jobID j m (hs.placed.map m c hc) hm, entitled_of_made hs hmade⟩

/-! ## Two visits -/

def adasText (t : String) : Option Token :=
  if t = "ada's" then some (generateToken "secret" "ada" "ada@example.com" "user" (900 * second) 0)
  else none

def adasVisit : Upgrade := ⟨adasJob.id, ["ada's"], 0, [adasJob]⟩

/-- Somebody who has no token asks for the same job. -/
def strangersVisit : Upgrade := ⟨adasJob.id, [], 0, [adasJob]⟩

/-- A visit, and an event that is sent to the client. -/
def oneEvent : List (Nat × Outcome) :=
  List.flatten [List.replicate 7 (0, {}),
    [(1, {}), (1, { arrived := some "e" }), (1, {}), (1, {}), (1, {}), (1, {})]]

theorem adas_visit_authorised : adasVisit.Authorised adasText "secret" := by
  refine ⟨"ada's", List.mem_cons_self, ?_⟩
  have hread : adasText "ada's" =
      some (generateToken "secret" "ada" "ada@example.com" "user" (900 * second) 0) := rfl
  rw [validate_access hread, if_pos (by decide)]
  exact ⟨_, rfl, Or.inr ⟨adasJob, List.mem_cons_self, by decide, rfl⟩⟩

theorem only_owners_of_authorised {read : String → Option Token} {secret : String}
    {parties : List Party}
    (h : ∀ (i : Nat) u, parties[i]? = some (.request u) → u.Authorised read secret)
    (picks : List (Nat × Outcome)) (cfg : Config Call Answer State Unit) :
    Allowed runtime (OnlyOwners read secret parties) picks cfg :=
  allowed_iff_steps.mpr fun st _ _ _ u hu => h st.thread u hu

theorem adas_events_are_private :
    Allowed runtime (Private adasText "secret" [.request adasVisit, .worker 2]) oneEvent
      (start (fun _ => true) [.request adasVisit, .worker 2]) := by
  refine (websocket_events_are_private_while adasText "secret" (fun _ => true)
    [.request adasVisit, .worker 2] oneEvent (only_owners_of_authorised ?_ _ _)).1
  intro i u hu
  match i with
  | 0 =>
    cases hu
    exact adas_visit_authorised
  | 1 => cases hu
  | n + 2 => cases hu

/-- A request without a token is upgraded, joins, and has the event in its queue. -/
theorem a_stranger_gets_the_events :
    Allowed runtime Possible oneEvent
        (start (fun _ => true) [.request strangersVisit, .worker 2]) ∧
      (schedule runtime oneEvent
        (start (fun _ => true) [.request strangersVisit, .worker 2])).shot.state.queue
          ⟨0, adasJob.id⟩ = ["e"] ∧
      ¬ Allowed runtime (Private adasText "secret" [.request strangersVisit, .worker 2]) oneEvent
        (start (fun _ => true) [.request strangersVisit, .worker 2]) := by
  refine ⟨?_, by with_unfolding_all rfl, fun h => ?_⟩
  · unfold oneEvent
    with_unfolding_all exact ⟨nofun, nofun, fun _ => rfl, nofun, nofun, nofun, nofun, nofun,
      nofun, fun _ => rfl, nofun, nofun, nofun, trivial⟩
  · have hjoin : ∃ log, Entitled adasText "secret" [.request strangersVisit, .worker 2]
        ⟨0, adasJob.id⟩ log := by
      unfold oneEvent at h
      with_unfolding_all exact ⟨_, h.2.2.1⟩
    obtain ⟨log, i, u, hu, -, -, ⟨tokenStr, htoken, -⟩, -⟩ := hjoin
    match i with
    | 0 =>
      cases hu
      cases htoken
    | 1 => cases hu
    | n + 2 => cases hu

end recast_rules.hub.privacy
