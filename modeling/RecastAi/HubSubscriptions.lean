-- The subscriptions of the hub. The clients of a job and its subscription are
-- under two locks, and an `unregister` that empties the job closes the
-- subscription only later. A job has a subscription exactly while it has
-- clients, where no such teardown meets a client that came in between.
import RecastAi.Hub

open call_programs

namespace recast_rules.hub.subscriptions

/-! ## What the log tells of a job -/

def joins (jobID : String) : Event Call Answer → Nat
  | ⟨_, .join c, _⟩ => if c.jobID = jobID then 1 else 0
  | _ => 0

def subscribes (jobID : String) : Event Call Answer → Nat
  | ⟨_, .subscribe j _, _⟩ => if j = jobID then 1 else 0
  | _ => 0

/-- A client left, and it was the last one of the job. -/
def empties (jobID : String) : Event Call Answer → Nat
  | ⟨_, .leave c, emptied⟩ => if c.jobID = jobID then (emptied : Bool).toNat else 0
  | _ => 0

def cleans (jobID : String) : Event Call Answer → Nat
  | ⟨_, .cleanupSub j, _⟩ => if j = jobID then 1 else 0
  | _ => 0

/-- Thread `i` is in `register`, between its two sections. -/
def Subscribing (s : Snap) (i : Nat) (jobID : String) : Prop :=
  tally (subscribes jobID) (s.own i) < tally (joins jobID) (s.own i)

/-- Thread `i` is in an `unregister` that emptied the job, and the teardown is to come. -/
def Cleaning (s : Snap) (i : Nat) (jobID : String) : Prop :=
  tally (cleans jobID) (s.own i) < tally (empties jobID) (s.own i)

/-! ## The goroutines -/

inductive Visit where
  | register (c : Client)
  | unregister (c : Client)

def Visit.prog : Visit → HubProg Unit
  | .register c => hub.register c
  | .unregister c => hub.unregister c

/-- Any calls of `register` and `unregister`, at their start. -/
def start (visits : List Visit) : Config Call Answer State Unit :=
  ⟨⟨newHub, []⟩, visits.map Visit.prog⟩

/-- No call is in progress: what has begun is done. -/
def Quiet (cfg : Config Call Answer State Unit) : Prop :=
  ∀ i, cfg.shot.own i ≠ [] → cfg.threads[i]? = some (.done ())

/-- What `register` and `unregister` do, and that a thread subscribes for the client that it
let in and tears down for the job that it emptied. -/
def Due (s : Snap) (i : Nat) : Call → Prop
  | .join _ => True
  | .subscribe jobID _ => Subscribing s i jobID
  | .leave _ => True
  | .closeSend _ => True
  | .closeConn _ => True
  | .cleanupSub jobID => Cleaning s i jobID
  | .go _ => True
  | _ => False

/-- Thread `i` has nothing left to do for a job. -/
structure Settled (s : Snap) (i : Nat) : Prop where
  subscribed : ∀ j, tally (subscribes j) (s.own i) = tally (joins j) (s.own i)
  cleaned : ∀ j, tally (cleans j) (s.own i) = tally (empties j) (s.own i)

theorem Settled.later {s s' : Snap} {i : Nat} (h : Settled s i) (hl : Later i s s') :
    Settled s' i :=
  ⟨fun j => hl.own ▸ h.subscribed j, fun j => hl.own ▸ h.cleaned j⟩

section Programs

variable {E : Snap → Nat → Call → Outcome → Prop} {i : Nat}

theorem safe_end {s : Snap} (h : Settled s i) :
    safe runtime E (dues runtime E Due) i (.done ()) (fun _ s => Settled s i) s :=
  fun _ hl => h.later hl

theorem safe_register (c : Client) {s : Snap} (h : Settled s i) :
    safe runtime E (dues runtime E Due) i (register c) (fun _ s => Settled s i) s := by
  refine safe_due (fun _ _ => trivial) fun s₁ o₁ h₁ _ => ?_
  have hs := h.later h₁
  refine safe_due (fun s₂ h₂ => ?_) fun s₂ o₂ h₂ _ => ?_
  · simp only [Due, Subscribing, h₂.own, own_after_self, tally_cons, subscribes, joins,
      hs.subscribed c.jobID, if_true]
    omega
  · have hset : Settled (s₂.after runtime i (.subscribe c.jobID (eventsChannel c.jobID)) o₂) i := by
      constructor <;> intro j <;> simp only [own_after_self, h₂.own, tally_cons]
      · simp only [subscribes, joins, hs.subscribed j]
        omega
      · simpa only [cleans, empties, Nat.zero_add] using hs.cleaned j
    generalize (runtime.answer o₂ s₂.state (.subscribe c.jobID (eventsChannel c.jobID))).1 = ps
    cases (ps : Option PubSub) with
    | none => exact safe_end hset
    | some ps =>
      refine safe_due (fun _ _ => trivial) fun s₃ o₃ h₃ _ => ?_
      refine safe_end ⟨fun j => ?_, fun j => ?_⟩ <;> simp only [own_after_self, tally_cons]
      · simpa only [subscribes, joins, Nat.zero_add] using (hset.later h₃).subscribed j
      · simpa only [cleans, empties, Nat.zero_add] using (hset.later h₃).cleaned j

theorem safe_unregister (c : Client) {s : Snap} (h : Settled s i) :
    safe runtime E (dues runtime E Due) i (unregister c) (fun _ s => Settled s i) s := by
  refine safe_due (fun _ _ => trivial) fun s₁ o₁ h₁ _ => ?_
  have hs := h.later h₁
  have hown := own_after_self runtime s₁ i (.leave c) o₁
  revert hown
  generalize s₁.after runtime i (.leave c) o₁ = t
  generalize (runtime.answer o₁ s₁.state (.leave c)).1 = emptied
  intro hown
  refine safe_due (fun _ _ => trivial) fun s₂ o₂ h₂ _ => ?_
  refine safe_due (fun _ _ => trivial) fun s₃ o₃ h₃ _ => ?_
  cases (emptied : Bool) with
  | false =>
    refine safe_end ⟨fun j => ?_, fun j => ?_⟩ <;>
      simp only [own_after_self, h₃.own, h₂.own, hown, tally_cons]
    · simpa only [subscribes, joins, Nat.zero_add] using hs.subscribed j
    · simpa [cleans, empties] using hs.cleaned j
  | true =>
    refine safe_due (fun s₄ h₄ => ?_) fun s₄ o₄ h₄ _ => safe_end ⟨fun j => ?_, fun j => ?_⟩
    · simp only [Due, Cleaning, own_after_self, h₄.own, h₃.own, h₂.own, hown, tally_cons, cleans,
        empties, hs.cleaned c.jobID, if_true, Bool.toNat_true]
      omega
    · simp only [own_after_self, h₄.own, h₃.own, h₂.own, hown, tally_cons]
      simpa only [subscribes, joins, Nat.zero_add] using hs.subscribed j
    · simp only [own_after_self, h₄.own, h₃.own, h₂.own, hown, tally_cons, cleans, empties,
        hs.cleaned j, Bool.toNat_true]
      omega

theorem all_settle (visits : List Visit) :
    AllSafe runtime E (dues runtime E Due) (fun i _ s => Settled s i) (start visits) := by
  have h0 : ∀ i, Settled ⟨newHub, []⟩ i := fun _ => ⟨fun _ => rfl, fun _ => rfl⟩
  intro i p hp
  simp only [start, List.getElem?_map, Option.map_eq_some_iff] at hp
  obtain ⟨visit, -, rfl⟩ := hp
  cases visit with
  | register c => exact safe_register c (h0 i)
  | unregister c => exact safe_unregister c (h0 i)

end Programs

/-! ## The maps -/

/-- No two jobs share a map, and a map that is still to be made is nobody's. -/
structure Apart (s : State) : Prop where
  below : ∀ j m, s.jobs j = some m → m < s.nextMap
  one_job : ∀ j k m, s.jobs j = some m → s.jobs k = some m → j = k

theorem apart_join {s : State} (h : Apart s) (c : Client) : Apart (s.join c) := by
  unfold State.join
  split
  · constructor
    · intro j m hj
      by_cases hc : j = c.jobID
      · subst hc
        simp only [Function.update_self, Option.some.injEq] at hj
        exact hj ▸ Nat.lt_succ_self _
      · simp only [Function.update_of_ne hc] at hj
        exact Nat.lt_succ_of_lt (h.below j m hj)
    · intro j k m hj hk
      by_cases hc : j = c.jobID <;> by_cases hd : k = c.jobID
      · exact hc.trans hd.symm
      · subst hc
        simp only [Function.update_self, Function.update_of_ne hd, Option.some.injEq] at hj hk
        exact absurd (h.below k m hk) (hj ▸ Nat.lt_irrefl _)
      · subst hd
        simp only [Function.update_self, Function.update_of_ne hc, Option.some.injEq] at hj hk
        exact absurd (h.below j m hj) (hk ▸ Nat.lt_irrefl _)
      · simp only [Function.update_of_ne hc, Function.update_of_ne hd] at hj hk
        exact h.one_job j k m hj hk
  · exact ⟨h.below, h.one_job⟩

theorem apart_leave {s : State} (h : Apart s) (c : Client) : Apart (s.leave c).2 := by
  have hsub : ∀ j m, Function.update s.jobs c.jobID none j = some m → s.jobs j = some m := by
    intro j m hj
    by_cases hc : j = c.jobID
    · subst hc
      simp at hj
    · simpa only [Function.update_of_ne hc] using hj
  unfold State.leave
  split
  · exact h
  · dsimp only
    split
    · exact ⟨fun j m hj => h.below j m (hsub j m hj),
        fun j k m hj hk => h.one_job j k m (hsub j m hj) (hsub k m hk)⟩
    · exact ⟨h.below, h.one_job⟩

theorem clientsOf_join_self (s : State) (c : Client) : (s.join c).clientsOf c.jobID ≠ [] := by
  cases hm : s.jobs c.jobID with
  | none => simp [State.join, State.clientsOf, hm]
  | some m => simp [State.join, State.clientsOf, hm]

theorem clientsOf_join_ne {s : State} (h : Apart s) {c : Client} {j : String}
    (hj : j ≠ c.jobID) : (s.join c).clientsOf j = s.clientsOf j := by
  cases hk : s.jobs c.jobID with
  | none =>
    simp only [State.join, State.clientsOf, hk, Function.update_of_ne hj]
    split
    · rfl
    · rename_i m hm
      exact Function.update_of_ne (Nat.ne_of_lt (h.below j m hm)) _ _
  | some k =>
    simp only [State.join, State.clientsOf, hk]
    split
    · rfl
    · rename_i m hm
      have hne : m ≠ k := by
        rintro rfl
        exact hj (h.one_job j c.jobID m hm hk)
      exact Function.update_of_ne hne _ _

theorem clientsOf_leave_ne {s : State} (h : Apart s) {c : Client} {j : String}
    (hj : j ≠ c.jobID) : (s.leave c).2.clientsOf j = s.clientsOf j := by
  cases hk : s.jobs c.jobID with
  | none => simp only [State.leave, hk]
  | some k =>
    have hkeep : ∀ (t : State) (clients : List Client), t.jobs j = s.jobs j →
        t.sets = Function.update s.sets k clients → t.clientsOf j = s.clientsOf j := by
      intro t clients hjobs hsets
      cases hm : s.jobs j with
      | none => simp only [State.clientsOf, hjobs, hm]
      | some m =>
        have hne : m ≠ k := by
          rintro rfl
          exact hj (h.one_job j c.jobID m hm hk)
        simp only [State.clientsOf, hjobs, hsets, hm, Function.update_of_ne hne]
    simp only [State.leave, hk]
    split
    · exact hkeep _ _ (Function.update_of_ne hj _ _) rfl
    · exact hkeep _ _ rfl rfl

/-- Who leaves either empties the job, or the job had no client, or one is left. -/
theorem leave_cases (s : State) (c : Client) :
    ((s.leave c).1 = true ∧ (s.leave c).2.clientsOf c.jobID = []) ∨
      ((s.leave c).1 = false ∧ s.clientsOf c.jobID = [] ∧ (s.leave c).2 = s) ∨
      ((s.leave c).1 = false ∧ s.clientsOf c.jobID ≠ [] ∧
        (s.leave c).2.clientsOf c.jobID ≠ []) := by
  cases hm : s.jobs c.jobID with
  | none => exact Or.inr (Or.inl (by simp [State.leave, State.clientsOf, hm]))
  | some m =>
    simp only [State.leave, hm]
    split
    · exact Or.inl ⟨rfl, by simp [State.clientsOf]⟩
    · rename_i hlen
      have hne : (s.sets m).filter (· ≠ c) ≠ [] := fun he => hlen (by rw [he]; rfl)
      refine Or.inr (Or.inr ⟨rfl, ?_, ?_⟩)
      · simp only [State.clientsOf, hm]
        intro he
        rw [he] at hne
        exact hne rfl
      · simpa only [State.clientsOf, hm, Function.update_self] using hne

/-! ## The invariant -/

/-- The condition on the order of the steps. A subscription is torn down only while the job has
no client, or one whose `register` is still to subscribe; and `register` subscribes only while
the job has a client, or a teardown is still to come. -/
def InTurn (s : Snap) (_ : Nat) : Call → Outcome → Prop
  | .cleanupSub jobID, _ => s.state.clientsOf jobID = [] ∨ ∃ k, Subscribing s k jobID
  | .subscribe jobID _, _ => s.state.clientsOf jobID ≠ [] ∨ ∃ k, Cleaning s k jobID
  | _, _ => True

/-- The hub holds an open subscription for the job. -/
def Holds (s : State) (jobID : String) : Prop := ∃ ps, s.subs jobID = some ps ∧ ps ∈ s.openSubs

structure Held (s : State) : Prop where
  isOpen : ∀ j ps, s.subs j = some ps → ps ∈ s.openSubs
  below : ∀ j ps, s.subs j = some ps → ps.id < s.nextSub
  one_job : ∀ j k ps, s.subs j = some ps → s.subs k = some ps → j = k

structure Good (s : Snap) : Prop where
  apart : Apart s.state
  held : Held s.state
  joined : ∀ i j, tally (subscribes j) (s.own i) ≤ tally (joins j) (s.own i)
  emptied : ∀ i j, tally (cleans j) (s.own i) ≤ tally (empties j) (s.own i)
  watched : ∀ j, s.state.clientsOf j ≠ [] → s.state.subs j ≠ none ∨ ∃ i, Subscribing s i j
  needed : ∀ j, s.state.subs j ≠ none → s.state.clientsOf j ≠ [] ∨ ∃ i, Cleaning s i j

theorem held_subscribe {s : State} (h : Held s) (jobID channel : String) :
    Held (s.subscribe jobID channel).2 := by
  unfold State.subscribe
  split
  · exact h
  · have hold : ∀ j ps, Function.update s.subs jobID (some ⟨s.nextSub, channel⟩) j = some ps →
        (j = jobID ∧ ps = ⟨s.nextSub, channel⟩) ∨ (j ≠ jobID ∧ s.subs j = some ps) := by
      intro j ps hj
      by_cases hc : j = jobID
      · subst hc
        simp only [Function.update_self, Option.some.injEq] at hj
        exact Or.inl ⟨rfl, hj.symm⟩
      · simp only [Function.update_of_ne hc] at hj
        exact Or.inr ⟨hc, hj⟩
    constructor
    · intro j ps hj
      rcases hold j ps hj with ⟨-, rfl⟩ | ⟨-, hj⟩
      · exact List.mem_cons_self
      · exact List.mem_cons_of_mem _ (h.isOpen j ps hj)
    · intro j ps hj
      rcases hold j ps hj with ⟨-, rfl⟩ | ⟨-, hj⟩
      · exact Nat.lt_succ_self _
      · exact Nat.lt_succ_of_lt (h.below j ps hj)
    · intro j k ps hj hk
      rcases hold j ps hj with ⟨hj₁, hps⟩ | ⟨-, hj₁⟩ <;>
        rcases hold k ps hk with ⟨hk₁, hps'⟩ | ⟨-, hk₁⟩
      · exact hj₁.trans hk₁.symm
      · exact absurd (h.below k ps hk₁) (hps ▸ Nat.lt_irrefl _)
      · exact absurd (h.below j ps hj₁) (hps' ▸ Nat.lt_irrefl _)
      · exact h.one_job j k ps hj₁ hk₁

theorem held_cleanupSub {s : State} (h : Held s) (jobID : String) : Held (s.cleanupSub jobID) := by
  unfold State.cleanupSub
  split
  · exact h
  · rename_i closed hclosed
    have hold : ∀ j ps, Function.update s.subs jobID none j = some ps →
        j ≠ jobID ∧ s.subs j = some ps := by
      intro j ps hj
      by_cases hc : j = jobID
      · subst hc
        simp at hj
      · exact ⟨hc, by simpa only [Function.update_of_ne hc] using hj⟩
    constructor
    · intro j ps hj
      obtain ⟨hne, hj₁⟩ := hold j ps hj
      refine List.mem_filter.mpr ⟨h.isOpen j ps hj₁, ?_⟩
      simp only [ne_eq, decide_not, Bool.not_eq_eq_eq_not, Bool.not_true, decide_eq_false_iff_not]
      rintro rfl
      exact hne (h.one_job j jobID ps hj₁ hclosed)
    · exact fun j ps hj => h.below j ps (hold j ps hj).2
    · exact fun j k ps hj hk => h.one_job j k ps (hold j ps hj).2 (hold k ps hk).2

/-- After the section the job has a subscription, and the other jobs have what they had. -/
theorem subs_subscribe (s : State) (jobID channel : String) :
    (s.subscribe jobID channel).2.subs jobID ≠ none ∧
      ∀ j, j ≠ jobID → (s.subscribe jobID channel).2.subs j = s.subs j := by
  unfold State.subscribe
  split
  · rename_i ps hps
    exact ⟨by simp [hps], fun _ _ => rfl⟩
  · exact ⟨by simp, fun j hj => Function.update_of_ne hj _ _⟩

theorem subs_cleanupSub (s : State) (jobID : String) :
    (s.cleanupSub jobID).subs jobID = none ∧
      ∀ j, j ≠ jobID → (s.cleanupSub jobID).subs j = s.subs j := by
  unfold State.cleanupSub
  split
  · rename_i hnone
    exact ⟨hnone, fun _ _ => rfl⟩
  · exact ⟨by simp, fun j hj => Function.update_of_ne hj _ _⟩

theorem subs_join (s : State) (c : Client) : (s.join c).subs = s.subs := by
  unfold State.join
  split <;> rfl

theorem subs_leave (s : State) (c : Client) : (s.leave c).2.subs = s.subs := by
  unfold State.leave
  split
  · rfl
  · dsimp only
    split <;> rfl

theorem clientsOf_subscribe (s : State) (jobID channel j : String) :
    (s.subscribe jobID channel).2.clientsOf j = s.clientsOf j := by
  unfold State.subscribe
  split <;> rfl

theorem clientsOf_cleanupSub (s : State) (jobID j : String) :
    (s.cleanupSub jobID).clientsOf j = s.clientsOf j := by
  unfold State.cleanupSub
  split <;> rfl

section Step

variable {s : Snap} {i : Nat} {c : Call} {o : Outcome}

theorem apart_step (hd : Due s i c) (h : Apart s.state) : Apart (answerHub o s.state c).2 := by
  cases c with
  | join c => exact apart_join h c
  | leave c => exact apart_leave h c
  | subscribe j channel =>
    simp only [answerHub, State.subscribe]
    split <;> exact ⟨h.below, h.one_job⟩
  | cleanupSub j =>
    simp only [answerHub, State.cleanupSub]
    split <;> exact ⟨h.below, h.one_job⟩
  | closeSend c => exact ⟨h.below, h.one_job⟩
  | closeConn c => exact h
  | go g => exact ⟨h.below, h.one_job⟩
  | _ => exact hd.elim

theorem held_step (hd : Due s i c) (h : Held s.state) : Held (answerHub o s.state c).2 := by
  cases c with
  | join c =>
    simp only [answerHub, State.join]
    split <;> exact ⟨h.isOpen, h.below, h.one_job⟩
  | leave c =>
    simp only [answerHub, State.leave]
    split
    · exact h
    · split <;> exact ⟨h.isOpen, h.below, h.one_job⟩
  | subscribe j channel => exact held_subscribe h j channel
  | cleanupSub j => exact held_cleanupSub h j
  | closeSend c => exact ⟨h.isOpen, h.below, h.one_job⟩
  | closeConn c => exact h
  | go g => exact ⟨h.isOpen, h.below, h.one_job⟩
  | _ => exact hd.elim

theorem joined_step (hd : Due s i c) (h : ∀ i j, tally (subscribes j) (s.own i) ≤
    tally (joins j) (s.own i)) (k : Nat) (j : String) :
    tally (subscribes j) ((s.after runtime i c o).own k) ≤
      tally (joins j) ((s.after runtime i c o).own k) := by
  by_cases hk : i = k
  · subst hk
    have hold := h i j
    simp only [own_after_self, tally_cons]
    cases c with
    | join c => exact Nat.le_trans (by simpa [subscribes] using hold) (Nat.le_add_left _ _)
    | subscribe j' channel =>
      simp only [subscribes, joins]
      by_cases hj : j' = j
      · subst hj
        simp only [Due, Subscribing] at hd
        rw [if_pos rfl]
        omega
      · rw [if_neg hj]
        omega
    | _ => simpa only [subscribes, joins, Nat.zero_add] using hold
  · rw [own_after_ne runtime s hk]
    exact h k j

theorem emptied_step (hd : Due s i c) (h : ∀ i j, tally (cleans j) (s.own i) ≤
    tally (empties j) (s.own i)) (k : Nat) (j : String) :
    tally (cleans j) ((s.after runtime i c o).own k) ≤
      tally (empties j) ((s.after runtime i c o).own k) := by
  by_cases hk : i = k
  · subst hk
    have hold := h i j
    simp only [own_after_self, tally_cons]
    cases c with
    | leave c => exact Nat.le_trans (by simpa [cleans] using hold) (Nat.le_add_left _ _)
    | cleanupSub j' =>
      simp only [cleans, empties]
      by_cases hj : j' = j
      · subst hj
        simp only [Due, Cleaning] at hd
        rw [if_pos rfl]
        omega
      · rw [if_neg hj]
        omega
    | _ => simpa only [cleans, empties, Nat.zero_add] using hold
  · rw [own_after_ne runtime s hk]
    exact h k j

/-- Only its own subscribing ends a thread's `Subscribing`. -/
theorem Subscribing.after {k : Nat} {j : String} (h : Subscribing s k j)
    (hc : ∀ channel, c ≠ .subscribe j channel) : Subscribing (s.after runtime i c o) k j := by
  unfold Subscribing at h ⊢
  by_cases hk : i = k
  · subst hk
    have hnone : subscribes j ⟨i, c, (runtime.answer o s.state c).1⟩ = 0 := by
      cases c with
      | subscribe j' channel => exact if_neg fun hj => hc channel (by rw [hj])
      | _ => rfl
    rw [own_after_self, tally_cons, tally_cons, hnone]
    omega
  · rwa [own_after_ne runtime s hk]

theorem Cleaning.after {k : Nat} {j : String} (h : Cleaning s k j)
    (hc : c ≠ .cleanupSub j) : Cleaning (s.after runtime i c o) k j := by
  unfold Cleaning at h ⊢
  by_cases hk : i = k
  · subst hk
    have hnone : cleans j ⟨i, c, (runtime.answer o s.state c).1⟩ = 0 := by
      cases c with
      | cleanupSub j' => exact if_neg fun hj => hc (by rw [hj])
      | _ => rfl
    rw [own_after_self, tally_cons, tally_cons, hnone]
    omega
  · rwa [own_after_ne runtime s hk]

/-- A job with clients has a subscription, or one of its clients is about to see to it. -/
theorem watched_step (hd : Due s i c) (hE : InTurn s i c o) (h : Good s) (j : String)
    (hj : (s.after runtime i c o).state.clientsOf j ≠ []) :
    (s.after runtime i c o).state.subs j ≠ none ∨
      ∃ k, Subscribing (s.after runtime i c o) k j := by
  have hkeep : (∀ channel, c ≠ .subscribe j channel) → s.state.clientsOf j ≠ [] →
      (answerHub o s.state c).2.subs j = s.state.subs j →
      (s.after runtime i c o).state.subs j ≠ none ∨
        ∃ k, Subscribing (s.after runtime i c o) k j := by
    intro hc hclients hsubs
    rcases h.watched j hclients with hsub | ⟨k, hk⟩
    · exact Or.inl (fun hnone => hsub (hsubs.symm.trans hnone))
    · exact Or.inr ⟨k, hk.after hc⟩
  simp only [Shot.after, runtime] at hj
  cases c with
  | join c =>
    by_cases hc : j = c.jobID
    · -- the client that joins is about to subscribe
      refine Or.inr ⟨i, ?_⟩
      have := h.joined i j
      simp only [Subscribing, own_after_self, tally_cons, subscribes, joins, hc, if_true] at this ⊢
      omega
    · refine hkeep (by simp) ?_ (congrFun (subs_join s.state c) j)
      rwa [← clientsOf_join_ne h.apart hc]
  | leave c =>
    refine hkeep (by simp) ?_ (congrFun (subs_leave s.state c) j)
    by_cases hc : j = c.jobID
    · subst hc
      rcases leave_cases s.state c with ⟨-, hempty⟩ | ⟨-, hempty, hsame⟩ | ⟨-, hclients, -⟩
      · exact absurd hempty hj
      · simp only [answerHub, hsame] at hj
        exact absurd hempty hj
      · exact hclients
    · rwa [← clientsOf_leave_ne h.apart hc]
  | subscribe jobID channel =>
    by_cases hc : j = jobID
    · subst hc
      exact Or.inl (subs_subscribe s.state j channel).1
    · refine hkeep (fun ch he => hc (Call.subscribe.inj he).1.symm) ?_
        ((subs_subscribe s.state jobID channel).2 j hc)
      rwa [← clientsOf_subscribe s.state jobID channel]
  | cleanupSub jobID =>
    simp only [answerHub, clientsOf_cleanupSub] at hj
    by_cases hc : j = jobID
    · subst hc
      rcases hE with hempty | ⟨k, hk⟩
      · exact absurd hempty hj
      · exact Or.inr ⟨k, hk.after (by simp)⟩
    · exact hkeep (by simp) hj ((subs_cleanupSub s.state jobID).2 j hc)
  | closeSend c => exact hkeep (by simp) hj rfl
  | closeConn c => exact hkeep (by simp) hj rfl
  | go g => exact hkeep (by simp) hj rfl
  | _ => exact hd.elim

/-- A subscription has a client, or the one that left last is about to tear it down. -/
theorem needed_step (hd : Due s i c) (hE : InTurn s i c o) (h : Good s) (j : String)
    (hj : (s.after runtime i c o).state.subs j ≠ none) :
    (s.after runtime i c o).state.clientsOf j ≠ [] ∨
      ∃ k, Cleaning (s.after runtime i c o) k j := by
  have hkeep : c ≠ .cleanupSub j → s.state.subs j ≠ none →
      (s.state.clientsOf j ≠ [] → (answerHub o s.state c).2.clientsOf j ≠ []) →
      (s.after runtime i c o).state.clientsOf j ≠ [] ∨
        ∃ k, Cleaning (s.after runtime i c o) k j := by
    intro hc hsub hclients
    rcases h.needed j hsub with hold | ⟨k, hk⟩
    · exact Or.inl (hclients hold)
    · exact Or.inr ⟨k, hk.after hc⟩
  simp only [Shot.after, runtime] at hj
  cases c with
  | join c =>
    simp only [answerHub, subs_join] at hj
    refine hkeep (by simp) hj fun hold => ?_
    by_cases hc : j = c.jobID
    · exact hc ▸ clientsOf_join_self s.state c
    · simpa only [answerHub, clientsOf_join_ne h.apart hc] using hold
  | leave c =>
    simp only [answerHub, subs_leave] at hj
    by_cases hc : j = c.jobID
    · subst hc
      rcases leave_cases s.state c with ⟨hempty, -⟩ | ⟨-, hnone, -⟩ | ⟨-, -, hclients⟩
      · -- the client that leaves is about to tear the subscription down
        refine Or.inr ⟨i, ?_⟩
        have := h.emptied i c.jobID
        have hlast : empties c.jobID ⟨i, .leave c, (runtime.answer o s.state (.leave c)).1⟩ = 1 := by
          simp only [empties, if_true, runtime, answerHub, hempty, Bool.toNat_true]
        simp only [Cleaning, own_after_self, tally_cons, cleans, hlast]
        omega
      · exact hkeep (by simp) hj fun hold => absurd hnone hold
      · exact Or.inl hclients
    · refine hkeep (by simp) hj fun hold => ?_
      simpa only [answerHub, clientsOf_leave_ne h.apart hc] using hold
  | subscribe jobID channel =>
    by_cases hc : j = jobID
    · subst hc
      rcases hE with hold | ⟨k, hk⟩
      · refine Or.inl ?_
        simpa only [Shot.after, runtime, answerHub, clientsOf_subscribe] using hold
      · exact Or.inr ⟨k, hk.after (by simp)⟩
    · refine hkeep (by simp) ?_ fun hold => ?_
      · rwa [← (subs_subscribe s.state jobID channel).2 j hc]
      · simpa only [answerHub, clientsOf_subscribe] using hold
  | cleanupSub jobID =>
    by_cases hc : j = jobID
    · subst hc
      exact absurd (subs_cleanupSub s.state j).1 hj
    · refine hkeep (fun he => hc (Call.cleanupSub.inj he).symm) ?_ fun hold => ?_
      · rwa [← (subs_cleanupSub s.state jobID).2 j hc]
      · simpa only [answerHub, clientsOf_cleanupSub] using hold
  | closeSend c => exact hkeep (by simp) hj id
  | closeConn c => exact hkeep (by simp) hj id
  | go g => exact hkeep (by simp) hj id
  | _ => exact hd.elim

theorem good_step (hd : Due s i c) (hE : InTurn s i c o) (h : Good s) :
    Good (s.after runtime i c o) where
  apart := apart_step hd h.apart
  held := held_step hd h.held
  joined := joined_step hd h.joined
  emptied := emptied_step hd h.emptied
  watched := watched_step hd hE h
  needed := needed_step hd hE h

end Step

theorem good_start (visits : List Visit) : Good (start visits).shot where
  apart := ⟨nofun, nofun⟩
  held := ⟨nofun, nofun, nofun⟩
  joined _ _ := Nat.le_refl _
  emptied _ _ := Nat.le_refl _
  watched _ hj := absurd rfl hj
  needed _ hj := absurd rfl hj

/-! ## The law -/

/-- In every run whose steps are in turn, once no call is in progress, the hub holds an open
subscription for a job exactly if the job has a client. -/
theorem a_job_is_subscribed_exactly_while_it_is_watched (visits : List Visit)
    (picks : List (Nat × Outcome)) (h : Allowed runtime InTurn picks (start visits))
    (hquiet : Quiet (schedule runtime picks (start visits))) (jobID : String) :
    let s := (schedule runtime picks (start visits)).shot.state
    Holds s jobID ↔ s.clientsOf jobID ≠ [] := by
  intro s
  obtain ⟨hsafe, hgood⟩ := dues_schedule (fun _ _ _ _ hE hd hs => good_step hd hE hs)
    (all_settle visits) (good_start visits) h
  have hset : ∀ k, Settled (schedule runtime picks (start visits)).shot k := by
    intro k
    by_cases hown : (schedule runtime picks (start visits)).shot.own k = []
    · exact ⟨fun _ => by rw [hown]; rfl, fun _ => by rw [hown]; rfl⟩
    · exact allSafe_done hsafe (hquiet k hown)
  constructor
  · rintro ⟨ps, hps, -⟩
    refine (hgood.needed jobID (by rw [hps]; nofun)).resolve_right ?_
    rintro ⟨k, hk⟩
    exact absurd ((hset k).cleaned jobID) (Nat.ne_of_lt hk)
  · intro hclients
    have hsub := (hgood.watched jobID hclients).resolve_right (by
      rintro ⟨k, hk⟩
      exact absurd ((hset k).subscribed jobID) (Nat.ne_of_lt hk))
    obtain ⟨ps, hps⟩ := Option.ne_none_iff_exists'.mp hsub
    exact ⟨ps, hps, hgood.held.isOpen jobID ps hps⟩

/-- A client comes while the last one goes: it joins before the teardown and subscribes after. -/
def oneHandover : List (Nat × Outcome) :=
  [(0, {}), (0, {}), (0, {}), (1, {}), (2, {}), (1, {}), (1, {}), (1, {}), (2, {}), (2, {})]

def twoClients : List Visit :=
  [.register ⟨1, "j"⟩, .unregister ⟨1, "j"⟩, .register ⟨2, "j"⟩]

theorem a_job_is_subscribed_after_a_handover :
    let s := (schedule runtime oneHandover (start twoClients)).shot.state
    Holds s "j" ↔ s.clientsOf "j" ≠ [] :=
  a_job_is_subscribed_exactly_while_it_is_watched twoClients oneHandover
    (by
      unfold oneHandover twoClients
      with_unfolding_all exact ⟨trivial, Or.inl nofun, trivial, trivial, trivial, trivial, trivial,
        Or.inr ⟨2, Nat.le.refl⟩, Or.inl nofun, trivial, trivial⟩)
    (by
      unfold oneHandover twoClients
      intro i hi
      match i with
      | 0 => with_unfolding_all rfl
      | 1 => with_unfolding_all rfl
      | 2 => with_unfolding_all rfl
      | n + 3 => with_unfolding_all exact absurd rfl hi)
    "j"

/-- The teardown comes last: it takes away the subscription that the new client found. -/
def lateTeardown : List (Nat × Outcome) :=
  [(0, {}), (0, {}), (0, {}), (1, {}), (2, {}), (2, {}), (1, {}), (1, {}), (1, {})]

theorem a_late_teardown_takes_the_subscription :
    ¬ ∀ (visits : List Visit) (picks : List (Nat × Outcome)),
      Quiet (schedule runtime picks (start visits)) → ∀ jobID,
        let s := (schedule runtime picks (start visits)).shot.state
        Holds s jobID ↔ s.clientsOf jobID ≠ [] := by
  intro h
  have hrun := h twoClients lateTeardown (by
      unfold lateTeardown twoClients
      intro i hi
      match i with
      | 0 => with_unfolding_all rfl
      | 1 => with_unfolding_all rfl
      | 2 => with_unfolding_all rfl
      | n + 3 => with_unfolding_all exact absurd rfl hi) "j"
  have hclients : (schedule runtime lateTeardown
      (start twoClients)).shot.state.clientsOf "j" = [⟨2, "j"⟩] := by
    with_unfolding_all rfl
  have hsub : (schedule runtime lateTeardown (start twoClients)).shot.state.subs "j" = none := by
    with_unfolding_all rfl
  obtain ⟨ps, hps, -⟩ := hrun.mpr (by rw [hclients]; nofun)
  rw [hsub] at hps
  cases hps

end recast_rules.hub.subscriptions
