-- Many programs that run at once over one state. One step answers one call
-- of one program, so a schedule is a list of picks, and every interleaving
-- is some list of picks. A program that is never picked again has crashed.
import Mathlib.Algebra.BigOperators.Group.Finset.Piecewise
import Mathlib.Algebra.GroupWithZero.Nat
import Mathlib.Algebra.Order.BigOperators.Group.Finset
import RecastAi.CallPrograms

namespace call_programs

variable {C : Type} {A : C → Type} {σ O α β : Type}

/-- One call that was answered: who made it, and what the answer was. -/
structure Event (C : Type) (A : C → Type) where
  thread : Nat
  call : C
  answer : A call

/-- The state, and the calls answered so far, newest first. -/
structure Shot (C : Type) (A : C → Type) (σ : Type) where
  state : σ
  log : List (Event C A)

structure Config (C : Type) (A : C → Type) (σ α : Type) where
  shot : Shot C A σ
  threads : List (Prog C A α)

/-- The state and the log after thread `i` had its call answered. -/
def Shot.after (w : World C A σ O) (s : Shot C A σ) (i : Nat) (c : C) (o : O) : Shot C A σ :=
  ⟨(w.answer o s.state c).2, ⟨i, c, (w.answer o s.state c).1⟩ :: s.log⟩

theorem Shot.log_after (w : World C A σ O) (s : Shot C A σ) (i : Nat) (c : C) (o : O) :
    s.log <:+ (s.after w i c o).log := List.suffix_cons _ _

/-- What is in the log after a step is the call of this step, or it was there before. -/
theorem Shot.mem_after {w : World C A σ O} {s : Shot C A σ} {i : Nat} {c : C} {o : O}
    {e : Event C A} : e ∈ (s.after w i c o).log ↔
      e = ⟨i, c, (w.answer o s.state c).1⟩ ∨ e ∈ s.log := List.mem_cons

/-- One step: the picked thread has its call answered. A pick of a thread that is done, or
that is not there, changes nothing. -/
def advance (w : World C A σ O) (cfg : Config C A σ α) (pick : Nat × O) : Config C A σ α :=
  match cfg.threads[pick.1]? with
  | some (.call c k) =>
    { shot := cfg.shot.after w pick.1 c pick.2
      threads := cfg.threads.set pick.1 (k (w.answer pick.2 cfg.shot.state c).1) }
  | _ => cfg

def schedule (w : World C A σ O) : List (Nat × O) → Config C A σ α → Config C A σ α
  | [], cfg => cfg
  | pick :: picks, cfg => schedule w picks (advance w cfg pick)

/-- The step of the pick is one that `E` admits. -/
def StepMeets (E : Shot C A σ → Nat → C → O → Prop) (cfg : Config C A σ α) (pick : Nat × O) :
    Prop :=
  match cfg.threads[pick.1]? with
  | some (.call c _) => E cfg.shot pick.1 c pick.2
  | _ => True

/-- Each step of the schedule is one that `E` admits. -/
def Allowed (w : World C A σ O) (E : Shot C A σ → Nat → C → O → Prop) :
    List (Nat × O) → Config C A σ α → Prop
  | [], _ => True
  | pick :: picks, cfg => StepMeets E cfg pick ∧ Allowed w E picks (advance w cfg pick)

theorem schedule_append (w : World C A σ O) (ps qs : List (Nat × O)) (cfg : Config C A σ α) :
    schedule w (ps ++ qs) cfg = schedule w qs (schedule w ps cfg) := by
  induction ps generalizing cfg with
  | nil => rfl
  | cons p ps ih => exact ih _

theorem allowed_append (w : World C A σ O) (E : Shot C A σ → Nat → C → O → Prop)
    (ps qs : List (Nat × O)) (cfg : Config C A σ α) :
    Allowed w E (ps ++ qs) cfg ↔ Allowed w E ps cfg ∧ Allowed w E qs (schedule w ps cfg) := by
  induction ps generalizing cfg with
  | nil => simp [Allowed, schedule]
  | cons p ps ih => simp only [List.cons_append, Allowed, schedule, ih, and_assoc]

theorem allowed_true (w : World C A σ O) (ps : List (Nat × O)) (cfg : Config C A σ α) :
    Allowed w (fun _ _ _ _ => True) ps cfg := by
  induction ps generalizing cfg with
  | nil => trivial
  | cons p ps ih =>
    refine ⟨?_, ih _⟩
    unfold StepMeets
    split <;> trivial

/-- What a step does: it answers a call of one thread, or it changes nothing. -/
theorem advance_cases (w : World C A σ O) (cfg : Config C A σ α) (pick : Nat × O) :
    advance w cfg pick = cfg ∨
      ∃ c k, cfg.threads[pick.1]? = some (.call c k) ∧
        advance w cfg pick =
          ⟨cfg.shot.after w pick.1 c pick.2,
            cfg.threads.set pick.1 (k (w.answer pick.2 cfg.shot.state c).1)⟩ := by
  unfold advance
  split
  · rename_i c k h
    exact Or.inr ⟨c, k, h, rfl⟩
  · exact Or.inl rfl

@[simp] theorem advance_length (w : World C A σ O) (cfg : Config C A σ α) (pick : Nat × O) :
    (advance w cfg pick).threads.length = cfg.threads.length := by
  rcases advance_cases w cfg pick with h | ⟨c, k, -, h⟩
  · rw [h]
  · simp [h]

/-- Picks of one thread alone are a run of its program. -/
theorem schedule_alone (w : World C A σ O) {cfg : Config C A σ α} {i : Nat} {p : Prog C A α}
    (h : cfg.threads[i]? = some p) (os : List O) :
    (schedule w (os.map fun o => (i, o)) cfg).shot.state = (run w os (p, cfg.shot.state)).2 ∧
      (schedule w (os.map fun o => (i, o)) cfg).threads =
        cfg.threads.set i (run w os (p, cfg.shot.state)).1 := by
  induction os generalizing cfg p with
  | nil =>
    obtain ⟨hlt, rfl⟩ := List.getElem?_eq_some_iff.mp h
    exact ⟨rfl, (List.set_getElem_self hlt).symm⟩
  | cons o os ih =>
    obtain ⟨hlt, -⟩ := List.getElem?_eq_some_iff.mp h
    rw [List.map_cons]
    unfold schedule advance
    dsimp only
    rw [h]
    cases p with
    | done a =>
      rw [run_done]
      have hdone := ih h
      rwa [run_done] at hdone
    | call c k =>
      have hnext : (cfg.threads.set i (k (w.answer o cfg.shot.state c).1))[i]? =
          some (k (w.answer o cfg.shot.state c).1) := List.getElem?_set_self hlt
      obtain ⟨hstate, hthreads⟩ := @ih ⟨cfg.shot.after w i c o, _⟩ _ hnext
      rw [List.set_set] at hthreads
      exact ⟨hstate, hthreads⟩

/-- What every call of a kind keeps stays true, where the programs make only such calls. -/
theorem only_schedule {w : World C A σ O} {P : C → Prop} {I : σ → Prop} {cfg : Config C A σ α}
    (hstep : ∀ s c o, P c → I s → I (w.answer o s c).2)
    (hp : ∀ p ∈ cfg.threads, p.Only P fun _ => True) (h0 : I cfg.shot.state)
    (picks : List (Nat × O)) : I (schedule w picks cfg).shot.state := by
  induction picks generalizing cfg with
  | nil => exact h0
  | cons pick picks ih =>
    rcases advance_cases w cfg pick with h | ⟨c, k, hth, h⟩
    · unfold schedule
      rw [h]
      exact ih hp h0
    · have hcall : (Prog.call c k).Only P fun _ => True := hp _ (List.mem_of_getElem? hth)
      unfold schedule
      rw [h]
      refine ih (fun p hmem => ?_) (hstep _ _ _ hcall.1 h0)
      rcases List.mem_or_eq_of_mem_set hmem with hmem | rfl
      · exact hp p hmem
      · exact hcall.2 _

/-- Each thread has made calls of its own kind only. -/
theorem log_only {w : World C A σ O} {P : Nat → C → Prop} {cfg : Config C A σ α}
    (hp : ∀ i (p : Prog C A α), cfg.threads[i]? = some p → p.Only (P i) fun _ => True)
    (hlog : ∀ e ∈ cfg.shot.log, P e.thread e.call) (picks : List (Nat × O)) :
    ∀ e ∈ (schedule w picks cfg).shot.log, P e.thread e.call := by
  induction picks generalizing cfg with
  | nil => exact hlog
  | cons pick picks ih =>
    rcases advance_cases w cfg pick with h | ⟨c, k, hth, h⟩
    · unfold schedule
      rw [h]
      exact ih hp hlog
    · have hcall := hp _ _ hth
      unfold schedule
      rw [h]
      refine ih (fun i p hi => ?_) ?_
      · by_cases hip : pick.1 = i
        · subst hip
          have hlt : pick.1 < cfg.threads.length := (List.getElem?_eq_some_iff.mp hth).1
          simp only [List.getElem?_set_self hlt, Option.some.injEq] at hi
          exact hi ▸ hcall.2 _
        · simp only [List.getElem?_set_ne hip] at hi
          exact hp i p hi
      · exact List.forall_mem_cons.mpr ⟨hcall.1, hlog⟩

/-! ## Rely and guarantee

Each thread promises what its own steps do (`guar`), and it is proved under what the steps
of the others may do (`rely`). -/

structure Pact (S : Type) where
  guar : Nat → S → S → Prop
  rely : Nat → S → S → Prop
  rely_refl : ∀ i s, rely i s s
  rely_trans : ∀ i s s' s'', rely i s s' → rely i s' s'' → rely i s s''
  guar_rely : ∀ i j s s', i ≠ j → guar j s s' → rely i s s'

variable (w : World C A σ O) (E : Shot C A σ → Nat → C → O → Prop) (pact : Pact (Shot C A σ))

/-- Thread `i` runs `p` from `s` on: each step keeps its promise, and the thread ends with
`Q`, whatever the others do between its steps. -/
def safe (i : Nat) : Prog C A α → (α → Shot C A σ → Prop) → Shot C A σ → Prop
  | .done a, Q, s => ∀ s', pact.rely i s s' → Q a s'
  | .call c k, Q, s => ∀ s', pact.rely i s s' → ∀ o, E s' i c o →
      pact.guar i s' (s'.after w i c o) ∧
        safe i (k (w.answer o s'.state c).1) Q (s'.after w i c o)

variable {w E pact}

theorem safe_rely {i : Nat} {p : Prog C A α} {Q : α → Shot C A σ → Prop} {s s' : Shot C A σ}
    (h : safe w E pact i p Q s) (hr : pact.rely i s s') : safe w E pact i p Q s' := by
  cases p with
  | done a => exact fun t ht => h t (pact.rely_trans _ _ _ _ hr ht)
  | call c k => exact fun t ht => h t (pact.rely_trans _ _ _ _ hr ht)

theorem safe_mono {i : Nat} {p : Prog C A α} {Q Q' : α → Shot C A σ → Prop} {s : Shot C A σ}
    (h : safe w E pact i p Q s) (hQ : ∀ a s, Q a s → Q' a s) : safe w E pact i p Q' s := by
  induction p generalizing s with
  | done a => exact fun s' hr => hQ a s' (h s' hr)
  | call c k ih => exact fun s' hr o ho => ⟨(h s' hr o ho).1, ih _ (h s' hr o ho).2⟩

theorem safe_bind {i : Nat} {p : Prog C A α} {f : α → Prog C A β} {Q : β → Shot C A σ → Prop}
    {s : Shot C A σ} (h : safe w E pact i p (fun a s => safe w E pact i (f a) Q s) s) :
    safe w E pact i (p >>= f) Q s := by
  induction p generalizing s with
  | done a => exact h s (pact.rely_refl i s)
  | call c k ih => exact fun s' hr o ho => ⟨(h s' hr o ho).1, ih _ (h s' hr o ho).2⟩

/-- A program that makes only calls of one kind keeps what these calls keep. -/
theorem safe_only {i : Nat} {P : C → Prop} {R : α → Prop} {J : Shot C A σ → Prop}
    {p : Prog C A α} {s : Shot C A σ} (hp : p.Only P R) (hJ : J s)
    (hrely : ∀ s s', pact.rely i s s' → J s → J s')
    (hstep : ∀ s c o, P c → E s i c o → J s →
      pact.guar i s (s.after w i c o) ∧ J (s.after w i c o)) :
    safe w E pact i p (fun a s => R a ∧ J s) s := by
  induction p generalizing s with
  | done a => exact fun s' hr => ⟨hp, hrely s s' hr hJ⟩
  | call c k ih =>
    intro s' hr o ho
    obtain ⟨hg, hJ'⟩ := hstep s' c o hp.1 ho (hrely s s' hr hJ)
    exact ⟨hg, ih _ (hp.2 _) hJ'⟩

/-- `safe` for a program that may give up: `F` holds where it does. -/
def tries (w : World C A σ O) (E : Shot C A σ → Nat → C → O → Prop)
    (pact : Pact (Shot C A σ)) {R : Type} (i : Nat) (p : Attempt C A R α)
    (F : R → Shot C A σ → Prop) (Q : α → Shot C A σ → Prop) (s : Shot C A σ) : Prop :=
  safe w E pact i p.run (fun x s => match x with
    | .error e => F e s
    | .ok a => Q a s) s

section Tries

variable {R ε : Type} {i : Nat} {F : R → Shot C A σ → Prop} {Q : α → Shot C A σ → Prop}
  {s : Shot C A σ}

theorem tries_bind {p : Attempt C A R α} {f : α → Attempt C A R β} {Q : β → Shot C A σ → Prop}
    (h : tries w E pact i p F (fun a s => tries w E pact i (f a) F Q s) s) :
    tries w E pact i (p >>= f) F Q s := by
  change safe w E pact i p.run _ s at h
  change safe w E pact i (p.run >>= ExceptT.bindCont f) _ s
  generalize p.run = q at h
  induction q generalizing s with
  | done x =>
    cases x with
    | error e => exact h
    | ok a => exact h s (pact.rely_refl i s)
  | call c k ih => exact fun s' hr o ho => ⟨(h s' hr o ho).1, ih _ (h s' hr o ho).2⟩

theorem tries_lift {p : Prog C A α} (h : safe w E pact i p Q s) :
    tries w E pact i (ExceptT.lift p : Attempt C A R α) F Q s := by
  change safe w E pact i (p >>= fun a => Prog.done (Except.ok a : Except R α)) _ s
  induction p generalizing s with
  | done a => exact h
  | call c k ih => exact fun s' hr o ho => ⟨(h s' hr o ho).1, ih _ (h s' hr o ho).2⟩

theorem tries_orGiveUp {p : Prog C A (Except ε α)} {r : ε → R}
    (h : safe w E pact i p (fun x s => match x with
      | .error e => F (r e) s
      | .ok a => Q a s) s) :
    tries w E pact i (p.orGiveUp r) F Q s := by
  change safe w E pact i (p >>= _) _ s
  induction p generalizing s with
  | done x =>
    cases x with
    | error e => exact h
    | ok a => exact h
  | call c k ih => exact fun s' hr o ho => ⟨(h s' hr o ho).1, ih _ (h s' hr o ho).2⟩

theorem tries_mono {p : Attempt C A R α} {F' : R → Shot C A σ → Prop}
    {Q' : α → Shot C A σ → Prop} (h : tries w E pact i p F Q s)
    (hF : ∀ e s, F e s → F' e s) (hQ : ∀ a s, Q a s → Q' a s) : tries w E pact i p F' Q' s := by
  refine safe_mono h fun x s hx => ?_
  cases x with
  | error e => exact hF e s hx
  | ok a => exact hQ a s hx

theorem safe_finish {p : Attempt C A α α} (h : tries w E pact i p Q Q s) :
    safe w E pact i p.finish Q s := by
  change safe w E pact i p.run _ s at h
  change safe w E pact i (p.run >>= _) _ s
  generalize p.run = q at h
  induction q generalizing s with
  | done x =>
    cases x with
    | error e => exact h
    | ok a => exact h
  | call c k ih => exact fun s' hr o ho => ⟨(h s' hr o ho).1, ih _ (h s' hr o ho).2⟩

end Tries

/-- Every thread of the configuration is safe, each with its own `Q`. -/
def AllSafe (w : World C A σ O) (E : Shot C A σ → Nat → C → O → Prop)
    (pact : Pact (Shot C A σ)) (Q : Nat → α → Shot C A σ → Prop) (cfg : Config C A σ α) : Prop :=
  ∀ i p, cfg.threads[i]? = some p → safe w E pact i p (Q i) cfg.shot

theorem allSafe_advance {Q : Nat → α → Shot C A σ → Prop} {cfg : Config C A σ α}
    {pick : Nat × O} (h : AllSafe w E pact Q cfg) (hE : StepMeets E cfg pick) :
    AllSafe w E pact Q (advance w cfg pick) ∧
      (advance w cfg pick = cfg ∨ pact.guar pick.1 cfg.shot (advance w cfg pick).shot) := by
  rcases advance_cases w cfg pick with he | ⟨c, k, hth, he⟩
  · rw [he]
    exact ⟨h, Or.inl rfl⟩
  · have hm : E cfg.shot pick.1 c pick.2 := by simpa only [StepMeets, hth] using hE
    obtain ⟨hg, hs⟩ := h _ _ hth cfg.shot (pact.rely_refl _ _) pick.2 hm
    rw [he]
    refine ⟨?_, Or.inr hg⟩
    intro i p hi
    by_cases hip : pick.1 = i
    · subst hip
      have hlt : pick.1 < cfg.threads.length := (List.getElem?_eq_some_iff.mp hth).1
      simp only [List.getElem?_set_self hlt, Option.some.injEq] at hi
      exact hi ▸ hs
    · simp only [List.getElem?_set_ne hip] at hi
      exact safe_rely (h i p hi) (pact.guar_rely _ _ _ _ (Ne.symm hip) hg)

/-- The run lemma: along a schedule the threads stay safe, and what every promise keeps
stays true. -/
theorem allSafe_schedule {Q : Nat → α → Shot C A σ → Prop} {I : Shot C A σ → Prop}
    (hI : ∀ i s s', pact.guar i s s' → I s → I s') {picks : List (Nat × O)}
    {cfg : Config C A σ α} (h : AllSafe w E pact Q cfg) (h0 : I cfg.shot)
    (hE : Allowed w E picks cfg) :
    AllSafe w E pact Q (schedule w picks cfg) ∧ I (schedule w picks cfg).shot := by
  induction picks generalizing cfg with
  | nil => exact ⟨h, h0⟩
  | cons pick picks ih =>
    obtain ⟨hs, hg⟩ := allSafe_advance h hE.1
    refine ih hs ?_ hE.2
    rcases hg with hg | hg
    · rw [hg]; exact h0
    · exact hI _ _ _ hg h0

theorem allSafe_done {Q : Nat → α → Shot C A σ → Prop} {cfg : Config C A σ α} {i : Nat} {a : α}
    (h : AllSafe w E pact Q cfg) (hd : cfg.threads[i]? = some (.done a)) : Q i a cfg.shot :=
  h i _ hd _ (pact.rely_refl _ _)

/-! ## Calls that are due

Often what a thread may do next is told by what was answered before: it publishes what it
claimed, it marks what it published. Then each thread is proved once to make only calls that
are due, and every invariant follows from one step of due calls. -/

/-- The calls that were answered to thread `i`, newest first. -/
def Shot.own (s : Shot C A σ) (i : Nat) : List (Event C A) := s.log.filter (·.thread = i)

/-- Nothing happened to thread `i` in between, and no call is forgotten. -/
structure Later (i : Nat) (s s' : Shot C A σ) : Prop where
  log : s.log <:+ s'.log
  own : s'.own i = s.own i

theorem own_after_self (w : World C A σ O) (s : Shot C A σ) (i : Nat) (c : C) (o : O) :
    (s.after w i c o).own i = ⟨i, c, (w.answer o s.state c).1⟩ :: s.own i := by
  simp [Shot.own, Shot.after]

theorem own_after_ne (w : World C A σ O) (s : Shot C A σ) {i j : Nat} (h : j ≠ i) (c : C) (o : O) :
    (s.after w j c o).own i = s.own i := by
  simp [Shot.own, Shot.after, h]

theorem mem_own {s : Shot C A σ} {i : Nat} {e : Event C A} :
    e ∈ s.own i ↔ e ∈ s.log ∧ e.thread = i := by
  simp [Shot.own]

/-- What the log gained in between is none of thread `i`. -/
theorem Later.gained {i : Nat} {s s' : Shot C A σ} (h : Later i s s') :
    ∃ new, s'.log = new ++ s.log ∧ ∀ e ∈ new, e.thread ≠ i := by
  obtain ⟨new, hnew⟩ := h.log
  refine ⟨new, hnew.symm, fun e he hi => ?_⟩
  have hown := h.own
  unfold Shot.own at hown
  rw [← hnew, List.filter_append] at hown
  have hnil : new.filter (·.thread = i) = [] :=
    List.append_left_eq_self.mp hown
  have hmem : e ∈ new.filter (·.thread = i) := List.mem_filter.mpr ⟨he, by simpa using hi⟩
  rw [hnil] at hmem
  cases hmem

def dues (w : World C A σ O) (E : Shot C A σ → Nat → C → O → Prop)
    (Due : Shot C A σ → Nat → C → Prop) : Pact (Shot C A σ) where
  guar i s s' := ∃ c o, E s i c o ∧ Due s i c ∧ s' = s.after w i c o
  rely i := Later i
  rely_refl _ _ := ⟨List.suffix_rfl, rfl⟩
  rely_trans _ _ _ _ h h' := ⟨h.log.trans h'.log, h'.own.trans h.own⟩
  guar_rely := by
    rintro i j s s' hij ⟨c, o, -, -, rfl⟩
    exact ⟨List.suffix_cons _ _, own_after_ne w s (Ne.symm hij) c o⟩

variable {Due : Shot C A σ → Nat → C → Prop}

theorem safe_due {i : Nat} {c : C} {k : A c → Prog C A α} {Q : α → Shot C A σ → Prop}
    {s : Shot C A σ} (hdue : ∀ s', Later i s s' → Due s' i c)
    (hk : ∀ s' o, Later i s s' → E s' i c o →
      safe w E (dues w E Due) i (k (w.answer o s'.state c).1) Q (s'.after w i c o)) :
    safe w E (dues w E Due) i (.call c k) Q s :=
  fun s' hr o ho => ⟨⟨c, o, ho, hdue s' hr, rfl⟩, hk s' o hr ho⟩

/-- What every due call keeps is true along a schedule. -/
theorem dues_schedule {Q : Nat → α → Shot C A σ → Prop} {I : Shot C A σ → Prop}
    (hI : ∀ s i c o, E s i c o → Due s i c → I s → I (s.after w i c o))
    {picks : List (Nat × O)} {cfg : Config C A σ α} (h : AllSafe w E (dues w E Due) Q cfg)
    (h0 : I cfg.shot) (hE : Allowed w E picks cfg) :
    AllSafe w E (dues w E Due) Q (schedule w picks cfg) ∧ I (schedule w picks cfg).shot := by
  refine allSafe_schedule ?_ h h0 hE
  rintro i s s' ⟨c, o, ho, hd, rfl⟩ hs
  exact hI s i c o ho hd hs

/-! ## Two runs

The threads below `n` watch. Two states that are alike look the same to them, and the steps of
the other threads lead to alike states. Then the watchers take the same course in any two runs
in which they are picked alike, whatever the others are and do. -/

section TwoRuns

variable {n : Nat} {alike : σ → σ → Prop} {Q : Nat → α → Shot C A σ → Prop}

/-- The picks of the threads that watch. -/
def watched (n : Nat) (picks : List (Nat × O)) : List (Nat × O) := picks.filter (·.1 < n)

/-- The threads that watch are equally far, in alike states. -/
structure Abreast (n : Nat) (alike : σ → σ → Prop) (cfg cfg' : Config C A σ α) : Prop where
  threads : ∀ i, i < n → cfg.threads[i]? = cfg'.threads[i]?
  state : alike cfg.shot.state cfg'.shot.state

theorem Abreast.symm {cfg cfg' : Config C A σ α} (hsymm : ∀ s s', alike s s' → alike s' s)
    (h : Abreast n alike cfg cfg') : Abreast n alike cfg' cfg :=
  ⟨fun i hi => (h.threads i hi).symm, hsymm _ _ h.state⟩

/-- The next call of a safe thread is due. -/
theorem allSafe_due {cfg : Config C A σ α} {i : Nat} {c : C} {k : A c → Prog C A α} {o : O}
    (h : AllSafe w E (dues w E Due) Q cfg) (hth : cfg.threads[i]? = some (.call c k))
    (ho : E cfg.shot i c o) : Due cfg.shot i c := by
  obtain ⟨⟨c', o', -, hdue, hs⟩, -⟩ := h i _ hth cfg.shot ((dues w E Due).rely_refl _ _) o ho
  have hlog := congrArg Shot.log hs
  unfold Shot.after at hlog
  simp only [List.cons.injEq, Event.mk.injEq] at hlog
  rw [hlog.1.2.1]
  exact hdue

/-- A step of a thread that does not watch is not seen. -/
theorem abreast_aside {cfg cfg' : Config C A σ α} {pick : Nat × O}
    (hothers : ∀ s i c o, n ≤ i → E s i c o → Due s i c → alike (w.answer o s.state c).2 s.state)
    (htrans : ∀ s s' s'', alike s s' → alike s' s'' → alike s s'')
    (hsafe : AllSafe w E (dues w E Due) Q cfg) (hE : StepMeets E cfg pick) (hn : n ≤ pick.1)
    (h : Abreast n alike cfg cfg') : Abreast n alike (advance w cfg pick) cfg' := by
  rcases advance_cases w cfg pick with he | ⟨c, k, hth, he⟩
  · rw [he]
    exact h
  · have hm : E cfg.shot pick.1 c pick.2 := by simpa only [StepMeets, hth] using hE
    rw [he]
    constructor
    · intro i hi
      have hne : pick.1 ≠ i := by omega
      rw [List.getElem?_set_ne hne]
      exact h.threads i hi
    · exact htrans _ _ _ (hothers _ _ _ _ hn hm (allSafe_due hsafe hth hm)) h.state

/-- The same step of a thread that watches, in both runs. -/
theorem abreast_both {cfg cfg' : Config C A σ α} {pick : Nat × O}
    (hwatch : ∀ (s s' : Shot C A σ) i c o, i < n → Due s i c → alike s.state s'.state →
      (w.answer o s.state c).1 = (w.answer o s'.state c).1 ∧
        alike (w.answer o s.state c).2 (w.answer o s'.state c).2)
    (hsafe : AllSafe w E (dues w E Due) Q cfg) (hE : StepMeets E cfg pick) (hn : pick.1 < n)
    (h : Abreast n alike cfg cfg') :
    Abreast n alike (advance w cfg pick) (advance w cfg' pick) := by
  have hsame := h.threads pick.1 hn
  unfold advance
  rw [← hsame]
  split
  · rename_i c k hth
    have hm : E cfg.shot pick.1 c pick.2 := by simpa only [StepMeets, hth] using hE
    obtain ⟨hans, hal⟩ := hwatch _ cfg'.shot _ _ pick.2 hn (allSafe_due hsafe hth hm) h.state
    refine ⟨fun i hi => ?_, hal⟩
    by_cases hi' : pick.1 = i
    · subst hi'
      have hlt : pick.1 < cfg.threads.length := (List.getElem?_eq_some_iff.mp hth).1
      have hlt' : pick.1 < cfg'.threads.length :=
        (List.getElem?_eq_some_iff.mp (hsame.symm.trans hth)).1
      rw [List.getElem?_set_self hlt, List.getElem?_set_self hlt', hans]
    · rw [List.getElem?_set_ne hi', List.getElem?_set_ne hi']
      exact h.threads i hi
  · exact h

/-- The threads that watch stay abreast in two runs that pick them alike. -/
theorem abreast_schedule
    (hwatch : ∀ (s s' : Shot C A σ) i c o, i < n → Due s i c → alike s.state s'.state →
      (w.answer o s.state c).1 = (w.answer o s'.state c).1 ∧
        alike (w.answer o s.state c).2 (w.answer o s'.state c).2)
    (hothers : ∀ s i c o, n ≤ i → E s i c o → Due s i c → alike (w.answer o s.state c).2 s.state)
    (hsymm : ∀ s s', alike s s' → alike s' s)
    (htrans : ∀ s s' s'', alike s s' → alike s' s'' → alike s s'')
    {picks picks' : List (Nat × O)} {cfg cfg' : Config C A σ α}
    (hsafe : AllSafe w E (dues w E Due) Q cfg) (hsafe' : AllSafe w E (dues w E Due) Q cfg')
    (hE : Allowed w E picks cfg) (hE' : Allowed w E picks' cfg')
    (hpicks : watched n picks = watched n picks') (h : Abreast n alike cfg cfg') :
    Abreast n alike (schedule w picks cfg) (schedule w picks' cfg') := by
  induction picks generalizing picks' cfg cfg' with
  | nil =>
    induction picks' generalizing cfg' with
    | nil => exact h
    | cons p' ps' ih' =>
      have hp' : n ≤ p'.1 := by
        by_contra hlt
        have hlt' : p'.1 < n := by omega
        simp [watched, hlt'] at hpicks
      refine ih' (allSafe_advance hsafe' hE'.1).1 hE'.2 ?_ ?_
      · have : ¬p'.1 < n := by omega
        simpa [watched, this] using hpicks
      · exact (abreast_aside hothers htrans hsafe' hE'.1 hp' (h.symm hsymm)).symm hsymm
  | cons p ps ih =>
    have hs := (allSafe_advance hsafe hE.1).1
    by_cases hp : p.1 < n
    · -- the other run comes to the same step after some that are not seen
      induction picks' generalizing cfg' with
      | nil => simp [watched, hp] at hpicks
      | cons p' ps' ih' =>
        have hs' := (allSafe_advance hsafe' hE'.1).1
        by_cases hp' : p'.1 < n
        · simp only [watched, List.filter_cons, hp, hp', decide_true, if_true,
            List.cons.injEq] at hpicks
          obtain ⟨rfl, hrest⟩ := hpicks
          have hboth := ih hs hs' hE.2 hE'.2 hrest (abreast_both hwatch hsafe hE.1 hp h)
          exact hboth
        · refine ih' hs' hE'.2 ?_ ?_
          · simpa [watched, hp, hp'] using hpicks
          · exact (abreast_aside hothers htrans hsafe' hE'.1 (by omega) (h.symm hsymm)).symm hsymm
    · refine ih hs hsafe' hE.2 hE' ?_ ?_
      · simpa [watched, hp] using hpicks
      · exact abreast_aside hothers htrans hsafe hE.1 (by omega) h

end TwoRuns

/-! ## Tallies

How often something is told by the log, as a sum over its calls. -/

def tally (f : Event C A → Nat) (log : List (Event C A)) : Nat := (log.map f).sum

@[simp] theorem tally_nil (f : Event C A → Nat) : tally f [] = 0 := rfl

@[simp] theorem tally_cons (f : Event C A → Nat) (e : Event C A) (log : List (Event C A)) :
    tally f (e :: log) = f e + tally f log := by
  simp [tally]

/-- The log is what the threads were answered, so a tally is the sum of theirs. -/
theorem tally_own (f : Event C A → Nat) (s : Shot C A σ) (threads : Finset Nat)
    (h : ∀ e ∈ s.log, e.thread ∈ threads) :
    tally f s.log = ∑ i ∈ threads, tally f (s.own i) := by
  unfold Shot.own
  generalize s.log = log at h
  induction log with
  | nil => simp
  | cons e log ih =>
    have hsum : ∀ i, tally f ((e :: log).filter (·.thread = i)) =
        (if e.thread = i then f e else 0) + tally f (log.filter (·.thread = i)) := by
      intro i
      by_cases hi : e.thread = i <;> simp [hi]
    rw [tally_cons, ih fun x hx => h x (List.mem_cons_of_mem _ hx),
      Finset.sum_congr rfl fun i _ => hsum i, Finset.sum_add_distrib, Finset.sum_ite_eq,
      if_pos (h e List.mem_cons_self)]

/-- What each thread keeps in balance is in balance. -/
theorem tally_le_of_own {f g : Event C A → Nat} {s : Shot C A σ}
    (h : ∀ i, tally f (s.own i) ≤ tally g (s.own i)) : tally f s.log ≤ tally g s.log := by
  have hin : ∀ e ∈ s.log, e.thread ∈ (s.log.map (·.thread)).toFinset :=
    fun e he => List.mem_toFinset.mpr (List.mem_map_of_mem he)
  rw [tally_own f s _ hin, tally_own g s _ hin]
  exact Finset.sum_le_sum fun i _ => h i

end call_programs
