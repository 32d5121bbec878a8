-- What a program does next, told by what it was answered so far and by nothing
-- else. Such a fact needs no state of the world, so it holds in every
-- interleaving; and it lets programs of two worlds run over both.
import RecastAi.Interleaving

namespace call_programs

variable {C C' : Type} {A : C → Type} {A' : C' → Type} {σ σ' O O' α β : Type}

/-! ## Calls that follow from the history -/

/-- Each call of thread `i` is one that `D` admits after the history `h`, newest first, whatever
was answered; and the program ends with `R`. -/
def Prog.Follows (i : Nat) (D : List (Event C A) → C → Prop) (R : α → List (Event C A) → Prop) :
    List (Event C A) → Prog C A α → Prop
  | h, .done a => R a h
  | h, .call c k => D h c ∧ ∀ x, (k x).Follows i D R (⟨i, c, x⟩ :: h)

section Follows

variable {i : Nat} {D : List (Event C A) → C → Prop} {R : α → List (Event C A) → Prop}
  {h : List (Event C A)}

theorem follows_mono {R' : α → List (Event C A) → Prop} {p : Prog C A α} (hp : p.Follows i D R h)
    (hR : ∀ a h, R a h → R' a h) : p.Follows i D R' h := by
  induction p generalizing h with
  | done a => exact hR a h hp
  | call c k ih => exact ⟨hp.1, fun x => ih x (hp.2 x)⟩

theorem follows_admits {D' : List (Event C A) → C → Prop} {p : Prog C A α} (hp : p.Follows i D R h)
    (hD : ∀ h c, D h c → D' h c) : p.Follows i D' R h := by
  induction p generalizing h with
  | done a => exact hp
  | call c k ih => exact ⟨hD h c hp.1, fun x => ih x (hp.2 x)⟩

theorem follows_bind {R' : β → List (Event C A) → Prop} {p : Prog C A α} {f : α → Prog C A β}
    (hp : p.Follows i D (fun a h => (f a).Follows i D R' h) h) : (p >>= f).Follows i D R' h := by
  induction p generalizing h with
  | done a => exact hp
  | call c k ih => exact ⟨hp.1, fun x => ih x (hp.2 x)⟩

/-- A program whose calls are always admitted. -/
theorem follows_only {P : C → Prop} {Q : α → Prop} {p : Prog C A α} (hp : p.Only P Q)
    (hD : ∀ h c, P c → D h c) : p.Follows i D (fun a _ => Q a) h := by
  induction p generalizing h with
  | done a => exact hp
  | call c k ih => exact ⟨hD h c hp.1, fun x => ih x (hp.2 x)⟩

theorem only_of_follows {P : C → Prop} {p : Prog C A α} (hp : p.Follows i D R h)
    (hD : ∀ h c, D h c → P c) : p.Only P fun _ => True := by
  induction p generalizing h with
  | done a => trivial
  | call c k ih => exact ⟨hD h c hp.1, fun x => ih x (hp.2 x)⟩

/-- The same for a program that may give up, with `F` where it does. -/
def followsTry {R : Type} (i : Nat) (D : List (Event C A) → C → Prop)
    (F : R → List (Event C A) → Prop) (Q : α → List (Event C A) → Prop) (h : List (Event C A))
    (p : Attempt C A R α) : Prop :=
  p.run.Follows i D (fun x h => match x with
    | .error e => F e h
    | .ok a => Q a h) h

variable {ρ ε : Type} {F : ρ → List (Event C A) → Prop} {Q : α → List (Event C A) → Prop}

theorem followsTry_bind {Q : β → List (Event C A) → Prop} {p : Attempt C A ρ α}
    {f : α → Attempt C A ρ β} (hp : followsTry i D F (fun a h => followsTry i D F Q h (f a)) h p) :
    followsTry i D F Q h (p >>= f) := by
  change (p.run >>= ExceptT.bindCont f).Follows i D _ h
  apply follows_bind
  refine follows_mono hp fun x h hx => ?_
  cases x with
  | error e => exact hx
  | ok a => exact hx

theorem followsTry_lift {p : Prog C A α} (hp : p.Follows i D Q h) :
    followsTry i D F Q h (ExceptT.lift p : Attempt C A ρ α) := by
  change (p >>= fun a => Prog.done (Except.ok a : Except ρ α)).Follows i D _ h
  apply follows_bind
  exact hp

theorem followsTry_orGiveUp {p : Prog C A (Except ε α)} {r : ε → ρ}
    (hp : p.Follows i D (fun x h => match x with
      | .error e => F (r e) h
      | .ok a => Q a h) h) : followsTry i D F Q h (p.orGiveUp r) := by
  apply follows_bind
  refine follows_mono hp fun x h hx => ?_
  cases x with
  | error e => exact hx
  | ok a => exact hx

theorem followsTry_giveUpIf {c : Bool} {r : ρ} {Q : Unit → List (Event C A) → Prop}
    (hF : F r h) (hQ : c = false → Q () h) : followsTry i D F Q h (giveUpIf c r) := by
  cases c with
  | true => exact hF
  | false => exact hQ rfl

theorem followsTry_someOr {x : Option α} {r : ρ} (hF : F r h) (hQ : ∀ a, x = some a → Q a h) :
    followsTry i D F Q h (someOr x r) := by
  cases x with
  | none => exact hF
  | some a => exact hQ a rfl

theorem follows_finish {p : Attempt C A α α} (hp : followsTry i D Q Q h p) :
    p.finish.Follows i D Q h := by
  apply follows_bind
  refine follows_mono hp fun x h hx => ?_
  cases x with
  | error e => exact hx
  | ok a => exact hx

/-- What each admitted step keeps holds at the end of a run alone. -/
theorem wp_follows {w : World C A σ O} {E : σ → C → O → Prop} {I : List (Event C A) → σ → Prop}
    {p : Prog C A α} {s : σ} (hp : p.Follows i D R h)
    (hI : ∀ h s c o, D h c → I h s → I (⟨i, c, (w.answer o s c).1⟩ :: h) (w.answer o s c).2)
    (h0 : I h s) : wp w E p (fun a s => ∃ h', R a h' ∧ I h' s) s := by
  induction p generalizing h s with
  | done a => exact ⟨h, hp, h0⟩
  | call c k ih => exact fun o _ => ih _ (hp.2 _) (hI h s c o hp.1 h0)

end Follows

/-! ## Threads -/

section Threads

variable {w : World C A σ O} {D : Nat → List (Event C A) → C → Prop}
  {R : Nat → α → List (Event C A) → Prop}

def AllFollow (D : Nat → List (Event C A) → C → Prop) (R : Nat → α → List (Event C A) → Prop)
    (cfg : Config C A σ α) : Prop :=
  ∀ i (p : Prog C A α), cfg.threads[i]? = some p → p.Follows i (D i) (R i) (cfg.shot.own i)

/-- Threads that run the programs of a list, from the start. -/
theorem allFollow_map {ι : Type} {prog : ι → Prog C A α} {parties : List ι} {s : σ}
    (h : ∀ i x, parties[i]? = some x → (prog x).Follows i (D i) (R i) []) :
    AllFollow D R ⟨⟨s, []⟩, parties.map prog⟩ := by
  intro i p hp
  simp only [List.getElem?_map, Option.map_eq_some_iff] at hp
  obtain ⟨x, hx, rfl⟩ := hp
  exact h i x hx

theorem allFollow_advance {cfg : Config C A σ α} (h : AllFollow D R cfg) (pick : Nat × O) :
    AllFollow D R (advance w cfg pick) := by
  rcases advance_cases w cfg pick with he | ⟨c, k, hth, he⟩
  · rw [he]
    exact h
  · rw [he]
    intro i p hi
    by_cases hip : pick.1 = i
    · subst hip
      have hlt : pick.1 < cfg.threads.length := (List.getElem?_eq_some_iff.mp hth).1
      simp only [List.getElem?_set_self hlt, Option.some.injEq] at hi
      rw [← hi, own_after_self]
      exact (h _ _ hth).2 _
    · rw [List.getElem?_set_ne hip] at hi
      rw [own_after_ne w cfg.shot hip]
      exact h i p hi

theorem allFollow_run {cfg : Config C A σ α} (h : AllFollow D R cfg) (picks : List (Nat × O)) :
    AllFollow D R (schedule w picks cfg) := by
  induction picks generalizing cfg with
  | nil => exact h
  | cons pick picks ih => exact ih (allFollow_advance h pick)

/-- The run lemma: an invariant that every admitted step keeps holds along a schedule, and what
follows from it at a step holds at each step. -/
theorem allFollow_schedule {E F : Shot C A σ → Nat → C → O → Prop} {I : Shot C A σ → Prop}
    (hI : ∀ s i c o, E s i c o → D i (s.own i) c → I s → I (s.after w i c o))
    (hF : ∀ s i c o, E s i c o → D i (s.own i) c → I s → F s i c o)
    {picks : List (Nat × O)} {cfg : Config C A σ α} (h : AllFollow D R cfg) (h0 : I cfg.shot)
    (hE : Allowed w E picks cfg) :
    Allowed w F picks cfg ∧ I (schedule w picks cfg).shot := by
  induction picks generalizing cfg with
  | nil => exact ⟨trivial, h0⟩
  | cons pick picks ih =>
    have hnext : StepMeets F cfg pick ∧ I (advance w cfg pick).shot := by
      unfold StepMeets advance
      cases hth : cfg.threads[pick.1]? with
      | none => exact ⟨trivial, h0⟩
      | some p =>
        cases p with
        | done a => exact ⟨trivial, h0⟩
        | call c k =>
          have hm : E cfg.shot pick.1 c pick.2 := by simpa only [StepMeets, hth] using hE.1
          have hd := (h _ _ hth).1
          exact ⟨hF _ _ _ _ hm hd h0, hI _ _ _ _ hm hd h0⟩
    obtain ⟨hrest, hI'⟩ := ih (allFollow_advance h pick) hnext.2 hE.2
    exact ⟨⟨hnext.1, hrest⟩, hI'⟩

/-- The same, where only the invariant is asked for. -/
theorem invariant_along {E : Shot C A σ → Nat → C → O → Prop} {I : Shot C A σ → Prop}
    (hI : ∀ s i c o, E s i c o → D i (s.own i) c → I s → I (s.after w i c o))
    {picks : List (Nat × O)} {cfg : Config C A σ α} (h : AllFollow D R cfg) (h0 : I cfg.shot)
    (hE : Allowed w E picks cfg) : I (schedule w picks cfg).shot :=
  (allFollow_schedule (F := fun _ _ _ _ => True) hI (fun _ _ _ _ _ _ _ => trivial) h h0 hE).2

/-- An invariant that every due call keeps, whatever the outside chooses. -/
theorem invariant_of_due {I : Shot C A σ → Prop}
    (hI : ∀ s i c o, D i (s.own i) c → I s → I (s.after w i c o)) {cfg : Config C A σ α}
    (h : AllFollow D R cfg) (h0 : I cfg.shot) (picks : List (Nat × O)) :
    I (schedule w picks cfg).shot :=
  invariant_along (E := fun _ _ _ _ => True) (fun s i c o _ hd hs => hI s i c o hd hs) h h0
    (allowed_true w picks cfg)

/-- What is so of each due call. -/
theorem allowed_of_due {E : Shot C A σ → Nat → C → O → Prop}
    (hE : ∀ s i c o, D i (s.own i) c → E s i c o) {cfg : Config C A σ α} (h : AllFollow D R cfg)
    (picks : List (Nat × O)) : Allowed w E picks cfg :=
  (allFollow_schedule (E := fun _ _ _ _ => True) (I := fun _ => True)
    (fun _ _ _ _ _ _ _ => trivial) (fun s i c o _ hd _ => hE s i c o hd) h trivial
    (allowed_true w picks cfg)).1

end Threads

/-- What is so of each call of some kind, where all threads make only such calls. -/
theorem allowed_only {P : C → Prop} {E : Shot C A σ → Nat → C → O → Prop} {cfg : Config C A σ α}
    (h : ∀ p ∈ cfg.threads, p.Only P fun _ => True) (hE : ∀ s i c o, P c → E s i c o)
    (picks : List (Nat × O)) : Allowed w E picks cfg := by
  have hfollow : AllFollow (fun _ _ c => P c) (fun _ _ _ => True) cfg := fun i p hp =>
    follows_only (h p (List.mem_of_getElem? hp)) fun _ _ hc => hc
  exact allowed_of_due (fun s i c o hc => hE s i c o hc) hfollow picks

/-- What is so of each choice of a run. -/
theorem allowed_of_choices {P : O → Prop} {picks : List (Nat × O)} (h : ∀ pick ∈ picks, P pick.2)
    (cfg : Config C A σ α) : Allowed w (fun _ _ _ o => P o) picks cfg := by
  induction picks generalizing cfg with
  | nil => trivial
  | cons pick picks ih =>
    refine ⟨?_, ih (fun p hp => h p (List.mem_cons_of_mem _ hp)) _⟩
    unfold StepMeets
    split
    · exact h pick List.mem_cons_self
    · trivial

/-! ## The steps of a schedule -/

/-- A call that was answered: the shot before it, who made it, and what the outside chose. -/
structure Step (C : Type) (A : C → Type) (σ O : Type) where
  shot : Shot C A σ
  thread : Nat
  call : C
  outcome : O

/-- The step of a pick, if there is one. -/
def stepOf (cfg : Config C A σ α) (pick : Nat × O) : Option (Step C A σ O) :=
  match cfg.threads[pick.1]? with
  | some (.call c _) => some ⟨cfg.shot, pick.1, c, pick.2⟩
  | _ => none

def steps (w : World C A σ O) : List (Nat × O) → Config C A σ α → List (Step C A σ O)
  | [], _ => []
  | pick :: picks, cfg => (stepOf cfg pick).toList ++ steps w picks (advance w cfg pick)

section Steps

variable {w : World C A σ O} {cfg : Config C A σ α} {picks picks' : List (Nat × O)}
  {st : Step C A σ O}

theorem steps_append (w : World C A σ O) (picks picks' : List (Nat × O)) (cfg : Config C A σ α) :
    steps w (picks ++ picks') cfg = steps w picks cfg ++ steps w picks' (schedule w picks cfg) := by
  induction picks generalizing cfg with
  | nil => rfl
  | cons pick picks ih => simp only [List.cons_append, steps, schedule, ih, List.append_assoc]

theorem stepOf_cases (w : World C A σ O) (cfg : Config C A σ α) (pick : Nat × O) :
    stepOf cfg pick = none ∧ advance w cfg pick = cfg ∨
      ∃ c k, cfg.threads[pick.1]? = some (.call c k) ∧
        stepOf cfg pick = some ⟨cfg.shot, pick.1, c, pick.2⟩ ∧
        (advance w cfg pick).shot = cfg.shot.after w pick.1 c pick.2 := by
  unfold stepOf advance
  cases cfg.threads[pick.1]? with
  | none => exact Or.inl ⟨rfl, rfl⟩
  | some p =>
    cases p with
    | done a => exact Or.inl ⟨rfl, rfl⟩
    | call c k => exact Or.inr ⟨c, k, rfl, rfl, rfl⟩

/-- What is allowed of a run, told of its steps. -/
theorem allowed_iff_steps {E : Shot C A σ → Nat → C → O → Prop} :
    Allowed w E picks cfg ↔ ∀ st ∈ steps w picks cfg, E st.shot st.thread st.call st.outcome := by
  induction picks generalizing cfg with
  | nil => simp [Allowed, steps]
  | cons pick picks ih =>
    unfold Allowed steps StepMeets
    rw [ih]
    rcases stepOf_cases w cfg pick with ⟨hnone, -⟩ | ⟨c, k, hth, hsome, -⟩
    · rw [hnone]
      unfold stepOf at hnone
      split at hnone
      · cases hnone
      · simp_all
    · simp [hsome, hth]

/-- The pick of a step. -/
theorem pick_of_step (h : st ∈ steps w picks cfg) :
    ∃ before pick after, picks = before ++ pick :: after ∧
      stepOf (schedule w before cfg) pick = some st := by
  induction picks generalizing cfg with
  | nil => cases h
  | cons pick picks ih =>
    rcases List.mem_append.mp h with h | h
    · exact ⟨[], pick, picks, rfl, Option.mem_toList.mp h⟩
    · obtain ⟨before, pick', after, rfl, hstep⟩ := ih h
      exact ⟨pick :: before, pick', after, rfl, hstep⟩

theorem log_schedule (w : World C A σ O) (picks : List (Nat × O)) (cfg : Config C A σ α) :
    cfg.shot.log <:+ (schedule w picks cfg).shot.log := by
  induction picks generalizing cfg with
  | nil => exact List.suffix_rfl
  | cons pick picks ih =>
    refine List.IsSuffix.trans ?_ (ih (advance w cfg pick))
    rcases stepOf_cases w cfg pick with ⟨-, hsame⟩ | ⟨c, k, -, -, hshot⟩
    · rw [hsame]
    · rw [hshot]
      exact Shot.log_after w cfg.shot pick.1 c pick.2

/-- Each step is in the log from then on. -/
theorem logged_of_step (h : st ∈ steps w picks cfg) :
    ∃ e ∈ (schedule w picks cfg).shot.log, e.thread = st.thread ∧ e.call = st.call := by
  induction picks generalizing cfg with
  | nil => cases h
  | cons pick picks ih =>
    rcases List.mem_append.mp h with h | h
    · rcases stepOf_cases w cfg pick with ⟨hnone, -⟩ | ⟨c, k, -, hsome, hshot⟩
      · rw [hnone] at h
        cases h
      · rw [hsome] at h
        rw [List.mem_singleton.mp h]
        refine ⟨⟨pick.1, c, (w.answer pick.2 cfg.shot.state c).1⟩, ?_, rfl, rfl⟩
        apply (log_schedule w picks (advance w cfg pick)).subset
        rw [hshot]
        exact List.mem_cons_self
    · exact ih h

end Steps

/-! ## A step with none of a kind after it -/

/-- One of the first kind, and none of the second after it. -/
def Unanswered {α : Type} (P Q : α → Prop) (l : List α) : Prop :=
  ∃ before a after, l = before ++ a :: after ∧ P a ∧ ∀ b ∈ after, ¬ Q b

theorem unanswered_snoc {α : Type} {P Q : α → Prop} (l : List α) (a : α) :
    Unanswered P Q (l ++ [a]) ↔ P a ∨ Unanswered P Q l ∧ ¬ Q a := by
  constructor
  · rintro ⟨before, b, after, heq, hb, hafter⟩
    rcases List.eq_nil_or_concat after with rfl | ⟨init, c, rfl⟩
    · obtain ⟨-, hab⟩ := List.append_inj' heq rfl
      rw [List.singleton_inj.mp hab]
      exact Or.inl hb
    · have heq' : l ++ [a] = (before ++ b :: init) ++ [c] := by simpa using heq
      obtain ⟨hl, hac⟩ := List.append_inj' heq' rfl
      rw [List.singleton_inj.mp hac]
      exact Or.inr ⟨⟨before, b, init, hl, hb, fun x hx => hafter x (by simp [hx])⟩,
        hafter c (by simp)⟩
  · rintro (ha | ⟨⟨before, b, after, rfl, hb, hafter⟩, ha⟩)
    · exact ⟨l, a, [], rfl, ha, by simp⟩
    · refine ⟨before, b, after ++ [a], by simp, hb, fun x hx => ?_⟩
      rcases List.mem_append.mp hx with hx | hx
      · exact hafter x hx
      · rw [List.mem_singleton.mp hx]
        exact ha

/-! ## Two worlds as one

A program of either world runs over both states. -/

def World.both (w : World C A σ O) (w' : World C' A' σ' O') :
    World (C ⊕ C') (Sum.elim A A') (σ × σ') (O × O') where
  answer o s
    | .inl c => ((w.answer o.1 s.1 c).1, (w.answer o.1 s.1 c).2, s.2)
    | .inr c => ((w'.answer o.2 s.2 c).1, s.1, (w'.answer o.2 s.2 c).2)

def Prog.left : Prog C A α → Prog (C ⊕ C') (Sum.elim A A') α
  | .done a => .done a
  | .call c k => .call (.inl c) fun x => (k x).left

def Prog.right : Prog C' A' α → Prog (C ⊕ C') (Sum.elim A A') α
  | .done a => .done a
  | .call c k => .call (.inr c) fun x => (k x).right

def Event.left (e : Event C A) : Event (C ⊕ C') (Sum.elim A A') := ⟨e.thread, .inl e.call, e.answer⟩

theorem follows_left {i : Nat} {D : List (Event (C ⊕ C') (Sum.elim A A')) → C ⊕ C' → Prop}
    {h : List (Event C A)} {p : Prog C A α} {R : α → List (Event C A) → Prop}
    (hp : p.Follows i (fun h c => D (h.map Event.left) (.inl c)) R h) :
    (p.left : Prog (C ⊕ C') (Sum.elim A A') α).Follows i D (fun _ _ => True) (h.map Event.left) := by
  induction p generalizing h with
  | done a => trivial
  | call c k ih => exact ⟨hp.1, fun x => ih x (hp.2 x)⟩

theorem follows_right {i : Nat} {D : List (Event (C ⊕ C') (Sum.elim A A')) → C ⊕ C' → Prop}
    (hD : ∀ h c, D h (.inr c)) (h : List (Event (C ⊕ C') (Sum.elim A A'))) (p : Prog C' A' α) :
    (p.right : Prog (C ⊕ C') (Sum.elim A A') α).Follows i D (fun _ _ => True) h := by
  induction p generalizing h with
  | done a => trivial
  | call c k ih => exact ⟨hD h c, fun x => ih x _⟩

end call_programs
