-- Programs that carry out the calls of other programs. A call of the upper program stands for a run
-- of calls of the lower one, and what holds of the upper calls is carried down to the lower ones.
import RecastAi.Histories

namespace call_programs

variable {C C' : Type} {A : C → Type} {A' : C' → Type} {α β ε R : Type}

/-- The lower calls are runs of calls that stand for the upper ones, one after the other. -/
inductive Expands (S : (c : C) → A c → List (Sigma A') → Prop) :
    List (Sigma A') → List (Sigma A) → Prop where
  | nil : Expands S [] []
  | cons {c : C} {x : A c} {run es : List (Sigma A')} {es' : List (Sigma A)} (h : S c x run)
      (hrest : Expands S es es') : Expands S (run ++ es) (⟨c, x⟩ :: es')

/-- Each run of `p` is one of `q`, with the same result. -/
def Simulates (S : (c : C) → A c → List (Sigma A') → Prop) (p : Prog C' A' α) (q : Prog C A α) :
    Prop :=
  ∀ (es : List (Sigma A')) (a : α), Trace p es a → ∃ es', Expands S es es' ∧ Trace q es' a

section Simulation

variable {S : (c : C) → A c → List (Sigma A') → Prop} {es es₁ es₂ : List (Sigma A')}
  {es' es₁' es₂' : List (Sigma A)}

theorem expands_append (h₁ : Expands S es₁ es₁') (h₂ : Expands S es₂ es₂') :
    Expands S (es₁ ++ es₂) (es₁' ++ es₂') := by
  induction h₁ with
  | nil => exact h₂
  | cons h _ ih => exact List.append_assoc _ _ _ ▸ .cons h ih

/-- A lower call belongs to an upper one, and the calls before it to this one or to earlier ones. -/
theorem expands_split {before after : List (Sigma A')} {e : Sigma A'}
    (h : Expands S (before ++ e :: after) es') :
    ∃ before' c x after' earlier first last, es' = before' ++ ⟨c, x⟩ :: after' ∧
      S c x (first ++ e :: last) ∧ before = earlier ++ first ∧ Expands S earlier before' := by
  generalize hes : before ++ e :: after = es at h
  induction h generalizing before with
  | nil => simp at hes
  | @cons c x run es es' h hrest ih =>
    rcases List.append_eq_append_iff.mp hes with ⟨first, rfl, hlast⟩ | ⟨first, rfl, hlater⟩
    · cases first with
      | nil =>
        have hlast : [] ++ e :: after = es := hlast
        obtain ⟨before', c', x', after', earlier, first, last, rfl, hs, hbefore, hearlier⟩ := ih hlast
        obtain ⟨rfl, rfl⟩ := List.append_eq_nil_iff.mp hbefore.symm
        refine ⟨⟨c, x⟩ :: before', c', x', after', before, [], last, rfl, hs, by simp, ?_⟩
        have hcons := Expands.cons h hearlier
        simpa using hcons
      | cons e' last =>
        obtain ⟨rfl, -⟩ := List.cons.inj hlast
        exact ⟨[], c, x, es', [], before, last, rfl, h, rfl, .nil⟩
    · obtain ⟨before', c', x', after', earlier, first', last, rfl, hs, rfl, hearlier⟩ :=
        ih hlater.symm
      exact ⟨⟨c, x⟩ :: before', c', x', after', run ++ earlier, first', last, rfl, hs,
        (List.append_assoc _ _ _).symm, .cons h hearlier⟩

/-- The calls that stand for an upper call are among the lower ones. -/
theorem expands_mem {c : C} {x : A c} (h : Expands S es es') (hmem : ⟨c, x⟩ ∈ es') :
    ∃ run, S c x run ∧ run ⊆ es := by
  induction h with
  | nil => cases hmem
  | @cons c' x' run es es' h hrest ih =>
    rcases List.mem_cons.mp hmem with heq | hmem
    · cases heq
      exact ⟨run, h, List.subset_append_left _ _⟩
    · obtain ⟨run', hs, hsub⟩ := ih hmem
      exact ⟨run', hs, List.Subset.trans hsub (List.subset_append_right _ _)⟩

theorem trace_append {p : Prog C A α} {f : α → Prog C A β} {a : α} {b : β} (h₁ : Trace p es₁' a)
    (h₂ : Trace (f a) es₂' b) : Trace (p >>= f) (es₁' ++ es₂') b := by
  induction h₁ with
  | done => exact h₂
  | call _ ih => exact .call (ih h₂)

theorem simulates_done (a : α) : Simulates S (.done a) (.done a) := by
  rintro es x h
  cases h
  exact ⟨[], .nil, .done a⟩

theorem simulates_bind {p : Prog C' A' α} {q : Prog C A α} {f : α → Prog C' A' β}
    {g : α → Prog C A β} (hp : Simulates S p q) (hf : ∀ a, Simulates S (f a) (g a)) :
    Simulates S (p >>= f) (q >>= g) := by
  intro es b h
  obtain ⟨es₁, es₂, a, rfl, h₁, h₂⟩ := trace_bind h
  obtain ⟨es₁', hexp₁, h₁'⟩ := hp _ _ h₁
  obtain ⟨es₂', hexp₂, h₂'⟩ := hf a _ _ h₂
  exact ⟨es₁' ++ es₂', expands_append hexp₁ hexp₂, trace_append h₁' h₂'⟩

/-- A program that carries out one call. -/
theorem simulates_ask {c : C} {p : Prog C' A' (A c)} (h : ∀ run x, Trace p run x → S c x run) :
    Simulates S p (Prog.ask c) := by
  intro es x htrace
  have hcons := Expands.cons (h es x htrace) (.nil (S := S))
  rw [List.append_nil] at hcons
  exact ⟨[⟨c, x⟩], hcons, .call (.done x)⟩

/-- The same for programs that may give up. -/
def SimulatesTry (S : (c : C) → A c → List (Sigma A') → Prop) (p : Attempt C' A' R α)
    (q : Attempt C A R α) : Prop := Simulates S p.run q.run

theorem simulatesTry_bind {p : Attempt C' A' R α} {q : Attempt C A R α}
    {f : α → Attempt C' A' R β} {g : α → Attempt C A R β} (hp : SimulatesTry S p q)
    (hf : ∀ a, SimulatesTry S (f a) (g a)) : SimulatesTry S (p >>= f) (q >>= g) := by
  refine simulates_bind hp fun x => ?_
  cases x with
  | error e => exact simulates_done _
  | ok a => exact hf a

theorem simulatesTry_lift {p : Prog C' A' α} {q : Prog C A α} (h : Simulates S p q) :
    SimulatesTry S (ExceptT.lift p : Attempt C' A' R α) (ExceptT.lift q) :=
  simulates_bind h fun _ => simulates_done _

theorem simulatesTry_orGiveUp {p : Prog C' A' (Except ε α)} {q : Prog C A (Except ε α)} {r : ε → R}
    (h : Simulates S p q) : SimulatesTry S (p.orGiveUp r) (q.orGiveUp r) := by
  refine simulates_bind h fun x => ?_
  cases x <;> exact simulates_done _

end Simulation

/-- A program of the one world, over two. -/
theorem simulates_left {S : (c : C) → A c → List (Sigma (Sum.elim A A')) → Prop} {P : C → Prop}
    (hS : ∀ c x, P c → S c x [⟨.inl c, x⟩]) {p : Prog C A α} (hp : p.Only P fun _ => True) :
    Simulates S (p.left : Prog (C ⊕ C') (Sum.elim A A') α) p := by
  induction p with
  | done a => exact simulates_done a
  | call c k ih =>
    intro es a h
    cases h with
    | @call _ _ x es _ h =>
      obtain ⟨es', hexp, htrace⟩ := ih x (hp.2 x) _ _ h
      exact ⟨⟨c, x⟩ :: es', .cons (hS c x hp.1) hexp, .call htrace⟩

/-- Each call of a run follows from the ones before it. -/
theorem due_of_trace {i : Nat} {D : List (Event C A) → C → Prop} {Q : α → List (Event C A) → Prop}
    {p : Prog C A α} {h : List (Event C A)} (hp : p.Follows i D Q h) {es : List (Sigma A)} {a : α}
    (htrace : Trace p es a) {before after : List (Sigma A)} {c : C} {x : A c}
    (hes : es = before ++ ⟨c, x⟩ :: after) :
    D ((before.map fun e => (⟨i, e.1, e.2⟩ : Event C A)).reverse ++ h) c := by
  induction htrace generalizing h before with
  | done => simp at hes
  | @call c' k y es a htrace ih =>
    cases before with
    | nil =>
      obtain ⟨heq, -⟩ := List.cons.inj hes
      cases heq
      exact hp.1
    | cons e before =>
      obtain ⟨rfl, hlater⟩ := List.cons.inj hes
      have hdue := ih (hp.2 y) hlater
      simpa using hdue

end call_programs
