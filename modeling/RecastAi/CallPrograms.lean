-- Programs that talk to the outside by calls, and what holds when one of
-- them runs alone. The outside answers each call, and it also makes the
-- choices that are not the program's: which call fails, in which order a
-- map is walked. A program that gets no further answer has crashed.

namespace call_programs

/-- A program is done, or it makes a call and goes on with the answer. -/
inductive Prog (C : Type) (A : C → Type) (α : Type) where
  | done (a : α)
  | call (c : C) (next : A c → Prog C A α)

/-- How the outside answers a call: `O` is its choice, `σ` its state. -/
structure World (C : Type) (A : C → Type) (σ O : Type) where
  answer : O → σ → (c : C) → A c × σ

variable {C : Type} {A : C → Type} {σ O α β γ : Type}

namespace Prog

def bind : Prog C A α → (α → Prog C A β) → Prog C A β
  | .done a, f => f a
  | .call c k, f => .call c (fun x => (k x).bind f)

instance : Monad (Prog C A) where
  pure := .done
  bind := bind

/-- The program that makes one call and gives its answer. -/
def ask (c : C) : Prog C A (A c) := .call c .done

@[simp] theorem pure_eq (a : α) : (pure a : Prog C A α) = .done a := rfl

@[simp] theorem done_bind (a : α) (f : α → Prog C A β) : (Prog.done a >>= f) = f a := rfl

@[simp] theorem call_bind (c : C) (k : A c → Prog C A α) (f : α → Prog C A β) :
    (Prog.call c k >>= f) = .call c (fun x => k x >>= f) := rfl

@[simp] theorem ask_bind (c : C) (f : A c → Prog C A β) :
    (ask c >>= f) = .call c f := rfl

theorem bind_done (p : Prog C A α) : (p >>= fun a => Prog.done a) = p := by
  induction p with
  | done a => rfl
  | call c k ih =>
    simp only [call_bind]
    congr 1
    funext x
    exact ih x

theorem bind_assoc (p : Prog C A α) (f : α → Prog C A β) (g : β → Prog C A γ) :
    ((p >>= f) >>= g) = p >>= fun a => f a >>= g := by
  induction p with
  | done a => rfl
  | call c k ih =>
    simp only [call_bind]
    congr 1
    funext x
    exact ih x

instance : LawfulMonad (Prog C A) :=
  LawfulMonad.mk' _ bind_done (fun _ _ => rfl) bind_assoc

end Prog

/-! ## Programs that give up

A handler answers early when something is wrong with its request. Such an answer is the error
of an `ExceptT`, and `finish` makes both kinds of answer one. -/

abbrev Attempt (C : Type) (A : C → Type) (R α : Type) := ExceptT R (Prog C A) α

/-- Goes on with the value of `p`, or gives up with what `r` makes of the error. -/
def Prog.orGiveUp {ε R : Type} (p : Prog C A (Except ε α)) (r : ε → R) : Attempt C A R α :=
  ExceptT.mk (p >>= fun x => match x with
    | .error e => .done (.error (r e))
    | .ok a => .done (.ok a))

/-- Gives up where the condition holds. -/
def giveUpIf {R : Type} (c : Bool) (r : R) : Attempt C A R Unit := if c then throw r else pure ()

/-- The value, or gives up where there is none. -/
def someOr {R : Type} (x : Option α) (r : R) : Attempt C A R α :=
  match x with
  | none => throw r
  | some a => pure a

def Attempt.finish {R : Type} (p : Attempt C A R R) : Prog C A R :=
  p.run >>= fun x => match x with
    | .error r => .done r
    | .ok r => .done r

/-! ## Calls and results

What can be said of a program without the outside: it makes only calls of one kind, and its
results are of one kind, whatever is answered. -/

def Prog.Only (P : C → Prop) (R : α → Prop) : Prog C A α → Prop
  | .done a => R a
  | .call c k => P c ∧ ∀ x, (k x).Only P R

/-- The same for a program that may give up, with results of kind `F` where it does. -/
def attemptOnly {R : Type} (P : C → Prop) (F : R → Prop) (Q : α → Prop)
    (p : Attempt C A R α) : Prop :=
  p.run.Only P fun x => match x with
    | .error e => F e
    | .ok a => Q a

section Only

variable {P : C → Prop} {R ε : Type} {F : R → Prop} {Q : α → Prop}

theorem only_mono {Q' : α → Prop} {P' : C → Prop} {p : Prog C A α} (h : p.Only P Q)
    (hP : ∀ c, P c → P' c) (hQ : ∀ a, Q a → Q' a) : p.Only P' Q' := by
  induction p with
  | done a => exact hQ a h
  | call c k ih => exact ⟨hP c h.1, fun x => ih x (h.2 x)⟩

theorem only_bind {Q' : β → Prop} {p : Prog C A α} {f : α → Prog C A β} (h : p.Only P Q)
    (hf : ∀ a, Q a → (f a).Only P Q') : (p >>= f).Only P Q' := by
  induction p with
  | done a => exact hf a h
  | call c k ih => exact ⟨h.1, fun x => ih x (h.2 x)⟩

theorem attempt_bind {Q' : β → Prop} {p : Attempt C A R α} {f : α → Attempt C A R β}
    (h : attemptOnly P F Q p) (hf : ∀ a, Q a → attemptOnly P F Q' (f a)) :
    attemptOnly P F Q' (p >>= f) := by
  change p.run.Only P _ at h
  change (p.run >>= ExceptT.bindCont f).Only P _
  generalize p.run = q at h
  induction q with
  | done x =>
    cases x with
    | error e => exact h
    | ok a => exact hf a h
  | call c k ih => exact ⟨h.1, fun x => ih x (h.2 x)⟩

theorem attempt_lift {p : Prog C A α} (h : p.Only P Q) :
    attemptOnly P F Q (ExceptT.lift p : Attempt C A R α) := by
  change (p >>= fun a => Prog.done (Except.ok a : Except R α)).Only P _
  exact only_bind h fun a ha => ha

theorem attempt_orGiveUp {p : Prog C A (Except ε α)} {r : ε → R}
    (h : p.Only P fun x => match x with
      | .error e => F (r e)
      | .ok a => Q a) : attemptOnly P F Q (p.orGiveUp r) := by
  refine only_bind h fun x hx => ?_
  cases x with
  | error e => exact hx
  | ok a => exact hx

theorem attempt_mono {P' : C → Prop} {F' : R → Prop} {Q' : α → Prop} {p : Attempt C A R α}
    (h : attemptOnly P F Q p) (hP : ∀ c, P c → P' c) (hF : ∀ e, F e → F' e)
    (hQ : ∀ a, Q a → Q' a) : attemptOnly P' F' Q' p := by
  refine only_mono h hP fun x hx => ?_
  cases x with
  | error e => exact hF e hx
  | ok a => exact hQ a hx

theorem only_finish {p : Attempt C A α α} (h : attemptOnly P Q Q p) : p.finish.Only P Q := by
  refine only_bind h fun x hx => ?_
  cases x with
  | error e => exact hx
  | ok a => exact hx

theorem only_any (p : Prog C A α) : p.Only (fun _ => True) (fun _ => True) := by
  induction p with
  | done a => trivial
  | call c k ih => exact ⟨trivial, ih⟩

theorem attempt_any (p : Attempt C A R α) :
    attemptOnly (fun _ => True) (fun _ => True) (fun _ => True) p :=
  only_mono (only_any p.run) (fun _ h => h) fun x _ => by cases x <;> trivial

end Only

/-- The program makes these calls, gets these answers and ends with `a`. -/
inductive Trace : Prog C A α → List (Sigma A) → α → Prop where
  | done (a : α) : Trace (.done a) [] a
  | call {c : C} {k : A c → Prog C A α} {x : A c} {es : List (Sigma A)} {a : α}
      (h : Trace (k x) es a) : Trace (.call c k) (⟨c, x⟩ :: es) a

section Traces

variable {es : List (Sigma A)} {R : Type}

/-- The calls up to the bind and the ones after it. -/
theorem trace_bind {p : Prog C A α} {f : α → Prog C A β} {b : β} (h : Trace (p >>= f) es b) :
    ∃ es₁ es₂ a, es = es₁ ++ es₂ ∧ Trace p es₁ a ∧ Trace (f a) es₂ b := by
  induction p generalizing es with
  | done a => exact ⟨[], es, a, rfl, .done a, h⟩
  | call c k ih =>
    cases h with
    | @call _ _ x es _ h =>
      obtain ⟨es₁, es₂, a, rfl, h₁, h₂⟩ := ih x h
      exact ⟨⟨c, x⟩ :: es₁, es₂, a, rfl, .call h₁, h₂⟩

/-- A program that does not give up has not given up in its parts. -/
theorem trace_attempt {p : Attempt C A R α} {f : α → Attempt C A R β} {b : β}
    (h : Trace (p >>= f).run es (.ok b)) :
    ∃ es₁ es₂ a, es = es₁ ++ es₂ ∧ Trace p.run es₁ (.ok a) ∧ Trace (f a).run es₂ (.ok b) := by
  change Trace (p.run >>= ExceptT.bindCont f) es _ at h
  obtain ⟨es₁, es₂, x, rfl, h₁, h₂⟩ := trace_bind h
  cases x with
  | error e => cases h₂
  | ok a => exact ⟨es₁, es₂, a, rfl, h₁, h₂⟩

theorem trace_call {c : C} {k : A c → Prog C A α} {a : α} (h : Trace (.call c k) es a) :
    ∃ x rest, es = ⟨c, x⟩ :: rest ∧ Trace (k x) rest a := by
  cases h with
  | @call _ _ x rest _ h => exact ⟨x, rest, rfl, h⟩

theorem trace_only {P : C → Prop} {Q : α → Prop} {p : Prog C A α} {a : α} (hp : p.Only P Q)
    (h : Trace p es a) : Q a ∧ ∀ e ∈ es, P e.1 := by
  induction h with
  | done a => exact ⟨hp, fun e he => absurd he List.not_mem_nil⟩
  | call h ih =>
    obtain ⟨hQ, hes⟩ := ih (hp.2 _)
    refine ⟨hQ, fun e he => ?_⟩
    rcases List.mem_cons.mp he with rfl | he
    · exact hp.1
    · exact hes e he

end Traces

/-! ## A program that runs alone -/

/-- The run with the choices of a list. Where the list ends before the program is done,
the program stops there. -/
def run (w : World C A σ O) : List O → Prog C A α × σ → Prog C A α × σ
  | [], x => x
  | _ :: _, (.done a, s) => (.done a, s)
  | o :: os, (.call c k, s) => run w os (k (w.answer o s c).1, (w.answer o s c).2)

@[simp] theorem run_done (w : World C A σ O) (os : List O) (a : α) (s : σ) :
    run w os (.done a, s) = (.done a, s) := by cases os <;> rfl

/-- A program that is done ends as it is. -/
theorem run_ended {w : World C A σ O} {os : List O} {a b : α} {s s' : σ}
    (h : run w os ((.done a : Prog C A α), s) = (.done b, s')) : b = a ∧ s' = s := by
  rw [run_done] at h
  cases h
  exact ⟨rfl, rfl⟩

/-- Each choice that the run uses is one that `E` admits. -/
def Meets (w : World C A σ O) (E : σ → C → O → Prop) : List O → Prog C A α × σ → Prop
  | [], _ => True
  | _ :: _, (.done _, _) => True
  | o :: os, (.call c k, s) => E s c o ∧ Meets w E os (k (w.answer o s c).1, (w.answer o s c).2)

@[simp] theorem meets_done (w : World C A σ O) (E : σ → C → O → Prop) (os : List O) (a : α)
    (s : σ) : Meets w E os ((.done a : Prog C A α), s) := by cases os <;> trivial

/-- The program, started in `s`, ends with `a` in `s'` for some choices that `E` admits. -/
def Ends (w : World C A σ O) (E : σ → C → O → Prop) (p : Prog C A α) (s : σ) (a : α) (s' : σ) :
    Prop :=
  ∃ os, Meets w E os (p, s) ∧ run w os (p, s) = (.done a, s')

/-- Whatever the outside chooses among what `E` admits, the program ends with `Q`. -/
def wp (w : World C A σ O) (E : σ → C → O → Prop) : Prog C A α → (α → σ → Prop) → σ → Prop
  | .done a, Q, s => Q a s
  | .call c k, Q, s => ∀ o, E s c o → wp w E (k (w.answer o s c).1) Q (w.answer o s c).2

section Rules

variable {w : World C A σ O} {E : σ → C → O → Prop}

@[simp] theorem wp_done (a : α) (Q : α → σ → Prop) (s : σ) : wp w E (.done a) Q s ↔ Q a s :=
  Iff.rfl

@[simp] theorem wp_call (c : C) (k : A c → Prog C A α) (Q : α → σ → Prop) (s : σ) :
    wp w E (.call c k) Q s ↔
      ∀ o, E s c o → wp w E (k (w.answer o s c).1) Q (w.answer o s c).2 :=
  Iff.rfl

theorem wp_mono {p : Prog C A α} {Q Q' : α → σ → Prop} {s : σ} (h : wp w E p Q s)
    (hQ : ∀ a s, Q a s → Q' a s) : wp w E p Q' s := by
  induction p generalizing s with
  | done a => exact hQ a s h
  | call c k ih => exact fun o ho => ih _ (h o ho)

theorem wp_admits {E' : σ → C → O → Prop} {p : Prog C A α} {Q : α → σ → Prop} {s : σ}
    (h : wp w E p Q s) (hE : ∀ s c o, E' s c o → E s c o) : wp w E' p Q s := by
  induction p generalizing s with
  | done a => exact h
  | call c k ih => exact fun o ho => ih _ (h o (hE s c o ho))

theorem wp_and {p : Prog C A α} {Q Q' : α → σ → Prop} {s : σ} (h : wp w E p Q s)
    (h' : wp w E p Q' s) : wp w E p (fun a s => Q a s ∧ Q' a s) s := by
  induction p generalizing s with
  | done a => exact ⟨h, h'⟩
  | call c k ih => exact fun o ho => ih _ (h o ho) (h' o ho)

theorem wp_any (p : Prog C A α) (s : σ) : wp w E p (fun _ _ => True) s := by
  induction p generalizing s with
  | done a => trivial
  | call c k ih => exact fun o _ => ih _ _

theorem wp_bind (p : Prog C A α) (f : α → Prog C A β) (Q : β → σ → Prop) (s : σ) :
    wp w E (p >>= f) Q s ↔ wp w E p (fun a s => wp w E (f a) Q s) s := by
  induction p generalizing s with
  | done a => rfl
  | call c k ih =>
    simp only [Prog.call_bind, wp_call]
    exact forall_congr' fun o => imp_congr_right fun _ => ih _ _

theorem wp_run {p : Prog C A α} {Q : α → σ → Prop} {s s' : σ} {a : α} {os : List O}
    (h : wp w E p Q s) (hE : Meets w E os (p, s)) (hr : run w os (p, s) = (.done a, s')) :
    Q a s' := by
  induction os generalizing p s with
  | nil =>
    simp only [run, Prod.mk.injEq] at hr
    obtain ⟨rfl, rfl⟩ := hr
    exact h
  | cons o os ih =>
    cases p with
    | done b =>
      simp only [run, Prod.mk.injEq, Prog.done.injEq] at hr
      obtain ⟨rfl, rfl⟩ := hr
      exact h
    | call c k => exact ih (h o hE.1) hE.2 hr

/-- A program ends when the outside always has a choice that `E` admits, as long as `J` holds. -/
theorem ends_while {P : C → Prop} {R : α → Prop} {J : σ → Prop} {p : Prog C A α} {s : σ}
    (hp : p.Only P R) (hJ : J s)
    (hE : ∀ s c, P c → J s → ∃ o, E s c o ∧ J (w.answer o s c).2) :
    ∃ a s', Ends w E p s a s' ∧ J s' := by
  induction p generalizing s with
  | done a => exact ⟨a, s, ⟨[], trivial, rfl⟩, hJ⟩
  | call c k ih =>
    obtain ⟨o, ho, hnext⟩ := hE s c hp.1 hJ
    obtain ⟨a, s', ⟨os, hm, hr⟩, hJ'⟩ := ih _ (hp.2 (w.answer o s c).1) hnext
    exact ⟨a, s', ⟨o :: os, ⟨ho, hm⟩, hr⟩, hJ'⟩

theorem ends_of_choice (p : Prog C A α) (s : σ) (hE : ∀ s c, ∃ o, E s c o) :
    ∃ a s', Ends w E p s a s' := by
  have hchoice : ∀ s c, True → True → ∃ o, E s c o ∧ True :=
    fun s c _ _ => (hE s c).imp fun _ ho => ⟨ho, trivial⟩
  obtain ⟨a, s', hends, -⟩ := ends_while (J := fun _ => True) (only_any p) trivial hchoice
  exact ⟨a, s', hends⟩

theorem wp_only {P : C → Prop} {R : α → Prop} {J : σ → Prop} {p : Prog C A α} {s : σ}
    (hp : p.Only P R) (hJ : J s) (hstep : ∀ s c o, P c → E s c o → J s → J (w.answer o s c).2) :
    wp w E p (fun a s => R a ∧ J s) s := by
  induction p generalizing s with
  | done a => exact ⟨hp, hJ⟩
  | call c k ih => exact fun o ho => ih _ (hp.2 _) (hstep s c o hp.1 ho hJ)

/-- Choices that are no matter for the calls of the program are admitted. -/
theorem meets_only {P : C → Prop} {R : α → Prop} {p : Prog C A α} (hp : p.Only P R)
    (hE : ∀ s c o, P c → E s c o) (os : List O) (s : σ) : Meets w E os (p, s) := by
  induction os generalizing p s with
  | nil => trivial
  | cons o os ih =>
    cases p with
    | done a => trivial
    | call c k => exact ⟨hE s c o hp.1, ih (hp.2 _) _⟩

/-- Choices that are admitted for every call. -/
theorem meets_of_choices {os : List O} (h : ∀ o ∈ os, ∀ s c, E s c o) (p : Prog C A α) (s : σ) :
    Meets w E os (p, s) := by
  induction os generalizing p s with
  | nil => trivial
  | cons o os ih =>
    cases p with
    | done a => trivial
    | call c k =>
      exact ⟨h o List.mem_cons_self s c, ih (fun o' ho' => h o' (List.mem_cons_of_mem _ ho')) _ _⟩

theorem wp_run_any {p : Prog C A α} {Q : α → σ → Prop} {s s' : σ} {a : α} {os : List O}
    (h : wp w (fun _ _ _ => True) p Q s) (hr : run w os (p, s) = (.done a, s')) : Q a s' :=
  wp_run h (meets_only (only_any p) (fun _ _ _ _ => trivial) os s) hr

end Rules

/-! ## A run in parts -/

section Parts

variable {w : World C A σ O} {R ε : Type}

/-- A run that ends was one run up to the bind and one from there on. -/
theorem run_bind {p : Prog C A α} {f : α → Prog C A β} {os : List O} {s s' : σ} {b : β}
    (h : run w os (p >>= f, s) = (.done b, s')) :
    ∃ os₁ os₂ a s₁, run w os₁ (p, s) = (.done a, s₁) ∧ run w os₂ (f a, s₁) = (.done b, s') ∧
      ∀ E, Meets w E os (p >>= f, s) ↔ Meets w E os₁ (p, s) ∧ Meets w E os₂ (f a, s₁) := by
  induction p generalizing os s with
  | done a => exact ⟨[], os, a, s, rfl, h, fun E => ⟨fun h => ⟨trivial, h⟩, And.right⟩⟩
  | call c k ih =>
    cases os with
    | nil => simp [run] at h
    | cons o os =>
      obtain ⟨os₁, os₂, a, s₁, h₁, h₂, hm⟩ := ih (w.answer o s c).1 h
      refine ⟨o :: os₁, os₂, a, s₁, h₁, h₂, fun E => ?_⟩
      simp only [Prog.call_bind, Meets, hm, and_assoc]

/-- A run of one call. -/
theorem run_ask {c : C} {os : List O} {s s' : σ} {x : A c}
    (h : run w os ((Prog.ask c : Prog C A (A c)), s) = (.done x, s')) :
    ∃ o, w.answer o s c = (x, s') ∧
      ∀ E, Meets w E os ((Prog.ask c : Prog C A (A c)), s) ↔ E s c o := by
  cases os with
  | nil => cases h
  | cons o os =>
    change run w os (.done (w.answer o s c).1, (w.answer o s c).2) = _ at h
    obtain ⟨hx, hs⟩ := run_ended h
    exact ⟨o, Prod.ext hx.symm hs.symm, fun E => and_iff_left (meets_done w E os _ _)⟩

/-- A run that gives up in `p`, or goes on after it. -/
theorem run_attempt_bind {p : Attempt C A R α} {f : α → Attempt C A R β} {os : List O} {s s' : σ}
    {x : Except R β} (h : run w os ((p >>= f).run, s) = (.done x, s')) :
    (∃ os₁ e, x = .error e ∧ run w os₁ (p.run, s) = (.done (.error e), s') ∧
      ∀ E, Meets w E os ((p >>= f).run, s) ↔ Meets w E os₁ (p.run, s)) ∨
    ∃ os₁ os₂ a s₁, run w os₁ (p.run, s) = (.done (.ok a), s₁) ∧
      run w os₂ ((f a).run, s₁) = (.done x, s') ∧
      ∀ E, Meets w E os ((p >>= f).run, s) ↔
        Meets w E os₁ (p.run, s) ∧ Meets w E os₂ ((f a).run, s₁) := by
  change run w os (p.run >>= ExceptT.bindCont f, s) = _ at h
  obtain ⟨os₁, os₂, y, s₁, h₁, h₂, hm⟩ := run_bind h
  cases y with
  | error e =>
    left
    change run w os₂ (.done (Except.error e), s₁) = _ at h₂
    obtain ⟨hx, rfl⟩ := run_ended h₂
    exact ⟨os₁, e, hx, h₁,
      fun E => (hm E).trans (and_iff_left (meets_done w E os₂ (Except.error e) _))⟩
  | ok a => exact Or.inr ⟨os₁, os₂, a, s₁, h₁, h₂, hm⟩

theorem run_lift_bind {p : Prog C A α} {f : α → Attempt C A R β} {os : List O} {s s' : σ}
    {x : Except R β} (h : run w os ((ExceptT.lift p >>= f).run, s) = (.done x, s')) :
    ∃ os₁ os₂ a s₁, run w os₁ (p, s) = (.done a, s₁) ∧
      run w os₂ ((f a).run, s₁) = (.done x, s') ∧
      ∀ E, Meets w E os ((ExceptT.lift p >>= f).run, s) ↔
        Meets w E os₁ (p, s) ∧ Meets w E os₂ ((f a).run, s₁) := by
  rw [ExceptT.run_bind_lift] at h
  simp only [ExceptT.run_bind_lift]
  exact run_bind h

theorem run_finish {p : Attempt C A α α} {os : List O} {s s' : σ} {a : α}
    (h : run w os (p.finish, s) = (.done a, s')) :
    ∃ os₁ x, (x = Except.ok a ∨ x = Except.error a) ∧ run w os₁ (p.run, s) = (.done x, s') ∧
      ∀ E, Meets w E os (p.finish, s) ↔ Meets w E os₁ (p.run, s) := by
  obtain ⟨os₁, os₂, x, s₁, h₁, h₂, hm⟩ := run_bind h
  cases x with
  | error r =>
    obtain ⟨rfl, rfl⟩ := run_ended h₂
    exact ⟨os₁, .error a, Or.inr rfl, h₁,
      fun E => (hm E).trans (and_iff_left (meets_done w E os₂ _ _))⟩
  | ok r =>
    obtain ⟨rfl, rfl⟩ := run_ended h₂
    exact ⟨os₁, .ok a, Or.inl rfl, h₁,
      fun E => (hm E).trans (and_iff_left (meets_done w E os₂ _ _))⟩

end Parts

/-- Two runs with the same choices, from states that answer its calls alike. -/
theorem run_alike {P : C → Prop} {R : α → Prop} {alike : σ → σ → Prop} {p : Prog C A α} {s t : σ}
    (hp : p.Only P R) (hst : alike s t)
    (hstep : ∀ s t c o, P c → alike s t →
      (w.answer o s c).1 = (w.answer o t c).1 ∧ alike (w.answer o s c).2 (w.answer o t c).2)
    (os : List O) :
    (run w os (p, s)).1 = (run w os (p, t)).1 ∧ alike (run w os (p, s)).2 (run w os (p, t)).2 := by
  induction os generalizing p s t with
  | nil => exact ⟨rfl, hst⟩
  | cons o os ih =>
    cases p with
    | done a => exact ⟨rfl, hst⟩
    | call c k =>
      obtain ⟨hanswer, hnext⟩ := hstep s t c o hp.1 hst
      unfold run
      rw [← hanswer]
      exact ih (hp.2 _) hnext

/-! ## `wp` for a program that may give up -/

/-- `F` holds where it gives up. -/
def wpTry {R : Type} (w : World C A σ O) (E : σ → C → O → Prop) (p : Attempt C A R α)
    (F : R → σ → Prop) (Q : α → σ → Prop) (s : σ) : Prop :=
  wp w E p.run (fun x s => match x with
    | .error e => F e s
    | .ok a => Q a s) s

section WpTry

variable {w : World C A σ O} {E : σ → C → O → Prop} {R ε : Type} {F : R → σ → Prop}
  {Q : α → σ → Prop} {s : σ}

theorem wpTry_bind {p : Attempt C A R α} {f : α → Attempt C A R β} {Q : β → σ → Prop}
    (h : wpTry w E p F (fun a s => wpTry w E (f a) F Q s) s) :
    wpTry w E (p >>= f) F Q s := by
  change wp w E (p.run >>= ExceptT.bindCont f) _ s
  rw [wp_bind]
  refine wp_mono h fun x s hx => ?_
  cases x with
  | error e => exact hx
  | ok a => exact hx

theorem wpTry_lift {p : Prog C A α} (h : wp w E p Q s) :
    wpTry w E (ExceptT.lift p : Attempt C A R α) F Q s := by
  change wp w E (p >>= fun a => Prog.done (Except.ok a : Except R α)) _ s
  rw [wp_bind]
  exact h

theorem wpTry_orGiveUp {p : Prog C A (Except ε α)} {r : ε → R}
    (h : wp w E p (fun x s => match x with
      | .error e => F (r e) s
      | .ok a => Q a s) s) : wpTry w E (p.orGiveUp r) F Q s := by
  change wp w E (p >>= _) _ s
  rw [wp_bind]
  refine wp_mono h fun x s hx => ?_
  cases x with
  | error e => exact hx
  | ok a => exact hx

theorem wpTry_giveUpIf {c : Bool} {r : R} {Q : Unit → σ → Prop} (hF : c = true → F r s)
    (hQ : c = false → Q () s) : wpTry w E (giveUpIf c r) F Q s := by
  cases c with
  | true => exact hF rfl
  | false => exact hQ rfl

theorem wpTry_someOr {x : Option α} {r : R} (hF : x = none → F r s)
    (hQ : ∀ a, x = some a → Q a s) : wpTry w E (someOr x r) F Q s := by
  cases x with
  | none => exact hF rfl
  | some a => exact hQ a rfl

theorem wpTry_mono {p : Attempt C A R α} {F' : R → σ → Prop} {Q' : α → σ → Prop}
    (h : wpTry w E p F Q s) (hF : ∀ e s, F e s → F' e s) (hQ : ∀ a s, Q a s → Q' a s) :
    wpTry w E p F' Q' s := by
  refine wp_mono h fun x s hx => ?_
  cases x with
  | error e => exact hF e s hx
  | ok a => exact hQ a s hx

theorem wpTry_only {P : C → Prop} {G : R → Prop} {T : α → Prop} {J : σ → Prop}
    {p : Attempt C A R α} (hp : attemptOnly P G T p) (hJ : J s)
    (hstep : ∀ s c o, P c → E s c o → J s → J (w.answer o s c).2) :
    wpTry w E p (fun e s => G e ∧ J s) (fun a s => T a ∧ J s) s := by
  refine wp_mono (wp_only hp hJ hstep) fun x s hx => ?_
  cases x with
  | error e => exact hx
  | ok a => exact hx

theorem wp_finish {p : Attempt C A α α} (h : wpTry w E p Q Q s) : wp w E p.finish Q s := by
  change wp w E (p.run >>= _) _ s
  rw [wp_bind]
  refine wp_mono h fun x s hx => ?_
  cases x with
  | error e => exact hx
  | ok a => exact hx

end WpTry

end call_programs
