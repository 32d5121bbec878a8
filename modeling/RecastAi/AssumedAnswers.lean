-- Programs under an assumption about their answers. Where the assumption holds in every state that
-- an invariant describes, and the calls keep the invariant, it may be made in any interleaving.
import RecastAi.Interleaving

namespace call_programs

variable {C : Type} {A : C → Type} {σ O α β : Type}

/-- The calls are in `P` and the results in `R`, as long as the answers are in `X`. -/
def Prog.Given (X : (c : C) → A c → Prop) (P : C → Prop) (R : α → Prop) : Prog C A α → Prop
  | .done a => R a
  | .call c k => P c ∧ ∀ x, X c x → (k x).Given X P R

/-- The same for a program that may give up, with `F` where it does. -/
def givenTry {R : Type} (X : (c : C) → A c → Prop) (P : C → Prop) (F : R → Prop) (Q : α → Prop)
    (p : Attempt C A R α) : Prop :=
  p.run.Given X P fun x => match x with
    | .error e => F e
    | .ok a => Q a

section Given

variable {X : (c : C) → A c → Prop} {P : C → Prop} {Q : α → Prop} {R ε : Type} {F : R → Prop}

theorem given_mono {Q' : α → Prop} {p : Prog C A α} (h : p.Given X P Q) (hQ : ∀ a, Q a → Q' a) :
    p.Given X P Q' := by
  induction p with
  | done a => exact hQ a h
  | call c k ih => exact ⟨h.1, fun x hx => ih x (h.2 x hx)⟩

theorem given_of_only {p : Prog C A α} (h : p.Only P Q) : p.Given X P Q := by
  induction p with
  | done a => exact h
  | call c k ih => exact ⟨h.1, fun x _ => ih x (h.2 x)⟩

theorem given_ask {c : C} (h : P c) : (Prog.call c .done : Prog C A (A c)).Given X P (X c) :=
  ⟨h, fun _ hx => hx⟩

theorem given_bind {Q' : β → Prop} {p : Prog C A α} {f : α → Prog C A β} (h : p.Given X P Q)
    (hf : ∀ a, Q a → (f a).Given X P Q') : (p >>= f).Given X P Q' := by
  induction p with
  | done a => exact hf a h
  | call c k ih => exact ⟨h.1, fun x hx => ih x (h.2 x hx)⟩

theorem givenTry_bind {Q' : β → Prop} {p : Attempt C A R α} {f : α → Attempt C A R β}
    (h : givenTry X P F Q p) (hf : ∀ a, Q a → givenTry X P F Q' (f a)) :
    givenTry X P F Q' (p >>= f) := by
  change p.run.Given X P _ at h
  change (p.run >>= ExceptT.bindCont f).Given X P _
  refine given_bind h fun x hx => ?_
  cases x with
  | error e => exact hx
  | ok a => exact hf a hx

theorem givenTry_lift {p : Prog C A α} (h : p.Given X P Q) :
    givenTry X P F Q (ExceptT.lift p : Attempt C A R α) := by
  change (p >>= fun a => Prog.done (Except.ok a : Except R α)).Given X P _
  exact given_bind h fun a ha => ha

theorem givenTry_orGiveUp {p : Prog C A (Except ε α)} {r : ε → R} {G : Except ε α → Prop}
    (h : p.Given X P G) (hF : ∀ e, G (.error e) → F (r e)) (hQ : ∀ a, G (.ok a) → Q a) :
    givenTry X P F Q (p.orGiveUp r) := by
  refine given_bind h fun x hx => ?_
  cases x with
  | error e => exact hF e hx
  | ok a => exact hQ a hx

theorem givenTry_giveUpIf {c : Bool} {r : R} {Q : Unit → Prop} (hF : c = true → F r)
    (hQ : c = false → Q ()) : givenTry X P F Q (giveUpIf c r) := by
  cases c with
  | true => exact hF rfl
  | false => exact hQ rfl

theorem givenTry_someOr {x : Option α} {r : R} (hF : x = none → F r) (hQ : ∀ a, x = some a → Q a) :
    givenTry X P F Q (someOr x r) := by
  cases x with
  | none => exact hF rfl
  | some a => exact hQ a rfl

theorem given_finish {p : Attempt C A α α} (h : givenTry X P Q Q p) : p.finish.Given X P Q := by
  refine given_bind h fun x hx => ?_
  cases x with
  | error e => exact hx
  | ok a => exact hx

end Given

/-! ## Threads -/

section Threads

variable {w : World C A σ O} {X : (c : C) → A c → Prop} {P : C → Prop} {R : α → Prop}
  {I : σ → Prop} {cfg : Config C A σ α}

/-- The invariant holds, and the threads were as they should so far and go on so. -/
structure AllGiven (X : (c : C) → A c → Prop) (P : C → Prop) (R : α → Prop) (I : σ → Prop)
    (cfg : Config C A σ α) : Prop where
  state : I cfg.shot.state
  threads : ∀ p ∈ cfg.threads, p.Given X P R
  log : ∀ e ∈ cfg.shot.log, P e.call ∧ X e.call e.answer

theorem allGiven_advance
    (hstep : ∀ s c o, P c → I s → X c (w.answer o s c).1 ∧ I (w.answer o s c).2)
    (h : AllGiven X P R I cfg) (pick : Nat × O) : AllGiven X P R I (advance w cfg pick) := by
  rcases advance_cases w cfg pick with he | ⟨c, k, hth, he⟩
  · rw [he]
    exact h
  · have hcall : (Prog.call c k).Given X P R := h.threads _ (List.mem_of_getElem? hth)
    obtain ⟨hanswer, hstate⟩ := hstep cfg.shot.state c pick.2 hcall.1 h.state
    rw [he]
    refine ⟨hstate, fun p hp => ?_, ?_⟩
    · rcases List.mem_or_eq_of_mem_set hp with hmem | rfl
      · exact h.threads p hmem
      · exact hcall.2 _ hanswer
    · exact List.forall_mem_cons.mpr ⟨⟨hcall.1, hanswer⟩, h.log⟩

/-- The run lemma. -/
theorem allGiven_schedule
    (hstep : ∀ s c o, P c → I s → X c (w.answer o s c).1 ∧ I (w.answer o s c).2)
    (h : AllGiven X P R I cfg) (picks : List (Nat × O)) :
    AllGiven X P R I (schedule w picks cfg) := by
  induction picks generalizing cfg with
  | nil => exact h
  | cons pick picks ih => exact ih (allGiven_advance hstep h pick)

end Threads

end call_programs
