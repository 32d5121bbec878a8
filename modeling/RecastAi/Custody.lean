-- Threads that have parts of one state in their hands. Each relies on the others to spare what it
-- has, and every step keeps an invariant of the whole and a law for single steps.
import RecastAi.Interleaving

namespace call_programs

variable {C : Type} {A : C → Type} {σ O α β : Type}

/-- `sound` is the invariant, `lawful` holds of each step, and `spared` tells what a thread finds
as it was when others have stepped. -/
structure Custody (C : Type) (A : C → Type) (σ : Type) where
  sound : Shot C A σ → Prop
  lawful : Nat → Shot C A σ → Shot C A σ → Prop
  spared : Nat → Shot C A σ → Shot C A σ → Prop
  refl : ∀ i s, spared i s s
  trans : ∀ i s s' s'', Later i s s' → spared i s s' → spared i s' s'' → spared i s s''

namespace Custody

variable (k : Custody C A σ) (w : World C A σ O)

/-- What a step owes to the whole and to the other threads. -/
structure Kept (i : Nat) (s s' : Shot C A σ) : Prop where
  sound : k.sound s'
  lawful : k.lawful i s s'
  spares : ∀ j, j ≠ i → k.spared j s s'

def pact : Pact (Shot C A σ) where
  guar i s s' := (∃ c o, s' = s.after w i c o) ∧ (k.sound s → k.Kept i s s')
  rely i s s' := Later i s s' ∧ (k.sound s → k.sound s' ∧ k.spared i s s')
  rely_refl i s := ⟨⟨List.suffix_rfl, rfl⟩, fun h => ⟨h, k.refl i s⟩⟩
  rely_trans i s s' s'' h h' := by
    refine ⟨⟨h.1.log.trans h'.1.log, h'.1.own.trans h.1.own⟩, fun hs => ?_⟩
    obtain ⟨hs', hspared⟩ := h.2 hs
    obtain ⟨hs'', hspared'⟩ := h'.2 hs'
    exact ⟨hs'', k.trans i s s' s'' h.1 hspared hspared'⟩
  guar_rely := by
    rintro i j s s' hij ⟨⟨c, o, rfl⟩, hstep⟩
    refine ⟨⟨List.suffix_cons _ _, own_after_ne w s (Ne.symm hij) c o⟩, fun hs => ?_⟩
    exact ⟨(hstep hs).sound, (hstep hs).spares i hij⟩

/-- It stays true for thread `i` while others step. -/
def Stable (i : Nat) (P : Shot C A σ → Prop) : Prop :=
  ∀ s s', k.sound s → Later i s s' → k.spared i s s' → P s → P s'

variable {k w} {E : Shot C A σ → Nat → C → O → Prop} {i : Nat} {s : Shot C A σ}

theorem stable_rely {P : Shot C A σ → Prop} (hP : k.Stable i P) {s s' : Shot C A σ}
    (hr : (k.pact w).rely i s s') (hs : k.sound s ∧ P s) : k.sound s' ∧ P s' := by
  obtain ⟨hs', hspared⟩ := hr.2 hs.1
  exact ⟨hs', hP s s' hs.1 hr.1 hspared hs.2⟩

/-- One call. -/
theorem safe_call {c : C} {P : Shot C A σ → Prop} {Q : A c → Shot C A σ → Prop}
    (hP : k.Stable i P) (hQ : ∀ x, k.Stable i (Q x))
    (hstep : ∀ s o, k.sound s → P s → E s i c o →
      k.Kept i s (s.after w i c o) ∧ Q (w.answer o s.state c).1 (s.after w i c o))
    (hs : k.sound s ∧ P s) :
    safe w E (k.pact w) i (.call c .done) (fun x s => k.sound s ∧ Q x s) s := by
  intro s' hr o ho
  obtain ⟨hsound, hp⟩ := stable_rely hP hr hs
  obtain ⟨hguar, hq⟩ := hstep s' o hsound hp ho
  exact ⟨⟨⟨c, o, rfl⟩, fun _ => hguar⟩, fun s'' hr' => stable_rely (hQ _) hr' ⟨hguar.sound, hq⟩⟩

section Tries

variable {R : Type} {F : R → Shot C A σ → Prop} {P : Shot C A σ → Prop}

theorem tries_some {x : Option α} {r : R} (hP : k.Stable i P) (hs : k.sound s ∧ P s)
    (hF : ∀ s, k.sound s ∧ P s → F r s) :
    tries w E (k.pact w) i (someOr x r) F (fun a s => x = some a ∧ k.sound s ∧ P s) s := by
  cases x with
  | none => exact fun s' hr => hF s' (stable_rely hP hr hs)
  | some a => exact fun s' hr => ⟨rfl, stable_rely hP hr hs⟩

theorem tries_unless {b : Bool} {r : R} (hP : k.Stable i P) (hs : k.sound s ∧ P s)
    (hF : ∀ s, k.sound s ∧ P s → F r s) :
    tries w E (k.pact w) i (giveUpIf b r) F (fun _ s => b = false ∧ k.sound s ∧ P s) s := by
  cases b with
  | true => exact fun s' hr => hF s' (stable_rely hP hr hs)
  | false => exact fun s' hr => ⟨rfl, stable_rely hP hr hs⟩

end Tries

/-- The next step of a safe thread. -/
theorem step_of_safe {c : C} {f : A c → Prog C A α} {Q : α → Shot C A σ → Prop} {o : O}
    (h : safe w E (k.pact w) i (.call c f) Q s) (ho : E s i c o) (hs : k.sound s) :
    k.Kept i s (s.after w i c o) :=
  (h s ((k.pact w).rely_refl i s) o ho).1.2 hs

/-- Along a schedule the invariant stays and every step is lawful. -/
theorem custody_schedule {Q : Nat → α → Shot C A σ → Prop} {picks : List (Nat × O)}
    {cfg : Config C A σ α} (h : AllSafe w E (k.pact w) Q cfg) (h0 : k.sound cfg.shot)
    (hE : Allowed w E picks cfg) :
    AllSafe w E (k.pact w) Q (schedule w picks cfg) ∧ k.sound (schedule w picks cfg).shot ∧
      Allowed w (fun s i c o => k.lawful i s (s.after w i c o)) picks cfg := by
  induction picks generalizing cfg with
  | nil => exact ⟨h, h0, trivial⟩
  | cons pick picks ih =>
    obtain ⟨hs, hguar⟩ := allSafe_advance h hE.1
    have hsound : k.sound (advance w cfg pick).shot := by
      rcases hguar with hsame | ⟨-, hstep⟩
      · rwa [hsame]
      · exact (hstep h0).sound
    obtain ⟨hsafe, hend, hlawful⟩ := ih hs hsound hE.2
    refine ⟨hsafe, hend, ?_, hlawful⟩
    have hmeets := hE.1
    unfold StepMeets at hmeets ⊢
    split
    · rename_i c f hth
      rw [hth] at hmeets
      exact (step_of_safe (h pick.1 _ hth) hmeets h0).lawful
    · trivial

end Custody

end call_programs
