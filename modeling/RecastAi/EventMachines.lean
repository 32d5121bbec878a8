-- Machines that take one event after the other, told by a step function that is
-- total: an event that cannot happen in a state leaves it as it is.
import Mathlib.Data.List.Basic

namespace event_machines

variable {S E : Type}

/-- The state after the events. -/
def run (step : S → E → S) (s : S) (events : List E) : S := events.foldl step s

/-- Each step of the run meets `P`, in the state that it is taken in. -/
def EveryStep (step : S → E → S) (P : S → E → Prop) : S → List E → Prop
  | _, [] => True
  | s, e :: events => P s e ∧ EveryStep step P (step s e) events

variable {step : S → E → S} {P : S → E → Prop} {I : S → Prop}

/-- `I` holds in every state of the run. -/
def Always (step : S → E → S) (I : S → Prop) (s : S) (events : List E) : Prop :=
  ∀ seen, seen <+: events → I (run step s seen)

theorem always_nil {s : S} : Always step I s [] ↔ I s := by
  constructor
  · exact fun h => h [] List.prefix_rfl
  · intro h seen hseen
    rw [List.prefix_nil.mp hseen]
    exact h

theorem always_cons {s : S} {e : E} {events : List E} :
    Always step I s (e :: events) ↔ I s ∧ Always step I (step s e) events := by
  constructor
  · intro h
    refine ⟨h [] List.nil_prefix, fun seen hseen => ?_⟩
    exact h (e :: seen) (List.cons_prefix_cons.mpr ⟨rfl, hseen⟩)
  · rintro ⟨hs, h⟩ seen hseen
    cases seen with
    | nil => exact hs
    | cons d seen =>
      obtain ⟨rfl, hrest⟩ := List.cons_prefix_cons.mp hseen
      exact h seen hrest

theorem run_append (s : S) (before after : List E) :
    run step s (before ++ after) = run step (run step s before) after := List.foldl_append

/-- The run lemma: what each step keeps holds at the end. -/
theorem run_keeps (hstep : ∀ s e, I s → I (step s e)) {s : S} (h0 : I s) (events : List E) :
    I (run step s events) := by
  induction events generalizing s with
  | nil => exact h0
  | cons e events ih => exact ih (hstep s e h0)

/-- The run lemma for the events of one kind. -/
theorem run_keeps_where {Q : E → Prop} (hstep : ∀ s e, Q e → I s → I (step s e)) {s : S} (h0 : I s)
    {events : List E} (hall : ∀ e ∈ events, Q e) : I (run step s events) := by
  induction events generalizing s with
  | nil => exact h0
  | cons e events ih =>
    exact ih (hstep s e (hall e List.mem_cons_self) h0)
      fun d hd => hall d (List.mem_cons_of_mem e hd)

/-- Where `P` tells exactly which steps keep `I`, the runs that keep it are those whose steps
all meet `P`. -/
theorem always_iff_everyStep (hstep : ∀ s e, I s → (I (step s e) ↔ P s e)) {s : S} (h0 : I s)
    (events : List E) : Always step I s events ↔ EveryStep step P s events := by
  induction events generalizing s with
  | nil => exact ⟨fun _ => trivial, fun _ => always_nil.mpr h0⟩
  | cons e events ih =>
    rw [always_cons]
    constructor
    · rintro ⟨-, h⟩
      have hnext : I (step s e) := h [] List.nil_prefix
      exact ⟨(hstep s e h0).mp hnext, (ih hnext).mp h⟩
    · rintro ⟨he, h⟩
      exact ⟨h0, (ih ((hstep s e h0).mpr he)).mpr h⟩

end event_machines
