-- Redis as a client sees it: keys whose values may expire, and commands that
-- are sent again when their answer is lost. A command may have been carried
-- out though no answer came.
import Mathlib.Logic.Function.Basic
import RecastAi.Histories

open call_programs

namespace redis

/-! ## The keys -/

/-- A value, and when it expires, if it does. -/
structure Entry (V : Type) where
  value : V
  expiresAt : Option Nat
deriving DecidableEq

def Entry.live {V : Type} (now : Nat) (e : Entry V) : Bool := e.expiresAt.all (now < ·)

/-- The keys of a server, with its clock in milliseconds. -/
structure Store (V : Type) where
  now : Nat
  entries : String → Option (Entry V)

namespace Store

variable {V : Type}

def wait (s : Store V) (d : Nat) : Store V := { s with now := s.now + d }

/-- What a command finds: a key that has expired is not there. -/
def find (s : Store V) (key : String) : Option (Entry V) := (s.entries key).filter (·.live s.now)

def put (s : Store V) (key : String) (e : Entry V) : Store V :=
  { s with entries := Function.update s.entries key (some e) }

/-- GET. -/
def get (s : Store V) (key : String) : Option V := (s.find key).map (·.value)

/-- SET with EX. -/
def set (s : Store V) (key : String) (v : V) (seconds : Nat) : Store V :=
  s.put key ⟨v, some (s.now + seconds * 1000)⟩

/-- INCR: it keeps the expiry of a counter, and a counter that it makes has none. -/
def incr (s : Store Nat) (key : String) : Nat × Store Nat :=
  match s.find key with
  | some e => (e.value + 1, s.put key { e with value := e.value + 1 })
  | none => (1, s.put key ⟨1, none⟩)

/-- EXPIRE. -/
def expire (s : Store V) (key : String) (seconds : Nat) : Bool × Store V :=
  match s.find key with
  | some e => (true, s.put key { e with expiresAt := some (s.now + seconds * 1000) })
  | none => (false, s)

/-- TTL in seconds, with -2 for no key and -1 for no expiry. -/
def ttl (s : Store V) (key : String) : Int :=
  match s.find key with
  | none => -2
  | some e =>
    match e.expiresAt with
    | none => -1
    | some t => ((t - s.now + 500) / 1000 : Nat)

end Store

section Keys

variable {V : Type} {s : Store V} {key key' : String} {e : Entry V} {d : Nat}

@[simp] theorem wait_now (s : Store V) (d : Nat) : (s.wait d).now = s.now + d := rfl

@[simp] theorem wait_entries (s : Store V) (d : Nat) : (s.wait d).entries = s.entries := rfl

@[simp] theorem put_self (s : Store V) (key : String) (e : Entry V) :
    (s.put key e).entries key = some e := by simp [Store.put]

theorem put_ne (h : key' ≠ key) : (s.put key e).entries key' = s.entries key' := by
  simp [Store.put, h]

theorem find_eq_some : s.find key = some e ↔ s.entries key = some e ∧ e.live s.now = true := by
  simp [Store.find, Option.filter_eq_some_iff]

theorem find_eq_none :
    s.find key = none ↔ ∀ e, s.entries key = some e → e.live s.now = false := by
  simp [Store.find, Option.filter_eq_none_iff]

theorem live_iff : e.live d = true ↔ ∀ t, e.expiresAt = some t → d < t := by
  unfold Entry.live
  cases e.expiresAt <;> simp

theorem get_eq_some {v : V} (h : s.get key = some v) :
    ∃ e, s.entries key = some e ∧ e.live s.now = true ∧ e.value = v := by
  unfold Store.get at h
  obtain ⟨e, he, hv⟩ := Option.map_eq_some_iff.mp h
  exact ⟨e, (find_eq_some.mp he).1, (find_eq_some.mp he).2, hv⟩

@[simp] theorem set_self (s : Store V) (key : String) (v : V) (n : Nat) :
    (s.set key v n).entries key = some ⟨v, some (s.now + n * 1000)⟩ := put_self _ _ _

theorem set_ne {v : V} {n : Nat} (h : key' ≠ key) :
    (s.set key v n).entries key' = s.entries key' := put_ne h

@[simp] theorem set_now (s : Store V) (key : String) (v : V) (n : Nat) :
    (s.set key v n).now = s.now := rfl

/-! ## Keys without an expiry -/

def Endless (key : String) (s : Store V) : Prop :=
  ∃ e, s.entries key = some e ∧ e.expiresAt = none

theorem find_of_endless (h : Endless key s) : ∃ e, s.find key = some e ∧ e.expiresAt = none := by
  obtain ⟨e, he, hnone⟩ := h
  exact ⟨e, find_eq_some.mpr ⟨he, live_iff.mpr (by simp [hnone])⟩, hnone⟩

theorem endless_wait : Endless key (s.wait d) ↔ Endless key s := Iff.rfl

theorem endless_put_self : Endless key (s.put key e) ↔ e.expiresAt = none := by
  simp [Endless]

theorem endless_put_ne (h : key' ≠ key) : Endless key' (s.put key e) ↔ Endless key' s := by
  simp [Endless, put_ne h]

theorem endless_incr {s : Store Nat} :
    Endless key' (s.incr key).2 ↔ Endless key' s ∨ key' = key ∧ s.find key = none := by
  unfold Store.incr
  by_cases hkey : key' = key
  · subst hkey
    cases hfind : s.find key' with
    | none => simp [endless_put_self]
    | some e =>
      simp only [endless_put_self, reduceCtorEq, and_false, or_false]
      simp [Endless, (find_eq_some.mp hfind).1]
  · cases s.find key <;> simp [endless_put_ne hkey, hkey]

theorem endless_expire {n : Nat} :
    Endless key' (s.expire key n).2 ↔ Endless key' s ∧ key' ≠ key := by
  unfold Store.expire
  by_cases hkey : key' = key
  · subst hkey
    cases hfind : s.find key' with
    | none =>
      simp only [ne_eq, not_true_eq_false, and_false, iff_false]
      intro h
      obtain ⟨e, he, -⟩ := find_of_endless h
      simp [hfind] at he
    | some e => simp [endless_put_self]
  · cases s.find key <;> simp [endless_put_ne hkey, hkey]

end Keys

/-! ## The client -/

/-- Why a command has no answer: the connection, where the client sends it again, or something
that it gives up on. -/
inductive Failure where
  | transient
  | permanent
deriving DecidableEq

/-- A command without an answer, which may have been carried out. -/
structure Fault where
  landed : Bool
  failure : Failure
deriving DecidableEq

/-- How long a command takes until it is carried out, and its fault, if any. -/
structure Outcome where
  wait : Nat := 0
  fault : Option Fault := none
deriving DecidableEq

def Outcome.lands (o : Outcome) : Bool := o.fault.all (·.landed)

/-- The answer to a command, and the keys after it. -/
def Outcome.reply {V X : Type} (o : Outcome) (s : Store V) (r : X × Store V) :
    Except Failure X × Store V :=
  (match o.fault with
    | none => .ok r.1
    | some f => .error f.failure,
   if o.lands then r.2 else s)

theorem reply_ok {V X : Type} {o : Outcome} {s : Store V} {r : X × Store V} {x : X}
    (h : (o.reply s r).1 = .ok x) : o.fault = none ∧ r.1 = x := by
  unfold Outcome.reply at h
  cases hf : o.fault with
  | none => simpa [hf] using h
  | some f => simp [hf] at h

theorem lands_of_answered {o : Outcome} (h : o.fault = none) : o.lands = true := by
  simp [Outcome.lands, h]

section Client

variable {C : Type} {A : C → Type} {X : Type}

/-- The client sends a command at most so many times again. -/
def resend (p : Prog C A (Except Failure X)) : Nat → Prog C A (Except Failure X)
  | 0 => p
  | n + 1 => p >>= fun x => match x with
    | .ok v => .done (.ok v)
    | .error .transient => resend p n
    | .error .permanent => .done (.error .permanent)

theorem follows_resend {i : Nat} {D : List (Event C A) → C → Prop}
    {R : Except Failure X → List (Event C A) → Prop} {I : List (Event C A) → Prop}
    {p : Prog C A (Except Failure X)}
    (hp : ∀ h, I h → p.Follows i D (fun x h => R x h ∧ I h) h) (n : Nat)
    {h : List (Event C A)} (h0 : I h) : (resend p n).Follows i D R h := by
  induction n generalizing h with
  | zero => exact follows_mono (hp h h0) fun _ _ hx => hx.1
  | succ n ih =>
    refine follows_bind (follows_mono (hp h h0) fun x h hx => ?_)
    cases x with
    | ok v => exact hx.1
    | error e =>
      cases e with
      | transient => exact ih hx.2
      | permanent => exact hx.1

end Client

end redis
