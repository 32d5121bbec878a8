-- The hashes of Redis as a client sees them: a key that holds values by field. The order in which
-- the fields of a hash are listed is not the client's choice.
import Mathlib.Data.List.AList
import RecastAi.Redis

open call_programs

namespace redis

/-! ## Walks through a map -/

section Walks

variable {α β : Type} [DecidableEq α]

/-- The keys of a map, in the order that the outside chooses. -/
def walk (order : List α) (m : AList fun _ : α => β) : List α :=
  if order.isPerm m.keys then order else m.keys

def walkValues (order : List α) (m : AList fun _ : α => β) : List β :=
  (walk order m).filterMap m.lookup

theorem walk_perm (order : List α) (m : AList fun _ : α => β) : (walk order m).Perm m.keys := by
  unfold walk
  split
  · rename_i hperm
    exact List.isPerm_iff.mp hperm
  · exact List.Perm.refl _

theorem walk_nodup (order : List α) (m : AList fun _ : α => β) : (walk order m).Nodup :=
  (walk_perm order m).nodup_iff.mpr m.keys_nodup

theorem walkValues_perm (order : List α) (m : AList fun _ : α => β) :
    (walkValues order m).Perm (m.keys.filterMap m.lookup) :=
  (walk_perm order m).filterMap _

end Walks

/-! ## The commands -/

abbrev Hash := AList (fun _ : String => String)

namespace Store

/-- What is kept at the key, whether it has expired or not. -/
def fields (s : Store Hash) (key : String) : Hash := ((s.entries key).map (·.value)).getD ∅

/-- What a command finds at the key. A key that is not there is an empty hash. -/
def hash (s : Store Hash) (key : String) : Hash := (s.get key).getD ∅

/-- HSET with one field: it keeps the expiry of a hash, and a hash that it makes has none. The
answer is the number of fields that are new. -/
def hset (s : Store Hash) (key field value : String) : Nat × Store Hash :=
  (if (s.hash key).lookup field = none then 1 else 0,
    s.put key ⟨(s.hash key).insert field value, (s.find key).bind (·.expiresAt)⟩)

/-- HLEN. -/
def hlen (s : Store Hash) (key : String) : Nat := (s.hash key).keys.length

/-- HKEYS. -/
def hkeys (s : Store Hash) (key : String) (order : List String) : List String :=
  walk order (s.hash key)

/-- HVALS. -/
def hvals (s : Store Hash) (key : String) (order : List String) : List String :=
  walkValues order (s.hash key)

/-- DEL with one key, and the number of keys that were there. -/
def del {V : Type} (s : Store V) (key : String) : Nat × Store V :=
  (if (s.find key).isSome then 1 else 0,
    { s with entries := Function.update s.entries key none })

end Store

inductive HashCall where
  | hset (key field value : String)
  | expire (key : String) (seconds : Nat)
  | hlen (key : String)
  | hvals (key : String)
  | hkeys (key : String)
  | del (key : String)

/-- What the client gives in the end, after the tries of its own. -/
def HashAnswer : HashCall → Type
  | .hset _ _ _ => Except Failure Nat
  | .expire _ _ => Except Failure Bool
  | .hlen _ => Except Failure Nat
  | .hvals _ => Except Failure (List String)
  | .hkeys _ => Except Failure (List String)
  | .del _ => Except Failure Nat

structure HashOutcome extends Outcome where
  order : List String := []

def answerHash (o : HashOutcome) (s : Store Hash) : (c : HashCall) → HashAnswer c × Store Hash
  | .hset key field value => o.reply (s.wait o.wait) ((s.wait o.wait).hset key field value)
  | .expire key seconds => o.reply (s.wait o.wait) ((s.wait o.wait).expire key seconds)
  | .hlen key => o.reply (s.wait o.wait) ((s.wait o.wait).hlen key, s.wait o.wait)
  | .hvals key => o.reply (s.wait o.wait) ((s.wait o.wait).hvals key o.order, s.wait o.wait)
  | .hkeys key => o.reply (s.wait o.wait) ((s.wait o.wait).hkeys key o.order, s.wait o.wait)
  | .del key => o.reply (s.wait o.wait) ((s.wait o.wait).del key)

def hashes : World HashCall HashAnswer (Store Hash) HashOutcome := ⟨answerHash⟩

/-! ## Commands that are answered, before anything expires -/

/-- Nothing that is kept has expired. -/
def Unexpired (s : Store Hash) : Prop := ∀ key e, s.entries key = some e → e.live s.now = true

/-- The command is answered, and nothing has expired when it is carried out. -/
def Quiet (s : Store Hash) (_ : HashCall) (o : HashOutcome) : Prop :=
  o.fault = none ∧ Unexpired (s.wait o.wait)

section Quiet

variable {s : Store Hash} {key key' field value : String}

theorem reply_answered {V X : Type} {o : Outcome} (h : o.fault = none) (s : Store V)
    (r : X × Store V) : o.reply s r = (.ok r.1, r.2) := by
  unfold Outcome.reply
  rw [h, if_pos (lands_of_answered h)]

theorem find_unexpired (h : Unexpired s) (key : String) : s.find key = s.entries key := by
  unfold Store.find
  cases hkey : s.entries key with
  | none => rfl
  | some e => exact Option.filter_some_pos (h key e hkey)

theorem hash_unexpired (h : Unexpired s) (key : String) : s.hash key = s.fields key := by
  unfold Store.hash Store.get Store.fields
  rw [find_unexpired h]

@[simp] theorem wait_fields (s : Store Hash) (d : Nat) (key : String) :
    (s.wait d).fields key = s.fields key := rfl

theorem put_fields_self (s : Store Hash) (key : String) (e : Entry Hash) :
    (s.put key e).fields key = e.value := by
  unfold Store.fields
  rw [put_self]
  rfl

theorem put_fields_ne {e : Entry Hash} (h : key' ≠ key) :
    (s.put key e).fields key' = s.fields key' := by
  unfold Store.fields
  rw [put_ne h]

theorem hset_self (h : Unexpired s) (key field value : String) :
    (s.hset key field value).2.fields key = (s.fields key).insert field value := by
  rw [← hash_unexpired h key]
  exact put_fields_self _ _ _

theorem hset_ne (h : key' ≠ key) : (s.hset key field value).2.fields key' = s.fields key' :=
  put_fields_ne h

theorem expire_fields (s : Store Hash) (key : String) (seconds : Nat) (key' : String) :
    (s.expire key seconds).2.fields key' = s.fields key' := by
  unfold Store.expire
  cases hfind : s.find key with
  | none => rfl
  | some e =>
    by_cases hkey : key' = key
    · subst hkey
      refine (put_fields_self _ _ _).trans ?_
      unfold Store.fields
      rw [(find_eq_some.mp hfind).1]
      rfl
    · exact put_fields_ne hkey

theorem del_self (s : Store Hash) (key : String) : (s.del key).2.fields key = ∅ := by
  unfold Store.fields Store.del
  dsimp only
  rw [Function.update_self]
  rfl

theorem del_ne (h : key' ≠ key) : (s.del key).2.fields key' = s.fields key' := by
  unfold Store.fields Store.del
  dsimp only
  rw [Function.update_of_ne h]

theorem unexpired_put {e : Entry Hash} (h : Unexpired s) (he : e.live s.now = true) :
    Unexpired (s.put key e) := by
  intro key' e' hkey'
  by_cases heq : key' = key
  · rw [heq, put_self] at hkey'
    exact Option.some.inj hkey' ▸ he
  · rw [put_ne heq] at hkey'
    exact h key' e' hkey'

theorem unexpired_hset (h : Unexpired s) (key field value : String) :
    Unexpired (s.hset key field value).2 := by
  refine unexpired_put h (live_iff.mpr fun t ht => ?_)
  obtain ⟨e, he, hexpires⟩ := Option.bind_eq_some_iff.mp ht
  exact live_iff.mp (find_eq_some.mp he).2 t hexpires

theorem unexpired_expire (h : Unexpired s) (key : String) {seconds : Nat} (hpos : 0 < seconds) :
    Unexpired (s.expire key seconds).2 := by
  unfold Store.expire
  cases s.find key with
  | none => exact h
  | some e =>
    refine unexpired_put h (live_iff.mpr fun t ht => ?_)
    have hlater := Option.some.inj ht
    omega

theorem unexpired_del (h : Unexpired s) (key : String) : Unexpired (s.del key).2 := by
  intro key' e hkey'
  by_cases heq : key' = key
  · rw [heq] at hkey'
    unfold Store.del at hkey'
    dsimp only at hkey'
    rw [Function.update_self] at hkey'
    cases hkey'
  · unfold Store.del at hkey'
    dsimp only at hkey'
    rw [Function.update_of_ne heq] at hkey'
    exact h key' e hkey'

/-- A command that comes at once and is answered leaves nothing that has expired. -/
theorem quiet_choice {c : HashCall} (hpos : ∀ key seconds, c = .expire key seconds → 0 < seconds)
    (h : Unexpired s) : ∃ o, Quiet s c o ∧ Unexpired (hashes.answer o s c).2 := by
  refine ⟨{}, ⟨rfl, h⟩, ?_⟩
  cases c with
  | hset key field value => exact unexpired_hset h key field value
  | expire key seconds => exact unexpired_expire h key (hpos key seconds rfl)
  | hlen key => exact h
  | hvals key => exact h
  | hkeys key => exact h
  | del key => exact unexpired_del h key

end Quiet

end redis
