-- How the Python services read the values of a message: `msg[key]`, `dict.get`,
-- `bool`, `int`, `str`, and the iteration over a value.
import RecastAi.Pipeline

open call_programs py_text recast_rules.transcript recast_rules.pipeline
open recast_rules.models (ofText)

namespace recast_rules.py

/-- `v[key]`. -/
def subscript (v : Json) (key : String) : Except String Json :=
  match v with
  | .object fields =>
    match fields.lookup (text key) with
    | some x => .ok x
    | none => .error "KeyError"
  | _ => .error "TypeError"

/-- `v.get(key, default)`. -/
def getOr (v : Json) (key : String) (default : Json) : Except String Json :=
  match v with
  | .object fields => .ok ((fields.lookup (text key)).getD default)
  | _ => .error "AttributeError"

/-- `bool(v)`. -/
def truthy : Json → Bool
  | .null => false
  | .bool b => b
  | .int n => n ≠ 0
  | .float x => x ≠ .finite 0
  | .str t => t ≠ []
  | .array items => !items.isEmpty
  | .object fields => !fields.isEmpty

/-- `v or default`. -/
def orElse (v default : Json) : Json := if truthy v then v else default

/-- `for x in v`. -/
def items : Json → Except String (List Json)
  | .array items => .ok items
  | .str t => .ok (t.map fun c => .str [c])
  | .object fields => .ok (fields.map fun f => .str f.1)
  | _ => .error "TypeError"

/-! ## Numbers and texts -/

def isDigit (c : Nat) : Bool := 0x30 ≤ c && c ≤ 0x39

/-- The value of digits after `n`. An underscore may stand between two of them. -/
def digitsFrom (n : Nat) : Text → Option Nat
  | [] => some n
  | c :: cs =>
    if isDigit c then digitsFrom (10 * n + (c - 0x30)) cs
    else if c = 0x5F then
      match cs with
      | d :: ds => if isDigit d then digitsFrom (10 * n + (d - 0x30)) ds else none
      | [] => none
    else none

def digits : Text → Option Nat
  | c :: cs => if isDigit c then digitsFrom (c - 0x30) cs else none
  | [] => none

def intOfText (t : Text) : Option Int :=
  match strip t with
  | 0x2D :: cs => (digits cs).map fun n => -(n : Int)
  | 0x2B :: cs => (digits cs).map Int.ofNat
  | cs => (digits cs).map Int.ofNat

/-- `int(v)`. A float is cut at its point. -/
def toInt : Json → Except String Int
  | .int n => .ok n
  | .bool b => .ok (if b then 1 else 0)
  | .float (.finite q) => .ok (q.num.tdiv q.den)
  | .float .nan => .error "ValueError"
  | .float _ => .error "OverflowError"
  | .str t =>
    match intOfText t with
    | some n => .ok n
    | none => .error "ValueError"
  | _ => .error "TypeError"

/-- `str(v)`, where `repr` writes what is no string. -/
def toText (repr : Json → Text) : Json → Text
  | .str t => t
  | v => repr v

example : toInt (.str (text " -1_0 ")) = .ok (-10) ∧ toInt (.float (.finite (-7 / 2))) = .ok (-3) := by
  decide +kernel

/-! ## Programs that raise

An exception is told by its class. Where it ends up, it is only logged. -/

abbrev Py (α : Type) := Attempt Call Answer String α

def raising {α : Type} (x : Except String α) : Py α := ExceptT.mk (.done x)

/-- A call that raises its error. -/
def must {α : Type} (p : Service (Except String α)) : Py α := p.orGiveUp id

/-- A statement, a query or a commit on a connection. -/
def sql {α : Type} (p : Service (Except DbError α)) : Py α := p.orGiveUp fun _ => "psycopg2.Error"

/-- `job_id` as a parameter of statements and in keys. It is a valid text in every message that
a service writes, and a message with another one is not followed further. -/
def idText : Json → Except String String
  | .str t => if t.all fun c => c.isValidChar && c ≠ 0 then .ok (ofText t) else .error "UnicodeError"
  | _ => .error "TypeError"

/-- What the consumer tells the broker. -/
inductive Verdict where
  | acked | nacked
deriving DecidableEq

section Only

variable {P : Call → Prop} {α β : Type}

theorem ask_only {c : Call} (h : P c) : (ask c).Only P fun _ => True := ⟨h, fun _ => trivial⟩

theorem must_only {p : Service (Except String α)} (h : p.Only P fun _ => True) :
    attemptOnly P (fun _ => True) (fun _ => True) (must p) := by
  apply attempt_orGiveUp
  refine only_mono h (fun _ hc => hc) fun x _ => ?_
  cases x <;> trivial

theorem sql_only {p : Service (Except DbError α)} (h : p.Only P fun _ => True) :
    attemptOnly P (fun _ => True) (fun _ => True) (sql p) := by
  apply attempt_orGiveUp
  refine only_mono h (fun _ hc => hc) fun x _ => ?_
  cases x <;> trivial

theorem raising_only (x : Except String α) :
    attemptOnly P (fun _ => True) (fun _ => True) (raising x) := by
  cases x <;> trivial

/-- One part after the other. -/
theorem then_only {p : Py α} {f : α → Py β}
    (h : attemptOnly P (fun _ => True) (fun _ => True) p)
    (hf : ∀ a, attemptOnly P (fun _ => True) (fun _ => True) (f a)) :
    attemptOnly P (fun _ => True) (fun _ => True) (p >>= f) :=
  attempt_bind h fun a _ => hf a

end Only

/-! ## What has been read -/

@[simp] theorem raising_ok_bind {α β : Type} (a : α) (f : α → Py β) :
    raising (.ok a) >>= f = f a := rfl

@[simp] theorem raising_error_bind {α β : Type} (e : String) (f : α → Py β) :
    raising (.error e) >>= f = throw e := rfl

end recast_rules.py
