-- Python texts of lines and numbers: `splitlines`, and the numbers that the pattern
-- `-?\d+(?:\.\d+)?` takes from the front of a text.
import Mathlib.Algebra.Order.Field.Rat
import Mathlib.Data.List.TakeWhile
import Mathlib.Tactic.Positivity
import RecastAi.PyText

namespace py_text

/-! ## Lines -/

def isLineBreak (c : Nat) : Bool :=
  (0x0A ≤ c && c ≤ 0x0D) || (0x1C ≤ c && c ≤ 0x1E) || c == 0x85 || c == 0x2028 || c == 0x2029

/-- The lines of a text after the letters of the line that is being read. -/
def splitlinesFrom : Text → Text → List Text
  | line, [] => if line = [] then [] else [line]
  | line, 0x0D :: 0x0A :: cs => line :: splitlinesFrom [] cs
  | line, c :: cs =>
    if isLineBreak c then line :: splitlinesFrom [] cs else splitlinesFrom (line ++ [c]) cs

/-- `str.splitlines()`. -/
def splitlines (t : Text) : List Text := splitlinesFrom [] t

theorem splitlinesFrom_letter {c : Nat} (h : isLineBreak c = false) (line cs : Text) :
    splitlinesFrom line (c :: cs) = splitlinesFrom (line ++ [c]) cs := by
  conv_lhs => unfold splitlinesFrom
  split
  · cases ‹_ :: _ = []›
  · rename_i heq
    obtain ⟨rfl, -⟩ := List.cons.inj heq
    cases h
  · rename_i heq
    obtain ⟨rfl, rfl⟩ := List.cons.inj heq
    exact if_neg (by simp [h])

theorem splitlinesFrom_line {line : Text} (h : ∀ c ∈ line, isLineBreak c = false)
    (before rest : Text) :
    splitlinesFrom before (line ++ 0x0A :: rest) = (before ++ line) :: splitlines rest := by
  induction line generalizing before with
  | nil =>
    rw [List.append_nil]
    rfl
  | cons c line ih =>
    rw [List.cons_append, splitlinesFrom_letter (h c List.mem_cons_self),
      ih fun d hd => h d (List.mem_cons_of_mem _ hd)]
    simp

/-- The lines that were written are read back. -/
theorem splitlines_of_lines {lines : List Text}
    (h : ∀ line ∈ lines, ∀ c ∈ line, isLineBreak c = false) :
    splitlines (lines.flatMap (· ++ [0x0A])) = lines := by
  induction lines with
  | nil => rfl
  | cons line lines ih =>
    rw [List.flatMap_cons, List.append_assoc]
    have hrest := ih fun l hl => h l (List.mem_cons_of_mem _ hl)
    exact (splitlinesFrom_line (h line List.mem_cons_self) [] _).trans
      (congrArg (List.cons line) hrest)

/-! ## Digits -/

/-- The zeros of the scripts that have decimal digits. The other nine follow each zero. -/
def decimalZeros : List Nat :=
  [0x30, 0x660, 0x6F0, 0x7C0, 0x966, 0x9E6, 0xA66, 0xAE6, 0xB66, 0xBE6, 0xC66, 0xCE6, 0xD66, 0xDE6,
    0xE50, 0xED0, 0xF20, 0x1040, 0x1090, 0x17E0, 0x1810, 0x1946, 0x19D0, 0x1A80, 0x1A90, 0x1B50,
    0x1BB0, 0x1C40, 0x1C50, 0xA620, 0xA8D0, 0xA900, 0xA9D0, 0xA9F0, 0xAA50, 0xABF0, 0xFF10, 0x104A0,
    0x10D30, 0x11066, 0x110F0, 0x11136, 0x111D0, 0x112F0, 0x11450, 0x114D0, 0x11650, 0x116C0,
    0x11730, 0x118E0, 0x11950, 0x11C50, 0x11D50, 0x11DA0, 0x11F50, 0x16A60, 0x16AC0, 0x16B50,
    0x1D7CE, 0x1D7D8, 0x1D7E2, 0x1D7EC, 0x1D7F6, 0x1E140, 0x1E2F0, 0x1E4F0, 0x1E950, 0x1FBF0]

def zeroOf (c : Nat) : Option Nat := decimalZeros.find? fun z => z ≤ c && c ≤ z + 9

/-- `\d`. -/
def isDecimal (c : Nat) : Bool := (zeroOf c).isSome

def decimalValue (c : Nat) : Nat := c - (zeroOf c).getD c

/-- The number that the digits write. -/
def numeral (digits : Text) : Nat := digits.foldl (fun n c => 10 * n + decimalValue c) 0

/-- The character of a digit. -/
def digitChar (d : Nat) : Nat := 0x30 + d

theorem zeroOf_digitChar {d : Nat} (h : d < 10) : zeroOf (digitChar d) = some 0x30 := by
  unfold zeroOf decimalZeros digitChar
  refine List.find?_cons_of_pos ?_
  simp
  omega

theorem isDecimal_digitChar {d : Nat} (h : d < 10) : isDecimal (digitChar d) = true := by
  unfold isDecimal
  rw [zeroOf_digitChar h]
  rfl

theorem decimalValue_digitChar {d : Nat} (h : d < 10) : decimalValue (digitChar d) = d := by
  unfold decimalValue
  rw [zeroOf_digitChar h]
  exact Nat.add_sub_cancel_left 0x30 d

/-! ## Numbers -/

/-- The value of `whole.frac`. -/
def decimalOf (whole frac : Text) : Rat := numeral whole + numeral frac / 10 ^ frac.length

def signed (negative : Bool) (q : Rat) : Rat := if negative then -q else q

/-- The digits behind a point, where there is one. -/
def fractionOf : Text → Text
  | 0x2E :: rest => rest.takeWhile isDecimal
  | _ => []

/-- `float` of what `-?\d+(?:\.\d+)?` matches at the front. -/
def matchNumber (t : Text) : Option Rat :=
  let negative := t.head? = some 0x2D
  let t := if negative then t.tail else t
  if t.takeWhile isDecimal = [] then none
  else
    some (signed negative
      (decimalOf (t.takeWhile isDecimal) (fractionOf (t.dropWhile isDecimal))))

example : matchNumber (text "-12.50 s") = some (-25 / 2) ∧ matchNumber (text "5e-05") = some 5 ∧
    matchNumber (text ".5") = none := by decide +kernel

/-- A number as it is written: a sign, digits, and digits behind a point. -/
structure Plain where
  negative : Bool
  whole : List Nat
  frac : List Nat

def Plain.text (n : Plain) : Text :=
  (if n.negative then [0x2D] else []) ++ n.whole.map digitChar ++
    if n.frac = [] then [] else 0x2E :: n.frac.map digitChar

def Plain.value (n : Plain) : Rat :=
  signed n.negative (decimalOf (n.whole.map digitChar) (n.frac.map digitChar))

structure Plain.Digits (n : Plain) : Prop where
  whole : ∀ d ∈ n.whole, d < 10
  frac : ∀ d ∈ n.frac, d < 10
  not_empty : n.whole ≠ []

theorem numeral_from_lt {ds : List Nat} (h : ∀ d ∈ ds, d < 10) (n : Nat) :
    (ds.map digitChar).foldl (fun n c => 10 * n + decimalValue c) n < (n + 1) * 10 ^ ds.length := by
  induction ds generalizing n with
  | nil => simp
  | cons d ds ih =>
    have hd := h d List.mem_cons_self
    have hrest := ih (fun e he => h e (List.mem_cons_of_mem _ he)) (10 * n + d)
    rw [List.map_cons, List.foldl_cons, decimalValue_digitChar hd, List.length_cons, pow_succ']
    calc (ds.map digitChar).foldl (fun n c => 10 * n + decimalValue c) (10 * n + d)
        < (10 * n + d + 1) * 10 ^ ds.length := hrest
      _ ≤ ((n + 1) * 10) * 10 ^ ds.length := Nat.mul_le_mul_right _ (by omega)
      _ = (n + 1) * (10 * 10 ^ ds.length) := Nat.mul_assoc _ _ _

theorem numeral_lt {ds : List Nat} (h : ∀ d ∈ ds, d < 10) :
    numeral (ds.map digitChar) < 10 ^ ds.length := by
  have hfrom := numeral_from_lt h 0
  rwa [Nat.zero_add, Nat.one_mul] at hfrom

/-- The value lies within one of the whole part. -/
theorem decimalOf_bounds (whole : Text) {frac : List Nat} (h : ∀ d ∈ frac, d < 10) :
    (numeral whole : Rat) ≤ decimalOf whole (frac.map digitChar) ∧
      decimalOf whole (frac.map digitChar) < numeral whole + 1 := by
  have hscale : (0 : Rat) < 10 ^ frac.length := by positivity
  have hfrac : (numeral (frac.map digitChar) : Rat) < 10 ^ frac.length := by
    exact_mod_cast numeral_lt h
  unfold decimalOf
  rw [List.length_map]
  exact ⟨le_add_of_nonneg_right (by positivity),
    (add_lt_add_iff_left _).mpr ((div_lt_one hscale).mpr hfrac)⟩

theorem takeWhile_digits {ds : List Nat} (h : ∀ d ∈ ds, d < 10) {rest : Text}
    (hrest : ∀ c ∈ rest.head?, isDecimal c = false) :
    (ds.map digitChar ++ rest).takeWhile isDecimal = ds.map digitChar ∧
      (ds.map digitChar ++ rest).dropWhile isDecimal = rest := by
  have hdigits : ∀ c ∈ ds.map digitChar, isDecimal c = true := by
    intro c hc
    obtain ⟨d, hd, rfl⟩ := List.mem_map.mp hc
    exact isDecimal_digitChar (h d hd)
  have hstop : rest.takeWhile isDecimal = [] ∧ rest.dropWhile isDecimal = rest := by
    cases rest with
    | nil => exact ⟨rfl, rfl⟩
    | cons c rest =>
      have hc := hrest c rfl
      exact ⟨List.takeWhile_cons_of_neg (by simp [hc]), List.dropWhile_cons_of_neg (by simp [hc])⟩
  rw [List.takeWhile_append_of_pos hdigits, List.dropWhile_append_of_pos hdigits, hstop.1, hstop.2]
  exact ⟨List.append_nil _, rfl⟩

theorem fractionOf_text {frac : List Nat} (h : ∀ d ∈ frac, d < 10) {rest : Text}
    (hrest : ∀ c ∈ rest.head?, isDecimal c = false ∧ c ≠ 0x2E) :
    fractionOf ((if frac = [] then [] else 0x2E :: frac.map digitChar) ++ rest) =
      frac.map digitChar := by
  cases frac with
  | nil =>
    cases rest with
    | nil => rfl
    | cons c rest =>
      have hc := (hrest c rfl).2
      unfold fractionOf
      split
      · rename_i heq
        exact absurd (List.cons.inj heq).1 hc
      · rfl
  | cons d frac => exact (takeWhile_digits h fun c hc => (hrest c hc).1).1

/-- A number that was written is read back, up to what cannot belong to it. -/
theorem matchNumber_text {n : Plain} (h : n.Digits) {rest : Text}
    (hrest : ∀ c ∈ rest.head?, isDecimal c = false ∧ c ≠ 0x2E) :
    matchNumber (n.text ++ rest) = some n.value := by
  obtain ⟨hwhole, hfrac, hne⟩ := h
  have htail : ∀ c ∈ ((if n.frac = [] then [] else 0x2E :: n.frac.map digitChar) ++ rest).head?,
      isDecimal c = false := by
    intro c hc
    cases hn : n.frac with
    | nil =>
      rw [hn] at hc
      exact (hrest c hc).1
    | cons d frac =>
      rw [hn] at hc
      obtain rfl : 0x2E = c := Option.some.inj hc
      decide
  have hread := takeWhile_digits hwhole htail
  have hfraction := fractionOf_text hfrac hrest
  obtain ⟨d, ds, hd⟩ := List.exists_cons_of_ne_nil hne
  have hfirst : digitChar d ≠ 0x2D := by
    unfold digitChar
    omega
  have hsign : (n.text ++ rest).head? = some 0x2D ↔ n.negative = true := by
    unfold Plain.text
    rw [hd]
    cases n.negative <;> simp [hfirst]
  have hbody : (if n.negative = true then (n.text ++ rest).tail else n.text ++ rest) =
      n.whole.map digitChar ++
        ((if n.frac = [] then [] else 0x2E :: n.frac.map digitChar) ++ rest) := by
    unfold Plain.text
    cases n.negative <;> simp
  unfold matchNumber
  simp only [hsign, hbody, hread.1, hread.2, hfraction]
  rw [if_neg (by simp [hne])]
  unfold Plain.value
  cases n.negative <;> rfl

end py_text
