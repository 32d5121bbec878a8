-- Python strings: white space, `strip`, `split`, and `re.sub` with an empty
-- replacement; and the numbers: the quotient of two integers as a float, and `round`.
import Mathlib.Algebra.Ring.Int.Defs
import Mathlib.Algebra.Ring.Nat
import Mathlib.Data.Nat.Log

namespace py_text

/-- A `str` is its code points. A surrogate that stands alone is one of them. -/
abbrev Text := List Nat

def text (s : String) : Text := s.toList.map Char.toNat

/-- What `str.isspace` and `\\s` take as white space. -/
def isSpace (c : Nat) : Bool :=
  (0x09 ≤ c && c ≤ 0x0D) || (0x1C ≤ c && c ≤ 0x20) || c == 0x85 || c == 0xA0 || c == 0x1680 ||
    (0x2000 ≤ c && c ≤ 0x200A) || c == 0x2028 || c == 0x2029 || c == 0x202F || c == 0x205F ||
    c == 0x3000

def strip (t : Text) : Text := ((t.dropWhile isSpace).reverse.dropWhile isSpace).reverse

/-- The words of `t` after the letters of the word that is being read. -/
def splitFrom : Text → Text → List Text
  | word, [] => if word = [] then [] else [word]
  | word, c :: cs =>
    if isSpace c then
      if word = [] then splitFrom [] cs else word :: splitFrom [] cs
    else splitFrom (word ++ [c]) cs

/-- `str.split()`. -/
def split (t : Text) : List Text := splitFrom [] t

/-- A pattern is given by what is left after a match at the front. -/
abbrev Pattern := Text → Option Text

def subFrom (p : Pattern) : Nat → Text → Text
  | 0, t => t
  | _ + 1, [] => []
  | n + 1, c :: cs =>
    match p (c :: cs) with
    | some rest => subFrom p n rest
    | none => c :: subFrom p n cs

/-- `re.sub` with the empty replacement, for a pattern that matches no empty text: each round
takes a character. -/
def sub (p : Pattern) (t : Text) : Text := subFrom p t.length t

/-- One character of each set. -/
def sequence : List (List Nat) → Pattern
  | [], t => some t
  | _ :: _, [] => none
  | set :: sets, c :: cs => if c ∈ set then sequence sets cs else none

/-- `.*?` and then the pattern. -/
def firstAfter (p : Pattern) : Pattern
  | [] => p []
  | c :: cs =>
    match p (c :: cs) with
    | some rest => some rest
    | none => firstAfter p cs

/-! ## Numbers -/

/-- A float by its value. -/
inductive PyFloat where
  | finite (q : Rat)
  | inf
  | negInf
  | nan
deriving DecidableEq

/-- `int(a / b)` for integers above zero: the quotient is rounded to 53 bits, half to even,
and it is an `OverflowError` where that is no float. -/
def trueDivInt (a b : Nat) : Option Nat :=
  let shift := 60 + Nat.log 2 b
  let scaled := a * 2 ^ shift / b
  let exact := decide (a * 2 ^ shift % b = 0)
  let drop := Nat.log 2 scaled - 52
  let kept := scaled / 2 ^ drop
  let rest := scaled % 2 ^ drop
  let half := 2 ^ (drop - 1)
  let rounded :=
    if rest > half then kept + 1
    else if rest = half then
      if exact && decide (kept % 2 = 0) then kept else kept + 1
    else kept
  let value := rounded * 2 ^ drop
  if value ≥ 2 ^ (1024 + shift) then none else some (value / 2 ^ shift)

example : trueDivInt 10 4 = some 2 ∧ trueDivInt (2 ^ 53 + 1) 1 = some (2 ^ 53) ∧
    trueDivInt (2 ^ 1024) 1 = none := by decide +kernel

/-- `round(q)`: the nearest integer, the even one of two. -/
def roundHalfEven (q : Rat) : Int :=
  let rest := q - q.floor
  if rest < 1 / 2 then q.floor
  else if rest = 1 / 2 ∧ q.floor % 2 = 0 then q.floor
  else q.floor + 1

example : roundHalfEven (5 / 2) = 2 ∧ roundHalfEven (7 / 2) = 4 ∧ roundHalfEven (-1 / 3) = 0 := by
  decide +kernel

/-! ## Rounding -/

theorem roundHalfEven_intCast (n : Int) : roundHalfEven n = n := by
  unfold roundHalfEven
  rw [Rat.floor_intCast, Rat.sub_self]
  exact if_pos (by grind)

theorem le_roundHalfEven (q : Rat) : q.floor ≤ roundHalfEven q := by
  unfold roundHalfEven
  dsimp only
  split_ifs <;> omega

theorem roundHalfEven_le (q : Rat) : roundHalfEven q ≤ q.floor + 1 := by
  unfold roundHalfEven
  dsimp only
  split_ifs <;> omega

theorem roundHalfEven_monotone {p q : Rat} (h : p ≤ q) : roundHalfEven p ≤ roundHalfEven q := by
  rcases Int.lt_or_eq_of_le (Rat.floor_monotone h) with hlt | heq
  · have := roundHalfEven_le p
    have := le_roundHalfEven q
    omega
  · have hrest : p - p.floor ≤ q - q.floor := by
      rw [heq]
      grind
    unfold roundHalfEven
    rw [← heq] at hrest ⊢
    dsimp only
    split_ifs <;> grind

/-- What the half of the last place decides: `kept` is rounded up to `rounded`, or not. -/
structure RoundedUp (kept rest half rounded : Nat) : Prop where
  le : kept ≤ rounded
  le_succ : rounded ≤ kept + 1
  below : rest < half → rounded = kept
  above : half ≤ rest → kept % 2 = 1 → rounded = kept + 1

theorem halfEven_rounded (kept rest half : Nat) (exact : Bool) :
    RoundedUp kept rest half
      (if rest > half then kept + 1
        else if rest = half then
          if exact && decide (kept % 2 = 0) then kept else kept + 1
        else kept) := by
  constructor
  · split_ifs <;> omega
  · split_ifs <;> omega
  · intro h
    rw [if_neg (by omega), if_neg (by omega)]
  · intro h hodd
    have heven : (exact && decide (kept % 2 = 0)) = false := by simp [hodd]
    simp only [heven, Bool.false_eq_true, if_false]
    split_ifs <;> omega

/-- Of 53 places that are kept, only where all of them are ones it is the rest that decides. -/
theorem RoundedUp.reaches {kept rest half rounded : Nat} (h : RoundedUp kept rest half rounded)
    (hhalf : 0 < half) (hkept : kept < 2 ^ 53) (hrest : rest < half * 2 ^ 1) :
    half * 2 ^ 54 ≤ rounded * (half * 2 ^ 1) ↔
      (2 ^ 54 - 1) * half ≤ half * 2 ^ 1 * kept + rest := by
  by_cases hones : kept = 2 ^ 53 - 1
  · subst hones
    by_cases habove : half ≤ rest
    · rw [h.above habove (by decide)]
      omega
    · rw [h.below (by omega)]
      omega
  · have hshort : rounded * (half * 2 ^ 1) ≤ (2 ^ 53 - 1) * (half * 2 ^ 1) :=
      Nat.mul_le_mul_right _ (h.le_succ.trans (by omega))
    have hk : half * 2 ^ 1 * kept ≤ half * 2 ^ 1 * (2 ^ 53 - 2) :=
      Nat.mul_le_mul_left _ (by omega)
    omega

/-- A number rounds to 54 bits and `e` zeros as soon as no 53 bits come nearer. -/
theorem rounded_reaches {n e rounded : Nat}
    (h : RoundedUp (n / 2 ^ (Nat.log 2 n - 52)) (n % 2 ^ (Nat.log 2 n - 52))
      (2 ^ (Nat.log 2 n - 52 - 1)) rounded) :
    2 ^ (e + 54) ≤ rounded * 2 ^ (Nat.log 2 n - 52) ↔ (2 ^ 54 - 1) * 2 ^ e ≤ n := by
  rcases Nat.eq_zero_or_pos n with rfl | hpos
  · obtain rfl : rounded = 0 := by simpa using h.below
    have := Nat.two_pow_pos e
    have := Nat.two_pow_pos (e + 54)
    omega
  have hle : 2 ^ Nat.log 2 n ≤ n := Nat.pow_log_le_self 2 hpos.ne'
  have hlt : n < 2 ^ (Nat.log 2 n + 1) := Nat.lt_pow_succ_log_self Nat.one_lt_two n
  generalize Nat.log 2 n = l at h hle hlt ⊢
  have hkept : n / 2 ^ (l - 52) < 2 ^ 53 := by
    rw [Nat.div_lt_iff_lt_mul (Nat.two_pow_pos _), ← Nat.pow_add]
    exact hlt.trans_le (Nat.pow_le_pow_right Nat.two_pos (by omega))
  rcases Nat.lt_trichotomy l (e + 53) with hl | rfl | hl
  · -- the number is too short, and so is the next power of two
    have hshort : (2 : Nat) ^ (l + 1) ≤ 2 ^ (e + 53) := Nat.pow_le_pow_right Nat.two_pos (by omega)
    have hrounded : rounded * 2 ^ (l - 52) ≤ 2 ^ 53 * 2 ^ e :=
      Nat.mul_le_mul (h.le_succ.trans hkept) (Nat.pow_le_pow_right Nat.two_pos (by omega))
    have hp := Nat.two_pow_pos e
    rw [Nat.pow_add 2 e] at hshort ⊢
    omega
  · -- 53 places are kept
    rw [show e + 53 - 52 = e + 1 by omega] at h hkept ⊢
    have hp := Nat.two_pow_pos e
    have hn := Nat.div_add_mod n (2 ^ (e + 1))
    have hrest := Nat.mod_lt n (Nat.two_pow_pos (e + 1))
    generalize n / 2 ^ (e + 1) = kept at h hkept hn ⊢
    generalize n % 2 ^ (e + 1) = rest at h hn hrest ⊢
    rw [show e + 1 - 1 = e by omega] at h
    rw [Nat.pow_add 2 e 1] at hn hrest ⊢
    rw [Nat.pow_add 2 e 54, ← hn]
    exact h.reaches hp hkept hrest
  · -- the number is above the power of two, and the kept places alone are
    have hhigh : (2 : Nat) ^ (e + 54) ≤ 2 ^ l := Nat.pow_le_pow_right Nat.two_pos (by omega)
    have hplaces : 2 ^ l ≤ n / 2 ^ (l - 52) * 2 ^ (l - 52) := by
      have hsplit : (2 : Nat) ^ l = 2 ^ 52 * 2 ^ (l - 52) := by
        rw [← Nat.pow_add]
        congr 1
        omega
      rw [hsplit] at hle ⊢
      exact Nat.mul_le_mul_right _ ((Nat.le_div_iff_mul_le (Nat.two_pow_pos _)).mpr hle)
    have hrounded := Nat.mul_le_mul_right (2 ^ (l - 52)) h.le
    have hp := Nat.two_pow_pos e
    have hpow := Nat.pow_add 2 e 54
    omega

theorem scaled_reaches {a b k e shift : Nat} (hb : 0 < b) :
    k * 2 ^ (e + shift) ≤ a * 2 ^ shift / b ↔ k * 2 ^ e * b ≤ a := by
  rw [Nat.le_div_iff_mul_le hb, Nat.pow_add, ← Nat.mul_assoc, Nat.mul_right_comm,
    Nat.mul_le_mul_right_iff (Nat.two_pow_pos shift)]

/-- The quotient is no float from the point on that is half a place below `2 ^ 1024`. -/
theorem trueDivInt_none {a b : Nat} (hb : 0 < b) :
    trueDivInt a b = none ↔ (2 ^ 54 - 1) * 2 ^ 970 * b ≤ a := by
  unfold trueDivInt
  dsimp only
  have hround := halfEven_rounded
    (a * 2 ^ (60 + Nat.log 2 b) / b / 2 ^ (Nat.log 2 (a * 2 ^ (60 + Nat.log 2 b) / b) - 52))
    (a * 2 ^ (60 + Nat.log 2 b) / b % 2 ^ (Nat.log 2 (a * 2 ^ (60 + Nat.log 2 b) / b) - 52))
    (2 ^ (Nat.log 2 (a * 2 ^ (60 + Nat.log 2 b) / b) - 52 - 1))
    (decide (a * 2 ^ (60 + Nat.log 2 b) % b = 0))
  generalize 60 + Nat.log 2 b = shift at hround ⊢
  have hreach := rounded_reaches (e := 970 + shift) hround
  rw [show 970 + shift + 54 = 1024 + shift by omega] at hreach
  rw [ite_eq_left_iff]
  simp only [reduceCtorEq, imp_false, not_not, ge_iff_le]
  exact hreach.trans (scaled_reaches hb)

/-! ## Where the letters come from -/

theorem mem_splitFrom {word t w : Text} (h : w ∈ splitFrom word t) :
    w ≠ [] ∧ ∀ c ∈ w, c ∈ word ∨ c ∈ t := by
  induction t generalizing word with
  | nil =>
    unfold splitFrom at h
    split at h
    · cases h
    · rename_i hword
      obtain rfl := List.mem_singleton.mp h
      exact ⟨hword, fun c hc => Or.inl hc⟩
  | cons d t ih =>
    have hnext : ∀ {word'}, w ∈ splitFrom word' t → (∀ c ∈ word', c ∈ word ∨ c = d) →
        w ≠ [] ∧ ∀ c ∈ w, c ∈ word ∨ c ∈ d :: t := by
      intro word' hw hword'
      refine ⟨(ih hw).1, fun c hc => ?_⟩
      rcases (ih hw).2 c hc with hc | hc
      · rcases hword' c hc with hc | rfl
        · exact Or.inl hc
        · exact Or.inr List.mem_cons_self
      · exact Or.inr (List.mem_cons_of_mem _ hc)
    unfold splitFrom at h
    split at h
    · split at h
      · exact hnext h (fun _ hc => nomatch hc)
      · rename_i hword
        rcases List.mem_cons.mp h with rfl | h
        · exact ⟨hword, fun c hc => Or.inl hc⟩
        · exact hnext h (fun _ hc => nomatch hc)
    · exact hnext h (fun c hc => (List.mem_append.mp hc).imp id List.mem_singleton.mp)

theorem mem_split {t w : Text} (h : w ∈ split t) : w ≠ [] ∧ ∀ c ∈ w, c ∈ t := by
  obtain ⟨hne, hc⟩ := mem_splitFrom h
  exact ⟨hne, fun c hcw => (hc c hcw).resolve_left nofun⟩

end py_text
