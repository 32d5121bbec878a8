-- The functions of Go's standard library on text and paths that the services
-- call: `strings.TrimSpace`, `strconv.Atoi`, `filepath.Ext`, `path.Join`.
import Mathlib.Algebra.Ring.Int.Defs
import Mathlib.Algebra.Ring.Nat
import Mathlib.Data.List.DropRight

namespace go_text

/-! ## Spaces and numbers -/

/-- `unicode.IsSpace`. -/
def isSpace (c : Char) : Bool :=
  c ∈ ['\t', '\n', '\x0b', '\x0c', '\r', ' ', '\u0085', '\u00a0', '\u1680', '\u2028', '\u2029',
    '\u202f', '\u205f', '\u3000'] || (0x2000 ≤ c.toNat && c.toNat ≤ 0x200a)

def trimSpace (s : String) : String := String.ofList ((s.toList.dropWhile isSpace).rdropWhile isSpace)

theorem dropWhile_of_head {p : Char → Bool} {cs : List Char} (h : ∀ c ∈ cs.head?, p c = false) :
    cs.dropWhile p = cs := by
  cases cs with
  | nil => rfl
  | cons c cs => rw [List.dropWhile_cons, if_neg (by simp [h c rfl])]

theorem trimSpace_trimSpace (s : String) : trimSpace (trimSpace s) = trimSpace s := by
  unfold trimSpace
  rw [String.toList_ofList]
  have hhead : ∀ c ∈ ((s.toList.dropWhile isSpace).rdropWhile isSpace).head?, isSpace c = false := by
    intro c hc
    have hprefix := List.rdropWhile_prefix isSpace (s.toList.dropWhile isSpace)
    have hfirst : (s.toList.dropWhile isSpace).head? = some c := by
      obtain ⟨rest, hrest⟩ := hprefix
      rw [← hrest, List.head?_append, hc]
      rfl
    have hdrop := List.head?_dropWhile_not isSpace s.toList
    rw [hfirst] at hdrop
    exact hdrop
  rw [dropWhile_of_head hhead, List.rdropWhile_idempotent]

/-- The value of a run of digits, after `n`. -/
def digits (n : Nat) : List Char → Option Nat
  | [] => some n
  | c :: cs => if c.isDigit then digits (10 * n + (c.toNat - '0'.toNat)) cs else none

/-- `strconv.Atoi` with a 64 bit `int`: an optional sign and at least one digit. -/
def atoi (s : String) : Option Int := do
  let (negative, cs) := match s.toList with
    | '-' :: cs => (true, cs)
    | '+' :: cs => (false, cs)
    | cs => (false, cs)
  if cs = [] then none
  let n ← digits 0 cs
  let v : Int := if negative then -n else n
  if -2 ^ 63 ≤ v && v < 2 ^ 63 then some v else none

theorem digits_run {cs : List Char} (h : ∀ c ∈ cs, c.isDigit = true) (n : Nat) :
    digits n cs = some (Nat.ofDigitChars 10 cs n) := by
  induction cs generalizing n with
  | nil => rfl
  | cons c cs ih =>
    unfold digits
    rw [if_pos (h c List.mem_cons_self), Nat.ofDigitChars_cons]
    exact ih (fun c hc => h c (List.mem_cons_of_mem _ hc)) _

theorem digits_toDigits (n : Nat) : digits 0 (Nat.toDigits 10 n) = some n := by
  rw [digits_run fun c hc => Nat.isDigit_of_mem_toDigits (by decide) (by decide) hc,
    Nat.ofDigitChars_toDigits (by decide) (by decide)]

/-- The digits of a number have no sign before them. -/
theorem toDigits_unsigned {n : Nat} {c : Char} (hc : c.isDigit = false) (cs : List Char) :
    Nat.toDigits 10 n ≠ c :: cs := by
  intro heq
  have hmem : c ∈ Nat.toDigits 10 n := heq ▸ List.mem_cons_self
  rw [Nat.isDigit_of_mem_toDigits (by decide) (by decide) hmem] at hc
  cases hc

theorem atoi_digits {s : String} {n : Nat} (hs : s.toList = Nat.toDigits 10 n)
    (h : (n : Int) < 2 ^ 63) : atoi s = some (n : Int) := by
  have hmin : -2 ^ 63 ≤ (n : Int) := by omega
  unfold atoi
  rw [hs]
  split
  rename_i heq
  split at heq
  · rename_i cs hcs
    exact absurd hcs (toDigits_unsigned (by decide) cs)
  · rename_i cs hcs
    exact absurd hcs (toDigits_unsigned (by decide) cs)
  · obtain ⟨rfl, rfl⟩ := Prod.mk.inj heq
    rw [if_neg Nat.toDigits_ne_nil, digits_toDigits, Option.bind_eq_bind, Option.bind_some,
      if_neg Bool.false_ne_true]
    exact if_pos (Bool.and_eq_true_iff.mpr ⟨decide_eq_true hmin, decide_eq_true h⟩)

theorem atoi_minus {s : String} {n : Nat} (hs : s.toList = '-' :: Nat.toDigits 10 n)
    (h : -2 ^ 63 ≤ -(n : Int)) : atoi s = some (-(n : Int)) := by
  have hmax : -(n : Int) < 2 ^ 63 := by omega
  unfold atoi
  rw [hs]
  split
  rename_i heq
  split at heq
  · rename_i cs hcs
    obtain rfl := (List.cons.inj hcs).2
    obtain ⟨rfl, rfl⟩ := Prod.mk.inj heq
    rw [if_neg Nat.toDigits_ne_nil, digits_toDigits, Option.bind_eq_bind, Option.bind_some,
      if_pos rfl]
    exact if_pos (Bool.and_eq_true_iff.mpr ⟨decide_eq_true h, decide_eq_true hmax⟩)
  · rename_i cs hcs
    exact absurd (List.cons.inj hcs).1 (by decide)
  · rename_i hminus _
    exact absurd rfl (hminus _)

/-- `strconv.Atoi` reads what `strconv.Itoa` writes. -/
theorem atoi_toString {n : Int} (hmin : -2 ^ 63 ≤ n) (hmax : n < 2 ^ 63) :
    atoi (toString n) = some n := by
  cases n with
  | ofNat n =>
    rw [Int.ofNat_eq_natCast] at hmax ⊢
    exact atoi_digits Nat.toList_repr hmax
  | negSucc n =>
    have htext : (toString (Int.negSucc n)).toList = '-' :: Nat.toDigits 10 (n + 1) := by
      change ("-" ++ Nat.repr (n + 1)).toList = _
      rw [String.toList_append, Nat.toList_repr]
      rfl
    rw [Int.negSucc_eq] at hmin htext ⊢
    exact atoi_minus htext hmin

/-! ## Paths -/

/-- The loop of `filepath.Ext`, from the end of the path. -/
def extLoop (seen : List Char) : List Char → List Char
  | [] => []
  | c :: cs => if c = '/' then [] else if c = '.' then '.' :: seen else extLoop (c :: seen) cs

def ext (path : String) : String := String.ofList (extLoop [] path.toList.reverse)

/-- What `path.Clean` does with the next element. `out` is what is kept, last element
first. -/
def cleanStep (rooted : Bool) (out : List (List Char)) (e : List Char) : List (List Char) :=
  if e = [] || e = ['.'] then out
  else if e = ['.', '.'] then
    match out with
    | [] => if rooted then [] else [e]
    | top :: rest => if top = ['.', '.'] then e :: out else rest
  else e :: out

/-- `path.Clean`. -/
def clean (path : List Char) : List Char :=
  let rooted := path.head? = some '/'
  let out := ((path.splitOn '/').foldl (cleanStep rooted) []).reverse
  let joined := ['/'].intercalate out
  if rooted then '/' :: joined else if joined = [] then ['.'] else joined

/-- `path.Join`: the elements before the first that is not empty are left out. -/
def join (elems : List String) : String :=
  match elems.dropWhile (· = "") with
  | [] => ""
  | elems => String.ofList (clean (['/'].intercalate (elems.map String.toList)))

/-- An element that `Clean` keeps as it is. -/
structure Plain (e : List Char) : Prop where
  not_empty : e ≠ []
  no_slash : '/' ∉ e
  not_dot : e ≠ ['.']
  not_dots : e ≠ ['.', '.']

theorem cleanStep_plain {e : List Char} (h : Plain e) (rooted : Bool) (out : List (List Char)) :
    cleanStep rooted out e = e :: out := by
  unfold cleanStep
  simp [h.not_empty, h.not_dot, h.not_dots]

theorem foldl_cleanStep_plain (rooted : Bool) (es out : List (List Char))
    (h : ∀ e ∈ es, Plain e) : es.foldl (cleanStep rooted) out = es.reverse ++ out := by
  induction es generalizing out with
  | nil => rfl
  | cons e es ih =>
    rw [List.foldl_cons, cleanStep_plain (h e List.mem_cons_self),
      ih _ fun x hx => h x (List.mem_cons_of_mem _ hx)]
    simp

theorem clean_plain {es : List (List Char)} (hne : es ≠ []) (h : ∀ e ∈ es, Plain e) :
    clean (['/'].intercalate es) = ['/'].intercalate es := by
  obtain ⟨e, rest, rfl⟩ := List.exists_cons_of_ne_nil hne
  have he : Plain e := h e List.mem_cons_self
  obtain ⟨c, cs, rfl⟩ := List.exists_cons_of_ne_nil he.not_empty
  have hhead : (['/'].intercalate ((c :: cs) :: rest)).head? = some c := by
    cases rest <;> simp [List.intercalate]
  have hc : c ≠ '/' := fun hc => he.no_slash (hc ▸ List.mem_cons_self)
  have hsplit := List.splitOn_intercalate '/' (fun l hl => (h l hl).no_slash) hne
  unfold clean
  simp only [hhead, hsplit, foldl_cleanStep_plain _ _ _ h, List.append_nil, List.reverse_reverse,
    Option.some.injEq, hc, decide_false, if_false]
  split
  · rename_i hnil
    rw [hnil] at hhead
    cases hhead
  · rfl

example : join ["uploads", "a", "../b.mp4"] = "uploads/b.mp4" := by decide

end go_text
