-- Bytes as text: `encoding/base64` and `encoding/hex` of Go's standard library.
import Mathlib.Data.List.GetD

namespace go_text

/-! ## Base64 -/

/-- An encoding, with its 64 letters and what fills up the last group of four. -/
structure Base64 where
  letters : List Char
  padding : List Char

def alphanumerics : List Char :=
  "ABCDEFGHIJKLMNOPQRSTUVWXYZabcdefghijklmnopqrstuvwxyz0123456789".toList

/-- `base64.StdEncoding`. -/
def stdEncoding : Base64 := ⟨alphanumerics ++ ['+', '/'], ['=']⟩

/-- `base64.RawURLEncoding`. -/
def rawURLEncoding : Base64 := ⟨alphanumerics ++ ['-', '_'], []⟩

namespace Base64

variable (e : Base64)

def letter (n : Nat) : Char := e.letters.getD n '='

def encode : List UInt8 → List Char
  | [] => []
  | [a] => e.letter (a.toNat / 4) :: e.letter (a.toNat % 4 * 16) :: (e.padding ++ e.padding)
  | [a, b] =>
    e.letter (a.toNat / 4) :: e.letter (a.toNat % 4 * 16 + b.toNat / 16) ::
      e.letter (b.toNat % 16 * 4) :: e.padding
  | a :: b :: c :: rest =>
    e.letter (a.toNat / 4) :: e.letter (a.toNat % 4 * 16 + b.toNat / 16) ::
      e.letter (b.toNat % 16 * 4 + c.toNat / 64) :: e.letter (c.toNat % 64) :: encode rest

def encodeToString (bytes : List UInt8) : String := String.ofList (e.encode bytes)

def value (c : Char) : Option Nat := e.letters.idxOf? c

/-- The groups of a padded text. The bits behind the last byte are not looked at. -/
def decodeGroups : List Char → Option (List UInt8)
  | [] => some []
  | a :: b :: c :: d :: rest => do
    let a ← e.value a
    let b ← e.value b
    let first := UInt8.ofNat (a * 4 + b / 16)
    if c = '=' then
      if d = '=' ∧ rest = [] then some [first] else none
    else
      let c ← e.value c
      let second := UInt8.ofNat (b % 16 * 16 + c / 4)
      if d = '=' then
        if rest = [] then some [first, second] else none
      else
        let d ← e.value d
        let more ← decodeGroups rest
        return first :: second :: UInt8.ofNat (c % 4 * 64 + d) :: more
  | _ => none

/-- `DecodeString` of a padded encoding. Line ends are skipped. -/
def decodeString (s : String) : Option (List UInt8) :=
  e.decodeGroups (s.toList.filter fun c => c ≠ '\r' && c ≠ '\n')

end Base64

/-! ## The letters -/

theorem std_letter {n : Nat} (h : n < 64) :
    stdEncoding.value (stdEncoding.letter n) = some n ∧ stdEncoding.letter n ≠ '=' ∧
      stdEncoding.letter n ≠ '\r' ∧ stdEncoding.letter n ≠ '\n' := by
  revert n
  decide

theorem std_value {n : Nat} (h : n < 64) :
    stdEncoding.value (stdEncoding.letter n) = some n := (std_letter h).1

theorem std_ne_padding {n : Nat} (h : n < 64) : stdEncoding.letter n ≠ '=' := (std_letter h).2.1

/-! ## The round trip -/

@[simp] theorem std_padding : stdEncoding.padding = ['='] := rfl

theorem std_decodeGroups (bytes : List UInt8) :
    stdEncoding.decodeGroups (stdEncoding.encode bytes) = some bytes := by
  induction bytes using Base64.encode.induct with
  | case1 => rfl
  | case2 a =>
    have ha := a.toNat_lt
    have hfirst : a.toNat / 4 * 4 + a.toNat % 4 * 16 / 16 = a.toNat := by omega
    simp only [Base64.encode, std_padding, List.cons_append, List.nil_append, Base64.decodeGroups,
      std_value (show a.toNat / 4 < 64 by omega), std_value (show a.toNat % 4 * 16 < 64 by omega),
      Option.bind_eq_bind, Option.bind_some, hfirst, UInt8.ofNat_toNat, and_self, if_true]
  | case3 a b =>
    have ha := a.toNat_lt
    have hb := b.toNat_lt
    have hfirst : a.toNat / 4 * 4 + (a.toNat % 4 * 16 + b.toNat / 16) / 16 = a.toNat := by omega
    have hsecond : (a.toNat % 4 * 16 + b.toNat / 16) % 16 * 16 + b.toNat % 16 * 4 / 4 = b.toNat := by
      omega
    have hthird := std_ne_padding (show b.toNat % 16 * 4 < 64 by omega)
    simp only [Base64.encode, std_padding, Base64.decodeGroups,
      std_value (show a.toNat / 4 < 64 by omega),
      std_value (show a.toNat % 4 * 16 + b.toNat / 16 < 64 by omega),
      std_value (show b.toNat % 16 * 4 < 64 by omega), if_neg hthird,
      Option.bind_eq_bind, Option.bind_some, hfirst, hsecond, UInt8.ofNat_toNat, if_true]
  | case4 a b c rest ih =>
    have ha := a.toNat_lt
    have hb := b.toNat_lt
    have hc := c.toNat_lt
    have hfirst : a.toNat / 4 * 4 + (a.toNat % 4 * 16 + b.toNat / 16) / 16 = a.toNat := by omega
    have hsecond : (a.toNat % 4 * 16 + b.toNat / 16) % 16 * 16 +
        (b.toNat % 16 * 4 + c.toNat / 64) / 4 = b.toNat := by omega
    have hthird : (b.toNat % 16 * 4 + c.toNat / 64) % 4 * 64 + c.toNat % 64 = c.toNat := by omega
    have hne := std_ne_padding (show b.toNat % 16 * 4 + c.toNat / 64 < 64 by omega)
    have hne' := std_ne_padding (show c.toNat % 64 < 64 by omega)
    simp only [Base64.encode, Base64.decodeGroups,
      std_value (show a.toNat / 4 < 64 by omega),
      std_value (show a.toNat % 4 * 16 + b.toNat / 16 < 64 by omega),
      std_value (show b.toNat % 16 * 4 + c.toNat / 64 < 64 by omega),
      std_value (show c.toNat % 64 < 64 by omega), if_neg hne, if_neg hne', ih,
      Option.bind_eq_bind, Option.bind_some, Option.pure_def, hfirst, hsecond, hthird,
      UInt8.ofNat_toNat]

/-- Each letter of an encoded text is one of the encoding, where its padding is. -/
theorem mem_encode (e : Base64) (hletters : e.letters.length = 64) (bytes : List UInt8) {c : Char}
    (h : c ∈ e.encode bytes) : c ∈ e.letters ∨ c ∈ e.padding := by
  have hletter : ∀ n, n < 64 → e.letter n ∈ e.letters := by
    intro n hn
    unfold Base64.letter
    rw [List.getD_eq_getElem _ _ (by omega)]
    exact List.getElem_mem _
  induction bytes using Base64.encode.induct with
  | case1 => cases h
  | case2 a =>
    have ha := a.toNat_lt
    simp only [Base64.encode, List.mem_cons, List.mem_append, or_self] at h
    rcases h with rfl | rfl | h
    · exact Or.inl (hletter _ (by omega))
    · exact Or.inl (hletter _ (by omega))
    · exact Or.inr h
  | case3 a b =>
    have ha := a.toNat_lt
    have hb := b.toNat_lt
    simp only [Base64.encode, List.mem_cons] at h
    rcases h with rfl | rfl | rfl | h
    · exact Or.inl (hletter _ (by omega))
    · exact Or.inl (hletter _ (by omega))
    · exact Or.inl (hletter _ (by omega))
    · exact Or.inr h
  | case4 a b c rest ih =>
    have ha := a.toNat_lt
    have hb := b.toNat_lt
    have hc := c.toNat_lt
    simp only [Base64.encode, List.mem_cons] at h
    rcases h with rfl | rfl | rfl | rfl | h
    · exact Or.inl (hletter _ (by omega))
    · exact Or.inl (hletter _ (by omega))
    · exact Or.inl (hletter _ (by omega))
    · exact Or.inl (hletter _ (by omega))
    · exact ih h

/-- What is written in the standard encoding is read back. -/
theorem std_decode_encode (bytes : List UInt8) :
    stdEncoding.decodeString (stdEncoding.encodeToString bytes) = some bytes := by
  unfold Base64.decodeString Base64.encodeToString
  rw [String.toList_ofList]
  have hall : ∀ c ∈ stdEncoding.encode bytes, (c ≠ '\r' && c ≠ '\n') = true := by
    have hletters : (stdEncoding.letters ++ stdEncoding.padding).all
        (fun c => c ≠ '\r' && c ≠ '\n') = true := rfl
    intro c hc
    exact List.all_eq_true.mp hletters c
      (List.mem_append.mpr (mem_encode stdEncoding (by decide) bytes hc))
  rw [List.filter_eq_self.mpr hall, std_decodeGroups]

/-! ## Hexadecimal digits -/

def hexDigit (n : Nat) : Char := "0123456789abcdef".toList.getD n '0'

/-- `hex.EncodeToString`. -/
def hexEncode : List UInt8 → List Char
  | [] => []
  | a :: rest => hexDigit (a.toNat / 16) :: hexDigit (a.toNat % 16) :: hexEncode rest

@[simp] theorem hexEncode_length (bytes : List UInt8) :
    (hexEncode bytes).length = 2 * bytes.length := by
  induction bytes with
  | nil => rfl
  | cons a rest ih =>
    simp only [hexEncode, List.length_cons, ih]
    omega

theorem hexDigit_injective {m n : Nat} (hm : m < 16) (hn : n < 16) (h : hexDigit m = hexDigit n) :
    m = n := by
  have hall : ∀ m < 16, ∀ n < 16, hexDigit m = hexDigit n → m = n := by decide
  exact hall m hm n hn h

theorem hexEncode_injective {bytes bytes' : List UInt8} (h : hexEncode bytes = hexEncode bytes') :
    bytes = bytes' := by
  induction bytes generalizing bytes' with
  | nil =>
    cases bytes' with
    | nil => rfl
    | cons b rest => simp [hexEncode] at h
  | cons a rest ih =>
    cases bytes' with
    | nil => simp [hexEncode] at h
    | cons b rest' =>
      simp only [hexEncode, List.cons.injEq] at h
      obtain ⟨hhigh, hlow, hrest⟩ := h
      have ha := a.toNat_lt
      have hb := b.toNat_lt
      have hhigh' := hexDigit_injective (by omega) (by omega) hhigh
      have hlow' := hexDigit_injective (by omega) (by omega) hlow
      have hsame : a = b := UInt8.toNat_inj.mp (by omega)
      rw [hsame, ih hrest]

end go_text
