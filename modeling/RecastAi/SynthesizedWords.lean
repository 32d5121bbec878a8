-- The words that `_synthesize_words` makes of a text tile the segment, as long
-- as the share of every word but the last is a quotient that a float can hold.
import RecastAi.Tilings
import RecastAi.TranscriptValidator

open py_text tilings

namespace recast_rules.transcript

/-! ## Over any division

The floats come in only with the division, so the loop is followed over any of them. -/

section Division

variable {divide : Nat → Nat → Option Nat} {span total : Nat} {endMs : Int}

/-- The loop of `_synthesize_words`, where `divide` is `int(a / b)`. -/
def wordsWith (divide : Nat → Nat → Option Nat) (span totalWeight : Nat) (endMs : Int) :
    Int → List Text → Except Raised (List Word)
  | _, [] => .ok []
  | cursor, [w] => .ok [⟨w, cursor, endMs⟩]
  | cursor, w :: w' :: ws =>
    match divide (span * weight w) totalWeight with
    | none => .error .overflow
    | some n =>
      let stepped := if cursor + n ≤ cursor then cursor + 1 else cursor + n
      let wEnd := if stepped > endMs then endMs else stepped
      match wordsWith divide span totalWeight endMs wEnd (w' :: ws) with
      | .error e => .error e
      | .ok more => .ok (⟨w, cursor, wEnd⟩ :: more)

theorem wordsWith_trueDivInt (cursor : Int) (ws : List Text) :
    wordsWith trueDivInt span total endMs cursor ws = wordsFrom span total endMs cursor ws := by
  induction ws generalizing cursor with
  | nil => rfl
  | cons w ws ih =>
    cases ws with
    | nil => rfl
    | cons w' ws =>
      unfold wordsWith wordsFrom
      cases trueDivInt (span * weight w) total with
      | none => rfl
      | some n =>
        dsimp only
        rewrite [ih]
        cases wordsFrom span total endMs _ (w' :: ws) with
        | error e => rfl
        | ok more => rfl

/-- The end of a word before the last one, where its share is `n`. -/
def wordEnd (endMs cursor : Int) (n : Nat) : Int :=
  let stepped := if cursor + n ≤ cursor then cursor + 1 else cursor + n
  if stepped > endMs then endMs else stepped

theorem le_wordEnd {cursor : Int} {n : Nat} (h : cursor ≤ endMs) : cursor ≤ wordEnd endMs cursor n := by
  unfold wordEnd
  dsimp only
  split_ifs <;> omega

theorem wordEnd_le (cursor : Int) (n : Nat) : wordEnd endMs cursor n ≤ endMs := by
  unfold wordEnd
  dsimp only
  split_ifs <;> omega

theorem wordsWith_cons_ok {cursor : Int} {w w' : Text} {ws : List Text} {words : List Word}
    (h : wordsWith divide span total endMs cursor (w :: w' :: ws) = .ok words) :
    ∃ n more, divide (span * weight w) total = some n ∧
      wordsWith divide span total endMs (wordEnd endMs cursor n) (w' :: ws) = .ok more ∧
      words = ⟨w, cursor, wordEnd endMs cursor n⟩ :: more := by
  unfold wordsWith at h
  split at h
  · cases h
  · rename_i n hn
    dsimp only at h
    split at h
    · cases h
    · rename_i more hmore
      exact ⟨n, more, hn, hmore, (Except.ok.inj h).symm⟩

theorem wordsWith_words {cursor : Int} {ws : List Text} {words : List Word}
    (h : wordsWith divide span total endMs cursor ws = .ok words) : words.map Word.word = ws := by
  induction ws generalizing cursor words with
  | nil =>
    obtain rfl := Except.ok.inj h
    rfl
  | cons w ws ih =>
    cases ws with
    | nil =>
      obtain rfl := Except.ok.inj h
      rfl
    | cons w' ws =>
      obtain ⟨n, more, -, hmore, rfl⟩ := wordsWith_cons_ok h
      simp [ih hmore]

/-- The cursor never passes the end of the segment, and the last word ends there. -/
theorem wordsWith_tiles {cursor : Int} {ws : List Text} {words : List Word}
    (h : wordsWith divide span total endMs cursor ws = .ok words) (hne : ws ≠ [])
    (hcursor : cursor ≤ endMs) : Tiles Word.startMs Word.endMs cursor endMs words := by
  induction ws generalizing cursor words with
  | nil => exact absurd rfl hne
  | cons w ws ih =>
    cases ws with
    | nil =>
      obtain rfl := Except.ok.inj h
      exact ⟨rfl, hcursor, rfl⟩
    | cons w' ws =>
      obtain ⟨n, more, -, hmore, rfl⟩ := wordsWith_cons_ok h
      exact ⟨rfl, le_wordEnd hcursor, ih hmore (List.cons_ne_nil _ _) (wordEnd_le _ _)⟩

/-- Only a share that is no float stops the loop. -/
theorem wordsWith_ok_iff (cursor : Int) (ws : List Text) :
    (∃ words, wordsWith divide span total endMs cursor ws = .ok words) ↔
      ∀ w ∈ ws.dropLast, divide (span * weight w) total ≠ none := by
  induction ws generalizing cursor with
  | nil => exact ⟨fun _ _ hw => absurd hw List.not_mem_nil, fun _ => ⟨[], rfl⟩⟩
  | cons w ws ih =>
    cases ws with
    | nil => exact ⟨fun _ _ hw => absurd hw List.not_mem_nil, fun _ => ⟨[⟨w, cursor, endMs⟩], rfl⟩⟩
    | cons w' ws =>
      rw [List.dropLast_cons_cons, List.forall_mem_cons]
      constructor
      · rintro ⟨words, h⟩
        obtain ⟨n, more, hn, hmore, -⟩ := wordsWith_cons_ok h
        exact ⟨by simp [hn], (ih _).mp ⟨more, hmore⟩⟩
      · rintro ⟨hw, hrest⟩
        obtain ⟨n, hn⟩ := Option.ne_none_iff_exists'.mp hw
        obtain ⟨more, hmore⟩ := (ih (wordEnd endMs cursor n)).mpr hrest
        refine ⟨⟨w, cursor, wordEnd endMs cursor n⟩ :: more, ?_⟩
        unfold wordEnd at hmore ⊢
        unfold wordsWith
        simp only [hn, hmore]

end Division

/-! ## The words of a segment -/

/-- `_synthesize_words` over any division. -/
def synthesizeWith (divide : Nat → Nat → Option Nat) (t : Text) (startMs endMs : Int) :
    Except Raised (List Word) :=
  wordsWith divide (max 1 (endMs - startMs)).toNat ((split t).map weight).sum endMs startMs (split t)

theorem synthesizeWith_trueDivInt (t : Text) (startMs endMs : Int) :
    synthesizeWith trueDivInt t startMs endMs = synthesizeWords t startMs endMs :=
  wordsWith_trueDivInt _ _

/-- The quotient rounds to a float. -/
def RoundsToFloat (a b : Nat) : Prop := a < (2 ^ 54 - 1) * 2 ^ 970 * b

instance (a b : Nat) : Decidable (RoundsToFloat a b) :=
  inferInstanceAs (Decidable (a < (2 ^ 54 - 1) * 2 ^ 970 * b))

theorem trueDivInt_ne_none {a b : Nat} (hb : 0 < b) :
    trueDivInt a b ≠ none ↔ RoundsToFloat a b := by
  unfold RoundsToFloat
  rw [Ne, trueDivInt_none hb]
  omega

theorem sum_weight_pos {ws : List Text} (h : ws ≠ []) : 0 < (ws.map weight).sum := by
  cases ws with
  | nil => exact absurd rfl h
  | cons w ws =>
    have hw : 1 ≤ weight w := Nat.le_max_left _ _
    rw [List.map_cons, List.sum_cons]
    omega

/-- The shares of all words but the last, which gets what is left, are floats. -/
def SharesAreFloats (t : Text) (startMs endMs : Int) : Prop :=
  ∀ w ∈ (split t).dropLast,
    RoundsToFloat ((endMs - startMs).toNat * weight w) ((split t).map weight).sum

instance (t : Text) (startMs endMs : Int) : Decidable (SharesAreFloats t startMs endMs) :=
  inferInstanceAs (Decidable (∀ w ∈ (split t).dropLast,
    RoundsToFloat ((endMs - startMs).toNat * weight w) ((split t).map weight).sum))

/-- The words tile the segment exactly where the shares are floats: without them there is an
`OverflowError`. -/
theorem synthesized_words_tile_the_segment {t : Text} {startMs endMs : Int}
    (hordered : startMs < endMs) (hwords : split t ≠ []) :
    (∃ words, synthesizeWords t startMs endMs = .ok words ∧ words.map Word.word = split t ∧
        Tiling Word.startMs Word.endMs startMs endMs words) ↔
      SharesAreFloats t startMs endMs := by
  have hspan : (max 1 (endMs - startMs)).toNat = (endMs - startMs).toNat := by omega
  have hok : (∃ words, synthesizeWords t startMs endMs = .ok words) ↔
      SharesAreFloats t startMs endMs := by
    rw [← synthesizeWith_trueDivInt]
    unfold synthesizeWith SharesAreFloats
    rw [wordsWith_ok_iff, hspan]
    simp only [trueDivInt_ne_none (sum_weight_pos hwords)]
  rw [← hok]
  constructor
  · rintro ⟨words, h, -⟩
    exact ⟨words, h⟩
  · rintro ⟨words, h⟩
    rw [← synthesizeWith_trueDivInt] at h
    have htiles := wordsWith_tiles h hwords hordered.le
    rw [synthesizeWith_trueDivInt] at h
    exact ⟨words, h, wordsWith_words ((synthesizeWith_trueDivInt _ _ _).trans h),
      tiling_of_tiles htiles⟩

/-- More words than milliseconds. -/
theorem three_words_tile_two_milliseconds :
    ∃ words, synthesizeWords (text "I am here") 5 7 = .ok words ∧
      words.map Word.word = split (text "I am here") ∧
      Tiling Word.startMs Word.endMs 5 7 words :=
  (synthesized_words_tile_the_segment (by decide) (by decide +kernel)).mpr (by decide +kernel)

/-- Two words over `10 ^ 400` milliseconds: the share of the first one is no float. -/
theorem long_segment_has_no_words :
    (0 : Int) ≤ 0 ∧ (0 : Int) < 10 ^ 400 ∧ split (text "a b") ≠ [] ∧
      ¬ ∃ words, synthesizeWords (text "a b") 0 (10 ^ 400) = .ok words := by
  refine ⟨le_rfl, Int.pow_pos (by decide), by decide +kernel, ?_⟩
  rintro ⟨words, h⟩
  rw [← synthesizeWith_trueDivInt] at h
  have hshares := (wordsWith_ok_iff _ _).mp ⟨words, h⟩
  revert hshares
  decide +kernel

end recast_rules.transcript
