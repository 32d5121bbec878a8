-- What `_sanitize_text` leaves of the tags and the script blocks. Each of its two
-- passes goes over the text once, so a removed part can leave its neighbours
-- behind as a new tag: the text is clean exactly where no gap joins one.
import RecastAi.PyPatterns
import RecastAi.TranscriptValidator

open py_text

namespace recast_rules.transcript

/-! ## The two patterns

Both begin with `<`, end with `>` and do not look any further. -/

def Bracketed (p : Pattern) : Prop :=
  ∀ t rest, p t = some rest → ∃ inner, t = 0x3C :: (inner ++ 0x3E :: rest) ∧
    ∀ rest', p (0x3C :: (inner ++ 0x3E :: rest')) = some rest'

theorem Bracketed.local {p : Pattern} (h : Bracketed p) : Local p := by
  intro t rest ht
  obtain ⟨inner, rfl, hp⟩ := h t rest ht
  refine ⟨0x3C :: (inner ++ [0x3E]), List.cons_ne_nil _ _, by simp, fun rest' => ?_⟩
  simpa using hp rest'

/-! ### Tags -/

/-- What may stand between `<` and the letter. -/
def Slash (s : Text) : Prop := s = [] ∨ s = [0x2F]

theorem htmlTag_opened {s more : Text} {c : Nat} (hs : Slash s) (hc : isLetter c = true) :
    htmlTag (0x3C :: (s ++ c :: more)) = firstAfter (py_text.sequence [[0x3E]]) more := by
  have hslash : c ≠ 0x2F := by
    rintro rfl
    exact absurd hc (by decide)
  have hlt : text "<" = [0x3C] := by decide
  have hsl : text "/" = [0x2F] := by decide
  have hgt : text ">" = [0x3E] := by decide
  unfold htmlTag
  rw [hlt, hsl, hgt]
  rcases hs with rfl | rfl
  · simp [py_text.sequence, hslash, hc]
  · simp [py_text.sequence, hc]

theorem htmlTag_some {t rest : Text} (h : htmlTag t = some rest) :
    ∃ s c more, Slash s ∧ isLetter c = true ∧ t = 0x3C :: (s ++ c :: more) := by
  have hlt : text "<" = [0x3C] := by decide
  have hsl : text "/" = [0x2F] := by decide
  unfold htmlTag at h
  rw [hlt, hsl] at h
  cases t with
  | nil => cases h
  | cons d t =>
    by_cases hd : d = 0x3C
    · subst hd
      cases t with
      | nil => simp [py_text.sequence] at h
      | cons c t =>
        by_cases hc : c = 0x2F
        · subst hc
          cases t with
          | nil => simp [py_text.sequence] at h
          | cons c t =>
            simp only [py_text.sequence, List.mem_singleton, if_true, Option.getD_some] at h
            split at h
            · rename_i hletter
              exact ⟨[0x2F], c, t, Or.inr rfl, hletter, rfl⟩
            · cases h
        · simp only [py_text.sequence, List.mem_singleton, if_true, if_neg hc, Option.getD_none] at h
          split at h
          · rename_i hletter
            exact ⟨[], c, t, Or.inl rfl, hletter, rfl⟩
          · cases h
    · simp [py_text.sequence, hd] at h

theorem htmlTag_bracketed : Bracketed htmlTag := by
  intro t rest h
  obtain ⟨s, c, more, hs, hc, rfl⟩ := htmlTag_some h
  rw [htmlTag_opened hs hc] at h
  have hsets : ([[0x3E]] : List (List Nat)) ≠ [] := List.cons_ne_nil _ _
  obtain ⟨w, -, hw, hlocal⟩ := firstAfter_local hsets h
  obtain ⟨inner, hinner⟩ := @firstAfter_snoc [] _ _ _ h
  obtain rfl : w = inner ++ [0x3E] := List.append_cancel_right (by rw [← hw, hinner]; simp)
  refine ⟨s ++ c :: inner, by simp [hinner], fun rest' => ?_⟩
  rw [List.append_assoc, List.cons_append, htmlTag_opened hs hc]
  simpa using hlocal rest'

/-- A tag stands in front as soon as it is opened and a `>` follows. -/
theorem htmlTag_of_mem {s more : Text} {c : Nat} (hs : Slash s) (hc : isLetter c = true)
    (hgt : 0x3E ∈ more) : htmlTag (0x3C :: (s ++ c :: more)) ≠ none := by
  rw [htmlTag_opened hs hc]
  exact firstAfter_of_mem hgt

/-! ### Script blocks -/

/-- What ends a script block. -/
def scriptEnd : List (List Nat) := [0x3C] :: [0x2F] :: scriptWord

theorem scriptBlock_eq (t : Text) :
    scriptBlock t = match py_text.sequence ([0x3C] :: scriptWord) t with
      | some (c :: rest) =>
        if isSpace c || [0x3E] == [c] then firstAfter (py_text.sequence (scriptEnd ++ [[0x3E]])) rest else none
      | _ => none := by
  have hlt : text "<" = [0x3C] := by decide
  have hsl : text "/" = [0x2F] := by decide
  have hgt : text ">" = [0x3E] := by decide
  unfold scriptBlock
  rw [hlt, hsl, hgt]
  rfl

theorem scriptBlock_bracketed : Bracketed scriptBlock := by
  intro t rest h
  rw [scriptBlock_eq] at h
  split at h
  · rename_i c more hopen
    split at h
    · rename_i hc
      obtain ⟨front, hlen, rfl, hfront⟩ := sequence_local hopen
      have hsets : scriptEnd ++ [[0x3E]] ≠ [] := by simp
      obtain ⟨w, -, hw, hlocal⟩ := firstAfter_local hsets h
      obtain ⟨inner, hinner⟩ := firstAfter_snoc h
      obtain rfl : w = inner ++ [0x3E] := List.append_cancel_right (by rw [← hw, hinner]; simp)
      -- the first of the seven characters is `<`
      cases front with
      | nil => cases hlen
      | cons d front =>
        rw [List.cons_append, py_text.sequence] at hopen
        split at hopen
        · rename_i hd
          obtain rfl := List.mem_singleton.mp hd
          refine ⟨front ++ c :: inner, by simp [hinner], fun rest' => ?_⟩
          have hagain := hfront (c :: (inner ++ 0x3E :: rest'))
          rw [List.cons_append] at hagain
          rw [List.append_assoc, List.cons_append, scriptBlock_eq, hagain]
          simp only [hc, if_true]
          simpa using hlocal rest'
        · cases hopen
    · cases h
  · cases h

/-- Cleaning makes no text longer. -/
theorem sanitizeText_length (t : Text) : (sanitizeText t).length ≤ t.length :=
  (strip_within _).length_le.trans
    ((subFrom_length htmlTag_bracketed.local _ _).trans
      (subFrom_length scriptBlock_bracketed.local _ _))

/-! ## The text and its gaps -/

/-- The text with a gap for each script block and each tag that is removed. -/
def gapped (t : Text) : List (Option Nat) := cut htmlTag (cut scriptBlock (t.map some))

/-- A `<` that only gaps, and at most a slash, part from a letter, with a `>` further on. -/
def TagJoined (m : List (Option Nat)) : Prop :=
  ∃ a b c letter d, m = a ++ some 0x3C :: (b ++ some letter :: (c ++ some 0x3E :: d)) ∧
    none ∈ b ∧ Slash b.reduceOption ∧ isLetter letter = true

/-- A script block with a gap in it. -/
def BlockJoined (m : List (Option Nat)) : Prop :=
  ∃ a b c, m = a ++ some 0x3C :: (b ++ some 0x3E :: c) ∧ none ∈ b ∧
    ∀ rest, scriptBlock (0x3C :: (b.reduceOption ++ 0x3E :: rest)) = some rest

theorem sanitizeText_gapped (t : Text) : sanitizeText t = strip (gapped t).reduceOption := by
  unfold sanitizeText gapped
  rw [reduceOption_cut htmlTag_bracketed.local, reduceOption_cut scriptBlock_bracketed.local,
    reduceOption_map_some]

/-- A bracketed text with no gap in it stands in the text that was cut. -/
theorem bracketed_occurs_stripped {p : Pattern} {m a b c : List (Option Nat)}
    (hm : m = a ++ some 0x3C :: (b ++ some 0x3E :: c))
    (hp : ∀ rest, p (0x3C :: (b.reduceOption ++ 0x3E :: rest)) ≠ none) :
    Occurs p (strip m.reduceOption) := by
  subst hm
  rw [List.reduceOption_append, List.reduceOption_cons_of_some, List.reduceOption_append,
    List.reduceOption_cons_of_some]
  obtain ⟨a', b', hstrip⟩ := strip_around (a := a.reduceOption) (w := b.reduceOption)
    (b := c.reduceOption) (x := 0x3C) (y := 0x3E) (by decide) (by decide)
  rw [hstrip]
  exact ⟨a', _, rfl, hp b'⟩

theorem tag_of_joined {m : List (Option Nat)} (h : TagJoined m) :
    Occurs htmlTag (strip m.reduceOption) := by
  obtain ⟨a, b, c, letter, d, rfl, -, hslash, hletter⟩ := h
  refine bracketed_occurs_stripped (a := a) (b := b ++ some letter :: c) (c := d) (by simp) ?_
  intro rest
  rw [List.reduceOption_append, List.reduceOption_cons_of_some, List.append_assoc,
    List.cons_append]
  exact htmlTag_of_mem hslash hletter (by simp)

theorem block_of_joined {m : List (Option Nat)} (h : BlockJoined m) :
    Occurs scriptBlock (strip m.reduceOption) := by
  obtain ⟨a, b, c, hm, -, hblock⟩ := h
  refine bracketed_occurs_stripped hm fun rest => ?_
  rw [hblock]
  exact Option.some_ne_none _

/-- A match in the stripped text has its two ends somewhere in the text with the gaps. -/
theorem ends_of_occurs {p : Pattern} (hp : Bracketed p) {m : List (Option Nat)}
    (h : Occurs p (strip m.reduceOption)) :
    ∃ a b c, m = a ++ some 0x3C :: (b ++ some 0x3E :: c) ∧
      ∀ rest, p (0x3C :: (b.reduceOption ++ 0x3E :: rest)) = some rest := by
  obtain ⟨front, back, hpart⟩ := strip_within m.reduceOption
  have hwhole := occurs_around (a := front) (b := back) hp.local h
  rw [hpart] at hwhole
  obtain ⟨u, s, hs, hmatch⟩ := hwhole
  obtain ⟨rest, hrest⟩ := Option.ne_none_iff_exists'.mp hmatch
  obtain ⟨inner, rfl, hagain⟩ := hp s rest hrest
  obtain ⟨a, b, c, hm, -, rfl, -⟩ := ends_of_reduceOption hs
  exact ⟨a, b, c, hm, hagain⟩

/-- Where the letter of a tag stands. -/
theorem letter_inside {s more inner : Text} {letter : Nat} (hletter : isLetter letter = true)
    (h : inner ++ [0x3E] = s ++ letter :: more) : ∃ more', inner = s ++ letter :: more' := by
  have hgt : letter ≠ 0x3E := by
    rintro rfl
    exact absurd hletter (by decide)
  rcases List.append_eq_append_iff.mp h with ⟨u, -, hu⟩ | ⟨u, rfl, hu⟩
  · cases u with
    | nil => exact absurd (List.cons.inj hu).1.symm hgt
    | cons x u => simp at hu
  · cases u with
    | nil => exact absurd (List.cons.inj hu).1 hgt
    | cons x u =>
      obtain ⟨rfl, -⟩ := List.cons.inj hu
      exact ⟨u, rfl⟩

/-- A tag is left only where a gap stands between its `<` and its letter: otherwise it would have
been removed. -/
theorem joined_of_tag {t : Text} (h : Occurs htmlTag (strip (gapped t).reduceOption)) :
    TagJoined (gapped t) := by
  obtain ⟨a, inner, d, hm, hmatch⟩ := ends_of_occurs htmlTag_bracketed h
  obtain ⟨s, letter, more, hslash, hletter, heq⟩ := htmlTag_some (hmatch [])
  obtain ⟨more', hinner⟩ := letter_inside hletter (List.cons.inj heq).2
  obtain ⟨b₁, b₂, rfl, rfl, hb₂⟩ := (List.reduceOption_eq_append_iff _ _ _).mp hinner
  obtain ⟨gaps, c, rfl, hgaps, -⟩ := reduceOption_eq_cons hb₂
  have hfront : (b₁ ++ gaps).reduceOption = b₁.reduceOption := by
    rw [List.reduceOption_append, hgaps, List.append_nil]
  by_cases hgap : none ∈ b₁ ++ gaps
  · exact ⟨a, b₁ ++ gaps, c, letter, d, by simp [hm], hgap, by rwa [hfront], hletter⟩
  · have hcut : Cut htmlTag (cut scriptBlock (t.map some))
        (a ++ some 0x3C :: (((b₁ ++ gaps).reduceOption ++ [letter]).map some ++ (c ++ some 0x3E :: d))) := by
      have hgapped := cut_spec htmlTag_bracketed.local (cut scriptBlock (t.map some))
      rw [List.map_append, ← map_some_of_no_gap hgap]
      rw [show cut htmlTag (cut scriptBlock (t.map some)) = gapped t from rfl, hm] at hgapped
      simpa using hgapped
    refine (no_match_stands hcut fun t ht => ?_).elim
    rw [List.append_assoc, hfront]
    exact htmlTag_of_mem hslash hletter (ht _ (by simp [List.reduceOption_append]))

/-- A script block is left only where there is a gap in it. -/
theorem joined_of_block {t : Text} (h : Occurs scriptBlock (strip (gapped t).reduceOption)) :
    BlockJoined (gapped t) := by
  obtain ⟨a, b, c, hm, hmatch⟩ := ends_of_occurs scriptBlock_bracketed h
  by_cases hgap : none ∈ b
  · exact ⟨a, b, c, hm, hgap, hmatch⟩
  · have hgapped := cut_spec htmlTag_bracketed.local (cut scriptBlock (t.map some))
    rw [show cut htmlTag (cut scriptBlock (t.map some)) = gapped t from rfl, hm] at hgapped
    -- the block stood as it is before the tags were removed, and even before the blocks were
    obtain ⟨front, before, hbefore, -, hkept⟩ := cut_kept hgapped
    have hall : b ++ some 0x3E :: c = (b.reduceOption ++ [0x3E]).map some ++ c := by
      rw [List.map_append, ← map_some_of_no_gap hgap]
      simp
    rw [hall] at hkept
    obtain ⟨after, rfl, -⟩ := cut_kept_together hkept
    have hcut := cut_spec scriptBlock_bracketed.local (t.map some)
    rw [hbefore] at hcut
    refine (no_match_stands hcut fun t _ => ?_).elim
    have := hmatch t
    simp [this]

/-- No tag and no script block is put together by what is removed. -/
structure NothingJoined (t : Text) : Prop where
  tags : ¬ TagJoined (gapped t)
  blocks : ¬ BlockJoined (gapped t)

theorem sanitizeText_eq_self {t : Text} (htag : ¬ Occurs htmlTag t) (hblock : ¬ Occurs scriptBlock t)
    (hstrip : strip t = t) : sanitizeText t = t := by
  unfold sanitizeText
  rw [sub_eq_self hblock, sub_eq_self htag, hstrip]

end recast_rules.transcript
