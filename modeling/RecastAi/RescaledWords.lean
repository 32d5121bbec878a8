-- The words of a clip with the times of the provider (`_rescale_provider_alignment`):
-- whatever the times are, the words stay in the clip, in their order.
import RecastAi.WordAlignment

open py_text recast_rules.transcript

namespace recast_rules.tts

/-! ## The monotonic pass -/

/-- The word lies between the two times. -/
def Within (lo hi : Int) (w : Word) : Prop := lo ≤ w.startMs ∧ w.startMs ≤ w.endMs ∧ w.endMs ≤ hi

theorem enforceMonotonic_within {lo hi prevEnd : Int} {ws : List Word}
    (h : ∀ w ∈ ws, Within lo hi w) (hprev : prevEnd ≤ hi) :
    ∀ w ∈ enforceMonotonic prevEnd ws, Within lo hi w := by
  induction ws generalizing prevEnd with
  | nil => exact fun _ hw => absurd hw List.not_mem_nil
  | cons x ws ih =>
    obtain ⟨hlo, horder, hhi⟩ := h x List.mem_cons_self
    intro w hw
    rcases List.mem_cons.mp hw with rfl | hw
    · exact ⟨by dsimp only; omega, by dsimp only; omega, by dsimp only; omega⟩
    · exact ih (fun y hy => h y (List.mem_cons_of_mem _ hy)) (by omega) w hw

/-- No word is pushed beyond the last one, where that one ends at the end of the clip. -/
theorem enforceMonotonic_last {lo hi prevEnd : Int} {ws : List Word}
    (h : ∀ w ∈ ws, Within lo hi w) (hprev : prevEnd ≤ hi)
    (hlast : ∀ w ∈ ws.getLast?, w.endMs = hi) :
    ∀ w ∈ (enforceMonotonic prevEnd ws).getLast?, w.endMs = hi := by
  induction ws generalizing prevEnd with
  | nil => exact fun _ hw => nomatch hw
  | cons x ws ih =>
    obtain ⟨-, horder, hhi⟩ := h x List.mem_cons_self
    cases ws with
    | nil =>
      have hx : x.endMs = hi := hlast x rfl
      intro w hw
      rw [enforceMonotonic, enforceMonotonic, List.getLast?_singleton, Option.mem_some_iff] at hw
      subst hw
      dsimp only
      omega
    | cons y ws =>
      refine ih (fun z hz => h z (List.mem_cons_of_mem _ hz)) (by omega) fun w hw => ?_
      exact hlast w (by rwa [List.getLast?_cons_cons])

/-- Words in their order stay as they are. -/
theorem enforceMonotonic_eq_self {prevEnd : Int} {ws : List Word} (h : Ordered ws)
    (hfirst : ∀ w ∈ ws.head?, prevEnd ≤ w.startMs) : enforceMonotonic prevEnd ws = ws := by
  induction ws generalizing prevEnd with
  | nil => rfl
  | cons x ws ih =>
    obtain ⟨horder, hpair⟩ := h
    have hx := horder x List.mem_cons_self
    have hprev : prevEnd ≤ x.startMs := hfirst x rfl
    obtain ⟨hnext, hrest⟩ := List.pairwise_cons.mp hpair
    unfold enforceMonotonic
    dsimp only
    rw [max_eq_left hprev, max_eq_left hx,
      ih ⟨fun w hw => horder w (List.mem_cons_of_mem _ hw), hrest⟩]
    intro w hw
    exact hnext w (List.mem_of_head? hw)

/-! ## The scaled words -/

section Scaled

variable {finalDurationMs offsetMs prevEndLocal : Int} {multiplier : Rat} {ws : List Word}

theorem rescaleFrom_words :
    (rescaleFrom finalDurationMs multiplier offsetMs prevEndLocal ws).map Word.word =
      ws.map Word.word := by
  induction ws generalizing prevEndLocal with
  | nil => rfl
  | cons w ws ih => simp [rescaleFrom, ih]

theorem round_nonneg {q : Rat} (h : 0 ≤ q) : 0 ≤ roundHalfEven q := by
  have := roundHalfEven_monotone h
  rwa [show (0 : Rat) = (0 : Int) from rfl, roundHalfEven_intCast] at this

theorem duration_le_round {q : Rat} (h : finalDurationMs ≤ q) :
    finalDurationMs ≤ roundHalfEven q := by
  have := roundHalfEven_monotone h
  rwa [roundHalfEven_intCast] at this

/-- Each word is clipped to the clip. -/
theorem rescaleFrom_within (hduration : 0 < finalDurationMs) (hmultiplier : 0 ≤ multiplier)
    (hprev : 0 ≤ prevEndLocal) :
    ∀ w ∈ rescaleFrom finalDurationMs multiplier offsetMs prevEndLocal ws,
      Within offsetMs (offsetMs + finalDurationMs) w := by
  induction ws generalizing prevEndLocal with
  | nil => exact fun _ hw => absurd hw List.not_mem_nil
  | cons x ws ih =>
    have hscaled : ∀ t : Int, 0 ≤ roundHalfEven (max t prevEndLocal * multiplier) := by
      intro t
      have : (0 : Rat) ≤ (max t prevEndLocal : Int) := by
        exact_mod_cast hprev.trans (le_max_right _ _)
      exact round_nonneg (mul_nonneg this hmultiplier)
    have hstart := hscaled x.startMs
    have hend := hscaled x.endMs
    intro w hw
    unfold rescaleFrom at hw
    dsimp only at hw
    rcases List.mem_cons.mp hw with rfl | hw
    · rw [if_pos hduration, if_pos hduration]
      unfold Within
      dsimp only
      split_ifs <;> omega
    · exact ih (hprev.trans (le_max_right _ _)) w hw

/-- The last word is scaled to the end of the clip or beyond, and clipped to it. -/
theorem rescaleFrom_last (hduration : 0 < finalDurationMs) (hmultiplier : 0 ≤ multiplier)
    (hlast : ∀ x ∈ ws.getLast?, (finalDurationMs : Rat) ≤ x.endMs * multiplier) :
    ∀ w ∈ (rescaleFrom finalDurationMs multiplier offsetMs prevEndLocal ws).getLast?,
      w.endMs = offsetMs + finalDurationMs := by
  induction ws generalizing prevEndLocal with
  | nil => exact fun _ hw => nomatch hw
  | cons x ws ih =>
    cases ws with
    | nil =>
      have hx : (x.endMs : Rat) ≤ (max x.endMs prevEndLocal : Int) := by
        exact_mod_cast le_max_left _ _
      have hend := duration_le_round
        ((hlast x rfl).trans (mul_le_mul_of_nonneg_right hx hmultiplier))
      intro w hw
      rw [rescaleFrom, rescaleFrom, List.getLast?_singleton, Option.mem_some_iff] at hw
      subst hw
      dsimp only
      rw [if_pos hduration]
      split_ifs <;> omega
    | cons y ws =>
      refine ih fun z hz => ?_
      exact hlast z (by rwa [List.getLast?_cons_cons])

end Scaled

/-! ## The law -/

/-- The factor of a clip whose last word ends at `endMs`. -/
theorem multiplier_nonneg {finalDurationMs : Int} (h : 0 < finalDurationMs) (endMs : Int) :
    (0 : Rat) ≤ finalDurationMs / (max endMs 1 : Int) := by
  have hduration : (0 : Rat) ≤ finalDurationMs := by exact_mod_cast h.le
  have hspan : (0 : Rat) ≤ (max endMs 1 : Int) := by
    exact_mod_cast zero_le_one.trans (le_max_right endMs 1)
  exact div_nonneg hduration hspan

theorem multiplier_reaches {finalDurationMs endMs : Int} (h : 0 < endMs) :
    (finalDurationMs : Rat) ≤ endMs * (finalDurationMs / (max endMs 1 : Int)) := by
  have hne : (endMs : Rat) ≠ 0 := by exact_mod_cast h.ne'
  rw [max_eq_left (by omega : (1 : Int) ≤ endMs), mul_div_cancel₀ _ hne]

theorem rescaleProviderAlignment_eq {ws : List Word} {last : Word} {finalDurationMs offsetMs : Int}
    (hduration : 0 < finalDurationMs) (hlast : ws.getLast? = some last) :
    rescaleProviderAlignment ws finalDurationMs offsetMs =
      enforceMonotonic 0
        (rescaleFrom finalDurationMs (finalDurationMs / (max last.endMs 1 : Int)) offsetMs 0 ws) := by
  unfold rescaleProviderAlignment
  rw [hlast]
  dsimp only
  rw [if_pos hduration]

theorem align_with_provider {repr : Json → Text} {segment : SegmentDict} {ws : List Word}
    {finalDurationMs startMs : Int} (hne : ws ≠ []) (hstart : segmentStart segment = .ok startMs)
    (hduration : 0 ≤ finalDurationMs) :
    alignWordsToSegment repr segment (some ws) finalDurationMs =
      .ok (rescaleProviderAlignment ws finalDurationMs startMs) := by
  unfold alignWordsToSegment
  rw [if_neg (by omega), hstart]
  cases ws with
  | nil => exact absurd rfl hne
  | cons w ws => rfl

section Clip

variable {ws : List Word} {finalDurationMs : Int}

theorem rescaled_within (offsetMs : Int) (hnonneg : 0 ≤ offsetMs)
    (hduration : 0 < finalDurationMs) :
    ∀ w ∈ rescaleProviderAlignment ws finalDurationMs offsetMs,
      Within offsetMs (offsetMs + finalDurationMs) w := by
  cases hlast : ws.getLast? with
  | none =>
    obtain rfl := List.getLast?_eq_none_iff.mp hlast
    exact fun _ hw => absurd hw List.not_mem_nil
  | some last =>
    rw [rescaleProviderAlignment_eq hduration hlast]
    exact enforceMonotonic_within
      (rescaleFrom_within hduration (multiplier_nonneg hduration last.endMs) le_rfl) (by omega)

theorem rescaled_last (offsetMs : Int) (hnonneg : 0 ≤ offsetMs) (hduration : 0 < finalDurationMs)
    (hpositive : ∀ last ∈ ws.getLast?, 0 < last.endMs) :
    ∀ w ∈ (rescaleProviderAlignment ws finalDurationMs offsetMs).getLast?,
      w.endMs = offsetMs + finalDurationMs := by
  cases hlast : ws.getLast? with
  | none =>
    obtain rfl := List.getLast?_eq_none_iff.mp hlast
    exact fun _ hw => nomatch hw
  | some last =>
    have hmultiplier := multiplier_nonneg hduration last.endMs
    rw [rescaleProviderAlignment_eq hduration hlast]
    refine enforceMonotonic_last (rescaleFrom_within hduration hmultiplier le_rfl) (by omega)
      (rescaleFrom_last hduration hmultiplier ?_)
    rintro x hx
    obtain rfl : last = x := Option.some.inj (hlast.symm.trans hx)
    exact multiplier_reaches (hpositive last hlast)

theorem rescaled_words (finalDurationMs offsetMs : Int) :
    (rescaleProviderAlignment ws finalDurationMs offsetMs).map Word.word = ws.map Word.word := by
  unfold rescaleProviderAlignment
  split
  · rename_i hlast
    rw [List.getLast?_eq_none_iff.mp hlast, List.map_nil]
  · rw [enforceMonotonic_words, rescaleFrom_words]

end Clip

/-- Whatever times the provider gives, its words come out in their order, one after the other,
and inside of the clip. The last one ends with the clip where the provider gives it an end above
zero. -/
theorem rescaled_words_stay_in_the_clip {repr : Json → Text} {segment : SegmentDict}
    {ws : List Word} {finalDurationMs startMs : Int} (hne : ws ≠ [])
    (hstart : segmentStart segment = .ok startMs) (hnonneg : 0 ≤ startMs)
    (hduration : 0 < finalDurationMs) :
    ∃ words, alignWordsToSegment repr segment (some ws) finalDurationMs = .ok words ∧
      words.map Word.word = ws.map Word.word ∧
      Ordered words ∧
      (∀ w ∈ words, startMs ≤ w.startMs ∧ w.endMs ≤ startMs + finalDurationMs) ∧
      ((∀ last ∈ ws.getLast?, 0 < last.endMs) →
        ∀ w ∈ words.getLast?, w.endMs = startMs + finalDurationMs) := by
  refine ⟨_, align_with_provider hne hstart hduration.le, rescaled_words _ _,
    rescaleProviderAlignment_ordered _ _ _, fun w hw => ?_, rescaled_last startMs hnonneg hduration⟩
  obtain ⟨hlo, -, hhi⟩ := rescaled_within startMs hnonneg hduration w hw
  exact ⟨hlo, hhi⟩

/-- Words that overlap and a clip that is half as long. -/
theorem overlapping_words_stay_in_a_short_clip :
    ∃ words, alignWordsToSegment (fun _ => []) [(text "start_ms", .int 10)]
        (some [⟨text "one", -5, 40⟩, ⟨text "two", 20, 80⟩, ⟨text "three", 70, 60⟩]) 30 = .ok words ∧
      words.map Word.word = [text "one", text "two", text "three"] ∧
      Ordered words ∧
      (∀ w ∈ words, 10 ≤ w.startMs ∧ w.endMs ≤ 10 + 30) ∧
      ((∀ last ∈ [(⟨text "one", -5, 40⟩ : Word), ⟨text "two", 20, 80⟩,
          ⟨text "three", 70, 60⟩].getLast?, 0 < last.endMs) →
        ∀ w ∈ words.getLast?, w.endMs = 10 + 30) :=
  rescaled_words_stay_in_the_clip (by decide) (by with_unfolding_all rfl) (by decide) (by decide)

end recast_rules.tts
