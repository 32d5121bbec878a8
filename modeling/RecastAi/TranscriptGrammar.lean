-- The payloads that `validate_transcript` accepts, told without its loop, and what
-- it returns for them. The division in the words is read as exact, so the checks
-- are followed over any division.
import RecastAi.SanitizedText
import RecastAi.SynthesizedWords

open py_text

namespace recast_rules.transcript

/-! ## The grammar -/

/-- `v[key]`, or `null` where there is no such key. -/
def valueAt (v : Json) (key : String) : Json :=
  match v with
  | .object fields => (fields.lookup (text key)).getD .null
  | _ => .null

def Json.number : Json → Int
  | .int n => n
  | _ => 0

def Json.letters : Json → Text
  | .str t => t
  | _ => []

def intAt (v : Json) (key : String) : Int := (valueAt v key).number

def textAt (v : Json) (key : String) : Text := (valueAt v key).letters

def segmentsOf (data : Json) : List Json :=
  match valueAt data "segments" with
  | .array items => items
  | _ => []

/-- What a segment has to meet beside the schema. -/
structure SegmentInGrammar (durationMs : Option Int) (v : Json) : Prop where
  integers : ∀ key ∈ ["segment_id", "start_ms", "end_ms"], ∃ n, valueAt v key = .int n
  ordered : intAt v "start_ms" < intAt v "end_ms"
  within : ∀ d ∈ durationMs, 0 < d → intAt v "end_ms" ≤ d + durationToleranceMs
  spoken : sanitizeText (textAt v "text") ≠ []

structure InGrammar (durationMs : Option Int) (data : Json) : Prop where
  schema : transcriptSchema data = true
  segments : ∀ v ∈ segmentsOf data, SegmentInGrammar durationMs v
  chronological : (segmentsOf data).IsChain fun a b => intAt a "end_ms" ≤ intAt b "start_ms"

/-- What is kept of a segment: its number, its times and its text. -/
def entryOf (v : Json) : Int × Int × Int × Text :=
  (intAt v "segment_id", intAt v "start_ms", intAt v "end_ms", sanitizeText (textAt v "text"))

def Segment.entry (s : Segment) : Int × Int × Int × Text :=
  (s.segmentID, s.startMs, s.endMs, s.text)

structure Returned (data : Json) (segments : List Segment) : Prop where
  entries : segments.map Segment.entry = (segmentsOf data).map entryOf
  ordered : ∀ s ∈ segments, s.startMs < s.endMs
  disjoint : Chronological segments

/-! ## The checks over any division -/

/-- One round of the loop before the words are made. -/
def checkFields (durationMs : Option Int) (idx : Nat) (prevEndMs : Int) :
    Json → Except Raised Segment
  | .object fields => do
    let label := s!"segment[{idx}]"
    let segmentID ← getItem fields "segment_id"
    let startMs ← getItem fields "start_ms"
    let endMs ← getItem fields "end_ms"
    let t ← getItem fields "text"
    let confidence ← getFloat (← getItem fields "confidence")
    let segmentID ← checkSegmentID label segmentID
    let startMs ← checkMs label "start_ms" startMs
    let endMs ← checkMs label "end_ms" endMs
    checkTimes durationMs label prevEndMs startMs endMs
    let sanitized ← checkText label t
    return ⟨segmentID, startMs, endMs, sanitized, confidence, []⟩
  | _ => .error .typeError

section Division

variable (divide : Nat → Nat → Option Nat)

def checkSegmentWith (durationMs : Option Int) (idx : Nat) (prevEndMs : Int) (seg : Json) :
    Except Raised Segment := do
  let s ← checkFields durationMs idx prevEndMs seg
  let words ← synthesizeWith divide s.text s.startMs s.endMs
  return { s with words }

def checkSegmentsWith (durationMs : Option Int) :
    Nat → Int → List Json → Except Raised (List Segment)
  | _, _, [] => .ok []
  | idx, prevEndMs, seg :: rest => do
    let s ← checkSegmentWith divide durationMs idx prevEndMs seg
    let more ← checkSegmentsWith durationMs (idx + 1) s.endMs rest
    return s :: more

/-- `validate_transcript` over any division. -/
def validateWith (schemaMessage : Json → String) (data : Json) (durationMs : Option Int) :
    Except Raised (List Segment) :=
  match data with
  | .object fields =>
    if transcriptSchema data then do
      let raw ← rawSegments fields
      if raw = [] then
        .error (.validation "transcript must contain at least one segment")
      else
        checkSegmentsWith divide durationMs 0 (-1) raw
    else
      .error (.validation s!"transcript failed schema validation: {schemaMessage data}")
  | _ => .error (.validation s!"transcript payload must be an object, got {data.typeName}")

end Division

theorem checkSegmentWith_trueDivInt (durationMs : Option Int) (idx : Nat) (prevEndMs : Int)
    (seg : Json) : checkSegmentWith trueDivInt durationMs idx prevEndMs seg =
      checkSegment durationMs idx prevEndMs seg := by
  unfold checkSegmentWith checkSegment checkFields
  cases seg with
  | object fields => simp only [bind_assoc, pure_bind, synthesizeWith_trueDivInt]
  | _ => rfl

theorem checkSegmentsWith_trueDivInt (durationMs : Option Int) (idx : Nat) (prevEndMs : Int)
    (raw : List Json) : checkSegmentsWith trueDivInt durationMs idx prevEndMs raw =
      checkSegments durationMs idx prevEndMs raw := by
  induction raw generalizing idx prevEndMs with
  | nil => rfl
  | cons seg rest ih =>
    unfold checkSegmentsWith checkSegments
    simp only [checkSegmentWith_trueDivInt, ih]

/-- With the division of floats it is the validator of the service. -/
theorem validateWith_trueDivInt (schemaMessage : Json → String) (data : Json)
    (durationMs : Option Int) : validateWith trueDivInt schemaMessage data durationMs =
      validateTranscript schemaMessage data durationMs := by
  cases data with
  | object fields =>
    unfold validateWith validateTranscript
    simp only [checkSegmentsWith_trueDivInt]
  | _ => rfl

/-! ## Checks that decide -/

/-- The check passes exactly where `P` holds, and then gives an answer as in `Q`. Otherwise it
refuses the payload, and raises nothing else. -/
def Decides {α : Type} (P : Prop) (x : Except Raised α) (Q : α → Prop) : Prop :=
  (P ∧ ∃ a, x = .ok a ∧ Q a) ∨ (¬ P ∧ ∃ message, x = .error (.validation message))

section Decides

variable {α β : Type} {P P' : Prop} {Q : α → Prop}

theorem decides_ok {a : α} (hP : P) (hQ : Q a) : Decides P (.ok a) Q := Or.inl ⟨hP, a, rfl, hQ⟩

theorem decides_refused {message : String} (hP : ¬ P) :
    Decides P (.error (.validation message)) Q := Or.inr ⟨hP, message, rfl⟩

theorem decides_bind {x : Except Raised α} {f : α → Except Raised β} {Q' : β → Prop}
    (hx : Decides P x Q) (hf : ∀ a, Q a → Decides P' (f a) Q') : Decides (P ∧ P') (x >>= f) Q' := by
  rcases hx with ⟨hP, a, rfl, hQ⟩ | ⟨hP, message, rfl⟩
  · rcases hf a hQ with ⟨hP', b, hb, hQ'⟩ | ⟨hP', message, hm⟩
    · exact Or.inl ⟨⟨hP, hP'⟩, b, hb, hQ'⟩
    · exact Or.inr ⟨fun h => hP' h.2, message, hm⟩
  · exact Or.inr ⟨fun h => hP h.1, message, rfl⟩

/-- A step that does not raise. -/
theorem decides_after_ok {x : Except Raised α} {f : α → Except Raised β} {Q' : β → Prop} {a : α}
    (hx : x = .ok a) (hf : Decides P (f a) Q') : Decides P (x >>= f) Q' := by
  subst hx
  exact hf

/-- A last step that does not raise. -/
theorem decides_then_ok {x : Except Raised α} {f : α → Except Raised β} {Q' : β → Prop}
    (hx : Decides P x Q) (hf : ∀ a, Q a → ∃ b, f a = .ok b ∧ Q' b) : Decides P (x >>= f) Q' := by
  rcases hx with ⟨hP, a, rfl, hQ⟩ | ⟨hP, message, rfl⟩
  · exact Or.inl ⟨hP, hf a hQ⟩
  · exact Or.inr ⟨hP, message, rfl⟩

theorem decides_congr {x : Except Raised α} (h : P ↔ P') (hx : Decides P x Q) : Decides P' x Q := by
  rwa [Decides, ← h]

end Decides

/-! ## The fields of a segment -/

theorem getItem_ok {fields : List (Text × Json)} {key : String} {x : Json}
    (h : fields.lookup (text key) = some x) : getItem fields key = .ok x := by
  unfold getItem
  rw [h]

theorem valueAt_object {fields : List (Text × Json)} {key : String} {x : Json}
    (h : fields.lookup (text key) = some x) : valueAt (.object fields) key = x := by
  unfold valueAt
  simp [h]

/-- The schema has every property of a segment there. -/
theorem accepted_fields {v : Json} (h : acceptsSegment v = true) :
    ∃ fields, v = .object fields ∧ ∀ p ∈ segmentProperties,
      ∃ x, fields.lookup (text p.1) = some x ∧ p.2.accepts x = true := by
  cases v with
  | object fields =>
    refine ⟨fields, rfl, fun p hp => ?_⟩
    have hall := List.all_eq_true.mp h p hp
    split at hall
    · rename_i x hx
      exact ⟨x, hx, hall⟩
    · cases hall
  | _ => cases h

/-- The schema takes a float without a fraction for an integer. -/
theorem integer_accepts {minimum : Int} {x : Json} (h : (Leaf.integer minimum).accepts x = true) :
    (∃ n, x = .int n ∧ minimum ≤ n) ∨ ∃ q, x = .float q := by
  cases x with
  | int n => exact Or.inl ⟨n, rfl, by simpa [Leaf.accepts] using h⟩
  | float q => exact Or.inr ⟨q, rfl⟩
  | _ => cases h

theorem number_accepts {minimum maximum : Int} {x : Json}
    (h : (Leaf.number minimum maximum).accepts x = true) : ∃ q, getFloat x = .ok q := by
  cases x with
  | int n => exact ⟨_, rfl⟩
  | float q => exact ⟨q, rfl⟩
  | _ => cases h

theorem string_accepts {minLength maxLength : Nat} {x : Json}
    (h : (Leaf.string minLength maxLength).accepts x = true) :
    ∃ t, x = .str t ∧ t.length ≤ maxLength := by
  cases x with
  | str t =>
    simp only [Leaf.accepts, Bool.and_eq_true, decide_eq_true_eq] at h
    exact ⟨t, rfl, h.2⟩
  | _ => cases h

/-! ## Each check -/

theorem checkSegmentID_decides {label : String} {x : Json}
    (h : (Leaf.integer 1).accepts x = true) :
    Decides (∃ n, x = .int n) (checkSegmentID label x) fun n => x = .int n := by
  rcases integer_accepts h with ⟨n, rfl, hn⟩ | ⟨q, rfl⟩
  · refine Or.inl ⟨⟨n, rfl⟩, n, ?_, rfl⟩
    unfold checkSegmentID Json.asInt
    dsimp only
    rw [if_neg (by omega)]
  · exact decides_refused (by simp)

theorem checkMs_decides {label name : String} {x : Json} (h : (Leaf.integer 0).accepts x = true) :
    Decides (∃ n, x = .int n) (checkMs label name x) fun n => x = .int n := by
  rcases integer_accepts h with ⟨n, rfl, hn⟩ | ⟨q, rfl⟩
  · refine Or.inl ⟨⟨n, rfl⟩, n, ?_, rfl⟩
    unfold checkMs Json.asInt
    dsimp only
    rw [if_neg (by omega)]
  · exact decides_refused (by simp)

theorem exceeds_iff {durationMs : Option Int} {endMs : Int} :
    exceeds endMs (upperBound durationMs) = true ↔
      ¬ ∀ d ∈ durationMs, 0 < d → endMs ≤ d + durationToleranceMs := by
  cases durationMs with
  | none => simp [exceeds, upperBound]
  | some d =>
    by_cases hd : d > 0
    · simp [exceeds, upperBound, hd]
    · simp [exceeds, upperBound, hd]

theorem checkTimes_decides {durationMs : Option Int} {label : String}
    {prevEndMs startMs endMs : Int} :
    Decides (startMs < endMs ∧ (∀ d ∈ durationMs, 0 < d → endMs ≤ d + durationToleranceMs) ∧
        prevEndMs ≤ startMs)
      (checkTimes durationMs label prevEndMs startMs endMs) fun _ => True := by
  unfold checkTimes
  split
  · exact decides_refused (by omega)
  · split
    · rename_i hexceeds
      exact decides_refused fun h => exceeds_iff.mp hexceeds h.2.1
    · rename_i hexceeds
      split
      · exact decides_refused (by omega)
      · exact decides_ok ⟨by omega, not_not.mp fun h => hexceeds (exceeds_iff.mpr h), by omega⟩ trivial

theorem checkText_decides {label : String} {t : Text} (ht : t.length ≤ maxTextLen) :
    Decides (sanitizeText t ≠ []) (checkText label (.str t)) fun s => s = sanitizeText t := by
  have hlen : (sanitizeText t).length ≤ maxTextLen := (sanitizeText_length t).trans ht
  unfold checkText
  dsimp only
  split
  · rename_i hempty
    exact decides_refused (not_not.mpr hempty)
  · rename_i hne
    rw [if_neg (by omega)]
    exact decides_ok hne rfl

/-! ## A segment -/

theorem segmentInGrammar_iff {durationMs : Option Int} {v : Json} :
    SegmentInGrammar durationMs v ↔
      ((∃ n, valueAt v "segment_id" = .int n) ∧ (∃ n, valueAt v "start_ms" = .int n) ∧
        (∃ n, valueAt v "end_ms" = .int n)) ∧
        intAt v "start_ms" < intAt v "end_ms" ∧
        (∀ d ∈ durationMs, 0 < d → intAt v "end_ms" ≤ d + durationToleranceMs) ∧
        sanitizeText (textAt v "text") ≠ [] := by
  constructor
  · intro h
    exact ⟨⟨h.integers _ (by simp), h.integers _ (by simp), h.integers _ (by simp)⟩, h.ordered,
      h.within, h.spoken⟩
  · rintro ⟨⟨hid, hstart, hend⟩, hordered, hwithin, hspoken⟩
    refine ⟨fun key hkey => ?_, hordered, hwithin, hspoken⟩
    simp only [List.mem_cons, List.not_mem_nil, or_false] at hkey
    rcases hkey with rfl | rfl | rfl
    · exact hid
    · exact hstart
    · exact hend

theorem checkFields_decides {durationMs : Option Int} {idx : Nat} {prevEndMs : Int} {v : Json}
    (h : acceptsSegment v = true) :
    Decides (SegmentInGrammar durationMs v ∧ prevEndMs ≤ intAt v "start_ms")
      (checkFields durationMs idx prevEndMs v) fun s => s.entry = entryOf v := by
  obtain ⟨fields, rfl, hall⟩ := accepted_fields h
  obtain ⟨segmentID, hid, hidLeaf⟩ := hall ("segment_id", .integer 1) (by simp [segmentProperties])
  obtain ⟨startMs, hstart, hstartLeaf⟩ := hall ("start_ms", .integer 0) (by simp [segmentProperties])
  obtain ⟨endMs, hend, hendLeaf⟩ := hall ("end_ms", .integer 0) (by simp [segmentProperties])
  obtain ⟨spoken, htext, htextLeaf⟩ := hall ("text", .string 1 maxTextLen) (by simp [segmentProperties])
  obtain ⟨confidence, hconf, hconfLeaf⟩ := hall ("confidence", .number 0 1) (by simp [segmentProperties])
  obtain ⟨t, rfl, ht⟩ := string_accepts htextLeaf
  obtain ⟨q, hq⟩ := number_accepts hconfLeaf
  rw [segmentInGrammar_iff]
  unfold checkFields entryOf intAt textAt
  rw [valueAt_object hid, valueAt_object hstart, valueAt_object hend, valueAt_object htext]
  refine decides_after_ok (getItem_ok hid) (decides_after_ok (getItem_ok hstart)
    (decides_after_ok (getItem_ok hend) (decides_after_ok (getItem_ok htext)
      (decides_after_ok (getItem_ok hconf) (decides_after_ok hq ?_)))))
  -- the checks in their order
  have hchecks : Decides ((∃ n, segmentID = .int n) ∧ (∃ n, startMs = .int n) ∧
      (∃ n, endMs = .int n) ∧ (startMs.number < endMs.number ∧
        (∀ d ∈ durationMs, 0 < d → endMs.number ≤ d + durationToleranceMs) ∧
        prevEndMs ≤ startMs.number) ∧ sanitizeText t ≠ [])
      (do
        let segmentID ← checkSegmentID s!"segment[{idx}]" segmentID
        let startMs ← checkMs s!"segment[{idx}]" "start_ms" startMs
        let endMs ← checkMs s!"segment[{idx}]" "end_ms" endMs
        checkTimes durationMs s!"segment[{idx}]" prevEndMs startMs endMs
        let sanitized ← checkText s!"segment[{idx}]" (.str t)
        return (⟨segmentID, startMs, endMs, sanitized, q, []⟩ : Segment))
      fun s => s.entry = (segmentID.number, startMs.number, endMs.number, sanitizeText t) := by
    refine decides_bind (checkSegmentID_decides hidLeaf) fun id hid => ?_
    refine decides_bind (checkMs_decides hstartLeaf) fun start hstart => ?_
    refine decides_bind (checkMs_decides hendLeaf) fun stop hstop => ?_
    subst hid hstart hstop
    refine decides_bind checkTimes_decides fun _ _ => ?_
    exact decides_then_ok (checkText_decides ht) fun sanitized hsanitized =>
      ⟨_, rfl, by rw [hsanitized]; rfl⟩
  exact decides_congr (by tauto) hchecks

/-! ## The words never fail -/

/-- `int(a / b)`, were the division exact. -/
def exactDivInt (a b : Nat) : Option Nat := some (a / b)

theorem synthesizeWith_exact (t : Text) (startMs endMs : Int) :
    ∃ words, synthesizeWith exactDivInt t startMs endMs = .ok words :=
  (wordsWith_ok_iff _ _).mpr fun _ _ => Option.some_ne_none _

theorem checkSegmentWith_decides {durationMs : Option Int} {idx : Nat} {prevEndMs : Int} {v : Json}
    (h : acceptsSegment v = true) :
    Decides (SegmentInGrammar durationMs v ∧ prevEndMs ≤ intAt v "start_ms")
      (checkSegmentWith exactDivInt durationMs idx prevEndMs v) fun s => s.entry = entryOf v := by
  unfold checkSegmentWith
  refine decides_then_ok (checkFields_decides h) fun s hs => ?_
  obtain ⟨words, hwords⟩ := synthesizeWith_exact s.text s.startMs s.endMs
  refine ⟨{ s with words }, ?_, hs⟩
  rw [hwords]
  rfl

/-! ## The loop -/

/-- Each segment starts when the one before it has ended, and the first one not before `prevEndMs`. -/
def After : Int → List Json → Prop
  | _, [] => True
  | prevEndMs, v :: rest => prevEndMs ≤ intAt v "start_ms" ∧ After (intAt v "end_ms") rest

theorem checkSegmentsWith_decides {durationMs : Option Int} {idx : Nat} {prevEndMs : Int}
    {raw : List Json} (h : ∀ v ∈ raw, acceptsSegment v = true) :
    Decides ((∀ v ∈ raw, SegmentInGrammar durationMs v) ∧ After prevEndMs raw)
      (checkSegmentsWith exactDivInt durationMs idx prevEndMs raw)
      fun segments => segments.map Segment.entry = raw.map entryOf := by
  induction raw generalizing idx prevEndMs with
  | nil => exact decides_ok ⟨fun _ hv => absurd hv List.not_mem_nil, trivial⟩ rfl
  | cons v rest ih =>
    have hrest : ∀ w ∈ rest, acceptsSegment w = true := fun w hw => h w (List.mem_cons_of_mem _ hw)
    have hround : Decides ((SegmentInGrammar durationMs v ∧ prevEndMs ≤ intAt v "start_ms") ∧
        ((∀ w ∈ rest, SegmentInGrammar durationMs w) ∧ After (intAt v "end_ms") rest))
        (checkSegmentsWith exactDivInt durationMs idx prevEndMs (v :: rest))
        fun segments => segments.map Segment.entry = (v :: rest).map entryOf := by
      refine decides_bind (checkSegmentWith_decides (h v List.mem_cons_self)) fun s hs => ?_
      have hend : s.endMs = intAt v "end_ms" := congrArg (fun e => e.2.2.1) hs
      rw [← hend]
      exact decides_then_ok (ih hrest) fun more hmore => ⟨s :: more, rfl, by simp [hs, hmore]⟩
    refine decides_congr ?_ hround
    rw [List.forall_mem_cons]
    exact ⟨fun ⟨⟨hv, hprev⟩, hall, hafter⟩ => ⟨⟨hv, hall⟩, hprev, hafter⟩,
      fun ⟨⟨hv, hall⟩, hprev, hafter⟩ => ⟨⟨hv, hprev⟩, hall, hafter⟩⟩

theorem after_cons_iff {prevEndMs : Int} {v : Json} {rest : List Json} :
    After prevEndMs (v :: rest) ↔ prevEndMs ≤ intAt v "start_ms" ∧
      (v :: rest).IsChain fun a b => intAt a "end_ms" ≤ intAt b "start_ms" := by
  induction rest generalizing prevEndMs v with
  | nil => simp [After]
  | cons w rest ih =>
    rw [List.isChain_cons_cons, ← ih]
    rfl

theorem accepted_start {v : Json} (h : acceptsSegment v = true) : 0 ≤ intAt v "start_ms" := by
  obtain ⟨fields, rfl, hall⟩ := accepted_fields h
  obtain ⟨startMs, hstart, hleaf⟩ := hall ("start_ms", .integer 0) (by simp [segmentProperties])
  unfold intAt
  rw [valueAt_object hstart]
  rcases integer_accepts hleaf with ⟨n, rfl, hn⟩ | ⟨q, rfl⟩
  · exact hn
  · exact le_rfl

theorem after_start_iff {raw : List Json} (h : ∀ v ∈ raw, acceptsSegment v = true) :
    After (-1) raw ↔ raw.IsChain fun a b => intAt a "end_ms" ≤ intAt b "start_ms" := by
  cases raw with
  | nil => exact ⟨fun _ => List.IsChain.nil, fun _ => trivial⟩
  | cons v rest =>
    have hstart := accepted_start (h v List.mem_cons_self)
    rw [after_cons_iff]
    exact ⟨And.right, fun hchain => ⟨by omega, hchain⟩⟩

/-- Segments that come after each other are apart, also from those further on. -/
theorem apart_of_after {prevEndMs : Int} {raw : List Json}
    (hordered : ∀ v ∈ raw, intAt v "start_ms" < intAt v "end_ms") (h : After prevEndMs raw) :
    (∀ v ∈ raw, prevEndMs ≤ intAt v "start_ms") ∧
      raw.Pairwise fun a b => intAt a "end_ms" ≤ intAt b "start_ms" := by
  induction raw generalizing prevEndMs with
  | nil => exact ⟨fun _ hv => absurd hv List.not_mem_nil, List.Pairwise.nil⟩
  | cons v rest ih =>
    obtain ⟨hrest, hpair⟩ := ih (fun w hw => hordered w (List.mem_cons_of_mem _ hw)) h.2
    refine ⟨fun w hw => ?_, List.pairwise_cons.mpr ⟨hrest, hpair⟩⟩
    rcases List.mem_cons.mp hw with rfl | hw
    · exact h.1
    · have := hordered v List.mem_cons_self
      have := h.1
      have := hrest w hw
      omega

/-! ## The payload -/

theorem schema_segments {data : Json} (h : transcriptSchema data = true) :
    ∃ fields, data = .object fields ∧ rawSegments fields = .ok (segmentsOf data) ∧
      segmentsOf data ≠ [] ∧ ∀ v ∈ segmentsOf data, acceptsSegment v = true := by
  cases data with
  | object fields =>
    unfold transcriptSchema at h
    dsimp only at h
    split at h
    · rename_i items hitems
      have hsegments : segmentsOf (.object fields) = items := by
        unfold segmentsOf
        rw [valueAt_object hitems]
      rw [hsegments]
      rw [Bool.and_eq_true, List.all_eq_true] at h
      refine ⟨fields, rfl, ?_, by simpa using h.1, h.2⟩
      unfold rawSegments
      rw [getItem_ok hitems]
      rfl
    · cases h
  | _ => cases h

theorem returned_of_entries {durationMs : Option Int} {data : Json} {segments : List Segment}
    (hall : ∀ v ∈ segmentsOf data, SegmentInGrammar durationMs v)
    (hafter : After (-1) (segmentsOf data))
    (h : segments.map Segment.entry = (segmentsOf data).map entryOf) : Returned data segments := by
  have hordered := fun v hv => (hall v hv).ordered
  refine ⟨h, fun s hs => ?_, ?_⟩
  · obtain ⟨v, hv, hentry⟩ := List.mem_map.mp (h ▸ List.mem_map_of_mem hs)
    obtain ⟨-, hstart, hend, -⟩ : _ ∧ intAt v "start_ms" = s.startMs ∧ intAt v "end_ms" = s.endMs ∧ _ := by
      simpa [entryOf, Segment.entry] using hentry
    rw [← hstart, ← hend]
    exact hordered v hv
  · have hpair := (apart_of_after hordered hafter).2
    have hentries : ((segmentsOf data).map entryOf).Pairwise fun x y => x.2.2.1 ≤ y.2.1 :=
      List.pairwise_map.mpr hpair
    rw [← h] at hentries
    exact List.pairwise_map.mp hentries

/-- With exact division the validator accepts the payloads of the grammar and no others. What it
refuses it refuses with its own error, and what it accepts it returns segment by segment. -/
theorem validate_transcript_accepts_exactly_its_grammar (schemaMessage : Json → String)
    (data : Json) (durationMs : Option Int) :
    (InGrammar durationMs data ∧
        ∃ segments, validateWith exactDivInt schemaMessage data durationMs = .ok segments ∧
          Returned data segments) ∨
      (¬ InGrammar durationMs data ∧
        ∃ message, validateWith exactDivInt schemaMessage data durationMs =
          .error (.validation message)) := by
  by_cases hschema : transcriptSchema data = true
  · obtain ⟨fields, rfl, hraw, hne, haccepted⟩ := schema_segments hschema
    have hgrammar : InGrammar durationMs (.object fields) ↔
        (∀ v ∈ segmentsOf (.object fields), SegmentInGrammar durationMs v) ∧
          After (-1) (segmentsOf (.object fields)) := by
      rw [after_start_iff haccepted]
      exact ⟨fun h => ⟨h.segments, h.chronological⟩, fun h => ⟨hschema, h.1, h.2⟩⟩
    have hvalidate : validateWith exactDivInt schemaMessage (.object fields) durationMs =
        checkSegmentsWith exactDivInt durationMs 0 (-1) (segmentsOf (.object fields)) := by
      unfold validateWith
      dsimp only
      rw [if_pos hschema, hraw]
      exact if_neg hne
    rw [hgrammar, hvalidate]
    rcases checkSegmentsWith_decides haccepted with ⟨hP, segments, hok, hentries⟩ | hrefused
    · exact Or.inl ⟨hP, segments, hok, returned_of_entries hP.1 hP.2 hentries⟩
    · exact Or.inr hrefused
  · refine Or.inr ⟨fun h => hschema h.schema, ?_⟩
    unfold validateWith
    cases data with
    | object fields => exact ⟨_, if_neg hschema⟩
    | _ => exact ⟨_, rfl⟩

end recast_rules.transcript
