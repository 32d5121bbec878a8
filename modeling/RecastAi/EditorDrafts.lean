-- The transcript editor and the page of a job. The editor keeps its own copy of the
-- segments, and three answers write over it: that of a save, that of a refetch, and
-- the segments of the page, which the editor takes up whenever they change.
import RecastAi.EventMachines

open event_machines

namespace recast_rules.drafts

/-! ## The page -/

/-- `TranscriptSegment`. The fields that the editor only hands on are `rest`. -/
structure Segment (R : Type) where
  id : String
  text : String
  rest : R
deriving DecidableEq

/-- The state of one mount of `TranscriptEditor`. -/
structure Editor (R : Type) where
  mount : Nat
  localSegments : List (Segment R)
  baseline : String → Option String
  saving : Bool

/-- A call of `updateTranscript` that is not answered yet. -/
structure Save (R : Type) where
  mount : Nat
  body : List (Segment R)

/-- `JobDetailPage`. With `behind`, the effect of the editor on `segments` is still to run. -/
structure Page (R : Type) where
  status : String
  segments : List (Segment R)
  behind : Bool
  editor : Option (Editor R)
  mounts : Nat
  saves : List (Save R)
  refetches : Nat

variable {R : Type}

/-- `TRANSCRIPT_STAGES`. -/
def transcriptStages : List String := ["transcribed", "synthesizing", "muxing", "completed"]

/-- `new Map(segments.map((s) => [s.id, s.text]))`: the last entry of a key stands. -/
def textsOf (segments : List (Segment R)) (id : String) : Option String :=
  (segments.reverse.find? (·.id = id)).map (·.text)

def Page.onEditor (s : Page R) (f : Editor R → Editor R) : Page R :=
  { s with editor := s.editor.map f }

/-! ## The handlers of the editor -/

/-- The effect on `[segments]`. -/
def Page.syncEffect (s : Page R) : Page R :=
  if s.behind then
    { s.onEditor fun e => { e with
        localSegments := s.segments
        baseline := textsOf s.segments } with behind := false }
  else s

def Page.updateText (s : Page R) (id text : String) : Page R :=
  s.onEditor fun e => { e with
    localSegments := e.localSegments.map fun seg => if seg.id = id then { seg with text } else seg }

/-- `handleSave` up to its `await`. -/
def Page.handleSave (s : Page R) : Page R :=
  match s.editor with
  | none => s
  | some e =>
    if e.saving then s
    else { s with
      editor := some { e with saving := true }
      saves := s.saves ++ [⟨e.mount, e.localSegments⟩] }

/-- `handleSave` from its `await` on, with nothing for an error. An editor that is gone has no
state any more, but the page has. -/
def Page.saved (s : Page R) (i : Nat) (result : Option (List (Segment R))) : Page R :=
  match s.saves[i]? with
  | none => s
  | some save =>
    let rest := { s with saves := s.saves.eraseIdx i }
    match result with
    | none =>
      rest.onEditor fun e => if e.mount = save.mount then { e with saving := false } else e
    | some segments =>
      { rest with segments, behind := true }.onEditor fun e =>
        if e.mount = save.mount then
          { e with localSegments := segments, baseline := textsOf segments, saving := false }
        else e

def Page.handleRevert (s : Page R) : Page R :=
  s.onEditor fun e => { e with
    localSegments := e.localSegments.map fun seg =>
      { seg with text := (e.baseline seg.id).getD seg.text } }

/-- The first render and its effects. The signals are `0` and not `undefined` at this time, so
their effects save and revert. -/
def Page.mountEditor (s : Page R) : Page R :=
  ({ s with
    editor := some ⟨s.mounts, s.segments, fun _ => none, false⟩
    mounts := s.mounts + 1
    behind := true } : Page R).syncEffect.handleSave.handleRevert

/-! ## The handlers of the page -/

/-- `showTranscript`. -/
def Page.render (s : Page R) : Page R :=
  if s.status ∈ transcriptStages then
    match s.editor with
    | some _ => s
    | none => s.mountEditor
  else { s with editor := none }

/-- The websocket is open while the job is neither completed nor failed. -/
def Page.connected (s : Page R) : Bool :=
  s.status ≠ "" && s.status ≠ "completed" && s.status ≠ "failed"

def Page.stageEvent (s : Page R) (stage : String) : Page R :=
  if s.connected && stage ≠ "" then
    let s := { s with status := stage }.render
    if stage ∈ transcriptStages then { s with refetches := s.refetches + 1 } else s
  else s

/-- The answer of `getTranscript`. -/
def Page.refetched (s : Page R) (result : Option (List (Segment R))) : Page R :=
  if s.refetches = 0 then s
  else
    match result with
    | none => { s with refetches := s.refetches - 1 }
    | some segments => { s with segments, behind := true, refetches := s.refetches - 1 }

inductive Event (R : Type) where
  | typed (id text : String)
  | save
  | saved (i : Nat) (result : Option (List (Segment R)))
  | stage (stage : String)
  | refetched (result : Option (List (Segment R)))
  | sync
  | revert

/-- An effect runs after the render that asked for it, and a key may be pressed before that. -/
def Page.step (s : Page R) : Event R → Page R
  | .typed id text => s.updateText id text
  | .save => s.handleSave
  | .saved i result => s.saved i result
  | .stage stage => s.stageEvent stage
  | .refetched result => s.refetched result
  | .sync => s.syncEffect
  | .revert => s.handleRevert

/-- The page when its job and its transcript are loaded. Refetches may be on their way. -/
def opened (status : String) (segments : List (Segment R)) (refetches : Nat) : Page R :=
  ({ status, segments, behind := false, editor := none, mounts := 0, saves := [],
     refetches } : Page R).render

/-! ## What is owed to the user -/

def Has (segments : List (Segment R)) (id text : String) : Prop :=
  ∃ seg ∈ segments, seg.id = id ∧ seg.text = text

instance (segments : List (Segment R)) (id text : String) : Decidable (Has segments id text) :=
  inferInstanceAs (Decidable (∃ seg ∈ segments, seg.id = id ∧ seg.text = text))

/-- The segments that the user sees in the editor. -/
def Page.shown (s : Page R) : List (Segment R) := (s.editor.map (·.localSegments)).getD []

/-- The text that was typed last into each segment, until it is reverted or a save that had it
in its body succeeds. -/
def owed (s : Page R) (unsaved : String → Option String) : Event R → String → Option String
  | .typed id text =>
    if s.shown.any (·.id = id) then Function.update unsaved id (some text) else unsaved
  | .saved i (some _) =>
    match s.saves[i]? with
    | none => unsaved
    | some save => fun id => (unsaved id).filter fun text => !decide (Has save.body id text)
  | .revert => fun _ => none
  | _ => unsaved

/-- The page, and what is owed. -/
structure Watched (R : Type) where
  page : Page R
  unsaved : String → Option String

def Watched.step (w : Watched R) (e : Event R) : Watched R :=
  ⟨w.page.step e, owed w.page w.unsaved e⟩

def watch (s : Page R) : Watched R := ⟨s, fun _ => none⟩

/-- Everything that is owed is in the editor. -/
def Kept (w : Watched R) : Prop :=
  ∀ id text, w.unsaved id = some text → Has w.page.shown id text

/-- The condition on the steps: what is written over the editor's segments has what is owed, or
the body of the save that is answered has it, and the editor is taken away only while nothing is
owed. -/
def Spares (w : Watched R) : Event R → Prop
  | .saved i (some segments) => ∀ save e, w.page.saves[i]? = some save → w.page.editor = some e →
    e.mount = save.mount → ∀ id text, w.unsaved id = some text →
      Has save.body id text ∨ Has segments id text
  | .sync => w.page.behind = true → ∀ id text, w.unsaved id = some text →
    Has w.page.segments id text
  | .stage stage => w.page.connected = true → stage ≠ "" → stage ∉ transcriptStages →
    ∀ id, w.unsaved id = none
  | _ => True

/-! ## What one step shows -/

@[simp] theorem shown_onEditor (s : Page R) (f : Editor R → Editor R) :
    (s.onEditor f).shown = (s.editor.map fun e => (f e).localSegments).getD [] := by
  unfold Page.onEditor Page.shown
  cases s.editor <;> rfl

theorem shown_of_none {s : Page R} (h : s.editor = none) : s.shown = [] := by
  unfold Page.shown
  rw [h]
  rfl

theorem not_has_nil (id text : String) : ¬ Has ([] : List (Segment R)) id text := by
  rintro ⟨seg, hseg, -⟩
  cases hseg

/-- Without an editor nothing is owed. -/
theorem Kept.nothing {w : Watched R} (h : Kept w) (hnone : w.page.editor = none) (id : String) :
    w.unsaved id = none := by
  cases ht : w.unsaved id with
  | none => rfl
  | some text =>
    have := h id text ht
    rw [shown_of_none hnone] at this
    exact absurd this (not_has_nil id text)

theorem kept_of_nothing {w : Watched R} (h : ∀ id, w.unsaved id = none) : Kept w := by
  intro id text ht
  rw [h id] at ht
  cases ht

theorem shown_handleSave (s : Page R) : s.handleSave.shown = s.shown := by
  unfold Page.handleSave
  split
  · rfl
  · rename_i e he
    split
    · rfl
    · unfold Page.shown
      rw [he]
      rfl

theorem shown_refetched (s : Page R) (result : Option (List (Segment R))) :
    (s.refetched result).shown = s.shown := by
  unfold Page.refetched
  split
  · rfl
  · cases result <;> rfl

/-- Typing into one segment leaves the others as they are. -/
theorem has_updateText_ne {s : Page R} {id id' text text' : String} (hne : id' ≠ id)
    (h : Has s.shown id' text') : Has (s.updateText id text).shown id' text' := by
  obtain ⟨seg, hseg, rfl, rfl⟩ := h
  unfold Page.updateText
  rw [shown_onEditor]
  unfold Page.shown at hseg
  cases he : s.editor with
  | none => simp [he] at hseg
  | some e =>
    simp only [he, Option.map_some, Option.getD_some] at hseg ⊢
    refine ⟨seg, List.mem_map.mpr ⟨seg, hseg, ?_⟩, rfl, rfl⟩
    rw [if_neg hne]

theorem has_updateText_self {s : Page R} {id text : String}
    (h : s.shown.any (·.id = id) = true) : Has (s.updateText id text).shown id text := by
  obtain ⟨seg, hseg, hid⟩ := List.any_eq_true.mp h
  have hid : seg.id = id := by simpa using hid
  unfold Page.updateText
  rw [shown_onEditor]
  unfold Page.shown at hseg
  cases he : s.editor with
  | none => simp [he] at hseg
  | some e =>
    simp only [he, Option.map_some, Option.getD_some] at hseg ⊢
    exact ⟨{ seg with text }, List.mem_map.mpr ⟨seg, hseg, if_pos hid⟩, hid, rfl⟩

/-- A stage of the transcript leaves an editor that is there. -/
theorem shown_stageEvent_stays {s : Page R} {e : Editor R} {stage : String}
    (he : s.editor = some e) (hstage : stage ∈ transcriptStages) :
    (s.stageEvent stage).shown = s.shown := by
  unfold Page.stageEvent Page.render Page.shown
  split
  · simp only [he]
  · rfl

/-- Any other stage takes it away. -/
theorem shown_stageEvent_hides {s : Page R} {stage : String} (hc : s.connected = true)
    (hs : stage ≠ "") (hstage : stage ∉ transcriptStages) : (s.stageEvent stage).shown = [] := by
  unfold Page.stageEvent Page.render
  rw [if_pos (by simpa using ⟨hc, hs⟩), if_neg hstage, if_neg hstage]
  rfl

theorem shown_failed (s : Page R) (i : Nat) : (s.saved i none).shown = s.shown := by
  unfold Page.saved
  split
  · rfl
  · dsimp only
    rw [shown_onEditor]
    unfold Page.shown
    cases s.editor with
    | none => rfl
    | some e =>
      simp only [Option.map_some, Option.getD_some]
      split <;> rfl

section Saved

variable {s : Page R} {i : Nat} {save : Save R} {segments : List (Segment R)}

theorem shown_saved_own {e : Editor R} (hsave : s.saves[i]? = some save)
    (he : s.editor = some e) (hmount : e.mount = save.mount) :
    (s.saved i (some segments)).shown = segments := by
  unfold Page.saved
  rw [hsave]
  dsimp only
  rw [shown_onEditor]
  simp only [he, Option.map_some, Option.getD_some, if_pos hmount]

theorem shown_saved_other (hsave : s.saves[i]? = some save)
    (hother : ∀ e, s.editor = some e → e.mount ≠ save.mount) :
    (s.saved i (some segments)).shown = s.shown := by
  unfold Page.saved
  rw [hsave]
  dsimp only
  rw [shown_onEditor]
  unfold Page.shown
  cases he : s.editor with
  | none => rfl
  | some e => simp only [Option.map_some, Option.getD_some, if_neg (hother e he)]

/-- After a save that succeeded, that is owed which its body did not have. -/
theorem owed_saved {unsaved : String → Option String} (hsave : s.saves[i]? = some save)
    (segments : List (Segment R)) (id text : String) :
    owed s unsaved (.saved i (some segments)) id = some text ↔
      unsaved id = some text ∧ ¬ Has save.body id text := by
  simp [owed, hsave, Option.filter_eq_some_iff]

end Saved

/-! ## Which steps keep what is owed -/

section Steps

variable {w : Watched R}

theorem kept_typed (h : Kept w) (id text : String) : Kept (w.step (.typed id text)) := by
  intro id' text' ht
  change owed w.page w.unsaved (.typed id text) id' = some text' at ht
  change Has (w.page.updateText id text).shown id' text'
  unfold owed at ht
  dsimp only at ht
  split at ht
  · rename_i hshown
    by_cases hid : id' = id
    · subst hid
      rw [Function.update_self] at ht
      obtain rfl := Option.some.inj ht
      exact has_updateText_self hshown
    · rw [Function.update_of_ne hid] at ht
      exact has_updateText_ne hid (h id' text' ht)
  · rename_i hhidden
    -- the segment is not in the editor, so nothing of it is owed
    by_cases hid : id' = id
    · subst hid
      obtain ⟨seg, hseg, hseg', -⟩ := h id' text' ht
      exact absurd (List.any_eq_true.mpr ⟨seg, hseg, by simpa using hseg'⟩) hhidden
    · exact has_updateText_ne hid (h id' text' ht)

theorem kept_sync_iff (h : Kept w) : Kept (w.step .sync) ↔ Spares w .sync := by
  change (∀ id text, w.unsaved id = some text → Has w.page.syncEffect.shown id text) ↔
    (w.page.behind = true → ∀ id text, w.unsaved id = some text → Has w.page.segments id text)
  cases hb : w.page.behind with
  | false =>
    refine iff_of_true ?_ nofun
    unfold Page.syncEffect
    rw [hb]
    exact h
  | true =>
    cases he : w.page.editor with
    | none =>
      refine iff_of_true (fun id text ht => ?_) fun _ id text ht => ?_ <;>
      · rw [h.nothing he id] at ht
        cases ht
    | some e =>
      have hshown : w.page.syncEffect.shown = w.page.segments := by
        unfold Page.syncEffect Page.onEditor Page.shown
        rw [hb, he]
        rfl
      rw [hshown]
      exact ⟨fun hk _ => hk, fun hk => hk rfl⟩

theorem kept_revert : Kept (w.step .revert) := kept_of_nothing fun _ => rfl

theorem kept_stage_iff (h : Kept w) (stage : String) :
    Kept (w.step (.stage stage)) ↔ Spares w (.stage stage) := by
  change (∀ id text, w.unsaved id = some text → Has (w.page.stageEvent stage).shown id text) ↔
    (w.page.connected = true → stage ≠ "" → stage ∉ transcriptStages → ∀ id, w.unsaved id = none)
  by_cases hheard : w.page.connected = true ∧ stage ≠ ""
  · by_cases hstage : stage ∈ transcriptStages
    · refine iff_of_true (fun id text ht => ?_) fun _ _ hout => absurd hstage hout
      cases he : w.page.editor with
      | none =>
        rw [h.nothing he id] at ht
        cases ht
      | some e =>
        rw [shown_stageEvent_stays he hstage]
        exact h id text ht
    · rw [shown_stageEvent_hides hheard.1 hheard.2 hstage]
      constructor
      · intro hk _ _ _ id
        cases ht : w.unsaved id with
        | none => rfl
        | some text => exact absurd (hk id text ht) (not_has_nil id text)
      · intro hn id text ht
        rw [hn hheard.1 hheard.2 hstage id] at ht
        cases ht
  · refine iff_of_true ?_ fun hc hs => absurd ⟨hc, hs⟩ hheard
    unfold Page.stageEvent
    rw [if_neg (by simpa using hheard)]
    exact h

theorem kept_failed (h : Kept w) (i : Nat) : Kept (w.step (.saved i none)) := by
  intro id text ht
  change Has (w.page.saved i none).shown id text
  rw [shown_failed]
  exact h id text ht

theorem kept_saved_iff (h : Kept w) (i : Nat) (segments : List (Segment R)) :
    Kept (w.step (.saved i (some segments))) ↔ Spares w (.saved i (some segments)) := by
  cases hsave : w.page.saves[i]? with
  | none =>
    refine iff_of_true (fun id text ht => ?_) fun save e hs => ?_
    · change owed w.page w.unsaved (.saved i (some segments)) id = some text at ht
      change Has (w.page.saved i (some segments)).shown id text
      simp only [owed, hsave] at ht
      simp only [Page.saved, hsave]
      exact h id text ht
    · rw [hsave] at hs
      cases hs
  | some save =>
    have howed : ∀ id text, (w.step (.saved i (some segments))).unsaved id = some text ↔
        w.unsaved id = some text ∧ ¬ Has save.body id text := owed_saved hsave segments
    by_cases hown : ∃ e, w.page.editor = some e ∧ e.mount = save.mount
    · -- the editor that saved is still there, and the answer is what it shows now
      obtain ⟨e, he, hmount⟩ := hown
      have hshown : (w.step (.saved i (some segments))).page.shown = segments :=
        shown_saved_own hsave he hmount
      constructor
      · intro hk save' e' hs' _ _ id text ht
        obtain rfl := Option.some.inj (hsave.symm.trans hs')
        by_cases hbody : Has save.body id text
        · exact Or.inl hbody
        · exact Or.inr (hshown ▸ hk id text ((howed id text).mpr ⟨ht, hbody⟩))
      · intro hspares id text ht
        obtain ⟨hunsaved, hbody⟩ := (howed id text).mp ht
        rw [hshown]
        exact (hspares save e hsave he hmount id text hunsaved).resolve_left hbody
    · refine iff_of_true (fun id text ht => ?_) fun save' e hs' he hmount => ?_
      · have hshown : (w.step (.saved i (some segments))).page.shown = w.page.shown :=
          shown_saved_other hsave fun e he hmount => hown ⟨e, he, hmount⟩
        rw [hshown]
        exact h id text ((howed id text).mp ht).1
      · obtain rfl := Option.some.inj (hsave.symm.trans hs')
        exact absurd ⟨e, he, hmount⟩ hown

/-- The condition is exact: it tells which steps keep what is owed. -/
theorem kept_step_iff (h : Kept w) (event : Event R) : Kept (w.step event) ↔ Spares w event := by
  cases event with
  | typed id text => exact iff_of_true (kept_typed h id text) trivial
  | save =>
    refine iff_of_true (fun id text ht => ?_) trivial
    change Has w.page.handleSave.shown id text
    rw [shown_handleSave]
    exact h id text ht
  | saved i result =>
    cases result with
    | none => exact iff_of_true (kept_failed h i) trivial
    | some segments => exact kept_saved_iff h i segments
  | stage stage => exact kept_stage_iff h stage
  | refetched result =>
    refine iff_of_true (fun id text ht => ?_) trivial
    change Has (w.page.refetched result).shown id text
    rw [shown_refetched]
    exact h id text ht
  | sync => exact kept_sync_iff h
  | revert => exact iff_of_true kept_revert trivial

/-- A save takes with it what is owed when it is issued, so only what is typed after that is at
the mercy of its answer. -/
theorem handleSave_takes_what_is_owed (h : Kept w) {e : Editor R} (he : w.page.editor = some e)
    (hidle : e.saving = false) :
    ∃ save : Save R, w.page.handleSave.saves = w.page.saves ++ [save] ∧
      ∀ id text, w.unsaved id = some text → Has save.body id text := by
  refine ⟨⟨e.mount, e.localSegments⟩, ?_, fun id text ht => ?_⟩
  · unfold Page.handleSave
    simp [he, hidle]
  · have hshown := h id text ht
    unfold Page.shown at hshown
    rw [he] at hshown
    exact hshown

end Steps

/-! ## The law -/

/-- In every order of events, and whatever is answered: what the user typed stays in the editor
exactly if each step spares it. -/
theorem typed_text_stays_iff (status : String) (segments : List (Segment R)) (refetches : Nat)
    (events : List (Event R)) :
    Always Watched.step Kept (watch (opened status segments refetches)) events ↔
      EveryStep Watched.step Spares (watch (opened status segments refetches)) events :=
  always_iff_everyStep (fun _ event h => kept_step_iff h event)
    (kept_of_nothing fun _ => rfl) events

def oldWords : List (Segment Unit) := [⟨"s1", "old words", ()⟩]

/-- The user types, the job is completed, and the page refetches the transcript. -/
def typedBeforeCompleted : List (Event Unit) :=
  [.typed "s1" "new words", .stage "completed", .refetched (some oldWords), .sync]

/-- Nobody reverted or saved, and the new words are gone. -/
theorem typed_text_is_overwritten :
    (run Watched.step (watch (opened "muxing" oldWords 0)) typedBeforeCompleted).unsaved "s1" =
        some "new words" ∧
      (run Watched.step (watch (opened "muxing" oldWords 0)) typedBeforeCompleted).page.shown =
        oldWords ∧
      ¬ Always Watched.step Kept (watch (opened "muxing" oldWords 0)) typedBeforeCompleted := by
  have hunsaved : (run Watched.step (watch (opened "muxing" oldWords 0))
      typedBeforeCompleted).unsaved "s1" = some "new words" := by decide
  have hshown : (run Watched.step (watch (opened "muxing" oldWords 0))
      typedBeforeCompleted).page.shown = oldWords := by decide
  refine ⟨hunsaved, hshown, fun h => ?_⟩
  have hhas := h typedBeforeCompleted List.prefix_rfl "s1" "new words" hunsaved
  rw [hshown] at hhas
  exact absurd hhas (by decide)

end recast_rules.drafts
