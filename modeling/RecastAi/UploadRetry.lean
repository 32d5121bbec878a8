-- A completion that fails, and what is left for the next try. Up to the
-- final object every failure leaves the chunks where they are. Then they are
-- cleared away, and the message is published last.
import RecastAi.UploadOneJob

open call_programs go_text

namespace recast_rules.upload_service

/-! ## What is left -/

/-- Every chunk that was recorded is still recorded, and its object holds the same bytes. -/
def Kept (uploadID : String) (u u' : Uploads) : Prop :=
  ∀ i n, (u.chunks uploadID).lookup i = some n →
    (u'.chunks uploadID).lookup i = some n ∧
      u'.objects (chunkKey uploadID i) = u.objects (chunkKey uploadID i)

/-- The broker takes the message. -/
def PublishTaken (_ : Uploads) (c : Call) (o : Outcome) : Prop :=
  match c with
  | .publish _ _ => o.fails = false
  | _ => True

/-- Nothing is cleared away: the `Purge` has no effect, and no `Delete` of an object has. -/
def NothingCleared (u : Uploads) (c : Call) (o : Outcome) : Prop :=
  match c with
  | .delete key => (u.objects key).isSome → landed o = false
  | .purge _ => landed o = false
  | _ => True

/-! ## Up to the final object -/

/-- `handleComplete` up to the final object: what it goes on with. -/
def prepared (tables : Unicode) (r : Request) : Handler (Completion × List Nat × ProbeResult) := do
  let c ← ExceptT.mk (.done (acceptComplete tables r))
  let indices ← listedChunks c.uploadID
  let (data, probe) ← assemble c.uploadID c.ext indices
  storeFinal (finalKeyOf c) data c.contentType
  return (c, indices, probe)

theorem handleComplete_eq (tables : Unicode) (r : Request) :
    handleComplete tables r = Attempt.finish (prepared tables r >>= fun x =>
      ExceptT.lift (cleanUp x.1.uploadID x.2.1) >>= fun _ =>
        enqueue r x.1 (finalKeyOf x.1) x.2.2) := by
  unfold handleComplete prepared
  simp only [bind_assoc, pure_bind]

/-- The call leaves tracker and chunks as they are, whatever is chosen. -/
def Call.Spares (uploadID : String) : Call → Prop
  | .recordChunk _ _ _ | .purge _ | .delete _ | .publish _ _ => False
  | .upload key _ _ => ∀ i, chunkKey uploadID i ≠ key
  | _ => True

/-- Nothing that is recorded or stored for a chunk differs. -/
def SameChunks (uploadID : String) (u u' : Uploads) : Prop :=
  u'.chunks uploadID = u.chunks uploadID ∧
    ∀ i, u'.objects (chunkKey uploadID i) = u.objects (chunkKey uploadID i)

theorem kept_of_sameChunks {id : String} {u u' : Uploads} (h : SameChunks id u u') :
    Kept id u u' := fun i n hi => ⟨by rw [h.1]; exact hi, h.2 i⟩

theorem spares_sameChunks {id : String} {u s : Uploads} {c : Call} (o : Outcome)
    (hc : c.Spares id) (h : SameChunks id u s) : SameChunks id u (answerCall o s c).2 := by
  cases c with
  | upload key data contentType =>
    simp only [answerCall]
    split
    · exact ⟨h.1, fun i => (setAt_ne _ _ (hc i)).trans (h.2 i)⟩
    · exact h
  | recordChunk _ _ _ => exact hc.elim
  | purge _ => exact hc.elim
  | delete _ => exact hc.elim
  | publish _ _ => exact hc.elim
  | _ => exact h

theorem reads_spares {id : String} (c : Call) (h : c.Reads id) : c.Spares id := by
  cases c with
  | upload _ _ _ => exact h.elim
  | recordChunk _ _ _ => exact h.elim
  | purge _ => exact h.elim
  | delete _ => exact h.elim
  | publish _ _ => exact h.elim
  | _ => trivial

theorem storeFinal_spares {id key : String} (hkey : ∀ i, chunkKey id i ≠ key) (data : Bytes)
    (contentType : String) :
    attemptOnly (Call.Spares id) (fun resp => resp.status ≠ 202) (fun _ => True)
      (storeFinal key data contentType) := by
  unfold storeFinal
  refine orFail_only (by decide) ⟨trivial, fun _ => trivial⟩ fun _ => ?_
  refine orFail_only (by decide) ⟨trivial, fun _ => trivial⟩ fun _ => ?_
  refine attempt_orGiveUp ⟨hkey, fun x => ?_⟩
  cases x with
  | error e => exact (by decide : (500 : Nat) ≠ 202)
  | ok _ => trivial

theorem listedChunks_spares (id : String) :
    attemptOnly (Call.Spares id) (fun resp => resp.status ≠ 202) (fun _ => True)
      (listedChunks id) := by
  unfold listedChunks
  refine orFail_only (by decide) ⟨trivial, fun _ => trivial⟩ fun l => ?_
  exact refuseIf_only (by decide) fun _ => trivial

theorem prepared_spares (tables : Unicode) (r : Request) :
    attemptOnly (Call.Spares (requestUploadID r)) (fun resp => resp.status ≠ 202) (fun _ => True)
      (prepared tables r) := by
  unfold prepared
  cases hacc : acceptComplete tables r with
  | error e => exact acceptComplete_error hacc
  | ok c =>
    have hc := acceptComplete_ok hacc
    rw [← hc.uploadID]
    change attemptOnly _ _ _ (listedChunks c.uploadID >>= _)
    refine attempt_bind (listedChunks_spares c.uploadID) fun l _ => ?_
    refine attempt_bind (attempt_mono (assemble_reads c.uploadID c.ext l) reads_spares
      (fun _ h => h) fun _ h => h) fun x _ => ?_
    refine attempt_bind (storeFinal_spares (chunkKey_ne_finalKey hc) x.1 c.contentType)
      fun _ _ => ?_
    trivial

/-- What the listing gives is what is recorded, in some order. -/
theorem listedChunks_keys (id : String) (u : Uploads) :
    wpTry backends (fun _ _ _ => True) (listedChunks id) (fun resp _ => resp.status ≠ 202)
      (fun l s => s = u ∧ l ≠ [] ∧ l.Perm (u.chunks id).keys) u := by
  unfold listedChunks
  apply orFail_wp (fun _ => by decide)
  intro o _ l hl
  apply refuseIf_wp (fun _ => by decide)
  intro hne
  have hlist : (u.chunks id).list o.order = l := by
    simp only [backends, answerCall, reply] at hl
    split at hl
    · cases hl
    · injection hl
  refine ⟨rfl, ?_, ?_⟩
  · rintro rfl
    simp at hne
  · rw [← hlist]
    unfold Chunks.list
    split
    · rename_i hp
      exact List.isPerm_iff.mp hp
    · exact List.Perm.refl _

/-- What `handleComplete` knows when it starts to clear away. -/
theorem prepared_listed (tables : Unicode) (r : Request) (u : Uploads) :
    wpTry backends (fun _ _ _ => True) (prepared tables r) (fun _ _ => True)
      (fun x _ => x.1.uploadID = requestUploadID r ∧ x.2.1 ≠ [] ∧
        x.2.1.Perm (u.chunks (requestUploadID r)).keys) u := by
  unfold prepared
  cases hacc : acceptComplete tables r with
  | error e => trivial
  | ok c =>
    have hid := (acceptComplete_ok hacc).uploadID
    rw [← hid]
    change wpTry _ _ (listedChunks c.uploadID >>= _) _ _ u
    refine wpTry_bind (wpTry_mono (listedChunks_keys c.uploadID u) (fun _ _ _ => trivial) ?_)
    rintro l s ⟨-, hl⟩
    refine wpTry_bind (wpTry_mono (wpTry_only (J := fun _ => True) (attempt_any _) trivial
      fun _ _ _ _ _ h => h)
      (fun _ _ _ => trivial) fun x s₁ _ => ?_)
    refine wpTry_bind (wpTry_mono (wpTry_only (J := fun _ => True) (attempt_any _) trivial
      fun _ _ _ _ _ h => h)
      (fun _ _ _ => trivial) fun _ s₂ _ => ?_)
    exact ⟨rfl, hl⟩

/-! ## Clearing away -/

section Delete

variable (o : Outcome) (u : Uploads) (key : String)

theorem delete_chunks : (answerCall o u (.delete key)).2.chunks = u.chunks := by
  change (if landed o then u.put key none else u).chunks = _
  split <;> rfl

theorem delete_at :
    (answerCall o u (.delete key)).2.objects key = if landed o then none else u.objects key := by
  change (if landed o then u.put key none else u).objects key = _
  split
  · exact setAt_self _ _ _
  · rfl

theorem delete_elsewhere {k : String} (hk : k ≠ key) :
    (answerCall o u (.delete key)).2.objects k = u.objects k := by
  change (if landed o then u.put key none else u).objects k = _
  split
  · exact setAt_ne _ _ hk
  · rfl

variable {o u key}

/-- A `Delete` makes nothing. -/
theorem delete_none {k : String} (h : u.objects k = none) :
    (answerCall o u (.delete key)).2.objects k = none := by
  by_cases hk : k = key
  · subst hk
    rw [delete_at, h]
    split <;> rfl
  · rw [delete_elsewhere o u key hk, h]

/-- Where there is nothing to clear, or the `Delete` does not land, nothing changes. -/
theorem delete_nothing (h : (u.objects key).isSome → landed o = false) :
    (answerCall o u (.delete key)).2.objects = u.objects := by
  funext k
  by_cases hk : k = key
  · subst hk
    rw [delete_at]
    split
    · rename_i hl
      cases hx : u.objects k with
      | none => rfl
      | some x => exact absurd hl (by simp [h (by simp [hx])])
    · rfl
  · exact delete_elsewhere o u key hk

end Delete

theorem deleteChunks_run (id : String) {l : List Nat} {os : List Outcome} {u u' : Uploads}
    (h : run backends os (deleteChunks id l, u) = (.done (), u')) :
    u'.chunks = u.chunks ∧
      (∀ key, u.objects key = none → u'.objects key = none) ∧
      (Meets backends NothingCleared os (deleteChunks id l, u) → u'.objects = u.objects) ∧
      ((∀ i ∈ l, u'.objects (chunkKey id i) = u.objects (chunkKey id i)) →
        Meets backends NothingCleared os (deleteChunks id l, u)) := by
  induction l generalizing os u with
  | nil =>
    have hu : u' = u := by
      cases os <;> simp [deleteChunks, run] at h <;> exact h.symm
    subst hu
    refine ⟨rfl, fun _ h => h, fun _ => rfl, fun _ => ?_⟩
    cases os <;> trivial
  | cons i l ih =>
    cases os with
    | nil => cases h
    | cons o os =>
      obtain ⟨hchunks, hnone, hto, hfrom⟩ := ih h
      change _ = (answerCall o u (.delete (chunkKey id i))).2.chunks at hchunks
      change ∀ key, (answerCall o u (.delete (chunkKey id i))).2.objects key = none → _ at hnone
      change _ → u'.objects = (answerCall o u (.delete (chunkKey id i))).2.objects at hto
      change (∀ j ∈ l, _ = (answerCall o u (.delete (chunkKey id i))).2.objects _) → _ at hfrom
      refine ⟨hchunks.trans (delete_chunks o u _), fun key hkey => hnone key (delete_none hkey),
        fun hm => (hto hm.2).trans (delete_nothing hm.1), fun hsame => ?_⟩
      -- what the chunk was, it still is, so a `Delete` that landed found nothing
      have hhere : landed o = true → u.objects (chunkKey id i) = none := by
        intro hl
        rw [← hsame i List.mem_cons_self]
        exact hnone _ (by rw [delete_at, if_pos hl])
      have hstill : (u.objects (chunkKey id i)).isSome → landed o = false := by
        intro hsome
        by_contra hl
        rw [hhere (by simpa using hl)] at hsome
        cases hsome
      refine ⟨hstill, hfrom fun j hj => ?_⟩
      rw [delete_nothing hstill]
      exact hsame j (List.mem_cons_of_mem _ hj)

/-- A cleanup leaves the recorded chunks exactly where nothing is cleared. -/
theorem cleanUp_run {id : String} {l : List Nat} {os : List Outcome} {u u' : Uploads}
    (hne : l ≠ []) (hl : l.Perm (u.chunks id).keys)
    (h : run backends os (cleanUp id l, u) = (.done (), u')) :
    Meets backends NothingCleared os (cleanUp id l, u) ↔ Kept id u u' := by
  have hmem : ∀ i, i ∈ l ↔ ∃ n, (u.chunks id).lookup i = some n := by
    intro i
    rw [hl.mem_iff, ← Option.isSome_iff_exists, AList.lookup_isSome, AList.mem_keys]
  unfold cleanUp at h ⊢
  obtain ⟨os₁, os₂, ⟨⟩, s, h₁, h₂, hm⟩ := run_bind h
  obtain ⟨hchunks, hnone, hto, hfrom⟩ := deleteChunks_run id h₁
  rw [hm]
  cases os₂ with
  | nil => cases h₂
  | cons o os₂ =>
    have hu : u' = if landed o then s.clear id else s := by
      cases os₂ <;> injection h₂ with _ h₂ <;> exact h₂.symm
    have hobjects : u'.objects = s.objects := by
      rw [hu]
      split <;> rfl
    have hpurge : Meets backends NothingCleared (o :: os₂) (do let _ ← purge id, s) ↔
        landed o = false := by
      refine ⟨fun h => h.1, fun h => ⟨h, ?_⟩⟩
      cases os₂ <;> trivial
    rw [hpurge]
    constructor
    · rintro ⟨hd, ho⟩ i n hi
      rw [hobjects, hto hd, hu, if_neg (by simp [ho]), hchunks]
      exact ⟨hi, rfl⟩
    · intro hk
      constructor
      · apply hfrom
        intro i hi
        obtain ⟨n, hn⟩ := (hmem i).mp hi
        rw [← hobjects]
        exact (hk i n hn).2
      · -- a chunk is recorded, and after a `Purge` it would not be
        obtain ⟨i, hi⟩ := List.exists_mem_of_ne_nil l hne
        obtain ⟨n, hn⟩ := (hmem i).mp hi
        by_contra ho
        have hgone := (hk i n hn).1
        have hempty : (s.clear id).chunks id = ∅ := setAt_self _ _ _
        rw [hu, if_pos (by simpa using ho), hempty] at hgone
        cases hgone

theorem cleanUp_unpublished (id : String) (l : List Nat) (os : List Outcome) (u : Uploads) :
    Meets backends PublishTaken os (cleanUp id l, u) := by
  have hp : (cleanUp id l).Only (fun c => ∀ q m, c ≠ .publish q m) fun _ => True := by
    unfold cleanUp
    induction l with
    | nil => exact ⟨fun _ _ => nofun, fun _ => trivial⟩
    | cons i l ih => exact ⟨fun _ _ => nofun, fun _ => ih⟩
  apply meets_only hp
  intro s c o hc
  cases c with
  | publish q m => exact absurd rfl (hc q m)
  | _ => trivial

/-! ## The message -/

/-- The call makes up a string, or publishes. -/
def Call.Tells : Call → Prop
  | .newString => True
  | .publish _ _ => True
  | _ => False

theorem reqTraceID_tells (r : Request) :
    (reqTraceID r).Only (fun c => c = .newString) fun _ => True := by
  unfold reqTraceID
  split
  · trivial
  · split
    · trivial
    · exact ⟨rfl, fun _ => trivial⟩

theorem enqueue_tells (r : Request) (c : Completion) (key : String) (probe : ProbeResult) :
    attemptOnly Call.Tells (fun _ => True) (fun _ => True) (enqueue r c key probe) := by
  unfold enqueue
  refine lift_only ⟨trivial, fun _ => trivial⟩ fun jobID => ?_
  refine lift_only (only_mono (reqTraceID_tells r) ?_ fun _ h => h) fun traceID => ?_
  · rintro _ rfl
    trivial
  refine lift_only ⟨trivial, fun _ => trivial⟩ fun stageAttemptID => ?_
  exact orFail_only trivial ⟨trivial, fun _ => trivial⟩ fun _ => trivial

/-- The answer is 202 exactly when the broker takes the message. -/
theorem enqueue_run {r : Request} {c : Completion} {key : String} {probe : ProbeResult}
    {os : List Outcome} {u u' : Uploads} {x : Except Response Response}
    (h : run backends os ((enqueue r c key probe).run, u) = (.done x, u')) :
    (Meets backends PublishTaken os ((enqueue r c key probe).run, u) ∧
        ∃ resp, x = .ok resp ∧ resp.status = 202) ∨
      (¬Meets backends PublishTaken os ((enqueue r c key probe).run, u) ∧
        ∃ resp, x = .error resp ∧ resp.status ≠ 202) := by
  have htaken : ∀ (s : Uploads) (c : Call) (o : Outcome), c = .newString → PublishTaken s c o := by
    rintro s _ o rfl
    trivial
  have hnew : ∀ (os : List Outcome) (s : Uploads), Meets backends PublishTaken os (newString, s) :=
    meets_only (R := fun _ => True) (P := fun c => c = .newString) ⟨rfl, fun _ => trivial⟩ htaken
  unfold enqueue at h ⊢
  obtain ⟨os₁, os₂, jobID, s₁, -, h, hm₁⟩ := run_lift_bind h
  obtain ⟨os₃, os₄, traceID, s₂, -, h, hm₂⟩ := run_lift_bind h
  obtain ⟨os₅, os₆, attemptID, s₃, -, h, hm₃⟩ := run_lift_bind h
  rw [hm₁, hm₂, hm₃]
  cases os₆ with
  | nil => cases h
  | cons o os₆ =>
    obtain ⟨fails, applied, error, order, found, fresh⟩ := o
    cases fails with
    | false =>
      left
      refine ⟨⟨hnew _ _, meets_only (reqTraceID_tells r) htaken _ _, hnew _ _, rfl, ?_⟩,
        _, (run_ended h).1, rfl⟩
      exact meets_done backends PublishTaken os₆ (Except.ok _) _
    | true =>
      right
      refine ⟨?_, _, (run_ended h).1, (by decide : (500 : Nat) ≠ 202)⟩
      rintro ⟨-, -, -, hp, -⟩
      cases hp

/-! ## The law -/

theorem spares_meets {id : String} {α : Type} {p : Upload α} {R : α → Prop}
    (hp : p.Only (Call.Spares id) R) (os : List Outcome) (u : Uploads) :
    Meets backends PublishTaken os (p, u) ∧ Meets backends NothingCleared os (p, u) := by
  constructor
  · apply meets_only hp
    intro s c o hc
    cases c with
    | publish _ _ => exact hc.elim
    | _ => trivial
  · apply meets_only hp
    intro s c o hc
    cases c with
    | purge _ => exact hc.elim
    | delete _ => exact hc.elim
    | _ => trivial

theorem tells_meets {α : Type} {p : Upload α} {R : α → Prop} (hp : p.Only Call.Tells R)
    (os : List Outcome) (u : Uploads) : Meets backends NothingCleared os (p, u) := by
  apply meets_only hp
  intro s c o hc
  cases c with
  | purge _ => exact hc.elim
  | delete _ => exact hc.elim
  | _ => trivial

/-- The message changes nothing that is stored. -/
theorem enqueue_kept {r : Request} {c : Completion} {key : String} {probe : ProbeResult}
    {os : List Outcome} {u u' : Uploads} {x : Except Response Response}
    (h : run backends os ((enqueue r c key probe).run, u) = (.done x, u')) :
    u'.chunks = u.chunks ∧ u'.objects = u.objects := by
  have hw := wpTry_only (w := backends) (E := fun _ _ _ => True)
    (J := fun s => s.chunks = u.chunks ∧ s.objects = u.objects)
    (enqueue_tells r c key probe) ⟨rfl, rfl⟩ (by
      intro s c o hc _ hs
      cases c with
      | newString => exact hs
      | publish q m =>
        simp only [backends, answerCall]
        split
        · exact hs
        · exact hs
      | _ => exact hc.elim)
  have hx := wp_run hw (meets_only (only_any _) (fun _ _ _ _ => trivial) os u) h
  cases x with
  | error e => exact hx.2
  | ok a => exact hx.2

/-- A completion that does not answer 202 leaves every recorded chunk in place exactly when the
broker took the message or nothing was cleared away before. -/
theorem a_failed_completion_keeps_its_chunks (tables : Unicode) (r : Request) (u u' : Uploads)
    (os : List Outcome) (resp : Response)
    (hrun : run backends os (handleComplete tables r, u) = (.done resp, u')) :
    (resp.status ≠ 202 → Kept (requestUploadID r) u u') ↔
      Meets backends PublishTaken os (handleComplete tables r, u) ∨
        Meets backends NothingCleared os (handleComplete tables r, u) := by
  rw [handleComplete_eq] at hrun ⊢
  obtain ⟨os', x, hresp, hrun, hm⟩ := run_finish hrun
  rw [hm, hm]
  have hall : ∀ {α : Type} (p : Upload α) (os : List Outcome) (s : Uploads),
      Meets backends (fun _ _ _ => True) os (p, s) :=
    fun p => meets_only (only_any p) fun _ _ _ _ => trivial
  have hsame := wpTry_only (w := backends) (E := fun _ _ _ => True)
    (J := SameChunks (requestUploadID r) u) (prepared_spares tables r) ⟨rfl, fun _ => rfl⟩
    fun s c o hc _ hs => spares_sameChunks o hc hs
  rcases run_attempt_bind hrun with
    ⟨os₁, e, rfl, h₁, hm₁⟩ | ⟨os₁, os₂, ⟨c, l, probe⟩, s₁, h₁, h₂, hm₁⟩
  · -- it gave up before the cleanup
    rw [hm₁, hm₁]
    have hmeets := spares_meets (prepared_spares tables r) os₁ u
    exact ⟨fun _ => Or.inl hmeets.1,
      fun _ _ => kept_of_sameChunks (wp_run hsame (hall _ os₁ u) h₁).2⟩
  · obtain ⟨hid, hne, hl⟩ := wp_run (prepared_listed tables r u) (hall _ os₁ u) h₁
    obtain ⟨-, hchunks, hobjects⟩ := wp_run hsame (hall _ os₁ u) h₁
    obtain ⟨os₃, os₄, ⟨⟩, s₂, h₃, h₄, hm₂⟩ := run_lift_bind h₂
    have hmeets := spares_meets (prepared_spares tables r) os₁ u
    have hkept := enqueue_kept h₄
    simp only at hid hne hl h₃ h₄ hm₂
    rw [← hid] at hl hchunks hobjects ⊢
    have hclean := cleanUp_run hne (by rw [hchunks]; exact hl) h₃
    have hsides : Kept c.uploadID u u' ↔ Kept c.uploadID s₁ s₂ := by
      unfold Kept
      simp only [hkept.1, hkept.2, hchunks, hobjects]
    rw [hm₁, hm₁, hm₂, hm₂, hsides, ← hclean]
    have htells := tells_meets (enqueue_tells r c (finalKeyOf c) probe) os₄ s₂
    rcases enqueue_run h₄ with ⟨htaken, resp', rfl, h202⟩ | ⟨hnot, resp', rfl, h202⟩
    · have : resp = resp' := by rcases hresp with h | h <;> cases h; rfl
      subst this
      exact ⟨fun _ => Or.inl ⟨hmeets.1, cleanUp_unpublished _ _ _ _, htaken⟩,
        fun _ h => absurd h202 h⟩
    · have : resp = resp' := by rcases hresp with h | h <;> cases h; rfl
      subst this
      constructor
      · exact fun h => Or.inr ⟨hmeets.2, h h202, htells⟩
      · rintro (⟨-, -, h⟩ | ⟨-, h, -⟩) -
        · exact absurd h hnot
        · exact h

/-- The download of a chunk fails, so the chunk is kept for the next try. -/
theorem a_failed_download_keeps_the_chunk :
    Kept (requestUploadID completeRequest) oneChunk
      (run backends [{}, {}, {}, { fails := true, error := "timeout" }]
        (handleComplete ascii completeRequest, oneChunk)).2 :=
  (a_failed_completion_keeps_its_chunks ascii completeRequest oneChunk _
    [{}, {}, {}, { fails := true, error := "timeout" }]
    (writeError 500 "failed to assemble upload") (by with_unfolding_all rfl)).mpr
    (Or.inl (by with_unfolding_all exact ⟨trivial, trivial, trivial, trivial, trivial⟩))
    (by decide)

/-- Every call succeeds but the last one. -/
def publishFails : List Outcome :=
  List.replicate 15 ({} : Outcome) ++ [{ fails := true, error := "closed" }]

/-- The broker does not take the message of an upload whose one chunk is cleared away by then. -/
theorem a_failed_publish_loses_the_chunk :
    ¬ ∀ (tables : Unicode) (r : Request) (u u' : Uploads) (os : List Outcome) (resp : Response),
      run backends os (handleComplete tables r, u) = (.done resp, u') → resp.status ≠ 202 →
        Kept (requestUploadID r) u u' := by
  intro h
  have hrun : run backends publishFails (handleComplete ascii completeRequest, oneChunk) =
      (.done (writeError 500 "failed to enqueue job"),
        (run backends publishFails (handleComplete ascii completeRequest, oneChunk)).2) := by
    with_unfolding_all rfl
  have hkept := (h ascii completeRequest oneChunk _ _ _ hrun (by decide) 0 1
    (by with_unfolding_all rfl)).1
  have hgone : (∅ : Chunks).lookup 0 = some 1 := by with_unfolding_all exact hkept
  cases hgone

end recast_rules.upload_service
