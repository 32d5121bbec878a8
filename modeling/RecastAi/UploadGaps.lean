-- Which uploads can be completed. `handleComplete` asks for recorded chunks,
-- their objects and a total size within the limit, and for nothing else: it
-- never looks whether the indices have a gap.
import RecastAi.UploadRetry

open call_programs go_text

namespace recast_rules.upload_service

/-! ## What the handler asks for -/

/-- The recorded indices are `0`, `1` and so on up to some last one, and nothing else. -/
def NoGap (uploadID : String) (u : Uploads) : Prop :=
  ∃ n, 1 ≤ n ∧ ∀ i, i ∈ u.chunks uploadID ↔ i < n

/-- All that a request to complete needs, as far as it depends on the request and on what is
recorded and stored. -/
structure Completable (tables : Unicode) (r : Request) (u : Uploads) : Prop where
  accepted : ∃ c, acceptComplete tables r = .ok c
  recorded : (u.chunks (requestUploadID r)).keys ≠ []
  stored : ∀ i ∈ u.chunks (requestUploadID r),
    (u.objects (chunkKey (requestUploadID r) i)).isSome
  total : (u.chunks (requestUploadID r)).totalSize ≤ maxTotalUploadSize

theorem mem_sortInts {l : List Nat} {i : Nat} : i ∈ sortInts l ↔ i ∈ l :=
  (sortInts_spec l).2.mem_iff

/-! ## An answer 202 had all of it -/

/-- The copy loop gets to its end only if every object is there. -/
theorem copyChunks_stored (id : String) (l : List Nat) (written : Bytes) (u : Uploads) :
    wp backends (fun _ _ _ => True) (copyChunks id written l)
      (fun x s => s = u ∧ ∀ data, x = .ok data → ∀ i ∈ l, (u.objects (chunkKey id i)).isSome) u := by
  induction l generalizing written with
  | nil =>
    refine ⟨rfl, fun _ _ i hi => ?_⟩
    cases hi
  | cons i l ih =>
    intro o _
    cases hobj : u.objects (chunkKey id i) with
    | none =>
      simp only [backends, answerCall, hobj]
      exact ⟨rfl, by simp⟩
    | some obj =>
      simp only [backends, answerCall, hobj, reply]
      cases o.fails
      · intro o₁ _
        simp only [answerCall, reply]
        cases o₁.fails
        · intro o₂ _
          simp only [answerCall, reply]
          cases o₂.fails
          · refine wp_mono (ih _) ?_
            rintro x s ⟨hs, hx⟩
            refine ⟨hs, fun data hd j hj => ?_⟩
            rcases List.mem_cons.mp hj with rfl | hj
            · simp [hobj]
            · exact hx data hd j hj
          · exact ⟨rfl, by simp⟩
        · exact ⟨rfl, by simp⟩
      · exact ⟨rfl, by simp⟩

theorem assemble_needs (id ext : String) {l : List Nat} {u : Uploads}
    (hl : l.Perm (u.chunks id).keys) :
    wpTry backends (fun _ _ _ => True) (assemble id ext l) (fun resp _ => resp.status ≠ 202)
      (fun _ _ => (∀ i ∈ u.chunks id, (u.objects (chunkKey id i)).isSome) ∧
        (u.chunks id).totalSize ≤ maxTotalUploadSize) u := by
  have hmem : ∀ i, i ∈ u.chunks id → i ∈ sortInts l := by
    intro i hi
    rw [mem_sortInts, hl.mem_iff]
    exact AList.mem_keys.mp hi
  unfold assemble
  apply orFail_wp (fun _ => by decide)
  intro o _ total htotal
  have htotal' : (u.chunks id).totalSize = total := by
    simp only [backends, answerCall, reply] at htotal
    split at htotal
    · cases htotal
    · injection htotal
  apply refuseIf_wp (fun _ => by decide)
  intro hmax
  apply orFail_wp (fun _ => by decide)
  intro o₁ _ _ _
  apply orFail_wp (fun _ => by decide)
  refine wp_mono (copyChunks_stored id (sortInts l) [] u) ?_
  rintro x s ⟨rfl, hx⟩ data hd
  apply orFail_wp (fun _ => by decide)
  intro o₂ _ _ _
  apply orFail_wp (fun _ => by decide)
  intro o₃ _ probe _
  apply refuseIf_wp (fun _ => by decide)
  intro _
  apply refuseIf_wp (fun _ => by decide)
  intro _
  refine ⟨fun i hi => hx data hd i (hmem i hi), ?_⟩
  rw [htotal']
  simpa using hmax

theorem handleComplete_needs (tables : Unicode) (r : Request) (u : Uploads) :
    wp backends (fun _ _ _ => True) (handleComplete tables r)
      (fun resp _ => resp.status = 202 → Completable tables r u) u := by
  unfold handleComplete
  apply wp_finish
  cases hacc : acceptComplete tables r with
  | error e => exact fun h => absurd h (acceptComplete_error hacc)
  | ok c =>
    have hid := (acceptComplete_ok hacc).uploadID
    change wpTry _ _ (listedChunks c.uploadID >>= _) _ _ u
    rw [hid]
    have hno : ∀ (e : Response) (t : Uploads), e.status ≠ 202 → e.status = 202 →
        Completable tables r u := fun _ _ he h => absurd h he
    refine wpTry_bind (wpTry_mono (listedChunks_keys (requestUploadID r) u) hno ?_)
    rintro l s ⟨rfl, hne, hl⟩
    refine wpTry_bind (wpTry_mono (assemble_needs (requestUploadID r) c.ext hl) hno ?_)
    rintro x s₁ ⟨hstored, htotal⟩
    have hdone : Completable tables r s := by
      refine ⟨⟨c, hacc⟩, fun h => ?_, hstored, htotal⟩
      rw [h] at hl
      exact hne hl.eq_nil
    exact wpTry_mono (wpTry_only (J := fun _ => True) (attempt_any _) trivial
      fun _ _ _ _ _ h => h) (fun _ _ _ _ => hdone) fun _ _ _ _ => hdone

/-! ## And all of it is enough -/

/-- Nothing fails, and `ffprobe` finds a short video. -/
def Fine (_ : Uploads) (_ : Call) (o : Outcome) : Prop := o = {}

theorem copyChunks_fine (id : String) (l : List Nat) (written : Bytes) (u : Uploads)
    (hl : ∀ i ∈ l, (u.objects (chunkKey id i)).isSome) :
    wp backends Fine (copyChunks id written l) (fun x _ => ∃ data, x = .ok data) u := by
  induction l generalizing written with
  | nil => exact ⟨written, rfl⟩
  | cons i l ih =>
    obtain ⟨obj, hobj⟩ := Option.isSome_iff_exists.mp (hl i List.mem_cons_self)
    rintro o rfl
    have hanswer : (backends.answer {} u (.download (chunkKey id i))).1 = Except.ok obj.data := by
      simp only [backends, answerCall, hobj]
      rfl
    rw [hanswer]
    rintro _ rfl _ rfl
    exact ih _ fun j hj => hl j (List.mem_cons_of_mem _ hj)

theorem list_fine (m : Chunks) : m.list ({} : Outcome).order = m.keys := by
  unfold Chunks.list
  split
  · rename_i hp
    exact (List.isPerm_iff.mp hp).symm.eq_nil ▸ rfl
  · rfl

theorem assemble_fine (id ext : String) {u : Uploads}
    (hstored : ∀ i ∈ u.chunks id, (u.objects (chunkKey id i)).isSome)
    (htotal : (u.chunks id).totalSize ≤ maxTotalUploadSize) :
    wpTry backends Fine (assemble id ext (u.chunks id).keys) (fun resp _ => resp.status = 202)
      (fun _ _ => True) u := by
  unfold assemble
  apply orFail_sure
  rintro _ rfl
  refine ⟨_, rfl, ?_⟩
  rw [refuseIf_pass (by simpa using htotal)]
  apply orFail_sure
  rintro _ rfl
  refine ⟨_, rfl, ?_⟩
  apply orFail_sure
  refine wp_mono (copyChunks_fine id _ [] u fun i hi => hstored i ?_) ?_
  · exact AList.mem_keys.mpr (mem_sortInts.mp hi)
  rintro _ s ⟨data, rfl⟩
  refine ⟨_, rfl, ?_⟩
  apply orFail_sure
  rintro _ rfl
  refine ⟨_, rfl, ?_⟩
  apply orFail_sure
  rintro _ rfl
  refine ⟨_, rfl, ?_⟩
  trivial

theorem storeFinal_fine (key : String) (data : Bytes) (contentType : String) (u : Uploads) :
    wpTry backends Fine (storeFinal key data contentType) (fun resp _ => resp.status = 202)
      (fun _ _ => True) u := by
  unfold storeFinal
  apply orFail_sure
  rintro _ rfl
  refine ⟨_, rfl, ?_⟩
  apply orFail_sure
  rintro _ rfl
  refine ⟨_, rfl, ?_⟩
  apply wpTry_orGiveUp
  rintro _ rfl
  trivial

theorem enqueue_fine (r : Request) (c : Completion) (key : String) (probe : ProbeResult)
    (u : Uploads) :
    wpTry backends Fine (enqueue r c key probe) (fun resp _ => resp.status = 202)
      (fun resp _ => resp.status = 202) u := by
  unfold enqueue
  apply wpTry_bind
  apply wpTry_lift
  rintro _ rfl
  apply wpTry_bind
  apply wpTry_lift
  refine wp_mono (wp_only (J := fun _ => True) (only_any _) trivial fun _ _ _ _ _ h => h) ?_
  intro traceID s _
  apply wpTry_bind
  apply wpTry_lift
  rintro _ rfl
  apply orFail_sure
  rintro _ rfl
  exact ⟨_, rfl, rfl⟩

theorem handleComplete_fine (tables : Unicode) (r : Request) {u : Uploads}
    (h : Completable tables r u) :
    wp backends Fine (handleComplete tables r) (fun resp _ => resp.status = 202) u := by
  obtain ⟨c, hacc⟩ := h.accepted
  have hid := (acceptComplete_ok hacc).uploadID
  unfold handleComplete
  rw [hacc]
  apply wp_finish
  change wpTry _ _ (listedChunks c.uploadID >>= _) _ _ u
  rw [hid]
  unfold listedChunks
  apply wpTry_bind
  apply orFail_sure
  rintro _ rfl
  refine ⟨_, rfl, ?_⟩
  rw [list_fine, refuseIf_pass (by simpa using h.recorded)]
  refine wpTry_bind (wpTry_mono (assemble_fine _ c.ext h.stored h.total) (fun _ _ h => h) ?_)
  rintro x s -
  refine wpTry_bind (wpTry_mono (storeFinal_fine _ x.1 c.contentType s) (fun _ _ h => h) ?_)
  rintro _ s₁ -
  apply wpTry_bind
  apply wpTry_lift
  refine wp_mono (wp_only (J := fun _ => True) (only_any _) trivial fun _ _ _ _ _ h => h) ?_
  exact fun _ s₂ _ => enqueue_fine r c _ x.2 s₂

/-! ## The law -/

/-- An answer 202 promises that there was no gap exactly where the upload has none, or where it
cannot be completed for another reason. -/
theorem completed_uploads_have_no_gap_iff (tables : Unicode) (r : Request) (u : Uploads) :
    (∀ os resp u', run backends os (handleComplete tables r, u) = (.done resp, u') →
        resp.status = 202 → NoGap (requestUploadID r) u) ↔
      (Completable tables r u → NoGap (requestUploadID r) u) := by
  constructor
  · intro h hc
    obtain ⟨resp, u', os, hm, hrun⟩ := ends_of_choice (w := backends) (E := Fine)
      (handleComplete tables r) u fun _ _ => ⟨{}, rfl⟩
    exact h os resp u' hrun
      (wp_run (Q := fun resp _ => resp.status = 202) (handleComplete_fine tables r hc) hm hrun)
  · intro h os resp u' hrun h202
    exact h (wp_run (Q := fun resp _ => resp.status = 202 → Completable tables r u)
      (handleComplete_needs tables r u) (meets_only (only_any _) (fun _ _ _ _ => trivial) os u)
      hrun h202)

/-- A client that only stores chunks. -/
def storeChunks (rs : List Request) : Upload (List Response) := rs.mapM handleChunk

/-- The one chunk that arrived has the index 1, and the upload is completed. -/
theorem a_missing_first_chunk_is_skipped :
    ¬ ∀ (tables : Unicode) (rs : List Request) (r : Request) (os os' : List Outcome)
      (resps : List Response) (resp : Response) (u u' : Uploads),
      run backends os (storeChunks rs, empty) = (.done resps, u) →
        run backends os' (handleComplete tables r, u) = (.done resp, u') →
          resp.status = 202 → NoGap (requestUploadID r) u := by
  intro h
  obtain ⟨n, hn, hi⟩ := h ascii [chunkRequest "1" [2]] completeRequest
    (List.replicate 3 ({} : Outcome)) (List.replicate 16 ({} : Outcome)) [⟨200, .chunk "u" 1 1⟩]
    ⟨202, .complete "" "trace" "uploads/u/final.mp4" 0 "queued"⟩
    (run backends (List.replicate 3 ({} : Outcome)) (storeChunks [chunkRequest "1" [2]], empty)).2
    (run backends (List.replicate 16 ({} : Outcome)) (handleComplete ascii completeRequest,
      (run backends (List.replicate 3 ({} : Outcome))
        (storeChunks [chunkRequest "1" [2]], empty)).2)).2
    (by with_unfolding_all rfl) (by with_unfolding_all rfl) rfl
  have hzero := (hi 0).mpr hn
  have hkeys : ((run backends (List.replicate 3 ({} : Outcome))
      (storeChunks [chunkRequest "1" [2]], empty)).2.chunks (requestUploadID completeRequest)).keys
        = [1] := by with_unfolding_all rfl
  rw [AList.mem_keys, hkeys] at hzero
  simp at hzero

end recast_rules.upload_service
