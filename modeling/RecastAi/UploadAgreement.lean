-- Tracker and store after each request of the upload service. A chunk is stored and then recorded,
-- and a cleanup deletes and then purges, so a call that fails in between can drive them apart.
import RecastAi.UploadRetry

open call_programs go_text

namespace recast_rules.upload_service

/-! ## Agreement -/

/-- The recorded chunks of the upload are the stored ones, with their lengths. -/
def Agree (u : String) (s : Uploads) : Prop :=
  ∀ idx, (s.chunks u).lookup idx =
    (s.objects (chunkKey u idx)).map fun obj => (obj.data.length : Int)

/-- Tracker and store describe the same chunks. -/
def InAgreement (s : Uploads) : Prop := ∀ u, isSafeID u = true → Agree u s

/-- A chunk is recorded where its object is written, unless it was recorded with this size before;
and a purge takes effect where all the objects are deleted, and has none where none of them is. -/
def Together (s : Uploads) (c : Call) (o : Outcome) : Prop :=
  match c with
  | .upload key data _ => o.fails = true → landed o = true →
      ∀ u idx, isSafeID u = true → key = chunkKey u idx →
        (s.chunks u).lookup idx = some (data.length : Int)
  | .recordChunk u idx size => landed o = false → (s.chunks u).lookup idx = some size
  | .purge u =>
      if landed o then ∀ idx ∈ s.chunks u, s.objects (chunkKey u idx) = none
      else ∀ idx ∈ s.chunks u, s.objects (chunkKey u idx) ≠ none
  | _ => True

section Steps

variable {u : String} {s t : Uploads} {idx : Nat} {obj : Object}

theorem agree_of_same (h : Agree u s) (hsame : SameChunks u s t) : Agree u t := by
  intro idx
  rw [hsame.1, hsame.2]
  exact h idx

theorem put_object (s : Uploads) (u : String) (idx k : Nat) (obj : Object) :
    (s.put (chunkKey u idx) (some obj)).objects (chunkKey u k) =
      if k = idx then some obj else s.objects (chunkKey u k) := by
  by_cases hk : k = idx
  · rw [hk, if_pos rfl]
    exact setAt_self _ _ _
  · rw [if_neg hk]
    exact setAt_ne _ _ fun heq => hk (chunkKey_inj heq)

/-- An object that has the recorded size. -/
theorem agree_put (h : Agree u s) (hsize : (s.chunks u).lookup idx = some (obj.data.length : Int)) :
    Agree u (s.put (chunkKey u idx) (some obj)) := by
  intro k
  rw [put_object]
  by_cases hk : k = idx
  · rw [hk, if_pos rfl]
    exact hsize
  · rw [if_neg hk]
    exact h k

/-- An object that is recorded after it was written. -/
theorem agree_record (h : Agree u s) :
    Agree u ((s.put (chunkKey u idx) (some obj)).record u idx obj.data.length) := by
  intro k
  have hchunks : ((s.put (chunkKey u idx) (some obj)).record u idx obj.data.length).chunks u =
      (s.chunks u).insert idx (obj.data.length : Int) := setAt_self _ _ _
  have hobjects : ((s.put (chunkKey u idx) (some obj)).record u idx obj.data.length).objects
      (chunkKey u k) = if k = idx then some obj else s.objects (chunkKey u k) := put_object s u idx k obj
  rw [hchunks, hobjects]
  by_cases hk : k = idx
  · rw [hk, AList.lookup_insert, if_pos rfl]
    rfl
  · rw [AList.lookup_insert_ne hk, if_neg hk]
    exact h k

end Steps

/-! ## A chunk -/

theorem storeChunk_agrees (r : Request) {u : String} {s : Uploads} (hu : isSafeID u = true)
    (h : Agree u s) : wp backends Together (storeChunk r u) (fun _ t => Agree u t) s := by
  unfold storeChunk
  apply wp_finish
  apply wpTry_bind
  apply wpTry_giveUpIf
  · exact fun _ => h
  intro _
  apply wpTry_bind
  apply wpTry_someOr
  · exact fun _ => h
  intro idx _
  apply wpTry_bind
  apply wpTry_someOr
  · exact fun _ => h
  intro buf _
  apply wpTry_bind
  apply wpTry_giveUpIf
  · exact fun _ => h
  intro _
  apply wpTry_bind
  apply wpTry_orGiveUp
  intro o _
  have hread : backends.answer o s (.totalSize u) = (reply o (s.chunks u).totalSize, s) := rfl
  rw [hread]
  unfold reply
  cases o.fails with
  | true => exact h
  | false =>
    apply wpTry_bind
    apply wpTry_giveUpIf
    · exact fun _ => h
    intro _
    apply wpTry_bind
    apply wpTry_orGiveUp
    intro o hupload
    have hstore : backends.answer o s (.upload (chunkKey u idx) buf "application/octet-stream") =
        (reply o (), if landed o then
          s.put (chunkKey u idx) (some ⟨buf, "application/octet-stream"⟩) else s) := rfl
    rw [hstore]
    unfold reply
    cases ho : o.fails with
    | true =>
      change Agree u (if landed o then _ else s)
      split
      · rename_i hl
        exact agree_put h (hupload ho hl u idx hu rfl)
      · exact h
    | false =>
      have hl : landed o = true := by simp [landed, ho]
      rw [if_pos hl]
      apply wpTry_bind
      apply wpTry_orGiveUp
      intro o hrecord
      have hwritten : backends.answer o
          (s.put (chunkKey u idx) (some ⟨buf, "application/octet-stream"⟩))
          (.recordChunk u idx buf.length) = (reply o (), if landed o then
            (s.put (chunkKey u idx) (some ⟨buf, "application/octet-stream"⟩)).record u idx buf.length
            else s.put (chunkKey u idx) (some ⟨buf, "application/octet-stream"⟩)) := rfl
      rw [hwritten]
      have hagree : Agree u (if landed o then
          (s.put (chunkKey u idx) (some ⟨buf, "application/octet-stream"⟩)).record u idx buf.length
          else s.put (chunkKey u idx) (some ⟨buf, "application/octet-stream"⟩)) := by
        split
        · exact agree_record h
        · rename_i hl
          exact agree_put h (hrecord (Bool.eq_false_of_not_eq_true hl))
      unfold reply
      cases o.fails with
      | true => exact hagree
      | false => exact hagree

/-! ## A cleanup -/

/-- Some chunk objects of the upload are deleted, and nothing else has changed. -/
def Cleared (u : String) (s t : Uploads) : Prop :=
  t.chunks = s.chunks ∧ ∀ idx, t.objects (chunkKey u idx) = s.objects (chunkKey u idx) ∨
    t.objects (chunkKey u idx) = none

theorem deleteChunks_clears (u : String) (l : List Nat) {s t : Uploads} (h : Cleared u s t) :
    wp backends Together (deleteChunks u l) (fun _ t' => Cleared u s t') t := by
  induction l generalizing t with
  | nil => exact h
  | cons i l ih =>
    intro o _
    refine ih ⟨(delete_chunks o t _).trans h.1, fun idx => ?_⟩
    by_cases hidx : idx = i
    · rw [hidx]
      have hat := delete_at o t (chunkKey u i)
      split at hat
      · exact Or.inr hat
      · exact (h.2 i).imp hat.trans hat.trans
    · have hother := delete_elsewhere o t (chunkKey u i) fun heq => hidx (chunkKey_inj heq)
      exact (h.2 idx).imp hother.trans hother.trans

theorem cleanUp_agrees (u : String) (l : List Nat) {s : Uploads} (h : Agree u s) :
    wp backends Together (cleanUp u l) (fun _ t => Agree u t) s := by
  unfold cleanUp
  rw [wp_bind]
  refine wp_mono (deleteChunks_clears u l ⟨rfl, fun _ => Or.inl rfl⟩) ?_
  rintro _ t ⟨hchunks, hobjects⟩ o hpurge
  change Agree u (if landed o then t.clear u else t)
  have hlisted : ∀ idx, idx ∈ t.chunks u ∨ s.objects (chunkKey u idx) = none := by
    intro idx
    cases hobj : s.objects (chunkKey u idx) with
    | none => exact Or.inr rfl
    | some obj =>
      refine Or.inl (AList.lookup_isSome.mp ?_)
      rw [hchunks, h idx, hobj]
      rfl
  unfold Together at hpurge
  cases hl : landed o with
  | true =>
    rw [hl] at hpurge
    intro idx
    have hgone : t.objects (chunkKey u idx) = none := by
      rcases hlisted idx with hmem | hnone
      · exact hpurge idx hmem
      · exact (hobjects idx).elim (fun hsame => hsame.trans hnone) id
    have hempty : (t.clear u).chunks u = ∅ := setAt_self _ _ _
    change ((t.clear u).chunks u).lookup idx = (t.objects (chunkKey u idx)).map _
    rw [hempty, hgone]
    rfl
  | false =>
    rw [hl] at hpurge
    refine agree_of_same h ⟨congrFun hchunks u, fun idx => ?_⟩
    rcases hlisted idx with hmem | hnone
    · exact (hobjects idx).resolve_right (hpurge idx hmem)
    · exact (hobjects idx).elim id fun hgone => hgone.trans hnone.symm

/-! ## The requests -/

/-- Calls that leave tracker and chunks as they are. -/
theorem agree_of_spares {α : Type} {R : α → Prop} {u : String} {p : Upload α} {s : Uploads}
    (hp : p.Only (Call.Spares u) R) (h : Agree u s) :
    wp backends Together p (fun _ t => Agree u t) s :=
  wp_mono (wp_only (J := SameChunks u s) hp ⟨rfl, fun _ => rfl⟩
    fun _ _ o hc _ hs => spares_sameChunks o hc hs) fun _ _ ht => agree_of_same h ht.2

/-- The message leaves tracker and store alone. -/
theorem enqueue_agrees (r : Request) (c : Completion) (key : String) (probe : ProbeResult)
    {u : String} {s : Uploads} (h : Agree u s) :
    wpTry backends Together (enqueue r c key probe) (fun _ t => Agree u t) (fun _ t => Agree u t) s := by
  refine wpTry_mono (wpTry_only (J := Agree u) (enqueue_tells r c key probe) h ?_)
    (fun _ _ h => h.2) fun _ _ h => h.2
  intro s c o hc _ hs
  cases c with
  | newString => exact hs
  | publish q m =>
    change Agree u (if landed o then s.send q m else s)
    split
    · exact hs
    · exact hs
  | _ => exact hc.elim

theorem handleComplete_agrees (tables : Unicode) (r : Request) {s : Uploads}
    (h : Agree (requestUploadID r) s) :
    wp backends Together (handleComplete tables r) (fun _ t => Agree (requestUploadID r) t) s := by
  rw [handleComplete_eq]
  apply wp_finish
  apply wpTry_bind
  have hagree := agree_of_spares (prepared_spares tables r) h
  have hadmits : ∀ s c o, Together s c o → True := fun _ _ _ _ => trivial
  have hlisted := wp_admits (prepared_listed tables r s) hadmits
  refine wp_mono (wp_and hagree hlisted) ?_
  rintro x t ⟨hagree, hx⟩
  cases x with
  | error e => exact hagree
  | ok x =>
    obtain ⟨c, l, probe⟩ := x
    apply wpTry_bind
    apply wpTry_lift
    rw [← hx.1] at hagree ⊢
    exact wp_mono (cleanUp_agrees c.uploadID l hagree) fun _ t ht =>
      enqueue_agrees r c (finalKeyOf c) probe ht

theorem handleStatus_agrees (r : Request) {s : Uploads} (h : Agree (r.urlParam "id") s) :
    wp backends Together (handleStatus r) (fun _ t => Agree (r.urlParam "id") t) s := by
  have hspares : (handleStatus r).Only (Call.Spares (r.urlParam "id")) fun _ => True := by
    unfold handleStatus
    apply only_finish
    refine refuseIf_only trivial fun _ => ?_
    refine orFail_only trivial ⟨trivial, fun _ => trivial⟩ fun _ => ?_
    exact orFail_only trivial ⟨trivial, fun _ => trivial⟩ fun _ => trivial
  exact agree_of_spares hspares h

theorem handleDelete_agrees (r : Request) {s : Uploads} (h : Agree (r.urlParam "id") s) :
    wp backends Together (handleDelete r) (fun _ t => Agree (r.urlParam "id") t) s := by
  unfold handleDelete
  apply wp_finish
  apply wpTry_bind
  apply wpTry_giveUpIf
  · exact fun _ => h
  intro _
  apply wpTry_bind
  apply wpTry_orGiveUp
  intro o _
  have hread : backends.answer o s (.listChunks (r.urlParam "id")) =
      (reply o ((s.chunks (r.urlParam "id")).list o.order), s) := rfl
  rw [hread]
  unfold reply
  cases o.fails with
  | true => exact h
  | false =>
    apply wpTry_bind
    apply wpTry_lift
    exact wp_mono (cleanUp_agrees (r.urlParam "id") _ h) fun _ t ht => ht

/-- A request about one upload leaves the others alone. -/
theorem inAgreement_of_own {R : Response → Prop} {v : String} {p : Upload Response} {s : Uploads}
    (hon : p.Only (Call.On v) R)
    (hown : isSafeID v = true → wp backends Together p (fun _ t => Agree v t) s)
    (h : InAgreement s) : wp backends Together p (fun _ t => InAgreement t) s := by
  have hothers : wp backends Together p
      (fun _ t => ∀ u, isSafeID u = true → u ≠ v → Agree u t) s := by
    refine wp_mono (wp_only (J := fun t => ∀ u, isSafeID u = true → u ≠ v → Untouched u s t) hon
      (fun u _ _ => Untouched.refl u s) ?_) ?_
    · exact fun t c o hc _ ht u hu hne => (ht u hu hne).trans (on_untouched hu hne.symm hc o t)
    · intro _ t ht u hu hne
      have hsame := ht.2 u hu hne
      exact agree_of_same (h u hu) ⟨hsame.chunks, fun idx => hsame.objects _ (under_chunkKey u idx)⟩
  by_cases hv : isSafeID v = true
  · refine wp_mono (wp_and (hown hv) hothers) ?_
    rintro _ t ⟨hmine, hrest⟩ u hu
    by_cases hne : u = v
    · exact hne ▸ hmine
    · exact hrest u hu hne
  · refine wp_mono hothers fun _ t hrest u hu => hrest u hu ?_
    rintro rfl
    exact hv hu

theorem ask_agrees (tables : Unicode) (a : Ask) {s : Uploads} (h : InAgreement s) :
    wp backends Together (a.handle tables) (fun _ t => InAgreement t) s := by
  have hown : ∀ u, isSafeID u = true → Agree u s := h
  cases a with
  | chunk r =>
    change wp backends Together (handleChunk r) _ s
    unfold handleChunk
    rw [wp_bind]
    unfold chunkUploadID
    split
    · exact fun o _ => inAgreement_of_own (storeChunk_on r o.fresh)
        (fun hv => storeChunk_agrees r hv (h _ hv)) h
    · exact inAgreement_of_own (storeChunk_on r _) (fun hv => storeChunk_agrees r hv (h _ hv)) h
  | complete r =>
    exact inAgreement_of_own (handleComplete_on tables r)
      (fun hv => handleComplete_agrees tables r (h _ hv)) h
  | status r =>
    exact inAgreement_of_own (handleStatus_on r) (fun hv => handleStatus_agrees r (h _ hv)) h
  | delete r =>
    exact inAgreement_of_own (handleDelete_on r) (fun hv => handleDelete_agrees r (h _ hv)) h

/-! ## The law -/

/-- Requests that are served one after the other, each of them to its end, with choices that `E`
admits. -/
inductive ServedInTurn (tables : Unicode) (E : Uploads → Call → Outcome → Prop) :
    Uploads → List Ask → Uploads → Prop where
  | nil (s : Uploads) : ServedInTurn tables E s [] s
  | cons {s t t' : Uploads} {a : Ask} {asks : List Ask} {resp : Response}
      (h : Ends backends E (a.handle tables) s resp t) (hrest : ServedInTurn tables E t asks t') :
      ServedInTurn tables E s (a :: asks) t'

theorem empty_inAgreement : InAgreement empty := fun _ _ _ => rfl

/-- The tracker does not record a chunk whose object is stored by then. -/
def recordFails : List Outcome := [{}, {}, { fails := true, error := "timeout" }]

end recast_rules.upload_service
