-- The limit on the size of an upload (`handleChunk` in `cmd/upload-service`). A chunk is checked
-- and recorded in two steps, and one that is sent again counts beside the body that it replaces.
import Mathlib.Algebra.BigOperators.Ring.Finset
import Mathlib.Order.Lattice.Nat
import RecastAi.Histories
import RecastAi.UploadOneJob

open call_programs go_text

namespace recast_rules.upload_service

/-! ## Totals -/

/-- The sum of the recorded sizes. -/
def Chunks.sum (m : Chunks) : Int := (m.entries.map (·.2)).sum

/-- The recorded size at an index, and 0 where there is none. -/
def sizeAt (m : Chunks) (k : Nat) : Nat := ((m.lookup k).getD 0).toNat

/-- The indices are among these, and no size is negative. -/
def Sized (indices : Finset Nat) (m : Chunks) : Prop :=
  ∀ k n, m.lookup k = some n → k ∈ indices ∧ 0 ≤ n

theorem sized_empty (indices : Finset Nat) : Sized indices (∅ : Chunks) := by
  intro k n h
  rw [AList.lookup_empty] at h
  cases h

theorem Sized.insert {indices : Finset Nat} {m : Chunks} (h : Sized indices m) {idx : Nat}
    (hidx : idx ∈ indices) (size : Nat) : Sized indices (m.insert idx (size : Int)) := by
  intro k n hk
  by_cases heq : k = idx
  · rw [heq, AList.lookup_insert] at hk
    obtain rfl := Option.some.inj hk
    exact ⟨heq ▸ hidx, Int.natCast_nonneg size⟩
  · rw [AList.lookup_insert_ne heq] at hk
    exact h k n hk

theorem sizeAt_insert (m : Chunks) (idx size k : Nat) :
    sizeAt (m.insert idx (size : Int)) k = if k = idx then size else sizeAt m k := by
  unfold sizeAt
  split
  · rename_i heq
    rw [heq, AList.lookup_insert]
    rfl
  · rename_i hne
    rw [AList.lookup_insert_ne hne]

theorem entry_size {m : Chunks} {indices : Finset Nat} (h : Sized indices m)
    {e : Sigma fun _ : Nat => Int} (he : e ∈ m.entries) :
    e.1 ∈ indices ∧ 0 ≤ e.2 ∧ (sizeAt m e.1 : Int) = e.2 := by
  have hlookup : m.lookup e.1 = some e.2 := AList.mem_lookup_iff.mpr he
  obtain ⟨hmem, hpos⟩ := h e.1 e.2 hlookup
  refine ⟨hmem, hpos, ?_⟩
  unfold sizeAt
  rw [hlookup]
  exact Int.toNat_of_nonneg hpos

/-- The sum, index by index. -/
theorem sum_eq {indices : Finset Nat} {m : Chunks} (h : Sized indices m) :
    m.sum = ((∑ k ∈ indices, sizeAt m k : Nat) : Int) := by
  have hkeys : ∑ k ∈ m.keys.toFinset, sizeAt m k = (m.keys.map (sizeAt m)).sum :=
    List.sum_toFinset (sizeAt m) m.nodupKeys
  have hsub : m.keys.toFinset ⊆ indices := by
    intro k hk
    obtain ⟨e, he, rfl⟩ := List.mem_map.mp (List.mem_toFinset.mp hk)
    exact (entry_size h he).1
  have hzero : ∀ k ∈ indices, k ∉ m.keys.toFinset → sizeAt m k = 0 := by
    intro k _ hk
    have hnone : m.lookup k = none := AList.lookup_eq_none.mpr fun hmem => hk (List.mem_toFinset.mpr hmem)
    unfold sizeAt
    rw [hnone]
    rfl
  rw [← Finset.sum_subset hsub hzero, hkeys, Nat.cast_list_sum]
  unfold Chunks.sum AList.keys List.keys
  rw [List.map_map, List.map_map]
  exact congrArg List.sum (List.map_congr_left fun e he => (entry_size h he).2.2.symm)

theorem wrap64_small {n : Int} (h0 : 0 ≤ n) (h : n < 2 ^ 63) : wrap64 n = n := by
  unfold wrap64
  rw [Int.bmod_eq_of_le] <;> omega

/-- A total that is small does not wrap around. -/
theorem totalSize_eq {indices : Finset Nat} {m : Chunks} (h : Sized indices m)
    (hsmall : m.sum < 2 ^ 63) : m.totalSize = m.sum := by
  have hloop : ∀ (l : List (Sigma fun _ : Nat => Int)) (acc : Int), 0 ≤ acc → (∀ e ∈ l, 0 ≤ e.2) →
      acc + (l.map (·.2)).sum < 2 ^ 63 →
      l.foldl (fun total v => wrap64 (total + v.2)) acc = acc + (l.map (·.2)).sum := by
    intro l
    induction l with
    | nil => simp
    | cons e l ih =>
      intro acc hacc hpos hlt
      have he : 0 ≤ e.2 := hpos e List.mem_cons_self
      have hrest : 0 ≤ (l.map (·.2)).sum := List.sum_nonneg fun n hn => by
        obtain ⟨x, hx, rfl⟩ := List.mem_map.mp hn
        exact hpos x (List.mem_cons_of_mem e hx)
      rw [List.map_cons, List.sum_cons] at hlt ⊢
      rw [List.foldl_cons, wrap64_small (by omega) (by omega),
        ih (acc + e.2) (by omega) (fun x hx => hpos x (List.mem_cons_of_mem e hx)) (by omega)]
      omega
  have hall := hloop m.entries 0 (le_refl 0) (fun e he => (entry_size h he).2.1) (by
    rw [zero_add]
    exact hsmall)
  rw [zero_add] at hall
  exact hall

/-- What a chunk makes of the sum is at most what it adds to it. -/
theorem replaced_le {indices : Finset Nat} {m : Chunks} (h : Sized indices m) {idx : Nat}
    (hidx : idx ∈ indices) (size : Nat) : Chunks.sum (m.insert idx (size : Int)) ≤ m.sum + size := by
  rw [sum_eq (h.insert hidx size), sum_eq h]
  have hsum : ∑ k ∈ indices, sizeAt (m.insert idx (size : Int)) k ≤
      ∑ k ∈ indices, (sizeAt m k + if k = idx then size else 0) := by
    apply Finset.sum_le_sum
    intro k _
    rw [sizeAt_insert]
    split <;> omega
  rw [Finset.sum_add_distrib, Finset.sum_ite_eq_of_mem' indices idx (fun _ => size) hidx] at hsum
  exact_mod_cast hsum

/-! ## Chunks on their way -/

def tooLarge : Response := writeError 413 "upload exceeds 2 GB total limit"

/-- The chunk of a request that is read: its index and its size. -/
def sizedChunk (r : Request) : Option (Nat × Nat) :=
  match requestChunkIdx r, readBody r with
  | some idx, some buf => if buf.length = 0 then none else some (idx, buf.length)
  | _, _ => none

theorem sizedChunk_eq {r : Request} {idx : Nat} {buf : Bytes} (hidx : requestChunkIdx r = some idx)
    (hbuf : readBody r = some buf) (hlen : buf.length ≠ 0) :
    sizedChunk r = some (idx, buf.length) := by
  unfold sizedChunk
  rw [hidx, hbuf]
  exact if_neg hlen

def exceeds (total : Int) (size : Nat) : Bool := wrap64 (total + size) > maxTotalUploadSize

/-- The chunk that has passed the check and is not recorded yet, by the calls of its request. -/
def onItsWay (r : Request) : Log → Option (String × Nat × Nat)
  | ⟨_, .totalSize u, x⟩ :: _ =>
    match (x : Except String Int), sizedChunk r with
    | .ok total, some (idx, size) => if exceeds total size then none else some (u, idx, size)
    | _, _ => none
  | ⟨_, .upload _ _ _, x⟩ :: h =>
    match (x : Except String Unit) with
    | .ok () => onItsWay r h
    | .error _ => none
  | _ => none

theorem onItsWay_checked {r : Request} {idx size : Nat} (hchunk : sizedChunk r = some (idx, size))
    (i : Nat) (u : String) (total : Int) (h : Log) :
    onItsWay r (⟨i, .totalSize u, .ok total⟩ :: h) =
      if exceeds total size then none else some (u, idx, size) := by
  unfold onItsWay
  rw [hchunk]

theorem onItsWay_stored (r : Request) (i : Nat) (key : String) (data : Bytes) (contentType : String)
    (h : Log) : onItsWay r (⟨i, .upload key data contentType, .ok ()⟩ :: h) = onItsWay r h := rfl

/-- The size that request `i` may still record at the index. -/
def sizeOnItsWay (rs : List Request) (s : Snap) (u : String) (k i : Nat) : Nat :=
  match rs[i]?.bind fun r => onItsWay r (s.own i) with
  | some (u', idx, size) => if u' = u && idx = k then size else 0
  | none => 0

/-- The largest body that is recorded at the index or on its way there. -/
def mostAt (rs : List Request) (s : Snap) (u : String) (k : Nat) : Nat :=
  max (sizeAt (s.state.chunks u) k) ((Finset.range rs.length).sup (sizeOnItsWay rs s u k))

/-- All indices that are asked for. -/
def indices (rs : List Request) : Finset Nat := (rs.filterMap requestChunkIdx).toFinset

def most (rs : List Request) (s : Snap) (u : String) : Nat := ∑ k ∈ indices rs, mostAt rs s u k

/-- The same with one more chunk. -/
def mostWith (rs : List Request) (s : Snap) (u : String) (idx size : Nat) : Nat :=
  ∑ k ∈ indices rs, max (mostAt rs s u k) (if k = idx then size else 0)

/-- When a chunk is checked, it is too large in place of the body that it replaces, or there is
room for it beside everything that is recorded and everything that is on its way. -/
def Room (rs : List Request) (s : Snap) (i : Nat) (c : Call) (o : Outcome) : Prop :=
  ∀ u r idx size, c = .totalSize u → o.fails = false → rs[i]? = some r →
    sizedChunk r = some (idx, size) →
      maxTotalUploadSize < Chunks.sum ((s.state.chunks u).insert idx (size : Int)) ∨
        (s.state.chunks u).sum + size ≤ maxTotalUploadSize ∧
          (mostWith rs s u idx size : Int) ≤ maxTotalUploadSize

/-! ## What a request does -/

/-- The calls of a request, by what it was answered. -/
inductive Chunking (r : Request) : Log → Call → Prop where
  | name : Chunking r [] .newString
  | size {h : Log} {u : String} {chunk : Nat × Nat} (hh : ∀ e ∈ h, e.call = .newString)
      (hchunk : sizedChunk r = some chunk) : Chunking r h (.totalSize u)
  | store {h : Log} {i idx size : Nat} {u key contentType : String} {total : Int} {data : Bytes}
      (hchunk : sizedChunk r = some (idx, size)) (hfits : exceeds total size = false) :
      Chunking r (⟨i, .totalSize u, .ok total⟩ :: h) (.upload key data contentType)
  | record {h : Log} {i j idx size : Nat} {u key contentType : String} {total : Int} {data : Bytes}
      (hchunk : sizedChunk r = some (idx, size)) (hfits : exceeds total size = false) :
      Chunking r (⟨i, .upload key data contentType, .ok ()⟩ :: ⟨j, .totalSize u, .ok total⟩ :: h)
        (.recordChunk u idx size)

/-- The check of the request has failed. -/
def Refused (r : Request) (h : Log) : Prop :=
  ∃ i u total h' idx size, h = ⟨i, .totalSize u, .ok total⟩ :: h' ∧
    sizedChunk r = some (idx, size) ∧ exceeds total size = true

def Answered (r : Request) (resp : Response) (h : Log) : Prop := resp = tooLarge ↔ Refused r h

section Follows

variable {i : Nat} {r : Request} {h : Log} {β : Type}
  {Q : β → Log → Prop} {F : Response → Log → Prop} {D : Log → Call → Prop} {status : Nat}
  {msg : String}

theorem refuseIf_follows {c : Bool} {f : Unit → Handler β}
    (hF : c = true → F (writeError status msg) h) (hf : c = false → followsTry i D F Q h (f ())) :
    followsTry i D F Q h (refuseIf c status msg >>= f) := by
  cases c with
  | true => exact hF rfl
  | false => exact hf rfl

theorem orRefuse_follows {α : Type} {x : Option α} {f : α → Handler β}
    (hF : F (writeError status msg) h) (hf : ∀ a, x = some a → followsTry i D F Q h (f a)) :
    followsTry i D F Q h (orRefuse x status msg >>= f) := by
  cases x with
  | none => exact hF
  | some a => exact hf a rfl

theorem not_refused (hnew : ∀ e ∈ h, e.call = .newString) : ¬ Refused r h := by
  rintro ⟨j, u, total, h', idx, size, rfl, -, -⟩
  cases hnew _ List.mem_cons_self

theorem answered_early {resp : Response} (hresp : resp ≠ tooLarge)
    (hnew : ∀ e ∈ h, e.call = .newString) : Answered r resp h :=
  ⟨fun heq => absurd heq hresp, fun hrefused => absurd hrefused (not_refused hnew)⟩

theorem tooLarge_ne {status : Nat} {msg : String} (h : msg ≠ "upload exceeds 2 GB total limit") :
    writeError status msg ≠ tooLarge := by
  intro heq
  unfold writeError tooLarge writeError at heq
  simp only [Response.mk.injEq, Reply.error.injEq] at heq
  exact h heq.2

/-- From the id on. -/
theorem storeChunk_follows (u : String) (hnew : ∀ e ∈ h, e.call = .newString) :
    (storeChunk r u).Follows i (Chunking r) (Answered r) h := by
  unfold storeChunk
  apply follows_finish
  apply refuseIf_follows
  · exact fun _ => answered_early (tooLarge_ne (by decide)) hnew
  intro _
  apply orRefuse_follows
  · exact answered_early (tooLarge_ne (by decide)) hnew
  intro idx hidx
  apply orRefuse_follows
  · exact answered_early (tooLarge_ne (by decide)) hnew
  intro buf hbuf
  apply refuseIf_follows
  · exact fun _ => answered_early (tooLarge_ne (by decide)) hnew
  intro hempty
  have hchunk := sizedChunk_eq hidx hbuf (of_decide_eq_false hempty)
  apply followsTry_bind
  apply followsTry_orGiveUp
  refine ⟨.size hnew hchunk, fun x => ?_⟩
  change Except String Int at x
  cases x with
  | error e =>
    refine ⟨fun heq => absurd heq (tooLarge_ne (by decide)), ?_⟩
    rintro ⟨j, u', total, h', idx', size', heq, -, -⟩
    cases heq
  | ok total =>
    apply refuseIf_follows
    · exact fun hexceeds => ⟨fun _ => ⟨i, u, total, h, idx, buf.length, rfl, hchunk, hexceeds⟩,
        fun _ => rfl⟩
    intro hfits
    apply followsTry_bind
    apply followsTry_orGiveUp
    refine ⟨.store hchunk hfits, fun x => ?_⟩
    change Except String Unit at x
    cases x with
    | error e =>
      refine ⟨fun heq => absurd heq (tooLarge_ne (by decide)), ?_⟩
      rintro ⟨j, u', total, h', idx', size', heq, -, -⟩
      cases heq
    | ok _ =>
      apply followsTry_bind
      apply followsTry_orGiveUp
      refine ⟨.record hchunk hfits, fun x => ?_⟩
      change Except String Unit at x
      cases x with
      | error e =>
        refine ⟨fun heq => absurd heq (tooLarge_ne (by decide)), ?_⟩
        rintro ⟨j, u', total, h', idx', size', heq, -, -⟩
        cases heq
      | ok _ =>
        refine ⟨fun heq => ?_, ?_⟩
        · unfold tooLarge writeError at heq
          simp at heq
        · rintro ⟨j, u', total, h', idx', size', heq, -, -⟩
          cases heq

theorem handleChunk_follows (r : Request) (i : Nat) :
    (handleChunk r).Follows i (Chunking r) (Answered r) [] := by
  unfold handleChunk
  apply follows_bind
  unfold chunkUploadID
  split
  · refine ⟨.name, fun u => storeChunk_follows u ?_⟩
    intro e he
    rw [List.mem_singleton.mp he]
  · exact storeChunk_follows _ fun e he => absurd he List.not_mem_nil

end Follows

/-! ## The invariant -/

/-- All that is recorded or on its way fits. -/
structure Fitting (rs : List Request) (s : Snap) : Prop where
  sized : ∀ u, Sized (indices rs) (s.state.chunks u)
  most : ∀ u, (most rs s u : Int) ≤ maxTotalUploadSize

theorem sizedChunk_index {rs : List Request} {i : Nat} {r : Request} {idx size : Nat}
    (hr : rs[i]? = some r) (h : sizedChunk r = some (idx, size)) :
    idx ∈ indices rs ∧ size ≤ maxChunkSize := by
  unfold sizedChunk at h
  split at h
  · rename_i idx' buf hidx hbuf
    split at h
    · cases h
    · obtain ⟨rfl, rfl⟩ := Prod.mk.inj (Option.some.inj h)
      have hmem := List.mem_of_getElem? hr
      refine ⟨List.mem_toFinset.mpr (List.mem_filterMap.mpr ⟨r, hmem, hidx⟩), ?_⟩
      unfold readBody at hbuf
      exact of_decide_eq_true (Option.filter_eq_some_iff.mp hbuf).2
  · cases h

section Steps

variable {rs : List Request} {s : Snap} {i : Nat} {r : Request} {c : Call} {o : Outcome}

theorem sum_le_most (h : Fitting rs s) (u : String) :
    (s.state.chunks u).sum ≤ most rs s u := by
  rw [sum_eq (h.sized u)]
  exact_mod_cast Finset.sum_le_sum fun k _ => le_max_left (sizeAt (s.state.chunks u) k) _

/-- What is read of the size, and what the check says of it. -/
theorem total_read (h : Fitting rs s) (u : String) :
    (s.state.chunks u).totalSize = (s.state.chunks u).sum ∧
      ∀ size ≤ maxChunkSize, exceeds (s.state.chunks u).totalSize size = true ↔
        maxTotalUploadSize < (s.state.chunks u).sum + size := by
  have hle := (sum_le_most h u).trans (h.most u)
  have hpos : 0 ≤ (s.state.chunks u).sum := by
    rw [sum_eq (h.sized u)]
    exact Int.natCast_nonneg _
  unfold maxTotalUploadSize at hle
  have htotal := totalSize_eq (h.sized u) (by omega)
  refine ⟨htotal, fun size hsize => ?_⟩
  unfold maxChunkSize at hsize
  unfold exceeds
  rw [htotal, wrap64_small (by omega) (by omega)]
  exact decide_eq_true_iff

theorem onItsWay_at (hr : rs[i]? = some r) (u : String) (k : Nat) :
    sizeOnItsWay rs s u k i = match onItsWay r (s.own i) with
      | some (u', idx, size) => if u' = u && idx = k then size else 0
      | none => 0 := by
  unfold sizeOnItsWay
  rw [hr]
  rfl

/-- The largest body at an index after a step, where `b` bounds it before and what the step
leaves of its own request. -/
theorem mostAt_after {u : String} {k b : Nat}
    (hrecorded : sizeAt ((s.after backends i c o).state.chunks u) k ≤ b)
    (hown : sizeOnItsWay rs (s.after backends i c o) u k i ≤ b) (hb : mostAt rs s u k ≤ b) :
    mostAt rs (s.after backends i c o) u k ≤ b := by
  obtain ⟨-, hothers⟩ := max_le_iff.mp hb
  refine max_le hrecorded (Finset.sup_le fun j hj => ?_)
  by_cases hij : j = i
  · exact hij ▸ hown
  · have hsame : sizeOnItsWay rs (s.after backends i c o) u k j = sizeOnItsWay rs s u k j := by
      unfold sizeOnItsWay
      rw [own_after_ne backends s (Ne.symm hij)]
    rw [hsame]
    exact (Finset.le_sup hj).trans hothers

/-- What is recorded or on its way bounds each of the two. -/
theorem le_mostAt (hr : rs[i]? = some r) (u : String) (k : Nat) :
    sizeAt (s.state.chunks u) k ≤ mostAt rs s u k ∧ sizeOnItsWay rs s u k i ≤ mostAt rs s u k := by
  have hi : i ∈ Finset.range rs.length :=
    Finset.mem_range.mpr (List.getElem?_eq_some_iff.mp hr).1
  exact ⟨le_max_left _ _, (Finset.le_sup hi).trans (le_max_right _ _)⟩

theorem most_le_of_mostAt {s' : Snap} (h : ∀ u k, mostAt rs s' u k ≤ mostAt rs s u k) (u : String) :
    most rs s' u ≤ most rs s u :=
  Finset.sum_le_sum fun k _ => h u k

/-- A step that records nothing, and leaves nothing more of its request on the way. -/
theorem fitting_of_less (h : Fitting rs s) (hr : rs[i]? = some r)
    (hchunks : (s.after backends i c o).state.chunks = s.state.chunks)
    (hway : onItsWay r ((s.after backends i c o).own i) = none ∨
      onItsWay r ((s.after backends i c o).own i) = onItsWay r (s.own i)) :
    Fitting rs (s.after backends i c o) := by
  refine ⟨fun u => hchunks ▸ h.sized u, fun u => ?_⟩
  refine (Int.ofNat_le.mpr (most_le_of_mostAt (fun u k => ?_) u)).trans (h.most u)
  obtain ⟨hrecorded, hown⟩ := le_mostAt (s := s) hr u k
  refine mostAt_after (hchunks ▸ hrecorded) ?_ (le_refl _)
  rw [onItsWay_at hr]
  rcases hway with hnone | hsame
  · rw [hnone]
    exact Nat.zero_le _
  · rw [hsame, ← onItsWay_at hr]
    exact hown

/-- A chunk that has passed its check. -/
theorem fitting_of_checked {u : String} {idx size : Nat} (h : Fitting rs s) (hr : rs[i]? = some r)
    (hchunks : (s.after backends i c o).state.chunks = s.state.chunks)
    (hway : onItsWay r ((s.after backends i c o).own i) = some (u, idx, size))
    (hmost : (mostWith rs s u idx size : Int) ≤ maxTotalUploadSize) :
    Fitting rs (s.after backends i c o) := by
  refine ⟨fun u => hchunks ▸ h.sized u, fun u' => ?_⟩
  have hown : ∀ k, sizeOnItsWay rs (s.after backends i c o) u' k i =
      if u = u' && idx = k then size else 0 := by
    intro k
    rw [onItsWay_at hr, hway]
  have hrecorded : ∀ k, sizeAt ((s.after backends i c o).state.chunks u') k ≤ mostAt rs s u' k :=
    fun k => hchunks ▸ (le_mostAt hr u' k).1
  by_cases hu : u = u'
  · subst hu
    refine (Int.ofNat_le.mpr (Finset.sum_le_sum fun k _ => ?_)).trans hmost
    refine mostAt_after ((hrecorded k).trans (le_max_left _ _)) ?_ (le_max_left _ _)
    rw [hown]
    by_cases hk : idx = k
    · simp [hk]
    · simp [hk]
  · refine (Int.ofNat_le.mpr (Finset.sum_le_sum fun k _ => ?_)).trans (h.most u')
    refine mostAt_after (hrecorded k) ?_ (le_refl _)
    rw [hown]
    simp [hu]

/-- A chunk that was on its way is recorded. -/
theorem fitting_of_recorded {u : String} {idx size : Nat} (h : Fitting rs s) (hr : rs[i]? = some r)
    (hidx : idx ∈ indices rs) (hway : onItsWay r (s.own i) = some (u, idx, size))
    (hchunks : (s.after backends i c o).state.chunks =
      setAt s.state.chunks u ((s.state.chunks u).insert idx (size : Int)))
    (hdone : onItsWay r ((s.after backends i c o).own i) = none) :
    Fitting rs (s.after backends i c o) := by
  have hown : ∀ u' k, sizeOnItsWay rs (s.after backends i c o) u' k i = 0 := by
    intro u' k
    rw [onItsWay_at hr, hdone]
  constructor
  · intro u'
    rw [hchunks]
    by_cases hu : u' = u
    · rw [hu, setAt_self]
      exact (h.sized u).insert hidx size
    · rw [setAt_ne _ _ hu]
      exact h.sized u'
  · intro u'
    refine (Int.ofNat_le.mpr (most_le_of_mostAt (fun u' k => ?_) u')).trans (h.most u')
    obtain ⟨hrecorded, hmine⟩ := le_mostAt (s := s) hr u' k
    refine mostAt_after ?_ (hown u' k ▸ Nat.zero_le _) (le_refl _)
    rw [hchunks]
    by_cases hu : u' = u
    · rw [hu, setAt_self, sizeAt_insert]
      rw [hu] at hrecorded hmine
      split
      · rename_i hk
        rw [onItsWay_at hr, hway] at hmine
        simpa [hk] using hmine
      · exact hrecorded
    · rw [setAt_ne _ _ hu]
      exact hrecorded

theorem fitting_step (hr : rs[i]? = some r) (hroom : Room rs s i c o)
    (hd : Chunking r (s.own i) c) (h : Fitting rs s) : Fitting rs (s.after backends i c o) := by
  generalize hlog : s.own i = own at hd
  have hlater := own_after_self backends s i c o
  rw [hlog] at hlater
  cases hd with
  | name =>
    refine fitting_of_less h hr rfl (Or.inl ?_)
    rw [hlater]
    rfl
  | @size _ u chunk hnew hchunk =>
    obtain ⟨idx, size⟩ := chunk
    have hread : (answerCall o s.state (.totalSize u)).1 = reply o (s.state.chunks u).totalSize := rfl
    cases ho : o.fails with
    | true =>
      refine fitting_of_less h hr rfl (Or.inl ?_)
      have hanswer : (backends.answer o s.state (.totalSize u)).1 = Except.error o.error :=
        hread.trans (if_pos ho)
      rw [hlater, hanswer]
      rfl
    | false =>
      have hanswer : (backends.answer o s.state (.totalSize u)).1 =
          Except.ok (s.state.chunks u).totalSize := hread.trans (if_neg (by simp [ho]))
      rw [hanswer] at hlater
      obtain ⟨hidx, hsize⟩ := sizedChunk_index hr hchunk
      have hway : onItsWay r ((s.after backends i (.totalSize u) o).own i) =
          if exceeds (s.state.chunks u).totalSize size then none else some (u, idx, size) := by
        rw [hlater, onItsWay_checked hchunk]
      have hcheck := (total_read h u).2 size hsize
      cases hexceeds : exceeds (s.state.chunks u).totalSize size with
      | true =>
        rw [hexceeds] at hway
        exact fitting_of_less h hr rfl (Or.inl hway)
      | false =>
        rw [hexceeds] at hway hcheck
        rcases hroom u r idx size rfl ho hr hchunk with hlarge | ⟨-, hmost⟩
        · have hreplaced := replaced_le (h.sized u) hidx size
          exact absurd (hcheck.mpr (lt_of_lt_of_le hlarge hreplaced)) (by decide)
        · exact fitting_of_checked h hr rfl hway hmost
  | @store h' j idx size u key contentType total data hchunk hfits =>
    refine fitting_of_less h hr ?_ ?_
    · change (answerCall o s.state (.upload key data contentType)).2.chunks = _
      unfold answerCall
      dsimp only
      split <;> rfl
    · rw [hlater, hlog]
      cases ho : o.fails with
      | true =>
        have hanswer : (backends.answer o s.state (.upload key data contentType)).1 =
            Except.error o.error := if_pos ho
        rw [hanswer]
        exact Or.inl rfl
      | false =>
        have hanswer : (backends.answer o s.state (.upload key data contentType)).1 = Except.ok () :=
          if_neg (by simp [ho])
        rw [hanswer]
        exact Or.inr rfl
  | @record h' j j' idx size u key contentType total data hchunk hfits =>
    have hdone : onItsWay r ((s.after backends i (.recordChunk u idx size) o).own i) = none := by
      rw [hlater]
      rfl
    have hway : onItsWay r (s.own i) = some (u, idx, size) := by
      rw [hlog, onItsWay_stored, onItsWay_checked hchunk]
      exact if_neg (by simp [hfits])
    have hlanded : (s.after backends i (.recordChunk u idx size) o).state =
        if landed o then s.state.record u idx size else s.state := rfl
    cases ho : landed o with
    | true =>
      rw [ho] at hlanded
      exact fitting_of_recorded h hr (sizedChunk_index hr hchunk).1 hway
        (congrArg Uploads.chunks hlanded) hdone
    | false =>
      rw [ho] at hlanded
      exact fitting_of_less h hr (congrArg Uploads.chunks hlanded) (Or.inl hdone)

end Steps

/-! ## The law -/

/-- Many requests for chunks, of one upload or of several, at their start. -/
def startChunks (s : Uploads) (rs : List Request) : Config Call Answer Uploads Response :=
  ⟨⟨s, []⟩, rs.map handleChunk⟩

/-- At this step, a chunk whose check reads the total is refused if and only if the sizes exceed
the limit with the chunk in place of the body that it replaces. -/
def RefusedExactly (rs : List Request) (cfg : Config Call Answer Uploads Response) (i : Nat)
    (o : Outcome) : Prop :=
  ∀ r idx size u k, rs[i]? = some r → sizedChunk r = some (idx, size) →
    cfg.threads[i]? = some (.call (.totalSize u) k) → o.fails = false →
      ((advance backends cfg (i, o)).threads[i]? = some (.done tooLarge) ↔
        maxTotalUploadSize < Chunks.sum ((cfg.shot.state.chunks u).insert idx (size : Int)))

/-- The recorded total is within the limit, and every check up to here was exact. -/
structure QuotaExact (rs : List Request) (s : Uploads) (picks : List (Nat × Outcome)) : Prop where
  bounded : ∀ u, ((schedule backends picks (startChunks s rs)).shot.state.chunks u).sum ≤
    maxTotalUploadSize
  refused : ∀ before i o after, picks = before ++ (i, o) :: after →
    RefusedExactly rs (schedule backends before (startChunks s rs)) i o

/-- What the request of a thread does. -/
def Follower (rs : List Request) (i : Nat) (h : Log) (c : Call) : Prop :=
  ∃ r, rs[i]? = some r ∧ Chunking r h c

def FollowerAnswered (rs : List Request) (i : Nat) (resp : Response) (h : Log) : Prop :=
  ∃ r, rs[i]? = some r ∧ Answered r resp h

theorem startChunks_follow (s : Uploads) (rs : List Request) :
    AllFollow (Follower rs) (FollowerAnswered rs) (startChunks s rs) := by
  apply allFollow_map
  intro i r hr
  have hfollow := handleChunk_follows r i
  refine follows_mono (follows_admits hfollow fun h c hc => ⟨r, hr, hc⟩) fun resp h hresp => ?_
  exact ⟨r, hr, hresp⟩

theorem fitting_start {s : Uploads} (rs : List Request) (hs : ∀ u, s.chunks u = ∅) :
    Fitting rs ⟨s, []⟩ := by
  refine ⟨fun u => (hs u) ▸ sized_empty _, fun u => ?_⟩
  have hzero : most rs ⟨s, []⟩ u = 0 := by
    refine Finset.sum_eq_zero fun k _ => Nat.le_zero.mp (max_le ?_ (Finset.sup_le fun j _ => ?_))
    · change sizeAt (s.chunks u) k ≤ 0
      rw [hs u]
      exact le_refl 0
    · unfold sizeOnItsWay
      cases rs[j]? <;> exact le_refl 0
  rw [hzero]
  decide

/-- What a thread that has read the total does next. -/
theorem checked_next {rs : List Request} {i : Nat}
    {r : Request} {idx size : Nat} {u : String} {total : Int} {p : Upload Response}
    {h : Log} (hr : rs[i]? = some r) (hchunk : sizedChunk r = some (idx, size))
    (hp : p.Follows i (Follower rs i) (FollowerAnswered rs i) (⟨i, .totalSize u, .ok total⟩ :: h)) :
    p = .done tooLarge ↔ exceeds total size = true := by
  constructor
  · rintro rfl
    obtain ⟨r', hr', hanswered⟩ := hp
    obtain rfl := Option.some.inj (hr'.symm.trans hr)
    obtain ⟨j, u', total', h', idx', size', heq, hchunk', hexceeds⟩ := hanswered.mp rfl
    obtain ⟨rfl, rfl⟩ := Prod.mk.inj (Option.some.inj (hchunk'.symm.trans hchunk))
    cases heq
    exact hexceeds
  · intro hexceeds
    have hrefused : Refused r (⟨i, .totalSize u, .ok total⟩ :: h) :=
      ⟨i, u, total, h, idx, size, rfl, hchunk, hexceeds⟩
    cases p with
    | done resp =>
      obtain ⟨r', hr', hanswered⟩ := hp
      obtain rfl := Option.some.inj (hr'.symm.trans hr)
      rw [hanswered.mpr hrefused]
    | call c k =>
      obtain ⟨r', hr', hchunking⟩ := hp.1
      obtain rfl := Option.some.inj (hr'.symm.trans hr)
      -- after the check there is no other call, unless it has passed
      cases hchunking with
      | size hnew _ => cases hnew _ List.mem_cons_self
      | store hchunk' hfits =>
        obtain ⟨rfl, rfl⟩ := Prod.mk.inj (Option.some.inj (hchunk'.symm.trans hchunk))
        rw [hfits] at hexceeds
        cases hexceeds

/-- A check that reads the total refuses what it finds too large. -/
theorem refused_iff_exceeds {rs : List Request} {cfg : Config Call Answer Uploads Response} {i : Nat}
    {r : Request} {idx size : Nat} {u : String} {k : Except String Int → Upload Response}
    {o : Outcome} (hfollow : AllFollow (Follower rs) (FollowerAnswered rs) cfg)
    (hr : rs[i]? = some r) (hchunk : sizedChunk r = some (idx, size))
    (hthread : cfg.threads[i]? = some (.call (.totalSize u) k)) (ho : o.fails = false) :
    (advance backends cfg (i, o)).threads[i]? = some (.done tooLarge) ↔
      exceeds (cfg.shot.state.chunks u).totalSize size = true := by
  have hanswer : (backends.answer o cfg.shot.state (.totalSize u)).1 =
      Except.ok (cfg.shot.state.chunks u).totalSize := if_neg (by simp [ho])
  have hlt : i < cfg.threads.length := (List.getElem?_eq_some_iff.mp hthread).1
  have hnext : (advance backends cfg (i, o)).threads[i]? =
      some (k (backends.answer o cfg.shot.state (.totalSize u)).1) := by
    unfold advance
    dsimp only
    rw [hthread]
    exact List.getElem?_set_self hlt
  have hp := (hfollow i _ hthread).2 (backends.answer o cfg.shot.state (.totalSize u)).1
  rw [hanswer] at hp hnext
  rw [hnext, Option.some.injEq, checked_next hr hchunk hp]

theorem refused_exactly {rs : List Request} {cfg : Config Call Answer Uploads Response} {i : Nat}
    {o : Outcome} (hfollow : AllFollow (Follower rs) (FollowerAnswered rs) cfg)
    (hfit : Fitting rs cfg.shot) (hroom : StepMeets (Room rs) cfg (i, o)) :
    RefusedExactly rs cfg i o := by
  intro r idx size u k hr hchunk hthread ho
  obtain ⟨hidx, hsize⟩ := sizedChunk_index hr hchunk
  have hroom : Room rs cfg.shot i (.totalSize u) o := by simpa only [StepMeets, hthread] using hroom
  rw [refused_iff_exceeds hfollow hr hchunk hthread ho, (total_read hfit u).2 size hsize]
  constructor
  · intro hlarge
    rcases hroom u r idx size rfl ho hr hchunk with hreplaced | ⟨hbeside, -⟩
    · exact hreplaced
    · exact absurd hbeside (not_le.mpr hlarge)
  · exact fun hreplaced => lt_of_lt_of_le hreplaced (replaced_le (hfit.sized u) hidx size)

/-- The limit is kept and the checks are exact in every run in which each chunk that is checked is
too large for its place, or has room beside all that is recorded and on its way. -/
theorem quota_is_exact_while_there_is_room {rs : List Request} {s : Uploads}
    {picks : List (Nat × Outcome)} (hs : ∀ u, s.chunks u = ∅)
    (hroom : Allowed backends (Room rs) picks (startChunks s rs)) : QuotaExact rs s picks := by
  have hstep : ∀ s i c o, Room rs s i c o → Follower rs i (s.own i) c → Fitting rs s →
      Fitting rs (s.after backends i c o) := by
    rintro s i c o hroom ⟨r, hr, hchunking⟩ hfit
    exact fitting_step hr hroom hchunking hfit
  have hfit : ∀ before after, picks = before ++ after →
      Fitting rs (schedule backends before (startChunks s rs)).shot := by
    rintro before after rfl
    exact invariant_along hstep (startChunks_follow s rs) (fitting_start rs hs)
      ((allowed_append _ _ _ _ _).mp hroom).1
  refine ⟨fun u => ?_, ?_⟩
  · have hend := hfit picks [] (List.append_nil picks).symm
    exact (sum_le_most hend u).trans (hend.most u)
  · intro before i o after hpicks
    refine refused_exactly (allFollow_run (startChunks_follow s rs) before)
      (hfit before _ hpicks) ?_
    rw [hpicks] at hroom
    exact ((allowed_append _ _ _ _ _).mp hroom).2.1

/-- There is room for the chunk of one byte. -/
theorem a_small_upload_keeps_its_quota : QuotaExact [chunkRequest "0" [1]] empty
    (List.replicate 3 (0, {})) := by
  apply quota_is_exact_while_there_is_room (fun _ => rfl)
  have hroom : Room [chunkRequest "0" [1]] ⟨empty, []⟩ 0 (.totalSize "u") {} := by
    rintro u r idx size heq - hr hchunk
    obtain rfl := Call.totalSize.inj heq
    obtain rfl := Option.some.inj hr
    have hsize : sizedChunk (chunkRequest "0" [1]) = some (0, 1) := by with_unfolding_all rfl
    obtain ⟨rfl, rfl⟩ := Prod.mk.inj (Option.some.inj (hsize.symm.trans hchunk))
    have hsum : Chunks.sum (empty.chunks "u") = 0 := rfl
    have hmost : mostWith [chunkRequest "0" [1]] ⟨empty, []⟩ "u" 0 1 = 1 := by with_unfolding_all rfl
    right
    constructor
    · change Chunks.sum (empty.chunks "u") + _ ≤ _
      rw [hsum]
      unfold maxTotalUploadSize
      omega
    · rw [hmost]
      unfold maxTotalUploadSize
      omega
  have hother : ∀ s i c o, (∀ u, c ≠ .totalSize u) → Room [chunkRequest "0" [1]] s i c o :=
    fun s i c o hc u _ _ _ heq => absurd heq (hc u)
  with_unfolding_all exact ⟨hroom, hother _ _ _ _ (by simp), hother _ _ _ _ (by simp), trivial⟩

/-! ## Sixty-four chunks, and one of them again -/

theorem chunk_is_checked {r : Request} {u : String} {idx : Nat} {buf : Bytes}
    (hu : requestUploadID r = u) (hsafe : isSafeID u = true) (hne : u ≠ "")
    (hidx : requestChunkIdx r = some idx) (hbuf : readBody r = some buf) (hlen : buf.length ≠ 0) :
    ∃ k, handleChunk r = .call (.totalSize u) k ∧
      ∀ s : Uploads, exceeds (s.chunks u).totalSize buf.length = false →
        run backends (List.replicate 3 {}) (handleChunk r, s) =
          (.done ⟨200, .chunk u idx buf.length⟩,
            (s.put (chunkKey u idx) (some ⟨buf, "application/octet-stream"⟩)).record u idx
              buf.length) := by
  subst hu
  have hid : chunkUploadID r = pure (requestUploadID r) := by
    unfold chunkUploadID
    exact if_neg hne
  have hstore : handleChunk r = (orFail (totalSize (requestUploadID r)) 500
      "failed to read upload state" >>= fun existing =>
        refuseIf (exceeds existing buf.length) 413 "upload exceeds 2 GB total limit" >>= fun _ => do
          orFail (storeUpload (chunkKey (requestUploadID r) idx) buf "application/octet-stream") 500
            "failed to store chunk"
          orFail (recordChunk (requestUploadID r) idx buf.length) 500
            "failed to update upload state"
          return (⟨200, .chunk (requestUploadID r) idx buf.length⟩ : Response)).finish := by
    unfold handleChunk
    rw [hid]
    change storeChunk r (requestUploadID r) = _
    unfold storeChunk
    rw [hsafe, hidx, hbuf]
    change Attempt.finish (refuseIf (decide (buf.length = 0)) 400 "empty chunk" >>= _) = _
    rw [refuseIf_pass (decide_eq_false hlen)]
    rfl
  refine ⟨_, hstore, fun s hfits => ?_⟩
  rw [hstore]
  change run backends (List.replicate 2 {}) (Attempt.finish
    (refuseIf (exceeds (s.chunks (requestUploadID r)).totalSize buf.length) 413
      "upload exceeds 2 GB total limit" >>= _), s) = _
  rw [refuseIf_pass hfits]
  rfl

/-- The first chunks of an upload, each as large as a chunk may be. -/
def filled (n : Nat) : Chunks :=
  (List.range n).foldl (fun m k => m.insert k (maxChunkSize : Int)) ∅

theorem filled_succ (n : Nat) : filled (n + 1) = (filled n).insert n (maxChunkSize : Int) := by
  unfold filled
  rw [List.range_succ, List.foldl_append]
  rfl

theorem filled_sizes (n : Nat) : Sized (Finset.range n) (filled n) ∧
    ∀ k, sizeAt (filled n) k = if k < n then maxChunkSize else 0 := by
  induction n with
  | zero => exact ⟨sized_empty _, fun k => rfl⟩
  | succ n ih =>
    rw [filled_succ]
    have hmore : Sized (Finset.range (n + 1)) (filled n) := fun k m hk =>
      ⟨Finset.range_subset_range.mpr (Nat.le_succ n) (ih.1 k m hk).1, (ih.1 k m hk).2⟩
    refine ⟨hmore.insert (Finset.self_mem_range_succ n) maxChunkSize, fun k => ?_⟩
    rw [sizeAt_insert, ih.2]
    by_cases hk : k = n
    · rw [if_pos hk, if_pos (by omega)]
    · rw [if_neg hk]
      by_cases hlt : k < n
      · rw [if_pos hlt, if_pos (by omega)]
      · rw [if_neg hlt, if_neg (by omega)]

theorem filled_sum (n : Nat) : (filled n).sum = n * (maxChunkSize : Int) := by
  obtain ⟨hsized, hsizes⟩ := filled_sizes n
  rw [sum_eq hsized, Finset.sum_const_nat fun k hk =>
    (hsizes k).trans (if_pos (Finset.mem_range.mp hk)), Finset.card_range]
  exact Nat.cast_mul n maxChunkSize

theorem filled_total {n : Nat} (hn : n ≤ 64) : (filled n).totalSize = n * (maxChunkSize : Int) := by
  rw [totalSize_eq (filled_sizes n).1, filled_sum]
  rw [filled_sum]
  unfold maxChunkSize
  omega

def fullChunk : Bytes := List.replicate maxChunkSize 0

theorem fullChunk_length : fullChunk.length = maxChunkSize := List.length_replicate

theorem fullChunk_nonempty : fullChunk.length ≠ 0 :=
  fullChunk_length ▸ (Nat.two_pow_pos 25).ne'

def fullRequest (k : Nat) : Request := chunkRequest (toString k) fullChunk

/-- The chunks 0 to 63, and the chunk 0 again. -/
def sixtyFourAndOneAgain : List Request :=
  (List.range 64).map fullRequest ++ [fullRequest 0]

theorem fullRequest_idx {k : Nat} (hk : k < 64) : requestChunkIdx (fullRequest k) = some k := by
  have hsmall : ∀ k < 64, requestChunkIdx (chunkRequest (toString k) []) = some k := by
    with_unfolding_all decide +kernel
  rw [← hsmall k hk]
  unfold requestChunkIdx
  rfl

theorem fullRequest_id (k : Nat) : requestUploadID (fullRequest k) = "u" := by
  have hsmall : requestUploadID (chunkRequest "" []) = "u" := by
    with_unfolding_all rfl
  rw [← hsmall]
  unfold requestUploadID
  rfl

theorem u_is_safe : isSafeID "u" = true := by with_unfolding_all rfl

theorem fullRequest_body (k : Nat) : readBody (fullRequest k) = some fullChunk := by
  unfold readBody
  exact Option.filter_some_pos (decide_eq_true (le_of_eq fullChunk_length))

theorem fullRequest_chunk : sizedChunk (fullRequest 0) = some (0, maxChunkSize) := by
  rw [← fullChunk_length]
  exact sizedChunk_eq (fullRequest_idx (by decide)) (fullRequest_body 0) fullChunk_nonempty

def quietPicks (k : Nat) : List (Nat × Outcome) := (List.replicate 3 {}).map fun o => (k, o)

theorem record_chunks (s : Uploads) (u : String) (idx : Nat) (size : Int) :
    (s.record u idx size).chunks u = (s.chunks u).insert idx size := setAt_self _ _ _

/-- The first requests, one after the other. -/
def firstPicks (n : Nat) : List (Nat × Outcome) := (List.range n).flatMap quietPicks

theorem not_exceeded {n : Nat} (hn : n < 64) :
    exceeds (filled n).totalSize fullChunk.length = false := by
  unfold exceeds
  rw [filled_total (Nat.le_of_lt hn), fullChunk_length]
  unfold maxChunkSize maxTotalUploadSize
  rw [wrap64_small (by omega) (by omega)]
  exact decide_eq_false (by omega)

/-- Each of the first requests records its chunk. -/
theorem filled_after {n : Nat} (hn : n ≤ 64) :
    (schedule backends (firstPicks n) (startChunks empty sixtyFourAndOneAgain)).shot.state.chunks "u" =
        filled n ∧
      ∀ i, n ≤ i → (schedule backends (firstPicks n)
        (startChunks empty sixtyFourAndOneAgain)).threads[i]? =
          (sixtyFourAndOneAgain.map handleChunk)[i]? := by
  induction n with
  | zero => exact ⟨rfl, fun i _ => rfl⟩
  | succ n ih =>
    have hlt : n < 64 := hn
    obtain ⟨hchunks, hthreads⟩ := ih (Nat.le_of_lt hlt)
    have hpicks : firstPicks (n + 1) = firstPicks n ++ quietPicks n := by
      unfold firstPicks
      rw [List.range_succ, List.flatMap_append, List.flatMap_singleton]
    rw [hpicks, schedule_append]
    have hrequest : sixtyFourAndOneAgain[n]? = some (fullRequest n) := by
      unfold sixtyFourAndOneAgain
      rw [List.getElem?_append_left (by simpa using hlt), List.getElem?_map, List.getElem?_range hlt]
      rfl
    have hthread := hthreads n (le_refl n)
    rw [List.getElem?_map, hrequest] at hthread
    obtain ⟨hstate, hset⟩ := schedule_alone backends hthread (List.replicate 3 {})
    obtain ⟨-, -, hrun⟩ := chunk_is_checked (fullRequest_id n) u_is_safe (by decide)
      (fullRequest_idx hlt) (fullRequest_body n) fullChunk_nonempty
    rw [hrun _ (hchunks ▸ not_exceeded hlt)] at hstate hset
    unfold quietPicks
    constructor
    · rw [hstate]
      dsimp only
      rw [record_chunks, filled_succ, ← hchunks, fullChunk_length]
      rfl
    · intro i hi
      rw [hset, List.getElem?_set_ne (by omega)]
      exact hthreads i (by omega)

/-- The chunk 0 is refused when it is sent again, though it would replace a body of the same
size and the upload would not grow. -/
theorem a_chunk_that_is_sent_again_is_refused :
    ¬ ∀ (rs : List Request) (s : Uploads) (picks : List (Nat × Outcome)), (∀ u, s.chunks u = ∅) →
      QuotaExact rs s picks := by
  intro h
  have hexact := (h sixtyFourAndOneAgain empty (firstPicks 64 ++ [(64, ({} : Outcome))]) fun _ => rfl).refused
    (firstPicks 64) 64 {} [] rfl
  obtain ⟨hchunks, hthreads⟩ := filled_after (le_refl 64)
  have hrequest : sixtyFourAndOneAgain[64]? = some (fullRequest 0) := rfl
  have hchunk := fullRequest_chunk
  have hthread := hthreads 64 (le_refl 64)
  rw [List.getElem?_map, hrequest] at hthread
  obtain ⟨k, hk, -⟩ := chunk_is_checked (fullRequest_id 0) u_is_safe (by decide)
    (fullRequest_idx (k := 0) (by decide)) (fullRequest_body 0) fullChunk_nonempty
  rw [Option.map_some, hk] at hthread
  have hrefused := refused_iff_exceeds (o := {})
    (allFollow_run (startChunks_follow empty _) (firstPicks 64)) hrequest hchunk hthread rfl
  rw [hexact _ 0 maxChunkSize "u" k hrequest hchunk hthread rfl, hchunks] at hrefused
  have hagain : Chunks.sum ((filled 64).insert 0 (maxChunkSize : Int)) = (filled 64).sum := by
    obtain ⟨hsized, hsizes⟩ := filled_sizes 64
    have hsame : ∀ k ∈ Finset.range 64,
        sizeAt ((filled 64).insert 0 (maxChunkSize : Int)) k = sizeAt (filled 64) k := by
      intro k hk
      rw [sizeAt_insert, hsizes, if_pos (Finset.mem_range.mp hk)]
      exact ite_self maxChunkSize
    have hzero : 0 ∈ Finset.range 64 := Finset.mem_range.mpr (by decide)
    rw [sum_eq (hsized.insert hzero maxChunkSize), sum_eq hsized, Finset.sum_congr rfl hsame]
  have hexceeds : exceeds (filled 64).totalSize maxChunkSize = true := by
    unfold exceeds
    rw [filled_total (le_refl 64)]
    unfold maxChunkSize maxTotalUploadSize
    rw [wrap64_small (by omega) (by omega)]
    exact decide_eq_true (by omega)
  have hmore := hrefused.mpr hexceeds
  rw [hagain, filled_sum] at hmore
  unfold maxChunkSize maxTotalUploadSize at hmore
  omega

end recast_rules.upload_service
