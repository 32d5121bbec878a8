-- One upload from its first chunk to its message: whatever the order of the
-- chunks, however often one is sent again, and whatever other uploads do in
-- between, the final object is the last bodies in the order of their indices.
import RecastAi.UploadRules

open call_programs go_text

namespace recast_rules.upload_service

abbrev Snap := Shot Call Answer Uploads

/-! ## What the client sent -/

/-- The chunk that a request carries. -/
def chunkOf (r : Request) : Option (Nat × Bytes) :=
  match requestChunkIdx r, r.body with
  | some i, some b => some (i, b)
  | _, _ => none

/-- The last body sent for the index. -/
def lastBody (sent : List (Nat × Bytes)) (i : Nat) : Option Bytes := sent.reverse.lookup i

/-- The last bodies, one after the other, in strictly increasing order of all indices. -/
def Assembled (sent : List (Nat × Bytes)) (data : Bytes) : Prop :=
  ∃ order : List Nat, order.Pairwise (· < ·) ∧ (∀ i, i ∈ order ↔ (lastBody sent i).isSome) ∧
    data = order.flatMap fun i => (lastBody sent i).getD []

theorem lastBody_snoc (sent : List (Nat × Bytes)) (i j : Nat) (b : Bytes) :
    lastBody (sent ++ [(j, b)]) i = if i = j then some b else lastBody sent i := by
  unfold lastBody
  rw [List.reverse_append, List.reverse_singleton, List.singleton_append, List.lookup_cons]
  by_cases h : i = j
  · simp [h]
  · have hb : (i == j) = false := by simpa using h
    rw [hb, if_neg h]

/-! ## What belongs to an upload -/

def messagesOf (u : String) (s : Uploads) : List (String × QueueMessage) :=
  s.published.filter fun m => Under u m.2.payload.originalFile

theorem messagesOf_send (u q : String) (m : QueueMessage) (s : Uploads) :
    messagesOf u (s.send q m) =
      messagesOf u s ++ if Under u m.payload.originalFile then [(q, m)] else [] := by
  unfold messagesOf Uploads.send
  rw [List.filter_append]
  by_cases h : Under u m.payload.originalFile
  · simp [h]
  · simp [h]

/-- Nothing of the upload differs. -/
structure Untouched (u : String) (s s' : Uploads) : Prop where
  chunks : s'.chunks u = s.chunks u
  objects : ∀ key, Under u key → s'.objects key = s.objects key
  messages : messagesOf u s' = messagesOf u s

theorem Untouched.refl (u : String) (s : Uploads) : Untouched u s s :=
  ⟨rfl, fun _ _ => rfl, rfl⟩

theorem Untouched.trans {u : String} {s s' s'' : Uploads} (h : Untouched u s s')
    (h' : Untouched u s' s'') : Untouched u s s'' :=
  ⟨h'.chunks.trans h.chunks, fun k hk => (h'.objects k hk).trans (h.objects k hk),
    h'.messages.trans h.messages⟩

theorem setAt_self {β : Type} (f : String → β) (k : String) (v : β) : setAt f k v k = v :=
  if_pos rfl

theorem setAt_ne {β : Type} (f : String → β) {k k' : String} (v : β) (h : k' ≠ k) :
    setAt f k v k' = f k' := if_neg h

theorem untouched_chunks {u v : String} (s : Uploads) (m : Chunks) (h : v ≠ u) :
    Untouched u s { s with chunks := setAt s.chunks v m } :=
  ⟨setAt_ne _ _ (Ne.symm h), fun _ _ => rfl, rfl⟩

theorem untouched_objects {u key : String} (s : Uploads) (x : Option Object) (h : ¬Under u key) :
    Untouched u s (s.put key x) := by
  refine ⟨rfl, fun k hk => setAt_ne _ _ ?_, rfl⟩
  rintro rfl
  exact h hk

/-- A call about one upload leaves every other upload as it is. -/
theorem on_untouched {u v : String} (hu : isSafeID u = true) (hv : v ≠ u) {c : Call}
    (hc : c.On v) (o : Outcome) (s : Uploads) : Untouched u s (answerCall o s c).2 := by
  obtain ⟨hsafe, hc⟩ := hc
  have hout : ∀ key, Under v key → ¬Under u key := fun key h h' =>
    hv (under_unique hsafe hu h h')
  cases c with
  | recordChunk id i n =>
    subst hc
    simp only [answerCall]
    split
    · exact untouched_chunks s _ hv
    · exact Untouched.refl u s
  | purge id =>
    subst hc
    simp only [answerCall]
    split
    · exact untouched_chunks s _ hv
    · exact Untouched.refl u s
  | upload key data ct =>
    simp only [answerCall]
    split
    · exact untouched_objects s _ (hout key hc)
    · exact Untouched.refl u s
  | delete key =>
    simp only [answerCall]
    split
    · exact untouched_objects s _ (hout key hc)
    · exact Untouched.refl u s
  | publish q m =>
    simp only [answerCall]
    split
    · refine ⟨rfl, fun _ _ => rfl, ?_⟩
      rw [messagesOf_send, if_neg (hout _ hc), List.append_nil]
    · exact Untouched.refl u s
  | _ => exact Untouched.refl u s

/-! ## What is stored along the way -/

/-- Tracker and store describe the chunks that were sent, and no message has been
published since. -/
structure Recorded (u : String) (sent : List (Nat × Bytes)) (before : List (String × QueueMessage))
    (s : Uploads) : Prop where
  chunks : ∀ i, (s.chunks u).lookup i = (lastBody sent i).map fun b => (b.length : Int)
  objects : ∀ i, s.objects (chunkKey u i) =
    (lastBody sent i).map fun b => ⟨b, "application/octet-stream"⟩
  messages : messagesOf u s = before

theorem Recorded.keeps {u : String} {sent : List (Nat × Bytes)}
    {before : List (String × QueueMessage)} {s s' : Uploads} (h : Recorded u sent before s)
    (hs : Untouched u s s') : Recorded u sent before s' := by
  refine ⟨?_, ?_, hs.messages.trans h.messages⟩
  · rw [hs.chunks]; exact h.chunks
  · intro i
    rw [hs.objects _ (under_chunkKey u i)]
    exact h.objects i

theorem Recorded.mem_keys {u : String} {sent : List (Nat × Bytes)}
    {before : List (String × QueueMessage)} {s : Uploads} (h : Recorded u sent before s) (i : Nat) :
    i ∈ (s.chunks u).keys ↔ (lastBody sent i).isSome := by
  rw [← AList.mem_keys, ← AList.lookup_isSome, h.chunks, Option.isSome_map]

/-- A chunk that is stored and then recorded is one more chunk that was sent. -/
theorem Recorded.chunk {u : String} {sent : List (Nat × Bytes)}
    {before : List (String × QueueMessage)} {s s' : Uploads} (h : Recorded u sent before s)
    {i : Nat} {b : Bytes}
    (hu : Untouched u (s.put (chunkKey u i) (some ⟨b, "application/octet-stream"⟩)) s') :
    Recorded u (sent ++ [(i, b)]) before (s'.record u i b.length) := by
  refine ⟨?_, ?_, hu.messages.trans h.messages⟩
  · intro j
    have hj' : (s'.record u i b.length).chunks u = (s.chunks u).insert i b.length := by
      rw [← show s'.chunks u = s.chunks u from hu.chunks]
      exact setAt_self _ _ _
    rw [lastBody_snoc, hj']
    by_cases hj : j = i
    · rw [hj, AList.lookup_insert, if_pos rfl]
      rfl
    · rw [AList.lookup_insert_ne hj, if_neg hj]
      exact h.chunks j
  · intro j
    have hj' : (s'.record u i b.length).objects (chunkKey u j) =
        setAt s.objects (chunkKey u i) (some ⟨b, "application/octet-stream"⟩) (chunkKey u j) :=
      hu.objects _ (under_chunkKey u j)
    rw [lastBody_snoc, hj']
    by_cases hj : j = i
    · rw [hj, setAt_self, if_pos rfl]
      rfl
    · rw [setAt_ne _ _ fun he => hj (chunkKey_inj he), if_neg hj]
      exact h.objects j

/-! ## Runs -/

/-- The client of the upload: it sends its chunks one after the other, and then completes. -/
def session (tables : Unicode) : List Request → Request → Upload (List Response)
  | [], c => do
    let last ← handleComplete tables c
    return [last]
  | r :: rs, c => do
    let resp ← handleChunk r
    let resps ← session tables rs c
    return resp :: resps

/-- A request of somebody else. -/
inductive Ask where
  | chunk (r : Request)
  | complete (r : Request)
  | status (r : Request)
  | delete (r : Request)

/-- The upload id that the request gives. It is empty where a new one is made up. -/
def Ask.uploadID : Ask → String
  | .chunk r => requestUploadID r
  | .complete r => requestUploadID r
  | .status r => r.urlParam "id"
  | .delete r => r.urlParam "id"

def Ask.handle (tables : Unicode) : Ask → Upload Response
  | .chunk r => handleChunk r
  | .complete r => handleComplete tables r
  | .status r => handleStatus r
  | .delete r => handleDelete r

def Ask.prog (tables : Unicode) (a : Ask) : Upload (List Response) := do
  let resp ← a.handle tables
  return [resp]

/-- The client, which is thread 0, and the requests of the others at their start. -/
def start (tables : Unicode) (s : Uploads) (rs : List Request) (c : Request) (others : List Ask) :
    Config Call Answer Uploads (List Response) :=
  ⟨⟨s, []⟩, session tables rs c :: others.map (Ask.prog tables)⟩

/-- The calls to the store and to the tracker. -/
def Call.storage : Call → Bool
  | .recordChunk _ _ _ | .totalSize _ | .listChunks _ | .purge _ => true
  | .upload _ _ _ | .download _ | .delete _ => true
  | _ => false

/-- Store and tracker do not fail the client, and an id that is made up for somebody else is
a new one. -/
def Quiet (u : String) (_ : Snap) (i : Nat) (c : Call) (o : Outcome) : Prop :=
  (i = 0 → c.storage = true → o.fails = false) ∧ (i ≠ 0 → c = .newString → o.fresh ≠ u)

/-- The others promise the client to leave its upload alone. -/
def aside (u : String) : Pact Snap where
  guar i s s' := i ≠ 0 → Untouched u s.state s'.state
  rely i s s' := i = 0 → Untouched u s.state s'.state
  rely_refl _ s _ := Untouched.refl u s.state
  rely_trans _ _ _ _ h h' hi := (h hi).trans (h' hi)
  guar_rely _ _ _ _ hij h hi := h fun hj => hij (hi.trans hj.symm)

/-! ## The others -/

theorem safe_on {u v : String} (hu : isSafeID u = true) (hv : v ≠ u) {i : Nat}
    {p : Upload Response} {R : Response → Prop} (hp : p.Only (Call.On v) R) (s : Snap) :
    safe backends (Quiet u) (aside u) i p (fun _ _ => True) s := by
  refine safe_mono (safe_only (J := fun _ => True) hp trivial (fun _ _ _ h => h) ?_)
    fun _ _ _ => trivial
  exact fun s' c o hc _ _ => ⟨fun _ => on_untouched hu hv hc o s'.state, trivial⟩

theorem safe_handleChunk {u : String} (hu : isSafeID u = true) {i : Nat} (hi : i ≠ 0)
    (r : Request) (hr : requestUploadID r ≠ u) (s : Snap) :
    safe backends (Quiet u) (aside u) i (handleChunk r) (fun _ _ => True) s := by
  unfold handleChunk
  refine safe_bind ?_
  unfold chunkUploadID
  split
  · -- the id is made up, and it is a new one
    intro s₁ _ o ho
    refine ⟨fun _ => Untouched.refl u s₁.state, fun s₂ _ => ?_⟩
    exact safe_on hu (ho.2 hi rfl) (storeChunk_on r o.fresh) s₂
  · exact fun s₁ _ => safe_on hu hr (storeChunk_on r _) s₁

theorem safe_handle (tables : Unicode) {u : String} (hu : isSafeID u = true) {i : Nat}
    (hi : i ≠ 0) (a : Ask) (ha : a.uploadID ≠ u) (s : Snap) :
    safe backends (Quiet u) (aside u) i (a.handle tables) (fun _ _ => True) s := by
  cases a with
  | complete r => exact safe_on hu ha (handleComplete_on tables r) s
  | status r => exact safe_on hu ha (handleStatus_on r) s
  | delete r => exact safe_on hu ha (handleDelete_on r) s
  | chunk r => exact safe_handleChunk hu hi r ha s

theorem safe_ask (tables : Unicode) {u : String} (hu : isSafeID u = true) {i : Nat}
    (hi : i ≠ 0) (a : Ask) (ha : a.uploadID ≠ u) (s : Snap) :
    safe backends (Quiet u) (aside u) i (a.prog tables) (fun _ _ => True) s := by
  unfold Ask.prog
  exact safe_bind (safe_mono (safe_handle tables hu hi a ha s) fun _ _ _ => fun _ _ => trivial)

/-! ## The client -/

theorem landed_of {o : Outcome} (h : o.fails = false) : landed o = true := by
  rw [landed, h]
  rfl

section Landed

variable {o : Outcome} (h : o.fails = false) (t : Uploads)
include h

theorem upload_landed (key : String) (data : Bytes) (contentType : String) :
    (answerCall o t (.upload key data contentType)).2 = t.put key (some ⟨data, contentType⟩) :=
  if_pos (landed_of h)

theorem record_landed (id : String) (i : Nat) (n : Int) :
    (answerCall o t (.recordChunk id i n)).2 = t.record id i n := if_pos (landed_of h)

theorem delete_landed (key : String) : (answerCall o t (.delete key)).2 = t.put key none :=
  if_pos (landed_of h)

theorem publish_landed (q : String) (m : QueueMessage) :
    (answerCall o t (.publish q m)).2 = t.send q m := if_pos (landed_of h)

theorem purge_landed (id : String) : (answerCall o t (.purge id)).2 = t.clear id :=
  if_pos (landed_of h)

end Landed

section Client

variable {α : Type} {u : String} {sent : List (Nat × Bytes)}
  {before : List (String × QueueMessage)}

/-- What the others leave alone still holds when a call of the client is answered. -/
theorem client_call {c : Call} {k : Answer c → Upload α} {Q : α → Snap → Prop} {s : Snap}
    {J : Uploads → Prop} (hJ : J s.state) (hkeeps : ∀ t t', J t → Untouched u t t' → J t')
    (h : ∀ (s' : Snap) o, J s'.state → (c.storage = true → o.fails = false) →
      safe backends (Quiet u) (aside u) 0 (k (answerCall o s'.state c).1) Q
        (s'.after backends 0 c o)) :
    safe backends (Quiet u) (aside u) 0 (.call c k) Q s :=
  fun s' hr o ho => ⟨fun h0 => absurd rfl h0, h s' o (hkeeps _ _ hJ (hr rfl)) (ho.1 rfl)⟩

theorem recorded_keeps (t t' : Uploads) (h : Recorded u sent before t) (ht : Untouched u t t') :
    Recorded u sent before t' := h.keeps ht

theorem storeChunk_recorded (r : Request) (s : Snap) (h : Recorded u sent before s.state) :
    safe backends (Quiet u) (aside u) 0 (storeChunk r u)
      (fun resp s' => resp.status = 200 →
        ∃ x, chunkOf r = some x ∧ Recorded u (sent ++ [x]) before s'.state) s := by
  unfold storeChunk
  refine safe_finish (refuseIf_bind (fun _ h => absurd h (by decide)) fun _ => ?_)
  refine orRefuse_bind (fun _ h => absurd h (by decide)) fun i hi => ?_
  refine orRefuse_bind (fun _ h => absurd h (by decide)) fun buf hbuf => ?_
  refine refuseIf_bind (fun _ h => absurd h (by decide)) fun _ => ?_
  refine orFail_bind (fun _ h => absurd h (by decide))
    (client_call h recorded_keeps fun s₁ o₁ h₁ _ => fun s₂ r₂ existing _ => ?_)
  have h₂ : Recorded u sent before s₂.state := h₁.keeps (r₂ rfl)
  refine refuseIf_bind (fun _ h => absurd h (by decide)) fun _ => ?_
  refine orFail_bind (fun _ h => absurd h (by decide))
    (client_call h₂ recorded_keeps fun s₃ o₃ h₃ ho₃ => fun s₄ r₄ _ _ => ?_)
  have hput : Untouched u
      (s₃.state.put (chunkKey u i) (some ⟨buf, "application/octet-stream"⟩)) s₄.state := by
    rw [← upload_landed (ho₃ rfl)]
    exact r₄ rfl
  refine orFail_bind (fun _ h => absurd h (by decide))
    (client_call hput (fun _ _ => Untouched.trans) fun s₅ o₅ h₅ ho₅ => fun s₆ r₆ _ _ => ?_)
  have hrec := h₃.chunk h₅
  have h₆ : Untouched u (s₅.state.record u i buf.length) s₆.state := by
    rw [← record_landed (ho₅ rfl)]
    exact r₆ rfl
  intro s₇ r₇ _
  have hbody : r.body = some buf := (Option.filter_eq_some_iff.mp hbuf).1
  exact ⟨(i, buf), by rw [chunkOf, hi, hbody], hrec.keeps (h₆.trans (r₇ rfl))⟩

/-- What the copy loop writes, when it gets to its end. -/
theorem copyChunks_recorded (l : List Nat) (written : Bytes) (s : Snap)
    (h : Recorded u sent before s.state) (hl : ∀ i ∈ l, (lastBody sent i).isSome) :
    safe backends (Quiet u) (aside u) 0 (copyChunks u written l)
      (fun x s' => Recorded u sent before s'.state ∧
        ∀ data, x = .ok data → data = written ++ l.flatMap fun i => (lastBody sent i).getD []) s := by
  induction l generalizing written s with
  | nil =>
    refine fun s' r' => ⟨h.keeps (r' rfl), fun data hd => ?_⟩
    injection hd with hd
    simp [hd]
  | cons i l ih =>
    obtain ⟨b, hb⟩ := Option.isSome_iff_exists.mp (hl i List.mem_cons_self)
    refine client_call h recorded_keeps fun s₁ o₁ h₁ ho₁ => ?_
    have hanswer : (answerCall o₁ s₁.state (.download (chunkKey u i))).1 = Except.ok b := by
      have hobj := h₁.objects i
      rw [hb] at hobj
      simp only [answerCall, hobj, Option.map_some, reply, ho₁ rfl, Bool.false_eq_true, if_false]
      rfl
    rw [hanswer]
    refine client_call h₁ recorded_keeps fun s₂ o₂ h₂ _ => ?_
    cases hf₂ : o₂.fails
    · simp only [answerCall, reply, hf₂, Bool.false_eq_true, if_false]
      refine client_call h₂ recorded_keeps fun s₃ o₃ h₃ _ => ?_
      cases hf₃ : o₃.fails
      · simp only [answerCall, reply, hf₃, Bool.false_eq_true, if_false]
        refine safe_mono (ih (written ++ b) _ h₃ fun j hj => hl j (List.mem_cons_of_mem _ hj)) ?_
        rintro x s' ⟨hs', hx⟩
        refine ⟨hs', fun data hd => ?_⟩
        rw [hx data hd, List.flatMap_cons, hb, List.append_assoc]
        rfl
      · simp only [answerCall, reply, hf₃, if_true]
        exact fun s' r' => ⟨h₃.keeps (r' rfl), fun _ hd => nomatch hd⟩
    · simp only [answerCall, reply, hf₂, if_true]
      exact fun s' r' => ⟨h₂.keeps (r' rfl), fun _ hd => nomatch hd⟩

/-- The listing gives each index once, in some order. -/
theorem list_recorded {s : Uploads} (h : Recorded u sent before s) (order : List Nat) :
    ((s.chunks u).list order).Nodup ∧
      ∀ i, i ∈ (s.chunks u).list order ↔ (lastBody sent i).isSome := by
  unfold Chunks.list
  split
  · rename_i hp
    rw [List.isPerm_iff] at hp
    exact ⟨hp.nodup_iff.mpr (s.chunks u).keys_nodup, fun i => hp.mem_iff.trans (h.mem_keys i)⟩
  · exact ⟨(s.chunks u).keys_nodup, h.mem_keys⟩

theorem assembled_sorted {l : List Nat} (hn : l.Nodup)
    (hl : ∀ i, i ∈ l ↔ (lastBody sent i).isSome) :
    Assembled sent ((sortInts l).flatMap fun i => (lastBody sent i).getD []) := by
  obtain ⟨hs, hp⟩ := sortInts_spec l
  refine ⟨sortInts l, ?_, fun i => hp.mem_iff.trans (hl i), rfl⟩
  have hne : (sortInts l).Pairwise (· ≠ ·) := hp.nodup_iff.mpr hn
  exact (hs.and hne).imp fun ⟨h1, h2⟩ => by omega

theorem assemble_recorded (ext : String) {l : List Nat} (hn : l.Nodup)
    (hl : ∀ i, i ∈ l ↔ (lastBody sent i).isSome) (s : Snap) (h : Recorded u sent before s.state) :
    tries backends (Quiet u) (aside u) 0 (assemble u ext l) (fun resp _ => resp.status ≠ 202)
      (fun x s' => Recorded u sent before s'.state ∧ Assembled sent x.1) s := by
  unfold assemble
  refine orFail_bind (fun _ => by decide)
    (client_call h recorded_keeps fun s₁ o₁ h₁ _ => fun s₂ r₂ total _ => ?_)
  have h₂ : Recorded u sent before s₂.state := h₁.keeps (r₂ rfl)
  refine refuseIf_bind (fun _ => by decide) fun _ => ?_
  refine orFail_bind (fun _ => by decide)
    (client_call h₂ recorded_keeps fun s₃ o₃ h₃ _ => fun s₄ r₄ _ _ => ?_)
  have h₄ : Recorded u sent before s₄.state := h₃.keeps (r₄ rfl)
  refine orFail_bind (fun _ => by decide) (safe_mono (copyChunks_recorded (sortInts l) [] s₄ h₄
    fun i hi => (hl i).mp ((sortInts_spec l).2.mem_iff.mp hi)) ?_)
  rintro x s₅ ⟨h₅, hx⟩ data hd
  have hdata : Assembled sent data := by
    rw [hx data hd, List.nil_append]
    exact assembled_sorted hn hl
  refine orFail_bind (fun _ => by decide)
    (client_call h₅ recorded_keeps fun s₆ o₆ h₆ _ => fun s₇ r₇ _ _ => ?_)
  have h₇ : Recorded u sent before s₇.state := h₆.keeps (r₇ rfl)
  refine orFail_bind (fun _ => by decide)
    (client_call h₇ recorded_keeps fun s₈ o₈ h₈ _ => fun s₉ r₉ probe _ => ?_)
  refine refuseIf_bind (fun _ => by decide) fun _ => ?_
  refine refuseIf_bind (fun _ => by decide) fun _ => ?_
  exact fun s' r' => ⟨(h₈.keeps (r₉ rfl)).keeps (r' rfl), hdata⟩

/-- The final object is stored, and of the chunk objects only those of `left` may still be
there. -/
structure Cleaning (u key : String) (obj : Object) (before : List (String × QueueMessage))
    (left : List Nat) (s : Uploads) : Prop where
  under : Under u key
  not_chunk : ∀ i, chunkKey u i ≠ key
  final : s.objects key = some obj
  gone : ∀ i, i ∉ left → s.objects (chunkKey u i) = none
  messages : messagesOf u s = before

variable {key : String} {obj : Object}

theorem Cleaning.keeps {left : List Nat} {t t' : Uploads} (h : Cleaning u key obj before left t)
    (ht : Untouched u t t') : Cleaning u key obj before left t' :=
  ⟨h.under, h.not_chunk, (ht.objects key h.under).trans h.final,
    fun i hi => (ht.objects _ (under_chunkKey u i)).trans (h.gone i hi),
    ht.messages.trans h.messages⟩

theorem Cleaning.delete {i : Nat} {left : List Nat} {t : Uploads}
    (h : Cleaning u key obj before (i :: left) t) :
    Cleaning u key obj before left (t.put (chunkKey u i) none) := by
  refine ⟨h.under, h.not_chunk, (setAt_ne _ _ (Ne.symm (h.not_chunk i))).trans h.final, ?_,
    h.messages⟩
  intro j hj
  by_cases hji : j = i
  · rw [hji]
    exact setAt_self _ _ _
  · refine (setAt_ne _ _ fun he => hji (chunkKey_inj he)).trans (h.gone j ?_)
    simp [hji, hj]

theorem deleteChunks_cleans (left : List Nat) (s : Snap)
    (h : Cleaning u key obj before left s.state) :
    safe backends (Quiet u) (aside u) 0 (deleteChunks u left)
      (fun _ s' => Cleaning u key obj before [] s'.state) s := by
  induction left generalizing s with
  | nil => exact fun s' r' => h.keeps (r' rfl)
  | cons i left ih =>
    refine client_call h (fun _ _ => Cleaning.keeps) fun s₁ o₁ h₁ ho₁ => ih _ ?_
    have h₂ := h₁.delete
    rw [← delete_landed (ho₁ rfl)] at h₂
    exact h₂

/-- What is there once the upload is cleared away. -/
structure Cleaned (u key : String) (obj : Object) (before : List (String × QueueMessage))
    (s : Uploads) : Prop extends Cleaning u key obj before [] s where
  tracker : s.chunks u = ∅

theorem Cleaned.keeps {t t' : Uploads} (h : Cleaned u key obj before t)
    (ht : Untouched u t t') : Cleaned u key obj before t' :=
  ⟨h.toCleaning.keeps ht, ht.chunks.trans h.tracker⟩

theorem Cleaned.send {t : Uploads} (h : Cleaned u key obj before t) (q : String)
    {m : QueueMessage} (hm : m.payload.originalFile = key) :
    Cleaned u key obj (before ++ [(q, m)]) (t.send q m) := by
  refine ⟨⟨h.under, h.not_chunk, h.final, h.gone, ?_⟩, h.tracker⟩
  rw [messagesOf_send, h.messages, if_pos (hm ▸ h.under)]

theorem cleanUp_cleans (left : List Nat) (s : Snap)
    (h : Cleaning u key obj before left s.state) :
    safe backends (Quiet u) (aside u) 0 (cleanUp u left)
      (fun _ s' => Cleaned u key obj before s'.state) s := by
  unfold cleanUp
  refine safe_bind (safe_mono (deleteChunks_cleans left s h) fun _ s₁ h₁ => ?_)
  refine client_call h₁ (fun _ _ => Cleaning.keeps) fun s₂ o₂ h₂ ho₂ => fun s₃ r₃ => ?_
  have hc : Cleaned u key obj before (s₂.state.clear u) :=
    ⟨⟨h₂.under, h₂.not_chunk, h₂.final, h₂.gone, h₂.messages⟩, setAt_self _ _ _⟩
  rw [← purge_landed (ho₂ rfl)] at hc
  exact hc.keeps (r₃ rfl)

theorem storeFinal_cleaning {l : List Nat} (hl : ∀ i, i ∈ l ↔ (lastBody sent i).isSome)
    (hkey : Under u key) (hne : ∀ i, chunkKey u i ≠ key) (data : Bytes) (contentType : String)
    (s : Snap) (h : Recorded u sent before s.state) :
    tries backends (Quiet u) (aside u) 0 (storeFinal key data contentType)
      (fun resp _ => resp.status ≠ 202)
      (fun _ s' => Cleaning u key ⟨data, contentType⟩ before l s'.state) s := by
  unfold storeFinal
  refine orFail_bind (fun _ => by decide)
    (client_call h recorded_keeps fun s₁ o₁ h₁ _ => fun s₂ r₂ _ _ => ?_)
  have h₂ : Recorded u sent before s₂.state := h₁.keeps (r₂ rfl)
  refine orFail_bind (fun _ => by decide)
    (client_call h₂ recorded_keeps fun s₃ o₃ h₃ _ => fun s₄ r₄ _ _ => ?_)
  have h₄ : Recorded u sent before s₄.state := h₃.keeps (r₄ rfl)
  refine tries_orGiveUp (client_call h₄ recorded_keeps fun s₅ o₅ h₅ ho₅ => fun s₆ r₆ => ?_)
  have hc : Cleaning u key ⟨data, contentType⟩ before l
      (s₅.state.put key (some ⟨data, contentType⟩)) := by
    refine ⟨hkey, hne, setAt_self _ _ _, fun i hi => ?_, h₅.messages⟩
    refine (setAt_ne _ _ (hne i)).trans ((h₅.objects i).trans ?_)
    rw [hl, Bool.not_eq_true, Option.isSome_eq_false_iff, Option.isNone_iff_eq_none] at hi
    rw [hi]
    rfl
  rw [← upload_landed (ho₅ rfl)] at hc
  have h₆ := hc.keeps (r₆ rfl)
  simp only [answerCall, reply, ho₅ rfl, Bool.false_eq_true, if_false]
  exact h₆

/-- The upload is done: its final object holds the last bodies in order, its chunks are gone
from store and tracker, and it has one message more, which names the object and the user. -/
def Completed (tables : Unicode) (u : String) (sent : List (Nat × Bytes)) (c : Request)
    (before : List (String × QueueMessage)) (s : Uploads) : Prop :=
  ∃ req userID contentType data msg, c.json = some req ∧ c.userID = some userID ∧
    Assembled sent data ∧
    s.objects s!"uploads/{u}/final{lowerExt tables req.filename}" = some ⟨data, contentType⟩ ∧
    (∀ i, s.objects (chunkKey u i) = none) ∧ s.chunks u = ∅ ∧
    messagesOf u s = before ++ [("ingestion.queue", msg)] ∧
    msg.payload.originalFile = s!"uploads/{u}/final{lowerExt tables req.filename}" ∧
    msg.payload.userID = userID

theorem reqTraceID_keeps {J : Uploads → Prop} (hkeeps : ∀ t t', J t → Untouched u t t' → J t')
    (r : Request) (s : Snap) (h : J s.state) :
    safe backends (Quiet u) (aside u) 0 (reqTraceID r) (fun _ s' => J s'.state) s := by
  unfold reqTraceID
  split
  · exact fun s' r' => hkeeps _ _ h (r' rfl)
  split
  · exact fun s' r' => hkeeps _ _ h (r' rfl)
  · exact client_call h hkeeps fun s₁ o₁ h₁ _ => fun s₂ r₂ => hkeeps _ _ h₁ (r₂ rfl)

theorem enqueue_publishes (r : Request) (c : Completion) (probe : ProbeResult) (s : Snap)
    (h : Cleaned u key obj before s.state) :
    tries backends (Quiet u) (aside u) 0 (enqueue r c key probe)
      (fun resp _ => resp.status ≠ 202)
      (fun _ s' => ∃ msg, Cleaned u key obj (before ++ [(ingestionQueue, msg)]) s'.state ∧
        msg.payload.originalFile = key ∧ msg.payload.userID = c.userID) s := by
  have hkeeps : ∀ t t', Cleaned u key obj before t → Untouched u t t' →
      Cleaned u key obj before t' := fun _ _ => Cleaned.keeps
  unfold enqueue
  refine tries_bind (tries_lift
    (client_call h hkeeps fun s₁ o₁ h₁ _ => fun s₂ r₂ => ?_))
  have h₂ : Cleaned u key obj before s₂.state := h₁.keeps (r₂ rfl)
  refine tries_bind (tries_lift (safe_mono (reqTraceID_keeps hkeeps r s₂ h₂) fun traceID s₃ h₃ => ?_))
  refine tries_bind (tries_lift
    (client_call h₃ hkeeps fun s₄ o₄ h₄ _ => fun s₅ r₅ => ?_))
  have h₅ : Cleaned u key obj before s₅.state := h₄.keeps (r₅ rfl)
  refine orFail_bind (fun _ => by decide)
    (client_call h₅ hkeeps fun s₆ o₆ h₆ _ => fun s₇ r₇ _ ha => fun s₈ r₈ => ?_)
  have hf : o₆.fails = false := by
    cases hf : o₆.fails
    · rfl
    · simp only [answerCall, reply, hf, if_true] at ha
      exact nomatch (show (Except.error o₆.error : Except String Unit) = .ok _ from ha)
  have hs := h₆.send ingestionQueue
    (rfl : (ingestionMessage c key o₁.fresh traceID o₄.fresh).payload.originalFile = key)
  rw [← publish_landed hf] at hs
  exact ⟨_, (hs.keeps (r₇ rfl)).keeps (r₈ rfl), rfl, rfl⟩

theorem listedChunks_recorded (s : Snap) (h : Recorded u sent before s.state) :
    tries backends (Quiet u) (aside u) 0 (listedChunks u) (fun resp _ => resp.status ≠ 202)
      (fun l s' => l.Nodup ∧ (∀ i, i ∈ l ↔ (lastBody sent i).isSome) ∧
        Recorded u sent before s'.state) s := by
  unfold listedChunks
  refine orFail_bind (fun _ => by decide)
    (client_call h recorded_keeps fun s₁ o₁ h₁ ho₁ => fun s₂ r₂ l hl => ?_)
  simp only [answerCall, reply, ho₁ rfl, Bool.false_eq_true, if_false] at hl
  have hl' : (s₁.state.chunks u).list o₁.order = l := Except.ok.inj hl
  refine refuseIf_bind (fun _ => by decide) fun _ => fun s₃ r₃ => ?_
  rw [← hl']
  obtain ⟨hn, hm⟩ := list_recorded h₁ o₁.order
  exact ⟨hn, hm, (h₁.keeps (r₂ rfl)).keeps (r₃ rfl)⟩

theorem handleComplete_completes (tables : Unicode) (c : Request) (hc : requestUploadID c = u)
    (s : Snap) (h : Recorded u sent before s.state) :
    safe backends (Quiet u) (aside u) 0 (handleComplete tables c)
      (fun resp s' => resp.status = 202 → Completed tables u sent c before s'.state) s := by
  unfold handleComplete
  refine safe_finish ?_
  cases hacc : acceptComplete tables c with
  | error e => exact fun s' _ he => absurd he (acceptComplete_error hacc)
  | ok comp =>
    have ha := acceptComplete_ok hacc
    have hid : comp.uploadID = u := ha.uploadID.trans hc
    have hkey := finalKeyOf_path ha
    have hunder := under_finalKey ha
    have hne := chunkKey_ne_finalKey ha
    rw [hid] at hunder hne
    rw [hid, ha.ext_eq] at hkey
    change tries _ _ _ 0 (listedChunks comp.uploadID >>= _) _ _ s
    rw [hid]
    have hno : ∀ (e : Response) (t : Snap), e.status ≠ 202 → e.status = 202 →
        Completed tables u sent c before t.state := fun e t he h' => absurd h' he
    refine tries_bind (tries_mono (listedChunks_recorded s h) hno ?_)
    rintro l s₁ ⟨hn, hl, h₁⟩
    refine tries_bind (tries_mono (assemble_recorded comp.ext hn hl s₁ h₁) hno ?_)
    rintro ⟨data, probe⟩ s₂ ⟨h₂, hdata⟩
    refine tries_bind (tries_mono
      (storeFinal_cleaning hl hunder hne data comp.contentType s₂ h₂) hno fun _ s₃ h₃ => ?_)
    refine tries_bind (tries_lift (safe_mono (cleanUp_cleans l s₃ h₃) fun _ s₄ h₄ => ?_))
    refine tries_mono (enqueue_publishes c comp probe s₄ h₄) hno ?_
    rintro resp s₅ ⟨msg, h₅, hfile, huser⟩ _
    rw [hkey] at h₅ hfile
    exact ⟨comp.req, comp.userID, comp.contentType, data, msg, ha.json, ha.userID, hdata,
      h₅.final, fun i => h₅.gone i List.not_mem_nil, h₅.tracker, h₅.messages, hfile, huser⟩

end Client

/-! ## The law -/

/-- The chunk requests were all answered 200 for the upload, and the request to complete was
answered 202. -/
def AllAccepted (u : String) (resps : List Response) : Prop :=
  ∃ stored last, resps = stored ++ [last] ∧
    (∀ resp ∈ stored, resp.status = 200 ∧ ∃ i n, resp.body = .chunk u i n) ∧ last.status = 202

theorem allAccepted_cons {u : String} {resp : Response} {resps : List Response}
    (hne : resps ≠ []) (h : AllAccepted u (resp :: resps)) :
    (resp.status = 200 ∧ ∃ i n, resp.body = .chunk u i n) ∧ AllAccepted u resps := by
  obtain ⟨stored, last, he, hs, hl⟩ := h
  cases stored with
  | nil =>
    injection he with _ he
    exact absurd he hne
  | cons x stored =>
    injection he with h1 h2
    subst h1
    exact ⟨hs resp List.mem_cons_self, stored, last, h2,
      fun y hy => hs y (List.mem_cons_of_mem _ hy), hl⟩

theorem handleChunk_recorded {u : String} {sent : List (Nat × Bytes)}
    {before : List (String × QueueMessage)} (r : Request) (s : Snap)
    (h : Recorded u sent before s.state) :
    safe backends (Quiet u) (aside u) 0 (handleChunk r)
      (fun resp s' => (resp.status = 200 ∧ ∃ i n, resp.body = .chunk u i n) →
        ∃ x, chunkOf r = some x ∧ Recorded u (sent ++ [x]) before s'.state) s := by
  have hid : ∀ (v : String) (t : Snap), Recorded u sent before t.state →
      safe backends (Quiet u) (aside u) 0 (storeChunk r v)
        (fun resp s' => (resp.status = 200 ∧ ∃ i n, resp.body = .chunk u i n) →
          ∃ x, chunkOf r = some x ∧ Recorded u (sent ++ [x]) before s'.state) t := by
    intro v t ht
    by_cases hv : v = u
    · subst hv
      exact safe_mono (storeChunk_recorded r t ht) fun _ _ hx hr => hx hr.1
    · -- the answer names another upload
      refine safe_mono (safe_only (J := fun _ => True) (storeChunk_on r v) trivial
        (fun _ _ _ h => h) fun _ _ _ _ _ _ => ⟨fun h0 => absurd rfl h0, trivial⟩) ?_
      rintro resp t' ⟨hn, -⟩ ⟨-, i, n, hb⟩
      exact absurd (hn u i n hb).symm hv
  unfold handleChunk chunkUploadID
  refine safe_bind ?_
  split
  · exact client_call h recorded_keeps fun s₁ o₁ h₁ _ => fun s₂ r₂ =>
      hid _ s₂ (h₁.keeps (r₂ rfl))
  · exact fun s₁ r₁ => hid _ s₁ (h.keeps (r₁ rfl))

/-- The answers to the client from here on. -/
def Served (tables : Unicode) (u : String) (sent : List (Nat × Bytes)) (c : Request)
    (before : List (String × QueueMessage)) (resps : List Response) (s : Snap) : Prop :=
  resps ≠ [] ∧ (AllAccepted u resps → Completed tables u sent c before s.state)

theorem completed_keeps {tables : Unicode} {u : String} {sent : List (Nat × Bytes)} {c : Request}
    {before : List (String × QueueMessage)} {t t' : Uploads}
    (h : Completed tables u sent c before t) (ht : Untouched u t t') :
    Completed tables u sent c before t' := by
  obtain ⟨req, userID, contentType, data, msg, hreq, huser, hdata, hfinal, hgone, htracker,
    hmsg, hfile, hid⟩ := h
  exact ⟨req, userID, contentType, data, msg, hreq, huser, hdata,
    (ht.objects _ (under_finalPath u _)).trans hfinal,
    fun i => (ht.objects _ (under_chunkKey u i)).trans (hgone i),
    ht.chunks.trans htracker, ht.messages.trans hmsg, hfile, hid⟩

theorem session_nonempty (tables : Unicode) (rs : List Request) (c : Request) :
    (session tables rs c).Only (fun _ => True) fun resps => resps ≠ [] := by
  cases rs with
  | nil => exact only_bind (only_any _) fun last _ => List.cons_ne_nil last []
  | cons r rs =>
    exact only_bind (only_any _) fun resp _ => only_bind (only_any _) fun resps _ =>
      List.cons_ne_nil resp resps

theorem session_completes (tables : Unicode) {u : String} (rs : List Request) (c : Request)
    (hc : requestUploadID c = u) {before : List (String × QueueMessage)}
    (sent : List (Nat × Bytes)) (s : Snap) (h : Recorded u sent before s.state) :
    safe backends (Quiet u) (aside u) 0 (session tables rs c)
      (Served tables u (sent ++ rs.filterMap chunkOf) c before) s := by
  induction rs generalizing sent s with
  | nil =>
    unfold session
    refine safe_bind (safe_mono (handleComplete_completes tables c hc s h) fun resp s₁ h₁ => ?_)
    intro s₂ r₂
    refine ⟨List.cons_ne_nil _ _, ?_⟩
    rintro ⟨stored, last, he, -, hl⟩
    have hlast : resp = last := by
      have := congrArg List.getLast? he
      simpa using this
    rw [List.filterMap_nil, List.append_nil]
    exact completed_keeps (h₁ (hlast ▸ hl)) (r₂ rfl)
  | cons r rs ih =>
    unfold session
    refine safe_bind (safe_mono (handleChunk_recorded r s h) fun resp s₁ h₁ => safe_bind ?_)
    by_cases hgood : resp.status = 200 ∧ ∃ i n, resp.body = .chunk u i n
    · obtain ⟨x, hx, h₂⟩ := h₁ hgood
      refine safe_mono (ih (sent ++ [x]) s₁ h₂) fun resps s₂ h₃ => fun s₃ r₃ => ?_
      refine ⟨List.cons_ne_nil _ _, fun hall => ?_⟩
      have hdone := h₃.2 (allAccepted_cons h₃.1 hall).2
      rw [List.filterMap_cons_some hx]
      rw [List.append_assoc, List.singleton_append] at hdone
      exact completed_keeps hdone (r₃ rfl)
    · -- this chunk was refused, so not all were accepted
      refine safe_mono (safe_only (J := fun _ => True) (session_nonempty tables rs c) trivial
        (fun _ _ _ h => h) fun _ _ _ _ _ _ => ⟨fun h0 => absurd rfl h0, trivial⟩) ?_
      rintro resps s₂ ⟨hne, -⟩ s₃ r₃
      exact ⟨List.cons_ne_nil _ _, fun hall => absurd (allAccepted_cons hne hall).1 hgood⟩

/-- Nothing is known of the upload yet. -/
structure Fresh (u : String) (s : Uploads) : Prop where
  chunks : s.chunks u = ∅
  objects : ∀ i, s.objects (chunkKey u i) = none

/-- Tables that know the ASCII letters. -/
def ascii : Unicode := ⟨Char.toLower, fun s => s⟩

def chunkRequest (idx : String) (body : Bytes) : Request where
  query k := if k = "upload_id" then "u" else if k = "chunk_idx" then idx else ""
  header _ := ""
  urlParam _ := ""
  requestID := ""
  body := some body
  json := none
  userID := some "ada"

def completeRequest : Request where
  query k := if k = "upload_id" then "u" else ""
  header k := if k = "X-Request-ID" then "trace" else ""
  urlParam _ := ""
  requestID := ""
  body := none
  json := some ⟨"talk.mp4", "v", "", ""⟩
  userID := some "ada"

def empty : Uploads := ⟨fun _ => ∅, fun _ => none, []⟩

/-- A client that runs alone, with nothing failing. -/
theorem quiet_alone (u : String) (n : Nat) (cfg : Config Call Answer Uploads (List Response)) :
    Allowed backends (Quiet u) (List.replicate n (0, {})) cfg := by
  induction n generalizing cfg with
  | zero => trivial
  | succ n ih =>
    refine ⟨?_, ih _⟩
    unfold StepMeets
    split
    · exact ⟨fun _ _ => rfl, fun h => absurd rfl h⟩
    · trivial

end recast_rules.upload_service
