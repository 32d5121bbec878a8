-- What users can do to each other's uploads. An upload belongs to nobody:
-- whoever names its id can read it, extend it and delete it. What is not
-- named stays out of reach: it is not changed, and no answer depends on it.
import RecastAi.UploadRetry

open call_programs go_text

namespace recast_rules.upload_service

/-! ## Two users

The requests of one user come first, then those of the other. `theirs` are the ids of the uploads
and jobs of the other user. -/

def Ask.request : Ask → Request
  | .chunk r => r
  | .complete r => r
  | .status r => r
  | .delete r => r

/-- The requests of both users at their start. -/
def startBoth (tables : Unicode) (s : Uploads) (ours others : List Ask) :
    Config Call Answer Uploads Response :=
  ⟨⟨s, []⟩, (ours ++ others).map (Ask.handle tables)⟩

/-- The states differ in the uploads of the other user at most: in what is recorded for their
ids and in the objects in their directories. -/
structure Alike (theirs : String → Prop) (s s' : Uploads) : Prop where
  chunks : ∀ id, ¬theirs id → s.chunks id = s'.chunks id
  objects : ∀ key, (∀ id, theirs id → isSafeID id = true → ¬Under id key) →
    s.objects key = s'.objects key

section Alike

variable {theirs : String → Prop} {s s' s'' : Uploads}

theorem Alike.refl (theirs : String → Prop) (s : Uploads) : Alike theirs s s :=
  ⟨fun _ _ => rfl, fun _ _ => rfl⟩

theorem Alike.symm (h : Alike theirs s s') : Alike theirs s' s :=
  ⟨fun id hid => (h.chunks id hid).symm, fun key hkey => (h.objects key hkey).symm⟩

theorem Alike.trans (h : Alike theirs s s') (h' : Alike theirs s' s'') : Alike theirs s s'' :=
  ⟨fun id hid => (h.chunks id hid).trans (h'.chunks id hid),
    fun key hkey => (h.objects key hkey).trans (h'.objects key hkey)⟩

theorem Alike.setChunks (h : Alike theirs s s') (id : String) (m : Chunks) :
    Alike theirs { s with chunks := setAt s.chunks id m }
      { s' with chunks := setAt s'.chunks id m } := by
  refine ⟨fun id' hid => ?_, h.objects⟩
  change setAt s.chunks id m id' = setAt s'.chunks id m id'
  unfold setAt
  rw [h.chunks id' hid]

theorem Alike.put (h : Alike theirs s s') (key : String) (x : Option Object) :
    Alike theirs (s.put key x) (s'.put key x) := by
  refine ⟨h.chunks, fun key' hkey => ?_⟩
  change setAt s.objects key x key' = setAt s'.objects key x key'
  unfold setAt
  rw [h.objects key' hkey]

/-- Two calls that land, or that both have no effect. -/
theorem Alike.ite {t t' : Uploads} {p : Prop} [Decidable p] (ht : Alike theirs t t')
    (h : Alike theirs s s') : Alike theirs (if p then t else s) (if p then t' else s') := by
  split
  · exact ht
  · exact h

/-- Nobody reads the messages back. -/
theorem Alike.send (h : Alike theirs s s') (q : String) (m : QueueMessage) :
    Alike theirs (s.send q m) (s'.send q m) := ⟨h.chunks, h.objects⟩

/-- The answer to a call about an upload that is not theirs. -/
theorem alike_answer {u : String} (hu : ¬theirs u) {c : Call} (hc : c.On u) (o : Outcome)
    (h : Alike theirs s s') :
    (answerCall o s c).1 = (answerCall o s' c).1 ∧
      Alike theirs (answerCall o s c).2 (answerCall o s' c).2 := by
  obtain ⟨hsafe, hc⟩ := hc
  have hout : ∀ key, Under u key → s.objects key = s'.objects key := by
    intro key hkey
    apply h.objects
    intro id hid hids hunder
    have hsame := under_unique hsafe hids hkey hunder
    exact hu (hsame ▸ hid)
  cases c with
  | recordChunk id i n =>
    subst hc
    simp only [answerCall]
    refine ⟨rfl, Alike.ite ?_ h⟩
    unfold Uploads.record
    rw [h.chunks id hu]
    exact h.setChunks id _
  | purge id =>
    simp only [answerCall]
    exact ⟨rfl, (h.setChunks id ∅).ite h⟩
  | totalSize id =>
    subst hc
    simp only [answerCall, h.chunks id hu]
    exact ⟨rfl, h⟩
  | listChunks id =>
    subst hc
    simp only [answerCall, h.chunks id hu]
    exact ⟨rfl, h⟩
  | upload key data contentType =>
    simp only [answerCall]
    exact ⟨rfl, (h.put key _).ite h⟩
  | download key =>
    simp only [answerCall, hout key hc]
    exact ⟨trivial, h⟩
  | delete key =>
    simp only [answerCall]
    exact ⟨rfl, (h.put key none).ite h⟩
  | publish q m =>
    simp only [answerCall]
    exact ⟨rfl, (h.send q m).ite h⟩
  | newString => exact ⟨rfl, h⟩
  | file op => exact ⟨rfl, h⟩
  | probe data => exact ⟨rfl, h⟩

/-- A call about one of their uploads changes nothing else. -/
theorem alike_aside {u : String} (hu : theirs u) {c : Call} (hc : c.On u) (o : Outcome)
    (s : Uploads) : Alike theirs (answerCall o s c).2 s := by
  obtain ⟨hsafe, hc⟩ := hc
  have hchunks : ∀ m, Alike theirs { s with chunks := setAt s.chunks u m } s := by
    intro m
    refine ⟨fun id hid => setAt_ne _ _ ?_, fun _ _ => rfl⟩
    rintro rfl
    exact hid hu
  have hobjects : ∀ key x, Under u key → Alike theirs (s.put key x) s := by
    intro key x hkey
    refine ⟨fun _ _ => rfl, fun key' hkey' => setAt_ne _ _ ?_⟩
    rintro rfl
    exact hkey' u hu hsafe hkey
  cases c with
  | recordChunk id i n =>
    subst hc
    simp only [answerCall]
    split
    · exact hchunks _
    · exact Alike.refl theirs s
  | purge id =>
    subst hc
    simp only [answerCall]
    split
    · exact hchunks _
    · exact Alike.refl theirs s
  | upload key data contentType =>
    simp only [answerCall]
    split
    · exact hobjects key _ hc
    · exact Alike.refl theirs s
  | delete key =>
    simp only [answerCall]
    split
    · exact hobjects key _ hc
    · exact Alike.refl theirs s
  | publish q m =>
    simp only [answerCall]
    split
    · exact ⟨fun _ _ => rfl, fun _ _ => rfl⟩
    · exact Alike.refl theirs s
  | _ => exact Alike.refl theirs s

end Alike

/-! ## The steps of both -/

section Steps

variable {theirs : String → Prop} {n : Nat}

/-- An id that is made up belongs to the user it is made up for. -/
def MadeUpApart (theirs : String → Prop) (n : Nat) (_ : Snap) (i : Nat) (c : Call) (o : Outcome) :
    Prop := c = .newString → (theirs o.fresh ↔ n ≤ i)

/-- A request of the first `n` is not about their uploads, and one of the rest is. -/
def Apart (theirs : String → Prop) (n : Nat) (_ : Snap) (i : Nat) (c : Call) : Prop :=
  c = .newString ∨ ∃ u, c.On u ∧ (theirs u ↔ n ≤ i)

theorem safe_apart {i : Nat} {u : String} {p : Upload Response} {R : Response → Prop}
    (hp : p.Only (Call.On u) R) (hu : u ≠ "" → (theirs u ↔ n ≤ i)) (s : Snap) :
    safe backends (MadeUpApart theirs n) (dues backends (MadeUpApart theirs n) (Apart theirs n)) i p
      (fun _ _ => True) s := by
  refine safe_mono (safe_only (J := fun _ => True) hp trivial (fun _ _ _ h => h) ?_)
    fun _ _ _ => trivial
  intro s' c o hc ho _
  refine ⟨⟨c, o, ho, Or.inr ⟨u, hc, hu ?_⟩, rfl⟩, trivial⟩
  exact (isSafeID_cases hc.1).1

theorem handle_apart (tables : Unicode) {i : Nat} (a : Ask)
    (ha : a.uploadID ≠ "" → (theirs a.uploadID ↔ n ≤ i)) (s : Snap) :
    safe backends (MadeUpApart theirs n) (dues backends (MadeUpApart theirs n) (Apart theirs n)) i
      (a.handle tables) (fun _ _ => True) s := by
  cases a with
  | complete r => exact safe_apart (handleComplete_on tables r) ha s
  | status r => exact safe_apart (handleStatus_on r) ha s
  | delete r => exact safe_apart (handleDelete_on r) ha s
  | chunk r =>
    change safe _ _ _ _ (handleChunk r) _ _
    unfold handleChunk
    apply safe_bind
    unfold chunkUploadID
    split
    · -- the id is made up
      intro s₁ _ o ho
      refine ⟨⟨_, o, ho, Or.inl rfl, rfl⟩, fun s₂ _ => ?_⟩
      exact safe_apart (storeChunk_on r o.fresh) (fun _ => ho rfl) s₂
    · exact fun s₁ _ => safe_apart (storeChunk_on r _) ha s₁

theorem startBoth_apart (tables : Unicode) (s : Uploads) {ours others : List Ask}
    (hours : ∀ a ∈ ours, a.uploadID ≠ "" → ¬theirs a.uploadID)
    (hothers : ∀ a ∈ others, a.uploadID ≠ "" → theirs a.uploadID) :
    AllSafe backends (MadeUpApart theirs ours.length)
      (dues backends (MadeUpApart theirs ours.length) (Apart theirs ours.length))
      (fun _ _ _ => True) (startBoth tables s ours others) := by
  intro i p hp
  simp only [startBoth, List.getElem?_map, Option.map_eq_some_iff] at hp
  obtain ⟨a, ha, rfl⟩ := hp
  apply handle_apart
  intro hne
  by_cases hi : i < ours.length
  · rw [List.getElem?_append_left hi] at ha
    have hnot := hours a (List.mem_of_getElem? ha) hne
    constructor
    · exact fun h => absurd h hnot
    · exact fun h => absurd hi (Nat.not_lt.mpr h)
  · rw [List.getElem?_append_right (by omega)] at ha
    have his := hothers a (List.mem_of_getElem? ha) hne
    constructor
    · exact fun _ => by omega
    · exact fun _ => his

/-- A step of the first `n` leaves their uploads as they are. -/
theorem apart_untouched {s : Snap} {i : Nat} {c : Call} (o : Outcome) (hi : i < n)
    (h : Apart theirs n s i c) {id : String} (hid : theirs id) (hsafe : isSafeID id = true) :
    Untouched id s.state (s.after backends i c o).state := by
  rcases h with rfl | ⟨u, hc, hu⟩
  · exact Untouched.refl id s.state
  · apply on_untouched hsafe _ hc
    rintro rfl
    have := hu.mp hid
    omega

/-- The first `n` see the same in alike states. -/
theorem apart_watch (s s' : Snap) (i : Nat) (c : Call) (o : Outcome) (hi : i < n)
    (h : Apart theirs n s i c) (hs : Alike theirs s.state s'.state) :
    (answerCall o s.state c).1 = (answerCall o s'.state c).1 ∧
      Alike theirs (answerCall o s.state c).2 (answerCall o s'.state c).2 := by
  rcases h with rfl | ⟨u, hc, hu⟩
  · exact ⟨rfl, hs⟩
  · refine alike_answer (fun hid => ?_) hc o hs
    have := hu.mp hid
    omega

theorem apart_aside (s : Snap) (i : Nat) (c : Call) (o : Outcome) (hi : n ≤ i)
    (h : Apart theirs n s i c) : Alike theirs (answerCall o s.state c).2 s.state := by
  rcases h with rfl | ⟨u, hc, hu⟩
  · exact Alike.refl theirs s.state
  · exact alike_aside (hu.mpr hi) hc o s.state

end Steps

/-! ## The law -/

/-- Uploads that a user's requests do not name are out of their reach. No step of theirs changes
them, and the answers are the same in two runs that differ in these uploads and in what the
other user does to them. -/
theorem uploads_that_are_not_named_are_out_of_reach (tables : Unicode) (theirs : String → Prop)
    (ours others others' : List Ask) (hours : ∀ a ∈ ours, a.uploadID ≠ "" → ¬theirs a.uploadID)
    (hothers : ∀ a ∈ others, a.uploadID ≠ "" → theirs a.uploadID)
    (hothers' : ∀ a ∈ others', a.uploadID ≠ "" → theirs a.uploadID)
    (s s' : Uploads) (hs : Alike theirs s s') (picks picks' : List (Nat × Outcome))
    (hE : Allowed backends (MadeUpApart theirs ours.length) picks (startBoth tables s ours others))
    (hE' : Allowed backends (MadeUpApart theirs ours.length) picks'
      (startBoth tables s' ours others'))
    (hpicks : watched ours.length picks = watched ours.length picks') :
    (∀ i, i < ours.length →
      (schedule backends picks (startBoth tables s ours others)).threads[i]? =
        (schedule backends picks' (startBoth tables s' ours others')).threads[i]?) ∧
      ∀ earlier later pick, picks = earlier ++ pick :: later → pick.1 < ours.length →
        ∀ id, theirs id → isSafeID id = true →
          Untouched id (schedule backends earlier (startBoth tables s ours others)).shot.state
            (schedule backends (earlier ++ [pick]) (startBoth tables s ours others)).shot.state := by
  have hsafe := startBoth_apart tables s hours hothers
  have hsafe' := startBoth_apart tables s' hours hothers'
  constructor
  · have hstart : Abreast ours.length (Alike theirs) (startBoth tables s ours others)
        (startBoth tables s' ours others') := by
      refine ⟨fun i hi => ?_, hs⟩
      simp only [startBoth, List.getElem?_map, List.getElem?_append_left hi]
    have hsymm : ∀ t t', Alike theirs t t' → Alike theirs t' t := fun _ _ h => h.symm
    have htrans : ∀ t t' t'', Alike theirs t t' → Alike theirs t' t'' → Alike theirs t t'' :=
      fun _ _ _ h h' => h.trans h'
    exact (abreast_schedule apart_watch (fun s i c o hi _ h => apart_aside s i c o hi h)
      hsymm htrans hsafe hsafe' hE hE' hpicks hstart).threads
  · rintro earlier later pick rfl hi id hid hids
    rw [allowed_append] at hE
    have hmid := (allSafe_schedule (I := fun _ => True) (fun _ _ _ _ h => h) hsafe trivial hE.1).1
    rw [schedule_append]
    change Untouched id _ (advance backends _ pick).shot.state
    rcases advance_cases backends (schedule backends earlier (startBoth tables s ours others)) pick
      with he | ⟨c, k, hth, he⟩
    · rw [he]
      exact Untouched.refl id _
    · have hm := hE.2.1
      unfold StepMeets at hm
      rw [hth] at hm
      rw [he]
      exact apart_untouched pick.2 hi (allSafe_due hmid hth hm) hid hids

/-- A request of `bob` to see or to delete the upload with this id. -/
def idRequest (id : String) : Request where
  query _ := ""
  header _ := ""
  urlParam k := if k = "id" then id else ""
  requestID := ""
  body := none
  json := none
  userID := some "bob"

/-- `bob` asks for an upload of his own, and whatever `ada` stored for hers he gets one answer. -/
theorem an_upload_of_another_id_is_out_of_reach :
    (schedule backends [(1, {}), (0, {}), (1, {}), (0, {}), (1, {})]
        (startBoth ascii empty [.status (idRequest "v")] [.chunk (chunkRequest "0" [1])])).threads[0]? =
      (schedule backends [(0, {}), (0, {})]
        (startBoth ascii oneChunk [.status (idRequest "v")] [])).threads[0]? :=
  (uploads_that_are_not_named_are_out_of_reach ascii (· = "u") [.status (idRequest "v")]
    [.chunk (chunkRequest "0" [1])] []
    (by
      intro a ha _
      simp only [List.mem_cons, List.not_mem_nil, or_false] at ha
      subst ha
      with_unfolding_all decide)
    (by
      intro a ha _
      simp only [List.mem_cons, List.not_mem_nil, or_false] at ha
      subst ha
      with_unfolding_all rfl)
    (fun _ h => nomatch h) empty oneChunk
    (by
      refine ⟨fun id hid => (setAt_ne _ _ hid).symm, fun key hkey => (setAt_ne _ _ ?_).symm⟩
      rintro rfl
      exact hkey "u" rfl (by with_unfolding_all decide) (by with_unfolding_all decide))
    [(1, {}), (0, {}), (1, {}), (0, {}), (1, {})] [(0, {}), (0, {})]
    (by with_unfolding_all exact ⟨nofun, nofun, nofun, nofun, nofun, trivial⟩)
    (by with_unfolding_all exact ⟨nofun, nofun, trivial⟩)
    rfl).1 0 (by decide)

/-- `ada` stores a chunk, and then `bob` deletes her upload. -/
theorem a_stranger_deletes_an_upload :
    ¬ ∀ (tables : Unicode) (A B : String) (ours others : List Ask) (s : Uploads) (id : String)
      (picks picks' : List (Nat × Outcome)), A ≠ B →
        (∀ a ∈ ours, a.request.userID = some B) → (∀ a ∈ others, a.request.userID = some A) →
        Fresh id s → (∀ p ∈ picks, ours.length ≤ p.1) → (∀ p ∈ picks', p.1 < ours.length) →
          Untouched id (schedule backends picks (startBoth tables s ours others)).shot.state
            (schedule backends (picks ++ picks') (startBoth tables s ours others)).shot.state := by
  intro h
  have huntouched := h ascii "ada" "bob" [.delete (idRequest "u")] [.chunk (chunkRequest "0" [1])]
    empty "u" (List.replicate 3 (1, ({} : Outcome))) (List.replicate 3 (0, ({} : Outcome)))
    (by decide)
    (by
      intro a ha
      simp only [List.mem_cons, List.not_mem_nil, or_false] at ha
      subst ha
      rfl)
    (by
      intro a ha
      simp only [List.mem_cons, List.not_mem_nil, or_false] at ha
      subst ha
      rfl)
    ⟨rfl, fun _ => rfl⟩
    (by
      intro p hp
      rw [List.eq_of_mem_replicate hp]
      exact Nat.le_refl 1)
    (by
      intro p hp
      rw [List.eq_of_mem_replicate hp]
      exact Nat.zero_lt_one)
  have hkeys := congrArg AList.keys huntouched.chunks
  have hgone : ([] : List Nat) = [0] := by with_unfolding_all exact hkeys
  cases hgone

end recast_rules.upload_service
