-- Several relays over one table. The row locks of a claim end with its
-- statement, so a relay can claim a row that another one has in its batch, and
-- both publish it. Where no claim returns such a row, each row is published by
-- one relay at most.
import RecastAi.OutboxSafety

open call_programs

namespace recast_rules.outbox

variable {P : Type}

/-- Thread `i` marked the row. -/
def Marked (s : Snap P) (i id : Nat) : Prop :=
  (⟨i, .markPublished id, .ok ()⟩ : call_programs.Event (Call P) Answer) ∈ s.log

/-- Thread `i` has the row in its batch, and it has not marked it yet. -/
def Holds (s : Snap P) (i : Nat) (p : Pending P) : Prop := Claimed s i p ∧ ¬Marked s i p.id

/-- Each row was passed to `Publish` by one thread at most. -/
def PublishedOnce (s : Snap P) : Prop :=
  ∀ i j p q a b, (⟨i, .publish p, a⟩ : call_programs.Event (Call P) Answer) ∈ s.log →
    (⟨j, .publish q, b⟩ : call_programs.Event (Call P) Answer) ∈ s.log → p.id = q.id → i = j

/-- Every publish and every mark succeeds. -/
def Smooth (_ : Snap P) (_ : Nat) : Call P → Outcome → Prop
  | .publish _, o => o.fails = false
  | .markPublished _, o => o.fails = false
  | _, _ => True

/-- No claim returns a row that another relay holds. -/
def LeavesAlone (s : Snap P) (i : Nat) : Call P → Outcome → Prop
  | .claim maxAttempts batchSize, o => o.fails = false →
      ∀ r ∈ claimRows s.state.rows o.skipped maxAttempts batchSize, ∀ j, j ≠ i →
        ¬Holds s j r.pending
  | _, _ => True

/-! ## The invariant -/

structure Apart (s : Snap P) : Prop where
  published : ∀ i p a, (⟨i, .publish p, a⟩ : call_programs.Event (Call P) Answer) ∈ s.log →
    Claimed s i p
  marked : ∀ i id, Marked s i id → ∃ r ∈ s.state.rows, r.id = id ∧ r.publishedAt.isSome
  one_claims : ∀ i j p q, Claimed s i p → Claimed s j q → p.id = q.id → i = j

theorem mem_updateRow_of_mem {rows : List (JobEvent P)} {id : Nat}
    {f : JobEvent P → JobEvent P} {r : JobEvent P} (h : r ∈ rows) :
    (if r.id = id then f r else r) ∈ updateRow rows id f := List.mem_map_of_mem h

/-- A mark is never taken back. -/
theorem marks_stay {db : Db P} {r : JobEvent P} (o : Outcome) (c : Call P) (hr : r ∈ db.rows)
    (hp : r.publishedAt.isSome) :
    ∃ r' ∈ (answerDb o db c).2.rows, r'.id = r.id ∧ r'.publishedAt.isSome := by
  cases c with
  | markPublished id =>
    simp only [answerDb]
    split
    · refine ⟨_, mem_updateRow_of_mem hr, ?_⟩
      split
      · exact ⟨rfl, rfl⟩
      · exact ⟨rfl, hp⟩
    · exact ⟨r, hr, rfl, hp⟩
  | markFailure id cause =>
    simp only [answerDb]
    split
    · refine ⟨_, mem_updateRow_of_mem hr, ?_⟩
      split
      · exact ⟨rfl, hp⟩
      · exact ⟨rfl, hp⟩
    · exact ⟨r, hr, rfl, hp⟩
  | commit tx =>
    simp only [answerDb]
    split
    · exact ⟨r, List.mem_append_left _ hr, rfl, hp⟩
    · exact ⟨r, hr, rfl, hp⟩
  | _ => exact ⟨r, hr, rfl, hp⟩

/-- A claimed row that some relay marked is not claimed again. -/
theorem claim_is_new {s : Snap P} {i j : Nat} {m b : Int} {o : Outcome} {r : JobEvent P}
    {q : Pending P} (hs : Sound s) (ha : Apart s)
    (hleaves : LeavesAlone s i (.claim m b) o) (hf : o.fails = false)
    (hr : r ∈ claimRows s.state.rows o.skipped m b) (hq : Claimed s j q)
    (hid : r.id = q.id) : j = i := by
  by_contra hne
  obtain ⟨hrow, hel⟩ := claimRows_sub hr
  obtain ⟨r', hr', rfl⟩ := List.mem_map.mp (hs.claimed j q hq)
  have hsame : r' = r := row_of_id hs.db_ok hr' hrow hid.symm
  subst hsame
  have hmark : Marked s j r'.id := by
    by_contra hm
    exact hleaves hf r' hr j hne ⟨hq, hm⟩
  obtain ⟨r'', hr'', hid'', hp⟩ := ha.marked j r'.id hmark
  have hsame : r'' = r' := row_of_id hs.db_ok hr'' hrow hid''
  rw [hsame] at hp
  unfold eligible at hel
  rw [Bool.and_eq_true, Option.isNone_iff_eq_none] at hel
  rw [hel.1] at hp
  cases hp

theorem apart_step {s : Snap P} {i : Nat} {c : Call P} {o : Outcome} (hsm : Smooth s i c o)
    (hl : LeavesAlone s i c o) (hd : Due s i c) (hs : Sound s) (h : Apart s) :
    Apart (s.after postgres i c o) := by
  refine ⟨?_, ?_, ?_⟩
  · intro j p a hm
    rcases Shot.mem_after.mp hm with hm | hm
    · obtain ⟨rfl, hc, -⟩ := call_programs.Event.mk.inj hm
      subst hc
      exact hd.mono (s.log_after ..)
    · exact (h.published j p a hm).mono (s.log_after ..)
  · intro j id hm
    rcases Shot.mem_after.mp hm with hm | hm
    · obtain ⟨rfl, hc, -⟩ := call_programs.Event.mk.inj hm
      subst hc
      obtain ⟨p, rfl, hp, -⟩ := hd
      obtain ⟨r, hr, rfl⟩ := List.mem_map.mp (hs.claimed j p hp)
      have hland : landed o = true := by
        have hf : o.fails = false := hsm
        rw [landed, hf]
        rfl
      refine ⟨r.marked o.now, ?_, rfl, rfl⟩
      have hmem : (if r.id = r.id then r.marked o.now else r) ∈
          updateRow s.state.rows r.id (.marked o.now) := mem_updateRow_of_mem hr
      simpa [Shot.after, postgres, answerDb, hland, JobEvent.pending] using hmem
    · obtain ⟨r, hr, rfl, hp⟩ := h.marked j id hm
      exact marks_stay o c hr hp
  · intro j k p q hp hq hid
    rcases claimed_after hp with hp' | ⟨m, b, rfl, rfl, hf, r, hr, rfl⟩
    · rcases claimed_after hq with hq' | ⟨m, b, rfl, rfl, hf, r, hr, rfl⟩
      · exact h.one_claims j k p q hp' hq' hid
      · exact claim_is_new hs h hl hf hr hp' hid.symm
    · rcases claimed_after hq with hq' | ⟨_, _, rfl, -⟩
      · exact (claim_is_new hs h hl hf hr hq' hid).symm
      · rfl

/-! ## The laws -/

/-- Where each claim leaves the rows of the other relays alone, every row is published by
one relay at most, in every state that the run reaches. -/
theorem rows_left_alone_are_published_once (db : Db P) (h : Unmarked db) (tasks : List (Task P))
    (picks : List (Nat × Outcome))
    (hE : Allowed postgres (fun s i c o => Smooth s i c o ∧ LeavesAlone s i c o) picks
      (start db tasks)) :
    PublishedOnce (schedule postgres picks (start db tasks)).shot := by
  have hrun : Sound (schedule postgres picks (start db tasks)).shot ∧
      Apart (schedule postgres picks (start db tasks)).shot := by
    refine run_keeps (I := fun s => Sound s ∧ Apart s) ?_ ⟨sound_start h tasks, ?_⟩ hE
    · intro s i c o ho hd hs
      exact ⟨sound_step hd hs.1, apart_step ho.1 ho.2 hd hs.1 hs.2⟩
    · refine ⟨fun i p a hm => (nomatch hm), fun i id hm => (nomatch hm), ?_⟩
      rintro i j p q ⟨m, b, batch, -, hm⟩
      cases hm
  intro i j p q a b hp hq hid
  exact hrun.2.one_claims i j p q (hrun.2.published i p a hp) (hrun.2.published j q b hq) hid

/-- One waiting row. -/
def waiting : Db String := ⟨[⟨1, "j", "a", "audio.queue", "m", "t", none, 0, none⟩], [], 2⟩

/-- Two relays, one after the other: the second one claims after the first one has marked. -/
theorem rows_left_alone_are_published_once_by_turns :
    PublishedOnce (schedule postgres [(0, {}), (0, {}), (0, {}), (1, {})]
      (start waiting [.relay ⟨0, 0, 0⟩ 1, .relay ⟨0, 0, 0⟩ 1])).shot :=
  rows_left_alone_are_published_once waiting ⟨by decide, by decide, by decide, by decide⟩ _ _
    ⟨⟨trivial, fun _ _ _ _ _ ⟨⟨_, _, _, _, hm⟩, _⟩ => nomatch hm⟩, ⟨rfl, trivial⟩, ⟨rfl, trivial⟩,
      ⟨trivial, fun _ r hr => nomatch (show r ∈ [] from hr)⟩, trivial⟩

/-- Two relays claim the row before either of them has marked it, and both publish it. -/
theorem two_relays_publish_one_row :
    ¬ ∀ (db : Db String) (tasks : List (Task String)) (picks : List (Nat × Outcome)),
      Unmarked db → Allowed postgres Smooth picks (start db tasks) →
        PublishedOnce (schedule postgres picks (start db tasks)).shot := by
  intro h
  have hrun := h waiting [.relay ⟨0, 0, 0⟩ 1, .relay ⟨0, 0, 0⟩ 1]
    [(0, {}), (1, {}), (0, {}), (1, {})] ⟨by decide, by decide, by decide, by decide⟩
    ⟨trivial, trivial, rfl, rfl, trivial⟩
  have := hrun 0 1 ⟨1, "j", "a", "audio.queue", "m", "t"⟩ ⟨1, "j", "a", "audio.queue", "m", "t"⟩
    (.ok ()) (.ok ()) (.tail _ (.head _)) (.head _) rfl
  omega

end recast_rules.outbox
