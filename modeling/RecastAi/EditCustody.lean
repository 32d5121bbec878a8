-- `UpdateTranscript` among other threads. From its commit to its publish the request has the job
-- in its hands, so the rows that it reads are the rows that its message finds.
import RecastAi.SpokenTexts

open call_programs py_text recast_rules.transcript recast_rules.models recast_rules.pipeline
open recast_rules.transcript_edits
open recast_rules.deliveries (History Snap taken)
open recast_rules.gateway (SegmentEdit)

namespace recast_rules.spoken_texts

/-! ## Before the commit -/

/-- The history of a request for the job that has committed and published nothing. -/
structure Opening (jobID : String) (h : History) : Prop where
  uncommitted : ∀ k n, (⟨k, .commit (.tx n), .ok ()⟩ : Event Call Answer) ∉ h
  named : ∀ e ∈ h, ∀ conn segmentID jobID' newText,
    e.call = .exec conn (.setText segmentID jobID' newText) → jobID' = jobID
  unpublished : ∀ e ∈ h, ∀ queue body, e.call ≠ .publish queue body

theorem opening_nil (jobID : String) : Opening jobID [] :=
  ⟨fun _ _ => List.not_mem_nil, fun _ he => absurd he List.not_mem_nil,
    fun _ he => absurd he List.not_mem_nil⟩

theorem Opening.cons {jobID : String} {h : History} {e : Event Call Answer} (hopen : Opening jobID h)
    (hcommit : ∀ k n, e ≠ ⟨k, .commit (.tx n), .ok ()⟩)
    (hnamed : ∀ conn segmentID jobID' newText,
      e.call = .exec conn (.setText segmentID jobID' newText) → jobID' = jobID)
    (hpublish : ∀ queue body, e.call ≠ .publish queue body) : Opening jobID (e :: h) where
  uncommitted k n hmem := by
    rcases List.mem_cons.mp hmem with heq | hmem
    · exact hcommit k n heq.symm
    · exact hopen.uncommitted k n hmem
  named := List.forall_mem_cons.mpr ⟨hnamed, hopen.named⟩
  unpublished := List.forall_mem_cons.mpr ⟨hpublish, hopen.unpublished⟩

theorem Opening.not_editing {jobID id : String} {h : History} (hopen : Opening jobID h) :
    ¬ Editing h id := uncommitted_not_editing hopen.uncommitted

section Requests

variable {s : Snap} {i : Nat} {c : Call} {o : Outcome} {jobID id : String}

theorem opening_kept {conn : Conn} (h : custody.sound s) (hopen : Opening jobID (s.own i))
    (hopen' : Opening jobID ((s.after services i c o).own i)) (hc : c ≠ .begin)
    (huse : Uses s i conn) (hown : deliveries.OwnConn conn c)
    (hnone : taken c (services.answer o s.state c).1 = none)
    (hsame : SameData s.state (services.answer o s.state c).2)
    (hnext : (services.answer o s.state c).2.nextTx = s.state.nextTx) :
    custody.Kept i s (s.after services i c o) :=
  kept_same h hc huse hown
    (hands_idle (fun _ => hopen.not_editing) (fun _ => hopen'.not_editing) hnone) hsame hnext

theorem opening_after (hopen : Opening jobID (s.own i)) (hcommit : ∀ n, c ≠ .commit (.tx n))
    (hnamed : ∀ conn segmentID jobID' newText,
      c = .exec conn (.setText segmentID jobID' newText) → jobID' = jobID)
    (hpublish : ∀ queue body, c ≠ .publish queue body) :
    Opening jobID ((s.after services i c o).own i) := by
  rw [own_after_self]
  refine hopen.cons (fun k n heq => ?_) hnamed hpublish
  exact hcommit n (congrArg Event.call heq)

/-- A query on its own is answered from the tables. -/
theorem query_safe {q : Query} (hs : custody.sound s ∧ Opening jobID (s.own i)) :
    safe services OneByOne (custody.pact services) i (ask (.query none q))
      (fun x s => custody.sound s ∧ (∀ row, x = .ok row → ∃ t : System, t.db.rows q = .ok row) ∧
        Opening jobID (s.own i)) s := by
  refine Custody.safe_call (stable_own _ i) (fun x => ?_) ?_ hs
  · intro s s' hsound hlater hspared hx
    exact ⟨hx.1, stable_own (Opening jobID) i s s' hsound hlater hspared hx.2⟩
  intro s o hsound hopen _
  have hopen' : Opening jobID ((s.after services i (.query none q) o).own i) :=
    opening_after hopen nofun nofun nofun
  have huse : Uses s i (.worker i) := Or.inl rfl
  refine ⟨opening_kept hsound hopen hopen' nofun huse trivial rfl ⟨rfl, rfl, rfl, rfl⟩ rfl, ?_, hopen'⟩
  intro row hrow
  refine ⟨s.state, ?_⟩
  change (if o.fails then Except.error DbError.failed else s.state.db.rows q) = _ at hrow
  split at hrow
  · cases hrow
  · exact hrow

/-! ## The transaction -/

/-- The request has begun the transaction. -/
structure Drafting (i : Nat) (tx : Conn) (jobID : String) (s : Snap) : Prop where
  opening : Opening jobID (s.own i)
  begun : Begun (s.own i) tx

/-- `n` statements wait in it. -/
structure Drafted (i : Nat) (tx : Conn) (jobID : String) (n : Nat) (s : Snap) : Prop
    extends Drafting i tx jobID s where
  unaborted : (s.state.sessions tx).aborted = false
  pending : ∀ x ∈ (s.state.sessions tx).pending,
    ∃ segmentID newText, x.2 = .setText segmentID jobID newText
  nonempty : 0 < n → (s.state.sessions tx).pending ≠ []
  seen : 0 < n → ∃ e ∈ s.own i, ∃ conn segmentID newText,
    e.call = .exec conn (.setText segmentID jobID newText)

theorem drafting_stable (i : Nat) (tx : Conn) (jobID : String) :
    custody.Stable i (Drafting i tx jobID) := by
  rintro s s' _ hlater _ ⟨hopen, hbegun⟩
  refine ⟨?_, ?_⟩
  · rwa [hlater.own]
  · rwa [hlater.own]

theorem drafted_stable (i : Nat) (tx : Conn) (jobID : String) (n : Nat) :
    custody.Stable i (Drafted i tx jobID n) := by
  rintro s s' hsound hlater hspared ⟨hdraft, hopen, hpending, hnonempty, hseen⟩
  have hsession := hspared.sessions tx (Or.inr hdraft.begun)
  refine ⟨drafting_stable i tx jobID s s' hsound hlater hspared hdraft, ?_, ?_, ?_, ?_⟩
  · rwa [hsession]
  · rwa [hsession]
  · rwa [hsession]
  · rwa [hlater.own]

/-- Who has begun a transaction after a `BEGIN`. -/
theorem begun_begin {j : Nat} {conn : Conn}
    (h : Begun ((s.after services i .begin o).own j) conn) :
    Begun (s.own j) conn ∨ j = i ∧ conn = .tx s.state.nextTx := by
  by_cases hj : j = i
  · subst hj
    rw [own_after_self] at h
    obtain ⟨k, hmem⟩ := h
    rcases List.mem_cons.mp hmem with heq | hmem
    · right
      refine ⟨rfl, ?_⟩
      obtain ⟨-, hanswer⟩ := Event.mk.inj heq
      have hreply : (Except.ok conn : Except DbError Conn) = replyDb o (.tx s.state.nextTx) :=
        eq_of_heq hanswer.2
      unfold replyDb at hreply
      split at hreply
      · cases hreply
      · exact Except.ok.inj hreply
    · exact Or.inl ⟨k, hmem⟩
  · rw [own_after_ne services s (Ne.symm hj)] at h
    exact Or.inl h

/-- A transaction is begun. -/
theorem begin_kept (h : custody.sound s) (hopen : Opening jobID (s.own i)) :
    custody.Kept i s (s.after services i .begin o) ∧
      ∀ tx, (services.answer o s.state .begin).1 = .ok tx →
        Drafted i tx jobID 0 (s.after services i .begin o) := by
  have hsame : SameData s.state (services.answer o s.state .begin).2 := ⟨rfl, rfl, rfl, rfl⟩
  have hopen' : Opening jobID ((s.after services i .begin o).own i) :=
    opening_after hopen nofun nofun nofun
  have hhands := hands_idle (fun _ => hopen.not_editing) (fun _ => hopen'.not_editing) rfl
  have hold : ∀ j conn, Begun (s.own j) conn → conn ≠ .tx s.state.nextTx := by
    rintro j _ hbegun rfl
    obtain ⟨n, hn, heq⟩ := h.2.numbered j _ hbegun
    exact absurd (Conn.tx.inj heq) hn.ne'
  refine ⟨⟨⟨hhands ▸ hsame.sound h.1, ?_, ?_, ?_⟩, lawful_same h.1 rfl, fun j hj => ?_⟩, ?_⟩
  · intro j k conn hj hk
    rcases begun_begin hj with hj' | ⟨rfl, hconn⟩ <;> rcases begun_begin hk with hk' | ⟨rfl, hconn'⟩
    · exact h.2.own j k conn hj' hk'
    · exact absurd hconn' (hold j conn hj')
    · exact absurd hconn (hold k conn hk')
    · rfl
  · intro j conn hj
    change ∃ n < s.state.nextTx + 1, _
    rcases begun_begin hj with hj | ⟨-, rfl⟩
    · obtain ⟨n, hn, rfl⟩ := h.2.numbered j conn hj
      exact ⟨n, hn.trans (Nat.lt_succ_self _), rfl⟩
    · exact ⟨s.state.nextTx, Nat.lt_succ_self _, rfl⟩
  · exact fun n hn => h.2.fresh n (Nat.le_of_succ_le hn)
  · exact ⟨fun _ _ => rfl, List.prefix_rfl, fun _ _ => Iff.rfl, fun _ _ => ⟨rfl, fun _ _ _ => rfl⟩⟩
  · intro tx htx
    have hreply : replyDb o (Conn.tx s.state.nextTx) = .ok tx := htx
    have hidle : s.state.sessions tx = .idle := by
      unfold replyDb at hreply
      split at hreply
      · cases hreply
      · exact Except.ok.inj hreply ▸ h.2.fresh _ (Nat.le_refl _)
    have hidle' : (s.after services i .begin o).state.sessions tx = .idle := hidle
    refine ⟨⟨hopen', ⟨i, ?_⟩⟩, ?_, ?_, fun h0 => absurd h0 (Nat.lt_irrefl 0),
      fun h0 => absurd h0 (Nat.lt_irrefl 0)⟩
    · rw [own_after_self, ← htx]
      exact List.mem_cons_self
    · rw [hidle']
      rfl
    · rw [hidle']
      exact fun x hx => absurd hx List.not_mem_nil

theorem exec_same (o : Outcome) (t : System) (k : Conn) (st : Statement) :
    SameData t (answerExec o t (some k) st).2 ∧ (answerExec o t (some k) st).2.nextTx = t.nextTx := by
  unfold answerExec
  dsimp only
  split
  · exact ⟨⟨rfl, rfl, rfl, rfl⟩, rfl⟩
  · split
    · exact ⟨⟨rfl, rfl, rfl, rfl⟩, rfl⟩
    · split <;> exact ⟨⟨rfl, rfl, rfl, rfl⟩, rfl⟩

/-- One more text is written in the transaction. -/
theorem setText_kept {tx : Conn} {n : Nat} {segmentID newText : String} (h : custody.sound s)
    (hdraft : Drafted i tx jobID n s) :
    custody.Kept i s (s.after services i (.exec (some tx) (.setText segmentID jobID newText)) o) ∧
      Drafting i tx jobID (s.after services i (.exec (some tx) (.setText segmentID jobID newText)) o) ∧
      ∀ rows, (services.answer o s.state (.exec (some tx) (.setText segmentID jobID newText))).1 =
        .ok rows → Drafted i tx jobID (n + 1)
          (s.after services i (.exec (some tx) (.setText segmentID jobID newText)) o) := by
  obtain ⟨hsame, hnext⟩ := exec_same o s.state tx (.setText segmentID jobID newText)
  have hopen' : Opening jobID
      ((s.after services i (.exec (some tx) (.setText segmentID jobID newText)) o).own i) := by
    refine opening_after hdraft.opening nofun (fun conn segmentID' jobID' newText' hcall => ?_) nofun
    cases hcall
    rfl
  have hdrafting : Drafting i tx jobID
      (s.after services i (.exec (some tx) (.setText segmentID jobID newText)) o) := by
    refine ⟨hopen', (begun_after ?_ i tx).mpr hdraft.begun⟩
    exact nofun
  refine ⟨opening_kept h hdraft.opening hopen' nofun (Or.inr hdraft.begun) rfl rfl hsame hnext,
    hdrafting, fun rows hrows => ?_⟩
  rcases gateway.exec_in_transaction hdraft.unaborted o (.setText segmentID jobID newText) with
    ⟨e, herror⟩ | ⟨m, db, -, hanswer⟩
  · exact absurd (herror.symm.trans hrows) nofun
  · have hstate : (s.after services i (.exec (some tx) (.setText segmentID jobID newText)) o).state =
        s.state.setSession tx ⟨(s.state.sessions tx).pending ++
          [(o.now, .setText segmentID jobID newText)], false⟩ := congrArg Prod.snd hanswer
    refine ⟨hdrafting, ?_, ?_, fun _ => ?_, fun _ => ?_⟩
    · rw [hstate, gateway.session_set]
    · rw [hstate, gateway.session_set]
      intro x hx
      rcases List.mem_append.mp hx with hx | hx
      · exact hdraft.pending x hx
      · obtain rfl := List.mem_singleton.mp hx
        exact ⟨segmentID, newText, rfl⟩
    · rw [hstate, gateway.session_set]
      exact List.append_ne_nil_of_right_ne_nil _ (List.cons_ne_nil _ _)
    · rw [own_after_self]
      exact ⟨_, List.mem_cons_self, some tx, segmentID, newText, rfl⟩

/-- The loop over the edits. -/
theorem texts_safe {tx : Conn} (edits : List SegmentEdit) {n : Nat}
    (hs : custody.sound s ∧ Drafted i tx jobID n s) :
    safe services OneByOne (custody.pact services) i (gateway.updateTexts tx jobID edits)
      (fun (x : Except gateway.Response Unit) s => custody.sound s ∧ match x with
        | .error _ => Drafting i tx jobID s
        | .ok () => Drafted i tx jobID (n + edits.length) s) s := by
  induction edits generalizing n s with
  | nil =>
    intro s' hr
    exact Custody.stable_rely (drafted_stable i tx jobID n) hr hs
  | cons seg segs ih =>
    unfold gateway.updateTexts
    have hgiveup : ∀ {s : Snap} {resp : gateway.Response}, custody.sound s ∧ Drafting i tx jobID s →
        safe services OneByOne (custody.pact services) i (.done (.error resp))
          (fun (x : Except gateway.Response Unit) s => custody.sound s ∧ match x with
            | .error _ => Drafting i tx jobID s
            | .ok () => Drafted i tx jobID (n + (segs.length + 1)) s) s :=
      fun hs s' hr => Custody.stable_rely (drafting_stable i tx jobID) hr hs
    split
    · exact hgiveup ⟨hs.1, hs.2.toDrafting⟩
    · have hcall := Custody.safe_call (w := services) (E := OneByOne)
        (c := .exec (some tx) (.setText seg.id jobID seg.text))
        (Q := fun x s => Drafting i tx jobID s ∧
          ∀ rows, x = .ok rows → Drafted i tx jobID (n + 1) s)
        (drafted_stable i tx jobID n) ?_ (fun s o hsound hdraft _ => setText_kept hsound hdraft) hs
      · apply safe_bind
        refine safe_mono hcall fun x s hx => ?_
        change Except DbError Nat at x
        cases x with
        | error e => exact hgiveup ⟨hx.1, hx.2.1⟩
        | ok rows =>
          dsimp only
          split
          · exact hgiveup ⟨hx.1, hx.2.1⟩
          · have hrest := ih ⟨hx.1, hx.2.2 rows rfl⟩
            rwa [Nat.add_assoc, Nat.add_comm 1] at hrest
      · intro x s s' hsound hlater hspared hx
        exact ⟨drafting_stable i tx jobID s s' hsound hlater hspared hx.1, fun rows hrows =>
          drafted_stable i tx jobID (n + 1) s s' hsound hlater hspared (hx.2 rows hrows)⟩

/-! ## The commit -/

theorem touched_trans {rows rows' rows'' : List TranscriptSegment}
    (h : List.Forall₂ (Touched id) rows rows') (h' : List.Forall₂ (Touched id) rows' rows'') :
    List.Forall₂ (Touched id) rows rows'' := by
  induction h generalizing rows'' with
  | nil => exact h'
  | cons hab _ ih =>
    obtain ⟨c, cs, hbc, hcs, rfl⟩ := List.forall₂_cons_left_iff.mp h'
    exact .cons (hab.trans hbc) (ih hcs)

theorem writeText_touched {segmentID : String} {t : PgText} (ht : strip t.val = t.val)
    (row : TranscriptSegment) : Touched id row (writeText segmentID id t row) := by
  unfold writeText
  split
  · rename_i hrow
    simp only [Bool.and_eq_true, decide_eq_true_eq] at hrow
    exact ⟨fun hne => absurd hrow.2 hne, rfl, rfl, fun h => ⟨ht, h.path, h.finite⟩⟩
  · exact Touched.refl id row

/-- What the edits of a job make of the rows. -/
theorem setTexts_touched {pending : List (Nat × Statement)} {db : pipeline.Db}
    (hpending : ∀ x ∈ pending, ∃ segmentID newText, x.2 = .setText segmentID jobID newText ∧
      strip (text newText) = text newText) (hid : uuidIn jobID = some id) :
    List.Forall₂ (Touched id) db.segments (db.execAll pending).segments := by
  induction pending generalizing db with
  | nil => exact touched_refl id _
  | cons x pending ih =>
    obtain ⟨now, st⟩ := x
    obtain ⟨segmentID, newText, hst, htrim⟩ := hpending _ List.mem_cons_self
    obtain rfl : st = .setText segmentID jobID newText := hst
    have hrest := fun y hy => hpending y (List.mem_cons_of_mem _ hy)
    unfold Db.execAll
    split
    · exact ih hrest
    · rename_i n db' hexec
      obtain ⟨sid, id', t, -, hid', ht, -, hrows⟩ := setText_ok hexec
      obtain rfl := Option.some.inj (hid.symm.trans hid')
      have htrim' : strip t.val = t.val := by rw [pgText_of ht, htrim]
      refine touched_trans ?_ (ih hrest)
      rw [hrows, List.forall₂_map_right_iff]
      exact List.forall₂_same.mpr fun row _ => writeText_touched htrim' row

/-- The request has the job in its hands. -/
structure Edited (i : Nat) (id : String) (s : Snap) : Prop where
  editing : Editing (s.own i) id
  only : ∀ id', Editing (s.own i) id' → id' = id

theorem edited_stable (i : Nat) (id : String) : custody.Stable i (Edited i id) := by
  rintro s s' _ hlater _ ⟨hediting, honly⟩
  refine ⟨?_, ?_⟩
  · rwa [hlater.own]
  · rwa [hlater.own]

/-- A commit that fails leaves the rows alone. -/
theorem commit_failed {tx : Conn} {n : Nat} (h : custody.sound s) (hdraft : Drafted i tx jobID n s)
    (hfails : o.fails = true) (happlied : o.applied = false) :
    custody.Kept i s (s.after services i (.commit tx) o) ∧
      Opening jobID ((s.after services i (.commit tx) o).own i) ∧
      (services.answer o s.state (.commit tx)).1 = .error .failed := by
  have hanswer : services.answer o s.state (.commit tx) =
      (.error .failed, s.state.setSession tx .idle) := by
    change answerCommit o s.state tx = _
    unfold answerCommit replyDb landed
    simp only [hdraft.unaborted, hfails, happlied, Bool.not_true, Bool.or_false, Bool.false_eq_true,
      if_false, if_true]
    rfl
  have hopen' : Opening jobID ((s.after services i (.commit tx) o).own i) := by
    rw [own_after_self]
    refine hdraft.opening.cons (fun k m heq => ?_) nofun nofun
    have hcall : Call.commit tx = .commit (.tx m) := congrArg Event.call heq
    cases hcall
    obtain ⟨-, hok⟩ := Event.mk.inj heq
    have hok : (services.answer o s.state (.commit (.tx m))).1 = .ok () := eq_of_heq hok.2
    rw [hanswer] at hok
    cases hok
  refine ⟨?_, hopen', congrArg Prod.fst hanswer⟩
  refine opening_kept h hdraft.opening hopen' nofun (Or.inr hdraft.begun) rfl rfl ?_ ?_
  · rw [hanswer]
    exact ⟨rfl, rfl, rfl, rfl⟩
  · rw [hanswer]
    rfl

/-- The edits come into the table while nobody has the job, and the request has it from then on. -/
theorem commit_landed {tx : Conn} {n : Nat} (h : custody.sound s) (hdraft : Drafted i tx jobID n s)
    (hn : 0 < n) (hid : uuidIn jobID = some id) (hapart : Apart s (.commit tx))
    (hfails : o.fails = false) :
    custody.Kept i s (s.after services i (.commit tx) o) ∧
      Edited i id (s.after services i (.commit tx) o) := by
  obtain ⟨m, -, rfl⟩ := h.2.numbered i tx hdraft.begun
  have hanswer : services.answer o s.state (.commit (.tx m)) = (.ok (), s.state.commit (.tx m)) := by
    change answerCommit o s.state (.tx m) = _
    unfold answerCommit replyDb landed
    simp only [hdraft.unaborted, hfails, Bool.not_false, Bool.true_or, Bool.false_eq_true, if_false,
      if_true]
    rfl
  have hfree : (hands s).free s.state id := by
    obtain ⟨x, hx⟩ := List.exists_mem_of_ne_nil _ (hdraft.nonempty hn)
    obtain ⟨segmentID, newText, hst⟩ := hdraft.pending x hx
    exact (hapart m rfl x hx segmentID jobID newText hst).2 id hid
  have hbeside : Beside id s.state (services.answer o s.state (.commit (.tx m))).2 := by
    rw [hanswer]
    refine ⟨setTexts_touched (fun x hx => ?_) hid, fun _ _ _ _ _ => rfl, rfl, rfl⟩
    obtain ⟨segmentID, newText, hst⟩ := hdraft.pending x hx
    exact ⟨segmentID, newText, hst, (hapart m rfl x hx segmentID jobID newText hst).1⟩
  have hopen := hdraft.opening
  have hown : (s.after services i (.commit (.tx m)) o).own i = ⟨i, .commit (.tx m), .ok ()⟩ :: s.own i := by
    rw [own_after_self, hanswer]
  have hediting : ∀ id', Editing ((s.after services i (.commit (.tx m)) o).own i) id' ↔ id' = id := by
    intro id'
    rw [hown]
    constructor
    · rintro ⟨⟨e, he, conn, segmentID, jobID', newText, hcall, hid'⟩, -, -⟩
      rcases List.mem_cons.mp he with rfl | he
      · cases hcall
      · rw [hopen.named e he conn segmentID jobID' newText hcall, hid] at hid'
        exact (Option.some.inj hid').symm
    · rintro rfl
      obtain ⟨e, he, conn, segmentID, newText, hcall⟩ := hdraft.seen hn
      refine ⟨⟨e, List.mem_cons_of_mem _ he, conn, segmentID, jobID, newText, hcall, hid⟩,
        ⟨i, m, List.mem_cons_self⟩, List.forall_mem_cons.mpr ⟨nofun, hopen.unpublished⟩⟩
  have hheld : (hands (s.after services i (.commit (.tx m)) o)).held = (hands s).held := by
    funext j tag
    refine propext ((held_after s i _ o j tag).trans (or_iff_left ?_))
    rintro ⟨-, msg, htaken⟩
    cases htaken
  have hedits : ∀ j id', (hands (s.after services i (.commit (.tx m)) o)).editing j id' ↔
      (hands s).editing j id' ∨ j = i ∧ id' = id := by
    intro j id'
    by_cases hj : j = i
    · subst hj
      exact (hediting id').trans ⟨fun hid' => Or.inr ⟨rfl, hid'⟩,
        fun hor => (hor.resolve_left hopen.not_editing).2⟩
    · refine (editing_other hj).trans ⟨Or.inl, fun hor => hor.resolve_right fun hji => hj hji.1⟩
  refine ⟨?_, (hediting id).mpr rfl, fun id' => (hediting id').mp⟩
  refine kept_of h nofun (Or.inr hdraft.begun) rfl (h.1.edit hbeside hfree hheld hedits) ?_ ?_ ?_ ?_
  · rw [hanswer]
    rfl
  · intro e he hcall
    obtain ⟨rfl, -⟩ := List.cons.inj he
    exact absurd rfl (hcall m)
  · intro j _ tag _
    rw [hbeside.settled]
  · intro j _ id' hmine
    have hother : id' ≠ id := by
      rintro rfl
      exact mine_not_free hmine hfree
    exact ⟨touched_others hbeside.rows hother, fun jobID' idx hid' => hbeside.audio jobID' idx id' hid' hother⟩

/-! ## The message -/

/-- The rows that the request has read. -/
def Listed (id : String) (rows : List TranscriptSegment) (t : System) : Prop :=
  rows.Perm (t.db.segments.filter (·.jobID = id)) ∧
    rows.Pairwise fun a b => a.segmentIdx.val ≤ b.segmentIdx.val

theorem listed_stable (i : Nat) (id : String) (rows : List TranscriptSegment) :
    custody.Stable i fun s => Edited i id s ∧ Listed id rows s.state := by
  rintro s s' hsound hlater hspared ⟨hedited, hlisted⟩
  refine ⟨edited_stable i id s s' hsound hlater hspared hedited, ?_⟩
  unfold Listed
  rw [(hspared.part id (Or.inl hedited.editing)).rows]
  exact hlisted

/-- A step after which the request has the job still. -/
theorem edited_step {c : Call} (h : custody.sound s) (hedited : Edited i id s) (hc : c ≠ .begin)
    (hnoEdit : NoEdit c) (hown : deliveries.OwnConn (.worker i) c)
    (hnone : taken c (services.answer o s.state c).1 = none)
    (hsame : SameData s.state (services.answer o s.state c).2)
    (hnext : (services.answer o s.state c).2.nextTx = s.state.nextTx) :
    custody.Kept i s (s.after services i c o) ∧ Edited i id (s.after services i c o) := by
  refine ⟨kept_same h hc (Or.inl rfl) hown (hands_after hnoEdit hnone) hsame hnext, ?_, ?_⟩
  · rw [own_after_self]
    exact (editing_cons hnoEdit).mpr hedited.editing
  · rw [own_after_self]
    exact fun id' hediting => hedited.only id' ((editing_cons hnoEdit).mp hediting)

theorem select_kept (h : custody.sound s) (hedited : Edited i id s) (hid : uuidIn jobID = some id)
    (hfails : o.fails = false) :
    custody.Kept i s (s.after services i (.query none (.segments jobID)) o) ∧
      ∃ rows, (services.answer o s.state (.query none (.segments jobID))).1 = .ok rows ∧
        Edited i id (s.after services i (.query none (.segments jobID)) o) ∧
        Listed id rows s.state := by
  have hstep := @edited_step s i o id (.query none (.segments jobID)) h hedited nofun trivial trivial rfl
    ⟨rfl, rfl, rfl, rfl⟩ rfl
  have hrows : s.state.db.rows (.segments jobID) = .ok (s.state.db.segmentsOf id) := by
    unfold pipeline.Db.rows
    dsimp only
    rw [hid]
  refine ⟨hstep.1, s.state.db.segmentsOf id, ?_, hstep.2, segments_found hid hrows⟩
  change (if o.fails then Except.error DbError.failed else s.state.db.rows (.segments jobID)) = _
  rw [hfails, if_neg (by decide), hrows]

theorem stage_kept (h : custody.sound s) (hedited : Edited i id s) (stage : Stage) :
    custody.Kept i s (s.after services i (.exec none (.setStage jobID stage)) o) ∧
      Edited i id (s.after services i (.exec none (.setStage jobID stage)) o) ∧
      (s.after services i (.exec none (.setStage jobID stage)) o).state.db.segments =
        s.state.db.segments := by
  have hstage : SameData s.state (services.answer o s.state (.exec none (.setStage jobID stage))).2 ∧
      (services.answer o s.state (.exec none (.setStage jobID stage))).2.nextTx = s.state.nextTx := by
    have hsegments := (stage_keeps_segments o s.state jobID stage).1
    change SameData s.state (answerExec o s.state none _).2 ∧ (answerExec o s.state none _).2.nextTx = _
    rcases exec_alone_cases o s.state (.setStage jobID stage) with ⟨e, -, h⟩ | ⟨n, db, -, h | h | h⟩ <;>
      rw [h] at hsegments ⊢ <;> exact ⟨⟨hsegments, rfl, rfl, rfl⟩, rfl⟩
  have hstep := @edited_step s i o id (.exec none (.setStage jobID stage)) h hedited nofun trivial
    trivial rfl hstage.1 hstage.2
  exact ⟨hstep.1, hstep.2, hstage.1.segments⟩

theorem rows_encoded {rows : List TranscriptSegment}
    (h : ∀ row ∈ rows, (goFloat row.confidence).isSome) :
    ∃ jsons, rows.mapM TranscriptSegment.encode = some jsons := by
  induction rows with
  | nil => exact ⟨[], rfl⟩
  | cons row rows ih =>
    obtain ⟨confidence, hconfidence⟩ := Option.isSome_iff_exists.mp (h row List.mem_cons_self)
    obtain ⟨jsons, hjsons⟩ := ih fun r hr => h r (List.mem_cons_of_mem row hr)
    have hrow : ∃ json, row.encode = some json := by
      unfold TranscriptSegment.encode
      rw [hconfidence]
      exact ⟨_, rfl⟩
    obtain ⟨json, hjson⟩ := hrow
    refine ⟨json :: jsons, ?_⟩
    rw [List.mapM_cons, hjson, hjsons]
    rfl

/-- The message can be written. -/
theorem message_encoded (jobID : String) (job : Job) {rows : List TranscriptSegment}
    (h : ∀ row ∈ rows, (goFloat row.confidence).isSome) :
    ∃ body, (gateway.transcriptMessage jobID job rows).encode TranscriptPayload.encode = some body := by
  obtain ⟨jsons, hjsons⟩ := rows_encoded h
  unfold QueueMessage.encode TranscriptPayload.encode gateway.transcriptMessage
  dsimp only
  rw [hjsons]
  exact ⟨_, rfl⟩

/-- The request gives the job out of its hands. -/
theorem publish_kept {job : Job} {rows : List TranscriptSegment} (h : custody.sound s)
    (hedited : Edited i id s) (hlisted : Listed id rows s.state) (hid : uuidIn jobID = some id)
    (hfails : o.fails = false) :
    custody.Kept i s (s.after services i (.publish gateway.transcriptQueue
        ((gateway.transcriptMessage jobID job rows).encode TranscriptPayload.encode)) o) ∧
      ∀ id', ¬ Editing ((s.after services i (.publish gateway.transcriptQueue
        ((gateway.transcriptMessage jobID job rows).encode TranscriptPayload.encode)) o).own i) id' := by
  obtain ⟨hperm, hsorted⟩ := hlisted
  obtain ⟨body, hbody⟩ := message_encoded jobID job fun row hrow =>
    (h.1.proper row (List.mem_filter.mp (hperm.mem_iff.mp hrow)).1).finite
  rw [hbody]
  have hcarries : Carries s.state.db id body := ⟨jobID, job, rows, hbody, hid, hperm, hsorted⟩
  have hanswer : services.answer o s.state (.publish gateway.transcriptQueue (some body)) =
      (.ok (), { s.state with accepted := s.state.accepted ++ [⟨tts.transcriptQueue, body⟩] }) := by
    change (reply o (), if landed o then _ else s.state) = _
    unfold reply landed
    rw [hfails]
    rfl
  have hgone : ∀ id', ¬ Editing
      ((s.after services i (.publish gateway.transcriptQueue (some body)) o).own i) id' := by
    rw [own_after_self]
    exact fun id' hediting => hediting.unpublished _ List.mem_cons_self _ _ rfl
  have hheld : (hands (s.after services i (.publish gateway.transcriptQueue (some body)) o)).held =
      (hands s).held := by
    funext j tag
    refine propext ((held_after s i _ o j tag).trans (or_iff_left ?_))
    rintro ⟨-, msg, htaken⟩
    cases htaken
  have hedits : ∀ j id',
      (hands (s.after services i (.publish gateway.transcriptQueue (some body)) o)).editing j id' ↔
        j ≠ i ∧ (hands s).editing j id' := by
    intro j id'
    by_cases hj : j = i
    · subst hj
      exact iff_of_false (hgone id') fun hand => hand.1 rfl
    · exact (editing_other hj).trans ⟨fun h => ⟨hj, h⟩, And.right⟩
  have huse : Uses s i (.worker i) := Or.inl rfl
  have hstate := congrArg Prod.snd hanswer
  refine ⟨?_, hgone⟩
  refine kept_of h nofun huse trivial ?_ (by rw [hstate]) (lawful_same h.1 ?_) ?_ ?_
  · exact h.1.publish hedited.editing hedited.only hcarries (by rw [hstate]) (by rw [hstate])
      (by rw [hstate]) (by rw [hstate]) hheld hedits
  · exact congrArg (fun t => t.db.segments) hstate
  · intro j _ tag _
    rw [hstate]
  · intro j _ id' _
    rw [hstate]
    exact ⟨rfl, fun _ _ _ => rfl⟩

/-! ## The request -/

/-- The thread edits no job. -/
def Unoccupied (i : Nat) (s : Snap) : Prop := ∀ id, ¬ Editing (s.own i) id

theorem opening_stable (i : Nat) (jobID : String) :
    custody.Stable i fun s => Opening jobID (s.own i) := stable_own (Opening jobID) i

theorem unoccupied_of_opening {jobID : String} (h : custody.sound s ∧ Opening jobID (s.own i)) :
    custody.sound s ∧ Unoccupied i s := ⟨h.1, fun _ => h.2.not_editing⟩

theorem ownedJob_tries {claims : gateway.Claims} (hs : custody.sound s ∧ Opening jobID (s.own i)) :
    tries services OneByOne (custody.pact services) i (gateway.ownedJob claims jobID)
      (fun _ s => custody.sound s ∧ Unoccupied i s)
      (fun _ s => (∃ id, uuidIn jobID = some id) ∧ custody.sound s ∧ Opening jobID (s.own i)) s := by
  unfold gateway.ownedJob
  apply tries_bind
  apply tries_orGiveUp
  refine safe_mono (query_safe hs) ?_
  intro x s hx
  obtain ⟨hsound, hrow, hopen⟩ := hx
  cases x with
  | error e => exact unoccupied_of_opening ⟨hsound, hopen⟩
  | ok job =>
    obtain ⟨t, ht⟩ := hrow job rfl
    obtain ⟨id, hid, -⟩ := gateway.job_found ht
    apply tries_bind
    refine tries_mono (Custody.tries_unless (opening_stable i jobID) ⟨hsound, hopen⟩
      fun s hs => unoccupied_of_opening hs) (fun _ _ h => h) ?_
    rintro _ s ⟨-, hs⟩
    exact fun s' hr => ⟨⟨id, hid⟩, Custody.stable_rely (opening_stable i jobID) hr hs⟩

theorem rollback_kept {tx : Conn} (h : custody.sound s) (hdraft : Drafting i tx jobID s) :
    custody.Kept i s (s.after services i (.rollback tx) o) ∧
      Opening jobID ((s.after services i (.rollback tx) o).own i) := by
  have hopen' : Opening jobID ((s.after services i (.rollback tx) o).own i) :=
    opening_after hdraft.opening nofun nofun nofun
  have hsame : SameData s.state (services.answer o s.state (.rollback tx)).2 ∧
      (services.answer o s.state (.rollback tx)).2.nextTx = s.state.nextTx := by
    change SameData s.state (if landed o then s.state.setSession tx .idle else s.state) ∧
      (if landed o then s.state.setSession tx .idle else s.state).nextTx = _
    split <;> exact ⟨⟨rfl, rfl, rfl, rfl⟩, rfl⟩
  exact ⟨opening_kept h hdraft.opening hopen' nofun (Or.inr hdraft.begun) rfl rfl hsame.1 hsame.2, hopen'⟩

/-- The transaction ends: with the job in the hands of the request, or with nothing done. -/
theorem commit_safe {tx : Conn} {n : Nat} (hid : uuidIn jobID = some id) (hn : 0 < n)
    (hs : custody.sound s ∧ Drafted i tx jobID n s) :
    safe services OneByOne (custody.pact services) i (ask (.commit tx))
      (fun (x : Except DbError Unit) s => custody.sound s ∧ match x with
        | .error _ => Opening jobID (s.own i)
        | .ok () => Edited i id s) s := by
  refine Custody.safe_call (c := .commit tx) (drafted_stable i tx jobID n) ?_ ?_ hs
  · intro x
    change Except DbError Unit at x
    cases x with
    | error e => exact opening_stable i jobID
    | ok u => exact edited_stable i id
  · intro s o hsound hdraft ho
    cases hfails : o.fails with
    | true =>
      obtain ⟨hkept, hopen, hanswer⟩ :=
        commit_failed hsound hdraft hfails (ho.1.honest tx rfl hfails)
      refine ⟨hkept, ?_⟩
      rw [hanswer]
      exact hopen
    | false =>
      obtain ⟨hkept, hedited⟩ := commit_landed hsound hdraft hn hid ho.2 hfails
      refine ⟨hkept, ?_⟩
      have hanswer : (services.answer o s.state (.commit tx)).1 = .ok () := by
        change (answerCommit o s.state tx).1 = _
        unfold answerCommit replyDb
        rw [hdraft.unaborted, hfails]
        rfl
      rw [hanswer]
      exact hedited

theorem saveEdits_tries {edits : List SegmentEdit} (hid : uuidIn jobID = some id)
    (hedits : 0 < edits.length) (hs : custody.sound s ∧ Opening jobID (s.own i)) :
    tries services OneByOne (custody.pact services) i (gateway.saveEdits jobID edits)
      (fun _ s => custody.sound s ∧ Unoccupied i s)
      (fun _ s => custody.sound s ∧ Edited i id s) s := by
  unfold gateway.saveEdits
  apply tries_bind
  apply tries_orGiveUp
  have hbegin := Custody.safe_call (w := services) (E := OneByOne) (c := .begin)
    (Q := fun x s => Opening jobID (s.own i) ∧ ∀ tx, x = .ok tx → Drafted i tx jobID 0 s)
    (opening_stable i jobID) ?_ ?_ hs
  · refine safe_mono hbegin ?_
    rintro x s ⟨hsound, hopen, hdraft⟩
    change Except DbError Conn at x
    cases x with
    | error e => exact unoccupied_of_opening ⟨hsound, hopen⟩
    | ok tx =>
      apply tries_bind
      apply tries_lift
      refine safe_mono (texts_safe edits ⟨hsound, hdraft tx rfl⟩) ?_
      intro x s hx
      cases x with
      | error resp =>
        have hrollback := Custody.safe_call (w := services) (E := OneByOne) (c := .rollback tx)
          (Q := fun _ s => Opening jobID (s.own i)) (drafting_stable i tx jobID)
          (fun _ => opening_stable i jobID) (fun s o hsound hdraft _ => rollback_kept hsound hdraft) hx
        apply tries_bind
        apply tries_lift
        refine safe_mono hrollback fun _ s hs => ?_
        exact fun s' hr => unoccupied_of_opening (Custody.stable_rely (opening_stable i jobID) hr hs)
      | ok u =>
        apply tries_orGiveUp
        refine safe_mono (commit_safe hid (Nat.add_pos_right 0 hedits) hx) ?_
        intro x s hx
        cases x with
        | error e => exact unoccupied_of_opening hx
        | ok u => exact hx
  · intro x s s' hsound hlater hspared hx
    exact ⟨opening_stable i jobID s s' hsound hlater hspared hx.1, fun tx htx =>
      drafted_stable i tx jobID 0 s s' hsound hlater hspared (hx.2 tx htx)⟩
  · intro s o hsound hopen _
    obtain ⟨hkept, hdraft⟩ := begin_kept (o := o) hsound hopen
    exact ⟨hkept, opening_after hopen nofun nofun nofun, hdraft⟩

/-- What comes after the commit. -/
theorem resynthesis_tries {job : Job} (hid : uuidIn jobID = some id)
    (hs : custody.sound s ∧ Edited i id s) :
    tries services OneByOne (custody.pact services) i (do
      let segments ← gateway.selectSegments jobID
      let _ ← ExceptT.lift (ask (.exec none (.setStage jobID .transcribed)))
      gateway.publishTranscript jobID job segments
      return (⟨200, .transcript segments⟩ : gateway.Response))
      (fun _ s => custody.sound s ∧ Unoccupied i s) (fun _ s => custody.sound s ∧ Unoccupied i s) s := by
  have hdone : custody.Stable i (Unoccupied i) :=
    stable_own (fun h => ∀ id, ¬ Editing h id) i
  apply tries_bind
  apply tries_orGiveUp
  have hselect := Custody.safe_call (w := services) (E := OneByOne)
    (c := .query none (.segments jobID))
    (Q := fun x s => ∃ rows, x = .ok rows ∧ Edited i id s ∧ Listed id rows s.state)
    (edited_stable i id) ?_ ?_ hs
  · refine safe_mono hselect ?_
    rintro x s ⟨hsound, rows, rfl, hlisted⟩
    apply tries_bind
    apply tries_lift
    have hstage := Custody.safe_call (w := services) (E := OneByOne)
      (c := .exec none (.setStage jobID .transcribed))
      (Q := fun _ s => Edited i id s ∧ Listed id rows s.state) (listed_stable i id rows)
      (fun _ => listed_stable i id rows) ?_ ⟨hsound, hlisted⟩
    · refine safe_mono hstage ?_
      intro _ s hs
      apply tries_bind
      apply tries_orGiveUp
      have hpublish := Custody.safe_call (w := services) (E := OneByOne)
        (c := .publish gateway.transcriptQueue
          ((gateway.transcriptMessage jobID job rows).encode TranscriptPayload.encode))
        (Q := fun _ s => Unoccupied i s) (listed_stable i id rows) (fun _ => hdone) ?_ hs
      · refine safe_mono hpublish ?_
        intro x s hx
        change Except String Unit at x
        cases x with
        | error e => exact hx
        | ok u => exact fun s' hr => Custody.stable_rely hdone hr hx
      · intro s o hsound hlisted ho
        exact publish_kept hsound hlisted.1 hlisted.2 hid (ho.1.succeeds rfl)
    · intro s o hsound hlisted _
      obtain ⟨hkept, hedited, hsegments⟩ := stage_kept (o := o) hsound hlisted.1 .transcribed
      refine ⟨hkept, hedited, ?_⟩
      unfold Listed
      rw [hsegments]
      exact hlisted.2
  · intro x s s' hsound hlater hspared hx
    obtain ⟨rows, hrows, hlisted⟩ := hx
    exact ⟨rows, hrows, listed_stable i id rows s s' hsound hlater hspared hlisted⟩
  · intro s o hsound hedited ho
    obtain ⟨hkept, rows, hanswer, hedited', hlisted⟩ :=
      select_kept hsound hedited hid (ho.1.succeeds trivial)
    exact ⟨hkept, rows, hanswer, hedited', hlisted⟩

/-- An `UpdateTranscript` has no job in its hands when it ends. -/
theorem edit_safe (r : gateway.Request) (hs : custody.sound s) (hown : s.own i = []) :
    safe services OneByOne (custody.pact services) i (gateway.updateTranscript r)
      (fun _ s => custody.sound s ∧ Unoccupied i s) s := by
  have hopen : custody.sound s ∧ Opening (r.urlParam "id") (s.own i) :=
    ⟨hs, hown ▸ opening_nil _⟩
  have hstable := opening_stable i (r.urlParam "id")
  have hgiveup : ∀ s, custody.sound s ∧ Opening (r.urlParam "id") (s.own i) →
      custody.sound s ∧ Unoccupied i s := fun s hs => unoccupied_of_opening hs
  unfold gateway.updateTranscript
  apply safe_finish
  apply tries_bind
  refine tries_mono (Custody.tries_some hstable hopen hgiveup) (fun _ _ h => h) ?_
  rintro claims s ⟨-, hopen⟩
  apply tries_bind
  refine tries_mono (Custody.tries_unless hstable hopen hgiveup) (fun _ _ h => h) ?_
  rintro _ s ⟨-, hopen⟩
  apply tries_bind
  refine tries_mono (Custody.tries_some hstable hopen hgiveup) (fun _ _ h => h) ?_
  rintro edits s ⟨-, hopen⟩
  apply tries_bind
  refine tries_mono (Custody.tries_unless hstable hopen hgiveup) (fun _ _ h => h) ?_
  rintro _ s ⟨hlength, hopen⟩
  have hedits : 0 < edits.length := Nat.pos_of_ne_zero (by simpa using hlength)
  apply tries_bind
  refine tries_mono (ownedJob_tries hopen) (fun _ _ h => h) ?_
  rintro job s ⟨⟨id, hid⟩, hopen⟩
  apply tries_bind
  refine tries_mono (saveEdits_tries hid hedits hopen) (fun _ _ h => h) ?_
  intro _ s hedited
  exact resynthesis_tries hid hedited

end Requests

end recast_rules.spoken_texts
