-- Requests to complete one upload that run at once. Nothing claims the upload,
-- so two of them can both publish a message. It becomes one job where a request
-- that has listed the chunks purges them only if no other one did since then.
import RecastAi.UploadAssembly

open call_programs go_text

namespace recast_rules.upload_service

/-! ## What the log tells -/

def Call.lists : Call → Bool
  | .listChunks _ => true
  | _ => false

def Call.purges : Call → Bool
  | .purge _ => true
  | _ => false

def Call.publishes : Call → Bool
  | .publish _ _ => true
  | _ => false

abbrev Log := List (Event Call Answer)

/-- Request `i` listed the chunks after some request had purged them. -/
def ListedLate (i : Nat) : Log → Prop
  | [] => False
  | e :: older =>
    (e.thread = i ∧ e.call.lists = true ∧ ∃ p ∈ older, p.call.purges = true) ∨ ListedLate i older

/-- Some request has purged the chunks since request `i` listed them. -/
def PurgedSince (i : Nat) : Log → Prop
  | [] => False
  | e :: older =>
    ¬(e.thread = i ∧ e.call.lists = true) ∧ (e.call.purges = true ∨ PurgedSince i older)

instance decidePurgedSince (i : Nat) : (log : Log) → Decidable (PurgedSince i log)
  | [] => isFalse id
  | e :: older =>
    have := decidePurgedSince i older
    inferInstanceAs (Decidable (¬(e.thread = i ∧ e.call.lists = true) ∧
      (e.call.purges = true ∨ PurgedSince i older)))

theorem listedLate_skip {i : Nat} {new log : Log} (h : ∀ e ∈ new, e.thread ≠ i) :
    ListedLate i (new ++ log) ↔ ListedLate i log := by
  induction new with
  | nil => rfl
  | cons e new ih =>
    have hne : e.thread ≠ i := h e List.mem_cons_self
    simp only [List.cons_append, ListedLate, hne, false_and, false_or]
    exact ih fun x hx => h x (List.mem_cons_of_mem _ hx)

theorem listedLate_own {i : Nat} {log : Log} (h : ListedLate i log) :
    ∃ e ∈ log, e.thread = i ∧ e.call.lists = true := by
  induction log with
  | nil => exact h.elim
  | cons e log ih =>
    rcases h with h | h
    · exact ⟨e, List.mem_cons_self, h.1, h.2.1⟩
    · obtain ⟨x, hx, hi⟩ := ih h
      exact ⟨x, List.mem_cons_of_mem _ hx, hi⟩

/-- No purge before the listing and none since: no purge at all. -/
theorem no_purge {i : Nat} {log : Log} (hlist : ∃ e ∈ log, e.thread = i ∧ e.call.lists = true)
    (hlate : ¬ListedLate i log) (hsince : ¬PurgedSince i log) :
    ∀ e ∈ log, e.call.purges = false := by
  induction log with
  | nil => exact fun e he => nomatch he
  | cons x log ih =>
    have hx : x.call.lists = true → x.call.purges = false := by
      intro h
      cases hc : x.call with
      | listChunks id => rfl
      | _ => rw [hc] at h; cases h
    simp only [ListedLate, not_or] at hlate
    by_cases hmine : x.thread = i ∧ x.call.lists = true
    · intro e he
      rcases List.mem_cons.mp he with rfl | he
      · exact hx hmine.2
      · by_contra hp
        exact hlate.1 ⟨hmine.1, hmine.2, e, he, by simpa using hp⟩
    · simp only [PurgedSince, hmine, not_false_iff, true_and, not_or] at hsince
      have hrest : ∃ e ∈ log, e.thread = i ∧ e.call.lists = true := by
        obtain ⟨e, he, hi⟩ := hlist
        rcases List.mem_cons.mp he with rfl | he
        · exact absurd hi hmine
        · exact ⟨e, he, hi⟩
      intro e he
      rcases List.mem_cons.mp he with rfl | he
      · simpa using hsince.1
      · exact ih hrest hlate.2 hsince.2 e he

/-! ## Promises -/

/-- The upload cannot be put together any more: nothing is recorded of it, or a recorded
chunk has no object. -/
def Spent (u : String) (s : Uploads) : Prop :=
  s.chunks u = ∅ ∨ ∃ n ∈ (s.chunks u).keys, s.objects (chunkKey u n) = none

/-- What a request to complete the upload does, told by what was answered to it. -/
def Due (u : String) (s : Snap) (i : Nat) : Call → Prop
  | .recordChunk _ _ _ => False
  | .upload key _ _ => ∀ n, chunkKey u n ≠ key
  | .purge id => id = u ∧ (∃ e ∈ s.own i, e.call.lists = true) ∧ ¬ListedLate i s.log
  | .publish _ _ => (∃ e ∈ s.own i, e.call.purges = true) ∧
      ∀ e ∈ s.own i, e.call.publishes = false
  | _ => True

/-- A request purges the chunks only if no request has purged them since its own listing, and
its purge takes effect, unless a recorded chunk is gone from the store already. -/
def OneAtATime (u : String) (s : Snap) (i : Nat) : Call → Outcome → Prop
  | .purge _, o => ¬PurgedSince i s.log ∧ (landed o = true ∨ Spent u s.state)
  | _, _ => True

/-- A chunk object that is gone stays gone. -/
def Gone (u : String) (s s' : Uploads) : Prop :=
  ∀ n, s.objects (chunkKey u n) = none → s'.objects (chunkKey u n) = none

structure OneJob (u : String) (sent : Nat) (s : Snap) : Prop where
  spent : (∃ e ∈ s.log, e.call.purges = true) → Spent u s.state
  one_purge : (s.log.filter (·.call.purges)).length ≤ 1
  one_publish : (s.log.filter (·.call.publishes)).length ≤ 1
  purged : ∀ e ∈ s.log, e.call.publishes = true →
    ∃ p ∈ s.log, p.call.purges = true ∧ p.thread = e.thread
  sent : s.state.published.length ≤ sent + (s.log.filter (·.call.publishes)).length

theorem gone_step {u : String} {s : Snap} {i : Nat} {c : Call} (o : Outcome) (hd : Due u s i c) :
    Gone u s.state (answerCall o s.state c).2 := by
  intro n hn
  cases c with
  | recordChunk id j size => exact hd.elim
  | upload key data ct =>
    simp only [answerCall]
    split
    · exact (setAt_ne _ _ (hd n)).trans hn
    · exact hn
  | delete key =>
    simp only [answerCall]
    split
    · by_cases hk : chunkKey u n = key
      · rw [hk]
        exact setAt_self _ _ _
      · exact (setAt_ne _ _ hk).trans hn
    · exact hn
  | purge id =>
    simp only [answerCall]
    split
    · exact hn
    · exact hn
  | publish q m =>
    simp only [answerCall]
    split
    · exact hn
    · exact hn
  | _ => exact hn

theorem spent_step {u : String} {s : Snap} {i : Nat} {c : Call} (o : Outcome) (hd : Due u s i c)
    (h : Spent u s.state) : Spent u (answerCall o s.state c).2 := by
  have hgone := gone_step o hd
  have hsame : (answerCall o s.state c).2.chunks u = s.state.chunks u →
      Spent u (answerCall o s.state c).2 := by
    intro hc
    rcases h with h | ⟨n, hn, ho⟩
    · exact Or.inl (hc.trans h)
    · exact Or.inr ⟨n, hc ▸ hn, hgone n ho⟩
  cases c with
  | recordChunk id j size => exact hd.elim
  | purge id =>
    obtain ⟨rfl, -⟩ := hd
    by_cases hl : landed o = true
    · left
      simp only [answerCall, hl, if_true]
      exact setAt_self _ _ _
    · exact hsame (by simp [answerCall, hl])
  | upload key data ct =>
    refine hsame ?_
    simp only [answerCall]
    split <;> rfl
  | delete key =>
    refine hsame ?_
    simp only [answerCall]
    split <;> rfl
  | publish q m =>
    refine hsame ?_
    simp only [answerCall]
    split <;> rfl
  | _ => exact hsame rfl

theorem filter_cons_false {p : Event Call Answer → Bool} {e : Event Call Answer} {log : Log}
    (h : p e = false) : (e :: log).filter p = log.filter p := List.filter_cons_of_neg (by simp [h])

theorem filter_cons_first {p : Event Call Answer → Bool} {e : Event Call Answer} {log : Log}
    (h : ∀ x ∈ log, p x = false) : ((e :: log).filter p).length ≤ 1 := by
  have hnil : log.filter p = [] := List.filter_eq_nil_iff.mpr fun x hx => by simp [h x hx]
  rw [List.filter_cons, hnil]
  split <;> simp

/-- Two events of a kind that has at most one are one event. -/
theorem filter_unique {p : Event Call Answer → Bool} {log : Log} {e e' : Event Call Answer}
    (h : (log.filter p).length ≤ 1) (he : e ∈ log) (he' : e' ∈ log) (hp : p e = true)
    (hp' : p e' = true) : e = e' := by
  have hm := List.mem_filter.mpr ⟨he, hp⟩
  have hm' := List.mem_filter.mpr ⟨he', hp'⟩
  match hl : log.filter p, h with
  | [], _ => rw [hl] at hm; cases hm
  | [x], _ =>
    rw [hl, List.mem_singleton] at hm hm'
    rw [hm, hm']
  | _ :: _ :: _, h => simp at h

theorem published_step (s : Uploads) (c : Call) (o : Outcome) :
    (answerCall o s c).2.published.length ≤ s.published.length + if c.publishes then 1 else 0 := by
  cases c with
  | publish q m =>
    simp only [answerCall]
    split
    · simp [Uploads.send, Call.publishes]
    · simp
  | recordChunk id i n => simp only [answerCall]; split <;> simp [Uploads.record]
  | purge id => simp only [answerCall]; split <;> simp [Uploads.clear]
  | upload key data ct => simp only [answerCall]; split <;> simp [Uploads.put]
  | delete key => simp only [answerCall]; split <;> simp [Uploads.put]
  | _ => exact Nat.le_add_right _ _

section OneStep

variable {u : String} {n : Nat} {s : Snap} {i : Nat} {c : Call} {o : Outcome}

/-- A purge took effect, or there was nothing left to put together. -/
theorem purged_is_spent (ho : OneAtATime u s i c o) (hd : Due u s i c) (h : OneJob u n s)
    (hpurged : ∃ e ∈ (s.after backends i c o).log, e.call.purges = true) :
    Spent u (s.after backends i c o).state := by
  obtain ⟨e, he, hp⟩ := hpurged
  rcases Shot.mem_after.mp he with rfl | he
  · cases c with
    | purge id =>
      rcases ho.2 with hl | hs
      · left
        obtain ⟨rfl, -⟩ := hd
        simp only [Shot.after, backends, answerCall, hl, if_true]
        exact setAt_self _ _ _
      · exact spent_step o hd hs
    | _ => cases hp
  · exact spent_step o hd (h.spent ⟨e, he, hp⟩)

theorem one_purge_step (ho : OneAtATime u s i c o) (hd : Due u s i c) (h : OneJob u n s) :
    ((s.after backends i c o).log.filter (·.call.purges)).length ≤ 1 := by
  by_cases hp : c.purges = true
  · cases c with
    | purge id =>
      obtain ⟨-, ⟨e, he, hl⟩, hlate⟩ := hd
      rw [mem_own] at he
      exact filter_cons_first (no_purge ⟨e, he.1, he.2, hl⟩ hlate ho.1)
    | _ => cases hp
  · exact (congrArg List.length (filter_cons_false (by simpa using hp))).le.trans h.one_purge

theorem one_publish_step (hd : Due u s i c) (h : OneJob u n s) :
    ((s.after backends i c o).log.filter (·.call.publishes)).length ≤ 1 := by
  by_cases hp : c.publishes = true
  · cases c with
    | publish q m =>
      obtain ⟨⟨p, hp, hpp⟩, hnone⟩ := hd
      rw [mem_own] at hp
      refine filter_cons_first fun e he => ?_
      by_contra hpub
      -- whoever published has purged, and only this request did
      obtain ⟨p', hp', hpp', hi⟩ := h.purged e he (by simpa using hpub)
      have hsame : p' = p := filter_unique h.one_purge hp' hp.1 hpp' hpp
      have hmine : e.thread = i := by rw [← hi, hsame, hp.2]
      exact hpub (hnone e (mem_own.mpr ⟨he, hmine⟩))
    | _ => cases hp
  · exact (congrArg List.length (filter_cons_false (by simpa using hp))).le.trans h.one_publish

/-- Whoever publishes has purged. -/
theorem published_has_purged (hd : Due u s i c) (h : OneJob u n s) {e : Event Call Answer}
    (he : e ∈ (s.after backends i c o).log) (hp : e.call.publishes = true) :
    ∃ p ∈ (s.after backends i c o).log, p.call.purges = true ∧ p.thread = e.thread := by
  rcases Shot.mem_after.mp he with rfl | he
  · cases c with
    | publish q m =>
      obtain ⟨⟨p, hp, hpp⟩, -⟩ := hd
      rw [mem_own] at hp
      exact ⟨p, List.mem_cons_of_mem _ hp.1, hpp, hp.2⟩
    | _ => cases hp
  · obtain ⟨p, hp, hpp, hi⟩ := h.purged e he hp
    exact ⟨p, List.mem_cons_of_mem _ hp, hpp, hi⟩

theorem sent_after (h : OneJob u n s) : (s.after backends i c o).state.published.length ≤
    n + ((s.after backends i c o).log.filter (·.call.publishes)).length := by
  have hstep := published_step s.state c o
  have hsent := h.sent
  have hlog : ((s.after backends i c o).log.filter (·.call.publishes)).length =
      (s.log.filter (·.call.publishes)).length + if c.publishes then 1 else 0 := by
    simp only [Shot.after, List.filter_cons]
    split <;> simp
  rw [hlog]
  simp only [Shot.after, backends]
  omega

theorem oneJob_step (ho : OneAtATime u s i c o) (hd : Due u s i c) (h : OneJob u n s) :
    OneJob u n (s.after backends i c o) where
  spent := purged_is_spent ho hd h
  one_purge := one_purge_step ho hd h
  one_publish := one_publish_step hd h
  purged _ he hp := published_has_purged hd h he hp
  sent := sent_after h

end OneStep

/-- The promise of every request: its calls are due. The others rely on what follows. -/
def turns (u : String) (n : Nat) : Pact Snap where
  guar i s s' := ∃ c o, OneAtATime u s i c o ∧ Due u s i c ∧ s' = s.after backends i c o
  rely i s s' := Later i s s' ∧ Gone u s.state s'.state ∧ (OneJob u n s → OneJob u n s')
  rely_refl _ _ := ⟨⟨List.suffix_rfl, rfl⟩, fun _ h => h, id⟩
  rely_trans _ _ _ _ h h' := ⟨⟨h.1.log.trans h'.1.log, h'.1.own.trans h.1.own⟩,
    fun k hk => h'.2.1 k (h.2.1 k hk), h'.2.2 ∘ h.2.2⟩
  guar_rely := by
    rintro i j s s' hij ⟨c, o, ho, hd, rfl⟩
    exact ⟨⟨s.log_after .., own_after_ne backends s (Ne.symm hij) c o⟩, gone_step o hd,
      oneJob_step ho hd⟩

/-! ## A request to complete -/

section Request

variable {α : Type} {u : String} {n i : Nat}

/-- The request has listed the chunks, in time, and it has published nothing. -/
structure Early (i : Nat) (s : Snap) : Prop where
  listed : ∃ e ∈ s.own i, e.call.lists = true
  unpublished : ∀ e ∈ s.own i, e.call.publishes = false
  on_time : ¬ListedLate i s.log

/-- One of the listed chunks has no object. -/
def Missing (u : String) (l : List Nat) (s : Snap) : Prop :=
  ∃ k ∈ l, s.state.objects (chunkKey u k) = none

/-- The request has purged, and it has published nothing. -/
structure Purged (i : Nat) (s : Snap) : Prop where
  purged : ∃ e ∈ s.own i, e.call.purges = true
  unpublished : ∀ e ∈ s.own i, e.call.publishes = false

def Published (i : Nat) (s : Snap) : Prop := ∃ e ∈ s.own i, e.call.publishes = true

theorem early_keeps {s s' : Snap} (h : Early i s) (hr : (turns u n).rely i s s') : Early i s' := by
  obtain ⟨hl, -, -⟩ := hr
  obtain ⟨new, hnew, hne⟩ := hl.gained
  refine ⟨hl.own ▸ h.listed, hl.own ▸ h.unpublished, ?_⟩
  rw [hnew, listedLate_skip hne]
  exact h.on_time

theorem missing_keeps {l : List Nat} {s s' : Snap} (h : Missing u l s)
    (hr : (turns u n).rely i s s') : Missing u l s' := by
  obtain ⟨k, hk, ho⟩ := h
  exact ⟨k, hk, hr.2.1 k ho⟩

theorem purged_keeps {s s' : Snap} (h : Purged i s) (hr : (turns u n).rely i s s') :
    Purged i s' := ⟨hr.1.own ▸ h.purged, hr.1.own ▸ h.unpublished⟩

theorem published_keeps {s s' : Snap} (h : Published i s) (hr : (turns u n).rely i s s') :
    Published i s' := by
  unfold Published
  rw [hr.1.own]
  exact h

/-- A call that is due, from a state in which `J` holds whatever the others do. -/
theorem turn_call {c : Call} {k : Answer c → Upload α} {Q : α → Snap → Prop} {s : Snap}
    {J : Snap → Prop} (hJ : J s) (hkeeps : ∀ t t', J t → (turns u n).rely i t t' → J t')
    (hdue : ∀ t, J t → Due u t i c)
    (h : ∀ (s' : Snap) o, J s' → safe backends (OneAtATime u) (turns u n) i
      (k (answerCall o s'.state c).1) Q (s'.after backends i c o)) :
    safe backends (OneAtATime u) (turns u n) i (.call c k) Q s :=
  fun s' hr o ho => ⟨⟨c, o, ho, hdue s' (hkeeps _ _ hJ hr), rfl⟩, h s' o (hkeeps _ _ hJ hr)⟩

theorem early_after {s : Snap} (h : Early i s) {c : Call} (o : Outcome) (hl : c.lists = false)
    (hp : c.publishes = false) : Early i (s.after backends i c o) := by
  obtain ⟨e, he, hel⟩ := h.listed
  refine ⟨⟨e, ?_, hel⟩, ?_, ?_⟩
  · rw [own_after_self]
    exact List.mem_cons_of_mem _ he
  · intro x hx
    rw [own_after_self] at hx
    rcases List.mem_cons.mp hx with rfl | hx
    · exact hp
    · exact h.unpublished x hx
  · rintro (⟨-, hc, -⟩ | hlate)
    · rw [hl] at hc
      cases hc
    · exact h.on_time hlate

theorem purged_after {s : Snap} (h : Purged i s) {c : Call} (o : Outcome)
    (hp : c.publishes = false) : Purged i (s.after backends i c o) := by
  obtain ⟨e, he, hep⟩ := h.purged
  refine ⟨⟨e, ?_, hep⟩, ?_⟩
  · rw [own_after_self]
    exact List.mem_cons_of_mem _ he
  · intro x hx
    rw [own_after_self] at hx
    rcases List.mem_cons.mp hx with rfl | hx
    · exact hp
    · exact h.unpublished x hx

theorem reads_due {c : Call} (hc : c.Reads u) (s : Snap) :
    Due u s i c ∧ c.lists = false ∧ c.publishes = false := by
  cases c with
  | totalSize id => exact ⟨trivial, rfl, rfl⟩
  | download key => exact ⟨trivial, rfl, rfl⟩
  | file op => exact ⟨trivial, rfl, rfl⟩
  | probe data => exact ⟨trivial, rfl, rfl⟩
  | _ => exact hc.elim

/-- A request that is in time stays so while it only reads. -/
theorem assemble_early (ext : String) (l : List Nat) {s : Snap} (h : Early i s) :
    tries backends (OneAtATime u) (turns u n) i (assemble u ext l)
      (fun resp _ => resp.status ≠ 202) (fun _ s' => Early i s') s := by
  refine safe_mono (safe_only (J := Early i) (assemble_reads u ext l) h
    (fun _ _ hr h => early_keeps h hr) ?_) ?_
  · intro s' c o hc ho hs
    obtain ⟨hd, hl, hp⟩ := reads_due hc s'
    exact ⟨⟨c, o, ho, hd, rfl⟩, early_after hs o hl hp⟩
  · rintro x s' ⟨hx, hs⟩
    cases x with
    | error e => exact hx
    | ok a => exact hs

/-- Where a listed chunk is gone, the copy loop does not get to its end. -/
theorem copyChunks_missing (l : List Nat) (written : Bytes) {s : Snap} (h : Missing u l s) :
    safe backends (OneAtATime u) (turns u n) i (copyChunks u written l)
      (fun x _ => ∀ data, x ≠ .ok data) s := by
  induction l generalizing written s with
  | nil =>
    obtain ⟨k, hk, -⟩ := h
    cases hk
  | cons j l ih =>
    refine turn_call h (fun _ _ => missing_keeps) (fun _ _ => trivial) fun s₁ o₁ h₁ => ?_
    by_cases hj : s₁.state.objects (chunkKey u j) = none
    · simp only [answerCall, hj]
      exact fun _ _ _ => by simp
    · have hrest : Missing u l s₁ := by
        obtain ⟨k, hk, ho⟩ := h₁
        rcases List.mem_cons.mp hk with rfl | hk
        · exact absurd ho hj
        · exact ⟨k, hk, ho⟩
      generalize (answerCall o₁ s₁.state (.download (chunkKey u j))).1 = x
      cases x with
      | error e => exact fun _ _ _ => by simp
      | ok data =>
        refine turn_call hrest (fun _ _ => missing_keeps) (fun _ _ => trivial) fun s₂ o₂ h₂ => ?_
        generalize (answerCall o₂ s₂.state (.file .copy)).1 = x
        cases x with
        | error e => exact fun _ _ _ => by simp
        | ok _ =>
          refine turn_call h₂ (fun _ _ => missing_keeps) (fun _ _ => trivial)
            fun s₃ o₃ h₃ => ?_
          generalize (answerCall o₃ s₃.state (.file .closeReader)).1 = x
          cases x with
          | error e => exact fun _ _ _ => by simp
          | ok _ => exact ih _ h₃

theorem assemble_missing (ext : String) (l : List Nat) {s : Snap} (h : Missing u l s) :
    tries backends (OneAtATime u) (turns u n) i (assemble u ext l)
      (fun resp _ => resp.status ≠ 202) (fun _ _ => False) s := by
  unfold assemble
  refine orFail_bind (fun _ => by decide) (turn_call h (fun _ _ => missing_keeps)
    (fun _ _ => trivial) fun s₁ o₁ h₁ => fun s₂ r₂ total _ => ?_)
  have h₂ : Missing u l s₂ :=
    missing_keeps (show Missing u l (s₁.after backends i (.totalSize u) o₁) from h₁) r₂
  refine refuseIf_bind (fun _ => by decide) fun _ => ?_
  refine orFail_bind (fun _ => by decide) (turn_call h₂ (fun _ _ => missing_keeps)
    (fun _ _ => trivial) fun s₃ o₃ h₃ => fun s₄ r₄ _ _ => ?_)
  have h₄ : Missing u l s₄ := missing_keeps
    (show Missing u l (s₃.after backends i (.file (.createTemp ("upload-*" ++ ext))) o₃) from h₃) r₄
  have hsorted : Missing u (sortInts l) s₄ := by
    obtain ⟨k, hk, ho⟩ := h₄
    exact ⟨k, (sortInts_spec l).2.mem_iff.mpr hk, ho⟩
  refine orFail_bind (fun _ => by decide)
    (safe_mono (copyChunks_missing (sortInts l) [] hsorted) fun x s₅ hx data hd => ?_)
  exact absurd hd (hx data)

theorem mem_list (m : Chunks) (order : List Nat) {k : Nat} : k ∈ m.list order ↔ k ∈ m.keys := by
  unfold Chunks.list
  split
  · rename_i hp
    exact (List.isPerm_iff.mp hp).mem_iff
  · rfl

/-- A listing that comes after a purge gives nothing, or a chunk that is gone. -/
theorem listedChunks_turn {s : Snap} (hown : s.own i = []) (hjob : OneJob u n s) :
    tries backends (OneAtATime u) (turns u n) i (listedChunks u)
      (fun resp _ => resp.status ≠ 202) (fun l s' => Early i s' ∨ Missing u l s') s := by
  unfold listedChunks
  refine orFail_bind (fun _ => by decide)
    (turn_call (J := fun t => t.own i = [] ∧ OneJob u n t) ⟨hown, hjob⟩
      (fun t t' ht hr => ⟨hr.1.own.trans ht.1, hr.2.2 ht.2⟩) (fun _ _ => trivial)
      fun s₁ o₁ h₁ => fun s₂ r₂ l hl => ?_)
  obtain ⟨hown₁, h₁⟩ := h₁
  refine refuseIf_bind (fun _ => by decide) fun hne => fun s₃ r₃ => ?_
  by_cases hp : ∃ e ∈ s₁.log, e.call.purges = true
  · -- the listing is late, and the upload is spent
    right
    have hlist : l = (s₁.state.chunks u).list o₁.order := by
      simp only [answerCall, reply] at hl
      split at hl
      · cases hl
      · exact (Except.ok.inj hl).symm
    refine missing_keeps (missing_keeps (s := s₁.after ..) ?_ r₂) r₃
    have hmem : ∀ k, k ∈ l ↔ k ∈ (s₁.state.chunks u).keys := by
      intro k
      rw [hlist]
      exact mem_list _ _
    rcases h₁.spent hp with hempty | ⟨k, hk, ho⟩
    · have hnil : l = [] := by
        refine List.eq_nil_iff_forall_not_mem.mpr fun k hk => ?_
        rw [hmem, hempty] at hk
        cases hk
      rw [hnil] at hne
      cases hne
    · exact ⟨k, (hmem k).mpr hk, ho⟩
  · left
    refine early_keeps (early_keeps (s := s₁.after ..) ⟨?_, ?_, ?_⟩ r₂) r₃
    · rw [own_after_self]
      exact ⟨_, List.mem_cons_self, rfl⟩
    · rw [own_after_self, hown₁]
      intro e he
      rw [List.mem_singleton] at he
      rw [he]
      rfl
    · rintro (⟨-, -, hpurge⟩ | hlate)
      · exact hp hpurge
      · obtain ⟨e, he, hi, -⟩ := listedLate_own hlate
        have hmem := mem_own.mpr ⟨he, hi⟩
        rw [hown₁] at hmem
        cases hmem

theorem storeFinal_early {key : String} (hkey : ∀ k, chunkKey u k ≠ key) (data : Bytes)
    (contentType : String) {s : Snap} (h : Early i s) :
    tries backends (OneAtATime u) (turns u n) i (storeFinal key data contentType)
      (fun resp _ => resp.status ≠ 202) (fun _ s' => Early i s') s := by
  unfold storeFinal
  refine orFail_bind (fun _ => by decide) (turn_call h (fun _ _ => early_keeps)
    (fun _ _ => trivial) fun s₁ o₁ h₁ => fun s₂ r₂ _ _ => ?_)
  have h₂ : Early i s₂ := early_keeps (early_after h₁ o₁ rfl rfl) r₂
  refine orFail_bind (fun _ => by decide) (turn_call h₂ (fun _ _ => early_keeps)
    (fun _ _ => trivial) fun s₃ o₃ h₃ => fun s₄ r₄ _ _ => ?_)
  have h₄ : Early i s₄ := early_keeps (early_after h₃ o₃ rfl rfl) r₄
  refine tries_orGiveUp (turn_call h₄ (fun _ _ => early_keeps) (fun _ _ => hkey)
    fun s₅ o₅ h₅ => fun s₆ r₆ => ?_)
  generalize (answerCall o₅ s₅.state (.upload key data contentType)).1 = x
  cases x with
  | error e => exact (by decide : (500 : Nat) ≠ 202)
  | ok _ => exact early_keeps (early_after h₅ o₅ rfl rfl) r₆

theorem deleteChunks_early (l : List Nat) {s : Snap} (h : Early i s) :
    safe backends (OneAtATime u) (turns u n) i (deleteChunks u l) (fun _ s' => Early i s') s := by
  induction l generalizing s with
  | nil => exact fun s' r' => early_keeps h r'
  | cons j l ih =>
    exact turn_call h (fun _ _ => early_keeps) (fun _ _ => trivial) fun s₁ o₁ h₁ =>
      ih (early_after h₁ o₁ rfl rfl)

theorem cleanUp_purges (l : List Nat) {s : Snap} (h : Early i s) :
    safe backends (OneAtATime u) (turns u n) i (cleanUp u l) (fun _ s' => Purged i s') s := by
  unfold cleanUp
  refine safe_bind (safe_mono (deleteChunks_early l h) fun _ s₁ h₁ => ?_)
  refine turn_call h₁ (fun _ _ => early_keeps) (fun _ ht => ⟨rfl, ht.listed, ht.on_time⟩)
    fun s₂ o₂ h₂ => fun s₃ r₃ => ?_
  have hafter := early_after h₂ (c := .purge u) o₂ rfl rfl
  refine purged_keeps ⟨?_, hafter.unpublished⟩ r₃
  rw [own_after_self]
  exact ⟨_, List.mem_cons_self, rfl⟩

theorem newString_purged {s : Snap} (h : Purged i s) :
    safe backends (OneAtATime u) (turns u n) i newString (fun _ s' => Purged i s') s :=
  turn_call h (fun _ _ => purged_keeps) (fun _ _ => trivial)
    fun _ o₁ h₁ => fun _ r₂ => purged_keeps (purged_after h₁ o₁ rfl) r₂

theorem reqTraceID_purged (r : Request) {s : Snap} (h : Purged i s) :
    safe backends (OneAtATime u) (turns u n) i (reqTraceID r) (fun _ s' => Purged i s') s := by
  unfold reqTraceID
  split
  · exact fun s' r' => purged_keeps h r'
  split
  · exact fun s' r' => purged_keeps h r'
  · exact newString_purged h

theorem enqueue_published (r : Request) (c : Completion) (key : String) (probe : ProbeResult)
    {s : Snap} (h : Purged i s) :
    tries backends (OneAtATime u) (turns u n) i (enqueue r c key probe)
      (fun resp _ => resp.status ≠ 202) (fun _ s' => Published i s') s := by
  unfold enqueue
  refine tries_bind (tries_lift (safe_mono (newString_purged h) fun jobID s₁ h₁ => ?_))
  refine tries_bind (tries_lift (safe_mono (reqTraceID_purged r h₁) fun traceID s₂ h₂ => ?_))
  refine tries_bind (tries_lift (safe_mono (newString_purged h₂) fun attemptID s₃ h₃ => ?_))
  refine orFail_bind (fun _ => by decide) (turn_call h₃ (fun _ _ => purged_keeps)
    (fun _ ht => ⟨ht.purged, ht.unpublished⟩) fun s₄ o₄ _ => fun s₅ r₅ _ _ => fun s₆ r₆ => ?_)
  refine published_keeps (published_keeps (s := s₄.after ..) ?_ r₅) r₆
  unfold Published
  rw [own_after_self]
  exact ⟨_, List.mem_cons_self, rfl⟩

theorem handleComplete_turn (tables : Unicode) (r : Request) (hr : requestUploadID r = u)
    {s : Snap} (hown : s.own i = []) (hjob : OneJob u n s) :
    safe backends (OneAtATime u) (turns u n) i (handleComplete tables r)
      (fun resp s' => resp.status = 202 → Published i s') s := by
  unfold handleComplete
  refine safe_finish ?_
  have hno : ∀ (e : Response) (t : Snap), e.status ≠ 202 → e.status = 202 → Published i t :=
    fun e t he h' => absurd h' he
  cases hacc : acceptComplete tables r with
  | error e => exact fun s' _ he => absurd he (acceptComplete_error hacc)
  | ok c =>
    have ha := acceptComplete_ok hacc
    have hid : c.uploadID = u := ha.uploadID.trans hr
    have hne := chunkKey_ne_finalKey ha
    rw [hid] at hne
    change tries _ _ _ i (listedChunks c.uploadID >>= _) _ _ s
    rw [hid]
    refine tries_bind (tries_mono (listedChunks_turn hown hjob) hno fun l s₁ h₁ => ?_)
    rcases h₁ with h₁ | h₁
    · refine tries_bind (tries_mono (assemble_early c.ext l h₁) hno ?_)
      rintro ⟨data, probe⟩ s₂ h₂
      refine tries_bind (tries_mono (storeFinal_early hne data c.contentType h₂) hno
        fun _ s₃ h₃ => ?_)
      refine tries_bind (tries_lift (safe_mono (cleanUp_purges l h₃) fun _ s₄ h₄ => ?_))
      exact tries_mono (enqueue_published r c (finalKeyOf c) probe h₄) hno fun _ _ h _ => h
    · exact tries_bind (tries_mono (assemble_missing c.ext l h₁) hno fun _ _ h => h.elim)

end Request

/-! ## The laws -/

/-- The requests at their start, over a service that runs. -/
def startComplete (tables : Unicode) (s : Uploads) (rs : List Request) :
    Config Call Answer Uploads Response :=
  ⟨⟨s, []⟩, rs.map (handleComplete tables)⟩

/-- At most one message was published, and at most one request was answered 202. -/
def OneJobFrom (s : Uploads) (cfg : Config Call Answer Uploads Response) : Prop :=
  cfg.shot.state.published.length ≤ s.published.length + 1 ∧
    ∀ (i j : Nat) (resp resp' : Response), cfg.threads[i]? = some (.done resp) → cfg.threads[j]? = some (.done resp') →
      resp.status = 202 → resp'.status = 202 → i = j

/-- An upload becomes one job at most, where its requests purge one at a time. -/
theorem an_upload_becomes_one_job (tables : Unicode) (u : String) (s : Uploads)
    (rs : List Request) (hrs : ∀ r ∈ rs, requestUploadID r = u) (picks : List (Nat × Outcome))
    (hE : Allowed backends (OneAtATime u) picks (startComplete tables s rs)) :
    OneJobFrom s (schedule backends picks (startComplete tables s rs)) := by
  have hjob : OneJob u s.published.length ⟨s, []⟩ := by
    refine ⟨?_, Nat.zero_le _, Nat.zero_le _, fun e he => (nomatch he), Nat.le_add_right _ _⟩
    rintro ⟨e, he, -⟩
    cases he
  have hsafe : AllSafe backends (OneAtATime u) (turns u s.published.length)
      (fun i resp s' => resp.status = 202 → Published i s') (startComplete tables s rs) := by
    intro i p hp
    simp only [startComplete, List.getElem?_map, Option.map_eq_some_iff] at hp
    obtain ⟨r, hr, rfl⟩ := hp
    exact handleComplete_turn tables r (hrs r (List.mem_of_getElem? hr)) rfl hjob
  have hstep : ∀ i (t t' : Snap), (turns u s.published.length).guar i t t' →
      OneJob u s.published.length t → OneJob u s.published.length t' := by
    rintro i t t' ⟨c, o, ho, hd, rfl⟩ ht
    exact oneJob_step ho hd ht
  obtain ⟨hrun, h⟩ := allSafe_schedule hstep hsafe hjob hE
  refine ⟨h.sent.trans (Nat.add_le_add_left h.one_publish _), ?_⟩
  intro i j resp resp' hi hj hresp hresp'
  obtain ⟨e, he, hpe⟩ := allSafe_done hrun hi hresp
  obtain ⟨e', he', hpe'⟩ := allSafe_done hrun hj hresp'
  rw [mem_own] at he he'
  have hsame := filter_unique h.one_publish he.1 he'.1 hpe hpe'
  rw [← he.2, ← he'.2, hsame]

/-- An upload with one chunk. -/
def oneChunk : Uploads :=
  (empty.put "uploads/u/chunk_0" (some ⟨[1], "application/octet-stream"⟩)).record "u" 0 1

/-- One request takes all its steps, then the other begins. -/
def byTurns : List (Nat × Outcome) := List.replicate 16 (0, ({} : Outcome)) ++ [(1, ({} : Outcome))]

/-- The second request comes when the first one is done, and finds nothing. -/
theorem an_upload_becomes_one_job_by_turns :
    OneJobFrom oneChunk (schedule backends byTurns
      (startComplete ascii oneChunk [completeRequest, completeRequest])) :=
  an_upload_becomes_one_job ascii "u" oneChunk [completeRequest, completeRequest]
    (by
      intro r hr
      simp only [List.mem_cons, List.not_mem_nil, or_false, or_self] at hr
      subst hr
      with_unfolding_all rfl) _
    (by
      unfold byTurns
      with_unfolding_all exact ⟨trivial, trivial, trivial, trivial, trivial, trivial, trivial,
        trivial, trivial, trivial, trivial, trivial, ⟨by decide, Or.inl rfl⟩, trivial, trivial,
        trivial, trivial, trivial⟩)

/-- Two requests take their steps in turn. -/
def inTurn : List (Nat × Outcome) := (List.replicate 16 [(0, ({} : Outcome)), (1, {})]).flatten

set_option maxRecDepth 2000 in
/-- Two requests that take their steps in turn both publish a message. -/
theorem two_requests_make_two_jobs :
    ¬ ∀ (tables : Unicode) (u : String) (s : Uploads) (rs : List Request)
      (picks : List (Nat × Outcome)), (∀ r ∈ rs, requestUploadID r = u) →
        OneJobFrom s (schedule backends picks (startComplete tables s rs)) := by
  intro h
  have hrun := (h ascii "u" oneChunk [completeRequest, completeRequest] inTurn (by
      intro r hr
      simp only [List.mem_cons, List.not_mem_nil, or_false, or_self] at hr
      subst hr
      with_unfolding_all rfl)).1
  have htwo : (schedule backends inTurn (startComplete ascii oneChunk
      [completeRequest, completeRequest])).shot.state.published.length = 2 := by
    with_unfolding_all rfl
  rw [htwo] at hrun
  exact absurd hrun (by decide)

end recast_rules.upload_service
