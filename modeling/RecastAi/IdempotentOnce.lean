-- How often a repeated request reaches the handler. Nothing is kept of a
-- request that is in progress, so the handler succeeds at most once only as
-- far as the requests do not overlap.
import RecastAi.IdempotentReplay

open call_programs redis
open recast_rules.transcript (Json)

namespace recast_rules.idempotent

/-! ## Repeated requests -/

/-- The request is looked up under the same key, for the same reasons. -/
structure Repeats (r r' : Request) : Prop where
  userID : r'.userID = r.userID
  method : r'.method = r.method
  path : r'.path = r.path
  key : r'.key = r.key
  body : r'.body = r.body

/-- The last step was a lookup that missed, or the handler was entered, or it succeeded and its
response is not stored yet. -/
def Underway : History → Prop
  | ⟨_, .get _, found⟩ :: _ => Missed found
  | ⟨_, .enter, _⟩ :: _ => True
  | ⟨_, .respond, written⟩ :: _ => Written.Ok written
  | _ => False

def Inside : History → Prop
  | ⟨_, .enter, _⟩ :: _ => True
  | _ => False

def Succeeds (e : Event Call Answer) : Prop :=
  ∃ (i : Nat) (written : Written), e = ⟨i, .respond, written⟩ ∧ written.Ok

/-- The handler runs to a success response at most once, no two requests are in the handler, no
request enters it after the success, and each reply is what the handler wrote for the request or
a replay of the success. -/
structure AtMostOnce (cfg : Config Call Answer (Store Json) Reply) : Prop where
  once : ∀ newer e older, cfg.shot.log = newer ++ e :: older → Succeeds e →
    ∀ e' ∈ newer, ¬ Succeeds e'
  alone : ∀ i j, Inside (cfg.shot.own i) → Inside (cfg.shot.own j) → i = j
  after : ∀ newer e older, cfg.shot.log = newer ++ e :: older → Succeeds e →
    ∀ e' ∈ newer, e'.call ≠ .enter
  replies : ∀ i reply, cfg.threads[i]? = some (.done reply) →
    (∃ written : Written, (⟨i, .respond, written⟩ : Event Call Answer) ∈ cfg.shot.log ∧
      reply = ⟨sentBy written.acts, false⟩) ∨
    ∃ (j : Nat) (written : Written), (⟨j, .respond, written⟩ : Event Call Answer) ∈ cfg.shot.log ∧
      written.Ok ∧ reply = ⟨sentBy written.acts, true⟩

/-- Redis answers, a request is looked up within a day from the first, and while no other one is
underway. -/
def OneAtATime (start : Nat) (s : Shot Call Answer (Store Json)) (i : Nat) (c : Call)
    (o : Choice) : Prop :=
  match c with
  | .get _ => o.fault = none ∧ s.state.now + o.wait < start + idempotencyTTL * 1000 ∧
      ∀ j, j ≠ i → ¬ Underway (s.own j)
  | .set _ _ _ => o.fault = none
  | _ => True

/-! ## The invariant -/

section Repeated

variable {sum256 : Bytes → Vector UInt8 32} {requests : List Request} {r : Request} {body : Bytes}
  {start : Nat} {s : Shot Call Answer (Store Json)} {i : Nat} {c : Call} {o : Choice}

/-- The cache has a record for the key until a day from the start at least. -/
def Kept (start : Nat) (redisKey : String) (s : Store Json) : Prop :=
  ∃ e t rec_, s.entries redisKey = some e ∧ e.expiresAt = some t ∧
    start + idempotencyTTL * 1000 ≤ t ∧ IdempotentRecord.decode e.value = some rec_

structure Exclusive (start : Nat) (redisKey : String) (s : Shot Call Answer (Store Json)) :
    Prop where
  later : start ≤ s.state.now
  alone : ∀ i j, Underway (s.own i) → Underway (s.own j) → i = j
  sole : ∀ i e, Underway (s.own i) → e ∈ s.log → Succeeds e → e.thread = i
  kept : ∀ e ∈ s.log, Succeeds e → Underway (s.own e.thread) ∨ Kept start redisKey s.state
  once : ∀ newer e older, s.log = newer ++ e :: older → Succeeds e → ∀ e' ∈ newer, ¬ Succeeds e'
  after : ∀ newer e older, s.log = newer ++ e :: older → Succeeds e →
    ∀ e' ∈ newer, e'.call ≠ .enter

theorem looksUp_of_repeats {r' : Request} (h : Repeats r r') (hlooks : LooksUp r body) :
    LooksUp r' body := by
  obtain ⟨hkeyed, hread, hsmall⟩ := hlooks
  refine ⟨?_, h.body.trans hread, hsmall⟩
  unfold Request.Keyed at hkeyed ⊢
  rw [h.key, h.method]
  exact hkeyed

theorem no_bypass (hsame : ∀ r' ∈ requests, Repeats r r') (hlooks : LooksUp r body) :
    ¬ Bypasses requests i := by
  rintro ⟨r', hr', hno⟩
  exact hno body (looksUp_of_repeats (hsame r' (List.mem_of_getElem? hr')) hlooks)

theorem one_key (hsame : ∀ r' ∈ requests, Repeats r r') (hlooks : LooksUp r body) {key : String}
    (h : KeyOf sum256 requests i key) : key = r.redisKey sum256 body := by
  obtain ⟨r', body', hr', hlooks', rfl⟩ := h
  have hrep := hsame r' (List.mem_of_getElem? hr')
  have hbody : body' = body := by
    have hread := (looksUp_of_repeats hrep hlooks).read
    rw [hlooks'.read] at hread
    exact Except.ok.inj hread
  unfold Request.redisKey
  rw [hrep.userID, hrep.method, hrep.path, hrep.key, hbody]

/-! ## One step -/

/-- What a step is, for a request of the key that takes its turn. -/
inductive Turn (start : Nat) (redisKey : String) (s : Shot Call Answer (Store Json)) (i : Nat)
    (o : Choice) : Call → Prop where
  | get (fresh : s.own i = []) (answered : o.fault = none)
      (early : s.state.now + o.wait < start + idempotencyTTL * 1000)
      (alone : ∀ j, j ≠ i → ¬ Underway (s.own j)) : Turn start redisKey s i o (.get redisKey)
  | enter (key : String) (found : Except Failure (Option Json)) (missed : Missed found)
      (looked : s.own i = [⟨i, .get key, found⟩]) : Turn start redisKey s i o .enter
  | respond (before : History) (entered : s.own i = ⟨i, .enter, ()⟩ :: before)
      (silent : ∀ e ∈ before, ¬ Succeeds e) : Turn start redisKey s i o .respond
  | set (written : Written) (before : History) (ok : written.Ok) (answered : o.fault = none)
      (responded : s.own i = ⟨i, .respond, written⟩ :: before) :
      Turn start redisKey s i o (.set redisKey written.envelope.encode idempotencyTTL)

theorem not_succeeds_get {k : String} {found : Except Failure (Option Json)} :
    ¬ Succeeds (⟨i, .get k, found⟩ : Event Call Answer) := by
  rintro ⟨j, written, he, -⟩
  cases (Event.mk.inj he).2.1

theorem turn_of_due (hsame : ∀ r' ∈ requests, Repeats r r') (hlooks : LooksUp r body)
    (hd : Due sum256 requests i (s.own i) c) (hrun : OneAtATime start s i c o) :
    Turn start (r.redisKey sum256 body) s i o c := by
  cases c with
  | get key =>
    obtain ⟨hfresh, hkey⟩ := hd
    obtain ⟨hok, hearly, halone⟩ := hrun
    obtain rfl := one_key hsame hlooks hkey
    exact .get hfresh hok hearly halone
  | enter =>
    rcases hd with ⟨-, hby⟩ | ⟨key, found, hown, hmissed⟩
    · exact absurd hby (no_bypass hsame hlooks)
    · exact .enter key found hmissed hown
  | respond =>
    obtain ⟨before, hown, hbefore⟩ := hd
    refine .respond before hown fun e he => ?_
    rcases hbefore with rfl | ⟨key, found, rfl⟩
    · cases he
    · rw [List.mem_singleton.mp he]
      exact not_succeeds_get
  | set key payload seconds =>
    obtain ⟨hkey, rfl, written, before, hown, hok, rfl⟩ := hd
    obtain rfl := one_key hsame hlooks hkey
    exact .set written before hok hrun hown

theorem kept_set {key : String} {written : Written} (hok : written.Ok) (hfault : o.fault = none)
    (hlater : start ≤ s.state.now) :
    Kept start key
      (answerCall o s.state (.set key written.envelope.encode idempotencyTTL)).2 := by
  have hlands := lands_of_answered hfault
  have hentry : (answerCall o s.state (.set key written.envelope.encode idempotencyTTL)).2.entries
      key = some ⟨written.envelope.encode, some (s.state.now + o.wait + idempotencyTTL * 1000)⟩ := by
    simp [answerCall, Outcome.reply, hlands]
  have hday : start + idempotencyTTL * 1000 ≤ s.state.now + o.wait + idempotencyTTL * 1000 :=
    Nat.add_le_add_right (Nat.le_add_right_of_le hlater) _
  exact ⟨_, _, written.envelope, hentry, rfl, hday, (replayed_as_sent hok).1⟩

theorem kept_answer {key : String} (ht : Turn start key s i o c) (hlater : start ≤ s.state.now)
    (h : Kept start key s.state) : Kept start key (answerCall o s.state c).2 := by
  cases ht with
  | get => simpa only [Kept, answerCall, Outcome.reply, ite_self, wait_entries] using h
  | enter => exact h
  | respond => exact h
  | set written before hok hfault hown => exact kept_set hok hfault hlater

/-- A lookup in time finds the record. -/
theorem found_kept {key : String} (h : Kept start key s.state) (hfault : o.fault = none)
    (hearly : s.state.now + o.wait < start + idempotencyTTL * 1000) :
    ∀ found : Except Failure (Option Json),
      (answerCall o s.state (.get key)).1 = found → ¬ Missed found := by
  obtain ⟨e, t, rec_, he, ht, hday, hdecode⟩ := h
  have hlive : e.live (s.state.wait o.wait).now = true := by
    refine live_iff.mpr fun t' ht' => ?_
    rw [ht, Option.some.injEq] at ht'
    subst ht'
    exact lt_of_lt_of_le hearly hday
  have hfind : (s.state.wait o.wait).find key = some e := find_eq_some.mpr ⟨he, hlive⟩
  rintro found rfl hmissed
  have hanswer : (answerCall o s.state (.get key)).1 = Except.ok (some e.value) := by
    simp only [answerCall, Outcome.reply, hfault, Store.get, hfind, Option.map_some]
    rfl
  rw [hanswer] at hmissed
  rw [hmissed e.value rfl] at hdecode
  cases hdecode

theorem underway_of_inside {h : History} (hi : Inside h) : Underway h := by
  unfold Inside at hi
  split at hi
  · trivial
  · exact hi.elim

/-- A reply is what the handler wrote, or a replay of a success. -/
theorem reply_of_end (hsame : ∀ r' ∈ requests, Repeats r r') (hlooks : LooksUp r body)
    {picks : List (Nat × Choice)} {reply : Reply}
    (hdone : (schedule cache picks (idempotent.start sum256 start requests)).threads[i]? =
      some (.done reply)) :
    (∃ written : Written, (⟨i, .respond, written⟩ : Event Call Answer) ∈
        (schedule cache picks (idempotent.start sum256 start requests)).shot.log ∧
      reply = ⟨sentBy written.acts, false⟩) ∨
    ∃ (j : Nat) (written : Written), (⟨j, .respond, written⟩ : Event Call Answer) ∈
        (schedule cache picks (idempotent.start sum256 start requests)).shot.log ∧
      written.Ok ∧ reply = ⟨sentBy written.acts, true⟩ := by
  obtain ⟨response, replayed⟩ := reply
  cases replayed with
  | true =>
    obtain ⟨newer, older, key, found, j, written, hlog, -, -, hrespond, hok, hresponse⟩ :=
      replayed_success sum256 requests start picks hdone rfl
    refine Or.inr ⟨j, written, ?_, hok, by rw [← hresponse]⟩
    rw [hlog]
    exact List.mem_append_right _ (List.mem_cons_of_mem _ hrespond)
  | false =>
    have hends := allFollow_run (w := cache) (all_follow sum256 requests start) picks i _ hdone
    rcases hends with ⟨-, hby⟩ | ⟨written, hmem, hresponse⟩
    · exact absurd hby (no_bypass hsame hlooks)
    · exact Or.inl ⟨written, (mem_own.mp hmem).1, by rw [← hresponse]⟩

theorem own_after (s : Shot Call Answer (Store Json)) (i : Nat) (c : Call) (o : Choice) :
    (s.after cache i c o).own i = ⟨i, c, (answerCall o s.state c).1⟩ :: s.own i :=
  own_after_self cache s i c o

theorem underway_of_success
    (hs : Succeeds (⟨i, c, (answerCall o s.state c).1⟩ : Event Call Answer)) :
    Underway ((s.after cache i c o).own i) := by
  obtain ⟨i', written, heq, hok⟩ := hs
  obtain ⟨rfl, rfl, hx⟩ := Event.mk.inj heq
  rw [own_after, eq_of_heq hx]
  exact hok

/-- A thread that takes its turn has not succeeded before, unless it stores its response. -/
theorem unsuccessful {key : String} (ht : Turn start key s i o c)
    (hset : ∀ k p n, c ≠ .set k p n) {e : Event Call Answer} (he : e ∈ s.own i) : ¬ Succeeds e := by
  cases ht with
  | get hfresh =>
    rw [hfresh] at he
    cases he
  | enter k found hmissed hown =>
    rw [hown, List.mem_singleton] at he
    rw [he]
    exact not_succeeds_get
  | respond before hown hsilent =>
    rw [hown] at he
    rcases List.mem_cons.mp he with rfl | he
    · rintro ⟨j, written, heq, -⟩
      cases (Event.mk.inj heq).2.1
    · exact hsilent e he
  | set written before hok hfault hown => exact absurd rfl (hset _ _ _)

/-- A request that is underway after its turn has the handler for itself. -/
theorem apart_of_underway {key : String} (ht : Turn start key s i o c) (h : Exclusive start key s)
    (hunder : Underway ((s.after cache i c o).own i)) :
    (∀ j, j ≠ i → ¬ Underway (s.own j)) ∧ ∀ e ∈ s.log, Succeeds e → e.thread = i := by
  have hbefore : Underway (s.own i) →
      (∀ j, j ≠ i → ¬ Underway (s.own j)) ∧ ∀ e ∈ s.log, Succeeds e → e.thread = i := fun hi =>
    ⟨fun j hj hunder' => hj (h.alone j i hunder' hi), fun e he hs => h.sole i e hi he hs⟩
  rw [own_after] at hunder
  cases ht with
  | get hfresh hfault hearly halone =>
    refine ⟨halone, fun e he hs => ?_⟩
    by_contra hne
    rcases h.kept e he hs with hother | hkept
    · exact halone e.thread hne hother
    · exact found_kept hkept hfault hearly _ rfl hunder
  | enter k found hmissed hown =>
    refine hbefore ?_
    rw [hown]
    exact hmissed
  | respond before hown =>
    refine hbefore ?_
    rw [hown]
    trivial
  | set written before hok hfault hown => exact hunder.elim

theorem kept_step {key : String} (ht : Turn start key s i o c) (h : Exclusive start key s)
    {e : Event Call Answer} (he : e ∈ s.log) (hs : Succeeds e) :
    Underway ((s.after cache i c o).own e.thread) ∨
      Kept start key (s.after cache i c o).state := by
  by_cases hi : e.thread = i
  · have hown : e ∈ s.own i := mem_own.mpr ⟨he, hi⟩
    by_cases hset : ∃ k p n, c = .set k p n
    · obtain ⟨k, p, n, rfl⟩ := hset
      cases ht with
      | set written before hok hfault => exact Or.inr (kept_set hok hfault h.later)
    · exact absurd hs (unsuccessful ht (fun k p n hc => hset ⟨k, p, n, hc⟩) hown)
  · rw [own_after_ne cache s (Ne.symm hi)]
    exact (h.kept e he hs).imp_right fun hkept => kept_answer ht h.later hkept

/-- The new event is no success and enters no handler, where there was a success before. -/
theorem new_event {key : String} (ht : Turn start key s i o c) (h : Exclusive start key s)
    {e : Event Call Answer} (he : e ∈ s.log) (hs : Succeeds e) :
    ¬ Succeeds (⟨i, c, (answerCall o s.state c).1⟩ : Event Call Answer) ∧ c ≠ .enter := by
  have hnot : Underway (s.own i) → (∀ k p n, c ≠ .set k p n) → False := fun hunder hset =>
    unsuccessful ht hset (mem_own.mpr ⟨he, h.sole i e hunder he hs⟩) hs
  cases ht with
  | get => exact ⟨not_succeeds_get, by simp⟩
  | enter k found hmissed hown =>
    refine (hnot ?_ (by simp)).elim
    rw [hown]
    exact hmissed
  | respond before hown =>
    refine (hnot ?_ (by simp)).elim
    rw [hown]
    trivial
  | set written before hok hfault hown =>
    refine ⟨?_, by simp⟩
    rintro ⟨j, written', heq, -⟩
    cases (Event.mk.inj heq).2.1

/-- What is so of all that is newer than a success stays so, where the new event is so. -/
theorem newer_step {P : Event Call Answer → Prop}
    (hnew : ∀ e ∈ s.log, Succeeds e → P ⟨i, c, (answerCall o s.state c).1⟩)
    (h : ∀ newer e older, s.log = newer ++ e :: older → Succeeds e → ∀ e' ∈ newer, P e') :
    ∀ newer e older, (s.after cache i c o).log = newer ++ e :: older → Succeeds e →
      ∀ e' ∈ newer, P e' := by
  intro newer e older hsplit hs e' he'
  cases newer with
  | nil => cases he'
  | cons e₀ newer =>
    obtain ⟨rfl, hlog⟩ := List.cons.inj hsplit
    rcases List.mem_cons.mp he' with rfl | he'
    · refine hnew e ?_ hs
      rw [hlog]
      exact List.mem_append_right _ List.mem_cons_self
    · exact h newer e older hlog hs e' he'

theorem alone_step {key : String} (ht : Turn start key s i o c) (h : Exclusive start key s)
    {j k : Nat} (hj : Underway ((s.after cache i c o).own j))
    (hk : Underway ((s.after cache i c o).own k)) : j = k := by
  have hother : ∀ j, j ≠ i → (s.after cache i c o).own j = s.own j := fun j hj =>
    own_after_ne cache s (Ne.symm hj) c o
  by_cases hji : j = i
  · subst hji
    by_contra hne
    rw [hother k (Ne.symm hne)] at hk
    exact (apart_of_underway ht h hj).1 k (Ne.symm hne) hk
  · rw [hother j hji] at hj
    by_cases hki : k = i
    · subst hki
      exact absurd hj ((apart_of_underway ht h hk).1 j hji)
    · rw [hother k hki] at hk
      exact h.alone j k hj hk

theorem sole_step {key : String} (ht : Turn start key s i o c) (h : Exclusive start key s)
    {j : Nat} {e : Event Call Answer} (hj : Underway ((s.after cache i c o).own j))
    (he : e ∈ (s.after cache i c o).log) (hs : Succeeds e) : e.thread = j := by
  rcases Shot.mem_after.mp he with rfl | hold
  · exact alone_step ht h (underway_of_success hs) hj
  · by_cases hji : j = i
    · subst hji
      exact (apart_of_underway ht h hj).2 e hold hs
    · rw [own_after_ne cache s (Ne.symm hji)] at hj
      exact h.sole j e hj hold hs

/-- The step lemma. -/
theorem exclusive_step {key : String} (ht : Turn start key s i o c) (h : Exclusive start key s) :
    Exclusive start key (s.after cache i c o) where
  later := by
    have hnow : s.state.now ≤ (answerCall o s.state c).2.now := by
      cases ht with
      | get => simp [answerCall, Outcome.reply]
      | enter => simp [answerCall]
      | respond => simp [answerCall]
      | set =>
        simp only [answerCall, Outcome.reply]
        split <;> simp
    exact h.later.trans hnow
  alone _ _ hj hk := alone_step ht h hj hk
  sole _ _ hj he hs := sole_step ht h hj he hs
  kept e he hs := by
    rcases Shot.mem_after.mp he with rfl | hold
    · exact Or.inl (underway_of_success hs)
    · exact kept_step ht h hold hs
  once := newer_step (P := fun e => ¬ Succeeds e) (fun _ he hs => (new_event ht h he hs).1) h.once
  after := newer_step (P := fun e => e.call ≠ .enter) (fun _ he hs => (new_event ht h he hs).2)
    h.after

theorem exclusive_start (start : Nat) (key : String) :
    Exclusive start key ⟨⟨start, fun _ => none⟩, []⟩ :=
  ⟨le_refl _, fun _ _ h => h.elim, fun _ _ h => h.elim, fun _ h => (List.not_mem_nil h).elim,
    fun _ _ _ h => by simp at h, fun _ _ _ h => by simp at h⟩

/-- The law: where Redis answers, and a request is looked up only while no other one is underway,
the handler succeeds at most once and the success is what the others are given. -/
theorem the_handler_succeeds_at_most_once_while (sum256 : Bytes → Vector UInt8 32) (r : Request)
    (body : Bytes) (hlooks : LooksUp r body) (requests : List Request)
    (hsame : ∀ r' ∈ requests, Repeats r r') (now : Nat) (picks : List (Nat × Choice))
    (hrun : Allowed cache (OneAtATime now) picks (idempotent.start sum256 now requests)) :
    AtMostOnce (schedule cache picks (idempotent.start sum256 now requests)) := by
  have hexclusive : Exclusive now (r.redisKey sum256 body)
      (schedule cache picks (idempotent.start sum256 now requests)).shot :=
    invariant_along (fun s i c o hone hd h => exclusive_step (turn_of_due hsame hlooks hd hone) h)
      (all_follow sum256 requests now) (exclusive_start now _) hrun
  refine ⟨hexclusive.once, fun i j hi hj => ?_, hexclusive.after, fun i reply hdone => ?_⟩
  · exact hexclusive.alone i j (underway_of_inside hi) (underway_of_inside hj)
  · exact reply_of_end hsame hlooks hdone

end Repeated

/-! ## A job that is created twice -/

def adasJob : Request where
  claims := some adasClaims
  method := "POST"
  path := "/v1/jobs"
  key := "upload-1"
  body := .ok []

def created : Written := .json 201 [0x7b, 0x7d, 0x0a]

theorem adasJob_looksUp : LooksUp adasJob [] := ⟨by decide, rfl, Nat.zero_le _⟩

theorem adasJob_repeats : ∀ r' ∈ [adasJob, adasJob], Repeats adasJob r' := by
  intro r' hr'
  obtain rfl : r' = adasJob := by simpa using hr'
  exact ⟨rfl, rfl, rfl, rfl, rfl⟩

/-- The first request is answered and stored before it is sent again. -/
def inTurn : List (Nat × Choice) :=
  [(0, {}), (0, {}), (0, { written := created }), (0, {}), (1, {})]

theorem inTurn_one_at_a_time :
    Allowed cache (OneAtATime 0) inTurn (start sumOfEmpty 0 [adasJob, adasJob]) := by
  have hthreads : (schedule cache (inTurn.take 4)
      (start sumOfEmpty 0 [adasJob, adasJob])).shot.log.map (·.thread) = List.replicate 4 0 := by
    with_unfolding_all rfl
  have hidle : ∀ j, j ≠ 1 → ¬ Underway ((schedule cache (inTurn.take 4)
      (start sumOfEmpty 0 [adasJob, adasJob])).shot.own j) := by
    intro j hj hunder
    by_cases h0 : j = 0
    · subst h0
      with_unfolding_all exact hunder
    · have hnone : (schedule cache (inTurn.take 4)
          (start sumOfEmpty 0 [adasJob, adasJob])).shot.own j = [] := by
        refine List.filter_eq_nil_iff.mpr fun e he => ?_
        have hthread := List.mem_map_of_mem (f := (·.thread)) he
        rw [hthreads] at hthread
        simp [List.eq_of_mem_replicate hthread, Ne.symm h0]
      rw [hnone] at hunder
      exact hunder
  refine ⟨⟨rfl, by decide, fun _ _ h => h⟩, trivial, trivial, rfl, ⟨rfl, by decide, hidle⟩, trivial⟩

theorem adas_job_is_created_once :
    (schedule cache inTurn (start sumOfEmpty 0 [adasJob, adasJob])).threads =
        [.done ⟨sentBy created.acts, false⟩, .done ⟨sentBy created.acts, true⟩] ∧
      AtMostOnce (schedule cache inTurn (start sumOfEmpty 0 [adasJob, adasJob])) :=
  ⟨by with_unfolding_all rfl, the_handler_succeeds_at_most_once_while sumOfEmpty adasJob []
    adasJob_looksUp _ adasJob_repeats 0 inTurn inTurn_one_at_a_time⟩

/-- The request is sent again while the first is in the handler. -/
def overlapping : List (Nat × Choice) :=
  [(0, {}), (1, {}), (0, {}), (1, {}), (0, { written := created }), (1, { written := created }),
    (0, {}), (1, {})]

/-- Both run the handler, and both create a job. -/
theorem a_job_is_created_twice :
    let cfg := schedule cache overlapping (start sumOfEmpty 0 [adasJob, adasJob])
    cfg.threads = [.done ⟨sentBy created.acts, false⟩, .done ⟨sentBy created.acts, false⟩] ∧
      ¬ AtMostOnce cfg := by
  intro cfg
  refine ⟨by with_unfolding_all rfl, fun h => ?_⟩
  have hlog : cfg.shot.log =
      cfg.shot.log.take 3 ++ ⟨0, .respond, created⟩ :: cfg.shot.log.drop 4 := by
    with_unfolding_all rfl
  have hmem : (⟨1, .respond, created⟩ : Event Call Answer) ∈ cfg.shot.log.take 3 :=
    List.mem_of_getElem? (i := 2) (by with_unfolding_all rfl)
  exact h.once _ _ _ hlog ⟨0, created, rfl, by decide⟩ _ hmem ⟨1, created, rfl, by decide⟩

end recast_rules.idempotent
