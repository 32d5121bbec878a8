-- What one step of a dutiful consumer keeps: a job has one message or one
-- consumer at a time, and its stage only moves forward.
import RecastAi.Deliveries

open call_programs recast_rules.transcript recast_rules.models recast_rules.pipeline
open recast_rules.py

namespace recast_rules.deliveries

variable {s : Snap} {i j : Nat} {c : Call} {e : Envelope} {id : String}

/-! ## The invariant -/

/-- A message of the job that may be delivered: it was not delivered before, or too little came of
it. -/
structure Waiting (s : Snap) (e : Envelope) (id : String) : Prop where
  accepted : e ∈ s.state.accepted
  job : jobOf e.queue e.body = some id
  unpublished : ¬ Published s (pairOf e.body)
  free : ∀ i, ¬ At s i e.queue e.body
  early : Seen s (pairOf e.body) → jobRank s.state.db id ≤ rank (entry e.queue)

/-- A consumer is at a message of the job. -/
def Holding (s : Snap) (i : Nat) (id : String) : Prop :=
  ∃ queue msg, At s i queue msg ∧ jobOf queue msg = some id

/-- A job has one waiting message or one consumer, and is not further than that one. -/
structure Orderly (s : Snap) : Prop where
  alone : ∀ e e' id, Waiting s e id → Waiting s e' id → e = e'
  apart : ∀ e i id, Waiting s e id → ¬ Holding s i id
  single : ∀ i j id, Holding s i id → Holding s j id → i = j
  ahead : ∀ e id, Waiting s e id → jobRank s.state.db id ≤ rank (entry e.queue)
  reached : ∀ i queue msg reached id, position (s.own i) = .on queue msg reached →
    jobOf queue msg = some id → jobRank s.state.db id ≤ reached
  keeps : ∀ i, ∀ x ∈ (s.state.sessions (.worker i)).pending, keepsJobs x.2 = true
  written : ∀ i, (s.state.sessions (.worker i)).aborted = false →
    ∀ x ∈ (s.state.sessions (.worker i)).pending, ∀ jobID stage,
      stageWrite x.2 = some (jobID, stage) → waits (.worker i) (s.own i) = true ∧
        ∃ queue msg, position (s.own i) = .on queue msg (rank stage) ∧
          uuidIn jobID = jobOf queue msg

/-! ## The ranks after the step -/

/-- A step leaves a rank alone, or it moves the job of its message forward. -/
theorem rank_after (h : Orderly s) (hd : Duty (.worker i) (s.own i) c) (o : Outcome) (id : String) :
    jobRank (services.answer o s.state c).2.db id = jobRank s.state.db id ∨
      ∃ queue msg reached stage, position (s.own i) = .on queue msg reached ∧
        jobOf queue msg = some id ∧
        position ((s.after services i c o).own i) = .on queue msg (rank stage) ∧
        reached ≤ rank stage ∧
        jobRank (services.answer o s.state c).2.db id = rank stage := by
  rw [position_after]
  rcases db_after o s.state c with hdb | ⟨st, n, rfl, hexec⟩ | ⟨k, rfl, hopen, hdb⟩
  · exact Or.inl (congrArg (jobRank · id) hdb)
  · rcases rank_exec hexec (hd.keeps _ _ rfl) id with hsame | ⟨jobID, stage, hst, hid, hrank⟩
    · exact Or.inl hsame
    · obtain ⟨queue, msg, reached, hpos, hjob, hle⟩ := hd.stage _ _ _ _ rfl hst
      refine Or.inr ⟨queue, msg, reached, stage, hpos, hjob ▸ hid, ?_, hle, hrank⟩
      unfold Position.after
      simp only [hst, hpos]
  · have hk : k = .worker i := hd.own
    subst hk
    change (answerCall o s.state (.commit (.worker i))).2.db = _ at hdb
    rcases rank_execAll (h.keeps i) id with hsame | ⟨x, hx, jobID, stage, hst, hid, hrank⟩
    · exact Or.inl ((congrArg (jobRank · id) hdb).trans hsame)
    · obtain ⟨-, queue, msg, hpos, hjob⟩ := h.written i hopen x hx jobID stage hst
      refine Or.inr ⟨queue, msg, rank stage, stage, hpos, hjob ▸ hid, ?_, le_rfl, ?_⟩
      · unfold Position.after
        exact hpos
      · exact (congrArg (jobRank · id) hdb).trans hrank

theorem forward_step (h : Orderly s) (hd : Duty (.worker i) (s.own i) c) (o : Outcome) :
    Forward s i c o := by
  intro id
  rcases rank_after h hd o id with hsame | ⟨queue, msg, reached, stage, hpos, hjob, -, hle, hrank⟩
  · exact hsame.ge
  · rw [hrank]
    exact (h.reached i queue msg reached id hpos hjob).trans hle

/-- A job with a waiting message stays where it is. -/
theorem waiting_rank (h : Orderly s) (hd : Duty (.worker i) (s.own i) c) (o : Outcome)
    (hw : Waiting s e id) :
    jobRank (services.answer o s.state c).2.db id = jobRank s.state.db id := by
  rcases rank_after h hd o id with hsame | ⟨queue, msg, reached, -, hpos, hjob, -⟩
  · exact hsame
  · exact absurd ⟨queue, msg, ⟨reached, hpos⟩, hjob⟩ (h.apart e i id hw)

/-- The bound of a consumer only grows while it is at a message. -/
theorem bound_grows {h : History} {conn : Conn} {x : Answer c} {queue : String} {msg : Json}
    {reached : Nat} (hd : Duty conn h c) (hnone : taken c x = none)
    (hpos : (position h).after c x = .on queue msg reached) :
    ∃ reached', position h = .on queue msg reached' ∧ reached' ≤ reached := by
  cases c with
  | exec k st =>
    unfold Position.after at hpos
    cases hst : stageWrite st with
    | none =>
      simp only [hst] at hpos
      exact ⟨_, hpos, le_rfl⟩
    | some w =>
      obtain ⟨jobID, stage⟩ := w
      obtain ⟨queue', msg', reached', hpos', -, hle⟩ := hd.stage k st jobID stage rfl hst
      simp only [hst, hpos', Position.on.injEq] at hpos
      obtain ⟨rfl, rfl, rfl⟩ := hpos
      exact ⟨reached', hpos', hle⟩
  | receive q =>
    unfold Position.after at hpos
    simp only [hnone] at hpos
    cases hpos
  | publish q body => exact absurd rfl ((position_kept hnone hpos).2 q body)
  | _ => exact ⟨reached, hpos, le_rfl⟩

/-- No consumer is behind its job after a step without a delivery. -/
theorem reached_kept (h : Orderly s) (hd : Duty (.worker i) (s.own i) c) (o : Outcome)
    (hnone : taken c (services.answer o s.state c).1 = none) {queue : String} {msg : Json}
    {reached : Nat} (hpos : position ((s.after services i c o).own i) = .on queue msg reached)
    (hjob : jobOf queue msg = some id) :
    jobRank (services.answer o s.state c).2.db id ≤ reached := by
  rcases rank_after h hd o id with hsame | ⟨queue', msg', reached', stage, -, -, hpos', -, hrank⟩
  · rw [position_after] at hpos
    obtain ⟨reached', hpos', hle⟩ := bound_grows hd hnone hpos
    rw [hsame]
    exact (h.reached i queue msg reached' id hpos' hjob).trans hle
  · rw [hpos', Position.on.injEq] at hpos
    rw [hrank]
    exact hpos.2.2.le

/-! ## The connections after the step -/

theorem session_set_other (s : System) {conn k : Conn} (h : k ≠ conn) (session : Session) :
    (s.setSession conn session).sessions k = s.sessions k := by
  unfold System.setSession
  exact if_neg h

/-- The session of a consumer is its own. -/
theorem session_of_other {conn k : Conn} (hown : OwnConn conn c) (hk : k ≠ conn) (o : Outcome)
    (s : System) : (answerCall o s c).2.sessions k = s.sessions k := by
  cases c with
  | query conn' q =>
    cases conn' with
    | none => rfl
    | some conn' =>
      obtain rfl : conn' = conn := hown
      change (answerQuery o s (some conn') q).2.sessions k = _
      unfold answerQuery
      dsimp only
      split
      · rfl
      · split
        · exact session_set_other s hk _
        · split
          · exact session_set_other s hk _
          · rfl
  | exec conn' st =>
    cases conn' with
    | none => exact congrFun (transactions.sessions_aside (by trivial) o s) k
    | some conn' =>
      obtain rfl : conn' = conn := hown
      change (answerExec o s (some conn') st).2.sessions k = _
      unfold answerExec
      dsimp only
      split
      · rfl
      · split
        · exact session_set_other s hk _
        · split <;> exact session_set_other s hk _
  | commit conn' =>
    obtain rfl : conn' = conn := hown
    change (answerCommit o s conn').2.sessions k = _
    unfold answerCommit System.commit
    split
    · exact session_set_other s hk _
    · dsimp only
      split <;> exact session_set_other _ hk _
  | rollback conn' =>
    obtain rfl : conn' = conn := hown
    unfold answerCall
    dsimp only
    split
    · exact session_set_other s hk _
    · rfl
  | begin => exact hown.elim
  | _ => exact congrFun (transactions.sessions_aside (by trivial) o s) k

/-- A session that is aborted keeps what waited in it. -/
theorem pending_of_abort {s : System} {conn : Conn} {x : Nat × Statement}
    (hx : x ∈ ((s.abort conn).sessions conn).pending) : x ∈ (s.sessions conn).pending := by
  simpa [System.abort, System.setSession] using hx

theorem open_of_abort {s : System} {conn : Conn}
    (h : ((s.abort conn).sessions conn).aborted = false) : (s.sessions conn).aborted = false := by
  rw [transactions.aborts] at h
  cases h

/-- A query adds nothing to its session, and does not open it again. -/
theorem pending_query (o : Outcome) (s : System) (conn : Conn) (q : Query) {x : Nat × Statement}
    (hx : x ∈ ((answerQuery o s (some conn) q).2.sessions conn).pending) :
    x ∈ (s.sessions conn).pending ∧
      (((answerQuery o s (some conn) q).2.sessions conn).aborted = false →
        (s.sessions conn).aborted = false) := by
  unfold answerQuery at hx ⊢
  dsimp only at hx ⊢
  by_cases hab : (s.sessions conn).aborted = true
  · rw [if_pos hab] at hx ⊢
    exact ⟨hx, id⟩
  · have hopen : (s.sessions conn).aborted = false := Bool.eq_false_of_not_eq_true hab
    rw [if_neg hab] at hx
    refine ⟨?_, fun _ => hopen⟩
    split at hx
    · exact pending_of_abort hx
    · split at hx
      · exact pending_of_abort hx
      · exact hx

/-- A statement in a transaction adds itself at most, and does not open its session again. -/
theorem pending_exec (o : Outcome) (s : System) (conn : Conn) (st : Statement)
    {x : Nat × Statement} (hx : x ∈ ((answerExec o s (some conn) st).2.sessions conn).pending) :
    (x ∈ (s.sessions conn).pending ∧
        (((answerExec o s (some conn) st).2.sessions conn).aborted = false →
          (s.sessions conn).aborted = false)) ∨
      x.2 = st ∧ ∃ n, (answerExec o s (some conn) st).1 = .ok n := by
  unfold answerExec at hx ⊢
  dsimp only at hx ⊢
  by_cases hab : (s.sessions conn).aborted = true
  · rw [if_pos hab] at hx ⊢
    exact Or.inl ⟨hx, id⟩
  · have hopen : (s.sessions conn).aborted = false := Bool.eq_false_of_not_eq_true hab
    rw [if_neg hab] at hx ⊢
    by_cases hfails : o.fails = true
    · rw [if_pos hfails] at hx ⊢
      exact Or.inl ⟨pending_of_abort hx, open_of_abort⟩
    · rw [if_neg hfails] at hx ⊢
      cases hexec : s.db.exec o.now st with
      | error e =>
        rw [hexec] at hx
        exact Or.inl ⟨pending_of_abort hx, fun _ => hopen⟩
      | ok r =>
        rw [hexec] at hx
        simp only [System.setSession, ↓reduceIte, List.mem_append, List.mem_singleton] at hx
        rcases hx with hx | rfl
        · exact Or.inl ⟨hx, fun _ => hopen⟩
        · exact Or.inr ⟨rfl, r.1, rfl⟩

/-- A statement waits that waited before, or the one that was just made. -/
theorem pending_after {conn : Conn} (hown : OwnConn conn c) (o : Outcome) (s : System)
    {x : Nat × Statement} (hx : x ∈ ((answerCall o s c).2.sessions conn).pending) :
    (x ∈ (s.sessions conn).pending ∧ c ≠ .commit conn ∧
        (((answerCall o s c).2.sessions conn).aborted = false → (s.sessions conn).aborted = false)) ∨
      ∃ st, c = .exec (some conn) st ∧ x.2 = st ∧ ∀ i h, (stageWrite st).isSome = true →
        waits conn (⟨i, c, (answerCall o s c).1⟩ :: h) = true := by
  have hsame : (answerCall o s c).2.sessions conn = s.sessions conn → c ≠ .commit conn →
      x ∈ (s.sessions conn).pending ∧ c ≠ .commit conn ∧
        (((answerCall o s c).2.sessions conn).aborted = false → (s.sessions conn).aborted = false) := by
    intro h hc
    rw [h] at hx ⊢
    exact ⟨hx, hc, id⟩
  cases c with
  | query k q =>
    cases k with
    | none => exact Or.inl (hsame rfl (by simp))
    | some k =>
      obtain rfl : k = conn := hown
      obtain ⟨hwaited, hopen⟩ := pending_query o s k q hx
      exact Or.inl ⟨hwaited, by simp, hopen⟩
  | exec k st =>
    cases k with
    | none => exact Or.inl (hsame (congrFun (transactions.sessions_aside (by trivial) o s) conn) (by simp))
    | some k =>
      obtain rfl : k = conn := hown
      rcases pending_exec o s k st hx with ⟨hwaited, hopen⟩ | ⟨hst, n, hn⟩
      · exact Or.inl ⟨hwaited, by simp, hopen⟩
      · refine Or.inr ⟨st, rfl, hst, fun i h hwrite => ?_⟩
        change waits k (⟨i, .exec (some k) st, (answerExec o s (some k) st).1⟩ :: h) = true
        rw [hn]
        unfold waits
        simp [hwrite]
  | commit k =>
    obtain rfl : k = conn := hown
    have hidle : (answerCall o s (.commit k)).2.sessions k = .idle :=
      transactions.idle_after_commit k o s
    rw [hidle] at hx
    cases hx
  | rollback k =>
    obtain rfl : k = conn := hown
    by_cases ho : landed o = true
    · have hidle : (answerCall o s (.rollback k)).2.sessions k = .idle := by
        unfold answerCall
        simp [ho, System.setSession]
      rw [hidle] at hx
      cases hx
    · refine Or.inl (hsame ?_ (by simp))
      unfold answerCall
      simp [ho]
  | begin => exact hown.elim
  | _ => exact Or.inl (hsame (congrFun (transactions.sessions_aside (by trivial) o s) conn) (by simp))

theorem keeps_after (h : Orderly s) (hd : Duty (.worker i) (s.own i) c) (o : Outcome) :
    ∀ j, ∀ x ∈ ((services.answer o s.state c).2.sessions (.worker j)).pending,
      keepsJobs x.2 = true := by
  intro j x hx
  by_cases hj : j = i
  · subst hj
    rcases pending_after hd.own o s.state hx with ⟨hbefore, -⟩ | ⟨st, hc, hst, -⟩
    · exact h.keeps j x hbefore
    · rw [hst]
      exact hd.keeps _ _ hc
  · have hsame := session_of_other hd.own (k := .worker j) (by simpa using hj) o s.state
    rw [show (services.answer o s.state c).2.sessions (.worker j) = _ from hsame] at hx
    exact h.keeps j x hx

/-- A stage that waits for its commit is the one that its consumer is at. -/
theorem written_after (h : Orderly s) (hd : Duty (.worker i) (s.own i) c) (o : Outcome) :
    ∀ j, ((services.answer o s.state c).2.sessions (.worker j)).aborted = false →
      ∀ x ∈ ((services.answer o s.state c).2.sessions (.worker j)).pending, ∀ jobID stage,
        stageWrite x.2 = some (jobID, stage) →
          waits (.worker j) ((s.after services i c o).own j) = true ∧
            ∃ queue msg, position ((s.after services i c o).own j) = .on queue msg (rank stage) ∧
              uuidIn jobID = jobOf queue msg := by
  intro j hopen x hx jobID stage hst
  by_cases hj : j = i
  · subst hj
    rcases pending_after hd.own o s.state hx with ⟨hbefore, hc, hab⟩ | ⟨st, hc, hx', hwaits⟩
    · have hwait := (h.written j (hab hopen) x hbefore jobID stage hst).1
      exact absurd (hd.commit hwait) hc
    · rw [hx'] at hst
      obtain ⟨queue, msg, reached, hpos, hjob, -⟩ := hd.stage _ _ _ _ hc hst
      refine ⟨?_, queue, msg, ?_, hjob⟩
      · rw [own_after_self]
        exact hwaits _ _ (by rw [hst]; rfl)
      · rw [position_after, hpos]
        subst hc
        unfold Position.after
        simp only [hst]
  · have hsame := session_of_other hd.own (k := .worker j) (by simpa using hj) o s.state
    rw [show (services.answer o s.state c).2.sessions (.worker j) = _ from hsame] at hx hopen
    rw [own_of_other s hj]
    exact h.written j hopen x hx jobID stage hst


/-! ## Messages and consumers after the step -/

theorem at_one {queue queue' : String} {msg msg' : Json} (h : At s i queue msg)
    (h' : At s i queue' msg') : queue = queue' ∧ msg = msg' := by
  obtain ⟨reached, hpos⟩ := h
  obtain ⟨reached', hpos'⟩ := h'
  rw [hpos, Position.on.injEq] at hpos'
  exact ⟨hpos'.1, hpos'.2.1⟩

/-- The consumer left the message, or it just published it. -/
def Gained (s : Snap) (i : Nat) (c : Call) (e : Envelope) : Prop :=
  At s i e.queue e.body ∨ c = .publish e.queue (some e.body)

/-- A message waits after a step that waited before, or the consumer was at the job. -/
theorem waiting_after (h : Orderly s) (hd : Duty (.worker i) (s.own i) c) (o : Outcome)
    (hw : Waiting (s.after services i c o) e id) :
    Waiting s e id ∨ Gained s i c e ∧ Holding s i id := by
  by_cases hat : At s i e.queue e.body
  · exact Or.inr ⟨Or.inl hat, _, _, hat, hw.job⟩
  · have hbefore : e ∈ s.state.accepted → Waiting s e id := by
      intro haccepted
      refine ⟨haccepted, hw.job, fun hp => hw.unpublished (published_after hp i c o), ?_, ?_⟩
      · intro j hj
        by_cases hji : j = i
        · exact hat (hji ▸ hj)
        · exact hw.free j ((at_of_other hji).mpr hj)
      · intro hseen
        exact (forward_step h hd o id).trans (hw.early (seen_after hseen i c o))
    rcases accepted_after o s.state c with hsame | ⟨queue, body, hc, hmore⟩
    · exact Or.inl (hbefore (hsame ▸ hw.accepted))
    · have hmem : e ∈ s.state.accepted ++ [⟨queue, body⟩] := hmore ▸ hw.accepted
      rcases List.mem_append.mp hmem with hmem | hmem
      · exact Or.inl (hbefore hmem)
      · cases List.mem_singleton.mp hmem
        obtain ⟨queue', msg, reached, hpos, -, hjob⟩ := hd.publish queue (some body) hc
        exact Or.inr ⟨Or.inr hc, queue', msg, ⟨reached, hpos⟩, hjob body rfl id hw.job⟩

/-- A consumer that publishes leaves no waiting message behind. -/
theorem published_waits_not (hd : Duty (.worker i) (s.own i) c) (o : Outcome) {e' : Envelope}
    (hat : At s i e.queue e.body) (hc : c = .publish e'.queue (some e'.body))
    (hw' : e' ∈ (services.answer o s.state c).2.accepted) :
    ¬ Waiting (s.after services i c o) e id := by
  intro hw
  obtain ⟨reached, hpos⟩ := hat
  subst hc
  exact hw.unpublished (published_now o (congrArg Position.message hpos) hw')

theorem gained_alone (hd : Duty (.worker i) (s.own i) c) (o : Outcome) {e' : Envelope}
    (hw : Waiting (s.after services i c o) e id) (hw' : Waiting (s.after services i c o) e' id)
    (hg : Gained s i c e) (hg' : Gained s i c e') : e = e' := by
  rcases hg with hat | hc
  · rcases hg' with hat' | hc'
    · obtain ⟨hqueue, hbody⟩ := at_one hat hat'
      cases e
      cases e'
      simp_all
    · exact absurd hw (published_waits_not hd o hat hc' hw'.accepted)
  · rcases hg' with hat' | hc'
    · exact absurd hw' (published_waits_not hd o hat' hc hw.accepted)
    · rw [hc] at hc'
      cases e
      cases e'
      simp_all

/-! ## Deliveries -/

/-- What is delivered was accepted. -/
theorem received {o : Outcome} {s : System} {queue : String} {tag : Nat} {msg : Json}
    (h : taken (.receive queue) (services.answer o s (.receive queue)).1 = some (tag, msg)) :
    ⟨queue, msg⟩ ∈ s.accepted := by
  change (s.inQueue queue)[o.pick]? = some (tag, msg) at h
  have hmem := List.mem_of_getElem? h
  unfold System.inQueue at hmem
  simp only [List.mem_map, List.mem_filter, decide_eq_true_eq, Prod.mk.injEq] at hmem
  obtain ⟨⟨e, tag'⟩, ⟨hzip, hqueue⟩, rfl, rfl⟩ := hmem
  have hget := List.mk_mem_zipIdx_iff_getElem?.mp hzip
  cases e
  dsimp only at hqueue ⊢
  rw [← hqueue]
  exact List.mem_of_getElem? hget

/-- A delivered message waited, or its consumer was at it already. -/
theorem delivered_waited {queue : String} {tag : Nat} {msg : Json} {o : Outcome}
    (hunspent : Unspent s i (.receive queue) o) (hintime : InTime s i (.receive queue) o)
    (ht : taken (.receive queue) (services.answer o s.state (.receive queue)).1 = some (tag, msg))
    (hjob : jobOf queue msg = some id) : Waiting s ⟨queue, msg⟩ id ∨ At s i queue msg := by
  by_cases hat : At s i queue msg
  · exact Or.inr hat
  · refine Or.inl ⟨received ht, hjob, ?_, ?_, fun hseen => hintime queue tag msg id rfl ht hseen hjob⟩
    · intro hpub
      exact (hunspent tag msg ht (seen_of_published hpub)).1 hpub
    · intro j hj
      by_cases hji : j = i
      · exact hat (hji ▸ hj)
      · exact (hunspent tag msg ht (seen_of_at hj)).2 j queue msg hji hj rfl

/-- A consumer of the job before the step, or the message for it was just delivered. -/
theorem holding_after {o : Outcome} (hunspent : Unspent s i c o) (hintime : InTime s i c o)
    (hh : Holding (s.after services i c o) j id) :
    Holding s j id ∨ j = i ∧ ∃ queue msg, At (s.after services i c o) i queue msg ∧
      c = .receive queue ∧ Waiting s ⟨queue, msg⟩ id := by
  obtain ⟨queue, msg, hat, hjob⟩ := hh
  rcases at_after hat with ⟨hb, -⟩ | ⟨rfl, rfl, tag, ht⟩
  · exact Or.inl ⟨queue, msg, hb, hjob⟩
  · rcases delivered_waited hunspent hintime ht hjob with hw | hb
    · exact Or.inr ⟨rfl, queue, msg, hat, rfl, hw⟩
    · exact Or.inl ⟨queue, msg, hb, hjob⟩

/-! ## The step -/

section Step

variable (h : Orderly s) (hd : Duty (.worker i) (s.own i) c) {o : Outcome}
  (hunspent : Unspent s i c o) (hintime : InTime s i c o)

include h hd

theorem alone_after {e' : Envelope} (hw : Waiting (s.after services i c o) e id)
    (hw' : Waiting (s.after services i c o) e' id) : e = e' := by
  rcases waiting_after h hd o hw with hb | ⟨hg, hh⟩
  · rcases waiting_after h hd o hw' with hb' | ⟨-, hh'⟩
    · exact h.alone e e' id hb hb'
    · exact absurd hh' (h.apart e i id hb)
  · rcases waiting_after h hd o hw' with hb' | ⟨hg', -⟩
    · exact absurd hh (h.apart e' i id hb')
    · exact gained_alone hd o hw hw' hg hg'

theorem ahead_after (hw : Waiting (s.after services i c o) e id) :
    jobRank (services.answer o s.state c).2.db id ≤ rank (entry e.queue) := by
  rcases waiting_after h hd o hw with hb | ⟨hat | hc, hh⟩
  · rw [waiting_rank h hd o hb]
    exact h.ahead e id hb
  · exact hw.early (seen_after (seen_of_at hat) i c o)
  · subst hc
    obtain ⟨queue, msg, reached, hpos, hle, hjob⟩ := hd.publish _ _ rfl
    have hdb : (services.answer o s.state (.publish e.queue (some e.body))).2.db = s.state.db := by
      rcases db_after o s.state (.publish e.queue (some e.body)) with hdb | ⟨st, n, hc, -⟩ | ⟨k, hc, -⟩
      · exact hdb
      · cases hc
      · cases hc
    rw [hdb]
    exact (h.reached i queue msg reached id hpos (hjob _ rfl id hw.job)).trans hle

include hunspent hintime

theorem single_after {k : Nat} (hh : Holding (s.after services i c o) j id)
    (hh' : Holding (s.after services i c o) k id) : j = k := by
  rcases holding_after hunspent hintime hh with hb | ⟨rfl, queue, msg, -, -, hw⟩
  · rcases holding_after hunspent hintime hh' with hb' | ⟨rfl, queue, msg, -, -, hw⟩
    · exact h.single j k id hb hb'
    · exact absurd hb (h.apart _ j id hw)
  · rcases holding_after hunspent hintime hh' with hb' | ⟨rfl, -⟩
    · exact absurd hb' (h.apart _ k id hw)
    · rfl

theorem apart_after (hw : Waiting (s.after services i c o) e id) :
    ¬ Holding (s.after services i c o) j id := by
  intro hh
  rcases holding_after hunspent hintime hh with hb | ⟨rfl, queue, msg, hat, hc, hwaited⟩
  · rcases waiting_after h hd o hw with hbw | ⟨hg, hholds⟩
    · exact h.apart e j id hbw hb
    · -- the message is the one that the consumer of the step was at, and still is
      have hj := h.single j i id hb hholds
      subst hj
      obtain ⟨queue, msg, hat, hjob⟩ := hh
      have hbefore : At s j queue msg ∧ c ≠ .publish e.queue (some e.body) := by
        rcases at_after hat with ⟨hat', hpublish⟩ | ⟨-, rfl, tag, ht⟩
        · exact ⟨hat', hpublish rfl _ _⟩
        · rcases delivered_waited hunspent hintime ht hjob with hwaited | hat'
          · exact absurd hholds (h.apart _ j id hwaited)
          · exact ⟨hat', nofun⟩
      rcases hg with hg | hc
      · obtain ⟨rfl, rfl⟩ := at_one hbefore.1 hg
        exact hw.free j hat
      · exact hbefore.2 hc
  · rcases waiting_after h hd o hw with hbw | ⟨-, hholds⟩
    · obtain rfl := h.alone _ _ id hbw hwaited
      exact hw.free j hat
    · exact h.apart _ j id hwaited hholds

theorem reached_after {queue : String} {msg : Json} {reached : Nat}
    (hpos : position ((s.after services i c o).own j) = .on queue msg reached)
    (hjob : jobOf queue msg = some id) :
    jobRank (services.answer o s.state c).2.db id ≤ reached := by
  by_cases hj : j = i
  · subst hj
    cases ht : taken c (services.answer o s.state c).1 with
    | none => exact reached_kept h hd o ht hpos hjob
    | some x =>
      obtain ⟨tag, msg'⟩ := x
      cases c with
      | receive queue' =>
        rw [position_after] at hpos
        unfold Position.after at hpos
        simp only [ht, Position.on.injEq] at hpos
        obtain ⟨rfl, rfl, rfl⟩ := hpos
        rcases delivered_waited hunspent hintime ht hjob with hw | hat
        · exact h.ahead _ id hw
        · exact hintime queue' tag msg' id rfl ht (seen_of_at hat) hjob
      | _ => cases ht
  · have hh : Holding s j id := by
      rw [own_of_other s hj] at hpos
      exact ⟨queue, msg, ⟨reached, hpos⟩, hjob⟩
    rw [own_of_other s hj] at hpos
    rcases rank_after h hd o id with hsame | ⟨queue', msg', reached', stage, hpos', hjob', -⟩
    · rw [hsame]
      exact h.reached j queue msg reached id hpos hjob
    · exact absurd (h.single j i id hh ⟨queue', msg', ⟨reached', hpos'⟩, hjob'⟩) hj

theorem orderly_step : Orderly (s.after services i c o) where
  alone := fun _ _ _ => alone_after h hd
  apart := fun _ _ _ hw => apart_after h hd hunspent hintime hw
  single := fun _ _ _ => single_after h hd hunspent hintime
  ahead := fun _ _ => ahead_after h hd
  reached := fun _ _ _ _ _ => reached_after h hd hunspent hintime
  keeps := keeps_after h hd o
  written := written_after h hd o

end Step

end recast_rules.deliveries
