-- What the answers on a connection say of its transaction. A service that never
-- rolls back is told by them alone what its connection is in.
import RecastAi.Histories
import RecastAi.PyValues

open call_programs recast_rules.pipeline recast_rules.py

namespace recast_rules.transactions

/-- There is no transaction, a statement waits for the commit, or a statement has failed. -/
inductive Phase where
  | idle | opened | failed
deriving DecidableEq

/-- The answer is the error of a statement or a query on the connection. -/
def failedOn (conn : Conn) : (c : Call) → Answer c → Bool
  | .query (some k) q, x =>
    match (x : Except DbError q.Row) with
    | .error .failed => k = conn
    | _ => false
  | .exec (some k) _, x =>
    match (x : Except DbError Nat) with
    | .error _ => k = conn
    | .ok _ => false
  | _, _ => false

def Phase.after (conn : Conn) (p : Phase) (c : Call) (x : Answer c) : Phase :=
  if failedOn conn c x then .failed
  else
    match c with
    | .exec (some k) _ => if k = conn then .opened else p
    | .commit k => if k = conn then .idle else p
    | _ => p

/-- The phase after a history, newest first, that began without a transaction. -/
def phase (conn : Conn) : List (Event Call Answer) → Phase
  | [] => .idle
  | e :: h => (phase conn h).after conn e.call e.answer

/-- The call leaves the transaction of every connection alone. -/
def Aside : Call → Prop
  | .query (some _) _ => False
  | .exec (some _) _ => False
  | .commit _ => False
  | .rollback _ => False
  | _ => True

theorem after_aside (conn : Conn) (p : Phase) {c : Call} (x : Answer c) (hc : Aside c) :
    p.after conn c x = p := by
  cases c with
  | query k q =>
    cases k with
    | none => rfl
    | some k => cases hc
  | exec k st =>
    cases k with
    | none => rfl
    | some k => cases hc
  | commit k => cases hc
  | _ => rfl

theorem sessions_aside {c : Call} (hc : Aside c) (o : Outcome) (s : System) :
    (answerCall o s c).2.sessions = s.sessions := by
  cases c with
  | query k q =>
    cases k with
    | none => rfl
    | some k => cases hc
  | exec k st =>
    cases k with
    | none =>
      rcases exec_alone_cases o s st with ⟨e, -, h⟩ | ⟨n, db, -, h | h | h⟩ <;>
        simp [answerCall, h]
    | some k => cases hc
  | commit k => cases hc
  | rollback k => cases hc
  | upload key blob =>
    unfold answerCall
    dsimp only
    split
    · rfl
    · dsimp only
      split <;> rfl
  | deleteObject key =>
    unfold answerCall
    dsimp only
    split <;> rfl
  | publish queue body =>
    cases body with
    | none => rfl
    | some body =>
      unfold answerCall
      dsimp only
      split <;> rfl
  | ack tag =>
    unfold answerCall
    dsimp only
    split <;> rfl
  | nack tag requeue =>
    unfold answerCall
    dsimp only
    split <;> rfl
  | _ => rfl

/-- The calls of a service that has this one connection and never rolls back. -/
inductive Uses (conn : Conn) : Call → Prop where
  | query (q : Query) : Uses conn (.query (some conn) q)
  | exec (st : Statement) : Uses conn (.exec (some conn) st)
  | commit : Uses conn (.commit conn)
  | aside {c : Call} (h : Aside c) : Uses conn c

/-! ## The session -/

/-- The session of the connection is in the phase. -/
def Agrees (conn : Conn) (s : System) : Phase → Prop
  | .idle => s.sessions conn = .idle
  | .opened => (s.sessions conn).aborted = false
  | .failed => (s.sessions conn).aborted = true

theorem aborts (conn : Conn) (s : System) : ((s.abort conn).sessions conn).aborted = true := by
  simp [System.abort, System.setSession]

theorem agrees_query (conn : Conn) (o : Outcome) {s : System} {p : Phase} (q : Query)
    (h : Agrees conn s p) :
    Agrees conn (answerCall o s (.query (some conn) q)).2
      (p.after conn (.query (some conn) q) (answerCall o s (.query (some conn) q)).1) := by
  have hfailed : Agrees conn (s.abort conn) .failed := aborts conn s
  change Agrees conn (answerQuery o s (some conn) q).2
    (p.after conn (.query (some conn) q) (answerQuery o s (some conn) q).1)
  unfold answerQuery Phase.after failedOn
  dsimp only
  by_cases hab : (s.sessions conn).aborted
  · simp only [hab, decide_true]
    exact hab
  · simp only [hab]
    by_cases ho : o.fails
    · simpa [ho] using hfailed
    · simp only [ho]
      cases hrows : s.db.rows q with
      | error e =>
        cases e with
        | noRows => simpa using h
        | failed => simpa using hfailed
      | ok r => simpa using h

theorem agrees_exec (conn : Conn) (o : Outcome) {s : System} {p : Phase} (st : Statement) :
    Agrees conn (answerCall o s (.exec (some conn) st)).2
      (p.after conn (.exec (some conn) st) (answerCall o s (.exec (some conn) st)).1) := by
  have hfailed : Agrees conn (s.abort conn) .failed := aborts conn s
  change Agrees conn (answerExec o s (some conn) st).2
    (p.after conn (.exec (some conn) st) (answerExec o s (some conn) st).1)
  unfold answerExec Phase.after failedOn
  dsimp only
  by_cases hab : (s.sessions conn).aborted
  · simp only [hab, decide_true]
    exact hab
  · simp only [hab]
    by_cases ho : o.fails
    · simpa [ho] using hfailed
    · simp only [ho]
      cases hrows : s.db.exec o.now st with
      | error e => simpa using hfailed
      | ok r => simp [Agrees, System.setSession]

theorem idle_after_commit (conn : Conn) (o : Outcome) (s : System) :
    (answerCommit o s conn).2.sessions conn = .idle := by
  unfold answerCommit System.commit System.setSession
  by_cases hab : (s.sessions conn).aborted
  · simp [hab]
  · by_cases ho : landed o <;> simp [hab, ho]

theorem agrees_commit (conn : Conn) (o : Outcome) {s : System} {p : Phase} :
    Agrees conn (answerCall o s (.commit conn)).2
      (p.after conn (.commit conn) (answerCall o s (.commit conn)).1) := by
  unfold Phase.after failedOn
  simp only [Bool.false_eq_true, ↓reduceIte]
  exact idle_after_commit conn o s

theorem agrees_after {conn : Conn} {s : System} {p : Phase} {c : Call} (o : Outcome)
    (hc : Uses conn c) (h : Agrees conn s p) :
    Agrees conn (answerCall o s c).2 (p.after conn c (answerCall o s c).1) := by
  cases hc with
  | query q => exact agrees_query conn o q h
  | exec st => exact agrees_exec conn o st
  | commit => exact agrees_commit conn o
  | aside hc =>
    rw [after_aside conn p _ hc]
    unfold Agrees at h ⊢
    rw [sessions_aside hc o s]
    exact h

/-- A statement has failed, and no other one waits for a commit. -/
structure Stuck (conn : Conn) (s : System) (p : Phase) : Prop where
  aborted : (s.sessions conn).aborted = true
  closed : p ≠ .opened

theorem stuck_after {conn : Conn} {s : System} {p : Phase} {c : Call} (o : Outcome)
    (hc : Uses conn c) (hcommit : c ≠ .commit conn) (h : Stuck conn s p) :
    Stuck conn (answerCall o s c).2 (p.after conn c (answerCall o s c).1) := by
  cases hc with
  | query q =>
    have he : answerCall o s (.query (some conn) q) = (Except.error .failed, s) := by
      unfold answerCall answerQuery
      simp only [h.aborted, ↓reduceIte]
      rfl
    rw [he]
    exact ⟨h.aborted, by simp [Phase.after, failedOn]⟩
  | exec st =>
    have he : answerCall o s (.exec (some conn) st) = (Except.error .failed, s) := by
      unfold answerCall answerExec
      simp only [h.aborted, ↓reduceIte]
      rfl
    rw [he]
    exact ⟨h.aborted, by simp [Phase.after, failedOn]⟩
  | commit => exact absurd rfl hcommit
  | aside hc =>
    rw [after_aside conn p _ hc]
    refine ⟨?_, h.closed⟩
    rw [sessions_aside hc o s]
    exact h.aborted

/-! ## Programs that commit each statement

`M` are the calls that a program makes, by the phase. It starts and ends without a transaction,
or raises, and then no statement waits. -/

section Keeps

variable {conn : Conn} {M : Phase → Call → Prop} {α β : Type}

def Due (conn : Conn) (M : Phase → Call → Prop) (h : List (Event Call Answer)) (c : Call) : Prop :=
  M (phase conn h) c

def Keeps (conn : Conn) (M : Phase → Call → Prop) (p : Py α) : Prop :=
  ∀ i h, phase conn h = .idle →
    followsTry i (Due conn M) (fun _ h => phase conn h ≠ .opened) (fun _ h => phase conn h = .idle) h p

theorem keeps_pure (a : α) : Keeps conn M (pure a : Py α) := fun _ _ hidle => hidle

theorem keeps_throw (e : String) : Keeps conn M (throw e : Py α) := by
  intro i h hidle hopened
  rw [hidle] at hopened
  cases hopened

theorem keeps_raising (x : Except String α) : Keeps conn M (raising x) := by
  cases x with
  | error e => exact keeps_throw e
  | ok a => exact keeps_pure a

theorem keeps_then {p : Py α} {f : α → Py β} (hp : Keeps conn M p) (hf : ∀ a, Keeps conn M (f a)) :
    Keeps conn M (p >>= f) := by
  intro i h hidle
  apply followsTry_bind
  refine follows_mono (hp i h hidle) fun x h hx => ?_
  cases x with
  | error e => exact hx
  | ok a => exact hf a i h hx

theorem keeps_mono {M' : Phase → Call → Prop} {p : Py α} (hp : Keeps conn M p)
    (hM : ∀ ph c, M ph c → M' ph c) : Keeps conn M' p :=
  fun i h hidle => follows_admits (hp i h hidle) fun _ c hc => hM _ c hc

/-- Its calls, whatever the phase. -/
theorem only_of_keeps {P : Call → Prop} {p : Py α} (hp : Keeps conn M p) (hM : ∀ ph c, M ph c → P c) :
    attemptOnly P (fun _ => True) (fun _ => True) p := by
  have honly := only_of_follows (hp 0 [] rfl) fun h c (hc : Due conn M h c) => hM _ c hc
  refine only_mono honly (fun _ hc => hc) fun x _ => ?_
  cases x <;> trivial

/-- A call that has nothing to do with the connection. -/
theorem follows_aside {c : Call} (hc : Aside c) (hm : M .idle c) (i : Nat)
    {h : List (Event Call Answer)} (hidle : phase conn h = .idle) :
    (ask c).Follows i (Due conn M) (fun _ h => phase conn h = .idle) h := by
  refine ⟨?_, fun x => ?_⟩
  · unfold Due
    rw [hidle]
    exact hm
  · change (phase conn h).after conn c x = .idle
    rw [after_aside conn _ x hc]
    exact hidle

theorem keeps_lift {c : Call} (hc : Aside c) (hm : M .idle c) :
    Keeps conn M (ExceptT.lift (ask c) : Py (Answer c)) :=
  fun i _ hidle => followsTry_lift (follows_aside hc hm i hidle)

theorem keeps_must {p : Service (Except String α)}
    (hp : ∀ i h, phase conn h = .idle →
      p.Follows i (Due conn M) (fun _ h => phase conn h = .idle) h) : Keeps conn M (must p) := by
  intro i h hidle
  apply followsTry_orGiveUp
  refine follows_mono (hp i h hidle) fun x h hx => ?_
  cases x with
  | error e => exact fun hopened => Phase.noConfusion (hx.symm.trans hopened)
  | ok a => exact hx

theorem keeps_query {q : Query} (hm : M .idle (.query (some conn) q)) :
    Keeps conn M (sql (ask (.query (some conn) q)) : Py q.Row) := by
  intro i h hidle
  apply followsTry_orGiveUp
  refine ⟨?_, fun x => ?_⟩
  · unfold Due
    rw [hidle]
    exact hm
  · have hphase : phase conn (⟨i, .query (some conn) q, x⟩ :: h) =
      Phase.idle.after conn (.query (some conn) q) x := by
      rw [← hidle]
      rfl
    change Except DbError q.Row at x
    rcases x with (_ | _) | r
    · change phase conn _ ≠ .opened
      rw [hphase]
      nofun
    · change phase conn _ ≠ .opened
      rw [hphase]
      simp [Phase.after, failedOn]
    · exact hphase

/-- A statement and its commit. -/
theorem keeps_commit {st : Statement} (hm : M .idle (.exec (some conn) st))
    (hcommit : M .opened (.commit conn)) :
    Keeps conn M (do
      let _ ← sql (ask (.exec (some conn) st))
      sql (ask (.commit conn))) := by
  intro i h hidle
  apply followsTry_bind
  apply followsTry_orGiveUp
  refine ⟨?_, fun x => ?_⟩
  · unfold Due
    rw [hidle]
    exact hm
  · change Except DbError Nat at x
    cases x with
    | error e =>
      change Phase.after conn _ _ _ ≠ .opened
      simp [Phase.after, failedOn]
    | ok n =>
      have hopened : phase conn (⟨i, .exec (some conn) st, (Except.ok n : Except DbError Nat)⟩ :: h) =
          .opened := by
        change Phase.after conn _ _ _ = .opened
        simp [Phase.after, failedOn]
      apply followsTry_orGiveUp
      refine ⟨?_, fun y => ?_⟩
      · unfold Due
        rw [hopened]
        exact hcommit
      · have hdone : ∀ h, phase conn (⟨i, .commit conn, y⟩ :: h) = .idle := by
          intro h
          change Phase.after conn _ _ _ = .idle
          simp [Phase.after, failedOn]
        change Except DbError Unit at y
        cases y with
        | error e => exact fun h => Phase.noConfusion ((hdone _).symm.trans h)
        | ok u => exact hdone _

end Keeps

/-! ## Runs -/

section Runs

variable {conn : Conn} {M : Phase → Call → Prop} {α : Type} {i : Nat} {h : List (Event Call Answer)}
  {R : α → List (Event Call Answer) → Prop} {p : Service α} {os : List Outcome} {s s' : System} {a : α}

/-- No statement on the connection fails. -/
def Succeeds (conn : Conn) (s : System) (c : Call) (o : Outcome) : Prop :=
  failedOn conn c (services.answer o s c).1 = false

theorem after_failed {c : Call} {x : Answer c} (hx : failedOn conn c x = true) (p : Phase) :
    p.after conn c x = .failed := by
  unfold Phase.after
  rw [if_pos hx]

theorem after_not_failed {c : Call} {x : Answer c} {p : Phase} (hx : failedOn conn c x = false)
    (hp : p ≠ .failed) : p.after conn c x ≠ .failed := by
  unfold Phase.after
  rw [hx]
  simp only [Bool.false_eq_true, ↓reduceIte]
  split
  · split
    · nofun
    · exact hp
  · split
    · nofun
    · exact hp
  · exact hp

/-- A run of calls on the connection ends with a failed statement, or no statement of it failed. -/
theorem run_phase (hM : ∀ p c, M p c → Uses conn c) (hfailed : ∀ c, M .failed c → Aside c)
    (hp : p.Follows i (Due conn M) (fun _ h => phase conn h ≠ .opened) h)
    (hs : Agrees conn s (phase conn h)) (hrun : run services os (p, s) = (.done a, s')) :
    ∃ last, last ≠ .opened ∧ Agrees conn s' last ∧ (phase conn h = .failed → last = .failed) ∧
      (phase conn h ≠ .failed → (Meets services (Succeeds conn) os (p, s) ↔ last ≠ .failed)) := by
  induction os generalizing p h s with
  | nil =>
    simp only [run, Prod.mk.injEq] at hrun
    obtain ⟨rfl, rfl⟩ := hrun
    exact ⟨_, hp, hs, id, fun hne => ⟨fun _ => hne, fun _ => trivial⟩⟩
  | cons o os ih =>
    cases p with
    | done b =>
      simp only [run, Prod.mk.injEq, Prog.done.injEq] at hrun
      obtain ⟨rfl, rfl⟩ := hrun
      exact ⟨_, hp, hs, id, fun hne => ⟨fun _ => hne, fun _ => trivial⟩⟩
    | call c k =>
      obtain ⟨last, hopened, hend, hstays, hiff⟩ :=
        ih (hp.2 _) (agrees_after o (hM _ _ hp.1) hs) hrun
      refine ⟨last, hopened, hend, fun hf => hstays ?_, fun hne => ?_⟩
      · have haside : Aside c := hfailed c (hf ▸ hp.1)
        exact (after_aside conn _ _ haside).trans hf
      · by_cases hx : failedOn conn c (services.answer o s c).1 = true
        · have hlast := hstays (after_failed hx _)
          constructor
          · intro hm
            rw [hm.1] at hx
            cases hx
          · exact fun hl => absurd hlast hl
        · simp only [Bool.not_eq_true] at hx
          rw [← hiff (after_not_failed hx hne)]
          exact and_iff_right hx

/-- Where a statement has failed before, nothing is committed. -/
theorem wp_stuck {E : System → Call → Outcome → Prop} (hM : ∀ p c, M p c → Uses conn c)
    (hcommit : ∀ p, M p (.commit conn) → p = .opened) (hp : p.Follows i (Due conn M) R h)
    (hs : Stuck conn s (phase conn h)) :
    wp services E p (fun a s => ∃ h', R a h' ∧ Stuck conn s (phase conn h')) s := by
  refine wp_follows (I := fun h s => Stuck conn s (phase conn h)) hp (fun h s c o hd hs => ?_) hs
  exact stuck_after o (hM _ _ hd) (fun hc => hs.closed (hcommit _ (hc ▸ hd))) hs

end Runs

end recast_rules.transactions
