-- The rules for the steps of a handler of the gateway, when its request runs alone: a query, the
-- check of the owner, a statement of its own, and a statement in a transaction.
import RecastAi.GatewayJobs

open call_programs recast_rules.models recast_rules.pipeline

namespace recast_rules.gateway

section Steps

variable {E : System → Call → Outcome → Prop} {F : Response → System → Prop} {s : System}

/-- A query on its own fails, or it finds what is there. -/
theorem query_wp {q : Query} {Q : Except DbError q.Row → System → Prop}
    (hfailed : Q (.error .failed) s) (hrows : Q (s.db.rows q) s) :
    wp services E (ask (.query none q)) Q s := by
  intro o _
  change Q (if o.fails then .error .failed else s.db.rows q) s
  split
  · exact hfailed
  · exact hrows

theorem wpTry_query {q : Query} {r : DbError → Response} {Q : q.Row → System → Prop}
    (hF : ∀ e, F (r e) s) (hQ : ∀ row, s.db.rows q = .ok row → Q row s) :
    wpTry services E ((ask (.query none q)).orGiveUp r) F Q s := by
  apply wpTry_orGiveUp
  apply query_wp
  · exact hF .failed
  · cases hrows : s.db.rows q with
    | error e => exact hF e
    | ok row => exact hQ row hrows

/-- A statement on its own fails, or it has its effect. -/
theorem statement_wp {st : Statement} {Q : Except DbError Nat → System → Prop}
    (hfailed : ∀ e s', Q (.error e) s')
    (hok : ∀ now n db, s.db.exec now st = .ok (n, db) → Q (.ok n) { s with db := db }) :
    wp services E (ask (.exec none st)) Q s := by
  intro o _
  change Q (answerExec o s none st).1 (answerExec o s none st).2
  rcases exec_alone_cases o s st with ⟨e, -, h⟩ | ⟨n, db, hexec, h | h | h⟩ <;> rw [h]
  · exact hfailed e s
  · exact hok o.now n db hexec
  · exact hfailed .failed _
  · exact hfailed .failed s

theorem wpTry_exec {st : Statement} {Q : Nat → System → Prop}
    (hF : ∀ t, F (writeErr 500 "internal server error") t)
    (hQ : ∀ now n db, s.db.exec now st = .ok (n, db) → Q n { s with db := db }) :
    wpTry services E (exec st) F Q s := by
  apply wpTry_orGiveUp
  apply statement_wp
  · exact fun _ t => hF t
  · exact hQ

theorem job_found {db : pipeline.Db} {jobID : String} {job : Job}
    (h : db.rows (.job jobID) = .ok job) : ∃ id, uuidIn jobID = some id ∧ db.job? id = some job := by
  unfold pipeline.Db.rows at h
  dsimp only at h
  split at h
  · cases h
  · rename_i id hid
    split at h
    · cases h
    · rename_i found hfound
      exact ⟨id, hid, hfound.trans (congrArg some (Except.ok.inj h))⟩

/-- The check reads the row of the job and changes nothing. -/
theorem wpTry_ownedJob {claims : Claims} {jobID : String} {Q : Job → System → Prop}
    (hF : ∀ status msg, 400 ≤ status → F (writeErr status msg) s)
    (hQ : ∀ id job, uuidIn jobID = some id → s.db.job? id = some job → Q job s) :
    wpTry services E (ownedJob claims jobID) F Q s := by
  unfold ownedJob
  apply wpTry_bind
  apply wpTry_query
  · intro e
    cases e with
    | noRows => exact hF 404 _ (by omega)
    | failed => exact hF 500 _ (by omega)
  intro job hrow
  obtain ⟨id, hid, hjob⟩ := job_found hrow
  apply wpTry_bind
  apply wpTry_giveUpIf
  · exact fun _ => hF 404 _ (by omega)
  intro _
  exact hQ id job hid hjob

end Steps

/-! ## A statement in a transaction -/

/-- It fails, or it waits for the commit. Nothing comes into the tables before. -/
theorem exec_in_transaction {tx : Conn} {s : System} (hopen : (s.sessions tx).aborted = false)
    (o : Outcome) (st : Statement) :
    (∃ e, (answerCall o s (.exec (some tx) st)).1 = .error e) ∨
      ∃ n db, s.db.exec o.now st = .ok (n, db) ∧ answerCall o s (.exec (some tx) st) =
        (.ok n, s.setSession tx ⟨(s.sessions tx).pending ++ [(o.now, st)], false⟩) := by
  change (∃ e, (answerExec o s (some tx) st).1 = .error e) ∨
    ∃ n db, _ ∧ answerExec o s (some tx) st = _
  unfold answerExec
  simp only [hopen, Bool.false_eq_true, if_false]
  cases ho : o.fails with
  | true => exact Or.inl ⟨_, rfl⟩
  | false =>
    cases hexec : s.db.exec o.now st with
    | error e => exact Or.inl ⟨_, rfl⟩
    | ok x => exact Or.inr ⟨x.1, x.2, rfl, rfl⟩

theorem session_set (s : System) (conn : Conn) (session : Session) :
    (s.setSession conn session).sessions conn = session := if_pos rfl

/-- The commit of an open transaction: all of its statements, or none of them. -/
theorem commit_cases {tx : Conn} {s : System} (hopen : (s.sessions tx).aborted = false)
    (o : Outcome) :
    (answerCommit o s tx).2.accepted = s.accepted ∧
      ((∃ e, (answerCommit o s tx).1 = .error e) ∧ (answerCommit o s tx).2.db = s.db ∨
        (answerCommit o s tx).2.db = s.db.execAll (s.sessions tx).pending) := by
  unfold answerCommit replyDb landed
  simp only [hopen, Bool.false_eq_true, if_false]
  cases o.fails with
  | false => exact ⟨rfl, Or.inr rfl⟩
  | true =>
    cases o.applied with
    | false => exact ⟨rfl, Or.inl ⟨⟨_, rfl⟩, rfl⟩⟩
    | true => exact ⟨rfl, Or.inr rfl⟩

end recast_rules.gateway
