-- Who sees a shared job. The token of a job is what the last `CreateShare` on
-- it returned, and a `DeleteShare` or `DeleteJob` ends that. `PublicShare` asks
-- the row of the token and nobody's claims.
import RecastAi.GatewayOwners
import RecastAi.GatewaySteps
import RecastAi.GoEncoding

open call_programs go_text py_text recast_rules.models recast_rules.pipeline recast_rules.gateway
open recast_rules.transcript (PgText storable)

namespace recast_rules.shares

/-! ## Tokens -/

/-- `generateShareToken` of the bytes that `rand.Read` gives. -/
def generateShareToken (buf : List UInt8) : String := rawURLEncoding.encodeToString buf

def IsMinted (token : String) : Prop := ∃ buf, buf.length = 32 ∧ token = generateShareToken buf

/-- A value that a `TEXT` parameter can have. -/
def Readable (token : String) : Prop := (PgText.of (text token)).isSome

instance (token : String) : Decidable (Readable token) := inferInstanceAs (Decidable (_ = true))

theorem minted_ne_empty {token : String} (h : IsMinted token) : token ≠ "" := by
  obtain ⟨buf, hlength, rfl⟩ := h
  unfold generateShareToken Base64.encodeToString
  intro hempty
  have hnil : rawURLEncoding.encode buf = [] := by
    simpa using congrArg String.toList hempty
  rcases buf with _ | ⟨a, _ | ⟨b, _ | ⟨c, rest⟩⟩⟩
  · simp at hlength
  · simp at hlength
  · simp at hlength
  · simp [Base64.encode] at hnil

theorem minted_readable {token : String} (h : IsMinted token) : Readable token := by
  obtain ⟨buf, -, rfl⟩ := h
  have hletters : (rawURLEncoding.letters ++ rawURLEncoding.padding).all
      (fun c => storable c.toNat) = true := rfl
  have hall : (text (generateShareToken buf)).all storable = true := by
    unfold text generateShareToken Base64.encodeToString
    rw [String.toList_ofList, List.all_map, List.all_eq_true]
    intro c hc
    exact List.all_eq_true.mp hletters c
      (List.mem_append.mpr (mem_encode rawURLEncoding (by decide) buf hc))
  unfold Readable PgText.of
  rw [dif_pos hall]
  rfl

/-! ## Histories -/

/-- A successful operation, with the token that `CreateShare` returned. -/
inductive Op where
  | createShare (r : Request) (token : String)
  | deleteShare (r : Request)
  | deleteJob (r : Request)

namespace Op

def request : Op → Request
  | createShare r _ => r
  | deleteShare r => r
  | deleteJob r => r

def handle : Op → Service Response
  | createShare r _ => gateway.createShare r
  | deleteShare r => gateway.deleteShare r
  | deleteJob r => gateway.deleteJob r

/-- The response of a success. -/
def reply : Op → Response
  | createShare _ token => ⟨200, .share token ("/share/" ++ token)⟩
  | deleteShare _ => ⟨204, .empty⟩
  | deleteJob _ => ⟨204, .empty⟩

/-- The job, as PostgreSQL reads its id. -/
def jobID (op : Op) : Option String := uuidIn (op.request.urlParam "id")

def token : Op → Option String
  | createShare _ token => some token
  | deleteShare _ => none
  | deleteJob _ => none

end Op

/-- The share of a job as a history, newest first, tells it: what the last operation on the job
returned. -/
def shareOf : List Op → String → Option String
  | [], _ => none
  | op :: ops, id => if op.jobID = some id then op.token else shareOf ops id

def tokens (ops : List Op) : List String := ops.filterMap (·.token)

theorem shareOf_mem {ops : List Op} {id t : String} (h : shareOf ops id = some t) :
    t ∈ tokens ops := by
  induction ops with
  | nil => cases h
  | cons op ops ih =>
    unfold shareOf at h
    unfold tokens
    split at h
    · rw [List.filterMap_cons_some h]
      exact List.mem_cons_self
    · exact List.mem_filterMap.mpr (by
        obtain ⟨op', hop', ht⟩ := List.mem_filterMap.mp (ih h)
        exact ⟨op', List.mem_cons_of_mem _ hop', ht⟩)

/-- A token that does not come twice is the share of one job. -/
theorem shareOf_injective {ops : List Op} (hn : (tokens ops).Nodup) {id id' t : String}
    (h : shareOf ops id = some t) (h' : shareOf ops id' = some t) : id = id' := by
  induction ops with
  | nil => cases h
  | cons op ops ih =>
    have hlast : ∀ {t}, op.token = some t → t ∉ tokens ops := by
      intro t ht
      unfold tokens at hn
      rw [List.filterMap_cons_some ht] at hn
      exact (List.nodup_cons.mp hn).1
    have hrest : (tokens ops).Nodup := by
      unfold tokens at hn
      cases ht : op.token with
      | none => rwa [List.filterMap_cons_none ht] at hn
      | some t =>
        rw [List.filterMap_cons_some ht] at hn
        exact (List.nodup_cons.mp hn).2
    unfold shareOf at h h'
    split at h
    · rename_i hid
      split at h'
      · rename_i hid'
        rw [hid] at hid'
        exact Option.some.inj hid'
      · exact absurd (shareOf_mem h') (hlast h)
    · split at h'
      · exact absurd (shareOf_mem h) (hlast h')
      · exact ih hrest h h'

/-! ## What the rows keep -/

def setToken (jobs : List Job) (id : String) (token : Option String) (now : Nat) : List Job :=
  jobs.map fun j => if j.id = id then { j with shareToken := token, updatedAt := now } else j

/-- The rows of `jobs` after a successful operation. -/
inductive Effect (jobs : List Job) : Op → List Job → Prop where
  | shared (r : Request) (token id : String) (now : Nat) (hid : uuidIn (r.urlParam "id") = some id)
      (hjob : ∃ job ∈ jobs, job.id = id) (hminted : IsMinted token) :
      Effect jobs (.createShare r token) (setToken jobs id (some token) now)
  | revoked (r : Request) (id : String) (now : Nat) (hid : uuidIn (r.urlParam "id") = some id)
      (hjob : ∃ job ∈ jobs, job.id = id) :
      Effect jobs (.deleteShare r) (setToken jobs id none now)
  | deleted (r : Request) (id : String) (hid : uuidIn (r.urlParam "id") = some id) :
      Effect jobs (.deleteJob r) (jobs.filter (·.id ≠ id))

/-- Rows as PostgreSQL keeps them, none of them shared. -/
structure Unshared (jobs : List Job) : Prop where
  canonical : ∀ job ∈ jobs, uuidIn job.id = some job.id
  unique : (jobs.map (·.id)).Nodup
  token : ∀ job ∈ jobs, job.shareToken = none

/-- The rows are as the history tells. -/
structure Tracks (ops : List Op) (jobs : List Job) : Prop where
  canonical : ∀ job ∈ jobs, uuidIn job.id = some job.id
  unique : (jobs.map (·.id)).Nodup
  token : ∀ job ∈ jobs, job.shareToken = shareOf ops job.id
  present : ∀ id t, shareOf ops id = some t → ∃ job ∈ jobs, job.id = id
  minted : ∀ t ∈ tokens ops, IsMinted t

theorem Unshared.tracks {jobs : List Job} (h : Unshared jobs) : Tracks [] jobs :=
  ⟨h.canonical, h.unique, h.token, nofun, nofun⟩

theorem setToken_ids (jobs : List Job) (id : String) (token : Option String) (now : Nat) :
    (setToken jobs id token now).map (·.id) = jobs.map (·.id) := by
  unfold setToken
  rw [List.map_map]
  apply List.map_congr_left
  intro j _
  simp only [Function.comp_apply]
  split <;> rfl

/-- What an operation on a job that stays does to the rows. -/
theorem tracks_setToken {ops : List Op} {jobs : List Job} (op : Op) {id : String} (now : Nat)
    (h : Tracks ops jobs) (hid : op.jobID = some id) (hjob : ∃ job ∈ jobs, job.id = id)
    (hminted : ∀ t, op.token = some t → IsMinted t) :
    Tracks (op :: ops) (setToken jobs id op.token now) where
  canonical := by
    intro job hmem
    obtain ⟨j, hj, rfl⟩ := List.mem_map.mp hmem
    split
    · exact h.canonical j hj
    · exact h.canonical j hj
  unique := by
    rw [setToken_ids]
    exact h.unique
  token := by
    intro job hmem
    obtain ⟨j, hj, rfl⟩ := List.mem_map.mp hmem
    unfold shareOf
    rw [hid]
    by_cases hsame : j.id = id
    · simp [hsame]
    · have hne : ¬ (some id = some j.id) := fun heq => hsame (Option.some.inj heq).symm
      simp only [if_neg hsame, if_neg hne]
      exact h.token j hj
  present := by
    intro id' t ht
    unfold shareOf at ht
    have hrow : ∃ job ∈ jobs, job.id = id' := by
      rw [hid] at ht
      split at ht
      · rename_i hsame
        rw [← Option.some.inj hsame]
        exact hjob
      · exact h.present id' t ht
    obtain ⟨job, hmem, rfl⟩ := hrow
    have hkept : job.id ∈ (setToken jobs id op.token now).map (·.id) := by
      rw [setToken_ids]
      exact List.mem_map_of_mem hmem
    obtain ⟨job', hmem', hsame⟩ := List.mem_map.mp hkept
    exact ⟨job', hmem', hsame⟩
  minted := by
    intro t ht
    unfold tokens at ht
    cases htoken : op.token with
    | none =>
      rw [List.filterMap_cons_none htoken] at ht
      exact h.minted t ht
    | some t' =>
      rw [List.filterMap_cons_some htoken] at ht
      rcases List.mem_cons.mp ht with rfl | ht
      · exact hminted t htoken
      · exact h.minted t ht

theorem tracks_deleted {ops : List Op} {jobs : List Job} {r : Request} {id : String}
    (h : Tracks ops jobs) (hid : uuidIn (r.urlParam "id") = some id) :
    Tracks (.deleteJob r :: ops) (jobs.filter (·.id ≠ id)) where
  canonical := fun job hmem => h.canonical job (List.mem_filter.mp hmem).1
  unique := h.unique.sublist (List.filter_sublist.map _)
  token := by
    intro job hmem
    obtain ⟨hjob, hne⟩ := List.mem_filter.mp hmem
    have hother : ¬ (some id = some job.id) := by
      intro heq
      simp [(Option.some.inj heq).symm] at hne
    unfold shareOf Op.jobID
    change job.shareToken = if uuidIn (r.urlParam "id") = some job.id then none else _
    rw [hid, if_neg hother]
    exact h.token job hjob
  present := by
    intro id' t ht
    unfold shareOf Op.jobID at ht
    change (if uuidIn (r.urlParam "id") = some id' then none else _) = some t at ht
    rw [hid] at ht
    split at ht
    · cases ht
    · rename_i hne
      obtain ⟨job, hmem, rfl⟩ := h.present id' t ht
      refine ⟨job, List.mem_filter.mpr ⟨hmem, ?_⟩, rfl⟩
      simp only [decide_eq_true_eq]
      exact fun heq => hne (congrArg some heq.symm)
  minted := h.minted

/-- The step lemma. -/
theorem tracks_effect {ops : List Op} {jobs jobs' : List Job} {op : Op} (h : Tracks ops jobs)
    (heffect : Effect jobs op jobs') : Tracks (op :: ops) jobs' := by
  cases heffect with
  | shared r token id now hid hjob hminted =>
    refine tracks_setToken (.createShare r token) now h hid hjob ?_
    rintro t ⟨⟩
    exact hminted
  | revoked r id now hid hjob =>
    exact tracks_setToken (.deleteShare r) now h hid hjob nofun
  | deleted r id hid => exact tracks_deleted h hid

/-! ## What the handlers do -/

/-- The random bytes are what `generateShareToken` encodes. -/
def Mints (_ : System) (c : Call) (o : Outcome) : Prop := c = .randomToken → IsMinted o.fresh

section Handlers

variable {E : System → Call → Outcome → Prop} {s : System} {claims : Claims} {jobID : String}
  {F : Response → System → Prop}

/-- What each early answer is. -/
def Refuses (F : Response → System → Prop) : Prop :=
  ∀ status msg s, 400 ≤ status → F (writeErr status msg) s

theorem authenticated_wp (r : Request) {Q : Claims → System → Prop} (hF : Refuses F)
    (hQ : ∀ claims, Q claims s) : wpTry services E (authenticated r) F Q s :=
  wpTry_someOr (fun _ => hF 401 _ s (by omega)) fun claims _ => hQ claims

theorem requireID_wp {Q : Unit → System → Prop} (hF : Refuses F) (hQ : Q () s) :
    wpTry services E (requireID jobID) F Q s :=
  wpTry_giveUpIf (fun _ => hF 400 _ s (by omega)) fun _ => hQ

/-- The row of the job is there. -/
theorem ownedJob_wp {Q : Job → System → Prop} (hF : Refuses F)
    (hQ : ∀ job, uuidIn jobID = some job.id → job ∈ s.db.jobs → Q job s) :
    wpTry services E (ownedJob claims jobID) F Q s := by
  apply wpTry_ownedJob
  · exact fun status msg hstatus => hF status msg s hstatus
  · intro id job hid hjob
    have hkey := List.find?_some hjob
    simp only [decide_eq_true_eq] at hkey
    exact hQ job (hid.trans (congrArg some hkey.symm)) (List.mem_of_find?_eq_some hjob)

theorem exec_wp {st : Statement} {Q : Nat → System → Prop} (hF : Refuses F)
    (hQ : ∀ now n db, s.db.exec now st = .ok (n, db) → Q n { s with db := db }) :
    wpTry services E (exec st) F Q s :=
  wpTry_exec (fun t => hF 500 _ t (by omega)) hQ

end Handlers

theorem randomToken_wp {s : System} {Q : Except String String → System → Prop}
    (hfailed : ∀ e, Q (.error e) s) (hok : ∀ token, IsMinted token → Q (.ok token) s) :
    wp services Mints (ask .randomToken) Q s := by
  intro o hmints
  change Q (reply o o.fresh) s
  unfold reply
  split
  · exact hfailed o.error
  · exact hok o.fresh (hmints rfl)

theorem setShareToken_jobs {db db' : pipeline.Db} {now n : Nat} {jobID id : String}
    {token : Option String} (hid : uuidIn jobID = some id)
    (h : db.exec now (.setShareToken jobID token) = .ok (n, db')) :
    db'.jobs = setToken db.jobs id token now := by
  change withID jobID _ = _ at h
  rw [withID_read hid] at h
  split at h
  · cases h
  · cases h
    rfl

theorem createShare_wp (r : Request) (s : System) :
    wp services Mints (gateway.createShare r)
      (fun resp s' => ∀ token, resp = (Op.createShare r token).reply →
        Effect s.db.jobs (.createShare r token) s'.db.jobs) s := by
  have hF : Refuses fun resp s' => ∀ token, resp = (Op.createShare r token).reply →
      Effect s.db.jobs (.createShare r token) s'.db.jobs := by
    rintro status msg s' hstatus token ⟨⟩
  apply wp_finish
  apply wpTry_bind
  apply authenticated_wp r hF
  intro claims
  apply wpTry_bind
  apply requireID_wp hF
  apply wpTry_bind
  apply ownedJob_wp hF
  intro job hid hmem
  apply wpTry_bind
  apply wpTry_orGiveUp
  apply randomToken_wp
  · exact fun _ => hF 500 _ s (by omega)
  · intro token hminted
    apply wpTry_bind
    apply exec_wp hF
    intro now n db hexec token' hreply
    cases hreply
    change Effect s.db.jobs _ db.jobs
    rw [setShareToken_jobs hid hexec]
    exact .shared r token job.id now hid ⟨job, hmem, rfl⟩ hminted

theorem deleteShare_wp (r : Request) (s : System) :
    wp services Mints (gateway.deleteShare r)
      (fun resp s' => resp = (Op.deleteShare r).reply →
        Effect s.db.jobs (.deleteShare r) s'.db.jobs) s := by
  have hF : Refuses fun resp s' => resp = (Op.deleteShare r).reply →
      Effect s.db.jobs (.deleteShare r) s'.db.jobs := by
    rintro status msg s' hstatus ⟨⟩
  apply wp_finish
  apply wpTry_bind
  apply authenticated_wp r hF
  intro claims
  apply wpTry_bind
  apply requireID_wp hF
  apply wpTry_bind
  apply ownedJob_wp hF
  intro job hid hmem
  apply wpTry_bind
  apply exec_wp hF
  intro now n db hexec _
  change Effect s.db.jobs _ db.jobs
  rw [setShareToken_jobs hid hexec]
  exact .revoked r job.id now hid ⟨job, hmem, rfl⟩

theorem deleteObjects_only (keys : List String) :
    (deleteObjects keys).Only (fun c => ∃ key, c = .deleteObject key) fun _ => True := by
  induction keys with
  | nil => trivial
  | cons key keys ih =>
    unfold deleteObjects
    split
    · exact ih
    · exact ⟨⟨key, rfl⟩, fun _ => ih⟩

theorem deleteObjects_wp (keys : List String) (s : System) :
    wp services Mints (deleteObjects keys) (fun _ s' => s'.db = s.db) s := by
  refine wp_mono (wp_only (J := fun s' => s'.db = s.db) (deleteObjects_only keys) rfl ?_)
    fun _ _ h => h.2
  rintro s' c o ⟨key, rfl⟩ - hsame
  change (if landed o then s'.put key none else s').db = s.db
  split
  · exact hsame
  · exact hsame

theorem deleteJob_wp (r : Request) (s : System) :
    wp services Mints (gateway.deleteJob r)
      (fun resp s' => resp = (Op.deleteJob r).reply →
        Effect s.db.jobs (.deleteJob r) s'.db.jobs) s := by
  have hF : Refuses fun resp s' => resp = (Op.deleteJob r).reply →
      Effect s.db.jobs (.deleteJob r) s'.db.jobs := by
    rintro status msg s' hstatus ⟨⟩
  apply wp_finish
  apply wpTry_bind
  apply authenticated_wp r hF
  intro claims
  apply wpTry_bind
  apply requireID_wp hF
  apply wpTry_bind
  apply ownedJob_wp hF
  intro job hid hmem
  apply wpTry_bind
  apply wpTry_lift
  refine wp_mono (deleteObjects_wp (s3KeysForJob job) s) ?_
  rintro _ s₁ hsame
  apply wpTry_bind
  apply exec_wp hF
  intro now n db hsegments
  apply wpTry_bind
  apply exec_wp hF
  intro now' n' db' hjob _
  change s₁.db.exec now (.deleteSegments _) = _ at hsegments
  change db.exec now' (.deleteJob _) = _ at hjob
  change withID _ _ = _ at hsegments hjob
  rw [withID_read hid] at hsegments hjob
  cases hsegments
  cases hjob
  change Effect s.db.jobs _ (s₁.db.jobs.filter (·.id ≠ job.id))
  rw [hsame]
  exact .deleted r job.id hid

/-- What a successful operation does to the rows. -/
theorem op_effect {op : Op} {s s' : System} {os : List Outcome}
    (hmeets : Meets services Mints os (op.handle, s))
    (hrun : run services os (op.handle, s) = (.done op.reply, s')) :
    Effect s.db.jobs op s'.db.jobs := by
  cases op with
  | createShare r token => exact wp_run (createShare_wp r s) hmeets hrun token rfl
  | deleteShare r => exact wp_run (deleteShare_wp r s) hmeets hrun rfl
  | deleteJob r => exact wp_run (deleteJob_wp r s) hmeets hrun rfl

/-! ## Runs -/

/-- Successful operations one after another, newest first. -/
inductive Runs (s₀ : System) : List Op → System → Prop where
  | start : Runs s₀ [] s₀
  | step {ops : List Op} {s s' : System} (op : Op) (os : List Outcome) (h : Runs s₀ ops s)
      (hmeets : Meets services Mints os (op.handle, s))
      (hrun : run services os (op.handle, s) = (.done op.reply, s')) : Runs s₀ (op :: ops) s'

/-- The run lemma. -/
theorem runs_track {s₀ s : System} {ops : List Op} (hfresh : Unshared s₀.db.jobs)
    (h : Runs s₀ ops s) : Tracks ops s.db.jobs := by
  induction h with
  | start => exact hfresh.tracks
  | step op os h hmeets hrun ih => exact tracks_effect ih (op_effect hmeets hrun)

/-! ## What everybody sees -/

def Shows (resp : Response) (id : String) : Prop :=
  ∃ job transcript, resp = ⟨200, .publicShare job transcript⟩ ∧ job.id = id

/-- The response shows the row, and its segments only. -/
def ShowsRow (db : pipeline.Db) (resp : Response) (row : Job) : Prop :=
  ∃ url, resp = ⟨200, .publicShare ⟨row.id, row.originalName, row.durationMs, row.stage, url⟩
    (db.segmentsOf row.id)⟩

/-- The response to a token, as the history and the rows tell it. -/
structure Follows (ops : List Op) (db : pipeline.Db) (token : String) (resp : Response) : Prop where
  shown : ∀ id, Shows resp id ↔ shareOf ops id = some token
  own : ∀ id, Shows resp id → ∃ row ∈ db.jobs, row.id = id ∧ ShowsRow db resp row ∧
    ∀ r ∈ db.segmentsOf row.id, r.jobID = id
  missing : token ≠ "" → Readable token → (∀ id, shareOf ops id ≠ some token) →
    resp = writeErr 404 "share not found"

/-- The database answers. -/
def Answers (_ : System) (c : Call) (o : Outcome) : Prop :=
  ∀ k q, c = .query k q → o.fails = false

theorem answers_wp {s : System} {q : Query} {Q : Except DbError q.Row → System → Prop}
    (h : Q (s.db.rows q) s) : wp services Answers (ask (.query none q)) Q s := by
  intro o ho
  change Q (if o.fails then .error .failed else s.db.rows q) s
  rw [ho none q rfl]
  exact h

theorem outputURL_wp {E : System → Call → Outcome → Prop} {s : System} (row : Job)
    {Q : String → System → Prop} (hQ : ∀ url, Q url s) : wp services E (outputURL row) Q s := by
  unfold outputURL
  cases row.outputFile with
  | none => exact hQ ""
  | some outputFile =>
    dsimp only
    split
    · exact hQ ""
    · intro o _
      change wp services E _ Q s
      generalize (services.answer o s (.presign outputFile)).1 = x
      change Except String String at x
      cases x with
      | error e => exact hQ ""
      | ok url => exact hQ url

theorem segmentsOf_job {db : pipeline.Db} {id : String} {r : TranscriptSegment}
    (h : r ∈ db.segmentsOf id) : r.jobID = id := by
  unfold pipeline.Db.segmentsOf at h
  have hmem := (List.perm_insertionSort _ _).mem_iff.mp h
  simpa using (List.mem_filter.mp hmem).2

/-- The row of a token, or none. -/
theorem publicShare_wp {s : System} {token : String} (hempty : token ≠ "")
    (hreadable : Readable token) (hcanonical : ∀ job ∈ s.db.jobs, uuidIn job.id = some job.id) :
    wp services Answers (publicShare token) (fun resp _ =>
      (∃ row ∈ s.db.jobs, row.shareToken = some token ∧ ShowsRow s.db resp row) ∨
        (∀ row ∈ s.db.jobs, row.shareToken ≠ some token) ∧
          resp = writeErr 404 "share not found") s := by
  obtain ⟨t, ht⟩ := Option.isSome_iff_exists.mp hreadable
  apply wp_finish
  apply wpTry_bind
  apply wpTry_giveUpIf
  · intro h
    exact absurd (of_decide_eq_true h) hempty
  intro _
  apply wpTry_bind
  apply wpTry_orGiveUp
  apply answers_wp
  unfold pipeline.Db.rows
  dsimp only
  rw [ht]
  dsimp only
  cases hfind : s.db.jobs.find? (·.shareToken = some token) with
  | none =>
    right
    refine ⟨fun row hmem hshared => ?_, rfl⟩
    have hnone := List.find?_eq_none.mp hfind row hmem
    simp [hshared] at hnone
  | some row =>
    have hmem := List.mem_of_find?_eq_some hfind
    have hshared : row.shareToken = some token := by simpa using List.find?_some hfind
    apply wpTry_bind
    apply wpTry_giveUpIf
    · intro h
      rw [hshared] at h
      exact absurd (of_decide_eq_true h) hempty
    intro _
    apply wpTry_bind
    apply wpTry_orGiveUp
    apply answers_wp
    unfold pipeline.Db.rows
    dsimp only
    rw [hcanonical row hmem]
    apply wpTry_bind
    apply wpTry_lift
    apply outputURL_wp
    intro url
    left
    exact ⟨row, hmem, hshared, url, rfl⟩

/-- A token that the route or PostgreSQL does not take. -/
theorem publicShare_refuses {s : System} {token : String} (h : token = "" ∨ ¬ Readable token) :
    wp services Answers (publicShare token)
      (fun resp _ => ∃ status msg, resp = writeErr status msg) s := by
  apply wp_finish
  apply wpTry_bind
  apply wpTry_giveUpIf
  · exact fun _ => ⟨400, _, rfl⟩
  intro hsome
  have hunread : ¬ Readable token := h.resolve_left (of_decide_eq_false hsome)
  have hnone : PgText.of (text token) = none := by
    unfold Readable at hunread
    simpa using hunread
  apply wpTry_bind
  apply wpTry_orGiveUp
  apply answers_wp
  unfold pipeline.Db.rows
  dsimp only
  rw [hnone]
  exact ⟨500, _, rfl⟩

/-! ## The law -/

theorem shown_row {db : pipeline.Db} {resp : Response} {row : Job} (h : ShowsRow db resp row)
    (id : String) : Shows resp id ↔ id = row.id := by
  obtain ⟨url, rfl⟩ := h
  constructor
  · rintro ⟨job, transcript, hresp, rfl⟩
    cases hresp
    rfl
  · rintro rfl
    exact ⟨_, _, rfl, rfl⟩

theorem error_shows_nothing (status : Nat) (msg id : String) : ¬ Shows (writeErr status msg) id := by
  rintro ⟨job, transcript, hresp, -⟩
  cases hresp

/-- A token shows its job while it is the last that was made for it, and no other token shows
one. -/
theorem share_links_follow_their_history {s₀ s s' : System} {ops : List Op} {token : String}
    {os : List Outcome} {resp : Response} (hfresh : Unshared s₀.db.jobs) (hruns : Runs s₀ ops s)
    (honce : (tokens ops).Nodup) (hmeets : Meets services Answers os (publicShare token, s))
    (hrun : run services os (publicShare token, s) = (.done resp, s')) :
    Follows ops s.db token resp := by
  have htracks := runs_track hfresh hruns
  by_cases hgood : token ≠ "" ∧ Readable token
  · rcases wp_run (publicShare_wp hgood.1 hgood.2 htracks.canonical) hmeets hrun with
      ⟨row, hmem, hshared, hrow⟩ | ⟨hnone, rfl⟩
    · have hshare : shareOf ops row.id = some token := by
        rw [← htracks.token row hmem, hshared]
      constructor
      · intro id
        rw [shown_row hrow]
        constructor
        · rintro rfl
          exact hshare
        · intro h
          exact shareOf_injective honce h hshare
      · intro id hshows
        obtain rfl := (shown_row hrow id).mp hshows
        exact ⟨row, hmem, rfl, hrow, fun r hr => segmentsOf_job hr⟩
      · exact fun _ _ hnot => absurd hshare (hnot row.id)
    · constructor
      · intro id
        refine ⟨fun h => absurd h (error_shows_nothing _ _ id), fun h => ?_⟩
        obtain ⟨job, hmem, rfl⟩ := htracks.present id token h
        exact absurd ((htracks.token job hmem).trans h) (hnone job hmem)
      · exact fun id h => absurd h (error_shows_nothing _ _ id)
      · exact fun _ _ _ => rfl
  · have hbad : token = "" ∨ ¬ Readable token := by
      by_cases hempty : token = ""
      · exact Or.inl hempty
      · exact Or.inr fun hread => hgood ⟨hempty, hread⟩
    obtain ⟨status, msg, rfl⟩ := wp_run (publicShare_refuses hbad) hmeets hrun
    constructor
    · intro id
      refine ⟨fun h => absurd h (error_shows_nothing status msg id), fun h => ?_⟩
      have hminted := htracks.minted token (shareOf_mem h)
      exact absurd ⟨minted_ne_empty hminted, minted_readable hminted⟩ hgood
    · exact fun id h => absurd h (error_shows_nothing status msg id)
    · exact fun hempty hread _ => absurd ⟨hempty, hread⟩ hgood

/-! ## Ada's link -/

def adasToken : String := generateShareToken (List.replicate 32 7)

def adasShare : Op :=
  .createShare
    { claims := some ⟨"ada", "user"⟩
      urlParam := fun k => if k = "id" then adasJob.id else ""
      form := .error "file field is required"
      edits := none } adasToken

def adasSystem : System := withJob { adasJob with shareToken := some adasToken }

theorem adasToken_minted : IsMinted adasToken := ⟨_, List.length_replicate, rfl⟩

theorem adas_share_runs : Runs (withJob adasJob) [adasShare] adasSystem := by
  refine .step adasShare (List.replicate 3 { fresh := adasToken }) .start ?_ ?_
  · apply meets_of_choices
    intro o ho s c _
    rw [List.eq_of_mem_replicate ho]
    exact adasToken_minted
  · with_unfolding_all rfl

theorem adas_link_shows_her_job :
    Follows [adasShare] adasSystem.db adasToken
      ⟨200, .publicShare ⟨adasJob.id, "talk.mp4", 0, .completed, "https://store/final.mp4"⟩ []⟩ := by
  have hfresh : Unshared (withJob adasJob).db.jobs := by
    constructor
    · intro job hmem
      rw [List.mem_singleton.mp hmem]
      decide
    · exact List.nodup_singleton _
    · intro job hmem
      rw [List.mem_singleton.mp hmem]
      rfl
  have hanswers : ∀ o ∈ List.replicate 3 ({ fresh := "https://store/final.mp4" } : Outcome),
      ∀ s c, Answers s c o := by
    intro o ho s c k q _
    rw [List.eq_of_mem_replicate ho]
  exact share_links_follow_their_history hfresh adas_share_runs
    (List.nodup_singleton _) (meets_of_choices hanswers _ _) (by with_unfolding_all rfl)

/-- A token with a NUL is an error of the database, and not a link that is missing. -/
theorem a_nul_in_a_token_is_an_error :
    Unshared noJobs.db.jobs ∧ Runs noJobs [] noJobs ∧ (∀ id, shareOf [] id ≠ some "\x00") ∧
      Meets services Answers [{}] (publicShare "\x00", noJobs) ∧
      run services [{}] (publicShare "\x00", noJobs) =
        (.done (writeErr 500 "internal server error"), noJobs) ∧
      writeErr 500 "internal server error" ≠ writeErr 404 "share not found" := by
  have hfresh : Unshared [] := ⟨by simp, List.nodup_nil, by simp⟩
  refine ⟨hfresh, .start, by simp [shareOf], ?_, by with_unfolding_all rfl, ?_⟩
  · apply meets_of_choices
    intro o ho s c k q _
    rw [List.mem_singleton.mp ho]
  · simp [writeErr]

end recast_rules.shares
