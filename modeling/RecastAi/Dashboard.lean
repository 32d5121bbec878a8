-- The jobs of the gateway as the web app reads them. The dashboard
-- (`web/src/app/dashboard/page.tsx`) lists, selects and deletes them, and the page of a job
-- (`web/src/app/jobs/[id]/page.tsx`) follows one.
import RecastAi.EditorDrafts
import RecastAi.WordTimings

open event_machines py_text recast_rules.models
open recast_rules.transcript (Json)
open recast_rules.word_timings (property stageName)

namespace recast_rules.dashboard

/-! ## The bodies of the gateway -/

/-- `sql.NullString` has no encoding of its own, and `omitempty` omits no struct. -/
def nullString (s : Option String) : Json :=
  .object [(text "String", goString (s.getD "")), (text "Valid", .bool s.isSome)]

def nullTime (rfc3339 : Nat → String) (t : Option Nat) : Json :=
  .object [(text "Time", goString ((t.map rfc3339).getD "0001-01-01T00:00:00Z")),
    (text "Valid", .bool t.isSome)]

/-- `models.Job` of `ListJobs` and `GetJob`. They select no `share_token` and no
`thumbnail_path`. -/
def encodeJob (rfc3339 : Nat → String) (job : Job) : Json :=
  .object [(text "id", goString job.id), (text "user_id", goString job.userID),
    (text "stage", goString (stageName job.stage)),
    (text "original_file", goString job.originalFile),
    (text "original_name", goString job.originalName), (text "duration_ms", .int job.durationMs),
    (text "voice_id", goString job.voiceID), (text "style", goString job.style),
    (text "language", goString job.language), (text "priority", .int job.priority),
    (text "audio_path", nullString job.audioPath), (text "output_file", nullString job.outputFile),
    (text "download_url", nullString job.downloadURL), (text "share_token", nullString none),
    (text "thumbnail_path", nullString none), (text "error_message", nullString job.errorMessage),
    (text "trace_id", goString job.traceID), (text "created_at", goString (rfc3339 job.createdAt)),
    (text "updated_at", goString (rfc3339 job.updatedAt)),
    (text "completed_at", nullTime rfc3339 job.completedAt)]

def listJobsResponse (rfc3339 : Nat → String) (jobs : List Job) : Json :=
  .object [(text "jobs", .array (jobs.map (encodeJob rfc3339)))]

/-! ## The client -/

/-- What `http` makes of a body of a request that succeeded. -/
def httpBody (body : Json) : Json := (property body "data").getD body

def getJobs (body : Json) : List Json :=
  match httpBody body with
  | .array jobs => jobs
  | res =>
    match property res "jobs" with
    | some (.array jobs) => jobs
    | _ => []

def textAt (v : Json) (key : String) : Option Text :=
  match property v key with
  | some (.str t) => some t
  | _ => none

/-- What the dashboard reads of a `Job`, with nothing for `undefined`. -/
structure WebJob where
  id : Text
  name : Option Text
  status : Option Text
deriving DecidableEq

def readJob (v : Json) : WebJob := ⟨(textAt v "id").getD [], textAt v "name", textAt v "status"⟩

/-- `toLowerCase`, and the layout of a time. -/
structure Tools where
  rfc3339 : Nat → String
  toLowerCase : Text → Text
  lower_nil : toLowerCase [] = []

/-- The answer to `GET /v1/jobs`, as the page gets it. -/
def listed (tools : Tools) (rows : List Job) : List WebJob :=
  (getJobs (listJobsResponse tools.rfc3339 rows)).map readJob

/-! ## The page -/

inductive StatusFilter where
  | all | processing | completed | failed
deriving DecidableEq

structure Page where
  jobs : List WebJob
  selected : List Text
  query : Text
  statusFilter : StatusFilter

def Page.ids (p : Page) : List Text := p.jobs.map (·.id)

def nonTerminalStages : List Text :=
  ["uploaded", "analyzing", "transcribed", "synthesizing", "muxing"].map text

def hasActiveJob (p : Page) : Bool :=
  p.jobs.any fun j => j.status.any (· ∈ nonTerminalStages)

def bucketFor (stage : Option Text) : StatusFilter :=
  if stage = some (text "completed") then .completed
  else if stage = some (text "failed") then .failed
  else .processing

/-- The white space and the line ends of ECMAScript. -/
def jsSpace (c : Nat) : Bool :=
  (9 ≤ c && c ≤ 13) || c = 32 || c = 160 || c = 0x1680 || (0x2000 ≤ c && c ≤ 0x200A) ||
    c = 0x2028 || c = 0x2029 || c = 0x202F || c = 0x205F || c = 0x3000 || c = 0xFEFF

def trim (t : Text) : Text := (t.dropWhile jsSpace).rdropWhile jsSpace

def filteredJobs (tools : Tools) (p : Page) : List WebJob :=
  let q := tools.toLowerCase (trim p.query)
  p.jobs.filter fun job =>
    (p.statusFilter = .all || bucketFor job.status = p.statusFilter) &&
      (q = [] || decide (q <:+: tools.toLowerCase (job.name.getD [])))

/-- `setJobs`, and the effect that prunes the selection. -/
def Page.setJobs (p : Page) (jobs : List WebJob) : Page :=
  { p with jobs, selected := p.selected.filter (· ∈ jobs.map (·.id)) }

def Page.toggleSelect (p : Page) (id : Text) (next : Bool) : Page :=
  { p with selected :=
      if next then if id ∈ p.selected then p.selected else p.selected ++ [id]
      else p.selected.filter (· ≠ id) }

/-! ## Deletions -/

/-- A call of `deleteJob`: on its way, done by the gateway, or settled for the page. -/
inductive CallState where
  | asked | removed | settled (fulfilled : Bool)
deriving DecidableEq

/-- `handleDelete` and `handleBulkDelete` at their `await`. -/
structure Deletion where
  bulk : Bool
  calls : List (Text × CallState)
deriving DecidableEq

def Deletion.fulfilled (d : Deletion) : List Text :=
  (d.calls.filter (·.2 = .settled true)).map (·.1)

def Deletion.settled (d : Deletion) : Bool :=
  d.calls.all fun c => c.2 = .settled true || c.2 = .settled false

/-- The handlers from their `await` on. -/
def Page.deleted (p : Page) (d : Deletion) : Page :=
  { p with
    selected := if d.bulk then [] else p.selected.filter (· ∉ d.fulfilled) }.setJobs
      (p.jobs.filter (·.id ∉ d.fulfilled))

/-! ## The page and the gateway -/

/-- `rows` are the jobs of the user, newest first, and `gone` the ids that were among them.
`requests` are not answered yet, and `answers` are on their way to the page. -/
structure World where
  rows : List Job
  gone : List Text
  requests : Nat
  answers : List (List WebJob)
  deletions : List Deletion
  page : Page
  refreshes : Nat

/-- `load` is a fetch of the page when it opens or after an upload, `interval` one of its timer.
`others` is everything else that happens to the jobs of the user. -/
inductive Event where
  | load
  | interval
  | answer
  | drop
  | arrive (i : Nat)
  | lose (i : Nat)
  | others (rows : List Job)
  | toggle (id : Text) (next : Bool)
  | clear
  | search (query : Text)
  | filterBy (f : StatusFilter)
  | delete (id : Text)
  | bulkDelete
  | remove (d k : Nat)
  | settle (d k : Nat) (ok : Bool)
  | finish (d : Nat)

/-- The gateway handles the call `k` of `d`. A job that is not there is not found. -/
def World.remove (w : World) (d k : Nat) : World :=
  match w.deletions[d]? with
  | none => w
  | some deletion =>
    match deletion.calls[k]? with
    | some (id, .asked) =>
      if id ∈ w.rows.map (text ·.id) then
        { w with
          rows := w.rows.filter (text ·.id ≠ id)
          gone := id :: w.gone
          deletions := w.deletions.set d { deletion with
            calls := deletion.calls.set k (id, .removed) } }
      else w
    | _ => w

/-- The page hears of the call `k` of `d`. It is fulfilled only by a `204`, which the gateway writes
last. -/
def World.settle (w : World) (d k : Nat) (ok : Bool) : World :=
  match w.deletions[d]? with
  | none => w
  | some deletion =>
    match deletion.calls[k]? with
    | none => w
    | some (id, state) =>
      if state = .removed ∨ state = .asked ∧ ok = false then
        { w with deletions := w.deletions.set d { deletion with
            calls := deletion.calls.set k (id, .settled ok) } }
      else w

def World.finish (w : World) (d : Nat) : World :=
  match w.deletions[d]? with
  | none => w
  | some deletion =>
    if deletion.settled then
      { w with page := w.page.deleted deletion, deletions := w.deletions.eraseIdx d }
    else w

/-- A card is there for each of the filtered jobs. An id of a job is never given to another one. -/
def World.step (tools : Tools) (w : World) : Event → World
  | .load => { w with requests := w.requests + 1 }
  | .interval =>
    if hasActiveJob w.page then
      { w with requests := w.requests + 1, refreshes := w.refreshes + 1 }
    else w
  | .answer =>
    if w.requests = 0 then w
    else { w with requests := w.requests - 1, answers := w.answers ++ [listed tools w.rows] }
  | .drop => { w with requests := w.requests - 1 }
  | .arrive i =>
    match w.answers[i]? with
    | none => w
    | some jobs => { w with page := w.page.setJobs jobs, answers := w.answers.eraseIdx i }
  | .lose i => { w with answers := w.answers.eraseIdx i }
  | .others rows =>
    if ∀ row ∈ rows, text row.id ∉ w.gone then
      { w with
        rows
        gone := (w.rows.map (text ·.id)).filter (· ∉ rows.map (text ·.id)) ++ w.gone }
    else w
  | .toggle id next =>
    if id ∈ (filteredJobs tools w.page).map (·.id) then
      { w with page := w.page.toggleSelect id next }
    else w
  | .clear => { w with page := { w.page with selected := [] } }
  | .search query => { w with page := { w.page with query } }
  | .filterBy f => { w with page := { w.page with statusFilter := f } }
  | .delete id =>
    if id ∈ (filteredJobs tools w.page).map (·.id) then
      { w with deletions := w.deletions ++ [⟨false, [(id, .asked)]⟩] }
    else w
  | .bulkDelete =>
    if w.page.selected = [] then w
    else { w with deletions := w.deletions ++ [⟨true, w.page.selected.map (·, .asked)⟩] }
  | .remove d k => w.remove d k
  | .settle d k ok => w.settle d k ok
  | .finish d => w.finish d

/-- The page when it is opened. -/
def opened (rows : List Job) : World :=
  ⟨rows, [], 0, [], [], ⟨[], [], [], .all⟩, 0⟩

/-- A visit of the dashboard. -/
def visit (tools : Tools) (rows : List Job) (events : List Event) : World :=
  run (World.step tools) (opened rows) events

/-! ## What the client reads of a job -/

theorem listed_eq (tools : Tools) (rows : List Job) :
    listed tools rows = rows.map fun job => ⟨text job.id, none, none⟩ := by
  unfold listed
  rw [show getJobs (listJobsResponse tools.rfc3339 rows) = rows.map (encodeJob tools.rfc3339)
    from rfl, List.map_map]
  rfl

theorem listed_ids (tools : Tools) (rows : List Job) :
    (listed tools rows).map (·.id) = rows.map (text ·.id) := by
  rw [listed_eq, List.map_map]
  rfl

/-! ## The handlers -/

theorem mem_setJobs_selected {p : Page} {jobs : List WebJob} {id : Text} :
    id ∈ (p.setJobs jobs).selected ↔ id ∈ p.selected ∧ id ∈ jobs.map (·.id) := by
  simp [Page.setJobs, List.mem_filter]

theorem mem_deleted_ids {p : Page} {d : Deletion} {id : Text} :
    id ∈ (p.deleted d).ids ↔ id ∈ p.ids ∧ id ∉ d.fulfilled := by
  unfold Page.deleted Page.ids
  simp only [Page.setJobs, List.mem_map, List.mem_filter, decide_eq_true_eq]
  constructor
  · rintro ⟨job, ⟨hjob, hkept⟩, rfl⟩
    exact ⟨⟨job, hjob, rfl⟩, hkept⟩
  · rintro ⟨⟨job, hjob, rfl⟩, hkept⟩
    exact ⟨job, ⟨hjob, hkept⟩, rfl⟩

theorem remove_cases (w : World) (d k : Nat) :
    w.remove d k = w ∨ ∃ deletion id, w.deletions[d]? = some deletion ∧
      w.remove d k = { w with
        rows := w.rows.filter (text ·.id ≠ id)
        gone := id :: w.gone
        deletions := w.deletions.set d { deletion with
          calls := deletion.calls.set k (id, .removed) } } := by
  unfold World.remove
  cases hd : w.deletions[d]? with
  | none => exact .inl rfl
  | some deletion =>
    dsimp only
    split
    · split
      · exact .inr ⟨deletion, _, rfl, rfl⟩
      · exact .inl rfl
    · exact .inl rfl

theorem settle_cases (w : World) (d k : Nat) (ok : Bool) :
    w.settle d k ok = w ∨ ∃ deletion id state, w.deletions[d]? = some deletion ∧
      (id, state) ∈ deletion.calls ∧ (ok = true → state = .removed) ∧
      w.settle d k ok = { w with deletions := w.deletions.set d { deletion with
        calls := deletion.calls.set k (id, .settled ok) } } := by
  unfold World.settle
  cases hd : w.deletions[d]? with
  | none => exact .inl rfl
  | some deletion =>
    dsimp only
    cases hk : deletion.calls[k]? with
    | none => exact .inl rfl
    | some call =>
      obtain ⟨id, state⟩ := call
      dsimp only
      split
      · rename_i hstate
        refine .inr ⟨deletion, id, state, rfl, List.mem_of_getElem? hk, fun hok => ?_, rfl⟩
        rcases hstate with hstate | ⟨-, hfalse⟩
        · exact hstate
        · rw [hok] at hfalse
          cases hfalse
      · exact .inl rfl

theorem finish_cases (w : World) (d : Nat) :
    w.finish d = w ∨ ∃ deletion, w.deletions[d]? = some deletion ∧
      w.finish d = { w with
        page := w.page.deleted deletion
        deletions := w.deletions.eraseIdx d } := by
  unfold World.finish
  cases hd : w.deletions[d]? with
  | none => exact .inl rfl
  | some deletion =>
    dsimp only
    split
    · exact .inr ⟨deletion, rfl, rfl⟩
    · exact .inl rfl

/-- What a step adds to the jobs of the page and to the lists on their way. -/
structure Shows (tools : Tools) (w w' : World) : Prop where
  gone : w.gone ⊆ w'.gone
  jobs : ∀ job ∈ w'.page.jobs, job ∈ w.page.jobs ∨ ∃ jobs ∈ w.answers, job ∈ jobs
  lists : ∀ jobs ∈ w'.answers, jobs ∈ w.answers ∨ jobs = listed tools w.rows
  refreshes : hasActiveJob w.page = false → w'.refreshes = w.refreshes

/-- A step that leaves the page's jobs, the lists and the refreshes alone. -/
theorem Shows.of_eq {tools : Tools} {w w' : World} (hgone : w.gone ⊆ w'.gone)
    (hjobs : w'.page.jobs = w.page.jobs) (hlists : w'.answers = w.answers)
    (hrefreshes : w'.refreshes = w.refreshes) : Shows tools w w' :=
  ⟨hgone, fun _ hjob => .inl (hjobs ▸ hjob), fun _ hlist => .inl (hlists ▸ hlist),
    fun _ => hrefreshes⟩

theorem toggleSelect_jobs (p : Page) (id : Text) (next : Bool) :
    (p.toggleSelect id next).jobs = p.jobs := by
  cases next <;> rfl

/-- A list that arrives is the page's, and only the gateway writes a new one. -/
theorem step_shows (tools : Tools) (w : World) (e : Event) : Shows tools w (w.step tools e) := by
  have hsame : Shows tools w w := .of_eq (List.Subset.refl _) rfl rfl rfl
  cases e with
  | load | drop | search query | filterBy f | clear => exact .of_eq (List.Subset.refl _) rfl rfl rfl
  | interval =>
    dsimp only [World.step]
    split
    · rename_i hactive
      exact ⟨hsame.gone, hsame.jobs, hsame.lists, fun hnone => absurd hactive (by simp [hnone])⟩
    · exact hsame
  | answer =>
    dsimp only [World.step]
    split
    · exact hsame
    · refine ⟨hsame.gone, hsame.jobs, fun jobs hjobs => ?_, hsame.refreshes⟩
      rwa [List.mem_append, List.mem_singleton] at hjobs
  | arrive i =>
    dsimp only [World.step]
    split
    · exact hsame
    · rename_i jobs hjobs
      exact ⟨hsame.gone, fun job hjob => .inr ⟨jobs, List.mem_of_getElem? hjobs, hjob⟩,
        fun other hother => .inl (List.mem_of_mem_eraseIdx hother), hsame.refreshes⟩
  | lose i =>
    exact ⟨hsame.gone, hsame.jobs, fun jobs hjobs => .inl (List.mem_of_mem_eraseIdx hjobs),
      hsame.refreshes⟩
  | others rows =>
    dsimp only [World.step]
    split
    · exact .of_eq (List.subset_append_right _ _) rfl rfl rfl
    · exact hsame
  | toggle id next =>
    dsimp only [World.step]
    split
    · exact .of_eq (List.Subset.refl _) (toggleSelect_jobs w.page id next) rfl rfl
    · exact hsame
  | delete _ | bulkDelete =>
    dsimp only [World.step]
    split <;> exact .of_eq (List.Subset.refl _) rfl rfl rfl
  | remove d k =>
    change Shows tools w (w.remove d k)
    rcases remove_cases w d k with hw | ⟨deletion, id, -, hw⟩ <;> rw [hw]
    · exact hsame
    · exact .of_eq (List.subset_cons_self _ _) rfl rfl rfl
  | settle d k ok =>
    change Shows tools w (w.settle d k ok)
    rcases settle_cases w d k ok with hw | ⟨deletion, id, state, -, -, -, hw⟩ <;> rw [hw]
    · exact hsame
    · exact .of_eq (List.Subset.refl _) rfl rfl rfl
  | finish d =>
    change Shows tools w (w.finish d)
    rcases finish_cases w d with hw | ⟨deletion, -, hw⟩ <;> rw [hw]
    · exact hsame
    · exact ⟨hsame.gone, fun job hjob => .inl (List.mem_of_mem_filter hjob), hsame.lists,
        hsame.refreshes⟩

/-! ## The selection and the removed jobs -/

/-- The jobs whose calls were done are gone. -/
def Deletion.Gone (gone : List Text) (d : Deletion) : Prop :=
  ∀ c ∈ d.calls, c.2 = .removed ∨ c.2 = .settled true → c.1 ∈ gone

structure Sound (w : World) : Prop where
  selected : ∀ id ∈ w.page.selected, id ∈ w.page.ids
  removed : ∀ d ∈ w.deletions, d.Gone w.gone
  rows : ∀ row ∈ w.rows, text row.id ∉ w.gone

theorem Deletion.Gone.mono {gone gone' : List Text} {d : Deletion} (h : d.Gone gone)
    (hsub : gone ⊆ gone') : d.Gone gone' :=
  fun c hc hdone => hsub (h c hc hdone)

theorem Deletion.Gone.set {gone : List Text} {d : Deletion} (h : d.Gone gone) (k : Nat)
    {id : Text} {state : CallState} (hid : state = .removed ∨ state = .settled true → id ∈ gone) :
    Deletion.Gone gone { d with calls := d.calls.set k (id, state) } := by
  intro c hc hdone
  rcases List.mem_or_eq_of_mem_set hc with hc | rfl
  · exact h c hc hdone
  · exact hid hdone

theorem gone_set {gone : List Text} {ds : List Deletion} {d : Deletion} {i : Nat}
    (h : ∀ d ∈ ds, d.Gone gone) (hd : d.Gone gone) : ∀ e ∈ ds.set i d, e.Gone gone := by
  intro e he
  rcases List.mem_or_eq_of_mem_set he with he | rfl
  · exact h e he
  · exact hd

theorem setJobs_sound (p : Page) (jobs : List WebJob) :
    ∀ id ∈ (p.setJobs jobs).selected, id ∈ (p.setJobs jobs).ids :=
  fun _ hid => (mem_setJobs_selected.mp hid).2

theorem asked_gone (gone : List Text) (bulk : Bool) (ids : List Text) :
    Deletion.Gone gone ⟨bulk, ids.map (·, .asked)⟩ := by
  intro c hc hdone
  obtain ⟨id, -, rfl⟩ := List.mem_map.mp hc
  simp at hdone

theorem gone_append {gone : List Text} {ds : List Deletion} {d : Deletion}
    (h : ∀ d ∈ ds, d.Gone gone) (hd : d.Gone gone) : ∀ e ∈ ds ++ [d], e.Gone gone := by
  intro e he
  rcases List.mem_append.mp he with he | he
  · exact h e he
  · rwa [List.mem_singleton.mp he]

theorem toggle_sound {p : Page} {id : Text} (hid : id ∈ p.ids)
    (h : ∀ id ∈ p.selected, id ∈ p.ids) (next : Bool) :
    ∀ other ∈ (p.toggleSelect id next).selected, other ∈ p.ids := by
  intro other hother
  unfold Page.toggleSelect at hother
  cases next with
  | false => exact h other (List.mem_filter.mp hother).1
  | true =>
    dsimp only at hother
    rw [if_pos rfl] at hother
    split at hother
    · exact h other hother
    · rcases List.mem_append.mp hother with hother | hother
      · exact h other hother
      · rwa [List.mem_singleton.mp hother]

theorem shown_of_filtered {tools : Tools} {p : Page} {id : Text}
    (h : id ∈ (filteredJobs tools p).map (·.id)) : id ∈ p.ids := by
  obtain ⟨job, hjob, rfl⟩ := List.mem_map.mp h
  exact List.mem_map_of_mem (List.mem_of_mem_filter hjob)

theorem remove_sound {w : World} (h : Sound w) (d k : Nat) : Sound (w.remove d k) := by
  rcases remove_cases w d k with hw | ⟨deletion, id, hd, hw⟩
  · rwa [hw]
  rw [hw]
  have hsub : w.gone ⊆ id :: w.gone := List.subset_cons_self id w.gone
  refine ⟨h.selected, ?_, ?_⟩
  · have hdel := (h.removed deletion (List.mem_of_getElem? hd)).mono hsub
    exact gone_set (fun e he => (h.removed e he).mono hsub)
      (hdel.set k fun _ => List.mem_cons_self)
  · intro row hrow
    obtain ⟨hrow, hne⟩ := List.mem_filter.mp hrow
    rw [List.mem_cons, not_or]
    exact ⟨of_decide_eq_true hne, h.rows row hrow⟩

theorem settle_sound {w : World} (h : Sound w) (d k : Nat) (ok : Bool) :
    Sound (w.settle d k ok) := by
  rcases settle_cases w d k ok with hw | ⟨deletion, id, state, hd, hcall, hok, hw⟩
  · rwa [hw]
  rw [hw]
  have hdel := h.removed deletion (List.mem_of_getElem? hd)
  refine ⟨h.selected, gone_set h.removed (hdel.set k fun hstate => ?_), h.rows⟩
  have htrue : ok = true := by simpa using hstate
  exact hdel (id, state) hcall (.inl (hok htrue))

theorem finish_sound {w : World} (h : Sound w) (d : Nat) : Sound (w.finish d) := by
  rcases finish_cases w d with hw | ⟨deletion, hd, hw⟩
  · rwa [hw]
  rw [hw]
  exact ⟨setJobs_sound _ _, fun e he => h.removed e (List.mem_of_mem_eraseIdx he), h.rows⟩

theorem step_sound (tools : Tools) (w : World) (e : Event) (h : Sound w) :
    Sound (w.step tools e) := by
  cases e with
  | load | drop | lose i | search query | filterBy f => exact ⟨h.selected, h.removed, h.rows⟩
  | interval =>
    dsimp only [World.step]
    split
    · exact ⟨h.selected, h.removed, h.rows⟩
    · exact h
  | answer =>
    dsimp only [World.step]
    split
    · exact h
    · exact ⟨h.selected, h.removed, h.rows⟩
  | arrive i =>
    dsimp only [World.step]
    split
    · exact h
    · exact ⟨setJobs_sound _ _, h.removed, h.rows⟩
  | others rows =>
    dsimp only [World.step]
    split
    · rename_i hnew
      refine ⟨h.selected, fun d hd => (h.removed d hd).mono (List.subset_append_right _ _), ?_⟩
      intro row hrow hgone
      rcases List.mem_append.mp hgone with hgone | hgone
      · exact of_decide_eq_true (List.mem_filter.mp hgone).2 (List.mem_map_of_mem hrow)
      · exact hnew row hrow hgone
    · exact h
  | toggle id next =>
    dsimp only [World.step]
    split
    · rename_i hid
      exact ⟨toggle_sound (shown_of_filtered hid) h.selected next, h.removed, h.rows⟩
    · exact h
  | clear => exact ⟨fun _ hid => absurd hid List.not_mem_nil, h.removed, h.rows⟩
  | delete id =>
    dsimp only [World.step]
    split
    · exact ⟨h.selected, gone_append h.removed (asked_gone w.gone false [id]), h.rows⟩
    · exact h
  | bulkDelete =>
    dsimp only [World.step]
    split
    · exact h
    · exact ⟨h.selected, gone_append h.removed (asked_gone w.gone true _), h.rows⟩
  | remove d k => exact remove_sound h d k
  | settle d k ok => exact settle_sound h d k ok
  | finish d => exact finish_sound h d

theorem opened_sound (rows : List Job) : Sound (opened rows) :=
  ⟨fun _ hid => hid, fun _ hd => absurd hd List.not_mem_nil, fun _ _ => List.not_mem_nil⟩

theorem visit_sound (tools : Tools) (rows : List Job) (events : List Event) :
    Sound (visit tools rows events) :=
  run_keeps (step_sound tools) (opened_sound rows) events

theorem visit_append (tools : Tools) (rows : List Job) (before after : List Event) :
    visit tools rows (before ++ after) = run (World.step tools) (visit tools rows before) after :=
  run_append _ before after

/-! ## A job that is gone -/

/-- The job is gone, and no list has it. -/
structure Away (id : Text) (w : World) : Prop where
  gone : id ∈ w.gone
  shown : id ∉ w.page.ids
  lists : ∀ jobs ∈ w.answers, id ∉ jobs.map (·.id)

theorem step_away (tools : Tools) {id : Text} (w : World) (e : Event) (h : Sound w ∧ Away id w) :
    Sound (w.step tools e) ∧ Away id (w.step tools e) := by
  obtain ⟨hsound, haway⟩ := h
  have hstep := step_shows tools w e
  refine ⟨step_sound tools w e hsound, hstep.gone haway.gone, fun hid => ?_, fun jobs hjobs hid => ?_⟩
  · obtain ⟨job, hjob, rfl⟩ := List.mem_map.mp hid
    rcases hstep.jobs job hjob with hjob | ⟨jobs, hjobs, hjob⟩
    · exact haway.shown (List.mem_map_of_mem hjob)
    · exact haway.lists jobs hjobs (List.mem_map_of_mem hjob)
  · rcases hstep.lists jobs hjobs with hjobs | rfl
    · exact haway.lists jobs hjobs hid
    · -- the rows have none that is gone
      rw [listed_ids] at hid
      obtain ⟨row, hrow, rfl⟩ := List.mem_map.mp hid
      exact hsound.rows row hrow haway.gone

/-- The deletion `d` is settled, and its call for `id` is fulfilled. -/
def Fulfilled (w : World) (d : Nat) (id : Text) : Prop :=
  ∃ deletion, w.deletions[d]? = some deletion ∧ deletion.settled = true ∧ id ∈ deletion.fulfilled

theorem finish_fulfilled {w : World} {d : Nat} {id : Text} (hsound : Sound w)
    (h : Fulfilled w d id) :
    id ∈ (w.finish d).gone ∧ id ∉ (w.finish d).page.ids ∧ (w.finish d).answers = w.answers := by
  obtain ⟨deletion, hd, hsettled, hid⟩ := h
  have hfinish : w.finish d = { w with
      page := w.page.deleted deletion
      deletions := w.deletions.eraseIdx d } := by
    unfold World.finish
    simp only [hd]
    rw [if_pos hsettled]
  rw [hfinish]
  refine ⟨?_, fun hshown => (mem_deleted_ids.mp hshown).2 hid, rfl⟩
  obtain ⟨call, hcall, rfl⟩ := List.mem_map.mp hid
  obtain ⟨hcall, hok⟩ := List.mem_filter.mp hcall
  exact hsound.removed deletion (List.mem_of_getElem? hd) call hcall (.inr (of_decide_eq_true hok))

/-- The only job of Ada. -/
def adasJob : Job where
  id := "job-1"
  userID := "ada"
  stage := .completed
  originalFile := "uploads/job-1/a.mp4"
  originalName := "a.mp4"
  durationMs := 1000
  voiceID := "joanna"
  style := "formal"
  language := "en"
  priority := 0
  audioPath := none
  outputFile := some "outputs/job-1/final.mp4"
  downloadURL := none
  shareToken := none
  errorMessage := none
  traceID := ""
  createdAt := 1
  updatedAt := 2
  completedAt := some 2

def adasTools : Tools := ⟨fun _ => "2026-01-01T00:00:00Z", fun t => t, rfl⟩

/-- She sees her job and deletes it. -/
def adasVisit : List Event :=
  [.load, .answer, .arrive 0, .delete (text "job-1"), .remove 0 0, .settle 0 0 true]

/-- What `loadJob` makes of the answer to `GET /v1/jobs/{id}`. It asks for the transcript only in
some stages. -/
def loadJob {R : Type} (body : Json) (transcript : List (drafts.Segment R)) : drafts.Page R :=
  let status := ((textAt (httpBody body) "status").map ofText).getD ""
  if status ∈ drafts.transcriptStages then drafts.opened status transcript 0
  else drafts.opened status [] 0

/-- `job.output_url || job.video_url || ""`. -/
def videoSrc (body : Json) : Text :=
  match textAt (httpBody body) "output_url" with
  | some (c :: url) => c :: url
  | _ => (textAt (httpBody body) "video_url").getD []

/-- The export button is not disabled. -/
def exportEnabled {R : Type} (s : drafts.Page R) : Bool := s.status = "completed"

/-- The page of a job that follows nothing, shows no editor and exports nothing. -/
structure Idle {R : Type} (s : drafts.Page R) : Prop where
  status : s.status = ""
  connected : s.connected = false
  editor : s.editor = none
  behind : s.behind = false
  saves : s.saves = []
  refetches : s.refetches = 0
  exports : exportEnabled s = false

theorem onEditor_idle {R : Type} {s : drafts.Page R} (h : Idle s)
    (f : drafts.Editor R → drafts.Editor R) : Idle (s.onEditor f) :=
  ⟨h.status, h.connected, by simp [drafts.Page.onEditor, h.editor], h.behind, h.saves, h.refetches,
    h.exports⟩

theorem step_idle {R : Type} (s : drafts.Page R) (e : drafts.Event R) (h : Idle s) :
    Idle (s.step e) := by
  cases e with
  | typed id text => exact onEditor_idle h _
  | save => simpa only [drafts.Page.step, drafts.Page.handleSave, h.editor] using h
  | saved i result =>
    simpa only [drafts.Page.step, drafts.Page.saved, h.saves, List.getElem?_nil] using h
  | stage stage =>
    simpa only [drafts.Page.step, drafts.Page.stageEvent, h.connected, Bool.false_and,
      Bool.false_eq_true, if_false] using h
  | refetched result =>
    simpa only [drafts.Page.step, drafts.Page.refetched, h.refetches, if_true] using h
  | sync =>
    simpa only [drafts.Page.step, drafts.Page.syncEffect, h.behind, Bool.false_eq_true,
      if_false] using h
  | revert => exact onEditor_idle h _

theorem loadJob_idle {R : Type} (rfc3339 : Nat → String) (job : Job)
    (transcript : List (drafts.Segment R)) : Idle (loadJob (encodeJob rfc3339 job) transcript) :=
  ⟨rfl, rfl, rfl, rfl, rfl, rfl, rfl⟩

/-! ## Jobs without a stage -/

/-- No job of the page or of a list has a name or a status. -/
structure Nameless (w : World) : Prop where
  shown : ∀ job ∈ w.page.jobs, job.name = none ∧ job.status = none
  lists : ∀ jobs ∈ w.answers, ∀ job ∈ jobs, job.name = none ∧ job.status = none
  refreshes : w.refreshes = 0

theorem Nameless.no_active_job {w : World} (h : Nameless w) : hasActiveJob w.page = false := by
  unfold hasActiveJob
  rw [List.any_eq_false]
  intro job hjob
  simp [(h.shown job hjob).2]

theorem step_nameless (tools : Tools) (w : World) (e : Event) (h : Nameless w) :
    Nameless (w.step tools e) := by
  have hstep := step_shows tools w e
  refine ⟨fun job hjob => ?_, fun jobs hjobs job hjob => ?_,
    (hstep.refreshes h.no_active_job).trans h.refreshes⟩
  · rcases hstep.jobs job hjob with hjob | ⟨jobs, hjobs, hjob⟩
    · exact h.shown job hjob
    · exact h.lists jobs hjobs job hjob
  · rcases hstep.lists jobs hjobs with hjobs | rfl
    · exact h.lists jobs hjobs job hjob
    · rw [listed_eq] at hjob
      obtain ⟨row, -, rfl⟩ := List.mem_map.mp hjob
      exact ⟨rfl, rfl⟩

theorem opened_nameless (rows : List Job) : Nameless (opened rows) :=
  ⟨fun _ hjob => absurd hjob List.not_mem_nil, fun _ hjobs => absurd hjobs List.not_mem_nil, rfl⟩

theorem visit_nameless (tools : Tools) (rows : List Job) (events : List Event) :
    Nameless (visit tools rows events) :=
  run_keeps (step_nameless tools) (opened_nameless rows) events

/-- What the cards show: all jobs are in the bucket `processing`, and no name has any text. -/
theorem Nameless.filteredJobs {w : World} (h : Nameless w) (tools : Tools) :
    filteredJobs tools w.page =
      if (w.page.statusFilter = .all ∨ w.page.statusFilter = .processing) ∧
        tools.toLowerCase (trim w.page.query) = [] then w.page.jobs else [] := by
  unfold dashboard.filteredJobs
  split
  · rename_i hall
    rw [List.filter_eq_self]
    intro job hjob
    rcases hall.1 with hf | hf <;> simp [hf, hall.2, (h.shown job hjob).2, bucketFor]
  · rename_i hsome
    rw [List.filter_eq_nil_iff]
    intro job hjob hkept
    simp only [(h.shown job hjob).1, (h.shown job hjob).2, Option.getD_none, tools.lower_nil,
      List.infix_nil, Bool.and_eq_true, Bool.or_eq_true, decide_eq_true_eq, or_self] at hkept
    refine hsome ⟨hkept.1.imp_right fun hf => ?_, hkept.2⟩
    rw [← hf]
    rfl

/-- THE WEB APP READS NO STAGE: against the answers of the gateway, the dashboard never refreshes
by itself and shows all its jobs or none of them, and the page of a job never follows it, edits
nothing, plays nothing and never exports. -/
theorem the_web_app_reads_no_stage (tools : Tools) (rows : List Job) (events : List Event) :
    (visit tools rows events).refreshes = 0 ∧
    filteredJobs tools (visit tools rows events).page =
      (if ((visit tools rows events).page.statusFilter = .all ∨
          (visit tools rows events).page.statusFilter = .processing) ∧
        tools.toLowerCase (trim (visit tools rows events).page.query) = []
      then (visit tools rows events).page.jobs else []) ∧
    ∀ (job : Job) (R : Type) (transcript : List (drafts.Segment R)) (clicks : List (drafts.Event R)),
      videoSrc (encodeJob tools.rfc3339 job) = [] ∧
      Idle (run drafts.Page.step (loadJob (encodeJob tools.rfc3339 job) transcript) clicks) := by
  have hnameless := visit_nameless tools rows events
  refine ⟨hnameless.refreshes, hnameless.filteredJobs tools, fun job R transcript clicks => ?_⟩
  exact ⟨rfl, run_keeps step_idle (loadJob_idle tools.rfc3339 job transcript) clicks⟩

end recast_rules.dashboard
