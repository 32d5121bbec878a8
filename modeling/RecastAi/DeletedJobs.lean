-- What is left of a job that was deleted (`DeleteJob` in `internal/gateway/handler/jobs.go`). The
-- keys to delete come from the row of the job, and the row does not name the audio of the segments.
import RecastAi.JobKeys
import RecastAi.ShareLinks

open call_programs py_text recast_rules.transcript recast_rules.models recast_rules.pipeline
open recast_rules.gateway recast_rules.job_keys recast_rules.py

namespace recast_rules.deleted_jobs

/-- `Store.Delete` succeeds. -/
def DeletesSucceed (_ : System) (c : Call) (o : Outcome) : Prop :=
  ∀ key, c = .deleteObject key → o.fails = false

/-- No object that was written for the job is stored, and no row of it is there. The services
write the id of the job in one way or another. -/
structure LeavesNothing (job : Job) (s : System) : Prop where
  video : s.stored job.originalFile = none
  audio : ∀ jobID idx, uuidIn jobID = some job.id → s.stored (tts.audioKey jobID idx) = none
  output : ∀ jobID, uuidIn jobID = some job.id → s.stored (mux.outputKey jobID) = none
  jobs : ∀ row ∈ s.db.jobs, row.id ≠ job.id
  segments : ∀ row ∈ s.db.segments, row.jobID ≠ job.id
  events : ∀ row ∈ s.db.jobEvents, row.jobID ≠ job.id

/-- No audio of a segment is stored for the job, and an output that is stored for it is the one
that its row names. -/
structure StoresNamed (job : Job) (s : System) : Prop where
  audio : ∀ jobID idx, uuidIn jobID = some job.id → s.stored (tts.audioKey jobID idx) = none
  output : ∀ jobID, uuidIn jobID = some job.id → s.stored (mux.outputKey jobID) ≠ none →
    job.outputFile = some (mux.outputKey jobID)

/-! ## The run of the handler -/

section Run

variable {s s' : System}

theorem stored_put_none (s : System) (key key' : String) :
    (s.put key none).stored key' = if key' = key then none else s.stored key' := by
  unfold System.stored System.put
  dsimp only
  split_ifs <;> rfl

/-- The objects of the keys are gone, and nothing else is. -/
theorem deleteObjects_wp (keys : List String) (s : System) :
    wp services DeletesSucceed (deleteObjects keys)
      (fun _ s' => s'.db = s.db ∧
        ∀ key, s'.stored key = if key ∈ keys then none else s.stored key) s := by
  induction keys generalizing s with
  | nil => exact ⟨rfl, fun key => by simp⟩
  | cons key keys ih =>
    unfold deleteObjects
    split
    · rename_i hempty
      refine wp_mono (ih s) ?_
      rintro _ s' ⟨hdb, hstored⟩
      refine ⟨hdb, fun key' => ?_⟩
      rw [hstored]
      by_cases hkey : key' = key
      · have hnone : s.stored key' = none := if_pos (hkey.trans hempty)
        simp [hnone]
      · simp [hkey]
    · intro o ho
      have hlanded : landed o = true := by
        unfold landed
        rw [ho key rfl]
        rfl
      have hstate : (services.answer o s (.deleteObject key)).2 = s.put key none := if_pos hlanded
      rw [hstate]
      refine wp_mono (ih (s.put key none)) ?_
      rintro _ s' ⟨hdb, hstored⟩
      refine ⟨hdb, fun key' => ?_⟩
      rw [hstored, stored_put_none]
      by_cases hkey : key' = key <;> simp [hkey]

/-- The handler has deleted the objects that the row names, and the rows. -/
structure Deleted (job : Job) (s s' : System) : Prop where
  stored : ∀ key, s'.stored key = if key ∈ s3KeysForJob job then none else s.stored key
  jobs : ∀ row ∈ s'.db.jobs, row.id ≠ job.id
  segments : ∀ row ∈ s'.db.segments, row.jobID ≠ job.id
  events : ∀ row ∈ s'.db.jobEvents, row.jobID ≠ job.id

theorem deleteJob_wp (r : gateway.Request) (s : System) :
    wp services DeletesSucceed (gateway.deleteJob r)
      (fun resp s' => resp = ⟨204, .empty⟩ →
        ∃ job ∈ s.db.jobs, uuidIn (r.urlParam "id") = some job.id ∧ Deleted job s s') s := by
  have hF : shares.Refuses fun resp s' => resp = ⟨204, .empty⟩ →
      ∃ job ∈ s.db.jobs, uuidIn (r.urlParam "id") = some job.id ∧ Deleted job s s' := by
    rintro status msg s' hstatus ⟨⟩
  apply wp_finish
  apply wpTry_bind
  apply shares.authenticated_wp r hF
  intro claims
  apply wpTry_bind
  apply shares.requireID_wp hF
  apply wpTry_bind
  apply shares.ownedJob_wp hF
  intro job hid hmem
  apply wpTry_bind
  apply wpTry_lift
  refine wp_mono (deleteObjects_wp (s3KeysForJob job) s) ?_
  rintro _ s₁ ⟨hdb, hstored⟩
  apply wpTry_bind
  apply shares.exec_wp hF
  intro now n db hsegments
  apply wpTry_bind
  apply shares.exec_wp hF
  intro now' n' db' hjob _
  change s₁.db.exec now (.deleteSegments _) = _ at hsegments
  change db.exec now' (.deleteJob _) = _ at hjob
  change withID _ _ = _ at hsegments hjob
  rw [withID_read hid] at hsegments hjob
  cases hsegments
  cases hjob
  refine ⟨job, hmem, hid, hstored, ?_, ?_, ?_⟩
  · intro row hrow
    simpa using (List.mem_filter.mp hrow).2
  · intro row hrow
    simpa using (List.mem_filter.mp hrow).2
  · intro row hrow
    simpa using (List.mem_filter.mp hrow).2

end Run

/-! ## The keys of a row -/

theorem audioKey_head (jobID : String) (idx : Int) :
    (tts.audioKey jobID idx).toList.head? = some 'a' := by
  simp only [tts.audioKey, String.toList_append]
  rfl

theorem outputKey_head (jobID : String) : (mux.outputKey jobID).toList.head? = some 'o' := by
  simp only [mux.outputKey, String.toList_append]
  rfl

theorem videoKey_head (jobID name : String) : (videoKey jobID name).toList.head? = some 'u' := by
  simp only [videoKey, String.toList_append]
  rfl

theorem audio_not_named {job : Job} (h : Named job) (jobID : String) (idx : Int) :
    tts.audioKey jobID idx ∉ s3KeysForJob job := by
  intro hmem
  have hhead := audioKey_head jobID idx
  simp only [s3KeysForJob, h.audio, Option.toList_none, List.nil_append, List.mem_cons,
    Option.mem_toList] at hmem
  rcases hmem with hvideo | hout
  · obtain ⟨jobID', name, hkey⟩ := h.video
    rw [hvideo, hkey, videoKey_head] at hhead
    cases hhead
  · obtain ⟨jobID', -, hkey⟩ := h.output _ hout
    rw [hkey, outputKey_head] at hhead
    cases hhead

theorem output_named_iff {job : Job} (h : Named job) (jobID : String) :
    mux.outputKey jobID ∈ s3KeysForJob job ↔ job.outputFile = some (mux.outputKey jobID) := by
  simp only [s3KeysForJob, h.audio, Option.toList_none, List.nil_append, List.mem_cons,
    Option.mem_toList, or_iff_right_iff_imp]
  intro hvideo
  have hhead := outputKey_head jobID
  obtain ⟨jobID', name, hkey⟩ := h.video
  rw [hvideo, hkey, videoKey_head] at hhead
  cases hhead

/-! ## The law -/

theorem leavesNothing_iff {job : Job} {s s' : System} (hnamed : Named job) (h : Deleted job s s') :
    LeavesNothing job s' ↔ StoresNamed job s := by
  have haudio : ∀ jobID idx,
      s'.stored (tts.audioKey jobID idx) = s.stored (tts.audioKey jobID idx) := by
    intro jobID idx
    rw [h.stored, if_neg (audio_not_named hnamed jobID idx)]
  constructor
  · intro hnothing
    refine ⟨fun jobID idx hid => ?_, fun jobID hid hthere => ?_⟩
    · rw [← haudio]
      exact hnothing.audio jobID idx hid
    · by_contra hother
      have hgone := hnothing.output jobID hid
      rw [h.stored, if_neg (mt (output_named_iff hnamed jobID).mp hother)] at hgone
      exact hthere hgone
  · intro hnames
    refine ⟨?_, fun jobID idx hid => ?_, fun jobID hid => ?_, h.jobs, h.segments, h.events⟩
    · have hfirst : job.originalFile ∈ s3KeysForJob job := List.mem_cons_self
      rw [h.stored, if_pos hfirst]
    · rw [haudio]
      exact hnames.audio jobID idx hid
    · rw [h.stored]
      split
      · rfl
      · rename_i hother
        by_contra hthere
        exact hother ((output_named_iff hnamed jobID).mpr (hnames.output jobID hid hthere))

/-- In every state that the pipeline reaches, a job that is deleted leaves nothing behind exactly
where no audio of its segments is stored and its row names the output that is. -/
theorem deleted_jobs_leave_nothing_iff {start : System} (hclean : Clean start)
    (parties : List Party) (picks : List (Nat × Outcome)) (r : gateway.Request)
    {os : List Outcome} {s' : System}
    (hmeets : Meets services DeletesSucceed os (gateway.deleteJob r, reached start parties picks))
    (hrun : run services os (gateway.deleteJob r, reached start parties picks) =
      (.done ⟨204, .empty⟩, s')) :
    ∃ job ∈ (reached start parties picks).db.jobs, uuidIn (r.urlParam "id") = some job.id ∧
      (LeavesNothing job s' ↔ StoresNamed job (reached start parties picks)) := by
  obtain ⟨job, hmem, hid, hdeleted⟩ := wp_run (deleteJob_wp r _) hmeets hrun rfl
  have hkept := kept_reached hclean parties picks
  exact ⟨job, hmem, hid, leavesNothing_iff (hkept.rows job hmem) hdeleted⟩

/-! ## A job with a narration -/

def adasID : String := "6f9619ff-8b86-d011-b42d-00c04fc964ff"

def adasRequest : gateway.Request where
  claims := some ⟨"16fd2706-8baf-433b-82eb-8c7fada847da", "user"⟩
  urlParam k := if k = "id" then adasID else ""
  form := .ok ⟨[1], "talk.mp4", "nova", "", ""⟩
  edits := none

/-- A message for her video as the analyzer reads it. -/
def adasVideo : Json :=
  .object [(text "job_id", goString adasID), (text "trace_id", goString "t"),
    (text "payload", .object [(text "object_key", goString (videoKey adasID "talk.mp4")),
      (text "voice_id", goString "nova")])]

/-- What the model answers. -/
def adasAnalysis : Json :=
  .object [(text "segments", .array [.object [(text "segment_id", .int 1),
    (text "start_ms", .int 0), (text "end_ms", .int 1000), (text "text", goString "hello"),
    (text "confidence", .int 1)]])]

def adasStart : System := { noJobs with accepted := [⟨analyzer.ingestionQueue, adasVideo⟩] }

def adasParties : List Party :=
  [.create adasRequest, .consumer (.analyzer fun _ => []) (.worker 0) 1,
    .consumer (.synthesis (tts.defaults fun _ => [])) (.worker 1) 1]

/-- Her job is created. -/
def created : List (Nat × Outcome) := List.replicate 6 (0, { fresh := adasID })

/-- Then it is analyzed and synthesized. -/
def narrated : List (Nat × Outcome) :=
  created ++ List.replicate 15 (1, { fresh := adasID, raw := adasAnalysis, ms := 1000 }) ++
    List.replicate 13 (2, { ms := 1000 })

/-- She deletes it, and nothing fails. -/
def afterDelete (picks : List (Nat × Outcome)) : Service Response × System :=
  run services (List.replicate 4 {})
    (gateway.deleteJob adasRequest, reached adasStart adasParties picks)

def isNoContent : Service Response → Bool
  | .done ⟨204, .empty⟩ => true
  | _ => false

theorem done_of_isNoContent {p : Service Response} (h : isNoContent p = true) :
    p = .done ⟨204, .empty⟩ := by
  unfold isNoContent at h
  split at h
  · rfl
  · cases h

theorem afterDelete_done {picks : List (Nat × Outcome)}
    (h : isNoContent (afterDelete picks).1 = true) :
    run services (List.replicate 4 {})
        (gateway.deleteJob adasRequest, reached adasStart adasParties picks) =
      (.done ⟨204, .empty⟩, (afterDelete picks).2) := Prod.ext (done_of_isNoContent h) rfl

theorem adasDelete_meets (picks : List (Nat × Outcome)) :
    Meets services DeletesSucceed (List.replicate 4 {})
      (gateway.deleteJob adasRequest, reached adasStart adasParties picks) := by
  apply meets_of_choices
  intro o ho s c key _
  rw [List.eq_of_mem_replicate ho]

theorem adasStart_clean : Clean adasStart := ⟨rfl, fun _ => rfl⟩

/-- Her job without a narration leaves nothing, and it had nothing but its video. -/
theorem adas_new_job_is_deleted :
    ∃ job ∈ (reached adasStart adasParties created).db.jobs,
      uuidIn (adasRequest.urlParam "id") = some job.id ∧
        (LeavesNothing job (afterDelete created).2 ↔
          StoresNamed job (reached adasStart adasParties created)) :=
  deleted_jobs_leave_nothing_iff adasStart_clean adasParties created adasRequest
    (adasDelete_meets created) (afterDelete_done (by decide +kernel))

/-- Her job is gone, and the audio of its segment is still there. -/
theorem adas_narration_outlives_her_job :
    Meets services DeletesSucceed (List.replicate 4 {})
        (gateway.deleteJob adasRequest, reached adasStart adasParties narrated) ∧
      run services (List.replicate 4 {})
          (gateway.deleteJob adasRequest, reached adasStart adasParties narrated) =
        (.done ⟨204, .empty⟩, (afterDelete narrated).2) ∧
      ∀ job, uuidIn (adasRequest.urlParam "id") = some job.id →
        ¬ LeavesNothing job (afterDelete narrated).2 := by
  have hdeletes : isNoContent (afterDelete narrated).1 = true ∧
      ((afterDelete narrated).2.stored (tts.audioKey adasID 1)).isSome = true := by
    decide +kernel
  refine ⟨adasDelete_meets narrated, afterDelete_done hdeletes.1, fun job hid hnothing => ?_⟩
  have hgone := hnothing.audio adasID 1 hid
  rw [hgone] at hdeletes
  cases hdeletes.2

end recast_rules.deleted_jobs
