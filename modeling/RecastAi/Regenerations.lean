-- The request for a new synthesis of one segment (`internal/gateway/handler/segments.go`), and
-- what the synthesis makes of its message. It takes it for a whole job of one segment.
import Mathlib.Data.List.Forall2
import RecastAi.AudioHop
import RecastAi.GatewaySteps

open call_programs py_text recast_rules.transcript recast_rules.models recast_rules.pipeline
open recast_rules.py

namespace recast_rules.regenerations

/-! ## A regeneration and a job -/

abbrev Calls := List (Sigma Answer)

/-- The segments that the synthesis is asked to regenerate. -/
def Classified (msg : Json) (ids : List Int) : Prop :=
  ∃ payload, getOr msg "payload" (.object []) = .ok payload ∧
    tts.regenerationIDs (orElse payload (.object [])) = .ok ids

/-- The regenerated segments, as an audio message lists them. -/
def regenerated (body : Json) : Except String Json :=
  subscript body "payload" >>= fun payload => subscript payload "regenerated_segment_ids"

/-- The audio of other segments is not replaced. -/
def OnlySegment (segmentIdx : Int) (c : Call) : Prop :=
  ∀ conn jobID idx columns, c = .exec conn (.setAudio jobID idx columns) → idx = segmentIdx

/-- The calls of a round that handles a message as a regeneration of this segment. -/
structure HandledAsRegeneration (segmentIdx : Int) (msg : Json) (es : Calls) : Prop where
  classified : Classified msg [segmentIdx]
  only : ∀ e ∈ es, OnlySegment segmentIdx e.1
  stage : ∀ e ∈ es, ∀ conn jobID stage, e.1 ≠ .exec conn (.setStage jobID stage)
  event : ∀ e ∈ es, ∀ channel, e.1 ≠ .notify channel
  listed : ∀ e ∈ es, ∀ queue body, e.1 = .publish queue (some body) →
    regenerated body = .ok (.array [.int segmentIdx])

/-- The calls of a round that handles it as a whole job. -/
structure HandledAsJob (es : Calls) : Prop where
  stage : ∃ e ∈ es, ∃ conn jobID, e.1 = .exec (some conn) (.setStage jobID .synthesized)
  event : ∃ e ∈ es, ∃ channel, e.1 = .notify channel
  unlisted : ∃ e ∈ es, ∃ body, e.1 = .publish tts.audioQueue (some body) ∧
    regenerated body = .ok .null

theorem HandledAsJob.mono {es es' : Calls} (h : HandledAsJob es) (hes : es ⊆ es') :
    HandledAsJob es' := by
  obtain ⟨⟨e, he, hstage⟩, ⟨e', he', hevent⟩, e'', he'', hunlisted⟩ := h
  exact ⟨⟨e, hes he, hstage⟩, ⟨e', hes he', hevent⟩, e'', hes he'', hunlisted⟩

/-! ## The message -/

theorem regenerated_audioMessage (jobID : String) (traceID : Json) (attemptID : String)
    (ids : List Int) (voiceID : Text) (regenOnly : Bool) :
    regenerated (tts.audioMessage jobID traceID attemptID ids voiceID regenOnly) =
      .ok (if regenOnly then .array (ids.map .int) else .null) := by
  with_unfolding_all rfl

/-- A payload with these segments. -/
def withSegments (segments : List tts.SegmentDict) (voiceID : String) : Json :=
  .object [(text "segments", .array (segments.map .object)), (text "voice_id", goString voiceID)]

/-- A payload with one segment. -/
def oneSegment (fields : tts.SegmentDict) (voiceID : String) : Json :=
  .object [(text "segments", .array [.object fields]), (text "voice_id", goString voiceID)]

/-- What the synthesis finds of a row in a message. -/
structure WrittenRow (row : TranscriptSegment) (fields : tts.SegmentDict) : Prop where
  id : fields.lookup (text "segment_id") = some (.int row.segmentIdx.val)
  start : fields.lookup (text "start_ms") = some (.int row.startMs.val)
  stop : fields.lookup (text "end_ms") = some (.int row.endMs.val)

theorem row_is_written {row : TranscriptSegment} {json : Json} (h : row.encode = some json) :
    ∃ fields, json = .object fields ∧ WrittenRow row fields := by
  unfold TranscriptSegment.encode at h
  simp only [Option.bind_eq_bind, Option.bind_eq_some_iff, Option.pure_def,
    Option.some.injEq] at h
  obtain ⟨confidence, -, rfl⟩ := h
  exact ⟨_, rfl, rfl, rfl, rfl⟩

theorem rows_are_written {rows : List TranscriptSegment} {jsons : List Json}
    (h : rows.mapM TranscriptSegment.encode = some jsons) :
    ∃ dicts, jsons = dicts.map .object ∧ List.Forall₂ WrittenRow rows dicts := by
  induction rows generalizing jsons with
  | nil =>
    obtain rfl := Option.some.inj h
    exact ⟨[], rfl, .nil⟩
  | cons row rows ih =>
    simp only [List.mapM_cons, Option.bind_eq_bind, Option.bind_eq_some_iff, Option.pure_def,
      Option.some.injEq] at h
    obtain ⟨json, hjson, rest, hrest, rfl⟩ := h
    obtain ⟨fields, rfl, hrow⟩ := row_is_written hjson
    obtain ⟨dicts, rfl, hrows⟩ := ih hrest
    exact ⟨fields :: dicts, rfl, .cons hrow hrows⟩

/-- The handler writes each segment with its number, and does not ask for a regeneration. -/
theorem message_has_segments {jobID : String} {job : Job} {rows : List TranscriptSegment}
    {body : Json} (hrows : rows ≠ [])
    (h : (gateway.transcriptMessage jobID job rows).encode TranscriptPayload.encode = some body) :
    ∃ dicts, List.Forall₂ WrittenRow rows dicts ∧
      body = .object [(text "job_id", goString jobID), (text "trace_id", goString job.traceID),
        (text "stage_attempt_id", goString ""), (text "payload", withSegments dicts job.voiceID)] := by
  unfold QueueMessage.encode TranscriptPayload.encode gateway.transcriptMessage at h
  simp only [Option.bind_eq_bind, Option.bind_eq_some_iff, Option.pure_def,
    Option.some.injEq] at h
  obtain ⟨payload, ⟨segments, hsegments, rfl⟩, rfl⟩ := h
  obtain ⟨dicts, rfl, hwritten⟩ := rows_are_written hsegments
  refine ⟨dicts, hwritten, ?_⟩
  have hdicts : dicts.map Json.object ≠ [] := by
    intro hnil
    rw [List.map_eq_nil_iff.mp hnil] at hwritten
    exact hrows (List.forall₂_nil_right_iff.mp hwritten)
  rw [if_neg hdicts]
  rfl

theorem message_has_one_segment {jobID : String} {job : Job} {row : TranscriptSegment} {body : Json}
    (h : (gateway.transcriptMessage jobID job [row]).encode TranscriptPayload.encode = some body) :
    ∃ fields, getOr body "payload" (.object []) = .ok (oneSegment fields job.voiceID) ∧
      fields.lookup (text "segment_id") = some (.int row.segmentIdx.val) := by
  obtain ⟨dicts, hwritten, rfl⟩ := message_has_segments (List.cons_ne_nil row []) h
  obtain ⟨fields, rest, hrow, hrest, rfl⟩ := List.forall₂_cons_left_iff.mp hwritten
  obtain rfl := List.forall₂_nil_left_iff.mp hrest
  exact ⟨fields, rfl, hrow.id⟩

/-- Segments with numbers are taken as they are. -/
theorem inlined {dicts : List tts.SegmentDict} (idx : Nat)
    (h : ∀ fields ∈ dicts, ∃ n, fields.lookup (text "segment_id") = some (.int n)) :
    tts.inlineSegments idx (dicts.map .object) = .ok dicts := by
  induction dicts generalizing idx with
  | nil => rfl
  | cons fields dicts ih =>
    obtain ⟨n, hn⟩ := h fields List.mem_cons_self
    have hrest := ih (idx + 1) fun d hd => h d (List.mem_cons_of_mem fields hd)
    unfold tts.inlineSegments
    rw [List.map_cons]
    dsimp only
    rw [hrest, hn]
    rfl

theorem segments_ask_nothing (dicts : List tts.SegmentDict) (voiceID : String) :
    tts.regenerationIDs (orElse (withSegments dicts voiceID) (.object [])) = .ok [] := by
  with_unfolding_all rfl

theorem segments_selected {dicts : List tts.SegmentDict} {voiceID : String} (conn : Conn)
    (jobID : String) (hdicts : dicts ≠ [])
    (h : ∀ fields ∈ dicts, ∃ n, fields.lookup (text "segment_id") = some (.int n)) :
    tts.selectSegments conn jobID (orElse (withSegments dicts voiceID) (.object [])) =
      raising (.ok dicts) := by
  unfold tts.selectSegments
  rw [segments_ask_nothing, raising_ok_bind, if_neg (not_not.mpr rfl)]
  obtain ⟨fields, rest, rfl⟩ := List.exists_cons_of_ne_nil hdicts
  exact congrArg raising (inlined 0 h)

section OneSegment

variable {cfg : tts.Settings} {conn : Conn} {msg : Json} {fields : tts.SegmentDict}
  {voiceID : String} {segmentIdx : Int}

theorem oneSegment_asks_nothing (fields : tts.SegmentDict) (voiceID : String) :
    tts.regenerationIDs (orElse (oneSegment fields voiceID) (.object [])) = .ok [] :=
  segments_ask_nothing [fields] voiceID

/-- So the synthesis does not take it for a regeneration. -/
theorem oneSegment_not_classified
    (h : getOr msg "payload" (.object []) = .ok (oneSegment fields voiceID)) :
    ¬ Classified msg [segmentIdx] := by
  rintro ⟨payload, hpayload, hids⟩
  rw [h] at hpayload
  obtain rfl := Except.ok.inj hpayload
  rw [oneSegment_asks_nothing] at hids
  cases Except.ok.inj hids

theorem oneSegment_selected (conn : Conn) (jobID : String)
    (h : fields.lookup (text "segment_id") = some (.int segmentIdx)) :
    tts.selectSegments conn jobID (orElse (oneSegment fields voiceID) (.object [])) =
      raising (.ok [fields]) := by
  apply segments_selected conn jobID (List.cons_ne_nil fields [])
  intro d hd
  rw [List.mem_singleton.mp hd]
  exact ⟨segmentIdx, h⟩

/-! ## What is done of it -/

/-- The rest of a round, after the segments. -/
theorem rest_of_job {jobID : String} {traceID : Json} {ids : List Int} {voice : Text} {es : Calls}
    (h : Trace (do
      tts.unlessRegen false (tts.markJobSynthesized conn jobID)
      let attemptID : String ← ExceptT.lift (ask .newString)
      must (ask (.publish tts.audioQueue
        (some (tts.audioMessage jobID traceID attemptID ids voice false))))
      tts.unlessRegen false (must (ask (.notify s!"job:{jobID}"))) : Py Unit).run es (.ok ())) :
    HandledAsJob es := by
  obtain ⟨es₁, es₂, u, rfl, hstage, h⟩ := trace_attempt h
  obtain ⟨es₃, es₄, attemptID, rfl, hstring, h⟩ := trace_attempt h
  obtain ⟨es₅, es₆, u', rfl, hpublish, hnotify⟩ := trace_attempt h
  obtain ⟨x, rest, rfl, -⟩ := trace_call hstage
  obtain ⟨y, rest', rfl, -⟩ := trace_call hpublish
  obtain ⟨z, rest'', rfl, -⟩ := trace_call hnotify
  refine ⟨⟨_, List.mem_cons_self, conn, jobID, rfl⟩, ⟨⟨.notify s!"job:{jobID}", z⟩, ?_, _, rfl⟩,
    ⟨.publish tts.audioQueue _, y⟩, ?_, _, rfl, regenerated_audioMessage _ _ _ _ _ _⟩ <;> simp

/-- A round that ends well has handled the message as a job. -/
theorem processed_as_job {es : Calls}
    (hpayload : getOr msg "payload" (.object []) = .ok (oneSegment fields voiceID))
    (h : Trace (tts.processMessage cfg conn msg).run es (.ok ())) : HandledAsJob es := by
  unfold tts.processMessage at h
  rw [hpayload] at h
  obtain ⟨es₁, es, jobID, rfl, -, h⟩ := trace_attempt h
  refine HandledAsJob.mono ?_ (List.subset_append_right es₁ es)
  obtain ⟨es₁, es, traceID, rfl, -, h⟩ := trace_attempt h
  refine HandledAsJob.mono ?_ (List.subset_append_right es₁ es)
  rw [raising_ok_bind] at h
  obtain ⟨es₁, es, voice, rfl, -, h⟩ := trace_attempt h
  refine HandledAsJob.mono ?_ (List.subset_append_right es₁ es)
  obtain ⟨es₁, es, segments, rfl, -, h⟩ := trace_attempt h
  refine HandledAsJob.mono ?_ (List.subset_append_right es₁ es)
  obtain ⟨es₁, es, u, rfl, -, h⟩ := trace_attempt h
  refine HandledAsJob.mono ?_ (List.subset_append_right es₁ es)
  rw [oneSegment_asks_nothing, raising_ok_bind] at h
  obtain ⟨es₁, es, ids, rfl, -, h⟩ := trace_attempt h
  exact (rest_of_job h).mono (List.subset_append_right es₁ es)

theorem served_as_job {tag : Nat} {es : Calls}
    (hpayload : getOr msg "payload" (.object []) = .ok (oneSegment fields voiceID))
    (h : Trace (tts.serve cfg conn tag msg) es .acked) : HandledAsJob es := by
  unfold tts.serve at h
  obtain ⟨es₁, es₂, x, rfl, hround, hend⟩ := trace_bind h
  cases x with
  | error e =>
    obtain ⟨y, rest, rfl, hverdict⟩ := trace_call hend
    change Trace (.done Verdict.nacked) rest .acked at hverdict
    cases hverdict
  | ok u =>
    obtain ⟨es₃, es₄, u, rfl, hprocess, -⟩ := trace_attempt hround
    exact (processed_as_job hpayload hprocess).mono
      (List.subset_append_of_subset_left es₂ (List.subset_append_left es₃ es₄))

/-! ## Only the segment -/

theorem work_only (w : Work) : OnlySegment segmentIdx (.work w) := nofun

theorem setAudio_only (conn : Option Conn) (jobID : String) (columns : AudioColumns) :
    OnlySegment segmentIdx (.exec conn (.setAudio jobID segmentIdx columns)) := by
  rintro _ _ _ _ ⟨⟩
  rfl

theorem iterate_only (cfg : tts.Settings) (voice : tts.Voice) (startMs endMs targetMs : Int)
    (left : Nat) (spoken : Text) (best : Option tts.IterationResult) :
    attemptOnly (OnlySegment segmentIdx) (fun _ => True) (fun _ => True)
      (tts.iterate cfg voice startMs endMs targetMs left spoken best) := by
  have honce : ∀ spoken best, attemptOnly (OnlySegment segmentIdx) (fun _ => True) (fun _ => True)
      (tts.synthesizeOnce voice targetMs spoken best) := by
    intro spoken best
    apply then_only (must_only (ask_only (work_only _)))
    intro synth
    apply then_only (must_only (ask_only (work_only _)))
    intro score
    trivial
  induction left generalizing spoken best with
  | zero => exact then_only (honce spoken best) fun _ => trivial
  | succ left ih =>
    apply then_only (honce spoken best)
    rintro ⟨best, score⟩
    dsimp only
    split
    · trivial
    · have hrewrite : attemptOnly (OnlySegment segmentIdx) (fun _ => True) (fun _ => True)
          (tts.requestRewrite cfg voice spoken startMs endMs score) := by
        unfold tts.requestRewrite
        split
        · trivial
        · exact then_only (must_only (ask_only (work_only _))) fun _ => trivial
      apply then_only hrewrite
      intro rewritten
      cases rewritten with
      | none => trivial
      | some rewritten =>
        dsimp only
        split
        · trivial
        · exact ih rewritten (some best)

theorem processSegment_only (cfg : tts.Settings) (conn : Conn) (jobID : String) (voice : tts.Voice)
    (h : fields.lookup (text "segment_id") = some (.int segmentIdx)) :
    attemptOnly (OnlySegment segmentIdx) (fun _ => True) (fun _ => True)
      (tts.processSegment cfg conn jobID voice fields) := by
  unfold tts.processSegment
  rw [h]
  change attemptOnly _ _ _ (raising (.ok segmentIdx) >>= _)
  rw [raising_ok_bind]
  apply then_only (raising_only _)
  intro startMs
  apply then_only (raising_only _)
  intro endMs
  apply then_only (iterate_only cfg voice _ _ _ _ _ _)
  intro iteration
  apply then_only (must_only (ask_only (work_only _)))
  intro fit
  apply then_only (must_only (ask_only (work_only _)))
  intro words
  apply then_only (must_only (ask_only nofun))
  intro _
  have hrecord : ∀ path flagged words finalText,
      attemptOnly (OnlySegment segmentIdx) (fun _ => True) (fun _ => True)
        (tts.updateSegmentRecord conn jobID segmentIdx path flagged words finalText) := by
    intro path flagged words finalText
    apply then_only (raising_only _)
    intro newText
    apply then_only (sql_only (ask_only (setAudio_only _ _ _)))
    intro _
    exact sql_only (ask_only nofun)
  exact then_only (hrecord _ _ _ _) fun _ => trivial

theorem processMessage_only
    (hpayload : getOr msg "payload" (.object []) = .ok (oneSegment fields voiceID))
    (h : fields.lookup (text "segment_id") = some (.int segmentIdx)) :
    attemptOnly (OnlySegment segmentIdx) (fun _ => True) (fun _ => True)
      (tts.processMessage cfg conn msg) := by
  unfold tts.processMessage
  rw [hpayload]
  apply then_only (raising_only _)
  intro jobID
  apply then_only (raising_only _)
  intro traceID
  rw [raising_ok_bind]
  apply then_only (raising_only _)
  intro voice
  have hselected : attemptOnly (OnlySegment segmentIdx) (fun _ => True) (· = [fields])
      (tts.selectSegments conn jobID (orElse (oneSegment fields voiceID) (.object []))) := by
    rw [oneSegment_selected conn jobID h]
    rfl
  apply attempt_bind hselected
  rintro _ rfl
  have hsome : attemptOnly (OnlySegment segmentIdx) (fun _ => True) (fun _ => True)
      (giveUpIf [fields].isEmpty "ValueError" : Py Unit) := trivial
  apply then_only hsome
  intro _
  apply then_only (raising_only _)
  intro regenIDs
  have hsegments : attemptOnly (OnlySegment segmentIdx) (fun _ => True) (fun _ => True)
      (tts.processSegments cfg conn jobID voice [fields]) :=
    then_only (processSegment_only cfg conn jobID voice h) fun _ => trivial
  apply then_only hsegments
  intro ids
  have hunless : ∀ (regenOnly : Bool) (p : Py Unit),
      attemptOnly (OnlySegment segmentIdx) (fun _ => True) (fun _ => True) p →
      attemptOnly (OnlySegment segmentIdx) (fun _ => True) (fun _ => True)
        (tts.unlessRegen regenOnly p) := by
    intro regenOnly p hp
    cases regenOnly with
    | true => trivial
    | false => exact hp
  have hstage : attemptOnly (OnlySegment segmentIdx) (fun _ => True) (fun _ => True)
      (tts.markJobSynthesized conn jobID) :=
    then_only (sql_only (ask_only nofun)) fun _ => sql_only (ask_only nofun)
  apply then_only (hunless _ _ hstage)
  intro _
  apply then_only (attempt_lift (ask_only nofun))
  intro attemptID
  apply then_only (must_only (ask_only nofun))
  intro _
  exact hunless _ _ (must_only (ask_only nofun))

theorem serve_only (tag : Nat)
    (hpayload : getOr msg "payload" (.object []) = .ok (oneSegment fields voiceID))
    (h : fields.lookup (text "segment_id") = some (.int segmentIdx)) :
    (tts.serve cfg conn tag msg).Only (OnlySegment segmentIdx) fun _ => True := by
  unfold tts.serve
  have hround : attemptOnly (OnlySegment segmentIdx) (fun _ => True) (fun _ => True)
      (tts.processMessage cfg conn msg *> must (ask (.ack tag))) :=
    then_only (processMessage_only hpayload h) fun _ => must_only (ask_only nofun)
  refine only_bind hround fun x _ => ?_
  cases x with
  | ok u => trivial
  | error e => exact ⟨nofun, fun _ => trivial⟩

end OneSegment

/-! ## The request -/

/-- The published message, and the row of the segment. -/
structure Requested (r : gateway.Request) (s s' : System) (row : TranscriptSegment) (body : Json) :
    Prop where
  segment : uuidIn (r.urlParam "segmentId") = some row.id
  accepted : s'.accepted = s.accepted ++ [⟨gateway.transcriptQueue, body⟩]
  message : ∃ jobID job,
    (gateway.transcriptMessage jobID job [row]).encode TranscriptPayload.encode = some body

theorem row_found {db : pipeline.Db} {segmentID jobID : String} {row : TranscriptSegment}
    (h : db.rows (.segment segmentID jobID) = .ok row) : uuidIn segmentID = some row.id := by
  unfold pipeline.Db.rows at h
  dsimp only at h
  split at h
  · rename_i id jobID' hid hjobID
    split at h
    · cases h
    · rename_i found hfound
      obtain rfl := Except.ok.inj h
      have hrow := List.find?_some hfound
      simp only [Bool.and_eq_true, decide_eq_true_eq] at hrow
      rw [hid, hrow.1]
  · cases h

/-- A request that is answered with 202 has published the message. -/
theorem request_is_published (r : gateway.Request) (s : System) :
    wp services (fun _ _ _ => True) (gateway.regenerateSegment r)
      (fun resp s' => resp.status = 202 → ∃ row body, Requested r s s' row body) s := by
  unfold gateway.regenerateSegment
  apply wp_finish
  apply wpTry_bind
  apply wpTry_someOr
  · exact fun _ => nofun
  intro claims _
  apply wpTry_bind
  apply wpTry_giveUpIf
  · exact fun _ => nofun
  intro _
  apply wpTry_bind
  apply gateway.wpTry_ownedJob
  · intro status msg hstatus (h202 : status = 202)
    exact absurd (h202 ▸ hstatus) (by decide)
  intro _ job _ _
  apply wpTry_bind
  apply gateway.wpTry_exec
  · exact fun _ => nofun
  intro now rows db _
  apply wpTry_bind
  apply wpTry_giveUpIf
  · exact fun _ => nofun
  intro _
  apply wpTry_bind
  apply gateway.wpTry_query
  · exact fun _ => nofun
  intro row hrow
  apply wpTry_bind
  unfold gateway.publishTranscript
  cases hbody : (gateway.transcriptMessage (r.urlParam "id") job [row]).encode
      TranscriptPayload.encode with
  | none =>
    apply wpTry_orGiveUp
    intro o _
    exact nofun
  | some body =>
    apply wpTry_orGiveUp
    intro o _
    have hanswer : ∀ t, services.answer o t (.publish gateway.transcriptQueue (some body)) =
        (reply o (), if landed o then { t with accepted := t.accepted ++
          [⟨gateway.transcriptQueue, body⟩] } else t) := fun _ => rfl
    rw [hanswer]
    unfold reply landed
    cases o.fails with
    | true => exact nofun
    | false => exact fun _ => ⟨row, body, row_found hrow, rfl, _, job, hbody⟩

/-- A request that is answered with 202 is in no round handled as a regeneration. A round that ends
well replaces the audio of that segment and of no other, and handles it as a job for the rest. -/
theorem regeneration_is_handled_as_a_job {r : gateway.Request} {os : List Outcome} {s s' : System}
    {resp : gateway.Response}
    (hrun : run services os (gateway.regenerateSegment r, s) = (.done resp, s'))
    (h202 : resp.status = 202) :
    ∃ row body, Requested r s s' row body ∧
      ∀ (cfg : tts.Settings) (conn : Conn) (tag : Nat) (es : Calls) (v : Verdict),
        Trace (tts.serve cfg conn tag body) es v →
          (∀ segmentIdx, ¬ HandledAsRegeneration segmentIdx body es) ∧
          (∀ e ∈ es, OnlySegment row.segmentIdx.val e.1) ∧ (v = .acked → HandledAsJob es) := by
  obtain ⟨row, body, hrequested⟩ := wp_run_any (request_is_published r s) hrun h202
  refine ⟨row, body, hrequested, fun cfg conn tag es v h => ?_⟩
  obtain ⟨jobID, job, hmessage⟩ := hrequested.message
  obtain ⟨fields, hpayload, hid⟩ := message_has_one_segment hmessage
  refine ⟨fun segmentIdx hregenerated => ?_, (trace_only (serve_only tag hpayload hid) h).2, ?_⟩
  · exact oneSegment_not_classified hpayload hregenerated.classified
  · rintro rfl
    exact served_as_job hpayload h

/-! ## A request for a segment -/

def adasRequest : gateway.Request where
  claims := some ⟨"ada", "user"⟩
  urlParam key := if key = "id" then gateway.adasJob.id else audio_hop.adasSegment.id
  form := .error ""
  edits := none

def allFine (n : Nat) : List Outcome := List.replicate n {}

theorem adas_request_is_answered : ∃ s', run services (allFine 4)
    (gateway.regenerateSegment adasRequest, audio_hop.waiting) = (.done ⟨202, .empty⟩, s') := by
  with_unfolding_all exact ⟨_, rfl⟩

theorem adas_regeneration_is_none :
    ∃ body, ∀ (cfg : tts.Settings) (conn : Conn) (tag : Nat) (es : Calls) (v : Verdict),
      Trace (tts.serve cfg conn tag body) es v → ¬ HandledAsRegeneration 1 body es := by
  obtain ⟨s', hrun⟩ := adas_request_is_answered
  obtain ⟨row, body, -, h⟩ := regeneration_is_handled_as_a_job hrun rfl
  exact ⟨body, fun cfg conn tag es v htrace => (h cfg conn tag es v htrace).1 1⟩

def adasMessage : Json :=
  ((gateway.transcriptMessage gateway.adasJob.id gateway.adasJob [audio_hop.adasSegment]).encode
    TranscriptPayload.encode).getD .null

/-- The request is answered with 202. Her completed job goes back to `synthesized`, and the audio
message lists no regenerated segment. -/
theorem a_regeneration_reopens_a_completed_job :
    ∃ s' s'', run services (allFine 4) (gateway.regenerateSegment adasRequest, audio_hop.waiting) =
        (.done ⟨202, .empty⟩, s') ∧
      s'.accepted = audio_hop.waiting.accepted ++ [⟨gateway.transcriptQueue, adasMessage⟩] ∧
      s'.db.jobs.map Job.stage = [.completed] ∧
      run services (allFine 13) (tts.serve audio_hop.settings (.worker 0) 1 adasMessage, s') =
        (.done .acked, s'') ∧
      s''.accepted = s'.accepted ++ [⟨tts.audioQueue,
        tts.audioMessage gateway.adasJob.id (goString "t") "" [1] (text "nova") false⟩] ∧
      s''.db.jobs.map Job.stage = [.synthesized] := by
  with_unfolding_all exact ⟨_, _, rfl, rfl, rfl, rfl, rfl, rfl⟩

end recast_rules.regenerations
