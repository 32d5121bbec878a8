-- The parameters of a job on their way to the synthesis. The producers write
-- the key of the video under another name than the analyzer reads, and the
-- analyzer hands on neither style nor language.
import RecastAi.Producers
import RecastAi.TtsService
import RecastAi.VideoAnalyzer

open call_programs py_text recast_rules.transcript recast_rules.models recast_rules.pipeline
open recast_rules.py

namespace recast_rules.hops

/-! ## The messages -/

structure Parameters where
  objectKey : String
  voiceID : String
  style : String
  language : String

/-- A message of the upload service as it is written. -/
def wire (msg : upload_service.QueueMessage) : QueueMessage IngestionPayload where
  jobID := msg.jobID
  traceID := msg.traceID
  stageAttemptID := msg.stageAttemptID
  payload :=
    { userID := msg.payload.userID
      originalFile := msg.payload.originalFile
      voiceID := msg.payload.voiceID
      style := msg.payload.style
      language := msg.payload.language
      durationMs := 0 }

/-- The ingestion messages of both producers, with the parameters that they put in. -/
inductive Produced : Json → Parameters → Prop where
  | createJob (job : Job) (body : Json)
      (h : (gateway.ingestionMessage job).encode IngestionPayload.encode = some body) :
      Produced body ⟨job.originalFile, job.voiceID, job.style, job.language⟩
  | handleComplete (c : upload_service.Completion) (finalKey jobID traceID attemptID : String)
      (body : Json)
      (h : (wire (upload_service.ingestionMessage c finalKey jobID traceID attemptID)).encode
        IngestionPayload.encode = some body) :
      Produced body
        ⟨finalKey, c.req.voiceID, c.req.style, upload_service.defaultLanguage c.req.language⟩

/-- How a transcript message is spoken. -/
def spokenWith (cfg : tts.Settings) (msg : Json) : Except String tts.Voice := do
  let payload ← getOr msg "payload" (.object [])
  tts.readVoice cfg (orElse payload (.object []))

/-- The analyzer reads the parameters back, and what it publishes is spoken with them. -/
structure Survives (cfg : tts.Settings) (body : Json) (p : Parameters) : Prop where
  analyzed : getOr body "payload" (.object []) >>= analyzer.readParams =
    .ok ⟨goString p.objectKey, goString p.voiceID, goString p.style, goString p.language⟩
  spoken : ∀ (repr : Json → Text) (conn : Conn),
    (analyzer.processMessage repr conn body).run.Only
      (fun c => ∀ msg, c = .publish analyzer.transcriptQueue (some msg) →
        spokenWith cfg msg = .ok ⟨text p.voiceID, text p.language, text p.style⟩) fun _ => True

/-! ## The first hop -/

/-- The payload has no key of the name that the analyzer reads. -/
theorem ingestion_without_object_key {m : QueueMessage IngestionPayload} {body : Json}
    (h : m.encode IngestionPayload.encode = some body) :
    getOr body "payload" (.object []) >>= analyzer.readParams = .error "KeyError" := by
  unfold QueueMessage.encode IngestionPayload.encode at h
  simp only [Option.bind_eq_bind, Option.bind_some, Option.pure_def, Option.some.injEq] at h
  subst h
  unfold omitZero
  by_cases hzero : m.payload.durationMs = 0
  · rw [if_pos hzero]
    rfl
  · rw [if_neg hzero]
    rfl

theorem produced_without_object_key {body : Json} {p : Parameters} (h : Produced body p) :
    getOr body "payload" (.object []) >>= analyzer.readParams = .error "KeyError" := by
  cases h with
  | createJob job body h => exact ingestion_without_object_key h
  | handleComplete c finalKey jobID traceID attemptID body h => exact ingestion_without_object_key h

/-- The analyzer raises on every message of the producers, before its first call. -/
theorem the_analyzer_raises (repr : Json → Text) (conn : Conn) {body : Json} {p : Parameters}
    (h : Produced body p) :
    ∃ e, (analyzer.processMessage repr conn body).run = .done (.error e) := by
  have hkey := produced_without_object_key h
  unfold analyzer.processMessage
  cases hid : subscript body "job_id" >>= idText with
  | error e => exact ⟨e, rfl⟩
  | ok jobID =>
    cases htrace : getOr body "trace_id" (.str []) with
    | error e => exact ⟨e, rfl⟩
    | ok traceID =>
      cases hpayload : getOr body "payload" (.object []) with
      | error e => exact ⟨e, rfl⟩
      | ok payload =>
        rw [hpayload] at hkey
        change analyzer.readParams payload = .error "KeyError" at hkey
        simp only [raising_ok_bind, raising_error_bind, hkey]
        exact ⟨"KeyError", rfl⟩

/-! ## The second hop -/

/-- What the analyzer publishes is spoken formally and in English, whatever it read. -/
theorem transcripts_are_spoken_formally_in_english (cfg : tts.Settings) (repr : Json → Text)
    (conn : Conn) (msg : Json) :
    (analyzer.processMessage repr conn msg).run.Only
      (fun c => ∀ body, c = .publish analyzer.transcriptQueue (some body) →
        ∃ voiceID, spokenWith cfg body = .ok ⟨voiceID, text "en", text "formal"⟩)
      fun _ => True := by
  apply only_mono (analyzer.processMessage_publishes repr conn msg)
  · intro c hc body hbody
    obtain ⟨-, jobID, traceID, attemptID, segments, voiceID, durationMs, hmsg⟩ := hc _ _ hbody
    rw [Option.some.injEq] at hmsg
    subst hmsg
    exact ⟨toText cfg.repr (orElse voiceID (.str (text "default"))), rfl⟩
  · intro _ _
    trivial

/-! ## The law -/

/-- The parameters of no job survive the hops. -/
theorem job_parameters_do_not_survive (cfg : tts.Settings) (body : Json) (p : Parameters)
    (h : Produced body p) : ¬ Survives cfg body p := by
  intro hs
  have hread := hs.analyzed
  rw [produced_without_object_key h] at hread
  cases hread

def settings : tts.Settings := tts.defaults fun _ => []

/-- The message of a job of `ada`. -/
def adasMessage : Json :=
  .object [(text "job_id", goString "6f9619ff-8b86-d011-b42d-00c04fc964ff"),
    (text "trace_id", goString "t"), (text "stage_attempt_id", goString ""),
    (text "payload", .object [(text "user_id", goString "ada"),
      (text "original_file", goString "uploads/talk.mp4"), (text "voice_id", goString "nova"),
      (text "style", goString "formal"), (text "language", goString "en")])]

def adasParameters : Parameters := ⟨"uploads/talk.mp4", "nova", "formal", "en"⟩

theorem adas_message_is_produced : Produced adasMessage adasParameters :=
  .createJob gateway.adasJob adasMessage rfl

theorem adas_parameters_do_not_survive : ¬ Survives settings adasMessage adasParameters :=
  job_parameters_do_not_survive settings adasMessage adasParameters adas_message_is_produced

/-- The key of the video of `ada`'s job is not read back. -/
theorem adas_video_is_not_read_back :
    ¬ ∀ (cfg : tts.Settings) (body : Json) (p : Parameters), Produced body p →
      Survives cfg body p := by
  intro h
  have hread := (h settings adasMessage adasParameters adas_message_is_produced).analyzed
  rw [produced_without_object_key adas_message_is_produced] at hread
  cases hread

end recast_rules.hops
