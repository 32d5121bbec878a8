-- The hop from the synthesis to the mux. An audio message names neither the
-- video of the job nor a narration of it, so no mux service gets past it.
import RecastAi.GatewayOwners
import RecastAi.MuxService
import RecastAi.TtsService

open call_programs py_text recast_rules.transcript recast_rules.models recast_rules.pipeline
open recast_rules.py

namespace recast_rules.audio_hop

/-! ## What the mux service needs -/

/-- The video is the one of the job, and the audio has its segments, each from its start on.
`narration` tells what is heard in an object, and from when on. -/
structure PlaysBack (narration : Blob → List (Int × Text)) (s : System) (job : Job)
    (payload : AudioPayload) : Prop where
  video : payload.originalFile = job.originalFile
  audio : ∃ track, s.stored payload.audioFile = some track ∧
    narration track = (s.db.segmentsOf job.id).map fun r => (r.startMs.val, r.text.val)

def Consumable (narration : Blob → List (Int × Text)) (s : System) (body : Json) : Prop :=
  ∃ msg payload job, decodeMessage body = some msg ∧ decodeAudio msg.payload = some payload ∧
    s.db.rows (.job msg.jobID) = .ok job ∧ PlaysBack narration s job payload

/-! ## What it gets -/

/-- No key of the payload is one that the mux service reads. -/
theorem payload_without_files {jobID : String} {traceID : Json} {attemptID : String} {ids : List Int}
    {voiceID : Text} {regenOnly : Bool} {msg : QueueMessage Json}
    (h : decodeMessage (tts.audioMessage jobID traceID attemptID ids voiceID regenOnly) = some msg) :
    decodeAudio msg.payload = some ⟨"", "", 0⟩ := by
  unfold decodeMessage tts.audioMessage at h
  simp only [objectFields, Option.bind_eq_bind, Option.bind_some, Option.bind_eq_some_iff,
    Option.pure_def, Option.some.injEq] at h
  obtain ⟨jobID', -, traceID', -, attemptID', -, rfl⟩ := h
  rfl

theorem no_audio_message_is_consumable {c : Call} (h : tts.PublishesAudio c)
    (narration : Blob → List (Int × Text)) (s : System) (body : Json)
    (hc : c = .publish tts.audioQueue (some body)) : ¬ Consumable narration s body := by
  rintro ⟨msg, payload, job, hmsg, hpayload, -, hplays⟩
  obtain ⟨jobID, traceID, attemptID, ids, voiceID, regenOnly, hbody⟩ := h _ _ hc
  rw [Option.some.injEq] at hbody
  subst hbody
  rw [payload_without_files hmsg, Option.some.injEq] at hpayload
  subst hpayload
  obtain ⟨track, hstored, -⟩ := hplays.audio
  unfold System.stored at hstored
  rw [if_pos rfl] at hstored
  cases hstored

/-! ## What the mux service makes of it -/

/-- The work on a message without a video fails at the download, whatever is answered before. -/
theorem process_fails_without_video (E : System → Call → Outcome → Prop) (msg : QueueMessage Json)
    (payload : AudioPayload) (s : System) (h : payload.originalFile = "") :
    wpTry services E (mux.process msg payload) (fun _ _ => True) (fun _ _ => False) s := by
  unfold mux.process
  apply wpTry_bind
  apply wpTry_orGiveUp
  refine wp_mono (wp_any _ s) fun x s _ => ?_
  cases x with
  | error e => trivial
  | ok n =>
    apply wpTry_bind
    apply wpTry_lift
    refine wp_mono (wp_any _ s) fun _ s _ => ?_
    apply wpTry_bind
    apply wpTry_orGiveUp
    refine wp_mono (wp_any _ s) fun x s _ => ?_
    cases x with
    | error e => trivial
    | ok u =>
      apply wpTry_bind
      apply wpTry_orGiveUp
      intro o _
      rw [h]
      trivial

theorem the_mux_service_fails (E : System → Call → Outcome → Prop) {c : Call}
    (h : tts.PublishesAudio c) (tag : Nat) (body : Json) (s : System)
    (hc : c = .publish tts.audioQueue (some body)) :
    wp services E (mux.serve tag body) (fun x _ => ∃ e, x = .error e) s := by
  obtain ⟨jobID, traceID, attemptID, ids, voiceID, regenOnly, hbody⟩ := h _ _ hc
  rw [Option.some.injEq] at hbody
  subst hbody
  have hfails : wpTry services E
      (mux.processMessage (tts.audioMessage jobID traceID attemptID ids voiceID regenOnly))
      (fun _ _ => True) (fun _ _ => False) s := by
    unfold mux.processMessage
    apply wpTry_bind
    apply wpTry_someOr
    · intro _
      trivial
    · intro msg hmsg
      apply wpTry_bind
      apply wpTry_someOr
      · intro _
        trivial
      · intro payload hpayload
        rw [payload_without_files hmsg, Option.some.injEq] at hpayload
        exact process_fails_without_video E msg payload s (by rw [← hpayload])
  unfold mux.serve consumers.serve
  rw [wp_bind]
  refine wp_mono hfails fun x s hx => ?_
  cases x with
  | ok u => cases hx
  | error e => exact fun _ _ => ⟨e, rfl⟩

/-! ## The law -/

/-- Who takes part: the synthesis, and services that publish nothing on its queue. -/
inductive Party where
  | synthesis (cfg : tts.Settings) (conn : Conn) (n : Nat)
  | other (p : Service Unit)
      (h : p.Only (fun c => ∀ body, c ≠ .publish tts.audioQueue body) fun _ => True)

def Party.program : Party → Service Unit
  | .synthesis cfg conn n => tts.consume cfg conn n
  | .other p _ => p

def start (s : System) (parties : List Party) : Config Call Answer System Unit :=
  ⟨⟨s, []⟩, parties.map Party.program⟩

/-- What is published on the queue can be consumed there and then. -/
def PublishesConsumable (narration : Blob → List (Int × Text)) (shot : Shot Call Answer System)
    (_ : Nat) (c : Call) (_ : Outcome) : Prop :=
  ∀ body, c = .publish tts.audioQueue (some body) → Consumable narration shot.state body

/-- In no run is an audio message consumable when it is published. -/
theorem the_audio_hop_is_broken (narration : Blob → List (Int × Text)) (s : System)
    (parties : List Party) (picks : List (Nat × Outcome)) :
    Allowed services (fun shot _ c _ => ∀ body, c = .publish tts.audioQueue (some body) →
      ¬ Consumable narration shot.state body) picks (start s parties) := by
  apply allowed_only (P := fun c => ∀ body, c = .publish tts.audioQueue (some body) →
    ∀ narration s, ¬ Consumable narration s body)
  · intro p hp
    simp only [start, List.mem_map] at hp
    obtain ⟨party, -, rfl⟩ := hp
    cases party with
    | synthesis cfg conn n =>
      apply only_mono (tts.consume_publishes cfg conn n)
      · intro c hc body hbody narration s
        exact no_audio_message_is_consumable hc narration s body hbody
      · exact fun _ _ => trivial
    | other p h =>
      apply only_mono h
      · intro c hc body hbody
        exact absurd hbody (hc (some body))
      · exact fun _ _ => trivial
  · exact fun shot _ c _ hc body hbody => hc body hbody narration shot.state

/-! ## A run -/

def settings : tts.Settings := tts.defaults fun _ => []

/-- The only segment of `ada`'s job. -/
def adasSegment : TranscriptSegment where
  segmentIdx := ⟨1, by decide⟩
  startMs := ⟨0, by decide⟩
  endMs := ⟨1000, by decide⟩
  text := ⟨text "hello", by decide⟩
  wordsJson := []
  confidence := .finite 1
  id := "16fd2706-8baf-433b-82eb-8c7fada847da"
  jobID := gateway.adasJob.id
  audioPath := ""
  approved := false
  flagged := false

def adasTranscript : Json :=
  .object [(text "job_id", goString gateway.adasJob.id), (text "trace_id", goString "t"),
    (text "stage_attempt_id", goString ""),
    (text "payload", .object [(text "segments", .array [.object [(text "segment_id", .int 1),
      (text "start_ms", .int 0), (text "end_ms", .int 1000), (text "text", goString "hello")]]),
      (text "voice_id", goString "nova")])]

/-- Her transcript waits in its queue, and her video is stored. -/
def waiting : System where
  db := ⟨[gateway.adasJob], [adasSegment], [], []⟩
  sessions _ := .idle
  nextTx := 0
  objects key := if key = "uploads/talk.mp4" then some (.file [1]) else none
  accepted := [⟨tts.transcriptQueue, adasTranscript⟩]
  settled := []

def outside : Nat × Outcome := (0, {})

def parties : List Party := [.synthesis settings (.worker 0) 1]

set_option maxRecDepth 2000 in
/-- Her audio message is published, and it cannot be consumed. -/
theorem adas_audio_message_is_not_consumable :
    ¬ ∀ (narration : Blob → List (Int × Text)) (s : System) (parties : List Party)
      (picks : List (Nat × Outcome)),
      Allowed services (PublishesConsumable narration) picks (start s parties) := by
  intro h
  have hrun := h (fun _ => []) waiting parties (List.replicate 11 outside ++ [outside])
  have hstep := ((allowed_append _ _ _ _ _).mp hrun).2.1
  have hthread : ∃ k, (schedule services (List.replicate 11 outside) (start waiting parties)).threads[0]? =
      some (.call (.publish tts.audioQueue (some (tts.audioMessage gateway.adasJob.id (goString "t") ""
        [1] (text "nova") false))) k) := by
    with_unfolding_all exact ⟨_, rfl⟩
  obtain ⟨k, hk⟩ := hthread
  simp only [StepMeets, outside] at hstep hk
  rw [hk] at hstep
  refine no_audio_message_is_consumable ?_ _ _ _ rfl (hstep _ rfl)
  rintro queue body ⟨⟩
  exact ⟨_, _, _, _, _, _, rfl⟩

end recast_rules.audio_hop
