-- The consumer of `transcript.queue` (`services/tts-service`): for each segment
-- of a message it has the text spoken, scored and, where the score is low,
-- rewritten; it stores the audio and updates the row of the segment. Then it
-- moves the job to `synthesized` and publishes the audio message.
import RecastAi.Transactions

open call_programs py_text recast_rules.transcript recast_rules.models recast_rules.pipeline
open recast_rules.py recast_rules.transactions

namespace recast_rules.tts

def transcriptQueue : String := "transcript.queue"

def audioQueue : String := "audio.queue"

/-- `repr` is what `str` writes for a value that is no text. -/
structure Settings where
  qualityMaxIterations : Int
  qualityPassThreshold : Rat
  videoAnalyzerURL : String
  qualityIterationEnabled : Bool
  repr : Json → Text

/-- The defaults of `config.py`. -/
def defaults (repr : Json → Text) : Settings where
  qualityMaxIterations := 3
  qualityPassThreshold := 7 / 10
  videoAnalyzerURL := "http://video-analyzer:8080"
  qualityIterationEnabled := true
  repr := repr

/-! ## The message -/

/-- How a message wants its segments spoken. -/
structure Voice where
  voiceID : Text
  language : Text
  style : Text
deriving DecidableEq

def readVoice (cfg : Settings) (payload : Json) : Except String Voice := do
  let voiceID ← getOr payload "voice_id" .null
  let language ← getOr payload "language" .null
  let style ← getOr payload "style" .null
  return ⟨toText cfg.repr (orElse voiceID (.str (text "default"))),
    toText cfg.repr (orElse language (.str (text "en"))),
    toText cfg.repr (orElse style (.str (text "formal")))⟩

/-- A segment as it is worked on. -/
abbrev SegmentDict := List (Text × Json)

def regenerationIDs : Json → Except String (List Int)
  | .object fields =>
    if truthy ((fields.lookup (text "segment_ids")).getD .null) then do
      (← items ((fields.lookup (text "segment_ids")).getD .null)).mapM toInt
    else
      match (fields.lookup (text "segment_id")).getD .null with
      | .null => return []
      | v => return [← toInt v]
  | _ => .error "TypeError"

def rowSegment (r : TranscriptSegment) : SegmentDict :=
  [(text "segment_id", .int r.segmentIdx.val), (text "start_ms", .int r.startMs.val),
    (text "end_ms", .int r.endMs.val), (text "text", .str r.text.val)]

/-- The loop over the segments of the message, from the index `idx` on. -/
def inlineSegments (idx : Nat) : List Json → Except String (List SegmentDict)
  | [] => .ok []
  | .object fields :: segments => do
    let id ← toInt ((fields.lookup (text "segment_id")).getD (.int (idx + 1)))
    let rest ← inlineSegments (idx + 1) segments
    let seg :=
      if (fields.lookup (text "segment_id")).isSome then fields
      else fields ++ [(text "segment_id", .int id)]
    return seg :: rest
  | _ :: _ => .error "TypeError"

def selectSegments (conn : Conn) (jobID : String) (payload : Json) : Py (List SegmentDict) := do
  let ids ← raising (regenerationIDs payload)
  if ids ≠ [] then
    let rows : List TranscriptSegment ← sql (ask (.query (some conn) (.segmentsByIdx jobID ids)))
    return rows.map rowSegment
  else
    raising (getOr payload "segments" .null >>= fun v => items (orElse v (.array [])) >>= inlineSegments 0)

/-! ## The quality loop -/

structure IterationResult where
  synthesis : Clip
  finalText : Text
  score : Score

/-- The better of the best attempt so far and the new one. -/
def better (best : Option IterationResult) (candidate : IterationResult) : IterationResult :=
  match best with
  | none => candidate
  | some b => if candidate.score.combined > b.score.combined then candidate else b

def passes (cfg : Settings) (score : Score) : Bool := score.combined ≥ cfg.qualityPassThreshold

/-- `target_ms or duration_ms`. -/
def orDuration (targetMs : Int) (clip : Clip) : Int := if targetMs = 0 then clip.durationMs else targetMs

/-- One attempt: the best result after it, and its own score. -/
def synthesizeOnce (voice : Voice) (targetMs : Int) (spoken : Text) (best : Option IterationResult) :
    Py (IterationResult × Score) := do
  let synth : Clip ← must (ask (.work (.synthesize spoken voice.voiceID voice.language)))
  let score : Score ← must (ask (.work (.score synth (orDuration targetMs synth))))
  return (better best ⟨synth, spoken, score⟩, score)

def requestRewrite (cfg : Settings) (voice : Voice) (original : Text) (startMs endMs : Int)
    (score : Score) : Py (Option Text) := do
  if cfg.videoAnalyzerURL = "" then return none
  else
    let rewritten : Option Text ←
      must (ask (.work (.rewrite original startMs endMs voice.style voice.language score)))
    return (rewritten.map strip).filter (· ≠ [])

/-- The loop of `synthesize_with_iteration`, with `left` attempts after the next one. -/
def iterate (cfg : Settings) (voice : Voice) (startMs endMs targetMs : Int) :
    Nat → Text → Option IterationResult → Py IterationResult
  | 0, spoken, best => do
    let (best, _) ← synthesizeOnce voice targetMs spoken best
    return best
  | left + 1, spoken, best => do
    let (best, score) ← synthesizeOnce voice targetMs spoken best
    if passes cfg score then return best
    else
      match ← requestRewrite cfg voice spoken startMs endMs score with
      | none => return best
      | some rewritten =>
        if rewritten = spoken then return best
        else iterate cfg voice startMs endMs targetMs left rewritten (some best)

/-- The attempts after the first one. -/
def retries (cfg : Settings) : Nat :=
  if cfg.qualityIterationEnabled then (cfg.qualityMaxIterations - 1).toNat else 0

/-! ## The segments -/

/-- The statement of `_update_segment_record`, and its commit. A text that no column holds
raises. -/
def updateSegmentRecord (conn : Conn) (jobID : String) (segmentIdx : Int) (audioPath : String)
    (flagged : Bool) (words : List PgWord) (finalText : Option Text) : Py Unit := do
  let newText : Option PgText ← raising (match finalText with
    | none => .ok none
    | some t => (PgText.of t).elim (.error "ValueError") (.ok ∘ some))
  let _ ← sql (ask (.exec (some conn)
    (.setAudio jobID segmentIdx ⟨audioPath, flagged, words, newText⟩)))
  sql (ask (.commit conn))

def audioKey (jobID : String) (segmentID : Int) : String := s!"audio/{jobID}/{segmentID}.mp3"

/-- `_process_segment`. It gives the number of the segment. -/
def processSegment (cfg : Settings) (conn : Conn) (jobID : String) (voice : Voice)
    (segment : SegmentDict) : Py Int := do
  let original := strip (toText cfg.repr ((segment.lookup (text "text")).getD (.str [])))
  let segmentID ← raising (toInt ((segment.lookup (text "segment_id")).getD (.int 0)))
  let startMs ← raising (toInt ((segment.lookup (text "start_ms")).getD (.int 0)))
  let endMs ← raising (toInt ((segment.lookup (text "end_ms")).getD (.int 0)))
  let targetMs := max (endMs - startMs) 0
  let iteration ← iterate cfg voice startMs endMs targetMs (retries cfg) original none
  let fit : Fit ← must (ask (.work (.fit iteration.synthesis
    (orDuration targetMs iteration.synthesis))))
  let words : List PgWord ← must (ask (.work
    (.alignWords iteration.finalText startMs fit.clip.durationMs)))
  must (ask (.upload (audioKey jobID segmentID) (.clip fit.clip)))
  let flagged := fit.speedFlagged || !passes cfg iteration.score
  let finalText := if strip iteration.finalText = original then none else some iteration.finalText
  updateSegmentRecord conn jobID segmentID (audioKey jobID segmentID) flagged words finalText
  return segmentID

def processSegments (cfg : Settings) (conn : Conn) (jobID : String) (voice : Voice) :
    List SegmentDict → Py (List Int)
  | [] => return []
  | segment :: segments => do
    let id ← processSegment cfg conn jobID voice segment
    let ids ← processSegments cfg conn jobID voice segments
    return id :: ids

/-! ## The consumer -/

def markJobSynthesized (conn : Conn) (jobID : String) : Py Unit := do
  let _ ← sql (ask (.exec (some conn) (.setStage jobID .synthesized)))
  sql (ask (.commit conn))

/-- The message to the mux service. -/
def audioMessage (jobID : String) (traceID : Json) (attemptID : String) (ids : List Int)
    (voiceID : Text) (regenOnly : Bool) : Json :=
  .object [(text "job_id", goString jobID), (text "trace_id", traceID),
    (text "stage_attempt_id", goString attemptID),
    (text "payload", .object [(text "segments_count", .int ids.length), (text "voice_id", .str voiceID),
      (text "regenerated_segment_ids", if regenOnly then .array (ids.map .int) else .null)])]

/-- What a whole job gets and a regeneration does not. -/
def unlessRegen (regenOnly : Bool) (p : Py Unit) : Py Unit := if regenOnly then return () else p

def processMessage (cfg : Settings) (conn : Conn) (msg : Json) : Py Unit := do
  let jobID ← raising (subscript msg "job_id" >>= idText)
  let traceID ← raising (getOr msg "trace_id" (.str []))
  let payload ← raising (getOr msg "payload" (.object []))
  let payload := orElse payload (.object [])
  let voice ← raising (readVoice cfg payload)
  let segments ← selectSegments conn jobID payload
  giveUpIf segments.isEmpty "ValueError"
  let regenIDs ← raising (regenerationIDs payload)
  let regenOnly := !regenIDs.isEmpty
  let ids ← processSegments cfg conn jobID voice segments
  unlessRegen regenOnly (markJobSynthesized conn jobID)
  let attemptID : String ← ExceptT.lift (ask .newString)
  must (ask (.publish audioQueue
    (some (audioMessage jobID traceID attemptID ids voice.voiceID regenOnly))))
  unlessRegen regenOnly (must (ask (.notify s!"job:{jobID}")))

/-- One round of the consumer. After an exception the transaction stays as it is. -/
def serve (cfg : Settings) (conn : Conn) (tag : Nat) (msg : Json) : Service Verdict := do
  match ← (processMessage cfg conn msg *> must (ask (.ack tag))).run with
  | .ok () => return .acked
  | .error _ =>
    let _ ← ask (.nack tag false)
    return .nacked

/-- `n` rounds. -/
def consume (cfg : Settings) (conn : Conn) : Nat → Service Unit
  | 0 => return
  | n + 1 => do
    match ← ask (.receive transcriptQueue) with
    | none => consume cfg conn n
    | some (tag, msg) =>
      let _ ← serve cfg conn tag msg
      consume cfg conn n

/-! ## What it does

All calls of the consumer, by the phase of its connection. -/

/-- The calls while it works on the segments. -/
inductive Speaks (conn : Conn) : Phase → Call → Prop where
  | query (jobID : String) (ids : List Int) :
      Speaks conn .idle (.query (some conn) (.segmentsByIdx jobID ids))
  | setAudio (jobID : String) (segmentIdx : Int) (columns : AudioColumns) :
      Speaks conn .idle (.exec (some conn) (.setAudio jobID segmentIdx columns))
  | commit : Speaks conn .opened (.commit conn)
  | work (w : Work) : Speaks conn .idle (.work w)
  | upload (jobID : String) (segmentID : Int) (c : Clip) :
      Speaks conn .idle (.upload (audioKey jobID segmentID) (.clip c))

inductive Makes (conn : Conn) : Phase → Call → Prop where
  | speaks {p : Phase} {c : Call} (h : Speaks conn p c) : Makes conn p c
  | setStage (jobID : String) : Makes conn .idle (.exec (some conn) (.setStage jobID .synthesized))
  | newString : Makes conn .idle .newString
  | publish (jobID : String) (traceID : Json) (attemptID : String) (ids : List Int) (voiceID : Text)
      (regenOnly : Bool) : Makes conn .idle (.publish audioQueue
        (some (audioMessage jobID traceID attemptID ids voiceID regenOnly)))
  | notify (channel : String) : Makes conn .idle (.notify channel)
  | ack (tag : Nat) : Makes conn .idle (.ack tag)
  | nack (tag : Nat) (p : Phase) (h : p ≠ .opened) : Makes conn p (.nack tag false)

theorem speaks_work {conn : Conn} (w : Work) (i : Nat) (h : List (Event Call Answer))
    (hidle : phase conn h = .idle) :
    (ask (.work w)).Follows i (Due conn (Speaks conn)) (fun _ h => phase conn h = .idle) h :=
  follows_aside (by trivial) (.work w) i hidle

theorem selectSegments_keeps (conn : Conn) (jobID : String) (payload : Json) :
    Keeps conn (Speaks conn) (selectSegments conn jobID payload) := by
  unfold selectSegments
  apply keeps_then (keeps_raising _)
  intro ids
  split
  · apply keeps_then (keeps_query (.query jobID ids))
    intro rows
    exact keeps_pure _
  · exact keeps_raising _

theorem synthesizeOnce_keeps (conn : Conn) (voice : Voice) (targetMs : Int) (spoken : Text)
    (best : Option IterationResult) :
    Keeps conn (Speaks conn) (synthesizeOnce voice targetMs spoken best) := by
  unfold synthesizeOnce
  apply keeps_then (keeps_must (speaks_work _))
  intro synth
  apply keeps_then (keeps_must (speaks_work _))
  intro score
  exact keeps_pure _

theorem requestRewrite_keeps (conn : Conn) (cfg : Settings) (voice : Voice) (original : Text)
    (startMs endMs : Int) (score : Score) :
    Keeps conn (Speaks conn) (requestRewrite cfg voice original startMs endMs score) := by
  unfold requestRewrite
  split
  · exact keeps_pure none
  · apply keeps_then (keeps_must (speaks_work _))
    intro rewritten
    exact keeps_pure _

theorem iterate_keeps (conn : Conn) (cfg : Settings) (voice : Voice) (startMs endMs targetMs : Int)
    (left : Nat) (spoken : Text) (best : Option IterationResult) :
    Keeps conn (Speaks conn) (iterate cfg voice startMs endMs targetMs left spoken best) := by
  induction left generalizing spoken best with
  | zero =>
    apply keeps_then (synthesizeOnce_keeps conn voice targetMs spoken best)
    intro x
    exact keeps_pure x.1
  | succ left ih =>
    apply keeps_then (synthesizeOnce_keeps conn voice targetMs spoken best)
    rintro ⟨best, score⟩
    dsimp only
    split
    · exact keeps_pure best
    · apply keeps_then (requestRewrite_keeps conn cfg voice spoken startMs endMs score)
      intro rewritten
      cases rewritten with
      | none => exact keeps_pure best
      | some rewritten =>
        dsimp only
        split
        · exact keeps_pure best
        · exact ih rewritten (some best)

theorem updateSegmentRecord_keeps (conn : Conn) (jobID : String) (segmentIdx : Int)
    (audioPath : String) (flagged : Bool) (words : List PgWord) (finalText : Option Text) :
    Keeps conn (Speaks conn)
      (updateSegmentRecord conn jobID segmentIdx audioPath flagged words finalText) := by
  unfold updateSegmentRecord
  apply keeps_then (keeps_raising _)
  intro newText
  exact keeps_commit (.setAudio _ _ _) .commit

theorem processSegment_keeps (cfg : Settings) (conn : Conn) (jobID : String) (voice : Voice)
    (segment : SegmentDict) : Keeps conn (Speaks conn) (processSegment cfg conn jobID voice segment) := by
  unfold processSegment
  apply keeps_then (keeps_raising _)
  intro segmentID
  apply keeps_then (keeps_raising _)
  intro startMs
  apply keeps_then (keeps_raising _)
  intro endMs
  apply keeps_then (iterate_keeps conn cfg voice _ _ _ _ _ _)
  intro iteration
  apply keeps_then (keeps_must (speaks_work _))
  intro fit
  apply keeps_then (keeps_must (speaks_work _))
  intro words
  apply keeps_then (keeps_must (follows_aside (by trivial) (.upload _ _ _)))
  intro _
  apply keeps_then (updateSegmentRecord_keeps conn jobID _ _ _ _ _)
  intro _
  exact keeps_pure segmentID

theorem processSegments_keeps (cfg : Settings) (conn : Conn) (jobID : String) (voice : Voice)
    (segments : List SegmentDict) :
    Keeps conn (Speaks conn) (processSegments cfg conn jobID voice segments) := by
  induction segments with
  | nil => exact keeps_pure []
  | cons segment segments ih =>
    apply keeps_then (processSegment_keeps cfg conn jobID voice segment)
    intro id
    apply keeps_then ih
    intro ids
    exact keeps_pure _

theorem unlessRegen_keeps (conn : Conn) (regenOnly : Bool) {p : Py Unit}
    (h : Keeps conn (Makes conn) p) : Keeps conn (Makes conn) (unlessRegen regenOnly p) := by
  cases regenOnly with
  | true => exact keeps_pure ()
  | false => exact h

theorem processMessage_keeps (cfg : Settings) (conn : Conn) (msg : Json) :
    Keeps conn (Makes conn) (processMessage cfg conn msg) := by
  unfold processMessage
  apply keeps_then (keeps_raising _)
  intro jobID
  apply keeps_then (keeps_raising _)
  intro traceID
  apply keeps_then (keeps_raising _)
  intro payload
  apply keeps_then (keeps_raising _)
  intro voice
  apply keeps_then (keeps_mono (selectSegments_keeps conn jobID _) fun _ _ => .speaks)
  intro segments
  apply keeps_then
  · unfold giveUpIf
    split
    · exact keeps_throw _
    · exact keeps_pure ()
  intro _
  apply keeps_then (keeps_raising _)
  intro regenIDs
  apply keeps_then (keeps_mono (processSegments_keeps cfg conn jobID voice segments) fun _ _ => .speaks)
  intro ids
  apply keeps_then
  · exact unlessRegen_keeps conn _ (keeps_commit (.setStage jobID) (.speaks .commit))
  intro _
  apply keeps_then (keeps_lift (by trivial) .newString)
  intro attemptID
  apply keeps_then
  · exact keeps_must (follows_aside (by trivial) (.publish _ _ _ _ _ _))
  intro _
  exact unlessRegen_keeps conn _ (keeps_must (follows_aside (by trivial) (.notify _)))

/-- One round, from a connection without a transaction. -/
theorem serve_follows (cfg : Settings) (conn : Conn) (tag : Nat) (msg : Json) (i : Nat)
    {h : List (Event Call Answer)} (hidle : phase conn h = .idle) :
    (serve cfg conn tag msg).Follows i (Due conn (Makes conn)) (fun _ h => phase conn h ≠ .opened)
      h := by
  unfold serve
  apply follows_bind
  have hwork : Keeps conn (Makes conn) (processMessage cfg conn msg *> must (ask (.ack tag))) :=
    keeps_then (processMessage_keeps cfg conn msg) fun _ =>
      keeps_must (follows_aside (by trivial) (.ack tag))
  refine follows_mono (hwork i h hidle) fun x h hx => ?_
  cases x with
  | ok a => exact fun hopened => Phase.noConfusion (hx.symm.trans hopened)
  | error e =>
    refine ⟨.nack tag _ hx, fun _ => ?_⟩
    exact hx

/-! ## What it publishes -/

def PublishesAudio (c : Call) : Prop :=
  ∀ queue body, c = .publish queue body →
    ∃ jobID traceID attemptID ids voiceID regenOnly,
      body = some (audioMessage jobID traceID attemptID ids voiceID regenOnly)

theorem makes_publishes {conn : Conn} {p : Phase} {c : Call} (h : Makes conn p c) :
    PublishesAudio c := by
  rintro queue body rfl
  cases h with
  | speaks h => cases h
  | publish jobID traceID attemptID ids voiceID regenOnly => exact ⟨_, _, _, _, _, _, rfl⟩

theorem serve_publishes (cfg : Settings) (conn : Conn) (tag : Nat) (msg : Json) :
    (serve cfg conn tag msg).Only PublishesAudio fun _ => True :=
  only_of_follows (serve_follows cfg conn tag msg 0 (h := []) rfl) fun _ _ => makes_publishes

theorem consume_publishes (cfg : Settings) (conn : Conn) (n : Nat) :
    (consume cfg conn n).Only PublishesAudio fun _ => True := by
  induction n with
  | zero => trivial
  | succ n ih =>
    unfold consume
    apply only_bind (Q := fun _ => True) (ask_only nofun)
    rintro (_ | ⟨tag, msg⟩) _
    · exact ih
    · exact only_bind (serve_publishes cfg conn tag msg) fun _ _ => ih

end recast_rules.tts
