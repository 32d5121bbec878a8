-- What the services share while they run: the database, the object store and
-- the broker, and the calls by which they use them. The outside answers a
-- call: it makes calls fail, it names new things, and it speaks for the
-- models, the synthesizer and ffmpeg.
import RecastAi.Interleaving
import RecastAi.Models

open call_programs py_text recast_rules.transcript recast_rules.models

namespace recast_rules.pipeline

/-! ## Keys

An id is a `UUID` column. PostgreSQL reads it from hexadecimal digits in either case, with or
without braces, and with a hyphen after any second byte. -/

def hexDigit (c : Char) : Option Char :=
  if c.isDigit || ('a' ≤ c && c ≤ 'f') then some c
  else if 'A' ≤ c && c ≤ 'F' then some c.toLower
  else none

/-- The digits of the next `n` bytes of the 16, and what follows. -/
def uuidBytes : Nat → List Char → Option (List Char × List Char)
  | 0, cs => some ([], cs)
  | n + 1, a :: b :: cs =>
    match hexDigit a, hexDigit b with
    | some a, some b =>
      let rest := if n % 2 = 0 && n ≠ 0 && cs.head? = some '-' then cs.tail else cs
      (uuidBytes n rest).map fun x => (a :: b :: x.1, x.2)
    | _, _ => none
  | _ + 1, _ => none

/-- The digits as PostgreSQL writes them. -/
def uuidText (ds : List Char) : String :=
  String.ofList (ds.take 8 ++ '-' :: (ds.drop 8).take 4 ++ '-' :: (ds.drop 12).take 4 ++
    '-' :: (ds.drop 16).take 4 ++ '-' :: ds.drop 20)

def uuidIn (s : String) : Option String :=
  match s.toList with
  | '{' :: cs =>
    match uuidBytes 16 cs with
    | some (ds, ['}']) => some (uuidText ds)
    | _ => none
  | cs =>
    match uuidBytes 16 cs with
    | some (ds, []) => some (uuidText ds)
    | _ => none

/-! ## The database -/

structure Webhook where
  userID : String
  url : String
  secret : String
  active : Bool

/-- A row of `job_events` that is not published yet. -/
structure JobEvent where
  jobID : String
  queueName : String
  payload : Json

structure Db where
  jobs : List Job
  segments : List TranscriptSegment
  jobEvents : List JobEvent
  webhooks : List Webhook

inductive DbError where
  | noRows
  | failed

/-- The columns that the synthesis of a segment writes. The text stays where it is `none`. -/
structure AudioColumns where
  audioPath : String
  flagged : Bool
  words : List PgWord
  text : Option PgText

/-- The statements that change something. -/
inductive Statement where
  | insertJob (job : Job)
  | setStage (jobID : String) (stage : Stage)
  | setStageAndDuration (jobID : String) (stage : Stage) (durationMs : Int)
  | setOutput (jobID : String) (stage : Stage) (outputFile : String)
  | setDownload (jobID : String) (stage : Stage) (downloadURL : String) (completedAt : Nat)
  | setShareToken (jobID : String) (token : Option String)
  | deleteJob (jobID : String)
  | deleteSegments (jobID : String)
  | setText (segmentID jobID : String) (text : String)
  | clearFlags (segmentID jobID : String)
  | upsertSegment (id jobID : String) (columns : Stored)
  | setAudio (jobID : String) (segmentIdx : Int) (columns : AudioColumns)

/-- Rows affected, and the database after it. -/
abbrev Effect := Except DbError (Nat × Db)

/-- The id of a parameter, or an error of the statement. -/
def withID (id : String) (f : String → Effect) : Effect :=
  match uuidIn id with
  | some id => f id
  | none => .error .failed

theorem withID_read {id id' : String} (h : uuidIn id = some id') (f : String → Effect) :
    withID id f = f id' := by
  unfold withID
  rw [h]

theorem withID_ok {id : String} {f : String → Effect} {x : Nat × Db} (h : withID id f = .ok x) :
    ∃ id', uuidIn id = some id' ∧ f id' = .ok x := by
  unfold withID at h
  split at h
  · rename_i id' hid
    exact ⟨id', hid, h⟩
  · cases h

def Db.job? (db : Db) (id : String) : Option Job := db.jobs.find? (·.id = id)

/-- `UPDATE jobs ... WHERE id = $1`. -/
def Db.updateJob (db : Db) (id : String) (f : Job → Job) : Nat × Db :=
  (db.jobs.countP (·.id = id),
    { db with jobs := db.jobs.map fun j => if j.id = id then f j else j })

/-- `UPDATE transcript_segments ... WHERE`. -/
def Db.updateSegments (db : Db) (p : TranscriptSegment → Bool)
    (f : TranscriptSegment → TranscriptSegment) : Nat × Db :=
  (db.segments.countP p, { db with segments := db.segments.map fun r => if p r then f r else r })

/-- `INSERT INTO jobs`. -/
def Db.insertJob (db : Db) (job : Job) : Effect :=
  match uuidIn job.id, uuidIn job.userID with
  | some id, some userID =>
    if db.jobs.any (·.id = id) then .error .failed
    else .ok (1, { db with jobs := db.jobs ++ [{ job with id := id, userID := userID }] })
  | _, _ => .error .failed

/-- `INSERT INTO transcript_segments ... ON CONFLICT (job_id, segment_idx) DO UPDATE`. -/
def Db.upsertSegment (db : Db) (id jobID : String) (columns : Stored) : Effect :=
  withID id fun id => withID jobID fun jobID =>
    let p := fun r : TranscriptSegment => r.jobID = jobID && r.segmentIdx = columns.segmentIdx
    if db.segments.any p then .ok (1, (db.updateSegments p ({ · with toStored := columns })).2)
    else if (db.job? jobID).isNone then .error .failed
    else .ok (1, { db with segments := db.segments ++ [⟨columns, id, jobID, "", false, false⟩] })

def Db.setText (db : Db) (segmentID jobID newText : String) : Effect :=
  withID segmentID fun segmentID => withID jobID fun jobID =>
    match PgText.of (text newText) with
    | none => .error .failed
    | some t =>
      .ok (db.updateSegments (fun r => r.id = segmentID && r.jobID = jobID)
        fun r => { r with text := t, approved := false })

def AudioColumns.write (c : AudioColumns) (r : TranscriptSegment) : TranscriptSegment :=
  { r with
    audioPath := c.audioPath, flagged := c.flagged, wordsJson := c.words,
    text := c.text.getD r.text }

/-- What a statement does at the time `now`. -/
def Db.exec (db : Db) (now : Nat) : Statement → Effect
  | .insertJob job => db.insertJob job
  | .setStage jobID stage => withID jobID fun id =>
      .ok (db.updateJob id ({ · with stage := stage, updatedAt := now }))
  | .setStageAndDuration jobID stage durationMs => withID jobID fun id =>
      .ok (db.updateJob id fun j =>
        { j with
          stage := stage, updatedAt := now,
          durationMs := if j.durationMs = 0 then durationMs else j.durationMs })
  | .setOutput jobID stage outputFile => withID jobID fun id =>
      .ok (db.updateJob id
        ({ · with stage := stage, outputFile := some outputFile, updatedAt := now }))
  | .setDownload jobID stage downloadURL completedAt => withID jobID fun id =>
      .ok (db.updateJob id fun j =>
        { j with
          stage := stage, downloadURL := some downloadURL, completedAt := some completedAt,
          updatedAt := now })
  | .setShareToken jobID token => withID jobID fun id =>
      if token.isSome && db.jobs.any (fun j => j.id ≠ id && j.shareToken = token) then
        .error .failed
      else .ok (db.updateJob id ({ · with shareToken := token, updatedAt := now }))
  | .deleteJob jobID => withID jobID fun id =>
      .ok (db.jobs.countP (·.id = id),
        { db with
          jobs := db.jobs.filter (·.id ≠ id), segments := db.segments.filter (·.jobID ≠ id),
          jobEvents := db.jobEvents.filter (·.jobID ≠ id) })
  | .deleteSegments jobID => withID jobID fun id =>
      .ok (db.segments.countP (·.jobID = id),
        { db with segments := db.segments.filter (·.jobID ≠ id) })
  | .setText segmentID jobID newText => db.setText segmentID jobID newText
  | .clearFlags segmentID jobID => withID segmentID fun segmentID => withID jobID fun jobID =>
      .ok (db.updateSegments (fun r => r.id = segmentID && r.jobID = jobID)
        fun r => { r with approved := false, flagged := false })
  | .upsertSegment id jobID columns => db.upsertSegment id jobID columns
  | .setAudio jobID segmentIdx columns => withID jobID fun jobID =>
      .ok (db.updateSegments (fun r => r.jobID = jobID && r.segmentIdx.val = segmentIdx)
        columns.write)

/-- What a statement that succeeds has done. -/
inductive Db.Done (db : Db) : Statement → Db → Prop where
  | inserted (job : Job) (jobs : List Job) : db.Done (.insertJob job) { db with jobs := jobs }
  | staged {st : Statement} (jobID : String) (stage : Stage) (id : String) (f : Job → Job)
      (hst : st = .setStage jobID stage ∨ (∃ d, st = .setStageAndDuration jobID stage d) ∨
        (∃ file, st = .setOutput jobID stage file) ∨
        ∃ url completedAt, st = .setDownload jobID stage url completedAt)
      (hid : uuidIn jobID = some id) (hsame : ∀ j, (f j).id = j.id)
      (hstage : ∀ j, (f j).stage = stage) : db.Done st (db.updateJob id f).2
  | shared (jobID : String) (token : Option String) (id : String) (f : Job → Job)
      (hsame : ∀ j, (f j).id = j.id) (hstage : ∀ j, (f j).stage = j.stage) :
      db.Done (.setShareToken jobID token) (db.updateJob id f).2
  | deleted (jobID id : String) (segments : List TranscriptSegment) :
      db.Done (.deleteJob jobID)
        { db with
          jobs := db.jobs.filter (·.id ≠ id), segments := segments,
          jobEvents := db.jobEvents.filter (·.jobID ≠ id) }
  | segments {st : Statement} (rows : List TranscriptSegment) : db.Done st { db with segments := rows }

theorem done_of_ok {db : Db} {st : Statement} {x : Nat × Db} {n : Nat} {db' : Db}
    (h : (.ok x : Effect) = .ok (n, db')) (hx : db.Done st x.2) : db.Done st db' := by
  cases h
  exact hx

/-- The inversion of `exec`. -/
theorem exec_done {db db' : Db} {now n : Nat} {st : Statement} (h : db.exec now st = .ok (n, db')) :
    db.Done st db' := by
  cases st with
  | insertJob job =>
    change db.insertJob job = _ at h
    unfold Db.insertJob at h
    split at h
    · split at h
      · cases h
      · exact done_of_ok h (.inserted job _)
    · cases h
  | setStage jobID stage =>
    obtain ⟨id, hid, h⟩ := withID_ok h
    exact done_of_ok h (.staged jobID stage id _ (Or.inl rfl) hid (fun _ => rfl) fun _ => rfl)
  | setStageAndDuration jobID stage durationMs =>
    obtain ⟨id, hid, h⟩ := withID_ok h
    exact done_of_ok h
      (.staged jobID stage id _ (Or.inr (Or.inl ⟨_, rfl⟩)) hid (fun _ => rfl) fun _ => rfl)
  | setOutput jobID stage outputFile =>
    obtain ⟨id, hid, h⟩ := withID_ok h
    exact done_of_ok h
      (.staged jobID stage id _ (Or.inr (Or.inr (Or.inl ⟨_, rfl⟩))) hid (fun _ => rfl) fun _ => rfl)
  | setDownload jobID stage downloadURL completedAt =>
    obtain ⟨id, hid, h⟩ := withID_ok h
    exact done_of_ok h
      (.staged jobID stage id _ (Or.inr (Or.inr (Or.inr ⟨_, _, rfl⟩))) hid (fun _ => rfl)
        fun _ => rfl)
  | setShareToken jobID token =>
    obtain ⟨id, -, h⟩ := withID_ok h
    split at h
    · cases h
    · exact done_of_ok h (.shared jobID token id _ (fun _ => rfl) fun _ => rfl)
  | deleteJob jobID =>
    obtain ⟨id, -, h⟩ := withID_ok h
    exact done_of_ok h (.deleted jobID id _)
  | deleteSegments jobID =>
    obtain ⟨id, -, h⟩ := withID_ok h
    exact done_of_ok h (.segments _)
  | setText segmentID jobID newText =>
    obtain ⟨id, -, h⟩ := withID_ok h
    obtain ⟨id', -, h⟩ := withID_ok h
    split at h
    · cases h
    · exact done_of_ok h (.segments _)
  | clearFlags segmentID jobID =>
    obtain ⟨id, -, h⟩ := withID_ok h
    obtain ⟨id', -, h⟩ := withID_ok h
    exact done_of_ok h (.segments _)
  | upsertSegment id jobID columns =>
    obtain ⟨id, -, h⟩ := withID_ok h
    obtain ⟨id', -, h⟩ := withID_ok h
    dsimp only at h
    split at h
    · exact done_of_ok h (.segments _)
    · split at h
      · cases h
      · exact done_of_ok h (.segments _)
  | setAudio jobID segmentIdx columns =>
    obtain ⟨id, -, h⟩ := withID_ok h
    exact done_of_ok h (.segments _)

/-- The rows of the job in the order of `segment_idx`. -/
def Db.segmentsOf (db : Db) (jobID : String) : List TranscriptSegment :=
  (db.segments.filter (·.jobID = jobID)).insertionSort
    (fun a b => a.segmentIdx.val ≤ b.segmentIdx.val)

/-! ## Connections

A worker holds one connection, on which a transaction is open from the first statement to the
next commit or rollback. A handler opens a transaction where it needs one, and its other
statements stand alone. -/

inductive Conn where
  | worker (i : Nat)
  | tx (n : Nat)
deriving DecidableEq

/-- The transaction of a connection: its statements with their time, and whether one of them
failed. Then every statement fails until the transaction ends. -/
structure Session where
  pending : List (Nat × Statement)
  aborted : Bool

def Session.idle : Session := ⟨[], false⟩

/-! ## The state -/

/-- What is spoken in a clip, and how. -/
structure Clip where
  spoken : Text
  voice : Text
  language : Text
  durationMs : Int

inductive Blob where
  | file (data : List UInt8)
  | clip (c : Clip)
  | muxed (video audio : Blob)

/-- A message that the broker accepted. Its place in the list is its tag. -/
structure Envelope where
  queue : String
  body : Json

/-- `settled` are the tags of the messages that were acknowledged or dead-lettered. -/
structure System where
  db : Db
  sessions : Conn → Session
  nextTx : Nat
  objects : String → Option Blob
  accepted : List Envelope
  settled : List Nat

def System.setSession (s : System) (conn : Conn) (session : Session) : System :=
  { s with sessions := fun k => if k = conn then session else s.sessions k }

def System.abort (s : System) (conn : Conn) : System :=
  s.setSession conn { s.sessions conn with aborted := true }

/-- The messages of a queue with their tags. -/
def System.inQueue (s : System) (queue : String) : List (Nat × Json) :=
  (s.accepted.zipIdx.filter (·.1.queue = queue)).map fun x => (x.2, x.1.body)

/-! ## Calls -/

inductive Query where
  | job (jobID : String)
  | jobByShareToken (token : String)
  | segments (jobID : String)
  | segment (segmentID jobID : String)
  | segmentsByIdx (jobID : String) (segmentIdxs : List Int)
  | webhooks (userID : String)

def Query.Row : Query → Type
  | .job _ => Job
  | .jobByShareToken _ => Job
  | .segments _ => List TranscriptSegment
  | .segment _ _ => TranscriptSegment
  | .segmentsByIdx _ _ => List TranscriptSegment
  | .webhooks _ => List Webhook

/-- What `score_segment` finds. -/
structure Score where
  combined : Rat
  issues : List Text

structure Fit where
  clip : Clip
  speedFlagged : Bool

/-- The work that is done outside of the services' own code: files, ffmpeg, the models. -/
inductive Work where
  | tempDir
  | ffprobe (video : Blob)
  | analyze (style language : Text) (durationMs : Option Int)
  | synthesize (spoken voice language : Text)
  | score (clip : Clip) (targetMs : Int)
  | rewrite (original : Text) (startMs endMs : Int) (style language : Text) (score : Score)
  | fit (clip : Clip) (targetMs : Int)
  | alignWords (spoken : Text) (startMs finalMs : Int)
  | mux (video audio : Blob)
  | sendWebhook (hook : Webhook) (jobID downloadURL : String) (durationMs : Int)

/-- All of it may raise. A `none` of `rewrite` is no progress. -/
def Work.Result : Work → Type
  | .tempDir => Except String Unit
  | .ffprobe _ => Except String Int
  | .analyze _ _ _ => Except String (List Segment)
  | .synthesize _ _ _ => Except String Clip
  | .score _ _ => Except String Score
  | .rewrite _ _ _ _ _ _ => Except String (Option Text)
  | .fit _ _ => Except String Fit
  | .alignWords _ _ _ => Except String (List PgWord)
  | .mux _ _ => Except String Blob
  | .sendWebhook _ _ _ _ => Except String Unit

/-- The body of `publish` is absent where it cannot be written as JSON. -/
inductive Call where
  | newString
  | randomToken
  | clock
  | query (conn : Option Conn) (q : Query)
  | exec (conn : Option Conn) (st : Statement)
  | begin
  | commit (conn : Conn)
  | rollback (conn : Conn)
  | upload (key : String) (blob : Blob)
  | download (key : String)
  | deleteObject (key : String)
  | presign (key : String)
  | publish (queue : String) (body : Option Json)
  | receive (queue : String)
  | ack (tag : Nat)
  | nack (tag : Nat) (requeue : Bool)
  | notify (channel : String)
  | work (w : Work)

def Answer : Call → Type
  | .newString => String
  | .randomToken => Except String String
  | .clock => Nat
  | .query _ q => Except DbError q.Row
  | .exec _ _ => Except DbError Nat
  | .begin => Except DbError Conn
  | .commit _ => Except DbError Unit
  | .rollback _ => Except DbError Unit
  | .upload _ _ => Except String Unit
  | .download _ => Except String Blob
  | .deleteObject _ => Except String Unit
  | .presign _ => Except String String
  | .publish _ _ => Except String Unit
  | .receive _ => Option (Nat × Json)
  | .ack _ => Except String Unit
  | .nack _ _ => Except String Unit
  | .notify _ => Except String Unit
  | .work w => w.Result

/-- What the outside chooses at a call. A call that fails may still have had its effect
(`applied`). -/
structure Outcome where
  fails : Bool := false
  applied : Bool := false
  error : String := ""
  fresh : String := ""
  now : Nat := 0
  pick : Nat := 0
  ms : Int := 0
  raw : Json := .null
  combined : Rat := 1
  issues : List Text := []
  rewritten : Option Text := none
  flagged : Bool := false
  words : List PgWord := []

def landed (o : Outcome) : Bool := !o.fails || o.applied

def reply {α : Type} (o : Outcome) (a : α) : Except String α :=
  if o.fails then .error o.error else .ok a

/-- The answer of a statement that stands alone. -/
def replyDb {α : Type} (o : Outcome) (a : α) : Except DbError α :=
  if o.fails then .error .failed else .ok a

/-! ## The answers -/

/-- What a query finds. -/
def Db.rows (db : Db) : (q : Query) → Except DbError q.Row
  | .job jobID =>
    match uuidIn jobID with
    | none => .error .failed
    | some id =>
      match db.job? id with
      | none => .error .noRows
      | some job => .ok job
  | .jobByShareToken token =>
    match PgText.of (text token) with
    | none => .error .failed
    | some _ =>
      match db.jobs.find? (·.shareToken = some token) with
      | none => .error .noRows
      | some job => .ok job
  | .segments jobID =>
    match uuidIn jobID with
    | none => .error .failed
    | some id => .ok (db.segmentsOf id)
  | .segment segmentID jobID =>
    match uuidIn segmentID, uuidIn jobID with
    | some segmentID, some jobID =>
      match db.segments.find? fun r => r.id = segmentID && r.jobID = jobID with
      | none => .error .noRows
      | some r => .ok r
    | _, _ => .error .failed
  | .segmentsByIdx jobID segmentIdxs =>
    match uuidIn jobID with
    | none => .error .failed
    | some id =>
      if segmentIdxs.any fun n => (PgInt.of n).isNone then .error .failed
      else .ok ((db.segmentsOf id).filter (·.segmentIdx.val ∈ segmentIdxs))
  | .webhooks userID =>
    match uuidIn userID with
    | none => .error .failed
    | some id => .ok (db.webhooks.filter fun h => h.userID = id && h.active)

def answerQuery (o : Outcome) (s : System) (conn : Option Conn) (q : Query) :
    Except DbError q.Row × System :=
  match conn with
  | none => (if o.fails then .error .failed else s.db.rows q, s)
  | some k =>
    if (s.sessions k).aborted then (.error .failed, s)
    else if o.fails then (.error .failed, s.abort k)
    else
      match s.db.rows q with
      | .error .failed => (.error .failed, s.abort k)
      | r => (r, s)

def answerExec (o : Outcome) (s : System) (conn : Option Conn) (st : Statement) :
    Except DbError Nat × System :=
  match conn with
  | none =>
    match s.db.exec o.now st with
    | .error e => (.error e, s)
    | .ok (n, db) => (replyDb o n, if landed o then { s with db := db } else s)
  | some k =>
    if (s.sessions k).aborted then (.error .failed, s)
    else if o.fails then (.error .failed, s.abort k)
    else
      match s.db.exec o.now st with
      | .error e => (.error e, s.abort k)
      | .ok (n, _) =>
        (.ok n, s.setSession k ⟨(s.sessions k).pending ++ [(o.now, st)], false⟩)

/-- The statements of a transaction take effect together, in the order they were made. -/
def Db.execAll (db : Db) : List (Nat × Statement) → Db
  | [] => db
  | (now, st) :: more =>
    match db.exec now st with
    | .error _ => db.execAll more
    | .ok (_, db') => db'.execAll more

def System.commit (s : System) (conn : Conn) : System :=
  ({ s with db := s.db.execAll (s.sessions conn).pending }).setSession conn .idle

/-- A commit ends the transaction. Of an aborted one nothing stays. -/
def answerCommit (o : Outcome) (s : System) (conn : Conn) : Except DbError Unit × System :=
  if (s.sessions conn).aborted then (.ok (), s.setSession conn .idle)
  else (replyDb o (), if landed o then s.commit conn else s.setSession conn .idle)

def System.put (s : System) (key : String) (x : Option Blob) : System :=
  { s with objects := fun k => if k = key then x else s.objects k }

/-- The object of a key. No object has the empty name. -/
def System.stored (s : System) (key : String) : Option Blob :=
  if key = "" then none else s.objects key

def answerWork (o : Outcome) : (w : Work) → w.Result
  | .tempDir => reply o ()
  | .ffprobe _ => reply o (max o.ms 0)
  | .analyze _ _ durationMs =>
    if o.fails then .error o.error
    else
      match validateTranscript (fun _ => o.error) o.raw durationMs with
      | .error _ => .error "invalid transcript"
      | .ok segments => .ok segments
  | .synthesize spoken voice language => reply o ⟨spoken, voice, language, max o.ms 0⟩
  | .score _ _ => reply o ⟨o.combined, o.issues⟩
  | .rewrite _ _ _ _ _ _ => reply o o.rewritten
  | .fit clip _ => reply o ⟨{ clip with durationMs := max o.ms 0 }, o.flagged⟩
  | .alignWords _ _ _ => reply o o.words
  | .mux video audio => reply o (.muxed video audio)
  | .sendWebhook _ _ _ _ => reply o ()

def answerCall (o : Outcome) (s : System) : (c : Call) → Answer c × System
  | .newString => (o.fresh, s)
  | .randomToken => (reply o o.fresh, s)
  | .clock => (o.now, s)
  | .query conn q => answerQuery o s conn q
  | .exec conn st => answerExec o s conn st
  | .begin => (replyDb o (.tx s.nextTx), { s with nextTx := s.nextTx + 1 })
  | .commit conn => answerCommit o s conn
  | .rollback conn => (replyDb o (), if landed o then s.setSession conn .idle else s)
  | .upload key blob =>
    if key = "" then (.error "Object name cannot be empty", s)
    else (reply o (), if landed o then s.put key (some blob) else s)
  | .download key =>
    (match s.stored key with
      | none => .error "The specified key does not exist."
      | some blob => reply o blob, s)
  | .deleteObject key => (reply o (), if landed o then s.put key none else s)
  | .presign key => (if key = "" then .error "Object name cannot be empty" else reply o o.fresh, s)
  | .publish queue body =>
    match body with
    | none => (.error "json: unsupported value", s)
    | some body =>
      (reply o (), if landed o then { s with accepted := s.accepted ++ [⟨queue, body⟩] } else s)
  | .receive queue => ((s.inQueue queue)[o.pick]?, s)
  | .ack tag => (reply o (), if landed o then { s with settled := tag :: s.settled } else s)
  | .nack tag requeue =>
    (reply o (), if landed o && !requeue then { s with settled := tag :: s.settled } else s)
  | .notify _ => (reply o (), s)
  | .work w => (answerWork o w, s)

def services : World Call Answer System Outcome := ⟨answerCall⟩

abbrev Service (α : Type) := Prog Call Answer α

/-- The program that makes the call and gives the answer. -/
def ask (c : Call) : Service (Answer c) := .call c .done

/-! ## What a statement on its own does -/

/-- It is an error that changes nothing, or it has its effect, or it fails with or without it. -/
theorem exec_alone_cases (o : Outcome) (s : System) (st : Statement) :
    (∃ e, s.db.exec o.now st = .error e ∧ answerExec o s none st = (.error e, s)) ∨
      ∃ n db, s.db.exec o.now st = .ok (n, db) ∧
        (answerExec o s none st = (.ok n, { s with db := db }) ∨
          answerExec o s none st = (.error .failed, { s with db := db }) ∨
          answerExec o s none st = (.error .failed, s)) := by
  cases heffect : s.db.exec o.now st with
  | error e =>
    left
    refine ⟨e, rfl, ?_⟩
    unfold answerExec
    simp only [heffect]
  | ok x =>
    right
    refine ⟨x.1, x.2, rfl, ?_⟩
    unfold answerExec replyDb landed
    simp only [heffect]
    cases o.fails <;> cases o.applied <;> simp

/-- The calls that leave the database and the accepted messages alone. -/
def Call.keepsRecords : Call → Bool
  | .exec none _ => false
  | .commit _ => false
  | .publish _ (some _) => false
  | _ => true

theorem records_kept {c : Call} (hc : c.keepsRecords = true) (o : Outcome) (s : System) :
    (answerCall o s c).2.db = s.db ∧ (answerCall o s c).2.accepted = s.accepted := by
  cases c with
  | query k q =>
    change (answerQuery o s k q).2.db = _ ∧ (answerQuery o s k q).2.accepted = _
    unfold answerQuery
    cases k with
    | none => exact ⟨rfl, rfl⟩
    | some k =>
      dsimp only
      split
      · exact ⟨rfl, rfl⟩
      · split
        · exact ⟨rfl, rfl⟩
        · split <;> exact ⟨rfl, rfl⟩
  | exec k st =>
    cases k with
    | none => cases hc
    | some k =>
      change (answerExec o s (some k) st).2.db = _ ∧ (answerExec o s (some k) st).2.accepted = _
      unfold answerExec
      dsimp only
      split
      · exact ⟨rfl, rfl⟩
      · split
        · exact ⟨rfl, rfl⟩
        · split <;> exact ⟨rfl, rfl⟩
  | commit k => cases hc
  | publish queue body =>
    cases body with
    | none => exact ⟨rfl, rfl⟩
    | some body => cases hc
  | upload key blob =>
    unfold answerCall
    dsimp only
    split
    · exact ⟨rfl, rfl⟩
    · dsimp only
      split <;> exact ⟨rfl, rfl⟩
  | rollback k =>
    unfold answerCall
    dsimp only
    split <;> exact ⟨rfl, rfl⟩
  | deleteObject key =>
    unfold answerCall
    dsimp only
    split <;> exact ⟨rfl, rfl⟩
  | ack tag =>
    unfold answerCall
    dsimp only
    split <;> exact ⟨rfl, rfl⟩
  | nack tag requeue =>
    unfold answerCall
    dsimp only
    split <;> exact ⟨rfl, rfl⟩
  | _ => exact ⟨rfl, rfl⟩

/-- What a call does to the database: nothing, or a statement of its own, or a transaction. -/
theorem db_after (o : Outcome) (s : System) (c : Call) :
    (answerCall o s c).2.db = s.db ∨
      (∃ st n, c = .exec none st ∧ s.db.exec o.now st = .ok (n, (answerCall o s c).2.db)) ∨
      ∃ k, c = .commit k ∧ (s.sessions k).aborted = false ∧
        (answerCall o s c).2.db = s.db.execAll (s.sessions k).pending := by
  cases c with
  | exec k st =>
    cases k with
    | none =>
      rcases exec_alone_cases o s st with ⟨e, -, h⟩ | ⟨n, db, hexec, h | h | h⟩
      · exact Or.inl (by simp [answerCall, h])
      · exact Or.inr (Or.inl ⟨st, n, rfl, by simp [answerCall, h, hexec]⟩)
      · exact Or.inr (Or.inl ⟨st, n, rfl, by simp [answerCall, h, hexec]⟩)
      · exact Or.inl (by simp [answerCall, h])
    | some k => exact Or.inl (records_kept rfl o s).1
  | commit k =>
    change (answerCommit o s k).2.db = s.db ∨ _ ∨ ∃ j, _ ∧ _ ∧ (answerCommit o s k).2.db = _
    unfold answerCommit
    split
    · exact Or.inl rfl
    · rename_i hopen
      dsimp only
      split
      · exact Or.inr (Or.inr ⟨k, rfl, Bool.eq_false_of_not_eq_true hopen, rfl⟩)
      · exact Or.inl rfl
  | publish queue body =>
    left
    cases body with
    | none => exact (records_kept rfl o s).1
    | some body =>
      unfold answerCall
      dsimp only
      split <;> rfl
  | _ => exact Or.inl (records_kept rfl o s).1

/-- What a call does to the accepted messages: nothing, or it publishes one. -/
theorem accepted_after (o : Outcome) (s : System) (c : Call) :
    (answerCall o s c).2.accepted = s.accepted ∨ ∃ queue body, c = .publish queue (some body) ∧
      (answerCall o s c).2.accepted = s.accepted ++ [⟨queue, body⟩] := by
  cases c with
  | publish queue body =>
    cases body with
    | none => exact Or.inl (records_kept rfl o s).2
    | some body =>
      unfold answerCall
      dsimp only
      split
      · exact Or.inr ⟨queue, body, rfl, rfl⟩
      · exact Or.inl rfl
  | exec k st =>
    left
    cases k with
    | none =>
      rcases exec_alone_cases o s st with ⟨e, -, h⟩ | ⟨n, db, -, h | h | h⟩ <;> simp [answerCall, h]
    | some k => exact (records_kept rfl o s).2
  | commit k =>
    left
    change (answerCommit o s k).2.accepted = _
    unfold answerCommit
    split
    · rfl
    · dsimp only
      split <;> rfl
  | _ => exact Or.inl (records_kept rfl o s).2

end recast_rules.pipeline
