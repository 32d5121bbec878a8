-- The word timings of a segment on their way to the editor: the TTS service
-- stores them in `words_json`, the gateway reads the row and writes a response
-- (`GetTranscript`, `PublicShare`), and `parseWordTimings` of the editor reads the
-- segment of the response.
import RecastAi.ShareLinks

open call_programs py_text recast_rules.models recast_rules.pipeline recast_rules.gateway
open recast_rules.shares
open recast_rules.transcript (Json PgText PgWord Word)

namespace recast_rules.word_timings

/-! ## The stored words -/

/-- A word as `json.dumps` writes it. -/
def encodeWord (w : PgWord) : Json :=
  .object [(text "word", .str w.word.val), (text "start_ms", .int w.startMs),
    (text "end_ms", .int w.endMs)]

def plainWord (w : PgWord) : Word := ⟨w.word.val, w.startMs, w.endMs⟩

/-! ## The responses -/

def stageName : Stage → String
  | .uploaded => "uploaded"
  | .analyzing => "analyzing"
  | .analyzed => "analyzed"
  | .transcribing => "transcribing"
  | .transcribed => "transcribed"
  | .synthesizing => "synthesizing"
  | .synthesized => "synthesized"
  | .muxing => "muxing"
  | .muxed => "muxed"
  | .delivering => "delivering"
  | .completed => "completed"
  | .failed => "failed"

/-- `publicJob`. -/
def publicJob (job : PublicJob) : Json :=
  .object ([(text "id", goString job.id), (text "name", goString job.name),
    (text "duration", .int job.duration), (text "status", goString (stageName job.status))] ++
    if job.outputURL = "" then [] else [(text "output_url", goString job.outputURL)])

/-- The bodies with a transcript. -/
def transcriptBody : Reply → Option Json
  | .transcript segments => do
    let segments ← segments.mapM TranscriptSegment.encode
    return .object [(text "segments", .array segments)]
  | .publicShare job transcript => do
    let transcript ← transcript.mapM TranscriptSegment.encode
    return .object [(text "job", publicJob job), (text "transcript", .array transcript)]
  | _ => none

/-- The handlers that show a transcript. -/
inductive Reader where
  | getTranscript (r : Request)
  | publicShare (token : String)

def Reader.handle : Reader → Service Response
  | .getTranscript r => gateway.getTranscript r
  | .publicShare token => gateway.publicShare token

/-! ## The editor -/

/-- A property of a value. It is `none` where it is `undefined`. -/
def property (v : Json) (key : String) : Option Json :=
  match v with
  | .object fields => fields.lookup (text key)
  | _ => none

/-- The segments of a body. -/
def segmentsIn (body : Json) : List Json :=
  match (property body "segments").or (property body "transcript") with
  | some (.array segments) => segments
  | _ => []

/-- What counts as true in a condition. -/
def truthy : Option Json → Bool
  | none => false
  | some .null => false
  | some (.bool b) => b
  | some (.int n) => n ≠ 0
  | some (.float x) => x ≠ .finite 0 && x ≠ .nan
  | some (.str t) => t ≠ []
  | some (.array _) => true
  | some (.object _) => true

/-- `a || b`. -/
def orElse (a b : Option Json) : Option Json := if truthy a then a else b

/-- `a ?? b`. -/
def ifNullish (a b : Option Json) : Option Json :=
  match a with
  | none => b
  | some .null => b
  | some v => some v

/-- What the browser makes of a text of JSON, and of a number of seconds in milliseconds. -/
structure Browser where
  parse : Text → Option Json
  fromSeconds : Json → Json

structure WordTiming where
  text : Json
  startMs : Json
  endMs : Json

/-- A number of seconds, or nothing. -/
def seconds (b : Browser) (v : Option Json) : Option Json :=
  match v with
  | some (.int n) => some (b.fromSeconds (.int n))
  | some (.float x) => some (b.fromSeconds (.float x))
  | _ => none

/-- An entry of the array. A property of `null` raises. -/
def parseRecord (b : Browser) (w : Json) : Except String (Option WordTiming) :=
  match w with
  | .null => .error "TypeError"
  | record =>
    let t := orElse (orElse (property record "text") (property record "word")) (property record "w")
    let startMs := ifNullish (ifNullish (property record "startMs") (property record "start_ms"))
      (seconds b (property record "start"))
    let endMs := ifNullish (ifNullish (property record "endMs") (property record "end_ms"))
      (seconds b (property record "end"))
    match t, startMs, endMs with
    | some t, some startMs, some endMs =>
      .ok (if truthy (some t) then some ⟨t, startMs, endMs⟩ else none)
    | _, _, _ => .ok none

/-- The value of `words_json`. A string is parsed once more. -/
def parsed (b : Browser) (raw : Json) : Option Json :=
  match raw with
  | .str t => b.parse t
  | raw => some raw

/-- Whatever does not fit is no word, and whatever raises leaves no words. -/
def parseWordTimings (b : Browser) (seg : Json) : List WordTiming :=
  match property seg "words_json" with
  | none => []
  | some raw =>
    if truthy (some raw) then
      match parsed b raw with
      | some (.array items) =>
        match items.mapM (parseRecord b) with
        | .ok ws => ws.filterMap id
        | .error _ => []
      | _ => []
    else []

/-- The timing of a stored word. -/
def wordTiming (w : PgWord) : WordTiming := ⟨.str w.word.val, .int w.startMs, .int w.endMs⟩

theorem parseRecord_encodeWord (b : Browser) (w : PgWord) :
    parseRecord b (encodeWord w) = .ok (if w.word.val = [] then none else some (wordTiming w)) := by
  obtain ⟨⟨t, ht⟩, startMs, endMs⟩ := w
  cases t with
  | nil => rfl
  | cons c t => rfl

theorem mapM_parseRecord (b : Browser) (ws : List PgWord) :
    (ws.map encodeWord).mapM (parseRecord b) =
      .ok (ws.map fun w => if w.word.val = [] then none else some (wordTiming w)) := by
  induction ws with
  | nil => rfl
  | cons w ws ih =>
    rw [List.map_cons, List.mapM_cons, parseRecord_encodeWord, ih]
    rfl

theorem filterMap_timings (ws : List PgWord) :
    (ws.map fun w => if w.word.val = [] then none else some (wordTiming w)).filterMap id =
      (ws.filter fun w => w.word.val ≠ []).map wordTiming := by
  induction ws with
  | nil => rfl
  | cons w ws ih =>
    by_cases hempty : w.word.val = []
    · simpa [hempty] using ih
    · simpa [hempty] using ih

/-- The editor reads the column as it is stored, but for words without a letter. -/
theorem the_editor_reads_the_column (b : Browser) {seg : Json} {ws : List PgWord}
    (h : property seg "words_json" = some (.array (ws.map encodeWord))) :
    parseWordTimings b seg = (ws.filter fun w => w.word.val ≠ []).map wordTiming := by
  unfold parseWordTimings
  rw [h]
  change (match (ws.map encodeWord).mapM (parseRecord b) with
    | .ok ws => ws.filterMap id
    | .error _ => []) = _
  rw [mapM_parseRecord]
  exact filterMap_timings ws

/-! ## What the gateway shows -/

theorem mem_of_mapM {α β : Type} {f : α → Option β} {l : List α} {bs : List β} {b : β}
    (h : l.mapM f = some bs) (hb : b ∈ bs) : ∃ a ∈ l, f a = some b := by
  induction l generalizing bs with
  | nil =>
    obtain rfl := Option.some.inj h
    cases hb
  | cons a l ih =>
    simp only [List.mapM_cons, Option.pure_def, Option.bind_eq_bind, Option.bind_eq_some_iff,
      Option.some.injEq] at h
    obtain ⟨b', hb', bs', hbs, rfl⟩ := h
    rcases List.mem_cons.mp hb with rfl | hb
    · exact ⟨a, List.mem_cons_self, hb'⟩
    · obtain ⟨a', ha', hf⟩ := ih hbs hb
      exact ⟨a', List.mem_cons_of_mem _ ha', hf⟩

/-- Each segment of the response is a row. -/
def ShowsRows (db : Db) (resp : Response) : Prop :=
  ∀ body, transcriptBody resp.body = some body →
    ∀ seg ∈ segmentsIn body, ∃ row ∈ db.segments, row.encode = some seg

theorem refuses_showsRows (db : Db) : Refuses fun resp _ => ShowsRows db resp :=
  fun _ _ _ _ _ hbody => nomatch hbody

theorem mem_of_segmentsOf {db : Db} {id : String} {row : TranscriptSegment}
    (h : row ∈ db.segmentsOf id) : row ∈ db.segments := by
  unfold Db.segmentsOf at h
  exact (List.mem_filter.mp ((List.perm_insertionSort _ _).mem_iff.mp h)).1

theorem row_of_encoded {db : Db} {id : String} {segments : List Json} {seg : Json}
    (h : (db.segmentsOf id).mapM TranscriptSegment.encode = some segments) (hseg : seg ∈ segments) :
    ∃ row ∈ db.segments, row.encode = some seg := by
  obtain ⟨row, hrow, hencode⟩ := mem_of_mapM h hseg
  exact ⟨row, mem_of_segmentsOf hrow, hencode⟩

theorem transcript_showsRows {db : Db} {id : String} (status : Nat) :
    ShowsRows db ⟨status, .transcript (db.segmentsOf id)⟩ := by
  intro body hbody seg hseg
  obtain ⟨segments, hsegments, hsome⟩ := Option.bind_eq_some_iff.mp hbody
  obtain rfl := Option.some.inj hsome
  exact row_of_encoded hsegments hseg

theorem publicShare_showsRows {db : Db} {id : String} (status : Nat) (job : PublicJob) :
    ShowsRows db ⟨status, .publicShare job (db.segmentsOf id)⟩ := by
  intro body hbody seg hseg
  obtain ⟨segments, hsegments, hsome⟩ := Option.bind_eq_some_iff.mp hbody
  obtain rfl := Option.some.inj hsome
  exact row_of_encoded hsegments hseg

variable {E : System → Call → Outcome → Prop} {s : System}

/-- The query of the segments. -/
theorem selectSegments_wp {jobID : String} {F : Response → System → Prop}
    {Q : List TranscriptSegment → System → Prop} (hF : Refuses F)
    (hQ : ∀ id, Q (s.db.segmentsOf id) s) : wpTry services E (selectSegments jobID) F Q s := by
  apply wpTry_orGiveUp
  apply query_wp
  · exact hF 500 _ s (by omega)
  · unfold Db.rows
    dsimp only
    cases uuidIn jobID with
    | none => exact hF 500 _ s (by omega)
    | some id => exact hQ id

theorem getTranscript_wp (r : Request) :
    wp services E (gateway.getTranscript r) (fun resp _ => ShowsRows s.db resp) s := by
  have hF := refuses_showsRows s.db
  apply wp_finish
  apply wpTry_bind
  refine authenticated_wp r hF fun claims => ?_
  apply wpTry_bind
  refine requireID_wp hF ?_
  apply wpTry_bind
  refine ownedJob_wp hF fun job _ _ => ?_
  apply wpTry_bind
  refine selectSegments_wp hF fun id => ?_
  exact transcript_showsRows 200

theorem publicShare_wp (token : String) :
    wp services E (gateway.publicShare token) (fun resp _ => ShowsRows s.db resp) s := by
  have hF := refuses_showsRows s.db
  apply wp_finish
  apply wpTry_bind
  apply wpTry_giveUpIf
  · exact fun _ => hF 400 _ s (by omega)
  intro _
  apply wpTry_bind
  apply wpTry_orGiveUp
  apply query_wp
  · exact hF 500 _ s (by omega)
  cases s.db.rows (.jobByShareToken token) with
  | error e =>
    cases e with
    | noRows => exact hF 404 _ s (by omega)
    | failed => exact hF 500 _ s (by omega)
  | ok row =>
    change Job at row
    apply wpTry_bind
    apply wpTry_giveUpIf
    · exact fun _ => hF 404 _ s (by omega)
    intro _
    apply wpTry_bind
    refine selectSegments_wp hF fun id => ?_
    apply wpTry_bind
    apply wpTry_lift
    refine outputURL_wp row fun url => ?_
    exact publicShare_showsRows 200 _

theorem reader_wp (reader : Reader) :
    wp services E reader.handle (fun resp _ => ShowsRows s.db resp) s := by
  cases reader with
  | getTranscript r => exact getTranscript_wp r
  | publicShare token => exact publicShare_wp token

/-! ## The fields of a segment -/

theorem encode_fields {row : TranscriptSegment} {seg : Json} (h : row.encode = some seg) :
    property seg "job_id" = some (goString row.jobID) ∧
      property seg "segment_id" = some (.int row.segmentIdx.val) ∧
      property seg "words" = some .null ∧ property seg "words_json" = none := by
  obtain ⟨confidence, -, hseg⟩ := Option.bind_eq_some_iff.mp h
  obtain rfl := Option.some.inj hseg
  refine ⟨rfl, rfl, rfl, ?_⟩
  by_cases haudio : row.audioPath = ""
  · rw [if_pos haudio]
    rfl
  · rw [if_neg haudio]
    rfl

/-- The row that the store of the words has written. -/
theorem setAudio_writes {db db' : Db} {now n : Nat} {jobID : String} {idx : Int}
    {columns : AudioColumns} (h : db.exec now (.setAudio jobID idx columns) = .ok (n, db')) :
    ∃ id, uuidIn jobID = some id ∧ ∀ row ∈ db'.segments, row.jobID = id →
      row.segmentIdx.val = idx → row.wordsJson = columns.words := by
  obtain ⟨id, hid, h⟩ := withID_ok h
  refine ⟨id, hid, fun row hrow hjob hidx => ?_⟩
  cases h
  obtain ⟨old, -, rfl⟩ := List.mem_map.mp hrow
  split
  · rfl
  · rename_i hother
    rw [if_neg hother] at hjob hidx
    exact absurd (by simp [hjob, hidx]) hother

/-! ## The law -/

/-- A word of a response. -/
def decodeWord (v : Json) : Option Word :=
  match property v "word", property v "start_ms", property v "end_ms" with
  | some (.str word), some (.int startMs), some (.int endMs) => some ⟨word, startMs, endMs⟩
  | _, _, _ => none

/-- The words of a field. A nil slice is written as `null`. -/
def decodeWords : Json → Option (List Word)
  | .null => some []
  | .array items => items.mapM decodeWord
  | _ => none

/-- The segment has these words, under the name that the gateway gives them or the one that the
editor reads. -/
def CarriesWords (seg : Json) (ws : List PgWord) : Prop :=
  ∃ key ∈ ["words", "words_json"], ∃ v, property seg key = some v ∧
    decodeWords v = some (ws.map plainWord)

structure WordsSurvive (b : Browser) (ws : List PgWord) (seg : Json) : Prop where
  carried : CarriesWords seg ws
  recovered : parseWordTimings b seg = ws.map wordTiming

/-- The words of a row are not in its segment. -/
theorem survive_encode_iff (b : Browser) {row : TranscriptSegment} {seg : Json} (ws : List PgWord)
    (h : row.encode = some seg) : WordsSurvive b ws seg ↔ ws = [] := by
  obtain ⟨-, -, hwords, hcolumn⟩ := encode_fields h
  have hparsed : parseWordTimings b seg = [] := by
    unfold parseWordTimings
    rw [hcolumn]
  constructor
  · intro hsurvive
    exact List.map_eq_nil_iff.mp (hsurvive.recovered.symm.trans hparsed)
  · rintro rfl
    exact ⟨⟨"words", by simp, .null, hwords, rfl⟩, hparsed⟩

theorem goString_injective {a b : String} (h : goString a = goString b) : a = b := by
  have htext : text a = text b := Json.str.inj h
  rw [← ofText_text a, htext, ofText_text]

/-- The row of a segment has the words that were stored for it. They are in what the handlers show
of the row, and in what the editor makes of that, only where there are none. -/
theorem word_timings_survive_iff (b : Browser) {db : Db} {s s' : System} {now n : Nat}
    {jobID id : String} {idx : Int} {columns : AudioColumns} {reader : Reader} {os : List Outcome}
    {resp : Response} {body seg : Json}
    (hstore : db.exec now (.setAudio jobID idx columns) = .ok (n, s.db))
    (hrun : run services os (reader.handle, s) = (.done resp, s'))
    (hbody : transcriptBody resp.body = some body) (hseg : seg ∈ segmentsIn body)
    (hid : uuidIn jobID = some id) (hjob : property seg "job_id" = some (goString id))
    (hidx : property seg "segment_id" = some (.int idx)) :
    (∃ row ∈ s.db.segments, row.encode = some seg ∧ row.wordsJson = columns.words) ∧
      (WordsSurvive b columns.words seg ↔ columns.words = []) := by
  obtain ⟨row, hrow, hencode⟩ := wp_run_any (reader_wp reader) hrun body hbody seg hseg
  obtain ⟨id', hid', hwrites⟩ := setAudio_writes hstore
  obtain rfl := Option.some.inj (hid.symm.trans hid')
  obtain ⟨hjob', hidx', -, -⟩ := encode_fields hencode
  have hrowJob : row.jobID = id := goString_injective (Option.some.inj (hjob'.symm.trans hjob))
  have hrowIdx : row.segmentIdx.val = idx := Json.int.inj (Option.some.inj (hidx'.symm.trans hidx))
  exact ⟨⟨row, hrow, hencode, hwrites row hrow hrowJob hrowIdx⟩,
    survive_encode_iff b columns.words hencode⟩

/-! ## Ada's segment -/

def hello : PgText := ⟨text "Hello", by decide⟩

theorem zero_fits : (-9223372036854775808 : Int) ≤ 0 ∧ (0 : Int) ≤ 9223372036854775807 := by
  decide

theorem second_fits :
    (-9223372036854775808 : Int) ≤ 1000 ∧ (1000 : Int) ≤ 9223372036854775807 := by
  decide

def adasRow (ws : List PgWord) : TranscriptSegment where
  segmentIdx := ⟨0, by decide⟩
  startMs := ⟨0, zero_fits⟩
  endMs := ⟨1000, second_fits⟩
  text := hello
  wordsJson := ws
  confidence := .finite 1
  id := "00000000-0000-0000-0000-000000000001"
  jobID := adasJob.id
  audioPath := "audio/0.mp3"
  approved := false
  flagged := false

def adasTranscript (ws : List PgWord) : System :=
  { noJobs with db := { noJobs.db with jobs := [adasJob], segments := [adasRow ws] } }

def adasColumns (ws : List PgWord) : AudioColumns := ⟨"audio/0.mp3", false, ws, none⟩

def adasRequest : Request :=
  { bobsRequest adasJob.id with claims := some ⟨"ada", "user"⟩ }

def adasShown : Json :=
  .object [(text "id", goString "00000000-0000-0000-0000-000000000001"),
    (text "job_id", goString adasJob.id), (text "segment_id", .int 0), (text "start_ms", .int 0),
    (text "end_ms", .int 1000), (text "text", .str hello.val), (text "words", .null),
    (text "confidence", .int 1), (text "audio_path", goString "audio/0.mp3"),
    (text "approved", .bool false), (text "flagged", .bool false)]

def plainBrowser : Browser := ⟨fun _ => none, id⟩

def helloWord : PgWord := ⟨hello, 0, 300⟩

theorem adas_row_is_encoded (ws : List PgWord) : (adasRow ws).encode = some adasShown := by
  have hconfidence : goFloat (.finite 1) = some (.int 1) := by
    unfold goFloat
    dsimp only
    rw [if_pos (by decide +kernel)]
    rfl
  unfold TranscriptSegment.encode
  change (goFloat (.finite 1)).bind _ = _
  rw [hconfidence]
  with_unfolding_all rfl

theorem adas_transcript_is_written (ws : List PgWord) :
    transcriptBody (.transcript [adasRow ws]) =
      some (.object [(text "segments", .array [adasShown])]) := by
  unfold transcriptBody
  dsimp only
  rw [List.mapM_cons, adas_row_is_encoded]
  rfl

theorem adas_transcript_is_read (ws : List PgWord) :
    run services [{}, {}] (Reader.handle (.getTranscript adasRequest), adasTranscript ws) =
      (.done ⟨200, .transcript [adasRow ws]⟩, adasTranscript ws) := by
  with_unfolding_all rfl

theorem adas_words_are_stored (ws : List PgWord) :
    (adasTranscript []).db.exec 0 (.setAudio adasJob.id 0 (adasColumns ws)) =
      .ok (1, (adasTranscript ws).db) := by
  with_unfolding_all rfl

theorem adas_segment_without_words :
    (∃ row ∈ (adasTranscript []).db.segments, row.encode = some adasShown ∧ row.wordsJson = []) ∧
      (WordsSurvive plainBrowser [] adasShown ↔ ([] : List PgWord) = []) :=
  word_timings_survive_iff plainBrowser (adas_words_are_stored []) (adas_transcript_is_read [])
    (adas_transcript_is_written []) List.mem_cons_self (by with_unfolding_all rfl) rfl rfl

/-- The word is stored, and the response and the editor have none. -/
theorem a_stored_word_is_lost :
    (adasTranscript []).db.exec 0 (.setAudio adasJob.id 0 (adasColumns [helloWord])) =
        .ok (1, (adasTranscript [helloWord]).db) ∧
      run services [{}, {}] (Reader.handle (.getTranscript adasRequest), adasTranscript [helloWord]) =
        (.done ⟨200, .transcript [adasRow [helloWord]]⟩, adasTranscript [helloWord]) ∧
      transcriptBody (.transcript [adasRow [helloWord]]) =
        some (.object [(text "segments", .array [adasShown])]) ∧
      parseWordTimings plainBrowser adasShown = [] ∧
      ¬ WordsSurvive plainBrowser [helloWord] adasShown :=
  ⟨adas_words_are_stored _, adas_transcript_is_read _, adas_transcript_is_written _, rfl,
    fun h => nomatch h.recovered⟩

end recast_rules.word_timings
