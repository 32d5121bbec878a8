-- The call of the rewriter (`_request_rewrite` in `tts/iterate.py`), and the quality loop over it.
-- The loop stops where there is no new text, and it fails where the call raises.
import RecastAi.PyPatterns
import RecastAi.QualityLoop

open best_so_far call_programs py_text recast_rules.transcript recast_rules.tts
open recast_rules.py

namespace recast_rules.quality_loop

/-! ## The call -/

/-- What comes of the POST. `httpx` raises an `HTTPError` where there is no response. `body` is what
`json()` reads, and `none` where it raises a `ValueError`. -/
inductive HttpOutcome where
  | httpError
  | response (status : Nat) (body : Option Json)

/-- `raise_for_status` raises an `HTTPError` for every other status. -/
def isSuccess (status : Nat) : Bool := 200 ≤ status && status ≤ 299

/-- The text in the body. -/
def rewrittenText (body : Json) : Except String (Option Text) := do
  match ← getOr body "text" .null with
  | .str t =>
    if strip t = [] then return none
    else
      let changed ← getOr body "changed" (.bool false)
      if truthy changed then return some (strip t) else return none
  | _ => return none

/-- What `_request_rewrite` makes of it. -/
def readOutcome : HttpOutcome → Except String (Option Text)
  | .httpError => .ok none
  | .response status body =>
    if isSuccess status then
      match body with
      | none => .ok none
      | some body => rewrittenText body
    else .ok none

/-- The payload of the POST. -/
structure RewritePayload (α : Type) where
  originalText : Text
  sceneStartMs : Int
  sceneEndMs : Int
  style : Text
  language : Text
  diagnosis : Diagnosis α

/-- The calls of the loop, with the POST in the place of the rewriter. -/
inductive PostCall (α : Type) where
  | synthesize (spoken voiceID language : Text)
  | score (synth : SynthesisResult) (targetMs : Int)
  | post (endpoint : Text) (payload : RewritePayload α)

def PostCall.Answer {α : Type} : PostCall α → Type
  | .synthesize _ _ _ => SynthesisResult
  | .score _ _ => QualityScore α
  | .post _ _ => HttpOutcome

variable {α : Type}

/-- What may raise, with the class of the exception. -/
abbrev Posting (α β : Type) := ExceptT String (Prog (PostCall α) PostCall.Answer) β

/-- `url.rstrip("/") + "/rewrite"`. -/
def endpointOf (url : Text) : Text := url.rdropWhile (· = 0x2F) ++ text "/rewrite"

def requestRewrite (url : Text) (payload : RewritePayload α) :
    Posting α (Option Text) :=
  if url = [] then pure none
  else do
    let outcome ← ExceptT.lift (Prog.ask (PostCall.post (endpointOf url) payload))
    ExceptT.mk (.done (readOutcome outcome))

def overHttp (args : Arguments α) (url : Text) (startMs endMs : Int) :
    Oracles (Posting α) SynthesisResult (QualityScore α) (HistoryEntry α) α where
  synthesize spoken :=
    ExceptT.lift (Prog.ask (PostCall.synthesize spoken args.voiceID args.language))
  scoreSegment synth := ExceptT.lift (Prog.ask (PostCall.score synth
    (if args.targetDurationMs = 0 then synth.durationMs else args.targetDurationMs)))
  requestRewrite spoken score := requestRewrite url
    ⟨spoken, startMs, endMs, args.style, args.language, score.toDiagnosis args.round⟩
  combined := QualityScore.combined
  record := historyEntry args.round

/-- `synthesize_with_iteration` with the address of the rewriter. -/
def synthesizeOverHttp [LinearOrder α] (args : Arguments α) (url : Text) (segment : SegmentDict) :
    Except String (Posting α (Result α)) := do
  let startMs ← segmentStart segment
  let endMs ← segmentEnd segment
  return iterateFrom (overHttp args url startMs endMs) args.passThreshold (attempts args - 1) 1
    (segmentText args.repr segment) [] none

/-! ## What is read of a response -/

def isObject : Json → Bool
  | .object _ => true
  | _ => false

/-- A success whose body is JSON, but no object. -/
def NoObject : HttpOutcome → Prop
  | .response status (some body) => isSuccess status = true ∧ isObject body = false
  | _ => False

theorem getOr_object (fields : List (Text × Json)) (key : String) (default : Json) :
    getOr (.object fields) key default = .ok ((fields.lookup (text key)).getD default) := rfl

theorem rewrittenText_object (fields : List (Text × Json)) :
    ∃ rewritten, rewrittenText (.object fields) = .ok rewritten := by
  unfold rewrittenText
  rw [getOr_object, getOr_object]
  change ∃ rewritten, (match (fields.lookup (text "text")).getD .null with
    | .str t => _
    | _ => _) = Except.ok rewritten
  split
  · split
    · exact ⟨_, rfl⟩
    · exact ⟨_, (apply_ite Except.ok _ _ _).symm⟩
  · exact ⟨_, rfl⟩

theorem rewrittenText_no_object {body : Json} (h : isObject body = false) :
    rewrittenText body = .error "AttributeError" := by
  cases body with
  | object fields => cases h
  | _ => rfl

theorem readOutcome_no_object {o : HttpOutcome} (h : NoObject o) :
    readOutcome o = .error "AttributeError" := by
  cases o with
  | httpError => exact h.elim
  | response status body =>
    cases body with
    | none => exact h.elim
    | some body => exact (if_pos h.1).trans (rewrittenText_no_object h.2)

theorem readOutcome_else {o : HttpOutcome} (h : ¬ NoObject o) :
    ∃ rewritten, readOutcome o = .ok rewritten := by
  cases o with
  | httpError => exact ⟨none, rfl⟩
  | response status body =>
    cases hstatus : isSuccess status with
    | false => exact ⟨none, if_neg (by simp [hstatus])⟩
    | true =>
      cases body with
      | none => exact ⟨none, if_pos hstatus⟩
      | some body =>
        have hobject : isObject body = true := by
          by_contra hno
          exact h ⟨hstatus, Bool.not_eq_true _ ▸ hno⟩
        cases body with
        | object fields =>
          obtain ⟨rewritten, hrewritten⟩ := rewrittenText_object fields
          exact ⟨rewritten, (if_pos hstatus).trans hrewritten⟩
        | _ => cases hobject

theorem rewrittenText_trimmed {body : Json} {t : Text} (h : rewrittenText body = .ok (some t)) :
    t ≠ [] ∧ strip t = t := by
  cases body with
  | object fields =>
    unfold rewrittenText at h
    rw [getOr_object, getOr_object] at h
    change (match (fields.lookup (text "text")).getD .null with
      | .str t => _
      | _ => _) = Except.ok (some t) at h
    split at h
    · rename_i found _
      split at h
      · cases h
      · rename_i hne
        change (if _ then Except.ok (some (strip found)) else Except.ok none) = _ at h
        split at h
        · obtain rfl := Option.some.inj (Except.ok.inj h)
          exact ⟨hne, strip_strip found⟩
        · cases h
    · cases h
  | _ => cases h

/-- A new text is not empty, and no blanks are around it. -/
theorem readOutcome_trimmed {o : HttpOutcome} {t : Text} (h : readOutcome o = .ok (some t)) :
    t ≠ [] ∧ strip t = t := by
  cases o with
  | httpError => cases h
  | response status body =>
    unfold readOutcome at h
    dsimp only at h
    split at h
    · cases body with
      | none => cases h
      | some body => exact rewrittenText_trimmed h
    · cases h

/-! ## The loop -/

abbrev PostCalls (α : Type) := List (Sigma (PostCall.Answer (α := α)))

def NoObjectAt : Sigma (PostCall.Answer (α := α)) → Prop
  | ⟨.post _ _, o⟩ => NoObject o
  | _ => False

/-- The attempts among the calls. -/
def spokenAttempts : PostCalls α → List (Attempt α)
  | ⟨.synthesize spoken _ _, synth⟩ :: ⟨.score _ _, score⟩ :: es =>
    ⟨spoken, synth, score⟩ :: spokenAttempts es
  | _ :: es => spokenAttempts es
  | [] => []

/-- The one call, where there is a rewriter. -/
theorem requestRewrite_run {url : Text} {payload : RewritePayload α} {es : PostCalls α}
    {x : Except String (Option Text)} (h : Trace (requestRewrite url payload).run es x) :
    (es = [] ∧ x = .ok none) ∨
      ∃ o, es = [⟨.post (endpointOf url) payload, o⟩] ∧ x = readOutcome o := by
  unfold requestRewrite at h
  split at h
  · cases h
    exact Or.inl ⟨rfl, rfl⟩
  · cases h with
    | @call _ _ o es _ h =>
      cases h
      exact Or.inr ⟨o, rfl, rfl⟩

/-- The call raises nothing and gives a new text or none exactly where it reads no such body. -/
theorem requestRewrite_reads_iff {url : Text} {payload : RewritePayload α} {es : PostCalls α}
    {x : Except String (Option Text)} (h : Trace (requestRewrite url payload).run es x) :
    (∃ rewritten, x = .ok rewritten ∧ ∀ t ∈ rewritten, t ≠ [] ∧ strip t = t) ↔
      ∀ e ∈ es, ¬ NoObjectAt e := by
  rcases requestRewrite_run h with ⟨rfl, rfl⟩ | ⟨o, rfl, rfl⟩
  · exact ⟨fun _ e he => absurd he List.not_mem_nil, fun _ => ⟨none, rfl, fun t ht => (nomatch ht)⟩⟩
  · rw [List.forall_mem_singleton]
    change _ ↔ ¬ NoObject o
    constructor
    · rintro ⟨rewritten, hrewritten, -⟩ hno
      cases hrewritten.symm.trans (readOutcome_no_object hno)
    · intro hno
      obtain ⟨rewritten, hrewritten⟩ := readOutcome_else hno
      refine ⟨rewritten, hrewritten, fun t ht => ?_⟩
      exact readOutcome_trimmed (hrewritten.trans (congrArg Except.ok ht))

/-- The call raises, or it goes on with a text or none. -/
theorem trace_requestRewrite {β : Type} {url : Text} {payload : RewritePayload α}
    {f : Option Text → Posting α β} {es : PostCalls α} {x : Except String β}
    (h : Trace (requestRewrite url payload >>= f).run es x) :
    (∃ rewritten es', Trace (f rewritten).run es' x ∧ spokenAttempts es = spokenAttempts es' ∧
      ∀ e, NoObjectAt e → (e ∈ es ↔ e ∈ es')) ∨
    (∃ error, x = .error error) ∧ ∃ e ∈ es, NoObjectAt e := by
  unfold requestRewrite at h
  split at h
  · exact Or.inl ⟨none, es, h, rfl, fun _ _ => Iff.rfl⟩
  · cases h with
    | @call _ _ o es _ h =>
      by_cases hno : NoObject o
      · change Trace (ExceptT.bindCont f (readOutcome o)) _ _ at h
        rw [readOutcome_no_object hno] at h
        cases h
        exact Or.inr ⟨⟨_, rfl⟩, _, List.mem_cons_self, hno⟩
      · obtain ⟨rewritten, hrewritten⟩ := readOutcome_else hno
        change Trace (ExceptT.bindCont f (readOutcome o)) _ _ at h
        rw [hrewritten] at h
        refine Or.inl ⟨rewritten, es, h, rfl, fun e he => ?_⟩
        rw [List.mem_cons]
        refine or_iff_right ?_
        rintro rfl
        exact hno he

/-- The loop stops where the text is not new. -/
theorem trace_of_answer {β : Type} {spoken : Text} {r : β} {f : Text → Posting α β}
    {rewritten : Option Text} {es : PostCalls α} {x : Except String β}
    (h : Trace (match rewritten with
      | none => (pure r : Posting α β)
      | some t => if t = spoken then pure r else f t).run es x) :
    (es = [] ∧ x = .ok r) ∨ ∃ t, t ≠ spoken ∧ Trace (f t).run es x := by
  cases rewritten with
  | none =>
    cases h
    exact Or.inl ⟨rfl, rfl⟩
  | some t =>
    dsimp only at h
    split at h
    · cases h
      exact Or.inl ⟨rfl, rfl⟩
    · rename_i hne
      exact Or.inr ⟨t, hne, h⟩

section Runs

variable [LinearOrder α] {args : Arguments α} {url : Text} {startMs endMs : Int}

/-- A round is a way to go on. -/
theorem trace_of_round {left attempt : Nat} {spoken : Text} {history : List (HistoryEntry α)}
    {best : Option (Result α)} {es : Calls α} {r : Result α}
    (h : Round args startMs endMs attempt spoken history best left es r) :
    Trace (iterateFrom (asking args startMs endMs) args.passThreshold left attempt spoken
      history best) es r := by
  cases h with
  | @ends _ a htext h =>
    subst htext
    cases left with
    | zero => exact .call (.call (.done _))
    | succ left =>
      refine .call (.call ?_)
      change Trace (if args.passThreshold ≤ a.combined then _ else _) _ _
      rw [if_pos (h.resolve_right (Nat.succ_ne_zero left))]
      exact .done _
  | @unchanged left a answer htext hlow h =>
    subst htext
    refine .call (.call ?_)
    change Trace (if args.passThreshold ≤ a.combined then _ else _) _ _
    rw [if_neg (not_le.mpr hlow)]
    refine .call ?_
    rcases h with rfl | rfl
    · exact .done _
    · change Trace (if a.text = a.text then _ else _) _ _
      rw [if_pos rfl]
      exact .done _
  | @again left a rewritten es r htext hlow hne h =>
    subst htext
    refine .call (.call ?_)
    change Trace (if args.passThreshold ≤ a.combined then _ else _) _ _
    rw [if_neg (not_le.mpr hlow)]
    refine .call ?_
    change Trace (if rewritten = a.text then _ else _) _ _
    rw [if_neg hne]
    exact h

/-- The loop over the POST is the loop over a rewriter that answers what is read, up to the first
response that cannot be read. -/
theorem simulates_or_raises {left attempt : Nat} {spoken : Text} {history : List (HistoryEntry α)}
    {best : Option (Result α)} {es : PostCalls α} {x : Except String (Result α)}
    (h : Trace (iterateFrom (overHttp args url startMs endMs) args.passThreshold left attempt spoken
      history best).run es x) :
    (∃ r es', x = .ok r ∧ (∀ e ∈ es, ¬ NoObjectAt e) ∧
      Trace (iterateFrom (asking args startMs endMs) args.passThreshold left attempt spoken
        history best) es' r ∧ attemptsOf es' = spokenAttempts es) ∨
    (∃ error, x = .error error) ∧ ∃ e ∈ es, NoObjectAt e := by
  induction left generalizing attempt spoken history best es with
  | zero =>
    cases h with
    | @call _ _ synth _ _ h =>
      cases h with
      | @call _ _ score _ _ h =>
        cases h
        exact Or.inl ⟨_, _, rfl, by simp [NoObjectAt],
          trace_of_round (.ends (a := ⟨spoken, synth, score⟩) rfl (Or.inr rfl)), rfl⟩
  | succ left ih =>
    cases h with
    | @call _ _ synth _ _ h =>
      cases h with
      | @call _ _ score es _ h =>
        have hspoken : ∀ e, NoObjectAt e →
            (e ∈ ⟨.synthesize spoken args.voiceID args.language, synth⟩ ::
              ⟨.score synth (if args.targetDurationMs = 0 then synth.durationMs
                else args.targetDurationMs), score⟩ :: es ↔ e ∈ es) := by
          intro e he
          rw [List.mem_cons, List.mem_cons, or_iff_right, or_iff_right]
          · rintro rfl
            exact he
          · rintro rfl
            exact he
        change Trace (if args.passThreshold ≤ score.combined then _ else _) _ _ at h
        split at h
        · rename_i hpass
          cases h
          exact Or.inl ⟨_, _, rfl, by simp [NoObjectAt],
            trace_of_round (.ends (a := ⟨spoken, synth, score⟩) rfl (Or.inl hpass)), rfl⟩
        · rename_i hlow
          have hlow := not_le.mp hlow
          rcases trace_requestRewrite h with
            ⟨rewritten, es', h, hattempts, hmem⟩ | ⟨hraises, e, he, hno⟩
          · have hcalls : ∀ e, NoObjectAt e → (_ ↔ e ∈ es') :=
              fun e hno => (hspoken e hno).trans (hmem e hno)
            rcases trace_of_answer h with ⟨rfl, rfl⟩ | ⟨rewritten, hne, h⟩
            · exact Or.inl ⟨_, _, rfl, fun e he hno => List.not_mem_nil ((hcalls e hno).mp he),
                trace_of_round (.unchanged (a := ⟨spoken, synth, score⟩) rfl hlow (Or.inl rfl)),
                congrArg (List.cons _) hattempts.symm⟩
            · rcases ih h with ⟨r, es'', rfl, hread, htrace, hsame⟩ | ⟨hraises, e, he, hno⟩
              · exact Or.inl ⟨r, _, rfl, fun e he hno => hread e ((hcalls e hno).mp he) hno,
                  trace_of_round (.again (a := ⟨spoken, synth, score⟩) rfl hlow hne htrace),
                  congrArg (List.cons _) (hsame.trans hattempts.symm)⟩
              · exact Or.inr ⟨hraises, e, (hcalls e hno).mpr he, hno⟩
          · exact Or.inr ⟨hraises, e, (hspoken e hno).mpr he, hno⟩

theorem runs_over_http {segment : SegmentDict} {p : Posting α (Result α)}
    (h : synthesizeOverHttp args url segment = .ok p) :
    ∃ startMs endMs, p = iterateFrom (overHttp args url startMs endMs) args.passThreshold
      (attempts args - 1) 1 (segmentText args.repr segment) [] none := by
  exact times_of_segment h

/-- The call gives a new text or none, and the loop returns its best attempt, exactly where no
success has a JSON body that is no object. -/
theorem rewrite_call_breaks_nothing_iff {segment : SegmentDict} {p : Posting α (Result α)}
    {es : PostCalls α} {x : Except String (Result α)}
    (hp : synthesizeOverHttp args url segment = .ok p) (h : Trace p.run es x) :
    (∀ (payload : RewritePayload α) (calls : PostCalls α) (y : Except String (Option Text)),
      Trace (requestRewrite url payload).run calls y →
        ((∃ rewritten, y = .ok rewritten ∧ ∀ t ∈ rewritten, t ≠ [] ∧ strip t = t) ↔
          ∀ e ∈ calls, ¬ NoObjectAt e)) ∧
    ((∃ r, x = .ok r ∧ Returns args (spokenAttempts es) r) ↔ ∀ e ∈ es, ¬ NoObjectAt e) := by
  constructor
  · exact fun _ _ _ => requestRewrite_reads_iff
  · obtain ⟨startMs, endMs, rfl⟩ := runs_over_http hp
    rcases simulates_or_raises h with
      ⟨r, es', rfl, hread, htrace, hattempts⟩ | ⟨⟨e, rfl⟩, c, hc, hno⟩
    · have hreturns : Returns args (attemptsOf es') r :=
        returns_of_trace [] htrace carries_start fun _ hb => absurd hb List.not_mem_nil
      exact ⟨fun _ => hread, fun _ => ⟨r, rfl, hattempts ▸ hreturns⟩⟩
    · exact ⟨fun ⟨_, hr, _⟩ => (nomatch hr), fun hread => absurd hno (hread c hc)⟩

end Runs

/-! ## Runs of a segment -/

def adasRewriter : Text := text "http://analyzer/"

def adasSpokenCalls (a : Attempt Int) : PostCalls Int :=
  [⟨.synthesize a.text (text "ada") (text "en"), a.synthesis⟩, ⟨.score a.synthesis 1000, a.score⟩]

/-- The POST after an attempt, and its outcome. -/
def adasPost (a : Attempt Int) (o : HttpOutcome) : Sigma (PostCall.Answer (α := Int)) :=
  ⟨.post (text "http://analyzer/rewrite")
    ⟨a.text, 0, 1000, text "formal", text "en", a.score.toDiagnosis fun _ x => x⟩, o⟩

def adasPosting : Posting Int (Result Int) :=
  iterateFrom (overHttp adasArguments adasRewriter 0 1000) 70 2 1 (text "Hello") [] none

theorem adas_segment_is_read_over_http :
    synthesizeOverHttp adasArguments adasRewriter adasSegment = .ok adasPosting := by
  with_unfolding_all rfl

/-- `{"text": " Hi ", "changed": true}`. -/
def adasNewText : Json :=
  .object [(text "text", .str (text " Hi ")), (text "changed", .bool true)]

/-- The text of the response is spoken, and it passes. -/
theorem adas_new_text_is_spoken :
    Returns adasArguments [adasAttempt "Hello" 40, adasAttempt "Hi" 80]
      { candidateOf 2 (adasAttempt "Hi" 80) with
        rewriteHistory := [entryOf adasArguments 0 (adasAttempt "Hello" 40),
          entryOf adasArguments 1 (adasAttempt "Hi" 80)] } := by
  have hrun : Trace adasPosting.run
      (adasSpokenCalls (adasAttempt "Hello" 40) ++
        adasPost (adasAttempt "Hello" 40) (.response 200 (some adasNewText)) ::
        adasSpokenCalls (adasAttempt "Hi" 80)) (.ok _) :=
    .call (.call (.call (.call (.call (.done _)))))
  obtain ⟨r, hr, hreturns⟩ :=
    (rewrite_call_breaks_nothing_iff adas_segment_is_read_over_http hrun).2.mpr
      (by simp [adasSpokenCalls, adasPost, NoObjectAt, NoObject, adasNewText, isObject])
  cases hr
  exact hreturns

/-- A success with the body `null`: the segment fails, although there is an attempt. -/
theorem a_null_body_fails_the_segment :
    readOutcome (.response 200 (some .null)) = .error "AttributeError" ∧
      synthesizeOverHttp adasArguments adasRewriter adasSegment = .ok adasPosting ∧
      Trace adasPosting.run (adasSpokenCalls (adasAttempt "Hello" 40) ++
        [adasPost (adasAttempt "Hello" 40) (.response 200 (some .null))])
        (.error "AttributeError") :=
  ⟨rfl, adas_segment_is_read_over_http, .call (.call (.call (.done _)))⟩

end recast_rules.quality_loop
