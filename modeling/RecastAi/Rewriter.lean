-- The rewriter at the other end of the POST (`analyzer/rewriter.py` and the endpoint `/rewrite` of
-- the video analyzer), and the quality loop with the two services together. What the model writes
-- comes back as the next text or not at all, and the loop never fails on it.
import RecastAi.RewriteCall

open best_so_far call_programs py_text recast_rules.transcript recast_rules.tts
open recast_rules.py recast_rules.quality_loop

namespace recast_rules.rewriter

/-! ## The answer of the model -/

/-- What `json.loads` raises: a `JSONDecodeError`, or another exception, which nobody catches (a
text that is nested too deep, a number with too many digits). -/
inductive LoadsError where
  | decode
  | other (exception : String)

abbrev Loads := Text → Except LoadsError Json

/-- What `_JSON_RE` finds: from the first `{` to the last `}` after it. -/
def jsonBlock (raw : Text) : Option Text :=
  let block := (raw.dropWhile (· ≠ 0x7B)).rdropWhile (· ≠ 0x7D)
  if block = [] then none else some block

/-- `_coerce_json`. A text without JSON is `None`, which is the value of `null` too. -/
def coerceJson (loads : Loads) (raw : Text) : Except String Json :=
  match loads raw with
  | .ok payload => .ok payload
  | .error (.other e) => .error e
  | .error .decode =>
    match jsonBlock raw with
    | none => .ok .null
    | some block =>
      match loads block with
      | .ok payload => .ok payload
      | .error .decode => .ok .null
      | .error (.other e) => .error e

/-- `_parse_rewrite`, from the `text` of the response. -/
def parseRewrite (loads : Loads) (response : Option Text) : Except String Text := do
  let raw := response.getD []
  if raw = [] then return []
  else
    match ← coerceJson loads raw with
    | .object fields =>
      match fields.lookup (text "text") with
      | some (.str newText) => if strip newText = [] then return [] else return strip newText
      | _ => return []
    | _ => return []

/-- What comes of `generate_content` under `wait_for`. The prompt is built before the `try` and the
`text` is read after it, so what they raise is not caught. -/
inductive Generated where
  | raises (exception : String)
  | timedOut
  | failed
  | responded (response : Option Text)

/-- `GeminiSegmentRewriter.rewrite`. -/
def rewrite (loads : Loads) (originalText : Text) : Generated → Except String Text
  | .raises e => .error e
  | .timedOut => .ok originalText
  | .failed => .ok originalText
  | .responded response => do
    let newText ← parseRewrite loads response
    if newText = [] then return originalText else return newText

/-! ## The endpoint -/

/-- Whether there is UTF-8 for the text: no surrogate stands alone. -/
def encodable (t : Text) : Bool := t.all fun c => !(0xD800 ≤ c && c ≤ 0xDFFF)

variable {α : Type}

/-- The service: whether `_rewriter` is set, `json.loads`, and how a request that does not fit
`RewriteRequest` is described. -/
structure Server (α : Type) where
  ready : Bool
  loads : Loads
  invalid : RewritePayload α → Json

/-- The fields of `RewriteRequest`. -/
def validRequest (req : RewritePayload α) : Bool :=
  req.originalText ≠ [] && 0 ≤ req.sceneStartMs && 0 < req.sceneEndMs &&
    encodable req.originalText && encodable req.style && encodable req.language

def httpException (status : Nat) (detail : Json) : HttpOutcome :=
  .response status (some (.object [(text "detail", detail)]))

/-- `rewrite_segment`. An exception of the handler, or a text that cannot be sent, is a 500 whose
body is no JSON. -/
def rewriteSegment (server : Server α) (req : RewritePayload α) (g : Generated) : HttpOutcome :=
  if validRequest req then
    if server.ready then
      if req.sceneEndMs ≤ req.sceneStartMs then
        httpException 400 (.str (text "scene_end_ms must exceed scene_start_ms"))
      else
        match rewrite server.loads req.originalText g with
        | .error _ => .response 500 none
        | .ok newText =>
          if encodable newText then
            .response 200 (some (.object [(text "text", .str newText),
              (text "changed", .bool (decide (strip newText ≠ strip req.originalText)))]))
          else .response 500 none
    else httpException 503 (.str (text "rewriter not initialized"))
  else httpException 422 (server.invalid req)

/-! ## What is read of its answers -/

/-- The model wrote the text `t` for the request, and it is another one than before. -/
structure Wrote (server : Server α) (req : RewritePayload α) (g : Generated) (t : Text) : Prop where
  valid : validRequest req = true
  ready : server.ready = true
  scene : req.sceneStartMs < req.sceneEndMs
  parsed : ∃ response, g = .responded response ∧ parseRewrite server.loads response = .ok t
  spoken : t ≠ []
  changed : t ≠ strip req.originalText
  encoded : encodable t = true

/-- The model gives a text without blanks around it, or none. -/
theorem parseRewrite_trimmed {loads : Loads} {response : Option Text} {t : Text}
    (h : parseRewrite loads response = .ok t) : strip t = t := by
  unfold parseRewrite at h
  dsimp only at h
  split at h
  · cases h
    rfl
  · cases hcoerce : coerceJson loads (response.getD []) with
    | error e =>
      rw [hcoerce] at h
      cases h
    | ok payload =>
      rw [hcoerce] at h
      change (match payload with | .object fields => _ | _ => _) = Except.ok t at h
      split at h
      · split at h
        · split at h
          · cases h
            rfl
          · cases h
            exact strip_strip _
        · cases h
          rfl
      · cases h
        rfl

/-- What the rewriter gives: the text of the model, or the original. -/
theorem rewrite_cases {loads : Loads} {originalText t : Text} {g : Generated}
    (h : rewrite loads originalText g = .ok t) :
    (t = originalText ∧ ∀ response u, g = .responded response →
      parseRewrite loads response = .ok u → u = []) ∨
    ∃ response, g = .responded response ∧ parseRewrite loads response = .ok t ∧ t ≠ [] := by
  cases g with
  | raises e => cases h
  | timedOut =>
    cases h
    exact Or.inl ⟨rfl, fun _ _ hg => nomatch hg⟩
  | failed =>
    cases h
    exact Or.inl ⟨rfl, fun _ _ hg => nomatch hg⟩
  | responded response =>
    change (parseRewrite loads response >>= fun newText =>
      if newText = [] then pure originalText else pure newText) = Except.ok t at h
    cases hparse : parseRewrite loads response with
    | error e =>
      rw [hparse] at h
      cases h
    | ok newText =>
      rw [hparse] at h
      change (if newText = [] then Except.ok originalText else Except.ok newText) = Except.ok t at h
      split at h
      · rename_i hempty
        cases h
        refine Or.inl ⟨rfl, ?_⟩
        rintro response' u hg hu
        cases hg
        cases hparse.symm.trans hu
        exact hempty
      · rename_i hne
        cases h
        exact Or.inr ⟨response, rfl, hparse, hne⟩

theorem readOutcome_rewritten (newText : Text) (changed : Bool) :
    readOutcome (.response 200 (some (.object [(text "text", .str newText),
      (text "changed", .bool changed)]))) =
    .ok (if strip newText = [] then none else if changed then some (strip newText) else none) := by
  change (if strip newText = [] then Except.ok none else
    if changed then Except.ok (some (strip newText)) else Except.ok none) = _
  split
  · rfl
  · split <;> rfl

/-- The endpoint answers with a text, or with what the caller takes for none. -/
theorem rewriteSegment_cases (server : Server α) (req : RewritePayload α) (g : Generated) :
    (∃ newText, validRequest req = true ∧ server.ready = true ∧ req.sceneStartMs < req.sceneEndMs ∧
      rewrite server.loads req.originalText g = .ok newText ∧ encodable newText = true ∧
      readOutcome (rewriteSegment server req g) =
        .ok (if strip newText = [] then none
          else if strip newText ≠ strip req.originalText then some (strip newText) else none)) ∨
    readOutcome (rewriteSegment server req g) = .ok none := by
  unfold rewriteSegment
  split
  · rename_i hvalid
    split
    · rename_i hready
      split
      · exact Or.inr rfl
      · rename_i hscene
        split
        · exact Or.inr rfl
        · rename_i newText hnew
          split
          · rename_i hencoded
            refine Or.inl ⟨newText, hvalid, hready, not_le.mp hscene, hnew, hencoded, ?_⟩
            rw [readOutcome_rewritten]
            simp only [decide_eq_true_eq]
          · exact Or.inr rfl
    · exact Or.inr rfl
  · exact Or.inr rfl

/-- The endpoint answers what can be read. -/
theorem readOutcome_rewriteSegment (server : Server α) (req : RewritePayload α) (g : Generated) :
    ∃ rewritten, readOutcome (rewriteSegment server req g) = .ok rewritten := by
  rcases rewriteSegment_cases server req g with ⟨_, _, _, _, _, _, h⟩ | h
  · exact ⟨_, h⟩
  · exact ⟨_, h⟩

/-- The caller reads a text only where the model wrote it. -/
theorem wrote_of_read {server : Server α} {req : RewritePayload α} {g : Generated} {t : Text}
    (h : readOutcome (rewriteSegment server req g) = .ok (some t)) : Wrote server req g t := by
  rcases rewriteSegment_cases server req g with
    ⟨newText, hvalid, hready, hscene, hnew, hencoded, hread⟩ | hread
  · have htext := Except.ok.inj (hread.symm.trans h)
    split at htext
    · cases htext
    · rename_i hne
      split at htext
      · rename_i hchanged
        obtain rfl := Option.some.inj htext
        rcases rewrite_cases hnew with ⟨rfl, -⟩ | ⟨response, rfl, hparsed, -⟩
        · exact absurd rfl hchanged
        · rw [parseRewrite_trimmed hparsed] at hne hchanged ⊢
          exact ⟨hvalid, hready, hscene, ⟨response, rfl, hparsed⟩, hne, hchanged, hencoded⟩
      · cases htext
  · cases hread.symm.trans h

/-- What the model wrote reaches the caller. -/
theorem read_of_wrote {server : Server α} {req : RewritePayload α} {g : Generated} {t : Text}
    (h : Wrote server req g t) : readOutcome (rewriteSegment server req g) = .ok (some t) := by
  obtain ⟨response, rfl, hparsed⟩ := h.parsed
  have hnew : rewrite server.loads req.originalText (.responded response) = .ok t := by
    change (parseRewrite server.loads response >>= fun newText =>
      if newText = [] then pure req.originalText else pure newText) = Except.ok t
    rw [hparsed]
    exact if_neg h.spoken
  unfold rewriteSegment
  rw [if_pos h.valid, if_pos h.ready, if_neg (not_le.mpr h.scene), hnew]
  dsimp only
  rw [if_pos h.encoded, readOutcome_rewritten, parseRewrite_trimmed hparsed, if_neg h.spoken,
    if_pos (decide_eq_true h.changed)]

/-! ## The loop over the two services -/

/-- The POST got no response, or the endpoint answered it. -/
def Answered (server : Server α) : Sigma (PostCall.Answer (α := α)) → Prop
  | ⟨.post _ payload, o⟩ => o = .httpError ∨ ∃ g, o = rewriteSegment server payload g
  | _ => True

/-- The POST came back with no new text: there was no response, or the model wrote none. -/
def Silent (server : Server α) (payload : RewritePayload α) (o : HttpOutcome) : Prop :=
  o = .httpError ∨ ∃ g, o = rewriteSegment server payload g ∧ ∀ t, ¬ Wrote server payload g t

theorem not_noObject {server : Server α} {e : Sigma (PostCall.Answer (α := α))}
    (h : Answered server e) : ¬ NoObjectAt e := by
  intro hno
  obtain ⟨c, o⟩ := e
  cases c with
  | synthesize _ _ _ => exact hno
  | score _ _ => exact hno
  | post endpoint payload =>
    obtain rfl | ⟨g, rfl⟩ := h
    · exact hno
    · obtain ⟨rewritten, hread⟩ := readOutcome_rewriteSegment server payload g
      cases hread.symm.trans (readOutcome_no_object hno)

/-- What the loop goes on with after the call. -/
theorem trace_answered {β : Type} {server : Server α} {url : Text} {payload : RewritePayload α}
    {f : Option Text → Posting α β} {es : PostCalls α} {x : Except String β}
    (h : Trace (quality_loop.requestRewrite url payload >>= f).run es x)
    (hes : ∀ e ∈ es, Answered server e) :
    (url = [] ∧ Trace (f none).run es x) ∨
    ∃ o es', es = ⟨.post (endpointOf url) payload, o⟩ :: es' ∧
      ((Silent server payload o ∧ Trace (f none).run es' x) ∨
        ∃ g t, Wrote server payload g t ∧ Trace (f (some t)).run es' x) := by
  unfold quality_loop.requestRewrite at h
  split at h
  · rename_i hurl
    exact Or.inl ⟨hurl, h⟩
  · cases h with
    | @call _ _ o es _ h =>
      refine Or.inr ⟨o, es, rfl, ?_⟩
      change Trace (ExceptT.bindCont f (readOutcome o)) _ _ at h
      obtain rfl | ⟨g, rfl⟩ := hes _ List.mem_cons_self
      · exact Or.inl ⟨Or.inl rfl, h⟩
      · obtain ⟨rewritten, hread⟩ := readOutcome_rewriteSegment server payload g
        rw [hread] at h
        cases rewritten with
        | none =>
          refine Or.inl ⟨Or.inr ⟨g, rfl, fun t ht => ?_⟩, h⟩
          cases hread.symm.trans (read_of_wrote ht)
        | some t => exact Or.inr ⟨g, t, wrote_of_read hread, h⟩

/-- What is sent after the attempt `a`. -/
def payloadOf (args : Arguments α) (startMs endMs : Int) (a : Attempt α) : RewritePayload α :=
  ⟨a.text, startMs, endMs, args.style, args.language, a.score.toDiagnosis args.round⟩

section Runs

variable [LinearOrder α] {args : Arguments α} {url : Text} {server : Server α} {startMs endMs : Int}

/-- After the attempt `a`, which did not pass, `b` speaks what the model wrote. -/
def Rewritten (args : Arguments α) (server : Server α) (startMs endMs : Int) (a b : Attempt α) :
    Prop :=
  a.combined < args.passThreshold ∧ ∃ g, Wrote server (payloadOf args startMs endMs a) g b.text

/-- Why there is no attempt after the last one, `a`: it passes, it is the last one that there may
be, nobody rewrites, or there is no new text. -/
def Ended (args : Arguments α) (url : Text) (server : Server α) (startMs endMs : Int) (left : Nat)
    (es : PostCalls α) (a : Attempt α) : Prop :=
  args.passThreshold ≤ a.combined ∨ (spokenAttempts es).length = left + 1 ∨ url = [] ∨
    ∃ o, ⟨.post (endpointOf url) (payloadOf args startMs endMs a), o⟩ ∈ es ∧
      Silent server (payloadOf args startMs endMs a) o

/-- The attempts of a loop from the text `spoken` on. -/
structure Spoken (args : Arguments α) (url : Text) (server : Server α) (startMs endMs : Int)
    (left : Nat) (spoken : Text) (es : PostCalls α) : Prop where
  first : ∃ a as, spokenAttempts es = a :: as ∧ a.text = spoken
  chain : (spokenAttempts es).IsChain (Rewritten args server startMs endMs)
  most : (spokenAttempts es).length ≤ left + 1
  ended : ∀ a ∈ (spokenAttempts es).getLast?, Ended args url server startMs endMs left es a

/-- One attempt, and the calls after it. -/
theorem spoken_once {left : Nat} {a : Attempt α} {es : PostCalls α}
    (hes : spokenAttempts es = [a]) (h : Ended args url server startMs endMs left es a) :
    Spoken args url server startMs endMs left a.text es where
  first := ⟨a, [], hes, rfl⟩
  chain := by
    rw [hes]
    exact .singleton a
  most := by
    rw [hes]
    exact Nat.succ_le_succ (Nat.zero_le left)
  ended := by
    intro b hb
    rw [hes] at hb
    obtain rfl : a = b := by simpa using hb
    exact h

/-- One attempt more before the others. -/
theorem spoken_again {left : Nat} {a : Attempt α} {es es' : PostCalls α} {t : Text} {g : Generated}
    (h : Spoken args url server startMs endMs left t es)
    (hes : spokenAttempts es' = a :: spokenAttempts es) (hsub : es ⊆ es')
    (hlow : a.combined < args.passThreshold)
    (hwrote : Wrote server (payloadOf args startMs endMs a) g t) :
    Spoken args url server startMs endMs (left + 1) a.text es' := by
  obtain ⟨b, bs, hb, rfl⟩ := h.first
  refine ⟨⟨a, _, hes, rfl⟩, ?_, ?_, ?_⟩
  · rw [hes, hb]
    exact .cons_cons ⟨hlow, g, hwrote⟩ (hb ▸ h.chain)
  · rw [hes]
    exact Nat.succ_le_succ h.most
  · intro c hc
    rw [hes, hb, List.getLast?_cons_cons, ← hb] at hc
    rcases h.ended c hc with hpass | hfull | hurl | ⟨o, ho, hsilent⟩
    · exact Or.inl hpass
    · exact Or.inr (Or.inl (by rw [hes, List.length_cons, hfull]))
    · exact Or.inr (Or.inr (Or.inl hurl))
    · exact Or.inr (Or.inr (Or.inr ⟨o, hsub ho, hsilent⟩))

/-- The law of the loop from any round on. -/
theorem spoken_of_trace {left attempt : Nat} {spoken : Text} {history : List (HistoryEntry α)}
    {best : Option (Result α)} {es : PostCalls α} {x : Except String (Result α)}
    (h : Trace (iterateFrom (overHttp args url startMs endMs) args.passThreshold left attempt spoken
      history best).run es x) (hes : ∀ e ∈ es, Answered server e) (htrim : strip spoken = spoken) :
    Spoken args url server startMs endMs left spoken es := by
  induction left generalizing attempt spoken history best es with
  | zero =>
    cases h with
    | @call _ _ synth _ _ h =>
      cases h with
      | @call _ _ score _ _ h =>
        cases h
        exact spoken_once (a := ⟨spoken, synth, score⟩) rfl (Or.inr (Or.inl rfl))
  | succ left ih =>
    cases h with
    | @call _ _ synth _ _ h =>
      cases h with
      | @call _ _ score es _ h =>
        have hrest : ∀ e ∈ es, Answered server e := fun e he =>
          hes e (List.mem_cons_of_mem _ (List.mem_cons_of_mem _ he))
        change Trace (if args.passThreshold ≤ score.combined then _ else _) _ _ at h
        split at h
        · rename_i hpass
          cases h
          exact spoken_once (a := ⟨spoken, synth, score⟩) rfl (Or.inl hpass)
        · rename_i hlow
          rcases trace_answered h hrest with ⟨hurl, h⟩ | ⟨o, es', rfl, ⟨hsilent, h⟩ | ⟨g, t, hwrote, h⟩⟩
          · cases h
            exact spoken_once (a := ⟨spoken, synth, score⟩) rfl (Or.inr (Or.inr (Or.inl hurl)))
          · cases h
            refine spoken_once (a := ⟨spoken, synth, score⟩) rfl
              (Or.inr (Or.inr (Or.inr ⟨o, ?_, hsilent⟩)))
            exact List.mem_cons_of_mem _ (List.mem_cons_of_mem _ List.mem_cons_self)
          · -- the text is new, so the loop goes on with it
            have hne : t ≠ spoken := fun heq => hwrote.changed (heq.trans htrim.symm)
            change Trace (if t = spoken then _ else _) _ _ at h
            rw [if_neg hne] at h
            obtain ⟨response, -, hparsed⟩ := hwrote.parsed
            have hlater := ih h (fun e he => hrest e (List.mem_cons_of_mem _ he))
              (parseRewrite_trimmed hparsed)
            refine spoken_again (a := ⟨spoken, synth, score⟩) hlater rfl ?_ (not_le.mp hlow) hwrote
            exact fun e he =>
              List.mem_cons_of_mem _ (List.mem_cons_of_mem _ (List.mem_cons_of_mem _ he))

/-- A text that the service gives can be sent to it. -/
theorem encodable_of_chain {a : Attempt α} {as : List (Attempt α)}
    (h : (a :: as).IsChain (Rewritten args server startMs endMs)) (ha : encodable a.text = true) :
    ∀ b ∈ a :: as, encodable b.text = true := by
  induction as generalizing a with
  | nil =>
    intro b hb
    rwa [List.mem_singleton.mp hb]
  | cons c as ih =>
    obtain ⟨⟨_, g, hwrote⟩, hchain⟩ := List.isChain_cons_cons.mp h
    intro b hb
    rcases List.mem_cons.mp hb with rfl | hb
    · exact ha
    · exact ih hchain hwrote.encoded b hb

/-- Whatever the model answers, and whichever POST fails, the loop over the two services raises
nothing and returns its best attempt. Each attempt after the first speaks what the model wrote for
the one before, and the loop ends early only with an attempt that passes or with no new text. -/
theorem the_rewriter_fails_no_segment {segment : SegmentDict} {p : Posting α (Result α)}
    {es : PostCalls α} {x : Except String (Result α)}
    (hstart : segmentStart segment = .ok startMs) (hend : segmentEnd segment = .ok endMs)
    (hencodable : encodable (segmentText args.repr segment) = true)
    (hp : synthesizeOverHttp args url segment = .ok p) (h : Trace p.run es x)
    (hes : ∀ e ∈ es, Answered server e) :
    ∃ r, x = .ok r ∧ Returns args (spokenAttempts es) r ∧
      Spoken args url server startMs endMs (attempts args - 1) (segmentText args.repr segment) es ∧
      ∀ a ∈ spokenAttempts es, encodable a.text = true := by
  have hrun : p = iterateFrom (overHttp args url startMs endMs) args.passThreshold
      (attempts args - 1) 1 (segmentText args.repr segment) [] none := by
    unfold synthesizeOverHttp at hp
    rw [hstart, hend] at hp
    exact (Except.ok.inj hp).symm
  subst hrun
  have hspoken := spoken_of_trace h hes (strip_strip _)
  have hencoded : ∀ a ∈ spokenAttempts es, encodable a.text = true := by
    obtain ⟨a, as, has, ha⟩ := hspoken.first
    have hchain := hspoken.chain
    rw [has] at hchain ⊢
    exact encodable_of_chain hchain (ha ▸ hencodable)
  rcases simulates_or_raises h with
    ⟨r, es', rfl, -, htrace, hattempts⟩ | ⟨-, e, he, hno⟩
  · have hreturns : Returns args (attemptsOf es') r :=
      returns_of_trace [] htrace carries_start fun _ hb => absurd hb List.not_mem_nil
    exact ⟨r, rfl, hattempts ▸ hreturns, hspoken, hencoded⟩
  · exact absurd hno (not_noObject (hes e he))

end Runs

/-! ## A run of the two services -/

/-- An object with words around it. -/
def adasAnswered : Text := text "Here: \x7b\x7d."

def adasServer : Server Int where
  ready := true
  loads := fun t =>
    if t = text "\x7b\x7d" then .ok (.object [(text "text", .str (text " Hi "))]) else .error .decode
  invalid := fun _ => .array []

def adasAnswer : HttpOutcome :=
  rewriteSegment adasServer (payloadOf adasArguments 0 1000 (adasAttempt "Hello" 40))
    (.responded (some adasAnswered))

/-- The object is found, its text is spoken, and it passes. -/
theorem adas_found_text_is_spoken :
    ∃ r, Returns adasArguments [adasAttempt "Hello" 40, adasAttempt "Hi" 80] r ∧
      r.finalText = text "Hi" := by
  have hrun : Trace adasPosting.run
      (adasSpokenCalls (adasAttempt "Hello" 40) ++
        adasPost (adasAttempt "Hello" 40) adasAnswer ::
        adasSpokenCalls (adasAttempt "Hi" 80)) (.ok _) :=
    .call (.call (.call (.call (.call (.done _)))))
  have hanswered : ∀ e ∈ adasSpokenCalls (adasAttempt "Hello" 40) ++
      adasPost (adasAttempt "Hello" 40) adasAnswer :: adasSpokenCalls (adasAttempt "Hi" 80),
      Answered adasServer e := by
    simp only [adasSpokenCalls, adasPost, List.cons_append, List.nil_append, List.forall_mem_cons,
      Answered, true_and]
    exact ⟨Or.inr ⟨_, rfl⟩, by simp⟩
  obtain ⟨r, hr, hreturns, -⟩ :=
    the_rewriter_fails_no_segment rfl rfl rfl adas_segment_is_read_over_http hrun hanswered
  cases hr
  exact ⟨_, hreturns, rfl⟩

end recast_rules.rewriter
