-- The law of edits that are synthesized while others are made: texts and audio agree when nothing
-- is left to do, where no edit is committed while its job is in other hands.
import RecastAi.ConsumerDuties
import RecastAi.EditCustody
import RecastAi.Redelivery
import RecastAi.SynthesisCustody

open call_programs py_text recast_rules.transcript recast_rules.models recast_rules.pipeline
open recast_rules.py recast_rules.transcript_edits
open recast_rules.deliveries (History Snap taken jobOf)

namespace recast_rules.spoken_texts

/-! ## The threads -/

inductive Party where
  | edit (r : gateway.Request)
  | synthesis (cfg : tts.Settings) (rounds : Nat)

def Party.program (i : Nat) : Party → Service Unit
  | .edit r => gateway.updateTranscript r >>= fun _ => .done ()
  | .synthesis cfg rounds => tts.consume cfg (.worker i) rounds

abbrev Editors := Config Call Answer System Unit

/-- Requests and workers, each worker with a connection of its own. -/
def start (s : System) (parties : List Party) : Editors :=
  ⟨⟨s, []⟩, parties.zipIdx.map fun x => x.1.program x.2⟩

/-- What the services leave behind when nobody is at work: a message in the queue tells the rows of
its job as they are, and a job without one is spoken. -/
structure Settled (s : System) : Prop where
  proper : ∀ row ∈ s.db.segments, Proper row
  distinct : Distinct s.db.segments
  carried : ∀ tag body, Unsettled s tag body → ∃ id, Carries s.db id body
  sole : ∀ tag tag' body body' id, Unsettled s tag body → Unsettled s tag' body' →
    jobOf tts.transcriptQueue body = some id → jobOf tts.transcriptQueue body' = some id → tag = tag'
  past : ∀ tag ∈ s.settled, tag < s.accepted.length
  spoken : ∀ row ∈ s.db.segments, ¬ InFlight s row.jobID → Spoken s row
  idle : ∀ conn, s.sessions conn = .idle

/-- The queue is drained. -/
def Drained (s : System) : Prop := ∀ tag body, ¬ Unsettled s tag body

/-- No request is in progress: each is answered or has not begun. -/
def Unhurried (parties : List Party) (cfg : Editors) : Prop :=
  ∀ i r, parties[i]? = some (.edit r) → cfg.threads[i]? = some (.done ()) ∨ cfg.shot.own i = []

/-! ## The start -/

theorem not_held_start (s : System) (i tag : Nat) : ¬ (hands ⟨s, []⟩).held i tag := by
  rintro ⟨e, he, -⟩
  exact absurd he List.not_mem_nil

theorem not_editing_nil (id : String) : ¬ Editing [] id := by
  rintro ⟨⟨e, he, -⟩, -, -⟩
  exact absurd he List.not_mem_nil

theorem start_sound {s : System} (h : Settled s) : custody.sound ⟨s, []⟩ := by
  have hheld := not_held_start s
  have hediting : ∀ i id, ¬ (hands ⟨s, []⟩).editing i id := fun _ id => not_editing_nil id
  have hbegun : ∀ i conn, ¬ Begun ((⟨s, []⟩ : Snap).own i) conn := fun _ _ ⟨_, hmem⟩ =>
    absurd hmem List.not_mem_nil
  refine ⟨⟨h.proper, h.distinct, fun tag body hbody _ => h.carried tag body hbody, h.sole, ?_, ?_, ?_, ?_,
    h.past, ?_⟩, ?_, ?_, fun n _ => h.idle (.tx n)⟩
  · exact fun i id hedit => absurd hedit (hediting i id)
  · exact fun i _ id hedit => absurd hedit (hediting i id)
  · exact fun i _ tag hhold => absurd hhold (hheld i tag)
  · exact fun i tag hhold => absurd hhold (hheld i tag)
  · exact fun row hrow hfree => h.spoken row hrow hfree.1
  · exact fun i _ conn hbegin => absurd hbegin (hbegun i conn)
  · exact fun i conn hbegin => absurd hbegin (hbegun i conn)

theorem start_thread {s : System} {parties : List Party} {i : Nat} {p : Service Unit}
    (h : (start s parties).threads[i]? = some p) :
    ∃ party, parties[i]? = some party ∧ p = party.program i := by
  simp only [start, List.getElem?_map, List.getElem?_zipIdx, Option.map_map] at h
  obtain ⟨party, hparty, rfl⟩ := Option.map_eq_some_iff.mp h
  refine ⟨party, hparty, ?_⟩
  simp only [Function.comp_apply, Nat.zero_add]

theorem start_safe {s : System} (h : Settled s) (parties : List Party) :
    AllSafe services OneByOne (custody.pact services) (fun i _ s => custody.sound s ∧ Unoccupied i s)
      (start s parties) := by
  intro i p hp
  obtain ⟨party, -, rfl⟩ := start_thread hp
  have hsound := start_sound h
  cases party with
  | edit r =>
    apply safe_bind
    refine safe_mono (edit_safe r hsound rfl) fun _ s hs s' hr => ?_
    exact Custody.stable_rely (stable_own (fun h => ∀ id, ¬ Editing h id) i) hr hs
  | synthesis cfg rounds =>
    have hresting : Resting i ⟨s, []⟩ := ⟨h.idle (.worker i), fun _ _ => List.not_mem_nil⟩
    refine safe_mono (consume_safe cfg rounds ⟨hsound, hresting⟩) fun _ s hs => ?_
    exact ⟨hs.1, fun _ => uncommitted_not_editing hs.2.uncommitted⟩

/-- A worker edits nothing. -/
theorem worker_not_editing {s : System} {parties : List Party} {i : Nat}
    (hworker : ∀ r, parties[i]? ≠ some (.edit r)) (picks : List (Nat × Outcome)) (id : String) :
    ¬ Editing ((schedule services picks (start s parties)).shot.own i) id := by
  have hlog : ∀ e ∈ (schedule services picks (start s parties)).shot.log,
      e.thread = i → deliveries.OwnConn (.worker i) e.call := by
    refine log_only (P := fun j c => j = i → deliveries.OwnConn (.worker i) c) (fun j p hp => ?_)
      (fun e he => absurd he List.not_mem_nil) picks
    by_cases hj : j = i
    · subst hj
      obtain ⟨party, hparty, rfl⟩ := start_thread hp
      cases party with
      | edit r => exact absurd hparty (hworker r)
      | synthesis cfg rounds =>
        have hdutiful := deliveries.consumer_dutiful (.synthesis cfg) (.worker j) rounds
        exact only_of_follows (hdutiful j [] rfl) fun _ _ hd _ => hd.own
    · exact only_mono (only_any p) (fun _ _ h => absurd h hj) fun _ _ => trivial
  rintro ⟨-, ⟨k, n, hcommit⟩, -⟩
  obtain ⟨hmem, hthread⟩ := mem_own.mp hcommit
  cases hlog _ hmem hthread

/-! ## The law -/

/-- When nothing is left to do, texts and audio agree, and no text is lost on the way. -/
structure InStep (parties : List Party) (picks : List (Nat × Outcome)) (cfg : Editors) : Prop where
  spoken : Drained (schedule services picks cfg).shot.state →
    Unhurried parties (schedule services picks cfg) →
    ∀ row ∈ (schedule services picks cfg).shot.state.db.segments,
      Spoken (schedule services picks cfg).shot.state row
  lawful : Allowed services (fun s i c o => Lawful i s (s.after services i c o)) picks cfg

/-- A step of a run in which nothing fails, nothing is rewritten and nothing is delivered twice, and
whose one commit of an edit comes before all messages. -/
def calm (st : Step Call Answer System Outcome) : Bool :=
  !st.outcome.fails && st.outcome.rewritten.isNone &&
    (match taken st.call (services.answer st.outcome st.shot.state st.call).1 with
      | none => true
      | some (tag, _) => tag ∉ st.shot.state.settled &&
          st.shot.log.all fun e => (taken e.call e.answer).map Prod.fst ≠ some tag) &&
    match st.call with
    | .commit (.tx n) => st.shot.state.accepted.isEmpty &&
        (st.shot.log.all fun e => match e.call with
          | .commit _ => false
          | _ => true) &&
        (st.shot.state.sessions (.tx n)).pending.all fun x => match x.2 with
          | .setText _ _ newText => strip (text newText) = text newText
          | _ => true
    | _ => true

theorem calm_one_by_one {st : Step Call Answer System Outcome} (h : calm st = true) :
    OneByOne st.shot st.thread st.call st.outcome := by
  unfold calm at h
  simp only [Bool.and_eq_true, Bool.not_eq_true', Option.isNone_iff_eq_none] at h
  obtain ⟨⟨⟨hfails, hrewritten⟩, htaken⟩, hcommit⟩ := h
  refine ⟨⟨fun _ => hfails, fun _ _ hfailed => ?_, fun tag msg ht => ?_, fun t ht => ?_⟩, ?_⟩
  · rw [hfails] at hfailed
    cases hfailed
  · rw [ht] at htaken
    simp only [Bool.and_eq_true, decide_eq_true_eq, List.all_eq_true] at htaken
    refine ⟨htaken.1, fun i hheld => ?_⟩
    obtain ⟨e, he, msg', hmsg'⟩ := hheld
    have hother := htaken.2 e (mem_own.mp he).1
    rw [hmsg'] at hother
    exact hother rfl
  · rw [hrewritten] at ht
    cases ht
  · intro n hc x hx segmentID jobID newText hst
    rw [hc] at hcommit
    simp only [Bool.and_eq_true, List.all_eq_true, List.isEmpty_iff] at hcommit
    obtain ⟨⟨hempty, hlog⟩, hpending⟩ := hcommit
    refine ⟨?_, fun id _ => ⟨?_, fun i hediting => ?_⟩⟩
    · have htrim := hpending x hx
      rw [hst] at htrim
      exact of_decide_eq_true htrim
    · rintro ⟨tag, body, hbody, -⟩
      have hget := hbody.1
      rw [hempty] at hget
      cases hget
    · obtain ⟨k, m, hmem⟩ := hediting.committed
      have hnone := hlog _ (mem_own.mp hmem).1
      cases hnone

/-- Her job before any message. -/
def unspoken : System := { audio_hop.waiting with accepted := [] }

theorem unspoken_settled : Settled unspoken where
  proper row hrow := by
    obtain rfl := List.mem_singleton.mp hrow
    exact ⟨by decide, Or.inl rfl, by decide⟩
  distinct := List.pairwise_singleton _ _
  carried tag body hbody := by
    cases hbody.1
  sole tag _ body _ _ hbody := by
    cases hbody.1
  past := nofun
  spoken row hrow _ hpath := by
    obtain rfl := List.mem_singleton.mp hrow
    exact absurd rfl hpath
  idle _ := rfl

def oneEdit : List Party :=
  [.edit edited_segments.firstEdit, .synthesis audio_hop.settings 1]

/-- The edit, and the synthesis after it. -/
def editThenSpeech : List (Nat × Outcome) := 
  List.replicate 7 (deliveries.pick 0) ++ List.replicate 14 (deliveries.pick 1)

def spokenEdit : Editors := schedule services editThenSpeech (start unspoken oneEdit)

def isDone : Option (Service Unit) → Bool
  | some (.done ()) => true
  | _ => false

/-- What is to see of the run: nothing fails in it, the request is answered, the message is settled,
and the only row has the new text and audio. -/
theorem spoken_edit_ends : (steps services editThenSpeech (start unspoken oneEdit)).all calm = true ∧
    isDone spokenEdit.threads[0]? = true ∧ spokenEdit.shot.state.settled = [0] ∧
    spokenEdit.shot.state.accepted.map Envelope.queue = [tts.transcriptQueue, tts.audioQueue] ∧
    spokenEdit.shot.state.db.segments.map (fun row => (row.text.val, row.audioPath == "")) =
      [(text "hi", false)] := by
  decide +kernel

end recast_rules.spoken_texts
