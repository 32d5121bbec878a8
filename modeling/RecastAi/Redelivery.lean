-- The broker delivers a message again. No consumer looks whether it has seen
-- the job and the attempt of a message before, so the effect of two deliveries is
-- the one of one only where the first has come to nothing.
import RecastAi.AudioHop
import RecastAi.ConsumerDuties
import RecastAi.StageOrder

open call_programs py_text recast_rules.transcript recast_rules.models recast_rules.pipeline
open recast_rules.py

namespace recast_rules.deliveries

variable {s : Snap} {i j : Nat} {c : Call} {o : Outcome}

/-! ## What is published for a pair -/

/-- The pair of the message that the thread has, where the step publishes and the broker accepts. -/
def sentFor (st : Step Call Answer System Outcome) : Option Pair :=
  match st.call with
  | .publish _ (some _) =>
    if landed st.outcome then (position (st.shot.own st.thread)).message.map pairOf else none
  | _ => none

/-- Once for each message that a run publishes. -/
def sent {α : Type} (picks : List (Nat × Outcome)) (cfg : Config Call Answer System α) : List Pair :=
  (steps services picks cfg).filterMap sentFor

theorem sent_cons {α : Type} (pick : Nat × Outcome) (picks : List (Nat × Outcome))
    (cfg : Config Call Answer System α) :
    sent (pick :: picks) cfg =
      ((stepOf cfg pick).bind sentFor).toList ++ sent picks (advance services cfg pick) := by
  have hsplit : sent (pick :: picks) cfg =
      (stepOf cfg pick).toList.filterMap sentFor ++ sent picks (advance services cfg pick) :=
    List.filterMap_append
  rw [hsplit]
  cases stepOf cfg pick with
  | none => rfl
  | some st =>
    rw [Option.toList_some, List.filterMap_cons, Option.bind_some]
    cases sentFor st <;> rfl

/-- The pairs with a message are kept apart from each other and from those that consumers are at. -/
structure Ledger (s : Snap) (old : List Pair) : Prop where
  recorded : ∀ pair ∈ old, Published s pair
  unsent : ∀ i queue msg, At s i queue msg → pairOf msg ∉ old
  apart : ∀ i j queue queue' msg msg', At s i queue msg → At s j queue' msg' →
    pairOf msg = pairOf msg' → i = j

theorem sentFor_cases (hd : Duty (.worker i) (s.own i) c) :
    sentFor ⟨s, i, c, o⟩ = none ∨ ∃ queue body queue' msg, c = .publish queue (some body) ∧
      landed o = true ∧ At s i queue' msg ∧ sentFor ⟨s, i, c, o⟩ = some (pairOf msg) := by
  unfold sentFor
  dsimp only
  split
  · rename_i queue body
    split
    · rename_i hlanded
      obtain ⟨queue', msg, reached, hpos, -⟩ := hd.publish queue (some body) rfl
      refine Or.inr ⟨queue, body, queue', msg, rfl, hlanded, ⟨reached, hpos⟩, ?_⟩
      rw [hpos]
      rfl
    · exact Or.inl rfl
  · exact Or.inl rfl

/-- A message that a consumer gets is one for which nothing was published and at whose pair no
other consumer is. -/
theorem delivered_unspent (hunspent : Unspent s i c o) {tag : Nat} {msg : Json}
    (ht : taken c (services.answer o s.state c).1 = some (tag, msg)) :
    ¬ Published s (pairOf msg) ∧
      ∀ j queue msg', j ≠ i → At s j queue msg' → pairOf msg' ≠ pairOf msg := by
  refine ⟨?_, ?_⟩
  · intro hpub
    exact (hunspent tag msg ht (seen_of_published hpub)).1 hpub
  · intro j queue msg' hj hat heq
    exact (hunspent tag msg ht (heq ▸ seen_of_at hat)).2 j queue msg' hj hat heq

theorem ledger_step {old : List Pair} (h : Ledger s old) (hd : Duty (.worker i) (s.own i) c)
    (hunspent : Unspent s i c o) :
    Ledger (s.after services i c o) ((sentFor ⟨s, i, c, o⟩).toList ++ old) ∧
      ∀ pair ∈ sentFor ⟨s, i, c, o⟩, pair ∉ old := by
  have hapart : ∀ j k queue queue' msg msg', At (s.after services i c o) j queue msg →
      At (s.after services i c o) k queue' msg' → pairOf msg = pairOf msg' → j = k := by
    intro j k queue queue' msg msg' hat hat' heq
    rcases at_after hat with ⟨hb, -⟩ | ⟨rfl, -, tag, ht⟩
    · rcases at_after hat' with ⟨hb', -⟩ | ⟨rfl, -, tag, ht⟩
      · exact h.apart j k queue queue' msg msg' hb hb' heq
      · by_contra hne
        exact (delivered_unspent hunspent ht).2 j queue msg hne hb heq
    · rcases at_after hat' with ⟨hb', -⟩ | ⟨rfl, -⟩
      · by_contra hne
        exact (delivered_unspent hunspent ht).2 k queue' msg' (Ne.symm hne) hb' heq.symm
      · rfl
  have hunsent : ∀ j queue msg, At (s.after services i c o) j queue msg → pairOf msg ∉ old := by
    intro j queue msg hat
    rcases at_after hat with ⟨hb, -⟩ | ⟨rfl, -, tag, ht⟩
    · exact h.unsent j queue msg hb
    · exact fun hold => (delivered_unspent hunspent ht).1 (h.recorded _ hold)
  have hrecorded : ∀ pair ∈ old, Published (s.after services i c o) pair :=
    fun pair hold => published_after (h.recorded pair hold) i c o
  rcases sentFor_cases (o := o) hd with hnone | ⟨queue, body, queue', msg, rfl, hlanded, hat, hsome⟩
  · rw [hnone]
    exact ⟨⟨hrecorded, hunsent, hapart⟩, nofun⟩
  · rw [hsome]
    have hnow : Published (s.after services i (.publish queue (some body)) o) (pairOf msg) := by
      obtain ⟨reached, hpos⟩ := hat
      refine published_now o (congrArg Position.message hpos) ?_
      change _ ∈ (answerCall o s.state (.publish queue (some body))).2.accepted
      unfold answerCall
      simp [hlanded]
    refine ⟨⟨?_, ?_, hapart⟩, ?_⟩
    · intro pair hpair
      rcases List.mem_cons.mp hpair with rfl | hold
      · exact hnow
      · exact hrecorded pair hold
    · intro j queue₁ msg₁ hat₁ hmem
      rcases List.mem_cons.mp hmem with heq | hold
      · rcases at_after hat₁ with ⟨hb, hpublish⟩ | ⟨-, hc, -⟩
        · exact hpublish (h.apart j i _ _ _ _ hb hat heq) _ _ rfl
        · cases hc
      · exact hunsent j queue₁ msg₁ hat₁ hold
    · intro pair hpair
      cases hpair
      exact h.unsent i queue' msg hat

/-! ## The run -/

abbrev Duties (i : Nat) : History → Call → Prop := Duty (.worker i)

/-- For each pair one message is published, and none where one was before. -/
theorem ledger_run {cfg : Config Call Answer System Unit} {R : Nat → Unit → History → Prop}
    {picks : List (Nat × Outcome)} {old : List Pair} (hfollow : AllFollow Duties R cfg)
    (h : Ledger cfg.shot old) (hunspent : Allowed services Unspent picks cfg) :
    (sent picks cfg).Nodup ∧ ∀ pair ∈ sent picks cfg, pair ∉ old := by
  induction picks generalizing cfg old with
  | nil => exact ⟨List.nodup_nil, nofun⟩
  | cons pick picks ih =>
    rw [sent_cons]
    rcases stepOf_cases services cfg pick with ⟨hnone, hsame⟩ | ⟨c, k, hth, hsome, hshot⟩
    · have hrest := hunspent.2
      rw [hsame] at hrest
      rw [hnone, hsame]
      exact ih hfollow h hrest
    · have hm : Unspent cfg.shot pick.1 c pick.2 := by
        simpa only [StepMeets, hth] using hunspent.1
      obtain ⟨hledger, hnew⟩ := ledger_step h (hfollow _ _ hth).1 hm
      rw [← hshot] at hledger
      obtain ⟨hnodup, hfresh⟩ := ih (allFollow_advance hfollow pick) hledger hunspent.2
      rw [hsome, Option.bind_some]
      cases hs : sentFor ⟨cfg.shot, pick.1, c, pick.2⟩ with
      | none =>
        rw [hs] at hfresh
        exact ⟨hnodup, hfresh⟩
      | some pair =>
        rw [hs] at hfresh hnew
        refine ⟨List.nodup_cons.mpr ⟨fun hmem => hfresh pair hmem List.mem_cons_self, hnodup⟩, ?_⟩
        intro pair' hpair'
        rcases List.mem_cons.mp hpair' with rfl | hmem
        · exact hnew _ rfl
        · exact fun hold => hfresh pair' hmem (List.mem_cons_of_mem _ hold)

/-- Where the invariant holds, no job moves back. -/
theorem forward_run {cfg : Config Call Answer System Unit} {R : Nat → Unit → History → Prop}
    {picks : List (Nat × Outcome)} (hfollow : AllFollow Duties R cfg) (h : Orderly cfg.shot)
    (hallowed : Allowed services (fun s i c o => Unspent s i c o ∧ InTime s i c o) picks cfg) :
    Allowed services Forward picks cfg :=
  (allFollow_schedule (I := Orderly) (fun _ _ _ _ hm hd h => orderly_step h hd hm.1 hm.2)
    (fun _ _ _ o _ hd h => forward_step h hd o) hfollow h hallowed).1

/-! ## The law -/

/-- Consumers, each with its number of rounds and a connection of its own. -/
def start (s : System) (consumers : List (Consumer × Nat)) : Config Call Answer System Unit :=
  ⟨⟨s, []⟩, consumers.zipIdx.map fun x => x.1.1.program (.worker x.2) x.1.2⟩

/-- Without an edit or a regeneration a job has one message, and is not past the stage that comes
of it. -/
structure Settled (s : System) : Prop where
  one : ∀ e ∈ s.accepted, ∀ e' ∈ s.accepted, ∀ id, jobOf e.queue e.body = some id →
    jobOf e'.queue e'.body = some id → e = e'
  early : ∀ e ∈ s.accepted, ∀ id, jobOf e.queue e.body = some id →
    jobRank s.db id ≤ rank (entry e.queue)
  idle : ∀ i, s.sessions (.worker i) = .idle

/-- Deliveries with one pair have the effect of one. -/
structure ActsOnce (picks : List (Nat × Outcome)) (cfg : Config Call Answer System Unit) : Prop where
  published : (sent picks cfg).Nodup
  forward : Settled cfg.shot.state → Allowed services Forward picks cfg

theorem start_follows (s : System) (consumers : List (Consumer × Nat)) :
    AllFollow Duties (fun i _ h => waits (.worker i) h = false) (start s consumers) := by
  intro i p hp
  simp only [start, List.getElem?_map, List.getElem?_zipIdx, Option.map_map] at hp
  obtain ⟨⟨consumer, n⟩, -, rfl⟩ := Option.map_eq_some_iff.mp hp
  simp only [Function.comp_apply, Nat.zero_add]
  exact consumer_dutiful consumer (.worker i) n i [] rfl

theorem start_at (s : System) (i : Nat) (queue : String) (msg : Json) : ¬ At ⟨s, []⟩ i queue msg := by
  rintro ⟨reached, hpos⟩
  cases hpos

theorem start_ledger (s : System) : Ledger ⟨s, []⟩ [] where
  recorded := nofun
  unsent := fun _ _ _ _ => List.not_mem_nil
  apart := fun i _ queue _ msg _ hat => absurd hat (start_at s i queue msg)

theorem start_orderly {s : System} (h : Settled s) : Orderly ⟨s, []⟩ where
  alone := fun e e' id hw hw' => h.one e hw.accepted e' hw'.accepted id hw.job hw'.job
  apart := fun _ i _ _ ⟨queue, msg, hat, _⟩ => start_at s i queue msg hat
  single := fun i _ _ ⟨queue, msg, hat, _⟩ => absurd hat (start_at s i queue msg)
  ahead := fun e id hw => h.early e hw.accepted id hw.job
  reached := by
    intro i queue msg reached id hpos
    cases hpos
  keeps := by
    intro i x hx
    change x ∈ (s.sessions (.worker i)).pending at hx
    rw [h.idle i] at hx
    cases hx
  written := by
    intro i _ x hx
    change x ∈ (s.sessions (.worker i)).pending at hx
    rw [h.idle i] at hx
    cases hx

/-- What no service in Go can read. -/
def garbage : System := { audio_hop.waiting with accepted := [⟨mux.audioQueue, .bool true⟩] }

def pick (i : Nat) : Nat × Outcome := (i, {})

/-- It is delivered, put back and delivered again. -/
def putBack : List (Nat × Outcome) := List.replicate 3 (pick 0)

theorem nothing_came_of_garbage :
    Allowed services (fun s i c o => Unspent s i c o ∧ InTime s i c o) putBack
      (start garbage [(.mux, 2)]) := by
  have hfirst : ∀ e : Event Call Answer, e ∉ (⟨garbage, []⟩ : Snap).log := fun e he => nomatch he
  refine ⟨⟨?_, ?_⟩, ⟨?_, ?_⟩, ⟨?_, ?_⟩, trivial⟩
  · rintro tag msg - ⟨e, he, -⟩
    exact absurd he (hfirst e)
  · rintro queue tag msg id - - ⟨e, he, -⟩
    exact absurd he (hfirst e)
  · intro tag msg ht
    cases ht
  · rintro queue tag msg id ⟨⟩
  · intro tag msg ht hseen
    refine ⟨?_, ?_⟩
    · rintro ⟨i, x, hx, -⟩
      cases i <;> cases hx
    · rintro j queue msg' hj ⟨reached, hpos⟩
      cases j with
      | zero => exact absurd rfl hj
      | succ j => cases hpos
  · rintro queue tag msg id ⟨⟩ ht hseen hjob
    cases ht
    cases hjob

theorem garbage_is_settled : Settled garbage where
  one := by
    intro e he e' he' id hjob
    cases List.mem_singleton.mp he
    cases hjob
  early := by
    intro e he id hjob
    cases List.mem_singleton.mp he
    cases hjob
  idle := fun _ => rfl

def synthesizers : List (Consumer × Nat) :=
  [(.synthesis audio_hop.settings, 1), (.synthesis audio_hop.settings, 1)]

/-- The first one publishes and does not come to acknowledge the message. -/
def twice : List (Nat × Outcome) := List.replicate 12 (pick 0) ++ List.replicate 12 (pick 1)

end recast_rules.deliveries
