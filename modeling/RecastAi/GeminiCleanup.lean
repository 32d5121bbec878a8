-- The remote files of a run of the analyzer. Only the name that the last upload returned is known, so
-- a file is left behind where an upload made it and raised.
import RecastAi.GeminiAnalyzer

open call_programs

namespace recast_rules.gemini

open transcript (Segment)

/-- A delete was tried for each file that was made. -/
def Cleaned (s : Remote) : Prop := ∀ name ∈ s.created, name ∈ s.deletes

/-- The service gives each file a name of its own. -/
def Fresh (s : Remote) (c : Call) (o : Outcome) : Prop :=
  match c with
  | .upload _ _ => makes o = true → o.name ∉ s.created
  | _ => True

/-- An upload that raises has made no file, and makes none later. -/
def Returned (_ : Remote) (c : Call) (o : Outcome) : Prop :=
  match c with
  | .upload _ _ => o.raised.isSome → o.creates = false
  | _ => True

/-! ## Calls that make and delete nothing -/

def Call.Quiet : Call → Prop
  | .upload _ _ => False
  | .delete _ => False
  | _ => True

theorem quiet_run {α : Type} {p : Prog Call Answer α} {R : α → Prop} (hp : p.Only Call.Quiet R)
    {os : List Outcome} {s s' : Remote} {a : α} (h : run files os (p, s) = (.done a, s')) :
    s' = s ∧ Meets files Returned os (p, s) := by
  constructor
  · refine (wp_run_any (wp_only (J := (· = s)) hp rfl ?_) h).2
    rintro _ c o hc - rfl
    cases c with
    | upload _ _ => exact hc.elim
    | delete _ => exact hc.elim
    | _ => rfl
  · refine meets_only hp (fun s c o hc => ?_) os s
    cases c with
    | upload _ _ => exact hc.elim
    | _ => trivial

theorem must_quiet {α : Type} {p : Prog Call Answer (Except Raised α)}
    (hp : p.Only Call.Quiet fun _ => True) : (must p).run.Only Call.Quiet fun _ => True := by
  refine only_bind hp fun x _ => ?_
  cases x <;> trivial

theorem raise_quiet {α : Type} (e : Raised) :
    (raise e : Gemini α).run.Only Call.Quiet fun _ => True := trivial

theorem sleep_quiet (seconds : Nat) : (sleep seconds).run.Only Call.Quiet fun _ => True :=
  must_quiet ⟨trivial, fun _ => trivial⟩

theorem bind_quiet {α β : Type} {p : Gemini α} {f : α → Gemini β}
    (hp : p.run.Only Call.Quiet fun _ => True) (hf : ∀ a, (f a).run.Only Call.Quiet fun _ => True) :
    (p >>= f).run.Only Call.Quiet fun _ => True := by
  refine only_bind hp fun x _ => ?_
  cases x with
  | error e => trivial
  | ok a => exact hf a

theorem lift_quiet {α : Type} {p : Prog Call Answer α} (hp : p.Only Call.Quiet fun _ => True) :
    (ExceptT.lift p : Gemini α).run.Only Call.Quiet fun _ => True :=
  only_bind hp fun _ _ => trivial

theorem withBackoff_quiet {α : Type} (tools : Tools) (label : String) {once : Gemini α}
    (hp : once.run.Only Call.Quiet fun _ => True) (schedule : List (Nat × Nat)) :
    (withBackoff tools label once schedule).run.Only Call.Quiet fun _ => True := by
  induction schedule with
  | nil => trivial
  | cons turn rest ih =>
    obtain ⟨attempt, delay⟩ := turn
    refine only_bind hp fun x _ => ?_
    cases x with
    | ok a => trivial
    | error stop =>
      cases stop with
      | polling => trivial
      | raised e =>
        dsimp only
        cases e.caught with
        | none => trivial
        | some exn =>
          dsimp only
          split
          · trivial
          · exact bind_quiet (sleep_quiet delay) fun _ => ih

theorem pollOnce_quiet (name : String) (deadline : Rat) {again : Gemini Unit}
    (hagain : again.run.Only Call.Quiet fun _ => True) :
    (pollOnce name deadline again).run.Only Call.Quiet fun _ => True := by
  unfold pollOnce
  refine bind_quiet (only_bind (must_quiet ⟨trivial, fun _ => trivial⟩) fun x _ => ?_) fun state => ?_
  · cases x with
    | ok state => trivial
    | error stop =>
      cases stop with
      | polling => trivial
      | raised e =>
        dsimp only
        cases e.caught <;> trivial
  · split
    · trivial
    · split
      · trivial
      · refine bind_quiet (lift_quiet ⟨trivial, fun _ => trivial⟩) fun now => ?_
        split
        · trivial
        · exact bind_quiet (sleep_quiet pollInterval) fun _ => hagain

theorem waitUntilActive_quiet (name : String) (deadline : Rat) (polls : Nat) :
    (waitUntilActive name deadline polls).run.Only Call.Quiet fun _ => True := by
  induction polls with
  | zero => trivial
  | succ n ih => exact pollOnce_quiet name deadline ih

theorem generateOnce_quiet (tools : Tools) (model file userPrompt systemPrompt : String) :
    (generateOnce tools model file userPrompt systemPrompt).run.Only Call.Quiet fun _ => True :=
  bind_quiet (must_quiet ⟨trivial, fun _ => trivial⟩) fun _ => must_quiet trivial

theorem generateValidated_quiet (tools : Tools) (model file userPrompt systemPrompt : String)
    (durationMs : Option Int) :
    (generateValidated tools model file userPrompt systemPrompt durationMs).run.Only Call.Quiet
      fun _ => True :=
  bind_quiet (withBackoff_quiet tools _ (generateOnce_quiet tools model file userPrompt systemPrompt)
    attempts) fun _ => must_quiet trivial

theorem analyzeFile_quiet (tools : Tools) (model style language : String) (durationMs : Option Int)
    (polls : Nat) (name : String) :
    (analyzeFile tools model style language durationMs polls name).run.Only Call.Quiet
      fun _ => True := by
  refine bind_quiet (lift_quiet ⟨trivial, fun _ => trivial⟩) fun start => ?_
  refine bind_quiet (waitUntilActive_quiet name _ polls) fun _ => ?_
  refine only_bind (generateValidated_quiet ..) fun x _ => ?_
  split
  · exact generateValidated_quiet ..
  · trivial

/-! ## What an upload leaves -/

def answered {α : Type} : Except Raised α → Except Stop α
  | .error e => .error (.raised e)
  | .ok a => .ok a

theorem must_run {α : Type} {p : Prog Call Answer (Except Raised α)} {os : List Outcome}
    {s s' : Remote} {x : Except Stop α} (h : run files os ((must p).run, s) = (.done x, s')) :
    ∃ os₁ y, run files os₁ (p, s) = (.done y, s') ∧ x = answered y ∧
      ∀ E, Meets files E os ((must p).run, s) ↔ Meets files E os₁ (p, s) := by
  obtain ⟨os₁, os₂, y, s₁, h₁, h₂, hm⟩ := run_bind h
  cases y with
  | error e =>
    obtain ⟨rfl, rfl⟩ := run_ended h₂
    exact ⟨os₁, .error e, h₁, rfl,
      fun E => (hm E).trans (and_iff_left (meets_done files E os₂ _ _))⟩
  | ok a =>
    obtain ⟨rfl, rfl⟩ := run_ended h₂
    exact ⟨os₁, .ok a, h₁, rfl,
      fun E => (hm E).trans (and_iff_left (meets_done files E os₂ _ _))⟩

/-- What uploads leave: the files that were made and not returned, and the one that was. -/
structure Uploaded (s s' : Remote) (x : Except Stop String) (lost : List String) : Prop where
  deletes : s'.deletes = s.deletes
  created : s'.created = s.created ++ lost ++ x.toOption.toList
  ended : x ≠ .error .polling

theorem Uploaded.raised {s s' : Remote} {stop : Stop} {x : Except Stop String} {lost : List String}
    (h : Uploaded s s' (.error stop) lost) (hx : x.toOption = none) (hend : x ≠ .error .polling) :
    Uploaded s s' x lost :=
  ⟨h.deletes, by rw [hx]; exact h.created, hend⟩

/-- Uploads after others that were lost. -/
theorem Uploaded.trans {s s₁ s' : Remote} {stop : Stop} {x : Except Stop String}
    {lost lost' : List String} (h : Uploaded s s₁ (.error stop) lost) (h' : Uploaded s₁ s' x lost') :
    Uploaded s s' x (lost ++ lost') where
  deletes := h'.deletes.trans h.deletes
  created := by
    rw [h'.created, h.created]
    simp [Except.toOption]
  ended := h'.ended

theorem uploadOnce_run {path mimeType : String} {os : List Outcome} {s s' : Remote}
    {x : Except Stop String}
    (h : run files os ((uploadOnce path mimeType).run, s) = (.done x, s')) :
    ∃ lost, Uploaded s s' x lost ∧
      (Meets files Returned os ((uploadOnce path mimeType).run, s) ↔ lost = []) := by
  obtain ⟨os₁, y, h₁, rfl, hm⟩ := must_run h
  obtain ⟨o, hanswer, hm₁⟩ := run_ask h₁
  obtain ⟨rfl, rfl⟩ := Prod.mk.inj hanswer
  have hmeets : Meets files Returned os ((uploadOnce path mimeType).run, s) ↔
      (o.raised.isSome → o.creates = false) := (hm Returned).trans (hm₁ Returned)
  rw [hmeets]
  unfold answering makes
  cases hraised : o.raised with
  | none =>
    refine ⟨[], ⟨rfl, ?_, by simp [answered]⟩, iff_of_true (fun hsome => by cases hsome) rfl⟩
    simp [answered, Except.toOption]
  | some e =>
    cases hcreates : o.creates with
    | true =>
      refine ⟨[o.name], ⟨rfl, ?_, by simp [answered]⟩, by simp⟩
      simp [answered, Except.toOption]
    | false =>
      refine ⟨[], ⟨rfl, ?_, by simp [answered]⟩, iff_of_true (fun _ => rfl) rfl⟩
      simp [answered, Except.toOption]

/-- After a sleep the program goes on in the same state, or the sleep was cut short. -/
theorem sleep_run {delay : Nat} {again : Gemini String} {os : List Outcome} {s s' : Remote}
    {x : Except Stop String}
    (h : run files os ((sleep delay >>= fun _ => again).run, s) = (.done x, s')) :
    (∃ e, x = .error e ∧ (.error e : Except Stop String) ≠ .error .polling ∧ s' = s ∧
        Meets files Returned os ((sleep delay >>= fun _ => again).run, s)) ∨
      ∃ os', run files os' (again.run, s) = (.done x, s') ∧
        (Meets files Returned os ((sleep delay >>= fun _ => again).run, s) ↔
          Meets files Returned os' (again.run, s)) := by
  rcases run_attempt_bind h with ⟨os₁, e, rfl, h₁, hm⟩ | ⟨os₁, os₂, ⟨⟩, s₁, h₁, h₂, hm⟩
  · left
    obtain ⟨rfl, hquiet⟩ := quiet_run (sleep_quiet delay) h₁
    obtain ⟨-, y, -, hy, -⟩ := must_run h₁
    refine ⟨e, rfl, ?_, rfl, (hm Returned).mpr hquiet⟩
    rintro heq
    rw [Except.error.inj heq] at hy
    cases y <;> cases hy
  · right
    obtain ⟨rfl, hquiet⟩ := quiet_run (sleep_quiet delay) h₁
    exact ⟨os₂, h₂, (hm Returned).trans (and_iff_right hquiet)⟩

/-- The uploads until one returns, or there is no more try. -/
theorem uploads_run (tools : Tools) (label path mimeType : String) (schedule : List (Nat × Nat))
    {os : List Outcome} {s s' : Remote} {x : Except Stop String}
    (h : run files os ((withBackoff tools label (uploadOnce path mimeType) schedule).run, s) =
      (.done x, s')) :
    ∃ lost, Uploaded s s' x lost ∧ (Meets files Returned os
      ((withBackoff tools label (uploadOnce path mimeType) schedule).run, s) ↔ lost = []) := by
  induction schedule generalizing os s with
  | nil =>
    have hraised : run files os ((raise (runtimeError s!"Gemini {label} exhausted retry budget") :
      Gemini String).run, s) = (.done x, s') := h
    unfold raise at hraised
    obtain ⟨rfl, rfl⟩ := run_ended hraised
    exact ⟨[], ⟨rfl, by simp [Except.toOption], by simp⟩,
      iff_of_true (meets_done files Returned os _ _) rfl⟩
  | cons turn rest ih =>
    obtain ⟨attempt, delay⟩ := turn
    obtain ⟨os₁, os₂, y, s₁, h₁, h₂, hm⟩ := run_bind h
    obtain ⟨lost, hup, hmeets⟩ := uploadOnce_run h₁
    have hmr := (hm Returned).trans (and_congr_left' hmeets)
    have hstops : ∀ z : Except Stop String, (lost = [] ∧
        Meets files Returned os₂ ((.done z : Prog Call Answer (Except Stop String)), s₁) ↔ lost = []) :=
      fun z => and_iff_left (meets_done files Returned os₂ z s₁)
    cases y with
    | ok name =>
      obtain ⟨rfl, rfl⟩ := run_ended h₂
      exact ⟨lost, hup, hmr.trans (hstops _)⟩
    | error stop =>
      cases stop with
      | polling => exact absurd rfl hup.ended
      | raised e =>
        dsimp only at h₂ hmr
        cases hcaught : e.caught with
        | none =>
          rw [hcaught] at h₂ hmr
          obtain ⟨rfl, rfl⟩ := run_ended h₂
          exact ⟨lost, hup, hmr.trans (hstops _)⟩
        | some exn =>
          rw [hcaught] at h₂ hmr
          dsimp only at h₂ hmr
          split at h₂
          · rename_i hlast
            rw [if_pos hlast] at hmr
            obtain ⟨rfl, rfl⟩ := run_ended h₂
            exact ⟨lost, hup.raised rfl (by simp), hmr.trans (hstops _)⟩
          · rename_i hmore
            rw [if_neg hmore] at hmr
            rcases sleep_run h₂ with ⟨e', rfl, hend, rfl, hquiet⟩ | ⟨os₃, h₃, hm₃⟩
            · exact ⟨lost, hup.raised rfl hend, hmr.trans (and_iff_left hquiet)⟩
            · obtain ⟨lost', hup', hmeets'⟩ := ih h₃
              refine ⟨lost ++ lost', hup.trans hup', hmr.trans ?_⟩
              rw [hm₃, hmeets', List.append_eq_nil_iff]

/-! ## What the cleanup does -/

theorem deleteQuiet_run {name : String} {os : List Outcome} {s s' : Remote} {y : Except Stop Unit}
    (h : run files os ((deleteQuiet name).run, s) = (.done y, s')) :
    s' = { s with deletes := s.deletes ++ [name] } ∧
      Meets files Returned os ((deleteQuiet name).run, s) := by
  obtain ⟨os₁, os₂, z, s₁, h₁, h₂, hm⟩ := run_bind h
  obtain ⟨os₃, w, h₃, rfl, hm₃⟩ := must_run h₁
  obtain ⟨o, hanswer, hm₄⟩ := run_ask h₃
  obtain ⟨rfl, rfl⟩ := Prod.mk.inj hanswer
  have hdeleted : Meets files Returned os₁ ((must (.call (.delete name) .done) : Gemini Unit).run, s) :=
    (hm₃ Returned).mpr ((hm₄ Returned).mpr trivial)
  have hrest : s' = { s with deletes := s.deletes ++ [name] } ∧ Meets files Returned os₂ _ :=
    quiet_run (R := fun _ => True) ?_ h₂
  · exact ⟨hrest.1, (hm Returned).mpr ⟨hdeleted, hrest.2⟩⟩
  · split
    · rename_i e _
      cases e.caught <;> trivial
    · trivial

/-- The cleanup, with the result that was there before it. -/
theorem cleanup_run {α : Type} {z : Except Stop α} {name : String} {os : List Outcome}
    {s s' : Remote} {x : Except Stop α}
    (h : run files os (((deleteQuiet name).run >>= fun y => match y with
      | .ok () => .done z
      | .error e => .done (.error e)), s) = (.done x, s')) :
    s' = { s with deletes := s.deletes ++ [name] } ∧
      Meets files Returned os (((deleteQuiet name).run >>= fun y => match y with
        | .ok () => .done z
        | .error e => .done (.error e)), s) := by
  obtain ⟨os₁, os₂, y, s₁, h₁, h₂, hm⟩ := run_bind h
  obtain ⟨rfl, hdeleted⟩ := deleteQuiet_run h₁
  have hquiet := quiet_run (R := fun _ => True) (by cases y <;> trivial) h₂
  exact ⟨hquiet.1, (hm Returned).mpr ⟨hdeleted, hquiet.2⟩⟩

/-- However the rest has ended, a delete is tried of the one file whose name is known. -/
theorem finallyDo_run {α : Type} {p : Gemini α} (hp : p.run.Only Call.Quiet fun _ => True)
    {name : String} {os : List Outcome} {s s' : Remote} {x : Except Stop α}
    (h : run files os ((finallyDo p (deleteQuiet name)).run, s) = (.done x, s'))
    (hend : x ≠ .error .polling) :
    s' = { s with deletes := s.deletes ++ [name] } ∧
      Meets files Returned os ((finallyDo p (deleteQuiet name)).run, s) := by
  obtain ⟨os₁, os₂, z, s₁, h₁, h₂, hm⟩ := run_bind h
  obtain ⟨rfl, hquiet⟩ := quiet_run hp h₁
  have hmr := hm Returned
  cases z with
  | ok a =>
    obtain ⟨hs, hmeets⟩ := cleanup_run h₂
    exact ⟨hs, hmr.mpr ⟨hquiet, hmeets⟩⟩
  | error stop =>
    cases stop with
    | polling =>
      exact absurd (run_ended h₂).1 hend
    | raised e =>
      obtain ⟨hs, hmeets⟩ := cleanup_run h₂
      exact ⟨hs, hmr.mpr ⟨hquiet, hmeets⟩⟩

/-! ## The law -/

theorem created_nodup {α : Type} {p : Prog Call Answer α} {os : List Outcome} {s s' : Remote} {a : α}
    (hs : s.created.Nodup) (hfresh : Meets files Fresh os (p, s))
    (h : run files os (p, s) = (.done a, s')) : s'.created.Nodup := by
  refine (wp_run (wp_only (J := fun s => s.created.Nodup) (only_any p) hs ?_) hfresh h).2
  intro s c o _ ho hnodup
  cases c with
  | upload path mimeType =>
    change (if makes o = true then { s with created := s.created ++ [o.name] } else s).created.Nodup
    split
    · rename_i hmakes
      exact List.nodup_append.mpr ⟨hnodup, List.pairwise_singleton _ _, fun a ha b hb =>
        List.mem_singleton.mp hb ▸ ne_of_mem_of_not_mem ha (ho hmakes)⟩
    · exact hnodup
  | _ => exact hnodup

/-- A run of the analyzer that has returned or raised has tried to delete each file that was made,
exactly when no upload made a file and raised. -/
theorem files_are_deleted_iff_each_was_returned (tools : Tools)
    (model path ext style language : String) (durationMs : Option Int) (polls : Nat)
    (os : List Outcome) (s' : Remote) (x : Except Stop (List Segment))
    (hfresh : Meets files Fresh os
      ((analyze tools model path ext style language durationMs polls).run, ⟨[], []⟩))
    (hrun : run files os
      ((analyze tools model path ext style language durationMs polls).run, ⟨[], []⟩) = (.done x, s'))
    (hend : x ≠ .error .polling) :
    Cleaned s' ↔ Meets files Returned os
      ((analyze tools model path ext style language durationMs polls).run, ⟨[], []⟩) := by
  have hnodup := created_nodup List.nodup_nil hfresh hrun
  unfold analyze at hrun ⊢
  obtain ⟨os₁, os₂, found, s₁, h₁, h₂, hm₁⟩ := run_lift_bind hrun
  have hisfile : (.call (.isfile path) .done : Prog Call Answer Bool).Only Call.Quiet fun _ => True :=
    ⟨trivial, fun _ => trivial⟩
  obtain ⟨rfl, hquiet⟩ := quiet_run hisfile h₁
  rw [hm₁ Returned, and_iff_right hquiet]
  cases found with
  | false =>
    obtain ⟨rfl, hquiet⟩ := quiet_run (raise_quiet _) h₂
    exact iff_of_true (fun name hname => by cases hname) hquiet
  | true =>
    rcases run_attempt_bind h₂ with ⟨os₃, e, rfl, h₃, hm₃⟩ | ⟨os₃, os₄, name, s₂, h₃, h₄, hm₃⟩
    · -- no name is known, and what was made is lost
      obtain ⟨lost, hup, hmeets⟩ := uploads_run tools _ _ _ attempts h₃
      refine Iff.trans ?_ ((hm₃ Returned).trans hmeets).symm
      unfold Cleaned
      rw [hup.created, hup.deletes]
      simp [Except.toOption, List.eq_nil_iff_forall_not_mem]
    · obtain ⟨lost, hup, hmeets⟩ := uploads_run tools _ _ _ attempts h₃
      obtain ⟨hs, hlater⟩ := finallyDo_run (analyzeFile_quiet ..) h₄ hend
      refine Iff.trans ?_ ((hm₃ Returned).trans ((and_iff_left hlater).trans hmeets)).symm
      have hcreated : s'.created = lost ++ [name] := by
        rw [hs, hup.created]
        rfl
      have hdeletes : s'.deletes = [name] := by
        rw [hs, hup.deletes]
        rfl
      rw [hcreated] at hnodup
      unfold Cleaned
      rw [hcreated, hdeletes]
      constructor
      · intro hclean
        refine List.eq_nil_iff_forall_not_mem.mpr fun f hf => ?_
        have hname := List.mem_singleton.mp (hclean f (List.mem_append_left _ hf))
        exact (List.nodup_append.mp hnodup).2.2 f hf name (List.mem_singleton_self name) hname
      · rintro rfl f hf
        exact hf

/-- Tools for runs that end before a prompt is read. -/
def noTools : Tools where
  buildSystemPrompt _ _ _ := ""
  buildUserPrompt _ _ _ := ""
  loads _ := .error "Expecting value"
  lower message := String.ofList (message.toList.map Char.toLower)
  schemaMessage _ := ""

def pollFails : Outcome := { raised := some (.exception ⟨false, none, "gone"⟩) }

/-- The upload returns, the poll fails, and the file is deleted. -/
def adasRun : List Outcome := [{}, { name := "files/1" }, {}, pollFails, {}]

theorem adas_file_is_deleted : Cleaned ⟨["files/1"], ["files/1"]⟩ := by
  refine (files_are_deleted_iff_each_was_returned noTools "gemini-2.5-pro" "/tmp/video.mp4" "mp4"
    "formal" "en" none 1 adasRun _ (.error (.raised (runtimeError "Gemini files.get failed: gone")))
    ?_ ?_ ?_).mpr ?_
  · with_unfolding_all exact ⟨trivial, fun _ => List.not_mem_nil, trivial, trivial, trivial, trivial⟩
  · with_unfolding_all rfl
  · simp
  · have hreturned : Returned ⟨[], []⟩ (.upload "/tmp/video.mp4" "video/mp4") { name := "files/1" } := by
      intro hsome
      cases hsome
    with_unfolding_all exact ⟨trivial, hreturned, trivial, trivial, trivial, trivial⟩

/-- The first upload makes a file and times out, and the second one returns. -/
def adasTimeout : List Outcome :=
  [{}, { raised := some (.exception ⟨true, none, ""⟩), name := "files/1" }, {},
    { name := "files/2" }, {}, pollFails, {}]

theorem a_timed_out_upload_leaves_its_file :
    ¬ ∀ (tools : Tools) (model path ext style language : String) (durationMs : Option Int)
      (polls : Nat) (os : List Outcome) (s' : Remote) (x : Except Stop (List Segment)),
      Meets files Fresh os
        ((analyze tools model path ext style language durationMs polls).run, ⟨[], []⟩) →
      run files os ((analyze tools model path ext style language durationMs polls).run, ⟨[], []⟩) =
        (.done x, s') → x ≠ .error .polling → Cleaned s' := by
  intro h
  have hfresh : "files/2" ∉ ["files/1"] := by simp
  have hclean := h noTools "gemini-2.5-pro" "/tmp/video.mp4" "mp4" "formal" "en" none 1 adasTimeout
    ⟨["files/1", "files/2"], ["files/2"]⟩
    (.error (.raised (runtimeError "Gemini files.get failed: gone")))
    (by with_unfolding_all exact ⟨trivial, fun _ => List.not_mem_nil, trivial, fun _ => hfresh,
      trivial, trivial, trivial, trivial⟩)
    (by with_unfolding_all rfl) (by simp)
  have hfirst := hclean "files/1" List.mem_cons_self
  simp at hfirst

end recast_rules.gemini
