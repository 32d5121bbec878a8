-- The order of the calls of an analysis. Each of them is told by the calls before it: the video is
-- uploaded until an upload returns, the file is polled until it is active, the model is asked about
-- this file only, and the delete of it is the last call.
import RecastAi.GeminiAnalyzer
import RecastAi.Histories

open call_programs

namespace recast_rules.gemini

open transcript (Json Segment)

/-! ## What has happened so far -/

/-- The calls so far and their answers, newest first. -/
abbrev Before := List (Event Call Answer)

def isUpload (e : Event Call Answer) : Bool :=
  match e.call with
  | .upload _ _ => true
  | _ => false

def isGet (e : Event Call Answer) : Bool :=
  match e.call with
  | .get _ => true
  | _ => false

def isDelete (e : Event Call Answer) : Bool :=
  match e.call with
  | .delete _ => true
  | _ => false

/-- The model was asked with this prompt. -/
def asks (userPrompt : String) (e : Event Call Answer) : Bool :=
  match e.call with
  | .generate _ _ user _ => user = userPrompt
  | _ => false

/-- An upload returned the name. -/
def Held (h : Before) (name : String) : Prop :=
  ∃ path mimeType, (⟨0, .upload path mimeType, .ok name⟩ : Event Call Answer) ∈ h

/-- The file was seen active. -/
def Active (h : Before) (name : String) : Prop :=
  (⟨0, .get name, .ok "ACTIVE"⟩ : Event Call Answer) ∈ h

def Retryable (tools : Tools) (e : Raised) : Prop :=
  ∃ exn, e.caught = some exn ∧ isRetryable tools exn = true

/-- What one try of `_generate_with_backoff` makes of a response. -/
def readResponse (tools : Tools) : Except Raised Response → Except Raised Json
  | .error e => .error e
  | .ok response => extractParsed tools response

/-- The newest call is an upload that may be tried again. -/
def UploadFailed (tools : Tools) (h : Before) : Prop :=
  ∃ path mimeType e rest, h = ⟨0, .upload path mimeType, .error e⟩ :: rest ∧ Retryable tools e

/-- The newest call is a generation with this prompt that may be tried again. -/
def GenerateFailed (tools : Tools) (userPrompt : String) (h : Before) : Prop :=
  ∃ model file system answer e rest, h = ⟨0, .generate model file userPrompt system, answer⟩ :: rest ∧
    readResponse tools answer = .error e ∧ Retryable tools e

/-- The file was still processed at the last poll, and the time since the upload is not over. -/
def Waits (h : Before) : Prop :=
  ∃ name state path mimeType later earlier, ∃ now start : Rat,
    h = ⟨0, .monotonic, now⟩ :: ⟨0, .get name, .ok state⟩ ::
      (later ++ ⟨0, .monotonic, start⟩ :: ⟨0, .upload path mimeType, .ok name⟩ :: earlier) ∧
    state ≠ "ACTIVE" ∧ state ≠ "FAILED" ∧ now < start + pollTimeout

/-! ## An analysis -/

/-- The arguments of `analyze`, with the extension of the path. -/
structure Analysis where
  tools : Tools
  model : String
  path : String
  ext : String
  style : String
  language : String
  durationMs : Option Int

namespace Analysis

def userPrompt (a : Analysis) : String := a.tools.buildUserPrompt a.style a.language a.durationMs

def systemPrompt (a : Analysis) : String := a.tools.buildSystemPrompt a.style a.language a.durationMs

def run (a : Analysis) (polls : Nat) : Gemini (List Segment) :=
  analyze a.tools a.model a.path a.ext a.style a.language a.durationMs polls

end Analysis

/-- A response to the first prompt was no valid transcript. (A sleep that raises the exception of the
validator would be taken for one.) -/
def Rejected (a : Analysis) (h : Before) (message : String) : Prop :=
  (∃ file response raw,
    (⟨0, .generate a.model file a.userPrompt a.systemPrompt, .ok response⟩ : Event Call Answer) ∈ h ∧
      extractParsed a.tools response = .ok raw ∧
      validated a.tools raw a.durationMs = .error (.validation message)) ∨
  ∃ seconds, (⟨0, .sleep seconds, .error (.validation message)⟩ : Event Call Answer) ∈ h

/-- The first prompt, or the one that tells what was wrong. -/
def Prompted (a : Analysis) (h : Before) (user : String) : Prop :=
  user = a.userPrompt ∨ ∃ message, user = stricter a.userPrompt message ∧ Rejected a h message

/-- When a call may be made. -/
def Due (a : Analysis) (h : Before) : Call → Prop
  | .isfile path => h = [] ∧ path = a.path
  | .upload path mimeType =>
    path = a.path ∧ mimeType = mimeTypeFor a.ext ∧ (∀ name, ¬ Held h name) ∧ h.countP isUpload < 5
  | .sleep seconds =>
    (UploadFailed a.tools h ∧ seconds = 2 ^ h.countP isUpload) ∨
      (∃ user, GenerateFailed a.tools user h ∧ seconds = 2 ^ h.countP (asks user)) ∨
      (Waits h ∧ seconds = pollInterval)
  | .monotonic => ∃ name, Held h name ∧ ¬ Active h name
  | .get name => Held h name ∧ ¬ Active h name
  | .generate model file user system =>
    model = a.model ∧ system = a.systemPrompt ∧ Held h file ∧ Active h file ∧ Prompted a h user ∧
      h.countP (asks user) < 5
  | .delete name => Held h name ∧ h.countP isDelete = 0

/-- How the analysis ends: with a transcript that the last response held, with an exception, or not
at all after so many polls. Where there is a file, its delete is the last call. -/
def Ends (a : Analysis) (polls : Nat) : Except Stop (List Segment) → Before → Prop
  | .ok segments, h => ∃ name deleted user response raw rest,
      h = ⟨0, .delete name, deleted⟩ ::
        ⟨0, .generate a.model name user a.systemPrompt, .ok response⟩ :: rest ∧
      Held rest name ∧ Active rest name ∧ extractParsed a.tools response = .ok raw ∧
      validated a.tools raw a.durationMs = .ok segments
  | .error (.raised _), h => (∀ name, ¬ Held h name) ∨
      ∃ name deleted rest, h = ⟨0, .delete name, deleted⟩ :: rest ∧ Held rest name
  | .error .polling, h => h.countP isGet = polls

/-! ## Tries -/

section Tries

variable {α : Type} {tools : Tools} {D : Before → Call → Prop} {I : Nat → Before → Prop}
  {F : Raised → Before → Prop} {Q : α → Before → Prop} {once : Gemini α}

/-- The exception is not the one of the validator. -/
def Unvalidated (e : Raised) : Prop := ∀ message, e ≠ .validation message

/-- Where the try after `k` others raises: the loop may raise, or pause and go on. -/
def Failed (tools : Tools) (D : Before → Call → Prop) (I : Nat → Before → Prop)
    (F : Raised → Before → Prop) (k : Nat) (stop : Stop) (h : Before) : Prop :=
  ∃ e, stop = .raised e ∧ (∀ e', Unvalidated e' → F e' h) ∧
    (Retryable tools e → k < 4 → D h (.sleep (2 ^ (k + 1))) ∧
      I (k + 1) (⟨0, .sleep (2 ^ (k + 1)), .ok ()⟩ :: h) ∧
      ∀ e', F e' (⟨0, .sleep (2 ^ (k + 1)), .error e'⟩ :: h))

/-- One try of a loop: `I k` holds before it after `k` others, `Q` where it returns, and `F` where
the loop raises after it. -/
structure Try (tools : Tools) (D : Before → Call → Prop) (I : Nat → Before → Prop)
    (F : Raised → Before → Prop) (Q : α → Before → Prop) (once : Gemini α) : Prop where
  once : ∀ k h, k < 5 → I k h → followsTry 0 D (Failed tools D I F k) Q h once
  spent : ∀ h, I 5 h → ∀ e, Unvalidated e → F e h

/-- The try after `k` others, with the pause after it. -/
def turn (k : Nat) : Nat × Nat := (k + 1, if k < 4 then 2 ^ (k + 1) else 0)

theorem unvalidated_runtimeError (message : String) : Unvalidated (runtimeError message) :=
  fun _ h => nomatch h

theorem unvalidated_of_uncaught {e : Raised} (h : e.caught = none) : Unvalidated e := by
  rintro message rfl
  cases h

/-- The law of the loop, after `k` tries. -/
theorem withBackoff_follows (ht : Try tools D I F Q once) (label : String) (n k : Nat)
    (hk : k + n = 5) {h : Before} (hI : I k h) :
    followsTry 0 D (fun stop h => ∃ e, stop = .raised e ∧ F e h) Q h
      (withBackoff tools label once ((List.range' k n).map turn)) := by
  induction n generalizing k h with
  | zero =>
    obtain rfl : k = 5 := hk
    exact ⟨_, rfl, ht.spent h hI _ (unvalidated_runtimeError _)⟩
  | succ n ih =>
    refine follows_bind (follows_mono (ht.once k h (by omega) hI) fun x h hx => ?_)
    cases x with
    | ok a => exact hx
    | error stop =>
      obtain ⟨e, rfl, hraised, hagain⟩ := hx
      dsimp only
      cases hcaught : e.caught with
      | none => exact ⟨e, rfl, hraised e (unvalidated_of_uncaught hcaught)⟩
      | some exn =>
        dsimp only
        split
        · exact ⟨_, rfl, hraised _ (unvalidated_runtimeError _)⟩
        · rename_i hmore
          -- the pause is due, and the next try after it
          have hlt : k < 4 := by
            by_contra hnot
            exact hmore (by simp [backoffSchedule]; omega)
          have hretry : isRetryable tools exn = true := by
            by_contra hnot
            exact hmore (by simp [hnot])
          obtain ⟨hdue, hnext, hcut⟩ := hagain ⟨exn, hcaught, hretry⟩ hlt
          have hpause : (turn k).2 = 2 ^ (k + 1) := if_pos hlt
          change followsTry 0 D _ Q h (sleep (turn k).2 >>= fun _ =>
            withBackoff tools label once ((List.range' (k + 1) n).map turn))
          rw [hpause]
          refine followsTry_bind (followsTry_orGiveUp ⟨hdue, fun x => ?_⟩)
          cases x with
          | error e' => exact ⟨e', rfl, hcut e'⟩
          | ok _ => exact ih (k + 1) (by omega) hnext

end Tries

/-! ## The upload -/

section Phases

variable {a : Analysis} {h : Before} {name : String}

theorem held_cons {e : Event Call Answer} (hh : Held h name) : Held (e :: h) name := by
  obtain ⟨path, mimeType, hmem⟩ := hh
  exact ⟨path, mimeType, List.mem_cons_of_mem _ hmem⟩

theorem held_of_cons {e : Event Call Answer} (he : isUpload e = false) (hh : Held (e :: h) name) :
    Held h name := by
  obtain ⟨path, mimeType, hmem⟩ := hh
  rcases List.mem_cons.mp hmem with rfl | hmem
  · cases he
  · exact ⟨path, mimeType, hmem⟩

/-- The call is no poll, no generation and no delete. -/
def Aside (e : Event Call Answer) : Prop :=
  isGet e = false ∧ isDelete e = false ∧ ∀ user, asks user e = false

/-- Before an upload, after `k` that have failed. -/
structure Uploading (k : Nat) (h : Before) : Prop where
  none : ∀ name, ¬ Held h name
  uploads : h.countP isUpload = k
  aside : ∀ e ∈ h, Aside e

theorem uploadOnce_try (a : Analysis) :
    Try a.tools (Due a) Uploading (fun _ h => ∀ name, ¬ Held h name)
      (fun name h => ∃ path mimeType rest, h = ⟨0, .upload path mimeType, .ok name⟩ :: rest ∧
        Uploading (rest.countP isUpload) rest)
      (uploadOnce a.path (mimeTypeFor a.ext)) where
  once := by
    intro k h hk hI
    refine followsTry_orGiveUp ⟨⟨rfl, rfl, hI.none, hI.uploads ▸ hk⟩, fun x => ?_⟩
    cases x with
    | ok name => exact ⟨_, _, h, rfl, hI.none, rfl, hI.aside⟩
    | error e =>
      have hnone : ∀ name, ¬ Held (⟨0, .upload a.path (mimeTypeFor a.ext), .error e⟩ :: h) name := by
        rintro name ⟨path, mimeType, hmem⟩
        rcases List.mem_cons.mp hmem with heq | hmem
        · cases heq
        · exact hI.none name ⟨path, mimeType, hmem⟩
      have hcount : List.countP isUpload
          (⟨0, .upload a.path (mimeTypeFor a.ext), .error e⟩ :: h) = k + 1 := by
        rw [List.countP_cons_of_pos rfl, hI.uploads]
      have haside : ∀ e' ∈ (⟨0, .upload a.path (mimeTypeFor a.ext), .error e⟩ :: h : Before), Aside e' :=
        List.forall_mem_cons.mpr ⟨⟨rfl, rfl, fun _ => rfl⟩, hI.aside⟩
      refine ⟨e, rfl, fun _ _ => hnone, fun hretry _ => ⟨?_, ⟨?_, ?_, ?_⟩, ?_⟩⟩
      · exact Or.inl ⟨⟨_, _, e, h, rfl, hretry⟩, by rw [hcount]⟩
      · exact fun name hh => hnone name (held_of_cons rfl hh)
      · exact (List.countP_cons_of_neg Bool.false_ne_true).trans hcount
      · exact List.forall_mem_cons.mpr ⟨⟨rfl, rfl, fun _ => rfl⟩, haside⟩
      · exact fun _ name hh => hnone name (held_of_cons rfl hh)
  spent := fun _ hI _ _ => hI.none

/-! ## The polls -/

/-- After the upload, before the file is active. -/
structure Polling (name : String) (start : Rat) (gets : Nat) (h : Before) : Prop where
  since : ∃ path mimeType later earlier,
    h = later ++ ⟨0, .monotonic, start⟩ :: ⟨0, .upload path mimeType, .ok name⟩ :: earlier
  inactive : ¬ Active h name
  gets : h.countP isGet = gets
  silent : ∀ e ∈ h, isDelete e = false ∧ ∀ user, asks user e = false

theorem Polling.held {start : Rat} {gets : Nat} (hp : Polling name start gets h) : Held h name := by
  obtain ⟨path, mimeType, later, earlier, rfl⟩ := hp.since
  exact ⟨path, mimeType, by simp⟩

/-- One call more, which is no delete and no generation. -/
theorem Polling.after {start : Rat} {gets gets' : Nat} {e : Event Call Answer}
    (hp : Polling name start gets h) (hsilent : isDelete e = false ∧ ∀ user, asks user e = false)
    (hinactive : e ≠ ⟨0, .get name, .ok "ACTIVE"⟩)
    (hgets : (e :: h).countP isGet = gets') : Polling name start gets' (e :: h) where
  since := by
    obtain ⟨path, mimeType, later, earlier, rfl⟩ := hp.since
    exact ⟨path, mimeType, e :: later, earlier, rfl⟩
  inactive := by
    intro hactive
    rcases List.mem_cons.mp hactive with heq | hmem
    · exact hinactive heq.symm
    · exact hp.inactive hmem
  gets := hgets
  silent := List.forall_mem_cons.mpr ⟨hsilent, hp.silent⟩

/-- The file is known, and no delete of it was tried. -/
structure Closing (name : String) (h : Before) : Prop where
  held : Held h name
  kept : h.countP isDelete = 0

theorem Polling.closing {start : Rat} {gets : Nat} (hp : Polling name start gets h) :
    Closing name h :=
  ⟨hp.held, List.countP_eq_zero.mpr fun e he => by simp [(hp.silent e he).1]⟩

/-- Where the work with the file ends without a transcript. -/
def Fails (polls : Nat) (name : String) : Stop → Before → Prop
  | .polling, h => h.countP isGet = polls
  | .raised _, h => Closing name h

/-- The file is active, and the model was not asked yet. -/
structure Ready (name : String) (h : Before) : Prop where
  closing : Closing name h
  active : Active h name
  silent : ∀ e ∈ h, ∀ user, asks user e = false

theorem pollOnce_follows {start : Rat} {gets polls : Nat} {again : Gemini Unit}
    (hp : Polling name start gets h)
    (hagain : ∀ h, Polling name start (gets + 1) h →
      followsTry 0 (Due a) (Fails polls name) (fun _ h => Ready name h) h again) :
    followsTry 0 (Due a) (Fails polls name) (fun _ h => Ready name h) h
      (pollOnce name (start + pollTimeout) again) := by
  have hgets : ∀ x, List.countP isGet (⟨0, .get name, x⟩ :: h) = gets + 1 := fun x => by
    rw [List.countP_cons_of_pos rfl, hp.gets]
  refine And.intro (⟨hp.held, hp.inactive⟩ : Due a h (.get name)) fun x => ?_
  cases x with
  | error e =>
    have hclosing : Closing name (⟨0, .get name, .error e⟩ :: h) :=
      (hp.after (e := ⟨0, .get name, .error e⟩) ⟨rfl, fun _ => rfl⟩ (fun heq => nomatch heq)
        (hgets (.error e))).closing
    cases e <;> exact hclosing
  | ok state =>
    change followsTry 0 (Due a) (Fails polls name) (fun _ h => Ready name h) _
      (if state = "ACTIVE" then pure () else _)
    split
    · rename_i hactive
      subst hactive
      refine (⟨⟨held_cons hp.held, ?_⟩, List.mem_cons_self, ?_⟩ : Ready name _)
      · exact (List.countP_cons_of_neg Bool.false_ne_true).trans hp.closing.kept
      · exact List.forall_mem_cons.mpr ⟨fun _ => rfl, fun e he => (hp.silent e he).2⟩
    · rename_i hinactive
      have hpolled : Polling name start (gets + 1) (⟨0, .get name, .ok state⟩ :: h) := by
        refine hp.after ⟨rfl, fun _ => rfl⟩ (fun heq => hinactive ?_) (hgets _)
        cases heq
        rfl
      split
      · exact hpolled.closing
      · rename_i hfailed
        refine And.intro (⟨name, hpolled.held, hpolled.inactive⟩ : Due a _ .monotonic) fun (now : Rat) => ?_
        have hread : Polling name start (gets + 1)
            (⟨0, .monotonic, now⟩ :: ⟨0, .get name, .ok state⟩ :: h) :=
          hpolled.after ⟨rfl, fun _ => rfl⟩ (fun heq => nomatch heq)
            ((List.countP_cons_of_neg Bool.false_ne_true).trans hpolled.gets)
        change followsTry 0 (Due a) (Fails polls name) (fun _ h => Ready name h) _
          (if start + pollTimeout ≤ now then raise _ else _)
        split
        · exact hread.closing
        · rename_i hearly
          obtain ⟨path, mimeType, later, earlier, rfl⟩ := hp.since
          have hwaits : Waits (⟨0, .monotonic, now⟩ :: ⟨0, .get name, .ok state⟩ ::
              (later ++ ⟨0, .monotonic, start⟩ :: ⟨0, .upload path mimeType, .ok name⟩ :: earlier)) :=
            ⟨name, state, path, mimeType, later, earlier, now, start, rfl, hinactive, hfailed,
              Rat.not_le.mp hearly⟩
          refine And.intro (Or.inr (Or.inr ⟨hwaits, rfl⟩) : Due a _ (.sleep pollInterval)) fun x => ?_
          have hslept : Polling name start (gets + 1) (⟨0, .sleep pollInterval, x⟩ :: _) :=
            hread.after ⟨rfl, fun _ => rfl⟩ (fun heq => nomatch heq)
              ((List.countP_cons_of_neg Bool.false_ne_true).trans hread.gets)
          cases x with
          | error e => exact hslept.closing
          | ok _ => exact hagain _ hslept

/-- The law of the loop over the polls. -/
theorem waitUntilActive_follows {start : Rat} (n : Nat) {gets polls : Nat} (hpolls : gets + n = polls)
    (hp : Polling name start gets h) :
    followsTry 0 (Due a) (Fails polls name) (fun _ h => Ready name h) h
      (waitUntilActive name (start + pollTimeout) n) := by
  induction n generalizing gets h with
  | zero => exact hp.gets.trans hpolls
  | succ n ih => exact pollOnce_follows hp fun h hp => ih (by omega) hp

/-! ## The generations -/

/-- Before a generation with the prompt `user`, after `k` with it. -/
structure Asking (a : Analysis) (name user : String) (k : Nat) (h : Before) : Prop where
  closing : Closing name h
  active : Active h name
  prompted : Prompted a h user
  asked : h.countP (asks user) = k
  fresh : ∀ v, v ≠ a.userPrompt → v ≠ user → h.countP (asks v) = 0

theorem Closing.after {e : Event Call Answer} (hc : Closing name h) (he : isDelete e = false) :
    Closing name (e :: h) :=
  ⟨held_cons hc.held, (List.countP_cons_of_neg (by simp [he])).trans hc.kept⟩

theorem prompted_cons {user : String} {e : Event Call Answer} (hp : Prompted a h user) :
    Prompted a (e :: h) user := by
  rcases hp with hfirst | ⟨message, hsecond, ⟨file, response, raw, hmem, hread⟩ | ⟨seconds, hmem⟩⟩
  · exact Or.inl hfirst
  · exact Or.inr ⟨message, hsecond, Or.inl ⟨file, response, raw, List.mem_cons_of_mem _ hmem, hread⟩⟩
  · exact Or.inr ⟨message, hsecond, Or.inr ⟨seconds, List.mem_cons_of_mem _ hmem⟩⟩

/-- One call more, which asks with no other prompt. -/
theorem Asking.after {user : String} {k k' : Nat} {e : Event Call Answer} (hk : Asking a name user k h)
    (he : isDelete e = false) (hothers : ∀ v, v ≠ user → asks v e = false)
    (hasked : (e :: h).countP (asks user) = k') : Asking a name user k' (e :: h) where
  closing := hk.closing.after he
  active := List.mem_cons_of_mem _ hk.active
  prompted := prompted_cons hk.prompted
  asked := hasked
  fresh := fun v hfirst hv =>
    (List.countP_cons_of_neg (by simp [hothers v hv])).trans (hk.fresh v hfirst hv)

theorem asking_first (hr : Ready name h) : Asking a name a.userPrompt 0 h where
  closing := hr.closing
  active := hr.active
  prompted := Or.inl rfl
  asked := List.countP_eq_zero.mpr fun e he => by simp [hr.silent e he]
  fresh := fun v _ _ => List.countP_eq_zero.mpr fun e he => by simp [hr.silent e he]

theorem stricter_ne (userPrompt message : String) : stricter userPrompt message ≠ userPrompt := by
  intro heq
  have hlength := congrArg String.length heq
  simp only [stricter, String.length_append] at hlength
  have hreminder : 0 < "\n\nREMINDER: The previous response failed validation with: ".length := by
    decide
  omega

/-- The exception of the validator, where a sleep raised it. -/
def Told (h : Before) (e : Raised) : Prop :=
  ∀ message, e = .validation message →
    ∃ seconds, (⟨0, .sleep seconds, .error (.validation message)⟩ : Event Call Answer) ∈ h

/-- The newest call is the generation whose response holds `raw`. -/
def Answered (a : Analysis) (name user : String) (raw : Json) (h : Before) : Prop :=
  ∃ response rest, h = ⟨0, .generate a.model name user a.systemPrompt, .ok response⟩ :: rest ∧
    extractParsed a.tools response = .ok raw ∧ Held rest name ∧ Active rest name

theorem generateOnce_try (a : Analysis) (name user : String) :
    Try a.tools (Due a) (Asking a name user)
      (fun e h => (∃ k, Asking a name user k h) ∧ Told h e)
      (fun raw h => (∃ k, Asking a name user k h) ∧ Answered a name user raw h)
      (generateOnce a.tools a.model name user a.systemPrompt) where
  once := by
    intro k h hk hI
    have hdue : Due a h (.generate a.model name user a.systemPrompt) :=
      ⟨rfl, rfl, hI.closing.held, hI.active, hI.prompted, hI.asked ▸ hk⟩
    refine And.intro hdue fun answer => ?_
    have hnext : Asking a name user (k + 1)
        (⟨0, .generate a.model name user a.systemPrompt, answer⟩ :: h) := by
      refine hI.after rfl (fun v hv => decide_eq_false fun heq => hv heq.symm) ?_
      rw [List.countP_cons_of_pos (by simp [asks]), hI.asked]
    -- whatever is wrong with the answer, the loop goes on or raises
    have hfailed : ∀ e, readResponse a.tools answer = .error e →
        Failed a.tools (Due a) (Asking a name user)
          (fun e h => (∃ k, Asking a name user k h) ∧ Told h e) k (.raised e)
          (⟨0, .generate a.model name user a.systemPrompt, answer⟩ :: h) := by
      intro e he
      refine ⟨e, rfl, fun e' he' => ⟨⟨k + 1, hnext⟩, fun message heq => absurd heq (he' message)⟩,
        fun hretry _ => ⟨Or.inr (Or.inl ⟨user, ⟨_, _, _, _, e, h, rfl, he, hretry⟩, ?_⟩), ?_, ?_⟩⟩
      · rw [hnext.asked]
      · exact hnext.after rfl (fun _ _ => rfl)
          ((List.countP_cons_of_neg Bool.false_ne_true).trans hnext.asked)
      · intro e'
        refine ⟨⟨k + 1, hnext.after rfl (fun _ _ => rfl)
          ((List.countP_cons_of_neg Bool.false_ne_true).trans hnext.asked)⟩, ?_⟩
        rintro message rfl
        exact ⟨_, List.mem_cons_self⟩
    cases answer with
    | error e => exact hfailed e rfl
    | ok response =>
      change followsTry 0 (Due a) _ _ _ (must (.done (extractParsed a.tools response)))
      cases hraw : extractParsed a.tools response with
      | error e => exact hfailed e hraw
      | ok raw => exact ⟨⟨k + 1, hnext⟩, response, h, rfl, hraw, hI.closing.held, hI.active⟩
  spent := fun h hI e he => ⟨⟨5, hI⟩, fun message heq => absurd heq (he message)⟩

/-- The newest call is the generation whose response is the transcript. -/
def Transcribed (a : Analysis) (name : String) (segments : List Segment) (h : Before) : Prop :=
  ∃ user raw, Answered a name user raw h ∧ validated a.tools raw a.durationMs = .ok segments

/-- The exception of the validator comes from a response to the prompt, or from a sleep. -/
def Judged (a : Analysis) (name user : String) (h : Before) (e : Raised) : Prop :=
  ∀ message, e = .validation message →
    (∃ raw, Answered a name user raw h ∧
      validated a.tools raw a.durationMs = .error (.validation message)) ∨
    ∃ seconds, (⟨0, .sleep seconds, .error (.validation message)⟩ : Event Call Answer) ∈ h

theorem generateValidated_follows {user : String} (hr : Asking a name user 0 h) :
    followsTry 0 (Due a)
      (fun stop h => ∃ e, stop = .raised e ∧ (∃ k, Asking a name user k h) ∧ Judged a name user h e)
      (fun segments h => Closing name h ∧ Transcribed a name segments h) h
      (generateValidated a.tools a.model name user a.systemPrompt a.durationMs) := by
  have hbackoff := withBackoff_follows (generateOnce_try a name user) "generate_content" 5 0 rfl hr
  refine followsTry_bind (follows_mono hbackoff fun x h hx => ?_)
  cases x with
  | error stop =>
    obtain ⟨e, rfl, hasking, htold⟩ := hx
    exact ⟨e, rfl, hasking, fun message heq => Or.inr (htold message heq)⟩
  | ok raw =>
    obtain ⟨⟨k, hk⟩, hanswered⟩ := hx
    change followsTry 0 (Due a) _ _ _ (must (.done (validated a.tools raw a.durationMs)))
    cases hvalid : validated a.tools raw a.durationMs with
    | ok segments => exact ⟨hk.closing, user, raw, hanswered, hvalid⟩
    | error e =>
      refine ⟨e, rfl, ⟨k, hk⟩, fun message heq => Or.inl ⟨raw, hanswered, ?_⟩⟩
      rw [hvalid, heq]

/-- After a response that is no transcript, the model may be told what was wrong. -/
theorem asking_again {k : Nat} {message : String} (hk : Asking a name a.userPrompt k h)
    (hjudged : Judged a name a.userPrompt h (.validation message)) :
    Asking a name (stricter a.userPrompt message) 0 h where
  closing := hk.closing
  active := hk.active
  prompted := by
    refine Or.inr ⟨message, rfl, ?_⟩
    rcases hjudged message rfl with ⟨raw, ⟨response, rest, rfl, hraw, -⟩, hvalid⟩ | htold
    · exact Or.inl ⟨name, response, raw, List.mem_cons_self, hraw, hvalid⟩
    · exact Or.inr htold
  asked := hk.fresh _ (stricter_ne _ _) (stricter_ne _ _)
  fresh := fun v hv _ => hk.fresh v hv hv

theorem generateWithSchemaRetry_follows {polls : Nat} (hr : Ready name h) :
    followsTry 0 (Due a) (Fails polls name)
      (fun segments h => Closing name h ∧ Transcribed a name segments h) h
      (generateWithSchemaRetry a.tools a.model name a.userPrompt a.systemPrompt a.durationMs) := by
  refine follows_bind (follows_mono (generateValidated_follows (asking_first hr)) fun x h hx => ?_)
  cases x with
  | ok segments => exact hx
  | error stop =>
    obtain ⟨e, rfl, ⟨k, hk⟩, hjudged⟩ := hx
    cases e with
    | validation message =>
      refine follows_mono (generateValidated_follows (asking_again hk hjudged)) fun x h hx => ?_
      cases x with
      | ok segments => exact hx
      | error stop =>
        obtain ⟨e, rfl, ⟨k, hk⟩, -⟩ := hx
        exact hk.closing
    | exception exn => exact hk.closing
    | cancelled => exact hk.closing

/-! ## The analysis -/

/-- Everything between the upload and the delete. -/
theorem analyzeFile_follows {path mimeType : String} {polls : Nat} (hI : ∃ k, Uploading k h) :
    followsTry 0 (Due a) (Fails polls name)
      (fun segments h => Closing name h ∧ Transcribed a name segments h)
      (⟨0, .upload path mimeType, .ok name⟩ :: h)
      (analyzeFile a.tools a.model a.style a.language a.durationMs polls name) := by
  obtain ⟨k, hI⟩ := hI
  have haside : ∀ e ∈ (⟨0, .upload path mimeType, .ok name⟩ :: h : Before), Aside e :=
    List.forall_mem_cons.mpr ⟨⟨rfl, rfl, fun _ => rfl⟩, hI.aside⟩
  have hinactive : ¬ Active (⟨0, .upload path mimeType, .ok name⟩ :: h) name :=
    fun hactive => nomatch (haside _ hactive).1
  refine And.intro (⟨name, ⟨path, mimeType, List.mem_cons_self⟩, hinactive⟩ : Due a _ .monotonic)
    fun (start : Rat) => ?_
  have hpolling : Polling name start 0
      (⟨0, .monotonic, start⟩ :: ⟨0, .upload path mimeType, .ok name⟩ :: h) := by
    refine ⟨⟨path, mimeType, [], h, rfl⟩, ?_, ?_, ?_⟩
    · intro hactive
      rcases List.mem_cons.mp hactive with heq | hmem
      · cases heq
      · exact hinactive hmem
    · refine List.countP_eq_zero.mpr (List.forall_mem_cons.mpr ⟨Bool.false_ne_true, fun e he => ?_⟩)
      simp [(haside e he).1]
    · exact List.forall_mem_cons.mpr ⟨⟨rfl, fun _ => rfl⟩, fun e he => (haside e he).2⟩
  refine followsTry_bind (follows_mono (waitUntilActive_follows polls (Nat.zero_add polls) hpolling)
    fun x h hx => ?_)
  cases x with
  | error stop => exact hx
  | ok _ => exact generateWithSchemaRetry_follows hx

/-- The delete, after what the analysis has ended with. -/
theorem cleanup_follows {polls : Nat} {x : Except Stop (List Segment)} (hc : Closing name h)
    (hx : ∀ segments, x = .ok segments → Transcribed a name segments h) (hend : x ≠ .error .polling) :
    ((deleteQuiet name).run >>= fun y => match y with
      | .ok () => Prog.done x
      | .error e => Prog.done (.error e)).Follows 0 (Due a) (Ends a polls) h := by
  refine And.intro (⟨hc.held, hc.kept⟩ : Due a h (.delete name)) fun deleted => ?_
  have hraised : ∀ e, Ends a polls (.error (.raised e)) (⟨0, .delete name, deleted⟩ :: h) :=
    fun _ => Or.inr ⟨name, deleted, h, rfl, hc.held⟩
  have hdone : Ends a polls x (⟨0, .delete name, deleted⟩ :: h) := by
    cases x with
    | error stop =>
      cases stop with
      | polling => exact absurd rfl hend
      | raised e => exact hraised e
    | ok segments =>
      obtain ⟨user, raw, ⟨response, rest, rfl, hraw, hheld, hactive⟩, hvalid⟩ := hx segments rfl
      exact ⟨name, deleted, user, response, raw, rest, rfl, hheld, hactive, hraw, hvalid⟩
  cases deleted with
  | ok _ => exact hdone
  | error e =>
    cases e with
    | cancelled => exact hraised _
    | exception _ => exact hdone
    | validation _ => exact hdone

end Phases

/-- However the work with the file ends, its delete is the last call. -/
theorem finallyDo_follows {a : Analysis} {name : String} {polls : Nat} {h : Before}
    {p : Gemini (List Segment)} (hp : followsTry 0 (Due a) (Fails polls name)
      (fun segments h => Closing name h ∧ Transcribed a name segments h) h p) :
    (finallyDo p (deleteQuiet name)).run.Follows 0 (Due a) (Ends a polls) h := by
  refine follows_bind (follows_mono hp fun x h hx => ?_)
  cases x with
  | ok segments =>
    refine cleanup_follows hx.1 (fun segments' heq => ?_) (fun heq => nomatch heq)
    cases heq
    exact hx.2
  | error stop =>
    cases stop with
    | polling => exact hx
    | raised e => exact cleanup_follows hx (fun _ heq => nomatch heq) (fun heq => nomatch heq)

end recast_rules.gemini
