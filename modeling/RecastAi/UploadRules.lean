-- The rules for the steps of a handler, and what they give at once: a request
-- makes calls only about its own upload, whatever is answered to it.
import RecastAi.UploadKeys

open call_programs go_text

namespace recast_rules.upload_service

variable {α β : Type}

/-! ## Steps of a handler -/

section Tries

variable {E : Shot Call Answer Uploads → Nat → Call → Outcome → Prop}
  {pact : Pact (Shot Call Answer Uploads)} {i : Nat}
  {F : Response → Shot Call Answer Uploads → Prop} {Q : β → Shot Call Answer Uploads → Prop}
  {s : Shot Call Answer Uploads} {status : Nat} {msg : String}

theorem refuseIf_bind {c : Bool} {f : Unit → Handler β}
    (hF : ∀ s', F (writeError status msg) s')
    (h : c = false → tries backends E pact i (f ()) F Q s) :
    tries backends E pact i (refuseIf c status msg >>= f) F Q s := by
  cases c with
  | true => exact fun s' _ => hF s'
  | false => exact h rfl

theorem orRefuse_bind {x : Option α} {f : α → Handler β}
    (hF : ∀ s', F (writeError status msg) s')
    (h : ∀ a, x = some a → tries backends E pact i (f a) F Q s) :
    tries backends E pact i (orRefuse x status msg >>= f) F Q s := by
  cases x with
  | none => exact fun s' _ => hF s'
  | some a => exact h a rfl

theorem orFail_bind {p : Upload (Except String α)} {f : α → Handler β}
    (hF : ∀ s', F (writeError status msg) s')
    (h : safe backends E pact i p
      (fun x s => ∀ a, x = .ok a → tries backends E pact i (f a) F Q s) s) :
    tries backends E pact i (orFail p status msg >>= f) F Q s := by
  refine tries_bind (tries_orGiveUp (safe_mono h fun x s hx => ?_))
  cases x with
  | error e => exact hF s
  | ok a => exact hx a rfl

end Tries

theorem refuseIf_pass {c : Bool} {status : Nat} {msg : String} {f : Unit → Handler β}
    (h : c = false) : (refuseIf c status msg >>= f) = f () := by
  subst h
  rfl

section WpTry

variable {E : Uploads → Call → Outcome → Prop} {F : Response → Uploads → Prop}
  {Q : β → Uploads → Prop} {s : Uploads} {status : Nat} {msg : String}

theorem refuseIf_wp {c : Bool} {f : Unit → Handler β} (hF : ∀ s', F (writeError status msg) s')
    (h : c = false → wpTry backends E (f ()) F Q s) :
    wpTry backends E (refuseIf c status msg >>= f) F Q s := by
  cases c with
  | true => exact hF s
  | false => exact h rfl

theorem orFail_wp {p : Upload (Except String α)} {f : α → Handler β}
    (hF : ∀ s', F (writeError status msg) s')
    (h : wp backends E p (fun x s => ∀ a, x = .ok a → wpTry backends E (f a) F Q s) s) :
    wpTry backends E (orFail p status msg >>= f) F Q s := by
  refine wpTry_bind (wpTry_orGiveUp (wp_mono h fun x s hx => ?_))
  cases x with
  | error e => exact hF s
  | ok a => exact hx a rfl

/-- A call that is sure to succeed. -/
theorem orFail_sure {p : Upload (Except String α)} {f : α → Handler β}
    (h : wp backends E p (fun x s => ∃ a, x = .ok a ∧ wpTry backends E (f a) F Q s) s) :
    wpTry backends E (orFail p status msg >>= f) F Q s := by
  refine wpTry_bind (wpTry_orGiveUp (wp_mono h ?_))
  rintro _ s ⟨a, rfl, ha⟩
  exact ha

end WpTry

section Only

variable {P : Call → Prop} {F : Response → Prop} {Q : β → Prop} {status : Nat} {msg : String}

theorem refuseIf_only {c : Bool} {f : Unit → Handler β} (hF : F (writeError status msg))
    (h : c = false → attemptOnly P F Q (f ())) :
    attemptOnly P F Q (refuseIf c status msg >>= f) := by
  cases c with
  | true => exact hF
  | false => exact h rfl

theorem orRefuse_only {x : Option α} {f : α → Handler β} (hF : F (writeError status msg))
    (h : ∀ a, x = some a → attemptOnly P F Q (f a)) :
    attemptOnly P F Q (orRefuse x status msg >>= f) := by
  cases x with
  | none => exact hF
  | some a => exact h a rfl

theorem orFail_only {p : Upload (Except String α)} {f : α → Handler β}
    (hF : F (writeError status msg)) (hp : p.Only P fun _ => True)
    (h : ∀ a, attemptOnly P F Q (f a)) : attemptOnly P F Q (orFail p status msg >>= f) := by
  refine attempt_bind (attempt_orGiveUp (only_mono hp (fun _ hc => hc) fun x _ => ?_))
    fun a (_ : True) => h a
  cases x with
  | error e => exact hF
  | ok a => trivial

theorem lift_only {p : Upload α} {f : α → Handler β} (hp : p.Only P fun _ => True)
    (h : ∀ a, attemptOnly P F Q (f a)) : attemptOnly P F Q (ExceptT.lift p >>= f) :=
  attempt_bind (attempt_lift hp) fun a _ => h a

end Only

/-! ## A request keeps to its upload -/

/-- The call reads or changes nothing but the upload: its recorded chunks, the objects under
its directory, and the messages about an object there. -/
def Call.On (u : String) (c : Call) : Prop :=
  isSafeID u = true ∧ match c with
    | .recordChunk id _ _ => id = u
    | .totalSize id => id = u
    | .listChunks id => id = u
    | .purge id => id = u
    | .upload key _ _ => Under u key
    | .download key => Under u key
    | .delete key => Under u key
    | .publish _ m => Under u m.payload.originalFile
    | .newString => True
    | .file _ => True
    | .probe _ => True

/-- The call only reads something of the upload. -/
def Call.Reads (u : String) : Call → Prop
  | .totalSize id => id = u
  | .download key => Under u key
  | .file _ => True
  | .probe _ => True
  | _ => False

theorem reads_on {u : String} (hu : isSafeID u = true) (c : Call) (h : c.Reads u) : c.On u := by
  cases c with
  | totalSize id => exact ⟨hu, h⟩
  | download key => exact ⟨hu, h⟩
  | file op => exact ⟨hu, trivial⟩
  | probe data => exact ⟨hu, trivial⟩
  | _ => exact h.elim

/-- An answer to a stored chunk names the upload. -/
def Names (u : String) (resp : Response) : Prop := ∀ w i n, resp.body = .chunk w i n → w = u

theorem names_error {u : String} {status : Nat} {msg : String} :
    Names u (writeError status msg) := fun _ _ _ h => nomatch h

theorem copyChunks_reads (u : String) (written : Bytes) (l : List Nat) :
    (copyChunks u written l).Only (Call.Reads u) fun _ => True := by
  induction l generalizing written with
  | nil => trivial
  | cons i l ih =>
    refine ⟨under_chunkKey u i, fun x => ?_⟩
    cases x with
    | error e => trivial
    | ok data =>
      refine ⟨trivial, fun x => ?_⟩
      cases x with
      | error e => trivial
      | ok _ =>
        refine ⟨trivial, fun x => ?_⟩
        cases x with
        | error e => trivial
        | ok _ => exact ih _

theorem assemble_reads (u ext : String) (l : List Nat) :
    attemptOnly (Call.Reads u) (fun resp => resp.status ≠ 202) (fun _ => True)
      (assemble u ext l) := by
  unfold assemble
  refine orFail_only (by decide) ⟨rfl, fun _ => trivial⟩ fun total => ?_
  refine refuseIf_only (by decide) fun _ => ?_
  refine orFail_only (by decide) ⟨trivial, fun _ => trivial⟩ fun _ => ?_
  refine orFail_only (by decide) (copyChunks_reads u _ _) fun data => ?_
  refine orFail_only (by decide) ⟨trivial, fun _ => trivial⟩ fun _ => ?_
  refine orFail_only (by decide) ⟨trivial, fun _ => trivial⟩ fun probe => ?_
  refine refuseIf_only (by decide) fun _ => ?_
  exact refuseIf_only (by decide) fun _ => trivial

section Handlers

variable {u : String} (hu : isSafeID u = true)
include hu

theorem cleanUp_on (l : List Nat) : (cleanUp u l).Only (Call.On u) fun _ => True := by
  unfold cleanUp
  induction l with
  | nil => exact ⟨⟨hu, rfl⟩, fun _ => trivial⟩
  | cons i l ih => exact ⟨⟨hu, under_chunkKey u i⟩, fun _ => ih⟩

theorem assemble_on (ext : String) (l : List Nat) :
    attemptOnly (Call.On u) (fun _ => True) (fun _ => True) (assemble u ext l) :=
  attempt_mono (assemble_reads u ext l) (reads_on hu) (fun _ _ => trivial) fun _ _ => trivial

theorem reqTraceID_on (r : Request) : (reqTraceID r).Only (Call.On u) fun _ => True := by
  unfold reqTraceID
  split
  · trivial
  split
  · trivial
  · exact ⟨⟨hu, trivial⟩, fun _ => trivial⟩

theorem listedChunks_on :
    attemptOnly (Call.On u) (fun _ => True) (fun _ => True) (listedChunks u) := by
  unfold listedChunks
  refine orFail_only trivial ⟨⟨hu, rfl⟩, fun _ => trivial⟩ fun l => ?_
  exact refuseIf_only trivial fun _ => trivial

theorem storeFinal_on {key : String} (hk : Under u key) (data : Bytes) (contentType : String) :
    attemptOnly (Call.On u) (fun _ => True) (fun _ => True) (storeFinal key data contentType) := by
  unfold storeFinal
  refine orFail_only trivial ⟨⟨hu, trivial⟩, fun _ => trivial⟩ fun _ => ?_
  refine orFail_only trivial ⟨⟨hu, trivial⟩, fun _ => trivial⟩ fun _ => ?_
  refine attempt_orGiveUp ⟨⟨hu, hk⟩, fun x => ?_⟩
  cases x with
  | error e => trivial
  | ok _ => trivial

theorem enqueue_on (r : Request) {c : Completion} {key : String} (hk : Under u key)
    (probe : ProbeResult) :
    attemptOnly (Call.On u) (fun _ => True) (fun _ => True) (enqueue r c key probe) := by
  unfold enqueue
  refine lift_only ⟨⟨hu, trivial⟩, fun _ => trivial⟩ fun jobID => ?_
  refine lift_only (reqTraceID_on hu r) fun traceID => ?_
  refine lift_only ⟨⟨hu, trivial⟩, fun _ => trivial⟩ fun stageAttemptID => ?_
  exact orFail_only trivial ⟨⟨hu, hk⟩, fun _ => trivial⟩ fun _ => trivial

end Handlers

theorem storeChunk_on (r : Request) (u : String) :
    (storeChunk r u).Only (Call.On u) (Names u) := by
  unfold storeChunk
  refine only_finish ?_
  refine refuseIf_only names_error fun hs => ?_
  have hu : isSafeID u = true := by simpa using hs
  refine orRefuse_only names_error fun i _ => ?_
  refine orRefuse_only names_error fun buf _ => ?_
  refine refuseIf_only names_error fun _ => ?_
  refine orFail_only names_error ⟨⟨hu, rfl⟩, fun _ => trivial⟩ fun total => ?_
  refine refuseIf_only names_error fun _ => ?_
  refine orFail_only names_error ⟨⟨hu, under_chunkKey u i⟩, fun _ => trivial⟩ fun _ => ?_
  refine orFail_only names_error ⟨⟨hu, rfl⟩, fun _ => trivial⟩ fun _ => ?_
  intro w j n h
  cases h
  rfl

theorem handleComplete_on (tables : Unicode) (r : Request) :
    (handleComplete tables r).Only (Call.On (requestUploadID r)) fun _ => True := by
  unfold handleComplete
  refine only_finish ?_
  cases hacc : acceptComplete tables r with
  | error e => trivial
  | ok c =>
    have hc := acceptComplete_ok hacc
    rw [← hc.uploadID]
    change attemptOnly _ _ _ (listedChunks c.uploadID >>= _)
    refine attempt_bind (listedChunks_on hc.safe) fun l _ => ?_
    refine attempt_bind (assemble_on hc.safe _ _) fun x _ => ?_
    refine attempt_bind (storeFinal_on hc.safe (under_finalKey hc) _ _) fun _ _ => ?_
    refine lift_only (cleanUp_on hc.safe l) fun _ => ?_
    exact enqueue_on hc.safe r (under_finalKey hc) _

theorem handleStatus_on (r : Request) :
    (handleStatus r).Only (Call.On (r.urlParam "id")) fun _ => True := by
  unfold handleStatus
  refine only_finish ?_
  refine refuseIf_only trivial fun hs => ?_
  have hu : isSafeID (r.urlParam "id") = true := by simpa using hs
  refine orFail_only trivial ⟨⟨hu, rfl⟩, fun _ => trivial⟩ fun _ => ?_
  exact orFail_only trivial ⟨⟨hu, rfl⟩, fun _ => trivial⟩ fun _ => trivial

theorem handleDelete_on (r : Request) :
    (handleDelete r).Only (Call.On (r.urlParam "id")) fun _ => True := by
  unfold handleDelete
  refine only_finish ?_
  refine refuseIf_only trivial fun hs => ?_
  have hu : isSafeID (r.urlParam "id") = true := by simpa using hs
  refine orFail_only trivial ⟨⟨hu, rfl⟩, fun _ => trivial⟩ fun l => ?_
  exact lift_only (cleanUp_on hu l) fun _ => trivial

end recast_rules.upload_service
