-- The session of the web app (`web/src/lib/api.ts`): one token in the local storage of the browser,
-- which all its tabs read and write, against the checks of the gateway and the upload service.
import Mathlib.Logic.Equiv.List
import RecastAi.EventMachines
import RecastAi.Tokens

open event_machines recast_rules.auth

namespace recast_rules.web_session

/-! ## The services -/

/-- `mint` is what `GenerateToken` writes with `JWT_SECRET` and `JWT_EXPIRY`, and `read` is what the
library makes of a text. -/
structure Services where
  read : String → Option Token
  mint : (userID email role : String) → (now : Int) → String
  secret : String
  jwtExpiry : Int
  read_mint : ∀ userID email role now, read (mint userID email role now) =
    some (generateToken secret userID email role jwtExpiry now)
  mint_ne : ∀ userID email role now, mint userID email role now ≠ ""

/-- The requests of `http`. A `shared` one is a public call. -/
inductive Call where
  | login
  | register
  | authed (route : Route)
  | shared

def Call.publicCall : Call → Bool
  | .shared => true
  | _ => false

inductive Reply where
  | signedIn (token : String)
  | status (n : Nat)

/-- A request on its way, or its reply. -/
structure Request where
  call : Call
  header : String
  reply : Option Reply

/-- What a handler makes of a request that is let through to it. -/
inductive Decision where
  | accept (userID email role : String)
  | refuse
  | respond (status : Nat)

/-- A refused login is a `401`. A handler behind a check has claims, and only the upload service
refuses claims, those without a user id. A user has an id. -/
def Services.answer (s : Services) (now : Int) (r : Request) (decision : Decision) : Option Reply :=
  match r.call, decision with
  | .login, .accept userID email role | .register, .accept userID email role =>
    if userID = "" then none else some (.signedIn (s.mint userID email role now))
  | .login, .refuse => some (.status 401)
  | .login, .respond n | .register, .respond n => if n = 401 then none else some (.status n)
  | .authed route, .respond n =>
    match route.authorize s.read s.secret now r.header with
    | .error (status, _) => some (.status status)
    | .ok claims => if n = 401 ∧ claims.userID ≠ "" then none else some (.status n)
  | .shared, .respond n => some (.status n)
  | _, _ => none

/-! ## The browser -/

structure World where
  now : Int
  stored : Option String
  requests : List Request

/-- `authHeaders`. A service reads a header that is not there as no text. -/
def authHeader (stored : Option String) : String :=
  match stored with
  | none => ""
  | some token => if token = "" then "" else "Bearer " ++ token

/-- What is stored after a reply: `http`, and the pages that sign in. -/
def received (stored : Option String) (call : Call) : Reply → Option String
  | .signedIn token => some token
  | .status n => if n = 401 ∧ call.publicCall = false then none else stored

/-- `signOut` is also the deletion of the account. -/
inductive Event where
  | send (call : Call)
  | handle (i : Nat) (decision : Decision)
  | receive (i : Nat)
  | lose (i : Nat)
  | signOut
  | wait (d : Nat)

def World.handle (s : Services) (w : World) (i : Nat) (decision : Decision) : World :=
  match w.requests[i]? with
  | none => w
  | some r =>
    match r.reply, s.answer w.now r decision with
    | none, some reply => { w with requests := w.requests.set i { r with reply := some reply } }
    | _, _ => w

def World.receive (w : World) (i : Nat) : World :=
  match w.requests[i]? with
  | none => w
  | some r =>
    match r.reply with
    | none => w
    | some reply =>
      { w with stored := received w.stored r.call reply, requests := w.requests.eraseIdx i }

def World.step (s : Services) (w : World) : Event → World
  | .send call =>
    { w with requests := w.requests ++
      [⟨call, if call.publicCall then "" else authHeader w.stored, none⟩] }
  | .handle i decision => w.handle s i decision
  | .receive i => w.receive i
  | .lose i => { w with requests := w.requests.eraseIdx i }
  | .signOut => { w with stored := none }
  | .wait d => { w with now := w.now + d }

/-- The browser from its first visit on. -/
def browse (s : Services) (start : Int) (events : List Event) : World :=
  run (World.step s) ⟨start, none, []⟩ events

/-! ## What is minted -/

/-- A token of a user who signed in at the time `mintedAt`. -/
def Services.Minted (s : Services) (mintedAt : Int) (token : String) : Prop :=
  ∃ userID email role, userID ≠ "" ∧ token = s.mint userID email role mintedAt

theorem splitHeader_bearer (token : String) :
    splitHeader ("Bearer " ++ token) = some ("Bearer", token) := by
  have hchars : ("Bearer " ++ token).toList =
      'B' :: 'e' :: 'a' :: 'r' :: 'e' :: 'r' :: ' ' :: token.toList := by
    rw [String.toList_append]
    rfl
  unfold splitHeader
  rw [hchars]
  change some (String.ofList _, String.ofList token.toList) = _
  rw [String.ofList_toList]
  rfl

theorem bearer_ne (token : String) : "Bearer " ++ token ≠ "" := by
  intro h
  have hchars := congrArg String.toList h
  rw [String.toList_append] at hchars
  exact absurd hchars (by simp)

/-- The check of a header with a token. -/
theorem authorize_bearer (read : String → Option Token) (secret : String) (now : Int)
    {token : String} (hne : token ≠ "") (route : Route) :
    route.authorize read secret now ("Bearer " ++ token) =
      match validateToken read secret now token with
      | none => .error (401, "invalid or expired token")
      | some claims => .ok claims := by
  have hbearer : isBearer "Bearer" = true := by decide
  cases hvalid : validateToken read secret now token <;> cases route <;>
    simp [Route.authorize, jwtAuth, jwtMiddleware, checkHeader, bearer_ne token,
      splitHeader_bearer, hbearer, hne, hvalid]

theorem authorize_missing (read : String → Option Token) (secret : String) (now : Int)
    (route : Route) :
    route.authorize read secret now "" = .error (401, "missing authorization header") := by
  cases route <;> rfl

theorem Services.Minted.ne {s : Services} {mintedAt : Int} {token : String}
    (h : s.Minted mintedAt token) : token ≠ "" := by
  obtain ⟨userID, email, role, -, rfl⟩ := h
  exact s.mint_ne userID email role mintedAt

theorem authorize_good {s : Services} {now mintedAt : Int} {token : String}
    (h : s.Minted mintedAt token) (hgood : Unexpired now s.jwtExpiry mintedAt) (route : Route) :
    ∃ claims, route.authorize s.read s.secret now ("Bearer " ++ token) = .ok claims ∧
      claims.userID ≠ "" := by
  rw [authorize_bearer s.read s.secret now h.ne]
  obtain ⟨userID, email, role, hid, rfl⟩ := h
  rw [@validate_access _ _ now _ _ _ _ _ _ (s.read_mint userID email role mintedAt), if_pos hgood]
  exact ⟨_, rfl, hid⟩

theorem authorize_expired {s : Services} {now mintedAt : Int} {token : String}
    (h : s.Minted mintedAt token) (hbad : ¬ Unexpired now s.jwtExpiry mintedAt) (route : Route) :
    route.authorize s.read s.secret now ("Bearer " ++ token) =
      .error (401, "invalid or expired token") := by
  rw [authorize_bearer s.read s.secret now h.ne]
  obtain ⟨userID, email, role, hid, rfl⟩ := h
  rw [@validate_access _ _ now _ _ _ _ _ _ (s.read_mint userID email role mintedAt), if_neg hbad]

theorem unexpired_earlier {now now' expiry mintedAt : Int} (h : Unexpired now' expiry mintedAt)
    (hle : now ≤ now') : Unexpired now expiry mintedAt :=
  lt_of_le_of_lt hle h

theorem unexpired_later {now expiry mintedAt mintedAt' : Int} (h : Unexpired now expiry mintedAt)
    (hle : numericDate (mintedAt + expiry) ≤ numericDate (mintedAt' + expiry)) :
    Unexpired now expiry mintedAt' := by
  unfold Unexpired at h ⊢
  have hsecond : 0 ≤ second := by decide
  exact lt_of_lt_of_le h (Int.mul_le_mul_of_nonneg_right hle hsecond)

/-! ## The answers -/

theorem answer_signedIn {s : Services} {now : Int} {r : Request} {decision : Decision}
    {token : String} (h : s.answer now r decision = some (.signedIn token)) :
    s.Minted now token ∧ (r.call = .login ∨ r.call = .register) := by
  unfold Services.answer at h
  split at h
  · rename_i userID email role hcall
    split at h
    · cases h
    · rename_i hid
      cases h
      exact ⟨⟨userID, email, role, hid, rfl⟩, .inl hcall⟩
  · rename_i userID email role hcall
    split at h
    · cases h
    · rename_i hid
      cases h
      exact ⟨⟨userID, email, role, hid, rfl⟩, .inr hcall⟩
  · cases h
  · split at h <;> cases h
  · split at h <;> cases h
  · split at h
    · cases h
    · split at h <;> cases h
  · cases h
  · cases h

/-- A check lets a token through that is still good, and nothing behind it answers with a `401`. -/
theorem answer_good {s : Services} {now mintedAt : Int} {r : Request} {route : Route}
    {token : String} (hcall : r.call = .authed route) (hheader : r.header = "Bearer " ++ token)
    (hminted : s.Minted mintedAt token) (hgood : Unexpired now s.jwtExpiry mintedAt)
    {decision : Decision} {reply : Reply} (h : s.answer now r decision = some reply) :
    ∃ n, reply = .status n ∧ n ≠ 401 := by
  obtain ⟨claims, hok, hid⟩ := authorize_good hminted hgood route
  unfold Services.answer at h
  rw [hcall] at h
  cases decision with
  | accept userID email role => cases h
  | refuse => cases h
  | respond n =>
    simp only [hheader, hok] at h
    split at h
    · cases h
    · rename_i hn
      cases h
      exact ⟨n, rfl, fun hbad => hn ⟨hbad, hid⟩⟩

theorem answer_refused {s : Services} {now : Int} {r : Request} {route : Route} {msg : String}
    (hcall : r.call = .authed route)
    (hrefused : route.authorize s.read s.secret now r.header = .error (401, msg)) (n : Nat) :
    s.answer now r (.respond n) = some (.status 401) := by
  unfold Services.answer
  simp only [hcall, hrefused]

/-! ## The steps -/

theorem handle_cases (s : Services) (w : World) (i : Nat) (decision : Decision) :
    w.handle s i decision = w ∨ ∃ r reply, w.requests[i]? = some r ∧ r.reply = none ∧
      s.answer w.now r decision = some reply ∧
      w.handle s i decision =
        { w with requests := w.requests.set i { r with reply := some reply } } := by
  unfold World.handle
  cases hr : w.requests[i]? with
  | none => exact .inl rfl
  | some r =>
    dsimp only
    split
    · rename_i reply hnone hreply
      exact .inr ⟨r, reply, rfl, hnone, hreply, rfl⟩
    · exact .inl rfl

theorem receive_cases (w : World) (i : Nat) :
    w.receive i = w ∨ ∃ r reply, w.requests[i]? = some r ∧ r.reply = some reply ∧
      w.receive i = { w with
        stored := received w.stored r.call reply
        requests := w.requests.eraseIdx i } := by
  unfold World.receive
  cases hr : w.requests[i]? with
  | none => exact .inl rfl
  | some r =>
    dsimp only
    split
    · exact .inl rfl
    · rename_i reply hreply
      exact .inr ⟨r, reply, rfl, hreply, rfl⟩

/-- The requests after a reply. -/
theorem forall_set {p : Request → Prop} {requests : List Request} (h : ∀ r ∈ requests, p r)
    {r : Request} (hr : p r) (i : Nat) : ∀ x ∈ requests.set i r, p x := by
  intro x hx
  rcases List.mem_or_eq_of_mem_set hx with hx | rfl
  · exact h x hx
  · exact hr

theorem forall_erase {p : Request → Prop} {requests : List Request} (h : ∀ r ∈ requests, p r)
    (i : Nat) : ∀ x ∈ requests.eraseIdx i, p x :=
  fun x hx => h x (List.mem_of_mem_eraseIdx hx)

theorem forall_snoc {p : Request → Prop} {requests : List Request} (h : ∀ r ∈ requests, p r)
    {r : Request} (hr : p r) : ∀ x ∈ requests ++ [r], p x := by
  intro x hx
  rcases List.mem_append.mp hx with hx | hx
  · exact h x hx
  · rwa [List.mem_singleton.mp hx]

/-! ## All tokens are minted -/

def Services.Known (s : Services) (token : String) : Prop := ∃ mintedAt, s.Minted mintedAt token

/-- The header has a minted token or none, and so has a reply. -/
structure Plain (s : Services) (r : Request) : Prop where
  header : r.header = "" ∨ ∃ token, r.header = "Bearer " ++ token ∧ s.Known token
  reply : ∀ token, r.reply = some (.signedIn token) → s.Known token

structure Sound (s : Services) (w : World) : Prop where
  stored : ∀ token, w.stored = some token → s.Known token
  requests : ∀ r ∈ w.requests, Plain s r

theorem authHeader_known {s : Services} {stored : Option String}
    (h : ∀ token, stored = some token → s.Known token) :
    authHeader stored = "" ∨ ∃ token, authHeader stored = "Bearer " ++ token ∧ s.Known token := by
  unfold authHeader
  cases stored with
  | none => exact .inl rfl
  | some token =>
    dsimp only
    split
    · exact .inl rfl
    · exact .inr ⟨token, rfl, h token rfl⟩

theorem received_known {s : Services} {stored : Option String} {r : Request} {reply : Reply}
    (h : ∀ token, stored = some token → s.Known token) (hr : Plain s r)
    (hreply : r.reply = some reply) :
    ∀ token, received stored r.call reply = some token → s.Known token := by
  intro token htoken
  cases reply with
  | signedIn other =>
    cases htoken
    exact hr.reply token hreply
  | status n =>
    dsimp only [received] at htoken
    split at htoken
    · cases htoken
    · exact h token htoken

theorem step_sound (s : Services) (w : World) (e : Event) (h : Sound s w) :
    Sound s (w.step s e) := by
  cases e with
  | send call =>
    refine ⟨h.stored, forall_snoc h.requests ⟨?_, fun _ hreply => by cases hreply⟩⟩
    dsimp only
    split
    · exact .inl rfl
    · exact authHeader_known h.stored
  | handle i decision =>
    change Sound s (w.handle s i decision)
    rcases handle_cases s w i decision with hw | ⟨r, reply, hr, -, hreply, hw⟩ <;> rw [hw]
    · exact h
    · have hplain := h.requests r (List.mem_of_getElem? hr)
      have hnew : Plain s { r with reply := some reply } :=
        ⟨hplain.header, fun token htoken => by
          rw [Option.some.inj htoken] at hreply
          exact ⟨w.now, (answer_signedIn hreply).1⟩⟩
      exact ⟨h.stored, forall_set h.requests hnew i⟩
  | receive i =>
    change Sound s (w.receive i)
    rcases receive_cases w i with hw | ⟨r, reply, hr, hreply, hw⟩ <;> rw [hw]
    · exact h
    · exact ⟨received_known h.stored (h.requests r (List.mem_of_getElem? hr)) hreply,
        forall_erase h.requests i⟩
  | lose i => exact ⟨h.stored, forall_erase h.requests i⟩
  | signOut => exact ⟨fun _ htoken => (by cases htoken), h.requests⟩
  | wait d => exact ⟨h.stored, h.requests⟩

theorem browse_sound (s : Services) (start : Int) (events : List Event) :
    Sound s (browse s start events) :=
  run_keeps (step_sound s)
    ⟨fun _ htoken => (by cases htoken), fun _ hr => absurd hr List.not_mem_nil⟩ events

/-! ## What keeps a session -/

section Session

variable (s : Services) (session : String) (mintedAt : Int)

/-- The request cannot end the session before its token expires: it was sent with a token that is
good at least as long, it is public, or its reply is none that ends it. -/
def Harmless (r : Request) : Prop :=
  match r.reply, r.call with
  | some (.signedIn token), _ => token = session
  | some (.status n), call => n = 401 → call.publicCall = true
  | none, .authed _ => ∃ token mintedAt', r.header = "Bearer " ++ token ∧
      s.Minted mintedAt' token ∧
      numericDate (mintedAt + s.jwtExpiry) ≤ numericDate (mintedAt' + s.jwtExpiry)
  | none, call => call.publicCall = true

/-- Nobody signs in or out. -/
def Quiet : Event → Prop
  | .signOut => False
  | .send .login => False
  | .send .register => False
  | _ => True

/-- While its token is good, the session lasts. -/
def Lasts (w : World) : Prop :=
  Unexpired w.now s.jwtExpiry mintedAt →
    w.stored = some session ∧ ∀ r ∈ w.requests, Harmless s session mintedAt r

/-- Nobody is signing in with another token. -/
def NoSignIn (r : Request) : Prop :=
  match r.reply, r.call with
  | some (.signedIn token), _ => token = session
  | none, .login => False
  | none, .register => False
  | _, _ => True

/-- No other token is stored. -/
structure Alone (w : World) : Prop where
  stored : w.stored = some session ∨ w.stored = none
  requests : ∀ r ∈ w.requests, NoSignIn session r

variable {s session mintedAt}

theorem Harmless.noSignIn {r : Request} (h : Harmless s session mintedAt r) :
    NoSignIn session r := by
  unfold Harmless at h
  unfold NoSignIn
  obtain ⟨call, header, reply⟩ := r
  cases reply with
  | some reply =>
    cases reply with
    | signedIn token => exact h
    | status n => trivial
  | none =>
    cases call with
    | login => exact absurd h Bool.false_ne_true
    | register => exact absurd h Bool.false_ne_true
    | authed route => trivial
    | shared => trivial

theorem answer_harmless {w : World} {r : Request} (h : Harmless s session mintedAt r)
    (hnone : r.reply = none) (hgood : Unexpired w.now s.jwtExpiry mintedAt) {decision : Decision}
    {reply : Reply} (hreply : s.answer w.now r decision = some reply) :
    Harmless s session mintedAt { r with reply := some reply } := by
  unfold Harmless at h
  rw [hnone] at h
  cases hcall : r.call with
  | login =>
    rw [hcall] at h
    exact absurd h Bool.false_ne_true
  | register =>
    rw [hcall] at h
    exact absurd h Bool.false_ne_true
  | authed route =>
    rw [hcall] at h
    obtain ⟨token, mintedAt', hheader, hminted, hle⟩ := h
    obtain ⟨n, rfl, hn⟩ := answer_good hcall hheader hminted (unexpired_later hgood hle) hreply
    exact fun hbad => absurd hbad hn
  | shared =>
    unfold Services.answer at hreply
    rw [hcall] at hreply
    cases decision with
    | accept userID email role => cases hreply
    | refuse => cases hreply
    | respond n =>
      cases hreply
      exact fun _ => rfl

theorem received_harmless {r : Request} (h : Harmless s session mintedAt r) {reply : Reply}
    (hreply : r.reply = some reply) :
    received (some session) r.call reply = some session := by
  unfold Harmless at h
  rw [hreply] at h
  cases reply with
  | signedIn token => exact congrArg some h
  | status n =>
    dsimp only [received]
    rw [if_neg]
    rintro ⟨hn, hprivate⟩
    rw [h hn] at hprivate
    cases hprivate

theorem step_lasts (hminted : s.Minted mintedAt session) (w : World) (e : Event) (hquiet : Quiet e)
    (h : Lasts s session mintedAt w) : Lasts s session mintedAt (w.step s e) := by
  cases e with
  | send call =>
    intro hgood
    obtain ⟨hstored, hrequests⟩ := h hgood
    refine ⟨hstored, forall_snoc hrequests ?_⟩
    cases call with
    | login => exact hquiet.elim
    | register => exact hquiet.elim
    | authed route =>
      refine ⟨session, mintedAt, ?_, hminted, le_rfl⟩
      change authHeader w.stored = _
      rw [hstored]
      exact if_neg hminted.ne
    | shared => rfl
  | handle i decision =>
    change Lasts s session mintedAt (w.handle s i decision)
    rcases handle_cases s w i decision with hw | ⟨r, reply, hr, hnone, hreply, hw⟩ <;> rw [hw]
    · exact h
    · intro hgood
      obtain ⟨hstored, hrequests⟩ := h hgood
      have hold := hrequests r (List.mem_of_getElem? hr)
      exact ⟨hstored, forall_set hrequests (answer_harmless hold hnone hgood hreply) i⟩
  | receive i =>
    change Lasts s session mintedAt (w.receive i)
    rcases receive_cases w i with hw | ⟨r, reply, hr, hreply, hw⟩ <;> rw [hw]
    · exact h
    · intro hgood
      obtain ⟨hstored, hrequests⟩ := h hgood
      refine ⟨?_, forall_erase hrequests i⟩
      dsimp only
      rw [hstored]
      exact received_harmless (hrequests r (List.mem_of_getElem? hr)) hreply
  | lose i =>
    intro hgood
    obtain ⟨hstored, hrequests⟩ := h hgood
    exact ⟨hstored, forall_erase hrequests i⟩
  | signOut => exact hquiet.elim
  | wait d =>
    intro hgood
    have hle : w.now ≤ w.now + d := by omega
    exact h (unexpired_earlier hgood hle)

theorem received_alone {stored : Option String} (hstored : stored = some session ∨ stored = none)
    {r : Request} (h : NoSignIn session r) {reply : Reply} (hreply : r.reply = some reply) :
    received stored r.call reply = some session ∨ received stored r.call reply = none := by
  unfold NoSignIn at h
  rw [hreply] at h
  cases reply with
  | signedIn token => exact .inl (congrArg some h)
  | status n =>
    dsimp only [received]
    split
    · exact .inr rfl
    · exact hstored

theorem answer_alone {r : Request} (h : NoSignIn session r) (hnone : r.reply = none) {now : Int}
    {decision : Decision} {reply : Reply} (hreply : s.answer now r decision = some reply) :
    NoSignIn session { r with reply := some reply } := by
  cases reply with
  | signedIn token =>
    unfold NoSignIn at h
    rw [hnone] at h
    rcases (answer_signedIn hreply).2 with hcall | hcall <;> rw [hcall] at h <;> exact h.elim
  | status n => trivial

theorem step_alone (w : World) (e : Event) (hquiet : Quiet e) (h : Alone session w) :
    Alone session (w.step s e) := by
  cases e with
  | send call =>
    refine ⟨h.stored, forall_snoc h.requests ?_⟩
    cases call with
    | login => exact hquiet.elim
    | register => exact hquiet.elim
    | authed route => trivial
    | shared => trivial
  | handle i decision =>
    change Alone session (w.handle s i decision)
    rcases handle_cases s w i decision with hw | ⟨r, reply, hr, hnone, hreply, hw⟩ <;> rw [hw]
    · exact h
    · have hold := h.requests r (List.mem_of_getElem? hr)
      exact ⟨h.stored, forall_set h.requests (answer_alone hold hnone hreply) i⟩
  | receive i =>
    change Alone session (w.receive i)
    rcases receive_cases w i with hw | ⟨r, reply, hr, hreply, hw⟩ <;> rw [hw]
    · exact h
    · exact ⟨received_alone h.stored (h.requests r (List.mem_of_getElem? hr)) hreply,
        forall_erase h.requests i⟩
  | lose i => exact ⟨h.stored, forall_erase h.requests i⟩
  | signOut => exact hquiet.elim
  | wait d => exact ⟨h.stored, h.requests⟩

end Session

/-! ## How a session ends -/

section Ends

variable {s : Services} {w : World} {i : Nat} {r : Request}

/-- A request is answered and the reply arrives. -/
theorem answered (hr : w.requests[i]? = some r) (hnone : r.reply = none) {decision : Decision}
    {reply : Reply} (hreply : s.answer w.now r decision = some reply) :
    run (World.step s) w [.handle i decision, .receive i] =
      { w with
        stored := received w.stored r.call reply
        requests := (w.requests.set i { r with reply := some reply }).eraseIdx i } := by
  have hlt : i < w.requests.length := (List.getElem?_eq_some_iff.mp hr).1
  have hhandle : w.handle s i decision =
      { w with requests := w.requests.set i { r with reply := some reply } } := by
    simp only [World.handle, hr, hnone, hreply]
  change (w.handle s i decision).receive i = _
  rw [hhandle]
  simp only [World.receive, List.getElem?_set_self hlt]

/-- A request that is sent with a token that is not good, or with none, ends the session. -/
theorem ends_session (w : World) (hstored : w.stored = none ∨ ∃ token mintedAt,
      w.stored = some token ∧ s.Minted mintedAt token ∧ ¬ Unexpired w.now s.jwtExpiry mintedAt)
    (route : Route) (n : Nat) :
    (run (World.step s) w [.send (.authed route), .handle w.requests.length (.respond n),
      .receive w.requests.length]).stored = none := by
  have hrefused : ∃ msg, route.authorize s.read s.secret w.now (authHeader w.stored) =
      .error (401, msg) := by
    rcases hstored with hnone | ⟨token, mintedAt, hsome, hminted, hbad⟩
    · rw [hnone]
      exact ⟨_, authorize_missing s.read s.secret w.now route⟩
    · rw [hsome, show authHeader (some token) = "Bearer " ++ token from if_neg hminted.ne]
      exact ⟨_, authorize_expired hminted hbad route⟩
  obtain ⟨msg, hrefused⟩ := hrefused
  have hsent : (w.requests ++ [⟨.authed route, authHeader w.stored, none⟩])[w.requests.length]? =
      some ⟨.authed route, authHeader w.stored, none⟩ := List.getElem?_concat_length
  have hanswer : s.answer w.now ⟨.authed route, authHeader w.stored, none⟩ (.respond n) =
      some (.status 401) := answer_refused rfl hrefused n
  change (run (World.step s) (w.step s (.send (.authed route))) _).stored = none
  rw [answered (w := w.step s (.send (.authed route))) hsent rfl hanswer]
  rfl

end Ends

/-! ## The law -/

section Law

variable {s : Services} {session : String} {mintedAt : Int} {w : World}

theorem minted_apart {mintedAt' : Int} {email role : String} :
    s.mint "ada" email role mintedAt' ≠ s.mint "bob" email role mintedAt' := by
  intro h
  have hread := s.read_mint "ada" email role mintedAt'
  rw [h, s.read_mint, Option.some.injEq] at hread
  have hclaims := congrArg (fun t => Claims.decode t.claims) hread
  simp only [generateToken, decode_access, Option.some.injEq, Claims.mk.injEq] at hclaims
  exact absurd hclaims.2.1 (by decide)

/-- There is a time when the later one of two tokens is good and the other one is not. -/
theorem expires_first {now expiry mintedAt' : Int} (hgood : Unexpired now expiry mintedAt)
    (hlater : numericDate (mintedAt' + expiry) < numericDate (mintedAt + expiry)) :
    ∃ d : Nat, Unexpired (now + d) expiry mintedAt ∧ ¬ Unexpired (now + d) expiry mintedAt' := by
  have hdates := Int.mul_lt_mul_of_pos_right hlater (show 0 < second by decide)
  unfold Unexpired at hgood ⊢
  generalize numericDate (mintedAt + expiry) * second = later at hdates hgood ⊢
  generalize numericDate (mintedAt' + expiry) * second = first at hdates ⊢
  exact ⟨(first - now).toNat, by omega, by omega⟩

/-- The session stays whatever follows, while its token is good and nobody signs in or out. -/
def Stays (s : Services) (session : String) (mintedAt : Int) (w : World) : Prop :=
  ∀ after, (∀ e ∈ after, Quiet e) →
    Unexpired (run (World.step s) w after).now s.jwtExpiry mintedAt →
    (run (World.step s) w after).stored = some session

section Stays

variable {call : Call} {header : String} (h : Stays s session mintedAt w) (i : Nat)

include h

/-- A reply on its way leaves the session. -/
theorem Stays.of_reply {reply : Reply} (hr : w.requests[i]? = some ⟨call, header, some reply⟩)
    (hgood : Unexpired w.now s.jwtExpiry mintedAt) :
    received w.stored call reply = some session := by
  have hstays := h [.receive i] (fun e he => by rw [List.mem_singleton.mp he]; trivial)
  have hreceive : run (World.step s) w [.receive i] =
      { w with
        stored := received w.stored call reply
        requests := w.requests.eraseIdx i } := by
    change w.receive i = _
    simp only [World.receive, hr]
  rw [hreceive] at hstays
  exact hstays hgood

/-- And so does every reply to a request that is asked later. -/
theorem Stays.of_answer (hr : w.requests[i]? = some ⟨call, header, none⟩) (d : Nat)
    (decision : Decision) {reply : Reply} (hgood : Unexpired (w.now + d) s.jwtExpiry mintedAt)
    (hreply : s.answer (w.now + d) ⟨call, header, none⟩ decision = some reply) :
    received w.stored call reply = some session := by
  have hstays := h [.wait d, .handle i decision, .receive i] (fun e he => by
    simp only [List.mem_cons, List.not_mem_nil, or_false] at he
    rcases he with rfl | rfl | rfl <;> trivial)
  have hrun : run (World.step s) w [.wait d, .handle i decision, .receive i] = _ :=
    answered (w := w.step s (.wait d)) hr rfl hreply
  rw [hrun] at hstays
  exact hstays hgood

end Stays

/-- What may end a session does end it in some run. -/
theorem harmless_of_stays (hsound : Sound s w) (hgood : Unexpired w.now s.jwtExpiry mintedAt)
    (hstays : Stays s session mintedAt w) {r : Request} (hmem : r ∈ w.requests) :
    Harmless s session mintedAt r := by
  obtain ⟨i, hr⟩ := List.mem_iff_getElem?.mp hmem
  obtain ⟨call, header, reply⟩ := r
  cases reply with
  | some reply =>
    have hstored := hstays.of_reply i hr hgood
    cases reply with
    | signedIn token => exact Option.some.inj hstored
    | status n =>
      intro hn
      by_contra hprivate
      dsimp only [received] at hstored
      rw [if_pos ⟨hn, Bool.eq_false_iff.mpr hprivate⟩] at hstored
      cases hstored
  | none =>
    have hanswered := hstays.of_answer i hr
    have hnow : Unexpired (w.now + (0 : Nat)) s.jwtExpiry mintedAt := by
      rwa [Nat.cast_zero, add_zero]
    cases call with
    | login =>
      have hrefused : received w.stored .login (.status 401) = _ := hanswered 0 .refuse hnow rfl
      cases hrefused
    | register =>
      have hada := hanswered 0 (.accept "ada" "" "") hnow rfl
      have hbob := hanswered 0 (.accept "bob" "" "") hnow rfl
      exact absurd (Option.some.inj (hada.trans hbob.symm)) minted_apart
    | shared => rfl
    | authed route =>
      rcases (hsound.requests _ hmem).header with hmissing | ⟨token, hheader, mintedAt', hminted⟩
      · dsimp only at hmissing
        have hrefused := authorize_missing s.read s.secret (w.now + (0 : Nat)) route
        rw [← hmissing] at hrefused
        cases hanswered 0 (.respond 200) hnow (answer_refused rfl hrefused 200)
      · refine ⟨token, mintedAt', hheader, hminted, ?_⟩
        by_contra hlater
        rw [not_le] at hlater
        -- the other token expires first
        obtain ⟨d, hstill, hbad⟩ := expires_first hgood hlater
        have hrefused := authorize_expired hminted hbad route
        dsimp only at hheader
        rw [← hheader] at hrefused
        cases hanswered d (.respond 200) hstill (answer_refused rfl hrefused 200)

theorem browse_append (s : Services) (start : Int) (before after : List Event) :
    browse s start (before ++ after) = run (World.step s) (browse s start before) after :=
  run_append _ before after

end Law

/-! ## A session of Ada -/

def code (t : String) : List Nat := t.toList.map Char.toNat

def uncode (cs : List Nat) : String := String.ofList (cs.map Char.ofNat)

theorem uncode_code (t : String) : uncode (code t) = t := by
  unfold uncode code
  rw [List.map_map, show Char.ofNat ∘ Char.toNat = id from funext Char.ofNat_toNat, List.map_id,
    String.ofList_toList]

/-- A token is as long as the number of its claims says. -/
def adasServices : Services where
  read t := (Encodable.decode (t.length - 1) :
      Option (List Nat × List Nat × List Nat × Int)).map fun claims =>
    generateToken "secret" (uncode claims.1) (uncode claims.2.1) (uncode claims.2.2.1)
      (900 * second) claims.2.2.2
  mint userID email role now :=
    String.ofList (List.replicate (Encodable.encode (code userID, code email, code role, now) + 1) 'x')
  secret := "secret"
  jwtExpiry := 900 * second
  read_mint userID email role now := by
    rw [String.length_ofList, List.length_replicate, Nat.add_sub_cancel, Encodable.encodek]
    simp only [Option.map_some, uncode_code]
  mint_ne userID email role now h := by
    have hlength := congrArg String.length h
    rw [String.length_ofList, List.length_replicate] at hlength
    exact absurd hlength (Nat.succ_ne_zero _)

def adasToken : String := adasServices.mint "ada" "ada@example.com" "user" 0

def adasSignIn : List Event :=
  [.send .login, .handle 0 (.accept "ada" "ada@example.com" "user"), .receive 0]

theorem ada_is_signed_in : browse adasServices 0 adasSignIn = ⟨0, some adasToken, []⟩ := rfl

end recast_rules.web_session
