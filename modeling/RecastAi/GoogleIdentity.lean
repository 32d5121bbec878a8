-- What a sign-in with Google proves. The handler asks of the two responses
-- only that their bodies decode, so it keeps its promise where they do not
-- decode, or where they are what Google sends when it agrees.
import RecastAi.GoogleSignIn

open call_programs recast_rules.transcript recast_rules.models recast_rules.auth
open recast_rules.pipeline (DbError)

namespace recast_rules.sign_in

/-! ## The responses -/

def HttpResponse.Successful (r : HttpResponse) : Prop := 200 ≤ r.status ∧ r.status < 300

/-- The userinfo response decodes to the profile. -/
def Google.Profile (g : Google) (gUser : GoogleUserInfo) : Prop :=
  ∃ r, g.userInfo = .ok r ∧ r.body >>= decodeUserInfo = some gUser

/-- Both responses are successful, and the profile has an id. -/
def Google.Granted (g : Google) (gUser : GoogleUserInfo) : Prop :=
  (∃ r, g.token = .ok r ∧ r.Successful) ∧ (∃ r, g.userInfo = .ok r ∧ r.Successful) ∧
    g.Profile gUser ∧ gUser.id ≠ ""

/-- A request is lost, its body is not what the decoder wants, or the access token is no text
for a header. -/
inductive Google.Broken (g : Google) : Prop where
  | token_lost (e : String) (h : g.token = .error e)
  | token_unread (r : HttpResponse) (h : g.token = .ok r) (hr : r.body >>= decodeAccessToken = none)
  | token_unsent (r : HttpResponse) (t : String) (h : g.token = .ok r)
      (hr : r.body >>= decodeAccessToken = some t) (ht : validHeaderValue ("Bearer " ++ t) = false)
  | profile_lost (e : String) (h : g.userInfo = .error e)
  | profile_unread (r : HttpResponse) (h : g.userInfo = .ok r) (hr : r.body >>= decodeUserInfo = none)

/-! ## The promise -/

/-- The session is that of a row with the id of the profile. The row was there, or it was linked
by its e-mail, or it is new. -/
def SessionFor (cfg : AuthConfig) (gUser : GoogleUserInfo) (users users' : List User)
    (resp : AuthResponse) : Prop :=
  ∃ row ∈ users', row.oauthProvider = some "google" ∧ row.oauthID = some gUser.id ∧
    (row ∈ users ∨ (∃ old ∈ users, old.id = row.id ∧ old.email = gUser.email) ∨
      ∀ old ∈ users, old.id ≠ row.id) ∧
    resp.user.id = row.id ∧
    ∃ now, resp.token = generateToken cfg.jwtSecret row.id row.email row.role cfg.jwtExpiry now

/-- A session needs an identity at Google. Without one the answer is 401, and no row changes. -/
structure NeedsIdentity (cfg : AuthConfig) (g : Google) (users : List User)
    (x : Except (Nat × String) AuthResponse) (users' : List User) : Prop where
  session : ∀ resp, x = .ok resp →
    ∃ gUser, g.Granted gUser ∧ SessionFor cfg gUser users users' resp
  refused : ¬ (∃ gUser, g.Granted gUser) → (∃ msg, x = .error (401, msg)) ∧ users' = users

/-! ## What the calls do -/

/-- Nothing is left out of what the outside may choose. -/
def Anything (_ : List User) (_ : Call) (_ : Outcome) : Prop := True

section Calls

variable {g : Google} {users : List User}

theorem postToken_wp {body : String} {Q : Except String HttpResponse → List User → Prop}
    (h : Q g.token users) : wp (backend g) Anything (ask (.postToken body)) Q users :=
  fun _ _ => h

theorem getUserInfo_wp {authorization : String}
    {Q : Except String HttpResponse → List User → Prop} (h : Q g.userInfo users) :
    wp (backend g) Anything (ask (.getUserInfo authorization)) Q users :=
  fun _ _ => h

theorem findUser_wp {o : Outcome} {p : User → Bool} {Q : Except DbError User → Prop}
    (hfailed : Q (.error .failed)) (hnone : Q (.error .noRows))
    (hok : ∀ user ∈ users, p user = true → Q (.ok user)) : Q (findUser o users p) := by
  unfold findUser
  split
  · exact hfailed
  · cases hfind : users.find? p with
    | none => exact hnone
    | some user => exact hok user (List.mem_of_find?_eq_some hfind) (List.find?_some hfind)

theorem userByOAuth_wp {oauthID : String} {Q : Except DbError User → List User → Prop}
    (hfailed : Q (.error .failed) users) (hnone : Q (.error .noRows) users)
    (hok : ∀ user ∈ users, isGoogles oauthID user = true → Q (.ok user) users) :
    wp (backend g) Anything (ask (.userByOAuth oauthID)) Q users := by
  intro o _
  exact @findUser_wp users o (isGoogles oauthID) (fun x => Q x users) hfailed hnone hok

theorem userByEmail_wp {email : String} {Q : Except DbError User → List User → Prop}
    (hfailed : Q (.error .failed) users) (hnone : Q (.error .noRows) users)
    (hok : ∀ user ∈ users, user.email = email → Q (.ok user) users) :
    wp (backend g) Anything (ask (.userByEmail email)) Q users := by
  intro o _
  apply @findUser_wp users o (·.email = email) (fun x => Q x users) hfailed hnone
  intro user hmem hemail
  exact hok user hmem (of_decide_eq_true hemail)

theorem link_wp {oauthID avatarURL id : String} {now : Nat}
    {Q : Except DbError Unit → List User → Prop} (hfailed : ∀ s, Q (.error .failed) s)
    (hok : Q (.ok ()) (linkUser users oauthID avatarURL now id)) :
    wp (backend g) Anything (ask (.link oauthID avatarURL now id)) Q users := by
  rintro ⟨fails, applied, fresh, tick⟩ _
  cases fails with
  | true => exact hfailed _
  | false => exact hok

theorem insert_wp {user : User} {Q : Except DbError Unit → List User → Prop}
    (hfailed : ∀ s, Q (.error .failed) s)
    (hok : (∀ u ∈ users, u.id ≠ user.id ∧ u.email ≠ user.email) → Q (.ok ()) (users ++ [user])) :
    wp (backend g) Anything (ask (.insert user)) Q users := by
  intro o _
  change Q (insertUser o users user).1 (insertUser o users user).2
  unfold insertUser
  by_cases hany : (users.any fun u => u.id = user.id || u.email = user.email) = true
  · rw [if_pos hany]
    exact hfailed _
  · rw [if_neg hany]
    simp only [List.any_eq_true, not_exists, not_and, Bool.or_eq_true, decide_eq_true_eq,
      not_or] at hany
    obtain ⟨fails, applied, fresh, tick⟩ := o
    cases fails with
    | true => exact hfailed _
    | false => exact hok hany

theorem newUUID_wp {Q : String → List User → Prop} (h : ∀ id, Q id users) :
    wp (backend g) Anything (ask .newUUID) Q users :=
  fun o _ => h o.fresh

theorem clock_wp {Q : Nat → List User → Prop} (h : ∀ now, Q now users) :
    wp (backend g) Anything (ask .clock) Q users :=
  fun o _ => h o.now

end Calls

/-! ## What the handler does -/

section Runs

variable {g : Google} {users : List User}

/-- The exchange fails exactly where the responses are broken. -/
theorem exchange_wp (cfg : AuthConfig) (code : String) :
    wpTry (backend g) Anything (exchangeGoogleCode cfg code)
      (fun _ s => g.Broken ∧ s = users)
      (fun gUser s => (¬ g.Broken ∧ g.Profile gUser) ∧ s = users) users := by
  unfold exchangeGoogleCode
  apply wpTry_bind
  apply wpTry_orGiveUp
  apply postToken_wp
  cases htoken : g.token with
  | error e => exact ⟨.token_lost e htoken, rfl⟩
  | ok r =>
    apply wpTry_bind
    apply wpTry_someOr
    · intro hr
      exact ⟨.token_unread r htoken hr, rfl⟩
    intro t ht
    apply wpTry_bind
    apply wpTry_giveUpIf
    · intro hvalid
      exact ⟨.token_unsent r t htoken ht (by simpa using hvalid), rfl⟩
    intro hvalid
    apply wpTry_bind
    apply wpTry_orGiveUp
    apply getUserInfo_wp
    cases hinfo : g.userInfo with
    | error e => exact ⟨.profile_lost e hinfo, rfl⟩
    | ok r' =>
      apply wpTry_someOr
      · intro hr'
        exact ⟨.profile_unread r' hinfo hr', rfl⟩
      intro gUser hgUser
      refine ⟨⟨?_, r', hinfo, hgUser⟩, rfl⟩
      intro hbroken
      cases hbroken with
      | token_lost e h => simp [htoken] at h
      | token_unread r₁ h hr =>
        rw [htoken, Except.ok.injEq] at h
        subst h
        simp [ht] at hr
      | token_unsent r₁ t₁ h hr hsent =>
        rw [htoken, Except.ok.injEq] at h
        subst h
        rw [ht, Option.some.injEq] at hr
        subst hr
        simp [hsent] at hvalid
      | profile_lost e h => simp [hinfo] at h
      | profile_unread r₁ h hr =>
        rw [hinfo, Except.ok.injEq] at h
        subst h
        simp [hgUser] at hr

/-- The row of the user that the session is made for. -/
def RowFor (gUser : GoogleUserInfo) (users users' : List User) (user : User) : Prop :=
  ∃ row ∈ users', row.oauthProvider = some "google" ∧ row.oauthID = some gUser.id ∧
    (row ∈ users ∨ (∃ old ∈ users, old.id = row.id ∧ old.email = gUser.email) ∨
      ∀ old ∈ users, old.id ≠ row.id) ∧
    user.id = row.id ∧ user.email = row.email ∧ user.role = row.role

theorem found_row {gUser : GoogleUserInfo} {user : User} (hmem : user ∈ users)
    (h : isGoogles gUser.id user = true) : RowFor gUser users users user := by
  unfold isGoogles at h
  simp only [Bool.and_eq_true, decide_eq_true_eq] at h
  exact ⟨user, hmem, h.1, h.2, Or.inl hmem, rfl, rfl, rfl⟩

theorem linked_row {gUser : GoogleUserInfo} {user : User} (now : Nat) (hmem : user ∈ users)
    (h : user.email = gUser.email) :
    RowFor gUser users (linkUser users gUser.id gUser.avatarURL now user.id) user := by
  refine ⟨user.link gUser.id gUser.avatarURL now, ?_, rfl, rfl, ?_, rfl, rfl, rfl⟩
  · unfold linkUser
    apply List.mem_map.mpr
    exact ⟨user, hmem, by simp⟩
  · right
    left
    exact ⟨user, hmem, rfl, h⟩

theorem new_row {gUser : GoogleUserInfo} {user : User} (hgoogle : user.oauthProvider = some "google")
    (hid : user.oauthID = some gUser.id) (h : ∀ u ∈ users, u.id ≠ user.id ∧ u.email ≠ user.email) :
    RowFor gUser users (users ++ [user]) user := by
  refine ⟨user, by simp, hgoogle, hid, ?_, rfl, rfl, rfl⟩
  right
  right
  exact fun old hold => (h old hold).1

theorem userFor_wp (gUser : GoogleUserInfo) :
    wpTry (backend g) Anything (userFor gUser) (fun e _ => e = internalError)
      (fun user s => RowFor gUser users s user) users := by
  unfold userFor
  apply wpTry_bind
  apply wpTry_lift
  apply userByOAuth_wp
  · rfl
  · apply wpTry_bind
    apply wpTry_lift
    apply userByEmail_wp
    · rfl
    · apply wpTry_bind
      apply wpTry_lift
      apply newUUID_wp
      intro id
      apply wpTry_bind
      apply wpTry_lift
      apply clock_wp
      intro createdAt
      apply wpTry_bind
      apply wpTry_lift
      apply clock_wp
      intro updatedAt
      apply wpTry_bind
      apply wpTry_orGiveUp
      apply insert_wp
      · intro s
        rfl
      · exact new_row rfl rfl
    · intro user hmem hemail
      apply wpTry_bind
      apply wpTry_lift
      apply clock_wp
      intro now
      apply wpTry_bind
      apply wpTry_orGiveUp
      apply link_wp
      · intro s
        rfl
      · exact linked_row now hmem hemail
  · intro user hmem hgoogle
    exact found_row hmem hgoogle

/-- How a sign-in ends. -/
inductive Ending (cfg : AuthConfig) (g : Google) (users : List User) :
    Except (Nat × String) AuthResponse → List User → Prop where
  | refused (h : g.Broken) : Ending cfg g users (.error (401, "failed to authenticate with Google")) users
  | failed (h : ¬ g.Broken) (users' : List User) : Ending cfg g users (.error internalError) users'
  | signed (h : ¬ g.Broken) (gUser : GoogleUserInfo) (hprofile : g.Profile gUser)
      (resp : AuthResponse) (users' : List User) (hsession : SessionFor cfg gUser users users' resp) :
      Ending cfg g users (.ok resp) users'

theorem googleAuth_wp (cfg : AuthConfig) {code : String} (hcode : code ≠ "") :
    wp (backend g) Anything (googleAuth cfg (some code)).run (Ending cfg g users) users := by
  have h : wpTry (backend g) Anything (googleAuth cfg (some code))
      (fun e s => Ending cfg g users (.error e) s) (fun resp s => Ending cfg g users (.ok resp) s)
      users := by
    unfold googleAuth
    apply wpTry_bind
    apply wpTry_someOr nofun
    rintro _ ⟨⟩
    apply wpTry_bind
    apply wpTry_giveUpIf
    · intro hempty
      exact absurd (of_decide_eq_true hempty) hcode
    intro _
    apply wpTry_bind
    apply wpTry_orGiveUp
    apply wp_mono (exchange_wp cfg code)
    intro x s hx
    cases x with
    | error e =>
      obtain ⟨hbroken, rfl⟩ := hx
      exact .refused hbroken
    | ok gUser =>
      obtain ⟨⟨hwell, hprofile⟩, rfl⟩ := hx
      apply wpTry_bind
      apply wpTry_mono (userFor_wp gUser)
      · rintro e s rfl
        exact .failed hwell s
      · rintro user s ⟨row, hrow, hgoogle, hid, horigin, huser, hemail, hrole⟩
        apply wpTry_bind
        apply wpTry_lift
        apply clock_wp
        intro now
        apply wpTry_bind
        apply wpTry_lift
        apply clock_wp
        intro later
        apply Ending.signed hwell gUser hprofile
        refine ⟨row, hrow, hgoogle, hid, horigin, huser, now, ?_⟩
        rw [← huser, ← hemail, ← hrole]
        rfl
  refine wp_mono h fun x s hx => ?_
  cases x with
  | error e => exact hx
  | ok resp => exact hx

end Runs

/-! ## The law -/

theorem profile_unique {g : Google} {gUser gUser' : GoogleUserInfo} (h : g.Profile gUser)
    (h' : g.Profile gUser') : gUser = gUser' := by
  obtain ⟨r, hr, hdecode⟩ := h
  obtain ⟨r', hr', hdecode'⟩ := h'
  rw [hr, Except.ok.injEq] at hr'
  subst hr'
  rw [hdecode, Option.some.injEq] at hdecode'
  exact hdecode'

/-- A sign-in keeps its promise exactly where the exchange breaks by itself, or Google grants it. -/
theorem google_sign_in_needs_an_identity_iff (cfg : AuthConfig) (g : Google) (code : String)
    (hcode : code ≠ "") (users users' : List User) (os : List Outcome)
    (x : Except (Nat × String) AuthResponse)
    (hrun : run (backend g) os ((googleAuth cfg (some code)).run, users) = (.done x, users')) :
    NeedsIdentity cfg g users x users' ↔ g.Broken ∨ ∃ gUser, g.Granted gUser := by
  have hmeets : Meets (backend g) Anything os ((googleAuth cfg (some code)).run, users) :=
    meets_only (only_any _) (fun _ _ _ _ => trivial) os users
  have hend := wp_run (googleAuth_wp cfg hcode) hmeets hrun
  constructor
  · intro h
    by_contra hnot
    push Not at hnot
    obtain ⟨hwell, hungranted⟩ := hnot
    have hrefused := h.refused fun ⟨gUser, hg⟩ => hungranted gUser hg
    cases hend with
    | refused hbroken => exact hwell hbroken
    | failed _ =>
      obtain ⟨⟨msg, hmsg⟩, _⟩ := hrefused
      simp [internalError] at hmsg
    | signed _ gUser hprofile resp _ hsession =>
      obtain ⟨⟨msg, hmsg⟩, _⟩ := hrefused
      cases hmsg
  · intro h
    cases hend with
    | refused hbroken => exact ⟨nofun, fun _ => ⟨⟨_, rfl⟩, rfl⟩⟩
    | failed hwell => 
      obtain ⟨gUser, hgranted⟩ := h.resolve_left hwell
      exact ⟨nofun, fun hnot => absurd ⟨gUser, hgranted⟩ hnot⟩
    | signed hwell gUser hprofile resp _ hsession =>
      obtain ⟨gUser', hgranted⟩ := h.resolve_left hwell
      obtain rfl := profile_unique hprofile hgranted.2.2.1
      constructor
      · rintro _ ⟨⟩
        exact ⟨gUser, hgranted, hsession⟩
      · intro hnot
        exact absurd ⟨gUser, hgranted⟩ hnot

/-! ## Two sign-ins -/

def config : AuthConfig := ⟨"secret", 900 * second, 604800 * second, "client", "key"⟩

def outside : List Outcome :=
  List.replicate 10 { fresh := "6f9619ff-8b86-d011-b42d-00c04fc964ff" }

/-- Google refuses the code, and so it refuses the request for the profile. -/
def refusal : Google where
  token := .ok ⟨400, some (.object [(py_text.text "error", goString "invalid_grant")])⟩
  userInfo := .ok ⟨401, some (.object [(py_text.text "error", goString "UNAUTHENTICATED")])⟩

def nobody : User :=
  newUser ⟨"", "", "", ""⟩ "6f9619ff-8b86-d011-b42d-00c04fc964ff" 0 0

/-- A code that Google refuses makes a user without an identity, and signs it in. -/
theorem a_refused_code_signs_in :
    run (backend refusal) outside ((googleAuth config (some "forged")).run, []) =
      (.done (.ok (session config nobody 0 0)), [nobody]) ∧
      ¬ NeedsIdentity config refusal [] (.ok (session config nobody 0 0)) [nobody] := by
  constructor
  · with_unfolding_all rfl
  · intro h
    have hungranted : ¬ ∃ gUser, refusal.Granted gUser := by
      rintro ⟨gUser, ⟨r, hr, hsuccess⟩, _⟩
      unfold refusal at hr
      simp only [Except.ok.injEq] at hr
      subst hr
      exact absurd hsuccess.2 (by decide)
    obtain ⟨msg, hmsg⟩ := (h.refused hungranted).1
    cases hmsg

def consent : Google where
  token := .ok ⟨200, some (.object [(py_text.text "access_token", goString "ya29")])⟩
  userInfo := .ok ⟨200, some (.object [(py_text.text "id", goString "1081"),
    (py_text.text "email", goString "ada@example.com")])⟩

def ada : User :=
  newUser ⟨"1081", "ada@example.com", "", ""⟩ "6f9619ff-8b86-d011-b42d-00c04fc964ff" 0 0

theorem adas_sign_in_needs_her_identity :
    NeedsIdentity config consent [] (.ok (session config ada 0 0)) [ada] := by
  have hrun : run (backend consent) outside ((googleAuth config (some "4/0A")).run, []) =
      (.done (.ok (session config ada 0 0)), [ada]) := by with_unfolding_all rfl
  apply (google_sign_in_needs_an_identity_iff config consent "4/0A" (by decide) [] [ada] outside _
    hrun).mpr
  right
  exact ⟨⟨"1081", "ada@example.com", "", ""⟩, ⟨_, rfl, by decide, by decide⟩,
    ⟨_, rfl, by decide, by decide⟩, ⟨_, rfl, by with_unfolding_all rfl⟩, by decide⟩

end recast_rules.sign_in
