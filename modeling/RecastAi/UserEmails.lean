-- The e-mails of the table of users. `Register` and `Login` normalise what they
-- are given; a sign-in with Google takes the e-mail of the profile as it is.
import RecastAi.Accounts
import RecastAi.GoogleIdentity
import RecastAi.Histories

open call_programs go_text recast_rules.transcript recast_rules.models recast_rules.auth
open recast_rules.pipeline (DbError)

namespace recast_rules.sign_in

/-! ## The normal form -/

def InNormalForm (email : String) : Prop := normalEmail email = email

instance (email : String) : Decidable (InNormalForm email) := inferInstanceAs (Decidable (_ = _))

/-- What is left of a lower-case text has no other lower-case form. -/
theorem toLower_trimSpace {s : String} (h : toLower s = s) : toLower (trimSpace s) = trimSpace s := by
  have hfixed : ∀ c ∈ s.toList, lowerChar c = c := by
    have hmap : s.toList.map lowerChar = s.toList := by
      have htext := congrArg String.toList h
      unfold toLower at htext
      rwa [String.toList_ofList] at htext
    intro c hc
    obtain ⟨i, hi, rfl⟩ := List.getElem_of_mem hc
    have hat := congrArg (fun cs => cs[i]?) hmap
    simpa [hi] using hat
  unfold trimSpace toLower
  rw [String.toList_ofList]
  congr 1
  have hsub : ∀ c ∈ (s.toList.dropWhile isSpace).rdropWhile isSpace, c ∈ s.toList := by
    intro c hc
    exact (List.dropWhile_sublist isSpace).subset ((List.rdropWhile_prefix _ _).subset hc)
  have hsame : ((s.toList.dropWhile isSpace).rdropWhile isSpace).map lowerChar =
      ((s.toList.dropWhile isSpace).rdropWhile isSpace).map id :=
    List.map_congr_left fun c hc => hfixed c (hsub c hc)
  rw [hsame, List.map_id]

theorem normalEmail_normal (email : String) : InNormalForm (normalEmail email) := by
  unfold InNormalForm normalEmail
  rw [toLower_trimSpace (toLower_toLower email), trimSpace_trimSpace]

/-- Each e-mail is its own normal form. So no two accounts have one normal form, and a login finds
the account of every e-mail. -/
structure EmailsNormal (users : List User) : Prop where
  normal : ∀ u ∈ users, InNormalForm u.email
  apart : ∀ u ∈ users, ∀ v ∈ users, normalEmail u.email = normalEmail v.email → u = v
  found : ∀ u ∈ users, ∀ email, normalEmail email = normalEmail u.email →
    findUser {} users (·.email = normalEmail email) = .ok u

/-- What the table keeps. -/
structure Tidy (users : List User) : Prop where
  normal : ∀ u ∈ users, InNormalForm u.email
  unique : (users.map (·.email)).Nodup

theorem find_email {users : List User} (h : (users.map (·.email)).Nodup) {u : User} (hu : u ∈ users) :
    users.find? (·.email = u.email) = some u := by
  cases hfind : users.find? (·.email = u.email) with
  | none =>
    have hnone := List.find?_eq_none.mp hfind u hu
    simp at hnone
  | some v =>
    have hemail := List.find?_some hfind
    simp only [decide_eq_true_eq] at hemail
    rw [List.inj_on_of_nodup_map h (List.mem_of_find?_eq_some hfind) hu hemail]

theorem Tidy.emails {users : List User} (h : Tidy users) : EmailsNormal users where
  normal := h.normal
  apart := by
    intro u hu v hv hsame
    rw [h.normal u hu, h.normal v hv] at hsame
    exact List.inj_on_of_nodup_map h.unique hu hv hsame
  found := by
    intro u hu email hsame
    unfold findUser
    rw [hsame, h.normal u hu, find_email h.unique hu]
    rfl

/-! ## One step -/

/-- The row of an insert is in normal form. -/
def InsertsNormal (c : Call) : Prop := ∀ user, c = .insert user → InNormalForm user.email

theorem tidy_insert {o : Outcome} {users : List User} {user : User} (h : Tidy users)
    (hnormal : InNormalForm user.email) : Tidy (insertUser o users user).2 := by
  unfold insertUser
  split
  · exact h
  · rename_i hnew
    dsimp only
    split
    · simp only [List.any_eq_true, Bool.or_eq_true, decide_eq_true_eq, not_exists, not_and,
        not_or] at hnew
      constructor
      · intro u hu
        rcases List.mem_append.mp hu with hu | hu
        · exact h.normal u hu
        · rw [List.mem_singleton.mp hu]
          exact hnormal
      · rw [List.map_append, List.nodup_append]
        refine ⟨h.unique, List.nodup_singleton _, ?_⟩
        intro a ha b hb hsame
        obtain ⟨u, hu, rfl⟩ := List.mem_map.mp ha
        rw [List.map_singleton, List.mem_singleton] at hb
        exact (hnew u hu).2 (hsame.trans hb)
    · exact h

theorem linkUser_emails (users : List User) (oauthID avatarURL : String) (now : Nat) (id : String) :
    (linkUser users oauthID avatarURL now id).map (·.email) = users.map (·.email) := by
  unfold linkUser
  rw [List.map_map]
  apply List.map_congr_left
  intro u _
  simp only [Function.comp_apply]
  split <;> rfl

theorem tidy_of_emails {users users' : List User} (h : Tidy users)
    (hsame : users'.map (·.email) = users.map (·.email)) : Tidy users' := by
  constructor
  · intro u hu
    have hmem : u.email ∈ users.map (·.email) := by
      rw [← hsame]
      exact List.mem_map_of_mem hu
    obtain ⟨v, hv, hemail⟩ := List.mem_map.mp hmem
    rw [← hemail]
    exact h.normal v hv
  · rw [hsame]
    exact h.unique

theorem tidy_answer {g : Google} {o : Outcome} {users : List User} {c : Call}
    (hc : InsertsNormal c) (h : Tidy users) : Tidy (answerCall g o users c).2 := by
  cases c with
  | link oauthID avatarURL now id =>
    unfold answerCall
    dsimp only
    split
    · exact tidy_of_emails h (linkUser_emails users oauthID avatarURL now id)
    · exact h
  | insert user => exact tidy_insert h (hc user rfl)
  | _ => exact h

/-! ## What the handlers insert -/

/-- The profile came back from Google. -/
def Profiled (h : List (Event Call Answer)) (gUser : GoogleUserInfo) : Prop :=
  ∃ i authorization r, (⟨i, .getUserInfo authorization, .ok r⟩ : Event Call Answer) ∈ h ∧
    r.body >>= decodeUserInfo = some gUser

/-- An insert has a normal e-mail, or that of a profile. -/
def FromProfile (h : List (Event Call Answer)) (c : Call) : Prop :=
  ∀ user, c = .insert user →
    InNormalForm user.email ∨ ∃ gUser, Profiled h gUser ∧ user.email = gUser.email

theorem Profiled.cons {h : List (Event Call Answer)} {gUser : GoogleUserInfo}
    (hprofile : Profiled h gUser) (e : Event Call Answer) : Profiled (e :: h) gUser := by
  obtain ⟨i, authorization, r, hmem, hdecode⟩ := hprofile
  exact ⟨i, authorization, r, List.mem_cons_of_mem _ hmem, hdecode⟩

section Handlers

variable {i : Nat} {h : List (Event Call Answer)} {α β ε : Type}

abbrev Follow (i : Nat) (h : List (Event Call Answer)) {α : Type} (p : Handler α) : Prop :=
  followsTry i FromProfile (fun _ _ => True) (fun _ _ => True) h p

/-- A call that inserts nothing. -/
theorem fromProfile_other {c : Call} (hc : ∀ user, c ≠ .insert user) : FromProfile h c :=
  fun user huser => absurd huser (hc user)

theorem follow_ask {c : Call} {f : Answer c → Handler β} (hc : FromProfile h c)
    (hf : ∀ x, Follow i (⟨i, c, x⟩ :: h) (f x)) : Follow i h (ExceptT.lift (ask c) >>= f) :=
  followsTry_bind (followsTry_lift ⟨hc, hf⟩)

theorem follow_must {p : Prog Call Answer (Except ε α)} {r : ε → Nat × String} {f : α → Handler β}
    (hp : p.Follows i FromProfile (fun x h => ∀ a, x = .ok a → Follow i h (f a)) h) :
    Follow i h (p.orGiveUp r >>= f) := by
  apply followsTry_bind
  apply followsTry_orGiveUp
  refine follows_mono hp fun x h hx => ?_
  cases x with
  | error e => trivial
  | ok a => exact hx a rfl

theorem follow_someOr {x : Option α} {r : Nat × String} {f : α → Handler β}
    (hf : ∀ a, Follow i h (f a)) : Follow i h (someOr x r >>= f) :=
  followsTry_bind (followsTry_someOr trivial fun a _ => hf a)

theorem follow_giveUpIf {c : Bool} {r : Nat × String} {f : Unit → Handler β}
    (hf : Follow i h (f ())) : Follow i h (giveUpIf c r >>= f) :=
  followsTry_bind (followsTry_giveUpIf trivial fun _ => hf)

theorem signIn_follow (cfg : AuthConfig) (user : User) : Follow i h (signIn cfg user) :=
  follow_ask (fromProfile_other nofun) fun _ => follow_ask (fromProfile_other nofun) fun _ => trivial

theorem register_follow (cfg : AuthConfig) (req : Option RegisterRequest) :
    Follow i h (register cfg req) := by
  unfold register
  apply follow_someOr
  intro req
  dsimp only
  generalize normalEmail req.email = email
  apply follow_giveUpIf
  apply follow_giveUpIf
  apply follow_must
  refine ⟨fromProfile_other nofun, fun _ taken _ => ?_⟩
  apply follow_giveUpIf
  apply follow_must
  refine ⟨fromProfile_other nofun, fun _ hash _ => ?_⟩
  refine follow_ask (fromProfile_other nofun) fun id => ?_
  refine follow_ask (fromProfile_other nofun) fun createdAt => ?_
  refine follow_ask (fromProfile_other nofun) fun updatedAt => ?_
  apply follow_must
  refine ⟨?_, fun _ _ _ => signIn_follow cfg _⟩
  rintro _ ⟨⟩
  exact Or.inl (normalEmail_normal req.email)

theorem login_follow (cfg : AuthConfig) (req : Option LoginRequest) :
    Follow i h (login cfg req) := by
  unfold login
  apply follow_someOr
  intro req
  dsimp only
  generalize normalEmail req.email = email
  apply follow_giveUpIf
  apply follow_must
  refine ⟨fromProfile_other nofun, fun _ user _ => ?_⟩
  apply follow_someOr
  intro hash
  apply follow_must
  exact ⟨fromProfile_other nofun, fun _ _ _ => signIn_follow cfg user⟩

theorem refresh_follow (read : String → Option Token) (cfg : AuthConfig) (token : Option String) :
    Follow i h (refresh read cfg token) := by
  unfold refresh
  apply follow_someOr
  intro token
  apply follow_giveUpIf
  refine follow_ask (fromProfile_other nofun) fun now => ?_
  apply follow_someOr
  intro userID
  apply follow_must
  exact ⟨fromProfile_other nofun, fun _ user _ => signIn_follow cfg user⟩

/-- The exchange ends with a profile that came back. -/
theorem exchange_follow (cfg : AuthConfig) (code : String) :
    followsTry i FromProfile (fun _ _ => True) (fun gUser h => Profiled h gUser) h
      (exchangeGoogleCode cfg code) := by
  unfold exchangeGoogleCode
  apply followsTry_bind
  apply followsTry_orGiveUp
  refine ⟨fromProfile_other nofun, fun x => ?_⟩
  cases x with
  | error e => trivial
  | ok resp =>
    apply followsTry_bind
    apply followsTry_someOr trivial
    intro accessToken _
    apply followsTry_bind
    apply followsTry_giveUpIf trivial
    intro _
    apply followsTry_bind
    apply followsTry_orGiveUp
    refine ⟨fromProfile_other nofun, fun x => ?_⟩
    cases x with
    | error e => trivial
    | ok uiResp =>
      apply followsTry_someOr trivial
      intro gUser hdecode
      exact ⟨i, "Bearer " ++ accessToken, uiResp, List.mem_cons_self, hdecode⟩

theorem userFor_follow {gUser : GoogleUserInfo} (hprofile : Profiled h gUser) :
    Follow i h (userFor gUser) := by
  unfold userFor
  refine follow_ask (fromProfile_other nofun) fun x => ?_
  change Except DbError User at x
  rcases x with (_ | _) | user
  · -- no user of this profile
    refine follow_ask (fromProfile_other nofun) fun x => ?_
    change Except DbError User at x
    rcases x with (_ | _) | user
    · -- and none of this e-mail
      refine follow_ask (fromProfile_other nofun) fun id => ?_
      refine follow_ask (fromProfile_other nofun) fun createdAt => ?_
      refine follow_ask (fromProfile_other nofun) fun updatedAt => ?_
      apply follow_must
      refine ⟨?_, fun _ _ _ => trivial⟩
      rintro _ ⟨⟩
      right
      exact ⟨gUser, ((((hprofile.cons _).cons _).cons _).cons _).cons _, rfl⟩
    · trivial
    · refine follow_ask (fromProfile_other nofun) fun now => ?_
      apply follow_must
      exact ⟨fromProfile_other nofun, fun _ _ _ => trivial⟩
  · trivial
  · trivial

theorem googleAuth_follow (cfg : AuthConfig) (code : Option String) :
    Follow i h (googleAuth cfg code) := by
  unfold googleAuth
  apply follow_someOr
  intro code
  apply follow_giveUpIf
  apply follow_must
  refine follows_mono (exchange_follow cfg code) ?_
  rintro _ h hprofile gUser rfl
  apply followsTry_bind
  refine follows_mono (userFor_follow hprofile) fun x h _ => ?_
  cases x with
  | error e => trivial
  | ok user =>
    exact signIn_follow cfg user

theorem handle_follow (read : String → Option Token) (cfg : AuthConfig) (req : Request) :
    Follow i h (req.handle read cfg) := by
  cases req with
  | register req => exact register_follow cfg req
  | login req => exact login_follow cfg req
  | refresh token => exact refresh_follow read cfg token
  | google code => exact googleAuth_follow cfg code

end Handlers

/-! ## The law -/

/-- Requests at once, on an empty table. -/
def atOnce (read : String → Option Token) (cfg : AuthConfig) (requests : List Request) :
    Config Call Answer (List User) (Except (Nat × String) AuthResponse) :=
  ⟨⟨[], []⟩, requests.map fun req => (req.handle read cfg).run⟩

/-- Where a profile makes an account, its e-mail is in normal form. -/
def MakesNormal (s : Shot Call Answer (List User)) (i : Nat) (c : Call) (_ : Google × Outcome) :
    Prop :=
  ∀ user, c = .insert user → ∀ gUser, Profiled (s.own i) gUser → InNormalForm gUser.email

/-- While Google gives the e-mails of new accounts in normal form, the table is tidy. -/
theorem emails_are_in_normal_form_while (read : String → Option Token) (cfg : AuthConfig)
    (requests : List Request) (picks : List (Nat × (Google × Outcome)))
    (hmakes : Allowed accounts MakesNormal picks (atOnce read cfg requests)) :
    EmailsNormal (schedule accounts picks (atOnce read cfg requests)).shot.state := by
  have hfollow : AllFollow (fun _ => FromProfile) (fun _ _ _ => True)
      (atOnce read cfg requests) :=
    allFollow_map fun _ req _ => follows_mono (handle_follow read cfg req) fun _ _ _ => trivial
  have hstep : ∀ (s : Shot Call Answer (List User)) i c o, MakesNormal s i c o →
      FromProfile (s.own i) c → Tidy s.state → Tidy (s.after accounts i c o).state := by
    intro s i c o hmakes hc htidy
    refine tidy_answer (fun user huser => ?_) htidy
    rcases hc user huser with hnormal | ⟨gUser, hprofile, hemail⟩
    · exact hnormal
    · rw [hemail]
      exact hmakes user huser gUser hprofile
  have hempty : Tidy [] := ⟨nofun, List.nodup_nil⟩
  exact (invariant_along (I := fun s => Tidy s.state) hstep hfollow hempty hmakes).emails

/-! ## Two people -/

/-- The profile that Google sends for an e-mail. -/
def grants (email : String) : Google where
  token := consent.token
  userInfo := .ok ⟨200, some (.object [(py_text.text "id", goString "1081"),
    (py_text.text "email", goString email)])⟩

def noTokens (_ : String) : Option Token := none

/-- A sign-in with Google, and then a registration. -/
def bothWays (email : String) : List (Nat × (Google × Outcome)) :=
  List.replicate 10 (0, grants email, { fresh := "6f9619ff-8b86-d011-b42d-00c04fc964ff" }) ++
    List.replicate 8 (1, grants email, { fresh := "7c9e6679-7425-40de-944b-e07fc1f90ae7" })

def adasRequests : List Request :=
  [.google (some "4/0A"), .register (some ⟨"ada@example.com", "correct horse", "Ada"⟩)]

theorem bothWays_grants (email : String) : ∀ pick ∈ bothWays email, pick.2.1 = grants email := by
  intro pick hpick
  unfold bothWays at hpick
  rcases List.mem_append.mp hpick with h | h <;> rw [List.eq_of_mem_replicate h]

/-- Only what Google answered is in the log. -/
def OnlyGrants (email : String) (s : Shot Call Answer (List User)) : Prop :=
  ∀ i authorization x, (⟨i, .getUserInfo authorization, x⟩ : Event Call Answer) ∈ s.log →
    x = (grants email).userInfo

theorem onlyGrants_after {email : String} {s : Shot Call Answer (List User)} {i : Nat} {c : Call}
    {o : Google × Outcome} (ho : o.1 = grants email) (h : OnlyGrants email s) :
    OnlyGrants email (s.after accounts i c o) := by
  intro j authorization x hmem
  rcases Shot.mem_after.mp hmem with hnew | hold
  · cases hnew
    change o.1.userInfo = _
    rw [ho]
  · exact h j authorization x hold

theorem profile_of_grants {email : String} {gUser : GoogleUserInfo} {r : HttpResponse}
    (hr : (.ok r : Except String HttpResponse) = (grants email).userInfo)
    (h : r.body >>= decodeUserInfo = some gUser) : gUser.email = email := by
  unfold grants at hr
  simp only [Except.ok.injEq] at hr
  subst hr
  have hread : decodeUserInfo (.object [(py_text.text "id", goString "1081"),
      (py_text.text "email", goString email)]) = some ⟨"1081", email, "", ""⟩ := by
    unfold decodeUserInfo
    simp only [objectFields, Option.bind_eq_bind, Option.bind_some]
    rw [stringField_written rfl, stringField_written (s := email) rfl, stringField_absent rfl,
      stringField_absent rfl]
    rfl
  simp only [Option.bind_eq_bind, Option.bind_some] at h
  rw [hread, Option.some.injEq] at h
  rw [← h]

theorem grants_make_normal (email : String) (hemail : InNormalForm email)
    {picks : List (Nat × (Google × Outcome))} (hpicks : ∀ pick ∈ picks, pick.2.1 = grants email)
    (requests : List Request) :
    Allowed accounts MakesNormal picks (atOnce noTokens config requests) := by
  have hany : AllFollow (fun _ _ _ => True) (fun _ _ _ => True)
      (atOnce noTokens config requests) := fun i p _ =>
    follows_mono (follows_only (only_any p) fun _ _ _ => trivial) fun _ _ _ => trivial
  have hnormal : ∀ (s : Shot Call Answer (List User)) i (c : Call) (o : Google × Outcome),
      OnlyGrants email s → MakesNormal s i c o := by
    rintro s i c o honly _ - gUser ⟨j, authorization, r, hmem, hdecode⟩
    have hr := honly j authorization (.ok r) (mem_own.mp hmem).1
    rw [profile_of_grants hr hdecode]
    exact hemail
  exact (allFollow_schedule (w := accounts) (E := fun _ _ _ o => o.1 = grants email)
    (F := MakesNormal) (I := OnlyGrants email)
    (fun _ _ _ _ ho _ h => onlyGrants_after ho h)
    (fun s i c o _ _ h => hnormal s i c o h) hany nofun
    (allowed_of_choices hpicks _)).1

/-- Ada's second request is refused. -/
theorem ada_keeps_one_account :
    EmailsNormal (schedule accounts (bothWays "ada@example.com")
      (atOnce noTokens config adasRequests)).shot.state :=
  emails_are_in_normal_form_while noTokens config adasRequests (bothWays "ada@example.com")
    (grants_make_normal "ada@example.com" (by decide +kernel) (bothWays_grants _) adasRequests)

/-- Capitals in the profile stay, and the same person registers again. -/
theorem a_profile_keeps_its_capitals :
    (schedule accounts (bothWays "Ada@Example.com") (atOnce noTokens config adasRequests)).shot.state =
      [newUser ⟨"1081", "Ada@Example.com", "", ""⟩ "6f9619ff-8b86-d011-b42d-00c04fc964ff" 0 0,
        registeredUser ⟨"ada@example.com", "correct horse", "Ada"⟩
          "7c9e6679-7425-40de-944b-e07fc1f90ae7" "7c9e6679-7425-40de-944b-e07fc1f90ae7" 0 0] ∧
      ¬ EmailsNormal (schedule accounts (bothWays "Ada@Example.com")
        (atOnce noTokens config adasRequests)).shot.state := by
  have hstate : (schedule accounts (bothWays "Ada@Example.com")
      (atOnce noTokens config adasRequests)).shot.state =
      [newUser ⟨"1081", "Ada@Example.com", "", ""⟩ "6f9619ff-8b86-d011-b42d-00c04fc964ff" 0 0,
        registeredUser ⟨"ada@example.com", "correct horse", "Ada"⟩
          "7c9e6679-7425-40de-944b-e07fc1f90ae7" "7c9e6679-7425-40de-944b-e07fc1f90ae7" 0 0] := by
    with_unfolding_all rfl
  refine ⟨hstate, fun h => ?_⟩
  rw [hstate] at h
  exact absurd (h.normal _ List.mem_cons_self) (by decide +kernel)

end recast_rules.sign_in
