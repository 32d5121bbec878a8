-- How often a refresh token works. `Refresh` looks at the signature, the
-- date and the user, and keeps no record of the tokens it has exchanged.
import RecastAi.Accounts
import RecastAi.GoogleIdentity

open call_programs recast_rules.transcript recast_rules.models recast_rules.auth
open recast_rules.pipeline (DbError uuidIn)

namespace recast_rules.sign_in

/-! ## Requests one after another -/

/-- A request, and what the outside chooses for its calls. -/
structure Turn where
  request : Request
  outside : List (Google × Outcome)

/-- A turn, the table before it, and its answer. There is none where the gateway stopped. -/
structure Served where
  turn : Turn
  users : List User
  answer : Option (Except (Nat × String) AuthResponse)

def answerOf {α : Type} : Prog Call Answer α → Option α
  | .done a => some a
  | .call _ _ => none

def Served.Exchanges (t : String) (s : Served) : Prop :=
  s.turn.request = .refresh (some t) ∧ ∃ resp, s.answer = some (.ok resp)

section History

variable (read : String → Option Token) (cfg : AuthConfig)

def Turn.serve (turn : Turn) (users : List User) :
    Prog Call Answer (Except (Nat × String) AuthResponse) × List User :=
  run accounts turn.outside ((turn.request.handle read cfg).run, users)

def history : List Turn → List User → List Served
  | [], _ => []
  | turn :: turns, users =>
    ⟨turn, users, answerOf (turn.serve read cfg users).1⟩ ::
      history turns (turn.serve read cfg users).2

/-- No token is exchanged again. -/
def Rotates (turns : List Turn) (users : List User) : Prop :=
  (history read cfg turns users).Pairwise fun a b => ∀ t, a.Exchanges t → ¬ b.Exchanges t

/-- What an exchange needs: the token is good at the time, the user is found, and the handler
comes to its end. -/
def Grants (t : String) (turn : Turn) (users : List User) : Prop :=
  match turn.outside with
  | o :: o' :: _ :: _ :: _ =>
    t ≠ "" ∧ ∃ userID user, parseRefreshToken read cfg.jwtSecret o.2.now t = some userID ∧
      userByID o'.2 users userID = .ok user
  | _ => False

/-- Why a good token is not exchanged later: the gateway stops, the token has expired, or the
database fails. -/
inductive Lapses (t : String) (turn : Turn) : Prop where
  | stopped (h : turn.outside.length < 4)
  | expired (o : Google × Outcome) (rest : List (Google × Outcome)) (h : turn.outside = o :: rest)
      (hread : parseRefreshToken read cfg.jwtSecret o.2.now t = none)
  | lost (o o' : Google × Outcome) (rest : List (Google × Outcome))
      (h : turn.outside = o :: o' :: rest) (hfails : o'.2.fails = true)

end History

section Rotation

variable {read : String → Option Token} {cfg : AuthConfig}

/-! ## One exchange -/

/-- The calls from the lookup on. -/
def lookup (cfg : AuthConfig) (userID : String) :
    Prog Call Answer (Except (Nat × String) AuthResponse) :=
  .call (.userByID userID) fun x : Except DbError User =>
    match x with
    | .error e => .done (.error (lookupError (401, "user not found") e))
    | .ok user => .call .clock fun now => .call .clock fun later =>
      .done (.ok (session cfg user now later))

/-- The calls of an exchange. -/
def exchange (read : String → Option Token) (cfg : AuthConfig) (t : String) :
    Prog Call Answer (Except (Nat × String) AuthResponse) :=
  .call .clock fun now : Nat =>
    match parseRefreshToken read cfg.jwtSecret now t with
    | none => .done (.error (401, "invalid or expired refresh token"))
    | some userID => lookup cfg userID

theorem refresh_run (t : String) :
    (refresh read cfg (some t)).run =
      if t = "" then .done (.error (400, "refresh_token is required")) else exchange read cfg t := by
  by_cases ht : t = ""
  · subst ht
    rfl
  · have hgood : (giveUpIf (t = "") (400, "refresh_token is required") : Handler Unit) = pure () := by
      unfold giveUpIf
      simp [ht]
    rw [if_neg ht]
    unfold refresh exchange
    simp only [someOr, hgood, pure_bind]
    change Prog.call _ _ = _
    congr 1
    funext now
    change Nat at now
    simp only [Prog.bind, Function.comp_apply, ExceptT.bindCont]
    cases parseRefreshToken read cfg.jwtSecret now t with
    | none => rfl
    | some userID =>
      change Prog.call _ _ = Prog.call _ _
      congr 1
      funext x
      change Except DbError User at x
      cases x <;> rfl

theorem lookup_ok_iff (userID : String) (outside : List (Google × Outcome)) (users : List User) :
    (∃ resp, answerOf (run accounts outside (lookup cfg userID, users)).1 = some (.ok resp)) ↔
      3 ≤ outside.length ∧ ∃ o user, outside.head? = some o ∧
        userByID o.2 users userID = .ok user := by
  cases outside with
  | nil => simp [run, lookup, answerOf]
  | cons o rest =>
    have hlookup : run accounts (o :: rest) (lookup cfg userID, users) =
        run accounts rest
          (match userByID o.2 users userID with
            | .error e => .done (.error (lookupError (401, "user not found") e))
            | .ok user => .call .clock fun now => .call .clock fun later =>
              .done (.ok (session cfg user now later)), users) := rfl
    rw [hlookup]
    cases hfound : userByID o.2 users userID with
    | error e =>
      rw [run_done]
      simp [answerOf, hfound]
    | ok user =>
      rcases rest with _ | ⟨o₁, _ | ⟨o₂, rest⟩⟩
      · simp [run, answerOf]
      · simp [run, answerOf]
      · simp [run, answerOf, hfound]

theorem exchange_ok_iff {t : String} (ht : t ≠ "") (outside : List (Google × Outcome))
    (users : List User) :
    (∃ resp, answerOf (run accounts outside (exchange read cfg t, users)).1 = some (.ok resp)) ↔
      Grants read cfg t ⟨.refresh (some t), outside⟩ users := by
  unfold Grants
  dsimp only
  cases outside with
  | nil => simp [run, exchange, answerOf]
  | cons o rest =>
    have hclock : run accounts (o :: rest) (exchange read cfg t, users) =
        run accounts rest
          (match parseRefreshToken read cfg.jwtSecret o.2.now t with
            | none => .done (.error (401, "invalid or expired refresh token"))
            | some userID => lookup cfg userID, users) := rfl
    rw [hclock]
    cases hparse : parseRefreshToken read cfg.jwtSecret o.2.now t with
    | none =>
      rw [run_done]
      rcases rest with _ | ⟨o₁, _ | ⟨o₂, _ | ⟨o₃, rest⟩⟩⟩ <;> simp [answerOf, hparse]
    | some userID =>
      dsimp only
      rw [lookup_ok_iff]
      rcases rest with _ | ⟨o₁, _ | ⟨o₂, _ | ⟨o₃, rest⟩⟩⟩ <;> simp [hparse, ht]

theorem refresh_ok_iff (t : String) (turn : Turn) (users : List User)
    (hrequest : turn.request = .refresh (some t)) :
    (∃ resp, answerOf (turn.serve read cfg users).1 = some (.ok resp)) ↔
      Grants read cfg t turn users := by
  obtain ⟨request, outside⟩ := turn
  subst hrequest
  have hrun : (Turn.mk (.refresh (some t)) outside).serve read cfg users =
      run accounts outside ((refresh read cfg (some t)).run, users) := rfl
  rw [hrun, refresh_run]
  by_cases ht : t = ""
  · rw [if_pos ht, run_done]
    unfold Grants answerOf
    constructor
    · rintro ⟨resp, hresp⟩
      cases hresp
    · intro h
      split at h
      · exact absurd ht h.1
      · exact h.elim
  · rw [if_neg ht]
    exact exchange_ok_iff ht outside users

/-! ## Users stay -/

/-- Each user is there later, perhaps with other data. -/
def Kept (users users' : List User) : Prop := ∀ u ∈ users, ∃ u' ∈ users', u'.id = u.id

theorem Kept.trans {users users' users'' : List User} (h : Kept users users')
    (h' : Kept users' users'') : Kept users users'' := by
  intro u hu
  obtain ⟨u', hu', hid⟩ := h u hu
  obtain ⟨u'', hu'', hid'⟩ := h' u' hu'
  exact ⟨u'', hu'', hid'.trans hid⟩

theorem Kept.refl (users : List User) : Kept users users := fun u hu => ⟨u, hu, rfl⟩

theorem kept_link (users : List User) (oauthID avatarURL : String) (now : Nat) (id : String) :
    Kept users (linkUser users oauthID avatarURL now id) := by
  intro u hu
  refine ⟨_, List.mem_map_of_mem hu, ?_⟩
  split <;> rfl

theorem kept_insert (o : Outcome) (users : List User) (user : User) :
    Kept users (insertUser o users user).2 := by
  unfold insertUser
  split
  · exact .refl users
  · dsimp only
    split
    · exact fun u hu => ⟨u, List.mem_append_left _ hu, rfl⟩
    · exact .refl users

theorem kept_answer (g : Google) (o : Outcome) (users : List User) (c : Call) :
    Kept users (answerCall g o users c).2 := by
  cases c with
  | link oauthID avatarURL now id =>
    unfold answerCall
    dsimp only
    split
    · exact kept_link users oauthID avatarURL now id
    · exact .refl users
  | insert user => exact kept_insert o users user
  | _ => exact .refl users

theorem kept_run {α : Type} (os : List (Google × Outcome)) (p : Prog Call Answer α)
    (users : List User) : Kept users (run accounts os (p, users)).2 := by
  induction os generalizing p users with
  | nil => exact .refl users
  | cons o os ih =>
    cases p with
    | done a => exact .refl users
    | call c k => exact (kept_answer o.1 o.2 users c).trans (ih _ _)

theorem history_kept (turns : List Turn) (users : List User) :
    (history read cfg turns users).Pairwise (fun a b => Kept a.users b.users) ∧
      ∀ s ∈ history read cfg turns users, Kept users s.users := by
  induction turns generalizing users with
  | nil => exact ⟨List.Pairwise.nil, fun _ hs => absurd hs List.not_mem_nil⟩
  | cons turn turns ih =>
    obtain ⟨hpairs, hfrom⟩ := ih (turn.serve read cfg users).2
    have hturn : ∀ s ∈ history read cfg turns (turn.serve read cfg users).2, Kept users s.users :=
      fun s hs => (kept_run turn.outside _ users).trans (hfrom s hs)
    refine ⟨List.Pairwise.cons hturn hpairs, fun s hs => ?_⟩
    rcases List.mem_cons.mp hs with rfl | hs
    · exact .refl users
    · exact hturn s hs

theorem userByID_kept {o o' : Outcome} {users users' : List User} {id : String} {user : User}
    (h : userByID o users id = .ok user) (hkept : Kept users users') (ho : o'.fails = false) :
    ∃ user', userByID o' users' id = .ok user' := by
  unfold userByID at h ⊢
  cases hid : uuidIn id with
  | none => simp [hid] at h
  | some key =>
    simp only [hid] at h ⊢
    unfold findUser at h ⊢
    rw [if_neg (by simp [ho])]
    cases hfind : users.find? (·.id = key) with
    | none =>
      rw [hfind] at h
      dsimp only at h
      split at h <;> cases h
    | some u =>
      obtain ⟨u', hu', hsame⟩ := hkept u (List.mem_of_find?_eq_some hfind)
      have hkey : u.id = key := by simpa using List.find?_some hfind
      cases hfind' : users'.find? (·.id = key) with
      | none =>
        have hnone := List.find?_eq_none.mp hfind' u' hu'
        simp [hsame, hkey] at hnone
      | some user' => exact ⟨user', rfl⟩

/-! ## The law -/

theorem history_answer (turns : List Turn) (users : List User) :
    ∀ s ∈ history read cfg turns users,
      s.answer = answerOf (s.turn.serve read cfg s.users).1 := by
  induction turns generalizing users with
  | nil => exact fun _ hs => absurd hs List.not_mem_nil
  | cons turn turns ih =>
    intro s hs
    rcases List.mem_cons.mp hs with rfl | hs
    · rfl
    · exact ih _ s hs

theorem exchanges_iff {turns : List Turn} {users : List User} {s : Served}
    (hs : s ∈ history read cfg turns users) (t : String) :
    s.Exchanges t ↔ s.turn.request = .refresh (some t) ∧ Grants read cfg t s.turn s.users := by
  unfold Served.Exchanges
  rw [history_answer turns users s hs]
  constructor
  · rintro ⟨hrequest, h⟩
    exact ⟨hrequest, (refresh_ok_iff t s.turn s.users hrequest).mp h⟩
  · rintro ⟨hrequest, h⟩
    exact ⟨hrequest, (refresh_ok_iff t s.turn s.users hrequest).mpr h⟩

theorem parse_either {α : Type} {decode : Json → Option α} {registered : α → RegisteredClaims}
    {secret : String} {token : Token} {now : Int} {claims : α} (now' : Int)
    (h : parseWithClaims decode registered secret now token = some claims) :
    parseWithClaims decode registered secret now' token = none ∨
      parseWithClaims decode registered secret now' token = some claims := by
  unfold parseWithClaims at h ⊢
  cases hdec : decode token.claims with
  | none => simp [hdec] at h
  | some c =>
    simp only [hdec, Option.bind_eq_bind, Option.bind_some] at h ⊢
    split at h
    · cases h
    · split at h
      · cases h
      · rename_i hkey
        rw [if_neg hkey]
        split at h
        · exact Or.inr h
        · split at h
          · split
            · exact Or.inr h
            · exact Or.inl rfl
          · cases h

/-- The user of a token is the same at each time. -/
theorem read_either {t userID : String} {now now' : Int}
    (h : parseRefreshToken read cfg.jwtSecret now t = some userID) :
    parseRefreshToken read cfg.jwtSecret now' t = none ∨
      parseRefreshToken read cfg.jwtSecret now' t = some userID := by
  unfold parseRefreshToken at h ⊢
  cases htoken : read t with
  | none => simp [htoken] at h
  | some token =>
    simp only [htoken, Option.bind_eq_bind, Option.bind_some] at h ⊢
    cases hparse : parseWithClaims RegisteredClaims.decode id cfg.jwtSecret now token with
    | none => simp [hparse] at h
    | some claims =>
      simp only [hparse, Option.bind_some] at h
      rcases parse_either now' hparse with hnone | hsome
      · rw [hnone]
        exact Or.inl rfl
      · rw [hsome]
        exact Or.inr h

theorem not_grants_of_lapses {t : String} {turn : Turn} {users : List User}
    (h : Lapses read cfg t turn) : ¬ Grants read cfg t turn users := by
  unfold Grants
  intro hgrants
  split at hgrants
  · rename_i o o' _ _ _ houtside
    obtain ⟨-, userID, user, hread, hfound⟩ := hgrants
    cases h with
    | stopped hshort =>
      rw [houtside] at hshort
      simp only [List.length_cons] at hshort
      omega
    | expired _ _ houtside' hnone =>
      rw [houtside, List.cons.injEq] at houtside'
      rw [← houtside'.1, hread] at hnone
      cases hnone
    | lost _ _ _ houtside' hfails =>
      rw [houtside, List.cons.injEq, List.cons.injEq] at houtside'
      rw [← houtside'.2.1] at hfails
      unfold userByID findUser at hfound
      simp only [if_pos hfails] at hfound
      split at hfound <;> cases hfound
  · exact hgrants

/-- A token that was good once is refused later where it lapses, and only there. -/
theorem lapses_iff {t : String} {turn turn' : Turn} {users users' : List User}
    (h : Grants read cfg t turn users) (hkept : Kept users users') :
    ¬ Grants read cfg t turn' users' ↔ Lapses read cfg t turn' := by
  refine ⟨fun hnot => ?_, not_grants_of_lapses⟩
  unfold Grants at h
  split at h
  · obtain ⟨ht, userID, user, hread, hfound⟩ := h
    by_contra hgood
    apply hnot
    obtain ⟨request, outside⟩ := turn'
    rcases outside with _ | ⟨o, _ | ⟨o₁, _ | ⟨o₂, _ | ⟨o₃, rest⟩⟩⟩⟩
    · exact absurd (.stopped (by simp)) hgood
    · exact absurd (.stopped (by simp)) hgood
    · exact absurd (.stopped (by simp)) hgood
    · exact absurd (.stopped (by simp)) hgood
    · rcases read_either hread with hnone | hsame
      · exact absurd (.expired o _ rfl hnone) hgood
      · have hup : o₁.2.fails = false := by
          by_contra hdown
          exact hgood (.lost o o₁ _ rfl (by simpa using hdown))
        obtain ⟨user', hfound'⟩ := userByID_kept hfound hkept hup
        exact ⟨ht, userID, user', hsame, hfound'⟩
  · exact h.elim

/-- Refresh tokens rotate exactly where each one lapses before it comes again. -/
theorem refresh_tokens_rotate_iff (read : String → Option Token) (cfg : AuthConfig)
    (turns : List Turn) (users : List User) :
    Rotates read cfg turns users ↔
      (history read cfg turns users).Pairwise fun a b => ∀ t,
        a.turn.request = .refresh (some t) → b.turn.request = .refresh (some t) →
          Grants read cfg t a.turn a.users → Lapses read cfg t b.turn := by
  unfold Rotates
  have hkept : (history read cfg turns users).Pairwise fun a b => Kept a.users b.users :=
    (history_kept turns users).1
  constructor
  · intro h
    refine (h.and hkept).imp_of_mem ?_
    rintro a b ha hb ⟨hspent, hkept⟩ t hat hbt hgrants
    refine (lapses_iff hgrants hkept).mp fun hgrants' => ?_
    exact hspent t ((exchanges_iff ha t).mpr ⟨hat, hgrants⟩)
      ((exchanges_iff hb t).mpr ⟨hbt, hgrants'⟩)
  · intro h
    refine (h.and hkept).imp_of_mem ?_
    rintro a b ha hb ⟨hlapses, hkept⟩ t hexchanged hexchanged'
    obtain ⟨hat, hgrants⟩ := (exchanges_iff ha t).mp hexchanged
    obtain ⟨hbt, hgrants'⟩ := (exchanges_iff hb t).mp hexchanged'
    exact (lapses_iff hgrants hkept).mpr (hlapses t hat hbt hgrants) hgrants'

end Rotation

/-! ## A stolen token -/

def adasID : String := "6f9619ff-8b86-d011-b42d-00c04fc964ff"

/-- The clock stands still in a turn. -/
def atSecond (n : Nat) : List (Google × Outcome) :=
  List.replicate 8 (consent, { fresh := adasID, now := n * 10 ^ 9 })

def firstToken : Token := generateRefreshToken config.jwtSecret adasID config.refreshExpiry 0

def secondToken : Token := generateRefreshToken config.jwtSecret adasID config.refreshExpiry second

def adasTexts (t : String) : Option Token :=
  if t = "rt_1" then some firstToken else if t = "rt_2" then some secondToken else none

/-- Ada registers and refreshes, and refreshes again; then someone else has her first token. -/
def adasTurns : List Turn :=
  [⟨.register (some ⟨"ada@example.com", "correct horse", "Ada"⟩), atSecond 0⟩,
    ⟨.refresh (some "rt_1"), atSecond 1⟩, ⟨.refresh (some "rt_2"), atSecond 2⟩,
    ⟨.refresh (some "rt_1"), atSecond 3⟩]

def adasRow : User :=
  registeredUser ⟨"ada@example.com", "correct horse", "Ada"⟩ adasID adasID 0 0

/-- The first token gives its successor, and both are exchanged after that. -/
theorem a_spent_token_is_exchanged :
    (history adasTexts config adasTurns []).map (·.answer) =
      [some (.ok (session config adasRow 0 0)),
        some (.ok (session config adasRow (10 ^ 9) (10 ^ 9))),
        some (.ok (session config adasRow (2 * 10 ^ 9) (2 * 10 ^ 9))),
        some (.ok (session config adasRow (3 * 10 ^ 9) (3 * 10 ^ 9)))] ∧
      (session config adasRow 0 0).refreshToken = firstToken ∧
      (session config adasRow (10 ^ 9) (10 ^ 9)).refreshToken = secondToken ∧
      ¬ Rotates adasTexts config adasTurns [] := by
  refine ⟨by with_unfolding_all rfl, rfl, by with_unfolding_all rfl, fun h => ?_⟩
  have hspent := List.pairwise_iff_getElem.mp h 1 3 (by decide) (by decide) (by decide) "rt_1"
  exact hspent ⟨rfl, _, by with_unfolding_all rfl⟩ ⟨rfl, _, by with_unfolding_all rfl⟩

end recast_rules.sign_in
