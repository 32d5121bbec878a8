-- The tokens of the services (`pkg/auth/jwt.go`, `parseRefreshToken` of the
-- gateway) and the middlewares that ask for one. Both kinds of token are signed
-- with one secret; they differ in their claims.
import RecastAi.Models

open py_text recast_rules.transcript recast_rules.models

namespace recast_rules.auth

/-! ## Claims -/

/-- Dates are whole seconds. -/
structure RegisteredClaims where
  issuer : String
  subject : String
  expiresAt : Option Int
  issuedAt : Option Int

structure Claims extends RegisteredClaims where
  userID : String
  email : String
  role : String

def omitEmpty (key s : String) : List (Text × Json) :=
  if s = "" then [] else [(text key, goString s)]

def dateClaim (key : String) (date : Option Int) : List (Text × Json) :=
  date.toList.map fun d => (text key, .int d)

def RegisteredClaims.fields (c : RegisteredClaims) : List (Text × Json) :=
  omitEmpty "iss" c.issuer ++ omitEmpty "sub" c.subject ++ dateClaim "exp" c.expiresAt ++
    dateClaim "iat" c.issuedAt

def RegisteredClaims.encode (c : RegisteredClaims) : Json := .object c.fields

def Claims.encode (c : Claims) : Json :=
  .object ([(text "user_id", goString c.userID), (text "email", goString c.email),
    (text "role", goString c.role)] ++ c.fields)

/-- A `NumericDate`. -/
def dateField (fields : List (Text × Json)) (key : String) : Option (Option Int) :=
  (valuesAt fields key).foldlM (fun _ v =>
    match v with
    | .null => some none
    | .int d => some (some d)
    | .float (.finite q) => some (some q.floor)
    | _ => none) none

def RegisteredClaims.ofFields (fields : List (Text × Json)) : Option RegisteredClaims := do
  let issuer ← stringField fields "iss"
  let subject ← stringField fields "sub"
  let expiresAt ← dateField fields "exp"
  let issuedAt ← dateField fields "iat"
  return ⟨issuer, subject, expiresAt, issuedAt⟩

def RegisteredClaims.decode (claims : Json) : Option RegisteredClaims :=
  objectFields claims >>= RegisteredClaims.ofFields

def Claims.decode (claims : Json) : Option Claims := do
  let fields ← objectFields claims
  let registered ← RegisteredClaims.ofFields fields
  let userID ← stringField fields "user_id"
  let email ← stringField fields "email"
  let role ← stringField fields "role"
  return ⟨registered, userID, email, role⟩

/-! ## Tokens -/

inductive SigningMethod where
  | hmac (bits : Nat)
  | other

/-- What the text of a token says: how and with which key it is signed, and its claims. -/
structure Token where
  method : SigningMethod
  key : String
  claims : Json

/-- Times and durations are nanoseconds. -/
def second : Int := 10 ^ 9

def numericDate (t : Int) : Int := t / second

def generateToken (secret userID email role : String) (expiry now : Int) : Token where
  method := .hmac 256
  key := secret
  claims := Claims.encode
    { userID := userID, email := email, role := role, issuer := "recast-ai", subject := "",
      expiresAt := some (numericDate (now + expiry)), issuedAt := some (numericDate now) }

def generateRefreshToken (secret userID : String) (expiry now : Int) : Token where
  method := .hmac 256
  key := secret
  claims := RegisteredClaims.encode
    { issuer := "recast-ai-refresh", subject := userID,
      expiresAt := some (numericDate (now + expiry)), issuedAt := some (numericDate now) }

/-- `jwt.ParseWithClaims` with the key function of both parsers, which gives the secret for the
HMAC methods only. -/
def parseWithClaims {α : Type} (decode : Json → Option α) (registered : α → RegisteredClaims)
    (secret : String) (now : Int) (token : Token) : Option α := do
  let claims ← decode token.claims
  match token.method with
  | .other => none
  | .hmac _ =>
    if token.key ≠ secret then none
    else
      match (registered claims).expiresAt with
      | none => return claims
      | some date => if now < date * second then return claims else none

/-! ## The parsers and the middlewares

`read` is what the library makes of a text. -/

section Parsers

variable (read : String → Option Token) (secret : String) (now : Int)

def validateToken (tokenStr : String) : Option Claims :=
  read tokenStr >>= parseWithClaims Claims.decode Claims.toRegisteredClaims secret now

def parseRefreshToken (tokenStr : String) : Option String := do
  let token ← read tokenStr
  let claims ← parseWithClaims RegisteredClaims.decode id secret now token
  if claims.issuer ≠ "recast-ai-refresh" || claims.subject = "" then none
  else return claims.subject

/-- `strings.SplitN(hdr, " ", 2)`, where it has two parts. -/
def splitHeader (hdr : String) : Option (String × String) :=
  match hdr.toList.span (· ≠ ' ') with
  | (_, []) => none
  | (scheme, _ :: rest) => some (String.ofList scheme, String.ofList rest)

def isBearer (scheme : String) : Bool := scheme.toList.map Char.toLower = "bearer".toList

/-- The check of the `Authorization` header. `wellFormed` is asked of the second part. -/
def checkHeader (wellFormed : String → Bool) (hdr : String) : Except (Nat × String) Claims :=
  if hdr = "" then .error (401, "missing authorization header")
  else
    match splitHeader hdr with
    | none => .error (401, "invalid authorization format")
    | some (scheme, tokenStr) =>
      if !isBearer scheme || !wellFormed tokenStr then
        .error (401, "invalid authorization format")
      else
        match validateToken read secret now tokenStr with
        | none => .error (401, "invalid or expired token")
        | some claims => .ok claims

/-- The gateway's. -/
def jwtAuth (hdr : String) : Except (Nat × String) Claims :=
  checkHeader read secret now (fun _ => true) hdr

/-- The upload service's. -/
def jwtMiddleware (hdr : String) : Except (Nat × String) Claims :=
  checkHeader read secret now (· ≠ "") hdr

end Parsers

/-! ## Round trips -/

theorem dateField_written {fields : List (Text × Json)} {key : String} {date : Option Int}
    (h : valuesAt fields key = date.toList.map Json.int) : dateField fields key = some date := by
  unfold dateField
  rw [h]
  cases date <;> rfl

theorem valuesAt_omitEmpty (k s key : String) :
    valuesAt (omitEmpty k s) key =
      if foldKey (text k) = foldKey (text key) then (if s = "" then [] else [goString s])
      else [] := by
  unfold omitEmpty
  by_cases hs : s = "" <;> simp [hs, valuesAt_cons, valuesAt_nil]

theorem valuesAt_dateClaim (k key : String) (date : Option Int) :
    valuesAt (dateClaim k date) key =
      if foldKey (text k) = foldKey (text key) then date.toList.map Json.int else [] := by
  unfold dateClaim
  cases date <;> simp [valuesAt_cons, valuesAt_nil]

/-- The registered claims are read back from among other fields. -/
theorem ofFields_fields (c : RegisteredClaims) (fs : List (Text × Json))
    (h : ∀ key ∈ ["iss", "sub", "exp", "iat"], valuesAt fs key = []) :
    RegisteredClaims.ofFields (fs ++ c.fields) = some c := by
  have hat : ∀ key ∈ ["iss", "sub", "exp", "iat"],
      valuesAt (fs ++ c.fields) key = valuesAt c.fields key := by
    intro key hkey
    rw [valuesAt_append, h key hkey, List.nil_append]
  have hiss : stringField (fs ++ c.fields) "iss" = some c.issuer := by
    apply stringField_omitted
    rw [hat "iss" (by simp)]
    simp [RegisteredClaims.fields, valuesAt_append, valuesAt_omitEmpty, valuesAt_dateClaim,
      text, foldKey]
  have hsub : stringField (fs ++ c.fields) "sub" = some c.subject := by
    apply stringField_omitted
    rw [hat "sub" (by simp)]
    simp [RegisteredClaims.fields, valuesAt_append, valuesAt_omitEmpty, valuesAt_dateClaim,
      text, foldKey]
  have hexp : dateField (fs ++ c.fields) "exp" = some c.expiresAt := by
    apply dateField_written
    rw [hat "exp" (by simp)]
    simp [RegisteredClaims.fields, valuesAt_append, valuesAt_omitEmpty, valuesAt_dateClaim,
      text, foldKey]
  have hiat : dateField (fs ++ c.fields) "iat" = some c.issuedAt := by
    apply dateField_written
    rw [hat "iat" (by simp)]
    simp [RegisteredClaims.fields, valuesAt_append, valuesAt_omitEmpty, valuesAt_dateClaim,
      text, foldKey]
  unfold RegisteredClaims.ofFields
  rw [hiss, hsub, hexp, hiat]
  rfl

theorem decode_refresh (c : RegisteredClaims) : RegisteredClaims.decode c.encode = some c :=
  ofFields_fields c [] fun _ _ => rfl

theorem decode_access (c : Claims) : Claims.decode c.encode = some c := by
  have hown : ∀ key ∈ ["user_id", "email", "role"], valuesAt c.fields key = [] := by
    intro key hkey
    simp only [List.mem_cons, List.not_mem_nil, or_false] at hkey
    rcases hkey with rfl | rfl | rfl <;>
      simp [RegisteredClaims.fields, valuesAt_append, valuesAt_omitEmpty, valuesAt_dateClaim, text,
        foldKey]
  unfold Claims.decode Claims.encode
  simp only [objectFields, Option.bind_eq_bind, Option.bind_some]
  rw [ofFields_fields, stringField_written (s := c.userID), stringField_written (s := c.email),
    stringField_written (s := c.role)]
  · rfl
  · rw [valuesAt_append, hown "role" (by simp)]
    simp [valuesAt_cons, valuesAt_nil, text, foldKey]
  · rw [valuesAt_append, hown "email" (by simp)]
    simp [valuesAt_cons, valuesAt_nil, text, foldKey]
  · rw [valuesAt_append, hown "user_id" (by simp)]
    simp [valuesAt_cons, valuesAt_nil, text, foldKey]
  · intro key hkey
    simp only [List.mem_cons, List.not_mem_nil, or_false] at hkey
    rcases hkey with rfl | rfl | rfl | rfl <;>
      simp [valuesAt_cons, valuesAt_nil, text, foldKey]

/-- The claims of a refresh token, read as those of an access token, name no user. -/
theorem decode_crossed (c : RegisteredClaims) :
    Claims.decode c.encode = some ⟨c, "", "", ""⟩ := by
  have hown : ∀ key ∈ ["user_id", "email", "role"], stringField c.fields key = some "" := by
    intro key hkey
    apply stringField_absent
    simp only [List.mem_cons, List.not_mem_nil, or_false] at hkey
    rcases hkey with rfl | rfl | rfl <;>
      simp [RegisteredClaims.fields, valuesAt_append, valuesAt_omitEmpty, valuesAt_dateClaim, text,
        foldKey]
  have hregistered : RegisteredClaims.ofFields c.fields = some c :=
    ofFields_fields c [] fun _ _ => rfl
  unfold Claims.decode RegisteredClaims.encode
  simp only [objectFields, Option.bind_eq_bind, Option.bind_some, hregistered,
    hown "user_id" (by simp), hown "email" (by simp), hown "role" (by simp)]
  rfl

/-! ## What the parsers make of a minted token -/

/-- A token that was minted at `mintedAt` for the time `expiry` is still good. -/
def Unexpired (now expiry mintedAt : Int) : Prop := now < numericDate (mintedAt + expiry) * second

instance (now expiry mintedAt : Int) : Decidable (Unexpired now expiry mintedAt) :=
  inferInstanceAs (Decidable (_ < _))

theorem parse_signed {α : Type} {decode : Json → Option α} {registered : α → RegisteredClaims}
    {secret : String} {now : Int} {token : Token} {claims : α}
    (h : parseWithClaims decode registered secret now token = some claims) :
    token.key = secret := by
  unfold parseWithClaims at h
  cases hdec : decode token.claims with
  | none => simp [hdec] at h
  | some c =>
    cases hm : token.method with
    | other => simp [hdec, hm] at h
    | hmac bits =>
      by_contra hkey
      simp [hdec, hm, hkey] at h

section Minted

variable {read : String → Option Token} {secret : String} {now expiry mintedAt : Int}
  {userID email role : String} {tokenStr : String}

theorem validate_access
    (h : read tokenStr = some (generateToken secret userID email role expiry mintedAt)) :
    validateToken read secret now tokenStr =
      if Unexpired now expiry mintedAt then
        some
          { userID := userID, email := email, role := role, issuer := "recast-ai", subject := "",
            expiresAt := some (numericDate (mintedAt + expiry)),
            issuedAt := some (numericDate mintedAt) }
      else none := by
  unfold validateToken
  rw [h, Option.bind_eq_bind, Option.bind_some]
  simp only [parseWithClaims, generateToken, decode_access, Option.bind_eq_bind, Option.bind_some,
    ne_eq, not_true_eq_false, if_false]
  rfl

theorem validate_refresh
    (h : read tokenStr = some (generateRefreshToken secret userID expiry mintedAt)) :
    validateToken read secret now tokenStr =
      if Unexpired now expiry mintedAt then
        some
          { userID := "", email := "", role := "", issuer := "recast-ai-refresh",
            subject := userID, expiresAt := some (numericDate (mintedAt + expiry)),
            issuedAt := some (numericDate mintedAt) }
      else none := by
  unfold validateToken
  rw [h, Option.bind_eq_bind, Option.bind_some]
  simp only [parseWithClaims, generateRefreshToken, decode_crossed, Option.bind_eq_bind,
    Option.bind_some, ne_eq, not_true_eq_false, if_false]
  rfl

/-- The claims of an access token, read as those of a refresh token, are its registered ones. -/
theorem decode_registered (c : Claims) :
    RegisteredClaims.decode c.encode = some c.toRegisteredClaims := by
  apply ofFields_fields
  intro key hkey
  simp only [List.mem_cons, List.not_mem_nil, or_false] at hkey
  rcases hkey with rfl | rfl | rfl | rfl <;>
    simp [valuesAt_cons, valuesAt_nil, text, foldKey]

/-- The gateway's refresh refuses an access token by its issuer. -/
theorem refresh_of_access
    (h : read tokenStr = some (generateToken secret userID email role expiry mintedAt)) :
    parseRefreshToken read secret now tokenStr = none := by
  unfold parseRefreshToken
  rw [h, Option.bind_eq_bind, Option.bind_some]
  simp only [parseWithClaims, generateToken, decode_registered, Option.bind_eq_bind,
    Option.bind_some, ne_eq, not_true_eq_false, if_false, id]
  split <;> rfl

end Minted

/-! ## The law -/

section Law

variable (read : String → Option Token) (secret : String)

def MintedAccess (tokenStr : String) : Prop :=
  ∃ userID email role expiry now,
    read tokenStr = some (generateToken secret userID email role expiry now)

def MintedRefresh (tokenStr : String) : Prop :=
  ∃ userID expiry now, read tokenStr = some (generateRefreshToken secret userID expiry now)

/-- Nobody else signs with the secret. -/
def OnlyMinted : Prop :=
  ∀ tokenStr token, read tokenStr = some token → token.key = secret →
    MintedAccess read secret tokenStr ∨ MintedRefresh read secret tokenStr

/-- The routes behind a middleware. -/
inductive Route where
  | gateway | upload

def Route.authorize (now : Int) : Route → String → Except (Nat × String) Claims
  | .gateway => jwtAuth read secret now
  | .upload => jwtMiddleware read secret now

/-- The two kinds are not interchangeable: each parser accepts the token only where it was minted
for it, and so does each route where a header carries the token. -/
structure KeptApart (now : Int) (tokenStr : String) : Prop where
  validate : ∀ claims, validateToken read secret now tokenStr = some claims →
    MintedAccess read secret tokenStr ∧ ¬ MintedRefresh read secret tokenStr ∧ claims.userID ≠ ""
  route : ∀ (route : Route) hdr scheme claims, splitHeader hdr = some (scheme, tokenStr) →
    route.authorize read secret now hdr = .ok claims →
    MintedAccess read secret tokenStr ∧ ¬ MintedRefresh read secret tokenStr ∧ claims.userID ≠ ""
  refresh : ∀ userID, parseRefreshToken read secret now tokenStr = some userID →
    MintedRefresh read secret tokenStr ∧ ¬ MintedAccess read secret tokenStr

/-- It is no refresh token that is still good, and no access token for nobody. -/
structure Harmless (now : Int) (tokenStr : String) : Prop where
  expired : ∀ userID expiry mintedAt,
    read tokenStr = some (generateRefreshToken secret userID expiry mintedAt) →
    ¬ Unexpired now expiry mintedAt
  named : ∀ userID email role expiry mintedAt,
    read tokenStr = some (generateToken secret userID email role expiry mintedAt) →
    Unexpired now expiry mintedAt → userID ≠ ""

variable {read secret} {now : Int} {tokenStr : String}

/-- A middleware lets through what `ValidateToken` accepts, with its claims. -/
theorem route_validates {route : Route} {hdr scheme : String} {claims : Claims}
    (hhdr : splitHeader hdr = some (scheme, tokenStr))
    (h : route.authorize read secret now hdr = .ok claims) :
    validateToken read secret now tokenStr = some claims := by
  have hcheck : ∀ wellFormed, checkHeader read secret now wellFormed hdr = .ok claims →
      validateToken read secret now tokenStr = some claims := by
    intro wellFormed h
    unfold checkHeader at h
    split at h
    · cases h
    · simp only [hhdr] at h
      split at h
      · cases h
      · cases hv : validateToken read secret now tokenStr with
        | none => simp [hv] at h
        | some c =>
          simp only [hv, Except.ok.injEq] at h
          rw [h]
  cases route with
  | gateway => exact hcheck _ h
  | upload => exact hcheck _ h

theorem minted_once : ¬ (MintedAccess read secret tokenStr ∧ MintedRefresh read secret tokenStr) := by
  rintro ⟨⟨userID, email, role, expiry, mintedAt, ha⟩, ⟨userID', expiry', mintedAt', hr⟩⟩
  rw [ha, Option.some.injEq] at hr
  have hclaims := congrArg (fun t => RegisteredClaims.decode t.claims) hr
  simp only [generateToken, generateRefreshToken, decode_registered, decode_refresh,
    Option.some.injEq, RegisteredClaims.mk.injEq] at hclaims
  have hissuer : "recast-ai" ≠ "recast-ai-refresh" := by decide
  exact hissuer hclaims.1

theorem validate_harmless (honly : OnlyMinted read secret)
    (hok : Harmless read secret now tokenStr) {claims : Claims}
    (h : validateToken read secret now tokenStr = some claims) :
    MintedAccess read secret tokenStr ∧ claims.userID ≠ "" := by
  have hread : ∃ token, read tokenStr = some token ∧ token.key = secret := by
    unfold validateToken at h
    cases htoken : read tokenStr with
    | none => simp [htoken] at h
    | some token =>
      simp only [htoken, Option.bind_eq_bind, Option.bind_some] at h
      exact ⟨token, rfl, parse_signed h⟩
  obtain ⟨token, htoken, hkey⟩ := hread
  rcases honly tokenStr token htoken hkey with hminted | ⟨userID, expiry, mintedAt, hrefresh⟩
  · obtain ⟨userID, email, role, expiry, mintedAt, haccess⟩ := id hminted
    rw [validate_access haccess] at h
    split at h
    · rename_i hgood
      simp only [Option.some.injEq] at h
      subst h
      exact ⟨hminted, hok.named _ _ _ _ _ haccess hgood⟩
    · cases h
  · rw [validate_refresh hrefresh, if_neg (hok.expired _ _ _ hrefresh)] at h
    cases h

theorem refresh_minted (honly : OnlyMinted read secret) {userID : String}
    (h : parseRefreshToken read secret now tokenStr = some userID) :
    MintedRefresh read secret tokenStr := by
  have hread : ∃ token, read tokenStr = some token ∧ token.key = secret := by
    unfold parseRefreshToken at h
    cases htoken : read tokenStr with
    | none => simp [htoken] at h
    | some token =>
      cases hparse : parseWithClaims RegisteredClaims.decode id secret now token with
      | none => simp [htoken, hparse] at h
      | some claims => exact ⟨token, rfl, parse_signed hparse⟩
  obtain ⟨token, htoken, hkey⟩ := hread
  rcases honly tokenStr token htoken hkey with ⟨_, _, _, _, _, haccess⟩ | hminted
  · rw [refresh_of_access haccess] at h
    cases h
  · exact hminted

/-- The two kinds of token are kept apart at a text exactly where it is no refresh token that is
still good (and no access token for an empty user id). -/
theorem tokens_are_kept_apart_iff (honly : OnlyMinted read secret) :
    KeptApart read secret now tokenStr ↔ Harmless read secret now tokenStr := by
  constructor
  · intro h
    constructor
    · intro userID expiry mintedAt hrefresh hgood
      have hvalid := @validate_refresh _ _ now _ _ _ _ hrefresh
      rw [if_pos hgood] at hvalid
      exact (h.validate _ hvalid).2.2 rfl
    · intro userID email role expiry mintedAt haccess hgood
      have hvalid := @validate_access _ _ now _ _ _ _ _ _ haccess
      rw [if_pos hgood] at hvalid
      exact (h.validate _ hvalid).2.2
  · intro hok
    have hvalidate : ∀ claims, validateToken read secret now tokenStr = some claims →
        MintedAccess read secret tokenStr ∧ ¬ MintedRefresh read secret tokenStr ∧
          claims.userID ≠ "" := by
      intro claims h
      obtain ⟨hminted, hnamed⟩ := validate_harmless honly hok h
      exact ⟨hminted, fun hr => minted_once ⟨hminted, hr⟩, hnamed⟩
    constructor
    · exact hvalidate
    · intro route hdr scheme claims hhdr h
      exact hvalidate claims (route_validates hhdr h)
    · intro userID h
      have hminted := refresh_minted honly h
      exact ⟨hminted, fun ha => minted_once ⟨ha, hminted⟩⟩

end Law

/-- The two tokens that `ada` got when she signed in, at the time 0. -/
def adasTokens (tokenStr : String) : Option Token :=
  if tokenStr = "access" then
    some (generateToken "secret" "ada" "ada@example.com" "user" (900 * second) 0)
  else if tokenStr = "refresh" then
    some (generateRefreshToken "secret" "ada" (604800 * second) 0)
  else none

theorem adas_tokens_are_minted : OnlyMinted adasTokens "secret" := by
  intro tokenStr token h _
  unfold adasTokens at h
  split at h
  · rename_i heq
    subst heq
    exact Or.inl ⟨_, _, _, _, _, rfl⟩
  · split at h
    · rename_i heq
      subst heq
      exact Or.inr ⟨_, _, _, rfl⟩
    · cases h

/-- Ada's refresh token opens the routes of both services, for a user without an id. -/
theorem a_refresh_token_opens_the_routes :
    OnlyMinted adasTokens "secret" ∧
      (∃ claims, jwtAuth adasTokens "secret" 0 "Bearer refresh" = .ok claims ∧
        claims.userID = "") ∧
      (∃ claims, jwtMiddleware adasTokens "secret" 0 "Bearer refresh" = .ok claims ∧
        claims.userID = "") ∧
      MintedRefresh adasTokens "secret" "refresh" ∧
      ¬ KeptApart adasTokens "secret" 0 "refresh" := by
  have hread : adasTokens "refresh" =
      some (generateRefreshToken "secret" "ada" (604800 * second) 0) := rfl
  have hvalid := @validate_refresh _ _ 0 _ _ _ _ hread
  rw [if_pos (by decide)] at hvalid
  have hcheck : ∀ wellFormed : String → Bool, wellFormed "refresh" = true →
      ∃ claims, checkHeader adasTokens "secret" 0 wellFormed "Bearer refresh" = .ok claims ∧
        claims.userID = "" := by
    intro wellFormed hwell
    have hsplit : splitHeader "Bearer refresh" = some ("Bearer", "refresh") := by decide
    have hbearer : isBearer "Bearer" = true := by decide
    unfold checkHeader
    simp only [hsplit, hbearer, hwell, hvalid]
    exact ⟨_, rfl, rfl⟩
  refine ⟨adas_tokens_are_minted, hcheck _ rfl, hcheck _ (by decide), ⟨_, _, _, hread⟩, ?_⟩
  intro h
  exact (h.validate _ hvalid).2.2 rfl

theorem adas_access_token_is_kept_apart : KeptApart adasTokens "secret" 0 "access" := by
  apply (tokens_are_kept_apart_iff adas_tokens_are_minted).mpr
  constructor
  · intro userID expiry mintedAt h
    exact absurd ⟨⟨_, _, _, _, _, rfl⟩, ⟨userID, expiry, mintedAt, h⟩⟩ minted_once
  · intro userID email role expiry mintedAt h hgood hnobody
    have hread : adasTokens "access" =
        some (generateToken "secret" "ada" "ada@example.com" "user" (900 * second) 0) := rfl
    have hvalid := @validate_access _ _ 0 _ _ _ _ _ _ hread
    rw [if_pos (by decide), @validate_access _ _ 0 _ _ _ _ _ _ h, if_pos hgood,
      Option.some.injEq] at hvalid
    have hada : userID = "ada" := congrArg Claims.userID hvalid
    rw [hnobody] at hada
    exact absurd hada (by decide)

end recast_rules.auth
