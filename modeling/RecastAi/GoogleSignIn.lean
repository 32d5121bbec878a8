-- The sign-in with Google (`internal/gateway/handler/auth.go`): the code is
-- exchanged at two endpoints of Google, and the profile that comes back finds
-- its user in the table, is linked to one, or makes a new one. The calls are
-- those of all sign-in handlers.
import RecastAi.Pipeline
import RecastAi.Tokens

open call_programs recast_rules.transcript recast_rules.models recast_rules.auth
open recast_rules.pipeline (DbError uuidIn)

namespace recast_rules.sign_in

/-! ## What goes in and out -/

/-- A row of `users`, as `models.User` reads it. -/
structure User where
  id : String
  email : String
  passwordHash : Option String
  name : String
  role : String
  oauthProvider : Option String
  oauthID : Option String
  avatarURL : Option String
  createdAt : Nat
  updatedAt : Nat
deriving DecidableEq

structure GoogleUserInfo where
  id : String
  email : String
  name : String
  avatarURL : String

/-- The body is absent where it is no JSON. -/
structure HttpResponse where
  status : Nat
  body : Option Json

structure AuthConfig where
  jwtSecret : String
  jwtExpiry : Int
  refreshExpiry : Int
  googleClientID : String
  googleSecret : String

structure PublicUser where
  id : String
  email : String
  name : String
  role : String
  avatarURL : String
  createdAt : Nat
  updatedAt : Nat

structure AuthResponse where
  token : Token
  refreshToken : Token
  user : PublicUser

def toPublicUser (u : User) : PublicUser :=
  ⟨u.id, u.email, u.name, u.role, u.avatarURL.getD "", u.createdAt, u.updatedAt⟩

/-! ## Calls -/

inductive Call where
  | postToken (body : String)
  | getUserInfo (authorization : String)
  | userByOAuth (oauthID : String)
  | userByEmail (email : String)
  | userByID (id : String)
  | emailExists (email : String)
  | link (oauthID avatarURL : String) (now : Nat) (id : String)
  | insert (user : User)
  | hashPassword (password : String)
  | comparePassword (hash password : String)
  | newUUID
  | clock

def Answer : Call → Type
  | .postToken _ => Except String HttpResponse
  | .getUserInfo _ => Except String HttpResponse
  | .userByOAuth _ => Except DbError User
  | .userByEmail _ => Except DbError User
  | .userByID _ => Except DbError User
  | .emailExists _ => Except DbError Bool
  | .link _ _ _ _ => Except DbError Unit
  | .insert _ => Except DbError Unit
  | .hashPassword _ => Except String String
  | .comparePassword _ _ => Except String Unit
  | .newUUID => String
  | .clock => Nat

/-- What Google answers to one sign-in, or how its request failed. -/
structure Google where
  token : Except String HttpResponse
  userInfo : Except String HttpResponse

/-- A statement that fails may still have had its effect (`applied`). -/
structure Outcome where
  fails : Bool := false
  applied : Bool := false
  fresh : String := ""
  now : Nat := 0

def landed (o : Outcome) : Bool := !o.fails || o.applied

def replyDb {α : Type} (o : Outcome) (a : α) : Except DbError α :=
  if o.fails then .error .failed else .ok a

def isGoogles (oauthID : String) (u : User) : Bool :=
  u.oauthProvider = some "google" && u.oauthID = some oauthID

def findUser (o : Outcome) (users : List User) (p : User → Bool) : Except DbError User :=
  if o.fails then .error .failed
  else
    match users.find? p with
    | none => .error .noRows
    | some u => .ok u

/-- An id that is no UUID is an error of the statement. -/
def userByID (o : Outcome) (users : List User) (id : String) : Except DbError User :=
  match uuidIn id with
  | none => .error .failed
  | some id => findUser o users (·.id = id)

def User.link (oauthID avatarURL : String) (now : Nat) (u : User) : User :=
  { u with
    oauthProvider := some "google", oauthID := some oauthID, avatarURL := some avatarURL,
    updatedAt := now }

def linkUser (users : List User) (oauthID avatarURL : String) (now : Nat) (id : String) :
    List User :=
  users.map fun u => if u.id = id then u.link oauthID avatarURL now else u

/-- The id is the primary key, and the e-mail is unique. -/
def insertUser (o : Outcome) (users : List User) (user : User) : Except DbError Unit × List User :=
  if users.any fun u => u.id = user.id || u.email = user.email then (.error .failed, users)
  else (replyDb o (), if landed o then users ++ [user] else users)

def answerCall (g : Google) (o : Outcome) (users : List User) : (c : Call) → Answer c × List User
  | .postToken _ => (g.token, users)
  | .getUserInfo _ => (g.userInfo, users)
  | .userByOAuth oauthID => (findUser o users (isGoogles oauthID), users)
  | .userByEmail email => (findUser o users (·.email = email), users)
  | .userByID id => (userByID o users id, users)
  | .emailExists email => (replyDb o (users.any (·.email = email)), users)
  | .link oauthID avatarURL now id =>
    (replyDb o (), if landed o then linkUser users oauthID avatarURL now id else users)
  | .insert user => insertUser o users user
  | .hashPassword _ => (if o.fails then .error "bcrypt" else .ok o.fresh, users)
  | .comparePassword _ _ => (if o.fails then .error "bcrypt" else .ok (), users)
  | .newUUID => (o.fresh, users)
  | .clock => (o.now, users)

def backend (g : Google) : World Call Answer (List User) Outcome := ⟨answerCall g⟩

def ask (c : Call) : Prog Call Answer (Answer c) := .call c .done

/-! ## The exchange -/

def decodeAccessToken (body : Json) : Option String :=
  objectFields body >>= fun fields => stringField fields "access_token"

def decodeUserInfo (body : Json) : Option GoogleUserInfo := do
  let fields ← objectFields body
  let id ← stringField fields "id"
  let email ← stringField fields "email"
  let name ← stringField fields "name"
  let avatarURL ← stringField fields "picture"
  return ⟨id, email, name, avatarURL⟩

/-- A header with another control character than a tab is not sent. -/
def validHeaderValue (s : String) : Bool :=
  s.toList.all fun c => c = '\t' || (' ' ≤ c && c ≠ '\x7f')

def tokenRequest (cfg : AuthConfig) (code : String) : String :=
  "code=" ++ code ++ "&client_id=" ++ cfg.googleClientID ++ "&client_secret=" ++
    cfg.googleSecret ++ "&redirect_uri=postmessage" ++ "&grant_type=authorization_code"

/-- The error is only logged. The status of the responses is not looked at. -/
def exchangeGoogleCode (cfg : AuthConfig) (code : String) :
    Attempt Call Answer Unit GoogleUserInfo := do
  let resp : HttpResponse ← (ask (.postToken (tokenRequest cfg code))).orGiveUp fun _ => ()
  let accessToken ← someOr (resp.body >>= decodeAccessToken) ()
  let authorization := "Bearer " ++ accessToken
  giveUpIf (!validHeaderValue authorization) ()
  let uiResp : HttpResponse ← (ask (.getUserInfo authorization)).orGiveUp fun _ => ()
  someOr (uiResp.body >>= decodeUserInfo) ()

/-! ## The handler -/

abbrev Handler (α : Type) := Attempt Call Answer (Nat × String) α

def internalError : Nat × String := (500, "internal server error")

/-- The row of a new user. -/
def newUser (gUser : GoogleUserInfo) (id : String) (createdAt updatedAt : Nat) : User where
  id := id
  email := gUser.email
  passwordHash := none
  name := gUser.name
  role := "user"
  oauthProvider := some "google"
  oauthID := some gUser.id
  avatarURL := if gUser.avatarURL = "" then none else some gUser.avatarURL
  createdAt := createdAt
  updatedAt := updatedAt

/-- The user of the profile: found by its id at Google, linked by its e-mail, or new. -/
def userFor (gUser : GoogleUserInfo) : Handler User := do
  match ← ExceptT.lift (ask (.userByOAuth gUser.id)) with
  | .error .failed => throw internalError
  | .ok user => return user
  | .error .noRows =>
    match ← ExceptT.lift (ask (.userByEmail gUser.email)) with
    | .error .failed => throw internalError
    | .ok user =>
      let now : Nat ← ExceptT.lift (ask .clock)
      (ask (.link gUser.id gUser.avatarURL now user.id)).orGiveUp fun _ => internalError
      return user
    | .error .noRows =>
      let id : String ← ExceptT.lift (ask .newUUID)
      let createdAt : Nat ← ExceptT.lift (ask .clock)
      let updatedAt : Nat ← ExceptT.lift (ask .clock)
      let user := newUser gUser id createdAt updatedAt
      (ask (.insert user)).orGiveUp fun _ => internalError
      return user

/-- The tokens of a session. Signing with HMAC does not fail. -/
def session (cfg : AuthConfig) (user : User) (now later : Nat) : AuthResponse where
  token := generateToken cfg.jwtSecret user.id user.email user.role cfg.jwtExpiry now
  refreshToken := generateRefreshToken cfg.jwtSecret user.id cfg.refreshExpiry later
  user := toPublicUser user

/-- The request is `none` where its body is no JSON of the request type. -/
def googleAuth (cfg : AuthConfig) (code : Option String) : Handler AuthResponse := do
  let code ← someOr code (400, "invalid request body")
  giveUpIf (code = "") (400, "authorization code is required")
  let gUser ← (exchangeGoogleCode cfg code).run.orGiveUp fun _ =>
    (401, "failed to authenticate with Google")
  let user ← userFor gUser
  let now : Nat ← ExceptT.lift (ask .clock)
  let later : Nat ← ExceptT.lift (ask .clock)
  return session cfg user now later

end recast_rules.sign_in
