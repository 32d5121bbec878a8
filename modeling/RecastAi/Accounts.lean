-- The sign-in handlers with a password (`internal/gateway/handler/auth.go`):
-- `Register`, `Login` and `Refresh`, over the table of users that `GoogleAuth`
-- writes as well.
import RecastAi.GoCase
import RecastAi.GoText
import RecastAi.GoogleSignIn

open call_programs go_text recast_rules.auth
open recast_rules.pipeline (DbError)

namespace recast_rules.sign_in

/-! ## The handlers -/

structure RegisterRequest where
  email : String
  password : String
  name : String

structure LoginRequest where
  email : String
  password : String

/-- `strings.TrimSpace(strings.ToLower(email))`. -/
def normalEmail (email : String) : String := trimSpace (toLower email)

/-- The row of a user with a password. -/
def registeredUser (req : RegisterRequest) (id hash : String) (createdAt updatedAt : Nat) : User where
  id := id
  email := normalEmail req.email
  passwordHash := some hash
  name := req.name
  role := "user"
  oauthProvider := none
  oauthID := none
  avatarURL := none
  createdAt := createdAt
  updatedAt := updatedAt

/-- The end of each handler. -/
def signIn (cfg : AuthConfig) (user : User) : Handler AuthResponse := do
  let now : Nat ← ExceptT.lift (ask .clock)
  let later : Nat ← ExceptT.lift (ask .clock)
  return session cfg user now later

/-- A request is `none` where its body is no JSON of the request type. -/
def register (cfg : AuthConfig) (req : Option RegisterRequest) : Handler AuthResponse := do
  let req ← someOr req (400, "invalid request body")
  let email := normalEmail req.email
  giveUpIf (email = "" || req.password = "") (400, "email and password are required")
  giveUpIf (req.password.utf8ByteSize < 8) (400, "password must be at least 8 characters")
  let taken : Bool ← (ask (.emailExists email)).orGiveUp fun _ => internalError
  giveUpIf taken (409, "email already registered")
  let hash : String ← (ask (.hashPassword req.password)).orGiveUp fun _ => internalError
  let id : String ← ExceptT.lift (ask .newUUID)
  let createdAt : Nat ← ExceptT.lift (ask .clock)
  let updatedAt : Nat ← ExceptT.lift (ask .clock)
  let user := registeredUser req id hash createdAt updatedAt
  (ask (.insert user)).orGiveUp fun _ => internalError
  signIn cfg user

/-- The answer to a lookup, with the status for a user that is not there. -/
def lookupError (missing : Nat × String) : DbError → Nat × String
  | .noRows => missing
  | .failed => internalError

def login (cfg : AuthConfig) (req : Option LoginRequest) : Handler AuthResponse := do
  let req ← someOr req (400, "invalid request body")
  let email := normalEmail req.email
  giveUpIf (email = "" || req.password = "") (400, "email and password are required")
  let user : User ← (ask (.userByEmail email)).orGiveUp (lookupError (401, "invalid email or password"))
  let hash ← someOr user.passwordHash (401, "this account uses social login")
  (ask (.comparePassword hash req.password)).orGiveUp fun _ => (401, "invalid email or password")
  signIn cfg user

/-- `read` is what the JWT library makes of a text. -/
def refresh (read : String → Option Token) (cfg : AuthConfig) (token : Option String) :
    Handler AuthResponse := do
  let token ← someOr token (400, "invalid request body")
  giveUpIf (token = "") (400, "refresh_token is required")
  let now : Nat ← ExceptT.lift (ask .clock)
  let userID ← someOr (parseRefreshToken read cfg.jwtSecret now token)
    (401, "invalid or expired refresh token")
  let user : User ← (ask (.userByID userID)).orGiveUp (lookupError (401, "user not found"))
  signIn cfg user

/-! ## Requests -/

inductive Request where
  | register (req : Option RegisterRequest)
  | login (req : Option LoginRequest)
  | refresh (token : Option String)
  | google (code : Option String)

def Request.handle (read : String → Option Token) (cfg : AuthConfig) :
    Request → Handler AuthResponse
  | .register req => sign_in.register cfg req
  | .login req => sign_in.login cfg req
  | .refresh token => sign_in.refresh read cfg token
  | .google code => googleAuth cfg code

/-- The table of users, where Google may answer each sign-in differently. -/
def accounts : World Call Answer (List User) (Google × Outcome) := ⟨fun x => answerCall x.1 x.2⟩

end recast_rules.sign_in
