import CortenDesk.Auth.SignIn
import CortenDesk.Sso.TokenExchange

/-!
Single sign-on of the console. A redirect leaves what it drew in the session of its browser, and a
callback takes it out before it looks at anything: so a callback redeems the last redirect of its
own browser, and once. What the provider and the browsers send is arbitrary. The requests of one
browser are handled one at a time.
-/
namespace CortenDesk
open Php

namespace OidcController
open OidcService (Failure Answers JwtLibrary castText)

structure Session where
  state : Option String := none
  nonce : Option String := none
  verifier : Option String := none
  userId : Option Nat := none
  authenticated : Bool := false
  idToken : Option String := none
  deriving DecidableEq

/-- What a redirect draws. -/
structure Draw where
  state : String
  nonce : String
  verifier : String
  deriving DecidableEq

structure LoginLog where
  userId : Option Nat
  username : String
  successful : Bool

structure State where
  accounts : Accounts
  sessions : Nat → Session := fun _ => {}
  logs : List LoginLog := []

inductive Response
  | home
  | login (error : String)
  | away (query : List (String × String))
  | failed
  | signedIn (userId : Nat) (idToken : String)
  deriving DecidableEq

inductive Event
  | redirect (browser : Nat) (draw : Draw) (discovery : Except Failure (List (Key × Json)))
  | callback (browser : Nat) (query : List (Key × Json)) (answers : Except Failure Answers)
  | logout (browser : Nat)
  | change (accounts : Accounts)

def disabled : String := "Single sign-on is not enabled on this console."

def setSession (s : State) (browser : Nat) (session : Session) : State :=
  { s with sessions := Function.update s.sessions browser session }

variable (decrypt : Decrypt) (challenge : String → String) (callbackUrl : String)

def scopes (settings : Settings) : String :=
  if settings.trimmed "oidc_scopes" ≠ "" then settings.trimmed "oidc_scopes" else "openid email profile"

/-- The query of the authorize URL, where the provider has one. -/
def buildAuthorizationUrl (settings : Settings) (draw : Draw) (discovery : List (Key × Json)) :
    Except Failure (List (String × String)) := do
  let endpoint ← castText (Json.get discovery (.str "authorization_endpoint") (.string ""))
  if endpoint = "" then throw (.oidc "The provider did not advertise an authorization endpoint.")
  else return [
    ("response_type", "code"), ("client_id", settings.trimmed "oidc_client_id"),
    ("redirect_uri", callbackUrl), ("scope", scopes settings), ("state", draw.state),
    ("nonce", draw.nonce), ("code_challenge", challenge draw.verifier),
    ("code_challenge_method", "S256")]

/-- The routes are for guests, and both handlers look first whether single sign-on is on. -/
def guarded (s : State) (browser : Nat) (handled : State × Response) : State × Response :=
  if (s.sessions browser).userId.isSome then (s, .home)
  else if ! OidcService.isEnabled decrypt s.accounts then (s, .login disabled)
  else handled

def redirect (s : State) (browser : Nat) (draw : Draw)
    (discovery : Except Failure (List (Key × Json))) : State × Response :=
  guarded decrypt s browser
    (setSession s browser { s.sessions browser with
      state := some draw.state, nonce := some draw.nonce, verifier := some draw.verifier },
      match discovery.bind (buildAuthorizationUrl challenge callbackUrl s.accounts.settings draw) with
      | .ok query => .away query
      | .error (.oidc message) => .login message
      | .error .threw => .failed)

/-- The code of a callback that answers the request of the session. -/
def callbackCode (expectedState : Option String) (query : List (Key × Json)) :
    Except Failure String := do
  let error := Json.get query (.str "error") .null
  if error.truthy then
    let description ← castText (Json.get query (.str "error_description") error)
    throw (.oidc ("The identity provider rejected the sign-in: " ++ description))
  else
    let code ← castText (Json.get query (.str "code") (.string ""))
    let state ← castText (Json.get query (.str "state") (.string ""))
    if code = "" then throw (.oidc "The identity provider did not return an authorization code.")
    else if expectedState.getD "" = "" || expectedState ≠ some state then
      throw (.oidc "The sign-in request expired or was tampered with. Please try again.")
    else return code

variable {json : Bytes → Json} (library : JwtLibrary json)

/-- `OidcService::exchange`. -/
def exchange (accounts : Accounts) (session : Session) (query : List (Key × Json))
    (answers : Except Failure Answers) : Except Failure (Arr Key Json × String) := do
  let _ ← callbackCode session.state query
  OidcService.exchangeCode library accounts.settings
    (OidcService.clientSecret decrypt accounts.settings) (← answers) session.nonce

def valueOf : Json → Value
  | .null => .null
  | .bool b => .bool b
  | .int i => .int i
  | .float text _ _ => .float text
  | .string s => .string s
  | .array _ => .array

/-- The claims with a name. -/
def named (claims : Arr Key Json) : Claims :=
  OrderedMap.ofList (claims.entries.filterMap fun (key, v) =>
    match key with
    | .str name => some (name, valueOf v)
    | .int _ => none)

def logFailure (s : State) (username : String) : State :=
  { s with logs := s.logs ++
    [{ userId := none, username := if truthy username then username else "sso", successful := false }] }

def usernameOf (claims : Arr Key Json) : Except Failure String :=
  castText (Json.get claims.entries (.str "preferred_username")
    (Json.get claims.entries (.str "email") (.string "sso")))

/-- Nobody is admitted. -/
def refuse (s : State) (claims : Arr Key Json) (message : String) : State × Response :=
  match usernameOf claims with
  | .ok username => (logFailure s username, .login message)
  | .error _ => (s, .failed)

def pulled (session : Session) : Session :=
  { session with state := none, nonce := none, verifier := none }

/-- The session is opened. -/
def signIn (s : State) (browser : Nat) (user : User) (idToken : String) : State × Response :=
  ({ setSession s browser { s.sessions browser with
      userId := some user.id, authenticated := true, idToken := some idToken } with
    logs := s.logs ++ [{ userId := some user.id, username := user.username, successful := true }] },
    .signedIn user.id idToken)

/-- What becomes of the claims. -/
def outcome (s : State) (browser : Nat) (claims : Arr Key Json) (idToken : String) : State × Response :=
  let (db, result) := OidcUserResolver.resolve s.accounts.settings s.accounts.db (named claims)
  let s := { s with accounts := { s.accounts with db } }
  match result with
  | .ok user => signIn s browser user idToken
  | .pending message | .denied message => refuse s claims message
  | .threw => (s, .failed)

def callback (s : State) (browser : Nat) (query : List (Key × Json))
    (answers : Except Failure Answers) : State × Response :=
  let session := s.sessions browser
  let after := setSession s browser (pulled session)
  guarded decrypt s browser
    (match exchange decrypt library s.accounts session query answers with
      | .error (.oidc message) => (logFailure after "", .login message)
      | .error .threw => (after, .failed)
      | .ok (claims, idToken) => outcome after browser claims idToken)

def handle (s : State) : Event → State × Response
  | .redirect browser draw discovery => redirect decrypt challenge callbackUrl s browser draw discovery
  | .callback browser query answers => callback decrypt library s browser query answers
  | .logout browser => (setSession s browser {}, .login "")
  | .change accounts => ({ s with accounts }, .home)

end OidcController
end CortenDesk
