import CortenDesk.Access.Console
import CortenDesk.Auth.TwoFactor
import CortenDesk.Sso.Resolver

/-!
The sign-in of the console and of the client by password, request by request: what a
browser's session holds between the password check and the challenge that follows it, and
what each handler issues. The routes of the browser are for guests, so a browser that is
signed in is turned away before the handler runs. A request carries what the code does not
compute: the clock, the answer of the rate limiter (the seconds to wait, if it refuses),
whether the mail relay took the message, and the values it mints. Login log, alarms and
notifications are left out.
-/
namespace CortenDesk
open Php Permissions

/-- A setting as the services read it. -/
def Settings.trimmed (settings : Settings) (key : String) : String := trim (settings.get key "")

structure TrustedDevice where
  id : Nat
  userId : Nat
  tokenHash : String
  lastUsedAt : Option Stamp := none
  expiresAt : Stamp
  deriving DecidableEq

instance : Row TrustedDevice := ⟨TrustedDevice.id⟩

/-- What the sign-in reads of the accounts and of the configuration. The console's other
handlers, the jobs and the shell may change any of it. -/
structure Accounts where
  db : Database := {}
  credentials : Nat → Credentials
  recoveryCodes : Table RecoveryCode := Table.empty
  trusted : Table TrustedDevice := Table.empty
  settings : Settings := OrderedMap.empty
  /-- `config('cortendesk.oidc_disabled')`. -/
  oidcDisabled : Bool := false

namespace User

def isSsoProvisioned (user : User) : Bool := user.authProvider = "oidc"

def isSsoPending (user : User) : Bool := user.oidcStatus = some "pending"

end User

/-- `Crypt::decryptString`, which throws on a value it did not encrypt. -/
abbrev Decrypt := String → Option String

namespace OidcService
variable (decrypt : Decrypt)

def clientSecret (settings : Settings) : String :=
  let stored := settings.trimmed "oidc_client_secret"
  if stored = "" then "" else (decrypt stored).getD stored

def isConfigured (settings : Settings) : Bool :=
  settings.trimmed "oidc_discovery_url" ≠ "" && settings.trimmed "oidc_client_id" ≠ "" &&
    clientSecret decrypt settings ≠ ""

def isEnabled (accounts : Accounts) : Bool :=
  if accounts.oidcDisabled then false
  else accounts.settings.trimmed "oidc_enabled" = "1" && isConfigured decrypt accounts.settings

def localLoginDisabled (accounts : Accounts) : Bool :=
  isEnabled decrypt accounts && accounts.settings.trimmed "oidc_disable_local_login" = "1"

end OidcService

def MailSettings.isEnabled (settings : Settings) : Bool :=
  settings.trimmed "smtp_enabled" = "1" && settings.trimmed "smtp_host" ≠ "" &&
    settings.trimmed "smtp_from_address" ≠ ""

namespace TrustedDevice

def defaultDays : Int := 30

def trustDays (settings : Settings) : Int :=
  let stored := settings.get "email_trusted_device_days" (toString defaultDays)
  max 1 (min 365 (if truthy stored then intval stored else defaultDays))

def expiry (settings : Settings) (now : Stamp) : Stamp := now + trustDays settings * 86400

/-- The trusted row that the browser's cookie names. -/
def find (lib : Primitives) (accounts : Accounts) (userId : Nat) (plain : String) (now : Stamp) :
    Option TrustedDevice :=
  if plain = "" then none
  else accounts.trusted.rows.find? fun row =>
    row.userId = userId && row.tokenHash = lib.sha256 plain && now < row.expiresAt

/-- `TrustedDevice::matches`, which pushes the expiry out. -/
def «matches» (lib : Primitives) (accounts : Accounts) (userId : Nat) (plain : String)
    (now : Stamp) : Accounts × Bool :=
  match find lib accounts userId plain now with
  | none => (accounts, false)
  | some device =>
      ({ accounts with
          trusted := accounts.trusted.update (fun row => row.id = device.id) fun row =>
            { row with lastUsedAt := some now, expiresAt := expiry accounts.settings now } }, true)

def remember (lib : Primitives) (accounts : Accounts) (userId : Nat) (plain : String)
    (now : Stamp) : Accounts :=
  { accounts with
    trusted := accounts.trusted.insert fun id =>
      { id, userId, tokenHash := lib.sha256 plain, lastUsedAt := some now,
        expiresAt := expiry accounts.settings now } }

end TrustedDevice

namespace LoginEmailVerification

def isActive (settings : Settings) : Bool :=
  settings.get "email_login_verification" "0" = "1" && MailSettings.isEnabled settings

def required (lib : Primitives) (accounts : Accounts) (user : User) (plain : String)
    (now : Stamp) : Accounts × Bool :=
  if ! isActive accounts.settings then (accounts, false)
  else if trim (user.email.getD "") = "" then (accounts, false)
  else
    let trusted := TrustedDevice.matches lib accounts user.id plain now
    (trusted.1, ! trusted.2)

end LoginEmailVerification

/-- The session marker `2fa`. -/
structure TwoFactorPending where
  userId : Nat
  at' : Stamp
  remember : Bool
  deriving DecidableEq

/-- The session marker `email_verify`. -/
structure EmailPending where
  userId : Nat
  at' : Stamp
  remember : Bool
  codeHash : String
  sentTo : String
  deriving DecidableEq

/-- The session of a browser. -/
structure Browser where
  userId : Option Nat := none
  twoFactor : Option TwoFactorPending := none
  emailVerify : Option EmailPending := none
  mailRepair : Bool := false
  deriving DecidableEq

/-- The challenge an account met after its password. -/
inductive Factor
  | emailedCode
  | totp
  | recoveryCode
  deriving DecidableEq, Repr

/-- A console session or a client access token, with the challenge it was issued upon. -/
structure Issued where
  userId : Nat
  factor : Option Factor := none
  deriving DecidableEq

inductive Response
  | redirect (route : String) (errors : List (String × String) := [])
  | back (errors : List (String × String)) (status : Option String := none)
  | signedIn (route : String) (issued : Issued) (warning : Option String := none)
  | error (message : String)
  | accessToken (issued : Issued)
  deriving DecidableEq

def Response.issued : Response → Option Issued
  | .signedIn _ issued _ => some issued
  | .accessToken issued => some issued
  | _ => none

namespace SignIn

structure State where
  accounts : Accounts
  browser : Nat → Browser := fun _ => {}

structure LoginRequest where
  now : Stamp
  limited : Option Nat := none
  username : String
  password : String
  remember : Bool := false
  /-- The cookie `cd_device`. -/
  cookie : String := ""
  sent : Bool := false
  codeHash : String := ""

structure ChallengeRequest where
  now : Stamp
  limited : Option Nat := none
  code : String
  /-- The trust cookie that the answer mints. -/
  plain : String := ""

structure ResendRequest where
  now : Stamp
  limited : Option Nat := none
  sent : Bool := false
  codeHash : String := ""

structure ClientRequest where
  username : String
  password : String

variable (lib : Primitives) (decrypt : Decrypt)

def pendingTtl : Int := 300

def emailPendingTtl : Int := 600

def tooManyAttempts (field : String) (seconds : Nat) : Response :=
  .back [(field, s!"Too many attempts. Try again in {seconds} seconds.")]

def required (field value : String) : List (String × String) :=
  if trim value = "" then [(field, s!"The {field} field is required.")] else []

/-- `Auth::validate` of an active account. -/
def validated (accounts : Accounts) (username password : String) : Option User :=
  (accounts.db.users.rows.find? fun user => user.username = username && user.isActive).filter
    fun user => (accounts.credentials user.id).password ≠ "" &&
      lib.check password (accounts.credentials user.id).password

/-- `AuthController::startEmailVerification`. -/
def startEmailVerification (settings : Settings) (browser : Browser) (user : User) (now : Stamp)
    (remember sent : Bool) (codeHash : String) : Browser × Bool :=
  if MailSettings.isEnabled settings && sent then
    ({ browser with
        emailVerify := some
          { userId := user.id, at' := now, remember, codeHash, sentTo := user.email.getD "" } },
      true)
  else (browser, false)

def mayRepairMail (db : Database) (user : User) : Bool :=
  user.isAdmin || user.consoleAllows db .setting .rw

def unavailable : String :=
  "Sign-in is temporarily unavailable: this console cannot send verification codes. Contact an administrator."

def login (accounts : Accounts) (browser : Browser) (r : LoginRequest) :
    Accounts × Browser × Response :=
  let refuse (message : String) : Accounts × Browser × Response :=
    (accounts, browser, .back [("username", message)])
  if OidcService.localLoginDisabled decrypt accounts then
    refuse "Password sign-in is disabled on this console. Use single sign-on."
  else match required "username" r.username ++ required "password" r.password with
  | error :: errors => (accounts, browser, .back (error :: errors))
  | [] =>
  match r.limited with
  | some seconds => (accounts, browser, tooManyAttempts "username" seconds)
  | none =>
  match validated lib accounts r.username r.password with
  | none => refuse "Invalid username or password."
  | some user =>
      if user.isSsoProvisioned then refuse "This account signs in through single sign-on."
      else if user.isSsoPending then
        refuse "Your account is waiting for administrator approval."
      else if (accounts.credentials user.id).totpEnabled then
        (accounts,
          { browser with
            twoFactor := some { userId := user.id, at' := r.now, remember := r.remember } },
          .redirect "login.2fa")
      else
        let (accounts, needed) :=
          LoginEmailVerification.required lib accounts user r.cookie r.now
        let signIn (browser : Browser) : Accounts × Browser × Response :=
          (accounts, { browser with userId := some user.id },
            .signedIn "overview" { userId := user.id })
        if ! needed then signIn browser
        else
          let (browser, started) := startEmailVerification accounts.settings browser user r.now
            r.remember r.sent r.codeHash
          if started then (accounts, browser, .redirect "login.email")
          else if ! mayRepairMail accounts.db user then
            (accounts, browser, .back [("username", unavailable)])
          else signIn { browser with mailRepair := true }

/-- The account of a marker. -/
def markedUser (accounts : Accounts) (userId : Nat) : Option User :=
  (accounts.db.users.find? userId).filter fun user => user.isActive

def emailExpired (now : Stamp) (pending : EmailPending) : Bool := pending.at' + emailPendingTtl < now

def twoFactorExpired (now : Stamp) (pending : TwoFactorPending) : Bool :=
  pending.at' + pendingTtl < now

/-- `AuthController::emailPendingUser`. -/
def emailPendingUser (accounts : Accounts) (browser : Browser) (now : Stamp) :
    Browser × Option (User × EmailPending) :=
  match browser.emailVerify with
  | none => (browser, none)
  | some pending =>
      if pending.userId = 0 then (browser, none)
      else if emailExpired now pending then ({ browser with emailVerify := none }, none)
      else (browser, (markedUser accounts pending.userId).map fun user => (user, pending))

/-- `AuthController::pendingUser`. -/
def pendingUser (accounts : Accounts) (browser : Browser) (now : Stamp) :
    Browser × Option (User × TwoFactorPending) :=
  match browser.twoFactor with
  | none => (browser, none)
  | some pending =>
      if pending.userId = 0 then (browser, none)
      else if twoFactorExpired now pending then ({ browser with twoFactor := none }, none)
      else
        (browser, ((markedUser accounts pending.userId).filter fun user =>
          (accounts.credentials user.id).totpEnabled).map fun user => (user, pending))

def expired : Response :=
  .redirect "login" [("code", "Your sign-in session expired. Please sign in again.")]

/-- `preg_replace('/\D/', '', $code)`. -/
def digitsOf (code : String) : String := String.ofList (code.toList.filter Char.isDigit)

def emailChallenge (accounts : Accounts) (browser : Browser) (r : ChallengeRequest) :
    Accounts × Browser × Response :=
  match emailPendingUser accounts browser r.now with
  | (browser, none) => (accounts, browser, expired)
  | (browser, some (user, pending)) =>
      match required "code" r.code with
      | error :: errors => (accounts, browser, .back (error :: errors))
      | [] =>
      match r.limited with
      | some seconds => (accounts, browser, tooManyAttempts "code" seconds)
      | none =>
          if pending.codeHash = "" || ! lib.check (digitsOf r.code) pending.codeHash then
            (accounts, browser, .back [("code", TwoFactor.incorrect)])
          else
            (TrustedDevice.remember lib accounts user.id r.plain r.now,
              { browser with emailVerify := none, userId := some user.id },
              .signedIn "overview" { userId := user.id, factor := some .emailedCode })

def resendEmailCode (accounts : Accounts) (browser : Browser) (r : ResendRequest) :
    Accounts × Browser × Response :=
  match emailPendingUser accounts browser r.now with
  | (browser, none) => (accounts, browser, .redirect "login")
  | (browser, some (user, pending)) =>
      match r.limited with
      | some seconds => (accounts, browser, tooManyAttempts "code" seconds)
      | none =>
          let (browser, started) := startEmailVerification accounts.settings browser user r.now
            pending.remember r.sent r.codeHash
          if started then (accounts, browser, .back [] (some "A new code is on its way."))
          else if ! mayRepairMail accounts.db user then
            (accounts, { browser with emailVerify := none },
              .redirect "login" [("username", unavailable)])
          else
            (accounts, { browser with emailVerify := none, userId := some user.id, mailRepair := true },
              .signedIn "settings" { userId := user.id })

def twoFactorChallenge (accounts : Accounts) (browser : Browser) (r : ChallengeRequest) :
    Accounts × Browser × Response :=
  match pendingUser accounts browser r.now with
  | (browser, none) => (accounts, browser, expired)
  | (browser, some (user, _)) =>
      match required "code" r.code with
      | error :: errors => (accounts, browser, .back (error :: errors))
      | [] =>
      match r.limited with
      | some seconds => (accounts, browser, tooManyAttempts "code" seconds)
      | none =>
          let signedIn : Browser := { browser with twoFactor := none, userId := some user.id }
          let code := trim r.code
          if TwoFactor.looksLikeRecoveryCode code then
            match TwoFactor.consumeRecoveryCode lib accounts.recoveryCodes user.id code r.now with
            | .error message => (accounts, browser, .back [("code", message)])
            | .ok (recoveryCodes, warning) =>
                ({ accounts with recoveryCodes }, signedIn,
                  .signedIn "overview" { userId := user.id, factor := some .recoveryCode } warning)
          else
            match TwoFactor.consumeTotp lib (accounts.credentials user.id) code r.now with
            | .error message => (accounts, browser, .back [("code", message)])
            | .ok credentials =>
                ({ accounts with
                    credentials := Function.update accounts.credentials user.id credentials },
                  signedIn, .signedIn "overview" { userId := user.id, factor := some .totp })

/-- The account whose name and password the client presented. -/
def clientUser (accounts : Accounts) (r : ClientRequest) : Option User :=
  (accounts.db.users.rows.find? fun user => user.username = r.username).filter fun user =>
    user.isActive && r.password ≠ "" &&
      lib.check r.password (accounts.credentials user.id).password

/-- `ClientAuthController::login`. -/
def clientLogin (accounts : Accounts) (r : ClientRequest) : Accounts × Response :=
  match clientUser lib accounts r with
  | none => (accounts, .error "Wrong credentials")
  | some user =>
      ({ accounts with
          db := { accounts.db with clientTokens := user.id :: accounts.db.clientTokens } },
        .accessToken { userId := user.id })

/-- A request, or a change made to the accounts and the settings by anything else. A session
whose row is deleted ends as with `logout`. -/
inductive Event
  | login (browser : Nat) (r : LoginRequest)
  | emailChallenge (browser : Nat) (r : ChallengeRequest)
  | resendEmailCode (browser : Nat) (r : ResendRequest)
  | twoFactorChallenge (browser : Nat) (r : ChallengeRequest)
  | clientLogin (r : ClientRequest)
  | logout (browser : Nat)
  | administer (accounts : Accounts)

/-- The account a browser is signed in to. -/
def State.user (s : State) (browser : Nat) : Option User :=
  (s.browser browser).userId.bind s.accounts.db.users.find?

/-- A handler behind `EnsureUserIsActive` and the `guest` middleware. -/
def asGuest (s : State) (browser : Nat)
    (handle : Accounts → Browser → Accounts × Browser × Response) : State × Response :=
  match s.user browser with
  | some user =>
      if user.isActive then (s, .redirect "overview")
      else
        ({ s with browser := Function.update s.browser browser {} },
          .redirect "login" [("username", "This account has been disabled.")])
  | none =>
      let (accounts, session, response) := handle s.accounts (s.browser browser)
      ({ accounts, browser := Function.update s.browser browser session }, response)

def handle (s : State) : Event → State × Response
  | .login browser r => asGuest s browser (login lib decrypt · · r)
  | .emailChallenge browser r => asGuest s browser (emailChallenge lib · · r)
  | .resendEmailCode browser r => asGuest s browser (resendEmailCode · · r)
  | .twoFactorChallenge browser r => asGuest s browser (twoFactorChallenge lib · · r)
  | .clientLogin r =>
      let (accounts, response) := clientLogin lib s.accounts r
      ({ s with accounts }, response)
  | .logout browser =>
      ({ s with browser := Function.update s.browser browser {} }, .redirect "login")
  | .administer accounts => ({ s with accounts }, .back [])

def step (s : State) (event : Event) : State := (handle lib decrypt s event).1

end SignIn
end CortenDesk
