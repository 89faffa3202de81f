import CortenDesk.Auth.ResetLinks
import CortenDesk.Sso.HandOff

/-!
A password reset among the sign-ins of the same accounts, statement by statement: the console's
password form with its two challenges, single sign-on of the console and of the client, the
client's login, and the return of a browser with a remember-me cookie. A request works on the
session and the account it loaded. Beside the rows the shared state records, for each session,
cookie and client token, what it rests on, and for each account how many resets have changed its
password and which of them have completed. No request reads these records.
-/
namespace CortenDesk
open Php

namespace Revocation
open SignIn (LoginRequest ChallengeRequest ResendRequest ClientRequest)

/-- What a credential rests on: a check against the password that a number of resets had set,
or an answer of the provider that came when a number of resets had completed. -/
inductive Authority
  | password (version : Nat)
  | sso (completed : Nat)
  deriving DecidableEq

/-- A row of `sessions`; a session that is not stored has the id 0. The versions are those of
the password behind the two pending markers. -/
structure Session where
  id : Nat := 0
  browser : Browser := {}
  totpVersion : Nat := 0
  emailVersion : Nat := 0
  authority : Authority := .password 0
  deriving DecidableEq

instance : Row Session := ⟨Session.id⟩

structure ClientToken where
  id : Nat
  userId : Nat
  token : String
  authority : Authority
  deriving DecidableEq

instance : Row ClientToken := ⟨ClientToken.id⟩

/-- A remember-me cookie that a browser was given. -/
structure Cookie where
  userId : Nat
  token : Nat
  authority : Authority
  deriving DecidableEq

structure Shared where
  accounts : Accounts
  links : Table PasswordReset := Table.empty
  sessions : Table Session := Table.empty
  clientTokens : Table ClientToken := Table.empty
  /-- The client sign-ins under way, as `HandOff` has them. -/
  flows : Nat → Option OidcAuthRequest := fun _ => none
  /-- `users.remember_token`. A random token is the number of its draw. -/
  rememberToken : Nat → Option Nat := fun _ => none
  drawn : Nat := 0
  cookies : List Cookie := []
  version : Nat → Nat := fun _ => 0
  completed : Nat → List Nat := fun _ => []

inductive Request
  | login (session : Nat) (r : LoginRequest)
  | emailChallenge (session : Nat) (r : ChallengeRequest)
  | resendEmailCode (session : Nat) (r : ResendRequest)
  | twoFactorChallenge (session : Nat) (r : ChallengeRequest)
  | callback (session : Nat)
  | recaller (session : Nat) (cookie : Cookie)
  | logout (session : Nat)
  | clientLogin (r : ClientRequest)
  | client (flow : Nat) (request : HandOff.Request)
  | reset (token password confirmation : String)

/-- An account as a request loaded it, and the version of the password behind the request. -/
structure Loaded where
  user : User
  enrolled : Bool
  token : Option Nat
  version : Nat

/-- What `Auth::login` is called with. -/
structure Entry where
  session : Session
  userId : Nat
  authority : Authority
  remember : Bool := false
  token : Option Nat := none

/-- The statement of `revokeAllAccess` that comes next. -/
inductive Stage
  | clientTokens
  | sessions
  | trusted
  | rememberToken
  | done
  deriving DecidableEq

def Stage.next : Stage → Stage
  | .clientTokens => .sessions
  | .sessions => .trusted
  | .trusted => .rememberToken
  | .rememberToken | .done => .done

/-- Where a request stands. -/
inductive Process
  | sent (request : Request)
  | checked (session : Session) (r : LoginRequest) (loaded : Loaded)
  | challenged (session : Session) (r : ChallengeRequest) (loaded : Loaded)
      (pending : TwoFactorPending)
  | emailed (session : Session) (r : ChallengeRequest) (loaded : Loaded) (pending : EmailPending)
  | resending (session : Session) (r : ResendRequest) (loaded : Loaded) (pending : EmailPending)
  | entering (entry : Entry)
  | entered (entry : Entry)
  | leaving (session userId : Nat) (token : Option Nat)
  | issuing (loaded : Loaded)
  | client (flow finished : Nat) (process : HandOff.Process)
  | found (link userId : Nat)
  | claiming (link userId : Nat)
  | claimed (userId : Nat)
  | revoking (stage : Stage) (userId version : Nat)
  | returned

/-- What a step takes from outside: the clock, whether reset is offered, the hash of the new
password, the client token that is minted and what the provider and the resolver answer. -/
structure Input where
  now : Instant := 0
  available : Bool := true
  passwordHash : String := ""
  token : String := ""
  outcome : HandOff.Outcome := .failed ""

/-- What happens beside the requests: the accounts change but for their passwords, links are
issued, client sign-ins start and are pruned, sessions and client tokens end. -/
inductive Environment
  | administer (accounts : Accounts)
  | issueLink (userId : Nat) (tokenHash : String) (now : Stamp)
  | startFlow (flow : Nat) (code state : String) (deviceId deviceUuid : Option String)
      (now : Instant)
  | pruneFlow (flow : Nat)
  | endSession (id : Nat)
  | endToken (id : Nat)

variable (lib : Primitives) (decrypt : Decrypt)

/-- The session that a cookie names, a new one if there is none. -/
def Shared.session (s : Shared) (id : Nat) : Session := (s.sessions.find? id).getD {}

def Shared.load (s : Shared) (user : User) (version : Nat) : Loaded where
  user
  enrolled := (s.accounts.credentials user.id).totpEnabled
  token := s.rememberToken user.id
  version

/-- The account a session is signed in to. -/
def Shared.user (s : Shared) (session : Session) : Option User :=
  session.browser.userId.bind s.accounts.db.users.find?

/-- The session of a guest is saved at the end of a request. One that was stored when the
request began is updated, which does nothing when it is gone. -/
def Shared.writeGuest (s : Shared) (session : Session) : Shared :=
  let browser : Browser := { session.browser with userId := none }
  { s with
    sessions :=
      if session.id = 0 then s.sessions.insert fun id => { session with id, browser }
      else s.sessions.update (fun row => row.id = session.id) fun row =>
        { session with id := row.id, browser } }

def Shared.cycleRememberToken (s : Shared) (userId : Nat) : Shared :=
  { s with
    rememberToken := Function.update s.rememberToken userId (some s.drawn)
    drawn := s.drawn + 1 }

/-- A handler behind `EnsureUserIsActive` and the `guest` middleware. -/
def asGuest (s : Shared) (session : Session) (handled : Shared × Process) : Shared × Process :=
  match s.user session with
  | none => handled
  | some user =>
      (s, if user.isActive then .returned
        else .leaving session.id user.id (s.rememberToken user.id))

def enter (session : Session) (loaded : Loaded) (remember : Bool) : Process :=
  .entering
    { session, userId := loaded.user.id, authority := .password loaded.version, remember,
      token := loaded.token }

/-- The password check of `AuthController::login`, with what precedes it. -/
def checkLogin (s : Shared) (session : Session) (r : LoginRequest) : Process :=
  if OidcService.localLoginDisabled decrypt s.accounts then .returned
  else if SignIn.required "username" r.username ++ SignIn.required "password" r.password ≠ [] then
    .returned
  else if r.limited.isSome then .returned
  else match SignIn.validated lib s.accounts r.username r.password with
    | none => .returned
    | some user => .checked session r (s.load user (s.version user.id))

/-- The rest of `login`, up to `Auth::login`. -/
def afterLogin (s : Shared) (session : Session) (r : LoginRequest) (loaded : Loaded) :
    Shared × Process :=
  if loaded.user.isSsoProvisioned || loaded.user.isSsoPending then (s, .returned)
  else if loaded.enrolled then
    (s.writeGuest
      { session with
        totpVersion := loaded.version
        browser.twoFactor :=
          some { userId := loaded.user.id, at' := r.now, remember := r.remember } },
      .returned)
  else
    let (accounts, needed) :=
      LoginEmailVerification.required lib s.accounts loaded.user r.cookie r.now
    let s := { s with accounts }
    if ! needed then (s, enter session loaded r.remember)
    else
      let (browser, started) := SignIn.startEmailVerification accounts.settings session.browser
        loaded.user r.now r.remember r.sent r.codeHash
      if started then
        (s.writeGuest { session with browser, emailVersion := loaded.version }, .returned)
      else if ! SignIn.mayRepairMail accounts.db loaded.user then (s, .returned)
      else (s, enter { session with browser.mailRepair := true } loaded r.remember)

def loadTwoFactor (s : Shared) (session : Session) (r : ChallengeRequest) : Shared × Process :=
  match SignIn.pendingUser s.accounts session.browser r.now with
  | (browser, none) => (s.writeGuest { session with browser }, .returned)
  | (_, some (user, pending)) =>
      (s, .challenged session r (s.load user session.totpVersion) pending)

/-- The rest of `twoFactorChallenge`, up to `Auth::login`. -/
def answerTwoFactor (s : Shared) (session : Session) (r : ChallengeRequest) (loaded : Loaded)
    (pending : TwoFactorPending) : Shared × Process :=
  if SignIn.required "code" r.code ≠ [] || r.limited.isSome then (s, .returned)
  else
    let entering := enter { session with browser.twoFactor := none } loaded pending.remember
    if TwoFactor.looksLikeRecoveryCode (trim r.code) then
      match TwoFactor.consumeRecoveryCode lib s.accounts.recoveryCodes loaded.user.id
          (trim r.code) r.now with
      | .error _ => (s, .returned)
      | .ok (recoveryCodes, _) => ({ s with accounts := { s.accounts with recoveryCodes } }, entering)
    else
      match TwoFactor.consumeTotp lib (s.accounts.credentials loaded.user.id) (trim r.code)
          r.now with
      | .error _ => (s, .returned)
      | .ok credentials =>
          ({ s with
              accounts := { s.accounts with
                credentials :=
                  Function.update s.accounts.credentials loaded.user.id credentials } },
            entering)

/-- The pending account of the two handlers of the emailed code. -/
def loadEmail (s : Shared) (session : Session) (now : Stamp)
    (next : Loaded → EmailPending → Process) : Shared × Process :=
  match SignIn.emailPendingUser s.accounts session.browser now with
  | (browser, none) => (s.writeGuest { session with browser }, .returned)
  | (_, some (user, pending)) => (s, next (s.load user session.emailVersion) pending)

/-- The rest of `emailChallenge`, up to `Auth::login`. -/
def answerEmail (s : Shared) (session : Session) (r : ChallengeRequest) (loaded : Loaded)
    (pending : EmailPending) : Shared × Process :=
  if SignIn.required "code" r.code ≠ [] || r.limited.isSome then (s, .returned)
  else if pending.codeHash = "" || ! lib.check (SignIn.digitsOf r.code) pending.codeHash then
    (s, .returned)
  else
    ({ s with
        accounts := TrustedDevice.remember lib s.accounts loaded.user.id r.plain r.now },
      enter { session with browser.emailVerify := none } loaded pending.remember)

/-- The rest of `resendEmailCode`. -/
def afterResend (s : Shared) (session : Session) (r : ResendRequest) (loaded : Loaded)
    (pending : EmailPending) : Shared × Process :=
  if r.limited.isSome then (s, .returned)
  else
    let (browser, started) := SignIn.startEmailVerification s.accounts.settings session.browser
      loaded.user r.now pending.remember r.sent r.codeHash
    if started then (s.writeGuest { session with browser }, .returned)
    else
      let session := { session with browser.emailVerify := none }
      if ! SignIn.mayRepairMail s.accounts.db loaded.user then (s.writeGuest session, .returned)
      else (s, enter { session with browser.mailRepair := true } loaded pending.remember)

/-- `OidcController::callback`, up to `Auth::login`. -/
def callback (s : Shared) (session : Session) (outcome : HandOff.Outcome) : Process :=
  if ! OidcService.isEnabled decrypt s.accounts then .returned
  else match outcome with
    | .failed _ | .refused _ => .returned
    | .signedIn userId =>
        .entering { session, userId, authority := .sso (s.completed userId).length }

/-- A page opened with a remember-me cookie. -/
def userFromRecaller (s : Shared) (session : Session) (cookie : Cookie) : Process :=
  if cookie ∈ s.cookies ∧ s.rememberToken cookie.userId = some cookie.token then
    match s.accounts.db.users.find? cookie.userId with
    | none => .returned
    | some user =>
        if user.isActive then
          .entering { session, userId := cookie.userId, authority := cookie.authority }
        else .leaving session.id cookie.userId (some cookie.token)
  else .returned

/-- `Auth::login`: the old session is destroyed, and an account that is to be remembered gets a
token if it has none. -/
def login (s : Shared) (entry : Entry) : Shared × Process :=
  let s := { s with sessions := s.sessions.delete fun row => row.id = entry.session.id }
  if entry.remember && entry.token.isNone then
    (s.cycleRememberToken entry.userId, .entered { entry with token := some s.drawn })
  else (s, .entered entry)

/-- The cookie that goes out with the response. -/
def Entry.cookies (entry : Entry) : List Cookie :=
  if entry.remember then
    (entry.token.map fun token =>
      { userId := entry.userId, token, authority := entry.authority }).toList
  else []

/-- The end of the request: the new session is stored and the response goes out. -/
def respond (s : Shared) (entry : Entry) : Shared :=
  { s with
    sessions := s.sessions.insert fun id =>
      { entry.session with
        id
        browser := { entry.session.browser with userId := some entry.userId }
        authority := entry.authority }
    cookies := entry.cookies ++ s.cookies }

/-- The console's logout, in one step. -/
def logout (s : Shared) (session userId : Nat) (token : Option Nat) : Shared :=
  let s := { s with sessions := s.sessions.delete fun row => row.id = session }
  if token.isSome then s.cycleRememberToken userId else s

def issueToken (s : Shared) (userId : Nat) (token : String) (authority : Authority) : Shared :=
  { s with clientTokens := s.clientTokens.insert fun id => { id, userId, token, authority } }

/-- One step of a client's sign-in, on its own row. The answer of the provider is dated when
the callback has resolved it to an account. -/
def clientStep (pid : Nat) (s : Shared) (flow finished : Nat) (process : HandOff.Process)
    (input : Input) : Shared × Process :=
  let before : HandOff.Shared :=
    { row := s.flows flow, users := s.accounts.db.users.rows.map User.id, now := input.now }
  let (after, next) := HandOff.act pid before process
    { outcome := input.outcome, token := input.token }
  let issued := after.clientTokens.foldl
    (fun s (userId, token) => issueToken s userId token (.sso finished)) s
  let finished := match next with
    | .issuing _ userId => (s.completed userId).length
    | _ => finished
  ({ issued with flows := Function.update s.flows flow after.row }, .client flow finished next)

/-- `PasswordResetController::reset` up to the link it finds. -/
def findLink (s : Shared) (token password confirmation : String) (input : Input) : Process :=
  if ! input.available then .returned
  else if ! ResetLinks.acceptable password confirmation then .returned
  else match PasswordReset.findValid s.links (lib.sha256 token) input.now.stored with
    | none => .returned
    | some link => .found link.id link.userId

/-- `$user->forceFill(['password' => …])->save()`. -/
def changePassword (s : Shared) (userId : Nat) (passwordHash : String) : Shared :=
  { s with
    accounts := { s.accounts with
      credentials := Function.update s.accounts.credentials userId
        { s.accounts.credentials userId with password := passwordHash } }
    version := Function.update s.version userId (s.version userId + 1) }

/-- One statement of `User::revokeAllAccess`. -/
def revoke (s : Shared) (userId : Nat) : Stage → Shared
  | .clientTokens =>
      { s with clientTokens := s.clientTokens.delete fun row => row.userId = userId }
  | .sessions =>
      { s with sessions := s.sessions.delete fun row => row.browser.userId = some userId }
  | .trusted =>
      { s with
        accounts := { s.accounts with
          trusted := s.accounts.trusted.delete fun row => row.userId = userId } }
  | .rememberToken => s.cycleRememberToken userId
  | .done => s

/-- The reset is answered. -/
def complete (s : Shared) (userId version : Nat) : Shared :=
  { s with completed := Function.update s.completed userId (version :: s.completed userId) }

def receive (pid : Nat) (s : Shared) (input : Input) : Request → Shared × Process
  | .login id r => asGuest s (s.session id) (s, checkLogin lib decrypt s (s.session id) r)
  | .twoFactorChallenge id r => asGuest s (s.session id) (loadTwoFactor s (s.session id) r)
  | .emailChallenge id r =>
      asGuest s (s.session id) (loadEmail s (s.session id) r.now (.emailed (s.session id) r))
  | .resendEmailCode id r =>
      asGuest s (s.session id) (loadEmail s (s.session id) r.now (.resending (s.session id) r))
  | .callback id => asGuest s (s.session id) (s, callback decrypt s (s.session id) input.outcome)
  | .recaller id cookie => asGuest s (s.session id) (s, userFromRecaller s (s.session id) cookie)
  | .logout id =>
      match s.user (s.session id) with
      | none => (s, .returned)
      | some user => (s, .leaving id user.id (s.rememberToken user.id))
  | .clientLogin r =>
      match SignIn.clientUser lib s.accounts r with
      | none => (s, .returned)
      | some user => (s, .issuing (s.load user (s.version user.id)))
  | .client flow request => clientStep pid s flow 0 (.sent request) input
  | .reset token password confirmation => (s, findLink lib s token password confirmation input)

/-- One statement of a request, with what it computes before the next one. -/
def act (pid : Nat) (s : Shared) (process : Process) (input : Input) : Shared × Process :=
  match process with
  | .sent request => receive lib decrypt pid s input request
  | .checked session r loaded => afterLogin lib s session r loaded
  | .challenged session r loaded pending => answerTwoFactor lib s session r loaded pending
  | .emailed session r loaded pending => answerEmail lib s session r loaded pending
  | .resending session r loaded pending => afterResend s session r loaded pending
  | .entering entry => login s entry
  | .entered entry => (respond s entry, .returned)
  | .leaving session userId token => (logout s session userId token, .returned)
  | .issuing loaded =>
      (issueToken s loaded.user.id input.token (.password loaded.version), .returned)
  | .client flow finished process => clientStep pid s flow finished process input
  | .found link userId =>
      (s, if (s.accounts.db.users.find? userId).any User.mayReset then .claiming link userId
        else .returned)
  | .claiming link userId =>
      let (links, hit) := PasswordReset.claim s.links link input.now.stored
      ({ s with links }, if hit then .claimed userId else .returned)
  | .claimed userId =>
      (changePassword s userId input.passwordHash,
        .revoking .clientTokens userId (s.version userId + 1))
  | .revoking .done userId version => (complete s userId version, .returned)
  | .revoking stage userId version => (revoke s userId stage, .revoking stage.next userId version)
  | .returned => (s, .returned)

def environment (s : Shared) : Environment → Shared
  | .administer accounts =>
      { s with
        accounts := { accounts with
          credentials := fun userId =>
            { accounts.credentials userId with
              password := (s.accounts.credentials userId).password } } }
  | .issueLink userId tokenHash now =>
      let retired := PasswordReset.retire s.links userId now
      { s with links := (PasswordReset.create retired userId tokenHash now).getD retired }
  | .startFlow flow code state deviceId deviceUuid now =>
      { s with
        flows := Function.update s.flows flow (some
          { code, state, deviceId, deviceUuid,
            expiresAt := now.stored + OidcAuthRequest.ttlSeconds }) }
  | .pruneFlow flow => { s with flows := Function.update s.flows flow none }
  | .endSession id => { s with sessions := s.sessions.delete fun row => row.id = id }
  | .endToken id => { s with clientTokens := s.clientTokens.delete fun row => row.id = id }

def system : Interleaving.System Shared Process Input Environment :=
  ⟨act lib decrypt, environment⟩

/-- Accounts that nobody is signed in to, their reset links, and the requests to come. -/
def start (accounts : Accounts) (links : Table PasswordReset) (requests : Nat → Request) :
    Interleaving.Config Shared Process where
  shared := { accounts, links }
  process pid := .sent (requests pid)

inductive Kind
  | clientToken
  | session
  | remember
  deriving DecidableEq

structure Credential where
  kind : Kind
  userId : Nat
  authority : Authority
  deriving DecidableEq

def Session.credential (row : Session) : Option Credential :=
  row.browser.userId.map fun userId => { kind := .session, userId, authority := row.authority }

def ClientToken.credential (row : ClientToken) : Credential :=
  { kind := .clientToken, userId := row.userId, authority := row.authority }

def Cookie.credential (cookie : Cookie) : Credential :=
  { kind := .remember, userId := cookie.userId, authority := cookie.authority }

/-- A cookie is honoured while its token is the stored one. -/
def Shared.honours (s : Shared) (cookie : Cookie) : Bool :=
  s.rememberToken cookie.userId = some cookie.token

/-- The sessions, client tokens and remember-me cookies that a request could be made with. -/
def usable (s : Shared) : List Credential :=
  s.sessions.rows.filterMap Session.credential ++ s.clientTokens.rows.map ClientToken.credential ++
    (s.cookies.filter s.honours).map Cookie.credential

/-- The authority is a check against the password of a reset, or a later one. -/
def Authority.follows (reset : Nat) : Authority → Prop
  | .password version => reset ≤ version
  | .sso _ => False

/-- The authority is a check against the password of every completed reset or a later one, or an
answer of the provider that came after them. -/
def Authority.after (completed : List Nat) : Authority → Prop
  | .password version => ∀ reset ∈ completed, reset ≤ version
  | .sso then' => completed.length ≤ then'

def Covered (s : Shared) (credential : Credential) : Prop :=
  credential.authority.after (s.completed credential.userId)

/-- Whatever is usable is newer than every completed reset. -/
def CutOff (s : Shared) : Prop := ∀ credential ∈ usable s, Covered s credential

instance (authority : Authority) (completed : List Nat) : Decidable (authority.after completed) := by
  cases authority <;> unfold Authority.after <;> infer_instance

instance (s : Shared) (credential : Credential) : Decidable (Covered s credential) :=
  inferInstanceAs (Decidable (credential.authority.after (s.completed credential.userId)))

instance (s : Shared) : Decidable (CutOff s) :=
  inferInstanceAs (Decidable (∀ credential ∈ usable s, Covered s credential))

/-- What the next step of a request issues. -/
def issues (s : Shared) : Process → List Credential
  | .entered entry =>
      { kind := .session, userId := entry.userId, authority := entry.authority } ::
        (entry.cookies.filter s.honours).map Cookie.credential
  | .issuing loaded =>
      [{ kind := .clientToken, userId := loaded.user.id, authority := .password loaded.version }]
  | .client _ finished (.issuing _ userId) =>
      [{ kind := .clientToken, userId, authority := .sso finished }]
  | _ => []

/-- The kinds of credential that have been deleted before a statement. -/
def Stage.cleared : Stage → List Kind
  | .clientTokens => []
  | .sessions => [.clientToken]
  | .trusted | .rememberToken => [.clientToken, .session]
  | .done => [.clientToken, .session, .remember]

/-- A reset under way has yet to delete the credentials of that kind, or comes before it. -/
def Awaits (credential : Credential) : Process → Prop
  | .revoking stage userId version => userId = credential.userId →
      credential.kind ∈ stage.cleared → credential.authority.follows version
  | _ => True

/-- What a step issues has not been overtaken: each reset that changed the password since it
was checked, or did not complete before the provider answered, is still to delete the
credentials of that kind. -/
def Timely (c : Interleaving.Config Shared Process) : Interleaving.Event Input Environment → Prop
  | .act pid _ => ∀ credential ∈ issues c.shared (c.process pid),
      Covered c.shared credential ∧ ∀ q, Awaits credential (c.process q)
  | .environment _ => True

end Revocation
end CortenDesk
