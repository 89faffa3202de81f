import CortenDesk.Auth.SignIn
import CortenDesk.Lib.Interleaving

/-!
Password reset by emailed link for one account, statement by statement. Issuing a link
retires the ones before it and then creates its own; a reset finds the link, checks the
account, claims the link by a conditional update and only then saves the password. The
shared state records beside the rows which request changed the password through which link.
-/
namespace CortenDesk
open Php

structure PasswordReset where
  id : Nat
  userId : Nat
  tokenHash : String
  usedAt : Option Stamp := none
  expiresAt : Stamp
  deriving DecidableEq

instance : Row PasswordReset := ⟨PasswordReset.id⟩

namespace PasswordReset

def ttlMinutes : Int := 60

/-- Unused and unexpired. -/
def live (now : Stamp) (link : PasswordReset) : Bool := link.usedAt.isNone && now < link.expiresAt

/-- The first statement of `issue`. -/
def retire (links : Table PasswordReset) (userId : Nat) (now : Stamp) : Table PasswordReset :=
  links.update (fun link => link.userId = userId && link.usedAt.isNone) fun link =>
    { link with usedAt := some now }

/-- The second; the hash of a token is unique. -/
def create (links : Table PasswordReset) (userId : Nat) (tokenHash : String) (now : Stamp) :
    Option (Table PasswordReset) :=
  if links.rows.any fun link => link.tokenHash = tokenHash then none
  else some (links.insert fun id =>
    { id, userId, tokenHash, expiresAt := now + ttlMinutes * 60 })

def findValid (links : Table PasswordReset) (tokenHash : String) (now : Stamp) :
    Option PasswordReset :=
  links.rows.find? fun link => link.tokenHash = tokenHash && link.live now

def claimable (id : Nat) (link : PasswordReset) : Bool := link.id = id && link.usedAt.isNone

/-- `PasswordReset::claim`: the links after the update, and whether it hit a row. -/
def claim (links : Table PasswordReset) (id : Nat) (now : Stamp) : Table PasswordReset × Bool :=
  (links.update (claimable id) fun link => { link with usedAt := some now },
    links.rows.countP (claimable id) = 1)

end PasswordReset

/-- `PasswordResetController::mayReset`. -/
def User.mayReset (user : User) : Bool :=
  user.isActive && ! user.isSsoProvisioned && ! user.isSsoPending && trim (user.email.getD "") ≠ ""

namespace ResetLinks
open PasswordReset

/-- A write of the password: the link it was made by, the request, and whether a newer link
had been created by then. -/
structure Change where
  link : Nat
  request : Nat
  superseded : Bool
  deriving DecidableEq

/-- A claim of a link that hit its row. -/
structure Claim where
  link : Nat
  request : Nat
  deriving DecidableEq

structure Account where
  user : User
  password : String
  links : Table PasswordReset := Table.empty
  now : Stamp
  claims : List Claim := []
  changes : List Change := []

inductive Request
  | sendLink (login : String)
  | reset (token password confirmation : String)
  deriving DecidableEq

/-- Where a request stands; a link is named by its row. -/
inductive Process
  | sent (request : Request)
  | issuing
  | creating
  | mailing (link : Nat)
  | unmailed (link : Nat)
  | found (link : Nat) (password : String)
  | claiming (link : Nat) (password : String)
  | claimed (link : Nat) (password : String)
  | changed
  | failed
  | returned (message : String)
  deriving DecidableEq

/-- What a step takes from outside: whether reset is offered, whether the relay took the
message, the token that is minted and the hash of the password. -/
structure Input where
  available : Bool := true
  delivered : Bool := true
  plain : String := ""
  passwordHash : String := ""

inductive Environment
  | clock (seconds : Nat)
  | account (user : User)

def neutral : String :=
  "If that account exists and has an email address, a reset link is on its way."

def invalid : String := "That reset link is invalid or has expired. Request a new one."

def alreadyUsed : String := "That reset link has already been used."

/-- Whether the login form names the account. -/
def names (user : User) (login : String) : Bool :=
  user.username = trim login || user.email.any fun email => strtolower email = strtolower (trim login)

/-- The rules on the new password: required, eight characters, confirmed. -/
def acceptable (password confirmation : String) : Bool :=
  trim password ≠ "" && 8 ≤ password.length && password = confirmation

variable (lib : Primitives)

/-- Whether a link of the account is newer than the one named. -/
def superseded (s : Account) (link : Nat) : Bool :=
  s.links.rows.any fun row => row.userId = s.user.id && link < row.id

/-- One statement of a request, with what it computes before the next one. -/
def act (pid : Nat) (s : Account) (process : Process) (input : Input) : Account × Process :=
  match process with
  | .sent (.sendLink login) =>
      if ! input.available then (s, .returned "")
      else if names s.user login && s.user.mayReset then (s, .issuing)
      else (s, .returned neutral)
  | .issuing => ({ s with links := retire s.links s.user.id s.now }, .creating)
  | .creating =>
      match create s.links s.user.id (lib.sha256 input.plain) s.now with
      | none => (s, .failed)
      | some links => ({ s with links }, .mailing s.links.nextId)
  | .mailing link => (s, if input.delivered then .returned neutral else .unmailed link)
  | .unmailed link => ({ s with links := (claim s.links link s.now).1 }, .returned neutral)
  | .sent (.reset token password confirmation) =>
      if ! input.available then (s, .returned "")
      else if ! acceptable password confirmation then (s, .returned "")
      else match findValid s.links (lib.sha256 token) s.now with
        | none => (s, .returned invalid)
        | some link => (s, .found link.id password)
  | .found link password =>
      if s.user.mayReset then (s, .claiming link password) else (s, .returned invalid)
  | .claiming link password =>
      if (claim s.links link s.now).2 then
        ({ s with
            links := (claim s.links link s.now).1
            claims := { link, request := pid } :: s.claims },
          .claimed link password)
      else ({ s with links := (claim s.links link s.now).1 }, .returned alreadyUsed)
  | .claimed link _ =>
      ({ s with
          password := input.passwordHash
          changes := { link, request := pid, superseded := superseded s link } :: s.changes },
        .changed)
  | .changed => (s, .returned "Your password has been reset. Sign in with the new one.")
  | .failed | .returned _ => (s, process)

/-- The requests for one account; beside them the clock runs, and the account may change but
for its key. -/
def system : Interleaving.System Account Process Input Environment where
  act := act lib
  environment s
    | .clock seconds => { s with now := s.now + seconds }
    | .account user => { s with user := { user with id := s.user.id } }

/-- An account without links, and the requests that will reach it. -/
def start (user : User) (password : String) (now : Stamp) (requests : Nat → Request) :
    Interleaving.Config Account Process where
  shared := { user, password, now }
  process pid := .sent (requests pid)

/-- The live links of the account. -/
def liveLinks (s : Account) : List PasswordReset :=
  s.links.rows.filter fun link => link.userId = s.user.id && link.live s.now

/-- Each link changes the password once. -/
def ChangesOnce (s : Account) : Prop := (s.changes.map Change.link).Nodup

/-- Whether a request is inside `issue`: it has retired the links and not created its own. -/
def Process.isIssuing : Process → Bool
  | .creating => true
  | _ => false

structure Exclusive (c : Interleaving.Config Account Process) : Prop where
  oneLive : (∀ pid, (c.process pid).isIssuing = false) → (liveLinks c.shared).length ≤ 1
  once : ChangesOnce c.shared
  current : ∀ change ∈ c.shared.changes, change.superseded = false

/-- A reset that can still change the password: the link it found is unused, or it has
claimed it. -/
def MayChange (s : Account) : Process → Prop
  | .found link _ | .claiming link _ => ∃ row ∈ s.links.rows, row.id = link ∧ row.usedAt = none
  | .claimed _ _ => True
  | _ => False

/-- A link is created when no other is live and no reset is about to change the password. -/
def Unopposed (c : Interleaving.Config Account Process) :
    Interleaving.Event Input Environment → Prop
  | .act pid _ => (c.process pid).isIssuing = true →
      liveLinks c.shared = [] ∧ ∀ q, ¬ MayChange c.shared (c.process q)
  | .environment _ => True

end ResetLinks
end CortenDesk
