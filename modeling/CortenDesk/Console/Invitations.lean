import CortenDesk.Auth.SignIn
import CortenDesk.Console.Reach

/-!
Invitations: issued and sent again on the console, accepted by whoever has the link. An
acceptance resolves the invitation, checks the form and then creates the account in one
transaction; what lies between the two may change anything. The mail, the audit trail and the
password column are left out. A call that is refused, or that the database aborts, writes
nothing.
-/
namespace CortenDesk
open Php

structure Invitation where
  id : Nat
  email : String
  username : String
  name : Option String := none
  tokenHash : String
  isAdmin : Bool := false
  userGroupIds : List Nat := []
  deviceGroupIds : List Nat := []
  invitedBy : Option Nat := none
  expiresAt : Stamp
  acceptedAt : Option Stamp := none
  acceptedUserId : Option Nat := none
  deriving DecidableEq

instance : Row Invitation := ⟨Invitation.id⟩

namespace Invitation

def defaultExpiryHours : Int := 48

def expiryHours (settings : Settings) : Int :=
  let stored := settings.get "invite_expiry_hours" (toString defaultExpiryHours)
  max 1 (min 720 (if truthy stored then intval stored else defaultExpiryHours))

def expiry (settings : Settings) (now : Stamp) : Stamp := now + expiryHours settings * 3600

/-- Not accepted and not expired. -/
def live (now : Stamp) (invitation : Invitation) : Bool :=
  invitation.acceptedAt.isNone && now < invitation.expiresAt

def findValid (invitations : Table Invitation) (tokenHash : String) (now : Stamp) :
    Option Invitation :=
  invitations.rows.find? fun row => row.tokenHash = tokenHash && row.live now

/-- The account that issued it, while it exists. -/
def inviter (db : Database) (invitation : Invitation) : Option User :=
  invitation.invitedBy.bind db.users.find?

end Invitation

/-- The tables, whose grants name accounts that were created. -/
structure Tables where
  db : Database
  issued : Reach.Issued db

/-- An acceptance that has resolved its invitation; `name` is what the form gave. -/
structure Acceptance where
  invitation : Invitation
  name : String
  deriving DecidableEq

structure Onboarding where
  tables : Tables
  invitations : Table Invitation := Table.empty
  settings : Settings := OrderedMap.empty
  accepting : Nat → Option Acceptance := fun _ => none

namespace InvitationManager

structure Form where
  email : String
  username : String
  name : String := ""
  isAdmin : Bool := false
  userGroupIds : List Nat := []
  deviceGroupIds : List Nat := []

/-- Neither an account nor a live invitation has it. -/
def validate (isEmail : String → Bool) (s : Onboarding) (form : Form) (now : Stamp) : Bool :=
  let free (inUse : User → Bool) (reserved : Invitation → Bool) : Bool :=
    ! s.tables.db.users.rows.any inUse &&
      ! s.invitations.rows.any fun row => reserved row && row.live now
  trim form.email ≠ "" && isEmail form.email && form.email.length ≤ 255 &&
    free (fun user => user.email = some form.email) (fun row => row.email = form.email) &&
  trim form.username ≠ "" && form.username.length ≤ 255 &&
    free (fun user => user.username = form.username) (fun row => row.username = form.username) &&
  (trim form.name = "" || form.name.length ≤ 255) &&
  form.userGroupIds.all (fun id => (s.tables.db.userGroups.find? id).isSome) &&
  form.deviceGroupIds.all fun id => (s.tables.db.deviceGroups.find? id).isSome

/-- A delegate invites no administrator and hands out only what it could grant. -/
def clamp (db : Database) (actor : User) (form : Form) : Form :=
  if actor.isAdmin then form
  else
    { form with
      isAdmin := false
      deviceGroupIds := AuthorizesConsole.grantableDeviceGroupIds db actor form.deviceGroupIds
      userGroupIds := AuthorizesConsole.grantableUserGroupIds db actor form.userGroupIds }

/-- `Invitation::issue`. -/
def issue (s : Onboarding) (form : Form) (inviter : Nat) (tokenHash : String) (now : Stamp)
    (id : Nat) : Invitation where
  id
  email := form.email
  username := form.username
  name := if form.name = "" then none else some form.name
  tokenHash
  isAdmin := form.isAdmin
  userGroupIds := form.userGroupIds
  deviceGroupIds := if form.isAdmin then [] else form.deviceGroupIds
  invitedBy := some inviter
  expiresAt := Invitation.expiry s.settings now

def save (isEmail : String → Bool) (s : Onboarding) (actor : User) (form : Form)
    (tokenHash : String) (now : Stamp) : Option Onboarding :=
  if ! actor.consoleAllows s.tables.db .user .rw || ! validate isEmail s form now then none
  else some { s with
    invitations :=
      s.invitations.insert (issue s (clamp s.tables.db actor form) actor.id tokenHash now) }

/-- Whether the actor could have issued the invitation. -/
def mayManage (db : Database) (actor : User) (invitation : Invitation) : Bool :=
  actor.isAdmin ||
    (! invitation.isAdmin &&
      (invitation.deviceGroupIds.all fun id =>
        id ∈ AuthorizesConsole.grantableDeviceGroupIds db actor invitation.deviceGroupIds) &&
      invitation.userGroupIds.all fun id =>
        id ∈ AuthorizesConsole.grantableUserGroupIds db actor invitation.userGroupIds)

/-- The invitation that a call acts on. -/
def pending (s : Onboarding) (id : Nat) : Option Invitation :=
  (s.invitations.find? id).filter fun row => row.acceptedAt.isNone

/-- `resend`, which mints a new token and pushes the expiry out. -/
def resend (s : Onboarding) (actor : User) (id : Nat) (tokenHash : String) (now : Stamp) :
    Option Onboarding :=
  if ! actor.consoleAllows s.tables.db .user .rw then none
  else match pending s id with
    | none => some s
    | some invitation =>
        if ! mayManage s.tables.db actor invitation then none
        else some { s with
          invitations := s.invitations.update (fun row => row.id = id) fun row =>
            { row with tokenHash, expiresAt := Invitation.expiry s.settings now } }

def revoke (s : Onboarding) (actor : User) (id : Nat) : Option Onboarding :=
  if ! actor.consoleAllows s.tables.db .user .rw then none
  else match pending s id with
    | none => some s
    | some invitation =>
        if ! mayManage s.tables.db actor invitation then none
        else some { s with invitations := s.invitations.delete fun row => row.id = id }

end InvitationManager

namespace InvitationController

inductive Response
  | notFound
  | forbidden (message : String)
  | back (errors : List (String × String))
  | gone (message : String)
  | aborted
  | signedIn (userId : Nat)
  deriving DecidableEq

structure Form where
  name : String := ""
  password : String
  passwordConfirmation : String

def errors (form : Form) : List (String × String) :=
  (if form.name.length ≤ 255 then []
    else [("name", "The name field must not be greater than 255 characters.")]) ++
  (if trim form.password = "" then SignIn.required "password" form.password
    else
      (if 8 ≤ form.password.length then []
        else [("password", "The password field must be at least 8 characters.")]) ++
      if form.password = form.passwordConfirmation then []
      else [("password", "The passwords do not match.")]) ++
  if trim form.passwordConfirmation = "" then
    [("password_confirmation", "Please confirm your password.")]
  else []

/-- The inviter is active, manages the users, and is an administrator if the new account is. -/
def stillAuthorised (db : Database) (inviter : User) (isAdmin : Bool) : Bool :=
  inviter.isActive && inviter.consoleAllows db .user .rw && (! isAdmin || inviter.isAdmin)

/-- `resolve`. -/
def resolve (s : Onboarding) (tokenHash : String) (now : Stamp) : Except Response Invitation :=
  match Invitation.findValid s.invitations tokenHash now with
  | none => .error .notFound
  | some invitation =>
      if (invitation.inviter s.tables.db).any fun inviter =>
          stillAuthorised s.tables.db inviter invitation.isAdmin then .ok invitation
      else .error (.forbidden
        "This invitation is no longer valid. Ask an administrator for a new one.")

/-- An account uses the username or the address. -/
def taken (db : Database) (invitation : Invitation) : Bool :=
  db.users.rows.any fun user =>
    user.username = invitation.username || user.email = some invitation.email

/-- `accept`, up to its transaction. -/
def check (s : Onboarding) (tokenHash : String) (form : Form) (now : Stamp) :
    Except Response Acceptance :=
  match resolve s tokenHash now with
  | .error response => .error response
  | .ok invitation =>
      if errors form ≠ [] then .error (.back (errors form))
      else if taken s.tables.db invitation then
        .error (.back [("password",
          "An account already uses this username or email. Contact your administrator.")])
      else .ok { invitation, name := form.name }

/-- The account that an acceptance creates. -/
def newUser (acceptance : Acceptance) (id : Nat) : User where
  id
  username := acceptance.invitation.username
  name := if acceptance.name = "" then acceptance.invitation.name else some acceptance.name
  email := some acceptance.invitation.email
  isAdmin := acceptance.invitation.isAdmin

/-- The user groups of the invitation that still exist. -/
def joined (db : Database) (invitation : Invitation) : List Nat :=
  (db.userGroups.rows.filter fun group => group.id ∈ invitation.userGroupIds).map UserGroup.id

/-- The folders of the invitation that still exist. -/
def granted (db : Database) (invitation : Invitation) : List Nat :=
  if invitation.isAdmin then []
  else (db.deviceGroups.rows.filter fun group => group.id ∈ invitation.deviceGroupIds).map
    DeviceGroup.id

def createUser (db : Database) (acceptance : Acceptance) : Database :=
  { db with
    users := db.users.insert (newUser acceptance)
    userGroupUser := Pivot.sync db.userGroupUser db.users.nextId (joined db acceptance.invitation)
    deviceGroupUser :=
      Pivot.sync db.deviceGroupUser db.users.nextId (granted db acceptance.invitation) }

theorem issued_createUser {db : Database} (issued : Reach.Issued db) (acceptance : Acceptance) :
    Reach.Issued (createUser db acceptance) where
  members row hrow := by
    rcases Pivot.mem_sync.mp hrow with ⟨old, _⟩ | ⟨_, new⟩
    · exact Nat.lt_succ_of_lt (issued.members row old)
    · exact new ▸ Nat.lt_succ_self _
  granted row hrow := by
    rcases Pivot.mem_sync.mp hrow with ⟨old, _⟩ | ⟨_, new⟩
    · exact Nat.lt_succ_of_lt (issued.granted row old)
    · exact new ▸ Nat.lt_succ_self _
  accessors access haccess user := Nat.lt_succ_of_lt (issued.accessors access haccess user)

/-- The conditional update selects the row while it can be accepted. -/
def claimable (id : Nat) (now : Stamp) (row : Invitation) : Bool := row.id = id && row.live now

/-- The transaction of `accept`. -/
def create (s : Onboarding) (acceptance : Acceptance) (now : Stamp) : Onboarding × Response :=
  let id := acceptance.invitation.id
  if ! s.invitations.rows.any (claimable id now) then
    (s, .gone "This invitation has already been used.")
  else if taken s.tables.db acceptance.invitation then (s, .aborted)
  else
    let userId := s.tables.db.users.nextId
    let claimed := s.invitations.update (claimable id now) fun row =>
      { row with acceptedAt := some now }
    ({ s with
        tables := ⟨createUser s.tables.db acceptance, issued_createUser s.tables.issued acceptance⟩
        invitations := claimed.update (fun row => row.id = id) fun row =>
          { row with acceptedUserId := some userId } },
      .signedIn userId)

end InvitationController

namespace Onboarding

/-- Calls on the console by an account, the two halves of an acceptance, and a change of
anything else: the tables as a whole, or the settings. -/
inductive Event
  | save (actor : Nat) (form : InvitationManager.Form) (plain : String) (now : Stamp)
  | resend (actor id : Nat) (plain : String) (now : Stamp)
  | revoke (actor id : Nat)
  | check (request : Nat) (token : String) (form : InvitationController.Form) (now : Stamp)
  | create (request : Nat) (now : Stamp)
  | change (tables : Tables)
  | configure (settings : Settings)

/-- A reference to an account is emptied when the account is deleted. -/
def kept (db : Database) (userId : Option Nat) : Option Nat :=
  userId.filter fun id => (db.users.find? id).isSome

variable (lib : Primitives) (isEmail : String → Bool)

def handle (s : Onboarding) : Event → Onboarding × Option InvitationController.Response
  | .save actor form plain now =>
      (((s.tables.db.users.find? actor).bind fun actor =>
        InvitationManager.save isEmail s actor form (lib.sha256 plain) now).getD s, none)
  | .resend actor id plain now =>
      (((s.tables.db.users.find? actor).bind fun actor =>
        InvitationManager.resend s actor id (lib.sha256 plain) now).getD s, none)
  | .revoke actor id =>
      (((s.tables.db.users.find? actor).bind fun actor =>
        InvitationManager.revoke s actor id).getD s, none)
  | .check request token form now =>
      match InvitationController.check s (lib.sha256 token) form now with
      | .error response => (s, some response)
      | .ok acceptance =>
          ({ s with accepting := Function.update s.accepting request (some acceptance) }, none)
  | .create request now =>
      match s.accepting request with
      | none => (s, none)
      | some acceptance =>
          let (after, response) := InvitationController.create s acceptance now
          ({ after with accepting := Function.update s.accepting request none }, some response)
  | .change tables =>
      ({ s with
          tables
          invitations := s.invitations.update (fun _ => true) fun row =>
            { row with
              invitedBy := kept tables.db row.invitedBy
              acceptedUserId := kept tables.db row.acceptedUserId } },
        none)
  | .configure settings => ({ s with settings }, none)

def step (s : Onboarding) (event : Event) : Onboarding := (handle lib isEmail s event).1

end Onboarding
end CortenDesk
