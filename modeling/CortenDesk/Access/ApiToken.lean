import CortenDesk.Access.Console

/-!
Automation API tokens over runs: the matrix of a token is clamped once, when it is
issued, while roles, assignments and flags change afterwards. What admits a request
re-reads the owner's standing and the right to hold tokens, not the matrix. The hash of
a bearer is a parameter; nothing here depends on it being injective.
-/
namespace CortenDesk
open Php Permissions

namespace ApiToken

def resources : List Resource := [.device, .user, .group, .strategy, .addressBook, .audit]

/-- The requested matrix, no area above what the creator holds. -/
def clampToCreator (db : Database) (creator : User) (requested : Arr String Value) : Matrix :=
  fun resource =>
    let level := normalize requested resources resource
    let ceiling := creator.consoleLevel db resource
    if resource ∈ resources ∧ rank level > rank ceiling then ceiling else level

def isValid (now : Instant) (token : ApiToken) : Bool :=
  token.isActive && token.expiresAt.all fun at' => now < Stamp.instant at'

def allows (token : ApiToken) (resource : Resource) (required : Level) : Bool :=
  satisfies (token.permissions resource) required

def findValid (sha256 : String → String) (db : Database) (now : Instant) (plaintext : String) :
    Option ApiToken :=
  (db.apiTokens.rows.find? (·.tokenHash = sha256 plaintext)).filter (·.isValid now)

/-- `ApiToken::issue`; the hash column is unique. -/
def issue (sha256 : String → String) (db : Database) (creator : User) (plain name : String)
    (requested : Arr String Value) (expiresAt : Option Stamp) : Database :=
  if db.apiTokens.rows.any (·.tokenHash = sha256 plain) then db
  else { db with
    apiTokens := db.apiTokens.insert fun id =>
      { id, name, tokenHash := sha256 plain, userId := some creator.id
        permissions := clampToCreator db creator requested, expiresAt } }

end ApiToken

/-- One request's readings of the clock: the guard's, the middleware's and the stamp's. -/
structure RequestClock where
  guard : Instant
  permission : Instant
  used : Instant

namespace AdminApi
variable (sha256 : String → String)

def owner (db : Database) (token : ApiToken) : Option User := token.userId.bind db.users.find?

/-- The owner exists, is active and may hold tokens. -/
def standing (db : Database) (token : ApiToken) : Option User :=
  (owner db token).filter fun user => user.isActive && user.consoleAllows db .token .rw

/-- The `api-token` guard. -/
def guard (db : Database) (now : Instant) (bearer : String) : Option User :=
  if ¬ truthy bearer then none
  else (ApiToken.findValid sha256 db now bearer).bind (standing db)

/-- `ApiTokenCan::handle`: the token of an admitted request. -/
def tokenCan (db : Database) (now : Instant) (bearer : String) (resource : Resource)
    (level : Level) : Option ApiToken :=
  (ApiToken.findValid sha256 db now bearer).filter fun token =>
    (standing db token).isSome && token.allows resource level

/-- The token a request is admitted under, and its owner. -/
def admission (db : Database) (clock : RequestClock) (bearer : String) (resource : Resource)
    (level : Level) : Option (ApiToken × User) := do
  let _ ← guard sha256 db clock.guard bearer
  let token ← tokenCan sha256 db clock.permission bearer resource level
  let user ← owner db token
  return (token, user)

end AdminApi

/-- `ApiTokenManager::save`. -/
def ApiTokenManager.save (sha256 : String → String) (db : Database) (actor : User)
    (plain name : String) (expiresDays : Option Int) (posted : Arr String Value)
    (now : Instant) : Database :=
  if ¬ actor.consoleAllows db .token .rw then db
  else if trim name = "" || name.length > 255 ||
      expiresDays.any (fun days => days < 1 || days > 3650) ||
      posted.entries.any (fun e => e.2 ∉ [.string "none", .string "r", .string "rw"]) then db
  else if posted.entries.all (·.2 = .string "none") then db
  else ApiToken.issue sha256 db actor plain name posted
    (expiresDays.map fun days => Instant.stored (now + days * 86400 * 1000000))

namespace RoleList

/-- `RoleList::save`, or nothing when the form or the edited id is refused. -/
def save (db : Database) (editing : Option Nat) (name : String) (posted : Arr String Value) :
    Option Database :=
  if trim name = "" || name.length > 255 ||
      db.roles.rows.any (fun role => role.name = name && some role.id ≠ editing) ||
      posted.entries.any (fun e => e.2 ∉ [.string "none", .string "r", .string "rw"]) then none
  else
    let permissions := normalize posted consoleResources
    match editing with
    | none => some { db with roles := db.roles.insert fun id => { id, name, permissions } }
    | some id =>
        if (db.roles.find? id).isNone then none
        else some { db with
          roles := db.roles.update (·.id = id) fun role => { role with name, permissions } }

/-- `RoleList::deleteRole`: the holders' `role_id` is nulled by the schema. -/
def deleteRole (db : Database) (id : Nat) : Database :=
  { db with
    roles := db.roles.delete (·.id = id)
    users := db.users.update (·.roleId = some id) fun user => { user with roleId := none } }

end RoleList

inductive AccessEvent
  | createToken (actorId : Nat) (plain name : String) (expiresDays : Option Int)
      (posted : Arr String Value) (now : Instant)
  | revokeToken (id : Nat)
  | saveRole (editing : Option Nat) (name : String) (posted : Arr String Value)
  | deleteRole (id : Nat)
  | setAuthority (userId : Nat) (isAdmin isActive : Bool) (roleId : Option Nat)
  | request (clock : RequestClock) (bearer : String) (resource : Resource) (level : Level)

namespace TokenRuns
variable (sha256 : String → String)

/-- An administrator's change of an account: an administrator holds no role, and a role
has to exist. -/
def setAuthority (db : Database) (userId : Nat) (isAdmin isActive : Bool)
    (roleId : Option Nat) : Database :=
  if roleId.any fun id => (db.roles.find? id).isNone then db
  else { db with
    users := db.users.update (·.id = userId) fun user =>
      { user with isAdmin, isActive, roleId := if isAdmin then none else roleId } }

def step (db : Database) : AccessEvent → Database
  | .createToken actorId plain name expiresDays posted now =>
      match db.users.find? actorId with
      | none => db
      | some actor => ApiTokenManager.save sha256 db actor plain name expiresDays posted now
  | .revokeToken id => { db with apiTokens := db.apiTokens.delete (·.id = id) }
  | .saveRole editing name posted => (RoleList.save db editing name posted).getD db
  | .deleteRole id => RoleList.deleteRole db id
  | .setAuthority userId isAdmin isActive roleId =>
      setAuthority db userId isAdmin isActive roleId
  | .request clock bearer resource level =>
      match AdminApi.admission sha256 db clock bearer resource level with
      | none => db
      | some (token, _) => { db with
          apiTokens := db.apiTokens.update (·.id = token.id) fun row =>
            { row with lastUsedAt := some (Instant.stored clock.used) } }

/-- Owners that may hold tokens cover the tokens they hold. -/
def Contained (db : Database) : Prop :=
  ∀ token ∈ db.apiTokens.rows, ∀ user ∈ db.users.rows, token.userId = some user.id →
    satisfies (user.consoleLevel db .token) .rw →
    ∀ resource, rank (token.permissions resource) ≤ rank (user.consoleLevel db resource)

/-- Under the matrix the token's owner may still hold tokens, but no longer an area as
the token has it. -/
def Outgrows (token : ApiToken) (matrix : Matrix) : Prop :=
  satisfies (matrix .token) .rw ∧
    ∃ resource, rank (matrix resource) < rank (token.permissions resource)

instance (token : ApiToken) (matrix : Matrix) : Decidable (Outgrows token matrix) :=
  decidable_of_iff (satisfies (matrix .token) .rw ∧
      ∃ resource ∈ consoleResources, rank (matrix resource) < rank (token.permissions resource))
    (by simp [Outgrows, mem_consoleResources])

/-- The step gives no owner of a token a matrix that the token outgrows. -/
def KeepsCeilings (db : Database) : AccessEvent → Prop
  | .saveRole editing name posted =>
      (RoleList.save db editing name posted).isSome →
      ∀ user ∈ db.users.rows, user.isAdmin = false →
        user.roleId = some (editing.getD db.roles.nextId) →
        ∀ token ∈ db.apiTokens.rows, token.userId = some user.id →
          ¬ Outgrows token (normalize posted consoleResources)
  | .setAuthority userId isAdmin _ roleId =>
      isAdmin = false → ∀ role ∈ db.roles.rows, roleId = some role.id →
        ∀ token ∈ db.apiTokens.rows, token.userId = some userId →
          ¬ Outgrows token role.permissions
  | _ => True

instance (db : Database) : (e : AccessEvent) → Decidable (KeepsCeilings db e)
  | .saveRole _ _ _ => inferInstanceAs (Decidable (_ → _))
  | .setAuthority _ _ _ _ => inferInstanceAs (Decidable (_ → _))
  | .createToken .. | .revokeToken _ | .deleteRole _ | .request .. => .isTrue trivial

end TokenRuns
end CortenDesk
