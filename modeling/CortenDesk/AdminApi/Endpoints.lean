import CortenDesk.Access.ApiToken
import CortenDesk.Console.AddressBookManager
import CortenDesk.Console.UserList

/-!
The writes of the automation API, after the route bound its models and the token was
admitted. A request that fails yields nothing and writes nothing. What a body names, it
names by id or by name, and it may leave the field out or send it empty.
-/
namespace CortenDesk
open Permissions

namespace AdminApi

/-- A pair of fields, an id and a name, as a body carries it. -/
inductive Reference
  | absent
  | cleared
  | byId (id : Nat)
  | byName (name : String)

/-- The row a filled reference names. -/
def Reference.find {ρ : Type} [Row ρ] (table : Table ρ) (name : ρ → String) : Reference → Option ρ
  | .absent | .cleared => none
  | .byId id => table.find? id
  | .byName text => table.rows.find? fun row => name row = text

/-- The change a reference asks for: none, or the id to write; `none` is a name of nothing. -/
def Reference.change {ρ : Type} [Row ρ] (table : Table ρ) (name : ρ → String)
    (reference : Reference) : Option (Option (Option Nat)) :=
  match reference with
  | .absent => some none
  | .cleared => some (some none)
  | filled => (filled.find table name).map fun row => some (some (Row.id row))

/-- The fields of a rule update that were sent. -/
structure RuleUpdate where
  subjectType : Option RuleSubject := none
  subjectId : Option (Option Nat) := none
  permission : Option Nat := none

def RuleUpdate.apply (change : RuleUpdate) (rule : AddressBookRule) : AddressBookRule :=
  { rule with
    subjectType := change.subjectType.getD rule.subjectType
    subjectId := change.subjectId.getD rule.subjectId
    permission := change.permission.getD rule.permission }

inductive Request
  | enableDevice (device : Nat)
  | disableDevice (device : Nat)
  | destroyDevice (device : Nat)
  | assignDevice (device : Nat) (user deviceGroup : Reference)
  | addUserGroupMember (userGroup : Nat) (user : Reference)
  | removeUserGroupMember (userGroup : Nat) (user : Reference)
  | destroyUserGroup (userGroup : Nat)
  | addDeviceGroupMember (deviceGroup : Nat) (device : Reference)
  | removeDeviceGroupMember (deviceGroup : Nat) (device : Reference)
  | destroyDeviceGroup (deviceGroup : Nat)
  | enableUser (user : Nat)
  | disableUser (user : Nat) (rememberToken : String)
  | forceLogoutUser (user : Nat) (rememberToken : String)
  | destroyUser (user : Nat)
  | storeRule (book : Nat) (subjectType : RuleSubject) (subjectId : Option Nat) (permission : Nat)
  | updateRule (book rule : Nat) (change : RuleUpdate)
  | destroyRule (book rule : Nat)

/-- The area a route declares; every one asks for `rw`. -/
def Request.resource : Request → Resource
  | .enableDevice .. | .disableDevice .. | .destroyDevice .. | .assignDevice .. => .device
  | .addUserGroupMember .. | .removeUserGroupMember .. | .destroyUserGroup ..
  | .addDeviceGroupMember .. | .removeDeviceGroupMember .. | .destroyDeviceGroup .. => .group
  | .enableUser .. | .disableUser .. | .forceLogoutUser .. | .destroyUser .. => .user
  | .storeRule .. | .updateRule .. | .destroyRule .. => .addressBook

namespace DevicesController

/-- Route binding leaves the recycle bin out, unless the route asks for it. -/
def bind (db : Database) (id : Nat) : Option Device := (db.devices.find? id).filter (! ·.trashed)

def enable (s : System) (id : Nat) : Option System :=
  (s.db.devices.find? id).map fun device =>
    if device.trashed then Device.restore s device else s

def disable (s : System) (id : Nat) : Option System := (bind s.db id).map (Device.delete s)

def destroy (s : System) (id : Nat) : Option System :=
  (s.db.devices.find? id).map (Device.forceDelete s)

def assign (s : System) (id : Nat) (user deviceGroup : Reference) : Option System := do
  let device ← bind s.db id
  let userId ← user.change s.db.users User.username
  let deviceGroupId ← deviceGroup.change s.db.deviceGroups DeviceGroup.name
  if userId.isNone && deviceGroupId.isNone then none
  else some (Device.update s device fun row =>
    { row with
      userId := userId.getD row.userId
      deviceGroupId := deviceGroupId.getD row.deviceGroupId })

end DevicesController

namespace UserGroupsController

def addMember (s : System) (group : Nat) (reference : Reference) : Option System := do
  let _ ← s.db.userGroups.find? group
  let user ← reference.find s.db.users User.username
  return { s with
    db.userGroupUser :=
      if (group, user.id) ∈ s.db.userGroupUser then s.db.userGroupUser
      else s.db.userGroupUser ++ [(group, user.id)] }

def removeMember (s : System) (group : Nat) (reference : Reference) : Option System := do
  let _ ← s.db.userGroups.find? group
  let user ← reference.find s.db.users User.username
  return { s with db.userGroupUser := s.db.userGroupUser.filter fun row => row ≠ (group, user.id) }

/-- The group accesses that name the group stay. -/
def destroy (s : System) (group : Nat) : Option System :=
  (s.db.userGroups.find? group).map fun _ => UserGroup.delete s group

end UserGroupsController

namespace DeviceGroupsController

/-- A device outside the recycle bin, by id or by RustDesk id. -/
def resolveDevice (db : Database) : Reference → Option Device
  | .absent | .cleared => none
  | .byId id => DevicesController.bind db id
  | .byName text => db.devices.rows.find? fun row => ! row.trashed && row.rustdeskId = text

def addMember (s : System) (group : Nat) (reference : Reference) : Option System := do
  let _ ← s.db.deviceGroups.find? group
  let device ← resolveDevice s.db reference
  return Device.update s device fun row => { row with deviceGroupId := some group }

def removeMember (s : System) (group : Nat) (reference : Reference) : Option System := do
  let _ ← s.db.deviceGroups.find? group
  let device ← resolveDevice s.db reference
  return if device.deviceGroupId = some group then
      Device.update s device (fun row => { row with deviceGroupId := none }) Device.keeps_unfile
    else s

def destroy (nulls : Bool) (s : System) (group : Nat) : Option System :=
  (s.db.deviceGroups.find? group).map fun _ =>
    DeviceGroup.delete nulls (DeviceGroup.releaseDevices s group) group

end DeviceGroupsController

namespace UsersController

def enable (s : System) (id : Nat) : Option System :=
  (s.db.users.find? id).map fun _ => { s with db := UserList.setActive s.db id true }

def disable (s : System) (owner : User) (id : Nat) (token : String) : Option System :=
  if id = owner.id then none
  else (s.db.users.find? id).map fun _ =>
    { s with db := UserList.revokeAllAccess (UserList.setActive s.db id false) id token }

def forceLogout (s : System) (id : Nat) (token : String) : Option System :=
  (s.db.users.find? id).map fun _ => { s with db := UserList.revokeAllAccess s.db id token }

def destroy (nulls : Bool) (s : System) (owner : User) (id : Nat) : Option System :=
  if id = owner.id then none
  else (s.db.users.find? id).map fun _ =>
    User.delete nulls (User.releaseDevices s id) id

end UsersController

namespace AddressBooksController

def validPermission (permission : Nat) : Bool :=
  permission ∈ [AddressBookRule.permRead, AddressBookRule.permReadWrite, AddressBookRule.permFull]

def storeRule (s : System) (book : Nat) (subjectType : RuleSubject) (subjectId : Option Nat)
    (permission : Nat) : Option System :=
  if (s.db.addressBooks.find? book).isNone || ! validPermission permission then none
  else some { s with
    db.addressBookRules := s.db.addressBookRules.insert fun id =>
      { id, addressBookId := book, subjectType, permission
        subjectId := if subjectType = .everyone then none else subjectId } }

/-- The rule of a route, when it belongs to the book of the route. -/
def bindRule (db : Database) (book rule : Nat) : Option AddressBookRule := do
  let _ ← db.addressBooks.find? book
  (db.addressBookRules.find? rule).filter fun row => row.addressBookId = book

def updateRule (s : System) (book rule : Nat) (change : RuleUpdate) : Option System :=
  if ! change.permission.all validPermission then none
  else (bindRule s.db book rule).map fun _ =>
    { s with
      db.addressBookRules :=
        s.db.addressBookRules.update (fun row => decide (row.id = rule)) change.apply }

def destroyRule (s : System) (book rule : Nat) : Option System :=
  (bindRule s.db book rule).map fun _ =>
    { s with db.addressBookRules := s.db.addressBookRules.delete fun row => decide (row.id = rule) }

end AddressBooksController

/-- The endpoint a request is routed to, for the owner of its token. -/
def handle (nulls : Bool) (s : System) (owner : User) : Request → Option System
  | .enableDevice device => DevicesController.enable s device
  | .disableDevice device => DevicesController.disable s device
  | .destroyDevice device => DevicesController.destroy s device
  | .assignDevice device user deviceGroup => DevicesController.assign s device user deviceGroup
  | .addUserGroupMember group user => UserGroupsController.addMember s group user
  | .removeUserGroupMember group user => UserGroupsController.removeMember s group user
  | .destroyUserGroup group => UserGroupsController.destroy s group
  | .addDeviceGroupMember group device => DeviceGroupsController.addMember s group device
  | .removeDeviceGroupMember group device => DeviceGroupsController.removeMember s group device
  | .destroyDeviceGroup group => DeviceGroupsController.destroy nulls s group
  | .enableUser user => UsersController.enable s user
  | .disableUser user token => UsersController.disable s owner user token
  | .forceLogoutUser user token => UsersController.forceLogout s user token
  | .destroyUser user => UsersController.destroy nulls s owner user
  | .storeRule book subjectType subjectId permission =>
      AddressBooksController.storeRule s book subjectType subjectId permission
  | .updateRule book rule change => AddressBooksController.updateRule s book rule change
  | .destroyRule book rule => AddressBooksController.destroyRule s book rule

/-- `ApiToken::markUsed`. -/
def markUsed (s : System) (token : ApiToken) (used : Instant) : System :=
  { s with
    db.apiTokens := s.db.apiTokens.update (fun row => decide (row.id = token.id))
      fun row => { row with lastUsedAt := some (Instant.stored used) } }

/-- A request as it arrives: admitted under its bearer, then handled for the owner. -/
def serve (sha256 : String → String) (nulls : Bool) (s : System) (clock : RequestClock)
    (bearer : String) (request : Request) : Option System :=
  (admission sha256 s.db clock bearer request.resource .rw).bind fun (token, owner) =>
    handle nulls (markUsed s token clock.used) owner request

end AdminApi
end CortenDesk
