import CortenDesk.Access.Visibility
import CortenDesk.Strategy.Writes

/-!
The Users screen. A call that is refused, or that the database aborts, yields nothing; one
that returns early yields the state it found. The password column is left out, its rules
are not. Which texts are e-mail addresses is the validator's.
-/
namespace CortenDesk
open Php

namespace UserList

/-- A delegate touches plain accounts, and not its own. -/
def guardTarget (actor target : User) : Bool :=
  actor.isAdmin || (target.id ≠ actor.id && ! (target.isAdmin || target.roleId.isSome))

def mergeGrants (allowed existing reachable : List Nat) : List Nat :=
  (allowed ++ existing.filter fun id => id ∉ reachable).eraseDups

structure Form where
  username : String
  name : String := ""
  email : String := ""
  userGroupIds : List Nat := []
  isAdmin : Bool := false
  roleId : Option Nat := none
  isActive : Bool := true
  password : String := ""
  deviceGroupIds : List Nat := []

/-- The rules of the form; `editing` is 0 for a new account. An empty text is checked by
`required` alone. -/
def validate (isEmail : String → Bool) (db : Database) (editing : Nat) (form : Form) : Bool :=
  trim form.username ≠ "" && form.username.length ≤ 255 &&
    db.users.rows.all (fun user => user.username ≠ form.username || user.id = editing) &&
  (trim form.name = "" || form.name.length ≤ 255) &&
  (trim form.email = "" || (isEmail form.email && form.email.length ≤ 255 &&
    db.users.rows.all fun user => user.email ≠ some form.email || user.id = editing)) &&
  form.userGroupIds.all (fun id => (db.userGroups.find? id).isSome) &&
  form.roleId.all (fun id => (db.roles.find? id).isSome) &&
  (if trim form.password = "" then editing ≠ 0 else 8 ≤ form.password.length) &&
  form.deviceGroupIds.all fun id => (db.deviceGroups.find? id).isSome

/-- The folders a save grants. -/
def savedDeviceGroupIds (db : Database) (actor : User) (editing : Nat) (posted : List Nat) :
    List Nat :=
  let existing := if editing = 0 then [] else User.deviceGroupIds db editing
  if actor.isAdmin then posted
  else mergeGrants (AuthorizesConsole.grantableDeviceGroupIds db actor posted) existing
    (AuthorizesConsole.grantableDeviceGroupIds db actor existing)

def savedUserGroupIds (db : Database) (actor : User) (editing : Nat) (posted : List Nat) :
    List Nat :=
  let existing := if editing = 0 then [] else User.userGroupIds db editing
  if actor.isAdmin then posted
  else mergeGrants (AuthorizesConsole.grantableUserGroupIds db actor posted) existing
    (AuthorizesConsole.grantableUserGroupIds db actor existing)

/-- The columns a save writes. A delegate mints no administrator and leaves the role; an
administrator holds none. -/
def savedRow (actor : User) (form : Form) (user : User) : User :=
  { user with
    username := form.username
    name := some form.name
    email := if form.email = "" then none else some form.email
    isAdmin := actor.isAdmin && form.isAdmin
    roleId :=
      if ! actor.isAdmin then user.roleId
      else if form.isAdmin then none
      else form.roleId
    isActive := form.isActive }

def save (isEmail : String → Bool) (s : System) (actor : User) (editing : Nat) (form : Form) :
    Option System :=
  if ! actor.consoleAllows s.db .user .rw || ! validate isEmail s.db editing form then none
  else if editing ≠ 0 && ! (s.db.users.find? editing).any (guardTarget actor) then none
  else
    let id := if editing = 0 then s.db.users.nextId else editing
    let groupIds := savedDeviceGroupIds s.db actor editing form.deviceGroupIds
    let userGroupIds := savedUserGroupIds s.db actor editing form.userGroupIds
    some { s with
      db := { s.db with
        users :=
          if editing = 0 then
            s.db.users.insert fun id => savedRow actor form { id, username := form.username }
          else s.db.users.update (fun user => decide (user.id = editing)) (savedRow actor form)
        deviceGroupUser := Pivot.sync s.db.deviceGroupUser id
          (if actor.isAdmin && form.isAdmin then [] else groupIds)
        userGroupUser := Pivot.sync s.db.userGroupUser id userGroupIds } }

/-- Ends every way an account is signed in. -/
def revokeAllAccess (db : Database) (id : Nat) (token : String) : Database :=
  { db with
    clientTokens := db.clientTokens.filter (· ≠ id)
    sessions := db.sessions.filter (· ≠ id)
    trustedDevices := db.trustedDevices.filter (· ≠ id)
    users := db.users.update (fun user => decide (user.id = id)) fun user =>
      { user with rememberToken := some token } }

def setActive (db : Database) (id : Nat) (isActive : Bool) : Database :=
  { db with
    users := db.users.update (fun user => decide (user.id = id)) fun user =>
      { user with isActive } }

def toggleActive (s : System) (actor : User) (id : Nat) (token : String) : Option System :=
  if ! actor.consoleAllows s.db .user .rw then none
  else if id = actor.id then some s
  else match s.db.users.find? id with
    | none => none
    | some user =>
        if ! guardTarget actor user then none
        else if user.isActive then
          some { s with db := revokeAllAccess (setActive s.db id false) id token }
        else some { s with db := setActive s.db id true }

def forceLogout (s : System) (actor : User) (id : Nat) (token : String) : Option System :=
  if ! actor.consoleAllows s.db .user .rw then none
  else if id = actor.id then some s
  else match s.db.users.find? id with
    | none => none
    | some user =>
        if ! guardTarget actor user then none
        else some { s with db := revokeAllAccess s.db id token }

def deleteUser (nulls : Bool) (s : System) (actor : User) (id : Nat) : Option System :=
  if ! actor.consoleAllows s.db .user .rw then none
  else if id = actor.id then some s
  else match s.db.users.find? id with
    | none => none
    | some user =>
        if ! guardTarget actor user then none
        else some (User.delete nulls (User.releaseDevices s id) id)

/-- The devices an actor may re-own. -/
def assignable (db : Database) (actor : User) (device : Device) : Bool :=
  actor.isAdmin || Device.visibleTo db actor device

/-- The posted devices that an assignment acts on. -/
def assignedIds (db : Database) (actor : User) (posted : List Nat) : List Nat :=
  (db.devices.rows.filter fun device =>
    ! device.trashed && assignable db actor device && device.id ∈ posted).map Device.id

def gain (s : System) (userId : Nat) (ids : List Nat) : System :=
  Device.updateWhere s (fun row => row.id ∈ ids) fun row => { row with userId := some userId }

def release (s : System) (actor : User) (userId : Nat) (ids : List Nat) : System :=
  Device.updateWhere s
    (fun row => assignable s.db actor row && row.userId = some userId &&
      row.id ∉ if ids = [] then [0] else ids)
    (fun row => { row with userId := none }) Device.keeps_disown

/-- Gains and releases are query-builder writes; the fleet is recomputed after both. -/
def saveAssign (s : System) (actor : User) (assignUserId : Nat) (assignDeviceIds : List Nat) :
    Option System :=
  if ! actor.consoleAllows s.db .user .rw then none
  else match s.db.users.find? assignUserId with
    | none => none
    | some user =>
        if ! guardTarget actor user then none
        else
          let ids := assignedIds s.db actor assignDeviceIds
          some (Strategy.recomputeAll (release (gain s user.id ids) actor user.id ids))

inductive Call
  | save (editing : Nat) (form : Form)
  | saveAssign (userId : Nat) (deviceIds : List Nat)
  | toggleActive (id : Nat) (rememberToken : String)
  | forceLogout (id : Nat) (rememberToken : String)
  | deleteUser (id : Nat)

def perform (isEmail : String → Bool) (nulls : Bool) (s : System) (actor : User) :
    Call → Option System
  | .save editing form => save isEmail s actor editing form
  | .saveAssign userId deviceIds => saveAssign s actor userId deviceIds
  | .toggleActive id token => toggleActive s actor id token
  | .forceLogout id token => forceLogout s actor id token
  | .deleteUser id => deleteUser nulls s actor id

end UserList
end CortenDesk
