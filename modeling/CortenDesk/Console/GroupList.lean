import CortenDesk.Access.Visibility
import CortenDesk.Strategy.Writes

/-!
The Groups screen: device groups (folders) and user groups. Both kinds of grant that the
editor saves hand out device visibility, so a delegate's are clamped on both sides.
-/
namespace CortenDesk
open Php

namespace GroupList

structure Form where
  name : String
  note : String := ""
  deviceGroupIds : List Nat := []
  accessorGroupIds : List Nat := []

def validate (db : Database) (form : Form) : Bool :=
  trim form.name ≠ "" && form.name.length ≤ 255 &&
  (trim form.note = "" || form.note.length ≤ 500) &&
  form.deviceGroupIds.all (fun id => (db.deviceGroups.find? id).isSome) &&
  form.accessorGroupIds.all fun id => (db.userGroups.find? id).isSome

def savedNote (form : Form) : Option String := if form.note = "" then none else some form.note

/-- The row of the saved user group; `editing` is 0 for a new one. -/
def writeUserGroup (db : Database) (editing : Nat) (form : Form) : Option (Database × Nat) :=
  if editing = 0 then
    some ({ db with
      userGroups := db.userGroups.insert fun id =>
        { id, name := form.name, note := savedNote form } }, db.userGroups.nextId)
  else if (db.userGroups.find? editing).isNone then none
  else some ({ db with
    userGroups := db.userGroups.update (fun group => decide (group.id = editing)) fun group =>
      { group with name := form.name, note := savedNote form } }, editing)

def writeDeviceGroup (db : Database) (editing : Nat) (form : Form) : Option (Database × Nat) :=
  if editing = 0 then
    some ({ db with
      deviceGroups := db.deviceGroups.insert fun id =>
        { id, name := form.name, note := savedNote form } }, db.deviceGroups.nextId)
  else if (db.deviceGroups.find? editing).isNone then none
  else some ({ db with
    deviceGroups := db.deviceGroups.update (fun group => decide (group.id = editing)) fun group =>
      { group with name := form.name, note := savedNote form } }, editing)

/-- The folders of a user group: a delegate keeps those out of reach as they are. -/
def savedFolders (db : Database) (actor : User) (id : Nat) (posted : List Nat) : List Nat :=
  let existing := (db.deviceGroupUserGroup.filter fun row => row.2 = id).map Prod.fst
  if actor.isAdmin then posted
  else (AuthorizesConsole.grantableDeviceGroupIds db actor posted ++
    existing.filter fun folder =>
      folder ∉ AuthorizesConsole.grantableDeviceGroupIds db actor existing).eraseDups

/-- The user groups that may see into a folder: a delegate's choice counts for a folder
in reach. -/
def savedAccessors (db : Database) (actor : User) (id : Nat) (posted : List Nat) : List Nat :=
  if ! actor.isAdmin && AuthorizesConsole.grantableDeviceGroupIds db actor [id] = [] then
    GroupAccess.accessorUserGroupIds db .deviceGroup id
  else posted

def saveUserGroup (db : Database) (actor : User) (editing : Nat) (form : Form) :
    Option Database :=
  (writeUserGroup db editing form).map fun (db, id) =>
    { db with
      deviceGroupUserGroup :=
        Pivot.sync db.deviceGroupUserGroup id (savedFolders db actor id form.deviceGroupIds)
      groupAccesses := GroupAccess.syncAccessors db.groupAccesses .userGroup id
        (form.accessorGroupIds.filter (· ≠ id)) }

def saveDeviceGroup (db : Database) (actor : User) (editing : Nat) (form : Form) :
    Option Database :=
  (writeDeviceGroup db editing form).map fun (db, id) =>
    { db with
      groupAccesses := GroupAccess.syncAccessors db.groupAccesses .deviceGroup id
        (savedAccessors db actor id form.accessorGroupIds) }

inductive GroupType
  | devices
  | users
  deriving DecidableEq, Repr

def save (s : System) (actor : User) (type : GroupType) (editing : Nat) (form : Form) :
    Option System :=
  if ! actor.consoleAllows s.db .group .rw || ! validate s.db form then none
  else
    let saved := match type with
      | .users => saveUserGroup s.db actor editing form
      | .devices => saveDeviceGroup s.db actor editing form
    saved.map fun db => { s with db }

def purge (s : System) (type : SubjectType) (id : Nat) : System :=
  { s with db.groupAccesses := GroupAccess.purgeFor s.db.groupAccesses type id }

def deleteGroup (nulls : Bool) (s : System) (actor : User) (type : GroupType) (id : Nat) :
    Option System :=
  if ! actor.consoleAllows s.db .group .rw then none
  else match type with
    | .devices =>
        if (s.db.deviceGroups.find? id).isNone then none
        else some (DeviceGroup.delete nulls
          (purge (DeviceGroup.releaseDevices s id) .deviceGroup id) id)
    | .users =>
        if (s.db.userGroups.find? id).isNone then none
        else some (UserGroup.delete (purge s .userGroup id) id)

inductive Call
  | save (type : GroupType) (editing : Nat) (form : Form)
  | deleteGroup (type : GroupType) (id : Nat)

def perform (nulls : Bool) (s : System) (actor : User) : Call → Option System
  | .save type editing form => save s actor type editing form
  | .deleteGroup type id => deleteGroup nulls s actor type id

end GroupList
end CortenDesk
