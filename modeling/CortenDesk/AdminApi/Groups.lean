import CortenDesk.AdminApi.Endpoints

/-!
The requests of the automation API that create and edit groups and accounts. What a route
binds it finds or answers 404, and a body that fails a rule writes nothing.
-/
namespace CortenDesk
open Php

namespace AdminApi

/-- The rules on the name of a row: required, 255 characters, of no other row. -/
def validName {ρ : Type} (rows : List ρ) (name : ρ → String) (self : ρ → Bool) (text : String) :
    Bool :=
  trim text ≠ "" && text.length ≤ 255 && rows.all fun row => name row ≠ text || self row

/-- The fields of an edit; the note may be sent empty. -/
structure GroupUpdate where
  name : Option String := none
  note : Option (Option String) := none

structure NewUser where
  username : String
  name : Option String := none
  email : Option String := none
  password : String
  isActive : Bool := true

inductive GroupRequest
  | storeDeviceGroup (name : String) (note : Option String)
  | updateDeviceGroup (deviceGroup : Nat) (change : GroupUpdate)
  | storeUserGroup (name : String) (note : Option String)
  | updateUserGroup (userGroup : Nat) (change : GroupUpdate)
  | storeUser (user : NewUser)

namespace DeviceGroupsController

def store (s : System) (name : String) (note : Option String) : Option System :=
  if ! validName s.db.deviceGroups.rows DeviceGroup.name (fun _ => false) name then none
  else some { s with db.deviceGroups := s.db.deviceGroups.insert fun id => { id, name, note } }

def update (s : System) (group : Nat) (change : GroupUpdate) : Option System :=
  if (s.db.deviceGroups.find? group).isNone then none
  else if ! change.name.all (validName s.db.deviceGroups.rows DeviceGroup.name
      fun row => row.id = group) then none
  else some { s with
    db.deviceGroups := s.db.deviceGroups.update (fun row => decide (row.id = group)) fun row =>
      { row with name := change.name.getD row.name, note := change.note.getD row.note } }

end DeviceGroupsController

namespace UserGroupsController

def store (s : System) (name : String) (note : Option String) : Option System :=
  if ! validName s.db.userGroups.rows UserGroup.name (fun _ => false) name then none
  else some { s with db.userGroups := s.db.userGroups.insert fun id => { id, name, note } }

def update (s : System) (group : Nat) (change : GroupUpdate) : Option System :=
  if (s.db.userGroups.find? group).isNone then none
  else if ! change.name.all (validName s.db.userGroups.rows UserGroup.name
      fun row => row.id = group) then none
  else some { s with
    db.userGroups := s.db.userGroups.update (fun row => decide (row.id = group)) fun row =>
      { row with name := change.name.getD row.name, note := change.note.getD row.note } }

end UserGroupsController

namespace UsersController

/-- No request promotes: the account is neither administrator nor holder of a role. -/
def store (isEmail : String → Bool) (s : System) (user : NewUser) : Option System :=
  if ! validName s.db.users.rows User.username (fun _ => false) user.username then none
  else if ! user.name.all fun name => name.length ≤ 255 then none
  else if ! user.email.all fun email => isEmail email && email.length ≤ 255 &&
      s.db.users.rows.all fun row => row.email ≠ some email then none
  else if trim user.password = "" || user.password.length < 8 then none
  else some { s with
    db.users := s.db.users.insert fun id =>
      { id, username := user.username, name := user.name, email := user.email
        isActive := user.isActive } }

end UsersController

def handleGroup (isEmail : String → Bool) (s : System) : GroupRequest → Option System
  | .storeDeviceGroup name note => DeviceGroupsController.store s name note
  | .updateDeviceGroup group change => DeviceGroupsController.update s group change
  | .storeUserGroup name note => UserGroupsController.store s name note
  | .updateUserGroup group change => UserGroupsController.update s group change
  | .storeUser user => UsersController.store isEmail s user

end AdminApi
end CortenDesk
