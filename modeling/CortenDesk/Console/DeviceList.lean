import CortenDesk.Access.Visibility
import CortenDesk.Strategy.Writes

/-!
The Devices screen. A device is loaded through the actor's visibility, the recycle bin
included. The owner and the folder of the editor are integers that nothing else checks.
-/
namespace CortenDesk
open Php

namespace DeviceList

/-- A device the actor may edit, from the recycle bin too. -/
def scopedDevice (db : Database) (actor : User) (id : Nat) : Option Device :=
  (db.devices.find? id).filter (Device.visibleTo db actor)

/-- A quarantined device the actor may act on. -/
def scopedPendingDevice (db : Database) (actor : User) (id : Nat) : Option Device :=
  (db.devices.find? id).filter fun device =>
    ! device.trashed && Device.ownershipVisibleTo db actor device && device.status = .pending

structure Form where
  rustdeskId : String
  «alias» : String := ""
  note : String := ""
  groupId : Nat := 0
  userId : Nat := 0
  strategyId : Nat := 0

def validate (form : Form) : Bool :=
  trim form.rustdeskId ≠ "" && form.rustdeskId.length ≤ 100 &&
  (trim form.alias = "" || form.alias.length ≤ 255) &&
  (trim form.note = "" || form.note.length ≤ 500)

/-- `$text ?: null`. -/
def textOrNull (text : String) : Option String := if truthy text then some text else none

/-- `$id ?: null`. -/
def idOrNull (id : Nat) : Option Nat := if id = 0 then none else some id

def attributes (form : Form) : Device.Attributes where
  rustdeskId := form.rustdeskId
  «alias» := textOrNull form.alias
  note := textOrNull form.note
  deviceGroupId := idOrNull form.groupId
  userId := idOrNull form.userId

def savedRow (form : Form) (row : Device) : Device :=
  { row with
    «alias» := textOrNull form.alias
    note := textOrNull form.note
    deviceGroupId := idOrNull form.groupId
    userId := idOrNull form.userId }

/-- The editor's device-level assignment: administrators only, and only a change. -/
def saveStrategyAssignment (s : System) (actor : User) (device : Device) (strategyId : Nat) :
    System :=
  if ! actor.isAdmin then s
  else if (Strategy.assignedStrategyId s.db .device device.id).getD 0 = strategyId then s
  else if strategyId ≠ 0 && ! (s.db.strategies.find? strategyId).any (! ·.trashed) then s
  else Strategy.assignTo s .device device.id (idOrNull strategyId)

def save (s : System) (actor : User) (editingId : Nat) (form : Form) : Option System :=
  if ! actor.consoleAllows s.db .device .rw || ! validate form then none
  else if editingId = 0 then
    if s.db.devices.rows.any (·.rustdeskId = form.rustdeskId) then none
    else some (Device.create s (attributes form))
  else (scopedDevice s.db actor editingId).map fun device =>
    saveStrategyAssignment (Device.update s device (savedRow form)) actor device form.strategyId

def deleteDevice (s : System) (actor : User) (id : Nat) : Option System :=
  if ! actor.consoleAllows s.db .device .rw then none
  else (scopedDevice s.db actor id).map (Device.delete s)

def restoreDevice (s : System) (actor : User) (id : Nat) : Option System :=
  if ! actor.consoleAllows s.db .device .rw then none
  else (scopedDevice s.db actor id).map (Device.restore s)

def forceDeleteDevice (s : System) (actor : User) (id : Nat) : Option System :=
  if ! actor.consoleAllows s.db .device .rw then none
  else (scopedDevice s.db actor id).map (Device.forceDelete s)

def approveDevice (s : System) (actor : User) (id : Nat) : Option System :=
  if ! actor.consoleAllows s.db .device .rw then none
  else (scopedPendingDevice s.db actor id).map fun device =>
    Device.update s device fun row => { row with status := .active }

def rejectDevice (s : System) (actor : User) (id : Nat) : Option System :=
  if ! actor.consoleAllows s.db .device .rw then none
  else (scopedPendingDevice s.db actor id).map (Device.delete s)

/-- The selected devices the actor may touch. -/
def selectedDevices (db : Database) (actor : User) (selected : List Nat) : List Device :=
  db.devices.rows.filter fun device =>
    ! device.trashed && Device.visibleTo db actor device && device.id ∈ selected

def bulkDelete (s : System) (actor : User) (selected : List Nat) : Option System :=
  if ! actor.consoleAllows s.db .device .rw then none
  else some ((selectedDevices s.db actor selected).foldl Device.delete s)

/-- What the list shows: the recycle bin or the live devices, of those what the filters and
the page `listed` keep. -/
structure View where
  trashed : Bool := false
  listed : Device → Bool := fun _ => true

def selectedDevicesOnCurrentPage (db : Database) (actor : User) (view : View)
    (selected : List Nat) : List Device :=
  db.devices.rows.filter fun device =>
    device.trashed = view.trashed && Device.visibleTo db actor device && view.listed device &&
      device.id ∈ selected && device.id ≠ 0

def accessibleDeviceGroup (db : Database) (actor : User) (id : Nat) : Bool :=
  (db.deviceGroups.find? id).isSome &&
    (actor.isAdmin || id ∈ User.accessibleDeviceGroupIds db actor.id)

/-- One device of a move; one already there is skipped. -/
def moveToGroup (targetId : Option Nat) (s : System) (device : Device) : System :=
  if device.deviceGroupId.getD 0 = targetId.getD 0 then s
  else Device.update s device fun row => { row with deviceGroupId := targetId }

/-- The target is 0 for no group, negative when none was picked. -/
def moveSelectedToGroup (s : System) (actor : User) (view : View) (selected : List Nat)
    (moveGroupId : Int) : Option System :=
  if ! actor.consoleAllows s.db .device .rw then none
  else if selected = [] then some s
  else if moveGroupId < 0 then some s
  else if moveGroupId > 0 && ! accessibleDeviceGroup s.db actor moveGroupId.toNat then some s
  else
    some ((selectedDevicesOnCurrentPage s.db actor view selected).foldl
      (moveToGroup (idOrNull moveGroupId.toNat)) s)

inductive Call
  | save (editingId : Nat) (form : Form)
  | deleteDevice (id : Nat)
  | restoreDevice (id : Nat)
  | forceDeleteDevice (id : Nat)
  | approveDevice (id : Nat)
  | rejectDevice (id : Nat)
  | bulkDelete (selected : List Nat)
  | moveSelectedToGroup (view : View) (selected : List Nat) (moveGroupId : Int)

def perform (s : System) (actor : User) : Call → Option System
  | .save editingId form => save s actor editingId form
  | .deleteDevice id => deleteDevice s actor id
  | .restoreDevice id => restoreDevice s actor id
  | .forceDeleteDevice id => forceDeleteDevice s actor id
  | .approveDevice id => approveDevice s actor id
  | .rejectDevice id => rejectDevice s actor id
  | .bulkDelete selected => bulkDelete s actor selected
  | .moveSelectedToGroup view selected groupId => moveSelectedToGroup s actor view selected groupId

end DeviceList
end CortenDesk
