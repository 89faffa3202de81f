import CortenDesk.Strategy.Resolution

/-!
The writes that a resolution depends on, as the models and their hooks make them: the
hooks of a strategy, of a device, of an owner and of a folder each recompute what they
may have changed. A write of the query builder fires no hook; its callers recompute.

Deleting an owner or a folder removes its pivot rows. Whether the schema also nulls the
column of the devices is left open: `nulls` says so.
-/
namespace CortenDesk

namespace Device

/-- The columns a form, an enrolment or an import names. -/
structure Attributes where
  rustdeskId : String
  uuid : String := ""
  status : DeviceStatus := .active
  userId : Option Nat := none
  deviceGroupId : Option Nat := none
  «alias» : Option String := none
  note : Option String := none
  lastOnlineAt : Option Stamp := none

def Attributes.row (attributes : Attributes) (id : Nat) : Device :=
  { id, rustdeskId := attributes.rustdeskId, uuid := attributes.uuid
    status := attributes.status, userId := attributes.userId
    deviceGroupId := attributes.deviceGroupId, «alias» := attributes.alias
    note := attributes.note, lastOnlineAt := attributes.lastOnlineAt }

def create (s : System) (attributes : Attributes) : System :=
  Strategy.syncResolvedFor (s.withDevices (s.db.devices.insert attributes.row))
    (attributes.row s.db.devices.nextId)

/-- The update of one row. -/
def write (s : System) (device : Device) (change : Device → Device)
    (keeps : ∀ row, Row.id (change row) = Row.id row := by intro _; rfl) : System :=
  s.withDevices (s.db.devices.update (fun row => decide (row.id = device.id)) change keeps)

/-- A model update: a change of owner or folder recomputes the device. -/
def update (s : System) (device : Device) (change : Device → Device)
    (keeps : ∀ row, Row.id (change row) = Row.id row := by intro _; rfl) : System :=
  let changed := change device
  let s := write s device change keeps
  if changed.userId ≠ device.userId ∨ changed.deviceGroupId ≠ device.deviceGroupId then
    Strategy.syncResolvedFor s changed
  else s

/-- The soft delete moves the row to the recycle bin. -/
def delete (s : System) (device : Device) : System :=
  write s device fun row => { row with trashed := true }

def restore (s : System) (device : Device) : System :=
  write s device fun row => { row with trashed := false }

def forceDelete (s : System) (device : Device) : System :=
  { s with
    db.devices := s.db.devices.delete fun row => decide (row.id = device.id)
    db.deviceStrategy := s.db.deviceStrategy.filter fun row => row.1 ≠ device.id }

/-- An update of the query builder: no hook, and no device of the recycle bin. -/
def updateWhere (s : System) (query : Device → Bool) (change : Device → Device)
    (keeps : ∀ row, Row.id (change row) = Row.id row := by intro _; rfl) : System :=
  s.withDevices (s.db.devices.update (fun row => ! row.trashed && query row) change keeps)

end Device

namespace User

/-- The relation leaves the recycle bin out. -/
def releaseDevices (s : System) (id : Nat) : System :=
  Device.updateWhere s (fun row => row.userId = some id) (fun row => { row with userId := none })
    Device.keeps_disown

def delete (nulls : Bool) (s : System) (id : Nat) : System :=
  Strategy.recomputeAll { s with
    db := { s.db with
      users := s.db.users.delete fun user => decide (user.id = id)
      apiTokens := s.db.apiTokens.update (fun token => decide (token.userId = some id))
        (fun token => { token with userId := none }) ApiToken.keeps_disown
      userGroupUser := s.db.userGroupUser.filter fun row => row.2 ≠ id
      deviceGroupUser := s.db.deviceGroupUser.filter fun row => row.2 ≠ id
      strategyUser := s.db.strategyUser.filter fun row => row.1 ≠ id
      addressBookRules := s.db.addressBookRules.delete fun rule =>
        s.db.addressBooks.rows.any fun book =>
          book.id = rule.addressBookId && book.isPersonal && book.ownerUserId = some id
      addressBooks := s.db.addressBooks.delete fun book =>
        book.isPersonal && book.ownerUserId = some id
      devices := s.db.devices.update (fun row => nulls && row.userId = some id)
        fun row => { row with userId := none } } }

end User

namespace DeviceGroup

def releaseDevices (s : System) (id : Nat) : System :=
  Device.updateWhere s (fun row => row.deviceGroupId = some id)
    (fun row => { row with deviceGroupId := none }) Device.keeps_unfile

def delete (nulls : Bool) (s : System) (id : Nat) : System :=
  Strategy.recomputeAll { s with
    db := { s.db with
      deviceGroups := s.db.deviceGroups.delete fun group => decide (group.id = id)
      deviceGroupUser := s.db.deviceGroupUser.filter fun row => row.1 ≠ id
      deviceGroupUserGroup := s.db.deviceGroupUserGroup.filter fun row => row.1 ≠ id
      deviceGroupStrategy := s.db.deviceGroupStrategy.filter fun row => row.1 ≠ id
      devices := s.db.devices.update (fun row => nulls && row.deviceGroupId = some id)
        fun row => { row with deviceGroupId := none } } }

end DeviceGroup

namespace UserGroup

def delete (s : System) (id : Nat) : System :=
  { s with
    db := { s.db with
      userGroups := s.db.userGroups.delete fun group => decide (group.id = id)
      userGroupUser := s.db.userGroupUser.filter fun row => row.1 ≠ id
      deviceGroupUserGroup := s.db.deviceGroupUserGroup.filter fun row => row.2 ≠ id } }

end UserGroup

namespace Strategy

/-- The rows a new default takes the flag from. -/
def displaceDefault (s : System) (id : Nat) : System :=
  { s with
    db.strategies := s.db.strategies.update
      (fun row => ! row.trashed && decide (row.id ≠ id) && row.isDefault)
      fun row => { row with isDefault := false } }

/-- The `saved` hook. -/
def saved (s : System) (strategy : Strategy) (created changedEnabled changedDefault : Bool) :
    System :=
  let s := flushCache s
  let s := if strategy.isDefault && (created || changedDefault) then
      displaceDefault s strategy.id
    else s
  if created || changedEnabled || changedDefault then recomputeAll s else s

/-- `setOptions`: what the JSON column holds afterwards. -/
def setOptions (options : Php.Arr Php.Key Php.Value) : Option (Php.Arr Php.Key Php.Value) :=
  some (JsonColumn.text.write (sanitizeOptions options).map)

/-- The columns the editor saves. -/
structure Form where
  name : String
  note : Option String
  enabled : Bool
  isDefault : Bool
  enforce : Bool
  confirmationTimeoutMinutes : Int
  options : Php.Arr Php.Key Php.Value

def Form.row (form : Form) (id : Nat) : Strategy :=
  { id, name := form.name, note := form.note, enabled := form.enabled
    isDefault := form.isDefault, enforce := form.enforce
    confirmationTimeoutMinutes := some form.confirmationTimeoutMinutes
    options := setOptions form.options }

def create (s : System) (form : Form) : System :=
  let strategy := form.row s.db.strategies.nextId
  saved { s with db.strategies := s.db.strategies.insert form.row } strategy true false false

def update (s : System) (strategy : Strategy) (change : Strategy → Strategy)
    (keeps : ∀ row, Row.id (change row) = Row.id row := by intro _; rfl) : System :=
  let changed := change strategy
  saved
    { s with
      db.strategies := s.db.strategies.update (fun row => decide (row.id = strategy.id))
        change keeps }
    changed false (decide (changed.enabled ≠ strategy.enabled))
    (decide (changed.isDefault ≠ strategy.isDefault))

/-- The soft delete: the `deleting` hook clears the pivots, the flags and the name. -/
def delete (s : System) (strategy : Strategy) (deletedAt : String) : System :=
  recomputeAll (flushCache { s with
    db := { s.db with
      deviceStrategy := s.db.deviceStrategy.filter fun row => row.2 ≠ strategy.id
      strategyUser := s.db.strategyUser.filter fun row => row.2 ≠ strategy.id
      deviceGroupStrategy := s.db.deviceGroupStrategy.filter fun row => row.2 ≠ strategy.id
      strategies := s.db.strategies.update (fun row => decide (row.id = strategy.id)) fun row =>
        { row with
          enabled := false, isDefault := false
          name := strategy.name ++ " (deleted " ++ deletedAt ++ ")", trashed := true } } })

end Strategy
end CortenDesk
