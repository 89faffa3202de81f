import CortenDesk.Access.Permissions
import CortenDesk.Lib.Table
import CortenDesk.Strategy.Options

/-!
The rows of the tables, with the columns that the modelled code reads or writes.
Ids are the auto-increment keys. Times are Unix seconds where a column stores them
and microseconds where the code holds a clock reading.
-/
namespace CortenDesk
open Php

/-- A clock reading, in microseconds. -/
abbrev Instant := Int

/-- A stored timestamp, in seconds. -/
abbrev Stamp := Int

/-- Writing a clock reading to a timestamp column drops the microseconds. -/
def Instant.stored (now : Instant) : Stamp := now / 1000000

def Stamp.instant (at' : Stamp) : Instant := at' * 1000000

structure Strategy where
  id : Nat
  name : String
  note : Option String := none
  enabled : Bool := true
  isDefault : Bool := false
  enforce : Bool := false
  options : Option (Arr Key Value) := none
  confirmationTimeoutMinutes : Option Int := none
  updatedAt : Option Stamp := none
  trashed : Bool := false
  deriving DecidableEq

inductive DeviceStatus
  | active
  | pending
  deriving DecidableEq, Repr

structure Device where
  id : Nat
  rustdeskId : String
  status : DeviceStatus := .active
  userId : Option Nat := none
  deviceGroupId : Option Nat := none
  strategyIdResolved : Option Nat := none
  strategyVersion : Option Int := none
  strategyOptions : Option (Arr Key Value) := none
  strategyAckedOptions : Option (Arr Key Value) := none
  strategyAckedAt : Option Stamp := none
  strategySentAt : Option Stamp := none
  lastOnlineAt : Option Stamp := none
  uuid : String := ""
  «alias» : Option String := none
  note : Option String := none
  trashed : Bool := false
  deriving DecidableEq

structure User where
  id : Nat
  username : String
  name : Option String := none
  email : Option String := none
  isAdmin : Bool := false
  roleId : Option Nat := none
  isActive : Bool := true
  authProvider : String := "local"
  oidcIss : Option String := none
  oidcSub : Option String := none
  oidcStatus : Option String := none
  rememberToken : Option String := none
  deriving DecidableEq

structure Role where
  id : Nat
  name : String
  permissions : Matrix

structure ApiToken where
  id : Nat
  name : String
  tokenHash : String
  userId : Option Nat
  permissions : Matrix
  lastUsedAt : Option Stamp := none
  expiresAt : Option Stamp := none
  isActive : Bool := true

structure UserGroup where
  id : Nat
  name : String
  note : Option String := none
  deriving DecidableEq

structure DeviceGroup where
  id : Nat
  name : String
  note : Option String := none
  deriving DecidableEq

/-- The two ends of a `group_accesses` row. -/
inductive SubjectType
  | userGroup
  | user
  | deviceGroup
  deriving DecidableEq, Repr

/-- The accessor may see into the target. -/
structure GroupAccess where
  accessorType : SubjectType
  accessorId : Nat
  targetType : SubjectType
  targetId : Nat
  deriving DecidableEq

structure AddressBook where
  id : Nat
  name : String
  ownerUserId : Option Nat
  isPersonal : Bool := false

inductive RuleSubject
  | everyone
  | user
  | group
  deriving DecidableEq, Repr

structure AddressBookRule where
  id : Nat
  addressBookId : Nat
  subjectType : RuleSubject
  subjectId : Option Nat
  permission : Nat
  deriving DecidableEq

instance : Row Strategy := ⟨Strategy.id⟩

instance : Row Device := ⟨Device.id⟩

instance : Row User := ⟨User.id⟩

instance : Row Role := ⟨Role.id⟩

instance : Row ApiToken := ⟨ApiToken.id⟩

instance : Row UserGroup := ⟨UserGroup.id⟩

instance : Row DeviceGroup := ⟨DeviceGroup.id⟩

instance : Row AddressBook := ⟨AddressBook.id⟩

instance : Row AddressBookRule := ⟨AddressBookRule.id⟩

/-- A pivot is searched for pairs. -/
instance Pivot.lawful : LawfulBEq (Nat × Nat) := inferInstance

/-- A row that loses its owner or its folder keeps its key. -/
theorem Device.keeps_disown : ∀ row : Device, Row.id { row with userId := none } = Row.id row :=
  fun _ => rfl

theorem Device.keeps_unfile :
    ∀ row : Device, Row.id { row with deviceGroupId := none } = Row.id row :=
  fun _ => rfl

theorem ApiToken.keeps_disown :
    ∀ row : ApiToken, Row.id { row with userId := none } = Row.id row :=
  fun _ => rfl

/-- The tables. A pivot is a list of id pairs, in the order of its name's parts; the three
strategy pivots hold the target first. Of a sign-in the account alone is kept. -/
structure Database where
  users : Table User := Table.empty
  roles : Table Role := Table.empty
  apiTokens : Table ApiToken := Table.empty
  userGroups : Table UserGroup := Table.empty
  userGroupUser : List (Nat × Nat) := []
  devices : Table Device := Table.empty
  deviceGroups : Table DeviceGroup := Table.empty
  deviceGroupUser : List (Nat × Nat) := []
  deviceGroupUserGroup : List (Nat × Nat) := []
  groupAccesses : List GroupAccess := []
  strategies : Table Strategy := Table.empty
  deviceStrategy : List (Nat × Nat) := []
  strategyUser : List (Nat × Nat) := []
  deviceGroupStrategy : List (Nat × Nat) := []
  addressBooks : Table AddressBook := Table.empty
  addressBookRules : Table AddressBookRule := Table.empty
  clientTokens : List Nat := []
  sessions : List Nat := []
  trustedDevices : List Nat := []

end CortenDesk
