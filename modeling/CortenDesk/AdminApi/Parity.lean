import CortenDesk.AdminApi.Endpoints
import CortenDesk.Console.DeviceList

/-!
The automation API against the console. A screen asks two things of its actor: the area,
and the row it acts on. An endpoint asks only for the area, of the matrix of the token. A
write stays within the console when every row it touches is one that the owner of the token
could have touched on the screen, which is a condition on what the request names.
-/
universe u

/-- The row of the column is gone. -/
def Table.Departed {ρ : Type u} [Row ρ] (before after : Table ρ) (id : Option Nat) : Prop :=
  ∃ row ∈ before.rows, id = some (Row.id row) ∧ after.find? (Row.id row) = none

namespace CortenDesk
open Permissions

/-- The device as it was, but for its cached resolution, and for an owner or a folder that
the write removed. -/
def Device.LeftAlone (before after : Database) (device device' : Device) : Prop :=
  device'.uncached =
    { device.uncached with userId := device'.userId, deviceGroupId := device'.deviceGroupId } ∧
  (device'.userId = device.userId ∨
    device'.userId = none ∧ before.users.Departed after.users device.userId) ∧
  (device'.deviceGroupId = device.deviceGroupId ∨
    device'.deviceGroupId = none ∧
      before.deviceGroups.Departed after.deviceGroups device.deviceGroupId)

/-- The account and everything it is signed in with. -/
def User.LeftAlone (before after : Database) (user : User) : Prop :=
  user ∈ after.users.rows ∧
  (user.id ∈ before.clientTokens → user.id ∈ after.clientTokens) ∧
  (user.id ∈ before.sessions → user.id ∈ after.sessions) ∧
  (user.id ∈ before.trustedDevices → user.id ∈ after.trustedDevices)

/-- The Devices screen acts on devices that the actor sees. -/
def DeviceList.reaches (db : Database) (actor : User) (device : Device) : Bool :=
  actor.consoleAllows db .device .rw && Device.visibleTo db actor device

/-- The Users screen acts on accounts that pass the guard. -/
def UserList.reaches (db : Database) (actor target : User) : Bool :=
  actor.consoleAllows db .user .rw && guardTarget actor target

/-- The editor of an account adds and removes the groups the actor could hand out. -/
def UserList.handsOut (db : Database) (actor target : User) (group : Nat) : Bool :=
  reaches db actor target && group ∈ AuthorizesConsole.grantableUserGroupIds db actor [group]

/-- The Groups screen deletes any group. -/
def GroupList.reaches (db : Database) (actor : User) : Bool := actor.consoleAllows db .group .rw

namespace AdminApi

def DevicesWithin (before : Database) (owner : User) (after : Database) : Prop :=
  ∀ device ∈ before.devices.rows,
    (∃ device', after.devices.find? device.id = some device' ∧
      device.LeftAlone before after device') ∨
    DeviceList.reaches before owner device

def AccountsWithin (before : Database) (owner : User) (after : Database) : Prop :=
  ∀ user ∈ before.users.rows, user.LeftAlone before after ∨ UserList.reaches before owner user

/-- A membership goes with its account and with its group. -/
def MembersWithin (before : Database) (owner : User) (after : Database) : Prop :=
  ∀ user ∈ before.users.rows, ∀ group ∈ before.userGroups.rows,
    after.users.find? user.id ≠ none → after.userGroups.find? group.id ≠ none →
      ((group.id, user.id) ∈ after.userGroupUser ↔ (group.id, user.id) ∈ before.userGroupUser) ∨
        UserList.handsOut before owner user group.id

def GroupsWithin (before : Database) (owner : User) (after : Database) : Prop :=
  (before.userGroups.rows ⊆ after.userGroups.rows ∧
    before.deviceGroups.rows ⊆ after.deviceGroups.rows) ∨
  GroupList.reaches before owner

/-- A rule that is there is an old one or one that the screen stores, and one that is not is gone
from the screen or one that the screen deletes; the rules of a book go with it. -/
def RulesWithin (before : Database) (owner : User) (after : Database) : Prop :=
  ∀ book ∈ before.addressBooks.rows, book ∈ after.addressBooks.rows →
    ∀ rule : AddressBookRule, rule.addressBookId = book.id →
      (rule ∈ after.addressBookRules.rows → rule ∈ before.addressBookRules.rows ∨
        AddressBookManager.stores before owner rule = true) ∧
      (rule ∈ before.addressBookRules.rows → rule ∈ after.addressBookRules.rows ∨
        (AddressBookManager.deleteRule before owner book.id rule.id).isSome = true)

/-- Every row the write touches is one that the screens let the owner touch. -/
structure WithinConsole (before : Database) (owner : User) (after : Database) : Prop where
  devices : DevicesWithin before owner after
  accounts : AccountsWithin before owner after
  members : MembersWithin before owner after
  groups : GroupsWithin before owner after
  rules : RulesWithin before owner after

/-- The column already holds what the reference asks for. -/
def Reference.keeps {ρ : Type} [Row ρ] (table : Table ρ) (name : ρ → String)
    (current : Option Nat) (reference : Reference) : Bool :=
  (reference.change table name).all fun change => change.getD current = current

/-- Nothing is left to end of the account's sign-ins. -/
def signedOut (db : Database) (user : User) (token : String) : Bool :=
  user.rememberToken = some token && user.id ∉ db.clientTokens && user.id ∉ db.sessions &&
    user.id ∉ db.trustedDevices

/-- What the request names is within reach of the owner's screens, or already is as the
request would have it. -/
def inScope (db : Database) (owner : User) : Request → Bool
  | .enableDevice id => (db.devices.find? id).all fun device =>
      ! device.trashed || DeviceList.reaches db owner device
  | .disableDevice id | .destroyDevice id => (db.devices.find? id).all fun device =>
      DeviceList.reaches db owner device
  | .assignDevice id user deviceGroup => (db.devices.find? id).all fun device =>
      (user.keeps db.users User.username device.userId &&
        deviceGroup.keeps db.deviceGroups DeviceGroup.name device.deviceGroupId) ||
      DeviceList.reaches db owner device
  | .addUserGroupMember group reference =>
      (reference.find db.users User.username).all fun user =>
        (group, user.id) ∈ db.userGroupUser || UserList.handsOut db owner user group
  | .removeUserGroupMember group reference =>
      (reference.find db.users User.username).all fun user =>
        (group, user.id) ∉ db.userGroupUser || UserList.handsOut db owner user group
  | .destroyUserGroup _ | .destroyDeviceGroup _ => GroupList.reaches db owner
  | .addDeviceGroupMember group reference =>
      (DeviceGroupsController.resolveDevice db reference).all fun device =>
        device.deviceGroupId = some group || DeviceList.reaches db owner device
  | .removeDeviceGroupMember group reference =>
      (DeviceGroupsController.resolveDevice db reference).all fun device =>
        device.deviceGroupId ≠ some group || DeviceList.reaches db owner device
  | .enableUser id => (db.users.find? id).all fun user =>
      user.isActive || UserList.reaches db owner user
  | .disableUser id token => (db.users.find? id).all fun user =>
      (! user.isActive && signedOut db user token) || UserList.reaches db owner user
  | .forceLogoutUser id token => (db.users.find? id).all fun user =>
      signedOut db user token || UserList.reaches db owner user
  | .destroyUser id => (db.users.find? id).all fun user => UserList.reaches db owner user
  | .storeRule book subjectType subjectId permission =>
      (AddressBookManager.addRule db owner book subjectType subjectId permission).isSome
  | .updateRule _ rule change => (db.addressBookRules.find? rule).all fun row =>
      change.apply row = row || AddressBookManager.stores db owner (change.apply row)
  | .destroyRule book rule => (AddressBookManager.deleteRule db owner book rule).isSome

end AdminApi

theorem Device.LeftAlone.refl (before after : Database) (device : Device) :
    device.LeftAlone before after device :=
  ⟨rfl, .inl rfl, .inl rfl⟩

theorem Device.LeftAlone.cached {before after after' : Database} {device row row' : Device}
    (h : device.LeftAlone before after row) (same : row'.uncached = row.uncached)
    (users : after'.users = after.users) (folders : after'.deviceGroups = after.deviceGroups) :
    device.LeftAlone before after' row' := by
  obtain ⟨columns, owner, folder⟩ := h
  have userId : row'.userId = row.userId := by
    change row'.uncached.userId = row.uncached.userId
    rw [same]
  have deviceGroupId : row'.deviceGroupId = row.deviceGroupId := by
    change row'.uncached.deviceGroupId = row.uncached.deviceGroupId
    rw [same]
  rw [Device.LeftAlone, same, userId, deviceGroupId, users, folders]
  exact ⟨columns, owner, folder⟩

/-- Where no account and no folder goes, a device is left alone as it was. -/
theorem Device.LeftAlone.uncached_eq {before after : Database} {device device' : Device}
    (h : device.LeftAlone before after device') (users : after.users = before.users)
    (folders : after.deviceGroups = before.deviceGroups) : device'.uncached = device.uncached := by
  obtain ⟨columns, owner, folder⟩ := h
  have stays {ρ : Type} [Row ρ] {table : Table ρ} {id : Option Nat} : ¬ table.Departed table id := by
    rintro ⟨row, present, _, gone⟩
    exact table.find?_eq_none_iff.mp gone row present rfl
  have owner := owner.resolve_right fun gone => stays (users ▸ gone.2)
  have folder := folder.resolve_right fun gone => stays (folders ▸ gone.2)
  rw [columns, owner, folder]
  rfl

namespace AdminApi
variable {before after : Database} {owner : User}

theorem DevicesWithin.refl (devices : after.devices = before.devices) :
    DevicesWithin before owner after :=
  fun device present => .inl ⟨device, devices ▸ before.devices.find?_of_mem present, .refl _ _ _⟩

theorem AccountsWithin.refl (users : after.users = before.users)
    (clientTokens : after.clientTokens = before.clientTokens)
    (sessions : after.sessions = before.sessions)
    (trustedDevices : after.trustedDevices = before.trustedDevices) :
    AccountsWithin before owner after :=
  fun _ present => .inl ⟨users ▸ present, fun signed => clientTokens ▸ signed,
    fun signed => sessions ▸ signed, fun signed => trustedDevices ▸ signed⟩

theorem MembersWithin.refl (members : after.userGroupUser = before.userGroupUser) :
    MembersWithin before owner after :=
  fun _ _ _ _ _ _ => .inl (members ▸ Iff.rfl)

theorem GroupsWithin.refl (userGroups : after.userGroups = before.userGroups)
    (deviceGroups : after.deviceGroups = before.deviceGroups) : GroupsWithin before owner after :=
  .inl ⟨userGroups ▸ List.Subset.refl _, deviceGroups ▸ List.Subset.refl _⟩

theorem RulesWithin.refl (rules : after.addressBookRules = before.addressBookRules) :
    RulesWithin before owner after :=
  fun _ _ _ _ _ => ⟨fun listed => .inl (rules ▸ listed), fun listed => .inl (rules ▸ listed)⟩

theorem DevicesWithin.recached {after' : Database} (h : DevicesWithin before owner after)
    (same : ∀ id, (after'.devices.find? id).map Device.uncached =
      (after.devices.find? id).map Device.uncached)
    (users : after'.users = after.users) (folders : after'.deviceGroups = after.deviceGroups) :
    DevicesWithin before owner after' := by
  intro device present
  rcases h device present with ⟨row, found, alone⟩ | reached
  · have cached := same device.id
    rw [found] at cached
    obtain ⟨row', found', eq⟩ := Option.map_eq_some_iff.mp cached
    exact .inl ⟨row', found', alone.cached eq users folders⟩
  · exact .inr reached

theorem WithinConsole.refl (db : Database) : WithinConsole db owner db :=
  ⟨.refl rfl, .refl rfl rfl rfl rfl, .refl rfl, .refl rfl rfl, .refl rfl⟩

/-- A recompute is within the console. -/
theorem withinConsole_recached {after' : Database} (h : Strategy.Recached after after') :
    WithinConsole before owner after' ↔ WithinConsole before owner after := by
  obtain ⟨devices, rfl, same⟩ := h
  constructor
  · intro ⟨fleet, accounts, members, groups, rules⟩
    exact ⟨fleet.recached (fun id => (same id).symm) rfl rfl, accounts, members, groups, rules⟩
  · intro ⟨fleet, accounts, members, groups, rules⟩
    exact ⟨fleet.recached same rfl rfl, accounts, members, groups, rules⟩

/-- One device is written, or goes. -/
theorem withinConsole_device {devices : Table Device} {pivot : List (Nat × Nat)} {device : Device}
    (present : device ∈ before.devices.rows) {row : Option Device}
    (written : ∀ id, devices.find? id = if id = device.id then row else before.devices.find? id) :
    WithinConsole before owner { before with devices, deviceStrategy := pivot } ↔
      row.map Device.uncached = some device.uncached ∨ DeviceList.reaches before owner device := by
  constructor
  · intro within
    rcases within.devices device present with ⟨device', found, alone⟩ | reached
    · rw [written, if_pos rfl] at found
      have same : device'.uncached = device.uncached :=
        alone.uncached_eq rfl rfl
      exact .inl (by rw [found, Option.map_some, same])
    · exact .inr reached
  · intro allowed
    refine ⟨fun other hd => ?_, .refl rfl rfl rfl rfl, .refl rfl, .refl rfl rfl, .refl rfl⟩
    rw [written]
    by_cases here : other.id = device.id
    · obtain rfl : other = device := before.devices.eq_of_id_eq hd present here
      rcases allowed with same | reached
      · obtain ⟨device', rfl, eq⟩ := Option.map_eq_some_iff.mp same
        have alone := Device.LeftAlone.refl before { before with devices, deviceStrategy := pivot } other
        exact .inl ⟨device', if_pos rfl, alone.cached eq rfl rfl⟩
      · exact .inr reached
    · rw [if_neg here]
      exact .inl ⟨other, before.devices.find?_of_mem hd, .refl _ _ _⟩

theorem withinConsole_write {s : System} {device : Device} (present : device ∈ s.db.devices.rows)
    {change : Device → Device} {keeps : ∀ row, Row.id (change row) = Row.id row} :
    WithinConsole s.db owner (Device.write s device change keeps).db ↔
      (change device).uncached = device.uncached ∨ DeviceList.reaches s.db owner device := by
  have written := Table.find?_update_id present change keeps
  rw [← Option.some.injEq, ← Option.map_some]
  exact withinConsole_device present written

theorem withinConsole_update {s : System} {device : Device} (present : device ∈ s.db.devices.rows)
    {change : Device → Device} {keeps : ∀ row, Row.id (change row) = Row.id row} :
    WithinConsole s.db owner (Device.update s device change keeps).db ↔
      (change device).uncached = device.uncached ∨ DeviceList.reaches s.db owner device := by
  have recached : Strategy.Recached (Device.write s device change keeps).db
      (Device.update s device change keeps).db := by
    simp only [Device.update]
    split
    · exact Strategy.recached_syncResolvedFor _ _
    · exact .refl _
  rw [withinConsole_recached recached]
  exact withinConsole_write present

/-- One membership is written. -/
theorem withinConsole_member {members : List (Nat × Nat)} {user : User} {group : UserGroup}
    (account : user ∈ before.users.rows) (present : group ∈ before.userGroups.rows)
    (others : ∀ row ≠ (group.id, user.id), row ∈ members ↔ row ∈ before.userGroupUser) :
    WithinConsole before owner { before with userGroupUser := members } ↔
      ((group.id, user.id) ∈ members ↔ (group.id, user.id) ∈ before.userGroupUser) ∨
        UserList.handsOut before owner user group.id := by
  have found {ρ : Type} [Row ρ] {table : Table ρ} {row : ρ} (h : row ∈ table.rows) :
      table.find? (Row.id row) ≠ none := by
    rw [table.find?_of_mem h]
    exact nofun
  constructor
  · intro within
    exact within.members user account group present (found account) (found present)
  · intro allowed
    refine ⟨.refl rfl, .refl rfl rfl rfl rfl, fun other ho joined hj _ _ => ?_, .refl rfl rfl,
      .refl rfl⟩
    by_cases here : (joined.id, other.id) = (group.id, user.id)
    · obtain ⟨sameGroup, sameUser⟩ := Prod.mk.inj here
      obtain rfl : other = user := before.users.eq_of_id_eq ho account sameUser
      obtain rfl : joined = group := before.userGroups.eq_of_id_eq hj present sameGroup
      exact allowed
    · exact .inl (others _ here)

/-- One account is written, or signed out. -/
theorem withinConsole_account {users : Table User} {clientTokens sessions trustedDevices : List Nat}
    {user : User} (present : user ∈ before.users.rows)
    (others : ∀ other ∈ before.users.rows, other.id ≠ user.id →
      other.LeftAlone before { before with users, clientTokens, sessions, trustedDevices }) :
    WithinConsole before owner { before with users, clientTokens, sessions, trustedDevices } ↔
      user.LeftAlone before { before with users, clientTokens, sessions, trustedDevices } ∨
        UserList.reaches before owner user := by
  constructor
  · intro within
    exact within.accounts user present
  · intro allowed
    refine ⟨.refl rfl, fun other ho => ?_, .refl rfl, .refl rfl rfl, .refl rfl⟩
    by_cases here : other.id = user.id
    · obtain rfl : other = user := before.users.eq_of_id_eq ho present here
      exact allowed
    · exact .inl (others other ho here)

/-- The rules of one book are written. -/
theorem withinConsole_rules {rules : Table AddressBookRule} {book : AddressBook}
    (present : book ∈ before.addressBooks.rows)
    (others : ∀ rule : AddressBookRule, rule.addressBookId ≠ book.id →
      (rule ∈ rules.rows ↔ rule ∈ before.addressBookRules.rows)) :
    WithinConsole before owner { before with addressBookRules := rules } ↔
      ∀ rule : AddressBookRule, rule.addressBookId = book.id →
        (rule ∈ rules.rows → rule ∈ before.addressBookRules.rows ∨
          AddressBookManager.stores before owner rule = true) ∧
        (rule ∈ before.addressBookRules.rows → rule ∈ rules.rows ∨
          (AddressBookManager.deleteRule before owner book.id rule.id).isSome = true) := by
  constructor
  · intro within
    exact within.rules book present present
  · intro allowed
    refine ⟨.refl rfl, .refl rfl rfl rfl rfl, .refl rfl, .refl rfl rfl, fun other ho _ rule named => ?_⟩
    by_cases here : rule.addressBookId = book.id
    · rw [← named, here]
      exact allowed rule here
    · exact ⟨fun listed => .inl ((others rule here).mp listed),
        fun listed => .inl ((others rule here).mpr listed)⟩

/-- Where the rules of a book change, the owner has the area and the full tier on the book. -/
theorem RulesWithin.full (within : RulesWithin before owner after) {book : AddressBook}
    (present : book ∈ before.addressBooks.rows) (kept : book ∈ after.addressBooks.rows)
    {rule : AddressBookRule} (named : rule.addressBookId = book.id)
    (changed : ¬ (rule ∈ after.addressBookRules.rows ↔ rule ∈ before.addressBookRules.rows)) :
    owner.consoleAllows before .addressBook .rw = true ∧
      AddressBookRule.permFull ≤ book.permissionFor before owner := by
  refine AddressBookManager.full_of_canManage present ?_
  obtain ⟨stored, gone⟩ := within book present kept rule named
  by_cases listed : rule ∈ after.addressBookRules.rows
  · obtain old | new := stored listed
    · exact absurd (iff_of_true listed old) changed
    · exact named ▸ AddressBookManager.canManage_of_stores new
  · by_cases old : rule ∈ before.addressBookRules.rows
    · have deletes := (gone old).resolve_left listed
      obtain ⟨_, deleted⟩ := Option.isSome_iff_exists.mp deletes
      obtain ⟨row, found, _⟩ := Option.map_eq_some_iff.mp deleted
      exact (AddressBookManager.findRule_eq_some_iff.mp found).1
    · exact absurd (iff_of_false listed old) changed

end AdminApi
end CortenDesk
