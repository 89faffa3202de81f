import CortenDesk.Console.DeviceList
import CortenDesk.Console.GroupList
import CortenDesk.Console.UserList
import CortenDesk.Lib.Runs

/-!
What a delegate's calls on the Users, Groups and Devices screens do to the visibility of
every account. Visibility is the union of ownership and four kinds of grant; a call either
narrows it, moves devices that the actor sees, or hands out folders that the actor sees.
A refused call writes nothing.
-/
namespace CortenDesk
namespace Reach

inductive Call
  | users (call : UserList.Call)
  | groups (call : GroupList.Call)
  | devices (call : DeviceList.Call)

def attempt (isEmail : String → Bool) (nulls : Bool) (s : System) (actor : User) :
    Call → Option System
  | .users call => UserList.perform isEmail nulls s actor call
  | .groups call => GroupList.perform nulls s actor call
  | .devices call => DeviceList.perform s actor call

def step (isEmail : String → Bool) (nulls : Bool) (actorId : Nat) (s : System) (call : Call) :
    System :=
  ((s.db.users.find? actorId).bind fun actor => attempt isEmail nulls s actor call).getD s

/-- The rows of the grants name accounts that exist or existed: the pivots by their
foreign keys, and a group access by what it was created for. -/
structure Issued (db : Database) : Prop where
  members : ∀ row ∈ db.userGroupUser, row.2 < db.users.nextId
  granted : ∀ row ∈ db.deviceGroupUser, row.2 < db.users.nextId
  accessors : ∀ access ∈ db.groupAccesses, access.accessorType = .user →
    access.accessorId < db.users.nextId

/-- A device with the id is among those the account sees. -/
def Seen (db : Database) (user : User) (id : Nat) : Prop :=
  ∃ device ∈ db.devices.rows, device.id = id ∧ Device.ownershipVisibleTo db user device = true

/-- Whatever an account sees after the call, the account or the actor saw before it, or
the call created. -/
def NoneWidened (before after : Database) (actor : User) : Prop :=
  ∀ user' ∈ after.users.rows, ∀ device' ∈ after.devices.rows,
    Device.ownershipVisibleTo after user' device' = true →
      (∃ user ∈ before.users.rows, user.id = user'.id ∧ Seen before user device'.id) ∨
        Seen before actor device'.id ∨ ∀ device ∈ before.devices.rows, device.id ≠ device'.id

/-- An account keeps its authority; a new one has none. -/
def NonePromoted (before after : Database) : Prop :=
  ∀ user' ∈ after.users.rows,
    (∃ user ∈ before.users.rows, user.id = user'.id ∧ user'.isAdmin = user.isAdmin ∧
      user'.roleId = user.roleId) ∨
    (∀ user ∈ before.users.rows, user.id ≠ user'.id) ∧ user'.isAdmin = false ∧
      user'.roleId = none

/-- The direct folder grants and the memberships of an account that are out of reach of
the actor stay. -/
def OutOfReachKept (before after : Database) (actor : User) (edited : Nat) : Prop :=
  (∀ folder, (folder, edited) ∈ before.deviceGroupUser →
    folder ∉ User.accessibleDeviceGroupIds before actor.id →
      (folder, edited) ∈ after.deviceGroupUser) ∧
  ∀ group, (group, edited) ∈ before.userGroupUser →
    (∃ folder ∈ UserGroup.grantedDeviceGroupIds before group,
      folder ∉ User.accessibleDeviceGroupIds before actor.id) →
        (group, edited) ∈ after.userGroupUser

/-- The account that a call edits. -/
def Call.edits : Call → Option Nat
  | .users (.save editing _) => if editing = 0 then none else some editing
  | _ => none

structure Contained (before after : Database) (actor : User) (call : Call) : Prop where
  visibility : NoneWidened before after actor
  authority : NonePromoted before after
  kept : ∀ edited, call.edits = some edited → OutOfReachKept before after actor edited

/-- What a call may do to the devices: those of `T` change hands, the others lose their
owner or their folder at most. -/
def Moves (T : Nat → Prop) (before after : Database) : Prop :=
  ∀ device' ∈ after.devices.rows, ∃ device ∈ before.devices.rows, device.id = device'.id ∧
    (T device'.id ∨
      (device'.userId = device.userId ∨ device'.userId = none) ∧
        (device'.deviceGroupId = device.deviceGroupId ∨ device'.deviceGroupId = none))

/-- A write that grants nothing. -/
structure Narrows (T : Nat → Prop) (before after : Database) : Prop where
  accounts : ∀ user' ∈ after.users.rows, ∃ user ∈ before.users.rows, user.id = user'.id ∧
    user'.isAdmin = user.isAdmin ∧ user'.roleId = user.roleId
  nextId : after.users.nextId = before.users.nextId
  members : after.userGroupUser ⊆ before.userGroupUser
  granted : after.deviceGroupUser ⊆ before.deviceGroupUser
  folders : after.deviceGroupUserGroup ⊆ before.deviceGroupUserGroup
  accesses : after.groupAccesses ⊆ before.groupAccesses
  devices : Moves T before after

variable {T : Nat → Prop}

theorem Moves.refl (db : Database) : Moves T db db :=
  fun device hd => ⟨device, hd, rfl, .inr ⟨.inl rfl, .inl rfl⟩⟩

theorem Moves.trans {a b c : Database} (h : Moves T a b) (h' : Moves T b c) : Moves T a c := by
  intro last hl
  obtain ⟨next, hn, nextId, moved⟩ := h' last hl
  obtain ⟨first, hf, firstId, moved'⟩ := h next hn
  refine ⟨first, hf, firstId.trans nextId, ?_⟩
  rcases moved with touched | ⟨owner, folder⟩
  · exact .inl touched
  · rcases moved' with touched | ⟨owner', folder'⟩
    · exact .inl (nextId ▸ touched)
    · refine .inr ⟨?_, ?_⟩
      · rcases owner with same | gone
        · rw [same]
          exact owner'
        · exact .inr gone
      · rcases folder with same | gone
        · rw [same]
          exact folder'
        · exact .inr gone

theorem Narrows.trans {a b c : Database} (h : Narrows T a b) (h' : Narrows T b c) :
    Narrows T a c where
  accounts last hl := by
    obtain ⟨next, hn, id, admin, role⟩ := h'.accounts last hl
    obtain ⟨first, hf, id', admin', role'⟩ := h.accounts next hn
    exact ⟨first, hf, id'.trans id, admin.trans admin', role.trans role'⟩
  nextId := h'.nextId.trans h.nextId
  members := List.Subset.trans h'.members h.members
  granted := List.Subset.trans h'.granted h.granted
  folders := List.Subset.trans h'.folders h.folders
  accesses := List.Subset.trans h'.accesses h.accesses
  devices := h.devices.trans h'.devices

/-- A write to the devices alone. -/
theorem Narrows.of_moves {before after : Database} (users : after.users = before.users)
    (members : after.userGroupUser = before.userGroupUser)
    (granted : after.deviceGroupUser = before.deviceGroupUser)
    (folders : after.deviceGroupUserGroup = before.deviceGroupUserGroup)
    (accesses : after.groupAccesses = before.groupAccesses) (devices : Moves T before after) :
    Narrows T before after where
  accounts user hu := ⟨user, users ▸ hu, rfl, rfl, rfl⟩
  nextId := by rw [users]
  members := members ▸ List.Subset.refl _
  granted := granted ▸ List.Subset.refl _
  folders := folders ▸ List.Subset.refl _
  accesses := accesses ▸ List.Subset.refl _
  devices := devices

theorem Narrows.refl (db : Database) : Narrows T db db :=
  .of_moves rfl rfl rfl rfl rfl (.refl db)

/-- Fewer grants open fewer folders. -/
theorem Narrows.accessible {before after : Database} (h : Narrows T before after) {id folder : Nat}
    (open' : folder ∈ User.accessibleDeviceGroupIds after id) :
    folder ∈ User.accessibleDeviceGroupIds before id := by
  rw [User.mem_accessibleDeviceGroupIds] at open' ⊢
  rcases open' with direct | ⟨group, member, granted⟩ | access | ⟨group, member, access⟩
  · exact .inl (h.granted direct)
  · exact .inr (.inl ⟨group, h.members member, h.folders granted⟩)
  · exact .inr (.inr (.inl (h.accesses access)))
  · exact .inr (.inr (.inr ⟨group, h.members member, h.accesses access⟩))

theorem Narrows.issued {before after : Database} (h : Narrows T before after)
    (issued : Issued before) : Issued after where
  members row hr := h.nextId ▸ issued.members row (h.members hr)
  granted row hr := h.nextId ▸ issued.granted row (h.granted hr)
  accessors access ha type := h.nextId ▸ issued.accessors access (h.accesses ha) type

theorem Seen.of_admin {db : Database} {user : User} {device : Device}
    (hd : device ∈ db.devices.rows) (admin : user.isAdmin = true) : Seen db user device.id :=
  ⟨device, hd, rfl, by simp [Device.ownershipVisibleTo, admin]⟩

theorem Seen.of_owner {db : Database} {user : User} {device : Device}
    (hd : device ∈ db.devices.rows) (owner : device.userId = some user.id) :
    Seen db user device.id :=
  ⟨device, hd, rfl, by simp [Device.ownershipVisibleTo, owner]⟩

theorem Seen.of_folder {db : Database} {user : User} {device : Device} {folder : Nat}
    (hd : device ∈ db.devices.rows) (within : device.deviceGroupId = some folder)
    (open' : folder ∈ User.accessibleDeviceGroupIds db user.id) : Seen db user device.id :=
  ⟨device, hd, rfl, by simp [Device.ownershipVisibleTo, within, open']⟩

/-- The whole argument: who sees a device afterwards is an administrator, its owner, or
one its folder is open to; each of them saw it before, or the actor did. -/
theorem noneWidened_of {before after : Database} {actor : User}
    (authority : NonePromoted before after)
    (folders : ∀ id, ∀ folder ∈ User.accessibleDeviceGroupIds after id,
      folder ∈ User.accessibleDeviceGroupIds before actor.id ∨
        folder ∈ User.accessibleDeviceGroupIds before id)
    (newborn : ∀ user' ∈ after.users.rows, (∀ user ∈ before.users.rows, user.id ≠ user'.id) →
      (∀ folder, folder ∉ User.accessibleDeviceGroupIds before user'.id) ∧
        ∀ device ∈ before.devices.rows, device.userId = some user'.id →
          Seen before actor device.id)
    (devices : ∀ device' ∈ after.devices.rows, (∀ device ∈ before.devices.rows,
        device.id ≠ device'.id) ∨ ∃ device ∈ before.devices.rows, device.id = device'.id ∧
      (Seen before actor device'.id ∨
        (device'.userId = device.userId ∨ device'.userId = none) ∧
          (device'.deviceGroupId = device.deviceGroupId ∨ device'.deviceGroupId = none))) :
    NoneWidened before after actor := by
  intro user' hu device' hd sees
  rcases devices device' hd with created | ⟨device, present, sameId, seen | ⟨owner, folder⟩⟩
  · exact .inr (.inr created)
  · exact .inr (.inl seen)
  · rw [← sameId]
    simp only [Device.ownershipVisibleTo, Bool.or_eq_true, decide_eq_true_eq,
      Option.any_eq_true] at sees
    rcases sees with (admin | owned) | ⟨group, within, open'⟩
    · rcases authority user' hu with ⟨user, known, id, isAdmin, _⟩ | ⟨_, plain, _⟩
      · exact .inl ⟨user, known, id, .of_admin present (isAdmin ▸ admin)⟩
      · rw [plain] at admin
        cases admin
    · have was : device.userId = some user'.id := by
        rcases owner with same | gone
        · exact same ▸ owned
        · rw [gone] at owned
          cases owned
      rcases authority user' hu with ⟨user, known, id, _⟩ | ⟨new, _⟩
      · exact .inl ⟨user, known, id, .of_owner present (id ▸ was)⟩
      · exact .inr (.inl ((newborn user' hu new).2 device present was))
    · have was : device.deviceGroupId = some group := by
        rcases folder with same | gone
        · exact same ▸ within
        · rw [gone] at within
          cases within
      rcases folders user'.id group open' with mine | theirs
      · exact .inr (.inl (.of_folder present was mine))
      · rcases authority user' hu with ⟨user, known, id, _⟩ | ⟨new, _⟩
        · exact .inl ⟨user, known, id, .of_folder present was (id ▸ theirs)⟩
        · exact absurd theirs ((newborn user' hu new).1 group)

/-- A write that grants nothing and moves only what the actor sees. -/
theorem Narrows.contained {before after : Database} {actor : User} {call : Call}
    (h : Narrows (Seen before actor) before after) (edits : call.edits = none) :
    Contained before after actor call where
  visibility := by
    refine noneWidened_of (fun user' hu => .inl (h.accounts user' hu))
      (fun id folder open' => .inr (h.accessible open')) ?_
      fun device' hd => .inr (h.devices device' hd)
    intro user' hu new
    obtain ⟨user, known, id, _⟩ := h.accounts user' hu
    exact absurd id (new user known)
  authority user' hu := .inl (h.accounts user' hu)
  kept edited is := by
    rw [edits] at is
    cases is

end Reach
end CortenDesk
