import CortenDesk.Access.Console

/-!
Which devices an account sees, and what a delegated actor may pass on. An account sees
its own devices and those of the folders granted to it, to one of its user groups, or by
a group access; an administrator sees all. A pivot row goes with either of its ends, so
joining the other end drops nothing.
-/
namespace CortenDesk

/-- `sync` on the first end of a pivot: the rows of `second` become the given ids. -/
def Pivot.sync (rows : List (Nat × Nat)) (second : Nat) (ids : List Nat) : List (Nat × Nat) :=
  (rows.filter fun row => row.2 ≠ second || row.1 ∈ ids) ++
    (ids.eraseDups.filter fun id => (id, second) ∉ rows).map fun id => (id, second)

theorem Pivot.mem_sync {rows : List (Nat × Nat)} {second : Nat} {ids : List Nat}
    {row : Nat × Nat} :
    row ∈ Pivot.sync rows second ids ↔
      (row ∈ rows ∧ row.2 ≠ second) ∨ (row.1 ∈ ids ∧ row.2 = second) := by
  obtain ⟨first, other⟩ := row
  simp only [Pivot.sync, List.mem_append, List.mem_filter, List.mem_map, List.mem_eraseDups,
    Prod.mk.injEq, decide_eq_true_eq, Bool.or_eq_true]
  constructor
  · rintro (⟨present, away | listed⟩ | ⟨id, ⟨listed, _⟩, rfl, rfl⟩)
    · exact .inl ⟨present, away⟩
    · by_cases here : other = second
      · exact .inr ⟨listed, here⟩
      · exact .inl ⟨present, here⟩
    · exact .inr ⟨listed, rfl⟩
  · rintro (⟨present, away⟩ | ⟨listed, rfl⟩)
    · exact .inl ⟨present, .inl away⟩
    · by_cases present : (first, other) ∈ rows
      · exact .inl ⟨present, .inr listed⟩
      · exact .inr ⟨first, ⟨listed, present⟩, rfl, rfl⟩

namespace User

def userGroupIds (db : Database) (id : Nat) : List Nat :=
  (db.userGroupUser.filter fun row => row.2 = id).map Prod.fst

def deviceGroupIds (db : Database) (id : Nat) : List Nat :=
  (db.deviceGroupUser.filter fun row => row.2 = id).map Prod.fst

/-- The targets granted to the account, directly or as a member of a user group. -/
def groupAccessTargetIds (db : Database) (targetType : SubjectType) (id : Nat) : List Nat :=
  (db.groupAccesses.filter fun access =>
    access.targetType = targetType &&
      ((access.accessorType = .user && access.accessorId = id) ||
        (access.accessorType = .userGroup && access.accessorId ∈ userGroupIds db id))).map
    GroupAccess.targetId

def accessibleDeviceGroupIds (db : Database) (id : Nat) : List Nat :=
  let viaGroups := (db.deviceGroupUserGroup.filter fun row => row.2 ∈ userGroupIds db id).map Prod.fst
  (deviceGroupIds db id ++ viaGroups ++ groupAccessTargetIds db .deviceGroup id).eraseDups

end User

namespace UserGroup

/-- What membership of the group hands out. -/
def grantedDeviceGroupIds (db : Database) (id : Nat) : List Nat :=
  let direct := (db.deviceGroupUserGroup.filter fun row => row.2 = id).map Prod.fst
  let viaAccess := (db.groupAccesses.filter fun access =>
    access.targetType = .deviceGroup && access.accessorType = .userGroup &&
      access.accessorId = id).map GroupAccess.targetId
  (direct ++ viaAccess).eraseDups

end UserGroup

namespace GroupAccess

def accessorUserGroupIds (db : Database) (targetType : SubjectType) (targetId : Nat) : List Nat :=
  (db.groupAccesses.filter fun access =>
    access.targetType = targetType && access.targetId = targetId &&
      access.accessorType = .userGroup).map accessorId

/-- Replaces the user groups that may access a target. -/
def syncAccessors (accesses : List GroupAccess) (targetType : SubjectType) (targetId : Nat)
    (userGroupIds : List Nat) : List GroupAccess :=
  let kept := if userGroupIds = [] then [0] else userGroupIds
  (userGroupIds.eraseDups.map fun id => ⟨.userGroup, id, targetType, targetId⟩).foldl
    (fun accesses access => if access ∈ accesses then accesses else accesses ++ [access])
    (accesses.filter fun access => ! (access.targetType = targetType &&
      access.targetId = targetId && access.accessorType = .userGroup &&
      access.accessorId ∉ kept))

/-- Drops every row that names a subject at either end. -/
def purgeFor (accesses : List GroupAccess) (type : SubjectType) (id : Nat) : List GroupAccess :=
  accesses.filter fun access =>
    ! ((access.accessorType = type && access.accessorId = id) ||
      (access.targetType = type && access.targetId = id))

end GroupAccess

namespace Device

/-- Ownership and folders, without the approval filter. -/
def ownershipVisibleTo (db : Database) (user : User) (device : Device) : Bool :=
  user.isAdmin || device.userId = some user.id ||
    device.deviceGroupId.any fun id => id ∈ User.accessibleDeviceGroupIds db user.id

def visibleTo (db : Database) (user : User) (device : Device) : Bool :=
  ownershipVisibleTo db user device && device.status = .active

end Device

namespace AuthorizesConsole

def grantableDeviceGroupIds (db : Database) (actor : User) (ids : List Nat) : List Nat :=
  if actor.isAdmin then ids.eraseDups
  else ids.eraseDups.filter fun id => id ∈ User.accessibleDeviceGroupIds db actor.id

def grantableUserGroupIds (db : Database) (actor : User) (ids : List Nat) : List Nat :=
  if actor.isAdmin || ids = [] then ids.eraseDups
  else (db.userGroups.rows.filter fun group => group.id ∈ ids &&
    (UserGroup.grantedDeviceGroupIds db group.id).all fun id =>
      id ∈ User.accessibleDeviceGroupIds db actor.id).map UserGroup.id

end AuthorizesConsole

namespace User

theorem mem_userGroupIds {db : Database} {id group : Nat} :
    group ∈ userGroupIds db id ↔ (group, id) ∈ db.userGroupUser := by
  simp [userGroupIds]

theorem mem_deviceGroupIds {db : Database} {id folder : Nat} :
    folder ∈ deviceGroupIds db id ↔ (folder, id) ∈ db.deviceGroupUser := by
  simp [deviceGroupIds]

/-- The four ways into a folder. -/
theorem mem_accessibleDeviceGroupIds {db : Database} {id folder : Nat} :
    folder ∈ accessibleDeviceGroupIds db id ↔
      (folder, id) ∈ db.deviceGroupUser ∨
      (∃ group, (group, id) ∈ db.userGroupUser ∧ (folder, group) ∈ db.deviceGroupUserGroup) ∨
      (⟨.user, id, .deviceGroup, folder⟩ ∈ db.groupAccesses) ∨
      ∃ group, (group, id) ∈ db.userGroupUser ∧
        ⟨.userGroup, group, .deviceGroup, folder⟩ ∈ db.groupAccesses := by
  simp only [accessibleDeviceGroupIds, List.mem_eraseDups, List.mem_append, mem_deviceGroupIds]
  have viaGroups : folder ∈ (db.deviceGroupUserGroup.filter fun row =>
      row.2 ∈ userGroupIds db id).map Prod.fst ↔
      ∃ group, (group, id) ∈ db.userGroupUser ∧ (folder, group) ∈ db.deviceGroupUserGroup := by
    simp [mem_userGroupIds, and_comm]
  have viaAccess : folder ∈ groupAccessTargetIds db .deviceGroup id ↔
      ⟨.user, id, .deviceGroup, folder⟩ ∈ db.groupAccesses ∨
      ∃ group, (group, id) ∈ db.userGroupUser ∧
        ⟨.userGroup, group, .deviceGroup, folder⟩ ∈ db.groupAccesses := by
    simp only [groupAccessTargetIds, List.mem_map, List.mem_filter, Bool.and_eq_true,
      Bool.or_eq_true, decide_eq_true_eq, mem_userGroupIds]
    constructor
    · rintro ⟨⟨_, accessor, _, _⟩, ⟨present, rfl, ⟨rfl, rfl⟩ | ⟨rfl, member⟩⟩, rfl⟩
      · exact .inl present
      · exact .inr ⟨accessor, member, present⟩
    · rintro (present | ⟨group, member, present⟩)
      · exact ⟨_, ⟨present, rfl, .inl ⟨rfl, rfl⟩⟩, rfl⟩
      · exact ⟨_, ⟨present, rfl, .inr ⟨rfl, member⟩⟩, rfl⟩
  rw [viaGroups, viaAccess, or_assoc]

end User

theorem UserGroup.mem_grantedDeviceGroupIds {db : Database} {id folder : Nat} :
    folder ∈ grantedDeviceGroupIds db id ↔
      (folder, id) ∈ db.deviceGroupUserGroup ∨
        ⟨.userGroup, id, .deviceGroup, folder⟩ ∈ db.groupAccesses := by
  simp only [grantedDeviceGroupIds, List.mem_eraseDups, List.mem_append]
  have direct : folder ∈ (db.deviceGroupUserGroup.filter fun row => row.2 = id).map Prod.fst ↔
      (folder, id) ∈ db.deviceGroupUserGroup := by simp
  have viaAccess : folder ∈ (db.groupAccesses.filter fun access =>
      access.targetType = .deviceGroup && access.accessorType = .userGroup &&
        access.accessorId = id).map GroupAccess.targetId ↔
      ⟨.userGroup, id, .deviceGroup, folder⟩ ∈ db.groupAccesses := by
    simp only [List.mem_map, List.mem_filter, Bool.and_eq_true, decide_eq_true_eq]
    constructor
    · rintro ⟨⟨_, _, _, _⟩, ⟨present, ⟨rfl, rfl⟩, rfl⟩, rfl⟩
      exact present
    · intro present
      exact ⟨_, ⟨present, ⟨rfl, rfl⟩, rfl⟩, rfl⟩
  rw [direct, viaAccess]

namespace GroupAccess

private theorem mem_foldl_firstOrCreate (new : List GroupAccess) (accesses : List GroupAccess)
    (access : GroupAccess) :
    access ∈ new.foldl (fun accesses access =>
        if access ∈ accesses then accesses else accesses ++ [access]) accesses ↔
      access ∈ accesses ∨ access ∈ new := by
  induction new generalizing accesses with
  | nil => simp
  | cons head new ih =>
      rw [List.foldl_cons, ih]
      by_cases present : head ∈ accesses
      · rw [if_pos present, List.mem_cons]
        constructor
        · rintro (old | later)
          · exact .inl old
          · exact .inr (.inr later)
        · rintro (old | rfl | later)
          · exact .inl old
          · exact .inl present
          · exact .inr later
      · rw [if_neg present, List.mem_append, List.mem_singleton, List.mem_cons, or_assoc]

theorem mem_syncAccessors {accesses : List GroupAccess} {targetType : SubjectType}
    {targetId : Nat} {userGroupIds : List Nat} {access : GroupAccess}
    (h : access ∈ syncAccessors accesses targetType targetId userGroupIds) :
    access ∈ accesses ∨ ∃ id ∈ userGroupIds, access = ⟨.userGroup, id, targetType, targetId⟩ := by
  rcases (mem_foldl_firstOrCreate _ _ _).mp h with kept | new
  · exact .inl (List.mem_of_mem_filter kept)
  · obtain ⟨id, listed, rfl⟩ := List.mem_map.mp new
    exact .inr ⟨id, List.mem_eraseDups.mp listed, rfl⟩

theorem mem_accessorUserGroupIds {db : Database} {targetType : SubjectType} {targetId id : Nat} :
    id ∈ accessorUserGroupIds db targetType targetId ↔
      ⟨.userGroup, id, targetType, targetId⟩ ∈ db.groupAccesses := by
  simp only [accessorUserGroupIds, List.mem_map, List.mem_filter, Bool.and_eq_true,
    decide_eq_true_eq]
  constructor
  · rintro ⟨⟨_, _, _, _⟩, ⟨present, ⟨rfl, rfl⟩, rfl⟩, rfl⟩
    exact present
  · intro present
    exact ⟨_, ⟨present, ⟨rfl, rfl⟩, rfl⟩, rfl⟩

end GroupAccess

namespace AuthorizesConsole

theorem mem_grantableDeviceGroupIds {db : Database} {actor : User} (delegate : actor.isAdmin = false)
    {ids : List Nat} {id : Nat} :
    id ∈ grantableDeviceGroupIds db actor ids ↔
      id ∈ ids ∧ id ∈ User.accessibleDeviceGroupIds db actor.id := by
  simp [grantableDeviceGroupIds, delegate]

/-- A grantable user group hands out folders that the actor sees. -/
theorem mem_grantableUserGroupIds {db : Database} {actor : User} (delegate : actor.isAdmin = false)
    {ids : List Nat} {id : Nat} (h : id ∈ grantableUserGroupIds db actor ids) :
    id ∈ ids ∧ ∀ folder ∈ UserGroup.grantedDeviceGroupIds db id,
      folder ∈ User.accessibleDeviceGroupIds db actor.id := by
  simp only [grantableUserGroupIds, delegate, Bool.false_or, decide_eq_true_eq] at h
  split at h
  · next none =>
    rw [none] at h
    cases h
  · obtain ⟨group, selected, rfl⟩ := List.mem_map.mp h
    have selected := List.of_mem_filter selected
    simpa using selected

end AuthorizesConsole
end CortenDesk
