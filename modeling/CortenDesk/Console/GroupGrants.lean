import CortenDesk.AdminApi.Groups
import CortenDesk.Console.GroupList
import CortenDesk.Lib.Runs

/-!
The grants between groups over runs of the screens and of the automation API. The rows have
no foreign key: whoever deletes a group must drop the rows that name it. The Groups screen
does, at both ends; the two deletions of the API do not.
-/
namespace CortenDesk
open AdminApi

namespace GroupGrants

/-- A call of a screen by an account, or a request by the owner of a token. -/
inductive Operation
  | groups (actorId : Nat) (call : GroupList.Call)
  | users (actorId : Nat) (call : UserList.Call)
  | api (ownerId : Nat) (request : AdminApi.Request)
  | apiGroups (request : GroupRequest)

/-- The state after an operation that completes. -/
def perform (isEmail : String → Bool) (nulls : Bool) (s : System) : Operation → Option System
  | .groups actorId call =>
      (s.db.users.find? actorId).bind fun actor => GroupList.perform nulls s actor call
  | .users actorId call =>
      (s.db.users.find? actorId).bind fun actor => UserList.perform isEmail nulls s actor call
  | .api ownerId request =>
      (s.db.users.find? ownerId).bind fun owner => AdminApi.handle nulls s owner request
  | .apiGroups request => handleGroup isEmail s request

/-- An operation that is refused writes nothing. -/
def step (isEmail : String → Bool) (nulls : Bool) (s : System) (op : Operation) : System :=
  (perform isEmail nulls s op).getD s

/-- The tables before any grant was made. -/
def start (s : System) : System := { s with db.groupAccesses := [] }

end GroupGrants

/-- The row that one end of a grant names. -/
def Database.hasSubject (db : Database) : SubjectType → Nat → Prop
  | .userGroup, id => (db.userGroups.find? id).isSome
  | .user, id => (db.users.find? id).isSome
  | .deviceGroup, id => (db.deviceGroups.find? id).isSome

instance Database.hasSubject.decidable (db : Database) (type : SubjectType) (id : Nat) :
    Decidable (db.hasSubject type id) :=
  match type with
  | .userGroup => inferInstanceAs (Decidable ((db.userGroups.find? id).isSome = true))
  | .user => inferInstanceAs (Decidable ((db.users.find? id).isSome = true))
  | .deviceGroup => inferInstanceAs (Decidable ((db.deviceGroups.find? id).isSome = true))

def GroupAccess.Names (access : GroupAccess) (type : SubjectType) (id : Nat) : Prop :=
  (access.accessorType = type ∧ access.accessorId = id) ∨
    (access.targetType = type ∧ access.targetId = id)

namespace GroupGrants

def NoDangling (db : Database) : Prop :=
  ∀ access ∈ db.groupAccesses, db.hasSubject access.accessorType access.accessorId ∧
    db.hasSubject access.targetType access.targetId

/-- The relations that a deletion of a group touches beside the group. -/
def grants (s : System) : List GroupAccess × List (Nat × Nat) × List (Nat × Nat) × List (Nat × Nat) :=
  (s.db.groupAccesses, s.db.deviceGroupUserGroup, s.db.deviceGroupUser, s.db.userGroupUser)

/-- Only user groups are given access, and only to groups. -/
def Grouped (db : Database) : Prop :=
  ∀ access ∈ db.groupAccesses, access.accessorType = .userGroup ∧ access.targetType ≠ .user

/-- A grant between groups that exist. -/
structure Sound (db : Database) (access : GroupAccess) : Prop where
  grouped : access.accessorType = .userGroup ∧ access.targetType ≠ .user
  accessor : db.hasSubject access.accessorType access.accessorId
  target : db.hasSubject access.targetType access.targetId

/-- The groups keep their keys, and a grant that joins is sound. -/
structure Keeps (db db' : Database) : Prop where
  accesses : ∀ access ∈ db'.groupAccesses, access ∈ db.groupAccesses ∨ Sound db' access
  userGroups : ∀ id, (db.userGroups.find? id).isSome → (db'.userGroups.find? id).isSome
  deviceGroups : ∀ id, (db.deviceGroups.find? id).isSome → (db'.deviceGroups.find? id).isSome

theorem Keeps.refl (db : Database) : Keeps db db :=
  ⟨fun _ mem => .inl mem, fun _ h => h, fun _ h => h⟩

theorem Keeps.hasSubject {db db' : Database} (keeps : Keeps db db') {type : SubjectType} {id : Nat}
    (group : type ≠ .user) (has : db.hasSubject type id) : db'.hasSubject type id := by
  cases type with
  | userGroup => exact keeps.userGroups id has
  | user => exact absurd rfl group
  | deviceGroup => exact keeps.deviceGroups id has

theorem Keeps.sound {db db' : Database} (keeps : Keeps db db') {access : GroupAccess}
    (sound : Sound db access) : Sound db' access where
  grouped := sound.grouped
  accessor := keeps.hasSubject (sound.grouped.1 ▸ SubjectType.noConfusion) sound.accessor
  target := keeps.hasSubject sound.grouped.2 sound.target

theorem Keeps.trans {a b c : Database} (h : Keeps a b) (h' : Keeps b c) : Keeps a c := by
  refine ⟨fun access mem => ?_, fun id some => h'.userGroups id (h.userGroups id some),
    fun id some => h'.deviceGroups id (h.deviceGroups id some)⟩
  rcases h'.accesses access mem with old | new
  · rcases h.accesses access old with older | sound
    · exact .inl older
    · exact .inr (h'.sound sound)
  · exact .inr new

/-- A write of other tables. -/
theorem Keeps.of_eq {db db' : Database} (accesses : db'.groupAccesses = db.groupAccesses)
    (userGroups : db'.userGroups = db.userGroups)
    (deviceGroups : db'.deviceGroups = db.deviceGroups) : Keeps db db' :=
  ⟨fun _ mem => .inl (accesses ▸ mem), fun _ h => userGroups ▸ h, fun _ h => deviceGroups ▸ h⟩

theorem Keeps.grouped {db db' : Database} (keeps : Keeps db db') (h : Grouped db) :
    Grouped db' := by
  intro access mem
  rcases keeps.accesses access mem with old | sound
  · exact h access old
  · exact sound.grouped

theorem Keeps.noDangling {db db' : Database} (keeps : Keeps db db') (grouped : Grouped db)
    (h : NoDangling db) : NoDangling db' := by
  intro access mem
  rcases keeps.accesses access mem with old | sound
  · obtain ⟨accessor, target⟩ := h access old
    have carried := keeps.sound ⟨grouped access old, accessor, target⟩
    exact ⟨carried.accessor, carried.target⟩
  · exact ⟨sound.accessor, sound.target⟩

section Devices

end Devices

/-- A write that keeps the groups, and a condition that holds of it. -/
theorem Keeps.decides {db db' : Database} {condition : Prop} (keeps : Keeps db db')
    (meets : condition) (grouped : Grouped db) :
    Grouped db' ∧ (NoDangling db → (NoDangling db' ↔ condition)) :=
  ⟨keeps.grouped grouped, fun h => iff_of_true (keeps.noDangling grouped h) meets⟩

end GroupGrants
end CortenDesk
