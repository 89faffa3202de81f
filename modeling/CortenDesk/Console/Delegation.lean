import CortenDesk.Console.Reach

/-!
The calls one by one, and the run: no call of a delegate widens what any account sees. The
one call that creates an account relies on no device naming the account's id as its owner
already.
-/
namespace CortenDesk
namespace Reach
variable {T : Nat → Prop}

theorem moves_update {db db' : Database} {p : Device → Bool} {f : Device → Device}
    (rows : db'.devices.rows = db.devices.rows.map fun row => if p row then f row else row)
    (each : ∀ row ∈ db.devices.rows, p row = true → (f row).id = row.id ∧ (T row.id ∨
      ((f row).userId = row.userId ∨ (f row).userId = none) ∧
        ((f row).deviceGroupId = row.deviceGroupId ∨ (f row).deviceGroupId = none))) :
    Moves T db db' := by
  intro device' hd
  rw [rows] at hd
  obtain ⟨row, hr, rfl⟩ := List.mem_map.mp hd
  refine ⟨row, hr, ?_⟩
  split
  · next selected =>
    obtain ⟨id, moved⟩ := each row hr selected
    exact ⟨id.symm, id ▸ moved⟩
  · exact ⟨rfl, .inr ⟨.inl rfl, .inl rfl⟩⟩

/-- A recompute writes a column that no visibility reads. -/
theorem narrows_syncResolvedFor (s : System) (device : Device) :
    Narrows T s.db (Strategy.syncResolvedFor s device).db := by
  have same := Strategy.resolve_db s device
  simp only [Strategy.syncResolvedFor]
  split
  · rw [← same]
    refine .of_moves rfl rfl rfl rfl rfl (moves_update rfl fun row _ _ => ?_)
    exact ⟨rfl, .inr ⟨.inl rfl, .inl rfl⟩⟩
  · rw [same]
    exact .refl _

theorem narrows_foldl {α : Type} {f : System → α → System} (l : List α) (s : System)
    (each : ∀ s, ∀ a ∈ l, Narrows T s.db (f s a).db) : Narrows T s.db (l.foldl f s).db := by
  induction l generalizing s with
  | nil => exact .refl _
  | cons a l ih =>
      have first := each s a List.mem_cons_self
      exact first.trans (ih (f s a) fun s b hb => each s b (List.mem_cons_of_mem _ hb))

theorem narrows_recomputeAll (s : System) : Narrows T s.db (Strategy.recomputeAll s).db :=
  narrows_foldl _ s fun s device _ => narrows_syncResolvedFor s device

theorem narrows_write {s : System} {device : Device} {change : Device → Device}
    {keeps : ∀ row, Row.id (change row) = Row.id row}
    (each : ∀ row ∈ s.db.devices.rows, row.id = device.id → T row.id ∨
      ((change row).userId = row.userId ∨ (change row).userId = none) ∧
        ((change row).deviceGroupId = row.deviceGroupId ∨ (change row).deviceGroupId = none)) :
    Narrows T s.db (Device.write s device change keeps).db :=
  .of_moves rfl rfl rfl rfl rfl (moves_update rfl fun row hr selected =>
    ⟨keeps row, each row hr (of_decide_eq_true selected)⟩)

theorem narrows_update {s : System} {device : Device} {change : Device → Device}
    {keeps : ∀ row, Row.id (change row) = Row.id row}
    (each : ∀ row ∈ s.db.devices.rows, row.id = device.id → T row.id ∨
      ((change row).userId = row.userId ∨ (change row).userId = none) ∧
        ((change row).deviceGroupId = row.deviceGroupId ∨ (change row).deviceGroupId = none)) :
    Narrows T s.db (Device.update s device change keeps).db := by
  have written : Narrows T s.db (Device.write s device change keeps).db := narrows_write each
  simp only [Device.update]
  split
  · exact written.trans (narrows_syncResolvedFor _ _)
  · exact written

theorem narrows_updateWhere {s : System} {query : Device → Bool} {change : Device → Device}
    {keeps : ∀ row, Row.id (change row) = Row.id row}
    (each : ∀ row ∈ s.db.devices.rows, (! row.trashed && query row) = true → T row.id ∨
      ((change row).userId = row.userId ∨ (change row).userId = none) ∧
        ((change row).deviceGroupId = row.deviceGroupId ∨ (change row).deviceGroupId = none)) :
    Narrows T s.db (Device.updateWhere s query change keeps).db :=
  .of_moves rfl rfl rfl rfl rfl (moves_update rfl fun row hr selected =>
    ⟨keeps row, each row hr selected⟩)

theorem narrows_delete (s : System) (device : Device) :
    Narrows T s.db (Device.delete s device).db :=
  narrows_write fun _ _ _ => .inr ⟨.inl rfl, .inl rfl⟩

theorem narrows_restore (s : System) (device : Device) :
    Narrows T s.db (Device.restore s device).db :=
  narrows_write fun _ _ _ => .inr ⟨.inl rfl, .inl rfl⟩

theorem narrows_forceDelete (s : System) (device : Device) :
    Narrows T s.db (Device.forceDelete s device).db :=
  .of_moves rfl rfl rfl rfl rfl fun row hr =>
    ⟨row, (Table.mem_delete.mp hr).1, rfl, .inr ⟨.inl rfl, .inl rfl⟩⟩

theorem seen_of_scoped {db : Database} {actor : User} {id : Nat} {device : Device}
    (found : DeviceList.scopedDevice db actor id = some device) : Seen db actor device.id := by
  obtain ⟨present, visible⟩ := Option.filter_eq_some_iff.mp found
  refine ⟨device, (db.devices.find?_eq_some_iff.mp present).1, rfl, ?_⟩
  exact (Bool.and_eq_true_iff.mp visible).1

/-- The calls of the Devices screen, but for the creation of a device. -/
theorem narrows_devices {s s' : System} {actor : User} (delegate : actor.isAdmin = false)
    {call : DeviceList.Call} (create : ∀ form, call ≠ .save 0 form)
    (done : DeviceList.perform s actor call = some s') :
    Narrows (Seen s.db actor) s.db s'.db := by
  cases call with
  | save editingId form =>
      simp only [DeviceList.perform, DeviceList.save] at done
      split at done
      · cases done
      · split at done
        · next new => exact absurd (congrArg (DeviceList.Call.save · form) new) (create form)
        · obtain ⟨device, found, rfl⟩ := Option.map_eq_some_iff.mp done
          simp only [DeviceList.saveStrategyAssignment, delegate, Bool.not_false, if_true]
          exact narrows_update fun row _ same => .inl (same ▸ seen_of_scoped found)
  | deleteDevice id =>
      simp only [DeviceList.perform, DeviceList.deleteDevice] at done
      split at done
      · cases done
      · obtain ⟨device, _, rfl⟩ := Option.map_eq_some_iff.mp done
        exact narrows_delete s device
  | restoreDevice id =>
      simp only [DeviceList.perform, DeviceList.restoreDevice] at done
      split at done
      · cases done
      · obtain ⟨device, _, rfl⟩ := Option.map_eq_some_iff.mp done
        exact narrows_restore s device
  | forceDeleteDevice id =>
      simp only [DeviceList.perform, DeviceList.forceDeleteDevice] at done
      split at done
      · cases done
      · obtain ⟨device, _, rfl⟩ := Option.map_eq_some_iff.mp done
        exact narrows_forceDelete s device
  | approveDevice id =>
      simp only [DeviceList.perform, DeviceList.approveDevice] at done
      split at done
      · cases done
      · obtain ⟨device, _, rfl⟩ := Option.map_eq_some_iff.mp done
        exact narrows_update fun _ _ _ => .inr ⟨.inl rfl, .inl rfl⟩
  | rejectDevice id =>
      simp only [DeviceList.perform, DeviceList.rejectDevice] at done
      split at done
      · cases done
      · obtain ⟨device, _, rfl⟩ := Option.map_eq_some_iff.mp done
        exact narrows_delete s device
  | bulkDelete selected =>
      simp only [DeviceList.perform, DeviceList.bulkDelete] at done
      split at done
      · cases done
      · obtain rfl := Option.some.inj done
        exact narrows_foldl _ s fun s device _ => narrows_delete s device
  | moveSelectedToGroup view selected groupId =>
      simp only [DeviceList.perform, DeviceList.moveSelectedToGroup] at done
      repeat' split at done
      · cases done
      · obtain rfl := Option.some.inj done
        exact .refl _
      · obtain rfl := Option.some.inj done
        exact .refl _
      · obtain rfl := Option.some.inj done
        exact .refl _
      · obtain rfl := Option.some.inj done
        refine narrows_foldl _ s fun now device loaded => ?_
        obtain ⟨present, selected⟩ := List.mem_filter.mp loaded
        have seen : Seen s.db actor device.id := by
          simp only [Device.visibleTo, Bool.and_eq_true] at selected
          exact ⟨device, present, rfl, selected.1.1.1.2.1⟩
        simp only [DeviceList.moveToGroup]
        split
        · exact .refl _
        · exact narrows_update fun row _ same => .inl (same ▸ seen)

theorem contained_createDevice (s : System) (actor : User) (attributes : Device.Attributes)
    {call : Call} (edits : call.edits = none) :
    Contained s.db (Device.create s attributes).db actor call := by
  have narrows : Narrows (fun _ => False) (s.withDevices (s.db.devices.insert attributes.row)).db
      (Device.create s attributes).db := narrows_syncResolvedFor _ _
  have accounts : NonePromoted s.db (Device.create s attributes).db :=
    fun user' hu => .inl (narrows.accounts user' hu)
  refine ⟨noneWidened_of accounts (fun id folder open' => .inr (narrows.accessible open')) ?_ ?_,
    accounts, fun edited is => absurd (edits.symm.trans is) nofun⟩
  · intro user' hu new
    obtain ⟨user, known, id, _⟩ := narrows.accounts user' hu
    exact absurd id (new user known)
  · intro device' hd
    obtain ⟨device, hi, id, moved⟩ := narrows.devices device' hd
    rcases List.mem_append.mp hi with old | new
    · exact .inr ⟨device, old, id, .inr (moved.resolve_left not_false)⟩
    · refine .inl fun other ho same => ?_
      have fresh : device'.id = s.db.devices.nextId := by
        rw [← id, List.mem_singleton.mp new]
        rfl
      exact absurd (same.trans fresh) (Nat.ne_of_lt (s.db.devices.below other ho))

/-- A write of account columns that carry no authority. -/
theorem narrows_accounts {before after : Database} {p : User → Bool} {f : User → User}
    (users : after.users.rows = before.users.rows.map fun user => if p user then f user else user)
    (nextId : after.users.nextId = before.users.nextId)
    (keeps : ∀ user, (f user).id = user.id ∧ (f user).isAdmin = user.isAdmin ∧
      (f user).roleId = user.roleId)
    (members : after.userGroupUser = before.userGroupUser)
    (granted : after.deviceGroupUser = before.deviceGroupUser)
    (folders : after.deviceGroupUserGroup = before.deviceGroupUserGroup)
    (accesses : after.groupAccesses = before.groupAccesses)
    (devices : after.devices = before.devices) : Narrows T before after where
  accounts user' hu := by
    rw [users] at hu
    obtain ⟨user, known, rfl⟩ := List.mem_map.mp hu
    refine ⟨user, known, ?_⟩
    split
    · exact ⟨(keeps user).1.symm, (keeps user).2⟩
    · exact ⟨rfl, rfl, rfl⟩
  nextId := nextId
  members := members ▸ List.Subset.refl _
  granted := granted ▸ List.Subset.refl _
  folders := folders ▸ List.Subset.refl _
  accesses := accesses ▸ List.Subset.refl _
  devices device hd := ⟨device, devices ▸ hd, rfl, .inr ⟨.inl rfl, .inl rfl⟩⟩

theorem narrows_setActive (db : Database) (id : Nat) (isActive : Bool) :
    Narrows T db (UserList.setActive db id isActive) :=
  narrows_accounts rfl rfl (fun _ => ⟨rfl, rfl, rfl⟩) rfl rfl rfl rfl rfl

theorem narrows_revokeAllAccess (db : Database) (id : Nat) (token : String) :
    Narrows T db (UserList.revokeAllAccess db id token) :=
  narrows_accounts rfl rfl (fun _ => ⟨rfl, rfl, rfl⟩) rfl rfl rfl rfl rfl

theorem narrows_deleteUser (nulls : Bool) (s : System) (id : Nat) :
    Narrows T s.db (User.delete nulls s id).db := by
  refine .trans ?_ (narrows_recomputeAll _)
  exact {
    accounts := fun user hu => ⟨user, (Table.mem_delete.mp hu).1, rfl, rfl, rfl⟩
    nextId := rfl
    members := List.filter_subset_self _
    granted := List.filter_subset_self _
    folders := List.Subset.refl _
    accesses := List.Subset.refl _
    devices := moves_update rfl fun _ _ _ => ⟨rfl, .inr ⟨.inr rfl, .inl rfl⟩⟩ }

theorem narrows_deleteDeviceGroup (nulls : Bool) (s : System) (id : Nat) :
    Narrows T s.db (DeviceGroup.delete nulls s id).db := by
  refine .trans ?_ (narrows_recomputeAll _)
  exact {
    accounts := fun user hu => ⟨user, hu, rfl, rfl, rfl⟩
    nextId := rfl
    members := List.Subset.refl _
    granted := List.filter_subset_self _
    folders := List.filter_subset_self _
    accesses := List.Subset.refl _
    devices := moves_update rfl fun _ _ _ => ⟨rfl, .inr ⟨.inl rfl, .inr rfl⟩⟩ }

theorem narrows_deleteUserGroup (s : System) (id : Nat) :
    Narrows T s.db (UserGroup.delete s id).db where
  accounts user hu := ⟨user, hu, rfl, rfl, rfl⟩
  nextId := rfl
  members := List.filter_subset_self _
  granted := List.Subset.refl _
  folders := List.filter_subset_self _
  accesses := List.Subset.refl _
  devices := Moves.refl s.db

theorem narrows_purge (s : System) (type : SubjectType) (id : Nat) :
    Narrows T s.db (GroupList.purge s type id).db where
  accounts user hu := ⟨user, hu, rfl, rfl, rfl⟩
  nextId := rfl
  members := List.Subset.refl _
  granted := List.Subset.refl _
  folders := List.Subset.refl _
  accesses := List.filter_subset_self _
  devices := Moves.refl s.db

theorem narrows_deleteGroup {nulls : Bool} {s s' : System} {actor : User}
    {type : GroupList.GroupType} {id : Nat}
    (done : GroupList.deleteGroup nulls s actor type id = some s') :
    Narrows T s.db s'.db := by
  simp only [GroupList.deleteGroup] at done
  repeat' split at done
  · cases done
  · cases done
  · obtain rfl := Option.some.inj done
    have released : Narrows T s.db (DeviceGroup.releaseDevices s id).db :=
      narrows_updateWhere fun _ _ _ => .inr ⟨.inl rfl, .inr rfl⟩
    exact (released.trans (narrows_purge _ _ _)).trans (narrows_deleteDeviceGroup nulls _ id)
  · cases done
  · obtain rfl := Option.some.inj done
    exact (narrows_purge s _ _).trans (narrows_deleteUserGroup _ id)

/-- The calls of the Users screen, but for the save. -/
theorem narrows_users {isEmail : String → Bool} {nulls : Bool} {s s' : System} {actor : User}
    (delegate : actor.isAdmin = false) {call : UserList.Call}
    (create : ∀ editing form, call ≠ .save editing form)
    (done : UserList.perform isEmail nulls s actor call = some s') :
    Narrows (Seen s.db actor) s.db s'.db := by
  cases call with
  | save editing form => exact absurd rfl (create editing form)
  | saveAssign userId deviceIds =>
      simp only [UserList.perform, UserList.saveAssign] at done
      repeat' split at done
      · cases done
      · cases done
      · cases done
      · next user _ _ =>
        obtain rfl := Option.some.inj done
        have gained : Narrows (Seen s.db actor) s.db
            (UserList.gain s user.id (UserList.assignedIds s.db actor deviceIds)).db := by
          refine narrows_updateWhere fun row _ selected => .inl ?_
          have listed := of_decide_eq_true (Bool.and_eq_true_iff.mp selected).2
          obtain ⟨device, assigned, id⟩ := List.mem_map.mp listed
          obtain ⟨present, assigned⟩ := List.mem_filter.mp assigned
          simp only [UserList.assignable, delegate, Bool.false_or, Device.visibleTo,
            Bool.and_eq_true] at assigned
          exact ⟨device, present, id, assigned.1.2.1⟩
        refine (gained.trans ?_).trans (narrows_recomputeAll _)
        exact narrows_updateWhere fun _ _ _ => .inr ⟨.inr rfl, .inl rfl⟩
  | toggleActive id token =>
      simp only [UserList.perform, UserList.toggleActive] at done
      repeat' split at done
      · cases done
      · obtain rfl := Option.some.inj done
        exact .refl _
      · cases done
      · cases done
      · obtain rfl := Option.some.inj done
        exact (narrows_setActive s.db id false).trans (narrows_revokeAllAccess _ id token)
      · obtain rfl := Option.some.inj done
        exact narrows_setActive s.db id true
  | forceLogout id token =>
      simp only [UserList.perform, UserList.forceLogout] at done
      repeat' split at done
      · cases done
      · obtain rfl := Option.some.inj done
        exact .refl _
      · cases done
      · cases done
      · obtain rfl := Option.some.inj done
        exact narrows_revokeAllAccess s.db id token
  | deleteUser id =>
      simp only [UserList.perform, UserList.deleteUser] at done
      repeat' split at done
      · cases done
      · obtain rfl := Option.some.inj done
        exact .refl _
      · cases done
      · cases done
      · obtain rfl := Option.some.inj done
        have released : Narrows (Seen s.db actor) s.db (User.releaseDevices s id).db :=
          narrows_updateWhere fun _ _ _ => .inr ⟨.inr rfl, .inl rfl⟩
        exact released.trans (narrows_deleteUser nulls _ id)

theorem mem_mergeGrants {allowed existing reachable : List Nat} {id : Nat} :
    id ∈ UserList.mergeGrants allowed existing reachable ↔
      id ∈ allowed ∨ id ∈ existing ∧ id ∉ reachable := by
  simp [UserList.mergeGrants]

section SaveUser
variable {db : Database} {actor : User} (delegate : actor.isAdmin = false) {editing : Nat}
  {posted : List Nat}
include delegate

/-- A folder that a delegate's save grants is one the delegate sees or one granted
before. -/
theorem mem_savedDeviceGroupIds {folder : Nat}
    (h : folder ∈ UserList.savedDeviceGroupIds db actor editing posted) :
    folder ∈ User.accessibleDeviceGroupIds db actor.id ∨
      editing ≠ 0 ∧ (folder, editing) ∈ db.deviceGroupUser := by
  simp only [UserList.savedDeviceGroupIds, delegate, Bool.false_eq_true, if_false,
    mem_mergeGrants] at h
  rcases h with granted | ⟨existing, _⟩
  · exact .inl ((AuthorizesConsole.mem_grantableDeviceGroupIds delegate).mp granted).2
  · split at existing
    · cases existing
    · next edit => exact .inr ⟨edit, User.mem_deviceGroupIds.mp existing⟩

theorem mem_savedUserGroupIds {group : Nat}
    (h : group ∈ UserList.savedUserGroupIds db actor editing posted) :
    (∀ folder ∈ UserGroup.grantedDeviceGroupIds db group,
        folder ∈ User.accessibleDeviceGroupIds db actor.id) ∨
      editing ≠ 0 ∧ (group, editing) ∈ db.userGroupUser := by
  simp only [UserList.savedUserGroupIds, delegate, Bool.false_eq_true, if_false,
    mem_mergeGrants] at h
  rcases h with granted | ⟨existing, _⟩
  · exact .inl (AuthorizesConsole.mem_grantableUserGroupIds delegate granted).2
  · split at existing
    · cases existing
    · next edit => exact .inr ⟨edit, User.mem_userGroupIds.mp existing⟩

theorem savedDeviceGroupIds_kept (edit : editing ≠ 0) {folder : Nat}
    (granted : (folder, editing) ∈ db.deviceGroupUser)
    (outside : folder ∉ User.accessibleDeviceGroupIds db actor.id) :
    folder ∈ UserList.savedDeviceGroupIds db actor editing posted := by
  simp only [UserList.savedDeviceGroupIds, delegate, Bool.false_eq_true, if_false,
    mem_mergeGrants, if_neg edit]
  refine .inr ⟨User.mem_deviceGroupIds.mpr granted, fun reachable => ?_⟩
  exact outside ((AuthorizesConsole.mem_grantableDeviceGroupIds delegate).mp reachable).2

theorem savedUserGroupIds_kept (edit : editing ≠ 0) {group : Nat}
    (member : (group, editing) ∈ db.userGroupUser)
    (outside : ∃ folder ∈ UserGroup.grantedDeviceGroupIds db group,
      folder ∉ User.accessibleDeviceGroupIds db actor.id) :
    group ∈ UserList.savedUserGroupIds db actor editing posted := by
  simp only [UserList.savedUserGroupIds, delegate, Bool.false_eq_true, if_false,
    mem_mergeGrants, if_neg edit]
  refine .inr ⟨User.mem_userGroupIds.mpr member, fun reachable => ?_⟩
  obtain ⟨folder, granted, closed⟩ := outside
  exact closed ((AuthorizesConsole.mem_grantableUserGroupIds delegate reachable).2 folder granted)

end SaveUser

/-- Memberships and direct grants that are new hand out folders the actor sees. -/
theorem accessible_of_sync {before after : Database} {actor : User} {saved : Nat}
    {folderIds groupIds : List Nat}
    (granted : after.deviceGroupUser = Pivot.sync before.deviceGroupUser saved folderIds)
    (members : after.userGroupUser = Pivot.sync before.userGroupUser saved groupIds)
    (folders : after.deviceGroupUserGroup = before.deviceGroupUserGroup)
    (accesses : after.groupAccesses = before.groupAccesses)
    (clamped : ∀ folder ∈ folderIds, folder ∈ User.accessibleDeviceGroupIds before actor.id ∨
      (folder, saved) ∈ before.deviceGroupUser)
    (clamped' : ∀ group ∈ groupIds, (∀ folder ∈ UserGroup.grantedDeviceGroupIds before group,
      folder ∈ User.accessibleDeviceGroupIds before actor.id) ∨
        (group, saved) ∈ before.userGroupUser) {id folder : Nat}
    (open' : folder ∈ User.accessibleDeviceGroupIds after id) :
    folder ∈ User.accessibleDeviceGroupIds before actor.id ∨
      folder ∈ User.accessibleDeviceGroupIds before id := by
  have joined (group : Nat) (member : (group, id) ∈ after.userGroupUser) :
      (∀ folder ∈ UserGroup.grantedDeviceGroupIds before group,
        folder ∈ User.accessibleDeviceGroupIds before actor.id) ∨
          (group, id) ∈ before.userGroupUser := by
    rw [members] at member
    rcases Pivot.mem_sync.mp member with ⟨old, _⟩ | ⟨listed, rfl⟩
    · exact .inr old
    · exact clamped' group listed
  rw [User.mem_accessibleDeviceGroupIds] at open'
  rcases open' with direct | ⟨group, member, grant⟩ | access | ⟨group, member, access⟩
  · rw [granted] at direct
    rcases Pivot.mem_sync.mp direct with ⟨old, _⟩ | ⟨listed, rfl⟩
    · exact .inr (User.mem_accessibleDeviceGroupIds.mpr (.inl old))
    · rcases clamped folder listed with reach | old
      · exact .inl reach
      · exact .inr (User.mem_accessibleDeviceGroupIds.mpr (.inl old))
  · rw [folders] at grant
    rcases joined group member with reach | old
    · exact .inl (reach folder (UserGroup.mem_grantedDeviceGroupIds.mpr (.inl grant)))
    · exact .inr (User.mem_accessibleDeviceGroupIds.mpr (.inr (.inl ⟨group, old, grant⟩)))
  · rw [accesses] at access
    exact .inr (User.mem_accessibleDeviceGroupIds.mpr (.inr (.inr (.inl access))))
  · rw [accesses] at access
    rcases joined group member with reach | old
    · exact .inl (reach folder (UserGroup.mem_grantedDeviceGroupIds.mpr (.inr access)))
    · exact .inr (User.mem_accessibleDeviceGroupIds.mpr (.inr (.inr (.inr ⟨group, old, access⟩))))

/-- The id that the next account gets opens no folder yet. -/
theorem Issued.unopened {db : Database} (h : Issued db) (folder : Nat) :
    folder ∉ User.accessibleDeviceGroupIds db db.users.nextId := by
  rw [User.mem_accessibleDeviceGroupIds]
  rintro (direct | ⟨group, member, _⟩ | access | ⟨group, member, _⟩)
  · exact absurd (h.granted _ direct) (Nat.lt_irrefl _)
  · exact absurd (h.members _ member) (Nat.lt_irrefl _)
  · exact absurd (h.accessors _ access rfl) (Nat.lt_irrefl _)
  · exact absurd (h.members _ member) (Nat.lt_irrefl _)

/-- What a save of the Users screen leaves, for a delegate. -/
theorem saveUser_eq {isEmail : String → Bool} {s s' : System} {actor : User}
    (delegate : actor.isAdmin = false) {editing : Nat} {form : UserList.Form}
    (done : UserList.save isEmail s actor editing form = some s') :
    let saved := if editing = 0 then s.db.users.nextId else editing
    (editing ≠ 0 → ∃ target, s.db.users.find? editing = some target ∧
      target.isAdmin = false) ∧
    s'.db.users.rows = (if editing = 0 then
      s.db.users.rows ++ [UserList.savedRow actor form
        { id := s.db.users.nextId, username := form.username }]
      else s.db.users.rows.map fun user =>
        if decide (user.id = editing) then UserList.savedRow actor form user else user) ∧
    s'.db.users.nextId = (if editing = 0 then s.db.users.nextId + 1 else s.db.users.nextId) ∧
    s'.db.deviceGroupUser = Pivot.sync s.db.deviceGroupUser saved
      (UserList.savedDeviceGroupIds s.db actor editing form.deviceGroupIds) ∧
    s'.db.userGroupUser = Pivot.sync s.db.userGroupUser saved
      (UserList.savedUserGroupIds s.db actor editing form.userGroupIds) ∧
    s'.db.deviceGroupUserGroup = s.db.deviceGroupUserGroup ∧
    s'.db.groupAccesses = s.db.groupAccesses ∧ s'.db.devices = s.db.devices := by
  simp only [UserList.save] at done
  split at done
  · cases done
  · split at done
    · cases done
    · next guarded =>
      obtain rfl := Option.some.inj done
      refine ⟨fun edit => ?_, ?_, ?_, ?_, rfl, rfl, rfl, rfl⟩
      · cases found : s.db.users.find? editing with
        | none => simp [edit, found] at guarded
        | some target =>
            refine ⟨target, rfl, ?_⟩
            simp [edit, found, UserList.guardTarget, delegate] at guarded
            exact guarded.2.1
      · split <;> rfl
      · split <;> rfl
      · simp only [delegate, Bool.false_and, Bool.false_eq_true, if_false]

section
variable {isEmail : String → Bool} {s s' : System} {actor : User}
  (delegate : actor.isAdmin = false) {editing : Nat} {form : UserList.Form}
  (done : UserList.save isEmail s actor editing form = some s')
include delegate done

theorem nonePromoted_saveUser : NonePromoted s.db s'.db := by
  obtain ⟨guarded, users, _⟩ := saveUser_eq delegate done
  intro user' hu
  rw [users] at hu
  split at hu
  · rcases List.mem_append.mp hu with old | new
    · exact .inl ⟨user', old, rfl, rfl, rfl⟩
    · rw [List.mem_singleton.mp new]
      refine .inr ⟨fun user known => Nat.ne_of_lt (s.db.users.below user known), ?_, ?_⟩
      · simp only [UserList.savedRow, delegate, Bool.false_and]
      · simp only [UserList.savedRow, delegate, Bool.not_false, if_true]
  · next edit =>
    obtain ⟨user, known, rfl⟩ := List.mem_map.mp hu
    refine .inl ⟨user, known, ?_⟩
    split
    · next selected =>
      obtain ⟨target, found, plain⟩ := guarded edit
      obtain ⟨present, id⟩ := s.db.users.find?_eq_some_iff.mp found
      obtain rfl := s.db.users.eq_of_id_eq known present
        ((of_decide_eq_true selected).trans id.symm)
      refine ⟨rfl, ?_, ?_⟩
      · simp only [UserList.savedRow, delegate, Bool.false_and, plain]
      · simp only [UserList.savedRow, delegate, Bool.not_false, if_true]
    · exact ⟨rfl, rfl, rfl⟩

theorem contained_saveUser (issued : Issued s.db)
    (newborn : editing = 0 → ∀ device ∈ s.db.devices.rows,
      device.userId = some s.db.users.nextId → Seen s.db actor device.id) :
    Contained s.db s'.db actor (.users (.save editing form)) := by
  obtain ⟨_, users, _, granted, members, folders, accesses, devices⟩ := saveUser_eq delegate done
  have authority := nonePromoted_saveUser delegate done
  refine ⟨noneWidened_of authority (fun id folder open' => ?_) (fun user' hu new => ?_)
    fun device' hd => ?_, authority, fun edited is => ?_⟩
  · refine accessible_of_sync granted members folders accesses (fun folder listed => ?_)
      (fun group listed => ?_) open'
    · refine (mem_savedDeviceGroupIds delegate listed).imp_right fun ⟨edit, old⟩ => ?_
      simpa only [if_neg edit] using old
    · refine (mem_savedUserGroupIds delegate listed).imp_right fun ⟨edit, old⟩ => ?_
      simpa only [if_neg edit] using old
  · rw [users] at hu
    split at hu
    · next create =>
      rcases List.mem_append.mp hu with old | made
      · exact absurd rfl (new user' old)
      · rw [List.mem_singleton.mp made]
        exact ⟨issued.unopened, newborn create⟩
    · obtain ⟨user, known, rfl⟩ := List.mem_map.mp hu
      refine absurd ?_ (new user known)
      split <;> rfl
  · rw [devices] at hd
    exact .inr ⟨device', hd, rfl, .inr ⟨.inl rfl, .inl rfl⟩⟩
  · simp only [Call.edits] at is
    split at is
    · cases is
    · next edit =>
      obtain rfl := Option.some.inj is
      refine ⟨fun folder grant outside => ?_, fun group member outside => ?_⟩
      · rw [granted, if_neg edit, Pivot.mem_sync]
        exact .inr ⟨savedDeviceGroupIds_kept delegate edit grant outside, rfl⟩
      · rw [members, if_neg edit, Pivot.mem_sync]
        exact .inr ⟨savedUserGroupIds_kept delegate edit member outside, rfl⟩

theorem issued_saveUser (issued : Issued s.db) : Issued s'.db := by
  obtain ⟨guarded, _, nextId, granted, members, _, accesses, _⟩ := saveUser_eq delegate done
  have grows : s.db.users.nextId ≤ s'.db.users.nextId := by
    rw [nextId]
    split
    · exact Nat.le_succ _
    · exact Nat.le_refl _
  have savedIssued : (if editing = 0 then s.db.users.nextId else editing) <
      s'.db.users.nextId := by
    rw [nextId]
    split
    · exact Nat.lt_succ_self _
    · next edit =>
      obtain ⟨target, found, _⟩ := guarded edit
      obtain ⟨present, id⟩ := s.db.users.find?_eq_some_iff.mp found
      exact id ▸ s.db.users.below target present
  refine ⟨fun row hr => ?_, fun row hr => ?_, fun access ha type => ?_⟩
  · rw [members] at hr
    rcases Pivot.mem_sync.mp hr with ⟨old, _⟩ | ⟨_, saved⟩
    · exact Nat.lt_of_lt_of_le (issued.members row old) grows
    · exact saved ▸ savedIssued
  · rw [granted] at hr
    rcases Pivot.mem_sync.mp hr with ⟨old, _⟩ | ⟨_, saved⟩
    · exact Nat.lt_of_lt_of_le (issued.granted row old) grows
    · exact saved ▸ savedIssued
  · rw [accesses] at ha
    exact Nat.lt_of_lt_of_le (issued.accessors access ha type) grows

end

/-- What a save of the Groups screen adds, for a delegate: folders the actor sees, to a
user group; user groups, to a folder the actor sees; and accessors of user groups, which
open no folder. -/
theorem saveGroup_eq {s s' : System} {actor : User} (delegate : actor.isAdmin = false)
    {type : GroupList.GroupType} {editing : Nat} {form : GroupList.Form}
    (done : GroupList.save s actor type editing form = some s') :
    s'.db.users = s.db.users ∧ s'.db.userGroupUser = s.db.userGroupUser ∧
    s'.db.deviceGroupUser = s.db.deviceGroupUser ∧ s'.db.devices = s.db.devices ∧
    (∀ row ∈ s'.db.deviceGroupUserGroup, row ∈ s.db.deviceGroupUserGroup ∨
      row.1 ∈ User.accessibleDeviceGroupIds s.db actor.id) ∧
    ∀ access ∈ s'.db.groupAccesses, access ∈ s.db.groupAccesses ∨
      access.accessorType = .userGroup ∧ (access.targetType = .deviceGroup →
        access.targetId ∈ User.accessibleDeviceGroupIds s.db actor.id) := by
  simp only [GroupList.save] at done
  split at done
  · cases done
  · obtain ⟨db, saved, rfl⟩ := Option.map_eq_some_iff.mp done
    cases type with
    | users =>
        obtain ⟨⟨written, id⟩, write, rfl⟩ := Option.map_eq_some_iff.mp saved
        have frame : ∃ userGroups, written = { s.db with userGroups } := by
          simp only [GroupList.writeUserGroup] at write
          repeat' split at write
          · cases write
            exact ⟨_, rfl⟩
          · cases write
          · cases write
            exact ⟨_, rfl⟩
        obtain ⟨userGroups, rfl⟩ := frame
        refine ⟨rfl, rfl, rfl, rfl, fun row hr => ?_, fun access ha => ?_⟩
        · rcases Pivot.mem_sync.mp hr with ⟨old, _⟩ | ⟨listed, second⟩
          · exact .inl old
          · simp only [GroupList.savedFolders, delegate, Bool.false_eq_true, if_false,
              List.mem_eraseDups, List.mem_append, List.mem_filter] at listed
            rcases listed with granted | ⟨existing, _⟩
            · exact .inr ((AuthorizesConsole.mem_grantableDeviceGroupIds delegate).mp granted).2
            · obtain ⟨old, present, first⟩ := List.mem_map.mp existing
              obtain ⟨present, own⟩ := List.mem_filter.mp present
              have same : old = row :=
                Prod.ext first ((of_decide_eq_true own).trans second.symm)
              exact .inl (same ▸ present)
        · rcases GroupAccess.mem_syncAccessors ha with old | ⟨group, _, rfl⟩
          · exact .inl old
          · exact .inr ⟨rfl, by rintro ⟨⟩⟩
    | devices =>
        obtain ⟨⟨written, id⟩, write, rfl⟩ := Option.map_eq_some_iff.mp saved
        have frame : ∃ deviceGroups, written = { s.db with deviceGroups } := by
          simp only [GroupList.writeDeviceGroup] at write
          repeat' split at write
          · cases write
            exact ⟨_, rfl⟩
          · cases write
          · cases write
            exact ⟨_, rfl⟩
        obtain ⟨deviceGroups, rfl⟩ := frame
        refine ⟨rfl, rfl, rfl, rfl, fun row hr => .inl hr, fun access ha => ?_⟩
        rcases GroupAccess.mem_syncAccessors ha with old | ⟨group, listed, rfl⟩
        · exact .inl old
        · simp only [GroupList.savedAccessors, delegate, Bool.not_false, Bool.true_and,
            decide_eq_true_eq] at listed
          split at listed
          · exact .inl (GroupAccess.mem_accessorUserGroupIds.mp listed)
          · next reachable =>
            obtain ⟨folder, granted⟩ := List.exists_mem_of_ne_nil _ reachable
            have granted := (AuthorizesConsole.mem_grantableDeviceGroupIds delegate).mp granted
            exact .inr ⟨rfl, fun _ => List.mem_singleton.mp granted.1 ▸ granted.2⟩

theorem contained_saveGroup {s s' : System} {actor : User} (delegate : actor.isAdmin = false)
    {type : GroupList.GroupType} {editing : Nat} {form : GroupList.Form}
    (done : GroupList.save s actor type editing form = some s') (issued : Issued s.db) :
    Contained s.db s'.db actor (.groups (.save type editing form)) ∧ Issued s'.db := by
  obtain ⟨users, members, granted, devices, folders, accesses⟩ := saveGroup_eq delegate done
  have authority : NonePromoted s.db s'.db :=
    fun user' hu => .inl ⟨user', users ▸ hu, rfl, rfl, rfl⟩
  refine ⟨⟨noneWidened_of authority (fun id folder open' => ?_) (fun user' hu new => ?_)
    fun device' hd => ?_, authority, fun edited is => by cases is⟩,
    ⟨fun row hr => ?_, fun row hr => ?_, fun access ha type' => ?_⟩⟩
  · rw [User.mem_accessibleDeviceGroupIds, members, granted] at open'
    rcases open' with direct | ⟨group, member, grant⟩ | access | ⟨group, member, access⟩
    · exact .inr (User.mem_accessibleDeviceGroupIds.mpr (.inl direct))
    · rcases folders _ grant with old | reach
      · exact .inr (User.mem_accessibleDeviceGroupIds.mpr (.inr (.inl ⟨group, member, old⟩)))
      · exact .inl reach
    · rcases accesses _ access with old | ⟨accessor, _⟩
      · exact .inr (User.mem_accessibleDeviceGroupIds.mpr (.inr (.inr (.inl old))))
      · cases accessor
    · rcases accesses _ access with old | ⟨_, reach⟩
      · exact .inr (User.mem_accessibleDeviceGroupIds.mpr (.inr (.inr (.inr ⟨group, member, old⟩))))
      · exact .inl (reach rfl)
  · exact absurd rfl (new user' (users ▸ hu))
  · rw [devices] at hd
    exact .inr ⟨device', hd, rfl, .inr ⟨.inl rfl, .inl rfl⟩⟩
  · rw [users]
    exact issued.members row (members ▸ hr)
  · rw [users]
    exact issued.granted row (granted ▸ hr)
  · rw [users]
    rcases accesses access ha with old | ⟨accessor, _⟩
    · exact issued.accessors access old type'
    · rw [accessor] at type'
      cases type'

/-- What a call relies on: a device whose owner column names the id that a new account
gets is one the actor sees. -/
def OwnersSeen (actorId : Nat) (s : System) : Call → Prop
  | .users (.save 0 _) => ∀ actor, s.db.users.find? actorId = some actor →
      ∀ device ∈ s.db.devices.rows, device.userId = some s.db.users.nextId →
        Seen s.db actor device.id
  | _ => True

theorem contained_attempt {isEmail : String → Bool} {nulls : Bool} {s s' : System} {actor : User}
    (delegate : actor.isAdmin = false) (issued : Issued s.db) {call : Call}
    (present : s.db.users.find? actor.id = some actor) (owners : OwnersSeen actor.id s call)
    (done : attempt isEmail nulls s actor call = some s') :
    Contained s.db s'.db actor call ∧ Issued s'.db := by
  have narrowed (edits : call.edits = none) (h : Narrows (Seen s.db actor) s.db s'.db) :
      Contained s.db s'.db actor call ∧ Issued s'.db := ⟨h.contained edits, h.issued issued⟩
  cases call with
  | users call =>
      by_cases save : ∃ editing form, call = .save editing form
      · obtain ⟨editing, form, rfl⟩ := save
        refine ⟨contained_saveUser delegate done issued fun create => ?_,
          issued_saveUser delegate done issued⟩
        subst create
        exact owners actor present
      · have edits : (Call.users call).edits = none := by
          cases call with
          | save editing form => exact absurd ⟨editing, form, rfl⟩ save
          | _ => rfl
        exact narrowed edits
          (narrows_users delegate (fun editing form same => save ⟨editing, form, same⟩) done)
  | groups call =>
      cases call with
      | save type editing form => exact contained_saveGroup delegate done issued
      | deleteGroup type id => exact narrowed rfl (narrows_deleteGroup done)
  | devices call =>
      by_cases create : ∃ form, call = .save 0 form
      · obtain ⟨form, rfl⟩ := create
        simp only [attempt, DeviceList.perform, DeviceList.save] at done
        repeat' split at done
        · cases done
        · cases done
        · obtain rfl := Option.some.inj done
          have synced : Narrows (fun _ => False)
              (s.withDevices (s.db.devices.insert (DeviceList.attributes form).row)).db
              (Device.create s (DeviceList.attributes form)).db := narrows_syncResolvedFor _ _
          exact ⟨contained_createDevice s actor _ rfl,
            synced.issued ⟨issued.members, issued.granted, issued.accessors⟩⟩
        · next edit => exact absurd trivial edit
      · exact narrowed rfl (narrows_devices delegate (fun form same => create ⟨form, same⟩) done)

/-- A call, judged against the state it found. -/
def StepContained (isEmail : String → Bool) (nulls : Bool) (actorId : Nat) (s : System)
    (call : Call) : Prop :=
  ∀ actor, s.db.users.find? actorId = some actor →
    Contained s.db (step isEmail nulls actorId s call).db actor call

/-- What a run keeps: no grant names an account not yet created, and the actor is no
administrator. -/
structure Delegated (actorId : Nat) (s : System) : Prop where
  issued : Issued s.db
  delegate : ∀ actor ∈ s.db.users.rows, actor.id = actorId → actor.isAdmin = false

theorem Contained.refl (db : Database) (actor : User) (call : Call) :
    Contained db db actor call where
  visibility user hu device hd sees := .inl ⟨user, hu, rfl, device, hd, rfl, sees⟩
  authority user hu := .inl ⟨user, hu, rfl, rfl, rfl⟩
  kept _ _ := ⟨fun _ granted _ => granted, fun _ member _ => member⟩

theorem contained_step {isEmail : String → Bool} {nulls : Bool} {actorId : Nat} {s : System}
    {call : Call} (h : Delegated actorId s) (owners : OwnersSeen actorId s call) :
    StepContained isEmail nulls actorId s call ∧
      Delegated actorId (step isEmail nulls actorId s call) := by
  cases found : s.db.users.find? actorId with
  | none =>
      simp only [StepContained, step, found, Option.bind_none, Option.getD_none]
      exact ⟨fun _ absent => (nomatch absent), h⟩
  | some actor =>
      obtain ⟨known, rfl⟩ := s.db.users.find?_eq_some_iff.mp found
      simp only [StepContained, step, found, Option.bind_some, Option.some.injEq, forall_eq']
      cases done : attempt isEmail nulls s actor call with
      | none => exact ⟨.refl s.db actor call, h⟩
      | some s' =>
          obtain ⟨contained, issued⟩ :=
            contained_attempt (h.delegate actor known rfl) h.issued found owners done
          refine ⟨contained, issued, fun actor' hu same => ?_⟩
          rcases contained.authority actor' hu with ⟨user, was, id, admin, _⟩ | ⟨_, plain, _⟩
          · exact admin.trans (h.delegate user was (id.trans same))
          · exact plain

/-- In a run of a delegate's calls that create no account whose id names an owner of a
device out of the delegate's sight, every call is contained: no account comes to see a
device that the actor did not see before the call, none gains authority, and the edited
account keeps what is out of the actor's reach. -/
theorem delegate_contained (isEmail : String → Bool) (nulls : Bool) (actorId : Nat) (s : System)
    (delegated : Delegated actorId s) (calls : List Call)
    (owners : Runs.Along (step isEmail nulls actorId) (OwnersSeen actorId) s calls) :
    Runs.Along (step isEmail nulls actorId) (StepContained isEmail nulls actorId) s calls :=
  Runs.Along.of_invariant (fun _ _ h owners => (contained_step h owners).2)
    (fun _ _ h owners => (contained_step h owners).1) calls s delegated owners

/-- A delegate with the users and the devices, and a device of its own. -/
def helpDesk : System where
  db := {
    roles := Table.empty.insert fun id =>
      { id, name := "Help desk", permissions := fun _ => .rw }
    users := Table.empty.insert fun id => { id, username := "helen", roleId := some 1 }
    devices := Table.empty.insert fun id => { id, rustdeskId := "123456789", userId := some 1 } }

def puppet : UserList.Form := { username := "puppet", password := "correct horse" }

/-- The device is handed to account 2, which does not exist yet. -/
def ownerPosted : Call := .devices (.save 1 { rustdeskId := "123456789", userId := 2 })

def puppetCreated : Call := .users (.save 0 puppet)

theorem helpDesk_delegated : Delegated 1 helpDesk where
  issued := ⟨nofun, nofun, nofun⟩
  delegate := by decide +kernel

/-- The new account sees a device that its creator did not see any more. -/
theorem puppet_sees_unseen :
    let before := step (fun _ => true) true 1 helpDesk ownerPosted
    let after := step (fun _ => true) true 1 before puppetCreated
    ∃ user ∈ after.db.users.rows, ∃ actor ∈ before.db.users.rows, actor.id = 1 ∧
      actor.isAdmin = false ∧
      (∀ old ∈ before.db.users.rows, old.id ≠ user.id) ∧
      ∃ device ∈ after.db.devices.rows,
        Device.ownershipVisibleTo after.db user device = true ∧
        (∃ old ∈ before.db.devices.rows, old.id = device.id) ∧
        ∀ old ∈ before.db.devices.rows, old.id = device.id →
          Device.ownershipVisibleTo before.db actor old = false := by
  decide +kernel

theorem delegate_contained_puppet :
    Runs.Along (step (fun _ => true) true 1) (StepContained (fun _ => true) true 1) helpDesk
      [puppetCreated] := by
  refine delegate_contained _ _ 1 helpDesk helpDesk_delegated [puppetCreated] ⟨?_, trivial⟩
  have none : ∀ device ∈ helpDesk.db.devices.rows,
      device.userId ≠ some helpDesk.db.users.nextId := by decide +kernel
  exact fun actor _ device hd owner => absurd owner (none device hd)

end Reach
end CortenDesk
