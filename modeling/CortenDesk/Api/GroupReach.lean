import CortenDesk.Api.GroupTab

/-!
What a user may learn from the Group tab. The reach of an account is cut out of the tables; the tab
answers from it as it does from the whole, so that no row beyond it shows in a name or in a count.
-/
namespace CortenDesk
open Php

namespace GroupTab

/-- The user groups whose members the account sees. -/
def matesGroupIds (db : Database) (actor : User) : List Nat :=
  User.userGroupIds db actor.id ++ User.groupAccessTargetIds db .userGroup actor.id

/-- The grants to the account, and to the user groups it is in. -/
def grants (db : Database) (actor : User) : List GroupAccess :=
  db.groupAccesses.filter fun access =>
    (access.accessorType = .user && access.accessorId = actor.id) ||
      (access.accessorType = .userGroup && access.accessorId ∈ User.userGroupIds db actor.id)

/-- The accounts it sees whole; of the owners of its devices only the name. -/
def knownUsers (db : Database) (actor : User) : Table User :=
  (db.users.delete fun user => ! (user.id ∈ User.visibleUserIds db actor.id ||
      (devices db actor).any fun device => device.userId = some user.id)).update
    (fun user => user.id ∉ User.visibleUserIds db actor.id)
    fun user => { id := user.id, username := user.username }

/-- The folders it may see; of the others that hold one of its devices only the name. -/
def knownFolders (db : Database) (actor : User) : Table DeviceGroup :=
  (db.deviceGroups.delete fun folder => ! (folder.id ∈ User.accessibleDeviceGroupIds db actor.id ||
      (devices db actor).any fun device => device.deviceGroupId = some folder.id)).update
    (fun folder => folder.id ∉ User.accessibleDeviceGroupIds db actor.id)
    fun folder => { id := folder.id, name := folder.name }

/-- Everything else is gone: an administrator's reach is the whole. -/
def reach (s : State) (actor : User) : State :=
  if actor.isAdmin then s
  else
    { db :=
        { users := knownUsers s.db actor
          userGroupUser := s.db.userGroupUser.filter fun row => row.1 ∈ matesGroupIds s.db actor
          devices := s.db.devices.delete fun device =>
            device.trashed || ! Device.visibleTo s.db actor device
          deviceGroups := knownFolders s.db actor
          deviceGroupUser := s.db.deviceGroupUser.filter fun row => row.2 = actor.id
          deviceGroupUserGroup := s.db.deviceGroupUserGroup.filter fun row =>
            row.2 ∈ User.userGroupIds s.db actor.id
          groupAccesses := grants s.db actor }
      profile := fun id => if (devices s.db actor).any (·.id = id) then s.profile id else {}
      note := fun id => if id ∈ User.visibleUserIds s.db actor.id then s.note id else none }

/-- Cutting away what a filter drops does not change what it keeps. -/
theorem filter_of_kept {α : Type} {p q : α → Bool} {l : List α}
    (kept : ∀ x ∈ l, p x = true → q x = true) : (l.filter q).filter p = l.filter p := by
  rw [List.filter_filter]
  refine List.filter_congr fun x listed => ?_
  cases here : p x with
  | false => rfl
  | true => exact kept x listed here

/-- Nor does rewriting it. -/
theorem filter_map_of_kept {α : Type} {p : α → Bool} {f : α → α} {l : List α}
    (kept : ∀ x ∈ l, p x = true → f x = x) (dropped : ∀ x ∈ l, p x = false → p (f x) = false) :
    (l.map f).filter p = l.filter p := by
  induction l with
  | nil => rfl
  | cons x l ih =>
      have rest := ih (fun y listed => kept y (.tail _ listed))
        fun y listed => dropped y (.tail _ listed)
      rw [List.map_cons, List.filter_cons, List.filter_cons, rest]
      cases here : p x with
      | false => rw [dropped x (.head _) here]; rfl
      | true => rw [kept x (.head _) here, here]

section Cut
variable {s : State} {actor : User}

theorem userGroupIds_reach (delegate : actor.isAdmin = false) :
    User.userGroupIds (reach s actor).db actor.id = User.userGroupIds s.db actor.id := by
  simp only [reach, delegate, Bool.false_eq_true, if_false, User.userGroupIds]
  rw [filter_of_kept]
  intro row listed mine
  refine decide_eq_true (List.mem_append_left _ (User.mem_userGroupIds.mpr ?_))
  rw [← of_decide_eq_true mine]
  exact listed

theorem groupAccessTargetIds_reach (delegate : actor.isAdmin = false) (type : SubjectType) :
    User.groupAccessTargetIds (reach s actor).db type actor.id =
      User.groupAccessTargetIds s.db type actor.id := by
  rw [User.groupAccessTargetIds, userGroupIds_reach delegate, User.groupAccessTargetIds]
  simp only [reach, delegate, Bool.false_eq_true, if_false]
  rw [grants, filter_of_kept]
  intro access _ mine
  exact (Bool.and_eq_true _ _ ▸ mine).2

theorem accessibleDeviceGroupIds_reach (delegate : actor.isAdmin = false) :
    User.accessibleDeviceGroupIds (reach s actor).db actor.id =
      User.accessibleDeviceGroupIds s.db actor.id := by
  rw [User.accessibleDeviceGroupIds, groupAccessTargetIds_reach delegate, userGroupIds_reach delegate,
    User.accessibleDeviceGroupIds, User.deviceGroupIds, User.deviceGroupIds]
  simp only [reach, delegate, Bool.false_eq_true, if_false, List.filter_filter, Bool.and_self]

theorem visibleUserIds_reach (delegate : actor.isAdmin = false) :
    User.visibleUserIds (reach s actor).db actor.id = User.visibleUserIds s.db actor.id := by
  rw [User.visibleUserIds, groupAccessTargetIds_reach delegate, userGroupIds_reach delegate,
    User.visibleUserIds]
  simp only [reach, delegate, Bool.false_eq_true, if_false]
  rw [filter_of_kept]
  intro row _ mate
  exact decide_eq_true (List.mem_eraseDups.mp (of_decide_eq_true mate))

theorem visibleTo_reach (delegate : actor.isAdmin = false) (device : Device) :
    Device.visibleTo (reach s actor).db actor device = Device.visibleTo s.db actor device := by
  rw [Device.visibleTo, Device.ownershipVisibleTo, accessibleDeviceGroupIds_reach delegate,
    Device.visibleTo, Device.ownershipVisibleTo]

theorem devices_reach (delegate : actor.isAdmin = false) :
    devices (reach s actor).db actor = devices s.db actor := by
  simp only [devices, visibleTo_reach delegate]
  simp only [reach, delegate, Bool.false_eq_true, if_false, Table.delete]
  rw [filter_of_kept]
  intro device _ seen
  simpa only [Bool.not_or, Bool.not_not] using seen

theorem folders_reach (delegate : actor.isAdmin = false) :
    folders (reach s actor).db actor = folders s.db actor := by
  simp only [folders, accessibleDeviceGroupIds_reach delegate, delegate, Bool.false_or]
  simp only [reach, delegate, Bool.false_eq_true, if_false, knownFolders, Table.update, Table.delete]
  rw [filter_map_of_kept, filter_of_kept]
  · intro folder _ granted
    rw [granted]
    rfl
  · intro folder _ granted
    rw [if_neg]
    simpa using granted
  · intro folder _ hidden
    split
    · exact hidden
    · exact hidden

theorem accounts_reach (delegate : actor.isAdmin = false) (activeOnly : Bool) :
    accounts (reach s actor).db actor activeOnly = accounts s.db actor activeOnly := by
  simp only [accounts, visibleUserIds_reach delegate, delegate, Bool.false_or]
  simp only [reach, delegate, Bool.false_eq_true, if_false, knownUsers, Table.update, Table.delete]
  rw [filter_map_of_kept, filter_of_kept]
  · intro user _ shown
    obtain ⟨mate, -⟩ := (Bool.and_eq_true _ _).mp shown
    rw [mate]
    rfl
  · intro user _ shown
    obtain ⟨mate, -⟩ := (Bool.and_eq_true _ _).mp shown
    rw [if_neg]
    simpa using mate
  · intro user _ hidden
    split
    · next stranger =>
      simp only [decide_eq_true_eq] at stranger
      simp only [stranger, decide_false, Bool.false_and]
    · exact hidden

/-- The owner of one of its devices keeps the name. -/
theorem username_known {id : Nat} (owns : ∃ device ∈ devices s.db actor, device.userId = some id) :
    ((knownUsers s.db actor).find? id).map User.username = (s.db.users.find? id).map User.username := by
  rw [knownUsers, Table.find?_update, Table.find?_delete]
  cases found : s.db.users.find? id with
  | none => rfl
  | some user =>
      obtain rfl : user.id = id := (Table.find?_eq_some_iff _ |>.mp found).2
      have kept : ((devices s.db actor).any fun device => device.userId = some user.id) = true := by
        simpa using owns
      simp only [Option.filter, kept, Bool.or_true, Bool.not_true, Bool.not_false, if_true,
        Option.map_some]
      split <;> rfl

theorem userPayload_reach (delegate : actor.isAdmin = false) {activeOnly : Bool} {user : User}
    (seen : user ∈ accounts s.db actor activeOnly) :
    userPayload (reach s actor) user = userPayload s user := by
  have mate : user.id ∈ User.visibleUserIds s.db actor.id := by
    have shown := List.of_mem_filter seen
    rw [Bool.and_eq_true, delegate, Bool.false_or] at shown
    exact of_decide_eq_true shown.1
  have note : (reach s actor).note user.id = s.note user.id := by
    simp only [reach, delegate, Bool.false_eq_true, if_false]
    exact if_pos mate
  simp only [userPayload, note]

theorem folder_known {id : Nat}
    (holds : ∃ device ∈ devices s.db actor, device.deviceGroupId = some id) :
    ((knownFolders s.db actor).find? id).map DeviceGroup.name =
      (s.db.deviceGroups.find? id).map DeviceGroup.name := by
  rw [knownFolders, Table.find?_update, Table.find?_delete]
  cases found : s.db.deviceGroups.find? id with
  | none => rfl
  | some folder =>
      obtain rfl : folder.id = id := (Table.find?_eq_some_iff _ |>.mp found).2
      have kept : ((devices s.db actor).any fun device =>
          device.deviceGroupId = some folder.id) = true := by
        simpa using holds
      simp only [Option.filter, kept, Bool.or_true, Bool.not_true, Bool.not_false, if_true,
        Option.map_some]
      split <;> rfl

theorem peerPayload_reach (delegate : actor.isAdmin = false) {device : Device}
    (seen : device ∈ devices s.db actor) (onlineWindow : Int) (now : Instant) :
    peerPayload (reach s actor) onlineWindow now device = peerPayload s onlineWindow now device := by
  have profile : (reach s actor).profile device.id = s.profile device.id := by
    simp only [reach, delegate, Bool.false_eq_true, if_false]
    exact if_pos (List.any_eq_true.mpr ⟨device, seen, decide_eq_true rfl⟩)
  have owner : (device.userId.bind (reach s actor).db.users.find?).map User.username =
      (device.userId.bind s.db.users.find?).map User.username := by
    simp only [reach, delegate, Bool.false_eq_true, if_false]
    cases owned : device.userId with
    | none => rfl
    | some id => exact username_known ⟨device, seen, owned⟩
  have folder : (device.deviceGroupId.bind (reach s actor).db.deviceGroups.find?).map DeviceGroup.name =
      (device.deviceGroupId.bind s.db.deviceGroups.find?).map DeviceGroup.name := by
    simp only [reach, delegate, Bool.false_eq_true, if_false]
    cases filed : device.deviceGroupId with
    | none => rfl
    | some id => exact folder_known ⟨device, seen, filed⟩
  simp only [peerPayload, profile, owner, folder]

end Cut

/-- A listing tells of its rows alone. -/
theorem map_listing_congr {α β : Type} {le : α → α → Bool} {arrange : Arrangement le} {rows : List α}
    {r : Request} {f g : α → β} (same : ∀ row ∈ rows, f row = g row) :
    (listing arrange rows r).map f = (listing arrange rows r).map g := by
  refine congrArg (Listing.mk rows.length) (List.map_congr_left fun row shown => same row ?_)
  exact arrange.mem.mp (Paging.mem_of_mem_window shown)

/-- The tab answers from the reach of the account as it does from all the tables: no folder, account,
device, membership or grant beyond it shows in any of the three listings, their totals included. -/
theorem hidden_rows_not_told {collate : String → String → Bool} (s : State) (actor : User) (r : Request)
    (byFolder : OrderBy collate DeviceGroup.name) (byAccount : OrderBy collate User.username)
    (byDevice : OrderBy collate Device.rustdeskId) (onlineWindow : Int) (now : Nat → Instant) :
    deviceGroups (reach s actor) actor r byFolder = deviceGroups s actor r byFolder ∧
      users (reach s actor) actor r byAccount = users s actor r byAccount ∧
      peers (reach s actor) actor r byDevice onlineWindow now =
        peers s actor r byDevice onlineWindow now := by
  cases rights : actor.isAdmin with
  | true =>
      have whole : reach s actor = s := by rw [reach, if_pos rights]
      rw [whole]
      exact ⟨rfl, rfl, rfl⟩
  | false =>
      refine ⟨?_, ?_, ?_⟩
      · rw [deviceGroups, folders_reach rights, deviceGroups]
      · rw [users, users]
        split
        · rfl
        · rw [accounts_reach rights]
          exact congrArg some (map_listing_congr fun user seen => userPayload_reach rights seen)
      · rw [peers, devices_reach rights, peers]
        exact map_listing_congr fun device seen => peerPayload_reach rights seen _ _

end GroupTab
end CortenDesk
