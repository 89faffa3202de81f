import CortenDesk.AdminApi.Endpoints
import CortenDesk.Api.Enrollment
import CortenDesk.Console.DeviceList
import CortenDesk.Console.GroupList
import CortenDesk.Console.StrategyList
import CortenDesk.Lib.Runs
import CortenDesk.Strategy.Consistency

/-!
The cached resolution over runs of operations: whatever completes leaves it fresh. An
operation is a call of a console screen, a request to the automation API, an `--assign`,
an import, or the assignment itself; a new process starts without the memo.
-/
namespace CortenDesk

inductive Operation
  | strategies (actorId : Nat) (call : StrategyList.Call)
  | devices (actorId : Nat) (call : DeviceList.Call)
  | users (actorId : Nat) (call : UserList.Call)
  | groups (actorId : Nat) (call : GroupList.Call)
  | api (ownerId : Nat) (request : AdminApi.Request)
  | cliAssign (token : ApiToken) (request : DeviceCliController.Request)
  | importLejianwen (wipe : Bool) (source : ImportLejianwen.Source)
  | assignTo (level : StrategyLevel) (targetId : Nat) (strategyId : Option Nat)
  | newProcess

/-- The targets that the foreign keys of the pivots let an assignment name. -/
def Database.hasTarget (db : Database) : StrategyLevel → Nat → Bool
  | .device, id => (db.devices.find? id).isSome
  | .user, id => (db.users.find? id).isSome
  | .deviceGroup, id => (db.deviceGroups.find? id).isSome

/-- The state after an operation that completes. -/
def Operation.perform (isEmail : String → Bool) (nulls : Bool) (s : System) :
    Operation → Option System
  | .strategies actorId call =>
      (s.db.users.find? actorId).bind fun actor => StrategyList.perform s actor call
  | .devices actorId call =>
      (s.db.users.find? actorId).bind fun actor => DeviceList.perform s actor call
  | .users actorId call =>
      (s.db.users.find? actorId).bind fun actor => UserList.perform isEmail nulls s actor call
  | .groups actorId call =>
      (s.db.users.find? actorId).bind fun actor => GroupList.perform nulls s actor call
  | .api ownerId request =>
      (s.db.users.find? ownerId).bind fun owner => AdminApi.handle nulls s owner request
  | .cliAssign token request => DeviceCliController.assign s token request
  | .importLejianwen wipe source => some (ImportLejianwen.handle s wipe source)
  | .assignTo level targetId strategyId =>
      if s.db.hasTarget level targetId && strategyId.all fun id => (s.db.strategies.find? id).isSome
      then some (Strategy.assignTo s level targetId strategyId)
      else none
  | .newProcess => some (Strategy.flushCache s)

namespace Freshness
open Strategy

/-- A write of the accounts, the groups and the grants, which no resolution reads. -/
structure Unrouted (db db' : Database) : Prop where
  devices : db'.devices = db.devices
  routing : SameRouting db db'

theorem Unrouted.refl (db : Database) : Unrouted db db := ⟨rfl, rfl, fun _ => rfl⟩

theorem Unrouted.trans {a b c : Database} (h : Unrouted a b) (h' : Unrouted b c) :
    Unrouted a c :=
  ⟨h'.devices.trans h.devices, h'.routing.strategies.trans h.routing.strategies,
    fun level => (h'.routing.pivots level).trans (h.routing.pivots level)⟩

theorem Unrouted.consistent {s : System} (h : Consistent s) {db : Database}
    (unrouted : Unrouted s.db db) : Consistent { s with db } := by
  refine consistent_of_rows h unrouted.routing rfl fun device hd => ?_
  rw [unrouted.devices] at hd
  exact ⟨device, hd, rfl, rfl, rfl, rfl⟩

theorem foldl_consistent {α : Type} {f : System → α → System}
    (each : ∀ s a, Consistent s → Consistent (f s a)) (l : List α) {s : System}
    (h : Consistent s) : Consistent (l.foldl f s) := by
  induction l generalizing s with
  | nil => exact h
  | cons a l ih => exact ih (each s a h)

theorem syncLevel_consistent {s : System} (h : Consistent s) (strategyId : Nat)
    (level : StrategyLevel) (current desired : List Nat) :
    Consistent (StrategyList.syncLevel s strategyId level current desired) := by
  apply foldl_consistent fun s id h => assignTo_consistent h level id none
  exact foldl_consistent (fun s id h => assignTo_consistent h level id (some strategyId)) _ h

theorem mem_findStrategy {db : Database} {id : Nat} {strategy : Strategy}
    (found : StrategyList.findStrategy db id = some strategy) :
    strategy ∈ db.strategies.rows :=
  (db.strategies.find?_eq_some_iff.mp (Option.filter_eq_some_iff.mp found).1).1

theorem strategies_consistent {s s' : System} (h : Consistent s) {actor : User}
    {call : StrategyList.Call} (done : StrategyList.perform s actor call = some s') :
    Consistent s' := by
  cases call with
  | save editingId form =>
      simp only [StrategyList.perform, StrategyList.save] at done
      split at done
      · cases done
      · split at done
        · obtain rfl := Option.some.inj done
          exact h
        · split at done
          · cases done
          · split at done
            · obtain rfl := Option.some.inj done
              exact create_consistent h _
            · obtain ⟨strategy, found, rfl⟩ := Option.map_eq_some_iff.mp done
              exact update_consistent h (mem_findStrategy found) fun _ => rfl
  | toggleEnabled id =>
      simp only [StrategyList.perform, StrategyList.toggleEnabled] at done
      split at done
      · cases done
      · obtain ⟨strategy, found, rfl⟩ := Option.map_eq_some_iff.mp done
        exact update_consistent h (mem_findStrategy found) fun _ => rfl
  | deleteStrategy id deletedAt =>
      simp only [StrategyList.perform, StrategyList.deleteStrategy] at done
      split at done
      · cases done
      · split at done
        · cases done
        · split at done
          · cases done
          · obtain rfl := Option.some.inj done
            exact delete_consistent h _ deletedAt
  | restoreRevision id snapshot =>
      simp only [StrategyList.perform, StrategyList.restoreRevision] at done
      split at done
      · cases done
      · obtain ⟨strategy, found, rfl⟩ := Option.map_eq_some_iff.mp done
        exact update_consistent h (mem_findStrategy found) fun _ => rfl
  | saveAssign id deviceIds userIds groupIds =>
      simp only [StrategyList.perform, StrategyList.saveAssign] at done
      split at done
      · cases done
      · split at done
        · cases done
        · split at done
          · cases done
          · obtain rfl := Option.some.inj done
            apply syncLevel_consistent
            apply syncLevel_consistent
            exact syncLevel_consistent h id _ _ _

theorem mem_scopedDevice {db : Database} {actor : User} {id : Nat} {device : Device}
    (found : DeviceList.scopedDevice db actor id = some device) : device ∈ db.devices.rows :=
  (db.devices.find?_eq_some_iff.mp (Option.filter_eq_some_iff.mp found).1).1

theorem mem_scopedPendingDevice {db : Database} {actor : User} {id : Nat} {device : Device}
    (found : DeviceList.scopedPendingDevice db actor id = some device) :
    device ∈ db.devices.rows :=
  (db.devices.find?_eq_some_iff.mp (Option.filter_eq_some_iff.mp found).1).1

/-- A move visits rows it loaded before; the rows still to come are as they were. -/
theorem foldl_moveToGroup_consistent (targetId : Option Nat) (devices : List Device) {s : System}
    (h : Consistent s) (distinct : (devices.map Device.id).Nodup)
    (loaded : ∀ device ∈ devices, device ∈ s.db.devices.rows) :
    Consistent (devices.foldl (DeviceList.moveToGroup targetId) s) := by
  induction devices generalizing s with
  | nil => exact h
  | cons device devices ih =>
      obtain ⟨apart, distinct⟩ := List.nodup_cons.mp distinct
      have mem := loaded device List.mem_cons_self
      rw [List.foldl_cons]
      simp only [DeviceList.moveToGroup]
      split
      · exact ih h distinct fun row hr => loaded row (List.mem_cons_of_mem _ hr)
      · refine ih (Device.update_consistent h mem fun _ => rfl) distinct fun row hr => ?_
        have other : row.id ≠ device.id := fun same => apart (same ▸ List.mem_map_of_mem hr)
        exact Device.mem_update_of_ne h.routable mem (loaded row (List.mem_cons_of_mem _ hr)) other
          fun _ => rfl

theorem saveStrategyAssignment_consistent {s : System} (h : Consistent s) (actor : User)
    (device : Device) (strategyId : Nat) :
    Consistent (DeviceList.saveStrategyAssignment s actor device strategyId) := by
  simp only [DeviceList.saveStrategyAssignment]
  repeat' split
  · exact h
  · exact h
  · exact h
  · exact assignTo_consistent h _ _ _

theorem devices_consistent {s s' : System} (h : Consistent s) {actor : User}
    {call : DeviceList.Call} (done : DeviceList.perform s actor call = some s') :
    Consistent s' := by
  cases call with
  | save editingId form =>
      simp only [DeviceList.perform, DeviceList.save] at done
      split at done
      · cases done
      · split at done
        · split at done
          · cases done
          · obtain rfl := Option.some.inj done
            exact Device.create_consistent h _
        · obtain ⟨device, found, rfl⟩ := Option.map_eq_some_iff.mp done
          apply saveStrategyAssignment_consistent
          exact Device.update_consistent h (mem_scopedDevice found) fun _ => rfl
  | deleteDevice id =>
      simp only [DeviceList.perform, DeviceList.deleteDevice] at done
      split at done
      · cases done
      · obtain ⟨device, _, rfl⟩ := Option.map_eq_some_iff.mp done
        exact Device.delete_consistent h device
  | restoreDevice id =>
      simp only [DeviceList.perform, DeviceList.restoreDevice] at done
      split at done
      · cases done
      · obtain ⟨device, _, rfl⟩ := Option.map_eq_some_iff.mp done
        exact Device.restore_consistent h device
  | forceDeleteDevice id =>
      simp only [DeviceList.perform, DeviceList.forceDeleteDevice] at done
      split at done
      · cases done
      · obtain ⟨device, _, rfl⟩ := Option.map_eq_some_iff.mp done
        exact Device.forceDelete_consistent h device
  | approveDevice id =>
      simp only [DeviceList.perform, DeviceList.approveDevice] at done
      split at done
      · cases done
      · obtain ⟨device, found, rfl⟩ := Option.map_eq_some_iff.mp done
        exact Device.update_consistent h (mem_scopedPendingDevice found) fun _ => rfl
  | rejectDevice id =>
      simp only [DeviceList.perform, DeviceList.rejectDevice] at done
      split at done
      · cases done
      · obtain ⟨device, _, rfl⟩ := Option.map_eq_some_iff.mp done
        exact Device.delete_consistent h device
  | bulkDelete selected =>
      simp only [DeviceList.perform, DeviceList.bulkDelete] at done
      split at done
      · cases done
      · obtain rfl := Option.some.inj done
        exact foldl_consistent (fun _ device h => Device.delete_consistent h device) _ h
  | moveSelectedToGroup view selected groupId =>
      simp only [DeviceList.perform, DeviceList.moveSelectedToGroup] at done
      repeat' split at done
      · cases done
      · obtain rfl := Option.some.inj done
        exact h
      · obtain rfl := Option.some.inj done
        exact h
      · obtain rfl := Option.some.inj done
        exact h
      · obtain rfl := Option.some.inj done
        refine foldl_moveToGroup_consistent _ _ h ?_ fun device hd => List.mem_of_mem_filter hd
        exact s.db.devices.nodup.sublist (List.filter_sublist.map Device.id)

theorem unrouted_revokeAllAccess (db : Database) (id : Nat) (token : String) :
    Unrouted db (UserList.revokeAllAccess db id token) :=
  ⟨rfl, rfl, fun level => by cases level <;> rfl⟩

theorem unrouted_setActive (db : Database) (id : Nat) (isActive : Bool) :
    Unrouted db (UserList.setActive db id isActive) :=
  ⟨rfl, rfl, fun level => by cases level <;> rfl⟩

theorem users_consistent {isEmail : String → Bool} {nulls : Bool} {s s' : System}
    (h : Consistent s) {actor : User} {call : UserList.Call}
    (done : UserList.perform isEmail nulls s actor call = some s') : Consistent s' := by
  cases call with
  | save editing form =>
      simp only [UserList.perform, UserList.save] at done
      split at done
      · cases done
      · split at done
        · cases done
        · obtain rfl := Option.some.inj done
          exact Unrouted.consistent h ⟨rfl, rfl, fun level => by cases level <;> rfl⟩
  | saveAssign userId deviceIds =>
      simp only [UserList.perform, UserList.saveAssign] at done
      repeat' split at done
      · cases done
      · cases done
      · cases done
      · obtain rfl := Option.some.inj done
        apply recomputeAll_consistent
        apply Device.updateWhere_settled
        · exact Device.updateWhere_settled h.settled fun _ => rfl
        · exact fun _ => rfl
  | toggleActive id token =>
      simp only [UserList.perform, UserList.toggleActive] at done
      repeat' split at done
      · cases done
      · obtain rfl := Option.some.inj done
        exact h
      · cases done
      · cases done
      · obtain rfl := Option.some.inj done
        exact Unrouted.consistent h
          ((unrouted_setActive s.db id false).trans (unrouted_revokeAllAccess _ id token))
      · obtain rfl := Option.some.inj done
        exact Unrouted.consistent h (unrouted_setActive s.db id true)
  | forceLogout id token =>
      simp only [UserList.perform, UserList.forceLogout] at done
      repeat' split at done
      · cases done
      · obtain rfl := Option.some.inj done
        exact h
      · cases done
      · cases done
      · obtain rfl := Option.some.inj done
        exact Unrouted.consistent h (unrouted_revokeAllAccess s.db id token)
  | deleteUser id =>
      simp only [UserList.perform, UserList.deleteUser] at done
      repeat' split at done
      · cases done
      · obtain rfl := Option.some.inj done
        exact h
      · cases done
      · cases done
      · obtain rfl := Option.some.inj done
        exact User.delete_consistent (User.releaseDevices_settled h.settled id) nulls id

theorem unrouted_saveUserGroup {db db' : Database} {actor : User} {editing : Nat}
    {form : GroupList.Form} (saved : GroupList.saveUserGroup db actor editing form = some db') :
    Unrouted db db' := by
  obtain ⟨⟨written, id⟩, write, rfl⟩ := Option.map_eq_some_iff.mp saved
  simp only [GroupList.writeUserGroup] at write
  repeat' split at write
  · cases write
    exact ⟨rfl, rfl, fun level => by cases level <;> rfl⟩
  · cases write
  · cases write
    exact ⟨rfl, rfl, fun level => by cases level <;> rfl⟩

theorem unrouted_saveDeviceGroup {db db' : Database} {actor : User} {editing : Nat}
    {form : GroupList.Form} (saved : GroupList.saveDeviceGroup db actor editing form = some db') :
    Unrouted db db' := by
  obtain ⟨⟨written, id⟩, write, rfl⟩ := Option.map_eq_some_iff.mp saved
  simp only [GroupList.writeDeviceGroup] at write
  repeat' split at write
  · cases write
    exact ⟨rfl, rfl, fun level => by cases level <;> rfl⟩
  · cases write
  · cases write
    exact ⟨rfl, rfl, fun level => by cases level <;> rfl⟩

theorem groups_consistent {nulls : Bool} {s s' : System} (h : Consistent s) {actor : User}
    {call : GroupList.Call} (done : GroupList.perform nulls s actor call = some s') :
    Consistent s' := by
  cases call with
  | save type editing form =>
      simp only [GroupList.perform, GroupList.save] at done
      split at done
      · cases done
      · obtain ⟨db, saved, rfl⟩ := Option.map_eq_some_iff.mp done
        cases type with
        | users => exact Unrouted.consistent h (unrouted_saveUserGroup saved)
        | devices => exact Unrouted.consistent h (unrouted_saveDeviceGroup saved)
  | deleteGroup type id =>
      simp only [GroupList.perform, GroupList.deleteGroup] at done
      repeat' split at done
      · cases done
      · cases done
      · obtain rfl := Option.some.inj done
        have released := DeviceGroup.releaseDevices_settled h.settled id
        have purged : Settled (GroupList.purge (DeviceGroup.releaseDevices s id) .deviceGroup id) :=
          ⟨released.routable.written rfl rfl released.routable.nonzero, released.oneDefault⟩
        exact DeviceGroup.delete_consistent purged nulls id
      · cases done
      · obtain rfl := Option.some.inj done
        exact Unrouted.consistent h ⟨rfl, rfl, fun level => by cases level <;> rfl⟩

theorem mem_bind {db : Database} {id : Nat} {device : Device}
    (found : AdminApi.DevicesController.bind db id = some device) : device ∈ db.devices.rows :=
  (db.devices.find?_eq_some_iff.mp (Option.filter_eq_some_iff.mp found).1).1

theorem mem_resolveDevice {db : Database} {reference : AdminApi.Reference} {device : Device}
    (found : AdminApi.DeviceGroupsController.resolveDevice db reference = some device) :
    device ∈ db.devices.rows := by
  cases reference with
  | absent => cases found
  | cleared => cases found
  | byId id => exact mem_bind found
  | byName text => exact List.mem_of_find?_eq_some found

theorem deviceEndpoints_consistent {s s' : System} (h : Consistent s) {device : Nat} :
    (AdminApi.DevicesController.enable s device = some s' → Consistent s') ∧
      (AdminApi.DevicesController.disable s device = some s' → Consistent s') ∧
      (AdminApi.DevicesController.destroy s device = some s' → Consistent s') := by
  refine ⟨fun done => ?_, fun done => ?_, fun done => ?_⟩
  · obtain ⟨row, _, rfl⟩ := Option.map_eq_some_iff.mp done
    split
    · exact Device.restore_consistent h row
    · exact h
  · obtain ⟨row, _, rfl⟩ := Option.map_eq_some_iff.mp done
    exact Device.delete_consistent h row
  · obtain ⟨row, _, rfl⟩ := Option.map_eq_some_iff.mp done
    exact Device.forceDelete_consistent h row

theorem assignDevice_consistent {s s' : System} (h : Consistent s) {device : Nat}
    {user deviceGroup : AdminApi.Reference}
    (done : AdminApi.DevicesController.assign s device user deviceGroup = some s') :
    Consistent s' := by
  simp only [AdminApi.DevicesController.assign, Option.bind_eq_bind,
    Option.bind_eq_some_iff] at done
  obtain ⟨row, found, userId, _, deviceGroupId, _, done⟩ := done
  split at done
  · cases done
  · obtain rfl := Option.some.inj done
    exact Device.update_consistent h (mem_bind found) fun _ => rfl

theorem deviceGroupMember_consistent {s s' : System} (h : Consistent s) {group : Nat}
    {device : AdminApi.Reference} :
    (AdminApi.DeviceGroupsController.addMember s group device = some s' → Consistent s') ∧
      (AdminApi.DeviceGroupsController.removeMember s group device = some s' →
        Consistent s') := by
  refine ⟨fun done => ?_, fun done => ?_⟩
  · simp only [AdminApi.DeviceGroupsController.addMember, Option.bind_eq_bind,
      Option.bind_eq_some_iff] at done
    obtain ⟨_, _, row, found, done⟩ := done
    obtain rfl := Option.some.inj done
    exact Device.update_consistent h (mem_resolveDevice found) fun _ => rfl
  · simp only [AdminApi.DeviceGroupsController.removeMember, Option.bind_eq_bind,
      Option.bind_eq_some_iff] at done
    obtain ⟨_, _, row, found, done⟩ := done
    obtain rfl := Option.some.inj done
    split
    · exact Device.update_consistent h (mem_resolveDevice found) fun _ => rfl
    · exact h

/-- A request that writes neither devices nor strategies nor assignments. -/
theorem consistent_of_unrouted {s s' : System} (h : Consistent s)
    (memo : s'.anyEnabledCache = s.anyEnabledCache) (unrouted : Unrouted s.db s'.db) :
    Consistent s' := by
  have same : s' = { s with db := s'.db } := by
    rw [← memo]
  rw [same]
  exact Unrouted.consistent h unrouted

theorem userGroupMember_consistent {s s' : System} (h : Consistent s) {group : Nat}
    {user : AdminApi.Reference} :
    (AdminApi.UserGroupsController.addMember s group user = some s' → Consistent s') ∧
      (AdminApi.UserGroupsController.removeMember s group user = some s' → Consistent s') := by
  refine ⟨fun done => ?_, fun done => ?_⟩
  · simp only [AdminApi.UserGroupsController.addMember, Option.bind_eq_bind,
      Option.bind_eq_some_iff] at done
    obtain ⟨_, _, row, _, done⟩ := done
    obtain rfl := Option.some.inj done
    exact consistent_of_unrouted h rfl ⟨rfl, rfl, fun level => by cases level <;> rfl⟩
  · simp only [AdminApi.UserGroupsController.removeMember, Option.bind_eq_bind,
      Option.bind_eq_some_iff] at done
    obtain ⟨_, _, row, _, done⟩ := done
    obtain rfl := Option.some.inj done
    exact consistent_of_unrouted h rfl ⟨rfl, rfl, fun level => by cases level <;> rfl⟩

theorem api_consistent {nulls : Bool} {s s' : System} (h : Consistent s) {owner : User}
    {request : AdminApi.Request} (done : AdminApi.handle nulls s owner request = some s') :
    Consistent s' := by
  cases request with
  | enableDevice device => exact (deviceEndpoints_consistent h).1 done
  | disableDevice device => exact (deviceEndpoints_consistent h).2.1 done
  | destroyDevice device => exact (deviceEndpoints_consistent h).2.2 done
  | assignDevice device user deviceGroup => exact assignDevice_consistent h done
  | addUserGroupMember group user => exact (userGroupMember_consistent h).1 done
  | removeUserGroupMember group user => exact (userGroupMember_consistent h).2 done
  | destroyUserGroup group =>
      obtain ⟨_, _, rfl⟩ := Option.map_eq_some_iff.mp done
      exact consistent_of_unrouted h rfl ⟨rfl, rfl, fun level => by cases level <;> rfl⟩
  | addDeviceGroupMember group device => exact (deviceGroupMember_consistent h).1 done
  | removeDeviceGroupMember group device => exact (deviceGroupMember_consistent h).2 done
  | destroyDeviceGroup group =>
      obtain ⟨_, _, rfl⟩ := Option.map_eq_some_iff.mp done
      exact DeviceGroup.delete_consistent (DeviceGroup.releaseDevices_settled h.settled group)
        nulls group
  | enableUser user =>
      obtain ⟨_, _, rfl⟩ := Option.map_eq_some_iff.mp done
      exact Unrouted.consistent h (unrouted_setActive s.db user true)
  | disableUser user token =>
      simp only [AdminApi.handle, AdminApi.UsersController.disable] at done
      split at done
      · cases done
      · obtain ⟨_, _, rfl⟩ := Option.map_eq_some_iff.mp done
        exact Unrouted.consistent h
          ((unrouted_setActive s.db user false).trans (unrouted_revokeAllAccess _ user token))
  | forceLogoutUser user token =>
      obtain ⟨_, _, rfl⟩ := Option.map_eq_some_iff.mp done
      exact Unrouted.consistent h (unrouted_revokeAllAccess s.db user token)
  | destroyUser user =>
      simp only [AdminApi.handle, AdminApi.UsersController.destroy] at done
      split at done
      · cases done
      · obtain ⟨_, _, rfl⟩ := Option.map_eq_some_iff.mp done
        exact User.delete_consistent (User.releaseDevices_settled h.settled user) nulls user
  | storeRule book subjectType subjectId permission =>
      simp only [AdminApi.handle, AdminApi.AddressBooksController.storeRule] at done
      split at done
      · cases done
      · obtain rfl := Option.some.inj done
        exact consistent_of_unrouted h rfl ⟨rfl, rfl, fun level => by cases level <;> rfl⟩
  | updateRule book rule change =>
      simp only [AdminApi.handle, AdminApi.AddressBooksController.updateRule] at done
      split at done
      · cases done
      · obtain ⟨_, _, rfl⟩ := Option.map_eq_some_iff.mp done
        exact consistent_of_unrouted h rfl ⟨rfl, rfl, fun level => by cases level <;> rfl⟩
  | destroyRule book rule =>
      obtain ⟨_, _, rfl⟩ := Option.map_eq_some_iff.mp done
      exact consistent_of_unrouted h rfl ⟨rfl, rfl, fun level => by cases level <;> rfl⟩

theorem upsert_consistent {s s' : System} (h : Consistent s) {r : DeviceCliController.Request}
    {userId deviceGroupId : Option Nat} {id : Nat}
    (done : DeviceCliController.upsert s r userId deviceGroupId = some (s', id)) :
    Consistent s' := by
  simp only [DeviceCliController.upsert] at done
  split at done
  · next device found =>
    cases done
    exact Device.update_consistent h (List.mem_of_find?_eq_some found) fun _ => rfl
  · split at done
    · cases done
    · cases done
      exact Device.create_consistent h _

theorem cliAssign_consistent {s s' : System} (h : Consistent s) {token : ApiToken}
    {r : DeviceCliController.Request}
    (done : DeviceCliController.assign s token r = some s') : Consistent s' := by
  simp only [DeviceCliController.assign] at done
  repeat' split at done
  · cases done
  · cases done
  · cases done
  · simp only [Option.bind_eq_bind, Option.bind_eq_some_iff] at done
    obtain ⟨user, _, group, _, strategy, _, _, _, ⟨written, id⟩, upserted, done⟩ := done
    have consistent := upsert_consistent h upserted
    obtain rfl := Option.some.inj done
    split
    · exact assignTo_consistent consistent _ _ _
    · exact consistent

theorem wipeTargets_consistent {s : System} (h : Consistent s) :
    Consistent (ImportLejianwen.wipeTargets s) := by
  have none : ∀ device ∈ (s.db.devices.delete fun _ => true).rows, False := by
    intro device hd
    cases (Table.mem_delete.mp hd).2
  exact ⟨h.routable.written rfl rfl fun device hd => (none device hd).elim,
    fun device hd => (none device hd).elim, h.oneDefault⟩

theorem foldl_unrouted {α β : Type} {f : β → α → β} {d : β → Database}
    (each : ∀ state a, Unrouted (d state) (d (f state a))) (l : List α) (state : β) :
    Unrouted (d state) (d (l.foldl f state)) := by
  induction l generalizing state with
  | nil => exact Unrouted.refl _
  | cons a l ih => exact (each state a).trans (ih (f state a))

theorem unrouted_importUserGroup (state : Database × ImportLejianwen.IdMap)
    (row : ImportLejianwen.SourceGroup) :
    Unrouted state.1 (ImportLejianwen.importUserGroup state row).1 := by
  simp only [ImportLejianwen.importUserGroup]
  split <;> exact ⟨rfl, rfl, fun level => by cases level <;> rfl⟩

theorem unrouted_importDeviceGroup (state : Database × ImportLejianwen.IdMap)
    (row : ImportLejianwen.SourceGroup) :
    Unrouted state.1 (ImportLejianwen.importDeviceGroup state row).1 := by
  simp only [ImportLejianwen.importDeviceGroup]
  split <;> exact ⟨rfl, rfl, fun level => by cases level <;> rfl⟩

theorem unrouted_importUser (groupMap : ImportLejianwen.IdMap) (state : ImportLejianwen.Users)
    (row : ImportLejianwen.SourceUser) :
    Unrouted state.db (ImportLejianwen.importUser groupMap state row).db := by
  simp only [ImportLejianwen.importUser]
  split
  · exact Unrouted.refl _
  · exact ⟨rfl, rfl, fun level => by cases level <;> rfl⟩

theorem importPeer_consistent (userMap deviceGroupMap : ImportLejianwen.IdMap) {s : System}
    (h : Consistent s) (row : ImportLejianwen.SourcePeer) :
    Consistent (ImportLejianwen.importPeer userMap deviceGroupMap s row) := by
  simp only [ImportLejianwen.importPeer]
  split
  · exact h
  · split
    · next device found =>
      exact Device.update_consistent h (List.mem_of_find?_eq_some found) fun _ => rfl
    · exact Device.create_consistent h _

theorem import_consistent {s : System} (h : Consistent s) (wipe : Bool)
    (source : ImportLejianwen.Source) : Consistent (ImportLejianwen.handle s wipe source) := by
  have wiped : Consistent (if wipe then ImportLejianwen.wipeTargets s else s) := by
    split
    · exact wipeTargets_consistent h
    · exact h
  simp only [ImportLejianwen.handle]
  apply foldl_consistent fun s row h => importPeer_consistent _ _ h row
  apply Unrouted.consistent wiped
  refine Unrouted.trans ?_ (foldl_unrouted (unrouted_importUser _) source.users _)
  refine Unrouted.trans ?_ (foldl_unrouted unrouted_importDeviceGroup source.deviceGroups (_, []))
  exact foldl_unrouted unrouted_importUserGroup source.groups (_, [])

theorem perform_consistent {isEmail : String → Bool} {nulls : Bool} (s : System)
    (operation : Operation) (s' : System) (h : Consistent s)
    (done : operation.perform isEmail nulls s = some s') : Consistent s' := by
  cases operation with
  | strategies actorId call =>
      obtain ⟨actor, _, done⟩ := Option.bind_eq_some_iff.mp done
      exact strategies_consistent h done
  | devices actorId call =>
      obtain ⟨actor, _, done⟩ := Option.bind_eq_some_iff.mp done
      exact devices_consistent h done
  | users actorId call =>
      obtain ⟨actor, _, done⟩ := Option.bind_eq_some_iff.mp done
      exact users_consistent h done
  | groups actorId call =>
      obtain ⟨actor, _, done⟩ := Option.bind_eq_some_iff.mp done
      exact groups_consistent h done
  | api ownerId request =>
      obtain ⟨owner, _, done⟩ := Option.bind_eq_some_iff.mp done
      exact api_consistent h done
  | cliAssign token request => exact cliAssign_consistent h done
  | importLejianwen wipe source =>
      obtain rfl := Option.some.inj done
      exact import_consistent h wipe source
  | assignTo level targetId strategyId =>
      simp only [Operation.perform] at done
      split at done
      · obtain rfl := Option.some.inj done
        exact assignTo_consistent h level targetId strategyId
      · cases done
  | newProcess =>
      obtain rfl := Option.some.inj done
      exact flushCache_consistent h

def administered : Database where
  users := Table.empty.insert fun id => { id, username := "operator", isAdmin := true }

/-- A default is displaced, and a device is assigned and moved to the recycle bin. -/
def rollout : List Operation := [
  .strategies 1 (.save 0 { name := "Base", isDefault := true }),
  .devices 1 (.save 0 { rustdeskId := "123456789" }),
  .devices 1 (.save 0 { rustdeskId := "987654321" }),
  .assignTo .device 1 (some 1),
  .newProcess,
  .devices 1 (.deleteDevice 1),
  .strategies 1 (.save 0 { name := "Strict", isDefault := true })]

end Freshness
end CortenDesk
