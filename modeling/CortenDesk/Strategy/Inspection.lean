import CortenDesk.Strategy.Explain
import CortenDesk.Strategy.Freshness

/-!
The inspector over runs of operations: a target keeps one assignment at a level, since an
assignment replaces, and a deleted strategy stays disabled, since the screen no longer
finds it. Every other write leaves the strategies and at most removes assignments.
-/
namespace CortenDesk
namespace Inspection
open Strategy Freshness

/-- The strategies stay, and the assignments are among those before. -/
structure Narrows (db db' : Database) : Prop where
  strategies : db'.strategies = db.strategies
  pivots : ∀ level, (db'.pivot level).Sublist (db.pivot level)

theorem Narrows.refl (db : Database) : Narrows db db := ⟨rfl, fun _ => .refl _⟩

theorem Narrows.trans {a b c : Database} (h : Narrows a b) (h' : Narrows b c) : Narrows a c :=
  ⟨h'.strategies.trans h.strategies, fun level => (h'.pivots level).trans (h.pivots level)⟩

theorem Narrows.assignable {db db' : Database} (narrows : Narrows db db') (h : Assignable db) :
    Assignable db' where
  single level := (h.single level).sublist ((narrows.pivots level).map Prod.fst)
  deleted := narrows.strategies ▸ h.deleted

theorem narrows_of_routing {db db' : Database} (same : SameRouting db db') : Narrows db db' :=
  ⟨same.strategies, fun level => by rw [same.pivots level]⟩

theorem narrows_unrouted {db db' : Database} (h : Unrouted db db') : Narrows db db' :=
  narrows_of_routing h.routing

theorem narrows_withDevices (s : System) (devices : Table Device) :
    Narrows s.db (s.withDevices devices).db :=
  narrows_of_routing (Device.withDevices_sameRouting s devices)

theorem narrows_foldl {α : Type} {f : System → α → System}
    (each : ∀ s a, Narrows s.db (f s a).db) (l : List α) (s : System) :
    Narrows s.db (l.foldl f s).db := by
  induction l generalizing s with
  | nil => exact .refl _
  | cons a l ih => exact (each s a).trans (ih (f s a))

theorem narrows_syncResolvedFor (s : System) (device : Device) :
    Narrows s.db (syncResolvedFor s device).db := by
  obtain ⟨devices, same, _⟩ := recached_syncResolvedFor s device
  rw [same]
  exact ⟨rfl, fun level => by cases level <;> exact .refl _⟩

theorem narrows_recomputeQuery (s : System) (query : Device → Bool) :
    Narrows s.db (recomputeQuery s query).db :=
  narrows_foldl narrows_syncResolvedFor _ s

theorem Narrows.recomputeAll {db : Database} {s : System} (h : Narrows db s.db) :
    Narrows db (Strategy.recomputeAll s).db :=
  h.trans (narrows_recomputeQuery s _)

theorem narrows_deviceCreate (s : System) (attributes : Device.Attributes) :
    Narrows s.db (Device.create s attributes).db :=
  (narrows_withDevices s _).trans (narrows_syncResolvedFor _ _)

theorem narrows_deviceUpdate (s : System) (device : Device) (change : Device → Device)
    (keeps : ∀ row, Row.id (change row) = Row.id row) :
    Narrows s.db (Device.update s device change keeps).db := by
  simp only [Device.update]
  split
  · exact (narrows_withDevices s _).trans (narrows_syncResolvedFor _ _)
  · exact narrows_withDevices s _

theorem narrows_deviceForceDelete (s : System) (device : Device) :
    Narrows s.db (Device.forceDelete s device).db := by
  refine ⟨rfl, fun level => ?_⟩
  cases level with
  | device => exact List.filter_sublist
  | user => exact .refl _
  | deviceGroup => exact .refl _

theorem narrows_userDelete (nulls : Bool) (s : System) (id : Nat) :
    Narrows s.db (User.delete nulls s id).db := by
  refine Narrows.recomputeAll ⟨rfl, fun level => ?_⟩
  cases level with
  | device => exact .refl _
  | user => exact List.filter_sublist
  | deviceGroup => exact .refl _

theorem narrows_deviceGroupDelete (nulls : Bool) (s : System) (id : Nat) :
    Narrows s.db (DeviceGroup.delete nulls s id).db := by
  refine Narrows.recomputeAll ⟨rfl, fun level => ?_⟩
  cases level with
  | device => exact .refl _
  | user => exact .refl _
  | deviceGroup => exact List.filter_sublist

/-- An assignment replaces: the other targets' rows, and at most one row of the target. -/
theorem assignTo_assignable {s : System} (h : Assignable s.db) (level : StrategyLevel)
    (targetId : Nat) (strategyId : Option Nat) :
    Assignable (assignTo s level targetId strategyId).db := by
  rw [assignTo, attach_unassign, recomputeForLevel_eq]
  refine (narrows_recomputeQuery _ _).assignable ⟨fun level' => ?_, ?_⟩
  · simp only [setPivot_pivot]
    split
    · rw [List.map_append, List.nodup_append]
      refine ⟨(h.single level).sublist (List.filter_sublist.map Prod.fst), ?_, ?_⟩
      · cases strategyId <;> simp
      · intro a ha b hb
        obtain ⟨row, hr, rfl⟩ := List.mem_map.mp ha
        have other : row.1 ≠ targetId := by simpa using (List.mem_filter.mp hr).2
        cases strategyId with
        | none => cases hb
        | some id =>
            obtain rfl := List.mem_singleton.mp hb
            exact other
    · exact h.single level'
  · rw [(setPivot_strategies s.db level _).1]
    exact h.deleted

theorem recomputeAll_assignable {s : System} (h : Assignable s.db) :
    Assignable (recomputeAll s).db :=
  (narrows_recomputeQuery s _).assignable h

/-- A change of the strategies that keeps the deleted ones disabled. -/
theorem strategies_assignable {s : System} (h : Assignable s.db) (strategies : Table Strategy)
    (deleted : ∀ strategy ∈ strategies.rows, strategy.trashed → strategy.enabled = false) :
    Assignable { s with db.strategies := strategies }.db where
  single level := by
    have kept := h.single level
    cases level <;> exact kept
  deleted := deleted

theorem displaceDefault_assignable {s : System} (h : Assignable s.db) (id : Nat) :
    Assignable (displaceDefault s id).db := by
  refine strategies_assignable h _ fun strategy hs => ?_
  obtain ⟨before, hb, rfl⟩ := List.mem_map.mp hs
  split <;> exact h.deleted before hb

theorem saved_assignable {s : System} (h : Assignable s.db) (strategy : Strategy)
    (created changedEnabled changedDefault : Bool) :
    Assignable (saved s strategy created changedEnabled changedDefault).db := by
  have displaced : Assignable (if strategy.isDefault && (created || changedDefault) then
      displaceDefault (flushCache s) strategy.id else flushCache s).db := by
    split
    · exact displaceDefault_assignable (s := flushCache s) h strategy.id
    · exact h
  simp only [saved]
  split
  · exact recomputeAll_assignable displaced
  · exact displaced

theorem create_assignable {s : System} (h : Assignable s.db) (form : Strategy.Form) :
    Assignable (Strategy.create s form).db := by
  have inserted : Assignable { s with db.strategies := s.db.strategies.insert form.row }.db := by
    refine strategies_assignable h _ fun strategy hs trashed => ?_
    rcases Table.mem_insert.mp hs with old | rfl
    · exact h.deleted strategy old trashed
    · cases trashed
  exact saved_assignable inserted _ _ _ _

theorem update_assignable {s : System} (h : Assignable s.db) {strategy : Strategy}
    (mem : strategy ∈ s.db.strategies.rows) (live : strategy.trashed = false)
    {change : Strategy → Strategy} {keeps : ∀ row, Row.id (change row) = Row.id row}
    (trashed : ∀ row, (change row).trashed = row.trashed) :
    Assignable (Strategy.update s strategy change keeps).db := by
  have written : Assignable { s with
      db.strategies := s.db.strategies.update (fun row => decide (row.id = strategy.id)) change
        keeps }.db := by
    refine strategies_assignable h _ fun row hr deleted => ?_
    obtain ⟨before, hb, rfl⟩ := Table.mem_update.mp hr
    split at deleted
    · next own =>
      obtain rfl := s.db.strategies.eq_of_id_eq hb mem (of_decide_eq_true own)
      rw [trashed, live] at deleted
      cases deleted
    · next other =>
      rw [if_neg other]
      exact h.deleted before hb deleted
  exact saved_assignable written _ _ _ _

theorem delete_assignable {s : System} (h : Assignable s.db) (strategy : Strategy)
    (deletedAt : String) : Assignable (Strategy.delete s strategy deletedAt).db := by
  refine recomputeAll_assignable ⟨fun level => ?_, fun row hr deleted => ?_⟩
  · have kept : (((s.db.pivot level).filter fun row => row.2 ≠ strategy.id).map
        Prod.fst).Nodup := (h.single level).sublist (List.filter_sublist.map Prod.fst)
    cases level <;> exact kept
  · obtain ⟨before, hb, rfl⟩ := List.mem_map.mp hr
    split
    · rfl
    · next other =>
      rw [if_neg other] at deleted
      exact h.deleted before hb deleted

theorem foldl_assignable {α : Type} {f : System → α → System}
    (each : ∀ s a, Assignable s.db → Assignable (f s a).db) (l : List α) {s : System}
    (h : Assignable s.db) : Assignable (l.foldl f s).db := by
  induction l generalizing s with
  | nil => exact h
  | cons a l ih => exact ih (each s a h)

theorem syncLevel_assignable {s : System} (h : Assignable s.db) (strategyId : Nat)
    (level : StrategyLevel) (current desired : List Nat) :
    Assignable (StrategyList.syncLevel s strategyId level current desired).db := by
  apply foldl_assignable fun s id h => assignTo_assignable h level id none
  exact foldl_assignable (fun s id h => assignTo_assignable h level id (some strategyId)) _ h

theorem live_findStrategy {db : Database} {id : Nat} {strategy : Strategy}
    (found : StrategyList.findStrategy db id = some strategy) : strategy.trashed = false := by
  simpa using (Option.filter_eq_some_iff.mp found).2

theorem strategies_keep {s s' : System} (h : Assignable s.db) {actor : User}
    {call : StrategyList.Call} (done : StrategyList.perform s actor call = some s') :
    Assignable s'.db := by
  cases call with
  | save editingId form =>
      simp only [StrategyList.perform, StrategyList.save] at done
      repeat' split at done
      · cases done
      · obtain rfl := Option.some.inj done
        exact h
      · cases done
      · obtain rfl := Option.some.inj done
        exact create_assignable h _
      · obtain ⟨strategy, found, rfl⟩ := Option.map_eq_some_iff.mp done
        exact update_assignable h (mem_findStrategy found) (live_findStrategy found) fun _ => rfl
  | toggleEnabled id =>
      simp only [StrategyList.perform, StrategyList.toggleEnabled] at done
      split at done
      · cases done
      · obtain ⟨strategy, found, rfl⟩ := Option.map_eq_some_iff.mp done
        exact update_assignable h (mem_findStrategy found) (live_findStrategy found) fun _ => rfl
  | deleteStrategy id deletedAt =>
      simp only [StrategyList.perform, StrategyList.deleteStrategy] at done
      repeat' split at done
      · cases done
      · cases done
      · cases done
      · obtain rfl := Option.some.inj done
        exact delete_assignable h _ deletedAt
  | restoreRevision id snapshot =>
      simp only [StrategyList.perform, StrategyList.restoreRevision] at done
      split at done
      · cases done
      · obtain ⟨strategy, found, rfl⟩ := Option.map_eq_some_iff.mp done
        exact update_assignable h (mem_findStrategy found) (live_findStrategy found) fun _ => rfl
  | saveAssign id deviceIds userIds groupIds =>
      simp only [StrategyList.perform, StrategyList.saveAssign] at done
      repeat' split at done
      · cases done
      · cases done
      · cases done
      · obtain rfl := Option.some.inj done
        apply syncLevel_assignable
        apply syncLevel_assignable
        exact syncLevel_assignable h id _ _ _

theorem saveStrategyAssignment_assignable {s : System} (h : Assignable s.db) (actor : User)
    (device : Device) (strategyId : Nat) :
    Assignable (DeviceList.saveStrategyAssignment s actor device strategyId).db := by
  simp only [DeviceList.saveStrategyAssignment]
  repeat' split
  · exact h
  · exact h
  · exact h
  · exact assignTo_assignable h _ _ _

theorem narrows_moveToGroup (targetId : Option Nat) (s : System) (device : Device) :
    Narrows s.db (DeviceList.moveToGroup targetId s device).db := by
  simp only [DeviceList.moveToGroup]
  split
  · exact .refl _
  · exact narrows_deviceUpdate s device _ _

theorem devices_keep {s s' : System} (h : Assignable s.db) {actor : User}
    {call : DeviceList.Call} (done : DeviceList.perform s actor call = some s') :
    Assignable s'.db := by
  cases call with
  | save editingId form =>
      simp only [DeviceList.perform, DeviceList.save] at done
      repeat' split at done
      · cases done
      · cases done
      · obtain rfl := Option.some.inj done
        exact (narrows_deviceCreate s _).assignable h
      · obtain ⟨device, found, rfl⟩ := Option.map_eq_some_iff.mp done
        apply saveStrategyAssignment_assignable
        exact (narrows_deviceUpdate s device _ _).assignable h
  | deleteDevice id =>
      simp only [DeviceList.perform, DeviceList.deleteDevice] at done
      split at done
      · cases done
      · obtain ⟨device, _, rfl⟩ := Option.map_eq_some_iff.mp done
        exact (narrows_withDevices s _).assignable h
  | restoreDevice id =>
      simp only [DeviceList.perform, DeviceList.restoreDevice] at done
      split at done
      · cases done
      · obtain ⟨device, _, rfl⟩ := Option.map_eq_some_iff.mp done
        exact (narrows_withDevices s _).assignable h
  | forceDeleteDevice id =>
      simp only [DeviceList.perform, DeviceList.forceDeleteDevice] at done
      split at done
      · cases done
      · obtain ⟨device, _, rfl⟩ := Option.map_eq_some_iff.mp done
        exact (narrows_deviceForceDelete s device).assignable h
  | approveDevice id =>
      simp only [DeviceList.perform, DeviceList.approveDevice] at done
      split at done
      · cases done
      · obtain ⟨device, found, rfl⟩ := Option.map_eq_some_iff.mp done
        exact (narrows_deviceUpdate s device _ _).assignable h
  | rejectDevice id =>
      simp only [DeviceList.perform, DeviceList.rejectDevice] at done
      split at done
      · cases done
      · obtain ⟨device, _, rfl⟩ := Option.map_eq_some_iff.mp done
        exact (narrows_withDevices s _).assignable h
  | bulkDelete selected =>
      simp only [DeviceList.perform, DeviceList.bulkDelete] at done
      split at done
      · cases done
      · obtain rfl := Option.some.inj done
        exact (narrows_foldl (fun s device => narrows_withDevices s _) _ s).assignable h
  | moveSelectedToGroup view selected groupId =>
      simp only [DeviceList.perform, DeviceList.moveSelectedToGroup] at done
      repeat' split at done
      · cases done
      · obtain rfl := Option.some.inj done
        exact h
      · obtain rfl := Option.some.inj done
        exact h
      · obtain rfl := Option.some.inj done
        exact h
      · obtain rfl := Option.some.inj done
        exact (narrows_foldl (narrows_moveToGroup _) _ s).assignable h

theorem narrows_updateWhere (s : System) (query : Device → Bool) (change : Device → Device)
    (keeps : ∀ row, Row.id (change row) = Row.id row) :
    Narrows s.db (Device.updateWhere s query change keeps).db :=
  narrows_withDevices s _

theorem narrows_users {isEmail : String → Bool} {nulls : Bool} {s s' : System} {actor : User}
    {call : UserList.Call} (done : UserList.perform isEmail nulls s actor call = some s') :
    Narrows s.db s'.db := by
  cases call with
  | save editing form =>
      simp only [UserList.perform, UserList.save] at done
      split at done
      · cases done
      · split at done
        · cases done
        · obtain rfl := Option.some.inj done
          exact narrows_unrouted ⟨rfl, rfl, fun level => by cases level <;> rfl⟩
  | saveAssign userId deviceIds =>
      simp only [UserList.perform, UserList.saveAssign] at done
      repeat' split at done
      · cases done
      · cases done
      · cases done
      · obtain rfl := Option.some.inj done
        exact ((narrows_updateWhere s _ _ _).trans (narrows_updateWhere _ _ _ _)).recomputeAll
  | toggleActive id token =>
      simp only [UserList.perform, UserList.toggleActive] at done
      repeat' split at done
      · cases done
      · obtain rfl := Option.some.inj done
        exact .refl _
      · cases done
      · cases done
      · obtain rfl := Option.some.inj done
        exact narrows_unrouted
          ((unrouted_setActive s.db id false).trans (unrouted_revokeAllAccess _ id token))
      · obtain rfl := Option.some.inj done
        exact narrows_unrouted (unrouted_setActive s.db id true)
  | forceLogout id token =>
      simp only [UserList.perform, UserList.forceLogout] at done
      repeat' split at done
      · cases done
      · obtain rfl := Option.some.inj done
        exact .refl _
      · cases done
      · cases done
      · obtain rfl := Option.some.inj done
        exact narrows_unrouted (unrouted_revokeAllAccess s.db id token)
  | deleteUser id =>
      simp only [UserList.perform, UserList.deleteUser] at done
      repeat' split at done
      · cases done
      · obtain rfl := Option.some.inj done
        exact .refl _
      · cases done
      · cases done
      · obtain rfl := Option.some.inj done
        exact (narrows_updateWhere s _ _ _).trans (narrows_userDelete nulls _ id)

theorem narrows_groups {nulls : Bool} {s s' : System} {actor : User} {call : GroupList.Call}
    (done : GroupList.perform nulls s actor call = some s') : Narrows s.db s'.db := by
  cases call with
  | save type editing form =>
      simp only [GroupList.perform, GroupList.save] at done
      split at done
      · cases done
      · obtain ⟨db, saved, rfl⟩ := Option.map_eq_some_iff.mp done
        cases type with
        | users => exact narrows_unrouted (unrouted_saveUserGroup saved)
        | devices => exact narrows_unrouted (unrouted_saveDeviceGroup saved)
  | deleteGroup type id =>
      simp only [GroupList.perform, GroupList.deleteGroup] at done
      repeat' split at done
      · cases done
      · cases done
      · obtain rfl := Option.some.inj done
        have purged : Narrows s.db
            (GroupList.purge (DeviceGroup.releaseDevices s id) .deviceGroup id).db :=
          ⟨rfl, fun level => by cases level <;> exact .refl _⟩
        exact purged.trans (narrows_deviceGroupDelete nulls _ id)
      · cases done
      · obtain rfl := Option.some.inj done
        exact narrows_unrouted ⟨rfl, rfl, fun level => by cases level <;> rfl⟩

theorem narrows_api {nulls : Bool} {s s' : System} {owner : User} {request : AdminApi.Request}
    (done : AdminApi.handle nulls s owner request = some s') : Narrows s.db s'.db := by
  cases request with
  | enableDevice device =>
      obtain ⟨row, _, rfl⟩ := Option.map_eq_some_iff.mp done
      split
      · exact narrows_withDevices s _
      · exact .refl _
  | disableDevice device =>
      obtain ⟨row, _, rfl⟩ := Option.map_eq_some_iff.mp done
      exact narrows_withDevices s _
  | destroyDevice device =>
      obtain ⟨row, _, rfl⟩ := Option.map_eq_some_iff.mp done
      exact narrows_deviceForceDelete s row
  | assignDevice device user deviceGroup =>
      simp only [AdminApi.handle, AdminApi.DevicesController.assign, Option.bind_eq_bind,
        Option.bind_eq_some_iff] at done
      obtain ⟨row, _, userId, _, deviceGroupId, _, done⟩ := done
      split at done
      · cases done
      · obtain rfl := Option.some.inj done
        exact narrows_deviceUpdate s row _ _
  | addUserGroupMember group user =>
      simp only [AdminApi.handle, AdminApi.UserGroupsController.addMember, Option.bind_eq_bind,
        Option.bind_eq_some_iff] at done
      obtain ⟨_, _, row, _, done⟩ := done
      obtain rfl := Option.some.inj done
      exact narrows_unrouted ⟨rfl, rfl, fun level => by cases level <;> rfl⟩
  | removeUserGroupMember group user =>
      simp only [AdminApi.handle, AdminApi.UserGroupsController.removeMember,
        Option.bind_eq_bind, Option.bind_eq_some_iff] at done
      obtain ⟨_, _, row, _, done⟩ := done
      obtain rfl := Option.some.inj done
      exact narrows_unrouted ⟨rfl, rfl, fun level => by cases level <;> rfl⟩
  | destroyUserGroup group =>
      obtain ⟨_, _, rfl⟩ := Option.map_eq_some_iff.mp done
      exact narrows_unrouted ⟨rfl, rfl, fun level => by cases level <;> rfl⟩
  | addDeviceGroupMember group device =>
      simp only [AdminApi.handle, AdminApi.DeviceGroupsController.addMember,
        Option.bind_eq_bind, Option.bind_eq_some_iff] at done
      obtain ⟨_, _, row, _, done⟩ := done
      obtain rfl := Option.some.inj done
      exact narrows_deviceUpdate s row _ _
  | removeDeviceGroupMember group device =>
      simp only [AdminApi.handle, AdminApi.DeviceGroupsController.removeMember,
        Option.bind_eq_bind, Option.bind_eq_some_iff] at done
      obtain ⟨_, _, row, _, done⟩ := done
      obtain rfl := Option.some.inj done
      split
      · exact narrows_deviceUpdate s row _ _
      · exact .refl _
  | destroyDeviceGroup group =>
      obtain ⟨_, _, rfl⟩ := Option.map_eq_some_iff.mp done
      exact (narrows_updateWhere s _ _ _).trans (narrows_deviceGroupDelete nulls _ group)
  | enableUser user =>
      obtain ⟨_, _, rfl⟩ := Option.map_eq_some_iff.mp done
      exact narrows_unrouted (unrouted_setActive s.db user true)
  | disableUser user token =>
      simp only [AdminApi.handle, AdminApi.UsersController.disable] at done
      split at done
      · cases done
      · obtain ⟨_, _, rfl⟩ := Option.map_eq_some_iff.mp done
        exact narrows_unrouted
          ((unrouted_setActive s.db user false).trans (unrouted_revokeAllAccess _ user token))
  | forceLogoutUser user token =>
      obtain ⟨_, _, rfl⟩ := Option.map_eq_some_iff.mp done
      exact narrows_unrouted (unrouted_revokeAllAccess s.db user token)
  | destroyUser user =>
      simp only [AdminApi.handle, AdminApi.UsersController.destroy] at done
      split at done
      · cases done
      · obtain ⟨_, _, rfl⟩ := Option.map_eq_some_iff.mp done
        exact (narrows_updateWhere s _ _ _).trans (narrows_userDelete nulls _ user)
  | storeRule book subjectType subjectId permission =>
      simp only [AdminApi.handle, AdminApi.AddressBooksController.storeRule] at done
      split at done
      · cases done
      · obtain rfl := Option.some.inj done
        exact narrows_unrouted ⟨rfl, rfl, fun level => by cases level <;> rfl⟩
  | updateRule book rule change =>
      simp only [AdminApi.handle, AdminApi.AddressBooksController.updateRule] at done
      split at done
      · cases done
      · obtain ⟨_, _, rfl⟩ := Option.map_eq_some_iff.mp done
        exact narrows_unrouted ⟨rfl, rfl, fun level => by cases level <;> rfl⟩
  | destroyRule book rule =>
      obtain ⟨_, _, rfl⟩ := Option.map_eq_some_iff.mp done
      exact narrows_unrouted ⟨rfl, rfl, fun level => by cases level <;> rfl⟩

theorem narrows_upsert {s s' : System} {r : DeviceCliController.Request}
    {userId deviceGroupId : Option Nat} {id : Nat}
    (done : DeviceCliController.upsert s r userId deviceGroupId = some (s', id)) :
    Narrows s.db s'.db := by
  simp only [DeviceCliController.upsert] at done
  split at done
  · cases done
    exact narrows_deviceUpdate s _ _ _
  · split at done
    · cases done
    · cases done
      exact narrows_deviceCreate s _

theorem cliAssign_keeps {s s' : System} (h : Assignable s.db) {token : ApiToken}
    {r : DeviceCliController.Request}
    (done : DeviceCliController.assign s token r = some s') : Assignable s'.db := by
  simp only [DeviceCliController.assign] at done
  repeat' split at done
  · cases done
  · cases done
  · cases done
  · simp only [Option.bind_eq_bind, Option.bind_eq_some_iff] at done
    obtain ⟨user, _, group, _, strategy, _, _, _, ⟨written, id⟩, upserted, done⟩ := done
    have kept := (narrows_upsert upserted).assignable h
    obtain rfl := Option.some.inj done
    split
    · exact assignTo_assignable kept _ _ _
    · exact kept

theorem narrows_importPeer (userMap deviceGroupMap : ImportLejianwen.IdMap) (s : System)
    (row : ImportLejianwen.SourcePeer) :
    Narrows s.db (ImportLejianwen.importPeer userMap deviceGroupMap s row).db := by
  simp only [ImportLejianwen.importPeer]
  repeat' split
  · exact .refl _
  · exact narrows_deviceUpdate s _ _ _
  · exact narrows_deviceCreate s _

theorem narrows_import (s : System) (wipe : Bool) (source : ImportLejianwen.Source) :
    Narrows s.db (ImportLejianwen.handle s wipe source).db := by
  have wiped : Narrows s.db (if wipe then ImportLejianwen.wipeTargets s else s).db := by
    split
    · refine ⟨rfl, fun level => ?_⟩
      cases level <;> exact List.nil_sublist _
    · exact .refl _
  simp only [ImportLejianwen.handle]
  refine Narrows.trans (wiped.trans (narrows_unrouted ?_)) (narrows_foldl (narrows_importPeer _ _) _ _)
  refine Unrouted.trans ?_ (foldl_unrouted (unrouted_importUser _) source.users _)
  refine Unrouted.trans ?_ (foldl_unrouted unrouted_importDeviceGroup source.deviceGroups (_, []))
  exact foldl_unrouted unrouted_importUserGroup source.groups (_, [])

/-- What an inspection relies on. -/
structure Inspectable (s : System) : Prop where
  consistent : Consistent s
  assignable : Assignable s.db

theorem perform_inspectable {isEmail : String → Bool} {nulls : Bool} (s : System)
    (operation : Operation) (s' : System) (h : Inspectable s)
    (done : operation.perform isEmail nulls s = some s') : Inspectable s' := by
  refine ⟨perform_consistent s operation s' h.consistent done, ?_⟩
  cases operation with
  | strategies actorId call =>
      obtain ⟨actor, _, done⟩ := Option.bind_eq_some_iff.mp done
      exact strategies_keep h.assignable done
  | devices actorId call =>
      obtain ⟨actor, _, done⟩ := Option.bind_eq_some_iff.mp done
      exact devices_keep h.assignable done
  | users actorId call =>
      obtain ⟨actor, _, done⟩ := Option.bind_eq_some_iff.mp done
      exact (narrows_users done).assignable h.assignable
  | groups actorId call =>
      obtain ⟨actor, _, done⟩ := Option.bind_eq_some_iff.mp done
      exact (narrows_groups done).assignable h.assignable
  | api ownerId request =>
      obtain ⟨owner, _, done⟩ := Option.bind_eq_some_iff.mp done
      exact (narrows_api done).assignable h.assignable
  | cliAssign token request => exact cliAssign_keeps h.assignable done
  | importLejianwen wipe source =>
      obtain rfl := Option.some.inj done
      exact (narrows_import s wipe source).assignable h.assignable
  | assignTo level targetId strategyId =>
      simp only [Operation.perform] at done
      split at done
      · obtain rfl := Option.some.inj done
        exact assignTo_assignable h.assignable level targetId strategyId
      · cases done
  | newProcess =>
      obtain rfl := Option.some.inj done
      exact h.assignable

/-- An installation whose accounts and groups are there, and no device, strategy or
assignment yet. -/
def unmanaged (db : Database) : System :=
  { db := { db with
      devices := .empty
      strategies := .empty
      deviceStrategy := []
      strategyUser := []
      deviceGroupStrategy := [] } }

theorem inspectable_unmanaged (db : Database) : Inspectable (unmanaged db) where
  consistent := Consistent.fleetless
    { db with deviceStrategy := [], strategyUser := [], deviceGroupStrategy := [] }
  assignable :=
    { single := fun level => by cases level <;> exact List.nodup_nil
      deleted := fun _ h => nomatch h }

/-- After every run of operations that complete, whatever the device: the inspector's winner
is what a resolution gives in that process, and one step applies exactly when there is one. -/
theorem inspector_agrees_with_resolver (isEmail : String → Bool) (nulls : Bool) (db : Database)
    (operations : List Operation) (s : System)
    (completed : operations.foldlM (Operation.perform isEmail nulls) (unmanaged db) = some s)
    (device : Device) :
    (explainFor s.db device).winnerId = (resolve s device).1 ∧
      (explainFor s.db device).appliedSteps = if (resolve s device).1.isSome then 1 else 0 := by
  have reached : Inspectable s :=
    Runs.invariant_completed perform_inspectable operations _ s (inspectable_unmanaged db) completed
  have walked := walked_explainFor reached.assignable reached.consistent.oneDefault device
  rw [resolve_eq reached.consistent.routable device]
  refine ⟨walked.winner, walked.applied.trans ?_⟩
  cases resolveAfresh s.db device <;> rfl

theorem inspector_agrees_with_resolver_rollout :
    ∃ s : System, ∃ device ∈ s.db.devices.rows, device.strategyIdResolved = some 2 ∧
      (explainFor s.db device).winnerId = (resolve s device).1 := by
  have completes : (rollout.foldlM (Operation.perform (fun _ => true) true)
      (unmanaged administered)).any fun s =>
        s.db.devices.rows.any fun device => decide (device.strategyIdResolved = some 2) := by
    decide +kernel
  obtain ⟨s, completed, cached⟩ := (Option.any_eq_true _ _).mp completes
  obtain ⟨device, mem, resolved⟩ := List.any_eq_true.mp cached
  exact ⟨s, device, mem, of_decide_eq_true resolved,
    (inspector_agrees_with_resolver _ _ administered rollout s completed device).1⟩

end Inspection
end CortenDesk
