import CortenDesk.Access.TokenRuns
import CortenDesk.AdminApi.Parity

/-!
The endpoints one by one: each stays within the console exactly when what it names is in
scope. None asks, so a request out of scope goes through and leaves the console's bounds.
-/
namespace CortenDesk
namespace AdminApi
open TokenRuns
variable {s s' : System} {owner : User}

section Devices

theorem enableDevice_within {id : Nat} (done : DevicesController.enable s id = some s') :
    WithinConsole s.db owner s'.db ↔ inScope s.db owner (.enableDevice id) = true := by
  obtain ⟨device, found, rfl⟩ := Option.map_eq_some_iff.mp done
  have present := (s.db.devices.find?_eq_some_iff.mp found).1
  simp only [inScope, found, Option.all_some, Bool.or_eq_true, Bool.not_eq_true']
  split
  · next trashed =>
    rw [Device.restore, withinConsole_write present]
    refine or_congr_left ⟨fun same => ?_, fun live => ?_⟩
    · exact (congrArg Device.trashed same).symm
    · rw [trashed] at live
      cases live
  · next live => exact iff_of_true (.refl s.db) (.inl (by simpa using live))

theorem disableDevice_within {id : Nat} (done : DevicesController.disable s id = some s') :
    WithinConsole s.db owner s'.db ↔ inScope s.db owner (.disableDevice id) = true := by
  obtain ⟨device, bound, rfl⟩ := Option.map_eq_some_iff.mp done
  obtain ⟨found, live⟩ := Option.filter_eq_some_iff.mp bound
  have present := (s.db.devices.find?_eq_some_iff.mp found).1
  simp only [inScope, found, Option.all_some]
  rw [Device.delete, withinConsole_write present]
  refine or_iff_right fun same => ?_
  have trashed : true = device.trashed := congrArg Device.trashed same
  simp [← trashed] at live

theorem destroyDevice_within {id : Nat} (done : DevicesController.destroy s id = some s') :
    WithinConsole s.db owner s'.db ↔ inScope s.db owner (.destroyDevice id) = true := by
  obtain ⟨device, found, rfl⟩ := Option.map_eq_some_iff.mp done
  have present := (s.db.devices.find?_eq_some_iff.mp found).1
  simp only [inScope, found, Option.all_some]
  have one : WithinConsole s.db owner (Device.forceDelete s device).db ↔
      Option.map Device.uncached none = some device.uncached ∨
        DeviceList.reaches s.db owner device :=
    withinConsole_device present (Table.find?_delete_id device.id)
  rw [one]
  exact or_iff_right nofun

theorem assignDevice_within {id : Nat} {user deviceGroup : Reference}
    (done : DevicesController.assign s id user deviceGroup = some s') :
    WithinConsole s.db owner s'.db ↔ inScope s.db owner (.assignDevice id user deviceGroup) = true := by
  simp only [DevicesController.assign, Option.bind_eq_bind, Option.bind_eq_some_iff] at done
  obtain ⟨device, bound, userId, named, deviceGroupId, namedGroup, done⟩ := done
  split at done
  · cases done
  obtain rfl := Option.some.inj done
  have found := (Option.filter_eq_some_iff.mp bound).1
  have present := (s.db.devices.find?_eq_some_iff.mp found).1
  simp only [inScope, found, Option.all_some, Bool.or_eq_true, Bool.and_eq_true, Reference.keeps,
    named, namedGroup, decide_eq_true_eq]
  rw [withinConsole_update present]
  refine or_congr_left ⟨fun same => ?_, fun ⟨owned, filed⟩ => ?_⟩
  · exact ⟨congrArg Device.userId same, congrArg Device.deviceGroupId same⟩
  · rw [owned, filed]

end Devices

section DeviceGroups

theorem resolveDevice_present {reference : Reference} {device : Device}
    (resolved : DeviceGroupsController.resolveDevice s.db reference = some device) :
    device ∈ s.db.devices.rows := by
  cases reference with
  | absent | cleared => cases resolved
  | byId id =>
      have found := (Option.filter_eq_some_iff.mp resolved).1
      exact (s.db.devices.find?_eq_some_iff.mp found).1
  | byName text => exact List.mem_of_find?_eq_some resolved

theorem addDeviceGroupMember_within {group : Nat} {reference : Reference}
    (done : DeviceGroupsController.addMember s group reference = some s') :
    WithinConsole s.db owner s'.db ↔
      inScope s.db owner (.addDeviceGroupMember group reference) = true := by
  simp only [DeviceGroupsController.addMember, Option.bind_eq_bind, Option.bind_eq_some_iff]
    at done
  obtain ⟨_, _, device, resolved, done⟩ := done
  obtain rfl := Option.some.inj done
  simp only [inScope, resolved, Option.all_some, Bool.or_eq_true, decide_eq_true_eq]
  rw [withinConsole_update (resolveDevice_present resolved)]
  refine or_congr_left ⟨fun same => ?_, fun filed => ?_⟩
  · exact (congrArg Device.deviceGroupId same).symm
  · rw [← filed]

theorem removeDeviceGroupMember_within {group : Nat} {reference : Reference}
    (done : DeviceGroupsController.removeMember s group reference = some s') :
    WithinConsole s.db owner s'.db ↔
      inScope s.db owner (.removeDeviceGroupMember group reference) = true := by
  simp only [DeviceGroupsController.removeMember, Option.bind_eq_bind, Option.bind_eq_some_iff]
    at done
  obtain ⟨_, _, device, resolved, done⟩ := done
  obtain rfl := Option.some.inj done
  simp only [inScope, resolved, Option.all_some, Bool.or_eq_true, decide_eq_true_eq]
  split
  · next filed =>
    rw [withinConsole_update (resolveDevice_present resolved)]
    refine or_congr_left ⟨fun same => ?_, fun away => absurd filed away⟩
    have gone : none = device.deviceGroupId := congrArg Device.deviceGroupId same
    rw [← gone]
    exact nofun
  · next away => exact iff_of_true (.refl s.db) (.inl away)

end DeviceGroups

section UserGroups

theorem reference_present {ρ : Type} [Row ρ] {table : Table ρ} {name : ρ → String}
    {reference : Reference} {row : ρ} (found : reference.find table name = some row) :
    row ∈ table.rows := by
  cases reference with
  | absent | cleared => cases found
  | byId id => exact (table.find?_eq_some_iff.mp found).1
  | byName text => exact List.mem_of_find?_eq_some found

theorem addUserGroupMember_within {group : Nat} {reference : Reference}
    (done : UserGroupsController.addMember s group reference = some s') :
    WithinConsole s.db owner s'.db ↔
      inScope s.db owner (.addUserGroupMember group reference) = true := by
  simp only [UserGroupsController.addMember, Option.bind_eq_bind, Option.bind_eq_some_iff] at done
  obtain ⟨row, foundGroup, user, found, done⟩ := done
  obtain rfl := Option.some.inj done
  obtain ⟨present, named⟩ := s.db.userGroups.find?_eq_some_iff.mp foundGroup
  obtain rfl : row.id = group := named
  simp only [inScope, found, Option.all_some, Bool.or_eq_true, decide_eq_true_eq]
  rw [withinConsole_member (reference_present found) present]
  · refine or_congr_left ⟨fun same => ?_, fun joined => ?_⟩
    · apply same.mp
      split
      · assumption
      · exact List.mem_append_right _ (List.mem_singleton_self _)
    · rw [if_pos joined]
  · intro other away
    split
    · rfl
    · rw [List.mem_append, List.mem_singleton]
      exact or_iff_left away

theorem removeUserGroupMember_within {group : Nat} {reference : Reference}
    (done : UserGroupsController.removeMember s group reference = some s') :
    WithinConsole s.db owner s'.db ↔
      inScope s.db owner (.removeUserGroupMember group reference) = true := by
  simp only [UserGroupsController.removeMember, Option.bind_eq_bind, Option.bind_eq_some_iff]
    at done
  obtain ⟨row, foundGroup, user, found, done⟩ := done
  obtain rfl := Option.some.inj done
  obtain ⟨present, named⟩ := s.db.userGroups.find?_eq_some_iff.mp foundGroup
  obtain rfl : row.id = group := named
  simp only [inScope, found, Option.all_some, Bool.or_eq_true, decide_eq_true_eq]
  rw [withinConsole_member (reference_present found) present]
  · refine or_congr_left ⟨fun same joined => ?_, fun absent => ?_⟩
    · exact of_decide_eq_true (List.mem_filter.mp (same.mpr joined)).2 rfl
    · exact iff_of_false (fun kept => absent (List.mem_of_mem_filter kept)) absent
  · intro other away
    rw [List.mem_filter, decide_eq_true_eq]
    exact and_iff_left away

theorem destroyUserGroup_within {group : Nat}
    (done : UserGroupsController.destroy s group = some s') :
    WithinConsole s.db owner s'.db ↔ inScope s.db owner (.destroyUserGroup group) = true := by
  obtain ⟨row, found, rfl⟩ := Option.map_eq_some_iff.mp done
  obtain ⟨present, named⟩ := s.db.userGroups.find?_eq_some_iff.mp found
  constructor
  · intro within
    refine within.groups.resolve_left fun ⟨kept, _⟩ => ?_
    have gone := (Table.mem_delete.mp (kept present)).2
    exact absurd named (of_decide_eq_false gone)
  · intro allowed
    refine ⟨.refl rfl, .refl rfl rfl rfl rfl, fun user _ other _ _ kept => .inl ?_, .inr allowed,
      .refl rfl⟩
    have away : other.id ≠ group := by
      intro here
      apply kept
      rw [← here]
      exact (Table.find?_delete_id other.id other.id).trans (if_pos rfl)
    change (other.id, user.id) ∈ s.db.userGroupUser.filter _ ↔ _
    rw [List.mem_filter, decide_eq_true_eq]
    exact and_iff_left away

end UserGroups

section Users

theorem signedOut_iff {db : Database} {user : User} {token : String} :
    signedOut db user token = true ↔ user.rememberToken = some token ∧
      user.id ∉ db.clientTokens ∧ user.id ∉ db.sessions ∧ user.id ∉ db.trustedDevices := by
  simp only [signedOut, Bool.and_eq_true, decide_eq_true_eq, and_assoc]

/-- Ending the sign-ins of an account whose row is `row` by then. -/
theorem leftAlone_revoke {before db : Database} {user row : User} {token : String}
    (present : row ∈ db.users.rows) (sameId : row.id = user.id)
    (clientTokens : db.clientTokens = before.clientTokens)
    (sessions : db.sessions = before.sessions)
    (trustedDevices : db.trustedDevices = before.trustedDevices) :
    user.LeftAlone before (UserList.revokeAllAccess db user.id token) ↔
      { row with rememberToken := some token } = user ∧ user.id ∉ before.clientTokens ∧
        user.id ∉ before.sessions ∧ user.id ∉ before.trustedDevices := by
  have ended (ids : List Nat) :
      (user.id ∈ ids → user.id ∈ ids.filter (· ≠ user.id)) ↔ user.id ∉ ids := by
    simp
  have kept : user ∈ (UserList.revokeAllAccess db user.id token).users.rows ↔
      { row with rememberToken := some token } = user := by
    rw [← sameId]
    exact Table.mem_update_id present sameId.symm _
  rw [User.LeftAlone, kept]
  simp only [UserList.revokeAllAccess, clientTokens, sessions, trustedDevices, ended]

/-- Another account keeps what it is signed in with. -/
theorem leftAlone_revoke_other {before db : Database} {other : User} {id : Nat} {token : String}
    (present : other ∈ db.users.rows) (clientTokens : db.clientTokens = before.clientTokens)
    (sessions : db.sessions = before.sessions)
    (trustedDevices : db.trustedDevices = before.trustedDevices) (away : other.id ≠ id) :
    other.LeftAlone before (UserList.revokeAllAccess db id token) := by
  have kept {ids : List Nat} (signed : other.id ∈ ids) : other.id ∈ ids.filter (· ≠ id) := by
    simp [signed, away]
  refine ⟨Table.mem_update_of_ne present away _, fun signed => ?_, fun signed => ?_,
    fun signed => ?_⟩
  · exact kept (clientTokens ▸ signed)
  · exact kept (sessions ▸ signed)
  · exact kept (trustedDevices ▸ signed)

theorem forceLogoutUser_within {id : Nat} {token : String}
    (done : UsersController.forceLogout s id token = some s') :
    WithinConsole s.db owner s'.db ↔ inScope s.db owner (.forceLogoutUser id token) = true := by
  obtain ⟨user, found, rfl⟩ := Option.map_eq_some_iff.mp done
  obtain ⟨present, named⟩ := s.db.users.find?_eq_some_iff.mp found
  obtain rfl : user.id = id := named
  simp only [inScope, found, Option.all_some, Bool.or_eq_true]
  have alone : user.LeftAlone s.db (UserList.revokeAllAccess s.db user.id token) ↔
      signedOut s.db user token = true := by
    rw [signedOut_iff]
    refine (leftAlone_revoke present rfl rfl rfl rfl).trans (and_congr_left' ⟨fun same => ?_, ?_⟩)
    · exact (congrArg User.rememberToken same).symm
    · intro same
      rw [← same]
  rw [← alone]
  exact withinConsole_account present fun other ho away =>
    leftAlone_revoke_other ho rfl rfl rfl away

theorem enableUser_within {id : Nat} (done : UsersController.enable s id = some s') :
    WithinConsole s.db owner s'.db ↔ inScope s.db owner (.enableUser id) = true := by
  obtain ⟨user, found, rfl⟩ := Option.map_eq_some_iff.mp done
  obtain ⟨present, named⟩ := s.db.users.find?_eq_some_iff.mp found
  obtain rfl : user.id = id := named
  simp only [inScope, found, Option.all_some, Bool.or_eq_true]
  have alone : user.LeftAlone s.db (UserList.setActive s.db user.id true) ↔
      user.isActive = true := by
    refine ⟨fun ⟨kept, _⟩ => ?_, fun active => ⟨?_, id, id, id⟩⟩
    · have same := (Table.mem_update_id present rfl _).mp kept
      exact (congrArg User.isActive same).symm
    · apply (Table.mem_update_id present rfl _).mpr
      rw [← active]
  rw [← alone]
  exact withinConsole_account present fun other ho away =>
    ⟨Table.mem_update_of_ne ho away _, fun h => h, fun h => h, fun h => h⟩

theorem disableUser_within {id : Nat} {token : String}
    (done : UsersController.disable s owner id token = some s') :
    WithinConsole s.db owner s'.db ↔ inScope s.db owner (.disableUser id token) = true := by
  simp only [UsersController.disable] at done
  split at done
  · cases done
  obtain ⟨user, found, rfl⟩ := Option.map_eq_some_iff.mp done
  obtain ⟨present, named⟩ := s.db.users.find?_eq_some_iff.mp found
  obtain rfl : user.id = id := named
  simp only [inScope, found, Option.all_some, Bool.or_eq_true, Bool.and_eq_true,
    Bool.not_eq_true']
  have others : ∀ other ∈ s.db.users.rows, other.id ≠ user.id →
      other ∈ (UserList.setActive s.db user.id false).users.rows :=
    fun other ho away => Table.mem_update_of_ne ho away _
  have alone : user.LeftAlone s.db
      (UserList.revokeAllAccess (UserList.setActive s.db user.id false) user.id token) ↔
      user.isActive = false ∧ signedOut s.db user token = true := by
    have row : { user with isActive := false } ∈ (UserList.setActive s.db user.id false).users.rows :=
      (Table.mem_update_id present (by rfl) _).mpr rfl
    have revoked := @leftAlone_revoke s.db (UserList.setActive s.db user.id false) user _ token
      row rfl rfl rfl rfl
    rw [signedOut_iff, ← and_assoc]
    refine revoked.trans (and_congr_left' ⟨fun same => ?_, ?_⟩)
    · exact ⟨(congrArg User.isActive same).symm, (congrArg User.rememberToken same).symm⟩
    · intro ⟨inactive, same⟩
      rw [← inactive, ← same]
  rw [← alone]
  exact withinConsole_account present fun other ho away =>
    leftAlone_revoke_other (others other ho away) rfl rfl rfl away

/-- A release, and the nulling after it, take the column of devices that held the id. -/
theorem released {devices : Table Device} {nulls : Bool} (holds : Device → Bool)
    (f : Device → Device) {device : Device} (present : device ∈ devices.rows)
    (twice : f (f device) = f device)
    (keeps : ∀ row, Row.id (f row) = Row.id row := by intro _; rfl) :
    ∃ device', ((devices.update (fun row => ! row.trashed && holds row) f keeps).update
        (fun row => nulls && holds row) f keeps).find? device.id = some device' ∧
      (device' = device ∨ holds device = true ∧ device' = f device) := by
  have found : devices.find? device.id = some device := devices.find?_of_mem present
  rw [Table.find?_update, Table.find?_update, found]
  refine ⟨_, rfl, ?_⟩
  by_cases held : holds device
  · by_cases first : device.trashed <;> by_cases second : nulls <;>
      simp [held, first, second, twice]
  · simp [held]

theorem destroyUser_within {nulls : Bool} {id : Nat}
    (done : UsersController.destroy nulls s owner id = some s') :
    WithinConsole s.db owner s'.db ↔ inScope s.db owner (.destroyUser id) = true := by
  simp only [UsersController.destroy] at done
  split at done
  · cases done
  obtain ⟨user, found, rfl⟩ := Option.map_eq_some_iff.mp done
  obtain ⟨present, named⟩ := s.db.users.find?_eq_some_iff.mp found
  obtain rfl : user.id = id := named
  simp only [inScope, found, Option.all_some]
  rw [User.delete, withinConsole_recached (Strategy.recached_recomputeAll _)]
  have gone : (s.db.users.delete fun row => decide (row.id = user.id)).find? user.id = none :=
    (Table.find?_delete_id user.id user.id).trans (if_pos rfl)
  constructor
  · intro within
    refine (within.accounts user present).resolve_left fun ⟨kept, _⟩ => ?_
    exact absurd rfl (of_decide_eq_false (Table.mem_delete.mp kept).2)
  · intro allowed
    refine ⟨fun device hd => .inl ?_, fun other ho => ?_, fun other ho group _ stays _ => .inl ?_,
      .refl rfl rfl, fun book hb kept rule within => ?_⟩
    · obtain ⟨device', now, same⟩ := released (fun row => row.userId = some user.id)
        (fun row => { row with userId := none }) hd rfl
      refine ⟨device', now, ?_⟩
      rcases same with rfl | ⟨owned, rfl⟩
      · exact .refl _ _ _
      · have holds : device.userId = some user.id := by
          simpa using owned
        exact ⟨rfl, .inr ⟨rfl, user, present, holds, gone⟩, .inl rfl⟩
    · by_cases here : other.id = user.id
      · obtain rfl : other = user := s.db.users.eq_of_id_eq ho present here
        exact .inr allowed
      · exact .inl ⟨Table.mem_delete.mpr ⟨ho, decide_eq_false here⟩, fun h => h, fun h => h,
          fun h => h⟩
    · have away : other.id ≠ user.id := by
        intro here
        apply stays
        rw [here]
        exact gone
      change (group.id, other.id) ∈ s.db.userGroupUser.filter _ ↔ _
      rw [List.mem_filter, decide_eq_true_eq]
      exact and_iff_left away
    · refine ⟨fun listed => .inl (Table.mem_delete.mp listed).1, fun listed => .inl ?_⟩
      refine Table.mem_delete.mpr ⟨listed, ?_⟩
      rw [List.any_eq_false]
      intro other ho
      by_cases here : other.id = book.id
      · obtain rfl : other = book := s.db.addressBooks.eq_of_id_eq ho hb here
        have stays := (Table.mem_delete.mp kept).2
        simpa [Bool.and_assoc] using fun _ => stays
      · simp [within, here]

theorem destroyDeviceGroup_within {nulls : Bool} {group : Nat}
    (done : DeviceGroupsController.destroy nulls s group = some s') :
    WithinConsole s.db owner s'.db ↔ inScope s.db owner (.destroyDeviceGroup group) = true := by
  obtain ⟨row, found, rfl⟩ := Option.map_eq_some_iff.mp done
  obtain ⟨present, named⟩ := s.db.deviceGroups.find?_eq_some_iff.mp found
  obtain rfl : row.id = group := named
  rw [DeviceGroup.delete, withinConsole_recached (Strategy.recached_recomputeAll _)]
  have gone : (s.db.deviceGroups.delete fun other => decide (other.id = row.id)).find? row.id =
      none := (Table.find?_delete_id row.id row.id).trans (if_pos rfl)
  constructor
  · intro within
    refine within.groups.resolve_left fun ⟨_, kept⟩ => ?_
    exact absurd rfl (of_decide_eq_false (Table.mem_delete.mp (kept present)).2)
  · intro allowed
    refine ⟨fun device hd => .inl ?_, .refl rfl rfl rfl rfl, .refl rfl, .inr allowed, .refl rfl⟩
    obtain ⟨device', now, same⟩ := released
      (fun other => other.deviceGroupId = some row.id) (fun row => { row with deviceGroupId := none })
      hd rfl
    refine ⟨device', now, ?_⟩
    rcases same with rfl | ⟨filed, rfl⟩
    · exact .refl _ _ _
    · exact ⟨rfl, .inl rfl, .inr ⟨rfl, row, present, of_decide_eq_true filed, gone⟩⟩

end Users

section AddressBooks

theorem storeRule_within {book : Nat} {subjectType : RuleSubject} {subjectId : Option Nat}
    {permission : Nat}
    (done : AddressBooksController.storeRule s book subjectType subjectId permission = some s') :
    WithinConsole s.db owner s'.db ↔
      inScope s.db owner (.storeRule book subjectType subjectId permission) = true := by
  simp only [AddressBooksController.storeRule] at done
  split at done
  · cases done
  next accepted =>
  obtain rfl := Option.some.inj done
  simp only [Bool.or_eq_true, not_or, Option.isNone_iff_eq_none, ← ne_eq] at accepted
  obtain ⟨row, found⟩ := Option.ne_none_iff_exists'.mp accepted.1
  obtain ⟨present, named⟩ := s.db.addressBooks.find?_eq_some_iff.mp found
  obtain rfl : row.id = book := named
  let rule : AddressBookRule :=
    { id := s.db.addressBookRules.nextId, addressBookId := row.id, subjectType, permission
      subjectId := if subjectType = .everyone then none else subjectId }
  have screen : AddressBookManager.stores s.db owner rule =
      (AddressBookManager.addRule s.db owner row.id subjectType subjectId permission).isSome := by
    rw [← AddressBookManager.addRule_subject]
    exact AddressBookManager.stores_fresh rfl fun everyone => if_pos everyone
  rw [withinConsole_rules present, inScope, ← screen]
  · constructor
    · intro touched
      refine ((touched rule rfl).1 (Table.mem_insert.mpr (.inr rfl))).resolve_left fun listed => ?_
      exact absurd rfl (Nat.ne_of_lt (s.db.addressBookRules.below _ listed))
    · intro stores other _
      refine ⟨fun listed => ?_, fun old => .inl (Table.mem_insert.mpr (.inl old))⟩
      obtain old | rfl := Table.mem_insert.mp listed
      · exact .inl old
      · exact .inr stores
  · intro rule away
    refine Table.mem_insert.trans (or_iff_left ?_)
    rintro rfl
    exact away rfl

theorem bindRule_eq_some {db : Database} {book rule : Nat} {row : AddressBookRule}
    (bound : AddressBooksController.bindRule db book rule = some row) :
    (∃ parent ∈ db.addressBooks.rows, parent.id = book) ∧ row ∈ db.addressBookRules.rows ∧
      row.id = rule ∧ row.addressBookId = book := by
  simp only [AddressBooksController.bindRule, Option.bind_eq_bind, Option.bind_eq_some_iff,
    Option.filter_eq_some_iff, decide_eq_true_eq] at bound
  obtain ⟨parent, foundBook, found, within⟩ := bound
  obtain ⟨present, named⟩ := db.addressBookRules.find?_eq_some_iff.mp found
  exact ⟨⟨parent, db.addressBooks.find?_eq_some_iff.mp foundBook⟩, present, named, within⟩

theorem destroyRule_within {book rule : Nat}
    (done : AddressBooksController.destroyRule s book rule = some s') :
    WithinConsole s.db owner s'.db ↔ inScope s.db owner (.destroyRule book rule) = true := by
  obtain ⟨row, bound, rfl⟩ := Option.map_eq_some_iff.mp done
  obtain ⟨⟨parent, present, rfl⟩, stored, rfl, within⟩ := bindRule_eq_some bound
  rw [withinConsole_rules present, inScope]
  · constructor
    · intro touched
      refine ((touched row within).2 stored).resolve_left fun kept => ?_
      exact absurd rfl (of_decide_eq_false (Table.mem_delete.mp kept).2)
    · intro deletes other _
      refine ⟨fun kept => .inl (Table.mem_delete.mp kept).1, fun listed => ?_⟩
      by_cases here : other.id = row.id
      · exact .inr (here ▸ deletes)
      · exact .inl (Table.mem_delete.mpr ⟨listed, decide_eq_false here⟩)
  · intro other away
    refine Table.mem_delete.trans (and_iff_left_of_imp fun listed => decide_eq_false ?_)
    intro here
    obtain rfl : other = row := s.db.addressBookRules.eq_of_id_eq listed stored here
    exact away within

theorem updateRule_within {book rule : Nat} {change : RuleUpdate}
    (done : AddressBooksController.updateRule s book rule change = some s') :
    WithinConsole s.db owner s'.db ↔ inScope s.db owner (.updateRule book rule change) = true := by
  simp only [AddressBooksController.updateRule] at done
  split at done
  · cases done
  obtain ⟨row, bound, rfl⟩ := Option.map_eq_some_iff.mp done
  obtain ⟨⟨parent, present, rfl⟩, stored, rfl, within⟩ := bindRule_eq_some bound
  have found : s.db.addressBookRules.find? row.id = some row :=
    s.db.addressBookRules.find?_of_mem stored
  simp only [inScope, found, Option.all_some, Bool.or_eq_true, decide_eq_true_eq]
  have written (other : AddressBookRule) (away : other.id ≠ row.id) :
      other ∈ (s.db.addressBookRules.update (fun rule => decide (rule.id = row.id))
        change.apply).rows ↔ other ∈ s.db.addressBookRules.rows :=
    Table.mem_update_iff_of_ne away
  have changed (other : AddressBookRule) (here : other.id = row.id) :
      other ∈ (s.db.addressBookRules.update (fun rule => decide (rule.id = row.id))
        change.apply).rows ↔ change.apply row = other :=
    Table.mem_update_id stored here _
  rw [withinConsole_rules present]
  · constructor
    · intro touched
      have listed := (changed (change.apply row) rfl).mpr rfl
      obtain kept | stores := (touched (change.apply row) within).1 listed
      · exact .inl (s.db.addressBookRules.eq_of_id_eq kept stored rfl)
      · exact .inr stores
    · intro allowed other named
      by_cases here : other.id = row.id
      · rw [changed other here]
        obtain same | stores := allowed
        · refine ⟨fun is => .inl (is ▸ same.symm ▸ stored), fun listed => .inl ?_⟩
          exact same.trans (s.db.addressBookRules.eq_of_id_eq stored listed here.symm)
        · refine ⟨fun is => .inr (is ▸ stores), fun listed => .inr ?_⟩
          have manages := AddressBookManager.canManage_of_stores stores
          exact named ▸ AddressBookManager.deleteRule_isSome (named ▸ within ▸ manages) listed
      · rw [written other here]
        exact ⟨.inl, .inl⟩
  · intro other away
    by_cases here : other.id = row.id
    · refine (changed other here).trans (iff_of_false ?_ fun listed => ?_)
      · rintro rfl
        exact away within
      · obtain rfl : other = row := s.db.addressBookRules.eq_of_id_eq listed stored here
        exact away within
    · exact written other here

end AddressBooks

theorem handle_within {nulls : Bool} {request : Request}
    (done : handle nulls s owner request = some s') :
    WithinConsole s.db owner s'.db ↔ inScope s.db owner request = true := by
  cases request with
  | enableDevice device => exact enableDevice_within done
  | disableDevice device => exact disableDevice_within done
  | destroyDevice device => exact destroyDevice_within done
  | assignDevice device user deviceGroup => exact assignDevice_within done
  | addUserGroupMember group user => exact addUserGroupMember_within done
  | removeUserGroupMember group user => exact removeUserGroupMember_within done
  | destroyUserGroup group => exact destroyUserGroup_within done
  | addDeviceGroupMember group device => exact addDeviceGroupMember_within done
  | removeDeviceGroupMember group device => exact removeDeviceGroupMember_within done
  | destroyDeviceGroup group => exact destroyDeviceGroup_within done
  | enableUser user => exact enableUser_within done
  | disableUser user token => exact disableUser_within done
  | forceLogoutUser user token => exact forceLogoutUser_within done
  | destroyUser user => exact destroyUser_within done
  | storeRule book subjectType subjectId permission => exact storeRule_within done
  | updateRule book rule change => exact updateRule_within done
  | destroyRule book rule => exact destroyRule_within done

/-- The stamp of a token is in no screen's way. -/
theorem withinConsole_markUsed {token : ApiToken} {used : Instant} {after : Database} :
    WithinConsole (markUsed s token used).db owner after ↔ WithinConsole s.db owner after := by
  have rules : RulesWithin (markUsed s token used).db owner after ↔ RulesWithin s.db owner after := by
    simp only [RulesWithin, AddressBookManager.deleteRule_apiTokens, markUsed,
      AddressBookManager.stores_apiTokens]
  constructor
  · intro within
    exact ⟨within.devices, within.accounts, within.members, within.groups, rules.mp within.rules⟩
  · intro within
    exact ⟨within.devices, within.accounts, within.members, within.groups, rules.mpr within.rules⟩

theorem inScope_markUsed {token : ApiToken} {used : Instant} {request : Request} :
    inScope (markUsed s token used).db owner request = inScope s.db owner request := by
  cases request with
  | storeRule book subjectType subjectId permission =>
      rw [inScope, markUsed, AddressBookManager.addRule_apiTokens, Option.isSome_map]
      rfl
  | updateRule book rule change =>
      simp only [inScope, markUsed, AddressBookManager.stores_apiTokens]
  | destroyRule book rule =>
      exact AddressBookManager.deleteRule_apiTokens s.db owner _ book rule
  | _ => rfl

/-- An admitted write stays within what the console would have let the owner of the token
do exactly when it is in the owner's scope. -/
theorem served_within_iff (sha256 : String → String) (nulls : Bool) (s s' : System)
    (clock : RequestClock) (bearer : String) (request : Request) (token : ApiToken) (owner : User)
    (admitted : admission sha256 s.db clock bearer request.resource .rw = some (token, owner))
    (done : serve sha256 nulls s clock bearer request = some s') :
    WithinConsole s.db owner s'.db ↔ inScope s.db owner request = true := by
  rw [serve, admitted, Option.bind_some] at done
  rw [← withinConsole_markUsed, ← inScope_markUsed]
  exact handle_within done

/-- A delegate with a token for every area; beside it a colleague with a device and a book,
an administrator, and a user group that opens a folder the delegate does not see. -/
def office : System where
  db := {
    roles := Table.empty.insert fun id =>
      { id, name := "Service desk", permissions := fun _ => .rw }
    users := ((Table.empty.insert fun id => { id, username := "tess", roleId := some 1 }).insert
      fun id => { id, username := "bob" }).insert
      fun id => { id, username := "root", isAdmin := true }
    apiTokens := Table.empty.insert fun id =>
      { id, name := "ci", tokenHash := digest "cdk_secret", userId := some 1
        permissions := fun _ => .rw }
    userGroups := Table.empty.insert fun id => { id, name := "Finance staff" }
    devices := Table.empty.insert fun id => { id, rustdeskId := "123456789", userId := some 2 }
    deviceGroups := Table.empty.insert fun id => { id, name := "Finance" }
    deviceGroupUserGroup := [(1, 1)]
    addressBooks := Table.empty.insert fun id => { id, name := "Vendors", ownerUserId := some 2 } }

/-- An unseen device, an administrator, the delegate's own membership, another's book. -/
def overreach : List Request :=
  [.destroyDevice 1, .disableUser 3 "fresh", .addUserGroupMember 1 (.byId 1),
    .storeRule 1 .everyone none AddressBookRule.permFull]

theorem served_beyond_console :
    overreach.Forall fun request => ∃ s' token owner,
      admission digest office.db (atOnce 1) "cdk_secret" request.resource .rw = some (token, owner) ∧
      owner.isAdmin = false ∧
      serve digest true office (atOnce 1) "cdk_secret" request = some s' ∧
      ¬ WithinConsole office.db owner s'.db := by
  refine List.forall_iff_forall_mem.mpr fun request listed => ?_
  have admits : ∀ request ∈ overreach,
      (admission digest office.db (atOnce 1) "cdk_secret" request.resource .rw).any fun admitted =>
        ! admitted.2.isAdmin && ! inScope office.db admitted.2 request := by decide +kernel
  have serves : ∀ request ∈ overreach,
      (serve digest true office (atOnce 1) "cdk_secret" request).isSome := by decide +kernel
  obtain ⟨⟨token, owner⟩, admitted, out⟩ := (Option.any_eq_true _ _).mp (admits request listed)
  obtain ⟨s', done⟩ := Option.isSome_iff_exists.mp (serves request listed)
  simp only [Bool.and_eq_true, Bool.not_eq_true'] at out
  refine ⟨s', token, owner, admitted, out.1, done, fun within => ?_⟩
  rw [serve, admitted, Option.bind_some] at done
  rw [← withinConsole_markUsed, handle_within done, inScope_markUsed, out.2] at within
  cases within

/-- A plain colleague is in scope. -/
theorem served_within_colleague :
    ∃ s' owner, serve digest true office (atOnce 1) "cdk_secret" (.disableUser 2 "fresh") = some s' ∧
      WithinConsole office.db owner s'.db := by
  have admits : (admission digest office.db (atOnce 1) "cdk_secret" .user .rw).any fun admitted =>
      inScope office.db admitted.2 (.disableUser 2 "fresh") := by decide +kernel
  have serves : (serve digest true office (atOnce 1) "cdk_secret" (.disableUser 2 "fresh")).isSome := by
    decide +kernel
  obtain ⟨⟨token, owner⟩, admitted, within⟩ := (Option.any_eq_true _ _).mp admits
  obtain ⟨s', done⟩ := Option.isSome_iff_exists.mp serves
  exact ⟨s', owner, done, (served_within_iff digest true office s' (atOnce 1) "cdk_secret"
    (.disableUser 2 "fresh") token owner admitted done).mpr within⟩

end AdminApi
end CortenDesk
