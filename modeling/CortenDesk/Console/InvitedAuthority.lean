import CortenDesk.Console.Invitations

/-!
The authority an invitation carries. It is clamped to what its issuer sees when it is issued
and when it is sent again, and the standing of the inviter is checked again at acceptance; but
the folders that acceptance hands out, directly or through user groups, are only matched
against what exists. So a new account stays within the inviter's sight exactly when each of
them is still seen at that moment.
-/
namespace CortenDesk
open Php

/-- An administrator sees every folder. -/
def User.sees (db : Database) (user : User) (folder : Nat) : Prop :=
  user.isAdmin = true ∨ folder ∈ User.accessibleDeviceGroupIds db user.id

instance (db : Database) (user : User) (folder : Nat) : Decidable (user.sees db folder) :=
  inferInstanceAs (Decidable (_ ∨ _))

namespace Onboarding
open InvitationController

/-- The account does not exceed the one that invited it. -/
structure Within (db : Database) (inviter account : User) : Prop where
  active : inviter.isActive = true
  manages : inviter.consoleAllows db .user .rw = true
  admin : account.isAdmin = true → inviter.isAdmin = true
  folders : ∀ folder ∈ User.accessibleDeviceGroupIds db account.id, inviter.sees db folder

/-- The folders an acceptance would hand out. -/
def handedOut (db : Database) (invitation : Invitation) : List Nat :=
  granted db invitation ++ (joined db invitation).flatMap (UserGroup.grantedDeviceGroupIds db)

/-- The inviter exists and passes what `resolve` asks. -/
def Stands (db : Database) (invitation : Invitation) : Prop :=
  ∃ inviter, invitation.inviter db = some inviter ∧
    stillAuthorised db inviter invitation.isAdmin = true

/-- The account that issues or sends again. -/
def Event.actor : Event → Option Nat
  | .save actor _ _ _ | .resend actor _ _ _ => some actor
  | _ => none

variable (lib : Primitives) (isEmail : String → Bool)

/-- What a delegate issues or sends again makes no administrator and hands out folders that
the delegate sees. -/
def Clamped (s : Onboarding) (event : Event) : Prop :=
  ∀ actor, event.actor.bind s.tables.db.users.find? = some actor → actor.isAdmin = false →
    ∀ invitation ∈ (step lib isEmail s event).invitations.rows,
      invitation ∉ s.invitations.rows → invitation.isAdmin = false ∧
        ∀ folder ∈ handedOut s.tables.db invitation, actor.sees s.tables.db folder

/-- An acceptance passes its first half only while the inviter stands. -/
def Admitted (s : Onboarding) : Event → Prop
  | .check request token form now => (handle lib isEmail s (.check request token form now)).2 = none →
      ∃ acceptance,
        (step lib isEmail s (.check request token form now)).accepting request = some acceptance ∧
          Stands s.tables.db acceptance.invitation
  | _ => True

/-- Whenever an account is created, it is within the authority of its inviter. -/
def Keeps (s : Onboarding) : Event → Prop
  | .create request now => ∀ acceptance, s.accepting request = some acceptance →
      ∀ userId, (handle lib isEmail s (.create request now)).2 = some (.signedIn userId) →
        ∃ account, (step lib isEmail s (.create request now)).tables.db.users.find? userId =
            some account ∧
          ∃ inviter, acceptance.invitation.inviter s.tables.db = some inviter ∧
            Within (step lib isEmail s (.create request now)).tables.db inviter account
  | _ => True

/-- The transaction will create the account. -/
def Goes (s : Onboarding) (acceptance : Acceptance) (now : Stamp) : Prop :=
  s.invitations.rows.any (claimable acceptance.invitation.id now) = true ∧
    taken s.tables.db acceptance.invitation = false

/-- The inviter's standing was not withdrawn since the check, and the inviter sees every
existing folder of the invitation and every folder of its existing user groups. -/
def Meets (s : Onboarding) : Event → Prop
  | .create request now => ∀ acceptance, s.accepting request = some acceptance →
      Goes s acceptance now → ∃ inviter, acceptance.invitation.inviter s.tables.db = some inviter ∧
        stillAuthorised s.tables.db inviter acceptance.invitation.isAdmin = true ∧
        ∀ folder ∈ handedOut s.tables.db acceptance.invitation, inviter.sees s.tables.db folder
  | _ => True

theorem mem_handedOut {db : Database} {invitation : Invitation} {folder : Nat} :
    folder ∈ handedOut db invitation ↔ folder ∈ granted db invitation ∨
      ∃ group ∈ joined db invitation, (folder, group) ∈ db.deviceGroupUserGroup ∨
        ⟨.userGroup, group, .deviceGroup, folder⟩ ∈ db.groupAccesses := by
  simp only [handedOut, List.mem_append, List.mem_flatMap, UserGroup.mem_grantedDeviceGroupIds]

section CreateUser
variable {db : Database}

/-- The new account sees what the acceptance hands out. -/
theorem accessible_new (issued : Reach.Issued db) (acceptance : Acceptance) {folder : Nat} :
    folder ∈ User.accessibleDeviceGroupIds (createUser db acceptance) db.users.nextId ↔
      folder ∈ handedOut db acceptance.invitation := by
  have member (group : Nat) : (group, db.users.nextId) ∈ (createUser db acceptance).userGroupUser ↔
      group ∈ joined db acceptance.invitation := by
    rw [createUser, Pivot.mem_sync]
    constructor
    · rintro (⟨_, away⟩ | ⟨listed, _⟩)
      · exact absurd rfl away
      · exact listed
    · exact fun listed => .inr ⟨listed, rfl⟩
  have direct : (folder, db.users.nextId) ∈ (createUser db acceptance).deviceGroupUser ↔
      folder ∈ granted db acceptance.invitation := by
    rw [createUser, Pivot.mem_sync]
    constructor
    · rintro (⟨_, away⟩ | ⟨listed, _⟩)
      · exact absurd rfl away
      · exact listed
    · exact fun listed => .inr ⟨listed, rfl⟩
  have personal : ⟨.user, db.users.nextId, .deviceGroup, folder⟩ ∉ db.groupAccesses :=
    fun access => absurd (issued.accessors _ access rfl) (Nat.lt_irrefl _)
  rw [User.mem_accessibleDeviceGroupIds, mem_handedOut]
  simp only [direct, member]
  constructor
  · rintro (listed | ⟨group, listed, grant⟩ | access | ⟨group, listed, access⟩)
    · exact .inl listed
    · exact .inr ⟨group, listed, .inl grant⟩
    · exact absurd access personal
    · exact .inr ⟨group, listed, .inr access⟩
  · rintro (listed | ⟨group, listed, grant | access⟩)
    · exact .inl listed
    · exact .inr (.inl ⟨group, listed, grant⟩)
    · exact .inr (.inr (.inr ⟨group, listed, access⟩))

/-- The others see what they saw. -/
theorem accessible_other (acceptance : Acceptance) {id : Nat} (other : id ≠ db.users.nextId) {folder : Nat} :
    folder ∈ User.accessibleDeviceGroupIds (createUser db acceptance) id ↔
      folder ∈ User.accessibleDeviceGroupIds db id := by
  have same {rows : List (Nat × Nat)} {ids : List Nat} (first : Nat) :
      (first, id) ∈ Pivot.sync rows db.users.nextId ids ↔ (first, id) ∈ rows := by
    rw [Pivot.mem_sync]
    simp [other]
  rw [User.mem_accessibleDeviceGroupIds, User.mem_accessibleDeviceGroupIds]
  simp only [createUser, same]

theorem find?_new (acceptance : Acceptance) :
    (createUser db acceptance).users.find? db.users.nextId =
      some (newUser acceptance db.users.nextId) :=
  (Table.find?_insert (newUser acceptance) (fun _ => rfl) db.users.nextId).trans (if_pos rfl)

theorem within_iff (issued : Reach.Issued db) {acceptance : Acceptance} {inviter : User}
    (found : acceptance.invitation.inviter db = some inviter) :
    Within (createUser db acceptance) inviter (newUser acceptance db.users.nextId) ↔
      stillAuthorised db inviter acceptance.invitation.isAdmin = true ∧
        ∀ folder ∈ handedOut db acceptance.invitation, inviter.sees db folder := by
  have other : inviter.id ≠ db.users.nextId := by
    obtain ⟨id, _, present⟩ := Option.bind_eq_some_iff.mp found
    exact Nat.ne_of_lt (db.users.below inviter (Table.find?_eq_some_iff _ |>.mp present).1)
  have sees (folder : Nat) :
      inviter.sees (createUser db acceptance) folder ↔ inviter.sees db folder := by
    rw [User.sees, User.sees, accessible_other acceptance other]
  have admin : (! acceptance.invitation.isAdmin || inviter.isAdmin) = true ↔
      (acceptance.invitation.isAdmin = true → inviter.isAdmin = true) := by
    cases acceptance.invitation.isAdmin <;> simp
  simp only [stillAuthorised, Bool.and_eq_true, admin]
  constructor
  · intro within
    refine ⟨⟨⟨within.active, within.manages⟩, within.admin⟩, fun folder out => ?_⟩
    exact (sees folder).mp (within.folders folder ((accessible_new issued acceptance).mpr out))
  · rintro ⟨⟨⟨active, manages⟩, admin⟩, folders⟩
    refine ⟨active, manages, admin, fun folder open' => ?_⟩
    exact (sees folder).mpr (folders folder ((accessible_new issued acceptance).mp open'))

end CreateUser

variable {lib isEmail}

theorem create_signedIn {s : Onboarding} {acceptance : Acceptance} {now : Stamp} {userId : Nat} :
    (create s acceptance now).2 = .signedIn userId ↔
      Goes s acceptance now ∧ userId = s.tables.db.users.nextId := by
  unfold create Goes
  simp only
  cases claims : s.invitations.rows.any (claimable acceptance.invitation.id now) with
  | false => simp
  | true =>
      cases used : taken s.tables.db acceptance.invitation with
      | true => simp
      | false => simp [eq_comm]

theorem create_db {s : Onboarding} {acceptance : Acceptance} {now : Stamp}
    (goes : Goes s acceptance now) :
    (create s acceptance now).1.tables.db = createUser s.tables.db acceptance := by
  unfold create
  simp only [goes.1, goes.2, Bool.not_true, Bool.false_eq_true, if_false]

theorem create_keeps_iff (s : Onboarding) (request : Nat) (now : Stamp) :
    Keeps lib isEmail s (.create request now) ↔ Meets s (.create request now) := by
  refine forall_congr' fun acceptance => forall_congr' fun under => ?_
  have response : (handle lib isEmail s (.create request now)).2 =
      some (create s acceptance now).2 := by
    simp only [handle, under]
  have after : (step lib isEmail s (.create request now)).tables.db =
      (create s acceptance now).1.tables.db := by
    simp only [step, handle, under]
  rw [response, after]
  simp only [Option.some.injEq, create_signedIn]
  constructor
  · intro keeps goes
    obtain ⟨account, found, inviter, invited, within⟩ := keeps _ ⟨goes, rfl⟩
    rw [create_db goes, find?_new] at found
    obtain rfl := Option.some.inj found
    rw [create_db goes] at within
    exact ⟨inviter, invited, (within_iff s.tables.issued invited).mp within⟩
  · rintro meets userId ⟨goes, rfl⟩
    obtain ⟨inviter, invited, within⟩ := meets goes
    rw [create_db goes]
    exact ⟨_, find?_new acceptance, inviter, invited,
      (within_iff s.tables.issued invited).mpr within⟩

theorem keeps_iff (s : Onboarding) (event : Event) : Keeps lib isEmail s event ↔ Meets s event := by
  cases event with
  | create request now => exact create_keeps_iff s request now
  | _ => exact Iff.rfl

theorem stands_of_resolve {s : Onboarding} {tokenHash : String} {now : Stamp}
    {invitation : Invitation} (resolved : resolve s tokenHash now = .ok invitation) :
    Stands s.tables.db invitation := by
  unfold resolve at resolved
  split at resolved
  · cases resolved
  · split at resolved
    · next stands =>
      obtain rfl := Except.ok.inj resolved
      exact (Option.any_eq_true _ _).mp stands
    · cases resolved

theorem admitted (s : Onboarding) (event : Event) : Admitted lib isEmail s event := by
  cases event with
  | check request token form now =>
      simp only [Admitted, step, handle]
      cases checked : InvitationController.check s (lib.sha256 token) form now with
      | error response => exact nofun
      | ok acceptance =>
          intro _
          refine ⟨acceptance, Function.update_self .., ?_⟩
          unfold InvitationController.check at checked
          split at checked
          · cases checked
          · next resolved =>
            split at checked
            · cases checked
            · split at checked
              · cases checked
              · obtain rfl := Except.ok.inj checked
                exact stands_of_resolve resolved
  | _ => trivial

theorem sees_of_listed {db : Database} {actor : User} {invitation : Invitation}
    (folders : ∀ id ∈ invitation.deviceGroupIds, id ∈ User.accessibleDeviceGroupIds db actor.id)
    (groups : ∀ id ∈ invitation.userGroupIds, ∀ folder ∈ UserGroup.grantedDeviceGroupIds db id,
      folder ∈ User.accessibleDeviceGroupIds db actor.id) :
    ∀ folder ∈ handedOut db invitation, actor.sees db folder := by
  intro folder out
  rcases List.mem_append.mp out with direct | viaGroup
  · unfold granted at direct
    split at direct
    · cases direct
    · obtain ⟨group, selected, rfl⟩ := List.mem_map.mp direct
      exact .inr (folders group.id (of_decide_eq_true (List.mem_filter.mp selected).2))
  · obtain ⟨id, member, grant⟩ := List.mem_flatMap.mp viaGroup
    obtain ⟨group, selected, rfl⟩ := List.mem_map.mp member
    exact .inr (groups group.id (of_decide_eq_true (List.mem_filter.mp selected).2) folder grant)

/-- What a delegate may manage, it could grant. -/
theorem sees_of_mayManage {db : Database} {actor : User} {invitation : Invitation}
    (delegate : actor.isAdmin = false)
    (may : InvitationManager.mayManage db actor invitation = true) :
    invitation.isAdmin = false ∧ ∀ folder ∈ handedOut db invitation, actor.sees db folder := by
  simp only [InvitationManager.mayManage, delegate, Bool.false_or, Bool.and_eq_true,
    Bool.not_eq_true', List.all_eq_true, decide_eq_true_eq] at may
  obtain ⟨⟨plain, folders⟩, groups⟩ := may
  refine ⟨plain, sees_of_listed (fun id listed => ?_) fun id listed => ?_⟩
  · exact ((AuthorizesConsole.mem_grantableDeviceGroupIds delegate).mp (folders id listed)).2
  · exact (AuthorizesConsole.mem_grantableUserGroupIds delegate (groups id listed)).2

theorem sees_of_clamp {s : Onboarding} {actor : User} (delegate : actor.isAdmin = false)
    (form : InvitationManager.Form) (tokenHash : String) (now : Stamp) (id : Nat) :
    let invitation := InvitationManager.issue s (InvitationManager.clamp s.tables.db actor form)
      actor.id tokenHash now id
    invitation.isAdmin = false ∧
      ∀ folder ∈ handedOut s.tables.db invitation, actor.sees s.tables.db folder := by
  have clamped : InvitationManager.clamp s.tables.db actor form =
      { form with
        isAdmin := false
        deviceGroupIds :=
          AuthorizesConsole.grantableDeviceGroupIds s.tables.db actor form.deviceGroupIds
        userGroupIds :=
          AuthorizesConsole.grantableUserGroupIds s.tables.db actor form.userGroupIds } := by
    unfold InvitationManager.clamp
    rw [delegate]
    rfl
  simp only [InvitationManager.issue, clamped]
  refine ⟨trivial, sees_of_listed (fun id listed => ?_) fun id listed => ?_⟩
  · exact ((AuthorizesConsole.mem_grantableDeviceGroupIds delegate).mp listed).2
  · exact (AuthorizesConsole.mem_grantableUserGroupIds delegate listed).2

theorem clamped_save (s : Onboarding) (actorId : Nat) (form : InvitationManager.Form)
    (plain : String) (now : Stamp) : Clamped lib isEmail s (.save actorId form plain now) := by
  intro actor found delegate invitation after new
  have found : s.tables.db.users.find? actorId = some actor := found
  simp only [step, handle, found, Option.bind_some] at after
  unfold InvitationManager.save at after
  split at after
  · exact absurd after new
  · simp only [Option.getD_some] at after
    rcases Table.mem_insert.mp after with old | rfl
    · exact absurd old new
    · exact sees_of_clamp delegate form (lib.sha256 plain) now _

theorem clamped_resend (s : Onboarding) (actorId id : Nat) (plain : String) (now : Stamp) :
    Clamped lib isEmail s (.resend actorId id plain now) := by
  intro actor found delegate invitation after new
  have found : s.tables.db.users.find? actorId = some actor := found
  simp only [step, handle, found, Option.bind_some] at after
  unfold InvitationManager.resend at after
  split at after
  · exact absurd after new
  · split at after
    · exact absurd after new
    · next before pending =>
      split at after
      · exact absurd after new
      · next may =>
        have may : InvitationManager.mayManage s.tables.db actor before = true := by
          simpa using may
        obtain ⟨row, present, rfl⟩ := List.mem_map.mp after
        split at new
        · next hit =>
          have same : row = before := by
            have stored := (Option.filter_eq_some_iff.mp pending).1
            have key := (Table.find?_eq_some_iff _).mp stored
            exact Table.eq_of_id_eq _ present key.1 ((of_decide_eq_true hit).trans key.2.symm)
          rw [if_pos hit, same]
          exact sees_of_mayManage delegate may
        · next miss => exact absurd present new

theorem clamped (s : Onboarding) (event : Event) : Clamped lib isEmail s event := by
  cases event with
  | save actor form plain now => exact clamped_save s actor form plain now
  | resend actor id plain now => exact clamped_resend s actor id plain now
  | _ =>
      intro actor found
      cases found

/-- In every run, what a delegate issues or sends again is within its sight, and an acceptance
begins only while the inviter stands; and the accounts created in a run are within the
authority of their inviters exactly when each acceptance meets the condition. -/
theorem invitation_authority (lib : Primitives) (isEmail : String → Bool) (s : Onboarding)
    (events : List Event) :
    Runs.Along (step lib isEmail)
        (fun s event => Clamped lib isEmail s event ∧ Admitted lib isEmail s event) s events ∧
      (Runs.Along (step lib isEmail) (Keeps lib isEmail) s events ↔
        Runs.Along (step lib isEmail) Meets s events) := by
  constructor
  · exact Runs.Along.intro (fun s event => ⟨clamped s event, admitted s event⟩) events s
  · exact Runs.Along.congr keeps_iff events s

/-- A delegate with the users, one of two folders or none, and a user group with the given
folders. -/
def office (own folders : List Nat) : Database where
  roles := Table.empty.insert fun id =>
    { id, name := "User managers", permissions := fun _ => .rw }
  users := Table.empty.insert fun id => { id, username := "mona", roleId := some 1 }
  userGroups := Table.empty.insert fun id => { id, name := "Staff" }
  deviceGroups := (Table.empty.insert fun id => { id, name := "Sales" }).insert fun id =>
    { id, name := "Accounts" }
  deviceGroupUser := own.map fun folder => (folder, 1)
  deviceGroupUserGroup := folders.map fun folder => (folder, 1)

def officeTables (own folders : List Nat) : Tables where
  db := office own folders
  issued := by
    refine ⟨nofun, fun row direct => ?_, nofun⟩
    obtain ⟨folder, _, rfl⟩ := List.mem_map.mp direct
    exact Nat.lt_succ_self 1

/-- The delegate invites into the user group and its own folder. -/
def invites : Event :=
  .save 1
    { email := "bob@example.com"
      username := "bob"
      userGroupIds := [1]
      deviceGroupIds := [1] }
    "inv" 0

def accepts : List Event :=
  [.check 0 "inv" { password := "correct horse", passwordConfirmation := "correct horse" } 10,
    .create 0 20]

/-- The acceptance that comes of it. -/
def bob : Acceptance where
  invitation :=
    { id := 1
      email := "bob@example.com"
      username := "bob"
      tokenHash := "inv"
      userGroupIds := [1]
      deviceGroupIds := [1]
      invitedBy := some 1
      expiresAt := 172800 }
  name := ""

def mona : User where
  id := 1
  username := "mona"
  roleId := some 1

/-- Nothing changes between the invitation and its acceptance. -/
theorem bob_within_authority :
    Runs.Along (step .plain fun _ => true) (Keeps .plain fun _ => true)
      { tables := officeTables [1] [] } (invites :: accepts) := by
  refine (invitation_authority .plain (fun _ => true) _ _).2.mpr
    ⟨trivial, trivial, ?_, trivial⟩
  intro acceptance under _
  obtain rfl : acceptance = bob :=
    Option.some.inj (under.symm.trans (by decide +kernel))
  exact ⟨mona, by decide +kernel, by decide +kernel, by decide +kernel⟩

theorem not_within {db : Database} {account inviter : User} (folder : Nat)
    (open' : folder ∈ User.accessibleDeviceGroupIds db account.id)
    (unseen : ¬ inviter.sees db folder) : ¬ Within db inviter account :=
  fun within => unseen (within.folders folder open')

/-- The user group is given a folder that the delegate does not see, or the delegate loses its
folder, and then the invitation is accepted. -/
theorem bob_sees_unseen :
    (¬ Runs.Along (step .plain fun _ => true) (Keeps .plain fun _ => true)
        { tables := officeTables [1] [] } (invites :: .change (officeTables [1] [2]) :: accepts)) ∧
      ¬ Runs.Along (step .plain fun _ => true) (Keeps .plain fun _ => true)
        { tables := officeTables [1] [] } (invites :: .change (officeTables [] []) :: accepts) := by
  constructor
  · rintro ⟨_, _, _, keeps, _⟩
    obtain ⟨account, found, inviter, invited, within⟩ :=
      keeps bob (by decide +kernel) 2 (by decide +kernel)
    obtain rfl : inviter = mona := Option.some.inj (invited.symm.trans (by decide +kernel))
    obtain rfl : account = newUser bob 2 := Option.some.inj (found.symm.trans (by decide +kernel))
    exact not_within 2 (by decide +kernel) (by decide +kernel) within
  · rintro ⟨_, _, _, keeps, _⟩
    obtain ⟨account, found, inviter, invited, within⟩ :=
      keeps bob (by decide +kernel) 2 (by decide +kernel)
    obtain rfl : inviter = mona := Option.some.inj (invited.symm.trans (by decide +kernel))
    obtain rfl : account = newUser bob 2 := Option.some.inj (found.symm.trans (by decide +kernel))
    exact not_within 1 (by decide +kernel) (by decide +kernel) within

end Onboarding
end CortenDesk
