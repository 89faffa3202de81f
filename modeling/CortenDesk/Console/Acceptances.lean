import CortenDesk.Console.InvitedAuthority

/-!
An invitation makes one account, the one that was asked for. Its terms are columns that nothing
writes after it is issued, so it does not matter who accepts it, how often at a time and what the
form says; and the conditional update of the transaction lets one acceptance through.
-/
namespace CortenDesk
open Php

namespace Onboarding
open InvitationController

/-- An account, with what it belongs to when it is created. -/
structure NewAccount where
  invitation : Nat
  user : User
  userGroups : List Nat
  folders : List Nat

/-- A run with the invitations that it issued and the accounts that it created. -/
structure Ledger where
  state : Onboarding
  offers : List Invitation := []
  accounts : List NewAccount := []

variable (lib : Primitives) (isEmail : String → Bool)

/-- The invitation that a call issues. -/
def offered (s : Onboarding) : Event → Option Invitation
  | .save actor form plain now =>
      (s.tables.db.users.find? actor).bind fun actor =>
        if (InvitationManager.save isEmail s actor form (lib.sha256 plain) now).isSome then
          some (InvitationManager.issue s (InvitationManager.clamp s.tables.db actor form) actor.id
            (lib.sha256 plain) now s.invitations.nextId)
        else none
  | _ => none

def accountOf (db : Database) (acceptance : Acceptance) (userId : Nat) : Option NewAccount :=
  (db.users.find? userId).map fun user => {
    invitation := acceptance.invitation.id, user
    userGroups := (db.userGroupUser.filter fun row => row.2 = userId).map Prod.fst
    folders := (db.deviceGroupUser.filter fun row => row.2 = userId).map Prod.fst }

/-- The account that a call creates. -/
def created (s : Onboarding) : Event → Option NewAccount
  | .create request now =>
      (s.accepting request).bind fun acceptance =>
        match (create s acceptance now).2 with
        | .signedIn userId => accountOf (create s acceptance now).1.tables.db acceptance userId
        | _ => none
  | _ => none

def record (ledger : Ledger) (event : Event) : Ledger where
  state := step lib isEmail ledger.state event
  offers := ledger.offers ++ (offered lib isEmail ledger.state event).toList
  accounts := ledger.accounts ++ (created ledger.state event).toList

/-- What the issuer of an invitation decides. -/
structure SameTerms (offer row : Invitation) : Prop where
  id : row.id = offer.id
  email : row.email = offer.email
  username : row.username = offer.username
  isAdmin : row.isAdmin = offer.isAdmin
  userGroupIds : row.userGroupIds = offer.userGroupIds
  deviceGroupIds : row.deviceGroupIds = offer.deviceGroupIds

/-- The account has what was offered or less, and no role. -/
structure AsOffered (offer : Invitation) (account : NewAccount) : Prop where
  invitation : account.invitation = offer.id
  username : account.user.username = offer.username
  email : account.user.email = some offer.email
  isAdmin : account.user.isAdmin = offer.isAdmin
  roleId : account.user.roleId = none
  userGroups : ∀ group ∈ account.userGroups, group ∈ offer.userGroupIds
  folders : ∀ folder ∈ account.folders, folder ∈ offer.deviceGroupIds

theorem SameTerms.refl (row : Invitation) : SameTerms row row := ⟨rfl, rfl, rfl, rfl, rfl, rfl⟩

theorem SameTerms.trans {a b c : Invitation} (ab : SameTerms a b) (bc : SameTerms b c) : SameTerms a c :=
  ⟨bc.id.trans ab.id, bc.email.trans ab.email, bc.username.trans ab.username,
    bc.isAdmin.trans ab.isAdmin, bc.userGroupIds.trans ab.userGroupIds,
    bc.deviceGroupIds.trans ab.deviceGroupIds⟩

/-- What a call does to the invitations: it issues some, and of the others it may write anything but
the terms, and no acceptance is taken back. -/
structure Evolves (before after : Table Invitation) (new : List Invitation) : Prop where
  next : before.nextId ≤ after.nextId
  numbered : ∀ offer ∈ new, offer.id = before.nextId
  rows : ∀ row ∈ after.rows, row ∈ new ∨ ∃ old ∈ before.rows, SameTerms old row ∧
    (old.acceptedAt.isSome = true → row.acceptedAt.isSome = true)

theorem Evolves.refl (t : Table Invitation) : Evolves t t [] where
  next := Nat.le_refl _
  numbered _ none := absurd none List.not_mem_nil
  rows row listed := .inr ⟨row, listed, .refl row, id⟩

theorem Evolves.update (t : Table Invitation) {p : Invitation → Bool} {f : Invitation → Invitation}
    (keeps : ∀ row, Row.id (f row) = Row.id row) (terms : ∀ row, SameTerms row (f row))
    (accepted : ∀ row, row.acceptedAt.isSome = true → (f row).acceptedAt.isSome = true) :
    Evolves t (t.update p f keeps) [] where
  next := Nat.le_refl _
  numbered _ none := absurd none List.not_mem_nil
  rows row listed := by
    obtain ⟨old, present, rfl⟩ := Table.mem_update.mp listed
    refine .inr ⟨old, present, ?_⟩
    split
    · exact ⟨terms old, accepted old⟩
    · exact ⟨.refl old, id⟩

theorem Evolves.update_update {t u : Table Invitation} (evolves : Evolves t u [])
    {p : Invitation → Bool} {f : Invitation → Invitation}
    (keeps : ∀ row, Row.id (f row) = Row.id row) (terms : ∀ row, SameTerms row (f row))
    (accepted : ∀ row, row.acceptedAt.isSome = true → (f row).acceptedAt.isSome = true) :
    Evolves t (u.update p f keeps) [] where
  next := evolves.next
  numbered _ none := absurd none List.not_mem_nil
  rows row listed := by
    have later := (Evolves.update u (p := p) keeps terms accepted).rows row listed
    obtain ⟨middle, present, same, kept⟩ := later.resolve_left List.not_mem_nil
    obtain ⟨old, first, same', kept'⟩ := (evolves.rows middle present).resolve_left List.not_mem_nil
    exact .inr ⟨old, first, same'.trans same, kept ∘ kept'⟩

theorem Evolves.delete (t : Table Invitation) (p : Invitation → Bool) : Evolves t (t.delete p) [] where
  next := Nat.le_refl _
  numbered _ none := absurd none List.not_mem_nil
  rows row listed := .inr ⟨row, (Table.mem_delete.mp listed).1, .refl row, id⟩

theorem Evolves.insert (t : Table Invitation) {make : Nat → Invitation}
    (given : ∀ n, Row.id (make n) = n) : Evolves t (t.insert make given) [make t.nextId] where
  next := Nat.le_succ _
  numbered offer listed := by rw [List.mem_singleton.mp listed]; exact given _
  rows row listed := by
    rcases Table.mem_insert.mp listed with old | rfl
    · exact .inr ⟨row, old, .refl row, id⟩
    · exact .inl (List.mem_singleton.mpr rfl)

variable {lib isEmail} {s : Onboarding}

theorem evolves_save (actorId : Nat) (form : InvitationManager.Form) (plain : String) (now : Stamp) :
    Evolves s.invitations (step lib isEmail s (.save actorId form plain now)).invitations
      (offered lib isEmail s (.save actorId form plain now)).toList := by
  simp only [step, handle, offered]
  cases s.tables.db.users.find? actorId with
  | none => exact .refl _
  | some actor =>
      simp only [Option.bind_some, InvitationManager.save]
      split
      · exact .refl _
      · exact Evolves.insert s.invitations fun _ => rfl

theorem evolves_resend (actorId id : Nat) (plain : String) (now : Stamp) :
    Evolves s.invitations (step lib isEmail s (.resend actorId id plain now)).invitations [] := by
  simp only [step, handle]
  cases s.tables.db.users.find? actorId with
  | none => exact .refl _
  | some actor =>
      simp only [Option.bind_some, InvitationManager.resend]
      split
      · exact .refl _
      · split
        · exact .refl _
        · split
          · exact .refl _
          · refine .update _ ?_ ?_ fun _ kept => kept
            · exact fun _ => rfl
            · exact fun row => ⟨rfl, rfl, rfl, rfl, rfl, rfl⟩

theorem evolves_revoke (actorId id : Nat) :
    Evolves s.invitations (step lib isEmail s (.revoke actorId id)).invitations [] := by
  simp only [step, handle]
  cases s.tables.db.users.find? actorId with
  | none => exact .refl _
  | some actor =>
      simp only [Option.bind_some, InvitationManager.revoke]
      split
      · exact .refl _
      · split
        · exact .refl _
        · split
          · exact .refl _
          · exact .delete _ _

theorem evolves_check (request : Nat) (token : String) (form : Form) (now : Stamp) :
    (step lib isEmail s (.check request token form now)).invitations = s.invitations := by
  simp only [step, handle]
  split <;> rfl

theorem evolves_create (acceptance : Acceptance) (now : Stamp) :
    Evolves s.invitations (create s acceptance now).1.invitations [] := by
  unfold create
  simp only
  split
  · exact .refl _
  · split
    · exact .refl _
    · refine Evolves.update_update (.update _ ?_ ?_ ?_) ?_ ?_ fun _ kept => kept
      · exact fun row => ⟨rfl, rfl, rfl, rfl, rfl, rfl⟩
      · exact fun _ _ => rfl
      · exact fun _ => rfl
      · exact fun row => ⟨rfl, rfl, rfl, rfl, rfl, rfl⟩

theorem evolves (event : Event) : Evolves s.invitations (step lib isEmail s event).invitations
    (offered lib isEmail s event).toList := by
  cases event with
  | save actor form plain now => exact evolves_save actor form plain now
  | resend actor id plain now => exact evolves_resend actor id plain now
  | revoke actor id => exact evolves_revoke actor id
  | check request token form now =>
      rw [evolves_check]
      exact .refl _
  | create request now =>
      simp only [step, handle]
      cases s.accepting request with
      | none => exact .refl _
      | some acceptance => exact evolves_create acceptance now
  | change tables =>
      refine .update _ ?_ ?_ fun _ kept => kept
      · exact fun _ => rfl
      · exact fun row => ⟨rfl, rfl, rfl, rfl, rfl, rfl⟩
  | configure settings => exact .refl _

theorem mem_of_check {tokenHash : String} {form : Form} {now : Stamp} {acceptance : Acceptance}
    (checked : check s tokenHash form now = .ok acceptance) :
    acceptance.invitation ∈ s.invitations.rows := by
  unfold InvitationController.check at checked
  split at checked
  · cases checked
  · next invitation resolved =>
    split at checked
    · cases checked
    · split at checked
      · cases checked
      · obtain rfl := Except.ok.inj checked
        unfold resolve at resolved
        split at resolved
        · cases resolved
        · next found =>
          split at resolved
          · obtain rfl := Except.ok.inj resolved
            exact List.mem_of_find?_eq_some found
          · cases resolved

theorem accepting_save (actorId : Nat) (form : InvitationManager.Form) (plain : String) (now : Stamp) :
    (step lib isEmail s (.save actorId form plain now)).accepting = s.accepting := by
  simp only [step, handle, InvitationManager.save]
  cases s.tables.db.users.find? actorId with
  | none => rfl
  | some actor =>
      rw [Option.bind_some]
      split <;> rfl

theorem accepting_resend (actorId id : Nat) (plain : String) (now : Stamp) :
    (step lib isEmail s (.resend actorId id plain now)).accepting = s.accepting := by
  simp only [step, handle, InvitationManager.resend]
  cases s.tables.db.users.find? actorId with
  | none => rfl
  | some actor =>
      rw [Option.bind_some]
      split
      · rfl
      · split
        · rfl
        · split <;> rfl

theorem accepting_revoke (actorId id : Nat) :
    (step lib isEmail s (.revoke actorId id)).accepting = s.accepting := by
  simp only [step, handle, InvitationManager.revoke]
  cases s.tables.db.users.find? actorId with
  | none => rfl
  | some actor =>
      rw [Option.bind_some]
      split
      · rfl
      · split
        · rfl
        · split <;> rfl

/-- An acceptance in progress holds a row that was there. -/
theorem accepting_step {event : Event} {request : Nat} {acceptance : Acceptance}
    (held : (step lib isEmail s event).accepting request = some acceptance) :
    s.accepting request = some acceptance ∨ acceptance.invitation ∈ s.invitations.rows := by
  cases event with
  | save actor form plain now => exact .inl (accepting_save actor form plain now ▸ held)
  | resend actor id plain now => exact .inl (accepting_resend actor id plain now ▸ held)
  | revoke actor id => exact .inl (accepting_revoke actor id ▸ held)
  | check other token form now =>
      simp only [step, handle] at held
      split at held
      · exact .inl held
      · next checked =>
        by_cases here : request = other
        · subst here
          simp only [Function.update_self, Option.some.injEq] at held
          subst held
          exact .inr (mem_of_check checked)
        · exact .inl (by simpa only [Function.update_of_ne here] using held)
  | create other now =>
      simp only [step, handle] at held
      split at held
      · exact .inl held
      · by_cases here : request = other
        · subst here
          simp only [Function.update_self] at held
          cases held
        · exact .inl (by simpa only [Function.update_of_ne here] using held)
  | change tables => exact .inl held
  | configure settings => exact .inl held

/-- The account that comes of an acceptance. -/
theorem created_eq_some {event : Event} {account : NewAccount} (made : created s event = some account) :
    ∃ request now acceptance, event = .create request now ∧ s.accepting request = some acceptance ∧
      Goes s acceptance now ∧
      accountOf (createUser s.tables.db acceptance) acceptance s.tables.db.users.nextId = some account := by
  cases event with
  | create request now =>
      obtain ⟨acceptance, held, made⟩ := Option.bind_eq_some_iff.mp made
      refine ⟨request, now, acceptance, rfl, held, ?_⟩
      cases answered : (create s acceptance now).2 with
      | signedIn userId =>
          obtain ⟨goes, rfl⟩ := create_signedIn.mp answered
          simp only [answered, create_db goes] at made
          exact ⟨goes, made⟩
      | _ => simp [answered] at made
  | _ => cases made

/-- Nothing is anybody's before the account exists. -/
theorem asOffered_of_accountOf {db : Database} (issued : Reach.Issued db) {acceptance : Acceptance}
    {account : NewAccount}
    (made : accountOf (createUser db acceptance) acceptance db.users.nextId = some account) :
    AsOffered acceptance.invitation account := by
  have synced {rows : List (Nat × Nat)} {ids : List Nat} (below : ∀ row ∈ rows, row.2 < db.users.nextId)
      {first : Nat} (listed : first ∈ ((Pivot.sync rows db.users.nextId ids).filter fun row =>
        row.2 = db.users.nextId).map Prod.fst) : first ∈ ids := by
    obtain ⟨row, mem, rfl⟩ := List.mem_map.mp listed
    obtain ⟨mem, own⟩ := List.mem_filter.mp mem
    rcases Pivot.mem_sync.mp mem with ⟨old, -⟩ | ⟨new, -⟩
    · exact absurd (of_decide_eq_true own) (Nat.ne_of_lt (below row old))
    · exact new
  rw [accountOf, find?_new, Option.map_some] at made
  obtain rfl := Option.some.inj made
  refine ⟨rfl, rfl, rfl, rfl, rfl, fun group listed => ?_, fun folder listed => ?_⟩
  · have mem := synced issued.members listed
    obtain ⟨row, chosen, rfl⟩ := List.mem_map.mp mem
    exact of_decide_eq_true (List.mem_filter.mp chosen).2
  · have mem := synced issued.granted listed
    unfold granted at mem
    split at mem
    · cases mem
    · obtain ⟨row, chosen, rfl⟩ := List.mem_map.mp mem
      exact of_decide_eq_true (List.mem_filter.mp chosen).2

theorem AsOffered.of_terms {offer row : Invitation} {account : NewAccount} (as : AsOffered row account)
    (same : SameTerms offer row) : AsOffered offer account where
  invitation := as.invitation.trans same.id
  username := as.username.trans same.username
  email := as.email.trans (congrArg some same.email)
  isAdmin := as.isAdmin.trans same.isAdmin
  roleId := as.roleId
  userGroups group listed := same.userGroupIds ▸ as.userGroups group listed
  folders folder listed := same.deviceGroupIds ▸ as.folders folder listed

/-- The invitation can be accepted no more. -/
def Spent (invitations : Table Invitation) (id : Nat) : Prop :=
  id < invitations.nextId ∧ ∀ row ∈ invitations.rows, row.id = id → row.acceptedAt.isSome = true

theorem Spent.evolves {before after : Table Invitation} {new : List Invitation} {id : Nat}
    (spent : Spent before id) (evolves : Evolves before after new) : Spent after id := by
  refine ⟨Nat.lt_of_lt_of_le spent.1 evolves.next, fun row listed same => ?_⟩
  rcases evolves.rows row listed with new | ⟨old, present, terms, kept⟩
  · have numbered := evolves.numbered row new
    rw [same] at numbered
    exact absurd numbered (Nat.ne_of_lt spent.1)
  · exact kept (spent.2 old present (terms.id ▸ same))

/-- The transaction finds the one row of its invitation, not accepted yet. -/
theorem row_of_goes {acceptance : Acceptance} {now : Stamp} (goes : Goes s acceptance now) :
    ∃ row ∈ s.invitations.rows, row.id = acceptance.invitation.id ∧
      claimable acceptance.invitation.id now row = true ∧ row.acceptedAt = none := by
  obtain ⟨row, listed, ready⟩ := List.any_eq_true.mp goes.1
  have parts := ready
  simp only [claimable, Invitation.live, Bool.and_eq_true, decide_eq_true_eq,
    Option.isNone_iff_eq_none] at parts
  exact ⟨row, listed, parts.1, ready, parts.2.1⟩

theorem not_spent_of_goes {acceptance : Acceptance} {now : Stamp} (goes : Goes s acceptance now) :
    ¬ Spent s.invitations acceptance.invitation.id := by
  intro spent
  obtain ⟨row, listed, same, -, vacant⟩ := row_of_goes goes
  have accepted := spent.2 row listed same
  rw [vacant] at accepted
  cases accepted

theorem invitations_create {acceptance : Acceptance} {now : Stamp} (goes : Goes s acceptance now) :
    (create s acceptance now).1.invitations =
      (s.invitations.update (claimable acceptance.invitation.id now) fun row =>
        { row with acceptedAt := some now }).update (fun row => row.id = acceptance.invitation.id)
        fun row => { row with acceptedUserId := some s.tables.db.users.nextId } := by
  unfold create
  simp only [goes.1, goes.2, Bool.not_true, Bool.false_eq_true, if_false]

theorem spent_of_goes {request : Nat} {acceptance : Acceptance} {now : Stamp}
    (held : s.accepting request = some acceptance) (goes : Goes s acceptance now) :
    Spent (step lib isEmail s (.create request now)).invitations acceptance.invitation.id := by
  obtain ⟨claimed, present, own, ready, -⟩ := row_of_goes goes
  have after : (step lib isEmail s (.create request now)).invitations =
      (create s acceptance now).1.invitations := by
    simp only [step, handle, held]
  rw [after, invitations_create goes]
  refine ⟨own ▸ s.invitations.below claimed present, fun row listed same => ?_⟩
  obtain ⟨middle, between, rfl⟩ := Table.mem_update.mp listed
  obtain ⟨old, first, rfl⟩ := Table.mem_update.mp between
  by_cases hit : claimable acceptance.invitation.id now old = true
  · rw [if_pos hit]
    split <;> rfl
  · rw [if_neg hit] at same ⊢
    have key : old.id = acceptance.invitation.id := by
      split at same
      · exact same
      · exact same
    have one := s.invitations.eq_of_id_eq first present (key.trans own.symm)
    exact absurd (one ▸ ready) hit

/-- What is known of a run. -/
structure Faithful (ledger : Ledger) : Prop where
  rows : ∀ row ∈ ledger.state.invitations.rows, ∃ offer ∈ ledger.offers, SameTerms offer row
  accepting : ∀ request acceptance, ledger.state.accepting request = some acceptance →
    ∃ offer ∈ ledger.offers, SameTerms offer acceptance.invitation
  once : (ledger.accounts.map NewAccount.invitation).Nodup
  spent : ∀ account ∈ ledger.accounts, Spent ledger.state.invitations account.invitation
  asOffered : ∀ account ∈ ledger.accounts, ∃ offer ∈ ledger.offers, AsOffered offer account

theorem Faithful.record {ledger : Ledger} (faithful : Faithful ledger) (event : Event) :
    Faithful (record lib isEmail ledger event) := by
  have evolves := @evolves lib isEmail ledger.state event
  have earlier {P : Invitation → Prop} (told : ∃ offer ∈ ledger.offers, P offer) :
      ∃ offer ∈ ledger.offers ++ (offered lib isEmail ledger.state event).toList, P offer := by
    obtain ⟨offer, listed, holds⟩ := told
    exact ⟨offer, List.mem_append_left _ listed, holds⟩
  have stays {id : Nat} (spent : Spent ledger.state.invitations id) :
      Spent (step lib isEmail ledger.state event).invitations id := spent.evolves evolves
  refine ⟨?_, ?_, ?_, ?_, ?_⟩
  · intro row listed
    rcases evolves.rows row listed with new | ⟨old, present, terms, -⟩
    · exact ⟨row, List.mem_append_right _ new, .refl row⟩
    · obtain ⟨offer, told, same⟩ := faithful.rows old present
      exact earlier ⟨offer, told, same.trans terms⟩
  · intro request acceptance held
    rcases accepting_step held with before | present
    · exact earlier (faithful.accepting request acceptance before)
    · exact earlier (faithful.rows _ present)
  · cases made : created ledger.state event with
    | none => simpa [CortenDesk.Onboarding.record, made] using faithful.once
    | some account =>
        obtain ⟨request, now, acceptance, rfl, held, goes, new⟩ := created_eq_some made
        have own := (asOffered_of_accountOf ledger.state.tables.issued new).invitation
        have apart : account.invitation ∉ ledger.accounts.map NewAccount.invitation := by
          intro listed
          obtain ⟨other, old, same⟩ := List.mem_map.mp listed
          exact not_spent_of_goes goes (own ▸ same ▸ faithful.spent other old)
        simp only [CortenDesk.Onboarding.record, made, Option.toList_some, List.map_append,
          List.map_singleton]
        exact List.nodup_append.mpr ⟨faithful.once, List.nodup_singleton _, fun a listed b single same =>
          apart (List.mem_singleton.mp single ▸ same ▸ listed)⟩
  · intro account listed
    rcases List.mem_append.mp listed with old | new
    · exact stays (faithful.spent account old)
    · have made : created ledger.state event = some account := Option.mem_toList.mp new
      obtain ⟨request, now, acceptance, rfl, held, goes, new⟩ := created_eq_some made
      rw [(asOffered_of_accountOf ledger.state.tables.issued new).invitation]
      exact spent_of_goes held goes
  · intro account listed
    rcases List.mem_append.mp listed with old | new
    · exact earlier (faithful.asOffered account old)
    · have made : created ledger.state event = some account := Option.mem_toList.mp new
      obtain ⟨request, now, acceptance, rfl, held, goes, new⟩ := created_eq_some made
      obtain ⟨offer, told, same⟩ := faithful.accepting request acceptance held
      exact earlier ⟨offer, told, (asOffered_of_accountOf ledger.state.tables.issued new).of_terms same⟩

/-- However acceptances of any number of browsers are interleaved with each other and with all that
the console does to the invitations and the tables, an invitation makes at most one account, and each
account is one that a call of the console asked for: its name, address, groups and folders, and
whether it is an administrator, are of the invitation as it was issued. -/
theorem invitations_redeemed_once (lib : Primitives) (isEmail : String → Bool) (tables : Tables)
    (settings : Settings) (events : List Event) :
    let ledger := Runs.run (record lib isEmail) { state := { tables, settings } } events
    (ledger.accounts.map NewAccount.invitation).Nodup ∧
      ∀ account ∈ ledger.accounts, ∃ offer ∈ ledger.offers, AsOffered offer account := by
  have start : Faithful { state := { tables, settings } } := {
    rows := fun _ none => absurd none List.not_mem_nil
    accepting := fun _ _ held => nomatch held
    once := .nil
    spent := fun _ none => absurd none List.not_mem_nil
    asOffered := fun _ none => absurd none List.not_mem_nil }
  have faithful : Faithful (Runs.run (record lib isEmail) { state := { tables, settings } } events) :=
    Runs.invariant (fun _ event before => before.record event) _ events start
  exact ⟨faithful.once, faithful.asOffered⟩

end Onboarding
end CortenDesk
