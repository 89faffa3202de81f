import CortenDesk.Lib.Runs
import CortenDesk.Sso.Resolver

/-!
What a sign-in can do to the users table, and to whom it opens a session. Each write
of the resolver is a `save` of a row that exists or one insertion; what they keep is
proved once for each and carried through the three matching stages.
-/
namespace CortenDesk
open Php

/-- No two rows hold one identity. -/
def IdentityUnique (users : Table User) : Prop :=
  ∀ a ∈ users.rows, ∀ b ∈ users.rows, a.oidcIss.isSome → a.oidcSub.isSome →
    a.oidcIss = b.oidcIss → a.oidcSub = b.oidcSub → a = b

/-- Writing a row that no other row conflicts with keeps identities unique. -/
theorem identityUnique_write {users users' : Table User} {user : User}
    (unique : IdentityUnique users)
    (free : ∀ other ∈ users.rows, user.conflicts other = false)
    (written : ∀ row ∈ users'.rows, row = user ∨ (row ∈ users.rows ∧ row.id ≠ user.id)) :
    IdentityUnique users' := by
  have apart {other : User} (present : other ∈ users.rows) (distinct : other.id ≠ user.id)
      (iss : user.oidcIss.isSome) (sub : user.oidcSub.isSome)
      (sameIss : other.oidcIss = user.oidcIss) : other.oidcSub ≠ user.oidcSub := by
    intro sameSub
    have := free other present
    simp [User.conflicts, distinct, iss, sub, sameIss, sameSub] at this
  intro a ha b hb iss sub sameIss sameSub
  obtain rfl | ⟨oldA, otherA⟩ := written a ha <;> obtain rfl | ⟨oldB, otherB⟩ := written b hb
  · rfl
  · exact absurd sameSub.symm (apart oldB otherB iss sub sameIss.symm)
  · exact absurd sameSub (apart oldA otherA (sameIss ▸ iss) (sameSub ▸ sub) sameIss)
  · exact unique a oldA b oldB iss sub sameIss sameSub

namespace OidcUserResolver

section Save
variable {db db' : Database} {user : User}

theorem save_eq_some_iff : save db user = some db' ↔
    (∀ other ∈ db.users.rows, user.conflicts other = false) ∧
      { db with
        users := db.users.update (·.id = user.id) (fun row => { user with id := row.id }) } =
        db' := by
  unfold save
  split
  · next conflict =>
    simp only [List.any_eq_true] at conflict
    obtain ⟨other, present, clash⟩ := conflict
    exact iff_of_false nofun fun ⟨free, _⟩ => by simp [free other present] at clash
  · next free =>
    have free : ∀ other ∈ db.users.rows, user.conflicts other = false := by simpa using free
    rw [Option.some.injEq]
    exact (and_iff_right free).symm

/-- The rows after a save: the saved one, and the others as they were. -/
theorem mem_save (saved : save db user = some db') {row : User} :
    row ∈ db'.users.rows ↔
      (row = user ∧ ∃ old ∈ db.users.rows, old.id = user.id) ∨
      (row ∈ db.users.rows ∧ row.id ≠ user.id) := by
  obtain ⟨_, rfl⟩ := save_eq_some_iff.mp saved
  rw [Table.mem_update]
  constructor
  · rintro ⟨old, present, rfl⟩
    by_cases same : old.id = user.id
    · exact .inl ⟨by simp [same], old, present, same⟩
    · simp [same, present]
  · rintro (⟨rfl, old, present, same⟩ | ⟨present, other⟩)
    · exact ⟨old, present, by simp [same]⟩
    · exact ⟨row, present, by simp [other]⟩

theorem identityUnique_save (saved : save db user = some db')
    (unique : IdentityUnique db.users) : IdentityUnique db'.users :=
  identityUnique_write unique (save_eq_some_iff.mp saved).1 fun _ present =>
    ((mem_save saved).mp present).imp_left And.left

theorem id_of_mem_save (saved : save db user = some db') {row : User}
    (h : row ∈ db'.users.rows) : ∃ old ∈ db.users.rows, old.id = row.id := by
  rcases (mem_save saved).mp h with ⟨rfl, old, present, same⟩ | ⟨present, _⟩
  · exact ⟨old, present, same⟩
  · exact ⟨row, present, rfl⟩

end Save

/-- What an admission does: nothing, or a profile sync of the row, which keeps its
identity and its standing. -/
theorem admitUser_cases (db : Database) (user : User) (email : String) (claims : Claims) :
    (∃ answer, admitUser db user email claims = (db, answer) ∧ answer.user? = none) ∨
    (user.oidcStatus ≠ some "pending" ∧ user.isActive = true ∧
      (admitUser db user email claims = (db, .ok user) ∨
        ∃ name db', claims.text "name" = some name ∧
          save db (syncedProfile user name email) = some db' ∧
          admitUser db user email claims = (db', .ok (syncedProfile user name email)))) := by
  unfold admitUser
  split
  · exact .inl ⟨_, rfl, rfl⟩
  · next settled =>
    split
    · exact .inl ⟨_, rfl, rfl⟩
    · next active =>
      have active : user.isActive = true := by simpa using active
      split
      · exact .inl ⟨_, rfl, rfl⟩
      · next name named =>
        dsimp only
        split
        · exact .inr ⟨settled, active, .inl rfl⟩
        · split
          · exact .inl ⟨_, rfl, rfl⟩
          · next db' saved =>
            exact .inr ⟨settled, active, .inr ⟨name, db', named, saved, rfl⟩⟩

def newUserPolicy (settings : Settings) : String :=
  settings.get "oidc_new_user_policy" "deny"

theorem joinGroup_users {db joined : Database} {userId groupId : Nat}
    (h : joinGroup db userId groupId = some joined) : joined.users = db.users := by
  unfold joinGroup at h
  split at h
  · cases h
    rfl
  · split at h
    · cases h
    · cases h
      rfl

/-- What a provisioning does: nothing, or one insertion under a policy that allows it. -/
theorem provision_cases (settings : Settings) (db : Database) (iss sub email : String)
    (verification : Verification) (claims : Claims) :
    let result := provision settings db iss sub email verification claims
    (∃ answer, result = (db, answer) ∧ answer.user? = none) ∨
    ((newUserPolicy settings = "pending" ∨ newUserPolicy settings = "active") ∧
      ∃ username name,
        let make := provisioned settings (newUserPolicy settings) iss sub email username name
        (∀ other ∈ db.users.rows, (make db.users.nextId).conflicts other = false) ∧
        result.1.users = db.users.insert make ∧
        ∀ user, result.2.user? = some user →
          user = make db.users.nextId ∧ newUserPolicy settings ≠ "pending") := by
  unfold provision
  dsimp only
  rw [← newUserPolicy]
  split
  · exact .inl ⟨_, rfl, rfl⟩
  · next policy =>
    have policy : newUserPolicy settings = "pending" ∨ newUserPolicy settings = "active" := by
      simpa [or_iff_not_imp_left] using policy
    split
    · exact .inl ⟨_, rfl, rfl⟩
    · split
      · next username name _ _ =>
        split
        · exact .inl ⟨_, rfl, rfl⟩
        · next free =>
          refine .inr ⟨policy, username, name, by simpa using free, ?_⟩
          split
          · refine ⟨rfl, fun user session => ?_⟩
            cases session
          · next joined join =>
            have users : joined.users = db.users.insert (provisioned settings
                (newUserPolicy settings) iss sub email username name) := by
              split at join
              · exact joinGroup_users join
              · cases join
                rfl
            split
            · refine ⟨users, fun user session => ?_⟩
              cases session
            · next settled =>
              refine ⟨users, ?_⟩
              rintro _ ⟨⟩
              exact ⟨rfl, settled⟩
      · exact .inl ⟨_, rfl, rfl⟩

/-- The admission contract of a call for an identity and an email. -/
structure Admits (settings : Settings) (iss sub : String) (db : Database)
    (result : Database × Result) : Prop where
  session : ∀ user, result.2.user? = some user → user ∈ result.1.users.rows ∧
    user.isActive = true ∧ user.oidcStatus ≠ some "pending" ∧
    user.oidcIss = some iss ∧ user.oidcSub = some sub
  created : ∀ user ∈ result.1.users.rows, (∀ old ∈ db.users.rows, old.id ≠ user.id) →
    newUserPolicy settings = "pending" ∨ newUserPolicy settings = "active"
  unique : IdentityUnique db.users → IdentityUnique result.1.users

section Stages
variable {settings : Settings} {iss sub : String} {db : Database}

theorem admits_unchanged {answer : Result} (h : answer.user? = none) :
    Admits settings iss sub db (db, answer) where
  session user some := by simp [h] at some
  created user present fresh := absurd rfl (fresh user present)
  unique := id

/-- A call that goes on after a save keeps the contract of what follows. -/
theorem admits_of_save {db' : Database} {user : User} {result : Database × Result}
    (saved : save db user = some db') (h : Admits settings iss sub db' result) :
    Admits settings iss sub db result where
  session := h.session
  created row present fresh := by
    refine h.created row present fun old hold same => ?_
    obtain ⟨older, holder, hid⟩ := id_of_mem_save saved hold
    exact fresh older holder (hid.trans same)
  unique distinct := h.unique (identityUnique_save saved distinct)

theorem admits_admitUser {user : User} (present : user ∈ db.users.rows)
    (hiss : user.oidcIss = some iss) (hsub : user.oidcSub = some sub) (email : String)
    (claims : Claims) : Admits settings iss sub db (admitUser db user email claims) := by
  obtain ⟨answer, result, none⟩ | ⟨settled, active, result | ⟨name, db', _, saved, result⟩⟩ :=
    admitUser_cases db user email claims <;> rw [result]
  · exact admits_unchanged none
  · refine ⟨?_, fun row hrow fresh => absurd rfl (fresh row hrow), id⟩
    rintro _ ⟨⟩
    exact ⟨present, active, settled, hiss, hsub⟩
  · refine admits_of_save saved ⟨?_, fun row hrow fresh => absurd rfl (fresh row hrow), id⟩
    rintro _ ⟨⟩
    exact ⟨(mem_save saved).mpr (.inl ⟨rfl, user, present, rfl⟩), active, settled, hiss, hsub⟩

theorem admits_link {existing : User} (present : existing ∈ db.users.rows)
    (verification : Verification) (email : String) (claims : Claims) :
    Admits settings iss sub db (link db existing iss sub verification email claims) := by
  unfold link
  split
  · exact admits_unchanged rfl
  · split
    · exact admits_unchanged rfl
    · dsimp only
      split
      · exact admits_unchanged rfl
      · next db' saved =>
        refine admits_of_save saved (admits_admitUser ?_ rfl rfl email claims)
        exact (mem_save saved).mpr (.inl ⟨rfl, existing, present, rfl⟩)

theorem admits_provision (email : String) (verification : Verification) (claims : Claims) :
    Admits settings iss sub db
      (provision settings db iss sub email verification claims) := by
  obtain ⟨answer, result, none⟩ | ⟨policy, username, name, free, users, session⟩ :=
    provision_cases settings db iss sub email verification claims
  · rw [result]
    exact admits_unchanged none
  · refine ⟨fun user some => ?_, fun _ _ _ => policy, fun unique => ?_⟩
    · obtain ⟨rfl, settled⟩ := session user some
      refine ⟨?_, rfl, ?_, rfl, rfl⟩
      · rw [users]
        exact Table.mem_insert.mpr (.inr rfl)
      · simp [provisioned, settled]
    · rw [users]
      refine identityUnique_write unique free fun row present => ?_
      obtain old | new := Table.mem_insert.mp present
      · exact .inr ⟨old, Nat.ne_of_lt (db.users.below row old)⟩
      · exact .inl new

end Stages

theorem mem_of_findIdentity {db : Database} {iss sub : String} {user : User}
    (h : findIdentity db iss sub = some user) :
    user ∈ db.users.rows ∧ user.oidcIss = some iss ∧ user.oidcSub = some sub := by
  refine ⟨List.mem_of_find?_eq_some h, ?_⟩
  simpa using List.find?_some h

theorem mem_of_findEmail {db : Database} {email : String} {user : User}
    (h : findEmail db email = some user) : user ∈ db.users.rows := by
  unfold findEmail at h
  split at h
  · cases h
  · exact List.mem_of_find?_eq_some h

/-- A call ends at a gate before any match, or matches an identity whose domain passed. -/
theorem resolve_cases (settings : Settings) (db : Database) (claims : Claims) :
    (∃ answer, resolve settings db claims = (db, answer) ∧ answer.user? = none) ∨
    (∃ sub iss email, claims.text "sub" = some sub ∧ claims.text "iss" = some iss ∧
      sub ≠ "" ∧ iss ≠ "" ∧ claims.email = some email ∧ domainAllowed settings email = true ∧
      ((∃ user, findIdentity db iss sub = some user ∧
          resolve settings db claims = admitUser db user email claims) ∨
        (findIdentity db iss sub = none ∧ ∃ existing, findEmail db email = some existing ∧
          resolve settings db claims =
            link db existing iss sub (emailVerification settings claims) email claims) ∨
        (findIdentity db iss sub = none ∧ findEmail db email = none ∧
          resolve settings db claims =
            provision settings db iss sub email (emailVerification settings claims)
              claims))) := by
  unfold resolve
  split
  · next sub iss hsub hiss =>
    split
    · exact .inl ⟨_, rfl, rfl⟩
    · next named =>
      simp only [Bool.or_eq_true, decide_eq_true_eq, not_or] at named
      split
      · exact .inl ⟨_, rfl, rfl⟩
      · next email hemail =>
        split
        · exact .inl ⟨_, rfl, rfl⟩
        · next allowed =>
          rw [not_not] at allowed
          refine .inr ⟨sub, iss, email, hsub, hiss, named.1, named.2, hemail, allowed, ?_⟩
          cases known : findIdentity db iss sub with
          | some user => exact .inl ⟨user, rfl, rfl⟩
          | none =>
              cases found : findEmail db email with
              | some existing => exact .inr (.inl ⟨rfl, existing, rfl, rfl⟩)
              | none => exact .inr (.inr ⟨rfl, rfl, rfl⟩)
  · exact .inl ⟨_, rfl, rfl⟩

/-- A session is opened only for a row that is active, settled and carries the claimed
identity, behind the domain allowlist; rows are created only under a policy that allows
it, and identities stay unique. -/
theorem resolve_admission_sound (settings : Settings) (db : Database) (claims : Claims)
    (unique : IdentityUnique db.users) :
    (∀ user, (resolve settings db claims).2 = .ok user →
      user ∈ (resolve settings db claims).1.users.rows ∧ user.isActive = true ∧
      user.oidcStatus ≠ some "pending" ∧ user.oidcIss = claims.text "iss" ∧
      user.oidcSub = claims.text "sub" ∧
      ∃ email, claims.email = some email ∧ domainAllowed settings email = true) ∧
    (∀ user ∈ (resolve settings db claims).1.users.rows,
      (∀ old ∈ db.users.rows, old.id ≠ user.id) →
      newUserPolicy settings = "pending" ∨ newUserPolicy settings = "active") ∧
    IdentityUnique (resolve settings db claims).1.users := by
  obtain ⟨answer, result, none⟩ |
    ⟨sub, iss, email, hsub, hiss, _, _, hemail, allowed, stage⟩ :=
      resolve_cases settings db claims
  · rw [result]
    refine ⟨fun user ok => ?_, fun user present fresh => absurd rfl (fresh user present), unique⟩
    rw [show answer = .ok user from ok] at none
    cases none
  · have admits : Admits settings iss sub db (resolve settings db claims) := by
      obtain ⟨user, known, result⟩ | ⟨_, existing, found, result⟩ | ⟨_, _, result⟩ := stage <;>
        rw [result]
      · obtain ⟨present, hiss, hsub⟩ := mem_of_findIdentity known
        exact admits_admitUser present hiss hsub email claims
      · exact admits_link (mem_of_findEmail found) _ email claims
      · exact admits_provision email _ claims
    refine ⟨fun user ok => ?_, admits.created, admits.unique unique⟩
    obtain ⟨present, active, settled, uiss, usub⟩ := admits.session user (by rw [ok]; rfl)
    exact ⟨present, active, settled, uiss.trans hiss.symm, usub.trans hsub.symm, email, hemail,
      allowed⟩

/-- An empty user table but for one row. -/
def directoryOf (user : User) : Database where
  users := Table.empty.insert fun id => { user with id }

def workClaims (iss sub : String) : Claims :=
  OrderedMap.ofList [("iss", .string iss), ("sub", .string sub), ("email", .string "Ann@Corp.example")]

def annLinked : User :=
  { id := 1, username := "ann", email := some "ann@corp.example",
    oidcIss := some "https://idp.example", oidcSub := some "42", oidcStatus := some "active" }

theorem identityUnique_directoryOf (user : User) :
    IdentityUnique (directoryOf user).users := by
  intro a ha b hb _ _ _ _
  rw [List.mem_singleton.mp ha, List.mem_singleton.mp hb]

theorem resolve_admission_sound_ann :
    ∃ user, (resolve ∅ (directoryOf annLinked) (workClaims "https://idp.example" "42")).2 =
        .ok user ∧
      user ∈ (resolve ∅ (directoryOf annLinked)
        (workClaims "https://idp.example" "42")).1.users.rows ∧
      user.oidcSub = (workClaims "https://idp.example" "42").text "sub" := by
  have ok : (resolve ∅ (directoryOf annLinked) (workClaims "https://idp.example" "42")).2 =
      .ok annLinked := by decide +kernel
  have sound := (resolve_admission_sound ∅ (directoryOf annLinked)
    (workClaims "https://idp.example" "42") (identityUnique_directoryOf annLinked)).1 annLinked ok
  exact ⟨annLinked, ok, sound.1, sound.2.2.2.2.1⟩

end OidcUserResolver
end CortenDesk
