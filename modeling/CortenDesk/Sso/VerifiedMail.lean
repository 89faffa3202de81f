import CortenDesk.Sso.Pinning

/-!
Which addresses a sign-in writes when the console asks for verified ones. Linking and
provisioning look at the verification before they write; the profile sync of a known
identity does not.
-/
namespace CortenDesk
open Php

theorem toLower_toLower (c : Char) : c.toLower.toLower = c.toLower := by
  by_cases upper : 'A'.val ≤ c.val ∧ c.val ≤ 'Z'.val
  · have lower : ¬ c.toLower.val ≤ 'Z'.val := by
      rw [show c.toLower = _ from dif_pos upper]
      simp only [UInt32.le_iff_toNat_le, UInt32.toNat_add] at upper ⊢
      simp at upper ⊢
      omega
    exact dif_neg fun both => lower both.2
  · have same : c.toLower = c := dif_neg upper
    rw [same, same]

theorem strtolower_strtolower (s : String) : strtolower (strtolower s) = strtolower s := by
  rw [strtolower, strtolower, String.toList_ofList, List.map_map]
  exact congrArg String.ofList (List.map_congr_left fun c _ => toLower_toLower c)

/-- The claims say that their address is verified, in one of the forms providers send. -/
def Claims.marksVerified (claims : Claims) : Bool :=
  match claims.get? "email_verified" with
  | some (.bool value) => value
  | some (.int value) => value = 1
  | some (.string value) => strtolower value = "true" || value = "1"
  | _ => false

theorem Claims.strtolower_email {claims : Claims} {email : String}
    (given : claims.email = some email) : strtolower email = email := by
  obtain ⟨text, _, rfl⟩ := Option.map_eq_some_iff.mp given
  exact strtolower_strtolower text

namespace OidcUserResolver

/-- The console asks for verified addresses. -/
def Strict (settings : Settings) : Prop := settings.get "oidc_require_verified_email" "0" = "1"

instance (settings : Settings) : Decidable (Strict settings) :=
  inferInstanceAs (Decidable (_ = _))

theorem emailVerification_eq_verified_iff {settings : Settings} {claims : Claims}
    (strict : Strict settings) :
    emailVerification settings claims = .verified ↔ claims.marksVerified = true := by
  unfold Strict at strict
  rw [emailVerification, if_neg (not_not.mpr strict), Claims.marksVerified]
  cases claims.get? "email_verified" with
  | none => simp
  | some value =>
      cases value with
      | null | float _ | array => simp
      | bool value => cases value <;> simp
      | int value =>
          by_cases one : value = 1
          · simp [one]
          · simp [one]
      | string value =>
          dsimp only
          split <;> simp_all

/-- Every address of a row is one it had before, or the one of the claims, marked as
verified. -/
def AddressesVouched (claims : Claims) (db db' : Database) : Prop :=
  ∀ row ∈ db'.users.rows, row.email.isSome →
    (∃ old ∈ db.users.rows, old.id = row.id ∧ old.email = row.email) ∨
    (claims.email = row.email ∧ claims.marksVerified)

/-- The call passes its gates for a known identity that may sign in, and its claims name
an address that the row does not have, that no other row has and that they do not mark as
verified. -/
def syncsUnverified (settings : Settings) (db : Database) (claims : Claims) : Bool :=
  match claims.text "sub", claims.text "iss", claims.email, claims.text "name" with
  | some sub, some iss, some email, some name =>
      sub ≠ "" && iss ≠ "" && domainAllowed settings email && email ≠ "" &&
        ! claims.marksVerified && (findIdentity db iss sub).any fun user =>
          user.oidcStatus ≠ some "pending" && user.isActive &&
            strtolower (user.email.getD "") ≠ email &&
            db.users.rows.all fun other => ! (syncedProfile user name email).conflicts other
  | _, _, _, _ => false

/-- No address changes but to the given one. -/
def MailKept (email : String) (db db' : Database) : Prop :=
  ∀ row ∈ db'.users.rows, row.email.isSome →
    (∃ old ∈ db.users.rows, old.id = row.id ∧ old.email = row.email) ∨ row.email = some email

section Writes
variable {db db' : Database} {email : String} {claims : Claims}

theorem MailKept.refl (email : String) (db : Database) : MailKept email db db :=
  fun row present _ => .inl ⟨row, present, rfl, rfl⟩

theorem MailKept.trans {db'' : Database} (first : MailKept email db db')
    (next : MailKept email db' db'') : MailKept email db db'' := by
  intro row present held
  obtain ⟨middle, here, id, same⟩ | given := next row present held
  · obtain ⟨old, there, id', same'⟩ | given := first middle here (by rwa [same])
    · exact .inl ⟨old, there, id'.trans id, same'.trans same⟩
    · exact .inr (same ▸ given)
  · exact .inr given

theorem mailKept_save {user existing : User} (saved : save db user = some db')
    (present : existing ∈ db.users.rows) (id : existing.id = user.id)
    (mail : user.email = existing.email ∨ user.email = some email) : MailKept email db db' := by
  intro row here _
  obtain ⟨rfl, _⟩ | ⟨old, _⟩ := (mem_save saved).mp here
  · exact mail.imp_left fun same => ⟨existing, present, id, same.symm⟩
  · exact .inl ⟨row, old, rfl, rfl⟩

/-- The address of a synced profile: the row's own, or the one that is given. -/
theorem email_syncedProfile (user : User) (name email : String) :
    (syncedProfile user name email).email = user.email ∨
    (email ≠ "" ∧ strtolower (user.email.getD "") ≠ email ∧
      (syncedProfile user name email).email = some email) := by
  by_cases fresh : email ≠ "" ∧ strtolower (user.email.getD "") ≠ email
  · exact .inr ⟨fresh.1, fresh.2, by simp [syncedProfile, fresh]⟩
  · refine .inl (if_neg ?_)
    simpa using fresh

theorem mailKept_admitUser {user : User} (present : user ∈ db.users.rows) :
    MailKept email db (admitUser db user email claims).1 := by
  obtain ⟨answer, result, _⟩ | ⟨_, _, result | ⟨name, db', _, saved, result⟩⟩ :=
    admitUser_cases db user email claims <;> rw [result]
  · exact .refl email db
  · exact .refl email db
  · exact mailKept_save saved present rfl
      ((email_syncedProfile user name email).imp_right (·.2.2))

theorem mailKept_link {existing : User} (present : existing ∈ db.users.rows)
    (iss sub : String) (verification : Verification) :
    MailKept email db (link db existing iss sub verification email claims).1 := by
  obtain same | ⟨_, _, db', saved, admitted⟩ :=
    link_cases db existing iss sub verification email claims
  · rw [same]
    exact .refl email db
  · have linked := (mem_save saved).mpr (.inl ⟨rfl, existing, present, rfl⟩)
    rw [admitted]
    exact (mailKept_save saved present rfl (.inl rfl)).trans (mailKept_admitUser linked)

theorem mailKept_provision (settings : Settings) (iss sub : String)
    (verification : Verification) :
    MailKept email db (provision settings db iss sub email verification claims).1 := by
  obtain ⟨answer, result, _⟩ | ⟨_, username, name, _, users, _⟩ :=
    provision_cases settings db iss sub email verification claims
  · rw [result]
    exact .refl email db
  · intro row present held
    rw [users] at present
    obtain old | rfl := Table.mem_insert.mp present
    · exact .inl ⟨row, old, rfl, rfl⟩
    · refine .inr ?_
      simp only [provisioned] at held ⊢
      split at held
      · next written => rw [if_pos written]
      · cases held

/-- Linking an address that is not verified writes nothing. -/
theorem link_unverified {existing : User} {iss sub : String} {verification : Verification}
    (unverified : verification ≠ .verified) :
    (link db existing iss sub verification email claims).1 = db := by
  rw [link, if_pos unverified]

/-- A row provisioned without a verified address has none. -/
theorem mail_provision_unverified (settings : Settings) (iss sub : String)
    {verification : Verification} (unverified : verification ≠ .verified) {row : User}
    (present : row ∈ (provision settings db iss sub email verification claims).1.users.rows)
    (held : row.email.isSome) : row ∈ db.users.rows := by
  by_cases given : email = ""
  · obtain ⟨answer, result, _⟩ | ⟨_, username, name, _, users, _⟩ :=
      provision_cases settings db iss sub email verification claims
    · rwa [result] at present
    · rw [users] at present
      obtain old | rfl := Table.mem_insert.mp present
      · exact old
      · simp [provisioned, given, truthy] at held
  · unfold provision at present
    dsimp only at present
    split at present
    · exact present
    · rwa [if_pos (by simp [given, unverified])] at present

end Writes

section Calls
variable {settings : Settings} {db : Database} {claims : Claims}

theorem vouched_of_mailKept {db' : Database} {email : String} (given : claims.email = some email)
    (verified : claims.marksVerified) (kept : MailKept email db db') :
    AddressesVouched claims db db' :=
  fun row present held =>
    (kept row present held).imp_right fun new => ⟨given.trans new.symm, verified⟩

theorem vouched_refl (claims : Claims) (db : Database) : AddressesVouched claims db db :=
  fun row present _ => .inl ⟨row, present, rfl, rfl⟩

/-- A known identity whose claims are not verified keeps its address where the sync does
not write one. -/
theorem vouched_admitUser {iss sub email : String} {user : User}
    (hsub : claims.text "sub" = some sub) (hiss : claims.text "iss" = some iss)
    (named : sub ≠ "") (issued : iss ≠ "") (given : claims.email = some email)
    (allowed : domainAllowed settings email = true) (known : findIdentity db iss sub = some user)
    (unverified : claims.marksVerified = false) (h : ¬ syncsUnverified settings db claims) :
    AddressesVouched claims db (admitUser db user email claims).1 := by
  obtain ⟨answer, result, _⟩ | ⟨settled, active, result | ⟨name, db', hname, saved, result⟩⟩ :=
    admitUser_cases db user email claims <;> rw [result]
  · exact vouched_refl claims db
  · exact vouched_refl claims db
  · have own : (syncedProfile user name email).email = user.email := by
      refine (email_syncedProfile user name email).resolve_right ?_
      rintro ⟨written, fresh, _⟩
      have free := (save_eq_some_iff.mp saved).1
      apply h
      simp only [syncsUnverified, hsub, hiss, given, hname, known]
      simpa [named, issued, allowed, written, unverified, settled, active, fresh] using free
    intro row present _
    obtain ⟨rfl, _⟩ | ⟨old, _⟩ := (mem_save saved).mp present
    · exact .inl ⟨user, (mem_of_findIdentity known).1, rfl, own.symm⟩
    · exact .inl ⟨row, old, rfl, rfl⟩

theorem vouched_resolve (strict : Strict settings) (h : ¬ syncsUnverified settings db claims) :
    AddressesVouched claims db (resolve settings db claims).1 := by
  obtain ⟨answer, result, _⟩ |
    ⟨sub, iss, email, hsub, hiss, named, issued, given, allowed, stage⟩ :=
      resolve_cases settings db claims
  · rw [result]
    exact vouched_refl claims db
  · cases verified : claims.marksVerified with
    | true =>
        refine vouched_of_mailKept given verified ?_
        obtain ⟨user, known, result⟩ | ⟨_, existing, found, result⟩ | ⟨_, _, result⟩ := stage <;>
          rw [result]
        · exact mailKept_admitUser (mem_of_findIdentity known).1
        · exact mailKept_link (mem_of_findEmail found) iss sub _
        · exact mailKept_provision settings iss sub _
    | false =>
        have unverified : emailVerification settings claims ≠ .verified := fun shown => by
          rw [(emailVerification_eq_verified_iff strict).mp shown] at verified
          cases verified
        obtain ⟨user, known, result⟩ | ⟨_, existing, found, result⟩ | ⟨_, _, result⟩ := stage <;>
          rw [result]
        · exact vouched_admitUser hsub hiss named issued given allowed known verified h
        · rw [link_unverified unverified]
          exact vouched_refl claims db
        · intro row present held
          exact .inl ⟨row, mail_provision_unverified settings iss sub unverified present held,
            rfl, rfl⟩

/-- The profile sync of a call that meets the condition. -/
theorem unvouched_resolve (h : syncsUnverified settings db claims) :
    ¬ AddressesVouched claims db (resolve settings db claims).1 := by
  unfold syncsUnverified at h
  split at h
  · next sub iss email name hsub hiss given hname =>
    simp only [Bool.and_eq_true, decide_eq_true_eq, Option.any_eq_true, Bool.not_eq_true',
      List.all_eq_true] at h
    obtain ⟨⟨⟨⟨⟨named, issued⟩, allowed⟩, written⟩, unverified⟩, user, known,
      ⟨⟨settled, active⟩, fresh⟩, free⟩ := h
    obtain ⟨db', saved⟩ : ∃ db', save db (syncedProfile user name email) = some db' :=
      ⟨_, save_eq_some_iff.mpr ⟨free, rfl⟩⟩
    have synced : (syncedProfile user name email).email = some email := by
      simp [syncedProfile, written, fresh]
    have other : user.email ≠ some email := fun same => by
      apply fresh
      rw [same]
      exact Claims.strtolower_email given
    have changed : syncedProfile user name email ≠ user := fun same => by
      rw [same] at synced
      exact other synced
    have result : resolve settings db claims =
        (db', .ok (syncedProfile user name email)) := by
      simp only [resolve, hsub, hiss, given, known]
      rw [if_neg (by simp [named, issued]), if_neg (not_not.mpr allowed), admitUser,
        if_neg settled, if_neg (not_not.mpr active)]
      simp only [hname, saved, if_neg changed]
    have present := (mem_of_findIdentity known).1
    rw [result]
    intro vouched
    obtain ⟨old, here, id, same⟩ | ⟨_, verified⟩ := vouched (syncedProfile user name email)
      ((mem_save saved).mpr (.inl ⟨rfl, user, present, rfl⟩)) (by rw [synced]; rfl)
    · obtain rfl := db.users.eq_of_id_eq here present id
      exact other (same.trans synced)
    · rw [unverified] at verified
      cases verified
  · cases h

end Calls

/-- On a console that asks for verified addresses a call writes no other address exactly
when it does not sync one into the profile of a known identity; and after a run without
such a sync every address of the table was there at the start or was verified when it
came. -/
theorem addresses_verified (settings : Settings) (db : Database) (claims : Claims)
    (calls : List (Settings × Claims)) :
    (Strict settings → (AddressesVouched claims db (resolve settings db claims).1 ↔
      ¬ syncsUnverified settings db claims)) ∧
    (Runs.Along signIn (fun db call => Strict call.1 ∧ ¬ syncsUnverified call.1 db call.2) db calls →
      ∀ row ∈ (Runs.run signIn db calls).users.rows, row.email.isSome →
        (∃ old ∈ db.users.rows, old.id = row.id ∧ old.email = row.email) ∨
        ∃ call ∈ calls, call.2.email = row.email ∧ call.2.marksVerified) := by
  refine ⟨fun strict => ⟨fun vouched syncs => unvouched_resolve syncs vouched,
    vouched_resolve strict⟩, ?_⟩
  induction calls generalizing db with
  | nil => exact fun _ row present _ => .inl ⟨row, present, rfl, rfl⟩
  | cons call calls ih =>
      intro h row present held
      obtain ⟨middle, here, id, same⟩ | ⟨later, member, given⟩ :=
        ih (signIn db call) h.2 row present held
      · obtain ⟨old, there, id', same'⟩ | ⟨given, verified⟩ :=
          vouched_resolve h.1.1 h.1.2 middle here (by rwa [same])
        · exact .inl ⟨old, there, id'.trans id, same'.trans same⟩
        · exact .inr ⟨call, List.mem_cons_self, given.trans same, verified⟩
      · exact .inr ⟨later, List.mem_cons_of_mem call member, given⟩

def strictSettings : Settings := OrderedMap.ofList [("oidc_require_verified_email", "1")]

/-- Ann's identity with the address of somebody else. -/
def movedClaims (verified : Bool) : Claims :=
  OrderedMap.ofList [("iss", .string "https://idp.example"), ("sub", .string "42"),
    ("email", .string "Boss@Corp.example"), ("email_verified", .bool verified)]

theorem address_planted : Strict strictSettings ∧ ¬ AddressesVouched (movedClaims false)
    (directoryOf annLinked)
    (resolve strictSettings (directoryOf annLinked) (movedClaims false)).1 := by
  refine ⟨by decide +kernel, fun vouched => ?_⟩
  have written : ∀ row ∈ (resolve strictSettings (directoryOf annLinked)
      (movedClaims false)).1.users.rows, row.email = some "boss@corp.example" := by
    decide +kernel
  obtain ⟨row, present⟩ : ∃ row, row ∈ (resolve strictSettings (directoryOf annLinked)
      (movedClaims false)).1.users.rows := List.exists_mem_of_ne_nil _ (by decide +kernel)
  obtain ⟨old, here, _, same⟩ | ⟨_, verified⟩ :=
    vouched row present (by rw [written row present]; rfl)
  · obtain rfl := List.mem_singleton.mp here
    rw [written row present] at same
    exact absurd same (by decide +kernel)
  · exact absurd verified (by decide +kernel)

theorem addresses_verified_ann :
    AddressesVouched (movedClaims true) (directoryOf annLinked)
      (resolve strictSettings (directoryOf annLinked) (movedClaims true)).1 ∧
    ∀ row ∈ (Runs.run signIn (directoryOf annLinked)
        [(strictSettings, movedClaims true)]).users.rows, row.email.isSome →
      (∃ old ∈ (directoryOf annLinked).users.rows, old.id = row.id ∧ old.email = row.email) ∨
      ∃ call ∈ [(strictSettings, movedClaims true)], call.2.email = row.email ∧
        call.2.marksVerified :=
  ⟨((addresses_verified strictSettings _ _ []).1 (by decide +kernel)).mpr (by decide +kernel),
    (addresses_verified strictSettings _ (movedClaims true) _).2
      ⟨⟨by decide +kernel, by decide +kernel⟩, trivial⟩⟩

end OidcUserResolver
end CortenDesk
