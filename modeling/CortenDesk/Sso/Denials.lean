import CortenDesk.Sso.Pinning

/-!
What a denied sign-in leaves behind. All denials but one come before the first write; a
disabled account that is linked by its address is denied after the link is saved.
-/
namespace CortenDesk
open Php

namespace OidcUserResolver

/-- A denial leaves the accounts and the group memberships as they were. -/
def DenialsLeave (db : Database) (result : Database × Result) : Prop :=
  ∀ message, result.2 = .denied message →
    result.1.users = db.users ∧ result.1.userGroupUser = db.userGroupUser

/-- The call passes its gates with an unknown identity, and its address is that of a disabled
account that it may link. -/
def linksDisabled (settings : Settings) (db : Database) (claims : Claims) : Bool :=
  match claims.text "sub", claims.text "iss", claims.email with
  | some sub, some iss, some email =>
      sub ≠ "" && iss ≠ "" && domainAllowed settings email && (findIdentity db iss sub).isNone &&
        emailVerification settings claims = .verified &&
        (findEmail db email).any fun existing =>
          (! existing.oidcSub.any truthy || existing.oidcSub = some sub) &&
            existing.oidcStatus ≠ some "pending" && ! existing.isActive &&
            db.users.rows.all fun other => ! (linkedTo existing iss sub).conflicts other
  | _, _, _ => false

section Stages
variable {db : Database}

theorem denialsLeave_unchanged (answer : Result) : DenialsLeave db (db, answer) :=
  fun _ _ => ⟨rfl, rfl⟩

/-- An admission denies the disabled accounts that are not pending, and writes nothing then. -/
theorem admitUser_denied_iff {user : User} {email : String} {claims : Claims} :
    (∃ message, (admitUser db user email claims).2 = .denied message) ↔
      user.oidcStatus ≠ some "pending" ∧ user.isActive = false := by
  by_cases pending : user.oidcStatus = some "pending"
  · rw [admitUser, if_pos pending]
    exact iff_of_false (fun ⟨_, denied⟩ => by cases denied) fun h => h.1 pending
  · cases active : user.isActive with
    | false =>
        rw [admitUser, if_neg pending, if_pos (by simp [active])]
        exact iff_of_true ⟨_, rfl⟩ ⟨pending, rfl⟩
    | true =>
        refine iff_of_false ?_ fun h => by cases h.2
        rintro ⟨message, denied⟩
        rw [admitUser, if_neg pending, if_neg (by simp [active])] at denied
        split at denied
        · cases denied
        · dsimp only at denied
          split at denied
          · cases denied
          · split at denied <;> cases denied

theorem admitUser_unchanged {user : User} {email : String} {claims : Claims}
    (inactive : user.isActive = false) : (admitUser db user email claims).1 = db := by
  unfold admitUser
  split
  · rfl
  · rw [if_pos (by simp [inactive])]

theorem denialsLeave_admitUser (user : User) (email : String) (claims : Claims) :
    DenialsLeave db (admitUser db user email claims) := by
  intro message denied
  have inactive := (admitUser_denied_iff.mp ⟨message, denied⟩).2
  rw [admitUser_unchanged inactive]
  exact ⟨rfl, rfl⟩

theorem denialsLeave_provision (settings : Settings) (iss sub email : String)
    (verification : Verification) (claims : Claims) :
    DenialsLeave db (provision settings db iss sub email verification claims) := by
  unfold provision
  dsimp only
  split
  · exact denialsLeave_unchanged _
  · split
    · exact denialsLeave_unchanged _
    · intro message denied
      split at denied
      · split at denied
        · cases denied
        · split at denied
          · cases denied
          · split at denied <;> cases denied
      · cases denied

/-- The standing of a linked row is that of the row before. -/
theorem pending_linkedTo {existing : User} {iss sub : String} :
    (linkedTo existing iss sub).oidcStatus = some "pending" ↔
      existing.oidcStatus = some "pending" := by
  cases h : existing.oidcStatus with
  | none => simp [linkedTo, h]
  | some status =>
      by_cases known : truthy status = true
      · simp [linkedTo, h, known]
      · have settled : status ≠ "pending" := by
          rintro rfl
          exact known rfl
        simp [linkedTo, h, known, settled]

/-- A link that goes through changes the table, for nobody had the identity. -/
theorem users_ne_of_link {db' : Database} {existing : User} {iss sub : String}
    (unknown : findIdentity db iss sub = none) (present : existing ∈ db.users.rows)
    (saved : save db (linkedTo existing iss sub) = some db') : db'.users ≠ db.users := by
  intro same
  have linked := (mem_save saved).mpr (.inl ⟨rfl, existing, present, rfl⟩)
  rw [same] at linked
  exact List.find?_eq_none.mp unknown _ linked (by simp [linkedTo])

end Stages

section Calls
variable {settings : Settings} {db : Database} {claims : Claims}

theorem denialsLeave_resolve (h : ¬ linksDisabled settings db claims) :
    DenialsLeave db (resolve settings db claims) := by
  obtain ⟨answer, result, _⟩ |
    ⟨sub, iss, email, hsub, hiss, named, issued, given, allowed, stage⟩ :=
      resolve_cases settings db claims
  · rw [result]
    exact denialsLeave_unchanged answer
  · obtain ⟨user, known, result⟩ | ⟨unknown, existing, found, result⟩ | ⟨_, _, result⟩ := stage <;>
      rw [result]
    · exact denialsLeave_admitUser user email claims
    · obtain same | ⟨verified, own, db', saved, admitted⟩ :=
        link_cases db existing iss sub (emailVerification settings claims) email claims
      · intro message _
        rw [same]
        exact ⟨rfl, rfl⟩
      · rw [admitted]
        intro message denied
        obtain ⟨settled, inactive⟩ := admitUser_denied_iff.mp ⟨message, denied⟩
        refine absurd ?_ h
        have settled : existing.oidcStatus ≠ some "pending" := fun pending =>
          settled (pending_linkedTo.mpr pending)
        have inactive : existing.isActive = false := inactive
        have free := (save_eq_some_iff.mp saved).1
        have owned : existing.oidcSub.any truthy = false ∨ existing.oidcSub = some sub := by
          rw [← Bool.not_eq_true, ← imp_iff_not_or]
          exact own
        simp only [linksDisabled, hsub, hiss, given, unknown, found]
        simpa [named, issued, allowed, verified, settled, inactive, owned] using free
    · exact denialsLeave_provision settings iss sub email _ claims

/-- A denial leaves everything as it was exactly when the call does not link a disabled
account. -/
theorem denied_unchanged_iff (settings : Settings) (db : Database) (claims : Claims) :
    DenialsLeave db (resolve settings db claims) ↔ ¬ linksDisabled settings db claims := by
  refine ⟨fun leaves links => ?_, denialsLeave_resolve⟩
  unfold linksDisabled at links
  split at links
  · next sub iss email hsub hiss given =>
    simp only [Bool.and_eq_true, decide_eq_true_eq, Option.isNone_iff_eq_none,
      Option.any_eq_true, Bool.or_eq_true, Bool.not_eq_true', List.all_eq_true] at links
    obtain ⟨⟨⟨⟨⟨named, issued⟩, allowed⟩, unknown⟩, verified⟩, existing, found,
      ⟨⟨own, settled⟩, inactive⟩, free⟩ := links
    obtain ⟨db', saved⟩ : ∃ db', save db (linkedTo existing iss sub) = some db' :=
      ⟨_, save_eq_some_iff.mpr ⟨free, rfl⟩⟩
    have result : resolve settings db claims =
        admitUser db' (linkedTo existing iss sub) email claims := by
      have answer : resolve settings db claims =
          link db existing iss sub .verified email claims := by
        simp [resolve, hsub, hiss, given, named, issued, allowed, unknown, verified, found]
      rw [answer, link, if_neg (not_not.mpr rfl), if_neg]
      · simp only [saved]
      · rw [Bool.and_eq_true, decide_eq_true_eq]
        rintro ⟨held, other⟩
        obtain blank | same := own
        · rw [blank] at held
          cases held
        · exact other same
    have inactive : (linkedTo existing iss sub).isActive = false := inactive
    obtain ⟨message, denied⟩ : ∃ message,
        (admitUser db' (linkedTo existing iss sub) email claims).2 = .denied message :=
      admitUser_denied_iff.mpr ⟨fun pending => settled (pending_linkedTo.mp pending), inactive⟩
    obtain ⟨same, _⟩ := leaves message (by rw [result, denied])
    rw [result, admitUser_unchanged inactive] at same
    exact users_ne_of_link unknown (mem_of_findEmail found) saved same
  · cases links

end Calls

def annDisabled : User :=
  { id := 1, username := "ann", email := some "ann@corp.example", isActive := false }

theorem disabled_linked : ¬ DenialsLeave (directoryOf annDisabled)
    (resolve ∅ (directoryOf annDisabled) (workClaims "https://idp.example" "42")) := by
  intro leaves
  have linked : ∀ row ∈ (resolve ∅ (directoryOf annDisabled)
      (workClaims "https://idp.example" "42")).1.users.rows, row.oidcSub = some "42" := by
    decide +kernel
  obtain ⟨same, _⟩ := leaves "This account is disabled. Contact your administrator."
    (by decide +kernel)
  rw [same] at linked
  exact absurd (linked _ (List.mem_singleton.mpr rfl)) (by decide +kernel)

end OidcUserResolver
end CortenDesk
