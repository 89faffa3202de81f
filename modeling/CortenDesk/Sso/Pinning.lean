import CortenDesk.Sso.Admission

/-!
The pinning of a row to its identity, over whole runs of sign-ins. The link branch
compares the subject alone and reads `"0"` as no subject, so a pinned row keeps its
pair in exactly the runs that never take that branch on one.
-/
namespace CortenDesk
open Php

/-- The row holds a non-empty identity pair. -/
def User.pinned (user : User) : Bool := user.oidcIss.any (· ≠ "") && user.oidcSub.any (· ≠ "")

namespace OidcUserResolver

/-- The call passes its gates with an unknown identity, and the row its email names holds a
pair already, of the claimed subject or of the subject `"0"`. -/
def relinksPinned (settings : Settings) (db : Database) (claims : Claims) : Bool :=
  match claims.text "sub", claims.text "iss", claims.email with
  | some sub, some iss, some email =>
      sub ≠ "" && iss ≠ "" && domainAllowed settings email && (findIdentity db iss sub).isNone &&
        emailVerification settings claims = .verified &&
        (findEmail db email).any fun existing =>
          existing.pinned && (existing.oidcSub = some sub || existing.oidcSub = some "0")
  | _, _, _ => false

/-- Every pinned row is still there with its pair. -/
def PinsKept (db db' : Database) : Prop :=
  ∀ user ∈ db.users.rows, user.pinned → ∃ user' ∈ db'.users.rows,
    user'.id = user.id ∧ user'.oidcIss = user.oidcIss ∧ user'.oidcSub = user.oidcSub

theorem PinsKept.refl (db : Database) : PinsKept db db :=
  fun user present _ => ⟨user, present, rfl, rfl, rfl⟩

theorem PinsKept.trans (a b c : Database) (hab : PinsKept a b) (hbc : PinsKept b c) :
    PinsKept a c := by
  intro user present pinned
  obtain ⟨u, hu, uid, uiss, usub⟩ := hab user present pinned
  have upinned : u.pinned := by rwa [User.pinned, uiss, usub]
  obtain ⟨w, hw, wid, wiss, wsub⟩ := hbc u hu upinned
  exact ⟨w, hw, wid.trans uid, wiss.trans uiss, wsub.trans usub⟩

section Writes
variable {db : Database}

theorem pinsKept_save {db' : Database} {user existing : User} (saved : save db user = some db')
    (present : existing ∈ db.users.rows) (same : user.id = existing.id)
    (keeps : existing.pinned →
      user.oidcIss = existing.oidcIss ∧ user.oidcSub = existing.oidcSub) :
    PinsKept db db' := by
  intro old hold pinned
  by_cases here : old.id = user.id
  · obtain rfl := db.users.eq_of_id_eq hold present (here.trans same)
    exact ⟨user, (mem_save saved).mpr (.inl ⟨rfl, old, hold, here⟩), same, keeps pinned⟩
  · exact ⟨old, (mem_save saved).mpr (.inr ⟨hold, here⟩), rfl, rfl, rfl⟩

theorem pinsKept_admitUser {user : User} (present : user ∈ db.users.rows) (email : String)
    (claims : Claims) : PinsKept db (admitUser db user email claims).1 := by
  obtain ⟨answer, result, _⟩ | ⟨_, _, result | ⟨name, db', _, saved, result⟩⟩ :=
    admitUser_cases db user email claims <;> rw [result]
  · exact .refl db
  · exact .refl db
  · exact pinsKept_save saved present rfl fun _ => ⟨rfl, rfl⟩

theorem pinsKept_provision (settings : Settings) (iss sub email : String)
    (verification : Verification) (claims : Claims) :
    PinsKept db (provision settings db iss sub email verification claims).1 := by
  obtain ⟨answer, result, _⟩ | ⟨_, username, name, _, users, _⟩ :=
    provision_cases settings db iss sub email verification claims
  · rw [result]
    exact .refl db
  · intro user present _
    refine ⟨user, ?_, rfl, rfl, rfl⟩
    rw [users]
    exact Table.mem_insert.mpr (.inl present)

/-- What a link does: a refusal, or a save of the linked row and its admission. -/
theorem link_cases (db : Database) (existing : User) (iss sub : String)
    (verification : Verification) (email : String) (claims : Claims) :
    (link db existing iss sub verification email claims).1 = db ∨
    (verification = .verified ∧ (existing.oidcSub.any truthy → existing.oidcSub = some sub) ∧
      ∃ db', save db (linkedTo existing iss sub) = some db' ∧
        link db existing iss sub verification email claims =
          admitUser db' (linkedTo existing iss sub) email claims) := by
  unfold link
  split
  · exact .inl rfl
  · next verified =>
    rw [not_not] at verified
    split
    · exact .inl rfl
    · next own =>
      dsimp only
      split
      · exact .inl rfl
      · next db' saved =>
        refine .inr ⟨verified, fun held => ?_, db', saved, rfl⟩
        by_contra other
        exact own (by simp [held, other])

end Writes

/-- A pinned row whose subject does not count is one of the subject `"0"`. -/
theorem subject_of_pinned {user : User} (pinned : user.pinned) {sub : String}
    (own : user.oidcSub.any truthy → user.oidcSub = some sub) :
    user.oidcSub = some sub ∨ user.oidcSub = some "0" := by
  cases h : user.oidcSub with
  | none => simp [User.pinned, h] at pinned
  | some s =>
      by_cases zero : s = "0"
      · exact .inr (by rw [zero])
      · have nonempty : s ≠ "" := by
          rintro rfl
          simp [User.pinned, h] at pinned
        rw [h] at own
        exact .inl (own (by simp [truthy, zero, nonempty]))

theorem pinsKept_resolve (settings : Settings) (db : Database) (claims : Claims)
    (h : ¬ relinksPinned settings db claims) : PinsKept db (resolve settings db claims).1 := by
  obtain ⟨answer, result, _⟩ |
    ⟨sub, iss, email, hsub, hiss, named, issued, hemail, allowed, stage⟩ :=
      resolve_cases settings db claims
  · rw [result]
    exact .refl db
  · obtain ⟨user, known, result⟩ | ⟨unknown, existing, found, result⟩ | ⟨_, _, result⟩ := stage <;>
      rw [result]
    · exact pinsKept_admitUser (mem_of_findIdentity known).1 email claims
    · have present := mem_of_findEmail found
      obtain same | ⟨verified, own, db', saved, admitted⟩ :=
        link_cases db existing iss sub (emailVerification settings claims) email claims
      · rw [same]
        exact .refl db
      · rw [admitted]
        have unpinned : existing.pinned = false := by
          by_contra pinned
          rw [Bool.not_eq_false] at pinned
          apply h
          simp [relinksPinned, hsub, hiss, hemail, named, issued, allowed, unknown, verified,
            found, pinned, subject_of_pinned pinned own]
        have linked := (mem_save saved).mpr (.inl ⟨rfl, existing, present, rfl⟩)
        exact (pinsKept_save saved present rfl fun pinned => by simp [unpinned] at pinned).trans
          _ _ _ (pinsKept_admitUser linked email claims)
    · exact pinsKept_provision settings iss sub email _ claims

theorem save_linkedTo {db : Database} {existing : User} {iss sub : String}
    (keys : ∀ other ∈ db.users.rows, existing.conflicts other = false)
    (unknown : findIdentity db iss sub = none) :
    ∃ db', save db (linkedTo existing iss sub) = some db' := by
  refine ⟨_, save_eq_some_iff.mpr ⟨fun other present => ?_, rfl⟩⟩
  have free := keys other present
  have unclaimed := List.find?_eq_none.mp unknown other present
  by_cases self : other.id = existing.id
  · simp [User.conflicts, linkedTo, self]
  · simp only [Bool.and_eq_true, decide_eq_true_eq, not_and] at unclaimed
    simp_all [User.conflicts, linkedTo]
    exact fun claimed => decide_eq_false (unclaimed (of_decide_eq_true claimed))

/-- Under the schema's unique keys the condition is exact: a call that meets it gives the
row the claimed pair. -/
theorem pinsKept_resolve_iff (settings : Settings) (db : Database) (claims : Claims)
    (keys : ∀ a ∈ db.users.rows, ∀ b ∈ db.users.rows, a.conflicts b = false) :
    PinsKept db (resolve settings db claims).1 ↔ ¬ relinksPinned settings db claims := by
  refine ⟨fun kept relinks => ?_, pinsKept_resolve settings db claims⟩
  unfold relinksPinned at relinks
  split at relinks
  · next sub iss email hsub hiss hemail =>
    simp only [Bool.and_eq_true, decide_eq_true_eq, Option.isNone_iff_eq_none,
      Option.any_eq_true, Bool.or_eq_true] at relinks
    obtain ⟨⟨⟨⟨⟨named, issued⟩, allowed⟩, unknown⟩, verified⟩, existing, found, pinned, own⟩ :=
      relinks
    have present := mem_of_findEmail found
    obtain ⟨db', saved⟩ := save_linkedTo (keys existing present) unknown
    have result : resolve settings db claims =
        admitUser db' (linkedTo existing iss sub) email claims := by
      have unguarded : existing.oidcSub.any truthy = true → existing.oidcSub = some sub := by
        obtain own | own := own <;> simp [own, truthy]
      have answer : resolve settings db claims =
          link db existing iss sub .verified email claims := by
        simp [resolve, hsub, hiss, hemail, named, issued, allowed, unknown, verified, found]
      rw [answer, link, if_neg (not_not.mpr rfl)]
      rw [if_neg (by simpa using unguarded)]
      simp only [saved]
    have linked := (mem_save saved).mpr (.inl ⟨rfl, existing, present, rfl⟩)
    obtain ⟨row, hrow, rid, riss, rsub⟩ :=
      pinsKept_admitUser linked email claims _ linked (by simp [User.pinned, linkedTo, named, issued])
    rw [result] at kept
    obtain ⟨row', hrow', rid', riss', rsub'⟩ := kept existing present pinned
    obtain rfl := Table.eq_of_id_eq _ hrow' hrow (rid'.trans rid.symm)
    have held := List.find?_eq_none.mp unknown existing present
    simp [← riss', ← rsub', riss, rsub, linkedTo] at held
  · cases relinks

/-- A call of a run: the settings it finds and the claims it is given. -/
def signIn (db : Database) (call : Settings × Claims) : Database :=
  (resolve call.1 db call.2).1

/-- In a run of sign-ins that never links a pinned row anew, a row that holds a non-empty
identity pair holds it for good. -/
theorem identity_pinned (db : Database) (calls : List (Settings × Claims))
    (h : Runs.Along signIn (fun db call => ¬ relinksPinned call.1 db call.2) db calls) :
    PinsKept db (Runs.run signIn db calls) := by
  have kept (db : Database) (call : Settings × Claims)
      (h : ¬ relinksPinned call.1 db call.2) : PinsKept db (signIn db call) :=
    pinsKept_resolve call.1 db call.2 h
  exact Runs.related_along PinsKept.refl PinsKept.trans kept calls db h

/-- Another issuer, the same subject and the same address. -/
theorem identity_repinned : ¬ PinsKept (directoryOf annLinked)
    (signIn (directoryOf annLinked) (∅, workClaims "https://other.example" "42")) := by
  intro kept
  obtain ⟨row, present, _, iss, _⟩ := kept annLinked (List.mem_singleton.mpr rfl)
    (by decide +kernel)
  have moved : ∀ row ∈ (signIn (directoryOf annLinked)
      (∅, workClaims "https://other.example" "42")).users.rows,
      row.oidcIss ≠ annLinked.oidcIss := by decide +kernel
  exact moved row present iss

theorem identity_pinned_ann : PinsKept (directoryOf annLinked)
    (Runs.run signIn (directoryOf annLinked) [(∅, workClaims "https://idp.example" "42"),
      (∅, workClaims "https://other.example" "43")]) :=
  identity_pinned _ _ ⟨by decide +kernel, by decide +kernel, trivial⟩

end OidcUserResolver
end CortenDesk
