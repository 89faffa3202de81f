import CortenDesk.Access.ApiToken
import CortenDesk.Lib.Runs

/-!
A token against its owner's authority, over runs. The invariant relates the tokens to
the owners that may hold tokens at all: an owner who loses that right needs no bound,
since the guard refuses the owner's tokens.
-/
namespace CortenDesk
open Php Permissions

namespace TokenRuns
variable (sha256 : String → String)

theorem clampToCreator_le (db : Database) (creator : User) (requested : Arr String Value)
    (resource : Resource) :
    rank (ApiToken.clampToCreator db creator requested resource) ≤
      rank (creator.consoleLevel db resource) := by
  unfold ApiToken.clampToCreator
  dsimp only
  split
  · exact le_rfl
  · next within =>
    by_cases listed : resource ∈ ApiToken.resources
    · exact not_lt.mp fun above => within ⟨listed, above⟩
    · simp [Permissions.normalize, listed, rank]

/-- Tokens that are kept, or changed in nothing but their use, stay contained. -/
theorem contained_of_tokens {db db' : Database} (h : Contained db)
    (users : db'.users = db.users) (roles : db'.roles = db.roles)
    (tokens : ∀ token ∈ db'.apiTokens.rows, (∃ old ∈ db.apiTokens.rows,
        token.userId = old.userId ∧ token.permissions = old.permissions) ∨
      ∃ creator ∈ db.users.rows, token.userId = some creator.id ∧
        ∀ resource, rank (token.permissions resource) ≤
          rank (creator.consoleLevel db resource)) : Contained db' := by
  intro token htoken user huser owned rights resource
  have same : user.consoleLevel db' = user.consoleLevel db := by
    funext resource
    simp only [User.consoleLevel, User.role, roles]
  rw [users] at huser
  rw [same] at rights ⊢
  obtain ⟨old, present, id, permissions⟩ | ⟨creator, present, id, clamped⟩ := tokens token htoken
  · rw [permissions]
    exact h old present user huser (id ▸ owned) rights resource
  · have : creator.id = user.id := Option.some.inj (id.symm.trans owned)
    rw [db.users.eq_of_id_eq huser present this.symm]
    exact clamped resource

theorem contained_issue {db : Database} (h : Contained db) {creator : User}
    (present : creator ∈ db.users.rows) (plain name : String) (requested : Arr String Value)
    (expiresAt : Option Stamp) :
    Contained (ApiToken.issue sha256 db creator plain name requested expiresAt) := by
  unfold ApiToken.issue
  split
  · exact h
  · refine contained_of_tokens h rfl rfl fun token htoken => ?_
    obtain old | rfl := Table.mem_insert.mp htoken
    · exact .inl ⟨token, old, rfl, rfl⟩
    · exact .inr ⟨creator, present, rfl, clampToCreator_le db creator requested⟩

theorem contained_createToken {db : Database} (h : Contained db) {actor : User}
    (present : actor ∈ db.users.rows) (plain name : String) (expiresDays : Option Int)
    (posted : Arr String Value) (now : Instant) :
    Contained (ApiTokenManager.save sha256 db actor plain name expiresDays posted now) := by
  unfold ApiTokenManager.save
  repeat' split
  · exact h
  · exact h
  · exact h
  · exact contained_issue sha256 h present plain name posted _

theorem contained_request {db : Database} (h : Contained db) (clock : RequestClock)
    (bearer : String) (resource : Resource) (level : Level) :
    Contained (step sha256 db (.request clock bearer resource level)) := by
  cases admitted : AdminApi.admission sha256 db clock bearer resource level with
  | none => simpa only [step, admitted] using h
  | some result =>
      simp only [step, admitted]
      refine contained_of_tokens h rfl rfl fun token htoken => ?_
      simp only [Table.mem_update] at htoken
      obtain ⟨old, present, rfl⟩ := htoken
      refine .inl ⟨old, present, ?_⟩
      split <;> exact ⟨rfl, rfl⟩

/-- A save of a role moves the saved one alone. -/
theorem find?_save {db db' : Database} {editing : Option Nat} {name : String}
    {posted : Arr String Value} (saved : RoleList.save db editing name posted = some db')
    (id : Nat) : db'.roles.find? id = db.roles.find? id ∨
      (id = editing.getD db.roles.nextId ∧ ∃ role, db'.roles.find? id = some role ∧
        role.permissions = normalize posted consoleResources) := by
  unfold RoleList.save at saved
  split at saved
  · cases saved
  · cases editing with
    | none =>
        cases saved
        by_cases new : id = db.roles.nextId
        · exact .inr ⟨new, _, by rw [Table.find?_insert, if_pos new], rfl⟩
        · exact .inl (by rw [Table.find?_insert, if_neg new])
    | some edited =>
        dsimp only at saved
        split at saved
        · cases saved
        · next exists' =>
          cases saved
          by_cases here : id = edited
          · obtain ⟨role, found⟩ := Option.ne_none_iff_exists'.mp
              (fun none => exists' (by simp [none]) : db.roles.find? edited ≠ none)
            have hid := (db.roles.find?_eq_some_iff.mp found).2
            refine .inr ⟨here, { role with
              name, permissions := normalize posted consoleResources }, ?_, rfl⟩
            rw [Table.find?_update, here, found]
            simp [show role.id = edited from hid]
          · left
            rw [Table.find?_update]
            cases found : db.roles.find? id with
            | none => rfl
            | some role =>
                have hid : role.id = id := (db.roles.find?_eq_some_iff.mp found).2
                simp [hid, here]

theorem users_save {db db' : Database} {editing : Option Nat} {name : String}
    {posted : Arr String Value} (saved : RoleList.save db editing name posted = some db') :
    db'.users = db.users ∧ db'.apiTokens = db.apiTokens := by
  unfold RoleList.save at saved
  split at saved
  · cases saved
  · cases editing with
    | none =>
        obtain rfl := Option.some.inj saved
        exact ⟨rfl, rfl⟩
    | some id =>
        dsimp only at saved
        split at saved
        · cases saved
        · obtain rfl := Option.some.inj saved
          exact ⟨rfl, rfl⟩

/-- The levels of an account that holds the saved role are the posted ones; any other
account's stand. -/
theorem consoleLevel_save {db db' : Database} {editing : Option Nat} {name : String}
    {posted : Arr String Value} (saved : RoleList.save db editing name posted = some db')
    (user : User) :
    user.consoleLevel db' = user.consoleLevel db ∨
      (user.isAdmin = false ∧ user.roleId = some (editing.getD db.roles.nextId) ∧
        user.consoleLevel db' = normalize posted consoleResources) := by
  unfold User.consoleLevel User.role
  cases admin : user.isAdmin with
  | true => exact .inl rfl
  | false =>
      cases held : user.roleId with
      | none => exact .inl rfl
      | some id =>
          simp only [Option.bind_some]
          obtain same | ⟨here, role, found, permissions⟩ := find?_save saved id
          · exact .inl (by rw [same])
          · refine .inr ⟨trivial, by rw [here], ?_⟩
            funext resource
            rw [found, ← permissions]
            rfl

/-- Changes of accounts and roles keep tokens contained when each account that may hold
tokens has the levels it had, or levels that none of its tokens outgrows. -/
theorem contained_of_users {db db' : Database} (h : Contained db)
    (tokens : db'.apiTokens = db.apiTokens)
    (users : ∀ user ∈ db'.users.rows, satisfies (user.consoleLevel db' .token) .rw →
      (∃ old ∈ db.users.rows, old.id = user.id ∧
        user.consoleLevel db' = old.consoleLevel db) ∨
      ∀ token ∈ db.apiTokens.rows, token.userId = some user.id →
        ¬ Outgrows token (user.consoleLevel db')) : Contained db' := by
  intro token htoken user huser owned rights resource
  rw [tokens] at htoken
  obtain ⟨old, present, hid, same⟩ | covered := users user huser rights
  · rw [same] at rights ⊢
    exact h token htoken old present (hid ▸ owned) rights resource
  · exact not_lt.mp fun below => covered token htoken owned ⟨rights, resource, below⟩

theorem contained_saveRole {db : Database} (h : Contained db) (editing : Option Nat)
    (name : String) (posted : Arr String Value)
    (keeps : KeepsCeilings db (.saveRole editing name posted)) :
    Contained (step sha256 db (.saveRole editing name posted)) := by
  cases saved : RoleList.save db editing name posted with
  | none => simpa only [step, saved, Option.getD_none] using h
  | some db' =>
      simp only [step, saved, Option.getD_some]
      obtain ⟨users, tokens⟩ := users_save saved
      refine contained_of_users h tokens fun user huser _ => ?_
      rw [users] at huser
      obtain same | ⟨admin, held, levels⟩ := consoleLevel_save saved user
      · exact .inl ⟨user, huser, rfl, same⟩
      · rw [levels]
        exact .inr (keeps (by rw [saved]; rfl) user huser admin held)

/-- An account with no role has no right to tokens, unless it is an administrator's. -/
theorem levels_of_roleless {db : Database} {user : User} (roleless : user.roleId = none)
    (rights : satisfies (user.consoleLevel db .token) .rw) :
    user.isAdmin = true := by
  by_contra standard
  simp [User.consoleLevel, User.role, standard, roleless, legacyUser, satisfies, rank] at rights

theorem consoleLevel_of_isAdmin {db : Database} {user : User} (admin : user.isAdmin = true) :
    user.consoleLevel db = fun _ => .rw := by
  funext resource
  simp [User.consoleLevel, admin]

theorem contained_deleteRole {db : Database} (h : Contained db) (id : Nat) :
    Contained (RoleList.deleteRole db id) := by
  refine contained_of_users h rfl fun user huser rights => .inl ?_
  simp only [RoleList.deleteRole, Table.mem_update] at huser
  obtain ⟨old, present, rfl⟩ := huser
  refine ⟨old, present, by split <;> rfl, ?_⟩
  by_cases held : old.roleId = some id
  · simp only [held, decide_true, if_true] at rights ⊢
    have admin := levels_of_roleless rfl rights
    have before : old.consoleLevel db = fun _ => .rw := consoleLevel_of_isAdmin admin
    rw [consoleLevel_of_isAdmin admin, before]
  · simp only [held, decide_false, Bool.false_eq_true, if_false]
    have role : old.role (RoleList.deleteRole db id) = old.role db := by
      unfold User.role RoleList.deleteRole
      cases hid : old.roleId with
      | none => rfl
      | some rid =>
          simp only [Option.bind_some, Table.find?_delete]
          rw [hid, Option.some.injEq] at held
          cases found : db.roles.find? rid with
          | none => rfl
          | some role =>
              have : role.id = rid := (db.roles.find?_eq_some_iff.mp found).2
              simp [this, held]
    funext resource
    simp only [User.consoleLevel, role]

theorem contained_setAuthority {db : Database} (h : Contained db) (userId : Nat)
    (isAdmin isActive : Bool) (roleId : Option Nat)
    (keeps : KeepsCeilings db (.setAuthority userId isAdmin isActive roleId)) :
    Contained (setAuthority db userId isAdmin isActive roleId) := by
  unfold setAuthority
  split
  · exact h
  · next exists' =>
    refine contained_of_users h rfl fun user huser rights => ?_
    simp only [Table.mem_update] at huser
    obtain ⟨old, present, rfl⟩ := huser
    by_cases here : old.id = userId
    · right
      simp only [here, decide_true, if_true] at rights ⊢
      intro token htoken owned outgrown
      cases isAdmin with
      | true =>
          obtain ⟨_, resource, below⟩ := outgrown
          exact absurd (rank_le_rw (token.permissions resource)) (not_le.mpr below)
      | false =>
          cases roleId with
          | none => exact absurd (levels_of_roleless rfl rights) nofun
          | some rid =>
              obtain ⟨role, found⟩ : ∃ role, db.roles.find? rid = some role :=
                Option.ne_none_iff_exists'.mp (by simpa using exists')
              obtain ⟨hrole, hid⟩ := db.roles.find?_eq_some_iff.mp found
              refine keeps rfl role hrole (by rw [← hid]; rfl) token htoken owned ?_
              convert outgrown using 1
              funext resource
              simp [User.consoleLevel, User.role, found]
    · left
      refine ⟨old, present, by simp [here], ?_⟩
      funext resource
      simp [here, User.consoleLevel, User.role]

theorem contained_step (db : Database) (e : AccessEvent) (h : Contained db)
    (keeps : KeepsCeilings db e) : Contained (step sha256 db e) := by
  cases e with
  | createToken actorId plain name expiresDays posted now =>
      cases found : db.users.find? actorId with
      | none => simpa only [step, found] using h
      | some actor =>
          simp only [step, found]
          exact contained_createToken sha256 h (db.users.find?_eq_some_iff.mp found).1 plain name
            expiresDays posted now
  | revokeToken id =>
      refine contained_of_tokens h rfl rfl fun token htoken => ?_
      exact .inl ⟨token, (Table.mem_delete.mp htoken).1, rfl, rfl⟩
  | saveRole editing name posted => exact contained_saveRole sha256 h editing name posted keeps
  | deleteRole id => exact contained_deleteRole h id
  | setAuthority userId isAdmin isActive roleId =>
      exact contained_setAuthority h userId isAdmin isActive roleId keeps
  | request clock bearer resource level =>
      exact contained_request sha256 h clock bearer resource level

/-- What admits a request: a token of an active account that may hold tokens, at a level
of the token's own. -/
theorem admission_eq_some {db : Database} {clock : RequestClock} {bearer : String}
    {resource : Resource} {level : Level} {token : ApiToken} {user : User}
    (h : AdminApi.admission sha256 db clock bearer resource level = some (token, user)) :
    token ∈ db.apiTokens.rows ∧ user ∈ db.users.rows ∧ token.userId = some user.id ∧
      user.isActive = true ∧ user.consoleAllows db .token .rw = true ∧
      satisfies (token.permissions resource) level = true := by
  simp only [AdminApi.admission, Option.bind_eq_bind, Option.bind_eq_some_iff] at h
  obtain ⟨_, _, found, granted, owner, owned, same⟩ := h
  obtain ⟨rfl, rfl⟩ := Prod.mk.inj (Option.some.inj same)
  simp only [AdminApi.tokenCan, Option.filter_eq_some_iff, Bool.and_eq_true,
    ApiToken.findValid] at granted
  obtain ⟨⟨stored, _⟩, standing, allowed⟩ := granted
  obtain ⟨holder, standing⟩ := Option.isSome_iff_exists.mp standing
  simp only [AdminApi.standing, Option.filter_eq_some_iff, Bool.and_eq_true] at standing
  obtain ⟨held, active, rights⟩ := standing
  obtain rfl := Option.some.inj (held.symm.trans owned)
  simp only [AdminApi.owner, Option.bind_eq_some_iff] at owned
  obtain ⟨id, hid, hfind⟩ := owned
  obtain ⟨present, rfl⟩ := db.users.find?_eq_some_iff.mp hfind
  exact ⟨List.mem_of_find?_eq_some stored, present, hid, active, rights, allowed⟩

/-- In a run from any accounts and roles, with no tokens yet, whose role edits and
reassignments leave no owner behind a token, a request is admitted only for an owner who is
active, may hold tokens and has the requested level at that moment. -/
theorem token_within_owner (db : Database) (events : List AccessEvent)
    (keeps : Runs.Along (step sha256) KeepsCeilings { db with apiTokens := .empty } events)
    (clock : RequestClock) (bearer : String) (resource : Resource) (level : Level)
    (token : ApiToken) (user : User)
    (admitted : AdminApi.admission sha256
      (Runs.run (step sha256) { db with apiTokens := .empty } events) clock bearer resource
      level = some (token, user)) :
    let now := Runs.run (step sha256) { db with apiTokens := .empty } events
    user.isActive = true ∧ user.consoleAllows now .token .rw = true ∧
      rank level ≤ rank (user.consoleLevel now resource) := by
  have contained : Contained (Runs.run (step sha256) { db with apiTokens := .empty } events) :=
    Runs.invariant_along (contained_step sha256) events _ (fun _ h => nomatch h) keeps
  obtain ⟨htoken, huser, owned, active, rights, allowed⟩ := admission_eq_some sha256 admitted
  refine ⟨active, rights, ?_⟩
  rw [User.consoleAllows_eq] at rights
  exact (of_decide_eq_true allowed).trans (contained token htoken user huser owned rights resource)

/-- The hash of one bearer. -/
def digest (plaintext : String) : String :=
  if plaintext = "cdk_secret" then
    "653e6d18431461184c6ba66571b4292b539908ea5eb6c196bf8a96da1d2b38b7"
  else plaintext

def operators : Database where
  roles := Table.empty.insert fun id =>
    { id, name := "Operators", permissions := fun _ => .rw }
  users := Table.empty.insert fun id => { id, username := "olga", roleId := some 1 }

def tokenIssued : AccessEvent :=
  .createToken 1 "cdk_secret" "ci" none (OrderedMap.ofList [("device", .string "rw")]) 0

def atOnce (now : Instant) : RequestClock := ⟨now, now, now⟩

/-- The role loses the devices and keeps the tokens; the token keeps the devices. -/
def roleNarrowed : Database :=
  Runs.run (step digest) operators [tokenIssued,
    .saveRole (some 1) "Operators" (OrderedMap.ofList [("token", .string "rw")])]

theorem token_outgrows_owner :
    (AdminApi.admission digest roleNarrowed (atOnce 1) "cdk_secret" .device .rw).any fun (_, user) =>
      rank (user.consoleLevel roleNarrowed .device) < rank .rw := by
  decide +kernel

/-- The role is narrowed to what the token has, and its owner moves to another that covers it. -/
def narrowedAndMoved : List AccessEvent :=
  [tokenIssued,
    .saveRole (some 1) "Operators" (OrderedMap.ofList [("device", .string "rw"), ("token", .string "rw")]),
    .saveRole none "Leads"
      (OrderedMap.ofList [("device", .string "rw"), ("user", .string "r"), ("token", .string "rw")]),
    .setAuthority 1 false true (some 2)]

theorem token_within_owner_issued :
    ∃ user : User, user.isActive = true ∧ user.roleId = some 2 ∧
      rank .rw ≤ rank (user.consoleLevel
        (Runs.run (step digest) { operators with apiTokens := .empty } narrowedAndMoved) .device) := by
  have admitted : (AdminApi.admission digest
      (Runs.run (step digest) { operators with apiTokens := .empty } narrowedAndMoved) (atOnce 1)
      "cdk_secret" .device .rw).any fun answer => answer.2.roleId = some 2 := by decide +kernel
  obtain ⟨⟨token, user⟩, admitted, moved⟩ := (Option.any_eq_true _ _).mp admitted
  have within := token_within_owner digest operators narrowedAndMoved (by decide +kernel) (atOnce 1)
    "cdk_secret" .device .rw token user admitted
  exact ⟨user, within.1, of_decide_eq_true moved, within.2.2⟩

end TokenRuns
end CortenDesk
