import CortenDesk.Database.Rows

/-!
Turning verified OIDC claims into a console user: the identity match, the one-time
link by email and the just-in-time provisioning, with the gates between them. String
comparison in the database is exact and `LOWER` is ASCII, as on the default
connection. A cast or a write that throws ends the call with the writes made so far.
Passwords and log lines are left out.
-/
namespace CortenDesk
open Php

abbrev Settings := Arr String String

/-- `Setting::get`. -/
def Settings.get (settings : Settings) (key default : String) : String :=
  (settings.get? key).getD default

abbrev Claims := Arr String Value

namespace Claims

/-- `trim((string) ($claims[$key] ?? ''))`, or nothing when the cast throws. -/
def text (claims : Claims) (key : String) : Option String :=
  (((claims.get? key).getD .null).toText).map trim

def email (claims : Claims) : Option String := (claims.text "email").map strtolower

end Claims

namespace User

/-- A row another row may not share a username, an email or an identity with. -/
def conflicts (user other : User) : Bool :=
  other.id ≠ user.id &&
    (other.username = user.username ||
      (user.email.isSome && other.email = user.email) ||
      (user.oidcIss.isSome && user.oidcSub.isSome &&
        other.oidcIss = user.oidcIss && other.oidcSub = user.oidcSub))

end User

namespace OidcUserResolver

inductive Verification
  | verified
  | unverified
  | unknown
  deriving DecidableEq, Repr

inductive Result
  | ok (user : User)
  | pending (message : String)
  | denied (message : String)
  | threw
  deriving DecidableEq

/-- The user a session is opened for. -/
def Result.user? : Result → Option User
  | .ok user => some user
  | _ => none

/-- Updating a row, unless a unique key forbids it. -/
def save (db : Database) (user : User) : Option Database :=
  if db.users.rows.any user.conflicts then none
  else some { db with
    users := db.users.update (·.id = user.id) (fun row => { user with id := row.id }) }

def emailVerification (settings : Settings) (claims : Claims) : Verification :=
  if settings.get "oidc_require_verified_email" "0" ≠ "1" then .verified
  else match claims.get? "email_verified" with
    | none | some .null => .unknown
    | some (.bool true) | some (.int 1) => .verified
    | some (.string value) =>
        if strtolower value = "true" || value = "1" then .verified else .unverified
    | some _ => .unverified

def verificationRefusal (verification : Verification) : String :=
  if verification = .unknown then
    "Your identity provider did not say whether this email address is verified, and this console is set to require that. An administrator can turn the requirement off under Settings → SSO."
  else
    "Your identity provider reports this email address as unverified, and this console is set to require verification. Verify it with the provider, or ask an administrator to turn the requirement off under Settings → SSO."

/-- `[,\s]`. -/
def isDomainSeparator (c : Char) : Bool :=
  c = ',' || c = ' ' || (9 ≤ c.toNat && c.toNat ≤ 13)

def domainAllowed (settings : Settings) (email : String) : Bool :=
  let configured := trim (settings.get "oidc_allowed_domains" "")
  if configured = "" then true
  else
    let domains := ((splitAt isDomainSeparator configured).map fun d =>
      ltrim '@' (strtolower (trim d))).filter truthy
    if domains = [] then true
    else if email = "" || '@' ∉ email.toList then false
    else strAfter email '@' ∈ domains

/-- The row with the name and the email the directory tells, where it tells any. -/
def syncedProfile (user : User) (name email : String) : User :=
  { user with
    name := if name ≠ "" && some name ≠ user.name then some name else user.name
    email := if email ≠ "" && strtolower (user.email.getD "") ≠ email then some email
      else user.email }

/-- `admit`: gate an existing user and sync the profile. -/
def admitUser (db : Database) (user : User) (email : String) (claims : Claims) :
    Database × Result :=
  if user.oidcStatus = some "pending" then
    (db, .pending "Your account is waiting for administrator approval.")
  else if ¬ user.isActive then
    (db, .denied "This account is disabled. Contact your administrator.")
  else match claims.text "name" with
    | none => (db, .threw)
    | some name =>
        let updated := syncedProfile user name email
        if updated = user then (db, .ok user)
        else match save db updated with
          | none => (db, .threw)
          | some db => (db, .ok updated)

def linkedTo (existing : User) (iss sub : String) : User :=
  { existing with
    oidcIss := some iss
    oidcSub := some sub
    oidcStatus := if existing.oidcStatus.any truthy then existing.oidcStatus
      else some "active" }

/-- First-time linking against an existing local account. -/
def link (db : Database) (existing : User) (iss sub : String) (verification : Verification)
    (email : String) (claims : Claims) : Database × Result :=
  if verification ≠ .verified then (db, .denied (verificationRefusal verification))
  else if existing.oidcSub.any truthy && existing.oidcSub ≠ some sub then
    (db, .denied "This account is already linked to a different SSO identity.")
  else
    let linked := linkedTo existing iss sub
    match save db linked with
    | none => (db, .threw)
    | some db => admitUser db linked email claims

/-- `a ?: b ?: …`, where only the claims up to the first true one are cast. -/
def usernameCandidate (claims : Claims) (email : String) : Option String :=
  (claims.text "preferred_username").bind fun preferred =>
    if truthy preferred then some preferred
    else (claims.text "name").map fun name =>
      if truthy name then name
      else if truthy (strBefore email '@') then strBefore email '@'
      else "user"

/-- `preg_replace('/_+/', '_', …)`. -/
def squeezeUnderscores : List Char → List Char
  | [] => []
  | c :: cs =>
      if c = '_' && (squeezeUnderscores cs).head? = some '_' then squeezeUnderscores cs
      else c :: squeezeUnderscores cs

def usernameBase (candidate : String) : String :=
  let replaced := candidate.toList.map fun c =>
    if c.isAlphanum || c = '_' then c.toLower else '_'
  let base := ((squeezeUnderscores replaced).dropWhile (· = '_')).rdropWhile (· = '_')
  String.ofList ((if base = [] then "user".toList else base).take 45)

def usernameAttempt (base : String) : Nat → String
  | 0 => base
  | n + 1 => base ++ "_" ++ toString (n + 1)

/-- The first attempt that no row has; one more attempt than rows are enough. -/
def uniqueUsername (users : Table User) (claims : Claims) (email : String) : Option String :=
  (usernameCandidate claims email).map fun candidate =>
    let base := usernameBase candidate
    (((List.range (users.rows.length + 1)).map (usernameAttempt base)).find? fun username =>
      users.rows.all (·.username ≠ username)).getD base

/-- `$user->groups()->syncWithoutDetaching([$groupId])`; the group must exist. -/
def joinGroup (db : Database) (userId groupId : Nat) : Option Database :=
  if (groupId, userId) ∈ db.userGroupUser then some db
  else if (db.userGroups.find? groupId).isNone then none
  else some { db with userGroupUser := db.userGroupUser ++ [(groupId, userId)] }

def provisioned (settings : Settings) (policy iss sub email username name : String)
    (id : Nat) : User where
  id
  username
  name := if truthy name then some name else none
  email := if truthy email then some email else none
  isAdmin := settings.get "oidc_default_admin" "0" = "1"
  isActive := true
  authProvider := "oidc"
  oidcIss := some iss
  oidcSub := some sub
  oidcStatus := some (if policy = "pending" then "pending" else "active")

/-- Just-in-time provisioning, subject to the new-user policy. -/
def provision (settings : Settings) (db : Database) (iss sub email : String)
    (verification : Verification) (claims : Claims) : Database × Result :=
  let policy := settings.get "oidc_new_user_policy" "deny"
  if policy ≠ "pending" && policy ≠ "active" then
    (db, .denied "No console account matches this sign-in. Contact your administrator.")
  else if email ≠ "" && verification ≠ .verified then
    (db, .denied (verificationRefusal verification))
  else match uniqueUsername db.users claims email, claims.text "name" with
    | some username, some name =>
        let make := provisioned settings policy iss sub email username name
        let user := make db.users.nextId
        if db.users.rows.any user.conflicts then (db, .threw)
        else
          let created := { db with users := db.users.insert make }
          let groupId := intval (settings.get "oidc_default_group_id" "0")
          match if groupId > 0 then joinGroup created user.id groupId.toNat
            else some created with
          | none => (created, .threw)
          | some joined =>
              if policy = "pending" then
                (joined, .pending
                  "Your account has been created and is waiting for administrator approval.")
              else (joined, .ok user)
    | _, _ => (db, .threw)

def findIdentity (db : Database) (iss sub : String) : Option User :=
  db.users.rows.find? fun user => user.oidcIss = some iss && user.oidcSub = some sub

def findEmail (db : Database) (email : String) : Option User :=
  if email = "" then none
  else db.users.rows.find? fun user => user.email.map strtolower = some email

/-- `OidcUserResolver::resolve`: the tables afterwards and the answer. -/
def resolve (settings : Settings) (db : Database) (claims : Claims) : Database × Result :=
  match claims.text "sub", claims.text "iss" with
  | some sub, some iss =>
      if sub = "" || iss = "" then
        (db, .denied "The identity provider did not identify the user.")
      else match claims.email with
        | none => (db, .threw)
        | some email =>
            if ¬ domainAllowed settings email then
              (db, .denied "Your email domain is not permitted to sign in to this console.")
            else match findIdentity db iss sub with
              | some user => admitUser db user email claims
              | none => match findEmail db email with
                | some existing =>
                    link db existing iss sub (emailVerification settings claims) email claims
                | none =>
                    provision settings db iss sub email (emailVerification settings claims)
                      claims
  | _, _ => (db, .threw)

end OidcUserResolver
end CortenDesk
