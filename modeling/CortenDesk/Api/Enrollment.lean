import CortenDesk.Access.ApiToken
import CortenDesk.Access.Visibility
import CortenDesk.Lib.PhpJson
import CortenDesk.Strategy.Writes

/-!
The two ways devices come in from outside: the client's `--assign` and the import of
another server's database. Of the import, the parts that reach the groups, the accounts
and the devices; the address books of both, the logs and the hardware columns are left out
here, and so are an account's avatar, note and password.
-/
namespace CortenDesk
open Php Permissions

namespace DeviceCliController

/-- The fields of the body; an absent one is empty. -/
structure Request where
  id : String
  uuid : String
  userName : String := ""
  strategyName : String := ""
  addressBookName : String := ""
  deviceGroupName : String := ""
  note : String := ""
  deviceUsername : String := ""
  deviceName : String := ""
  addressBookTag : String := ""
  addressBookAlias : String := ""
  addressBookPassword : String := ""
  addressBookNote : String := ""

def filled (text : String) : Bool := trim text ≠ ""

def hasFlag (r : Request) : Bool :=
  [r.userName, r.strategyName, r.addressBookName, r.deviceGroupName, r.note, r.deviceUsername,
    r.deviceName].any filled

def usesAddressBook (r : Request) : Bool :=
  [r.addressBookName, r.addressBookTag, r.addressBookAlias, r.addressBookPassword,
    r.addressBookNote].any filled

/-- A name resolved before anything is written: not asked for, or the row; `none` is a name
of nothing. -/
def resolveName {ρ : Type} (rows : List ρ) (name : ρ → String) (text : String) :
    Option (Option ρ) :=
  if filled text then (rows.find? fun row => name row = text).map some else some none

/-- The row written for the posting client: a new one, or its own with the changes. -/
def upsert (s : System) (r : Request) (userId deviceGroupId : Option Nat) :
    Option (System × Nat) :=
  let rustdeskId := trim r.id
  let note := if filled r.note then some r.note else none
  match s.db.devices.rows.find? fun row => ! row.trashed && row.rustdeskId = rustdeskId with
  | some device =>
      some (Device.update s device fun row =>
        { row with
          uuid := trim r.uuid
          status := .active
          userId := userId.or row.userId
          deviceGroupId := deviceGroupId.or row.deviceGroupId
          note := note.or row.note }, device.id)
  | none =>
      -- the unique index counts the recycle bin
      if s.db.devices.rows.any (·.rustdeskId = rustdeskId) then none
      else some (Device.create s
        { rustdeskId, uuid := trim r.uuid, userId, deviceGroupId, note }, s.db.devices.nextId)

def assign (s : System) (token : ApiToken) (r : Request) : Option System :=
  if trim r.id = "" || trim r.uuid = "" || ! hasFlag r then none
  else if usesAddressBook r && ! token.allows .addressBook .rw then none
  else if filled r.strategyName && ! token.allows .strategy .rw then none
  else do
    let user ← resolveName s.db.users.rows User.username r.userName
    let group ← resolveName s.db.deviceGroups.rows DeviceGroup.name r.deviceGroupName
    let strategy ← resolveName (s.db.strategies.rows.filter (! ·.trashed)) Strategy.name
      r.strategyName
    let _ ← resolveName s.db.addressBooks.rows AddressBook.name r.addressBookName
    let (s, id) ← upsert s r (user.map User.id) (group.map DeviceGroup.id)
    return match strategy with
      | some strategy => Strategy.assignTo s .device id (some strategy.id)
      | none => s

end DeviceCliController

namespace ImportLejianwen

structure SourceGroup where
  id : Nat
  name : String

structure SourceUser where
  id : Nat
  username : String
  email : String := ""
  nickname : String := ""
  isAdmin : Bool := false
  status : Int := 1
  groupId : Nat := 0

structure SourcePeer where
  id : String
  uuid : String := ""
  hostname : String := ""
  os : String := ""
  cpu : String := ""
  memory : String := ""
  username : String := ""
  version : String := ""
  «alias» : String := ""
  userId : Nat := 0
  groupId : Nat := 0
  lastOnlineTime : Int := 0
  lastOnlineIp : String := ""

structure Source where
  groups : List SourceGroup := []
  deviceGroups : List SourceGroup := []
  users : List SourceUser := []
  peers : List SourcePeer := []

/-- A map from the source's ids to the target's. -/
abbrev IdMap := List (Nat × Nat)

/-- Query-builder deletions: no hook fires, the schema's cascades apply. -/
def wipeTargets (s : System) : System :=
  { s with
    db := { s.db with
      devices := s.db.devices.delete fun _ => true
      addressBookRules := s.db.addressBookRules.delete fun _ => true
      addressBooks := s.db.addressBooks.delete fun _ => true
      users := s.db.users.delete fun _ => true
      apiTokens := s.db.apiTokens.update (fun _ => true)
        (fun token => { token with userId := none }) ApiToken.keeps_disown
      userGroups := s.db.userGroups.delete fun _ => true
      deviceGroups := s.db.deviceGroups.delete fun _ => true
      userGroupUser := []
      deviceGroupUser := []
      deviceGroupUserGroup := []
      deviceStrategy := []
      strategyUser := []
      deviceGroupStrategy := [] } }

def importUserGroup (state : Database × IdMap) (row : SourceGroup) : Database × IdMap :=
  let (db, map) := state
  match db.userGroups.rows.find? fun group => group.name = row.name with
  | some group => (db, (row.id, group.id) :: map)
  | none => ({ db with userGroups := db.userGroups.insert fun id => { id, name := row.name } },
      (row.id, db.userGroups.nextId) :: map)

def importDeviceGroup (state : Database × IdMap) (row : SourceGroup) : Database × IdMap :=
  let (db, map) := state
  match db.deviceGroups.rows.find? fun group => group.name = row.name with
  | some group => (db, (row.id, group.id) :: map)
  | none => ({ db with deviceGroups := db.deviceGroups.insert fun id => { id, name := row.name } },
      (row.id, db.deviceGroups.nextId) :: map)

/-- `trim($text) ?: null`. -/
def trimmedOrNull (text : String) : Option String :=
  if truthy (trim text) then some (trim text) else none

/-- The import of the accounts: the tables, the ids, and who holds which address. -/
structure Users where
  db : Database
  map : IdMap := []
  usedEmails : Arr Key String

/-- An address already held under another key is dropped: a name that PHP stores under an
integer is not the key it is held under. -/
def importEmail (usedEmails : Arr Key String) (username : String) (email : Option String) :
    Option String × Arr Key String :=
  match email with
  | none => (none, usedEmails)
  | some email =>
      match usedEmails.entries.find? fun e => e.2 = email with
      | some holder =>
          if holder.1 = .str username then (some email, usedEmails.set (Key.ofString username) email)
          else (none, usedEmails)
      | none => (some email, usedEmails.set (Key.ofString username) email)

def importUser (groupMap : IdMap) (state : Users) (row : SourceUser) : Users :=
  let username := trim row.username
  if username = "" then state
  else
    let (email, usedEmails) := importEmail state.usedEmails username (trimmedOrNull row.email)
    let fill (user : User) : User :=
      { user with
        email, name := trimmedOrNull row.nickname
        isAdmin := row.isAdmin, isActive := decide (row.status = 1) }
    let db := state.db
    let (users, id) := match db.users.rows.find? fun user => user.username = username with
      | some user => (db.users.update (fun old => decide (old.id = user.id)) fill, user.id)
      | none => (db.users.insert fun id => fill { id, username }, db.users.nextId)
    { db := { db with
        users
        userGroupUser := Pivot.sync db.userGroupUser id (groupMap.lookup row.groupId).toList }
      map := (row.id, id) :: state.map
      usedEmails }

/-- A Unix time of the source, where 0 is none. -/
def timestampOrNull (time : Int) : Option Stamp := if 0 < time then some time else none

/-- A peer that the recycle bin holds is updated there. -/
def importPeer (userMap deviceGroupMap : IdMap) (s : System) (row : SourcePeer) : System :=
  let rustdeskId := trim row.id
  if rustdeskId = "" then s
  else
    let userId := userMap.lookup row.userId
    let deviceGroupId := deviceGroupMap.lookup row.groupId
    let «alias» := trimmedOrNull row.alias
    let lastOnlineAt := timestampOrNull row.lastOnlineTime
    match s.db.devices.rows.find? fun device => device.rustdeskId = rustdeskId with
    | some device =>
        Device.update s device fun old =>
          { old with uuid := row.uuid, «alias» := «alias», userId, deviceGroupId, lastOnlineAt }
    | none =>
        Device.create s
          { rustdeskId, uuid := row.uuid, «alias» := «alias», userId, deviceGroupId, lastOnlineAt }

def usedEmails (db : Database) : Arr Key String :=
  OrderedMap.ofList (db.users.rows.filterMap fun user =>
    user.email.map fun email => (Key.ofString user.username, email))

/-- `handle`, without `--dry-run`, which rolls everything back. -/
def handle (s : System) (wipe : Bool) (source : Source) : System :=
  let s := if wipe then wipeTargets s else s
  let (db, userGroupMap) := source.groups.foldl importUserGroup (s.db, [])
  let (db, deviceGroupMap) := source.deviceGroups.foldl importDeviceGroup (db, [])
  let users := source.users.foldl (importUser userGroupMap) { db, usedEmails := usedEmails db }
  source.peers.foldl (importPeer users.map deviceGroupMap) { s with db := users.db }

end ImportLejianwen
end CortenDesk
