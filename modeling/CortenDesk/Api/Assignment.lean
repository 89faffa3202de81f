import Mathlib.Data.List.Infix
import CortenDesk.AddressBook.Operations
import CortenDesk.Lib.Fallible

/-!
`--assign` as it arrives: a body of any JSON values, and what is written when the request
breaks off between two writes. A text that the body gives is compared with a column by the
database, whose collation and casts are left open, and so is what it refuses to write. The entry of
the audit log, which is not read back, is left out.
-/
namespace CortenDesk
namespace DeviceCliController.Wire
open Php Permissions

inductive Write
  | device
  | tag
  | entry

/-- The database beside its rows, and the application's key. -/
structure Server where
  /-- A text column, compared with what is bound. -/
  equal : String → Json → Bool
  equal_self : ∀ text, equal text (.string text) = true
  /-- A text too long for its column, a server that is gone. -/
  refuses : Write → Bool
  encryptString : String → String

/-- The columns of a device that its entries copy. -/
structure Display where
  hostname : Option String := none
  username : Option String := none
  os : Option String := none
  deriving DecidableEq

/-- The address books, and the displayed columns of the devices by key. -/
structure Fleet where
  books : Books := {}
  displays : Nat → Display := fun _ => {}

def Fleet.db (s : Fleet) : Database := s.books.system.db

/-- The input by its names; an absent one is null. -/
abbrev Body := String → Json

inductive Answer
  | message (text : String) (status : Nat)
  | done
  | thrown
  deriving DecidableEq

def Answer.status : Answer → Nat
  | .message _ status => status
  | .done => 200
  | .thrown => 500

def assignFlags : List String :=
  ["user_name", "strategy_name", "address_book_name", "device_group_name", "note",
    "device_username", "device_name"]

def abFields : List String :=
  ["address_book_name", "address_book_tag", "address_book_alias", "address_book_password",
    "address_book_note"]

/-- A boolean and an array are always filled. -/
def filled (body : Body) (field : String) : Bool :=
  match body field with
  | .bool _ | .array _ => true
  | value => value.toText.any fun text => trim text ≠ ""

def tokenAllows (token : Option ApiToken) (resource : Resource) : Bool :=
  token.any fun token => token.allows resource .rw

/-- The first row of a name that the body gives. The answer spells the name, which throws for an
array. -/
def named {ρ : Type} (server : Server) (rows : List ρ) (column : ρ → String) (body : Body)
    (field what : String) : Except Answer (Option ρ) :=
  if ! filled body field then .ok none
  else match rows.find? fun row => server.equal (column row) (body field) with
    | some row => .ok (some row)
    | none => match (body field).toText with
        | some text => .error (.message (what ++ " '" ++ text ++ "' not found.") 404)
        | none => .error .thrown

/-- What the request names. -/
structure Plan where
  id : String
  uuid : String
  user : Option User
  group : Option DeviceGroup
  strategy : Option Strategy
  book : Option AddressBook

/-- What `assign` checks and looks up before it writes. -/
def resolve (server : Server) (db : Database) (token : Option ApiToken) (body : Body) :
    Except Answer Plan :=
  match (body "id").toText.map trim, (body "uuid").toText.map trim with
  | some id, some uuid =>
      if id = "" || uuid = "" then .error (.message "id and uuid are required." 400)
      else if ! assignFlags.any (filled body) then
        .error (.message "No assignment parameters provided." 400)
      else if abFields.any (filled body) && ! tokenAllows token .addressBook then
        .error (.message "Token lacks 'rw' permission on 'address_book'." 403)
      else if filled body "strategy_name" && ! tokenAllows token .strategy then
        .error (.message "Token lacks 'rw' permission on 'strategy'." 403)
      else do
        let user ← named server db.users.rows User.username body "user_name" "User"
        let group ← named server db.deviceGroups.rows DeviceGroup.name body "device_group_name"
          "Device group"
        let strategy ← named server (db.strategies.rows.filter (! ·.trashed)) Strategy.name body
          "strategy_name" "Strategy"
        let book ← named server db.addressBooks.rows AddressBook.name body "address_book_name"
          "Address book"
        return { id, uuid, user, group, strategy, book }
  | _, _ => .error .thrown

/-- `(string) $request->input($field)` of a field that is filled. -/
def text (body : Body) (field : String) : Option (Option String) :=
  if filled body field then (body field).toText.map some else some none

/-- What `platform()` looks for in the name of a system, in this order. -/
def platforms : List (String × List String) :=
  [("windows", ["windows"]), ("macos", ["mac", "darwin"]), ("android", ["android"]),
    ("ios", ["ios"]), ("linux", ["linux", "ubuntu", "debian", "fedora", "arch", "centos"])]

def platform (os : Option String) : String :=
  let name := (strtolower (os.getD "")).toList
  ((platforms.find? fun family => family.2.any fun word =>
    decide (word.toList <:+: name)).map Prod.fst).getD "unknown"

/-- The displayed columns that the request overrides. -/
def Display.override (display : Display) (hostname username : Option String) : Display :=
  { display with hostname := hostname.or display.hostname, username := username.or display.username }

/-- The columns of a device that is registered already. -/
def Plan.fill (plan : Plan) (note : Option String) (row : Device) : Device :=
  { row with
    uuid := plan.uuid, status := .active
    userId := (plan.user.map User.id).or row.userId
    deviceGroupId := (plan.group.map DeviceGroup.id).or row.deviceGroupId
    note := note.or row.note }

/-- The columns of a new one. -/
def Plan.attributes (plan : Plan) (note : Option String) : Device.Attributes :=
  { rustdeskId := plan.id, uuid := plan.uuid, userId := plan.user.map User.id
    deviceGroupId := plan.group.map DeviceGroup.id, note }

/-- The save of the device, found or new; it returns the row that it wrote. -/
def saveDevice (server : Server) (s : Fleet) (body : Body) (plan : Plan) : Option (Fleet × Device) :=
  do
    let note ← text body "note"
    let hostname ← text body "device_name"
    let username ← text body "device_username"
    let system := s.books.system
    let saved (system : System) (device : Device) (display : Display) : Fleet × Device :=
      ({ books := { s.books with system }
         displays := fun id =>
           if id = device.id then display.override hostname username else s.displays id }, device)
    if server.refuses .device then none
    else match system.db.devices.rows.find? fun row =>
        ! row.trashed && server.equal row.rustdeskId (.string plan.id) with
      | some device =>
          some (saved (Device.update system device (plan.fill note)) (plan.fill note device)
            (s.displays device.id))
      | none =>
          -- the unique index counts the recycle bin
          if system.db.devices.rows.any fun row => server.equal row.rustdeskId (.string plan.id) then
            none
          else
            some (saved (Device.create system (plan.attributes note))
              ((plan.attributes note).row system.db.devices.nextId) {})

/-- `Tag::firstOrCreate` of the book. -/
def firstOrCreateTag (server : Server) (s : Books) (book : Nat) (name : String) :
    Option (Books × Nat) :=
  match (s.tagsOf book).find? fun tag => server.equal tag.name (.string name) with
  | some tag => some (s, tag.id)
  | none => if server.refuses .tag then none else s.createTag book name 0

/-- What the entry is given. -/
structure Given where
  display : Display
  «alias» : Option String
  passwordEnc : Option String
  tagIds : Option (List Json)

def Given.fill (given : Given) (entry : AddressBookEntry) : AddressBookEntry :=
  { entry with
    hostname := given.display.hostname, platform := some (platform given.display.os)
    username := given.display.username, «alias» := given.alias.or entry.alias
    passwordEnc := given.passwordEnc.or entry.passwordEnc, tagIds := given.tagIds }

/-- The save of the entry, found or new. -/
def saveEntry (server : Server) (s : Books) (book : Nat) (rustdeskId : String)
    (found : Option AddressBookEntry) (given : Given) : Option Books :=
  if server.refuses .entry then none
  else match found with
    | some entry => s.updateEntry entry.id given.fill fun _ => rfl
    | none => s.createEntry (fun id => given.fill { id, addressBookId := book, rustdeskId })
        fun _ => rfl

/-- The books after it, and whether it came to its end: a tag that is made stays when the entry
is refused. -/
def applyAddressBook (server : Server) (s : Fleet) (body : Body) (book : Nat) (device : Device) :
    Books × Bool :=
  let found := (s.books.entriesOf book).find? fun entry =>
    server.equal entry.rustdeskId (.string device.rustdeskId)
  let save (books : Books) («alias» password : Option String) (tagIds : Option (List Json)) :
      Books × Bool :=
    match saveEntry server books book device.rustdeskId found
        ⟨s.displays device.id, «alias», password.map server.encryptString, tagIds⟩ with
    | some saved => (saved, true)
    | none => (books, false)
  match text body "address_book_alias", text body "address_book_password",
      text body "address_book_tag" with
  | some «alias», some password, some none =>
      save s.books «alias» password (found.bind AddressBookEntry.tagIds)
  | some «alias», some password, some (some tag) =>
      match firstOrCreateTag server s.books book tag with
      | some (books, id) => save books «alias» password
          (some (addTagId ((found.bind AddressBookEntry.tagIds).getD []) id))
      | none => (s.books, false)
  | _, _, _ => (s.books, false)

def assignBook (server : Server) (s : Fleet) (body : Body) (device : Device) :
    Option AddressBook → Books × Bool
  | some book => applyAddressBook server s body book.id device
  | none => (s.books, true)

/-- The level of the device comes before the others. -/
def assignStrategy (s : System) (device : Nat) : Option Strategy → System
  | some strategy => Strategy.assignTo s .device device (some strategy.id)
  | none => s

def assign (server : Server) (s : Fleet) (token : Option ApiToken) (body : Body) : Answer × Fleet :=
  match resolve server s.db token body with
  | .error answer => (answer, s)
  | .ok plan =>
      match saveDevice server s body plan with
      | none => (.thrown, s)
      | some (s, device) =>
          let (books, went) := assignBook server s body device plan.book
          if ! went then (.thrown, { s with books })
          else
            (.done, { s with books := { books with
              system := assignStrategy books.system device.id plan.strategy } })

/-- The databases differ in one device and its assignment. -/
structure Within (id : Nat) (db db' : Database) : Prop where
  frame : db' = { db with devices := db'.devices, deviceStrategy := db'.deviceStrategy }
  devices : ∀ k ≠ id, db'.devices.find? k = db.devices.find? k
  assigned : (db'.deviceStrategy.filter fun row => row.1 ≠ id) =
    db.deviceStrategy.filter fun row => row.1 ≠ id

/-- A change of one row of a table at most, which is and stays in the book. -/
def OneOf {ρ : Type} [Row ρ] (book : ρ → Nat) (id : Nat) (before after : Table ρ) : Prop :=
  ∃ key, (∀ k ≠ key, after.find? k = before.find? k) ∧
    (∀ row, before.find? key = some row → book row = id) ∧
    ∀ row, after.find? key = some row → book row = id

/-- A key of the device: of the row that the body names, or else as it was. -/
def Names {ρ : Type} (server : Server) (rows : List ρ) (column : ρ → String) (key : ρ → Nat)
    (body : Body) (field : String) (before after : Option Nat) : Prop :=
  if filled body field then
    ∃ row ∈ rows, server.equal (column row) (body field) ∧ after = some (key row)
  else after = before

/-- The displayed columns of a device before the request. -/
def Fleet.shown (s : Fleet) (id : Nat) : Display :=
  if (s.db.devices.find? id).isSome then s.displays id else {}

/-- The entry of a device, with what the request gives it. -/
structure Entered (server : Server) (body : Body) (display : Display) (tags : Table Tag) (id : Nat)
    (device : Device) (entry : AddressBookEntry) : Prop where
  book : entry.addressBookId = id
  device : server.equal entry.rustdeskId (.string device.rustdeskId)
  display : entry.hostname = display.hostname ∧ entry.username = display.username ∧
    entry.platform = some (platform display.os)
  «alias» : ∃ given, text body "address_book_alias" = some given ∧
    ∀ text ∈ given, entry.alias = some text
  password : ∃ given, text body "address_book_password" = some given ∧
    ∀ plain ∈ given, entry.passwordEnc = some (server.encryptString plain)
  tag : ∃ given, text body "address_book_tag" = some given ∧ ∀ name ∈ given,
    ∃ tag ∈ tags.rows, tag.addressBookId = id ∧ server.equal tag.name (.string name) ∧
      .int tag.id ∈ entry.tagIds.getD []

/-- What a request that succeeds has done: the device of its id and the columns that it names, the
device's own assignment, and an entry and a tag of the book that it names. -/
structure Assigned (server : Server) (body : Body) (s s' : Fleet) (row : Device) : Prop where
  device : ∃ id uuid, (body "id").toText.map trim = some id ∧
    (body "uuid").toText.map trim = some uuid ∧ row ∈ s'.db.devices.rows ∧
    server.equal row.rustdeskId (.string id) ∧ row.uuid = uuid ∧ row.status = .active ∧
    row.trashed = false ∧ Within row.id s.db s'.db ∧ ∀ k ≠ row.id, s'.displays k = s.displays k
  owner : Names server s.db.users.rows User.username User.id body "user_name"
    ((s.db.devices.find? row.id).bind Device.userId) row.userId
  folder : Names server s.db.deviceGroups.rows DeviceGroup.name DeviceGroup.id body
    "device_group_name" ((s.db.devices.find? row.id).bind Device.deviceGroupId) row.deviceGroupId
  note : ∃ note, text body "note" = some note ∧
    row.note = note.or ((s.db.devices.find? row.id).bind Device.note)
  display : ∃ hostname username, text body "device_name" = some hostname ∧
    text body "device_username" = some username ∧
    s'.displays row.id = (s.shown row.id).override hostname username
  strategy : if filled body "strategy_name" then
      ∃ strategy ∈ s.db.strategies.rows, strategy.trashed = false ∧
        server.equal strategy.name (body "strategy_name") ∧
        (s'.db.deviceStrategy.filter fun pair => pair.1 = row.id) = [(row.id, strategy.id)]
    else s'.db.deviceStrategy = s.db.deviceStrategy
  unnamed : filled body "address_book_name" = false →
    s'.books.entries = s.books.entries ∧ s'.books.tags = s.books.tags
  named : filled body "address_book_name" → ∃ book ∈ s.db.addressBooks.rows,
    server.equal book.name (body "address_book_name") ∧
    OneOf AddressBookEntry.addressBookId book.id s.books.entries s'.books.entries ∧
    OneOf Tag.addressBookId book.id s.books.tags s'.books.tags ∧
    ∃ entry ∈ s'.books.entries.rows,
      Entered server body (s'.displays row.id) s'.books.tags book.id row entry

section Device
variable {id : Nat} {db db' db'' : Database}

theorem Within.refl (id : Nat) (db : Database) : Within id db db := ⟨rfl, fun _ _ => rfl, rfl⟩

theorem Within.trans (h : Within id db db') (h' : Within id db' db'') : Within id db db'' := by
  refine ⟨?_, fun k away => (h'.devices k away).trans (h.devices k away),
    h'.assigned.trans h.assigned⟩
  rw [h'.frame, h.frame]

theorem within_update (p : Device → Bool) (f : Device → Device)
    (keeps : ∀ row, Row.id (f row) = Row.id row) (only : ∀ row, p row → row.id = id) :
    Within id db { db with devices := db.devices.update p f keeps } := by
  refine ⟨rfl, fun k away => ?_, rfl⟩
  rw [Table.find?_update]
  cases found : db.devices.find? k with
  | none => rfl
  | some row =>
      have own : row.id = k := (db.devices.find?_eq_some_iff.mp found).2
      have unselected : p row = false := by
        cases selected : p row with
        | false => rfl
        | true => exact absurd (own.symm.trans (only row selected)) away
      rw [Option.map_some, unselected]
      rfl

theorem within_syncResolvedFor (s : System) (device : Device) :
    Within device.id s.db (Strategy.syncResolvedFor s device).db := by
  have same := Strategy.resolve_db s device
  simp only [Strategy.syncResolvedFor]
  split
  · rw [← same]
    exact within_update _ _ _ fun row selected => of_decide_eq_true selected
  · rw [same]
    exact .refl _ _

/-- A recompute of the devices of one key. -/
theorem within_foldl (devices : List Device) (only : ∀ device ∈ devices, device.id = id)
    (s : System) : Within id s.db (devices.foldl Strategy.syncResolvedFor s).db := by
  induction devices generalizing s with
  | nil => exact .refl id s.db
  | cons device devices ih =>
      have own : device.id = id := only device List.mem_cons_self
      have first := within_syncResolvedFor s device
      rw [own] at first
      exact first.trans (ih (fun other mem => only other (List.mem_cons_of_mem _ mem)) _)

theorem recached_foldl (devices : List Device) (s : System) :
    Strategy.Recached s.db (devices.foldl Strategy.syncResolvedFor s).db := by
  induction devices generalizing s with
  | nil => exact .refl s.db
  | cons device devices ih => exact (Strategy.recached_syncResolvedFor s device).trans (ih _)

theorem within_assignTo (s : System) (strategyId : Nat) :
    Within id s.db (Strategy.assignTo s .device id (some strategyId)).db := by
  have attached : Within id s.db (Strategy.attach (Strategy.unassign s .device id) .device id
      (some strategyId)).db := by
    refine ⟨rfl, fun _ _ => rfl, ?_⟩
    simp [Strategy.attach, Strategy.unassign, Database.setPivot, Database.pivot]
  rw [Strategy.assignTo, Strategy.recomputeForLevel, Strategy.recomputeQuery]
  refine attached.trans (within_foldl _ (fun device mem => ?_) _)
  simpa using (List.mem_filter.mp mem).2

/-- The row of a key, the cached column aside. -/
def Holds (row : Device) (db : Database) : Prop :=
  (db.devices.find? row.id).map Device.uncached = some row.uncached

theorem Holds.recached {row : Device} (h : Holds row db) (recached : Strategy.Recached db db') :
    Holds row db' := by
  obtain ⟨devices, rfl, same⟩ := recached
  exact (same row.id).trans h

theorem Holds.assignTo {row : Device} {s : System} (h : Holds row s.db) (level : StrategyLevel)
    (targetId : Nat) (strategyId : Option Nat) :
    Holds row (Strategy.assignTo s level targetId strategyId).db := by
  rw [Strategy.assignTo, Strategy.recomputeForLevel, Strategy.recomputeQuery]
  refine Holds.recached ?_ (recached_foldl _ _)
  cases strategyId <;> cases level <;> exact h

/-- The row that is there agrees with what was written in every other column. -/
theorem Holds.row {row : Device} (h : Holds row db) : ∃ found ∈ db.devices.rows,
    ∀ {α : Type} (column : Device → α), (∀ device, column device.uncached = column device) →
      column found = column row := by
  obtain ⟨found, here, same⟩ := Option.map_eq_some_iff.mp h
  refine ⟨found, (db.devices.find?_eq_some_iff.mp here).1, fun column other => ?_⟩
  rw [← other found, same, other row]

theorem assignments_recached (recached : Strategy.Recached db db') :
    db'.deviceStrategy = db.deviceStrategy := by
  obtain ⟨devices, rfl, _⟩ := recached
  rfl

theorem assignments_syncResolvedFor (s : System) (device : Device) :
    (Strategy.syncResolvedFor s device).db.deviceStrategy = s.db.deviceStrategy :=
  assignments_recached (Strategy.recached_syncResolvedFor s device)

theorem assignments_assignTo (s : System) (id strategyId : Nat) :
    (Strategy.assignTo s .device id (some strategyId)).db.deviceStrategy =
      (s.db.deviceStrategy.filter fun row => row.1 ≠ id) ++ [(id, strategyId)] := by
  rw [Strategy.assignTo, Strategy.recomputeForLevel, Strategy.recomputeQuery]
  exact assignments_recached (recached_foldl _ _)

theorem written_deviceUpdate {s : System} {device : Device} (mem : device ∈ s.db.devices.rows)
    (change : Device → Device) (keeps : ∀ row, Row.id (change row) = Row.id row) :
    Within device.id s.db (Device.update s device change keeps).db ∧
      Holds (change device) (Device.update s device change keeps).db ∧
      (Device.update s device change keeps).db.deviceStrategy = s.db.deviceStrategy := by
  have own : (change device).id = device.id := keeps device
  have wrote : Within device.id s.db (Device.write s device change keeps).db :=
    within_update _ _ _ fun row selected => of_decide_eq_true selected
  have holds : Holds (change device) (Device.write s device change keeps).db := by
    have found := Table.find?_update_id mem change keeps (change device).id
    rw [if_pos (show (change device).id = Row.id device from own)] at found
    exact congrArg (Option.map Device.uncached) found
  simp only [Device.update]
  split
  · have synced := within_syncResolvedFor (Device.write s device change keeps) (change device)
    rw [own] at synced
    exact ⟨wrote.trans synced, holds.recached (Strategy.recached_syncResolvedFor _ _),
      assignments_syncResolvedFor _ _⟩
  · exact ⟨wrote, holds, rfl⟩

theorem written_deviceCreate (s : System) (attributes : Device.Attributes) :
    Within s.db.devices.nextId s.db (Device.create s attributes).db ∧
      Holds (attributes.row s.db.devices.nextId) (Device.create s attributes).db ∧
      (Device.create s attributes).db.deviceStrategy = s.db.deviceStrategy := by
  rw [Device.create]
  have inserted : Within s.db.devices.nextId s.db
      (s.withDevices (s.db.devices.insert attributes.row)).db := by
    refine ⟨rfl, fun k away => ?_, rfl⟩
    exact (Table.find?_insert attributes.row (fun _ => rfl) k).trans (if_neg away)
  refine ⟨inserted.trans (within_syncResolvedFor _ (attributes.row s.db.devices.nextId)), ?_,
    assignments_syncResolvedFor _ _⟩
  refine Holds.recached ?_ (Strategy.recached_syncResolvedFor _ _)
  exact congrArg (Option.map Device.uncached)
    ((Table.find?_insert attributes.row (fun _ => rfl) _).trans (if_pos rfl))

end Device

section Requests
variable {server : Server} {body : Body}

/-- A row of the name, if the body gives one. -/
def Found {ρ : Type} (server : Server) (rows : List ρ) (column : ρ → String) (body : Body)
    (field : String) (row : Option ρ) : Prop :=
  row.isSome = filled body field ∧
    ∀ r, row = some r → r ∈ rows ∧ server.equal (column r) (body field)

theorem Found.names {ρ : Type} {rows : List ρ} {column : ρ → String} {field : String}
    {row : Option ρ} (found : Found server rows column body field row) (key : ρ → Nat)
    (before : Option Nat) :
    Names server rows column key body field before ((row.map key).or before) := by
  unfold Names
  cases row with
  | none => rw [← found.1]; rfl
  | some r =>
      rw [← found.1]
      exact ⟨r, (found.2 r rfl).1, (found.2 r rfl).2, rfl⟩

theorem named_eq_ok {ρ : Type} {rows : List ρ} {column : ρ → String} {field what : String}
    {row : Option ρ} (found : named server rows column body field what = .ok row) :
    Found server rows column body field row := by
  unfold named at found
  split at found
  · next blank =>
    obtain rfl := Except.ok.inj found
    exact ⟨by simpa using blank, fun r absent => by cases absent⟩
  · next given =>
    split at found
    · next r first =>
      obtain rfl := Except.ok.inj found
      refine ⟨by simpa using given, fun r' same => ?_⟩
      obtain rfl := Option.some.inj same
      exact ⟨List.mem_of_find?_eq_some first, by simpa using List.find?_some first⟩
    · split at found <;> cases found

theorem named_eq_error {ρ : Type} {rows : List ρ} {column : ρ → String} {field what : String}
    {answer : Answer} (failed : named server rows column body field what = .error answer) :
    answer ≠ .done := by
  unfold named at failed
  split at failed
  · cases failed
  · split at failed
    · cases failed
    · split at failed <;>
      · obtain rfl := Except.error.inj failed
        intro done
        cases done

/-- What a plan has been checked for. -/
structure Checked (server : Server) (db : Database) (token : Option ApiToken) (body : Body)
    (plan : Plan) : Prop where
  id : (body "id").toText.map trim = some plan.id
  uuid : (body "uuid").toText.map trim = some plan.uuid
  user : Found server db.users.rows User.username body "user_name" plan.user
  group : Found server db.deviceGroups.rows DeviceGroup.name body "device_group_name" plan.group
  strategy : Found server (db.strategies.rows.filter (! ·.trashed)) Strategy.name body
    "strategy_name" plan.strategy
  book : Found server db.addressBooks.rows AddressBook.name body "address_book_name" plan.book
  mayBook : plan.book.isSome → tokenAllows token .addressBook
  mayStrategy : plan.strategy.isSome → tokenAllows token .strategy

theorem checked_of_resolve {db : Database} {token : Option ApiToken} {plan : Plan}
    (resolved : resolve server db token body = .ok plan) : Checked server db token body plan := by
  unfold resolve at resolved
  split at resolved
  · next id uuid hasId hasUuid =>
    split at resolved
    · cases resolved
    split at resolved
    · cases resolved
    split at resolved
    · cases resolved
    next books =>
    split at resolved
    · cases resolved
    next strategies =>
    obtain ⟨user, foundUser, resolved⟩ := Except.bind_eq_ok.mp resolved
    obtain ⟨group, foundGroup, resolved⟩ := Except.bind_eq_ok.mp resolved
    obtain ⟨strategy, foundStrategy, resolved⟩ := Except.bind_eq_ok.mp resolved
    obtain ⟨book, foundBook, resolved⟩ := Except.bind_eq_ok.mp resolved
    obtain rfl := Except.ok.inj resolved
    refine ⟨hasId, hasUuid, named_eq_ok foundUser, named_eq_ok foundGroup,
      named_eq_ok foundStrategy, named_eq_ok foundBook, fun some => ?_, fun some => ?_⟩
    · rw [(named_eq_ok foundBook).1] at some
      simp only [abFields, List.any_cons, some, Bool.true_or, Bool.true_and, Bool.not_eq_true',
        Bool.not_eq_false] at books
      exact books
    · rw [(named_eq_ok foundStrategy).1] at some
      simp only [some, Bool.true_and, Bool.not_eq_true', Bool.not_eq_false] at strategies
      exact strategies
  · cases resolved

/-- A check that fails is no success. -/
theorem ne_done_of_resolve {db : Database} {token : Option ApiToken} {answer : Answer}
    (failed : resolve server db token body = .error answer) : answer ≠ .done := by
  have refused {text : String} {status : Nat}
      (failed : (.error (.message text status) : Except Answer Plan) = .error answer) :
      answer ≠ .done := by
    obtain rfl := Except.error.inj failed
    intro done
    cases done
  unfold resolve at failed
  split at failed
  · split at failed
    · exact refused failed
    split at failed
    · exact refused failed
    split at failed
    · exact refused failed
    split at failed
    · exact refused failed
    obtain failed | ⟨user, _, failed⟩ := Except.bind_eq_error.mp failed
    · exact named_eq_error failed
    obtain failed | ⟨group, _, failed⟩ := Except.bind_eq_error.mp failed
    · exact named_eq_error failed
    obtain failed | ⟨strategy, _, failed⟩ := Except.bind_eq_error.mp failed
    · exact named_eq_error failed
    obtain failed | ⟨book, _, failed⟩ := Except.bind_eq_error.mp failed
    · exact named_eq_error failed
    cases failed
  · obtain rfl := Except.error.inj failed
    intro done
    cases done

/-- The columns of a row that the request names. -/
structure Columns (body : Body) (plan : Plan) (s s' : Fleet) (device : Device) : Prop where
  owner : device.userId =
    (plan.user.map User.id).or ((s.db.devices.find? device.id).bind Device.userId)
  folder : device.deviceGroupId =
    (plan.group.map DeviceGroup.id).or ((s.db.devices.find? device.id).bind Device.deviceGroupId)
  note : ∃ note, text body "note" = some note ∧
    device.note = note.or ((s.db.devices.find? device.id).bind Device.note)
  display : ∃ hostname username, text body "device_name" = some hostname ∧
    text body "device_username" = some username ∧
    s'.displays device.id = (s.shown device.id).override hostname username

/-- The row that `assign` has saved. -/
structure Saved (server : Server) (body : Body) (plan : Plan) (s s' : Fleet) (device : Device) :
    Prop where
  identified : server.equal device.rustdeskId (.string plan.id) ∧ device.uuid = plan.uuid ∧
    device.status = .active ∧ device.trashed = false
  written : Within device.id s.db s'.db ∧ Holds device s'.db ∧
    s'.db.deviceStrategy = s.db.deviceStrategy
  columns : Columns body plan s s' device
  displays : ∀ k ≠ device.id, s'.displays k = s.displays k
  books : s'.books.entries = s.books.entries ∧ s'.books.tags = s.books.tags

theorem saved_of_saveDevice {s s' : Fleet} {plan : Plan} {device : Device}
    (done : saveDevice server s body plan = some (s', device)) :
    Saved server body plan s s' device := by
  simp only [saveDevice, Option.bind_eq_bind, Option.bind_eq_some_iff] at done
  obtain ⟨note, hasNote, hostname, hasHostname, username, hasUsername, done⟩ := done
  split at done
  · cases done
  split at done
  · next row found =>
    obtain ⟨rfl, rfl⟩ := Prod.mk.inj (Option.some.inj done)
    have mem := List.mem_of_find?_eq_some found
    have chosen := List.find?_some found
    simp only [Bool.and_eq_true, Bool.not_eq_true'] at chosen
    have before : s.db.devices.find? (plan.fill note row).id = some row :=
      s.db.devices.find?_of_mem mem
    have shown : s.displays row.id = s.shown (plan.fill note row).id := by
      rw [Fleet.shown, before]
      rfl
    refine ⟨⟨chosen.2, rfl, rfl, chosen.1⟩, written_deviceUpdate mem (plan.fill note) fun _ => rfl,
      ⟨?_, ?_, ⟨note, hasNote, ?_⟩, hostname, username, hasHostname, hasUsername, ?_⟩,
      fun k away => if_neg away, rfl, rfl⟩
    · rw [before]
      rfl
    · rw [before]
      rfl
    · rw [before]
      rfl
    · rw [← shown]
      exact if_pos rfl
  · split at done
    · cases done
    · obtain ⟨rfl, rfl⟩ := Prod.mk.inj (Option.some.inj done)
      have before : s.db.devices.find? ((plan.attributes note).row s.books.system.db.devices.nextId).id = none :=
        s.db.devices.find?_eq_none_iff.mpr fun row mem => Nat.ne_of_lt (s.db.devices.below row mem)
      have shown : {} = s.shown ((plan.attributes note).row s.books.system.db.devices.nextId).id := by
        rw [Fleet.shown, before]
        rfl
      refine ⟨⟨server.equal_self plan.id, rfl, rfl, rfl⟩, written_deviceCreate _ _,
        ⟨?_, ?_, ⟨note, hasNote, ?_⟩, hostname, username, hasHostname, hasUsername, ?_⟩,
        fun k away => if_neg away, rfl, rfl⟩
      · rw [before]
        exact Option.or_none.symm
      · rw [before]
        exact Option.or_none.symm
      · rw [before]
        exact Option.or_none.symm
      · rw [← shown]
        exact if_pos rfl

end Requests

section OneOf
variable {ρ : Type} [Row ρ] {book : ρ → Nat} {id : Nat} (t : Table ρ)

theorem oneOf_self (book : ρ → Nat) (id : Nat) : OneOf book id t t := by
  have fresh : t.find? t.nextId = none :=
    t.find?_eq_none_iff.mpr fun row mem => Nat.ne_of_lt (t.below row mem)
  refine ⟨t.nextId, fun _ _ => rfl, fun row found => ?_, fun row found => ?_⟩ <;>
  · rw [fresh] at found
    cases found

variable {t}

theorem oneOf_update {r : ρ} (mem : r ∈ t.rows) (own : book r = id) (f : ρ → ρ)
    (keeps : ∀ row, Row.id (f row) = Row.id row) (stays : book (f r) = id) :
    OneOf book id t (t.update (fun row => decide (Row.id row = Row.id r)) f keeps) := by
  refine ⟨Row.id r, fun k away => ?_, fun row found => ?_, fun row found => ?_⟩
  · rw [Table.find?_update_id mem, if_neg away]
  · rw [t.find?_of_mem mem] at found
    obtain rfl := Option.some.inj found
    exact own
  · rw [Table.find?_update_id mem, if_pos rfl] at found
    obtain rfl := Option.some.inj found
    exact stays

theorem oneOf_insert (make : Nat → ρ) (given : ∀ n, Row.id (make n) = n)
    (own : ∀ n, book (make n) = id) : OneOf book id t (t.insert make given) := by
  refine ⟨t.nextId, fun k away => ?_, fun row found => ?_, fun row found => ?_⟩
  · rw [Table.find?_insert, if_neg away]
  · have old := t.find?_eq_some_iff.mp found
    exact absurd old.2 (Nat.ne_of_lt (t.below row old.1))
  · rw [Table.find?_insert, if_pos rfl] at found
    obtain rfl := Option.some.inj found
    exact own t.nextId

end OneOf

section Books
variable {server : Server} {body : Body} {book : Nat}

theorem of_firstOrCreateTag {s books : Books} {name : String} {id : Nat}
    (done : firstOrCreateTag server s book name = some (books, id)) :
    books.system = s.system ∧ books.entries = s.entries ∧
      OneOf Tag.addressBookId book s.tags books.tags ∧
      ∃ tag ∈ books.tags.rows, tag.id = id ∧ tag.addressBookId = book ∧
        server.equal tag.name (.string name) := by
  unfold firstOrCreateTag at done
  split at done
  · next tag found =>
    obtain ⟨rfl, rfl⟩ := Prod.mk.inj (Option.some.inj done)
    obtain ⟨mem, own⟩ := Books.mem_tagsOf.mp (List.mem_of_find?_eq_some found)
    exact ⟨rfl, rfl, oneOf_self _ _ _, tag, mem, rfl, own,
      by simpa using List.find?_some found⟩
  · split at done
    · cases done
    · obtain ⟨_, rfl, tags, entries, system⟩ := Books.createTag_eq_some_iff.mp done
      rw [tags]
      exact ⟨system, entries, oneOf_insert _ _ fun _ => rfl, _, Table.mem_insert.mpr (.inr rfl), rfl,
        rfl, server.equal_self name⟩

theorem of_saveEntry {s books : Books} {rustdeskId : String} {found : Option AddressBookEntry}
    {given : Given} (listed : ∀ entry, found = some entry → entry ∈ s.entriesOf book ∧
      server.equal entry.rustdeskId (.string rustdeskId))
    (done : saveEntry server s book rustdeskId found given = some books) :
    books.system = s.system ∧ books.tags = s.tags ∧
      OneOf AddressBookEntry.addressBookId book s.entries books.entries ∧
      ∃ entry, given.fill entry ∈ books.entries.rows ∧ entry.addressBookId = book ∧
        server.equal entry.rustdeskId (.string rustdeskId) := by
  unfold saveEntry at done
  split at done
  · cases done
  split at done
  · next entry =>
    obtain ⟨here, equal⟩ := listed entry rfl
    obtain ⟨mem, own⟩ := Books.mem_entriesOf.mp here
    obtain ⟨_, entries, tags, system⟩ := Books.writeEntries_eq_some_iff.mp done
    rw [entries]
    refine ⟨system, tags, oneOf_update mem own given.fill (fun _ => rfl) own, entry, ?_, own, equal⟩
    exact Table.mem_update.mpr ⟨entry, mem, if_pos (decide_eq_true rfl)⟩
  · obtain ⟨_, entries, tags, system⟩ := Books.writeEntries_eq_some_iff.mp done
    rw [entries]
    refine ⟨system, tags, oneOf_insert _ _ fun _ => rfl,
      { id := s.entries.nextId, addressBookId := book, rustdeskId }, ?_, rfl,
      server.equal_self rustdeskId⟩
    exact Table.mem_insert.mpr (.inr rfl)

theorem mem_addTagId (tagIds : List Json) (id : Nat) : .int id ∈ addTagId tagIds id := by
  unfold addTagId
  split
  · next listed =>
    obtain ⟨value, mem, same⟩ := List.any_eq_true.mp listed
    split at same
    · obtain rfl := of_decide_eq_true same
      exact mem
    · cases same
  · simp

/-- The row that `applyAddressBook` looks for. -/
theorem listed_find {s : Books} {rustdeskId : String} (entry : AddressBookEntry)
    (found : ((s.entriesOf book).find? fun entry =>
      server.equal entry.rustdeskId (.string rustdeskId)) = some entry) :
    entry ∈ s.entriesOf book ∧ server.equal entry.rustdeskId (.string rustdeskId) :=
  ⟨List.mem_of_find?_eq_some found, by simpa using List.find?_some found⟩

/-- A row filled with what the body gives is entered, once it has the tag that the body names. -/
theorem entered_fill {display : Display} {tags : Table Tag} {device : Device} {entry : AddressBookEntry}
    {«alias» password tag : Option String} {tagIds : Option (List Json)}
    (own : entry.addressBookId = book)
    (equal : server.equal entry.rustdeskId (.string device.rustdeskId))
    (hasAlias : text body "address_book_alias" = some «alias»)
    (hasPassword : text body "address_book_password" = some password)
    (hasTag : text body "address_book_tag" = some tag)
    (tagged : ∀ name ∈ tag, ∃ row ∈ tags.rows, row.addressBookId = book ∧
      server.equal row.name (.string name) ∧ .int row.id ∈ tagIds.getD []) :
    Entered server body display tags book device
      (Given.fill ⟨display, «alias», password.map server.encryptString, tagIds⟩ entry) := by
  refine ⟨own, equal, ⟨rfl, rfl, rfl⟩, ⟨«alias», hasAlias, fun text given => ?_⟩,
    ⟨password, hasPassword, fun plain given => ?_⟩, tag, hasTag, tagged⟩
  · rw [Option.mem_def.mp given]
    rfl
  · rw [Option.mem_def.mp given]
    rfl

/-- What an address book's part of the request leaves, also where it breaks off. -/
theorem of_applyAddressBook {s : Fleet} {device : Device} {books : Books} {went : Bool}
    (done : applyAddressBook server s body book device = (books, went)) :
    books.system = s.books.system ∧
      OneOf AddressBookEntry.addressBookId book s.books.entries books.entries ∧
      OneOf Tag.addressBookId book s.books.tags books.tags ∧
      (went = true → ∃ entry ∈ books.entries.rows,
        Entered server body (s.displays device.id) books.tags book device entry) := by
  have unchanged : s.books.system = s.books.system ∧
      OneOf AddressBookEntry.addressBookId book s.books.entries s.books.entries ∧
      OneOf Tag.addressBookId book s.books.tags s.books.tags ∧
      (false = true → ∃ entry ∈ s.books.entries.rows,
        Entered server body (s.displays device.id) s.books.tags book device entry) :=
    ⟨rfl, oneOf_self _ _ _, oneOf_self _ _ _, fun broke => by cases broke⟩
  simp only [applyAddressBook] at done
  split at done
  · next «alias» password hasAlias hasPassword hasTag =>
    split at done
    · next saved wrote =>
      obtain ⟨rfl, rfl⟩ := Prod.mk.inj done
      obtain ⟨system, tags, entries, entry, mem, own, equal⟩ := of_saveEntry listed_find wrote
      rw [tags]
      refine ⟨system, entries, oneOf_self _ _ _, fun _ => ⟨_, mem, ?_⟩⟩
      exact entered_fill own equal hasAlias hasPassword hasTag nofun
    · obtain ⟨rfl, rfl⟩ := Prod.mk.inj done
      exact unchanged
  · next «alias» password tag hasAlias hasPassword hasTag =>
    split at done
    · next tagged id made =>
      obtain ⟨system, entries, tags, row, present, named, inBook, equalName⟩ := of_firstOrCreateTag made
      split at done
      · next saved wrote =>
        obtain ⟨rfl, rfl⟩ := Prod.mk.inj done
        obtain ⟨system', tags', entries', entry, mem, own, equal⟩ := of_saveEntry (fun entry found => by
          rw [Books.entriesOf, entries]
          exact listed_find entry found) wrote
        rw [tags']
        rw [entries] at entries'
        refine ⟨system'.trans system, entries', tags, fun _ => ⟨_, mem, ?_⟩⟩
        refine entered_fill own equal hasAlias hasPassword hasTag fun name same => ?_
        obtain rfl := Option.some.inj same
        refine ⟨row, present, inBook, equalName, ?_⟩
        rw [named]
        exact mem_addTagId _ id
      · obtain ⟨rfl, rfl⟩ := Prod.mk.inj done
        rw [entries]
        exact ⟨system, oneOf_self _ _ _, tags, fun broke => by cases broke⟩
    · obtain ⟨rfl, rfl⟩ := Prod.mk.inj done
      exact unchanged
  · obtain ⟨rfl, rfl⟩ := Prod.mk.inj done
    exact unchanged

end Books

section Assign
variable {server : Server} {body : Body} {s : Fleet} {token : Option ApiToken}

/-- What a request that passed its checks has written by the time it ends or breaks off. -/
structure Reached (server : Server) (body : Body) (plan : Plan) (s t : Fleet) (device : Device)
    (books : Books) : Prop where
  saved : Saved server body plan s t device
  system : books.system = t.books.system
  unnamed : plan.book = none → books.entries = s.books.entries ∧ books.tags = s.books.tags
  named : ∀ book, plan.book = some book →
    OneOf AddressBookEntry.addressBookId book.id s.books.entries books.entries ∧
    OneOf Tag.addressBookId book.id s.books.tags books.tags

/-- A request is answered before anything is written, or it has passed every check. -/
theorem assign_cases (server : Server) (s : Fleet) (token : Option ApiToken) (body : Body) :
    (∃ answer, answer ≠ .done ∧ assign server s token body = (answer, s)) ∨
      ∃ plan t device books, Checked server s.db token body plan ∧
        Reached server body plan s t device books ∧
        (assign server s token body = (.thrown, { t with books }) ∨
          assign server s token body = (.done, { t with books := { books with
            system := assignStrategy books.system device.id plan.strategy } }) ∧
          ∀ book, plan.book = some book → ∃ entry ∈ books.entries.rows,
            Entered server body (t.displays device.id) books.tags book.id device entry) := by
  unfold assign
  split
  · next answer failed => exact .inl ⟨answer, ne_done_of_resolve failed, rfl⟩
  · next plan resolved =>
    split
    · exact .inl ⟨.thrown, (fun done => by cases done), rfl⟩
    · next t device wrote =>
      have saved := saved_of_saveDevice wrote
      refine .inr ⟨plan, t, device, (assignBook server t body device plan.book).1,
        checked_of_resolve resolved, ⟨saved, ?system, ?unnamed, ?named⟩, ?ended⟩
      case system =>
        unfold assignBook
        split
        · exact (of_applyAddressBook rfl).1
        · rfl
      case unnamed =>
        intro unnamed
        rw [unnamed]
        exact saved.books
      case named =>
        intro book named
        have applied := of_applyAddressBook (Eq.refl (applyAddressBook server t body book.id device))
        rw [saved.books.1, saved.books.2] at applied
        rw [named]
        exact ⟨applied.2.1, applied.2.2.1⟩
      case ended =>
        dsimp only
        split
        · exact .inl rfl
        · next went =>
          refine .inr ⟨rfl, fun book named => ?_⟩
          have applied := of_applyAddressBook (Eq.refl (applyAddressBook server t body book.id device))
          rw [named] at went ⊢
          rw [Bool.not_eq_true', Bool.not_eq_false] at went
          exact applied.2.2.2 went

theorem within_assignStrategy (system : System) (id : Nat) (strategy : Option Strategy) :
    Within id system.db (assignStrategy system id strategy).db := by
  cases strategy with
  | none => exact .refl id system.db
  | some strategy => exact within_assignTo system strategy.id

theorem Holds.assignStrategy {row : Device} {system : System} (h : Holds row system.db) (id : Nat)
    (strategy : Option Strategy) :
    Holds row (Wire.assignStrategy system id strategy).db := by
  cases strategy with
  | none => exact h
  | some strategy => exact h.assignTo _ _ _

theorem Within.pivot {id : Nat} {db db' : Database} (h : Within id db db')
    (same : db'.deviceStrategy = db.deviceStrategy) (level : StrategyLevel) :
    db'.pivot level = db.pivot level := by
  rw [h.frame]
  cases level with
  | device => exact same
  | user => rfl
  | deviceGroup => rfl

/-- The device's own assignment is the strategy that the body names, or stays as it was. -/
theorem assigned_strategy {db : Database} {plan : Option Strategy}
    (found : Found server (db.strategies.rows.filter (! ·.trashed)) Strategy.name body
      "strategy_name" plan) (system : System) (id : Nat) :
    if filled body "strategy_name" then
      ∃ strategy ∈ db.strategies.rows, strategy.trashed = false ∧
        server.equal strategy.name (body "strategy_name") ∧
        ((assignStrategy system id plan).db.deviceStrategy.filter fun pair => pair.1 = id) =
          [(id, strategy.id)]
    else (assignStrategy system id plan).db.deviceStrategy = system.db.deviceStrategy := by
  cases plan with
  | none =>
      rw [← found.1]
      rfl
  | some strategy =>
      rw [← found.1]
      obtain ⟨listed, equal⟩ := found.2 strategy rfl
      obtain ⟨mem, present⟩ := List.mem_filter.mp listed
      refine ⟨strategy, mem, by simpa using present, equal, ?_⟩
      rw [assignStrategy, assignments_assignTo]
      simp

theorem assigned_of_reached {plan : Plan} {t : Fleet} {device : Device} {books : Books}
    (checked : Checked server s.db token body plan) (h : Reached server body plan s t device books)
    (entered : ∀ book, plan.book = some book → ∃ entry ∈ books.entries.rows,
      Entered server body (t.displays device.id) books.tags book.id device entry) :
    ∃ row, Assigned server body s { t with books := { books with
      system := assignStrategy books.system device.id plan.strategy } } row := by
  obtain ⟨within, holds, _⟩ := h.saved.written
  have after : Within device.id s.db (assignStrategy books.system device.id plan.strategy).db := by
    rw [h.system]
    exact within.trans (within_assignStrategy _ _ _)
  have kept : Holds device (assignStrategy books.system device.id plan.strategy).db := by
    rw [h.system]
    exact Holds.assignStrategy holds _ _
  obtain ⟨row, mem, agrees⟩ := kept.row
  have own : row.id = device.id := agrees Device.id fun _ => rfl
  obtain ⟨named, uuid, active, present⟩ := h.saved.identified
  refine ⟨row, ⟨plan.id, plan.uuid, checked.id, checked.uuid, mem, ?_, ?_, ?_, ?_, ?_, ?_⟩,
    ?_, ?_, ?_, ?_, ?_, fun blank => ?_, fun given => ?_⟩
  · rw [agrees Device.rustdeskId fun _ => rfl]
    exact named
  · rw [agrees Device.uuid fun _ => rfl]
    exact uuid
  · rw [agrees Device.status fun _ => rfl]
    exact active
  · rw [agrees Device.trashed fun _ => rfl]
    exact present
  · rw [own]
    exact after
  · rw [own]
    exact h.saved.displays
  · rw [agrees Device.userId fun _ => rfl, own, h.saved.columns.owner]
    exact checked.user.names User.id _
  · rw [agrees Device.deviceGroupId fun _ => rfl, own, h.saved.columns.folder]
    exact checked.group.names DeviceGroup.id _
  · rw [agrees Device.note fun _ => rfl, own]
    exact h.saved.columns.note
  · rw [own]
    exact h.saved.columns.display
  · have assigned := assigned_strategy checked.strategy books.system device.id
    rw [h.system] at assigned ⊢
    rw [own, ← h.saved.written.2.2]
    exact assigned
  · refine h.unnamed (Option.not_isSome_iff_eq_none.mp ?_)
    rw [checked.book.1, blank]
    exact Bool.false_ne_true
  · obtain ⟨book, found⟩ := Option.isSome_iff_exists.mp (checked.book.1.trans given)
    obtain ⟨mem, equal⟩ := checked.book.2 book found
    obtain ⟨entry, listed, entered⟩ := entered book found
    refine ⟨book, mem, equal, (h.named book found).1, (h.named book found).2, entry, listed, ?_⟩
    rw [own]
    refine ⟨entered.book, ?_, entered.display, entered.alias, entered.password, entered.tag⟩
    rw [agrees Device.rustdeskId fun _ => rfl]
    exact entered.device

/-- Books are changed for a token that may write them alone. -/
theorem mayBook_of_reached {plan : Plan} {t : Fleet} {device : Device} {books : Books}
    (checked : Checked server s.db token body plan) (h : Reached server body plan s t device books)
    (changed : books.entries ≠ s.books.entries ∨ books.tags ≠ s.books.tags) :
    tokenAllows token .addressBook := by
  refine checked.mayBook ?_
  by_contra unnamed
  obtain ⟨entries, tags⟩ := h.unnamed (Option.not_isSome_iff_eq_none.mp unnamed)
  obtain entered | tagged := changed
  · exact entered entries
  · exact tagged tags

theorem mayStrategy_of_reached {plan : Plan} {t : Fleet} {device : Device} {books : Books}
    (checked : Checked server s.db token body plan) (h : Reached server body plan s t device books)
    {level : StrategyLevel} (changed : (assignStrategy books.system device.id plan.strategy).db.pivot
      level ≠ s.db.pivot level) : tokenAllows token .strategy := by
  refine checked.mayStrategy ?_
  by_contra unnamed
  rw [Option.not_isSome_iff_eq_none.mp unnamed, assignStrategy, h.system] at changed
  obtain ⟨within, _, same⟩ := h.saved.written
  exact changed (within.pivot same level)

/-- An answer of the client's fault leaves everything as it was; books are changed with
`address_book` rw and assignments with `strategy` rw alone, also where the request breaks off; and
one that succeeds has changed the device of its id and what it names. -/
theorem assign_within_token (server : Server) (s : Fleet) (token : Option ApiToken) (body : Body) :
    ∃ answer s', assign server s token body = (answer, s') ∧
      (400 ≤ answer.status → answer.status < 500 → s' = s) ∧
      (s'.books.entries ≠ s.books.entries ∨ s'.books.tags ≠ s.books.tags ∨
        s'.db.addressBooks ≠ s.db.addressBooks → tokenAllows token .addressBook) ∧
      (∀ level, s'.db.pivot level ≠ s.db.pivot level → tokenAllows token .strategy) ∧
      (answer = .done → ∃ row, Assigned server body s s' row) := by
  obtain ⟨answer, failed, answered⟩ | ⟨plan, t, device, books, checked, reached, ended⟩ :=
    assign_cases server s token body
  · refine ⟨answer, s, answered, fun _ _ => rfl, fun changed => ?_, fun _ changed => absurd rfl changed,
      fun done => absurd done failed⟩
    obtain entries | tags | addressBooks := changed
    · exact absurd rfl entries
    · exact absurd rfl tags
    · exact absurd rfl addressBooks
  · have within (strategy : Option Strategy) :
        Within device.id s.db (assignStrategy books.system device.id strategy).db := by
      rw [reached.system]
      exact reached.saved.written.1.trans (within_assignStrategy _ _ _)
    have mayBook (strategy : Option Strategy)
        (changed : books.entries ≠ s.books.entries ∨ books.tags ≠ s.books.tags ∨
          (assignStrategy books.system device.id strategy).db.addressBooks ≠ s.db.addressBooks) :
        tokenAllows token .addressBook := by
      obtain entries | tags | addressBooks := changed
      · exact mayBook_of_reached checked reached (.inl entries)
      · exact mayBook_of_reached checked reached (.inr tags)
      · exact absurd (congrArg Database.addressBooks (within strategy).frame) addressBooks
    obtain thrown | ⟨done, entered⟩ := ended
    · refine ⟨_, _, thrown, fun _ small => absurd small (by decide), mayBook none,
        fun level changed => ?_, fun done => by cases done⟩
      have same := reached.saved.written.1.pivot reached.saved.written.2.2 level
      rw [← same] at changed
      exact absurd (congrArg (fun system => system.db.pivot level) reached.system) changed
    · exact ⟨_, _, done, fun large _ => absurd large (by decide), mayBook plan.strategy,
        fun _ changed => mayStrategy_of_reached checked reached changed,
        fun _ => assigned_of_reached checked reached entered⟩

end Assign

/-- A column is compared as it is spelled. -/
def binaryServer : Server where
  equal text
    | .string bound => bound == text
    | _ => false
  equal_self text := beq_self_eq_true text
  refuses _ := false
  encryptString plain := "sealed " ++ plain

/-- A book with another entry and another tag. -/
def kiosks : Fleet where
  books :=
    { system :=
        { db :=
            { users := Table.empty.insert fun id => { id, username := "porter" }
              deviceGroups := Table.empty.insert fun id => { id, name := "Kiosks" }
              strategies := Table.empty.insert fun id => { id, name := "Kiosk mode" }
              addressBooks := Table.empty.insert fun id =>
                { id, name := "Lobby book", ownerUserId := none } } }
      tags := Table.empty.insert fun id => { id, addressBookId := 1, name := "lift", color := 0 }
      entries := Table.empty.insert fun id => { id, addressBookId := 1, rustdeskId := "901" }
      tagNames := by decide +kernel
      entryIds := by decide +kernel }

/-- A new device with everything that a request may name. -/
def enrolment : Body
  | "id" => .string " 900 "
  | "uuid" => .string "machine"
  | "user_name" => .string "porter"
  | "device_group_name" => .string "Kiosks"
  | "strategy_name" => .string "Kiosk mode"
  | "address_book_name" => .string "Lobby book"
  | "address_book_tag" => .string "public"
  | "address_book_alias" => .string "Door"
  | "address_book_password" => .string "1234"
  | "note" => .string "by the door"
  | "device_name" => .string "kiosk-1"
  | _ => .null

def writer : ApiToken where
  id := 1
  name := "enrolment"
  tokenHash := ""
  userId := some 1
  permissions _ := .rw

theorem assign_within_token_enrolment : ∃ s' row,
    assign binaryServer kiosks (some writer) enrolment = (.done, s') ∧
      Assigned binaryServer enrolment kiosks s' row := by
  have succeeds : (assign binaryServer kiosks (some writer) enrolment).1 = .done := by decide +kernel
  obtain ⟨answer, s', answered, -, -, -, assigned⟩ :=
    assign_within_token binaryServer kiosks (some writer) enrolment
  rw [answered] at succeeds
  obtain ⟨row, assigned⟩ := assigned succeeds
  exact ⟨s', row, by rw [answered, ← succeeds], assigned⟩

end DeviceCliController.Wire
end CortenDesk
