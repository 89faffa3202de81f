import CortenDesk.AddressBook.Legacy
import CortenDesk.AdminApi.Endpoints
import CortenDesk.Api.Enrollment

/-!
What the clients, the console, the automation API and the command line write to the tags and
the entries of an address book. An operation that is refused, or that throws before it wrote,
yields nothing. Of a body the fields are what the casts of the code make of them, and a
password is the ciphertext of it; a book is named by its key.
-/
namespace CortenDesk
open Php
open AddressBookRule (permReadWrite permFull)

namespace Books

/-- An update of the entries by key. -/
def updateEntry (s : Books) (id : Nat) (change : AddressBookEntry → AddressBookEntry)
    (keeps : ∀ row, Row.id (change row) = Row.id row := by intro _; rfl) : Option Books :=
  s.writeEntries (s.entries.update (fun row => decide (row.id = id)) change keeps)

/-- `tags()->firstOrCreate(['name' => $name], ['color' => $color])`. -/
def firstOrCreateTag (s : Books) (book : Nat) (name : String) (color : Int) : Option (Books × Nat) :=
  match (s.tagsOf book).find? fun tag => tag.name = name with
  | some tag => some (s, tag.id)
  | none => s.createTag book name color

def entryNamed (s : Books) (book : Nat) (rustdeskId : String) : Option AddressBookEntry :=
  (s.entriesOf book).find? fun entry => entry.rustdeskId = rustdeskId

end Books

namespace AddressBookController

/-- The book, where the account holds the tier on it. -/
def bookOrFail (s : Books) (user : User) (book required : Nat) : Option AddressBook :=
  (s.system.db.addressBooks.find? book).filter fun row =>
    required ≤ row.permissionFor s.system.db user

def tagNamesToIds (s : Books) (book : Nat) (names : List String) : List Json :=
  ((s.tagsOf book).filter fun tag => tag.name ∈ names).map fun tag => .int tag.id

structure NewPeer where
  id : String
  «alias» : String := ""
  username : String := ""
  hostname : String := ""
  platform : String := ""
  hash : String := ""
  password : Option String := none
  tags : List String := []

/-- The name the fleet gives a device that the account sees. -/
def fleetAlias (db : Database) (user : User) (rustdeskId : String) : String :=
  ((db.devices.rows.find? fun device => ! device.trashed && Device.visibleTo db user device &&
    device.rustdeskId = rustdeskId).bind Device.alias).getD ""

def peerAdd (s : Books) (user : User) (book : Nat) (r : NewPeer) : Option Books := do
  let row ← bookOrFail s user book permReadWrite
  if r.id = "" || (s.entryNamed book r.id).isSome then none
  else s.createEntry fun id =>
    { id, addressBookId := book, rustdeskId := r.id
      «alias» := some (if r.alias = "" then fleetAlias s.system.db user r.id else r.alias)
      username := some r.username, hostname := some r.hostname, platform := some r.platform
      hash := if row.isPersonal then some r.hash else none
      passwordEnc := if row.isPersonal then none else r.password
      tagIds := some (tagNamesToIds s book r.tags) }

/-- The fields of an edit that were sent. -/
structure PeerUpdate where
  id : String
  «alias» : Option String := none
  username : Option String := none
  hostname : Option String := none
  platform : Option String := none
  hash : Option String := none
  password : Option String := none
  tags : Option (List String) := none

def peerUpdate (s : Books) (user : User) (book : Nat) (r : PeerUpdate) : Option Books := do
  let row ← bookOrFail s user book permReadWrite
  let entry ← s.entryNamed book r.id
  s.updateEntry entry.id fun old =>
    { old with
      «alias» := r.alias.or old.alias, username := r.username.or old.username
      hostname := r.hostname.or old.hostname, platform := r.platform.or old.platform
      hash := if row.isPersonal then r.hash.or old.hash else old.hash
      passwordEnc := if row.isPersonal then old.passwordEnc else r.password.or old.passwordEnc
      tagIds := (r.tags.map (tagNamesToIds s book)).or old.tagIds }

def peerDelete (s : Books) (user : User) (book : Nat) (ids : List String) : Option Books := do
  let _ ← bookOrFail s user book permReadWrite
  return s.deleteEntries fun entry => entry.addressBookId = book &&
    truthy entry.rustdeskId && decide (entry.rustdeskId ∈ ids)

def tagAdd (s : Books) (user : User) (book : Nat) (name : String) (color : Int) : Option Books := do
  let _ ← bookOrFail s user book permFull
  if name = "" then none
  else (s.firstOrCreateTag book name color).map Prod.fst

def tagRename (s : Books) (user : User) (book : Nat) (old new : String) : Option Books := do
  let _ ← bookOrFail s user book permFull
  let tag ← (s.tagsOf book).find? fun tag => tag.name = old
  s.writeTags (s.tags.update (fun row => decide (row.id = tag.id)) fun row => { row with name := new })

/-- `array_diff` compares as strings, which throws for an array. -/
def diffIds (values : List Json) (ids : List Nat) : Option (List Json) :=
  (values.mapM fun value : Json => value.toText.map fun text => (value, text)).map fun texts =>
    (texts.filter fun value => value.2 ∉ ids.map toString).map Prod.fst

/-- One entry without the tags; it is written when that drops some. -/
def stripTags (ids : List Nat) (s : Books) (entry : AddressBookEntry) : Option Books :=
  (diffIds (entry.tagIds.getD []) ids).map fun kept =>
    if kept.length = (entry.tagIds.getD []).length then s
    else s.retag (fun row => decide (row.id = entry.id)) fun _ => some kept

def tagDelete (s : Books) (user : User) (book : Nat) (names : List String) : Option Books := do
  let _ ← bookOrFail s user book permFull
  let ids := ((s.tagsOf book).filter fun tag => truthy tag.name && decide (tag.name ∈ names)).map Tag.id
  let (stripped, went) := Runs.foreach (stripTags ids) s (s.entriesOf book)
  return if ids = [] then s
    else if ! went then stripped
    else stripped.deleteTags fun tag => decide (tag.id ∈ ids)

end AddressBookController

namespace AddressBookManager

def hexDigit (c : Char) : Bool := c.isDigit || ('a' ≤ c && c ≤ 'f') || ('A' ≤ c && c ≤ 'F')

def hexValue (c : Char) : Nat :=
  if c.isDigit then c.toNat - 48 else c.toLower.toNat - 87

def validColor (color : String) : Bool :=
  match color.toList with
  | '#' :: digits => digits.length = 6 && digits.all hexDigit
  | _ => false

/-- Opaque, as the client writes colours. -/
def hexToColor (color : String) : Int :=
  0xFF000000 + ((color.toList.drop 1).foldl (fun n c => 16 * n + hexValue c) 0 : Nat)

def addTag (s : Books) (actor : User) (id : Nat) (name color : String) : Option Books := do
  let book ← authorizeBook s.system.db actor id permFull
  if trim name = "" || 64 < name.length || ((s.tagsOf book.id).any fun tag => tag.name = name) ||
      ! validColor color then none
  else (s.createTag book.id (trim name) (hexToColor color)).map Prod.fst

/-- The strip writes ids as integers where the entry has the tag. -/
def deleteTag (s : Books) (actor : User) (id tagId : Nat) : Option Books := do
  let _ ← authorizeBook s.system.db actor id permFull
  let tag ← (s.tagsOf id).find? fun tag => tag.id = tagId
  let stripped := s.retag (fun entry => entry.addressBookId = id &&
      ((entry.tagIds.getD []).map Json.toInt).contains (tag.id : Int)) fun tagIds =>
    some ((((tagIds.getD []).map Json.toInt).filter (· ≠ (tag.id : Int))).map Json.int)
  return stripped.deleteTags fun row => decide (row.id = tag.id)

structure EntryForm where
  rustdeskId : String := ""
  «alias» : String := ""
  tagIds : List Json := []

def savedAlias (form : EntryForm) : Option String :=
  if form.alias = "" then none else some (trim form.alias)

/-- `editing` is empty for a new entry. -/
def saveEntry (s : Books) (actor : User) (id : Nat) (editing : Option Nat) (form : EntryForm) :
    Option Books := do
  let book ← authorizeBook s.system.db actor id permReadWrite
  let tagIds : List Json := ((form.tagIds.map Json.toInt).filter fun tagId =>
    tagId ∈ (s.tagsOf book.id).map fun tag => (tag.id : Int)).map Json.int
  if 255 < form.alias.length then none
  else match editing with
    | some entryId => do
        let entry ← (s.entriesOf book.id).find? fun entry => entry.id = entryId
        s.updateEntry entry.id fun old =>
          { old with «alias» := savedAlias form, tagIds := some tagIds }
    | none =>
        if trim form.rustdeskId = "" || 255 < form.rustdeskId.length ||
            (s.entryNamed book.id form.rustdeskId).isSome then none
        else s.createEntry fun id =>
          { id, addressBookId := book.id, rustdeskId := trim form.rustdeskId
            «alias» := savedAlias form, tagIds := some tagIds }

end AddressBookManager

namespace AdminApi.AddressBooksController

/-- The fields of a peer that were sent; what is nullable may be sent empty. -/
structure PeerData where
  rustdeskId : Option String := none
  «alias» : Option (Option String) := none
  hostname : Option (Option String) := none
  platform : Option (Option String) := none
  username : Option (Option String) := none
  loginName : Option (Option String) := none
  forceAlwaysRelay : Option Bool := none
  rdpPort : Option (Option String) := none
  rdpUsername : Option (Option String) := none
  tagIds : Option (Option (List Json)) := none

def within (bound : Nat) (field : Option (Option String)) : Bool :=
  field.all fun text => text.all fun text => text.length ≤ bound

/-- `validatePeer`: of the tags it asks that they be an array. -/
def PeerData.valid (data : PeerData) : Bool :=
  data.rustdeskId.all (fun text => trim text ≠ "" && text.length ≤ 255) &&
  within 255 data.alias && within 255 data.hostname && within 64 data.platform &&
  within 255 data.username && within 255 data.loginName && within 255 data.rdpUsername

def PeerData.apply (data : PeerData) (entry : AddressBookEntry) : AddressBookEntry :=
  { entry with
    rustdeskId := data.rustdeskId.getD entry.rustdeskId
    «alias» := data.alias.getD entry.alias
    hostname := data.hostname.getD entry.hostname
    platform := data.platform.getD entry.platform
    username := data.username.getD entry.username
    loginName := data.loginName.getD entry.loginName
    forceAlwaysRelay := data.forceAlwaysRelay.getD entry.forceAlwaysRelay
    rdpPort := data.rdpPort.getD entry.rdpPort
    rdpUsername := data.rdpUsername.getD entry.rdpUsername
    tagIds := data.tagIds.getD entry.tagIds }

def storePeer (s : Books) (book : Nat) (data : PeerData) : Option Books := do
  let _ ← s.system.db.addressBooks.find? book
  let rustdeskId ← data.rustdeskId
  if ! data.valid then none
  else s.createEntry fun id => data.apply { id, addressBookId := book, rustdeskId }

def updatePeer (s : Books) (book peer : Nat) (data : PeerData) : Option Books := do
  let _ ← s.system.db.addressBooks.find? book
  let entry ← (s.entries.find? peer).filter fun entry => entry.addressBookId = book
  if ! data.valid then none
  else s.updateEntry entry.id data.apply

/-- The colour is what its cast reads of the column. -/
def storeTag (s : Books) (book : Nat) (name : String) (color : Int) : Option Books := do
  let _ ← s.system.db.addressBooks.find? book
  if trim name = "" || 255 < name.length then none
  else (s.createTag book name color).map Prod.fst

/-- The entries keep the id. -/
def destroyTag (s : Books) (book tagId : Nat) : Option Books := do
  let _ ← s.system.db.addressBooks.find? book
  let tag ← (s.tags.find? tagId).filter fun tag => tag.addressBookId = book
  return s.deleteTags fun row => decide (row.id = tag.id)

end AdminApi.AddressBooksController

namespace DeviceCliController

/-- The columns of the device that its entry copies, and the password as it is stored. -/
structure Seen where
  hostname : Option String := none
  platform : String := "unknown"
  username : Option String := none
  passwordEnc : String := ""

/-- Strictly: an id that is stored as text is not found. -/
def addTagId (tagIds : List Json) (id : Nat) : List Json :=
  if tagIds.any fun value => match value with | .int i => i = id | _ => false then tagIds
  else tagIds ++ [.int id]

def entryColumns (r : Request) (seen : Seen) (entry : AddressBookEntry) : AddressBookEntry :=
  { entry with
    hostname := seen.hostname, platform := some seen.platform, username := seen.username
    «alias» := if filled r.addressBookAlias then some r.addressBookAlias else entry.alias
    passwordEnc :=
      if filled r.addressBookPassword then some seen.passwordEnc else entry.passwordEnc }

def applyAddressBook (s : Books) (r : Request) (book : Nat) (seen : Seen) : Option Books := do
  let found := s.entryNamed book (trim r.id)
  let (s, tagIds) ←
    if filled r.addressBookTag then
      (s.firstOrCreateTag book r.addressBookTag 0).map fun (s, id) =>
        (s, some (addTagId ((found.bind AddressBookEntry.tagIds).getD []) id))
    else some (s, found.bind AddressBookEntry.tagIds)
  match found with
  | some entry => s.updateEntry entry.id fun old => { entryColumns r seen old with tagIds }
  | none => s.createEntry fun id =>
      { entryColumns r seen { id, addressBookId := book, rustdeskId := trim r.id } with tagIds }

/-- The whole of `assign`, with the address book it names. -/
def assignBooks (s : Books) (token : ApiToken) (r : Request) (seen : Seen) : Option Books := do
  let system ← assign s.system token r
  let book ← resolveName s.system.db.addressBooks.rows AddressBook.name r.addressBookName
  match book with
  | some book => applyAddressBook { s with system } r book.id seen
  | none => some { s with system }

end DeviceCliController
end CortenDesk
