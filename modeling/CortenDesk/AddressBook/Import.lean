import CortenDesk.AddressBook.Legacy
import CortenDesk.Api.Enrollment

/-!
The import of another server's address books: the personal book of every imported account,
the shared books, their tags, and the entries, whose tags are named in the source and are
created when the source forgot to. It runs in one transaction with the rest of the import.
-/
namespace CortenDesk
open Php

namespace ImportLejianwen

structure SourceCollection where
  id : Nat
  userId : Nat
  name : String

structure SourceTag where
  userId : Nat
  collectionId : Nat
  name : String
  color : Int

/-- A row of the source's `address_books`; `tags` is a JSON array of names. -/
structure SourceEntry where
  id : String
  userId : Nat
  collectionId : Nat
  «alias» : String := ""
  hostname : String := ""
  platform : String := ""
  username : String := ""
  loginName : String := ""
  forceAlwaysRelay : Bool := false
  rdpPort : String := ""
  rdpUsername : String := ""
  hash : String := ""
  tags : String := ""

/-- The source with its address books. -/
structure SourceBooks extends Source where
  collections : List SourceCollection := []
  tags : List SourceTag := []
  entries : List SourceEntry := []

/-- The ids of the books: those of accounts, by target account, and the shared ones. -/
structure BookMaps where
  userMap : IdMap
  personal : IdMap := []
  collections : IdMap := []

/-- An account's own book; a name that is false in a condition is replaced. -/
def createPersonalAddressBook (state : Database × IdMap) (owner : Nat) : Database × IdMap :=
  let (db, personal) := state
  match db.addressBooks.rows.find? fun book => book.ownerUserId = some owner && book.isPersonal with
  | some book =>
      ({ db with
        addressBooks := db.addressBooks.update (fun row => decide (row.id = book.id)) fun row =>
          { row with name := if truthy row.name then row.name else "My address book" } },
        (owner, book.id) :: personal)
  | none =>
      ({ db with
        addressBooks := db.addressBooks.insert fun id =>
          { id, name := "My address book", ownerUserId := some owner, isPersonal := true } },
        (owner, db.addressBooks.nextId) :: personal)

def importCollection (userMap : IdMap) (state : Database × IdMap) (row : SourceCollection) :
    Database × IdMap :=
  let (db, collections) := state
  match userMap.lookup row.userId with
  | none => (db, collections)
  | some owner =>
      match db.addressBooks.rows.find? fun book =>
          book.ownerUserId = some owner && book.name = row.name && ! book.isPersonal with
      | some book => (db, (row.id, book.id) :: collections)
      | none =>
          ({ db with
            addressBooks := db.addressBooks.insert fun id =>
              { id, name := row.name, ownerUserId := some owner } },
            (row.id, db.addressBooks.nextId) :: collections)

/-- Collection 0 is the account's own book. -/
def resolveBook (maps : BookMaps) (userId collectionId : Nat) : Option Nat :=
  if collectionId = 0 then (maps.userMap.lookup userId).bind fun owner => maps.personal.lookup owner
  else maps.collections.lookup collectionId

/-- The tables, and `$tagNameMap`. -/
structure Tagging where
  books : Books
  tagIds : List ((Nat × String) × Nat) := []

/-- `Tag::updateOrCreate`; without a colour a present tag is left as it is. -/
def updateOrCreateTag (s : Books) (book : Nat) (name : String) (color : Option Int) :
    Option (Books × Nat) :=
  match (s.tagsOf book).find? fun tag => tag.name = name with
  | some tag =>
      (s.writeTags (s.tags.update (fun row => decide (row.id = tag.id)) fun row =>
        { row with color := color.getD row.color })).map fun s => (s, tag.id)
  | none => s.createTag book name (color.getD 0)

def importTag (maps : BookMaps) (state : Tagging) (row : SourceTag) : Option Tagging :=
  match resolveBook maps row.userId row.collectionId with
  | none => some state
  | some book =>
      (updateOrCreateTag state.books book row.name (some row.color)).map fun (books, id) =>
        { books, tagIds := ((book, row.name), id) :: state.tagIds }

/-- One name of an entry: its id, after the tag was created where none was known. -/
def resolveTagId (book : Nat) (state : Tagging × List Nat) (name : Json) :
    Option (Tagging × List Nat) := do
  let name := trim (← name.toText)
  if name = "" then state
  else match state.1.tagIds.lookup (book, name) with
    | some id => some (state.1, state.2 ++ [id])
    | none =>
        (updateOrCreateTag state.1.books book name none).map fun (books, id) =>
          ({ books, tagIds := ((book, name), id) :: state.1.tagIds }, state.2 ++ [id])

def resolveTagIds (json : JsonText) (state : Tagging) (book : Nat) (text : String) :
    Option (Tagging × List Nat) :=
  match json.decode text with
  | .array names =>
      ((names.map Prod.snd).foldlM (resolveTagId book) (state, [])).map fun (state, ids) =>
        (state, ids.eraseDups)
  | _ => some (state, [])

def fillEntry (row : SourceEntry) (tagIds : List Nat) (entry : AddressBookEntry) : AddressBookEntry :=
  { entry with
    «alias» := trimmedOrNull row.alias, hostname := trimmedOrNull row.hostname
    platform := trimmedOrNull row.platform, username := trimmedOrNull row.username
    loginName := trimmedOrNull row.loginName, forceAlwaysRelay := row.forceAlwaysRelay
    rdpPort := trimmedOrNull row.rdpPort, rdpUsername := trimmedOrNull row.rdpUsername
    hash := trimmedOrNull row.hash, tagIds := some (tagIds.map fun id : Nat => .int id) }

/-- The entry of the id in the book, or a new one, with the columns of the source. -/
def fillNamed (s : Books) (book : Nat) (rustdeskId : String) (row : SourceEntry)
    (tagIds : List Nat) : Option Books :=
  match (s.entriesOf book).find? fun entry => entry.rustdeskId = rustdeskId with
  | some entry =>
      s.writeEntries (s.entries.update (fun old => decide (old.id = entry.id)) (fillEntry row tagIds))
  | none => s.createEntry fun id => fillEntry row tagIds { id, addressBookId := book, rustdeskId }

def importEntry (json : JsonText) (maps : BookMaps) (state : Tagging) (row : SourceEntry) :
    Option Tagging :=
  let rustdeskId := trim row.id
  if rustdeskId = "" || rustdeskId = "0" then some state
  else match resolveBook maps row.userId row.collectionId with
    | none => some state
    | some book => do
        let (state, tagIds) ← resolveTagIds json state book row.tags
        let books ← fillNamed state.books book rustdeskId row tagIds
        return { state with books }

/-- The tables that `--wipe` empties. -/
def wipeBooks (s : Books) : Books :=
  let wiped := (s.deleteTags fun _ => true).deleteEntries fun _ => true
  { wiped with system := wipeTargets s.system }

/-- The stages up to the entries, before the devices and the logs: the tables and the ids of
the accounts and of the folders. -/
structure Stages where
  tagging : Tagging
  userMap : IdMap
  usernames : List (Nat × String)
  deviceGroupMap : IdMap

def importBooks (json : JsonText) (s : Books) (wipe : Bool) (source : SourceBooks) :
    Option Stages := do
  let s := if wipe then wipeBooks s else s
  let (db, userGroupMap) := source.groups.foldl importUserGroup (s.system.db, [])
  let (db, deviceGroupMap) := source.deviceGroups.foldl importDeviceGroup (db, [])
  let users := source.users.foldl (importUser userGroupMap) { db, usedEmails := usedEmails db }
  let (db, personal) := (users.map.reverse.map Prod.snd).foldl createPersonalAddressBook (users.db, [])
  let (db, collections) := source.collections.foldl (importCollection users.map) (db, [])
  let maps : BookMaps := { userMap := users.map, personal, collections }
  let tagged ← source.tags.foldlM (importTag maps) { books := { s with system.db := db } }
  let tagging ← source.entries.foldlM (importEntry json maps) tagged
  return {
    tagging, userMap := users.map, deviceGroupMap
    usernames := source.users.filterMap fun row =>
      if trim row.username = "" then none else some (row.id, trim row.username) }

end ImportLejianwen
end CortenDesk
