import CortenDesk.Console.AddressBookManager
import CortenDesk.Lib.PhpJson
import CortenDesk.Strategy.Writes

/-!
The tags and the entries of the address books. An entry names its tags by id in a JSON
column, which no foreign key guards; two unique indexes hold a book to one tag of a name and
one entry of an id, and a write against them throws.
-/
namespace CortenDesk
open Php

structure Tag where
  id : Nat
  addressBookId : Nat
  name : String
  color : Int
  deriving DecidableEq

/-- Of the JSON column, the values: nothing reads its keys. -/
structure AddressBookEntry where
  id : Nat
  addressBookId : Nat
  rustdeskId : String
  «alias» : Option String := none
  hostname : Option String := none
  platform : Option String := none
  username : Option String := none
  passwordEnc : Option String := none
  hash : Option String := none
  loginName : Option String := none
  forceAlwaysRelay : Bool := false
  rdpPort : Option String := none
  rdpUsername : Option String := none
  tagIds : Option (List Json) := none

instance : Row Tag := ⟨Tag.id⟩

instance : Row AddressBookEntry := ⟨AddressBookEntry.id⟩

def Tag.index (tag : Tag) : Nat × String := (tag.addressBookId, tag.name)

def AddressBookEntry.index (entry : AddressBookEntry) : Nat × String :=
  (entry.addressBookId, entry.rustdeskId)

/-- The tables of the address books beside the system's, under their unique indexes. -/
structure Books where
  system : System := {}
  tags : Table Tag := Table.empty
  entries : Table AddressBookEntry := Table.empty
  tagNames : tags.Unique Tag.index := by exact Table.unique_empty
  entryIds : entries.Unique AddressBookEntry.index := by exact Table.unique_empty

namespace Books

/-- A write of the tags, which throws against the index. -/
def writeTags (s : Books) (tags : Table Tag) : Option Books :=
  if unique : tags.Unique Tag.index then some { s with tags, tagNames := unique } else none

def writeEntries (s : Books) (entries : Table AddressBookEntry) : Option Books :=
  if unique : entries.Unique AddressBookEntry.index then
    some { s with entries, entryIds := unique }
  else none

/-- The relations `tags()` and `entries()` of a book, in the order of the ids. -/
def tagsOf (s : Books) (book : Nat) : List Tag :=
  s.tags.rows.filter fun tag => tag.addressBookId = book

def entriesOf (s : Books) (book : Nat) : List AddressBookEntry :=
  s.entries.rows.filter fun entry => entry.addressBookId = book

def createTag (s : Books) (book : Nat) (name : String) (color : Int) : Option (Books × Nat) :=
  (s.writeTags (s.tags.insert fun id => { id, addressBookId := book, name, color })).map
    fun written => (written, s.tags.nextId)

def createEntry (s : Books) (make : Nat → AddressBookEntry)
    (given : ∀ id, Row.id (make id) = id := by intro _; rfl) : Option Books :=
  s.writeEntries (s.entries.insert make given)

def deleteTags (s : Books) (p : Tag → Bool) : Books :=
  { s with tags := s.tags.delete p, tagNames := s.tagNames.delete p }

def deleteEntries (s : Books) (p : AddressBookEntry → Bool) : Books :=
  { s with entries := s.entries.delete p, entryIds := s.entryIds.delete p }

/-- A write of the JSON column of the entries that a query selects. -/
def retag (s : Books) (p : AddressBookEntry → Bool)
    (change : Option (List Json) → Option (List Json)) : Books :=
  { s with
    entries := s.entries.update p fun entry => { entry with tagIds := change entry.tagIds }
    entryIds := s.entryIds.update fun _ => rfl }

/-- `AddressBook::personalFor`. -/
def personalFor (s : Books) (user : User) : Books × Nat :=
  match s.system.db.addressBooks.rows.find? fun book =>
      book.ownerUserId = some user.id && book.isPersonal with
  | some book => (s, book.id)
  | none =>
      ({ s with
        system.db.addressBooks := s.system.db.addressBooks.insert fun id =>
          { id, name := "My address book", ownerUserId := some user.id, isPersonal := true } },
        s.system.db.addressBooks.nextId)

theorem mem_tagsOf {s : Books} {book : Nat} {tag : Tag} :
    tag ∈ s.tagsOf book ↔ tag ∈ s.tags.rows ∧ tag.addressBookId = book := by
  simp [tagsOf]

theorem mem_entriesOf {s : Books} {book : Nat} {entry : AddressBookEntry} :
    entry ∈ s.entriesOf book ↔ entry ∈ s.entries.rows ∧ entry.addressBookId = book := by
  simp [entriesOf]

@[simp] theorem personalFor_tags (s : Books) (user : User) :
    (s.personalFor user).1.tags = s.tags := by
  unfold personalFor
  split <;> rfl

@[simp] theorem personalFor_entries (s : Books) (user : User) :
    (s.personalFor user).1.entries = s.entries := by
  unfold personalFor
  split <;> rfl

/-- A book has one tag of a name and one entry of an id. -/
theorem names_nodup (s : Books) (book : Nat) : ((s.tagsOf book).map Tag.name).Nodup := by
  have indexed : ((s.tagsOf book).map Tag.index).Nodup :=
    List.Nodup.sublist (List.filter_sublist.map Tag.index) s.tagNames
  have split : (s.tagsOf book).map Tag.index = ((s.tagsOf book).map Tag.name).map (Prod.mk book) := by
    rw [List.map_map]
    refine List.map_congr_left fun tag mem => ?_
    rw [Tag.index, (mem_tagsOf.mp mem).2]
    rfl
  rw [split] at indexed
  exact indexed.of_map

theorem rustdeskIds_nodup (s : Books) (book : Nat) :
    ((s.entriesOf book).map AddressBookEntry.rustdeskId).Nodup := by
  have indexed : ((s.entriesOf book).map AddressBookEntry.index).Nodup :=
    List.Nodup.sublist (List.filter_sublist.map AddressBookEntry.index) s.entryIds
  have split : (s.entriesOf book).map AddressBookEntry.index =
      ((s.entriesOf book).map AddressBookEntry.rustdeskId).map (Prod.mk book) := by
    rw [List.map_map]
    refine List.map_congr_left fun entry mem => ?_
    rw [AddressBookEntry.index, (mem_entriesOf.mp mem).2]
    rfl
  rw [split] at indexed
  exact indexed.of_map

section Writes
variable {s s' : Books}

theorem writeTags_eq_some_iff {tags : Table Tag} :
    s.writeTags tags = some s' ↔ tags.Unique Tag.index ∧
      s'.tags = tags ∧ s'.entries = s.entries ∧ s'.system = s.system := by
  unfold writeTags
  constructor
  · intro written
    split at written
    · next unique =>
      obtain rfl := Option.some.inj written
      exact ⟨unique, rfl, rfl, rfl⟩
    · cases written
  · rintro ⟨unique, rfl, entries, system⟩
    rw [dif_pos unique]
    cases s'
    simp_all

theorem writeEntries_eq_some_iff {entries : Table AddressBookEntry} :
    s.writeEntries entries = some s' ↔ entries.Unique AddressBookEntry.index ∧
      s'.entries = entries ∧ s'.tags = s.tags ∧ s'.system = s.system := by
  unfold writeEntries
  constructor
  · intro written
    split at written
    · next unique =>
      obtain rfl := Option.some.inj written
      exact ⟨unique, rfl, rfl, rfl⟩
    · cases written
  · rintro ⟨unique, rfl, tags, system⟩
    rw [dif_pos unique]
    cases s'
    simp_all

/-- A tag is created where the book has none of its name. -/
theorem createTag_eq_some_iff {book id : Nat} {name : String} {color : Int} :
    s.createTag book name color = some (s', id) ↔
      (∀ tag ∈ s.tagsOf book, tag.name ≠ name) ∧ id = s.tags.nextId ∧
        s'.tags = s.tags.insert (fun id => { id, addressBookId := book, name, color }) ∧
        s'.entries = s.entries ∧ s'.system = s.system := by
  have fresh : (s.tags.insert fun id => { id, addressBookId := book, name, color }).Unique Tag.index ↔
      ∀ tag ∈ s.tagsOf book, tag.name ≠ name := by
    rw [Table.unique_insert_iff, and_iff_right s.tagNames]
    simp only [mem_tagsOf, and_imp, Tag.index, ne_eq, Prod.mk.injEq, not_and]
  rw [createTag, Option.map_eq_some_iff]
  constructor
  · rintro ⟨written, wrote, same⟩
    obtain ⟨rfl, rfl⟩ := Prod.mk.inj same
    obtain ⟨unique, frame⟩ := writeTags_eq_some_iff.mp wrote
    exact ⟨fresh.mp unique, rfl, frame⟩
  · rintro ⟨absent, rfl, frame⟩
    exact ⟨s', writeTags_eq_some_iff.mpr ⟨fresh.mpr absent, frame⟩, rfl⟩

theorem createTag_of_absent {book : Nat} {name : String} (color : Int)
    (absent : ∀ tag ∈ s.tagsOf book, tag.name ≠ name) :
    ∃ s', s.createTag book name color = some (s', s.tags.nextId) := by
  have unique : (s.tags.insert fun id => { id, addressBookId := book, name, color }).Unique
      Tag.index := by
    rw [Table.unique_insert_iff, and_iff_right s.tagNames]
    intro tag mem same
    obtain ⟨here, named⟩ := Prod.mk.inj same
    exact absent tag (mem_tagsOf.mpr ⟨mem, here⟩) named
  exact ⟨{ s with tags := _, tagNames := unique },
    createTag_eq_some_iff.mpr ⟨absent, rfl, rfl, rfl, rfl⟩⟩

theorem createEntry_eq_some_iff {make : Nat → AddressBookEntry} {given : ∀ id, Row.id (make id) = id} :
    s.createEntry make given = some s' ↔
      (∀ entry ∈ s.entries.rows, entry.index ≠ (make s.entries.nextId).index) ∧
        s'.entries = s.entries.insert make given ∧ s'.tags = s.tags ∧ s'.system = s.system := by
  rw [createEntry, writeEntries_eq_some_iff, Table.unique_insert_iff, and_iff_right s.entryIds]

theorem createEntry_of_absent {make : Nat → AddressBookEntry} (given : ∀ id, Row.id (make id) = id)
    (absent : ∀ entry ∈ s.entries.rows, entry.index ≠ (make s.entries.nextId).index) :
    ∃ s', s.createEntry make given = some s' := by
  have unique : (s.entries.insert make given).Unique AddressBookEntry.index :=
    Table.unique_insert_iff.mpr ⟨s.entryIds, absent⟩
  exact ⟨{ s with entries := _, entryIds := unique },
    createEntry_eq_some_iff.mpr ⟨absent, rfl, rfl, rfl⟩⟩

end Writes

end Books
end CortenDesk
