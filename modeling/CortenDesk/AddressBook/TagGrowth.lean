import CortenDesk.AddressBook.Operations

/-!
Operations on the books that let no tag go, and give an entry only ids of tags of its book. The
automation API stores the ids that it is sent, so this asks that they be such.
-/
namespace CortenDesk
open Php

namespace Books

/-- An entry of the book has the value among its tags. -/
def Held (s : Books) (book : Nat) (v : Json) : Prop :=
  ∃ entry ∈ s.entriesOf book, v ∈ entry.tagIds.getD []

/-- The value is the id of a tag of the book. -/
def Names (s : Books) (book : Nat) (v : Json) : Prop :=
  ∃ tag ∈ s.tagsOf book, v = .int tag.id

/-- Every id that an entry has is the id of a tag of its book. -/
def Resolves (s : Books) : Prop := ∀ book v, s.Held book v → s.Names book v

/-- No tag goes, and a value that an entry is given names a tag. -/
structure Grows (s s' : Books) : Prop where
  names : ∀ book v, s.Names book v → s'.Names book v
  held : ∀ book v, s'.Held book v → s.Held book v ∨ s'.Names book v

section Grows
variable {s s' s'' : Books}

theorem Grows.resolves (h : Grows s s') (resolves : s.Resolves) : s'.Resolves := by
  intro book v held
  rcases h.held book v held with old | named
  · exact h.names book v (resolves book v old)
  · exact named

theorem Grows.trans (h : Grows s s') (h' : Grows s' s'') : Grows s s'' := by
  refine ⟨fun book v named => h'.names book v (h.names book v named), fun book v held => ?_⟩
  rcases h'.held book v held with old | named
  · rcases h.held book v old with older | named
    · exact .inl older
    · exact .inr (h'.names book v named)
  · exact .inr named

theorem names_of_eq (tags : s'.tags = s.tags) {book : Nat} {v : Json} :
    s'.Names book v ↔ s.Names book v := by
  rw [Names, Names, tagsOf, tagsOf, tags]

theorem held_of_eq (entries : s'.entries = s.entries) {book : Nat} {v : Json} :
    s'.Held book v ↔ s.Held book v := by
  rw [Held, Held, entriesOf, entriesOf, entries]

theorem Grows.of_eq (tags : s'.tags = s.tags) (entries : s'.entries = s.entries) : Grows s s' :=
  ⟨fun _ _ => (names_of_eq tags).mpr, fun _ _ held => .inl ((held_of_eq entries).mp held)⟩

theorem Grows.refl (s : Books) : Grows s s := .of_eq rfl rfl

theorem grows_createTag {book id : Nat} {name : String} {color : Int}
    (created : s.createTag book name color = some (s', id)) :
    Grows s s' ∧ s'.Names book (.int id) := by
  obtain ⟨-, rfl, tags, entries, -⟩ := createTag_eq_some_iff.mp created
  refine ⟨⟨fun other v named => ?_, fun other v held => .inl ((held_of_eq entries).mp held)⟩, ?_⟩
  · obtain ⟨tag, mem, rfl⟩ := named
    obtain ⟨mem, here⟩ := mem_tagsOf.mp mem
    refine ⟨tag, mem_tagsOf.mpr ⟨?_, here⟩, rfl⟩
    rw [tags]
    exact Table.mem_insert.mpr (.inl mem)
  · refine ⟨{ id := s.tags.nextId, addressBookId := book, name, color }, mem_tagsOf.mpr ⟨?_, rfl⟩, rfl⟩
    rw [tags]
    exact Table.mem_insert.mpr (.inr rfl)

/-- A change of the tags' other columns. -/
theorem grows_writeTags {p : Tag → Bool} {change : Tag → Tag}
    {keeps : ∀ tag, Row.id (change tag) = Row.id tag}
    (written : s.writeTags (s.tags.update p change keeps) = some s')
    (same : ∀ tag, (change tag).addressBookId = tag.addressBookId) : Grows s s' := by
  obtain ⟨-, tags, entries, -⟩ := writeTags_eq_some_iff.mp written
  refine ⟨fun book v named => ?_, fun book v held => .inl ((held_of_eq entries).mp held)⟩
  obtain ⟨tag, mem, rfl⟩ := named
  obtain ⟨mem, here⟩ := mem_tagsOf.mp mem
  refine ⟨if p tag then change tag else tag, mem_tagsOf.mpr ⟨?_, ?_⟩, ?_⟩
  · rw [tags]
    exact Table.mem_update.mpr ⟨tag, mem, rfl⟩
  · split
    · rw [same, here]
    · exact here
  · split
    · exact congrArg (fun id : Nat => Json.int id) (keeps tag).symm
    · rfl

theorem grows_firstOrCreateTag {book id : Nat} {name : String} {color : Int}
    (done : s.firstOrCreateTag book name color = some (s', id)) :
    Grows s s' ∧ s'.Names book (.int id) := by
  unfold firstOrCreateTag at done
  split at done
  · next tag found =>
    obtain ⟨rfl, rfl⟩ := Prod.mk.inj (Option.some.inj done)
    exact ⟨.refl s, tag, List.mem_of_find?_eq_some found, rfl⟩
  · exact grows_createTag done

theorem grows_createEntry {make : Nat → AddressBookEntry} {given : ∀ id, Row.id (make id) = id}
    (created : s.createEntry make given = some s')
    (named : ∀ v ∈ (make s.entries.nextId).tagIds.getD [],
      s.Names (make s.entries.nextId).addressBookId v) : Grows s s' := by
  obtain ⟨-, entries, tags, -⟩ := createEntry_eq_some_iff.mp created
  refine ⟨fun _ _ => (names_of_eq tags).mpr, fun book v held => ?_⟩
  obtain ⟨entry, listed, has⟩ := held
  obtain ⟨present, rfl⟩ := mem_entriesOf.mp listed
  rw [entries] at present
  rcases Table.mem_insert.mp present with old | rfl
  · exact .inl ⟨entry, mem_entriesOf.mpr ⟨old, rfl⟩, has⟩
  · exact .inr ((names_of_eq tags).mpr (named v has))

/-- A change of one entry, which keeps of its tags what it likes. -/
theorem grows_updateEntry {book : Nat} {entry : AddressBookEntry}
    {change : AddressBookEntry → AddressBookEntry} {keeps : ∀ row, Row.id (change row) = Row.id row}
    (done : s.updateEntry entry.id change keeps = some s') (mem : entry ∈ s.entriesOf book)
    (same : ∀ row, (change row).addressBookId = row.addressBookId)
    (named : ∀ v ∈ (change entry).tagIds.getD [], v ∈ entry.tagIds.getD [] ∨ s.Names book v) :
    Grows s s' := by
  obtain ⟨-, entries, tags, -⟩ := writeEntries_eq_some_iff.mp done
  obtain ⟨listed, here⟩ := mem_entriesOf.mp mem
  refine ⟨fun _ _ => (names_of_eq tags).mpr, fun other v held => ?_⟩
  obtain ⟨row, found, has⟩ := held
  obtain ⟨present, rfl⟩ := mem_entriesOf.mp found
  rw [entries] at present
  obtain ⟨old, before, rfl⟩ := Table.mem_update.mp present
  by_cases selected : old.id = entry.id
  · obtain rfl := s.entries.eq_of_id_eq before listed selected
    rw [if_pos (decide_eq_true selected)] at has ⊢
    rw [same, here]
    rcases named v has with kept | names
    · exact .inl ⟨old, mem, kept⟩
    · exact .inr ((names_of_eq tags).mpr names)
  · have away : decide (old.id = entry.id) = false := decide_eq_false selected
    simp only [away, Bool.false_eq_true, if_false] at has ⊢
    exact .inl ⟨old, mem_entriesOf.mpr ⟨before, rfl⟩, has⟩

theorem grows_deleteEntries (s : Books) (p : AddressBookEntry → Bool) : Grows s (s.deleteEntries p) := by
  refine ⟨fun _ _ named => named, fun book v held => .inl ?_⟩
  obtain ⟨entry, mem, has⟩ := held
  obtain ⟨mem, here⟩ := mem_entriesOf.mp mem
  exact ⟨entry, mem_entriesOf.mpr ⟨(Table.mem_delete.mp mem).1, here⟩, has⟩

/-- A deletion of tags that no entry has any more. -/
theorem resolves_deleteTags {p : Tag → Bool}
    (kept : ∀ book v, s.Held book v → ∃ tag ∈ s.tagsOf book, v = .int tag.id ∧ p tag = false) :
    (s.deleteTags p).Resolves := by
  intro book v held
  obtain ⟨tag, mem, rfl, stays⟩ := kept book v held
  obtain ⟨mem, here⟩ := mem_tagsOf.mp mem
  exact ⟨tag, mem_tagsOf.mpr ⟨Table.mem_delete.mpr ⟨mem, stays⟩, here⟩, rfl⟩

end Grows

end Books

namespace AddressBookController
variable {s s' : Books} {user : User} {book : Nat}

theorem names_of_tagNamesToIds {names : List String} {v : Json}
    (mem : v ∈ tagNamesToIds s book names) : s.Names book v := by
  obtain ⟨tag, listed, rfl⟩ := List.mem_map.mp mem
  exact ⟨tag, List.mem_of_mem_filter listed, rfl⟩

theorem grows_peerAdd {r : NewPeer} (done : peerAdd s user book r = some s') : s.Grows s' := by
  obtain ⟨row, -, done⟩ := Option.bind_eq_some_iff.mp done
  split at done
  · cases done
  · exact Books.grows_createEntry done fun _ mem => names_of_tagNamesToIds mem

theorem mem_of_entryNamed {rustdeskId : String} {entry : AddressBookEntry}
    (found : s.entryNamed book rustdeskId = some entry) : entry ∈ s.entriesOf book :=
  List.mem_of_find?_eq_some found

theorem grows_peerUpdate {r : PeerUpdate} (done : peerUpdate s user book r = some s') :
    s.Grows s' := by
  obtain ⟨row, -, done⟩ := Option.bind_eq_some_iff.mp done
  obtain ⟨entry, found, done⟩ := Option.bind_eq_some_iff.mp done
  refine Books.grows_updateEntry done (mem_of_entryNamed found) (fun _ => rfl) fun v mem => ?_
  cases sent : r.tags with
  | none =>
      rw [sent] at mem
      exact .inl mem
  | some names =>
      rw [sent] at mem
      exact .inr (names_of_tagNamesToIds mem)

theorem grows_peerDelete {ids : List String} (done : peerDelete s user book ids = some s') :
    s.Grows s' := by
  obtain ⟨row, -, done⟩ := Option.bind_eq_some_iff.mp done
  obtain rfl := Option.some.inj done
  exact Books.grows_deleteEntries s _

theorem grows_tagAdd {name : String} {color : Int} (done : tagAdd s user book name color = some s') :
    s.Grows s' := by
  obtain ⟨row, -, done⟩ := Option.bind_eq_some_iff.mp done
  split at done
  · cases done
  · obtain ⟨made, created, rfl⟩ := Option.map_eq_some_iff.mp done
    exact (Books.grows_firstOrCreateTag created).1

theorem grows_tagRename {old new : String} (done : tagRename s user book old new = some s') :
    s.Grows s' := by
  obtain ⟨row, -, done⟩ := Option.bind_eq_some_iff.mp done
  obtain ⟨tag, -, done⟩ := Option.bind_eq_some_iff.mp done
  exact Books.grows_writeTags done fun _ => rfl

end AddressBookController

namespace AddressBookManager
variable {s s' : Books} {actor : User} {id : Nat}

theorem grows_addTag {name color : String} (done : addTag s actor id name color = some s') :
    s.Grows s' := by
  obtain ⟨book, -, done⟩ := Option.bind_eq_some_iff.mp done
  split at done
  · cases done
  · obtain ⟨made, created, rfl⟩ := Option.map_eq_some_iff.mp done
    exact (Books.grows_createTag created).1

/-- What is left of the ids of a form. -/
theorem names_of_form {book : Nat} {tagIds : List Json} {v : Json}
    (mem : v ∈ ((tagIds.map Json.toInt).filter fun tagId =>
      tagId ∈ (s.tagsOf book).map fun tag => (tag.id : Int)).map Json.int) : s.Names book v := by
  obtain ⟨tagId, kept, rfl⟩ := List.mem_map.mp mem
  obtain ⟨tag, listed, rfl⟩ := List.mem_map.mp (of_decide_eq_true (List.mem_filter.mp kept).2)
  exact ⟨tag, listed, rfl⟩

theorem grows_saveEntry {editing : Option Nat} {form : EntryForm}
    (done : saveEntry s actor id editing form = some s') : s.Grows s' := by
  obtain ⟨book, -, done⟩ := Option.bind_eq_some_iff.mp done
  split at done
  · cases done
  · cases editing with
    | some entryId =>
        obtain ⟨entry, found, done⟩ := Option.bind_eq_some_iff.mp done
        exact Books.grows_updateEntry done (List.mem_of_find?_eq_some found) (fun _ => rfl)
          fun v mem => .inr (names_of_form mem)
    | none =>
        simp only at done
        split at done
        · cases done
        · exact Books.grows_createEntry done fun _ mem => names_of_form mem

end AddressBookManager

namespace AdminApi.AddressBooksController
variable {s s' : Books} {book : Nat}

/-- The ids that a request sends. -/
def PeerData.sent (data : PeerData) : List Json := data.tagIds.join.getD []

/-- A request that creates a peer. -/
structure Stores (s : Books) (book : Nat) (data : PeerData) : Prop where
  stored : (s.system.db.addressBooks.find? book).isSome
  valid : data.valid
  free : ∃ rustdeskId, data.rustdeskId = some rustdeskId ∧
    ∀ entry ∈ s.entriesOf book, entry.rustdeskId ≠ rustdeskId

/-- A request that changes a peer of the book. -/
structure Updates (s : Books) (book peer : Nat) (data : PeerData) : Prop where
  stored : (s.system.db.addressBooks.find? book).isSome
  valid : data.valid
  free : ∃ entry ∈ s.entriesOf book, entry.id = peer ∧ ∀ other ∈ s.entriesOf book,
    other.rustdeskId = data.rustdeskId.getD entry.rustdeskId → other.id = entry.id

theorem absent_iff {data : PeerData} {rustdeskId : String} (given : data.rustdeskId = some rustdeskId)
    (id : Nat) : (∀ entry ∈ s.entries.rows,
      entry.index ≠ (data.apply { id, addressBookId := book, rustdeskId }).index) ↔
        ∀ entry ∈ s.entriesOf book, entry.rustdeskId ≠ rustdeskId := by
  simp only [Books.mem_entriesOf, and_imp, AddressBookEntry.index, PeerData.apply, given,
    Option.getD_some, ne_eq, Prod.mk.injEq, not_and]

theorem unique_apply_iff {data : PeerData} {entry : AddressBookEntry} (mem : entry ∈ s.entriesOf book) :
    (s.entries.update (fun row => decide (row.id = entry.id)) data.apply).Unique
      AddressBookEntry.index ↔ ∀ other ∈ s.entriesOf book,
        other.rustdeskId = data.rustdeskId.getD entry.rustdeskId → other.id = entry.id := by
  obtain ⟨listed, rfl⟩ := Books.mem_entriesOf.mp mem
  refine (Table.unique_update_id_iff s.entryIds listed).trans ?_
  simp only [Books.mem_entriesOf, and_imp, AddressBookEntry.index, PeerData.apply, Prod.mk.injEq]
  rfl

theorem storePeer_eq_some_iff {data : PeerData} : storePeer s book data = some s' ↔
    Stores s book data ∧ s'.entries = s.entries.insert (fun id =>
      data.apply { id, addressBookId := book, rustdeskId := data.rustdeskId.getD "" }) ∧
      s'.tags = s.tags ∧ s'.system = s.system := by
  constructor
  · intro done
    obtain ⟨row, there, done⟩ := Option.bind_eq_some_iff.mp done
    obtain ⟨rustdeskId, given, done⟩ := Option.bind_eq_some_iff.mp done
    split at done
    · cases done
    · next valid =>
      obtain ⟨fresh, frame⟩ := Books.createEntry_eq_some_iff.mp done
      refine ⟨⟨by rw [there]; rfl, by simpa using valid, rustdeskId, given, ?_⟩, ?_⟩
      · exact (absent_iff given _).mp fresh
      · simpa only [given, Option.getD_some] using frame
  · rintro ⟨⟨there, valid, rustdeskId, given, free⟩, frame⟩
    obtain ⟨row, there⟩ := Option.isSome_iff_exists.mp there
    simp only [given, Option.getD_some] at frame
    simp only [storePeer, there, given, valid, Option.bind_eq_bind, Option.bind_some, Bool.not_true,
      Bool.false_eq_true, if_false]
    exact Books.createEntry_eq_some_iff.mpr ⟨(absent_iff given _).mpr free, frame⟩

theorem updatePeer_eq_some_iff {peer : Nat} {data : PeerData} :
    updatePeer s book peer data = some s' ↔ Updates s book peer data ∧
      s'.entries = s.entries.update (fun row => decide (row.id = peer)) data.apply ∧
      s'.tags = s.tags ∧ s'.system = s.system := by
  constructor
  · intro done
    obtain ⟨row, there, done⟩ := Option.bind_eq_some_iff.mp done
    obtain ⟨entry, found, done⟩ := Option.bind_eq_some_iff.mp done
    obtain ⟨found, here⟩ := Option.filter_eq_some_iff.mp found
    split at done
    · cases done
    · next valid =>
      obtain ⟨unique, frame⟩ := Books.writeEntries_eq_some_iff.mp done
      obtain ⟨present, rfl⟩ := s.entries.find?_eq_some_iff.mp found
      have mem : entry ∈ s.entriesOf book :=
        Books.mem_entriesOf.mpr ⟨present, of_decide_eq_true here⟩
      exact ⟨⟨by rw [there]; rfl, by simpa using valid, entry, mem, rfl, (unique_apply_iff mem).mp unique⟩,
        frame⟩
  · rintro ⟨⟨there, valid, entry, mem, rfl, free⟩, frame⟩
    obtain ⟨row, there⟩ := Option.isSome_iff_exists.mp there
    obtain ⟨present, here⟩ := Books.mem_entriesOf.mp mem
    have found : s.entries.find? entry.id = some entry := s.entries.find?_of_mem present
    simp only [updatePeer, there, found, here, valid, Option.bind_eq_bind, Option.bind_some,
      Option.filter_some, decide_true, if_true, Bool.not_true, Bool.false_eq_true, if_false]
    exact Books.writeEntries_eq_some_iff.mpr ⟨(unique_apply_iff mem).mpr free, frame⟩

theorem mem_of_apply {data : PeerData} {entry : AddressBookEntry} {v : Json}
    (has : v ∈ (data.apply entry).tagIds.getD []) : v ∈ entry.tagIds.getD [] ∨ v ∈ data.sent := by
  cases given : data.tagIds with
  | none => exact .inl (by simpa [PeerData.apply, given] using has)
  | some sent => exact .inr (by simpa [PeerData.apply, PeerData.sent, given] using has)

theorem apply_of_sent {data : PeerData} {v : Json} (sent : v ∈ data.sent) (entry : AddressBookEntry) :
    v ∈ (data.apply entry).tagIds.getD [] := by
  cases given : data.tagIds with
  | none =>
      rw [PeerData.sent, given] at sent
      cases sent
  | some sent' => simpa [PeerData.apply, PeerData.sent, given] using sent

theorem grows_storePeer {data : PeerData} (named : ∀ v ∈ data.sent, s.Names book v)
    (done : storePeer s book data = some s') : s.Grows s' := by
  obtain ⟨row, -, done⟩ := Option.bind_eq_some_iff.mp done
  obtain ⟨rustdeskId, -, done⟩ := Option.bind_eq_some_iff.mp done
  split at done
  · cases done
  · refine Books.grows_createEntry done fun v has => ?_
    rcases mem_of_apply has with old | sent
    · cases old
    · exact named v sent

theorem grows_updatePeer {peer : Nat} {data : PeerData} (named : ∀ v ∈ data.sent, s.Names book v)
    (done : updatePeer s book peer data = some s') : s.Grows s' := by
  obtain ⟨updates, frame⟩ := updatePeer_eq_some_iff.mp done
  obtain ⟨entry, mem, rfl, free⟩ := updates.free
  have written : s.updateEntry entry.id data.apply = some s' :=
    Books.writeEntries_eq_some_iff.mpr ⟨(unique_apply_iff mem).mpr free, frame⟩
  exact Books.grows_updateEntry written mem (fun _ => rfl) fun v has =>
    (mem_of_apply has).imp_right (named v)

/-- The API stores the ids that it is sent. -/
theorem resolves_storePeer_iff {data : PeerData} (resolves : s.Resolves) :
    ((storePeer s book data).getD s).Resolves ↔
      (Stores s book data → ∀ v ∈ data.sent, s.Names book v) := by
  constructor
  · intro after stores v sent
    obtain ⟨rustdeskId, given, free⟩ := stores.free
    have creates : ∃ s', s.createEntry (fun id =>
        data.apply { id, addressBookId := book, rustdeskId }) = some s' :=
      Books.createEntry_of_absent _ ((absent_iff given s.entries.nextId).mpr free)
    obtain ⟨s', made⟩ := creates
    obtain ⟨-, entries, tags, system⟩ := Books.createEntry_eq_some_iff.mp made
    have done : storePeer s book data = some s' := by
      refine storePeer_eq_some_iff.mpr ⟨stores, ?_, tags, system⟩
      simpa only [given, Option.getD_some] using entries
    rw [done, Option.getD_some] at after
    refine (Books.names_of_eq tags).mp (after book v
      ⟨data.apply { id := s.entries.nextId, addressBookId := book, rustdeskId },
        Books.mem_entriesOf.mpr ⟨?_, rfl⟩, ?_⟩)
    · rw [entries]
      exact Table.mem_insert.mpr (.inr rfl)
    · exact apply_of_sent sent _
  · intro named
    cases done : storePeer s book data with
    | none => exact resolves
    | some s' => exact (grows_storePeer (named (storePeer_eq_some_iff.mp done).1) done).resolves resolves

theorem resolves_updatePeer_iff {peer : Nat} {data : PeerData} (resolves : s.Resolves) :
    ((updatePeer s book peer data).getD s).Resolves ↔
      (Updates s book peer data → ∀ v ∈ data.sent, s.Names book v) := by
  constructor
  · intro after updates v sent
    obtain ⟨entry, mem, rfl, free⟩ := updates.free
    have unique := (unique_apply_iff mem).mpr free
    have done : updatePeer s book entry.id data = some { s with entries := _, entryIds := unique } :=
      updatePeer_eq_some_iff.mpr ⟨updates, rfl, rfl, rfl⟩
    rw [done] at after
    obtain ⟨present, here⟩ := Books.mem_entriesOf.mp mem
    refine after book v ⟨data.apply entry, Books.mem_entriesOf.mpr ⟨?_, here⟩, ?_⟩
    · exact (Table.mem_update_id (s := data.apply entry) present rfl data.apply).mpr rfl
    · exact apply_of_sent sent _
  · intro named
    cases done : updatePeer s book peer data with
    | none => exact resolves
    | some s' =>
        exact (grows_updatePeer (named (updatePeer_eq_some_iff.mp done).1) done).resolves resolves

theorem grows_storeTag {name : String} {color : Int} (done : storeTag s book name color = some s') :
    s.Grows s' := by
  obtain ⟨row, -, done⟩ := Option.bind_eq_some_iff.mp done
  split at done
  · cases done
  · obtain ⟨made, created, rfl⟩ := Option.map_eq_some_iff.mp done
    exact (Books.grows_createTag created).1

end AdminApi.AddressBooksController

namespace DeviceCliController
variable {s s' : Books}

theorem mem_of_addTagId {tagIds : List Json} {id : Nat} {v : Json} (mem : v ∈ addTagId tagIds id) :
    v ∈ tagIds ∨ v = .int id := by
  unfold addTagId at mem
  split at mem
  · exact .inl mem
  · simpa using mem

theorem entries_of_firstOrCreateTag {book id : Nat} {name : String} {color : Int}
    (done : s.firstOrCreateTag book name color = some (s', id)) : s'.entries = s.entries := by
  unfold Books.firstOrCreateTag at done
  split at done
  · obtain ⟨rfl, -⟩ := Prod.mk.inj (Option.some.inj done)
    rfl
  · exact (Books.createTag_eq_some_iff.mp done).2.2.2.1

/-- The tag of a request: the tables, and the ids of the entry after it. -/
structure Tagged (s tagged : Books) (book : Nat) (before after : Option (List Json)) : Prop where
  grows : s.Grows tagged
  entries : tagged.entries = s.entries
  named : ∀ v ∈ after.getD [], v ∈ before.getD [] ∨ tagged.Names book v

theorem addressBookId_entryColumns (r : Request) (seen : Seen) (entry : AddressBookEntry) :
    (entryColumns r seen entry).addressBookId = entry.addressBookId := by
  rw [entryColumns]

/-- The write of the entry, which is found or made. -/
theorem grows_enter {r : Request} {book : Nat} {seen : Seen} {tagged : Books}
    {tagIds : Option (List Json)}
    (state : Tagged s tagged book ((s.entryNamed book (trim r.id)).bind AddressBookEntry.tagIds) tagIds)
    (done : (match s.entryNamed book (trim r.id) with
      | some entry => tagged.updateEntry entry.id fun old => { entryColumns r seen old with tagIds }
      | none => tagged.createEntry fun id =>
          { entryColumns r seen { id, addressBookId := book, rustdeskId := trim r.id } with tagIds }) =
        some s') : s.Grows s' := by
  have named := state.named
  cases found : s.entryNamed book (trim r.id) with
  | some entry =>
      simp only [found] at done
      have listed : entry ∈ tagged.entriesOf book := by
        rw [Books.entriesOf, state.entries]
        exact List.mem_of_find?_eq_some found
      rw [found] at named
      refine state.grows.trans (Books.grows_updateEntry done listed ?_ named)
      simp only [addressBookId_entryColumns, implies_true]
  | none =>
      simp only [found] at done
      refine state.grows.trans (Books.grows_createEntry done fun v mem => ?_)
      rw [found] at named
      simp only [addressBookId_entryColumns]
      cases named v mem with
      | inl old => cases old
      | inr new => exact new

theorem grows_applyAddressBook {r : Request} {book : Nat} {seen : Seen}
    (done : applyAddressBook s r book seen = some s') : s.Grows s' := by
  simp only [applyAddressBook, Option.bind_eq_bind] at done
  split at done
  · obtain ⟨⟨tagged, tagIds⟩, wrote, done⟩ := Option.bind_eq_some_iff.mp done
    obtain ⟨⟨made, id⟩, created, same⟩ := Option.map_eq_some_iff.mp wrote
    obtain ⟨rfl, rfl⟩ := Prod.mk.inj same
    obtain ⟨grows, named⟩ := Books.grows_firstOrCreateTag created
    refine grows_enter ⟨grows, entries_of_firstOrCreateTag created, fun v mem => ?_⟩ done
    rcases mem_of_addTagId mem with old | rfl
    · exact .inl old
    · exact .inr named
  · exact grows_enter ⟨.refl s, rfl, fun _ mem => .inl mem⟩ done

theorem grows_assignBooks {token : ApiToken} {r : Request} {seen : Seen}
    (done : assignBooks s token r seen = some s') : s.Grows s' := by
  obtain ⟨system, -, done⟩ := Option.bind_eq_some_iff.mp done
  obtain ⟨book, -, done⟩ := Option.bind_eq_some_iff.mp done
  have same : s.Grows { s with system } := .of_eq rfl rfl
  split at done
  · exact same.trans (grows_applyAddressBook done)
  · obtain rfl := Option.some.inj done
    exact same

end DeviceCliController

end CortenDesk
