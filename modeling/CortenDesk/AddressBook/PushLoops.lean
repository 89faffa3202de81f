import CortenDesk.AddressBook.Legacy

/-!
The two loops of a push: when each goes through, and the rows it then has created, under
consecutive ids and in the order of the payload.
-/
namespace CortenDesk
open Php

namespace AddressBookController

/-- The row the tag loop creates for a name. -/
def tagRow (book : Nat) (colors name : Json) (id : Nat) : Tag :=
  { id, addressBookId := book, name := name.toText.getD "", color := colorOf colors name }

/-- The names with the ids they were given, the last of a key first. -/
def keyed (start : Nat) (names : List Json) : List (Json × Nat) := (names.zipIdx start).reverse

def idOf (start : Nat) (names : List Json) (key : Key) : Option Nat :=
  ((keyed start names).find? fun given => given.1.toKey = some key).map Prod.snd

theorem idOf_nil (start : Nat) (key : Key) : idOf start [] key = none := rfl

theorem idOf_cons (start : Nat) (name : Json) (names : List Json) (key : Key) :
    idOf start (name :: names) key =
      (idOf (start + 1) names key).or (if name.toKey = some key then some start else none) := by
  rw [idOf, idOf, keyed, keyed, List.zipIdx_cons, List.reverse_cons, List.find?_append,
    Option.map_or]
  congr 1
  by_cases same : name.toKey = some key <;> simp [same]

/-- The tables after the tag loop, and the ids it looked up from there on. -/
structure TagsPushed (book : Nat) (colors : Json) (names : List Json) (s s' : Books)
    (ids ids' : Arr Key Nat) : Prop where
  rows : s'.tags.rows = s.tags.rows ++ Table.numbered (tagRow book colors) s.tags.nextId names
  nextId : s'.tags.nextId = s.tags.nextId + names.length
  ids : ∀ key, ids'.get? key = (idOf s.tags.nextId names key).or (ids.get? key)
  entries : s'.entries = s.entries
  system : s'.system = s.system

/-- The names can all be created beside the tags of these names. -/
structure Creatable (existing : List String) (names : List Json) : Prop where
  scalars : ∀ name ∈ names, name.toText.isSome
  distinct : (existing ++ names.filterMap Json.toText).Nodup

theorem pushTag_eq_some_iff {book : Nat} {colors name : Json} {s s' : Books} {ids ids' : Arr Key Nat} :
    pushTag book colors (s, ids) name = some (s', ids') ↔
      ∃ text key, name.toText = some text ∧ name.toKey = some key ∧
        s.createTag book text (colorOf colors name) = some (s', s.tags.nextId) ∧
        ids' = ids.set key s.tags.nextId := by
  simp only [pushTag, Option.bind_eq_bind, Option.bind_eq_some_iff, Option.pure_def,
    Option.some.injEq, Prod.mk.injEq]
  constructor
  · rintro ⟨text, texted, key, keyed, ⟨made, id⟩, created, rfl, rfl⟩
    obtain ⟨-, rfl, -⟩ := Books.createTag_eq_some_iff.mp created
    exact ⟨text, key, texted, keyed, created, rfl⟩
  · rintro ⟨text, key, texted, keyed, created, rfl⟩
    exact ⟨text, texted, key, keyed, (s', s.tags.nextId), created, rfl, rfl⟩

theorem names_after {book : Nat} {text : String} {color : Int} {s s' : Books} {id : Nat}
    (created : s.createTag book text color = some (s', id)) :
    (s'.tagsOf book).map Tag.name = (s.tagsOf book).map Tag.name ++ [text] := by
  obtain ⟨-, -, tags, -⟩ := Books.createTag_eq_some_iff.mp created
  simp [Books.tagsOf, tags, Table.insert]

theorem pushTags_pushed {book : Nat} {colors : Json} {names : List Json} {s s' : Books}
    {ids ids' : Arr Key Nat}
    (pushed : names.foldlM (pushTag book colors) (s, ids) = some (s', ids')) :
    Creatable ((s.tagsOf book).map Tag.name) names ∧ TagsPushed book colors names s s' ids ids' := by
  induction names generalizing s ids with
  | nil =>
      obtain ⟨rfl, rfl⟩ := Prod.mk.inj (Option.some.inj pushed)
      refine ⟨⟨fun _ mem => (nomatch mem), ?_⟩, ?_⟩
      · simpa using s.names_nodup book
      · exact ⟨by simp, rfl, fun key => by simp [idOf_nil], rfl, rfl⟩
  | cons name names ih =>
      rw [List.foldlM_cons, Option.bind_eq_bind, Option.bind_eq_some_iff] at pushed
      obtain ⟨⟨made, given⟩, step, rest⟩ := pushed
      obtain ⟨text, key, texted, keyed, created, rfl⟩ := pushTag_eq_some_iff.mp step
      obtain ⟨-, -, tags, entries, system⟩ := Books.createTag_eq_some_iff.mp created
      obtain ⟨creatable, later⟩ := ih rest
      rw [names_after created] at creatable
      refine ⟨⟨?_, ?_⟩, ⟨?_, ?_, ?_, ?_, ?_⟩⟩
      · intro other mem
        rcases List.mem_cons.mp mem with rfl | mem
        · rw [texted]
          rfl
        · exact creatable.scalars other mem
      · rw [List.filterMap_cons_some texted]
        simpa using creatable.distinct
      · rw [later.rows, tags]
        simp [Table.insert, tagRow, texted]
      · rw [later.nextId, tags, List.length_cons]
        simp [Table.insert]
        omega
      · intro other
        rw [later.ids, tags, idOf_cons, Option.or_assoc]
        congr 1
        rw [OrderedMap.get?_set, keyed]
        by_cases same : other = key
        · simp [same]
        · simp [same, Ne.symm same]
      · rw [later.entries, entries]
      · rw [later.system, system]

theorem pushTags_of_creatable {book : Nat} {names : List Json} {s : Books} (colors : Json)
    (ids : Arr Key Nat) (creatable : Creatable ((s.tagsOf book).map Tag.name) names) :
    ∃ s' ids', names.foldlM (pushTag book colors) (s, ids) = some (s', ids') := by
  induction names generalizing s ids with
  | nil => exact ⟨s, ids, rfl⟩
  | cons name names ih =>
      obtain ⟨text, texted⟩ := Option.isSome_iff_exists.mp (creatable.scalars name List.mem_cons_self)
      have keyed : name.toKey.isSome := by
        rw [Json.toKey_isSome, texted]
        rfl
      obtain ⟨key, keyed⟩ := Option.isSome_iff_exists.mp keyed
      have distinct := creatable.distinct
      rw [List.filterMap_cons_some texted] at distinct
      have absent : ∀ tag ∈ s.tagsOf book, tag.name ≠ text := by
        intro tag mem same
        have apart := (List.nodup_append.mp distinct).2.2
        exact apart tag.name (List.mem_map_of_mem mem) text List.mem_cons_self same
      obtain ⟨made, created⟩ := Books.createTag_of_absent (colorOf colors name) absent
      have rest : Creatable ((made.tagsOf book).map Tag.name) names := by
        refine ⟨fun other mem => creatable.scalars other (List.mem_cons_of_mem _ mem), ?_⟩
        rw [names_after created]
        simpa using distinct
      obtain ⟨s', ids', done⟩ := ih (ids.set key s.tags.nextId) rest
      refine ⟨s', ids', ?_⟩
      rw [List.foldlM_cons, pushTag_eq_some_iff.mpr ⟨text, key, texted, keyed, created, rfl⟩]
      exact done

/-- Nothing of the peer that a push casts to a string is an array. -/
structure Castable (peer : List (Key × Json)) : Prop where
  fields : ∀ name ∈ ["id", "username", "hostname", "platform", "alias", "hash"],
    (field peer name).toText.isSome
  tags : ∀ tag ∈ peerTags peer, tag.toText.isSome

def textOf (peer : List (Key × Json)) (name : String) : String := (field peer name).toText.getD ""

/-- The columns of a peer that is cast. -/
def castPeer (ids : Arr Key Nat) (peer : List (Key × Json)) : PushedPeer where
  rustdeskId := textOf peer "id"
  username := textOf peer "username"
  hostname := textOf peer "hostname"
  platform := textOf peer "platform"
  «alias» := textOf peer "alias"
  hash := textOf peer "hash"
  tagIds := ((peerTags peer).filterMap fun name => name.toKey.bind ids.get?).filter (· ≠ 0)

theorem mapM_keys_of_scalar {ids : Arr Key Nat} {names : List Json}
    (scalars : ∀ name ∈ names, name.toText.isSome) :
    (names.mapM fun name : Json => name.toKey.map ids.get?) =
      some (names.map fun name => name.toKey.bind ids.get?) := by
  induction names with
  | nil => rfl
  | cons name names ih =>
      have keyed : name.toKey.isSome := by
        rw [Json.toKey_isSome]
        exact scalars name List.mem_cons_self
      obtain ⟨key, keyed⟩ := Option.isSome_iff_exists.mp keyed
      rw [List.mapM_cons, ih fun other mem => scalars other (List.mem_cons_of_mem _ mem), keyed,
        List.map_cons, keyed]
      rfl

theorem scalar_of_mapM_keys {ids : Arr Key Nat} {names : List Json} {found : List (Option Nat)}
    (done : (names.mapM fun name : Json => name.toKey.map ids.get?) = some found) :
    ∀ name ∈ names, name.toText.isSome := by
  induction names generalizing found with
  | nil => exact fun _ mem => (nomatch mem)
  | cons name names ih =>
      rw [List.mapM_cons, Option.bind_eq_bind, Option.bind_eq_some_iff] at done
      obtain ⟨first, keyed, rest⟩ := done
      obtain ⟨later, done, -⟩ := Option.bind_eq_some_iff.mp rest
      intro other mem
      rcases List.mem_cons.mp mem with rfl | mem
      · rw [← Json.toKey_isSome]
        obtain ⟨key, here, -⟩ := Option.map_eq_some_iff.mp keyed
        rw [here]
        rfl
      · exact ih done other mem

theorem pushedPeer_of_castable (ids : Arr Key Nat) {peer : List (Key × Json)}
    (castable : Castable peer) : pushedPeer ids peer = some (castPeer ids peer) := by
  have cast {name : String} (listed : name ∈ ["id", "username", "hostname", "platform", "alias", "hash"]) :
      (field peer name).toText = some (textOf peer name) :=
    (Option.some_get (castable.fields name listed)).symm.trans
      (congrArg some (Option.get_eq_getD _))
  have tags : resolveTags ids (peerTags peer) = some (castPeer ids peer).tagIds := by
    rw [resolveTags, mapM_keys_of_scalar castable.tags, Option.map_some, List.filterMap_map]
    rfl
  simp [pushedPeer, cast, tags, castPeer]

theorem castable_of_pushedPeer {ids : Arr Key Nat} {peer : List (Key × Json)} {pushed : PushedPeer}
    (done : pushedPeer ids peer = some pushed) : Castable peer := by
  simp only [pushedPeer, Option.bind_eq_bind, Option.bind_eq_some_iff] at done
  obtain ⟨_, id, _, username, _, hostname, _, platform, _, «alias», _, hash, _, tags, -⟩ := done
  constructor
  · simp [id, username, hostname, platform, «alias», hash]
  · obtain ⟨found, keyed, -⟩ := Option.map_eq_some_iff.mp tags
    exact scalar_of_mapM_keys keyed

theorem PushedPeer.id_row (book : Nat) (peer : PushedPeer) (id : Nat) :
    Row.id (peer.row book id) = id := rfl

/-- A pass of the entry loop for a peer that it does not pass over. -/
def pushKept (book : Nat) (ids : Arr Key Nat) (s : Books) (peer : List (Key × Json)) : Option Books :=
  (pushedPeer ids peer).bind fun pushed => s.createEntry (pushed.row book) (pushed.id_row book)

/-- The row the entry loop creates for a peer. -/
def entryRow (book : Nat) (ids : Arr Key Nat) (peer : List (Key × Json)) (id : Nat) :
    AddressBookEntry :=
  (castPeer ids peer).row book id

structure EntriesPushed (book : Nat) (ids : Arr Key Nat) (kept : List (List (Key × Json)))
    (s s' : Books) : Prop where
  rows : s'.entries.rows = s.entries.rows ++ Table.numbered (entryRow book ids) s.entries.nextId kept
  tags : s'.tags = s.tags
  system : s'.system = s.system

/-- The peers can all be created beside entries of these ids. -/
structure Enterable (existing : List String) (kept : List (List (Key × Json))) : Prop where
  castable : ∀ peer ∈ kept, Castable peer
  distinct : (existing ++ kept.map fun peer => textOf peer "id").Nodup

theorem pushKept_eq_some_iff {book : Nat} {ids : Arr Key Nat} {s s' : Books}
    {peer : List (Key × Json)} : pushKept book ids s peer = some s' ↔
      Castable peer ∧ s.createEntry (entryRow book ids peer) = some s' := by
  constructor
  · intro done
    obtain ⟨pushed, cast, created⟩ := Option.bind_eq_some_iff.mp done
    have castable := castable_of_pushedPeer cast
    rw [pushedPeer_of_castable ids castable] at cast
    obtain rfl := Option.some.inj cast
    exact ⟨castable, created⟩
  · rintro ⟨castable, created⟩
    rw [pushKept, pushedPeer_of_castable ids castable]
    exact created

theorem ids_after {book : Nat} {ids : Arr Key Nat} {s s' : Books} {peer : List (Key × Json)}
    (created : s.createEntry (entryRow book ids peer) = some s') :
    (s'.entriesOf book).map AddressBookEntry.rustdeskId =
      (s.entriesOf book).map AddressBookEntry.rustdeskId ++ [textOf peer "id"] := by
  obtain ⟨-, entries, -⟩ := Books.createEntry_eq_some_iff.mp created
  simp [Books.entriesOf, entries, Table.insert, entryRow, PushedPeer.row, castPeer]

theorem pushKept_pushed {book : Nat} {ids : Arr Key Nat} {kept : List (List (Key × Json))}
    {s s' : Books} (pushed : kept.foldlM (pushKept book ids) s = some s') :
    Enterable ((s.entriesOf book).map AddressBookEntry.rustdeskId) kept ∧
      EntriesPushed book ids kept s s' := by
  induction kept generalizing s with
  | nil =>
      obtain rfl := Option.some.inj pushed
      refine ⟨⟨fun _ mem => (nomatch mem), ?_⟩, ⟨by simp, rfl, rfl⟩⟩
      simpa using s.rustdeskIds_nodup book
  | cons peer kept ih =>
      rw [List.foldlM_cons, Option.bind_eq_bind, Option.bind_eq_some_iff] at pushed
      obtain ⟨made, step, rest⟩ := pushed
      obtain ⟨castable, created⟩ := pushKept_eq_some_iff.mp step
      obtain ⟨-, entries, tags, system⟩ := Books.createEntry_eq_some_iff.mp created
      obtain ⟨enterable, later⟩ := ih rest
      rw [ids_after created] at enterable
      refine ⟨⟨?_, ?_⟩, ⟨?_, ?_, ?_⟩⟩
      · intro other mem
        rcases List.mem_cons.mp mem with rfl | mem
        · exact castable
        · exact enterable.castable other mem
      · simpa using enterable.distinct
      · rw [later.rows, entries]
        simp [Table.insert]
      · rw [later.tags, tags]
      · rw [later.system, system]

theorem pushKept_of_enterable {book : Nat} {kept : List (List (Key × Json))} {s : Books}
    (ids : Arr Key Nat) (enterable : Enterable ((s.entriesOf book).map AddressBookEntry.rustdeskId) kept) :
    ∃ s', kept.foldlM (pushKept book ids) s = some s' := by
  induction kept generalizing s with
  | nil => exact ⟨s, rfl⟩
  | cons peer kept ih =>
      have distinct := enterable.distinct
      rw [List.map_cons] at distinct
      have absent : ∀ entry ∈ s.entries.rows,
          entry.index ≠ (entryRow book ids peer s.entries.nextId).index := by
        intro entry mem same
        obtain ⟨here, named⟩ := Prod.mk.inj same
        have apart := (List.nodup_append.mp distinct).2.2
        exact apart entry.rustdeskId (List.mem_map_of_mem (Books.mem_entriesOf.mpr ⟨mem, here⟩))
          _ List.mem_cons_self named
      obtain ⟨made, created⟩ := Books.createEntry_of_absent (fun _ => rfl) absent
      have rest : Enterable ((made.entriesOf book).map AddressBookEntry.rustdeskId) kept := by
        refine ⟨fun other mem => enterable.castable other (List.mem_cons_of_mem _ mem), ?_⟩
        rw [ids_after created]
        simpa using distinct
      obtain ⟨s', done⟩ := ih rest
      refine ⟨s', ?_⟩
      have step := pushKept_eq_some_iff.mpr ⟨enterable.castable peer List.mem_cons_self, created⟩
      rw [List.foldlM_cons, step]
      exact done

end AddressBookController
end CortenDesk
