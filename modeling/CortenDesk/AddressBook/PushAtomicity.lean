import CortenDesk.AddressBook.PushLoops

/-!
When a push replaces the personal book as a whole. Where a loop throws, what was deleted is
gone, so the book is as before only if it had nothing to lose.
-/
namespace CortenDesk
open Php

/-- An entry in the words of a payload: its tags by name. -/
structure Peer where
  id : String
  username : String
  hostname : String
  platform : String
  «alias» : String
  hash : String
  tags : List String
  deriving DecidableEq

structure Contents where
  tags : List (String × Int)
  peers : List Peer
  deriving DecidableEq

namespace Books

/-- The name of the tag whose id a value is. -/
def tagName (tags : List Tag) : Json → Option String
  | .int i => (tags.find? fun tag => decide ((tag.id : Int) = i)).map Tag.name
  | _ => none

def peer (tags : List Tag) (entry : AddressBookEntry) : Peer where
  id := entry.rustdeskId
  username := entry.username.getD ""
  hostname := entry.hostname.getD ""
  platform := entry.platform.getD ""
  «alias» := entry.alias.getD ""
  hash := entry.hash.getD ""
  tags := (entry.tagIds.getD []).filterMap (tagName tags)

def contents (s : Books) (book : Nat) : Contents where
  tags := (s.tagsOf book).map fun tag => (tag.name, tag.color)
  peers := (s.entriesOf book).map (peer (s.tagsOf book))

end Books

namespace AddressBookController

/-- The declared name that a peer's tag spells. -/
def byText (names : List Json) (tag : Json) : Option String :=
  tag.toText.filter fun text => text ∈ names.filterMap Json.toText

/-- The last declared name stored under the key of a peer's tag. -/
def byKey (names : List Json) (tag : Json) : Option String :=
  (names.reverse.find? fun name => name.toKey = tag.toKey).bind Json.toText

namespace Payload

def kept (p : Payload) : List (List (Key × Json)) := p.peers.filterMap keptPeer

/-- What the payload says the book holds. -/
def contents (p : Payload) : Contents where
  tags := p.names.filterMap fun name => name.toText.map fun text => (text, colorOf p.colors name)
  peers := p.kept.map fun peer =>
    { id := textOf peer "id", username := textOf peer "username"
      hostname := textOf peer "hostname", platform := textOf peer "platform"
      «alias» := textOf peer "alias", hash := textOf peer "hash"
      tags := (peerTags peer).filterMap (byText p.names) }

/-- Every row can be created, and the keys of the tags tell them apart as their texts do. -/
structure Complete (p : Payload) : Prop where
  names : Creatable [] p.names
  peers : Enterable [] p.kept
  keyed : ∀ peer ∈ p.kept,
    (peerTags peer).filterMap (byKey p.names) = (peerTags peer).filterMap (byText p.names)

/-- The first row that is to be created throws, where nothing was deleted. -/
def Spared (p : Payload) (tags : List Tag) (entries : List AddressBookEntry) : Prop :=
  tags = [] ∧
    ((∃ name names, p.names = name :: names ∧ name.toText = none) ∨
      (p.names = [] ∧ entries = [] ∧ ∃ peer kept, p.kept = peer :: kept ∧ ¬ Castable peer))

end Payload

/-- A push either replaces the book by the payload, or it errs and leaves the book alone. -/
def AllOrNothing (json : JsonText) (s : Books) (user : User) (data : Json) : Prop :=
  let book := (s.personalFor user).2
  let after := legacyPush json s user data
  (after.2 = .replaced ∧ ∃ payload, decodeBody json data = .payload payload ∧
    after.1.contents book = payload.contents) ∨
  (after.2 ≠ .replaced ∧ after.1.tagsOf book = s.tagsOf book ∧
    after.1.entriesOf book = s.entriesOf book)

/-- The condition on a body: it decodes to no payload, or to one that does not throw half way. -/
def Replaceable (json : JsonText) (s : Books) (user : User) (data : Json) : Prop :=
  let book := (s.personalFor user).2
  match decodeBody json data with
  | .payload payload =>
      payload.Complete ∨ payload.Spared (s.tagsOf book) (s.entriesOf book)
  | _ => True

theorem mem_zipIdx_of_keyed {start id : Nat} {names : List Json} {name : Json} {key : Key}
    (found : (keyed start names).find? (fun given => given.1.toKey = some key) = some (name, id)) :
    (name, id) ∈ names.zipIdx start :=
  List.mem_reverse.mp (List.mem_of_find?_eq_some found)

theorem find?_numbered {book : Nat} {colors : Json} {start id : Nat} {names : List Json} {name : Json}
    (mem : (name, id) ∈ names.zipIdx start) :
    (Table.numbered (tagRow book colors) start names).find? (fun tag => decide ((tag.id : Int) = id)) =
      some (tagRow book colors name id) := by
  induction names generalizing start with
  | nil => cases mem
  | cons first names ih =>
      rw [List.zipIdx_cons, List.mem_cons] at mem
      rw [Table.numbered_cons]
      rcases mem with same | later
      · obtain ⟨rfl, rfl⟩ := Prod.mk.inj same
        exact List.find?_cons_of_pos (by simp [tagRow])
      · have above : start + 1 ≤ id := (List.mem_zipIdx later).1
        have other : ((tagRow book colors first start).id : Int) ≠ id := by
          simp only [tagRow]
          omega
        rw [List.find?_cons_of_neg (by simpa using other)]
        exact ih later

/-- The tag that the loop stored under the key of a value, by its name. -/
theorem tagName_of_key (book : Nat) (colors : Json) {start : Nat} {names : List Json} {tag : Json}
    (scalars : ∀ name ∈ names, name.toText.isSome) (scalar : tag.toText.isSome) (positive : 0 < start) :
    ((((tag.toKey.bind (idOf start names)).filter (· ≠ 0)).map fun id : Nat => Json.int id).bind
      (Books.tagName (Table.numbered (tagRow book colors) start names))) = byKey names tag := by
  rw [← Json.toKey_isSome] at scalar
  obtain ⟨key, keyed'⟩ := Option.isSome_iff_exists.mp scalar
  have reversed : names.reverse = (keyed start names).map Prod.fst := by
    rw [keyed, List.map_reverse, List.zipIdx_map_fst]
  rw [byKey, keyed', Option.bind_some, idOf, reversed, List.find?_map]
  simp only [Function.comp_def]
  cases found : (keyed start names).find? fun given => given.1.toKey = some key with
  | none => simp
  | some given =>
      obtain ⟨name, id⟩ := given
      have mem := mem_zipIdx_of_keyed found
      have bound : start ≤ id := (List.mem_zipIdx mem).1
      have nonzero : id ≠ 0 := by omega
      have listed : name ∈ names := by
        have first := List.mem_map_of_mem (f := Prod.fst) mem
        rwa [List.zipIdx_map_fst] at first
      obtain ⟨text, texted⟩ := Option.isSome_iff_exists.mp (scalars name listed)
      have numbered : Books.tagName (Table.numbered (tagRow book colors) start names) (.int id) =
          some text := by
        rw [Books.tagName, find?_numbered mem, Option.map_some, tagRow, texted]
        rfl
      simp [Option.filter_some, nonzero, numbered, texted]

theorem tags_of_castPeer (book : Nat) (colors : Json) {start : Nat} {names : List Json}
    {ids : Arr Key Nat} (looked : ∀ key, ids.get? key = idOf start names key)
    (scalars : ∀ name ∈ names, name.toText.isSome) (positive : 0 < start)
    {peer : List (Key × Json)} (castable : Castable peer) :
    (((castPeer ids peer).tagIds.map fun id : Nat => Json.int id).filterMap
      (Books.tagName (Table.numbered (tagRow book colors) start names))) =
      (peerTags peer).filterMap (byKey names) := by
  have resolved : (fun name : Json => name.toKey.bind ids.get?) =
      fun name => name.toKey.bind (idOf start names) := by
    funext name
    rw [funext looked]
  rw [castPeer, resolved, ← List.filterMap_eq_filter, List.filterMap_map, List.filterMap_filterMap,
    List.filterMap_filterMap]
  refine List.filterMap_congr fun tag mem => ?_
  rw [← tagName_of_key book colors scalars (castable.tags tag mem) positive]
  cases tag.toKey.bind (idOf start names) with
  | none => rfl
  | some id => by_cases zero : id = 0 <;> simp [Option.guard, Option.filter_some, zero]

/-- The state after both loops went through, for a book of which nothing is left before each. -/
structure Replaced (s s' : Books) (book : Nat) (payload : Payload) : Prop where
  creatable : Creatable [] payload.names
  enterable : Enterable [] payload.kept
  ids : ∃ ids : Arr Key Nat, (∀ key, ids.get? key = idOf s.tags.nextId payload.names key) ∧
    s'.entriesOf book = Table.numbered (entryRow book ids) s.entries.nextId payload.kept
  tags : s'.tagsOf book = Table.numbered (tagRow book payload.colors) s.tags.nextId payload.names
  system : s'.system = s.system

theorem tagsOf_cleared (s : Books) (book : Nat) :
    (s.deleteTags fun tag => tag.addressBookId = book).tagsOf book = [] := by
  simp [Books.tagsOf, Books.deleteTags, Table.delete]

theorem entriesOf_cleared (s : Books) (book : Nat) :
    (s.deleteEntries fun entry => entry.addressBookId = book).entriesOf book = [] := by
  simp [Books.entriesOf, Books.deleteEntries, Table.delete]

/-- The book after the tag loop went through some names. -/
theorem tagsOf_pushed {book : Nat} {colors : Json} {names : List Json} {s s' : Books}
    {ids ids' : Arr Key Nat} (pushed : TagsPushed book colors names s s' ids ids') :
    s'.tagsOf book = s.tagsOf book ++ Table.numbered (tagRow book colors) s.tags.nextId names := by
  have own : ∀ tag ∈ Table.numbered (tagRow book colors) s.tags.nextId names,
      tag.addressBookId = book := by
    intro tag mem
    obtain ⟨name, -, id, -, rfl⟩ := Table.mem_numbered mem
    rfl
  rw [Books.tagsOf, pushed.rows, List.filter_append]
  congr 1
  exact List.filter_eq_self.mpr fun tag mem => decide_eq_true (own tag mem)

theorem entriesOf_pushed {book : Nat} {ids : Arr Key Nat} {kept : List (List (Key × Json))}
    {s s' : Books} (pushed : EntriesPushed book ids kept s s') :
    s'.entriesOf book = s.entriesOf book ++ Table.numbered (entryRow book ids) s.entries.nextId kept := by
  have own : ∀ entry ∈ Table.numbered (entryRow book ids) s.entries.nextId kept,
      entry.addressBookId = book := by
    intro entry mem
    obtain ⟨peer, -, id, -, rfl⟩ := Table.mem_numbered mem
    rfl
  rw [Books.entriesOf, pushed.rows, List.filter_append]
  congr 1
  exact List.filter_eq_self.mpr fun entry mem => decide_eq_true (own entry mem)

/-- The three ways a push of a payload goes. -/
inductive Pushed (s : Books) (book : Nat) (payload : Payload) : Books × Ending → Prop
  | replaced (s' : Books) (state : Replaced s s' book payload) : Pushed s book payload (s', .replaced)
  | tagThrew (s' : Books) (before : List Json) (name : Json) (after : List Json)
      (split : payload.names = before ++ name :: after)
      (refused : ¬ Creatable [] payload.names)
      (made : Creatable [] before) (scalar : before = [] → name.toText = none)
      (tags : s'.tagsOf book = Table.numbered (tagRow book payload.colors) s.tags.nextId before)
      (entries : s'.entries = s.entries) : Pushed s book payload (s', .thrown)
  | entryThrew (s' : Books) (ids : Arr Key Nat) (before : List (List (Key × Json)))
      (peer : List (Key × Json)) (after : List (List (Key × Json)))
      (split : payload.kept = before ++ peer :: after)
      (creatable : Creatable [] payload.names)
      (refused : ¬ Enterable [] payload.kept)
      (made : Enterable [] before) (castable : before = [] → ¬ Castable peer)
      (looked : ∀ key, ids.get? key = idOf s.tags.nextId payload.names key)
      (tags : s'.tagsOf book =
        Table.numbered (tagRow book payload.colors) s.tags.nextId payload.names)
      (entries : s'.entriesOf book = Table.numbered (entryRow book ids) s.entries.nextId before) :
      Pushed s book payload (s', .thrown)

theorem creatable_of_completed {book : Nat} {colors : Json} {names : List Json} {s : Books}
    {ids : Arr Key Nat} {state : Books × Arr Key Nat}
    (threw : Runs.foreach (pushTag book colors) (s, ids) names = (state, false)) :
    ¬ Creatable ((s.tagsOf book).map Tag.name) names := by
  intro creatable
  obtain ⟨s', ids', done⟩ := pushTags_of_creatable colors ids creatable
  rw [Runs.foreach_eq_true_iff.mpr done] at threw
  cases threw

theorem first_tag_threw {book : Nat} {colors name : Json} {s : Books} {ids : Arr Key Nat}
    (none : s.tagsOf book = []) (threw : pushTag book colors (s, ids) name = .none) :
    name.toText = .none := by
  cases texted : name.toText with
  | none => rfl
  | some text =>
      have keyed : name.toKey.isSome := by
        rw [Json.toKey_isSome, texted]
        rfl
      obtain ⟨key, keyed⟩ := Option.isSome_iff_exists.mp keyed
      have absent : ∀ tag ∈ s.tagsOf book, tag.name ≠ text := by
        rw [none]
        exact fun _ mem => (nomatch mem)
      obtain ⟨made, created⟩ := Books.createTag_of_absent (colorOf colors name) absent
      rw [pushTag_eq_some_iff.mpr ⟨text, key, texted, keyed, created, rfl⟩] at threw
      cases threw

theorem first_entry_threw {book : Nat} {ids : Arr Key Nat} {s : Books} {peer : List (Key × Json)}
    (none : s.entriesOf book = []) (threw : pushKept book ids s peer = .none) : ¬ Castable peer := by
  intro castable
  have absent : ∀ entry ∈ s.entries.rows,
      entry.index ≠ (entryRow book ids peer s.entries.nextId).index := by
    intro entry mem same
    have here : entry ∈ s.entriesOf book := Books.mem_entriesOf.mpr ⟨mem, (Prod.mk.inj same).1⟩
    rw [none] at here
    cases here
  obtain ⟨made, created⟩ := Books.createEntry_of_absent (fun _ => rfl) absent
  rw [pushKept_eq_some_iff.mpr ⟨castable, created⟩] at threw
  cases threw

/-- Passing over peers, the loop is the loop over those it keeps. -/
theorem foreach_pushPeer (book : Nat) (ids : Arr Key Nat) (peers : List Json) (s : Books) :
    Runs.foreach (pushPeer book ids) s peers =
      Runs.foreach (pushKept book ids) s (peers.filterMap keptPeer) := by
  induction peers generalizing s with
  | nil => rfl
  | cons peer peers ih =>
      cases kept : keptPeer peer with
      | none =>
          rw [List.filterMap_cons_none kept, Runs.foreach, pushPeer, kept]
          exact ih s
      | some fields =>
          have same : pushPeer book ids s peer = pushKept book ids s fields := by
            rw [pushPeer, kept]
            rfl
          rw [List.filterMap_cons_some kept, Runs.foreach, same, Runs.foreach]
          cases pushKept book ids s fields with
          | none => rfl
          | some made => exact ih made

theorem replaceBook_pushed (s : Books) (book : Nat) (payload : Payload) :
    Pushed s book payload (replaceBook s book payload) := by
  have noTags := tagsOf_cleared s book
  rw [replaceBook]
  cases rebuilt : Runs.foreach (pushTag book payload.colors)
      (s.deleteTags fun tag => tag.addressBookId = book, ∅) payload.names with
  | mk state completed =>
  obtain ⟨tagged, ids⟩ := state
  cases completed with
  | false =>
      have refused := creatable_of_completed rebuilt
      obtain ⟨before, name, after, split, ran, threw⟩ := Runs.foreach_eq_false_iff.mp rebuilt
      obtain ⟨creatable, pushed⟩ := pushTags_pushed ran
      rw [noTags] at refused creatable
      refine .tagThrew tagged before name after split refused creatable ?_ ?_ pushed.entries
      · rintro rfl
        obtain ⟨rfl, rfl⟩ := Prod.mk.inj (Option.some.inj ran)
        exact first_tag_threw noTags threw
      · rw [tagsOf_pushed pushed, noTags]
        rfl
  | true =>
      obtain ⟨creatable, pushed⟩ := pushTags_pushed (Runs.foreach_eq_true_iff.mp rebuilt)
      rw [noTags] at creatable
      have tags : tagged.tagsOf book =
          Table.numbered (tagRow book payload.colors) s.tags.nextId payload.names := by
        rw [tagsOf_pushed pushed, noTags]
        rfl
      have noEntries := entriesOf_cleared tagged book
      simp only [Bool.not_true, Bool.false_eq_true, if_false, foreach_pushPeer]
      cases entered : Runs.foreach (pushKept book ids)
          (tagged.deleteEntries fun entry => entry.addressBookId = book)
          (payload.peers.filterMap keptPeer) with
      | mk s' completed =>
      cases completed with
      | false =>
          obtain ⟨before, peer, after, split, ran, threw⟩ := Runs.foreach_eq_false_iff.mp entered
          obtain ⟨made, added⟩ := pushKept_pushed ran
          rw [noEntries] at made
          refine .entryThrew s' ids before peer after split creatable ?_ made ?_ ?_ ?_ ?_
          · intro enterable
            rw [← List.map_nil, ← noEntries] at enterable
            obtain ⟨done, ran⟩ := pushKept_of_enterable ids enterable
            have through := Runs.foreach_eq_true_iff.mpr ran
            rw [Payload.kept, entered] at through
            cases through
          · rintro rfl
            obtain rfl := Option.some.inj ran
            exact first_entry_threw noEntries threw
          · intro key
            rw [pushed.ids, OrderedMap.get?_empty, Option.or_none]
            rfl
          · rw [Books.tagsOf, added.tags]
            exact tags
          · rw [entriesOf_pushed added, noEntries]
            simp [Books.deleteEntries, Table.delete, pushed.entries, Books.deleteTags]
      | true =>
          obtain ⟨enterable, added⟩ := pushKept_pushed (Runs.foreach_eq_true_iff.mp entered)
          rw [noEntries] at enterable
          refine .replaced s' ⟨creatable, enterable, ⟨ids, ?_, ?_⟩, ?_, ?_⟩
          · intro key
            rw [pushed.ids, OrderedMap.get?_empty, Option.or_none]
            rfl
          · rw [entriesOf_pushed added, noEntries]
            simp [Books.deleteEntries, Table.delete, pushed.entries, Books.deleteTags]
            rfl
          · rw [Books.tagsOf, added.tags]
            exact tags
          · rw [added.system]
            exact pushed.system

theorem map_texts {names : List Json} (scalars : ∀ name ∈ names, name.toText.isSome) (colors : Json) :
    (names.map fun name => (name.toText.getD "", colorOf colors name)) =
      names.filterMap fun name => name.toText.map fun text => (text, colorOf colors name) := by
  rw [← List.filterMap_eq_map]
  refine List.filterMap_congr fun name mem => ?_
  obtain ⟨text, texted⟩ := Option.isSome_iff_exists.mp (scalars name mem)
  simp [texted]

/-- A book that was replaced holds what the payload says, up to how keys tell tags apart. -/
theorem contents_of_replaced {s s' : Books} {book : Nat} {payload : Payload}
    (state : Replaced s s' book payload) : s'.contents book = payload.contents ↔
      ∀ peer ∈ payload.kept, (peerTags peer).filterMap (byKey payload.names) =
        (peerTags peer).filterMap (byText payload.names) := by
  obtain ⟨ids, looked, entries⟩ := state.ids
  have scalars := state.creatable.scalars
  have tags : (s'.contents book).tags = payload.contents.tags := by
    have columns (name : Json) (id : Nat) : ((tagRow book payload.colors name id).name,
        (tagRow book payload.colors name id).color) =
        (name.toText.getD "", colorOf payload.colors name) := rfl
    rw [Books.contents, state.tags, Payload.contents, ← map_texts scalars payload.colors]
    exact Table.map_numbered columns _ _
  have peers : (s'.contents book).peers = payload.kept.map fun peer =>
      { id := textOf peer "id", username := textOf peer "username"
        hostname := textOf peer "hostname", platform := textOf peer "platform"
        «alias» := textOf peer "alias", hash := textOf peer "hash"
        tags := (peerTags peer).filterMap (byKey payload.names) } := by
    have columns (peer : List (Key × Json)) (id : Nat) :
        Books.peer (s'.tagsOf book) (entryRow book ids peer id) =
          Books.peer (s'.tagsOf book) (entryRow book ids peer 0) := rfl
    rw [Books.contents, entries]
    refine (Table.map_numbered columns _ _).trans (List.map_congr_left fun peer mem => ?_)
    rw [state.tags]
    rw [← tags_of_castPeer book payload.colors looked scalars
      s.tags.positive.1 (state.enterable.castable peer mem)]
    rfl
  constructor
  · intro same peer mem
    have listed := congrArg Contents.peers same
    rw [peers, Payload.contents, List.map_inj_left] at listed
    exact congrArg Peer.tags (listed peer mem)
  · intro keyed
    have listed : (s'.contents book).peers = payload.contents.peers := by
      rw [peers, Payload.contents]
      refine List.map_congr_left fun peer mem => ?_
      rw [keyed peer mem]
    cases whole : s'.contents book
    rw [whole] at tags listed
    exact congrArg₂ Contents.mk tags listed

/-- What was just created is not what was there. -/
theorem fresh_tags {s : Books} {book : Nat} {colors : Json} {names : List Json} :
    Table.numbered (tagRow book colors) s.tags.nextId names = s.tagsOf book ↔
      names = [] ∧ s.tagsOf book = [] := by
  constructor
  · intro same
    cases names with
    | nil => exact ⟨rfl, same.symm⟩
    | cons name names =>
        have old : tagRow book colors name s.tags.nextId ∈ s.tagsOf book := by
          rw [← same]
          exact List.mem_cons_self
        exact absurd (s.tags.below _ (Books.mem_tagsOf.mp old).1) (Nat.lt_irrefl _)
  · rintro ⟨rfl, none⟩
    exact none.symm

theorem fresh_entries {s : Books} {book : Nat} {ids : Arr Key Nat} {kept : List (List (Key × Json))} :
    Table.numbered (entryRow book ids) s.entries.nextId kept = s.entriesOf book ↔
      kept = [] ∧ s.entriesOf book = [] := by
  constructor
  · intro same
    cases kept with
    | nil => exact ⟨rfl, same.symm⟩
    | cons peer kept =>
        have old : entryRow book ids peer s.entries.nextId ∈ s.entriesOf book := by
          rw [← same]
          exact List.mem_cons_self
        exact absurd (s.entries.below _ (Books.mem_entriesOf.mp old).1) (Nat.lt_irrefl _)
  · rintro ⟨rfl, none⟩
    exact none.symm

/-- A payload that a loop throws on is spared nothing unless its first row throws. -/
theorem not_spared_of_creatable {payload : Payload} {tags : List Tag} {entries : List AddressBookEntry}
    (creatable : Creatable [] payload.names) (spared : payload.Spared tags entries) :
    payload.names = [] ∧ entries = [] ∧
      ∃ peer kept, payload.kept = peer :: kept ∧ ¬ Castable peer := by
  rcases spared.2 with ⟨name, names, listed, array⟩ | rest
  · have scalar := creatable.scalars name (listed ▸ List.mem_cons_self)
    rw [array] at scalar
    cases scalar
  · exact rest

theorem pushed_iff {s : Books} {book : Nat} {payload : Payload} {after : Books × Ending}
    (pushed : Pushed s book payload after) :
    ((after.2 = .replaced ∧ after.1.contents book = payload.contents) ∨
      (after.2 ≠ .replaced ∧ after.1.tagsOf book = s.tagsOf book ∧
        after.1.entriesOf book = s.entriesOf book)) ↔
      payload.Complete ∨ payload.Spared (s.tagsOf book) (s.entriesOf book) := by
  cases pushed with
  | replaced s' state =>
      simp only [true_and, ne_eq, not_true, false_and, or_false, contents_of_replaced state]
      constructor
      · exact fun keyed => .inl ⟨state.creatable, state.enterable, keyed⟩
      · rintro (complete | spared)
        · exact complete.keyed
        · obtain ⟨-, -, peer, kept, listed, array⟩ := not_spared_of_creatable state.creatable spared
          exact absurd (state.enterable.castable peer (listed ▸ List.mem_cons_self)) array
  | tagThrew s' before name rest split refused made scalar tags entries =>
      have left : s'.entriesOf book = s.entriesOf book := by rw [Books.entriesOf, entries]; rfl
      simp only [reduceCtorEq, false_and, false_or, ne_eq, not_false_iff, true_and, tags,
        fresh_tags, left, and_true]
      constructor
      · rintro ⟨rfl, none⟩
        exact .inr ⟨none, .inl ⟨name, rest, split, scalar rfl⟩⟩
      · rintro (complete | ⟨none, spared⟩)
        · exact absurd complete.names refused
        · refine ⟨?_, none⟩
          rcases spared with ⟨first, names, listed, array⟩ | ⟨empty, -⟩
          · cases before with
            | nil => rfl
            | cons other before =>
                obtain rfl := (List.cons.inj (listed.symm.trans split)).1
                have scalar := made.scalars first List.mem_cons_self
                rw [array] at scalar
                cases scalar
          · rw [empty] at split
            exact absurd split.symm (by simp)
  | entryThrew s' ids before peer rest split creatable refused made castable looked tags entries =>
      simp only [reduceCtorEq, false_and, false_or, ne_eq, not_false_iff, true_and, tags,
        fresh_tags, entries, fresh_entries]
      constructor
      · rintro ⟨⟨none, noTags⟩, rfl, noEntries⟩
        exact .inr ⟨noTags, .inr ⟨none, noEntries, peer, rest, split, castable rfl⟩⟩
      · rintro (complete | spared)
        · exact absurd complete.peers refused
        · obtain ⟨none, noEntries, first, kept, listed, array⟩ :=
            not_spared_of_creatable creatable spared
          refine ⟨⟨none, spared.1⟩, ?_, noEntries⟩
          cases before with
          | nil => rfl
          | cons other before =>
              obtain rfl := (List.cons.inj (listed.symm.trans split)).1
              exact absurd (made.castable first List.mem_cons_self) array

theorem tagsOf_personalFor (s : Books) (user : User) (book : Nat) :
    (s.personalFor user).1.tagsOf book = s.tagsOf book := by
  rw [Books.tagsOf, Books.personalFor_tags]
  rfl

theorem entriesOf_personalFor (s : Books) (user : User) (book : Nat) :
    (s.personalFor user).1.entriesOf book = s.entriesOf book := by
  rw [Books.entriesOf, Books.personalFor_entries]
  rfl

/-- A push is all or nothing exactly when its payload can be created whole, or throws on its
first row over a book that had nothing to lose. -/
theorem push_all_or_nothing_iff (json : JsonText) (s : Books) (user : User) (data : Json) :
    AllOrNothing json s user data ↔ Replaceable json s user data := by
  unfold AllOrNothing Replaceable
  cases body : decodeBody json data with
  | malformed =>
      refine iff_of_true (.inr ?_) trivial
      simp [legacyPush, body, tagsOf_personalFor, entriesOf_personalFor]
  | thrown =>
      refine iff_of_true (.inr ?_) trivial
      simp [legacyPush, body, tagsOf_personalFor, entriesOf_personalFor]
  | payload payload =>
      have push : legacyPush json s user data =
          replaceBook (s.personalFor user).1 (s.personalFor user).2 payload := by
        simp only [legacyPush, body]
      have decided := pushed_iff
        (replaceBook_pushed (s.personalFor user).1 (s.personalFor user).2 payload)
      rw [← push, tagsOf_personalFor, entriesOf_personalFor] at decided
      simpa only [Body.payload.injEq, exists_eq_left'] using decided

/-- The text of a body that repeats a tag, and what it decodes to. -/
def officeTwice : String := "\x7b\"tags\":[\"office\",\"office\"],\"peers\":[]\x7d"

def officeJson : JsonText where
  encode _ := ""
  decode text :=
    if text = officeTwice then
      jsonObject [("tags", jsonList [.string "office", .string "office"]), ("peers", jsonList [])]
    else .null

/-- A personal book with a tag and an entry. -/
def desk : Books where
  system.db.addressBooks := Table.empty.insert fun id =>
    { id, name := "My address book", ownerUserId := some 1, isPersonal := true }
  tags := Table.empty.insert fun id => { id, addressBookId := 1, name := "home", color := 0 }
  entries := Table.empty.insert fun id =>
    { id, addressBookId := 1, rustdeskId := "123456789", tagIds := some [.int 1] }
  tagNames := by decide
  entryIds := by decide

/-- The push errs, and the tag of the book is gone. -/
theorem repeated_tag_loses_book :
    ¬ AllOrNothing officeJson desk { id := 1, username := "ada" } (.string officeTwice) ∧
      (legacyPush officeJson desk { id := 1, username := "ada" } (.string officeTwice)).2 = .thrown := by
  have threw : (legacyPush officeJson desk { id := 1, username := "ada" } (.string officeTwice)).2 =
      .thrown := by decide +kernel
  have lost : (legacyPush officeJson desk { id := 1, username := "ada" } (.string officeTwice)).1.tagsOf 1 ≠
      desk.tagsOf 1 := by decide +kernel
  have book : (desk.personalFor { id := 1, username := "ada" }).2 = 1 := by decide +kernel
  refine ⟨?_, threw⟩
  rintro (⟨replaced, -⟩ | ⟨-, tags, -⟩)
  · rw [threw] at replaced
    cases replaced
  · rw [book] at tags
    exact lost tags

end AddressBookController
end CortenDesk
