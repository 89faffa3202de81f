import CortenDesk.AddressBook.Import
import CortenDesk.AddressBook.TagGrowth

/-!
The import among the operations that let no tag go: the ids that it remembers of names stay
those of tags of the books while it runs.
-/
namespace CortenDesk
open Php

namespace ImportLejianwen
variable {start : Books} {maps : BookMaps} {state state' : Tagging}

/-- What every step of the tags and of the entries keeps: the tags that the import found or made
are tags of their books. -/
structure Built (start : Books) (state : Tagging) : Prop where
  grows : start.Grows state.books
  known : ∀ book name id, ((book, name), id) ∈ state.tagIds → state.books.Names book (.int id)

theorem Built.grow (built : Built start state) {s : Books} (grows : state.books.Grows s) :
    Built start { state with books := s } :=
  ⟨built.grows.trans grows, fun book name id mem => grows.names _ _ (built.known book name id mem)⟩

theorem grows_updateOrCreateTag {s s' : Books} {book id : Nat} {name : String} {color : Option Int}
    (done : updateOrCreateTag s book name color = some (s', id)) :
    s.Grows s' ∧ s'.Names book (.int id) := by
  unfold updateOrCreateTag at done
  split at done
  · next tag found =>
    obtain ⟨written, wrote, same⟩ := Option.map_eq_some_iff.mp done
    obtain ⟨rfl, rfl⟩ := Prod.mk.inj same
    have grows := Books.grows_writeTags wrote fun _ => rfl
    exact ⟨grows, grows.names _ _ ⟨tag, List.mem_of_find?_eq_some found, rfl⟩⟩
  · exact Books.grows_createTag done

/-- A tag that is found or made is known from then on. -/
theorem Built.tag (built : Built start state) {s : Books} {book id : Nat} {name : String}
    {color : Option Int} (done : updateOrCreateTag state.books book name color = some (s, id)) :
    Built start { books := s, tagIds := ((book, name), id) :: state.tagIds } ∧
      s.Names book (.int id) := by
  obtain ⟨grows, named⟩ := grows_updateOrCreateTag done
  refine ⟨⟨built.grows.trans grows, fun other text id' mem => ?_⟩, named⟩
  rcases List.mem_cons.mp mem with new | old
  · obtain ⟨key, rfl⟩ := Prod.mk.inj new
    obtain ⟨rfl, rfl⟩ := Prod.mk.inj key
    exact named
  · exact grows.names _ _ (built.known other text id' old)

theorem built_importTag {row : SourceTag} (built : Built start state)
    (done : importTag maps state row = some state') : Built start state' := by
  unfold importTag at done
  split at done
  · obtain rfl := Option.some.inj done
    exact built
  · obtain ⟨⟨books, id⟩, wrote, rfl⟩ := Option.map_eq_some_iff.mp done
    exact (built.tag wrote).1

/-- The ids that the names of an entry were resolved to are tags of its book. -/
structure Resolved (start : Books) (book : Nat) (state : Tagging × List Nat) : Prop where
  built : Built start state.1
  named : ∀ id ∈ state.2, state.1.books.Names book (.int id)

theorem Resolved.add {book id : Nat} {ids : List Nat} (built : Built start state')
    (old : ∀ id ∈ ids, state'.books.Names book (.int id)) (new : state'.books.Names book (.int id)) :
    Resolved start book (state', ids ++ [id]) := by
  refine ⟨built, fun other mem => ?_⟩
  rcases List.mem_append.mp mem with mem | mem
  · exact old other mem
  · rw [List.mem_singleton.mp mem]
    exact new

theorem resolved_resolveTagId {book : Nat} {before after : Tagging × List Nat} {name : Json}
    (resolved : Resolved start book before) (done : resolveTagId book before name = some after) :
    Resolved start book after := by
  obtain ⟨text, -, done⟩ := Option.bind_eq_some_iff.mp done
  simp only at done
  split at done
  · obtain rfl := Option.some.inj done
    exact resolved
  · split at done
    · next id found =>
      obtain rfl := Option.some.inj done
      obtain ⟨before, after, split, -⟩ := List.lookup_eq_some_iff.mp found
      refine .add resolved.built resolved.named (resolved.built.known book (trim text) id ?_)
      rw [split]
      exact List.mem_append_right _ List.mem_cons_self
    · obtain ⟨⟨books, id⟩, wrote, rfl⟩ := Option.map_eq_some_iff.mp done
      obtain ⟨built, named⟩ := resolved.built.tag wrote
      have grows := (grows_updateOrCreateTag wrote).1
      exact .add built (fun other mem => grows.names _ _ (resolved.named other mem)) named

theorem resolved_resolveTagIds {json : JsonText} {book : Nat} {text : String} {ids : List Nat}
    (built : Built start state) (done : resolveTagIds json state book text = some (state', ids)) :
    Resolved start book (state', ids) := by
  have none : Resolved start book (state, []) := ⟨built, fun _ mem => nomatch mem⟩
  unfold resolveTagIds at done
  split at done
  · next names _ =>
    obtain ⟨later, ran, same⟩ := Option.map_eq_some_iff.mp done
    obtain ⟨rfl, rfl⟩ := Prod.mk.inj same
    have resolved := Runs.invariant_completed
      (fun _ _ _ before stepped => resolved_resolveTagId before stepped) _ _ later none ran
    exact ⟨resolved.built, fun id mem => resolved.named id (List.mem_eraseDups.mp mem)⟩
  · obtain ⟨rfl, rfl⟩ := Prod.mk.inj (Option.some.inj done)
    exact none

theorem addressBookId_fillEntry (row : SourceEntry) (ids : List Nat) (entry : AddressBookEntry) :
    (fillEntry row ids entry).addressBookId = entry.addressBookId := by
  rw [fillEntry]

theorem tagIds_fillEntry (row : SourceEntry) (ids : List Nat) (entry : AddressBookEntry) :
    (fillEntry row ids entry).tagIds = some (ids.map fun id : Nat => .int id) := by
  rw [fillEntry]

theorem grows_fillNamed {s s' : Books} {book : Nat} {rustdeskId : String} {row : SourceEntry}
    {ids : List Nat} (named : ∀ id ∈ ids, s.Names book (.int id))
    (done : fillNamed s book rustdeskId row ids = some s') : s.Grows s' := by
  have values : ∀ v ∈ ids.map fun id : Nat => Json.int id, s.Names book v := by
    intro v mem
    obtain ⟨id, listed, rfl⟩ := List.mem_map.mp mem
    exact named id listed
  cases found : (s.entriesOf book).find? fun entry => entry.rustdeskId = rustdeskId with
  | some entry =>
      simp only [fillNamed, found] at done
      refine Books.grows_updateEntry done (List.mem_of_find?_eq_some found) ?_ ?_
      · exact addressBookId_fillEntry row ids
      · rw [tagIds_fillEntry]
        exact fun v mem => .inr (values v mem)
  | none =>
      simp only [fillNamed, found] at done
      refine Books.grows_createEntry done ?_
      rw [tagIds_fillEntry, addressBookId_fillEntry]
      exact values

theorem built_importEntry {json : JsonText} {row : SourceEntry} (built : Built start state)
    (done : importEntry json maps state row = some state') : Built start state' := by
  simp only [importEntry] at done
  split at done
  · obtain rfl := Option.some.inj done
    exact built
  · split at done
    · obtain rfl := Option.some.inj done
      exact built
    · obtain ⟨⟨tagged, ids⟩, ran, done⟩ := Option.bind_eq_some_iff.mp done
      obtain ⟨books, filled, done⟩ := Option.bind_eq_some_iff.mp done
      obtain rfl := Option.some.inj done
      have resolved := resolved_resolveTagIds built ran
      exact resolved.built.grow (grows_fillNamed resolved.named filled)

theorem built_importTags {rows : List SourceTag} (ran : rows.foldlM (importTag maps) state = some state')
    (built : Built start state) : Built start state' :=
  Runs.invariant_completed (fun _ _ _ before stepped => built_importTag before stepped) rows state
    state' built ran

theorem built_importEntries {json : JsonText} {rows : List SourceEntry}
    (ran : rows.foldlM (importEntry json maps) state = some state') (built : Built start state) :
    Built start state' :=
  Runs.invariant_completed (fun _ _ _ before stepped => built_importEntry before stepped) rows state
    state' built ran

/-- The import adds to the tables, which are empty after a wipe. -/
theorem resolves_importBooks {json : JsonText} {s : Books} {wipe : Bool} {source : SourceBooks}
    {stages : Stages} (done : importBooks json s wipe source = some stages) (resolves : s.Resolves) :
    stages.tagging.books.Resolves := by
  simp only [importBooks] at done
  obtain ⟨tagged, tags, done⟩ := Option.bind_eq_some_iff.mp done
  obtain ⟨tagging, entries, done⟩ := Option.bind_eq_some_iff.mp done
  obtain rfl := Option.some.inj done
  have begun : (if wipe then wipeBooks s else s).Resolves := by
    split
    · rintro book v ⟨entry, mem, -⟩
      simp [Books.entriesOf, wipeBooks, Books.deleteEntries, Table.delete] at mem
    · exact resolves
  have built : Built (if wipe then wipeBooks s else s) tagging :=
    built_importEntries entries
      (built_importTags tags ⟨.of_eq rfl rfl, fun _ _ _ mem => absurd mem List.not_mem_nil⟩)
  exact built.grows.resolves begun

end ImportLejianwen

end CortenDesk
