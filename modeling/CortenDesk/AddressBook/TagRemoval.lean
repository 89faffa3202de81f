import CortenDesk.AddressBook.PushAtomicity
import CortenDesk.AddressBook.TagGrowth

/-!
What deletes tags. The console and the clients strip the ids from the entries of the book
first; the automation API does not, and a push deletes the tags before it knows that it can
create its own.
-/
namespace CortenDesk
open Php

namespace Books
variable {s : Books}

/-- A tag is told by its id among the tags of all books. -/
theorem book_of_names {book : Nat} {tag : Tag} (mem : tag ∈ s.tags.rows)
    (names : s.Names book (.int tag.id)) : book = tag.addressBookId := by
  obtain ⟨other, listed, same⟩ := names
  obtain ⟨present, here⟩ := mem_tagsOf.mp listed
  have ids : tag.id = other.id := Int.natCast_inj.mp (Json.int.inj same)
  rw [s.tags.eq_of_id_eq mem present ids, here]

theorem mem_retag {p : AddressBookEntry → Bool} {change : Option (List Json) → Option (List Json)}
    {row : AddressBookEntry} (mem : row ∈ (s.retag p change).entries.rows) :
    ∃ old ∈ s.entries.rows, (p old = true ∧ row = { old with tagIds := change old.tagIds }) ∨
      (p old = false ∧ row = old) := by
  obtain ⟨old, before, rfl⟩ := List.mem_map.mp mem
  refine ⟨old, before, ?_⟩
  split
  · next selected => exact .inl ⟨selected, rfl⟩
  · next away => exact .inr ⟨Bool.eq_false_iff.mpr away, rfl⟩

theorem held_of_retag {p : AddressBookEntry → Bool} {change : Option (List Json) → Option (List Json)}
    {book : Nat} {v : Json} (held : (s.retag p change).Held book v) : ∃ old ∈ s.entriesOf book,
      (p old = true ∧ v ∈ (change old.tagIds).getD []) ∨ (p old = false ∧ v ∈ old.tagIds.getD []) := by
  obtain ⟨row, mem, has⟩ := held
  obtain ⟨present, here⟩ := mem_entriesOf.mp mem
  obtain ⟨old, before, ⟨selected, rfl⟩ | ⟨away, rfl⟩⟩ := mem_retag present
  · exact ⟨old, mem_entriesOf.mpr ⟨before, here⟩, .inl ⟨selected, has⟩⟩
  · exact ⟨row, mem_entriesOf.mpr ⟨before, here⟩, .inr ⟨away, has⟩⟩

/-- The deletion of a tag that no entry of its book has. -/
theorem resolves_deleteTag {tag : Tag} (mem : tag ∈ s.tags.rows) (resolves : s.Resolves)
    (free : ¬ s.Held tag.addressBookId (.int tag.id)) :
    (s.deleteTags fun row => decide (row.id = tag.id)).Resolves := by
  refine resolves_deleteTags fun book v held => ?_
  obtain ⟨other, listed, rfl⟩ := resolves book v held
  refine ⟨other, listed, rfl, decide_eq_false fun same => free ?_⟩
  have here : book = tag.addressBookId := by
    apply book_of_names mem
    rw [← same]
    exact ⟨other, listed, rfl⟩
  rw [← here, ← same]
  exact held

end Books

namespace AddressBookManager
variable {s s' : Books} {actor : User} {id tagId : Nat}

theorem resolves_deleteTag (done : deleteTag s actor id tagId = some s') (resolves : s.Resolves) :
    s'.Resolves := by
  obtain ⟨book, -, done⟩ := Option.bind_eq_some_iff.mp done
  obtain ⟨tag, found, done⟩ := Option.bind_eq_some_iff.mp done
  obtain rfl := Option.some.inj done
  obtain ⟨listed, here⟩ := Books.mem_tagsOf.mp (List.mem_of_find?_eq_some found)
  refine Books.resolves_deleteTag (s := s.retag _ _) listed ?_ ?_
  · intro other v held
    obtain ⟨old, mem, ⟨-, has⟩ | ⟨-, has⟩⟩ := Books.held_of_retag held
    · obtain ⟨i, stays, rfl⟩ := List.mem_map.mp has
      obtain ⟨w, was, rfl⟩ := List.mem_map.mp (List.mem_filter.mp stays).1
      obtain ⟨tag', listed', rfl⟩ := resolves other w ⟨old, mem, was⟩
      exact ⟨tag', listed', rfl⟩
    · exact resolves other v ⟨old, mem, has⟩
  · intro held
    obtain ⟨old, mem, ⟨-, has⟩ | ⟨away, has⟩⟩ := Books.held_of_retag held
    · obtain ⟨i, stays, same⟩ := List.mem_map.mp has
      have other : i ≠ tag.id := of_decide_eq_true (List.mem_filter.mp stays).2
      exact other (Json.int.inj same)
    · have own : old.addressBookId = id := (Books.mem_entriesOf.mp mem).2.trans here
      refine Bool.eq_false_iff.mp away (Bool.and_eq_true_iff.mpr ⟨decide_eq_true own, ?_⟩)
      exact List.contains_iff_mem.mpr (List.mem_map.mpr ⟨_, has, rfl⟩)

end AddressBookManager

namespace AdminApi.AddressBooksController
variable {s : Books} {book tagId : Nat}

/-- A deletion by the API leaves the entries alone. -/
theorem resolves_destroyTag_iff (resolves : s.Resolves) :
    ((destroyTag s book tagId).getD s).Resolves ↔
      ((s.system.db.addressBooks.find? book).isSome → ¬ s.Held book (.int tagId)) := by
  cases there : s.system.db.addressBooks.find? book with
  | none =>
      have refused : destroyTag s book tagId = none := by simp [destroyTag, there]
      rw [refused]
      exact iff_of_true resolves nofun
  | some row =>
      have run : destroyTag s book tagId =
          ((s.tags.find? tagId).filter fun tag => tag.addressBookId = book).map fun tag =>
            s.deleteTags fun row => decide (row.id = tag.id) := by
        rw [Option.map_eq_bind, destroyTag, there]
        rfl
      constructor
      · rintro after - held
        obtain ⟨tag, listed, same⟩ := resolves book _ held
        obtain ⟨mem, here⟩ := Books.mem_tagsOf.mp listed
        obtain rfl : tagId = tag.id := Int.natCast_inj.mp (Json.int.inj same)
        have found : s.tags.find? tag.id = some tag := s.tags.find?_of_mem mem
        rw [run, found, Option.filter_some, if_pos (decide_eq_true here)] at after
        obtain ⟨other, left, same⟩ := after book _ held
        have gone := (Table.mem_delete.mp (Books.mem_tagsOf.mp left).1).2
        exact of_decide_eq_false gone (Int.natCast_inj.mp (Json.int.inj same)).symm
      · intro free
        rw [run]
        cases chosen : (s.tags.find? tagId).filter fun tag => tag.addressBookId = book with
        | none => exact resolves
        | some tag =>
            obtain ⟨found, here⟩ := Option.filter_eq_some_iff.mp chosen
            obtain ⟨mem, rfl⟩ := s.tags.find?_eq_some_iff.mp found
            obtain rfl := of_decide_eq_true here
            exact Books.resolves_deleteTag mem resolves (free rfl)

end AdminApi.AddressBooksController

namespace AddressBookController
variable {s t t' : Books} {user : User} {book : Nat} {ids : List Nat}

theorem texts_of_scalars {values : List Json} (scalars : ∀ v ∈ values, v.toText.isSome) :
    ∃ texts, (values.mapM fun value : Json => value.toText.map fun text => (value, text)) = some texts ∧
      texts.map Prod.fst = values ∧ ∀ value ∈ texts, value.1.toText = some value.2 := by
  induction values with
  | nil => exact ⟨[], rfl, rfl, fun _ mem => nomatch mem⟩
  | cons v values ih =>
      obtain ⟨texts, done, same, told⟩ := ih fun w mem => scalars w (List.mem_cons_of_mem _ mem)
      obtain ⟨text, spelt⟩ := Option.isSome_iff_exists.mp (scalars v List.mem_cons_self)
      refine ⟨(v, text) :: texts, ?_, ?_, ?_⟩
      · rw [List.mapM_cons, done, spelt]
        rfl
      · rw [List.map_cons, same]
      · intro value mem
        rcases List.mem_cons.mp mem with rfl | mem
        · exact spelt
        · exact told value mem

theorem diffIds_of_scalars {values : List Json} (scalars : ∀ v ∈ values, v.toText.isSome)
    (ids : List Nat) : ∃ kept, diffIds values ids = some kept ∧ kept.Sublist values ∧
      ∀ id ∈ ids, Json.int id ∉ kept := by
  obtain ⟨texts, done, rfl, told⟩ := texts_of_scalars scalars
  refine ⟨_, by rw [diffIds, done, Option.map_some], List.filter_sublist.map Prod.fst, ?_⟩
  intro id listed mem
  obtain ⟨⟨value, text⟩, stays, rfl⟩ := List.mem_map.mp mem
  obtain ⟨there, apart⟩ := List.mem_filter.mp stays
  have spelt : text = toString id := (Option.some.inj (told _ there)).symm
  refine of_decide_eq_true apart ?_
  rw [spelt]
  exact List.mem_map_of_mem listed

/-- The tables within the loop that strips the entries of a book, with the entries to come. -/
structure Stripping (s : Books) (book : Nat) (ids : List Nat) (t : Books)
    (rest : List AddressBookEntry) : Prop where
  tags : t.tags = s.tags
  rows : ∀ row ∈ t.entries.rows, ∃ old ∈ s.entries.rows, old.id = row.id ∧
    old.addressBookId = row.addressBookId ∧ ∀ v ∈ row.tagIds.getD [], v ∈ old.tagIds.getD []
  clean : ∀ row ∈ t.entriesOf book, row ∈ rest ∨ ∀ id ∈ ids, Json.int id ∉ row.tagIds.getD []

theorem stripping_stripTags {entry : AddressBookEntry} {rest : List AddressBookEntry}
    (state : Stripping s book ids t (entry :: rest)) (mem : entry ∈ s.entries.rows)
    (scalars : ∀ v ∈ entry.tagIds.getD [], v.toText.isSome) :
    ∃ t', stripTags ids t entry = some t' ∧ Stripping s book ids t' rest := by
  obtain ⟨kept, done, sublist, free⟩ := diffIds_of_scalars scalars ids
  rw [stripTags, done, Option.map_some]
  refine ⟨_, rfl, ?_⟩
  split
  · next same =>
    have whole := sublist.eq_of_length same
    refine ⟨state.tags, state.rows, fun row listed => ?_⟩
    rcases state.clean row listed with here | free
    · rcases List.mem_cons.mp here with rfl | later
      · exact .inr (whole ▸ free)
      · exact .inl later
    · exact .inr free
  · refine ⟨state.tags, fun row listed => ?_, fun row listed => ?_⟩
    · obtain ⟨before, was, ⟨selected, rfl⟩ | ⟨-, rfl⟩⟩ := Books.mem_retag listed
      · obtain ⟨old, was, key, own, -⟩ := state.rows before was
        have same : old = entry :=
          s.entries.eq_of_id_eq was mem (key.trans (of_decide_eq_true selected))
        exact ⟨old, was, key, own, fun v has => same ▸ sublist.subset has⟩
      · exact state.rows row was
    · obtain ⟨present, here⟩ := Books.mem_entriesOf.mp listed
      obtain ⟨before, was, ⟨-, rfl⟩ | ⟨away, rfl⟩⟩ := Books.mem_retag present
      · exact .inr free
      · rcases state.clean row (Books.mem_entriesOf.mpr ⟨was, here⟩) with queued | free
        · rcases List.mem_cons.mp queued with rfl | later
          · exact absurd rfl (of_decide_eq_false away)
          · exact .inl later
        · exact .inr free

/-- Where every value is an id the loop goes through. -/
theorem stripping_foreach {rest : List AddressBookEntry} (state : Stripping s book ids t rest)
    (within : ∀ entry ∈ rest, entry ∈ s.entries.rows) (resolves : s.Resolves) :
    ∃ t', Runs.foreach (stripTags ids) t rest = (t', true) ∧ Stripping s book ids t' [] := by
  induction rest generalizing t with
  | nil => exact ⟨t, rfl, state⟩
  | cons entry rest ih =>
      have mem := within entry List.mem_cons_self
      have scalars : ∀ v ∈ entry.tagIds.getD [], v.toText.isSome := by
        intro v has
        obtain ⟨tag, -, rfl⟩ := resolves _ v ⟨entry, Books.mem_entriesOf.mpr ⟨mem, rfl⟩, has⟩
        rfl
      obtain ⟨next, stepped, state⟩ := stripping_stripTags state mem scalars
      rw [Runs.foreach, stepped]
      exact ih state fun other later => within other (List.mem_cons_of_mem _ later)

theorem resolves_tagDelete {names : List String} (done : tagDelete s user book names = some t)
    (resolves : s.Resolves) : t.Resolves := by
  obtain ⟨row, -, done⟩ := Option.bind_eq_some_iff.mp done
  have begun (ids : List Nat) : Stripping s book ids s (s.entriesOf book) :=
    ⟨rfl, fun row mem => ⟨row, mem, rfl, rfl, fun _ has => has⟩, fun _ mem => .inl mem⟩
  obtain ⟨stripped, ran, state⟩ := stripping_foreach
    (begun (((s.tagsOf book).filter fun tag => truthy tag.name && decide (tag.name ∈ names)).map Tag.id))
    (fun entry mem => (Books.mem_entriesOf.mp mem).1) resolves
  simp only [ran] at done
  obtain rfl := Option.some.inj done
  split
  · exact resolves
  · refine Books.resolves_deleteTags fun other v held => ?_
    obtain ⟨row, mem, has⟩ := held
    obtain ⟨present, own⟩ := Books.mem_entriesOf.mp mem
    obtain ⟨old, was, -, same, values⟩ := state.rows row present
    obtain ⟨tag, listed, rfl⟩ := resolves other v
      ⟨old, Books.mem_entriesOf.mpr ⟨was, same.trans own⟩, values v has⟩
    refine ⟨tag, ?_, rfl, decide_eq_false fun gone => ?_⟩
    · rwa [Books.tagsOf, state.tags]
    · obtain ⟨chosen, among, key⟩ := List.mem_map.mp gone
      obtain ⟨present', here⟩ := Books.mem_tagsOf.mp (List.mem_of_mem_filter among)
      obtain ⟨present, own⟩ := Books.mem_tagsOf.mp listed
      obtain rfl := s.tags.eq_of_id_eq present' present key
      obtain rfl : book = other := here.symm.trans own
      rcases state.clean row mem with queued | free
      · cases queued
      · exact free _ gone has

/-- The other books have what they had. -/
structure Apart (book : Nat) (s t : Books) : Prop where
  tags : ∀ other, other ≠ book → t.tagsOf other = s.tagsOf other
  entries : ∀ other, other ≠ book → t.entriesOf other = s.entriesOf other

theorem Apart.trans {a b c : Books} (h : Apart book a b) (h' : Apart book b c) : Apart book a c :=
  ⟨fun other away => (h'.tags other away).trans (h.tags other away),
    fun other away => (h'.entries other away).trans (h.entries other away)⟩

theorem Apart.resolves_iff (apart : Apart book s t) (resolves : s.Resolves) :
    t.Resolves ↔ ∀ v, t.Held book v → t.Names book v := by
  constructor
  · exact fun after v held => after book v held
  · intro own other v held
    by_cases here : other = book
    · subst here
      exact own v held
    · obtain ⟨entry, mem, has⟩ := held
      rw [apart.entries other here] at mem
      obtain ⟨tag, listed, rfl⟩ := resolves other v ⟨entry, mem, has⟩
      exact ⟨tag, (apart.tags other here).symm ▸ listed, rfl⟩

theorem apart_deleteTags (s : Books) (book : Nat) :
    Apart book s (s.deleteTags fun tag => tag.addressBookId = book) := by
  refine ⟨fun other away => ?_, fun _ _ => rfl⟩
  simp only [Books.tagsOf, Books.deleteTags, Table.delete, List.filter_filter]
  refine List.filter_congr fun tag _ => ?_
  by_cases own : tag.addressBookId = other <;> simp [own, away]

theorem apart_deleteEntries (s : Books) (book : Nat) :
    Apart book s (s.deleteEntries fun entry => entry.addressBookId = book) := by
  refine ⟨fun _ _ => rfl, fun other away => ?_⟩
  simp only [Books.entriesOf, Books.deleteEntries, Table.delete, List.filter_filter]
  refine List.filter_congr fun entry _ => ?_
  by_cases own : entry.addressBookId = other <;> simp [own, away]

theorem apart_createTag {name : String} {color : Int} {id : Nat}
    (created : s.createTag book name color = some (t, id)) : Apart book s t := by
  obtain ⟨-, -, tags, entries, -⟩ := Books.createTag_eq_some_iff.mp created
  refine ⟨fun other away => ?_, fun other _ => by rw [Books.entriesOf, Books.entriesOf, entries]⟩
  simp [Books.tagsOf, tags, Table.insert, Ne.symm away]

theorem apart_createEntry {make : Nat → AddressBookEntry} {given : ∀ id, Row.id (make id) = id}
    (created : s.createEntry make given = some t)
    (own : (make s.entries.nextId).addressBookId = book) : Apart book s t := by
  obtain ⟨-, entries, tags, -⟩ := Books.createEntry_eq_some_iff.mp created
  refine ⟨fun other _ => by rw [Books.tagsOf, Books.tagsOf, tags], fun other away => ?_⟩
  simp [Books.entriesOf, entries, Table.insert, own, Ne.symm away]

theorem apart_replaceBook (s : Books) (book : Nat) (payload : Payload) :
    Apart book s (replaceBook s book payload).1 := by
  have tagged : Apart book s (Runs.foreach (pushTag book payload.colors)
      (s.deleteTags fun tag => tag.addressBookId = book, ∅) payload.names).1.1 := by
    refine Runs.foreach_invariant (I := fun state : Books × Arr Key Nat => Apart book s state.1) ?_ _ _
      (apart_deleteTags s book)
    intro state name next before stepped
    obtain ⟨text, key, -, -, created, -⟩ := pushTag_eq_some_iff.mp stepped
    exact before.trans (apart_createTag created)
  simp only [replaceBook, foreach_pushPeer]
  split
  · exact tagged
  · refine Runs.foreach_invariant (fun state peer next before stepped => ?_) _ _
      (tagged.trans (apart_deleteEntries _ book))
    obtain ⟨-, created⟩ := pushKept_eq_some_iff.mp stepped
    exact before.trans (apart_createEntry created rfl)

/-- The ids of a pushed entry are ids that the tag loop gave. -/
theorem names_of_entryRow {colors : Json} {start id : Nat} {names : List Json} {found : Arr Key Nat}
    {peer : List (Key × Json)} {v : Json} (looked : ∀ key, found.get? key = idOf start names key)
    (tags : s.tagsOf book = Table.numbered (tagRow book colors) start names)
    (has : v ∈ (entryRow book found peer id).tagIds.getD []) : s.Names book v := by
  obtain ⟨tagId, mem, rfl⟩ := List.mem_map.mp has
  obtain ⟨name, -, keyed'⟩ := List.mem_filterMap.mp (List.mem_of_mem_filter mem)
  obtain ⟨key, -, got⟩ := Option.bind_eq_some_iff.mp keyed'
  rw [looked, idOf] at got
  obtain ⟨⟨given, last⟩, stored, rfl⟩ := Option.map_eq_some_iff.mp got
  refine ⟨tagRow book colors given last, ?_, rfl⟩
  rw [tags]
  exact List.mem_of_find?_eq_some (find?_numbered (mem_zipIdx_of_keyed stored))

/-- A push that cannot create its tags leaves the entries with the ids of the deleted ones. -/
theorem resolves_replaceBook_iff (book : Nat) (payload : Payload) (resolves : s.Resolves) :
    (replaceBook s book payload).1.Resolves ↔
      Creatable [] payload.names ∨ ∀ v, ¬ s.Held book v := by
  rw [(apart_replaceBook s book payload).resolves_iff resolves]
  have pushed := replaceBook_pushed s book payload
  generalize replaceBook s book payload = after at pushed
  cases pushed with
  | replaced s' state =>
      refine iff_of_true (fun v held => ?_) (.inl state.creatable)
      obtain ⟨found, looked, entries⟩ := state.ids
      obtain ⟨entry, mem, has⟩ := held
      rw [entries] at mem
      obtain ⟨peer, -, id, -, rfl⟩ := Table.mem_numbered mem
      exact names_of_entryRow looked state.tags has
  | entryThrew s' found before peer rest split creatable refused made castable looked tags entries =>
      refine iff_of_true (fun v held => ?_) (.inl creatable)
      obtain ⟨entry, mem, has⟩ := held
      rw [entries] at mem
      obtain ⟨peer, -, id, -, rfl⟩ := Table.mem_numbered mem
      exact names_of_entryRow looked tags has
  | tagThrew s' before name rest split refused made scalar tags entries =>
      rw [or_iff_right refused]
      refine forall_congr' fun v => ?_
      rw [Books.held_of_eq entries]
      refine ⟨fun named held => ?_, fun free held => absurd held free⟩
      obtain ⟨tag, listed, rfl⟩ := resolves book v held
      obtain ⟨fresh, mem, same⟩ := named held
      rw [tags] at mem
      obtain ⟨name, -, id, above, rfl⟩ := Table.mem_numbered mem
      have below : tag.id < s.tags.nextId := s.tags.below tag (Books.mem_tagsOf.mp listed).1
      have ids : tag.id = id := Int.natCast_inj.mp (Json.int.inj same)
      omega

theorem resolves_legacyPush_iff (json : JsonText) (user : User) (data : Json) (resolves : s.Resolves) :
    (legacyPush json s user data).1.Resolves ↔ ∀ payload, decodeBody json data = .payload payload →
      Creatable [] payload.names ∨ ∀ v, ¬ s.Held (s.personalFor user).2 v := by
  have made : (s.personalFor user).1.Resolves :=
    (Books.Grows.of_eq (Books.personalFor_tags s user) (Books.personalFor_entries s user)).resolves
      resolves
  have held (v : Json) : (s.personalFor user).1.Held (s.personalFor user).2 v ↔
      s.Held (s.personalFor user).2 v := Books.held_of_eq (Books.personalFor_entries s user)
  rw [legacyPush]
  cases decodeBody json data with
  | malformed => exact iff_of_true made fun _ other => Body.noConfusion other
  | thrown => exact iff_of_true made fun _ other => Body.noConfusion other
  | payload payload =>
      have replaced := resolves_replaceBook_iff (s.personalFor user).2 payload made
      simp only [held] at replaced
      constructor
      · intro after other same
        obtain rfl := Body.payload.inj same
        exact replaced.mp after
      · exact fun condition => replaced.mpr (condition payload rfl)

end AddressBookController

end CortenDesk
