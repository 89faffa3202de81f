import CortenDesk.AddressBook.TagRemoval

/-!
What the clients' deletes by name do to the tables. `array_filter` without a callback drops the
names that count as false, so a tag or an entry that is named "0" stays; and the strip of the
entries throws at a tag id that is no scalar, before the tags are deleted.
-/
namespace CortenDesk
open Php
open AddressBookRule (permFull)

namespace AddressBookController
variable {s t t' : Books} {user : User} {book : Nat} {ids : List Nat} {names : List String}

/-- The value is none of the ids, as `array_diff` compares. -/
def keptBy (ids : List Nat) (v : Json) : Bool := v.toText.all fun text => text ∉ ids.map toString

def strippedEntry (ids : List Nat) (entry : AddressBookEntry) : AddressBookEntry :=
  { entry with tagIds := entry.tagIds.map (List.filter (keptBy ids)) }

def Scalars (entry : AddressBookEntry) : Prop := ∀ v ∈ entry.tagIds.getD [], v.toText.isSome

/-- The tags of the book with a listed name are gone and so are the references to them; the
other tags, entries and references are what and where they were. -/
structure TagsDeleted (book : Nat) (names : List String) (s s' : Books) : Prop where
  tags : s'.tags.rows =
    s.tags.rows.filter fun tag => ! (tag.addressBookId = book && decide (tag.name ∈ names))
  entries : s'.entries.rows = s.entries.rows.map fun entry =>
    if entry.addressBookId = book then
      strippedEntry (((s.tagsOf book).filter fun tag => tag.name ∈ names).map Tag.id) entry
    else entry
  system : s'.system = s.system

/-- The entries of the book with a listed id are gone, and nothing else. -/
structure PeersDeleted (book : Nat) (ids : List String) (s s' : Books) : Prop where
  entries : s'.entries.rows = s.entries.rows.filter fun entry =>
    ! (entry.addressBookId = book && decide (entry.rustdeskId ∈ ids))
  tags : s'.tags = s.tags
  system : s'.system = s.system

theorem TagsDeleted.gone {s' : Books} (deleted : TagsDeleted book names s s') :
    ∀ tag ∈ s'.tagsOf book, tag.name ∉ names := by
  intro tag mem listed
  obtain ⟨present, here⟩ := Books.mem_tagsOf.mp mem
  rw [deleted.tags] at present
  have kept := (List.mem_filter.mp present).2
  simp [here, listed] at kept

/-- The listed names among the tags are names that count as true, and where there is one the
tag ids of the book's entries are scalars. -/
def TagsDeletable (s : Books) (book : Nat) (names : List String) : Prop :=
  (∀ tag ∈ s.tagsOf book, tag.name ∈ names → truthy tag.name) ∧
    ((∃ tag ∈ s.tagsOf book, tag.name ∈ names) → ∀ entry ∈ s.entriesOf book, Scalars entry)

def PeersDeletable (s : Books) (book : Nat) (ids : List String) : Prop :=
  ∀ entry ∈ s.entriesOf book, entry.rustdeskId ∈ ids → truthy entry.rustdeskId

/-- The tags that a call finds by their names. -/
def foundIds (s : Books) (book : Nat) (names : List String) : List Nat :=
  ((s.tagsOf book).filter fun tag => truthy tag.name && decide (tag.name ∈ names)).map Tag.id

section Strip

theorem diffIds_eq {values : List Json} (scalars : ∀ v ∈ values, v.toText.isSome) (ids : List Nat) :
    diffIds values ids = some (values.filter (keptBy ids)) := by
  obtain ⟨texts, done, rfl, told⟩ := texts_of_scalars scalars
  rw [diffIds, done, Option.map_some, List.filter_map]
  congr 2
  refine List.filter_congr fun value mem => ?_
  rw [Function.comp_apply, keptBy, told value mem]
  rfl

theorem scalars_of_diffIds {values kept : List Json} (done : diffIds values ids = some kept) :
    ∀ v ∈ values, v.toText.isSome := by
  obtain ⟨texts, mapped, -⟩ := Option.map_eq_some_iff.mp done
  clear done
  induction values generalizing texts with
  | nil =>
      intro v mem
      cases mem
  | cons v values ih =>
      rw [List.mapM_cons] at mapped
      obtain ⟨first, read, mapped⟩ := Option.bind_eq_some_iff.mp mapped
      obtain ⟨rest, later, _⟩ := Option.bind_eq_some_iff.mp mapped
      obtain ⟨text, spelt, _⟩ := Option.map_eq_some_iff.mp read
      intro w mem
      obtain rfl | mem := List.mem_cons.mp mem
      · rw [spelt]
        rfl
      · exact ih rest later w mem

theorem strippedEntry_eq_self {entry : AddressBookEntry}
    (same : ((entry.tagIds.getD []).filter (keptBy ids)).length = (entry.tagIds.getD []).length) :
    strippedEntry ids entry = entry := by
  have whole := List.filter_sublist.eq_of_length same
  cases stored : entry.tagIds with
  | none => rw [strippedEntry, stored, Option.map_none, ← stored]
  | some values =>
      rw [stored] at whole
      have whole : values.filter (keptBy ids) = values := whole
      rw [strippedEntry, stored, Option.map_some, whole, ← stored]

variable (ids) in
/-- One entry of the tables is stripped. -/
theorem stripTags_eq {entry : AddressBookEntry} (mem : entry ∈ t.entries.rows)
    (scalars : Scalars entry) : ∃ t', stripTags ids t entry = some t' ∧ t'.tags = t.tags ∧
      t'.system = t.system ∧ t'.entries.rows = t.entries.rows.map fun row =>
        if row.id = entry.id then strippedEntry ids row else row := by
  rw [stripTags, diffIds_eq scalars, Option.map_some]
  refine ⟨_, rfl, ?_⟩
  have only {row : AddressBookEntry} (there : row ∈ t.entries.rows) (same : row.id = entry.id) :
      row = entry := t.entries.eq_of_id_eq there mem same
  split
  · next same =>
    refine ⟨rfl, rfl, ?_⟩
    conv_lhs => rw [← List.map_id t.entries.rows]
    refine List.map_congr_left fun row there => ?_
    split
    · next own => rw [only there own, strippedEntry_eq_self same, id]
    · rfl
  · next shorter =>
    refine ⟨rfl, rfl, List.map_congr_left fun row there => ?_⟩
    by_cases own : row.id = entry.id
    · rw [if_pos own, if_pos (decide_eq_true own), only there own]
      cases stored : entry.tagIds with
      | none => simp [stored] at shorter
      | some values => rw [strippedEntry, stored]; rfl
    · rw [if_neg own, if_neg (by simpa using own)]

variable (ids) in
/-- The loop strips the entries it is given. -/
theorem foreach_stripTags (rest : List AddressBookEntry) (t : Books)
    (within : ∀ entry ∈ rest, entry ∈ t.entries.rows)
    (distinct : (rest.map AddressBookEntry.id).Nodup) (scalars : ∀ entry ∈ rest, Scalars entry) :
    ∃ t', Runs.foreach (stripTags ids) t rest = (t', true) ∧ t'.tags = t.tags ∧
      t'.system = t.system ∧ t'.entries.rows = t.entries.rows.map fun row =>
        if row.id ∈ rest.map AddressBookEntry.id then strippedEntry ids row else row := by
  induction rest generalizing t with
  | nil =>
      refine ⟨t, rfl, rfl, rfl, ?_⟩
      conv_lhs => rw [← List.map_id t.entries.rows]
      exact List.map_congr_left fun row _ => (if_neg List.not_mem_nil).symm
  | cons entry rest ih =>
      obtain ⟨next, stepped, tags, system, rows⟩ := stripTags_eq ids
        (within entry List.mem_cons_self) (scalars entry List.mem_cons_self)
      rw [List.map_cons, List.nodup_cons] at distinct
      have still (other : AddressBookEntry) (later : other ∈ rest) : other ∈ next.entries.rows := by
        rw [rows]
        refine List.mem_map.mpr ⟨other, within other (List.mem_cons_of_mem entry later), if_neg ?_⟩
        intro same
        exact distinct.1 (same ▸ List.mem_map_of_mem later)
      obtain ⟨final, ran, tags', system', rows'⟩ := ih next still distinct.2
        fun other later => scalars other (List.mem_cons_of_mem entry later)
      rw [Runs.foreach, stepped]
      refine ⟨final, ran, tags'.trans tags, system'.trans system, ?_⟩
      rw [rows', rows, List.map_map]
      refine List.map_congr_left fun row _ => ?_
      rw [Function.comp_apply]
      by_cases here : row.id = entry.id
      · rw [if_pos here, List.map_cons, here, if_pos List.mem_cons_self]
        exact if_neg (by rw [show (strippedEntry ids row).id = entry.id from here]; exact distinct.1)
      · simp only [List.map_cons, List.mem_cons, here, false_or, if_false]

theorem foreach_stripTags_tags (rest : List AddressBookEntry) (t : Books) :
    (Runs.foreach (stripTags ids) t rest).1.tags = t.tags := by
  refine Runs.foreach_invariant (I := fun state => state.tags = t.tags) ?_ t rest rfl
  intro state entry next same stepped
  obtain ⟨kept, _, rfl⟩ := Option.map_eq_some_iff.mp stepped
  split
  · exact same
  · exact same

/-- A loop that goes through met scalars only. -/
theorem scalars_of_foreach {rest : List AddressBookEntry} {t : Books}
    (went : (Runs.foreach (stripTags ids) t rest).2 = true) : ∀ entry ∈ rest, Scalars entry := by
  induction rest generalizing t with
  | nil =>
      intro entry mem
      cases mem
  | cons entry rest ih =>
      rw [Runs.foreach] at went
      cases stepped : stripTags ids t entry with
      | none =>
          rw [stepped] at went
          cases went
      | some next =>
          rw [stepped] at went
          obtain ⟨kept, done, _⟩ := Option.map_eq_some_iff.mp stepped
          intro other mem
          obtain rfl | mem := List.mem_cons.mp mem
          · exact scalars_of_diffIds done
          · exact ih went other mem

end Strip

section Deletes

theorem tagDelete_eq (s : Books) (user : User) (book : Nat) (names : List String) :
    tagDelete s user book names = (bookOrFail s user book permFull).map fun _ =>
      let (stripped, went) := Runs.foreach (stripTags (foundIds s book names)) s (s.entriesOf book)
      if foundIds s book names = [] then s
      else if ! went then stripped
      else stripped.deleteTags fun tag => decide (tag.id ∈ foundIds s book names) := by
  rw [Option.map_eq_bind]
  rfl

theorem entriesOf_nodup (s : Books) (book : Nat) :
    ((s.entriesOf book).map AddressBookEntry.id).Nodup :=
  s.entries.nodup.sublist (List.filter_sublist.map AddressBookEntry.id)

variable (names) in
theorem mem_foundIds {tag : Tag} (mem : tag ∈ s.tags.rows) : tag.id ∈ foundIds s book names ↔
    tag.addressBookId = book ∧ truthy tag.name ∧ tag.name ∈ names := by
  constructor
  · intro found
    obtain ⟨other, chosen, same⟩ := List.mem_map.mp found
    obtain ⟨listed, named⟩ := List.mem_filter.mp chosen
    obtain ⟨there, here⟩ := Books.mem_tagsOf.mp listed
    obtain rfl := s.tags.eq_of_id_eq there mem same
    rw [Bool.and_eq_true, decide_eq_true_eq] at named
    exact ⟨here, named⟩
  · rintro ⟨here, named, listed⟩
    refine List.mem_map_of_mem (List.mem_filter.mpr ⟨Books.mem_tagsOf.mpr ⟨mem, here⟩, ?_⟩)
    rw [Bool.and_eq_true, decide_eq_true_eq]
    exact ⟨named, listed⟩

/-- Where all listed names count as true they are the ones that are found. -/
theorem foundIds_of_deletable (deletable : TagsDeletable s book names) : foundIds s book names =
    ((s.tagsOf book).filter fun tag => tag.name ∈ names).map Tag.id := by
  refine congrArg (List.map Tag.id) (List.filter_congr fun tag mem => ?_)
  by_cases listed : tag.name ∈ names
  · rw [deletable.1 tag mem listed, Bool.true_and]
  · rw [decide_eq_false listed, Bool.and_false]

theorem foundIds_ne_nil_iff (deletable : ∀ tag ∈ s.tagsOf book, tag.name ∈ names → truthy tag.name) :
    foundIds s book names ≠ [] ↔ ∃ tag ∈ s.tagsOf book, tag.name ∈ names := by
  constructor
  · intro found
    obtain ⟨id, mem⟩ := List.exists_mem_of_ne_nil _ found
    obtain ⟨tag, chosen, _⟩ := List.mem_map.mp mem
    obtain ⟨listed, named⟩ := List.mem_filter.mp chosen
    rw [Bool.and_eq_true, decide_eq_true_eq] at named
    exact ⟨tag, listed, named.2⟩
  · rintro ⟨tag, listed, named⟩
    have found := (mem_foundIds names (Books.mem_tagsOf.mp listed).1).mpr
      ⟨(Books.mem_tagsOf.mp listed).2, deletable tag listed named, named⟩
    exact List.ne_nil_of_mem found

theorem filter_tags (deletable : TagsDeletable s book names) :
    (s.tags.rows.filter fun tag => ! decide (tag.id ∈ foundIds s book names)) =
      s.tags.rows.filter fun tag => ! (tag.addressBookId = book && decide (tag.name ∈ names)) := by
  refine List.filter_congr fun tag mem => congrArg (! ·) ?_
  rw [← Bool.decide_and, decide_eq_decide, mem_foundIds names mem]
  exact ⟨fun ⟨here, _, listed⟩ => ⟨here, listed⟩, fun ⟨here, listed⟩ =>
    ⟨here, deletable.1 tag (Books.mem_tagsOf.mpr ⟨mem, here⟩) listed, listed⟩⟩

theorem strippedEntry_nil (entry : AddressBookEntry) : strippedEntry [] entry = entry :=
  strippedEntry_eq_self (by
    rw [List.filter_eq_self.mpr fun v _ => by cases h : v.toText <;> simp [keptBy, h]])

/-- The stripped entries are those of the book. -/
theorem rows_stripped (ids : List Nat) :
    (s.entries.rows.map fun row =>
      if row.id ∈ (s.entriesOf book).map AddressBookEntry.id then strippedEntry ids row else row) =
      s.entries.rows.map fun entry =>
        if entry.addressBookId = book then strippedEntry ids entry else entry := by
  refine List.map_congr_left fun row mem => ?_
  by_cases here : row.addressBookId = book
  · rw [if_pos here, if_pos (List.mem_map_of_mem (Books.mem_entriesOf.mpr ⟨mem, here⟩))]
  · rw [if_neg here, if_neg]
    intro among
    obtain ⟨other, listed, same⟩ := List.mem_map.mp among
    obtain ⟨there, own⟩ := Books.mem_entriesOf.mp listed
    obtain rfl := s.entries.eq_of_id_eq there mem same
    exact here own

theorem tagsDeleted_iff (done : tagDelete s user book names = some t) :
    TagsDeleted book names s t ↔ TagsDeletable s book names := by
  rw [tagDelete_eq] at done
  obtain ⟨row, _, done⟩ := Option.map_eq_some_iff.mp done
  dsimp only at done
  constructor
  · intro deleted
    have gone {tag : Tag} (mem : tag ∈ s.tagsOf book) (listed : tag.name ∈ names) :
        tag ∉ t.tags.rows := fun there =>
      deleted.gone tag (Books.mem_tagsOf.mpr ⟨there, (Books.mem_tagsOf.mp mem).2⟩) listed
    constructor
    · intro tag mem listed
      by_contra blank
      apply gone mem listed
      have present := (Books.mem_tagsOf.mp mem).1
      have unfound : tag.id ∉ foundIds s book names := fun found =>
        blank ((mem_foundIds names present).mp found).2.1
      rw [← done]
      split
      · exact present
      · split
        · rwa [foreach_stripTags_tags]
        · refine Table.mem_delete.mpr ⟨?_, decide_eq_false unfound⟩
          rwa [foreach_stripTags_tags]
    · rintro ⟨tag, mem, listed⟩
      have present := (Books.mem_tagsOf.mp mem).1
      have left := gone mem listed
      rw [← done] at left
      split at left
      · exact absurd present left
      · split at left
        · rw [foreach_stripTags_tags] at left
          exact absurd present left
        · next went =>
          exact scalars_of_foreach (by simpa using went)
  · intro deletable
    have same := foundIds_of_deletable deletable
    split at done
    · next nothing =>
      obtain rfl := done
      refine ⟨?_, ?_, rfl⟩
      · rw [← filter_tags deletable, nothing]
        exact (List.filter_eq_self.mpr fun _ _ => rfl).symm
      · rw [← same, nothing]
        conv_lhs => rw [← List.map_id s.entries.rows]
        refine List.map_congr_left fun entry _ => ?_
        rw [strippedEntry_nil, ite_self, id]
    · next found =>
      obtain ⟨stripped, ran, tags, system, rows⟩ := foreach_stripTags (foundIds s book names)
        (s.entriesOf book) s (fun entry mem => (Books.mem_entriesOf.mp mem).1) (entriesOf_nodup s book)
        (deletable.2 ((foundIds_ne_nil_iff deletable.1).mp found))
      rw [ran] at done
      obtain rfl := done
      refine ⟨?_, ?_, system⟩
      · rw [← filter_tags deletable, ← tags]
        rfl
      · rw [← same, ← rows_stripped]
        exact rows

theorem peersDeleted_iff {rustdeskIds : List String}
    (done : peerDelete s user book rustdeskIds = some t) :
    PeersDeleted book rustdeskIds s t ↔ PeersDeletable s book rustdeskIds := by
  obtain ⟨row, _, done⟩ := Option.bind_eq_some_iff.mp done
  obtain rfl := Option.some.inj done
  constructor
  · intro deleted entry mem listed
    obtain ⟨present, here⟩ := Books.mem_entriesOf.mp mem
    by_contra blank
    have left : entry ∈ (s.deleteEntries fun entry => entry.addressBookId = book &&
        truthy entry.rustdeskId && decide (entry.rustdeskId ∈ rustdeskIds)).entries.rows :=
      Table.mem_delete.mpr ⟨present, by simp [blank]⟩
    rw [deleted.entries] at left
    have kept := (List.mem_filter.mp left).2
    simp [here, listed] at kept
  · intro deletable
    refine ⟨List.filter_congr fun entry mem => congrArg (! ·) ?_, rfl, rfl⟩
    dsimp only
    by_cases here : entry.addressBookId = book
    · by_cases listed : entry.rustdeskId ∈ rustdeskIds
      · rw [deletable entry (Books.mem_entriesOf.mpr ⟨mem, here⟩) listed, Bool.and_true]
      · rw [decide_eq_false listed, Bool.and_false, Bool.and_false]
    · rw [decide_eq_false here, Bool.false_and, Bool.false_and]

end Deletes

/-- A delete that is let through deletes what is named, and nothing else, exactly when no name of
what it would delete counts as false and, for tags, no id on the way throws. -/
theorem named_deletes (s t : Books) (user : User) (book : Nat) (names : List String) :
    (tagDelete s user book names = some t →
      (TagsDeleted book names s t ↔ TagsDeletable s book names)) ∧
    (peerDelete s user book names = some t →
      (PeersDeleted book names s t ↔ PeersDeletable s book names)) :=
  ⟨tagsDeleted_iff, peersDeleted_iff⟩

def owner : User := { id := 1, username := "ilse" }

/-- A book with a tag "0" and a tag "Line 2", a peer with both and a peer "0". -/
def line : Books where
  system.db := {
    users := Table.empty.insert fun id => { owner with id }
    addressBooks := Table.empty.insert fun id => { id, name := "Works", ownerUserId := some 1 } }
  tags := (Table.empty.insert fun id => { id, addressBookId := 1, name := "0", color := 0 }).insert
    fun id => { id, addressBookId := 1, name := "Line 2", color := 0 }
  entries := (Table.empty.insert fun id =>
    { id, addressBookId := 1, rustdeskId := "100200300", tagIds := some [.int 1, .int 2] }).insert
    fun id => { id, addressBookId := 1, rustdeskId := "0" }
  tagNames := by decide +kernel
  entryIds := by decide +kernel

theorem zero_kept : (∃ t, tagDelete line owner 1 ["0"] = some t ∧ ¬ TagsDeleted 1 ["0"] line t) ∧
    ∃ t, peerDelete line owner 1 ["0"] = some t ∧ ¬ PeersDeleted 1 ["0"] line t := by
  constructor
  · obtain ⟨t, done⟩ := Option.isSome_iff_exists.mp
      (show (tagDelete line owner 1 ["0"]).isSome by decide +kernel)
    refine ⟨t, done, fun deleted => ?_⟩
    have kept : (tagDelete line owner 1 ["0"]).any fun t => (t.tagsOf 1).any (·.name = "0") := by
      decide +kernel
    rw [done, Option.any_some, List.any_eq_true] at kept
    obtain ⟨tag, mem, named⟩ := kept
    exact deleted.gone tag mem (by rw [of_decide_eq_true named]; exact List.mem_cons_self)
  · obtain ⟨t, done⟩ := Option.isSome_iff_exists.mp
      (show (peerDelete line owner 1 ["0"]).isSome by decide +kernel)
    refine ⟨t, done, fun deleted => ?_⟩
    have kept : (peerDelete line owner 1 ["0"]).any fun t =>
        t.entries.rows.map (·.id) = [1, 2] := by
      decide +kernel
    rw [done, Option.any_some, deleted.entries] at kept
    exact absurd kept (by decide +kernel)

theorem named_deletes_line :
    (∃ t, tagDelete line owner 1 ["Line 2"] = some t ∧ TagsDeleted 1 ["Line 2"] line t) ∧
    ∃ t, peerDelete line owner 1 ["100200300"] = some t ∧
      PeersDeleted 1 ["100200300"] line t := by
  constructor
  · obtain ⟨t, done⟩ := Option.isSome_iff_exists.mp
      (show (tagDelete line owner 1 ["Line 2"]).isSome by decide +kernel)
    refine ⟨t, done, ((named_deletes line t owner 1 ["Line 2"]).1 done).mpr
      ⟨by decide +kernel, fun _ => ?_⟩⟩
    unfold Scalars
    decide +kernel
  · obtain ⟨t, done⟩ := Option.isSome_iff_exists.mp
      (show (peerDelete line owner 1 ["100200300"]).isSome by decide +kernel)
    refine ⟨t, done, ((named_deletes line t owner 1 ["100200300"]).2 done).mpr ?_⟩
    unfold PeersDeletable
    decide +kernel

end AddressBookController
end CortenDesk
