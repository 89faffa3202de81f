import CortenDesk.AddressBook.PushAtomicity

/-!
The pull and the push of the older clients as two ends of a codec. On the wire a peer names
its tags, in storage it holds their ids; a push of what a pull returned, or of a payload
that repeats nothing, is pulled again as the payload with its tags in declared order.
-/
namespace CortenDesk
open Php

namespace AddressBookController

/-- A payload of texts and integer colours. -/
structure TextPayload where
  tags : List String
  colors : Arr String Int
  peers : List Peer

namespace TextPayload

def wireTags (tags : List String) : Json := jsonList (tags.map Json.string)

def wirePeer (peer : Peer) : Json :=
  jsonObject [
    ("id", .string peer.id), ("username", .string peer.username),
    ("hostname", .string peer.hostname), ("platform", .string peer.platform),
    ("alias", .string peer.alias), ("tags", wireTags peer.tags), ("hash", .string peer.hash)]

def wireColors (p : TextPayload) : Json :=
  .array (p.colors.entries.map fun color => (Key.ofString color.1, .int color.2))

/-- The payload as it decodes, around the text of its colours. -/
def wire (p : TextPayload) (colorsText : String) : Json :=
  jsonObject [
    ("tags", wireTags p.tags), ("peers", jsonList (p.peers.map wirePeer)),
    ("tag_colors", .string colorsText)]

/-- A colour for each tag, and the tags of a peer among the declared ones, in their order;
a peer without an id is not kept. -/
def normalised (p : TextPayload) : TextPayload where
  tags := p.tags
  colors := OrderedMap.ofList (p.tags.map fun tag => (tag, (p.colors.get? tag).getD 0))
  peers := (p.peers.filter fun peer => peer.id ≠ "").map fun peer =>
    { peer with tags := p.tags.filter (· ∈ peer.tags) }

end TextPayload

section Keys

theorem ofString_tags : Key.ofString "tags" = .str "tags" := by decide +kernel

theorem ofString_peers : Key.ofString "peers" = .str "peers" := by decide +kernel

theorem ofString_colors : Key.ofString "tag_colors" = .str "tag_colors" := by decide +kernel

theorem ofString_fields : ∀ name ∈ ["id", "username", "hostname", "platform", "alias", "tags", "hash"],
    Key.ofString name = .str name := by decide +kernel

end Keys

theorem toList_jsonList (values : List Json) : (jsonList values).toList = values := by
  simp [jsonList, Json.toList, Function.comp_def]

theorem get_wire (p : TextPayload) (colorsText : String) : ∃ decoded,
    p.wire colorsText = .array decoded ∧
    Json.get decoded (.str "tags") (.array []) = TextPayload.wireTags p.tags ∧
    Json.get decoded (.str "peers") (.array []) = jsonList (p.peers.map TextPayload.wirePeer) ∧
    Json.get decoded (.str "tag_colors") (.string "") = .string colorsText := by
  refine ⟨_, rfl, ?_, ?_, ?_⟩ <;>
    simp [Json.get_cons, Json.orDefault, ofString_tags, ofString_peers, ofString_colors, jsonList,
      TextPayload.wireTags]

/-- Colours that are false in a condition are no colours. -/
theorem truthy_wireColors (p : TextPayload) :
    (if p.wireColors.truthy then p.wireColors else .array []) = p.wireColors := by
  rw [TextPayload.wireColors]
  cases p.colors.entries with
  | nil => rfl
  | cons color colors => rfl

/-- The payload that a text of it decodes to. -/
theorem decodeBody_wire {json : JsonText} {p : TextPayload} {text colorsText : String}
    (decoded : json.decode text = p.wire colorsText)
    (colors : json.decode colorsText = p.wireColors) :
    decodeBody json (.string text) = .payload {
      colors := p.wireColors
      names := p.tags.map Json.string
      peers := p.peers.map TextPayload.wirePeer } := by
  obtain ⟨fields, whole, tags, peers, colorsField⟩ := get_wire p colorsText
  simp only [decodeBody, Json.toText, decoded, whole, colorsField, colors, truthy_wireColors,
    tags, peers, TextPayload.wireTags, toList_jsonList]

section WirePeers

/-- The fields of a peer on the wire. -/
def wireFields (peer : Peer) : List (Key × Json) :=
  [(.str "id", .string peer.id), (.str "username", .string peer.username),
    (.str "hostname", .string peer.hostname), (.str "platform", .string peer.platform),
    (.str "alias", .string peer.alias), (.str "tags", TextPayload.wireTags peer.tags),
    (.str "hash", .string peer.hash)]

theorem wirePeer_eq (peer : Peer) : TextPayload.wirePeer peer = .array (wireFields peer) := by
  have key := ofString_fields
  simp only [List.forall_mem_cons] at key
  simp only [TextPayload.wirePeer, jsonObject, List.map_cons, List.map_nil, key, wireFields]

theorem keptPeer_wirePeer (peer : Peer) : keptPeer (TextPayload.wirePeer peer) =
    if peer.id = "" then none else some (wireFields peer) := by
  rw [wirePeer_eq]
  simp [keptPeer, field, Json.get_cons, Json.orDefault, wireFields, isBlank]

theorem peerTags_wireFields (peer : Peer) : peerTags (wireFields peer) = peer.tags.map Json.string := by
  have listed : Json.get (wireFields peer) (.str "tags") (.array []) = TextPayload.wireTags peer.tags := by
    simp [Json.get_cons, Json.orDefault, wireFields, TextPayload.wireTags, jsonList]
  rw [peerTags, listed, TextPayload.wireTags, toList_jsonList]

theorem field_wireFields (peer : Peer) :
    field (wireFields peer) "id" = .string peer.id ∧
    field (wireFields peer) "username" = .string peer.username ∧
    field (wireFields peer) "hostname" = .string peer.hostname ∧
    field (wireFields peer) "platform" = .string peer.platform ∧
    field (wireFields peer) "alias" = .string peer.alias ∧
    field (wireFields peer) "hash" = .string peer.hash := by
  simp [field, Json.get_cons, Json.orDefault, wireFields]

theorem castable_wireFields (peer : Peer) : Castable (wireFields peer) := by
  obtain ⟨id, username, hostname, platform, «alias», hash⟩ := field_wireFields peer
  constructor
  · simp [id, username, hostname, platform, «alias», hash, Json.toText]
  · intro tag mem
    rw [peerTags_wireFields] at mem
    obtain ⟨text, -, rfl⟩ := List.mem_map.mp mem
    rfl

end WirePeers

section Pushed
variable {p : TextPayload}

/-- What a push makes of the payload. -/
def TextPayload.pushed (p : TextPayload) : Payload where
  colors := p.wireColors
  names := p.tags.map Json.string
  peers := p.peers.map TextPayload.wirePeer

theorem texts_of_strings (texts : List String) :
    (texts.map Json.string).filterMap Json.toText = texts := by
  simp [List.filterMap_map, Function.comp_def, Json.toText]

theorem kept_pushed : p.pushed.kept = (p.peers.filter fun peer => peer.id ≠ "").map wireFields := by
  rw [Payload.kept, TextPayload.pushed, List.filterMap_map, ← List.filterMap_eq_map,
    List.filterMap_filter]
  refine List.filterMap_congr fun peer _ => ?_
  rw [Function.comp_apply, keptPeer_wirePeer]
  by_cases blank : peer.id = "" <;> simp [blank]

theorem creatable_pushed (tags : p.tags.Nodup) : Creatable [] p.pushed.names where
  scalars := by
    intro name mem
    obtain ⟨text, -, rfl⟩ := List.mem_map.mp mem
    rfl
  distinct := by
    rw [List.nil_append, TextPayload.pushed, texts_of_strings]
    exact tags

theorem enterable_pushed (ids : ((p.peers.filter fun peer => peer.id ≠ "").map Peer.id).Nodup) :
    Enterable [] p.pushed.kept where
  castable := by
    rw [kept_pushed]
    intro peer mem
    obtain ⟨text, -, rfl⟩ := List.mem_map.mp mem
    exact castable_wireFields text
  distinct := by
    have same (peer : Peer) : textOf (wireFields peer) "id" = peer.id := by
      rw [textOf, (field_wireFields peer).1]
      rfl
    rw [kept_pushed, List.nil_append, List.map_map]
    simpa only [Function.comp_def, same] using ids

/-- Such a payload always goes through. -/
theorem replaced_of_pushed (s : Books) (book : Nat) (tags : p.tags.Nodup)
    (ids : ((p.peers.filter fun peer => peer.id ≠ "").map Peer.id).Nodup) :
    ∃ s', replaceBook s book p.pushed = (s', .replaced) ∧ Replaced s s' book p.pushed := by
  cases after : replaceBook s book p.pushed with
  | mk s' ending =>
  have pushed := replaceBook_pushed s book p.pushed
  rw [after] at pushed
  cases pushed with
  | replaced _ state => exact ⟨s', rfl, state⟩
  | tagThrew _ _ _ _ _ refused => exact absurd (creatable_pushed tags) refused
  | entryThrew _ _ _ _ _ _ _ refused => exact absurd (enterable_pushed ids) refused

end Pushed

theorem mem_of_mem_zipIdx {α : Type} {l : List α} {start id : Nat} {a : α}
    (mem : (a, id) ∈ l.zipIdx start) : a ∈ l := by
  have first := List.mem_map_of_mem (f := Prod.fst) mem
  rwa [List.zipIdx_map_fst] at first

/-- Among names that do not repeat, the one of a key is the one of its text. -/
theorem idOf_strings {texts : List String} (distinct : texts.Nodup) (start id : Nat) (text : String) :
    idOf start (texts.map Json.string) (Key.ofString text) = some id ↔
      (text, id) ∈ texts.zipIdx start := by
  induction texts generalizing start id with
  | nil => simp [idOf_nil]
  | cons first texts ih =>
      obtain ⟨absent, rest⟩ := List.nodup_cons.mp distinct
      rw [List.map_cons, idOf_cons, List.zipIdx_cons, List.mem_cons, Option.or_eq_some_iff,
        ih rest]
      by_cases same : first = text
      · have missing : idOf (start + 1) (texts.map Json.string) (Key.ofString text) = none := by
          rw [Option.eq_none_iff_forall_ne_some]
          intro other found
          exact absent (same ▸ mem_of_mem_zipIdx ((ih rest (start + 1) other).mp found))
        simp [missing, same, Json.toKey, or_comm, eq_comm]
      · have apart : ¬ Key.ofString first = Key.ofString text := fun keys =>
          same (Key.ofString_injective keys)
        simp [Json.toKey, apart, Ne.symm same]

theorem any_looseEq (ids : List Nat) (id : Nat) :
    ((ids.map fun id : Nat => Json.int id).any (Json.looseEq id)) = decide (id ∈ ids) := by
  rw [List.any_map, Bool.eq_iff_iff, List.any_eq_true, decide_eq_true_eq]
  simp only [Function.comp_apply, Json.looseEq_int, decide_eq_true_eq, Int.natCast_inj,
    exists_eq_right]

/-- An entry that was pushed has the declared tags that its peer names. -/
theorem entryTags_pushed {texts : List String} (distinct : texts.Nodup) (book : Nat) (colors : Json)
    {start : Nat} (positive : 0 < start) {ids : Arr Key Nat}
    (looked : ∀ key, ids.get? key = idOf start (texts.map Json.string) key) (peer : Peer) (id : Nat) :
    (entryTags (Table.numbered (tagRow book colors) start (texts.map Json.string))
      (entryRow book ids (wireFields peer) id)).map Tag.name = texts.filter (· ∈ peer.tags) := by
  have listed (other : Nat) : other ∈ (castPeer ids (wireFields peer)).tagIds ↔
      ∃ text ∈ peer.tags, (text, other) ∈ texts.zipIdx start := by
    simp only [castPeer, peerTags_wireFields, List.mem_filter, List.mem_filterMap, List.mem_map,
      exists_exists_and_eq_and, Json.toKey, Option.bind_some, looked, idOf_strings distinct,
      decide_eq_true_eq]
    constructor
    · rintro ⟨⟨text, mem, at'⟩, -⟩
      exact ⟨text, mem, at'⟩
    · rintro ⟨text, mem, at'⟩
      have above : start ≤ other := (List.mem_zipIdx at').1
      exact ⟨⟨text, mem, at'⟩, by omega⟩
  have chosen : ∀ pair ∈ texts.zipIdx start,
      pair.2 ∈ (castPeer ids (wireFields peer)).tagIds ↔ pair.1 ∈ peer.tags := by
    rintro ⟨text, other⟩ mem
    rw [listed]
    constructor
    · rintro ⟨named, tagged, at'⟩
      have first := (List.mem_zipIdx mem).2.2
      have second := (List.mem_zipIdx at').2.2
      simp only at first second
      rw [first, ← second]
      exact tagged
    · exact fun tagged => ⟨text, tagged, mem⟩
  calc (entryTags (Table.numbered (tagRow book colors) start (texts.map Json.string))
          (entryRow book ids (wireFields peer) id)).map Tag.name
      = ((texts.zipIdx start).filter fun pair =>
          decide (pair.2 ∈ (castPeer ids (wireFields peer)).tagIds)).map Prod.fst := by
        rw [entryTags, Table.numbered, List.zipIdx_map, List.map_map, List.filter_map, List.map_map]
        simp only [entryRow, PushedPeer.row, Option.getD_some, any_looseEq]
        rfl
    _ = ((texts.zipIdx start).filter fun pair => decide (pair.1 ∈ peer.tags)).map Prod.fst := by
        congr 1
        exact List.filter_congr fun pair mem => decide_eq_decide.mpr (chosen pair mem)
    _ = texts.filter (· ∈ peer.tags) := by
        rw [← List.zipIdx_map_fst start texts, List.filter_map]
        simp only [List.zipIdx_map_fst]
        rfl

theorem lookup_colors (colors : List (String × Int)) (text : String) :
    (colors.map fun color => (Key.ofString color.1, Json.int color.2)).lookup (Key.ofString text) =
      (colors.lookup text).map Json.int := by
  induction colors with
  | nil => rfl
  | cons color colors ih =>
      rw [List.map_cons, List.lookup_cons, List.lookup_cons, ih]
      by_cases same : text = color.1
      · simp [same]
      · have apart : ¬ Key.ofString text = Key.ofString color.1 := fun keys =>
          same (Key.ofString_injective keys)
        simp [beq_false_of_ne same, beq_false_of_ne apart]

theorem colorOf_wireColors (p : TextPayload) (text : String) :
    colorOf p.wireColors (.string text) = (p.colors.get? text).getD 0 := by
  have found := lookup_colors p.colors.entries text
  rw [OrderedMap.get?]
  simp only [colorOf, TextPayload.wireColors, Json.toKey, Option.map_some, Option.getD_some,
    Json.get, found]
  cases p.colors.entries.lookup text <;> rfl

/-- The colours of tags whose names do not repeat. -/
theorem legacyColors_eq {tags : List Tag} (distinct : (tags.map Tag.name).Nodup) :
    legacyColors tags = .array (tags.map fun tag => (Key.ofString tag.name, .int tag.color)) := by
  rw [legacyColors, OrderedMap.entries_ofList]
  rw [List.map_map]
  have keys : (tags.map Tag.name).map Key.ofString = tags.map (Prod.fst ∘ fun tag : Tag =>
      (Key.ofString tag.name, Json.int tag.color)) := by
    rw [List.map_map]
    rfl
  rw [← keys]
  exact distinct.map Key.ofString_injective

theorem wireColors_normalised {p : TextPayload} (distinct : p.tags.Nodup) :
    p.normalised.wireColors =
      .array (p.tags.map fun tag => (Key.ofString tag, .int ((p.colors.get? tag).getD 0))) := by
  rw [TextPayload.wireColors, TextPayload.normalised, OrderedMap.entries_ofList, List.map_map]
  · rfl
  · rw [List.map_map]
    simpa [Function.comp_def] using distinct

/-- A pushed entry is pulled as its peer, with the declared tags it names. -/
theorem legacyPeer_pushed {p : TextPayload} (distinct : p.tags.Nodup) (book : Nat) {start : Nat}
    (positive : 0 < start) {ids : Arr Key Nat}
    (looked : ∀ key, ids.get? key = idOf start p.pushed.names key) (peer : Peer) (id : Nat) :
    legacyPeer (Table.numbered (tagRow book p.wireColors) start p.pushed.names)
      (entryRow book ids (wireFields peer) id) =
      TextPayload.wirePeer { peer with tags := p.tags.filter (· ∈ peer.tags) } := by
  have tagged := entryTags_pushed distinct book p.wireColors positive looked peer id
  have named : ((entryTags (Table.numbered (tagRow book p.wireColors) start p.pushed.names)
      (entryRow book ids (wireFields peer) id)).map fun tag => Json.string tag.name) =
      (p.tags.filter (· ∈ peer.tags)).map Json.string := by
    rw [← tagged, List.map_map]
    rfl
  obtain ⟨rustdeskId, username, hostname, platform, «alias», hash⟩ := field_wireFields peer
  rw [legacyPeer, named]
  simp only [entryRow, PushedPeer.row, castPeer, textOf, rustdeskId, username, hostname, platform,
    «alias», hash, Json.toText, Option.getD_some, TextPayload.wirePeer, TextPayload.wireTags]

/-- What is pulled after a push of the payload. -/
theorem legacyPayload_replaced (json : JsonText) {s s' : Books} {book : Nat} {p : TextPayload}
    (distinct : p.tags.Nodup) (state : Replaced s s' book p.pushed) :
    legacyPayload json (s'.tagsOf book) (s'.entriesOf book) =
      p.normalised.wire (json.encode p.normalised.wireColors) := by
  obtain ⟨ids, looked, entries⟩ := state.ids
  have named (name : Json) (id : Nat) :
      (tagRow book p.pushed.colors name id).name = name.toText.getD "" := rfl
  have colored (name : Json) (id : Nat) :
      (Key.ofString (tagRow book p.pushed.colors name id).name,
        Json.int (tagRow book p.pushed.colors name id).color) =
      (Key.ofString (name.toText.getD ""), Json.int (colorOf p.pushed.colors name)) := rfl
  have tags : (s'.tagsOf book).map Tag.name = p.tags := by
    rw [state.tags, Table.map_numbered named, TextPayload.pushed, List.map_map]
    exact List.map_id _
  have colors : legacyColors (s'.tagsOf book) = p.normalised.wireColors := by
    rw [legacyColors_eq (tags ▸ distinct), wireColors_normalised distinct, state.tags,
      Table.map_numbered colored, TextPayload.pushed, List.map_map]
    simp only [Function.comp_def, Json.toText, Option.getD_some, colorOf_wireColors]
  have peers : (s'.entriesOf book).map (legacyPeer (s'.tagsOf book)) =
      p.normalised.peers.map TextPayload.wirePeer := by
    have entered (fields : List (Key × Json)) (id : Nat) :
        legacyPeer (s'.tagsOf book) (entryRow book ids fields id) =
          legacyPeer (s'.tagsOf book) (entryRow book ids fields 0) := rfl
    rw [entries, Table.map_numbered entered, kept_pushed, List.map_map, TextPayload.normalised,
      List.map_map]
    refine List.map_congr_left fun peer _ => ?_
    rw [Function.comp_apply, state.tags]
    exact legacyPeer_pushed distinct book s.tags.positive.1 looked peer 0
  have strings : ((s'.tagsOf book).map fun tag => Json.string tag.name) = p.tags.map Json.string := by
    rw [← tags, List.map_map]
    rfl
  rw [legacyPayload, strings, peers, colors]
  rfl

/-- The book of an account that has one stays its book while the system stays. -/
theorem personalFor_again {s s' : Books} {user : User}
    (system : s'.system = (s.personalFor user).1.system) :
    s'.personalFor user = (s', (s.personalFor user).2) := by
  have found : (s'.system.db.addressBooks.rows.find? fun book =>
      book.ownerUserId = some user.id && book.isPersonal).map AddressBook.id =
        some (s.personalFor user).2 := by
    rw [system, Books.personalFor]
    split
    · next book is => rw [is]; rfl
    · next none =>
      simp [Table.insert, List.find?_append, none]
  rw [Books.personalFor]
  split
  · next book is =>
    rw [is] at found
    rw [← Option.some.inj found]
  · next none =>
    rw [none] at found
    cases found

/-- A push of a text of the payload goes through, and the next pull returns the payload
normalised. -/
theorem get_push (json : JsonText) (s : Books) (user : User) {p : TextPayload}
    {text colorsText : String} (tags : p.tags.Nodup)
    (ids : ((p.peers.filter fun peer => peer.id ≠ "").map Peer.id).Nodup)
    (decoded : json.decode text = p.wire colorsText)
    (colors : json.decode colorsText = p.wireColors) :
    (legacyPush json s user (.string text)).2 = .replaced ∧
    (legacyGet json (legacyPush json s user (.string text)).1 user).2 =
      json.encode (p.normalised.wire (json.encode p.normalised.wireColors)) := by
  obtain ⟨s', after, state⟩ :=
    replaced_of_pushed (s.personalFor user).1 (s.personalFor user).2 tags ids
  have push : legacyPush json s user (.string text) = (s', .replaced) := by
    rw [← after]
    simp only [legacyPush, decodeBody_wire decoded colors]
    rfl
  rw [push]
  refine ⟨rfl, ?_⟩
  rw [legacyGet, personalFor_again state.system]
  dsimp only
  rw [legacyPayload_replaced json tags state]

/-- A stored entry, and a stored book, in the words of a payload. -/
def pulledPeer (tags : List Tag) (entry : AddressBookEntry) : Peer where
  id := entry.rustdeskId
  username := entry.username.getD ""
  hostname := entry.hostname.getD ""
  platform := entry.platform.getD ""
  «alias» := entry.alias.getD ""
  hash := entry.hash.getD ""
  tags := (entryTags tags entry).map Tag.name

def bookPayload (tags : List Tag) (entries : List AddressBookEntry) : TextPayload where
  tags := tags.map Tag.name
  colors := OrderedMap.ofList (tags.map fun tag => (tag.name, tag.color))
  peers := entries.map (pulledPeer tags)

theorem legacyPeer_eq (tags : List Tag) (entry : AddressBookEntry) :
    legacyPeer tags entry = TextPayload.wirePeer (pulledPeer tags entry) := by
  rw [legacyPeer, TextPayload.wirePeer, TextPayload.wireTags, pulledPeer, List.map_map]
  rfl

theorem legacyPayload_eq (json : JsonText) (tags : List Tag) (entries : List AddressBookEntry) :
    legacyPayload json tags entries =
      (bookPayload tags entries).wire (json.encode (legacyColors tags)) := by
  rw [legacyPayload, TextPayload.wire, bookPayload, TextPayload.wireTags, List.map_map, List.map_map,
    funext (legacyPeer_eq tags)]
  rfl

theorem wireColors_bookPayload {tags : List Tag} (distinct : (tags.map Tag.name).Nodup)
    (entries : List AddressBookEntry) :
    (bookPayload tags entries).wireColors = legacyColors tags := by
  rw [legacyColors_eq distinct, TextPayload.wireColors, bookPayload, OrderedMap.entries_ofList, List.map_map]
  · rfl
  · rw [List.map_map]
    exact distinct

theorem names_entryTags {tags : List Tag} (distinct : (tags.map Tag.name).Nodup)
    (entry : AddressBookEntry) :
    (tags.map Tag.name).filter (· ∈ (entryTags tags entry).map Tag.name) =
      (entryTags tags entry).map Tag.name := by
  rw [List.filter_map]
  congr 1
  refine List.filter_congr fun tag mem => ?_
  rw [Function.comp_apply, Bool.eq_iff_iff, decide_eq_true_eq, List.mem_map]
  constructor
  · rintro ⟨other, listed, same⟩
    obtain ⟨present, chosen⟩ := List.mem_filter.mp listed
    rwa [List.inj_on_of_nodup_map distinct present mem same] at chosen
  · exact fun chosen => ⟨tag, List.mem_filter.mpr ⟨mem, chosen⟩, rfl⟩

/-- A stored book is normal, but for its entries without an id. -/
theorem normalised_bookPayload {tags : List Tag} (distinct : (tags.map Tag.name).Nodup)
    (entries : List AddressBookEntry) : (bookPayload tags entries).normalised =
      bookPayload tags (entries.filter fun entry => entry.rustdeskId ≠ "") := by
  have keys : ((tags.map fun tag => (tag.name, tag.color)).map Prod.fst).Nodup := by
    rw [List.map_map]
    exact distinct
  have colors : ((tags.map Tag.name).map fun name =>
      (name, ((bookPayload tags entries).colors.get? name).getD 0)) =
        tags.map fun tag => (tag.name, tag.color) := by
    rw [List.map_map]
    refine List.map_congr_left fun tag mem => ?_
    have found : (bookPayload tags entries).colors.get? tag.name = some tag.color := by
      rw [OrderedMap.get?_eq_some_iff, bookPayload, OrderedMap.entries_ofList _ keys]
      exact List.mem_map_of_mem (f := fun tag : Tag => (tag.name, tag.color)) mem
    rw [Function.comp_apply, found]
    rfl
  have peers : (bookPayload tags entries).normalised.peers =
      (bookPayload tags (entries.filter fun entry => entry.rustdeskId ≠ "")).peers := by
    change ((entries.map (pulledPeer tags)).filter fun peer => peer.id ≠ "").map (fun peer =>
      { peer with tags := (tags.map Tag.name).filter (· ∈ peer.tags) }) = _
    rw [List.filter_map, List.map_map]
    refine List.map_congr_left fun entry _ => ?_
    rw [Function.comp_apply, pulledPeer, names_entryTags distinct]
  rw [TextPayload.normalised, TextPayload.mk.injEq]
  exact ⟨rfl, congrArg OrderedMap.ofList colors, peers⟩

/-- A push of what a pull returned. -/
theorem get_push_get (json : JsonText) (s : Books) (user : User)
    (payloads : json.decode (json.encode (legacyPayload json (s.tagsOf (s.personalFor user).2)
        (s.entriesOf (s.personalFor user).2))) =
      legacyPayload json (s.tagsOf (s.personalFor user).2) (s.entriesOf (s.personalFor user).2))
    (colors : json.decode (json.encode (legacyColors (s.tagsOf (s.personalFor user).2))) =
      legacyColors (s.tagsOf (s.personalFor user).2)) :
    (legacyGet json (legacyPush json (legacyGet json s user).1 user
        (.string (legacyGet json s user).2)).1 user).2 =
      json.encode (legacyPayload json (s.tagsOf (s.personalFor user).2)
        ((s.entriesOf (s.personalFor user).2).filter fun entry => entry.rustdeskId ≠ "")) := by
  have tags := s.names_nodup (s.personalFor user).2
  have ids : (((s.entriesOf (s.personalFor user).2).filter fun entry =>
      entry.rustdeskId ≠ "").map AddressBookEntry.rustdeskId).Nodup :=
    (s.rustdeskIds_nodup _).sublist (List.filter_sublist.map _)
  have pulled : legacyGet json s user = ((s.personalFor user).1,
      json.encode (legacyPayload json (s.tagsOf (s.personalFor user).2)
        (s.entriesOf (s.personalFor user).2))) := by
    rw [legacyGet]
    simp only [tagsOf_personalFor, entriesOf_personalFor]
  rw [pulled]
  dsimp only
  rw [legacyPayload_eq] at payloads
  have kept : (((bookPayload (s.tagsOf (s.personalFor user).2)
      (s.entriesOf (s.personalFor user).2)).peers.filter fun peer => peer.id ≠ "").map Peer.id).Nodup := by
    rw [bookPayload, List.filter_map, List.map_map]
    exact ids
  have again := (get_push json (s.personalFor user).1 user tags kept payloads
    (colors.trans (wireColors_bookPayload tags _).symm)).2
  rw [legacyPayload_eq, again, normalised_bookPayload tags, wireColors_bookPayload tags, ← legacyPayload_eq]

/-- The codec cancels: what is pulled after a push is the payload normalised, and a push of
what was pulled changes nothing of the next pull but that entries without an id are gone. -/
theorem legacy_codec (json : JsonText) (s : Books) (user : User) :
    (∀ (p : TextPayload) (text colorsText : String), p.tags.Nodup → (p.peers.map Peer.id).Nodup →
      (∀ peer ∈ p.peers, peer.id ≠ "") → json.decode text = p.wire colorsText →
      json.decode colorsText = p.wireColors →
      (legacyPush json s user (.string text)).2 = .replaced ∧
      (legacyGet json (legacyPush json s user (.string text)).1 user).2 =
        json.encode (p.normalised.wire (json.encode p.normalised.wireColors))) ∧
    let tags := s.tagsOf (s.personalFor user).2
    let entries := s.entriesOf (s.personalFor user).2
    json.decode (json.encode (legacyPayload json tags entries)) = legacyPayload json tags entries →
    json.decode (json.encode (legacyColors tags)) = legacyColors tags →
    (legacyGet json (legacyPush json (legacyGet json s user).1 user
        (.string (legacyGet json s user).2)).1 user).2 =
      json.encode (legacyPayload json tags (entries.filter fun entry => entry.rustdeskId ≠ "")) := by
  refine ⟨fun p text colorsText tags ids _ decoded colors => ?_, get_push_get json s user⟩
  have kept : ((p.peers.filter fun peer => peer.id ≠ "").map Peer.id).Nodup :=
    ids.sublist (List.filter_sublist.map _)
  exact get_push json s user tags kept decoded colors

section Runs

def ada : User := { id := 1, username := "ada" }

/-- The texts of a pull of the book of one tag and one entry, and of its colours. -/
def homeText : String :=
  "\x7b\"tags\":[\"home\"],\"peers\":[\x7b\"id\":\"123456789\",\"username\":\"\",\"hostname\":\"\"," ++
  "\"platform\":\"\",\"alias\":\"\",\"tags\":[\"home\"],\"hash\":\"\"\x7d]," ++
  "\"tag_colors\":\"\x7b\\\"home\\\":0\x7d\"\x7d"

def homeColors : String := "\x7b\"home\":0\x7d"

def homePayload : TextPayload := bookPayload (desk.tagsOf 1) (desk.entriesOf 1)

def homeJson : JsonText where
  encode value :=
    match value with
    | .array [_, _, _] => homeText
    | _ => homeColors
  decode text :=
    if text = homeText then homePayload.wire homeColors
    else if text = homeColors then homePayload.wireColors
    else .null

theorem legacy_codec_home :
    (legacyPush homeJson desk ada (.string homeText)).2 = .replaced ∧
    (legacyGet homeJson (legacyPush homeJson (legacyGet homeJson desk ada).1 ada
      (.string (legacyGet homeJson desk ada).2)).1 ada).2 = homeText := by
  have apart : homeColors ≠ homeText := by decide +kernel
  have payloads : homeJson.decode homeText = homePayload.wire homeColors := by
    simp only [homeJson, if_true]
  have colors : homeJson.decode homeColors = homePayload.wireColors := by
    simp only [homeJson, apart, if_false, if_true]
  have forward := (legacy_codec homeJson desk ada).1 homePayload homeText homeColors
    (by decide +kernel) (by decide +kernel) (by decide +kernel) payloads colors
  have back := (legacy_codec homeJson desk ada).2 payloads colors
  exact ⟨forward.1, back⟩

/-- A push of a peer whose id is false, and the texts of the pulls before and after the next. -/
def falseText : String := "\x7b\"peers\":[\x7b\"id\":false\x7d]\x7d"

def blankText : String :=
  "\x7b\"tags\":[],\"peers\":[\x7b\"id\":\"\",\"username\":\"\",\"hostname\":\"\",\"platform\":\"\"," ++
  "\"alias\":\"\",\"tags\":[],\"hash\":\"\"\x7d],\"tag_colors\":\"[]\"\x7d"

def emptyText : String := "\x7b\"tags\":[],\"peers\":[],\"tag_colors\":\"[]\"\x7d"

def blankPayload : TextPayload := ⟨[], ∅, [⟨"", "", "", "", "", "", []⟩]⟩

def blankJson : JsonText where
  encode value :=
    match value with
    | .array [_, (_, .array []), _] => emptyText
    | .array [_, _, _] => blankText
    | _ => "[]"
  decode text :=
    if text = falseText then
      jsonObject [("peers", jsonList [jsonObject [("id", .bool false)]])]
    else if text = blankText then blankPayload.wire "[]"
    else if text = emptyText then TextPayload.wire ⟨[], ∅, []⟩ "[]"
    else if text = "[]" then .array []
    else .null

/-- The entry has an empty id: it is pulled, and not pushed again. -/
theorem blank_id_not_pushed :
    let s := (legacyPush blankJson {} ada (.string falseText)).1
    (legacyGet blankJson s ada).2 = blankText ∧
    (legacyGet blankJson (legacyPush blankJson (legacyGet blankJson s ada).1 ada
      (.string (legacyGet blankJson s ada).2)).1 ada).2 = emptyText ∧
    blankText ≠ emptyText := by
  decide +kernel

end Runs

end AddressBookController
end CortenDesk
