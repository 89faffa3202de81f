import CortenDesk.AddressBook.Storage
import CortenDesk.Lib.PhpBase64
import CortenDesk.Lib.Runs

/-!
The address book of the older clients, pulled and pushed as a whole. The body carries the
book as JSON text, with the colours of its tags as JSON text in it; a push deletes what the
personal book holds and creates row by row from whatever the text decodes to.
-/
namespace CortenDesk
open Php

/-- `json_encode` and `json_decode` with arrays; text that is no JSON decodes to null. -/
structure JsonText where
  encode : Json → String
  decode : String → Json

namespace AddressBookController

/-- The byte at an offset of a string, from its end when negative. -/
def byteAt (s : String) (offset : Int) : Option UInt8 :=
  let all := bytes s
  if 0 ≤ offset then all[offset.toNat]? else
    if (-offset).toNat ≤ all.length then all[all.length - (-offset).toNat]? else none

/-- `(int) ($tagColors[$name] ?? 0)`; of a string of colours, a digit of it. -/
def colorOf (colors name : Json) : Int :=
  match colors with
  | .array entries => ((name.toKey.map fun key => Json.get entries key (.int 0)).getD (.int 0)).toInt
  | .string s =>
      match name.toOffset.bind (byteAt s) with
      | some byte => if 48 ≤ byte ∧ byte ≤ 57 then (byte.toNat - 48 : Nat) else 0
      | none => 0
  | _ => 0

/-- What a body holds, once decoded: the colours, the names and the peers. -/
structure Payload where
  colors : Json
  names : List Json
  peers : List Json

inductive Body
  | malformed
  | thrown
  | payload (payload : Payload)

/-- Decoding throws where it casts an array to a string. -/
def decodeBody (json : JsonText) (data : Json) : Body :=
  match data.toText with
  | none => .thrown
  | some text =>
      match json.decode text with
      | .array decoded =>
          match (Json.get decoded (.str "tag_colors") (.string "")).toText with
          | none => .thrown
          | some colorsText =>
              let colors := json.decode colorsText
              .payload {
                colors := if colors.truthy then colors else .array []
                names := (Json.get decoded (.str "tags") (.array [])).toList
                peers := (Json.get decoded (.str "peers") (.array [])).toList }
      | _ => .malformed

/-- The tag loop: the tables, and `$tagIdByName`. -/
def pushTag (book : Nat) (colors : Json) (state : Books × Arr Key Nat) (name : Json) :
    Option (Books × Arr Key Nat) := do
  let text ← name.toText
  let key ← name.toKey
  let (s, id) ← state.1.createTag book text (colorOf colors name)
  return (s, state.2.set key id)

def isBlank : Json → Bool
  | .string s => s = ""
  | _ => false

/-- `$peer[$field] ?? ''`. -/
def field (peer : List (Key × Json)) (name : String) : Json := Json.get peer (.str name) (.string "")

/-- The fields of a peer that is not passed over. -/
def keptPeer : Json → Option (List (Key × Json))
  | .array peer => if isBlank (field peer "id") then none else some peer
  | _ => none

def peerTags (peer : List (Key × Json)) : List Json := (Json.get peer (.str "tags") (.array [])).toList

/-- The columns of a pushed entry. -/
structure PushedPeer where
  rustdeskId : String
  username : String
  hostname : String
  platform : String
  «alias» : String
  hash : String
  tagIds : List Nat

def PushedPeer.row (book : Nat) (peer : PushedPeer) (id : Nat) : AddressBookEntry :=
  { id, addressBookId := book, rustdeskId := peer.rustdeskId, username := some peer.username
    hostname := some peer.hostname, platform := some peer.platform, «alias» := some peer.alias
    hash := some peer.hash, tagIds := some (peer.tagIds.map fun id : Nat => .int id) }

/-- An id that is null or 0 is filtered out; an array is no key and throws. -/
def resolveTags (ids : Arr Key Nat) (names : List Json) : Option (List Nat) :=
  (names.mapM fun name : Json => name.toKey.map ids.get?).map fun found =>
    (found.filterMap id).filter (· ≠ 0)

def pushedPeer (ids : Arr Key Nat) (peer : List (Key × Json)) : Option PushedPeer := do
  let rustdeskId ← (field peer "id").toText
  let username ← (field peer "username").toText
  let hostname ← (field peer "hostname").toText
  let platform ← (field peer "platform").toText
  let «alias» ← (field peer "alias").toText
  let hash ← (field peer "hash").toText
  let tagIds ← resolveTags ids (peerTags peer)
  return { rustdeskId, username, hostname, platform, «alias», hash, tagIds }

def pushPeer (book : Nat) (ids : Arr Key Nat) (s : Books) (peer : Json) : Option Books :=
  match keptPeer peer with
  | none => some s
  | some peer => (pushedPeer ids peer).bind fun pushed => s.createEntry (pushed.row book)

inductive Ending
  | replaced
  | malformed
  | thrown
  deriving DecidableEq, Repr

/-- No transaction: a loop that throws leaves what was deleted and created before. -/
def replaceBook (s : Books) (book : Nat) (payload : Payload) : Books × Ending :=
  let cleared := s.deleteTags fun tag => tag.addressBookId = book
  let ((s, ids), rebuilt) := Runs.foreach (pushTag book payload.colors) (cleared, ∅) payload.names
  if ! rebuilt then (s, .thrown)
  else
    let cleared := s.deleteEntries fun entry => entry.addressBookId = book
    let (s, rebuilt) := Runs.foreach (pushPeer book ids) cleared payload.peers
    (s, if rebuilt then .replaced else .thrown)

def legacyPush (json : JsonText) (s : Books) (user : User) (data : Json) : Books × Ending :=
  let (s, book) := s.personalFor user
  match decodeBody json data with
  | .malformed => (s, .malformed)
  | .thrown => (s, .thrown)
  | .payload payload => replaceBook s book payload

/-- The tags of an entry among the book's: `whereIn` compares loosely. -/
def entryTags (tags : List Tag) (entry : AddressBookEntry) : List Tag :=
  tags.filter fun tag => (entry.tagIds.getD []).any (Json.looseEq tag.id)

/-- A list as PHP arrays have it. -/
def jsonList (values : List Json) : Json :=
  .array ((values.zipIdx).map fun value => (.int value.2, value.1))

def jsonObject (fields : List (String × Json)) : Json :=
  .array (fields.map fun field => (Key.ofString field.1, field.2))

def legacyPeer (tags : List Tag) (entry : AddressBookEntry) : Json :=
  jsonObject [
    ("id", .string entry.rustdeskId),
    ("username", .string (entry.username.getD "")),
    ("hostname", .string (entry.hostname.getD "")),
    ("platform", .string (entry.platform.getD "")),
    ("alias", .string (entry.alias.getD "")),
    ("tags", jsonList ((entryTags tags entry).map fun tag => .string tag.name)),
    ("hash", .string (entry.hash.getD ""))]

/-- `pluck('color', 'name')`: a later tag of a name takes its place. -/
def legacyColors (tags : List Tag) : Json :=
  .array (OrderedMap.ofList (tags.map fun tag => (Key.ofString tag.name, Json.int tag.color))).entries

def legacyPayload (json : JsonText) (tags : List Tag) (entries : List AddressBookEntry) : Json :=
  jsonObject [
    ("tags", jsonList (tags.map fun tag => .string tag.name)),
    ("peers", jsonList (entries.map (legacyPeer tags))),
    ("tag_colors", .string (json.encode (legacyColors tags)))]

/-- The `data` of the answer. -/
def legacyGet (json : JsonText) (s : Books) (user : User) : Books × String :=
  let (s, book) := s.personalFor user
  (s, json.encode (legacyPayload json (s.tagsOf book) (s.entriesOf book)))

end AddressBookController
end CortenDesk
