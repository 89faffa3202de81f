import CortenDesk.AddressBook.TagImport
import CortenDesk.AddressBook.TagRemoval

/-!
The tags that entries name, over runs of everything that writes to the books. Nothing but the
code holds an entry's ids to tags of its book: most operations do, and three do not see to it.
-/
namespace CortenDesk
open Php

namespace TagIntegrity

/-- A call by an account of the clients or of the console, a request of the automation API, an
`assign` under a token, or an import. -/
inductive Operation
  | peerAdd (userId book : Nat) (peer : AddressBookController.NewPeer)
  | peerUpdate (userId book : Nat) (peer : AddressBookController.PeerUpdate)
  | peerDelete (userId book : Nat) (ids : List String)
  | tagAdd (userId book : Nat) (name : String) (color : Int)
  | tagRename (userId book : Nat) (old new : String)
  | tagDelete (userId book : Nat) (names : List String)
  | legacyPush (userId : Nat) (data : Json)
  | addTag (actorId book : Nat) (name color : String)
  | deleteTag (actorId book tagId : Nat)
  | saveEntry (actorId book : Nat) (editing : Option Nat) (form : AddressBookManager.EntryForm)
  | storePeer (book : Nat) (data : AdminApi.AddressBooksController.PeerData)
  | updatePeer (book peer : Nat) (data : AdminApi.AddressBooksController.PeerData)
  | storeTag (book : Nat) (name : String) (color : Int)
  | destroyTag (book tagId : Nat)
  | assign (token : ApiToken) (r : DeviceCliController.Request) (seen : DeviceCliController.Seen)
  | importBooks (wipe : Bool) (source : ImportLejianwen.SourceBooks)

open AddressBookController AddressBookManager AdminApi.AddressBooksController in
/-- The tables after an operation that writes. -/
def perform (json : JsonText) (s : Books) : Operation → Option Books
  | .peerAdd userId book peer => do peerAdd s (← s.system.db.users.find? userId) book peer
  | .peerUpdate userId book peer => do peerUpdate s (← s.system.db.users.find? userId) book peer
  | .peerDelete userId book ids => do peerDelete s (← s.system.db.users.find? userId) book ids
  | .tagAdd userId book name color => do
      tagAdd s (← s.system.db.users.find? userId) book name color
  | .tagRename userId book old new => do
      tagRename s (← s.system.db.users.find? userId) book old new
  | .tagDelete userId book names => do tagDelete s (← s.system.db.users.find? userId) book names
  | .legacyPush userId data =>
      (s.system.db.users.find? userId).map fun user => (legacyPush json s user data).1
  | .addTag actorId book name color => do
      addTag s (← s.system.db.users.find? actorId) book name color
  | .deleteTag actorId book tagId => do
      deleteTag s (← s.system.db.users.find? actorId) book tagId
  | .saveEntry actorId book editing form => do
      saveEntry s (← s.system.db.users.find? actorId) book editing form
  | .storePeer book data => storePeer s book data
  | .updatePeer book peer data => updatePeer s book peer data
  | .storeTag book name color => storeTag s book name color
  | .destroyTag book tagId => destroyTag s book tagId
  | .assign token r seen => DeviceCliController.assignBooks s token r seen
  | .importBooks wipe source =>
      (ImportLejianwen.importBooks json s wipe source).map fun stages => stages.tagging.books

/-- An operation that is refused, or rolled back, writes nothing. -/
def step (json : JsonText) (s : Books) (op : Operation) : Books := (perform json s op).getD s

open AdminApi.AddressBooksController in
/-- The API is sent ids of the book's tags, and deletes a tag that no entry of the book has; a
push brings tags that can be created, or comes to a book whose entries have none. -/
def Sound (json : JsonText) (s : Books) : Operation → Prop
  | .legacyPush userId data => ∀ user, s.system.db.users.find? userId = some user →
      ∀ payload, AddressBookController.decodeBody json data = .payload payload →
        AddressBookController.Creatable [] payload.names ∨
          ∀ v, ¬ s.Held (s.personalFor user).2 v
  | .storePeer book data => Stores s book data → ∀ v ∈ data.sent, s.Names book v
  | .updatePeer book peer data => Updates s book peer data → ∀ v ∈ data.sent, s.Names book v
  | .destroyTag book tagId =>
      (s.system.db.addressBooks.find? book).isSome → ¬ s.Held book (.int tagId)
  | _ => True

variable {json : JsonText} {s s' : Books}

theorem resolves_of_completed {op : Option Books} (resolves : s.Resolves)
    (completed : ∀ s', op = some s' → s'.Resolves) : (op.getD s).Resolves := by
  cases done : op with
  | none => exact resolves
  | some s' => exact completed s' done

/-- An operation of an account. -/
theorem resolves_of_account {userId : Nat} {call : User → Option Books} (resolves : s.Resolves)
    (completed : ∀ user s', call user = some s' → s'.Resolves) :
    (((s.system.db.users.find? userId).bind call).getD s).Resolves := by
  refine resolves_of_completed resolves fun s' done => ?_
  obtain ⟨user, -, done⟩ := Option.bind_eq_some_iff.mp done
  exact completed user s' done

/-- One operation keeps the ids of entries those of tags exactly when it is sound. -/
theorem resolves_step_iff (s : Books) (op : Operation) (resolves : s.Resolves) :
    (step json s op).Resolves ↔ Sound json s op := by
  cases op with
  | peerAdd =>
      exact iff_of_true (resolves_of_account resolves fun _ _ done =>
        (AddressBookController.grows_peerAdd done).resolves resolves) trivial
  | peerUpdate =>
      exact iff_of_true (resolves_of_account resolves fun _ _ done =>
        (AddressBookController.grows_peerUpdate done).resolves resolves) trivial
  | peerDelete =>
      exact iff_of_true (resolves_of_account resolves fun _ _ done =>
        (AddressBookController.grows_peerDelete done).resolves resolves) trivial
  | tagAdd =>
      exact iff_of_true (resolves_of_account resolves fun _ _ done =>
        (AddressBookController.grows_tagAdd done).resolves resolves) trivial
  | tagRename =>
      exact iff_of_true (resolves_of_account resolves fun _ _ done =>
        (AddressBookController.grows_tagRename done).resolves resolves) trivial
  | tagDelete =>
      exact iff_of_true (resolves_of_account resolves fun _ _ done =>
        AddressBookController.resolves_tagDelete done resolves) trivial
  | legacyPush userId data =>
      simp only [step, perform, Sound]
      cases found : s.system.db.users.find? userId with
      | none => exact iff_of_true resolves fun _ absent => (nomatch absent)
      | some user =>
          have pushed := AddressBookController.resolves_legacyPush_iff json user data resolves
          simpa using pushed
  | addTag =>
      exact iff_of_true (resolves_of_account resolves fun _ _ done =>
        (AddressBookManager.grows_addTag done).resolves resolves) trivial
  | deleteTag =>
      exact iff_of_true (resolves_of_account resolves fun _ _ done =>
        AddressBookManager.resolves_deleteTag done resolves) trivial
  | saveEntry =>
      exact iff_of_true (resolves_of_account resolves fun _ _ done =>
        (AddressBookManager.grows_saveEntry done).resolves resolves) trivial
  | storePeer book data => exact AdminApi.AddressBooksController.resolves_storePeer_iff resolves
  | updatePeer book peer data =>
      exact AdminApi.AddressBooksController.resolves_updatePeer_iff resolves
  | storeTag =>
      exact iff_of_true (resolves_of_completed resolves fun _ done =>
        (AdminApi.AddressBooksController.grows_storeTag done).resolves resolves) trivial
  | destroyTag book tagId =>
      exact AdminApi.AddressBooksController.resolves_destroyTag_iff resolves
  | assign =>
      exact iff_of_true (resolves_of_completed resolves fun _ done =>
        (DeviceCliController.grows_assignBooks done).resolves resolves) trivial
  | importBooks =>
      refine iff_of_true (resolves_of_completed resolves fun _ done => ?_) trivial
      obtain ⟨stages, imported, rfl⟩ := Option.map_eq_some_iff.mp done
      exact ImportLejianwen.resolves_importBooks imported resolves

/-- Over a run every id in an entry stays that of a tag of its book exactly as long as what the
API is asked is sound and no push breaks off among its tags. -/
theorem tags_resolve_iff (json : JsonText) (s : Books) (ops : List Operation)
    (resolves : s.Resolves) :
    Runs.Always (step json) Books.Resolves s ops ↔ Runs.Along (step json) (Sound json) s ops :=
  Runs.always_iff_along (I := fun _ => True) (fun _ _ _ => trivial)
    (fun s op _ h => resolves_step_iff s op h) ops s trivial resolves

def noJson : JsonText := ⟨fun _ => "", fun _ => .null⟩

/-- An administrator with a shared book. -/
def plant : Books where
  system.db := {
    users := Table.empty.insert fun id => { id, username := "ilse", isAdmin := true }
    addressBooks := Table.empty.insert fun id => { id, name := "Plant", ownerUserId := some 1 } }

/-- The API makes a tag and a peer under it. -/
def lineTagged : List Operation :=
  [.storeTag 1 "Line 2" 0, .storePeer 1 { rustdeskId := some "100200300", tagIds := some (some [.int 1]) }]

theorem plant_resolves : plant.Resolves := by
  rintro book v ⟨entry, mem, -⟩
  simp [Books.entriesOf, plant, Table.empty] at mem

/-- The API then deletes the tag, and the peer keeps its id. -/
theorem destroyed_line_dangles :
    ¬ Runs.Always (step noJson) Books.Resolves plant (lineTagged ++ [.destroyTag 1 1]) := by
  intro always
  have after := Runs.Always.last _ plant always
  have tagless : (Runs.run (step noJson) plant (lineTagged ++ [.destroyTag 1 1])).tagsOf 1 = [] := by
    decide +kernel
  have tagged : ((Runs.run (step noJson) plant (lineTagged ++ [.destroyTag 1 1])).entriesOf 1).any
      fun entry => ! (entry.tagIds.getD []).isEmpty := by decide +kernel
  obtain ⟨entry, mem, some⟩ := List.any_eq_true.mp tagged
  obtain ⟨v, has⟩ := List.exists_mem_of_ne_nil (entry.tagIds.getD []) (by simpa using some)
  obtain ⟨tag, listed, -⟩ := after 1 v ⟨entry, mem, has⟩
  rw [tagless] at listed
  cases listed

/-- On the console the administrator deletes it, and the id goes from the peer. -/
theorem tags_resolve_iff_plant :
    Runs.Always (step noJson) Books.Resolves plant (lineTagged ++ [.deleteTag 1 1 1]) := by
  refine (tags_resolve_iff noJson plant _ plant_resolves).mpr ⟨trivial, ?_, trivial, trivial⟩
  rintro - v sent
  have made : (step noJson plant (.storeTag 1 "Line 2" 0)).tagsOf 1 = [⟨1, 1, "Line 2", 0⟩] := by
    decide +kernel
  obtain rfl := List.mem_singleton.mp sent
  exact ⟨⟨1, 1, "Line 2", 0⟩, made ▸ List.mem_singleton_self _, rfl⟩

end TagIntegrity
end CortenDesk
