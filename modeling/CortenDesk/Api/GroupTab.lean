import CortenDesk.Access.Visibility
import CortenDesk.Lib.JsInt
import CortenDesk.Lib.Paging
import CortenDesk.Lib.PhpJson
import CortenDesk.Strategy.Compliance

/-!
The Group tab of a client: the folders, the accounts and the devices that its user may see, each read
page by page. A client that asks for one page after the other gets every row once, and what it gets
is decided by the rows within its user's reach alone.
-/
namespace CortenDesk
open Php

namespace User

/-- Group-mates, and the members of the groups the account may see into. -/
def visibleUserIds (db : Database) (id : Nat) : List Nat :=
  let groupIds := (userGroupIds db id ++ groupAccessTargetIds db .userGroup id).eraseDups
  (id :: (db.userGroupUser.filter fun row => row.1 ∈ groupIds).map Prod.snd).eraseDups

/-- `$this->name ?: $this->username`. -/
def displayName (user : User) : String := (user.name.filter truthy).getD user.username

end User

namespace GroupTab

/-- The columns of a device that nothing but this tab reads. -/
structure Profile where
  username : Option String := none
  os : Option String := none
  hostname : Option String := none

/-- The tables, with these columns and the notes of the accounts by key. -/
structure State where
  db : Database := {}
  profile : Nat → Profile := fun _ => {}
  note : Nat → Option String := fun _ => none

/-- A value of the query string, an empty one left out; a list is never empty. -/
inductive QueryValue
  | text (s : String)
  | list
  deriving DecidableEq

def QueryValue.toInt : QueryValue → Int
  | .text s => Json.toInt (.string s)
  | .list => 1

structure Request where
  current : Option QueryValue := none
  pageSize : Option QueryValue := none
  status : Option QueryValue := none

/-- The page and its size. -/
def pagination (r : Request) : Nat × Nat :=
  ((max 1 ((r.current.map QueryValue.toInt).getD 1)).toNat,
    (min 500 (max 1 ((r.pageSize.map QueryValue.toInt).getD 100))).toNat)

/-- `(page - 1) * size`; beyond the integers it is a float, and wraps when it is cast back. -/
def offset (page size : Nat) : Nat :=
  if (page - 1) * size < 2 ^ 63 then (page - 1) * size
  else (BitVec.ofInt 64 (Js.toDouble (Js.toDouble (page - 1 : Nat) * size))).toInt.toNat

structure Listing (α : Type) where
  total : Nat
  data : List α

def Listing.map {α β : Type} (f : α → β) (listing : Listing α) : Listing β :=
  ⟨listing.total, listing.data.map f⟩

def listing {α : Type} {le : α → α → Bool} (arrange : Arrangement le) (rows : List α) (r : Request) :
    Listing α :=
  let (page, size) := pagination r
  ⟨rows.length, Paging.window (offset page size) size (arrange.sort rows)⟩

/-- `orderBy` on a column with texts, as the collation ranks them. -/
abbrev OrderBy {α : Type} (collate : String → String → Bool) (column : α → String) :=
  Arrangement fun a b => collate (column a) (column b)

def folders (db : Database) (actor : User) : List DeviceGroup :=
  db.deviceGroups.rows.filter fun folder =>
    actor.isAdmin || folder.id ∈ User.accessibleDeviceGroupIds db actor.id

def accounts (db : Database) (actor : User) (activeOnly : Bool) : List User :=
  db.users.rows.filter fun user =>
    (actor.isAdmin || user.id ∈ User.visibleUserIds db actor.id) && (! activeOnly || user.isActive)

def devices (db : Database) (actor : User) : List Device :=
  db.devices.rows.filter fun device => ! device.trashed && Device.visibleTo db actor device

structure UserPayload where
  name : String
  displayName : String
  email : String
  note : String
  status : Nat
  isAdmin : Bool
  deriving DecidableEq

def userPayload (s : State) (user : User) : UserPayload where
  name := user.username
  displayName := user.displayName
  email := user.email.getD ""
  note := (s.note user.id).getD ""
  status := if user.isActive then 1 else 0
  isAdmin := user.isAdmin

structure PeerPayload where
  id : String
  username : String
  os : String
  deviceName : String
  status : Nat
  user : String
  userName : String
  deviceGroupName : String
  note : String
  deriving DecidableEq

/-- A device at a clock reading, with the names of its owner and its folder. -/
def peerPayload (s : State) (onlineWindow : Int) (now : Instant) (device : Device) : PeerPayload :=
  let owner := ((device.userId.bind s.db.users.find?).map User.username).getD ""
  { id := device.rustdeskId
    username := (s.profile device.id).username.getD ""
    os := (s.profile device.id).os.getD ""
    deviceName := (s.profile device.id).hostname.getD ""
    status := if device.isOnline onlineWindow now then 1 else 0
    user := owner
    userName := owner
    deviceGroupName :=
      ((device.deviceGroupId.bind s.db.deviceGroups.find?).map DeviceGroup.name).getD ""
    note := device.note.getD "" }

section Endpoints
variable {collate : String → String → Bool} (s : State) (actor : User) (r : Request)

/-- Only the names of the folders are told. -/
def deviceGroups (arrange : OrderBy collate DeviceGroup.name) : Listing String :=
  (listing arrange (folders s.db actor) r).map DeviceGroup.name

/-- `status=1` asks for the active accounts; a list in its place fails. -/
def users (arrange : OrderBy collate User.username) : Option (Listing UserPayload) :=
  match r.status with
  | some .list => none
  | status =>
      some ((listing arrange (accounts s.db actor (status = some (.text "1"))) r).map (userPayload s))

/-- Each row is written at its own clock reading. -/
def peers (arrange : OrderBy collate Device.rustdeskId) (onlineWindow : Int) (now : Nat → Instant) :
    Listing PeerPayload :=
  (listing arrange (devices s.db actor) r).map fun device =>
    peerPayload s onlineWindow (now device.id) device

end Endpoints

section Pages
variable {α β : Type} {le : α → α → Bool} {r : Nat → Request} {size n : Nat}

theorem offset_eq {k : Nat} (small : k * size < 2 ^ 63) : offset (k + 1) size = k * size := by
  rw [offset, Nat.add_sub_cancel, if_pos small]

/-- The requests of a client that reads the first `n` pages, one after the other. -/
def Walks (r : Nat → Request) (size n : Nat) : Prop := ∀ k < n, pagination (r k) = (k + 1, size)

theorem pagination_size_pos (r : Request) : 0 < (pagination r).2 := by
  simp only [pagination]
  omega

theorem Walks.data (walks : Walks r size n) (fits : n * size ≤ 2 ^ 63) (arrange : Arrangement le)
    (rows : List α) {k : Nat} (read : k < n) :
    (listing arrange rows (r k)).data = Paging.window (k * size) size (arrange.sort rows) := by
  have size_pos := pagination_size_pos (r k)
  rw [walks k read] at size_pos
  have before : k * size < n * size := Nat.mul_lt_mul_of_pos_right read size_pos
  rw [listing, walks k read]
  exact congrArg (Paging.window · size _) (offset_eq (Nat.lt_of_lt_of_le before fits))

/-- The first `n` pages tell each of the rows once, in their order. -/
structure Whole (rows : List α) (le : α → α → Bool) (told : α → β → Prop) (n : Nat)
    (pages : Nat → Listing β) : Prop where
  totals : ∀ k, (pages k).total = rows.length
  data : ∃ order : List α, order.Perm rows ∧ (order.Pairwise fun a b => le a b = true) ∧
    List.Forall₂ told order ((List.range n).flatMap fun k => (pages k).data)

/-- Rows that differ in rank; what is told of one may depend on the page it is on. -/
theorem Walks.whole (walks : Walks r size n) (fits : n * size ≤ 2 ^ 63)
    (arrange : Nat → Arrangement le) {rows : List α} (enough : rows.length ≤ n * size)
    (apart : ∀ a ∈ rows, ∀ b ∈ rows, le a b = true → le b a = true → a = b) (f : Nat → α → β)
    {told : α → β → Prop} (tells : ∀ k row, told row (f k row)) :
    Whole rows le told n fun k => (listing (arrange k) rows (r k)).map (f k) := by
  refine ⟨fun _ => rfl, (arrange 0).sort rows, (arrange 0).perm rows, (arrange 0).ascends rows, ?_⟩
  have same (k : Nat) : ((arrange k).sort rows).map id = ((arrange 0).sort rows).map id := by
    rw [(arrange k).sort_eq (arrange 0) (.refl rows) apart]
  have order := Paging.walk arrange id same enough
  simp only [List.map_id] at order
  rw [← order]
  have read : List.Forall₂ (fun a b => a = b ∧ a < n) (List.range n) (List.range n) :=
    List.forall₂_same.mpr fun k listed => ⟨rfl, List.mem_range.mp listed⟩
  refine List.rel_flatMap read ?_
  rintro k _ ⟨rfl, read⟩
  change List.Forall₂ told _ ((listing (arrange k) rows (r k)).data.map (f k))
  rw [walks.data fits (arrange k) rows read]
  exact List.forall₂_map_right_iff.mpr (List.forall₂_same.mpr fun row _ => tells k row)

/-- Rows that may be tied, told by the key that ranks them, when the keys come in one order. -/
theorem Walks.whole_keys {rank : β → β → Bool} {key : α → β} (walks : Walks r size n)
    (fits : n * size ≤ 2 ^ 63) (arrange : Nat → Arrangement fun a b => rank (key a) (key b))
    {rows : List α} (enough : rows.length ≤ n * size)
    (same : ∀ k, ((arrange k).sort rows).map key = ((arrange 0).sort rows).map key) :
    Whole rows (fun a b => rank (key a) (key b)) (fun row told => told = key row) n fun k =>
      (listing (arrange k) rows (r k)).map key := by
  refine ⟨fun _ => rfl, (arrange 0).sort rows, (arrange 0).perm rows, (arrange 0).ascends rows, ?_⟩
  have order := Paging.walk arrange key same enough
  have pages : ((List.range n).flatMap fun k => ((listing (arrange k) rows (r k)).map key).data) =
      ((arrange 0).sort rows).map key := by
    rw [← order]
    refine List.flatMap_congr fun k listed => ?_
    exact congrArg (List.map key) (walks.data fits (arrange k) rows (List.mem_range.mp listed))
  rw [pages]
  exact List.forall₂_map_right_iff.mpr (List.forall₂_same.mpr fun _ _ => rfl)

/-- The unique indexes, under the collation of the columns. -/
structure Indexed (collate : String → String → Bool) (db : Database) : Prop where
  username : ∀ a ∈ db.users.rows, ∀ b ∈ db.users.rows, collate a.username b.username = true →
    collate b.username a.username = true → a = b
  rustdeskId : ∀ a ∈ db.devices.rows, ∀ b ∈ db.devices.rows,
    collate a.rustdeskId b.rustdeskId = true → collate b.rustdeskId a.rustdeskId = true → a = b

/-- A client that reads as many pages as its listing takes is told each folder, account and device
within its user's reach once, in the order of their names, and nothing else; whatever the size it
asks for, and however each of the queries arranges the rows that rank the same. Only the names of
the folders have no index: where the collation takes different ones for the same, the queries have
to arrange them alike. -/
theorem group_tab_pages {collate : String → String → Bool} (s : State) (actor : User)
    (indexed : Indexed collate s.db) (walks : Walks r size n) (fits : n * size ≤ 2 ^ 63) :
    (∀ arrange : Nat → OrderBy collate DeviceGroup.name,
      ((∀ a ∈ folders s.db actor, ∀ b ∈ folders s.db actor, collate a.name b.name = true →
          collate b.name a.name = true → a.name = b.name) ∨
        ∀ k, (arrange k).sort (folders s.db actor) = (arrange 0).sort (folders s.db actor)) →
      (folders s.db actor).length ≤ n * size →
      Whole (folders s.db actor) (fun a b => collate a.name b.name)
        (fun row name => name = row.name) n fun k => deviceGroups s actor (r k) (arrange k)) ∧
    (∀ status, status ≠ some .list → (∀ k, (r k).status = status) →
      (accounts s.db actor (status = some (.text "1"))).length ≤ n * size →
      ∀ arrange : Nat → OrderBy collate User.username, ∃ pages : Nat → Listing UserPayload,
        (∀ k, users s actor (r k) (arrange k) = some (pages k)) ∧
        Whole (accounts s.db actor (status = some (.text "1")))
          (fun a b => collate a.username b.username)
          (fun row told => told = userPayload s row) n pages) ∧
    ((devices s.db actor).length ≤ n * size →
      ∀ (arrange : Nat → OrderBy collate Device.rustdeskId) (onlineWindow : Int)
        (now : Nat → Nat → Instant),
        Whole (devices s.db actor) (fun a b => collate a.rustdeskId b.rustdeskId)
          (fun row told => ∃ at', told = peerPayload s onlineWindow at' row) n
          fun k => peers s actor (r k) (arrange k) onlineWindow (now k)) := by
  refine ⟨fun arrange alike enough => walks.whole_keys fits arrange enough fun k => ?_,
    fun status single asked enough arrange => ?_, fun enough arrange onlineWindow now => ?_⟩
  · cases alike with
    | inl apart => exact (arrange k).keys_eq (arrange 0) (.refl _) apart
    | inr same => rw [same k]
  · refine ⟨_, fun k => ?_, walks.whole fits arrange enough (fun a here b there => ?_)
      (fun _ => userPayload s) fun _ _ => rfl⟩
    · rw [users, asked k]
      split
      · exact absurd rfl single
      · rfl
    · exact indexed.username a (List.mem_of_mem_filter here) b (List.mem_of_mem_filter there)
  · refine walks.whole fits arrange enough (fun a here b there => ?_)
      (fun k row => peerPayload s onlineWindow (now k row.id) row) fun k row => ⟨_, rfl⟩
    exact indexed.rustdeskId a (List.mem_of_mem_filter here) b (List.mem_of_mem_filter there)

/-- Three folders, of which the account may see two; its own device lies in the third, which it may
not. -/
def office : State where
  db :=
    { users := ((Table.empty.insert fun id => { id, username := "chief", isAdmin := true }).insert
        fun id => { id, username := "dora" }).insert fun id => { id, username := "carl" }
      userGroupUser := [(1, 2), (1, 3)]
      devices := ((Table.empty.insert fun id =>
          { id, rustdeskId := "700", userId := some 2, deviceGroupId := some 2 }).insert
        fun id => { id, rustdeskId := "300", deviceGroupId := some 1 }).insert
        fun id => { id, rustdeskId := "500", deviceGroupId := some 2 }
      deviceGroups := ((Table.empty.insert fun id => { id, name := "Reception" }).insert
        fun id => { id, name := "Workshop" }).insert fun id => { id, name := "Archive" }
      deviceGroupUser := [(1, 2)]
      deviceGroupUserGroup := [(3, 1)] }

def byText {α : Type} (column : α → String) : OrderBy (fun a b => decide (a ≤ b)) column :=
  .ofMergeSort _ (fun _ _ _ first second =>
      decide_eq_true (String.le_trans (of_decide_eq_true first) (of_decide_eq_true second)))
    fun a b => by
      rw [Bool.or_eq_true, decide_eq_true_eq, decide_eq_true_eq]
      exact String.le_total _ _

def onePerPage (k : Nat) : Request :=
  { current := some (.text (if k = 0 then "1" else "2")), pageSize := some (.text "1") }

theorem walks_onePerPage : Walks onePerPage 1 2 := by
  unfold Walks
  decide +kernel

/-- Two of each, one a page. -/
theorem group_tab_pages_office :
    Whole (folders office.db { id := 2, username := "dora" }) (fun a b => decide (a.name ≤ b.name))
        (fun row name => name = row.name) 2 (fun k =>
          deviceGroups office { id := 2, username := "dora" } (onePerPage k) (byText DeviceGroup.name)) ∧
      (∃ pages : Nat → Listing UserPayload,
        (∀ k, users office { id := 2, username := "dora" } (onePerPage k) (byText User.username) =
          some (pages k)) ∧
        Whole (accounts office.db { id := 2, username := "dora" } false)
          (fun a b => decide (a.username ≤ b.username))
          (fun row told => told = userPayload office row) 2 pages) ∧
      Whole (devices office.db { id := 2, username := "dora" })
        (fun a b => decide (a.rustdeskId ≤ b.rustdeskId))
        (fun row told => ∃ at', told = peerPayload office 60 at' row) 2 fun k =>
          peers office { id := 2, username := "dora" } (onePerPage k) (byText Device.rustdeskId) 60
            fun _ => 0 := by
  have indexed : Indexed (fun a b => decide (a ≤ b)) office.db :=
    ⟨by decide +kernel, by decide +kernel⟩
  have whole := group_tab_pages office { id := 2, username := "dora" } indexed walks_onePerPage
    (by decide)
  refine ⟨whole.1 (fun _ => byText DeviceGroup.name) (.inl (by decide +kernel)) (by decide +kernel),
    ?_, ?_⟩
  · exact whole.2.1 none (by decide) (fun _ => rfl) (by decide +kernel) fun _ => byText User.username
  · exact whole.2.2 (by decide +kernel) (fun _ => byText Device.rustdeskId) 60 fun _ _ => 0

end Pages

end GroupTab
end CortenDesk
