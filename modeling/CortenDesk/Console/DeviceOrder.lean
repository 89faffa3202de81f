import CortenDesk.Console.DeviceList
import CortenDesk.Lib.Paging

/-!
The order of the Devices screen. The screen is asked for again while it is looked at, so its pages
must not depend on how the database happens to arrange rows that rank the same: the ID breaks ties.
-/
namespace CortenDesk
open Php OrderBy

namespace DeviceList

/-- The columns of a device that only the screen shows. -/
structure Columns where
  hostname : Option String := none
  os : Option String := none
  username : Option String := none
  version : Option String := none
  lastOnlineIp : Option String := none
  createdAt : Option Stamp := none

structure Screen where
  system : System := {}
  columns : Nat → Columns := fun _ => {}
  /-- In seconds. -/
  onlineWindow : Int := 60

inductive SortKey
  | id | device | «alias» | group | owner | version | os | firstSeen | lastSeen | status
  deriving DecidableEq, Repr

/-- `SORTABLE`. -/
def SortKey.ofText : String → Option SortKey
  | "id" => some .id
  | "device" => some .device
  | "alias" => some .alias
  | "group" => some .group
  | "owner" => some .owner
  | "version" => some .version
  | "os" => some .os
  | "first_seen" => some .firstSeen
  | "last_seen" => some .lastSeen
  | "status" => some .status
  | _ => none

/-- What the browser may set. -/
structure Filters where
  search : String := ""
  status : String := "all"
  group : Int := 0
  owner : Int := 0
  trashed : Bool := false
  sortField : String := "last_seen"
  sortDirection : String := "desc"

/-- Owner ordering exposes who owns what. -/
def canSortBy (actor : User) (key : SortKey) : Bool := key ≠ .owner || actor.isAdmin

def sortKey (actor : User) (filters : Filters) : SortKey :=
  ((SortKey.ofText filters.sortField).filter (canSortBy actor)).getD .lastSeen

/-- The clock reading of a query, in whole seconds. -/
def online (screen : Screen) (now : Instant) (device : Device) : Bool :=
  device.lastOnlineAt.any fun at' => Instant.stored (now - screen.onlineWindow * 1000000) < at'

/-- The rows a filter keeps; `like` says which columns match the search. -/
def listed (like : String → String → Bool) (screen : Screen) (actor : User) (filters : Filters)
    (now : Instant) (device : Device) : Bool :=
  let columns := screen.columns device.id
  Device.visibleTo screen.system.db actor device && device.trashed = filters.trashed &&
    (filters.search = "" || [some device.rustdeskId, device.alias, columns.hostname, columns.username,
      columns.lastOnlineIp].any fun column => column.any (like filters.search)) &&
    (filters.trashed || filters.status ≠ "online" || online screen now device) &&
    (filters.trashed || filters.status ≠ "offline" || ! online screen now device) &&
    (filters.group ≤ 0 || device.deviceGroupId.any fun id => (id : Int) = filters.group) &&
    (filters.owner ≠ -1 || device.userId.isNone) &&
    (filters.owner ≤ 0 || device.userId.any fun id => (id : Int) = filters.owner)

section Order
variable {κ : Type} [Ord κ] (weight : String → κ)

/-- An empty text sorts with the blanks. -/
def blankText (text : Option String) : Bool :=
  text.all fun text => compare (weight text) (weight "") = .eq

def textTerms (ascending : Bool) (column : Device → Option String) : List (Term Device) :=
  [compareOn fun device => blankText weight (column device),
    directed ascending (compareOn fun device => (column device).map weight)]

/-- `applySort` before the tie-breaker; a text column ranks by the weight its collation gives it, and
below every text stands NULL. -/
def sortTerms (screen : Screen) (now : Instant) (ascending : Bool) : SortKey → List (Term Device)
  | .status => [directed ascending (compareOn (online screen now))]
  | .group =>
      [compareOn fun device => device.deviceGroupId.isNone,
        directed ascending (compareOn fun device =>
          (device.deviceGroupId.bind screen.system.db.deviceGroups.find?).map fun group =>
            weight group.name)]
  | .owner =>
      [compareOn fun device => device.userId.isNone,
        directed ascending (compareOn fun device =>
          (device.userId.bind screen.system.db.users.find?).map fun user => weight user.username)]
  | .id => [directed ascending (compareOn fun device => weight device.rustdeskId)]
  | .device => textTerms weight ascending fun device => (screen.columns device.id).hostname
  | .alias => textTerms weight ascending Device.alias
  | .version => textTerms weight ascending fun device => (screen.columns device.id).version
  | .os => textTerms weight ascending fun device => (screen.columns device.id).os
  | .firstSeen => [directed ascending (compareOn fun device => (screen.columns device.id).createdAt)]
  | .lastSeen =>
      [compareOn fun device => device.lastOnlineAt.isNone,
        directed ascending (compareOn Device.lastOnlineAt)]

/-- The order of the screen. -/
def applySort (screen : Screen) (actor : User) (filters : Filters) (now : Instant) : Term Device :=
  terms (sortTerms weight screen now (filters.sortDirection = "asc") (sortKey actor filters) ++
    [compareOn fun device => weight device.rustdeskId])

end Order

section Pages
variable {κ : Type} [Ord κ] [Std.TransOrd κ] (weight : String → κ) (screen : Screen) (actor : User)
  (filters : Filters) (now : Instant)

def rows (like : String → String → Bool) : List Device :=
  screen.system.db.devices.rows.filter (listed like screen actor filters now)

/-- What a key puts last, whichever way it sorts. -/
def blank : SortKey → Device → Bool
  | .group, device => device.deviceGroupId.isNone
  | .owner, device => device.userId.isNone
  | .device, device => blankText weight (screen.columns device.id).hostname
  | .alias, device => blankText weight device.alias
  | .version, device => blankText weight (screen.columns device.id).version
  | .os, device => blankText weight (screen.columns device.id).os
  | .lastSeen, device => device.lastOnlineAt.isNone
  | .id, _ | .firstSeen, _ | .status, _ => false

/-- The rows shown on a page; the pages are counted from one. -/
def page (like : String → String → Bool)
    (arrange : Arrangement (le (applySort weight screen actor filters now))) (number perPage : Nat) :
    List Device :=
  Paging.window ((number - 1) * perPage) perPage (arrange.sort (rows screen actor filters now like))

variable {weight screen actor filters now}

theorem trans_textTerms {ascending : Bool} {column : Device → Option String} {term : Term Device}
    (its : term ∈ textTerms weight ascending column) : Std.TransCmp term := by
  rcases List.mem_pair.mp its with rfl | rfl
  · infer_instance
  · infer_instance

theorem trans_sortTerms {ascending : Bool} {key : SortKey} {term : Term Device}
    (its : term ∈ sortTerms weight screen now ascending key) : Std.TransCmp term := by
  cases key with
  | device | «alias» | version | os => exact trans_textTerms its
  | id | firstSeen | status =>
      rw [List.mem_singleton.mp its]
      infer_instance
  | group | owner | lastSeen =>
      rcases List.mem_pair.mp its with rfl | rfl
      · infer_instance
      · infer_instance

instance trans_applySort : Std.TransCmp (applySort weight screen actor filters now) := by
  refine trans_terms fun term listed => ?_
  rcases List.mem_append.mp listed with its | tie
  · exact trans_sortTerms its
  · rw [List.mem_singleton.mp tie]
    infer_instance

/-- Rows of one rank have one ID. -/
theorem rustdeskId_of_tied {a b : Device}
    (here : le (applySort weight screen actor filters now) a b = true)
    (there : le (applySort weight screen actor filters now) b a = true) :
    compare (weight a.rustdeskId) (weight b.rustdeskId) = .eq := by
  have rank := tied here there
  rw [applySort] at rank
  exact terms_eq_eq.mp rank _ (List.mem_append_right _ (List.mem_singleton.mpr rfl))

omit [Std.TransOrd κ] in
theorem blank_last {order : List Device}
    (ascends : order.Pairwise fun a b => le (applySort weight screen actor filters now) a b = true) :
    order = order.filter (fun device => ! blank weight screen (sortKey actor filters) device) ++
      order.filter (blank weight screen (sortKey actor filters)) := by
  rw [applySort] at ascends
  generalize sortKey actor filters = key at ascends ⊢
  cases key with
  | id | firstSeen | status => simp [blank]
  | device | «alias» | version | os | group | owner | lastSeen => exact split_of_flag ascends

/-- The screen has one order, whatever key and way the browser asks for: it holds the rows that the
filters keep, blanks behind the others, and whichever way a query arranges rows that rank the same,
each page is the same piece of it. The pages together are the whole, no row missing or shown twice. -/
theorem device_list_pages (like : String → String → Bool)
    (indexed : ∀ a ∈ screen.system.db.devices.rows, ∀ b ∈ screen.system.db.devices.rows,
      compare (weight a.rustdeskId) (weight b.rustdeskId) = .eq → a = b)
    {perPage n : Nat} (enough : (rows screen actor filters now like).length ≤ n * perPage) :
    ∃ order : List Device, order.Perm (rows screen actor filters now like) ∧
      (order = order.filter (fun device => ! blank weight screen (sortKey actor filters) device) ++
        order.filter (blank weight screen (sortKey actor filters))) ∧
      (∀ arrange k, page weight screen actor filters now like arrange (k + 1) perPage =
        Paging.window (k * perPage) perPage order) ∧
      ∀ arrange : Nat → Arrangement (le (applySort weight screen actor filters now)),
        ((List.range n).flatMap fun k =>
          page weight screen actor filters now like (arrange k) (k + 1) perPage) = order := by
  have usual := Arrangement.ofTerm (applySort weight screen actor filters now)
  have same (arrange : Arrangement (le (applySort weight screen actor filters now))) :
      arrange.sort (rows screen actor filters now like) =
        usual.sort (rows screen actor filters now like) := by
    refine arrange.sort_eq usual (.refl _) fun a here b there first second => ?_
    exact indexed a (List.mem_of_mem_filter here) b (List.mem_of_mem_filter there)
      (rustdeskId_of_tied first second)
  have shown (arrange) (k : Nat) : page weight screen actor filters now like arrange (k + 1) perPage =
      Paging.window (k * perPage) perPage (usual.sort (rows screen actor filters now like)) := by
    rw [page, same arrange, Nat.add_sub_cancel]
  refine ⟨_, usual.perm _, blank_last (usual.ascends _), shown, fun arrange => ?_⟩
  simp only [shown]
  rw [Paging.windows_flatten, List.take_of_length_le]
  rw [usual.length]
  exact enough

/-- Three devices, two of them with no alias, and an empty folder. -/
def lobby : Screen where
  system.db.deviceGroups := Table.empty.insert fun id => { id, name := "Front" }
  system.db.devices :=
    ((Table.empty.insert fun id => { id, rustdeskId := "700", «alias» := some "" }).insert
      fun id => { id, rustdeskId := "300" }).insert
        fun id => { id, rustdeskId := "500", «alias» := some "front" }

def root : User := { id := 1, username := "root", isAdmin := true }

theorem device_list_pages_lobby :
    ∃ order : List Device, order.Perm (rows lobby root
          { sortField := "alias" } 0 fun _ _ => true) ∧
      (order = order.filter (fun device => ! blank id lobby .alias device) ++
        order.filter (blank id lobby .alias)) ∧
      (∀ arrange k, page id lobby root { sortField := "alias" } 0
          (fun _ _ => true) arrange (k + 1) 2 = Paging.window (k * 2) 2 order) ∧
      ∀ arrange : Nat → Arrangement (le (applySort id lobby root
          { sortField := "alias" } 0)),
        ((List.range 2).flatMap fun k => page id lobby { id := 1, username := "root", isAdmin := true }
          { sortField := "alias" } 0 (fun _ _ => true) (arrange k) (k + 1) 2) = order :=
  device_list_pages (fun _ _ => true) (by decide +kernel) (by decide +kernel)

end Pages

section Move

def selectPage (shown : List Device) : List Nat := shown.map Device.id

/-- What a move makes of a row. -/
def moved (target : Option Nat) (row : Device) : Device :=
  if row.deviceGroupId.getD 0 = target.getD 0 then row else { row with deviceGroupId := target }

/-- The row of an ID, but for the cached column. -/
def told (s : System) (id : Nat) : Option Device := (s.db.devices.find? id).map Device.uncached

theorem told_of_recached {s s' : System} (same : Strategy.Recached s.db s'.db) (id : Nat) :
    told s' id = told s id := by
  obtain ⟨devices, whole, each⟩ := same
  rw [told, whole]
  exact each id

theorem told_write (s : System) (device : Device) (target : Option Nat) (id : Nat) :
    told (Device.write s device fun row => { row with deviceGroupId := target }) id =
      if id = device.id then (told s id).map fun row => { row with deviceGroupId := target }
      else told s id := by
  rw [told, Device.write, System.withDevices, Table.find?_update, told]
  cases found : s.db.devices.find? id with
  | none => simp
  | some row =>
      have its : row.id = id := (Table.find?_eq_some_iff _ |>.mp found).2
      by_cases here : id = device.id
      · rw [if_pos here, Option.map_some, if_pos (decide_eq_true (its.trans here))]
        rfl
      · rw [if_neg here, Option.map_some, if_neg (by simpa [its] using here)]

theorem told_moveToGroup {s : System} {device : Device}
    (loaded : told s device.id = some device.uncached) (target : Option Nat) (id : Nat) :
    told (moveToGroup target s device) id =
      if id = device.id then (told s id).map (moved target) else told s id := by
  by_cases stays : device.deviceGroupId.getD 0 = target.getD 0
  · rw [moveToGroup, if_pos stays]
    split
    · next here =>
      rw [here, loaded]
      exact congrArg some (if_pos stays).symm
    · rfl
  · rw [moveToGroup, if_neg stays]
    have wrote : told (Device.update s device fun row => { row with deviceGroupId := target }) id =
        told (Device.write s device fun row => { row with deviceGroupId := target }) id := by
      rw [Device.update]
      split
      · exact told_of_recached (Strategy.recached_syncResolvedFor _ _) id
      · rfl
    rw [wrote, told_write]
    split
    · next here =>
      rw [here, loaded]
      exact congrArg some (if_neg stays).symm
    · rfl

/-- The rows of a move are loaded before the first is written. -/
theorem told_foldl_moveToGroup (target : Option Nat) (devices : List Device) {s : System}
    (distinct : (devices.map Device.id).Nodup)
    (loaded : ∀ device ∈ devices, told s device.id = some device.uncached) (id : Nat) :
    told (devices.foldl (moveToGroup target) s) id =
      if id ∈ devices.map Device.id then (told s id).map (moved target) else told s id := by
  induction devices generalizing s with
  | nil => rfl
  | cons device devices ih =>
      obtain ⟨apart, distinct⟩ := List.nodup_cons.mp distinct
      have first := told_moveToGroup (loaded device List.mem_cons_self) target
      have later : ∀ other ∈ devices,
          told (moveToGroup target s device) other.id = some other.uncached := by
        intro other listed
        rw [first, if_neg]
        · exact loaded other (List.mem_cons_of_mem _ listed)
        · exact fun same => apart (same ▸ List.mem_map_of_mem listed)
      rw [List.foldl_cons, ih distinct later, first, List.map_cons]
      by_cases here : id = device.id
      · rw [if_neg (here ▸ apart), if_pos here, if_pos (here ▸ List.mem_cons_self)]
      · rw [if_neg here]
        simp only [List.mem_cons, here, false_or]

theorem moveToGroup_tables (target : Option Nat) (device : Device) (s : System) :
    ∃ devices, (moveToGroup target s device).db = { s.db with devices } := by
  rw [moveToGroup]
  split
  · exact ⟨s.db.devices, rfl⟩
  · rw [Device.update]
    split
    · obtain ⟨devices, whole, -⟩ := Strategy.recached_syncResolvedFor
        (Device.write s device fun row => { row with deviceGroupId := target })
        { device with deviceGroupId := target }
      exact ⟨devices, whole⟩
    · exact ⟨_, rfl⟩

theorem foldl_moveToGroup_tables (target : Option Nat) (list : List Device) (s : System) :
    ∃ devices, (list.foldl (moveToGroup target) s).db = { s.db with devices } := by
  induction list generalizing s with
  | nil => exact ⟨s.db.devices, rfl⟩
  | cons device list ih =>
      obtain ⟨devices, first⟩ := moveToGroup_tables target device s
      obtain ⟨devices', rest⟩ := ih (moveToGroup target s device)
      refine ⟨devices', rest.trans ?_⟩
      rw [first]

variable {κ : Type} [Ord κ] {weight : String → κ} {screen : Screen} {actor : User} {filters : Filters}
  {now : Instant}

/-- The page on show, as a bulk action finds it. -/
def viewOf (filters : Filters) (shown : List Device) : View where
  trashed := filters.trashed
  listed device := device ∈ shown

theorem mem_page {like : String → String → Bool}
    {arrange : Arrangement (le (applySort weight screen actor filters now))} {number perPage : Nat}
    {device : Device}
    (shown : device ∈ page weight screen actor filters now like arrange number perPage) :
    device ∈ screen.system.db.devices.rows ∧ device.trashed = filters.trashed ∧
      Device.visibleTo screen.system.db actor device = true := by
  obtain ⟨row, kept⟩ := List.mem_filter.mp (arrange.mem.mp (Paging.mem_of_mem_window shown))
  simp only [listed, Bool.and_eq_true, decide_eq_true_eq] at kept
  exact ⟨row, kept.1.1.1.1.1.1.2, kept.1.1.1.1.1.1.1⟩

theorem selected_page {like : String → String → Bool}
    {arrange : Arrangement (le (applySort weight screen actor filters now))} {number perPage : Nat}
    {shown : List Device}
    (its : shown = page weight screen actor filters now like arrange number perPage)
    (device : Device) :
    device ∈ selectedDevicesOnCurrentPage screen.system.db actor (viewOf filters shown)
      (selectPage shown) ↔ device ∈ shown := by
  constructor
  · intro chosen
    have chosen := List.of_mem_filter chosen
    simp only [viewOf, Bool.and_eq_true, decide_eq_true_eq] at chosen
    exact chosen.1.1.2
  · intro here
    obtain ⟨row, bin, visible⟩ := mem_page (its ▸ here)
    refine List.mem_filter.mpr ⟨row, ?_⟩
    have positive := screen.system.db.devices.positive.2 device row
    have key : device.id ≠ 0 := Nat.pos_iff_ne_zero.mp positive
    simp only [viewOf, selectPage, bin, visible, here, key, decide_true, Bool.and_self, ne_eq,
      not_false_eq_true, List.mem_map_of_mem here]

/-- Selecting the page and moving it files each device on show and no other, and writes no other table;
a device that is there already is left alone. -/
theorem page_moves_as_shown (like : String → String → Bool)
    (arrange : Arrangement (le (applySort weight screen actor filters now)))
    (number perPage groupId : Nat)
    (may : actor.consoleAllows screen.system.db .device .rw = true)
    (reachable : groupId = 0 ∨ accessibleDeviceGroup screen.system.db actor groupId = true) :
    let shown := page weight screen actor filters now like arrange number perPage
    ∃ s, moveSelectedToGroup screen.system actor (viewOf filters shown) (selectPage shown) groupId =
        some s ∧
      (∃ devices, s.db = { screen.system.db with devices }) ∧
      ∀ id, told s id =
        if id ∈ selectPage shown then (told screen.system id).map (moved (idOrNull groupId))
        else told screen.system id := by
  intro shown
  have files := selected_page
    (rfl : shown = page weight screen actor filters now like arrange number perPage)
  rw [moveSelectedToGroup, may]
  simp only [Bool.not_true, Bool.false_eq_true, if_false]
  by_cases none_shown : selectPage shown = []
  · rw [if_pos none_shown]
    refine ⟨_, rfl, ⟨_, rfl⟩, fun id => ?_⟩
    rw [none_shown, if_neg List.not_mem_nil]
  · have inside : ((groupId : Int) > 0 &&
        ! accessibleDeviceGroup screen.system.db actor (groupId : Int).toNat) = false := by
      rw [Int.toNat_natCast]
      rcases reachable with rfl | reachable
      · rfl
      · rw [reachable, Bool.not_true, Bool.and_false]
    rw [if_neg none_shown, if_neg (Int.not_lt.mpr (Int.natCast_nonneg groupId)), inside,
      Int.toNat_natCast]
    refine ⟨_, rfl, foldl_moveToGroup_tables _ _ _, fun id => ?_⟩
    have distinct : ((selectedDevicesOnCurrentPage screen.system.db actor (viewOf filters shown)
        (selectPage shown)).map Device.id).Nodup :=
      screen.system.db.devices.nodup.sublist (List.filter_sublist.map Device.id)
    have loaded : ∀ device ∈ selectedDevicesOnCurrentPage screen.system.db actor (viewOf filters shown)
        (selectPage shown), told screen.system device.id = some device.uncached := by
      intro device chosen
      rw [told]
      exact congrArg (Option.map Device.uncached)
        (screen.system.db.devices.find?_of_mem (List.mem_of_mem_filter chosen))
    rw [told_foldl_moveToGroup _ _ distinct loaded]
    have same : id ∈ (selectedDevicesOnCurrentPage screen.system.db actor (viewOf filters shown)
        (selectPage shown)).map Device.id ↔ id ∈ selectPage shown := by
      simp only [List.mem_map, files]
      rw [selectPage, List.mem_map]
    simp only [same]

theorem page_moves_as_shown_lobby :
    let shown := page id lobby root { sortField := "alias" } 0
      (fun _ _ => true) (Arrangement.ofTerm _) 1 2
    ∃ s, moveSelectedToGroup lobby.system { id := 1, username := "root", isAdmin := true }
        (viewOf { sortField := "alias" } shown) (selectPage shown) (1 : Nat) = some s ∧
      (∃ devices, s.db = { lobby.system.db with devices }) ∧
      ∀ id, told s id = if id ∈ selectPage shown then (told lobby.system id).map (moved (idOrNull 1))
        else told lobby.system id :=
  page_moves_as_shown (fun _ _ => true) (Arrangement.ofTerm _) 1 2 1 rfl (.inr rfl)

end Move
end DeviceList
end CortenDesk
