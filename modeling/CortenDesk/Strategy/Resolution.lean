import CortenDesk.Database.Rows

/-!
Which strategy applies to a device, and the column that caches the answer. The state is
the database and the memo that a process keeps of "is any strategy enabled at all?".
A recompute visits the devices one by one; as a whole it is one update of the column,
which is what the writes above it are proved from.
-/
namespace CortenDesk

structure System where
  db : Database := {}
  anyEnabledCache : Option Bool := none

def System.withDevices (s : System) (devices : Table Device) : System :=
  { s with db.devices := devices }

/-- The levels a strategy can be assigned at, in order of precedence. -/
inductive StrategyLevel
  | device
  | user
  | deviceGroup
  deriving DecidableEq, Repr

/-- The row without the cached column. -/
def Device.uncached (device : Device) : Device := { device with strategyIdResolved := none }

namespace Database

def pivot (db : Database) : StrategyLevel → List (Nat × Nat)
  | .device => db.deviceStrategy
  | .user => db.strategyUser
  | .deviceGroup => db.deviceGroupStrategy

def setPivot (db : Database) (level : StrategyLevel) (rows : List (Nat × Nat)) : Database :=
  match level with
  | .device => { db with deviceStrategy := rows }
  | .user => { db with strategyUser := rows }
  | .deviceGroup => { db with deviceGroupStrategy := rows }

/-- The pivot joined to the strategies, soft-deleted ones included. -/
def enabledAt (db : Database) (level : StrategyLevel) (targetId : Nat) : Option Nat :=
  (db.pivot level).findSome? fun row =>
    if row.1 = targetId then
      ((db.strategies.find? row.2).filter fun strategy => strategy.enabled).map Strategy.id
    else none

def defaultStrategy (db : Database) : Option Nat :=
  (db.strategies.rows.find? fun strategy =>
    ! strategy.trashed && strategy.isDefault && strategy.enabled).map Strategy.id

/-- Device, then owner, then folder, then the default. -/
def byPrecedence (db : Database) (device : Device) : Option Nat :=
  let candidates : List (StrategyLevel × Option Nat) :=
    [(.device, some device.id), (.user, device.userId), (.deviceGroup, device.deviceGroupId)]
  (candidates.findSome? fun candidate => candidate.2.bind (db.enabledAt candidate.1)).or
    db.defaultStrategy

def anyEnabled (db : Database) : Bool :=
  db.strategies.rows.any fun strategy => ! strategy.trashed && strategy.enabled

end Database

namespace Strategy

def anyEnabled (s : System) : Bool × System :=
  match s.anyEnabledCache with
  | some cached => (cached, s)
  | none => (s.db.anyEnabled, { s with anyEnabledCache := some s.db.anyEnabled })

def resolve (s : System) (device : Device) : Option Nat × System :=
  let (any, s) := anyEnabled s
  if any then (s.db.byPrecedence device, s) else (none, s)

/-- The resolution a process without a memo computes. -/
def resolveAfresh (db : Database) (device : Device) : Option Nat :=
  (resolve { db } device).1

def writeResolved (s : System) (device : Device) (resolved : Option Nat) : System :=
  s.withDevices (s.db.devices.update (fun row => decide (row.id = device.id))
    fun row => { row with strategyIdResolved := resolved })

/-- The comparison is of integers, where null is zero. -/
def syncResolvedFor (s : System) (device : Device) : System :=
  let (resolved, s) := resolve s device
  if device.strategyIdResolved.getD 0 ≠ resolved.getD 0 then writeResolved s device resolved
  else s

def recomputeQuery (s : System) (query : Device → Bool) : System :=
  (s.db.devices.rows.filter query).foldl syncResolvedFor s

/-- Soft-deleted devices are recomputed too. -/
def recomputeForLevel (s : System) (level : StrategyLevel) (targetId : Nat) : System :=
  recomputeQuery s fun device =>
    match level with
    | .device => decide (device.id = targetId)
    | .user => decide (device.userId = some targetId)
    | .deviceGroup => decide (device.deviceGroupId = some targetId)

def recomputeAll (s : System) : System := recomputeQuery s fun _ => true

def flushCache (s : System) : System := { s with anyEnabledCache := none }

def unassign (s : System) (level : StrategyLevel) (targetId : Nat) : System :=
  { s with db := s.db.setPivot level ((s.db.pivot level).filter fun row => row.1 ≠ targetId) }

def attach (s : System) (level : StrategyLevel) (targetId : Nat) (strategyId : Option Nat) : System :=
  match strategyId with
  | none => s
  | some strategyId =>
      { s with db := s.db.setPivot level (s.db.pivot level ++ [(targetId, strategyId)]) }

/-- One strategy a target and level: assigning replaces. -/
def assignTo (s : System) (level : StrategyLevel) (targetId : Nat) (strategyId : Option Nat) : System :=
  recomputeForLevel (attach (unassign s level targetId) level targetId strategyId) level targetId

def assignedStrategyId (db : Database) (level : StrategyLevel) (targetId : Nat) : Option Nat :=
  ((db.pivot level).find? fun row => decide (row.1 = targetId)).map Prod.snd

/-- The column holds what a fresh resolution computes. -/
def refresh (db : Database) (device : Device) : Device :=
  { device with strategyIdResolved := resolveAfresh db device }

theorem resolve_db (s : System) (device : Device) : (resolve s device).2.db = s.db := by
  have memo : (anyEnabled s).2.db = s.db := by
    simp only [anyEnabled]
    split <;> rfl
  simp only [resolve]
  split <;> exact memo

/-- The databases differ in the cached column alone. -/
def Recached (db db' : Database) : Prop :=
  ∃ devices, db' = { db with devices } ∧
    ∀ id, (devices.find? id).map Device.uncached = (db.devices.find? id).map Device.uncached

theorem Recached.refl (db : Database) : Recached db db := ⟨db.devices, rfl, fun _ => rfl⟩

theorem Recached.trans {a b c : Database} (h : Recached a b) (h' : Recached b c) :
    Recached a c := by
  obtain ⟨devices, rfl, same⟩ := h
  obtain ⟨devices', rfl, same'⟩ := h'
  exact ⟨devices', rfl, fun id => (same' id).trans (same id)⟩

theorem recached_syncResolvedFor (s : System) (device : Device) :
    Recached s.db (syncResolvedFor s device).db := by
  have same := resolve_db s device
  simp only [syncResolvedFor]
  split
  · rw [← same]
    refine ⟨_, rfl, fun id => ?_⟩
    rw [Table.find?_update, Option.map_map]
    refine congrArg (Option.map · _) (funext fun row => ?_)
    simp only [Function.comp_def]
    split <;> rfl
  · rw [same]
    exact .refl _

theorem recached_recomputeAll (s : System) : Recached s.db (recomputeAll s).db := by
  suffices visits : ∀ (devices : List Device) (s : System),
      Recached s.db (devices.foldl syncResolvedFor s).db from visits _ s
  intro devices
  induction devices with
  | nil => exact fun s => .refl s.db
  | cons device devices ih => exact fun s => (recached_syncResolvedFor s device).trans (ih _)

theorem resolveAfresh_eq (db : Database) (device : Device) :
    resolveAfresh db device = if db.anyEnabled then db.byPrecedence device else none := by
  cases h : db.anyEnabled <;> simp [resolveAfresh, resolve, anyEnabled, h]

/-- A resolution reads the strategies, the pivots, and three columns of the device. -/
theorem resolveAfresh_congr {db db' : Database} (strategies : db'.strategies = db.strategies)
    (pivots : ∀ level, db'.pivot level = db.pivot level) {device device' : Device}
    (id : device'.id = device.id) (userId : device'.userId = device.userId)
    (deviceGroupId : device'.deviceGroupId = device.deviceGroupId) :
    resolveAfresh db' device' = resolveAfresh db device := by
  have levels : db'.enabledAt = db.enabledAt := by
    funext level targetId
    simp only [Database.enabledAt, pivots, strategies]
  simp only [resolveAfresh_eq, Database.byPrecedence, Database.defaultStrategy,
    Database.anyEnabled, strategies, id, userId, deviceGroupId]
  rw [levels]
  rfl

theorem refresh_devices (db : Database) (devices : Table Device) :
    refresh { db with devices } = refresh db := by
  funext device
  have pivots (level : StrategyLevel) : ({ db with devices } : Database).pivot level =
      db.pivot level := by cases level <;> rfl
  have same : resolveAfresh { db with devices } device = resolveAfresh db device := by
    apply resolveAfresh_congr _ pivots <;> rfl
  simp only [refresh, same]

theorem refresh_refresh (db : Database) (device : Device) :
    refresh db (refresh db device) = refresh db device := rfl

/-- What a recompute relies on: the memo is right, and no strategy id or cached resolution
is the zero that null is compared as. -/
structure Routable (s : System) : Prop where
  memo : ∀ cached, s.anyEnabledCache = some cached → cached = s.db.anyEnabled
  next : s.db.strategies.nextId ≠ 0
  issued : ∀ strategy ∈ s.db.strategies.rows, strategy.id ≠ 0
  nonzero : ∀ device ∈ s.db.devices.rows, device.strategyIdResolved ≠ some 0

theorem enabledAt_ne_zero {db : Database} (issued : ∀ strategy ∈ db.strategies.rows, strategy.id ≠ 0)
    (level : StrategyLevel) (targetId : Nat) : db.enabledAt level targetId ≠ some 0 := by
  intro h
  obtain ⟨row, _, found⟩ := List.exists_of_findSome?_eq_some h
  split at found
  · obtain ⟨strategy, hs, zero⟩ := Option.map_eq_some_iff.mp found
    have present := (Option.filter_eq_some_iff.mp hs).1
    exact issued strategy (db.strategies.find?_eq_some_iff.mp present).1 zero
  · cases found

theorem resolveAfresh_ne_zero {db : Database}
    (issued : ∀ strategy ∈ db.strategies.rows, strategy.id ≠ 0) (device : Device) :
    resolveAfresh db device ≠ some 0 := by
  rw [resolveAfresh_eq]
  split
  · simp only [Database.byPrecedence]
    cases found : List.findSome? (fun candidate : StrategyLevel × Option Nat =>
        candidate.2.bind (db.enabledAt candidate.1)) _ with
    | some id =>
        obtain ⟨candidate, _, h⟩ := List.exists_of_findSome?_eq_some found
        obtain ⟨targetId, _, h⟩ := Option.bind_eq_some_iff.mp h
        intro zero
        obtain rfl := Option.some.inj zero
        exact enabledAt_ne_zero issued _ _ h
    | none =>
        intro zero
        obtain ⟨strategy, hs, zero⟩ := Option.map_eq_some_iff.mp zero
        exact issued strategy (List.mem_of_find?_eq_some hs) zero
  · exact fun h => by cases h

/-- The system after a recompute of the devices a query selects. -/
def refreshed (s : System) (query : Device → Bool) : System :=
  ⟨{ s.db with devices := s.db.devices.update query (refresh s.db) }, some s.db.anyEnabled⟩

theorem mem_refreshed {s : System} {query : Device → Bool} {device : Device} :
    device ∈ (refreshed s query).db.devices.rows ↔
      ∃ before ∈ s.db.devices.rows,
        (if query before then refresh s.db before else before) = device :=
  List.mem_map

theorem refresh_refreshed (s : System) (query : Device → Bool) :
    refresh (refreshed s query).db = refresh s.db :=
  refresh_devices s.db _

/-- Two recomputes in a row are one, when the second selects by columns no recompute
writes. -/
theorem refreshed_refreshed (s : System) (p q : Device → Bool)
    (stable : ∀ device, q (refresh s.db device) = q device) :
    (refreshed (refreshed s p) q).db = (refreshed s fun device => p device || q device).db := by
  have devices : (refreshed (refreshed s p) q).db.devices =
      (refreshed s fun device => p device || q device).db.devices := by
    refine Table.ext ?_ rfl
    have twice : (s.db.devices.update p (refresh s.db)).update q (refresh s.db) =
        s.db.devices.update (fun device => p device || q device) (refresh s.db) :=
      Table.update_update (refresh_refresh s.db) stable
    calc (refreshed (refreshed s p) q).db.devices.rows
        = ((s.db.devices.update p (refresh s.db)).update q (refresh s.db)).rows := by
          refine List.map_congr_left fun device _ => ?_
          rw [refresh_refreshed]
      _ = (s.db.devices.update (fun device => p device || q device) (refresh s.db)).rows :=
          congrArg Table.rows twice
  exact congrArg (fun devices => { s.db with devices }) devices

theorem Routable.refreshed {s : System} (h : Routable s) (query : Device → Bool) :
    Routable (Strategy.refreshed s query) where
  memo _ hc := (Option.some.inj hc).symm
  next := h.next
  issued := h.issued
  nonzero device hd := by
    obtain ⟨before, hb, rfl⟩ := mem_refreshed.mp hd
    split
    · exact resolveAfresh_ne_zero h.issued before
    · exact h.nonzero before hb

theorem resolve_eq {s : System} (h : Routable s) (device : Device) :
    resolve s device =
      (resolveAfresh s.db device, { s with anyEnabledCache := some s.db.anyEnabled }) := by
  rw [resolveAfresh_eq]
  cases cached : s.anyEnabledCache with
  | none =>
      cases any : s.db.anyEnabled <;> simp [resolve, anyEnabled, cached, any]
  | some any =>
      obtain rfl := h.memo any cached
      have same : { s with anyEnabledCache := some s.db.anyEnabled } = s := by rw [← cached]
      simp only [resolve, anyEnabled, cached, same]
      by_cases any : s.db.anyEnabled = true <;> simp only [any] <;> rfl

/-- The recompute of one device, when the row is the loaded one or already refreshed. -/
theorem syncResolvedFor_eq {s : System} (h : Routable s) {device : Device}
    (nonzero : device.strategyIdResolved ≠ some 0)
    (current : ∀ row ∈ s.db.devices.rows, row.id = device.id →
      row = device ∨ row = refresh s.db device) :
    syncResolvedFor s device = refreshed s fun row => decide (row.id = device.id) := by
  have agrees : ∀ row ∈ s.db.devices.rows, row.id = device.id →
      resolveAfresh s.db row = resolveAfresh s.db device := by
    intro row hr same
    rcases current row hr same with rfl | rfl <;> rfl
  simp only [syncResolvedFor, resolve_eq h, refreshed]
  split
  · simp only [writeResolved, System.withDevices]
    congr 2
    refine Table.update_congr fun row hr => ?_
    split
    · next same => simp only [refresh, agrees row hr (of_decide_eq_true same)]
    · rfl
  · next equal =>
    have unchanged : device.strategyIdResolved = resolveAfresh s.db device := by
      have resolved := resolveAfresh_ne_zero h.issued device
      cases hd : device.strategyIdResolved <;> cases hr : resolveAfresh s.db device <;>
        simp_all
    congr 1
    have same : s.db.devices.update (fun row => decide (row.id = device.id)) (refresh s.db) =
        s.db.devices := by
      refine Table.update_eq_self fun row hr hid => ?_
      rcases current row hr (of_decide_eq_true hid) with rfl | rfl
      · simp only [refresh, ← unchanged]
      · rfl
    rw [same]

/-- The loop visits rows it loaded before: each is still the loaded one, or refreshed. -/
theorem foldl_syncResolvedFor (devices : List Device) {s : System} (h : Routable s)
    (nonzero : ∀ device ∈ devices, device.strategyIdResolved ≠ some 0)
    (current : ∀ device ∈ devices, ∀ row ∈ s.db.devices.rows, row.id = device.id →
      row = device ∨ row = refresh s.db device) :
    (devices.foldl syncResolvedFor s).db =
        (refreshed s fun row => devices.any fun device => row.id = device.id).db ∧
      Routable (devices.foldl syncResolvedFor s) := by
  induction devices generalizing s with
  | nil =>
      have same : s.db.devices.update (fun _ => false) (refresh s.db) = s.db.devices :=
        Table.update_eq_self fun _ _ h => by cases h
      exact ⟨congrArg (fun devices => { s.db with devices }) same.symm, h⟩
  | cons device devices ih =>
      have step := syncResolvedFor_eq h (nonzero device List.mem_cons_self)
        (current device List.mem_cons_self)
      rw [List.foldl_cons, step]
      obtain ⟨folded, routable⟩ := ih (h.refreshed fun row => decide (row.id = device.id))
        (fun d hd => nonzero d (List.mem_cons_of_mem _ hd)) (by
          intro d hd row hrow same
          obtain ⟨before, hb, rfl⟩ := mem_refreshed.mp hrow
          have sameId : before.id = d.id := by split at same <;> exact same
          have known := current d (List.mem_cons_of_mem _ hd) before hb sameId
          rw [refresh_refreshed]
          split
          · rcases known with rfl | rfl <;> exact .inr rfl
          · exact known)
      exact ⟨folded.trans (refreshed_refreshed s _ _ fun _ => rfl), routable⟩

/-- As a whole, a recompute refreshes the column of the devices it selects. -/
theorem recomputeQuery_eq {s : System} (h : Routable s) (query : Device → Bool) :
    (recomputeQuery s query).db = (refreshed s query).db ∧ Routable (recomputeQuery s query) := by
  have own (device : Device) (hd : device ∈ s.db.devices.rows.filter query) :
      device ∈ s.db.devices.rows := List.mem_of_mem_filter hd
  obtain ⟨folded, routable⟩ := foldl_syncResolvedFor (s.db.devices.rows.filter query) h
    (fun device hd => h.nonzero device (own device hd))
    (fun device hd row hrow same => .inl (s.db.devices.eq_of_id_eq hrow (own device hd) same))
  refine ⟨folded.trans ?_, routable⟩
  have selects : s.db.devices.update
      (fun row => (s.db.devices.rows.filter query).any fun device => row.id = device.id)
      (refresh s.db) = s.db.devices.update query (refresh s.db) := by
    refine Table.update_congr fun row hrow => ?_
    have loaded : ((s.db.devices.rows.filter query).any fun device => row.id = device.id) =
        query row := by
      rw [Bool.eq_iff_iff, List.any_eq_true]
      constructor
      · rintro ⟨device, hd, same⟩
        obtain rfl := s.db.devices.eq_of_id_eq hrow (own device hd) (of_decide_eq_true same)
        exact List.of_mem_filter hd
      · intro selected
        exact ⟨row, List.mem_filter.mpr ⟨hrow, selected⟩, by simp⟩
    rw [loaded]
  exact congrArg (fun devices => { s.db with devices }) selects

end Strategy
end CortenDesk
