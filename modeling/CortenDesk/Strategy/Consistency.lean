import Mathlib.Data.List.Find
import CortenDesk.Strategy.Writes

/-!
Every write of a model leaves the cached resolution of every device, of the recycle bin
too, what a fresh resolution computes, and at most one strategy the default. A recompute
restores it for the devices it selects; what remains is that each hook selects every
device whose answer the write may have changed.
-/
namespace CortenDesk

/-- No two strategies outside the recycle bin are the default. -/
def OneDefault (strategies : Table Strategy) : Prop :=
  ∀ a ∈ strategies.rows, ∀ b ∈ strategies.rows, a.trashed = false → b.trashed = false →
    a.isDefault = true → b.isDefault = true → a.id = b.id

structure Consistent (s : System) : Prop where
  routable : Strategy.Routable s
  fresh : ∀ device ∈ s.db.devices.rows,
    device.strategyIdResolved = Strategy.resolveAfresh s.db device
  oneDefault : OneDefault s.db.strategies

/-- What a recompute needs of the state: everything but the answers. -/
structure Settled (s : System) : Prop where
  routable : Strategy.Routable s
  oneDefault : OneDefault s.db.strategies

theorem Consistent.settled {s : System} (h : Consistent s) : Settled s :=
  ⟨h.routable, h.oneDefault⟩

namespace Strategy

/-- Nothing a resolution reads of the database but the devices differs. -/
structure SameRouting (db db' : Database) : Prop where
  strategies : db'.strategies = db.strategies
  pivots : ∀ level, db'.pivot level = db.pivot level

theorem SameRouting.resolveAfresh {db db' : Database} (h : SameRouting db db')
    {device device' : Device} (id : device'.id = device.id)
    (userId : device'.userId = device.userId)
    (deviceGroupId : device'.deviceGroupId = device.deviceGroupId) :
    Strategy.resolveAfresh db' device' = Strategy.resolveAfresh db device :=
  resolveAfresh_congr h.strategies h.pivots id userId deviceGroupId

/-- A write that leaves the strategies alone. -/
theorem Routable.written {s s' : System} (h : Routable s)
    (strategies : s'.db.strategies = s.db.strategies)
    (memo : s'.anyEnabledCache = s.anyEnabledCache)
    (nonzero : ∀ device ∈ s'.db.devices.rows, device.strategyIdResolved ≠ some 0) :
    Routable s' where
  memo cached hc := by
    have any : s'.db.anyEnabled = s.db.anyEnabled := by
      simp only [Database.anyEnabled, strategies]
    rw [any]
    exact h.memo cached (memo ▸ hc)
  next := strategies ▸ h.next
  issued := strategies ▸ h.issued
  nonzero := nonzero

theorem refreshed_sameRouting (s : System) (query : Device → Bool) :
    SameRouting s.db (refreshed s query).db :=
  ⟨rfl, fun level => by cases level <;> rfl⟩

/-- A recompute of every device whose cached answer may be stale. -/
theorem recomputeQuery_consistent {s : System} (h : Settled s) (query : Device → Bool)
    (rest : ∀ device ∈ s.db.devices.rows, query device = false →
      device.strategyIdResolved = resolveAfresh s.db device) :
    Consistent (recomputeQuery s query) := by
  obtain ⟨whole, routable⟩ := recomputeQuery_eq h.routable query
  refine ⟨routable, ?_, ?_⟩
  · rw [whole]
    intro device hd
    obtain ⟨before, hb, rfl⟩ := mem_refreshed.mp hd
    have same : resolveAfresh (refreshed s query).db
        (if query before then refresh s.db before else before) = resolveAfresh s.db before := by
      apply (refreshed_sameRouting s query).resolveAfresh <;> split <;> rfl
    rw [same]
    split
    · rfl
    · next skipped => exact rest before hb (by simpa using skipped)
  · rw [whole]
    exact h.oneDefault

theorem recomputeAll_consistent {s : System} (h : Settled s) : Consistent (recomputeAll s) :=
  recomputeQuery_consistent h _ fun _ _ skipped => by cases skipped

/-- The recompute of one device that its write made stale. -/
theorem syncResolvedFor_consistent {s : System} (h : Settled s) {device : Device}
    (mem : device ∈ s.db.devices.rows)
    (rest : ∀ row ∈ s.db.devices.rows, row.id ≠ device.id →
      row.strategyIdResolved = resolveAfresh s.db row) :
    Consistent (syncResolvedFor s device) := by
  have one : syncResolvedFor s device =
      recomputeQuery s fun row => decide (row.id = device.id) := by
    have selected : s.db.devices.rows.filter (fun row => decide (row.id = device.id)) =
        [device] := s.db.devices.filter_id_eq mem
    simp only [recomputeQuery, selected, List.foldl_cons, List.foldl_nil]
  rw [one]
  refine recomputeQuery_consistent h _ fun row hr skipped => ?_
  exact rest row hr (of_decide_eq_false skipped)

theorem setPivot_pivot (db : Database) (level level' : StrategyLevel) (rows : List (Nat × Nat)) :
    (db.setPivot level rows).pivot level' = if level' = level then rows else db.pivot level' := by
  cases level <;> cases level' <;> rfl

theorem setPivot_strategies (db : Database) (level : StrategyLevel) (rows : List (Nat × Nat)) :
    (db.setPivot level rows).strategies = db.strategies ∧
      (db.setPivot level rows).devices = db.devices := by
  cases level <;> exact ⟨rfl, rfl⟩

theorem findSome?_eq_filter {α β : Type} (p : α → Prop) [DecidablePred p] (f : α → Option β)
    (l : List α) :
    (l.findSome? fun a => if p a then f a else none) =
      (l.filter fun a => decide (p a)).findSome? f := by
  induction l with
  | nil => rfl
  | cons a l ih =>
      by_cases h : p a
      · simp only [List.findSome?_cons, if_pos h, List.filter_cons, decide_eq_true h, if_true, ih]
      · simp only [List.findSome?_cons, if_neg h, List.filter_cons, decide_eq_false h, ih]
        rfl

/-- One level's answer for a target depends on the rows of that target. -/
theorem enabledAt_congr {db db' : Database} (strategies : db'.strategies = db.strategies)
    {level : StrategyLevel} {targetId : Nat}
    (rows : ((db'.pivot level).filter fun row => decide (row.1 = targetId)) =
      (db.pivot level).filter fun row => decide (row.1 = targetId)) :
    db'.enabledAt level targetId = db.enabledAt level targetId := by
  simp only [Database.enabledAt, findSome?_eq_filter, rows, strategies]

/-- What an assignment does to the database before it recomputes. -/
theorem attach_unassign (s : System) (level : StrategyLevel) (targetId : Nat)
    (strategyId : Option Nat) :
    attach (unassign s level targetId) level targetId strategyId =
      { s with
        db := s.db.setPivot level
          (((s.db.pivot level).filter fun row => row.1 ≠ targetId) ++
            (strategyId.map fun id => (targetId, id)).toList) } := by
  cases strategyId with
  | none => simp [attach, unassign]
  | some id => cases level <;> rfl

/-- An assignment of one target leaves the other targets' rows. -/
theorem assigned_rows (db : Database) {level level' : StrategyLevel} {targetId targetId' : Nat}
    (other : ¬ (level' = level ∧ targetId' = targetId)) (strategyId : Option Nat) :
    (((db.setPivot level (((db.pivot level).filter fun row => row.1 ≠ targetId) ++
        (strategyId.map fun id => (targetId, id)).toList)).pivot level').filter
          fun row => decide (row.1 = targetId')) =
      (db.pivot level').filter fun row => decide (row.1 = targetId') := by
  rw [setPivot_pivot]
  split
  · next same =>
    subst same
    have differs : targetId ≠ targetId' := fun h => other ⟨rfl, h.symm⟩
    have none : ((strategyId.map fun id => (targetId, id)).toList.filter
        fun row => decide (row.1 = targetId')) = [] := by
      cases strategyId <;> simp [differs]
    rw [List.filter_append, none, List.append_nil, List.filter_filter]
    refine List.filter_congr fun row _ => ?_
    by_cases h : row.1 = targetId'
    · simp [h, Ne.symm differs]
    · simp [h]
  · rfl

/-- What a level of a device's resolution looks up. -/
def target (device : Device) : StrategyLevel → Option Nat
  | .device => some device.id
  | .user => device.userId
  | .deviceGroup => device.deviceGroupId

/-- A device's resolution reads the rows of its own targets. -/
theorem resolveAfresh_congr_targets {db db' : Database}
    (strategies : db'.strategies = db.strategies) {device : Device}
    (levels : ∀ level targetId, target device level = some targetId →
      db'.enabledAt level targetId = db.enabledAt level targetId) :
    resolveAfresh db' device = resolveAfresh db device := by
  have candidate (level : StrategyLevel) :
      (target device level).bind (db'.enabledAt level) =
        (target device level).bind (db.enabledAt level) := by
    cases ht : target device level with
    | none => rfl
    | some targetId => exact levels level targetId ht
  have walk : db'.byPrecedence device = db.byPrecedence device := by
    have device' := candidate .device
    have user := candidate .user
    have group := candidate .deviceGroup
    simp only [target] at device' user group
    simp only [Database.byPrecedence, Database.defaultStrategy, strategies, List.findSome?_cons,
      device', user, group, List.findSome?_nil]
  simp only [resolveAfresh_eq, Database.anyEnabled, strategies, walk]
  rfl

theorem recomputeForLevel_eq (s : System) (level : StrategyLevel) (targetId : Nat) :
    recomputeForLevel s level targetId =
      recomputeQuery s fun device => decide (target device level = some targetId) := by
  cases level with
  | device => simp only [recomputeForLevel, target, Option.some.injEq]
  | user => rfl
  | deviceGroup => rfl

theorem assignTo_consistent {s : System} (h : Consistent s) (level : StrategyLevel)
    (targetId : Nat) (strategyId : Option Nat) :
    Consistent (assignTo s level targetId strategyId) := by
  rw [assignTo, attach_unassign, recomputeForLevel_eq]
  have same := setPivot_strategies s.db level
    (((s.db.pivot level).filter fun row => row.1 ≠ targetId) ++
      (strategyId.map fun id => (targetId, id)).toList)
  refine recomputeQuery_consistent ⟨?_, same.1 ▸ h.oneDefault⟩ _ ?_
  · refine h.routable.written same.1 rfl ?_
    simp only [same.2]
    exact h.routable.nonzero
  · intro device hd skipped
    simp only [same.2] at hd
    rw [h.fresh device hd]
    refine (resolveAfresh_congr_targets same.1 fun level' targetId' ht => ?_).symm
    refine enabledAt_congr same.1 (assigned_rows s.db ?_ strategyId)
    rintro ⟨rfl, rfl⟩
    exact of_decide_eq_false skipped ht

/-- A write that leaves the routing and every row's answer alone. -/
theorem consistent_of_rows {s s' : System} (h : Consistent s) (routing : SameRouting s.db s'.db)
    (memo : s'.anyEnabledCache = s.anyEnabledCache)
    (rows : ∀ device ∈ s'.db.devices.rows, ∃ before ∈ s.db.devices.rows,
      device.strategyIdResolved = before.strategyIdResolved ∧ device.id = before.id ∧
        device.userId = before.userId ∧ device.deviceGroupId = before.deviceGroupId) :
    Consistent s' where
  routable := by
    refine h.routable.written routing.strategies memo fun device hd => ?_
    obtain ⟨before, hb, resolved, _⟩ := rows device hd
    exact resolved ▸ h.routable.nonzero before hb
  fresh device hd := by
    obtain ⟨before, hb, resolved, id, userId, deviceGroupId⟩ := rows device hd
    rw [resolved, h.fresh before hb, routing.resolveAfresh id userId deviceGroupId]
  oneDefault := routing.strategies ▸ h.oneDefault

/-- An update of devices that leaves the cached column alone. -/
theorem nonzero_update {devices : Table Device}
    (nonzero : ∀ device ∈ devices.rows, device.strategyIdResolved ≠ some 0)
    {p : Device → Bool} {f : Device → Device}
    (resolved : ∀ row, (f row).strategyIdResolved = row.strategyIdResolved) :
    ∀ device ∈ devices.rows.map (fun row => if p row then f row else row),
      device.strategyIdResolved ≠ some 0 := by
  intro device hd
  obtain ⟨before, hb, rfl⟩ := List.mem_map.mp hd
  split
  · rw [resolved]
    exact nonzero before hb
  · exact nonzero before hb

end Strategy

namespace Device

theorem withDevices_sameRouting (s : System) (devices : Table Device) :
    Strategy.SameRouting s.db (s.withDevices devices).db :=
  ⟨rfl, fun level => by cases level <;> rfl⟩

theorem mem_created {s : System} {attributes : Attributes} {device : Device} :
    device ∈ (s.withDevices (s.db.devices.insert attributes.row)).db.devices.rows ↔
      device ∈ s.db.devices.rows ∨ device = attributes.row s.db.devices.nextId := by
  simp [System.withDevices, Table.insert]

theorem create_consistent {s : System} (h : Consistent s) (attributes : Attributes) :
    Consistent (create s attributes) := by
  have routing := withDevices_sameRouting s (s.db.devices.insert attributes.row)
  have routable : Strategy.Routable (s.withDevices (s.db.devices.insert attributes.row)) := by
    refine h.routable.written rfl rfl fun device hd => ?_
    rcases mem_created.mp hd with old | new
    · exact h.routable.nonzero device old
    · rw [new]
      exact fun none => by cases none
  refine Strategy.syncResolvedFor_consistent ⟨routable, h.oneDefault⟩
    (mem_created.mpr (.inr rfl)) fun row hr other => ?_
  · rcases mem_created.mp hr with old | new
    · rw [h.fresh row old, routing.resolveAfresh rfl rfl rfl]
    · exact absurd (congrArg Device.id new) other

theorem mem_write {s : System} {device : Device} {change : Device → Device}
    {keeps : ∀ row, Row.id (change row) = Row.id row} {row : Device} :
    row ∈ (write s device change keeps).db.devices.rows ↔
      ∃ before ∈ s.db.devices.rows,
        (if decide (before.id = device.id) then change before else before) = row :=
  List.mem_map

theorem write_routable {s : System} (h : Strategy.Routable s) (device : Device)
    {change : Device → Device} {keeps : ∀ row, Row.id (change row) = Row.id row}
    (resolved : ∀ row, (change row).strategyIdResolved = row.strategyIdResolved) :
    Strategy.Routable (write s device change keeps) :=
  h.written rfl rfl (Strategy.nonzero_update h.nonzero resolved)

theorem update_consistent {s : System} (h : Consistent s) {device : Device}
    (mem : device ∈ s.db.devices.rows) {change : Device → Device}
    {keeps : ∀ row, Row.id (change row) = Row.id row}
    (resolved : ∀ row, (change row).strategyIdResolved = row.strategyIdResolved) :
    Consistent (update s device change keeps) := by
  have routing : Strategy.SameRouting s.db (write s device change keeps).db :=
    withDevices_sameRouting s _
  have changedId : (change device).id = device.id := keeps device
  simp only [update]
  split
  · refine Strategy.syncResolvedFor_consistent
      ⟨write_routable h.routable device resolved, h.oneDefault⟩
      (mem_write.mpr ⟨device, mem, by simp⟩) fun row hr other => ?_
    obtain ⟨before, hb, rfl⟩ := mem_write.mp hr
    rw [changedId] at other
    split
    · next selected =>
      rw [if_pos selected] at other
      have kept : (change before).id = before.id := keeps before
      exact absurd (kept.trans (of_decide_eq_true selected)) other
    · rw [h.fresh before hb, routing.resolveAfresh rfl rfl rfl]
  · next unmoved =>
    refine Strategy.consistent_of_rows h routing rfl fun row hr => ?_
    obtain ⟨before, hb, rfl⟩ := mem_write.mp hr
    refine ⟨before, hb, ?_⟩
    split
    · next selected =>
      obtain rfl := s.db.devices.eq_of_id_eq hb mem (of_decide_eq_true selected)
      have stays := not_or.mp unmoved
      exact ⟨resolved _, keeps _, not_not.mp stays.1, not_not.mp stays.2⟩
    · exact ⟨rfl, rfl, rfl, rfl⟩

/-- A write of columns that no resolution reads. -/
theorem write_consistent {s : System} (h : Consistent s) (device : Device)
    {change : Device → Device} {keeps : ∀ row, Row.id (change row) = Row.id row}
    (unread : ∀ row, (change row).strategyIdResolved = row.strategyIdResolved ∧
      (change row).id = row.id ∧ (change row).userId = row.userId ∧
      (change row).deviceGroupId = row.deviceGroupId) :
    Consistent (write s device change keeps) := by
  refine Strategy.consistent_of_rows h (withDevices_sameRouting s _) rfl fun row hr => ?_
  obtain ⟨before, hb, rfl⟩ := mem_write.mp hr
  refine ⟨before, hb, ?_⟩
  split
  · exact unread before
  · exact ⟨rfl, rfl, rfl, rfl⟩

theorem delete_consistent {s : System} (h : Consistent s) (device : Device) :
    Consistent (delete s device) :=
  write_consistent h device fun _ => ⟨rfl, rfl, rfl, rfl⟩

theorem restore_consistent {s : System} (h : Consistent s) (device : Device) :
    Consistent (restore s device) :=
  write_consistent h device fun _ => ⟨rfl, rfl, rfl, rfl⟩

/-- The pivot row that goes with a device is read for that device alone. -/
theorem forceDelete_consistent {s : System} (h : Consistent s) (device : Device) :
    Consistent (forceDelete s device) where
  routable := ⟨h.routable.memo, h.routable.next, h.routable.issued,
    fun row hr => h.routable.nonzero row (Table.mem_delete.mp hr).1⟩
  fresh row hr := by
    obtain ⟨kept, other⟩ := Table.mem_delete.mp hr
    have differs : row.id ≠ device.id := of_decide_eq_false other
    have same : Strategy.resolveAfresh (forceDelete s device).db row =
        Strategy.resolveAfresh s.db row := by
      have strategies : (forceDelete s device).db.strategies = s.db.strategies := rfl
      apply Strategy.resolveAfresh_congr_targets strategies
      intro level targetId ht
      apply Strategy.enabledAt_congr strategies
      cases level with
      | device =>
          obtain rfl := Option.some.inj ht
          refine (List.filter_filter ..).trans (List.filter_congr fun pair _ => ?_)
          by_cases own : pair.1 = row.id
          · simp [own, differs]
          · simp [own]
      | user => rfl
      | deviceGroup => rfl
    rw [h.fresh row kept, same]
  oneDefault := h.oneDefault

end Device

namespace Strategy

/-- After a full recompute nothing depends on what the write did to the devices, the
owners, the folders and the pivots. -/
theorem recomputeAll_written {s s' : System} (h : Settled s)
    (strategies : s'.db.strategies = s.db.strategies)
    (memo : s'.anyEnabledCache = s.anyEnabledCache)
    (nonzero : ∀ device ∈ s'.db.devices.rows, device.strategyIdResolved ≠ some 0) :
    Consistent (recomputeAll s') :=
  recomputeAll_consistent ⟨h.routable.written strategies memo nonzero, strategies ▸ h.oneDefault⟩

/-- A process without a memo has no wrong one. -/
theorem Routable.forgetful {s : System} (memo : s.anyEnabledCache = none)
    (next : s.db.strategies.nextId ≠ 0) (issued : ∀ row ∈ s.db.strategies.rows, row.id ≠ 0)
    (nonzero : ∀ device ∈ s.db.devices.rows, device.strategyIdResolved ≠ some 0) :
    Routable s :=
  ⟨fun cached hc => absurd (memo.symm.trans hc) (Option.some_ne_none cached).symm, next, issued,
    nonzero⟩

theorem flushCache_consistent {s : System} (h : Consistent s) : Consistent (flushCache s) :=
  ⟨.forgetful rfl h.routable.next h.routable.issued h.routable.nonzero, h.fresh, h.oneDefault⟩

/-- Of a strategy, a resolution reads the id and three flags. -/
theorem resolveAfresh_congr_flags {db db' : Database}
    (pivots : ∀ level, db'.pivot level = db.pivot level) {f : Strategy → Strategy}
    (rows : db'.strategies.rows = db.strategies.rows.map f)
    (flags : ∀ row ∈ db.strategies.rows, (f row).id = row.id ∧ (f row).enabled = row.enabled ∧
      (f row).isDefault = row.isDefault ∧ (f row).trashed = row.trashed) (device : Device) :
    resolveAfresh db' device = resolveAfresh db device := by
  have lookup (id : Nat) : db'.strategies.find? id = (db.strategies.find? id).map f := by
    have same : ∀ row ∈ db.strategies.rows, decide ((f row).id = id) = decide (row.id = id) :=
      fun row hr => by rw [(flags row hr).1]
    calc db'.strategies.find? id
        = (db.strategies.rows.find? fun row => decide ((f row).id = id)).map f := by
          simp only [Table.find?, rows, List.find?_map]
          rfl
      _ = (db.strategies.find? id).map f := congrArg (Option.map f) (List.find?_congr same)
  have levels : db'.enabledAt = db.enabledAt := by
    funext level targetId
    simp only [Database.enabledAt, pivots, lookup]
    congr 1
    funext row
    split
    · cases found : db.strategies.find? row.2 with
      | none => rfl
      | some strategy =>
          obtain ⟨id, enabled, _, _⟩ :=
            flags strategy (db.strategies.find?_eq_some_iff.mp found).1
          simp only [Option.map_some, Option.filter_some, enabled]
          split
          · exact congrArg some id
          · rfl
    · rfl
  have default : db'.defaultStrategy = db.defaultStrategy := by
    simp only [Database.defaultStrategy, rows, List.find?_map, Option.map_map]
    have same : ∀ row ∈ db.strategies.rows,
        ((fun row : Strategy => ! row.trashed && row.isDefault && row.enabled) ∘ f) row =
          (! row.trashed && row.isDefault && row.enabled) := by
      intro row hr
      obtain ⟨_, enabled, isDefault, trashed⟩ := flags row hr
      simp only [Function.comp_apply, enabled, isDefault, trashed]
    rw [List.find?_congr same]
    cases found : db.strategies.rows.find? _ with
    | none => rfl
    | some strategy => exact congrArg some (flags strategy (List.mem_of_find?_eq_some found)).1
  have any : db'.anyEnabled = db.anyEnabled := by
    simp only [Database.anyEnabled, rows, List.any_map]
    rw [Bool.eq_iff_iff, List.any_eq_true, List.any_eq_true]
    refine exists_congr fun row => and_congr_right fun hr => ?_
    obtain ⟨_, enabled, _, trashed⟩ := flags row hr
    simp only [Function.comp_apply, enabled, trashed]
  simp only [resolveAfresh_eq, Database.byPrecedence, levels, default, any]

theorem displaceDefault_oneDefault (s : System) (id : Nat) :
    OneDefault (displaceDefault s id).db.strategies := by
  have only : ∀ row ∈ (displaceDefault s id).db.strategies.rows, row.trashed = false →
      row.isDefault = true → row.id = id := by
    intro row hr kept isDefault
    obtain ⟨before, _, rfl⟩ := List.mem_map.mp hr
    by_contra other
    by_cases selected : (! before.trashed && decide (before.id ≠ id) && before.isDefault) = true
    · simp only [if_pos selected] at isDefault
      cases isDefault
    · simp only [if_neg selected] at kept isDefault other
      simp [kept, isDefault, other] at selected
  intro a ha b hb keptA keptB defaultA defaultB
  rw [only a ha keptA defaultA, only b hb keptB defaultB]

/-- The hook of a saved strategy: what it does not recompute was fresh already, and what
it does not displace was the only default. -/
theorem saved_consistent {s : System} {strategy : Strategy}
    {created changedEnabled changedDefault : Bool} (next : s.db.strategies.nextId ≠ 0)
    (issued : ∀ row ∈ s.db.strategies.rows, row.id ≠ 0)
    (nonzero : ∀ device ∈ s.db.devices.rows, device.strategyIdResolved ≠ some 0)
    (undisplaced : (strategy.isDefault && (created || changedDefault)) = false →
      OneDefault s.db.strategies)
    (unrecomputed : (created || changedEnabled || changedDefault) = false →
      ∀ device ∈ s.db.devices.rows, device.strategyIdResolved = resolveAfresh s.db device) :
    Consistent (saved s strategy created changedEnabled changedDefault) := by
  have flushed : Routable (flushCache s) := .forgetful rfl next issued nonzero
  simp only [saved]
  by_cases displaces : (strategy.isDefault && (created || changedDefault)) = true
  · have recomputes : (created || changedEnabled || changedDefault) = true := by
      cases created <;> cases changedDefault <;> simp_all
    simp only [if_pos displaces, if_pos recomputes]
    refine recomputeAll_consistent ⟨.forgetful rfl next ?_ nonzero,
      displaceDefault_oneDefault _ _⟩
    intro row hr
    obtain ⟨before, hb, rfl⟩ := List.mem_map.mp hr
    split <;> exact issued before hb
  · have oneDefault := undisplaced (Bool.eq_false_iff.mpr displaces)
    simp only [if_neg displaces]
    split
    · exact recomputeAll_consistent ⟨flushed, oneDefault⟩
    · next quiet => exact ⟨flushed, unrecomputed (Bool.eq_false_iff.mpr quiet), oneDefault⟩

/-- A row that is no default joins. -/
theorem insert_oneDefault {strategies : Table Strategy} (h : OneDefault strategies)
    {make : Nat → Strategy} (plain : (make strategies.nextId).isDefault = false)
    (given : ∀ n, Row.id (make n) = n := by intro _; rfl) :
    OneDefault (strategies.insert make given) := by
  have old : ∀ row ∈ (strategies.insert make given).rows, row.isDefault = true →
      row ∈ strategies.rows := by
    intro row hr isDefault
    rcases Table.mem_insert.mp hr with old | rfl
    · exact old
    · exact absurd (plain.symm.trans isDefault) Bool.false_ne_true
  intro a ha b hb keptA keptB defaultA defaultB
  exact h a (old a ha defaultA) b (old b hb defaultB) keptA keptB defaultA defaultB

/-- A row is changed that does not become the default. -/
theorem update_oneDefault {strategies : Table Strategy} (h : OneDefault strategies)
    {strategy : Strategy} (mem : strategy ∈ strategies.rows) {change : Strategy → Strategy}
    (keeps : ∀ row, Row.id (change row) = Row.id row)
    (trashed : ∀ row, (change row).trashed = row.trashed)
    (stays : (change strategy).isDefault = true → strategy.isDefault = true) :
    OneDefault (strategies.update (fun row => decide (row.id = strategy.id)) change keeps) := by
  have old : ∀ row ∈ strategies.rows,
      (if decide (row.id = strategy.id) = true then change row else row).isDefault = true →
        row.isDefault = true := by
    intro row hr isDefault
    split at isDefault
    · next same =>
      obtain rfl := strategies.eq_of_id_eq hr mem (of_decide_eq_true same)
      exact stays isDefault
    · exact isDefault
  have id (row : Strategy) :
      (if decide (row.id = strategy.id) = true then change row else row).id = row.id := by
    split
    · exact keeps row
    · rfl
  have kept (row : Strategy) :
      (if decide (row.id = strategy.id) = true then change row else row).trashed =
        row.trashed := by
    split
    · exact trashed row
    · rfl
  intro a ha b hb keptA keptB defaultA defaultB
  obtain ⟨beforeA, oldA, rfl⟩ := Table.mem_update.mp ha
  obtain ⟨beforeB, oldB, rfl⟩ := Table.mem_update.mp hb
  rw [kept] at keptA keptB
  rw [id, id]
  exact h beforeA oldA beforeB oldB keptA keptB (old beforeA oldA defaultA)
    (old beforeB oldB defaultB)

theorem create_consistent {s : System} (h : Consistent s) (form : Form) :
    Consistent (create s form) := by
  simp only [create]
  refine saved_consistent (s := { s with db.strategies := s.db.strategies.insert form.row })
    (Nat.succ_ne_zero _) (fun row hr => ?_) h.routable.nonzero (fun plain => ?_) fun quiet => ?_
  · rcases List.mem_append.mp hr with old | new
    · exact h.routable.issued row old
    · rw [List.mem_singleton.mp new]
      exact h.routable.next
  · exact insert_oneDefault h.oneDefault (by simpa [Form.row] using plain)
  · cases quiet

theorem update_consistent {s : System} (h : Consistent s) {strategy : Strategy}
    (mem : strategy ∈ s.db.strategies.rows) {change : Strategy → Strategy}
    {keeps : ∀ row, Row.id (change row) = Row.id row}
    (trashed : ∀ row, (change row).trashed = row.trashed) :
    Consistent (update s strategy change keeps) := by
  have written : ∀ row ∈ s.db.strategies.rows, decide (row.id = strategy.id) = true →
      row = strategy :=
    fun row hr same => s.db.strategies.eq_of_id_eq hr mem (of_decide_eq_true same)
  refine saved_consistent h.routable.next (fun row hr => ?_) h.routable.nonzero
    (fun undisplaced => ?_) (fun quiet => ?_)
  · obtain ⟨before, hb, rfl⟩ := List.mem_map.mp hr
    split
    · exact fun zero => h.routable.issued before hb ((keeps before).symm.trans zero)
    · exact h.routable.issued before hb
  · refine update_oneDefault h.oneDefault mem keeps trashed fun now => ?_
    simpa [now] using undisplaced
  · intro device hd
    have unchanged : (change strategy).enabled = strategy.enabled ∧
        (change strategy).isDefault = strategy.isDefault := by
      simpa [and_comm] using quiet
    refine (h.fresh device hd).trans (resolveAfresh_congr_flags (fun level => ?_) rfl
      (fun row hr => ?_) device).symm
    · cases level <;> rfl
    · split
      · next same =>
        obtain rfl := written row hr same
        exact ⟨keeps row, unchanged.1, unchanged.2, trashed row⟩
      · exact ⟨rfl, rfl, rfl, rfl⟩

theorem delete_consistent {s : System} (h : Consistent s) (strategy : Strategy)
    (deletedAt : String) : Consistent (delete s strategy deletedAt) := by
  refine recomputeAll_consistent ⟨.forgetful rfl h.routable.next (fun row hr => ?_)
    h.routable.nonzero, fun a ha b hb keptA keptB defaultA defaultB => ?_⟩
  · obtain ⟨before, hb, rfl⟩ := List.mem_map.mp hr
    split <;> exact h.routable.issued before hb
  · obtain ⟨beforeA, oldA, rfl⟩ := List.mem_map.mp ha
    obtain ⟨beforeB, oldB, rfl⟩ := List.mem_map.mp hb
    split at keptA
    · cases keptA
    · split at keptB
      · cases keptB
      · next otherA otherB =>
        rw [if_neg otherA] at defaultA ⊢
        rw [if_neg otherB] at defaultB ⊢
        exact h.oneDefault beforeA oldA beforeB oldB keptA keptB defaultA defaultB

end Strategy

namespace Device

/-- What the query builder leaves: the strategies and the memo, not the answers. -/
theorem updateWhere_settled {s : System} (h : Settled s) {query : Device → Bool}
    {change : Device → Device} {keeps : ∀ row, Row.id (change row) = Row.id row}
    (resolved : ∀ row, (change row).strategyIdResolved = row.strategyIdResolved) :
    Settled (updateWhere s query change keeps) :=
  ⟨h.routable.written rfl rfl (Strategy.nonzero_update h.routable.nonzero resolved), h.oneDefault⟩

/-- An update of one device leaves the rows of the others. -/
theorem mem_update_of_ne {s : System} (h : Strategy.Routable s) {device row : Device}
    (mem : device ∈ s.db.devices.rows) (hr : row ∈ s.db.devices.rows) (other : row.id ≠ device.id)
    {change : Device → Device} {keeps : ∀ row, Row.id (change row) = Row.id row}
    (resolved : ∀ row, (change row).strategyIdResolved = row.strategyIdResolved) :
    row ∈ (update s device change keeps).db.devices.rows := by
  have written : row ∈ (write s device change keeps).db.devices.rows :=
    mem_write.mpr ⟨row, hr, if_neg (by simpa using other)⟩
  have routable : Strategy.Routable (write s device change keeps) :=
    write_routable h device resolved
  simp only [update]
  split
  · have changed : change device ∈ (write s device change keeps).db.devices.rows :=
      mem_write.mpr ⟨device, mem, by simp⟩
    rw [Strategy.syncResolvedFor_eq routable (routable.nonzero _ changed) fun row' hr' same =>
      .inl ((write s device change keeps).db.devices.eq_of_id_eq hr' changed same)]
    refine Strategy.mem_refreshed.mpr ⟨row, written, if_neg ?_⟩
    have changedId : (change device).id = device.id := keeps device
    simpa only [decide_eq_true_eq, changedId] using other
  · exact written

end Device

theorem User.releaseDevices_settled {s : System} (h : Settled s) (id : Nat) :
    Settled (User.releaseDevices s id) :=
  Device.updateWhere_settled h fun _ => rfl

theorem User.delete_consistent {s : System} (h : Settled s) (nulls : Bool) (id : Nat) :
    Consistent (User.delete nulls s id) :=
  Strategy.recomputeAll_written h rfl rfl
    (Strategy.nonzero_update h.routable.nonzero fun _ => rfl)

theorem DeviceGroup.releaseDevices_settled {s : System} (h : Settled s) (id : Nat) :
    Settled (DeviceGroup.releaseDevices s id) :=
  Device.updateWhere_settled h fun _ => rfl

theorem DeviceGroup.delete_consistent {s : System} (h : Settled s) (nulls : Bool) (id : Nat) :
    Consistent (DeviceGroup.delete nulls s id) :=
  Strategy.recomputeAll_written h rfl rfl
    (Strategy.nonzero_update h.routable.nonzero fun _ => rfl)

/-- An installation with no devices and no strategies yet, whatever its accounts, groups
and assignments. -/
def Database.fleetless (db : Database) : System :=
  { db := { db with devices := .empty, strategies := .empty } }

theorem Consistent.fleetless (db : Database) : Consistent db.fleetless where
  routable := .forgetful rfl Nat.one_ne_zero (fun _ h => nomatch h) (fun _ h => nomatch h)
  fresh _ h := nomatch h
  oneDefault _ h := nomatch h

end CortenDesk
