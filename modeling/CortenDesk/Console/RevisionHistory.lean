import CortenDesk.Console.StrategyHistory
import CortenDesk.Lib.Runs
import CortenDesk.Strategy.Consistency

/-!
The revision history as a record of the strategies: numbered from one without a gap, only
ever extended, and for each strategy outside the recycle bin with its last state as the
active revision. A save leaves some strategies ahead of their revisions, which the captures
that follow it bring up to date one by one.
-/
namespace CortenDesk
open Php Strategy

namespace StrategyHistory
variable {column : JsonColumn}

/-- The record is right, but for the strategies a call has written and not captured yet. -/
structure Recorded (h : StrategyHistory) (pending : Nat → Prop) : Prop where
  numbered : ∀ id, (h.revisionsOf id).map StrategyRevision.revision =
    List.range' 1 (h.revisionsOf id).length
  active : ∀ row ∈ h.system.db.strategies.rows, row.trashed = false → ¬ pending row.id →
    ∀ revisionId, h.active row.id = some revisionId →
      ∃ revision ∈ h.revisions.rows, revision.id = revisionId ∧
        revision.strategyId = row.id ∧ revision.snapshot.holds row.snapshot
  oneDefault : OneDefault h.system.db.strategies
  issued : ∀ row ∈ h.system.db.strategies.rows, row.id ≠ 0
  next : h.system.db.strategies.nextId ≠ 0

theorem Recorded.mono {h : StrategyHistory} {pending pending' : Nat → Prop}
    (recorded : Recorded h pending) (fewer : ∀ id, pending id → pending' id) :
    Recorded h pending' :=
  { recorded with
    active := fun row hr kept done => recorded.active row hr kept fun waits => done (fewer _ waits) }

theorem max?_range' (n : Nat) : (List.range' 1 n).max?.getD 0 = n := by
  cases n with
  | zero => rfl
  | succ n =>
      have top : (List.range' 1 (n + 1)).max? = some (n + 1) := by
        rw [List.max?_eq_some_iff]
        constructor
        · rw [List.mem_range'_1]
          omega
        · intro m hm
          rw [List.mem_range'_1] at hm
          omega
      rw [top]
      rfl

theorem nextRevision_eq {h : StrategyHistory} {pending : Nat → Prop} (recorded : Recorded h pending)
    (id : Nat) : h.nextRevision id = (h.revisionsOf id).length + 1 := by
  rw [nextRevision, recorded.numbered id, max?_range']

theorem holds_stored (column : JsonColumn) (snapshot : Strategy.Snapshot) :
    (stored column snapshot).holds snapshot := by
  simp [StoredSnapshot.holds, stored]

theorem revisionsOf_insert (h : StrategyHistory) (make : Nat → StrategyRevision)
    (given : ∀ n, Row.id (make n) = n) (active : Nat → Option Nat) (id : Nat) :
    revisionsOf { h with revisions := h.revisions.insert make given, active } id =
      h.revisionsOf id ++
        if (make h.revisions.nextId).strategyId = id then [make h.revisions.nextId] else [] := by
  simp only [revisionsOf, Table.insert, List.filter_append, List.filter_singleton,
    Bool.cond_decide]

/-- A capture is a revision more, for one strategy. -/
structure Captured (h h' : StrategyHistory) (strategyId : Nat) : Prop where
  system : h'.system = h.system
  revisions : h.revisions.rows <+: h'.revisions.rows
  active : ∀ id, id ≠ strategyId → h'.active id = h.active id

/-- A revision of the current state, numbered next and made active. -/
theorem recorded_insert {h : StrategyHistory} {pending : Nat → Prop}
    (recorded : Recorded h pending) {strategy : Strategy}
    (mem : strategy ∈ h.system.db.strategies.rows) {make : Nat → StrategyRevision}
    (given : ∀ n, Row.id (make n) = n) (strategyId : ∀ n, (make n).strategyId = strategy.id)
    (revision : ∀ n, (make n).revision = h.nextRevision strategy.id)
    (snapshot : ∀ n, (make n).snapshot.holds strategy.snapshot) :
    Recorded { h with
      revisions := h.revisions.insert make given
      active := Function.update h.active strategy.id (some h.revisions.nextId) }
      fun id => pending id ∧ id ≠ strategy.id where
  numbered id := by
    rw [revisionsOf_insert, strategyId]
    split
    · next own =>
      subst own
      rw [List.map_append, recorded.numbered, List.map_singleton, revision,
        nextRevision_eq recorded, List.length_append, List.length_singleton, List.range'_concat]
      congr 2
      omega
    · rw [List.append_nil]
      exact recorded.numbered id
  active row hr kept done revisionId is := by
    by_cases own : row.id = strategy.id
    · obtain rfl := h.system.db.strategies.eq_of_id_eq hr mem own
      simp only [Function.update_self] at is
      obtain rfl := Option.some.inj is
      exact ⟨make h.revisions.nextId, List.mem_append_right _ (List.mem_singleton_self _), given _,
        strategyId _, snapshot _⟩
    · simp only [Function.update_of_ne own] at is
      have before : ¬ pending row.id := fun waits => done ⟨waits, own⟩
      obtain ⟨earlier, present, rest⟩ := recorded.active row hr kept before revisionId is
      exact ⟨earlier, List.mem_append_left _ present, rest⟩
  oneDefault := recorded.oneDefault
  issued := recorded.issued
  next := recorded.next

theorem record_recorded {h h' : StrategyHistory} {pending : Nat → Prop}
    (recorded : Recorded h pending) {strategyId userId : Nat} {changeNote : String}
    (done : record column h strategyId userId changeNote = some h') :
    Recorded h' (fun id => pending id ∧ id ≠ strategyId) ∧ Captured h h' strategyId := by
  obtain ⟨strategy, found, done⟩ := Option.bind_eq_some_iff.mp done
  obtain ⟨mem, rfl⟩ := h.system.db.strategies.find?_eq_some_iff.mp
    (Option.filter_eq_some_iff.mp found).1
  split at done
  · cases done
  · obtain rfl := Option.some.inj done
    refine ⟨?_, rfl, List.prefix_append _ _, fun id other => ?_⟩
    · exact recorded_insert recorded mem _ (fun _ => rfl) (fun _ => rfl)
        fun _ => holds_stored column strategy.snapshot
    · exact Function.update_of_ne other _ _

theorem recomputeAll_strategies (s : System) :
    (recomputeAll s).db.strategies = s.db.strategies := by
  obtain ⟨devices, same, _⟩ := recached_recomputeAll s
  rw [same]

/-- What the hook of a saved strategy does to the strategies: it displaces other defaults. -/
theorem mem_saved {s : System} {strategy row : Strategy} {created changedEnabled changedDefault : Bool}
    (mem : row ∈ (saved s strategy created changedEnabled changedDefault).db.strategies.rows) :
    row ∈ s.db.strategies.rows ∨ strategy.isDefault = true ∧
      ∃ before ∈ s.db.strategies.rows, before.trashed = false ∧ before.id ≠ strategy.id ∧
        before.isDefault = true ∧ row.id = before.id := by
  have hooked : row ∈ (if strategy.isDefault && (created || changedDefault) then
      displaceDefault (flushCache s) strategy.id else flushCache s).db.strategies.rows := by
    simp only [saved] at mem
    split at mem
    · rwa [recomputeAll_strategies] at mem
    · exact mem
  split at hooked
  · next displaces =>
    obtain ⟨before, hb, rfl⟩ := List.mem_map.mp hooked
    split
    · next selected =>
      simp only [Bool.and_eq_true, Bool.not_eq_true', decide_eq_true_eq] at selected
      exact .inr ⟨(Bool.and_eq_true_iff.mp displaces).1, before, hb, selected.1.1, selected.1.2,
        selected.2, rfl⟩
    · exact .inl hb
  · exact .inl hooked

theorem saved_nextId (s : System) (strategy : Strategy) (created changedEnabled changedDefault : Bool) :
    (saved s strategy created changedEnabled changedDefault).db.strategies.nextId =
      s.db.strategies.nextId := by
  simp only [saved]
  split
  · rw [recomputeAll_strategies]
    split <;> rfl
  · split <;> rfl

theorem saved_oneDefault {s : System} {strategy : Strategy}
    {created changedEnabled changedDefault : Bool}
    (undisplaced : (strategy.isDefault && (created || changedDefault)) = false →
      OneDefault s.db.strategies) :
    OneDefault (saved s strategy created changedEnabled changedDefault).db.strategies := by
  have hooked : OneDefault (if strategy.isDefault && (created || changedDefault) then
      displaceDefault (flushCache s) strategy.id else flushCache s).db.strategies := by
    split
    · exact displaceDefault_oneDefault _ _
    · next plain => exact undisplaced (Bool.eq_false_iff.mpr plain)
  simp only [saved]
  split
  · rw [recomputeAll_strategies]
    exact hooked
  · exact hooked

/-- The strategies a save may leave ahead of their revisions. -/
def Ahead (db : Database) (strategyId : Nat) (isDefault : Bool) (id : Nat) : Prop :=
  id = strategyId ∨ isDefault = true ∧ ∃ row ∈ db.strategies.rows, row.trashed = false ∧
    row.id ≠ strategyId ∧ row.isDefault = true ∧ row.id = id

/-- A write of the strategies, before its captures. -/
theorem Recorded.written {h : StrategyHistory} (recorded : Recorded h fun _ => False)
    {system : System} {pending : Nat → Prop} (oneDefault : OneDefault system.db.strategies)
    (issued : ∀ row ∈ system.db.strategies.rows, row.id ≠ 0)
    (next : system.db.strategies.nextId ≠ 0)
    (rest : ∀ row ∈ system.db.strategies.rows, row.trashed = false → ¬ pending row.id →
      row ∈ h.system.db.strategies.rows) :
    Recorded { h with system } pending where
  numbered := recorded.numbered
  active row hr kept done := recorded.active row (rest row hr kept done) kept id
  oneDefault := oneDefault
  issued := issued
  next := next

/-- The hook of a saved strategy, given the rows that were saved. -/
theorem saved_written {h : StrategyHistory} (recorded : Recorded h fun _ => False) {s : System}
    {strategy : Strategy} {created changedEnabled changedDefault : Bool}
    (next : s.db.strategies.nextId ≠ 0)
    (undisplaced : (strategy.isDefault && (created || changedDefault)) = false →
      OneDefault s.db.strategies)
    (rows : ∀ row ∈ s.db.strategies.rows, row.id = strategy.id ∨
      row ∈ h.system.db.strategies.rows) (known : strategy.id ≠ 0) :
    Recorded { h with system := saved s strategy created changedEnabled changedDefault }
      (Ahead h.system.db strategy.id strategy.isDefault) := by
  have nonzero : ∀ row ∈ s.db.strategies.rows, row.id ≠ 0 := by
    intro row hr
    rcases rows row hr with own | old
    · rw [own]
      exact known
    · exact recorded.issued row old
  refine recorded.written (saved_oneDefault undisplaced) (fun row hr => ?_) ?_
    fun row hr kept done => ?_
  · rcases mem_saved hr with stays | ⟨_, before, hb, _, _, _, id⟩
    · exact nonzero row stays
    · exact id ▸ nonzero before hb
  · rw [saved_nextId]
    exact next
  · rcases mem_saved hr with stays | ⟨isDefault, before, hb, live, other, was, id⟩
    · exact (rows row stays).resolve_left fun own => done (.inl own)
    · exact absurd (.inr ⟨isDefault, before, (rows before hb).resolve_left other, live, other, was,
        id.symm⟩) done

theorem created_written {h : StrategyHistory} (recorded : Recorded h fun _ => False)
    (form : Strategy.Form) :
    Recorded { h with system := Strategy.create h.system form }
      (Ahead h.system.db h.system.db.strategies.nextId form.isDefault) := by
  have known : (form.row h.system.db.strategies.nextId).id ≠ 0 := recorded.next
  unfold Strategy.create
  refine saved_written recorded (s := { h.system with
    db.strategies := h.system.db.strategies.insert form.row }) (Nat.succ_ne_zero _) (fun plain => ?_)
    (fun row hr => ?_) known
  · exact insert_oneDefault recorded.oneDefault (by simpa [Form.row] using plain)
  · rcases List.mem_append.mp hr with old | new
    · exact .inr old
    · rw [List.mem_singleton.mp new]
      exact .inl rfl

theorem updated_written {h : StrategyHistory} (recorded : Recorded h fun _ => False)
    {strategy : Strategy} (mem : strategy ∈ h.system.db.strategies.rows)
    {change : Strategy → Strategy} (keeps : ∀ row, Row.id (change row) = Row.id row)
    (trashed : ∀ row, (change row).trashed = row.trashed) :
    Recorded { h with system := Strategy.update h.system strategy change keeps }
      (Ahead h.system.db strategy.id (change strategy).isDefault) := by
  have changedId : (change strategy).id = strategy.id := keeps strategy
  rw [← changedId]
  refine saved_written recorded (s := { h.system with
    db.strategies := h.system.db.strategies.update (fun row => decide (row.id = strategy.id))
      change keeps }) recorded.next (fun plain => ?_) (fun row hr => ?_) ?_
  · refine update_oneDefault recorded.oneDefault mem keeps trashed fun now => ?_
    simpa [now] using plain
  · obtain ⟨before, hb, rfl⟩ := List.mem_map.mp hr
    split
    · next own => exact .inl ((keeps before).trans ((of_decide_eq_true own).trans changedId.symm))
    · exact .inr hb
  · rw [changedId]
    exact recorded.issued strategy mem

/-- What a save of the screen that completes has done. -/
theorem save_cases {s s' : System} {actor : User} {editingId : Nat} {form : StrategyList.Form}
    (done : StrategyList.save s actor editingId form = some s') :
    (StrategyList.postedOptions form.options).isNone = true ∨
    ∃ options, StrategyList.postedOptions form.options = some options ∧
      (editingId = 0 ∧ s' = Strategy.create s (StrategyList.toForm form options) ∨
        editingId ≠ 0 ∧ ∃ strategy, StrategyList.findStrategy s.db editingId = some strategy ∧
          s' = Strategy.update s strategy
            (StrategyList.savedRow (StrategyList.toForm form options))) := by
  simp only [StrategyList.save] at done
  split at done
  · cases done
  · split at done
    · next rejected => exact .inl (by rw [rejected]; rfl)
    · next options posted =>
      refine .inr ⟨options, posted, ?_⟩
      split at done
      · cases done
      · split at done
        · next new => exact .inl ⟨new, (Option.some.inj done).symm⟩
        · next old =>
          obtain ⟨strategy, found, rfl⟩ := Option.map_eq_some_iff.mp done
          exact .inr ⟨old, strategy, found, rfl⟩

theorem mem_findStrategy {db : Database} {id : Nat} {strategy : Strategy}
    (found : StrategyList.findStrategy db id = some strategy) :
    strategy ∈ db.strategies.rows ∧ strategy.id = id :=
  db.strategies.find?_eq_some_iff.mp (Option.filter_eq_some_iff.mp found).1

theorem savedRow_id (form : Strategy.Form) (row : Strategy) :
    Row.id (StrategyList.savedRow form row) = Row.id row := rfl

/-- The captures of a save bring the strategies it left ahead up to date: the written one,
and the one other default there was. -/
theorem captures_recorded {h written h' : StrategyHistory} {editingId strategyId userId : Nat}
    {isDefault : Bool} {changeNote displacedNote : String}
    (oneDefault : OneDefault h.system.db.strategies)
    (recorded : Recorded written (Ahead h.system.db strategyId isDefault))
    (edited : ∀ row ∈ h.system.db.strategies.rows, row.id ≠ strategyId → row.id ≠ editingId)
    (done : ((record column written strategyId userId changeNote).bind fun saved =>
      match if isDefault then displacedDefault h.system.db editingId else none with
      | none => some saved
      | some displaced => record column saved displaced.id userId displacedNote) = some h') :
    Recorded h' (fun _ => False) ∧ written.revisions.rows <+: h'.revisions.rows := by
  obtain ⟨saved, first, done⟩ := Option.bind_eq_some_iff.mp done
  obtain ⟨brought, captured⟩ := record_recorded recorded first
  split at done
  · next undisplaced =>
    obtain rfl := Option.some.inj done
    refine ⟨brought.mono ?_, captured.revisions⟩
    rintro id ⟨own | ⟨rfl, row, hr, live, other, was, rfl⟩, away⟩
    · exact away own
    · have found := List.find?_eq_none.mp undisplaced row hr
      exact found (by simp [live, was, edited row hr other])
  · next displaced found =>
    obtain ⟨rest, again⟩ := record_recorded brought done
    refine ⟨rest.mono ?_, captured.revisions.trans again.revisions⟩
    rintro id ⟨⟨own | ⟨rfl, row, hr, live, other, was, rfl⟩, away⟩, apart⟩
    · exact away own
    · have taken := List.find?_some found
      simp only [Bool.and_eq_true, Bool.not_eq_true', decide_eq_true_eq] at taken
      exact apart (oneDefault row hr displaced (List.mem_of_find?_eq_some found) live taken.1.1 was
        taken.2)

/-- An update that leaves the default flag puts no other strategy ahead. -/
theorem captured_update {h h' : StrategyHistory} (recorded : Recorded h fun _ => False)
    {strategyId userId : Nat} {strategy : Strategy} {changeNote : String}
    (found : StrategyList.findStrategy h.system.db strategyId = some strategy)
    (change : Strategy → Strategy) (keeps : ∀ row, Row.id (change row) = Row.id row)
    (trashed : ∀ row, (change row).trashed = row.trashed)
    (isDefault : ∀ row, (change row).isDefault = row.isDefault)
    (done : record column { h with system := Strategy.update h.system strategy change keeps }
      strategyId userId changeNote = some h') :
    Recorded h' (fun _ => False) ∧ Captured
      { h with system := Strategy.update h.system strategy change keeps } h' strategyId := by
  obtain ⟨mem, rfl⟩ := mem_findStrategy found
  have live : strategy.trashed = false := by
    simpa using (Option.filter_eq_some_iff.mp found).2
  obtain ⟨brought, captured⟩ := record_recorded (updated_written recorded mem keeps trashed) done
  refine ⟨brought.mono ?_, captured⟩
  rintro id ⟨own | ⟨flag, row, hr, kept, other, was, rfl⟩, away⟩
  · exact away own
  · rw [isDefault] at flag
    exact other (recorded.oneDefault row hr strategy mem kept live was flag)

theorem save_recorded {h h' : StrategyHistory} (recorded : Recorded h fun _ => False)
    {actor : User} {editingId : Nat} {form : StrategyList.Form}
    (done : save column h actor editingId form = some h') :
    Recorded h' (fun _ => False) ∧ h.revisions.rows <+: h'.revisions.rows := by
  obtain ⟨system, saved, done⟩ := Option.bind_eq_some_iff.mp done
  rcases save_cases saved with rejected | ⟨options, posted, ⟨rfl, rfl⟩ | ⟨old, strategy, found, rfl⟩⟩
  · rw [if_pos rejected] at done
    obtain rfl := Option.some.inj done
    exact ⟨recorded, List.prefix_refl _⟩
  · have accepted : ¬ (StrategyList.postedOptions form.options).isNone = true := by simp [posted]
    rw [if_neg accepted] at done
    have written := created_written recorded (StrategyList.toForm form options)
    obtain ⟨brought, extended⟩ := captures_recorded recorded.oneDefault written
      (fun row hr _ => recorded.issued row hr) done
    exact ⟨brought, extended⟩
  · have accepted : ¬ (StrategyList.postedOptions form.options).isNone = true := by simp [posted]
    rw [if_neg accepted] at done
    simp only [if_neg old] at done
    obtain ⟨mem, rfl⟩ := mem_findStrategy found
    have written := updated_written recorded mem
      (savedRow_id (StrategyList.toForm form options)) fun _ => rfl
    obtain ⟨brought, extended⟩ := captures_recorded recorded.oneDefault written
      (fun row hr other => other) done
    exact ⟨brought, extended⟩

theorem toggleEnabled_recorded {h h' : StrategyHistory} (recorded : Recorded h fun _ => False)
    {actor : User} {id : Nat} (done : toggleEnabled column h actor id = some h') :
    Recorded h' (fun _ => False) ∧ h.revisions.rows <+: h'.revisions.rows := by
  obtain ⟨system, toggled, done⟩ := Option.bind_eq_some_iff.mp done
  simp only [StrategyList.toggleEnabled] at toggled
  split at toggled
  · cases toggled
  · obtain ⟨strategy, found, rfl⟩ := Option.map_eq_some_iff.mp toggled
    obtain ⟨brought, captured⟩ := captured_update recorded found
      (fun row => { row with enabled := ! strategy.enabled }) (fun _ => rfl) (fun _ => rfl)
      (fun _ => rfl) done
    exact ⟨brought, captured.revisions⟩

theorem deleteStrategy_recorded {h h' : StrategyHistory} (recorded : Recorded h fun _ => False)
    {actor : User} {id : Nat} {deletedAt : String}
    (done : deleteStrategy h actor id deletedAt = some h') :
    Recorded h' (fun _ => False) ∧ h.revisions.rows <+: h'.revisions.rows := by
  obtain ⟨system, deleted, rfl⟩ := Option.map_eq_some_iff.mp done
  simp only [StrategyList.deleteStrategy] at deleted
  repeat' split at deleted
  · cases deleted
  · cases deleted
  · cases deleted
  · next strategy found _ =>
    obtain rfl := Option.some.inj deleted
    have rows (row : Strategy)
        (hr : row ∈ (Strategy.delete h.system strategy deletedAt).db.strategies.rows) :
        row.id ≠ 0 ∧ (row.trashed = false → row ∈ h.system.db.strategies.rows) := by
      rw [Strategy.delete, recomputeAll_strategies] at hr
      obtain ⟨before, hb, rfl⟩ := List.mem_map.mp hr
      split
      · exact ⟨recorded.issued before hb, fun live => by cases live⟩
      · exact ⟨recorded.issued before hb, fun _ => hb⟩
    refine ⟨recorded.written ?_ (fun row hr => (rows row hr).1) ?_ fun row hr live _ =>
      (rows row hr).2 live, List.prefix_refl _⟩
    · intro a ha b hb keptA keptB
      exact recorded.oneDefault a ((rows a ha).2 keptA) b ((rows b hb).2 keptB) keptA keptB
    · rw [Strategy.delete, recomputeAll_strategies]
      exact recorded.next

/-- What a restore writes. -/
def restoredRow (snapshot : StoredSnapshot) (row : Strategy) : Strategy :=
  { row with
    note := snapshot.note
    enforce := snapshot.enforce
    options := setOptions snapshot.options }

/-- What a restore that completes has done. -/
theorem restore_cases {h h' : StrategyHistory} {actor : User} {revisionId : Nat}
    (done : restoreRevision column h actor revisionId = some h') :
    ∃ revision, h.revisions.find? revisionId = some revision ∧
      ∃ strategy, StrategyList.findStrategy h.system.db revision.strategyId = some strategy ∧
        record column
          { h with
            system := Strategy.update h.system strategy (restoredRow revision.snapshot) }
          revision.strategyId actor.id ("Restored revision " ++ toString revision.revision) =
            some h' := by
  obtain ⟨revision, present, done⟩ := Option.bind_eq_some_iff.mp done
  obtain ⟨system, restored, done⟩ := Option.bind_eq_some_iff.mp done
  simp only [StrategyList.restoreRevision] at restored
  split at restored
  · cases restored
  · obtain ⟨strategy, found, rfl⟩ := Option.map_eq_some_iff.mp restored
    exact ⟨revision, present, strategy, found, done⟩

theorem perform_recorded {h h' : StrategyHistory} (recorded : Recorded h fun _ => False)
    {actor : User} {call : Call} (done : perform column h actor call = some h') :
    Recorded h' (fun _ => False) ∧ h.revisions.rows <+: h'.revisions.rows := by
  cases call with
  | save editingId form => exact save_recorded recorded done
  | toggleEnabled id => exact toggleEnabled_recorded recorded done
  | deleteStrategy id deletedAt => exact deleteStrategy_recorded recorded done
  | restoreRevision revisionId =>
      obtain ⟨revision, _, strategy, found, done⟩ := restore_cases done
      obtain ⟨brought, captured⟩ := captured_update recorded found
        (restoredRow revision.snapshot) (fun _ => rfl) (fun _ => rfl) (fun _ => rfl) done
      exact ⟨brought, captured.revisions⟩

/-- A deletion that throws has cleared pivots, which no revision tells of. -/
theorem thrown_recorded {h : StrategyHistory} (recorded : Recorded h fun _ => False) (actor : User)
    (call : Call) : Recorded (thrown h actor call) (fun _ => False) ∧
      h.revisions.rows <+: (thrown h actor call).revisions.rows := by
  unfold thrown
  split
  · split
    · exact ⟨⟨recorded.numbered, recorded.active, recorded.oneDefault, recorded.issued, recorded.next⟩,
        List.prefix_refl _⟩
    · exact ⟨recorded, List.prefix_refl _⟩
  · exact ⟨recorded, List.prefix_refl _⟩

theorem step_recorded (column : JsonColumn) (h : StrategyHistory) (call : Nat × Call)
    (recorded : Recorded h fun _ => False) :
    Recorded (step column h call) (fun _ => False) ∧
      h.revisions.rows <+: (step column h call).revisions.rows := by
  unfold step
  split
  · exact ⟨recorded, List.prefix_refl _⟩
  · next actor _ =>
    cases done : perform column h actor call.2 with
    | none => exact thrown_recorded recorded actor call.2
    | some h' => exact perform_recorded recorded done

open Runs in
theorem run_recorded (column : JsonColumn) {h : StrategyHistory}
    (recorded : Recorded h fun _ => False) (calls : List (Nat × Call)) :
    Recorded (run (step column) h calls) fun _ => False :=
  invariant (fun h call recorded => (step_recorded column h call recorded).1) h calls recorded

open Runs in
/-- A revision once written stays as it is. -/
theorem run_extends (column : JsonColumn) {h : StrategyHistory}
    (recorded : Recorded h fun _ => False) (calls : List (Nat × Call)) :
    h.revisions.rows <+: (run (step column) h calls).revisions.rows := by
  induction calls generalizing h with
  | nil => exact List.prefix_refl _
  | cons call calls ih =>
      obtain ⟨next, extended⟩ := step_recorded column h call recorded
      exact extended.trans (ih next)

/-- An update that leaves the default flag displaces nothing. -/
theorem update_strategies {s : System} {strategy : Strategy} {change : Strategy → Strategy}
    {keeps : ∀ row, Row.id (change row) = Row.id row}
    (isDefault : ∀ row, (change row).isDefault = row.isDefault) :
    (Strategy.update s strategy change keeps).db.strategies =
      s.db.strategies.update (fun row => decide (row.id = strategy.id)) change keeps := by
  have stays : (false || decide ((change strategy).isDefault ≠ strategy.isDefault)) = false := by
    simp [isDefault]
  simp only [Strategy.update, saved, stays, Bool.and_false, Bool.false_eq_true, ↓reduceIte]
  split
  · rw [recomputeAll_strategies]
    rfl
  · rfl

/-- The columns that route devices to a strategy. -/
def routing (row : Strategy) : String × Bool × Bool := (row.name, row.enabled, row.isDefault)

/-- The strategy has the policy of the revision, and no strategy routes otherwise. -/
structure Restored (h h' : StrategyHistory) (revision : StrategyRevision) : Prop where
  policy : ∃ row, h'.system.db.strategies.find? revision.strategyId = some row ∧
    row.note = revision.snapshot.note ∧ row.enforce = revision.snapshot.enforce ∧
    row.optionMap = sanitizeOptions revision.snapshot.options
  routing : ∀ id, (h'.system.db.strategies.find? id).map routing =
    (h.system.db.strategies.find? id).map routing

theorem restored {h h' : StrategyHistory} {actor : User} {revisionId : Nat}
    (done : restoreRevision column h actor revisionId = some h') :
    ∃ revision, h.revisions.find? revisionId = some revision ∧ Restored h h' revision := by
  obtain ⟨revision, present, strategy, found, done⟩ := restore_cases done
  obtain ⟨mem, own⟩ := mem_findStrategy found
  obtain ⟨live, _, captured⟩ := Option.bind_eq_some_iff.mp done
  have system : h'.system =
      Strategy.update h.system strategy (restoredRow revision.snapshot) := by
    split at captured
    · cases captured
    · obtain rfl := Option.some.inj captured
      rfl
  have strategies : h'.system.db.strategies = h.system.db.strategies.update
      (fun row => decide (row.id = strategy.id)) (restoredRow revision.snapshot) := by
    rw [system]
    exact update_strategies fun _ => rfl
  have lookup (id : Nat) := h.system.db.strategies.find?_update_id mem
    (restoredRow revision.snapshot) (fun _ => rfl) id
  refine ⟨revision, present, ⟨restoredRow revision.snapshot strategy, ?_, rfl, rfl, ?_⟩, fun id => ?_⟩
  · rw [strategies, ← own]
    exact (lookup strategy.id).trans (if_pos rfl)
  · simp [optionMap, restoredRow, setOptions]
  · rw [strategies]
    refine (congrArg (Option.map StrategyHistory.routing) (lookup id)).trans ?_
    split
    · next here =>
      rw [here, h.system.db.strategies.find?_of_mem mem]
      rfl
    · rfl

/-- An installation before the upgrade: the options are those that an editor wrote. -/
structure Upgradable (system : System) : Prop where
  oneDefault : OneDefault system.db.strategies
  issued : ∀ row ∈ system.db.strategies.rows, row.id ≠ 0
  next : system.db.strategies.nextId ≠ 0
  written : ∀ row ∈ system.db.strategies.rows, ∀ options, row.options = some options →
    ∃ (written : JsonColumn) (m : OptionMap), options = written.write m.map

theorem holds_baseline {system : System} (upgradable : Upgradable system) {row : Strategy}
    (mem : row ∈ system.db.strategies.rows) (id : Nat) :
    (baselineRow system.db row id).snapshot.holds row.snapshot := by
  refine ⟨rfl, rfl, rfl, rfl, rfl, ?_⟩
  simp only [baselineRow, Strategy.snapshot, optionMap]
  cases options : row.options with
  | none => rfl
  | some options' =>
      obtain ⟨written, m, rfl⟩ := upgradable.written row mem options' options
      simp

theorem baselines_recorded {system : System} (upgradable : Upgradable system)
    (rows : List Strategy) (h : StrategyHistory) (same : h.system = system)
    (distinct : (rows.map Strategy.id).Nodup)
    (present : ∀ row ∈ rows, row ∈ system.db.strategies.rows)
    (fresh : ∀ row ∈ rows, h.revisionsOf row.id = [])
    (recorded : Recorded h fun id => id ∈ rows.map Strategy.id) :
    Recorded (rows.foldl baseline h) fun _ => False := by
  induction rows generalizing h with
  | nil => exact recorded.mono fun id waits => nomatch waits
  | cons row rows ih =>
      subst same
      obtain ⟨apart, distinct⟩ := List.nodup_cons.mp distinct
      have mem := present row List.mem_cons_self
      have first : h.nextRevision row.id = 1 := by
        rw [nextRevision, fresh row List.mem_cons_self]
        rfl
      have brought := recorded_insert recorded mem (fun _ => rfl) (fun _ => rfl)
        (fun _ => first.symm) (holds_baseline upgradable mem)
      refine ih (baseline h row) rfl distinct (fun row hr => present row (List.mem_cons_of_mem _ hr))
        (fun other ho => ?_) (brought.mono ?_)
      · have away : row.id ≠ other.id := fun own => apart (own ▸ List.mem_map_of_mem ho)
        refine (revisionsOf_insert h _ _ _ other.id).trans ?_
        rw [fresh other (List.mem_cons_of_mem _ ho)]
        exact if_neg away
      · rintro id ⟨waits, away⟩
        exact (List.mem_cons.mp waits).resolve_left away

theorem upgrade_recorded {system : System} (upgradable : Upgradable system) :
    Recorded (upgrade system) fun _ => False := by
  refine baselines_recorded upgradable system.db.strategies.rows { system } rfl
    system.db.strategies.nodup (fun _ hr => hr) (fun _ _ => rfl) ?_
  exact
    { numbered := fun _ => rfl
      active := fun _ _ _ _ _ is => nomatch is
      oneDefault := upgradable.oneDefault
      issued := upgradable.issued
      next := upgradable.next }

open Runs in
/-- After every run of calls since the upgrade: the revisions of a strategy are numbered
from one, what is recorded stays recorded, the active revision of a strategy outside the
recycle bin holds its state, and a restore brings the policy of the revision back and
nothing else. -/
theorem revisions_faithful (column : JsonColumn) {system : System}
    (upgradable : Upgradable system) (calls : List (Nat × Call)) :
    let h := run (step column) (upgrade system) calls
    (∀ id, (h.revisionsOf id).map StrategyRevision.revision =
      List.range' 1 (h.revisionsOf id).length) ∧
    (∀ later, h.revisions.rows <+: (run (step column) h later).revisions.rows) ∧
    (∀ row ∈ h.system.db.strategies.rows, row.trashed = false →
      ∀ revisionId, h.active row.id = some revisionId →
        ∃ revision ∈ h.revisions.rows, revision.id = revisionId ∧
          revision.strategyId = row.id ∧ revision.snapshot.holds row.snapshot) ∧
    ∀ actor revisionId h', perform column h actor (.restoreRevision revisionId) = some h' →
      ∃ revision, h.revisions.find? revisionId = some revision ∧ Restored h h' revision := by
  have recorded := run_recorded column (upgrade_recorded upgradable) calls
  refine ⟨recorded.numbered, run_extends column recorded, ?_, ?_⟩
  · intro row hr live
    exact recorded.active row hr live id
  · intro actor revisionId h' done
    exact restored done

/-- An administrator and one strategy from before the upgrade, the default. -/
def established : System where
  db :=
    { users := Table.empty.insert fun id => { id, username := "admin", isAdmin := true }
      strategies := Table.empty.insert fun id => { id, name := "Base", isDefault := true } }

theorem upgradable_established : Upgradable established where
  oneDefault a ha b hb _ _ _ _ := by
    rw [List.mem_singleton.mp ha, List.mem_singleton.mp hb]
  issued row hr := by
    rw [List.mem_singleton.mp hr]
    exact Nat.one_ne_zero
  next := Nat.succ_ne_zero _
  written row hr options is := by
    rw [List.mem_singleton.mp hr] at is
    cases is

open Runs in
/-- A new default displaces the old one, which is then put back to its baseline. -/
theorem revisions_faithful_established :
    let h := run (step .text) (upgrade established)
      [(1, .save 0 { name := "Strict", isDefault := true, enforce := true }), (1, .toggleEnabled 1),
        (1, .restoreRevision 1)]
    (h.revisionsOf 1).length = 4 ∧
      (h.revisionsOf 1).map StrategyRevision.revision =
        List.range' 1 (h.revisionsOf 1).length :=
  ⟨by decide +kernel, (revisions_faithful .text upgradable_established _).1 1⟩

end StrategyHistory
end CortenDesk
