import CortenDesk.Console.StrategyList
import CortenDesk.Strategy.Delivery

/-!
The revision history of the Strategies screen: each save, toggle and restore captures what
it left, and the strategy points at the captured revision. A save that takes the default
from another strategy captures that one too. A save, a toggle and a restore run in one transaction
each, so one that throws leaves everything as it was. A deletion does not.
-/
namespace CortenDesk
open Php

/-- `Strategy::snapshot`. -/
structure Strategy.Snapshot where
  name : String
  note : Option String
  enabled : Bool
  isDefault : Bool
  enforce : Bool
  options : OptionMap
  deriving DecidableEq

def Strategy.snapshot (strategy : Strategy) : Strategy.Snapshot where
  name := strategy.name
  note := strategy.note
  enabled := strategy.enabled
  isDefault := strategy.isDefault
  enforce := strategy.enforce
  options := strategy.optionMap

/-- A snapshot as the JSON column gives it back. -/
structure StoredSnapshot where
  name : String
  note : Option String
  enabled : Bool
  isDefault : Bool
  enforce : Bool
  options : Arr Key Value

structure StrategyRevision where
  id : Nat
  strategyId : Nat
  revision : Nat
  snapshot : StoredSnapshot
  changeNote : Option String
  createdBy : Option Nat
  createdByName : Option String
  affectedDevices : Nat

instance : Row StrategyRevision := ⟨StrategyRevision.id⟩

namespace StoredSnapshot

/-- Column by column, the options as string maps. -/
def holds (stored : StoredSnapshot) (live : Strategy.Snapshot) : Prop :=
  stored.name = live.name ∧ stored.note = live.note ∧ stored.enabled = live.enabled ∧
    stored.isDefault = live.isDefault ∧ stored.enforce = live.enforce ∧
    stringMap (some stored.options) = live.options.map

end StoredSnapshot

/-- The system, its revisions, and each strategy's `active_revision_id`. -/
structure StrategyHistory where
  system : System := {}
  revisions : Table StrategyRevision := Table.empty
  active : Nat → Option Nat := fun _ => none

namespace StrategyHistory
variable (column : JsonColumn)

def revisionsOf (h : StrategyHistory) (strategyId : Nat) : List StrategyRevision :=
  h.revisions.rows.filter fun row => row.strategyId = strategyId

/-- `max('revision') + 1`; the maximum of no rows is null, which is zero. -/
def nextRevision (h : StrategyHistory) (strategyId : Nat) : Nat :=
  ((h.revisionsOf strategyId).map StrategyRevision.revision).max?.getD 0 + 1

/-- The options are sanitized once more on the way in. -/
def stored (snapshot : Strategy.Snapshot) : StoredSnapshot where
  name := snapshot.name
  note := snapshot.note
  enabled := snapshot.enabled
  isDefault := snapshot.isDefault
  enforce := snapshot.enforce
  options := column.write (sanitizeOptions (JsonColumn.text.write snapshot.options.map)).map

/-- `resolvedDevices()->count()`. -/
def affectedDevices (db : Database) (strategyId : Nat) : Nat :=
  db.devices.rows.countP fun device =>
    ! device.trashed && device.strategyIdResolved = some strategyId

def revisionRow (h : StrategyHistory) (strategy : Strategy) (userId : Nat) (changeNote : String)
    (id : Nat) : StrategyRevision where
  id := id
  strategyId := strategy.id
  revision := h.nextRevision strategy.id
  snapshot := stored column strategy.snapshot
  changeNote := some changeNote
  createdBy := some userId
  createdByName := (h.system.db.users.find? userId).map User.username
  affectedDevices := affectedDevices h.system.db strategy.id

/-- `StrategyRevision::capture`, and the revision made the active one. -/
def record (h : StrategyHistory) (strategyId userId : Nat) (changeNote : String) :
    Option StrategyHistory :=
  (StrategyList.findStrategy h.system.db strategyId).bind fun strategy =>
    if changeNote.length > 500 then none
    else some { h with
      revisions := h.revisions.insert (revisionRow column h strategy userId changeNote)
      active := Function.update h.active strategyId (some h.revisions.nextId) }

/-- The default that a save will displace. -/
def displacedDefault (db : Database) (editingId : Nat) : Option Strategy :=
  db.strategies.rows.find? fun row => ! row.trashed && decide (row.id ≠ editingId) && row.isDefault

def save (h : StrategyHistory) (actor : User) (editingId : Nat) (form : StrategyList.Form) :
    Option StrategyHistory :=
  (StrategyList.save h.system actor editingId form).bind fun system =>
    if (StrategyList.postedOptions form.options).isNone then some h
    else
      let strategyId := if editingId = 0 then h.system.db.strategies.nextId else editingId
      let changeNote :=
        if form.revisionNote ≠ "" then form.revisionNote
        else if editingId = 0 then "Initial revision" else "Saved from the strategy editor"
      (record column { h with system } strategyId actor.id changeNote).bind fun saved =>
        match if form.isDefault then displacedDefault h.system.db editingId else none with
        | none => some saved
        | some displaced =>
            record column saved displaced.id actor.id ("Default status moved to " ++ form.name)

def toggleEnabled (h : StrategyHistory) (actor : User) (id : Nat) : Option StrategyHistory :=
  (StrategyList.toggleEnabled h.system actor id).bind fun system =>
    record column { h with system } id actor.id "Toggled enabled state"

def deleteStrategy (h : StrategyHistory) (actor : User) (id : Nat) (deletedAt : String) :
    Option StrategyHistory :=
  (StrategyList.deleteStrategy h.system actor id deletedAt).map fun system => { h with system }

/-- The policy part of a snapshot. -/
def policy (snapshot : StoredSnapshot) : StrategyList.Snapshot where
  note := snapshot.note
  enforce := snapshot.enforce
  options := snapshot.options

def restoreRevision (h : StrategyHistory) (actor : User) (revisionId : Nat) :
    Option StrategyHistory :=
  (h.revisions.find? revisionId).bind fun revision =>
    (StrategyList.restoreRevision h.system actor revision.strategyId (policy revision.snapshot)).bind
      fun system =>
        record column { h with system } revision.strategyId actor.id
          ("Restored revision " ++ toString revision.revision)

inductive Call
  | save (editingId : Nat) (form : StrategyList.Form)
  | toggleEnabled (id : Nat)
  | deleteStrategy (id : Nat) (deletedAt : String)
  | restoreRevision (revisionId : Nat)

def perform (h : StrategyHistory) (actor : User) : Call → Option StrategyHistory
  | .save editingId form => save column h actor editingId form
  | .toggleEnabled id => toggleEnabled column h actor id
  | .deleteStrategy id deletedAt => deleteStrategy h actor id deletedAt
  | .restoreRevision revisionId => restoreRevision column h actor revisionId

/-- What a call leaves that throws: a deletion finds the new name taken when it has cleared the
pivots already. -/
def thrown (h : StrategyHistory) (actor : User) : Call → StrategyHistory
  | .deleteStrategy id _ =>
      if actor.consoleAllows h.system.db .strategy .rw &&
          (StrategyList.findStrategy h.system.db id).isSome then
        { h with
          system.db.deviceStrategy := h.system.db.deviceStrategy.filter fun row => row.2 ≠ id
          system.db.strategyUser := h.system.db.strategyUser.filter fun row => row.2 ≠ id
          system.db.deviceGroupStrategy := h.system.db.deviceGroupStrategy.filter fun row => row.2 ≠ id }
      else h
  | _ => h

/-- A call by a signed-in user. -/
def step (h : StrategyHistory) (call : Nat × Call) : StrategyHistory :=
  match h.system.db.users.find? call.1 with
  | none => h
  | some actor => (perform column h actor call.2).getD (thrown h actor call.2)

/-- The baseline that the upgrade gives a strategy: its options are not sanitized. -/
def baselineRow (db : Database) (strategy : Strategy) (id : Nat) : StrategyRevision where
  id := id
  strategyId := strategy.id
  revision := 1
  snapshot :=
    { name := strategy.name
      note := strategy.note
      enabled := strategy.enabled
      isDefault := strategy.isDefault
      enforce := strategy.enforce
      options := strategy.options.getD ∅ }
  changeNote := some "Baseline created during strategy revision history upgrade"
  createdBy := none
  createdByName := none
  affectedDevices := db.devices.rows.countP fun device =>
    decide (device.strategyIdResolved = some strategy.id)

def baseline (h : StrategyHistory) (strategy : Strategy) : StrategyHistory :=
  { h with
    revisions := h.revisions.insert (baselineRow h.system.db strategy)
    active := Function.update h.active strategy.id (some h.revisions.nextId) }

/-- The history after the upgrade of an installation. -/
def upgrade (system : System) : StrategyHistory :=
  system.db.strategies.rows.foldl baseline { system }

end StrategyHistory
end CortenDesk
