import CortenDesk.Access.Console
import CortenDesk.Strategy.Writes

/-!
The Strategies screen. The revisions that each save captures are left out; a restored
snapshot is given to the call. A deletion frees the name by a suffix, and the database
aborts it when that name is taken.
-/
namespace CortenDesk
open Php

namespace StrategyList

structure Form where
  name : String
  note : String := ""
  enabled : Bool := true
  isDefault : Bool := false
  enforce : Bool := false
  confirmationTimeout : Int := 15
  options : Arr String Value := ∅
  revisionNote : String := ""

def validate (db : Database) (editingId : Nat) (form : Form) : Bool :=
  trim form.name ≠ "" && form.name.length ≤ 255 &&
  db.strategies.rows.all (fun row => row.name ≠ form.name || row.id = editingId) &&
  (trim form.note = "" || form.note.length ≤ 500) &&
  1 ≤ form.confirmationTimeout && form.confirmationTimeout ≤ 10080

/-- One posted option: not managed, out of range, or kept. -/
inductive Posted
  | skipped
  | outOfRange
  | kept (value : String)

def postedOption (key : String) (value : Value) : Posted :=
  let text := match value with
    | .string text => trim text
    | _ => ""
  match optionKeys.lookup key with
  | none => .skipped
  | some spec =>
      if text = "" then .skipped
      else match spec with
        | .int _ _ => if spec.accepts text then .kept text else .outOfRange
        | _ => .kept text

/-- The options of the form, or nothing when a number is out of its range. -/
def postedOptions (options : Arr String Value) : Option (Arr Key Value) :=
  if options.entries.any fun e => postedOption e.1 e.2 matches .outOfRange then none
  else some (OrderedMap.ofList (options.entries.filterMap fun e =>
    match postedOption e.1 e.2 with
    | .kept text => some (.str e.1, .string text)
    | _ => none))

def toForm (form : Form) (options : Arr Key Value) : Strategy.Form where
  name := form.name
  note := if form.note = "" then none else some form.note
  enabled := form.enabled
  isDefault := form.isDefault
  enforce := form.enforce
  confirmationTimeoutMinutes := form.confirmationTimeout
  options

def savedRow (form : Strategy.Form) (row : Strategy) : Strategy :=
  { row with
    name := form.name
    note := form.note
    enabled := form.enabled
    isDefault := form.isDefault
    enforce := form.enforce
    confirmationTimeoutMinutes := some form.confirmationTimeoutMinutes
    options := Strategy.setOptions form.options }

/-- A strategy outside the recycle bin. -/
def findStrategy (db : Database) (id : Nat) : Option Strategy :=
  (db.strategies.find? id).filter (! ·.trashed)

def save (s : System) (actor : User) (editingId : Nat) (form : Form) : Option System :=
  if ! actor.consoleAllows s.db .strategy .rw || ! validate s.db editingId form then none
  else match postedOptions form.options with
    | none => some s
    | some options =>
        if ! (trim form.revisionNote = "" || form.revisionNote.length ≤ 500) then none
        else
          let form := toForm form options
          if editingId = 0 then some (Strategy.create s form)
          else (findStrategy s.db editingId).map fun strategy =>
            Strategy.update s strategy (savedRow form)

def toggleEnabled (s : System) (actor : User) (id : Nat) : Option System :=
  if ! actor.consoleAllows s.db .strategy .rw then none
  else (findStrategy s.db id).map fun strategy =>
    Strategy.update s strategy fun row => { row with enabled := ! strategy.enabled }

def deleteStrategy (s : System) (actor : User) (id : Nat) (deletedAt : String) : Option System :=
  if ! actor.consoleAllows s.db .strategy .rw then none
  else match findStrategy s.db id with
    | none => none
    | some strategy =>
        if s.db.strategies.rows.any
            (·.name = strategy.name ++ " (deleted " ++ deletedAt ++ ")") then none
        else some (Strategy.delete s strategy deletedAt)

/-- The policy part of a snapshot. -/
structure Snapshot where
  note : Option String
  enforce : Bool
  options : Arr Key Value

/-- Name, enabled and default are not replayed. -/
def restoreRevision (s : System) (actor : User) (id : Nat) (snapshot : Snapshot) :
    Option System :=
  if ! actor.consoleAllows s.db .strategy .rw then none
  else (findStrategy s.db id).map fun strategy =>
    Strategy.update s strategy fun row =>
      { row with
        note := snapshot.note
        enforce := snapshot.enforce
        options := Strategy.setOptions snapshot.options }

/-- Attaches what was newly checked, releases what no longer is. -/
def syncLevel (s : System) (strategyId : Nat) (level : StrategyLevel) (current desired : List Nat) :
    System :=
  let desired := desired.eraseDups
  let attached := (desired.filter (· ∉ current)).foldl
    (fun s id => Strategy.assignTo s level id (some strategyId)) s
  (current.filter (· ∉ desired)).foldl (fun s id => Strategy.assignTo s level id none) attached

/-- The targets a strategy holds at a level; the relation leaves the recycle bin out. -/
def assigned (db : Database) (strategyId : Nat) (level : StrategyLevel) : List Nat :=
  let targets := ((db.pivot level).filter fun row => row.2 = strategyId).map Prod.fst
  match level with
  | .device => targets.filter fun id => (db.devices.find? id).any (! ·.trashed)
  | .user | .deviceGroup => targets

def saveAssign (s : System) (actor : User) (id : Nat) (deviceIds userIds groupIds : List Nat) :
    Option System :=
  if ! actor.consoleAllows s.db .strategy .rw then none
  else if (findStrategy s.db id).isNone then none
  else if ! (deviceIds.all (fun id => (s.db.devices.find? id).isSome) &&
      userIds.all (fun id => (s.db.users.find? id).isSome) &&
      groupIds.all fun id => (s.db.deviceGroups.find? id).isSome) then none
  else
    let s := syncLevel s id .device (assigned s.db id .device) deviceIds
    let s := syncLevel s id .user (assigned s.db id .user) userIds
    some (syncLevel s id .deviceGroup (assigned s.db id .deviceGroup) groupIds)

inductive Call
  | save (editingId : Nat) (form : Form)
  | toggleEnabled (id : Nat)
  | deleteStrategy (id : Nat) (deletedAt : String)
  | restoreRevision (id : Nat) (snapshot : Snapshot)
  | saveAssign (id : Nat) (deviceIds userIds groupIds : List Nat)

def perform (s : System) (actor : User) : Call → Option System
  | .save editingId form => save s actor editingId form
  | .toggleEnabled id => toggleEnabled s actor id
  | .deleteStrategy id deletedAt => deleteStrategy s actor id deletedAt
  | .restoreRevision id snapshot => restoreRevision s actor id snapshot
  | .saveAssign id deviceIds userIds groupIds => saveAssign s actor id deviceIds userIds groupIds

end StrategyList
end CortenDesk
