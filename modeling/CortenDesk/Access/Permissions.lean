import CortenDesk.Lib.PhpValue

/-!
Permission matrices: a level for each console area. A stored matrix is represented by
the level each area reads as; what a form posts becomes a matrix by `normalize`.
-/
namespace CortenDesk
open Php

inductive Level
  | none
  | r
  | rw
  deriving DecidableEq, Repr

inductive Resource
  | device
  | user
  | group
  | addressBook
  | audit
  | strategy
  | setting
  | token
  deriving DecidableEq, Repr

def Resource.key : Resource → String
  | .device => "device"
  | .user => "user"
  | .group => "group"
  | .addressBook => "address_book"
  | .audit => "audit"
  | .strategy => "strategy"
  | .setting => "setting"
  | .token => "token"

abbrev Matrix := Resource → Level

namespace Permissions

def rank : Level → Nat
  | .rw => 2
  | .r => 1
  | .none => 0

/-- `rw` covers `r` and `rw`; `r` covers `r` alone. -/
def satisfies (have' required : Level) : Bool := rank required ≤ rank have'

/-- `in_array($level, LEVELS, true) ? $level : 'none'`. -/
def levelOf : Value → Level
  | .string "rw" => .rw
  | .string "r" => .r
  | _ => .none

def normalize (matrix : Arr String Value) (resources : List Resource) : Matrix := fun resource =>
  if resource ∈ resources then levelOf ((matrix.get? resource.key).getD (.string "none"))
  else .none

def consoleResources : List Resource :=
  [.device, .user, .group, .addressBook, .audit, .strategy, .setting, .token]

theorem mem_consoleResources (resource : Resource) : resource ∈ consoleResources := by
  cases resource <;> decide

/-- What a non-admin without a role may do. -/
def legacyUser : Matrix
  | .device | .addressBook => .rw
  | .audit => .r
  | .user | .group | .strategy | .setting | .token => .none

theorem rank_le_rw (level : Level) : rank level ≤ rank .rw := by
  cases level <;> decide

end Permissions
end CortenDesk
