import CortenDesk.Database.Rows

/-!
The second factors of an account: codes of an authenticator app, checked in a window of
three time steps against a pointer to the last one accepted, and recovery codes that are
burnt by a conditional update. The password hash and the code generator are parameters.
-/
namespace Php

/-- `strtoupper($s)`. -/
def strtoupper (s : String) : String := String.ofList (s.toList.map Char.toUpper)

end Php

namespace CortenDesk
open Php

/-- What the sign-in takes from the libraries it is built on. -/
structure Primitives where
  /-- `Hash::check($plain, $hash)`. -/
  check : String → String → Bool
  /-- `$totp->at($timestamp)` of a secret. -/
  totpAt : String → Int → String
  /-- `hash('sha256', $plain)`. -/
  sha256 : String → String

/-- Plain text for hashes and one code for every time step. -/
def Primitives.plain : Primitives where
  check plain hash := plain = hash
  totpAt secret _ := secret
  sha256 plain := plain

/-- The columns of an account that its sign-in reads; `password` is the hash. -/
structure Credentials where
  password : String
  totpSecret : Option String := none
  totpEnabled : Bool := false
  totpLastTimestep : Option Int := none
  deriving DecidableEq

/-- `User::clearTwoFactor`, less the deletion of the recovery codes. -/
def Credentials.clearTwoFactor (credentials : Credentials) : Credentials :=
  { credentials with totpSecret := none, totpEnabled := false, totpLastTimestep := none }

structure RecoveryCode where
  id : Nat
  userId : Nat
  codeHash : String
  usedAt : Option Stamp := none
  deriving DecidableEq

instance : Row RecoveryCode := ⟨RecoveryCode.id⟩

namespace TwoFactor
variable (lib : Primitives)

def period : Int := 30

def recoveryCount : Nat := 10

def recoveryLowThreshold : Nat := 2

/-- `/^\d{6}$/` of a trimmed code. -/
def isCode (code : String) : Bool := code.length = 6 && code.toList.all Char.isDigit

/-- The accepted time step, the highest of the window that matches. -/
def verify (secret code : String) (now : Stamp) : Option Int :=
  let code := trim code
  if ! isCode code then none
  else
    let current := now.tdiv period
    ([1, 0, -1].map (current + ·)).find? fun timestep =>
      0 ≤ timestep && lib.totpAt secret (timestep * period) = code

def isBlock (block : List Char) : Bool :=
  block.length = 5 && block.all fun c => c.isDigit || c.isAlpha

/-- `/^[A-Z0-9]{5}-[A-Z0-9]{5}$/i`. -/
def looksLikeRecoveryCode (value : String) : Bool :=
  let chars := (trim value).toList
  isBlock (chars.take 5) && (chars.drop 5).head? = some '-' && isBlock (chars.drop 6)

def normalizeRecoveryCode (value : String) : String := strtoupper (trim value)

/-- The unused recovery codes of an account. -/
def unusedCodes (codes : Table RecoveryCode) (userId : Nat) : List RecoveryCode :=
  codes.rows.filter fun row => row.userId = userId && row.usedAt.isNone

/-- The first unused code that the normalized input matches. -/
def matchCode (codes : Table RecoveryCode) (userId : Nat) (normalized : String) :
    Option RecoveryCode :=
  (unusedCodes codes userId).find? fun row => lib.check normalized row.codeHash

/-- The conditional update selects the row only while it is unused. -/
def burnable (userId id : Nat) (row : RecoveryCode) : Bool :=
  row.userId = userId && row.id = id && row.usedAt.isNone

def burn (codes : Table RecoveryCode) (userId id : Nat) (now : Stamp) : Table RecoveryCode :=
  codes.update (burnable userId id) fun row => { row with usedAt := some now }

/-- How many rows the update claimed. -/
def claimed (codes : Table RecoveryCode) (userId id : Nat) : Nat :=
  codes.rows.countP (burnable userId id)

/-- The replay guard: the time step was used already, or is older. -/
def replayed (lastTimestep : Option Int) (timestep : Int) : Bool :=
  lastTimestep.any (timestep ≤ ·)

/-- The time step of a code, against the secret an account was loaded with. -/
def timestepOf (credentials : Credentials) (code : String) (now : Stamp) : Option Int :=
  (credentials.totpSecret.filter truthy).bind fun secret => verify lib secret code now

def incorrect : String := "That code is incorrect or has expired."

def alreadyUsed : String := "That code has already been used. Wait for the next one."

def invalidRecovery : String := "That recovery code is invalid or already used."

/-- `AuthController::consumeTotp` of one request, with nothing between its steps. -/
def consumeTotp (credentials : Credentials) (code : String) (now : Stamp) :
    Except String Credentials :=
  match timestepOf lib credentials code now with
  | none => .error incorrect
  | some timestep =>
      if replayed credentials.totpLastTimestep timestep then .error alreadyUsed
      else .ok { credentials with totpLastTimestep := some timestep }

def lowWarning (remaining : Nat) : Option String :=
  if remaining ≤ recoveryLowThreshold then
    some s!"You have {remaining} recovery code(s) left. Regenerate them from Account → Two-Factor Authentication."
  else none

/-- `AuthController::consumeRecoveryCode` of one request: the codes left and the warning. -/
def consumeRecoveryCode (codes : Table RecoveryCode) (userId : Nat) (code : String)
    (now : Stamp) : Except String (Table RecoveryCode × Option String) :=
  match matchCode lib codes userId (normalizeRecoveryCode code) with
  | none => .error invalidRecovery
  | some row =>
      if claimed codes userId row.id = 0 then .error invalidRecovery
      else
        let left := burn codes userId row.id now
        .ok (left, lowWarning (unusedCodes left userId).length)

variable {lib}

/-- An unused code of the account that matches is a row the update can claim. -/
theorem matchCode_burnable {codes : Table RecoveryCode} {userId : Nat} {normalized : String}
    {row : RecoveryCode} (found : matchCode lib codes userId normalized = some row) :
    row ∈ codes.rows ∧ burnable userId row.id row = true ∧
      lib.check normalized row.codeHash = true := by
  unfold matchCode at found
  have listed := List.mem_filter.mp (List.mem_of_find?_eq_some found)
  have accepted := List.find?_some found
  refine ⟨listed.1, ?_, accepted⟩
  simpa [burnable] using listed.2

theorem consumeRecoveryCode_isOk {codes : Table RecoveryCode} {userId : Nat} {code : String}
    (now : Stamp) :
    (∃ result, consumeRecoveryCode lib codes userId code now = .ok result) ↔
      ∃ row ∈ codes.rows, row.userId = userId ∧ row.usedAt = none ∧
        lib.check (normalizeRecoveryCode code) row.codeHash = true := by
  unfold consumeRecoveryCode
  split
  · next none' =>
    refine iff_of_false (by rintro ⟨_, ⟨⟩⟩) ?_
    rintro ⟨row, present, own, unused, accepted⟩
    have listed : row ∈ unusedCodes codes userId :=
      List.mem_filter.mpr ⟨present, by simp [own, unused]⟩
    exact List.find?_eq_none.mp none' row listed accepted
  · next row found =>
    obtain ⟨present, burns, accepted⟩ := matchCode_burnable found
    have some' : claimed codes userId row.id ≠ 0 :=
      Nat.ne_of_gt (List.countP_pos_iff.mpr ⟨row, present, burns⟩)
    rw [if_neg some']
    refine iff_of_true ⟨_, rfl⟩ ⟨row, present, ?_⟩
    simp only [burnable, Bool.and_eq_true, decide_eq_true_eq, Option.isNone_iff_eq_none] at burns
    exact ⟨burns.1.1, burns.2, accepted⟩

theorem consumeTotp_isOk {credentials : Credentials} {code : String} {now : Stamp} :
    (∃ result, consumeTotp lib credentials code now = .ok result) ↔
      ∃ timestep, timestepOf lib credentials code now = some timestep ∧
        replayed credentials.totpLastTimestep timestep = false := by
  unfold consumeTotp
  split
  · next none' => simp [none']
  · next timestep is =>
    rw [is]
    split
    · next used => simp [used]
    · next fresh => simp [fresh]

end TwoFactor
end CortenDesk
