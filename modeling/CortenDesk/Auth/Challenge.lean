import CortenDesk.Auth.TwoFactor
import CortenDesk.Lib.Interleaving

/-!
The second factors of one account under concurrent requests, statement by statement: each
read of the account or of its recovery codes and each write is one step. A request works on
the copy of the account it loaded, and saving a model writes the columns that differ from
that copy. Beside the rows, the shared state records what was accepted: it is written with
the statement that lets the request through, and no request reads it.
-/
namespace CortenDesk
open Php

/-- `save()` of a model: the columns changed since it was loaded. -/
def Credentials.save (loaded changed row : Credentials) : Credentials :=
  { row with
    totpSecret := if changed.totpSecret = loaded.totpSecret then row.totpSecret
      else changed.totpSecret
    totpEnabled := if changed.totpEnabled = loaded.totpEnabled then row.totpEnabled
      else changed.totpEnabled
    totpLastTimestep := if changed.totpLastTimestep = loaded.totpLastTimestep then
      row.totpLastTimestep else changed.totpLastTimestep }

/-- What a confirmed enrolment writes. -/
def Credentials.enrol (credentials : Credentials) (secret : String) (timestep : Int) :
    Credentials :=
  { credentials with
    totpSecret := some secret, totpEnabled := true, totpLastTimestep := some timestep }

namespace Challenge

/-- A time step that was accepted for an enrolment: by the request named, or, first, by the
confirmation that began the enrolment. -/
structure Acceptance where
  enrolment : Nat
  timestep : Int
  request : Option Nat
  deriving DecidableEq

/-- A recovery code row that let a request through. -/
structure Redemption where
  row : Nat
  request : Nat
  deriving DecidableEq

structure Account where
  credentials : Credentials
  codes : Table RecoveryCode := Table.empty
  /-- How many enrolments have been confirmed; the last one has this number. -/
  enrolment : Nat := 0
  accepted : List Acceptance := []
  redeemed : List Redemption := []

inductive Request
  | twoFactorChallenge (code : String)
  | confirmSetup (secret code : String)
  | regenerateRecoveryCodes (password : String)
  | disable (password : String)
  | resetTwoFactor
  deriving DecidableEq

/-- Where a request stands. -/
inductive Process
  | sent (request : Request)
  | loaded (code : String) (user : Credentials) (enrolment : Nat)
  | verified (timestep : Int) (user : Credentials) (enrolment : Nat)
  | selecting (code : String)
  | matched (row : Nat)
  | counting
  | confirming (secret code : String) (user : Credentials)
  | enrolling (secret : String) (timestep : Int) (user : Credentials)
  | checking (password : String) (user : Credentials)
  | issuing
  | creating (left : Nat)
  | disabling (password : String) (user : Credentials)
  | resetting (user : Credentials)
  | clearingCodes (user : Credentials)
  | clearing (user : Credentials)
  | signedIn (warning : Option String)
  | refused (message : String)
  | returned
  deriving DecidableEq

/-- What a step takes from outside: the clock, the refusal of a check that does not concern
the second factor (the session marker, the status of the account, the rate limiter), whether
two factors are enforced, and the hash of a code it mints. -/
structure Input where
  now : Stamp := 0
  refusal : Option String := none
  required : Bool := false
  codeHash : String := ""

variable (lib : Primitives) (userId : Nat)

/-- The first read of a request. -/
def load (s : Account) : Request → Process
  | .twoFactorChallenge code =>
      if s.credentials.totpEnabled then .loaded code s.credentials s.enrolment
      else .refused "Your sign-in session expired. Please sign in again."
  | .confirmSetup secret code =>
      if s.credentials.totpEnabled then .returned else .confirming secret code s.credentials
  | .regenerateRecoveryCodes password =>
      if s.credentials.totpEnabled then .checking password s.credentials else .returned
  | .disable password =>
      if s.credentials.totpEnabled then .disabling password s.credentials else .returned
  | .resetTwoFactor => .resetting s.credentials

def passwordIncorrect : String := "That password is incorrect."

def setupIncorrect : String := "That code is incorrect or has expired. Try the current one."

/-- One statement of a request, with what it computes before the next one. -/
def act (pid : Nat) (s : Account) (process : Process) (input : Input) : Account × Process :=
  match process with
  | .sent request => (s, load s request)
  | .loaded code user enrolment =>
      match input.refusal with
      | some message => (s, .refused message)
      | none =>
          if TwoFactor.looksLikeRecoveryCode (trim code) then (s, .selecting (trim code))
          else match TwoFactor.timestepOf lib user (trim code) input.now with
            | none => (s, .refused TwoFactor.incorrect)
            | some timestep =>
                if TwoFactor.replayed user.totpLastTimestep timestep then
                  (s, .refused TwoFactor.alreadyUsed)
                else (s, .verified timestep user enrolment)
  | .verified timestep user enrolment =>
      ({ s with
          credentials := user.save { user with totpLastTimestep := some timestep } s.credentials
          accepted := { enrolment, timestep, request := some pid } :: s.accepted },
        .signedIn none)
  | .selecting code =>
      match TwoFactor.matchCode lib s.codes userId (TwoFactor.normalizeRecoveryCode code) with
      | none => (s, .refused TwoFactor.invalidRecovery)
      | some row => (s, .matched row.id)
  | .matched row =>
      if TwoFactor.claimed s.codes userId row = 0 then (s, .refused TwoFactor.invalidRecovery)
      else
        ({ s with
            codes := TwoFactor.burn s.codes userId row input.now
            redeemed := { row, request := pid } :: s.redeemed },
          .counting)
  | .counting =>
      (s, .signedIn (TwoFactor.lowWarning (TwoFactor.unusedCodes s.codes userId).length))
  | .confirming secret code user =>
      match (if secret = "" then none else TwoFactor.verify lib secret code input.now) with
      | none => (s, .refused setupIncorrect)
      | some timestep => (s, .enrolling secret timestep user)
  | .enrolling secret timestep user =>
      ({ s with
          credentials := user.save (user.enrol secret timestep) s.credentials
          enrolment := s.enrolment + 1
          accepted := { enrolment := s.enrolment + 1, timestep, request := none } :: s.accepted },
        .issuing)
  | .checking password user =>
      if lib.check password user.password then (s, .issuing) else (s, .refused passwordIncorrect)
  | .issuing =>
      ({ s with codes := s.codes.delete fun row => row.userId = userId },
        .creating TwoFactor.recoveryCount)
  | .creating 0 => (s, .returned)
  | .creating (left + 1) =>
      ({ s with codes := s.codes.insert fun id => { id, userId, codeHash := input.codeHash } },
        .creating left)
  | .disabling password user =>
      if input.required then
        (s, .refused "Two-factor authentication is required for your account and cannot be disabled.")
      else if lib.check password user.password then (s, .clearingCodes user)
      else (s, .refused passwordIncorrect)
  | .resetting user =>
      if ! user.totpEnabled && ! s.codes.rows.any (fun row => row.userId = userId) &&
          user.totpSecret.isNone then (s, .returned)
      else (s, .clearingCodes user)
  | .clearingCodes user =>
      ({ s with codes := s.codes.delete fun row => row.userId = userId }, .clearing user)
  | .clearing user =>
      ({ s with credentials := user.save user.clearTwoFactor s.credentials }, .returned)
  | .signedIn _ | .refused _ | .returned => (s, process)

/-- The requests against one account; beside them its password may change. -/
def system : Interleaving.System Account Process Input String where
  act := act lib userId
  environment s password := { s with credentials := { s.credentials with password } }

/-- A new account, and the requests that will reach it. -/
def start (password : String) (requests : Nat → Request) :
    Interleaving.Config Account Process where
  shared := { credentials := { password } }
  process pid := .sent (requests pid)

/-- What single use means of a record of acceptances, the last one first. -/
structure SingleUse (accepted : List Acceptance) : Prop where
  once : (accepted.map fun a => (a.enrolment, a.timestep)).Nodup
  increasing : accepted.Pairwise fun later earlier =>
    later.enrolment = earlier.enrolment → earlier.timestep < later.timestep

def RedeemedOnce (redeemed : List Redemption) : Prop := (redeemed.map Redemption.row).Nodup

/-- A request writes the pointer while the account still has the enrolment that the request
loaded, with a pointer below the accepted time step. -/
def Fresh (_ : Nat) (s : Account) (process : Process) (_ : Input) : Prop :=
  match process with
  | .verified timestep _ enrolment =>
      s.enrolment = enrolment ∧ s.credentials.totpEnabled = true ∧
        TwoFactor.replayed s.credentials.totpLastTimestep timestep = false
  | _ => True

instance (accepted : List Acceptance) : Decidable (SingleUse accepted) :=
  decidable_of_iff
    ((accepted.map fun a => (a.enrolment, a.timestep)).Nodup ∧
      accepted.Pairwise fun later earlier =>
        later.enrolment = earlier.enrolment → earlier.timestep < later.timestep)
    ⟨fun both => ⟨both.1, both.2⟩, fun single => ⟨single.once, single.increasing⟩⟩

instance (redeemed : List Redemption) : Decidable (RedeemedOnce redeemed) :=
  inferInstanceAs (Decidable (redeemed.map Redemption.row).Nodup)

instance (pid : Nat) (s : Account) (process : Process) (input : Input) :
    Decidable (Fresh pid s process input) := by
  unfold Fresh
  split <;> infer_instance

end Challenge
end CortenDesk
