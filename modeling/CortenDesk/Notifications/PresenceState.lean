import CortenDesk.Database.Rows

/-!
The offline state of one device as the notifications keep it: the durable row, the legacy
cache marker and the short lock that a contender for the marker holds. Each function here
is one statement against the database or the cache, and atomic; what a sweep or a
heartbeat makes of them is a sequence of these.

A lock is free for others when its time is over. Tokens are `Str::uuid()`, drawn by the
caller. The ids of the rows and the outage that a marker or a delivered row stands for
are read by no statement.
-/
namespace CortenDesk

abbrev ClaimToken := Nat

namespace DevicePresenceNotificationState

def claimTimeoutSeconds : Int := 300

/-- A row of `device_presence_notification_states`. -/
structure Row where
  id : Nat
  offlineNotifiedAt : Option Stamp
  offlineClaimToken : Option ClaimToken
  offlineClaimedAt : Option Stamp
  outage : Option Nat := none
  deriving DecidableEq

structure Lock where
  owner : ClaimToken
  expiresAt : Instant
  deriving DecidableEq

structure Store where
  row : Option Row := none
  marker : Option Nat := none
  lock : Option Lock := none
  nextRowId : Nat := 1
  nextOutage : Nat := 1
  deriving DecidableEq

namespace Store

/-- `$lock->get()`. -/
def getLock (s : Store) (now : Instant) (token : ClaimToken) : Store × Bool :=
  if s.lock.all fun lock => decide (lock.expiresAt ≤ now) then
    ({ s with lock := some ⟨token, now + claimTimeoutSeconds * 1000000⟩ }, true)
  else (s, false)

/-- `$lock->isOwnedByCurrentProcess()`. -/
def ownsLock (s : Store) (now : Instant) (token : ClaimToken) : Bool :=
  s.lock.any fun lock => lock.owner = token && decide (now < lock.expiresAt)

/-- `$lock->release()`, which leaves the lock of another owner. -/
def releaseLock (s : Store) (token : ClaimToken) : Store :=
  { s with lock := s.lock.filter fun lock => lock.owner ≠ token }

/-- `Cache::forget`. -/
def forgetMarker (s : Store) : Store := { s with marker := none }

def notified (s : Store) : Bool := s.row.any fun row => row.offlineNotifiedAt.isSome

/-- `recordLegacyOffline`: an insert that an existing row makes void. -/
def recordLegacyOffline (s : Store) (now : Instant) (outage : Nat) : Store :=
  match s.row with
  | some _ => s
  | none =>
      { s with
        row := some
          { id := s.nextRowId, offlineNotifiedAt := some now.stored, offlineClaimToken := none
            offlineClaimedAt := none, outage := some outage }
        nextRowId := s.nextRowId + 1 }

/-- The first statement of `claimOfflineFor`: insert or ignore. -/
def insertClaim (s : Store) (now : Instant) (token : ClaimToken) : Store × Bool :=
  match s.row with
  | some _ => (s, false)
  | none =>
      ({ s with
        row := some
          { id := s.nextRowId, offlineNotifiedAt := none, offlineClaimToken := some token
            offlineClaimedAt := some now.stored }
        nextRowId := s.nextRowId + 1 }, true)

/-- The second: a pending claim whose time is over is taken. -/
def reclaim (s : Store) (now : Instant) (token : ClaimToken) : Store × Bool :=
  match s.row with
  | some row =>
      if row.offlineNotifiedAt.isNone &&
          row.offlineClaimedAt.any fun at' => decide (at' ≤ now.stored - claimTimeoutSeconds) then
        ({ s with
          row := some
            { row with offlineClaimToken := some token, offlineClaimedAt := some now.stored } },
          true)
      else (s, false)
  | none => (s, false)

/-- The row is pending and the claim on it is this one. -/
def claimedBy (s : Store) (token : ClaimToken) : Bool :=
  s.row.any fun row => row.offlineNotifiedAt.isNone && row.offlineClaimToken = some token

def markDelivered (s : Store) (now : Instant) (token : ClaimToken) : Store × Bool :=
  if s.claimedBy token then
    ({ s with
      row := s.row.map fun row =>
        { row with
          offlineNotifiedAt := some now.stored, offlineClaimToken := none
          offlineClaimedAt := none, outage := some s.nextOutage }
      nextOutage := s.nextOutage + 1 }, true)
  else (s, false)

def releaseClaim (s : Store) (token : ClaimToken) : Store × Bool :=
  if s.claimedBy token then ({ s with row := none }, true) else (s, false)

/-- `consumeFor`: the delivered row is deleted. -/
def consume (s : Store) : Store × Bool :=
  if s.notified then ({ s with row := none }, true) else (s, false)

/-- `consumeRecoveryFor` when no other process steps in between. -/
def consumeRecovery (s : Store) (now : Instant) (token : ClaimToken) : Store × Bool :=
  if s.marker.isNone && ! s.notified then (s, false)
  else
    let (s, locked) := s.getLock now token
    if ! locked then (s, false)
    else if s.marker.isNone then (s.releaseLock token).consume
    else
      let (s, durable) := s.consume
      if ! s.ownsLock now token then (s, durable)
      else
        let legacy := s.marker.isSome
        ((s.forgetMarker).releaseLock token, durable || legacy)

end Store
end DevicePresenceNotificationState
end CortenDesk
