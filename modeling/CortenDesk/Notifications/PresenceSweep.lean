import CortenDesk.Lib.Interleaving
import CortenDesk.Notifications.PresenceState

/-!
Presence sweeps and heartbeats as contenders for the offline state of one device. A contender
takes one statement at a time, may crash before any of them, and presents the token of its
own. Where it stands in the section that the short lock guards it knows since when it has
held the lock.

The shared state records beside the store who marked which row delivered and which recoveries
were reported. The last two fields are read by no statement: `gone` is set once a contender
has found the legacy marker absent or has forgotten it for a recovery, and `taken` names the
contender that took the offline state of an outage for its recovery.
-/
namespace CortenDesk

namespace DevicePresenceNotificationState

/-- What a contender wants the legacy marker for. -/
inductive Purpose
  | recovery
  | conversion
  deriving DecidableEq

inductive Contender
  | heartbeat
  | sweep
  | swept (notified : Bool)
  | checkingMarker
  | checkingState
  | locking (purpose : Purpose)
  | looking (purpose : Purpose) (since : Instant)
  | leaving (purpose : Purpose) (since : Instant)
  | consuming
  | consumingHeld (since : Instant)
  | checkingOwner (since : Instant) (durable : Bool) (outages : List Nat)
  | pulling (since : Instant) (durable : Bool) (outages : List Nat)
  | forgetting (since : Instant) (recovery : Bool) (outages : List Nat)
  | unlocking (since : Instant) (recovery : Bool) (outages : List Nat)
  | recovered (outages : List Nat)
  | convertChecking (since : Instant)
  | convertPulling (since : Instant)
  | convertForgetting (since : Instant) (legacy : Option Nat)
  | recording (since : Instant) (legacy : Nat)
  | convertUnlocking (since : Instant)
  | claiming
  | reclaiming (now : Instant)
  | sending
  | marking
  | releasing
  | returned
  deriving DecidableEq

/-- A row that a contender marked delivered. -/
structure Delivery where
  row : Nat
  contender : Nat
  deriving DecidableEq

/-- A recovery that was reported, and the outages it closed. -/
structure Recovery where
  contender : Nat
  outages : List Nat
  deriving DecidableEq

/-- The offline state of an outage, taken by a contender. -/
structure Taking where
  contender : Nat
  outage : Nat
  deriving DecidableEq

structure Presence where
  store : Store
  now : Instant
  delivered : List Delivery := []
  recovered : List Recovery := []
  gone : Bool := false
  taken : List Taking := []

/-- What a step takes from outside: a crash, the status of the device, the sweep's reading of
its presence, and whether the transport delivered. -/
structure Input where
  crash : Bool := false
  active : Bool := true
  online : Bool := false
  snoozed : Bool := false
  pastGrace : Bool := true
  sent : Bool := true

inductive Environment
  | clock (microseconds : Nat)
  | expireMarker

/-- The token of a contender. -/
def token (pid : Nat) : ClaimToken := pid + 1

/-- The outage that the row stands for. -/
def Store.outages (s : Store) : List Nat := (s.row.bind Row.outage).toList

def taking (pid : Nat) (outages : List Nat) : List Taking := outages.map (Taking.mk pid)

/-- One statement of a contender, with what it computes before the next one. -/
def act (pid : Nat) (s : Presence) (contender : Contender) (input : Input) :
    Presence × Contender :=
  if input.crash then (s, .returned)
  else match contender with
  | .heartbeat => (s, if input.active then .checkingMarker else .returned)
  | .sweep => (s, .swept s.store.notified)
  | .swept notified =>
      (s,
        if input.online then .checkingMarker
        else if notified || input.snoozed || ! input.pastGrace then .returned
        else .locking .conversion)
  | .checkingMarker => (s, if s.store.marker.isSome then .locking .recovery else .checkingState)
  | .checkingState => (s, if s.store.notified then .locking .recovery else .returned)
  | .locking purpose =>
      let (store, locked) := s.store.getLock s.now (token pid)
      ({ s with store }, if locked then .looking purpose s.now else .returned)
  | .looking purpose since =>
      if s.store.marker.isNone then ({ s with gone := true }, .leaving purpose since)
      else
        (s, match purpose with
          | .recovery => .consumingHeld since
          | .conversion => .convertChecking since)
  | .leaving purpose _ =>
      ({ s with store := s.store.releaseLock (token pid) },
        match purpose with
        | .recovery => .consuming
        | .conversion => .claiming)
  | .consuming =>
      if s.store.consume.2 then
        ({ s with store := s.store.consume.1, taken := taking pid s.store.outages ++ s.taken },
          .recovered s.store.outages)
      else ({ s with store := s.store.consume.1 }, .returned)
  | .consumingHeld since =>
      ({ s with store := s.store.consume.1 },
        .checkingOwner since s.store.consume.2
          (if s.store.consume.2 then s.store.outages else []))
  | .checkingOwner since durable outages =>
      (s,
        if s.store.ownsLock s.now (token pid) then .pulling since durable outages
        else if durable then .recovered outages else .returned)
  | .pulling since durable outages =>
      (s, .forgetting since (durable || s.store.marker.isSome) (s.store.marker.toList ++ outages))
  | .forgetting since recovery outages =>
      ({ s with
          store := s.store.forgetMarker
          gone := true
          taken := taking pid outages ++ s.taken },
        .unlocking since recovery outages)
  | .unlocking _ recovery outages =>
      ({ s with store := s.store.releaseLock (token pid) },
        if recovery then .recovered outages else .returned)
  | .recovered outages =>
      ({ s with recovered := { contender := pid, outages } :: s.recovered }, .returned)
  | .convertChecking since =>
      (s, if s.store.ownsLock s.now (token pid) then .convertPulling since else .returned)
  | .convertPulling since => (s, .convertForgetting since s.store.marker)
  | .convertForgetting since legacy =>
      ({ s with store := s.store.forgetMarker },
        match legacy with
        | some outage => .recording since outage
        | none => .convertUnlocking since)
  | .recording since legacy =>
      ({ s with store := s.store.recordLegacyOffline s.now legacy }, .convertUnlocking since)
  | .convertUnlocking _ => ({ s with store := s.store.releaseLock (token pid) }, .returned)
  | .claiming =>
      let (store, inserted) := s.store.insertClaim s.now (token pid)
      ({ s with store }, if inserted then .sending else .reclaiming s.now)
  | .reclaiming now =>
      let (store, reclaimed) := s.store.reclaim now (token pid)
      ({ s with store }, if reclaimed then .sending else .returned)
  | .sending => (s, if input.sent then .marking else .releasing)
  | .marking =>
      if (s.store.markDelivered s.now (token pid)).2 then
        ({ s with
            store := (s.store.markDelivered s.now (token pid)).1
            delivered :=
              s.store.row.toList.map (fun row => { row := row.id, contender := pid }) ++
                s.delivered },
          .returned)
      else ({ s with store := (s.store.markDelivered s.now (token pid)).1 }, .releasing)
  | .releasing => ({ s with store := (s.store.releaseClaim (token pid)).1 }, .returned)
  | .returned => (s, .returned)

def environment (s : Presence) : Environment → Presence
  | .clock microseconds => { s with now := s.now + microseconds }
  | .expireMarker => { s with store := s.store.forgetMarker }

def system : Interleaving.System Presence Contender Input Environment := ⟨act, environment⟩

/-- What the contenders find: a row that is pending, or delivered for an outage, and perhaps a
marker, which stands for an outage too. -/
structure Inherited (s : Store) : Prop where
  row : ∀ row, s.row = some row → row.id < s.nextRowId ∧
    (row.offlineNotifiedAt.isSome = true ↔ row.outage.isSome = true) ∧
    ∀ outage, row.outage = some outage → outage < s.nextOutage
  marker : ∀ outage, s.marker = some outage → outage < s.nextOutage

/-- Whether a contender is a heartbeat or a sweep. -/
def start (store : Store) (now : Instant) (isSweep : Nat → Bool) :
    Interleaving.Config Presence Contender where
  shared := { store, now }
  process pid := if isSweep pid then .sweep else .heartbeat

/-- Since when a contender has held the lock. -/
def Contender.section? : Contender → Option Instant
  | .looking _ since | .leaving _ since | .consumingHeld since | .checkingOwner since _ _
  | .pulling since _ _ | .forgetting since _ _ | .unlocking since _ _ | .convertChecking since
  | .convertPulling since | .convertForgetting since _ | .recording since _
  | .convertUnlocking since => some since
  | _ => none

def claimTimeout : Int := claimTimeoutSeconds * 1000000

/-- The holder of the lock takes each of its steps within the timeout, or crashes. -/
def Timely (_ : Nat) (s : Presence) (contender : Contender) (input : Input) : Prop :=
  input.crash = false → ∀ since, contender.section? = some since → s.now < since + claimTimeout

instance (pid : Nat) (s : Presence) (contender : Contender) (input : Input) :
    Decidable (Timely pid s contender input) :=
  decidable_of_iff
    (input.crash = false → contender.section?.all (fun since => s.now < since + claimTimeout) = true)
    (by unfold Timely; cases contender.section? <;> simp)

/-- A contender that has claimed the row and reports on its delivery. -/
def Contender.settles : Contender → Bool
  | .marking | .releasing => true
  | _ => false

/-- A statement that settles a claim the contender has lost changes nothing in the store. -/
def LoserChangesNothing (c : Interleaving.Config Presence Contender) :
    Interleaving.Event Input Environment → Prop
  | .act pid input => (c.process pid).settles = true → c.shared.store.claimedBy (token pid) = false →
      (act pid c.shared (c.process pid) input).1.store = c.shared.store
  | .environment _ => True

/-- Whether the next statement consumes the row for a recovery. -/
def Contender.consumes : Contender → Bool
  | .consuming | .consumingHeld _ => true
  | _ => false

/-- Whether a contender has consumed the row, or the marker, for a recovery. -/
def Contender.isRecovering : Contender → Bool
  | .recovered _ => true
  | .checkingOwner _ durable _ => durable
  | _ => false

/-- A statement that consumes leaves a pending row, and nothing is taken for a recovery. -/
def PendingNotConsumed (c : Interleaving.Config Presence Contender) :
    Interleaving.Event Input Environment → Prop
  | .act pid input => (c.process pid).consumes = true → c.shared.store.notified = false →
      (act pid c.shared (c.process pid) input).1.store.row = c.shared.store.row ∧
        (act pid c.shared (c.process pid) input).2.isRecovering = false
  | .environment _ => True

/-- Each row is marked delivered by one contender. -/
def DeliveredOnce (s : Presence) : Prop := (s.delivered.map Delivery.row).Nodup

/-- No outage is closed by two recoveries. -/
def RecoveredOnce (s : Presence) : Prop :=
  s.recovered.Pairwise fun later earlier => ∀ outage ∈ later.outages, outage ∉ earlier.outages

end DevicePresenceNotificationState
end CortenDesk
