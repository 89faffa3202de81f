import CortenDesk.Lib.PhpBase64
import CortenDesk.Notifications.PresenceState
import CortenDesk.Strategy.Delivery
import CortenDesk.Strategy.Writes

/-!
The two requests a client sends without a token: the heartbeat and the inventory. The
fields are what the casts of the controller make of the body, an absent one being empty.
Notices to operators are left out.
-/
namespace CortenDesk
open Php

/-- A session as the audit log holds it. -/
structure AuditConnection where
  id : Nat
  action : String
  connId : Option Int
  rustdeskId : String
  fromPeer : Option String := none
  fromName : Option String := none
  ip : Option String := none
  sessionId : Option String := none
  connType : Int := 0
  uuid : Option String := none
  createdAt : Option Stamp
  closedAt : Option Stamp := none
  disconnectRequestedAt : Option Stamp := none
  disconnectSentAt : Option Stamp := none
  deriving DecidableEq

instance : Row AuditConnection := ⟨AuditConnection.id⟩

namespace AuditConnection

def disconnectRetrySeconds : Int := 60

def reconcileGraceSeconds : Int := 90

/-- An id that is null is in no list, and not in none. -/
def reconcileFor (connections : Table AuditConnection) (now : Instant) (rustdeskId : String)
    (live : List Int) : Table AuditConnection :=
  connections.update
    (fun row => row.rustdeskId = rustdeskId && row.closedAt.isNone &&
      row.createdAt.any (fun at' => decide (at' < now.stored - reconcileGraceSeconds)) &&
      (live.isEmpty || row.connId.any (· ∉ live)))
    fun row => { row with action := "close", closedAt := some now.stored }

def disconnectDue (now : Instant) (rustdeskId : String) (row : AuditConnection) : Bool :=
  row.rustdeskId = rustdeskId && row.closedAt.isNone && row.disconnectRequestedAt.isSome &&
    row.connId.isSome &&
    row.disconnectSentAt.all fun at' => decide (at' < now.stored - disconnectRetrySeconds)

def pendingDisconnectsFor (connections : Table AuditConnection) (now sentAt : Instant)
    (rustdeskId : String) : Table AuditConnection × List Int :=
  (connections.update (disconnectDue now rustdeskId)
      fun row => { row with disconnectSentAt := some sentAt.stored },
    (connections.rows.filter (disconnectDue now rustdeskId)).filterMap AuditConnection.connId)

end AuditConnection

namespace SyncController

/-- The columns of a device that a client reports of itself. -/
structure Inventory where
  cpu : Option String := none
  memory : Option String := none
  os : Option String := none
  hostname : Option String := none
  username : Option String := none
  version : Option String := none
  lastOnlineIp : Option String := none
  registeredIp : Option String := none
  deriving DecidableEq

structure State where
  system : System := {}
  inventory : Nat → Inventory := fun _ => {}
  connections : Table AuditConnection := Table.empty
  outages : Nat → DevicePresenceNotificationState.Store := fun _ => {}
  requireDeviceApproval : Bool := false

def State.deviceNamed (s : State) (rustdeskId : String) : Option Device :=
  s.system.db.devices.rows.find? fun row => row.rustdeskId = rustdeskId

structure Heartbeat where
  id : String
  uuid : String
  conns : List Int := []
  modifiedAt : Int := 0
  ip : String := ""
  seen : Instant
  reported : Instant
  token : ClaimToken
  reconciled : Instant
  disconnected : Instant
  delivery : DeliveryClock
  deriving DecidableEq

structure Sysinfo where
  id : String
  uuid : String
  cpu : String := ""
  memory : String := ""
  os : String := ""
  hostname : String := ""
  username : String := ""
  version : String := ""
  ip : String := ""
  seen : Instant
  reported : Instant
  token : ClaimToken
  deriving DecidableEq

structure HeartbeatResponse where
  sysinfo : Bool := false
  disconnect : List Int := []
  delivery : Option Delivery := none

/-- An empty uuid matches any; else the two are equal as they are, or once one of them has
been decoded. -/
def uuidMatches (stored sent : String) : Bool :=
  stored = "" || sent = "" || stored = sent ||
    decide (Decodes (bytes sent) (bytes stored)) || decide (Decodes (bytes stored) (bytes sent))

/-- `CheckDeviceNotifications::reportOnline`. -/
def reportOnline (s : State) (device : Device) (now : Instant) (token : ClaimToken) : State :=
  if device.status ≠ .active then s
  else
    { s with
      outages := Function.update s.outages device.id
        ((s.outages device.id).consumeRecovery now token).1 }

/-- What a heartbeat saves: a uuid sent in another form replaces the stored one. -/
def seenRow (r : Heartbeat) (device : Device) : Device :=
  { device with
    lastOnlineAt := some r.seen.stored
    uuid := if r.uuid ≠ "" ∧ device.uuid ≠ r.uuid then r.uuid else device.uuid }

def saveSeen (s : State) (device : Device) (r : Heartbeat) : State :=
  { s with
    system := Device.write s.system device (seenRow r)
    inventory := Function.update s.inventory device.id
      { s.inventory device.id with lastOnlineIp := some r.ip } }

/-- The strategy columns that a delivery leaves. -/
def saveDelivered (s : State) (device delivered : Device) : State :=
  { s with
    system := Device.write s.system device fun row =>
      { row with
        strategyVersion := delivered.strategyVersion
        strategyOptions := delivered.strategyOptions
        strategyAckedOptions := delivered.strategyAckedOptions
        strategyAckedAt := delivered.strategyAckedAt
        strategySentAt := delivered.strategySentAt } }

def heartbeat (column : JsonColumn) (s : State) (r : Heartbeat) : State × HeartbeatResponse :=
  if r.id = "" then (s, {})
  else match s.deviceNamed r.id with
    | none => (s, { sysinfo := true })
    | some device =>
        -- a recycled device and a mismatching sender are answered alike
        if device.trashed then (s, {})
        else if ! uuidMatches device.uuid r.uuid then (s, {})
        else
          let device' := seenRow r device
          let s := reportOnline (saveSeen s device r) device' r.reported r.token
          let hostname := (s.inventory device.id).hostname
          let reconciled := AuditConnection.reconcileFor s.connections r.reconciled r.id r.conns
          let (connections, disconnect) :=
            AuditConnection.pendingDisconnectsFor reconciled r.disconnected r.disconnected r.id
          let (delivered, delivery) := Strategy.deliveryFor column s.system.db.strategies.rows
            r.delivery device' r.modifiedAt
          (saveDelivered { s with connections } device delivered,
            { sysinfo := hostname = none || hostname = some "", disconnect, delivery })

def inventoryOf (r : Sysinfo) (registeredIp : Option String) : Inventory where
  cpu := some r.cpu
  memory := some r.memory
  os := some r.os
  hostname := some r.hostname
  username := some r.username
  version := some r.version
  lastOnlineIp := some r.ip
  registeredIp := registeredIp

/-- A first inventory registers the device, pending where approval is required. -/
def register (s : State) (r : Sysinfo) : State :=
  let status : DeviceStatus := if s.requireDeviceApproval then .pending else .active
  let id := s.system.db.devices.nextId
  let created := Device.create s.system { rustdeskId := r.id, uuid := r.uuid, status }
  { s with
    system := created.withDevices (created.db.devices.update (fun row => decide (row.id = id))
      fun row => { row with lastOnlineAt := some r.seen.stored })
    inventory := Function.update s.inventory id (inventoryOf r (some r.ip)) }

/-- The uuid is written as it was sent. -/
def describedRow (r : Sysinfo) (device : Device) : Device :=
  { device with uuid := r.uuid, lastOnlineAt := some r.seen.stored }

def describe (s : State) (device : Device) (r : Sysinfo) : State :=
  { s with
    system := Device.update s.system device (describedRow r)
    inventory := Function.update s.inventory device.id
      (inventoryOf r (s.inventory device.id).registeredIp) }

def sysinfo (s : State) (r : Sysinfo) : State × String :=
  if r.id = "" then (s, "ID_NOT_FOUND")
  else match s.deviceNamed r.id with
    | none => (register s r, "SYSINFO_UPDATED")
    | some device =>
        if device.trashed then (s, "SYSINFO_UPDATED")
        else if ! uuidMatches device.uuid r.uuid then (s, "SYSINFO_UPDATED")
        else (reportOnline (describe s device r) (describedRow r device) r.reported r.token,
          "SYSINFO_UPDATED")

inductive Request
  | heartbeat (r : Heartbeat)
  | sysinfo (r : Sysinfo)

namespace Request

def id : Request → String
  | .heartbeat r => r.id
  | .sysinfo r => r.id

def uuid : Request → String
  | .heartbeat r => r.uuid
  | .sysinfo r => r.uuid

def seen : Request → Instant
  | .heartbeat r => r.seen
  | .sysinfo r => r.seen

end Request

def handle (column : JsonColumn) (s : State) : Request → State
  | .heartbeat r => (SyncController.heartbeat column s r).1
  | .sysinfo r => (SyncController.sysinfo s r).1

end SyncController
end CortenDesk
