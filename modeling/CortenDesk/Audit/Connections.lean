import CortenDesk.Api.Sync
import CortenDesk.Lib.Runs
import Mathlib.Data.List.MinMax

/-!
The audit rows of incoming sessions. A controlled device posts when a connection opens,
when it is authorized and when it closes; its heartbeats list the connections it holds, and
a sweep closes the rows of devices that fell silent. A device numbers its connections from
one at every boot. Only the device knows the boot a message comes from, so a log keeps
beside the rows the boot whose connection opened each and the boot that named its peer.
-/
namespace CortenDesk
open Php

namespace AuditConnection

def staleAfterMinutes : Int := 5

def isOpen (row : AuditConnection) : Bool := row.closedAt.isNone

/-- Whether heartbeats no longer spare the row. -/
def pastGrace (now : Instant) (row : AuditConnection) : Bool :=
  row.createdAt.any fun at' => decide (at' < now.stored - reconcileGraceSeconds)

theorem id_closed (now : Instant) (row : AuditConnection) :
    Row.id { row with action := "close", closedAt := some now.stored } = Row.id row := rfl

def closeStaleSessions (connections : Table AuditConnection) (devices : Table Device)
    (now : Instant) : Table AuditConnection :=
  let cutoff := now.stored - staleAfterMinutes * 60
  let heartbeating := devices.rows.filter fun device =>
    ! device.trashed && device.lastOnlineAt.any fun at' => decide (cutoff ≤ at')
  connections.update
    (fun row => row.isOpen && row.createdAt.any (fun at' => decide (at' < cutoff)) &&
      ! heartbeating.any fun device => device.rustdeskId = row.rustdeskId)
    (fun row => { row with action := "close", closedAt := some now.stored }) (id_closed now)

end AuditConnection

namespace AuditController
open AuditConnection

/-- `POST /api/audit/conn`; the peer is the pair of its id and its name. -/
structure Post where
  action : Option String := none
  id : String
  connId : Int
  ip : Option String := none
  sender : String := ""
  sessionId : String := ""
  uuid : String := ""
  peerId : String := ""
  peerName : String := ""
  type : Int := 0
  now : Instant
  deriving DecidableEq

/-- A post without a device or a connection is answered and dropped. -/
def ignored (r : Post) : Bool := r.id = "" || r.connId = 0

def openFor (r : Post) (row : AuditConnection) : Bool :=
  row.rustdeskId = r.id && row.connId = some r.connId && row.isOpen

/-- The latest open row of the connection id. -/
def openRow (connections : Table AuditConnection) (r : Post) : Option AuditConnection :=
  (connections.rows.filter (openFor r)).argmax AuditConnection.id

def opened (r : Post) (id : Nat) : AuditConnection where
  id := id
  action := "new"
  connId := some r.connId
  rustdeskId := r.id
  ip := some (r.ip.getD r.sender)
  sessionId := some r.sessionId
  uuid := some r.uuid
  createdAt := some r.now.stored

def closed (r : Post) (row : AuditConnection) : AuditConnection :=
  { row with action := "close", closedAt := some r.now.stored }

def authorized (r : Post) (row : AuditConnection) : AuditConnection :=
  { row with
    action := "authorized"
    fromPeer := some r.peerId
    fromName := some r.peerName
    connType := r.type }

/-- An authorization whose opening post was lost opens its own row. -/
def openedAuthorized (r : Post) (id : Nat) : AuditConnection where
  id := id
  action := "authorized"
  fromPeer := some r.peerId
  fromName := some r.peerName
  connType := r.type
  connId := some r.connId
  rustdeskId := r.id
  sessionId := some r.sessionId
  uuid := some r.uuid
  ip := some r.sender
  createdAt := some r.now.stored

/-- What a post asks for. -/
inductive Kind
  | new
  | close
  | authorize
  deriving DecidableEq

def kind (r : Post) : Kind :=
  if r.action = some "new" then .new else if r.action = some "close" then .close else .authorize

def write (connections : Table AuditConnection) (row : AuditConnection)
    (f : AuditConnection → AuditConnection)
    (keeps : ∀ row, Row.id (f row) = Row.id row := by intro _; rfl) : Table AuditConnection :=
  connections.update (fun old => decide (Row.id old = row.id)) f keeps

def connection (connections : Table AuditConnection) (r : Post) : Table AuditConnection :=
  if ignored r then connections
  else match kind r with
    | .new => connections.insert (opened r)
    | .close =>
        match openRow connections r with
        | some row => write connections row (closed r)
        | none => connections
    | .authorize =>
        match openRow connections r with
        | some row => write connections row (authorized r)
        | none => connections.insert (openedAuthorized r)

end AuditController

namespace SessionLog
open AuditController

inductive Message
  | audit (post : Post)
  | sync (request : SyncController.Request)
  | sweep (now : Instant)

/-- A message, and the boot of the device that it speaks of. -/
structure Event where
  boot : Nat := 0
  message : Message

structure Log where
  state : SyncController.State
  /-- The boot whose connection opened the row. -/
  openedBy : Nat → Nat := fun _ => 0
  /-- The boot whose authorization named the peer of the row. -/
  namedBy : Nat → Option Nat := fun _ => none

def Log.rows (log : Log) : List AuditConnection := log.state.connections.rows

/-- What a post that is not ignored records: a row it inserts is its boot's, and a peer it
names is its boot's. -/
def mark (log : Log) (boot : Nat) (r : Post) : Log :=
  match kind r with
  | .new =>
      { log with
        openedBy := Function.update log.openedBy log.state.connections.nextId boot
        namedBy := Function.update log.namedBy log.state.connections.nextId none }
  | .close => log
  | .authorize =>
      match openRow log.state.connections r with
      | some row => { log with namedBy := Function.update log.namedBy row.id (some boot) }
      | none =>
          { log with
            openedBy := Function.update log.openedBy log.state.connections.nextId boot
            namedBy := Function.update log.namedBy log.state.connections.nextId (some boot) }

def step (column : JsonColumn) (log : Log) (e : Event) : Log :=
  match e.message with
  | .audit r =>
      let marked := if ignored r then log else mark log e.boot r
      { marked with
        state := { log.state with connections := connection log.state.connections r } }
  | .sync r => { log with state := SyncController.handle column log.state r }
  | .sweep now =>
      { log with
        state := { log.state with
          connections := AuditConnection.closeStaleSessions log.state.connections
            log.state.system.db.devices now } }

/-- A server without audit rows. -/
def start (state : SyncController.State) : Log where
  state := { state with connections := Table.empty }

/-- A connection id has one open row, and a row's peer was named by the connection that
opened it. -/
structure Tracks (log : Log) : Prop where
  single : ∀ row ∈ log.rows, ∀ other ∈ log.rows, row.isOpen → other.isOpen →
    row.rustdeskId = other.rustdeskId → row.connId = other.connId → row = other
  own : ∀ row ∈ log.rows, ∀ boot, log.namedBy row.id = some boot → log.openedBy row.id = boot

/-- The server takes the heartbeat for one of the device. -/
def accepts (state : SyncController.State) (r : SyncController.Heartbeat) : Bool :=
  r.id ≠ "" && (state.deviceNamed r.id).any fun device =>
    ! device.trashed && SyncController.uuidMatches device.uuid r.uuid

/-- An open row of the device that the heartbeat may close. -/
def Due (r : SyncController.Heartbeat) (row : AuditConnection) : Prop :=
  row.isOpen ∧ row.rustdeskId = r.id ∧ row.pastGrace r.reconciled

/-- The open rows past their grace belong to connections that the device listed. -/
def Reconciled (log : Log) (boot : Nat) (r : SyncController.Heartbeat) : Prop :=
  ∀ row ∈ log.rows, Due r row → (∃ live ∈ r.conns, row.connId = some live) ∧
    log.openedBy row.id = boot

/-- After the step the rows track the connections, and after a heartbeat they are the
device's own. -/
def Tracked (column : JsonColumn) (log : Log) (e : Event) : Prop :=
  Tracks (step column log e) ∧
    ∀ r, e.message = .sync (.heartbeat r) → accepts log.state r →
      Reconciled (step column log e) e.boot r

/-- An opening post finds no row that is open under its connection id, and no other message names
an id that is open under a row of another connection. -/
def Unused (log : Log) (e : Event) : Prop :=
  match e.message with
  | .audit r => ignored r = false →
      match kind r with
      | .new => openRow log.state.connections r = none
      | .close => True
      | .authorize => ∀ row, openRow log.state.connections r = some row →
          log.openedBy row.id = e.boot
  | .sync (.heartbeat r) => accepts log.state r →
      ∀ row ∈ log.rows, Due r row → (∃ live ∈ r.conns, row.connId = some live) →
        log.openedBy row.id = e.boot
  | .sync (.sysinfo _) | .sweep _ => True

end SessionLog
end CortenDesk
