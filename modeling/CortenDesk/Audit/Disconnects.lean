import CortenDesk.Access.Console
import CortenDesk.Access.Visibility
import CortenDesk.Audit.LiveSessions

/-!
An operator ends a session by way of the device: the console marks the row, and the heartbeats of
the device are told to close the connection until the row is closed. Requests and orders are matched
here over whole runs: no connection is ordered closed that no operator asked for, an order is not
repeated within the minute, and no heartbeat that is taken leaves a request without one.
-/
namespace CortenDesk
open Php

namespace ActiveSessions

/-- An open session that the operator may end. -/
def session? (s : SyncController.State) (actor : User) (id : Nat) : Option AuditConnection :=
  if ! actor.consoleAllows s.system.db .audit .r then none
  else (s.connections.rows.find? fun row => row.id = id && row.isOpen).filter fun session =>
    actor.consoleAllows s.system.db .device .rw &&
      (actor.isAdmin || s.system.db.devices.rows.any fun device =>
        ! device.trashed && Device.visibleTo s.system.db actor device &&
          device.rustdeskId = session.rustdeskId)

def disconnect (s : SyncController.State) (actor : User) (id : Nat) (now : Instant) :
    SyncController.State :=
  match session? s actor id with
  | none => s
  | some session =>
      { s with
        connections := s.connections.update (fun row => decide (row.id = session.id)) fun row =>
          { row with disconnectRequestedAt := some now.stored, disconnectSentAt := none } }

end ActiveSessions

namespace Disconnects

inductive Event
  | disconnect (actor : User) (id : Nat) (now : Instant)
  | audit (post : AuditController.Post)
  | sync (request : SyncController.Request)
  | sweep (now : Instant)
  | change (system : System)

/-- A request as it was made, with what the database said of its operator. -/
structure Requested where
  session : AuditConnection
  actor : User
  db : Database

/-- A connection that a heartbeat was told to close; `asked` counts the requests before it. -/
structure Order where
  row : Nat
  rustdeskId : String
  connId : Option Int
  asked : Nat
  sentAt : Stamp

structure Ledger where
  state : SyncController.State
  requests : List Requested := []
  orders : List Order := []

def step (column : JsonColumn) (s : SyncController.State) : Event → SyncController.State
  | .disconnect actor id now => ActiveSessions.disconnect s actor id now
  | .audit post => { s with connections := AuditController.connection s.connections post }
  | .sync request => SyncController.handle column s request
  | .sweep now => { s with connections := AuditConnection.closeStaleSessions s.connections s.system.db.devices now }
  | .change system => { s with system }

def Ledger.asked (ledger : Ledger) (row : Nat) : Nat :=
  (ledger.requests.filter fun request => request.session.id = row).length

def requested (s : SyncController.State) : Event → Option Requested
  | .disconnect actor id _ => (ActiveSessions.session? s actor id).map fun session =>
      { session, actor, db := s.system.db }
  | _ => none

/-- The rows whose connections a heartbeat is told to close. -/
def due (s : SyncController.State) (r : SyncController.Heartbeat) : List AuditConnection :=
  if SessionLog.accepts s r then
    (AuditConnection.reconcileFor s.connections r.reconciled r.id r.conns).rows.filter (AuditConnection.disconnectDue r.disconnected r.id)
  else []

def Ledger.orderOf (ledger : Ledger) (now : Instant) (row : AuditConnection) : Order where
  row := row.id
  rustdeskId := row.rustdeskId
  connId := row.connId
  asked := ledger.asked row.id
  sentAt := now.stored

def Ledger.ordered (ledger : Ledger) : Event → List Order
  | .sync (.heartbeat r) => (due ledger.state r).map (ledger.orderOf r.disconnected)
  | _ => []

def record (column : JsonColumn) (ledger : Ledger) (event : Event) : Ledger where
  state := step column ledger.state event
  requests := ledger.requests ++ (requested ledger.state event).toList
  orders := ledger.orders ++ ledger.ordered event

/-- The operator may end sessions, and sees the device. -/
structure May (db : Database) (actor : User) (rustdeskId : String) : Prop where
  audit : actor.consoleAllows db .audit .r = true
  device : actor.consoleAllows db .device .rw = true
  sees : actor.isAdmin = true ∨ ∃ device ∈ db.devices.rows, device.trashed = false ∧
    Device.visibleTo db actor device = true ∧ device.rustdeskId = rustdeskId

/-- Nothing of the request is written, and what is closed stays closed. -/
structure Carried (old row : AuditConnection) : Prop where
  id : row.id = old.id
  rustdeskId : row.rustdeskId = old.rustdeskId
  connId : row.connId = old.connId
  closed : row.isOpen = true → old.isOpen = true
  requestedAt : row.disconnectRequestedAt = old.disconnectRequestedAt
  sentAt : row.disconnectSentAt = old.disconnectSentAt

theorem Carried.refl (row : AuditConnection) : Carried row row :=
  ⟨rfl, rfl, rfl, fun still => still, rfl, rfl⟩

/-- The rows of a table after what is not a request or an order: new ones are not marked. -/
structure Evolves (before after : Table AuditConnection) : Prop where
  next : before.nextId ≤ after.nextId
  rows : ∀ row ∈ after.rows,
    (before.nextId ≤ row.id ∧ row.disconnectRequestedAt = none ∧ row.disconnectSentAt = none) ∨
      ∃ old ∈ before.rows, Carried old row

theorem Evolves.refl (t : Table AuditConnection) : Evolves t t :=
  ⟨Nat.le_refl _, fun row listed => .inr ⟨row, listed, .refl row⟩⟩

theorem Evolves.update (t : Table AuditConnection) {p : AuditConnection → Bool}
    {f : AuditConnection → AuditConnection} (keeps : ∀ row, Row.id (f row) = Row.id row)
    (carried : ∀ row, Carried row (f row)) : Evolves t (t.update p f keeps) := by
  refine ⟨Nat.le_refl _, fun row listed => ?_⟩
  obtain ⟨old, present, rfl⟩ := Table.mem_update.mp listed
  refine .inr ⟨old, present, ?_⟩
  split
  · exact carried old
  · exact .refl old

theorem Evolves.insert (t : Table AuditConnection) {make : Nat → AuditConnection}
    (given : ∀ n, Row.id (make n) = n) (unmarked : (make t.nextId).disconnectRequestedAt = none ∧
      (make t.nextId).disconnectSentAt = none) : Evolves t (t.insert make given) := by
  refine ⟨Nat.le_succ _, fun row listed => ?_⟩
  rcases Table.mem_insert.mp listed with old | rfl
  · exact .inr ⟨row, old, .refl row⟩
  · exact .inl ⟨Nat.le_of_eq (given _).symm, unmarked⟩

theorem evolves_connection (t : Table AuditConnection) (r : AuditController.Post) :
    Evolves t (AuditController.connection t r) := by
  unfold AuditController.connection
  split
  · exact .refl t
  · split
    · exact .insert t _ ⟨rfl, rfl⟩
    · split
      · exact .update t (fun _ => rfl) (f := AuditController.closed r) fun row =>
          ⟨rfl, rfl, rfl, fun still => absurd still Bool.false_ne_true, rfl, rfl⟩
      · exact .refl t
    · split
      · exact .update t (fun _ => rfl) (f := AuditController.authorized r) fun row =>
          ⟨rfl, rfl, rfl, id, rfl, rfl⟩
      · exact .insert t _ ⟨rfl, rfl⟩

theorem evolves_reconcile (t : Table AuditConnection) (now : Instant) (rustdeskId : String)
    (live : List Int) : Evolves t (AuditConnection.reconcileFor t now rustdeskId live) := by
  refine .update t ?_ ?_
  exact fun _ => ⟨rfl, rfl, rfl, fun still => absurd still Bool.false_ne_true, rfl, rfl⟩

theorem evolves_sweep (t : Table AuditConnection) (devices : Table Device) (now : Instant) :
    Evolves t (AuditConnection.closeStaleSessions t devices now) :=
  .update t (AuditConnection.id_closed now) fun _ =>
    ⟨rfl, rfl, rfl, fun still => absurd still Bool.false_ne_true, rfl, rfl⟩

/-- What is known of a run: the marks of a row are its last request and its last order since. -/
structure Matched (ledger : Ledger) : Prop where
  requests : ∀ request ∈ ledger.requests, request.session.id < ledger.state.connections.nextId ∧
    May request.db request.actor request.session.rustdeskId ∧
    ∀ row ∈ ledger.state.connections.rows, row.id = request.session.id →
      row.rustdeskId = request.session.rustdeskId
  orders : ∀ order ∈ ledger.orders, order.row < ledger.state.connections.nextId ∧ 0 < order.asked ∧
    order.asked ≤ ledger.asked order.row ∧ ∃ request ∈ ledger.requests,
      request.session.id = order.row ∧ request.session.rustdeskId = order.rustdeskId
  marked : ∀ row ∈ ledger.state.connections.rows, row.disconnectRequestedAt.isSome = true →
    ∃ request ∈ ledger.requests, request.session.id = row.id
  sent : ∀ row ∈ ledger.state.connections.rows, ∀ at', row.disconnectSentAt = some at' →
    ∃ order ∈ ledger.orders, order.row = row.id ∧ order.asked = ledger.asked row.id ∧ order.sentAt = at'
  latest : ∀ row ∈ ledger.state.connections.rows, ∀ order ∈ ledger.orders, order.row = row.id →
    order.asked = ledger.asked row.id → ∃ at', row.disconnectSentAt = some at' ∧ order.sentAt ≤ at'
  spaced : ledger.orders.Pairwise fun a b => a.row = b.row → a.asked = b.asked →
    a.sentAt + AuditConnection.disconnectRetrySeconds < b.sentAt

theorem Matched.evolves {ledger : Ledger} (matched : Matched ledger) {s : SyncController.State}
    (evolves : Evolves ledger.state.connections s.connections) : Matched { ledger with state := s } where
  requests request listed := by
    obtain ⟨below, may, same⟩ := matched.requests request listed
    refine ⟨Nat.lt_of_lt_of_le below evolves.next, may, fun row present key => ?_⟩
    rcases evolves.rows row present with ⟨new, -⟩ | ⟨old, before, carried⟩
    · exact absurd (key ▸ new) (Nat.not_le_of_lt below)
    · exact carried.rustdeskId.trans (same old before (carried.id ▸ key))
  orders order listed := by
    obtain ⟨below, rest⟩ := matched.orders order listed
    exact ⟨Nat.lt_of_lt_of_le below evolves.next, rest⟩
  marked row present requested := by
    rcases evolves.rows row present with ⟨-, unmarked, -⟩ | ⟨old, before, carried⟩
    · rw [unmarked] at requested
      cases requested
    · rw [carried.requestedAt] at requested
      obtain ⟨request, listed, same⟩ := matched.marked old before requested
      exact ⟨request, listed, same.trans carried.id.symm⟩
  sent row present at' sent := by
    rcases evolves.rows row present with ⟨-, -, unmarked⟩ | ⟨old, before, carried⟩
    · rw [unmarked] at sent
      cases sent
    · rw [carried.sentAt] at sent
      rw [carried.id]
      exact matched.sent old before at' sent
  latest row present order listed same asked := by
    rcases evolves.rows row present with ⟨new, -⟩ | ⟨old, before, carried⟩
    · exact absurd (same ▸ new) (Nat.not_le_of_lt (matched.orders order listed).1)
    · rw [carried.sentAt]
      exact matched.latest old before order listed (carried.id ▸ same) (carried.id ▸ asked)
  spaced := matched.spaced

theorem may_of_session {s : SyncController.State} {actor : User} {id : Nat} {session : AuditConnection}
    (found : ActiveSessions.session? s actor id = some session) :
    session ∈ s.connections.rows ∧ May s.system.db actor session.rustdeskId := by
  unfold ActiveSessions.session? at found
  split at found
  · cases found
  · next allowed =>
    obtain ⟨first, passes⟩ := Option.filter_eq_some_iff.mp found
    simp only [Bool.and_eq_true, Bool.or_eq_true, List.any_eq_true, Bool.not_eq_true',
      decide_eq_true_eq] at passes
    refine ⟨List.mem_of_find?_eq_some first, by simpa using allowed, passes.1, ?_⟩
    rcases passes.2 with admin | ⟨device, listed, ⟨kept, visible⟩, named⟩
    · exact .inl admin
    · exact .inr ⟨device, listed, kept, visible, named⟩

theorem asked_request (ledger : Ledger) (request : Requested) (row : Nat) (state : SyncController.State) :
    Ledger.asked { ledger with state, requests := ledger.requests ++ [request] } row =
      ledger.asked row + if request.session.id = row then 1 else 0 := by
  simp only [Ledger.asked, List.filter_append, List.length_append, List.filter_singleton]
  by_cases here : request.session.id = row <;> simp [here]

/-- A mark that a row gets for a request. -/
def mark (now : Instant) (row : AuditConnection) : AuditConnection :=
  { row with disconnectRequestedAt := some now.stored, disconnectSentAt := none }

theorem Matched.request {ledger : Ledger} (matched : Matched ledger) {request : Requested} (now : Instant)
    (listed : request.session ∈ ledger.state.connections.rows)
    (may : May request.db request.actor request.session.rustdeskId) {s : SyncController.State}
    (connections : s.connections = ledger.state.connections.update
      (fun row => decide (row.id = request.session.id)) (mark now) fun _ => rfl) :
    Matched { ledger with state := s, requests := ledger.requests ++ [request] } := by
  have grows (row : Nat) := asked_request ledger request row s
  have next : s.connections.nextId = ledger.state.connections.nextId := by
    rw [connections]
    rfl
  -- a row is as it was, or the session of the request
  have rows : ∀ row ∈ s.connections.rows, ∃ old ∈ ledger.state.connections.rows,
      (old.id = request.session.id ∧ row = mark now old) ∨ (old.id ≠ request.session.id ∧ row = old) := by
    intro row present
    rw [connections] at present
    obtain ⟨old, first, rfl⟩ := Table.mem_update.mp present
    refine ⟨old, first, ?_⟩
    by_cases here : old.id = request.session.id
    · exact .inl ⟨here, if_pos (decide_eq_true here)⟩
    · exact .inr ⟨here, if_neg (by simpa using here)⟩
  refine ⟨fun told mem => ?_, fun order mem => ?_, fun row present asked => ?_,
    fun row present at' sent => ?_, fun row present order told same asked => ?_, matched.spaced⟩
  · have known : told.session.id < ledger.state.connections.nextId ∧
        May told.db told.actor told.session.rustdeskId ∧
        ∀ row ∈ ledger.state.connections.rows, row.id = told.session.id →
          row.rustdeskId = told.session.rustdeskId := by
      rcases List.mem_append.mp mem with old | new
      · exact matched.requests told old
      · obtain rfl := List.mem_singleton.mp new
        refine ⟨ledger.state.connections.below _ listed, may, fun row present key => ?_⟩
        rw [ledger.state.connections.eq_of_id_eq present listed key]
    refine ⟨next ▸ known.1, known.2.1, fun row present key => ?_⟩
    obtain ⟨old, first, ⟨-, rfl⟩ | ⟨-, rfl⟩⟩ := rows row present
    · exact known.2.2 old first key
    · exact known.2.2 _ first key
  · obtain ⟨below, positive, within, told, present, same⟩ := matched.orders order mem
    refine ⟨next ▸ below, positive, Nat.le_trans within ?_, told, List.mem_append_left _ present, same⟩
    rw [grows]
    exact Nat.le_add_right _ _
  · obtain ⟨old, first, ⟨here, rfl⟩ | ⟨-, rfl⟩⟩ := rows row present
    · exact ⟨request, List.mem_append_right _ List.mem_cons_self, here.symm⟩
    · obtain ⟨told, before, same⟩ := matched.marked _ first asked
      exact ⟨told, List.mem_append_left _ before, same⟩
  · obtain ⟨old, first, ⟨-, rfl⟩ | ⟨away, rfl⟩⟩ := rows row present
    · cases sent
    · obtain ⟨order, told, same, asked, date⟩ := matched.sent _ first at' sent
      refine ⟨order, told, same, ?_, date⟩
      rw [grows, if_neg (Ne.symm away), Nat.add_zero, asked]
  · have within := (matched.orders order told).2.2.1
    obtain ⟨old, first, ⟨here, rfl⟩ | ⟨away, rfl⟩⟩ := rows row present
    · -- its orders were for requests before this one
      have same : order.row = old.id := same
      have asked : order.asked = ledger.asked old.id + 1 := by
        rw [asked, grows, if_pos]
        · rfl
        · exact here.symm
      rw [asked, same] at within
      exact absurd within (Nat.not_succ_le_self _)
    · rw [grows, if_neg (Ne.symm away), Nat.add_zero] at asked
      exact matched.latest _ first order told same asked

theorem Matched.disconnect {column : JsonColumn} {ledger : Ledger} (matched : Matched ledger) (actor : User)
    (id : Nat) (now : Instant) : Matched (record column ledger (.disconnect actor id now)) := by
  simp only [record, step, requested, ActiveSessions.disconnect, Ledger.ordered, List.append_nil]
  cases found : ActiveSessions.session? ledger.state actor id with
  | none =>
      rw [Option.map_none, Option.toList_none, List.append_nil]
      exact matched
  | some session =>
      obtain ⟨listed, may⟩ := may_of_session found
      exact @Matched.request _ matched ⟨session, actor, _⟩ now listed may _ rfl

theorem disconnectDue_iff {now : Instant} {rustdeskId : String} {row : AuditConnection} :
    AuditConnection.disconnectDue now rustdeskId row = true ↔ row.rustdeskId = rustdeskId ∧
      row.isOpen = true ∧ row.disconnectRequestedAt.isSome = true ∧ row.connId.isSome = true ∧
      ∀ at', row.disconnectSentAt = some at' → at' < now.stored - AuditConnection.disconnectRetrySeconds := by
  simp only [AuditConnection.disconnectDue, Bool.and_eq_true, decide_eq_true_eq, Option.all_eq_true,
    AuditConnection.isOpen, and_assoc]

/-- The rows that are due get their orders. -/
theorem Matched.order {ledger : Ledger} (matched : Matched ledger) (now : Instant) (rustdeskId : String)
    {s : SyncController.State} (connections : s.connections =
      (AuditConnection.pendingDisconnectsFor ledger.state.connections now now rustdeskId).1) :
    Matched { ledger with
      state := s
      orders := ledger.orders ++ (ledger.state.connections.rows.filter
        (AuditConnection.disconnectDue now rustdeskId)).map (ledger.orderOf now) } := by
  have next : s.connections.nextId = ledger.state.connections.nextId := by
    rw [connections]
    rfl
  have rows : ∀ row ∈ s.connections.rows, ∃ old ∈ ledger.state.connections.rows,
      (AuditConnection.disconnectDue now rustdeskId old = true ∧
        row = { old with disconnectSentAt := some now.stored }) ∨
      (AuditConnection.disconnectDue now rustdeskId old = false ∧ row = old) := by
    intro row present
    rw [connections] at present
    change row ∈ ledger.state.connections.rows.map _ at present
    obtain ⟨old, first, rfl⟩ := List.mem_map.mp present
    refine ⟨old, first, ?_⟩
    by_cases here : AuditConnection.disconnectDue now rustdeskId old = true
    · exact .inl ⟨here, if_pos here⟩
    · exact .inr ⟨Bool.not_eq_true _ ▸ here, if_neg here⟩
  have earlier {P : Order → Prop} (told : ∃ order ∈ ledger.orders, P order) :
      ∃ order ∈ ledger.orders ++ (ledger.state.connections.rows.filter
        (AuditConnection.disconnectDue now rustdeskId)).map (ledger.orderOf now), P order := by
    obtain ⟨order, listed, holds⟩ := told
    exact ⟨order, List.mem_append_left _ listed, holds⟩
  refine ⟨fun request listed => ?_, fun order mem => ?_, fun row present asked => ?_,
    fun row present at' sent => ?_, fun row present order mem same asked => ?_, ?_⟩
  · obtain ⟨below, may, same⟩ := matched.requests request listed
    refine ⟨next ▸ below, may, fun row present key => ?_⟩
    obtain ⟨old, first, ⟨-, rfl⟩ | ⟨-, rfl⟩⟩ := rows row present
    · exact same old first key
    · exact same _ first key
  · rcases List.mem_append.mp mem with old | new
    · obtain ⟨below, rest⟩ := matched.orders order old
      exact ⟨next ▸ below, rest⟩
    · obtain ⟨row, chosen, rfl⟩ := List.mem_map.mp new
      obtain ⟨present, ready⟩ := List.mem_filter.mp chosen
      obtain ⟨-, -, requested, -, -⟩ := disconnectDue_iff.mp ready
      obtain ⟨request, told, key⟩ := matched.marked row present requested
      refine ⟨next ▸ ledger.state.connections.below row present, ?_, Nat.le_refl _, request, told, key,
        ((matched.requests request told).2.2 row present key.symm).symm⟩
      exact List.length_pos_of_mem (List.mem_filter.mpr ⟨told, decide_eq_true key⟩)
  · obtain ⟨old, first, ⟨-, rfl⟩ | ⟨-, rfl⟩⟩ := rows row present
    · exact matched.marked old first asked
    · exact matched.marked _ first asked
  · obtain ⟨old, first, ⟨ready, rfl⟩ | ⟨-, rfl⟩⟩ := rows row present
    · refine ⟨ledger.orderOf now old, List.mem_append_right _ ?_, rfl, rfl, Option.some.inj sent⟩
      exact List.mem_map_of_mem (List.mem_filter.mpr ⟨first, ready⟩)
    · exact earlier (matched.sent _ first at' sent)
  · rcases List.mem_append.mp mem with before | new
    · obtain ⟨old, first, ⟨ready, rfl⟩ | ⟨-, rfl⟩⟩ := rows row present
      · obtain ⟨at', sent, date⟩ := matched.latest old first order before same asked
        obtain ⟨-, -, -, -, late⟩ := disconnectDue_iff.mp ready
        have before := Int.lt_of_le_of_lt date (late at' sent)
        exact ⟨_, rfl, Int.le_of_lt (Int.lt_of_lt_of_le before (Int.sub_le_self _ (by decide)))⟩
      · exact matched.latest _ first order before same asked
    · obtain ⟨other, chosen, rfl⟩ := List.mem_map.mp new
      obtain ⟨there, ready⟩ := List.mem_filter.mp chosen
      obtain ⟨old, first, ⟨-, rfl⟩ | ⟨away, rfl⟩⟩ := rows row present
      · exact ⟨_, rfl, Int.le_refl _⟩
      · obtain rfl := ledger.state.connections.eq_of_id_eq there first same
        rw [ready] at away
        cases away
  · refine List.pairwise_append.mpr ⟨matched.spaced, ?_, ?_⟩
    · have distinct : ((ledger.state.connections.rows.filter
          (AuditConnection.disconnectDue now rustdeskId)).map AuditConnection.id).Nodup :=
        ledger.state.connections.nodup.sublist (List.filter_sublist.map _)
      refine List.pairwise_map.mpr ((List.pairwise_map.mp distinct).imp fun differ same => ?_)
      exact absurd same differ
    · intro order before new mem same asked
      obtain ⟨row, chosen, rfl⟩ := List.mem_map.mp mem
      obtain ⟨present, ready⟩ := List.mem_filter.mp chosen
      obtain ⟨at', sent, date⟩ := matched.latest row present order before same asked
      obtain ⟨-, -, -, -, late⟩ := disconnectDue_iff.mp ready
      exact Int.add_lt_of_lt_sub_right (Int.lt_of_le_of_lt date (late at' sent))

theorem Matched.heartbeat {column : JsonColumn} {ledger : Ledger} (matched : Matched ledger)
    (r : SyncController.Heartbeat) :
    Matched (record column ledger (.sync (.heartbeat r))) := by
  have writes := SyncController.heartbeat_connections column ledger.state r
  simp only [record, step, SyncController.handle, requested, Ledger.ordered, due, Option.toList_none,
    List.append_nil]
  by_cases accepted : SessionLog.accepts ledger.state r = true
  · rw [if_pos accepted] at writes ⊢
    have reconciled := matched.evolves (s := { ledger.state with
      connections := AuditConnection.reconcileFor ledger.state.connections r.reconciled r.id r.conns })
      (evolves_reconcile ledger.state.connections r.reconciled r.id r.conns)
    exact reconciled.order r.disconnected r.id writes
  · rw [if_neg accepted] at writes ⊢
    rw [List.map_nil, List.append_nil]
    refine matched.evolves ?_
    rw [writes]
    exact .refl _

theorem Matched.record {column : JsonColumn} {ledger : Ledger} (matched : Matched ledger)
    (event : Event) : Matched (record column ledger event) := by
  have quiet {s : SyncController.State} (evolves : Evolves ledger.state.connections s.connections) :
      Matched { state := s, requests := ledger.requests ++ [], orders := ledger.orders ++ [] } := by
    rw [List.append_nil, List.append_nil]
    exact matched.evolves evolves
  cases event with
  | disconnect actor id now => exact matched.disconnect actor id now
  | audit post => exact quiet (evolves_connection _ post)
  | sync request =>
      cases request with
      | heartbeat r => exact matched.heartbeat r
      | sysinfo r =>
          refine quiet ?_
          change Evolves _ (SyncController.sysinfo ledger.state r).1.connections
          rw [SyncController.sysinfo_connections]
          exact .refl _
  | sweep now => exact quiet (evolves_sweep _ _ now)
  | change system => exact quiet (.refl _)

/-- A heartbeat is told the connections of its orders; and when it is taken, every session of the
device that should end and is still open has an order for its last request, from now or within the
minute before. -/
def Told (column : JsonColumn) (ledger : Ledger) (event : Event) : Prop :=
  ∀ r, event = .sync (.heartbeat r) →
    (SyncController.heartbeat column ledger.state r).2.disconnect =
      (ledger.ordered event).filterMap Order.connId ∧
    (SessionLog.accepts ledger.state r = true →
      ∀ row ∈ (record column ledger event).state.connections.rows, row.rustdeskId = r.id →
        row.isOpen = true → row.disconnectRequestedAt.isSome = true → row.connId.isSome = true →
        ∃ order ∈ (record column ledger event).orders, order.row = row.id ∧
          order.asked = (record column ledger event).asked row.id ∧
          r.disconnected.stored - AuditConnection.disconnectRetrySeconds ≤ order.sentAt)

theorem disconnect_heartbeat (column : JsonColumn) (s : SyncController.State) (r : SyncController.Heartbeat) :
    (SyncController.heartbeat column s r).2.disconnect = (due s r).filterMap AuditConnection.connId := by
  unfold SyncController.heartbeat
  split
  · next blank => simp [due, SessionLog.accepts, blank]
  · next filled =>
    split
    · next unknown => simp [due, SessionLog.accepts, unknown]
    · next device known =>
      split
      · next trashed => simp [due, SessionLog.accepts, known, trashed]
      · next live =>
        split
        · next foreign =>
          have refused : SyncController.uuidMatches device.uuid r.uuid = false := by simpa using foreign
          simp [due, SessionLog.accepts, known, refused]
        · next own =>
          have matched : SyncController.uuidMatches device.uuid r.uuid = true := by simpa using own
          have accepted : SessionLog.accepts s r = true := by
            simp [SessionLog.accepts, filled, known, live, matched]
          simp [due, accepted, AuditConnection.pendingDisconnectsFor, SyncController.saveSeen]

theorem Matched.told {column : JsonColumn} {ledger : Ledger} (matched : Matched ledger) (event : Event) :
    Told column ledger event := by
  rintro r rfl
  refine ⟨?_, fun accepted row present device still requested numbered => ?_⟩
  · rw [disconnect_heartbeat, Ledger.ordered, List.filterMap_map]
    rfl
  · have writes := SyncController.heartbeat_connections column ledger.state r
    rw [if_pos accepted] at writes
    have marks : ∃ at', row.disconnectSentAt = some at' ∧
        r.disconnected.stored - AuditConnection.disconnectRetrySeconds ≤ at' := by
      have rows : row ∈ (SyncController.settled ledger.state.connections r).rows := writes ▸ present
      change row ∈ (AuditConnection.reconcileFor _ _ _ _).rows.map _ at rows
      obtain ⟨old, first, rfl⟩ := List.mem_map.mp rows
      by_cases ready : AuditConnection.disconnectDue r.disconnected r.id old = true
      · rw [if_pos ready]
        exact ⟨_, rfl, Int.sub_le_self _ (by decide)⟩
      · rw [if_neg ready] at device still requested numbered ⊢
        by_contra late
        push Not at late
        exact ready (disconnectDue_iff.mpr ⟨device, still, requested, numbered, late⟩)
    obtain ⟨at', sent, recent⟩ := marks
    obtain ⟨order, listed, same, asked, date⟩ := (matched.record _).sent row present at' sent
    exact ⟨order, listed, same, asked, date ▸ recent⟩

/-- Over every run of operators' requests, audit posts, heartbeats, sweeps and changes of the accounts
and devices: an order goes out only for a session that an operator who may end it asked to end, and
not twice within the minute for one request; a heartbeat is told its orders, and none that is taken
leaves an open session with a request without one. -/
theorem disconnects_follow_requests (column : JsonColumn) (state : SyncController.State)
    (events : List Event) :
    let start : Ledger := { state := { state with connections := Table.empty } }
    let ledger := Runs.run (record column) start events
    (∀ order ∈ ledger.orders, 0 < order.asked ∧ ∃ request ∈ ledger.requests,
      request.session.id = order.row ∧ May request.db request.actor order.rustdeskId) ∧
    (ledger.orders.Pairwise fun a b => a.row = b.row → a.asked = b.asked →
      a.sentAt + AuditConnection.disconnectRetrySeconds < b.sentAt) ∧
    Runs.Along (record column) (Told column) start events := by
  intro start ledger
  have fresh : Matched start := {
    requests := fun _ none => absurd none List.not_mem_nil
    orders := fun _ none => absurd none List.not_mem_nil
    marked := fun _ none => absurd none List.not_mem_nil
    sent := fun _ none => absurd none List.not_mem_nil
    latest := fun _ none => absurd none List.not_mem_nil
    spaced := .nil }
  have matched : Matched ledger := Runs.invariant (fun _ event before => before.record event) start events fresh
  refine ⟨fun order listed => ?_, matched.spaced, ?_⟩
  · obtain ⟨-, positive, -, request, told, key, device⟩ := matched.orders order listed
    exact ⟨positive, request, told, key, device ▸ (matched.requests request told).2.1⟩
  · have any : Runs.Along (record column) (fun _ _ => True) start events :=
      Runs.Along.intro (fun _ _ => trivial) events start
    exact any.of_invariant (fun _ event before _ => before.record event)
      (fun _ event before _ => before.told event) events start fresh

end Disconnects
end CortenDesk
