import CortenDesk.Audit.Connections

/-!
When the audit rows track the live connections. An opening post adds a row without looking
for one that is open under its connection id, an authorization is written to whatever row is
open there, and a heartbeat spares every row whose connection id is in use. So the rows track
the connections exactly as long as no connection id is used again while a row of an earlier
connection is open under it.
-/
namespace CortenDesk

namespace AuditController
open AuditConnection

variable {connections : Table AuditConnection} {r : Post} {row : AuditConnection}

theorem openFor_iff : openFor r row = true ↔
    row.rustdeskId = r.id ∧ row.connId = some r.connId ∧ row.isOpen := by
  simp [openFor, and_assoc]

theorem mem_openRow (found : openRow connections r = some row) :
    row ∈ connections.rows ∧ row.rustdeskId = r.id ∧ row.connId = some r.connId ∧ row.isOpen := by
  have listed := List.argmax_mem (Option.mem_def.mpr found)
  obtain ⟨mem, fits⟩ := List.mem_filter.mp listed
  exact ⟨mem, openFor_iff.mp fits⟩

theorem openRow_eq_none_iff :
    openRow connections r = none ↔ ∀ row ∈ connections.rows, openFor r row = false := by
  rw [openRow, List.argmax_eq_none, List.filter_eq_nil_iff]
  simp only [Bool.not_eq_true]

end AuditController

namespace SyncController

@[simp] theorem reportOnline_connections (s : State) (device : Device) (now : Instant)
    (token : ClaimToken) : (reportOnline s device now token).connections = s.connections := by
  unfold reportOnline
  split <;> rfl

theorem sysinfo_connections (s : State) (r : Sysinfo) :
    (sysinfo s r).1.connections = s.connections := by
  unfold sysinfo
  split
  · rfl
  · split
    · rfl
    · split
      · rfl
      · split
        · rfl
        · rw [reportOnline_connections]
          rfl

/-- What a heartbeat writes to the audit rows. -/
def settled (connections : Table AuditConnection) (r : Heartbeat) : Table AuditConnection :=
  (AuditConnection.pendingDisconnectsFor
    (AuditConnection.reconcileFor connections r.reconciled r.id r.conns)
    r.disconnected r.disconnected r.id).1

theorem heartbeat_connections (column : JsonColumn) (s : State) (r : Heartbeat) :
    (heartbeat column s r).1.connections =
      if SessionLog.accepts s r then settled s.connections r else s.connections := by
  unfold heartbeat
  split
  · next blank => simp [SessionLog.accepts, blank]
  · next filled =>
    split
    · next unknown => simp [SessionLog.accepts, unknown]
    · next device known =>
      split
      · next trashed => simp [SessionLog.accepts, known, trashed]
      · next live =>
        split
        · next foreign =>
          have refused : uuidMatches device.uuid r.uuid = false := by simpa using foreign
          simp [SessionLog.accepts, known, refused]
        · next own =>
          have matched : uuidMatches device.uuid r.uuid = true := by simpa using own
          have accepted : SessionLog.accepts s r = true := by
            simp [SessionLog.accepts, filled, known, live, matched]
          rw [if_pos accepted]
          simp [saveDelivered, settled, saveSeen]

end SyncController

namespace SessionLog
open AuditController AuditConnection

/-- Rows that keep their ends and are not reopened stay apart. -/
theorem Tracks.of_update {log log' : Log} {p : AuditConnection → Bool}
    {f : AuditConnection → AuditConnection} (h : Tracks log)
    (keeps : ∀ row, Row.id (f row) = Row.id row) (ends : ∀ row, (f row).rustdeskId = row.rustdeskId ∧
      (f row).connId = row.connId ∧ ((f row).isOpen → row.isOpen))
    (rows : log'.state.connections = log.state.connections.update p f keeps)
    (openedBy : log'.openedBy = log.openedBy) (namedBy : log'.namedBy = log.namedBy) :
    Tracks log' := by
  have changed {row : AuditConnection} (mem : row ∈ log'.rows) :
      ∃ old ∈ log.rows, row.id = old.id ∧ row.rustdeskId = old.rustdeskId ∧
        row.connId = old.connId ∧ (row.isOpen → old.isOpen) ∧
        (if p old then f old else old) = row := by
    rw [Log.rows, rows, Table.mem_update] at mem
    obtain ⟨old, listed, rfl⟩ := mem
    refine ⟨old, listed, ?_⟩
    split
    · next hit =>
      obtain ⟨device, conn, opens⟩ := ends old
      exact ⟨keeps old, device, conn, opens, rfl⟩
    · exact ⟨rfl, rfl, rfl, id, rfl⟩
  constructor
  · intro row hrow other hother rowOpen otherOpen device conn
    obtain ⟨a, ha, -, aDevice, aConn, aOpen, rfl⟩ := changed hrow
    obtain ⟨b, hb, -, bDevice, bConn, bOpen, rfl⟩ := changed hother
    have same : a = b := h.single a ha b hb (aOpen rowOpen) (bOpen otherOpen)
      (by rw [← aDevice, device, bDevice]) (by rw [← aConn, conn, bConn])
    rw [same]
  · intro row hrow boot named
    obtain ⟨old, listed, id, -⟩ := changed hrow
    rw [namedBy, id] at named
    rw [openedBy, id]
    exact h.own old listed boot named

/-- A row that joins is tracked when no other is open under its connection id. -/
theorem Tracks.of_insert {log log' : Log} {make : Nat → AuditConnection} (h : Tracks log)
    (given : ∀ n, Row.id (make n) = n)
    (alone : ∀ row ∈ log.rows, row.isOpen →
      row.rustdeskId = (make log.state.connections.nextId).rustdeskId →
      row.connId ≠ (make log.state.connections.nextId).connId)
    (rows : log'.state.connections = log.state.connections.insert make given)
    (others : ∀ id, id ≠ log.state.connections.nextId →
      log'.openedBy id = log.openedBy id ∧ log'.namedBy id = log.namedBy id)
    (named : ∀ boot, log'.namedBy log.state.connections.nextId = some boot →
      log'.openedBy log.state.connections.nextId = boot) : Tracks log' := by
  have listed {row : AuditConnection} (mem : row ∈ log'.rows) :
      row ∈ log.rows ∨ row = make log.state.connections.nextId := by
    rwa [Log.rows, rows, Table.mem_insert] at mem
  constructor
  · intro row hrow other hother rowOpen otherOpen device conn
    rcases listed hrow with old | rfl <;> rcases listed hother with old' | rfl
    · exact h.single row old other old' rowOpen otherOpen device conn
    · exact absurd conn (alone row old rowOpen device)
    · exact absurd conn.symm (alone other old' otherOpen device.symm)
    · rfl
  · intro row hrow boot hnamed
    rcases listed hrow with old | rfl
    · obtain ⟨openedBy, namedBy⟩ :=
        others row.id (Nat.ne_of_lt (log.state.connections.below row old))
      rw [openedBy]
      exact h.own row old boot (namedBy ▸ hnamed)
    · have id : (make log.state.connections.nextId).id = log.state.connections.nextId := given _
      rw [id] at hnamed ⊢
      exact named boot hnamed

/-- A row whose peer is named anew was opened by the connection that names it. -/
theorem Tracks.of_named {log log' : Log} {row : AuditConnection} {boot : Nat} {r : Post}
    (h : Tracks log) (rows : log'.state.connections = write log.state.connections row (authorized r))
    (openedBy : log'.openedBy = log.openedBy)
    (namedBy : log'.namedBy = Function.update log.namedBy row.id (some boot))
    (own : log.openedBy row.id = boot) : Tracks log' := by
  have unnamed : Tracks { log' with namedBy := log.namedBy } := by
    refine h.of_update ?_ ?_ rows openedBy rfl
    · exact fun _ => rfl
    · exact fun _ => ⟨rfl, rfl, id⟩
  refine ⟨unnamed.single, fun other hother boot' named => ?_⟩
  by_cases here : other.id = row.id
  · rw [namedBy, here, Function.update_self] at named
    rw [openedBy, here, own]
    exact Option.some.inj named
  · rw [namedBy, Function.update_of_ne here] at named
    exact unnamed.own other hother boot' named

/-- Every row has a connection id. -/
def Numbered (log : Log) : Prop := ∀ row ∈ log.rows, row.connId.isSome

theorem Numbered.of_update {log log' : Log} {p : AuditConnection → Bool}
    {f : AuditConnection → AuditConnection} (h : Numbered log)
    (keeps : ∀ row, Row.id (f row) = Row.id row) (conn : ∀ row, (f row).connId = row.connId)
    (rows : log'.state.connections = log.state.connections.update p f keeps) : Numbered log' := by
  intro row hrow
  rw [Log.rows, rows, Table.mem_update] at hrow
  obtain ⟨old, listed, rfl⟩ := hrow
  split
  · rw [conn]
    exact h old listed
  · exact h old listed

theorem Numbered.of_insert {log log' : Log} {make : Nat → AuditConnection} (h : Numbered log)
    (given : ∀ n, Row.id (make n) = n) (conn : ∀ n, (make n).connId.isSome)
    (rows : log'.state.connections = log.state.connections.insert make given) : Numbered log' := by
  intro row hrow
  rw [Log.rows, rows, Table.mem_insert] at hrow
  rcases hrow with old | rfl
  · exact h row old
  · exact conn _

/-- What a log knows of itself between two messages. -/
structure Sound (log : Log) : Prop where
  tracks : Tracks log
  numbered : Numbered log

theorem Sound.of_update {log log' : Log} {p : AuditConnection → Bool}
    {f : AuditConnection → AuditConnection} (h : Sound log)
    (keeps : ∀ row, Row.id (f row) = Row.id row) (ends : ∀ row, (f row).rustdeskId = row.rustdeskId ∧
      (f row).connId = row.connId ∧ ((f row).isOpen → row.isOpen))
    (rows : log'.state.connections = log.state.connections.update p f keeps)
    (openedBy : log'.openedBy = log.openedBy) (namedBy : log'.namedBy = log.namedBy) :
    Sound log' :=
  ⟨h.tracks.of_update keeps ends rows openedBy namedBy,
    h.numbered.of_update keeps (fun row => (ends row).2.1) rows⟩

/-- Both writes of a heartbeat leave a sound log. -/
theorem Sound.of_settled {log log' : Log} {r : SyncController.Heartbeat} (h : Sound log)
    (rows : log'.state.connections = SyncController.settled log.state.connections r)
    (openedBy : log'.openedBy = log.openedBy) (namedBy : log'.namedBy = log.namedBy) :
    Sound log' := by
  let reconciled : Log := { log with
    state := { log.state with
      connections := reconcileFor log.state.connections r.reconciled r.id r.conns } }
  have closes : Sound reconciled := by
    refine h.of_update ?_ ?_ rfl rfl rfl
    · exact fun _ => rfl
    · exact fun row => ⟨rfl, rfl, fun opens => absurd opens (by simp [isOpen])⟩
  refine closes.of_update ?_ ?_ rows openedBy namedBy
  · exact fun _ => rfl
  · exact fun _ => ⟨rfl, rfl, id⟩

/-- An open row that a heartbeat leaves was open before it, and is no longer spared only
where its connection id was listed. -/
theorem mem_settled {connections : Table AuditConnection} {r : SyncController.Heartbeat}
    {row : AuditConnection} (mem : row ∈ (SyncController.settled connections r).rows)
    (due : Due r row) : ∃ old ∈ connections.rows, Due r old ∧ row.id = old.id ∧
      row.connId = old.connId ∧ (old.connId.isSome → ∃ live ∈ r.conns, old.connId = some live) := by
  rw [SyncController.settled, pendingDisconnectsFor, Table.mem_update] at mem
  obtain ⟨kept, hkept, changed⟩ := mem
  rw [reconcileFor, Table.mem_update] at hkept
  obtain ⟨old, listed, closed⟩ := hkept
  have sent : row.id = kept.id ∧ row.connId = kept.connId ∧ row.rustdeskId = kept.rustdeskId ∧
      row.createdAt = kept.createdAt ∧ row.closedAt = kept.closedAt := by
    rw [← changed]
    split <;> exact ⟨rfl, rfl, rfl, rfl, rfl⟩
  obtain ⟨id, conn, device, created, closedAt⟩ := sent
  have keptDue : Due r kept := by
    obtain ⟨opens, of, past⟩ := due
    exact ⟨by rwa [isOpen, ← closedAt], device ▸ of, by rwa [pastGrace, ← created]⟩
  split at closed
  · rw [← closed] at keptDue
    exact nomatch keptDue.1
  · next spared =>
    subst closed
    refine ⟨old, listed, keptDue, id, conn, fun numbered => ?_⟩
    obtain ⟨conn, hconn⟩ := Option.isSome_iff_exists.mp numbered
    obtain ⟨opens, of, past⟩ := keptDue
    have listed : conn ∈ r.conns := by
      simp only [isOpen] at opens
      simp only [pastGrace] at past
      simp [of, opens, past, hconn] at spared
      exact spared.2
    exact ⟨conn, listed, hconn⟩

/-- A heartbeat leaves the open rows whose connection id it lists. -/
theorem settled_of_listed {connections : Table AuditConnection} {r : SyncController.Heartbeat}
    {row : AuditConnection} (mem : row ∈ connections.rows) (due : Due r row) {conn : Int}
    (live : conn ∈ r.conns) (hconn : row.connId = some conn) :
    ∃ kept ∈ (SyncController.settled connections r).rows, kept.id = row.id ∧ Due r kept := by
  have spared : row ∈ (reconcileFor connections r.reconciled r.id r.conns).rows := by
    rw [reconcileFor, Table.mem_update]
    refine ⟨row, mem, if_neg ?_⟩
    have nonempty : r.conns ≠ [] := List.ne_nil_of_mem live
    simp [hconn, live, nonempty]
  refine ⟨if disconnectDue r.disconnected r.id row then
    { row with disconnectSentAt := some r.disconnected.stored } else row, ?_, ?_⟩
  · rw [SyncController.settled, pendingDisconnectsFor, Table.mem_update]
    exact ⟨row, spared, rfl⟩
  · split
    · exact ⟨rfl, due⟩
    · exact ⟨rfl, due⟩

variable {column : JsonColumn} {log : Log} {boot : Nat}

/-- No open row shares the connection id of a row that a post opens. -/
theorem alone_of_openRow {r : Post} (none : openRow log.state.connections r = none)
    {row : AuditConnection} (mem : row ∈ log.rows) (opens : row.isOpen)
    (device : row.rustdeskId = r.id) : row.connId ≠ some r.connId := by
  intro conn
  have closed := openRow_eq_none_iff.mp none row mem
  rw [openFor_iff.mpr ⟨device, conn, opens⟩] at closed
  exact nomatch closed

theorem sound_audit {r : Post} (h : Sound log) (unused : Unused log ⟨boot, .audit r⟩) :
    Sound (step column log ⟨boot, .audit r⟩) := by
  by_cases skip : ignored r = true
  · simpa [step, connection, skip] using h
  · have taken : ignored r = false := by simpa using skip
    have unused := unused taken
    simp only [step, connection, mark, taken, Bool.false_eq_true, if_false]
    cases asks : kind r with
    | new =>
        simp only [asks] at unused
        refine ⟨h.tracks.of_insert (fun _ => rfl) ?_ rfl ?_ ?_,
          h.numbered.of_insert (fun _ => rfl) (fun _ => rfl) rfl⟩
        · exact fun row mem opens device => alone_of_openRow unused mem opens device
        · exact fun id away => ⟨Function.update_of_ne away _ _, Function.update_of_ne away _ _⟩
        · intro boot' named
          simp only [Function.update_self] at named
          exact nomatch named
    | close =>
        cases found : openRow log.state.connections r with
        | none => exact h
        | some row =>
            refine h.of_update ?_ ?_ rfl rfl rfl
            · exact fun _ => rfl
            · exact fun row => ⟨rfl, rfl, fun opens => absurd opens (by simp [isOpen, closed])⟩
    | authorize =>
        simp only [asks] at unused
        cases found : openRow log.state.connections r with
        | none =>
            refine ⟨h.tracks.of_insert (fun _ => rfl) ?_ rfl ?_ ?_,
              h.numbered.of_insert (fun _ => rfl) (fun _ => rfl) rfl⟩
            · exact fun row mem opens device => alone_of_openRow found mem opens device
            · exact fun id away => ⟨Function.update_of_ne away _ _, Function.update_of_ne away _ _⟩
            · intro boot' named
              simp only [Function.update_self] at named ⊢
              exact Option.some.inj named
        | some row =>
            refine ⟨h.tracks.of_named rfl rfl rfl (unused row found), ?_⟩
            refine h.numbered.of_update ?_ ?_ rfl
            · exact fun _ => rfl
            · exact fun _ => rfl

/-- A post that reuses an open connection id leaves two open rows, or a peer on the row of
another connection. -/
theorem unused_of_tracks {r : Post} (after : Tracks (step column log ⟨boot, .audit r⟩)) :
    Unused log ⟨boot, .audit r⟩ := by
  intro taken
  simp only [step, connection, mark, taken, Bool.false_eq_true, if_false] at after
  cases asks : kind r with
  | new =>
      simp only [asks] at after ⊢
      cases found : openRow log.state.connections r with
      | none => rfl
      | some row =>
          obtain ⟨mem, device, conn, opens⟩ := mem_openRow found
          have old : row ∈ (log.state.connections.insert (opened r)).rows :=
            Table.mem_insert.mpr (.inl mem)
          have new : opened r log.state.connections.nextId ∈
              (log.state.connections.insert (opened r)).rows := Table.mem_insert.mpr (.inr rfl)
          have same := after.single row old _ new opens rfl device conn
          have below := log.state.connections.below row mem
          rw [same] at below
          exact absurd below (Nat.lt_irrefl _)
  | close => trivial
  | authorize =>
      simp only [asks] at after ⊢
      intro row found
      simp only [found] at after
      have listed := (mem_openRow found).1
      have same : Row.id (authorized r row) = Row.id row := rfl
      exact after.own (authorized r row) ((Table.mem_update_id listed same (authorized r)).mpr rfl)
        boot (Function.update_self _ _ _)

theorem sound_sweep {now : Instant} (h : Sound log) :
    Sound (step column log ⟨boot, .sweep now⟩) := by
  refine h.of_update ?_ ?_ rfl rfl rfl
  · exact fun _ => rfl
  · exact fun row => ⟨rfl, rfl, fun opens => absurd opens (by simp [isOpen])⟩

theorem sound_sync {r : SyncController.Request} (h : Sound log) :
    Sound (step column log ⟨boot, .sync r⟩) := by
  cases r with
  | heartbeat r =>
      have writes := SyncController.heartbeat_connections column log.state r
      cases accepted : accepts log.state r with
      | false =>
          have same : (step column log ⟨boot, .sync (.heartbeat r)⟩).rows = log.rows := by
            simp only [accepted, Bool.false_eq_true, if_false] at writes
            exact congrArg Table.rows writes
          refine ⟨⟨?_, ?_⟩, ?_⟩
          · rw [same]
            exact h.tracks.single
          · rw [same]
            exact h.tracks.own
          · rw [Numbered, same]
            exact h.numbered
      | true => exact h.of_settled (by rw [accepted, if_pos rfl] at writes; exact writes) rfl rfl
  | sysinfo r =>
      have same : (step column log ⟨boot, .sync (.sysinfo r)⟩).rows = log.rows :=
        congrArg Table.rows (SyncController.sysinfo_connections log.state r)
      refine ⟨⟨?_, ?_⟩, ?_⟩
      · rw [same]
        exact h.tracks.single
      · rw [same]
        exact h.tracks.own
      · rw [Numbered, same]
        exact h.numbered

/-- Whether a step keeps the tracking is decided by whether it reuses an open id. -/
theorem tracked_iff (column : JsonColumn) (log : Log) (e : Event) (h : Sound log) :
    Tracked column log e ↔ Unused log e := by
  obtain ⟨boot, message⟩ := e
  cases message with
  | audit r =>
      constructor
      · rintro ⟨after, -⟩
        exact unused_of_tracks after
      · intro unused
        exact ⟨(sound_audit h unused).tracks, fun _ is => nomatch is⟩
  | sweep now => exact iff_of_true ⟨(sound_sweep h).tracks, fun _ is => nomatch is⟩ trivial
  | sync r =>
      cases r with
      | sysinfo r =>
          exact iff_of_true ⟨(sound_sync h).tracks, fun _ is => nomatch is⟩ trivial
      | heartbeat r =>
          have rows (accepted : accepts log.state r = true) :
              (step column log ⟨boot, .sync (.heartbeat r)⟩).rows =
                (SyncController.settled log.state.connections r).rows := by
            have writes := SyncController.heartbeat_connections column log.state r
            rw [if_pos accepted] at writes
            exact congrArg Table.rows writes
          constructor
          · rintro ⟨-, reconciled⟩ accepted row mem due ⟨conn, live, hconn⟩
            obtain ⟨kept, hkept, same, keptDue⟩ := settled_of_listed mem due live hconn
            have own := (reconciled r rfl accepted kept (rows accepted ▸ hkept) keptDue).2
            rwa [same] at own
          · intro unused
            refine ⟨(sound_sync h).tracks, ?_⟩
            rintro r' ⟨⟩ accepted row mem due
            rw [rows accepted] at mem
            obtain ⟨old, hold, oldDue, same, conn, listed⟩ := mem_settled mem due
            obtain ⟨live, hlive, hconn⟩ := listed (h.numbered old hold)
            refine ⟨⟨live, hlive, conn.trans hconn⟩, ?_⟩
            have own := unused accepted old hold oldDue ⟨live, hlive, hconn⟩
            rwa [← same] at own

theorem sound_start (state : SyncController.State) : Sound (start state) :=
  ⟨⟨fun _ mem => (nomatch mem), fun _ mem => (nomatch mem)⟩, fun _ mem => (nomatch mem)⟩

theorem sound_step (column : JsonColumn) (log : Log) (e : Event) (h : Sound log)
    (unused : Unused log e) : Sound (step column log e) := by
  obtain ⟨boot, message⟩ := e
  cases message with
  | audit r => exact sound_audit h unused
  | sync r => exact sound_sync h
  | sweep now => exact sound_sweep h

open Runs in
/-- Whatever is posted, lost or repeated in whatever order: the rows track the connections
after every message exactly when no message names a connection id under which a row of
another connection is open. -/
theorem sessions_tracked_iff (column : JsonColumn) (state : SyncController.State)
    (events : List Event) :
    Along (step column) (Tracked column) (start state) events ↔
      Along (step column) Unused (start state) events := by
  constructor
  · refine Along.of_invariant (fun log e h tracked => ?_) (fun log e h tracked => ?_) events
      (start state) (sound_start state)
    · exact sound_step column log e h ((tracked_iff column log e h).mp tracked)
    · exact (tracked_iff column log e h).mp tracked
  · refine Along.of_invariant (sound_step column) (fun log e h unused => ?_) events
      (start state) (sound_start state)
    exact (tracked_iff column log e h).mpr unused

/-- A server that knows one device. -/
def office : SyncController.State where
  system :=
    { db := { devices := Table.empty.insert fun id =>
        { id, rustdeskId := "300400500", uuid := "front desk" } } }

/-- A post of the device about its connection 1. -/
def post (boot : Nat) (action : Option String) (peerId : String) (seconds : Int) : Event where
  boot := boot
  message := .audit { action, id := "300400500", connId := 1, peerId, now := seconds * 1000000 }

def liveBeat : SyncController.Heartbeat where
  id := "300400500"
  uuid := "front desk"
  conns := [1]
  seen := 300000000
  reported := 300000000
  token := 0
  reconciled := 300000000
  disconnected := 300000000
  delivery :=
    { stale := 300000000, acked := 300000000, pushSeconds := 0, sent := 300000000
      resent := 300000000 }

/-- Two sessions under connection id 1; the close of the first was lost in the restart. -/
def restarted : List Event :=
  [post 0 (some "new") "" 0, post 0 none "alice" 10, post 1 (some "new") "" 200,
    { boot := 1, message := .sync (.heartbeat liveBeat) }]

open Runs in
/-- After a restart the earlier session stays open beside the later one, through a heartbeat
that speaks of the later one alone; and where the later one's opening post is lost, its peer
is written to the earlier session. -/
theorem reused_id_keeps_session_open :
    (accepts (run (step .text) (start office) (restarted.take 3)).state liveBeat = true ∧
      (run (step .text) (start office) restarted).rows.map
        (fun row => (row.id, row.connId, row.fromPeer, row.closedAt)) =
          [(1, some 1, some "alice", none), (2, some 1, none, none)] ∧
      (run (step .text) (start office) restarted).openedBy 1 = 0 ∧
      (run (step .text) (start office) restarted).openedBy 2 = 1) ∧
    ¬ Along (step .text) (Tracked .text) (start office) restarted ∧
    (run (step .text) (start office) [post 0 (some "new") "" 0, post 1 none "bob" 200]).rows.map
      (fun row => (row.id, row.fromPeer)) = [(1, some "bob")] ∧
    ¬ Along (step .text) (Tracked .text) (start office)
      [post 0 (some "new") "" 0, post 1 none "bob" 200] := by
  refine ⟨by decide +kernel, ?_, by decide +kernel, ?_⟩
  · rintro ⟨-, -, ⟨tracks, -⟩, -⟩
    have same := tracks.single _ List.mem_cons_self _ (List.mem_cons_of_mem _ List.mem_cons_self)
      rfl rfl rfl rfl
    exact absurd (congrArg AuditConnection.id same) (by decide +kernel)
  · rintro ⟨-, ⟨tracks, -⟩, -⟩
    have own := tracks.own _ (List.mem_singleton.mpr rfl) 1 (by decide +kernel)
    exact absurd own (by decide +kernel)

end SessionLog
end CortenDesk
