import CortenDesk.Lib.Runs
import CortenDesk.Strategy.Delivery

/-!
A device row and the sequential client that polls it. The client echoes the token it
last applied and overlays the map it is handed; a response is lost or applied before
the next heartbeat. The invariant: the client holds exactly what the acknowledgement
of its token would record, and its token is never ahead of the row's.
-/
namespace CortenDesk
open Php Overlay

structure Client where
  echo : Int
  held : String → Option String

namespace Client

def fresh : Client := ⟨0, fun _ => none⟩

/-- Applying a response: an empty string removes the key, the token is latched. -/
def receive (client : Client) : Option Delivery → Client
  | none => client
  | some delivery => ⟨delivery.modifiedAt, overlay "" client.held delivery.configOptions⟩

end Client

structure Fleet where
  device : Device
  strategies : List Strategy
  client : Client

/-- What happens to a device between two observations: a heartbeat, whose response may
be lost; any change of the strategies and of the resolution; a change of status. -/
inductive FleetEvent
  | heartbeat (clock : DeliveryClock) (lost : Bool)
  | configure (strategies : List Strategy) (resolved : Option Nat)
  | setStatus (status : DeviceStatus)

namespace Fleet
variable (column : JsonColumn)

def desired (s : Fleet) : OptionMap := Strategy.desiredFor s.strategies s.device

def respond (s : Fleet) (clock : DeliveryClock) : Device × Option Delivery :=
  Strategy.deliveryFor column s.strategies clock s.device s.client.echo

def step (s : Fleet) : FleetEvent → Fleet
  | .heartbeat clock lost =>
      { s with
        device := (s.respond column clock).1
        client := if lost then s.client else s.client.receive (s.respond column clock).2 }
  | .configure strategies resolved =>
      { s with strategies, device := { s.device with strategyIdResolved := resolved } }
  | .setStatus status => { s with device := { s.device with status } }

/-- A device that has never been pushed a policy, and a freshly installed client. -/
def start (device : Device) (strategies : List Strategy) : Fleet where
  device := { device with
    strategyVersion := none, strategyOptions := none, strategyAckedOptions := none
    strategyAckedAt := none, strategySentAt := none }
  strategies
  client := .fresh

end Fleet

namespace Strategy
variable (column : JsonColumn) (clock : DeliveryClock) (device : Device)

@[simp] theorem acknowledge_sent (echo : Int) :
    (acknowledge column clock device echo).sent = device.sent := by
  unfold acknowledge
  split <;> rfl

@[simp] theorem acknowledge_version (echo : Int) :
    (acknowledge column clock device echo).strategyVersion = device.strategyVersion := by
  unfold acknowledge
  split <;> rfl

theorem acknowledge_acked (echo : Int) (stored : ∃ m : OptionMap, device.sent = m.map) :
    (acknowledge column clock device echo).acked = ackedAfter device echo := by
  unfold acknowledge ackedAfter
  by_cases current : device.strategyVersion = some echo
  · obtain ⟨m, hm⟩ := stored
    split
    · simp only [Device.acked, hm]
      exact column.stringMap_write m
    · next unchanged =>
      simp only [current, true_and, not_or, not_not] at unchanged
      simpa only [current, if_true] using unchanged.1
  · simp [current]

theorem bump_sent (desired : OptionMap) :
    (bump column clock desired.map device).sent = desired.map := by
  unfold bump
  split
  · exact column.stringMap_write desired
  · next unchanged => exact not_not.mp fun h => unchanged (.inr h)

@[simp] theorem bump_acked (desired : Arr String String) :
    (bump column clock desired device).acked = device.acked := by
  unfold bump
  split <;> rfl

theorem backfillSentAt_sent : (backfillSentAt clock device).sent = device.sent := by
  unfold backfillSentAt
  split <;> rfl

theorem backfillSentAt_acked : (backfillSentAt clock device).acked = device.acked := by
  unfold backfillSentAt
  split <;> rfl

theorem backfillSentAt_version :
    (backfillSentAt clock device).strategyVersion = device.strategyVersion := by
  unfold backfillSentAt
  split <;> rfl

/-- The four ways an answer ends. -/
theorem answer_cases (strategy : Option Strategy) (desired acked sent : Arr String String)
    (version echo : Int) :
    let result := answer clock strategy desired acked sent version echo device
    (echo = version ∧ result = (device, none)) ∨
    (echo = version ∧ result = (device, some ⟨version, desired⟩)) ∨
    (echo ≠ version ∧ wireMap desired acked sent = ∅ ∧ result = (device, none)) ∨
    (echo ≠ version ∧
      result = (backfillSentAt clock device, some ⟨version, wireMap desired acked sent⟩)) := by
  unfold answer
  by_cases behind : echo = version
  · simp only [behind, if_true, true_and, ne_eq, not_true_eq_false, false_and, or_false]
    split
    · exact .inl rfl
    · split
      · exact .inl rfl
      · exact .inr rfl
  · simp only [behind, if_false, false_and, false_or, ne_eq, not_false_eq_true, true_and]
    split
    · next empty => exact .inl ⟨empty, rfl⟩
    · exact .inr rfl

theorem answer_row (strategy : Option Strategy) (desired acked sent : Arr String String)
    (version echo : Int) :
    (answer clock strategy desired acked sent version echo device).1 = device ∨
      (answer clock strategy desired acked sent version echo device).1 =
        backfillSentAt clock device := by
  obtain ⟨_, result⟩ | ⟨_, result⟩ | ⟨_, _, result⟩ | ⟨_, result⟩ :=
    answer_cases clock device strategy desired acked sent version echo <;> rw [result]
  · exact .inl rfl
  · exact .inl rfl
  · exact .inl rfl
  · exact .inr rfl

/-- A heartbeat does not touch the resolution. -/
theorem deliveryFor_resolved (strategies : List Strategy) (echo : Int) :
    (deliveryFor column strategies clock device echo).1.strategyIdResolved =
      device.strategyIdResolved := by
  have acknowledged : (acknowledge column clock device echo).strategyIdResolved =
      device.strategyIdResolved := by
    unfold acknowledge
    split <;> rfl
  have bumped (desired : Arr String String) :
      (bump column clock desired (acknowledge column clock device echo)).strategyIdResolved =
        device.strategyIdResolved := by
    unfold bump
    split <;> exact acknowledged
  have backfilled (row : Device) :
      (backfillSentAt clock row).strategyIdResolved = row.strategyIdResolved := by
    unfold backfillSentAt
    split <;> rfl
  unfold deliveryFor
  split
  · rfl
  · dsimp only
    split
    · rfl
    · obtain row | row := answer_row clock
          (bump column clock _ (acknowledge column clock device echo)) _ _ _ _ _ echo <;>
        rw [row]
      · exact bumped _
      · exact (backfilled _).trans (bumped _)

/-- The wire map moves a client that holds the acknowledged map to the wanted one. -/
theorem overlay_wireMap (desired acked sent : Arr String String) :
    overlay "" (effective "" acked) (wireMap desired acked sent) = effective "" desired := by
  refine overlay_withResets "" (OrderedMap.get?_ksort _) fun k _ unlisted => ?_
  exact effective_eq_none_of_not_mem "" fun h => unlisted (List.mem_append_left _ h)

theorem wireMap_eq_empty_iff (desired acked sent : Arr String String) :
    wireMap desired acked sent = ∅ ↔ desired = ∅ ∧ acked = ∅ ∧ sent = ∅ := by
  simp only [wireMap, OrderedMap.eq_empty_iff, OrderedMap.mem_keys_ksort, mem_keys_withResets,
    List.mem_append, not_or, forall_and]

theorem echo_lt_bumpVersion {version : Option Int} {echo : Int}
    (fresh : version = none → echo = 0) (behind : ∀ v, version = some v → echo ≤ v) :
    echo < bumpVersion clock version := by
  unfold bumpVersion
  cases version with
  | none => simp only [fresh rfl, Option.getD_none]; omega
  | some v =>
      have := behind v rfl
      simp only [Option.getD_some]
      omega

end Strategy

namespace Fleet
open Strategy
variable (column : JsonColumn)

/-- The row's bookkeeping accounts for what the client holds. -/
structure Synced (s : Fleet) : Prop where
  storedSent : ∃ m : OptionMap, s.device.sent = m.map
  storedAcked : ∃ m : OptionMap, s.device.acked = m.map
  unmanaged : s.device.strategyVersion = none → s.client.echo = 0 ∧ s.device.acked = ∅
  token : ∀ v, s.device.strategyVersion = some v → 0 < v ∧ s.client.echo ≤ v
  held : s.client.held = effective "" (ackedAfter s.device s.client.echo)

theorem synced_start (device : Device) (strategies : List Strategy) :
    Synced (start device strategies) where
  storedSent := ⟨∅, rfl⟩
  storedAcked := ⟨∅, rfl⟩
  unmanaged _ := ⟨rfl, rfl⟩
  token _ h := nomatch h
  held := (effective_empty "").symm

/-- What a heartbeat of a synced device does: a null answer finds the client in step,
an applied one brings it in step, and the row stays accountable either way. -/
structure Answered (s : Fleet) (result : Device × Option Delivery) : Prop where
  silent : result.2 = none → s.client.held = effective "" s.desired.map
  applied : ∀ delivery, result.2 = some delivery →
    overlay "" s.client.held delivery.configOptions = effective "" s.desired.map
  lost : Synced { s with device := result.1 }
  received : Synced { s with device := result.1, client := s.client.receive result.2 }

/-- A managed row is in order when the client's token is the row's and the client holds
the sent map, or the token is older and the client holds the acknowledged one. -/
theorem synced_managed {s : Fleet} {v : Int} {sent acked : OptionMap}
    (version : s.device.strategyVersion = some v) (hsent : s.device.sent = sent.map)
    (hacked : s.device.acked = acked.map) (pos : 0 < v) (le : s.client.echo ≤ v)
    (held : s.client.held =
      effective "" (if s.client.echo = v then sent.map else acked.map)) : Synced s where
  storedSent := ⟨sent, hsent⟩
  storedAcked := ⟨acked, hacked⟩
  unmanaged none := by simp [version] at none
  token w hw := by
    rw [version, Option.some.injEq] at hw
    exact hw ▸ ⟨pos, le⟩
  held := by
    simpa only [ackedAfter, version, Option.some.injEq, hsent, hacked, eq_comm (a := v)]
      using held

theorem Synced.stored_ackedAfter {s : Fleet} (h : Synced s) :
    ∃ m : OptionMap, ackedAfter s.device s.client.echo = m.map := by
  unfold ackedAfter
  split
  · exact h.storedSent
  · exact h.storedAcked

/-- The answer to a synced client, from the row the acknowledgement and the bump leave. -/
theorem answered_answer {s : Fleet} (h : Synced s) (clock : DeliveryClock)
    (strategy : Option Strategy) {device : Device} {v : Int}
    (version : device.strategyVersion = some v) (hsent : device.sent = s.desired.map)
    (hacked : device.acked = ackedAfter s.device s.client.echo)
    (pos : 0 < v) (le : s.client.echo ≤ v)
    (level : s.client.echo = v → ackedAfter s.device s.client.echo = s.desired.map) :
    Answered s (answer clock strategy s.desired.map (ackedAfter s.device s.client.echo)
      s.device.sent v s.client.echo device) := by
  obtain ⟨acked, stored⟩ := h.stored_ackedAfter
  have held := h.held
  have inStep (now : s.client.echo = v) : s.client.held = effective "" s.desired.map :=
    held.trans (congrArg _ (level now))
  have wire : overlay "" s.client.held (wireMap s.desired.map
      (ackedAfter s.device s.client.echo) s.device.sent) = effective "" s.desired.map := by
    rw [held, overlay_wireMap]
  have kept {row : Device} (version : row.strategyVersion = some v)
      (hsent : row.sent = s.desired.map)
      (hacked : row.acked = ackedAfter s.device s.client.echo) :
      Synced { s with device := row } := by
    refine synced_managed version hsent (hacked.trans stored) pos le ?_
    split
    · next now => exact inStep now
    · exact held.trans (congrArg _ stored)
  have latched {row : Device} {map : Arr String String}
      (version : row.strategyVersion = some v) (hsent : row.sent = s.desired.map)
      (hacked : row.acked = ackedAfter s.device s.client.echo)
      (moved : overlay "" s.client.held map = effective "" s.desired.map) :
      Synced { s with device := row, client := s.client.receive (some ⟨v, map⟩) } := by
    refine synced_managed version hsent (hacked.trans stored) pos le_rfl ?_
    simp only [Client.receive, if_true]
    exact moved
  obtain ⟨now, result⟩ | ⟨now, result⟩ | ⟨_, nothing, result⟩ | ⟨_, result⟩ :=
    answer_cases clock device strategy s.desired.map
      (ackedAfter s.device s.client.echo) s.device.sent v s.client.echo <;> rw [result]
  · refine ⟨fun _ => inStep now, ?_, kept version hsent hacked, kept version hsent hacked⟩
    rintro _ ⟨⟩
  · have again : overlay "" s.client.held s.desired.map = effective "" s.desired.map := by
      rw [inStep now, overlay_effective]
    refine ⟨by rintro ⟨⟩, ?_, kept version hsent hacked, latched version hsent hacked again⟩
    rintro _ ⟨⟩
    exact again
  · rw [nothing] at wire
    refine ⟨fun _ => wire, ?_, kept version hsent hacked, kept version hsent hacked⟩
    rintro _ ⟨⟩
  · rw [← backfillSentAt_version clock] at version
    rw [← backfillSentAt_sent clock] at hsent
    rw [← backfillSentAt_acked clock] at hacked
    refine ⟨by rintro ⟨⟩, ?_, kept version hsent hacked, latched version hsent hacked wire⟩
    rintro _ ⟨⟩
    exact wire

/-- The row once the acknowledgement and the push of a heartbeat are written. -/
def pushed (s : Fleet) (clock : DeliveryClock) : Device :=
  bump column clock s.desired.map (acknowledge column clock s.device s.client.echo)

theorem pushed_sent (s : Fleet) (clock : DeliveryClock) :
    (s.pushed column clock).sent = s.desired.map :=
  bump_sent column clock _ _

theorem pushed_acked {s : Fleet} (clock : DeliveryClock)
    (stored : ∃ m : OptionMap, s.device.sent = m.map) :
    (s.pushed column clock).acked = ackedAfter s.device s.client.echo := by
  rw [pushed, bump_acked, acknowledge_acked column clock s.device _ stored]

/-- A push moves the token; otherwise the row was told the wanted map under its own. -/
theorem pushed_cases (s : Fleet) (clock : DeliveryClock) :
    ((s.device.strategyVersion = none ∨ s.device.sent ≠ s.desired.map) ∧
      (s.pushed column clock).strategyVersion =
        some (bumpVersion clock s.device.strategyVersion)) ∨
    (s.device.sent = s.desired.map ∧
      (s.pushed column clock) = acknowledge column clock s.device s.client.echo ∧
      ∃ v, s.device.strategyVersion = some v) := by
  unfold pushed bump
  rw [acknowledge_version, acknowledge_sent]
  split
  · next moved => exact .inl ⟨moved, rfl⟩
  · next unchanged =>
    rw [not_or, not_not] at unchanged
    exact .inr ⟨unchanged.2, rfl, Option.ne_none_iff_exists'.mp unchanged.1⟩

/-- An active device that was never managed is told nothing; any other is answered from
the row the acknowledgement and the push leave. -/
theorem respond_cases {s : Fleet} (clock : DeliveryClock)
    (active : s.device.status = .active) :
    (s.desired.map = ∅ ∧ s.device.acked = ∅ ∧ s.device.strategyVersion = none ∧
      s.respond column clock = (s.device, none)) ∨
    (¬ (s.desired.map = ∅ ∧ s.device.acked = ∅ ∧ s.device.strategyVersion = none) ∧
      s.respond column clock = answer clock (resolvedFor s.strategies s.device) s.desired.map
        (ackedAfter s.device s.client.echo) s.device.sent
        ((s.pushed column clock).strategyVersion.getD 0) s.client.echo
        (s.pushed column clock)) := by
  unfold respond deliveryFor
  rw [if_neg (not_not.mpr active)]
  by_cases never : s.desired.map = ∅ ∧ s.device.acked = ∅ ∧ s.device.strategyVersion = none
  · exact .inl ⟨never.1, never.2.1, never.2.2, if_pos never⟩
  · exact .inr ⟨never, if_neg never⟩

theorem answered_respond {s : Fleet} (h : Synced s) (clock : DeliveryClock)
    (active : s.device.status = .active) : Answered s (s.respond column clock) := by
  have hsent := pushed_sent column s clock
  have hacked := pushed_acked column clock h.storedSent
  obtain ⟨nothing, acked, none, result⟩ | ⟨_, result⟩ := respond_cases column clock active
  · rw [result]
    refine ⟨fun _ => ?_, nofun, h, h⟩
    rw [h.held, ackedAfter, none, acked, nothing, if_neg nofun]
  · rw [result]
    obtain ⟨_, version⟩ | ⟨told, same, v, hv⟩ := pushed_cases column s clock
    · have ahead := echo_lt_bumpVersion clock (fun none => (h.unmanaged none).1)
        fun v hv => (h.token v hv).2
      have pos : 0 < bumpVersion clock s.device.strategyVersion :=
        echo_lt_bumpVersion clock (fun _ => rfl) fun v hv => (h.token v hv).1.le
      rw [version]
      exact answered_answer h clock _ version hsent hacked pos ahead.le
        fun now => absurd now ahead.ne
    · have version : (s.pushed column clock).strategyVersion = some v := by
        rw [same, acknowledge_version, hv]
      rw [version]
      exact answered_answer h clock _ version hsent hacked (h.token v hv).1 (h.token v hv).2
        fun now => (if_pos (hv.trans (congrArg some now).symm)).trans told

/-- A null answer to an active device moves nothing but the acknowledgement, and leaves the
wanted map as the acknowledged one. -/
theorem respond_silent {s : Fleet} (h : Synced s) (clock : DeliveryClock)
    (active : s.device.status = .active) (silent : (s.respond column clock).2 = none) :
    (s.respond column clock).1 = acknowledge column clock s.device s.client.echo ∧
      (s.respond column clock).1.acked = s.desired.map := by
  obtain ⟨nothing, acked, none, result⟩ | ⟨managed, result⟩ :=
    respond_cases column clock active
  · rw [result]
    exact ⟨by simp [acknowledge, none], acked.trans nothing.symm⟩
  · have hacked := pushed_acked column clock h.storedSent
    have ahead := echo_lt_bumpVersion clock (fun none => (h.unmanaged none).1)
      fun v hv => (h.token v hv).2
    have cases := pushed_cases column s clock
    rw [result] at silent ⊢
    obtain ⟨now, row⟩ | ⟨_, row⟩ | ⟨behind, nothing, row⟩ | ⟨_, row⟩ :=
      answer_cases clock (s.pushed column clock) (resolvedFor s.strategies s.device)
        s.desired.map (ackedAfter s.device s.client.echo) s.device.sent
        ((s.pushed column clock).strategyVersion.getD 0) s.client.echo <;>
      rw [row] at silent ⊢
    · obtain ⟨_, version⟩ | ⟨told, same, v, hv⟩ := cases
      · rw [version] at now
        exact absurd now ahead.ne
      · refine ⟨same, hacked.trans ?_⟩
        rw [same, acknowledge_version, hv, Option.getD_some] at now
        rw [ackedAfter, hv, now, if_pos rfl, told]
    · cases silent
    · obtain ⟨desired, acked, sent⟩ := (wireMap_eq_empty_iff ..).mp nothing
      obtain ⟨none | moved, _⟩ | ⟨_, same, _⟩ := cases
      · rw [ackedAfter, none, if_neg nofun] at acked
        exact absurd ⟨desired, acked, none⟩ managed
      · exact absurd (sent.trans desired.symm) moved
      · exact ⟨same, hacked.trans (acked.trans desired.symm)⟩
    · cases silent

/-- What the engine leaves of a row that is not active. -/
theorem respond_inactive {s : Fleet} (clock : DeliveryClock)
    (inactive : s.device.status ≠ .active) : s.respond column clock = (s.device, none) :=
  if_pos inactive

theorem synced_step (s : Fleet) (e : FleetEvent) (h : Synced s) : Synced (s.step column e) := by
  cases e with
  | heartbeat clock lost =>
      by_cases active : s.device.status = .active
      · have answered := answered_respond column h clock active
        cases lost with
        | true => exact answered.lost
        | false => exact answered.received
      · simpa [step, respond_inactive column clock active, Client.receive] using h
  | configure strategies resolved =>
      exact ⟨h.storedSent, h.storedAcked, h.unmanaged, h.token, h.held⟩
  | setStatus status => exact ⟨h.storedSent, h.storedAcked, h.unmanaged, h.token, h.held⟩

/-- The states of a device and its client in the runs from a never managed device. -/
def Reachable (s : Fleet) : Prop :=
  ∃ device strategies es, s = Runs.run (step column) (start device strategies) es

theorem synced_of_reachable {s : Fleet} (h : Reachable column s) : Synced s := by
  obtain ⟨device, strategies, es, rfl⟩ := h
  exact Runs.invariant (synced_step column) _ es (synced_start device strategies)

/-- In every state a device can reach, whatever its next heartbeat is answered: an applied
response leaves the client with the non-empty entries of the wanted map, and a null
answer to an active device finds it holding them already. -/
theorem delivery_never_strands (device : Device) (strategies : List Strategy)
    (es : List FleetEvent) (clock : DeliveryClock) :
    let s := Runs.run (step column) (start device strategies) es
    (∀ delivery, (s.respond column clock).2 = some delivery →
      (s.step column (.heartbeat clock false)).client.held = effective "" s.desired.map) ∧
    ((s.respond column clock).2 = none → s.device.status = .active →
      s.client.held = effective "" s.desired.map) := by
  intro s
  have synced : Synced s := synced_of_reachable column ⟨device, strategies, es, rfl⟩
  constructor
  · intro delivery some
    have active : s.device.status = .active := by
      by_contra inactive
      simp [respond_inactive column clock inactive] at some
    simpa [step, some, Client.receive] using
      (answered_respond column synced clock active).applied delivery some
  · intro none active
    exact (answered_respond column synced clock active).silent none

end Fleet
end CortenDesk
