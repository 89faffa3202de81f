import CortenDesk.Strategy.Client

/-!
Per-strategy fleet compliance: the classifier reads the acknowledged and the sent map
and their stamps, never the client. What it says about the client is decided here over
the runs of a device and its client, whenever the map is taken to have changed last. Detail rows and
the counts are left out.
-/
namespace CortenDesk
open Php Overlay

inductive ComplianceState
  | confirmed
  | pending
  | stale
  | offline
  deriving DecidableEq, Repr

/-- The clock readings of one classification: the deadline's and the presence check's. -/
structure ComplianceClock where
  deadline : Instant
  presence : Instant
  deriving DecidableEq

namespace Device

def isOnline (onlineWindow : Int) (now : Instant) (device : Device) : Bool :=
  match device.lastOnlineAt with
  | none => false
  | some at' => now - onlineWindow * 1000000 < Stamp.instant at'

end Device

namespace StrategyCompliance
open Strategy

def timeoutMinutes (strategy : Strategy) : Int :=
  max 1 (match strategy.confirmationTimeoutMinutes with
    | none => 15
    | some t => if t = 0 then 15 else t)

def stateFor (onlineWindow : Int) (clock : ComplianceClock) (device : Device)
    (strategy : Strategy) (desired : Arr String String) (changedAt : Option Stamp) :
    ComplianceState :=
  let sentAt := device.strategySentAt
  if device.strategyAckedAt.any fun ackedAt => device.acked = desired ∧ sentAt.all (· ≤ ackedAt)
  then .confirmed
  else
    let deadlineFrom := if device.sent = desired then sentAt.or changedAt else changedAt
    let since := clock.deadline - timeoutMinutes strategy * 60 * 1000000
    if deadlineFrom.all fun at' => since < Stamp.instant at' then .pending
    else if device.isOnline onlineWindow clock.presence then .stale
    else .offline

/-- The row records an acknowledgement not older than its last push. -/
def AckCurrent (device : Device) : Prop :=
  ∃ ackedAt ∈ device.strategyAckedAt, ∀ t ∈ device.strategySentAt, t ≤ ackedAt

theorem stateFor_eq_confirmed_iff (onlineWindow : Int) (clock : ComplianceClock)
    (device : Device) (strategy : Strategy) (desired : Arr String String)
    (changedAt : Option Stamp) :
    stateFor onlineWindow clock device strategy desired changedAt = .confirmed ↔
      device.acked = desired ∧ AckCurrent device := by
  have otherwise {p q : Prop} [Decidable p] [Decidable q] :
      (if p then ComplianceState.pending else if q then .stale else .offline) ≠ .confirmed := by
    split
    · exact nofun
    · split <;> exact nofun
  unfold stateFor
  rw [ite_eq_left_iff]
  simp only [otherwise, imp_false, not_not]
  unfold AckCurrent
  cases device.strategyAckedAt <;> cases device.strategySentAt <;> simp

/-- The classifier never says confirmed of a device that holds anything but its resolved
strategy's non-empty entries. -/
def Sound (s : Fleet) : Prop :=
  ∀ strategy, resolvedFor s.strategies s.device = some strategy →
    ∀ onlineWindow clock changedAt,
      stateFor onlineWindow clock s.device strategy strategy.configOptions.map changedAt =
        .confirmed →
      s.client.held = effective "" strategy.configOptions.map

/-- The step makes the wanted map the acknowledged one again, while the client has
applied a later push of other entries that is stamped no later than that
acknowledgement. -/
def RevertsAppliedPush (s : Fleet) : FleetEvent → Prop
  | .configure strategies resolved =>
      ∃ strategy, resolved.bind (find strategies) = some strategy ∧
        strategy.configOptions.map = s.device.acked ∧
        s.device.strategyVersion = some s.client.echo ∧
        effective "" s.device.sent ≠ effective "" s.device.acked ∧
        AckCurrent s.device
  | _ => False

/-- An unsound row tells its client's token, and the map sent under it is not the one
that was acknowledged. -/
theorem sound_iff {s : Fleet} (h : s.Synced) :
    Sound s ↔ ∀ strategy, resolvedFor s.strategies s.device = some strategy →
      strategy.configOptions.map = s.device.acked →
      s.device.strategyVersion = some s.client.echo → AckCurrent s.device →
      effective "" s.device.sent = effective "" s.device.acked := by
  have held := h.held
  constructor
  · intro sound strategy resolved wanted told ack
    have := sound strategy resolved 0 ⟨0, 0⟩ none
      ((stateFor_eq_confirmed_iff ..).mpr ⟨wanted.symm, ack⟩)
    rw [held, ackedAfter, if_pos told, wanted] at this
    exact this
  · intro agree strategy resolved onlineWindow clock changedAt confirmed
    obtain ⟨wanted, ack⟩ := (stateFor_eq_confirmed_iff ..).mp confirmed
    rw [held, ackedAfter, ← wanted]
    split
    · next told => exact agree strategy resolved wanted.symm told ack
    · rfl

section Runs
variable (column : JsonColumn)

/-- A heartbeat of an active device leaves the wanted map as the sent one, or nothing to
classify at all. -/
theorem respond_sent {s : Fleet} (clock : DeliveryClock) (active : s.device.status = .active) :
    s.respond column clock = (s.device, none) ∨
      (s.respond column clock).1.sent = s.desired.map := by
  obtain ⟨_, _, _, result⟩ | ⟨_, result⟩ := Fleet.respond_cases column clock active
  · exact .inl result
  · right
    rw [result]
    obtain row | row := answer_row clock (s.pushed column clock) _ s.desired.map _ _ _ _ <;>
      rw [row]
    · exact Fleet.pushed_sent column s clock
    · rw [backfillSentAt_sent, Fleet.pushed_sent column s clock]

theorem sound_heartbeat {s : Fleet} (clock : DeliveryClock) (lost : Bool) (h : s.Synced)
    (sound : Sound s) : Sound (s.step column (.heartbeat clock lost)) := by
  have quiet : s.respond column clock = (s.device, none) →
      s.step column (.heartbeat clock lost) = s := by
    intro result
    simp [Fleet.step, result, Client.receive]
  by_cases active : s.device.status = .active
  · obtain result | hsent := respond_sent column clock active
    · rwa [quiet result]
    · refine (sound_iff (Fleet.synced_step column s _ h)).mpr ?_
      intro strategy resolved wanted _ _
      have same : s.desired = strategy.configOptions := by
        have id := deliveryFor_resolved column clock s.device s.strategies s.client.echo
        change ((s.respond column clock).1.strategyIdResolved.bind (find s.strategies)) =
          some strategy at resolved
        rw [Fleet.respond, id] at resolved
        simp only [Fleet.desired, desiredFor, resolvedFor, resolved, Option.map_some,
          Option.getD_some]
      rw [← wanted, ← same]
      exact congrArg _ hsent
  · rwa [quiet (Fleet.respond_inactive column clock active)]

theorem sound_step_iff (s : Fleet) (e : FleetEvent) (h : s.Synced) (sound : Sound s) :
    Sound (s.step column e) ↔ ¬ RevertsAppliedPush s e := by
  have kept := Fleet.synced_step column s e h
  cases e with
  | heartbeat clock lost => exact iff_of_true (sound_heartbeat column clock lost h sound) id
  | configure strategies resolved =>
      rw [sound_iff kept]
      constructor
      · rintro agree ⟨strategy, hresolved, wanted, told, apart, ack⟩
        exact apart (agree strategy hresolved wanted told ack)
      · intro keeps strategy hresolved wanted told ack
        by_contra apart
        exact keeps ⟨strategy, hresolved, wanted, told, apart, ack⟩
  | setStatus status =>
      refine iff_of_true ((sound_iff kept).mpr ?_) id
      exact (sound_iff h).mp sound

/-- A run of a device and its client is sound in every state exactly when no edit or
reassignment in it reverts a push behind the acknowledgement's stamp. -/
theorem confirmed_sound_iff (device : Device) (strategies : List Strategy)
    (es : List FleetEvent) :
    Runs.Always (Fleet.step column) Sound (Fleet.start device strategies) es ↔
      Runs.Along (Fleet.step column) (fun s e => ¬ RevertsAppliedPush s e)
        (Fleet.start device strategies) es := by
  refine Runs.always_iff_along (Fleet.synced_step column)
    (fun s e => sound_step_iff column s e) es _ (Fleet.synced_start device strategies) ?_
  exact (sound_iff (Fleet.synced_start device strategies)).mpr fun _ _ _ told => nomatch told

def audioStrategy (value : String) : Strategy :=
  { id := 1, name := "Audio",
    options := some (OrderedMap.ofList [(.str "enable-audio", .string value)]) }

def laptop : Device := { id := 1, rustdeskId := "100200300", strategyIdResolved := some 1 }

/-- One call whose clock does not move. -/
def readingAt (seconds : Int) : DeliveryClock where
  stale := seconds * 1000000
  acked := seconds * 1000000
  pushSeconds := seconds
  sent := seconds * 1000000
  resent := seconds * 1000000

/-- The acknowledgement of the first map and the push of the second fall in one second;
the edit is taken back before the next heartbeat. -/
def reverted : Fleet :=
  Runs.run (Fleet.step .text) (Fleet.start laptop [audioStrategy "Y"]) [
    .heartbeat (readingAt 1000) false,
    .configure [audioStrategy "N"] (some 1),
    .heartbeat (readingAt 1015) false,
    .configure [audioStrategy "Y"] (some 1)]

theorem reverted_not_sound : ¬ Sound reverted := by
  intro sound
  have resolved : resolvedFor reverted.strategies reverted.device = some (audioStrategy "Y") := by
    decide +kernel
  have confirmed : stateFor 60 ⟨1016000000, 1016000000⟩ reverted.device (audioStrategy "Y")
      (audioStrategy "Y").configOptions.map none = .confirmed := by decide +kernel
  have held := congrFun (sound _ resolved 60 ⟨1016000000, 1016000000⟩ none confirmed)
    "enable-audio"
  revert held
  decide +kernel

/-- The heartbeat is one that records the acknowledgement it carries. -/
def RecordsAck (s : Fleet) (clock : DeliveryClock) : Prop :=
  s.device.strategyVersion = some s.client.echo ∧
    (s.device.acked ≠ s.device.sent ∨ ackStale clock.stale s.device)

/-- No heartbeat, and no change of the strategy a device resolves to. -/
def Untouched (strategy : Strategy) (s : Fleet) : FleetEvent → Prop
  | .heartbeat _ _ => False
  | .configure strategies resolved =>
      resolved = s.device.strategyIdResolved ∧ resolved.bind (find strategies) = some strategy
  | .setStatus _ => True

/-- The row tells that the device acknowledged a map after it was last pushed one. -/
def Confirms (desired : Arr String String) (s : Fleet) : Prop :=
  s.device.acked = desired ∧ AckCurrent s.device

theorem confirms_untouched {strategy : Strategy} {desired : Arr String String} (s : Fleet)
    (e : FleetEvent) (h : Confirms desired s) (quiet : Untouched strategy s e) :
    Confirms desired (s.step column e) := by
  cases e with
  | heartbeat clock lost => exact quiet.elim
  | configure strategies resolved => exact h
  | setStatus status => exact h

theorem ackCurrent_acknowledge {s : Fleet} {clock : DeliveryClock}
    (forward : ∀ t ∈ s.device.strategySentAt, t ≤ Instant.stored clock.acked)
    (recorded : RecordsAck s clock ∨ AckCurrent s.device) :
    AckCurrent (acknowledge column clock s.device s.client.echo) := by
  unfold acknowledge
  split
  · exact ⟨_, rfl, forward⟩
  · next unchanged => exact recorded.resolve_left unchanged

theorem confirms_silent {s : Fleet} (h : s.Synced) {clock : DeliveryClock} (lost : Bool)
    (active : s.device.status = .active) (silent : (s.respond column clock).2 = none)
    (forward : ∀ t ∈ s.device.strategySentAt, t ≤ Instant.stored clock.acked)
    (recorded : RecordsAck s clock ∨ AckCurrent s.device) :
    Confirms s.desired.map (s.step column (.heartbeat clock lost)) := by
  obtain ⟨row, hacked⟩ := Fleet.respond_silent column h clock active silent
  refine ⟨hacked, ?_⟩
  change AckCurrent (s.respond column clock).1
  rw [row]
  exact ackCurrent_acknowledge column forward recorded

/-- After a null answer that records the device's acknowledgement, or finds one recorded
that is not older than the last push, the device is confirmed for as long as it sends no
heartbeat and its strategy stands, whenever and under whatever presence it is classified. -/
theorem confirmed_after_silence {s : Fleet} (reachable : s.Reachable column)
    (active : s.device.status = .active) (strategy : Strategy)
    (resolved : resolvedFor s.strategies s.device = some strategy)
    (clock : DeliveryClock) (silent : (s.respond column clock).2 = none)
    (forward : ∀ t ∈ s.device.strategySentAt, t ≤ Instant.stored clock.acked)
    (recorded : RecordsAck s clock ∨ AckCurrent s.device)
    (lost : Bool) (later : List FleetEvent)
    (untouched : Runs.Along (Fleet.step column) (Untouched strategy)
      (s.step column (.heartbeat clock lost)) later)
    (lastOnlineAt : Option Stamp) (onlineWindow : Int) (reading : ComplianceClock)
    (changedAt : Option Stamp) :
    stateFor onlineWindow reading
      { (Runs.run (Fleet.step column) (s.step column (.heartbeat clock lost)) later).device
        with lastOnlineAt } strategy strategy.configOptions.map changedAt = .confirmed := by
  have synced := Fleet.synced_of_reachable column reachable
  have wanted : s.desired = strategy.configOptions := by
    simp only [Fleet.desired, desiredFor, resolved, Option.map_some, Option.getD_some]
  have confirms := confirms_silent column synced lost active silent forward recorded
  rw [wanted] at confirms
  exact (stateFor_eq_confirmed_iff ..).mpr
    (Runs.invariant_along (confirms_untouched column) later _ confirms untouched)

/-- A map is pushed and acknowledged, a second push is lost, and the first map is pushed
and echoed again within a minute of its acknowledgement. -/
def repushed : Fleet :=
  Runs.run (Fleet.step .text) (Fleet.start laptop [audioStrategy "Y"]) [
    .heartbeat (readingAt 1000) false,
    .heartbeat (readingAt 1015) false,
    .configure [audioStrategy "N"] (some 1),
    .heartbeat (readingAt 1030) true,
    .configure [audioStrategy "Y"] (some 1),
    .heartbeat (readingAt 1045) false]

def emptyStrategy : Strategy := { id := 1, name := "Empty" }

/-- A device that was never pushed a map owes no echo of the empty one, and an echo within
a minute of the last does not refresh the acknowledgement: both are told nothing and
neither is confirmed. -/
theorem silence_not_confirmed :
    ((Fleet.start laptop [emptyStrategy]).respond .text (readingAt 1000)).2 = none ∧
    emptyStrategy.enabled = true ∧
    stateFor 60 ⟨3000000000, 3000000000⟩
      ((Fleet.start laptop [emptyStrategy]).step .text
        (.heartbeat (readingAt 1000) false)).device
      emptyStrategy emptyStrategy.configOptions.map (some 900) = .offline ∧
    resolvedFor repushed.strategies repushed.device = some (audioStrategy "Y") ∧
    (repushed.respond .text (readingAt 1060)).2 = none ∧
    stateFor 60 ⟨3000000000, 3000000000⟩
      (repushed.step .text (.heartbeat (readingAt 1060) false)).device
      (audioStrategy "Y") (audioStrategy "Y").configOptions.map (some 1040) = .offline := by
  decide +kernel

def pushedOnce : Fleet :=
  Runs.run (Fleet.step .text) (Fleet.start laptop [audioStrategy "Y"])
    [.heartbeat (readingAt 1000) false]

def strategyAdded : FleetEvent :=
  .configure [audioStrategy "Y", { id := 2, name := "Other" }] (some 1)

theorem confirmed_after_silence_audio :
    stateFor 60 ⟨9000000000, 9000000000⟩
      { (Runs.run (Fleet.step .text)
          (pushedOnce.step .text (.heartbeat (readingAt 1015) false)) [strategyAdded]).device
        with lastOnlineAt := none }
      (audioStrategy "Y") (audioStrategy "Y").configOptions.map none = .confirmed :=
  confirmed_after_silence .text (s := pushedOnce) ⟨laptop, [audioStrategy "Y"], _, rfl⟩
    (by decide +kernel) (audioStrategy "Y") (by decide +kernel) (readingAt 1015)
    (by decide +kernel) (by decide +kernel) (.inl ⟨by decide +kernel, .inl (by decide +kernel)⟩)
    false [strategyAdded] ⟨⟨by decide +kernel, by decide +kernel⟩, trivial⟩ none 60 _ none

end Runs
end StrategyCompliance
end CortenDesk
