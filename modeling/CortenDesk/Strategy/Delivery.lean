import CortenDesk.Database.Rows
import CortenDesk.Lib.Overlay

/-!
The strategy half of a heartbeat response. The acknowledgement, the version bump and
the wire map are separate functions, in the order the delivery engine runs them; every
read of the clock is a reading of its own, so nothing is assumed of the clock.
-/
namespace CortenDesk
open Php Overlay

def ackRefreshSeconds : Int := 60

namespace Strategy

def optionMap (strategy : Strategy) : OptionMap := sanitizeOptions (strategy.options.getD ∅)

def configOptions (strategy : Strategy) : OptionMap :=
  if strategy.enabled then strategy.optionMap else ∅

/-- `Strategy::query()->find($id)`, which does not see soft-deleted rows. -/
def find (strategies : List Strategy) (id : Nat) : Option Strategy :=
  strategies.find? fun strategy => strategy.id = id ∧ ¬ strategy.trashed

def resolvedFor (strategies : List Strategy) (device : Device) : Option Strategy :=
  device.strategyIdResolved.bind (find strategies)

/-- The map a device should hold under its resolved strategy. -/
def desiredFor (strategies : List Strategy) (device : Device) : OptionMap :=
  ((resolvedFor strategies device).map configOptions).getD ∅

end Strategy

namespace Device

/-- What the device was last told to hold. -/
def sent (device : Device) : Arr String String := stringMap device.strategyOptions

/-- What the device last acknowledged. -/
def acked (device : Device) : Arr String String := stringMap device.strategyAckedOptions

end Device

/-- The clock readings of one call, in the order the code takes them. `pushSeconds` is
the `time()` of the version bump. -/
structure DeliveryClock where
  stale : Instant
  acked : Instant
  pushSeconds : Int
  sent : Instant
  resent : Instant
  deriving DecidableEq

structure Delivery where
  modifiedAt : Int
  configOptions : Arr String String
  deriving DecidableEq

namespace Strategy
variable (column : JsonColumn)

/-- The ack is missing or over `ackRefreshSeconds` old. -/
def ackStale (now : Instant) (device : Device) : Bool :=
  match device.strategyAckedAt with
  | none => true
  | some at' => Stamp.instant at' < now - ackRefreshSeconds * 1000000

/-- The row after the acknowledgement an echoed current token carries. -/
def acknowledge (clock : DeliveryClock) (device : Device) (echoedVersion : Int) : Device :=
  if device.strategyVersion = some echoedVersion ∧
      (device.acked ≠ device.sent ∨ ackStale clock.stale device) then
    { device with
      strategyAckedOptions := some (column.write device.sent)
      strategyAckedAt := some (Instant.stored clock.acked) }
  else device

/-- The local `$acked` after the acknowledgement. -/
def ackedAfter (device : Device) (echoedVersion : Int) : Arr String String :=
  if device.strategyVersion = some echoedVersion then device.sent else device.acked

def bumpVersion (clock : DeliveryClock) (version : Option Int) : Int :=
  max clock.pushSeconds (version.getD 0 + 1)

/-- The row after the token has moved, if the wanted map is not the one last sent. -/
def bump (clock : DeliveryClock) (desired : Arr String String) (device : Device) : Device :=
  if device.strategyVersion = none ∨ device.sent ≠ desired then
    { device with
      strategyVersion := some (bumpVersion clock device.strategyVersion)
      strategyOptions := some (column.write desired)
      strategySentAt := some (Instant.stored clock.sent) }
  else device

/-- The wanted map and an empty string for every other key that may be held. -/
def wireMap (desired acked sent : Arr String String) : Arr String String :=
  (withResets "" desired (acked.keys ++ sent.keys)).ksort

def backfillSentAt (clock : DeliveryClock) (device : Device) : Device :=
  if device.strategySentAt = none then
    { device with strategySentAt := some (Instant.stored clock.resent) }
  else device

/-- The answer once the row has been acknowledged and bumped to `version`. -/
def answer (clock : DeliveryClock) (strategy : Option Strategy)
    (desired acked sent : Arr String String) (version echoedVersion : Int) (device : Device) :
    Device × Option Delivery :=
  if echoedVersion = version then
    if ¬ strategy.any (·.enforce) then (device, none)
    else if desired = ∅ then (device, none)
    else (device, some ⟨version, desired⟩)
  else
    let wire := wireMap desired acked sent
    if wire = ∅ then (device, none)
    else (backfillSentAt clock device, some ⟨version, wire⟩)

/-- `Strategy::deliveryFor`: the device row afterwards and the answer. -/
def deliveryFor (strategies : List Strategy) (clock : DeliveryClock) (device : Device)
    (echoedVersion : Int) : Device × Option Delivery :=
  if device.status ≠ .active then (device, none)
  else
    let strategy := resolvedFor strategies device
    let desired := (desiredFor strategies device).map
    if desired = ∅ ∧ device.acked = ∅ ∧ device.strategyVersion = none then (device, none)
    else
      let acknowledged := acknowledge column clock device echoedVersion
      let bumped := bump column clock desired acknowledged
      answer clock strategy desired (ackedAfter device echoedVersion) device.sent
        (bumped.strategyVersion.getD 0) echoedVersion bumped

end Strategy
end CortenDesk
