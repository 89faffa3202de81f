import CortenDesk.Lib.Pool
import CortenDesk.WebClient.Lifecycle

/-!
The worker that hosts a session: what it holds while `connect` and `openRelay` await, the
watchdog of the connection, and the teardown. Of what it posts only the state events are kept.
-/
namespace CortenDesk
namespace WebClient

namespace Session
section
variable {Bytes : Type} (api : Api Bytes) (config : SessionConfig) (serverEdPk : Bytes)

/-- The state event of a frame from the id server. -/
def signalingEmits (s : Session Bytes) (b : Bytes) : Option SessionState :=
  if s.dead then none
  else
    match parseRendezvous api b with
    | .error _ => some .error
    | .ok (.relayResponse _ _ none) => some .error
    | .ok (.relayResponse _ _ (some pk)) =>
        if api.length pk = 0 then some .error
        else
          match verifyServerRelayPk api pk serverEdPk config.peerId with
          | .error _ => some .error
          | .ok _ => some .relay
    | .ok (.punchHoleResponse (some _)) => some .error
    | .ok _ => none

def firstEmits (s : Session Bytes) (b : Bytes) : Option SessionState :=
  match api.decodeMessage b with
  | .ok ⟨some (.signedId signed)⟩ =>
      match s.peerEdPk with
      | none => some .error
      | some peerEdPk =>
          match verifyPeerSignedId api signed peerEdPk with
          | .error _ => some .error
          | .ok idPk => if beforeNul idPk.id ≠ config.peerId then some .error else none
  | _ => some .error

def unionEmits : Option (MessageUnion Bytes) → Option SessionState
  | some (.hash _ _) => some .login
  | some (.loginResponse (some (.error error))) =>
      if isManualAccept error then some .needAccept else none
  | some (.loginResponse (some (.peerInfo _))) => some .streaming
  | some (.misc (some (.closeReason _))) => some .closed
  | _ => none

/-- The state event of a frame from the relay. -/
def relayEmits (s : Session Bytes) (b : Bytes) : Option SessionState :=
  if s.dead then none
  else
    match s.cipher with
    | none => s.firstEmits api config b
    | some cipher =>
        match (cipher.open api b).2 with
        | .error _ => some .error
        | .ok plain =>
            match api.decodeMessage plain with
            | .error _ => some .error
            | .ok message => unionEmits message.union

/-- The state that a call hands to `setState`, which emits it. No call does so twice. -/
def emits (s : Session Bytes) : Call Bytes → Option SessionState
  | .start => some .rendezvous
  | .signaling b => s.signalingEmits api config serverEdPk b
  | .relayOpened => some .handshake
  | .relay b => s.relayEmits api config b
  | .disconnect => if s.state ≠ .closed then some .closed else none
  | _ => none

end
end Session

inductive Role
  | id
  | relay
  deriving DecidableEq

inductive Media
  | video
  | audio
  deriving DecidableEq

/-- What the one `connect` that goes through awaits: `connectStarted` is that it is not
`notStarted`. -/
inductive Connect
  | notStarted
  | ready (canvas : Bool)
  | probe
  | idSocket
  | settled
  deriving DecidableEq

/-- The worker. A transport or a pipeline is named by its place among those obtained, and
`relays` counts the relay sockets that `openRelay` awaits. -/
structure Worker (Bytes : Type) where
  connect : Connect := .notStarted
  tornDown : Bool := false
  connectTimer : Bool := false
  probe : Option Bytes := none
  session : Option (Session Bytes) := none
  ws1 : Option Nat := none
  ws2 : Option Nat := none
  video : Option Nat := none
  audio : Option Nat := none
  relays : Nat := 0
  transports : Pool Role := {}
  pipelines : Pool Media := {}
  posted : List SessionState := []

/-- What the worker has its session do besides: commands of the user interface, requests of a
pipeline, and the hashes that the session awaits. -/
inductive Control (Bytes : Type)
  | loginHashed (i : Nat)
  | send (union : MessageUnion Bytes)
  | readvertise (decoding : Bytes)
  | switchDisplay (index : Int)
  | voiceCallStart (now : Int)
  | voiceCallClose (now : Int)
  | voiceAudioFormat (sampleRate channels : Nat)
  | voiceAudioFrame (buffered : Nat) (data : Bytes)

/-- A command, a completion of what is awaited, a frame or the close of a transport, or the
watchdog. A promise that `connect` awaits rejects as `connectRejected` whichever it is. -/
inductive WorkerEvent (Bytes : Type)
  | connect (canvas : Bool)
  | disconnect
  | control (c : Control Bytes)
  | readyResolved
  | probeResolved (probe : Bytes)
  | idSocketOpened (constructed : Bool)
  | connectRejected
  | relaySocketOpened
  | relaySocketRejected
  | frame (i : Nat) (b : Bytes)
  | socketClosed (i : Nat)
  | timeout

namespace Worker
section
variable {Bytes : Type} (api : Api Bytes) (config : SessionConfig) (serverEdPk : Bytes)
  (entropy : Entropy Bytes)

def post (w : Worker Bytes) (state : SessionState) : Worker Bytes :=
  { w with posted := w.posted ++ [state] }

def clearConnectTimer (w : Worker Bytes) : Worker Bytes := { w with connectTimer := false }

def teardown (w : Worker Bytes) : Worker Bytes :=
  if w.tornDown then w
  else
    { w with
      tornDown := true
      connectTimer := false
      pipelines := (w.pipelines.release w.video).release w.audio
      video := none
      audio := none
      transports := (w.transports.release w.ws1).release w.ws2
      ws1 := none
      ws2 := none }

/-- The catch of `connect` and of `openRelay`, and the failures that the worker finds itself. -/
def fail (w : Worker Bytes) : Worker Bytes := (w.post .error).teardown

/-- A state in which the watchdog has nothing to watch. -/
def unwatched : SessionState → Bool
  | .needAccept | .streaming | .error | .closed => true
  | _ => false

/-- The sink `emit`, for a state event. -/
def emit (w : Worker Bytes) (state : SessionState) : Worker Bytes :=
  (if unwatched state then w.clearConnectTimer else w).post state

/-- A call on the session, with what its sinks do to the worker: `emit`, then `openRelay` up to
its await, then `closeAll`. -/
def call (w : Worker Bytes) (c : Call Bytes) : Worker Bytes :=
  match w.session with
  | none => w
  | some s =>
      let t := Lifecycle.call api config serverEdPk entropy s c
      let w := { w with session := some t }
      let w := ((s.emits api config serverEdPk c).map w.emit).getD w
      let w := { w with relays := w.relays + (t.opening - s.opening) }
      if t.tornDown then w.teardown else w

def handleConnect (w : Worker Bytes) (canvas : Bool) : Worker Bytes :=
  if w.connect ≠ .notStarted then w.post .error
  else { w.post .connecting with connect := .ready canvas }

def handleDisconnect (w : Worker Bytes) : Worker Bytes :=
  (w.call api config serverEdPk entropy .disconnect).teardown

def handleControl (w : Worker Bytes) : Control Bytes → Worker Bytes
  | .loginHashed i => w.call api config serverEdPk entropy (.loginHashed i)
  | .send union => w.call api config serverEdPk entropy (.send union)
  | .readvertise decoding =>
      if w.probe.isSome && w.video.isSome then
        w.call api config serverEdPk entropy (.setSupportedDecoding decoding)
      else w
  | .switchDisplay index => w.call api config serverEdPk entropy (.switchDisplay index)
  | .voiceCallStart now => w.call api config serverEdPk entropy (.startVoiceCall now)
  | .voiceCallClose now => w.call api config serverEdPk entropy (.closeVoiceCall now)
  | .voiceAudioFormat sampleRate channels =>
      w.call api config serverEdPk entropy (.sendVoiceAudioFormat sampleRate channels)
  | .voiceAudioFrame buffered data =>
      let buffered := if w.ws2.isSome then buffered else 0
      w.call api config serverEdPk entropy (.sendVoiceAudioFrame buffered data)

/-- `connect` after `ready`: without a canvas there is nothing to probe. -/
def readyResolved (w : Worker Bytes) : Worker Bytes :=
  match w.connect with
  | .ready true => { w with connect := .probe }
  | .ready false => { w with connect := .idSocket }
  | _ => w

/-- `connect` after `probeDecoding`, up to the socket of the id server. -/
def probeResolved (w : Worker Bytes) (probe : Bytes) : Worker Bytes :=
  if w.connect ≠ .probe then w
  else
    let video := w.pipelines.next
    let pipelines := w.pipelines.obtain .video
    let audio := pipelines.next
    { w with
      connect := .idSocket
      probe := some probe
      pipelines := pipelines.obtain .audio
      video := some video
      audio := some audio }

/-- The session that `connect` creates, started and watched. -/
def startSession (w : Worker Bytes) (decoding : Bytes) : Worker Bytes :=
  let w := { w with session := some { decoding, password := config.password } }
  let w := w.probe.elim w fun probe =>
    w.call api config serverEdPk entropy (.setSupportedDecoding probe)
  let w := w.call api config serverEdPk entropy .start
  if (w.session.map fun s => unwatched s.state).getD true then w else { w with connectTimer := true }

/-- `connect` after its last await. The constructor of a session throws on a key that is not
Base64. -/
def idSocketOpened (w : Worker Bytes) (decoding : Bytes) (constructed : Bool) : Worker Bytes :=
  if w.connect ≠ .idSocket then w
  else
    let ws1 := w.transports.next
    let w := { w with connect := .settled, transports := w.transports.obtain .id }
    if w.tornDown then { w with transports := w.transports.close ws1 }
    else
      let w := { w with ws1 := some ws1 }
      if constructed then w.startSession api config serverEdPk entropy decoding else w.fail

def connectRejected (w : Worker Bytes) : Worker Bytes :=
  match w.connect with
  | .notStarted | .settled => w
  | _ => { w with connect := .settled }.fail

/-- `openRelay` after its await. -/
def relaySocketOpened (w : Worker Bytes) : Worker Bytes :=
  if w.relays = 0 then w
  else
    let ws2 := w.transports.next
    let w := { w with relays := w.relays - 1, transports := w.transports.obtain .relay }
    if w.tornDown then { w with transports := w.transports.close ws2 }
    else { w with ws2 := some ws2 }.call api config serverEdPk entropy .relayOpened

def relaySocketRejected (w : Worker Bytes) : Worker Bytes :=
  if w.relays = 0 then w else { w with relays := w.relays - 1 }.fail

/-- A transport delivers a frame while it is open. -/
def onMessage (w : Worker Bytes) (i : Nat) (b : Bytes) : Worker Bytes :=
  match w.transports.opened? i with
  | some .id => w.call api config serverEdPk entropy (.signaling b)
  | some .relay => w.call api config serverEdPk entropy (.relay b)
  | none => w

/-- Once the relay is opened the id server closes its socket, which ends nothing. -/
def onIdSocketClosed (w : Worker Bytes) : Worker Bytes :=
  if w.tornDown then w
  else
    let st := w.session.map Session.state
    let w := if st = some .connecting ∨ st = some .rendezvous then w.fail else w
    { w with ws1 := none }

def onSocketClosed (w : Worker Bytes) : Worker Bytes :=
  if w.tornDown then w
  else
    let st := w.session.map Session.state
    (if st ≠ some .closed ∧ st ≠ some .error then w.post .error else w).teardown

/-- A transport that is open is closed from the other side. -/
def socketClosed (w : Worker Bytes) (i : Nat) : Worker Bytes :=
  let closed := { w with transports := w.transports.close i }
  match w.transports.opened? i with
  | some .id => closed.onIdSocketClosed
  | some .relay => closed.onSocketClosed
  | none => w

/-- The watchdog runs out. -/
def timeout (w : Worker Bytes) : Worker Bytes :=
  if ! w.connectTimer then w
  else
    let w := w.clearConnectTimer
    match w.session with
    | some s => if unwatched s.state then w else w.fail
    | none => w

def step (decoding : Bytes) (w : Worker Bytes) : WorkerEvent Bytes → Worker Bytes
  | .connect canvas => w.handleConnect canvas
  | .disconnect => w.handleDisconnect api config serverEdPk entropy
  | .control c => w.handleControl api config serverEdPk entropy c
  | .readyResolved => w.readyResolved
  | .probeResolved probe => w.probeResolved probe
  | .idSocketOpened constructed =>
      w.idSocketOpened api config serverEdPk entropy decoding constructed
  | .connectRejected => w.connectRejected
  | .relaySocketOpened => w.relaySocketOpened api config serverEdPk entropy
  | .relaySocketRejected => w.relaySocketRejected
  | .frame i b => w.onMessage api config serverEdPk entropy i b
  | .socketClosed i => w.socketClosed i
  | .timeout => w.timeout

end
end Worker
end WebClient
end CortenDesk
