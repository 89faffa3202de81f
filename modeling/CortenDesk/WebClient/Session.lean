import CortenDesk.Lib.Runs
import CortenDesk.WebClient.Messages
import Mathlib.Algebra.Group.Nat.Defs

/-!
The session of the web client and the worker that hosts it. The sinks are the logs the
session leaves: what it sent in the clear, what it sealed, what it dispatched. Events
that only reach the user interface are not recorded.
-/
namespace CortenDesk
namespace WebClient

def clientVersion : String := "1.4.0"

def videoAckRequired : Bool := true

def voiceRelayBufferLimit : Nat := 128 * 1024

/-- The sequence number as a little-endian 64-bit integer, and sixteen zero bytes. -/
def buildNonce (seq : Nat) : List UInt8 :=
  (List.range 8).map (fun i => UInt8.ofNat (seq / 256 ^ i)) ++ List.replicate 16 0

def zeroNonce24 : List UInt8 := List.replicate 24 0

structure StreamCipher (Bytes : Type) where
  key : Bytes
  sendSeq : Nat := 0
  recvSeq : Nat := 0

/-- A message the stream cipher has sealed, and the frame it went out in. -/
structure Sealed (Bytes : Type) where
  plain : Bytes
  frame : Bytes

/-- A message handed to `dispatch`, and the frame it came in. -/
structure Dispatch (Bytes : Type) where
  frame : Bytes
  message : Message Bytes

/-- What the session draws at random. Keys are drawn when the cipher is installed, which
happens once. -/
structure Entropy (Bytes : Type) where
  sessionId : Nat
  key : Bytes
  boxPublicKey : Bytes
  boxPrivateKey : Bytes

structure Session (Bytes : Type) where
  state : SessionState := .connecting
  detail : Option String := none
  cipher : Option (StreamCipher Bytes) := none
  peerEdPk : Option Bytes := none
  uuid : String := ""
  decoding : Bytes
  password : String
  loginSent : Bool := false
  pendingLogins : List Bytes := []
  pendingDisplay : Option Int := none
  pendingVoiceCallTimestamp : Option Int := none
  voiceCallAccepted : Bool := false
  opening : Nat := 0
  tornDown : Bool := false
  sentPlain : List Bytes := []
  sealedOut : List (Sealed Bytes) := []
  dispatched : List (Dispatch Bytes) := []

section Cipher
variable {Bytes : Type} (api : Api Bytes)

namespace StreamCipher

def «seal» (cipher : StreamCipher Bytes) (plain : Bytes) : StreamCipher Bytes × Bytes :=
  ({ cipher with sendSeq := cipher.sendSeq + 1 },
    api.cryptoSecretboxEasy plain (buildNonce (cipher.sendSeq + 1)) cipher.key)

def «open» (cipher : StreamCipher Bytes) (frame : Bytes) :
    StreamCipher Bytes × Except String Bytes :=
  if api.length frame ≤ 1 then (cipher, .ok frame)
  else
    ({ cipher with recvSeq := cipher.recvSeq + 1 },
      api.cryptoSecretboxOpenEasy frame (buildNonce (cipher.recvSeq + 1)) cipher.key)

end StreamCipher

def decodeIdPk (signed edPk : Bytes) : Except String (IdPk Bytes) := do
  api.decodeIdPk (← api.cryptoSignOpen signed edPk)

/-- The relay response carries the peer's identity and key, signed by the server. -/
def verifyServerRelayPk (rrPk serverEdPk : Bytes) (expectPeerId : String) :
    Except String Bytes := do
  let idPk ← decodeIdPk api rrPk serverEdPk
  if idPk.id ≠ expectPeerId then
    .error ("server-signed peer id mismatch: expected \"" ++ expectPeerId ++ "\", got \"" ++
      idPk.id ++ "\"")
  else
    .ok idPk.pk

/-- The signed id carries the peer's identity and box key, signed by the peer. -/
def verifyPeerSignedId (signedId peerEdPk : Bytes) : Except String (IdPk Bytes) :=
  decodeIdPk api signedId peerEdPk

def sealSymmetricKey (entropy : Entropy Bytes) (theirBoxPk : Bytes) : Except String Bytes :=
  api.cryptoBoxEasy entropy.key zeroNonce24 theirBoxPk entropy.boxPrivateKey

def buildPublicKeyMessage (entropy : Entropy Bytes) (peerBoxPk : Bytes) :
    Except String Bytes := do
  let sealed ← sealSymmetricKey api entropy peerBoxPk
  return api.encodeMessage ⟨some (.publicKey entropy.boxPublicKey sealed)⟩

def computeLoginH1 (password salt : String) : Bytes :=
  api.sha256 (api.concat (api.utf8 password) (api.utf8 salt))

def loginHashFromH1 (h1 : Bytes) (challenge : String) : Bytes :=
  api.sha256 (api.concat h1 (api.utf8 challenge))

def buildRequestRelay (config : SessionConfig) (uuid : String) : Bytes :=
  api.encodeRendezvous (.requestRelay config.serverKeyB64 config.peerId uuid config.connType)

end Cipher

/-- The part of an id before its first NUL. -/
def beforeNul (id : String) : String :=
  String.ofList (id.toList.takeWhile fun c => c ≠ Char.ofNat 0)

def isManualAccept (error : String) : Bool :=
  let e := error.toList.map Char.toLower
  "wait".toList <:+: e && "accept".toList <:+: e

inductive RendezvousParsed (Bytes : Type)
  | relayResponse (uuid relayServer : String) (pk : Option Bytes)
  | punchHoleResponse (failure : Option String)
  | onlineResponse (states : Bytes)
  | other

def mapFailure : PunchHoleFailure → String
  | .idNotExist => "ID_NOT_EXIST"
  | .offline => "OFFLINE"
  | .licenseMismatch => "LICENSE_MISMATCH"
  | .licenseOveruse => "LICENSE_OVERUSE"
  | .unrecognized => "OTHER"

namespace Session
section
variable {Bytes : Type} (api : Api Bytes) (config : SessionConfig) (serverEdPk : Bytes)
  (entropy : Entropy Bytes)

def parseRendezvous (bytes : Bytes) : Except String (RendezvousParsed Bytes) := do
  match ← api.decodeRendezvous bytes with
  | some (.relayResponse uuid relayServer pk) => return .relayResponse uuid relayServer pk
  | some (.punchHoleResponse socketAddr otherFailure failure) =>
      if api.length socketAddr > 0 then return .punchHoleResponse none
      else if otherFailure ≠ "" then return .punchHoleResponse (some "OTHER")
      else return .punchHoleResponse (some (mapFailure failure))
  | some (.onlineResponse states) => return .onlineResponse states
  | _ => return .other

def dead (s : Session Bytes) : Prop := s.state = .error ∨ s.state = .closed

instance (s : Session Bytes) : Decidable s.dead :=
  inferInstanceAs (Decidable (_ ∨ _))

def setState (s : Session Bytes) (state : SessionState) (detail : Option String := none) :
    Session Bytes :=
  if state = .closed ∨ state = .error then
    { s with
      state, detail, pendingVoiceCallTimestamp := none, voiceCallAccepted := false }
  else
    { s with state, detail }

/-- The sink `closeAll` is the worker's `teardown`. -/
def closeAll (s : Session Bytes) : Session Bytes := { s with tornDown := true }

def fail (s : Session Bytes) (detail : String) : Session Bytes :=
  (s.setState .error (some detail)).closeAll

def sealSend (s : Session Bytes) (bytes : Bytes) : Session Bytes :=
  match s.cipher with
  | none => s
  | some cipher =>
      let (cipher, frame) := cipher.seal api bytes
      { s with cipher := some cipher, sealedOut := s.sealedOut ++ [⟨bytes, frame⟩] }

def sendMessage (s : Session Bytes) (union : MessageUnion Bytes) : Session Bytes :=
  match s.cipher with
  | none => s
  | some _ => s.sealSend api (api.encodeMessage ⟨some union⟩)

def sendMisc (s : Session Bytes) (union : Misc Bytes) : Session Bytes :=
  s.sendMessage api (.misc (some union))

def trust (s : Session Bytes) (peerEdPk : Bytes) (uuid : String) : Session Bytes :=
  { s with peerEdPk := some peerEdPk, uuid }

/-- The sink `openRelay`: the worker awaits a socket to the relay. -/
def awaitRelay (s : Session Bytes) : Session Bytes := { s with opening := s.opening + 1 }

def onSignalingBytes (s : Session Bytes) (b : Bytes) : Session Bytes :=
  if s.dead then s
  else
    match parseRendezvous api b with
    | .error _ => s.fail "malformed rendezvous message"
    | .ok (.relayResponse _ _ none) => s.fail "relay response missing server-signed pk"
    | .ok (.relayResponse uuid _ (some pk)) =>
        if api.length pk = 0 then s.fail "relay response missing server-signed pk"
        else
          match verifyServerRelayPk api pk serverEdPk config.peerId with
          | .error e => s.fail ("server trust link failed: " ++ e)
          | .ok peerEdPk =>
              ((s.trust peerEdPk uuid).setState .relay).awaitRelay
    | .ok (.punchHoleResponse (some failure)) => s.fail ("punch hole failed: " ++ failure)
    | .ok _ => s

def relayOpened (s : Session Bytes) : Session Bytes :=
  { s with sentPlain := s.sentPlain ++ [buildRequestRelay api config s.uuid] }.setState .handshake

/-- The worker's `openRelay`, once the socket it awaited is open. -/
def openRelay (s : Session Bytes) : Session Bytes :=
  if s.opening = 0 then s
  else
    let s := { s with opening := s.opening - 1 }
    if s.tornDown then s else s.relayOpened api config

/-- A bad key makes the box call throw: the frame is lost and nothing is installed. -/
def installCipher (s : Session Bytes) (boxPk : Bytes) : Session Bytes :=
  match buildPublicKeyMessage api entropy boxPk with
  | .error _ => s
  | .ok bytes =>
      { s with sentPlain := s.sentPlain ++ [bytes], cipher := some ⟨entropy.key, 0, 0⟩ }

def onFirstRelayFrame (s : Session Bytes) (b : Bytes) : Session Bytes :=
  match api.decodeMessage b with
  | .error _ => s.fail "malformed handshake message"
  | .ok ⟨none⟩ => s.fail "expected signed_id, got empty message"
  | .ok ⟨some (.signedId signed)⟩ =>
      match s.peerEdPk with
      | none => s.fail "signed_id before relay response"
      | some peerEdPk =>
          match verifyPeerSignedId api signed peerEdPk with
          | .error _ => s.fail "peer trust link failed: bad SignedId signature"
          | .ok idPk =>
              if beforeNul idPk.id ≠ config.peerId then
                s.fail ("peer id mismatch in SignedId: got \"" ++ idPk.id ++ "\"")
              else s.installCipher api entropy idPk.pk
  | .ok ⟨some union⟩ => s.fail ("expected signed_id, got " ++ union.case)

def buildLoginRequest (s : Session Bytes) (passwordHash : Bytes) : Bytes :=
  let base : LoginRequest Bytes :=
    { username := config.peerId, password := passwordHash, myId := config.myId
      myName := config.myName, sessionId := entropy.sessionId, version := clientVersion }
  let request : LoginRequest Bytes :=
    match config.connType with
    | .fileTransfer => { base with union := some (.fileTransfer "" false) }
    | .terminal =>
        { base with
          union := some (.terminal (config.terminalServiceId.getD ""))
          option := some (.terminalPersistent (config.terminalPersistent.getD false)) }
    | .viewCamera =>
        { base with
          videoAckRequired := WebClient.videoAckRequired
          option := some (.supportedDecoding s.decoding), union := some .viewCamera }
    | .default =>
        { base with
          videoAckRequired := WebClient.videoAckRequired
          option := some (.supportedDecoding s.decoding) }
  api.encodeMessage ⟨some (.loginRequest request)⟩

def sendLogin (s : Session Bytes) (passwordHash : Bytes) : Session Bytes :=
  { s with loginSent := true }.sealSend api (s.buildLoginRequest api config entropy passwordHash)

/-- The hash of a password is awaited, and other frames can come in before it is there;
an empty password has nothing to await. -/
def dispatchHash (s : Session Bytes) (salt challenge : String) : Session Bytes :=
  let plaintextPassword := s.password
  let s := { s.setState .login with password := "" }
  match config.savedHashHex.filter (· ≠ "") with
  | some hex =>
      let passwordHash := loginHashFromH1 api (api.ofHex hex) challenge
      { s with pendingLogins := s.pendingLogins ++ [passwordHash] }
  | none =>
      if plaintextPassword ≠ "" then
        let h1 := computeLoginH1 api plaintextPassword salt
        { s with pendingLogins := s.pendingLogins ++ [loginHashFromH1 api h1 challenge] }
      else s.sendLogin api config entropy api.empty

/-- The continuation of one awaited hash. -/
def loginHashed (s : Session Bytes) (i : Nat) : Session Bytes :=
  match s.pendingLogins[i]? with
  | none => s
  | some passwordHash =>
      { s with pendingLogins := s.pendingLogins.eraseIdx i }.sendLogin
        api config entropy passwordHash

def dispatchMisc (s : Session Bytes) : Option (Misc Bytes) → Session Bytes
  | some (.closeReason reason) => (s.setState .closed (some reason)).closeAll
  | some (.switchDisplay display) =>
      match s.pendingDisplay with
      | some pending => if display ≠ pending then s else { s with pendingDisplay := none }
      | none => s
  | _ => s

def dispatchLoginResponse (s : Session Bytes) : Option (LoginResponse Bytes) → Session Bytes
  | some (.error error) =>
      if isManualAccept error then s.setState .needAccept (some error) else s
  | some (.peerInfo _) => s.setState .streaming
  | none => s

def dispatchVoiceCallRequest (s : Session Bytes) (isConnect : Bool) : Session Bytes :=
  if ! isConnect && (s.pendingVoiceCallTimestamp.isSome || s.voiceCallAccepted) then
    { s with pendingVoiceCallTimestamp := none, voiceCallAccepted := false }
  else s

def dispatchVoiceCallResponse (s : Session Bytes) (reqTimestamp : Int) (accepted : Bool) :
    Session Bytes :=
  let answered := { s with pendingVoiceCallTimestamp := none }
  match s.pendingVoiceCallTimestamp with
  | none => answered
  | some pending =>
      if reqTimestamp ≠ pending then answered else { answered with voiceCallAccepted := accepted }

def handleUnion (s : Session Bytes) : Option (MessageUnion Bytes) → Session Bytes
  | some (.testDelay testDelay) =>
      if testDelay.fromClient then s
      else s.sealSend api (api.encodeMessage ⟨some (.testDelay testDelay)⟩)
  | some (.hash salt challenge) => s.dispatchHash api config entropy salt challenge
  | some (.loginResponse union) => s.dispatchLoginResponse union
  | some (.videoFrame _) =>
      if WebClient.videoAckRequired then s.sendMisc api (.videoReceived true) else s
  | some (.misc union) => s.dispatchMisc union
  | some (.voiceCallRequest isConnect _) => s.dispatchVoiceCallRequest isConnect
  | some (.voiceCallResponse reqTimestamp accepted) =>
      s.dispatchVoiceCallResponse reqTimestamp accepted
  -- The remaining cases go to the user interface or are ignored.
  | _ => s

def record (s : Session Bytes) (frame : Bytes) (message : Message Bytes) : Session Bytes :=
  { s with dispatched := s.dispatched ++ [⟨frame, message⟩] }

def dispatch (s : Session Bytes) (frame : Bytes) (message : Message Bytes) : Session Bytes :=
  (s.record frame message).handleUnion api config entropy message.union

def onRelayBytes (s : Session Bytes) (b : Bytes) : Session Bytes :=
  if s.dead then s
  else
    match s.cipher with
    | none => s.onFirstRelayFrame api config entropy b
    | some cipher =>
        let (cipher, opened) := cipher.open api b
        let s := { s with cipher := some cipher }
        match opened with
        | .error _ => s.fail "decrypt failed"
        | .ok plain =>
            match api.decodeMessage plain with
            | .error _ => s.fail "malformed message"
            | .ok message => s.dispatch api config entropy b message

def setSupportedDecoding (s : Session Bytes) (decoding : Bytes) : Session Bytes :=
  let s := { s with decoding }
  if s.loginSent then s.sendMisc api (.supportedDecoding decoding) else s

def switchDisplay (s : Session Bytes) (index : Int) : Session Bytes :=
  ({ s with pendingDisplay := some index }.sendMisc api (.switchDisplay index)).sendMisc
    api (.captureDisplays [index])

def sendChat (s : Session Bytes) (text : String) : Session Bytes :=
  s.sendMisc api (.chatMessage text)

def startVoiceCall (s : Session Bytes) (now : Int) : Session Bytes :=
  if s.pendingVoiceCallTimestamp.isSome then s
  else
    let reqTimestamp := max 1 now
    { s with pendingVoiceCallTimestamp := some reqTimestamp }.sendMessage
      api (.voiceCallRequest true reqTimestamp)

def closeVoiceCall (s : Session Bytes) (now : Int) : Session Bytes :=
  { s with pendingVoiceCallTimestamp := none, voiceCallAccepted := false }.sendMessage
    api (.voiceCallRequest false (max 1 now))

def sendVoiceAudioFormat (s : Session Bytes) (sampleRate channels : Nat) : Session Bytes :=
  if ! s.voiceCallAccepted then s else s.sendMisc api (.audioFormat sampleRate channels)

def sendVoiceAudioFrame (s : Session Bytes) (relayBuffered : Nat) (data : Bytes) :
    Session Bytes :=
  if ! s.voiceCallAccepted then s
  else if relayBuffered ≥ voiceRelayBufferLimit then s
  else s.sendMessage api (.audioFrame data)

def disconnect (s : Session Bytes) : Session Bytes :=
  (if s.state ≠ .closed then s.setState .closed else s).closeAll

/-- A session that has just sent its punch hole request. -/
def start (decoding : Bytes) : Session Bytes :=
  ({ decoding, password := config.password } : Session Bytes).setState .rendezvous

end
end Session
end WebClient
end CortenDesk
