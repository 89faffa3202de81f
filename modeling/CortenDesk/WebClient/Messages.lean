import Mathlib.Data.List.Infix

/-!
The data that crosses the web client's protocol core, and what the core calls outside
itself: libsodium, the generated protobuf codecs and the vendored hash. `Bytes` is the
type of byte strings. A case of a union that the session neither reads nor builds
keeps its encoded body.
-/
namespace CortenDesk
namespace WebClient

inductive SessionState
  | connecting
  | rendezvous
  | relay
  | handshake
  | login
  | streaming
  | error
  | closed
  | needAccept
  deriving DecidableEq, Repr

inductive ConnType
  | default
  | fileTransfer
  | viewCamera
  | terminal
  deriving DecidableEq, Repr

structure IdPk (Bytes : Type) where
  id : String
  pk : Bytes

structure TestDelay where
  time : Int
  fromClient : Bool
  lastDelay : Nat
  targetBitrate : Nat
  deriving DecidableEq

inductive LoginUnion
  | fileTransfer (dir : String) (showHidden : Bool)
  | viewCamera
  | terminal (serviceId : String)
  deriving DecidableEq

inductive LoginOption (Bytes : Type)
  | supportedDecoding (decoding : Bytes)
  | terminalPersistent (persistent : Bool)
  deriving DecidableEq

structure LoginRequest (Bytes : Type) where
  username : String
  password : Bytes
  myId : String
  myName : String
  sessionId : Nat
  version : String
  videoAckRequired : Bool := false
  option : Option (LoginOption Bytes) := none
  union : Option LoginUnion := none
  deriving DecidableEq

inductive LoginResponse (Bytes : Type)
  | error (text : String)
  | peerInfo (body : Bytes)
  deriving DecidableEq

inductive Misc (Bytes : Type)
  | chatMessage (text : String)
  | videoReceived (received : Bool)
  | switchDisplay (display : Int)
  | captureDisplays (set : List Int)
  | supportedDecoding (decoding : Bytes)
  | audioFormat (sampleRate channels : Nat)
  | closeReason (reason : String)
  | other (body : Bytes)
  deriving DecidableEq

inductive MessageUnion (Bytes : Type)
  | signedId (id : Bytes)
  | publicKey (asymmetricValue symmetricValue : Bytes)
  | testDelay (testDelay : TestDelay)
  | videoFrame (body : Bytes)
  | loginRequest (request : LoginRequest Bytes)
  | loginResponse (union : Option (LoginResponse Bytes))
  | hash (salt challenge : String)
  | audioFrame (data : Bytes)
  | misc (union : Option (Misc Bytes))
  | voiceCallRequest (isConnect : Bool) (reqTimestamp : Int)
  | voiceCallResponse (reqTimestamp : Int) (accepted : Bool)
  | peerInfo (body : Bytes)
  | other (body : Bytes)
  deriving DecidableEq

structure Message (Bytes : Type) where
  union : Option (MessageUnion Bytes)
  deriving DecidableEq

/-- The name of the case, as the protocol's schema spells it. -/
def MessageUnion.case {Bytes : Type} : MessageUnion Bytes → String
  | .signedId _ => "signed_id"
  | .publicKey _ _ => "public_key"
  | .testDelay _ => "test_delay"
  | .videoFrame _ => "video_frame"
  | .loginRequest _ => "login_request"
  | .loginResponse _ => "login_response"
  | .hash _ _ => "hash"
  | .audioFrame _ => "audio_frame"
  | .misc _ => "misc"
  | .voiceCallRequest _ _ => "voice_call_request"
  | .voiceCallResponse _ _ => "voice_call_response"
  | .peerInfo _ => "peer_info"
  | .other _ => "other"

inductive PunchHoleFailure
  | idNotExist
  | offline
  | licenseMismatch
  | licenseOveruse
  | unrecognized
  deriving DecidableEq, Repr

inductive RendezvousUnion (Bytes : Type)
  | relayResponse (uuid relayServer : String) (pk : Option Bytes)
  | punchHoleResponse (socketAddr : Bytes) (otherFailure : String) (failure : PunchHoleFailure)
  | onlineResponse (states : Bytes)
  | requestRelay (licenceKey id uuid : String) (connType : ConnType)
  | punchHoleRequest (id licenceKey version : String) (connType : ConnType)
  | other (body : Bytes)

structure Api (Bytes : Type) where
  length : Bytes → Nat
  empty : Bytes
  concat : Bytes → Bytes → Bytes
  utf8 : String → Bytes
  ofHex : String → Bytes
  sha256 : Bytes → Bytes
  cryptoSignOpen : Bytes → Bytes → Except String Bytes
  cryptoBoxEasy : Bytes → List UInt8 → Bytes → Bytes → Except String Bytes
  cryptoSecretboxEasy : Bytes → List UInt8 → Bytes → Bytes
  cryptoSecretboxOpenEasy : Bytes → List UInt8 → Bytes → Except String Bytes
  decodeIdPk : Bytes → Except String (IdPk Bytes)
  decodeMessage : Bytes → Except String (Message Bytes)
  encodeMessage : Message Bytes → Bytes
  decodeRendezvous : Bytes → Except String (Option (RendezvousUnion Bytes))
  encodeRendezvous : RendezvousUnion Bytes → Bytes

/-- Secretbox as the ideal it stands for: a box opens to what was sealed, under the key
and the nonce it was sealed with, and nothing else opens. -/
structure Api.IdealSecretbox {Bytes : Type} (api : Api Bytes) : Prop where
  opens : ∀ plain nonce key,
    api.cryptoSecretboxOpenEasy (api.cryptoSecretboxEasy plain nonce key) nonce key = .ok plain
  sealed : ∀ box nonce key plain,
    api.cryptoSecretboxOpenEasy box nonce key = .ok plain →
      box = api.cryptoSecretboxEasy plain nonce key
  nonce_eq : ∀ plain nonce key plain' nonce' key',
    api.cryptoSecretboxEasy plain nonce key = api.cryptoSecretboxEasy plain' nonce' key' →
      nonce = nonce' ∧ key = key'

/-- A frame of at most one byte decodes, if at all, to a message with no union: a tag
alone leaves no room for a member. -/
def Api.ShortFramesEmpty {Bytes : Type} (api : Api Bytes) : Prop :=
  ∀ frame message, api.length frame ≤ 1 → api.decodeMessage frame = .ok message →
    message.union = none

structure SessionConfig where
  peerId : String
  serverKeyB64 : String
  password : String
  myId : String
  myName : String
  savedHashHex : Option String := none
  connType : ConnType := .default
  terminalServiceId : Option String := none
  terminalPersistent : Option Bool := none

end WebClient
end CortenDesk
