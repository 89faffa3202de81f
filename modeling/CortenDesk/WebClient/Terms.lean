import CortenDesk.WebClient.Messages

/-!
A term model of the calls the session makes: a byte string records how it was made, so
that the laws of the ideal secretbox hold by construction and runs can be evaluated.
-/
namespace CortenDesk
namespace WebClient

inductive Blob
  | octets (bytes : List UInt8)
  | pair (left right : Blob)
  | digest (of : Blob)
  | edPk (holder : Nat)
  | idPk (id : String) (pk : Blob)
  | signed (holder : Nat) (message : Blob)
  | box (plain : Blob) (nonce : List UInt8) (pk sk : Blob)
  | secretbox (plain : Blob) (nonce : List UInt8) (key : Blob)
  | signedIdMessage (id : Blob)
  | publicKeyMessage (asymmetricValue symmetricValue : Blob)
  | chatMessage (text : String)
  | relayResponse (uuid relayServer : String) (pk : Blob)
  deriving DecidableEq

namespace Blob

def api : Api Blob where
  length
    | .octets bytes => bytes.length
    | _ => 64
  empty := .octets []
  concat := .pair
  utf8 text := .octets text.toUTF8.toList
  ofHex _ := .octets []
  sha256 := .digest
  cryptoSignOpen
    | .signed holder message, .edPk holder' =>
        if holder = holder' then .ok message
        else .error "incorrect signature for the given public key"
    | _, _ => .error "incorrect signature for the given public key"
  cryptoBoxEasy plain nonce pk sk := .ok (.box plain nonce pk sk)
  cryptoSecretboxEasy := .secretbox
  cryptoSecretboxOpenEasy
    | .secretbox plain nonce key, nonce', key' =>
        if nonce = nonce' ∧ key = key' then .ok plain
        else .error "wrong secret key for the given ciphertext"
    | _, _, _ => .error "wrong secret key for the given ciphertext"
  decodeIdPk
    | .idPk id pk => .ok ⟨id, pk⟩
    | _ => .error "premature EOF"
  decodeMessage
    | .signedIdMessage id => .ok ⟨some (.signedId id)⟩
    | .publicKeyMessage asymmetricValue symmetricValue =>
        .ok ⟨some (.publicKey asymmetricValue symmetricValue)⟩
    | .chatMessage text => .ok ⟨some (.misc (some (.chatMessage text)))⟩
    | .octets [] => .ok ⟨none⟩
    | _ => .error "premature EOF"
  encodeMessage
    | ⟨some (.signedId id)⟩ => .signedIdMessage id
    | ⟨some (.publicKey asymmetricValue symmetricValue)⟩ =>
        .publicKeyMessage asymmetricValue symmetricValue
    | ⟨some (.misc (some (.chatMessage text)))⟩ => .chatMessage text
    | _ => .octets []
  decodeRendezvous
    | .relayResponse uuid relayServer pk => .ok (some (.relayResponse uuid relayServer (some pk)))
    | _ => .error "premature EOF"
  encodeRendezvous _ := .octets []

theorem api_ideal : api.IdealSecretbox where
  opens plain nonce key := by simp [api]
  sealed box nonce key plain h := by
    simp only [api] at h ⊢
    split at h
    · split at h
      · next same =>
        obtain ⟨rfl, rfl⟩ := same
        rw [Except.ok.inj h]
      · cases h
    · cases h
  nonce_eq plain nonce key plain' nonce' key' h := by
    injection h with _ nonces keys
    exact ⟨nonces, keys⟩

theorem api_short : api.ShortFramesEmpty := by
  intro frame message short decoded
  cases frame with
  | octets bytes =>
      cases bytes with
      | nil => cases decoded; rfl
      | cons byte bytes => cases decoded
  | _ => exact absurd short (by simp [api])

end Blob
end WebClient
end CortenDesk
