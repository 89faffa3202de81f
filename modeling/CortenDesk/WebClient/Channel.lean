import CortenDesk.WebClient.Session

/-!
The channel between a session and the peer it authenticated, over a relay that controls
every frame. The relay may deliver anything; the ideal cipher only keeps it from
delivering a box under the session's key that neither holder has sealed. What one event
does to the session is described once, and the invariants are read off that description.
-/
namespace CortenDesk
namespace WebClient

structure World (Bytes : Type) where
  session : Session Bytes
  peerSealed : List (Sealed Bytes) := []

/-- Every outbound control that only builds a message is `send`. -/
inductive ChannelEvent (Bytes : Type)
  | signaling (b : Bytes)
  | relaySocketOpened
  | relay (b : Bytes)
  | peerSeals (plain : Bytes)
  | loginHashed (i : Nat)
  | send (union : MessageUnion Bytes)
  | setSupportedDecoding (decoding : Bytes)
  | switchDisplay (index : Int)
  | startVoiceCall (now : Int)
  | closeVoiceCall (now : Int)
  | sendVoiceAudioFormat (sampleRate channels : Nat)
  | sendVoiceAudioFrame (relayBuffered : Nat) (data : Bytes)
  | disconnect
  | teardown

namespace Channel
section
variable {Bytes : Type} (api : Api Bytes) (config : SessionConfig) (serverEdPk : Bytes)
  (entropy : Entropy Bytes)

/-- The peer seals as the session does, under the key it was sent and with a counter of
its own. -/
def peerSeals (w : World Bytes) (plain : Bytes) : World Bytes :=
  match w.session.cipher with
  | none => w
  | some cipher =>
      let (_, frame) := StreamCipher.seal api ⟨cipher.key, w.peerSealed.length, 0⟩ plain
      { w with peerSealed := w.peerSealed ++ [⟨plain, frame⟩] }

def sessionStep (s : Session Bytes) : ChannelEvent Bytes → Session Bytes
  | .signaling b => s.onSignalingBytes api config serverEdPk b
  | .relaySocketOpened => s.openRelay api config
  | .relay b => s.onRelayBytes api config entropy b
  | .peerSeals _ => s
  | .loginHashed i => s.loginHashed api config entropy i
  | .send union => s.sendMessage api union
  | .setSupportedDecoding decoding => s.setSupportedDecoding api decoding
  | .switchDisplay index => s.switchDisplay api index
  | .startVoiceCall now => s.startVoiceCall api now
  | .closeVoiceCall now => s.closeVoiceCall api now
  | .sendVoiceAudioFormat sampleRate channels => s.sendVoiceAudioFormat api sampleRate channels
  | .sendVoiceAudioFrame buffered data => s.sendVoiceAudioFrame api buffered data
  | .disconnect => s.disconnect
  | .teardown => s.closeAll

def step (w : World Bytes) : ChannelEvent Bytes → World Bytes
  | .peerSeals plain => peerSeals api w plain
  | event => { w with session := sessionStep api config serverEdPk entropy w.session event }

def start (decoding : Bytes) : World Bytes := ⟨Session.start config decoding, []⟩

/-- The messages dispatched, without the frames of at most one byte that decode to no
union. -/
def sequence (s : Session Bytes) : List (Dispatch Bytes) :=
  s.dispatched.filter fun d => ! (decide (api.length d.frame ≤ 1) && d.message.union.isNone)

/-- The frames that a delivered box may be: what the peer sealed and, where the relay
reflects, what the client sealed itself. -/
def sources (reflects : Bool) (w : World Bytes) : List (Sealed Bytes) :=
  if reflects then w.session.sealedOut ++ w.peerSealed else w.peerSealed

/-- A delivered frame that is a box under the session's key is one of its sources. -/
def Delivers (reflects : Bool) (w : World Bytes) (event : ChannelEvent Bytes) : Prop :=
  ∀ b cipher plain nonce, event = .relay b → w.session.cipher = some cipher →
    b = api.cryptoSecretboxEasy plain nonce cipher.key →
      ∃ sealed ∈ sources reflects w, sealed.frame = b

/-- Both trust links are verified at some point of the run, and until then nothing is
sealed or dispatched. -/
def TrustFirst (decoding : Bytes) (events : List (ChannelEvent Bytes)) : Prop :=
  ∃ before b between f rest uuid relayServer pk key signed idPk,
    events = (before ++ .signaling b :: between) ++ .relay f :: rest ∧
    Session.parseRendezvous api b = .ok (.relayResponse uuid relayServer (some pk)) ∧
    verifyServerRelayPk api pk serverEdPk config.peerId = .ok key ∧
    api.decodeMessage f = .ok ⟨some (.signedId signed)⟩ ∧
    verifyPeerSignedId api signed key = .ok idPk ∧
    beforeNul idPk.id = config.peerId ∧
    let reached := Runs.run (step api config serverEdPk entropy) (start config decoding)
      ((before ++ .signaling b :: between) ++ [.relay f])
    reached.session.sealedOut = [] ∧ reached.session.dispatched = []

/-- The `i`-th message of a log went out under the nonce of `i + 1`. -/
def Numbered (key : Bytes) (log : List (Sealed Bytes)) : Prop :=
  ∀ (i : Nat) (sealed : Sealed Bytes), log[i]? = some sealed →
    sealed.frame = api.cryptoSecretboxEasy sealed.plain (buildNonce (i + 1)) key

structure SealsInOrder (s : Session Bytes) : Prop where
  counted : ∀ cipher, s.cipher = some cipher → cipher.sendSeq = s.sealedOut.length
  numbered : ∀ cipher, s.cipher = some cipher → Numbered api cipher.key s.sealedOut

theorem Numbered.concat {api : Api Bytes} {key : Bytes} {log : List (Sealed Bytes)}
    (h : Numbered api key log) (plain : Bytes) :
    Numbered api key (log ++
      [⟨plain, api.cryptoSecretboxEasy plain (buildNonce (log.length + 1)) key⟩]) := by
  intro i sealed hi
  rcases Nat.lt_or_ge i log.length with old | new
  · rw [List.getElem?_append_left old] at hi
    exact h i sealed hi
  · rw [List.getElem?_append_right new, List.getElem?_singleton] at hi
    split at hi
    · next last =>
      obtain rfl := Option.some.inj hi
      rw [show i = log.length by omega]
    · cases hi

/-- What sealing messages, changing the user-facing fields and failing have in common. -/
structure Replies (s t : Session Bytes) : Prop where
  dispatched : t.dispatched = s.dispatched
  peerEdPk : t.peerEdPk = s.peerEdPk
  opened : t.cipher.map (fun c => (c.key, c.recvSeq)) = s.cipher.map fun c => (c.key, c.recvSeq)
  inOrder : SealsInOrder api s → SealsInOrder api t
  silent : s.cipher = none → t.sealedOut = s.sealedOut
  kept : s.sealedOut ⊆ t.sealedOut
  torn : (s.dead → s.tornDown = true) → t.dead → t.tornDown = true
  stays : s.dead → t.dead

namespace Replies
variable {api : Api Bytes} {s t u : Session Bytes}

theorem trans (h : Replies api s t) (h' : Replies api t u) : Replies api s u where
  dispatched := h'.dispatched.trans h.dispatched
  peerEdPk := h'.peerEdPk.trans h.peerEdPk
  opened := h'.opened.trans h.opened
  inOrder := h'.inOrder ∘ h.inOrder
  silent unkeyed := by
    have still : t.cipher = none := by simpa [unkeyed] using h.opened
    rw [h'.silent still, h.silent unkeyed]
  kept := List.Subset.trans h.kept h'.kept
  torn := h'.torn ∘ h.torn
  stays := h'.stays ∘ h.stays

/-- A change of the other fields, or of the state to one that is not final. -/
theorem inert (dispatched : t.dispatched = s.dispatched) (peerEdPk : t.peerEdPk = s.peerEdPk)
    (cipher : t.cipher = s.cipher) (sealedOut : t.sealedOut = s.sealedOut)
    (torn : (s.dead → s.tornDown = true) → t.dead → t.tornDown = true)
    (stays : s.dead → t.dead) : Replies api s t where
  dispatched := dispatched
  peerEdPk := peerEdPk
  opened := by rw [cipher]
  inOrder h := ⟨by rw [cipher, sealedOut]; exact h.counted,
    by rw [cipher, sealedOut]; exact h.numbered⟩
  silent _ := sealedOut
  kept := by rw [sealedOut]; exact List.Subset.refl _
  torn := torn
  stays := stays

theorem refl (s : Session Bytes) : Replies api s s := inert rfl rfl rfl rfl id id

theorem unkeyed_iff (h : Replies api s t) : t.cipher = none ↔ s.cipher = none := by
  constructor <;> intro hc
  · simpa [hc] using h.opened.symm
  · simpa [hc] using h.opened

/-- What follows a change of the other fields alone. -/
theorem after (h : Replies api t u) (dispatched : t.dispatched = s.dispatched)
    (peerEdPk : t.peerEdPk = s.peerEdPk) (cipher : t.cipher = s.cipher)
    (sealedOut : t.sealedOut = s.sealedOut) (state : t.state = s.state)
    (tornDown : t.tornDown = s.tornDown) : Replies api s u := by
  refine trans (inert dispatched peerEdPk cipher sealedOut ?_ ?_) h
  · rw [Session.dead, Session.dead, state, tornDown]
    exact id
  · rw [Session.dead, Session.dead, state]
    exact id

end Replies


theorem setState_dead {s : Session Bytes} {state : SessionState} {detail : Option String}
    (live : state ≠ .error ∧ state ≠ .closed) : ¬ (s.setState state detail).dead := by
  simp only [Session.setState, Session.dead]
  split <;> simp [live]

theorem setState_replies {s : Session Bytes} (alive : ¬ s.dead) {state : SessionState}
    (detail : Option String) (live : state ≠ .error ∧ state ≠ .closed) :
    Replies api s (s.setState state detail) := by
  have still : ¬ (s.setState state detail).dead := setState_dead live
  refine .inert ?_ ?_ ?_ ?_ (fun _ h => absurd h still) (fun h => absurd h alive) <;>
    simp only [Session.setState] <;> split <;> rfl

/-- Ending a session tears the worker down with it. -/
theorem closed_replies {s : Session Bytes} {state : SessionState} (detail : Option String)
    (final : state = .error ∨ state = .closed) :
    Replies api s (s.setState state detail).closeAll := by
  refine .inert ?_ ?_ ?_ ?_ (fun _ _ => rfl) (fun _ => ?_) <;>
    simp only [Session.setState, Session.closeAll, Session.dead] <;> split <;>
    first | rfl | exact final

theorem fail_replies (s : Session Bytes) (detail : String) :
    Replies api s (s.fail detail) :=
  closed_replies api (some detail) (.inl rfl)

theorem sealSend_replies (s : Session Bytes) (bytes : Bytes) :
    Replies api s (s.sealSend api bytes) := by
  cases h : s.cipher with
  | none =>
      simp only [Session.sealSend, h]
      exact .refl s
  | some cipher =>
      simp only [Session.sealSend, h, StreamCipher.seal]
      exact {
        dispatched := rfl
        peerEdPk := rfl
        opened := by simp [h]
        inOrder := by
          intro ordered
          have counted := ordered.counted cipher h
          refine ⟨fun _ hc => ?_, fun _ hc => ?_⟩ <;> obtain rfl := Option.some.inj hc
          · simp [counted]
          · rw [counted]
            exact (ordered.numbered cipher h).concat bytes
        silent := by simp [h]
        kept := List.subset_append_left _ _
        torn := id
        stays := id }

theorem sendMessage_replies (s : Session Bytes) (union : MessageUnion Bytes) :
    Replies api s (s.sendMessage api union) := by
  simp only [Session.sendMessage]
  split
  · exact .refl s
  · exact sealSend_replies api s _

theorem sendMisc_replies (s : Session Bytes) (union : Misc Bytes) :
    Replies api s (s.sendMisc api union) :=
  sendMessage_replies api s _

theorem sendLogin_replies (s : Session Bytes) (passwordHash : Bytes) :
    Replies api s (s.sendLogin api config entropy passwordHash) :=
  (sealSend_replies api _ _).after rfl rfl rfl rfl rfl rfl

theorem dispatchHash_replies {s : Session Bytes} (alive : ¬ s.dead) (salt challenge : String) :
    Replies api s (s.dispatchHash api config entropy salt challenge) := by
  have login : Replies api s { s.setState .login with password := "" } :=
    (setState_replies api alive none (by simp)).trans (.inert rfl rfl rfl rfl id id)
  simp only [Session.dispatchHash]
  split
  · exact login.trans (.inert rfl rfl rfl rfl id id)
  · split
    · exact login.trans (.inert rfl rfl rfl rfl id id)
    · exact login.trans (sendLogin_replies api config entropy _ _)

theorem dispatchMisc_replies (s : Session Bytes) (union : Option (Misc Bytes)) :
    Replies api s (s.dispatchMisc union) := by
  simp only [Session.dispatchMisc]
  split
  · exact closed_replies api _ (.inr rfl)
  · split
    · split
      · exact .refl s
      · exact .inert rfl rfl rfl rfl id id
    · exact .refl s
  · exact .refl s

theorem dispatchLoginResponse_replies {s : Session Bytes} (alive : ¬ s.dead)
    (union : Option (LoginResponse Bytes)) :
    Replies api s (s.dispatchLoginResponse union) := by
  simp only [Session.dispatchLoginResponse]
  split
  · split
    · exact setState_replies api alive _ (by simp)
    · exact .refl s
  · exact setState_replies api alive _ (by simp)
  · exact .refl s

theorem handleUnion_replies {s : Session Bytes} (alive : ¬ s.dead)
    (union : Option (MessageUnion Bytes)) :
    Replies api s (s.handleUnion api config entropy union) := by
  simp only [Session.handleUnion]
  split
  · split
    · exact .refl s
    · exact sealSend_replies api s _
  · exact dispatchHash_replies api config entropy alive _ _
  · exact dispatchLoginResponse_replies api alive _
  · split
    · exact sendMisc_replies api s _
    · exact .refl s
  · exact dispatchMisc_replies api s _
  · simp only [Session.dispatchVoiceCallRequest]
    split
    · exact .inert rfl rfl rfl rfl id id
    · exact .refl s
  · simp only [Session.dispatchVoiceCallResponse]
    split
    · exact .inert rfl rfl rfl rfl id id
    · split <;> exact .inert rfl rfl rfl rfl id id
  · exact .refl s

theorem dispatch_replies {s : Session Bytes} (alive : ¬ s.dead) (frame : Bytes)
    (message : Message Bytes) :
    Replies api (s.record frame message) (s.dispatch api config entropy frame message) := by
  have going : ¬ (s.record frame message).dead := alive
  exact handleUnion_replies api config entropy going message.union

theorem switchDisplay_replies (s : Session Bytes) (index : Int) :
    Replies api s (s.switchDisplay api index) :=
  ((sendMisc_replies api _ _).trans (sendMisc_replies api _ _)).after rfl rfl rfl rfl rfl rfl

theorem setSupportedDecoding_replies (s : Session Bytes) (decoding : Bytes) :
    Replies api s (s.setSupportedDecoding api decoding) := by
  have set : Replies api s { s with decoding } := .inert rfl rfl rfl rfl id id
  simp only [Session.setSupportedDecoding]
  split
  · exact set.trans (sendMisc_replies api _ _)
  · exact set

theorem voiceCall_replies (s : Session Bytes) (now : Int) :
    Replies api s (s.startVoiceCall api now) ∧ Replies api s (s.closeVoiceCall api now) := by
  constructor
  · simp only [Session.startVoiceCall]
    split
    · exact .refl s
    · exact (sendMessage_replies api _ _).after rfl rfl rfl rfl rfl rfl
  · exact (sendMessage_replies api _ _).after rfl rfl rfl rfl rfl rfl

theorem voiceAudio_replies (s : Session Bytes) (sampleRate channels buffered : Nat)
    (data : Bytes) :
    Replies api s (s.sendVoiceAudioFormat api sampleRate channels) ∧
      Replies api s (s.sendVoiceAudioFrame api buffered data) := by
  simp only [Session.sendVoiceAudioFormat, Session.sendVoiceAudioFrame]
  constructor
  · split
    · exact .refl s
    · exact sendMisc_replies api s _
  · split
    · exact .refl s
    · split
      · exact .refl s
      · exact sendMessage_replies api s _

theorem loginHashed_replies (s : Session Bytes) (i : Nat) :
    Replies api s (s.loginHashed api config entropy i) := by
  simp only [Session.loginHashed]
  split
  · exact .refl s
  · exact (sendLogin_replies api config entropy _ _).after rfl rfl rfl rfl rfl rfl

theorem disconnect_replies (s : Session Bytes) : Replies api s s.disconnect := by
  simp only [Session.disconnect]
  split
  · exact closed_replies api none (.inr rfl)
  · exact .inert rfl rfl rfl rfl (fun _ _ => rfl) id

/-- A relay socket that opens after the worker is torn down is closed again. -/
theorem openRelay_replies {s : Session Bytes} (torn : s.dead → s.tornDown = true) :
    Replies api s (s.openRelay api config) := by
  simp only [Session.openRelay]
  split
  · exact .refl s
  · split
    · exact .inert rfl rfl rfl rfl id id
    · next up =>
      have alive : ¬ s.dead := fun h => up (torn h)
      refine (setState_replies api ?_ none ?_).after rfl rfl rfl rfl rfl rfl
      · exact alive
      · decide

/-- What a signaling frame must be to change the peer's key. -/
def ServerVouches (b key : Bytes) : Prop :=
  ∃ uuid relayServer pk,
    Session.parseRendezvous api b = .ok (.relayResponse uuid relayServer (some pk)) ∧
      verifyServerRelayPk api pk serverEdPk config.peerId = .ok key

/-- What the first relay frame must be to install the cipher. -/
def PeerVouches (f key : Bytes) : Prop :=
  ∃ signed idPk, api.decodeMessage f = .ok ⟨some (.signedId signed)⟩ ∧
    verifyPeerSignedId api signed key = .ok idPk ∧ beforeNul idPk.id = config.peerId

theorem onSignalingBytes_cases (s : Session Bytes) (b : Bytes) :
    Replies api s (s.onSignalingBytes api config serverEdPk b) ∨
      ∃ key, ServerVouches api config serverEdPk b key ∧
        (s.onSignalingBytes api config serverEdPk b).peerEdPk = some key ∧
        Replies api { s with peerEdPk := some key }
          (s.onSignalingBytes api config serverEdPk b) := by
  by_cases dead : s.dead
  · simp only [Session.onSignalingBytes, if_pos dead]
    exact .inl (.refl s)
  simp only [Session.onSignalingBytes, if_neg dead]
  split
  · exact .inl (fail_replies api s _)
  · exact .inl (fail_replies api s _)
  · next uuid relayServer pk parsed =>
    split
    · exact .inl (fail_replies api s _)
    · split
      · exact .inl (fail_replies api s _)
      · next key verified =>
        refine .inr ⟨key, ⟨uuid, relayServer, pk, parsed, verified⟩, rfl, ?_⟩
        have alive : ¬ (s.trust key uuid).dead := dead
        have live : SessionState.relay ≠ .error ∧ SessionState.relay ≠ .closed := by decide
        have relaying : Replies api (s.trust key uuid) ((s.trust key uuid).setState .relay) :=
          setState_replies api alive none live
        have awaiting : Replies api ((s.trust key uuid).setState .relay)
            ((s.trust key uuid).setState .relay).awaitRelay := .inert rfl rfl rfl rfl id id
        exact (relaying.trans awaiting).after rfl rfl rfl rfl rfl rfl
  · exact .inl (fail_replies api s _)
  · exact .inl (.refl s)

/-- The session once the key message is sent and the cipher installed. -/
def keyed (s : Session Bytes) (bytes : Bytes) : Session Bytes :=
  { s with sentPlain := s.sentPlain ++ [bytes], cipher := some ⟨entropy.key, 0, 0⟩ }

theorem onFirstRelayFrame_cases (s : Session Bytes) (f : Bytes) :
    Replies api s (s.onFirstRelayFrame api config entropy f) ∨
      ∃ key bytes, s.peerEdPk = some key ∧ PeerVouches api config f key ∧
        s.onFirstRelayFrame api config entropy f = keyed entropy s bytes := by
  cases decoded : api.decodeMessage f with
  | error e =>
      simp only [Session.onFirstRelayFrame, decoded]
      exact .inl (fail_replies api s _)
  | ok message =>
      simp only [Session.onFirstRelayFrame, decoded]
      split
      · next failed => cases failed
      · exact .inl (fail_replies api s _)
      · next signed ok =>
        cases trusted : s.peerEdPk with
        | none => exact .inl (fail_replies api s _)
        | some key =>
            cases verified : verifyPeerSignedId api signed key with
            | error e => simpa only [verified] using .inl (fail_replies api s _)
            | ok idPk =>
                simp only [verified]
                split
                · exact .inl (fail_replies api s _)
                · next named =>
                  simp only [Session.installCipher]
                  split
                  · exact .inl (.refl s)
                  · exact .inr ⟨key, _, rfl, ⟨signed, idPk, by rw [decoded, ok], verified,
                      not_not.mp named⟩, rfl⟩
      · exact .inl (fail_replies api s _)

/-- The session once the cipher has counted a frame. -/
def counting (s : Session Bytes) (cipher : StreamCipher Bytes) : Session Bytes :=
  { s with cipher := some { cipher with recvSeq := cipher.recvSeq + 1 } }

/-- A frame under an installed cipher: one of at most one byte is not opened; a frame
that does not open, or opens to no message, ends the session; the rest is dispatched. -/
theorem onRelayBytes_cases {s : Session Bytes} (alive : ¬ s.dead) {cipher : StreamCipher Bytes}
    (keyed : s.cipher = some cipher) (b : Bytes) :
    (api.length b ≤ 1 ∧ (Replies api s (s.onRelayBytes api config entropy b) ∨
      ∃ message, api.decodeMessage b = .ok message ∧
        Replies api (s.record b message) (s.onRelayBytes api config entropy b))) ∨
    (¬ api.length b ≤ 1 ∧ (s.onRelayBytes api config entropy b).dead ∧
      Replies api (counting s cipher) (s.onRelayBytes api config entropy b)) ∨
    (¬ api.length b ≤ 1 ∧ ∃ plain message,
      api.cryptoSecretboxOpenEasy b (buildNonce (cipher.recvSeq + 1)) cipher.key = .ok plain ∧
      api.decodeMessage plain = .ok message ∧
      Replies api ((counting s cipher).record b message)
        (s.onRelayBytes api config entropy b)) := by
  simp only [Session.onRelayBytes, if_neg alive, keyed, StreamCipher.open]
  by_cases short : api.length b ≤ 1
  · have same : { s with cipher := some cipher } = s := by rw [← keyed]
    refine .inl ⟨short, ?_⟩
    simp only [if_pos short, same]
    cases decoded : api.decodeMessage b with
    | error e => exact .inl (fail_replies api s _)
    | ok message => exact .inr ⟨message, rfl, dispatch_replies api config entropy alive b message⟩
  · simp only [if_neg short]
    refine .inr ?_
    have going : ¬ (counting s cipher).dead := alive
    cases opened : api.cryptoSecretboxOpenEasy b (buildNonce (cipher.recvSeq + 1)) cipher.key with
    | error e => exact .inl ⟨short, .inl rfl, fail_replies api (counting s cipher) _⟩
    | ok plain =>
        dsimp only
        cases decoded : api.decodeMessage plain with
        | error e => exact .inl ⟨short, .inl rfl, fail_replies api (counting s cipher) _⟩
        | ok message =>
            exact .inr ⟨short, plain, message, rfl, decoded,
              dispatch_replies api config entropy going b message⟩

/-- A step that is not a frame or a signaling message only replies. -/
theorem sessionStep_replies {s : Session Bytes} (torn : s.dead → s.tornDown = true)
    {event : ChannelEvent Bytes} (notRelay : ∀ b, event ≠ .relay b)
    (notSignaling : ∀ b, event ≠ .signaling b) :
    Replies api s (sessionStep api config serverEdPk entropy s event) := by
  cases event with
  | signaling b => exact absurd rfl (notSignaling b)
  | relay b => exact absurd rfl (notRelay b)
  | relaySocketOpened => exact openRelay_replies api config torn
  | peerSeals plain => exact .refl s
  | loginHashed i => exact loginHashed_replies api config entropy s i
  | send union => exact sendMessage_replies api s union
  | setSupportedDecoding decoding => exact setSupportedDecoding_replies api s decoding
  | switchDisplay index => exact switchDisplay_replies api s index
  | startVoiceCall now => exact (voiceCall_replies api s now).1
  | closeVoiceCall now => exact (voiceCall_replies api s now).2
  | sendVoiceAudioFormat rate channels => exact (voiceAudio_replies api s rate channels 0 api.empty).1
  | sendVoiceAudioFrame buffered data => exact (voiceAudio_replies api s 0 0 buffered data).2
  | disconnect => exact disconnect_replies api s
  | teardown => exact .inert rfl rfl rfl rfl (fun _ _ => rfl) id

/-- What one event does to the session: it replies; it trusts a key the server vouches for;
it installs the cipher for the key it trusts; or it receives a frame under the cipher. -/
theorem sessionStep_cases {s : Session Bytes} (torn : s.dead → s.tornDown = true)
    (event : ChannelEvent Bytes) :
    Replies api s (sessionStep api config serverEdPk entropy s event) ∨
    (∃ b key, event = .signaling b ∧ ServerVouches api config serverEdPk b key ∧
      (sessionStep api config serverEdPk entropy s event).peerEdPk = some key ∧
      Replies api { s with peerEdPk := some key }
        (sessionStep api config serverEdPk entropy s event)) ∨
    (∃ f key bytes, event = .relay f ∧ s.cipher = none ∧ s.peerEdPk = some key ∧
      PeerVouches api config f key ∧
      sessionStep api config serverEdPk entropy s event = keyed entropy s bytes) ∨
    (∃ b cipher, event = .relay b ∧ s.cipher = some cipher ∧ ¬ s.dead) := by
  by_cases signaling : ∃ b, event = .signaling b
  · obtain ⟨b, rfl⟩ := signaling
    rcases onSignalingBytes_cases api config serverEdPk s b with replies | ⟨key, vouched⟩
    · exact .inl replies
    · exact .inr (.inl ⟨b, key, rfl, vouched⟩)
  by_cases relay : ∃ f, event = .relay f
  · obtain ⟨f, rfl⟩ := relay
    by_cases dead : s.dead
    · simp only [sessionStep, Session.onRelayBytes, if_pos dead]
      exact .inl (.refl s)
    cases unkeyed : s.cipher with
    | some cipher => exact .inr (.inr (.inr ⟨f, cipher, rfl, rfl, dead⟩))
    | none =>
        have first : s.onRelayBytes api config entropy f =
            s.onFirstRelayFrame api config entropy f := by
          simp only [Session.onRelayBytes, if_neg dead, unkeyed]
        simp only [sessionStep, first]
        rcases onFirstRelayFrame_cases api config entropy s f with replies | ⟨key, bytes, h⟩
        · exact .inl replies
        · exact .inr (.inr (.inl ⟨f, key, bytes, rfl, trivial, h⟩))
  · exact .inl (sessionStep_replies api config serverEdPk entropy torn
      (fun b h => relay ⟨b, h⟩) fun b h => signaling ⟨b, h⟩)

theorem step_session (w : World Bytes) (event : ChannelEvent Bytes) :
    (step api config serverEdPk entropy w event).session =
      sessionStep api config serverEdPk entropy w.session event := by
  cases event with
  | peerSeals plain =>
      simp only [step, peerSeals, sessionStep]
      split <;> rfl
  | _ => rfl

/-- A received frame keeps the trusted key and the cipher's key, and can end the session. -/
theorem onRelayBytes_frame {s : Session Bytes} (alive : ¬ s.dead) {cipher : StreamCipher Bytes}
    (keyed : s.cipher = some cipher) (b : Bytes) :
    ((s.onRelayBytes api config entropy b).dead →
      (s.onRelayBytes api config entropy b).tornDown = true) ∧
    (s.onRelayBytes api config entropy b).peerEdPk = s.peerEdPk ∧
    (s.onRelayBytes api config entropy b).cipher.map StreamCipher.key = some cipher.key := by
  have key (u : Session Bytes) (c : StreamCipher Bytes) (hu : u.cipher = some c)
      (replies : Replies api u (s.onRelayBytes api config entropy b)) :
      (s.onRelayBytes api config entropy b).cipher.map StreamCipher.key = some c.key := by
    have opened := congrArg (Option.map Prod.fst) replies.opened
    simpa [hu, Option.map_map, Function.comp_def] using opened
  rcases onRelayBytes_cases api config entropy alive keyed b with
    ⟨_, replies | ⟨message, _, replies⟩⟩ | ⟨_, _, replies⟩ | ⟨_, plain, message, _, _, replies⟩
  all_goals
    refine ⟨replies.torn fun h => absurd h alive, replies.peerEdPk, ?_⟩
  · exact key s cipher keyed replies
  · exact key (s.record b message) cipher keyed replies
  · exact key (counting s cipher) { cipher with recvSeq := cipher.recvSeq + 1 } rfl replies
  · exact key _ { cipher with recvSeq := cipher.recvSeq + 1 } rfl replies

end
end Channel
end WebClient
end CortenDesk
