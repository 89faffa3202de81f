import CortenDesk.WebClient.Session

/-!
The life of a session under calls in any order. The guards of the two receivers keep an ended
session from acting on frames; the public calls have none, and no phase refuses a message of an
earlier one.
-/
namespace CortenDesk
namespace WebClient

/-- A call on a session, or the continuation of a hash that it awaits. Every control that only
builds a message is `send`. -/
inductive Call (Bytes : Type)
  | start
  | signaling (b : Bytes)
  | relayOpened
  | relay (b : Bytes)
  | loginHashed (i : Nat)
  | send (union : MessageUnion Bytes)
  | setSupportedDecoding (decoding : Bytes)
  | switchDisplay (index : Int)
  | startVoiceCall (now : Int)
  | closeVoiceCall (now : Int)
  | sendVoiceAudioFormat (sampleRate channels : Nat)
  | sendVoiceAudioFrame (relayBuffered : Nat) (data : Bytes)
  | disconnect

/-- A session, and how many requests with the user's credential it has sent. -/
structure Life (Bytes : Type) where
  session : Session Bytes
  credentials : Nat := 0

namespace Lifecycle
section
variable {Bytes : Type} (api : Api Bytes) (config : SessionConfig) (serverEdPk : Bytes)
  (entropy : Entropy Bytes)

def call (s : Session Bytes) : Call Bytes → Session Bytes
  | .start => s.setState .rendezvous
  | .signaling b => s.onSignalingBytes api config serverEdPk b
  | .relayOpened => s.relayOpened api config
  | .relay b => s.onRelayBytes api config entropy b
  | .loginHashed i => s.loginHashed api config entropy i
  | .send union => s.sendMessage api union
  | .setSupportedDecoding decoding => s.setSupportedDecoding api decoding
  | .switchDisplay index => s.switchDisplay api index
  | .startVoiceCall now => s.startVoiceCall api now
  | .closeVoiceCall now => s.closeVoiceCall api now
  | .sendVoiceAudioFormat sampleRate channels => s.sendVoiceAudioFormat api sampleRate channels
  | .sendVoiceAudioFrame buffered data => s.sendVoiceAudioFrame api buffered data
  | .disconnect => s.disconnect

/-- An awaited hash goes into a request when it is there. -/
def credentials (s : Session Bytes) : Call Bytes → Nat
  | .loginHashed i => if (s.pendingLogins[i]?).isSome then 1 else 0
  | _ => 0

def step (w : Life Bytes) (c : Call Bytes) : Life Bytes where
  session := call api config serverEdPk entropy w.session c
  credentials := w.credentials + credentials w.session c

/-- A session as it is constructed. -/
def begin (decoding : Bytes) : Life Bytes where
  session := { decoding, password := config.password }

/-- What may come after a state: from streaming only an end, and after an end nothing. -/
def OneWay (s t : Session Bytes) : Prop :=
  (s.state = .streaming → t.state = .streaming ∨ t.dead) ∧ (s.dead → t.state = s.state)

/-- At most one relay was asked for, which `opening` counts here, as no call lowers it; and at
most one credential was sent or is being hashed to be. -/
structure Bounded (w : Life Bytes) : Prop where
  relays : w.session.opening ≤ 1
  credentials : w.credentials + w.session.pendingLogins.length ≤ 1

/-- A relay response whose key the server has signed for the peer. -/
def Trusts (b : Bytes) : Prop :=
  ∃ uuid relayServer pk key,
    Session.parseRendezvous api b = .ok (.relayResponse uuid relayServer (some pk)) ∧
      api.length pk ≠ 0 ∧ verifyServerRelayPk api pk serverEdPk config.peerId = .ok key

def saved : Option String := config.savedHashHex.filter (· ≠ "")

/-- A message of the login that does not come after it. -/
def Timely (s : Session Bytes) : Option (MessageUnion Bytes) → Prop
  | some (.hash _ _) => s.state ≠ .streaming ∧
      ((saved config).isSome → s.loginSent = false ∧ s.pendingLogins = [])
  | some (.loginResponse (some (.error error))) => isManualAccept error → s.state ≠ .streaming
  | _ => True

/-- The message that a frame opens to. -/
def Opens (cipher : StreamCipher Bytes) (b : Bytes) (message : Message Bytes) : Prop :=
  ∃ plain, (cipher.open api b).2 = .ok plain ∧ api.decodeMessage plain = .ok message

/-- A call in its phase. -/
def InOrder (s : Session Bytes) : Call Bytes → Prop
  | .start | .relayOpened => s.state ≠ .streaming ∧ ¬ s.dead
  | .signaling b => ¬ s.dead → Trusts api config serverEdPk b → s.peerEdPk = none
  | .relay b => ¬ s.dead → ∀ cipher message, s.cipher = some cipher →
      Opens api cipher b message → Timely config s message.union
  | .disconnect => s.state ≠ .error
  | _ => True

/-- What holds of every session, in whatever order it is called. -/
structure Sane (w : Life Bytes) : Prop where
  keyed : w.session.cipher.isSome → w.session.peerEdPk.isSome
  streams : w.session.state = .streaming → w.session.cipher.isSome
  opened : w.session.peerEdPk = none ↔ w.session.opening = 0
  told : 0 < w.credentials → w.session.loginSent
  sent : (saved config).isSome → w.session.loginSent → 0 < w.credentials
  cleared : w.session.password ≠ "" → w.credentials = 0 ∧ w.session.pendingLogins = []

/-- A step to a state that leaves the rest of the life alone. -/
structure Moves (s t : Session Bytes) (state : SessionState) : Prop where
  state : t.state = state
  opening : t.opening = s.opening
  pendingLogins : t.pendingLogins = s.pendingLogins
  password : t.password = s.password
  loginSent : t.loginSent = s.loginSent
  peerEdPk : t.peerEdPk = s.peerEdPk
  cipher : t.cipher.isSome = s.cipher.isSome

variable {api config serverEdPk entropy} {s t u : Session Bytes} {state : SessionState}

theorem Moves.refl (s : Session Bytes) : Moves s s s.state := ⟨rfl, rfl, rfl, rfl, rfl, rfl, rfl⟩

theorem Moves.trans {state' : SessionState} (h : Moves s t state') (h' : Moves t u state) :
    Moves s u state where
  state := h'.state
  opening := h'.opening.trans h.opening
  pendingLogins := h'.pendingLogins.trans h.pendingLogins
  password := h'.password.trans h.password
  loginSent := h'.loginSent.trans h.loginSent
  peerEdPk := h'.peerEdPk.trans h.peerEdPk
  cipher := h'.cipher.trans h.cipher

theorem moves_setState (s : Session Bytes) (state : SessionState) (detail : Option String) :
    Moves s (s.setState state detail) state := by
  unfold Session.setState
  split <;> exact ⟨rfl, rfl, rfl, rfl, rfl, rfl, rfl⟩

theorem Moves.closeAll (h : Moves s t state) : Moves s t.closeAll state :=
  ⟨h.state, h.opening, h.pendingLogins, h.password, h.loginSent, h.peerEdPk, h.cipher⟩

theorem moves_fail (s : Session Bytes) (detail : String) : Moves s (s.fail detail) .error :=
  (moves_setState s .error (some detail)).closeAll

theorem moves_sealSend (api : Api Bytes) (s : Session Bytes) (bytes : Bytes) :
    Moves s (s.sealSend api bytes) s.state := by
  unfold Session.sealSend
  split
  · exact .refl s
  · next keyed => exact ⟨rfl, rfl, rfl, rfl, rfl, rfl, by rw [keyed]; rfl⟩

theorem Moves.sealSend (h : Moves s t state) (bytes : Bytes) :
    Moves s (t.sealSend api bytes) state := by
  have sent := moves_sealSend api t bytes
  rw [h.state] at sent
  exact h.trans sent

theorem moves_sendMessage (api : Api Bytes) (s : Session Bytes) (union : MessageUnion Bytes) :
    Moves s (s.sendMessage api union) s.state := by
  unfold Session.sendMessage
  split
  · exact .refl s
  · exact moves_sealSend api s _

theorem moves_sendMisc (api : Api Bytes) (s : Session Bytes) (union : Misc Bytes) :
    Moves s (s.sendMisc api union) s.state :=
  moves_sendMessage api s _

/-- The calls that only send, and those of the voice call. -/
theorem moves_switchDisplay (api : Api Bytes) (s : Session Bytes) (index : Int) :
    Moves s (s.switchDisplay api index) s.state := by
  have asked : Moves s { s with pendingDisplay := some index } s.state :=
    ⟨rfl, rfl, rfl, rfl, rfl, rfl, rfl⟩
  have switched := moves_sendMisc api { s with pendingDisplay := some index } (.switchDisplay index)
  have pruned := (asked.trans switched).trans (moves_sendMisc api _ (.captureDisplays [index]))
  rwa [switched.state] at pruned

theorem moves_setSupportedDecoding (api : Api Bytes) (s : Session Bytes) (decoding : Bytes) :
    Moves s (s.setSupportedDecoding api decoding) s.state := by
  have set : Moves s { s with decoding } s.state := ⟨rfl, rfl, rfl, rfl, rfl, rfl, rfl⟩
  simp only [Session.setSupportedDecoding]
  split
  · exact set.trans (moves_sendMisc api _ _)
  · exact set

theorem moves_startVoiceCall (api : Api Bytes) (s : Session Bytes) (now : Int) :
    Moves s (s.startVoiceCall api now) s.state := by
  simp only [Session.startVoiceCall]
  split
  · exact .refl s
  · have asked : Moves s { s with pendingVoiceCallTimestamp := some (max 1 now) } s.state :=
      ⟨rfl, rfl, rfl, rfl, rfl, rfl, rfl⟩
    exact asked.trans (moves_sendMessage api _ _)

theorem moves_closeVoiceCall (api : Api Bytes) (s : Session Bytes) (now : Int) :
    Moves s (s.closeVoiceCall api now) s.state := by
  have hungUp : Moves s { s with pendingVoiceCallTimestamp := none, voiceCallAccepted := false }
      s.state := ⟨rfl, rfl, rfl, rfl, rfl, rfl, rfl⟩
  exact hungUp.trans (moves_sendMessage api _ _)

theorem moves_sendVoiceAudioFormat (api : Api Bytes) (s : Session Bytes) (rate channels : Nat) :
    Moves s (s.sendVoiceAudioFormat api rate channels) s.state := by
  unfold Session.sendVoiceAudioFormat
  split
  · exact .refl s
  · exact moves_sendMisc api s _

theorem moves_sendVoiceAudioFrame (api : Api Bytes) (s : Session Bytes) (buffered : Nat)
    (data : Bytes) : Moves s (s.sendVoiceAudioFrame api buffered data) s.state := by
  unfold Session.sendVoiceAudioFrame
  split
  · exact .refl s
  · split
    · exact .refl s
    · exact moves_sendMessage api s _

theorem moves_relayOpened (api : Api Bytes) (config : SessionConfig) (s : Session Bytes) :
    Moves s (s.relayOpened api config) .handshake := by
  have sent : Moves s
      { s with sentPlain := s.sentPlain ++ [buildRequestRelay api config s.uuid] } s.state :=
    ⟨rfl, rfl, rfl, rfl, rfl, rfl, rfl⟩
  exact sent.trans (moves_setState _ .handshake none)

theorem moves_disconnect (s : Session Bytes) : Moves s s.disconnect .closed := by
  unfold Session.disconnect
  split
  · exact (moves_setState s .closed none).closeAll
  · next closed =>
    have stays := Moves.refl s
    rw [not_not.mp closed] at stays
    exact stays.closeAll

/-- A signaling frame either is trusted, and a relay asked for, or leaves or ends the session. -/
theorem onSignalingBytes_cases (api : Api Bytes) (config : SessionConfig) (serverEdPk : Bytes)
    (alive : ¬ s.dead) (b : Bytes) :
    (Trusts api config serverEdPk b ∧ ∃ key,
      Moves { s with peerEdPk := some key, opening := s.opening + 1 }
        (s.onSignalingBytes api config serverEdPk b) .relay) ∨
    (¬ Trusts api config serverEdPk b ∧ ∃ state, (state = s.state ∨ state = .error) ∧
      Moves s (s.onSignalingBytes api config serverEdPk b) state) := by
  simp only [Session.onSignalingBytes, if_neg alive]
  cases parsed : Session.parseRendezvous api b with
  | error e =>
      refine .inr ⟨?_, .error, .inr rfl, moves_fail s _⟩
      rintro ⟨uuid, server, pk, key, other, -⟩
      rw [parsed] at other
      cases other
  | ok response =>
      have untrusted (none : ∀ uuid server pk, response ≠ .relayResponse uuid server (some pk)) :
          ¬ Trusts api config serverEdPk b := by
        rintro ⟨uuid, server, pk, key, other, -⟩
        rw [parsed] at other
        exact none uuid server pk (Except.ok.inj other)
      cases response with
      | relayResponse uuid server given =>
          cases given with
          | none => exact .inr ⟨untrusted (by simp), .error, .inr rfl, moves_fail s _⟩
          | some pk =>
              have only : Trusts api config serverEdPk b ↔
                  api.length pk ≠ 0 ∧ ∃ key, verifyServerRelayPk api pk serverEdPk config.peerId = .ok key := by
                simp [Trusts, parsed]
              rw [only]
              by_cases empty : api.length pk = 0
              · simp only [empty, if_true]
                exact .inr ⟨fun h => h.1 rfl, .error, .inr rfl, moves_fail s _⟩
              · simp only [if_neg empty]
                cases verified : verifyServerRelayPk api pk serverEdPk config.peerId with
                | error e => exact .inr ⟨by simp, .error, .inr rfl, moves_fail s _⟩
                | ok key =>
                    refine .inl ⟨⟨empty, key, rfl⟩, key, ?_⟩
                    have trusted := moves_setState (s.trust key uuid) .relay none
                    exact ⟨trusted.state, congrArg (· + 1) trusted.opening, trusted.pendingLogins,
                      trusted.password, trusted.loginSent, trusted.peerEdPk, trusted.cipher⟩
      | punchHoleResponse failure =>
          refine .inr ⟨untrusted (by simp), ?_⟩
          cases failure with
          | none => exact ⟨s.state, .inl rfl, .refl s⟩
          | some failure => exact ⟨.error, .inr rfl, moves_fail s _⟩
      | onlineResponse states => exact .inr ⟨untrusted (by simp), s.state, .inl rfl, .refl s⟩
      | other => exact .inr ⟨untrusted (by simp), s.state, .inl rfl, .refl s⟩

/-- The first frame either installs the cipher, under a trusted key, or leaves or ends the
session. -/
theorem onFirstRelayFrame_cases (api : Api Bytes) (config : SessionConfig) (entropy : Entropy Bytes)
    (s : Session Bytes) (b : Bytes) :
    (s.peerEdPk.isSome ∧ ∃ cipher, Moves { s with cipher := some cipher }
      (s.onFirstRelayFrame api config entropy b) s.state) ∨
    ∃ state, (state = s.state ∨ state = .error) ∧
      Moves s (s.onFirstRelayFrame api config entropy b) state := by
  have failed (detail : String) : ∃ state, (state = s.state ∨ state = .error) ∧
      Moves s (s.fail detail) state := ⟨.error, .inr rfl, moves_fail s detail⟩
  unfold Session.onFirstRelayFrame
  split
  · exact .inr (failed _)
  · exact .inr (failed _)
  · split
    · exact .inr (failed _)
    · next key trusted =>
      split
      · exact .inr (failed _)
      · split
        · exact .inr (failed _)
        · unfold Session.installCipher
          split
          · exact .inr ⟨s.state, .inl rfl, .refl s⟩
          · refine .inl ⟨by rw [trusted]; rfl, ⟨entropy.key, 0, 0⟩, ?_⟩
            exact ⟨rfl, rfl, rfl, rfl, rfl, rfl, rfl⟩
  · exact .inr (failed _)

/-- The state that a message other than a hash leads to. -/
def leads (state : SessionState) : Option (MessageUnion Bytes) → SessionState
  | some (.loginResponse (some (.error error))) => if isManualAccept error then .needAccept else state
  | some (.loginResponse (some (.peerInfo _))) => .streaming
  | some (.misc (some (.closeReason _))) => .closed
  | _ => state

theorem moves_handleUnion (api : Api Bytes) (config : SessionConfig) (entropy : Entropy Bytes)
    (s : Session Bytes) (union : Option (MessageUnion Bytes))
    (other : ∀ salt challenge, union ≠ some (.hash salt challenge)) :
    Moves s (s.handleUnion api config entropy union) (leads s.state union) := by
  cases union with
  | none => exact .refl s
  | some union =>
      cases union with
      | hash salt challenge => exact absurd rfl (other salt challenge)
      | testDelay testDelay =>
          simp only [Session.handleUnion, leads]
          split
          · exact .refl s
          · exact moves_sealSend api s _
      | loginResponse response =>
          simp only [Session.handleUnion, Session.dispatchLoginResponse]
          split
          · simp only [leads]
            split
            · exact moves_setState s _ _
            · exact .refl s
          · exact moves_setState s _ _
          · exact .refl s
      | videoFrame body => exact moves_sendMisc api s _
      | misc misc =>
          cases misc with
          | none => exact .refl s
          | some misc =>
              cases misc with
              | closeReason reason => exact (moves_setState s _ _).closeAll
              | switchDisplay display =>
                  simp only [Session.handleUnion, Session.dispatchMisc, leads]
                  split
                  · split
                    · exact .refl s
                    · exact ⟨rfl, rfl, rfl, rfl, rfl, rfl, rfl⟩
                  · exact .refl s
              | _ => exact .refl s
      | voiceCallRequest isConnect timestamp =>
          simp only [Session.handleUnion, Session.dispatchVoiceCallRequest, leads]
          split
          · exact ⟨rfl, rfl, rfl, rfl, rfl, rfl, rfl⟩
          · exact .refl s
      | voiceCallResponse timestamp accepted =>
          simp only [Session.handleUnion, Session.dispatchVoiceCallResponse, leads]
          split
          · exact ⟨rfl, rfl, rfl, rfl, rfl, rfl, rfl⟩
          · split <;> exact ⟨rfl, rfl, rfl, rfl, rfl, rfl, rfl⟩
      | _ => exact .refl s

/-- A hash spends the password: it begins a request with the credential, or sends one without. -/
theorem dispatchHash_cases (api : Api Bytes) (config : SessionConfig) (entropy : Entropy Bytes)
    (s : Session Bytes) (salt challenge : String) :
    (((saved config).isSome ∨ s.password ≠ "") ∧ ∃ hash,
      Moves { s with password := "", pendingLogins := s.pendingLogins ++ [hash] }
        (s.dispatchHash api config entropy salt challenge) .login) ∨
    (saved config = none ∧ s.password = "" ∧
      Moves { s with password := "", loginSent := true }
        (s.dispatchHash api config entropy salt challenge) .login) := by
  have login := moves_setState s .login none
  have spent (pending : List Bytes) :
      Moves { s with password := "", pendingLogins := pending }
        { s.setState .login with password := "", pendingLogins := pending } .login :=
    ⟨login.state, login.opening, rfl, rfl, login.loginSent, login.peerEdPk, login.cipher⟩
  unfold Session.dispatchHash
  rw [← saved]
  cases saved config with
  | some hex =>
      refine .inl ⟨.inl rfl, loginHashFromH1 api (api.ofHex hex) challenge, ?_⟩
      simp only [login.pendingLogins]
      exact spent _
  | none =>
      by_cases empty : s.password = ""
      · refine .inr ⟨rfl, empty, ?_⟩
        simp only [empty, ne_eq, not_true_eq_false, if_false, Session.sendLogin]
        have told : Moves { s with password := "", loginSent := true }
            { s.setState .login with password := "", loginSent := true } .login :=
          ⟨login.state, login.opening, login.pendingLogins, rfl, rfl, login.peerEdPk, login.cipher⟩
        exact told.sealSend _
      · refine .inl ⟨.inr empty,
          loginHashFromH1 api (computeLoginH1 api s.password salt) challenge, ?_⟩
        simp only [ne_eq, empty, not_false_iff, if_true, login.pendingLogins]
        exact spent _

theorem loginHashed_cases (api : Api Bytes) (config : SessionConfig) (entropy : Entropy Bytes)
    (s : Session Bytes) (i : Nat) :
    (s.pendingLogins[i]? = none ∧ s.loginHashed api config entropy i = s) ∨
    ((s.pendingLogins[i]?).isSome ∧
      Moves { s with pendingLogins := s.pendingLogins.eraseIdx i, loginSent := true }
        (s.loginHashed api config entropy i) s.state) := by
  unfold Session.loginHashed
  cases awaited : s.pendingLogins[i]? with
  | none => exact .inl ⟨rfl, rfl⟩
  | some hash => exact .inr ⟨rfl, moves_sealSend api _ _⟩

/-- A frame under the cipher: one that opens to no message ends the session, and a message is
handled. -/
theorem onRelayBytes_cases (api : Api Bytes) (config : SessionConfig) (entropy : Entropy Bytes)
    (alive : ¬ s.dead) {cipher : StreamCipher Bytes} (keyed : s.cipher = some cipher) (b : Bytes) :
    ((∀ message, ¬ Opens api cipher b message) ∧
      Moves s (s.onRelayBytes api config entropy b) .error) ∨
    ∃ message u, Opens api cipher b message ∧ Moves s u s.state ∧
      s.onRelayBytes api config entropy b = u.handleUnion api config entropy message.union := by
  have counted (cipher' : StreamCipher Bytes) : Moves s { s with cipher := some cipher' } s.state :=
    ⟨rfl, rfl, rfl, rfl, rfl, rfl, by rw [keyed]; rfl⟩
  simp only [Session.onRelayBytes, if_neg alive, keyed]
  cases opened : (cipher.open api b).2 with
  | error e =>
      refine .inl ⟨?_, (counted _).trans (moves_fail _ _)⟩
      rintro message ⟨plain, other, -⟩
      rw [opened] at other
      cases other
  | ok plain =>
      simp only
      cases decoded : api.decodeMessage plain with
      | error e =>
          refine .inl ⟨?_, (counted _).trans (moves_fail _ _)⟩
          rintro message ⟨plain', other, read⟩
          rw [opened] at other
          obtain rfl := Except.ok.inj other
          rw [decoded] at read
          cases read
      | ok message =>
          refine .inr ⟨message, _, ⟨plain, opened, decoded⟩, ?_, rfl⟩
          exact (counted _).trans ⟨rfl, rfl, rfl, rfl, rfl, rfl, rfl⟩

end
end Lifecycle
end WebClient
end CortenDesk
