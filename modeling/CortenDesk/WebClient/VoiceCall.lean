import CortenDesk.WebClient.Integrity
import CortenDesk.WebClient.Lifecycle

/-!
The voice call of a session: when its audio goes out. The request that waits and the call that is
up are two fields, and a new request leaves the call up.
-/
namespace CortenDesk
namespace WebClient

/-- What the user interface is told of the voice call. -/
inductive VoiceCallState
  | waiting
  | accepted
  | rejected
  | closed
  deriving DecidableEq

namespace Session
section
variable {Bytes : Type} (api : Api Bytes)

/-- The message that a frame from the relay is handled as, if it gets that far. -/
def received (s : Session Bytes) (b : Bytes) : Option (Message Bytes) :=
  if s.dead then none
  else s.cipher.bind fun cipher =>
    (cipher.open api b).2.toOption.bind fun plain => (api.decodeMessage plain).toOption

def unionTells (s : Session Bytes) : Option (MessageUnion Bytes) → Option VoiceCallState
  | some (.voiceCallRequest isConnect _) =>
      if ! isConnect && (s.pendingVoiceCallTimestamp.isSome || s.voiceCallAccepted) then some .closed
      else none
  | some (.voiceCallResponse reqTimestamp accepted) =>
      s.pendingVoiceCallTimestamp.map fun pending =>
        if reqTimestamp ≠ pending then .closed else if accepted then .accepted else .rejected
  | _ => none

/-- The event `voiceCall` that a call emits. -/
def voiceTells (s : Session Bytes) : Call Bytes → Option VoiceCallState
  | .startVoiceCall _ => if s.pendingVoiceCallTimestamp.isSome then none else some .waiting
  | .closeVoiceCall _ => some .closed
  | .relay b => (s.received api b).bind fun message => s.unionTells message.union
  | _ => none

end
end Session

namespace VoiceCall
section
variable {Bytes : Type} (api : Api Bytes) (config : SessionConfig) (serverEdPk : Bytes)
  (entropy : Entropy Bytes) (decoding : Bytes)

/-- The session after some calls on it. -/
def after (calls : List (Call Bytes)) : Session Bytes :=
  Runs.run (Lifecycle.call api config serverEdPk entropy)
    (Lifecycle.begin config decoding).session calls

/-- The user interface is told nothing while the calls are made. -/
def Silent (s : Session Bytes) (calls : List (Call Bytes)) : Prop :=
  Runs.Along (Lifecycle.call api config serverEdPk entropy)
    (fun s c => s.voiceTells api c = none) s calls

/-- The last request was made at `now`, and is not answered. -/
def Waits (calls : List (Call Bytes)) (now : Int) : Prop :=
  ∃ before later, calls = before ++ .startVoiceCall now :: later ∧
    (after api config serverEdPk entropy decoding before).voiceTells api (.startVoiceCall now) =
      some .waiting ∧
    Silent api config serverEdPk entropy
      (after api config serverEdPk entropy decoding (before ++ [.startVoiceCall now])) later

/-- The response that accepts the last request has come, and since then nothing was told that
ends the call. -/
def InCall (calls : List (Call Bytes)) : Prop :=
  ∃ before later b now message, calls = before ++ .relay b :: later ∧
    Waits api config serverEdPk entropy decoding before now ∧
    (after api config serverEdPk entropy decoding before).received api b = some message ∧
    message.union = some (.voiceCallResponse (max 1 now) true) ∧
    Runs.Along (Lifecycle.call api config serverEdPk entropy)
      (fun s c => s.voiceTells api c ≠ some .waiting ∧ s.voiceTells api c ≠ some .rejected ∧
        s.voiceTells api c ≠ some .closed)
      (after api config serverEdPk entropy decoding (before ++ [.relay b])) later

/-- The calls that seal audio of the microphone, or its format. -/
def Speaks : Call Bytes → Prop
  | .sendVoiceAudioFormat _ _ | .sendVoiceAudioFrame _ _ => True
  | _ => False

/-- Audio is sealed in an accepted call only. -/
def Guarded (calls : List (Call Bytes)) : Prop :=
  ∀ before c later, calls = before ++ c :: later → Speaks c →
    (Lifecycle.call api config serverEdPk entropy
        (after api config serverEdPk entropy decoding before) c).sealedOut ≠
      (after api config serverEdPk entropy decoding before).sealedOut →
    InCall api config serverEdPk entropy decoding before

/-- No request is made while a call is up. -/
def Orderly (s : Session Bytes) : Call Bytes → Prop
  | .startVoiceCall _ => s.pendingVoiceCallTimestamp = none → s.voiceCallAccepted = false
  | _ => True

instance Orderly.decidable : ∀ (s : Session Bytes) (c : Call Bytes), Decidable (Orderly s c)
  | _, .startVoiceCall _ => inferInstanceAs (Decidable (_ → _))
  | _, .start | _, .signaling _ | _, .relayOpened | _, .relay _ | _, .loginHashed _ | _, .send _
  | _, .setSupportedDecoding _ | _, .switchDisplay _ | _, .closeVoiceCall _
  | _, .sendVoiceAudioFormat _ _ | _, .sendVoiceAudioFrame _ _ | _, .disconnect => .isTrue trivial

variable {api config serverEdPk entropy decoding} {s t u : Session Bytes}

/-- A step that leaves the call as it is. -/
structure Keeps (s t : Session Bytes) : Prop where
  pending : t.pendingVoiceCallTimestamp = s.pendingVoiceCallTimestamp
  accepted : t.voiceCallAccepted = s.voiceCallAccepted

/-- A step that leaves the call as it is, or leaves none. -/
def Idle (s t : Session Bytes) : Prop :=
  Keeps s t ∨ (t.pendingVoiceCallTimestamp = none ∧ t.voiceCallAccepted = false)

theorem Keeps.refl (s : Session Bytes) : Keeps s s := ⟨rfl, rfl⟩

theorem Keeps.trans (h : Keeps s t) (h' : Keeps t u) : Keeps s u :=
  ⟨h'.pending.trans h.pending, h'.accepted.trans h.accepted⟩

theorem Keeps.idle (h : Keeps s t) (h' : Idle t u) : Idle s u := h'.imp h.trans id

theorem idle_setState (s : Session Bytes) (state : SessionState) (detail : Option String) :
    Idle s (s.setState state detail) := by
  unfold Session.setState
  split
  · exact .inr ⟨rfl, rfl⟩
  · exact .inl ⟨rfl, rfl⟩

theorem Idle.closeAll (h : Idle s t) : Idle s t.closeAll := by
  rcases h with keeps | none
  · exact .inl ⟨keeps.pending, keeps.accepted⟩
  · exact .inr none

theorem idle_fail (s : Session Bytes) (detail : String) : Idle s (s.fail detail) :=
  (idle_setState s .error (some detail)).closeAll

theorem keeps_sealSend (api : Api Bytes) (s : Session Bytes) (bytes : Bytes) :
    Keeps s (s.sealSend api bytes) := by
  unfold Session.sealSend
  split <;> exact ⟨rfl, rfl⟩

theorem keeps_sendMessage (api : Api Bytes) (s : Session Bytes) (union : MessageUnion Bytes) :
    Keeps s (s.sendMessage api union) := by
  unfold Session.sendMessage
  split
  · exact .refl s
  · exact keeps_sealSend api s _

theorem keeps_sendMisc (api : Api Bytes) (s : Session Bytes) (union : Misc Bytes) :
    Keeps s (s.sendMisc api union) :=
  keeps_sendMessage api s _

theorem idle_onSignalingBytes (s : Session Bytes) (b : Bytes) :
    Idle s (s.onSignalingBytes api config serverEdPk b) := by
  have same : Idle s s := .inl (.refl s)
  unfold Session.onSignalingBytes
  split
  · exact same
  · split
    · exact idle_fail s _
    · exact idle_fail s _
    · split
      · exact idle_fail s _
      · split
        · exact idle_fail s _
        · exact .inl ⟨rfl, rfl⟩
    · exact idle_fail s _
    · exact same

theorem idle_onFirstRelayFrame (s : Session Bytes) (b : Bytes) :
    Idle s (s.onFirstRelayFrame api config entropy b) := by
  unfold Session.onFirstRelayFrame
  split
  · exact idle_fail s _
  · exact idle_fail s _
  · split
    · exact idle_fail s _
    · split
      · exact idle_fail s _
      · split
        · exact idle_fail s _
        · unfold Session.installCipher
          split <;> exact .inl ⟨rfl, rfl⟩
  · exact idle_fail s _

theorem keeps_sendLogin (s : Session Bytes) (hash : Bytes) :
    Keeps s (s.sendLogin api config entropy hash) := by
  have told : Keeps s { s with loginSent := true } := ⟨rfl, rfl⟩
  exact told.trans (keeps_sealSend api _ _)

theorem keeps_dispatchHash (s : Session Bytes) (salt challenge : String) :
    Keeps s (s.dispatchHash api config entropy salt challenge) := by
  unfold Session.dispatchHash
  simp only
  split
  · exact ⟨rfl, rfl⟩
  · split
    · exact ⟨rfl, rfl⟩
    · have login : Keeps s { s.setState .login with password := "" } := ⟨rfl, rfl⟩
      exact login.trans (keeps_sendLogin _ _)

/-- A message that is no voice call message. -/
theorem idle_handleUnion (s : Session Bytes) (union : Option (MessageUnion Bytes))
    (request : ∀ isConnect now, union ≠ some (.voiceCallRequest isConnect now))
    (response : ∀ now accepted, union ≠ some (.voiceCallResponse now accepted)) :
    Idle s (s.handleUnion api config entropy union) := by
  have same : Idle s s := .inl (.refl s)
  cases union with
  | none => exact same
  | some union =>
      cases union with
      | testDelay testDelay =>
          simp only [Session.handleUnion]
          split
          · exact same
          · exact .inl (keeps_sealSend api s _)
      | hash salt challenge => exact .inl (keeps_dispatchHash s salt challenge)
      | loginResponse response =>
          simp only [Session.handleUnion, Session.dispatchLoginResponse]
          split
          · split
            · exact idle_setState s _ _
            · exact same
          · exact idle_setState s _ _
          · exact same
      | videoFrame body => exact .inl (keeps_sendMisc api s _)
      | misc misc =>
          simp only [Session.handleUnion, Session.dispatchMisc]
          split
          · exact (idle_setState s _ _).closeAll
          · split
            · split
              · exact same
              · exact .inl ⟨rfl, rfl⟩
            · exact same
          · exact same
      | voiceCallRequest isConnect now => exact absurd rfl (request isConnect now)
      | voiceCallResponse now accepted => exact absurd rfl (response now accepted)
      | _ => exact same

/-- What a call does to the voice call, with what is told of it. -/
inductive Does (api : Api Bytes) (s : Session Bytes) (c : Call Bytes) (t : Session Bytes) : Prop
  | idle (silent : s.voiceTells api c = none) (idle : Idle s t)
  | ends (pending : t.pendingVoiceCallTimestamp = none) (accepted : t.voiceCallAccepted = false)
  | asks (now : Int) (call : c = .startVoiceCall now)
      (free : s.pendingVoiceCallTimestamp = none)
      (pending : t.pendingVoiceCallTimestamp = some (max 1 now))
      (accepted : t.voiceCallAccepted = s.voiceCallAccepted)
  | answered (b : Bytes) (message : Message Bytes) (reqTimestamp : Int) (call : c = .relay b)
      (received : s.received api b = some message)
      (union : message.union = some (.voiceCallResponse reqTimestamp true))
      (waiting : s.pendingVoiceCallTimestamp = some reqTimestamp)
      (pending : t.pendingVoiceCallTimestamp = none)
  | unverified (waiting : s.pendingVoiceCallTimestamp.isSome)
      (pending : t.pendingVoiceCallTimestamp = none)
      (accepted : t.voiceCallAccepted = s.voiceCallAccepted)

theorem idle_received_none {b : Bytes} (none : s.received api b = none)
    (idle : Idle s (s.onRelayBytes api config entropy b)) :
    Does api s (.relay b) (s.onRelayBytes api config entropy b) :=
  .idle (by simp [Session.voiceTells, none]) idle

/-- A voice call message is handled by the request that waits and the call that is up. -/
theorem does_union {b : Bytes} {message : Message Bytes} (keeps : Keeps s u)
    (received : s.received api b = some message) :
    Does api s (.relay b) (u.handleUnion api config entropy message.union) := by
  have tells : s.voiceTells api (.relay b) = s.unionTells message.union := by
    simp [Session.voiceTells, received]
  by_cases request : ∃ isConnect now, message.union = some (.voiceCallRequest isConnect now)
  · obtain ⟨isConnect, now, request⟩ := request
    rw [request] at tells ⊢
    simp only [Session.handleUnion, Session.dispatchVoiceCallRequest]
    split
    · exact .ends rfl rfl
    · next ignored =>
      rw [keeps.pending, keeps.accepted] at ignored
      exact .idle (by rw [tells, Session.unionTells, if_neg ignored]) (.inl keeps)
  by_cases response : ∃ reqTimestamp accepted,
      message.union = some (.voiceCallResponse reqTimestamp accepted)
  · obtain ⟨reqTimestamp, accepted, response⟩ := response
    rw [response] at tells ⊢
    simp only [Session.handleUnion, Session.dispatchVoiceCallResponse]
    split
    · next none =>
      have pending := keeps.pending.symm.trans none
      exact .idle (by rw [tells, Session.unionTells, pending]; rfl)
        (.inl ⟨pending.symm, keeps.accepted⟩)
    · next pending some =>
      have waiting := keeps.pending.symm.trans some
      split
      · exact .unverified (by rw [waiting]; rfl) rfl keeps.accepted
      · next same =>
        rw [not_not] at same
        subst same
        cases accepted with
        | false => exact .ends rfl rfl
        | true => exact .answered b message reqTimestamp rfl received response waiting rfl
  · refine .idle ?_ (keeps.idle (idle_handleUnion u message.union
      (fun isConnect now same => request ⟨isConnect, now, same⟩)
      fun now accepted same => response ⟨now, accepted, same⟩))
    rw [tells]
    unfold Session.unionTells
    split
    · next isConnect now same => exact absurd ⟨isConnect, now, same⟩ request
    · next now accepted same => exact absurd ⟨now, accepted, same⟩ response
    · rfl

theorem does_relay (s : Session Bytes) (b : Bytes) :
    Does api s (.relay b) (s.onRelayBytes api config entropy b) := by
  by_cases dead : s.dead
  · refine idle_received_none (if_pos dead) ?_
    rw [Session.onRelayBytes, if_pos dead]
    exact .inl (.refl s)
  cases keyed : s.cipher with
  | none =>
      refine idle_received_none (by simp [Session.received, keyed]) ?_
      simp only [Session.onRelayBytes, if_neg dead, keyed]
      exact idle_onFirstRelayFrame s b
  | some cipher =>
      have read : s.received api b =
          (cipher.open api b).2.toOption.bind fun plain => (api.decodeMessage plain).toOption := by
        simp [Session.received, dead, keyed]
      have counted (cipher : StreamCipher Bytes) : Keeps s { s with cipher := some cipher } := ⟨rfl, rfl⟩
      cases opened : (cipher.open api b).2 with
      | error e =>
          rw [opened] at read
          refine idle_received_none read ?_
          simp only [Session.onRelayBytes, if_neg dead, keyed, opened]
          exact (counted _).idle (idle_fail _ _)
      | ok plain =>
          rw [opened] at read
          cases decoded : api.decodeMessage plain with
          | error e =>
              have none : s.received api b = none := by simpa [decoded, Except.toOption] using read
              refine idle_received_none none ?_
              simp only [Session.onRelayBytes, if_neg dead, keyed, opened, decoded]
              exact (counted _).idle (idle_fail _ _)
          | ok message =>
              have got : s.received api b = some message := by
                simpa [decoded, Except.toOption] using read
              simp only [Session.onRelayBytes, if_neg dead, keyed, opened, decoded]
              exact does_union ((counted (cipher.open api b).1).trans ⟨rfl, rfl⟩) got

variable (api config serverEdPk entropy) in
/-- The specification of a call, for the voice call. -/
theorem does_call (s : Session Bytes) (c : Call Bytes) :
    Does api s c (Lifecycle.call api config serverEdPk entropy s c) := by
  cases c with
  | start => exact .idle rfl (idle_setState s _ _)
  | signaling b => exact .idle rfl (idle_onSignalingBytes s b)
  | relayOpened =>
      have asked : Keeps s
          { s with sentPlain := s.sentPlain ++ [buildRequestRelay api config s.uuid] } := ⟨rfl, rfl⟩
      exact .idle rfl (asked.idle (idle_setState _ .handshake none))
  | relay b => exact does_relay s b
  | loginHashed i =>
      refine .idle rfl (.inl ?_)
      simp only [Lifecycle.call, Session.loginHashed]
      split
      · exact .refl s
      · have taken : Keeps s { s with pendingLogins := s.pendingLogins.eraseIdx i } := ⟨rfl, rfl⟩
        exact taken.trans (keeps_sendLogin _ _)
  | send union => exact .idle rfl (.inl (keeps_sendMessage api s union))
  | setSupportedDecoding decoding =>
      refine .idle rfl (.inl ?_)
      simp only [Lifecycle.call, Session.setSupportedDecoding]
      have set : Keeps s { s with decoding } := ⟨rfl, rfl⟩
      split
      · exact set.trans (keeps_sendMisc api _ _)
      · exact set
  | switchDisplay index =>
      have asked : Keeps s { s with pendingDisplay := some index } := ⟨rfl, rfl⟩
      exact .idle rfl (.inl ((asked.trans (keeps_sendMisc api _ _)).trans (keeps_sendMisc api _ _)))
  | startVoiceCall now =>
      simp only [Lifecycle.call, Session.startVoiceCall]
      split
      · next waiting => exact .idle (if_pos waiting) (.inl (.refl s))
      · next free =>
        have sent := keeps_sendMessage api { s with pendingVoiceCallTimestamp := some (max 1 now) }
          (.voiceCallRequest true (max 1 now))
        exact .asks now rfl (Option.not_isSome_iff_eq_none.mp free) sent.pending sent.accepted
  | closeVoiceCall now =>
      have sent := keeps_sendMessage api
        { s with pendingVoiceCallTimestamp := none, voiceCallAccepted := false }
        (.voiceCallRequest false (max 1 now))
      exact .ends sent.pending sent.accepted
  | sendVoiceAudioFormat rate channels =>
      refine .idle rfl (.inl ?_)
      simp only [Lifecycle.call, Session.sendVoiceAudioFormat]
      split
      · exact .refl s
      · exact keeps_sendMisc api s _
  | sendVoiceAudioFrame buffered data =>
      refine .idle rfl (.inl ?_)
      simp only [Lifecycle.call, Session.sendVoiceAudioFrame]
      split
      · exact .refl s
      · split
        · exact .refl s
        · exact keeps_sendMessage api s _
  | disconnect =>
      refine .idle rfl ?_
      simp only [Lifecycle.call, Session.disconnect]
      split
      · exact (idle_setState s _ _).closeAll
      · exact Idle.closeAll (.inl (.refl s))

theorem after_append (calls more : List (Call Bytes)) :
    Runs.run (Lifecycle.call api config serverEdPk entropy)
        (after api config serverEdPk entropy decoding calls) more =
      after api config serverEdPk entropy decoding (calls ++ more) :=
  (Runs.run_append _ calls more).symm

theorem Waits.concat {calls : List (Call Bytes)} {now : Int} {c : Call Bytes}
    (h : Waits api config serverEdPk entropy decoding calls now)
    (silent : (after api config serverEdPk entropy decoding calls).voiceTells api c = none) :
    Waits api config serverEdPk entropy decoding (calls ++ [c]) now := by
  obtain ⟨before, later, rfl, asked, quiet⟩ := h
  refine ⟨before, later ++ [c], by simp, asked, ?_⟩
  refine (Runs.along_concat later c _).mpr ⟨quiet, ?_⟩
  rw [after_append]
  simpa using silent

theorem InCall.concat {calls : List (Call Bytes)} {c : Call Bytes}
    (h : InCall api config serverEdPk entropy decoding calls)
    (silent : (after api config serverEdPk entropy decoding calls).voiceTells api c = none) :
    InCall api config serverEdPk entropy decoding (calls ++ [c]) := by
  obtain ⟨before, later, b, now, message, rfl, waits, received, union, up⟩ := h
  refine ⟨before, later ++ [c], b, now, message, by simp, waits, received, union, ?_⟩
  refine (Runs.along_concat later c _).mpr ⟨up, ?_⟩
  rw [after_append, List.append_assoc, List.singleton_append, silent]
  simp

/-- What the two fields say of the calls that led to them. -/
structure Tracks (api : Api Bytes) (config : SessionConfig) (serverEdPk : Bytes)
    (entropy : Entropy Bytes) (decoding : Bytes) (calls : List (Call Bytes)) (s : Session Bytes) :
    Prop where
  waits : ∀ pending, s.pendingVoiceCallTimestamp = some pending →
    ∃ now, pending = max 1 now ∧ Waits api config serverEdPk entropy decoding calls now
  inCall : s.voiceCallAccepted = true → InCall api config serverEdPk entropy decoding calls
  apart : s.pendingVoiceCallTimestamp.isSome → s.voiceCallAccepted = false

theorem tracks_begin : Tracks api config serverEdPk entropy decoding []
    (Lifecycle.begin config decoding).session where
  waits _ waiting := by cases waiting
  inCall up := by cases up
  apart _ := rfl

theorem tracks_none {calls : List (Call Bytes)} (pending : s.pendingVoiceCallTimestamp = none)
    (accepted : s.voiceCallAccepted = false) :
    Tracks api config serverEdPk entropy decoding calls s where
  waits other waiting := by
    rw [pending] at waiting
    cases waiting
  inCall up := by
    rw [accepted] at up
    cases up
  apart _ := accepted

/-- A call that comes in order is tracked: a request finds no call up, so that no answer is needed
to end one. -/
theorem tracks_call {calls : List (Call Bytes)} {c : Call Bytes}
    (h : Tracks api config serverEdPk entropy decoding calls
      (after api config serverEdPk entropy decoding calls))
    (orderly : Orderly (after api config serverEdPk entropy decoding calls) c) :
    Tracks api config serverEdPk entropy decoding (calls ++ [c])
      (Lifecycle.call api config serverEdPk entropy
        (after api config serverEdPk entropy decoding calls) c) := by
  cases does_call api config serverEdPk entropy
      (after api config serverEdPk entropy decoding calls) c with
  | idle silent idle =>
      rcases idle with keeps | ⟨pending, accepted⟩
      · refine ⟨fun pending waiting => ?_, fun up => ?_, fun waiting => ?_⟩
        · obtain ⟨now, same, waits⟩ := h.waits pending (keeps.pending ▸ waiting)
          exact ⟨now, same, waits.concat silent⟩
        · exact (h.inCall (keeps.accepted ▸ up)).concat silent
        · rw [keeps.accepted]
          exact h.apart (keeps.pending ▸ waiting)
      · exact tracks_none pending accepted
  | ends pending accepted => exact tracks_none pending accepted
  | asks now call free pending accepted =>
      subst call
      have down := accepted.trans (orderly free)
      refine ⟨fun other waiting => ?_, fun up => ?_, fun _ => down⟩
      · rw [pending] at waiting
        refine ⟨now, (Option.some.inj waiting).symm, calls, [], rfl, ?_, trivial⟩
        simp [Session.voiceTells, free]
      · rw [down] at up
        cases up
  | answered b message reqTimestamp call received union waiting pending =>
      subst call
      obtain ⟨now, rfl, waits⟩ := h.waits reqTimestamp waiting
      refine ⟨fun other waiting => ?_, fun _ => ?_, fun waiting => ?_⟩
      · rw [pending] at waiting
        cases waiting
      · exact ⟨calls, [], b, now, message, rfl, waits, received, union, trivial⟩
      · rw [pending] at waiting
        cases waiting
  | unverified waiting pending accepted => exact tracks_none pending (accepted.trans (h.apart waiting))

/-- Audio and its format are sealed while a call is up. -/
theorem accepted_of_sealed {c : Call Bytes} (speaks : Speaks c)
    (sealed : (Lifecycle.call api config serverEdPk entropy s c).sealedOut ≠ s.sealedOut) :
    s.voiceCallAccepted = true := by
  by_contra down
  rw [Bool.not_eq_true] at down
  cases c with
  | sendVoiceAudioFormat rate channels =>
      exact sealed (by simp [Lifecycle.call, Session.sendVoiceAudioFormat, down])
  | sendVoiceAudioFrame buffered data =>
      exact sealed (by simp [Lifecycle.call, Session.sendVoiceAudioFrame, down])
  | _ => exact speaks

/-- In every run in which no request is made while a call is up, audio goes out in an accepted
call only. -/
theorem guarded_of_orderly (calls : List (Call Bytes))
    (orderly : Runs.Along (Lifecycle.call api config serverEdPk entropy) Orderly
      (Lifecycle.begin config decoding).session calls) :
    Guarded api config serverEdPk entropy decoding calls := by
  rintro before c later rfl speaks sealed
  have first := ((Runs.along_append before (c :: later) _).mp orderly).1
  have tracks := Runs.history_along (I := Tracks api config serverEdPk entropy decoding)
    (fun _ _ h orderly => tracks_call h orderly) tracks_begin before first
  exact tracks.inCall (accepted_of_sealed speaks sealed)

end

namespace Sample
open Channel.Sample

/-- The terms with the message of a login that succeeded, and of a call that was accepted. -/
def api : Api Blob :=
  { Blob.api with
    decodeMessage := fun
      | .octets [1, 1] => .ok ⟨some (.loginResponse (some (.peerInfo (.octets []))))⟩
      | .octets [2, 5] => .ok ⟨some (.voiceCallResponse 5 true)⟩
      | b => Blob.api.decodeMessage b }

/-- A call that is accepted. -/
def accepted : List (Call Blob) :=
  [.start, .signaling serverVouches, .relayOpened, .relay peerVouches,
    .relay (.secretbox (.octets [1, 1]) (buildNonce 1) (.octets [7])), .startVoiceCall 5,
    .relay (.secretbox (.octets [2, 5]) (buildNonce 2) (.octets [7]))]

end Sample

theorem accepted_guarded : Guarded Sample.api Channel.Sample.config (.edPk 0)
    Channel.Sample.entropy (.octets [])
    (Sample.accepted ++ [.sendVoiceAudioFormat 48000 1, .closeVoiceCall 6]) :=
  guarded_of_orderly _ (by decide +kernel)

theorem not_inCall_of_asked {Bytes : Type} {api : Api Bytes} {config : SessionConfig}
    {serverEdPk : Bytes} {entropy : Entropy Bytes} {decoding : Bytes} {calls : List (Call Bytes)}
    {now : Int}
    (asked : (after api config serverEdPk entropy decoding calls).voiceTells api
      (.startVoiceCall now) = some .waiting) :
    ¬ InCall api config serverEdPk entropy decoding (calls ++ [.startVoiceCall now]) := by
  rintro ⟨before, later, b, now', message, split, -, -, -, up⟩
  rcases List.eq_nil_or_concat later with rfl | ⟨middle, last, rfl⟩
  · have same := (List.append_inj' split rfl).2
    cases same
  · rw [List.concat_eq_append] at split up
    have cut : calls ++ [.startVoiceCall now] = (before ++ .relay b :: middle) ++ [last] := by
      simpa using split
    obtain ⟨rfl, same⟩ := List.append_inj' cut rfl
    obtain rfl := (List.cons.inj same).1
    have told := ((Runs.along_concat middle _ _).mp up).2.1
    rw [after_append, List.append_assoc, List.singleton_append] at told
    exact told asked

/-- A second request is made while the call is up, and audio goes out before it is answered. -/
theorem second_request_heard : ¬ Guarded Sample.api Channel.Sample.config (.edPk 0)
    Channel.Sample.entropy (.octets [])
    (Sample.accepted ++ [.startVoiceCall 9, .sendVoiceAudioFormat 48000 1]) := by
  intro guarded
  have inCall := guarded (Sample.accepted ++ [.startVoiceCall 9]) (.sendVoiceAudioFormat 48000 1) []
    (by simp) trivial fun same => absurd (congrArg List.length same) (by decide +kernel)
  exact not_inCall_of_asked (by decide +kernel) inCall

end VoiceCall
end WebClient
end CortenDesk
