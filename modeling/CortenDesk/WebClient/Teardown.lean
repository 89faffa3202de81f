import CortenDesk.WebClient.Integrity
import CortenDesk.WebClient.Worker

/-!
When the teardown of the worker is final: what `connect` and `openRelay` resume into after it,
and what they have obtained by then.
-/
namespace CortenDesk
namespace WebClient

namespace Session
section
variable {Bytes : Type} (api : Api Bytes) (config : SessionConfig) (serverEdPk : Bytes)
  (entropy : Entropy Bytes)

theorem state_fail (s : Session Bytes) (detail : String) : (s.fail detail).state = .error :=
  (Lifecycle.moves_fail s detail).state

theorem state_onSignalingBytes (s : Session Bytes) (b : Bytes) :
    (s.onSignalingBytes api config serverEdPk b).state =
      (s.signalingEmits api config serverEdPk b).getD s.state := by
  unfold onSignalingBytes signalingEmits
  by_cases dead : s.dead
  · rw [if_pos dead, if_pos dead]
    rfl
  rw [if_neg dead, if_neg dead]
  cases parseRendezvous api b with
  | error e => exact state_fail s _
  | ok response =>
      cases response with
      | relayResponse uuid server given =>
          cases given with
          | none => exact state_fail s _
          | some pk =>
              by_cases empty : api.length pk = 0
              · simp only [if_pos empty]
                exact state_fail s _
              · simp only [if_neg empty]
                cases verifyServerRelayPk api pk serverEdPk config.peerId with
                | error e => exact state_fail s _
                | ok key => exact (Lifecycle.moves_setState (s.trust key uuid) .relay none).state
      | punchHoleResponse failure =>
          cases failure with
          | none => rfl
          | some failure => exact state_fail s _
      | onlineResponse states => rfl
      | other => rfl

theorem state_onFirstRelayFrame (s : Session Bytes) (b : Bytes) :
    (s.onFirstRelayFrame api config entropy b).state =
      (s.firstEmits api config b).getD s.state := by
  unfold onFirstRelayFrame firstEmits
  cases api.decodeMessage b with
  | error e => exact state_fail s _
  | ok message =>
      rcases message with ⟨_ | union⟩
      · exact state_fail s _
      · cases union with
        | signedId signed =>
            simp only
            cases s.peerEdPk with
            | none => exact state_fail s _
            | some peerEdPk =>
                simp only
                cases verifyPeerSignedId api signed peerEdPk with
                | error e => exact state_fail s _
                | ok idPk =>
                    by_cases other : beforeNul idPk.id ≠ config.peerId
                    · simp only [if_pos other]
                      exact state_fail s _
                    · simp only [if_neg other, installCipher]
                      cases buildPublicKeyMessage api entropy idPk.pk <;> rfl
        | _ => exact state_fail s _

theorem leads_eq (state : SessionState) {union : Option (MessageUnion Bytes)}
    (other : ∀ salt challenge, union ≠ some (.hash salt challenge)) :
    Lifecycle.leads state union = (unionEmits union).getD state := by
  rcases union with _ | union
  · rfl
  cases union with
  | hash salt challenge => exact absurd rfl (other salt challenge)
  | loginResponse response =>
      rcases response with _ | (error | body)
      · rfl
      · by_cases accept : isManualAccept error <;> simp [Lifecycle.leads, unionEmits, accept]
      · rfl
  | misc misc =>
      rcases misc with _ | misc
      · rfl
      · cases misc <;> rfl
  | _ => rfl

theorem state_handleUnion (s : Session Bytes) (union : Option (MessageUnion Bytes)) :
    (s.handleUnion api config entropy union).state = (unionEmits union).getD s.state := by
  by_cases hash : ∃ salt challenge, union = some (.hash salt challenge)
  · obtain ⟨salt, challenge, rfl⟩ := hash
    rcases Lifecycle.dispatchHash_cases api config entropy s salt challenge with
      ⟨-, _, login⟩ | ⟨-, -, login⟩
    · exact login.state
    · exact login.state
  · have other (salt challenge : String) : union ≠ some (.hash salt challenge) :=
      fun same => hash ⟨salt, challenge, same⟩
    rw [(Lifecycle.moves_handleUnion api config entropy s union other).state]
    exact leads_eq s.state other

theorem state_onRelayBytes (s : Session Bytes) (b : Bytes) :
    (s.onRelayBytes api config entropy b).state = (s.relayEmits api config b).getD s.state := by
  unfold onRelayBytes relayEmits
  by_cases dead : s.dead
  · rw [if_pos dead, if_pos dead]
    rfl
  rw [if_neg dead, if_neg dead]
  cases s.cipher with
  | none => exact state_onFirstRelayFrame api config entropy s b
  | some cipher =>
      simp only
      cases (cipher.open api b).2 with
      | error e => exact state_fail _ _
      | ok plain =>
          simp only
          cases api.decodeMessage plain with
          | error e => exact state_fail _ _
          | ok message => exact state_handleUnion api config entropy _ message.union

/-- The session is in the state that it last emitted. -/
theorem state_call (s : Session Bytes) (c : Call Bytes) :
    (Lifecycle.call api config serverEdPk entropy s c).state =
      (s.emits api config serverEdPk c).getD s.state := by
  cases c with
  | start => exact (Lifecycle.moves_setState s .rendezvous none).state
  | signaling b => exact state_onSignalingBytes api config serverEdPk s b
  | relayOpened => exact (Lifecycle.moves_relayOpened api config s).state
  | relay b => exact state_onRelayBytes api config entropy s b
  | loginHashed i =>
      rcases Lifecycle.loginHashed_cases api config entropy s i with ⟨-, same⟩ | ⟨-, sent⟩
      · exact congrArg Session.state same
      · exact sent.state
  | send union => exact (Lifecycle.moves_sendMessage api s union).state
  | setSupportedDecoding decoding => exact (Lifecycle.moves_setSupportedDecoding api s decoding).state
  | switchDisplay index => exact (Lifecycle.moves_switchDisplay api s index).state
  | startVoiceCall now => exact (Lifecycle.moves_startVoiceCall api s now).state
  | closeVoiceCall now => exact (Lifecycle.moves_closeVoiceCall api s now).state
  | sendVoiceAudioFormat rate channels =>
      exact (Lifecycle.moves_sendVoiceAudioFormat api s rate channels).state
  | sendVoiceAudioFrame buffered data =>
      exact (Lifecycle.moves_sendVoiceAudioFrame api s buffered data).state
  | disconnect =>
      simp only [Lifecycle.call, emits, (Lifecycle.moves_disconnect s).state]
      by_cases closed : s.state = .closed <;> simp [closed]

end
end Session

namespace Worker
section
variable {Bytes : Type} {api : Api Bytes} {config : SessionConfig} {serverEdPk : Bytes}
  {entropy : Entropy Bytes} {decoding : Bytes} {w w' w'' : Worker Bytes}

/-- The run of a worker from its construction. -/
def run (api : Api Bytes) (config : SessionConfig) (serverEdPk : Bytes) (entropy : Entropy Bytes)
    (decoding : Bytes) (events : List (WorkerEvent Bytes)) : Worker Bytes :=
  Runs.run (step api config serverEdPk entropy decoding) {} events

/-- A promise that `connect` awaits. -/
def Awaits (w : Worker Bytes) : Prop := w.connect ≠ .notStarted ∧ w.connect ≠ .settled

instance Awaits.decidable (w : Worker Bytes) : Decidable w.Awaits :=
  inferInstanceAs (Decidable (_ ∧ _))

/-- No state is posted after a teardown, and once nothing is awaited nothing is open. -/
structure Final (api : Api Bytes) (config : SessionConfig) (serverEdPk : Bytes)
    (entropy : Entropy Bytes) (decoding : Bytes) (events : List (WorkerEvent Bytes)) : Prop where
  silent : ∀ before after, events = before ++ after →
    (run api config serverEdPk entropy decoding before).tornDown = true →
    (run api config serverEdPk entropy decoding events).posted =
      (run api config serverEdPk entropy decoding before).posted
  released : ∀ before after, events = before ++ after →
    let w := run api config serverEdPk entropy decoding before
    w.tornDown = true → ¬ w.Awaits → w.relays = 0 → w.transports.Drained ∧ w.pipelines.Drained

/-- An event that comes to a worker that is ready for it: what checks no flag comes before the
teardown, and the relay is opened once. -/
def Orderly (w : Worker Bytes) : WorkerEvent Bytes → Prop
  | .connect _ => w.tornDown = false
  | .disconnect => w.tornDown = true → ∀ s ∈ w.session, s.state = .closed
  | .probeResolved _ => w.connect = .probe → w.tornDown = false
  | .connectRejected => w.Awaits → w.tornDown = false
  | .relaySocketOpened => 0 < w.relays → w.tornDown = false → w.ws2 = none
  | .relaySocketRejected => 0 < w.relays → w.tornDown = false
  | _ => True

instance Orderly.decidable : ∀ (w : Worker Bytes) (e : WorkerEvent Bytes), Decidable (w.Orderly e)
  | _, .connect _ => inferInstanceAs (Decidable (_ = _))
  | _, .disconnect => inferInstanceAs (Decidable (_ → _))
  | _, .probeResolved _ => inferInstanceAs (Decidable (_ → _))
  | _, .connectRejected => inferInstanceAs (Decidable (_ → _))
  | _, .relaySocketOpened => inferInstanceAs (Decidable (_ → _ → _))
  | _, .relaySocketRejected => inferInstanceAs (Decidable (_ → _))
  | _, .control _ | _, .readyResolved | _, .idSocketOpened _ | _, .frame _ _ | _, .socketClosed _
  | _, .timeout => .isTrue trivial

/-- The transport that the worker holds for a role. -/
def transport (w : Worker Bytes) : Role → Option Nat
  | .id => w.ws1
  | .relay => w.ws2

def pipeline (w : Worker Bytes) : Media → Option Nat
  | .video => w.video
  | .audio => w.audio

/-- What is open is held for what it is, and a worker that was torn down holds nothing. -/
structure Held (w : Worker Bytes) : Prop where
  transports : ∀ i role, w.transports.opened? i = some role → w.transport role = some i
  pipelines : ∀ i media, w.pipelines.opened? i = some media → w.pipeline media = some i
  torn : w.tornDown = true → w.connectTimer = false ∧ w.ws1 = none ∧ w.ws2 = none ∧
    w.video = none ∧ w.audio = none
  early : w.connect ≠ .settled → w.ws1 = none
  unprobed : w.connect ≠ .settled → w.connect ≠ .idSocket → w.video = none ∧ w.audio = none

theorem held_begin : Held ({} : Worker Bytes) where
  transports i role opened := by cases opened
  pipelines i media opened := by cases opened
  torn torn := by cases torn
  early _ := rfl
  unprobed _ _ := ⟨rfl, rfl⟩

theorem Held.drained (h : Held w) (torn : w.tornDown = true) :
    w.transports.Drained ∧ w.pipelines.Drained := by
  obtain ⟨-, ws1, ws2, video, audio⟩ := h.torn torn
  rw [Pool.drained_iff, Pool.drained_iff]
  constructor
  · intro i
    cases opened : w.transports.opened? i with
    | none => rfl
    | some role =>
        have held := h.transports i role opened
        cases role <;> simp [transport, ws1, ws2] at held
  · intro i
    cases opened : w.pipelines.opened? i with
    | none => rfl
    | some media =>
        have held := h.pipelines i media opened
        cases media <;> simp [pipeline, video, audio] at held

theorem Held.post (h : Held w) (state : SessionState) : Held (w.post state) :=
  ⟨h.transports, h.pipelines, h.torn, h.early, h.unprobed⟩

theorem Held.clearConnectTimer (h : Held w) : Held w.clearConnectTimer :=
  ⟨h.transports, h.pipelines, fun torn => ⟨rfl, (h.torn torn).2⟩, h.early, h.unprobed⟩

theorem Held.emit (h : Held w) (state : SessionState) : Held (w.emit state) := by
  unfold Worker.emit
  split
  · exact h.clearConnectTimer.post state
  · exact h.post state

/-- The teardown closes what is held, and so what is open. -/
theorem Held.teardown (h : Held w) : Held w.teardown := by
  unfold Worker.teardown
  split
  · exact h
  · refine ⟨fun i role opened => ?_, fun i media opened => ?_, fun _ => ⟨rfl, rfl, rfl, rfl, rfl⟩,
      fun _ => rfl, fun _ _ => ⟨rfl, rfl⟩⟩
    · simp only [Pool.opened?_release] at opened
      obtain ⟨⟨opened, not1⟩, not2⟩ := opened
      have held := h.transports i role opened
      cases role with
      | id => exact absurd held not1
      | relay => exact absurd held not2
    · simp only [Pool.opened?_release] at opened
      obtain ⟨⟨opened, notVideo⟩, notAudio⟩ := opened
      have held := h.pipelines i media opened
      cases media with
      | video => exact absurd held notVideo
      | audio => exact absurd held notAudio

theorem Held.fail (h : Held w) : Held w.fail := (h.post .error).teardown

theorem Held.call (h : Held w) (c : Call Bytes) : Held (w.call api config serverEdPk entropy c) := by
  unfold Worker.call
  cases w.session with
  | none => exact h
  | some s =>
      have called (session : Option (Session Bytes)) : Held { w with session } :=
        ⟨h.transports, h.pipelines, h.torn, h.early, h.unprobed⟩
      have emitted (session : Option (Session Bytes)) (state : Option SessionState) :
          Held ((state.map { w with session }.emit).getD { w with session }) := by
        cases state with
        | none => exact called session
        | some state => exact (called session).emit state
      have awaited {v : Worker Bytes} (h : Held v) (relays : Nat) : Held { v with relays } :=
        ⟨h.transports, h.pipelines, h.torn, h.early, h.unprobed⟩
      simp only
      split
      · exact (awaited (emitted _ _) _).teardown
      · exact awaited (emitted _ _) _

theorem Held.handleControl (h : Held w) (c : Control Bytes) :
    Held (w.handleControl api config serverEdPk entropy c) := by
  cases c with
  | readvertise decoding =>
      simp only [Worker.handleControl]
      split
      · exact h.call _
      · exact h
  | _ => exact h.call _

theorem Held.readyResolved (h : Held w) : Held w.readyResolved := by
  unfold Worker.readyResolved
  split
  · next awaited =>
    have none := h.unprobed (by simp [awaited]) (by simp [awaited])
    have early := h.early (by simp [awaited])
    exact ⟨h.transports, h.pipelines, h.torn, fun _ => early, fun _ _ => none⟩
  · next awaited =>
    have early := h.early (by simp [awaited])
    exact ⟨h.transports, h.pipelines, h.torn, fun _ => early, fun _ other => absurd rfl other⟩
  · exact h

/-- The two pipelines are held, and there were none before. -/
theorem Held.probeResolved (h : Held w) (alive : w.connect = .probe → w.tornDown = false)
    (probe : Bytes) : Held (w.probeResolved probe) := by
  unfold Worker.probeResolved
  split
  · exact h
  · next awaited =>
    rw [not_not] at awaited
    have early := h.early (by simp [awaited])
    obtain ⟨video, audio⟩ := h.unprobed (by simp [awaited]) (by simp [awaited])
    refine ⟨h.transports, fun i media opened => ?_, fun torn => ?_, fun _ => early,
      fun _ other => absurd rfl other⟩
    · simp only [Pool.opened?_obtain] at opened
      rcases opened with (opened | ⟨rfl, rfl⟩) | ⟨rfl, rfl⟩
      · have held := h.pipelines i media opened
        cases media <;> simp [pipeline, video, audio] at held
      · rfl
      · rfl
    · rw [alive awaited] at torn
      cases torn

@[simp] theorem session_emit (w : Worker Bytes) (state : SessionState) :
    (w.emit state).session = w.session := by
  unfold emit
  split <;> rfl

@[simp] theorem tornDown_emit (w : Worker Bytes) (state : SessionState) :
    (w.emit state).tornDown = w.tornDown := by
  unfold emit
  split <;> rfl

variable (api config serverEdPk entropy) in
/-- A call that ends nothing. -/
theorem call_alive {s : Session Bytes} (c : Call Bytes) (hosted : w.session = some s)
    (alive : (Lifecycle.call api config serverEdPk entropy s c).tornDown = false) :
    (w.call api config serverEdPk entropy c).session =
        some (Lifecycle.call api config serverEdPk entropy s c) ∧
      (w.call api config serverEdPk entropy c).tornDown = w.tornDown := by
  simp only [Worker.call, hosted, alive]
  cases s.emits api config serverEdPk c with
  | none => exact ⟨rfl, rfl⟩
  | some state => simp

theorem Held.startSession (h : Held w) (alive : w.tornDown = false) (decoding : Bytes) :
    Held (w.startSession api config serverEdPk entropy decoding) := by
  have created (session : Option (Session Bytes)) : Held { w with session } :=
    ⟨h.transports, h.pipelines, h.torn, h.early, h.unprobed⟩
  have watched {v : Worker Bytes} (h : Held v) (alive : v.tornDown = false) :
      Held { v with connectTimer := true } :=
    ⟨h.transports, h.pipelines, fun torn => absurd (alive.symm.trans torn) (by simp), h.early, h.unprobed⟩
  have started {v : Worker Bytes} {s : Session Bytes} (h : Held v) (hosted : v.session = some s)
      (running : s.tornDown = false) (alive : v.tornDown = false) :
      Held (let v := v.call api config serverEdPk entropy .start
        if (v.session.map fun s => unwatched s.state).getD true then v
        else { v with connectTimer := true }) := by
    have same := call_alive api config serverEdPk entropy .start hosted running
    simp only
    split
    · exact h.call _
    · exact watched (h.call _) (same.2.trans alive)
  have told {v : Worker Bytes} (h : Held v)
      (hosted : v.session = some { decoding, password := config.password }) (probe : Option Bytes) :
      let v' := probe.elim v fun probe =>
        v.call api config serverEdPk entropy (.setSupportedDecoding probe)
      Held v' ∧ v'.tornDown = v.tornDown ∧ ∃ s, v'.session = some s ∧ s.tornDown = false := by
    cases probe with
    | none => exact ⟨h, rfl, _, hosted, rfl⟩
    | some probe =>
        have same := call_alive api config serverEdPk entropy (.setSupportedDecoding probe) hosted rfl
        exact ⟨h.call _, same.2, _, same.1, rfl⟩
  obtain ⟨h', same, s, hosted, running⟩ := told (created _) rfl w.probe
  exact started h' hosted running (same.trans alive)

theorem Held.idSocketOpened (h : Held w) (constructed : Bool) :
    Held (w.idSocketOpened api config serverEdPk entropy decoding constructed) := by
  unfold Worker.idSocketOpened
  split
  · exact h
  · next awaited =>
    rw [not_not] at awaited
    have none := h.early (by simp [awaited])
    simp only
    split
    · next torn =>
      refine ⟨fun i role opened => ?_, h.pipelines, fun _ => h.torn torn, fun _ => none,
        fun other _ => absurd rfl other⟩
      obtain ⟨opened, other⟩ := Pool.opened?_close.mp opened
      exact h.transports i role ((Pool.opened?_obtain.mp opened).resolve_right fun last => other last.1)
    · next torn =>
      have opened : Held { w with
          connect := .settled
          transports := w.transports.obtain .id
          ws1 := some w.transports.next } := by
        refine ⟨fun i role opened => ?_, h.pipelines, fun torn' => absurd torn' torn,
          fun other => absurd rfl other, fun other _ => absurd rfl other⟩
        rcases Pool.opened?_obtain.mp opened with opened | ⟨rfl, rfl⟩
        · have held := h.transports i role opened
          cases role with
          | id =>
              rw [transport, none] at held
              cases held
          | relay => exact held
        · rfl
      split
      · exact opened.startSession (Bool.eq_false_iff.mpr torn) decoding
      · exact opened.fail

theorem Held.connectRejected (h : Held w) : Held w.connectRejected := by
  have rejected : w.Awaits → Held { w with connect := .settled } := fun awaits =>
    ⟨h.transports, h.pipelines, h.torn, fun other => absurd rfl other, fun other _ => absurd rfl other⟩
  unfold Worker.connectRejected
  split
  · exact h
  · exact h
  · next begun ended => exact (rejected ⟨begun, ended⟩).fail

/-- A relay socket takes the place of none. -/
theorem Held.relaySocketOpened (h : Held w) (single : 0 < w.relays → w.tornDown = false → w.ws2 = none) :
    Held (w.relaySocketOpened api config serverEdPk entropy) := by
  unfold Worker.relaySocketOpened
  split
  · exact h
  · next awaited =>
    simp only
    split
    · next torn =>
      refine ⟨fun i role opened => ?_, h.pipelines, fun _ => h.torn torn, h.early, h.unprobed⟩
      obtain ⟨opened, other⟩ := Pool.opened?_close.mp opened
      exact h.transports i role ((Pool.opened?_obtain.mp opened).resolve_right fun last => other last.1)
    · next torn =>
      have none := single (Nat.pos_of_ne_zero awaited) (Bool.eq_false_iff.mpr torn)
      have opened : Held { w with
          relays := w.relays - 1
          transports := w.transports.obtain .relay
          ws2 := some w.transports.next } := by
        refine ⟨fun i role opened => ?_, h.pipelines, fun torn' => absurd torn' torn, h.early, h.unprobed⟩
        rcases Pool.opened?_obtain.mp opened with opened | ⟨rfl, rfl⟩
        · have held := h.transports i role opened
          cases role with
          | id => exact held
          | relay =>
              rw [transport, none] at held
              cases held
        · rfl
      exact opened.call _

theorem Held.relaySocketRejected (h : Held w) : Held w.relaySocketRejected := by
  have rejected (relays : Nat) : Held { w with relays } :=
    ⟨h.transports, h.pipelines, h.torn, h.early, h.unprobed⟩
  unfold Worker.relaySocketRejected
  split
  · exact h
  · exact (rejected _).fail

theorem Held.onMessage (h : Held w) (i : Nat) (b : Bytes) :
    Held (w.onMessage api config serverEdPk entropy i b) := by
  unfold Worker.onMessage
  split
  · exact h.call _
  · exact h.call _
  · exact h

theorem Held.timeout (h : Held w) : Held w.timeout := by
  unfold Worker.timeout
  split
  · exact h
  · simp only
    split
    · split
      · exact h.clearConnectTimer
      · exact h.clearConnectTimer.fail
    · exact h.clearConnectTimer

/-- The id server's socket is closed and let go of. -/
theorem Held.socketClosed (h : Held w) (i : Nat) : Held (w.socketClosed i) := by
  have closed : Held { w with transports := w.transports.close i } :=
    ⟨fun j role opened => h.transports j role (Pool.opened?_close.mp opened).1, h.pipelines, h.torn,
      h.early, h.unprobed⟩
  simp only [Worker.socketClosed]
  split
  · next opened =>
    simp only [Worker.onIdSocketClosed]
    split
    · exact closed
    · next alive =>
      split
      · have failed := closed.fail
        have torn : ({ w with transports := w.transports.close i } : Worker Bytes).fail.tornDown = true := by
          unfold Worker.fail Worker.teardown
          split
          · assumption
          · rfl
        obtain ⟨timer, -, rest⟩ := failed.torn torn
        refine ⟨fun j role opened => ?_, failed.pipelines, fun _ => ⟨timer, rfl, rest⟩, fun _ => rfl,
          failed.unprobed⟩
        rw [Pool.drained_iff.mp (failed.drained torn).1 j] at opened
        cases opened
      · refine ⟨fun j role stays => ?_, h.pipelines, fun torn => absurd torn alive, fun _ => rfl,
          h.unprobed⟩
        obtain ⟨stays, other⟩ := Pool.opened?_close.mp stays
        have held := h.transports j role stays
        cases role with
        | id =>
            have same := (h.transports i .id opened).symm.trans held
            exact absurd (Option.some.inj same).symm other
        | relay => exact held
  · simp only [Worker.onSocketClosed]
    split
    · exact closed
    · split
      · exact (closed.post .error).teardown
      · exact closed.teardown
  · exact h

theorem Held.step (h : Held w) {e : WorkerEvent Bytes} (orderly : w.Orderly e) :
    Held (w.step api config serverEdPk entropy decoding e) := by
  cases e with
  | connect canvas =>
      simp only [Worker.step, Worker.handleConnect]
      split
      · exact h.post .error
      · next fresh =>
        rw [not_not] at fresh
        have early := h.early (by simp [fresh])
        have unprobed := h.unprobed (by simp [fresh]) (by simp [fresh])
        exact ⟨h.transports, h.pipelines, h.torn, fun _ => early, fun _ _ => unprobed⟩
  | disconnect => exact (h.call .disconnect).teardown
  | control c => exact h.handleControl c
  | readyResolved => exact h.readyResolved
  | probeResolved probe => exact h.probeResolved orderly probe
  | idSocketOpened constructed => exact h.idSocketOpened constructed
  | connectRejected => exact h.connectRejected
  | relaySocketOpened => exact h.relaySocketOpened orderly
  | relaySocketRejected => exact h.relaySocketRejected
  | frame i b => exact h.onMessage i b
  | socketClosed i => exact h.socketClosed i
  | timeout => exact h.timeout

/-- A worker that was torn down stays so and posts nothing. -/
def Quiet (w w' : Worker Bytes) : Prop :=
  w.tornDown = true → w'.tornDown = true ∧ w'.posted = w.posted

theorem Quiet.refl (w : Worker Bytes) : Quiet w w := fun torn => ⟨torn, rfl⟩

theorem Quiet.trans (h : Quiet w w') (h' : Quiet w' w'') : Quiet w w'' := by
  intro torn
  obtain ⟨torn', same⟩ := h torn
  obtain ⟨torn'', same'⟩ := h' torn'
  exact ⟨torn'', same'.trans same⟩

theorem quiet_teardown (w : Worker Bytes) : Quiet w w.teardown := by
  intro torn
  rw [Worker.teardown, if_pos torn]
  exact ⟨torn, rfl⟩

theorem quiet_of_alive (alive : w.tornDown = false) : Quiet w w' :=
  fun torn => absurd (alive.symm.trans torn) (by simp)

/-- A call that emits nothing, of whatever session there is. -/
theorem quiet_call {c : Call Bytes}
    (silent : ∀ s ∈ w.session, s.emits api config serverEdPk c = none) :
    Quiet w (w.call api config serverEdPk entropy c) := by
  intro torn
  unfold Worker.call
  cases hosted : w.session with
  | none => exact ⟨torn, rfl⟩
  | some s =>
      simp only [silent s hosted, Option.map_none, Option.getD_none]
      split
      · exact quiet_teardown _ torn
      · exact ⟨torn, rfl⟩

theorem quiet_handleControl (c : Control Bytes) :
    Quiet w (w.handleControl api config serverEdPk entropy c) := by
  cases c with
  | readvertise decoding =>
      simp only [Worker.handleControl]
      split
      · exact quiet_call fun _ _ => rfl
      · exact .refl w
  | _ => exact quiet_call fun _ _ => rfl

/-- After the teardown no transport is open to deliver or close, and the watchdog is off. -/
theorem quiet_step (h : Held w) {e : WorkerEvent Bytes} (orderly : w.Orderly e) :
    Quiet w (w.step api config serverEdPk entropy decoding e) := by
  intro torn
  have none (i : Nat) := Pool.drained_iff.mp (h.drained torn).1 i
  cases e with
  | connect canvas => exact quiet_of_alive orderly torn
  | disconnect =>
      refine (quiet_call fun s hosted => ?_).trans (quiet_teardown _) torn
      simp [Session.emits, orderly torn s hosted]
  | control c => exact quiet_handleControl c torn
  | readyResolved =>
      simp only [Worker.step, Worker.readyResolved]
      split <;> exact ⟨torn, rfl⟩
  | probeResolved probe =>
      simp only [Worker.step, Worker.probeResolved]
      split <;> exact ⟨torn, rfl⟩
  | idSocketOpened constructed =>
      simp only [Worker.step, Worker.idSocketOpened, torn, if_true]
      split
      · exact ⟨torn, rfl⟩
      · exact ⟨rfl, rfl⟩
  | connectRejected =>
      simp only [Worker.step, Worker.connectRejected]
      split
      · exact ⟨torn, rfl⟩
      · exact ⟨torn, rfl⟩
      · next begun ended => exact quiet_of_alive (orderly ⟨begun, ended⟩) torn
  | relaySocketOpened =>
      simp only [Worker.step, Worker.relaySocketOpened, torn, if_true]
      split
      · exact ⟨torn, rfl⟩
      · exact ⟨rfl, rfl⟩
  | relaySocketRejected =>
      simp only [Worker.step, Worker.relaySocketRejected]
      split
      · exact ⟨torn, rfl⟩
      · next awaited => exact quiet_of_alive (orderly (Nat.pos_of_ne_zero awaited)) torn
  | frame i b =>
      simp only [Worker.step, Worker.onMessage, none i]
      exact ⟨torn, trivial⟩
  | socketClosed i =>
      simp only [Worker.step, Worker.socketClosed, none i]
      exact ⟨torn, trivial⟩
  | timeout =>
      simp only [Worker.step, Worker.timeout, (h.torn torn).1]
      exact ⟨torn, rfl⟩

theorem held_run (events : List (WorkerEvent Bytes))
    (orderly : Runs.Along (step api config serverEdPk entropy decoding) Orderly {} events) :
    Held (run api config serverEdPk entropy decoding events) :=
  Runs.invariant_along (fun _ _ h orderly => h.step orderly) events _ held_begin orderly

theorem quiet_run (events : List (WorkerEvent Bytes)) (h : Held w)
    (orderly : Runs.Along (step api config serverEdPk entropy decoding) Orderly w events) :
    Quiet w (Runs.run (step api config serverEdPk entropy decoding) w events) := by
  refine Runs.related_along Quiet.refl (fun _ _ _ => Quiet.trans)
    (fun (v : Worker Bytes) e (quiet : Quiet v (step api config serverEdPk entropy decoding v e)) => quiet)
    events w ?_
  exact Runs.Along.of_invariant (fun _ _ h orderly => h.step orderly)
    (fun _ _ h orderly => quiet_step h orderly) events w h orderly

/-- In every run whose events come in order the teardown is final. -/
theorem final_of_orderly (events : List (WorkerEvent Bytes))
    (orderly : Runs.Along (step api config serverEdPk entropy decoding) Orderly {} events) :
    Final api config serverEdPk entropy decoding events := by
  constructor
  · rintro before after rfl torn
    obtain ⟨first, later⟩ := (Runs.along_append before after _).mp orderly
    have quiet := quiet_run after (held_run before first) later
    rw [run, Runs.run_append]
    exact (quiet torn).2
  · rintro before after rfl w torn - -
    have first := ((Runs.along_append before after _).mp orderly).1
    exact (held_run before first).drained torn

end

namespace Sample
open Channel.Sample

/-- A connection with a canvas that gets to its relay and is ended. -/
def ended : List (WorkerEvent Blob) :=
  [.connect true, .readyResolved, .probeResolved (.octets [9]), .idSocketOpened true,
    .frame 0 serverVouches, .relaySocketOpened, .disconnect]

/-- The connection is ended while it waits for the libraries. -/
def early : List (WorkerEvent Blob) :=
  [.connect true, .disconnect, .readyResolved, .probeResolved (.octets [9]), .idSocketOpened true]

end Sample

theorem ended_final :
    Final Blob.api Channel.Sample.config (.edPk 0) Channel.Sample.entropy (.octets []) Sample.ended :=
  final_of_orderly Sample.ended (by decide +kernel)

/-- What is created after the teardown stays open. -/
theorem early_disconnect_leaks : ¬ Final Blob.api Channel.Sample.config (.edPk 0)
    Channel.Sample.entropy (.octets []) Sample.early := by
  intro final
  have released := final.released Sample.early [] (by simp) (by decide +kernel) (by decide +kernel)
    (by decide +kernel)
  exact absurd released.2 (by decide +kernel)

end Worker
end WebClient
end CortenDesk
