import CortenDesk.WebClient.Integrity
import CortenDesk.WebClient.Lifecycle

/-!
When the life of a session goes one way: each call decides it from the phase it comes in.
-/
namespace CortenDesk
namespace WebClient
namespace Lifecycle
section
variable {Bytes : Type} {api : Api Bytes} {config : SessionConfig} {serverEdPk : Bytes}
  {entropy : Entropy Bytes} {s t u : Session Bytes} {state : SessionState} {n : Nat}

theorem Sane.moves (sane : Sane config ⟨s, n⟩) (h : Moves s t state)
    (streams : state = .streaming → s.cipher.isSome) : Sane config ⟨t, n⟩ where
  keyed := by
    rw [h.cipher, h.peerEdPk]
    exact sane.keyed
  streams := by
    rw [h.state, h.cipher]
    exact streams
  opened := by
    rw [h.peerEdPk, h.opening]
    exact sane.opened
  told := by
    rw [h.loginSent]
    exact sane.told
  sent := by
    rw [h.loginSent]
    exact sane.sent
  cleared := by
    rw [h.password, h.pendingLogins]
    exact sane.cleared

theorem Moves.oneWay_iff (h : Moves s t state) : OneWay s t ↔
    (s.state = .streaming → state = .streaming ∨ state = .error ∨ state = .closed) ∧
      (s.dead → state = s.state) := by
  rw [OneWay, Session.dead, h.state]

theorem Moves.bounded_iff (h : Moves s t state) : Bounded ⟨t, n⟩ ↔ Bounded ⟨s, n⟩ := by
  constructor
  · exact fun b => ⟨h.opening ▸ b.relays, h.pendingLogins ▸ b.credentials⟩
  · exact fun b => ⟨h.opening.symm ▸ b.relays, h.pendingLogins.symm ▸ b.credentials⟩

theorem oneWay_of_same (h : t.state = s.state) : OneWay s t :=
  ⟨fun streaming => .inl (h.trans streaming), fun _ => h⟩

/-- What one call does to a life, and when that is in order. -/
structure Decides (config : SessionConfig) (s : Session Bytes) (n : Nat) (w : Life Bytes)
    (inOrder : Prop) : Prop where
  sane : Sane config w
  iff : Bounded ⟨s, n⟩ → (OneWay s w.session ∧ Bounded w ↔ inOrder)

/-- A call that keeps the state is always in order. -/
theorem decides_steady (sane : Sane config ⟨s, n⟩) (h : Moves s t s.state) :
    Decides config s n ⟨t, n⟩ True where
  sane := sane.moves h sane.streams
  iff bounded := iff_of_true ⟨oneWay_of_same h.state, h.bounded_iff.mpr bounded⟩ trivial

theorem decides_moves (sane : Sane config ⟨s, n⟩) (h : Moves s t state)
    (streams : state = .streaming → s.cipher.isSome) : Decides config s n ⟨t, n⟩
      ((s.state = .streaming → state = .streaming ∨ state = .error ∨ state = .closed) ∧
        (s.dead → state = s.state)) where
  sane := sane.moves h streams
  iff bounded := by
    rw [h.oneWay_iff, h.bounded_iff]
    exact and_iff_left bounded

theorem Decides.congr {w : Life Bytes} {p q : Prop} (h : Decides config s n w p) (same : p ↔ q) :
    Decides config s n w q :=
  ⟨h.sane, fun bounded => (h.iff bounded).trans same⟩

/-- A phase that a public call begins anew. -/
theorem decides_phase (sane : Sane config ⟨s, n⟩) (h : Moves s t state)
    (early : state ≠ .streaming ∧ state ≠ .error ∧ state ≠ .closed) :
    Decides config s n ⟨t, n⟩ (s.state ≠ .streaming ∧ ¬ s.dead) := by
  refine (decides_moves sane h fun streaming => absurd streaming early.1).congr ?_
  constructor
  · rintro ⟨streaming, dead⟩
    refine ⟨fun at_ => ?_, fun ended => ?_⟩
    · rcases streaming at_ with h | h | h
      · exact early.1 h
      · exact early.2.1 h
      · exact early.2.2 h
    · have same := dead ended
      rcases ended with at_ | at_
      · exact early.2.1 (same.trans at_)
      · exact early.2.2 (same.trans at_)
  · rintro ⟨streaming, dead⟩
    exact ⟨fun at_ => absurd at_ streaming, fun ended => absurd ended dead⟩

theorem decides_disconnect (sane : Sane config ⟨s, n⟩) :
    Decides config s n ⟨s.disconnect, n⟩ (s.state ≠ .error) := by
  refine (decides_moves sane (moves_disconnect s) (by simp)).congr ?_
  constructor
  · rintro ⟨-, dead⟩ failed
    have same := dead (.inl failed)
    rw [failed] at same
    cases same
  · intro running
    refine ⟨fun _ => .inr (.inr rfl), fun ended => ?_⟩
    rcases ended with failed | closed
    · exact absurd failed running
    · exact closed.symm

theorem decides_signaling (api : Api Bytes) (serverEdPk : Bytes) (sane : Sane config ⟨s, n⟩) (b : Bytes) :
    Decides config s n ⟨s.onSignalingBytes api config serverEdPk b, n⟩
      (¬ s.dead → Trusts api config serverEdPk b → s.peerEdPk = none) := by
  by_cases dead : s.dead
  · simp only [Session.onSignalingBytes, if_pos dead]
    exact (decides_steady sane (.refl s)).congr (iff_of_true trivial fun alive => absurd dead alive)
  rcases onSignalingBytes_cases api config serverEdPk dead b with
    ⟨trusted, key, h⟩ | ⟨untrusted, state, same | failed, h⟩
  · refine ⟨⟨?_, ?_, ?_, ?_, ?_, ?_⟩, fun bounded => ?_⟩
    · exact fun _ => by rw [h.peerEdPk]; rfl
    · rw [h.state]
      intro streaming
      cases streaming
    · rw [h.peerEdPk, h.opening]
      simp
    · rw [h.loginSent]
      exact sane.told
    · rw [h.loginSent]
      exact sane.sent
    · rw [h.password, h.pendingLogins]
      exact sane.cleared
    · constructor
      · rintro ⟨-, after⟩ - -
        have relays := after.relays
        simp only [h.opening] at relays
        exact sane.opened.mpr (by simpa using relays)
      · intro first
        have fresh := first dead trusted
        refine ⟨⟨fun streaming => ?_, fun ended => absurd ended dead⟩, ⟨?_, ?_⟩⟩
        · have keyed := sane.keyed (sane.streams streaming)
          rw [fresh] at keyed
          cases keyed
        · have none : s.opening = 0 := sane.opened.mp fresh
          simp only [h.opening]
          omega
        · simp only [h.pendingLogins]
          exact bounded.credentials
  · subst same
    exact (decides_steady sane h).congr (iff_of_true trivial fun _ trusted => absurd trusted untrusted)
  · subst failed
    refine (decides_moves sane h (by simp)).congr (iff_of_true ?_ fun _ trusted => absurd trusted untrusted)
    exact ⟨fun _ => .inr (.inl rfl), fun ended => absurd ended dead⟩

theorem decides_first (api : Api Bytes) (entropy : Entropy Bytes) (sane : Sane config ⟨s, n⟩)
    (alive : ¬ s.dead) (unkeyed : s.cipher = none) (b : Bytes) :
    Decides config s n ⟨s.onFirstRelayFrame api config entropy b, n⟩ True := by
  have early : s.state ≠ .streaming := by
    intro streaming
    have keyed := sane.streams streaming
    rw [unkeyed] at keyed
    cases keyed
  rcases onFirstRelayFrame_cases api config entropy s b with
    ⟨trusted, cipher, h⟩ | ⟨state, same | failed, h⟩
  · refine ⟨⟨?_, fun _ => ?_, ?_, ?_, ?_, ?_⟩, fun bounded => ?_⟩
    · exact fun _ => by rwa [h.peerEdPk]
    · rw [h.cipher]
      rfl
    · rw [h.peerEdPk, h.opening]
      exact sane.opened
    · rw [h.loginSent]
      exact sane.told
    · rw [h.loginSent]
      exact sane.sent
    · rw [h.password, h.pendingLogins]
      exact sane.cleared
    · exact iff_of_true ⟨oneWay_of_same h.state,
        h.bounded_iff.mpr ⟨bounded.relays, bounded.credentials⟩⟩ trivial
  · subst same
    exact decides_steady sane h
  · subst failed
    refine (decides_moves sane h (by simp)).congr (iff_of_true ?_ trivial)
    exact ⟨fun streaming => absurd streaming early, fun ended => absurd ended alive⟩

/-- A hash is in order before streaming, and once if there is a saved credential. -/
theorem decides_hash (api : Api Bytes) (entropy : Entropy Bytes) (sane : Sane config ⟨s, n⟩)
    (alive : ¬ s.dead) (salt challenge : String) :
    Decides config s n ⟨s.dispatchHash api config entropy salt challenge, n⟩
      (Timely config s (some (.hash salt challenge))) := by
  have oneWay {t : Session Bytes} (login : t.state = .login) : OneWay s t ↔ s.state ≠ .streaming := by
    simp only [OneWay, Session.dead, login]
    constructor
    · rintro ⟨streaming, -⟩ at_
      simpa using streaming at_
    · exact fun early => ⟨fun at_ => absurd at_ early, fun ended => absurd ended alive⟩
  rcases dispatchHash_cases api config entropy s salt challenge with
    ⟨credential, hash, h⟩ | ⟨unsaved, empty, h⟩
  · refine ⟨⟨?_, ?_, ?_, ?_, ?_, ?_⟩, fun bounded => ?_⟩
    · rw [h.cipher, h.peerEdPk]
      exact sane.keyed
    · rw [h.state]
      intro streaming
      cases streaming
    · rw [h.peerEdPk, h.opening]
      exact sane.opened
    · rw [h.loginSent]
      exact sane.told
    · rw [h.loginSent]
      exact sane.sent
    · rw [h.password]
      exact fun spent => absurd rfl spent
    · have added : Bounded ⟨s.dispatchHash api config entropy salt challenge, n⟩ ↔
          n = 0 ∧ s.pendingLogins = [] := by
        rw [h.bounded_iff, ← List.length_eq_zero_iff]
        constructor
        · intro after
          have credentials := after.credentials
          simp only [List.length_append, List.length_singleton] at credentials
          omega
        · rintro ⟨rfl, none⟩
          refine ⟨bounded.relays, ?_⟩
          simp only [List.length_append, List.length_singleton]
          omega
      rw [oneWay h.state, added, Timely]
      refine and_congr_right fun _ => ?_
      constructor
      · rintro ⟨none, empty⟩ given
        refine ⟨Bool.eq_false_iff.mpr fun told => ?_, empty⟩
        exact absurd (sane.sent given told) (by simp [none])
      · intro fresh
        by_cases given : (saved config).isSome
        · obtain ⟨untold, empty⟩ := fresh given
          refine ⟨Nat.eq_zero_of_not_pos fun spent => ?_, empty⟩
          rw [sane.told spent] at untold
          cases untold
        · exact sane.cleared (credential.resolve_left given)
  · refine ⟨⟨?_, ?_, ?_, ?_, ?_, ?_⟩, fun bounded => ?_⟩
    · rw [h.cipher, h.peerEdPk]
      exact sane.keyed
    · rw [h.state]
      intro streaming
      cases streaming
    · rw [h.peerEdPk, h.opening]
      exact sane.opened
    · exact fun _ => h.loginSent
    · rw [unsaved]
      intro given
      cases given
    · rw [h.password]
      exact fun spent => absurd rfl spent
    · rw [oneWay h.state, Timely, unsaved]
      refine and_congr_right fun _ => ?_
      exact iff_of_true (h.bounded_iff.mpr ⟨bounded.relays, bounded.credentials⟩)
        (fun given => by cases given)

theorem timely_iff_leads {union : Option (MessageUnion Bytes)}
    (other : ∀ salt challenge, union ≠ some (.hash salt challenge)) : Timely config s union ↔
      (s.state = .streaming → leads s.state union = .streaming ∨ leads s.state union = .error ∨
        leads s.state union = .closed) := by
  cases union with
  | none => exact iff_of_true trivial .inl
  | some union =>
      cases union with
      | hash salt challenge => exact absurd rfl (other salt challenge)
      | loginResponse response =>
          cases response with
          | none => exact iff_of_true trivial .inl
          | some response =>
              cases response with
              | peerInfo body => exact iff_of_true trivial fun _ => .inl rfl
              | error error =>
                  by_cases accept : isManualAccept error
                  · simp [Timely, leads, accept]
                  · simp +contextual [Timely, leads, accept]
      | misc misc =>
          cases misc with
          | none => exact iff_of_true trivial .inl
          | some misc =>
              cases misc with
              | closeReason reason => exact iff_of_true trivial fun _ => .inr (.inr rfl)
              | _ => exact iff_of_true trivial .inl
      | _ => exact iff_of_true trivial .inl

/-- Streaming is reached under a cipher. -/
theorem decides_union (api : Api Bytes) (entropy : Entropy Bytes) (sane : Sane config ⟨s, n⟩)
    (alive : ¬ s.dead) (keyed : s.cipher.isSome) (union : Option (MessageUnion Bytes)) :
    Decides config s n ⟨s.handleUnion api config entropy union, n⟩ (Timely config s union) := by
  by_cases hash : ∃ salt challenge, union = some (.hash salt challenge)
  · obtain ⟨salt, challenge, rfl⟩ := hash
    exact decides_hash api entropy sane alive salt challenge
  · have other (salt challenge : String) : union ≠ some (.hash salt challenge) :=
      fun same => hash ⟨salt, challenge, same⟩
    refine (decides_moves sane (moves_handleUnion api config entropy s union other)
      fun _ => keyed).congr ?_
    rw [timely_iff_leads other]
    exact and_iff_left fun ended => absurd ended alive

theorem Decides.after {w : Life Bytes} {p : Prop} (h : Decides config u n w p) (moved : Moves s u s.state) :
    Decides config s n w p where
  sane := h.sane
  iff bounded := by
    have same : OneWay u w.session ↔ OneWay s w.session := by
      rw [OneWay, OneWay, Session.dead, Session.dead, moved.state]
      rfl
    rw [← same]
    exact h.iff (moved.bounded_iff.mpr bounded)

theorem timely_congr (moved : Moves s u s.state) (union : Option (MessageUnion Bytes)) :
    Timely config u union ↔ Timely config s union := by
  unfold Timely
  rw [moved.state, moved.loginSent, moved.pendingLogins]

theorem decides_relay (api : Api Bytes) (entropy : Entropy Bytes) (sane : Sane config ⟨s, n⟩)
    (b : Bytes) : Decides config s n ⟨s.onRelayBytes api config entropy b, n⟩
      (¬ s.dead → ∀ cipher message, s.cipher = some cipher → Opens api cipher b message →
        Timely config s message.union) := by
  by_cases dead : s.dead
  · simp only [Session.onRelayBytes, if_pos dead]
    exact (decides_steady sane (.refl s)).congr (iff_of_true trivial fun alive => absurd dead alive)
  cases keyed : s.cipher with
  | none =>
      simp only [Session.onRelayBytes, if_neg dead, keyed]
      refine (decides_first api entropy sane dead keyed b).congr (iff_of_true trivial ?_)
      intro _ cipher message other
      cases other
  | some cipher =>
      rcases onRelayBytes_cases api config entropy dead keyed b with
        ⟨closed, h⟩ | ⟨message, u, opens, moved, handled⟩
      · refine (decides_moves sane h (by simp)).congr (iff_of_true ?_ ?_)
        · exact ⟨fun _ => .inr (.inl rfl), fun ended => absurd ended dead⟩
        · rintro - cipher' message same opens
          obtain rfl := Option.some.inj same
          exact absurd opens (closed message)
      · have alive : ¬ u.dead := by rwa [Session.dead, moved.state]
        have decided := decides_union api entropy (sane.moves moved sane.streams) alive
          (by rw [moved.cipher, keyed]; rfl) message.union
        rw [← handled] at decided
        refine (decided.after moved).congr ((timely_congr moved message.union).trans ?_)
        constructor
        · rintro timely - cipher' message' same ⟨plain', opened', decoded'⟩
          obtain rfl := Option.some.inj same
          obtain ⟨plain, opened, decoded⟩ := opens
          rw [opened] at opened'
          obtain rfl := Except.ok.inj opened'
          rw [decoded] at decoded'
          obtain rfl := Except.ok.inj decoded'
          exact timely
        · exact fun every => every dead cipher message rfl opens

theorem decides_loginHashed (api : Api Bytes) (entropy : Entropy Bytes) (sane : Sane config ⟨s, n⟩)
    (i : Nat) : Decides config s n ⟨s.loginHashed api config entropy i,
      n + credentials s (.loginHashed i)⟩ True := by
  rcases loginHashed_cases api config entropy s i with ⟨none, same⟩ | ⟨some, h⟩
  · rw [same, credentials, none]
    exact decides_steady sane (.refl s)
  · obtain ⟨hash, awaited⟩ := Option.isSome_iff_exists.mp some
    have here := (List.getElem?_eq_some_iff.mp awaited).1
    rw [credentials, if_pos some]
    refine ⟨⟨?_, ?_, ?_, ?_, ?_, ?_⟩, fun bounded => ?_⟩
    · rw [h.cipher, h.peerEdPk]
      exact sane.keyed
    · rw [h.state, h.cipher]
      exact sane.streams
    · rw [h.peerEdPk, h.opening]
      exact sane.opened
    · exact fun _ => h.loginSent
    · exact fun _ _ => Nat.succ_pos n
    · rw [h.password]
      intro unspent
      rw [(sane.cleared unspent).2] at here
      cases here
    · refine iff_of_true ⟨oneWay_of_same h.state, ⟨?_, ?_⟩⟩ trivial
      · simpa only [h.opening] using bounded.relays
      · have credentials := bounded.credentials
        simp only [h.pendingLogins, List.length_eraseIdx, if_pos here] at credentials ⊢
        omega

/-- One call, on any session: what stays sane, and when the life goes one way. -/
theorem step_decides (api : Api Bytes) (config : SessionConfig) (serverEdPk : Bytes)
    (entropy : Entropy Bytes) (w : Life Bytes) (sane : Sane config w) (c : Call Bytes) :
    Decides config w.session w.credentials (step api config serverEdPk entropy w c)
      (InOrder api config serverEdPk w.session c) := by
  cases c with
  | start => exact decides_phase sane (moves_setState _ _ _) (by decide)
  | signaling b => exact decides_signaling api serverEdPk sane b
  | relayOpened => exact decides_phase sane (moves_relayOpened api config _) (by decide)
  | relay b => exact decides_relay api entropy sane b
  | loginHashed i => exact decides_loginHashed api entropy sane i
  | send union => exact decides_steady sane (moves_sendMessage api _ union)
  | setSupportedDecoding decoding =>
      exact decides_steady sane (moves_setSupportedDecoding api _ decoding)
  | switchDisplay index => exact decides_steady sane (moves_switchDisplay api _ index)
  | startVoiceCall now => exact decides_steady sane (moves_startVoiceCall api _ now)
  | closeVoiceCall now => exact decides_steady sane (moves_closeVoiceCall api _ now)
  | sendVoiceAudioFormat rate channels =>
      exact decides_steady sane (moves_sendVoiceAudioFormat api _ rate channels)
  | sendVoiceAudioFrame buffered data =>
      exact decides_steady sane (moves_sendVoiceAudioFrame api _ buffered data)
  | disconnect => exact decides_disconnect sane

theorem sane_begin (config : SessionConfig) (decoding : Bytes) :
    Sane config (begin config decoding) where
  keyed keyed := by cases keyed
  streams streaming := by cases streaming
  opened := iff_of_true rfl rfl
  told spent := absurd spent (Nat.lt_irrefl 0)
  sent _ told := by cases told
  cleared _ := ⟨rfl, rfl⟩

theorem bounded_begin (config : SessionConfig) (decoding : Bytes) :
    Bounded (begin config decoding) :=
  ⟨Nat.zero_le 1, Nat.zero_le 1⟩

theorem OneWay.refl (s : Session Bytes) : OneWay s s := oneWay_of_same rfl

theorem OneWay.trans (h : OneWay s t) (h' : OneWay t u) : OneWay s u := by
  constructor
  · intro streaming
    rcases h.1 streaming with still | ended
    · exact h'.1 still
    · right
      rwa [Session.dead, h'.2 ended]
  · intro ended
    have same := h.2 ended
    have dead : t.dead := by rwa [Session.dead, same]
    exact (h'.2 dead).trans same

/-- The life so far has gone one way, in the state after a run as in every state before it. -/
structure Lived (api : Api Bytes) (config : SessionConfig) (serverEdPk : Bytes)
    (entropy : Entropy Bytes) (w : Life Bytes) (calls : List (Call Bytes)) : Prop where
  oneWay : ∀ before between after, calls = before ++ between ++ after →
    OneWay (Runs.run (step api config serverEdPk entropy) w before).session
      (Runs.run (step api config serverEdPk entropy) w (before ++ between)).session
  bounded : ∀ before after, calls = before ++ after →
    Bounded (Runs.run (step api config serverEdPk entropy) w before)

/-- A life goes one way exactly as long as its calls come in order. -/
theorem lived_iff (api : Api Bytes) (config : SessionConfig) (serverEdPk : Bytes)
    (entropy : Entropy Bytes) (decoding : Bytes) (calls : List (Call Bytes)) :
    Lived api config serverEdPk entropy (begin config decoding) calls ↔
      Runs.Along (step api config serverEdPk entropy)
        (fun w c => InOrder api config serverEdPk w.session c) (begin config decoding) calls := by
  have sane (run : List (Call Bytes)) :
      Sane config (Runs.run (step api config serverEdPk entropy) (begin config decoding) run) :=
    Runs.invariant (fun w c h => (step_decides api config serverEdPk entropy w h c).sane) _ run (sane_begin config decoding)
  constructor
  · intro lived
    refine (Runs.along_iff_split calls _).mpr fun before c after split => ?_
    refine ((step_decides api config serverEdPk entropy _ (sane before) c).iff
      (lived.bounded before (c :: after) split)).mp ?_
    have cut : calls = before ++ [c] ++ after := by simp [split]
    have oneWay := lived.oneWay before [c] after cut
    have bounded := lived.bounded (before ++ [c]) after cut
    rw [Runs.run_concat] at oneWay bounded
    exact ⟨oneWay, bounded⟩
  · intro ordered
    have steps : Runs.Along (step api config serverEdPk entropy)
        (fun w c => OneWay w.session (step api config serverEdPk entropy w c).session ∧
          Bounded (step api config serverEdPk entropy w c)) (begin config decoding) calls := by
      refine Runs.Along.of_invariant (I := fun w => Sane config w ∧ Bounded w) ?_ ?_ calls _
        ⟨sane_begin config decoding, bounded_begin config decoding⟩ ordered
      · rintro w c ⟨h, bounded⟩ inOrder
        have decided := step_decides api config serverEdPk entropy w h c
        exact ⟨decided.sane, ((decided.iff bounded).mpr inOrder).2⟩
      · rintro w c ⟨h, bounded⟩ inOrder
        exact ((step_decides api config serverEdPk entropy w h c).iff bounded).mpr inOrder
    have at_ := (Runs.along_iff_split calls _).mp steps
    constructor
    · intro before between after split
      rw [Runs.run_append]
      refine Runs.related_along (R := fun w w' : Life Bytes => OneWay w.session w'.session)
        (fun w => .refl w.session) (fun _ _ _ h h' => h.trans h') (fun _ _ h => h) between _ ?_
      refine (Runs.along_iff_split between _).mpr fun b c a cut => ?_
      rw [← Runs.run_append]
      exact (at_ (before ++ b) c (a ++ after) (by simp [split, cut])).1
    · intro before after split
      rcases List.eq_nil_or_concat before with rfl | ⟨front, c, rfl⟩
      · exact bounded_begin config decoding
      · rw [List.concat_eq_append, Runs.run_concat]
        exact (at_ front c after (by simp [split])).2

end

namespace Sample
open Channel.Sample

/-- The terms with the message of a login that succeeded. -/
def api : Api Blob :=
  { Blob.api with
    decodeMessage := fun
      | .octets [1, 1] => .ok ⟨some (.loginResponse (some (.peerInfo (.octets []))))⟩
      | b => Blob.api.decodeMessage b }

def begun : Life Blob := begin config (.octets [])

def run (calls : List (Call Blob)) : Session Blob :=
  (Runs.run (step api config (.edPk 0) entropy) begun calls).session

/-- The calls of a connection up to its stream. -/
def connected : List (Call Blob) :=
  [.start, .signaling serverVouches, .relayOpened, .relay peerVouches,
    .relay (.secretbox (.octets [1, 1]) (buildNonce 1) (.octets [7]))]

end Sample

/-- The server's relay response comes a second time, and the stream is a relay to open again. -/
theorem repeated_response_reopens :
    ¬ Lived Sample.api Channel.Sample.config (.edPk 0) Channel.Sample.entropy Sample.begun
      (Sample.connected ++ [.signaling Channel.Sample.serverVouches]) := by
  intro lived
  have oneWay := lived.oneWay Sample.connected [.signaling Channel.Sample.serverVouches] [] rfl
  have streaming : (Sample.run Sample.connected).state = .streaming := by decide +kernel
  have reopened : (Sample.run (Sample.connected ++
      [.signaling Channel.Sample.serverVouches])).state = .relay := by decide +kernel
  rcases oneWay.1 streaming with still | failed | closed
  · exact absurd (reopened.symm.trans still) (by decide)
  · exact absurd (reopened.symm.trans failed) (by decide)
  · exact absurd (reopened.symm.trans closed) (by decide)

end Lifecycle
end WebClient
end CortenDesk
