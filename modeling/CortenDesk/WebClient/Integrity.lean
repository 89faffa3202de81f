import CortenDesk.WebClient.Channel
import CortenDesk.WebClient.Terms

/-!
Integrity of the channel. Nothing is sealed or dispatched before both trust links are
verified. The invariant ties both counters to the logs: the message dispatched at
position `i` came in a box with the nonce of `i + 1`, as did the message each holder
sealed there. Both directions share the key and the numbering, so a reflected frame
passes for the peer's; what it cannot do is change a message's position.
-/
namespace CortenDesk
namespace WebClient
namespace Channel
section
variable {Bytes : Type} (api : Api Bytes) (config : SessionConfig) (serverEdPk : Bytes)
  (entropy : Entropy Bytes)

structure Started (w : World Bytes) : Prop where
  torn : w.session.dead → w.session.tornDown = true
  unkeyed : w.session.cipher = none →
    w.session.sealedOut = [] ∧ w.session.dispatched = [] ∧ w.peerSealed = []

theorem start_started (decoding : Bytes) : Started (start config decoding) where
  torn h := absurd h (setState_dead (by decide))
  unkeyed _ := ⟨rfl, rfl, rfl⟩

theorem Replies.started {api : Api Bytes} {s t : Session Bytes} {log : List (Sealed Bytes)}
    (replies : Replies api s t) (h : Started ⟨s, log⟩) : Started ⟨t, log⟩ where
  torn := replies.torn h.torn
  unkeyed hc := by
    have still : s.cipher = none := replies.unkeyed_iff.mp hc
    obtain ⟨noneSealed, noneDispatched, noneFromPeer⟩ := h.unkeyed still
    exact ⟨(replies.silent still).trans noneSealed, replies.dispatched.trans noneDispatched,
      noneFromPeer⟩

theorem sessionStep_started {s : Session Bytes} {log : List (Sealed Bytes)}
    (h : Started ⟨s, log⟩) (event : ChannelEvent Bytes) :
    Started ⟨sessionStep api config serverEdPk entropy s event, log⟩ := by
  rcases sessionStep_cases api config serverEdPk entropy h.torn event with
    replies | ⟨b, key, _, _, _, replies⟩ | ⟨f, key, bytes, _, _, _, _, installs⟩ |
    ⟨b, cipher, rfl, keyed, alive⟩
  · exact replies.started h
  · exact replies.started ⟨h.torn, h.unkeyed⟩
  · rw [installs]
    exact ⟨h.torn, fun hc => by cases hc⟩
  · obtain ⟨torn, _, stillKeyed⟩ := onRelayBytes_frame api config entropy alive keyed b
    refine ⟨torn, fun hc => ?_⟩
    have unkeyed : (s.onRelayBytes api config entropy b).cipher = none := hc
    rw [unkeyed] at stillKeyed
    cases stillKeyed

theorem step_started {w : World Bytes} (h : Started w) (event : ChannelEvent Bytes) :
    Started (step api config serverEdPk entropy w event) := by
  cases event with
  | peerSeals plain =>
      simp only [step, peerSeals]
      split
      · exact h
      · next cipher keyed => exact ⟨h.torn, fun hc => by rw [keyed] at hc; cases hc⟩
  | _ => exact sessionStep_started api config serverEdPk entropy h _

theorem run_started (decoding : Bytes) (events : List (ChannelEvent Bytes)) :
    Started (Runs.run (step api config serverEdPk entropy) (start config decoding) events) := by
  have preserved (w : World Bytes) (event : ChannelEvent Bytes) (h : Started w) :
      Started (step api config serverEdPk entropy w event) :=
    step_started api config serverEdPk entropy h event
  exact Runs.invariant preserved _ events (start_started config decoding)

/-- A key is trusted only after the server vouched for it. -/
theorem trusts_only_vouched (decoding : Bytes) (events : List (ChannelEvent Bytes)) :
    ∀ key, (Runs.run (step api config serverEdPk entropy)
        (start config decoding) events).session.peerEdPk = some key →
      ∃ before b between, events = before ++ .signaling b :: between ∧
        ServerVouches api config serverEdPk b key := by
  induction events using List.reverseRecOn with
  | nil =>
      intro key h
      simp [start, Session.start, Session.setState] at h
  | append_singleton events event ih =>
      intro key
      rw [Runs.run_concat, step_session]
      have earlier (h : (Runs.run (step api config serverEdPk entropy)
          (start config decoding) events).session.peerEdPk = some key) :
          ∃ before b between, events ++ [event] = before ++ .signaling b :: between ∧
            ServerVouches api config serverEdPk b key := by
        obtain ⟨before, b, between, split, vouched⟩ := ih key h
        exact ⟨before, b, between ++ [event], by simp [split], vouched⟩
      have started := run_started api config serverEdPk entropy decoding events
      rcases sessionStep_cases api config serverEdPk entropy started.torn event with
        replies | ⟨b, trusted, rfl, vouched, now, _⟩ | ⟨f, trusted, bytes, _, _, _, _, installs⟩ |
        ⟨b, cipher, rfl, keyed, alive⟩
      · rw [replies.peerEdPk]
        exact earlier
      · rw [now]
        rintro ⟨⟩
        exact ⟨events, b, [], rfl, vouched⟩
      · rw [installs]
        exact earlier
      · rw [sessionStep, (onRelayBytes_frame api config entropy alive keyed b).2.1]
        exact earlier

/-- The cipher is installed only after both trust links were verified, and what was sealed
or dispatched came after. -/
theorem installs_after_trust (decoding : Bytes) (events : List (ChannelEvent Bytes)) :
    (Runs.run (step api config serverEdPk entropy)
        (start config decoding) events).session.cipher ≠ none →
      TrustFirst api config serverEdPk entropy decoding events := by
  induction events using List.reverseRecOn with
  | nil => exact fun h => absurd rfl h
  | append_singleton events event ih =>
      rw [Runs.run_concat, step_session]
      have started := run_started api config serverEdPk entropy decoding events
      by_cases unkeyed : (Runs.run (step api config serverEdPk entropy)
          (start config decoding) events).session.cipher = none
      · rcases sessionStep_cases api config serverEdPk entropy started.torn event with
          replies | ⟨b, trusted, rfl, _, _, replies⟩ |
          ⟨f, key, bytes, rfl, _, trusted, vouched, installs⟩ | ⟨b, cipher, rfl, keyed, _⟩
        · exact fun h => absurd (replies.unkeyed_iff.mpr unkeyed) h
        · exact fun h => absurd (replies.unkeyed_iff.mpr unkeyed) h
        · intro _
          obtain ⟨before, b, between, split, uuid, relayServer, pk, parsed, verified⟩ :=
            trusts_only_vouched api config serverEdPk entropy decoding events key trusted
          obtain ⟨signed, idPk, decoded, signedByPeer, named⟩ := vouched
          obtain ⟨noneSealed, noneDispatched, _⟩ := started.unkeyed unkeyed
          subst split
          refine ⟨before, b, between, f, [], uuid, relayServer, pk, key, signed, idPk, rfl, parsed,
            verified, decoded, signedByPeer, named, ?_⟩
          dsimp only
          rw [Runs.run_concat, step_session, installs]
          exact ⟨noneSealed, noneDispatched⟩
        · rw [keyed] at unkeyed
          cases unkeyed
      · intro _
        obtain ⟨before, b, between, f, rest, uuid, relayServer, pk, key, signed, idPk, split,
          verified⟩ := ih unkeyed
        exact ⟨before, b, between, f, rest ++ [event], uuid, relayServer, pk, key, signed, idPk,
          by simp [split], verified⟩

theorem mod_pow_eq_of_digits {base a b : Nat} :
    ∀ n, (∀ i < n, a / base ^ i % base = b / base ^ i % base) → a % base ^ n = b % base ^ n
  | 0, _ => by simp [Nat.mod_one]
  | n + 1, digits => by
      have lower := mod_pow_eq_of_digits n fun i hi => digits i (Nat.lt_succ_of_lt hi)
      rw [Nat.mod_pow_succ, Nat.mod_pow_succ, lower, digits n (Nat.lt_succ_self n)]

/-- The nonce holds the sequence number modulo `2 ^ 64`. -/
theorem mod_eq_of_buildNonce_eq {a b : Nat} (h : buildNonce a = buildNonce b) :
    a % 2 ^ 64 = b % 2 ^ 64 := by
  have bytes := (List.append_inj h (by simp)).1
  have digits (i : Nat) (hi : i < 8) : a / 256 ^ i % 256 = b / 256 ^ i % 256 := by
    have byte := List.map_inj_left.mp bytes i (List.mem_range.mpr hi)
    simpa using congrArg UInt8.toNat byte
  have width : 2 ^ 64 = 256 ^ 8 := by decide
  rw [width]
  exact mod_pow_eq_of_digits 8 digits

theorem sequence_record_short {s : Session Bytes} {frame : Bytes} {message : Message Bytes}
    (short : api.length frame ≤ 1) (empty : message.union = none) :
    sequence api (s.record frame message) = sequence api s := by
  simp [sequence, Session.record, short, empty]

theorem sequence_record_long {s : Session Bytes} {frame : Bytes} (message : Message Bytes)
    (long : ¬ api.length frame ≤ 1) :
    sequence api (s.record frame message) = sequence api s ++ [⟨frame, message⟩] := by
  simp [sequence, Session.record, long]

/-- The dispatched message at position `i` came in a box of a source, sealed under the
nonce of `i + 1`. -/
def Came (reflects : Bool) (w : World Bytes) (key : Bytes) (i : Nat) (d : Dispatch Bytes) : Prop :=
  ∃ plain, d.frame = api.cryptoSecretboxEasy plain (buildNonce (i + 1)) key ∧
    api.decodeMessage plain = .ok d.message ∧ ∃ sealed ∈ sources reflects w, sealed.frame = d.frame

structure Logged (reflects : Bool) (w : World Bytes) : Prop where
  seals : SealsInOrder api w.session
  peer : ∀ cipher, w.session.cipher = some cipher → Numbered api cipher.key w.peerSealed
  came : ∀ cipher, w.session.cipher = some cipher → ∀ i d,
    (sequence api w.session)[i]? = some d → Came api reflects w cipher.key i d

/-- The receive counter of a session that has not ended counts what it dispatched. -/
def Received (s : Session Bytes) : Prop :=
  ∀ cipher, s.cipher = some cipher → ¬ s.dead → cipher.recvSeq = (sequence api s).length

theorem Came.mono {api : Api Bytes} {reflects : Bool} {w w' : World Bytes} {key : Bytes} {i : Nat}
    {d : Dispatch Bytes} (h : Came api reflects w key i d)
    (kept : sources reflects w ⊆ sources reflects w') : Came api reflects w' key i d := by
  obtain ⟨plain, box, decoded, sealed, mem, same⟩ := h
  exact ⟨plain, box, decoded, sealed, kept mem, same⟩

theorem sources_mono {reflects : Bool} {s t : Session Bytes} {log log' : List (Sealed Bytes)}
    (own : s.sealedOut ⊆ t.sealedOut) (peer : log ⊆ log') :
    sources reflects ⟨s, log⟩ ⊆ sources reflects ⟨t, log'⟩ := by
  cases reflects with
  | false => exact peer
  | true =>
      exact List.append_subset.mpr ⟨List.subset_append_of_subset_left _ own,
        List.subset_append_of_subset_right _ peer⟩

namespace Replies
variable {api : Api Bytes} {s t : Session Bytes} {log : List (Sealed Bytes)}

theorem keyed (replies : Replies api s t) {cipher : StreamCipher Bytes}
    (h : t.cipher = some cipher) :
    ∃ before, s.cipher = some before ∧ before.key = cipher.key ∧
      before.recvSeq = cipher.recvSeq := by
  have opened := replies.opened.symm
  rw [h] at opened
  obtain ⟨before, hb, same⟩ := Option.map_eq_some_iff.mp opened
  exact ⟨before, hb, congrArg Prod.fst same, congrArg Prod.snd same⟩

theorem sequence_eq (replies : Replies api s t) : sequence api t = sequence api s := by
  rw [sequence, sequence, replies.dispatched]

theorem logged (replies : Replies api s t) {reflects : Bool}
    (h : Logged api reflects ⟨s, log⟩) : Logged api reflects ⟨t, log⟩ where
  seals := replies.inOrder h.seals
  peer cipher hc := by
    obtain ⟨before, hb, sameKey, _⟩ := replies.keyed hc
    exact sameKey ▸ h.peer before hb
  came cipher hc i d hd := by
    obtain ⟨before, hb, sameKey, _⟩ := replies.keyed hc
    rw [replies.sequence_eq] at hd
    exact (sameKey ▸ h.came before hb i d hd).mono (sources_mono replies.kept (fun _ hs => hs))

theorem received (replies : Replies api s t) (h : Received api s) : Received api t := by
  intro cipher hc alive
  obtain ⟨before, hb, _, sameSeq⟩ := replies.keyed hc
  rw [replies.sequence_eq, ← sameSeq]
  exact h before hb (mt replies.stays alive)

end Replies

/-- A counted frame changes no log. -/
theorem Logged.counting {api : Api Bytes} {reflects : Bool} {s : Session Bytes}
    {log : List (Sealed Bytes)} (h : Logged api reflects ⟨s, log⟩) {cipher : StreamCipher Bytes}
    (keyed : s.cipher = some cipher) : Logged api reflects ⟨counting s cipher, log⟩ := by
  refine ⟨⟨?_, ?_⟩, ?_, ?_⟩ <;> intro c hc <;> obtain rfl := Option.some.inj hc
  · exact h.seals.counted cipher keyed
  · exact h.seals.numbered cipher keyed
  · exact h.peer cipher keyed
  · exact h.came cipher keyed

theorem Logged.record_short {api : Api Bytes} {reflects : Bool} {s : Session Bytes}
    {log : List (Sealed Bytes)} (h : Logged api reflects ⟨s, log⟩) {frame : Bytes}
    {message : Message Bytes} (short : api.length frame ≤ 1) (empty : message.union = none) :
    Logged api reflects ⟨s.record frame message, log⟩ where
  seals := ⟨h.seals.counted, h.seals.numbered⟩
  peer := h.peer
  came cipher hc i d hd := by
    rw [sequence_record_short api short empty] at hd
    exact h.came cipher hc i d hd

/-- A frame that opens under the next nonce takes the next position. -/
theorem Logged.record_long {api : Api Bytes} (ideal : api.IdealSecretbox) {reflects : Bool}
    {s : Session Bytes} {log : List (Sealed Bytes)} (h : Logged api reflects ⟨s, log⟩)
    (received : Received api s) (alive : ¬ s.dead) {cipher : StreamCipher Bytes}
    (keyed : s.cipher = some cipher) {frame plain : Bytes} {message : Message Bytes}
    (long : ¬ api.length frame ≤ 1)
    (opened : api.cryptoSecretboxOpenEasy frame (buildNonce (cipher.recvSeq + 1)) cipher.key =
      .ok plain)
    (decoded : api.decodeMessage plain = .ok message)
    (delivered : ∃ sealed ∈ sources reflects ⟨s, log⟩, sealed.frame = frame) :
    Logged api reflects ⟨(Channel.counting s cipher).record frame message, log⟩ where
  seals := ⟨(h.counting keyed).seals.counted, (h.counting keyed).seals.numbered⟩
  peer := (h.counting keyed).peer
  came c hc i d hd := by
    obtain rfl := Option.some.inj hc
    have same : sequence api (Channel.counting s cipher) = sequence api s := rfl
    rw [sequence_record_long api message long, same] at hd
    rcases Nat.lt_or_ge i (sequence api s).length with old | new
    · rw [List.getElem?_append_left old] at hd
      exact (h.counting keyed).came _ rfl i d hd
    · rw [List.getElem?_append_right new, List.getElem?_singleton] at hd
      split at hd
      · next last =>
        obtain rfl := Option.some.inj hd
        have position : i = cipher.recvSeq := by
          have count := received cipher keyed alive
          omega
        rw [position]
        exact ⟨plain, ideal.sealed _ _ _ _ opened, decoded, delivered⟩
      · cases hd

/-- The invariant of a run. -/
structure Sound (reflects : Bool) (w : World Bytes) : Prop where
  started : Started w
  logged : Logged api reflects w
  received : Received api w.session

theorem start_sound (reflects : Bool) (decoding : Bytes) :
    Sound api reflects (start config decoding) where
  started := start_started config decoding
  logged := by refine ⟨⟨?_, ?_⟩, ?_, ?_⟩ <;> intro _ h <;> cases h
  received _ h := by cases h

theorem Sound.replies {api : Api Bytes} {reflects : Bool} {s t : Session Bytes}
    {log : List (Sealed Bytes)} (h : Sound api reflects ⟨s, log⟩) (replies : Replies api s t) :
    Sound api reflects ⟨t, log⟩ :=
  ⟨replies.started h.started, replies.logged h.logged, replies.received h.received⟩

theorem Sound.relay {api : Api Bytes} (ideal : api.IdealSecretbox) (short : api.ShortFramesEmpty)
    {reflects : Bool} {s : Session Bytes} {log : List (Sealed Bytes)}
    (h : Sound api reflects ⟨s, log⟩) (alive : ¬ s.dead) {cipher : StreamCipher Bytes}
    (keyed : s.cipher = some cipher) {b : Bytes}
    (delivers : Delivers api reflects ⟨s, log⟩ (.relay b)) :
    Sound api reflects ⟨s.onRelayBytes api config entropy b, log⟩ := by
  have started : Started ⟨s.onRelayBytes api config entropy b, log⟩ := by
    obtain ⟨torn, _, stillKeyed⟩ := onRelayBytes_frame api config entropy alive keyed b
    refine ⟨torn, fun hc => ?_⟩
    have unkeyed : (s.onRelayBytes api config entropy b).cipher = none := hc
    simp [unkeyed] at stillKeyed
  rcases onRelayBytes_cases api config entropy alive keyed b with
    ⟨tiny, replies | ⟨message, decoded, replies⟩⟩ | ⟨_, dead, replies⟩ |
    ⟨long, plain, message, opened, decoded, replies⟩
  · exact h.replies replies
  · have empty := short b message tiny decoded
    refine ⟨started, replies.logged (h.logged.record_short tiny empty), replies.received ?_⟩
    intro c hc going
    rw [sequence_record_short api tiny empty]
    exact h.received c hc going
  · exact ⟨started, replies.logged (h.logged.counting keyed), fun _ _ going => absurd dead going⟩
  · have delivered : ∃ sealed ∈ sources reflects ⟨s, log⟩, sealed.frame = b :=
      delivers b cipher plain _ rfl keyed (ideal.sealed _ _ _ _ opened)
    refine ⟨started, replies.logged (h.logged.record_long ideal h.received alive keyed long opened
      decoded delivered), replies.received ?_⟩
    intro c hc _
    obtain rfl := Option.some.inj hc
    rw [sequence_record_long api message long, List.length_append]
    exact congrArg (· + 1) (h.received cipher keyed alive)

theorem Sound.peerSeals {api : Api Bytes} {reflects : Bool} {w : World Bytes}
    (h : Sound api reflects w) (plain : Bytes) : Sound api reflects (peerSeals api w plain) := by
  cases keyed : w.session.cipher with
  | none => simpa only [Channel.peerSeals, keyed] using h
  | some cipher =>
      simp only [Channel.peerSeals, keyed, StreamCipher.seal]
      refine ⟨⟨h.started.torn, fun hc => ?_⟩, ⟨h.logged.seals, ?_, ?_⟩, h.received⟩
      · rw [keyed] at hc
        cases hc
      · intro c hc
        obtain rfl := Option.some.inj (keyed.symm.trans hc)
        exact (h.logged.peer cipher keyed).concat plain
      · intro c hc i d hd
        exact (h.logged.came c hc i d hd).mono
          (sources_mono (fun _ hs => hs) (List.subset_append_left _ _))

theorem step_sound (ideal : api.IdealSecretbox) (short : api.ShortFramesEmpty) {reflects : Bool}
    {w : World Bytes} {event : ChannelEvent Bytes} (h : Sound api reflects w)
    (delivers : Delivers api reflects w event) :
    Sound api reflects (step api config serverEdPk entropy w event) := by
  by_cases peer : ∃ plain, event = .peerSeals plain
  · obtain ⟨plain, rfl⟩ := peer
    exact h.peerSeals plain
  have own : step api config serverEdPk entropy w event =
      ⟨sessionStep api config serverEdPk entropy w.session event, w.peerSealed⟩ := by
    cases event with
    | peerSeals plain => exact absurd ⟨plain, rfl⟩ peer
    | _ => rfl
  rw [own]
  rcases sessionStep_cases api config serverEdPk entropy h.started.torn event with
    replies | ⟨b, key, _, _, _, replies⟩ | ⟨f, key, bytes, _, unkeyed, _, _, installs⟩ |
    ⟨b, cipher, rfl, keyed, alive⟩
  · exact h.replies replies
  · have trusting : Sound api reflects
        ⟨{ w.session with peerEdPk := some key }, w.peerSealed⟩ :=
      ⟨⟨h.started.torn, h.started.unkeyed⟩,
        ⟨⟨h.logged.seals.counted, h.logged.seals.numbered⟩, h.logged.peer, h.logged.came⟩,
        h.received⟩
    exact trusting.replies replies
  · obtain ⟨noneSealed, noneDispatched, nonePeer⟩ := h.started.unkeyed unkeyed
    have none : sequence api (Channel.keyed entropy w.session bytes) = [] := by
      simp [sequence, Channel.keyed, noneDispatched]
    rw [installs, nonePeer]
    refine ⟨⟨h.started.torn, fun hc => by cases hc⟩, ⟨⟨?_, ?_⟩, ?_, ?_⟩, ?_⟩ <;> intro c hc
    · obtain rfl := Option.some.inj hc
      simp [Channel.keyed, noneSealed]
    · intro i sealed hi
      simp [Channel.keyed, noneSealed] at hi
    · intro i sealed hi
      simp at hi
    · intro i d hd
      rw [none] at hd
      simp at hd
    · obtain rfl := Option.some.inj hc
      simp [none]
  · exact h.relay config entropy ideal short alive keyed delivers

theorem run_sound (ideal : api.IdealSecretbox) (short : api.ShortFramesEmpty) {reflects : Bool}
    (decoding : Bytes) (events : List (ChannelEvent Bytes))
    (delivers : Runs.Along (step api config serverEdPk entropy) (Delivers api reflects)
      (start config decoding) events) :
    Sound api reflects
      (Runs.run (step api config serverEdPk entropy) (start config decoding) events) := by
  have preserved (w : World Bytes) (event : ChannelEvent Bytes) (h : Sound api reflects w)
      (hd : Delivers api reflects w event) :
      Sound api reflects (step api config serverEdPk entropy w event) :=
    step_sound api config serverEdPk entropy ideal short h hd
  exact Runs.invariant_along preserved events _ (start_sound api config reflects decoding) delivers

theorem sealed_at {api : Api Bytes} (ideal : api.IdealSecretbox) {key : Bytes}
    {log : List (Sealed Bytes)} (numbered : Numbered api key log) {sealed : Sealed Bytes}
    (mem : sealed ∈ log) {plain frame : Bytes} {i : Nat} (same : sealed.frame = frame)
    (box : frame = api.cryptoSecretboxEasy plain (buildNonce (i + 1)) key) :
    ∃ j : Nat, log[j]? = some sealed ∧ sealed.plain = plain ∧
      (i + 1) % 2 ^ 64 = (j + 1) % 2 ^ 64 := by
  obtain ⟨j, hj⟩ := List.getElem?_of_mem mem
  have boxes : api.cryptoSecretboxEasy plain (buildNonce (i + 1)) key =
      api.cryptoSecretboxEasy sealed.plain (buildNonce (j + 1)) key := by
    rw [← box, ← same, numbered j sealed hj]
  have nonces := (ideal.nonce_eq _ _ _ _ _ _ boxes).1
  refine ⟨j, hj, ?_, mod_eq_of_buildNonce_eq nonces⟩
  have opens := ideal.opens plain (buildNonce (i + 1)) key
  rw [boxes, nonces, ideal.opens] at opens
  exact Except.ok.inj opens

/-- Without reflection and before a counter wraps, what was dispatched is a prefix of what
the peer sealed. -/
theorem Sound.faithful {api : Api Bytes} (ideal : api.IdealSecretbox) {w : World Bytes}
    (h : Sound api false w) (received : (sequence api w.session).length ≤ 2 ^ 64)
    (sent : w.peerSealed.length ≤ 2 ^ 64) :
    (sequence api w.session).map (fun d => Except.ok d.message) <+:
      w.peerSealed.map fun sealed => api.decodeMessage sealed.plain := by
  apply List.prefix_iff_getElem?.mpr
  intro i hi
  rw [List.length_map] at hi
  have at_i : (sequence api w.session)[i]? = some (sequence api w.session)[i] :=
    List.getElem?_eq_getElem hi
  cases keyed : w.session.cipher with
  | none =>
      have nothing : sequence api w.session = [] := by
        simp [sequence, (h.started.unkeyed keyed).2.1]
      simp [nothing] at hi
  | some cipher =>
      obtain ⟨plain, box, decoded, sealed, mem, same⟩ := h.logged.came cipher keyed i _ at_i
      obtain ⟨j, hj, samePlain, wrap⟩ :=
        sealed_at ideal (h.logged.peer cipher keyed) mem same box
      have inLog := (List.getElem?_eq_some_iff.mp hj).1
      obtain rfl : i = j := by omega
      rw [List.getElem?_map, hj, List.getElem_map, Option.map_some, samePlain, decoded]

theorem channel_integrity (ideal : api.IdealSecretbox) (short : api.ShortFramesEmpty)
    (decoding : Bytes) (events : List (ChannelEvent Bytes))
    (delivers : Runs.Along (step api config serverEdPk entropy) (Delivers api true)
      (start config decoding) events) :
    let w := Runs.run (step api config serverEdPk entropy) (start config decoding) events
    (w.session.sealedOut ≠ [] ∨ w.session.dispatched ≠ [] →
      TrustFirst api config serverEdPk entropy decoding events) ∧
    (∀ i d, (sequence api w.session)[i]? = some d → ∃ j sealed,
      (w.peerSealed[j]? = some sealed ∨ w.session.sealedOut[j]? = some sealed) ∧
      sealed.frame = d.frame ∧ api.decodeMessage sealed.plain = .ok d.message ∧
      (i + 1) % 2 ^ 64 = (j + 1) % 2 ^ 64) ∧
    (Runs.Along (step api config serverEdPk entropy) (Delivers api false)
        (start config decoding) events →
      (sequence api w.session).length ≤ 2 ^ 64 → w.peerSealed.length ≤ 2 ^ 64 →
      (sequence api w.session).map (fun d => Except.ok d.message) <+:
        w.peerSealed.map fun sealed => api.decodeMessage sealed.plain) := by
  intro w
  have sound := run_sound api config serverEdPk entropy ideal short decoding events delivers
  refine ⟨?_, ?_, ?_⟩
  · intro acted
    apply installs_after_trust
    intro unkeyed
    obtain ⟨noneSealed, noneDispatched, _⟩ := sound.started.unkeyed unkeyed
    rcases acted with sealed | dispatched
    · exact sealed noneSealed
    · exact dispatched noneDispatched
  · intro i d hd
    cases keyed : w.session.cipher with
    | none =>
        have nothing : sequence api w.session = [] := by
          simp only [sequence, (sound.started.unkeyed keyed).2.1, w, List.filter_nil]
        simp [nothing] at hd
    | some cipher =>
        obtain ⟨plain, box, decoded, sealed, mem, same⟩ := sound.logged.came cipher keyed i d hd
        rcases List.mem_append.mp mem with own | peer
        · obtain ⟨j, hj, samePlain, wrap⟩ :=
            sealed_at ideal (sound.logged.seals.numbered cipher keyed) own same box
          exact ⟨j, sealed, .inr hj, same, samePlain ▸ decoded, wrap⟩
        · obtain ⟨j, hj, samePlain, wrap⟩ :=
            sealed_at ideal (sound.logged.peer cipher keyed) peer same box
          exact ⟨j, sealed, .inl hj, same, samePlain ▸ decoded, wrap⟩
  · intro unreflected received sent
    exact (run_sound api config serverEdPk entropy ideal short decoding events unreflected).faithful
      ideal received sent

end

namespace Sample

open Blob

def config : SessionConfig :=
  { peerId := "123456789", serverKeyB64 := "", password := "", myId := "web", myName := "web" }

def entropy : Entropy Blob :=
  { sessionId := 1, key := .octets [7], boxPublicKey := .octets [8], boxPrivateKey := .octets [9] }

def serverVouches : Blob :=
  .relayResponse "uuid" "relay" (.signed 0 (.idPk "123456789" (.edPk 1)))

def peerVouches : Blob := .signedIdMessage (.signed 1 (.idPk "123456789" (.octets [5])))

def handshake : List (ChannelEvent Blob) :=
  [.signaling serverVouches, .relaySocketOpened, .relay peerVouches]

def clientChat : ChannelEvent Blob := .send (.misc (some (.chatMessage "hello")))

def chatFrame (text : String) : Blob :=
  .secretbox (.chatMessage text) (buildNonce 1) (.octets [7])

def world (events : List (ChannelEvent Blob)) : World Blob :=
  Runs.run (step api config (.edPk 0) entropy) (start config (.octets [])) events

end Sample

/-- The relay returns the client's own chat message, and the session takes it for the first
message of the peer, which has sealed nothing. -/
theorem reflection_dispatched :
    Blob.api.IdealSecretbox ∧ Blob.api.ShortFramesEmpty ∧
    Runs.Along (step Blob.api Sample.config (.edPk 0) Sample.entropy) (Delivers Blob.api true)
      (start Sample.config (.octets []))
      (Sample.handshake ++ [Sample.clientChat, .relay (Sample.chatFrame "hello")]) ∧
    ¬ (sequence Blob.api (Sample.world (Sample.handshake ++
          [Sample.clientChat, .relay (Sample.chatFrame "hello")])).session).map
        (fun d => Except.ok d.message) <+:
      (Sample.world (Sample.handshake ++
          [Sample.clientChat, .relay (Sample.chatFrame "hello")])).peerSealed.map
        fun sealed => Blob.api.decodeMessage sealed.plain := by
  refine ⟨Blob.api_ideal, Blob.api_short, ⟨?_, ?_, ?_, ?_, ?_, trivial⟩, ?_⟩
  · intro b cipher plain nonce event
    cases event
  · intro b cipher plain nonce event
    cases event
  · intro b cipher plain nonce _ keyed
    cases keyed
  · intro b cipher plain nonce event
    cases event
  · intro b cipher plain nonce event _ _
    obtain rfl := ChannelEvent.relay.inj event
    exact ⟨_, List.mem_cons_self, by decide⟩
  · intro reached
    have counts := reached.length_le
    revert counts
    decide

theorem channel_integrity_chat :
    (sequence Blob.api (Sample.world (Sample.handshake ++ [.peerSeals (.chatMessage "hi"),
        Sample.clientChat, .relay (Sample.chatFrame "hi")])).session).map
      (fun d => Except.ok d.message) <+:
    (Sample.world (Sample.handshake ++ [.peerSeals (.chatMessage "hi"),
        Sample.clientChat, .relay (Sample.chatFrame "hi")])).peerSealed.map
      fun sealed => Blob.api.decodeMessage sealed.plain := by
  have delivers (reflects : Bool) :
      Runs.Along (step Blob.api Sample.config (.edPk 0) Sample.entropy) (Delivers Blob.api reflects)
        (start Sample.config (.octets [])) (Sample.handshake ++ [.peerSeals (.chatMessage "hi"),
          Sample.clientChat, .relay (Sample.chatFrame "hi")]) := by
    refine ⟨?_, ?_, ?_, ?_, ?_, ?_, trivial⟩ <;> intro b cipher plain nonce event keyed _
    · cases event
    · cases event
    · cases keyed
    · cases event
    · cases event
    · obtain rfl := ChannelEvent.relay.inj event
      refine ⟨⟨.chatMessage "hi", Sample.chatFrame "hi"⟩, ?_, rfl⟩
      cases reflects with
      | false => exact List.mem_cons_self
      | true => exact List.mem_append_right _ List.mem_cons_self
  exact (channel_integrity Blob.api Sample.config (.edPk 0) Sample.entropy Blob.api_ideal
    Blob.api_short (.octets []) _ (delivers true)).2.2 (delivers false) (by decide) (by decide)

end Channel
end WebClient
end CortenDesk
