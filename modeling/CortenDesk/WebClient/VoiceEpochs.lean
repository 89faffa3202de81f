import CortenDesk.Lib.Slots
import CortenDesk.WebClient.VoiceCapture

/-!
A capture does not outlive its call. The epoch tells a pump and an attempt whether they are still
the current ones; whatever is open belongs to the current stream or is the current encoder.
-/
namespace CortenDesk
namespace WebClient
open Slots
namespace VoiceCaptureController
variable {w : VoiceCaptureController} {i k : Nat}

def isFormat : VoiceNote → Bool
  | .sendFormat _ _ => true
  | _ => false

/-- A call whose log is `log` is up: it was started and not stopped since, and it has sent so many
formats. -/
def Begun (log : List VoiceNote) (formats : Nat) : Prop :=
  ∃ earlier since, log = earlier ++ .start :: since ∧ .stop ∉ since ∧
    since.countP isFormat = formats

/-- What must have come before an entry of the log. -/
def Due (log : List VoiceNote) : VoiceNote → Prop
  | .sendFormat _ _ => Begun log 0
  | .sendFrame _ => Begun log 1
  | _ => True

/-- Formats and frames are sent only between a start and the next stop, and one format first. -/
def Conducted (log : List VoiceNote) : Prop :=
  ∀ before entry after, log = before ++ entry :: after → Due before entry

/-- Every data that was read is closed, at most once, unless a pump still waits with it. -/
structure DataClosed (w : VoiceCaptureController) : Prop where
  once : w.closings.Nodup
  known : ∀ data ∈ w.closings, data < w.reads
  all : ∀ data, data < w.reads → data ∉ w.closings →
    ∃ pump ∈ w.pumps, ∃ config, pump.state = .probing data config

/-- What was acquired by the attempts and the pumps that had begun when `ended` was reached is
closed. -/
structure Released (ended w : VoiceCaptureController) : Prop where
  tracks : ∀ j k, w.resources.opened? j = some (.track k) → ended.attempts.length ≤ k
  encoders : ∀ j i, w.resources.opened? j = some (.encoder i) → ended.pumps.length ≤ i

/-- The invariant; `busy` is the pump whose loop is being run. -/
structure Inv (busy : Option Nat) (w : VoiceCaptureController) : Prop where
  older : ∀ (i : Nat) (pump : Pump), w.pumps[i]? = some pump → pump.epoch ≤ w.epoch
  current : ∀ (i : Nat) (pump : Pump), w.pumps[i]? = some pump → pump.epoch = w.epoch →
    w.active = true ∧ i + 1 = w.pumps.length ∧ w.encoder = pump.encoder
  probes : ∀ (i : Nat) (pump : Pump) (data : Nat) (config : VoiceEncoderConfig),
    w.pumps[i]? = some pump → busy ≠ some i → pump.epoch = w.epoch →
      pump.state = .probing data config → w.encoder = none
  waits : ∀ (k : Nat) (attempt : VoiceAttempt), w.attempts[k]? = some attempt →
    attempt.epoch ≤ w.epoch ∧ (attempt.epoch = w.epoch → k + 1 = w.attempts.length ∧
      ((∀ result, attempt.state ≠ .settled result) → w.stream = none))
  idle : w.active = false → w.encoder = none
  tracks : ∀ j k, w.resources.opened? j = some (.track k) →
    ∃ stream, w.stream = some stream ∧ stream.attempt = k ∧ j ∈ stream.tracks
  encoders : ∀ j i, w.resources.opened? j = some (.encoder i) →
    w.encoder = some j ∧ ∃ pump, w.pumps[i]? = some pump ∧ pump.epoch = w.epoch
  begun : w.active = true → Begun w.log (if w.encoder.isSome then 1 else 0)
  conducted : Conducted w.log

/-- What became of the data that was read: `owed` is what the pump whose loop is run must close. -/
structure Kept (busy owed : Option Nat) (w : VoiceCaptureController) : Prop where
  once : w.closings.Nodup
  known : ∀ data ∈ w.closings, data < w.reads
  held : ∀ (i : Nat) (pump : Pump) (data : Nat) (config : VoiceEncoderConfig),
    w.pumps[i]? = some pump → busy ≠ some i → pump.state = .probing data config →
      data < w.reads ∧ data ∉ w.closings ∧ owed ≠ some data
  unique : ∀ (i j : Nat) (pump pump' : Pump) (data : Nat) (config config' : VoiceEncoderConfig),
    w.pumps[i]? = some pump → busy ≠ some i → pump.state = .probing data config →
      w.pumps[j]? = some pump' → busy ≠ some j → pump'.state = .probing data config' → i = j
  owes : ∀ data, owed = some data → data < w.reads ∧ data ∉ w.closings
  all : ∀ data, data < w.reads → data ∉ w.closings → owed = some data ∨
    ∃ (i : Nat) (pump : Pump) (config : VoiceEncoderConfig),
      w.pumps[i]? = some pump ∧ busy ≠ some i ∧ pump.state = .probing data config

/-- A later state than `ended`, where a stop was reached: what had begun by then is of an older epoch,
and the stream is of none of it. -/
structure Since (ended w : VoiceCaptureController) : Prop where
  epoch : ended.epoch ≤ w.epoch
  attempts : ended.attempts.length ≤ w.attempts.length
  pumps : ended.pumps.length ≤ w.pumps.length
  attempt : ∀ (k : Nat) (attempt : VoiceAttempt), w.attempts[k]? = some attempt →
    k < ended.attempts.length → attempt.epoch < ended.epoch
  pump : ∀ (i : Nat) (pump : Pump), w.pumps[i]? = some pump →
    i < ended.pumps.length → pump.epoch < ended.epoch
  stream : ∀ stream, w.stream = some stream → ended.attempts.length ≤ stream.attempt

theorem Conducted.concat {log : List VoiceNote} {entry : VoiceNote} (h : Conducted log)
    (due : Due log entry) : Conducted (log ++ [entry]) := by
  intro before entry' after split
  rcases List.eq_nil_or_concat after with rfl | ⟨after, last, rfl⟩
  · obtain ⟨rfl, same⟩ := List.append_inj' split rfl
    obtain rfl := List.head_eq_of_cons_eq same
    exact due
  · rw [List.concat_eq_append, ← List.cons_append, ← List.append_assoc] at split
    obtain ⟨rfl, -⟩ := List.append_inj' split rfl
    exact h before entry' after rfl

/-- An entry that is no start and no stop. -/
theorem Begun.concat {log : List VoiceNote} {entry : VoiceNote} {formats : Nat}
    (h : Begun log formats) (goes : entry ≠ .stop) :
    Begun (log ++ [entry]) (formats + [entry].countP isFormat) := by
  obtain ⟨earlier, since, rfl, none, count⟩ := h
  refine ⟨earlier, since ++ [entry], by rw [List.append_assoc, List.cons_append], ?_, ?_⟩
  · rw [List.mem_append, List.mem_singleton, not_or]
    exact ⟨none, goes.symm⟩
  · rw [List.countP_append, count]

theorem inv_begin : Inv none {} where
  older i pump found := by simp at found
  current i pump found := by simp at found
  probes i pump data config found := by simp at found
  waits k attempt found := by simp at found
  idle _ := rfl
  tracks j k opened := by cases opened
  encoders j i opened := by cases opened
  begun active := by cases active
  conducted before entry after split := by simp at split

/-- After a stop nothing is open, and no epoch is current. -/
theorem drained_stop {busy : Option Nat} (h : Inv busy w) (j : Nat) :
    w.stop.resources.opened? j = none := by
  rw [Option.eq_none_iff_forall_ne_some]
  intro kind opened
  obtain ⟨opened, noTrack⟩ := Pool.opened?_closeAll.mp opened
  obtain ⟨opened, noEncoder⟩ := Pool.opened?_release.mp opened
  cases kind with
  | track k =>
      obtain ⟨stream, is, -, track⟩ := h.tracks j k opened
      rw [is] at noTrack
      exact noTrack track
  | encoder i => exact noEncoder (h.encoders j i opened).1

theorem Inv.stop {busy : Option Nat} (h : Inv busy w) : Inv busy w.stop where
  older i pump found := Nat.le_succ_of_le (h.older i pump found)
  current i pump found same := absurd (h.older i pump found) (by
    rw [same]
    exact Nat.not_succ_le_self w.epoch)
  probes _ _ _ _ _ _ _ _ := rfl
  waits k attempt found :=
    have before := (h.waits k attempt found).1
    ⟨Nat.le_succ_of_le before, fun same => absurd same (Nat.ne_of_lt (Nat.lt_succ_of_le before))⟩
  idle _ := rfl
  tracks j k opened := absurd ((drained_stop h j).symm.trans opened) (by simp)
  encoders j i opened := absurd ((drained_stop h j).symm.trans opened) (by simp)
  begun active := by cases active
  conducted := h.conducted.concat trivial

theorem Inv.onError {busy : Option Nat} (h : Inv busy w) (message : String) :
    Inv busy (w.note (.onError message)) where
  older := h.older
  current := h.current
  probes := h.probes
  waits := h.waits
  idle := h.idle
  tracks := h.tracks
  encoders := h.encoders
  begun active := (h.begun active).concat (by simp)
  conducted := h.conducted.concat trivial

theorem Inv.fail {busy : Option Nat} (h : Inv busy w) (message : String) :
    Inv busy (w.fail message) := by
  unfold VoiceCaptureController.fail
  split
  · exact h.stop.onError message
  · exact h.stop

theorem Inv.failLive {busy : Option Nat} (h : Inv busy w) (epoch : Nat) (message : String) :
    Inv busy (w.failLive epoch message) := by
  unfold VoiceCaptureController.failLive
  split
  · exact h.fail message
  · exact h

theorem Inv.closeData {busy : Option Nat} (h : Inv busy w) (data : Nat) :
    Inv busy (w.closeData data) :=
  ⟨h.older, h.current, h.probes, h.waits, h.idle, h.tracks, h.encoders, h.begun, h.conducted⟩

/-- The pump whose loop is run waits again, or the one that waits is busy no more. -/
theorem Inv.pumpState (h : Inv (some i) w) {state : PumpState}
    (probing : ∀ pump data config, w.pumps[i]? = some pump → pump.epoch = w.epoch →
      state = .probing data config → w.encoder = none) : Inv none (w.pumpState i state) where
  older j pump found := by
    obtain ⟨was, here, rfl⟩ := found_modify found
    have before := h.older j was here
    split <;> exact before
  current j pump found same := by
    obtain ⟨was, here, rfl⟩ := found_modify found
    have now := h.current j was here
    rw [VoiceCaptureController.pumpState, List.length_modify]
    split at same <;> split <;> exact now same
  probes j pump data config found _ same is := by
    obtain ⟨was, here, rfl⟩ := found_modify found
    by_cases this : i = j
    · subst this
      rw [if_pos rfl] at same is
      exact probing was data config here same is
    · rw [if_neg this] at same is
      exact h.probes j was data config here (fun busy => this (Option.some.inj busy)) same is
  waits := h.waits
  idle := h.idle
  tracks := h.tracks
  encoders j l opened := by
    obtain ⟨is, pump, found, same⟩ := h.encoders j l opened
    refine ⟨is, ?_⟩
    by_cases this : i = l
    · subst this
      exact ⟨_, modify_found found, same⟩
    · exact ⟨pump, (modify_other this).trans found, same⟩
  begun := h.begun
  conducted := h.conducted

/-- A pump is run. -/
theorem Inv.busy (h : Inv none w) : Inv (some i) w :=
  { h with probes := fun j pump data config found _ => h.probes j pump data config found nofun }

theorem Inv.ended (h : Inv (some i) w) : Inv none (w.pumpState i .ended) :=
  h.pumpState nofun

theorem Inv.loop (h : Inv (some i) w) {epoch : Nat} : Inv none (w.loop i epoch) := by
  refine h.pumpState fun _ _ _ _ _ is => ?_
  split at is <;> cases is

theorem Inv.encode (h : Inv (some i) w) {epoch data : Nat} {encoding : Encoding} :
    Inv none (w.encode i epoch data encoding) := by
  unfold VoiceCaptureController.encode
  split
  · exact ((h.failLive epoch _).closeData data).ended
  · exact (h.closeData data).loop

theorem live_iff {epoch : Nat} : w.live epoch = true ↔ w.active = true ∧ epoch = w.epoch := by
  rw [live, Bool.and_eq_true, beq_iff_eq]

/-- The pump of the current epoch creates its encoder, and announces the format. -/
theorem Inv.createEncoder (h : Inv (some i) w) {pump : Pump} (found : w.pumps[i]? = some pump)
    (live : w.live pump.epoch = true) (none : w.encoder = none) (sampleRate : Int)
    (channels : Nat) :
    Inv (some i) ((w.createEncoder i).note (.sendFormat sampleRate channels)) := by
  obtain ⟨active, same⟩ := live_iff.mp live
  have begun : Begun w.log 0 := by
    have begun := h.begun active
    rw [none] at begun
    exact begun
  have last := (h.current i pump found same).2.1
  refine ⟨fun j p found' => ?_, fun j p found' now => ?_, fun j p data config found' other now => ?_,
    h.waits, fun idle => absurd (active.symm.trans idle) (by simp), fun j k opened => ?_,
    fun j l opened => ?_, fun _ => ?_, h.conducted.concat begun⟩
  · obtain ⟨was, here, rfl⟩ := found_modify found'
    have before := h.older j was here
    split <;> exact before
  · obtain ⟨was, here, rfl⟩ := found_modify found'
    have now' : was.epoch = w.epoch := by split at now <;> exact now
    have at' := (h.current j was here now').2.1
    obtain rfl : i = j := by omega
    refine ⟨active, ?_, ?_⟩
    · rw [note, VoiceCaptureController.createEncoder, List.length_modify]
      exact at'
    · rw [if_pos rfl]
      rfl
  · obtain ⟨was, here, rfl⟩ := found_modify found'
    have now' : was.epoch = w.epoch := by split at now <;> exact now
    have at' := (h.current j was here now').2.1
    obtain rfl : i = j := by omega
    exact absurd rfl other
  · rcases Pool.opened?_obtain.mp opened with old | ⟨-, kind⟩
    · exact h.tracks j k old
    · cases kind
  · rcases Pool.opened?_obtain.mp opened with old | ⟨rfl, kind⟩
    · exact absurd ((h.encoders j l old).1.symm.trans none) (by simp)
    · cases kind
      exact ⟨rfl, _, modify_found found, same⟩
  · exact begun.concat (by simp)

theorem Inv.read (h : Inv none w) {epoch : Nat} {encoding : Encoding} {result : ReadResult} :
    Inv none (w.read i epoch encoding result) := by
  have busy : Inv (some i) w := h.busy
  have reads : Inv (some i) { w with reads := w.reads + 1 } :=
    ⟨busy.older, busy.current, busy.probes, busy.waits, busy.idle, busy.tracks, busy.encoders,
      busy.begun, busy.conducted⟩
  cases result with
  | rejects => exact (busy.failLive epoch _).ended
  | done => exact (busy.failLive epoch _).ended
  | empty => exact busy.loop
  | value value =>
      simp only [VoiceCaptureController.read]
      split
      · exact (reads.closeData _).loop
      · split
        · exact reads.encode
        · next none =>
          split
          · exact ((reads.fail _).closeData _).ended
          · exact reads.pumpState fun _ _ _ _ _ _ => none

theorem Inv.supported (h : Inv none w) {pump : Pump} {data : Nat} {config : VoiceEncoderConfig}
    {creates : Bool} {encoding : Encoding} {supported : Option Bool}
    (found : w.pumps[i]? = some pump) (probing : pump.state = .probing data config) :
    Inv none (w.supported i pump.epoch data config creates encoding supported) := by
  have busy : Inv (some i) w := h.busy
  cases supported with
  | none => exact ((busy.failLive _ _).closeData data).ended
  | some supported =>
      simp only [VoiceCaptureController.supported]
      split
      · exact (busy.closeData data).ended
      · next live =>
        split
        · exact ((busy.fail _).closeData data).ended
        · split
          · exact ((busy.failLive _ _).closeData data).ended
          · have live : w.live pump.epoch = true := by simpa using live
            have none := h.probes i pump data config found nofun (live_iff.mp live).2 probing
            exact (busy.createEncoder found live none _ _).encode

/-- The encoder of the current epoch has announced its format. -/
theorem Inv.output (h : Inv none w) {pump : Pump} {encoder : Nat} {chunk : List UInt8}
    (found : w.pumps[i]? = some pump) (created : pump.encoder = some encoder) :
    Inv none (w.output pump.epoch chunk) := by
  unfold VoiceCaptureController.output
  split
  · next live =>
    obtain ⟨active, same⟩ := live_iff.mp live
    have is := (h.current i pump found same).2.2
    have begun := h.begun active
    rw [is, created] at begun
    refine ⟨h.older, h.current, h.probes, h.waits, h.idle, h.tracks, h.encoders, fun active => ?_,
      h.conducted.concat begun⟩
    exact (h.begun active).concat (by simp)
  · exact h

/-- An attempt goes on waiting or returns. -/
theorem Inv.attemptState (h : Inv none w) {state : VoiceAttemptState}
    (waits : ∀ attempt, w.attempts[k]? = some attempt → attempt.epoch = w.epoch →
      (∀ result, state ≠ .settled result) → w.stream = none) : Inv none (w.attemptState k state) where
  older := h.older
  current := h.current
  probes := h.probes
  waits j attempt found := by
    obtain ⟨was, here, rfl⟩ := found_modify found
    obtain ⟨before, last⟩ := h.waits j was here
    rw [VoiceCaptureController.attemptState, List.length_modify]
    by_cases this : k = j
    · subst this
      rw [if_pos rfl]
      exact ⟨before, fun same => ⟨(last same).1, waits was here same⟩⟩
    · rw [if_neg this]
      exact h.waits j was here
  idle := h.idle
  tracks := h.tracks
  encoders := h.encoders
  begun := h.begun
  conducted := h.conducted

theorem Inv.settled (h : Inv none w) (result : Except String Unit) :
    Inv none (w.attemptState k (.settled result)) :=
  h.attemptState fun _ _ _ waits => absurd rfl (waits result)

theorem Inv.prepare (h : Inv none w) {available : Bool} : Inv none (w.prepare available) := by
  have stopped := h.stop
  refine ⟨stopped.older, stopped.current, stopped.probes, fun k attempt found => ?_, stopped.idle,
    stopped.tracks, stopped.encoders, stopped.begun, stopped.conducted⟩
  rcases found_concat found with found | ⟨rfl, rfl⟩
  · have before := (h.waits k attempt found).1
    exact ⟨Nat.le_succ_of_le before, fun same => absurd same (Nat.ne_of_lt (Nat.lt_succ_of_le before))⟩
  · exact ⟨Nat.le_refl _, fun _ => ⟨by simp [VoiceCaptureController.prepare], fun _ => rfl⟩⟩

theorem Inv.denied (h : Inv none w) {epoch : Nat} : Inv none (w.denied k epoch) := by
  unfold VoiceCaptureController.denied
  split
  · exact h.settled _
  · exact h.stop.settled _

theorem Inv.probed (h : Inv none w) {epoch : Nat} {supported : Option Bool}
    (found : w.attempts[k]? = some ⟨epoch, .probing⟩) : Inv none (w.probed k epoch supported) := by
  match supported with
  | none => exact h.denied
  | some false => exact h.settled _
  | some true =>
      simp only [VoiceCaptureController.probed]
      split
      · exact h.settled _
      · refine h.attemptState fun attempt here same _ => ?_
        exact ((h.waits k attempt here).2 same).2 fun result is => by
          obtain rfl := Option.some.inj (found.symm.trans here)
          cases is

/-- What an attempt acquires that is no longer the current one is closed at once. -/
theorem Inv.media (h : Inv none w) {epoch : Nat} {stream : Option (Nat × Nat)}
    (found : w.attempts[k]? = some ⟨epoch, .requesting⟩) : Inv none (w.media k epoch stream) := by
  match stream with
  | none => exact h.denied
  | some (audio, others) =>
      have among (j l : Nat)
          (opened : (w.resources.obtainMany (.track k) (audio + others)).opened? j = some (.track l)) :
          w.resources.opened? j = some (.track l) ∨
            (j ∈ List.range' w.resources.next (audio + others) ∧ l = k) := by
        rcases Pool.opened?_obtainMany.mp opened with old | ⟨new, kind⟩
        · exact .inl old
        · cases kind
          exact .inr ⟨List.mem_range'_1.mpr new, rfl⟩
      have encoder (j l : Nat)
          (opened : (w.resources.obtainMany (.track k) (audio + others)).opened? j =
            some (.encoder l)) : w.resources.opened? j = some (.encoder l) := by
        rcases Pool.opened?_obtainMany.mp opened with old | ⟨-, kind⟩
        · exact old
        · cases kind
      simp only [VoiceCaptureController.media]
      split
      · have settled := h.settled (k := k) (.error cancelled)
        refine ⟨settled.older, settled.current, settled.probes, settled.waits, settled.idle,
          fun j l opened => ?_, fun j l opened => ?_, settled.begun, settled.conducted⟩
        · obtain ⟨opened, missing⟩ := Pool.opened?_closeAll.mp opened
          rcases among j l opened with old | ⟨new, -⟩
          · exact h.tracks j l old
          · exact absurd new missing
        · exact h.encoders j l (encoder j l (Pool.opened?_closeAll.mp opened).1)
      · next same =>
        have same : epoch = w.epoch := not_not.mp same
        obtain ⟨last, empty⟩ := (h.waits k _ found).2 same
        have acquired (result : Except String Unit) : Inv none
            ({ w with
              resources := w.resources.obtainMany (.track k) (audio + others)
              stream := some ⟨k, List.range' w.resources.next audio,
                List.range' w.resources.next (audio + others)⟩ }.attemptState k (.settled result)) := by
          refine ⟨h.older, h.current, h.probes, fun j attempt found => ?_, h.idle, fun j l opened => ?_,
            fun j l opened => h.encoders j l (encoder j l opened), h.begun, h.conducted⟩
          · obtain ⟨was, here, rfl⟩ := found_modify found
            obtain ⟨before, after⟩ := h.waits j was here
            rw [VoiceCaptureController.attemptState, List.length_modify]
            by_cases this : k = j
            · rw [if_pos this]
              exact ⟨before, fun same => ⟨(after same).1, fun waits => absurd rfl (waits result)⟩⟩
            · rw [if_neg this]
              refine ⟨before, fun same => absurd ?_ this⟩
              have := (after same).1
              omega
          · rcases among j l opened with old | ⟨new, rfl⟩
            · obtain ⟨stream, is, -⟩ := h.tracks j l old
              exact absurd ((empty nofun).symm.trans is) (by simp)
            · exact ⟨_, rfl, rfl, new⟩
        split
        · exact (acquired _).stop
        · exact acquired _

theorem Inv.start (h : Inv none w) {opens : Bool} : Inv none (w.start opens).1 := by
  have later (e : Nat) (before : e ≤ w.epoch) : e ≠ w.epoch + 1 :=
    Nat.ne_of_lt (Nat.lt_succ_of_le before)
  unfold VoiceCaptureController.start
  split
  · exact h
  · split
    · exact h
    · next idle =>
      have none := h.idle (Bool.eq_false_iff.mpr idle)
      have next : Inv Option.none { w with epoch := w.epoch + 1 } := by
        refine ⟨fun j pump found => Nat.le_succ_of_le (h.older j pump found),
          fun j pump found same => absurd same (later _ (h.older j pump found)),
          fun j pump data config found _ same => absurd same (later _ (h.older j pump found)),
          fun j attempt found => ?_, h.idle, h.tracks, fun j l opened => ?_,
          fun active => absurd active idle, h.conducted⟩
        · have before := (h.waits j attempt found).1
          exact ⟨Nat.le_succ_of_le before, fun same => absurd same (later _ before)⟩
        · exact absurd ((h.encoders j l opened).1.symm.trans none) (by simp)
      simp only
      split
      · exact next.fail _
      · refine ⟨fun j pump found => ?_, fun j pump found same => ?_,
          fun j pump data config found _ same probing => ?_, next.waits,
          fun active => (nomatch active), h.tracks, fun j l opened => ?_, fun _ => ?_,
          h.conducted.concat trivial⟩
        · rcases found_concat found with found | ⟨-, rfl⟩
          · exact next.older j pump found
          · exact Nat.le_refl _
        · rcases found_concat found with found | ⟨rfl, rfl⟩
          · exact absurd same (later _ (h.older j pump found))
          · exact ⟨rfl, by simp [note], none⟩
        · rcases found_concat found with found | ⟨-, rfl⟩
          · exact absurd same (later _ (h.older j pump found))
          · cases probing
        · exact absurd ((h.encoders j l opened).1.symm.trans none) (by simp)
        · rw [note, none]
          exact ⟨w.log, [], rfl, by simp, rfl⟩

theorem Inv.step (h : Inv none w) (event : VoiceEvent) : Inv none (w.step event) := by
  cases event with
  | prepare available => exact h.prepare
  | start opens => exact h.start
  | stop => exact h.stop
  | probed k supported =>
      simp only [VoiceCaptureController.step]
      split
      · next epoch found => exact h.probed found
      · exact h
  | media k stream =>
      simp only [VoiceCaptureController.step]
      split
      · next epoch found => exact h.media found
      · exact h
  | read i result encoding =>
      simp only [VoiceCaptureController.step]
      split
      · exact h.read
      · exact h
  | supported i supported creates encoding =>
      simp only [VoiceCaptureController.step]
      split
      · next found => exact h.supported found rfl
      · exact h
  | output i chunk =>
      simp only [VoiceCaptureController.step]
      split
      · next found => exact h.output found rfl
      · exact h
  | error i =>
      simp only [VoiceCaptureController.step]
      split
      · exact h.failLive _ _
      · exact h

section Data

theorem kept_begin : Kept none none {} where
  once := .nil
  known data mem := by cases mem
  held i pump data config found := by simp at found
  unique i j pump pump' data config config' found := by simp at found
  owes data owed := by cases owed
  all data read := by cases read

theorem Kept.dataClosed (h : Kept none none w) : DataClosed w where
  once := h.once
  known := h.known
  all data read missing := by
    rcases h.all data read missing with owed | ⟨i, pump, config, found, -, probing⟩
    · cases owed
    · exact ⟨pump, List.mem_of_getElem? found, config, probing⟩

theorem Kept.fail {busy owed : Option Nat} (h : Kept busy owed w) (message : String) :
    Kept busy owed (w.fail message) := by
  unfold VoiceCaptureController.fail
  split
  · exact ⟨h.once, h.known, h.held, h.unique, h.owes, h.all⟩
  · exact ⟨h.once, h.known, h.held, h.unique, h.owes, h.all⟩

theorem Kept.failLive {busy owed : Option Nat} (h : Kept busy owed w) (epoch : Nat)
    (message : String) : Kept busy owed (w.failLive epoch message) := by
  unfold VoiceCaptureController.failLive
  split
  · exact h.fail message
  · exact h

/-- What is owed is closed. -/
theorem Kept.closeData {busy : Option Nat} {data : Nat} (h : Kept busy (some data) w) :
    Kept busy none (w.closeData data) where
  once := by
    rw [VoiceCaptureController.closeData, List.nodup_append]
    refine ⟨h.once, by simp, fun other mem last is => ?_⟩
    rintro rfl
    rw [List.mem_singleton.mp is] at mem
    exact (h.owes data rfl).2 mem
  known other mem := by
    rcases List.mem_append.mp mem with old | new
    · exact h.known other old
    · obtain rfl := List.mem_singleton.mp new
      exact (h.owes other rfl).1
  held i pump other config found idle probing := by
    obtain ⟨read, missing, notOwed⟩ := h.held i pump other config found idle probing
    refine ⟨read, fun mem => ?_, nofun⟩
    rcases List.mem_append.mp mem with old | new
    · exact missing old
    · exact notOwed (congrArg some (List.mem_singleton.mp new).symm)
  unique := h.unique
  owes other owed := by cases owed
  all other read missing := by
    obtain ⟨notOld, notNew⟩ := not_or.mp (fun mem => missing (List.mem_append.mpr mem))
    rcases h.all other read notOld with owed | waits
    · exact absurd (List.mem_singleton.mpr (Option.some.inj owed).symm) notNew
    · exact .inr waits

/-- The pump that is busy does not wait, whatever its state. -/
theorem Kept.modify {owed : Option Nat} (h : Kept (some i) owed w) (f : Pump → Pump) :
    Kept (some i) owed { w with pumps := w.pumps.modify i f } := by
  have other {j : Nat} {pump : Pump} (found : (w.pumps.modify i f)[j]? = some pump)
      (away : some i ≠ some j) : w.pumps[j]? = some pump :=
    (modify_other fun same => away (congrArg some same)).symm.trans found
  refine ⟨h.once, h.known, fun j pump data config found away => ?_,
    fun j l pump pump' data config config' found away probing found' away' => ?_, h.owes,
    fun data read missing => ?_⟩
  · exact h.held j pump data config (other found away) away
  · exact h.unique j l pump pump' data config config' (other found away) away probing
      (other found' away') away'
  · rcases h.all data read missing with owed | ⟨j, pump, config, found, away, probing⟩
    · exact .inl owed
    · refine .inr ⟨j, pump, config, ?_, away, probing⟩
      exact (modify_other fun same => away (congrArg some same)).trans found

/-- The pump that was run waits with no data. -/
theorem Kept.rests (h : Kept (some i) none w) {state : PumpState}
    (rests : ∀ data config, state ≠ .probing data config) : Kept none none (w.pumpState i state) := by
  have kept := h.modify fun pump => { pump with state }
  have away {j : Nat} {pump : Pump} {data : Nat} {config : VoiceEncoderConfig}
      (found : (w.pumps.modify i fun pump => { pump with state })[j]? = some pump)
      (probing : pump.state = .probing data config) : some i ≠ some j := by
    rintro same
    obtain rfl := Option.some.inj same
    obtain ⟨was, here, rfl⟩ := found_modify found
    rw [if_pos rfl] at probing
    exact rests data config probing
  refine ⟨kept.once, kept.known, fun j pump data config found _ probing => ?_,
    fun j l pump pump' data config config' found _ probing found' _ probing' => ?_, kept.owes,
    fun data read missing => ?_⟩
  · exact kept.held j pump data config found (away found probing) probing
  · exact kept.unique j l pump pump' data config config' found (away found probing) probing found'
      (away found' probing') probing'
  · rcases kept.all data read missing with owed | ⟨j, pump, config, found, -, probing⟩
    · exact .inl owed
    · exact .inr ⟨j, pump, config, found, nofun, probing⟩

/-- The pump that was run waits with the data that it must close. -/
theorem Kept.probes {data : Nat} {config : VoiceEncoderConfig} (h : Kept (some i) (some data) w)
    {pump : Pump} (found : w.pumps[i]? = some pump) :
    Kept none none (w.pumpState i (.probing data config)) := by
  have among {j : Nat} {pump' : Pump} {other : Nat} {config' : VoiceEncoderConfig}
      (found' : (w.pumpState i (.probing data config)).pumps[j]? = some pump')
      (probing : pump'.state = .probing other config') :
      (i = j ∧ data = other) ∨ (some i ≠ some j ∧ w.pumps[j]? = some pump') := by
    obtain ⟨was, here, rfl⟩ := found_modify found'
    by_cases this : i = j
    · rw [if_pos this] at probing
      cases probing
      exact .inl ⟨this, rfl⟩
    · rw [if_neg this]
      exact .inr ⟨fun same => this (Option.some.inj same), here⟩
  refine ⟨h.once, h.known, fun j pump' other config' found' _ probing => ?_,
    fun j l p p' other c c' found' _ probing found'' _ probing' => ?_, nofun,
    fun other read missing => ?_⟩
  · rcases among found' probing with ⟨rfl, rfl⟩ | ⟨away, here⟩
    · exact ⟨(h.owes data rfl).1, (h.owes data rfl).2, nofun⟩
    · obtain ⟨read, missing, -⟩ := h.held j pump' other config' here away probing
      exact ⟨read, missing, nofun⟩
  · rcases among found' probing with ⟨rfl, rfl⟩ | ⟨away, here⟩
    · rcases among found'' probing' with ⟨same, -⟩ | ⟨away', here'⟩
      · exact same
      · exact absurd rfl (h.held l p' data c' here' away' probing').2.2
    · rcases among found'' probing' with ⟨rfl, rfl⟩ | ⟨away', here'⟩
      · exact absurd rfl (h.held j p data c here away probing).2.2
      · exact h.unique j l p p' other c c' here away probing here' away' probing'
  · right
    rcases h.all other read missing with owed | ⟨j, pump', config', found', away, probing⟩
    · obtain rfl := Option.some.inj owed
      exact ⟨i, _, config, modify_found found, nofun, rfl⟩
    · exact ⟨j, pump', config', (modify_other fun same => away (congrArg some same)).trans found',
        nofun, probing⟩

/-- A pump that waits for its reader is run. -/
theorem Kept.reads (h : Kept none none w) {pump : Pump} (found : w.pumps[i]? = some pump)
    (reading : pump.state = .reading) : Kept (some i) none w := by
  refine ⟨h.once, h.known, fun j pump data config found _ => h.held j pump data config found nofun,
    fun j l pump pump' data config config' found _ probing found' _ =>
      h.unique j l pump pump' data config config' found nofun probing found' nofun, h.owes,
    fun data read missing => ?_⟩
  rcases h.all data read missing with owed | ⟨j, pump', config, found', -, probing⟩
  · exact .inl owed
  · refine .inr ⟨j, pump', config, found', fun same => ?_, probing⟩
    obtain rfl := Option.some.inj same
    obtain rfl := Option.some.inj (found.symm.trans found')
    rw [reading] at probing
    cases probing

/-- A pump that waits with data is run. -/
theorem Kept.resumes (h : Kept none none w) {pump : Pump} {data : Nat}
    {config : VoiceEncoderConfig} (found : w.pumps[i]? = some pump)
    (probing : pump.state = .probing data config) : Kept (some i) (some data) w := by
  have here := h.held i pump data config found nofun probing
  refine ⟨h.once, h.known, fun j pump' other config' found' away probing' => ?_,
    fun j l p p' other c c' found' _ probing' found'' _ =>
      h.unique j l p p' other c c' found' nofun probing' found'' nofun,
    fun other owed => ?_, fun other read missing => ?_⟩
  · obtain ⟨read, missing, -⟩ := h.held j pump' other config' found' nofun probing'
    refine ⟨read, missing, fun same => away (congrArg some ?_)⟩
    obtain rfl := Option.some.inj same
    exact h.unique i j pump pump' data config config' found nofun probing found' nofun probing'
  · obtain rfl := Option.some.inj owed
    exact ⟨here.1, here.2.1⟩
  · rcases h.all other read missing with owed | ⟨j, pump', config', found', -, probing'⟩
    · cases owed
    · by_cases this : i = j
      · subst this
        obtain rfl := Option.some.inj (found.symm.trans found')
        cases probing.symm.trans probing'
        exact .inl rfl
      · exact .inr ⟨j, pump', config', found', fun same => this (Option.some.inj same), probing'⟩

/-- Data is read. -/
theorem Kept.value {busy : Option Nat} (h : Kept busy none w) :
    Kept busy (some w.reads) { w with reads := w.reads + 1 } where
  once := h.once
  known data mem := Nat.lt_succ_of_lt (h.known data mem)
  held i pump data config found away probing := by
    obtain ⟨read, missing, -⟩ := h.held i pump data config found away probing
    exact ⟨Nat.lt_succ_of_lt read, missing, fun same => Nat.ne_of_gt read (Option.some.inj same)⟩
  unique := h.unique
  owes data owed := by
    obtain rfl := Option.some.inj owed
    exact ⟨Nat.lt_succ_self _, fun mem => Nat.lt_irrefl _ (h.known _ mem)⟩
  all data read missing := by
    rcases Nat.lt_succ_iff_lt_or_eq.mp read with before | rfl
    · rcases h.all data before missing with owed | waits
      · cases owed
      · exact .inr waits
    · exact .inl rfl

theorem Kept.ended (h : Kept (some i) none w) : Kept none none (w.pumpState i .ended) :=
  h.rests nofun

theorem Kept.loop (h : Kept (some i) none w) {epoch : Nat} : Kept none none (w.loop i epoch) := by
  refine h.rests fun data config => ?_
  split <;> exact nofun

theorem Kept.encode {data : Nat} (h : Kept (some i) (some data) w) {epoch : Nat}
    {encoding : Encoding} : Kept none none (w.encode i epoch data encoding) := by
  unfold VoiceCaptureController.encode
  split
  · exact (h.failLive epoch _).closeData.ended
  · exact h.closeData.loop

theorem Kept.read (h : Kept none none w) {epoch : Nat} {encoding : Encoding} {result : ReadResult}
    {pump : Pump} (found : w.pumps[i]? = some pump) (reading : pump.state = .reading) :
    Kept none none (w.read i epoch encoding result) := by
  have busy := h.reads found reading
  cases result with
  | rejects => exact (busy.failLive epoch _).ended
  | done => exact (busy.failLive epoch _).ended
  | empty => exact busy.loop
  | value value =>
      simp only [VoiceCaptureController.read]
      split
      · exact busy.value.closeData.loop
      · split
        · exact busy.value.encode
        · split
          · exact (busy.value.fail _).closeData.ended
          · exact busy.value.probes found

theorem Kept.createEncoder {owed : Option Nat} (h : Kept (some i) owed w) (entry : VoiceNote) :
    Kept (some i) owed ((w.createEncoder i).note entry) := by
  have kept := h.modify fun pump => { pump with encoder := some w.resources.next }
  exact ⟨kept.once, kept.known, kept.held, kept.unique, kept.owes, kept.all⟩

theorem Kept.supported (h : Kept none none w) {pump : Pump} {data : Nat}
    {config : VoiceEncoderConfig} {creates : Bool} {encoding : Encoding} {supported : Option Bool}
    (found : w.pumps[i]? = some pump) (probing : pump.state = .probing data config) :
    Kept none none (w.supported i pump.epoch data config creates encoding supported) := by
  have busy := h.resumes found probing
  cases supported with
  | none => exact (busy.failLive _ _).closeData.ended
  | some supported =>
      simp only [VoiceCaptureController.supported]
      split
      · exact busy.closeData.ended
      · split
        · exact (busy.fail _).closeData.ended
        · split
          · exact (busy.failLive _ _).closeData.ended
          · exact (busy.createEncoder _).encode

/-- What leaves the pumps and the data alone. -/
theorem Kept.same {busy owed : Option Nat} {w' : VoiceCaptureController} (h : Kept busy owed w)
    (pumps : w'.pumps = w.pumps) (reads : w'.reads = w.reads) (closings : w'.closings = w.closings) :
    Kept busy owed w' := by
  obtain ⟨once, known, held, unique, owes, all⟩ := h
  rw [← pumps, ← reads, ← closings] at *
  exact ⟨once, known, held, unique, owes, all⟩

theorem Kept.added (h : Kept none none w) (epoch : Nat) :
    Kept none none { w with pumps := w.pumps ++ [{ epoch }] } := by
  have old {j : Nat} {pump : Pump} {data : Nat} {config : VoiceEncoderConfig}
      (found : (w.pumps ++ [({ epoch } : Pump)])[j]? = some pump)
      (probing : pump.state = .probing data config) : w.pumps[j]? = some pump := by
    rcases found_concat found with found | ⟨-, rfl⟩
    · exact found
    · cases probing
  refine ⟨h.once, h.known, fun j pump data config found _ probing => ?_,
    fun j l p p' data c c' found _ probing found' _ probing' => ?_, h.owes,
    fun data read missing => ?_⟩
  · exact h.held j pump data config (old found probing) nofun probing
  · exact h.unique j l p p' data c c' (old found probing) nofun probing (old found' probing') nofun
      probing'
  · rcases h.all data read missing with owed | ⟨j, pump, config, found, away, probing⟩
    · exact .inl owed
    · exact .inr ⟨j, pump, config, concat_found found, away, probing⟩

theorem Kept.start (h : Kept none none w) {opens : Bool} : Kept none none (w.start opens).1 := by
  unfold VoiceCaptureController.start
  split
  · exact h
  · split
    · exact h
    · have next : Kept none none { w with epoch := w.epoch + 1 } := h.same rfl rfl rfl
      simp only
      split
      · exact next.fail _
      · exact (h.added (w.epoch + 1)).same rfl rfl rfl

theorem Kept.denied (h : Kept none none w) {epoch : Nat} : Kept none none (w.denied k epoch) := by
  unfold VoiceCaptureController.denied
  split <;> exact h.same rfl rfl rfl

theorem Kept.probed (h : Kept none none w) {epoch : Nat} {supported : Option Bool} :
    Kept none none (w.probed k epoch supported) := by
  match supported with
  | none => exact h.denied
  | some false => exact h.same rfl rfl rfl
  | some true =>
      simp only [VoiceCaptureController.probed]
      split <;> exact h.same rfl rfl rfl

theorem Kept.media (h : Kept none none w) {epoch : Nat} {stream : Option (Nat × Nat)} :
    Kept none none (w.media k epoch stream) := by
  match stream with
  | none => exact h.denied
  | some (audio, others) =>
      simp only [VoiceCaptureController.media]
      split
      · exact h.same rfl rfl rfl
      · split <;> exact h.same rfl rfl rfl

theorem Kept.step (h : Kept none none w) (event : VoiceEvent) : Kept none none (w.step event) := by
  cases event with
  | prepare available => exact h.same rfl rfl rfl
  | start opens => exact h.start
  | stop => exact h.same rfl rfl rfl
  | probed k supported =>
      simp only [VoiceCaptureController.step]
      split
      · exact h.probed
      · exact h
  | media k stream =>
      simp only [VoiceCaptureController.step]
      split
      · exact h.media
      · exact h
  | read i result encoding =>
      simp only [VoiceCaptureController.step]
      split
      · next found => exact h.read found rfl
      · exact h
  | supported i supported creates encoding =>
      simp only [VoiceCaptureController.step]
      split
      · next found => exact h.supported found rfl
      · exact h
  | output i chunk =>
      simp only [VoiceCaptureController.step]
      split
      · simp only [VoiceCaptureController.output]
        split <;> exact h.same rfl rfl rfl
      · exact h
  | error i =>
      simp only [VoiceCaptureController.step]
      split
      · exact h.failLive _ _
      · exact h

end Data

section Stops
variable {ended : VoiceCaptureController}

theorem since_stop {busy : Option Nat} (h : Inv busy w) : Since w.stop w.stop where
  epoch := Nat.le_refl _
  attempts := Nat.le_refl _
  pumps := Nat.le_refl _
  attempt k attempt found _ := Nat.lt_succ_of_le (h.waits k attempt found).1
  pump i pump found _ := Nat.lt_succ_of_le (h.older i pump found)
  stream stream is := by cases is

theorem Since.released (h : Since ended w) (inv : Inv none w) : Released ended w where
  tracks j k opened := by
    obtain ⟨stream, is, rfl, -⟩ := inv.tracks j k opened
    exact h.stream stream is
  encoders j i opened := by
    obtain ⟨-, pump, found, same⟩ := inv.encoders j i opened
    by_contra before
    have older := h.pump i pump found (Nat.lt_of_not_le before)
    have later := h.epoch
    omega

theorem Since.stop (h : Since ended w) : Since ended w.stop :=
  ⟨Nat.le_succ_of_le h.epoch, h.attempts, h.pumps, h.attempt, h.pump, nofun⟩

theorem Since.fail (h : Since ended w) (message : String) : Since ended (w.fail message) := by
  unfold VoiceCaptureController.fail
  have stopped := h.stop
  split
  · exact ⟨stopped.epoch, stopped.attempts, stopped.pumps, stopped.attempt, stopped.pump,
      stopped.stream⟩
  · exact stopped

theorem Since.failLive (h : Since ended w) (epoch : Nat) (message : String) :
    Since ended (w.failLive epoch message) := by
  unfold VoiceCaptureController.failLive
  split
  · exact h.fail message
  · exact h

theorem Since.closeData (h : Since ended w) (data : Nat) : Since ended (w.closeData data) :=
  ⟨h.epoch, h.attempts, h.pumps, h.attempt, h.pump, h.stream⟩

/-- A change of a pump that keeps its epoch. -/
theorem Since.modify (h : Since ended w) {f : Pump → Pump} (keeps : ∀ pump, (f pump).epoch = pump.epoch) :
    Since ended { w with pumps := w.pumps.modify i f } := by
  refine ⟨h.epoch, h.attempts, ?_, h.attempt, fun j pump found before => ?_, h.stream⟩
  · rw [List.length_modify]
    exact h.pumps
  · obtain ⟨was, here, rfl⟩ := found_modify found
    have older := h.pump j was here before
    split
    · rw [keeps]
      exact older
    · exact older

theorem Since.pumpState (h : Since ended w) (state : PumpState) :
    Since ended (w.pumpState i state) :=
  h.modify fun _ => rfl

theorem Since.encode (h : Since ended w) {epoch data : Nat} {encoding : Encoding} :
    Since ended (w.encode i epoch data encoding) := by
  unfold VoiceCaptureController.encode
  split
  · exact ((h.failLive epoch _).closeData data).pumpState _
  · exact (h.closeData data).pumpState _

theorem Since.read (h : Since ended w) {epoch : Nat} {encoding : Encoding} {result : ReadResult} :
    Since ended (w.read i epoch encoding result) := by
  have reads : Since ended { w with reads := w.reads + 1 } :=
    ⟨h.epoch, h.attempts, h.pumps, h.attempt, h.pump, h.stream⟩
  cases result with
  | rejects => exact (h.failLive epoch _).pumpState _
  | done => exact (h.failLive epoch _).pumpState _
  | empty => exact h.pumpState _
  | value value =>
      simp only [VoiceCaptureController.read]
      split
      · exact (reads.closeData _).pumpState _
      · split
        · exact reads.encode
        · split
          · exact ((reads.fail _).closeData _).pumpState _
          · exact reads.pumpState _

theorem Since.supported (h : Since ended w) {epoch data : Nat} {config : VoiceEncoderConfig}
    {creates : Bool} {encoding : Encoding} {supported : Option Bool} :
    Since ended (w.supported i epoch data config creates encoding supported) := by
  cases supported with
  | none => exact ((h.failLive _ _).closeData data).pumpState _
  | some supported =>
      simp only [VoiceCaptureController.supported]
      split
      · exact (h.closeData data).pumpState _
      · split
        · exact ((h.fail _).closeData data).pumpState _
        · split
          · exact ((h.failLive _ _).closeData data).pumpState _
          · have created := h.modify (i := i)
              (f := fun pump => { pump with encoder := some w.resources.next }) fun _ => rfl
            have announced : Since ended ((w.createEncoder i).note
                (.sendFormat (opusOutputSampleRate config.sampleRate) config.channels)) :=
              ⟨created.epoch, created.attempts, created.pumps, created.attempt, created.pump,
                created.stream⟩
            exact announced.encode

theorem Since.start (h : Since ended w) {opens : Bool} : Since ended (w.start opens).1 := by
  unfold VoiceCaptureController.start
  split
  · exact h
  · split
    · exact h
    · have later : Since ended { w with epoch := w.epoch + 1 } :=
        ⟨Nat.le_succ_of_le h.epoch, h.attempts, h.pumps, h.attempt, h.pump, h.stream⟩
      simp only
      split
      · exact later.fail _
      · refine ⟨later.epoch, h.attempts, ?_, h.attempt, fun j pump found before => ?_, h.stream⟩
        · rw [note, List.length_append]
          exact Nat.le_add_right_of_le h.pumps
        · rcases found_concat found with found | ⟨rfl, -⟩
          · exact h.pump j pump found before
          · exact absurd before (Nat.not_lt_of_le h.pumps)

theorem Since.prepare (h : Since ended w) {available : Bool} : Since ended (w.prepare available) := by
  have stopped := h.stop
  refine ⟨stopped.epoch, ?_, h.pumps, fun k attempt found before => ?_, h.pump, stopped.stream⟩
  · rw [VoiceCaptureController.prepare, List.length_append]
    exact Nat.le_add_right_of_le h.attempts
  · rcases found_concat found with found | ⟨rfl, -⟩
    · exact h.attempt k attempt found before
    · exact absurd before (Nat.not_lt_of_le h.attempts)

theorem Since.attemptState (h : Since ended w) (state : VoiceAttemptState) :
    Since ended (w.attemptState k state) := by
  refine ⟨h.epoch, ?_, h.pumps, fun j attempt found before => ?_, h.pump, h.stream⟩
  · rw [VoiceCaptureController.attemptState, List.length_modify]
    exact h.attempts
  · obtain ⟨was, here, rfl⟩ := found_modify found
    have older := h.attempt j was here before
    split <;> exact older

theorem Since.denied (h : Since ended w) {epoch : Nat} : Since ended (w.denied k epoch) := by
  unfold VoiceCaptureController.denied
  split
  · exact h.attemptState _
  · exact h.stop.attemptState _

theorem Since.probed (h : Since ended w) {epoch : Nat} {supported : Option Bool} :
    Since ended (w.probed k epoch supported) := by
  match supported with
  | none => exact h.denied
  | some false => exact h.attemptState _
  | some true =>
      simp only [VoiceCaptureController.probed]
      split <;> exact h.attemptState _

/-- Only an attempt that is current gives its stream. -/
theorem Since.media (h : Since ended w) {epoch : Nat} {state : VoiceAttemptState}
    {stream : Option (Nat × Nat)} (found : w.attempts[k]? = some ⟨epoch, state⟩) :
    Since ended (w.media k epoch stream) := by
  match stream with
  | none => exact h.denied
  | some (audio, others) =>
      simp only [VoiceCaptureController.media]
      split
      · have settled := h.attemptState (k := k) (.settled (.error cancelled))
        exact ⟨settled.epoch, settled.attempts, settled.pumps, settled.attempt, settled.pump,
          settled.stream⟩
      · next same =>
        have same : epoch = w.epoch := not_not.mp same
        have late : ended.attempts.length ≤ k := by
          by_contra before
          have older : epoch < ended.epoch := h.attempt k _ found (Nat.lt_of_not_le before)
          have later := h.epoch
          omega
        have acquired (resources : Pool VoiceMedia) (tracks audioTracks : List Nat) : Since ended
            { w with resources, stream := some ⟨k, audioTracks, tracks⟩ } := by
          refine ⟨h.epoch, h.attempts, h.pumps, h.attempt, h.pump, fun stream is => ?_⟩
          obtain rfl := Option.some.inj is
          exact late
        split
        · exact (acquired _ _ _).stop.attemptState _
        · exact (acquired _ _ _).attemptState _

theorem Since.step (h : Since ended w) (event : VoiceEvent) : Since ended (w.step event) := by
  cases event with
  | prepare available => exact h.prepare
  | start opens => exact h.start
  | stop => exact h.stop
  | probed k supported =>
      simp only [VoiceCaptureController.step]
      split
      · exact h.probed
      · exact h
  | media k stream =>
      simp only [VoiceCaptureController.step]
      split
      · next found => exact h.media found
      · exact h
  | read i result encoding =>
      simp only [VoiceCaptureController.step]
      split
      · exact h.read
      · exact h
  | supported i supported creates encoding =>
      simp only [VoiceCaptureController.step]
      split
      · exact h.supported
      · exact h
  | output i chunk =>
      simp only [VoiceCaptureController.step]
      split
      · simp only [VoiceCaptureController.output]
        split
        · exact ⟨h.epoch, h.attempts, h.pumps, h.attempt, h.pump, h.stream⟩
        · exact h
      · exact h
  | error i =>
      simp only [VoiceCaptureController.step]
      split
      · exact h.failLive _ _
      · exact h

end Stops

/-- A capture never outlives its call: of any run, and of any run that goes on after a stop. -/
theorem never_outlives (events later : List VoiceEvent) :
    Conducted (Runs.run step {} events).log ∧ DataClosed (Runs.run step {} events) ∧
      Released (Runs.run step {} events).stop
        (Runs.run step (Runs.run step {} events).stop later) := by
  have inv : Inv none (Runs.run step {} events) :=
    Runs.invariant (I := Inv none) (fun _ event h => h.step event) {} events inv_begin
  have kept : Kept none none (Runs.run step {} events) :=
    Runs.invariant (I := Kept none none) (fun _ event h => h.step event) {} events kept_begin
  have after : Inv none (Runs.run step (Runs.run step {} events).stop later) :=
    Runs.invariant (I := Inv none) (fun _ event h => h.step event) _ later inv.stop
  have since : Since (Runs.run step {} events).stop
      (Runs.run step (Runs.run step {} events).stop later) :=
    Runs.invariant (I := Since _) (fun _ event h => h.step event) _ later (since_stop inv)
  exact ⟨inv.conducted, kept.dataClosed, since.released after⟩

end VoiceCaptureController
end WebClient
end CortenDesk
