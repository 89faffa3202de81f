import CortenDesk.Lib.Slots
import CortenDesk.WebClient.SessionRecorder
import Mathlib.Data.List.Chain

/-!
When recordings are saved. A cleanup detaches the callbacks, so one that comes between the end of a
recorder and its stop event loses what was recorded.
-/
namespace CortenDesk
namespace WebClient
open Slots
namespace LocalSessionRecorder
section
variable {α : Type} {w : LocalSessionRecorder α} {i : Nat} {r : MediaRecorder α}

/-- The download of a recording. -/
def saved (i : Nat) (r : MediaRecorder α) : Download α :=
  ⟨i, r.chunks.flatten, r.format.extension, r.startedAtMs⟩

/-- A recording that ends with data and no error is downloaded once; what was captured for it is
released by then, and nothing is captured while none is made; its start and end are told in turn. -/
structure Saves (w : LocalSessionRecorder α) : Prop where
  once : ∀ (i : Nat) (r : MediaRecorder α), w.recorders[i]? = some r → r.ended = true → r.failed = false → r.chunks ≠ [] →
    w.downloads.filter (fun d => d.recording = i) = [saved i r]
  released : ∀ (i : Nat) (r : MediaRecorder α), w.recorders[i]? = some r → r.ended = true ∨ r.errored = true →
    (∀ j ∈ r.captured, w.resources.opened? j = none) ∧
      ∀ j ∈ r.tap, w.resources.opened? j = none
  idle : w.active = false → w.resources.Drained
  alternates : w.states.IsChain (· ≠ ·) ∧ w.states.head?.getD true = true

/-- `stop` and `close` find no recorder that is inactive and has yet to deliver its end, unless it
has failed; and a surface that is captured has no audio. -/
def Orderly (w : LocalSessionRecorder α) : RecorderEvent α → Prop
  | .start env => w.active = false → (chooseRecordingMime env.isTypeSupported).isSome →
      ∀ video audio, env.capture = .stream video audio → audio = 0
  | .stop | .close => w.active = true → ∀ i ∈ w.recorder, ∀ r ∈ w.recorders[i]?,
      r.recording = false → r.failed = true
  | _ => True

/-- The current recording. -/
structure Current (w : LocalSessionRecorder α) (i : Nat) (r : MediaRecorder α) : Prop where
  found : w.recorders[i]? = some r
  started : r.started = true
  ended : r.ended = false
  errored : r.errored = false
  chunks : w.chunks = r.chunks
  format : w.format = some r.format
  startedAtMs : w.startedAtMs = r.startedAtMs
  combined : w.combined = some r.captured
  tap : w.audioTap = r.tap
  unsaved : w.downloads.filter (fun d => d.recording = i) = []

/-- What became of a recording that is over, or that never began. -/
structure Fate (w : LocalSessionRecorder α) (i : Nat) (r : MediaRecorder α) : Prop where
  ended : r.started = true → r.failed = false → r.ended = true
  begun : r.ended = true → r.started = true
  saved : r.failed = false → r.chunks ≠ [] →
    w.downloads.filter (fun d => d.recording = i) = [saved i r]

/-- What was captured for a recording was captured by now. -/
def Bounded (w : LocalSessionRecorder α) (r : MediaRecorder α) : Prop :=
  (∀ j ∈ r.captured, j < w.resources.next) ∧ ∀ j ∈ r.tap, j < w.resources.next

/-- Nothing is left that was captured for a recording. -/
def Closed (w : LocalSessionRecorder α) (r : MediaRecorder α) : Prop :=
  (∀ j ∈ r.captured, w.resources.opened? j = none) ∧ ∀ j ∈ r.tap, w.resources.opened? j = none

structure Inv (w : LocalSessionRecorder α) : Prop where
  active : w.active = w.recorder.isSome
  current : ∀ i, w.recorder = some i → ∃ r, Current w i r
  past : ∀ i r, w.recorders[i]? = some r → w.recorder ≠ some i → Fate w i r ∧ Closed w r
  free : w.recorder = none → w.combined = none ∧ w.audioTap = none
  held : ∀ j kind, w.resources.opened? j = some kind →
    j ∈ w.combined.getD [] ∨ w.audioTap = some j
  bounded : ∀ (i : Nat) (r : MediaRecorder α), w.recorders[i]? = some r → Bounded w r
  known : ∀ d ∈ w.downloads, d.recording < w.recorders.length
  chain : w.states.IsChain (· ≠ ·)
  head : w.states.head?.getD true = true
  last : w.states.getLast?.getD false = w.active

theorem inv_begin : Inv ({} : LocalSessionRecorder α) where
  active := rfl
  current i some := by cases some
  past i r found := by simp at found
  free _ := ⟨rfl, rfl⟩
  held j kind opened := by cases opened
  bounded i r found := by simp at found
  known d mem := by cases mem
  chain := .nil
  head := rfl
  last := rfl

theorem Inv.inactive (h : Inv w) (inactive : w.active = false) : w.recorder = none := by
  cases current : w.recorder with
  | none => rfl
  | some i =>
      have active := h.active
      rw [inactive, current] at active
      cases active

theorem Inv.drained (h : Inv w) (inactive : w.active = false) : w.resources.Drained := by
  obtain ⟨combined, tap⟩ := h.free (h.inactive inactive)
  rw [Pool.drained_iff]
  intro j
  cases opened : w.resources.opened? j with
  | none => rfl
  | some kind =>
      have held := h.held j kind opened
      simp [combined, tap] at held

theorem Inv.saves (h : Inv w) : Saves w where
  once i r found ended failed chunks := by
    by_cases current : w.recorder = some i
    · obtain ⟨r', is⟩ := h.current i current
      obtain rfl := Option.some.inj (found.symm.trans is.found)
      rw [is.ended] at ended
      cases ended
    · exact (h.past i r found current).1.saved failed chunks
  released i r found gone := by
    by_cases current : w.recorder = some i
    · obtain ⟨r', is⟩ := h.current i current
      obtain rfl := Option.some.inj (found.symm.trans is.found)
      rcases gone with ended | errored
      · rw [is.ended] at ended
        cases ended
      · rw [is.errored] at errored
        cases errored
    · exact (h.past i r found current).2
  idle := h.drained
  alternates := ⟨h.chain, h.head⟩

/-- What is told next is the other of what was told last. -/
theorem isChain_concat {states : List Bool} {active next : Bool} (chain : states.IsChain (· ≠ ·))
    (last : states.getLast?.getD false = active) (other : next = ! active) :
    (states ++ [next]).IsChain (· ≠ ·) := by
  refine List.isChain_append.mpr ⟨chain, .singleton next, fun before mem after first => ?_⟩
  rw [List.getLast?_eq_some_iff.mpr (List.getLast?_eq_some_iff.mp mem)] at last
  obtain rfl : before = active := last
  obtain rfl : next = after := by simpa using first
  subst other
  cases before <;> simp

theorem head_concat {states : List Bool} {active next : Bool} (head : states.head?.getD true = true)
    (last : states.getLast?.getD false = active) (other : next = ! active) :
    (states ++ [next]).head?.getD true = true := by
  cases states with
  | nil =>
      obtain rfl : false = active := last
      subst other
      rfl
  | cons first states => exact head

/-- A cleanup closes what is held; what it detaches from must be over. -/
theorem inv_cleanup {notify : Bool}
    (held : ∀ j kind, w.resources.opened? j = some kind →
      j ∈ w.combined.getD [] ∨ w.audioTap = some j)
    (fates : ∀ i r, w.recorders[i]? = some r → Fate w i r)
    (bounded : ∀ (i : Nat) (r : MediaRecorder α), w.recorders[i]? = some r → Bounded w r)
    (known : ∀ d ∈ w.downloads, d.recording < w.recorders.length)
    (chain : w.states.IsChain (· ≠ ·)) (head : w.states.head?.getD true = true)
    (last : w.states.getLast?.getD false = w.active) (told : notify = true → w.active = true) :
    Inv (w.cleanup notify) := by
  have closed (j : Nat) :
      ((w.resources.closeAll (w.combined.getD [])).release w.audioTap).opened? j = none := by
    cases opened : ((w.resources.closeAll (w.combined.getD [])).release w.audioTap).opened? j with
    | none => rfl
    | some kind =>
        obtain ⟨opened, notTap⟩ := Pool.opened?_release.mp opened
        obtain ⟨opened, notTrack⟩ := Pool.opened?_closeAll.mp opened
        rcases held j kind opened with track | tap
        · exact absurd track notTrack
        · exact absurd tap notTap
  have past (i : Nat) (r : MediaRecorder α) (found : w.recorders[i]? = some r) :
      Fate w i r ∧ (∀ j ∈ r.captured,
        ((w.resources.closeAll (w.combined.getD [])).release w.audioTap).opened? j = none) ∧
        ∀ j ∈ r.tap,
          ((w.resources.closeAll (w.combined.getD [])).release w.audioTap).opened? j = none :=
    ⟨fates i r found, fun j _ => closed j, fun j _ => closed j⟩
  unfold cleanup
  simp only
  split
  · next tells =>
    have active : w.active = true := by
      rcases Bool.or_eq_true_iff.mp tells with active | notify
      · exact active
      · exact told notify
    refine ⟨rfl, fun i some => (nomatch some), fun i r found _ => ?_, fun _ => ⟨rfl, rfl⟩,
      fun j kind opened => ?_, fun i r found => ?_, known, ?_, ?_, ?_⟩
    · obtain ⟨fate, gone⟩ := past i r found
      exact ⟨⟨fate.ended, fate.begun, fate.saved⟩, gone⟩
    · exact absurd ((closed j).symm.trans opened) (by simp)
    · simpa [Bounded, onState] using bounded i r found
    · exact isChain_concat chain (last.trans active) rfl
    · exact head_concat head (last.trans active) rfl
    · simp [onState]
  · next silent =>
    simp only [Bool.or_eq_true, not_or, Bool.not_eq_true] at silent
    refine ⟨rfl, fun i some => (nomatch some), fun i r found _ => ?_, fun _ => ⟨rfl, rfl⟩,
      fun j kind opened => ?_, fun i r found => ?_, known, chain, head, last.trans silent.1⟩
    · obtain ⟨fate, gone⟩ := past i r found
      exact ⟨⟨fate.ended, fate.begun, fate.saved⟩, gone⟩
    · exact absurd ((closed j).symm.trans opened) (by simp)
    · simpa [Bounded] using bounded i r found

/-- What a recorder was captured for does not change. -/
theorem Inv.bounded_modify (h : Inv w) {f : MediaRecorder α → MediaRecorder α} {j : Nat}
    (found : (w.recorders.modify i f)[j]? = some r)
    (keeps : ∀ r, (f r).captured = r.captured ∧ (f r).tap = r.tap) : Bounded w r := by
  obtain ⟨r', was, rfl⟩ := found_modify found
  have bounded := h.bounded j r' was
  split
  · rw [Bounded, (keeps r').1, (keeps r').2]
    exact bounded
  · exact bounded

/-- A recorder goes on, whatever of it is told to no callback that is attached. -/
theorem Inv.modify (h : Inv w) (f : MediaRecorder α → MediaRecorder α)
    (keeps : ∀ r, (f r).captured = r.captured ∧ (f r).tap = r.tap)
    (current : w.recorder = some i → ∀ r, Current w i r →
      Current { w with recorders := w.recorders.modify i f } i (f r))
    (past : w.recorder ≠ some i → ∀ r, w.recorders[i]? = some r → Fate w i r → Fate w i (f r)) :
    Inv { w with recorders := w.recorders.modify i f } := by
  refine ⟨h.active, fun j is => ?_, fun j r found away => ?_, h.free, h.held,
    fun j r found => h.bounded_modify found keeps, fun d mem => ?_, h.chain, h.head, h.last⟩
  · obtain ⟨r, was⟩ := h.current j is
    by_cases same : i = j
    · subst same
      exact ⟨f r, current is r was⟩
    · refine ⟨r, ?_, was.started, was.ended, was.errored, was.chunks, was.format, was.startedAtMs,
        was.combined, was.tap, was.unsaved⟩
      simp [same, was.found]
  · obtain ⟨r', was, rfl⟩ := found_modify found
    obtain ⟨fate, closed⟩ := h.past j r' was away
    by_cases same : i = j
    · subst same
      rw [if_pos rfl]
      have kept := past away r' was fate
      refine ⟨⟨kept.ended, kept.begun, kept.saved⟩, ?_⟩
      rw [Closed, (keeps r').1, (keeps r').2]
      exact closed
    · rw [if_neg same]
      exact ⟨⟨fate.ended, fate.begun, fate.saved⟩, closed⟩
  · rw [List.length_modify]
    exact h.known d mem

theorem live_eq_some_iff : w.live i = some r ↔
    w.recorders[i]? = some r ∧ r.started = true ∧ r.ended = false := by
  simp [live, Option.filter_eq_some_iff]

/-- What is live and not current has failed. -/
theorem Inv.failed (h : Inv w) (live : w.live i = some r) (away : w.recorder ≠ some i) :
    r.failed = true := by
  obtain ⟨found, started, ended⟩ := live_eq_some_iff.mp live
  by_contra failed
  rw [Bool.not_eq_true] at failed
  have told := (h.past i r found away).1.ended started failed
  rw [ended] at told
  cases told

theorem Inv.inactivate (h : Inv w) (i : Nat) : Inv (w.inactivate i) := by
  refine h.modify _ (fun r => ⟨rfl, rfl⟩) (fun _ r is => ?_) fun _ r _ fate => ?_
  · exact ⟨modify_found is.found, is.started, is.ended, is.errored, is.chunks, is.format,
      is.startedAtMs, is.combined, is.tap, is.unsaved⟩
  · exact ⟨fate.ended, fate.begun, fate.saved⟩

/-- A cleanup of a recording that has failed, or of none. -/
theorem Inv.cleanup (h : Inv w)
    (broken : ∀ i, w.recorder = some i → ∀ r, w.recorders[i]? = some r → r.failed = true) :
    Inv (w.cleanup false) := by
  refine inv_cleanup h.held (fun i r found => ?_) h.bounded h.known h.chain h.head h.last (by simp)
  by_cases is : w.recorder = some i
  · obtain ⟨r', current⟩ := h.current i is
    obtain rfl := Option.some.inj (found.symm.trans current.found)
    have failed := broken i is r found
    exact ⟨fun _ unfailed => absurd (failed.symm.trans unfailed) (by simp),
      fun ended => absurd (current.ended.symm.trans ended) (by simp),
      fun unfailed => absurd (failed.symm.trans unfailed) (by simp)⟩
  · exact (h.past i r found is).1

/-- A recorder that is not running is one that `stop` and `close` detach from. -/
theorem over_of_orderly (orderly : w.active = true → ∀ i ∈ w.recorder, ∀ r ∈ w.recorders[i]?,
      r.recording = false → r.failed = true) (h : Inv w) (idle : w.running = false) :
    ∀ i, w.recorder = some i → ∀ r, w.recorders[i]? = some r → r.failed = true := by
  intro i is r found
  refine orderly (by rw [h.active, is]; rfl) i is r found ?_
  simpa [running, is, found] using idle

theorem Inv.stop (h : Inv w) (orderly : w.Orderly .stop) : Inv w.stop := by
  unfold LocalSessionRecorder.stop
  split
  · exact h
  · split
    · exact h
    · split
      · exact h.inactivate _
      · next idle => exact h.cleanup (over_of_orderly orderly h (Bool.eq_false_iff.mpr idle))

theorem Inv.close (h : Inv w) (orderly : w.Orderly .close) : Inv w.close := by
  unfold LocalSessionRecorder.close
  split
  · next i is =>
    split
    · exact h.inactivate _
    · next idle =>
      have active : w.active = true := by rw [h.active, is]; rfl
      rw [active, Bool.true_and] at idle
      exact h.cleanup (over_of_orderly orderly h (Bool.eq_false_iff.mpr idle))
  · next none => exact h.cleanup fun i is => absurd (none.symm.trans is) (by simp)

theorem Inv.fails (h : Inv w) {i : Nat} : Inv (w.step (.fails i)) := by
  rw [step]
  split
  · refine h.modify _ (fun r => ⟨rfl, rfl⟩) (fun _ r is => ?_) fun _ r _ fate => ?_
    · exact ⟨modify_found is.found, is.started, is.ended, is.errored, is.chunks, is.format,
        is.startedAtMs, is.combined, is.tap, is.unsaved⟩
    · exact ⟨fun _ unfailed => (nomatch unfailed), fate.begun, fun unfailed => (nomatch unfailed)⟩
  · exact h

/-- A chunk that comes to the current recorder is kept by both. -/
theorem Inv.dataAvailable (h : Inv w) {i : Nat} {chunk : List α} :
    Inv (w.step (.dataAvailable i chunk)) := by
  simp only [step]
  split
  · next live =>
    obtain ⟨r, is⟩ := Option.isSome_iff_exists.mp live
    by_cases current : w.recorder = some i
    · rw [if_pos current]
      unfold ondataavailable
      split
      · next some =>
        refine ⟨h.active, fun j now => ?_, fun j r found away => ?_, h.free, h.held,
          fun j r found => h.bounded_modify found fun _ => ⟨rfl, rfl⟩, fun d mem => ?_, h.chain,
          h.head, h.last⟩
        · obtain rfl := Option.some.inj (current.symm.trans now)
          obtain ⟨r, was⟩ := h.current i current
          refine ⟨{ r with chunks := r.chunks ++ [chunk] }, ?_, was.started, was.ended, was.errored,
            ?_, was.format, was.startedAtMs, was.combined, was.tap, was.unsaved⟩
          · exact modify_found was.found
          · rw [was.chunks]
        · obtain ⟨r', was, rfl⟩ := found_modify found
          have other : i ≠ j := fun same => away (same ▸ current)
          rw [if_neg other]
          obtain ⟨fate, closed⟩ := h.past j r' was away
          exact ⟨⟨fate.ended, fate.begun, fate.saved⟩, closed⟩
        · rw [List.length_modify]
          exact h.known d mem
      · next none =>
        refine h.modify _ (fun r => ⟨rfl, rfl⟩) (fun _ r was => ?_) fun away => absurd current away
        exact ⟨modify_found was.found, was.started, was.ended, was.errored, was.chunks, was.format,
          was.startedAtMs, was.combined, was.tap, was.unsaved⟩
    · rw [if_neg current]
      have failed := h.failed is current
      refine h.modify _ (fun r => ?_) (fun now => absurd now current) fun _ r' found fate => ?_
      · split <;> exact ⟨rfl, rfl⟩
      · obtain rfl := Option.some.inj ((live_eq_some_iff.mp is).1.symm.trans found)
        split
        · exact ⟨fate.ended, fate.begun, fun unfailed => absurd (failed.symm.trans unfailed) (by simp)⟩
        · exact fate
  · exact h

/-- The current recorder tells its last; the recording is over. -/
theorem Inv.conclude (h : Inv w) {i : Nat} (current : w.recorder = some i)
    {f : MediaRecorder α → MediaRecorder α} {downloads : List (Download α)} {notify : Bool}
    (keeps : ∀ r, (f r).captured = r.captured ∧ (f r).tap = r.tap)
    (fate : ∀ r, Current w i r → Fate { w with downloads } i (f r))
    (others : ∀ j, i ≠ j → downloads.filter (fun d => d.recording = j) =
      w.downloads.filter fun d => d.recording = j)
    (known : ∀ d ∈ downloads, d.recording < w.recorders.length) :
    Inv ({ w with recorders := w.recorders.modify i f, downloads }.cleanup notify) := by
  have active : w.active = true := by rw [h.active, current]; rfl
  refine inv_cleanup h.held (fun j r found => ?_) (fun j r found => h.bounded_modify found keeps)
    (fun d mem => ?_) h.chain h.head h.last fun _ => active
  · obtain ⟨r', was, rfl⟩ := found_modify found
    by_cases same : i = j
    · subst same
      obtain ⟨r, is⟩ := h.current i current
      obtain rfl := Option.some.inj (was.symm.trans is.found)
      rw [if_pos rfl]
      have told := fate r' is
      exact ⟨told.ended, told.begun, told.saved⟩
    · rw [if_neg same]
      have away : w.recorder ≠ some j := fun other => same (Option.some.inj (current.symm.trans other))
      obtain ⟨fate, _⟩ := h.past j r' was away
      refine ⟨fate.ended, fate.begun, fun unfailed some => ?_⟩
      exact (others j same).trans (fate.saved unfailed some)
  · rw [List.length_modify]
    exact known d mem

/-- A recorder that has failed tells it; the recording is given up. -/
theorem Inv.error (h : Inv w) {i : Nat} : Inv (w.step (.error i)) := by
  simp only [step]
  split
  · next fails =>
    obtain ⟨r, is, failed⟩ := (Option.any_eq_true _ _).mp fails
    obtain ⟨found, -, ended⟩ := live_eq_some_iff.mp is
    by_cases current : w.recorder = some i
    · rw [if_pos current]
      refine h.conclude current (fun _ => ⟨rfl, rfl⟩) (fun r' was => ?_) (fun _ _ => rfl) h.known
      obtain rfl := Option.some.inj (found.symm.trans was.found)
      exact ⟨fun _ unfailed => absurd (failed.symm.trans unfailed) (by simp),
        fun told => absurd (ended.symm.trans told) (by simp),
        fun unfailed => absurd (failed.symm.trans unfailed) (by simp)⟩
    · rw [if_neg current]
      refine h.modify _ (fun r => ⟨rfl, rfl⟩) (fun now => absurd now current) fun _ _ _ fate => ?_
      exact ⟨fate.ended, fate.begun, fate.saved⟩
  · exact h

/-- A recorder that is not active tells that it has stopped; what it has recorded is saved. -/
theorem Inv.stopped (h : Inv w) {i : Nat} : Inv (w.step (.stopped i)) := by
  simp only [step]
  split
  · next stops =>
    obtain ⟨r, is, idle⟩ := (Option.any_eq_true _ _).mp stops
    obtain ⟨found, started, -⟩ := live_eq_some_iff.mp is
    by_cases current : w.recorder = some i
    · rw [if_pos current]
      obtain ⟨r', was⟩ := h.current i current
      obtain rfl := Option.some.inj (found.symm.trans was.found)
      simp only [onstop, was.format]
      split
      · next some =>
        refine h.conclude current (fun _ => ⟨rfl, rfl⟩) (fun r' now => ?_) (fun j other => ?_) fun d mem => ?_
        · obtain rfl := Option.some.inj (found.symm.trans now.found)
          refine ⟨fun _ _ => rfl, fun _ => started, fun _ _ => ?_⟩
          simp only [List.filter_append, was.unsaved]
          simp [saved, was.chunks, was.startedAtMs]
        · simp [List.filter_append, other]
        · rcases List.mem_append.mp mem with old | new
          · exact h.known d old
          · obtain rfl := List.mem_singleton.mp new
            exact (List.getElem?_eq_some_iff.mp found).1
      · next none =>
        refine h.conclude current (fun _ => ⟨rfl, rfl⟩) (fun r' now => ?_) (fun _ _ => rfl) h.known
        obtain rfl := Option.some.inj (found.symm.trans now.found)
        refine ⟨fun _ _ => rfl, fun _ => started, fun _ some => absurd ?_ some⟩
        rw [← was.chunks]
        exact List.length_eq_zero_iff.mp (Nat.eq_zero_of_not_pos none)
    · rw [if_neg current]
      refine h.modify _ (fun r => ⟨rfl, rfl⟩) (fun now => absurd now current) fun _ r' now fate => ?_
      obtain rfl := Option.some.inj (found.symm.trans now)
      exact ⟨fun _ _ => rfl, fun _ => started, fate.saved⟩
  · exact h

/-- A recording begins with what has been captured for it, or all of it is closed. -/
theorem Inv.record (h : Inv w) (inactive : w.active = false) {env : RecordingEnvironment}
    {format : RecordingFormat} {resources : Pool Source} {tap : Option Nat} {tracks : List Nat}
    (later : w.resources.next ≤ resources.next)
    (held : ∀ j kind, resources.opened? j = some kind → j ∈ tracks ∨ tap = some j)
    (known : (∀ j ∈ tracks, j < resources.next) ∧ ∀ j ∈ tap, j < resources.next)
    (fresh : ∀ j kind, resources.opened? j = some kind → w.resources.next ≤ j) :
    Inv ({ w with resources, audioTap := tap, combined := some tracks }.record env format
      tracks).1 := by
  have idle (i : Nat) : w.recorder ≠ some i := by simp [h.inactive inactive]
  have bounded (i : Nat) (r : MediaRecorder α) (found : w.recorders[i]? = some r) :
      (∀ j ∈ r.captured, j < resources.next) ∧ ∀ j ∈ r.tap, j < resources.next := by
    obtain ⟨captured, tapped⟩ := h.bounded i r found
    exact ⟨fun j mem => Nat.lt_of_lt_of_le (captured j mem) later,
      fun j mem => Nat.lt_of_lt_of_le (tapped j mem) later⟩
  unfold LocalSessionRecorder.record
  split
  · refine inv_cleanup held (fun i r found => ?_) bounded h.known h.chain h.head h.last (by simp)
    obtain ⟨fate, _⟩ := h.past i r found (idle i)
    exact ⟨fate.ended, fate.begun, fate.saved⟩
  · simp only [startRecorder]
    split
    · refine inv_cleanup held (fun i r found => ?_) (fun i r found => ?_) (fun d mem => ?_) h.chain
        h.head h.last (by simp)
      · rcases found_concat found with found | ⟨rfl, rfl⟩
        · obtain ⟨fate, _⟩ := h.past i r found (idle i)
          exact ⟨fate.ended, fate.begun, fate.saved⟩
        · exact ⟨fun started => (nomatch started), fun ended => (nomatch ended),
            fun _ some => absurd rfl some⟩
      · rcases found_concat found with found | ⟨rfl, rfl⟩
        · exact bounded i r found
        · exact known
      · have old := h.known d mem
        simp only [List.length_append]
        omega
    · rw [modify_last]
      refine ⟨rfl, fun i now => ?_, fun i r found away => ?_, fun none => (nomatch none), held,
        fun i r found => ?_, fun d mem => ?_, ?_, ?_, ?_⟩
      · obtain rfl : w.recorders.length = i := Option.some.inj now
        refine ⟨_, List.getElem?_concat_length, rfl, rfl, rfl, rfl, rfl, rfl, rfl, rfl, ?_⟩
        refine List.filter_eq_nil_iff.mpr fun d mem => ?_
        have old := h.known d mem
        simp only [decide_eq_true_eq]
        omega
      · rcases found_concat found with found | ⟨rfl, rfl⟩
        · obtain ⟨fate, captured, tapped⟩ := h.past i r found (idle i)
          obtain ⟨before, before'⟩ := h.bounded i r found
          have gone (j : Nat) (old : j < w.resources.next) : resources.opened? j = none := by
            cases opened : resources.opened? j with
            | none => rfl
            | some kind =>
                have late := fresh j kind opened
                omega
          exact ⟨⟨fate.ended, fate.begun, fate.saved⟩, fun j mem => gone j (before j mem),
            fun j mem => gone j (before' j mem)⟩
        · exact absurd rfl away
      · rcases found_concat found with found | ⟨rfl, rfl⟩
        · exact bounded i r found
        · exact known
      · have old := h.known d mem
        simp only [onState, List.length_append]
        omega
      · exact isChain_concat h.chain (h.last.trans inactive) rfl
      · exact head_concat h.head (h.last.trans inactive) rfl
      · simp [onState]

/-- What is open after the capture of a surface without audio. -/
theorem captured_opened (drained : w.resources.Drained) {video j : Nat} {kind : Source}
    (opened : (w.resources.obtainMany .video video).opened? j = some kind) :
    j ∈ List.range' w.resources.next video := by
  rcases Pool.opened?_obtainMany.mp opened with old | ⟨new, -⟩
  · rw [Pool.drained_iff.mp drained j] at old
    cases old
  · exact List.mem_range'_1.mpr new

/-- What was captured for a recording that does not begin is closed again. -/
theorem Inv.given_up (h : Inv w) (inactive : w.active = false) {resources : Pool Source}
    (later : w.resources.next ≤ resources.next) (closed : ∀ j, resources.opened? j = none) :
    Inv { w with resources, audioTap := none } := by
  have away (i : Nat) : w.recorder ≠ some i := by simp [h.inactive inactive]
  refine ⟨h.active, fun i is => absurd is (away i), fun i r found _ => ?_,
    fun none => ⟨(h.free none).1, rfl⟩, fun j kind opened => ?_, fun i r found => ?_, h.known, h.chain,
    h.head, h.last⟩
  · obtain ⟨fate, _⟩ := h.past i r found (away i)
    exact ⟨⟨fate.ended, fate.begun, fate.saved⟩, fun j _ => closed j, fun j _ => closed j⟩
  · exact absurd ((closed j).symm.trans opened) (by simp)
  · obtain ⟨captured, tapped⟩ := h.bounded i r found
    exact ⟨fun j mem => Nat.lt_of_lt_of_le (captured j mem) later,
      fun j mem => Nat.lt_of_lt_of_le (tapped j mem) later⟩

/-- `start` of a surface that has no audio. -/
theorem Inv.assemble (h : Inv w) (inactive : w.active = false) {env : RecordingEnvironment}
    {format : RecordingFormat} {video : Nat} : Inv (w.assemble env format video 0).1 := by
  have drained := h.drained inactive
  have noTap := (h.free (h.inactive inactive)).2
  have next : (w.resources.obtainMany .video video).next = w.resources.next + video :=
    Pool.next_obtainMany video
  -- the tracks of the surface, and the tap after them
  have tracks (j : Nat) (mem : j ∈ List.range' w.resources.next video) :
      w.resources.next ≤ j ∧ j < w.resources.next + video := List.mem_range'_1.mp mem
  have without (j : Nat) (kind : Source)
      (opened : (w.resources.obtainMany .video video).opened? j = some kind) :
      j ∈ List.range' w.resources.next video := captured_opened drained opened
  have tapped (j : Nat) (kind : Source)
      (opened : ((w.resources.obtainMany .video video).obtain .tap).opened? j = some kind) :
      j ∈ List.range' w.resources.next video ∨ w.resources.next + video = j := by
    rcases Pool.opened?_obtain.mp opened with opened | ⟨rfl, -⟩
    · exact .inl (without j kind opened)
    · exact .inr next.symm
  have closed (j : Nat) (held : Option Nat) : (((w.resources.obtainMany .video video).closeAll
      (List.range' w.resources.next video)).release held).opened? j = none := by
    rw [Option.eq_none_iff_forall_ne_some]
    intro kind opened
    obtain ⟨opened, missing⟩ := Pool.opened?_closeAll.mp (Pool.opened?_release.mp opened).1
    exact missing (without j kind opened)
  simp only [LocalSessionRecorder.assemble, Pool.obtainMany, Nat.add_zero]
  split
  · next zero =>
    subst zero
    exact h
  · cases tap : env.tap with
    | throws =>
        refine h.given_up inactive ?_ fun j => closed j w.audioTap
        simp [openTap, next]
    | none =>
        simp only [openTap]
        split
        · refine h.given_up inactive ?_ fun j => closed j none
          simp [next]
        · refine h.record inactive ?_ (fun j kind opened => .inl (without j kind opened)) ?_
            fun j kind opened => (tracks j (without j kind opened)).1
          · omega
          · exact ⟨fun j mem => next ▸ (tracks j mem).2, by simp⟩
    | tap =>
        have last : ((w.resources.obtainMany .video video).obtain .tap).next =
            w.resources.next + video + 1 := by
          rw [← next]
          exact List.length_append
        simp only [openTap, next]
        split
        · refine h.given_up inactive ?_ fun j => ?_
          · simp only [Pool.next_release, Pool.next_closeAll, last]
            omega
          · rw [Option.eq_none_iff_forall_ne_some]
            intro kind opened
            obtain ⟨opened, noTap⟩ := Pool.opened?_release.mp opened
            obtain ⟨opened, missing⟩ := Pool.opened?_closeAll.mp opened
            rcases tapped j kind opened with track | tap
            · exact missing track
            · exact noTap (congrArg some tap)
        · refine h.record inactive ?_ (fun j kind opened => ?_) ⟨fun j mem => ?_, fun j mem => ?_⟩
            fun j kind opened => ?_
          · omega
          · exact (tapped j kind opened).imp_right (congrArg some)
          · have before := (tracks j mem).2
            omega
          · obtain rfl := Option.some.inj mem
            omega
          · rcases tapped j kind opened with track | rfl
            · exact (tracks j track).1
            · omega

theorem Inv.start (h : Inv w) {env : RecordingEnvironment} (orderly : w.Orderly (.start env)) :
    Inv (w.start env).1 := by
  simp only [LocalSessionRecorder.start]
  split
  · exact h
  · next idle =>
    have inactive := Bool.eq_false_iff.mpr idle
    split
    · exact h
    · exact h
    · exact h
    · next video audio format captured supported =>
      obtain rfl := orderly inactive (by rw [supported]; rfl) video audio captured
      exact h.assemble inactive

theorem Inv.step (h : Inv w) {event : RecorderEvent α} (orderly : w.Orderly event) :
    Inv (w.step event) := by
  cases event with
  | start env => exact h.start orderly
  | stop => exact h.stop orderly
  | close => exact h.close orderly
  | tracksEnd i =>
      rw [LocalSessionRecorder.step]
      split
      · exact h.inactivate i
      · exact h
  | fails i => exact h.fails
  | dataAvailable i chunk => exact h.dataAvailable
  | error i => exact h.error
  | stopped i => exact h.stopped

/-- Recordings are saved exactly once, as long as no recorder is cut off before its stop event. -/
theorem saves_of_orderly (events : List (RecorderEvent α))
    (orderly : Runs.Along step Orderly ({} : LocalSessionRecorder α) events) :
    Saves (Runs.run step ({} : LocalSessionRecorder α) events) := by
  have preserved (w : LocalSessionRecorder α) (event : RecorderEvent α) (h : Inv w)
      (orderly : Orderly w event) : Inv (w.step event) := h.step orderly
  exact (Runs.invariant_along preserved events {} inv_begin orderly).saves

end

/-- A surface with one video track, and a browser that can record it. -/
def surface : RecordingEnvironment where
  isTypeSupported mimeType := mimeType == "video/webm"
  capture := .stream 1 0
  tap := .tap
  assembles := true
  creates := true
  starts := true
  now := 7

/-- A recording of two chunks that is stopped before its last. -/
def recorded : List (RecorderEvent UInt8) :=
  [.start surface, .dataAvailable 0 [1, 2], .stop, .dataAvailable 0 [3], .stopped 0]

theorem recorded_saves : Saves (Runs.run step {} recorded) := by
  refine saves_of_orderly recorded ⟨?_, trivial, ?_, trivial, trivial, trivial⟩
  · intro _ _ video audio capture
    cases capture
    rfl
  · rintro - i is r found
    obtain rfl : 0 = i := Option.some.inj is
    obtain rfl := Option.some.inj found
    exact nofun

/-- A second `stop` before the stop event of the recorder. -/
theorem second_stop_loses : ¬ Saves (Runs.run step ({} : LocalSessionRecorder UInt8)
    [.start surface, .dataAvailable 0 [1, 2], .stop, .stop, .stopped 0]) := by
  intro saves
  have once := saves.once 0 _ rfl rfl rfl (by simp)
  cases once

end LocalSessionRecorder
end WebClient
end CortenDesk
