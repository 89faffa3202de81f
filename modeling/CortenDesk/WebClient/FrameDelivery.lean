import CortenDesk.WebClient.WsStream

/-!
Every frame of a stream goes to one consumer or stays buffered, in the order in which the frames
came. The loop of `onMessage` empties the buffer, whatever its callbacks do, so that no frame
overtakes it.
-/
namespace CortenDesk
namespace WebClient

/-- The frame that an event brings, if `toBytes` takes it. -/
def StreamEvent.frames {Bytes : Type} : StreamEvent Bytes → List Bytes
  | .message data => (toBytes data).toOption.toList
  | _ => []

namespace WsStream
section
variable {Bytes : Type} {reacts : Nat → List StreamAction} {s t : WsStream Bytes}

/-- The frames that the promises of an iterator got. -/
def taken (s : WsStream Bytes) (g : Nat) : List Bytes :=
  s.handed.filterMap fun h =>
    match h.1 with
    | .promise p => if p.reader = some g then some h.2 else none
    | .callback _ => none

def answered (it : FrameIterator Bytes) : List Bytes := it.answers.filterMap id

/-- The frame that an iterator has and has not yielded. -/
def inFlight (s : WsStream Bytes) (it : FrameIterator Bytes) : List Bytes :=
  ((it.awaits.bind s.settled).bind id).toList

def promised (s : WsStream Bytes) : List Nat :=
  s.handed.filterMap fun h =>
    match h.1 with
    | .promise p => some p.id
    | .callback _ => none

/-- Each frame that came in went to one consumer, in order, or is buffered, which it is only while
no consumer is there; promises get theirs in the order of the calls, each at most one, and an
iterator yields those of its promises; what is buffered is for the next promise, closed or not, and
after the end every promise is settled. -/
structure Delivers (events : List (StreamEvent Bytes)) (s : WsStream Bytes) : Prop where
  arrived : s.received = events.flatMap StreamEvent.frames
  conserved : s.handed.map Prod.snd ++ s.queue = s.received
  unattended : s.queue ≠ [] → s.waiters = [] ∧ s.msgCb = none
  served : (promised s).Pairwise (· < ·)
  resolved : ∀ p b, (.promise p, b) ∈ s.handed → s.settled p.id = some (some b)
  outstanding : ∀ p, p < s.promises → (s.settled p = none ↔ ∃ w ∈ s.waiters, w.id = p)
  iterated : ∀ g, taken s g = answered (s.iterators g) ++ inFlight s (s.iterators g)
  buffered : ∀ reader b queue, s.queue = b :: queue →
    (s.next reader).settled s.promises = some (some b) ∧ (s.next reader).queue = queue
  keeps : s.teardown.queue = s.queue ∧ s.teardown.closed = true
  rejects : s.closed = false → ∀ w ∈ s.waiters, s.teardown.settled w.id = some none
  ended : s.closed = true → s.waiters = [] ∧
    (s.queue = [] → ∀ reader, (s.next reader).settled s.promises = some none)

/-- What holds also while a callback runs. The promises that got a frame and those that wait are in
the order of the calls. -/
structure Inv (s : WsStream Bytes) : Prop where
  conserved : s.handed.map Prod.snd ++ s.queue = s.received
  calm : s.waiters ≠ [] → s.queue = []
  closed : s.closed = true → s.waiters = []
  outstanding : ∀ p, s.settled p = none ↔ s.promises ≤ p ∨ p ∈ s.waiters.map Promised.id
  issued : ∀ p ∈ promised s ++ s.waiters.map Promised.id, p < s.promises
  served : (promised s ++ s.waiters.map Promised.id).Pairwise (· < ·)
  resolved : ∀ p b, (.promise p, b) ∈ s.handed → s.settled p.id = some (some b)
  reading : ∀ w ∈ s.waiters, ∀ g, w.reader = some g ↔ (s.iterators g).awaits = some w.id
  awaiting : ∀ g p, (s.iterators g).awaits = some p → p < s.promises
  iterated : ∀ g, taken s g = answered (s.iterators g) ++ inFlight s (s.iterators g)

theorem inv_begin : Inv ({} : WsStream Bytes) where
  conserved := rfl
  calm _ := rfl
  closed _ := rfl
  outstanding p := by simp
  issued p mem := by cases mem
  served := .nil
  resolved p b handed := by cases handed
  reading w waits := by cases waits
  awaiting g p awaits := by cases awaits
  iterated _ := rfl

theorem Inv.waiter_issued (h : Inv s) {w : Promised} (waits : w ∈ s.waiters) : w.id < s.promises :=
  h.issued w.id (List.mem_append_right _ (List.mem_map_of_mem waits))

theorem mem_promised {p : Nat} : p ∈ promised s ↔ ∃ w b, (.promise w, b) ∈ s.handed ∧ w.id = p := by
  simp only [promised, List.mem_filterMap]
  constructor
  · rintro ⟨⟨consumer, b⟩, handed, named⟩
    cases consumer with
    | promise w => exact ⟨w, b, handed, Option.some.inj named⟩
    | callback cb => cases named
  · rintro ⟨w, b, handed, rfl⟩
    exact ⟨(.promise w, b), handed, rfl⟩

/-- A promise that waits is resolved with a frame, which is the next. -/
theorem Inv.resolve (h : Inv s) {w : Promised} {waiters : List Promised}
    (waits : s.waiters = w :: waiters) (b : Bytes) :
    Inv (({ s with received := s.received ++ [b], waiters } : WsStream Bytes).resolve w b) := by
  have first : w ∈ s.waiters := by simp [waits]
  have pending : s.settled w.id = none :=
    (h.outstanding w.id).mpr (.inr (List.mem_map_of_mem first))
  have empty : s.queue = [] := h.calm (by simp [waits])
  -- The promise moves from those that wait to those that got a frame.
  have moved : promised (({ s with received := s.received ++ [b], waiters } : WsStream Bytes).resolve w b) ++
      waiters.map Promised.id = promised s ++ s.waiters.map Promised.id := by
    simp [promised, WsStream.resolve, waits]
  have alone : w.id ∉ waiters.map Promised.id := by
    have served := (List.pairwise_append.mp h.served).2.1
    rw [waits, List.map_cons, List.pairwise_cons] at served
    exact fun mem => Nat.lt_irrefl _ (served.1 w.id mem)
  refine ⟨?_, fun _ => empty, fun closed => ?_, fun p => ?_, ?_, ?_, fun p b' handed => ?_,
    fun w' waits' => ?_, h.awaiting, fun g => ?_⟩
  · have conserved := h.conserved
    rw [empty, List.append_nil] at conserved
    simp [WsStream.resolve, empty, conserved]
  · have none := h.closed closed
    rw [waits] at none
    cases none
  · by_cases same : p = w.id
    · subst same
      have before := h.waiter_issued first
      simp only [WsStream.resolve, Function.update_self]
      refine iff_of_false (by simp) ?_
      rintro (late | mem)
      · exact absurd before (by omega)
      · exact alone mem
    · simp only [WsStream.resolve, Function.update_of_ne same]
      rw [h.outstanding p, waits]
      simp [same]
  · change ∀ p ∈ _ ++ waiters.map Promised.id, p < s.promises
    rw [moved]
    exact h.issued
  · change (_ ++ waiters.map Promised.id).Pairwise _
    rw [moved]
    exact h.served
  · rcases List.mem_append.mp handed with before | last
    · have resolved := h.resolved p b' before
      have away : p.id ≠ w.id := by
        intro same
        rw [same, pending] at resolved
        cases resolved
      simpa [WsStream.resolve, Function.update_of_ne away] using resolved
    · have same := List.mem_singleton.mp last
      obtain ⟨named, rfl⟩ := Prod.mk.inj same
      obtain rfl := Consumer.promise.inj named
      simp [WsStream.resolve]
  · exact h.reading w' (by rw [waits]; exact List.mem_cons_of_mem _ waits')
  · have iterated := h.iterated g
    have reading := h.reading w first g
    by_cases own : w.reader = some g
    · have awaits := reading.mp own
      have none : inFlight s (s.iterators g) = [] := by simp [inFlight, awaits, pending]
      rw [none, List.append_nil] at iterated
      have added : taken (({ s with received := s.received ++ [b], waiters } : WsStream Bytes).resolve w b) g =
          taken s g ++ [b] := by simp [taken, WsStream.resolve, own]
      rw [added, iterated]
      simp [inFlight, WsStream.resolve, awaits]
    · have added : taken (({ s with received := s.received ++ [b], waiters } : WsStream Bytes).resolve w b) g =
          taken s g := by simp [taken, WsStream.resolve, own]
      rw [added, iterated]
      congr 1
      simp only [inFlight, WsStream.resolve]
      cases awaits : (s.iterators g).awaits with
      | none => rfl
      | some p =>
          have away : p ≠ w.id := by
            rintro rfl
            exact own (reading.mpr awaits)
          simp [Function.update_of_ne away]

theorem Inv.settled_new (h : Inv s) : s.settled s.promises = none :=
  (h.outstanding s.promises).mpr (.inl (Nat.le_refl _))

theorem Inv.new_not_promised (h : Inv s) : s.promises ∉ promised s :=
  fun mem => Nat.lt_irrefl _ (h.issued _ (List.mem_append_left _ mem))

theorem Inv.no_waiters (h : Inv s) {b : Bytes} {queue : List Bytes} (queued : s.queue = b :: queue) :
    s.waiters = [] := by
  by_contra some
  have empty := h.calm some
  rw [queued] at empty
  cases empty

/-- The iterators when `next()` is called, for none of them or for one whose body goes on to await
the promise. -/
structure Asks (s : WsStream Bytes) (reader : Option Nat) (its : Nat → FrameIterator Bytes) : Prop where
  other : ∀ g, reader ≠ some g → its g = s.iterators g
  awaits : ∀ g, reader = some g → (its g).awaits = some s.promises
  yielded : ∀ g, reader = some g → taken s g = answered (its g)
  free : ∀ g, reader = some g → ∀ w ∈ s.waiters, w.reader ≠ some g

section Next
variable {reader : Option Nat} {its : Nat → FrameIterator Bytes}

theorem Inv.asks_awaiting (h : Inv s) (asks : Asks s reader its) (g p : Nat)
    (awaits : (its g).awaits = some p) : p < s.promises + 1 := by
  by_cases mine : reader = some g
  · rw [asks.awaits g mine] at awaits
    have same := Option.some.inj awaits
    omega
  · rw [asks.other g mine] at awaits
    have before := h.awaiting g p awaits
    omega

/-- An iterator other than the one that asks is where it was. -/
theorem Inv.asks_inFlight (h : Inv s) (asks : Asks s reader its) {g : Nat} (result : Option Bytes)
    (mine : reader ≠ some g) :
    (((its g).awaits.bind (Function.update s.settled s.promises (some result))).bind id).toList =
      inFlight s (s.iterators g) := by
  rw [asks.other g mine, inFlight]
  cases awaits : (s.iterators g).awaits with
  | none => rfl
  | some p =>
      have before := h.awaiting g p awaits
      have away : p ≠ s.promises := by omega
      simp [Function.update_of_ne away]

/-- A promise that is settled at once, when no other waits. -/
theorem Inv.settle_outstanding (h : Inv s) (result : Option Bytes) (none : s.waiters = []) (p : Nat) :
    Function.update s.settled s.promises (some result) p = Option.none ↔
      s.promises + 1 ≤ p ∨ p ∈ s.waiters.map Promised.id := by
  by_cases same : p = s.promises
  · subst same
    simp [none]
  · rw [Function.update_of_ne same, h.outstanding p, none]
    simp only [List.map_nil, List.not_mem_nil, or_false]
    omega

theorem Inv.settle_resolved (h : Inv s) (result : Option Bytes) (p : Promised) (b : Bytes)
    (handed : (Consumer.promise p, b) ∈ s.handed) :
    Function.update s.settled s.promises (some result) p.id = some (some b) := by
  have away : p.id ≠ s.promises := fun same =>
    h.new_not_promised (mem_promised.mpr ⟨p, b, handed, same⟩)
  rw [Function.update_of_ne away]
  exact h.resolved p b handed

/-- What is buffered goes to the new promise, ahead of what comes. -/
theorem Inv.next_buffered (h : Inv s) (asks : Asks s reader its) {b : Bytes} {queue : List Bytes}
    (queued : s.queue = b :: queue) :
    Inv (({ s with iterators := its, promises := s.promises + 1, queue } : WsStream Bytes).resolve
      ⟨s.promises, reader⟩ b) := by
  have none := h.no_waiters queued
  have added : promised (({ s with
      iterators := its, promises := s.promises + 1, queue } : WsStream Bytes).resolve
        ⟨s.promises, reader⟩ b) ++ s.waiters.map Promised.id = promised s ++ [s.promises] := by
    simp [promised, WsStream.resolve, none]
  have issued := h.issued
  have served := h.served
  rw [none, List.map_nil, List.append_nil] at issued served
  refine ⟨?_, fun some => absurd none some, h.closed, h.settle_outstanding (some b) none, ?_, ?_,
    fun p b' handed => ?_, fun w waits => ?_, h.asks_awaiting asks, fun g => ?_⟩
  · have conserved := h.conserved
    rw [queued] at conserved
    simp [WsStream.resolve, ← conserved]
  · change ∀ p ∈ _ ++ s.waiters.map Promised.id, p < s.promises + 1
    rw [added]
    intro p mem
    rcases List.mem_append.mp mem with before | last
    · exact Nat.lt_succ_of_lt (issued p before)
    · rw [List.mem_singleton.mp last]
      exact Nat.lt_succ_self _
  · change (_ ++ s.waiters.map Promised.id).Pairwise _
    rw [added, List.pairwise_append]
    refine ⟨served, List.pairwise_singleton _ _, fun p before q last => ?_⟩
    rw [List.mem_singleton.mp last]
    exact issued p before
  · rcases List.mem_append.mp handed with before | last
    · exact h.settle_resolved (some b) p b' before
    · obtain ⟨named, rfl⟩ := Prod.mk.inj (List.mem_singleton.mp last)
      obtain rfl := Consumer.promise.inj named
      simp [WsStream.resolve]
  · rw [show _ = s.waiters from rfl, none] at waits
    cases waits
  · by_cases mine : reader = some g
    · have same := asks.yielded g mine
      simp only [taken] at same
      simp [taken, WsStream.resolve, mine, same, inFlight, asks.awaits g mine]
    · have same : taken (({ s with
          iterators := its, promises := s.promises + 1, queue } : WsStream Bytes).resolve
            ⟨s.promises, reader⟩ b) g = taken s g := by
        simp [taken, WsStream.resolve, mine]
      rw [same, h.iterated g, ← h.asks_inFlight asks (some b) mine]
      exact congrArg (answered · ++ _) (asks.other g mine).symm

/-- After the end, with nothing buffered, a new promise is rejected. -/
theorem Inv.next_rejected (h : Inv s) (asks : Asks s reader its) (closed : s.closed = true) :
    Inv (({ s with iterators := its, promises := s.promises + 1 } : WsStream Bytes).reject
      ⟨s.promises, reader⟩) := by
  have none := h.closed closed
  refine ⟨h.conserved, fun some => absurd none some, h.closed, h.settle_outstanding Option.none none,
    fun p mem => Nat.lt_succ_of_lt (h.issued p mem), h.served,
    fun p b handed => h.settle_resolved Option.none p b handed, fun w waits => ?_,
    h.asks_awaiting asks, fun g => ?_⟩
  · rw [show _ = s.waiters from rfl, none] at waits
    cases waits
  · change taken s g = _
    by_cases mine : reader = some g
    · simp [asks.yielded g mine, inFlight, asks.awaits g mine, WsStream.reject]
    · rw [h.iterated g, ← h.asks_inFlight asks Option.none mine]
      exact congrArg (answered · ++ _) (asks.other g mine).symm

/-- With nothing buffered, a new promise waits behind the others. -/
theorem Inv.next_waits (h : Inv s) (asks : Asks s reader its) (empty : s.queue = [])
    (opened : s.closed ≠ true) :
    Inv { s with
      iterators := its, promises := s.promises + 1
      waiters := s.waiters ++ [⟨s.promises, reader⟩] } := by
  have behind : promised s ++ (s.waiters ++ [Promised.mk s.promises reader]).map Promised.id =
      (promised s ++ s.waiters.map Promised.id) ++ [s.promises] := by simp
  refine ⟨h.conserved, fun _ => empty, fun ended => absurd ended opened, fun p => ?_, ?_, ?_,
    h.resolved, fun w waits g => ?_, h.asks_awaiting asks, fun g => ?_⟩
  · change s.settled p = none ↔ _
    rw [h.outstanding p]
    simp only [List.map_append, List.mem_append, List.map_cons, List.map_nil, List.mem_singleton]
    constructor
    · rintro (late | waits)
      · rcases Nat.eq_or_lt_of_le late with same | later
        · exact .inr (.inr same.symm)
        · exact .inl later
      · exact .inr (.inl waits)
    · rintro (late | waits | same)
      · exact .inl (by omega)
      · exact .inr waits
      · exact .inl (by omega)
  · change ∀ p ∈ promised s ++ (s.waiters ++ [Promised.mk s.promises reader]).map Promised.id,
      p < s.promises + 1
    rw [behind]
    intro p mem
    rcases List.mem_append.mp mem with before | last
    · exact Nat.lt_succ_of_lt (h.issued p before)
    · rw [List.mem_singleton.mp last]
      exact Nat.lt_succ_self _
  · change (promised s ++ (s.waiters ++ [Promised.mk s.promises reader]).map Promised.id).Pairwise _
    rw [behind, List.pairwise_append]
    refine ⟨h.served, List.pairwise_singleton _ _, fun p before q last => ?_⟩
    rw [List.mem_singleton.mp last]
    exact h.issued p before
  · change w.reader = some g ↔ (its g).awaits = some w.id
    rcases List.mem_append.mp waits with before | last
    · by_cases mine : reader = some g
      · have issued := h.waiter_issued before
        rw [asks.awaits g mine]
        refine iff_of_false (asks.free g mine w before) fun same => ?_
        have same := Option.some.inj same
        omega
      · rw [asks.other g mine]
        exact h.reading w before g
    · obtain rfl := List.mem_singleton.mp last
      by_cases mine : reader = some g
      · exact iff_of_true mine (asks.awaits g mine)
      · rw [asks.other g mine]
        refine iff_of_false mine fun awaits => ?_
        exact Nat.lt_irrefl _ (h.awaiting g _ awaits)
  · change taken s g = answered (its g) ++ inFlight s (its g)
    by_cases mine : reader = some g
    · simp [asks.yielded g mine, inFlight, asks.awaits g mine, h.settled_new]
    · rw [asks.other g mine]
      exact h.iterated g

/-- A call of `next()`. -/
theorem Inv.next (h : Inv s) (asks : Asks s reader its) :
    Inv (({ s with iterators := its } : WsStream Bytes).next reader) := by
  unfold WsStream.next
  cases queued : s.queue with
  | cons b queue => exact h.next_buffered asks queued
  | nil =>
      simp only
      split
      · next closed =>
        have rejected := h.next_rejected asks closed
        rw [queued] at rejected
        exact rejected
      · next opened =>
        have waits := h.next_waits asks queued opened
        rw [queued] at waits
        exact waits

end Next

/-- An iterator that is left where it awaits what it did. -/
theorem Inv.putIterator (h : Inv s) (g : Nat) (it : FrameIterator Bytes)
    (reading : ∀ w ∈ s.waiters, w.reader = some g ↔ it.awaits = some w.id)
    (awaiting : ∀ p, it.awaits = some p → p < s.promises)
    (iterated : taken s g = answered it ++ inFlight s it) : Inv (s.putIterator g it) := by
  refine ⟨h.conserved, h.calm, h.closed, h.outstanding, h.issued, h.served, h.resolved,
    fun w waits g' => ?_, fun g' p awaits => ?_, fun g' => ?_⟩
  · by_cases same : g' = g
    · subst same
      simpa [WsStream.putIterator] using reading w waits
    · simpa [WsStream.putIterator, Function.update_of_ne same] using h.reading w waits g'
  · by_cases same : g' = g
    · subst same
      exact awaiting p (by simpa [WsStream.putIterator] using awaits)
    · exact h.awaiting g' p (by simpa [WsStream.putIterator, Function.update_of_ne same] using awaits)
  · change taken s g' = _ ++ inFlight s _
    by_cases same : g' = g
    · subst same
      simpa [WsStream.putIterator] using iterated
    · simpa [WsStream.putIterator, Function.update_of_ne same] using h.iterated g'

/-- The body of an iterator goes on when no promise of it waits and it has yielded what it took. -/
theorem Inv.advance (h : Inv s) (g : Nat) (it : FrameIterator Bytes)
    (free : ∀ w ∈ s.waiters, w.reader ≠ some g) (same : taken s g = answered it) :
    Inv (s.advance g it) := by
  unfold WsStream.advance
  split
  · refine h.putIterator g _ (fun w waits => iff_of_false (free w waits) (by simp)) (by simp) ?_
    simpa [answered, inFlight] using same
  · refine h.putIterator g _ (fun w waits => iff_of_false (free w waits) (by simp)) (by simp) ?_
    rw [same]
    simp [answered, inFlight]
  · refine h.next ⟨fun g' other => ?_, fun g' own => ?_, fun g' own => ?_, fun g' own => ?_⟩
    · exact Function.update_of_ne (fun same => other (congrArg some same.symm)) _ _
    · obtain rfl := Option.some.inj own
      simp
    · obtain rfl := Option.some.inj own
      simpa [answered] using same
    · obtain rfl := Option.some.inj own
      exact free

theorem Inv.request (h : Inv s) (g : Nat) (request : Request) : Inv (s.request g request) := by
  unfold WsStream.request
  simp only
  split
  · refine h.putIterator g _ (fun w waits => h.reading w waits g) (h.awaiting g) ?_
    simpa [answered, inFlight] using h.iterated g
  · split
    · exact h.putIterator g _ (fun w waits => h.reading w waits g) (h.awaiting g) (h.iterated g)
    · next idle =>
      have none : (s.iterators g).awaits = none := Option.not_isSome_iff_eq_none.mp idle
      refine h.advance g _ (fun w waits own => ?_) ?_
      · have awaits := (h.reading w waits g).mp own
        rw [none] at awaits
        cases awaits
      · have iterated := h.iterated g
        simpa [inFlight, none, answered] using iterated

theorem Inv.resume (h : Inv s) (g : Nat) : Inv (s.resume g) := by
  have free {p : Nat} (awaits : (s.iterators g).awaits = some p) (settled : s.settled p ≠ none) :
      ∀ w ∈ s.waiters, w.reader ≠ some g := by
    intro w waits own
    have same := Option.some.inj (awaits.symm.trans ((h.reading w waits g).mp own))
    exact settled ((h.outstanding p).mpr (.inr (same ▸ List.mem_map_of_mem waits)))
  have iterated := h.iterated g
  unfold WsStream.resume
  simp only
  split
  · exact h
  · next b got =>
    obtain ⟨p, awaits, settled⟩ := Option.bind_eq_some_iff.mp got
    refine h.advance g _ (free awaits (by simp [settled])) ?_
    simpa [inFlight, awaits, settled, answered] using iterated
  · next got =>
    obtain ⟨p, awaits, settled⟩ := Option.bind_eq_some_iff.mp got
    have waits := free awaits (by simp [settled])
    refine h.putIterator g _ (fun w mem => iff_of_false (waits w mem) (by simp)) (by simp) ?_
    rw [iterated]
    simp [inFlight, awaits, settled, answered]

theorem settled_foldl_reject (waiters : List Promised) (s : WsStream Bytes) (p : Nat) :
    (waiters.foldl reject s).settled p =
      if p ∈ waiters.map Promised.id then some none else s.settled p := by
  induction waiters generalizing s with
  | nil => rfl
  | cons w waiters ih =>
      rw [List.foldl_cons, ih]
      by_cases same : p = w.id
      · subst same
        simp [reject]
      · simp [reject, same]

/-- A rejection settles its promise and does nothing else. -/
theorem foldl_reject (waiters : List Promised) (s : WsStream Bytes) :
    waiters.foldl reject s = { s with settled := (waiters.foldl reject s).settled } := by
  induction waiters generalizing s with
  | nil => rfl
  | cons w waiters ih =>
      rw [List.foldl_cons, ih]
      rfl

theorem Inv.teardown (h : Inv s) : Inv s.teardown := by
  unfold WsStream.teardown
  split
  · exact h
  · rw [foldl_reject]
    have settled (p : Nat) := settled_foldl_reject s.waiters { s with closed := true, waiters := [] } p
    generalize (s.waiters.foldl reject { s with closed := true, waiters := [] }).settled = f at settled
    have kept : List.Sublist (promised s ++ [].map Promised.id) (promised s ++ s.waiters.map Promised.id) :=
      List.Sublist.append (List.Sublist.refl _) (List.nil_sublist _)
    refine ⟨h.conserved, fun some => absurd rfl some, fun _ => rfl, fun p => ?_,
      fun p mem => h.issued p (kept.subset mem), h.served.sublist kept, fun p b handed => ?_,
      fun w waits => ?_, h.awaiting, fun g => ?_⟩
    · change f p = none ↔ _
      rw [settled p]
      by_cases waits : p ∈ s.waiters.map Promised.id
      · obtain ⟨w, mem, rfl⟩ := List.mem_map.mp waits
        have issued := h.waiter_issued mem
        rw [if_pos waits]
        exact iff_of_false (by simp) (by simp; omega)
      · rw [if_neg waits]
        exact (h.outstanding p).trans (by simp [waits])
    · change f p.id = _
      have resolved := h.resolved p b handed
      rw [settled p.id, if_neg]
      · exact resolved
      · intro waits
        rw [(h.outstanding p.id).mpr (.inr waits)] at resolved
        cases resolved
    · cases waits
    · change taken s g = _
      rw [h.iterated g]
      congr 1
      unfold inFlight
      cases awaits : (s.iterators g).awaits with
      | none => rfl
      | some p =>
          have now := settled p
          by_cases waits : p ∈ s.waiters.map Promised.id
          · have pending := (h.outstanding p).mpr (.inr waits)
            rw [if_pos waits] at now
            simp [pending, now]
          · rw [if_neg waits] at now
            simp [now]

/-- A frame that is taken from the buffer for a callback. -/
theorem Inv.called (h : Inv s) {b : Bytes} {queue : List Bytes} (queued : s.queue = b :: queue)
    (cb : Nat) : Inv (({ s with queue } : WsStream Bytes).called cb b) := by
  have same : promised (({ s with queue } : WsStream Bytes).called cb b) = promised s := by
    simp [promised, WsStream.called]
  refine ⟨?_, fun some => absurd (h.no_waiters queued) some, h.closed, h.outstanding,
    same ▸ h.issued, same ▸ h.served, fun p b' handed => ?_, h.reading, h.awaiting, fun g => ?_⟩
  · have conserved := h.conserved
    rw [queued] at conserved
    simp [WsStream.called, ← conserved]
  · rcases List.mem_append.mp handed with before | last
    · exact h.resolved p b' before
    · cases List.mem_singleton.mp last
  · have same : taken (({ s with queue } : WsStream Bytes).called cb b) g = taken s g := by
      simp [taken, WsStream.called]
    rw [same]
    exact h.iterated g

theorem Inv.attach (h : Inv s) (cb : Nat) : Inv { s with msgCb := some cb } :=
  ⟨h.conserved, h.calm, h.closed, h.outstanding, h.issued, h.served, h.resolved, h.reading,
    h.awaiting, h.iterated⟩

theorem Inv.nextNone (h : Inv s) : Inv (s.next none) := by
  refine @Inv.next _ _ none s.iterators h ⟨fun _ _ => rfl, fun g own => ?_, fun g own => ?_,
    fun g own => ?_⟩
  all_goals cases own

theorem perform_preserves {P : WsStream Bytes → Prop} {loop : Nat → WsStream Bytes → WsStream Bytes}
    (next : ∀ s, P s → P (s.next none)) (request : ∀ s g r, P s → P (s.request g r))
    (close : ∀ s, P s → P s.teardown)
    (looped : ∀ cb s, P s → P (loop cb { s with msgCb := some cb })) (a : StreamAction) (hs : P s) :
    P (s.perform loop a) := by
  cases a with
  | next => exact next s hs
  | request g r => exact request s g r hs
  | onMessage cb => exact looped cb s hs
  | close => exact close s hs

/-- The induction of the loop of `onMessage`: what the actions and the calls of a callback keep, the
loop keeps. -/
theorem drain_preserves {P : WsStream Bytes → Prop} (next : ∀ s, P s → P (s.next none))
    (request : ∀ s g r, P s → P (s.request g r)) (close : ∀ s, P s → P s.teardown)
    (attach : ∀ s cb, P s → P { s with msgCb := some cb })
    (called : ∀ s b queue cb, P s → s.queue = b :: queue → P (({ s with queue } : WsStream Bytes).called cb b))
    (fuel cb : Nat) (s : WsStream Bytes) (hs : P s) : P (drain reacts fuel cb s) := by
  induction fuel generalizing cb s with
  | zero => exact hs
  | succ fuel ih =>
      unfold drain
      split
      · exact hs
      · next b queue queued =>
        split
        · refine ih cb _ (List.foldlRecOn _ _ (called s b queue cb hs queued) ?_)
          intro t ht a _
          exact perform_preserves next request close (fun cb t ht => ih cb _ (attach t cb ht)) a ht
        · exact hs

theorem Inv.act (h : Inv s) (a : StreamAction) : Inv (s.act reacts a) := by
  refine perform_preserves (fun _ h => h.nextNone) (fun _ g r h => h.request g r)
    (fun _ h => h.teardown) (fun cb t ht => ?_) a h
  exact drain_preserves (fun _ h => h.nextNone) (fun _ g r h => h.request g r) (fun _ h => h.teardown)
    (fun _ cb h => h.attach cb) (fun _ _ _ cb h queued => h.called queued cb) _ cb _ (ht.attach cb)

/-- A step that takes from the buffer at most and leaves the callback, and brings no frame. -/
structure Takes (s t : WsStream Bytes) : Prop where
  msgCb : t.msgCb = s.msgCb
  queue : t.queue.length ≤ s.queue.length
  received : t.received = s.received

theorem takes_next (s : WsStream Bytes) (reader : Option Nat) : Takes s (s.next reader) := by
  unfold WsStream.next
  cases queued : s.queue with
  | nil =>
      simp only
      split
      · exact ⟨rfl, Nat.zero_le _, rfl⟩
      · exact ⟨rfl, Nat.zero_le _, rfl⟩
  | cons b queue => exact ⟨rfl, by simp [WsStream.resolve, queued], rfl⟩

theorem takes_advance (s : WsStream Bytes) (g : Nat) (it : FrameIterator Bytes) :
    Takes s (s.advance g it) := by
  unfold WsStream.advance
  split
  · exact ⟨rfl, Nat.le_refl _, rfl⟩
  · exact ⟨rfl, Nat.le_refl _, rfl⟩
  · have taken := takes_next (s.putIterator g { it with awaits := some s.promises }) (some g)
    exact ⟨taken.msgCb, taken.queue, taken.received⟩

theorem takes_request (s : WsStream Bytes) (g : Nat) (request : Request) :
    Takes s (s.request g request) := by
  unfold WsStream.request
  simp only
  split
  · exact ⟨rfl, Nat.le_refl _, rfl⟩
  · split
    · exact ⟨rfl, Nat.le_refl _, rfl⟩
    · exact takes_advance s g _

theorem takes_resume (s : WsStream Bytes) (g : Nat) : Takes s (s.resume g) := by
  unfold WsStream.resume
  simp only
  split
  · exact ⟨rfl, Nat.le_refl _, rfl⟩
  · exact takes_advance s g _
  · exact ⟨rfl, Nat.le_refl _, rfl⟩

theorem queue_teardown (s : WsStream Bytes) : s.teardown.queue = s.queue := by
  unfold WsStream.teardown
  split
  · rfl
  · rw [foldl_reject]

theorem takes_teardown (s : WsStream Bytes) : Takes s s.teardown := by
  have queue := Nat.le_of_eq (congrArg List.length (queue_teardown s))
  revert queue
  unfold WsStream.teardown
  split
  · exact fun queue => ⟨rfl, queue, rfl⟩
  · rw [foldl_reject]
    exact fun queue => ⟨rfl, queue, rfl⟩

theorem drain_queue (fuel cb bound : Nat) (s : WsStream Bytes) (short : s.queue.length ≤ bound) :
    (drain reacts fuel cb s).queue.length ≤ bound := by
  refine drain_preserves (P := fun s => s.queue.length ≤ bound)
    (fun s h => Nat.le_trans (takes_next s none).queue h)
    (fun s g r h => Nat.le_trans (takes_request s g r).queue h)
    (fun s h => Nat.le_trans (takes_teardown s).queue h) (fun s cb h => h) ?_ fuel cb s short
  intro s b queue cb h queued
  rw [queued, List.length_cons] at h
  change queue.length ≤ bound
  omega

/-- More fuel than there are frames changes nothing: the loop, and those inside it, end by
themselves. -/
theorem drain_fuel (fuel cb : Nat) (s : WsStream Bytes) (short : s.queue.length ≤ fuel) :
    drain reacts (fuel + 1) cb s = drain reacts fuel cb s := by
  induction fuel generalizing cb s with
  | zero =>
      have empty := List.length_eq_zero_iff.mp (Nat.le_zero.mp short)
      simp [drain, empty]
  | succ fuel ih =>
      have same (acts : List StreamAction) (t : WsStream Bytes) (short : t.queue.length ≤ fuel) :
          acts.foldl (perform (drain reacts (fuel + 1))) t = acts.foldl (perform (drain reacts fuel)) t ∧
            (acts.foldl (perform (drain reacts fuel)) t).queue.length ≤ fuel := by
        induction acts generalizing t with
        | nil => exact ⟨rfl, short⟩
        | cons a acts rest =>
            have one : t.perform (drain reacts (fuel + 1)) a = t.perform (drain reacts fuel) a := by
              cases a with
              | onMessage cb => exact ih cb { t with msgCb := some cb } short
              | _ => rfl
            rw [List.foldl_cons, List.foldl_cons, one]
            refine rest _ ?_
            cases a with
            | next => exact Nat.le_trans (takes_next t none).queue short
            | request g r => exact Nat.le_trans (takes_request t g r).queue short
            | close => exact Nat.le_trans (takes_teardown t).queue short
            | onMessage cb => exact drain_queue fuel cb fuel { t with msgCb := some cb } short
      rw [drain, drain]
      split
      · rfl
      · next b queue queued =>
        split
        · rw [queued, List.length_cons] at short
          have shorter : queue.length ≤ fuel := by omega
          obtain ⟨equal, bound⟩ := same (reacts s.invocations) (({ s with queue } : WsStream Bytes).called cb b)
            shorter
          rw [equal]
          exact ih cb _ bound
        · rfl

/-- A callback is attached, and it is the one of the loop unless nothing is left. -/
structure Drains (fuel cb : Nat) (s : WsStream Bytes) : Prop where
  attached : s.msgCb.isSome
  fuel : s.queue.length ≤ fuel
  own : s.msgCb = some cb ∨ s.queue = []

theorem Drains.takes {fuel cb : Nat} (h : Drains fuel cb s) (takes : Takes s t) : Drains fuel cb t := by
  refine ⟨by rw [takes.msgCb]; exact h.attached, Nat.le_trans takes.queue h.fuel, ?_⟩
  refine h.own.imp (takes.msgCb.trans ·) fun empty => ?_
  have none := takes.queue
  rw [empty] at none
  exact List.length_eq_zero_iff.mp (Nat.le_zero.mp none)

/-- The loop ends with nothing buffered: one that stops for another callback leaves the rest to the
loop of that one, which has ended by then. -/
theorem drained (fuel cb : Nat) (s : WsStream Bytes) (h : Drains fuel cb s) :
    (drain reacts fuel cb s).queue = [] ∧ (drain reacts fuel cb s).msgCb.isSome := by
  induction fuel generalizing cb s with
  | zero => exact ⟨List.length_eq_zero_iff.mp (Nat.le_zero.mp h.fuel), h.attached⟩
  | succ fuel ih =>
      unfold drain
      split
      · next empty => exact ⟨empty, h.attached⟩
      · next b queue queued =>
        split
        · next own =>
          refine ih cb _ ?_
          have shorter : queue.length ≤ fuel := by
            have bound := h.fuel
            rw [queued, List.length_cons] at bound
            omega
          refine List.foldlRecOn _ _ ⟨h.attached, shorter, .inl own⟩ ?_
          intro t ht a _
          cases a with
          | next => exact ht.takes (takes_next t none)
          | request g r => exact ht.takes (takes_request t g r)
          | close => exact ht.takes (takes_teardown t)
          | onMessage cb' =>
              obtain ⟨empty, attached⟩ := ih cb' { t with msgCb := some cb' }
                ⟨rfl, ht.fuel, .inl rfl⟩
              have none : (drain reacts fuel cb' { t with msgCb := some cb' }).queue.length ≤ fuel := by
                rw [empty]
                exact Nat.zero_le fuel
              exact ⟨attached, none, .inr empty⟩
        · next other =>
          have empty := h.own.resolve_left other
          rw [queued] at empty
          cases empty

/-- Between two events nothing is buffered where a callback is attached. -/
def Quiet (s : WsStream Bytes) : Prop := s.msgCb.isSome → s.queue = []

theorem Quiet.takes (h : Quiet s) (takes : Takes s t) : Quiet t := by
  intro attached
  have none := takes.queue
  rw [h (takes.msgCb ▸ attached)] at none
  exact List.length_eq_zero_iff.mp (Nat.le_zero.mp none)

theorem Quiet.act (h : Quiet s) (a : StreamAction) : Quiet (s.act reacts a) := by
  cases a with
  | next => exact h.takes (takes_next s none)
  | request g r => exact h.takes (takes_request s g r)
  | close => exact h.takes (takes_teardown s)
  | onMessage cb =>
      exact fun _ => (drained _ cb { s with msgCb := some cb } ⟨rfl, Nat.le_refl _, .inl rfl⟩).1

/-- A frame that no promise waits for is buffered, or handed to the callback when nothing is. -/
theorem Inv.buffer (h : Inv s) (none : s.waiters = []) (b : Bytes) :
    Inv { s with received := s.received ++ [b], queue := s.queue ++ [b] } := by
  refine ⟨?_, fun some => absurd none some, h.closed, h.outstanding, h.issued, h.served, h.resolved,
    h.reading, h.awaiting, h.iterated⟩
  change s.handed.map Prod.snd ++ (s.queue ++ [b]) = s.received ++ [b]
  rw [← List.append_assoc, h.conserved]

theorem Inv.deliver (h : Inv s) (quiet : Quiet s) (b : Bytes) :
    Inv (s.deliver reacts b) ∧ Quiet (s.deliver reacts b) := by
  unfold WsStream.deliver
  cases waits : s.waiters with
  | cons w waiters => exact ⟨h.resolve waits b, quiet⟩
  | nil =>
      have buffered := h.buffer waits b
      rw [waits] at buffered
      simp only
      cases attached : s.msgCb with
      | none =>
          rw [attached] at buffered
          exact ⟨buffered, fun some => nomatch some⟩
      | some cb =>
          have empty := quiet (by rw [attached]; rfl)
          rw [empty, attached] at buffered
          have called := buffered.called rfl cb
          simp only
          refine List.foldlRecOn (motive := fun t => Inv t ∧ Quiet t) _ _ ⟨?_, fun _ => empty⟩ ?_
          · rw [empty]
            exact called
          · exact fun t ht a _ => ⟨ht.1.act a, ht.2.act a⟩

theorem Inv.step (h : Inv s) (quiet : Quiet s) (e : StreamEvent Bytes) :
    Inv (s.step reacts e) ∧ Quiet (s.step reacts e) := by
  cases e with
  | message data =>
      simp only [WsStream.step]
      split
      · exact h.deliver quiet _
      · exact ⟨h, quiet⟩
  | closed => exact ⟨h.teardown, quiet.takes (takes_teardown s)⟩
  | action a => exact ⟨h.act a, quiet.act a⟩
  | resume g => exact ⟨h.resume g, quiet.takes (takes_resume s g)⟩

theorem received_act (s : WsStream Bytes) (a : StreamAction) :
    (s.act reacts a).received = s.received := by
  refine perform_preserves (P := fun t => t.received = s.received)
    (fun t h => (takes_next t none).received.trans h)
    (fun t g r h => (takes_request t g r).received.trans h)
    (fun t h => (takes_teardown t).received.trans h) (fun cb t h => ?_) a rfl
  exact drain_preserves (fun t h => (takes_next t none).received.trans h)
    (fun t g r h => (takes_request t g r).received.trans h)
    (fun t h => (takes_teardown t).received.trans h) (fun _ _ h => h) (fun _ _ _ _ h _ => h) _ cb _ h

theorem received_deliver (s : WsStream Bytes) (b : Bytes) :
    (s.deliver reacts b).received = s.received ++ [b] := by
  unfold WsStream.deliver
  simp only
  split
  · rfl
  · split
    · next cb _ =>
      refine List.foldlRecOn (motive := fun t => t.received = s.received ++ [b]) (reacts s.invocations)
        (act reacts) ?_ fun t h a _ => (received_act t a).trans h
      rfl
    · rfl

/-- A step brings the frame of its event, and no other. -/
theorem received_step (s : WsStream Bytes) (e : StreamEvent Bytes) :
    (s.step reacts e).received = s.received ++ e.frames := by
  cases e with
  | message data =>
      cases data with
      | binary b => exact received_deliver s b
      | text => exact (List.append_nil _).symm
  | closed => exact (takes_teardown s).received.trans (List.append_nil _).symm
  | action a => exact (received_act s a).trans (List.append_nil _).symm
  | resume g => exact (takes_resume s g).received.trans (List.append_nil _).symm

theorem Inv.toDelivers {events : List (StreamEvent Bytes)} (h : Inv s) (quiet : Quiet s)
    (arrived : s.received = events.flatMap StreamEvent.frames) : Delivers events s where
  arrived := arrived
  conserved := h.conserved
  unattended some := by
    obtain ⟨b, queue, queued⟩ := List.exists_cons_of_ne_nil some
    exact ⟨h.no_waiters queued, Option.not_isSome_iff_eq_none.mp (mt quiet some)⟩
  served := (List.pairwise_append.mp h.served).1
  resolved := h.resolved
  outstanding p before := by
    rw [h.outstanding p, List.mem_map]
    exact or_iff_right (by omega)
  iterated := h.iterated
  buffered reader b queue queued := by simp [WsStream.next, queued, WsStream.resolve]
  keeps := by
    refine ⟨queue_teardown s, ?_⟩
    unfold WsStream.teardown
    split
    · assumption
    · rw [foldl_reject]
  rejects opened w waits := by
    unfold WsStream.teardown
    rw [opened, if_neg Bool.false_ne_true, settled_foldl_reject, if_pos (List.mem_map_of_mem waits)]
  ended closed := by
    refine ⟨h.closed closed, fun empty reader => ?_⟩
    simp [WsStream.next, empty, closed, reject]

/-- Whatever the callbacks do, and in whatever order events come. -/
theorem delivers (reacts : Nat → List StreamAction) (events : List (StreamEvent Bytes)) :
    Delivers events (Runs.run (step reacts) {} events) := by
  have always : Inv (Runs.run (step reacts) {} events) ∧ Quiet (Runs.run (step reacts) {} events) :=
    Runs.invariant (I := fun s => Inv s ∧ Quiet s) (fun s e h => h.1.step h.2 e) _ events
      ⟨inv_begin, fun some => nomatch some⟩
  exact always.1.toDelivers always.2 (Runs.recorded WsStream.received received_step events {})

end
end WsStream
end WebClient
end CortenDesk
