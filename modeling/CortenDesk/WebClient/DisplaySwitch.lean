import CortenDesk.WebClient.Lifecycle
import CortenDesk.WebClient.Terms

/-!
Switches of the display against a host that answers in order. A switch is two messages: the
host confirms the first, and leaves the other displays at the second. The session takes a
message for another display as stale while it waits for a confirmation, and not afterwards; but
between the two the host can still send one.
-/
namespace CortenDesk
namespace WebClient

namespace Session
section
variable {Bytes : Type}

/-- The display of the event that `dispatchMisc` emits for a `switch_display`. -/
def switchDisplayEvent (s : Session Bytes) (display : Int) : Option Int :=
  match s.pendingDisplay with
  | some pending => if display ≠ pending then none else some display
  | none => some display

end
end Session

/-- A session under its cipher and the host, with the messages in flight and what was asked
and said. -/
structure Link (Bytes : Type) where
  session : Session Bytes
  keyed : session.cipher.isSome
  subscribed : List Int
  toHost : List (Misc Bytes) := []
  toClient : List Int := []
  events : List Int := []
  requested : List Int := []
  sent : List Int := []

namespace DisplaySwitch

inductive Move
  | request (index : Int)
  | hostReceives
  | snapshot (display : Int)
  | clientReceives
  deriving DecidableEq

section
variable {Bytes : Type} (api : Api Bytes)

/-- The messages of one switch. -/
def switching (index : Int) : List (Misc Bytes) := [.switchDisplay index, .captureDisplays [index]]

theorem dispatchMisc_keyed {s : Session Bytes} (display : Int) :
    (s.dispatchMisc (some (.switchDisplay display))).cipher = s.cipher := by
  simp only [Session.dispatchMisc]
  split
  · split <;> rfl
  · rfl

def request (w : Link Bytes) (index : Int) : Link Bytes :=
  { w with
    session := w.session.switchDisplay api index
    keyed := by
      rw [(Lifecycle.moves_switchDisplay api w.session index).cipher]
      exact w.keyed
    toHost := w.toHost ++ switching index
    requested := w.requested ++ [index] }

/-- The host says which display it captures, to confirm a switch or in a snapshot. -/
def say (w : Link Bytes) (display : Int) : Link Bytes :=
  { w with toClient := w.toClient ++ [display], sent := w.sent ++ [display] }

def hostReceives (w : Link Bytes) : Link Bytes :=
  match w.toHost with
  | .switchDisplay index :: rest =>
      say { w with toHost := rest, subscribed := index :: w.subscribed } index
  | .captureDisplays set :: rest =>
      { w with toHost := rest, subscribed := w.subscribed.filter fun display => display ∈ set }
  | _ :: rest => { w with toHost := rest }
  | [] => w

/-- The session is delivered what the host said. -/
def hear (w : Link Bytes) (display : Int) (rest : List Int) : Link Bytes :=
  { w with
    session := w.session.dispatchMisc (some (.switchDisplay display))
    keyed := by
      rw [dispatchMisc_keyed]
      exact w.keyed
    toClient := rest
    events := w.events ++ (w.session.switchDisplayEvent display).toList }

def clientReceives (w : Link Bytes) : Link Bytes :=
  match w.toClient with
  | display :: rest => hear w display rest
  | [] => w

def step (w : Link Bytes) : Move → Link Bytes
  | .request index => request api w index
  | .hostReceives => hostReceives w
  | .snapshot display => if display ∈ w.subscribed then say w display else w
  | .clientReceives => clientReceives w

/-- A session that waits for no confirmation. -/
def start (s : Session Bytes) (cipher : StreamCipher Bytes) (subscribed : List Int) : Link Bytes where
  session := { s with cipher := some cipher, pendingDisplay := none }
  keyed := rfl
  subscribed := subscribed

def Settled (w : Link Bytes) : Prop := w.toHost = [] ∧ w.toClient = []

/-- Between the two messages of a switch the host sends no snapshot of another display. -/
def Quiet (w : Link Bytes) : Move → Prop
  | .snapshot display => ∀ index rest, w.toHost = .captureDisplays [index] :: rest →
      display ∈ w.subscribed → display = index
  | _ => True

/-- A switch seals its two messages, in order. -/
theorem sealed_switchDisplay {s : Session Bytes} (keyed : s.cipher.isSome) (index : Int) :
    (s.switchDisplay api index).sealedOut.map Sealed.plain = s.sealedOut.map Sealed.plain ++
      (switching index).map fun misc => api.encodeMessage ⟨some (.misc (some misc))⟩ := by
  obtain ⟨cipher, keyed⟩ := Option.isSome_iff_exists.mp keyed
  simp [Session.switchDisplay, Session.sendMisc, Session.sendMessage, Session.sealSend, keyed,
    StreamCipher.seal, switching]

variable {api} {w : Link Bytes} {done queued heard : List Int}

/-- The requests whose first message the host has received and those it has not, and the
messages that the session has heard: the last display asked for is on its way back, or the
session has followed every message since. -/
structure Flow (w : Link Bytes) (done queued heard : List Int) : Prop where
  requested : w.requested = done ++ queued
  toHost : w.toHost = queued.flatMap switching ∨ ∃ index, done.getLast? = some index ∧
    w.toHost = .captureDisplays [index] :: queued.flatMap switching
  sent : w.sent = heard ++ w.toClient
  pending : ∀ pending, w.session.pendingDisplay = some pending → w.requested.getLast? = some pending
  last : queued = [] → ∀ display, w.requested.getLast? = some display → display ∈ w.toClient ∨
    (w.session.pendingDisplay = none ∧ w.events.getLast? = heard.getLast?)

theorem flow_start (s : Session Bytes) (cipher : StreamCipher Bytes) (subscribed : List Int) :
    Flow (start s cipher subscribed) [] [] [] where
  requested := rfl
  toHost := .inl rfl
  sent := rfl
  pending _ waits := by cases waits
  last _ _ asked := by cases asked

theorem pendingDisplay_switchDisplay (s : Session Bytes) (index : Int) :
    (s.switchDisplay api index).pendingDisplay = some index := by
  simp only [Session.switchDisplay, Session.sendMisc, Session.sendMessage, Session.sealSend]
  cases s.cipher <;> rfl

theorem flow_request (flow : Flow w done queued heard) (index : Int) :
    Flow (request api w index) done (queued ++ [index]) heard where
  requested := by rw [request, flow.requested, List.append_assoc]
  toHost := by
    rw [List.flatMap_append]
    rcases flow.toHost with whole | ⟨last, done, half⟩
    · exact .inl (by rw [request, whole]; rfl)
    · exact .inr ⟨last, done, by rw [request, half]; rfl⟩
  sent := flow.sent
  pending pending waits := by
    rw [request, pendingDisplay_switchDisplay] at waits
    rw [← waits, request, List.getLast?_concat]
  last none := by simp at none

theorem flow_say (flow : Flow w done queued heard) (display : Int) :
    Flow (say w display) done queued heard where
  requested := flow.requested
  toHost := flow.toHost
  sent := by rw [say, flow.sent, List.append_assoc]
  pending := flow.pending
  last none other asked := by
    rcases flow.last none other asked with coming | followed
    · exact .inl (List.mem_append_left _ coming)
    · exact .inr followed

/-- The host has left every display but the last one asked for, or is about to. -/
structure Pruned (w : Link Bytes) (queued : List Int) : Prop where
  said : queued = [] → ∀ display, w.requested.getLast? = some display →
    w.sent.getLast? = some display
  left : queued = [] → w.toHost = [] → ∀ display, w.requested.getLast? = some display →
    ∀ other ∈ w.subscribed, other = display

theorem pruned_start (s : Session Bytes) (cipher : StreamCipher Bytes) (subscribed : List Int) :
    Pruned (start s cipher subscribed) [] :=
  ⟨fun _ _ asked => (nomatch asked), fun _ _ _ asked => nomatch asked⟩

theorem flow_hostReceives (flow : Flow w done queued heard) : ∃ done queued',
    Flow (hostReceives w) done queued' heard ∧ (Pruned w queued → Pruned (hostReceives w) queued') := by
  rcases flow.toHost with whole | ⟨index, last, half⟩
  · cases queued with
    | nil =>
        have same : hostReceives w = w := by
          rw [hostReceives, whole]
          rfl
        rw [same]
        exact ⟨done, [], flow, id⟩
    | cons index queued =>
        have next : hostReceives w = say
            { w with
              toHost := .captureDisplays [index] :: queued.flatMap switching
              subscribed := index :: w.subscribed } index := by
          rw [hostReceives, whole]
          rfl
        have asked : queued = [] → w.requested.getLast? = some index := by
          rintro rfl
          rw [flow.requested, List.getLast?_concat]
        rw [next]
        refine ⟨done ++ [index], queued, ⟨?_, ?_, ?_, flow.pending, fun none display at_ => ?_⟩,
          fun _ => ⟨fun none display at_ => ?_, fun _ empty => nomatch empty⟩⟩
        · simp [say, flow.requested]
        · exact .inr ⟨index, List.getLast?_concat, rfl⟩
        · rw [say, flow.sent, List.append_assoc]
        · obtain rfl := Option.some.inj ((asked none).symm.trans at_)
          exact .inl (List.mem_append_right _ (List.mem_singleton_self _))
        · obtain rfl := Option.some.inj ((asked none).symm.trans at_)
          exact List.getLast?_concat
  · have next : hostReceives w =
        { w with
          toHost := queued.flatMap switching
          subscribed := w.subscribed.filter fun display => display ∈ [index] } := by
      rw [hostReceives, half]
    rw [next]
    refine ⟨done, queued, ⟨flow.requested, .inl rfl, flow.sent, flow.pending, flow.last⟩,
      fun pruned => ⟨pruned.said, fun none _ display at_ other mem => ?_⟩⟩
    subst none
    have asked : w.requested.getLast? = some index := by rw [flow.requested, List.append_nil, last]
    obtain rfl := Option.some.inj (asked.symm.trans at_)
    simpa using (List.mem_filter.mp mem).2

/-- The session follows a message, and waits no more, unless it waits for another display. -/
theorem pendingDisplay_dispatchMisc (s : Session Bytes) (display : Int) :
    (s.switchDisplayEvent display = some display ∧
      (s.dispatchMisc (some (.switchDisplay display))).pendingDisplay = none) ∨
    ((s.dispatchMisc (some (.switchDisplay display))).pendingDisplay = s.pendingDisplay ∧
      ∃ pending, s.pendingDisplay = some pending ∧ display ≠ pending) := by
  simp only [Session.switchDisplayEvent, Session.dispatchMisc]
  cases waits : s.pendingDisplay with
  | none => exact .inl ⟨rfl, waits⟩
  | some pending =>
      by_cases same : display = pending
      · exact .inl ⟨by simp [same], by simp [same]⟩
      · exact .inr ⟨by simp [same, waits], pending, rfl, same⟩

theorem flow_clientReceives (flow : Flow w done queued heard) :
    ∃ heard, Flow (clientReceives w) done queued heard := by
  cases coming : w.toClient with
  | nil =>
      have same : clientReceives w = w := by rw [clientReceives, coming]
      rw [same]
      exact ⟨heard, flow⟩
  | cons display rest =>
      have next : clientReceives w = hear w display rest := by rw [clientReceives, coming]
      have sent : w.sent = (heard ++ [display]) ++ rest := by
        rw [flow.sent, coming, List.append_assoc]
        rfl
      rw [next]
      rcases pendingDisplay_dispatchMisc w.session display with
        ⟨emitted, settled⟩ | ⟨same, pending, waits, stale⟩
      · refine ⟨heard ++ [display], flow.requested, flow.toHost, sent, fun pending waits => ?_,
          fun _ _ _ => .inr ⟨settled, ?_⟩⟩
        · rw [hear, settled] at waits
          cases waits
        · rw [hear, emitted]
          exact List.getLast?_concat.trans List.getLast?_concat.symm
      · refine ⟨heard ++ [display], flow.requested, flow.toHost, sent, fun other waits => ?_,
          fun none other asked => ?_⟩
        · exact flow.pending other (same.symm.trans waits)
        · obtain rfl := Option.some.inj ((flow.pending pending waits).symm.trans asked)
          rcases flow.last none pending asked with later | ⟨free, -⟩
          · rw [coming] at later
            exact .inl ((List.mem_cons.mp later).resolve_left (Ne.symm stale))
          · rw [waits] at free
            cases free

theorem flow_step (api : Api Bytes) (flow : Flow w done queued heard) (move : Move) : ∃ done queued' heard,
    Flow (step api w move) done queued' heard ∧
      (Pruned w queued → Quiet w move → Pruned (step api w move) queued') := by
  cases move with
  | request index =>
      exact ⟨done, queued ++ [index], heard, flow_request flow index,
        fun _ _ => ⟨fun none => by simp at none, fun none => by simp at none⟩⟩
  | hostReceives =>
      obtain ⟨done, queued', next, pruned⟩ := flow_hostReceives flow
      exact ⟨done, queued', heard, next, fun before _ => pruned before⟩
  | clientReceives =>
      obtain ⟨heard, next⟩ := flow_clientReceives flow
      refine ⟨done, queued, heard, next, fun pruned _ => ?_⟩
      simp only [step, clientReceives]
      split
      · exact ⟨pruned.said, pruned.left⟩
      · exact pruned
  | snapshot display =>
      simp only [step]
      split
      · next present =>
        refine ⟨done, queued, heard, flow_say flow display, fun pruned quiet =>
          ⟨fun none asked at_ => ?_, pruned.left⟩⟩
        subst none
        have named : display = asked := by
          rcases flow.toHost with whole | ⟨index, last, half⟩
          · exact pruned.left rfl whole asked at_ display present
          · have recent : w.requested.getLast? = some index := by
              rw [flow.requested, List.append_nil, last]
            rw [quiet index _ half present]
            exact Option.some.inj (recent.symm.trans at_)
        rw [say, List.getLast?_concat, named]
      · exact ⟨done, queued, heard, flow, fun pruned _ => pruned⟩

theorem run_flow (api : Api Bytes) (s : Session Bytes) (cipher : StreamCipher Bytes)
    (subscribed : List Int) (moves : List Move) : ∃ done queued heard,
      Flow (Runs.run (step api) (start s cipher subscribed) moves) done queued heard := by
  refine Runs.invariant (I := fun w => ∃ done queued heard, Flow w done queued heard) ?_ _ moves
    ⟨[], [], [], flow_start s cipher subscribed⟩
  rintro w move ⟨done, queued, heard, flow⟩
  obtain ⟨done, queued, heard, next, -⟩ := flow_step api flow move
  exact ⟨done, queued, heard, next⟩

theorem run_pruned (api : Api Bytes) (s : Session Bytes) (cipher : StreamCipher Bytes)
    (subscribed : List Int) (moves : List Move)
    (quiet : Runs.Along (step api) Quiet (start s cipher subscribed) moves) : ∃ done queued heard,
      Flow (Runs.run (step api) (start s cipher subscribed) moves) done queued heard ∧
        Pruned (Runs.run (step api) (start s cipher subscribed) moves) queued := by
  refine Runs.invariant_along
    (I := fun w => ∃ done queued heard, Flow w done queued heard ∧ Pruned w queued) ?_ moves _
    ⟨[], [], [], flow_start s cipher subscribed, pruned_start s cipher subscribed⟩ quiet
  rintro w move ⟨done, queued, heard, flow, pruned⟩ quiet
  obtain ⟨done, queued, heard, next, keeps⟩ := flow_step api flow move
  exact ⟨done, queued, heard, next, keeps pruned quiet⟩

/-- Once everything is delivered the session is at what the host said last; and that is the
last display asked for where the host is quiet between the two messages of a switch. -/
theorem settles (api : Api Bytes) (s : Session Bytes) (cipher : StreamCipher Bytes)
    (subscribed : List Int) (moves : List Move) (display : Int)
    (settled : Settled (Runs.run (step api) (start s cipher subscribed) moves))
    (asked : (Runs.run (step api) (start s cipher subscribed) moves).requested.getLast? =
      some display) :
    let w := Runs.run (step api) (start s cipher subscribed) moves
    (w.events.getLast? = some display ↔ w.sent.getLast? = some display) ∧
      (Runs.Along (step api) Quiet (start s cipher subscribed) moves →
        w.events.getLast? = some display) := by
  intro w
  have landed {done queued heard : List Int} (flow : Flow w done queued heard) :
      queued = [] ∧ w.events.getLast? = w.sent.getLast? := by
    have none : queued = [] := by
      rcases flow.toHost with whole | ⟨index, -, half⟩
      · rw [settled.1] at whole
        cases queued with
        | nil => rfl
        | cons index queued => cases whole
      · rw [settled.1] at half
        cases half
    refine ⟨none, ?_⟩
    rcases flow.last none display asked with coming | ⟨-, followed⟩
    · rw [settled.2] at coming
      cases coming
    · rw [followed, flow.sent, settled.2, List.append_nil]
  obtain ⟨done, queued, heard, flow⟩ := run_flow api s cipher subscribed moves
  refine ⟨by rw [(landed flow).2], fun quiet => ?_⟩
  obtain ⟨done, queued, heard, flow, pruned⟩ := run_pruned api s cipher subscribed moves quiet
  rw [(landed flow).2]
  exact pruned.said (landed flow).1 display asked

end

namespace Sample

def session : Session Blob := { decoding := .octets [], password := "" }

def run (moves : List Move) : Link Blob :=
  Runs.run (step Blob.api) (start session ⟨.octets [7], 0, 0⟩ [0]) moves

/-- The host confirms display 1, says where display 0 is, and leaves it. -/
def late : List Move :=
  [.request 1, .hostReceives, .snapshot 0, .hostReceives, .clientReceives, .clientReceives]

/-- The snapshot comes before the host knows of the switch. -/
def early : List Move :=
  [.request 1, .snapshot 0, .hostReceives, .hostReceives, .clientReceives, .clientReceives]

end Sample

/-- The session goes back to display 0. -/
theorem late_snapshot_followed :
    Settled (Sample.run Sample.late) ∧ (Sample.run Sample.late).requested.getLast? = some 1 ∧
      (Sample.run Sample.late).events.getLast? ≠ some 1 := by
  refine ⟨⟨?_, ?_⟩, ?_, ?_⟩ <;> decide

theorem settles_early : (Sample.run Sample.early).events.getLast? = some 1 := by
  refine (settles Blob.api Sample.session ⟨.octets [7], 0, 0⟩ [0] Sample.early 1 ⟨rfl, rfl⟩ rfl).2
    ⟨trivial, ?_, trivial, trivial, trivial, trivial, trivial⟩
  intro index rest half
  cases half

end DisplaySwitch
end WebClient
end CortenDesk
