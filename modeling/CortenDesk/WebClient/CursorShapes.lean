import CortenDesk.Lib.OrderedMap
import CortenDesk.Lib.Runs
import CortenDesk.Lib.Slots

/-!
The shape of the pointer, as the host names it: by a bitmap, which is rendered while other messages
come, or by the id of a bitmap that it has sent. The renders are the environment.
-/
namespace CortenDesk
namespace WebClient
open Slots

/-- A rendered cursor. -/
structure CursorShape where
  pngDataUrl : String
  hotx : Int
  hoty : Int
  deriving DecidableEq

inductive CursorRender
  | pending
  | failed
  | rendered (entry : CursorShape)
  deriving DecidableEq

/-- A message about the cursor; of an id, whether its bitmap was rendered and has left the cache. -/
inductive CursorMessage
  | data (id : Option Nat) (render : CursorRender)
  | id (id : Nat) (evicted : Bool)
  deriving DecidableEq

/-- `posted` has the shapes with the message that each of them was posted for. -/
structure CursorHost where
  messages : List CursorMessage := []
  cursorCache : OrderedMap Nat CursorShape := ∅
  posted : List (Nat × CursorShape) := []

inductive CursorEvent
  | cursorData (id : Option Nat)
  | cursorId (id : Nat)
  | rendered (k : Nat) (entry : Option CursorShape)

namespace CursorHost

def maxCursors : Nat := 128

def post (w : CursorHost) (k : Nat) (entry : CursorShape) : CursorHost :=
  { w with posted := w.posted ++ [(k, entry)] }

/-- The tail of `postCursor`, after its cursor is posted: the oldest entry makes room. -/
def cacheCursor (w : CursorHost) (id : Option Nat) (entry : CursorShape) : CursorHost :=
  match id with
  | none => w
  | some id =>
      let kept := if w.cursorCache.size ≥ maxCursors then w.cursorCache.shift else w.cursorCache
      { w with cursorCache := kept.set id entry }

def setRender (w : CursorHost) (k : Nat) (id : Option Nat) (render : CursorRender) : CursorHost :=
  { w with messages := w.messages.modify k fun _ => .data id render }

/-- `postCursor` from the end of its render. -/
def postCursor (w : CursorHost) (k : Nat) (id : Option Nat) : Option CursorShape → CursorHost
  | none => w.setRender k id .failed
  | some entry => ((w.setRender k id (.rendered entry)).post k entry).cacheCursor id entry

/-- A message whose render, if it has one, has ended. -/
def settled : CursorMessage → Bool
  | .data _ .pending => false
  | _ => true

/-- The bitmap of an id that a message has brought and that is rendered. -/
def renderedFor (id : Nat) : CursorMessage → Bool
  | .data (some other) (.rendered _) => other == id
  | _ => false

def postCursorId (w : CursorHost) (id : Nat) : CursorHost :=
  let evicted := (w.cursorCache.get? id).isNone && w.messages.any (renderedFor id)
  let received := { w with messages := w.messages ++ [.id id evicted] }
  match w.cursorCache.get? id with
  | some hit => received.post w.messages.length hit
  | none => received

def step (w : CursorHost) : CursorEvent → CursorHost
  | .cursorData id => { w with messages := w.messages ++ [.data id .pending] }
  | .cursorId id => w.postCursorId id
  | .rendered k entry => match w.messages[k]? with
      | some (.data id .pending) => w.postCursor k id entry
      | _ => w

section Purpose
variable (messages : List CursorMessage)

/-- A message that has brought a bitmap of an id, which is rendered. -/
def Brought (k : Nat) (id : Nat) (entry : CursorShape) : Prop :=
  messages[k]? = some (.data (some id) (.rendered entry))

/-- The newest bitmap of an id that came before a message and is rendered. -/
def Newest (before : Nat) (id : Nat) (entry : CursorShape) : Prop :=
  ∃ k, k < before ∧ Brought messages k id entry ∧
    ∀ j, k < j → j < before → ∀ other, ¬ Brought messages j id other

/-- The shape that a message names, if its bitmap is rendered and was not evicted. -/
def Names (k : Nat) (entry : CursorShape) : Prop :=
  (∃ id, messages[k]? = some (.data id (.rendered entry))) ∨
    ∃ id, messages[k]? = some (.id id false) ∧ Newest messages k id entry

end Purpose

/-- The pointer has the shape that the newest message names, and the cache is bounded and up to
date. -/
structure Follows (w : CursorHost) : Prop where
  shown : (∀ message ∈ w.messages, settled message) → ∀ k entry, Names w.messages k entry →
    (∀ j, k < j → ∀ other, ¬ Names w.messages j other) →
      w.posted.getLast?.map Prod.snd = some entry
  bounded : w.cursorCache.size ≤ maxCursors
  current : ∀ id entry, w.cursorCache.get? id = some entry →
    Newest w.messages w.messages.length id entry

/-- A render succeeds before a later message is shown, or names its id. -/
def Orderly (w : CursorHost) : CursorEvent → Prop
  | .rendered k (some _) => (∀ shown ∈ w.posted, shown.1 < k) ∧
      ∀ id render, w.messages[k]? = some (.data (some id) render) →
        ∀ j, k < j → ∀ evicted, w.messages[j]? ≠ some (.id id evicted)
  | _ => True

structure Inv (w : CursorHost) : Prop where
  latest : ∀ k entry, w.posted.getLast? = some (k, entry) → Names w.messages k entry ∧
    ∀ j, k < j → ∀ other, ¬ Names w.messages j other
  none : w.posted = [] → ∀ k entry, ¬ Names w.messages k entry
  shown : ∀ (k : Nat) (id : Option Nat) (entry : CursorShape),
    w.messages[k]? = some (.data id (.rendered entry)) → (k, entry) ∈ w.posted
  bounded : w.cursorCache.size ≤ maxCursors
  current : ∀ id entry, w.cursorCache.get? id = some entry →
    Newest w.messages w.messages.length id entry

theorem inv_begin : Inv {} where
  latest k entry last := by cases last
  none _ k entry names := by
    rcases names with ⟨id, found⟩ | ⟨id, found, -⟩
    · simp at found
    · simp at found
  shown k id entry found := by simp at found
  bounded := by decide
  current id entry found := by cases found

section Naming
variable {messages messages' : List CursorMessage} {k id before : Nat} {entry other : CursorShape}

theorem Newest.unique (h : Newest messages before id entry) (h' : Newest messages before id other) :
    entry = other := by
  obtain ⟨k, within, brought, last⟩ := h
  obtain ⟨k', within', brought', last'⟩ := h'
  rcases Nat.lt_trichotomy k k' with lt | rfl | gt
  · exact absurd brought' (last k' lt within' other)
  · cases brought.symm.trans brought'
    rfl
  · exact absurd brought (last' k gt within entry)

theorem Names.unique (h : Names messages k entry) (h' : Names messages k other) : entry = other := by
  rcases h with ⟨id, found⟩ | ⟨id, found, newest⟩
  · rcases h' with ⟨id', found'⟩ | ⟨id', found', -⟩
    · cases found.symm.trans found'
      rfl
    · cases found.symm.trans found'
  · rcases h' with ⟨id', found'⟩ | ⟨id', found', newest'⟩
    · cases found.symm.trans found'
    · cases found.symm.trans found'
      exact newest.unique newest'

theorem newest_congr (same : ∀ j id entry, Brought messages' j id entry ↔ Brought messages j id entry) :
    Newest messages' before id entry ↔ Newest messages before id entry := by
  simp only [Newest, same]

theorem names_congr (found : messages'[k]? = messages[k]?)
    (same : ∀ j id entry, Brought messages' j id entry ↔ Brought messages j id entry) :
    Names messages' k entry ↔ Names messages k entry := by
  simp only [Names, found, newest_congr same]

/-- What has come by a message that is not rendered. -/
theorem brought_concat {message : CursorMessage}
    (unrendered : ∀ id entry, message ≠ .data id (.rendered entry)) (j id : Nat)
    (entry : CursorShape) :
    Brought (messages ++ [message]) j id entry ↔ Brought messages j id entry := by
  constructor
  · intro brought
    rcases found_concat brought with old | ⟨-, is⟩
    · exact old
    · exact absurd is.symm (unrendered _ _)
  · exact concat_found

theorem names_concat {message : CursorMessage}
    (unrendered : ∀ id entry, message ≠ .data id (.rendered entry)) :
    Names (messages ++ [message]) k entry ↔ Names messages k entry ∨
      (k = messages.length ∧ ∃ id, message = .id id false ∧ Newest messages k id entry) := by
  rcases Nat.lt_trichotomy k messages.length with before | rfl | after
  · rw [names_congr (List.getElem?_append_left before) (brought_concat unrendered)]
    exact (or_iff_left fun last => Nat.ne_of_lt before last.1).symm
  · have nothing : ¬ Names messages messages.length entry := by simp [Names]
    simp only [Names, List.getElem?_concat_length, Option.some.injEq,
      newest_congr (brought_concat unrendered), unrendered, exists_const, false_or, true_and]
    exact (or_iff_right nothing).symm
  · have nothing (ms : List CursorMessage) (short : ms.length ≤ k) : ¬ Names ms k entry := by
      simp [Names, List.getElem?_eq_none short]
    refine iff_of_false (nothing _ (by simp; omega)) (not_or.mpr ⟨nothing _ (by omega), ?_⟩)
    exact fun last => Nat.ne_of_gt after last.1

theorem Newest.concat {message : CursorMessage} (h : Newest messages messages.length id entry)
    (unrendered : ∀ id entry, message ≠ .data id (.rendered entry)) :
    Newest (messages ++ [message]) (messages ++ [message]).length id entry := by
  obtain ⟨k, within, brought, last⟩ := h
  rw [List.length_append]
  refine ⟨k, Nat.lt_succ_of_lt within, (brought_concat unrendered k id entry).mpr brought,
    fun j later before other => ?_⟩
  rw [brought_concat unrendered]
  by_cases old : j < messages.length
  · exact last j later old other
  · rw [Brought, List.getElem?_eq_none (Nat.le_of_not_lt old)]
    exact nofun

end Naming

theorem Inv.follows {w : CursorHost} (h : Inv w) : Follows w where
  shown _ k entry names last := by
    cases posted : w.posted.getLast? with
    | none => exact absurd names (h.none (List.getLast?_eq_none_iff.mp posted) k entry)
    | some shown =>
        obtain ⟨k', entry'⟩ := shown
        obtain ⟨names', last'⟩ := h.latest k' entry' posted
        rcases Nat.lt_trichotomy k k' with lt | rfl | gt
        · exact absurd names' (last k' lt entry')
        · rw [names.unique names']
          rfl
        · exact absurd names (last' k gt entry)
  bounded := h.bounded
  current := h.current

/-- A message comes that is not shown. -/
theorem Inv.received {w : CursorHost} (h : Inv w) {message : CursorMessage}
    (unrendered : ∀ id entry, message ≠ .data id (.rendered entry))
    (silent : ∀ id entry, message = .id id false → ¬ Newest w.messages w.messages.length id entry) :
    Inv { w with messages := w.messages ++ [message] } := by
  have names (k : Nat) (entry : CursorShape) :
      Names (w.messages ++ [message]) k entry ↔ Names w.messages k entry := by
    rw [names_concat unrendered]
    refine or_iff_left ?_
    rintro ⟨rfl, id, is, newest⟩
    exact silent id entry is newest
  refine ⟨fun k entry last => ?_, fun empty k entry => ?_, fun k id entry found => ?_, h.bounded,
    fun id entry found => ?_⟩
  · simp only [names]
    exact h.latest k entry last
  · rw [names]
    exact h.none empty k entry
  · rcases found_concat found with old | ⟨-, is⟩
    · exact h.shown k id entry old
    · exact absurd is.symm (unrendered id entry)
  · exact (h.current id entry found).concat unrendered

theorem Inv.postCursorId {w : CursorHost} (h : Inv w) (id : Nat) : Inv (w.postCursorId id) := by
  unfold CursorHost.postCursorId
  cases cached : w.cursorCache.get? id with
  | none =>
      refine h.received (fun _ _ => nofun) fun other entry is => ?_
      simp only [Option.isNone_none, Bool.true_and, CursorMessage.id.injEq] at is
      obtain ⟨rfl, none⟩ := is
      rintro ⟨k, -, brought, -⟩
      rw [List.any_eq_false] at none
      exact none _ (List.mem_of_getElem? brought) (by simp [renderedFor])
  | some hit =>
      have unrendered : ∀ other entry, CursorMessage.id id false ≠ .data other (.rendered entry) :=
        fun _ _ => nofun
      have newest := h.current id hit cached
      refine ⟨fun k entry last => ?_, fun empty => ?_, fun k other entry found => ?_, h.bounded,
        fun other entry found => (h.current other entry found).concat unrendered⟩
      · simp only [post, List.getLast?_concat, Option.some.injEq, Prod.mk.injEq] at last
        obtain ⟨rfl, rfl⟩ := last
        refine ⟨(names_concat unrendered).mpr (.inr ⟨rfl, id, rfl, newest⟩), fun j later other => ?_⟩
        have short : (w.messages ++ [CursorMessage.id id false]).length ≤ j := by
          rw [List.length_append]
          exact later
        simp [Names, post, List.getElem?_eq_none short]
      · exact absurd empty (by simp [post])
      · rcases found_concat found with old | ⟨-, is⟩
        · exact List.mem_append_left _ (h.shown k other entry old)
        · cases is

/-- What has come once a message is rendered. -/
theorem brought_rendered {w : CursorHost} {k : Nat} {id : Option Nat} (entry : CursorShape)
    (found : w.messages[k]? = some (.data id .pending)) (j other : Nat) (shape : CursorShape) :
    Brought (w.setRender k id (.rendered entry)).messages j other shape ↔
      Brought w.messages j other shape ∨ (j = k ∧ id = some other ∧ shape = entry) := by
  by_cases same : k = j
  · subst same
    have before : ¬ Brought w.messages k other shape := by simp [Brought, found]
    rw [Brought, setRender, modify_found found]
    simp only [Option.some.injEq, CursorMessage.data.injEq, CursorRender.rendered.injEq, before,
      true_and, false_or]
    exact and_congr_right fun _ => eq_comm
  · rw [Brought, setRender, modify_other same]
    exact (or_iff_left fun last => same last.1.symm).symm

/-- A bitmap whose render fails changes nothing that is named. -/
theorem brought_failed {w : CursorHost} {k : Nat} {id : Option Nat}
    (found : w.messages[k]? = some (.data id .pending)) (j other : Nat) (shape : CursorShape) :
    Brought (w.setRender k id .failed).messages j other shape ↔
      Brought w.messages j other shape := by
  by_cases same : k = j
  · subst same
    rw [Brought, Brought, setRender, modify_found found, found]
    simp
  · rw [Brought, Brought, setRender, modify_other same]

theorem Inv.failed {w : CursorHost} (h : Inv w) {k : Nat} {id : Option Nat}
    (found : w.messages[k]? = some (.data id .pending)) : Inv (w.setRender k id .failed) := by
  have names (j : Nat) (shape : CursorShape) :
      Names (w.setRender k id .failed).messages j shape ↔ Names w.messages j shape := by
    by_cases same : k = j
    · subst same
      simp [Names, setRender, found]
    · exact names_congr (modify_other same) (brought_failed found)
  refine ⟨fun j shape last => ?_, fun empty j shape => ?_, fun j other shape is => ?_, h.bounded,
    fun other shape is => ?_⟩
  · simp only [names]
    exact h.latest j shape last
  · rw [names]
    exact h.none empty j shape
  · obtain ⟨was, here, is⟩ := found_modify is
    split at is
    · cases is
    · subst is
      exact h.shown j other shape here
  · have newest := h.current other shape is
    rw [newest_congr (brought_failed found), setRender, List.length_modify]
    exact newest

theorem size_cacheCursor_le {w : CursorHost} (bounded : w.cursorCache.size ≤ maxCursors) (id : Nat)
    (entry : CursorShape) : (w.cacheCursor (some id) entry).cursorCache.size ≤ maxCursors := by
  simp only [cacheCursor]
  split
  · next full =>
    refine Nat.le_trans (OrderedMap.size_set_le _ id entry) ?_
    rw [OrderedMap.size_shift]
    have := (show 0 < maxCursors by decide)
    omega
  · next room =>
    refine Nat.le_trans (OrderedMap.size_set_le _ id entry) ?_
    omega

/-- The render of a bitmap succeeds, before anything later is shown. -/
theorem Inv.rendered {w : CursorHost} (h : Inv w) {k : Nat} {id : Option Nat} {entry : CursorShape}
    (found : w.messages[k]? = some (.data id .pending))
    (orderly : w.Orderly (.rendered k (some entry))) : Inv (w.postCursor k id (some entry)) := by
  obtain ⟨newer, unnamed⟩ := orderly
  have brought := brought_rendered entry found
  have here : (w.setRender k id (.rendered entry)).messages[k]? =
      some (.data id (.rendered entry)) := modify_found found
  -- what came later names nothing, neither before the render nor after it
  have silent (j : Nat) (later : k < j) (other : CursorShape) : ¬ Names w.messages j other := by
    cases posted : w.posted.getLast? with
    | none => exact h.none (List.getLast?_eq_none_iff.mp posted) j other
    | some shown =>
        have before := newer shown (List.mem_of_getLast? posted)
        exact (h.latest shown.1 shown.2 posted).2 j (Nat.lt_trans before later) other
  have later (j : Nat) (later : k < j) (other : CursorShape) :
      ¬ Names (w.setRender k id (.rendered entry)).messages j other := by
    have same : (w.setRender k id (.rendered entry)).messages[j]? = w.messages[j]? :=
      modify_other (Nat.ne_of_lt later)
    rintro (⟨x, is⟩ | ⟨x, is, newest⟩)
    · exact silent j later other (.inl ⟨x, same.symm.trans is⟩)
    · rw [same] at is
      refine silent j later other (.inr ⟨x, is, ?_⟩)
      have apart : id ≠ some x := by
        rintro rfl
        exact unnamed x .pending found j later false is
      obtain ⟨i, within, came, last⟩ := newest
      refine ⟨i, within, ?_, fun l above below shape came => ?_⟩
      · rcases (brought i x other).mp came with old | ⟨-, of, -⟩
        · exact old
        · exact absurd of apart
      · exact last l above below shape ((brought l x shape).mpr (.inl came))
  -- the cache, before it takes the new bitmap
  have current (x : Nat) (apart : id ≠ some x) (shape : CursorShape)
      (cached : w.cursorCache.get? x = some shape) :
      Newest (w.setRender k id (.rendered entry)).messages
        (w.setRender k id (.rendered entry)).messages.length x shape := by
    obtain ⟨i, within, came, last⟩ := h.current x shape cached
    rw [setRender, List.length_modify]
    refine ⟨i, within, (brought i x shape).mpr (.inl came), fun l above below other came => ?_⟩
    rcases (brought l x other).mp came with old | ⟨-, of, -⟩
    · exact last l above below other old
    · exact apart of
  have shown (j : Nat) (x : Option Nat) (shape : CursorShape)
      (is : (w.setRender k id (.rendered entry)).messages[j]? = some (.data x (.rendered shape))) :
      (j, shape) ∈ w.posted ++ [(k, entry)] := by
    obtain ⟨was, old, is⟩ := found_modify is
    split at is
    · next same =>
      cases is
      subst same
      exact List.mem_append_right _ (List.mem_singleton.mpr rfl)
    · subst is
      exact List.mem_append_left _ (h.shown j x shape old)
  have inv (cursorCache : OrderedMap Nat CursorShape) (bounded : cursorCache.size ≤ maxCursors)
      (current : ∀ x shape, cursorCache.get? x = some shape →
        Newest (w.setRender k id (.rendered entry)).messages
          (w.setRender k id (.rendered entry)).messages.length x shape) :
      Inv { (w.setRender k id (.rendered entry)).post k entry with cursorCache } := by
    refine ⟨fun j shape last => ?_, fun empty => ?_, shown, bounded, current⟩
    · simp only [post, List.getLast?_concat, Option.some.injEq, Prod.mk.injEq] at last
      obtain ⟨rfl, rfl⟩ := last
      exact ⟨.inl ⟨id, here⟩, later⟩
    · exact absurd empty (by simp [post])
  cases id with
  | none => exact inv w.cursorCache h.bounded fun x shape cached => current x nofun shape cached
  | some x =>
      refine inv _ (size_cacheCursor_le h.bounded x entry) fun y shape cached => ?_
      rw [OrderedMap.get?_set] at cached
      by_cases same : y = x
      · subst same
        rw [if_pos rfl] at cached
        obtain rfl := Option.some.inj cached
        refine ⟨k, found_lt here, here, fun j after _ other came => ?_⟩
        rcases (brought j y other).mp came with old | ⟨rfl, -⟩
        · exact Nat.lt_asymm after (newer (j, other) (h.shown j (some y) other old))
        · exact Nat.lt_irrefl j after
      · rw [if_neg same] at cached
        refine current y (fun is => same (Option.some.inj is).symm) shape ?_
        split at cached
        · exact OrderedMap.get?_of_shift cached
        · exact cached

theorem Inv.step {w : CursorHost} (h : Inv w) {event : CursorEvent} (orderly : w.Orderly event) :
    Inv (w.step event) := by
  cases event with
  | cursorData id => exact h.received (fun _ _ => nofun) fun _ _ => nofun
  | cursorId id => exact h.postCursorId id
  | rendered k entry =>
      simp only [CursorHost.step]
      split
      · next id found =>
        cases entry with
        | none => exact h.failed found
        | some entry => exact h.rendered found orderly
      · exact h

/-- The pointer follows the host, as long as every render succeeds before a later message is shown
or names its id. -/
theorem follows_of_orderly (events : List CursorEvent)
    (orderly : Runs.Along step Orderly {} events) : Follows (Runs.run step {} events) := by
  have inv : Inv (Runs.run step {} events) :=
    Runs.invariant_along (I := Inv) (fun _ _ h orderly => h.step orderly) events {} inv_begin orderly
  exact inv.follows

def arrow : CursorShape := ⟨"data:image/png;base64,QQ==", 0, 0⟩

def hand : CursorShape := ⟨"data:image/png;base64,Qg==", 5, 1⟩

/-- Two bitmaps that are rendered in turn, and the first again by its id. -/
theorem renders_follow : Follows (Runs.run step {}
    [.cursorData (some 7), .rendered 0 (some arrow), .cursorData (some 8), .rendered 1 (some hand),
      .cursorId 7]) := by
  refine follows_of_orderly _ ⟨trivial, ⟨?_, ?_⟩, trivial, ⟨?_, ?_⟩, trivial, trivial⟩
  · exact nofun
  · rintro id render - (_ | j) later evicted found
    · exact Nat.lt_irrefl 0 later
    · cases found
  · decide
  · rintro id render - (_ | _ | j) later evicted found
    · exact Nat.not_lt_zero 1 later
    · exact Nat.lt_irrefl 1 later
    · cases found

/-- A slow render lands after the message that supersedes it. -/
theorem slow_render_overwrites : ¬ Follows (Runs.run step {}
    [.cursorData (some 7), .cursorData (some 8), .rendered 1 (some hand),
      .rendered 0 (some arrow)]) := by
  intro follows
  have shown := follows.shown (by decide) 1 hand (.inl ⟨some 8, rfl⟩) fun j later other names => by
    obtain _ | _ | j := j
    · exact Nat.not_lt_zero 1 later
    · exact Nat.lt_irrefl 1 later
    · rcases names with ⟨id, found⟩ | ⟨id, found, -⟩ <;> cases found
  exact absurd shown (by decide)

end CursorHost
end WebClient
end CortenDesk
