import Mathlib.Data.List.Nodup
import CortenDesk.Lib.Pending
import CortenDesk.Lib.Runs

/-!
The pointer handlers that turn a browser's pointer events into mouse commands. The browser says
`pointerdown` for the first button of a chord and `pointerup` for the last; what is pressed and
released between them is a `pointermove`, and a gesture may end with a `pointercancel`, which
nobody listens to. Keys, the wheel and the modifiers are left out, and a pointer that is captured
stays so.
-/
namespace CortenDesk
namespace WebClient

/-- A point of the element, which the code maps to the remote display. -/
structure Point where
  x : Rat
  y : Rat
  deriving DecidableEq

inductive PointerType
  | mouse
  | pen
  | touch
  deriving DecidableEq

namespace MouseType

def move : Nat := 0
def down : Nat := 1
def up : Nat := 2

end MouseType

namespace MouseButton

def left : Nat := 0x01
def right : Nat := 0x02
def middle : Nat := 0x04
def back : Nat := 0x08
def forward : Nat := 0x10

end MouseButton

def buttonMask (type buttons : Nat) : Nat := (buttons <<< 3) ||| type

def domButtonToMask : Nat → Nat
  | 0 => MouseButton.left
  | 1 => MouseButton.middle
  | 2 => MouseButton.right
  | 3 => MouseButton.back
  | 4 => MouseButton.forward
  | _ => 0

structure MouseCommand where
  mask : Nat
  point : Point
  deriving DecidableEq

def touchTapMs : Int := 500
def touchSlopPx : Rat := 12

/-- The one-finger gesture of the touch mode. -/
structure Gesture where
  id : Nat
  start : Point
  last : Point
  moved : Bool
  downAt : Int

/-- A pointer that went down on the element, the button that it did so with, those it holds, and
whether that was posted as a press. -/
structure Contact where
  id : Nat
  type : PointerType
  first : Nat
  held : List Nat
  posted : Bool

/-- The browser's pointers and clock, and the state of the handlers. -/
structure PointerInput where
  contacts : List Contact := []
  now : Int := 0
  touchMode : Bool := false
  touch : Option Gesture := none
  /-- The timer of the long press is pending. -/
  timer : Bool := false
  posted : List MouseCommand := []

inductive PointerEvent
  | press (id : Nat) (type : PointerType) (button : Nat) (point : Point)
  | move (id : Nat) (type : PointerType) (point : Point)
  | release (id : Nat) (type : PointerType) (button : Nat) (point : Point)
  | cancel (id : Nat)
  | longPress
  | setTouchMode (on : Bool)
  | clock (now : Int)

namespace PointerInput

def touchActive (s : PointerInput) (type : PointerType) : Bool := type = .touch && s.touchMode

def send (s : PointerInput) (point : Point) (mask : Nat) : PointerInput :=
  { s with posted := s.posted ++ [⟨mask, point⟩] }

/-- The cursor goes to the point and the button is pressed and released there. -/
def click (s : PointerInput) (point : Point) (button : Nat) : PointerInput :=
  ((s.send point (buttonMask MouseType.move 0)).send point
    (buttonMask MouseType.down button)).send point (buttonMask MouseType.up button)

def farFrom (start point : Point) : Bool :=
  touchSlopPx * touchSlopPx <
    (point.x - start.x) * (point.x - start.x) + (point.y - start.y) * (point.y - start.y)

def onPointerMove (s : PointerInput) (id : Nat) (type : PointerType) (point : Point) :
    PointerInput :=
  if s.touchActive type then
    match s.touch with
    | none => s
    | some touch =>
        if id ≠ touch.id then s
        else
          let strays := ! touch.moved && farFrom touch.start point
          send
            { s with
              touch := some { touch with moved := touch.moved || strays, last := point }
              timer := s.timer && ! strays }
            point (buttonMask MouseType.move 0)
  else s.send point (buttonMask MouseType.move 0)

def onPointerDown (s : PointerInput) (id : Nat) (type : PointerType) (button : Nat)
    (point : Point) : PointerInput :=
  if s.touchActive type then
    match s.touch with
    | some _ => s
    | none => { s with touch := some ⟨id, point, point, false, s.now⟩, timer := true }
  else s.send point (buttonMask MouseType.down (domButtonToMask button))

def onPointerUp (s : PointerInput) (id : Nat) (type : PointerType) (button : Nat)
    (point : Point) : PointerInput :=
  match s.touch.filter fun touch => type = .touch && id = touch.id with
  | some touch =>
      let ended := { s with touch := none, timer := false }
      if ! touch.moved && s.now - touch.downAt < touchTapMs then
        ended.click touch.start MouseButton.left
      else ended
  | none =>
      if s.touchActive type then s
      else s.send point (buttonMask MouseType.up (domButtonToMask button))

/-- The timer's callback. -/
def onLongPress (s : PointerInput) : PointerInput :=
  match s.touch with
  | none => s
  | some touch =>
      if touch.moved then s
      else { s.click touch.last MouseButton.right with touch := none }

def contact? (s : PointerInput) (id : Nat) : Option Contact := s.contacts.find? fun c => c.id = id

/-- What the pointer holds; the rest of it stays. -/
def hold (s : PointerInput) (id : Nat) (held : List Nat) : PointerInput :=
  { s with contacts := s.contacts.map fun c => if c.id = id then { c with held } else c }

def lift (s : PointerInput) (id : Nat) : PointerInput :=
  { s with contacts := s.contacts.filter fun c => c.id ≠ id }

/-- The browser's events: a touch reaches the element only where it went down on it, another
pointer also when it was pressed elsewhere. -/
def step (s : PointerInput) : PointerEvent → PointerInput
  | .press id type button point =>
      match s.contact? id with
      | some c => (s.hold id (c.held.insert button)).onPointerMove id c.type point
      | none =>
          let down := s.onPointerDown id type button point
          { down with
            contacts := s.contacts ++ [⟨id, type, button, [button], ! s.touchActive type⟩] }
  | .move id type point =>
      match s.contact? id with
      | some c => s.onPointerMove id c.type point
      | none => if type = .touch then s else s.onPointerMove id type point
  | .release id type button point =>
      match s.contact? id with
      | some c =>
          if c.held.erase button = [] then (s.onPointerUp id c.type button point).lift id
          else (s.hold id (c.held.erase button)).onPointerMove id c.type point
      | none => if type = .touch then s else s.onPointerUp id type button point
  | .cancel id => s.lift id
  | .longPress => if s.timer then { s with timer := false }.onLongPress else s
  | .setTouchMode on => { s with touchMode := on }
  | .clock now => { s with now }

/-- The button was pressed and has not been released since. -/
def Unreleased (posted : List MouseCommand) (button : Nat) : Prop :=
  ∃ before down after, posted = before ++ down :: after ∧
    down.mask = buttonMask MouseType.down button ∧
    ∀ up ∈ after, up.mask ≠ buttonMask MouseType.up button

/-- No pointer is down and no timer is pending. -/
def Quiet (s : PointerInput) : Prop := s.contacts = [] ∧ s.timer = false

/-- Every press has been followed by a release of its button, and a touch starts a gesture. -/
structure Rested (s : PointerInput) : Prop where
  released : ∀ button, ¬ Unreleased s.posted button
  fresh : ∀ id button point, s.touchMode →
    (s.step (.press id .touch button point)).touch = some ⟨id, point, point, false, s.now⟩

/-- A pointer whose press was posted is released with the button of its press and is not taken
for a touch of the gesture mode, nor is it cancelled; and the finger of a gesture that has moved
is not cancelled. -/
def Orderly (s : PointerInput) : PointerEvent → Prop
  | .release id _ button _ => ∀ c ∈ s.contacts, c.id = id → c.held.erase button = [] → c.posted →
      domButtonToMask button = domButtonToMask c.first ∧
        (c.type = .touch → s.touchMode = false ∧ ∀ touch, s.touch = some touch → id ≠ touch.id)
  | .cancel id => (∀ c ∈ s.contacts, c.id = id → c.posted = false) ∧
      ∀ touch, s.touch = some touch → touch.moved → id ≠ touch.id
  | _ => True

section Posted

theorem buttonMask_eq {type : Nat} (small : type < 8) (buttons : Nat) :
    buttonMask type buttons = 8 * buttons + type := by
  rw [buttonMask, ← Nat.shiftLeft_add_eq_or_of_lt small, Nat.shiftLeft_eq, Nat.mul_comm]

theorem down_eq (button : Nat) : buttonMask MouseType.down button = 8 * button + 1 :=
  buttonMask_eq (by decide) button

theorem up_eq (button : Nat) : buttonMask MouseType.up button = 8 * button + 2 :=
  buttonMask_eq (by decide) button

theorem unreleased_nil (button : Nat) : ¬ Unreleased [] button := Pending.not_open_nil

/-- What one more command leaves pressed. -/
theorem unreleased_concat {posted : List MouseCommand} {command : MouseCommand} {button : Nat}
    (h : Unreleased (posted ++ [command]) button) :
    command.mask = buttonMask MouseType.down button ∨
      (Unreleased posted button ∧ command.mask ≠ buttonMask MouseType.up button) :=
  Pending.open_concat h

end Posted

section Sent
variable {s : PointerInput} {point : Point} {button : Nat}

theorem unreleased_move (h : Unreleased (s.send point (buttonMask MouseType.move 0)).posted button) :
    Unreleased s.posted button := by
  obtain pressed | ⟨before, _⟩ := unreleased_concat h
  · rw [down_eq] at pressed
    have moved : buttonMask MouseType.move 0 = 0 := rfl
    dsimp only at pressed
    omega
  · exact before

theorem unreleased_down {mask : Nat}
    (h : Unreleased (s.send point (buttonMask MouseType.down mask)).posted button) :
    mask = button ∨ Unreleased s.posted button := by
  obtain pressed | ⟨before, _⟩ := unreleased_concat h
  · dsimp only at pressed
    rw [down_eq, down_eq] at pressed
    exact .inl (by omega)
  · exact .inr before

theorem unreleased_up {mask : Nat}
    (h : Unreleased (s.send point (buttonMask MouseType.up mask)).posted button) :
    mask ≠ button ∧ Unreleased s.posted button := by
  obtain pressed | ⟨before, other⟩ := unreleased_concat h
  · dsimp only at pressed
    rw [down_eq, up_eq] at pressed
    omega
  · exact ⟨fun same => other (by rw [same]), before⟩

/-- A click releases what it presses. -/
theorem unreleased_click {clicked : Nat} (h : Unreleased (s.click point clicked).posted button) :
    Unreleased s.posted button := by
  obtain ⟨other, held⟩ := unreleased_up h
  exact unreleased_move ((unreleased_down held).resolve_left other)

end Sent

/-- What holds of the handlers in every orderly run: a button that is left pressed is that of a
pointer that is still down, the timer is that of a gesture that has not moved, and the finger of
one that has is down. -/
structure Tracked (s : PointerInput) : Prop where
  ids : (s.contacts.map Contact.id).Nodup
  owed : ∀ button, Unreleased s.posted button →
    ∃ c ∈ s.contacts, c.posted ∧ domButtonToMask c.first = button
  timer : s.timer = s.touch.any fun touch => ! touch.moved
  down : ∀ touch, s.touch = some touch → touch.moved →
    ∃ c ∈ s.contacts, c.id = touch.id ∧ c.type = .touch

section Steps
variable {s : PointerInput} {id : Nat} {type : PointerType} {point : Point}

theorem mem_of_contact? {c : Contact} (found : s.contact? id = some c) :
    c ∈ s.contacts ∧ c.id = id := by
  rw [contact?] at found
  exact ⟨List.mem_of_find?_eq_some found, by simpa using List.find?_some found⟩

theorem contact_unique (ids : (s.contacts.map Contact.id).Nodup) {c d : Contact}
    (hc : c ∈ s.contacts) (hd : d ∈ s.contacts) (same : c.id = d.id) : c = d :=
  List.inj_on_of_nodup_map ids hc hd same

/-- A move keeps the state tracked where a touch that moves is down. -/
theorem tracked_onPointerMove (h : Tracked s)
    (there : type = .touch → ∃ c ∈ s.contacts, c.id = id ∧ c.type = .touch) :
    Tracked (s.onPointerMove id type point) := by
  unfold onPointerMove
  split
  · next active =>
    split
    · exact h
    · next touch current =>
      by_cases same : id = touch.id
      · rw [if_neg (not_not.mpr same)]
        have touched : type = .touch := by
          rw [touchActive, Bool.and_eq_true, decide_eq_true_eq] at active
          exact active.1
        refine ⟨h.ids, fun button left => h.owed button (unreleased_move left), ?_, ?_⟩
        · have pending := h.timer
          rw [current, Option.any_some] at pending
          change (s.timer && _) = ! (touch.moved || _)
          rw [pending, Bool.not_or]
        · intro other moved _
          obtain rfl := Option.some.inj moved
          obtain ⟨c, mem, own, kind⟩ := there touched
          exact ⟨c, mem, own.trans same, kind⟩
      · rw [if_pos same]
        exact h
  · exact ⟨h.ids, fun button left => h.owed button (unreleased_move left), h.timer, h.down⟩

theorem tracked_hold (h : Tracked s) (held : List Nat) : Tracked (s.hold id held) := by
  have kept {c : Contact} (mem : c ∈ s.contacts) : ∃ d ∈ (s.hold id held).contacts,
      d.id = c.id ∧ d.type = c.type ∧ d.first = c.first ∧ d.posted = c.posted := by
    refine ⟨_, List.mem_map_of_mem mem, ?_⟩
    split <;> exact ⟨rfl, rfl, rfl, rfl⟩
  refine ⟨?_, fun button left => ?_, h.timer, fun touch current moved => ?_⟩
  · have same : (s.hold id held).contacts.map Contact.id = s.contacts.map Contact.id := by
      rw [hold, List.map_map]
      refine List.map_congr_left fun c _ => ?_
      rw [Function.comp_apply]
      split <;> rfl
    rw [same]
    exact h.ids
  · obtain ⟨c, mem, posted, first⟩ := h.owed button left
    obtain ⟨d, here, _, _, pressed, told⟩ := kept mem
    exact ⟨d, here, told.trans posted, (congrArg domButtonToMask pressed).trans first⟩
  · obtain ⟨c, mem, own, kind⟩ := h.down touch current moved
    obtain ⟨d, here, same, typed, _⟩ := kept mem
    exact ⟨d, here, same.trans own, typed.trans kind⟩

theorem contact_hold {c : Contact} (mem : c ∈ s.contacts) (own : c.id = id) (held : List Nat) :
    c.type = .touch → ∃ d ∈ (s.hold id held).contacts, d.id = id ∧ d.type = .touch := by
  intro kind
  refine ⟨_, List.mem_map_of_mem mem, ?_⟩
  rw [if_pos own]
  exact ⟨own, kind⟩

theorem tracked_press (h : Tracked s) (button : Nat) :
    Tracked (s.step (.press id type button point)) := by
  simp only [step]
  split
  · next c found =>
    obtain ⟨mem, own⟩ := mem_of_contact? found
    exact tracked_onPointerMove (tracked_hold h _) (contact_hold mem own _)
  · next absent =>
    have fresh (c : Contact) (mem : c ∈ s.contacts) : c.id ≠ id := by
      simpa using List.find?_eq_none.mp absent c mem
    have ids : ((s.contacts ++ [(⟨id, type, button, [button], ! s.touchActive type⟩ : Contact)]).map
        Contact.id).Nodup := by
      rw [List.map_append, List.nodup_append]
      refine ⟨h.ids, List.nodup_singleton _, ?_⟩
      intro a ha b hb same
      obtain ⟨c, mem, rfl⟩ := List.mem_map.mp ha
      exact fresh c mem (same.trans (List.mem_singleton.mp hb))
    have owed (button : Nat) (left : Unreleased s.posted button) (more : Contact) :
        ∃ c ∈ s.contacts ++ [more], c.posted ∧ domButtonToMask c.first = button := by
      obtain ⟨c, mem, told⟩ := h.owed button left
      exact ⟨c, List.mem_append_left _ mem, told⟩
    have down (more : Contact) (touch : Gesture) (current : s.touch = some touch)
        (moved : touch.moved) : ∃ c ∈ s.contacts ++ [more], c.id = touch.id ∧ c.type = .touch := by
      obtain ⟨c, mem, told⟩ := h.down touch current moved
      exact ⟨c, List.mem_append_left _ mem, told⟩
    unfold onPointerDown
    split
    · split
      · exact ⟨ids, fun button left => owed button left _, h.timer, down _⟩
      · refine ⟨ids, fun button left => owed button left _, rfl, fun touch current moved => ?_⟩
        obtain rfl := Option.some.inj current
        cases moved
    · next pointing =>
      refine ⟨ids, fun pressed left => ?_, h.timer, down _⟩
      obtain rfl | left := unreleased_down left
      · exact ⟨_, List.mem_append_right _ (List.mem_singleton_self _), by simpa using pointing, rfl⟩
      · exact owed pressed left _

theorem tracked_move (h : Tracked s) : Tracked (s.step (.move id type point)) := by
  simp only [step]
  split
  · next c found =>
    obtain ⟨mem, own⟩ := mem_of_contact? found
    exact tracked_onPointerMove h fun kind => ⟨c, mem, own, kind⟩
  · split
    · exact h
    · next other => exact tracked_onPointerMove h fun kind => absurd kind other

/-- The pointers that stay are those that another one was. -/
theorem tracked_lift (h : Tracked s) (unowed : ∀ c ∈ s.contacts, c.id = id → c.posted →
      ¬ Unreleased s.posted (domButtonToMask c.first))
    (unmoved : ∀ touch, s.touch = some touch → touch.moved → id ≠ touch.id) :
    Tracked (s.lift id) := by
  refine ⟨h.ids.sublist (List.filter_sublist.map Contact.id), fun button left => ?_, h.timer,
    fun touch current moved => ?_⟩
  · obtain ⟨c, mem, posted, rfl⟩ := h.owed button left
    refine ⟨c, List.mem_filter.mpr ⟨mem, decide_eq_true fun own => ?_⟩, posted, rfl⟩
    exact unowed c mem own posted left
  · obtain ⟨c, mem, own, kind⟩ := h.down touch current moved
    refine ⟨c, List.mem_filter.mpr ⟨mem, decide_eq_true fun same => ?_⟩, own, kind⟩
    exact unmoved touch current moved (same.symm.trans own)

/-- The button that ends a chord releases the press that began it, unless the pointer is the
finger of a gesture, whose press was not posted. -/
theorem tracked_lift_onPointerUp (h : Tracked s) {c : Contact} (mem : c ∈ s.contacts)
    (own : c.id = id) {button : Nat} (paired : c.posted →
      domButtonToMask button = domButtonToMask c.first ∧ (c.type = .touch →
        s.touchMode = false ∧ ∀ touch, s.touch = some touch → id ≠ touch.id)) :
    Tracked ((s.onPointerUp id c.type button point).lift id) := by
  have only {d : Contact} (here : d ∈ s.contacts) (same : d.id = id) : d = c :=
    contact_unique h.ids here mem (same.trans own.symm)
  unfold onPointerUp
  split
  · next touch filtered =>
    obtain ⟨current, match_⟩ := Option.filter_eq_some_iff.mp filtered
    rw [Bool.and_eq_true, decide_eq_true_eq, decide_eq_true_eq] at match_
    have unposted (d : Contact) (here : d ∈ s.contacts) (same : d.id = id) (posted : d.posted) :
        False := by
      obtain rfl := only here same
      exact (((paired posted).2 match_.1).2 touch current) match_.2
    have ended : Tracked { s with touch := none, timer := false } :=
      ⟨h.ids, h.owed, rfl, fun other current _ => by cases current⟩
    split
    · refine tracked_lift ?_ (fun d here same posted => (unposted d here same posted).elim)
        fun other current _ => by cases current
      exact ⟨ended.ids, fun pressed left => ended.owed pressed (unreleased_click left), ended.timer,
        ended.down⟩
    · exact tracked_lift ended (fun d here same posted => (unposted d here same posted).elim)
        fun other current _ => by cases current
  · next notFinger =>
    have unmoved (touch : Gesture) (current : s.touch = some touch) (moved : touch.moved) :
        id ≠ touch.id := by
      intro same
      obtain ⟨d, here, finger, kind⟩ := h.down touch current moved
      obtain rfl := only here (finger.trans same.symm)
      rw [current, Option.filter_eq_none_iff] at notFinger
      exact notFinger touch rfl (by simp [kind, same])
    split
    · next active =>
      rw [touchActive, Bool.and_eq_true, decide_eq_true_eq] at active
      refine tracked_lift h (fun d here same posted _ => ?_) unmoved
      obtain rfl := only here same
      have pointing := ((paired posted).2 active.1).1
      rw [active.2] at pointing
      cases pointing
    · have sent : Tracked (s.send point (buttonMask MouseType.up (domButtonToMask button))) :=
        ⟨h.ids, fun pressed left => h.owed pressed (unreleased_up left).2, h.timer, h.down⟩
      refine tracked_lift sent (fun d here same posted left => ?_) unmoved
      obtain rfl := only here same
      exact (unreleased_up left).1 (paired posted).1

theorem tracked_release (h : Tracked s) {button : Nat}
    (orderly : Orderly s (.release id type button point)) :
    Tracked (s.step (.release id type button point)) := by
  simp only [step]
  split
  · next c found =>
    obtain ⟨mem, own⟩ := mem_of_contact? found
    split
    · next last => exact tracked_lift_onPointerUp h mem own (orderly c mem own last)
    · exact tracked_onPointerMove (tracked_hold h _) (contact_hold mem own _)
  · split
    · exact h
    · next other =>
      -- A pointer that was pressed elsewhere is no finger: its release is posted.
      have unfiltered : (s.touch.filter fun touch => type = .touch && id = touch.id) = none := by
        rw [Option.filter_eq_none_iff]
        intro touch _
        simp [other]
      rw [onPointerUp, unfiltered, if_neg (by simp [touchActive, other])]
      exact ⟨h.ids, fun pressed left => h.owed pressed (unreleased_up left).2, h.timer, h.down⟩

theorem tracked_longPress (h : Tracked s) : Tracked (s.step .longPress) := by
  simp only [step]
  split
  · next pending =>
    have held := h.timer
    rw [pending] at held
    cases current : s.touch with
    | none =>
        rw [current] at held
        cases held
    | some touch =>
        rw [current, Option.any_some] at held
        have still : touch.moved = false := by simpa using held.symm
        rw [onLongPress]
        dsimp only
        rw [still, if_neg Bool.false_ne_true]
        exact ⟨h.ids, fun pressed left => h.owed pressed (unreleased_click left), rfl,
          fun other current _ => by cases current⟩
  · exact h

/-- Every event that is orderly keeps the state tracked. -/
theorem tracked_step (e : PointerEvent) (h : Tracked s) (orderly : Orderly s e) :
    Tracked (s.step e) := by
  cases e with
  | press id type button point => exact tracked_press h button
  | move id type point => exact tracked_move h
  | release id type button point => exact tracked_release h orderly
  | cancel id =>
      refine tracked_lift h (fun c mem own posted => ?_) orderly.2
      rw [orderly.1 c mem own] at posted
      cases posted
  | longPress => exact tracked_longPress h
  | setTouchMode on => exact ⟨h.ids, h.owed, h.timer, h.down⟩
  | clock now => exact ⟨h.ids, h.owed, h.timer, h.down⟩

/-- With no pointer down there is no gesture: one that has not moved has its timer. -/
theorem rested_of_quiet (h : Tracked s) (quiet : Quiet s) : Rested s := by
  obtain ⟨none_down, idle⟩ := quiet
  have untouched : s.touch = none := by
    cases current : s.touch with
    | none => rfl
    | some touch =>
        have pending := h.timer
        rw [idle, current, Option.any_some] at pending
        have moved : touch.moved = true := by simpa using pending.symm
        obtain ⟨c, mem, _⟩ := h.down touch current moved
        rw [none_down] at mem
        cases mem
  refine ⟨fun button left => ?_, fun id button point on => ?_⟩
  · obtain ⟨c, mem, _⟩ := h.owed button left
    rw [none_down] at mem
    cases mem
  · simp [step, contact?, none_down, onPointerDown, touchActive, on, untouched]

end Steps

theorem tracked_start (touchMode : Bool) : Tracked { touchMode } :=
  ⟨List.nodup_nil, fun button left => (unreleased_nil button left).elim, rfl,
    fun touch current _ => by cases current⟩

/-- In every orderly run, once no pointer is down and no timer is pending, nothing is left
pressed and a touch starts a gesture. -/
theorem always_rested_when_quiet (touchMode : Bool) (es : List PointerEvent)
    (orderly : Runs.Along step Orderly { touchMode } es) :
    Runs.Always step (fun s => Quiet s → Rested s) { touchMode } es :=
  Runs.Always.of_invariant_along (fun _ e h orderly => tracked_step e h orderly)
    (fun _ h => rested_of_quiet h) es _ (tracked_start touchMode) orderly

/-- A click of the mouse, then a tap of a finger in the touch mode. -/
theorem always_rested_click_tap : Runs.Always step (fun s => Quiet s → Rested s) {}
    [.press 1 .mouse 0 ⟨0, 0⟩, .release 1 .mouse 0 ⟨0, 0⟩, .setTouchMode true,
      .press 2 .touch 0 ⟨4, 4⟩, .clock 100, .release 2 .touch 0 ⟨4, 4⟩] :=
  always_rested_when_quiet false _ ⟨trivial, by simp [Orderly, step, contact?, onPointerDown,
      touchActive, send],
    trivial, trivial, trivial, by
      simp [Orderly, step, contact?, onPointerDown, onPointerUp, touchActive, send, lift],
    trivial⟩

/-- A chord of two buttons that ends with the second leaves the first one pressed: the browser
says `pointerdown` for the first alone and `pointerup` for the last one alone. -/
theorem chord_left_pressed :
    ¬ ∀ touchMode es, Runs.Always step (fun s => Quiet s → Rested s) { touchMode } es := by
  intro always
  have last := Runs.Always.last _ _ (always false
    [.press 1 .mouse 0 ⟨0, 0⟩, .press 1 .mouse 2 ⟨0, 0⟩, .release 1 .mouse 0 ⟨0, 0⟩,
      .release 1 .mouse 2 ⟨0, 0⟩])
  refine (last ⟨rfl, rfl⟩).released MouseButton.left ⟨[], _, _, rfl, rfl, ?_⟩
  decide

end PointerInput
end WebClient
end CortenDesk
