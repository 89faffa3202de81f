import CortenDesk.Lib.Pending
import CortenDesk.Lib.Runs

/-!
The key handlers. What a key event reports depends on the modifiers held at that moment, and the
command posted for it is computed from the report alone, for a release as for a press. The tables
are looked up among their own entries.
-/
namespace CortenDesk
namespace WebClient

/-- The control keys the tables name. -/
inductive ControlKey
  | alt | backspace | capsLock | control | delete | downArrow | end_ | escape
  | f1 | f10 | f11 | f12 | f2 | f3 | f4 | f5 | f6 | f7 | f8 | f9
  | home | leftArrow | meta_ | pageDown | pageUp | return_ | rightArrow | shift | space | tab
  | upArrow | numpad0 | numpad1 | numpad2 | numpad3 | numpad4 | numpad5 | numpad6 | numpad7
  | numpad8 | numpad9 | cancel | clear | pause | convert | select | print | execute | snapshot
  | insert | help | scroll | numLock | rWin | apps | multiply | add | subtract | decimal | divide
  | equals | numpadEnter | rShift | rControl | rAlt
  deriving DecidableEq

/-- The numbers of the protocol. -/
def ControlKey.value : ControlKey → Nat
  | alt => 1 | backspace => 2 | capsLock => 3 | control => 4 | delete => 5 | downArrow => 6
  | end_ => 7 | escape => 8 | f1 => 9 | f10 => 10 | f11 => 11 | f12 => 12 | f2 => 13 | f3 => 14
  | f4 => 15 | f5 => 16 | f6 => 17 | f7 => 18 | f8 => 19 | f9 => 20 | home => 21
  | leftArrow => 22 | meta_ => 23 | pageDown => 25 | pageUp => 26 | return_ => 27
  | rightArrow => 28 | shift => 29 | space => 30 | tab => 31 | upArrow => 32 | numpad0 => 33
  | numpad1 => 34 | numpad2 => 35 | numpad3 => 36 | numpad4 => 37 | numpad5 => 38 | numpad6 => 39
  | numpad7 => 40 | numpad8 => 41 | numpad9 => 42 | cancel => 43 | clear => 44 | pause => 46
  | convert => 53 | select => 54 | print => 55 | execute => 56 | snapshot => 57 | insert => 58
  | help => 59 | scroll => 62 | numLock => 63 | rWin => 64 | apps => 65 | multiply => 66
  | add => 67 | subtract => 68 | decimal => 69 | divide => 70 | equals => 71 | numpadEnter => 72
  | rShift => 73 | rControl => 74 | rAlt => 75

def namedKeys : List (String × ControlKey) :=
  [("Enter", .return_), ("Backspace", .backspace), ("Tab", .tab), ("Escape", .escape),
    ("Delete", .delete), ("Insert", .insert), ("Home", .home), ("End", .end_),
    ("PageUp", .pageUp), ("PageDown", .pageDown), ("ArrowUp", .upArrow),
    ("ArrowDown", .downArrow), ("ArrowLeft", .leftArrow), ("ArrowRight", .rightArrow),
    (" ", .space), ("Shift", .shift), ("Control", .control), ("Alt", .alt), ("Meta", .meta_),
    ("AltGraph", .rAlt), ("CapsLock", .capsLock), ("NumLock", .numLock),
    ("ScrollLock", .scroll), ("Pause", .pause), ("PrintScreen", .snapshot),
    ("ContextMenu", .apps), ("Help", .help), ("Clear", .clear), ("Select", .select),
    ("Execute", .execute), ("Print", .print), ("Cancel", .cancel), ("Convert", .convert),
    ("F1", .f1), ("F2", .f2), ("F3", .f3), ("F4", .f4), ("F5", .f5), ("F6", .f6), ("F7", .f7),
    ("F8", .f8), ("F9", .f9), ("F10", .f10), ("F11", .f11), ("F12", .f12)]

def rightVariants : List (String × ControlKey) :=
  [("Shift", .rShift), ("Control", .rControl), ("Alt", .rAlt), ("Meta", .rWin)]

def numpadKeys : List (String × ControlKey) :=
  [("0", .numpad0), ("1", .numpad1), ("2", .numpad2), ("3", .numpad3), ("4", .numpad4),
    ("5", .numpad5), ("6", .numpad6), ("7", .numpad7), ("8", .numpad8), ("9", .numpad9),
    ("+", .add), ("-", .subtract), ("*", .multiply), ("/", .divide), (".", .decimal),
    ("=", .equals), ("Enter", .numpadEnter)]

def locationRight : Nat := 2
def locationNumpad : Nat := 3

inductive KeyKind
  | chr
  | control
  | unicode
  deriving DecidableEq

/-- The key a command is about. -/
structure RemoteKey where
  keyKind : KeyKind
  value : Nat
  deriving DecidableEq

def RemoteKey.named (key : ControlKey) : RemoteKey := ⟨.control, key.value⟩

/-- What a key event reports: the key's value and its place on the keyboard. -/
structure KeyReport where
  key : String
  location : Nat
  deriving DecidableEq

/-- A key of one code point; dead keys and those without a value are ignored. -/
def printableKey (key : String) : Option RemoteKey :=
  match key.toList with
  | [c] => some (if c.toNat ≤ 0x7f then ⟨.chr, c.toNat⟩ else ⟨.unicode, c.toNat⟩)
  | _ => none

def legacyKeyCommand (e : KeyReport) : Option RemoteKey :=
  let numpad := if e.location = locationNumpad then numpadKeys.lookup e.key else none
  let right := if e.location = locationRight then rightVariants.lookup e.key else none
  match numpad, right, namedKeys.lookup e.key with
  | some key, _, _ => some (.named key)
  | none, some key, _ => some (.named key)
  | none, none, some key => some (.named key)
  | none, none, none => printableKey e.key

structure ModifierState where
  ctrlKey : Bool := false
  shiftKey : Bool := false
  altKey : Bool := false
  metaKey : Bool := false
  deriving DecidableEq

def modifierList (e : ModifierState) : List Nat :=
  (if e.ctrlKey then [ControlKey.control.value] else []) ++
    (if e.shiftKey then [ControlKey.shift.value] else []) ++
    (if e.altKey then [ControlKey.alt.value] else []) ++
    (if e.metaKey then [ControlKey.meta_.value] else [])

structure KeyCommand where
  down : Bool
  press : Bool
  key : RemoteKey
  modifiers : List Nat
  deriving DecidableEq

/-- An event of the physical key `code`: `keydown`, once or repeated while it is held, or
`keyup`. -/
structure KeyboardEvent where
  down : Bool
  code : String
  report : KeyReport
  modifiers : ModifierState := {}

/-- The commands posted, and for every physical key what its `keydown` events have reported since
it went down; a key that is up has none. -/
structure KeyInput where
  posted : List KeyCommand := []
  downs : String → List KeyReport := fun _ => []

namespace KeyInput

/-- `onKey(down)`. -/
def onKey (posted : List KeyCommand) (e : KeyboardEvent) : List KeyCommand :=
  match legacyKeyCommand e.report with
  | none => posted
  | some key =>
      posted ++
        [{ down := e.down, press := false, key := key, modifiers := modifierList e.modifiers }]

def step (s : KeyInput) (e : KeyboardEvent) : KeyInput where
  posted := onKey s.posted e
  downs := fun code =>
    if code = e.code then (if e.down then s.downs code ++ [e.report] else []) else s.downs code

/-- The key was posted as pressed and has not been posted as released since. -/
def LeftPressed (posted : List KeyCommand) (key : RemoteKey) : Prop :=
  Pending.Open (fun command => command.down = true ∧ command.key = key)
    (fun command => command.down = false ∧ command.key = key) posted

/-- Every physical key is up. -/
def AllUp (s : KeyInput) : Prop := ∀ code, s.downs code = []

/-- A release is translated as every press of the key since it went down. -/
def Steady (s : KeyInput) (e : KeyboardEvent) : Prop :=
  e.down = false → ∀ pressed ∈ s.downs e.code,
    legacyKeyCommand pressed = none ∨ legacyKeyCommand pressed = legacyKeyCommand e.report

/-- What is left pressed was reported by a key that is still down. -/
def Owed (s : KeyInput) : Prop :=
  ∀ key, LeftPressed s.posted key →
    ∃ code, ∃ pressed ∈ s.downs code, legacyKeyCommand pressed = some key

theorem leftPressed_concat {posted : List KeyCommand} {command : KeyCommand} {key : RemoteKey}
    (left : LeftPressed (posted ++ [command]) key) :
    (command.down = true ∧ command.key = key) ∨
      (LeftPressed posted key ∧ (command.down = false → command.key ≠ key)) := by
  cases Pending.open_concat left with
  | inl opened => exact .inl opened
  | inr kept => exact .inr ⟨kept.1, fun up same => kept.2 ⟨up, same⟩⟩

/-- A press owes the release of what it posts to its key. -/
theorem owed_keydown {s : KeyInput} {e : KeyboardEvent} (owed : Owed s) (down : e.down = true) :
    Owed (s.step e) := by
  have grown : ∀ code, ∀ pressed ∈ s.downs code, pressed ∈ (s.step e).downs code := by
    intro code pressed mem
    by_cases own : code = e.code
    · simp [step, own, down, own ▸ mem]
    · simp [step, own, mem]
  have earlier : ∀ key, LeftPressed s.posted key →
      ∃ code, ∃ pressed ∈ (s.step e).downs code, legacyKeyCommand pressed = some key := by
    intro key left
    obtain ⟨code, pressed, mem, own⟩ := owed key left
    exact ⟨code, pressed, grown code pressed mem, own⟩
  intro key left
  cases translated : legacyKeyCommand e.report with
  | none =>
      simp only [step, onKey, translated] at left
      exact earlier key left
  | some posted =>
      simp only [step, onKey, translated] at left
      cases leftPressed_concat left with
      | inl opened =>
          refine ⟨e.code, e.report, ?_, translated.trans (congrArg some opened.2)⟩
          simp [step, down]
      | inr kept => exact earlier key kept.1

/-- A steady release posts what its key owes. -/
theorem owed_keyup {s : KeyInput} {e : KeyboardEvent} (owed : Owed s) (up : e.down = false)
    (steady : Steady s e) : Owed (s.step e) := by
  have others : ∀ key, LeftPressed s.posted key → legacyKeyCommand e.report ≠ some key →
      ∃ code, ∃ pressed ∈ (s.step e).downs code, legacyKeyCommand pressed = some key := by
    intro key left other
    obtain ⟨code, pressed, mem, own⟩ := owed key left
    have distinct : code ≠ e.code := by
      intro same
      cases steady up pressed (same ▸ mem) with
      | inl silent => rw [own] at silent; cases silent
      | inr alike => exact other (alike ▸ own)
    exact ⟨code, pressed, by simpa [step, distinct] using mem, own⟩
  intro key left
  cases translated : legacyKeyCommand e.report with
  | none =>
      simp only [step, onKey, translated] at left
      exact others key left fun same => by rw [translated] at same; cases same
  | some posted =>
      simp only [step, onKey, translated] at left
      cases leftPressed_concat left with
      | inl opened =>
          rw [up] at opened
          cases opened.1
      | inr kept =>
          refine others key kept.1 fun same => kept.2 up ?_
          exact Option.some.inj (translated.symm.trans same)

theorem owed_step {s : KeyInput} {e : KeyboardEvent} (owed : Owed s) (steady : Steady s e) :
    Owed (s.step e) := by
  cases down : e.down with
  | true => exact owed_keydown owed down
  | false => exact owed_keyup owed down steady

theorem owed_start : Owed {} := fun _ left => (Pending.not_open_nil left).elim

/-- In every run of steady releases, whenever every physical key is up nothing is left pressed. -/
theorem nothing_left_pressed (es : List KeyboardEvent) (steady : Runs.Along step Steady {} es) :
    Runs.Always step (fun s => AllUp s → ∀ key, ¬ LeftPressed s.posted key) {} es := by
  refine Runs.Always.of_invariant_along (I := Owed) (fun _ _ owed steady => owed_step owed steady)
    (fun s owed up key left => ?_) es {} owed_start steady
  obtain ⟨code, pressed, mem, -⟩ := owed key left
  rw [up code] at mem
  cases mem

/-- A letter typed with the shift key, which is released last. -/
def capital : List KeyboardEvent :=
  [{ down := true, code := "ShiftLeft", report := ⟨"Shift", 1⟩, modifiers := { shiftKey := true } },
    { down := true, code := "KeyA", report := ⟨"A", 0⟩, modifiers := { shiftKey := true } },
    { down := false, code := "KeyA", report := ⟨"A", 0⟩, modifiers := { shiftKey := true } },
    { down := false, code := "ShiftLeft", report := ⟨"Shift", 1⟩ }]

/-- The same keys with the shift key released first: the letter goes up as the small one. -/
def shiftFirst : List KeyboardEvent :=
  [{ down := true, code := "ShiftLeft", report := ⟨"Shift", 1⟩, modifiers := { shiftKey := true } },
    { down := true, code := "KeyA", report := ⟨"A", 0⟩, modifiers := { shiftKey := true } },
    { down := false, code := "ShiftLeft", report := ⟨"Shift", 1⟩ },
    { down := false, code := "KeyA", report := ⟨"a", 0⟩ }]

theorem nothing_left_pressed_capital :
    Runs.Always step (fun s => AllUp s → ∀ key, ¬ LeftPressed s.posted key) {} capital := by
  refine nothing_left_pressed capital ⟨?_, ?_, ?_, ?_, True.intro⟩
  · exact fun up => by cases up
  · exact fun up => by cases up
  · intro _ pressed mem
    have own : pressed = ⟨"A", 0⟩ := by simpa [step] using mem
    exact .inr (congrArg legacyKeyCommand own)
  · intro _ pressed mem
    have own : pressed = ⟨"Shift", 1⟩ := by simpa [step] using mem
    exact .inr (congrArg legacyKeyCommand own)

theorem legacyKeyCommand_shift : legacyKeyCommand ⟨"Shift", 1⟩ = some ⟨.control, 29⟩ := by decide
theorem legacyKeyCommand_capital : legacyKeyCommand ⟨"A", 0⟩ = some ⟨.chr, 65⟩ := by decide
theorem legacyKeyCommand_small : legacyKeyCommand ⟨"a", 0⟩ = some ⟨.chr, 97⟩ := by decide

/-- The capital letter stays pressed with every key up. -/
theorem shift_first_left_pressed :
    AllUp (Runs.run step {} shiftFirst) ∧
      LeftPressed (Runs.run step {} shiftFirst).posted ⟨.chr, 65⟩ := by
  constructor
  · intro code
    by_cases letter : code = "KeyA"
    · simp [shiftFirst, step, letter]
    · by_cases shift : code = "ShiftLeft"
      · simp [shiftFirst, step, shift]
      · simp [shiftFirst, step, letter, shift]
  · have posted : (Runs.run step {} shiftFirst).posted =
        [⟨true, false, ⟨.control, 29⟩, [29]⟩, ⟨true, false, ⟨.chr, 65⟩, [29]⟩,
          ⟨false, false, ⟨.control, 29⟩, []⟩, ⟨false, false, ⟨.chr, 97⟩, []⟩] := by
      simp only [shiftFirst, Runs.run_cons, Runs.run_nil, step, onKey, legacyKeyCommand_shift,
        legacyKeyCommand_capital, legacyKeyCommand_small]
      rfl
    refine ⟨[⟨true, false, ⟨.control, 29⟩, [29]⟩], ⟨true, false, ⟨.chr, 65⟩, [29]⟩,
      [⟨false, false, ⟨.control, 29⟩, []⟩, ⟨false, false, ⟨.chr, 97⟩, []⟩], posted, ⟨rfl, rfl⟩, ?_⟩
    intro later mem
    simp only [List.mem_cons, List.not_mem_nil, or_false] at mem
    obtain rfl | rfl := mem <;> decide

end KeyInput
end WebClient
end CortenDesk
