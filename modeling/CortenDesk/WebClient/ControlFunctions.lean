import CortenDesk.WebClient.TerminalPanel

/-!
The control functions of ECMA-48 that a terminal's output is made of beside its text, and what the
stripper makes of them. It knows all of them but the escape sequences with intermediate bytes, of
which it takes the first intermediate byte for the final one.
-/
namespace CortenDesk
namespace WebClient

/-- The control strings, which run up to a terminator. -/
inductive StringKind
  | osc
  | dcs
  | sos
  | pm
  | apc
  deriving DecidableEq

namespace StringKind

/-- What follows ESC in the introducer. -/
def final : StringKind → Char
  | .osc => ']'
  | .dcs => 'P'
  | .sos => 'X'
  | .pm => '^'
  | .apc => '_'

/-- The introducer as a C1 control. -/
def c1 : StringKind → Char
  | .osc => '\u009d'
  | .dcs => '\u0090'
  | .sos => '\u0098'
  | .pm => '\u009e'
  | .apc => '\u009f'

def introducer (kind : StringKind) (eightBit : Bool) : List Char :=
  if eightBit then [kind.c1] else ['\u001b', kind.final]

/-- Content that no terminator ends early. -/
structure Content (kind : StringKind) (content : List Char) : Prop where
  st : ¬ ['\u001b', '\\'] <:+: content
  st8 : '\u009c' ∉ content
  bel : kind = .osc → '\u0007' ∉ content

end StringKind

inductive StringTerminator
  | st
  | st8
  | bel
  deriving DecidableEq

def StringTerminator.bytes : StringTerminator → List Char
  | .st => ['\u001b', '\\']
  | .st8 => ['\u009c']
  | .bel => ['\u0007']

/-- The bytes `lo` to `hi`. -/
def Between (lo hi : Nat) (char : Char) : Prop := lo ≤ char.toNat ∧ char.toNat ≤ hi

/-- A well-formed control function. -/
inductive ControlFunction
  | escape (final : Char) (range : Between 0x30 0x7e final)
      (single : final ≠ '[' ∧ ∀ kind : StringKind, final ≠ kind.final)
  | c1 (control : Char) (range : Between 0x80 0x9f control)
      (single : control ≠ '\u009b' ∧ ∀ kind : StringKind, control ≠ kind.c1)
  | intermediate (first : Char) (more : List Char) (final : Char)
      (between : ∀ c ∈ first :: more, Between 0x20 0x2f c) (range : Between 0x30 0x7e final)
  | sequence (eightBit : Bool) (parameters intermediates : List Char) (final : Char)
      (given : ∀ c ∈ parameters, Between 0x30 0x3f c)
      (between : ∀ c ∈ intermediates, Between 0x20 0x2f c) (range : Between 0x40 0x7e final)
  | string (kind : StringKind) (eightBit : Bool) (content : List Char) (inside : kind.Content content)
      (terminator : StringTerminator) (ends : terminator = .bel → kind = .osc)

namespace ControlFunction

def bytes : ControlFunction → List Char
  | .escape final _ _ => ['\u001b', final]
  | .c1 control _ _ => [control]
  | .intermediate first more final _ _ => '\u001b' :: first :: more ++ [final]
  | .sequence eightBit parameters intermediates final _ _ _ =>
      (if eightBit then ['\u009b'] else ['\u001b', '[']) ++ parameters ++ intermediates ++ [final]
  | .string kind eightBit content _ terminator _ =>
      kind.introducer eightBit ++ content ++ terminator.bytes

/-- An escape sequence with intermediate bytes. -/
def HasIntermediates : ControlFunction → Prop
  | .intermediate _ _ _ _ _ => True
  | _ => False

/-- What the stripper shows of it. -/
def leak : ControlFunction → List Char
  | .intermediate _ more final _ _ => more ++ [final]
  | _ => []

end ControlFunction

def Printable (char : Char) : Prop :=
  ¬ TerminalPanel.Control char ∨ char = '\t' ∨ char = '\r' ∨ char = '\n'

/-- A part of a terminal's output. -/
inductive OutputPart
  | printable (char : Char) (visible : Printable char)
  | control (function : ControlFunction)

namespace OutputPart

def bytes : OutputPart → List Char
  | .printable char _ => [char]
  | .control function => function.bytes

/-- The text of the part, with a line feed for a carriage return. -/
def text : OutputPart → List Char
  | .printable char _ => [if char = '\r' then '\n' else char]
  | .control _ => []

def shown : OutputPart → List Char
  | .printable char visible => text (.printable char visible)
  | .control function => function.leak

end OutputPart

def stripTerminalControl (text : List Char) : List Char :=
  (TerminalControlStripper.push .text text).2

namespace TerminalControlStripper

theorem push_singleton (state : TerminalParserState) (char : Char) :
    push state [char] = parse state char :=
  Prod.ext rfl (List.append_nil _)

theorem push_append (state : TerminalParserState) (as bs : List Char) :
    push state (as ++ bs) =
      ((push (push state as).1 bs).1, (push state as).2 ++ (push (push state as).1 bs).2) :=
  (Streaming.splits_push parse).append state as bs

/-- A prefix that shows nothing. -/
theorem push_through {state next : TerminalParserState} {as : List Char}
    (silent : push state as = (next, [])) (bs : List Char) :
    push state (as ++ bs) = push next bs := by
  rw [push_append, silent]
  rfl

theorem charCode_of_le {char : Char} (small : char.toNat ≤ 0xffff) : charCode char = char.toNat :=
  if_pos (by omega)

theorem parse_printable {char : Char} (visible : Printable char) :
    parse .text char = (.text, [if char = '\r' then '\n' else char]) := by
  by_cases feed : char = '\r'
  · rw [feed]
    rfl
  · have other : charCode char ≠ 0x0d := fun same => feed (Char.toNat_inj.mp (by
      rw [charCode] at same
      split at same
      · exact same
      · omega))
    have code : charCode char = 0x09 ∨ charCode char = 0x0a ∨
        (0x20 ≤ charCode char ∧ charCode char ≠ 0x7f ∧
          (charCode char < 0x80 ∨ 0x9f < charCode char)) := by
      obtain visible | rfl | rfl | rfl := visible
      · rw [TerminalPanel.Control] at visible
        rw [charCode]
        split <;> omega
      · exact .inl rfl
      · exact absurd rfl feed
      · exact .inr (.inl rfl)
    rw [if_neg feed]
    simp only [parse]
    rw [if_neg (by omega), if_neg (by omega), if_neg (by omega), if_neg (by omega), if_neg other,
      if_pos code]

theorem parse_c1 {control : Char} (range : Between 0x80 0x9f control)
    (single : control ≠ '\u009b' ∧ ∀ kind : StringKind, control ≠ kind.c1) :
    parse .text control = (.text, []) := by
  have code : charCode control = control.toNat := charCode_of_le (by unfold Between at range; omega)
  have apart {other : Char} (differs : control ≠ other) : control.toNat ≠ other.toNat :=
    fun same => differs (Char.toNat_inj.mp same)
  have csi : control.toNat ≠ 0x9b := apart single.1
  have osc : control.toNat ≠ 0x9d := apart (single.2 .osc)
  have dcs : control.toNat ≠ 0x90 := apart (single.2 .dcs)
  have sos : control.toNat ≠ 0x98 := apart (single.2 .sos)
  have pm : control.toNat ≠ 0x9e := apart (single.2 .pm)
  have apc : control.toNat ≠ 0x9f := apart (single.2 .apc)
  unfold Between at range
  simp only [parse, code]
  rw [if_neg (by omega), if_neg csi, if_neg osc, if_neg (by omega), if_neg (by omega),
    if_neg (by omega)]

theorem parse_escape {char : Char} (range : Between 0x20 0x7e char)
    (single : char ≠ '[' ∧ ∀ kind : StringKind, char ≠ kind.final) :
    parse .escape char = (.text, []) := by
  have code : charCode char = char.toNat := charCode_of_le (by unfold Between at range; omega)
  have osc : char ≠ ']' := single.2 .osc
  unfold Between at range
  simp only [parse, code]
  rw [if_neg single.1, if_neg osc, if_neg, if_pos (by omega)]
  rintro (dcs | sos | pm | apc)
  · exact single.2 .dcs dcs
  · exact single.2 .sos sos
  · exact single.2 .pm pm
  · exact single.2 .apc apc

/-- An intermediate byte introduces nothing. -/
theorem single_intermediate {char : Char} (range : Between 0x20 0x2f char) :
    char ≠ '[' ∧ ∀ kind : StringKind, char ≠ kind.final := by
  refine ⟨?_, fun kind => ?_⟩
  · rintro rfl
    exact absurd range.2 (by decide)
  · rintro rfl
    cases kind <;> exact absurd range.2 (by decide)

theorem parse_csi_parameter {char : Char} (range : Between 0x20 0x3f char) :
    parse .csi char = (.csi, []) := by
  have code : charCode char = char.toNat := charCode_of_le (by unfold Between at range; omega)
  unfold Between at range
  simp only [parse, code]
  rw [if_neg (by omega), if_neg (by omega)]

theorem parse_csi_final {char : Char} (range : Between 0x40 0x7e char) :
    parse .csi char = (.text, []) := by
  have code : charCode char = char.toNat := charCode_of_le (by unfold Between at range; omega)
  exact if_pos (by rw [code]; exact range)

end TerminalControlStripper

namespace StringKind

/-- The stripper's state in the string. -/
def inside : StringKind → TerminalParserState
  | .osc => .osc
  | _ => .controlString

/-- The state behind an ESC in the string. -/
def escaped : StringKind → TerminalParserState
  | .osc => .oscEscape
  | _ => .controlEscape

open TerminalControlStripper

theorem push_introducer (kind : StringKind) (eightBit : Bool) :
    push .text (kind.introducer eightBit) = (kind.inside, []) := by
  cases kind <;> cases eightBit <;> rfl

theorem parse_esc (kind : StringKind) :
    parse kind.inside '\u001b' = (kind.escaped, []) ∧
      parse kind.escaped '\u001b' = (kind.escaped, []) := by
  cases kind <;> exact ⟨rfl, rfl⟩

/-- A character of the content that is not ESC. -/
theorem parse_content (kind : StringKind) {char : Char} (esc : char ≠ '\u001b')
    (st8 : char ≠ '\u009c') (bel : kind = .osc → char ≠ '\u0007') :
    parse kind.inside char = (kind.inside, []) ∧
      (char ≠ '\\' → parse kind.escaped char = (kind.inside, [])) := by
  have apart {other : Char} (small : other.toNat < 0x10000) (differs : char ≠ other)
      (low : other.toNat < 0xD800) : charCode char ≠ other.toNat := by
    intro same
    apply differs
    rw [charCode] at same
    split at same
    · exact Char.toNat_inj.mp same
    · omega
  have esc : charCode char ≠ 0x1b := apart (by decide) esc (by decide)
  have st8 : charCode char ≠ 0x9c := apart (by decide) st8 (by decide)
  cases kind with
  | osc =>
      have bel : charCode char ≠ 0x07 := apart (by decide) (bel rfl) (by decide)
      constructor
      · simp [inside, parse, esc, st8, bel]
      · intro other
        simp [inside, escaped, parse, esc, st8, bel, other]
  | dcs | sos | pm | apc =>
      constructor
      · simp [inside, parse, esc, st8]
      · intro other
        simp [inside, escaped, parse, esc, st8, other]

/-- The content shows nothing and leaves the stripper in the string. -/
theorem push_content {kind : StringKind} (content : List Char) (h : kind.Content content) :
    (push kind.inside content = (kind.inside, []) ∨ push kind.inside content = (kind.escaped, [])) ∧
      (content.head? ≠ some '\\' →
        push kind.escaped content = (kind.inside, []) ∨
          push kind.escaped content = (kind.escaped, [])) := by
  induction content with
  | nil => exact ⟨.inl rfl, fun _ => .inr rfl⟩
  | cons char content ih =>
      have rest := ih ⟨fun infixed => h.st (infixed.trans (List.suffix_cons char content).isInfix),
        fun mem => h.st8 (List.mem_cons_of_mem char mem),
        fun osc mem => h.bel osc (List.mem_cons_of_mem char mem)⟩
      by_cases esc : char = '\u001b'
      · subst esc
        have next : content.head? ≠ some '\\' := fun head => by
          obtain ⟨tail, rfl⟩ := List.head?_eq_some_iff.mp head
          exact h.st ⟨[], tail, rfl⟩
        have behind := rest.2 next
        constructor
        · rw [← List.singleton_append, push_through ((push_singleton _ _).trans kind.parse_esc.1)]
          exact behind
        · intro _
          rw [← List.singleton_append, push_through ((push_singleton _ _).trans kind.parse_esc.2)]
          exact behind
      · obtain ⟨stays, returns⟩ := parse_content kind esc
          (fun same => h.st8 (same ▸ List.mem_cons_self))
          (fun osc same => h.bel osc (same ▸ List.mem_cons_self))
        constructor
        · rw [← List.singleton_append, push_through ((push_singleton _ _).trans stays)]
          exact rest.1
        · intro other
          rw [← List.singleton_append, push_through ((push_singleton _ _).trans
            (returns fun same => other (congrArg some same)))]
          exact rest.1

theorem push_terminator {kind : StringKind} {terminator : StringTerminator}
    (ends : terminator = .bel → kind = .osc) :
    push kind.inside terminator.bytes = (.text, []) ∧
      push kind.escaped terminator.bytes = (.text, []) := by
  cases terminator with
  | st | st8 => cases kind <;> exact ⟨rfl, rfl⟩
  | bel =>
      obtain rfl := ends rfl
      exact ⟨rfl, rfl⟩

end StringKind

namespace ControlFunction
open TerminalControlStripper

/-- The stripper is back in the text behind every control function. -/
theorem push_bytes (function : ControlFunction) :
    push .text function.bytes = (.text, function.leak) := by
  cases function with
  | escape final range single =>
      have silent : push .text ['\u001b'] = (.escape, []) := rfl
      have range : Between 0x20 0x7e final := ⟨Nat.le_trans (by decide) range.1, range.2⟩
      exact (push_through silent [final]).trans
        ((push_singleton .escape final).trans (parse_escape range single))
  | c1 control range single => exact (push_singleton .text control).trans (parse_c1 range single)
  | intermediate first more final between range =>
      have opening : push .text ['\u001b', first] = (.text, []) := by
        have silent : push .text ['\u001b'] = (.escape, []) := rfl
        have first_between := between first List.mem_cons_self
        exact (push_through silent [first]).trans ((push_singleton .escape first).trans
          (parse_escape ⟨first_between.1, Nat.le_trans first_between.2 (by decide)⟩
            (single_intermediate first_between)))
      have shown (c : Char) (mem : c ∈ more ++ [final]) : parse .text c = (.text, [id c]) := by
        have visible : Between 0x20 0x7e c := by
          obtain mem | mem := List.mem_append.mp mem
          · have range := between c (List.mem_cons_of_mem first mem)
            exact ⟨range.1, Nat.le_trans range.2 (by decide)⟩
          · rw [List.mem_singleton.mp mem]
            exact ⟨Nat.le_trans (by decide) range.1, range.2⟩
        have other : c ≠ '\r' := by
          rintro rfl
          exact absurd visible.1 (by decide)
        rw [parse_printable (.inl (by
          unfold TerminalPanel.Control
          unfold Between at visible
          omega)), if_neg other]
        rfl
      have text := Streaming.push_map (more ++ [final]) shown
      rw [List.map_id] at text
      exact (push_through opening (more ++ [final])).trans text
  | sequence eightBit parameters intermediates final given between range =>
      have opening : push .text (if eightBit then ['\u009b'] else ['\u001b', '[']) = (.csi, []) := by
        cases eightBit <;> rfl
      have held (c : Char) (mem : c ∈ parameters ++ intermediates) : parse .csi c = (.csi, []) := by
        apply parse_csi_parameter
        obtain mem | mem := List.mem_append.mp mem
        · exact ⟨Nat.le_trans (by decide) (given c mem).1, (given c mem).2⟩
        · exact ⟨(between c mem).1, Nat.le_trans (between c mem).2 (by decide)⟩
      have silent : push .csi (parameters ++ intermediates) = (.csi, []) :=
        Streaming.push_silent _ held
      rw [bytes, List.append_assoc, List.append_assoc, push_through opening, ← List.append_assoc,
        push_through silent, push_singleton, parse_csi_final range]
      rfl
  | string kind eightBit content inside terminator ends =>
      rw [bytes, List.append_assoc, push_through (kind.push_introducer eightBit)]
      obtain stays | escaped := (StringKind.push_content content inside).1
      · rw [push_through stays, (StringKind.push_terminator ends).1]
        rfl
      · rw [push_through escaped, (StringKind.push_terminator ends).2]
        rfl

theorem leak_eq_nil_iff (function : ControlFunction) :
    function.leak = [] ↔ ¬ function.HasIntermediates := by
  cases function with
  | intermediate first more final between range =>
      exact iff_of_false (List.append_ne_nil_of_right_ne_nil more (List.cons_ne_nil final []))
        fun none => none trivial
  | escape | c1 | sequence | string => exact iff_of_true rfl id

end ControlFunction

namespace OutputPart

theorem push_bytes (part : OutputPart) :
    TerminalControlStripper.push .text part.bytes = (.text, part.shown) := by
  cases part with
  | printable char visible =>
      exact (TerminalControlStripper.push_singleton .text char).trans
        (TerminalControlStripper.parse_printable visible)
  | control function => exact function.push_bytes

/-- The stripper shows the text of every part and what leaks of it. -/
theorem stripTerminalControl_bytes (parts : List OutputPart) :
    stripTerminalControl (parts.flatMap bytes) = parts.flatMap shown :=
  congrArg Prod.snd (Streaming.push_flatMap push_bytes parts)

theorem length_text_le (part : OutputPart) : part.text.length ≤ part.shown.length := by
  cases part with
  | printable char visible => exact Nat.le_refl _
  | control function => exact Nat.zero_le _

theorem length_flatMap_text_le (parts : List OutputPart) :
    (parts.flatMap text).length ≤ (parts.flatMap shown).length := by
  induction parts with
  | nil => exact Nat.le_refl 0
  | cons part parts ih =>
      rw [List.flatMap_cons, List.flatMap_cons, List.length_append, List.length_append]
      exact Nat.add_le_add part.length_text_le ih

/-- Parts that show no more than their text leak nothing. -/
theorem leak_eq_nil_of_length {parts : List OutputPart}
    (same : (parts.flatMap shown).length = (parts.flatMap text).length) :
    ∀ function, OutputPart.control function ∈ parts → function.leak = [] := by
  induction parts with
  | nil =>
      intro function mem
      cases mem
  | cons part parts ih =>
      rw [List.flatMap_cons, List.flatMap_cons, List.length_append, List.length_append] at same
      have here := part.length_text_le
      have later := length_flatMap_text_le parts
      intro function mem
      obtain rfl | mem := List.mem_cons.mp mem
      · simp only [shown, text, List.length_nil] at same
        exact List.length_eq_zero_iff.mp (by omega)
      · exact ih (by omega) function mem

/-- The stripper returns exactly the text of a well-formed output when no control function of it
has intermediate bytes behind its ESC. -/
theorem stripped_iff (parts : List OutputPart) :
    stripTerminalControl (parts.flatMap bytes) = parts.flatMap text ↔
      ∀ function, OutputPart.control function ∈ parts → ¬ function.HasIntermediates := by
  rw [stripTerminalControl_bytes]
  constructor
  · intro same function mem
    exact function.leak_eq_nil_iff.mp (leak_eq_nil_of_length (congrArg List.length same) function mem)
  · intro none
    refine List.flatMap_congr fun part mem => ?_
    cases part with
    | printable char visible => rfl
    | control function => exact function.leak_eq_nil_iff.mpr (none function mem)

/-- `ESC ( B`, which selects a character set. -/
theorem final_shown : ∃ parts : List OutputPart,
    parts.flatMap bytes = ['\u001b', '(', 'B'] ∧
      stripTerminalControl (parts.flatMap bytes) = ['B'] ∧ parts.flatMap text = [] := by
  refine ⟨[.control (.intermediate '(' [] 'B' ?_ ⟨by decide, by decide⟩)], rfl, rfl, rfl⟩
  intro c mem
  rw [List.mem_singleton.mp mem]
  exact ⟨by decide, by decide⟩

end OutputPart
end WebClient
end CortenDesk
