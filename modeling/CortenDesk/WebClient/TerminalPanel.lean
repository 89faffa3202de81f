import CortenDesk.Lib.Streaming
import Mathlib.Data.List.Basic
import Mathlib.Tactic.SplitIfs

/-!
The output of a remote terminal: the peer's bytes are normalized, decoded and stripped of controls,
each stage keeping its state from one `terminalData` frame to the next.
-/
namespace CortenDesk
namespace WebClient

inductive TerminalParserState
  | text
  | escape
  | csi
  | osc
  | oscEscape
  | controlString
  | controlEscape
  deriving DecidableEq

/-- `charCodeAt(0)` of a code point of a string: a surrogate from U+10000 on. -/
def charCode (char : Char) : Nat :=
  if char.toNat < 0x10000 then char.toNat else 0xD800 + (char.toNat - 0x10000) / 0x400

namespace TerminalControlStripper

def parse (state : TerminalParserState) (char : Char) : TerminalParserState × List Char :=
  let code := charCode char
  match state with
  | .text =>
      if code = 0x1b then (.escape, [])
      else if code = 0x9b then (.csi, [])
      else if code = 0x9d then (.osc, [])
      else if code = 0x90 ∨ code = 0x98 ∨ code = 0x9e ∨ code = 0x9f then (.controlString, [])
      else if code = 0x0d then (.text, ['\n'])
      else if code = 0x09 ∨ code = 0x0a ∨
          (0x20 ≤ code ∧ code ≠ 0x7f ∧ (code < 0x80 ∨ 0x9f < code)) then (.text, [char])
      else (.text, [])
  | .escape =>
      if char = '[' then (.csi, [])
      else if char = ']' then (.osc, [])
      else if char = 'P' ∨ char = 'X' ∨ char = '^' ∨ char = '_' then (.controlString, [])
      else if code ≠ 0x1b then (.text, [])
      else (.escape, [])
  | .csi =>
      if 0x40 ≤ code ∧ code ≤ 0x7e then (.text, [])
      else if code = 0x1b then (.escape, [])
      else (.csi, [])
  | .osc =>
      if code = 0x07 ∨ code = 0x9c then (.text, [])
      else if code = 0x1b then (.oscEscape, [])
      else (.osc, [])
  | .oscEscape =>
      if char = '\\' ∨ code = 0x07 ∨ code = 0x9c then (.text, [])
      else if code ≠ 0x1b then (.osc, [])
      else (.oscEscape, [])
  | .controlString =>
      if code = 0x9c then (.text, [])
      else if code = 0x1b then (.controlEscape, [])
      else (.controlString, [])
  | .controlEscape =>
      if char = '\\' ∨ code = 0x9c then (.text, [])
      else if code ≠ 0x1b then (.controlString, [])
      else (.controlEscape, [])

def push : TerminalParserState → List Char → TerminalParserState × List Char := Streaming.push parse

end TerminalControlStripper

namespace TerminalC1ByteNormalizer

/-- A byte that no sequence asks for; the state is `utf8ContinuationBytes`. -/
def lead (byte : UInt8) : Nat × List UInt8 :=
  let continuationBytes :=
    if 0xc2 ≤ byte ∧ byte ≤ 0xdf then 1
    else if 0xe0 ≤ byte ∧ byte ≤ 0xef then 2
    else if 0xf0 ≤ byte ∧ byte ≤ 0xf4 then 3
    else 0
  (continuationBytes, if 0x80 ≤ byte ∧ byte ≤ 0x9f then [0xc2, byte] else [byte])

def normalize (utf8ContinuationBytes : Nat) (byte : UInt8) : Nat × List UInt8 :=
  if utf8ContinuationBytes > 0 ∧ 0x80 ≤ byte ∧ byte ≤ 0xbf then (utf8ContinuationBytes - 1, [byte])
  else lead byte

def push : Nat → List UInt8 → Nat × List UInt8 := Streaming.push normalize

end TerminalC1ByteNormalizer

/-- The UTF-8 decoder of the Encoding Standard, in stream mode. -/
structure TextDecoder where
  bomSeen : Bool := false
  codePoint : Nat := 0
  bytesSeen : Nat := 0
  bytesNeeded : Nat := 0
  lower : Nat := 0x80
  upper : Nat := 0xBF

namespace TextDecoder

def replacement : Char := '\uFFFD'

/-- A byte when none is needed. -/
def lead (d : TextDecoder) (byte : Nat) : TextDecoder × List Char :=
  if byte ≤ 0x7F then (d, [Char.ofNat byte])
  else if 0xC2 ≤ byte ∧ byte ≤ 0xDF then
    ({ d with bytesNeeded := 1, codePoint := byte % 0x20 }, [])
  else if 0xE0 ≤ byte ∧ byte ≤ 0xEF then
    ({ d with
        lower := if byte = 0xE0 then 0xA0 else d.lower
        upper := if byte = 0xED then 0x9F else d.upper
        bytesNeeded := 2
        codePoint := byte % 0x10 }, [])
  else if 0xF0 ≤ byte ∧ byte ≤ 0xF4 then
    ({ d with
        lower := if byte = 0xF0 then 0x90 else d.lower
        upper := if byte = 0xF4 then 0x8F else d.upper
        bytesNeeded := 3
        codePoint := byte % 0x8 }, [])
  else (d, [replacement])

/-- Between two code points. -/
def restart (d : TextDecoder) : TextDecoder := { bomSeen := d.bomSeen }

/-- A byte that cannot follow is an error, and is read again. -/
def handle (d : TextDecoder) (byte : Nat) : TextDecoder × List Char :=
  if d.bytesNeeded = 0 then d.lead byte
  else if byte < d.lower ∨ d.upper < byte then
    let (d, out) := d.restart.lead byte
    (d, replacement :: out)
  else
    let codePoint := d.codePoint * 0x40 + byte % 0x40
    if d.bytesSeen + 1 = d.bytesNeeded then (d.restart, [Char.ofNat codePoint])
    else ({ d with lower := 0x80, upper := 0xBF, codePoint, bytesSeen := d.bytesSeen + 1 }, [])

/-- A byte order mark is left out where the stream begins. -/
def serialize (d : TextDecoder) : List Char → TextDecoder × List Char
  | [] => (d, [])
  | c :: cs =>
      if d.bomSeen then (d, c :: cs)
      else ({ d with bomSeen := true }, if c = '\uFEFF' then cs else c :: cs)

def read (d : TextDecoder) (byte : UInt8) : TextDecoder × List Char :=
  let (d, out) := d.handle byte.toNat
  d.serialize out

def decode : TextDecoder → List UInt8 → TextDecoder × List Char := Streaming.push read

end TextDecoder

structure TerminalPanel where
  decoder : TextDecoder := {}
  byteNormalizer : Nat := 0
  controlStripper : TerminalParserState := .text

namespace TerminalPanel

/-- The event `terminalData`, with the text that it appends. -/
def terminalData (panel : TerminalPanel) (data : List UInt8) : TerminalPanel × List Char :=
  let (byteNormalizer, bytes) := TerminalC1ByteNormalizer.push panel.byteNormalizer data
  let (decoder, text) := panel.decoder.decode bytes
  let (controlStripper, output) := TerminalControlStripper.push panel.controlStripper text
  (⟨decoder, byteNormalizer, controlStripper⟩, output)

/-- The text that frames append, from a panel that has just connected. -/
def appended (frames : List (List UInt8)) : List Char := (Streaming.pieces terminalData {} frames).2

/-- A code point of C0 or C1, or DEL. -/
def Control (char : Char) : Prop :=
  char.toNat < 0x20 ∨ char.toNat = 0x7f ∨ (0x80 ≤ char.toNat ∧ char.toNat ≤ 0x9f)

theorem splits_terminalData : Streaming.Splits terminalData where
  nil _ := rfl
  append panel as bs := by
    simp only [terminalData, TerminalC1ByteNormalizer.push, TextDecoder.decode,
      TerminalControlStripper.push, (Streaming.splits_push _).append]

/-- A code point whose first code unit is below the surrogates is that code unit. -/
theorem toNat_eq_charCode {char : Char} (below : char.toNat < 0x20 ∨ char.toNat = 0x7f ∨
    (0x80 ≤ char.toNat ∧ char.toNat ≤ 0x9f)) : charCode char = char.toNat :=
  if_pos (by omega)

/-- What the stripper lets through. -/
theorem parse_output (state : TerminalParserState) (char : Char) :
    (TerminalControlStripper.parse state char).2 = [] ∨
      (TerminalControlStripper.parse state char).2 = ['\n'] ∨
      ((TerminalControlStripper.parse state char).2 = [char] ∧
        (charCode char = 0x09 ∨ charCode char = 0x0a ∨
          (0x20 ≤ charCode char ∧ charCode char ≠ 0x7f ∧
            (charCode char < 0x80 ∨ 0x9f < charCode char)))) := by
  cases state with
  | text =>
      simp only [TerminalControlStripper.parse]
      repeat' split
      case _ => exact .inl rfl
      case _ => exact .inl rfl
      case _ => exact .inl rfl
      case _ => exact .inl rfl
      case _ => exact .inr (.inl rfl)
      case _ printed => exact .inr (.inr ⟨rfl, printed⟩)
      case _ => exact .inl rfl
  | _ =>
      left
      simp only [TerminalControlStripper.parse]
      repeat' split
      all_goals rfl

theorem parse_clean (state : TerminalParserState) (char : Char) :
    ∀ c ∈ (TerminalControlStripper.parse state char).2, ¬ Control c ∨ c = '\t' ∨ c = '\n' := by
  intro c mem
  rcases parse_output state char with none | feed | ⟨one, printed⟩
  · rw [none] at mem
    cases mem
  · rw [feed] at mem
    exact .inr (.inr (List.mem_singleton.mp mem))
  · rw [one] at mem
    obtain rfl := List.mem_singleton.mp mem
    by_cases control : Control c
    · rw [toNat_eq_charCode control] at printed
      refine .inr ?_
      rcases printed with tab | feed | visible
      · exact .inl (Char.toNat_inj.mp tab)
      · exact .inr (Char.toNat_inj.mp feed)
      · unfold Control at control
        omega
    · exact .inl control

/-- A byte that continues a sequence goes through. -/
theorem normalize_continuation {n : Nat} {byte : UInt8} (low : 0x80 ≤ byte.toNat)
    (high : byte.toNat ≤ 0xbf) : TerminalC1ByteNormalizer.normalize (n + 1) byte = (n, [byte]) :=
  if_pos ⟨Nat.succ_pos n, UInt8.le_iff_toNat_le.mpr low, UInt8.le_iff_toNat_le.mpr high⟩

/-- A byte that begins a sequence of one to four bytes goes through. -/
theorem normalize_lead {byte : UInt8} (n : Nat)
    (begins : n = 0 ∧ byte.toNat < 0x80 ∨ n = 1 ∧ 0xc2 ≤ byte.toNat ∧ byte.toNat ≤ 0xdf ∨
      n = 2 ∧ 0xe0 ≤ byte.toNat ∧ byte.toNat ≤ 0xef ∨
      n = 3 ∧ 0xf0 ≤ byte.toNat ∧ byte.toNat ≤ 0xf4) :
    TerminalC1ByteNormalizer.normalize 0 byte = (n, [byte]) := by
  simp only [TerminalC1ByteNormalizer.normalize, TerminalC1ByteNormalizer.lead,
    UInt8.le_iff_toNat_le]
  rw [if_neg (by simp)]
  refine Prod.ext ?_ (if_neg ?_)
  · simp only [UInt8.reduceToNat]
    split_ifs <;> omega
  · simp only [UInt8.reduceToNat]
    omega

theorem push_through {n m : Nat} {byte : UInt8}
    (through : TerminalC1ByteNormalizer.normalize n byte = (m, [byte])) (rest : List UInt8) :
    TerminalC1ByteNormalizer.push n (byte :: rest) =
      ((TerminalC1ByteNormalizer.push m rest).1,
        byte :: (TerminalC1ByteNormalizer.push m rest).2) := by
  rw [TerminalC1ByteNormalizer.push, Streaming.push_cons, through]
  rfl

/-- A continuation byte of a code point. -/
theorem normalize_tail {n v : Nat} : TerminalC1ByteNormalizer.normalize (n + 1)
    (UInt8.ofNat (v % 0x40 + 0x80)) = (n, [UInt8.ofNat (v % 0x40 + 0x80)]) := by
  have small : v % 0x40 < 0x40 := Nat.mod_lt v (by decide)
  have value : (UInt8.ofNat (v % 0x40 + 0x80)).toNat = v % 0x40 + 0x80 :=
    UInt8.toNat_ofNat_of_lt' (by simp only [UInt8.size]; omega)
  refine normalize_continuation ?_ ?_
  · rw [value]
    omega
  · rw [value]
    omega

/-- The bytes of a code point go through. -/
theorem push_encoded (char : Char) (rest : List UInt8) :
    TerminalC1ByteNormalizer.push 0 (String.utf8EncodeChar char ++ rest) =
      ((TerminalC1ByteNormalizer.push 0 rest).1,
        String.utf8EncodeChar char ++ (TerminalC1ByteNormalizer.push 0 rest).2) := by
  have bound : char.val.toNat < 0x110000 := by
    have valid := char.valid
    unfold UInt32.isValidChar Nat.isValidChar at valid
    omega
  have value (n : Nat) (small : n < 256) : (UInt8.ofNat n).toNat = n :=
    UInt8.toNat_ofNat_of_lt' small
  simp only [String.utf8EncodeChar]
  split
  · next one =>
    have begins : TerminalC1ByteNormalizer.normalize 0 (UInt8.ofNat char.val.toNat) =
        (0, [UInt8.ofNat char.val.toNat]) :=
      normalize_lead 0 (by rw [value _ (by omega)]; omega)
    exact push_through begins rest
  · split
    · next two =>
      have begins := normalize_lead 1
        (.inr (.inl ⟨rfl, by rw [value (char.val.toNat / 64 % 32 + 192) (by omega)]; omega,
          by rw [value _ (by omega)]; omega⟩))
      simp only [List.cons_append, List.nil_append, push_through begins, push_through normalize_tail]
    · split
      · next three =>
        have begins := normalize_lead 2
          (.inr (.inr (.inl ⟨rfl, by rw [value (char.val.toNat / 4096 % 16 + 224) (by omega)]; omega,
            by rw [value _ (by omega)]; omega⟩)))
        simp only [List.cons_append, List.nil_append, push_through begins,
          push_through normalize_tail]
      · have begins := normalize_lead 3
          (.inr (.inr (.inr ⟨rfl, by rw [value (char.val.toNat / 262144 % 8 + 240) (by omega)]; omega,
            by rw [value _ (by omega)]; omega⟩)))
        simp only [List.cons_append, List.nil_append, push_through begins,
          push_through normalize_tail]

/-- Text that is valid UTF-8 is not changed. -/
theorem push_utf8 (text : List Char) :
    TerminalC1ByteNormalizer.push 0 (text.flatMap String.utf8EncodeChar) =
      (0, text.flatMap String.utf8EncodeChar) := by
  induction text with
  | nil => rfl
  | cons char text ih => rw [List.flatMap_cons, push_encoded, ih]

/-- What a terminal shows does not depend on how the output comes in frames, has no controls, and
is not changed by the normalizer where it is valid UTF-8. -/
theorem appended_framed (frames : List (List UInt8)) (text : List Char) :
    appended frames = appended [frames.flatten] ∧
      (appended frames).Forall (fun c => ¬ Control c ∨ c = '\t' ∨ c = '\n') ∧
      TerminalC1ByteNormalizer.push 0 (text.flatMap String.utf8EncodeChar) =
        (0, text.flatMap String.utf8EncodeChar) := by
  have whole (frames : List (List UInt8)) :
      appended frames = (terminalData {} frames.flatten).2 :=
    congrArg Prod.snd (splits_terminalData.pieces {} frames)
  refine ⟨?_, ?_, push_utf8 text⟩
  · rw [whole, whole, List.flatten_cons, List.flatten_nil, List.append_nil]
  · rw [whole, List.forall_iff_forall_mem]
    exact Streaming.forall_push parse_clean _ _

end TerminalPanel
end WebClient
end CortenDesk
