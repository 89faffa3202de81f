import Mathlib.Algebra.Group.Int.Defs
import Mathlib.Algebra.Group.Nat.Defs
import Mathlib.Data.List.Basic
import CortenDesk.Lib.Fallible

/-!
Protobuf codecs as a generator writes them from a schema, over a runtime that reads and writes the
scalars. A message is an object with one slot for each field and each union of its schema; the
writer goes through the slots in their order, and the reader through the bytes, one tag after
another, until it has come as far as the message is long.
-/
namespace Protobuf

abbrev Bytes := List UInt8

inductive Scalar
  | int32
  | uint32
  | sint32
  | int64
  | uint64
  | bool
  | double
  | string
  | bytes
  deriving DecidableEq

inductive Value
  | number (n : Int)
  | double (bits : BitVec 64)
  | boolean (b : Bool)
  | text (s : String)
  | bytes (b : Bytes)
  | undefined
  | array (items : List Value)
  | object (slots : List Value)
  | case (name : String) (value : Value)

/-- A zero of either sign. -/
def isZero (bits : BitVec 64) : Bool := bits.setWidth 63 = 0

def isNaN (bits : BitVec 64) : Bool := 0x7ff0000000000000 < (bits.setWidth 63).toNat

/-- What a reader gives back as it was written: a text decoder drops a byte order mark, a zero of
a sign is a default, and one not-a-number is as good as another. -/
inductive Value.Kept : Value → Prop
  | number (n : Int) : Kept (.number n)
  | double (bits : BitVec 64) (zero : isZero bits → bits = 0) (nan : isNaN bits = false) :
      Kept (.double bits)
  | boolean (b : Bool) : Kept (.boolean b)
  | text (s : String) (mark : s.toList.head? ≠ some '\uFEFF') : Kept (.text s)
  | bytes (b : Bytes) : Kept (.bytes b)
  | undefined : Kept .undefined
  | array (items : List Value) (kept : ∀ v ∈ items, Kept v) : Kept (.array items)
  | object (slots : List Value) (kept : ∀ v ∈ slots, Kept v) : Kept (.object slots)
  | case (name : String) (value : Value) (kept : Kept value) : Kept (.case name value)

def Scalar.wireType : Scalar → Nat
  | .int32 | .uint32 | .sint32 | .int64 | .uint64 | .bool => 0
  | .double => 1
  | .string | .bytes => 2

def Scalar.default : Scalar → Value
  | .int32 | .uint32 | .sint32 | .int64 | .uint64 => .number 0
  | .bool => .boolean false
  | .double => .double 0
  | .string => .text ""
  | .bytes => .bytes []

/-- What the writer compares a field with before it writes it. -/
def Scalar.isDefault : Scalar → Value → Bool
  | .int32, .number n | .uint32, .number n | .sint32, .number n => n = 0
  | .int64, .number n | .uint64, .number n => n = 0
  | .bool, .boolean b => ! b
  | .double, .double bits => isZero bits
  | .string, .text s => s = ""
  | .bytes, .bytes b => b.isEmpty
  | _, _ => false

/-- The runtime's writer and reader, by what is appended and by what is left to read. -/
structure Wire where
  write : Scalar → Value → Except String Bytes
  read : Scalar → Bytes → Except String (Value × Bytes)
  skip : Nat → Bytes → Except String Bytes

structure Wire.Lawful (wire : Wire) : Prop where
  reads : ∀ s v bs rest, wire.write s v = .ok bs → v.Kept → wire.read s (bs ++ rest) = .ok (v, rest)
  advances : ∀ s bs v rest, wire.read s bs = .ok (v, rest) → rest.length < bs.length
  skips : ∀ type bs rest, wire.skip type bs = .ok rest → rest.length ≤ bs.length

inductive Kind (M : Type)
  | scalar (s : Scalar)
  | message (m : M)

structure Member (M : Type) where
  name : String
  number : Nat
  kind : Kind M

/-- A key of a message's object. -/
inductive Slot (M : Type)
  | plain (name : String) (number : Nat) (s : Scalar)
  | message (name : String) (number : Nat) (m : M)
  | packed (name : String) (number : Nat) (s : Scalar) (varint : s.wireType = 0)
  | repeated (name : String) (number : Nat) (kind : Kind M)
  | oneof (name : String) (members : List (Member M))

variable {M : Type}

def Kind.wireType : Kind M → Nat
  | .scalar s => s.wireType
  | .message _ => 2

def tagOf (number wireType : Nat) : Nat := number * 8 + wireType

def Slot.numbers : Slot M → List Nat
  | .plain _ number _ | .message _ number _ | .packed _ number _ _ | .repeated _ number _ => [number]
  | .oneof _ members => members.map Member.number

def Kind.messages : Kind M → List M
  | .scalar _ => []
  | .message m => [m]

/-- The types of the messages in a slot. -/
def Slot.messages : Slot M → List M
  | .plain _ _ _ | .packed _ _ _ _ => []
  | .message _ _ m => [m]
  | .repeated _ _ kind => kind.messages
  | .oneof _ members => members.flatMap fun member => member.kind.messages

/-- Message types that contain only smaller ones, with distinct field numbers. -/
structure Schema (M : Type) where
  slots : M → List (Slot M)
  rank : M → Nat
  distinct : ∀ m, ((slots m).flatMap Slot.numbers).Nodup
  smaller : ∀ m, ∀ inner ∈ (slots m).flatMap Slot.messages, rank inner < rank m

section Write
variable (wire : Wire) (nested : M → Value → Except String Bytes)

/-- `fork()` and `join()`. -/
def delimited (bs : Bytes) : Except String Bytes := do
  return (← wire.write .uint32 (.number bs.length)) ++ bs

def Kind.write : Kind M → Value → Except String Bytes
  | .scalar s, v => wire.write s v
  | .message m, v => do delimited wire (← nested m v)

def writeField (number : Nat) (kind : Kind M) (v : Value) : Except String Bytes := do
  let tag ← wire.write .uint32 (.number (tagOf number kind.wireType))
  return tag ++ (← kind.write wire nested v)

/-- `BigInt.asIntN` and `BigInt.asUintN` must give the value back. -/
def checkRange (path : String) : Kind M → Value → Except String Unit
  | .scalar .int64, .number n =>
      if n.bmod (2 ^ 64) = n then .ok ()
      else .error ("value provided for field " ++ path ++ " of type int64 too large")
  | .scalar .uint64, .number n =>
      if n % 2 ^ 64 = n then .ok ()
      else .error ("value provided for field " ++ path ++ " of type uint64 too large")
  | _, _ => .ok ()

def Slot.write : Slot M → Value → Except String Bytes
  | .plain name number s, v =>
      if s.isDefault v then .ok []
      else do
        checkRange ("message." ++ name) (.scalar s : Kind M) v
        writeField wire nested number (.scalar s) v
  | .message _ _ _, .undefined => .ok []
  | .message _ number m, v => writeField wire nested number (.message m) v
  | .packed _ number s _, .array items => do
      let tag ← wire.write .uint32 (.number (tagOf number 2))
      let parts ← items.mapM (wire.write s)
      return tag ++ (← delimited wire parts.flatten)
  | .repeated _ number kind, .array items => do
      return (← items.mapM (writeField wire nested number kind)).flatten
  | .oneof _ _, .undefined => .ok []
  | .oneof name members, .case chosen v =>
      match members.find? fun member => member.name = chosen with
      | some member => do
          checkRange ("message." ++ name ++ "." ++ chosen) member.kind v
          writeField wire nested member.number member.kind v
      | none => .error "no such case"
  | _, _ => .error "not an array or a case"

/-- What each slot comes to on the wire. -/
def pieces : List (Slot M) → List Value → Except String (List Bytes)
  | [], [] => .ok []
  | slot :: slots, v :: values => do
      let piece ← slot.write wire nested v
      return piece :: (← pieces slots values)
  | _, _ => .error "not an object of this type"

end Write

section Read
variable (wire : Wire) (nested : M → Nat → Bytes → Except String (Value × Bytes))

def readNat (bs : Bytes) : Except String (Nat × Bytes) :=
  match wire.read .uint32 bs with
  | .ok (.number n, rest) => .ok (n.toNat, rest)
  | .ok _ => .error "not a number"
  | .error e => .error e

def Kind.read : Kind M → Bytes → Except String (Value × Bytes)
  | .scalar s, bs => wire.read s bs
  | .message m, bs => do
      let (length, rest) ← readNat wire bs
      nested m length rest

/-- `while (reader.pos < end2)`: `left` is how far the end is away. -/
def readPacked (s : Scalar) : Nat → Nat → Bytes → Except String (List Value × Bytes)
  | 0, _, _ => .error "out of bytes"
  | fuel + 1, left, bs =>
      if left = 0 then .ok ([], bs)
      else do
        let (v, rest) ← wire.read s bs
        let (more, rest) ← readPacked s fuel (left - (bs.length - rest.length)) rest
        return (v :: more, rest)

def Value.push (more : List Value) : Value → Value
  | .array items => .array (items ++ more)
  | v => v

/-- A case of the reader's switch, unless it is left by `break`. -/
def Slot.read (tag : Nat) (bs : Bytes) : Slot M → Value → Option (Except String (Value × Bytes))
  | .plain _ number s, _ => if tag = tagOf number s.wireType then some (wire.read s bs) else none
  | .message _ number m, _ =>
      if tag = tagOf number 2 then some ((Kind.message m).read wire nested bs) else none
  | .packed _ number s _, v =>
      if tag = tagOf number s.wireType then
        some ((wire.read s bs).map fun (item, rest) => (v.push [item], rest))
      else if tag = tagOf number 2 then
        some do
          let (length, rest) ← readNat wire bs
          let (items, rest) ← readPacked wire s (rest.length + 1) length rest
          return (v.push items, rest)
      else none
  | .repeated _ number kind, v =>
      if tag = tagOf number kind.wireType then
        some ((kind.read wire nested bs).map fun (item, rest) => (v.push [item], rest))
      else none
  | .oneof _ members, _ =>
      (members.find? fun member => tag = tagOf member.number member.kind.wireType).map fun member =>
        (member.kind.read wire nested bs).map fun (v, rest) => (.case member.name v, rest)

/-- The switch over all the fields of a message. -/
def dispatch (tag : Nat) (bs : Bytes) :
    List (Slot M) → List Value → Option (Except String (List Value × Bytes))
  | slot :: slots, v :: values =>
      match slot.read wire nested tag bs v with
      | some read => some (read.map fun (v, rest) => (v :: values, rest))
      | none => (dispatch tag bs slots values).map fun read =>
          read.map fun (values, rest) => (v :: values, rest)
  | _, _ => none

end Read

def Slot.base : Slot M → Value
  | .plain _ _ s => s.default
  | .message _ _ _ | .oneof _ _ => .undefined
  | .packed _ _ _ _ | .repeated _ _ _ => .array []

/-- What a slot holds after a second value of it has been read. -/
def Slot.merge : Slot M → Value → Value → Value
  | .plain _ _ s, old, v => if s.isDefault v then old else v
  | .packed _ _ _ _, old, .array items | .repeated _ _ _, old, .array items => old.push items
  | _, old, .undefined => old
  | _, _, v => v

def mergeAll : List (Slot M) → List Value → List Value → List Value
  | slot :: slots, old :: olds, v :: values => slot.merge old v :: mergeAll slots olds values
  | _, _, _ => []

namespace Schema
variable (schema : Schema M) (wire : Wire)

def encodeAt : Nat → M → Value → Except String Bytes
  | 0, _, _ => .error "too deep"
  | depth + 1, m, .object values => do
      return (← pieces wire (encodeAt depth) (schema.slots m) values).flatten
  | _ + 1, _, _ => .error "not an object"

/-- `encode(message).finish()`. -/
def encode (m : M) (v : Value) : Except String Bytes := schema.encodeAt wire (schema.rank m + 1) m v

/-- What `createBase` makes. -/
def base (m : M) : List Value := (schema.slots m).map Slot.base

/-- The loop of a reader; `left` is how far the end of the message is away. -/
def run : Nat → M → List Value → Nat → Bytes → Except String (List Value × Bytes)
  | 0, _, _, _, _ => .error "out of bytes"
  | fuel + 1, m, values, left, bs =>
      if left = 0 then .ok (values, bs)
      else do
        let (tag, rest) ← readNat wire bs
        let nested := fun inner length bs =>
          (run fuel inner (base schema inner) length bs).map
            fun (values, rest) => (Value.object values, rest)
        match dispatch wire nested tag rest (schema.slots m) values with
        | some read => do
            let (values, rest) ← read
            run fuel m values (left - (bs.length - rest.length)) rest
        | none =>
            if tag % 8 = 4 ∨ tag = 0 then .ok (values, rest)
            else do
              let rest ← wire.skip (tag % 8) rest
              run fuel m values (left - (bs.length - rest.length)) rest

/-- `decode(bytes)`. -/
def decode (m : M) (bs : Bytes) : Except String Value :=
  (schema.run wire (bs.length + 1) m (schema.base m) bs.length bs).map fun (values, _) => .object values

end Schema

end Protobuf
