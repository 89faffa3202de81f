import CortenDesk.Lib.OrderedMap
import Mathlib.Data.List.DropRight
import Mathlib.Data.String.Basic

/-!
Scalar values, array keys and the byte-oriented string functions of PHP. The
functions act on ASCII characters only, so their reading on code points agrees with
the one on UTF-8 bytes; `<` on strings is `strcmp`, which orders UTF-8 the same way.
-/
namespace Php

/-- An associative array; `===` is equality of the entry lists. -/
abbrev Arr := OrderedMap

inductive Key
  | int (i : Int)
  | str (s : String)
  deriving DecidableEq, Repr

/-- A decoded JSON or form value. A float carries the text its string cast gives; an
array is opaque to the functions that read these values. -/
inductive Value
  | null
  | bool (b : Bool)
  | int (i : Int)
  | float (text : String)
  | string (s : String)
  | array
  deriving DecidableEq, Repr

/-- `(string) $key`. -/
def Key.toText : Key → String
  | .int i => toString i
  | .str s => s

/-- The characters `trim()` strips by default. -/
def isTrimmed (c : Char) : Bool :=
  c = ' ' || c = '\t' || c = '\n' || c = '\r' || c.toNat = 0 || c.toNat = 11

def trim (s : String) : String :=
  String.ofList ((s.toList.dropWhile isTrimmed).rdropWhile isTrimmed)

def ctypeDigit (s : String) : Bool := s ≠ "" && s.toList.all Char.isDigit

/-- `(int) $s` of a string of digits, which saturates at `PHP_INT_MAX`. -/
def digitsToInt (s : String) : Nat :=
  min (s.toList.foldl (fun n c => 10 * n + (c.toNat - '0'.toNat)) 0) (2 ^ 63 - 1)

def strtolower (s : String) : String := String.ofList (s.toList.map Char.toLower)

/-- Whether a string counts as true in a condition. -/
def truthy (s : String) : Bool := s ≠ "" && s ≠ "0"

/-- `Str::before($s, $c)`: the whole string when the character does not occur. -/
def strBefore (s : String) (c : Char) : String := String.ofList (s.toList.takeWhile (· ≠ c))

/-- `Str::after($s, $c)`: the whole string when the character does not occur. -/
def strAfter (s : String) (c : Char) : String :=
  if c ∈ s.toList then String.ofList ((s.toList.dropWhile (· ≠ c)).drop 1) else s

/-- `ltrim($s, $c)`. -/
def ltrim (c : Char) (s : String) : String := String.ofList (s.toList.dropWhile (· = c))

/-- `preg_split` at runs of the separators, with an empty piece for each further
separator of a run; its callers drop the empty pieces. -/
def splitAt (separator : Char → Bool) (s : String) : List String :=
  (s.toList.splitOnP separator).map String.ofList

/-- `(string) $value`, which throws for an array. -/
def Value.toText : Value → Option String
  | .null => some ""
  | .bool b => some (if b then "1" else "")
  | .int i => some (toString i)
  | .float text => some text
  | .string s => some s
  | .array => none

/-- `(int) $s` of an optional sign and digits, after white space; anything after the
digits is ignored. -/
def intval (s : String) : Int :=
  let digits (l : List Char) : Int := digitsToInt (String.ofList (l.takeWhile Char.isDigit))
  match s.toList.dropWhile fun c => c = ' ' || (9 ≤ c.toNat && c.toNat ≤ 13) with
  | '-' :: l => - digits l
  | '+' :: l => digits l
  | l => digits l

private theorem dropWhile_trimmed (p : Char → Bool) (l : List Char) :
    ((l.dropWhile p).rdropWhile p).dropWhile p = (l.dropWhile p).rdropWhile p := by
  rw [List.dropWhile_eq_self_iff]
  intro nonempty
  have shorter := List.rdropWhile_prefix p (l := l.dropWhile p)
  have long : 0 < (l.dropWhile p).length := Nat.lt_of_lt_of_le nonempty shorter.length_le
  rw [shorter.getElem nonempty]
  exact List.dropWhile_get_zero_not p l long

@[simp] theorem trim_trim (s : String) : trim (trim s) = trim s := by
  rw [trim, trim, String.toList_ofList, dropWhile_trimmed, List.rdropWhile_idempotent]

end Php
