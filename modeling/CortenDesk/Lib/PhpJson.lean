import CortenDesk.Lib.PhpValue
import Mathlib.Algebra.Group.Int.Defs

/-!
Decoded JSON values with objects as arrays, their casts, and the keys that PHP makes of
values: a string that spells an integer the way PHP prints it is that integer's key.
-/
namespace Php

/-- A float carries what its casts give, and whether it is a whole number. -/
inductive Json
  | null
  | bool (b : Bool)
  | int (i : Int)
  | float (text : String) (i : Int) (whole : Bool)
  | string (s : String)
  | array (entries : List (Key × Json))

/-- A number at the start of a string: `mantissa * 10 ^ exponent`, and what follows it. -/
structure Numeral where
  negative : Bool
  mantissa : Nat
  exponent : Int
  integer : Bool
  rest : List Char

def isSpace (c : Char) : Bool := c = ' ' || (9 ≤ c.toNat && c.toNat ≤ 13)

def digitsOf (l : List Char) : Nat := l.foldl (fun n c => 10 * n + (c.toNat - '0'.toNat)) 0

def exponentOf : List Char → Option (Int × List Char)
  | '-' :: l => if l.takeWhile Char.isDigit = [] then none
      else some (- (digitsOf (l.takeWhile Char.isDigit) : Int), l.dropWhile Char.isDigit)
  | '+' :: l => if l.takeWhile Char.isDigit = [] then none
      else some (digitsOf (l.takeWhile Char.isDigit), l.dropWhile Char.isDigit)
  | l => if l.takeWhile Char.isDigit = [] then none
      else some (digitsOf (l.takeWhile Char.isDigit), l.dropWhile Char.isDigit)

/-- `is_numeric_string`, trailing text allowed. -/
def numeral (s : String) : Option Numeral :=
  let (negative, l) := match s.toList.dropWhile isSpace with
    | '-' :: l => (true, l)
    | '+' :: l => (false, l)
    | l => (false, l)
  let whole := l.takeWhile Char.isDigit
  let (fraction, pointed, l) := match l.dropWhile Char.isDigit with
    | '.' :: l => (l.takeWhile Char.isDigit, true, l.dropWhile Char.isDigit)
    | l => ([], false, l)
  if whole = [] && fraction = [] then none
  else
    let (exponent, raised, l) := match l with
      | c :: tail =>
          if c = 'e' || c = 'E' then
            match exponentOf tail with
            | some (exponent, l) => (exponent, true, l)
            | none => (0, false, l)
          else (0, false, l)
      | [] => (0, false, [])
    some { negative, mantissa := digitsOf (whole ++ fraction)
           exponent := exponent - fraction.length, integer := ! pointed && ! raised, rest := l }

/-- The number without its fraction; a number beyond the integers is the last one. -/
def Numeral.toInt (n : Numeral) : Int :=
  let size := (toString n.mantissa).length
  let magnitude : Nat := match n.exponent with
    | .ofNat e => if n.mantissa = 0 then 0 else n.mantissa * 10 ^ min e 20
    | .negSucc e => n.mantissa / 10 ^ min (e + 1) size
  if n.negative then - (min magnitude (2 ^ 63) : Nat) else (min magnitude (2 ^ 63 - 1) : Nat)

/-- `$id == $s`: a numeric string is compared as a number. -/
def looseEqString (id : Nat) (s : String) : Bool :=
  match numeral s with
  | some n =>
      if n.rest.all isSpace then
        (! n.negative || n.mantissa = 0) && match n.exponent with
          | .ofNat e => n.mantissa * 10 ^ e = id
          | .negSucc e => n.mantissa = id * 10 ^ (e + 1)
      else toString id = s
  | none => toString id = s

/-- The integer that the digits of a text give, after a sign. -/
def spelled : List Char → Int
  | '-' :: l => - (digitsOf l : Int)
  | l => digitsOf l

/-- The key a string is stored under: the integer that prints as it. -/
def Key.ofString (s : String) : Key :=
  if toString (spelled s.toList) = s ∧ -2 ^ 63 ≤ spelled s.toList ∧ spelled s.toList < 2 ^ 63 then
    .int (spelled s.toList)
  else .str s

theorem Key.toText_ofString (s : String) : (Key.ofString s).toText = s := by
  unfold Key.ofString
  split
  · next canonical => exact canonical.1
  · rfl

theorem Key.ofString_injective : Function.Injective Key.ofString := by
  intro s t same
  rw [← Key.toText_ofString s, same, Key.toText_ofString]

/-- The digits of a number tell it. -/
theorem toString_nat_injective : Function.Injective fun n : Nat => toString n := by
  intro m n same
  have read (k : Nat) : Nat.ofDigitChars 10 (toString k).toList 0 = k := by simp
  rw [← read m, ← read n]
  exact congrArg (fun text => Nat.ofDigitChars 10 (String.toList text) 0) same

namespace Json

/-- `(string) $value`, which throws for an array. -/
def toText : Json → Option String
  | .null => some ""
  | .bool b => some (if b then "1" else "")
  | .int i => some (toString i)
  | .float text _ _ => some text
  | .string s => some s
  | .array _ => none

/-- `(int) $value`. -/
def toInt : Json → Int
  | .null => 0
  | .bool b => if b then 1 else 0
  | .int i => i
  | .float _ i _ => i
  | .string s => ((numeral s).map Numeral.toInt).getD 0
  | .array entries => if entries.isEmpty then 0 else 1

def truthy : Json → Bool
  | .null => false
  | .bool b => b
  | .int i => i ≠ 0
  | .float _ i whole => ! (whole && i = 0)
  | .string s => Php.truthy s
  | .array entries => ! entries.isEmpty

/-- The key a value is stored under; an array is no key and throws. -/
def toKey : Json → Option Key
  | .null => some (.str "")
  | .bool b => some (.int (if b then 1 else 0))
  | .int i => some (.int i)
  | .float _ i _ => some (.int i)
  | .string s => some (Key.ofString s)
  | .array _ => none

theorem toKey_isSome (v : Json) : v.toKey.isSome = v.toText.isSome := by cases v <;> rfl

/-- `(array) $value`, the values of it. -/
def toList : Json → List Json
  | .null => []
  | .array entries => entries.map Prod.snd
  | scalar => [scalar]

/-- `$value ?? $default`. -/
def orDefault (v default : Json) : Json :=
  match v with
  | .null => default
  | v => v

/-- `$array[$key] ?? $default`. -/
def get (entries : List (Key × Json)) (key : Key) (default : Json) : Json :=
  match entries.lookup key with
  | none => default
  | some v => v.orDefault default

theorem get_cons (j k : Key) (v : Json) (entries : List (Key × Json)) (default : Json) :
    get ((j, v) :: entries) k default =
      if k = j then v.orDefault default else get entries k default := by
  rw [get, List.lookup_cons]
  by_cases same : k = j
  · simp [same]
  · simp [same, beq_false_of_ne same, get]

/-- `$id == $value`. -/
def looseEq (id : Nat) : Json → Bool
  | .null => id = 0
  | .bool b => b = decide (id ≠ 0)
  | .int i => i = id
  | .float _ i whole => whole && i = id
  | .string s => looseEqString id s
  | .array _ => false

@[simp] theorem looseEq_int (id : Nat) (i : Int) : looseEq id (.int i) = decide (i = id) := rfl

/-- The offset into a string that a value is cast to, if it is one. -/
def toOffset : Json → Option Int
  | .null => some 0
  | .bool b => some (if b then 1 else 0)
  | .int i => some i
  | .float _ i _ => some i
  | .string s => (numeral s).bind fun n =>
      if n.integer && n.rest.all isSpace && n.mantissa < 2 ^ 63 then some n.toInt else none
  | .array _ => none

end Json
end Php
