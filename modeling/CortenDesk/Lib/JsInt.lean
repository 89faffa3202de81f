import Mathlib.Algebra.Order.Ring.Int
import Mathlib.Data.Nat.Log

/-!
The integers of JavaScript: numbers that are integers, as the integers they are, with the
operators that take them for 32-bit words and the sum of doubles. An operator on words gives a
signed number, `>>>` an unsigned one, and the sum is rounded to 53 bits.
-/
namespace Js

/-- The word an operator takes a number for. -/
def toWord (x : Int) : BitVec 32 := BitVec.ofInt 32 x

def bitOr (x y : Int) : Int := (toWord x ||| toWord y).toInt
def bitXor (x y : Int) : Int := (toWord x ^^^ toWord y).toInt
def bitAnd (x y : Int) : Int := (toWord x &&& toWord y).toInt
def bitNot (x : Int) : Int := (~~~toWord x).toInt

/-- `x << n` for a count below 32. -/
def shiftLeft (x : Int) (n : Nat) : Int := (toWord x <<< n).toInt

/-- `x >> n`. -/
def shiftRight (x : Int) (n : Nat) : Int := ((toWord x).sshiftRight n).toInt

/-- `x >>> n`. -/
def shiftRightUnsigned (x : Int) (n : Nat) : Int := (toWord x >>> n).toNat

/-- A quotient rounded to the nearest integer, and half-way to the even one. -/
def roundHalfEven (n d : Nat) : Nat :=
  if 2 * (n % d) < d ∨ (2 * (n % d) = d ∧ n / d % 2 = 0) then n / d else n / d + 1

/-- The double nearest to an integer that is not beyond the range of doubles. -/
def toDouble (z : Int) : Int :=
  if z.natAbs ≤ 2 ^ 53 then z
  else
    let unit := 2 ^ (Nat.log 2 z.natAbs - 52)
    z.sign * (roundHalfEven z.natAbs unit * unit : Nat)

/-- `x + y`. -/
def add (x y : Int) : Int := toDouble (x + y)

/-- What the operators on words can give. -/
def Small (x : Int) : Prop := -2 ^ 31 ≤ x ∧ x < 2 ^ 32

@[simp] theorem toWord_bitOr (x y : Int) : toWord (bitOr x y) = toWord x ||| toWord y :=
  BitVec.ofInt_toInt

@[simp] theorem toWord_bitXor (x y : Int) : toWord (bitXor x y) = toWord x ^^^ toWord y :=
  BitVec.ofInt_toInt

@[simp] theorem toWord_bitAnd (x y : Int) : toWord (bitAnd x y) = toWord x &&& toWord y :=
  BitVec.ofInt_toInt

@[simp] theorem toWord_bitNot (x : Int) : toWord (bitNot x) = ~~~toWord x := BitVec.ofInt_toInt

@[simp] theorem toWord_shiftLeft (x : Int) (n : Nat) : toWord (shiftLeft x n) = toWord x <<< n :=
  BitVec.ofInt_toInt

@[simp] theorem toWord_natCast (w : BitVec 32) : toWord w.toNat = w := by
  rw [toWord, BitVec.ofInt_natCast, BitVec.ofNat_toNat, BitVec.setWidth_eq]

@[simp] theorem toWord_shiftRightUnsigned (x : Int) (n : Nat) :
    toWord (shiftRightUnsigned x n) = toWord x >>> n :=
  toWord_natCast _

@[simp] theorem toWord_add (x y : Int) : toWord (x + y) = toWord x + toWord y := BitVec.ofInt_add x y

theorem small_toInt (w : BitVec 32) : Small w.toInt := by
  have lower := BitVec.le_toInt w
  have upper := BitVec.toInt_lt (x := w)
  constructor <;> omega

theorem small_toNat (w : BitVec 32) : Small w.toNat := by
  have upper := w.isLt
  constructor <;> omega

theorem small_bitXor (x y : Int) : Small (bitXor x y) := small_toInt _
theorem small_shiftRightUnsigned (x : Int) (n : Nat) : Small (shiftRightUnsigned x n) :=
  small_toNat _

theorem toInt_toWord {x : Int} (lower : -2 ^ 31 ≤ x) (upper : x < 2 ^ 31) : (toWord x).toInt = x := by
  rw [toWord, BitVec.toInt_ofInt]
  exact Int.bmod_eq_of_le (by omega) (by omega)

theorem shiftRight_eq {x : Int} (lower : -2 ^ 31 ≤ x) (upper : x < 2 ^ 31) (n : Nat) :
    shiftRight x n = x / 2 ^ n := by
  rw [shiftRight, BitVec.toInt_sshiftRight, toInt_toWord lower upper, Int.shiftRight_eq_div_pow]
  norm_cast

theorem shiftLeft_eq (x : Int) (n : Nat) : shiftLeft x n = (x * 2 ^ n).bmod (2 ^ 32) := by
  have low : ((toWord x).toNat : Int) = x % ((2 ^ 32 : Nat) : Int) := by
    rw [toWord, BitVec.toNat_ofInt, Int.toNat_of_nonneg (Int.emod_nonneg x (by decide))]
  rw [shiftLeft, BitVec.toInt_shiftLeft, Nat.shiftLeft_eq, Int.natCast_mul, low,
    Int.emod_mul_bmod, Int.natCast_pow]
  rfl

/-- Up to 2 ^ 53 every integer is a double. -/
theorem toDouble_exact {z : Int} (small : z.natAbs ≤ 2 ^ 53) : toDouble z = z := if_pos small

/-- The sums of up to five small numbers are exact. -/
theorem add_two {a b : Int} (ha : Small a) (hb : Small b) : add a b = a + b := by
  simp only [Small] at ha hb
  exact toDouble_exact (by omega)

theorem add_four {a b c d : Int} (ha : Small a) (hb : Small b) (hc : Small c) (hd : Small d) :
    add (add (add a b) c) d = a + b + c + d := by
  rw [add_two ha hb]
  simp only [Small] at ha hb hc hd
  have third : add (a + b) c = a + b + c := toDouble_exact (by omega)
  rw [third]
  exact toDouble_exact (by omega)

theorem add_five {a b c d e : Int} (ha : Small a) (hb : Small b) (hc : Small c) (hd : Small d)
    (he : Small e) : add (add (add (add a b) c) d) e = a + b + c + d + e := by
  rw [add_four ha hb hc hd]
  simp only [Small] at ha hb hc hd he
  exact toDouble_exact (by omega)

end Js
