import Mathlib.Data.List.DropRight
import Mathlib.Data.Nat.Bitwise
import Mathlib.Tactic.Ring

/-!
Positional numbers: a number as the text of its digits in a base up to sixteen, and as bytes with
the lowest first.
-/
namespace CortenDesk

/-- The digit a character stands for, in either case. -/
def digitValue (c : Char) : Nat :=
  if c.toNat < 58 then c.toNat - 48
  else if c.toNat < 71 then c.toNat - 55
  else c.toNat - 87

def radixValue (base : Nat) (text : List Char) : Nat :=
  text.foldl (fun n c => base * n + digitValue c) 0

theorem digitValue_digitChar {d : Nat} (small : d < 16) : digitValue d.digitChar = d := by
  have all : ∀ d < 16, digitValue (Nat.digitChar d) = d := by decide
  exact all d small

theorem radixValue_concat (base : Nat) (text : List Char) (c : Char) :
    radixValue base (text ++ [c]) = base * radixValue base text + digitValue c := by
  simp [radixValue]

/-- The digits of a number stand for the number. -/
theorem radixValue_toDigits {base : Nat} (two : 1 < base) (sixteen : base ≤ 16) (n : Nat) :
    radixValue base (Nat.toDigits base n) = n := by
  induction n using Nat.strong_induction_on with
  | _ n ih =>
      by_cases digit : n < base
      · rw [Nat.toDigits_of_lt_base digit]
        have value := digitValue_digitChar (Nat.lt_of_lt_of_le digit sixteen)
        simp [radixValue, value]
      · have shorter : n / base < n := Nat.div_lt_self (by omega) two
        have last : n % base < 16 := Nat.lt_of_lt_of_le (Nat.mod_lt n (by omega)) sixteen
        rw [Nat.toDigits_of_base_le two (by omega), radixValue_concat, ih _ shorter,
          digitValue_digitChar last, Nat.div_add_mod]

theorem mem_toDigits {base n : Nat} {c : Char} (two : 1 < base) (mem : c ∈ Nat.toDigits base n) :
    ∃ d < base, c = d.digitChar := by
  induction n using Nat.strong_induction_on with
  | _ n ih =>
      by_cases digit : n < base
      · rw [Nat.toDigits_of_lt_base digit, List.mem_singleton] at mem
        exact ⟨n, digit, mem⟩
      · rw [Nat.toDigits_of_base_le two (by omega), List.mem_append, List.mem_singleton] at mem
        cases mem with
        | inl front => exact ih _ (Nat.div_lt_self (by omega) two) front
        | inr last => exact ⟨n % base, Nat.mod_lt n (by omega), last⟩

/-- The lowest `count` bytes of a number, the lowest first. -/
def leBytes : Nat → Nat → List UInt8
  | 0, _ => []
  | count + 1, n => UInt8.ofNat n :: leBytes count (n / 256)

def leValue : List UInt8 → Nat
  | [] => 0
  | byte :: rest => byte.toNat + 256 * leValue rest

theorem leBytes_length (count n : Nat) : (leBytes count n).length = count := by
  induction count generalizing n with
  | zero => rfl
  | succ count ih => rw [leBytes, List.length_cons, ih]

theorem leValue_leBytes {count n : Nat} (bounded : n < 256 ^ count) :
    leValue (leBytes count n) = n := by
  induction count generalizing n with
  | zero =>
      have none : n = 0 := by simpa using bounded
      rw [none]
      rfl
  | succ count ih =>
      have rest : n / 256 < 256 ^ count := by
        rw [Nat.div_lt_iff_lt_mul (by decide), ← Nat.pow_succ]
        exact bounded
      rw [leBytes, leValue, ih rest, UInt8.toNat_ofNat']
      exact Nat.mod_add_div n 256

theorem leValue_concat (front : List UInt8) (last : UInt8) :
    leValue (front ++ [last]) = leValue front + 256 ^ front.length * last.toNat := by
  induction front with
  | nil => simp [leValue]
  | cons byte front ih =>
      rw [List.cons_append, leValue, leValue, ih, List.length_cons, Nat.pow_succ']
      ring

/-- Zeros behind the highest byte stand for nothing. -/
theorem leValue_stripped (bytes : List UInt8) :
    leValue (bytes.rdropWhile (· = 0)) = leValue bytes := by
  induction bytes using List.reverseRecOn with
  | nil => rfl
  | append_singleton front last ih =>
      by_cases zero : last = 0
      · rw [List.rdropWhile_concat_pos _ _ _ (by simpa using zero), ih, leValue_concat, zero]
        rfl
      · rw [List.rdropWhile_concat_neg _ _ _ (by simpa using zero)]

/-- The lowest `count` bytes of a number, the highest of them first. -/
def beBytes (count n : Nat) : List UInt8 := (leBytes count n).reverse

theorem beBytes_length (count n : Nat) : (beBytes count n).length = count := by
  rw [beBytes, List.length_reverse, leBytes_length]

theorem leBytes_add (low high n : Nat) :
    leBytes (low + high) n = leBytes low n ++ leBytes high (n / 256 ^ low) := by
  induction low generalizing n with
  | zero => simp [leBytes]
  | succ low ih =>
      have shifted : n / 256 / 256 ^ low = n / 256 ^ (low + 1) := by
        rw [Nat.div_div_eq_div_mul, Nat.pow_succ']
      rw [Nat.succ_add, leBytes, ih, leBytes, shifted]
      rfl

/-- The bytes of a number that is cut off behind them are its own. -/
theorem leBytes_mod (count n : Nat) : leBytes count (n % 256 ^ count) = leBytes count n := by
  induction count generalizing n with
  | zero => rfl
  | succ count ih =>
      have lowest : UInt8.ofNat (n % 256 ^ (count + 1)) = UInt8.ofNat n := by
        apply UInt8.toNat_inj.mp
        rw [UInt8.toNat_ofNat', UInt8.toNat_ofNat', Nat.pow_succ']
        exact Nat.mod_mul_right_mod n 256 (256 ^ count)
      have higher : n % 256 ^ (count + 1) / 256 = n / 256 % 256 ^ count := by
        rw [Nat.pow_succ', Nat.mod_mul_right_div_self]
      rw [leBytes, leBytes, lowest, higher, ih]

/-- The halves of a number, each in its bytes. -/
theorem beBytes_add (high low n : Nat) :
    beBytes (high + low) n = beBytes high (n / 256 ^ low) ++ beBytes low (n % 256 ^ low) := by
  rw [beBytes, Nat.add_comm, leBytes_add, List.reverse_append, beBytes, beBytes, leBytes_mod]

end CortenDesk
