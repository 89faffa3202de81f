import Mathlib.Data.List.DropRight
import Mathlib.Logic.Relation

/-!
`base64_decode($s, true)` on byte strings: white space is skipped, any other byte outside
the alphabet fails, as does a digit after the padding; the padding may be left out, and is
checked when it is there. Decoding is a partial function, so two strings that decode,
repeatedly, to a common one are so related through any third.
-/
namespace Php

abbrev Bytes := List UInt8

def bytes (s : String) : Bytes := s.toByteArray.data.toList

inductive Base64Symbol
  | digit (value : Nat)
  | pad
  | white
  | bad

def base64Symbol (b : UInt8) : Base64Symbol :=
  let c := b.toNat
  if 65 ≤ c ∧ c ≤ 90 then .digit (c - 65)
  else if 97 ≤ c ∧ c ≤ 122 then .digit (c - 71)
  else if 48 ≤ c ∧ c ≤ 57 then .digit (c + 4)
  else if c = 43 then .digit 62
  else if c = 47 then .digit 63
  else if c = 61 then .pad
  else if c = 9 ∨ c = 10 ∨ c = 13 ∨ c = 32 then .white
  else .bad

/-- The digits, and how many pads were read. -/
def base64Digits : Bytes → Nat → Option (List Nat × Nat)
  | [], padding => some ([], padding)
  | b :: rest, padding =>
      match base64Symbol b with
      | .pad => base64Digits rest (padding + 1)
      | .white => base64Digits rest padding
      | .bad => none
      | .digit value =>
          if padding ≠ 0 then none
          else (base64Digits rest padding).map fun read => (value :: read.1, read.2)

/-- Four digits make three bytes; the bits of a last, unfinished byte are dropped. -/
def base64Octets : List Nat → Bytes
  | a :: b :: c :: d :: rest =>
      UInt8.ofNat (a * 4 + b / 16) :: UInt8.ofNat (b % 16 * 16 + c / 4) ::
        UInt8.ofNat (c % 4 * 64 + d) :: base64Octets rest
  | [a, b, c] => [UInt8.ofNat (a * 4 + b / 16), UInt8.ofNat (b % 16 * 16 + c / 4)]
  | [a, b] => [UInt8.ofNat (a * 4 + b / 16)]
  | _ => []

def base64Decode (s : Bytes) : Option Bytes := do
  let (digits, padding) ← base64Digits s 0
  if digits.length % 4 = 1 then none
  else if padding ≠ 0 ∧ (2 < padding ∨ (digits.length + padding) % 4 ≠ 0) then none
  else some (base64Octets digits)

example : base64Decode (bytes "bWFj aGluZQ==") = some (bytes "machine") := by decide

/-- `rtrim($s, "\0")`. -/
def rtrimNul (s : Bytes) : Bytes := s.rdropWhile (· = 0)

/-- One reading of the decoded form: `base64_decode`, then the trailing NULs off. -/
def Decodes (a b : Bytes) : Prop := (base64Decode a).map rtrimNul = some b

instance (a b : Bytes) : Decidable (Decodes a b) := inferInstanceAs (Decidable (_ = _))

theorem Decodes.unique {a b c : Bytes} (hb : Decodes a b) (hc : Decodes a c) : b = c :=
  Option.some.inj (hb.symm.trans hc)

/-- Decoding both, as often as each needs, reaches one string. -/
def SameOrigin : Bytes → Bytes → Prop := Relation.Join (Relation.ReflTransGen Decodes)

theorem sameOrigin_equivalence : Equivalence SameOrigin := by
  apply Relation.equivalence_join_reflTransGen
  intro a b c hb hc
  obtain rfl := hb.unique hc
  exact ⟨b, .refl, .refl⟩

theorem Decodes.sameOrigin {a b : Bytes} (h : Decodes a b) : SameOrigin a b :=
  ⟨b, .single h, .refl⟩

end Php
