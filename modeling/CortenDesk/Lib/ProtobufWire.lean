import CortenDesk.Lib.Protobuf

/-!
The wire format: numbers of any size in groups of seven bits, lowest first, texts and byte strings
behind their length. The reader takes the bits that the type has, whatever the sender wrote.
-/
namespace Protobuf
namespace Binary

def varint : Nat → Nat → Bytes
  | 0, n => [UInt8.ofNat n]
  | more + 1, n =>
      if n < 128 then [UInt8.ofNat n] else UInt8.ofNat (n % 128 + 128) :: varint more (n / 128)

def readVarint : Nat → Bytes → Except String (Nat × Bytes)
  | _, [] => .error "premature EOF"
  | 0, b :: rest => if b.toNat < 128 then .ok (b.toNat, rest) else .error "invalid varint"
  | more + 1, b :: rest =>
      if b.toNat < 128 then .ok (b.toNat, rest)
      else (readVarint more rest).map fun (n, rest) => (b.toNat - 128 + 128 * n, rest)

def littleEndian : Nat → Nat → Bytes
  | 0, _ => []
  | k + 1, n => UInt8.ofNat (n % 256) :: littleEndian k (n / 256)

def readLittleEndian : Nat → Bytes → Except String (Nat × Bytes)
  | 0, bs => .ok (0, bs)
  | _ + 1, [] => .error "premature EOF"
  | k + 1, b :: rest => (readLittleEndian k rest).map fun (n, rest) => (b.toNat + 256 * n, rest)

def zigzag (n : Int) : Nat := if 0 ≤ n then 2 * n.toNat else 2 * (-n).toNat - 1

def unzigzag (n : Nat) : Int := if n % 2 = 0 then n / 2 else -((n + 1) / 2 : Nat)

def counted (b : Bytes) : Except String Bytes :=
  if b.length < 2 ^ 32 then .ok (varint 9 b.length ++ b) else .error "invalid uint32"

def readCounted (bs : Bytes) : Except String (Bytes × Bytes) := do
  let (n, rest) ← readVarint 9 bs
  if n % 2 ^ 32 ≤ rest.length then .ok (rest.take (n % 2 ^ 32), rest.drop (n % 2 ^ 32))
  else .error "premature EOF"

/-- A text decoder, which drops a byte order mark. -/
def decodeUtf8 (b : Bytes) : Except String String :=
  match String.fromUTF8? ⟨b.toArray⟩ with
  | none => .error "not a text"
  | some s =>
      match s.toList with
      | first :: rest => .ok (if first = '\uFEFF' then String.ofList rest else s)
      | [] => .ok s

def write : Scalar → Value → Except String Bytes
  | .uint32, .number n =>
      if 0 ≤ n ∧ n < 2 ^ 32 then .ok (varint 9 n.toNat) else .error "invalid uint32"
  | .int32, .number n =>
      if -2 ^ 31 ≤ n ∧ n < 2 ^ 31 then .ok (varint 9 (n % 2 ^ 64).toNat) else .error "invalid int32"
  | .sint32, .number n =>
      if -2 ^ 31 ≤ n ∧ n < 2 ^ 31 then .ok (varint 9 (zigzag n)) else .error "invalid int32"
  | .int64, .number n =>
      if -2 ^ 63 ≤ n ∧ n < 2 ^ 63 then .ok (varint 9 (n % 2 ^ 64).toNat) else .error "invalid int64"
  | .uint64, .number n =>
      if 0 ≤ n ∧ n < 2 ^ 64 then .ok (varint 9 n.toNat) else .error "invalid uint64"
  | .bool, .boolean b => .ok [if b then 1 else 0]
  | .double, .double bits => .ok (littleEndian 8 bits.toNat)
  | .string, .text s => counted s.toUTF8.data.toList
  | .bytes, .bytes b => counted b
  | _, _ => .error "not a value of this type"

def read : Scalar → Bytes → Except String (Value × Bytes)
  | .uint32, bs => (readVarint 9 bs).map fun (n, rest) => (.number (n % 2 ^ 32 : Nat), rest)
  | .int32, bs => (readVarint 9 bs).map fun (n, rest) => (.number ((n : Int).bmod (2 ^ 32)), rest)
  | .sint32, bs => (readVarint 9 bs).map fun (n, rest) => (.number (unzigzag (n % 2 ^ 32)), rest)
  | .int64, bs => (readVarint 9 bs).map fun (n, rest) => (.number ((n : Int).bmod (2 ^ 64)), rest)
  | .uint64, bs => (readVarint 9 bs).map fun (n, rest) => (.number (n % 2 ^ 64 : Nat), rest)
  | .bool, bs => (readVarint 9 bs).map fun (n, rest) => (.boolean (n % 2 ^ 64 ≠ 0), rest)
  | .double, bs => (readLittleEndian 8 bs).map fun (n, rest) => (.double (BitVec.ofNat 64 n), rest)
  | .bytes, bs => (readCounted bs).map fun (b, rest) => (.bytes b, rest)
  | .string, bs => do
      let (b, rest) ← readCounted bs
      return (.text (← decodeUtf8 b), rest)

/-- A number of however many bytes. -/
def skipVarint : Bytes → Except String Bytes
  | [] => .error "premature EOF"
  | b :: rest => if b.toNat < 128 then .ok rest else skipVarint rest

def skipPlain : Nat → Bytes → Except String Bytes
  | 0, bs => skipVarint bs
  | 1, bs => (readLittleEndian 8 bs).map Prod.snd
  | 2, bs => (readCounted bs).map Prod.snd
  | 5, bs => (readLittleEndian 4 bs).map Prod.snd
  | _, _ => .error "can't skip wire type"

/-- A field's number and its type. -/
def readTag (bs : Bytes) : Except String (Nat × Nat × Bytes) := do
  let (n, rest) ← readVarint 9 bs
  if n % 2 ^ 32 / 8 = 0 ∨ 5 < n % 8 then .error "illegal tag"
  else .ok (n % 2 ^ 32 / 8, n % 8, rest)

/-- The fields of a group up to its end, which has the number that the group has; each takes at
least the byte of its tag. -/
def skipGroup : Nat → Option Nat → Bytes → Except String Bytes
  | 0, _, _ => .error "premature EOF"
  | fuel + 1, number, bs => do
      let (field, type, rest) ← readTag bs
      if type = 4 then
        if number.all (· = field) then .ok rest else .error "invalid end group tag"
      else
        (if type = 3 then skipGroup fuel (some field) rest else skipPlain type rest) >>=
          skipGroup fuel number

/-- The reader does not say of the group that it skips which number it has. -/
def skip (type : Nat) (bs : Bytes) : Except String Bytes :=
  if type = 3 then skipGroup (bs.length + 1) none bs else skipPlain type bs

end Binary

def binary : Wire where
  write := Binary.write
  read := Binary.read
  skip := Binary.skip

namespace Binary

theorem readVarint_varint {more n : Nat} (fits : n < 2 ^ (7 * (more + 1))) (rest : Bytes) :
    readVarint more (varint more n ++ rest) = .ok (n, rest) := by
  induction more generalizing n with
  | zero =>
      have small : n < 128 := by simpa using fits
      simp [varint, readVarint, Nat.mod_eq_of_lt (by omega : n < 256), small]
  | succ more ih =>
      rw [varint]
      split
      · next small => simp [readVarint, Nat.mod_eq_of_lt (by omega : n < 256), small]
      · next big =>
        have later : n / 128 < 2 ^ (7 * (more + 1)) := by
          rw [Nat.div_lt_iff_lt_mul (by decide)]
          calc n < 2 ^ (7 * (more + 1 + 1)) := fits
            _ = 2 ^ (7 * (more + 1)) * 128 := by rw [Nat.mul_succ, Nat.pow_add]
        have byte : (UInt8.ofNat (n % 128 + 128)).toNat = n % 128 + 128 := by
          rw [UInt8.toNat_ofNat']
          omega
        rw [List.cons_append, readVarint, byte, if_neg (by omega), ih later]
        simp only [Except.map, Except.ok.injEq, Prod.mk.injEq, and_true]
        omega

theorem readVarint_advances {more n : Nat} {bs rest : Bytes} (read : readVarint more bs = .ok (n, rest)) :
    rest.length < bs.length := by
  induction more generalizing n bs with
  | zero =>
      cases bs with
      | nil => cases read
      | cons b bs =>
          rw [readVarint] at read
          split at read
          · cases read
            exact Nat.lt_succ_self _
          · cases read
  | succ more ih =>
      cases bs with
      | nil => cases read
      | cons b bs =>
          rw [readVarint] at read
          split at read
          · cases read
            exact Nat.lt_succ_self _
          · cases later : readVarint more bs with
            | error e => rw [later] at read; cases read
            | ok found =>
                rw [later] at read
                cases read
                exact Nat.lt_succ_of_lt (ih later)

theorem readLittleEndian_littleEndian {k n : Nat} (fits : n < 256 ^ k) (rest : Bytes) :
    readLittleEndian k (littleEndian k n ++ rest) = .ok (n, rest) := by
  induction k generalizing n with
  | zero =>
      obtain rfl : n = 0 := by simpa using fits
      rfl
  | succ k ih =>
      have later : n / 256 < 256 ^ k := by
        rw [Nat.div_lt_iff_lt_mul (by decide)]
        exact fits
      have byte : (UInt8.ofNat (n % 256)).toNat = n % 256 := by
        rw [UInt8.toNat_ofNat']
        omega
      rw [littleEndian, List.cons_append, readLittleEndian, ih later, byte]
      simp only [Except.map, Except.ok.injEq, Prod.mk.injEq, and_true]
      omega

theorem readLittleEndian_advances {k n : Nat} {bs rest : Bytes}
    (read : readLittleEndian k bs = .ok (n, rest)) : rest.length + k = bs.length := by
  induction k generalizing n bs with
  | zero => cases read; rfl
  | succ k ih =>
      cases bs with
      | nil => cases read
      | cons b bs =>
          rw [readLittleEndian] at read
          cases later : readLittleEndian k bs with
          | error e => rw [later] at read; cases read
          | ok found =>
              rw [later] at read
              cases read
              rw [List.length_cons, ← ih later, Nat.add_assoc]

theorem readCounted_counted {b bs : Bytes} (wrote : counted b = .ok bs) (rest : Bytes) :
    readCounted (bs ++ rest) = .ok (b, rest) := by
  rw [counted] at wrote
  split at wrote
  · next fits =>
    obtain rfl := Except.ok.inj wrote
    have more : b.length < 2 ^ (7 * (9 + 1)) := Nat.lt_of_lt_of_le fits (by decide)
    rw [readCounted, List.append_assoc, readVarint_varint more]
    change (if b.length % 2 ^ 32 ≤ (b ++ rest).length then _ else _) = _
    rw [Nat.mod_eq_of_lt fits, if_pos (by simp), List.take_left, List.drop_left]
  · cases wrote

theorem readCounted_advances {b bs rest : Bytes} (read : readCounted bs = .ok (b, rest)) :
    rest.length < bs.length := by
  obtain ⟨⟨n, more⟩, counted, read⟩ := Except.bind_eq_ok.mp read
  have shorter := readVarint_advances counted
  change (if n % 2 ^ 32 ≤ more.length then _ else _) = _ at read
  split at read
  · cases read
    rw [List.length_drop]
    omega
  · cases read

theorem decodeUtf8_toUTF8 {s : String} (mark : s.toList.head? ≠ some '\uFEFF') :
    decodeUtf8 s.toUTF8.data.toList = .ok s := by
  have same : String.fromUTF8? ⟨s.toUTF8.data.toList.toArray⟩ = some s := by
    rw [Array.toArray_toList]
    exact dif_pos s.isValidUTF8
  rw [decodeUtf8, same]
  dsimp only
  split
  · next first rest chars =>
    have other : first ≠ '\uFEFF' := by
      rintro rfl
      exact mark (by rw [chars]; rfl)
    rw [if_neg other]
  · rfl

theorem unzigzag_zigzag (n : Int) : unzigzag (zigzag n) = n := by
  unfold unzigzag zigzag
  split <;> split <;> omega

theorem zigzag_lt {n : Int} (low : -2 ^ 31 ≤ n) (high : n < 2 ^ 31) : zigzag n < 2 ^ 32 := by
  unfold zigzag
  split <;> omega

theorem map_readVarint {α : Type} {n : Nat} (fits : n < 2 ^ 64) (rest : Bytes) (f : Nat × Bytes → α) :
    (readVarint 9 (varint 9 n ++ rest)).map f = .ok (f (n, rest)) := by
  have more : n < 2 ^ (7 * (9 + 1)) := Nat.lt_of_lt_of_le fits (by decide)
  rw [readVarint_varint more]
  rfl

theorem read_write {s : Scalar} {v : Value} {bs : Bytes} (wrote : write s v = .ok bs) (kept : v.Kept)
    (rest : Bytes) : read s (bs ++ rest) = .ok (v, rest) := by
  cases s with
  | uint32 =>
      cases v with
      | number n =>
          obtain ⟨range, rfl⟩ := Except.ite_eq_ok.mp wrote
          have same : ((n.toNat % 2 ^ 32 : Nat) : Int) = n := by omega
          rw [read, map_readVarint (by omega)]
          exact congrArg (fun n => Except.ok (Value.number n, rest)) same
      | _ => cases wrote
  | int32 =>
      cases v with
      | number n =>
          obtain ⟨range, rfl⟩ := Except.ite_eq_ok.mp wrote
          have same : (((n % 2 ^ 64).toNat : Nat) : Int).bmod (2 ^ 32) = n := by
            rw [Int.bmod]
            omega
          rw [read, map_readVarint (by omega)]
          exact congrArg (fun n => Except.ok (Value.number n, rest)) same
      | _ => cases wrote
  | sint32 =>
      cases v with
      | number n =>
          obtain ⟨range, rfl⟩ := Except.ite_eq_ok.mp wrote
          have small := zigzag_lt range.1 range.2
          have same : unzigzag (zigzag n % 2 ^ 32) = n := by
            rw [Nat.mod_eq_of_lt small, unzigzag_zigzag]
          rw [read, map_readVarint (by omega)]
          exact congrArg (fun n => Except.ok (Value.number n, rest)) same
      | _ => cases wrote
  | int64 =>
      cases v with
      | number n =>
          obtain ⟨range, rfl⟩ := Except.ite_eq_ok.mp wrote
          have same : (((n % 2 ^ 64).toNat : Nat) : Int).bmod (2 ^ 64) = n := by
            rw [Int.bmod]
            omega
          rw [read, map_readVarint (by omega)]
          exact congrArg (fun n => Except.ok (Value.number n, rest)) same
      | _ => cases wrote
  | uint64 =>
      cases v with
      | number n =>
          obtain ⟨range, rfl⟩ := Except.ite_eq_ok.mp wrote
          have same : ((n.toNat % 2 ^ 64 : Nat) : Int) = n := by omega
          rw [read, map_readVarint (by omega)]
          exact congrArg (fun n => Except.ok (Value.number n, rest)) same
      | _ => cases wrote
  | bool =>
      cases v with
      | boolean b =>
          obtain rfl := Except.ok.inj wrote
          cases b <;> rfl
      | _ => cases wrote
  | double =>
      cases v with
      | double bits =>
          obtain rfl := Except.ok.inj wrote
          rw [read, readLittleEndian_littleEndian bits.isLt]
          simp [Except.map]
      | _ => cases wrote
  | string =>
      cases v with
      | text s =>
          cases kept with
          | text _ mark =>
          rw [read, readCounted_counted wrote]
          change (decodeUtf8 s.toUTF8.data.toList >>= _) = _
          rw [decodeUtf8_toUTF8 mark]
          rfl
      | _ => cases wrote
  | bytes =>
      cases v with
      | bytes b =>
          rw [read, readCounted_counted wrote]
          rfl
      | _ => cases wrote

theorem read_advances {s : Scalar} {bs : Bytes} {v : Value} {rest : Bytes}
    (got : read s bs = .ok (v, rest)) : rest.length < bs.length := by
  cases s with
  | double =>
      obtain ⟨⟨n, more⟩, found, same⟩ := Except.map_eq_ok.mp got
      cases same
      have eight := readLittleEndian_advances found
      omega
  | string =>
      obtain ⟨⟨b, more⟩, found, got⟩ := Except.bind_eq_ok.mp got
      obtain ⟨s, -, got⟩ := Except.bind_eq_ok.mp got
      cases got
      exact readCounted_advances found
  | bytes =>
      obtain ⟨⟨b, more⟩, found, same⟩ := Except.map_eq_ok.mp got
      cases same
      exact readCounted_advances found
  | _ =>
      obtain ⟨⟨n, more⟩, found, same⟩ := Except.map_eq_ok.mp got
      cases same
      exact readVarint_advances found

theorem skipVarint_shortens {bs rest : Bytes} (skipped : skipVarint bs = .ok rest) :
    rest.length < bs.length := by
  induction bs with
  | nil => cases skipped
  | cons b bs ih =>
      rw [skipVarint] at skipped
      split at skipped
      · cases skipped
        exact Nat.lt_succ_self _
      · exact Nat.lt_succ_of_lt (ih skipped)

theorem skipPlain_shortens {type : Nat} {bs rest : Bytes} (skipped : skipPlain type bs = .ok rest) :
    rest.length ≤ bs.length := by
  unfold skipPlain at skipped
  split at skipped
  · exact Nat.le_of_lt (skipVarint_shortens skipped)
  · obtain ⟨⟨n, more⟩, found, rfl⟩ := Except.map_eq_ok.mp skipped
    exact Nat.le.intro (readLittleEndian_advances found)
  · obtain ⟨⟨b, more⟩, found, rfl⟩ := Except.map_eq_ok.mp skipped
    exact Nat.le_of_lt (readCounted_advances found)
  · obtain ⟨⟨n, more⟩, found, rfl⟩ := Except.map_eq_ok.mp skipped
    exact Nat.le.intro (readLittleEndian_advances found)
  · cases skipped

theorem readTag_advances {bs rest : Bytes} {field type : Nat} (read : readTag bs = .ok (field, type, rest)) :
    rest.length < bs.length := by
  obtain ⟨⟨n, more⟩, counted, read⟩ := Except.bind_eq_ok.mp read
  have shorter := readVarint_advances counted
  dsimp only at read
  split at read
  · cases read
  · cases read
    exact shorter

/-- One field of a group. -/
theorem skipGroup_succ {fuel : Nat} {number : Option Nat} {bs rest : Bytes} {field type : Nat}
    (read : readTag bs = .ok (field, type, rest)) : skipGroup (fuel + 1) number bs =
      if type = 4 then
        if number.all (· = field) then .ok rest else .error "invalid end group tag"
      else (if type = 3 then skipGroup fuel (some field) rest else skipPlain type rest).bind
        (skipGroup fuel number) := by
  rw [skipGroup, read]
  rfl

theorem skipGroup_shortens {fuel : Nat} {number : Option Nat} {bs rest : Bytes}
    (skipped : skipGroup fuel number bs = .ok rest) : rest.length < bs.length := by
  induction fuel generalizing number bs rest with
  | zero => cases skipped
  | succ fuel ih =>
      obtain ⟨⟨field, type, more⟩, read, -⟩ := Except.bind_eq_ok.mp skipped
      have shorter := readTag_advances read
      rw [skipGroup_succ read] at skipped
      split at skipped
      · obtain ⟨-, rfl⟩ := Except.ite_eq_ok.mp skipped
        exact shorter
      · obtain ⟨next, inner, later⟩ := Except.bind_eq_ok.mp skipped
        have within : next.length ≤ more.length := by
          split at inner
          · exact Nat.le_of_lt (ih inner)
          · exact skipPlain_shortens inner
        have last := ih later
        omega

/-- More fuel than there are bytes makes no difference. -/
theorem skipGroup_fuel {fuel fuel' : Nat} {number : Option Nat} {bs : Bytes} (enough : bs.length < fuel)
    (enough' : bs.length < fuel') : skipGroup fuel number bs = skipGroup fuel' number bs := by
  induction fuel generalizing fuel' number bs with
  | zero => exact absurd enough (Nat.not_lt_zero _)
  | succ fuel ih =>
      obtain _ | fuel' := fuel'
      · exact absurd enough' (Nat.not_lt_zero _)
      cases read : readTag bs with
      | error e => rw [skipGroup, skipGroup, read]; rfl
      | ok found =>
          obtain ⟨field, type, more⟩ := found
          have shorter := readTag_advances read
          have same : skipGroup fuel (some field) more = skipGroup fuel' (some field) more :=
            ih (by omega) (by omega)
          rw [skipGroup_succ read, skipGroup_succ read, same]
          split
          · rfl
          · cases inner : (if type = 3 then skipGroup fuel' (some field) more else skipPlain type more) with
            | error e => rfl
            | ok next =>
                have within : next.length ≤ more.length := by
                  split at inner
                  · exact Nat.le_of_lt (skipGroup_shortens inner)
                  · exact skipPlain_shortens inner
                exact ih (by omega) (by omega)

theorem skip_shortens {type : Nat} {bs rest : Bytes} (skipped : skip type bs = .ok rest) :
    rest.length ≤ bs.length := by
  rw [skip] at skipped
  split at skipped
  · exact Nat.le_of_lt (skipGroup_shortens skipped)
  · exact skipPlain_shortens skipped

end Binary

theorem binary_lawful : binary.Lawful where
  reads _ _ _ rest wrote kept := Binary.read_write wrote kept rest
  advances _ _ _ _ got := Binary.read_advances got
  skips _ _ _ skipped := Binary.skip_shortens skipped

end Protobuf
