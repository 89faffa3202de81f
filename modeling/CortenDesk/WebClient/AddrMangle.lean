import Mathlib.Algebra.Order.Field.Rat
import Mathlib.Data.Nat.Cast.Order.Ring
import Mathlib.Data.Rat.Cast.Defs
import Mathlib.Tactic.NormNum
import CortenDesk.Lib.Fallible
import CortenDesk.Lib.Radix

/-!
The mangled socket addresses of the rendezvous protocol. An IPv4 address and its port are added to
a timestamp in the fields of a 128-bit word, of which the highest zero bytes are left out; an IPv6
address stands in eighteen bytes as it is.
-/
namespace CortenDesk
namespace WebClient

structure SocketAddr where
  ip : List Char
  port : ℚ

/-- The errors thrown, each with what its text names. -/
inductive AddrError
  | badIpv4 (ip : List Char)
  | badIpv6 (ip : List Char)
  | badPort (port : ℚ)
  | badLength (length : Nat)

def isDecimal (c : Char) : Bool := '0' ≤ c && c ≤ '9'

def isHex (c : Char) : Bool := isDecimal c || ('a' ≤ c && c ≤ 'f') || ('A' ≤ c && c ≤ 'F')

def parseOctet (ip part : List Char) : Except AddrError Nat :=
  let n := radixValue 10 part
  if part = [] ∨ ¬ part.all isDecimal ∨ 255 < n then .error (.badIpv4 ip) else .ok n

def parseV4 (ip : List Char) : Except AddrError (List Nat) :=
  let parts := ip.splitOn '.'
  if parts.length ≠ 4 then .error (.badIpv4 ip) else parts.mapM (parseOctet ip)

/-- `split('::')`: the leftmost pair of colons ends a piece. -/
def splitDouble : List Char → List (List Char)
  | [] => [[]]
  | [c] => [[c]]
  | c :: d :: rest =>
      if c = ':' ∧ d = ':' then [] :: splitDouble rest
      else (splitDouble (d :: rest)).modifyHead (c :: ·)

def parseGroup (ip group : List Char) : Except AddrError Nat :=
  if group = [] ∨ 4 < group.length ∨ ¬ group.all isHex then .error (.badIpv6 ip)
  else .ok (radixValue 16 group)

def toGroups (ip s : List Char) : Except AddrError (List Nat) :=
  if s = [] then .ok [] else (s.splitOn ':').mapM (parseGroup ip)

def groupBytes (group : Nat) : List UInt8 :=
  [UInt8.ofNat (group >>> 8), UInt8.ofNat (group &&& 0xff)]

/-- The groups behind a pair of colons, if there is one. -/
def tailGroups (ip : List Char) (halves : List (List Char)) : Except AddrError (List Nat) :=
  if halves.length = 2 then toGroups ip (halves.getD 1 []) else .ok []

/-- The groups of the address: all in one half, or with zeros for what the pair stands for. -/
def allGroups (ip : List Char) (single : Bool) (head tail : List Nat) :
    Except AddrError (List Nat) :=
  let missing : Int := 8 - head.length - tail.length
  if single then
    if head.length ≠ 8 then .error (.badIpv6 ip) else .ok head
  else if missing < 1 then .error (.badIpv6 ip)
  else .ok (head ++ List.replicate missing.toNat 0 ++ tail)

def parseV6 (ip : List Char) : Except AddrError (List UInt8) :=
  let halves := splitDouble ip
  if 2 < halves.length then .error (.badIpv6 ip)
  else do
    let head ← toGroups ip (halves.getD 0 [])
    let tail ← tailGroups ip halves
    let groups ← allGroups ip (halves.length = 1) head tail
    .ok (groups.flatMap groupBytes)

def groupsOf : List UInt8 → List Nat
  | high :: low :: rest => (high.toNat <<< 8 ||| low.toNat) :: groupsOf rest
  | _ => []

def formatV6 (bytes : List UInt8) : List Char :=
  [':'].intercalate ((groupsOf bytes).map (Nat.toDigits 16))

/-- The lowest bits of a `BigInt`, which is two's complement without an end. -/
def lowBits (bits : Nat) (n : Int) : Nat := (n % 2 ^ bits).toNat

/-- The octets as a word, the first the lowest. -/
def ipWord (octets : List Nat) : Nat :=
  let octet := fun i => BitVec.ofNat 32 (octets.getD i 0)
  (octet 0 ||| octet 1 <<< 8 ||| octet 2 <<< 16 ||| octet 3 <<< 24).toNat

def encodeV4 (octets : List Nat) (port : Nat) (now : Int) : List UInt8 :=
  let tm := lowBits 32 now
  let v := lowBits 128
    ((ipWord octets + tm) <<< 49 ||| tm <<< 17 ||| (port + lowBits 16 tm) : Nat)
  (leBytes 16 v).rdropWhile (· = 0)

/-- The mangled address; without `nowMicros` the clock is read, in milliseconds. -/
def encodeAddr (addr : SocketAddr) (nowMicros : Option Int) (dateNow : Int) :
    Except AddrError (List UInt8) :=
  if addr.port < 0 ∨ 0xffff < addr.port ∨ addr.port.den ≠ 1 then .error (.badPort addr.port)
  else
    let port := addr.port.num.toNat
    if ':' ∈ addr.ip then
      (parseV6 addr.ip).map
        (· ++ [UInt8.ofNat (port &&& 0xff), UInt8.ofNat (port >>> 8)])
    else
      (parseV4 addr.ip).map fun octets => encodeV4 octets port (nowMicros.getD (dateNow * 1000))

def decodeV4 (bytes : List UInt8) : SocketAddr :=
  let n := bytes.foldr (fun byte n => n <<< 8 ||| byte.toNat) 0
  let tm := lowBits 32 (n >>> 17 : Nat)
  let ip := lowBits 32 ((n >>> 49 : Nat) - (tm : Int))
  let port := lowBits 16 ((lowBits 24 n : Int) - lowBits 16 tm)
  let b0 := lowBits 8 ip
  let b1 := lowBits 8 (ip >>> 8 : Nat)
  let b2 := lowBits 8 (ip >>> 16 : Nat)
  let b3 := lowBits 8 (ip >>> 24 : Nat)
  { ip := Nat.toDigits 10 b0 ++ '.' :: Nat.toDigits 10 b1 ++ '.' :: Nat.toDigits 10 b2 ++
      '.' :: Nat.toDigits 10 b3
    port := port }

def decodeAddr (bytes : List UInt8) : Except AddrError SocketAddr :=
  if 16 < bytes.length then
    if bytes.length ≠ 18 then .error (.badLength bytes.length)
    else
      .ok { ip := formatV6 (bytes.take 16)
            port := ((bytes.getD 16 0).toNat ||| (bytes.getD 17 0).toNat <<< 8 : Nat) }
  else .ok (decodeV4 bytes)

/-- What an address text denotes. -/
inductive IpAddress
  | v4 (octets : List Nat)
  | v6 (bytes : List UInt8)
  deriving DecidableEq

def parseIp (ip : List Char) : Except AddrError IpAddress :=
  if ':' ∈ ip then (parseV6 ip).map .v6 else (parseV4 ip).map .v4

theorem lowBits_nat (bits n : Nat) : lowBits bits n = n % 2 ^ bits := by
  have cast : ((n : Int) % 2 ^ bits) = ((n % 2 ^ bits : Nat) : Int) := by push_cast; rfl
  rw [lowBits, cast, Int.toNat_natCast]

theorem lowBits_lt (bits : Nat) (n : Int) : lowBits bits n < 2 ^ bits := by
  have positive : (0 : Int) < 2 ^ bits := Int.pow_pos (by decide)
  have below := Int.emod_lt_of_pos n positive
  have nonneg := Int.emod_nonneg n (Int.ne_of_gt positive)
  rw [lowBits, Int.toNat_lt nonneg]
  exact_mod_cast below

/-- Fields that do not overlap are added by an or. -/
theorem shiftLeft_or {field : Nat} {bits : Nat} (small : field < 2 ^ bits) (n : Nat) :
    n <<< bits ||| field = n * 2 ^ bits + field := by
  rw [← Nat.shiftLeft_add_eq_or_of_lt small, Nat.shiftLeft_eq]

theorem ipWord_value {a b c d : Nat} (ha : a < 256) (hb : b < 256) (hc : c < 256) (hd : d < 256) :
    ipWord [a, b, c, d] = a + 256 * b + 65536 * c + 16777216 * d := by
  have word : ipWord [a, b, c, d] = a ||| b <<< 8 ||| c <<< 16 ||| d <<< 24 := by
    simp only [ipWord, List.getD_cons_zero, List.getD_cons_succ, BitVec.toNat_or,
      BitVec.toNat_shiftLeft, BitVec.toNat_ofNat, Nat.shiftLeft_eq]
    congr <;> omega
  have first : a ||| b <<< 8 = b * 2 ^ 8 + a := by
    rw [Nat.or_comm, shiftLeft_or (by omega)]
  have second : (b * 2 ^ 8 + a) ||| c <<< 16 = c * 2 ^ 16 + (b * 2 ^ 8 + a) := by
    rw [Nat.or_comm, shiftLeft_or (by omega)]
  have third : (c * 2 ^ 16 + (b * 2 ^ 8 + a)) ||| d <<< 24 =
      d * 2 ^ 24 + (c * 2 ^ 16 + (b * 2 ^ 8 + a)) := by
    rw [Nat.or_comm, shiftLeft_or (by omega)]
  rw [word, first, second, third]
  omega

theorem foldr_bytes (bytes : List UInt8) :
    bytes.foldr (fun byte n => n <<< 8 ||| byte.toNat) 0 = leValue bytes := by
  induction bytes with
  | nil => rfl
  | cons byte rest ih =>
      rw [List.foldr_cons, ih, shiftLeft_or byte.toNat_lt, leValue]
      omega

/-- The word the fields are packed into. -/
def packed (word port tm : Nat) : Nat := (word + tm) * 2 ^ 49 + (tm * 2 ^ 17 + (port + tm % 2 ^ 16))

theorem leValue_encodeV4 {octets : List Nat} {port : Nat} {now : Int}
    (word : ipWord octets < 2 ^ 32) (valid : port < 2 ^ 16) :
    leValue (encodeV4 octets port now) = packed (ipWord octets) port (lowBits 32 now) := by
  have tm := lowBits_lt 32 now
  have low : lowBits 16 (lowBits 32 now : Nat) = lowBits 32 now % 2 ^ 16 := lowBits_nat 16 _
  have field : port + lowBits 32 now % 2 ^ 16 < 2 ^ 17 := by omega
  have packedOr : ((ipWord octets + lowBits 32 now) <<< 49 ||| lowBits 32 now <<< 17 |||
      (port + lowBits 32 now % 2 ^ 16)) = packed (ipWord octets) port (lowBits 32 now) := by
    rw [Nat.or_assoc, shiftLeft_or field, shiftLeft_or (by omega), packed]
  have bounded : packed (ipWord octets) port (lowBits 32 now) < 256 ^ 16 := by
    simp only [packed]
    omega
  simp only [encodeV4, low]
  rw [leValue_stripped, packedOr, lowBits_nat, Nat.mod_eq_of_lt (by omega), leValue_leBytes bounded]

section
variable {word port tm : Nat}

theorem packed_tm (small : tm < 2 ^ 32) (valid : port < 2 ^ 16) :
    lowBits 32 (packed word port tm >>> 17 : Nat) = tm := by
  have fields : packed word port tm =
      ((word + tm) * 2 ^ 32 + tm) * 2 ^ 17 + (port + tm % 2 ^ 16) := by
    rw [packed]
    omega
  have above : packed word port tm >>> 17 = (word + tm) * 2 ^ 32 + tm := by
    rw [Nat.shiftRight_eq_div_pow, fields]
    omega
  rw [lowBits_nat, above]
  omega

/-- The timestamp that was added to the word is taken off again. -/
theorem packed_word (small : tm < 2 ^ 32) (valid : port < 2 ^ 16) (short : word < 2 ^ 32) :
    lowBits 32 ((packed word port tm >>> 49 : Nat) - (tm : Int)) = word := by
  have high : packed word port tm >>> 49 = word + tm := by
    rw [Nat.shiftRight_eq_div_pow, packed]
    omega
  have back : ((word + tm : Nat) : Int) - tm = (word : Int) := by omega
  rw [high, back, lowBits_nat]
  omega

/-- The port's field carries into the timestamp's, which the reduction leaves out. -/
theorem packed_port (valid : port < 2 ^ 16) :
    lowBits 16 ((lowBits 24 (packed word port tm) : Int) - lowBits 16 tm) = port := by
  rw [lowBits_nat, lowBits_nat, lowBits, packed]
  omega

end

/-- An IPv4 address in the text that is sent back. -/
def dotted (a b c d : Nat) : List Char :=
  Nat.toDigits 10 a ++ '.' :: Nat.toDigits 10 b ++ '.' :: Nat.toDigits 10 c ++
    '.' :: Nat.toDigits 10 d

theorem decodeV4_encodeV4 {a b c d port : Nat} (now : Int) (ha : a < 256) (hb : b < 256)
    (hc : c < 256) (hd : d < 256) (valid : port < 2 ^ 16) :
    decodeV4 (encodeV4 [a, b, c, d] port now) = { ip := dotted a b c d, port := port } := by
  have word := ipWord_value ha hb hc hd
  have tm := lowBits_lt 32 now
  have short : ipWord [a, b, c, d] < 2 ^ 32 := by omega
  have octet0 : lowBits 8 (ipWord [a, b, c, d] : Nat) = a := by
    rw [lowBits_nat]
    omega
  have octet1 : lowBits 8 (ipWord [a, b, c, d] >>> 8 : Nat) = b := by
    rw [lowBits_nat, Nat.shiftRight_eq_div_pow]
    omega
  have octet2 : lowBits 8 (ipWord [a, b, c, d] >>> 16 : Nat) = c := by
    rw [lowBits_nat, Nat.shiftRight_eq_div_pow]
    omega
  have octet3 : lowBits 8 (ipWord [a, b, c, d] >>> 24 : Nat) = d := by
    rw [lowBits_nat, Nat.shiftRight_eq_div_pow]
    omega
  simp only [decodeV4, foldr_bytes, leValue_encodeV4 short valid, packed_tm tm valid,
    packed_word tm valid short, packed_port valid, octet0, octet1, octet2, octet3, dotted]

theorem isDecimal_digit {c : Char} {n : Nat} (mem : c ∈ Nat.toDigits 10 n) :
    isDecimal c = true := by
  obtain ⟨d, small, rfl⟩ := mem_toDigits (by decide) mem
  have all : ∀ d < 10, isDecimal (Nat.digitChar d) = true := by decide
  exact all d small

theorem isHex_digit {c : Char} {n : Nat} (mem : c ∈ Nat.toDigits 16 n) : isHex c = true := by
  obtain ⟨d, small, rfl⟩ := mem_toDigits (by decide) mem
  have all : ∀ d < 16, isHex (Nat.digitChar d) = true := by decide
  exact all d small

theorem parseOctet_digits (ip : List Char) {n : Nat} (small : n < 256) :
    parseOctet ip (Nat.toDigits 10 n) = .ok n := by
  have decimal : (Nat.toDigits 10 n).all isDecimal = true :=
    List.all_eq_true.mpr fun _ mem => isDecimal_digit mem
  have value : radixValue 10 (Nat.toDigits 10 n) = n := radixValue_toDigits (by decide) (by decide) n
  have accepted : ¬ (Nat.toDigits 10 n = [] ∨ ¬ (Nat.toDigits 10 n).all isDecimal = true ∨
      255 < n) := by
    simp only [Nat.toDigits_ne_nil, decimal, not_true_eq_false, false_or, not_lt]
    omega
  simp only [parseOctet, value, if_neg accepted]

theorem dotted_pieces (a b c d : Nat) :
    dotted a b c d = ['.'].intercalate
      [Nat.toDigits 10 a, Nat.toDigits 10 b, Nat.toDigits 10 c, Nat.toDigits 10 d] := by
  simp [dotted, List.intercalate]

theorem digits_free {base n : Nat} {c : Char} (two : 1 < base)
    (free : ∀ d < base, Nat.digitChar d ≠ c) : c ∉ Nat.toDigits base n := by
  intro mem
  obtain ⟨d, small, same⟩ := mem_toDigits two mem
  exact free d small same.symm

theorem parseV4_dotted {a b c d : Nat} (ha : a < 256) (hb : b < 256) (hc : c < 256)
    (hd : d < 256) : parseV4 (dotted a b c d) = .ok [a, b, c, d] := by
  have split : (dotted a b c d).splitOn '.' =
      [Nat.toDigits 10 a, Nat.toDigits 10 b, Nat.toDigits 10 c, Nat.toDigits 10 d] := by
    rw [dotted_pieces]
    refine List.splitOn_intercalate '.' (fun piece mem => ?_) (List.cons_ne_nil _ _)
    simp only [List.mem_cons, List.not_mem_nil, or_false] at mem
    obtain rfl | rfl | rfl | rfl := mem <;> exact digits_free (by decide) (by decide)
  have octets := Except.mapM_eq_ok.mpr
    (.cons (parseOctet_digits (dotted a b c d) ha) (.cons (parseOctet_digits (dotted a b c d) hb)
      (.cons (parseOctet_digits (dotted a b c d) hc)
        (.cons (parseOctet_digits (dotted a b c d) hd) .nil))))
  simp only [parseV4, split]
  exact octets

theorem dotted_plain (a b c d : Nat) : ':' ∉ dotted a b c d := by
  have free : ∀ n, ':' ∉ Nat.toDigits 10 n := fun n => digits_free (by decide) (by decide)
  simp [dotted, free]

/-- An accepted octet is at most 255. -/
theorem parseOctet_ok {ip part : List Char} {n : Nat} (accepted : parseOctet ip part = .ok n) :
    n < 256 := by
  simp only [parseOctet] at accepted
  split at accepted
  · cases accepted
  · next valid =>
      cases accepted
      omega

theorem parseV4_ok {ip : List Char} {octets : List Nat} (accepted : parseV4 ip = .ok octets) :
    ∃ a b c d, octets = [a, b, c, d] ∧ a < 256 ∧ b < 256 ∧ c < 256 ∧ d < 256 := by
  simp only [parseV4] at accepted
  split at accepted
  · cases accepted
  · next four =>
      have length := (Except.mapM_eq_ok.mp accepted).length_eq
      obtain ⟨a, b, c, d, rfl⟩ : ∃ a b c d, octets = [a, b, c, d] := by
        match octets with
        | [a, b, c, d] => exact ⟨a, b, c, d, rfl⟩
        | [] | [_] | [_, _] | [_, _, _] | _ :: _ :: _ :: _ :: _ :: _ =>
            simp only [List.length_cons, List.length_nil] at length
            omega
      have small : ∀ n ∈ [a, b, c, d], n < 256 := by
        intro n mem
        obtain ⟨part, -, ok⟩ := Except.mem_of_mapM_eq_ok accepted mem
        exact parseOctet_ok ok
      exact ⟨a, b, c, d, rfl, small a (by simp), small b (by simp), small c (by simp),
        small d (by simp)⟩

/-! IPv6: the text sent back has eight groups and no pair of colons. -/

theorem splitDouble_free {piece : List Char} (free : ':' ∉ piece) (text : List Char) :
    splitDouble (piece ++ text) = (splitDouble text).modifyHead (piece ++ ·) := by
  induction piece with
  | nil =>
      rw [List.nil_append]
      cases splitDouble text <;> rfl
  | cons c more ih =>
      have other : c ≠ ':' := fun same => free (same ▸ List.mem_cons_self)
      have step := ih fun mem => free (List.mem_cons_of_mem c mem)
      rw [List.cons_append]
      cases rest : more ++ text with
      | nil =>
          obtain ⟨rfl, rfl⟩ := List.append_eq_nil_iff.mp rest
          rfl
      | cons d rest' =>
          rw [splitDouble, if_neg fun pair => other pair.1, ← rest, step, List.modifyHead_modifyHead]
          rfl

/-- Pieces with a single colon between them are not taken apart. -/
theorem splitDouble_joined {pieces : List (List Char)} (some : pieces ≠ [])
    (valid : ∀ piece ∈ pieces, piece ≠ [] ∧ ':' ∉ piece) :
    splitDouble ([':'].intercalate pieces) = [[':'].intercalate pieces] := by
  induction pieces with
  | nil => exact absurd rfl some
  | cons piece rest ih =>
      have free := (valid piece List.mem_cons_self).2
      cases rest with
      | nil => simpa [List.intercalate, splitDouble] using splitDouble_free free []
      | cons next rest =>
          have inner := ih (by simp) fun piece mem => valid piece (List.mem_cons_of_mem _ mem)
          have nextValid := valid next (by simp)
          obtain ⟨d, more, start⟩ := List.exists_cons_of_ne_nil nextValid.1
          have other : d ≠ ':' := fun same => nextValid.2 (by simp [start, same])
          obtain ⟨tail, joined⟩ : ∃ tail, [':'].intercalate (next :: rest) = d :: tail := by
            cases rest with
            | nil => exact ⟨more, by simp [List.intercalate, start]⟩
            | cons third rest =>
                refine ⟨more ++ ([':'] ++ [':'].intercalate (third :: rest)), ?_⟩
                rw [List.intercalate_cons_cons, start, List.append_assoc, List.cons_append]
          rw [joined] at inner
          rw [List.intercalate_cons_cons, List.append_assoc, splitDouble_free free, joined,
            List.singleton_append, splitDouble, if_neg fun pair => other pair.2, inner]
          rfl

theorem parseGroup_digits (ip : List Char) {n : Nat} (small : n < 65536) :
    parseGroup ip (Nat.toDigits 16 n) = .ok n := by
  have hex : (Nat.toDigits 16 n).all isHex = true :=
    List.all_eq_true.mpr fun _ mem => isHex_digit mem
  have value : radixValue 16 (Nat.toDigits 16 n) = n := radixValue_toDigits (by decide) (by decide) n
  have short : (Nat.toDigits 16 n).length ≤ 4 :=
    (Nat.length_toDigits_le_iff (by decide) (by decide)).mpr small
  have accepted : ¬ (Nat.toDigits 16 n = [] ∨ 4 < (Nat.toDigits 16 n).length ∨
      ¬ (Nat.toDigits 16 n).all isHex = true) := by
    simp only [Nat.toDigits_ne_nil, hex, not_true_eq_false, false_or, or_false, not_lt]
    exact short
  simp only [parseGroup, value, if_neg accepted]

theorem groupBytes_pair (high low : UInt8) :
    groupBytes (high.toNat <<< 8 ||| low.toNat) = [high, low] := by
  have lowSmall := low.toNat_lt
  have group : high.toNat <<< 8 ||| low.toNat = high.toNat * 2 ^ 8 + low.toNat :=
    shiftLeft_or lowSmall high.toNat
  have above : (high.toNat * 2 ^ 8 + low.toNat) >>> 8 = high.toNat := by
    rw [Nat.shiftRight_eq_div_pow]
    omega
  have below : (high.toNat * 2 ^ 8 + low.toNat) &&& 0xff = low.toNat := by
    rw [Nat.and_two_pow_sub_one_eq_mod _ 8]
    omega
  rw [group, groupBytes, above, below, UInt8.ofNat_toNat, UInt8.ofNat_toNat]

/-- Pairs of bytes are the groups, and the groups give the bytes back. -/
theorem groupsOf_bytes (pairs : Nat) {bytes : List UInt8} (length : bytes.length = 2 * pairs) :
    (groupsOf bytes).length = pairs ∧ (∀ n ∈ groupsOf bytes, n < 65536) ∧
      (groupsOf bytes).flatMap groupBytes = bytes := by
  induction pairs generalizing bytes with
  | zero =>
      rw [List.length_eq_zero_iff.mp length]
      simp [groupsOf]
  | succ pairs ih =>
      match bytes with
      | [] | [_] =>
          simp only [List.length_cons, List.length_nil] at length
          omega
      | high :: low :: rest =>
          have shorter : rest.length = 2 * pairs := by
            simp only [List.length_cons] at length
            omega
          have rest := ih shorter
          have group : high.toNat <<< 8 ||| low.toNat < 65536 := by
            have highSmall := high.toNat_lt
            have lowSmall := low.toNat_lt
            rw [shiftLeft_or lowSmall]
            omega
          refine ⟨by rw [groupsOf, List.length_cons, rest.1], fun n mem => ?_, ?_⟩
          · cases mem with
            | head => exact group
            | tail _ mem => exact rest.2.1 n mem
          · rw [groupsOf, List.flatMap_cons, groupBytes_pair, rest.2.2]
            rfl

theorem parseV6_formatV6 {bytes : List UInt8} (length : bytes.length = 16) :
    parseV6 (formatV6 bytes) = .ok bytes := by
  obtain ⟨count, small, back⟩ := groupsOf_bytes 8 length
  have some : (groupsOf bytes).map (Nat.toDigits 16) ≠ [] := by
    rw [Ne, List.map_eq_nil_iff]
    exact List.ne_nil_of_length_pos (by omega)
  have free : ∀ n, ':' ∉ Nat.toDigits 16 n := fun n => digits_free (by decide) (by decide)
  have valid : ∀ piece ∈ (groupsOf bytes).map (Nat.toDigits 16), piece ≠ [] ∧ ':' ∉ piece := by
    intro piece mem
    obtain ⟨n, -, rfl⟩ := List.mem_map.mp mem
    exact ⟨Nat.toDigits_ne_nil, free n⟩
  have whole : splitDouble (formatV6 bytes) = [formatV6 bytes] := splitDouble_joined some valid
  have written : formatV6 bytes ≠ [] := by
    intro empty
    have first : (groupsOf bytes).map (Nat.toDigits 16) = [[]] := by
      rw [← List.splitOn_intercalate ':' (fun piece mem => (valid piece mem).2) some]
      exact congrArg (List.splitOn ':') empty
    exact (valid [] (first ▸ List.mem_singleton_self [])).1 rfl
  have pieces : (formatV6 bytes).splitOn ':' = (groupsOf bytes).map (Nat.toDigits 16) :=
    List.splitOn_intercalate ':' (fun piece mem => (valid piece mem).2) some
  have groups : toGroups (formatV6 bytes) (formatV6 bytes) = .ok (groupsOf bytes) := by
    rw [toGroups, if_neg written, pieces, Except.mapM_eq_ok, List.forall₂_map_left_iff,
      List.forall₂_same]
    exact fun n mem => parseGroup_digits (formatV6 bytes) (small n mem)
  have eight : allGroups (formatV6 bytes) true (groupsOf bytes) [] = .ok (groupsOf bytes) := by
    simp [allGroups, count]
  simp only [parseV6, whole, List.getD_cons_zero]
  rw [if_neg (by simp)]
  refine Except.bind_eq_ok.mpr ⟨groupsOf bytes, groups, Except.bind_eq_ok.mpr ⟨[], rfl, ?_⟩⟩
  exact Except.bind_eq_ok.mpr ⟨groupsOf bytes, eight, congrArg Except.ok back⟩

theorem allGroups_length {ip : List Char} {single : Bool} {head tail groups : List Nat}
    (accepted : allGroups ip single head tail = .ok groups) : groups.length = 8 := by
  simp only [allGroups] at accepted
  split at accepted
  · split at accepted
    · cases accepted
    · next eight =>
        cases accepted
        exact Decidable.not_not.mp eight
  · split at accepted
    · cases accepted
    · cases accepted
      simp only [List.length_append, List.length_replicate]
      omega

theorem parseV6_length {ip : List Char} {bytes : List UInt8} (accepted : parseV6 ip = .ok bytes) :
    bytes.length = 16 := by
  have pair : ∀ n, (groupBytes n).length = 2 := fun n => rfl
  simp only [parseV6] at accepted
  split at accepted
  · cases accepted
  · obtain ⟨head, -, accepted⟩ := Except.bind_eq_ok.mp accepted
    obtain ⟨tail, -, accepted⟩ := Except.bind_eq_ok.mp accepted
    obtain ⟨groups, all, accepted⟩ := Except.bind_eq_ok.mp accepted
    cases accepted
    have eight := allGroups_length all
    simp [List.length_flatMap, pair, eight]

theorem formatV6_colon {bytes : List UInt8} (length : bytes.length = 16) :
    ':' ∈ formatV6 bytes := by
  have count := (groupsOf_bytes 8 length).1
  match groups : groupsOf bytes with
  | [] | [_] => simp [groups] at count
  | first :: second :: rest =>
      rw [formatV6, groups, List.map_cons, List.map_cons, List.intercalate_cons_cons]
      simp

theorem encodeV4_length (octets : List Nat) (port : Nat) (now : Int) :
    (encodeV4 octets port now).length ≤ 16 := by
  have shorter := (List.rdropWhile_prefix (fun byte : UInt8 => decide (byte = 0))
    (l := leBytes 16 (lowBits 128 ((ipWord octets + lowBits 32 now) <<< 49 |||
      lowBits 32 now <<< 17 ||| (port + lowBits 16 (lowBits 32 now : Nat)) : Nat)))).length_le
  rw [leBytes_length] at shorter
  exact shorter

theorem decodeAddr_v4 {a b c d port : Nat} (now : Int) (ha : a < 256) (hb : b < 256) (hc : c < 256)
    (hd : d < 256) (valid : port ≤ 0xffff) :
    decodeAddr (encodeV4 [a, b, c, d] port now) = .ok { ip := dotted a b c d, port := port } := by
  have short := encodeV4_length [a, b, c, d] port now
  rw [decodeAddr, if_neg (by omega), decodeV4_encodeV4 now ha hb hc hd (by omega)]

theorem decodeAddr_v6 {bytes : List UInt8} {port : Nat} (length : bytes.length = 16)
    (valid : port ≤ 0xffff) :
    decodeAddr (bytes ++ [UInt8.ofNat (port &&& 0xff), UInt8.ofNat (port >>> 8)]) =
      .ok { ip := formatV6 bytes, port := port } := by
  have low : (UInt8.ofNat (port &&& 0xff)).toNat = port % 2 ^ 8 := by
    rw [Nat.and_two_pow_sub_one_eq_mod _ 8, UInt8.toNat_ofNat']
    omega
  have high : (UInt8.ofNat (port >>> 8)).toNat = port / 2 ^ 8 := by
    rw [Nat.shiftRight_eq_div_pow, UInt8.toNat_ofNat']
    omega
  have front : (bytes ++ [UInt8.ofNat (port &&& 0xff), UInt8.ofNat (port >>> 8)]).take 16 = bytes :=
    length ▸ List.take_left
  have sixteenth : (bytes ++ [UInt8.ofNat (port &&& 0xff), UInt8.ofNat (port >>> 8)]).getD 16 0 =
      UInt8.ofNat (port &&& 0xff) := by
    simp [List.getD, length]
  have seventeenth : (bytes ++ [UInt8.ofNat (port &&& 0xff), UInt8.ofNat (port >>> 8)]).getD 17 0 =
      UInt8.ofNat (port >>> 8) := by
    simp [List.getD, length]
  have joined : (port % 2 ^ 8) ||| (port / 2 ^ 8) <<< 8 = port := by
    rw [Nat.or_comm, shiftLeft_or (by omega)]
    omega
  rw [decodeAddr, if_pos (by simp [length]), if_neg (by simp [length]), front, sixteenth,
    seventeenth, low, high, joined]

/-- The decoded address denotes the one that was encoded, whatever the clock shows. -/
theorem mangle_round_trip (ip : List Char) (port : Nat) (nowMicros : Option Int) (dateNow : Int)
    (address : IpAddress) (valid : port ≤ 0xffff) (denoted : parseIp ip = .ok address) :
    ∃ bytes decoded, encodeAddr { ip := ip, port := port } nowMicros dateNow = .ok bytes ∧
      decodeAddr bytes = .ok decoded ∧ parseIp decoded.ip = .ok address ∧ decoded.port = port := by
  have accepted : ¬ ((port : ℚ) < 0 ∨ 0xffff < (port : ℚ) ∨ (port : ℚ).den ≠ 1) := by
    have nonneg : ¬ (port : ℚ) < 0 := not_lt.mpr (Nat.cast_nonneg port)
    have bounded : ¬ 0xffff < (port : ℚ) := not_lt.mpr (by exact_mod_cast valid)
    simp [nonneg, bounded]
  have whole : (port : ℚ).num.toNat = port := by simp
  by_cases colon : ':' ∈ ip
  · rw [parseIp, if_pos colon] at denoted
    cases parsed : parseV6 ip with
    | error e =>
        rw [parsed] at denoted
        cases denoted
    | ok bytes =>
        rw [parsed] at denoted
        cases denoted
        have length := parseV6_length parsed
        refine ⟨_, _, ?_, decodeAddr_v6 length valid, ?_, rfl⟩
        · simp only [encodeAddr, if_neg accepted, if_pos colon, whole, parsed]
          rfl
        · rw [parseIp, if_pos (formatV6_colon length), parseV6_formatV6 length]
          rfl
  · rw [parseIp, if_neg colon] at denoted
    cases parsed : parseV4 ip with
    | error e =>
        rw [parsed] at denoted
        cases denoted
    | ok octets =>
        rw [parsed] at denoted
        cases denoted
        obtain ⟨a, b, c, d, rfl, ha, hb, hc, hd⟩ := parseV4_ok parsed
        refine ⟨_, _, ?_, decodeAddr_v4 (nowMicros.getD (dateNow * 1000)) ha hb hc hd valid, ?_, rfl⟩
        · simp only [encodeAddr, if_neg accepted, if_neg colon, whole, parsed]
          rfl
        · rw [parseIp, if_neg (dotted_plain a b c d), parseV4_dotted ha hb hc hd]
          rfl

/-- Once for an address in octets, and once for the IPv6 address of zeros. -/
theorem mangle_round_trip_loopback :
    (∃ bytes decoded, encodeAddr { ip := dotted 127 0 0 1, port := (21116 : Nat) } (some (-1)) 0 =
        .ok bytes ∧ decodeAddr bytes = .ok decoded ∧
        parseIp decoded.ip = .ok (.v4 [127, 0, 0, 1]) ∧ decoded.port = (21116 : Nat)) ∧
      ∃ bytes decoded, encodeAddr { ip := formatV6 (List.replicate 16 0), port := (80 : Nat) } none 0 =
        .ok bytes ∧ decodeAddr bytes = .ok decoded ∧
        parseIp decoded.ip = .ok (.v6 (List.replicate 16 0)) ∧ decoded.port = (80 : Nat) := by
  have v4 : parseIp (dotted 127 0 0 1) = .ok (.v4 [127, 0, 0, 1]) := by
    rw [parseIp, if_neg (dotted_plain 127 0 0 1), parseV4_dotted (by decide) (by decide) (by decide)
      (by decide)]
    rfl
  have v6 : parseIp (formatV6 (List.replicate 16 0)) = .ok (.v6 (List.replicate 16 0)) := by
    have length : (List.replicate 16 (0 : UInt8)).length = 16 := List.length_replicate
    rw [parseIp, if_pos (formatV6_colon length), parseV6_formatV6 length]
    rfl
  exact ⟨mangle_round_trip _ 21116 (some (-1)) 0 _ (by decide) v4,
    mangle_round_trip _ 80 none 0 _ (by decide) v6⟩

end WebClient
end CortenDesk
