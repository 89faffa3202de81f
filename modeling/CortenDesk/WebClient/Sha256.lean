import CortenDesk.Lib.JsInt
import CortenDesk.Lib.Sha256

/-!
The client's own SHA-256. Numbers are JavaScript's: the operators on bits give signed numbers,
sums are sums of doubles, and what is stored in an array of words is cut to one. A result of
`none` is the `RangeError` that allocating or filling the padded copy throws.
-/
namespace CortenDesk
namespace WebClient
open Js Sha256

def K : List Word :=
  [0x428a2f98, 0x71374491, 0xb5c0fbcf, 0xe9b5dba5, 0x3956c25b, 0x59f111f1, 0x923f82a4, 0xab1c5ed5,
    0xd807aa98, 0x12835b01, 0x243185be, 0x550c7dc3, 0x72be5d74, 0x80deb1fe, 0x9bdc06a7, 0xc19bf174,
    0xe49b69c1, 0xefbe4786, 0x0fc19dc6, 0x240ca1cc, 0x2de92c6f, 0x4a7484aa, 0x5cb0a9dc, 0x76f988da,
    0x983e5152, 0xa831c66d, 0xb00327c8, 0xbf597fc7, 0xc6e00bf3, 0xd5a79147, 0x06ca6351, 0x14292967,
    0x27b70a85, 0x2e1b2138, 0x4d2c6dfc, 0x53380d13, 0x650a7354, 0x766a0abb, 0x81c2c92e, 0x92722c85,
    0xa2bfe8a1, 0xa81a664b, 0xc24b8b70, 0xc76c51a3, 0xd192e819, 0xd6990624, 0xf40e3585, 0x106aa070,
    0x19a4c116, 0x1e376c08, 0x2748774c, 0x34b0bcb5, 0x391c0cb3, 0x4ed8aa4a, 0x5b9cca4f, 0x682e6ff3,
    0x748f82ee, 0x78a5636f, 0x84c87814, 0x8cc70208, 0x90befffa, 0xa4506ceb, 0xbef9a3f7, 0xc67178f2]

/-- The hash value a call starts with. -/
def startHash : Words Word :=
  ⟨0x6a09e667, 0xbb67ae85, 0x3c6ef372, 0xa54ff53a, 0x510e527f, 0x9b05688c, 0x1f83d9ab, 0x5be0cd19⟩

def rotr (x : Int) (n : Nat) : Int := bitOr (shiftRightUnsigned x n) (shiftLeft x (32 - n))

/-- `view.getUint32(place, false)`, which no call makes outside the bytes. -/
def getUint32 (bytes : List UInt8) (place : Nat) : Int := (wordAt bytes place).toNat

/-- `view.setUint32(place, value, false)`. -/
def setUint32 (bytes : List UInt8) (place : Nat) (value : Int) : List UInt8 :=
  bytes.take place ++ wordBytes (toWord value) ++ bytes.drop (place + 4)

/-- The padded copy of the data; `size` is the length it is allocated with. -/
def padded (data : List UInt8) : Option (List UInt8) :=
  let length : Int := data.length
  let bitLen := toDouble (length * 8)
  let size := shiftLeft (add (shiftRight (add length 8) 6) 1) 6
  if size < 0 ∨ size < length then none
  else
    let size := size.toNat
    let bytes := (data ++ List.replicate (size - data.length) 0).set data.length 0x80
    let bytes := setUint32 bytes (size - 8) (bitLen / 0x100000000)
    some (setUint32 bytes (size - 4) (shiftRightUnsigned bitLen 0))

/-- `w[i]`, a number. -/
def readWord (w : List Word) (i : Nat) : Int := (w.getD i 0).toNat

/-- `w[i] = value` for an array of words. -/
def setWord (w : List Word) (i : Nat) (value : Int) : List Word := w.set i (toWord value)

/-- The body of the loop that extends the schedule. -/
def extend (w : List Word) (i : Nat) : List Word :=
  let a := readWord w (i - 15)
  let b := readWord w (i - 2)
  let s0 := bitXor (bitXor (rotr a 7) (rotr a 18)) (shiftRightUnsigned a 3)
  let s1 := bitXor (bitXor (rotr b 17) (rotr b 19)) (shiftRightUnsigned b 10)
  setWord w i
    (shiftRightUnsigned (add (add (add (readWord w (i - 16)) s0) (readWord w (i - 7))) s1) 0)

/-- The body of the loop of the rounds. -/
def hashRound (w : List Word) (v : Words Int) (i : Nat) : Words Int :=
  let S1 := bitXor (bitXor (rotr v.e 6) (rotr v.e 11)) (rotr v.e 25)
  let ch := bitXor (bitAnd v.e v.f) (bitAnd (bitNot v.e) v.g)
  let t1 := shiftRightUnsigned (add (add (add (add v.h S1) ch) (readWord K i)) (readWord w i)) 0
  let S0 := bitXor (bitXor (rotr v.a 2) (rotr v.a 13)) (rotr v.a 22)
  let maj := bitXor (bitXor (bitAnd v.a v.b) (bitAnd v.a v.c)) (bitAnd v.b v.c)
  let t2 := shiftRightUnsigned (add S0 maj) 0
  { a := shiftRightUnsigned (add t1 t2) 0
    b := v.a
    c := v.b
    d := v.c
    e := shiftRightUnsigned (add v.d t1) 0
    f := v.e
    g := v.f
    h := v.g }

/-- `h[i] = (h[i] + v) >>> 0`. -/
def addWord (hash : Word) (v : Int) : Word := toWord (shiftRightUnsigned (add hash.toNat v) 0)

/-- The two loops that write the schedule of a block. -/
def writeSchedule (bytes : List UInt8) (w : List Word) (off : Nat) : List Word :=
  let w := (List.range 16).foldl (fun w i => setWord w i (getUint32 bytes (off + i * 4))) w
  (List.range' 16 48).foldl extend w

/-- The words of a hash value as numbers. -/
def registers (h : Words Word) : Words Int :=
  ⟨h.a.toNat, h.b.toNat, h.c.toNat, h.d.toNat, h.e.toNat, h.f.toNat, h.g.toNat, h.h.toNat⟩

/-- The loop over the blocks: the hash value and the schedule's array, which is used again. -/
def hashBlock (bytes : List UInt8) (s : Words Word × List Word) (off : Nat) :
    Words Word × List Word :=
  let h := s.1
  let w := writeSchedule bytes s.2 off
  let v := (List.range 64).foldl (hashRound w) (registers h)
  (⟨addWord h.a v.a, addWord h.b v.b, addWord h.c v.c, addWord h.d v.d, addWord h.e v.e,
    addWord h.f v.f, addWord h.g v.g, addWord h.h v.h⟩, w)

/-- The offsets of the loop `for (let off = 0; off < length; off += 64)`. -/
def offsets (length : Nat) : List Nat := (List.range ((length + 63) / 64)).map (· * 64)

def sha256 (data : List UInt8) : Option (List UInt8) :=
  (padded data).map fun bytes =>
    let h := ((offsets bytes.length).foldl (hashBlock bytes)
      (startHash, List.replicate 64 0)).1.toList
    (List.range 8).foldl (fun out i => setUint32 out (i * 4) (readWord h i))
      (List.replicate 32 0)

theorem toWord_rotr (x : Int) {n : Nat} (below : n < 32) :
    toWord (rotr x n) = (toWord x).rotateRight n := by
  rw [rotr, toWord_bitOr, toWord_shiftRightUnsigned, toWord_shiftLeft, BitVec.rotateRight_def,
    Nat.mod_eq_of_lt below]

theorem toWord_readWord (w : List Word) (i : Nat) : toWord (readWord w i) = w.getD i 0 :=
  toWord_natCast _

theorem small_readWord (w : List Word) (i : Nat) : Small (readWord w i) := small_toNat _

/-- What is cut to a word and stored as one is the word it was. -/
theorem toWord_unsigned (x : Int) : toWord (shiftRightUnsigned x 0) = toWord x := by
  rw [toWord_shiftRightUnsigned, BitVec.ushiftRight_zero]

theorem setWord_length (w : List Word) (i : Nat) (value : Int) :
    (setWord w i value).length = w.length :=
  List.length_set

theorem getD_setWord {w : List Word} {i : Nat} (inside : i < w.length) (value : Int) (j : Nat) :
    (setWord w i value).getD j 0 = if j = i then toWord value else w.getD j 0 := by
  rw [setWord, List.getD_eq_getElem?_getD, List.getElem?_set]
  by_cases same : i = j
  · rw [if_pos same, if_pos (same ▸ inside), if_pos same.symm]
    rfl
  · rw [if_neg same, if_neg fun other => same other.symm, List.getD_eq_getElem?_getD]

/-- One step of the schedule. -/
theorem extend_eq (w : List Word) (i : Nat) :
    extend w i = w.set i (smallSigma1 (w.getD (i - 2) 0) + w.getD (i - 7) 0 +
      smallSigma0 (w.getD (i - 15) 0) + w.getD (i - 16) 0) := by
  have sums := add_four (small_readWord w (i - 16))
    (small_bitXor (bitXor (rotr (readWord w (i - 15)) 7) (rotr (readWord w (i - 15)) 18))
      (shiftRightUnsigned (readWord w (i - 15)) 3)) (small_readWord w (i - 7))
    (small_bitXor (bitXor (rotr (readWord w (i - 2)) 17) (rotr (readWord w (i - 2)) 19))
      (shiftRightUnsigned (readWord w (i - 2)) 10))
  simp only [extend, setWord, sums, toWord_add, toWord_bitXor, toWord_shiftRightUnsigned,
    toWord_readWord, toWord_rotr _ (n := 7) (by decide), toWord_rotr _ (n := 18) (by decide),
    toWord_rotr _ (n := 17) (by decide), toWord_rotr _ (n := 19) (by decide)]
  congr 1
  simp only [smallSigma0, smallSigma1]
  ac_rfl

/-- The loop that reads the words of a block. -/
theorem fill_words (bytes : List UInt8) (off : Nat) {w : List Word} (length : w.length = 64)
    {n : Nat} (within : n ≤ 64) :
    ((List.range n).foldl (fun w i => setWord w i (getUint32 bytes (off + i * 4))) w).length = 64 ∧
      ∀ t < n, ((List.range n).foldl
        (fun w i => setWord w i (getUint32 bytes (off + i * 4))) w).getD t 0 =
          wordAt bytes (off + 4 * t) := by
  induction n with
  | zero => exact ⟨length, fun t early => by omega⟩
  | succ n ih =>
      obtain ⟨size, words⟩ := ih (by omega)
      rw [List.range_succ, List.foldl_append, List.foldl_cons, List.foldl_nil]
      refine ⟨by rw [setWord_length, size], fun t early => ?_⟩
      rw [getD_setWord (by omega)]
      by_cases last : t = n
      · rw [if_pos last, getUint32, toWord_natCast, last, Nat.mul_comm]
      · rw [if_neg last, words t (by omega)]

/-- The loop that extends them computes the message schedule. -/
theorem extend_schedule (message : Nat → Word) {w : List Word} (length : w.length = 64)
    (start : ∀ t < 16, w.getD t 0 = message t) {n : Nat} (within : n ≤ 48) :
    ((List.range' 16 n).foldl extend w).length = 64 ∧
      ∀ t < 16 + n, ((List.range' 16 n).foldl extend w).getD t 0 = schedule message t := by
  induction n with
  | zero => exact ⟨length, fun t early => by rw [schedule_lt message early]; exact start t early⟩
  | succ n ih =>
      obtain ⟨size, words⟩ := ih (by omega)
      rw [List.range'_1_concat, List.foldl_append, List.foldl_cons, List.foldl_nil]
      refine ⟨by rw [extend, setWord_length, size], fun t early => ?_⟩
      rw [extend_eq]
      by_cases last : t = 16 + n
      · rw [last, List.getD_eq_getElem?_getD, List.getElem?_set_self (by omega), Option.getD_some,
          schedule_ge message (by omega), words _ (by omega), words _ (by omega),
          words _ (by omega), words _ (by omega)]
      · rw [List.getD_eq_getElem?_getD, List.getElem?_set_ne (fun same => last same.symm),
          ← List.getD_eq_getElem?_getD, words t (by omega)]

/-- The registers of the rounds as words, and that they are numbers an operator can give. -/
structure Registers (v : Words Int) (u : Words Word) : Prop where
  a : toWord v.a = u.a ∧ Small v.a
  b : toWord v.b = u.b ∧ Small v.b
  c : toWord v.c = u.c ∧ Small v.c
  d : toWord v.d = u.d ∧ Small v.d
  e : toWord v.e = u.e ∧ Small v.e
  f : toWord v.f = u.f ∧ Small v.f
  g : toWord v.g = u.g ∧ Small v.g
  h : toWord v.h = u.h ∧ Small v.h

theorem toWord_bigSigma1 (x : Int) :
    toWord (bitXor (bitXor (rotr x 6) (rotr x 11)) (rotr x 25)) = bigSigma1 (toWord x) := by
  simp only [toWord_bitXor, toWord_rotr _ (n := 6) (by decide), toWord_rotr _ (n := 11) (by decide),
    toWord_rotr _ (n := 25) (by decide), bigSigma1]

theorem toWord_bigSigma0 (x : Int) :
    toWord (bitXor (bitXor (rotr x 2) (rotr x 13)) (rotr x 22)) = bigSigma0 (toWord x) := by
  simp only [toWord_bitXor, toWord_rotr _ (n := 2) (by decide), toWord_rotr _ (n := 13) (by decide),
    toWord_rotr _ (n := 22) (by decide), bigSigma0]

theorem toWord_ch (x y z : Int) :
    toWord (bitXor (bitAnd x y) (bitAnd (bitNot x) z)) = ch (toWord x) (toWord y) (toWord z) := by
  simp only [toWord_bitXor, toWord_bitAnd, toWord_bitNot, ch]

theorem toWord_maj (x y z : Int) :
    toWord (bitXor (bitXor (bitAnd x y) (bitAnd x z)) (bitAnd y z)) =
      maj (toWord x) (toWord y) (toWord z) := by
  simp only [toWord_bitXor, toWord_bitAnd, maj]

/-- One round of the code is one round of the standard. -/
theorem registers_round {v : Words Int} {u : Words Word} (same : Registers v u) {w : List Word}
    {k x : Word} {i : Nat} (constant : K.getD i 0 = k) (word : w.getD i 0 = x) :
    Registers (hashRound w v i) (Sha256.round u k x) := by
  have t1 := congrArg toWord (add_five same.h.2
    (small_bitXor (bitXor (rotr v.e 6) (rotr v.e 11)) (rotr v.e 25))
    (small_bitXor (bitAnd v.e v.f) (bitAnd (bitNot v.e) v.g)) (small_readWord K i)
    (small_readWord w i))
  have t2 := congrArg toWord (add_two
    (small_bitXor (bitXor (rotr v.a 2) (rotr v.a 13)) (rotr v.a 22))
    (small_bitXor (bitXor (bitAnd v.a v.b) (bitAnd v.a v.c)) (bitAnd v.b v.c)))
  rw [toWord_add, toWord_add, toWord_add, toWord_add, toWord_bigSigma1, toWord_ch, toWord_readWord,
    toWord_readWord, same.h.1, same.e.1, same.f.1, same.g.1, constant, word] at t1
  rw [toWord_add, toWord_bigSigma0, toWord_maj, same.a.1, same.b.1, same.c.1] at t2
  refine ⟨⟨?_, small_shiftRightUnsigned _ _⟩, same.a, same.b, same.c,
    ⟨?_, small_shiftRightUnsigned _ _⟩, same.e, same.f, same.g⟩
  · simp only [hashRound, Sha256.round]
    rw [toWord_unsigned, add_two (small_shiftRightUnsigned _ _) (small_shiftRightUnsigned _ _),
      toWord_add, toWord_unsigned, toWord_unsigned, t1, t2]
  · simp only [hashRound, Sha256.round]
    rw [toWord_unsigned, add_two same.d.2 (small_shiftRightUnsigned _ _), toWord_add,
      toWord_unsigned, same.d.1, t1]

theorem registers_start (h : Words Word) : Registers (registers h) h := by
  constructor <;> exact ⟨toWord_natCast _, small_toNat _⟩

theorem addWord_eq (hash : Word) {v : Int} {u : Word} (same : toWord v = u ∧ Small v) :
    addWord hash v = u + hash := by
  rw [addWord, toWord_unsigned, add_two (small_toNat hash) same.2, toWord_add, toWord_natCast,
    same.1, BitVec.add_comm]

theorem K_constants : K = constants := rfl

/-- Rounds with the schedule in the array. -/
theorem registers_rounds {w : List Word} {message : Nat → Word} (indices : List Nat)
    (words : ∀ t ∈ indices, w.getD t 0 = schedule message t) {v : Words Int} {u : Words Word}
    (same : Registers v u) :
    Registers (indices.foldl (hashRound w) v) (rounds indices message u) := by
  induction indices generalizing v u with
  | nil => exact same
  | cons i rest ih =>
      have constant : K.getD i 0 = constants.getD i 0 := by rw [K_constants]
      have first := registers_round same constant (words i List.mem_cons_self)
      rw [List.foldl_cons, rounds, List.foldl_cons]
      exact ih (fun t mem => words t (List.mem_cons_of_mem i mem)) first

theorem writeSchedule_words (bytes : List UInt8) {w : List Word} (off : Nat)
    (length : w.length = 64) : (writeSchedule bytes w off).length = 64 ∧
      ∀ t < 64, (writeSchedule bytes w off).getD t 0 =
        schedule (fun t => wordAt bytes (off + 4 * t)) t := by
  obtain ⟨size, words⟩ := fill_words bytes off length (n := 16) (by decide)
  exact extend_schedule (fun t => wordAt bytes (off + 4 * t)) size words (n := 48) (Nat.le_refl 48)

theorem hashBlock_snd (bytes : List UInt8) (s : Words Word × List Word) (off : Nat) :
    (hashBlock bytes s off).2 = writeSchedule bytes s.2 off := by
  rw [hashBlock]

/-- A block of the code is a compression of the standard. -/
theorem hashBlock_compress (bytes : List UInt8) (s : Words Word × List Word) (off : Nat)
    (length : s.2.length = 64) :
    (hashBlock bytes s off).1 = compress s.1 (fun t => wordAt bytes (off + 4 * t)) := by
  obtain ⟨-, words⟩ := writeSchedule_words bytes off length
  have same := registers_rounds (List.range 64) (fun t mem => words t (List.mem_range.mp mem))
    (registers_start s.1)
  rw [hashBlock, compress]
  simp only [addWord_eq _ same.a, addWord_eq _ same.b, addWord_eq _ same.c,
    addWord_eq _ same.d, addWord_eq _ same.e, addWord_eq _ same.f, addWord_eq _ same.g,
    addWord_eq _ same.h]

/-- The loop over the blocks is the hash computation of the standard. -/
theorem hashBlocks_compress (bytes : List UInt8) (indices : List Nat)
    (s : Words Word × List Word) (length : s.2.length = 64) :
    ((indices.map (· * 64)).foldl (hashBlock bytes) s).1 =
      indices.foldl (fun hash i => compress hash fun t => wordAt bytes (64 * i + 4 * t)) s.1 := by
  induction indices generalizing s with
  | nil => rfl
  | cons i rest ih =>
      have size : (hashBlock bytes s (i * 64)).2.length = 64 := by
        rw [hashBlock_snd]
        exact (writeSchedule_words bytes (i * 64) length).1
      rw [List.map_cons, List.foldl_cons, List.foldl_cons, ih _ size,
        hashBlock_compress bytes s (i * 64) length, Nat.mul_comm i 64]

/-- Storing a number behind what is written. -/
theorem setUint32_next (front : List UInt8) (rest place : Nat) (value : Int)
    (behind : place = front.length) :
    setUint32 (front ++ List.replicate (4 + rest) 0) place value =
      front ++ wordBytes (toWord value) ++ List.replicate rest 0 := by
  rw [setUint32, behind, List.take_left, ← List.drop_drop, List.drop_left, List.drop_replicate,
    Nat.add_sub_cancel_left]

theorem wordBytes_length (w : Word) : (wordBytes w).length = 4 := beBytes_length 4 w.toNat

theorem flatMap_wordBytes_length (words : List Word) :
    (words.flatMap wordBytes).length = words.length * 4 := by
  induction words with
  | nil => rfl
  | cons w rest ih =>
      rw [List.flatMap_cons, List.length_append, wordBytes_length, ih, List.length_cons]
      omega

/-- The loop that writes the words of a hash value. -/
theorem write_words (words : List Word) {n total : Nat} (within : n ≤ words.length)
    (room : words.length * 4 = total) :
    (List.range n).foldl (fun out i => setUint32 out (i * 4) (readWord words i))
        (List.replicate total 0) =
      (words.take n).flatMap wordBytes ++ List.replicate (total - n * 4) 0 := by
  induction n with
  | zero => simp
  | succ n ih =>
      have front : n * 4 = ((words.take n).flatMap wordBytes).length := by
        rw [flatMap_wordBytes_length, List.length_take]
        omega
      have space : total - n * 4 = 4 + (total - (n + 1) * 4) := by omega
      have here : words.take (n + 1) = words.take n ++ [words.getD n 0] := by
        rw [List.take_succ_eq_append_getElem within, List.getD_eq_getElem?_getD,
          List.getElem?_eq_getElem within, Option.getD_some]
      rw [List.range_succ, List.foldl_append, List.foldl_cons, List.foldl_nil, ih (by omega), space,
        setUint32_next _ _ _ _ front, toWord_readWord, here, List.flatMap_append]
      simp

/-- The length the padded copy is allocated with. -/
def paddedSize (length : Int) : Int := shiftLeft (add (shiftRight (add length 8) 6) 1) 6

/-- Below the bound the size is that of the blocks the standard asks for. -/
theorem paddedSize_eq {length : Nat} (bounded : length < 2 ^ 31 - 72) :
    paddedSize length = (64 * ((length + 8) / 64 + 1) : Nat) := by
  have bytes : add length 8 = (length : Int) + 8 := toDouble_exact (by omega)
  have blocks : shiftRight ((length : Int) + 8) 6 = ((length : Int) + 8) / 64 :=
    shiftRight_eq (by omega) (by omega) 6
  have more : add (((length : Int) + 8) / 64) 1 = ((length : Int) + 8) / 64 + 1 :=
    toDouble_exact (by omega)
  rw [paddedSize, bytes, blocks, more, shiftLeft_eq, Int.bmod_eq_of_le (by omega) (by omega)]
  omega

/-- From the bound on the size is negative, or what the data does not fit into. -/
theorem paddedSize_large {length : Nat} (large : 2 ^ 31 - 72 ≤ length) :
    paddedSize length < 0 ∨ paddedSize length < length := by
  by_cases wraps : length < 2 ^ 31 - 8
  · have bytes : add length 8 = (length : Int) + 8 := toDouble_exact (by omega)
    have blocks : shiftRight ((length : Int) + 8) 6 = ((length : Int) + 8) / 64 :=
      shiftRight_eq (by omega) (by omega) 6
    have last : ((length : Int) + 8) / 64 = 2 ^ 25 - 1 := by omega
    have size : paddedSize length = -2 ^ 31 := by
      rw [paddedSize, bytes, blocks, last]
      decide
    exact .inl (by omega)
  · refine .inr ?_
    -- A multiple of 64 below 2 ^ 31.
    have block : ∀ x : Int, (x * 2 ^ 6).bmod (2 ^ 32) ≤ 2 ^ 31 - 64 := by
      intro x
      rw [Int.bmod_def]
      split <;> omega
    have upper := block (add (shiftRight (add length 8) 6) 1)
    rw [paddedSize, shiftLeft_eq]
    omega

theorem padded_none {data : List UInt8} (large : 2 ^ 31 - 72 ≤ data.length) : padded data = none := by
  rw [padded]
  simp only
  rw [← paddedSize, if_pos (paddedSize_large large)]

theorem wordBytes_toWord (n : Nat) : wordBytes (toWord n) = beBytes 4 n := by
  have low : (toWord n).toNat = n % 256 ^ 4 := by
    rw [toWord, BitVec.ofInt_natCast, BitVec.toNat_ofNat]
    rfl
  rw [wordBytes, low, beBytes, beBytes, leBytes_mod]

/-- The copy with the byte behind the data set. -/
theorem marked_bytes (data : List UInt8) :
    (data ++ List.replicate (64 * ((data.length + 8) / 64 + 1) - data.length) 0).set data.length
        0x80 =
      data ++ 0x80 :: List.replicate (zeros data.length) 0 ++ List.replicate (4 + 4) 0 := by
  have room : 64 * ((data.length + 8) / 64 + 1) - data.length =
      (zeros data.length + (4 + 4)) + 1 := by
    unfold zeros
    omega
  rw [room, List.replicate_succ, List.set_append_right _ _ (Nat.le_refl _), Nat.sub_self,
    List.set_cons_zero, List.replicate_add, List.append_assoc, List.cons_append]

/-- Below the bound the padded copy is the padded message of the standard. -/
theorem padded_pad {data : List UInt8} (bounded : data.length < 2 ^ 31 - 72) :
    padded data = some (pad data) := by
  have size := paddedSize_eq bounded
  have fits : ¬ (paddedSize data.length < 0 ∨ paddedSize data.length < data.length) := by omega
  have bits : toDouble ((data.length : Int) * 8) = (8 * data.length : Nat) := by
    rw [toDouble_exact (by omega)]
    omega
  have high : ((8 * data.length : Nat) : Int) / 0x100000000 = (8 * data.length / 256 ^ 4 : Nat) := by
    omega
  have low : toWord (shiftRightUnsigned (8 * data.length : Nat) 0) = toWord (8 * data.length : Nat) :=
    toWord_unsigned _
  have total : (data ++ 0x80 :: List.replicate (zeros data.length) (0 : UInt8)).length + 8 =
      64 * ((data.length + 8) / 64 + 1) := by
    simp only [List.length_append, List.length_cons, List.length_replicate, zeros]
    omega
  have length : beBytes 8 (8 * data.length) =
      wordBytes (toWord (8 * data.length / 256 ^ 4 : Nat)) ++
        wordBytes (toWord (8 * data.length : Nat)) := by
    rw [wordBytes_toWord, wordBytes_toWord, beBytes_add 4 4, beBytes, beBytes, leBytes_mod]
    rfl
  rw [padded]
  simp only
  rw [bits, ← paddedSize, if_neg fits, size, Int.toNat_natCast, marked_bytes, high,
    setUint32_next _ 4 _ _ (by omega)]
  have behind : 64 * ((data.length + 8) / 64 + 1) - 4 =
      (data ++ 0x80 :: List.replicate (zeros data.length) (0 : UInt8) ++
        wordBytes (toWord (8 * data.length / 256 ^ 4 : Nat))).length := by
    rw [List.length_append, wordBytes_length]
    omega
  have last := setUint32_next _ 0 _ (shiftRightUnsigned (8 * data.length : Nat) 0) behind
  rw [low] at last
  rw [pad, length, ← List.append_assoc]
  exact congrArg some (last.trans (List.append_nil _))

theorem offsets_pad (data : List UInt8) :
    offsets (pad data).length = (List.range ((pad data).length / 64)).map (· * 64) := by
  have blocks : ((pad data).length + 63) / 64 = (pad data).length / 64 := by
    rw [pad_length]
    omega
  rw [offsets, blocks]

/-- The client's function is SHA-256 below the bound, and throws from there on. -/
theorem sha256_eq (data : List UInt8) :
    sha256 data = if data.length < 2 ^ 31 - 72 then some (digest data) else none := by
  split
  · next bounded =>
      have hashed : ((offsets (pad data).length).foldl (hashBlock (pad data))
          (startHash, List.replicate 64 0)).1 = hashWords data := by
        rw [offsets_pad, hashBlocks_compress _ _ _ List.length_replicate]
        rfl
      have written : (List.range 8).foldl
          (fun out i => setUint32 out (i * 4) (readWord (hashWords data).toList i))
            (List.replicate 32 0) =
          ((hashWords data).toList.take 8).flatMap wordBytes ++ List.replicate (32 - 8 * 4) 0 :=
        write_words (hashWords data).toList (Nat.le_refl 8) rfl
      rw [sha256, padded_pad bounded, Option.map_some, hashed, written]
      exact congrArg some (List.append_nil _)
  · next large => rw [sha256, padded_none (by omega), Option.map_none]

end WebClient
end CortenDesk
