import Mathlib.Data.Nat.Log
import Mathlib.Data.Nat.Size
import Pluto.Lib.SszContainer

/-!
# Bit lists

`BitList` of `crates/ssz/src/types.rs`.  The source packs the bits into bytes, least significant
first; here they are a list, and packing happens in `toSszBytes`, which also sets the sentinel bit
behind the last one.  The length of the list is where `fromSszBytes` finds the highest bit of the
last byte.

`fromSszBytes_toSszBytes` is the round trip, for lists within the maximum.
-/

namespace Pluto.Ssz

open SszContainer (DecodeError)

/-- SSZ variable-length bitfield with maximum capacity. -/
structure BitList (max : ℕ) where
  bits : List Bool
  deriving DecidableEq

inductive BitfieldError
  | differentLength
  deriving DecidableEq, Repr

/-! ## Packed bits -/

/-- The number with these binary digits, least significant first. -/
def bitsToNat : List Bool → ℕ
  | [] => 0
  | b :: bits => b.toNat + 2 * bitsToNat bits

/-- The first `n` bytes of packed bits. -/
def packBits : ℕ → List Bool → Bytes
  | 0, _ => []
  | n + 1, bits => UInt8.ofNat (bitsToNat (bits.take 8)) :: packBits n (bits.drop 8)

def byteBits (b : UInt8) : List Bool := (List.range 8).map b.toNat.testBit

def unpackBits (bytes : Bytes) : List Bool := bytes.flatMap byteBits

namespace BitList

variable {max : ℕ}

/-- Encodes the `BitList` as SSZ bytes with sentinel bit appended. -/
def toSszBytes (l : BitList max) : Bytes := packBits (l.bits.length / 8 + 1) (l.bits ++ [true])

/-- Decodes SSZ-encoded bytes (with sentinel bit) into a `BitList`. -/
def fromSszBytes (max : ℕ) (ssz : Bytes) : Except DecodeError (BitList max) :=
  match ssz.getLast? with
  | none => .error (.bytesInvalid "bitlist encoding is empty (missing sentinel bit)")
  | some last =>
    if last = 0 then
      .error (.bytesInvalid "bitlist final byte is zero (missing sentinel bit)")
    else
      let len := (ssz.length - 1) * 8 + Nat.log2 last.toNat
      if 0 < max ∧ max < len then
        .error (.bytesInvalid s!"bitlist length {len} exceeds max {max}")
      else .ok ⟨(unpackBits ssz).take len⟩

/-- Returns the bit at index `i`, or `false` if `i` is out of range. -/
def bitAt (l : BitList max) (i : ℕ) : Bool := l.bits.getD i false

/-- Returns `true` if every bit set in `other` is also set in `self`. -/
def contains (l other : BitList max) : Except BitfieldError Bool :=
  if l.bits.length ≠ other.bits.length then .error .differentLength
  else .ok ((other.bits.zip l.bits).all fun (o, s) => !o || s)

end BitList

/-! ## The round trip -/

lemma testBit_bitsToNat (bits : List Bool) (i : ℕ) :
    (bitsToNat bits).testBit i = bits.getD i false := by
  induction bits generalizing i with
  | nil => simp [bitsToNat]
  | cons b bits ih =>
    cases i with
    | zero => cases b <;> simp [bitsToNat, Nat.testBit_zero, Nat.add_mod]
    | succ i =>
      have hhalf : (b.toNat + 2 * bitsToNat bits) / 2 = bitsToNat bits := by
        cases b
        · simp
        · simp only [Bool.toNat_true]
          omega
      rw [bitsToNat, Nat.testBit_succ, hhalf, ih, List.getD_cons_succ]

lemma bitsToNat_lt (bits : List Bool) : bitsToNat bits < 2 ^ bits.length := by
  induction bits with
  | nil => simp [bitsToNat]
  | cons b bits ih =>
    rw [bitsToNat, List.length_cons, pow_succ']
    cases b <;> simp <;> omega

lemma bitsToNat_append_true (bits : List Bool) :
    bitsToNat (bits ++ [true]) = bitsToNat bits + 2 ^ bits.length := by
  induction bits with
  | nil => simp [bitsToNat]
  | cons b bits ih =>
    rw [List.cons_append, bitsToNat, ih, bitsToNat, List.length_cons, pow_succ']
    ring

/-- The bits of a byte that holds up to eight bits. -/
lemma byteBits_bitsToNat {bits : List Bool} (h : bits.length ≤ 8) :
    byteBits (UInt8.ofNat (bitsToNat bits)) = bits ++ List.replicate (8 - bits.length) false := by
  have hlt : bitsToNat bits < 256 :=
    (bitsToNat_lt bits).trans_le (Nat.pow_le_pow_right (by norm_num) h)
  have hbyte : (UInt8.ofNat (bitsToNat bits)).toNat = bitsToNat bits := by
    rw [UInt8.toNat_ofNat']
    exact Nat.mod_eq_of_lt hlt
  apply List.ext_getElem
  · simp [byteBits]
    omega
  · intro i hi hi'
    simp only [byteBits, List.getElem_map, List.getElem_range, hbyte, testBit_bitsToNat,
      List.getElem_append, List.getElem_replicate]
    split <;> rename_i hlen
    · simp [List.getD_eq_getElem?_getD, hlen]
    · simp [List.getD_eq_getElem?_getD, hlen]

@[simp] lemma length_packBits (n : ℕ) (bits : List Bool) : (packBits n bits).length = n := by
  induction n generalizing bits with
  | zero => rfl
  | succ n ih => simp [packBits, ih]

lemma unpackBits_packBits {n : ℕ} {bits : List Bool} (h : bits.length ≤ 8 * n) :
    unpackBits (packBits n bits) = bits ++ List.replicate (8 * n - bits.length) false := by
  induction n generalizing bits with
  | zero => simp_all [packBits, unpackBits]
  | succ n ih =>
    have hfirst : byteBits (UInt8.ofNat (bitsToNat (bits.take 8))) =
        bits.take 8 ++ List.replicate (8 - (bits.take 8).length) false :=
      byteBits_bitsToNat (List.length_take_le 8 bits)
    have hrest := ih (show (bits.drop 8).length ≤ 8 * n by rw [List.length_drop]; omega)
    rw [packBits, unpackBits, List.flatMap_cons, ← unpackBits, hfirst, hrest]
    rcases le_total 8 bits.length with hlong | hshort
    · have htake : (bits.take 8).length = 8 := by simpa using hlong
      have hpad : 8 * n - (bits.drop 8).length = 8 * (n + 1) - bits.length := by
        rw [List.length_drop]
        omega
      rw [htake, hpad, Nat.sub_self, List.replicate_zero, List.append_nil, ← List.append_assoc,
        List.take_append_drop]
    · have hpad : 8 * (n + 1) - bits.length = 8 - bits.length + 8 * n := by omega
      rw [List.take_of_length_le hshort, List.drop_of_length_le hshort, hpad, List.nil_append,
        List.length_nil, Nat.sub_zero, List.replicate_add, List.append_assoc]

/-- The last byte. -/
lemma packBits_succ (n : ℕ) (bits : List Bool) :
    packBits (n + 1) bits =
      packBits n bits ++ [UInt8.ofNat (bitsToNat ((bits.drop (8 * n)).take 8))] := by
  induction n generalizing bits with
  | zero => simp [packBits]
  | succ n ih =>
    have hdrop : (bits.drop 8).drop (8 * n) = bits.drop (8 * (n + 1)) := by
      rw [List.drop_drop, Nat.mul_succ, Nat.add_comm]
    rw [packBits, ih, hdrop, packBits, List.cons_append]

namespace BitList

variable {max : ℕ}

/-- The byte with the sentinel: the bits behind the last full byte, then a one. -/
lemma toSszBytes_eq (l : BitList max) :
    l.toSszBytes = packBits (l.bits.length / 8) (l.bits ++ [true]) ++
      [UInt8.ofNat (bitsToNat (l.bits.drop (8 * (l.bits.length / 8)) ++ [true]))] := by
  have hdrop : (l.bits ++ [true]).drop (8 * (l.bits.length / 8)) =
      l.bits.drop (8 * (l.bits.length / 8)) ++ [true] :=
    List.drop_append_of_le_length (by omega)
  rw [toSszBytes, packBits_succ, hdrop, List.take_of_length_le]
  rw [List.length_append, List.length_drop, List.length_singleton]
  omega

lemma length_toSszBytes (l : BitList max) : l.toSszBytes.length = l.bits.length / 8 + 1 := by
  simp [toSszBytes]

/-- The sentinel in a byte with the bits `rest` below it. -/
lemma toNat_sentinel {rest : List Bool} (h : rest.length < 8) :
    (UInt8.ofNat (bitsToNat (rest ++ [true]))).toNat = bitsToNat rest + 2 ^ rest.length := by
  have hlow := bitsToNat_lt rest
  have hpow : 2 ^ (rest.length + 1) ≤ 2 ^ 8 := Nat.pow_le_pow_right (by norm_num) h
  rw [UInt8.toNat_ofNat', bitsToNat_append_true]
  refine Nat.mod_eq_of_lt ?_
  rw [pow_succ] at hpow
  omega

lemma log2_sentinel (rest : List Bool) :
    Nat.log2 (bitsToNat rest + 2 ^ rest.length) = rest.length := by
  have hlow := bitsToNat_lt rest
  have hpos := Nat.two_pow_pos rest.length
  rw [Nat.log2_eq_iff (by omega), pow_succ]
  omega

/-- **The round trip** for a list within the maximum. -/
lemma fromSszBytes_toSszBytes {l : BitList max} (h : l.bits.length ≤ max) :
    fromSszBytes max l.toSszBytes = .ok l := by
  set rest := l.bits.drop (8 * (l.bits.length / 8)) with hrest
  have hlen : rest.length = l.bits.length % 8 := by
    rw [hrest, List.length_drop]
    omega
  set last := UInt8.ofNat (bitsToNat (rest ++ [true])) with hlast
  have hnat : last.toNat = bitsToNat rest + 2 ^ rest.length := toNat_sentinel (by omega)
  have hlast? : l.toSszBytes.getLast? = some last := by rw [toSszBytes_eq, List.getLast?_concat]
  have hne : last ≠ 0 := by
    intro hzero
    rw [hzero] at hnat
    have hpos := Nat.two_pow_pos rest.length
    rw [UInt8.toNat_zero] at hnat
    omega
  have hsize : (l.toSszBytes.length - 1) * 8 + Nat.log2 last.toNat = l.bits.length := by
    rw [length_toSszBytes, hnat, log2_sentinel, hlen]
    omega
  have hbits : (unpackBits l.toSszBytes).take l.bits.length = l.bits := by
    rw [toSszBytes, unpackBits_packBits, List.append_assoc, List.take_left]
    rw [List.length_append, List.length_singleton]
    omega
  simp only [fromSszBytes, hlast?, hne, if_false, hsize, hbits]
  rw [if_neg (by omega)]

/-- Bit lists as a field of a container. -/
def codec (max : ℕ) : SszContainer.Codec (BitList max) where
  kind := .dynamic
  encode := toSszBytes
  decode := fromSszBytes max
  Valid l := l.bits.length ≤ max
  maxLen := max / 8 + 1
  decode_encode _ h := fromSszBytes_toSszBytes h
  length_fixed _ _ _ h := nomatch h
  length_le l h := by
    rw [length_toSszBytes]
    exact Nat.succ_le_succ (Nat.div_le_div_right h)

end BitList

end Pluto.Ssz
