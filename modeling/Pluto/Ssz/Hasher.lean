import Mathlib.Data.Nat.Log
import Pluto.Lib.Wire
import Pluto.Lib.MerkleTree

/-!
# The SSZ hasher

`crates/ssz/src/hasher.rs`, as far as the consensus hash uses it: `put_bytes`, `merkleize` and
`hash_root` over one byte buffer.  SHA-256 is a parameter, since its code is not part of the
repository; `defaultHashFn` applies it to pairs of chunks.

`hashBytes_eq` says what the buffer computations amount to: the root of the Merkle tree over the
32-byte chunks of the input, padded with zeros to the next power of two.  The length of the input
is not mixed in.  So the hash can only bind the input up to zero bytes at its end, and under the
assumption that SHA-256 behaves on the pairs that are really hashed (`CollisionFree`) it does
(`CollisionFree.append_zeros`).
-/

namespace Pluto.Ssz

/-- `[u8; 32]`: the root of a merkleization. -/
structure HashRoot where
  bytes : Bytes
  length_eq : bytes.length = 32
  deriving DecidableEq

attribute [simp] HashRoot.length_eq

@[ext] lemma HashRoot.ext {h h' : HashRoot} (heq : h.bytes = h'.bytes) : h = h' := by
  cases h
  cases h'
  cases heq
  rfl

/-- `ZERO_BYTES`. -/
def HashRoot.zero : HashRoot := ⟨List.replicate 32 0, by simp⟩

instance : Inhabited HashRoot := ⟨.zero⟩

/-- Errors returned by the hasher, and the panic of an addition that overflows. -/
inductive HasherError
  | invalidBufferLength
  | countGreaterThanLimit (count limit : ℕ)
  | overflow
  deriving DecidableEq, Repr

/-! ## The hasher -/

section Model

variable (sha256 : Bytes → HashRoot)

/-- `ZERO_HASHES`. -/
def zeroHashes : ℕ → HashRoot
  | 0 => .zero
  | i + 1 => sha256 ((zeroHashes i).bytes ++ (zeroHashes i).bytes)

/-- The hashes of the first `n` pairs of `src`. -/
def hashPairs : ℕ → Bytes → Bytes
  | 0, _ => []
  | n + 1, src => (sha256 (src.take 64)).bytes ++ hashPairs n (src.drop 64)

/-- `default_hash_fn`. -/
def defaultHashFn (src : Bytes) : Except HasherError Bytes :=
  if src.length % 64 ≠ 0 then .error .invalidBufferLength
  else .ok (hashPairs sha256 (src.length / 64) src)

def padTo32 (buf : Bytes) : Bytes :=
  if buf.length % 32 ≠ 0 then buf ++ List.replicate (32 - buf.length % 32) 0 else buf

/-- Smears the highest bit over the 31 bits below it, and adds one. -/
def smearedPower (v : ℕ) : ℕ :=
  let v := v - 1
  let v := v ||| v >>> 1
  let v := v ||| v >>> 2
  let v := v ||| v >>> 4
  let v := v ||| v >>> 8
  let v := v ||| v >>> 16
  v + 1

/-- The number is a `usize`, for which the last addition can overflow. -/
def nextPowerOfTwo (v : ℕ) : Except HasherError ℕ :=
  if smearedPower v < 2 ^ 64 then .ok (smearedPower v) else .error .overflow

/-- `64 - leading_zeros - 1` is the position of the highest bit. -/
def getDepth (d : ℕ) : Except HasherError ℕ :=
  if d ≤ 1 then .ok 0 else (nextPowerOfTwo d).map Nat.log2

/-- What `get_depth` returns if nothing overflows. -/
def depthOf (d : ℕ) : ℕ := if d ≤ 1 then 0 else (smearedPower d).log2

/-- The loop of `merkleize_impl`, from level `i` on. -/
def merkleizeLayers : ℕ → ℕ → Bytes → Except HasherError Bytes
  | 0, _, input => .ok input
  | n + 1, i, input =>
    let layerLen := input.length / 32
    let input := if layerLen % 2 = 1 then input ++ (zeroHashes sha256 i).bytes else input
    (defaultHashFn sha256 input).bind (merkleizeLayers n (i + 1))

def merkleizeImpl (input : Bytes) (limit : ℕ) : Except HasherError Bytes :=
  let count := (input.length + 31) / 32
  if limit ≠ 0 ∧ limit < count then .error (.countGreaterThanLimit count limit)
  else
    -- a buffer has less than `2 ^ 59` chunks, and for such a count nothing overflows
    let depth := if limit = 0 then .ok (depthOf count) else getDepth limit
    let limit := if limit = 0 then count else limit
    if limit = 0 then .ok HashRoot.zero.bytes
    else if limit = 1 then .ok (if count = 1 then input.take 32 else HashRoot.zero.bytes)
    else depth.bind fun depth =>
      if input = [] then .ok (zeroHashes sha256 depth).bytes
      else merkleizeLayers sha256 depth 0 input

/-- `HashWalker::merkleize` on the buffer. -/
def merkleize (buf : Bytes) (index : ℕ) : Except HasherError Bytes :=
  (merkleizeImpl sha256 (buf.drop index) 0).map fun input => buf.take index ++ input

def appendBytes32 (buf b : Bytes) : Bytes := padTo32 (buf ++ b)

/-- `HashWalker::put_bytes` on the buffer. -/
def putBytes (buf b : Bytes) : Except HasherError Bytes :=
  if b.length ≤ 32 then .ok (appendBytes32 buf b)
  else merkleize sha256 (appendBytes32 buf b) buf.length

/-- `hash_root`. -/
def hashRoot (buf : Bytes) : Except HasherError HashRoot :=
  if h : buf.length = 32 then .ok ⟨buf, h⟩ else .error .invalidBufferLength

/-- The hash of a byte string: `put_bytes`, `merkleize` and `hash_root` on a new hasher. -/
def hashBytes (encoded : Bytes) : Except HasherError HashRoot :=
  (putBytes sha256 [] encoded).bind fun buf =>
    (merkleize sha256 buf 0).bind hashRoot

end Model

/-! ## Chunks -/

/-- The first chunk of a byte string, padded with zeros. -/
def chunk (b : Bytes) : HashRoot :=
  ⟨b.take 32 ++ List.replicate (32 - (b.take 32).length) 0, by simp⟩

lemma bytes_chunk (b : Bytes) :
    (chunk b).bytes = b.take 32 ++ List.replicate (32 - (b.take 32).length) 0 := rfl

/-- The first `n` chunks. -/
def firstChunks : ℕ → Bytes → List HashRoot
  | 0, _ => []
  | n + 1, b => chunk b :: firstChunks n (b.drop 32)

/-- The chunks of a byte string. -/
def chunks (b : Bytes) : List HashRoot := firstChunks ((b.length + 31) / 32) b

/-- The bytes of a list of chunks. -/
def flat (cs : List HashRoot) : Bytes := cs.flatMap HashRoot.bytes

@[simp] lemma flat_nil : flat [] = [] := rfl

@[simp] lemma flat_cons (c : HashRoot) (cs : List HashRoot) :
    flat (c :: cs) = c.bytes ++ flat cs := rfl

@[simp] lemma flat_append (cs cs' : List HashRoot) : flat (cs ++ cs') = flat cs ++ flat cs' := by
  simp [flat]

@[simp] lemma length_flat (cs : List HashRoot) : (flat cs).length = 32 * cs.length := by
  induction cs with
  | nil => rfl
  | cons c cs ih =>
    simp only [flat_cons, List.length_append, HashRoot.length_eq, ih, List.length_cons]
    omega

lemma flat_replicate_zero (k : ℕ) :
    flat (List.replicate k HashRoot.zero) = List.replicate (32 * k) 0 := by
  induction k with
  | zero => rfl
  | succ k ih =>
    rw [List.replicate_succ, flat_cons, ih, HashRoot.zero, ← List.replicate_add]
    congr 1
    omega

@[simp] lemma length_firstChunks (n : ℕ) (b : Bytes) : (firstChunks n b).length = n := by
  induction n generalizing b with
  | zero => rfl
  | succ n ih => simp [firstChunks, ih]

lemma flat_firstChunks (n : ℕ) (b : Bytes) (h : b.length ≤ 32 * n) :
    flat (firstChunks n b) = b ++ List.replicate (32 * n - b.length) 0 := by
  induction n generalizing b with
  | zero =>
    obtain rfl : b = [] := List.length_eq_zero_iff.mp (by omega)
    rfl
  | succ n ih =>
    rw [firstChunks, flat_cons, ih _ (by simp; omega), bytes_chunk]
    by_cases hlen : 32 ≤ b.length
    · have hpad : 32 - (b.take 32).length = 0 := by simp; omega
      have hrest : 32 * n - (b.drop 32).length = 32 * (n + 1) - b.length := by simp; omega
      rw [hpad, hrest, List.replicate_zero, List.append_nil, ← List.append_assoc,
        List.take_append_drop]
    · have htake : b.take 32 = b := List.take_of_length_le (by omega)
      have hdrop : b.drop 32 = [] := List.drop_of_length_le (by omega)
      rw [htake, hdrop, List.nil_append, List.append_assoc, ← List.replicate_add]
      congr 2
      simp
      omega

lemma flat_chunks (b : Bytes) : flat (chunks b) = padTo32 b := by
  rw [chunks, flat_firstChunks _ _ (by omega), padTo32]
  split_ifs with h
  · congr 2
    omega
  · have hzero : 32 * ((b.length + 31) / 32) - b.length = 0 := by omega
    rw [hzero, List.replicate_zero, List.append_nil]

lemma length_chunks (b : Bytes) : (chunks b).length = (b.length + 31) / 32 := by simp [chunks]

/-! ## The root that is computed -/

section Root

variable (sha256 : Bytes → HashRoot)

/-- The hash of two chunks. -/
def pair (l r : HashRoot) : HashRoot := sha256 (l.bytes ++ r.bytes)

lemma hashPairs_succ (n : ℕ) (a b : HashRoot) (rest : Bytes) :
    hashPairs sha256 (n + 1) (a.bytes ++ (b.bytes ++ rest)) =
      (pair sha256 a b).bytes ++ hashPairs sha256 n rest := by
  have hlen : (a.bytes ++ b.bytes).length = 64 := by simp
  rw [hashPairs, ← List.append_assoc, List.take_left' hlen, List.drop_left' hlen]
  rfl

/-- What completes an odd layer. -/
def oddPad (z : HashRoot) (cs : List HashRoot) : Bytes := if cs.length % 2 = 1 then z.bytes else []

lemma hashPairs_flat (z : HashRoot) (cs : List HashRoot) :
    hashPairs sha256 ((cs.length + 1) / 2) (flat cs ++ oddPad z cs) =
      flat (MerkleTree.layer (pair sha256) z cs) := by
  fun_induction MerkleTree.layer with
  | case1 => rfl
  | case2 a => simpa [oddPad, hashPairs] using hashPairs_succ sha256 0 a z []
  | case3 a b cs ih =>
    have hhalf : ((a :: b :: cs).length + 1) / 2 = (cs.length + 1) / 2 + 1 := by simp; omega
    have hodd : oddPad z (a :: b :: cs) = oddPad z cs := by simp [oddPad, Nat.add_assoc]
    rw [hhalf, hodd, flat_cons, flat_cons, List.append_assoc, List.append_assoc, hashPairs_succ, ih,
      flat_cons]

/-- One round of the loop. -/
lemma defaultHashFn_flat (z : HashRoot) (cs : List HashRoot) :
    defaultHashFn sha256 (flat cs ++ oddPad z cs) =
      .ok (flat (MerkleTree.layer (pair sha256) z cs)) := by
  have hlen : (flat cs ++ oddPad z cs).length = 64 * ((cs.length + 1) / 2) := by
    unfold oddPad
    split_ifs <;> simp <;> omega
  have hmod : 64 * ((cs.length + 1) / 2) % 64 = 0 := by omega
  have hdiv : 64 * ((cs.length + 1) / 2) / 64 = (cs.length + 1) / 2 := by omega
  rw [defaultHashFn, hlen, hmod, hdiv, hashPairs_flat]
  rfl

/-- The loop climbs the layers of the tree. -/
lemma merkleizeLayers_flat (n i : ℕ) (cs : List HashRoot) :
    merkleizeLayers sha256 n i (flat cs) =
      .ok (flat (MerkleTree.layers (pair sha256) (zeroHashes sha256 i) n cs)) := by
  induction n generalizing i cs with
  | zero => rfl
  | succ n ih =>
    have hcomplete : (if (flat cs).length / 32 % 2 = 1 then flat cs ++ (zeroHashes sha256 i).bytes
        else flat cs) = flat cs ++ oddPad (zeroHashes sha256 i) cs := by
      rw [length_flat, Nat.mul_div_cancel_left _ (by omega), oddPad]
      split_ifs <;> simp
    simp only [merkleizeLayers, hcomplete, defaultHashFn_flat]
    exact ih (i + 1) _

/-! ### The depth -/

lemma le_smearedPower (v : ℕ) : v ≤ smearedPower v := by
  have h : ∀ a k : ℕ, a ≤ a ||| a >>> k := fun a k => Nat.left_le_or
  have := ((((h (v - 1) 1).trans (h _ 2)).trans (h _ 4)).trans (h _ 8)).trans (h _ 16)
  simp only [smearedPower]
  omega

lemma smearedPower_le {v c : ℕ} (hv : 0 < v) (h : v ≤ 2 ^ c) : smearedPower v ≤ 2 ^ c := by
  have hor : ∀ a k : ℕ, a < 2 ^ c → (a ||| a >>> k) < 2 ^ c := fun a k ha =>
    Nat.or_lt_two_pow ha ((Nat.shiftRight_le a k).trans_lt ha)
  have := hor _ 16 (hor _ 8 (hor _ 4 (hor _ 2 (hor (v - 1) 1 (by omega)))))
  simp only [smearedPower]
  omega

lemma getDepth_eq (d : ℕ) :
    getDepth d = if smearedPower d < 2 ^ 64 then .ok (depthOf d) else .error .overflow := by
  by_cases hd : d ≤ 1
  · have hsmall : smearedPower d < 2 ^ 64 := by
      obtain rfl | rfl : d = 0 ∨ d = 1 := by omega
      · decide
      · decide
    rw [getDepth, depthOf, if_pos hd, if_pos hd, if_pos hsmall]
  · rw [getDepth, depthOf, if_neg hd, if_neg hd, nextPowerOfTwo]
    split_ifs <;> rfl

/-- The depth is the right one or, for more than `2 ^ 32` chunks, one too small. -/
lemma depthOf_bounds {count : ℕ} (h : 2 ≤ count) :
    depthOf count ≤ Nat.clog 2 count ∧ Nat.clog 2 count ≤ depthOf count + 1 := by
  have hne : smearedPower count ≠ 0 := by
    have := le_smearedPower count
    omega
  have hdepth : depthOf count = (smearedPower count).log2 := by
    simp only [depthOf]
    rw [if_neg (by omega)]
  constructor
  · have hle := smearedPower_le (by omega) (Nat.le_pow_clog (by omega : 1 < 2) count)
    rw [hdepth, ← Nat.lt_succ_iff, Nat.log2_lt hne]
    exact hle.trans_lt (Nat.pow_lt_pow_right (by omega) (by omega))
  · rw [hdepth]
    apply Nat.clog_le_of_le_pow
    exact (le_smearedPower count).trans ((Nat.log2_lt hne).mp (Nat.lt_succ_self _)).le

/-! ### The root -/

/-- `merkleize` on a buffer of at least two chunks. -/
lemma merkleize_flat (cs : List HashRoot) (h : 2 ≤ cs.length) :
    merkleize sha256 (flat cs) 0 =
      .ok (flat (MerkleTree.layers (pair sha256) .zero (depthOf cs.length) cs)) := by
  have hcount : (32 * cs.length + 31) / 32 = cs.length := by omega
  have hne : flat cs ≠ [] := by
    rw [← List.length_pos_iff, length_flat]
    omega
  have hzero : cs.length ≠ 0 := by omega
  have hone : cs.length ≠ 1 := by omega
  simp only [merkleize, merkleizeImpl, List.drop_zero, length_flat, hcount, ne_eq,
    not_true_eq_false, false_and, if_false, if_true, hzero, hone, hne, merkleizeLayers_flat]
  rfl

lemma merkleize_singleton (c : HashRoot) : merkleize sha256 c.bytes 0 = .ok c.bytes := by
  have htake : c.bytes.take 32 = c.bytes := List.take_of_length_le (by simp)
  simp [merkleize, merkleizeImpl, htake, Except.map]

lemma hashRoot_bytes (c : HashRoot) : hashRoot c.bytes = .ok c := by simp [hashRoot]

/-- The second `merkleize` finishes the tree when the depth was one too small. -/
lemma merkleize_layers (cs : List HashRoot) (h : 2 ≤ cs.length) :
    merkleize sha256 (flat (MerkleTree.layers (pair sha256) .zero (depthOf cs.length) cs)) 0 =
      .ok (MerkleTree.root (pair sha256) .zero (Nat.clog 2 cs.length) cs).bytes := by
  have hne : cs ≠ [] := by
    rw [← List.length_pos_iff]
    omega
  obtain ⟨hle, hge⟩ := depthOf_bounds h
  have hcap := Nat.le_pow_clog (by omega : 1 < 2) cs.length
  rcases Nat.lt_or_ge (depthOf cs.length) (Nat.clog 2 cs.length) with hlt | hge'
  · have hclog : Nat.clog 2 cs.length = depthOf cs.length + 1 := by omega
    have hgt : 2 ^ depthOf cs.length < cs.length := by
      rw [← Nat.lt_clog_iff_pow_lt (by omega)]
      exact hlt
    rw [hclog] at hcap ⊢
    obtain ⟨l, r, hlayers, hroot⟩ :=
      MerkleTree.layers_eq_children (pair sha256) HashRoot.zero hgt hcap
    rw [hlayers, hroot, merkleize_flat sha256 [l, r] le_rfl]
    simp [depthOf, smearedPower, MerkleTree.layers, MerkleTree.layer]
  · have hclog : Nat.clog 2 cs.length = depthOf cs.length := by omega
    rw [hclog] at hcap ⊢
    rw [MerkleTree.layers_eq_root hne hcap]
    simpa using merkleize_singleton sha256 _

/-- **The hash of a byte string is the Merkle root of its chunks.** -/
theorem hashBytes_eq (b : Bytes) :
    hashBytes sha256 b =
      .ok (MerkleTree.root (pair sha256) .zero (Nat.clog 2 (chunks b).length) (chunks b)) := by
  have hflat : appendBytes32 [] b = flat (chunks b) := by simp [appendBytes32, flat_chunks]
  have hlen := length_chunks b
  unfold hashBytes putBytes
  split_ifs with hshort
  · rw [hflat]
    match hcs : chunks b with
    | [] =>
      simp [Except.bind, Except.map, merkleize, merkleizeImpl, hashRoot_bytes, MerkleTree.root]
    | [c] =>
      simp [Except.bind, merkleize_singleton, hashRoot_bytes, MerkleTree.root]
    | c :: c' :: cs =>
      rw [hcs, List.length_cons, List.length_cons] at hlen
      omega
  · rw [hflat, List.length_nil, merkleize_flat sha256 _ (by omega)]
    simp [Except.bind, merkleize_layers sha256 (chunks b) (by omega), hashRoot_bytes]

/-! ## What the hash binds -/

/-- The pairs hashed on the way to the hashes of the byte strings `S`. -/
def hashedPairs (S : Set Bytes) : Set (HashRoot × HashRoot) :=
  {p | ∃ b ∈ S, p ∈ MerkleTree.nodes (pair sha256) .zero (Nat.clog 2 (chunks b).length) (chunks b)}

/-- The chunks of the byte strings `S`, and the zero chunk of the padding. -/
def rawChunks (S : Set Bytes) : Set HashRoot := {c | c = .zero ∨ ∃ b ∈ S, c ∈ chunks b}

/-- The assumption on SHA-256: while the byte strings `S` are hashed it has no collision, and it
never returns one of the raw chunks. -/
def CollisionFree (S : Set Bytes) : Prop :=
  MerkleTree.Binding (pair sha256) (hashedPairs sha256 S) (rawChunks S)

variable {S : Set Bytes} {b b' : Bytes}

lemma nodes_subset_hashedPairs (hb : b ∈ S) :
    ∀ p ∈ MerkleTree.nodes (pair sha256) .zero (Nat.clog 2 (chunks b).length) (chunks b),
      p ∈ hashedPairs sha256 S := fun _ hp => ⟨b, hb, hp⟩

variable {sha256}

lemma headD_mem_rawChunks (hb : b ∈ S) : (chunks b).headD .zero ∈ rawChunks S := by
  cases hcs : chunks b with
  | nil => exact .inl rfl
  | cons c cs =>
    refine .inr ⟨b, hb, ?_⟩
    simp [hcs]

lemma getElem_append_replicate (cs : List HashRoot) (z : HashRoot) (k i : ℕ)
    (hi : i < (cs ++ List.replicate k z).length) :
    (cs ++ List.replicate k z)[i] = cs.getD i z := by
  by_cases h : i < cs.length
  · simp [List.getElem_append_left h, h]
  · have hnone : cs[i]? = none := List.getElem?_eq_none (by omega)
    rw [List.getElem_append_right (by omega), List.getElem_replicate, List.getD_eq_getElem?_getD,
      hnone, Option.getD_none]

/-- Lists that agree up to padding give byte strings that agree up to zero bytes. -/
lemma append_zeros_of_getD {d : ℕ} (hlen : (chunks b).length ≤ 2 ^ d)
    (hlen' : (chunks b').length ≤ 2 ^ d)
    (h : ∀ i < 2 ^ d, (chunks b).getD i .zero = (chunks b').getD i .zero) :
    ∃ k l, b ++ List.replicate k 0 = b' ++ List.replicate l 0 := by
  have hpad : chunks b ++ List.replicate (2 ^ d - (chunks b).length) .zero =
      chunks b' ++ List.replicate (2 ^ d - (chunks b').length) .zero := by
    apply List.ext_getElem
    · simp
      omega
    · intro i hi _
      rw [getElem_append_replicate, getElem_append_replicate]
      exact h i (by simp at hi; omega)
  have hflat := congrArg flat hpad
  rw [flat_append, flat_append, flat_replicate_zero, flat_replicate_zero, chunks, chunks,
    flat_firstChunks _ _ (by omega), flat_firstChunks _ _ (by omega), List.append_assoc,
    List.append_assoc, ← List.replicate_add, ← List.replicate_add] at hflat
  exact ⟨_, _, hflat⟩

/-- **The hash binds the input up to zero bytes at its end.** -/
theorem CollisionFree.append_zeros (hS : CollisionFree sha256 S) (hb : b ∈ S) (hb' : b' ∈ S)
    (h : hashBytes sha256 b = hashBytes sha256 b') :
    ∃ k l, b ++ List.replicate k 0 = b' ++ List.replicate l 0 := by
  rw [hashBytes_eq, hashBytes_eq] at h
  have hroot := Except.ok.inj h
  have hN := nodes_subset_hashedPairs sha256 hb
  have hN' := nodes_subset_hashedPairs sha256 hb'
  rcases Nat.lt_trichotomy (Nat.clog 2 (chunks b).length) (Nat.clog 2 (chunks b').length)
    with hlt | heq | hgt
  · exact absurd hroot (hS.root_ne_root hlt hN hN' (headD_mem_rawChunks hb))
  · have hcap := Nat.le_pow_clog (by omega : 1 < 2) (chunks b).length
    have hcap' := Nat.le_pow_clog (by omega : 1 < 2) (chunks b').length
    rw [← heq] at hN' hroot hcap'
    exact append_zeros_of_getD hcap hcap' (hS.getD_eq_of_root_eq hN hN' hroot)
  · exact absurd hroot.symm (hS.root_ne_root hgt hN' hN (headD_mem_rawChunks hb'))

/-- **A hash of wire bytes binds the fields.** -/
theorem CollisionFree.fields_eq (hS : CollisionFree sha256 S) {fs gs : List Wire.Field}
    (hfs : Wire.encode fs ∈ S) (hgs : Wire.encode gs ∈ S)
    (h : hashBytes sha256 (Wire.encode fs) = hashBytes sha256 (Wire.encode gs)) : fs = gs := by
  obtain ⟨k, l, heq⟩ := hS.append_zeros hfs hgs h
  exact Wire.encode_append_zeros_inj heq

/-! ### Short inputs -/

lemma chunks_nil : chunks [] = [] := rfl

/-- The hash of the empty string is the zero chunk. -/
lemma hashBytes_nil : hashBytes sha256 [] = .ok .zero := rfl

/-- Hashing the empty string as well needs nothing more of SHA-256. -/
lemma CollisionFree.insert_nil (hS : CollisionFree sha256 S) :
    CollisionFree sha256 (insert [] S) := by
  have hpairs : hashedPairs sha256 (insert [] S) ⊆ hashedPairs sha256 S := by
    rintro p ⟨b, rfl | hb, hp⟩
    · simp [chunks_nil, MerkleTree.nodes] at hp
    · exact ⟨b, hb, hp⟩
  have hraw : rawChunks (insert [] S) ⊆ rawChunks S := by
    rintro c (hzero | ⟨b, rfl | hb, hc⟩)
    · exact .inl hzero
    · cases hc
    · exact .inr ⟨b, hb, hc⟩
  exact MerkleTree.Binding.mono hS hpairs hraw

lemma chunks_of_two {b : Bytes} (h : 32 < b.length) (h' : b.length ≤ 64) :
    chunks b = [chunk b, chunk (b.drop 32)] := by
  have hcount : (b.length + 31) / 32 = 2 := by omega
  rw [chunks, hcount]
  rfl

/-- For inputs of at most two chunks collision freeness is a finite check. -/
lemma collisionFree_of_two {L : List Bytes} (hlen : ∀ b ∈ L, b.length ≤ 64)
    (inj : ∀ b ∈ L, ∀ b' ∈ L, pair sha256 (chunk b) (chunk (b.drop 32)) =
      pair sha256 (chunk b') (chunk (b'.drop 32)) → (chunk b, chunk (b.drop 32)) =
        (chunk b', chunk (b'.drop 32)))
    (fresh : ∀ b ∈ L, ∀ c ∈ HashRoot.zero :: L.flatMap chunks,
      pair sha256 (chunk b) (chunk (b.drop 32)) ≠ c) : CollisionFree sha256 {b | b ∈ L} := by
  have hpair : ∀ p ∈ hashedPairs sha256 {b | b ∈ L}, ∃ b ∈ L, p = (chunk b, chunk (b.drop 32)) := by
    rintro p ⟨b, hb, hp⟩
    by_cases hshort : b.length ≤ 32
    · have hdepth : Nat.clog 2 (chunks b).length = 0 := by
        apply Nat.clog_of_right_le_one
        rw [length_chunks]
        omega
      rw [hdepth] at hp
      cases hp
    · have hdepth : Nat.clog 2 2 = 1 := Nat.clog_eq_one le_rfl le_rfl
      rw [chunks_of_two (by omega) (hlen b hb), List.length_cons, List.length_singleton,
        hdepth] at hp
      exact ⟨b, hb, List.mem_singleton.mp hp⟩
  constructor
  · intro p hp q hq heq
    obtain ⟨b, hb, rfl⟩ := hpair p hp
    obtain ⟨b', hb', rfl⟩ := hpair q hq
    exact inj b hb b' hb' heq
  · rintro p hp (hzero | ⟨b', hb', hc⟩)
    · obtain ⟨b, hb, rfl⟩ := hpair p hp
      exact fresh b hb _ List.mem_cons_self hzero
    · obtain ⟨b, hb, rfl⟩ := hpair p hp
      exact fresh b hb _ (List.mem_cons_of_mem _ (List.mem_flatMap.mpr ⟨b', hb', hc⟩)) rfl

end Root

end Pluto.Ssz
