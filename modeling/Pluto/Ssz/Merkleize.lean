import Pluto.Lib.SszContainer
import Pluto.Ssz.Hasher

/-!
# Merkleization over a shared buffer

`merkleize` and `merkleize_with_mixin` of `crates/ssz/src/hasher.rs` take the chunks that stand in
the buffer from an index on and put one chunk in their place.  What that chunk should be is
`sszRoot`: the chunks are padded with zero chunks to the next power of two of the limit, and the
complete tree over them is hashed.  A list has its length mixed in.

The code computes the depth of the tree by smearing the highest bit of `limit - 1` over the bits
below it, but only over 31 of them.  `depthOf_eq_clog_iff` says when that is enough: whenever
`limit - 1` has no 32 zero bits in a row below its highest bit.  Otherwise the tree is one level too
low.  Above `2 ^ 63` the computation can overflow.  The third thing to watch is that
`merkleize_with_mixin` first pads the whole buffer, so that what stands before the index has to be
whole chunks.  `merkleization_correct_iff` says that there is nothing else.
-/

namespace Pluto.Ssz

open SszContainer (leBytes)

/-! ## The operation and its specification -/

section Model

variable (sha256 : Bytes → HashRoot)

/-- `HashWalker::merkleize_with_mixin` on the buffer. -/
def merkleizeWithMixin (buf : Bytes) (index num limit : ℕ) : Except HasherError Bytes :=
  let buf := padTo32 buf
  (merkleizeImpl sha256 (buf.drop index) limit).bind fun input =>
    (defaultHashFn sha256 (input ++ (leBytes 8 num ++ List.replicate 24 0))).map fun result =>
      buf.take index ++ result

/-- The chunk of a length: a number of 256 bits. -/
def lengthChunk (num : ℕ) : HashRoot := ⟨leBytes 32 num, by simp⟩

/-- The SSZ root of chunks: the root of the complete tree over them, after they were padded with
zero chunks to the next power of two of `limit`. -/
def sszRoot (cs : List HashRoot) (limit : ℕ) : HashRoot :=
  MerkleTree.root (pair sha256) .zero (Nat.clog 2 limit)
    (cs ++ List.replicate (2 ^ Nat.clog 2 limit - cs.length) .zero)

end Model

/-! ## The depth -/

/-- `w` has the bits of `v` and of its shifts by less than `n`. -/
def Smears (w v n : ℕ) : Prop := ∀ i, w.testBit i = true ↔ ∃ j < n, v.testBit (i + j) = true

lemma Smears.refl (v : ℕ) : Smears v v 1 := by
  intro i
  simp

lemma Smears.double {w v n : ℕ} (h : Smears w v n) : Smears (w ||| w >>> n) v (2 * n) := by
  intro i
  rw [Nat.testBit_or, Bool.or_eq_true, Nat.testBit_shiftRight, h, h]
  constructor
  · rintro (⟨j, hj, hbit⟩ | ⟨j, hj, hbit⟩)
    · exact ⟨j, by omega, hbit⟩
    · refine ⟨n + j, by omega, ?_⟩
      rwa [show i + (n + j) = n + i + j by omega]
  · rintro ⟨j, hj, hbit⟩
    by_cases hlt : j < n
    · exact .inl ⟨j, hlt, hbit⟩
    · refine .inr ⟨j - n, by omega, ?_⟩
      rwa [show n + i + (j - n) = i + j by omega]

lemma exists_smearedPower (d : ℕ) : ∃ w, smearedPower d = w + 1 ∧ Smears w (d - 1) 32 :=
  ⟨_, rfl, (((((Smears.refl (d - 1)).double).double).double).double).double⟩

/-- Below its highest bit `d - 1` has no 32 zero bits in a row. -/
def GapFree (d : ℕ) : Prop :=
  ∀ k, (d - 1).testBit k = true → ∀ i ≤ k, ∃ j < 32, (d - 1).testBit (i + j) = true

/-- The smeared number has all bits up to the highest one just if there are no gaps. -/
lemma Smears.eq_two_pow_sub_one_iff {w d h : ℕ} (hs : Smears w (d - 1) 32) (hlow : 2 ^ h ≤ d - 1)
    (hhigh : d - 1 < 2 ^ (h + 1)) : w = 2 ^ (h + 1) - 1 ↔ GapFree d := by
  have htop : (d - 1).testBit h = true := by
    rw [pow_succ] at hhigh
    have hdiv : (d - 1) / 2 ^ h = 1 := Nat.div_eq_of_lt_le (by omega) (by omega)
    rw [Nat.testBit_eq_decide_div_mod_eq, hdiv]
    rfl
  have hbits : ∀ k, (d - 1).testBit k = true → k ≤ h := by
    intro k hk
    by_contra hlt
    have hpow : 2 ^ (h + 1) ≤ 2 ^ k := Nat.pow_le_pow_right (by omega) (by omega)
    rw [Nat.testBit_lt_two_pow (hhigh.trans_le hpow)] at hk
    cases hk
  constructor
  · intro hw k hk i hi
    have hkh := hbits k hk
    rw [← hs i, hw, Nat.testBit_two_pow_sub_one]
    exact decide_eq_true (by omega)
  · intro hgap
    apply Nat.eq_of_testBit_eq
    intro i
    rw [Nat.testBit_two_pow_sub_one, Bool.eq_iff_iff, hs i, decide_eq_true_iff]
    constructor
    · rintro ⟨j, -, hbit⟩
      have := hbits _ hbit
      omega
    · intro hi
      exact hgap h htop i (by omega)

lemma clog_eq_log_succ {d : ℕ} (h : 2 ≤ d) : Nat.clog 2 d = (d - 1).log2 + 1 := by
  have hne : d - 1 ≠ 0 := by omega
  have hlow : 2 ^ (d - 1).log2 ≤ d - 1 := Nat.log2_self_le hne
  have hhigh : d - 1 < 2 ^ ((d - 1).log2 + 1) := Nat.lt_log2_self
  apply le_antisymm
  · exact Nat.clog_le_of_le_pow (by omega)
  · rw [Nat.add_one_le_iff, Nat.lt_clog_iff_pow_lt (by omega)]
    omega

/-- **When the depth is right.** -/
lemma depthOf_eq_clog_iff (d : ℕ) : depthOf d = Nat.clog 2 d ↔ GapFree d := by
  by_cases hd : d ≤ 1
  · have hzero : d - 1 = 0 := by omega
    have hclog : Nat.clog 2 d = 0 := Nat.clog_of_right_le_one hd 2
    have hgap : GapFree d := by
      intro k hk
      simp [hzero] at hk
    simp only [depthOf, hd, hclog, if_true, hgap]
  · obtain ⟨w, hw, hs⟩ := exists_smearedPower d
    have hle := smearedPower_le (by omega : 0 < d) (Nat.le_pow_clog (by omega : 1 < 2) d)
    rw [hw, clog_eq_log_succ (by omega)] at hle
    rw [depthOf, if_neg hd, hw, clog_eq_log_succ (by omega),
      ← hs.eq_two_pow_sub_one_iff (Nat.log2_self_le (by omega)) Nat.lt_log2_self]
    have hlog : (w + 1).log2 = (d - 1).log2 + 1 ↔ 2 ^ ((d - 1).log2 + 1) ≤ w + 1 := by
      constructor
      · intro heq
        rw [← heq]
        exact Nat.log2_self_le (by omega)
      · intro hge
        have heq : w + 1 = 2 ^ ((d - 1).log2 + 1) := le_antisymm hle hge
        rw [heq, Nat.log2_two_pow]
    rw [hlog]
    omega

/-- Without gaps the bit trick gives the power of two. -/
lemma GapFree.two_pow_clog_le {d : ℕ} (hgap : GapFree d) : 2 ^ Nat.clog 2 d ≤ smearedPower d := by
  rw [← (depthOf_eq_clog_iff d).mpr hgap, depthOf]
  obtain ⟨w, hw, -⟩ := exists_smearedPower d
  split_ifs with hd
  · omega
  · exact Nat.log2_self_le (by omega)

/-! ## The root -/

section Root

variable {sha256 : Bytes → HashRoot}

lemma root_nil (d : ℕ) : MerkleTree.root (pair sha256) .zero d [] = zeroHashes sha256 d := by
  induction d with
  | zero => rfl
  | succ d ih =>
    rw [MerkleTree.root, List.take_nil, List.drop_nil, ih]
    rfl

/-- Chunks of padding do not change a root. -/
lemma root_append_replicate (d k : ℕ) (cs : List HashRoot) :
    MerkleTree.root (pair sha256) .zero d (cs ++ List.replicate k .zero) =
      MerkleTree.root (pair sha256) .zero d cs := by
  induction d generalizing cs k with
  | zero =>
    cases cs with
    | nil => cases k <;> rfl
    | cons c cs => rfl
  | succ d ih =>
    rw [MerkleTree.root, MerkleTree.root, List.take_append, List.drop_append, List.take_replicate,
      List.drop_replicate, ih, ih]

lemma sszRoot_eq (cs : List HashRoot) (limit : ℕ) :
    sszRoot sha256 cs limit = MerkleTree.root (pair sha256) .zero (Nat.clog 2 limit) cs :=
  root_append_replicate _ _ _

/-- What the loop leaves: the layer `d` above the chunks, or the precomputed hash if there are
none. -/
def climb (sha256 : Bytes → HashRoot) (d : ℕ) (cs : List HashRoot) : List HashRoot :=
  if cs = [] then [zeroHashes sha256 d] else MerkleTree.layers (pair sha256) .zero d cs

lemma climb_eq_root {d : ℕ} {cs : List HashRoot} (h : cs.length ≤ 2 ^ d) :
    climb sha256 d cs = [MerkleTree.root (pair sha256) .zero d cs] := by
  unfold climb
  split_ifs with hnil
  · rw [hnil, root_nil]
  · exact MerkleTree.layers_eq_root hnil h

/-- A tree that is one level too low leaves two chunks, if there are too many for it. -/
lemma length_climb_of_lt (sha256 : Bytes → HashRoot) {d : ℕ} {cs : List HashRoot}
    (hgt : 2 ^ d < cs.length) (hlen : cs.length ≤ 2 ^ (d + 1)) : (climb sha256 d cs).length = 2 := by
  have hne : cs ≠ [] := List.length_pos_iff.mp (by omega)
  obtain ⟨l, r, hlayers, -⟩ := MerkleTree.layers_eq_children (pair sha256) .zero hgt hlen
  rw [climb, if_neg hne, hlayers]
  rfl

/-- The end of `merkleize_impl` on whole chunks. -/
lemma flat_climb {cs : List HashRoot} {limit : ℕ} (h : cs.length ≤ limit) (hpos : limit ≠ 0) :
    (if limit = 1 then .ok (if cs.length = 1 then (flat cs).take 32 else HashRoot.zero.bytes)
      else if flat cs = [] then .ok (zeroHashes sha256 (depthOf limit)).bytes
      else merkleizeLayers sha256 (depthOf limit) 0 (flat cs)) =
      .ok (flat (climb sha256 (depthOf limit) cs)) := by
  rcases limit with _ | _ | limit
  · exact absurd rfl hpos
  · rcases cs with _ | ⟨c, _ | ⟨c', cs⟩⟩
    · rfl
    · have htake : c.bytes.take 32 = c.bytes := List.take_of_length_le (by simp)
      simp [climb, depthOf, MerkleTree.layers, htake]
    · simp at h
  · rcases cs with _ | ⟨c, cs⟩
    · simp [climb]
    · have hne : flat (c :: cs) ≠ [] := by simp [← List.length_pos_iff]
      simp [climb, -flat_cons, hne, merkleizeLayers_flat, zeroHashes]

/-- `merkleize_impl` on whole chunks.  A limit of 0 stands for their number. -/
lemma merkleizeImpl_flat (cs : List HashRoot) :
    merkleizeImpl sha256 (flat cs) 0 = .ok (flat (climb sha256 (depthOf cs.length) cs)) := by
  have hcount : (32 * cs.length + 31) / 32 = cs.length := by omega
  by_cases hnil : cs.length = 0
  · obtain rfl := List.length_eq_zero_iff.mp hnil
    rfl
  · simp only [merkleizeImpl, length_flat, hcount, ne_eq, not_true_eq_false, false_and, if_false,
      if_true, hnil]
    exact flat_climb le_rfl hnil

lemma merkleizeImpl_limit {cs : List HashRoot} {limit : ℕ} (h : cs.length ≤ limit)
    (hrange : smearedPower limit < 2 ^ 64) :
    merkleizeImpl sha256 (flat cs) limit = .ok (flat (climb sha256 (depthOf limit) cs)) := by
  by_cases hzero : limit = 0
  · obtain rfl : cs = [] := List.length_eq_zero_iff.mp (by omega)
    rw [hzero]
    exact merkleizeImpl_flat []
  · have hcount : (32 * cs.length + 31) / 32 = cs.length := by omega
    have hfit : ¬(limit ≠ 0 ∧ limit < cs.length) := by omega
    simp only [merkleizeImpl, length_flat, hcount, if_neg hfit, if_neg hzero, getDepth_eq,
      if_pos hrange]
    exact flat_climb h hzero

/-! ## The buffer -/

variable (prior : Bytes) (cs : List HashRoot)

lemma merkleize_append :
    merkleize sha256 (prior ++ flat cs) prior.length =
      .ok (prior ++ flat (climb sha256 (depthOf cs.length) cs)) := by
  rw [merkleize, List.drop_left, List.take_left, merkleizeImpl_flat]
  rfl

variable {prior cs} {num limit : ℕ}

lemma padTo32_append (halign : prior.length % 32 = 0) :
    padTo32 (prior ++ flat cs) = prior ++ flat cs := by
  have hmod : (prior ++ flat cs).length % 32 = 0 := by
    rw [List.length_append, length_flat]
    omega
  rw [padTo32, if_neg (by omega)]

lemma mixin_bytes (hnum : num < 2 ^ 64) :
    leBytes 8 num ++ List.replicate 24 0 = (lengthChunk num).bytes := by
  have hdiv : num / 256 ^ 8 = 0 := Nat.div_eq_of_lt (by omega)
  have hsplit := SszContainer.leBytes_add 8 24 num
  rw [hdiv, SszContainer.leBytes_zero] at hsplit
  exact hsplit.symm

lemma defaultHashFn_pair (l r : HashRoot) :
    defaultHashFn sha256 (l.bytes ++ r.bytes) = .ok (pair sha256 l r).bytes := by
  have h := defaultHashFn_flat sha256 .zero [l, r]
  simpa [oddPad, MerkleTree.layer] using h

lemma merkleizeWithMixin_append (halign : prior.length % 32 = 0) (hfit : cs.length ≤ limit)
    (hnum : num < 2 ^ 64) (hrange : smearedPower limit < 2 ^ 64) :
    merkleizeWithMixin sha256 (prior ++ flat cs) prior.length num limit =
      (defaultHashFn sha256 (flat (climb sha256 (depthOf limit) cs) ++
        (lengthChunk num).bytes)).map (prior ++ ·) := by
  simp only [merkleizeWithMixin, padTo32_append halign, List.drop_left, List.take_left,
    merkleizeImpl_limit hfit hrange, mixin_bytes hnum]
  rfl

/-- More chunks than the limit are refused. -/
lemma merkleizeWithMixin_over (halign : prior.length % 32 = 0) (hpos : 0 < limit)
    (hover : limit < cs.length) :
    merkleizeWithMixin sha256 (prior ++ flat cs) prior.length num limit =
      .error (.countGreaterThanLimit cs.length limit) := by
  have hcount : (32 * cs.length + 31) / 32 = cs.length := by omega
  have himpl : merkleizeImpl sha256 (flat cs) limit =
      .error (.countGreaterThanLimit cs.length limit) := by
    simp only [merkleizeImpl, length_flat, hcount]
    exact if_pos ⟨by omega, hover⟩
  simp only [merkleizeWithMixin, padTo32_append halign, List.drop_left, himpl]
  rfl

/-- A tree of the right depth has the root. -/
lemma merkleizeWithMixin_root (halign : prior.length % 32 = 0) (hfit : cs.length ≤ limit)
    (hnum : num < 2 ^ 64) (hrange : smearedPower limit < 2 ^ 64)
    (hcap : cs.length ≤ 2 ^ depthOf limit) :
    merkleizeWithMixin sha256 (prior ++ flat cs) prior.length num limit =
      .ok (prior ++ (pair sha256 (MerkleTree.root (pair sha256) .zero (depthOf limit) cs)
        (lengthChunk num)).bytes) := by
  rw [merkleizeWithMixin_append halign hfit hnum hrange, climb_eq_root hcap, flat_cons, flat_nil,
    List.append_nil, defaultHashFn_pair]
  rfl

/-! ## Where it goes wrong -/

/-- A tree of more than `2 ^ 63` leaves overflows. -/
lemma merkleizeWithMixin_overflow (halign : prior.length % 32 = 0) (hfit : cs.length ≤ limit)
    (hrange : ¬ smearedPower limit < 2 ^ 64) :
    merkleizeWithMixin sha256 (prior ++ flat cs) prior.length num limit = .error .overflow := by
  have hcount : (32 * cs.length + 31) / 32 = cs.length := by omega
  have hlarge : 1 < limit := by
    by_contra hle
    obtain rfl | rfl : limit = 0 ∨ limit = 1 := by omega
    · exact hrange (by decide)
    · exact hrange (by decide)
  have hfit' : ¬(limit ≠ 0 ∧ limit < cs.length) := by omega
  have hzero : limit ≠ 0 := by omega
  have hone : limit ≠ 1 := by omega
  have himpl : merkleizeImpl sha256 (flat cs) limit = .error .overflow := by
    simp only [merkleizeImpl, length_flat, hcount, if_neg hfit', if_neg hzero, if_neg hone,
      getDepth_eq, if_neg hrange]
    rfl
  simp only [merkleizeWithMixin, padTo32_append halign, List.drop_left, himpl]
  rfl

/-- A gap makes the tree one level too low. -/
lemma clog_eq_depthOf_succ {d : ℕ} (hgap : ¬GapFree d) : Nat.clog 2 d = depthOf d + 1 := by
  have hne : depthOf d ≠ Nat.clog 2 d := fun heq => hgap ((depthOf_eq_clog_iff d).mp heq)
  by_cases hd : d ≤ 1
  · rw [depthOf, if_pos hd, Nat.clog_of_right_le_one hd] at hne
    exact absurd rfl hne
  · obtain ⟨hle, hge⟩ := depthOf_bounds (by omega : 2 ≤ d)
    omega

lemma defaultHashFn_of_mod {src : Bytes} (h : src.length % 64 ≠ 0) :
    defaultHashFn sha256 src = .error .invalidBufferLength := by rw [defaultHashFn, if_pos h]

/-- The first round of the loop fails on a part of a chunk. -/
lemma merkleizeLayers_of_mod {input : Bytes} (h : input.length % 32 ≠ 0) (n i : ℕ) :
    merkleizeLayers sha256 (n + 1) i input = .error .invalidBufferLength := by
  rw [merkleizeLayers]
  by_cases hodd : input.length / 32 % 2 = 1
  · have hmod : (input ++ (zeroHashes sha256 i).bytes).length % 64 ≠ 0 := by
      rw [List.length_append, HashRoot.length_eq]
      omega
    simp only [hodd, if_true, defaultHashFn_of_mod hmod]
    rfl
  · have hmod : input.length % 64 ≠ 0 := by omega
    simp only [hodd, if_false, defaultHashFn_of_mod hmod]
    rfl

/-- In front of the index there have to be whole chunks. -/
lemma merkleizeWithMixin_misaligned (halign : prior.length % 32 ≠ 0) (out : Bytes) :
    merkleizeWithMixin sha256 (prior ++ flat cs) prior.length num limit ≠ .ok out := by
  -- the padding lands behind the chunks and is no whole chunk
  obtain ⟨p, hpos, hlt, hpad⟩ : ∃ p, 0 < p ∧ p < 32 ∧
      padTo32 (prior ++ flat cs) = prior ++ (flat cs ++ List.replicate p 0) := by
    have hmod : (prior ++ flat cs).length % 32 = prior.length % 32 := by
      rw [List.length_append, length_flat]
      omega
    refine ⟨32 - prior.length % 32, by omega, by omega, ?_⟩
    rw [padTo32, hmod, if_pos halign, List.append_assoc]
  have hlen : (flat cs ++ List.replicate p 0).length = 32 * cs.length + p := by simp
  have hcount : (32 * cs.length + p + 31) / 32 = cs.length + 1 := by omega
  simp only [merkleizeWithMixin, hpad, List.drop_left, merkleizeImpl, hlen, hcount]
  by_cases hsmall : limit ≠ 0 ∧ limit < cs.length + 1
  · rw [if_pos hsmall]
    intro hrun
    cases hrun
  rw [if_neg hsmall]
  obtain ⟨l, hl, hfit⟩ : ∃ l, (if limit = 0 then cs.length + 1 else limit) = l ∧
      cs.length + 1 ≤ l := by
    refine ⟨_, rfl, ?_⟩
    split_ifs with hzero <;> omega
  rw [hl, if_neg (by omega)]
  by_cases hone : l = 1
  · -- one chunk of room is filled by less than a chunk
    obtain rfl : cs = [] := List.length_eq_zero_iff.mp (by omega)
    have htake : (List.replicate p (0 : UInt8)).take 32 = List.replicate p 0 :=
      List.take_of_length_le (by simp; omega)
    have hmod : (List.replicate p 0 ++ (leBytes 8 num ++ List.replicate 24 0)).length % 64 ≠ 0 := by
      simp
      omega
    simp only [hone, if_true, List.length_nil, flat_nil, List.nil_append, htake, Except.bind,
      defaultHashFn_of_mod hmod, Except.map]
    intro hrun
    cases hrun
  · have hdepth : ∃ d, depthOf l = d + 1 := by
      have hle := le_smearedPower l
      refine ⟨depthOf l - 1, ?_⟩
      have hlog : 1 ≤ (smearedPower l).log2 := (Nat.le_log2 (by omega)).mpr (by omega)
      rw [depthOf, if_neg (by omega)]
      omega
    obtain ⟨d, hd⟩ := hdepth
    have hne : flat cs ++ List.replicate p 0 ≠ [] := by
      rw [← List.length_pos_iff, hlen]
      omega
    have hdepths : (if limit = 0 then .ok (depthOf (cs.length + 1)) else getDepth limit) =
        .ok (d + 1) ∨ (if limit = 0 then .ok (depthOf (cs.length + 1)) else getDepth limit) =
        .error .overflow := by
      rw [← hd, ← hl, getDepth_eq]
      split_ifs <;> simp
    rw [if_neg hone]
    rcases hdepths with hok | herror
    · simp only [hok, Except.bind, if_neg hne, merkleizeLayers_of_mod (by rw [hlen]; omega)]
      intro hrun
      cases hrun
    · simp only [herror]
      intro hrun
      cases hrun

/-- The hashes computed for a list: those of the tree the specification names, those of the tree
the code builds, and the two that mix in the length. -/
def mixedPairs (sha256 : Bytes → HashRoot) (cs : List HashRoot) (num limit : ℕ) :
    Set (HashRoot × HashRoot) :=
  {p | ∃ d ∈ [Nat.clog 2 limit, depthOf limit],
    p ∈ (MerkleTree.root (pair sha256) .zero d cs, lengthChunk num) ::
      MerkleTree.nodes (pair sha256) .zero d cs}

/-- SHA-256 has no collision among the hashes of a list, and no fixed point at its first chunks. -/
structure TreesApart (sha256 : Bytes → HashRoot) (cs : List HashRoot) (num limit : ℕ) : Prop where
  inj : ∀ p ∈ mixedPairs sha256 cs num limit, ∀ q ∈ mixedPairs sha256 cs num limit,
    pair sha256 p.1 p.2 = pair sha256 q.1 q.2 → p = q
  not_fixed : pair sha256 (cs.getD 0 .zero) (cs.getD 1 .zero) ≠ cs.getD 0 .zero

/-- A gap makes the list root a wrong one. -/
lemma merkleizeWithMixin_ne_of_gap (halign : prior.length % 32 = 0) (hfit : cs.length ≤ limit)
    (hnum : num < 2 ^ 64) (hrange : smearedPower limit < 2 ^ 64) (hgap : ¬GapFree limit)
    (hsha : TreesApart sha256 cs num limit) :
    merkleizeWithMixin sha256 (prior ++ flat cs) prior.length num limit ≠
      .ok (prior ++ (pair sha256 (sszRoot sha256 cs limit) (lengthChunk num)).bytes) := by
  have hclog := clog_eq_depthOf_succ hgap
  by_cases hcap : cs.length ≤ 2 ^ depthOf limit
  · -- one level is missing: the roots would have to collide
    rw [merkleizeWithMixin_root halign hfit hnum hrange hcap, sszRoot_eq]
    intro heq
    have hbytes := List.append_cancel_left (Except.ok.inj heq)
    have hpair := hsha.inj _ ⟨depthOf limit, by simp, List.mem_cons_self⟩ _
      ⟨Nat.clog 2 limit, by simp, List.mem_cons_self⟩ (HashRoot.ext hbytes)
    have hroots := (Prod.mk.inj hpair).1
    rw [hclog] at hroots
    refine hsha.not_fixed (MerkleTree.getD_eq_pair_of_root_eq hsha.inj ?_ ?_ hroots).symm
    · exact fun p hp => ⟨depthOf limit, by simp, List.mem_cons_of_mem _ hp⟩
    · exact fun p hp => ⟨Nat.clog 2 limit, by simp, List.mem_cons_of_mem _ (hclog ▸ hp)⟩
  · -- two chunks are left, and with the length they are no pairs
    have htop := hfit.trans (Nat.le_pow_clog (by omega : 1 < 2) limit)
    rw [hclog] at htop
    have htwo := length_climb_of_lt sha256 (by omega) htop
    rw [merkleizeWithMixin_append halign hfit hnum hrange, defaultHashFn_of_mod (by simp [htwo])]
    nofun

lemma merkleize_eq_iff :
    merkleize sha256 (prior ++ flat cs) prior.length =
      .ok (prior ++ (sszRoot sha256 cs cs.length).bytes) ↔ GapFree cs.length := by
  rw [merkleize_append, sszRoot_eq]
  have hcap := Nat.le_pow_clog (by omega : 1 < 2) cs.length
  constructor
  · intro heq
    by_contra hgap
    have hclog := clog_eq_depthOf_succ hgap
    have hgt : 2 ^ depthOf cs.length < cs.length := by
      rw [← Nat.lt_clog_iff_pow_lt (by omega)]
      omega
    have htwo := length_climb_of_lt sha256 hgt (by rwa [← hclog])
    have hbytes := congrArg List.length (List.append_cancel_left (Except.ok.inj heq))
    simp [htwo] at hbytes
  · intro hgap
    rw [← depthOf_eq_clog_iff] at hgap
    rw [hgap, climb_eq_root hcap]
    simp

/-! ## The theorem -/

/-- A limit without a gap does not overflow just if it is at most `2 ^ 63`. -/
lemma GapFree.range_iff (hgap : GapFree limit) : smearedPower limit < 2 ^ 64 ↔ limit ≤ 2 ^ 63 := by
  constructor
  · intro hrange
    by_contra hlarge
    have hclog : 64 ≤ Nat.clog 2 limit := by
      rw [← Nat.lt_iff_add_one_le (m := 63), Nat.lt_clog_iff_pow_lt (by omega)]
      omega
    have hpow : 2 ^ 64 ≤ 2 ^ Nat.clog 2 limit := Nat.pow_le_pow_right (by omega) hclog
    have := hgap.two_pow_clog_le
    omega
  · intro hlarge
    by_cases hzero : limit = 0
    · rw [hzero]
      decide
    · have := smearedPower_le (by omega : 0 < limit) hlarge
      omega

/-- **Merkleization yields the SSZ root**, for every buffer and every 64-bit limit, if the chunks
stand behind whole chunks, the limit has no gap, and it is at most `2 ^ 63`, so that the last addition
of `next_power_of_two` does not overflow.  If SHA-256 does not collide, this is also necessary.
`merkleize` yields the root just if the number of chunks has no gap. -/
theorem merkleization_correct_iff (sha256 : Bytes → HashRoot) (prior : Bytes) (cs : List HashRoot)
    (num limit : ℕ) (hfit : cs.length ≤ limit) (hnum : num < 2 ^ 64) :
    (prior.length % 32 = 0 ∧ GapFree limit ∧ limit ≤ 2 ^ 63 →
      merkleizeWithMixin sha256 (prior ++ flat cs) prior.length num limit =
        .ok (prior ++ (pair sha256 (sszRoot sha256 cs limit) (lengthChunk num)).bytes)) ∧
    (TreesApart sha256 cs num limit →
      merkleizeWithMixin sha256 (prior ++ flat cs) prior.length num limit =
        .ok (prior ++ (pair sha256 (sszRoot sha256 cs limit) (lengthChunk num)).bytes) →
      prior.length % 32 = 0 ∧ GapFree limit ∧ limit ≤ 2 ^ 63) ∧
    (merkleize sha256 (prior ++ flat cs) prior.length =
        .ok (prior ++ (sszRoot sha256 cs cs.length).bytes) ↔ GapFree cs.length) := by
  refine ⟨?_, fun hsha hroot => ?_, merkleize_eq_iff⟩
  · rintro ⟨halign, hgap, hlarge⟩
    have hdepth := (depthOf_eq_clog_iff limit).mpr hgap
    have hcap := hfit.trans (Nat.le_pow_clog (by omega : 1 < 2) limit)
    rw [merkleizeWithMixin_root halign hfit hnum (hgap.range_iff.mpr hlarge) (by rwa [hdepth]), hdepth,
      sszRoot_eq]
  · have halign : prior.length % 32 = 0 := by
      by_contra hne
      exact merkleizeWithMixin_misaligned hne _ hroot
    have hrange : smearedPower limit < 2 ^ 64 := by
      by_contra hover
      rw [merkleizeWithMixin_overflow halign hfit hover] at hroot
      cases hroot
    have hgap : GapFree limit := by
      by_contra hne
      exact merkleizeWithMixin_ne_of_gap halign hfit hnum hrange hne hsha hroot
    exact ⟨halign, hgap, hgap.range_iff.mp hrange⟩

/-- A hash that counts the levels of a tree in its first byte. -/
def levelHash (b : Bytes) : HashRoot := chunk [b.headD 0 + 1]

/-- A list of one chunk, with a limit of two. -/
theorem merkleization_correct_two :
    merkleizeWithMixin levelHash ([] ++ flat [.zero]) 0 1 2 =
      .ok ([] ++ (pair levelHash (sszRoot levelHash [.zero] 2) (lengthChunk 1)).bytes) := by
  refine (merkleization_correct_iff levelHash [] [.zero] 1 2 (by decide) (by decide)).1
    ⟨rfl, (depthOf_eq_clog_iff 2).mp ?_, by decide⟩
  exact (Nat.clog_eq_one le_rfl le_rfl).symm

lemma headD_pair_levelHash (l r : HashRoot) :
    (pair levelHash l r).bytes.headD 0 = l.bytes.headD 0 + 1 := by
  have hne : l.bytes ≠ [] := List.length_pos_iff.mp (by simp)
  obtain ⟨b, rest, hl⟩ := List.exists_cons_of_ne_nil hne
  simp [pair, levelHash, bytes_chunk, hl]

lemma headD_root_levelHash (d : ℕ) :
    (MerkleTree.root (pair levelHash) .zero d [.zero]).bytes.headD 0 = UInt8.ofNat d := by
  induction d with
  | zero => rfl
  | succ d ih =>
    have htake : [HashRoot.zero].take (2 ^ d) = [.zero] :=
      List.take_of_length_le Nat.one_le_two_pow
    rw [MerkleTree.root, headD_pair_levelHash, htake, ih, UInt8.ofNat_add]
    rfl

/-- One chunk with the limit `2 ^ 32 + 1`: the tree has 32 levels and not 33. -/
theorem limit_above_two_pow_32 :
    merkleizeWithMixin levelHash ([] ++ flat [.zero]) 0 1 (2 ^ 32 + 1) ≠
      .ok ([] ++
        (pair levelHash (sszRoot levelHash [.zero] (2 ^ 32 + 1)) (lengthChunk 1)).bytes) := by
  have hdepth : depthOf (2 ^ 32 + 1) = 32 := by decide +kernel
  have hrange : smearedPower (2 ^ 32 + 1) < 2 ^ 64 := by decide +kernel
  have hclog : Nat.clog 2 (2 ^ 32 + 1) = 33 := by
    rw [clog_eq_log_succ (by decide), Nat.add_sub_cancel, Nat.log2_two_pow]
  have hcap : [HashRoot.zero].length ≤ 2 ^ depthOf (2 ^ 32 + 1) := Nat.one_le_two_pow
  intro heq
  have hroot := (merkleizeWithMixin_root rfl (by decide) (by decide) hrange hcap).symm.trans heq
  rw [sszRoot_eq, hdepth, hclog] at hroot
  -- the first bytes count the levels
  have hhead := congrArg (List.headD · 0) (List.append_cancel_left (Except.ok.inj hroot))
  simp only [headD_pair_levelHash, headD_root_levelHash] at hhead
  exact absurd hhead (by decide)

end Root

end Pluto.Ssz
