import Pluto.Lib.HashTree
import Pluto.Lib.Hex
import Pluto.Ssz.Merkleize

/-!
# Walking data into the hasher

The remaining operations of `HashWalker` that the cluster files use, and the helpers of
`crates/ssz/src/helpers.rs`.  An operation takes the buffer and returns the buffer.

Each of them puts the root of one tree behind the chunks that are there.  `Appends w P ts` says so for
a whole piece of code `w` and a list of trees `ts`, for the case that `w` succeeds, together with what
`w` has checked then; there is one rule for each way of putting code together, and one for each
operation.  So the hash of a structure is read
off its code: a `merkleize` over what was written since an index makes a container of it.
-/

namespace Pluto.Ssz

open Except (bind_ok_iff mapError_ok_iff)
open SszContainer (leBytes)

/-! ## Hexadecimal strings -/

/-- `hex::FromHexError`; the character and its position are left out. -/
inductive FromHexError
  | invalidHexCharacter
  | oddLength
  | invalidStringLength
  deriving DecidableEq, Repr

/-- `hex::decode` -/
def hexDecode (s : List Char) : Except FromHexError Bytes :=
  match Hex.decode s with
  | some bytes => .ok bytes
  | none =>
    if (Wire.utf8 (String.ofList s)).length % 2 = 1 then .error .oddLength
    else .error .invalidHexCharacter

def strip0x : List Char → List Char
  | '0' :: 'x' :: rest => rest
  | s => s

/-- Decodes a `0x`-prefixed hex string and enforces an exact byte length. -/
def from0xHexStr (s : String) (len : ℕ) : Except FromHexError Bytes :=
  if s = "" then .ok []
  else do
    let bytes ← hexDecode (strip0x s.toList)
    if bytes.length ≠ len then throw .invalidStringLength
    return bytes

/-- Encodes bytes as a `0x`-prefixed lowercase hex string. -/
def to0xHex (bytes : Bytes) : String :=
  if bytes = [] then "" else String.ofList ('0' :: 'x' :: Hex.encode bytes)

/-- Left-pads the input bytes with zeros up to `len`. -/
def leftPad (bytes : Bytes) (len : ℕ) : Bytes := List.replicate (len - bytes.length) 0 ++ bytes

/-! ## Operations -/

/-- `pluto_ssz::Error`; `function` is the field `namespace`. -/
inductive Error
  | incorrectListSize (function field : String) (actual expected : ℕ)
  | hashWalkerError (error : HasherError)
  | failedToConvertHexString (error : FromHexError)
  deriving DecidableEq, Repr

section Model

variable (sha256 : Bytes → HashRoot)

def putUint64 (buf : Bytes) (i : UInt64) : Except HasherError Bytes :=
  .ok (appendBytes32 buf (leBytes 8 i.toNat))

def putBool (buf : Bytes) (b : Bool) : Except HasherError Bytes :=
  .ok (buf ++ (if b then 1 else 0) :: List.replicate 31 0)

/-- Calculates the chunk limit used when merkleizing packed arrays. -/
def calculateLimit (maxCapacity numItems size : ℕ) : ℕ :=
  let limit := (min (maxCapacity * size) (2 ^ 64 - 1) + 31) / 32
  if limit ≠ 0 then limit else if numItems = 0 then 1 else numItems

def putUint64Array (buf : Bytes) (b : List UInt64) (maxCapacity : Option ℕ) :
    Except HasherError Bytes :=
  let filled := padTo32 (buf ++ b.flatMap fun i => leBytes 8 i.toNat)
  match maxCapacity with
  | some maxCapacity =>
    merkleizeWithMixin sha256 filled buf.length b.length (calculateLimit maxCapacity b.length 8)
  | none => merkleize sha256 filled buf.length

/-- Appends an SSZ byte list with the provided maximum size. -/
def putByteList (buf bytes : Bytes) (limit : ℕ) (field : String) : Except Error Bytes :=
  if limit < bytes.length then
    .error (.incorrectListSize "put_byte_list" field bytes.length limit)
  else
    (merkleizeWithMixin sha256 (appendBytes32 buf bytes) buf.length bytes.length
      ((limit + 31) / 32)).mapError .hashWalkerError

/-- Appends bytes as an SSZ fixed-size byte vector of length `n`. -/
def putBytesN (buf bytes : Bytes) (n : ℕ) : Except Error Bytes :=
  if n < bytes.length then .error (.incorrectListSize "put_bytes_n" "" bytes.length n)
  else (putBytes sha256 buf (leftPad bytes n)).mapError .hashWalkerError

/-- Appends fixed-size bytes decoded from a `0x`-prefixed hex string. -/
def putHexBytesN (buf : Bytes) (hex : String) (n : ℕ) : Except Error Bytes := do
  let bytes ← (from0xHexStr hex n).mapError .failedToConvertHexString
  (putBytes sha256 buf (leftPad bytes n)).mapError .hashWalkerError

end Model

/-! ## Trees of values -/

abbrev Tree : Type := HashTree HashRoot

namespace Tree

/-- `put_uint64` -/
def uint64 (i : UInt64) : Tree := .chunk (chunk (leBytes 8 i.toNat))

/-- `put_bool` -/
def bool (b : Bool) : Tree := .chunk (chunk [if b then 1 else 0])

/-- `put_bytes`: the chunks are a container of their own if there is more than one. -/
def bytes (b : Bytes) : Tree :=
  if b.length ≤ 32 then .chunk (chunk b) else .container ((chunks b).map .chunk)

/-- `put_byte_list` -/
def byteList (b : Bytes) (limit : ℕ) : Tree :=
  .list ((limit + 31) / 32) b.length ((chunks b).map .chunk)

/-- `put_uint64_array` -/
def uint64List (b : List UInt64) (maxCapacity : ℕ) : Tree :=
  .list (calculateLimit maxCapacity b.length 8) b.length
    ((chunks (b.flatMap fun i => leBytes 8 i.toNat)).map .chunk)

end Tree

/-! ### Shapes -/

section Shapes

open HashTree (SameShape SameShapes)

lemma sameShapes_chunks {cs cs' : List HashRoot} (h : cs.length = cs'.length) :
    SameShapes (cs.map HashTree.chunk) (cs'.map HashTree.chunk) :=
  SameShapes.map (f := HashTree.chunk) (fun _ _ _ _ => trivial) h

lemma chunk_inj {b b' : Bytes} (hlen : b.length = b'.length) (hle : b.length ≤ 32)
    (h : chunk b = chunk b') : b = b' := by
  have hbytes := congrArg HashRoot.bytes h
  rw [bytes_chunk, bytes_chunk, List.take_of_length_le hle, List.take_of_length_le (hlen ▸ hle),
    hlen] at hbytes
  exact List.append_cancel_right hbytes

lemma chunks_inj {b b' : Bytes} (hlen : b.length = b'.length) (h : chunks b = chunks b') :
    b = b' := by
  have hflat := congrArg flat h
  rw [chunks, chunks, flat_firstChunks _ _ (by omega), flat_firstChunks _ _ (by omega),
    hlen] at hflat
  exact List.append_cancel_right hflat

namespace Tree

lemma uint64_inj {i j : UInt64} (h : uint64 i = uint64 j) : i = j := by
  have hbytes := chunk_inj (by simp) (by simp) (HashTree.chunk.inj h)
  have hread := congrArg SszContainer.readLe hbytes
  rw [SszContainer.readLe_leBytes_of_lt i.toNat_lt, SszContainer.readLe_leBytes_of_lt j.toNat_lt]
    at hread
  exact UInt64.toNat_inj.mp hread

lemma bool_inj {b b' : Bool} (h : bool b = bool b') : b = b' := by
  have hbytes := chunk_inj (by simp) (by simp) (HashTree.chunk.inj h)
  cases b <;> cases b' <;> first | rfl | simp at hbytes

lemma bytes_sameShape {b b' : Bytes} (hlen : b.length = b'.length) :
    SameShape (bytes b) (bytes b') := by
  rw [bytes, bytes, ← hlen]
  split_ifs with hshort
  · trivial
  · exact sameShapes_chunks (by rw [length_chunks, length_chunks, hlen])

lemma bytes_inj {b b' : Bytes} (hlen : b.length = b'.length) (h : bytes b = bytes b') : b = b' := by
  rw [bytes, bytes, ← hlen] at h
  split_ifs at h with hshort
  · exact chunk_inj hlen hshort (HashTree.chunk.inj h)
  · have hchunks := List.map_injective_iff.mpr (fun _ _ => HashTree.chunk.inj)
      (HashTree.container.inj h)
    exact chunks_inj hlen hchunks

lemma byteList_sameShape (b b' : Bytes) (limit : ℕ) :
    SameShape (byteList b limit) (byteList b' limit) :=
  ⟨rfl, fun hlen => sameShapes_chunks (by rw [length_chunks, length_chunks, hlen])⟩

lemma byteList_inj {b b' : Bytes} {limit : ℕ} (h : byteList b limit = byteList b' limit) :
    b = b' := by
  obtain ⟨-, hlen, hchunks⟩ := HashTree.list.inj h
  exact chunks_inj hlen (List.map_injective_iff.mpr (fun _ _ => HashTree.chunk.inj) hchunks)

lemma length_flatMap_leBytes (b : List UInt64) :
    (b.flatMap fun i => leBytes 8 i.toNat).length = 8 * b.length := by
  induction b with
  | nil => rfl
  | cons i b ih =>
    simp only [List.flatMap_cons, List.length_append, SszContainer.length_leBytes, ih,
      List.length_cons]
    omega

lemma uint64List_sameShape (b b' : List UInt64) (maxCapacity : ℕ) (hpos : 4 ≤ maxCapacity) :
    SameShape (uint64List b maxCapacity) (uint64List b' maxCapacity) := by
  have hlimit : ∀ n, calculateLimit maxCapacity n 8 =
      (min (maxCapacity * 8) (2 ^ 64 - 1) + 31) / 32 := by
    intro n
    simp only [calculateLimit]
    exact if_pos (by omega)
  refine ⟨by rw [hlimit, hlimit], fun hlen => sameShapes_chunks ?_⟩
  rw [length_chunks, length_chunks, length_flatMap_leBytes, length_flatMap_leBytes, hlen]

lemma flatMap_leBytes_inj {b b' : List UInt64}
    (h : (b.flatMap fun i => leBytes 8 i.toNat) = b'.flatMap fun i => leBytes 8 i.toNat) :
    b = b' := by
  have hlen := congrArg List.length h
  rw [length_flatMap_leBytes, length_flatMap_leBytes] at hlen
  induction b generalizing b' with
  | nil =>
    rw [List.length_nil] at hlen
    exact (List.length_eq_zero_iff.mp (by omega)).symm
  | cons i b ih =>
    cases b' with
    | nil => simp at hlen
    | cons j b' =>
      obtain ⟨hhead, htail⟩ := List.append_inj h (by simp)
      have hread := congrArg SszContainer.readLe hhead
      rw [SszContainer.readLe_leBytes_of_lt i.toNat_lt,
        SszContainer.readLe_leBytes_of_lt j.toNat_lt] at hread
      rw [UInt64.toNat_inj.mp hread, ih htail (by simp at hlen ⊢; omega)]

lemma uint64List_inj {b b' : List UInt64} {maxCapacity : ℕ}
    (h : uint64List b maxCapacity = uint64List b' maxCapacity) : b = b' := by
  obtain ⟨-, hlen, hchunks⟩ := HashTree.list.inj h
  have hbytes := chunks_inj (by rw [length_flatMap_leBytes, length_flatMap_leBytes, hlen])
    (List.map_injective_iff.mpr (fun _ _ => HashTree.chunk.inj) hchunks)
  exact flatMap_leBytes_inj hbytes

end Tree

end Shapes

lemma lengthChunk_injOn : Set.InjOn lengthChunk {n | n < 2 ^ 64} := by
  intro n hn m hm h
  have hread := congrArg (fun c => SszContainer.readLe c.bytes) h
  have hbound : ∀ {k : ℕ}, k < 2 ^ 64 → k < 256 ^ 32 := fun hk => hk.trans (by decide)
  simpa only [lengthChunk, SszContainer.readLe_leBytes_of_lt (hbound hn),
    SszContainer.readLe_leBytes_of_lt (hbound hm)] using hread

/-- How the hasher hashes trees. -/
def scheme (sha256 : Bytes → HashRoot) : HashTree.Scheme HashRoot where
  pair := pair sha256
  zero := .zero
  length := lengthChunk
  lengths := {n | n < 2 ^ 64}
  length_injOn := lengthChunk_injOn

/-! ## Code that appends trees -/

section Appends

variable {ε ε' : Type} (sha256 : Bytes → HashRoot)

/-- If `w` succeeds on a buffer of whole chunks, then `P` holds, the lists in `ts` fit their limits,
and the roots of `ts` were put behind the chunks. -/
def Appends (w : Bytes → Except ε Bytes) (P : Prop) (ts : List Tree) : Prop :=
  ∀ cs buf, w (flat cs) = .ok buf →
    P ∧ HashTree.AllFit (scheme sha256) ts ∧ buf = flat (cs ++ HashTree.roots (scheme sha256) ts)

variable {sha256} {w v : Bytes → Except ε Bytes} {P Q : Prop} {ts ts' : List Tree}

lemma Appends.imp (hw : Appends sha256 w P ts) (h : P → Q) : Appends sha256 w Q ts :=
  fun cs buf hrun => (hw cs buf hrun).imp_left h

lemma Appends.nothing : Appends sha256 (fun buf => (.ok buf : Except ε Bytes)) True [] := by
  intro cs buf h
  obtain rfl := Except.ok.inj h
  exact ⟨trivial, trivial, by simp [HashTree.roots]⟩

lemma Appends.bind (hw : Appends sha256 w P ts) (hv : Appends sha256 v Q ts') :
    Appends sha256 (fun buf => w buf >>= v) (P ∧ Q) (ts ++ ts') := by
  intro cs buf h
  obtain ⟨buf', hfirst, hsecond⟩ := bind_ok_iff.mp h
  obtain ⟨hp, hfit, rfl⟩ := hw cs buf' hfirst
  obtain ⟨hq, hfit', rfl⟩ := hv _ buf hsecond
  rw [HashTree.allFit_iff] at *
  exact ⟨⟨hp, hq⟩, fun t ht => (List.mem_append.mp ht).elim (hfit t) (hfit' t), by simp⟩

/-- Computing something without the buffer first. -/
lemma Appends.after {α : Type} {x : Except ε α} {w : α → Bytes → Except ε Bytes}
    (h : ∀ a, x = .ok a → Appends sha256 (w a) P ts) :
    Appends sha256 (fun buf => x >>= fun a => w a buf) P ts := by
  intro cs buf hrun
  obtain ⟨a, ha, hw⟩ := bind_ok_iff.mp hrun
  exact h a ha cs buf hw

lemma Appends.mapError {w : Bytes → Except ε' Bytes} (hw : Appends sha256 w P ts) (f : ε' → ε) :
    Appends sha256 (fun buf => (w buf).mapError f) P ts :=
  fun cs buf h => hw cs buf (mapError_ok_iff.mp h)

/-- A loop over a list. -/
lemma Appends.foldlM {α : Type} {step : Bytes → α → Except ε Bytes} {P : α → Prop}
    {tree : α → List Tree} (hstep : ∀ a, Appends sha256 (fun buf => step buf a) (P a) (tree a))
    (l : List α) :
    Appends sha256 (fun buf => l.foldlM step buf) (∀ a ∈ l, P a) (l.flatMap tree) := by
  induction l with
  | nil => exact Appends.nothing.imp fun _ => nofun
  | cons a l ih =>
    have h := Appends.bind (hstep a) ih
    simpa only [List.foldlM_cons, List.flatMap_cons, List.forall_mem_cons] using h

/-- The number of fields of a container is far below the limit of the bit trick. -/
lemma depthOf_of_le {d : ℕ} (h : d ≤ 2 ^ 32) : depthOf d = Nat.clog 2 d := by
  rw [depthOf_eq_clog_iff]
  intro k hk i hi
  refine ⟨k - i, ?_, by rwa [Nat.add_sub_cancel' hi]⟩
  have hlt : k < 32 := by
    by_contra hge
    have hpow : 2 ^ 32 ≤ 2 ^ k := Nat.pow_le_pow_right (by omega) (by omega)
    have hpos : 0 < d := by
      by_contra hzero
      obtain rfl : d = 0 := by omega
      simp at hk
    rw [Nat.testBit_lt_two_pow (by omega)] at hk
    cases hk
  omega

/-- `merkleize` over what was written since the index makes a container of it. -/
lemma Appends.container (hw : Appends sha256 w P ts) (hlen : ts.length ≤ 2 ^ 32)
    (f : HasherError → ε) :
    Appends sha256 (fun buf => w buf >>= fun buf' => (merkleize sha256 buf' buf.length).mapError f)
      P [.container ts] := by
  intro cs buf h
  obtain ⟨buf', hbody, hroot⟩ := bind_ok_iff.mp h
  obtain ⟨hp, hfit, rfl⟩ := hw cs buf' hbody
  refine ⟨hp, ⟨hfit, trivial⟩, ?_⟩
  have hcap : (HashTree.roots (scheme sha256) ts).length ≤ 2 ^ Nat.clog 2 ts.length := by
    rw [HashTree.length_roots]
    exact Nat.le_pow_clog (by omega) _
  rw [mapError_ok_iff, flat_append, merkleize_append, HashTree.length_roots,
    depthOf_of_le hlen, climb_eq_root hcap] at hroot
  obtain rfl := Except.ok.inj hroot
  simp [HashTree.roots, HashTree.root, scheme]

/-- `merkleize_with_mixin` over what was written since the index makes a list of it. -/
lemma Appends.list (hw : Appends sha256 w P ts) {num limit : ℕ} (hpos : 0 < limit)
    (hlimit : limit ≤ 2 ^ 32) (hnum : ts.length ≤ limit → num < 2 ^ 64) (f : HasherError → ε) :
    Appends sha256
      (fun buf => w buf >>= fun buf' =>
        (merkleizeWithMixin sha256 buf' buf.length num limit).mapError f)
      P [.list limit num ts] := by
  intro cs buf h
  obtain ⟨buf', hbody, hroot⟩ := bind_ok_iff.mp h
  obtain ⟨hp, hfit, rfl⟩ := hw cs buf' hbody
  have halign : (flat cs).length % 32 = 0 := by simp
  rw [mapError_ok_iff, flat_append] at hroot
  -- more elements than the limit are refused
  have hcount : (HashTree.roots (scheme sha256) ts).length ≤ limit := by
    by_contra hgt
    rw [merkleizeWithMixin_over halign hpos (by omega)] at hroot
    cases hroot
  have hcap := hcount.trans (Nat.le_pow_clog (by omega : 1 < 2) limit)
  replace hnum : num < 2 ^ 64 := hnum (by rwa [HashTree.length_roots] at hcount)
  have hrange : smearedPower limit < 2 ^ 64 :=
    (smearedPower_le hpos hlimit).trans_lt (by norm_num)
  rw [merkleizeWithMixin_root halign hcount hnum hrange (by rwa [depthOf_of_le hlimit]),
    depthOf_of_le hlimit] at hroot
  obtain rfl := Except.ok.inj hroot
  refine ⟨hp, ⟨⟨?_, hnum, hfit⟩, trivial⟩, by simp [HashTree.roots, HashTree.root, scheme]⟩
  rwa [HashTree.length_roots] at hcap

/-! ### The operations -/

variable {b : Bytes}

lemma flat_append_chunk (cs : List HashRoot) (hne : b ≠ []) (hlen : b.length ≤ 32) :
    appendBytes32 (flat cs) b = flat (cs ++ [chunk b]) := by
  have hpos := List.length_pos_iff.mpr hne
  have htake : b.take 32 = b := List.take_of_length_le hlen
  rw [appendBytes32, flat_append, flat_cons, flat_nil, List.append_nil, bytes_chunk, htake, padTo32]
  have hmod : (flat cs ++ b).length % 32 = b.length % 32 := by
    rw [List.length_append, length_flat]
    omega
  split_ifs with h
  · rw [List.append_assoc, hmod, Nat.mod_eq_of_lt (by omega)]
  · have hfull : b.length = 32 := by omega
    rw [hfull, Nat.sub_self, List.replicate_zero, List.append_nil]

lemma flat_append_chunks (cs : List HashRoot) (b : Bytes) :
    padTo32 (flat cs ++ b) = flat (cs ++ chunks b) := by
  rw [flat_append, flat_chunks, padTo32, padTo32]
  have hmod : (flat cs ++ b).length % 32 = b.length % 32 := by
    rw [List.length_append, length_flat]
    omega
  rw [hmod]
  split_ifs with h
  · rw [List.append_assoc]
  · rfl

lemma roots_chunks (cs : List HashRoot) :
    HashTree.roots (scheme sha256) (cs.map .chunk) = cs := by
  rw [HashTree.roots_eq_map, List.map_map]
  exact List.map_id cs

lemma allFit_chunks (cs : List HashRoot) :
    HashTree.AllFit (scheme sha256) (cs.map HashTree.chunk) := by
  rw [HashTree.allFit_iff]
  intro t ht
  obtain ⟨c, -, rfl⟩ := List.mem_map.mp ht
  trivial

lemma appends_putUint64 (i : UInt64) :
    Appends sha256 (fun buf => putUint64 buf i) True [Tree.uint64 i] := by
  intro cs buf h
  obtain rfl := Except.ok.inj h
  refine ⟨trivial, ⟨trivial, trivial⟩, flat_append_chunk cs ?_ (by simp)⟩
  exact List.length_pos_iff.mp (by simp)

lemma appends_putBool (b : Bool) :
    Appends sha256 (fun buf => putBool buf b) True [Tree.bool b] := by
  intro cs buf h
  obtain rfl := Except.ok.inj h
  refine ⟨trivial, ⟨trivial, trivial⟩, ?_⟩
  rw [flat_append]
  cases b <;> rfl

variable (sha256) in
/-- Writing bytes, chunk by chunk. -/
lemma appends_append (b : Bytes) :
    Appends sha256 (fun buf => (.ok (appendBytes32 buf b) : Except ε Bytes)) True
      ((chunks b).map .chunk) := by
  intro cs buf h
  obtain rfl := Except.ok.inj h
  exact ⟨trivial, allFit_chunks _, by rw [roots_chunks, appendBytes32, flat_append_chunks]⟩

lemma appends_putBytes (hne : b ≠ []) (hlen : b.length ≤ 2 ^ 32) :
    Appends sha256 (fun buf => putBytes sha256 buf b) True [Tree.bytes b] := by
  by_cases hshort : b.length ≤ 32
  · intro cs buf h
    simp only [putBytes, if_pos hshort] at h
    obtain rfl := Except.ok.inj h
    rw [Tree.bytes, if_pos hshort]
    exact ⟨trivial, ⟨trivial, trivial⟩, flat_append_chunk cs hne hshort⟩
  · have hcount : ((chunks b).map HashTree.chunk).length ≤ 2 ^ 32 := by
      rw [List.length_map, length_chunks]
      omega
    have h := (appends_append (ε := HasherError) sha256 b).container hcount id
    rw [Tree.bytes, if_neg hshort]
    intro cs buf hput
    simp only [putBytes, if_neg hshort] at hput
    exact h cs buf (mapError_ok_iff.mpr hput)

lemma appends_putUint64Array {b : List UInt64} {maxCapacity : ℕ} (hpos : 0 < maxCapacity)
    (hcap : maxCapacity ≤ 2 ^ 32) :
    Appends sha256 (fun buf => putUint64Array sha256 buf b (some maxCapacity)) True
      [Tree.uint64List b maxCapacity] := by
  have hlimit : 0 < calculateLimit maxCapacity b.length 8 ∧
      calculateLimit maxCapacity b.length 8 ≤ 2 ^ 32 := by
    unfold calculateLimit
    dsimp only
    split_ifs <;> omega
  have hlen : ((chunks (b.flatMap fun i => leBytes 8 i.toNat)).map HashTree.chunk).length ≤
      calculateLimit maxCapacity b.length 8 → b.length < 2 ^ 64 := by
    rw [List.length_map, length_chunks, Tree.length_flatMap_leBytes]
    omega
  have h := (appends_append (ε := HasherError) sha256
    (b.flatMap fun i => leBytes 8 i.toNat)).list hlimit.1 hlimit.2 hlen id
  intro cs buf hput
  exact h cs buf (mapError_ok_iff.mpr hput)

lemma appends_putByteList {limit : ℕ} (hpos : 0 < limit) (hlimit : limit ≤ 2 ^ 32)
    (field : String) :
    Appends sha256 (fun buf => putByteList sha256 buf b limit field) True
      [Tree.byteList b limit] := by
  intro cs buf hput
  by_cases hover : limit < b.length
  · simp only [putByteList, if_pos hover] at hput
    cases hput
  · have h := (appends_append (ε := Error) sha256 b).list (by omega : 0 < (limit + 31) / 32)
      (by omega) (fun _ => (by omega : b.length < 2 ^ 64)) .hashWalkerError
    simp only [putByteList, if_neg hover] at hput
    exact h cs buf hput

lemma length_leftPad {n : ℕ} (h : b.length ≤ n) : (leftPad b n).length = n := by
  simp [leftPad]
  omega

lemma leftPad_of_length {n : ℕ} (h : b.length = n) : leftPad b n = b := by
  simp [leftPad, h]

lemma appends_putBytesN {n : ℕ} (hpos : 0 < n) (hlen : n ≤ 2 ^ 32) :
    Appends sha256 (fun buf => putBytesN sha256 buf b n) (b.length ≤ n)
      [Tree.bytes (leftPad b n)] := by
  intro cs buf hput
  by_cases hover : n < b.length
  · simp only [putBytesN, if_pos hover] at hput
    cases hput
  · have hn : (leftPad b n).length = n := length_leftPad (by omega)
    have hne : leftPad b n ≠ [] := List.length_pos_iff.mp (by omega)
    simp only [putBytesN, if_neg hover] at hput
    refine ⟨by omega, ?_⟩
    exact (((appends_putBytes hne (by omega)).mapError _) cs buf hput).2

/-- The bytes that a hexadecimal string is hashed as. -/
def hexBytes (hex : String) (n : ℕ) : Bytes := leftPad ((from0xHexStr hex n).toOption.getD []) n

lemma length_from0xHexStr {hex : String} {n : ℕ} (h : from0xHexStr hex n = .ok b) :
    b.length ≤ n := by
  unfold from0xHexStr at h
  split_ifs at h with hempty
  · obtain rfl := Except.ok.inj h
    exact Nat.zero_le n
  · obtain ⟨b', -, hb⟩ := bind_ok_iff.mp h
    by_cases hn : b'.length = n
    · rw [if_neg (not_not.mpr hn)] at hb
      obtain rfl : b' = b := Except.pure_ok_iff.mp hb
      exact hn.le
    · rw [if_pos hn] at hb
      cases hb

lemma length_hexBytes (hex : String) (n : ℕ) : (hexBytes hex n).length = n := by
  apply length_leftPad
  cases hb : from0xHexStr hex n with
  | ok b => exact length_from0xHexStr hb
  | error e => exact Nat.zero_le n

lemma appends_putHexBytesN {hex : String} {n : ℕ} (hpos : 0 < n) (hlen : n ≤ 2 ^ 32) :
    Appends sha256 (fun buf => putHexBytesN sha256 buf hex n) True
      [Tree.bytes (hexBytes hex n)] := by
  intro cs buf hput
  obtain ⟨b, hb, hput⟩ := bind_ok_iff.mp hput
  rw [mapError_ok_iff] at hb
  have hn : (leftPad b n).length = n := length_leftPad (length_from0xHexStr hb)
  have hne : leftPad b n ≠ [] := List.length_pos_iff.mp (by omega)
  have htree : hexBytes hex n = leftPad b n := by rw [hexBytes, hb]; rfl
  rw [htree]
  exact ((appends_putBytes hne (by omega)).mapError _) cs buf hput

end Appends

end Pluto.Ssz
