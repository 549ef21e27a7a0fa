import Mathlib.Data.List.Basic
import Mathlib.Data.PNat.Defs

/-!
# The protobuf wire format

A message on the wire is a sequence of fields, each a positive field number with a varint or a
length-delimited payload.  `encode` writes such a sequence, `decode` reads it back.

What the users of a hash over these bytes need is `encode_append_zeros_inj`: the bytes determine
the fields even if zero bytes are appended to them.  A field is self-delimiting and starts with its
key; no key is zero, so a zero byte after the last field cannot be read as another one.

The second half is about messages.  `scalar`, `blob`, `embedded` and `repeated` write one field of a
message the way proto3 does, leaving out what has its default value; `scalarAt`, `blobAt` and
`blobsAt` read it back, skipping other numbers and letting the last value win.
-/

/-- A byte string. -/
abbrev Bytes : Type := List UInt8

/-! The numerals that field numbers and peers are written with. -/

namespace Numerals

scoped instance neZero_one : @NeZero ℕ Zero.ofOfNat0 1 := ⟨Nat.one_ne_zero⟩

scoped instance neZero_two : @NeZero ℕ Zero.ofOfNat0 2 := ⟨by decide⟩

scoped instance neZero_three : @NeZero ℕ Zero.ofOfNat0 3 := ⟨by decide⟩

scoped instance neZero_four : @NeZero ℕ Zero.ofOfNat0 4 := ⟨by decide⟩

end Numerals

namespace Wire

/-! ## Varints -/

/-- Seven bits a byte, least significant first; every byte but the last has its high bit set.
The fuel bounds the number of bytes. -/
def varintBytes : ℕ → ℕ → Bytes
  | 0, n => [UInt8.ofNat n]
  | fuel + 1, n =>
    if n < 128 then [UInt8.ofNat n] else UInt8.ofNat (n % 128 + 128) :: varintBytes fuel (n / 128)

/-- The varint of a number.  It has fewer bytes than the number has units. -/
def encodeVarint (n : ℕ) : Bytes := varintBytes n n

/-- Reads a varint off the front. -/
def readVarint : Bytes → Option (ℕ × Bytes)
  | [] => none
  | b :: bs =>
    if b.toNat < 128 then some (b.toNat, bs)
    else (readVarint bs).map fun (n, rest) => (b.toNat - 128 + 128 * n, rest)

lemma readVarint_varintBytes (rest : Bytes) :
    ∀ fuel n, n ≤ fuel → readVarint (varintBytes fuel n ++ rest) = some (n, rest) := by
  intro fuel
  induction fuel with
  | zero =>
    intro n hn
    obtain rfl : n = 0 := by omega
    simp [varintBytes, readVarint]
  | succ fuel ih =>
    intro n hn
    simp only [varintBytes]
    split_ifs with hlt
    · have hbyte : n % 256 = n := Nat.mod_eq_of_lt (by omega)
      simp [readVarint, hbyte, hlt]
    · have hbyte : (n % 128 + 128) % 256 = n % 128 + 128 := Nat.mod_eq_of_lt (by omega)
      have hge : ¬n % 128 + 128 < 128 := by omega
      have hn' : n % 128 + 128 * (n / 128) = n := Nat.mod_add_div n 128
      simp [readVarint, hbyte, hge, ih (n / 128) (by omega), hn']

@[simp] lemma readVarint_encodeVarint (n : ℕ) (rest : Bytes) :
    readVarint (encodeVarint n ++ rest) = some (n, rest) :=
  readVarint_varintBytes rest n n le_rfl

/-! ## Fields -/

/-- What a field carries. -/
inductive Payload
  | varint (n : ℕ)
  | bytes (b : Bytes)
  deriving DecidableEq, Repr

/-- A field: its number and its payload. -/
structure Field where
  number : ℕ+
  payload : Payload
  deriving DecidableEq

/-- Wire type zero is a varint, wire type two is length-delimited. -/
def encodeField (f : Field) : Bytes :=
  match f.payload with
  | .varint n => encodeVarint (f.number * 8) ++ encodeVarint n
  | .bytes b => encodeVarint (f.number * 8 + 2) ++ encodeVarint b.length ++ b

/-- Reads the payload for a wire type off the front. -/
def readPayload (wireType : ℕ) (bs : Bytes) : Option (Payload × Bytes) :=
  if wireType = 0 then (readVarint bs).map fun (n, rest) => (.varint n, rest)
  else if wireType = 2 then
    (readVarint bs).bind fun (n, rest) =>
      if n ≤ rest.length then some (.bytes (rest.take n), rest.drop n) else none
  else none

/-- Reads a field off the front; field number zero is invalid. -/
def readField (bs : Bytes) : Option (Field × Bytes) :=
  (readVarint bs).bind fun (key, rest) =>
    if h : 0 < key / 8 then
      (readPayload (key % 8) rest).map fun (p, rest) => (⟨⟨key / 8, h⟩, p⟩, rest)
    else none

@[simp] lemma readField_encodeField (f : Field) (rest : Bytes) :
    readField (encodeField f ++ rest) = some (f, rest) := by
  obtain ⟨⟨number, hpos⟩, payload⟩ := f
  cases payload with
  | varint n =>
    have hdiv : number * 8 / 8 = number := by omega
    have hkey : 8 ≤ number * 8 := by omega
    simp [readField, encodeField, readPayload, hdiv, hkey]
  | bytes b =>
    have hdiv : (number * 8 + 2) / 8 = number := by omega
    have hmod : (number * 8 + 2) % 8 = 2 := by omega
    have hkey : 6 ≤ number * 8 := by omega
    simp [readField, encodeField, readPayload, hdiv, hmod, hkey]

/-- Neither nothing nor a zero byte starts a field. -/
lemma readField_zeros (k : ℕ) : readField (List.replicate k 0) = none := by
  cases k with
  | zero => rfl
  | succ k => simp [readField, List.replicate_succ, readVarint]

/-- A sequence of fields, one after the other. -/
def encode (fs : List Field) : Bytes := fs.flatMap encodeField

@[simp] lemma encode_nil : encode [] = [] := rfl

@[simp] lemma encode_cons (f : Field) (fs : List Field) :
    encode (f :: fs) = encodeField f ++ encode fs := rfl

/-- **The bytes determine the fields, up to zero bytes at the end.** -/
theorem encode_append_zeros_inj {fs gs : List Field} {k l : ℕ}
    (h : encode fs ++ List.replicate k 0 = encode gs ++ List.replicate l 0) : fs = gs := by
  induction fs generalizing gs with
  | nil =>
    cases gs with
    | nil => rfl
    | cons g gs =>
      have hread := congrArg readField h
      rw [encode_cons, List.append_assoc, readField_encodeField, encode_nil, List.nil_append,
        readField_zeros] at hread
      exact absurd hread (by simp)
  | cons f fs ih =>
    have hread := congrArg readField h
    rw [encode_cons, List.append_assoc, readField_encodeField] at hread
    cases gs with
    | nil =>
      rw [encode_nil, List.nil_append, readField_zeros] at hread
      exact absurd hread (by simp)
    | cons g gs =>
      rw [encode_cons, List.append_assoc, readField_encodeField] at hread
      obtain ⟨rfl, hrest⟩ := Prod.mk.inj (Option.some.inj hread)
      rw [ih hrest]

/-! ## Reading a sequence of fields -/

/-- Reads fields until nothing is left; the fuel bounds their number. -/
def decodeFields : ℕ → Bytes → Option (List Field)
  | _, [] => some []
  | 0, _ :: _ => none
  | fuel + 1, bs => (readField bs).bind fun (f, rest) => (decodeFields fuel rest).map (f :: ·)

/-- Reads a message as a sequence of fields. -/
def decode (bs : Bytes) : Option (List Field) := decodeFields bs.length bs

lemma encodeField_ne_nil (f : Field) : encodeField f ≠ [] := by
  intro h
  have hread := readField_encodeField f []
  rw [h] at hread
  exact absurd hread (by simp [readField, readVarint])

lemma length_le_length_encode (fs : List Field) : fs.length ≤ (encode fs).length := by
  induction fs with
  | nil => simp
  | cons f fs ih =>
    have hpos : 0 < (encodeField f).length := List.length_pos_iff.mpr (encodeField_ne_nil f)
    simp only [encode_cons, List.length_append, List.length_cons]
    omega

lemma decodeFields_encode (fs : List Field) :
    ∀ fuel, fs.length ≤ fuel → decodeFields fuel (encode fs) = some fs := by
  induction fs with
  | nil =>
    intro fuel _
    cases fuel <;> rfl
  | cons f fs ih =>
    intro fuel hfuel
    obtain ⟨fuel, rfl⟩ : ∃ k, fuel = k + 1 := ⟨fuel - 1, by simp at hfuel; omega⟩
    obtain ⟨b, bs, hb⟩ := List.exists_cons_of_ne_nil (encodeField_ne_nil f)
    have hread := readField_encodeField f (encode fs)
    rw [encode_cons]
    rw [hb, List.cons_append] at hread ⊢
    simp [decodeFields, hread, ih fuel (by simpa using hfuel)]

/-- Reading what was written. -/
@[simp] theorem decode_encode (fs : List Field) : decode (encode fs) = some fs :=
  decodeFields_encode fs _ (length_le_length_encode fs)

/-! ## Fields of a message -/

/-- An integer field. -/
def scalar (n : ℕ+) (x : ℕ) : List Field := if x = 0 then [] else [⟨n, .varint x⟩]

/-- A string or bytes field. -/
def blob (n : ℕ+) (b : Bytes) : List Field := if b = [] then [] else [⟨n, .bytes b⟩]

/-- A message field, present even if the message is empty. -/
def embedded (n : ℕ+) (m : Option Bytes) : List Field := m.toList.map fun b => ⟨n, .bytes b⟩

/-- A repeated message field. -/
def repeated (n : ℕ+) (ms : List Bytes) : List Field := ms.map fun b => ⟨n, .bytes b⟩

/-- The integers under a number, in order. -/
def scalarsAt (n : ℕ+) (fs : List Field) : List ℕ :=
  fs.filterMap fun f =>
    match f.payload with
    | .varint x => if f.number = n then some x else none
    | .bytes _ => none

/-- The byte strings under a number, in order. -/
def blobsAt (n : ℕ+) (fs : List Field) : List Bytes :=
  fs.filterMap fun f =>
    match f.payload with
    | .varint _ => none
    | .bytes b => if f.number = n then some b else none

/-- The integer under a number; the last one wins, and none is zero. -/
def scalarAt (n : ℕ+) (fs : List Field) : ℕ := (scalarsAt n fs).getLastD 0

/-- The byte string under a number; the last one wins, and none is empty. -/
def blobAt (n : ℕ+) (fs : List Field) : Bytes := (blobsAt n fs).getLastD []

section At

variable (n m : ℕ+)

@[simp] lemma scalarsAt_append (fs gs : List Field) :
    scalarsAt n (fs ++ gs) = scalarsAt n fs ++ scalarsAt n gs := by simp [scalarsAt]

@[simp] lemma blobsAt_append (fs gs : List Field) :
    blobsAt n (fs ++ gs) = blobsAt n fs ++ blobsAt n gs := by simp [blobsAt]

@[simp] lemma scalarsAt_scalar (x : ℕ) :
    scalarsAt n (scalar m x) = if m = n ∧ x ≠ 0 then [x] else [] := by
  by_cases hx : x = 0 <;> by_cases hn : m = n <;> simp [scalar, scalarsAt, hx, hn]

@[simp] lemma scalarsAt_repeated (ms : List Bytes) : scalarsAt n (repeated m ms) = [] := by
  simp [repeated, scalarsAt]

@[simp] lemma scalarsAt_embedded (o : Option Bytes) : scalarsAt n (embedded m o) = [] :=
  scalarsAt_repeated n m o.toList

@[simp] lemma scalarsAt_blob (b : Bytes) : scalarsAt n (blob m b) = [] := by
  by_cases hb : b = [] <;> simp [blob, scalarsAt, hb]

@[simp] lemma blobsAt_scalar (x : ℕ) : blobsAt n (scalar m x) = [] := by
  by_cases hx : x = 0 <;> simp [scalar, blobsAt, hx]

@[simp] lemma blobsAt_repeated (ms : List Bytes) :
    blobsAt n (repeated m ms) = if m = n then ms else [] := by
  by_cases hn : m = n <;> simp [repeated, blobsAt, hn, List.filterMap_map]

@[simp] lemma blobsAt_embedded (o : Option Bytes) :
    blobsAt n (embedded m o) = if m = n then o.toList else [] := blobsAt_repeated n m o.toList

@[simp] lemma blobsAt_blob (b : Bytes) :
    blobsAt n (blob m b) = if m = n ∧ b ≠ [] then [b] else [] := by
  by_cases hb : b = [] <;> by_cases hn : m = n <;> simp [blob, blobsAt, hb, hn]

/-- Leaving out the default is harmless: it is what the reader falls back on. -/
@[simp] lemma getLast?_ite_getD {α : Type} [DecidableEq α] (x d : α) :
    (if x = d then [] else [x]).getLast?.getD d = x := by
  by_cases h : x = d <;> simp [h]

end At

/-! ## Integers and strings -/

/-- An `int64` as a varint: its two's complement. -/
def ofInt64 (x : Int64) : ℕ := x.toUInt64.toNat

def toInt64 (n : ℕ) : Int64 := (UInt64.ofNat n).toInt64

@[simp] lemma toInt64_ofInt64 (x : Int64) : toInt64 (ofInt64 x) = x := by
  simp [toInt64, ofInt64]

/-- An `int32` as a varint: sign-extended to 64 bits. -/
def ofInt32 (x : Int32) : ℕ := ofInt64 x.toInt64

def toInt32 (n : ℕ) : Int32 := (toInt64 n).toInt32

@[simp] lemma toInt32_ofInt32 (x : Int32) : toInt32 (ofInt32 x) = x := by
  simp [toInt32, ofInt32]

/-- The UTF-8 bytes of a string. -/
def utf8 (s : String) : Bytes := s.toByteArray.data.toList

def string? (b : Bytes) : Option String := String.fromUTF8? ⟨b.toArray⟩

@[simp] lemma string?_utf8 (s : String) : string? (utf8 s) = some s := by
  have hbytes : (⟨(utf8 s).toArray⟩ : ByteArray) = s.toByteArray := by simp [utf8]
  rw [string?, hbytes, String.fromUTF8?, dif_pos s.isValidUTF8]
  rfl

/-! ## Messages -/

/-- A message type: its fields, and how to read it from fields. -/
structure Codec (M : Type) where
  fields : M → List Field
  ofFields : List Field → Option M
  ofFields_fields : ∀ m, ofFields (fields m) = some m

namespace Codec

variable {M : Type} (c : Codec M)

def encode (m : M) : Bytes := Wire.encode (c.fields m)

def decode (b : Bytes) : Option M := (Wire.decode b).bind c.ofFields

@[simp] lemma decode_encode (m : M) : c.decode (c.encode m) = some m := by
  simp [decode, encode, c.ofFields_fields]

/-- Fields determine the message. -/
lemma fields_injective : Function.Injective c.fields := by
  intro m m' h
  have := congrArg c.ofFields h
  rw [c.ofFields_fields, c.ofFields_fields] at this
  exact Option.some.inj this

/-- Reads an optional message field. -/
def decode? (bs : List Bytes) : Option (Option M) :=
  match bs.getLast? with
  | none => some none
  | some b => (c.decode b).map some

@[simp] lemma decode?_toList (o : Option M) : c.decode? (o.map c.encode).toList = some o := by
  cases o <;> simp [decode?]

/-- Reads a repeated message field. -/
def decodeAll (bs : List Bytes) : Option (List M) := bs.mapM c.decode

@[simp] lemma decodeAll_map_encode (ms : List M) : c.decodeAll (ms.map c.encode) = some ms := by
  induction ms with
  | nil => rfl
  | cons m ms ih =>
    rw [decodeAll] at ih
    simp [decodeAll, ih]

end Codec

end Wire
