import Mathlib.Algebra.BigOperators.Group.List.Basic
import Mathlib.Tactic.Ring
import Pluto.Lib.Fallible
import Pluto.Lib.Wire

/-!
# SSZ containers

The layout of an SSZ container.  A field of fixed length stands in the head of the container; of any
other field the head holds a four-byte offset, and the bytes stand in the tail, in the order of the
fields.  `join` lays out the parts of a container.  `split` takes one apart the way a strict decoder
does: the first offset has to point right behind the head, offsets may not decrease, and there is
nothing left over if there is no tail.  `split_join` is the round trip.

A `Codec` is an encoder with its decoder and what ties them together, for the values it is meant for.
`Fields` is the same for the fields of a container; `Fields.container` turns them into a codec.
-/

namespace SszContainer

/-! ## Little-endian numbers -/

/-- A number in `width` bytes, least significant first. -/
def leBytes : ℕ → ℕ → Bytes
  | 0, _ => []
  | width + 1, n => UInt8.ofNat n :: leBytes width (n / 256)

def readLe : Bytes → ℕ
  | [] => 0
  | b :: bs => b.toNat + 256 * readLe bs

@[simp] lemma length_leBytes (width n : ℕ) : (leBytes width n).length = width := by
  induction width generalizing n with
  | zero => rfl
  | succ width ih => simp [leBytes, ih]

lemma readLe_leBytes (width n : ℕ) : readLe (leBytes width n) = n % 256 ^ width := by
  induction width generalizing n with
  | zero => simp [leBytes, readLe, Nat.mod_one]
  | succ width ih =>
    simp only [leBytes, readLe, ih, UInt8.toNat_ofNat', Nat.reducePow]
    rw [pow_succ', Nat.mod_mul]

lemma readLe_leBytes_of_lt {width n : ℕ} (h : n < 256 ^ width) :
    readLe (leBytes width n) = n := by
  rw [readLe_leBytes, Nat.mod_eq_of_lt h]

lemma leBytes_readLe (bytes : Bytes) : leBytes bytes.length (readLe bytes) = bytes := by
  induction bytes with
  | nil => rfl
  | cons b bs ih =>
    have hb := b.toNat_lt
    have hdiv : (b.toNat + 256 * readLe bs) / 256 = readLe bs := by omega
    have hlow : UInt8.ofNat (b.toNat + 256 * readLe bs) = b := by
      refine UInt8.toNat_inj.mp ?_
      rw [UInt8.toNat_ofNat']
      omega
    rw [List.length_cons, readLe, leBytes, hdiv, hlow, ih]

lemma readLe_lt (bytes : Bytes) : readLe bytes < 256 ^ bytes.length := by
  induction bytes with
  | nil => simp [readLe]
  | cons b bs ih =>
    have hb := b.toNat_lt
    rw [readLe, List.length_cons, pow_succ']
    omega

/-- The low bytes of a number are the number modulo a power. -/
lemma take_leBytes {width k : ℕ} (h : k ≤ width) (n : ℕ) :
    (leBytes width n).take k = leBytes k n := by
  induction k generalizing width n with
  | zero => simp [leBytes]
  | succ k ih =>
    obtain ⟨width, rfl⟩ : ∃ w, width = w + 1 := ⟨width - 1, by omega⟩
    simp [leBytes, ih (show k ≤ width by omega)]

lemma leBytes_zero (width : ℕ) : leBytes width 0 = List.replicate width 0 := by
  induction width with
  | zero => rfl
  | succ width ih =>
    rw [leBytes, Nat.zero_div, ih]
    rfl

lemma leBytes_add (width k n : ℕ) :
    leBytes (width + k) n = leBytes width n ++ leBytes k (n / 256 ^ width) := by
  induction width generalizing n with
  | zero => simp [leBytes]
  | succ width ih =>
    rw [Nat.add_right_comm, leBytes, ih, leBytes, List.cons_append, Nat.div_div_eq_div_mul,
      ← pow_succ']

/-! ## Laying out a container -/

/-- Whether a field has a fixed length. -/
inductive Kind
  | fixed (len : ℕ)
  | dynamic
  deriving DecidableEq, Repr

/-- The bytes of a field. -/
inductive Part
  | fixed (bytes : Bytes)
  | dynamic (bytes : Bytes)

/-- What a field takes in the head. -/
def Kind.headLen : Kind → ℕ
  | fixed len => len
  | dynamic => 4

def headLen (kinds : List Kind) : ℕ := (kinds.map Kind.headLen).sum

@[simp] lemma headLen_nil : headLen [] = 0 := rfl

@[simp] lemma headLen_cons (kind : Kind) (kinds : List Kind) :
    headLen (kind :: kinds) = kind.headLen + headLen kinds := by
  simp [headLen]

namespace Part

def kind : Part → Kind
  | fixed bytes => .fixed bytes.length
  | dynamic _ => .dynamic

def bytes : Part → Bytes
  | fixed bytes | dynamic bytes => bytes

end Part

/-- The head of a container whose tail continues at `offset`. -/
def heads : ℕ → List Part → Bytes
  | _, [] => []
  | offset, .fixed bytes :: parts => bytes ++ heads offset parts
  | offset, .dynamic bytes :: parts => leBytes 4 offset ++ heads (offset + bytes.length) parts

def tails : List Part → Bytes
  | [] => []
  | .fixed _ :: parts => tails parts
  | .dynamic bytes :: parts => bytes ++ tails parts

def join (parts : List Part) : Bytes := heads (headLen (parts.map Part.kind)) parts ++ tails parts

lemma length_heads (offset : ℕ) (parts : List Part) :
    (heads offset parts).length = headLen (parts.map Part.kind) := by
  induction parts generalizing offset with
  | nil => rfl
  | cons part parts ih => cases part <;> simp [heads, ih, Part.kind, Kind.headLen]

lemma length_join (parts : List Part) :
    (join parts).length = headLen (parts.map Part.kind) + (tails parts).length := by
  rw [join, List.length_append, length_heads]

/-! ## Taking a container apart -/

inductive DecodeError
  | invalidByteLength (len expected : ℕ)
  | invalidLengthPrefix (len expected : ℕ)
  | offsetIntoFixedPortion (offset : ℕ)
  | offsetSkipsVariableBytes (offset : ℕ)
  | offsetsAreDecreasing (offset : ℕ)
  | offsetOutOfBounds (offset : ℕ)
  | bytesInvalid (message : String)
  deriving DecidableEq, Repr

def readOffset (bytes : Bytes) : Except DecodeError ℕ :=
  if bytes.length < 4 then .error (.invalidLengthPrefix bytes.length 4)
  else .ok (readLe (bytes.take 4))

def sanitizeOffset (offset : ℕ) (previous : Option ℕ) (total : ℕ) : Except DecodeError ℕ :=
  if total < offset then .error (.offsetOutOfBounds offset)
  else if offset < previous.getD 0 then .error (.offsetsAreDecreasing offset)
  else .ok offset

/-- What the head says about a field. -/
inductive Item
  | slice (bytes : Bytes)
  | offset (offset : ℕ)

/-- Reads the head from `index` on, with the offset read last.  Also returns where the head ends. -/
def register (bytes : Bytes) : List Kind → ℕ → Option ℕ → Except DecodeError (List Item × ℕ)
  | [], index, _ => .ok ([], index)
  | .fixed len :: kinds, index, previous =>
    if index + len ≤ bytes.length then do
      let rest ← register bytes kinds (index + len) previous
      pure (.slice ((bytes.drop index).take len) :: rest.1, rest.2)
    else .error (.invalidByteLength bytes.length (index + len))
  | .dynamic :: kinds, index, previous => do
    let read ← readOffset (bytes.drop index)
    let offset ← sanitizeOffset read previous bytes.length
    let rest ← register bytes kinds (index + 4) (some offset)
    pure (.offset offset :: rest.1, rest.2)

/-- The first offset among items, or `total`: where the tail before them ends. -/
def nextOffset (total : ℕ) : List Item → ℕ
  | [] => total
  | .slice _ :: items => nextOffset total items
  | .offset offset :: _ => offset

def resolve (bytes : Bytes) : List Item → List Bytes
  | [] => []
  | .slice slice :: items => slice :: resolve bytes items
  | .offset offset :: items =>
    (bytes.take (nextOffset bytes.length items)).drop offset :: resolve bytes items

/-- The parts of a container with fields of these kinds. -/
def split (kinds : List Kind) (bytes : Bytes) : Except DecodeError (List Bytes) := do
  let (items, stop) ← register bytes kinds 0 none
  let first := nextOffset bytes.length items
  if .dynamic ∈ kinds then
    if first < stop then throw (.offsetIntoFixedPortion first)
    else if stop < first then throw (.offsetSkipsVariableBytes first)
    else pure (resolve bytes items)
  else if stop ≠ bytes.length then throw (.invalidByteLength bytes.length stop)
  else pure (resolve bytes items)

/-! ## The round trip -/

/-- What the head of a container says when its tail continues at `offset`. -/
def itemsOf : ℕ → List Part → List Item
  | _, [] => []
  | offset, .fixed bytes :: parts => .slice bytes :: itemsOf offset parts
  | offset, .dynamic bytes :: parts => .offset offset :: itemsOf (offset + bytes.length) parts

lemma readOffset_leBytes {offset : ℕ} (h : offset < 2 ^ 32) (rest : Bytes) :
    readOffset (leBytes 4 offset ++ rest) = .ok offset := by
  have hread : readLe (leBytes 4 offset) = offset := readLe_leBytes_of_lt (by omega)
  simp [readOffset, hread]

variable {parts : List Part}

lemma register_itemsOf {bytes : Bytes} (hlt : bytes.length < 2 ^ 32) :
    ∀ (front : Bytes) (previous : Option ℕ) {rest : Bytes} {offset : ℕ},
      bytes = front ++ (heads offset parts ++ rest) →
      offset + (tails parts).length = bytes.length → previous.getD 0 ≤ offset →
      register bytes (parts.map Part.kind) front.length previous =
        .ok (itemsOf offset parts, front.length + headLen (parts.map Part.kind)) := by
  induction parts with
  | nil =>
    intro front previous rest offset hbytes hlen hprev
    simp [register, itemsOf]
  | cons part parts ih =>
    intro front previous rest offset hbytes hlen hprev
    cases part with
    | fixed slice =>
      have hnext : bytes = (front ++ slice) ++ (heads offset parts ++ rest) := by
        simpa [heads] using hbytes
      have hread : (bytes.drop front.length).take slice.length = slice := by
        rw [hnext, List.append_assoc, List.drop_left, List.take_left]
      have hfits : front.length + slice.length ≤ bytes.length := by
        rw [hnext, List.length_append, List.length_append]
        omega
      have hrest := ih (front ++ slice) previous hnext hlen hprev
      rw [List.length_append] at hrest
      simp [Part.kind, register, itemsOf, Kind.headLen, hfits, hread, hrest, Except.ok_bind,
        Except.pure_eq_ok, add_assoc]
    | dynamic slice =>
      have hnext : bytes =
          (front ++ leBytes 4 offset) ++ (heads (offset + slice.length) parts ++ rest) := by
        simpa [heads] using hbytes
      have hread : readOffset (bytes.drop front.length) = .ok offset := by
        rw [hnext, List.append_assoc, List.drop_left]
        exact readOffset_leBytes (by omega) _
      have hsane : sanitizeOffset offset previous bytes.length = .ok offset := by
        rw [sanitizeOffset, if_neg (by omega), if_neg (by omega)]
      have hlen' : offset + slice.length + (tails parts).length = bytes.length := by
        simpa [tails, add_assoc] using hlen
      have hrest := ih (front ++ leBytes 4 offset) (some offset) hnext hlen' (by simp)
      rw [List.length_append, length_leBytes] at hrest
      simp [Part.kind, register, itemsOf, Kind.headLen, hread, hsane, hrest, Except.ok_bind,
        Except.pure_eq_ok, add_assoc]

lemma nextOffset_itemsOf {total offset : ℕ}
    (h : offset + (tails parts).length = total) : nextOffset total (itemsOf offset parts) = offset := by
  induction parts with
  | nil => simpa [itemsOf, nextOffset, tails] using h.symm
  | cons part parts ih =>
    cases part with
    | fixed slice => exact ih h
    | dynamic slice => rfl

lemma resolve_itemsOf {bytes : Bytes} :
    ∀ front : Bytes, bytes = front ++ tails parts →
      resolve bytes (itemsOf front.length parts) = parts.map Part.bytes := by
  induction parts with
  | nil => simp [itemsOf, resolve]
  | cons part parts ih =>
    intro front hbytes
    cases part with
    | fixed slice => simp [itemsOf, resolve, ih front hbytes, Part.bytes]
    | dynamic slice =>
      have hnext : bytes = (front ++ slice) ++ tails parts := by
        simpa [tails] using hbytes
      have hlen : (front ++ slice).length + (tails parts).length = bytes.length := by
        simp only [hnext, List.length_append]
      have hrest := ih (front ++ slice) hnext
      have hslice : (bytes.take (front ++ slice).length).drop front.length = slice := by
        rw [hnext, List.take_left, List.drop_left]
      rw [List.length_append] at hrest hlen hslice
      simp only [itemsOf, resolve, List.map_cons, Part.bytes, nextOffset_itemsOf hlen, hslice, hrest]

lemma tails_of_fixed (h : .dynamic ∉ parts.map Part.kind) :
    tails parts = [] := by
  induction parts with
  | nil => rfl
  | cons part parts ih =>
    cases part with
    | fixed slice => exact ih fun hmem => h (List.mem_cons_of_mem _ hmem)
    | dynamic slice => exact absurd List.mem_cons_self h

/-- **The round trip.**  A container of less than 4 GiB is taken apart into its parts. -/
lemma split_join (h : (join parts).length < 2 ^ 32) :
    split (parts.map Part.kind) (join parts) = .ok (parts.map Part.bytes) := by
  have hlen := (length_join parts).symm
  have hreg := register_itemsOf h [] none rfl hlen (Nat.zero_le _)
  have hres := resolve_itemsOf (heads (headLen (parts.map Part.kind)) parts)
    (show join parts = _ from rfl)
  rw [length_heads] at hres
  rw [List.length_nil, Nat.zero_add] at hreg
  simp only [split, hreg, Except.ok_bind, nextOffset_itemsOf hlen, lt_irrefl, if_false, hres]
  split
  · rfl
  · rename_i hnone
    rw [tails_of_fixed hnone, List.length_nil, Nat.add_zero] at hlen
    rw [if_neg (not_not.mpr hlen)]
    rfl

/-- Where the head ends. -/
lemma register_stop {bytes : Bytes} {kinds : List Kind} {index stop : ℕ} {previous : Option ℕ}
    {items : List Item} (h : register bytes kinds index previous = .ok (items, stop)) :
    stop = index + headLen kinds := by
  induction kinds generalizing index previous items with
  | nil =>
    obtain ⟨-, rfl⟩ := Prod.mk.inj (Except.ok.inj h)
    rfl
  | cons kind kinds ih =>
    cases kind with
    | fixed len =>
      rw [register] at h
      split at h
      · obtain ⟨⟨items', stop'⟩, hrest, hpure⟩ := Except.bind_ok_iff.mp h
        obtain ⟨-, rfl⟩ := Prod.mk.inj (Except.pure_ok_iff.mp hpure)
        rw [ih hrest, headLen_cons, Kind.headLen, add_assoc]
      · cases h
    | dynamic =>
      rw [register] at h
      obtain ⟨read, -, h⟩ := Except.bind_ok_iff.mp h
      obtain ⟨offset, -, h⟩ := Except.bind_ok_iff.mp h
      obtain ⟨⟨items', stop'⟩, hrest, hpure⟩ := Except.bind_ok_iff.mp h
      obtain ⟨-, rfl⟩ := Prod.mk.inj (Except.pure_ok_iff.mp hpure)
      rw [ih hrest, headLen_cons, Kind.headLen, add_assoc]

/-- A container that starts with an offset starts with the length of its head. -/
lemma readLe_of_split {kinds : List Kind} {bytes : Bytes} {parts : List Bytes}
    (h : split (.dynamic :: kinds) bytes = .ok parts) :
    readLe (bytes.take 4) = 4 + headLen kinds := by
  obtain ⟨⟨items, stop⟩, hreg, h⟩ := Except.bind_ok_iff.mp h
  have hstop := register_stop hreg
  obtain ⟨read, hread, hreg⟩ := Except.bind_ok_iff.mp hreg
  obtain ⟨offset, hsane, hreg⟩ := Except.bind_ok_iff.mp hreg
  obtain ⟨rest, -, hpure⟩ := Except.bind_ok_iff.mp hreg
  obtain ⟨rfl, rfl⟩ := Prod.mk.inj (Except.pure_ok_iff.mp hpure)
  have hbytes : read = readLe (bytes.take 4) := by
    rw [readOffset] at hread
    split at hread
    · cases hread
    · exact (Except.ok.inj hread).symm
  have hoffset : offset = read := by
    rw [sanitizeOffset] at hsane
    split_ifs at hsane
    exact (Except.ok.inj hsane).symm
  rw [headLen_cons, Kind.headLen] at hstop
  dsimp only at h
  rw [if_pos List.mem_cons_self] at h
  change (if offset < rest.2 then throw _ else if rest.2 < offset then throw _ else pure _) = _ at h
  split_ifs at h
  omega

/-! ## Codecs -/

/-- An encoder with its decoder, and what holds of the values it is meant for. -/
structure Codec (α : Type) where
  kind : Kind
  encode : α → Bytes
  decode : Bytes → Except DecodeError α
  Valid : α → Prop
  maxLen : ℕ
  decode_encode : ∀ a, Valid a → decode (encode a) = .ok a
  length_fixed : ∀ a len, Valid a → kind = .fixed len → (encode a).length = len
  length_le : ∀ a, Valid a → (encode a).length ≤ maxLen

namespace Codec

variable {α β : Type}

def part (c : Codec α) (a : α) : Part :=
  match c.kind with
  | .fixed _ => .fixed (c.encode a)
  | .dynamic => .dynamic (c.encode a)

@[simp] lemma bytes_part (c : Codec α) (a : α) : (c.part a).bytes = c.encode a := by
  unfold part
  split <;> rfl

lemma kind_part (c : Codec α) {a : α} (h : c.Valid a) : (c.part a).kind = c.kind := by
  unfold part
  split <;> rename_i hkind
  · rw [Part.kind, hkind, c.length_fixed a _ h hkind]
  · rw [Part.kind, hkind]

/-- The same bytes for a type that the values can be turned into and back. -/
def map (c : Codec β) (toBase : α → β) (ofBase : β → α) (h : ∀ a, ofBase (toBase a) = a) : Codec α where
  kind := c.kind
  encode a := c.encode (toBase a)
  decode bytes := return ofBase (← c.decode bytes)
  Valid a := c.Valid (toBase a)
  maxLen := c.maxLen
  decode_encode a ha := by
    rw [c.decode_encode _ ha, Except.ok_bind, h, Except.pure_eq_ok]
  length_fixed a := c.length_fixed (toBase a)
  length_le a := c.length_le (toBase a)

/-- A byte array. -/
def byteArray (len : ℕ) : Codec { bytes : Bytes // bytes.length = len } where
  kind := .fixed len
  encode a := a.val
  decode bytes :=
    if h : bytes.length = len then .ok ⟨bytes, h⟩
    else .error (.invalidByteLength bytes.length len)
  Valid _ := True
  maxLen := len
  decode_encode a _ := by simp [a.property]
  length_fixed a _ _ h := a.property.trans (Kind.fixed.inj h)
  length_le a _ := a.property.le

/-- A number below `256 ^ len` in `len` bytes. -/
def number (len : ℕ) : Codec { n : ℕ // n < 256 ^ len } where
  kind := .fixed len
  encode a := leBytes len a.val
  decode bytes :=
    if h : bytes.length = len then .ok ⟨readLe bytes, h ▸ readLe_lt bytes⟩
    else .error (.invalidByteLength bytes.length len)
  Valid _ := True
  maxLen := len
  decode_encode a _ := by simp [readLe_leBytes_of_lt a.property]
  length_fixed a _ _ h := by rw [length_leBytes, Kind.fixed.inj h]
  length_le a _ := by rw [length_leBytes]

end Codec

/-- The fields of a container, in order. -/
structure Fields (α : Type) where
  kinds : List Kind
  parts : α → List Part
  read : List Bytes → Except DecodeError α
  Valid : α → Prop
  maxLen : ℕ
  kinds_parts : ∀ a, Valid a → (parts a).map Part.kind = kinds
  read_parts : ∀ a, Valid a → read ((parts a).map Part.bytes) = .ok a
  length_le : ∀ a, Valid a → (join (parts a)).length ≤ maxLen

namespace Fields

variable {α β : Type}

def nil : Fields Unit where
  kinds := []
  parts _ := []
  read _ := .ok ()
  Valid _ := True
  maxLen := 0
  kinds_parts _ _ := rfl
  read_parts _ _ := rfl
  length_le _ _ := le_rfl

lemma maxLen_nil_lt : nil.maxLen < 2 ^ 32 := by decide

def cons (c : Codec α) (f : Fields β) : Fields (α × β) where
  kinds := c.kind :: f.kinds
  parts a := c.part a.1 :: f.parts a.2
  read
    -- There is a part for every field.
    | [] => .error (.invalidByteLength 0 0)
    | bytes :: rest => do
      let first ← c.decode bytes
      let others ← f.read rest
      pure (first, others)
  Valid a := c.Valid a.1 ∧ f.Valid a.2
  maxLen := 4 + c.maxLen + f.maxLen
  kinds_parts a h := by rw [List.map_cons, c.kind_part h.1, f.kinds_parts _ h.2]
  read_parts a h := by
    rw [List.map_cons, Codec.bytes_part]
    simp only [c.decode_encode _ h.1, f.read_parts _ h.2, Except.ok_bind, Except.pure_eq_ok]
  length_le a h := by
    have hfirst := c.length_le _ h.1
    have hothers := f.length_le _ h.2
    rw [length_join] at hothers ⊢
    unfold Codec.part
    split
    · simp only [List.map_cons, headLen_cons, Part.kind, Kind.headLen, tails]
      omega
    · simp only [List.map_cons, headLen_cons, Part.kind, Kind.headLen, tails, List.length_append]
      omega

def map (f : Fields β) (toBase : α → β) (ofBase : β → α) (h : ∀ a, ofBase (toBase a) = a) :
    Fields α where
  kinds := f.kinds
  parts a := f.parts (toBase a)
  read bytes := return ofBase (← f.read bytes)
  Valid a := f.Valid (toBase a)
  maxLen := f.maxLen
  kinds_parts a := f.kinds_parts (toBase a)
  read_parts a ha := by
    rw [f.read_parts _ ha, Except.ok_bind, h, Except.pure_eq_ok]
  length_le a := f.length_le (toBase a)

/-- A container has a fixed length if all its fields have. -/
def containerKind (kinds : List Kind) : Kind :=
  if .dynamic ∈ kinds then .dynamic else .fixed (headLen kinds)

def container (f : Fields α) (hmax : f.maxLen < 2 ^ 32) : Codec α where
  kind := containerKind f.kinds
  encode a := join (f.parts a)
  decode bytes := do f.read (← split f.kinds bytes)
  Valid := f.Valid
  maxLen := f.maxLen
  decode_encode a ha := by
    have hsplit := split_join ((f.length_le a ha).trans_lt hmax)
    rw [f.kinds_parts a ha] at hsplit
    rw [hsplit, Except.ok_bind, f.read_parts a ha]
  length_fixed a len ha hkind := by
    unfold containerKind at hkind
    split at hkind
    · cases hkind
    · rename_i hfixed
      rw [← f.kinds_parts a ha] at hfixed hkind
      rw [length_join, tails_of_fixed hfixed, List.length_nil, Nat.add_zero]
      exact Kind.fixed.inj hkind
  length_le := f.length_le

variable {f : Fields α} {hmax : f.maxLen < 2 ^ 32}

lemma encode_container {a : α} (ha : f.Valid a) :
    (f.container hmax).encode a = heads (headLen f.kinds) (f.parts a) ++ tails (f.parts a) := by
  show join (f.parts a) = _
  rw [join, f.kinds_parts a ha]

/-- What a container with a dynamic first field starts with. -/
lemma readLe_of_decode {bytes : Bytes} {a : α} (hkinds : f.kinds.head? = some .dynamic)
    (h : (f.container hmax).decode bytes = .ok a) : readLe (bytes.take 4) = headLen f.kinds := by
  obtain ⟨parts, hsplit, -⟩ := Except.bind_ok_iff.mp h
  obtain ⟨kinds, hkinds⟩ := List.head?_eq_some_iff.mp hkinds
  rw [hkinds] at hsplit ⊢
  exact readLe_of_split hsplit

end Fields

end SszContainer
