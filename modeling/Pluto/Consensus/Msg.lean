import Pluto.Core.Duty
import Pluto.Lib.Fallible
import Pluto.Qbft.Run
import Pluto.Ssz.Hasher

/-!
# The message adapter

`crates/consensus/src/qbft/msg.rs`: hashing and signing of protobuf messages, and the wrapper that
ties a QBFT message to the values its hashes stand for.

A wrapper of a justification never has justifications of its own, since `Msg::new` wraps it with an
empty list; so the wrapper comes in two types, `MsgHead` for what every wrapper has and `Msg` for a
message with its justification.  All of them share one value map.  `Msg.new` accepts a message only
if the map has every hash it refers to, and it lets a hash that is not 32 bytes long collapse to the
null hash; `Msg.new_eq_ok` says exactly what it returns.

SHA-256 and the secp256k1 operations are parameters (`Crypto`).
-/

namespace Pluto.Consensus

open Corepb Ssz

/-! ## Cryptography -/

/-- Errors of signing and of public key recovery. -/
inductive K1UtilError
  | invalidSignatureLength (expected actual : ℕ)
  | invalidSignature
  | invalidHashLength (actual : ℕ)
  | invalidSignatureRecoveryId (invalidRecoveryByte : UInt8)
  deriving DecidableEq, Repr

/-- The primitives, for secret keys `SK` and public keys `PK`. -/
structure Crypto (SK PK : Type) where
  sha256 : Bytes → HashRoot
  sign : SK → HashRoot → Except K1UtilError Bytes
  recover : HashRoot → Bytes → Except K1UtilError PK

/-- Errors returned by QBFT message wrapping. -/
inductive MsgError
  | valueHashNotFound
  | preparedValueHashNotFound
  | valueNotFound
  | cannotHashAnyProto
  | hashProto (source : HasherError)
  | emptySignature
  | recoverPubkey (source : K1UtilError)
  | sign (source : K1UtilError)
  deriving DecidableEq, Repr

/-- The hash of deterministic inner-protobuf bytes. -/
def hashProtoBytes (sha256 : Bytes → HashRoot) (encoded : Bytes) : Except MsgError HashRoot :=
  (hashBytes sha256 encoded).mapError .hashProto

/-- The hash of a concrete protobuf message; an `Any` is rejected. -/
def hashProto {M : Type} (sha256 : Bytes → HashRoot) (n : Named M) (m : M) :
    Except MsgError HashRoot :=
  if n.package = "google.protobuf" ∧ n.name = "Any" then .error .cannotHashAnyProto
  else hashProtoBytes sha256 (n.encode m)

lemma hashProto_ok {M : Type} {sha256 : Bytes → HashRoot} {n : Named M} {m : M} {hash : HashRoot}
    (h : hashProto sha256 n m = .ok hash) : hashProtoBytes sha256 (n.encode m) = .ok hash := by
  unfold hashProto at h
  split_ifs at h
  exact h

/-- The hash of a message is the hash of its fields on the wire. -/
lemma hashBytes_of_hashProto {M : Type} {sha256 : Bytes → HashRoot} {n : Named M} {m : M}
    {hash : HashRoot} (h : hashProto sha256 n m = .ok hash) :
    hashBytes sha256 (Wire.encode (n.fields m)) = .ok hash := by
  have hbytes := hashProto_ok h
  exact Except.mapError_ok_iff.mp hbytes

section Signing

variable {SK PK : Type} [DecidableEq PK] (k : Crypto SK PK)

/-- The message with its signature cleared. -/
def clearSignature (msg : QbftMsg) : QbftMsg := { msg with signature := [] }

/-- A signed copy of a QBFT protobuf message. -/
def signMsg (msg : QbftMsg) (privkey : SK) : Except MsgError QbftMsg := do
  let clone := clearSignature msg
  let hash ← hashProto k.sha256 QbftMsg.named clone
  let signature ← (k.sign privkey hash).mapError .sign
  return { clone with signature := signature }

/-- Whether a QBFT protobuf message was signed by `pubkey`. -/
def verifyMsgSig (msg : QbftMsg) (pubkey : PK) : Except MsgError Bool :=
  if msg.signature = [] then .error .emptySignature
  else do
    let hash ← hashProto k.sha256 QbftMsg.named (clearSignature msg)
    let recovered ← (k.recover hash msg.signature).mapError .recoverPubkey
    return decide (recovered = pubkey)

end Signing

/-! ## The wrapper -/

/-- Concrete values carried beside QBFT hash messages. -/
abbrev ValueMap : Type := HashMap HashRoot Any

/-- What every wrapper holds. -/
structure MsgHead where
  msg : QbftMsg
  valueHash : HashRoot
  preparedValueHash : HashRoot
  values : ValueMap

/-- A wrapped consensus message. -/
structure Msg extends MsgHead where
  justificationProtos : List QbftMsg
  justification : List MsgHead

/-- A bytes field as a non-zero 32-byte hash. -/
def toHash32 (value : Bytes) : Option HashRoot :=
  if h : value.length = 32 then
    if (⟨value, h⟩ : HashRoot) = .zero then none else some ⟨value, h⟩
  else none

/-- A hash field: collapsed to the null hash unless it is well-formed, and then it must be in the
map. -/
def resolveHash (missing : MsgError) (field : Bytes) (values : ValueMap) :
    Except MsgError HashRoot :=
  match toHash32 field with
  | none => .ok .zero
  | some hash => if (values.lookup hash).isSome then .ok hash else .error missing

def valueHash (msg : QbftMsg) (values : ValueMap) : Except MsgError HashRoot :=
  resolveHash .valueHashNotFound msg.valueHash values

def preparedValueHash (msg : QbftMsg) (values : ValueMap) : Except MsgError HashRoot :=
  resolveHash .preparedValueHashNotFound msg.preparedValueHash values

/-- `Msg::new` without justifications. -/
def MsgHead.new (msg : QbftMsg) (values : ValueMap) : Except MsgError MsgHead := do
  let valueHash ← Consensus.valueHash msg values
  let preparedValueHash ← Consensus.preparedValueHash msg values
  return ⟨msg, valueHash, preparedValueHash, values⟩

/-- `Msg::new` -/
def Msg.new (msg : QbftMsg) (justification : List QbftMsg) (values : ValueMap) :
    Except MsgError Msg := do
  let head ← MsgHead.new msg values
  let justificationImpls ← justification.mapM fun justificationMsg =>
    MsgHead.new justificationMsg values
  return ⟨head, justification, justificationImpls⟩

/-! ### What `Msg::new` returns -/

/-- The hash a field stands for. -/
def collapse (field : Bytes) : HashRoot := (toHash32 field).getD .zero

/-- A hash the map resolves; the null hash needs no value. -/
def Resolves (values : ValueMap) (hash : HashRoot) : Prop :=
  hash = .zero ∨ (values.lookup hash).isSome

/-- The map resolves both hashes of a message. -/
def RefersTo (values : ValueMap) (msg : QbftMsg) : Prop :=
  Resolves values (collapse msg.valueHash) ∧ Resolves values (collapse msg.preparedValueHash)

/-- The wrapper of a message. -/
def MsgHead.of (msg : QbftMsg) (values : ValueMap) : MsgHead :=
  ⟨msg, collapse msg.valueHash, collapse msg.preparedValueHash, values⟩

lemma toHash32_ne_zero {field : Bytes} {hash : HashRoot} (h : toHash32 field = some hash) :
    hash ≠ .zero := by
  unfold toHash32 at h
  split_ifs at h with hlen hzero
  rw [← Option.some.inj h]
  exact hzero

lemma resolveHash_eq_ok {missing : MsgError} {field : Bytes} {values : ValueMap} {hash : HashRoot} :
    resolveHash missing field values = .ok hash ↔
      hash = collapse field ∧ Resolves values (collapse field) := by
  unfold resolveHash collapse Resolves
  cases hfield : toHash32 field with
  | none =>
    constructor
    · intro h
      exact ⟨(Except.ok.inj h).symm, .inl rfl⟩
    · rintro ⟨rfl, -⟩
      rfl
  | some found =>
    have hne := toHash32_ne_zero hfield
    dsimp only [Option.getD_some]
    by_cases hfound : (values.lookup found).isSome
    · simp [hfound, eq_comm]
    · simp [hfound, hne]

lemma MsgHead.new_eq_ok {msg : QbftMsg} {values : ValueMap} {h : MsgHead} :
    MsgHead.new msg values = .ok h ↔ h = .of msg values ∧ RefersTo values msg := by
  unfold MsgHead.new
  rw [Except.bind_ok_iff]
  constructor
  · rintro ⟨v, hv, hrest⟩
    obtain ⟨p, hp, hnew⟩ := Except.bind_ok_iff.mp hrest
    obtain ⟨rfl, hresolves⟩ := resolveHash_eq_ok.mp hv
    obtain ⟨rfl, hresolves'⟩ := resolveHash_eq_ok.mp hp
    exact ⟨(Except.pure_ok_iff.mp hnew).symm, hresolves, hresolves'⟩
  · rintro ⟨rfl, hresolves, hresolves'⟩
    refine ⟨_, resolveHash_eq_ok.mpr ⟨rfl, hresolves⟩, ?_⟩
    exact Except.bind_ok_iff.mpr ⟨_, resolveHash_eq_ok.mpr ⟨rfl, hresolves'⟩, rfl⟩

/-- The loop over the justifications. -/
lemma MsgHead.mapM_new_eq_ok {justification : List QbftMsg} {values : ValueMap}
    {hs : List MsgHead} :
    (justification.mapM fun j => MsgHead.new j values) = .ok hs ↔
      hs = justification.map (MsgHead.of · values) ∧ ∀ q ∈ justification, RefersTo values q := by
  rw [Except.mapM_ok_iff]
  constructor
  · intro h
    induction h with
    | nil => exact ⟨rfl, by simp⟩
    | cons hj _ ih =>
      obtain ⟨rfl, hrefers⟩ := MsgHead.new_eq_ok.mp hj
      exact ⟨congrArg _ ih.1, List.forall_mem_cons.mpr ⟨hrefers, ih.2⟩⟩
  · rintro ⟨rfl, hall⟩
    rw [List.forall₂_map_right_iff, List.forall₂_same]
    exact fun j hj => MsgHead.new_eq_ok.mpr ⟨rfl, hall j hj⟩

/-- **What `Msg::new` returns.** -/
theorem Msg.new_eq_ok {msg : QbftMsg} {justification : List QbftMsg} {values : ValueMap} {m : Msg} :
    Msg.new msg justification values = .ok m ↔
      m = ⟨.of msg values, justification, justification.map (MsgHead.of · values)⟩ ∧
        ∀ q ∈ msg :: justification, RefersTo values q := by
  unfold Msg.new
  rw [Except.bind_ok_iff, List.forall_mem_cons]
  constructor
  · rintro ⟨h, hm, hrest⟩
    obtain ⟨hs, hjs, hnew⟩ := Except.bind_ok_iff.mp hrest
    obtain ⟨rfl, hrefers⟩ := MsgHead.new_eq_ok.mp hm
    obtain ⟨rfl, hall⟩ := MsgHead.mapM_new_eq_ok.mp hjs
    exact ⟨(Except.pure_ok_iff.mp hnew).symm, hrefers, hall⟩
  · rintro ⟨rfl, hrefers, hall⟩
    refine ⟨_, MsgHead.new_eq_ok.mpr ⟨rfl, hrefers⟩, ?_⟩
    exact Except.bind_ok_iff.mpr ⟨_, MsgHead.mapM_new_eq_ok.mpr ⟨rfl, hall⟩, rfl⟩

/-- The domain duty of an optional protobuf duty. -/
def dutyFromProto : Option Corepb.Duty → Core.Duty
  | none => ⟨0, .unknown⟩
  | some duty =>
    ⟨duty.slot, match Core.DutyType.ofWire duty.type with
      | .ok dutyType => dutyType
      | .error _ => .unknown⟩

/-! ## What the core sees -/

namespace MsgHead

variable (h : MsgHead)

def type : Qbft.MessageType := .fromWire h.msg.type.toInt

def «instance» : Core.Duty := dutyFromProto h.msg.duty

def source : ℤ := h.msg.peerIdx.toInt

def round : ℤ := h.msg.round.toInt

def preparedRound : ℤ := h.msg.preparedRound.toInt

/-- The fields of `SomeMsg`. -/
def toCore : Qbft.Msg HashRoot where
  type := h.type
  source := h.source
  round := h.round
  value := h.valueHash
  preparedRound := h.preparedRound
  preparedValue := h.preparedValueHash
  justification := []

end MsgHead

/-- The fields of `SomeMsg`, with the justification. -/
def Msg.toCore (m : Msg) : Qbft.Msg HashRoot :=
  { m.toMsgHead.toCore with justification := m.justification.map MsgHead.toCore }

lemma MsgHead.toCore_isI64 (h : MsgHead) : h.toCore.IsI64 := by
  have bounds : ∀ x : Int64, -Qbft.i64Max - 1 ≤ x.toInt ∧ x.toInt ≤ Qbft.i64Max := by
    intro x
    have hlow := x.le_toInt
    have hhigh := x.toInt_lt
    unfold Qbft.i64Max
    omega
  exact ⟨bounds _, bounds _, bounds _⟩

/-- A wrapper as the receive channel of the core carries it. -/
def Msg.toWire (m : Msg) : Qbft.WireMsg HashRoot where
  msg := m.toCore
  isI64 := by
    refine ⟨m.toMsgHead.toCore_isI64, ?_⟩
    intro j hj
    obtain ⟨h, -, rfl⟩ := List.mem_map.mp hj
    exact h.toCore_isI64

end Pluto.Consensus
