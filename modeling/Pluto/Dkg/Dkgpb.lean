import Pluto.Core.Corepb

/-!
# The protobuf messages of the key generation

The messages of `crates/dkg/src/dkgpb` that are broadcast reliably, with their field numbers, and how
a message is taken out of a `google.protobuf.Any`.  `Any::to_msg` compares what follows the last
slash of the type URL with the full name of the message, and nothing before it.
-/

namespace Pluto.Dkg

open Corepb (Any)
open scoped Numerals

/-- `FrostMsgKey`, and the `MsgKey` it stands for.  The target of a broadcast is zero. -/
structure MsgKey where
  valIdx : UInt32
  sourceId : UInt32
  targetId : UInt32
  deriving DecidableEq, Repr

structure FrostRound1Cast where
  key : Option MsgKey
  wi : Bytes
  ci : Bytes
  commitments : List Bytes
  deriving DecidableEq, Repr

structure FrostRound1Casts where
  /-- One per validator. -/
  casts : List FrostRound1Cast
  deriving DecidableEq, Repr

structure FrostRound2Cast where
  key : Option MsgKey
  verificationKey : Bytes
  vkShare : Bytes
  deriving DecidableEq, Repr

structure FrostRound2Casts where
  /-- One per validator. -/
  casts : List FrostRound2Cast
  deriving DecidableEq, Repr

structure MsgNodeSig where
  signature : Bytes
  peerIndex : UInt32
  deriving DecidableEq, Repr

/-! ## Field numbers -/

def MsgKey.codec : Wire.Codec MsgKey where
  fields k := Wire.scalar 1 k.valIdx.toNat ++ Wire.scalar 2 k.sourceId.toNat ++
    Wire.scalar 3 k.targetId.toNat
  ofFields fs := some ⟨UInt32.ofNat (Wire.scalarAt 1 fs), UInt32.ofNat (Wire.scalarAt 2 fs),
    UInt32.ofNat (Wire.scalarAt 3 fs)⟩
  ofFields_fields k := by simp +decide [Wire.scalarAt]

def FrostRound1Cast.codec : Wire.Codec FrostRound1Cast where
  fields c := Wire.embedded 1 (c.key.map MsgKey.codec.encode) ++ Wire.blob 2 c.wi ++
    Wire.blob 3 c.ci ++ Wire.repeated 4 c.commitments
  ofFields fs := (MsgKey.codec.decode? (Wire.blobsAt 1 fs)).map fun key =>
    ⟨key, Wire.blobAt 2 fs, Wire.blobAt 3 fs, Wire.blobsAt 4 fs⟩
  ofFields_fields c := by simp +decide [Wire.blobAt]

def FrostRound1Casts.codec : Wire.Codec FrostRound1Casts where
  fields m := Wire.repeated 1 (m.casts.map FrostRound1Cast.codec.encode)
  ofFields fs := (FrostRound1Cast.codec.decodeAll (Wire.blobsAt 1 fs)).map fun casts => ⟨casts⟩
  ofFields_fields m := by simp

def FrostRound2Cast.codec : Wire.Codec FrostRound2Cast where
  fields c := Wire.embedded 1 (c.key.map MsgKey.codec.encode) ++ Wire.blob 2 c.verificationKey ++
    Wire.blob 3 c.vkShare
  ofFields fs := (MsgKey.codec.decode? (Wire.blobsAt 1 fs)).map fun key =>
    ⟨key, Wire.blobAt 2 fs, Wire.blobAt 3 fs⟩
  ofFields_fields c := by simp +decide [Wire.blobAt]

def FrostRound2Casts.codec : Wire.Codec FrostRound2Casts where
  fields m := Wire.repeated 1 (m.casts.map FrostRound2Cast.codec.encode)
  ofFields fs := (FrostRound2Cast.codec.decodeAll (Wire.blobsAt 1 fs)).map fun casts => ⟨casts⟩
  ofFields_fields m := by simp

def MsgNodeSig.codec : Wire.Codec MsgNodeSig where
  fields m := Wire.blob 1 m.signature ++ Wire.scalar 2 m.peerIndex.toNat
  ofFields fs := some ⟨Wire.blobAt 1 fs, UInt32.ofNat (Wire.scalarAt 2 fs)⟩
  ofFields_fields m := by simp +decide [Wire.scalarAt, Wire.blobAt]

/-! ## Type URLs -/

/-- `TypeUrl::new`: what follows the last slash, if there is one and no dot follows it. -/
def fullNameOf (typeUrl : String) : Option String :=
  let chars := typeUrl.toList
  let name := (chars.reverse.takeWhile (· ≠ '/')).reverse
  if '/' ∈ chars ∧ name.head? ≠ some '.' then some (String.ofList name) else none

/-- `Any::to_msg` for a message with the given full name. -/
def toMsg {M : Type} (codec : Wire.Codec M) (fullName : String) (any : Any) : Option M :=
  if fullNameOf any.typeUrl = some fullName then codec.decode any.value else none

def FrostRound1Casts.fullName : String := "dkg.dkgpb.v1.FrostRound1Casts"

def FrostRound2Casts.fullName : String := "dkg.dkgpb.v1.FrostRound2Casts"

def MsgNodeSig.fullName : String := "dkg.dkgpb.v1.MsgNodeSig"

end Pluto.Dkg
