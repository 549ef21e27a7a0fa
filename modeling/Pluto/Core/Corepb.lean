import Mathlib.Data.String.Basic
import Pluto.Lib.SortedMap
import Pluto.Lib.Wire

/-!
# The protobuf messages of consensus

The messages of `crates/core/src/corepb` that consensus hashes or signs, with their field numbers.
The encoder is the documented behaviour of prost: fields in the order of their numbers, default
values left out, an `optional` message written whenever it is there, a `btree_map` written as one
entry message per key in the order of the keys, with an empty key or value left out of the entry.

Each message comes as a `Wire.Codec`, so its fields determine it.  The reader of the codec is one
reader of proto3; results about the reader of prost take it as a parameter (`Decoder`) and ask only
that it reads back what was written.
-/

namespace Pluto.Corepb

/-! ## Messages -/

/-- `core.Duty` -/
structure Duty where
  slot : UInt64
  type : Int32
  deriving DecidableEq

/-- `google.protobuf.Any` -/
structure Any where
  typeUrl : String
  value : Bytes
  deriving DecidableEq

/-- `core.UnsignedDataSet` -/
structure UnsignedDataSet where
  set : SortedMap String Bytes
  deriving DecidableEq

structure QbftMsg where
  type : Int64
  duty : Option Duty
  peerIdx : Int64
  round : Int64
  preparedRound : Int64
  signature : Bytes
  valueHash : Bytes
  preparedValueHash : Bytes
  deriving DecidableEq

structure QbftConsensusMsg where
  /-- The message that we send. -/
  msg : Option QbftMsg
  /-- The justifications from others for the message. -/
  justification : List QbftMsg
  /-- The values of the hashes in the messages. -/
  values : List Any
  deriving DecidableEq

/-- A single peer's proposed priorities for a single topic. -/
structure PriorityTopicProposal where
  topic : Option Any
  priorities : List Any
  deriving DecidableEq

/-- All the priorities and metadata of a single peer. -/
structure PriorityMsg where
  duty : Option Duty
  topics : List PriorityTopicProposal
  peerId : String
  signature : Bytes
  deriving DecidableEq

/-- The cluster wide priority score. -/
structure PriorityScoredResult where
  priority : Option Any
  score : Int64
  deriving DecidableEq

/-- The cluster wide resulting priorities for a single topic. -/
structure PriorityTopicResult where
  topic : Option Any
  priorities : List PriorityScoredResult
  deriving DecidableEq

/-- The cluster wide priority result. -/
structure PriorityResult where
  msgs : List PriorityMsg
  topics : List PriorityTopicResult
  deriving DecidableEq

/-! ## Field numbers -/

def Duty.codec : Wire.Codec Duty where
  fields d := Wire.scalar 1 d.slot.toNat ++ Wire.scalar 2 (Wire.ofInt32 d.type)
  ofFields fs := some ⟨UInt64.ofNat (Wire.scalarAt 1 fs), Wire.toInt32 (Wire.scalarAt 2 fs)⟩
  ofFields_fields d := by simp +decide [Wire.scalarAt]

def Any.codec : Wire.Codec Any where
  fields a := Wire.blob 1 (Wire.utf8 a.typeUrl) ++ Wire.blob 2 a.value
  ofFields fs := (Wire.string? (Wire.blobAt 1 fs)).map fun typeUrl => ⟨typeUrl, Wire.blobAt 2 fs⟩
  ofFields_fields a := by simp +decide [Wire.blobAt]

/-- An entry of a `map<string, bytes>`. -/
def entryCodec : Wire.Codec (String × Bytes) where
  fields e := Wire.blob 1 (Wire.utf8 e.1) ++ Wire.blob 2 e.2
  ofFields fs := (Wire.string? (Wire.blobAt 1 fs)).map fun key => (key, Wire.blobAt 2 fs)
  ofFields_fields e := by simp +decide [Wire.blobAt]

def UnsignedDataSet.codec : Wire.Codec UnsignedDataSet where
  fields m := Wire.repeated 1 (m.set.entries.map entryCodec.encode)
  ofFields fs := (entryCodec.decodeAll (Wire.blobsAt 1 fs)).map fun es => ⟨.insertAll .empty es⟩
  ofFields_fields m := by simp

def QbftMsg.codec : Wire.Codec QbftMsg where
  fields m :=
    Wire.scalar 1 (Wire.ofInt64 m.type) ++ Wire.embedded 2 (m.duty.map Duty.codec.encode) ++
    Wire.scalar 3 (Wire.ofInt64 m.peerIdx) ++ Wire.scalar 4 (Wire.ofInt64 m.round) ++
    Wire.scalar 6 (Wire.ofInt64 m.preparedRound) ++ Wire.blob 8 m.signature ++
    Wire.blob 11 m.valueHash ++ Wire.blob 12 m.preparedValueHash
  ofFields fs := (Duty.codec.decode? (Wire.blobsAt 2 fs)).map fun duty => {
    type := Wire.toInt64 (Wire.scalarAt 1 fs)
    duty := duty
    peerIdx := Wire.toInt64 (Wire.scalarAt 3 fs)
    round := Wire.toInt64 (Wire.scalarAt 4 fs)
    preparedRound := Wire.toInt64 (Wire.scalarAt 6 fs)
    signature := Wire.blobAt 8 fs
    valueHash := Wire.blobAt 11 fs
    preparedValueHash := Wire.blobAt 12 fs }
  ofFields_fields m := by simp +decide [Wire.scalarAt, Wire.blobAt]

def PriorityTopicProposal.codec : Wire.Codec PriorityTopicProposal where
  fields m := Wire.embedded 1 (m.topic.map Any.codec.encode) ++
    Wire.repeated 2 (m.priorities.map Any.codec.encode)
  ofFields fs := do
    let topic ← Any.codec.decode? (Wire.blobsAt 1 fs)
    let priorities ← Any.codec.decodeAll (Wire.blobsAt 2 fs)
    return ⟨topic, priorities⟩
  ofFields_fields m := by simp +decide

def PriorityMsg.codec : Wire.Codec PriorityMsg where
  fields m := Wire.embedded 1 (m.duty.map Duty.codec.encode) ++
    Wire.repeated 2 (m.topics.map PriorityTopicProposal.codec.encode) ++
    Wire.blob 3 (Wire.utf8 m.peerId) ++ Wire.blob 4 m.signature
  ofFields fs := do
    let duty ← Duty.codec.decode? (Wire.blobsAt 1 fs)
    let topics ← PriorityTopicProposal.codec.decodeAll (Wire.blobsAt 2 fs)
    let peerId ← Wire.string? (Wire.blobAt 3 fs)
    return ⟨duty, topics, peerId, Wire.blobAt 4 fs⟩
  ofFields_fields m := by simp +decide [Wire.blobAt]

def PriorityScoredResult.codec : Wire.Codec PriorityScoredResult where
  fields m := Wire.embedded 1 (m.priority.map Any.codec.encode) ++
    Wire.scalar 2 (Wire.ofInt64 m.score)
  ofFields fs := (Any.codec.decode? (Wire.blobsAt 1 fs)).map fun priority =>
    ⟨priority, Wire.toInt64 (Wire.scalarAt 2 fs)⟩
  ofFields_fields m := by simp +decide [Wire.scalarAt]

def PriorityTopicResult.codec : Wire.Codec PriorityTopicResult where
  fields m := Wire.embedded 1 (m.topic.map Any.codec.encode) ++
    Wire.repeated 2 (m.priorities.map PriorityScoredResult.codec.encode)
  ofFields fs := do
    let topic ← Any.codec.decode? (Wire.blobsAt 1 fs)
    let priorities ← PriorityScoredResult.codec.decodeAll (Wire.blobsAt 2 fs)
    return ⟨topic, priorities⟩
  ofFields_fields m := by simp +decide

def PriorityResult.codec : Wire.Codec PriorityResult where
  fields m := Wire.repeated 1 (m.msgs.map PriorityMsg.codec.encode) ++
    Wire.repeated 2 (m.topics.map PriorityTopicResult.codec.encode)
  ofFields fs := do
    let msgs ← PriorityMsg.codec.decodeAll (Wire.blobsAt 1 fs)
    let topics ← PriorityTopicResult.codec.decodeAll (Wire.blobsAt 2 fs)
    return ⟨msgs, topics⟩
  ofFields_fields m := by simp +decide

/-! ## Names and envelopes -/

/-- A message type with its `prost::Name`. -/
structure Named (M : Type) extends Wire.Codec M where
  package : String
  name : String

def Named.typeUrl {M : Type} (n : Named M) : String :=
  "type.googleapis.com/" ++ n.package ++ "." ++ n.name

def UnsignedDataSet.named : Named UnsignedDataSet :=
  { UnsignedDataSet.codec with package := "core.corepb.v1", name := "UnsignedDataSet" }

def PriorityResult.named : Named PriorityResult :=
  { PriorityResult.codec with package := "core.corepb.v1", name := "PriorityResult" }

def PriorityMsg.named : Named PriorityMsg :=
  { PriorityMsg.codec with package := "core.corepb.v1", name := "PriorityMsg" }

def QbftMsg.named : Named QbftMsg :=
  { QbftMsg.codec with package := "core.corepb.v1", name := "QBFTMsg" }

/-- `Any::from_msg` -/
def Any.fromMsg {M : Type} (n : Named M) (m : M) : Any := ⟨n.typeUrl, n.encode m⟩

lemma typeUrl_ne : PriorityResult.named.typeUrl ≠ UnsignedDataSet.named.typeUrl := by decide

/-- The reader of prost for the payloads of an envelope.  Nothing is assumed about bytes that are
not the encoding of a message. -/
structure Decoder where
  unsignedDataSet : Bytes → Option UnsignedDataSet
  priorityResult : Bytes → Option PriorityResult
  unsignedDataSet_encode : ∀ m, unsignedDataSet (UnsignedDataSet.named.encode m) = some m
  priorityResult_encode : ∀ m, priorityResult (PriorityResult.named.encode m) = some m

/-- The reader of the codecs. -/
def Decoder.wire : Decoder where
  unsignedDataSet := UnsignedDataSet.codec.decode
  priorityResult := PriorityResult.codec.decode
  unsignedDataSet_encode := UnsignedDataSet.codec.decode_encode
  priorityResult_encode := PriorityResult.codec.decode_encode

end Pluto.Corepb
