import Pluto.Eth2Api.Spec

/-!
# SSZ codecs of the beacon chain containers

What `ssz_derive` generates for the containers of `Eth2Api.Spec`: the fields in the order of the
source.  That a value comes back from its bytes is part of a `Codec`; it holds for bit lists within
their maximum, and for all other values.

The rest is what a decoder that guesses a format depends on.  A container that starts with a dynamic
field starts with the length of its head (`Phase0.readLe_of_decode_attestation` and so on), and the
slot of an attestation comes right after.
-/

namespace Pluto.Eth2Api

open Ssz SszContainer
open Core.DutyDb (AttestationData Checkpoint)

/-! ## Basic types -/

def uint64 : Codec UInt64 :=
  (Codec.number 8).map (fun v => ⟨v.toNat, v.toNat_lt⟩) (fun n => UInt64.ofNat n.val) (by simp)

def hashRoot : Codec HashRoot :=
  (Codec.byteArray 32).map (fun h => ⟨h.bytes, h.length_eq⟩) (fun b => ⟨b.val, b.property⟩)
    fun _ => rfl

def blsSignature : Codec BLSSignature :=
  (Codec.byteArray 96).map (fun s => ⟨s.bytes, s.length_eq⟩) (fun b => ⟨b.val, b.property⟩)
    fun _ => rfl

/-- `BitVector<64>` -/
def bitVector64 : Codec (BitVec 64) :=
  (Codec.number 8).map (fun v => ⟨v.toNat, v.isLt⟩) (fun n => BitVec.ofNat 64 n.val) (by simp)

/-- `BitVector<128>` -/
def bitVector128 : Codec (BitVec 128) :=
  (Codec.number 16).map (fun v => ⟨v.toNat, v.isLt⟩) (fun n => BitVec.ofNat 128 n.val) (by simp)

/-! ## Containers -/

def checkpoint : Codec Checkpoint :=
  ((Fields.cons uint64 <| .cons hashRoot .nil).map (fun c => (c.epoch, c.root, ()))
    (fun f => ⟨f.1, f.2.1⟩) fun _ => rfl).container (by decide)

def attestationData : Codec AttestationData :=
  ((Fields.cons uint64 <| .cons uint64 <| .cons hashRoot <| .cons checkpoint <|
      .cons checkpoint .nil).map
    (fun d => (d.slot, d.index, d.beaconBlockRoot, d.source, d.target, ()))
    (fun f => ⟨f.1, f.2.1, f.2.2.1, f.2.2.2.1, f.2.2.2.2.1⟩) fun _ => rfl).container (by decide)

namespace Phase0

def attestation : Codec Attestation :=
  ((Fields.cons (BitList.codec 2048) <| .cons attestationData <| .cons blsSignature .nil).map
    (fun a => (a.aggregationBits, a.data, a.signature, ()))
    (fun f => ⟨f.1, f.2.1, f.2.2.1⟩) fun _ => rfl).container (by decide)

def aggregateAndProof : Codec AggregateAndProof :=
  ((Fields.cons uint64 <| .cons attestation <| .cons blsSignature .nil).map
    (fun a => (a.aggregatorIndex, a.aggregate, a.selectionProof, ()))
    (fun f => ⟨f.1, f.2.1, f.2.2.1⟩) fun _ => rfl).container (by decide)

def signedAggregateAndProof : Codec SignedAggregateAndProof :=
  ((Fields.cons aggregateAndProof <| .cons blsSignature .nil).map
    (fun a => (a.message, a.signature, ()))
    (fun f => ⟨f.1, f.2.1⟩) fun _ => rfl).container (by decide)

end Phase0

namespace Altair

def syncCommitteeMessage : Codec SyncCommitteeMessage :=
  ((Fields.cons uint64 <| .cons hashRoot <| .cons uint64 <| .cons blsSignature .nil).map
    (fun m => (m.slot, m.beaconBlockRoot, m.validatorIndex, m.signature, ()))
    (fun f => ⟨f.1, f.2.1, f.2.2.1, f.2.2.2.1⟩) fun _ => rfl).container (by decide)

def syncCommitteeContribution : Codec SyncCommitteeContribution :=
  ((Fields.cons uint64 <| .cons hashRoot <| .cons uint64 <| .cons bitVector128 <|
      .cons blsSignature .nil).map
    (fun c => (c.slot, c.beaconBlockRoot, c.subcommitteeIndex, c.aggregationBits, c.signature, ()))
    (fun f => ⟨f.1, f.2.1, f.2.2.1, f.2.2.2.1, f.2.2.2.2.1⟩) fun _ => rfl).container (by decide)

def contributionAndProof : Codec ContributionAndProof :=
  ((Fields.cons uint64 <| .cons syncCommitteeContribution <| .cons blsSignature .nil).map
    (fun c => (c.aggregatorIndex, c.contribution, c.selectionProof, ()))
    (fun f => ⟨f.1, f.2.1, f.2.2.1⟩) fun _ => rfl).container (by decide)

def signedContributionAndProof : Codec SignedContributionAndProof :=
  ((Fields.cons contributionAndProof <| .cons blsSignature .nil).map
    (fun c => (c.message, c.signature, ()))
    (fun f => ⟨f.1, f.2.1⟩) fun _ => rfl).container (by decide)

end Altair

namespace Electra

def attestation : Codec Attestation :=
  ((Fields.cons (BitList.codec 131072) <| .cons attestationData <| .cons blsSignature <|
      .cons bitVector64 .nil).map
    (fun a => (a.aggregationBits, a.data, a.signature, a.committeeBits, ()))
    (fun f => ⟨f.1, f.2.1, f.2.2.1, f.2.2.2.1⟩) fun _ => rfl).container (by decide)

def aggregateAndProof : Codec AggregateAndProof :=
  ((Fields.cons uint64 <| .cons attestation <| .cons blsSignature .nil).map
    (fun a => (a.aggregatorIndex, a.aggregate, a.selectionProof, ()))
    (fun f => ⟨f.1, f.2.1, f.2.2.1⟩) fun _ => rfl).container (by decide)

def signedAggregateAndProof : Codec SignedAggregateAndProof :=
  ((Fields.cons aggregateAndProof <| .cons blsSignature .nil).map
    (fun a => (a.message, a.signature, ()))
    (fun f => ⟨f.1, f.2.1⟩) fun _ => rfl).container (by decide)

end Electra

/-! ## Valid values -/

/-- Fixed-size data is always valid; lists have to keep to their limits. -/
lemma valid_attestationData (data : AttestationData) : attestationData.Valid data := by
  simp [attestationData, checkpoint, uint64, hashRoot, Fields.container, Fields.map, Fields.cons,
    Fields.nil, Codec.map, Codec.number, Codec.byteArray]

lemma Phase0.valid_attestation {a : Phase0.Attestation}
    (h : a.aggregationBits.bits.length ≤ 2048) : Phase0.attestation.Valid a :=
  ⟨h, valid_attestationData _, trivial, trivial⟩

lemma Phase0.valid_signedAggregateAndProof {a : Phase0.SignedAggregateAndProof}
    (h : a.message.aggregate.aggregationBits.bits.length ≤ 2048) :
    Phase0.signedAggregateAndProof.Valid a :=
  ⟨⟨trivial, Phase0.valid_attestation h, trivial, trivial⟩, trivial, trivial⟩

lemma Electra.valid_attestation {a : Electra.Attestation}
    (h : a.aggregationBits.bits.length ≤ 131072) : Electra.attestation.Valid a :=
  ⟨h, valid_attestationData _, trivial, trivial, trivial⟩

lemma Electra.valid_signedAggregateAndProof {a : Electra.SignedAggregateAndProof}
    (h : a.message.aggregate.aggregationBits.bits.length ≤ 131072) :
    Electra.signedAggregateAndProof.Valid a :=
  ⟨⟨trivial, Electra.valid_attestation h, trivial, trivial⟩, trivial, trivial⟩

lemma Altair.valid_syncCommitteeMessage (m : Altair.SyncCommitteeMessage) :
    Altair.syncCommitteeMessage.Valid m :=
  ⟨trivial, trivial, trivial, trivial, trivial⟩

lemma Altair.valid_signedContributionAndProof (c : Altair.SignedContributionAndProof) :
    Altair.signedContributionAndProof.Valid c :=
  ⟨⟨trivial, ⟨trivial, trivial, trivial, trivial, trivial, trivial⟩, trivial, trivial⟩, trivial,
    trivial⟩

/-! ## The first bytes -/

/-- What is decoded as an attestation starts with the size of its fixed part. -/
lemma Phase0.readLe_of_decode_attestation {bytes : Bytes} {a : Phase0.Attestation}
    (h : Phase0.attestation.decode bytes = .ok a) : readLe (bytes.take 4) = 228 :=
  (Fields.readLe_of_decode rfl h).trans rfl

lemma Phase0.readLe_of_decode_signedAggregateAndProof {bytes : Bytes}
    {a : Phase0.SignedAggregateAndProof}
    (h : Phase0.signedAggregateAndProof.decode bytes = .ok a) : readLe (bytes.take 4) = 100 :=
  (Fields.readLe_of_decode rfl h).trans rfl

/-- Attestation data starts with the slot. -/
lemma encode_attestationData (data : AttestationData) :
    ∃ rest, attestationData.encode data = leBytes 8 data.slot.toNat ++ rest :=
  ⟨_, rfl⟩

/-- An attestation starts with the offset of its bits and the slot. -/
lemma Phase0.encode_attestation {a : Phase0.Attestation} (ha : Phase0.attestation.Valid a) :
    ∃ rest, Phase0.attestation.encode a =
      leBytes 4 228 ++ (leBytes 8 a.data.slot.toNat ++ rest) := by
  obtain ⟨head, tail, hencode⟩ : ∃ head tail, Phase0.attestation.encode a =
      leBytes 4 228 ++ (attestationData.encode a.data ++ head) ++ tail :=
    ⟨_, _, (Fields.encode_container ha).trans rfl⟩
  obtain ⟨rest, hrest⟩ := encode_attestationData a.data
  exact ⟨rest ++ (head ++ tail), by simp only [hencode, hrest, List.append_assoc]⟩

lemma Electra.encode_attestation {a : Electra.Attestation} (ha : Electra.attestation.Valid a) :
    ∃ rest, Electra.attestation.encode a =
      leBytes 4 236 ++ (leBytes 8 a.data.slot.toNat ++ rest) := by
  obtain ⟨head, tail, hencode⟩ : ∃ head tail, Electra.attestation.encode a =
      leBytes 4 236 ++ (attestationData.encode a.data ++ head) ++ tail :=
    ⟨_, _, (Fields.encode_container ha).trans rfl⟩
  obtain ⟨rest, hrest⟩ := encode_attestationData a.data
  exact ⟨rest ++ (head ++ tail), by simp only [hencode, hrest, List.append_assoc]⟩

end Pluto.Eth2Api
