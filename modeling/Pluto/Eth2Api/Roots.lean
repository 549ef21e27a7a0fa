import Pluto.Eth2Api.Spec
import Pluto.Ssz.Walker

/-!
# Roots of the beacon chain containers

The SSZ roots that the source derives for the containers that validators sign, the selections of
`v1.rs`, and what `versioned.rs` reads out of an aggregate.
-/

namespace Pluto.Eth2Api

open Ssz SszContainer
open Core.DutyDb (AttestationData Checkpoint)

/-! ## Selections -/

namespace V1

structure BeaconCommitteeSelection where
  slot : UInt64
  validatorIndex : UInt64
  selectionProof : BLSSignature
  deriving DecidableEq

structure SyncCommitteeSelection where
  slot : UInt64
  validatorIndex : UInt64
  subcommitteeIndex : UInt64
  selectionProof : BLSSignature
  deriving DecidableEq

end V1

/-! ## Trees -/

namespace Tree

/-- The packed bits of a list, without the sentinel, and the number of bits. -/
def bitList {max : ℕ} (l : BitList max) : Tree :=
  .list ((max + 255) / 256) l.bits.length
    ((chunks (packBits ((l.bits.length + 7) / 8) l.bits)).map .chunk)

def checkpoint (c : Checkpoint) : Tree := .container [Tree.uint64 c.epoch, Tree.bytes c.root.bytes]

def attestationData (d : AttestationData) : Tree :=
  .container [Tree.uint64 d.slot, Tree.uint64 d.index, Tree.bytes d.beaconBlockRoot.bytes,
    checkpoint d.source, checkpoint d.target]

def phase0Attestation (a : Phase0.Attestation) : Tree :=
  .container [bitList a.aggregationBits, attestationData a.data, Tree.bytes a.signature.bytes]

def phase0AggregateAndProof (p : Phase0.AggregateAndProof) : Tree :=
  .container [Tree.uint64 p.aggregatorIndex, phase0Attestation p.aggregate,
    Tree.bytes p.selectionProof.bytes]

def electraAttestation (a : Electra.Attestation) : Tree :=
  .container [bitList a.aggregationBits, attestationData a.data, Tree.bytes a.signature.bytes,
    Tree.bytes (leBytes 8 a.committeeBits.toNat)]

def electraAggregateAndProof (p : Electra.AggregateAndProof) : Tree :=
  .container [Tree.uint64 p.aggregatorIndex, electraAttestation p.aggregate,
    Tree.bytes p.selectionProof.bytes]

def syncCommitteeContribution (c : Altair.SyncCommitteeContribution) : Tree :=
  .container [Tree.uint64 c.slot, Tree.bytes c.beaconBlockRoot.bytes, Tree.uint64 c.subcommitteeIndex,
    Tree.bytes (leBytes 16 c.aggregationBits.toNat), Tree.bytes c.signature.bytes]

def contributionAndProof (p : Altair.ContributionAndProof) : Tree :=
  .container [Tree.uint64 p.aggregatorIndex, syncCommitteeContribution p.contribution,
    Tree.bytes p.selectionProof.bytes]

/-- `SyncAggregatorSelectionData` -/
def syncAggregatorSelectionData (slot subcommitteeIndex : UInt64) : Tree :=
  .container [Tree.uint64 slot, Tree.uint64 subcommitteeIndex]

end Tree

/-! ## Message roots -/

section Roots

variable (sha256 : Bytes → HashRoot)

/-- The tree hash root of a slot. -/
def slotRoot (slot : UInt64) : HashRoot := HashTree.root (scheme sha256) (Tree.uint64 slot)

/-- Returns the message root used for aggregation selection proofs. -/
def V1.BeaconCommitteeSelection.messageRoot (s : V1.BeaconCommitteeSelection) : HashRoot :=
  slotRoot sha256 s.slot

/-- Returns the message root used for sync committee selection proofs. -/
def V1.SyncCommitteeSelection.messageRoot (s : V1.SyncCommitteeSelection) : HashRoot :=
  HashTree.root (scheme sha256) (Tree.syncAggregatorSelectionData s.slot s.subcommitteeIndex)

/-- Returns the message root used for sync committee selection proofs. -/
def Altair.ContributionAndProof.selectionProofMessageRoot (p : Altair.ContributionAndProof) :
    HashRoot :=
  HashTree.root (scheme sha256)
    (Tree.syncAggregatorSelectionData p.contribution.slot p.contribution.subcommitteeIndex)

/-- Returns the SSZ message root of the unsigned contribution-and-proof payload. -/
def Altair.SignedContributionAndProof.messageRoot (p : Altair.SignedContributionAndProof) :
    HashRoot :=
  HashTree.root (scheme sha256) (Tree.contributionAndProof p.message)

/-- Returns the message root signed by sync committee messages. -/
def Altair.SyncCommitteeMessage.messageRoot (m : Altair.SyncCommitteeMessage) : HashRoot :=
  m.beaconBlockRoot

end Roots

/-! ## Versioned wrappers -/

/-- Returns the signature of this payload. -/
def AttestationPayload.signature : AttestationPayload → BLSSignature
  | phase0 a | altair a | bellatrix a | capella a | deneb a => a.signature
  | electra a | fulu a => a.signature

namespace SignedAggregateAndProofPayload

def slot (payload : SignedAggregateAndProofPayload) : UInt64 := payload.data.slot

def aggregatorIndex : SignedAggregateAndProofPayload → UInt64
  | phase0 p | altair p | bellatrix p | capella p | deneb p => p.message.aggregatorIndex
  | electra p | fulu p => p.message.aggregatorIndex

/-- Returns the selection proof embedded in this payload. -/
def selectionProof : SignedAggregateAndProofPayload → BLSSignature
  | phase0 p | altair p | bellatrix p | capella p | deneb p => p.message.selectionProof
  | electra p | fulu p => p.message.selectionProof

def signature : SignedAggregateAndProofPayload → BLSSignature
  | phase0 p | altair p | bellatrix p | capella p | deneb p => p.signature
  | electra p | fulu p => p.signature

/-- Returns the SSZ message root of the unsigned aggregate-and-proof payload. -/
def messageRoot (sha256 : Bytes → HashRoot) : SignedAggregateAndProofPayload → HashRoot
  | phase0 p | altair p | bellatrix p | capella p | deneb p =>
    HashTree.root (scheme sha256) (Tree.phase0AggregateAndProof p.message)
  | electra p | fulu p => HashTree.root (scheme sha256) (Tree.electraAggregateAndProof p.message)

end SignedAggregateAndProofPayload

namespace VersionedSignedAggregateAndProof

/-- Returns the attestation slot of the wrapped payload. -/
def slot (agg : VersionedSignedAggregateAndProof) : Option UInt64 :=
  if agg.version = .unknown then none else some agg.aggregateAndProof.slot

/-- Returns the selection proof of the wrapped payload. -/
def selectionProof (agg : VersionedSignedAggregateAndProof) : Option BLSSignature :=
  if agg.version = .unknown then none else some agg.aggregateAndProof.selectionProof

/-- Returns the SSZ message root of the wrapped payload. -/
def messageRoot (sha256 : Bytes → HashRoot) (agg : VersionedSignedAggregateAndProof) :
    Option HashRoot :=
  if agg.version = .unknown then none else some (agg.aggregateAndProof.messageRoot sha256)

end VersionedSignedAggregateAndProof

end Pluto.Eth2Api
