import Pluto.Core.DutyDb.Memory
import Pluto.Ssz.BitList

/-!
# Beacon chain containers

The signed containers of `crates/eth2api/src/spec` and their versioned wrappers of
`crates/eth2api/src/versioned.rs`, with the SSZ codecs the source derives for them.  A container with
an aggregate in it is dynamic, since a bit list is; the others have a fixed length.

Signed blocks are not spelled out: nothing in this development looks into one but for its graffiti,
so their type is a parameter of `VersionedSignedProposal`.
-/

namespace Pluto.Eth2Api

open Ssz SszContainer
open Core.DutyDb (AttestationData)

/-! ## Versions -/

inductive DataVersion
  | unknown
  | phase0
  | altair
  | bellatrix
  | capella
  | deneb
  | electra
  | fulu
  deriving DecidableEq, Repr

inductive VersionError
  | unknownDataVersion
  | unknownBuilderVersion
  deriving DecidableEq, Repr

namespace DataVersion

/-- Returns a lowercase string representation. -/
def asStr : DataVersion → String
  | unknown => "unknown"
  | phase0 => "phase0"
  | altair => "altair"
  | bellatrix => "bellatrix"
  | capella => "capella"
  | deneb => "deneb"
  | electra => "electra"
  | fulu => "fulu"

/-- Returns the legacy pre-v0.18 numeric representation (phase0=0..). -/
def toLegacyU64 : DataVersion → Except VersionError UInt64
  | phase0 => .ok 0
  | altair => .ok 1
  | bellatrix => .ok 2
  | capella => .ok 3
  | deneb => .ok 4
  | electra => .ok 5
  | fulu => .ok 6
  | unknown => .error .unknownDataVersion

/-- Converts a legacy pre-v0.18 numeric value to an ETH2 data version. -/
def fromLegacyU64 (value : UInt64) : Except VersionError DataVersion :=
  if value = 0 then .ok phase0
  else if value = 1 then .ok altair
  else if value = 2 then .ok bellatrix
  else if value = 3 then .ok capella
  else if value = 4 then .ok deneb
  else if value = 5 then .ok electra
  else if value = 6 then .ok fulu
  else .error .unknownDataVersion

lemma fromLegacyU64_toLegacyU64 {version : DataVersion} {value : UInt64}
    (h : version.toLegacyU64 = .ok value) : fromLegacyU64 value = .ok version := by
  cases version <;> cases h <;> rfl

lemma toLegacyU64_lt {version : DataVersion} {value : UInt64}
    (h : version.toLegacyU64 = .ok value) : value.toNat < 7 := by
  cases version <;> cases h <;> decide

end DataVersion

/-! ## Containers -/

/-- `[u8; 96]` -/
@[ext]
structure BLSSignature where
  bytes : Bytes
  length_eq : bytes.length = 96
  deriving DecidableEq

instance : Inhabited BLSSignature := ⟨⟨List.replicate 96 0, rfl⟩⟩

/-- `[u8; 48]` -/
@[ext]
structure BLSPubKey where
  bytes : Bytes
  length_eq : bytes.length = 48
  deriving DecidableEq

instance : Inhabited BLSPubKey := ⟨⟨List.replicate 48 0, Core.length_zeros⟩⟩

/-- `[u8; 20]` -/
@[ext]
structure ExecutionAddress where
  bytes : Bytes
  length_eq : bytes.length = 20
  deriving DecidableEq

instance : Inhabited ExecutionAddress := ⟨⟨List.replicate 20 0, rfl⟩⟩

namespace Phase0

structure Attestation where
  aggregationBits : BitList 2048
  data : AttestationData
  signature : BLSSignature
  deriving DecidableEq

structure AggregateAndProof where
  aggregatorIndex : UInt64
  aggregate : Attestation
  selectionProof : BLSSignature
  deriving DecidableEq

structure SignedAggregateAndProof where
  message : AggregateAndProof
  signature : BLSSignature
  deriving DecidableEq

end Phase0

namespace Altair

structure SyncCommitteeMessage where
  slot : UInt64
  beaconBlockRoot : HashRoot
  validatorIndex : UInt64
  signature : BLSSignature
  deriving DecidableEq

structure SyncCommitteeContribution where
  slot : UInt64
  beaconBlockRoot : HashRoot
  subcommitteeIndex : UInt64
  aggregationBits : BitVec 128
  signature : BLSSignature
  deriving DecidableEq

structure ContributionAndProof where
  aggregatorIndex : UInt64
  contribution : SyncCommitteeContribution
  selectionProof : BLSSignature
  deriving DecidableEq

structure SignedContributionAndProof where
  message : ContributionAndProof
  signature : BLSSignature
  deriving DecidableEq

end Altair

namespace Electra

structure Attestation where
  aggregationBits : BitList 131072
  data : AttestationData
  signature : BLSSignature
  committeeBits : BitVec 64
  deriving DecidableEq

structure AggregateAndProof where
  aggregatorIndex : UInt64
  aggregate : Attestation
  selectionProof : BLSSignature
  deriving DecidableEq

structure SignedAggregateAndProof where
  message : AggregateAndProof
  signature : BLSSignature
  deriving DecidableEq

end Electra

/-! ## Versioned wrappers -/

/-- Attestation payload across all supported forks. -/
inductive AttestationPayload
  | phase0 (attestation : Phase0.Attestation)
  | altair (attestation : Phase0.Attestation)
  | bellatrix (attestation : Phase0.Attestation)
  | capella (attestation : Phase0.Attestation)
  | deneb (attestation : Phase0.Attestation)
  | electra (attestation : Electra.Attestation)
  | fulu (attestation : Electra.Attestation)
  deriving DecidableEq

namespace AttestationPayload

/-- Returns the attestation data embedded in this payload. -/
def data : AttestationPayload → AttestationData
  | phase0 a | altair a | bellatrix a | capella a | deneb a => a.data
  | electra a | fulu a => a.data

/-- Returns aggregation bits for this payload. -/
def aggregationBits : AttestationPayload → Bytes
  | phase0 a | altair a | bellatrix a | capella a | deneb a => a.aggregationBits.toSszBytes
  | electra a | fulu a => a.aggregationBits.toSszBytes

end AttestationPayload

structure VersionedAttestation where
  version : DataVersion
  validatorIndex : Option UInt64
  attestation : Option AttestationPayload
  deriving DecidableEq

/-- Signed aggregate-and-proof payload across all supported forks. -/
inductive SignedAggregateAndProofPayload
  | phase0 (payload : Phase0.SignedAggregateAndProof)
  | altair (payload : Phase0.SignedAggregateAndProof)
  | bellatrix (payload : Phase0.SignedAggregateAndProof)
  | capella (payload : Phase0.SignedAggregateAndProof)
  | deneb (payload : Phase0.SignedAggregateAndProof)
  | electra (payload : Electra.SignedAggregateAndProof)
  | fulu (payload : Electra.SignedAggregateAndProof)
  deriving DecidableEq

namespace SignedAggregateAndProofPayload

/-- Returns the attestation data embedded in this payload. -/
def data : SignedAggregateAndProofPayload → AttestationData
  | phase0 p | altair p | bellatrix p | capella p | deneb p => p.message.aggregate.data
  | electra p | fulu p => p.message.aggregate.data

/-- Returns aggregation bits for this payload. -/
def aggregationBits : SignedAggregateAndProofPayload → Bytes
  | phase0 p | altair p | bellatrix p | capella p | deneb p =>
    p.message.aggregate.aggregationBits.toSszBytes
  | electra p | fulu p => p.message.aggregate.aggregationBits.toSszBytes

end SignedAggregateAndProofPayload

structure VersionedSignedAggregateAndProof where
  version : DataVersion
  aggregateAndProof : SignedAggregateAndProofPayload
  deriving DecidableEq

namespace VersionedSignedAggregateAndProof

/-- Returns the attestation data for the wrapped payload. -/
def data (agg : VersionedSignedAggregateAndProof) : Option AttestationData :=
  if agg.version = .unknown then none else some agg.aggregateAndProof.data

/-- Returns aggregation bits for the wrapped payload. -/
def aggregationBits (agg : VersionedSignedAggregateAndProof) : Option Bytes :=
  if agg.version = .unknown then none else some agg.aggregateAndProof.aggregationBits

end VersionedSignedAggregateAndProof

/-- `Block` is `SignedProposalBlock`. -/
structure VersionedSignedProposal (Block : Type) where
  version : DataVersion
  blinded : Bool
  block : Block

/-- Graffiti string used to mark synthetic blocks that must never be submitted. -/
def syntheticBlockGraffiti : String := "SYNTHETIC BLOCK: DO NOT SUBMIT"

/-- 32-byte graffiti used to mark synthetic blocks, left-aligned with zero padding. -/
def syntheticGraffiti : HashRoot where
  bytes := (syntheticBlockGraffiti.toList.map fun c => UInt8.ofNat c.toNat) ++ [0, 0]
  length_eq := by decide

end Pluto.Eth2Api
