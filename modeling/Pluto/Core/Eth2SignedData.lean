import Pluto.Core.SignedData
import Pluto.Eth2Util.Signing

/-!
# Signed data of the beacon chain

`eth2signeddata.rs`: what is signed, with which domain and in which epoch, for the types of signed data
that validator clients submit in lists.  `verifyEth2SignedData` is the check of a signature that goes by
the data alone.
-/

namespace Pluto.Core

open Ssz Eth2Api Eth2Util
open Crypto (Curve Blst.Pairing)

/-- The types behind `dyn Eth2SignedData` that are submitted in lists. -/
inductive Eth2SignedData
  | versionedAttestation (att : VersionedAttestation)
  | versionedSignedAggregateAndProof (agg : VersionedSignedAggregateAndProof)
  | beaconCommitteeSelection (selection : V1.BeaconCommitteeSelection)
  | syncCommitteeSelection (selection : V1.SyncCommitteeSelection)
  | signedSyncContributionAndProof (contrib : Altair.SignedContributionAndProof)
  | signedSyncMessage (msg : Altair.SyncCommitteeMessage)
  deriving DecidableEq

inductive Eth2SignedDataError
  | signedData (error : SignedDataError)
  | signing (error : SigningError)
  | helper (error : HelperError)
  deriving DecidableEq

/-- The payload of an attestation that `VersionedAttestation::new` accepts. -/
def VersionedAttestation.payload (att : VersionedAttestation) :
    Except SignedDataError AttestationPayload :=
  if att.version = .unknown then .error .unknownVersion
  else Except.okOr att.attestation (.missingAttestation att.version)

namespace Eth2SignedData

def signature : Eth2SignedData → Except SignedDataError BLSSignature
  | versionedAttestation att => do
    let payload ← VersionedAttestation.payload att
    return payload.signature
  | versionedSignedAggregateAndProof agg =>
    if agg.version = .unknown then .error .unknownVersion else .ok agg.aggregateAndProof.signature
  | beaconCommitteeSelection selection => .ok selection.selectionProof
  | syncCommitteeSelection selection => .ok selection.selectionProof
  | signedSyncContributionAndProof contrib => .ok contrib.signature
  | signedSyncMessage msg => .ok msg.signature

/-- Returns the eth2 signing domain for this data. -/
def domainName : Eth2SignedData → DomainName
  | versionedAttestation _ => .beaconAttester
  | versionedSignedAggregateAndProof _ => .aggregateAndProof
  | beaconCommitteeSelection _ => .selectionProof
  | syncCommitteeSelection _ => .syncCommitteeSelectionProof
  | signedSyncContributionAndProof _ => .contributionAndProof
  | signedSyncMessage _ => .syncCommittee

/-- Returns the epoch at which the signing domain is resolved. -/
def epoch (node : BeaconNode) : Eth2SignedData → Except Eth2SignedDataError UInt64
  | versionedAttestation att => do
    let payload ← (VersionedAttestation.payload att).mapError .signedData
    return payload.data.target.epoch
  | versionedSignedAggregateAndProof agg => do
    let slot ← Except.okOr agg.slot (.signedData .unknownVersion)
    (node.epochFromSlot slot).mapError .helper
  | beaconCommitteeSelection selection => (node.epochFromSlot selection.slot).mapError .helper
  | syncCommitteeSelection selection => (node.epochFromSlot selection.slot).mapError .helper
  | signedSyncContributionAndProof contrib =>
    (node.epochFromSlot contrib.message.contribution.slot).mapError .helper
  | signedSyncMessage msg => (node.epochFromSlot msg.slot).mapError .helper

/-- The slot that the data is for. -/
def slot : Eth2SignedData → Option UInt64
  | versionedAttestation att => att.attestation.map fun payload => payload.data.slot
  | versionedSignedAggregateAndProof agg => agg.slot
  | beaconCommitteeSelection selection => some selection.slot
  | syncCommitteeSelection selection => some selection.slot
  | signedSyncContributionAndProof contrib => some contrib.message.contribution.slot
  | signedSyncMessage msg => some msg.slot

variable (sha256 : Bytes → HashRoot)

def messageRoot : Eth2SignedData → Except SignedDataError HashRoot
  | versionedAttestation att => do
    let payload ← VersionedAttestation.payload att
    return HashTree.root (scheme sha256) (Tree.attestationData payload.data)
  | versionedSignedAggregateAndProof agg => Except.okOr (agg.messageRoot sha256) .unknownVersion
  | beaconCommitteeSelection selection => .ok (selection.messageRoot sha256)
  | syncCommitteeSelection selection => .ok (selection.messageRoot sha256)
  | signedSyncContributionAndProof contrib => .ok (contrib.messageRoot sha256)
  | signedSyncMessage msg => .ok msg.messageRoot

variable {F G₁ G₂ : Type} [Field F] [AddCommGroup G₁] [Module F G₁]
  [AddCommGroup G₂] [Module F G₂] {curve : Curve F G₁ G₂} (pairing : Blst.Pairing curve)

/-- Verifies the eth2 signature associated with the given data. -/
def verifyEth2SignedData (node : BeaconNode) (data : Eth2SignedData) (pubkey : BLSPubKey) :
    Except Eth2SignedDataError Unit := do
  let sigRoot ← (data.messageRoot sha256).mapError .signedData
  let signature ← data.signature.mapError .signedData
  let epoch ← data.epoch node
  (node.verify sha256 pairing data.domainName epoch sigRoot signature pubkey).mapError .signing

variable {sha256 pairing} in
lemma verifyEth2SignedData_ok_iff {node : BeaconNode} {data : Eth2SignedData} {pubkey : BLSPubKey} :
    verifyEth2SignedData sha256 pairing node data pubkey = .ok () ↔
      ∃ root signature epoch, data.messageRoot sha256 = .ok root ∧ data.signature = .ok signature ∧
        data.epoch node = .ok epoch ∧
        node.verify sha256 pairing data.domainName epoch root signature pubkey = .ok () := by
  simp only [verifyEth2SignedData, Except.bind_ok_iff, Except.mapError_ok_iff]
  exact ⟨fun ⟨r, hr, s, hs, e, he, hv⟩ => ⟨r, s, e, hr, hs, he, hv⟩,
    fun ⟨r, s, e, hr, hs, he, hv⟩ => ⟨r, hr, s, hs, e, he, hv⟩⟩

end Eth2SignedData

end Pluto.Core
