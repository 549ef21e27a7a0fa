import Pluto.Eth2Api.Spec

/-!
# Signed duty data

The types behind `dyn SignedData` of `crates/core/src/signeddata.rs`, as one type: a downcast of the
source is a match here.  Wrappers that add nothing to the container they wrap are left out.  The
containers nothing in this development looks into are parameters, in `Payloads`.
-/

namespace Pluto.Core

open Eth2Api Ssz

/-- Containers of which only a few facts matter. -/
structure SignedData.Payloads where
  /-- `SignedProposalBlock` -/
  Block : Type
  graffiti : Block → HashRoot
  /-- `v1::SignedValidatorRegistration` -/
  Registration : Type
  /-- `phase0::SignedVoluntaryExit` -/
  VoluntaryExit : Type
  SignedEpoch : Type
  /-- `v1::BeaconCommitteeSelection` -/
  BeaconSelection : Type
  /-- `v1::SyncCommitteeSelection` -/
  SyncSelection : Type

inductive BuilderVersion
  | unknown
  | v1
  deriving DecidableEq, Repr

inductive SignedData (P : SignedData.Payloads)
  | attestation (attestation : Phase0.Attestation)
  | versionedAttestation (attestation : VersionedAttestation)
  | signedAggregateAndProof (aggregate : Phase0.SignedAggregateAndProof)
  | versionedSignedAggregateAndProof (aggregate : VersionedSignedAggregateAndProof)
  | signedSyncMessage (message : Altair.SyncCommitteeMessage)
  | syncContributionAndProof (contribution : Altair.ContributionAndProof)
  | signedSyncContributionAndProof (contribution : Altair.SignedContributionAndProof)
  | versionedSignedProposal (proposal : VersionedSignedProposal P.Block)
  | versionedSignedValidatorRegistration (version : BuilderVersion) (v1 : Option P.Registration)
  | signedVoluntaryExit (exit : P.VoluntaryExit)
  | signedRandao (randao : P.SignedEpoch)
  | signature (signature : BLSSignature)
  | beaconCommitteeSelection (selection : P.BeaconSelection)
  | syncCommitteeSelection (selection : P.SyncSelection)

/-- The errors of the constructors. -/
inductive SignedDataError
  | missingV1Registration
  | unknownVersion
  | missingAttestation (version : DataVersion)
  deriving DecidableEq, Repr

namespace SignedData

variable {P : SignedData.Payloads}

/-- `VersionedAttestation::new` -/
def newVersionedAttestation (attestation : VersionedAttestation) :
    Except SignedDataError (SignedData P) :=
  if attestation.version = .unknown then .error .unknownVersion
  else
    match attestation.attestation with
    | none => .error (.missingAttestation attestation.version)
    | some _ => .ok (.versionedAttestation attestation)

/-- `VersionedSignedProposal::new` -/
def newVersionedSignedProposal (proposal : VersionedSignedProposal P.Block) :
    Except SignedDataError (SignedData P) :=
  if proposal.version = .unknown then .error .unknownVersion
  else .ok (.versionedSignedProposal proposal)

/-- `VersionedSignedValidatorRegistration::new` -/
def newVersionedSignedValidatorRegistration (version : BuilderVersion)
    (v1 : Option P.Registration) : Except SignedDataError (SignedData P) :=
  match version with
  | .v1 =>
    match v1 with
    | none => .error .missingV1Registration
    | some _ => .ok (.versionedSignedValidatorRegistration version v1)
  | .unknown => .error .unknownVersion

end SignedData

end Pluto.Core
