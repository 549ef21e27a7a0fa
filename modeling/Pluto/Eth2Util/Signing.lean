import Pluto.Crypto.Verify
import Pluto.Eth2Api.Roots
import Pluto.Eth2Util.Registration

/-!
# Signatures of the beacon chain

`signing.rs`: a signature is over the root of a message together with the domain of its type in an
epoch, and the beacon node tells the domain.  Its answers are a parameter (`BeaconNode`), and it may
give none.
-/

namespace Pluto.Eth2Util

open Ssz Eth2Api
open Crypto (Curve Blst.Pairing)

/-- Domain name as defined in the consensus and builder specs. -/
inductive DomainName
  | beaconProposer
  | beaconAttester
  | randao
  | voluntaryExit
  | applicationBuilder
  | selectionProof
  | aggregateAndProof
  | syncCommittee
  | syncCommitteeSelectionProof
  | contributionAndProof
  | deposit
  | blobSidecar
  deriving DecidableEq

/-- Returns the spec key used in `/eth/v1/config/spec`. -/
def DomainName.asSpecKey : DomainName → String
  | beaconProposer => "DOMAIN_BEACON_PROPOSER"
  | beaconAttester => "DOMAIN_BEACON_ATTESTER"
  | randao => "DOMAIN_RANDAO"
  | voluntaryExit => "DOMAIN_VOLUNTARY_EXIT"
  | applicationBuilder => "DOMAIN_APPLICATION_BUILDER"
  | selectionProof => "DOMAIN_SELECTION_PROOF"
  | aggregateAndProof => "DOMAIN_AGGREGATE_AND_PROOF"
  | syncCommittee => "DOMAIN_SYNC_COMMITTEE"
  | syncCommitteeSelectionProof => "DOMAIN_SYNC_COMMITTEE_SELECTION_PROOF"
  | contributionAndProof => "DOMAIN_CONTRIBUTION_AND_PROOF"
  | deposit => "DOMAIN_DEPOSIT"
  | blobSidecar => "DOMAIN_BLOB_SIDECAR"

/-- What the beacon node answers to the requests of `EthBeaconNodeApiClient`. -/
structure BeaconNode where
  /-- `fetch_slots_config`, without the duration of a slot -/
  fetchSlotsConfig : Option UInt64
  fetchDomainType : String → Option Bytes
  fetchGenesisDomain : Bytes → Option Bytes
  fetchDomain : Bytes → UInt64 → Option Bytes

inductive HelperError
  | gettingSpec
  | fetchSlotsPerEpoch
  deriving DecidableEq

inductive SigningError
  | beaconNode
  | helper (error : HelperError)
  | unknownAggregateAndProofVersion
  | zeroSignature
  | verification (error : Crypto.Blst.Error)
  deriving DecidableEq

namespace BeaconNode

variable (node : BeaconNode)

/-- Returns epoch calculated from given slot. -/
def epochFromSlot (slot : UInt64) : Except HelperError UInt64 := do
  let slotsPerEpoch ← Except.okOr node.fetchSlotsConfig .gettingSpec
  if slotsPerEpoch = 0 then throw .fetchSlotsPerEpoch
  return slot / slotsPerEpoch

/-- Returns the beacon domain for the provided type. -/
def getDomain (name : DomainName) (epoch : UInt64) : Except SigningError Bytes := do
  let domainType ← Except.okOr (node.fetchDomainType name.asSpecKey) .beaconNode
  if name = .applicationBuilder then
    Except.okOr (node.fetchGenesisDomain domainType) .beaconNode
  else Except.okOr (node.fetchDomain domainType epoch) .beaconNode

variable (sha256 : Bytes → HashRoot)

/-- Wraps the message root with the resolved domain and returns the signing-data root. -/
def getDataRoot (name : DomainName) (epoch : UInt64) (root : HashRoot) :
    Except SigningError HashRoot := do
  let domain ← node.getDomain name epoch
  return computeSigningRoot sha256 root domain

variable {F G₁ G₂ : Type} [Field F] [AddCommGroup G₁] [Module F G₁]
  [AddCommGroup G₂] [Module F G₂] {curve : Curve F G₁ G₂} (pairing : Blst.Pairing curve)

/-- Verifies a signature against the resolved eth2 domain signing root. -/
def verify (name : DomainName) (epoch : UInt64) (messageRoot : HashRoot) (signature : BLSSignature)
    (pubkey : BLSPubKey) : Except SigningError Unit := do
  if signature.bytes = List.replicate 96 0 then throw .zeroSignature
  let signingRoot ← node.getDataRoot sha256 name epoch messageRoot
  (Crypto.Blst.verify pairing pubkey.bytes signingRoot.bytes signature.bytes).mapError .verification

/-- Verifies the selection proof embedded in an aggregate-and-proof payload. -/
def verifyAggregateAndProofSelection (pubkey : BLSPubKey) (agg : VersionedSignedAggregateAndProof) :
    Except SigningError Unit := do
  let slot ← Except.okOr agg.slot .unknownAggregateAndProofVersion
  let epoch ← (node.epochFromSlot slot).mapError .helper
  let selectionProof ← Except.okOr agg.selectionProof .unknownAggregateAndProofVersion
  node.verify sha256 pairing .selectionProof epoch (slotRoot sha256 slot) selectionProof pubkey

end BeaconNode

end Pluto.Eth2Util
