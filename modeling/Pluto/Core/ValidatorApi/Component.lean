import Pluto.Core.Eth2SignedData
import Pluto.Core.Scheduler.Definition

/-!
# The validator API

The handlers of `validatorapi/component.rs` that take a list of signed entries: attestations, aggregates,
the two kinds of selections, sync committee contributions and sync committee messages.  A handler checks
one entry after the other and collects partial signatures by slot and public key.  Then it hands the
sets to the subscribers, and for selections it waits for the aggregates.

What the beacon node and the hooks answer while an entry is handled comes with the entry (`Upstream`).
The subscribers are functions that accept a set or not, and a handler is an `Attempt` whose state is the
list of their calls.
-/

namespace Pluto.Core.ValidatorApi

open Ssz Eth2Api Eth2Util
open Crypto (Curve Blst.Pairing)
open Scheduler (DutyDefinition)
open DutyDb (AttestationData)

/-! ## Errors -/

inductive StatusCode
  | badRequest
  | internalServerError
  | badGateway
  | serviceUnavailable
  | gatewayTimeout
  deriving DecidableEq

/-- The source errors are left out. -/
structure ApiError where
  statusCode : StatusCode
  message : String
  deriving DecidableEq

/-- What ends a handler early. -/
inductive Failure
  | api (error : ApiError)
  | panic (message : String)
  deriving DecidableEq

inductive VerifyPartialSigError
  | unknownPubKey
  | signing (error : SigningError)
  deriving DecidableEq

/-! ## The component -/

structure ParSignedData where
  signedData : Eth2SignedData
  shareIdx : UInt64
  deriving DecidableEq

abbrev ParSignedDataSet : Type := HashMap PubKey ParSignedData

/-- A subscriber accepts a set of partial signatures or fails. -/
abbrev Subscriber : Type := Duty → ParSignedDataSet → Bool

structure Component where
  shareIdx : UInt64
  pubShareByPubkey : HashMap BLSPubKey BLSPubKey
  insecureTest : Bool
  subs : List Subscriber
  /-- `await_agg_sig_db_fn`, if it is registered -/
  awaitAggSigDb : Option (Duty → PubKey → Option Eth2SignedData)

/-- A call of the subscriber with the given number. -/
structure Call where
  sub : ℕ
  duty : Duty
  set : ParSignedDataSet

inductive DutyDefError
  | notRegistered
  | failed
  | unexpectedType
  deriving DecidableEq

inductive PubKeyByAttError
  | notRegistered
  | failed
  deriving DecidableEq

/-- What the beacon node and the hooks answer while an entry is handled. -/
structure Upstream where
  node : BeaconNode
  dutyDef : Duty → Except DutyDefError (HashMap PubKey DutyDefinition)
  definitionOrder : IterOrder (Sigma fun _ : PubKey => DutyDefinition)
  pubKeyByAtt : UInt64 → UInt64 → UInt64 → Except PubKeyByAttError PubKey

/-- What the validator cache answers. -/
inductive CacheError
  | elapsed
  | failed
  deriving DecidableEq

/-- The index and the root public key of each active validator. -/
abbrev ActiveValidators : Type := HashMap UInt64 BLSPubKey

def PubKey.ofBls (pubkey : BLSPubKey) : PubKey := ⟨pubkey.bytes, pubkey.length_eq⟩

def pubkeyToBls (pk : PubKey) : BLSPubKey := ⟨pk.bytes, pk.length_eq⟩

/-! ## Checks -/

namespace Component

section Checks

variable {F G₁ G₂ : Type} [Field F] [AddCommGroup G₁] [Module F G₁] [AddCommGroup G₂] [Module F G₂]
  {curve : Curve F G₁ G₂} (sha256 : Bytes → HashRoot) (pairing : Blst.Pairing curve) (c : Component)

/-- Returns the cluster's active validators. -/
def fetchActiveValidators (answer : Except CacheError ActiveValidators) :
    Except ApiError ActiveValidators :=
  answer.mapError fun
    | .elapsed => ⟨.gatewayTimeout, "upstream active validators timed out"⟩
    | .failed => ⟨.badGateway, "active validators lookup failed"⟩

/-- Verifies a partial BLS signature produced by the validator client against this node's public share
for the given DV root pubkey. -/
def verifyPartialSig (node : BeaconNode) (rootPubkey : BLSPubKey) (domainName : DomainName)
    (epoch : UInt64) (messageRoot : HashRoot) (signature : BLSSignature) :
    Except VerifyPartialSigError Unit :=
  if c.insecureTest then .ok ()
  else do
    let pubshare ← Except.okOr (c.pubShareByPubkey.lookup rootPubkey) .unknownPubKey
    (node.verify sha256 pairing domainName epoch messageRoot signature pubshare).mapError .signing

def verifyPartialSigError : VerifyPartialSigError → ApiError
  | .unknownPubKey =>
    ⟨.internalServerError, "unknown public key for partial signature verification"⟩
  | .signing _ => ⟨.badRequest, "partial signature verification failed"⟩

/-- Verifies the signature of a `ParSignedData` under the supplied BLS domain and epoch. -/
def verifyParSigWithDomain (node : BeaconNode) (pubkey : PubKey) (domain : DomainName) (epoch : UInt64)
    (parSig : ParSignedData) : Except ApiError Unit := do
  let signature ← parSig.signedData.signature.mapError
    fun _ => ⟨.internalServerError, "could not extract partial signature"⟩
  let messageRoot ← (parSig.signedData.messageRoot sha256).mapError
    fun _ => ⟨.internalServerError, "could not derive message root"⟩
  (c.verifyPartialSig sha256 pairing node (pubkeyToBls pubkey) domain epoch messageRoot
    signature).mapError verifyPartialSigError

def verifyParSignedAttestation (node : BeaconNode) (pubkey : PubKey) (epoch : UInt64)
    (parSig : ParSignedData) : Except ApiError Unit :=
  c.verifyParSigWithDomain sha256 pairing node pubkey .beaconAttester epoch parSig

def verifyParSignedAggregate (node : BeaconNode) (pubkey : PubKey) (epoch : UInt64)
    (parSig : ParSignedData) : Except ApiError Unit :=
  c.verifyParSigWithDomain sha256 pairing node pubkey .aggregateAndProof epoch parSig

/-- The domain choice is hard-wired to the signed-data wrapper passed in. -/
def wrapperDomain : Eth2SignedData → Except ApiError DomainName
  | .signedSyncMessage _ => .ok .syncCommittee
  | .signedSyncContributionAndProof _ => .ok .contributionAndProof
  | _ => .error ⟨.internalServerError, "unsupported signed-data wrapper for verify_partial_sig_for"⟩

/-- Verifies a partial signature with the domain of its wrapper and the epoch of the slot. -/
def verifyPartialSigFor (node : BeaconNode) (parSig : ParSignedData) (rootPubkey : BLSPubKey)
    (slot : UInt64) : Except ApiError Unit :=
  if c.insecureTest then .ok ()
  else do
    let domainName ← wrapperDomain parSig.signedData
    let epoch ← (node.epochFromSlot slot).mapError
      fun _ => ⟨.badGateway, "could not derive epoch from slot"⟩
    let messageRoot ← (parSig.signedData.messageRoot sha256).mapError
      fun _ => ⟨.internalServerError, "could not derive signed-data message root"⟩
    let signature ← parSig.signedData.signature.mapError
      fun _ => ⟨.badRequest, "missing partial signature"⟩
    (c.verifyPartialSig sha256 pairing node rootPubkey domainName epoch messageRoot
      signature).mapError fun
      | .unknownPubKey => ⟨.badRequest, "unknown validator public key for partial signature"⟩
      | .signing _ => ⟨.badRequest, "invalid partial signature"⟩

/-- Looks up the DV root pubkey for a selection's `validator_index`. -/
def resolveValidator (validatorIndex : UInt64) (activeValidators : ActiveValidators)
    (endpoint : String) : Except ApiError (BLSPubKey × PubKey) := do
  let root ← Except.okOr (activeValidators.lookup validatorIndex)
    ⟨.badRequest, s!"{endpoint}: validator not found"⟩
  return (root, PubKey.ofBls root)

/-- Verifies a selection's partial signature. -/
def verifySelectionPartialSig (node : BeaconNode) (rootPubkey : BLSPubKey) (domain : DomainName)
    (slot : UInt64) (messageRoot : HashRoot) (signature : BLSSignature) (endpoint : String) :
    Except ApiError Unit := do
  let epoch ← (node.epochFromSlot slot).mapError
    fun _ => ⟨.badGateway, s!"{endpoint}: epoch lookup failed"⟩
  (c.verifyPartialSig sha256 pairing node rootPubkey domain epoch messageRoot signature).mapError fun
    | .unknownPubKey => ⟨.internalServerError, s!"{endpoint}: unknown validator public key"⟩
    | .signing _ => ⟨.badRequest, s!"{endpoint}: invalid partial signature"⟩

end Checks

end Component

/-! ## Attestations -/

def missingPayload : ApiError := ⟨.badRequest, "missing attestation payload"⟩

/-- Returns the attestation data of a VC-submitted versioned attestation. -/
def attestationData (att : VersionedAttestation) : Except ApiError AttestationData := do
  let payload ← Except.okOr att.attestation missingPayload
  return payload.data

/-- The indices of the bits that are set, in ascending order. -/
def bitIndices (size : ℕ) (bitAt : ℕ → Bool) : List ℕ := (List.range size).filter bitAt

/-- Returns the committee index of a VC-submitted versioned attestation: for pre-Electra forks it is the
attestation data's `index`; for Electra and Fulu it is the single set bit of the committee bitfield. -/
def attestationCommitteeIndex (att : VersionedAttestation) : Except ApiError UInt64 := do
  let payload ← Except.okOr att.attestation missingPayload
  match att.version with
  | .phase0 | .altair | .bellatrix | .capella | .deneb => return payload.data.index
  | .electra | .fulu =>
    match payload with
    | .electra a | .fulu a =>
      match bitIndices 64 a.committeeBits.getLsbD with
      | [single] => return .ofNat single
      | [] => throw ⟨.badRequest, "no committee index found in committee bits"⟩
      | _ => throw ⟨.badRequest, "multiple committee indices found in committee bits"⟩
    | _ => throw ⟨.badRequest, "electra attestation payload mismatch"⟩
  | .unknown => throw ⟨.badRequest, "invalid attestations version"⟩

/-- Returns the set-bit indices of an attestation's aggregation bitfield. -/
def attestationAggregationBitIndices (att : VersionedAttestation) : Except ApiError (List ℕ) := do
  let payload ← Except.okOr att.attestation missingPayload
  match payload with
  | .phase0 a | .altair a | .bellatrix a | .capella a | .deneb a =>
    return bitIndices a.aggregationBits.bits.length a.aggregationBits.bitAt
  | .electra a | .fulu a => return bitIndices a.aggregationBits.bits.length a.aggregationBits.bitAt

namespace Upstream

variable (up : Upstream)

/-- Looks up the attester-duty definition set for a slot. -/
def lookupAttesterDefinitions (slot : UInt64) :
    Except ApiError (HashMap PubKey DutyDefinition) :=
  (up.dutyDef ⟨slot, .attester⟩).mapError fun
    | .notRegistered => ⟨.serviceUnavailable, "duty definition lookup not registered"⟩
    | .failed => ⟨.internalServerError, "duty definition lookup failed"⟩
    | .unexpectedType =>
      ⟨.internalServerError, "duty definition lookup returned unexpected type"⟩

/-- The loop over the definitions: the index of the validator with the committee and the single bit of
the attestation, or 0. -/
def matchDuty (att : VersionedAttestation) (attData : AttestationData) :
    List DutyDefinition → Except ApiError UInt64
  | [] => .ok 0
  | .attester duty :: defs =>
    if duty.committeeIndex ≠ attData.index then matchDuty att attData defs
    else do
      match ← attestationAggregationBitIndices att with
      | [singleBit] =>
        if duty.validatorCommitteeIndex = .ofNat singleBit then return duty.validatorIndex
        else matchDuty att attData defs
      | _ => throw ⟨.badRequest, "unexpected number of aggregation bits"⟩
  | .proposer _ :: defs => matchDuty att attData defs
  | .syncCommittee _ :: defs => matchDuty att attData defs

/-- Resolves the validator index for a VC-submitted attestation. -/
def resolveAttestationValidatorIndex (att : VersionedAttestation) (attData : AttestationData) :
    Except ApiError UInt64 :=
  match att.version with
  | .phase0 | .altair | .bellatrix | .capella | .deneb => do
    let defSet ← up.lookupAttesterDefinitions attData.slot
    matchDuty att attData (HashMap.valuesIn up.definitionOrder defSet)
  | .electra | .fulu =>
    Except.okOr att.validatorIndex ⟨.badRequest, "missing attestation validator index"⟩
  | .unknown => .error ⟨.badRequest, "invalid attestations version"⟩

/-- Resolves the DV root pubkey responsible for an attestation. -/
def pubKeyByAttestation (slot committeeIndex validatorIndex : UInt64) : Except ApiError PubKey :=
  (up.pubKeyByAtt slot committeeIndex validatorIndex).mapError fun
    | .notRegistered => ⟨.serviceUnavailable, "pubkey-by-attestation lookup not registered"⟩
    | .failed => ⟨.badRequest, "failed to find pubkey"⟩

end Upstream

/-! ## Aggregates -/

def invalidAggregateVersion : ApiError := ⟨.badRequest, "invalid aggregate-and-proof version"⟩

/-- Returns the aggregator validator index of a VC-submitted versioned signed aggregate-and-proof. -/
def aggregateAggregatorIndex (agg : VersionedSignedAggregateAndProof) : Except ApiError UInt64 :=
  if agg.version = .unknown then .error invalidAggregateVersion
  else .ok agg.aggregateAndProof.aggregatorIndex

def validatorNotFound : ApiError := ⟨.badRequest, "validator not found"⟩

/-! ## The turn of a loop

What each handler does with one entry: it ends with a partial signature, with the slot and the public key
under which it is kept. -/

structure Prepared where
  slot : UInt64
  pubkey : PubKey
  parSig : ParSignedData
  deriving DecidableEq

namespace Component

section Turns

variable {F G₁ G₂ : Type} [Field F] [AddCommGroup G₁] [Module F G₁] [AddCommGroup G₂] [Module F G₂]
  {curve : Curve F G₁ G₂} (sha256 : Bytes → HashRoot) (pairing : Blst.Pairing curve) (c : Component)
  (up : Upstream)

/-- The turn of `submit_attestations`. -/
def prepareAttestation (att : VersionedAttestation) : Except ApiError Prepared := do
  let attData ← attestationData att
  let committeeIndex ← attestationCommitteeIndex att
  let valIdx ← up.resolveAttestationValidatorIndex att attData
  let pubkey ← up.pubKeyByAttestation attData.slot committeeIndex valIdx
  let _payload ← (VersionedAttestation.payload att).mapError
    fun _ => ⟨.badRequest, "could not wrap VC attestation as signed data"⟩
  let parSig : ParSignedData := ⟨.versionedAttestation att, c.shareIdx⟩
  c.verifyParSignedAttestation sha256 pairing up.node pubkey attData.target.epoch parSig
  return ⟨attData.slot, pubkey, parSig⟩

/-- The turn of `submit_aggregate_attestations`. -/
def prepareAggregate (vals : ActiveValidators) (agg : VersionedSignedAggregateAndProof) :
    Except ApiError Prepared := do
  let slot ← Except.okOr agg.slot invalidAggregateVersion
  let aggregatorIndex ← aggregateAggregatorIndex agg
  let eth2Pubkey ← Except.okOr (vals.lookup aggregatorIndex) validatorNotFound
  let pubkey := PubKey.ofBls eth2Pubkey
  let parSig : ParSignedData := ⟨.versionedSignedAggregateAndProof agg, c.shareIdx⟩
  if ¬c.insecureTest then
    (up.node.verifyAggregateAndProofSelection sha256 pairing eth2Pubkey agg).mapError
      fun _ => ⟨.badRequest, "aggregate selection proof verification failed"⟩
    let epoch ← (up.node.epochFromSlot slot).mapError
      fun _ => ⟨.badGateway, "could not resolve epoch from slot"⟩
    c.verifyParSignedAggregate sha256 pairing up.node pubkey epoch parSig
  return ⟨slot, pubkey, parSig⟩

/-- The turn of `beacon_committee_selections`. -/
def prepareBeaconSelection (activeValidators : ActiveValidators)
    (selection : V1.BeaconCommitteeSelection) : Except ApiError Prepared := do
  let (rootPubkey, corePubkey) ← resolveValidator selection.validatorIndex activeValidators
    "beacon committee selection"
  let parSig : ParSignedData := ⟨.beaconCommitteeSelection selection, c.shareIdx⟩
  c.verifySelectionPartialSig sha256 pairing up.node rootPubkey .selectionProof selection.slot
    (selection.messageRoot sha256) selection.selectionProof "beacon committee selection"
  return ⟨selection.slot, corePubkey, parSig⟩

/-- The turn of `sync_committee_selections`. -/
def prepareSyncSelection (activeValidators : ActiveValidators)
    (selection : V1.SyncCommitteeSelection) : Except ApiError Prepared := do
  let (rootPubkey, corePubkey) ← resolveValidator selection.validatorIndex activeValidators
    "sync committee selection"
  let parSig : ParSignedData := ⟨.syncCommitteeSelection selection, c.shareIdx⟩
  c.verifySelectionPartialSig sha256 pairing up.node rootPubkey .syncCommitteeSelectionProof
    selection.slot (selection.messageRoot sha256) selection.selectionProof "sync committee selection"
  return ⟨selection.slot, corePubkey, parSig⟩

/-- The check of the selection proof in a contribution, which is made with the key of the validator and
not with a share. -/
def verifyContributionSelection (eth2Pubkey : BLSPubKey)
    (contrib : Altair.SignedContributionAndProof) : Except ApiError Unit := do
  let epoch ← (up.node.epochFromSlot contrib.message.contribution.slot).mapError
    fun _ => ⟨.badGateway, "could not derive epoch for sync contribution"⟩
  (up.node.verify sha256 pairing .syncCommitteeSelectionProof epoch
    (contrib.message.selectionProofMessageRoot sha256) contrib.message.selectionProof
    eth2Pubkey).mapError fun _ => ⟨.badRequest, "invalid sync committee selection proof"⟩

/-- The turn of `submit_sync_committee_contributions`. -/
def prepareContribution (vals : ActiveValidators) (contrib : Altair.SignedContributionAndProof) :
    Except ApiError Prepared := do
  let slot := contrib.message.contribution.slot
  let eth2Pubkey ← Except.okOr (vals.lookup contrib.message.aggregatorIndex) validatorNotFound
  if ¬c.insecureTest then verifyContributionSelection sha256 pairing up eth2Pubkey contrib
  let parSig : ParSignedData := ⟨.signedSyncContributionAndProof contrib, c.shareIdx⟩
  c.verifyPartialSigFor sha256 pairing up.node parSig eth2Pubkey slot
  return ⟨slot, PubKey.ofBls eth2Pubkey, parSig⟩

/-- The turn of `submit_sync_committee_messages`. -/
def prepareSyncMessage (vals : ActiveValidators) (msg : Altair.SyncCommitteeMessage) :
    Except ApiError Prepared := do
  let eth2Pubkey ← Except.okOr (vals.lookup msg.validatorIndex) validatorNotFound
  let parSig : ParSignedData := ⟨.signedSyncMessage msg, c.shareIdx⟩
  c.verifyPartialSigFor sha256 pairing up.node parSig eth2Pubkey msg.slot
  return ⟨msg.slot, PubKey.ofBls eth2Pubkey, parSig⟩

end Turns

end Component

/-! ## Handlers -/

/-- The sets of partial signatures by slot. -/
abbrev SetsBySlot : Type := HashMap UInt64 ParSignedDataSet

/-- `entry(slot).or_default().insert(pubkey, par_sig)` -/
def SetsBySlot.add (sets : SetsBySlot) (p : Prepared) : SetsBySlot :=
  sets.insert p.slot (AList.insert p.pubkey p.parSig ((sets.lookup p.slot).getD ∅))

/-- The loop over the entries. -/
def groupBySlot {α : Type} (prepare : α → Except ApiError Prepared) (entries : List α) :
    Except ApiError SetsBySlot :=
  entries.foldlM (fun sets entry => do
    let p ← prepare entry
    return sets.add p) ∅

/-- The order in which the sets are visited, and the one in which the keys of each set are. -/
structure Orders where
  slots : IterOrder (Sigma fun _ : UInt64 => ParSignedDataSet)
  keys : UInt64 → IterOrder (Sigma fun _ : PubKey => ParSignedData)

/-- A handler, which leaves the calls of subscribers behind. -/
abbrev Handler (α : Type) : Type := Attempt Failure (List Call) α

namespace Component

variable (c : Component) (orders : Orders)

/-- Calls one subscriber after the other with a set, up to the first that fails. -/
def fanout (error : ApiError) (duty : Duty) (set : ParSignedDataSet) : Handler PUnit :=
  c.subs.zipIdx.forM fun sub => do
    modify (· ++ [⟨sub.2, duty, set⟩])
    if sub.1 duty set then pure ⟨⟩ else throw (.api error)

/-- The loop that hands the sets to the subscribers. -/
def fanoutAll (error : ApiError) (dutyType : DutyType) (sets : SetsBySlot) : Handler PUnit :=
  (orders.slots.order sets.entries).forM fun e => c.fanout error ⟨e.1, dutyType⟩ e.2

/-- A handler that returns nothing. -/
def submit {α : Type} (error : ApiError) (dutyType : DutyType)
    (prepare : α → Except ApiError Prepared) (entries : List α) : Handler PUnit := do
  let sets ← Attempt.ofExcept ((groupBySlot prepare entries).mapError .api)
  c.fanoutAll orders error dutyType sets

/-- The slots and keys of some sets, in the order in which their aggregates are asked for. -/
def slotKeys (sets : SetsBySlot) : List (UInt64 × PubKey) :=
  (orders.slots.order sets.entries).flatMap fun e =>
    (HashMap.keysIn (orders.keys e.1) e.2).map fun pk => (e.1, pk)

/-- The loop that asks for the aggregates. -/
def awaitAll {β : Type} (lookupFailed invalid : ApiError) (dutyType : DutyType)
    (downcast : Eth2SignedData → Option β) (await : Duty → PubKey → Option Eth2SignedData)
    (keys : List (UInt64 × PubKey)) : Except ApiError (List β) :=
  keys.mapM fun key => do
    let signed ← Except.okOr (await ⟨key.1, dutyType⟩ key.2) lookupFailed
    Except.okOr (downcast signed) invalid

/-- A handler of selections, which returns their aggregates. -/
def select {α β : Type} (name : String) (dutyType : DutyType)
    (prepare : α → Except ApiError Prepared) (downcast : Eth2SignedData → Option β)
    (entries : List α) : Handler (List β) := do
  let sets ← Attempt.ofExcept ((groupBySlot prepare entries).mapError .api)
  c.fanoutAll orders ⟨.internalServerError, s!"{name} subscriber failed"⟩ dutyType sets
  match c.awaitAggSigDb with
  | none => throw (.panic "await_agg_sig_db hook must be registered before serving requests")
  | some await => Attempt.ofExcept ((awaitAll
      ⟨.internalServerError, s!"aggregated {name} lookup failed"⟩
      ⟨.internalServerError, s!"invalid {name}"⟩ dutyType downcast await
      (slotKeys orders sets)).mapError .api)

variable {F G₁ G₂ : Type} [Field F] [AddCommGroup G₁] [Module F G₁] [AddCommGroup G₂] [Module F G₂]
  {curve : Curve F G₁ G₂} (sha256 : Bytes → HashRoot) (pairing : Blst.Pairing curve)

def submitAttestations (attestations : List (Upstream × VersionedAttestation)) : Handler PUnit :=
  c.submit orders ⟨.internalServerError, "subscriber failed"⟩ .attester
    (fun e => c.prepareAttestation sha256 pairing e.1 e.2) attestations

def submitAggregateAttestations (answer : Except CacheError ActiveValidators)
    (aggregates : List (Upstream × VersionedSignedAggregateAndProof)) : Handler PUnit := do
  let vals ← Attempt.ofExcept ((fetchActiveValidators answer).mapError .api)
  c.submit orders ⟨.internalServerError, "subscriber failed"⟩ .aggregator
    (fun e => c.prepareAggregate sha256 pairing e.1 vals e.2) aggregates

def beaconCommitteeSelections (answer : Except CacheError ActiveValidators)
    (selections : List (Upstream × V1.BeaconCommitteeSelection)) :
    Handler (List V1.BeaconCommitteeSelection) := do
  let vals ← Attempt.ofExcept ((fetchActiveValidators answer).mapError .api)
  c.select orders "beacon committee selection" .prepareAggregator
    (fun e => c.prepareBeaconSelection sha256 pairing e.1 vals e.2)
    (fun | .beaconCommitteeSelection selection => some selection | _ => none) selections

def syncCommitteeSelections (answer : Except CacheError ActiveValidators)
    (selections : List (Upstream × V1.SyncCommitteeSelection)) :
    Handler (List V1.SyncCommitteeSelection) := do
  let vals ← Attempt.ofExcept ((fetchActiveValidators answer).mapError .api)
  c.select orders "sync committee selection" .prepareSyncContribution
    (fun e => c.prepareSyncSelection sha256 pairing e.1 vals e.2)
    (fun | .syncCommitteeSelection selection => some selection | _ => none) selections

def submitSyncCommitteeContributions (answer : Except CacheError ActiveValidators)
    (contributions : List (Upstream × Altair.SignedContributionAndProof)) : Handler PUnit := do
  let vals ← Attempt.ofExcept ((fetchActiveValidators answer).mapError .api)
  c.submit orders ⟨.internalServerError, "subscriber failed to process partial signed data"⟩
    .syncContribution (fun e => c.prepareContribution sha256 pairing e.1 vals e.2) contributions

def submitSyncCommitteeMessages (answer : Except CacheError ActiveValidators)
    (messages : List (Upstream × Altair.SyncCommitteeMessage)) : Handler PUnit := do
  let vals ← Attempt.ofExcept ((fetchActiveValidators answer).mapError .api)
  c.submit orders ⟨.internalServerError, "subscriber failed to process partial signed data"⟩
    .syncMessage (fun e => c.prepareSyncMessage sha256 pairing e.1 vals e.2) messages

end Component

end Pluto.Core.ValidatorApi
