import Pluto.Core.Deadline.Deadliner
import Pluto.Lib.FirstWrite
import Pluto.Lib.HashMap
import Pluto.Ssz.Hasher

/-!
# The in-memory DutyDB

`State` of `crates/core/src/dutydb/memory.rs` and the methods of `MemDB` that run under its lock:
`store` with everything it writes and evicts, and the lookups that the `await_*` queries poll.  A
method that returns early keeps what it has written so far, so the methods are `Attempt`s.  All of
them but the one for aggregates keep the first value of a key; such a write comes with a definition
of its own, which the method runs.

A set of unsigned data is a hash map; it comes here as its entries in the order the map is iterated
in.  Of a proposal and of a versioned attestation the database only uses the accessors in
`Payloads`; the tree hash roots are parameters too.  What the deadliner answers and the expired
duties it has sent are arguments of `store`.  The notifications are in `DutyDb.Waiters`.
-/

namespace Pluto.Core.DutyDb

open Ssz

/-! ## Data -/

structure Checkpoint where
  epoch : UInt64
  root : HashRoot
  deriving DecidableEq

/-- `phase0::AttestationData` -/
structure AttestationData where
  slot : UInt64
  index : UInt64
  beaconBlockRoot : HashRoot
  source : Checkpoint
  target : Checkpoint
  deriving DecidableEq

/-- What the database uses of an attester duty. -/
structure AttesterDuty where
  slot : UInt64
  validatorIndex : UInt64
  committeeIndex : UInt64
  deriving DecidableEq

/-- Unsigned attestation data paired with its duty. -/
structure UnsignedAttestation where
  data : AttestationData
  duty : AttesterDuty
  deriving DecidableEq

/-- `altair::SyncCommitteeContribution` -/
structure SyncCommitteeContribution where
  slot : UInt64
  beaconBlockRoot : HashRoot
  subcommitteeIndex : UInt64
  aggregationBits : BitVec 128
  signature : List UInt8
  deriving DecidableEq

/-- The payload types that vary with the fork, with what the database uses of them, and the tree
hash roots. -/
structure Payloads where
  /-- `VersionedProposal` -/
  Proposal : Type
  /-- `VersionedAggregatedAttestation` -/
  Attestation : Type
  slot : Proposal → UInt64
  root : Proposal → HashRoot
  data : Attestation → Option AttestationData
  dataRoot : AttestationData → HashRoot
  contributionRoot : SyncCommitteeContribution → HashRoot

/-- Small payloads: a block is its slot and its root, an aggregate its data, and each root is the
block root the data names. -/
def Payloads.plain : Payloads where
  Proposal := UInt64 × HashRoot
  Attestation := AttestationData
  slot := Prod.fst
  root := Prod.snd
  data := some
  dataRoot := AttestationData.beaconBlockRoot
  contributionRoot := SyncCommitteeContribution.beaconBlockRoot

/-- Unsigned duty data. -/
inductive UnsignedDutyData (P : Payloads)
  | proposal (proposal : P.Proposal)
  | attestation (attestation : UnsignedAttestation)
  | aggAttestation (attestation : P.Attestation)
  | syncContribution (contribution : SyncCommitteeContribution)

/-- Error type for DutyDB operations. -/
inductive Error
  | expiredDuty
  | deadlineComputation
  | unexpectedProposerSetLength
  | deprecatedDutyBuilderProposer
  | unsupportedDutyType
  | clashingPublicKey (slot committeeIndex validatorIndex : UInt64)
  | clashingAttestationData (slot committeeIndex : UInt64)
  | clashingSyncContributions (slot subcommitteeIndex : UInt64)
  | clashingBlocks (slot : UInt64)
  | pubKeyNotFound (slot committeeIndex validatorIndex : UInt64)
  | unknownDutyType
  | invalidVersionedProposal
  | invalidAttestationData
  | invalidAggregatedAttestation
  | invalidSyncContribution
  deriving DecidableEq, Repr

/-! ## State -/

/-- Lookup key for attestation data. -/
structure AttKey where
  slot : UInt64
  committeeIndex : UInt64
  deriving DecidableEq, Repr

/-- Lookup key for public-key-by-attestation. -/
structure PkKey where
  slot : UInt64
  committeeIndex : UInt64
  validatorIndex : UInt64
  deriving DecidableEq, Repr

/-- Lookup key for aggregated attestations. -/
structure AggKey where
  root : HashRoot
  deriving DecidableEq

/-- Lookup key for sync contributions. -/
structure ContribKey where
  slot : UInt64
  subcommitteeIndex : UInt64
  root : HashRoot
  deriving DecidableEq

/-- The attestation data entry that goes with a public key entry. -/
def PkKey.attKey (key : PkKey) : AttKey := ⟨key.slot, key.committeeIndex⟩

/-- The maps, the indexes for deletion, and the eviction high-water marks. -/
structure State (P : Payloads) where
  attestationDuties : HashMap AttKey AttestationData
  attestationPubKeys : HashMap PkKey PubKey
  attestationKeysBySlot : HashMap UInt64 (List PkKey)
  proposerDuties : HashMap UInt64 P.Proposal
  aggregationDuties : HashMap AggKey P.Attestation
  aggregationKeysBySlot : HashMap UInt64 (List AggKey)
  contribDuties : HashMap ContribKey SyncCommitteeContribution
  contribKeysBySlot : HashMap UInt64 (List ContribKey)
  maxEvictedAttestationSlot : Option UInt64
  maxEvictedProposerSlot : Option UInt64
  maxEvictedContribSlot : Option UInt64

/-- `MemDB::new` -/
def State.empty (P : Payloads) : State P where
  attestationDuties := ∅
  attestationPubKeys := ∅
  attestationKeysBySlot := ∅
  proposerDuties := ∅
  aggregationDuties := ∅
  aggregationKeysBySlot := ∅
  contribDuties := ∅
  contribKeysBySlot := ∅
  maxEvictedAttestationSlot := none
  maxEvictedProposerSlot := none
  maxEvictedContribSlot := none

/-! ## Storing -/

namespace State

variable {P : Payloads}

def proposalWrite (proposal : P.Proposal) : Write Error (State P) where
  standing s := .against (s.proposerDuties.lookup (P.slot proposal))
    fun existing => P.root existing = P.root proposal
  clash := .clashingBlocks (P.slot proposal)
  insert s := { s with proposerDuties := s.proposerDuties.insert (P.slot proposal) proposal }

def storeProposal (proposal : P.Proposal) : Attempt Error (State P) Unit :=
  (proposalWrite proposal).run

def attPubkeyWrite (dutySlot : UInt64) (key : PkKey) (pubkey : PubKey) :
    Write Error (State P) where
  standing s := .against (s.attestationPubKeys.lookup key) fun existing => existing = pubkey
  clash := .clashingPublicKey key.slot key.committeeIndex key.validatorIndex
  insert s :=
    { s with
      attestationPubKeys := s.attestationPubKeys.insert key pubkey
      attestationKeysBySlot := s.attestationKeysBySlot.push dutySlot key }

def storeAttPubkey (slot dutySlot committeeIndex validatorIndex : UInt64) (pubkey : PubKey) :
    Attempt Error (State P) Unit :=
  (attPubkeyWrite dutySlot ⟨slot, committeeIndex, validatorIndex⟩ pubkey).run

/-- The full check of the real committee index. -/
def agreesFully (existing data : AttestationData) : Bool :=
  existing.source = data.source ∧ existing.target = data.target ∧
    existing.beaconBlockRoot = data.beaconBlockRoot

/-- The relaxed check of committee index 0, which ignores the head. -/
def agreesOnCheckpoints (existing data : AttestationData) : Bool :=
  existing.source = data.source ∧ existing.target = data.target

/-- The two writes of attestation data differ in the key and in what the clash check compares. -/
def attDataWrite (key : AttKey) (agrees : AttestationData → AttestationData → Bool)
    (data : AttestationData) : Write Error (State P) where
  standing s := .against (s.attestationDuties.lookup key) fun existing => agrees existing data
  clash := .clashingAttestationData key.slot key.committeeIndex
  insert s := { s with attestationDuties := s.attestationDuties.insert key data }

def storeAttData (slot committeeIndex : UInt64) (data : AttestationData) :
    Attempt Error (State P) Unit :=
  (attDataWrite ⟨slot, committeeIndex⟩ agreesFully data).run

/-- Stores attestation data under the hardcoded committee index 0. -/
def storeAttDataCommidx0 (slot : UInt64) (data : AttestationData) :
    Attempt Error (State P) Unit :=
  (attDataWrite ⟨slot, 0⟩ agreesOnCheckpoints data).run

def storeAttestation (pubkey : PubKey) (att : UnsignedAttestation) :
    Attempt Error (State P) Unit := do
  let slot := att.data.slot
  let dutySlot := att.duty.slot
  let committeeIndex := att.duty.committeeIndex
  let validatorIndex := att.duty.validatorIndex
  storeAttPubkey slot dutySlot committeeIndex validatorIndex pubkey
  storeAttData slot committeeIndex att.data
  storeAttPubkey slot dutySlot 0 validatorIndex pubkey
  storeAttDataCommidx0 slot att.data

/-- The value is overwritten; only a new key is indexed. -/
def insertAggregate (data : AttestationData) (agg : P.Attestation) (s : State P) : State P :=
  let key : AggKey := ⟨P.dataRoot data⟩
  { s with
    aggregationKeysBySlot :=
      if (s.aggregationDuties.lookup key).isSome then s.aggregationKeysBySlot
      else s.aggregationKeysBySlot.push data.slot key
    aggregationDuties := s.aggregationDuties.insert key agg }

def storeAggAttestation (agg : P.Attestation) : Attempt Error (State P) Unit :=
  match P.data agg with
  | none => throw .invalidAggregatedAttestation
  | some data => modify (insertAggregate data agg)

def syncContributionWrite (contrib : SyncCommitteeContribution) : Write Error (State P) where
  standing s := .against
    (s.contribDuties.lookup ⟨contrib.slot, contrib.subcommitteeIndex, contrib.beaconBlockRoot⟩)
    fun existing => P.contributionRoot existing = P.contributionRoot contrib
  clash := .clashingSyncContributions contrib.slot contrib.subcommitteeIndex
  insert s :=
    let key : ContribKey := ⟨contrib.slot, contrib.subcommitteeIndex, contrib.beaconBlockRoot⟩
    { s with
      contribDuties := s.contribDuties.insert key contrib
      contribKeysBySlot := s.contribKeysBySlot.push contrib.slot key }

def storeSyncContribution (contrib : SyncCommitteeContribution) : Attempt Error (State P) Unit :=
  (syncContributionWrite contrib).run

/-- An entry of a data set, in the loop of its duty type. -/
def storeEntry (dutyType : DutyType) (entry : PubKey × UnsignedDutyData P) :
    Attempt Error (State P) Unit :=
  match dutyType, entry.2 with
  | .attester, .attestation att => storeAttestation entry.1 att
  | .attester, _ => throw .invalidAttestationData
  | .aggregator, .aggAttestation agg => storeAggAttestation agg
  | .aggregator, _ => throw .invalidAggregatedAttestation
  | .syncContribution, .syncContribution contrib => storeSyncContribution contrib
  | .syncContribution, _ => throw .invalidSyncContribution
  | .proposer, .proposal proposal => storeProposal proposal
  | .proposer, _ => throw .invalidVersionedProposal
  | _, _ => throw .unsupportedDutyType

/-- The part of `store` that writes: the entries of the set, in iteration order. -/
def storeSet (dutyType : DutyType) (entries : List (PubKey × UnsignedDutyData P)) :
    Attempt Error (State P) Unit :=
  match dutyType with
  | .proposer =>
    if entries.length > 1 then throw .unexpectedProposerSetLength
    else entries.forM (storeEntry .proposer)
  | .attester | .aggregator | .syncContribution => entries.forM (storeEntry dutyType)
  | _ => throw .unsupportedDutyType

/-! ## Evicting -/

/-- Raises an eviction high-water mark. -/
def bumpHighWater (mark : Option UInt64) (slot : UInt64) : Option UInt64 :=
  some (mark.elim slot fun current => max current slot)

def deleteDuty (duty : Duty) : Attempt Error (State P) Unit :=
  match duty.dutyType with
  | .proposer => modify fun s =>
    { s with
      proposerDuties := s.proposerDuties.erase duty.slot
      maxEvictedProposerSlot := bumpHighWater s.maxEvictedProposerSlot duty.slot }
  | .builderProposer => throw .deprecatedDutyBuilderProposer
  | .attester => modify fun s =>
    let keys := s.attestationKeysBySlot.listAt duty.slot
    { s with
      attestationKeysBySlot := s.attestationKeysBySlot.erase duty.slot
      attestationPubKeys := s.attestationPubKeys.eraseAll keys
      attestationDuties := s.attestationDuties.eraseAll (keys.map PkKey.attKey)
      maxEvictedAttestationSlot := bumpHighWater s.maxEvictedAttestationSlot duty.slot }
  | .aggregator => modify fun s =>
    { s with
      aggregationKeysBySlot := s.aggregationKeysBySlot.erase duty.slot
      aggregationDuties :=
        s.aggregationDuties.eraseAll (s.aggregationKeysBySlot.listAt duty.slot) }
  | .syncContribution => modify fun s =>
    { s with
      contribKeysBySlot := s.contribKeysBySlot.erase duty.slot
      contribDuties := s.contribDuties.eraseAll (s.contribKeysBySlot.listAt duty.slot)
      maxEvictedContribSlot := bumpHighWater s.maxEvictedContribSlot duty.slot }
  | _ => throw .unknownDutyType

/-- How `store` takes the answer of the deadliner. -/
def scheduled : Deadline.AddOutcome → Except Error Unit
  | .scheduled => .ok ()
  | .alreadyExpired => .error .expiredDuty
  | .noDeadline => .error .unsupportedDutyType
  | .failedToCompute => .error .deadlineComputation

/-- `MemDB::store` under the lock: `outcome` is the answer of the deadliner, `expired` the duties it
has sent by the time they are drained. -/
def store (outcome : Deadline.AddOutcome) (duty : Duty)
    (entries : List (PubKey × UnsignedDutyData P)) (expired : List Duty) :
    Attempt Error (State P) Unit := do
  if duty.dutyType = .builderProposer then throw .deprecatedDutyBuilderProposer
  match scheduled outcome with
  | .error e => throw e
  | .ok () => pure ()
  storeSet duty.dutyType entries
  expired.forM deleteDuty

end State

/-! ## Queries -/

/-- The arguments of an `await_*` call. -/
inductive Query
  | proposal (slot : UInt64)
  | attestation (slot committeeIndex : UInt64)
  | aggAttestation (attestationRoot : HashRoot)
  | syncContribution (slot subcommitteeIndex : UInt64) (beaconBlockRoot : HashRoot)
  deriving DecidableEq

/-- What an `await_*` call returns. -/
inductive Answer (P : Payloads)
  | proposal (proposal : P.Proposal)
  | attestation (data : AttestationData)
  | aggAttestation (attestation : P.Attestation)
  | syncContribution (contribution : SyncCommitteeContribution)

/-- Per-poll outcome handed back by a lookup closure. -/
inductive Lookup (P : Payloads)
  | found (answer : Answer P)
  | evicted
  | pending

namespace State

variable {P : Payloads} (s : State P)

/-- Absent data is evicted if its slot is at or below the mark. -/
def absent (mark : Option UInt64) (slot : UInt64) : Lookup P :=
  if mark.any (slot ≤ ·) then .evicted else .pending

/-- The lookup closures of the `await_*` calls. -/
def lookup : Query → Lookup P
  | .proposal slot =>
    match s.proposerDuties.lookup slot with
    | some v => .found (.proposal v)
    | none => absent s.maxEvictedProposerSlot slot
  | .attestation slot committeeIndex =>
    match s.attestationDuties.lookup ⟨slot, committeeIndex⟩ with
    | some v => .found (.attestation v)
    | none => absent s.maxEvictedAttestationSlot slot
  | .aggAttestation attestationRoot =>
    match s.aggregationDuties.lookup ⟨attestationRoot⟩ with
    | some v => .found (.aggAttestation v)
    | none => .pending
  | .syncContribution slot subcommitteeIndex beaconBlockRoot =>
    match s.contribDuties.lookup ⟨slot, subcommitteeIndex, beaconBlockRoot⟩ with
    | some v => .found (.syncContribution v)
    | none => absent s.maxEvictedContribSlot slot

def pubKeyByAttestation (slot committeeIndex validatorIndex : UInt64) : Except Error PubKey :=
  match s.attestationPubKeys.lookup ⟨slot, committeeIndex, validatorIndex⟩ with
  | some pubkey => .ok pubkey
  | none => .error (.pubKeyNotFound slot committeeIndex validatorIndex)

end State

end Pluto.Core.DutyDb
