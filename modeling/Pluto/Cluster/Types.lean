import Pluto.Eth2Api.Spec

/-!
# Cluster definitions and locks

The data of `crates/cluster`: a definition is the configuration of a cluster that its operators agree
on, and a lock extends it with the distributed validators of the key generation.  Numbers are the
fixed-width ones of the source, byte arrays of fixed length carry their length.
-/

namespace Pluto.Cluster

open Eth2Api Ssz

/-! ## Versions -/

/-- The supported versions.  In the source a version is a string, see `Version.ofStr`. -/
inductive Version
  | v1_0 | v1_1 | v1_2 | v1_3 | v1_4 | v1_5 | v1_6 | v1_7 | v1_8 | v1_9 | v1_10
  deriving DecidableEq, Repr

namespace Version

def asStr : Version → String
  | v1_0 => "v1.0.0"
  | v1_1 => "v1.1.0"
  | v1_2 => "v1.2.0"
  | v1_3 => "v1.3.0"
  | v1_4 => "v1.4.0"
  | v1_5 => "v1.5.0"
  | v1_6 => "v1.6.0"
  | v1_7 => "v1.7.0"
  | v1_8 => "v1.8.0"
  | v1_9 => "v1.9.0"
  | v1_10 => "v1.10.0"

/-- `SUPPORTED_VERSIONS` -/
def supported : List Version :=
  [v1_10, v1_9, v1_8, v1_7, v1_6, v1_5, v1_4, v1_3, v1_2, v1_1, v1_0]

/-- The version that a string names, in the matches of the source. -/
def ofStr (s : String) : Option Version := supported.find? fun v => v.asStr = s

lemma ofStr_asStr (v : Version) : ofStr v.asStr = some v := by cases v <;> rfl

lemma asStr_injective : Function.Injective asStr := fun v w h => by
  rw [← Option.some_inj, ← ofStr_asStr v, h, ofStr_asStr]

lemma asStr_of_ofStr {s : String} {v : Version} (h : ofStr s = some v) : v.asStr = s := by
  simpa using List.find?_some h

/-- Whether a version is at least another one. -/
def number : Version → ℕ
  | v1_0 => 0
  | v1_1 => 1
  | v1_2 => 2
  | v1_3 => 3
  | v1_4 => 4
  | v1_5 => 5
  | v1_6 => 6
  | v1_7 => 7
  | v1_8 => 8
  | v1_9 => 9
  | v1_10 => 10

end Version

/-! ## Time -/

/-- `DateTime<Utc>`: seconds since the epoch and nanoseconds, for the years that `chrono` supports. -/
structure DateTime where
  timestamp : ℤ
  nanos : ℕ
  inRange : -8334601228800 ≤ timestamp ∧ timestamp ≤ 8210266876799 ∧ nanos < 2000000000
  deriving DecidableEq

namespace DateTime

def fromTimestamp (secs : ℤ) (nanos : ℕ) : Option DateTime :=
  if h : -8334601228800 ≤ secs ∧ secs ≤ 8210266876799 ∧ nanos < 2000000000 then some ⟨secs, nanos, h⟩
  else none

/-- The epoch. -/
instance : Inhabited DateTime := ⟨⟨0, 0, by decide⟩⟩

end DateTime

/-! ## Definitions -/

structure Operator where
  /-- The Ethereum address of the operator -/
  address : String
  enr : String
  configSignature : Bytes
  enrSignature : Bytes
  deriving DecidableEq

/-- `Operator::default` -/
instance : Inhabited Operator := ⟨⟨"", "", [], []⟩⟩

structure Creator where
  address : String
  configSignature : Bytes
  deriving DecidableEq

/-- `Creator::default` -/
instance : Inhabited Creator := ⟨⟨"", []⟩⟩

structure ValidatorAddresses where
  feeRecipientAddress : String
  withdrawalAddress : String
  deriving DecidableEq

/-- `ValidatorAddresses::default` -/
instance : Inhabited ValidatorAddresses := ⟨⟨"", ""⟩⟩

/-- Defines an intended cluster configuration excluding validators. -/
structure Definition where
  uuid : String
  name : String
  version : String
  timestamp : String
  numValidators : UInt64
  threshold : UInt64
  dkgAlgorithm : String
  forkVersion : Bytes
  operators : List Operator
  creator : Creator
  validatorAddresses : List ValidatorAddresses
  depositAmounts : List UInt64
  consensusProtocol : String
  targetGasLimit : UInt64
  compounding : Bool
  configHash : Bytes
  definitionHash : Bytes
  deriving DecidableEq

namespace Definition

/-- The loop of `legacy_validator_addresses`: every address has to be the first one. -/
def legacyValidatorAddresses (d : Definition) : Option ValidatorAddresses :=
  match d.validatorAddresses with
  | [] => some default
  | first :: rest => if rest.all (· = first) then some first else none

def feeRecipientAddresses (d : Definition) : List String :=
  d.validatorAddresses.map ValidatorAddresses.feeRecipientAddress

end Definition

/-! ## Locks -/

/-- Defines the deposit data to activate a validator. -/
structure DepositData where
  pubKey : BLSPubKey
  withdrawalCredentials : HashRoot
  amount : UInt64
  signature : BLSSignature
  deriving DecidableEq

/-- `DepositData::default` -/
instance : Inhabited DepositData := ⟨⟨default, default, 0, default⟩⟩

/-- Defines unsigned validator registration message. -/
structure Registration where
  feeRecipient : ExecutionAddress
  gasLimit : UInt64
  timestamp : DateTime
  pubKey : BLSPubKey
  deriving DecidableEq

/-- `Registration::default` -/
instance : Inhabited Registration := ⟨⟨default, 0, default, default⟩⟩

structure BuilderRegistration where
  message : Registration
  signature : BLSSignature
  deriving DecidableEq

/-- `BuilderRegistration::default` -/
instance : Inhabited BuilderRegistration := ⟨⟨default, default⟩⟩

/-- A distributed validator managed by the cluster. -/
structure DistValidator where
  /-- Distributed validator group public key. -/
  pubKey : Bytes
  /-- The public keys corresponding to each node's secret key share. -/
  pubShares : List Bytes
  partialDepositData : List DepositData
  builderRegistration : BuilderRegistration
  deriving DecidableEq

structure Lock where
  definition : Definition
  distributedValidators : List DistValidator
  lockHash : Bytes
  signatureAggregate : Bytes
  nodeSignatures : List Bytes
  deriving DecidableEq

end Pluto.Cluster
