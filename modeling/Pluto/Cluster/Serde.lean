import Pluto.Cluster.Lock

/-!
# Definitions and locks as JSON

Every version of the files has structs of its own, with the fields that the version knows
(`definition.rs`, `lock.rs`, `operator.rs`, `distvalidator.rs`).  A definition or lock is converted to
the struct of its version and back; fields that the struct does not have are lost.  Up to version 1.4
a definition has one pair of addresses for all validators.

JSON itself, and how a struct is one, is `serde` and a parameter (`Json`).
-/

namespace Pluto.Cluster

open Ssz

/-! ## Operators -/

structure OperatorV1X1 where
  address : String
  enr : String
  nonce : UInt64
  configSignature : Bytes
  enrSignature : Bytes

structure OperatorV1X2OrLater where
  address : String
  enr : String
  configSignature : Bytes
  enrSignature : Bytes

/-- `From<Operator>` -/
def OperatorV1X1.ofOperator (o : Operator) : OperatorV1X1 :=
  ⟨o.address, o.enr, zeroNonce, o.configSignature, o.enrSignature⟩

/-- `TryFrom<OperatorV1X1>` -/
def Operator.tryFromV1X1 (o : OperatorV1X1) : Except DefinitionError Operator :=
  if o.nonce ≠ 0 then .error .nonZeroOperatorNonce
  else .ok ⟨o.address, o.enr, o.configSignature, o.enrSignature⟩

def OperatorV1X2OrLater.ofOperator (o : Operator) : OperatorV1X2OrLater :=
  ⟨o.address, o.enr, o.configSignature, o.enrSignature⟩

def Operator.ofV1X2OrLater (o : OperatorV1X2OrLater) : Operator :=
  ⟨o.address, o.enr, o.configSignature, o.enrSignature⟩

/-! ## Definitions -/

structure DefinitionV1x0or1 where
  name : String
  operators : List OperatorV1X1
  uuid : String
  version : String
  timestamp : String
  numValidators : UInt64
  threshold : UInt64
  feeRecipientAddress : String
  withdrawalAddress : String
  dkgAlgorithm : String
  forkVersion : Bytes
  configHash : Bytes
  definitionHash : Bytes

structure DefinitionV1x2or3 where
  name : String
  operators : List OperatorV1X2OrLater
  uuid : String
  version : String
  timestamp : String
  numValidators : UInt64
  threshold : UInt64
  feeRecipientAddress : String
  withdrawalAddress : String
  dkgAlgorithm : String
  forkVersion : Bytes
  configHash : Bytes
  definitionHash : Bytes

structure DefinitionV1x4 extends DefinitionV1x2or3 where
  creator : Creator

structure DefinitionV1x5to7 where
  name : String
  creator : Creator
  operators : List OperatorV1X2OrLater
  uuid : String
  version : String
  timestamp : String
  numValidators : UInt64
  threshold : UInt64
  validatorAddresses : List ValidatorAddresses
  dkgAlgorithm : String
  forkVersion : Bytes
  configHash : Bytes
  definitionHash : Bytes

structure DefinitionV1x8 extends DefinitionV1x5to7 where
  depositAmounts : List UInt64

structure DefinitionV1x9 extends DefinitionV1x8 where
  consensusProtocol : String

structure DefinitionV1x10 extends DefinitionV1x9 where
  targetGasLimit : UInt64
  compounding : Bool

section Definitions

variable (d : Definition)

/-- `TryFrom<Definition>` -/
def DefinitionV1x0or1.tryFrom : Except DefinitionError DefinitionV1x0or1 := do
  let addresses ← Except.okOr d.legacyValidatorAddresses .invalidValidatorAddresses
  return ⟨d.name, d.operators.map .ofOperator, d.uuid, d.version, d.timestamp, d.numValidators,
    d.threshold, addresses.feeRecipientAddress, addresses.withdrawalAddress, d.dkgAlgorithm,
    d.forkVersion, d.configHash, d.definitionHash⟩

def DefinitionV1x2or3.tryFrom : Except DefinitionError DefinitionV1x2or3 := do
  let addresses ← Except.okOr d.legacyValidatorAddresses .invalidValidatorAddresses
  return ⟨d.name, d.operators.map .ofOperator, d.uuid, d.version, d.timestamp, d.numValidators,
    d.threshold, addresses.feeRecipientAddress, addresses.withdrawalAddress, d.dkgAlgorithm,
    d.forkVersion, d.configHash, d.definitionHash⟩

/-- The fields other than the creator are those of version 1.2. -/
def DefinitionV1x4.tryFrom : Except DefinitionError DefinitionV1x4 := do
  let fields ← DefinitionV1x2or3.tryFrom d
  return ⟨fields, d.creator⟩

def DefinitionV1x5to7.ofDefinition : DefinitionV1x5to7 :=
  ⟨d.name, d.creator, d.operators.map .ofOperator, d.uuid, d.version, d.timestamp, d.numValidators,
    d.threshold, d.validatorAddresses, d.dkgAlgorithm, d.forkVersion, d.configHash,
    d.definitionHash⟩

def DefinitionV1x8.ofDefinition : DefinitionV1x8 := ⟨.ofDefinition d, d.depositAmounts⟩

def DefinitionV1x9.ofDefinition : DefinitionV1x9 := ⟨.ofDefinition d, d.consensusProtocol⟩

def DefinitionV1x10.ofDefinition : DefinitionV1x10 :=
  ⟨.ofDefinition d, d.targetGasLimit, d.compounding⟩

end Definitions

/-- One pair of addresses for every validator, if there are not too many. -/
def repeatVAddresses (addresses : ValidatorAddresses) (numValidators : UInt64) :
    Except DefinitionError (List ValidatorAddresses) :=
  if sszMaxValidators < numValidators.toNat then
    .error (.numValidatorsTooLarge numValidators.toNat sszMaxValidators)
  else .ok (List.replicate numValidators.toNat addresses)

namespace Definition

/-- `TryFrom<DefinitionV1x0or1>` -/
def tryFromV1x0or1 (d : DefinitionV1x0or1) : Except DefinitionError Definition := do
  let validatorAddresses ←
    repeatVAddresses ⟨d.feeRecipientAddress, d.withdrawalAddress⟩ d.numValidators
  let operators ← d.operators.mapM Operator.tryFromV1X1
  return {
    uuid := d.uuid, name := d.name, version := d.version, timestamp := d.timestamp,
    numValidators := d.numValidators, threshold := d.threshold, dkgAlgorithm := d.dkgAlgorithm,
    forkVersion := d.forkVersion, operators, creator := default, validatorAddresses,
    depositAmounts := [], consensusProtocol := "", targetGasLimit := 0, compounding := false,
    configHash := d.configHash, definitionHash := d.definitionHash }

/-- The fields that versions 1.2 to 1.4 share. -/
def tryFromV1x2to4 (d : DefinitionV1x2or3) (creator : Creator) :
    Except DefinitionError Definition := do
  let validatorAddresses ←
    repeatVAddresses ⟨d.feeRecipientAddress, d.withdrawalAddress⟩ d.numValidators
  return {
    uuid := d.uuid, name := d.name, version := d.version, timestamp := d.timestamp,
    numValidators := d.numValidators, threshold := d.threshold, dkgAlgorithm := d.dkgAlgorithm,
    forkVersion := d.forkVersion, operators := d.operators.map Operator.ofV1X2OrLater, creator,
    validatorAddresses, depositAmounts := [], consensusProtocol := "", targetGasLimit := 0,
    compounding := false, configHash := d.configHash, definitionHash := d.definitionHash }

def tryFromV1x2or3 (d : DefinitionV1x2or3) : Except DefinitionError Definition :=
  tryFromV1x2to4 d default

def tryFromV1x4 (d : DefinitionV1x4) : Except DefinitionError Definition :=
  tryFromV1x2to4 d.toDefinitionV1x2or3 d.creator

def ofV1x5to7 (d : DefinitionV1x5to7) : Definition where
  uuid := d.uuid
  name := d.name
  version := d.version
  timestamp := d.timestamp
  numValidators := d.numValidators
  threshold := d.threshold
  dkgAlgorithm := d.dkgAlgorithm
  forkVersion := d.forkVersion
  operators := d.operators.map Operator.ofV1X2OrLater
  creator := d.creator
  validatorAddresses := d.validatorAddresses
  depositAmounts := []
  consensusProtocol := ""
  targetGasLimit := 0
  compounding := false
  configHash := d.configHash
  definitionHash := d.definitionHash

def ofV1x8 (d : DefinitionV1x8) : Definition :=
  { ofV1x5to7 d.toDefinitionV1x5to7 with depositAmounts := d.depositAmounts }

def ofV1x9 (d : DefinitionV1x9) : Definition :=
  { ofV1x8 d.toDefinitionV1x8 with consensusProtocol := d.consensusProtocol }

def ofV1x10 (d : DefinitionV1x10) : Definition :=
  { ofV1x9 d.toDefinitionV1x9 with targetGasLimit := d.targetGasLimit, compounding := d.compounding }

end Definition

/-! ## Validators and locks

A struct that holds a registration or a definition is written over what these are in JSON. -/

/-- A `Registration`; `TimestampSeconds` keeps the seconds of the time. -/
structure RegistrationFields where
  feeRecipient : Eth2Api.ExecutionAddress
  gasLimit : UInt64
  timestamp : ℤ
  pubKey : Eth2Api.BLSPubKey

structure BuilderRegistrationFields where
  message : RegistrationFields
  signature : Eth2Api.BLSSignature

def BuilderRegistrationFields.ofRegistration (reg : BuilderRegistration) :
    BuilderRegistrationFields :=
  ⟨⟨reg.message.feeRecipient, reg.message.gasLimit, reg.message.timestamp.timestamp,
    reg.message.pubKey⟩, reg.signature⟩

def BuilderRegistration.tryFromFields (reg : BuilderRegistrationFields) :
    Option BuilderRegistration := do
  let time ← DateTime.fromTimestamp reg.message.timestamp 0
  return ⟨⟨reg.message.feeRecipient, reg.message.gasLimit, time, reg.message.pubKey⟩, reg.signature⟩

structure DistValidatorV1x0or1 where
  pubKey : Bytes
  pubShares : List Bytes
  feeRecipientAddress : Bytes

structure DistValidatorV1x2to5 where
  pubKey : Bytes
  pubShares : List Bytes
  feeRecipientAddress : Bytes

structure DistValidatorV1x6 where
  pubKey : Bytes
  pubShares : List Bytes
  depositData : DepositData

structure DistValidatorV1x7 (R : Type) where
  pubKey : Bytes
  pubShares : List Bytes
  depositData : DepositData
  builderRegistration : R

structure DistValidatorV1x8orLater (R : Type) where
  pubKey : Bytes
  pubShares : List Bytes
  partialDepositData : List DepositData
  builderRegistration : R

section Validators

variable (v : DistValidator)

/-- `From<DistValidator>` -/
def DistValidatorV1x0or1.ofValidator : DistValidatorV1x0or1 := ⟨v.pubKey, v.pubShares, []⟩

def DistValidatorV1x2to5.ofValidator : DistValidatorV1x2to5 := ⟨v.pubKey, v.pubShares, []⟩

def DistValidatorV1x6.ofValidator : DistValidatorV1x6 :=
  ⟨v.pubKey, v.pubShares, v.partialDepositData.headD default⟩

def DistValidatorV1x7.ofValidator : DistValidatorV1x7 BuilderRegistrationFields :=
  ⟨v.pubKey, v.pubShares, v.partialDepositData.headD default, .ofRegistration v.builderRegistration⟩

def DistValidatorV1x8orLater.ofValidator : DistValidatorV1x8orLater BuilderRegistrationFields :=
  ⟨v.pubKey, v.pubShares, v.partialDepositData, .ofRegistration v.builderRegistration⟩

end Validators

namespace DistValidator

/-- `From<DistValidatorV1x0or1>` -/
def ofV1x0or1 (v : DistValidatorV1x0or1) : DistValidator := ⟨v.pubKey, v.pubShares, [], default⟩

def ofV1x2to5 (v : DistValidatorV1x2to5) : DistValidator := ⟨v.pubKey, v.pubShares, [], default⟩

def ofV1x6 (v : DistValidatorV1x6) : DistValidator :=
  ⟨v.pubKey, v.pubShares, [v.depositData], default⟩

/-- The times are read with the JSON of the lock. -/
def tryFromV1x7 (v : DistValidatorV1x7 BuilderRegistrationFields) : Option DistValidator := do
  let reg ← BuilderRegistration.tryFromFields v.builderRegistration
  return ⟨v.pubKey, v.pubShares, [v.depositData], reg⟩

def tryFromV1x8orLater (v : DistValidatorV1x8orLater BuilderRegistrationFields) :
    Option DistValidator := do
  let reg ← BuilderRegistration.tryFromFields v.builderRegistration
  return ⟨v.pubKey, v.pubShares, v.partialDepositData, reg⟩

end DistValidator

structure LockV1x0or1 (J : Type) where
  definition : J
  distributedValidators : List DistValidatorV1x0or1
  lockHash : Bytes
  signatureAggregate : Bytes

structure LockV1x2to5 (J : Type) where
  definition : J
  distributedValidators : List DistValidatorV1x2to5
  lockHash : Bytes
  signatureAggregate : Bytes

structure LockV1x6 (J : Type) where
  definition : J
  distributedValidators : List DistValidatorV1x6
  lockHash : Bytes
  signatureAggregate : Bytes

structure LockV1x7 (J : Type) where
  definition : J
  distributedValidators : List (DistValidatorV1x7 BuilderRegistrationFields)
  lockHash : Bytes
  signatureAggregate : Bytes
  nodeSignatures : List Bytes

structure LockV1x8orLater (J : Type) where
  definition : J
  distributedValidators : List (DistValidatorV1x8orLater BuilderRegistrationFields)
  lockHash : Bytes
  signatureAggregate : Bytes
  nodeSignatures : List Bytes

/-! ## JSON -/

/-- JSON of a struct `T`, and one of its fields. -/
structure Serde (J T X : Type) (get : J → Option X) (field : T → X) where
  serialize : T → J
  deserialize : J → Option T
  deserialize_serialize : ∀ x, deserialize (serialize x) = some x
  get_serialize : ∀ x, get (serialize x) = some (field x)

/-- The values of `serde_json`, and the derived code of the structs. -/
structure Json (J : Type) where
  /-- `value.get("version")` as a string -/
  version : J → Option String
  /-- `value.get("cluster_definition")` -/
  clusterDefinition : J → Option J
  definitionV1x0or1 : Serde J DefinitionV1x0or1 String version (·.version)
  definitionV1x2or3 : Serde J DefinitionV1x2or3 String version (·.version)
  definitionV1x4 : Serde J DefinitionV1x4 String version (·.version)
  definitionV1x5to7 : Serde J DefinitionV1x5to7 String version (·.version)
  definitionV1x8 : Serde J DefinitionV1x8 String version (·.version)
  definitionV1x9 : Serde J DefinitionV1x9 String version (·.version)
  definitionV1x10 : Serde J DefinitionV1x10 String version (·.version)
  lockV1x0or1 : Serde J (LockV1x0or1 J) J clusterDefinition (·.definition)
  lockV1x2to5 : Serde J (LockV1x2to5 J) J clusterDefinition (·.definition)
  lockV1x6 : Serde J (LockV1x6 J) J clusterDefinition (·.definition)
  lockV1x7 : Serde J (LockV1x7 J) J clusterDefinition (·.definition)
  lockV1x8orLater : Serde J (LockV1x8orLater J) J clusterDefinition (·.definition)

inductive SerdeError
  /-- an error of `serde_json` -/
  | json
  | missingVersion
  | unsupportedVersion (version : String)
  | conversionError (error : DefinitionError)
  | numValidatorsNotMatching
  | feeRecipientNotSupported
  deriving DecidableEq, Repr

namespace Json

variable {J : Type} (json : Json J)

/-- `Serialize for Definition` -/
def serializeDefinition (d : Definition) : Except SerdeError J :=
  match Version.ofStr d.version with
  | some .v1_0 | some .v1_1 => do
    let s ← (DefinitionV1x0or1.tryFrom d).mapError .conversionError
    return json.definitionV1x0or1.serialize s
  | some .v1_2 | some .v1_3 => do
    let s ← (DefinitionV1x2or3.tryFrom d).mapError .conversionError
    return json.definitionV1x2or3.serialize s
  | some .v1_4 => do
    let s ← (DefinitionV1x4.tryFrom d).mapError .conversionError
    return json.definitionV1x4.serialize s
  | some .v1_5 | some .v1_6 | some .v1_7 =>
    .ok (json.definitionV1x5to7.serialize (.ofDefinition d))
  | some .v1_8 => .ok (json.definitionV1x8.serialize (.ofDefinition d))
  | some .v1_9 => .ok (json.definitionV1x9.serialize (.ofDefinition d))
  | some .v1_10 => .ok (json.definitionV1x10.serialize (.ofDefinition d))
  | none => .error (.unsupportedVersion d.version)

/-- From version 1.5 on the addresses are counted. -/
def checked (d : DefinitionV1x5to7) (definition : Definition) : Except SerdeError Definition :=
  if d.numValidators.toNat ≠ d.validatorAddresses.length then .error .numValidatorsNotMatching
  else .ok definition

/-- `Deserialize for Definition` -/
def deserializeDefinition (value : J) : Except SerdeError Definition := do
  let version ← Except.okOr (json.version value) .missingVersion
  match Version.ofStr version with
  | some .v1_0 | some .v1_1 => do
    let d ← Except.okOr (json.definitionV1x0or1.deserialize value) .json
    (Definition.tryFromV1x0or1 d).mapError .conversionError
  | some .v1_2 | some .v1_3 => do
    let d ← Except.okOr (json.definitionV1x2or3.deserialize value) .json
    (Definition.tryFromV1x2or3 d).mapError .conversionError
  | some .v1_4 => do
    let d ← Except.okOr (json.definitionV1x4.deserialize value) .json
    (Definition.tryFromV1x4 d).mapError .conversionError
  | some .v1_5 | some .v1_6 | some .v1_7 => do
    let d ← Except.okOr (json.definitionV1x5to7.deserialize value) .json
    checked d (.ofV1x5to7 d)
  | some .v1_8 => do
    let d ← Except.okOr (json.definitionV1x8.deserialize value) .json
    checked d.toDefinitionV1x5to7 (.ofV1x8 d)
  | some .v1_9 => do
    let d ← Except.okOr (json.definitionV1x9.deserialize value) .json
    checked d.toDefinitionV1x5to7 (.ofV1x9 d)
  | some .v1_10 => do
    let d ← Except.okOr (json.definitionV1x10.deserialize value) .json
    checked d.toDefinitionV1x5to7 (.ofV1x10 d)
  | none => .error (.unsupportedVersion version)

/-- `Serialize for Lock` -/
def serializeLock (lock : Lock) : Except SerdeError J := do
  let version ← Except.okOr (Version.ofStr lock.definition.version)
    (.unsupportedVersion lock.definition.version)
  let definition ← json.serializeDefinition lock.definition
  match version with
  | .v1_0 | .v1_1 => return json.lockV1x0or1.serialize ⟨definition,
      lock.distributedValidators.map .ofValidator, lock.lockHash, lock.signatureAggregate⟩
  | .v1_2 | .v1_3 | .v1_4 | .v1_5 => return json.lockV1x2to5.serialize ⟨definition,
      lock.distributedValidators.map .ofValidator, lock.lockHash, lock.signatureAggregate⟩
  | .v1_6 => return json.lockV1x6.serialize ⟨definition,
      lock.distributedValidators.map .ofValidator, lock.lockHash, lock.signatureAggregate⟩
  | .v1_7 => return json.lockV1x7.serialize ⟨definition,
      lock.distributedValidators.map .ofValidator, lock.lockHash, lock.signatureAggregate,
      lock.nodeSignatures⟩
  | .v1_8 | .v1_9 | .v1_10 => return json.lockV1x8orLater.serialize ⟨definition,
      lock.distributedValidators.map .ofValidator, lock.lockHash, lock.signatureAggregate,
      lock.nodeSignatures⟩

/-- `Deserialize for Lock`; the definition is read with the JSON of the lock. -/
def deserializeLock (value : J) : Except SerdeError Lock := do
  let clusterDefinition ← Except.okOr (json.clusterDefinition value) .missingVersion
  let version ← Except.okOr (json.version clusterDefinition) .missingVersion
  match Version.ofStr version with
  | some .v1_0 | some .v1_1 => do
    let lock ← Except.okOr (json.lockV1x0or1.deserialize value) .json
    let definition ← json.deserializeDefinition lock.definition
    if lock.distributedValidators.any (·.feeRecipientAddress ≠ []) then
      throw .feeRecipientNotSupported
    return ⟨definition, lock.distributedValidators.map .ofV1x0or1, lock.lockHash,
      lock.signatureAggregate, []⟩
  | some .v1_2 | some .v1_3 | some .v1_4 | some .v1_5 => do
    let lock ← Except.okOr (json.lockV1x2to5.deserialize value) .json
    let definition ← json.deserializeDefinition lock.definition
    if lock.distributedValidators.any (·.feeRecipientAddress ≠ []) then
      throw .feeRecipientNotSupported
    return ⟨definition, lock.distributedValidators.map .ofV1x2to5, lock.lockHash,
      lock.signatureAggregate, []⟩
  | some .v1_6 => do
    let lock ← Except.okOr (json.lockV1x6.deserialize value) .json
    let definition ← json.deserializeDefinition lock.definition
    return ⟨definition, lock.distributedValidators.map .ofV1x6, lock.lockHash,
      lock.signatureAggregate, []⟩
  | some .v1_7 => do
    let lock ← Except.okOr (json.lockV1x7.deserialize value) .json
    let definition ← json.deserializeDefinition lock.definition
    let validators ← Except.okOr (lock.distributedValidators.mapM DistValidator.tryFromV1x7) .json
    return ⟨definition, validators, lock.lockHash, lock.signatureAggregate, lock.nodeSignatures⟩
  | some .v1_8 | some .v1_9 | some .v1_10 => do
    let lock ← Except.okOr (json.lockV1x8orLater.deserialize value) .json
    let definition ← json.deserializeDefinition lock.definition
    let validators ←
      Except.okOr (lock.distributedValidators.mapM DistValidator.tryFromV1x8orLater) .json
    return ⟨definition, validators, lock.lockHash, lock.signatureAggregate, lock.nodeSignatures⟩
  | none => .error (.unsupportedVersion version)

end Json

end Pluto.Cluster
