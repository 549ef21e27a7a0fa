import Pluto.Cluster.Lock
import Pluto.Crypto.Verify
import Pluto.Eth2Util.Eip712
import Pluto.Eth2Util.Network
import Pluto.Eth2Util.Registration

/-!
# The signatures of definitions and locks

`Definition::verify_signatures` with `eip712sigs.rs`, and `Lock::verify_signatures`.  The operators and
the creator sign typed data with their Ethereum keys; the shares of all validators sign the lock hash
together, every validator signs its registration, and every node signs the lock hash.
-/

namespace Pluto.Cluster

open Ssz K1Util Eth2Api Eth2Util Crypto

/-! ## Typed data -/

structure Eip712TypeField where
  field : String
  fieldType : String
  valueFunc : Definition → Operator → Eip712.Value

structure Eip712Type where
  primaryType : String
  fields : List Eip712TypeField

/-- A type whose only field is the config hash. -/
def configHashType (primaryType field : String) : Eip712Type :=
  ⟨primaryType, [⟨field, Eip712.primitiveString, fun d _ =>
    .string (String.ofList ('0' :: 'x' :: Hex.encode d.configHash))⟩]⟩

def eip712CreatorConfigHash : Eip712Type :=
  configHashType "CreatorConfigHash" "creator_config_hash"

def eip712OperatorConfigHash : Eip712Type :=
  configHashType "OperatorConfigHash" "operator_config_hash"

def eip712V1x3ConfigHash : Eip712Type := configHashType "ConfigHash" "config_hash"

def eip712Enr : Eip712Type :=
  ⟨"ENR", [⟨"enr", Eip712.primitiveString, fun _ operator => .string operator.enr⟩]⟩

/-- Returns the latest or legacy operator type. -/
def getOperatorEip712Type (version : String) : Eip712Type :=
  if version = Version.v1_3.asStr then eip712V1x3ConfigHash else eip712OperatorConfigHash

/-- What the checks use of other crates and of the Ethereum network. -/
structure Ethereum (SK PK : Type) where
  enr : Enr.Primitives SK PK
  networks : List Network
  /-- `Address::to_checksum` -/
  toChecksum : ExecutionAddress → String
  /-- `Address::from_raw_public_key` -/
  publicKeyToAddress : PK → ExecutionAddress
  /-- `EthClient::verify_smart_contract_based_signature` -/
  verifySmartContractBasedSignature : String → Bytes → Bytes → Option Bool

section Model

variable {SK PK : Type} (eth : Ethereum SK PK)

def digestEip712 (typ : Eip712Type) (d : Definition) (operator : Operator) :
    Except Eip712Error Bytes := do
  let chainId ←
    (Network.forkVersionToChainId eth.networks d.forkVersion).mapError fun _ => .networkError
  let fields := typ.fields.map fun f => ⟨f.field, f.fieldType, f.valueFunc d operator⟩
  (Eip712.hashTypedData eth.enr.keccak256
    ⟨⟨"Obol", "1", chainId⟩, ⟨typ.primaryType, fields⟩⟩).mapError fun _ => .failedToHashTypedData

/-- Returns true if the signature matches the digest and the expected address. -/
def verifySig (expectedAddr : String) (digest sig : Bytes) : Except VerifySigError Bool := do
  let expected ← Except.okOr (verifyAddress expectedAddr) .invalidExpectedAddress
  let recovered ← (recover eth.enr.k1 digest sig).mapError .failedToRecoverPubKey
  return eth.toChecksum expected = eth.toChecksum (eth.publicKeyToAddress recovered)

namespace Definition

/-! ## Definitions -/

def supportEip712Sigs (version : String) : Bool :=
  version ≠ Version.v1_0.asStr ∧ version ≠ Version.v1_1.asStr ∧ version ≠ Version.v1_2.asStr

def eip712SigsPresent (operators : List Operator) : Bool :=
  operators.any fun operator => operator.enrSignature ≠ [] ∨ operator.configSignature ≠ []

def verifyContractSignature (contractAddress : String) (digest sig : Bytes) :
    Except DefinitionError Bool :=
  if digest.length ≠ 32 then .error (.invalidEip712DigestLength 32 digest.length)
  else Except.okOr (eth.verifySmartContractBasedSignature contractAddress digest sig)
    .failedToVerifyContractSignature

/-- A signature of an operator, by their key or else by their contract. -/
def verifyOperatorSig (operator : Operator) (digest sig : Bytes) : Except DefinitionError Bool := do
  let valid ← (verifySig eth operator.address digest sig).mapError .verifySigError
  if valid then return true else verifyContractSignature eth operator.address digest sig

/-- One turn of the loop over the operators, on the number of those that signed nothing. -/
def verifyOperator (d : Definition) (configHashDigest : Bytes) (noOpSigs : ℕ)
    (operator : Operator) : Except DefinitionError ℕ := do
  if operator.address = "" ∧ operator.enrSignature = [] ∧ operator.configSignature = [] then
    return noOpSigs + 1
  if operator.enrSignature = [] then throw (.emptyOperatorENRSignature operator.address)
  if operator.configSignature = [] then throw (.emptyOperatorConfigSignature operator.address)
  if !(← verifyOperatorSig eth operator configHashDigest operator.configSignature) then
    throw (.invalidOperatorConfigSignature operator.address)
  let enrDigest ← (digestEip712 eth eip712Enr d operator).mapError .eip712Error
  if !(← verifyOperatorSig eth operator enrDigest operator.enrSignature) then
    throw (.invalidOperatorENRSignature operator.address)
  return noOpSigs

/-- The check of the creator. -/
def verifyCreator (d : Definition) (noOpSigs : ℕ) : Except DefinitionError Unit := do
  if d.version = Version.v1_3.asStr then
    if d.creator.configSignature ≠ [] then throw .unexpectedCreatorConfigSignatureInOldVersion
  else if d.creator.address = "" ∧ d.creator.configSignature = [] then
    if noOpSigs = 0 then throw .operatorsSignedWhileCreatorDidNot
  else
    if d.creator.configSignature = [] then throw .emptyCreatorConfigSignature
    let digest ← (digestEip712 eth eip712CreatorConfigHash d default).mapError .eip712Error
    let valid ←
      (verifySig eth d.creator.address digest d.creator.configSignature).mapError .verifySigError
    if !valid then throw .invalidCreatorConfigSignature

def verifySignatures (d : Definition) : Except DefinitionError Unit := do
  if !supportEip712Sigs d.version then
    if eip712SigsPresent d.operators then throw .olderVersionSignaturesNotSupported
  else
    let configHashDigest ←
      (digestEip712 eth (getOperatorEip712Type d.version) d default).mapError .eip712Error
    let noOpSigs ← d.operators.foldlM (verifyOperator eth d configHashDigest) 0
    if 0 < noOpSigs ∧ noOpSigs ≠ d.operators.length then
      throw .someOperatorsSignedWhileOthersDidNot
    verifyCreator eth d noOpSigs

end Definition

/-! ## Locks -/

/-- `tblsconv::pubkey_from_bytes` -/
def pubkeyFromBytes (data : Bytes) : Option BLSPubKey :=
  if h : data.length = 48 then some ⟨data, h⟩ else none

/-- `tblsconv::signature_from_bytes` -/
def signatureFromBytes (data : Bytes) : Option BLSSignature :=
  if h : data.length = 96 then some ⟨data, h⟩ else none

/-- `u64::try_from` of a time in seconds -/
def DateTime.tryToU64 (time : DateTime) : Option UInt64 :=
  if time.timestamp < 0 then none else some (.ofNat time.timestamp.toNat)

namespace Lock

/-- Whether the version is older than the registrations and the signatures of the nodes. -/
def beforeV1x7 (lock : Lock) : Bool :=
  match Version.ofStr lock.definition.version with
  | some v => v.number < 7
  | none => false

variable {F G₁ G₂ : Type} [Field F] [AddCommGroup G₁] [Module F G₁] [AddCommGroup G₂]
  [Module F G₂] {curve : Curve F G₁ G₂} (pairing : Blst.Pairing curve)
  (sha256 : Bytes → HashRoot)

/-- One turn of the loop over the validators.  What is verified is a message that is made of the
definition and the validator, with the gas limit and the time of the registration. -/
def verifyBuilderRegistration (lock : Lock) (validatorIdx : ℕ) (validator : DistValidator) :
    Except LockError Unit := do
  let reg := validator.builderRegistration
  let noRegistration := reg.signature = default ∨ reg.message.pubKey = default
  if lock.beforeV1x7 then
    if ¬noRegistration then throw (.unexpectedValidatorRegistration validatorIdx)
  else
    if noRegistration then throw (.missingValidatorRegistration validatorIdx)
    let feeRecipientAddr ← Except.okOr lock.definition.feeRecipientAddresses[validatorIdx]?
      (.missingFeeRecipientAddress validatorIdx)
    let timestamp ← Except.okOr reg.message.timestamp.tryToU64
      (.invalidRegistrationTimestamp validatorIdx reg.message.timestamp.timestamp)
    let pubkey ← Except.okOr (pubkeyFromBytes validator.pubKey) .failedToConvertBLSBytes
    let registrationMessage ← Except.okOr
      (Registration.newMessage pubkey feeRecipientAddr reg.message.gasLimit timestamp)
      .failedToBuildRegistrationMessage
    let signingRoot := Registration.getMessageSigningRoot sha256 registrationMessage
      lock.definition.forkVersion
    (Blst.verify pairing pubkey.bytes signingRoot.bytes reg.signature.bytes).mapError
      fun _ => .failedToVerifyBLSSignature

/-- Returns an error if the populated builder registrations are invalid. -/
def verifyBuilderRegistrations (lock : Lock) : Except LockError Unit := do
  if lock.definition.forkVersion.length ≠ 4 then
    throw (.invalidForkVersionLength 4 lock.definition.forkVersion.length)
  lock.distributedValidators.zipIdx.forM fun p =>
    lock.verifyBuilderRegistration pairing sha256 p.2 p.1

/-- One turn of the loop over the operators and their signatures. -/
def verifyNodeSignature [DecidableEq PK] (lock : Lock) (idx : ℕ) (operator : Operator)
    (signature : Bytes) : Except LockError Unit := do
  let record ← (Enr.tryFrom eth.enr operator.enr).mapError .failedToParseENR
  let pubKey ← Except.okOr record.publicKey .missingPublicKey
  let verified ←
    (verify65 eth.enr.k1 pubKey lock.lockHash signature).mapError .failedToVerifyNodeSignature
  if !verified then throw (.nodeSignatureVerificationFailed idx signature)

/-- Returns an error if the node signatures are not correctly populated. -/
def verifyNodeSignatures [DecidableEq PK] (lock : Lock) : Except LockError Unit := do
  if lock.beforeV1x7 then
    if lock.nodeSignatures ≠ [] then throw .unexpectedNodeSignatures
  else
    if lock.nodeSignatures.length ≠ lock.definition.operators.length then
      throw (.invalidNodeSignaturesCount lock.definition.operators.length
        lock.nodeSignatures.length)
    (lock.definition.operators.zip lock.nodeSignatures).zipIdx.forM fun p =>
      lock.verifyNodeSignature eth p.2 p.1.1 p.1.2

/-- The aggregate signature of all shares on the lock hash. -/
def verifyAggregateSignature (lock : Lock) : Except LockError Unit := do
  let signature ←
    Except.okOr (signatureFromBytes lock.signatureAggregate) .failedToConvertBLSBytes
  let pubkeys ← (lock.distributedValidators.flatMap (·.pubShares)).mapM fun share =>
    Except.okOr (pubkeyFromBytes share) .failedToConvertBLSBytes
  let hash ← (hashLock sha256 lock).mapError .sszError
  (Blst.verifyAggregate pairing (pubkeys.map (·.bytes)) signature.bytes hash.bytes).mapError
    fun _ => .failedToVerifyBLSSignature

/-- Returns `Ok` if all signatures are fully populated and valid.  Early versions of the first
command did not populate the aggregate signature. -/
def verifySignatures [DecidableEq PK] (lock : Lock) : Except LockError Unit := do
  (lock.definition.verifySignatures eth).mapError .definitionSignaturesVerificationFailed
  if lock.signatureAggregate = [] then
    if lock.definition.version = Version.v1_0.asStr ∨
        lock.definition.version = Version.v1_1.asStr then return ()
    else throw .emptyLockAggregateSignature
  lock.verifyAggregateSignature pairing sha256
  lock.verifyBuilderRegistrations pairing sha256
  lock.verifyNodeSignatures eth

end Lock

/-! ## What is served -/

/-- `v1::SignedValidatorRegistration` -/
structure SignedValidatorRegistration where
  message : ValidatorRegistration
  signature : BLSSignature

/-- True if the validator has zero valued registration. -/
def DistValidator.zeroRegistration (validator : DistValidator) : Bool :=
  let reg := validator.builderRegistration
  reg.signature = default ∧ reg.message.feeRecipient = default ∧ reg.message.gasLimit = 0 ∧
    reg.message.timestamp.timestamp = 0 ∧ reg.message.pubKey = default

/-- Validator's Eth2 registration. -/
def DistValidator.eth2Registration (validator : DistValidator) :
    Option SignedValidatorRegistration := do
  let reg := validator.builderRegistration
  if validator.zeroRegistration then none
  else
    let timestamp ← reg.message.timestamp.tryToU64
    return ⟨⟨reg.message.feeRecipient, reg.message.gasLimit, timestamp, reg.message.pubKey⟩,
      reg.signature⟩

end Model

end Pluto.Cluster
