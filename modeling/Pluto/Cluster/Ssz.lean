import Pluto.Cluster.Types
import Pluto.Ssz.Walker

/-!
# The hashes of definitions and locks

`crates/cluster/src/ssz.rs`: the config hash, the definition hash and the lock hash, for all versions.
SHA-256 is a parameter.  A function of the source that is given a hasher takes the buffer here and
returns it.
-/

namespace Pluto.Cluster

open Ssz Wire

/-! ## Limits -/

/-- `ADDRESS_LEN` -/
def addressLen : ℕ := 20

def sszMaxEnr : ℕ := 1024
def sszMaxName : ℕ := 256
def sszMaxUuid : ℕ := 64
def sszMaxVersion : ℕ := 16
def sszMaxTimestamp : ℕ := 32
def sszMaxDkgAlgorithm : ℕ := 32
def sszMaxOperators : ℕ := 256
def sszMaxValidators : ℕ := 65536
def sszMaxDepositAmounts : ℕ := 256
def sszLenForkVersion : ℕ := 4
def sszLenK1Sig : ℕ := 65
def sszLenBlsSig : ℕ := 96
def sszLenHash : ℕ := 32
def sszLenWithdrawCreds : ℕ := 32
def sszLenPubKey : ℕ := 48

/-- `ZERO_NONCE` -/
def zeroNonce : UInt64 := 0

inductive SszError
  | incorrectListSize (function field : String) (actual expected : ℕ)
  | hashWalkerError (error : HasherError)
  | unsupportedVersion (version : String)
  /-- `DefinitionError(InvalidValidatorAddresses)`, the only one that hashing meets -/
  | invalidValidatorAddresses
  | failedToConvertHexString (error : FromHexError)
  | failedToConvertTimestamp
  deriving DecidableEq, Repr

/-- `From<PlutoSszError>` -/
def SszError.ofSsz : Ssz.Error → SszError
  | .incorrectListSize function field actual expected =>
    incorrectListSize function field actual expected
  | .hashWalkerError error => hashWalkerError error
  | .failedToConvertHexString error => failedToConvertHexString error

/-! ## Containers and lists -/

section Model

variable (sha256 : Bytes → HashRoot)

/-- The code between `hh.index()` and `hh.merkleize(indx)`. -/
def merkleized (body : Bytes → Except SszError Bytes) (buf : Bytes) : Except SszError Bytes := do
  let indx := buf.length
  let buf ← body buf
  (merkleize sha256 buf indx).mapError .hashWalkerError

/-- The code between `hh.index()` and `hh.merkleize_with_mixin(indx, num, limit)`. -/
def merkleizedWithMixin (num limit : ℕ) (body : Bytes → Except SszError Bytes) (buf : Bytes) :
    Except SszError Bytes := do
  let indx := buf.length
  let buf ← body buf
  (merkleizeWithMixin sha256 buf indx num limit).mapError .hashWalkerError

/-! ## Definitions -/

/-- Versions up to 1.2: strings go in as they are, without a length. -/
def putOperatorLegacy (configOnly : Bool) (version : String) (buf : Bytes) (o : Operator) :
    Except SszError Bytes :=
  if configOnly then (putBytes sha256 buf (utf8 o.address)).mapError .hashWalkerError
  else merkleized sha256 (fun buf => do
    let buf ← (putBytes sha256 buf (utf8 o.address)).mapError .hashWalkerError
    let buf ← (putBytes sha256 buf (utf8 o.enr)).mapError .hashWalkerError
    let buf ← match Version.ofStr version with
      | some .v1_0 | some .v1_1 => (putUint64 buf zeroNonce).mapError .hashWalkerError
      | _ => pure buf
    let buf ← (putBytes sha256 buf o.configSignature).mapError .hashWalkerError
    (putBytes sha256 buf o.enrSignature).mapError .hashWalkerError) buf

def hashDefinitionLegacy (d : Definition) (buf : Bytes) (configOnly : Bool) :
    Except SszError Bytes := do
  let vaddrs ← Except.okOr d.legacyValidatorAddresses .invalidValidatorAddresses
  merkleized sha256 (fun buf => do
    let buf ← (putBytes sha256 buf (utf8 d.uuid)).mapError .hashWalkerError
    let buf ← (putBytes sha256 buf (utf8 d.name)).mapError .hashWalkerError
    let buf ← (putBytes sha256 buf (utf8 d.version)).mapError .hashWalkerError
    let buf ← (putUint64 buf d.numValidators).mapError .hashWalkerError
    let buf ← (putUint64 buf d.threshold).mapError .hashWalkerError
    let buf ← (putBytes sha256 buf (utf8 vaddrs.feeRecipientAddress)).mapError .hashWalkerError
    let buf ← (putBytes sha256 buf (utf8 vaddrs.withdrawalAddress)).mapError .hashWalkerError
    let buf ← (putBytes sha256 buf (utf8 d.dkgAlgorithm)).mapError .hashWalkerError
    let buf ← (putBytes sha256 buf (utf8 (to0xHex d.forkVersion))).mapError .hashWalkerError
    let num := d.operators.length
    let buf ← merkleizedWithMixin sha256 num num
      (fun buf => d.operators.foldlM (putOperatorLegacy sha256 configOnly d.version) buf) buf
    if configOnly then
      if d.timestamp ≠ "" then
        (putBytes sha256 buf (utf8 d.timestamp)).mapError .hashWalkerError
      else pure buf
    else if d.version ≠ Version.v1_0.asStr then
      (putBytes sha256 buf (utf8 d.timestamp)).mapError .hashWalkerError
    else pure buf) buf

def putOperatorV1x3or4 (configOnly : Bool) (buf : Bytes) (o : Operator) : Except SszError Bytes :=
  merkleized sha256 (fun buf => do
    let address ← (from0xHexStr o.address addressLen).mapError .failedToConvertHexString
    let buf ← (putBytes sha256 buf address).mapError .hashWalkerError
    if configOnly then pure buf
    else do
      let buf ← (putByteList sha256 buf (utf8 o.enr) sszMaxEnr "enr").mapError .ofSsz
      let buf ← (putBytesN sha256 buf o.configSignature sszLenK1Sig).mapError .ofSsz
      (putBytesN sha256 buf o.enrSignature sszLenK1Sig).mapError .ofSsz) buf

def putCreatorV1x4 (configOnly : Bool) (creator : Creator) (buf : Bytes) : Except SszError Bytes :=
  merkleized sha256 (fun buf => do
    let address ← (from0xHexStr creator.address addressLen).mapError .failedToConvertHexString
    let buf ← (putBytes sha256 buf address).mapError .hashWalkerError
    if configOnly then pure buf
    else (putBytes sha256 buf creator.configSignature).mapError .hashWalkerError) buf

def hashDefinitionV1x3or4 (d : Definition) (buf : Bytes) (configOnly : Bool) :
    Except SszError Bytes := do
  let vaddrs ← Except.okOr d.legacyValidatorAddresses .invalidValidatorAddresses
  let feeRecipientAddress ←
    (from0xHexStr vaddrs.feeRecipientAddress addressLen).mapError .failedToConvertHexString
  let withdrawalAddress ←
    (from0xHexStr vaddrs.withdrawalAddress addressLen).mapError .failedToConvertHexString
  merkleized sha256 (fun buf => do
    let buf ← (putByteList sha256 buf (utf8 d.uuid) sszMaxUuid "uuid").mapError .ofSsz
    let buf ← (putByteList sha256 buf (utf8 d.name) sszMaxName "name").mapError .ofSsz
    let buf ← (putByteList sha256 buf (utf8 d.version) sszMaxVersion "version").mapError .ofSsz
    let buf ←
      (putByteList sha256 buf (utf8 d.timestamp) sszMaxTimestamp "timestamp").mapError .ofSsz
    let buf ← (putUint64 buf d.numValidators).mapError .hashWalkerError
    let buf ← (putUint64 buf d.threshold).mapError .hashWalkerError
    let buf ← (putBytes sha256 buf feeRecipientAddress).mapError .hashWalkerError
    let buf ← (putBytes sha256 buf withdrawalAddress).mapError .hashWalkerError
    let buf ← (putByteList sha256 buf (utf8 d.dkgAlgorithm) sszMaxDkgAlgorithm
      "dkg_algorithm").mapError .ofSsz
    let buf ← (putBytes sha256 buf d.forkVersion).mapError .hashWalkerError
    let buf ← merkleizedWithMixin sha256 d.operators.length sszMaxOperators
      (fun buf => d.operators.foldlM (putOperatorV1x3or4 sha256 configOnly) buf) buf
    let buf ←
      if d.version ≠ Version.v1_3.asStr then putCreatorV1x4 sha256 configOnly d.creator buf
      else pure buf
    if configOnly then pure buf
    else (putBytes sha256 buf d.configHash).mapError .hashWalkerError) buf

/-- What an operator adds to its address outside of the config hash. -/
def putOperatorSignatures (o : Operator) (buf : Bytes) : Except SszError Bytes := do
  let buf ← (putByteList sha256 buf (utf8 o.enr) sszMaxEnr "ENR").mapError .ofSsz
  let buf ← (putBytesN sha256 buf o.configSignature sszLenK1Sig).mapError .ofSsz
  (putBytesN sha256 buf o.enrSignature sszLenK1Sig).mapError .ofSsz

def putOperator (configOnly : Bool) (buf : Bytes) (o : Operator) : Except SszError Bytes :=
  merkleized sha256 (fun buf => do
    let buf ← (putHexBytesN sha256 buf o.address addressLen).mapError .ofSsz
    if configOnly then pure buf else putOperatorSignatures sha256 o buf) buf

def putCreator (configOnly : Bool) (creator : Creator) (buf : Bytes) : Except SszError Bytes :=
  merkleized sha256 (fun buf => do
    let buf ← (putHexBytesN sha256 buf creator.address addressLen).mapError .ofSsz
    if configOnly then pure buf
    else (putBytesN sha256 buf creator.configSignature sszLenK1Sig).mapError .ofSsz) buf

def putValidatorAddress (buf : Bytes) (a : ValidatorAddresses) : Except SszError Bytes :=
  merkleized sha256 (fun buf => do
    let buf ← (putHexBytesN sha256 buf a.feeRecipientAddress addressLen).mapError .ofSsz
    (putHexBytesN sha256 buf a.withdrawalAddress addressLen).mapError .ofSsz) buf

/-- A function for further fields. -/
abbrev Extra : Type := Definition → Bytes → Except SszError Bytes

def hashDefinitionV1x5to9 (d : Definition) (buf : Bytes) (configOnly : Bool) (extra : List Extra) :
    Except SszError Bytes :=
  merkleized sha256 (fun buf => do
    let buf ← (putByteList sha256 buf (utf8 d.uuid) sszMaxUuid "uuid").mapError .ofSsz
    let buf ← (putByteList sha256 buf (utf8 d.name) sszMaxName "name").mapError .ofSsz
    let buf ← (putByteList sha256 buf (utf8 d.version) sszMaxVersion "version").mapError .ofSsz
    let buf ←
      (putByteList sha256 buf (utf8 d.timestamp) sszMaxTimestamp "timestamp").mapError .ofSsz
    let buf ← (putUint64 buf d.numValidators).mapError .hashWalkerError
    let buf ← (putUint64 buf d.threshold).mapError .hashWalkerError
    let buf ← (putByteList sha256 buf (utf8 d.dkgAlgorithm) sszMaxDkgAlgorithm
      "dkg_algorithm").mapError .ofSsz
    let buf ← (putBytesN sha256 buf d.forkVersion sszLenForkVersion).mapError .ofSsz
    let buf ← merkleizedWithMixin sha256 d.operators.length sszMaxOperators
      (fun buf => d.operators.foldlM (putOperator sha256 configOnly) buf) buf
    let buf ← putCreator sha256 configOnly d.creator buf
    let buf ← merkleizedWithMixin sha256 d.validatorAddresses.length sszMaxValidators
      (fun buf => d.validatorAddresses.foldlM (putValidatorAddress sha256) buf) buf
    let buf ← extra.foldlM (fun buf f => f d buf) buf
    if configOnly then pure buf
    else (putBytesN sha256 buf d.configHash sszLenHash).mapError .ofSsz) buf

def emptyExtraFunc : Extra := fun _ buf => .ok buf

def hashDefinitionV1x5to7 (d : Definition) (buf : Bytes) (configOnly : Bool) :
    Except SszError Bytes :=
  hashDefinitionV1x5to9 sha256 d buf configOnly [emptyExtraFunc]

def extraFuncDepositAmounts (extra : List Extra) : Extra := fun d buf => do
  let buf ← (putUint64Array sha256 buf d.depositAmounts
    (some sszMaxDepositAmounts)).mapError .hashWalkerError
  extra.foldlM (fun buf f => f d buf) buf

def hashDefinitionV1x8to10 (d : Definition) (buf : Bytes) (configOnly : Bool)
    (extra : List Extra) : Except SszError Bytes :=
  hashDefinitionV1x5to9 sha256 d buf configOnly [extraFuncDepositAmounts sha256 extra]

def extraFuncConsensusProtocol : Extra := fun d buf =>
  (putByteList sha256 buf (utf8 d.consensusProtocol) sszMaxName "consensus_protocol").mapError .ofSsz

def extraFuncTargetGasLimitAndCompounding : Extra := fun d buf => do
  let buf ← (putUint64 buf d.targetGasLimit).mapError .hashWalkerError
  (putBool buf d.compounding).mapError .hashWalkerError

def hashDefinitionV1x8 (d : Definition) (buf : Bytes) (configOnly : Bool) :
    Except SszError Bytes :=
  hashDefinitionV1x8to10 sha256 d buf configOnly [emptyExtraFunc]

def hashDefinitionV1x9 (d : Definition) (buf : Bytes) (configOnly : Bool) :
    Except SszError Bytes :=
  hashDefinitionV1x8to10 sha256 d buf configOnly [extraFuncConsensusProtocol sha256]

def hashDefinitionV1x10 (d : Definition) (buf : Bytes) (configOnly : Bool) :
    Except SszError Bytes :=
  hashDefinitionV1x8to10 sha256 d buf configOnly
    [extraFuncConsensusProtocol sha256, extraFuncTargetGasLimitAndCompounding]

def getDefinitionHashFunc (version : String) :
    Except SszError (Definition → Bytes → Bool → Except SszError Bytes) :=
  match Version.ofStr version with
  | some .v1_0 | some .v1_1 | some .v1_2 => .ok (hashDefinitionLegacy sha256)
  | some .v1_3 | some .v1_4 => .ok (hashDefinitionV1x3or4 sha256)
  | some .v1_5 | some .v1_6 | some .v1_7 => .ok (hashDefinitionV1x5to7 sha256)
  | some .v1_8 => .ok (hashDefinitionV1x8 sha256)
  | some .v1_9 => .ok (hashDefinitionV1x9 sha256)
  | some .v1_10 => .ok (hashDefinitionV1x10 sha256)
  | none => .error (.unsupportedVersion version)

def hashDefinition (d : Definition) (configOnly : Bool) : Except SszError HashRoot := do
  let hashFunc ← getDefinitionHashFunc sha256 d.version
  let buf ← hashFunc d [] configOnly
  (hashRoot buf).mapError .hashWalkerError

/-! ## Validators -/

/-- The fields without a container of their own. -/
def hashDepositDataV1x6 (dd : DepositData) (buf : Bytes) : Except SszError Bytes := do
  let buf ← (putBytesN sha256 buf dd.pubKey.bytes sszLenPubKey).mapError .ofSsz
  let buf ← (putBytesN sha256 buf dd.withdrawalCredentials.bytes sszLenWithdrawCreds).mapError .ofSsz
  let buf ← (putUint64 buf dd.amount).mapError .hashWalkerError
  (putBytesN sha256 buf dd.signature.bytes sszLenBlsSig).mapError .ofSsz

/-- The fields are those of `hash_deposit_data_v1x6`. -/
def hashDepositDataV1x7OrLater (dd : DepositData) (buf : Bytes) : Except SszError Bytes :=
  merkleized sha256 (hashDepositDataV1x6 sha256 dd) buf

/-- `put_uint64` of a time, in seconds. -/
def putTimestamp (time : DateTime) (buf : Bytes) : Except SszError Bytes :=
  if time.timestamp < 0 then .error .failedToConvertTimestamp
  else (putUint64 buf (.ofNat time.timestamp.toNat)).mapError .hashWalkerError

def hashRegistration (registration : Registration) (buf : Bytes) : Except SszError Bytes :=
  merkleized sha256 (fun buf => do
    let buf ← (putBytes sha256 buf registration.feeRecipient.bytes).mapError .hashWalkerError
    let buf ← (putUint64 buf registration.gasLimit).mapError .hashWalkerError
    let buf ← putTimestamp registration.timestamp buf
    (putBytesN sha256 buf registration.pubKey.bytes sszLenPubKey).mapError .ofSsz) buf

def hashBuilderRegistration (reg : BuilderRegistration) (buf : Bytes) : Except SszError Bytes :=
  merkleized sha256 (fun buf => do
    let buf ← hashRegistration sha256 reg.message buf
    (putBytesN sha256 buf reg.signature.bytes sszLenBlsSig).mapError .ofSsz) buf

def noopHashFunc {α : Type} : α → Bytes → Except SszError Bytes := fun _ buf => .ok buf

/-- Versions before 1.6 do not hash deposit data. -/
def getDepositDataHashFunc (version : String) :
    Except SszError (DepositData → Bytes → Except SszError Bytes) :=
  match Version.ofStr version with
  | some .v1_0 | some .v1_1 | some .v1_2 | some .v1_3 | some .v1_4 | some .v1_5 =>
    .ok noopHashFunc
  | some .v1_6 => .ok (hashDepositDataV1x6 sha256)
  | some .v1_7 | some .v1_8 | some .v1_9 | some .v1_10 => .ok (hashDepositDataV1x7OrLater sha256)
  | none => .error (.unsupportedVersion version)

def getRegistrationHashFunc (version : String) :
    Except SszError (BuilderRegistration → Bytes → Except SszError Bytes) :=
  match Version.ofStr version with
  | some .v1_0 | some .v1_1 | some .v1_2 | some .v1_3 | some .v1_4 | some .v1_5 | some .v1_6 =>
    .ok noopHashFunc
  | some .v1_7 | some .v1_8 | some .v1_9 | some .v1_10 => .ok (hashBuilderRegistration sha256)
  | none => .error (.unsupportedVersion version)

def hashValidatorPubsharesField (validator : DistValidator) (buf : Bytes) :
    Except SszError Bytes :=
  merkleizedWithMixin sha256 validator.pubShares.length sszMaxOperators
    (fun buf => validator.pubShares.foldlM
      (fun buf pubShare => (putBytesN sha256 buf pubShare sszLenPubKey).mapError .ofSsz) buf) buf

def hashValidatorV1x3or4 (validator : DistValidator) (buf : Bytes) (_version : String) :
    Except SszError Bytes :=
  merkleized sha256 (fun buf => do
    let buf ← (putBytes sha256 buf validator.pubKey).mapError .hashWalkerError
    let buf ← hashValidatorPubsharesField sha256 validator buf
    (putBytes sha256 buf []).mapError .hashWalkerError) buf

def hashValidatorV1x5to7 (validator : DistValidator) (buf : Bytes) (version : String) :
    Except SszError Bytes :=
  merkleized sha256 (fun buf => do
    let buf ← (putBytesN sha256 buf validator.pubKey sszLenPubKey).mapError .ofSsz
    let buf ← hashValidatorPubsharesField sha256 validator buf
    let depositHashFunc ← getDepositDataHashFunc sha256 version
    let buf ← depositHashFunc (validator.partialDepositData.headD default) buf
    let regHashFunc ← getRegistrationHashFunc sha256 version
    regHashFunc validator.builderRegistration buf) buf

def hashValidatorV1x8OrLater (validator : DistValidator) (buf : Bytes) (version : String) :
    Except SszError Bytes :=
  merkleized sha256 (fun buf => do
    let buf ← (putBytesN sha256 buf validator.pubKey sszLenPubKey).mapError .ofSsz
    let buf ← hashValidatorPubsharesField sha256 validator buf
    let depositHashFunc ← getDepositDataHashFunc sha256 version
    let regHashFunc ← getRegistrationHashFunc sha256 version
    let buf ← merkleizedWithMixin sha256 validator.partialDepositData.length sszMaxDepositAmounts
      (fun buf => validator.partialDepositData.foldlM
        (fun buf dd => merkleized sha256 (depositHashFunc dd) buf) buf) buf
    regHashFunc validator.builderRegistration buf) buf

def getValidatorHashFunc (version : String) :
    Except SszError (DistValidator → Bytes → String → Except SszError Bytes) :=
  match Version.ofStr version with
  | some .v1_3 | some .v1_4 => .ok (hashValidatorV1x3or4 sha256)
  | some .v1_5 | some .v1_6 | some .v1_7 => .ok (hashValidatorV1x5to7 sha256)
  | some .v1_8 | some .v1_9 | some .v1_10 => .ok (hashValidatorV1x8OrLater sha256)
  | _ => .error (.unsupportedVersion version)

def hashValidatorLegacy (buf : Bytes) (validator : DistValidator) : Except SszError Bytes :=
  merkleized sha256 (fun buf => do
    let buf ← (putBytes sha256 buf (utf8 (to0xHex validator.pubKey))).mapError .hashWalkerError
    let num := validator.pubShares.length
    let buf ← merkleizedWithMixin sha256 num num
      (fun buf => validator.pubShares.foldlM
        (fun buf pubShare => (putBytes sha256 buf pubShare).mapError .hashWalkerError) buf) buf
    (putBytes sha256 buf []).mapError .hashWalkerError) buf

/-! ## Locks -/

def hashLockLegacy (lock : Lock) (buf : Bytes) : Except SszError Bytes :=
  merkleized sha256 (fun buf => do
    let buf ← hashDefinitionLegacy sha256 lock.definition buf false
    let num := lock.distributedValidators.length
    merkleizedWithMixin sha256 num num
      (fun buf => lock.distributedValidators.foldlM (hashValidatorLegacy sha256) buf) buf) buf

def hashLockV1x3OrLater (lock : Lock) (buf : Bytes) : Except SszError Bytes := do
  let defHashFunc ← getDefinitionHashFunc sha256 lock.definition.version
  let valHashFunc ← getValidatorHashFunc sha256 lock.definition.version
  merkleized sha256 (fun buf => do
    let buf ← defHashFunc lock.definition buf false
    merkleizedWithMixin sha256 lock.distributedValidators.length sszMaxValidators
      (fun buf => lock.distributedValidators.foldlM
        (fun buf validator => valHashFunc validator buf lock.definition.version) buf) buf) buf

/-- The match of `hash_lock`. -/
def getLockHashFunc (version : String) : Except SszError (Lock → Bytes → Except SszError Bytes) :=
  match Version.ofStr version with
  | some .v1_0 | some .v1_1 | some .v1_2 => .ok (hashLockLegacy sha256)
  | some _ => .ok (hashLockV1x3OrLater sha256)
  | none => .error (.unsupportedVersion version)

def hashLock (lock : Lock) : Except SszError HashRoot := do
  let hashFunc ← getLockHashFunc sha256 lock.definition.version
  let buf ← hashFunc lock []
  (hashRoot buf).mapError .hashWalkerError

end Model

end Pluto.Cluster
