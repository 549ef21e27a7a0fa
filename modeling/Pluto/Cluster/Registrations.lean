import Pluto.Cluster.Binding
import Pluto.Cluster.Peers
import Pluto.Cluster.Signatures

/-!
# The builder registrations of a verified lock

A lock stores a message and a signature for every validator, and serves them.  What is verified under
the signature is another message, made of the public key of the validator and of the fee recipient of
the definition.  The stored key and the stored fee recipient are not compared with them, so that the
two messages may differ (`served_registration_iff`).
-/

namespace Pluto.Cluster

open Ssz Eth2Api Eth2Util Crypto

section Registrations

variable {SK PK : Type} [DecidableEq PK] {eth : Ethereum SK PK} {F G₁ G₂ : Type} [Field F]
  [AddCommGroup G₁] [Module F G₁] [AddCommGroup G₂] [Module F G₂]
  {curve : Curve F G₁ G₂} {pairing : Blst.Pairing curve} {sha256 : Bytes → HashRoot} {lock : Lock}

/-- The registration that is served is the signed one, of the validator and of the definition. -/
structure Lock.ServesSigned (pairing : Blst.Pairing curve) (sha256 : Bytes → HashRoot) (lock : Lock)
    (i : ℕ) (validator : DistValidator) (reg : SignedValidatorRegistration) : Prop where
  served : validator.eth2Registration = some reg
  pubkey : reg.message.pubkey.bytes = validator.pubKey
  feeRecipient : lock.definition.feeRecipientAddresses[i]?.bind verifyAddress =
    some reg.message.feeRecipient
  verified : Blst.verify pairing validator.pubKey
    (Registration.getMessageSigningRoot sha256 reg.message lock.definition.forkVersion).bytes
    reg.signature.bytes = .ok ()

/-- What the signature of a registration was verified on. -/
lemma verifyBuilderRegistration_ok {i : ℕ} {validator : DistValidator} (hv : ¬lock.beforeV1x7)
    (h : lock.verifyBuilderRegistration pairing sha256 i validator = .ok ()) :
    ∃ pubkey feeRecipient timestamp, pubkeyFromBytes validator.pubKey = some pubkey ∧
      lock.definition.feeRecipientAddresses[i]?.bind verifyAddress = some feeRecipient ∧
      validator.builderRegistration.message.timestamp.tryToU64 = some timestamp ∧
      ¬validator.zeroRegistration ∧
      Blst.verify pairing pubkey.bytes
        (Registration.getMessageSigningRoot sha256
          ⟨feeRecipient, validator.builderRegistration.message.gasLimit, timestamp, pubkey⟩
          lock.definition.forkVersion).bytes
        validator.builderRegistration.signature.bytes = .ok () := by
  unfold Lock.verifyBuilderRegistration at h
  simp only [hv, Bool.false_eq_true, if_false] at h
  split_ifs at h with hnone
  · cases h
  · obtain ⟨address, haddress, h⟩ := Except.bind_ok_iff.mp h
    obtain ⟨timestamp, htimestamp, h⟩ := Except.bind_ok_iff.mp h
    obtain ⟨pubkey, hpubkey, h⟩ := Except.bind_ok_iff.mp h
    obtain ⟨message, hmessage, h⟩ := Except.bind_ok_iff.mp h
    rw [Except.okOr_ok_iff] at haddress htimestamp hpubkey hmessage
    obtain ⟨feeRecipient, hfee, hmessage⟩ := Option.bind_eq_some_iff.mp hmessage
    obtain rfl := Option.some.inj hmessage
    refine ⟨pubkey, feeRecipient, timestamp, hpubkey, ?_, htimestamp, ?_, ?_⟩
    · rw [haddress, Option.bind_some, hfee]
    · intro hzero
      simp only [DistValidator.zeroRegistration, decide_eq_true_eq] at hzero
      exact hnone (.inl hzero.1)
    · exact Except.mapError_ok_iff.mp h

/-- Every registration of a verified lock was verified. -/
lemma verifyBuilderRegistration_of_verifySignatures
    (hversion : lock.definition.version ≠ Version.v1_0.asStr ∧
      lock.definition.version ≠ Version.v1_1.asStr)
    (h : lock.verifySignatures eth pairing sha256 = .ok ()) {i : ℕ} {validator : DistValidator}
    (hi : lock.distributedValidators[i]? = some validator) :
    lock.verifyBuilderRegistration pairing sha256 i validator = .ok () := by
  obtain ⟨-, -, h⟩ := Except.bind_ok_iff.mp h
  split_ifs at h with hempty hold
  · exact absurd hold (not_or.mpr hversion)
  · cases h
  · obtain ⟨-, -, h⟩ := Except.bind_ok_iff.mp h
    obtain ⟨_, hregistrations, -⟩ := Except.bind_ok_iff.mp h
    unfold Lock.verifyBuilderRegistrations at hregistrations
    split_ifs at hregistrations
    · cases hregistrations
    · refine Except.forM_ok_iff.mp hregistrations (validator, i) ?_
      exact List.mem_zipIdx_iff_getElem?.mpr hi

/-- **The registration of a verified lock is the signed one exactly if its key is the key of the
validator and its fee recipient is the one of the definition.** -/
theorem served_registration_iff {v : Version} (hv : 7 ≤ v.number)
    (hversion : Version.ofStr lock.definition.version = some v)
    (hsignatures : lock.verifySignatures eth pairing sha256 = .ok ()) {i : ℕ}
    {validator : DistValidator} (hi : lock.distributedValidators[i]? = some validator) :
    (∃ reg, lock.ServesSigned pairing sha256 i validator reg) ↔
      validator.builderRegistration.message.pubKey.bytes = validator.pubKey ∧
      lock.definition.feeRecipientAddresses[i]?.bind verifyAddress =
        some validator.builderRegistration.message.feeRecipient := by
  have hbefore : ¬lock.beforeV1x7 := by
    rw [Lock.beforeV1x7, hversion, decide_eq_true_eq]
    omega
  have hold : lock.definition.version ≠ Version.v1_0.asStr ∧
      lock.definition.version ≠ Version.v1_1.asStr := by
    rw [← Version.asStr_of_ofStr hversion]
    constructor
    · intro h
      obtain rfl := Version.asStr_injective h
      exact absurd hv (by decide)
    · intro h
      obtain rfl := Version.asStr_injective h
      exact absurd hv (by decide)
  obtain ⟨pubkey, feeRecipient, timestamp, hpubkey, hfee, htime, hzero, hverify⟩ :=
    verifyBuilderRegistration_ok hbefore
      (verifyBuilderRegistration_of_verifySignatures hold hsignatures hi)
  have hserved : validator.eth2Registration =
      some ⟨⟨validator.builderRegistration.message.feeRecipient,
        validator.builderRegistration.message.gasLimit, timestamp,
        validator.builderRegistration.message.pubKey⟩, validator.builderRegistration.signature⟩ := by
    rw [DistValidator.eth2Registration]
    simp only [hzero, Bool.false_eq_true, if_false, htime]
    rfl
  constructor
  · rintro ⟨reg, hreg⟩
    obtain rfl := Option.some.inj (hserved.symm.trans hreg.served)
    exact ⟨hreg.pubkey, hreg.feeRecipient⟩
  · rintro ⟨hkey, hrecipient⟩
    -- then the stored message is the one that was verified
    rw [pubkeyFromBytes, ← hkey, dif_pos (BLSPubKey.length_eq _)] at hpubkey
    obtain rfl := Option.some.inj hpubkey
    obtain rfl := Option.some.inj (hrecipient.symm.trans hfee)
    refine ⟨_, hserved, hkey, hrecipient, ?_⟩
    rw [← hkey]
    exact hverify

end Registrations

/-! ### A lock that pays another fee recipient

A cluster of one node and one validator.  The hash is the polynomial one, the points are exponents, and
the curve of the nodes accepts the node signature of the lock and those of the records, and no other. -/

def readHash (data : Bytes) : ZMod order := (SszContainer.readLe data : ℕ)

abbrev soloCurve : Curve (ZMod order) (ZMod order) (ZMod order) := compressedExponents readHash

def nodeSignature : Bytes := firstKey ++ List.replicate 32 0

def soloEthereum (lockHash : Bytes) : Ethereum Unit Bytes where
  enr :=
    { shownPrimitives.enr with
      k1 :=
        { shownPrimitives.enr.k1 with
          recoverFromPrehash := fun hash sig _ =>
            if hash = lockHash ∧ sig = nodeSignature.take 64 then some firstKey else none } }
  networks := Network.predefined
  toChecksum address := String.ofList (Hex.encode address.bytes)
  publicKeyToAddress _ := default
  verifySmartContractBasedSignature _ _ _ := some false

section Keys

variable {F G₁ G₂ : Type} [Field F] [AddCommGroup G₁] [Module F G₁] [AddCommGroup G₂] [Module F G₂]

/-- The public key of a secret. -/
def publicKeyOf (curve : Curve F G₁ G₂) (s : F) : Bytes := curve.g1ToBytes (s • curve.generator)

/-- The signature of a message with a secret. -/
def signatureOf (curve : Curve F G₁ G₂) (s : F) (data : Bytes) : Bytes :=
  curve.g2ToBytes (s • curve.hashToG2 data)

end Keys

/-- The secret of the validator is `7`. -/
def soloPubKey : BLSPubKey := ⟨publicKeyOf soloCurve 7, (compressed_compressedExponents _).length_g1 _⟩

def signSolo (data : Bytes) : BLSSignature :=
  ⟨signatureOf soloCurve 7 data, (compressed_compressedExponents _).length_g2 _⟩

def shortAddress (n : UInt8) : ExecutionAddress := ⟨List.replicate 19 0 ++ [n], rfl⟩

def hashBytes {ε : Type} (hash : Except ε HashRoot) : Bytes := (hash.toOption.getD default).bytes

def soloConfig : Definition where
  uuid := ""
  name := ""
  version := Version.v1_7.asStr
  timestamp := ""
  numValidators := 1
  threshold := 1
  dkgAlgorithm := ""
  forkVersion := [0, 0, 0, 0]
  operators := [⟨"", firstEnr, [], []⟩]
  creator := default
  validatorAddresses := [⟨"0x00000000000000000000000000000000000000fe",
    "0x00000000000000000000000000000000000000da"⟩]
  depositAmounts := []
  consensusProtocol := ""
  targetGasLimit := 0
  compounding := false
  configHash := []
  definitionHash := []

@[irreducible] def soloConfigHash : Bytes := hashBytes (hashDefinition polynomialHash soloConfig true)

@[irreducible] def soloDefinitionHash : Bytes :=
  hashBytes (hashDefinition polynomialHash { soloConfig with configHash := soloConfigHash } false)

def soloDefinition : Definition :=
  { soloConfig with configHash := soloConfigHash, definitionHash := soloDefinitionHash }

/-- The registration that is verified. -/
def soloRegistration : ValidatorRegistration := ⟨shortAddress 0xfe, 30000000, 0, soloPubKey⟩

/-- The validator stores a message with some fee recipient, and the signature of `soloRegistration`. -/
def soloValidator (recipient : UInt8) : DistValidator :=
  ⟨soloPubKey.bytes, [soloPubKey.bytes], [],
    ⟨⟨shortAddress recipient, 30000000, default, soloPubKey⟩, signSolo
      (Registration.getMessageSigningRoot polynomialHash soloRegistration [0, 0, 0, 0]).bytes⟩⟩

def unsealedLock (recipient : UInt8) : Lock where
  definition := soloDefinition
  distributedValidators := [soloValidator recipient]
  lockHash := []
  signatureAggregate := []
  nodeSignatures := []

@[irreducible] def soloLockHash (recipient : UInt8) : Bytes :=
  hashBytes (hashLock polynomialHash (unsealedLock recipient))

def soloLock (recipient : UInt8) : Lock :=
  { unsealedLock recipient with
    lockHash := soloLockHash recipient
    signatureAggregate := signatureOf soloCurve 7 (soloLockHash recipient)
    nodeSignatures := [nodeSignature] }

lemma verifyHashes_soloLock : (soloLock 0xba).verifyHashes polynomialHash = .ok () := by
  obtain ⟨⟨⟩, h⟩ := Except.exists_ok_of_isSome (x := (soloLock 0xba).verifyHashes polynomialHash)
    (by decide +kernel)
  exact h

lemma verifySignatures_soloLock : ∀ recipient ∈ ([0xfe, 0xba] : List UInt8),
    (soloLock recipient).verifySignatures (soloEthereum (soloLockHash recipient))
      (exponentPairing readHash) polynomialHash = .ok () := by
  have hsome : ∀ recipient ∈ ([0xfe, 0xba] : List UInt8),
      ((soloLock recipient).verifySignatures (soloEthereum (soloLockHash recipient))
        (exponentPairing readHash) polynomialHash).toOption.isSome := by
    refine List.forall_mem_cons.mpr ⟨?_, List.forall_mem_singleton.mpr ?_⟩
    · decide +kernel
    · decide +kernel
  intro recipient hmem
  obtain ⟨⟨⟩, h⟩ := Except.exists_ok_of_isSome (hsome recipient hmem)
  exact h

/-- With the fee recipient of the definition, what is served is signed. -/
theorem served_registration_iff_solo :
    ∃ reg, (soloLock 0xfe).ServesSigned (exponentPairing readHash) polynomialHash 0
      (soloValidator 0xfe) reg :=
  (served_registration_iff (v := .v1_7) (by decide) rfl (verifySignatures_soloLock 0xfe (by decide))
    rfl).mpr ⟨rfl, by decide +kernel⟩

/-- The lock passes all checks, and pays the fees of its validator to another address than the one of
the definition. -/
theorem other_fee_recipient_served :
    (soloLock 0xba).definition.version = "v1.7.0" ∧
    (soloLock 0xba).verifyHashes polynomialHash = .ok () ∧
    (soloLock 0xba).verifySignatures (soloEthereum (soloLockHash 0xba)) (exponentPairing readHash)
      polynomialHash = .ok () ∧
    (soloLock 0xba).distributedValidators[0]? = some (soloValidator 0xba) ∧
    (soloLock 0xba).definition.feeRecipientAddresses[0]?.bind verifyAddress =
      some (shortAddress 0xfe) ∧
    ((soloValidator 0xba).eth2Registration.map fun reg => reg.message.feeRecipient) =
      some (shortAddress 0xba) ∧
    shortAddress 0xba ≠ shortAddress 0xfe :=
  ⟨rfl, verifyHashes_soloLock, verifySignatures_soloLock 0xba (by decide), rfl, by decide +kernel,
    by decide +kernel, by decide⟩

end Pluto.Cluster
