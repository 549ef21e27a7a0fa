import Pluto.Cluster.Definition

/-!
# Verifying locks

The checks of `lock.rs` on top of those of the definition: the stored lock hash, the aggregate
signature of all key shares, the builder registrations and the signatures of the nodes.
-/

namespace Pluto.Cluster

open Ssz K1Util

inductive LockError
  | unexpectedValidatorRegistration (operatorIdx : ℕ)
  | missingValidatorRegistration (operatorIdx : ℕ)
  | definitionHashesVerificationFailed (error : DefinitionError)
  | definitionSignaturesVerificationFailed (error : DefinitionError)
  | sszError (error : SszError)
  | invalidLockHash (expected actual : Bytes)
  | emptyLockAggregateSignature
  | failedToConvertBLSBytes
  | failedToVerifyBLSSignature
  | missingFeeRecipientAddress (validatorIdx : ℕ)
  | invalidRegistrationTimestamp (validatorIdx : ℕ) (timestamp : ℤ)
  | invalidForkVersionLength (expected actual : ℕ)
  | failedToBuildRegistrationMessage
  | unexpectedNodeSignatures
  | invalidNodeSignaturesCount (expected actual : ℕ)
  | failedToParseENR (error : Enr.RecordError)
  | missingPublicKey
  | nodeSignatureVerificationFailed (operatorIdx : ℕ) (signature : Bytes)
  | failedToVerifyNodeSignature (error : K1UtilError)
  deriving DecidableEq, Repr

namespace Lock

variable (sha256 : Bytes → HashRoot)

/-- Returns an error if the stored hashes do not match the actual ones. -/
def verifyHashes (lock : Lock) : Except LockError Unit := do
  (lock.definition.verifyHashes sha256).mapError .definitionHashesVerificationFailed
  let lockHash ← (hashLock sha256 lock).mapError .sszError
  if lockHash.bytes ≠ lock.lockHash then
    throw (.invalidLockHash lock.lockHash lockHash.bytes)

end Lock

end Pluto.Cluster
