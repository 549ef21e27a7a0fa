import Pluto.Cluster.Ssz
import Pluto.Eth2Util.Enr

/-!
# Verifying definitions

The checks of `definition.rs`: that the stored hashes are the recomputed ones, and that the operators
and the creator signed the configuration.
-/

namespace Pluto.Cluster

open Ssz K1Util

/-! ## Errors -/

inductive Eip712Error
  | networkError
  | failedToHashTypedData
  | failedToSign (error : K1UtilError)
  deriving DecidableEq, Repr

inductive VerifySigError
  | invalidExpectedAddress
  | failedToRecoverPubKey (error : K1UtilError)
  deriving DecidableEq, Repr

inductive PeerError
  | failedToParsePublicKey
  | missingPublicKeyInEnr
  deriving DecidableEq, Repr

inductive DefinitionError
  | invalidValidatorAddresses
  | numValidatorsTooLarge (numValidators max : ℕ)
  | nonZeroOperatorNonce
  | peerNotFound
  | duplicatePeerENRs (enr : String)
  | failedToParseENR (error : Enr.RecordError)
  | failedToCreatePeer (error : PeerError)
  | invalidConfigHash (expected actual : Bytes)
  | sszError (error : SszError)
  | invalidDefinitionHash (expected actual : Bytes)
  | olderVersionSignaturesNotSupported
  | emptyOperatorENRSignature (operatorAddress : String)
  | emptyOperatorConfigSignature (operatorAddress : String)
  | invalidOperatorConfigSignature (operatorAddress : String)
  | invalidOperatorENRSignature (operatorAddress : String)
  | someOperatorsSignedWhileOthersDidNot
  | unexpectedCreatorConfigSignatureInOldVersion
  | operatorsSignedWhileCreatorDidNot
  | emptyCreatorConfigSignature
  | invalidCreatorConfigSignature
  | invalidEip712DigestLength (expected actual : ℕ)
  | failedToVerifyContractSignature
  | eip712Error (error : Eip712Error)
  | verifySigError (error : VerifySigError)
  deriving DecidableEq, Repr

/-! ## Hashes -/

namespace Definition

variable (sha256 : Bytes → HashRoot)

/-- Returns an error if the stored hashes do not match the actual ones. -/
def verifyHashes (d : Definition) : Except DefinitionError Unit := do
  let configHash ← (hashDefinition sha256 d true).mapError .sszError
  if configHash.bytes ≠ d.configHash then
    throw (.invalidConfigHash d.configHash configHash.bytes)
  let definitionHash ← (hashDefinition sha256 d false).mapError .sszError
  if definitionHash.bytes ≠ d.definitionHash then
    throw (.invalidDefinitionHash d.definitionHash definitionHash.bytes)

end Definition

end Pluto.Cluster
