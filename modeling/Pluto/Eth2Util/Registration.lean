import Pluto.Eth2Api.Spec
import Pluto.Ssz.Walker

/-!
# Signing roots and builder registrations

`registration.rs`, with what it uses of `extensions.rs`, `signing.rs` and `helpers.rs`: the domain of a
signature, the root that is signed, and the registration of a validator with block builders.  The
roots that the source derives are those of SSZ.
-/

namespace Pluto.Eth2Util

open Ssz Eth2Api

/-! ## Addresses -/

/-- `verify_address`: `0x` and 40 hex digits -/
def verifyAddress (address : String) : Option ExecutionAddress :=
  match address.toList with
  | '0' :: 'x' :: digits => do
    let bytes ← Hex.decode digits
    if h : bytes.length = 20 then some ⟨bytes, h⟩ else none
  | _ => none

/-! ## Signing roots -/

section Roots

variable (sha256 : Bytes → HashRoot)

/-- The domain of a signature: its type, and the first bytes of the root of the `ForkData`. -/
def computeDomain (domainType forkVersion : Bytes) (genesisValidatorsRoot : HashRoot) : Bytes :=
  domainType ++ (HashTree.root (scheme sha256) (.container [Tree.bytes forkVersion,
    Tree.bytes genesisValidatorsRoot.bytes])).bytes.take 28

def computeBuilderDomain (domainType genesisForkVersion : Bytes) : Bytes :=
  computeDomain sha256 domainType genesisForkVersion .zero

/-- The root of the `SigningData`. -/
def computeSigningRoot (messageRoot : HashRoot) (domain : Bytes) : HashRoot :=
  HashTree.root (scheme sha256) (.container [Tree.bytes messageRoot.bytes, Tree.bytes domain])

/-! ## Registrations -/

/-- `v1::ValidatorRegistration` -/
structure ValidatorRegistration where
  feeRecipient : ExecutionAddress
  gasLimit : UInt64
  timestamp : UInt64
  pubkey : BLSPubKey
  deriving DecidableEq

def ValidatorRegistration.messageRoot (msg : ValidatorRegistration) : HashRoot :=
  HashTree.root (scheme sha256) (.container [Tree.bytes msg.feeRecipient.bytes,
    Tree.uint64 msg.gasLimit, Tree.uint64 msg.timestamp, Tree.bytes msg.pubkey.bytes])

namespace Registration

/-- `REGISTRATION_DOMAIN_TYPE` -/
def registrationDomainType : Bytes := [0x00, 0x00, 0x00, 0x01]

/-- Creates a new validator registration message. -/
def newMessage (pubkey : BLSPubKey) (feeRecipient : String) (gasLimit timestamp : UInt64) :
    Option ValidatorRegistration := do
  let feeRecipient ← verifyAddress feeRecipient
  return ⟨feeRecipient, gasLimit, timestamp, pubkey⟩

def getMessageSigningRoot (msg : ValidatorRegistration) (genesisForkVersion : Bytes) : HashRoot :=
  computeSigningRoot sha256 (msg.messageRoot sha256)
    (computeBuilderDomain sha256 registrationDomainType genesisForkVersion)

end Registration

end Roots

end Pluto.Eth2Util
