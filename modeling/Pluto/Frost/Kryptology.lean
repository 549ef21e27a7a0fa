import Pluto.Crypto.Curve
import Pluto.Frost.Core

/-!
# The key generation

The model of `kryptology.rs`: the two rounds of the key generation and the combination of partial
signatures.

The hash of a challenge to a scalar (`kryptology_hash_to_scalar`) is an arbitrary function here, and
what the random number generator gives is an argument: the coefficients of the polynomial, and the
nonce, which is drawn again while it is zero.

`round2` visits the broadcasts in the order of their senders.  Of each but its own it checks the
number of commitments, the proof that the sender knows the constant term, and the share it was sent
against the commitments; then it adds the share up and files the commitments.
-/

namespace Pluto.Frost

open Crypto

inductive KryptologyError
  | invalidParticipantId (id : UInt32)
  | duplicateIdentifier (id : UInt32)
  | insufficientSigners
  | invalidSignerCount
  | invalidProof (culprit : UInt32)
  | invalidShare (culprit : UInt32)
  | incorrectPackageCount
  | invalidScalar
  | invalidPoint
  | invalidCommitmentCount (participant : UInt32)
  | frostCoreError (e : FrostCoreError)
  deriving DecidableEq, Repr

structure Round1Bcast where
  commitments : List Bytes
  wi : Bytes
  ci : Bytes
  deriving DecidableEq, Repr

structure Round2Bcast where
  verificationKey : Bytes
  vkShare : Bytes
  deriving DecidableEq, Repr

structure ShamirShare where
  id : UInt32
  value : Bytes
  deriving DecidableEq, Repr

/-- What a participant keeps between the rounds. -/
structure Round1Secret (F G₁ : Type) where
  id : UInt32
  ctx : UInt8
  coefficients : List F
  commitment : List G₁
  threshold : UInt16
  maxSigners : UInt16

/-- What a participant draws in round 1. -/
structure Randomness (F : Type) [Zero F] where
  coefficient : ℕ → F
  nonce : F
  nonce_ne_zero : nonce ≠ 0

def validateRoundParameters (id : UInt32) (threshold maxSigners : UInt16) :
    Except KryptologyError Unit :=
  if 255 < maxSigners.toNat then .error .invalidSignerCount
  else do
    (validateNumOfSigners threshold maxSigners).mapError .frostCoreError
    if id = 0 ∨ maxSigners.toNat < id.toNat then .error (.invalidParticipantId id)
    else .ok ()

section Rounds

variable {F G₁ G₂ : Type} [Field F] [DecidableEq F] [AddCommGroup G₁] [Module F G₁]
  [DecidableEq G₁] [AddCommGroup G₂] [Module F G₂]
  (curve : Curve F G₁ G₂) (hashToScalar : Bytes → F)

def scalarFromBe (bytes : Bytes) : Except KryptologyError F :=
  match curve.scalarFromBytes bytes with
  | none => .error .invalidScalar
  | some s => .ok s

/-- `G1Projective::from_compressed`, which rejects the point at infinity -/
def fromCompressed (bytes : Bytes) : Option G₁ := do
  let p ← curve.g1FromBytes bytes
  if p = 0 then none else some p

def kryptologyChallenge (id ctx : UInt8) (commitment₀ r : G₁) : F :=
  hashToScalar (id :: ctx :: (curve.g1ToBytes commitment₀ ++ curve.g1ToBytes r))

def deserializeCommitment (participant : UInt32) (threshold : UInt16) (commitments : List Bytes) :
    Except KryptologyError (List G₁) :=
  if commitments.length ≠ threshold.toNat then .error (.invalidCommitmentCount participant)
  else commitments.mapM fun bytes =>
    match fromCompressed curve bytes with
    | none => .error .invalidPoint
    | some p => .ok p

/-! ## Round 1 -/

/-- The share of every other participant. -/
def sharesFor (id : UInt32) (maxSigners : UInt16) (coefficients : List F) :
    Except KryptologyError (SortedMap UInt32 ShamirShare) :=
  ((List.range maxSigners.toNat).map fun j => UInt32.ofNat (j + 1)).foldlM (fun shares j => do
    if j = id then return shares
    let jId ← (identifierFromU32 F j).mapError .frostCoreError
    let share := evaluatePolynomial jId coefficients
    return shares.insert j { id := j, value := curve.scalarToBytes share }) .empty

def round1 (id : UInt32) (threshold maxSigners : UInt16) (ctx : UInt8) (rng : Randomness F) :
    Except KryptologyError
      (Round1Bcast × SortedMap UInt32 ShamirShare × Round1Secret F G₁) := do
  validateRoundParameters id threshold maxSigners
  let coefficients := (List.range threshold.toNat).map rng.coefficient
  let commitment := coefficients.map (· • curve.generator)
  let ci := kryptologyChallenge curve hashToScalar (UInt8.ofNat id.toNat) ctx (commitment.headD 0)
    (rng.nonce • curve.generator)
  let wi := rng.nonce + coefficients.headD 0 * ci
  let shares ← sharesFor curve id maxSigners coefficients
  return ({ commitments := commitment.map curve.g1ToBytes,
            wi := curve.scalarToBytes wi,
            ci := curve.scalarToBytes ci },
    shares, { id, ctx, coefficients, commitment, threshold, maxSigners })

/-! ## Round 2 -/

/-- The proof that the sender of a broadcast knows its constant term. -/
def verifyProof (ctx : UInt8) (senderId : UInt32) (bcast : Round1Bcast) (a₀ : G₁) :
    Except KryptologyError Unit := do
  let wi ← scalarFromBe curve bcast.wi
  let ci ← scalarFromBe curve bcast.ci
  let r := wi • curve.generator - ci • a₀
  if ci = 0 then .error (.invalidProof senderId)
  else if 255 < senderId.toNat then .error (.invalidParticipantId senderId)
  else if kryptologyChallenge curve hashToScalar (UInt8.ofNat senderId.toNat) ctx a₀ r ≠ ci then
    .error (.invalidProof senderId)
  else .ok ()

/-- The share of the sender, which has to be addressed to this participant and to agree with the
commitment. -/
def verifyShare (ownId senderId : UInt32) (receivedShares : SortedMap UInt32 ShamirShare)
    (commitment : List G₁) : Except KryptologyError F :=
  match receivedShares.lookup senderId with
  | none => .error (.invalidShare senderId)
  | some share =>
    if share.id = 0 ∨ share.id ≠ ownId then .error (.invalidShare senderId)
    else do
      let shareScalar ← scalarFromBe curve share.value
      if shareScalar = 0 then .error (.invalidShare senderId)
      else
        (verifySecretShare curve.generator ownId shareScalar commitment).mapError
          fun _ => .invalidShare senderId
        return shareScalar

/-- One turn of the loop over the broadcasts, on the sum of the shares and the commitments. -/
def receiveBcast (secret : Round1Secret F G₁) (receivedShares : SortedMap UInt32 ShamirShare)
    (acc : F × SortedMap UInt32 (List G₁)) (entry : UInt32 × Round1Bcast) :
    Except KryptologyError (F × SortedMap UInt32 (List G₁)) :=
  if entry.1 = secret.id then .ok acc
  else do
    let commitment ← deserializeCommitment curve entry.1 secret.threshold entry.2.commitments
    verifyProof curve hashToScalar secret.ctx entry.1 entry.2 (commitment.headD 0)
    let shareScalar ← verifyShare curve secret.id entry.1 receivedShares commitment
    let sender ← (identifierFromU32 F entry.1).mapError .frostCoreError
    return (acc.1 + shareScalar, acc.2.insert sender commitment)

def round2 (secret : Round1Secret F G₁) (receivedBcasts : SortedMap UInt32 Round1Bcast)
    (receivedShares : SortedMap UInt32 ShamirShare) :
    Except KryptologyError (Round2Bcast × KeyPackage F G₁ × PublicKeyPackage G₁) :=
  let minReceived := secret.threshold.toNat - 1
  if receivedBcasts.size < minReceived ∨ secret.maxSigners.toNat < receivedBcasts.size ∨
      receivedShares.size < minReceived ∨ secret.maxSigners.toNat - 1 < receivedShares.size then
    .error .incorrectPackageCount
  else do
    let ownIdentifier ← (identifierFromU32 F secret.id).mapError .frostCoreError
    let ownShare := evaluatePolynomial ownIdentifier secret.coefficients
    let (shareSum, peerCommitments) ←
      receivedBcasts.entries.foldlM (receiveBcast curve hashToScalar secret receivedShares)
        ((0 : F), .empty)
    let total := ownShare + shareSum
    let verifyingShare := total • curve.generator
    let publicKeyPackage ←
      (fromDkgCommitments F (peerCommitments.insert ownIdentifier secret.commitment)).mapError
        .frostCoreError
    let verifyingKey := publicKeyPackage.verifyingKey
    return ({ verificationKey := curve.g1ToBytes verifyingKey,
              vkShare := curve.g1ToBytes verifyingShare },
      { identifier := ownIdentifier, signingShare := total, verifyingShare, verifyingKey,
        minSigners := secret.threshold },
      publicKeyPackage)

/-! ## Signatures -/

structure BlsPartialSignature (G₂ : Type) where
  identifier : UInt32
  point : G₂

def BlsPartialSignature.fromKeyPackage (keyPackage : KeyPackage F G₁) (msg : Bytes) :
    BlsPartialSignature G₂ where
  identifier := keyPackage.identifier
  point := keyPackage.signingShare • curve.hashToG2 msg

/-- The check for repeated identifiers. -/
def checkDuplicates : List UInt32 → List UInt32 → Except KryptologyError Unit
  | _, [] => .ok ()
  | seen, id :: ids =>
    if id ∈ seen then .error (.duplicateIdentifier id) else checkDuplicates (id :: seen) ids

/-- One turn of the inner loop, for the coefficient of `x_vals[i]`. -/
def lambdaStep (own : F × ℕ) (lambda : F) (other : F × ℕ) : Except KryptologyError F :=
  if own.2 = other.2 then .ok lambda
  else
    let den := other.1 - own.1
    if den = 0 then .error .invalidSignerCount else .ok (lambda * other.1 * den⁻¹)

/-- One turn of the loop over the signatures. -/
def combineStep (xVals : List F) (combined : G₂) (entry : BlsPartialSignature G₂ × F × ℕ) :
    Except KryptologyError G₂ := do
  let lambda ← xVals.zipIdx.foldlM (lambdaStep entry.2) 1
  return combined + lambda • entry.1.point

variable (F) in
def fromPartialSignatures (minSigners : UInt16) (partialSigs : List (BlsPartialSignature G₂)) :
    Except KryptologyError G₂ :=
  if minSigners < 2 ∨ partialSigs.length < minSigners.toNat then .error .insufficientSigners
  else do
    checkDuplicates [] (partialSigs.map (·.identifier))
    let xVals : List F := partialSigs.map fun ps => toScalar F ps.identifier
    (partialSigs.zip xVals.zipIdx).foldlM (combineStep xVals) 0

end Rounds

end Pluto.Frost
