import Pluto.Crypto.Blst

/-!
# Verifying BLS signatures

The public part of `blst_impl.rs`: public keys, the sum of signatures, and the check of a signature
under one key or under the sum of several.  The pairing behind the check is a parameter (`Pairing`); on
the ideal curve it accepts exactly the signature of the secret key.
-/

namespace Pluto.Crypto.Blst

variable {F G₁ G₂ : Type} [Field F] [DecidableEq F] [AddCommGroup G₁] [Module F G₁]
  [AddCommGroup G₂] [Module F G₂]

/-- `BlstSignature::verify` with `ETH2_DST` and all checks.  The key of infinity is rejected. -/
structure Pairing (curve : Curve F G₁ G₂) where
  verify : G₁ → Bytes → G₂ → Bool
  verify_iff : ∀ (s : F) data sig, verify (s • curve.generator) data sig = true ↔
    s ≠ 0 ∧ sig = s • curve.hashToG2 data

variable {curve : Curve F G₁ G₂} (pairing : Pairing curve)

variable (curve) in
/-- `BlstPublicKey::from_bytes` -/
def publicKeyFromBytes (bytes : Bytes) : Except Error G₁ :=
  Except.okOr (curve.g1FromBytes bytes) .invalidPublicKey

def verify (publicKey data rawSignature : Bytes) : Except Error Unit := do
  let pk ← publicKeyFromBytes curve publicKey
  let sig ← signatureFromBytes curve rawSignature
  if pairing.verify pk data sig then return () else throw .verificationFailed

def verifyAggregate (publicKeys : List Bytes) (signature data : Bytes) : Except Error Unit :=
  if publicKeys = [] then .error .emptyPublicKeyArray
  else do
    let pks ← publicKeys.mapM (publicKeyFromBytes curve)
    let sig ← signatureFromBytes curve signature
    if pairing.verify pks.sum data sig then return () else throw .verificationFailed

omit [DecidableEq F] in
/-- Points are encoded in the lengths of BLS12-381, and no encoding is all zeros: a compressed point
has its first bit set. -/
structure Compressed (curve : Curve F G₁ G₂) : Prop where
  length_g1 : ∀ p, (curve.g1ToBytes p).length = 48
  g1_ne : ∀ p, curve.g1ToBytes p ≠ List.replicate 48 0
  length_g2 : ∀ p, (curve.g2ToBytes p).length = 96
  g2_ne : ∀ p, curve.g2ToBytes p ≠ List.replicate 96 0

end Pluto.Crypto.Blst

/-! ## Exponents as compressed points -/

namespace Pluto.Crypto

/-- The points of `exponents` in the lengths of BLS12-381. -/
def compressedExponents (hashToG2 : Bytes → ZMod order) :
    Curve (ZMod order) (ZMod order) (ZMod order) :=
  { exponents hashToG2 with
    g1ToBytes := fun p => (0x80 :: List.replicate 15 0) ++ scalarToBytes p
    g1FromBytes := fun bytes => scalarFromBytes (bytes.drop 16)
    g1FromBytes_toBytes := fun p => by
      rw [List.drop_left' (by simp), scalarFromBytes_toBytes]
    g2ToBytes := fun p => (0x80 :: List.replicate 63 0) ++ scalarToBytes p
    g2FromBytes := fun bytes => scalarFromBytes (bytes.drop 64)
    g2FromBytes_toBytes := fun p => by
      rw [List.drop_left' (by simp), scalarFromBytes_toBytes] }

lemma compressed_compressedExponents (hashToG2 : Bytes → ZMod order) :
    Blst.Compressed (compressedExponents hashToG2) where
  length_g1 p := by simp [compressedExponents, scalarToBytes]
  g1_ne p h := absurd (congrArg List.head? h) (by simp [compressedExponents])
  length_g2 p := by simp [compressedExponents, scalarToBytes]
  g2_ne p h := absurd (congrArg List.head? h) (by simp [compressedExponents])

/-- A signature is the product of the key and the hash. -/
def exponentPairing (hashToG2 : Bytes → ZMod order) :
    Blst.Pairing (compressedExponents hashToG2) where
  verify pk data sig := pk ≠ 0 ∧ sig = pk * hashToG2 data
  verify_iff s data sig := by simp [compressedExponents, exponents]

end Pluto.Crypto
