import Pluto.Lib.Wire
import Pluto.Lib.Fallible

/-!
# Signatures of node keys

`crates/k1util` wraps the signatures of the curve secp256k1.  The curve itself is the crate `k256`
and a parameter here (`Secp256k1`); what this crate adds are the checks of lengths and of the recovery
byte.
-/

namespace Pluto.K1Util

def scalarLen : ℕ := 32
def k1HashLen : ℕ := 32
def signatureLen : ℕ := 65

inductive K1UtilError
  | invalidSignatureLength (expected actual : ℕ)
  | invalidSignature
  | invalidHashLength (actual : ℕ)
  | invalidSignatureRecoveryId (invalidRecoveryByte : UInt8)
  deriving DecidableEq, Repr

/-- The crate `k256`, for secret keys `SK` and public keys `PK`. -/
structure Secp256k1 (SK PK : Type) where
  publicKey : SK → PK
  toSec1Bytes : PK → Bytes
  fromSec1Bytes : Bytes → Option PK
  /-- `sign_prehash_recoverable`: the two scalars, and the parity of the point -/
  signPrehash : SK → Bytes → Option (Bytes × UInt8)
  /-- `Signature::from_slice` and then `verify_prehashed` -/
  verifyPrehashed : PK → Bytes → Bytes → Option Bool
  /-- `Signature::from_slice`, `normalize_s` and then `recover_from_prehash` -/
  recoverFromPrehash : Bytes → Bytes → UInt8 → Option PK

section Model

variable {SK PK : Type} (k1 : Secp256k1 SK PK)

/-- The two scalars, and the recovery byte behind them. -/
def sign (key : SK) (hash : Bytes) : Except K1UtilError Bytes :=
  if hash.length ≠ k1HashLen then .error (.invalidHashLength hash.length)
  else do
    let (signature, recoveryId) ← Except.okOr (k1.signPrehash key hash) .invalidSignature
    return signature ++ [recoveryId]

/-- The recovery byte; 27 and 28 are the Bitcoin-compact-format equivalents of 0 and 1. -/
def recoveryByte (original : UInt8) : Except K1UtilError UInt8 :=
  if original = 0 ∨ original = 1 then .ok original
  else if original = 27 then .ok 0
  else if original = 28 then .ok 1
  else .error (.invalidSignatureRecoveryId original)

def recover (hash sig : Bytes) : Except K1UtilError PK :=
  if hash.length ≠ k1HashLen then .error (.invalidHashLength hash.length)
  else if sig.length ≠ signatureLen then
    .error (.invalidSignatureLength signatureLen sig.length)
  else do
    let recoveryId ← recoveryByte (sig.getD 64 0)
    Except.okOr (k1.recoverFromPrehash hash (sig.take 64) recoveryId) .invalidSignature

def verify65 [DecidableEq PK] (pubkey : PK) (hash sig : Bytes) : Except K1UtilError Bool := do
  let recovered ← recover k1 hash sig
  return recovered = pubkey

def verify64 (pubkey : PK) (hash sig : Bytes) : Except K1UtilError Bool :=
  if sig.length ≠ 2 * scalarLen then
    .error (.invalidSignatureLength (2 * scalarLen) sig.length)
  else if hash.length ≠ k1HashLen then .error (.invalidHashLength hash.length)
  else Except.okOr (k1.verifyPrehashed pubkey hash sig) .invalidSignature

variable {k1} {key : SK} {hash sig : Bytes}

lemma sign_ok (h : sign k1 key hash = .ok sig) : hash.length = k1HashLen ∧
    ∃ signature recoveryId, k1.signPrehash key hash = some (signature, recoveryId) ∧
      sig = signature ++ [recoveryId] := by
  rw [sign] at h
  split_ifs at h with hlength
  obtain ⟨⟨signature, recoveryId⟩, hsign, h⟩ := Except.bind_ok_iff.mp h
  exact ⟨not_not.mp hlength, signature, recoveryId, Except.okOr_ok_iff.mp hsign,
    (Except.pure_ok_iff.mp h).symm⟩

lemma length_of_verify65 [DecidableEq PK] {pubkey : PK} {valid : Bool}
    (h : verify65 k1 pubkey hash sig = .ok valid) : sig.length = signatureLen := by
  obtain ⟨recovered, hrecover, -⟩ := Except.bind_ok_iff.mp h
  rw [recover] at hrecover
  split_ifs at hrecover with _ hlength
  exact not_not.mp hlength

/-- A signature verifies with the key that the curve recovers from it. -/
lemma verify65_append [DecidableEq PK] {recoveryId : UInt8} {pubkey : PK}
    (hhash : hash.length = k1HashLen) (hsig : sig.length = 64) (hid : recoveryId = 0 ∨ recoveryId = 1)
    (hrecover : k1.recoverFromPrehash hash sig recoveryId = some pubkey) :
    verify65 k1 pubkey hash (sig ++ [recoveryId]) = .ok true := by
  have hbyte : (sig ++ [recoveryId]).getD 64 0 = recoveryId := by simp [List.getD, hsig]
  have htake : (sig ++ [recoveryId]).take 64 = sig := by simp [hsig]
  rw [verify65, recover, if_neg (by simp [hhash]), if_neg (by simp [hsig, signatureLen]), hbyte,
    recoveryByte, if_pos hid, htake, Except.ok_bind, hrecover]
  simp [Except.okOr]

end Model

end Pluto.K1Util
