import Mathlib.Data.List.Sort
import Pluto.Crypto.K1Util
import Pluto.Eth2Util.Rlp
import Pluto.Lib.Base64
import Pluto.Lib.HashMap

/-!
# Node records

An Ethereum node record (`eth2util/src/enr.rs`) is a signed list of keys and values, written as text.
One of the values is the public key of the node.
-/

namespace Pluto.Enr

open K1Util Rlp Wire

def keySecp256k1 : String := "secp256k1"
def keyId : String := "id"
def valId : String := "v4"

inductive InvalidFormatError
  | doesNotStartWithEnr
  | oddNumberOfElements
  | nonV4IdentitySchemeNotSupported
  | publicKeyNotSet
  deriving DecidableEq, Repr

inductive RecordError
  | invalidFormat (error : InvalidFormatError)
  | tooShort (expected actual : ℕ)
  | duplicateKey (key : String)
  | failedToDecodeBase64
  | failedToDecodeRlp (error : RlpError)
  | secp256k1Error
  | failedToVerifySignature
  | invalidSignature (error : K1UtilError)
  | failedToSign (error : K1UtilError)
  deriving DecidableEq, Repr

structure Record (PK : Type) where
  publicKey : Option PK
  signature : Bytes
  /-- The keys and values, in no order. -/
  kvs : HashMap String Bytes

/-- What the records use of other crates: the curve, Keccak-256, and the decoding of text that need
not be UTF-8. -/
structure Primitives (SK PK : Type) where
  k1 : Secp256k1 SK PK
  keccak256 : Bytes → Bytes
  fromUtf8Lossy : Bytes → String

section Model

variable {SK PK : Type} (lib : Primitives SK PK)

def verify (pubkey : PK) (signature rawExclSig : Bytes) : Except RecordError Unit :=
  match verify64 lib.k1 pubkey (lib.keccak256 rawExclSig) signature with
  | .ok true => .ok ()
  | .ok false => .error .failedToVerifySignature
  | .error e => .error (.invalidSignature e)

/-- The keys and values after the signature and the sequence number. -/
def pairs : List Bytes → List (Bytes × Bytes)
  | key :: value :: rest => (key, value) :: pairs rest
  | _ => []

/-- One round of the loop over the keys and values. -/
def addPair (record : Record PK) (pair : Bytes × Bytes) : Except RecordError (Record PK) := do
  let key := lib.fromUtf8Lossy pair.1
  if key ∈ record.kvs then throw (.duplicateKey key)
  let record := { record with kvs := record.kvs.insert key pair.2 }
  if key = keySecp256k1 then
    let publicKey ← Except.okOr (lib.k1.fromSec1Bytes pair.2) .secp256k1Error
    return { record with publicKey := some publicKey }
  else if key = keyId ∧ lib.fromUtf8Lossy pair.2 ≠ valId then
    throw (.invalidFormat .nonV4IdentitySchemeNotSupported)
  else return record

/-- The text between `enr:` and the padding. -/
def payload (enr : List Char) : List Char :=
  (enr.reverse.dropWhile (· = '=')).reverse.drop 4

/-- `TryFrom<&str>` for `Record`. -/
def tryFrom (enr : String) : Except RecordError (Record PK) :=
  if ¬ "enr:".toList.isPrefixOf enr.toList then .error (.invalidFormat .doesNotStartWithEnr)
  else do
    let raw ← Except.okOr (Base64Url.decode (payload enr.toList)) .failedToDecodeBase64
    let elements ← (decodeBytesList raw).mapError .failedToDecodeRlp
    if elements.length < 4 then throw (.tooShort 4 elements.length)
    if elements.length % 2 ≠ 0 then throw (.invalidFormat .oddNumberOfElements)
    let record ← (pairs (elements.drop 2)).foldlM (addPair lib) ⟨none, elements.headD [], ∅⟩
    let publicKey ← Except.okOr record.publicKey (.invalidFormat .publicKeyNotSet)
    verify lib publicKey record.signature (encodeBytesList (elements.drop 1))
    return record

end Model

end Pluto.Enr
