import Pluto.Lib.SszContainer

/-!
# Typed data

`eip712.rs`: the digest of a typed message.  Keccak-256 is a parameter.  Only strings and numbers can
be encoded, so that the other values of the source stand for one here.
-/

namespace Pluto.Eth2Util.Eip712

open SszContainer Wire

inductive Value
  | string (s : String)
  | number (n : UInt64)
  /-- a boolean, bytes, an array, an object or nothing -/
  | other
  deriving DecidableEq

structure Field where
  name : String
  fieldType : String
  value : Value

/-- `Type`: the primary type of a message, with its fields -/
structure PrimaryType where
  name : String
  fields : List Field

structure Domain where
  name : String
  version : String
  chainId : UInt64

structure TypedData where
  domain : Domain
  primaryType : PrimaryType

inductive Error
  | unsupportedFieldType (fieldType : String)
  deriving DecidableEq, Repr

def primitiveString : String := "string"
def primitiveUint256 : String := "uint256"
def termsAndConditionTypeName : String := "TermsAndConditions"

def domainToType (domain : Domain) : PrimaryType :=
  ⟨"EIP712Domain", [⟨"name", primitiveString, .string domain.name⟩,
    ⟨"version", primitiveString, .string domain.version⟩,
    ⟨"chainId", primitiveUint256, .number domain.chainId⟩]⟩

def encodeType (typ : PrimaryType) : Bytes :=
  utf8 typ.name ++ utf8 "(" ++
    (List.intersperse (utf8 ",") (typ.fields.map fun field =>
      utf8 field.fieldType ++ utf8 " " ++ utf8 field.name)).flatten ++ utf8 ")"

section Hash

variable (keccak256 : Bytes → Bytes)

/-- A number is 32 bytes, most significant first. -/
def encodeField (field : Field) : Except Error Bytes :=
  match field.value with
  | .string s =>
    if field.fieldType = primitiveString then .ok (keccak256 (utf8 s))
    else .error (.unsupportedFieldType field.fieldType)
  | .number n =>
    if field.fieldType = primitiveUint256 then .ok (leBytes 32 n.toNat).reverse
    else .error (.unsupportedFieldType field.fieldType)
  | .other => .error (.unsupportedFieldType field.fieldType)

def hashData (typ : PrimaryType) : Except Error Bytes := do
  let fields ← typ.fields.mapM (encodeField keccak256)
  return keccak256 (keccak256 (encodeType typ) ++ fields.flatten)

/-- The terms and conditions are signed without a chain. -/
def hashTypedData (data : TypedData) : Except Error Bytes := do
  let domainType := domainToType data.domain
  let domainType :=
    if data.primaryType.name = termsAndConditionTypeName then
      { domainType with fields := domainType.fields.eraseIdx 2 }
    else domainType
  let domainHash ← hashData keccak256 domainType
  let dataHash ← hashData keccak256 data.primaryType
  return keccak256 ([0x19, 0x01] ++ domainHash ++ dataHash)

end Hash

end Pluto.Eth2Util.Eip712
