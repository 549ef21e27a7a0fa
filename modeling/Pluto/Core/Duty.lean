import Pluto.Core.Corepb

/-!
# Duties

`Duty`, `DutyType` and `PubKey` of `crates/core/src/types.rs`, and the conversions of duties from
and to the protobuf `Duty`.  The wire numbers are `0..13`; the sentinel has none, and a message off
the wire never carries it.
-/

namespace Pluto.Core

inductive DutyType
  | unknown
  | proposer
  | attester
  | signature
  | exit
  | builderProposer
  | builderRegistration
  | randao
  | prepareAggregator
  | aggregator
  | syncMessage
  | prepareSyncContribution
  | syncContribution
  | infoSync
  /-- Must always be last. -/
  | dutySentinel (inner : DutyType)
  deriving DecidableEq, Repr

inductive DutyTypeError
  | invalidDutyType
  deriving DecidableEq, Repr

/-- The error of `parsigex_codec` that the conversions from the wire return. -/
inductive ParSigExCodecError
  | invalidDuty
  deriving DecidableEq, Repr

namespace DutyType

/-- Returns true if the duty type is valid. -/
def isValid : DutyType → Bool
  | unknown | dutySentinel _ => false
  | _ => true

/-- Returns true if duties of this type have no deadline. -/
def neverExpires : DutyType → Bool
  | exit | builderRegistration => true
  | _ => false

/-- `i32::try_from` -/
def toWire : DutyType → Except DutyTypeError Int32
  | unknown => .ok 0
  | proposer => .ok 1
  | attester => .ok 2
  | signature => .ok 3
  | exit => .ok 4
  | builderProposer => .ok 5
  | builderRegistration => .ok 6
  | randao => .ok 7
  | prepareAggregator => .ok 8
  | aggregator => .ok 9
  | syncMessage => .ok 10
  | prepareSyncContribution => .ok 11
  | syncContribution => .ok 12
  | infoSync => .ok 13
  | dutySentinel _ => .error .invalidDutyType

/-- `DutyType::try_from` -/
def ofWire (value : Int32) : Except ParSigExCodecError DutyType :=
  if value = 0 then .ok unknown
  else if value = 1 then .ok proposer
  else if value = 2 then .ok attester
  else if value = 3 then .ok signature
  else if value = 4 then .ok exit
  else if value = 5 then .ok builderProposer
  else if value = 6 then .ok builderRegistration
  else if value = 7 then .ok randao
  else if value = 8 then .ok prepareAggregator
  else if value = 9 then .ok aggregator
  else if value = 10 then .ok syncMessage
  else if value = 11 then .ok prepareSyncContribution
  else if value = 12 then .ok syncContribution
  else if value = 13 then .ok infoSync
  else .error .invalidDuty

end DutyType

/-- A slot and the duty performed in it. -/
structure Duty where
  slot : UInt64
  dutyType : DutyType
  deriving DecidableEq, Repr

namespace Duty

/-- `pbcore::Duty::try_from` -/
def toProto (duty : Duty) : Except DutyTypeError Corepb.Duty :=
  duty.dutyType.toWire.map fun type => ⟨duty.slot, type⟩

/-- `Duty::try_from` -/
def tryFrom (duty : Corepb.Duty) : Except ParSigExCodecError Duty :=
  (DutyType.ofWire duty.type).bind fun dutyType =>
    if dutyType.isValid then .ok ⟨duty.slot, dutyType⟩ else .error .invalidDuty

end Duty

/-- Public key of a validator: `[u8; 48]`. -/
structure PubKey where
  bytes : List UInt8
  length_eq : bytes.length = 48
  deriving DecidableEq

lemma length_zeros : (List.replicate 48 (0 : UInt8)).length = 48 := rfl

lemma length_ones : (List.replicate 48 (1 : UInt8)).length = 48 := rfl

end Pluto.Core
