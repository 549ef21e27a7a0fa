import Pluto.Core.Duty

/-!
# Definitions of duties

What the scheduler finds out about the duty of a validator, and answers to queries with.
-/

namespace Pluto.Core.Scheduler

structure AttesterDutyDefinition where
  pubkey : PubKey
  slot : UInt64
  validatorIndex : UInt64
  committeeIndex : UInt64
  committeeLength : UInt64
  committeesAtSlot : UInt64
  validatorCommitteeIndex : UInt64
  deriving DecidableEq

structure ProposerDutyDefinition where
  pubkey : PubKey
  vIdx : UInt64
  slot : UInt64
  deriving DecidableEq

structure SyncCommitteeDutyDefinition where
  pubkey : PubKey
  validatorIndex : UInt64
  validatorSyncCommitteeIndices : List UInt64
  deriving DecidableEq

inductive DutyDefinition
  | attester (definition : AttesterDutyDefinition)
  | proposer (definition : ProposerDutyDefinition)
  | syncCommittee (definition : SyncCommitteeDutyDefinition)
  deriving DecidableEq

end Pluto.Core.Scheduler
