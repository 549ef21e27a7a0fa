import Pluto.Lib.LockedVoting
import Mathlib.Data.List.AList

/-!
# The data of the consensus core

Messages, upon-rules, errors and the definition of `crates/core/src/qbft/mod.rs`.  One consensus
instance is fixed throughout, so the `Instance` argument of the callbacks is left out and
`isLeader` is a function of the round and the process.  Rounds and process numbers are `i64` in
the source and integers here; the places where the source checks an addition for overflow compare
with `i64Max`.

The application value that the compare callback works on (`T::Compare`) never influences the
core: only the result of the callback does, and that result is part of the event that triggers
it.  The debug loggers are left out for the same reason.
-/

namespace Pluto.Qbft

/-- The largest `i64`. -/
def i64Max : ℤ := 9223372036854775807

/-- `MAX_JUSTIFICATIONS_PER_NODE` of `Consensus::handle`. -/
def maxJustificationsPerNode : ℕ := 4

/-! ## Messages -/

/-- QBFT message types.  `other` stands for every wire value outside `0..5`. -/
inductive MessageType
  | unknown
  | prePrepare
  | prepare
  | commit
  | roundChange
  | decided
  | other (wire : ℤ)
  deriving DecidableEq, Repr

/-- Converts a stable wire integer into a message type without clamping. -/
def MessageType.fromWire (value : ℤ) : MessageType :=
  if value = 0 then .unknown
  else if value = 1 then .prePrepare
  else if value = 2 then .prepare
  else if value = 3 then .commit
  else if value = 4 then .roundChange
  else if value = 5 then .decided
  else .other value

/-- The stable wire integer of a message type. -/
def MessageType.toWire : MessageType → ℤ
  | .unknown => 0
  | .prePrepare => 1
  | .prepare => 2
  | .commit => 3
  | .roundChange => 4
  | .decided => 5
  | .other wire => wire

/-- True when the message type is one of the known QBFT wire types. -/
def MessageType.valid : MessageType → Bool
  | .prePrepare | .prepare | .commit | .roundChange | .decided => true
  | .unknown | .other _ => false

lemma MessageType.valid_fromWire (w : ℤ) : (fromWire w).valid = true ↔ 0 < w ∧ w < 6 := by
  unfold fromWire
  split_ifs <;> simp [valid] <;> omega

/-- A consensus message.  The justification is the list of messages that explicitly justifies
it; messages off the wire carry justifications without justifications of their own. -/
structure Msg (V : Type) where
  type : MessageType
  source : ℤ
  round : ℤ
  value : V
  preparedRound : ℤ
  preparedValue : V
  justification : List (Msg V)

/-- The message as it appears inside another message's justification. -/
def Msg.strip {V : Type} (m : Msg V) : Msg V := { m with justification := [] }

section Strip

variable {V : Type} (m : Msg V)

@[simp] lemma Msg.strip_type : m.strip.type = m.type := rfl
@[simp] lemma Msg.strip_source : m.strip.source = m.source := rfl
@[simp] lemma Msg.strip_round : m.strip.round = m.round := rfl
@[simp] lemma Msg.strip_value : m.strip.value = m.value := rfl
@[simp] lemma Msg.strip_preparedRound : m.strip.preparedRound = m.preparedRound := rfl
@[simp] lemma Msg.strip_preparedValue : m.strip.preparedValue = m.preparedValue := rfl
@[simp] lemma Msg.strip_justification : m.strip.justification = [] := rfl
@[simp] lemma Msg.strip_strip : m.strip.strip = m.strip := rfl

end Strip

/-- Event based rules triggered when messages are received. -/
inductive UponRule
  | nothing
  | justifiedPrePrepare
  | quorumPrepares
  | quorumCommits
  | unjustQuorumRoundChanges
  | fPlus1RoundChanges
  | quorumRoundChanges
  | justifiedDecided
  | roundTimeout
  deriving DecidableEq, Repr

/-! ## Errors -/

/-- Errors returned by the core. -/
inductive QbftError
  | timeoutError
  | compareError
  | unexpectedCompareError (inner : QbftError)
  | contextCanceled
  | maxRoundReached
  | zeroInputValue
  | valueNotFound
  | invalidNodes (nodes : ℤ)
  | invalidFifoLimit (fifoLimit : ℤ)
  | channelError
  deriving DecidableEq, Repr

/-- The places where the core panics. -/
inductive Panic
  /-- "bug: justification cache must be none" -/
  | justificationCache
  /-- "FIFO length exceeds limit" -/
  | fifoLength
  /-- "round permits increment" -/
  | roundIncrement
  /-- "compare failure round permits increment" -/
  | compareFailureIncrement
  /-- "bug: invalid rule" -/
  | invalidRule
  /-- "bug: invalid type" and "bug: invalid message type" -/
  | invalidType
  /-- "bug: not a round change message" -/
  | notRoundChange
  /-- "bug: not a decided message" -/
  | notDecided
  /-- "bug: not a preprepare message" -/
  | notPrePrepare
  /-- "bug: Frc too short" -/
  | frcTooShort
  /-- "bug: Frc contain non-round change" -/
  | frcNonRoundChange
  /-- "bug: Frc round not in future" -/
  | frcRoundNotInFuture
  /-- "bug: nested justifications" -/
  | nestedJustifications
  /-- The rules that "always include a justification" -/
  | missingJustification
  /-- `prepares[0]` on an empty list -/
  | indexOutOfBounds
  deriving DecidableEq, Repr

/-- Why an execution ended. -/
inductive Stop
  | returned (err : QbftError)
  | panicked (at_ : Panic)
  deriving DecidableEq, Repr

/-! ## The definition -/

/-- The checks `run` makes before anything else. -/
def validateDefinition (nodes fifoLimit : ℤ) : Except QbftError Unit :=
  if nodes ≤ 0 then .error (.invalidNodes nodes)
  else if fifoLimit ≤ 0 then .error (.invalidFifoLimit fifoLimit)
  else .ok ()

lemma validateDefinition_eq_ok {nodes fifoLimit : ℤ} :
    validateDefinition nodes fifoLimit = .ok () ↔ 0 < nodes ∧ 0 < fifoLimit := by
  unfold validateDefinition
  split_ifs <;> simp <;> omega

/-- Quorum count for `nodes` participants; `none` is the panic of the checked arithmetic. -/
def quorum (nodes : ℤ) : Option ℤ :=
  if nodes * 2 ≤ i64Max ∧ nodes * 2 + 2 ≤ i64Max then some ((nodes * 2 + 2) / 3) else none

lemma quorum_one : (quorum 1).isSome := by decide

lemma quorum_four : (quorum 4).isSome := by decide

lemma validateDefinition_one : validateDefinition 1 100 = .ok () := by decide

/-- The system parameters external to the algorithm, for the instance at hand.  A definition is
validated when `run` starts, and `new_definition` evaluates the quorum when it builds one, so
neither check can fail later. -/
structure Definition where
  /-- A deterministic leader election function: round, process. -/
  isLeader : ℤ → ℤ → Bool
  nodes : ℤ
  fifoLimit : ℤ
  valid : validateDefinition nodes fifoLimit = .ok ()
  quorum_isSome : (quorum nodes).isSome

namespace Definition

variable (d : Definition)

lemma nodes_pos : 0 < d.nodes := (validateDefinition_eq_ok.mp d.valid).1

/-- Quorum count for the system. -/
def quorum : ℤ := (Qbft.quorum d.nodes).get d.quorum_isSome

/-- Maximum number of faulty nodes supported in the system. -/
def faulty : ℤ := (d.nodes - 1) / 3

def quorumCount : ℕ := d.quorum.toNat

def faultyPlusOneCount : ℕ := (d.faulty + 1).toNat

lemma quorum_eq : d.quorum = (d.nodes * 2 + 2) / 3 := by
  have h := d.quorum_isSome
  unfold quorum
  unfold Qbft.quorum at h ⊢
  split_ifs at h ⊢ with hfit
  · rfl
  · simp at h

lemma quorumCount_eq : (d.quorumCount : ℤ) = (d.nodes * 2 + 2) / 3 := by
  have hpos := d.nodes_pos
  rw [quorumCount, quorum_eq]
  omega

lemma quorumCount_pos : 0 < d.quorumCount := by
  have h := d.quorumCount_eq
  have hpos := d.nodes_pos
  omega

lemma faulty_nonneg : 0 ≤ d.faulty := by
  have hpos := d.nodes_pos
  unfold faulty
  omega

/-- Two quorums overlap in more than the tolerated number of faulty nodes. -/
lemma nodes_add_faulty_lt : d.nodes + d.faulty < 2 * d.quorumCount := by
  have h := d.quorumCount_eq
  have hpos := d.nodes_pos
  unfold faulty
  omega

end Definition

end Pluto.Qbft
