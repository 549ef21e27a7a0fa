import Mathlib.Algebra.Group.Int.Defs
import Pluto.Core.Duty
import Pluto.Lib.Fallible

/-!
# Deadline calculators

`crates/core/src/deadline/calculator.rs` and `msecs.rs`.  A `DateTime` is a number of nanoseconds
within the range chrono can represent, a chrono `Duration` a signed number of them.  A calculator
is a pure function from duties to deadlines: some duties have none, and the arithmetic may fail.

`DutyDeadlineCalculator` counts in whole milliseconds of width `i64`, checked at every operation.
`deadline_mono` is what the eviction marks of the stores rest on: among duties of one type a later
slot has no earlier deadline.
-/

namespace Pluto.Core.Deadline

open Except (bind_ok_iff)

/-- `DateTime::<Utc>::MIN_UTC` -/
def minUtcNanos : ℤ := -8334601228800000000000

/-- `DateTime::<Utc>::MAX_UTC` -/
def maxUtcNanos : ℤ := 8210266876799999999999

/-- A `DateTime<Utc>`: nanoseconds since the epoch. -/
abbrev DateTime : Type := {nanos : ℤ // minUtcNanos ≤ nanos ∧ nanos ≤ maxUtcNanos}

lemma zero_mem_utc : minUtcNanos ≤ 0 ∧ 0 ≤ maxUtcNanos := by decide

-- Named instances of `ℤ`, since not all of them compute.
instance (t t' : DateTime) : Decidable (t < t') := Int.decLt t.1 t'.1

instance (t t' : DateTime) : Decidable (t ≤ t') := Int.decLe t.1 t'.1

namespace DateTime

def maxUtc : DateTime := ⟨maxUtcNanos, by decide, le_rfl⟩

lemma le_maxUtc (t : DateTime) : t ≤ maxUtc := t.2.2

def checkedAddSigned (t : DateTime) (nanos : ℤ) : Option DateTime :=
  if h : minUtcNanos ≤ t.1 + nanos ∧ t.1 + nanos ≤ maxUtcNanos then some ⟨t.1 + nanos, h⟩ else none

lemma checkedAddSigned_some {t t' : DateTime} {nanos : ℤ}
    (h : t.checkedAddSigned nanos = some t') : t'.1 = t.1 + nanos := by
  unfold checkedAddSigned at h
  split at h
  · rw [← Option.some.inj h]
  · exact absurd h.symm (Option.some_ne_none t')

end DateTime

/-- Error types for deadline operations. -/
inductive DeadlineError
  | arithmeticOverflow
  | durationConversion
  | dateTimeCalculation
  deriving DecidableEq, Repr

/-- Computes the deadline of a duty; `none` if it never expires. -/
abbrev DeadlineCalculator : Type := Duty → Except DeadlineError (Option DateTime)

/-- Calculator that reports every duty as never expiring. -/
def neverExpiringCalculator : DeadlineCalculator := fun _ => .ok none

/-! ## Whole milliseconds -/

def i64Min : ℤ := -2 ^ 63

def i64Max : ℤ := 2 ^ 63 - 1

/-- Whole milliseconds in `i64` width with checked arithmetic. -/
structure Msecs where
  ms : ℤ
  inRange : i64Min ≤ ms ∧ ms ≤ i64Max

namespace Msecs

/-- The result of a checked operation. -/
def checked (ms : ℤ) : Except DeadlineError Msecs :=
  if h : i64Min ≤ ms ∧ ms ≤ i64Max then .ok ⟨ms, h⟩ else .error .arithmeticOverflow

lemma checked_ok {ms : ℤ} {m : Msecs} (h : checked ms = .ok m) : m.ms = ms := by
  unfold checked at h
  split at h
  · rw [← Except.ok.inj h]
  · simp at h

/-- The slot has to fit into an `i64` too. -/
def checkedMulSlot (m : Msecs) (slot : UInt64) : Except DeadlineError Msecs :=
  if (slot.toNat : ℤ) ≤ i64Max then checked (m.ms * slot.toNat) else .error .arithmeticOverflow

def checkedMul (m : Msecs) (factor : ℤ) : Except DeadlineError Msecs := checked (m.ms * factor)

def checkedDiv (m : Msecs) (divisor : ℤ) : Except DeadlineError Msecs :=
  if divisor = 0 then .error .arithmeticOverflow else checked (m.ms.tdiv divisor)

def checkedAdd (m other : Msecs) : Except DeadlineError Msecs := checked (m.ms + other.ms)

/-- `base + self`.  A chrono `Duration` spans every `i64` of milliseconds but the least. -/
def addTo (m : Msecs) (base : DateTime) : Except DeadlineError DateTime :=
  if m.ms = i64Min then .error .durationConversion
  else
    match base.checkedAddSigned (m.ms * 10 ^ 6) with
    | some t => .ok t
    | none => .error .dateTimeCalculation

lemma checkedMulSlot_ok {m m' : Msecs} {slot : UInt64} (h : m.checkedMulSlot slot = .ok m') :
    m'.ms = m.ms * slot.toNat := by
  unfold checkedMulSlot at h
  split at h
  · exact checked_ok h
  · simp at h

lemma addTo_ok {m : Msecs} {base t : DateTime} (h : m.addTo base = .ok t) :
    t.1 = base.1 + m.ms * 10 ^ 6 := by
  unfold addTo at h
  split at h
  · simp at h
  · split at h
    · rename_i t' hadd
      obtain rfl : t' = t := Except.ok.inj h
      exact DateTime.checkedAddSigned_some hadd
    · simp at h

end Msecs

/-! ## The calculator of the node -/

/-- Fraction of slot duration to use as a margin for network delays. -/
def marginFactor : ℤ := 12

/-- Block proposal must complete within 1/3 of a slot (denominator). -/
def proposalSlotFraction : ℤ := 3

/-- SyncMessage must complete within 2/3 of a slot (numerator). -/
def syncMessagePhases : ℤ := 2

/-- Attestation/aggregation deadline = N slots after slot start. -/
def attestationDeadlineSlots : ℤ := 2

/-- Beacon-node-derived deadline calculator.  The slot duration comes from a `std` duration: it is
not negative, and a chrono `Duration` can hold it. -/
structure DutyDeadlineCalculator where
  genesisTime : DateTime
  slotDuration : ℤ
  nonneg : 0 ≤ slotDuration
  bounded : slotDuration ≤ i64Max * 10 ^ 6

namespace DutyDeadlineCalculator

/-- What the beacon node answers, if chrono can hold the slot duration. -/
def fromClient (genesisTime : DateTime) (slotDuration : ℕ) :
    Except DeadlineError DutyDeadlineCalculator :=
  if h : (slotDuration : ℤ) ≤ i64Max * 10 ^ 6 then
    .ok ⟨genesisTime, slotDuration, Int.natCast_nonneg _, h⟩
  else .error .durationConversion

variable (c : DutyDeadlineCalculator)

/-- `Msecs::from` -/
def slotMsecs : Msecs where
  ms := c.slotDuration.tdiv (10 ^ 6)
  inRange := by
    have hnonneg := c.nonneg
    have hbounded := c.bounded
    rw [Int.tdiv_eq_ediv_of_nonneg hnonneg]
    unfold i64Min i64Max at *
    omega

/-- Wall-clock start of the given slot. -/
def slotStart (slot : UInt64) : Except DeadlineError DateTime := do
  let offset ← c.slotMsecs.checkedMulSlot slot
  offset.addTo c.genesisTime

/-- Network-delay margin added to every deadline. -/
def margin : Except DeadlineError Msecs := c.slotMsecs.checkedDiv marginFactor

/-- Duty-type-specific offset from slot start. -/
def dutyDuration : DutyType → Except DeadlineError Msecs
  | .proposer | .randao => c.slotMsecs.checkedDiv proposalSlotFraction
  | .syncMessage => do
    let phases ← c.slotMsecs.checkedMul syncMessagePhases
    phases.checkedDiv proposalSlotFraction
  | .attester | .aggregator | .prepareAggregator => c.slotMsecs.checkedMul attestationDeadlineSlots
  | _ => .ok c.slotMsecs

/-- `DeadlineCalculator::deadline` -/
def deadline : DeadlineCalculator := fun duty =>
  if duty.dutyType.neverExpires then .ok none
  else do
    let start ← c.slotStart duty.slot
    let duration ← c.dutyDuration duty.dutyType
    let margin ← c.margin
    let offset ← duration.checkedAdd margin
    let deadline ← offset.addTo start
    return some deadline

variable {c}

lemma slotMsecs_nonneg : 0 ≤ c.slotMsecs.ms := by
  have hnonneg := c.nonneg
  show 0 ≤ c.slotDuration.tdiv (10 ^ 6)
  rw [Int.tdiv_eq_ediv_of_nonneg hnonneg]
  omega

lemma slotStart_ok {slot : UInt64} {t : DateTime} (h : c.slotStart slot = .ok t) :
    t.1 = c.genesisTime.1 + c.slotMsecs.ms * slot.toNat * 10 ^ 6 := by
  obtain ⟨offset, hoffset, hadd⟩ := bind_ok_iff.mp h
  rw [Msecs.addTo_ok hadd, Msecs.checkedMulSlot_ok hoffset]

/-- A deadline is the start of its slot and an offset that the duty type alone determines. -/
lemma deadline_ok {dutyType : DutyType} {slot slot' : UInt64} {t t' : DateTime}
    (h : c.deadline ⟨slot, dutyType⟩ = .ok (some t))
    (h' : c.deadline ⟨slot', dutyType⟩ = .ok (some t')) :
    ∃ offset : ℤ, t.1 = c.genesisTime.1 + c.slotMsecs.ms * slot.toNat * 10 ^ 6 + offset ∧
      t'.1 = c.genesisTime.1 + c.slotMsecs.ms * slot'.toNat * 10 ^ 6 + offset := by
  unfold deadline at h h'
  split at h
  · simp at h
  rename_i hexpires
  rw [if_neg hexpires] at h'
  obtain ⟨start, hstart, h1⟩ := bind_ok_iff.mp h
  obtain ⟨duration, hduration, h2⟩ := bind_ok_iff.mp h1
  obtain ⟨margin, hmargin, h3⟩ := bind_ok_iff.mp h2
  obtain ⟨offset, hoffset, h4⟩ := bind_ok_iff.mp h3
  obtain ⟨end_, hend, h5⟩ := bind_ok_iff.mp h4
  obtain ⟨start', hstart', h1'⟩ := bind_ok_iff.mp h'
  obtain ⟨duration', hduration', h2'⟩ := bind_ok_iff.mp h1'
  obtain ⟨margin', hmargin', h3'⟩ := bind_ok_iff.mp h2'
  obtain ⟨offset', hoffset', h4'⟩ := bind_ok_iff.mp h3'
  obtain ⟨end', hend', h5'⟩ := bind_ok_iff.mp h4'
  obtain rfl : duration = duration' := Except.ok.inj (hduration.symm.trans hduration')
  obtain rfl : margin = margin' := Except.ok.inj (hmargin.symm.trans hmargin')
  obtain rfl : offset = offset' := Except.ok.inj (hoffset.symm.trans hoffset')
  obtain rfl : end_ = t := Option.some.inj (Except.ok.inj h5)
  obtain rfl : end' = t' := Option.some.inj (Except.ok.inj h5')
  refine ⟨offset.ms * 10 ^ 6, ?_, ?_⟩
  · rw [Msecs.addTo_ok hend, slotStart_ok hstart]
  · rw [Msecs.addTo_ok hend', slotStart_ok hstart']

/-- **Deadlines are monotone in the slot.** -/
theorem deadline_mono {dutyType : DutyType} {slot slot' : UInt64} {t t' : DateTime}
    (hle : slot ≤ slot') (h : c.deadline ⟨slot, dutyType⟩ = .ok (some t))
    (h' : c.deadline ⟨slot', dutyType⟩ = .ok (some t')) : t ≤ t' := by
  obtain ⟨offset, ht, ht'⟩ := deadline_ok h h'
  show t.1 ≤ t'.1
  rw [ht, ht']
  have hms : 0 ≤ c.slotMsecs.ms := slotMsecs_nonneg
  have hslot : (slot.toNat : ℤ) ≤ slot'.toNat := by exact_mod_cast UInt64.le_iff_toNat_le.mp hle
  have hstart := Int.mul_le_mul_of_nonneg_left hslot hms
  have hnanos := Int.mul_le_mul_of_nonneg_right hstart (show (0 : ℤ) ≤ 10 ^ 6 by decide)
  omega

end DutyDeadlineCalculator

end Pluto.Core.Deadline
