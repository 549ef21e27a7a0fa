import Pluto.Core.Deadline.Invariant
import Pluto.Core.DutyDb.Stability
import Pluto.Lib.Product

/-!
# The eviction marks

For each duty type a mark holds the latest slot that was evicted, and a caller that asks for a slot
at or below the mark, of which nothing is stored, is told that its duty has expired.  One slot
stands for all the slots before it here, so the answer is right only if none of these can be stored
any more.

The database runs beside the deadliner it owns: it gets the answer to `add` while it holds its lock,
and it drains the channel of expired duties.  With the calculator of the node and timers that fire
strictly late, a duty that has been evicted is past its deadline; so are the duties of its type with
earlier slots, whose deadlines are no later (`deadline_mono`); and the deadliner schedules none of
them again.  `high_water_sound` is the result.
-/

namespace Pluto.Core.DutyDb

open Deadline

variable {P : Payloads} {ι : Type}

namespace State

variable {s : State P}

/-- The eviction mark of a duty type; aggregates have none. -/
def mark (s : State P) : DutyType → Option UInt64
  | .attester => s.maxEvictedAttestationSlot
  | .proposer => s.maxEvictedProposerSlot
  | .syncContribution => s.maxEvictedContribSlot
  | _ => none

/-- The slot of the duty is at or below the mark of its type. -/
def Covers (s : State P) (duty : Duty) : Prop :=
  ∃ slot, s.mark duty.dutyType = some slot ∧ duty.slot ≤ slot

lemma absent_eq_evicted {mark : Option UInt64} {slot : UInt64}
    (h : absent (P := P) mark slot = .evicted) : ∃ slot', mark = some slot' ∧ slot ≤ slot' := by
  cases mark with
  | none => simp [absent] at h
  | some slot' =>
    refine ⟨slot', rfl, ?_⟩
    by_contra hlt
    simp [absent, hlt] at h

/-- A caller that is told that its duty has expired asks for a slot at or below the mark. -/
lemma covers_of_evicted {q : Query} {duty : Duty} (hq : q.duty? = some duty)
    (h : s.lookup q = .evicted) : s.Covers duty := by
  cases q with
  | aggAttestation root => simp [Query.duty?] at hq
  | proposal slot =>
    obtain rfl : (⟨slot, .proposer⟩ : Duty) = duty := Option.some.inj hq
    cases hlookup : s.proposerDuties.lookup slot with
    | some v => simp [lookup, hlookup] at h
    | none =>
      simp only [lookup, hlookup] at h
      exact absent_eq_evicted h
  | attestation slot committeeIndex =>
    obtain rfl : (⟨slot, .attester⟩ : Duty) = duty := Option.some.inj hq
    cases hlookup : s.attestationDuties.lookup ⟨slot, committeeIndex⟩ with
    | some v => simp [lookup, hlookup] at h
    | none =>
      simp only [lookup, hlookup] at h
      exact absent_eq_evicted h
  | syncContribution slot subcommitteeIndex root =>
    obtain rfl : (⟨slot, .syncContribution⟩ : Duty) = duty := Option.some.inj hq
    cases hlookup : s.contribDuties.lookup ⟨slot, subcommitteeIndex, root⟩ with
    | some v => simp [lookup, hlookup] at h
    | none =>
      simp only [lookup, hlookup] at h
      exact absent_eq_evicted h

/-- A store moves no mark. -/
lemma mark_storeSet (dutyType : DutyType) (entries : List (PubKey × UnsignedDutyData P))
    (s : State P) : (Attempt.exec (storeSet dutyType entries) s).2.mark = s.mark := by
  have hmarks := (inserts_storeSet dutyType entries s).2
  simp only [marks, Prod.mk.injEq] at hmarks
  funext ty
  cases ty <;> simp [mark, hmarks]

lemma le_max_slot {a b c : UInt64} : a ≤ max b c ↔ a ≤ b ∨ a ≤ c := by
  show a ≤ (if b ≤ c then c else b) ↔ _
  split <;> simp only [UInt64.le_iff_toNat_le] at * <;> omega

/-- An eviction raises the mark of its duty type, if there is one, to its slot. -/
lemma mark_evict (s : State P) (duty : Duty) (dutyType : DutyType) :
    (s.evict duty).mark dutyType = s.mark dutyType ∨
      (dutyType = duty.dutyType ∧
        (s.evict duty).mark dutyType = bumpHighWater (s.mark dutyType) duty.slot) := by
  obtain ⟨slot, dutyType'⟩ := duty
  cases dutyType' <;> cases dutyType <;> first | exact .inl rfl | exact .inr ⟨rfl, rfl⟩

lemma Covers.evict {duty : Duty} (h : s.Covers duty) (duty' : Duty) :
    (s.evict duty').Covers duty := by
  obtain ⟨slot, hmark, hle⟩ := h
  rcases mark_evict s duty' duty.dutyType with hsame | ⟨-, hbump⟩
  · exact ⟨slot, hsame.trans hmark, hle⟩
  · refine ⟨max slot duty'.slot, ?_, le_max_slot.mpr (.inl hle)⟩
    rw [hbump, hmark]
    rfl

/-- What an eviction covers anew has an earlier slot of the same type. -/
lemma covers_evict {duty duty' : Duty} (h : (s.evict duty').Covers duty) :
    s.Covers duty ∨ (duty.dutyType = duty'.dutyType ∧ duty.slot ≤ duty'.slot) := by
  obtain ⟨slot, hmark, hle⟩ := h
  rcases mark_evict s duty' duty.dutyType with hsame | ⟨htype, hbump⟩
  · exact .inl ⟨slot, hsame.symm.trans hmark, hle⟩
  · rw [hbump] at hmark
    cases hold : s.mark duty.dutyType with
    | none =>
      rw [hold] at hmark
      obtain rfl : duty'.slot = slot := Option.some.inj hmark
      exact .inr ⟨htype, hle⟩
    | some current =>
      rw [hold] at hmark
      obtain rfl : max current duty'.slot = slot := Option.some.inj hmark
      rcases le_max_slot.mp hle with hcurrent | hnew
      · exact .inl ⟨current, hold, hcurrent⟩
      · exact .inr ⟨htype, hnew⟩

end State

/-! ## The database beside its deadliner -/

/-- The step of the deadliner that a step of the database goes with. -/
def Label.sync : Label P ι → Option Deadline.Label
  | .answer duty outcome => some (.add duty outcome)
  | .evict duty _ => some (.recv duty)
  | _ => none

/-- The node's calculator, timers that fire strictly late, and a database. -/
abbrev SystemStep [DecidableEq ι] (c : DutyDeadlineCalculator) :
    Deadliner × Db P ι → Deadline.Label ⊕ Label P ι → Deadliner × Db P ι → Prop :=
  Product (Deadliner.Step c.deadline strictlyAfter) Db.Step takenAlone Label.sync

namespace Db

variable [DecidableEq ι] {db db' : Db P ι} {l : Label P ι}

lemma Covers.step {duty : Duty} (h : db.state.Covers duty) (hstep : Step db l db') :
    db'.state.Covers duty := by
  rcases hstep.state_cases with
    ⟨duty', entries, result, rfl, hexec⟩ | ⟨duty', result, rfl, hstate⟩ | hstate
  · obtain ⟨slot, hmark, hle⟩ := h
    have hsame := State.mark_storeSet duty'.dutyType entries db.state
    rw [hexec] at hsame
    exact ⟨slot, (congrFun hsame _).trans hmark, hle⟩
  · rw [hstate]
    exact h.evict duty'
  · rwa [hstate]

/-- A step that the database takes alone covers no duty anew. -/
lemma covers_of_alone {duty : Duty} (hstep : Step db l db') (halone : l.sync = none)
    (h : db'.state.Covers duty) : db.state.Covers duty := by
  rcases hstep.state_cases with
    ⟨duty', entries, result, rfl, hexec⟩ | ⟨duty', result, rfl, hstate⟩ | hstate
  · obtain ⟨slot, hmark, hle⟩ := h
    have hsame := State.mark_storeSet duty'.dutyType entries db.state
    rw [hexec] at hsame
    exact ⟨slot, (congrFun hsame _).symm.trans hmark, hle⟩
  · simp [Label.sync] at halone
  · rwa [hstate] at h

/-- A store comes to its insertion when the deadliner has scheduled its duty. -/
lemma inserting_cases {duty : Duty} {entries : List (PubKey × UnsignedDutyData P)}
    (hstep : Step db l db') (h : db'.writer = some (.inserting duty entries)) :
    (db.writer = some (.inserting duty entries) ∧ db'.state = db.state) ∨
      (l = .answer duty .scheduled ∧ db'.state = db.state) := by
  cases hstep with
  | @answer duty' entries' outcome adding =>
    cases outcome with
    | scheduled =>
      simp only [State.scheduled, proceed, Option.some.injEq, Writer.inserting.injEq] at h
      obtain ⟨rfl, rfl⟩ := h
      exact .inr ⟨rfl, rfl⟩
    | _ => simp [State.scheduled, proceed] at h
  | @insert _ _ result _ _ _ => cases result <;> simp [proceed] at h
  | @evict _ result _ _ _ => cases result <;> simp [proceed] at h
  | lock _ _ => simp at h
  | abandon _ => simp at h
  | notify _ => simp at h
  | finish _ => simp at h
  | _ => exact .inl ⟨h, rfl⟩

end Db

/-! ## Soundness of the marks -/

section Sound

variable {c : DutyDeadlineCalculator} {p p' : Deadliner × Db P ι}
  {l : Deadline.Label ⊕ Label P ι} {tr : List (Deadline.Label ⊕ Label P ι)} {now : DateTime}

/-- Among duties of one type, one with an earlier slot is past its deadline when another one is. -/
lemma refused_of_expired {duty duty' : Duty} (htype : duty.dutyType = duty'.dutyType)
    (hle : duty.slot ≤ duty'.slot) (h : Deadliner.Expired c.deadline now duty') :
    Deadliner.Refused c.deadline now duty := by
  obtain ⟨slot, dutyType⟩ := duty
  obtain ⟨slot', dutyType'⟩ := duty'
  obtain rfl : dutyType = dutyType' := htype
  obtain ⟨t', ht', hlt⟩ := h
  intro t ht
  exact (DutyDeadlineCalculator.deadline_mono hle ht ht').trans_lt hlt

/-- What a mark covers the deadliner schedules no more, and what is being inserted is not
covered. -/
structure MarksInv (c : DutyDeadlineCalculator) (p : Deadliner × Db P ι) : Prop where
  late : Deadliner.LateInv c.deadline p.1
  refused : ∀ duty, p.2.state.Covers duty → Deadliner.Refused c.deadline p.1.now duty
  uncovered : ∀ duty entries, p.2.writer = some (.inserting duty entries) →
    ¬ p.2.state.Covers duty

lemma marksInv_start (now : DateTime) : MarksInv c (Deadliner.start now, Db.start P ι) where
  late := Deadliner.lateInv_start now
  refused duty h := by
    obtain ⟨slot, hmark, -⟩ := h
    obtain ⟨_, dutyType⟩ := duty
    cases dutyType <;> simp [Db.start, State.mark, State.empty] at hmark
  uncovered duty entries h := by simp [Db.start] at h

variable [DecidableEq ι]

lemma MarksInv.step (h : MarksInv c p) (hstep : SystemStep c p l p') : MarksInv c p' := by
  cases hstep with
  | left free step =>
    exact ⟨h.late.step step, fun duty hduty => (h.refused duty hduty).mono step.now_le, h.uncovered⟩
  | @right st db db' l free step =>
    refine ⟨h.late, fun duty hduty => ?_, fun duty entries hwriter hcovers => ?_⟩
    · exact h.refused duty (Db.covers_of_alone step free hduty)
    · rcases Db.inserting_cases step hwriter with ⟨hold, hstate⟩ | ⟨rfl, -⟩
      · rw [hstate] at hcovers
        exact h.uncovered duty entries hold hcovers
      · simp [Label.sync] at free
  | @both st st' db db' a l meet step step' =>
    cases l with
    | answer duty' outcome =>
      obtain rfl : Deadline.Label.add duty' outcome = a := Option.some.inj meet
      have hstate : db'.state = db.state := by
        cases step' with
        | answer => rfl
      refine ⟨h.late.step step, fun duty hduty => ?_, fun duty entries hwriter hcovers => ?_⟩
      · rw [hstate] at hduty
        exact (h.refused duty hduty).mono step.now_le
      · rw [hstate] at hcovers
        rcases Db.inserting_cases step' hwriter with ⟨hold, -⟩ | ⟨hl, -⟩
        · exact h.uncovered duty entries hold hcovers
        · simp only [Label.answer.injEq] at hl
          obtain ⟨rfl, rfl⟩ := hl
          exact step.not_scheduled (h.refused duty' hcovers) rfl
    | evict duty' result =>
      obtain rfl : Deadline.Label.recv duty' = a := Option.some.inj meet
      have hstate : db'.state = db.state.evict duty' := by
        cases step' with
        | evict draining exec => exact (congrArg Prod.snd exec).symm
      have hexpired : Deadliner.Expired c.deadline st.now duty' := by
        cases step with
        | recv queued => exact h.late.late duty' (by rw [queued]; exact List.mem_cons_self)
      refine ⟨h.late.step step, fun duty hduty => ?_, fun duty entries hwriter => ?_⟩
      · rw [hstate] at hduty
        refine Deadliner.Refused.mono ?_ step.now_le
        rcases State.covers_evict hduty with hold | ⟨htype, hle⟩
        · exact h.refused duty hold
        · exact refused_of_expired htype hle hexpired
      · rcases Db.inserting_cases step' hwriter with ⟨hold, -⟩ | ⟨hl, -⟩
        · cases step' with
          | evict draining exec => simp [draining] at hold
        · simp at hl
    | _ => simp [Label.sync] at meet

lemma marksInv_run (run : Trace (SystemStep c) (Deadliner.start now, Db.start P ι) tr p) :
    MarksInv c p :=
  run.invariant (marksInv_start now) fun _ _ _ h hstep => h.step hstep

/-- A covered duty is not inserted. -/
lemma MarksInv.not_insert (h : MarksInv c p) {duty : Duty} (hcovers : p.2.state.Covers duty)
    {entries : List (PubKey × UnsignedDutyData P)} {result : Except Error Unit} :
    ¬ SystemStep c p (.inr (.insert duty entries result)) p' := by
  intro hstep
  obtain ⟨st, db⟩ := p
  obtain ⟨st', db'⟩ := p'
  have hinsert : Db.Step db (.insert duty entries result) db' := hstep.snd_step
  cases hinsert with
  | insert inserting exec => exact h.uncovered duty entries inserting hcovers

/-- **The marks are sound.**  After a caller has been told that its duty has expired, the duty is
not stored any more; and in every state reached, no duty at or below its mark is about to be
stored. -/
theorem high_water_sound (run : Trace (SystemStep c) (Deadliner.start now, Db.start P ι) tr p) :
    (∀ t₁ t₂ caller q duty, tr = t₁ ++ .inr (.look caller q .evicted) :: t₂ → q.duty? = some duty →
      ∀ entries result, .inr (.insert duty entries result) ∉ t₂) ∧
    (∀ duty, p.2.state.Covers duty → ∀ entries result p',
      ¬ SystemStep c p (.inr (.insert duty entries result)) p') := by
  refine ⟨?_, fun duty hcovers entries result p' => (marksInv_run run).not_insert hcovers⟩
  rintro t₁ t₂ caller q duty rfl hq entries result hmem
  obtain ⟨u, v, rfl⟩ := List.append_of_mem hmem
  obtain ⟨p₁, p₂, hpast, hlook, hsince⟩ := run.split_cons
  obtain ⟨p₃, p₄, hbetween, hinsert, -⟩ := hsince.split_cons
  -- the mark covers the duty when the caller looks, and from then on
  have hcovers : p₂.2.state.Covers duty := by
    obtain ⟨hevicted, hstate⟩ := hlook.snd_step.look_eq
    rw [hstate]
    exact State.covers_of_evicted hq hevicted.symm
  have hcovers' : p₃.2.state.Covers duty :=
    Product.invariant_snd (I := fun db => db.state.Covers duty) hcovers
      (fun _ _ _ h hstep => Db.Covers.step h hstep) hbetween
  exact (marksInv_run ((hpast.snoc hlook).append hbetween)).not_insert hcovers' hinsert

end Sound

/-! ## A caller that is told that its duty has expired -/

namespace Late

/-- Slots of twelve seconds from the epoch on. -/
def mainnet : DutyDeadlineCalculator := ⟨⟨0, zero_mem_utc⟩, 12 * 10 ^ 9, by decide, by decide⟩

def seconds (n : Fin 100) : DateTime :=
  ⟨n.val * 10 ^ 9, by have hn := n.2; unfold minUtcNanos maxUtcNanos; omega⟩

def attester (slot : UInt64) : Duty := ⟨slot, .attester⟩

/-- The deadliner, with the duty of slot 0 added, 26 seconds later, after its timer has fired, and
with the duty of slot 1 added. -/
def added : Deadliner :=
  (Deadliner.start (seconds 0)).input mainnet.deadline [attester 0] (seconds 0) (attester 0)

def late : Deadliner := { added with now := seconds 26 }

def fired : Deadliner := (late.expire mainnet.deadline []).1

def next : Deadliner := fired.input mainnet.deadline [attester 1] (seconds 26) (attester 1)

/-- The expired duty has been received. -/
def received : Deadliner := { next with output := { next.output with queue := [] } }

lemma step_added : Deadliner.Step mainnet.deadline strictlyAfter (Deadliner.start (seconds 0))
    (.add (attester 0) .scheduled) added :=
  Deadliner.Step.add rfl le_rfl ⟨by simp, rfl⟩

lemma step_fired : Deadliner.Step mainnet.deadline strictlyAfter late
    (.fire (seconds 26) (.sent (attester 0))) fired := by
  have helapsed : late.wakeAt < late.now.1 := by decide
  exact Deadliner.Step.fire rfl helapsed ⟨by simp, rfl⟩

lemma step_next : Deadliner.Step mainnet.deadline strictlyAfter fired
    (.add (attester 1) .scheduled) next :=
  Deadliner.Step.add rfl le_rfl ⟨by simp, rfl⟩

lemma step_received : Deadliner.Step mainnet.deadline strictlyAfter next (.recv (attester 0))
    received :=
  Deadliner.Step.recv rfl

/-- The labels of a store of an empty set up to its notification. -/
def storing (duty : Duty) : List (Deadline.Label ⊕ Label .plain Unit) :=
  [.inr (.lock duty []), .inr (.answer duty .scheduled), .inr (.insert duty [] (.ok ())),
    .inr .notify]

/-- The state in which the duty of slot 0 has been evicted. -/
def evicted : State .plain := (State.empty .plain).evict (attester 0)

/-- The first store returns, its duty expires, and the second store drains it. -/
def labels : List (Deadline.Label ⊕ Label .plain Unit) :=
  storing (attester 0) ++
    [.inr .finish, .inl .tick, .inl (.fire (seconds 26) (.sent (attester 0)))] ++
    storing (attester 1) ++ [.inr (.evict (attester 0) (.ok ())), .inr .notify, .inr .finish]

lemma trace_labels : Trace (SystemStep mainnet) (Deadliner.start (seconds 0), Db.start .plain Unit)
    labels (received, ⟨evicted, none, fun _ => .idle⟩) := by
  have htick : Deadliner.Step mainnet.deadline strictlyAfter added .tick late :=
    Deadliner.Step.tick (by decide)
  refine .cons (.right rfl (.lock rfl (by decide))) (.cons (.both rfl step_added (.answer rfl)) ?_)
  refine .cons (.right rfl (.insert rfl rfl)) (.cons (.right rfl (.notify rfl)) ?_)
  refine .cons (.right rfl (.finish rfl)) (.cons (.left trivial htick) ?_)
  refine .cons (.left trivial step_fired) (.cons (.right rfl (.lock rfl (by decide))) ?_)
  refine .cons (.both rfl step_next (.answer rfl)) (.cons (.right rfl (.insert rfl rfl)) ?_)
  refine .cons (.right rfl (.notify rfl)) (.cons (.both rfl step_received (.evict rfl rfl)) ?_)
  exact .cons (.right rfl (.notify rfl)) (.single (.right rfl (.finish rfl)))

end Late

open Late in
/-- The caller is told that slot 0 has expired, and the duty is not stored any more. -/
theorem high_water_sound_slot_zero : ∃ p : Deadliner × Db .plain Unit,
    Trace (SystemStep mainnet) (Deadliner.start (seconds 0), Db.start .plain Unit)
      ((labels ++ [.inr (.call () (.attestation 0 0))]) ++
        [.inr (.look () (.attestation 0 0) .evicted)]) p ∧
    ∀ entries result p',
      ¬ SystemStep mainnet p (.inr (.insert (attester 0) entries result)) p' := by
  have hrun := (trace_labels.snoc
    (.right rfl (@Db.Step.call .plain Unit _ _ () (.attestation 0 0) rfl))).snoc
    (.right rfl (@Db.Step.look .plain Unit _ _ () (.attestation 0 0) false rfl rfl))
  exact ⟨_, hrun, (high_water_sound hrun).2 (attester 0) ⟨0, rfl, by decide⟩⟩

end Pluto.Core.DutyDb
