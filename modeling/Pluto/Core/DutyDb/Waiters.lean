import Pluto.Core.DutyDb.Rejection

/-!
# Stores, evictions and waiting callers

`MemDB` as a machine that any number of `store` and `await_*` calls run on.  A `store` holds the
write lock from the call of the deadliner to its return, and within it goes through the phases of
`Writer`; it can be dropped while it waits for the deadliner.  An `await_*` call makes a `Notified`
future, looks once under the read lock, and parks on the future if its data is neither there nor
evicted.  A `Notified` future receives every `notify_waiters` from its creation on, whether or not
it has been polled, which is what the flag of a caller records.  A call that is dropped, or that
returns because the database shuts down, is `drop`.

What the deadliner answers and which duties it has sent is left open here, so the results hold for
every deadliner.

A caller must not stay parked when its data is there or evicted.  A store that is refused returns
before it notifies, so this fails for data that a refused store has written (`parked_on_found`).  It
holds in every run in which a refused set has added no key (`no_lost_wakeup`).
-/

namespace Pluto.Core.DutyDb

variable {P : Payloads} {ι : Type}

/-! ## The machine -/

/-- What is left to do of the `store` that holds the write lock. -/
inductive Writer (P : Payloads)
  /-- Waits for the deadliner. -/
  | adding (duty : Duty) (entries : List (PubKey × UnsignedDutyData P))
  | inserting (duty : Duty) (entries : List (PubKey × UnsignedDutyData P))
  | waking (dutyType : DutyType)
  | draining

/-- An `await_*` call: whether its future has been notified, and whether it has looked. -/
inductive Caller
  | idle
  | looking (q : Query) (notified : Bool)
  | parked (q : Query) (notified : Bool)

/-- `notify_waiters`, as one caller sees it. -/
def Caller.notify (dutyType : DutyType) : Caller → Caller
  | .idle => .idle
  | .looking q notified => .looking q (notified || q.dutyType = dutyType)
  | .parked q notified => .parked q (notified || q.dutyType = dutyType)

/-- Where a look leaves a call: it parks if its data is pending, and returns if not. -/
def Caller.afterLook (q : Query) (notified : Bool) : Lookup P → Caller
  | .pending => .parked q notified
  | _ => .idle

structure Db (P : Payloads) (ι : Type) where
  state : State P
  writer : Option (Writer P)
  callers : ι → Caller

inductive Label (P : Payloads) (ι : Type)
  | call (caller : ι) (q : Query)
  | look (caller : ι) (q : Query) (result : Lookup P)
  | retry (caller : ι)
  | drop (caller : ι)
  | lock (duty : Duty) (entries : List (PubKey × UnsignedDutyData P))
  | abandon
  | answer (duty : Duty) (outcome : Deadline.AddOutcome)
  | insert (duty : Duty) (entries : List (PubKey × UnsignedDutyData P))
      (result : Except Error Unit)
  | notify
  | evict (duty : Duty) (result : Except Error Unit)
  | finish

namespace Db

/-- An empty database without callers. -/
def start (P : Payloads) (ι : Type) : Db P ι := ⟨State.empty P, none, fun _ => .idle⟩

/-- The writer goes on to `next`, or returns its error. -/
def proceed {ε : Type} (next : Writer P) : Except ε Unit → Option (Writer P)
  | .ok () => some next
  | .error _ => none

inductive Step [DecidableEq ι] : Db P ι → Label P ι → Db P ι → Prop
  | call {db c} {q : Query} (idle : db.callers c = .idle) :
      Step db (.call c q) { db with callers := Function.update db.callers c (.looking q false) }
  | look {db c q notified} (unlocked : db.writer = none)
      (looking : db.callers c = .looking q notified) :
      Step db (.look c q (db.state.lookup q)) { db with
        callers := Function.update db.callers c (.afterLook q notified (db.state.lookup q)) }
  | retry {db c q} (notified : db.callers c = .parked q true) :
      Step db (.retry c) { db with callers := Function.update db.callers c (.looking q false) }
  | drop {db c} : Step db (.drop c) { db with callers := Function.update db.callers c .idle }
  | lock {db} {duty : Duty} {entries} (unlocked : db.writer = none)
      (current : duty.dutyType ≠ .builderProposer) :
      Step db (.lock duty entries) { db with writer := some (.adding duty entries) }
  | abandon {db duty entries} (adding : db.writer = some (.adding duty entries)) :
      Step db .abandon { db with writer := none }
  | answer {db duty entries} {outcome : Deadline.AddOutcome}
      (adding : db.writer = some (.adding duty entries)) :
      Step db (.answer duty outcome)
        { db with writer := proceed (.inserting duty entries) (State.scheduled outcome) }
  | insert {db duty entries result s'} (inserting : db.writer = some (.inserting duty entries))
      (exec : Attempt.exec (State.storeSet duty.dutyType entries) db.state = (result, s')) :
      Step db (.insert duty entries result)
        { db with state := s', writer := proceed (.waking duty.dutyType) result }
  | notify {db dutyType} (waking : db.writer = some (.waking dutyType)) :
      Step db .notify
        { db with writer := some .draining, callers := fun c => (db.callers c).notify dutyType }
  | evict {db duty result s'} (draining : db.writer = some .draining)
      (exec : Attempt.exec (State.deleteDuty duty) db.state = (result, s')) :
      Step db (.evict duty result)
        { db with state := s', writer := proceed (.waking duty.dutyType) result }
  | finish {db} (draining : db.writer = some .draining) :
      Step db .finish { db with writer := none }

variable [DecidableEq ι]

/-- Only insertions and evictions change the data. -/
lemma Step.state_cases {db db' : Db P ι} {l : Label P ι} (h : Step db l db') :
    (∃ duty entries result, l = .insert duty entries result ∧
      Attempt.exec (State.storeSet duty.dutyType entries) db.state = (result, db'.state)) ∨
    (∃ duty result, l = .evict duty result ∧ db'.state = db.state.evict duty) ∨
    db'.state = db.state := by
  cases h with
  | insert inserting exec => exact .inl ⟨_, _, _, rfl, exec⟩
  | evict draining exec => exact .inr (.inl ⟨_, _, rfl, (congrArg Prod.snd exec).symm⟩)
  | _ => exact .inr (.inr rfl)

lemma Step.look_eq {db db' : Db P ι} {c : ι} {q : Query} {result : Lookup P}
    (h : Step db (.look c q result) db') : result = db.state.lookup q ∧ db'.state = db.state := by
  cases h with
  | look => exact ⟨rfl, rfl⟩

/-! ## A store that nobody interrupts -/

/-- The labels of a successful store, with the duties it drains. -/
def storeLabels (duty : Duty) (entries : List (PubKey × UnsignedDutyData P))
    (expired : List Duty) : List (Label P ι) :=
  [.lock duty entries, .answer duty .scheduled, .insert duty entries (.ok ()), .notify] ++
    expired.flatMap (fun duty => [.evict duty (.ok ()), .notify]) ++ [.finish]

end Db

/-! ## Refused sets that add no key -/

namespace State

variable {s : State P} {dutyType : DutyType} {entries : List (PubKey × UnsignedDutyData P)}

/-- Up to the entry it may be refused for, the set carries data for keys that are there already. -/
def AddsNoKey (s : State P) (dutyType : DutyType)
    (entries : List (PubKey × UnsignedDutyData P)) : Prop :=
  match dutyType with
  | .aggregator =>
    ∀ key agg, lastAggregate key entries = some agg → (s.aggregationDuties.lookup key).isSome
  | _ => Write.firstOpen s (setWrites dutyType entries) ≠ some .vacant

lemma lookup_aggAttestation_eq_pending {root : Ssz.HashRoot} :
    s.lookup (.aggAttestation root) = .pending ↔ s.aggregationDuties.lookup ⟨root⟩ = none := by
  cases h : s.aggregationDuties.lookup ⟨root⟩ <;> simp [lookup, h]

/-- What was pending is pending after a set that adds no key. -/
lemma AddsNoKey.pending (h : AddsNoKey s dutyType entries) {q : Query}
    (hpending : s.lookup q = .pending) :
    (Attempt.exec (storeSet dutyType entries) s).2.lookup q = .pending := by
  by_cases hq : q.dutyType = dutyType
  · by_cases hagg : dutyType = .aggregator
    · subst hagg
      cases q with
      | aggAttestation root =>
        rw [lookup_aggAttestation_eq_pending] at hpending ⊢
        rw [aggregationDuties_storeSet, hpending]
        cases hlast : lastAggregate ⟨root⟩ entries with
        | none => rfl
        | some agg => exact absurd (h ⟨root⟩ agg hlast) (by simp [hpending])
      | _ => simp [Query.dutyType] at hq
    · have hopen : Write.firstOpen s (setWrites dutyType entries) ≠ some .vacant := by
        cases dutyType with
        | aggregator => exact absurd rfl hagg
        | _ => exact h
      rw [storeSet_eq_writes hagg, Write.forM_unchanged hopen]
      exact hpending
  · rw [lookup_eq_of_without (inserts_storeSet dutyType entries s).1 hq]
    exact hpending

end State

/-! ## No lost wake-up -/

namespace Db

/-- A caller that is parked and has not been notified waits for data that is pending, unless its
notification is about to come. -/
def Inv (db : Db P ι) : Prop :=
  ∀ c q, db.callers c = .parked q false →
    db.state.lookup q = .pending ∨ db.writer = some (.waking q.dutyType)

/-- The condition on a step: a set that is refused has added no key. -/
def Clean (db : Db P ι) : Label P ι → Prop
  | .insert duty entries (.error _) => db.state.AddsNoKey duty.dutyType entries
  | _ => True

variable {db db' : Db P ι} {l : Label P ι}

lemma inv_start : Inv (start P ι) := by
  intro c q hparked
  simp [start] at hparked

/-- A step of the writer that changes neither the data nor the callers, and is not due to notify. -/
lemma Inv.writer (h : Inv db) (hwriter : ∀ dutyType, db.writer ≠ some (.waking dutyType))
    (w : Option (Writer P)) : Inv { db with writer := w } := by
  intro c q hparked
  exact .inl ((h c q hparked).resolve_right (hwriter _))

variable [DecidableEq ι]

/-- The invariant survives a change of one caller that does not park it on something else. -/
lemma Inv.update (h : Inv db) {c : ι} {caller : Caller}
    (hcaller : ∀ q, caller = .parked q false → db.state.lookup q = .pending) :
    Inv { db with callers := Function.update db.callers c caller } := by
  intro c' q hparked
  by_cases hc : c' = c
  · subst hc
    simp only [Function.update_self] at hparked
    exact .inl (hcaller q hparked)
  · simp only [Function.update_of_ne hc] at hparked
    exact h c' q hparked

lemma Inv.step (h : Inv db) (hclean : Clean db l) (hstep : Step db l db') : Inv db' := by
  cases hstep with
  | call idle | retry notified | drop => exact h.update (by simp)
  | @look c q notified unlocked looking =>
    refine h.update fun q' hparked => ?_
    cases hlookup : db.state.lookup q with
    | pending =>
      simp only [hlookup, Caller.afterLook, Caller.parked.injEq] at hparked
      rw [← hparked.1, hlookup]
    | _ => simp [hlookup, Caller.afterLook] at hparked
  | lock unlocked current => exact h.writer (by simp [unlocked]) _
  | abandon adding => exact h.writer (by simp [adding]) _
  | answer adding => exact h.writer (by simp [adding]) _
  | @insert duty entries result s' inserting exec =>
    intro c q hparked
    have hpending : db.state.lookup q = .pending :=
      (h c q hparked).resolve_right (by simp [inserting])
    have hstate : s' = (Attempt.exec (State.storeSet duty.dutyType entries) db.state).2 := by
      rw [exec]
    cases result with
    | ok =>
      by_cases hq : q.dutyType = duty.dutyType
      · exact .inr (congrArg (fun ty => some (Writer.waking ty)) hq.symm)
      · refine .inl ?_
        have hframe := (State.inserts_storeSet duty.dutyType entries db.state).1
        rw [hstate, State.lookup_eq_of_without hframe hq]
        exact hpending
    | error e =>
      refine .inl ?_
      rw [hstate]
      exact State.AddsNoKey.pending hclean hpending
  | @notify dutyType waking =>
    intro c q hparked
    cases hcaller : db.callers c with
    | parked q' notified =>
      simp only [hcaller, Caller.notify, Caller.parked.injEq, Bool.or_eq_false_iff,
        decide_eq_false_iff_not] at hparked
      obtain ⟨rfl, rfl, hother⟩ := hparked
      refine .inl ((h c q' hcaller).resolve_right ?_)
      rw [waking]
      simp [Ne.symm hother]
    | _ => simp [hcaller, Caller.notify] at hparked
  | @evict duty result s' draining exec =>
    intro c q hparked
    have hpending : db.state.lookup q = .pending :=
      (h c q hparked).resolve_right (by simp [draining])
    cases hdeletable : State.deletable duty with
    | true =>
      rw [State.deleteDuty_ok hdeletable] at exec
      obtain ⟨rfl, rfl⟩ := Prod.mk.inj exec
      by_cases hq : q.dutyType = duty.dutyType
      · exact .inr (congrArg (fun ty => some (Writer.waking ty)) hq.symm)
      · refine .inl ?_
        rw [State.lookup_eq_of_without (State.without_evict duty db.state) hq]
        exact hpending
    | false =>
      obtain ⟨e, herror⟩ := State.deleteDuty_error hdeletable db.state
      rw [herror] at exec
      obtain ⟨rfl, rfl⟩ := Prod.mk.inj exec
      exact .inl hpending
  | finish draining => exact h.writer (by simp [draining]) _

/-- **No lost wake-up.**  If the refused sets of a run have added no key then, whenever no store is
in progress, a caller that is parked and has not been notified waits for data that is neither there
nor evicted. -/
theorem no_lost_wakeup {tr : List (Label P ι)}
    (run : Trace (fun db l db' => Step db l db' ∧ Clean db l) (start P ι) tr db)
    (unlocked : db.writer = none) (c : ι) (q : Query) (parked : db.callers c = .parked q false) :
    db.state.lookup q = .pending := by
  have hinv : Inv db := run.invariant inv_start fun _ _ _ h hstep => h.step hstep.2 hstep.1
  exact (hinv c q parked).resolve_right (by simp [unlocked])

end Db

/-! ## A caller parked on data that is there -/

namespace Clash

/-- Validators 1 and 3 of committee 1, whose sources clash. -/
def entries : List (PubKey × UnsignedDutyData .plain) := [entry 1 1 0, entry 3 1 1]

end Clash

open Clash in
/-- The set is refused for its second validator and nobody is notified, but the data of the first
one is there. -/
theorem parked_on_found : ∃ tr db, Trace Db.Step (Db.start .plain Unit) tr db ∧
    db.writer = none ∧ db.callers () = .parked (.attestation 5 1) false ∧
    db.state.lookup (.attestation 5 1) = .found (.attestation (data 0)) := by
  have hrun : Trace Db.Step (Db.start .plain Unit)
      [.call () (.attestation 5 1), .look () (.attestation 5 1) .pending, .lock duty entries,
        .answer duty .scheduled, .insert duty entries (.error (.clashingAttestationData 5 1))] _ :=
    .cons (.call rfl) <| .cons (.look rfl rfl) <| .cons (.lock rfl (by decide)) <|
      .cons (.answer rfl) <| .single (.insert rfl rfl)
  exact ⟨_, _, hrun, rfl, rfl, by rfl⟩

open Clash in
/-- A set of another kind is refused at once, and the caller waits for data that is pending. -/
theorem no_lost_wakeup_refused : ∃ tr db,
    Trace (fun db l db' => Db.Step db l db' ∧ Db.Clean db l) (Db.start .plain Unit) tr db ∧
    db.writer = none ∧ db.callers () = .parked (.attestation 5 1) false ∧
    db.state.lookup (.attestation 5 1) = .pending := by
  have hclean : Write.firstOpen (State.empty .plain)
      (State.setWrites .attester [(pubkey 1, .proposal (5, .zero))]) ≠ some .vacant := by
    decide
  have hrun : Trace (fun db l db' => Db.Step db l db' ∧ Db.Clean db l) (Db.start .plain Unit)
      [.call () (.attestation 5 1), .look () (.attestation 5 1) .pending,
        .lock duty [(pubkey 1, .proposal (5, .zero))], .answer duty .scheduled,
        .insert duty [(pubkey 1, .proposal (5, .zero))] (.error .invalidAttestationData)] _ :=
    .cons ⟨.call rfl, trivial⟩ <| .cons ⟨.look rfl rfl, trivial⟩ <|
      .cons ⟨.lock rfl (by decide), trivial⟩ <| .cons ⟨.answer rfl, trivial⟩ <|
      .single ⟨.insert rfl rfl, hclean⟩
  exact ⟨_, _, hrun, rfl, rfl, Db.no_lost_wakeup hrun rfl () (.attestation 5 1) rfl⟩

end Pluto.Core.DutyDb
