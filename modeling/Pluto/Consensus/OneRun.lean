import Pluto.Consensus.Lifecycle
import Pluto.Core.Deadline.Invariant
import Pluto.Qbft.Votes

/-!
# One consensus run for a duty

The flag that lets one call start the runner belongs to an instance, and an instance is dropped and
created anew when its duty expires.  What keeps a duty from being run twice is the deadliner: an
instance that the map does not know any more was removed after its duty had come out of the
deadliner, and with timers that fire strictly late such a duty is past its deadline (`stale`).  So
when the deadliner schedules a duty, the duty has had one instance only, and that one has one
starter.

`Process.Effect` says what a step can do, and every invariant is read off it.  `one_run_per_duty` is
the result, for the runs of the core and for the decisions that come out of them.
-/

namespace Pluto.Consensus

open Ssz
open Pluto.Core (Duty)
open Pluto.Core.Deadline

/-! ## What a call holds -/

namespace Call

/-- The instance a call works on, before it has launched the core. -/
def ref : Call → Option (Duty × ℕ)
  | .entered _ duty id | .marked duty id | .ready _ duty id => some (duty, id)
  | .starting duty id | .scheduled duty id => some (duty, id)
  | _ => none

/-- The instance whose runner the call owns, before it has launched the core. -/
def owned : Call → Option ℕ
  | .starting _ id | .scheduled _ id => some id
  | _ => none

lemma ref_of_owned {call : Call} {id : ℕ} (h : call.owned = some id) :
    ∃ duty, call.ref = some (duty, id) := by
  cases call <;> simp_all [owned, ref]

lemma owned_of_ref_none {call : Call} (h : call.ref = none) : call.owned = none := by
  cases call <;> simp_all [owned, ref]

end Call

lemma exec_mark_running (entry : Entrypoint) (io : InstanceIo) :
    (Attempt.exec entry.mark io).2.running = io.running := by
  cases entry with
  | propose =>
    rw [Entrypoint.mark, InstanceIo.markProposed, Attempt.exec_bind, Attempt.exec_get]
    by_cases h : io.proposed <;> simp [h]
  | participate =>
    rw [Entrypoint.mark, InstanceIo.markParticipated, Attempt.exec_bind, Attempt.exec_get]
    by_cases h : io.participated <;> simp [h]

/-- Taking receivers leaves the flags alone. -/
lemma keeps_takeReceiver (channel : Channel) :
    Attempt.Keeps (fun io io' => io'.running = io.running) (InstanceIo.takeReceiver channel) := by
  intro io
  rw [InstanceIo.takeReceiver, Attempt.exec_bind, Attempt.exec_get]
  by_cases h : io.taken channel <;> simp [h]

lemma keeps_takeInputs :
    Attempt.Keeps (fun io io' => io'.running = io.running) InstanceIo.takeInputs := by
  have htrans : ∀ io₁ io₂ io₃ : InstanceIo, io₂.running = io₁.running →
      io₃.running = io₂.running → io₃.running = io₁.running := fun _ _ _ h h' => h'.trans h
  unfold InstanceIo.takeInputs
  refine (keeps_takeReceiver .recv).bind htrans fun _ => ?_
  refine (keeps_takeReceiver .hash).bind htrans fun _ => ?_
  exact (keeps_takeReceiver .value).bind htrans fun _ => keeps_takeReceiver .verify

/-! ## What a step can do -/

namespace Process

variable {ι SK PK : Type} {node : Node SK PK} {st st' : Process ι} {l : LifecycleLabel}

section Effects

variable [DecidableEq ι]

/-- What a step does to the calls, the instances and the map. -/
inductive Effect (node : Node SK PK) : Process ι → LifecycleLabel → Process ι → Prop
  /-- A call goes on with its instance, and may win the start of the runner. -/
  | works {st : Process ι} {caller : ι} {call : Call} {duty : Duty} {id : ℕ} {io : InstanceIo}
      (held : (st.calls caller).ref = some (duty, id))
      (keeps : call.ref = none ∨ call.ref = some (duty, id))
      (running : (st.slots id).io.running = true → io.running = true)
      (wins : call.owned = none ∨
        (call = .starting duty id ∧ (st.slots id).io.running = false ∧ io.running = true)) :
      Effect node st .internal (st.work caller call id io)
  /-- A call gives up its instance, or has none. -/
  | rests {st : Process ι} {l : LifecycleLabel} {caller : ι} {call : Call}
      (silent : l = .internal ∨ ∃ duty outcome, l = .add duty outcome)
      (nothing : call.ref = none) : Effect node st l (st.setCall caller call)
  /-- The duty of a call that owns the runner is scheduled. -/
  | granted {st : Process ι} {caller : ι} {duty : Duty} {id : ℕ}
      (starting : st.calls caller = .starting duty id) :
      Effect node st (.add duty .scheduled) (st.setCall caller (.scheduled duty id))
  /-- A call looks up the instance of its duty. -/
  | looks {st : Process ι} {caller : ι} {call : Call} {duty : Duty}
      (keeps : call.ref = none ∨ call.ref = some (duty, (st.getInstanceIo duty).1))
      (nothing : call.owned = none) :
      Effect node st .internal ((st.getInstanceIo duty).2.setCall caller call)
  | launches {st : Process ι} {caller : ι} {duty : Duty} {id : ℕ} {io : InstanceIo}
      (scheduled : st.calls caller = .scheduled duty id)
      (running : io.running = (st.slots id).io.running) :
      Effect node st (.launch duty)
        ((st.setCall caller .running).setSlot id
          { st.slots id with io := io, core := some (node.machine duty).start })
  | turns {st : Process ι} {id : ℕ} {core} (e : Qbft.Event HashRoot)
      (launched : (st.slots id).core = some core) (runs : core.stop = none) :
      Effect node st
        (.turn (st.slots id).duty ((node.machine (st.slots id).duty).step core.state e).out)
        (st.setSlot id
          { st.slots id with core := some ((node.machine (st.slots id).duty).act core e) })
  | expires {st : Process ι} {duty : Duty} :
      Effect node st (.expired duty) { st with cleaner := some duty }
  | removes {st : Process ι} {duty : Duty} (held : st.cleaner = some duty) :
      Effect node st .internal { st with instances := st.instances.erase duty, cleaner := none }

lemma effect_send {caller : ι} {duty : Duty} {id : ℕ} (marked : st.calls caller = .marked duty id)
    (closed : Option Bool) :
    Effect node st .internal
      (st.work caller (afterSend duty id (st.slots id).io closed).1 id
        (afterSend duty id (st.slots id).io closed).2) := by
  have hheld : (st.calls caller).ref = some (duty, id) := by
    rw [marked]
    rfl
  match closed with
  | none => exact .works hheld (.inl rfl) (fun h => h) (.inl rfl)
  | some true =>
    by_cases hrunning : (st.slots id).io.running = true
    · simp only [afterSend, hrunning, if_true]
      exact .works hheld (.inl rfl) (fun _ => hrunning) (.inl rfl)
    · simp only [afterSend, hrunning]
      exact .works hheld (.inl rfl) (fun h => h) (.inl rfl)
  | some false =>
    have hkeeps := keeps_takeReceiver .decidedAt (st.slots id).io
    rw [afterSend]
    rcases hexec : Attempt.exec (InstanceIo.takeReceiver .decidedAt) (st.slots id).io with
      ⟨e | _, io⟩ <;> rw [hexec] at hkeeps
    · exact .works hheld (.inl rfl) hkeeps.trans (.inl rfl)
    · exact .works hheld (.inr rfl) hkeeps.trans (.inl rfl)

lemma effect_start {caller : ι} {entry : Entrypoint} {duty : Duty} {id : ℕ}
    (ready : st.calls caller = .ready entry duty id) :
    Effect node st .internal
      (st.work caller (afterStart duty id entry (st.slots id).io.maybeStart.1) id
        (st.slots id).io.maybeStart.2) := by
  have hheld : (st.calls caller).ref = some (duty, id) := by
    rw [ready]
    rfl
  rw [InstanceIo.maybeStart]
  by_cases hrunning : (st.slots id).io.running = true
  · rw [if_pos hrunning]
    cases entry with
    | propose | participate => exact .works hheld (.inl rfl) (fun _ => hrunning) (.inl rfl)
  · rw [if_neg hrunning]
    have hstopped : (st.slots id).io.running = false := by simpa using hrunning
    have hafter : afterStart duty id entry true = .starting duty id := by cases entry <;> rfl
    rw [hafter]
    exact .works hheld (.inr rfl) (fun _ => rfl) (.inr ⟨rfl, hstopped, rfl⟩)

/-- **What a step can do.** -/
lemma Step.effect [DecidableEq PK] (h : Step node st l st') : Effect node st l st' := by
  cases h with
  | enter idle admits => exact .looks (.inr rfl) rfl
  | @mark caller entry duty id entered =>
    have hheld : (st.calls caller).ref = some (duty, id) := by
      rw [entered]
      rfl
    have hrunning := exec_mark_running entry (st.slots id).io
    rcases hexec : Attempt.exec entry.mark (st.slots id).io with ⟨e | _, io⟩ <;>
      rw [hexec] at hrunning
    · exact .works hheld (.inl rfl) hrunning.trans (.inl rfl)
    · cases entry with
      | propose | participate => exact .works hheld (.inr rfl) hrunning.trans (.inl rfl)
  | send value hash verify marked => exact effect_send marked _
  | start ready => exact effect_start ready
  | schedule outcome starting =>
    by_cases hscheduled : outcome = .scheduled
    · subst hscheduled
      exact .granted starting
    · rw [if_neg hscheduled]
      exact .rests (.inr ⟨_, _, rfl⟩) rfl
  | @launch caller duty id io scheduled takes =>
    have hkeeps := keeps_takeInputs (st.slots id).io
    rw [takes] at hkeeps
    exact .launches scheduled hkeeps
  | @launchFailed caller duty id io e scheduled takes =>
    have hkeeps := keeps_takeInputs (st.slots id).io
    rw [takes] at hkeeps
    have hheld : (st.calls caller).ref = some (duty, id) := by
      rw [scheduled]
      rfl
    exact .works hheld (.inl rfl) hkeeps.trans (.inl rfl)
  | turn e launched runs => exact .turns e launched runs
  | handle idle admitted => exact .rests (.inl rfl) rfl
  | answer outcome admitting =>
    by_cases hscheduled : outcome = .scheduled
    · rw [if_pos hscheduled]
      exact .rests (.inr ⟨_, _, rfl⟩) rfl
    · rw [if_neg hscheduled]
      exact .rests (.inr ⟨_, _, rfl⟩) rfl
  | queue queueing => exact .looks (.inl rfl) rfl
  | leave awaits => exact .rests (.inl rfl) rfl
  | expire free => exact .expires
  | remove held => exact .removes held

end Effects

/-! ## The instances of a process -/

section Updates

variable {caller : ι} {call : Call} {id : ℕ} {slot : Slot}

@[simp] lemma setSlot_calls : (st.setSlot id slot).calls = st.calls := rfl

@[simp] lemma setSlot_slots : (st.setSlot id slot).slots = Function.update st.slots id slot := rfl

@[simp] lemma setSlot_created : (st.setSlot id slot).created = st.created := rfl

@[simp] lemma setSlot_instances : (st.setSlot id slot).instances = st.instances := rfl

variable [DecidableEq ι]

@[simp] lemma setCall_calls :
    (st.setCall caller call).calls = Function.update st.calls caller call := rfl

@[simp] lemma setCall_slots : (st.setCall caller call).slots = st.slots := rfl

@[simp] lemma setCall_created : (st.setCall caller call).created = st.created := rfl

@[simp] lemma setCall_instances : (st.setCall caller call).instances = st.instances := rfl

end Updates

/-- A lookup finds the instance of the map, or creates one. -/
lemma getInstanceIo_cases (duty : Duty) (st : Process ι) :
    (∃ id, st.instances.lookup duty = some id ∧ st.getInstanceIo duty = (id, st)) ∨
      (st.instances.lookup duty = none ∧ st.getInstanceIo duty = (st.created, { st with
        instances := st.instances.insert duty st.created
        slots := Function.update st.slots st.created ⟨duty, .new, none⟩
        created := st.created + 1 })) := by
  unfold getInstanceIo
  cases st.instances.lookup duty with
  | some id => exact .inl ⟨id, rfl, rfl⟩
  | none => exact .inr ⟨rfl, rfl⟩

/-- What the process keeps of its instances. -/
structure Inv (st : Process ι) : Prop where
  registered : ∀ duty id, st.instances.lookup duty = some id →
    id < st.created ∧ (st.slots id).duty = duty
  refs : ∀ caller duty id, (st.calls caller).ref = some (duty, id) →
    id < st.created ∧ (st.slots id).duty = duty
  owned : ∀ caller id, (st.calls caller).owned = some id →
    (st.slots id).io.running = true ∧ (st.slots id).core = none
  owner : ∀ caller caller' id, (st.calls caller).owned = some id →
    (st.calls caller').owned = some id → caller = caller'
  launched : ∀ id, (st.slots id).core ≠ none →
    id < st.created ∧ (st.slots id).io.running = true
  sound : ∀ id core, (st.slots id).core = some core → core.state.Sound

variable {duty : Duty} {id : ℕ}

/-- A call whose duty was scheduled owns an instance of the duty that has no core yet. -/
lemma Inv.of_scheduled (h : Inv st) {caller : ι} (hcall : st.calls caller = .scheduled duty id) :
    (id < st.created ∧ (st.slots id).duty = duty) ∧
      (st.slots id).io.running = true ∧ (st.slots id).core = none := by
  constructor
  · apply h.refs caller
    rw [hcall]
    rfl
  · apply h.owned caller
    rw [hcall]
    rfl

lemma inv_start : Inv (start ι) where
  registered duty id h := by simp [start] at h
  refs caller duty id h := by simp [start, Call.ref] at h
  owned caller id h := by simp [start, Call.owned] at h
  owner caller caller' id h := by simp [start, Call.owned] at h
  launched id h := by simp [start] at h
  sound id core h := by simp [start] at h

lemma Inv.getInstanceIo (h : Inv st) (duty : Duty) :
    Inv (st.getInstanceIo duty).2 ∧ (st.getInstanceIo duty).1 < (st.getInstanceIo duty).2.created ∧
      ((st.getInstanceIo duty).2.slots (st.getInstanceIo duty).1).duty = duty := by
  rcases getInstanceIo_cases duty st with ⟨id, hlookup, heq⟩ | ⟨hlookup, heq⟩
  · rw [heq]
    exact ⟨h, h.registered duty id hlookup⟩
  rw [heq]
  -- the new id is not in use
  have hold : ∀ j, j < st.created →
      Function.update st.slots st.created ⟨duty, .new, none⟩ j = st.slots j :=
    fun j hj => Function.update_of_ne hj.ne _ _
  refine ⟨⟨fun d j hj => ?_, fun c d j hj => ?_, fun c j hj => ?_, h.owner, fun j hj => ?_,
    fun j core hj => ?_⟩, Nat.lt_succ_self _, by simp⟩
  · rcases HashMap.lookup_insert_eq_some hj with ⟨rfl, rfl⟩ | hj
    · exact ⟨Nat.lt_succ_self _, by simp⟩
    · obtain ⟨hlt, hduty⟩ := h.registered d j hj
      exact ⟨hlt.trans (Nat.lt_succ_self _), (congrArg Slot.duty (hold j hlt)).trans hduty⟩
  · obtain ⟨hlt, hduty⟩ := h.refs c d j hj
    exact ⟨hlt.trans (Nat.lt_succ_self _), (congrArg Slot.duty (hold j hlt)).trans hduty⟩
  · obtain ⟨d, href⟩ := Call.ref_of_owned hj
    have hlt := (h.refs c d j href).1
    show (Function.update st.slots st.created _ j).io.running = true ∧
      (Function.update st.slots st.created _ j).core = none
    rw [hold j hlt]
    exact h.owned c j hj
  · by_cases hnew : j = st.created
    · subst hnew
      simp at hj
    · have hlaunched : (st.slots j).core ≠ none := by simpa [hnew] using hj
      obtain ⟨hlt, hrun⟩ := h.launched j hlaunched
      exact ⟨hlt.trans (Nat.lt_succ_self _),
        (congrArg (fun slot => slot.io.running) (hold j hlt)).trans hrun⟩
  · by_cases hnew : j = st.created
    · subst hnew
      simp at hj
    · exact h.sound j core (by simpa [hnew] using hj)

/-- An instance gets new flags or a new core.  It keeps its duty, a runner that was started stays
started, and there is no core while a call owns the runner. -/
lemma Inv.setSlot (h : Inv st) {slot : Slot} (hduty : slot.duty = (st.slots id).duty)
    (hrunning : (st.slots id).io.running = true → slot.io.running = true)
    (hcore : ∀ caller, (st.calls caller).owned = some id → slot.core = none)
    (hlaunched : slot.core ≠ none → id < st.created ∧ slot.io.running = true)
    (hsound : ∀ core, slot.core = some core → core.state.Sound) : Inv (st.setSlot id slot) := by
  have hsame : ∀ j, (Function.update st.slots id slot j).duty = (st.slots j).duty := by
    intro j
    by_cases hj : j = id <;> simp [hj, hduty]
  refine ⟨fun d j hj => ?_, fun c d j hj => ?_, fun c j hj => ?_, h.owner, fun j hj => ?_,
    fun j core hj => ?_⟩
  · rw [setSlot_slots, hsame]
    exact h.registered d j hj
  · rw [setSlot_slots, hsame]
    exact h.refs c d j hj
  · obtain ⟨hrun, hnone⟩ := h.owned c j hj
    rw [setSlot_slots]
    by_cases hid : j = id
    · subst hid
      rw [Function.update_self]
      exact ⟨hrunning hrun, hcore c hj⟩
    · rw [Function.update_of_ne hid]
      exact ⟨hrun, hnone⟩
  · rw [setSlot_slots] at hj ⊢
    by_cases hid : j = id
    · subst hid
      rw [Function.update_self] at hj ⊢
      exact hlaunched hj
    · rw [Function.update_of_ne hid] at hj ⊢
      exact h.launched j hj
  · rw [setSlot_slots] at hj
    by_cases hid : j = id
    · subst hid
      rw [Function.update_self] at hj
      exact hsound core hj
    · rw [Function.update_of_ne hid] at hj
      exact h.sound j core hj

/-- A core goes on. -/
lemma Inv.turns (h : Inv st) {core} (e : Qbft.Event HashRoot)
    (launched : (st.slots id).core = some core) (runs : core.stop = none) :
    Inv (st.setSlot id
      { st.slots id with core := some ((node.machine (st.slots id).duty).act core e) }) := by
  apply h.setSlot
  · rfl
  · exact fun hrun => hrun
  · intro caller howned
    have hnone := (h.owned caller id howned).2
    rw [launched] at hnone
    simp at hnone
  · intro _
    exact h.launched id (by simp [launched])
  · intro core' hcore'
    obtain rfl := Option.some.inj hcore'
    rw [LoggedMachine.act_of_running runs]
    exact (Qbft.step_trans _ _ core.state e).sound (h.sound id core launched)

variable [DecidableEq ι]

/-- A call moves on.  It refers to an instance of its duty, and if it owns the runner then nobody
else does. -/
lemma Inv.setCall (h : Inv st) {caller : ι} {call : Call}
    (href : ∀ duty id, call.ref = some (duty, id) → id < st.created ∧ (st.slots id).duty = duty)
    (howned : ∀ id, call.owned = some id →
      ((st.slots id).io.running = true ∧ (st.slots id).core = none) ∧
        ∀ caller', (st.calls caller').owned = some id → caller' = caller) :
    Inv (st.setCall caller call) where
  registered := h.registered
  refs caller' duty id hcall := by
    by_cases hc : caller' = caller
    · subst hc
      exact href duty id (by simpa using hcall)
    · exact h.refs caller' duty id (by simpa [hc] using hcall)
  owned caller' id hcall := by
    by_cases hc : caller' = caller
    · subst hc
      exact (howned id (by simpa using hcall)).1
    · exact h.owned caller' id (by simpa [hc] using hcall)
  owner caller₁ caller₂ id h₁ h₂ := by
    by_cases hc₁ : caller₁ = caller <;> by_cases hc₂ : caller₂ = caller
    · rw [hc₁, hc₂]
    · subst hc₁
      exact ((howned id (by simpa using h₁)).2 caller₂ (by simpa [hc₂] using h₂)).symm
    · subst hc₂
      exact (howned id (by simpa using h₂)).2 caller₁ (by simpa [hc₁] using h₁)
    · exact h.owner caller₁ caller₂ id (by simpa [hc₁] using h₁) (by simpa [hc₂] using h₂)
  launched := h.launched
  sound := h.sound

lemma Inv.works (h : Inv st) {caller : ι} {call : Call} {io : InstanceIo}
    (held : (st.calls caller).ref = some (duty, id))
    (keeps : call.ref = none ∨ call.ref = some (duty, id))
    (running : (st.slots id).io.running = true → io.running = true) (wins : call.owned = none ∨
      (call = .starting duty id ∧ (st.slots id).io.running = false ∧ io.running = true)) :
    Inv (st.work caller call id io) := by
  have hslot : Inv (st.setSlot id { st.slots id with io := io }) := by
    refine h.setSlot rfl running (fun caller' howned => (h.owned caller' id howned).2) ?_
      (h.sound id)
    intro hlaunched
    obtain ⟨hlt, hrun⟩ := h.launched id hlaunched
    exact ⟨hlt, running hrun⟩
  have hcall : Inv ((st.setSlot id { st.slots id with io := io }).setCall caller call) := by
    apply hslot.setCall
    · intro d j hj
      rcases keeps with hnone | hsame
      · rw [hnone] at hj
        simp at hj
      · exact hslot.refs caller d j (held.trans (hsame.symm.trans hj))
    · intro j hj
      rcases wins with hnone | ⟨rfl, hstopped, hstarted⟩
      · rw [hnone] at hj
        simp at hj
      obtain rfl : id = j := Option.some.inj hj
      -- nobody has started the instance before
      have hfirst : ¬ (st.slots id).io.running = true := by simp [hstopped]
      refine ⟨⟨by simpa using hstarted, ?_⟩, fun caller' howned => ?_⟩
      · by_contra hlaunched
        exact hfirst (h.launched id (by simpa using hlaunched)).2
      · exact absurd (h.owned caller' id howned).1 hfirst
  exact hcall

lemma Inv.launches (h : Inv st) {caller : ι} {io : InstanceIo}
    (scheduled : st.calls caller = .scheduled duty id)
    (running : io.running = (st.slots id).io.running) :
    Inv ((st.setCall caller .running).setSlot id
      { st.slots id with io := io, core := some (node.machine duty).start }) := by
  have hcall : Inv (st.setCall caller .running) :=
    h.setCall (by simp [Call.ref]) (by simp [Call.owned])
  have howned : (st.calls caller).owned = some id := by
    rw [scheduled]
    rfl
  apply hcall.setSlot
  · rfl
  · exact running.trans
  · -- the caller owned the instance, so nobody else does
    intro caller' howned'
    by_cases hc : caller' = caller
    · subst hc
      simp [Call.owned] at howned'
    · exact absurd (h.owner caller' caller id (by simpa [hc] using howned') howned) hc
  · intro _
    obtain ⟨⟨hlt, -⟩, hrun, -⟩ := h.of_scheduled scheduled
    exact ⟨hlt, running.trans hrun⟩
  · intro core hcore
    obtain rfl : (node.machine duty).start = core := Option.some.inj hcore
    exact Qbft.machine_init_sound _ _

lemma Inv.effect (h : Inv st) (heffect : Effect node st l st') : Inv st' := by
  cases heffect with
  | works held keeps running wins => exact h.works held keeps running wins
  | rests silent nothing =>
    apply h.setCall
    · simp [nothing]
    · simp [Call.owned_of_ref_none nothing]
  | @granted caller duty id starting =>
    apply h.setCall
    · intro d j hj
      refine h.refs caller d j ?_
      rw [starting]
      exact hj
    · intro j hj
      have howned : (st.calls caller).owned = some j := by
        rw [starting]
        exact hj
      refine ⟨h.owned caller j howned, fun caller' howned' => ?_⟩
      exact h.owner caller' caller j howned' howned
  | @looks caller call duty keeps nothing =>
    obtain ⟨hinv, hlt, hduty⟩ := h.getInstanceIo duty
    apply hinv.setCall
    · intro d j hj
      rcases keeps with hnone | hsome
      · simp [hnone] at hj
      · rw [hsome] at hj
        obtain ⟨rfl, rfl⟩ := Prod.mk.inj (Option.some.inj hj)
        exact ⟨hlt, hduty⟩
    · simp [nothing]
  | launches scheduled running => exact h.launches scheduled running
  | turns e launched runs => exact h.turns e launched runs
  | expires => exact ⟨h.registered, h.refs, h.owned, h.owner, h.launched, h.sound⟩
  | @removes duty held =>
    refine ⟨fun d j hj => ?_, h.refs, h.owned, h.owner, h.launched, h.sound⟩
    have hne : d ≠ duty := by
      rintro rfl
      simp at hj
    rw [AList.lookup_erase_ne hne] at hj
    exact h.registered d j hj

/-! ## Grants -/

/-- The core of an instance of the duty has been launched. -/
def Launched (st : Process ι) (duty : Duty) (id : ℕ) : Prop :=
  (st.slots id).core ≠ none ∧ (st.slots id).duty = duty

/-- The core of an instance of the duty has decided. -/
def Decided (st : Process ι) (duty : Duty) (id : ℕ) : Prop :=
  ∃ core, (st.slots id).core = some core ∧ (st.slots id).duty = duty ∧ core.state.decision ≠ none

/-- The deadliner has scheduled the duty for the runner of the instance. -/
def Granted (st : Process ι) (duty : Duty) (id : ℕ) : Prop :=
  (∃ caller, st.calls caller = .scheduled duty id) ∨ st.Launched duty id

omit [DecidableEq ι] in
lemma Decided.launched (h : st.Decided duty id) : st.Launched duty id := by
  obtain ⟨core, hcore, hduty, -⟩ := h
  exact ⟨by simp [hcore], hduty⟩

omit [DecidableEq ι] in
lemma Inv.lt_of_granted (h : Inv st) (hgranted : st.Granted duty id) :
    id < st.created ∧ (st.slots id).duty = duty := by
  rcases hgranted with ⟨caller, hcall⟩ | ⟨hcore, hduty⟩
  · exact (h.of_scheduled hcall).1
  · exact ⟨(h.launched id hcore).1, hduty⟩

lemma Effect.duty_eq (h : Effect node st l st') (hlt : id < st.created) :
    id < st'.created ∧ (st'.slots id).duty = (st.slots id).duty := by
  cases h with
  | @works caller call duty id' io _ _ _ _ =>
    by_cases hid : id = id' <;> simp [work, hid] <;> omega
  | @launches caller duty id' io _ _ | @turns id' core e _ _ =>
    by_cases hid : id = id' <;> simp [hid] <;> omega
  | @looks caller call duty _ _ =>
    rcases getInstanceIo_cases duty st with ⟨id', -, heq⟩ | ⟨-, heq⟩ <;> rw [heq]
    · exact ⟨hlt, rfl⟩
    · exact ⟨hlt.trans (Nat.lt_succ_self _), by simp [hlt.ne]⟩
  | _ => exact ⟨hlt, rfl⟩

/-- A core is launched by the call that owns its instance, and takes its turns. -/
lemma Effect.core_cases (h : Effect node st l st') (hinv : Inv st) (id : ℕ) :
    (st'.slots id).core = (st.slots id).core ∨
      (∃ duty caller, l = .launch duty ∧ st.calls caller = .scheduled duty id ∧
        (st'.slots id).core = some (node.machine duty).start) ∨
      ∃ e core, (st.slots id).core = some core ∧ core.stop = none ∧
        l = .turn (st.slots id).duty ((node.machine (st.slots id).duty).step core.state e).out ∧
        (st'.slots id).core = some ((node.machine (st.slots id).duty).act core e) := by
  cases h with
  | @works caller call duty id' io _ _ _ _ =>
    refine .inl ?_
    by_cases hid : id = id' <;> simp [work, hid]
  | @looks caller call duty _ _ =>
    refine .inl ?_
    rcases getInstanceIo_cases duty st with ⟨id', -, heq⟩ | ⟨-, heq⟩ <;> rw [heq]
    · rfl
    · by_cases hid : id = st.created
      · have hnone : (st.slots id).core = none := by
          by_contra hcore
          exact hid.not_lt (hinv.launched id hcore).1
        rw [hnone]
        simp [hid]
      · simp [hid]
  | @launches caller duty id' io scheduled _ =>
    by_cases hid : id = id'
    · subst hid
      exact .inr (.inl ⟨duty, caller, rfl, scheduled, by simp⟩)
    · exact .inl (by simp [hid])
  | @turns id' core e launched runs =>
    by_cases hid : id = id'
    · subst hid
      exact .inr (.inr ⟨e, core, launched, runs, rfl, by simp⟩)
    · exact .inl (by simp [hid])
  | _ => exact .inl rfl

lemma Launched.effect (h : st.Launched duty id) (hinv : Inv st)
    (heffect : Effect node st l st') : st'.Launched duty id := by
  obtain ⟨hcore, hduty⟩ := h
  refine ⟨?_, (heffect.duty_eq (hinv.launched id hcore).1).2.trans hduty⟩
  rcases heffect.core_cases hinv id with hsame | ⟨_, _, -, -, hstart⟩ | ⟨_, _, -, -, -, hact⟩
  · rwa [hsame]
  · simp [hstart]
  · simp [hact]

/-- A core that has decided stays decided and decides nothing more. -/
lemma Decided.effect (h : st.Decided duty id) (hinv : Inv st)
    (heffect : Effect node st l st') : st'.Decided duty id := by
  have hduty' := (h.launched.effect hinv heffect).2
  obtain ⟨core, hcore, hduty, hdecided⟩ := h
  rcases heffect.core_cases hinv id with
    hsame | ⟨_, caller, -, hcall, -⟩ | ⟨e, core', hcore', hruns, -, hact⟩
  · exact ⟨core, hsame.trans hcore, hduty', hdecided⟩
  · have hnone := (hinv.of_scheduled hcall).2.2
    rw [hcore] at hnone
    simp at hnone
  · obtain rfl : core = core' := Option.some.inj (hcore.symm.trans hcore')
    refine ⟨_, hact, hduty', ?_⟩
    rw [LoggedMachine.act_of_running hruns]
    have hkept := (Qbft.step_trans (node.definition (st.slots id).duty) node.peerIdx.toInt
      core.state e).of_decided (hinv.sound id core hcore) hdecided
    rw [show ((node.machine (st.slots id).duty).step core.state e).state.decision =
      core.state.decision from Qbft.State.decision_eq_none_of_qCommit hkept.1]
    exact hdecided

/-- Only the deadliner grants a run. -/
lemma Effect.granted_cases (h : Effect node st l st') (hinv : Inv st)
    (hgranted : st'.Granted duty id) :
    st.Granted duty id ∨
      (l = .add duty .scheduled ∧ ∃ caller, st.calls caller = .starting duty id) := by
  rcases hgranted with ⟨caller', hcall⟩ | ⟨hcore, hduty⟩
  · have howned : (Call.scheduled duty id).owned = some id := rfl
    -- the calls that do not move keep what they have
    have hkept : ∀ (caller : ι) (call : Call), call.owned = none ∨ (∃ d j, call = .starting d j) →
        Function.update st.calls caller call caller' = .scheduled duty id →
        st.Granted duty id := by
      intro caller call hnot hupdate
      by_cases hc : caller' = caller
      · subst hc
        rw [Function.update_self] at hupdate
        rcases hnot with hnone | ⟨d, j, rfl⟩
        · rw [hupdate] at hnone
          simp [Call.owned] at hnone
        · simp at hupdate
      · rw [Function.update_of_ne hc] at hupdate
        exact .inl ⟨caller', hupdate⟩
    cases h with
    | @works caller call d j io _ _ _ wins =>
      refine .inl (hkept caller call ?_ hcall)
      exact wins.imp_right fun hwins => ⟨d, j, hwins.1⟩
    | @rests l caller call _ nothing =>
      exact .inl (hkept caller call (.inl (Call.owned_of_ref_none nothing)) hcall)
    | @granted caller d j starting =>
      by_cases hc : caller' = caller
      · subst hc
        rw [setCall_calls, Function.update_self] at hcall
        obtain ⟨rfl, rfl⟩ := Call.scheduled.inj hcall
        exact .inr ⟨rfl, caller', starting⟩
      · rw [setCall_calls, Function.update_of_ne hc] at hcall
        exact .inl (.inl ⟨caller', hcall⟩)
    | @looks caller call d _ nothing =>
      have hcalls : (st.getInstanceIo d).2.calls = st.calls := by
        rcases getInstanceIo_cases d st with ⟨_, -, heq⟩ | ⟨-, heq⟩ <;> rw [heq]
      rw [setCall_calls, hcalls] at hcall
      exact .inl (hkept caller call (.inl nothing) hcall)
    | @launches caller d j io _ _ => exact .inl (hkept caller .running (.inl rfl) hcall)
    | turns | expires | removes => exact .inl (.inl ⟨caller', hcall⟩)
  · refine .inl ?_
    have hkeep : ∀ hlt : id < st.created, (st.slots id).duty = duty :=
      fun hlt => (h.duty_eq hlt).2.symm.trans hduty
    rcases h.core_cases hinv id with hsame | ⟨d, caller, -, hcall, -⟩ | ⟨_, core, hold, -, -, -⟩
    · rw [hsame] at hcore
      exact .inr ⟨hcore, hkeep (hinv.launched id hcore).1⟩
    · obtain ⟨hlt, hd⟩ := (hinv.of_scheduled hcall).1
      obtain rfl : d = duty := hd.symm.trans (hkeep hlt)
      exact .inl ⟨caller, hcall⟩
    · have hlaunched : (st.slots id).core ≠ none := by simp [hold]
      exact .inr ⟨hlaunched, hkeep (hinv.launched id hlaunched).1⟩

/-- An instance leaves the map when the cleanup task removes its duty. -/
lemma Effect.stale_cases (h : Effect node st l st') (hlt : id < st'.created)
    (hduty : (st'.slots id).duty = duty) (hstale : st'.instances.lookup duty ≠ some id) :
    id < st.created ∧ (st.slots id).duty = duty ∧
      (st.instances.lookup duty ≠ some id ∨ st.cleaner = some duty) := by
  have hold : id < st.created → (st.slots id).duty = duty :=
    fun hlt => (h.duty_eq hlt).2.symm.trans hduty
  cases h with
  | @looks caller call d _ _ =>
    rcases getInstanceIo_cases d st with ⟨id', -, heq⟩ | ⟨hnone, heq⟩
    · rw [heq] at hlt hstale
      exact ⟨hlt, hold hlt, .inl hstale⟩
    rw [heq] at hlt hduty hstale
    have hid : id ≠ st.created := by
      rintro rfl
      obtain rfl : d = duty := by simpa using hduty
      exact hstale (AList.lookup_insert st.instances)
    have hlt' : id < st.created := lt_of_le_of_ne (Nat.le_of_lt_succ hlt) hid
    refine ⟨hlt', hold hlt', .inl fun hlookup => ?_⟩
    have hne : duty ≠ d := by
      rintro rfl
      rw [hnone] at hlookup
      simp at hlookup
    exact hstale ((AList.lookup_insert_ne hne).trans hlookup)
  | @removes d held =>
    refine ⟨hlt, hold hlt, ?_⟩
    by_cases hd : duty = d
    · rw [hd]
      exact .inr held
    · exact .inl fun hlookup => hstale ((AList.lookup_erase_ne hd).trans hlookup)
  | _ => exact ⟨hlt, hold hlt, .inl hstale⟩

omit [DecidableEq ι] in
lemma getInstanceIo_cleaner (duty : Duty) (st : Process ι) :
    (st.getInstanceIo duty).2.cleaner = st.cleaner := by
  rcases getInstanceIo_cases duty st with ⟨_, -, heq⟩ | ⟨-, heq⟩ <;> rw [heq]

lemma Effect.cleaner_cases (h : Effect node st l st')
    (hheld : st'.cleaner = some duty) : st.cleaner = some duty ∨ l = .expired duty := by
  cases h with
  | expires => exact .inr (by rw [Option.some.inj hheld])
  | removes => simp at hheld
  | @looks caller call d _ _ => exact .inl ((getInstanceIo_cleaner d st).symm.trans hheld)
  | _ => exact .inl hheld

end Process

/-! ## The process beside its deadliner -/

section System

variable {ι SK PK : Type} {node : Node SK PK} {calculator : DeadlineCalculator}
  {p p' : Deadliner × Process ι} {st : Process ι} {now : DateTime}
  {l : Label ⊕ LifecycleLabel} {tr : List (Label ⊕ LifecycleLabel)} {duty : Duty}

/-- Instances that the map does not know any more are past the deadline of their duty, and a duty is
granted to one instance. -/
structure OneRunInv (calculator : DeadlineCalculator) (p : Deadliner × Process ι) : Prop where
  late : Deadliner.LateInv calculator p.1
  inv : p.2.Inv
  cleaner : ∀ duty, p.2.cleaner = some duty → Deadliner.Expired calculator p.1.now duty
  stale : ∀ id duty, id < p.2.created → (p.2.slots id).duty = duty →
    p.2.instances.lookup duty ≠ some id → Deadliner.Expired calculator p.1.now duty
  unique : ∀ duty id id', p.2.Granted duty id → p.2.Granted duty id' → id = id'

lemma oneRunInv_start (now : DateTime) :
    OneRunInv calculator (Deadliner.start now, Process.start ι) where
  late := Deadliner.lateInv_start now
  inv := Process.inv_start
  cleaner duty h := by simp [Process.start] at h
  stale id duty h := by simp [Process.start] at h
  unique duty id id' h := by simp [Process.Granted, Process.Launched, Process.start] at h

/-- A duty that has a deadline to wait for has had one instance. -/
lemma OneRunInv.registered (h : OneRunInv calculator p)
    (hrefused : ¬ Deadliner.Refused calculator p.1.now duty) {id : ℕ} (hlt : id < p.2.created)
    (hduty : (p.2.slots id).duty = duty) : p.2.instances.lookup duty = some id := by
  by_contra hlookup
  exact hrefused (h.stale id duty hlt hduty hlookup).refused

variable [DecidableEq ι]

/-- What a step of the process preserves, given what the deadliner says with it. -/
lemma OneRunInv.effect (h : OneRunInv calculator p) {l : LifecycleLabel}
    (heffect : Process.Effect node p.2 l p'.2) (hlate : Deadliner.LateInv calculator p'.1)
    (hnow : p.1.now ≤ p'.1.now)
    (hexpired : ∀ duty, l = .expired duty → Deadliner.Expired calculator p'.1.now duty)
    (hscheduled : ∀ duty, l = .add duty .scheduled → ¬ Deadliner.Refused calculator p.1.now duty) :
    OneRunInv calculator p' where
  late := hlate
  inv := h.inv.effect heffect
  cleaner duty hcleaner := by
    rcases heffect.cleaner_cases hcleaner with hheld | hl
    · exact (h.cleaner duty hheld).mono hnow
    · exact hexpired duty hl
  stale id duty hlt hduty hlookup := by
    obtain ⟨hlt', hduty', hstale | hcleaner⟩ := heffect.stale_cases hlt hduty hlookup
    · exact (h.stale id duty hlt' hduty' hstale).mono hnow
    · exact (h.cleaner duty hcleaner).mono hnow
  unique duty id id' hid hid' := by
    -- if one of the two is new, the duty has just been scheduled, and the map has both of them
    have hknown : ∀ j, p'.2.Granted duty j → p.2.Granted duty j ∨
        (l = .add duty .scheduled ∧ j < p.2.created ∧ (p.2.slots j).duty = duty) := by
      intro j hj
      rcases heffect.granted_cases h.inv hj with hold | ⟨hl, caller, hcall⟩
      · exact .inl hold
      · refine .inr ⟨hl, h.inv.refs caller duty j ?_⟩
        rw [hcall]
        rfl
    have hboth : l = .add duty .scheduled → id = id' := by
      intro hl
      have hmap : ∀ j, p'.2.Granted duty j → p.2.instances.lookup duty = some j := by
        intro j hj
        rcases hknown j hj with hold | ⟨-, hlt, hduty⟩
        · obtain ⟨hlt, hduty⟩ := h.inv.lt_of_granted hold
          exact h.registered (hscheduled duty hl) hlt hduty
        · exact h.registered (hscheduled duty hl) hlt hduty
      exact Option.some.inj ((hmap id hid).symm.trans (hmap id' hid'))
    rcases hknown id hid with hold | ⟨hl, -⟩
    · rcases hknown id' hid' with hold' | ⟨hl, -⟩
      · exact h.unique duty id id' hold hold'
      · exact hboth hl
    · exact hboth hl

lemma OneRunInv.step [DecidableEq PK] (h : OneRunInv calculator p)
    (hstep : LifecycleStep calculator node p l p') : OneRunInv calculator p' := by
  cases hstep with
  | left free step =>
    refine ⟨h.late.step step, h.inv, fun duty hcleaner => ?_, fun id duty hlt hduty hlookup => ?_,
      h.unique⟩
    · exact (h.cleaner duty hcleaner).mono step.now_le
    · exact (h.stale id duty hlt hduty hlookup).mono step.now_le
  | @right st proc proc' l free step =>
    refine h.effect step.effect h.late le_rfl ?_ ?_
    · rintro duty rfl
      simp [LifecycleLabel.sync] at free
    · rintro duty rfl
      simp [LifecycleLabel.sync] at free
  | @both st st' proc proc' a l meet step step' =>
    refine h.effect step'.effect (h.late.step step) step.now_le ?_ ?_
    · rintro duty rfl
      obtain rfl : Label.recv duty = a := Option.some.inj meet
      refine Deadliner.Expired.mono ?_ step.now_le
      cases step with
      | recv queued => exact h.late.late duty (by rw [queued]; exact List.mem_cons_self)
    · rintro duty rfl hrefused
      obtain rfl : Label.add duty .scheduled = a := Option.some.inj meet
      exact step.not_scheduled hrefused rfl

/-! ## One run, one decision -/

/-- `qbft::run` is started for the duty. -/
def launches (duty : Duty) : Label ⊕ LifecycleLabel → Bool
  | .inr (.launch duty') => duty' = duty
  | _ => false

/-- A decided value of the duty is dispatched to the subscribers. -/
def dispatches (duty : Duty) : Label ⊕ LifecycleLabel → Bool
  | .inr (.turn duty' (some (.decide _ _))) => duty' = duty
  | _ => false

/-- What a run has launched and decided can be seen in the cores. -/
structure History (calculator : DeadlineCalculator) (tr : List (Label ⊕ LifecycleLabel))
    (p : Deadliner × Process ι) : Prop where
  inv : OneRunInv calculator p
  launched : ∀ duty, tr.countP (launches duty) = 0 ∨
    (tr.countP (launches duty) = 1 ∧ ∃ id, p.2.Launched duty id)
  decided : ∀ duty, tr.countP (dispatches duty) = 0 ∨
    (tr.countP (dispatches duty) = 1 ∧ ∃ id, p.2.Decided duty id)

/-- A launch is the first one of its duty. -/
lemma OneRunInv.launch (h : OneRunInv calculator p) {l : LifecycleLabel} (hl : l = .launch duty)
    (heffect : Process.Effect node p.2 l st) :
    (∀ id, ¬ p.2.Launched duty id) ∧ ∃ id, st.Launched duty id := by
  cases heffect with
  | @launches caller duty' id io scheduled running =>
    obtain rfl : duty' = duty := LifecycleLabel.launch.inj hl
    obtain ⟨⟨-, hduty⟩, -, hnone⟩ := h.inv.of_scheduled scheduled
    refine ⟨fun id' hlaunched => ?_, id, by simp, by simpa using hduty⟩
    have hsame : id' = id := h.unique duty' id' id (.inr hlaunched) (.inl ⟨caller, scheduled⟩)
    exact hlaunched.1 (hsame ▸ hnone)
  | rests silent nothing => rcases silent with rfl | ⟨_, _, rfl⟩ <;> simp at hl
  | _ => simp at hl

/-- A decision is the first one of its duty. -/
lemma OneRunInv.dispatch (h : OneRunInv calculator p) {l : LifecycleLabel} {value : HashRoot}
    {qcommit : List (Qbft.Msg HashRoot)} (hl : l = .turn duty (some (.decide value qcommit)))
    (heffect : Process.Effect node p.2 l st) :
    (∀ id, ¬ p.2.Decided duty id) ∧ ∃ id, st.Decided duty id := by
  cases heffect with
  | @turns id core e launched runs =>
    obtain ⟨hduty, hout⟩ := LifecycleLabel.turn.inj hl
    have hlaunched : p.2.Launched duty id := ⟨by simp [launched], hduty⟩
    have hsound := h.inv.sound id core launched
    have htrans := Qbft.step_trans (node.definition (p.2.slots id).duty) node.peerIdx.toInt
      core.state e
    rw [show (Qbft.step (node.definition (p.2.slots id).duty) node.peerIdx.toInt core.state e).out =
      some (.decide value qcommit) from hout] at htrans
    refine ⟨fun id' hdecided => ?_, id, (node.machine (p.2.slots id).duty).act core e, by simp,
      by simpa using hduty, ?_⟩
    · obtain rfl : id' = id := h.unique duty id' id (.inr hdecided.launched) (.inr hlaunched)
      obtain ⟨core', hcore', -, hdec⟩ := hdecided
      obtain rfl : core = core' := Option.some.inj (launched.symm.trans hcore')
      obtain ⟨req, hreq, -⟩ := (htrans.of_decided hsound hdec).2.2 _ rfl
      simp at hreq
    · obtain ⟨wire, order, compared, sent, buffer, rule, -, rules, acc, -, hq, -⟩ :=
        htrans.decide_inv
      rw [LoggedMachine.act_of_running runs]
      exact acc.decision_ne_none rules hq
  | rests silent nothing => rcases silent with rfl | ⟨_, _, rfl⟩ <;> simp at hl
  | _ => simp at hl

lemma launches_eq_true {l : Label ⊕ LifecycleLabel} :
    launches duty l = true ↔ l = .inr (.launch duty) := by
  cases l with
  | inl a => simp [launches]
  | inr l => cases l <;> simp [launches]

lemma dispatches_eq_true {l : Label ⊕ LifecycleLabel} :
    dispatches duty l = true ↔
      ∃ value qcommit, l = .inr (.turn duty (some (.decide value qcommit))) := by
  cases l with
  | inl a => simp [dispatches]
  | inr l =>
    cases l with
    | turn duty' out =>
      rcases out with _ | (_ | _) <;> simp [dispatches]
    | _ => simp [dispatches]

lemma History.step [DecidableEq PK] (h : History calculator tr p)
    (hstep : LifecycleStep calculator node p l p') : History calculator (tr ++ [l]) p' := by
  have hinv := h.inv
  refine ⟨hinv.step hstep, fun duty => ?_, fun duty => ?_⟩
  · rw [List.countP_append, List.countP_singleton]
    by_cases hl : launches duty l = true
    · obtain rfl := launches_eq_true.mp hl
      obtain ⟨hfirst, hlaunched⟩ := hinv.launch rfl hstep.snd_step.effect
      rcases h.launched duty with hzero | ⟨-, id, hid⟩
      · exact .inr ⟨by simp [hzero, hl], hlaunched⟩
      · exact absurd hid (hfirst id)
    · rw [if_neg hl, Nat.add_zero]
      refine (h.launched duty).imp_right fun ⟨hone, id, hid⟩ => ⟨hone, id, ?_⟩
      rcases hstep.snd_cases with ⟨l', -, step⟩ | ⟨_, -, hsame⟩
      · exact hid.effect hinv.inv step.effect
      · rwa [hsame]
  · rw [List.countP_append, List.countP_singleton]
    by_cases hl : dispatches duty l = true
    · obtain ⟨value, qcommit, rfl⟩ := dispatches_eq_true.mp hl
      obtain ⟨hfirst, hdecided⟩ := hinv.dispatch rfl hstep.snd_step.effect
      rcases h.decided duty with hzero | ⟨-, id, hid⟩
      · exact .inr ⟨by simp [hzero, hl], hdecided⟩
      · exact absurd hid (hfirst id)
    · rw [if_neg hl, Nat.add_zero]
      refine (h.decided duty).imp_right fun ⟨hone, id, hid⟩ => ⟨hone, id, ?_⟩
      rcases hstep.snd_cases with ⟨l', -, step⟩ | ⟨_, -, hsame⟩
      · exact hid.effect hinv.inv step.effect
      · rwa [hsame]

/-- **One run for a duty.**  Over the lifetime of a process, `qbft::run` is started at most once for
each duty, and at most one decided value of it is dispatched to the subscribers.  Timers fire strictly
late, so that a duty whose instance is gone is refused. -/
theorem one_run_per_duty [DecidableEq PK]
    (run : Trace (LifecycleStep calculator node) (Deadliner.start now, Process.start ι) tr p)
    (duty : Duty) : tr.countP (launches duty) ≤ 1 ∧ tr.countP (dispatches duty) ≤ 1 := by
  have hhistory : History calculator tr p := by
    refine run.induction (P := History calculator) (E := fun _ => True) ?_ ?_ fun _ _ => trivial
    · exact ⟨oneRunInv_start now, fun _ => .inl rfl, fun _ => .inl rfl⟩
    · exact fun tr p l p' _ h hstep => h.step hstep
  constructor
  · rcases hhistory.launched duty with hzero | ⟨hone, -⟩ <;> omega
  · rcases hhistory.decided duty with hzero | ⟨hone, -⟩ <;> omega

end System

/-! ## A duty that is taken up again -/

namespace Again

def node : Node Unit Unit where
  crypto := ⟨fun _ => .zero, fun _ _ => .ok [], fun _ _ => .ok ()⟩
  decoder := .wire
  component := ⟨[()], fun _ => true⟩
  definition := fun _ => ⟨fun _ _ => true, 1, 100, Qbft.validateDefinition_one, Qbft.quorum_one⟩
  peerIdx := 0
  compareAttestations := false
  consensusParticipate := true

def duty : Duty := ⟨1, .attester⟩

def t₀ : DateTime := ⟨0, zero_mem_utc⟩

def t₁ : DateTime := ⟨1, by decide⟩

/-- Every duty is due at the epoch. -/
def calculator : DeadlineCalculator := fun _ => .ok (some t₀)

/-- The deadliner, with the duty added, a nanosecond later, and after its timer has fired. -/
def added : Deadliner := (Deadliner.start t₀).input calculator [duty] t₀ duty

def late : Deadliner := { added with now := t₁ }

def fired : Deadliner := (late.expire calculator []).1

/-- The expired duty has been received. -/
def received : Deadliner := { fired with output := { fired.output with queue := [] } }

lemma step_added : Deadliner.Step calculator strictlyAfter (Deadliner.start t₀)
    (.add duty .scheduled) added :=
  Deadliner.Step.add rfl le_rfl ⟨by simp, rfl⟩

lemma step_fired : Deadliner.Step calculator strictlyAfter late (.fire t₁ (.sent duty)) fired := by
  have helapsed : late.wakeAt < late.now.1 := by decide
  exact Deadliner.Step.fire rfl helapsed ⟨by simp, rfl⟩

lemma step_received : Deadliner.Step calculator strictlyAfter fired (.recv duty) received :=
  Deadliner.Step.recv rfl

lemma step_refused : Deadliner.Step calculator strictlyAfter received (.add duty .alreadyExpired)
    (received.input calculator [duty] t₁ duty) :=
  Deadliner.Step.add rfl le_rfl ⟨by simp, rfl⟩

lemma step_late : Deadliner.Step calculator strictlyAfter added .tick late :=
  Deadliner.Step.tick (by decide)

end Again

open Again in
/-- A duty is run, expires, and is taken up again: the second time its core is not launched. -/
theorem one_run_per_duty_again : ∃ tr p,
    Trace (LifecycleStep calculator node) (Deadliner.start t₀, Process.start Unit)
      (tr ++ [.inr .internal, .inr .internal, .inr .internal,
        .inr (.add duty .alreadyExpired)]) p ∧
    tr.countP (launches duty) = 1 ∧
    (tr ++ [.inr .internal, .inr .internal, .inr .internal,
      .inr (.add duty .alreadyExpired)]).countP (launches duty) ≤ 1 := by
  have hstart : Trace (LifecycleStep calculator node) (Deadliner.start t₀, Process.start Unit) [] _ :=
    Trace.nil
  have hstarting := ((hstart.snoc
    (.right rfl (@Process.Step.enter Unit _ Unit Unit _ node _ () .participate duty rfl rfl))).snoc
    (.right rfl (@Process.Step.mark Unit _ Unit Unit _ node _ () .participate duty 0 rfl))).snoc
    (.right rfl (@Process.Step.start Unit _ Unit Unit _ node _ () .participate duty 0 rfl))
  have hlaunched := ((hstarting.snoc (.both rfl step_added
    (@Process.Step.schedule Unit _ Unit Unit _ node _ () duty 0 .scheduled rfl))).snoc
    (.right rfl (@Process.Step.launch Unit _ Unit Unit _ node _ () duty 0 _ rfl rfl))).snoc
    (.right rfl (@Process.Step.leave Unit _ Unit Unit _ node _ () rfl))
  -- the duty expires, and the cleanup task removes its instance
  have halone : takenAlone .tick ∧ takenAlone (.fire t₁ (.sent duty)) := ⟨trivial, trivial⟩
  have hremoved := (((hlaunched.snoc (.left halone.1 step_late)).snoc
    (.left halone.2 step_fired)).snoc (.both rfl step_received
    (@Process.Step.expire Unit _ Unit Unit _ node _ duty rfl))).snoc
    (.right rfl (@Process.Step.remove Unit _ Unit Unit _ node _ duty rfl))
  have hagain := hremoved.append ((((Trace.nil.snoc
    (.right rfl (@Process.Step.enter Unit _ Unit Unit _ node _ () .participate duty rfl rfl))).snoc
    (.right rfl (@Process.Step.mark Unit _ Unit Unit _ node _ () .participate duty 1 rfl))).snoc
    (.right rfl (@Process.Step.start Unit _ Unit Unit _ node _ () .participate duty 1 rfl))).snoc
    (.both rfl step_refused
      (@Process.Step.schedule Unit _ Unit Unit _ node _ () duty 1 .alreadyExpired rfl)))
  exact ⟨_, _, hagain, by decide, (one_run_per_duty hagain duty).1⟩

end Pluto.Consensus
