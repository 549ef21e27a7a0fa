import Pluto.Consensus.OneRun

/-!
# How long instances are kept

The map of instances only shrinks when the cleanup task removes a duty that came out of the
deadliner.  So an entry is bound to be removed as long as its duty is `Awaited`: scheduled in the
deadliner, waiting in its channel, or in the hands of the cleanup task.  `propose` and `participate`
create the entry before they ask the deadliner, so that a duty is also `Pending` while a call that has
got its instance has no answer yet.  A comment of the source says that an instance is retained until
the deadline of its duty expires.

There are three ways to leave an entry behind (`Careful`): the call that holds a duty returns without
the answer `Scheduled`, as it does for an expired duty (`expired_instance_kept`); `handle`, which looks
the instance up after the answer, comes when the duty has expired and been cleaned up; and the
deadliner finds its channel full.  `leak_free_iff` says that there is no other way.
-/

namespace Pluto.Core.Deadline

variable {calculator : DeadlineCalculator} {due : Firing} {st st' : Deadliner} {a : Label}
  {duty : Duty}

/-- Scheduled, or waiting in the channel. -/
def Deadliner.Tracks (st : Deadliner) (duty : Duty) : Prop :=
  duty ∈ st.task.duties ∨ duty ∈ st.output.queue

/-- The deadliner takes up the duties that it answers with `Scheduled`, and forgets none. -/
lemma Deadliner.Step.tracks_add_iff {new : Duty} {outcome : AddOutcome}
    (step : Step calculator due st (.add new outcome) st') :
    st'.Tracks duty ↔ st.Tracks duty ∨ (duty = new ∧ outcome = .scheduled) := by
  cases step with
  | @add _ order later running forward visit =>
    unfold Tracks input
    rcases DeadlinerTask.handleInput_cases calculator order st.now later new st.task with
      ⟨houtcome, htask, -⟩ | ⟨_, -, -, houtcome, htask⟩
    · simp [htask, houtcome]
    · have hduties : (st.task.handleInput calculator order st.now later new).task.duties =
          insert new st.task.duties := by
        rcases htask with ⟨-, htask, -⟩ | ⟨-, htask, -⟩
        · rw [htask]
          rfl
        · rw [htask]
      simp only [hduties, houtcome, Finset.mem_insert, and_true]
      tauto
  | addStopped _ => simp

/-- A duty whose expiry finds the channel full is not scheduled any more. -/
lemma Deadliner.Step.of_full {time : DateTime}
    (step : Step calculator due st (.fire time (.full duty)) st') :
    st'.output = st.output ∧ duty ∉ st'.task.duties := by
  generalize hl : Label.fire time (.full duty) = l at step
  cases step with
  | @fire order running elapsed visit =>
    obtain ⟨-, hfired⟩ := Label.fire.inj hl
    rcases expire_cases calculator order st with
      ⟨-, heq⟩ | ⟨-, -, heq⟩ | ⟨-, -, output, fired, hsend, heq⟩ <;> rw [heq] at hfired ⊢
    · cases hfired
    · cases hfired
    · rcases hsend with ⟨-, rfl, -⟩ | ⟨-, rfl, rfl⟩
      · cases hfired
      · obtain rfl := Fired.full.inj hfired
        exact ⟨rfl, Finset.notMem_erase _ _⟩
  | _ => cases hl

/-- **How the deadliner can lose a duty**: it hands it out, or finds the channel full. -/
lemma Deadliner.Step.pending_cases (step : Step calculator due st a st') (hopen : a ≠ .close)
    (h : st.Tracks duty) :
    st'.Tracks duty ∨ a = .recv duty ∨ ∃ time, a = .fire time (.full duty) := by
  cases step with
  | tick _ | addStopped _ => exact .inl h
  | add running forward visit =>
    have hadd : Step calculator due st _ _ := .add running forward visit
    exact .inl (hadd.tracks_add_iff.mpr (.inl h))
  | @fire order running elapsed visit =>
    rcases expire_cases calculator order st with
      ⟨-, heq⟩ | ⟨-, -, heq⟩ | ⟨-, -, output, fired, hsend, heq⟩
    · rw [heq]
      exact .inl h
    · rw [heq]
      exact .inl h
    · rw [heq]
      rcases hsend with ⟨-, rfl, rfl⟩ | ⟨-, rfl, rfl⟩
      · -- the current duty moves to the channel
        refine .inl ?_
        rcases h with hmem | hmem
        · by_cases hcurr : duty = st.task.currDuty
          · exact .inr (by simp [hcurr])
          · exact .inl (Finset.mem_erase.mpr ⟨hcurr, hmem⟩)
        · exact .inr (List.mem_append_left _ hmem)
      · rcases h with hmem | hmem
        · by_cases hcurr : duty = st.task.currDuty
          · exact .inr (.inr ⟨_, by rw [hcurr]⟩)
          · exact .inl (.inl (Finset.mem_erase.mpr ⟨hcurr, hmem⟩))
        · exact .inl (.inr hmem)
  | @recv d rest queued =>
    rcases h with hmem | hmem
    · exact .inl (.inl hmem)
    · rw [queued] at hmem
      rcases List.mem_cons.mp hmem with rfl | hmem
      · exact .inr (.inl rfl)
      · exact .inl (.inr hmem)
  | close => exact absurd rfl hopen
  | cancel => exact .inl h

end Pluto.Core.Deadline

namespace Pluto.Consensus

open Pluto.Core (Duty)
open Pluto.Core.Deadline

/-- The call has got the instance of the duty, and no answer of the deadliner yet. -/
def Call.InHand (duty : Duty) : Call → Prop
  | .entered _ d _ | .marked d _ | .ready _ d _ | .starting d _ => d = duty
  | _ => False

namespace Process

variable {ι SK PK : Type} [DecidableEq ι] [DecidableEq PK] {node : Node SK PK} {st st' : Process ι}
  {l : LifecycleLabel} {duty : Duty}

/-- The component has an instance of the duty. -/
def Has (st : Process ι) (duty : Duty) : Prop := ∃ id, st.instances.lookup duty = some id

/-- The cleanup task keeps a duty until it has removed its instance. -/
lemma Step.cleaner_cases (step : Step node st l st') (h : st.cleaner = some duty) :
    st'.cleaner = some duty ∨ ¬ st'.Has duty := by
  cases step with
  | enter _ _ | queue _ => exact .inl ((getInstanceIo_cleaner _ st).trans h)
  | expire free => rw [h] at free; cases free
  | @remove d held =>
    obtain rfl : duty = d := Option.some.inj (h.symm.trans held)
    refine .inr ?_
    rintro ⟨id, hid⟩
    rw [AList.lookup_erase] at hid
    cases hid
  | _ => exact .inl h

lemma calls_getInstanceIo (duty : Duty) (caller : ι) (call : Call) :
    ((st.getInstanceIo duty).2.setCall caller call).calls = Function.update st.calls caller call := by
  rcases getInstanceIo_cases duty st with ⟨_, -, heq⟩ | ⟨-, heq⟩ <;> rw [heq] <;> rfl

omit [DecidableEq ι] in
lemma has_getInstanceIo {d : Duty} : (st.getInstanceIo d).2.Has duty ↔ st.Has duty ∨ duty = d := by
  unfold Has
  rcases getInstanceIo_cases d st with ⟨id, hlookup, heq⟩ | ⟨-, heq⟩ <;> rw [heq]
  · refine ⟨.inl, ?_⟩
    rintro (hhas | rfl)
    · exact hhas
    · exact ⟨id, hlookup⟩
  · by_cases hd : duty = d
    · subst hd
      simp
    · simp [AList.lookup_insert_ne hd, hd]

/-- **What a step does to the map**: it moves one call, which may look up the instance of its duty, or
no call, and then adds no entry. -/
lemma Step.moves (step : Step node st l st') :
    (st'.calls = st.calls ∧ ∀ duty, st'.Has duty → st.Has duty) ∨
      (st'.cleaner = st.cleaner ∧ ∃ caller call, st'.calls = Function.update st.calls caller call ∧
        ((∀ duty, st'.Has duty ↔ st.Has duty) ∨
          ∃ d, (call.InHand d ∨ (st.calls caller = .queueing d ∧ call = .sending)) ∧
            ∀ duty, st'.Has duty ↔ st.Has duty ∨ duty = d)) := by
  cases step with
  | enter _ _ =>
    exact .inr ⟨getInstanceIo_cleaner _ _, _, _, calls_getInstanceIo _ _ _,
      .inr ⟨_, .inl rfl, fun _ => has_getInstanceIo⟩⟩
  | queue queueing =>
    exact .inr ⟨getInstanceIo_cleaner _ _, _, _, calls_getInstanceIo _ _ _,
      .inr ⟨_, .inr ⟨queueing, rfl⟩, fun _ => has_getInstanceIo⟩⟩
  | turn _ _ _ => exact .inl ⟨rfl, fun _ h => h⟩
  | expire _ => exact .inl ⟨rfl, fun _ h => h⟩
  | @remove d _ =>
    refine .inl ⟨rfl, fun duty => ?_⟩
    rintro ⟨id, hid⟩
    by_cases hd : duty = d
    · subst hd
      simp at hid
    · exact ⟨id, (AList.lookup_erase_ne hd).symm.trans hid⟩
  | _ => exact .inr ⟨rfl, _, _, rfl, .inl fun _ => Iff.rfl⟩

/-- `handle` has an entry for its duty when it sends. -/
lemma Step.has_of_queueing {caller : ι} (step : Step node st l st')
    (hcall : st.calls caller = .queueing duty) (hcall' : st'.calls caller = .sending) :
    l = .internal ∧ st'.Has duty := by
  have hmoved : ∀ {c : ι} {call : Call}, st'.calls = Function.update st.calls c call →
      st.calls c = .queueing duty ∧ call = .sending := by
    intro c call heq
    rw [heq] at hcall'
    by_cases hc : caller = c
    · subst hc
      exact ⟨hcall, by simpa using hcall'⟩
    · rw [Function.update_of_ne hc, hcall] at hcall'
      cases hcall'
  cases step with
  | @queue c d queueing =>
    obtain ⟨hsame, -⟩ := hmoved (calls_getInstanceIo d c .sending)
    rw [queueing] at hsame
    cases hsame
    exact ⟨rfl, has_getInstanceIo.mpr (.inr rfl)⟩
  | enter idle _ =>
    have hsame := (hmoved (calls_getInstanceIo _ _ _)).2
    cases hsame
  | turn _ _ _ | expire _ | remove _ => cases hcall.symm.trans hcall'
  | handle _ _ | leave _ | launch _ _ | launchFailed _ _ => cases (hmoved rfl).2
  | mark held | send _ _ _ held | start held | schedule _ held | answer _ held =>
    cases held.symm.trans (hmoved rfl).1

end Process

/-! ## The process beside its deadliner -/

section System

variable {ι SK PK : Type} [DecidableEq ι] [DecidableEq PK] {node : Node SK PK}
  {calculator : DeadlineCalculator} {due : Firing} {p p' : Deadliner × Process ι}
  {l : Label ⊕ LifecycleLabel}

/-- The steps of a process and its deadliner as long as neither is shut down. -/
def OpenStep (calculator : DeadlineCalculator) (due : Firing) (node : Node SK PK)
    (p : Deadliner × Process ι) (l : Label ⊕ LifecycleLabel) (p' : Deadliner × Process ι) : Prop :=
  Product (Deadliner.Step calculator due) (Process.Step node) takenAlone LifecycleLabel.sync p l p' ∧
    l ≠ .inl .close ∧ l ≠ .inl .cancel

/-- The duty is bound to reach the cleanup task, or is there. -/
def Awaited (p : Deadliner × Process ι) (duty : Duty) : Prop :=
  p.1.Tracks duty ∨ p.2.cleaner = some duty

/-- The duty is awaited, or in the hands of a call that has not had its answer. -/
def Pending (p : Deadliner × Process ι) (duty : Duty) : Prop :=
  Awaited p duty ∨ ∃ caller, (p.2.calls caller).InHand duty

def LeakFree (p : Deadliner × Process ι) : Prop := ∀ duty, p.2.Has duty → Pending p duty

/-- What a step has to respect, said of the state it starts from and the answer of the deadliner. -/
structure Careful (p : Deadliner × Process ι) (l : Label ⊕ LifecycleLabel)
    (p' : Deadliner × Process ι) : Prop where
  /-- A call gives up a duty with an instance once it is scheduled, or if it is pending anyway. -/
  answered : ∀ caller duty, (p.2.calls caller).InHand duty → ¬ (p'.2.calls caller).InHand duty →
    p.2.Has duty → l = .inr (.add duty .scheduled) ∨ Awaited p duty ∨
      ∃ other ≠ caller, (p.2.calls other).InHand duty
  /-- `handle` looks the instance up while the duty is pending. -/
  created : ∀ caller duty, p.2.calls caller = .queueing duty → p'.2.calls caller = .sending →
    Pending p duty
  /-- An expiry that finds the channel full is of a duty that has no instance, or is pending anyway. -/
  delivered : ∀ duty time, l = .inl (.fire time (.full duty)) → p.2.Has duty →
    duty ∈ p.1.output.queue ∨ p.2.cleaner = some duty ∨ ∃ caller, (p.2.calls caller).InHand duty

variable {duty : Duty} (hstep : OpenStep calculator due node p l p')

include hstep

/-- An awaited duty stays so until its instance is removed, or the channel is full. -/
lemma Awaited.step (h : Awaited p duty) :
    Awaited p' duty ∨ ¬ p'.2.Has duty ∨ ∃ time, l = .inl (.fire time (.full duty)) := by
  obtain ⟨hstep, hopen, -⟩ := hstep
  cases hstep with
  | left free step =>
    rcases h with htracks | hcleaner
    · rcases step.pending_cases (fun h => hopen (congrArg Sum.inl h)) htracks with
        hkept | rfl | ⟨time, rfl⟩
      · exact .inl (.inl hkept)
      · exact free.elim
      · exact .inr (.inr ⟨time, rfl⟩)
    · exact .inl (.inr hcleaner)
  | right free step =>
    rcases h with htracks | hcleaner
    · exact .inl (.inl htracks)
    · exact (step.cleaner_cases hcleaner).imp .inr .inl
  | @both _ _ _ _ a b meet step step' =>
    rcases h with htracks | hcleaner
    · have hshared : a ≠ .close ∧ ∀ time, a ≠ .fire time (.full duty) := by
        cases b with
        | add _ _ | expired _ =>
          obtain rfl := Option.some.inj meet
          exact ⟨nofun, fun _ => nofun⟩
        | _ => cases meet
      rcases step.pending_cases hshared.1 htracks with hkept | rfl | ⟨time, hfull⟩
      · exact .inl (.inl hkept)
      · cases step' with
        | expire _ =>
          cases meet
          exact .inl (.inr rfl)
        | _ => cases meet
      · exact absurd hfull (hshared.2 time)
    · exact (step'.cleaner_cases hcleaner).imp .inr .inl

/-- A duty becomes awaited by the answer `Scheduled`, as far as steps of calls go. -/
lemma Awaited.of_step (h : Awaited p' duty) (hmoved : p'.2.calls ≠ p.2.calls) :
    Awaited p duty ∨ l = .inr (.add duty .scheduled) := by
  have hcleaner : ∀ {b}, Process.Step node p.2 b p'.2 → p'.2.cleaner = some duty →
      Awaited p duty := by
    intro b step hheld
    rcases step.moves with ⟨hcalls, -⟩ | ⟨hsame, -⟩
    · exact absurd hcalls hmoved
    · exact .inr (hsame.symm.trans hheld)
  obtain ⟨hstep, -, -⟩ := hstep
  cases hstep with
  | left free step => exact absurd rfl hmoved
  | right free step => exact .inl (h.elim .inl (hcleaner step))
  | @both _ _ _ _ a b meet step step' =>
    rcases h with htracks | hheld
    · cases b with
      | add new outcome =>
        obtain rfl := Option.some.inj meet
        rcases step.tracks_add_iff.mp htracks with htracks | ⟨rfl, rfl⟩
        · exact .inl (.inl htracks)
        · exact .inr rfl
      | expired _ =>
        cases step'
        exact absurd rfl hmoved
      | _ => cases meet
    · exact .inl (hcleaner step' hheld)

/-- A step that is not the deadliner's alone is one of the process. -/
lemma OpenStep.process (hmoved : p'.2 ≠ p.2) :
    ∃ b, l = .inr b ∧ Process.Step node p.2 b p'.2 :=
  hstep.1.snd_cases.resolve_right fun ⟨_, _, hsame⟩ => hmoved hsame

/-- A step moves one call, and leaves the others and the entries where they are. -/
lemma OpenStep.others {caller : ι} (hmoved : p'.2.calls caller ≠ p.2.calls caller) :
    (∀ other ≠ caller, p'.2.calls other = p.2.calls other) ∧
      ∀ duty, p.2.Has duty → p'.2.Has duty := by
  obtain ⟨b, -, step⟩ := hstep.process fun heq => hmoved (by rw [heq])
  rcases step.moves with ⟨hcalls, -⟩ | ⟨-, c, call, hcalls, hhas⟩
  · exact absurd (congrFun hcalls caller) hmoved
  obtain rfl : caller = c := by
    by_contra hc
    exact hmoved (by rw [hcalls, Function.update_of_ne hc])
  refine ⟨fun other hne => by rw [hcalls, Function.update_of_ne hne], fun duty h => ?_⟩
  rcases hhas with hsame | ⟨d, -, hadded⟩
  · exact (hsame duty).mpr h
  · exact (hadded duty).mpr (.inl h)

/-- What is pending after a call has moved on was so before, without it. -/
lemma Pending.of_step (h : Pending p' duty) {caller : ι}
    (hmoved : p'.2.calls caller ≠ p.2.calls caller) (hgone : ¬ (p'.2.calls caller).InHand duty) :
    l = .inr (.add duty .scheduled) ∨ Awaited p duty ∨
      ∃ other ≠ caller, (p.2.calls other).InHand duty := by
  rcases h with hawaited | ⟨other, hother⟩
  · rcases hawaited.of_step hstep fun heq => hmoved (congrFun heq caller) with hbefore | hl
    · exact .inr (.inl hbefore)
    · exact .inl hl
  · have hne : other ≠ caller := by
      rintro rfl
      exact hgone hother
    rw [(hstep.others hmoved).1 other hne] at hother
    exact .inr (.inr ⟨other, hne, hother⟩)

lemma LeakFree.careful (h' : LeakFree p') : Careful p l p' := by
  refine ⟨fun caller duty hhand hgone hhas => ?_, fun caller duty hcall hcall' => ?_,
    fun duty time hfull hhas => ?_⟩
  · have hmoved : p'.2.calls caller ≠ p.2.calls caller := fun heq => hgone (by rwa [heq])
    exact (h' duty ((hstep.others hmoved).2 duty hhas)).of_step hstep hmoved hgone
  · have hmoved : p'.2.calls caller ≠ p.2.calls caller := by
      rw [hcall, hcall']
      nofun
    obtain ⟨b, rfl, step⟩ := hstep.process fun heq => hmoved (by rw [heq])
    obtain ⟨rfl, hhas⟩ := step.has_of_queueing hcall hcall'
    rcases (h' duty hhas).of_step hstep hmoved (by rw [hcall']; exact id) with
      hl | hawaited | ⟨other, -, hother⟩
    · cases hl
    · exact .inl hawaited
    · exact .inr ⟨other, hother⟩
  · subst hfull
    cases hstep.1 with
    | left _ step =>
      rcases h' duty hhas with ((hmem | hqueued) | hcleaner) | hhand
      · exact absurd hmem step.of_full.2
      · exact .inl (by rwa [step.of_full.1] at hqueued)
      · exact .inr (.inl hcleaner)
      · exact .inr (.inr hhand)

/-- An instance whose duty is awaited stays pending. -/
lemma Careful.pending_of_awaited (hcareful : Careful p l p') (h : Awaited p duty)
    (hhas : p.2.Has duty) (hhas' : p'.2.Has duty) : Pending p' duty := by
  rcases h.step hstep with hkept | hremoved | ⟨time, rfl⟩
  · exact .inl hkept
  · exact absurd hhas' hremoved
  have hcases := hcareful.delivered duty time rfl hhas
  cases hstep.1 with
  | left _ step =>
    rcases hcases with hqueued | hcleaner | hhand
    · exact .inl (.inl (.inr (by rwa [step.of_full.1])))
    · exact .inl (.inr hcleaner)
    · exact .inr hhand

lemma Careful.leakFree (hcareful : Careful p l p') (h : LeakFree p) : LeakFree p' := by
  intro duty hhas'
  by_cases hhas : p.2.Has duty
  · rcases h duty hhas with hawaited | ⟨caller, hhand⟩
    · exact hcareful.pending_of_awaited hstep hawaited hhas hhas'
    by_cases hgone : (p'.2.calls caller).InHand duty
    · exact .inr ⟨caller, hgone⟩
    have hmoved : p'.2.calls caller ≠ p.2.calls caller := fun heq => hgone (by rwa [heq])
    rcases hcareful.answered caller duty hhand hgone hhas with rfl | hawaited | ⟨other, hne, hother⟩
    · cases hstep.1 with
      | right free _ => cases free
      | both meet step _ =>
        obtain rfl := Option.some.inj meet
        exact .inl (.inl (step.tracks_add_iff.mpr (.inr ⟨rfl, rfl⟩)))
    · exact hcareful.pending_of_awaited hstep hawaited hhas hhas'
    · exact .inr ⟨other, by rwa [(hstep.others hmoved).1 other hne]⟩
  · -- a call has looked the instance up
    obtain ⟨b, rfl, step⟩ := hstep.process fun heq => hhas (by rwa [← heq])
    rcases step.moves with ⟨-, hno⟩ | ⟨-, caller, call, hcalls, hsame | ⟨d, hlooks, hadded⟩⟩
    · exact absurd (hno duty hhas') hhas
    · exact absurd ((hsame duty).mp hhas') hhas
    obtain rfl := ((hadded duty).mp hhas').resolve_left hhas
    have hcall' : p'.2.calls caller = call := by rw [hcalls, Function.update_self]
    rcases hlooks with hhand | ⟨hcall, rfl⟩
    · exact .inr ⟨caller, by rwa [hcall']⟩
    have hmoved : p'.2.calls caller ≠ p.2.calls caller := by
      rw [hcall, hcall']
      nofun
    rcases hcareful.created caller duty hcall hcall' with hawaited | ⟨other, hother⟩
    · rcases hawaited.step hstep with hkept | hremoved | ⟨time, hl⟩
      · exact .inl hkept
      · exact absurd hhas' hremoved
      · cases hl
    · have hne : other ≠ caller := by
        rintro rfl
        rw [hcall] at hother
        exact hother
      exact .inr ⟨other, by rwa [(hstep.others hmoved).1 other hne]⟩

omit hstep in
/-- **When instances do not leak.**  The runs in which every instance stays bound to be removed, or is
of a duty that a call is about to have scheduled, are those whose steps are careful. -/
theorem leak_free_iff {now : DateTime} {tr : List (Label ⊕ LifecycleLabel)} :
    Trace (fun p l p' => OpenStep calculator due node p l p' ∧ LeakFree p')
        (Deadliner.start now, Process.start ι) tr p ↔
      Trace (fun p l p' => OpenStep calculator due node p l p' ∧ Careful p l p')
        (Deadliner.start now, Process.start ι) tr p := by
  refine Trace.and_iff (fun duty hhas => ?_) fun p l p' h hstep =>
    ⟨fun h' => h'.careful hstep, fun hcareful => hcareful.leakFree hstep h⟩
  obtain ⟨id, hid⟩ := hhas
  cases hid

end System

open Again in
/-- `participate` is called for a duty whose deadline has passed: the call has returned, and the
instance is kept though nothing will remove it. -/
theorem expired_instance_kept : ∃ tr p,
    Trace (OpenStep calculator strictlyAfter node) (Deadliner.start t₁, Process.start Unit) tr p ∧
      p.2.calls () = .idle ∧ p.2.Has duty ∧ ¬ Pending p duty := by
  have hrefused : Deadliner.Step calculator strictlyAfter (Deadliner.start t₁)
      (.add duty .alreadyExpired) ((Deadliner.start t₁).input calculator [duty] t₁ duty) :=
    Deadliner.Step.add rfl le_rfl ⟨by simp, rfl⟩
  have hstart : Trace (OpenStep calculator strictlyAfter node)
    (Deadliner.start t₁, Process.start Unit) [] _ := Trace.nil
  have hopen := (((hstart.snoc ⟨.right rfl
    (@Process.Step.enter Unit _ Unit Unit _ node _ () .participate duty rfl rfl), nofun, nofun⟩).snoc
    ⟨.right rfl (@Process.Step.mark Unit _ Unit Unit _ node _ () .participate duty 0 rfl),
      nofun, nofun⟩).snoc
    ⟨.right rfl (@Process.Step.start Unit _ Unit Unit _ node _ () .participate duty 0 rfl),
      nofun, nofun⟩).snoc ⟨.both rfl hrefused
      (@Process.Step.schedule Unit _ Unit Unit _ node _ () duty 0 .alreadyExpired rfl), nofun, nofun⟩
  refine ⟨_, _, hopen, rfl, ⟨0, by decide⟩, ?_⟩
  rintro ((hscheduled | hcleaner) | ⟨caller, hhand⟩)
  · revert hscheduled
    unfold Deadliner.Tracks
    decide
  · cases hcleaner
  · exact hhand

end Pluto.Consensus
