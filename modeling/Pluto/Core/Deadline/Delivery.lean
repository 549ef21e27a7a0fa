import Pluto.Core.Deadline.Invariant

/-!
# What the receiver gets

The duties a run of the deadliner emits, and where a duty is that a caller was told is scheduled.

- `Deadliner.Past` relates the trace to the state: what is tracked was answered `Scheduled`, and
  what was emitted is due no later than anything still tracked.
- `Deadliner.Delivery` accounts for every scheduled duty as long as the receiver stays open: the
  channel is bounded, and `handle_expired` removes the duty whether or not `try_send` had room.
- `emission_order` and `delivered_or_dropped` are the results for the receiver.
-/

namespace Pluto.Core.Deadline

variable {calculator : DeadlineCalculator}

/-- The duty a label hands to the receiver. -/
def Label.emitted : Label → Option Duty
  | .fire _ (.sent duty) => some duty
  | _ => none

namespace Deadliner

open DeadlinerTask

variable {due : Firing} {st st' : Deadliner} {a : Label} {tr : List Label}

/-! ## Emissions -/

/-- The duties a run emitted, oldest first. -/
def emitted (tr : List Label) : List Duty := tr.filterMap Label.emitted

lemma emitted_snoc_of_none (h : a.emitted = none) : emitted (tr ++ [a]) = emitted tr := by
  simp [emitted, h]

lemma emitted_snoc_sent (time : DateTime) (duty : Duty) :
    emitted (tr ++ [.fire time (.sent duty)]) = emitted tr ++ [duty] := by
  simp [emitted, Label.emitted]

/-- The past of a run and its state: what was emitted is due no later than what is tracked. -/
structure Past (calculator : DeadlineCalculator) (tr : List Label) (st : Deadliner) : Prop where
  inv : Inv calculator st
  scheduled : ∀ duty ∈ st.task.duties, .add duty .scheduled ∈ tr
  added : ∀ duty ∈ emitted tr, .add duty .scheduled ∈ tr
  overdue : ∀ duty ∈ emitted tr, ∃ t, calculator duty = .ok (some t) ∧ t ≤ st.now ∧
    t ≤ st.task.currDeadline
  timely : ∀ time duty, .fire time (.sent duty) ∈ tr →
    ∃ t, calculator duty = .ok (some t) ∧ t ≤ time
  sorted : (emitted tr).Pairwise fun duty duty' => ∀ t t', calculator duty = .ok (some t) →
    calculator duty' = .ok (some t') → t ≤ t'

lemma past_start (now : DateTime) : Past calculator [] (start now) where
  inv := inv_start now
  scheduled := by simp [start, DeadlinerTask.start]
  added := by simp [emitted]
  overdue := by simp [emitted]
  timely := by simp
  sorted := List.Pairwise.nil

/-- A step that emits nothing keeps the past, if its new duties were answered `Scheduled` and the
current deadline does not fall behind what is already due. -/
lemma Past.quiet (h : Past calculator tr st) (hinv : Inv calculator st') (ha : a.emitted = none)
    (hnow : st.now ≤ st'.now)
    (hduties : ∀ duty ∈ st'.task.duties, duty ∈ st.task.duties ∨ a = .add duty .scheduled)
    (hbound : ∀ t, t ≤ st.now → t ≤ st.task.currDeadline → t ≤ st'.task.currDeadline) :
    Past calculator (tr ++ [a]) st' where
  inv := hinv
  scheduled := by
    intro duty hduty
    rcases hduties duty hduty with hold | rfl
    · exact List.mem_append_left _ (h.scheduled duty hold)
    · simp
  added := by
    intro duty hduty
    rw [emitted_snoc_of_none ha] at hduty
    exact List.mem_append_left _ (h.added duty hduty)
  overdue := by
    intro duty hduty
    rw [emitted_snoc_of_none ha] at hduty
    obtain ⟨t, ht, hpast, hcurr⟩ := h.overdue duty hduty
    exact ⟨t, ht, hpast.trans hnow, hbound t hpast hcurr⟩
  timely := by
    intro time duty hfire
    rcases List.mem_append.mp hfire with hold | hnew
    · exact h.timely time duty hold
    · rw [← List.mem_singleton.mp hnew] at ha
      simp [Label.emitted] at ha
  sorted := by
    rw [emitted_snoc_of_none ha]
    exact h.sorted

/-- The firing that hands the current duty to the receiver. -/
lemma Past.sent {order : List Duty} {output : OutputChannel} (h : Past calculator tr st)
    (visit : Enumerates order (st.task.duties.erase st.task.currDuty))
    (hmem : st.task.currDuty ∈ st.task.duties)
    (hcurr : calculator st.task.currDuty = .ok (some st.task.currDeadline))
    (hdue : st.task.currDeadline ≤ st.now) :
    Past calculator (tr ++ [.fire st.now (.sent st.task.currDuty)])
      { st with
        task := st.task.advance calculator order
        wakeAt := sleep st.now (st.task.advance calculator order)
        output := output } := by
  have hnext := h.inv.earliest.le_advance visit
  refine ⟨⟨⟨st.now, le_rfl, rfl⟩, h.inv.earliest.advance visit⟩, ?_, ?_, ?_, ?_, ?_⟩
  · intro duty hduty
    exact List.mem_append_left _ (h.scheduled duty (Finset.mem_of_mem_erase hduty))
  · intro duty hduty
    rw [emitted_snoc_sent] at hduty
    refine List.mem_append_left _ ?_
    rcases List.mem_append.mp hduty with hold | hnew
    · exact h.added duty hold
    · rw [List.mem_singleton.mp hnew]
      exact h.scheduled _ hmem
  · intro duty hduty
    rw [emitted_snoc_sent] at hduty
    rcases List.mem_append.mp hduty with hold | hnew
    · obtain ⟨t, ht, hpast, hle⟩ := h.overdue duty hold
      exact ⟨t, ht, hpast, hle.trans hnext⟩
    · rw [List.mem_singleton.mp hnew]
      exact ⟨_, hcurr, hdue, hnext⟩
  · intro time duty hfire
    rcases List.mem_append.mp hfire with hold | hnew
    · exact h.timely time duty hold
    · obtain ⟨rfl, ⟨⟨⟩⟩⟩ : time = st.now ∧ Fired.sent duty = .sent st.task.currDuty := by
        simpa using hnew
      exact ⟨_, hcurr, hdue⟩
  · rw [emitted_snoc_sent, List.pairwise_append]
    refine ⟨h.sorted, List.pairwise_singleton _ _, ?_⟩
    intro duty hduty duty' hduty' t t' ht ht'
    rw [List.mem_singleton.mp hduty', hcurr] at ht'
    obtain ⟨t'', ht'', -, hle⟩ := h.overdue duty hduty
    obtain rfl : t'' = t := Option.some.inj (Except.ok.inj (ht''.symm.trans ht))
    exact hle.trans (Option.some.inj (Except.ok.inj ht')).le

lemma Past.step (below : ∀ duty t, calculator duty = .ok (some t) → t < .maxUtc)
    (h : Past calculator tr st) (step : Step calculator notEarly st a st') :
    Past calculator (tr ++ [a]) st' := by
  have hinv : Inv calculator st' := h.inv.step step
  have hnow : st.now ≤ st'.now := step.now_le
  cases step with
  | @add duty order later running forward visit =>
    rcases handleInput_cases calculator order st.now later duty st.task with
      ⟨-, htask, -⟩ |
      ⟨deadline, hdeadline, hfuture, houtcome, ⟨-, htask, -⟩ | ⟨-, htask, -⟩⟩
    · refine h.quiet hinv rfl hnow ?_ ?_
      · intro d hd
        simp only [input, htask] at hd
        exact .inl hd
      · intro t _ hcurr
        simpa only [input, htask] using hcurr
    · refine h.quiet hinv rfl hnow ?_ ?_
      · intro d hd
        simp only [input, htask] at hd
        rcases Finset.mem_insert.mp hd with rfl | hold
        · exact .inr (by rw [houtcome])
        · exact .inl hold
      · intro t hpast hcurr
        refine hinv.earliest.bound fun d hd t' ht' => ?_
        simp only [input, htask] at hd
        rcases Finset.mem_insert.mp hd with rfl | hold
        · obtain rfl : deadline = t' := Option.some.inj (Except.ok.inj (hdeadline.symm.trans ht'))
          exact hpast.trans hfuture
        · obtain ⟨t'', ht'', hle⟩ := h.inv.earliest.le d hold
          obtain rfl : t'' = t' := Option.some.inj (Except.ok.inj (ht''.symm.trans ht'))
          exact hcurr.trans hle
    · refine h.quiet hinv rfl hnow ?_ ?_
      · intro d hd
        simp only [input, htask] at hd
        rcases Finset.mem_insert.mp hd with rfl | hold
        · exact .inr (by rw [houtcome])
        · exact .inl hold
      · intro t _ hcurr
        simpa only [input, htask] using hcurr
  | @fire order running elapsed visit =>
    rcases expire_cases calculator order st with
      ⟨-, hst⟩ | ⟨-, -, hst⟩ | ⟨hne, -, output, fired, ⟨-, rfl, -⟩ | ⟨-, rfl, -⟩, hst⟩ <;>
      rw [hst] at hinv hnow ⊢
    · exact h.quiet hinv rfl hnow (fun _ hd => .inl hd) (fun _ _ hcurr => hcurr)
    · exact h.quiet hinv rfl hnow (fun _ hd => .inl hd) (fun _ _ hcurr => hcurr)
    · obtain ⟨hmem, hcurr⟩ := h.inv.earliest.curr_of_below below hne
      exact h.sent visit hmem hcurr (h.inv.elapsed_iff.mp elapsed)
    · refine h.quiet hinv rfl hnow (fun _ hd => .inl (Finset.mem_of_mem_erase hd)) ?_
      exact fun _ _ hcurr => hcurr.trans (h.inv.earliest.le_advance visit)
  | _ => exact h.quiet hinv rfl hnow (fun _ hd => .inl hd) (fun _ _ hcurr => hcurr)

/-! ## Delivery -/

/-- The duties the receiver has taken, oldest first. -/
def received (tr : List Label) : List Duty :=
  tr.filterMap fun a => match a with
    | .recv duty => some duty
    | _ => none

/-- The timer of the duty fired when as many emitted duties as the channel holds had not been
received. -/
def Dropped (tr : List Label) (duty : Duty) : Prop :=
  ∃ pre time post, tr = pre ++ .fire time (.full duty) :: post ∧
    (emitted pre).length = (received pre).length + outputBuffer

/-- Where a duty that was answered `Scheduled` is, as long as the receiver stays open. -/
structure Delivery (tr : List Label) (st : Deadliner) : Prop where
  isOpen : st.output.closed = false
  unreceived : (emitted tr).length = (received tr).length + st.output.queue.length
  bounded : st.output.queue.length ≤ outputBuffer
  somewhere : ∀ duty, .add duty .scheduled ∈ tr →
    duty ∈ st.task.duties ∨ duty ∈ st.output.queue ∨ .recv duty ∈ tr ∨ Dropped tr duty

lemma Dropped.snoc {duty : Duty} (h : Dropped tr duty) (a : Label) : Dropped (tr ++ [a]) duty := by
  obtain ⟨pre, time, post, rfl, hcount⟩ := h
  exact ⟨pre, time, post ++ [a], by simp, hcount⟩

lemma delivery_start (now : DateTime) : Delivery [] (start now) where
  isOpen := rfl
  unreceived := rfl
  bounded := Nat.zero_le _
  somewhere := by simp

/-- A tracked duty stays, is sent or is dropped, and a queued one stays or is received: so no
scheduled duty gets lost. -/
lemma Delivery.located (h : Delivery tr st)
    (hadd : ∀ duty, a = .add duty .scheduled → duty ∈ st'.task.duties)
    (htracked : ∀ duty ∈ st.task.duties,
      duty ∈ st'.task.duties ∨ duty ∈ st'.output.queue ∨ Dropped (tr ++ [a]) duty)
    (hqueued : ∀ duty ∈ st.output.queue, duty ∈ st'.output.queue ∨ a = .recv duty) :
    ∀ duty, .add duty .scheduled ∈ tr ++ [a] → duty ∈ st'.task.duties ∨
      duty ∈ st'.output.queue ∨ .recv duty ∈ tr ++ [a] ∨ Dropped (tr ++ [a]) duty := by
  intro duty hduty
  rcases List.mem_append.mp hduty with hold | hnew
  · rcases h.somewhere duty hold with hmem | hmem | hrecv | hdropped
    · rcases htracked duty hmem with htracked | hqueued | hdropped
      · exact .inl htracked
      · exact .inr (.inl hqueued)
      · exact .inr (.inr (.inr hdropped))
    · rcases hqueued duty hmem with hqueued | rfl
      · exact .inr (.inl hqueued)
      · exact .inr (.inr (.inl (by simp)))
    · exact .inr (.inr (.inl (List.mem_append_left _ hrecv)))
    · exact .inr (.inr (.inr (hdropped.snoc a)))
  · exact .inl (hadd duty (List.mem_singleton.mp hnew).symm)

/-- A step that leaves the channel as it is, and loses no tracked duty. -/
lemma Delivery.quiet (h : Delivery tr st) (houtput : st'.output = st.output)
    (hemitted : a.emitted = none) (hreceived : ∀ duty, a ≠ .recv duty)
    (hadd : ∀ duty, a = .add duty .scheduled → duty ∈ st'.task.duties)
    (hkeep : ∀ duty ∈ st.task.duties, duty ∈ st'.task.duties ∨ Dropped (tr ++ [a]) duty) :
    Delivery (tr ++ [a]) st' where
  isOpen := by rw [houtput, h.isOpen]
  unreceived := by
    have hrecv : received (tr ++ [a]) = received tr := by
      cases a with
      | recv duty => exact absurd rfl (hreceived duty)
      | _ => simp [received]
    rw [emitted_snoc_of_none hemitted, hrecv, houtput, h.unreceived]
  bounded := by
    rw [houtput]
    exact h.bounded
  somewhere := by
    apply h.located hadd
    · intro duty hduty
      exact (hkeep duty hduty).imp_right .inr
    · intro duty hduty
      rw [houtput]
      exact .inl hduty

lemma Delivery.step (h : Delivery tr st) (hopen : a ≠ .close)
    (step : Step calculator due st a st') : Delivery (tr ++ [a]) st' := by
  cases step with
  | @add duty order later running forward visit =>
    rcases handleInput_cases calculator order st.now later duty st.task with
      ⟨houtcome, htask, -⟩ |
      ⟨deadline, -, -, -, ⟨-, htask, -⟩ | ⟨-, htask, -⟩⟩
    · refine h.quiet rfl rfl (by simp) ?_ ?_
      · intro d hd
        simp only [Label.add.injEq] at hd
        exact absurd hd.2 houtcome
      · intro d hd
        simp only [input, htask]
        exact .inl hd
    all_goals
      refine h.quiet rfl rfl (by simp) ?_ ?_
      · intro d hd
        simp only [Label.add.injEq] at hd
        simp only [input, htask]
        exact Finset.mem_insert.mpr (.inl hd.1.symm)
      · intro d hd
        simp only [input, htask]
        exact .inl (Finset.mem_insert_of_mem hd)
  | @fire order running elapsed visit =>
    rcases expire_cases calculator order st with
      ⟨-, hst⟩ | ⟨-, hclosed, -⟩ |
      ⟨-, -, output, fired, ⟨hroom, rfl, rfl⟩ | ⟨hfull, rfl, rfl⟩, hst⟩
    · rw [hst]
      exact h.quiet rfl rfl (by simp) (by simp) fun _ hd => .inl hd
    · rw [h.isOpen] at hclosed
      exact absurd hclosed (by simp)
    · rw [hst]
      refine ⟨h.isOpen, ?_, ?_, ?_⟩
      · rw [emitted_snoc_sent, List.length_append, h.unreceived]
        simp [received]
        omega
      · show (st.output.queue ++ [st.task.currDuty]).length ≤ outputBuffer
        rw [List.length_append]
        exact hroom
      · apply h.located (by simp)
        · intro duty hduty
          by_cases hcurr : duty = st.task.currDuty
          · exact .inr (.inl (by simp [hcurr]))
          · exact .inl (Finset.mem_erase.mpr ⟨hcurr, hduty⟩)
        · intro duty hduty
          exact .inl (List.mem_append_left _ hduty)
    · rw [hst]
      refine h.quiet rfl rfl (by simp) (by simp) ?_
      intro duty hduty
      by_cases hcurr : duty = st.task.currDuty
      · have hlength : st.output.queue.length = outputBuffer := le_antisymm h.bounded hfull
        refine .inr ⟨tr, st.now, [], by rw [hcurr], ?_⟩
        rw [h.unreceived, hlength]
      · exact .inl (Finset.mem_erase.mpr ⟨hcurr, hduty⟩)
  | @recv duty rest queued =>
    refine ⟨h.isOpen, ?_, ?_, ?_⟩
    · have hcount := h.unreceived
      rw [queued, List.length_cons] at hcount
      rw [emitted_snoc_of_none rfl, hcount]
      simp [received]
      omega
    · have hbound := h.bounded
      rw [queued, List.length_cons] at hbound
      exact Nat.le_of_succ_le hbound
    · apply h.located (by simp)
      · intro d hd
        exact .inl hd
      · intro d hd
        rw [queued] at hd
        rcases List.mem_cons.mp hd with rfl | hrest
        · exact .inr rfl
        · exact .inl hrest
  | close => exact absurd rfl hopen
  | _ => exact h.quiet rfl rfl (by simp) (by simp) fun _ hd => .inl hd

/-! ## Duties that expire together -/

section Together

def epoch : DateTime := ⟨0, zero_mem_utc⟩

/-- Every duty expires at the epoch. -/
def together : DeadlineCalculator := fun _ => .ok (some epoch)

lemma together_below (duty : Duty) (t : DateTime) (h : together duty = .ok (some t)) :
    t < .maxUtc := by
  obtain rfl : epoch = t := Option.some.inj (Except.ok.inj h)
  decide

/-- The duties of a list are tracked and the first of them is the current one. -/
def tracked (duties : List Duty) : DeadlinerTask :=
  ⟨duties.toFinset, duties.headD sentinelDuty, if duties = [] then .maxUtc else epoch⟩

def atEpoch (duties queue : List Duty) : Deadliner where
  task := tracked duties
  wakeAt := sleep epoch (tracked duties)
  output := ⟨queue, false⟩
  now := epoch
  running := true

lemma foldl_together (order : List Duty) (duty : Duty) :
    order.foldl (earlier together) (duty, epoch) = (duty, epoch) := by
  induction order with
  | nil => rfl
  | cons d order ih =>
    rw [List.foldl_cons]
    exact ih

/-- The first duty visited becomes the current one. -/
lemma recomputeCurr_together (order : List Duty) (task : DeadlinerTask) :
    task.recomputeCurr together order =
      ⟨task.duties, order.headD sentinelDuty, if order = [] then .maxUtc else epoch⟩ := by
  cases order with
  | nil => rfl
  | cons duty order =>
    have hfirst : earlier together (sentinelDuty, .maxUtc) duty = (duty, epoch) := by
      show (if epoch < DateTime.maxUtc then (duty, epoch) else (sentinelDuty, DateTime.maxUtc)) = _
      exact if_pos (by decide)
    simp [recomputeCurr, hfirst, foldl_together]

lemma enumerates_toFinset {duties : List Duty} (h : duties.Nodup) :
    Enumerates duties duties.toFinset := ⟨h, rfl⟩

lemma step_add {duties queue : List Duty} {duty : Duty} (h : (duties ++ [duty]).Nodup) :
    Step together notEarly (atEpoch duties queue) (.add duty .scheduled)
      (atEpoch (duties ++ [duty]) queue) := by
  have hset : insert duty duties.toFinset = (duties ++ [duty]).toFinset := by
    ext d
    simp only [Finset.mem_insert, List.mem_toFinset, List.mem_append, List.mem_singleton, or_comm]
  have hstep := @Step.add together notEarly (atEpoch duties queue) duty (duties ++ [duty]) epoch rfl
    le_rfl (hset ▸ enumerates_toFinset h)
  cases duties with
  | nil =>
    simpa [atEpoch, tracked, input, sleep, handleInput, together, recomputeCurr_together,
      show epoch < DateTime.maxUtc by decide] using hstep
  | cons first duties =>
    have hset' : insert duty (insert first duties.toFinset) =
        insert first (duties ++ [duty]).toFinset := by
      simpa using hset
    simpa [atEpoch, tracked, input, sleep, remainingDuration, handleInput, together, hset']
      using hstep

/-- The state after the current duty is removed. -/
lemma advance_atEpoch {duty : Duty} {duties : List Duty} (queue : List Duty)
    (h : (duty :: duties).Nodup) :
    Enumerates duties
        ((atEpoch (duty :: duties) queue).task.duties.erase
          (atEpoch (duty :: duties) queue).task.currDuty) ∧
      (atEpoch (duty :: duties) queue).task.advance together duties =
        (atEpoch duties queue).task := by
  obtain ⟨hfresh, hnodup⟩ := List.nodup_cons.mp h
  have herase : (duty :: duties).toFinset.erase duty = duties.toFinset := by
    rw [List.toFinset_cons]
    exact Finset.erase_insert (by simpa using hfresh)
  refine ⟨⟨hnodup, herase.symm⟩, ?_⟩
  show DeadlinerTask.recomputeCurr together duties
    ⟨(duty :: duties).toFinset.erase duty, duty, _⟩ = _
  rw [recomputeCurr_together, herase]
  rfl

lemma elapsed_atEpoch (duty : Duty) (duties queue : List Duty) :
    notEarly (atEpoch (duty :: duties) queue).wakeAt epoch :=
  ((tracked (duty :: duties)).elapsed_iff le_rfl).mpr (le_refl epoch)

lemma step_fire {duty : Duty} {duties queue : List Duty} (h : (duty :: duties).Nodup) :
    if queue.length < outputBuffer then
      Step together notEarly (atEpoch (duty :: duties) queue) (.fire epoch (.sent duty))
        (atEpoch duties (queue ++ [duty]))
    else Step together notEarly (atEpoch (duty :: duties) queue) (.fire epoch (.full duty))
      (atEpoch duties queue) := by
  obtain ⟨visit, hadvance⟩ := advance_atEpoch queue h
  have hstep := @Step.fire together notEarly (atEpoch (duty :: duties) queue) duties rfl
    (elapsed_atEpoch duty duties queue) visit
  generalize hexpire : (atEpoch (duty :: duties) queue).expire together duties = result at hstep
  rcases expire_cases together duties (atEpoch (duty :: duties) queue) with
    ⟨hempty, -⟩ | ⟨-, hclosed, -⟩ | ⟨-, -, _, _, ⟨hroom, rfl, rfl⟩ | ⟨hfull, rfl, rfl⟩, hst⟩
  · simp [atEpoch, tracked] at hempty
  · simp [atEpoch] at hclosed
  · rw [← hexpire, hst, hadvance] at hstep
    exact (if_pos hroom).mpr hstep
  · rw [← hexpire, hst, hadvance] at hstep
    exact (if_neg (not_lt.mpr hfull)).mpr hstep

lemma step_sent {duty : Duty} {duties queue : List Duty} (h : (duty :: duties).Nodup)
    (hroom : queue.length < outputBuffer) :
    Step together notEarly (atEpoch (duty :: duties) queue) (.fire epoch (.sent duty))
      (atEpoch duties (queue ++ [duty])) :=
  (if_pos hroom).mp (step_fire h)

lemma trace_adds {duties : List Duty} (h : duties.Nodup) :
    Trace (Step together notEarly) (start epoch) (duties.map (.add · .scheduled))
      (atEpoch duties []) := by
  induction duties using List.reverseRecOn with
  | nil => exact Trace.nil
  | append_singleton duties duty ih =>
    rw [List.map_append]
    exact (ih (List.Nodup.of_append_left h)).snoc (step_add h)

lemma trace_sent {duties rest queue : List Duty} (h : (duties ++ rest).Nodup)
    (hroom : (queue ++ duties).length ≤ outputBuffer) :
    Trace (Step together notEarly) (atEpoch (duties ++ rest) queue)
      (duties.map (.fire epoch <| .sent ·)) (atEpoch rest (queue ++ duties)) := by
  induction duties generalizing queue with
  | nil => simpa using Trace.nil
  | cons duty duties ih =>
    have hfirst : queue.length < outputBuffer := by
      rw [List.length_append, List.length_cons] at hroom
      omega
    have hrest : Trace (Step together notEarly) (atEpoch (duties ++ rest) (queue ++ [duty]))
        (duties.map (.fire epoch <| .sent ·)) (atEpoch rest (queue ++ [duty] ++ duties)) :=
      ih (List.nodup_cons.mp h).2 (by simpa using hroom)
    rw [List.append_assoc] at hrest
    exact (Trace.single (step_sent h hfirst)).append hrest

/-- Eleven duties that expire together, and nobody receives. -/
def eleven : List Duty := (List.range 11).map fun slot => ⟨.ofNat slot, .attester⟩

def elevenTrace : List Label :=
  eleven.map (.add · .scheduled) ++ (eleven.take 10).map (.fire epoch <| .sent ·) ++
    [.fire epoch (.full ⟨10, .attester⟩)]

lemma trace_eleven :
    Trace (Step together notEarly) (start epoch) elevenTrace (atEpoch [] (eleven.take 10)) := by
  have hadds : Trace (Step together notEarly) (start epoch) (eleven.map (.add · .scheduled))
      (atEpoch (eleven.take 10 ++ [⟨10, .attester⟩]) []) := trace_adds (by decide)
  have hsent := hadds.append (trace_sent (by decide) (by decide))
  exact hsent.snoc (@step_fire ⟨10, .attester⟩ [] (eleven.take 10) (by decide))

end Together

/-! ## Results -/

/-- **Emission order.**  In every state the current pair is a minimum-deadline element of the
tracked duties, or the sentinel if there are none.  No duty is emitted before its deadline, every
emitted duty was answered `Scheduled`, and the deadlines of the emitted duties do not decrease. -/
theorem emission_order (below : ∀ duty t, calculator duty = .ok (some t) → t < .maxUtc)
    {now : DateTime} (run : Trace (Step calculator notEarly) (start now) tr st) :
    (st.task.duties = ∅ →
      st.task.currDuty = sentinelDuty ∧ st.task.currDeadline = .maxUtc) ∧
    (st.task.duties ≠ ∅ →
      st.task.currDuty ∈ st.task.duties ∧
      calculator st.task.currDuty = .ok (some st.task.currDeadline) ∧
      ∀ duty ∈ st.task.duties, ∃ t, calculator duty = .ok (some t) ∧ st.task.currDeadline ≤ t) ∧
    (∀ time duty, .fire time (.sent duty) ∈ tr →
      ∃ t, calculator duty = .ok (some t) ∧ t ≤ time) ∧
    (∀ duty ∈ emitted tr, .add duty .scheduled ∈ tr) ∧
    (emitted tr).Pairwise fun duty duty' => ∀ t t', calculator duty = .ok (some t) →
      calculator duty' = .ok (some t') → t ≤ t' := by
  have h : Past calculator tr st :=
    Trace.induction (E := fun _ => True) (past_start now)
      (fun _ _ _ _ _ hpast hstep => hpast.step below hstep) run
      fun _ _ => trivial
  refine ⟨?_, ?_, h.timely, h.added, h.sorted⟩
  · intro hempty
    rcases h.inv.earliest.curr with hsentinel | ⟨hmem, -⟩
    · exact hsentinel
    · rw [hempty] at hmem
      exact absurd hmem (Finset.notMem_empty _)
  · intro hne
    obtain ⟨hmem, hcurr⟩ := h.inv.earliest.curr_of_below below hne
    exact ⟨hmem, hcurr, h.inv.earliest.le⟩

/-- The sentinel is a duty like any other once a caller adds it. -/
theorem sentinel_emitted :
    ¬ ∀ (calculator : DeadlineCalculator),
      (∀ duty t, calculator duty = .ok (some t) → t < .maxUtc) →
      ∀ (now : DateTime) (tr : List Label) (st : Deadliner),
        Trace (Step calculator notEarly) (start now) tr st → sentinelDuty ∉ emitted tr := by
  intro h
  have hadd := trace_adds (List.nodup_singleton sentinelDuty)
  have hrun := hadd.snoc (step_sent (List.nodup_singleton _) (by decide))
  exact h together together_below epoch _ _ hrun (by decide)

theorem emission_order_together :
    let tr : List Label :=
      [.add ⟨1, .attester⟩ .scheduled, .add ⟨2, .attester⟩ .scheduled,
        .fire epoch (.sent ⟨1, .attester⟩)]
    Trace (Step together notEarly) (start epoch) tr
        (atEpoch [⟨2, .attester⟩] [⟨1, .attester⟩]) ∧
      ∀ duty ∈ emitted tr, .add duty .scheduled ∈ tr := by
  have hrun := (trace_adds (show [(⟨1, .attester⟩ : Duty), ⟨2, .attester⟩].Nodup by decide)).snoc
    (step_sent (by decide) (by decide))
  exact ⟨hrun, (emission_order together_below hrun).2.2.2.1⟩

/-- **No silent loss.**  As long as the receiver stays open, a duty that was answered `Scheduled` is
tracked, in the channel, received, or was dropped because its timer fired on a full channel.  Once
all timers have fired and the channel is drained, it was received or dropped so. -/
theorem delivered_or_dropped {now : DateTime}
    (run : Trace (Step calculator due) (start now) tr st) (hopen : .close ∉ tr) {duty : Duty}
    (hadd : .add duty .scheduled ∈ tr) :
    (duty ∈ st.task.duties ∨ duty ∈ st.output.queue ∨ .recv duty ∈ tr ∨ Dropped tr duty) ∧
    (st.task.duties = ∅ → st.output.queue = [] → .recv duty ∈ tr ∨ Dropped tr duty) := by
  have h : Delivery tr st :=
    Trace.induction (E := fun a => a ≠ .close) (delivery_start now)
      (fun _ _ _ _ hne hpast hstep => hpast.step hne hstep) run
      fun a ha heq => hopen (heq ▸ ha)
  refine ⟨h.somewhere duty hadd, ?_⟩
  intro hfired hdrained
  rcases h.somewhere duty hadd with htracked | hqueued | hdone
  · rw [hfired] at htracked
    exact absurd htracked (Finset.notMem_empty _)
  · rw [hdrained] at hqueued
    exact absurd hqueued List.not_mem_nil
  · exact hdone

/-- A full channel loses a duty. -/
theorem full_channel_loses_duty :
    ¬ ∀ (calculator : DeadlineCalculator) (now : DateTime) (tr : List Label) (st : Deadliner),
      Trace (Step calculator notEarly) (start now) tr st → .close ∉ tr →
      ∀ duty, .add duty .scheduled ∈ tr →
        duty ∈ st.task.duties ∨ duty ∈ st.output.queue ∨ .recv duty ∈ tr := by
  intro h
  have hlost := h together epoch _ _ trace_eleven (by decide) ⟨10, .attester⟩ (by decide)
  revert hlost
  decide

theorem delivered_or_dropped_eleven : Dropped elevenTrace ⟨10, .attester⟩ := by
  have hadd : .add ⟨10, .attester⟩ .scheduled ∈ elevenTrace := by decide
  obtain ⟨hsomewhere, -⟩ := delivered_or_dropped trace_eleven (by decide) hadd
  rcases hsomewhere with htracked | hqueued | hrecv | hdropped
  · exact absurd htracked (by decide)
  · exact absurd hqueued (by decide)
  · exact absurd hrecv (by decide)
  · exact hdropped

end Deadliner

end Pluto.Core.Deadline
