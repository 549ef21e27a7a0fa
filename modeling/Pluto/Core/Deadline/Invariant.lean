import Pluto.Core.Deadline.Deadliner

/-!
# The invariant of the deadliner

What one step of the deadliner can do, and what every run keeps.

- `DeadlinerTask.Earliest` is the representation invariant of the task: the current pair is an
  earliest duty, or the sentinel if no tracked duty expires before `MAX_UTC`.  `Deadliner.Inv` adds
  that the sleep was set for it.
- `Deadliner.LateInv` is for timers that fire strictly late: whatever stands in the channel is past
  its deadline.  Such a duty is `Refused`, and the deadliner never schedules it again.
-/

namespace Pluto.Core.Deadline

variable {calculator : DeadlineCalculator}

namespace DeadlinerTask

/-- `recompute_curr` finds a deadline no later than any it visits, and it has either seen the pair
it returns or kept the one it started with. -/
lemma foldl_earlier (calculator : DeadlineCalculator) (order : List Duty)
    (curr : Duty × DateTime) :
    (order.foldl (earlier calculator) curr).2 ≤ curr.2 ∧
      (∀ duty ∈ order, ∀ t, calculator duty = .ok (some t) →
        (order.foldl (earlier calculator) curr).2 ≤ t) ∧
      (order.foldl (earlier calculator) curr = curr ∨
        (order.foldl (earlier calculator) curr).1 ∈ order ∧
          calculator (order.foldl (earlier calculator) curr).1 =
            .ok (some (order.foldl (earlier calculator) curr).2)) := by
  induction order generalizing curr with
  | nil => exact ⟨le_rfl, by simp, .inl rfl⟩
  | cons duty order ih =>
    rw [List.foldl_cons]
    obtain ⟨hle, hmin, hfrom⟩ := ih (earlier calculator curr duty)
    -- what the body of the loop does with the first duty
    have hbody : (earlier calculator curr duty).2 ≤ curr.2 ∧
        (∀ t, calculator duty = .ok (some t) → (earlier calculator curr duty).2 ≤ t) ∧
        (earlier calculator curr duty = curr ∨ (earlier calculator curr duty).1 = duty ∧
          calculator duty = .ok (some (earlier calculator curr duty).2)) := by
      unfold earlier
      split
      · rename_i deadline hdeadline
        split
        · rename_i hlt
          exact ⟨hlt.le, fun t ht => by simp_all, .inr ⟨rfl, hdeadline⟩⟩
        · rename_i hge
          exact ⟨le_rfl, fun t ht => by simp_all, .inl rfl⟩
      · exact ⟨le_rfl, fun t ht => by simp_all, .inl rfl⟩
      · exact ⟨le_rfl, fun t ht => by simp_all, .inl rfl⟩
    obtain ⟨hle', hmin', hfrom'⟩ := hbody
    refine ⟨hle.trans hle', ?_, ?_⟩
    · intro d hd t ht
      rcases List.mem_cons.mp hd with rfl | hd
      · exact hle.trans (hmin' t ht)
      · exact hmin d hd t ht
    · rcases hfrom with hkept | ⟨hmem, hdeadline⟩
      · rw [hkept]
        rcases hfrom' with hcurr | ⟨hduty, hdeadline⟩
        · exact .inl hcurr
        · rw [hduty]
          exact .inr ⟨List.mem_cons_self, hdeadline⟩
      · exact .inr ⟨List.mem_cons_of_mem _ hmem, hdeadline⟩

/-- The current pair is an earliest duty, or the sentinel. -/
structure Earliest (calculator : DeadlineCalculator) (task : DeadlinerTask) : Prop where
  le : ∀ duty ∈ task.duties, ∃ t, calculator duty = .ok (some t) ∧ task.currDeadline ≤ t
  curr : (task.currDuty = sentinelDuty ∧ task.currDeadline = .maxUtc) ∨
    (task.currDuty ∈ task.duties ∧ calculator task.currDuty = .ok (some task.currDeadline))

lemma earliest_start : Earliest calculator start :=
  ⟨by simp [start], .inl ⟨rfl, rfl⟩⟩

variable {task : DeadlinerTask} {order : List Duty}

/-- `recompute_curr` establishes the invariant if every tracked duty has a deadline. -/
lemma earliest_recomputeCurr (visit : Enumerates order task.duties)
    (hdeadline : ∀ duty ∈ task.duties, ∃ t, calculator duty = .ok (some t)) :
    Earliest calculator (task.recomputeCurr calculator order) := by
  obtain ⟨-, hmin, hfrom⟩ := foldl_earlier calculator order (sentinelDuty, .maxUtc)
  constructor
  · intro duty hduty
    obtain ⟨t, ht⟩ := hdeadline duty hduty
    exact ⟨t, ht, hmin duty (visit.mem_iff.mpr hduty) t ht⟩
  · rcases hfrom with hkept | ⟨hmem, hcurr⟩
    · refine .inl ⟨?_, ?_⟩
      · show (order.foldl (earlier calculator) (sentinelDuty, .maxUtc)).1 = sentinelDuty
        rw [hkept]
      · show (order.foldl (earlier calculator) (sentinelDuty, .maxUtc)).2 = .maxUtc
        rw [hkept]
    · exact .inr ⟨visit.mem_iff.mp hmem, hcurr⟩

/-- What `handle_input` can do. -/
lemma handleInput_cases (calculator : DeadlineCalculator) (order : List Duty)
    (now later : DateTime) (duty : Duty) (task : DeadlinerTask) :
    ((task.handleInput calculator order now later duty).outcome ≠ .scheduled ∧
      (task.handleInput calculator order now later duty).task = task ∧
      (task.handleInput calculator order now later duty).timer = none) ∨
    ∃ deadline, calculator duty = .ok (some deadline) ∧ now ≤ deadline ∧
      (task.handleInput calculator order now later duty).outcome = .scheduled ∧
      ((deadline < task.currDeadline ∧
          (task.handleInput calculator order now later duty).task =
            { task with duties := insert duty task.duties }.recomputeCurr calculator order ∧
          (task.handleInput calculator order now later duty).timer =
            some ((task.handleInput calculator order now later duty).task.remainingDuration later)) ∨
        (task.currDeadline ≤ deadline ∧
          (task.handleInput calculator order now later duty).task =
            { task with duties := insert duty task.duties } ∧
          (task.handleInput calculator order now later duty).timer = none)) := by
  unfold handleInput
  split
  · rename_i deadline hdeadline
    split
    · exact .inl ⟨by simp, rfl, rfl⟩
    · rename_i hfuture
      refine .inr ⟨deadline, hdeadline, not_lt.mp hfuture, ?_⟩
      dsimp only
      split
      · rename_i hearlier
        exact ⟨rfl, .inl ⟨hearlier, rfl, rfl⟩⟩
      · rename_i hlater
        exact ⟨rfl, .inr ⟨not_lt.mp hlater, rfl, rfl⟩⟩
  · exact .inl ⟨by simp, rfl, rfl⟩
  · exact .inl ⟨by simp, rfl, rfl⟩

/-- Duties that all have deadlines keep having them when the current one is removed. -/
lemma Earliest.advance (h : Earliest calculator task)
    (visit : Enumerates order (task.duties.erase task.currDuty)) :
    Earliest calculator (task.advance calculator order) := by
  refine earliest_recomputeCurr visit ?_
  intro duty hduty
  obtain ⟨t, ht, -⟩ := h.le duty (Finset.mem_of_mem_erase hduty)
  exact ⟨t, ht⟩

lemma Earliest.insert_recomputeCurr {duty : Duty}
    {deadline : DateTime} (h : Earliest calculator task)
    (visit : Enumerates order (insert duty task.duties))
    (hdeadline : calculator duty = .ok (some deadline)) :
    Earliest calculator
      ({ task with duties := insert duty task.duties }.recomputeCurr calculator order) := by
  refine earliest_recomputeCurr visit ?_
  intro d hd
  rcases Finset.mem_insert.mp hd with rfl | hd
  · exact ⟨deadline, hdeadline⟩
  · obtain ⟨t, ht, -⟩ := h.le d hd
    exact ⟨t, ht⟩

lemma Earliest.insert {duty : Duty} {deadline : DateTime}
    (h : Earliest calculator task) (hdeadline : calculator duty = .ok (some deadline))
    (hle : task.currDeadline ≤ deadline) :
    Earliest calculator { task with duties := insert duty task.duties } := by
  constructor
  · intro d hd
    rcases Finset.mem_insert.mp hd with rfl | hd
    · exact ⟨deadline, hdeadline, hle⟩
    · exact h.le d hd
  · exact h.curr.imp_right fun ⟨hmem, hcurr⟩ => ⟨Finset.mem_insert_of_mem hmem, hcurr⟩

/-- Below `MAX_UTC` the sentinel stands for the empty set only. -/
lemma Earliest.curr_of_below (h : Earliest calculator task)
    (below : ∀ duty t, calculator duty = .ok (some t) → t < .maxUtc) (hne : task.duties ≠ ∅) :
    task.currDuty ∈ task.duties ∧ calculator task.currDuty = .ok (some task.currDeadline) := by
  rcases h.curr with ⟨-, hmax⟩ | hcurr
  · obtain ⟨duty, hduty⟩ := Finset.nonempty_iff_ne_empty.mpr hne
    obtain ⟨t, ht, hle⟩ := h.le duty hduty
    rw [hmax] at hle
    exact absurd hle (not_le.mpr (below duty t ht))
  · exact hcurr

/-- No tracked duty is due before the current deadline, so a bound on all of them bounds it. -/
lemma Earliest.bound (h : Earliest calculator task) {t : DateTime}
    (hduties : ∀ duty ∈ task.duties, ∀ t', calculator duty = .ok (some t') → t ≤ t') :
    t ≤ task.currDeadline := by
  rcases h.curr with ⟨-, hmax⟩ | ⟨hmem, hcurr⟩
  · rw [hmax]
    exact t.le_maxUtc
  · exact hduties _ hmem _ hcurr

/-- The next deadline is no earlier than the one that has just passed. -/
lemma Earliest.le_advance (h : Earliest calculator task)
    (visit : Enumerates order (task.duties.erase task.currDuty)) :
    task.currDeadline ≤ (task.advance calculator order).currDeadline := by
  refine (h.advance visit).bound fun duty hduty t ht => ?_
  obtain ⟨t', ht', hle⟩ := h.le duty (Finset.mem_of_mem_erase hduty)
  obtain rfl : t' = t := Option.some.inj (Except.ok.inj (ht'.symm.trans ht))
  exact hle

end DeadlinerTask

namespace Deadliner

open DeadlinerTask

variable {due : Firing} {st st' : Deadliner} {a : Label}

/-- What a firing of the timer can do. -/
lemma expire_cases (calculator : DeadlineCalculator) (order : List Duty) (st : Deadliner) :
    (st.task.duties = ∅ ∧
      st.expire calculator order = ({ st with wakeAt := sleep st.now st.task }, .idle)) ∨
    (st.task.duties ≠ ∅ ∧ st.output.closed = true ∧
      st.expire calculator order = ({ st with running := false }, .closed st.task.currDuty)) ∨
    (st.task.duties ≠ ∅ ∧ st.output.closed = false ∧ ∃ output fired,
      ((st.output.queue.length < outputBuffer ∧ fired = .sent st.task.currDuty ∧
          output = { st.output with queue := st.output.queue ++ [st.task.currDuty] }) ∨
        (outputBuffer ≤ st.output.queue.length ∧ fired = .full st.task.currDuty ∧
          output = st.output)) ∧
      st.expire calculator order =
        ({ st with
            task := st.task.advance calculator order
            wakeAt := sleep st.now (st.task.advance calculator order)
            output := output }, fired)) := by
  unfold expire OutputChannel.trySend
  by_cases hempty : st.task.duties = ∅
  · exact .inl ⟨hempty, if_pos hempty⟩
  rw [if_neg hempty]
  refine .inr ?_
  cases hclosed : st.output.closed with
  | true => exact .inl ⟨hempty, rfl, rfl⟩
  | false =>
    refine .inr ⟨hempty, rfl, ?_⟩
    by_cases hroom : st.output.queue.length < outputBuffer
    · refine ⟨_, _, .inl ⟨hroom, rfl, rfl⟩, ?_⟩
      simp [hroom, hclosed]
    · refine ⟨_, _, .inr ⟨not_lt.mp hroom, rfl, rfl⟩, ?_⟩
      simp [hroom]

lemma Step.now_le (step : Step calculator due st a st') : st.now ≤ st'.now := by
  cases step with
  | tick forward => exact forward
  | add _ forward _ => exact forward
  | @fire order _ _ _ =>
    rcases expire_cases calculator order st with
      ⟨_, h⟩ | ⟨_, _, h⟩ | ⟨_, _, _, _, _, h⟩ <;> rw [h]
  | _ => exact le_rfl

/-! ## The representation invariant -/

/-- The current pair is an earliest one, and the sleep was set for it at some earlier time. -/
structure Inv (calculator : DeadlineCalculator) (st : Deadliner) : Prop where
  armed : ∃ t ≤ st.now, st.wakeAt = sleep t st.task
  earliest : st.task.Earliest calculator

lemma inv_start (now : DateTime) : Inv calculator (start now) :=
  ⟨⟨now, le_rfl, rfl⟩, earliest_start⟩

/-- The clock moves on, and neither the sleep nor the current deadline changes. -/
lemma Inv.armed_of_le (h : Inv calculator st) (hnow : st.now ≤ st'.now)
    (hwake : st'.wakeAt = st.wakeAt) (hcurr : st'.task.currDeadline = st.task.currDeadline) :
    ∃ t ≤ st'.now, st'.wakeAt = sleep t st'.task := by
  obtain ⟨t, ht, hset⟩ := h.armed
  refine ⟨t, ht.trans hnow, hwake.trans (hset.trans ?_)⟩
  rw [sleep, sleep, remainingDuration, remainingDuration, hcurr]

/-- The sleep has ended exactly when the current deadline has come. -/
lemma Inv.elapsed_iff (h : Inv calculator st) :
    notEarly st.wakeAt st.now ↔ st.task.currDeadline ≤ st.now := by
  obtain ⟨t, ht, hset⟩ := h.armed
  rw [notEarly, hset]
  exact DeadlinerTask.elapsed_iff ht

lemma Inv.step (h : Inv calculator st) (step : Step calculator due st a st') :
    Inv calculator st' := by
  cases step with
  | @add duty order later running forward visit =>
    rcases handleInput_cases calculator order st.now later duty st.task with
      ⟨-, htask, htimer⟩ |
      ⟨deadline, hdeadline, -, -, ⟨-, htask, htimer⟩ | ⟨hle, htask, htimer⟩⟩
    · refine ⟨h.armed_of_le forward ?_ ?_, ?_⟩
      · simp [input, htimer]
      · simp [input, htask]
      · simpa [input, htask] using h.earliest
    · refine ⟨⟨later, le_rfl, ?_⟩, ?_⟩
      · simp [input, htimer, sleep]
      · simpa only [input, htask] using h.earliest.insert_recomputeCurr visit hdeadline
    · refine ⟨h.armed_of_le forward ?_ ?_, ?_⟩
      · simp [input, htimer]
      · simp [input, htask]
      · simpa only [input, htask] using h.earliest.insert hdeadline hle
  | tick forward => exact ⟨h.armed_of_le forward rfl rfl, h.earliest⟩
  | @fire order running elapsed visit =>
    rcases expire_cases calculator order st with
      ⟨-, hst⟩ | ⟨-, -, hst⟩ | ⟨-, -, output, fired, -, hst⟩ <;> rw [hst]
    · exact ⟨⟨st.now, le_rfl, rfl⟩, h.earliest⟩
    · exact ⟨h.armed, h.earliest⟩
    · exact ⟨⟨st.now, le_rfl, rfl⟩, h.earliest.advance visit⟩
  | _ => exact ⟨h.armed, h.earliest⟩

/-! ## Timers that fire strictly late -/

/-- The deadline of a duty has passed. -/
def Expired (calculator : DeadlineCalculator) (now : DateTime) (duty : Duty) : Prop :=
  ∃ t, calculator duty = .ok (some t) ∧ t < now

/-- A duty has no deadline left to wait for. -/
def Refused (calculator : DeadlineCalculator) (now : DateTime) (duty : Duty) : Prop :=
  ∀ t, calculator duty = .ok (some t) → t < now

lemma Expired.mono {now now' : DateTime} {duty : Duty} (h : Expired calculator now duty)
    (hle : now ≤ now') : Expired calculator now' duty := by
  obtain ⟨t, ht, hlt⟩ := h
  exact ⟨t, ht, hlt.trans_le hle⟩

lemma Refused.mono {now now' : DateTime} {duty : Duty} (h : Refused calculator now duty)
    (hle : now ≤ now') : Refused calculator now' duty :=
  fun t ht => (h t ht).trans_le hle

lemma Expired.refused {now : DateTime} {duty : Duty} (h : Expired calculator now duty) :
    Refused calculator now duty := by
  obtain ⟨t, ht, hlt⟩ := h
  intro t' ht'
  obtain rfl : t = t' := Option.some.inj (Except.ok.inj (ht.symm.trans ht'))
  exact hlt

/-- The deadliner does not schedule what has no deadline left. -/
lemma Step.not_scheduled {duty : Duty} {outcome : AddOutcome}
    (h : Refused calculator st.now duty)
    (step : Step calculator due st (.add duty outcome) st') : outcome ≠ .scheduled := by
  cases step with
  | @add _ order later running forward visit =>
    rcases handleInput_cases calculator order st.now later duty st.task with
      ⟨houtcome, -, -⟩ | ⟨deadline, hdeadline, hfuture, -, -⟩
    · exact houtcome
    · exact absurd (h deadline hdeadline) (not_lt.mpr hfuture)
  | addStopped stopped => simp

/-- Whatever stands in the channel is past its deadline. -/
structure LateInv (calculator : DeadlineCalculator) (st : Deadliner) : Prop where
  inv : Inv calculator st
  late : ∀ duty ∈ st.output.queue, Expired calculator st.now duty

lemma lateInv_start (now : DateTime) : LateInv calculator (start now) :=
  ⟨inv_start now, by simp [start]⟩

/-- A timer that fires strictly late was set for a tracked duty: nothing is later than the deadline
of the sentinel. -/
lemma Inv.curr_of_late (h : Inv calculator st) (elapsed : strictlyAfter st.wakeAt st.now) :
    Expired calculator st.now st.task.currDuty := by
  have hlate : st.task.currDeadline < st.now := by
    obtain ⟨t, -, hset⟩ := h.armed
    rw [strictlyAfter, hset] at elapsed
    exact (st.task.le_add_remainingDuration t).trans_lt elapsed
  rcases h.earliest.curr with ⟨-, hmax⟩ | ⟨-, hcurr⟩
  · rw [hmax] at hlate
    exact absurd st.now.le_maxUtc (not_le.mpr hlate)
  · exact ⟨_, hcurr, hlate⟩

lemma LateInv.step (h : LateInv calculator st) (step : Step calculator strictlyAfter st a st') :
    LateInv calculator st' := by
  have hinv : Inv calculator st' := h.inv.step step
  have hnow : st.now ≤ st'.now := step.now_le
  refine ⟨hinv, ?_⟩
  have hkeep : ∀ duty ∈ st.output.queue, Expired calculator st'.now duty :=
    fun duty hduty => (h.late duty hduty).mono hnow
  cases step with
  | @fire order running elapsed visit =>
    rcases expire_cases calculator order st with
      ⟨-, hst⟩ | ⟨-, -, hst⟩ | ⟨-, -, output, fired, ⟨-, -, rfl⟩ | ⟨-, -, rfl⟩, hst⟩ <;>
      rw [hst] at hkeep ⊢
    · exact hkeep
    · exact hkeep
    · intro duty hduty
      rcases List.mem_append.mp hduty with hold | hnew
      · exact hkeep duty hold
      · rw [List.mem_singleton.mp hnew]
        exact h.inv.curr_of_late elapsed
    · exact hkeep
  | recv queued =>
    intro duty hduty
    refine hkeep duty ?_
    rw [queued]
    exact List.mem_cons_of_mem _ hduty
  | close => simp
  | _ => exact hkeep

end Deadliner

end Pluto.Core.Deadline
