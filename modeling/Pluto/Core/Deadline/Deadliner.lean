import Mathlib.Data.Finset.Basic
import Pluto.Core.Deadline.Calculator
import Pluto.Lib.Trace

/-!
# The deadliner

`DeadlinerTask` of `crates/core/src/deadline/mod.rs`: a background task that keeps a set of duties
and the earliest deadline among them, sleeps until that deadline, and emits the duty on a bounded
channel.  Duties are added through a handle, which gets an `AddOutcome` back.

The set is a hash set, and `recompute_curr` visits it in an unspecified order; the order is an
argument here.  The clock is part of the state and only moves forward.  The sleep is represented by
the nanosecond at which it ends, `remaining_duration` after the clock was read: `elapsed_iff` says
that sleeping so long and waiting for the deadline come to the same.  When a timer fires is a
parameter of the step relation, so that timers that are never early and timers that are strictly
late are two instances of one machine.

`Step` has one label for everything an observer can see: the answers to the callers, the firings
with what became of the duty, and the duties the receiver takes out of the channel.
-/

namespace Pluto.Core.Deadline

/-- Outcome of `DeadlinerHandle::add`. -/
inductive AddOutcome
  | scheduled
  | alreadyExpired
  | noDeadline
  | failedToCompute
  deriving DecidableEq, Repr

/-- The duty that stands for no duty. -/
def sentinelDuty : Duty := ⟨0, .unknown⟩

/-- A visit of every element of a hash set. -/
structure Enumerates (order : List Duty) (duties : Finset Duty) : Prop where
  nodup : order.Nodup
  toFinset : order.toFinset = duties

lemma Enumerates.mem_iff {order : List Duty} {duties : Finset Duty} (h : Enumerates order duties)
    {duty : Duty} : duty ∈ order ↔ duty ∈ duties := by
  rw [← h.toFinset, List.mem_toFinset]

/-! ## The task -/

/-- Owned state of the background task. -/
structure DeadlinerTask where
  duties : Finset Duty
  currDuty : Duty
  currDeadline : DateTime

/-- What `handle_input` leaves behind: the answer to the caller, and a new timer. -/
structure InputResult where
  task : DeadlinerTask
  outcome : AddOutcome
  timer : Option ℕ

namespace DeadlinerTask

variable (calculator : DeadlineCalculator)

def start : DeadlinerTask := ⟨∅, sentinelDuty, .maxUtc⟩

/-- Time remaining until `currDeadline`, zero if it is in the past. -/
def remainingDuration (task : DeadlinerTask) (now : DateTime) : ℕ :=
  if task.currDeadline < now then 0 else (task.currDeadline.1 - now.1).toNat

/-- A sleep for the remaining duration does not end before the deadline. -/
lemma le_add_remainingDuration (task : DeadlinerTask) (now : DateTime) :
    task.currDeadline.1 ≤ now.1 + task.remainingDuration now := by
  unfold remainingDuration
  split_ifs with hpast
  · have := Int.le_of_lt (show task.currDeadline.1 < now.1 from hpast)
    omega
  · omega

/-- Once the clock has read `now`, the sleep that was set then has ended exactly when the deadline
has come: the deadline may be past already, but then the sleep is of length zero. -/
lemma elapsed_iff {task : DeadlinerTask} {now later : DateTime} (h : now ≤ later) :
    now.1 + task.remainingDuration now ≤ later.1 ↔ task.currDeadline ≤ later := by
  have hle : now.1 ≤ later.1 := h
  refine ⟨(task.le_add_remainingDuration now).trans, fun hdue => ?_⟩
  have hdue' : task.currDeadline.1 ≤ later.1 := hdue
  unfold remainingDuration
  split_ifs <;> omega

/-- The body of the loop of `recompute_curr`. -/
def earlier (curr : Duty × DateTime) (duty : Duty) : Duty × DateTime :=
  match calculator duty with
  | .ok (some deadline) => if deadline < curr.2 then (duty, deadline) else curr
  | .error _ => curr
  | .ok none => curr

/-- Recomputes the duty with the earliest deadline. -/
def recomputeCurr (order : List Duty) (task : DeadlinerTask) : DeadlinerTask :=
  let curr := order.foldl (earlier calculator) (sentinelDuty, .maxUtc)
  { task with currDuty := curr.1, currDeadline := curr.2 }

/-- Handles a new duty.  The clock is read twice, for the check and for the new timer. -/
def handleInput (order : List Duty) (now later : DateTime) (duty : Duty) (task : DeadlinerTask) :
    InputResult :=
  match calculator duty with
  | .ok (some deadline) =>
    if deadline < now then ⟨task, .alreadyExpired, none⟩
    else
      let inserted := { task with duties := insert duty task.duties }
      if deadline < inserted.currDeadline then
        let recomputed := inserted.recomputeCurr calculator order
        ⟨recomputed, .scheduled, some (recomputed.remainingDuration later)⟩
      else ⟨inserted, .scheduled, none⟩
  | .error _ => ⟨task, .failedToCompute, none⟩
  | .ok none => ⟨task, .noDeadline, none⟩

/-- `handle_expired`, once the duty is sent or the channel is full. -/
def advance (order : List Duty) (task : DeadlinerTask) : DeadlinerTask :=
  { task with duties := task.duties.erase task.currDuty }.recomputeCurr calculator order

end DeadlinerTask

/-! ## The channel of expired duties -/

/-- Matches Charon's output buffer. -/
def outputBuffer : ℕ := 10

/-- The output channel, and whether the receiver is gone. -/
structure OutputChannel where
  queue : List Duty
  closed : Bool

/-- What a firing of the timer did: nothing was tracked, the duty was sent, or `try_send` failed. -/
inductive Fired
  | idle
  | sent (duty : Duty)
  | full (duty : Duty)
  | closed (duty : Duty)
  deriving DecidableEq, Repr

/-- `Sender::try_send` -/
def OutputChannel.trySend (channel : OutputChannel) (duty : Duty) : OutputChannel × Fired :=
  if channel.closed then (channel, .closed duty)
  else if channel.queue.length < outputBuffer then
    ({ channel with queue := channel.queue ++ [duty] }, .sent duty)
  else (channel, .full duty)

/-! ## The loop -/

/-- The task with its timer and its channel, and the clock. -/
structure Deadliner where
  task : DeadlinerTask
  /-- The nanosecond at which the pinned sleep ends. -/
  wakeAt : ℤ
  output : OutputChannel
  now : DateTime
  running : Bool

/-- What can be seen from outside. -/
inductive Label
  | tick
  | add (duty : Duty) (outcome : AddOutcome)
  | fire (time : DateTime) (fired : Fired)
  | recv (duty : Duty)
  | close
  | cancel
  deriving DecidableEq

/-- What a deadliner does alone or for other callers, beside the component that owns the
receiver. -/
def takenAlone : Label → Prop
  | .recv _ => False
  | _ => True

/-- When a timer whose sleep ends at a nanosecond may fire. -/
abbrev Firing : Type := ℤ → DateTime → Prop

/-- Timers never fire early. -/
def notEarly : Firing := fun wakeAt now => wakeAt ≤ now.1

/-- Timers fire strictly after the end of the sleep. -/
def strictlyAfter : Firing := fun wakeAt now => wakeAt < now.1

namespace Deadliner

variable (calculator : DeadlineCalculator)

/-- `tokio::time::sleep` for the remaining duration, once the clock has been read. -/
def sleep (now : DateTime) (task : DeadlinerTask) : ℤ := now.1 + task.remainingDuration now

def start (now : DateTime) : Deadliner := ⟨.start, sleep now .start, ⟨[], false⟩, now, true⟩

/-- The arm of `run_task` for a new duty. -/
def input (order : List Duty) (later : DateTime) (duty : Duty) (st : Deadliner) : Deadliner :=
  let result := st.task.handleInput calculator order st.now later duty
  { st with
    task := result.task
    wakeAt := match result.timer with
      | some timer => later.1 + timer
      | none => st.wakeAt
    now := later }

/-- The arm of `run_task` for the timer, `handle_expired`: a closed channel ends the task. -/
def expire (order : List Duty) (st : Deadliner) : Deadliner × Fired :=
  if st.task.duties = ∅ then ({ st with wakeAt := sleep st.now st.task }, .idle)
  else
    match st.output.trySend st.task.currDuty with
    | (output, .closed duty) => ({ st with output := output, running := false }, .closed duty)
    | (output, fired) =>
      let task := st.task.advance calculator order
      ({ st with task := task, wakeAt := sleep st.now task, output := output }, fired)

/-- One action of the task, of a caller, of the receiver or of the clock. -/
inductive Step (due : Firing) : Deadliner → Label → Deadliner → Prop
  | tick {st : Deadliner} {now : DateTime} (forward : st.now ≤ now) :
      Step due st .tick { st with now := now }
  | add {st : Deadliner} {duty : Duty} {order : List Duty} {later : DateTime}
      (running : st.running = true) (forward : st.now ≤ later)
      (visit : Enumerates order (insert duty st.task.duties)) :
      Step due st (.add duty (st.task.handleInput calculator order st.now later duty).outcome)
        (st.input calculator order later duty)
  | addStopped {st : Deadliner} {duty : Duty} (stopped : st.running = false) :
      Step due st (.add duty .failedToCompute) st
  | fire {st : Deadliner} {order : List Duty} (running : st.running = true)
      (elapsed : due st.wakeAt st.now)
      (visit : Enumerates order (st.task.duties.erase st.task.currDuty)) :
      Step due st (.fire st.now (st.expire calculator order).2) (st.expire calculator order).1
  | recv {st : Deadliner} {duty : Duty} {rest : List Duty}
      (queued : st.output.queue = duty :: rest) :
      Step due st (.recv duty) { st with output := { st.output with queue := rest } }
  | close {st : Deadliner} : Step due st .close { st with output := ⟨[], true⟩ }
  | cancel {st : Deadliner} : Step due st .cancel { st with running := false }

end Deadliner

end Pluto.Core.Deadline
