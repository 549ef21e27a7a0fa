import Pluto.Lib.LoggedMachine

/-!
# Networks of logged machines

A network is one machine per process, the processes that really run theirs, and a relation that
says which event can happen to a process after a given history.  A history records, process by
process, the events that happened to it; everything a process has done is then in the log of its
machine.  What the other processes may inject is part of `enabled`.

Two rules are enough for what is proved about such networks.  When `enabled` only grows with the
history, every event of a reachable history is enabled *by that history*
(`Reachable.enabled_of_mem`), and safety can be argued on the final history alone.  Where the
order of the steps matters, `Reachable.logged_induction` is the induction on the run: a property
of log entries that holds of every new entry whenever it holds of all the earlier ones.
-/

/-- Machines that take turns. -/
structure MachineNetwork (P σ ε ω χ : Type) where
  machine : P → LoggedMachine σ ε ω χ
  /-- The processes that run their machine. -/
  correct : P → Prop
  /-- The event can happen to the process after the history. -/
  enabled : (P → List ε) → P → ε → Prop

namespace MachineNetwork

variable {P σ ε ω χ : Type} [DecidableEq P]

/-- One more event for one process. -/
def extend (h : P → List ε) (p : P) (e : ε) : P → List ε := Function.update h p (h p ++ [e])

/-- Every process has seen at least what it has seen in `h`. -/
def Extends (h h' : P → List ε) : Prop := ∀ p, h p <+: h' p

lemma extend_self (h : P → List ε) (p : P) (e : ε) : extend h p e p = h p ++ [e] := by
  simp [extend]

lemma extend_of_ne (h : P → List ε) {p q : P} (hne : q ≠ p) (e : ε) : extend h p e q = h q := by
  simp [extend, hne]

lemma extends_extend (h : P → List ε) (p : P) (e : ε) : Extends h (extend h p e) := by
  intro q
  by_cases hq : q = p
  · subst hq
    rw [extend_self]
    exact List.prefix_append _ _
  · simp [extend_of_ne h hq]

variable (N : MachineNetwork P σ ε ω χ)

/-- The step is in the log of the process. -/
def Logged (h : P → List ε) (p : P) (en : LoggedMachine.Entry σ ε ω) : Prop :=
  en ∈ ((N.machine p).exec (h p)).log

/-- The histories the network can produce. -/
inductive Reachable : (P → List ε) → Prop
  | init : Reachable fun _ => []
  | step {h : P → List ε} {p : P} {e : ε} (reach : Reachable h) (correct : N.correct p)
      (enabled : N.enabled h p e) : Reachable (extend h p e)

variable {N}

omit [DecidableEq P] in
lemma Logged.mono {h h' : P → List ε} (hle : Extends h h') {p : P}
    {en : LoggedMachine.Entry σ ε ω} (hen : N.Logged h p en) : N.Logged h' p en := by
  obtain ⟨t, ht⟩ := hle p
  unfold Logged
  rw [← ht]
  exact (LoggedMachine.exec_log_append (h p) t).subset hen

variable {h : P → List ε}

/-- The step of the new event is logged. -/
lemma logged_extend {p : P} {e : ε} (hrun : ((N.machine p).exec (h p)).stop = none) :
    N.Logged (extend h p e) p ⟨((N.machine p).exec (h p)).state, e,
      ((N.machine p).step ((N.machine p).exec (h p)).state e).out⟩ := by
  unfold Logged
  rw [extend_self, LoggedMachine.exec_snoc, LoggedMachine.act_of_running hrun]
  simp

/-- What is logged after one more event was logged before it, or is the step of that event. -/
lemma Logged.of_extend {p q : P} {e : ε} {en : LoggedMachine.Entry σ ε ω}
    (hen : N.Logged (extend h p e) q en) : N.Logged h q en ∨
      q = p ∧ ((N.machine p).exec (h p)).stop = none ∧
        en = ⟨((N.machine p).exec (h p)).state, e,
          ((N.machine p).step ((N.machine p).exec (h p)).state e).out⟩ := by
  unfold Logged at hen
  by_cases hq : q = p
  swap
  · rw [extend_of_ne h hq] at hen
    exact .inl hen
  subst hq
  rw [extend_self, LoggedMachine.exec_snoc] at hen
  rcases hstop : ((N.machine q).exec (h q)).stop with _ | c
  · rw [LoggedMachine.act_of_running hstop] at hen
    rcases List.mem_append.mp hen with hold | hnew
    · exact .inl hold
    · exact .inr ⟨rfl, rfl, List.mem_singleton.mp hnew⟩
  · rw [LoggedMachine.act_of_stopped hstop] at hen
    exact .inl hen

/-- The events of a reachable history happened to correct processes, and the history enables
them. -/
theorem Reachable.enabled_of_mem
    (mono : ∀ {h h' : P → List ε} {p : P} {e : ε}, Extends h h' → N.enabled h p e →
      N.enabled h' p e) (hr : N.Reachable h) :
    ∀ p, ∀ e ∈ h p, N.correct p ∧ N.enabled h p e := by
  induction hr with
  | init => simp
  | @step h p e _ correct enabled ih =>
    intro q e' he'
    have hext := extends_extend h p e
    by_cases hq : q = p
    · subst hq
      rw [extend_self] at he'
      rcases List.mem_append.mp he' with hold | hnew
      · exact ⟨correct, mono hext (ih q e' hold).2⟩
      · rw [List.mem_singleton.mp hnew]
        exact ⟨correct, mono hext enabled⟩
    · rw [extend_of_ne h hq] at he'
      exact ⟨(ih q e' he').1, mono hext (ih q e' he').2⟩

/-- **Induction along the run.**  A property of log entries that survives longer histories, and
that every new entry has when all the earlier ones do, holds of every entry. -/
theorem Reachable.logged_induction {Q : (P → List ε) → P → LoggedMachine.Entry σ ε ω → Prop}
    (mono : ∀ {h h' : P → List ε} {p : P} {en}, Extends h h' → Q h p en → Q h' p en)
    (new : ∀ {h : P → List ε} {p : P} {e : ε}, N.Reachable h → N.correct p → N.enabled h p e →
      ((N.machine p).exec (h p)).stop = none → (∀ q en, N.Logged h q en → Q h q en) →
      Q (extend h p e) p ⟨((N.machine p).exec (h p)).state, e,
        ((N.machine p).step ((N.machine p).exec (h p)).state e).out⟩)
    (hr : N.Reachable h) : ∀ p en, N.Logged h p en → Q h p en := by
  induction hr with
  | init =>
    intro p en hen
    simp [Logged, LoggedMachine.start] at hen
  | @step h p e reach correct enabled ih =>
    intro q en hen
    rcases hen.of_extend with hold | ⟨rfl, hrun, rfl⟩
    · exact mono (extends_extend h p e) (ih q en hold)
    · exact new reach correct enabled hrun ih

/-! ## Schedules -/

/-- The history of a schedule. -/
def play (h : P → List ε) (schedule : List (P × ε)) : P → List ε :=
  schedule.foldl (fun h x => extend h x.1 x.2) h

/-- Every event of the schedule is enabled when its turn comes. -/
def Plays (N : MachineNetwork P σ ε ω χ) : (P → List ε) → List (P × ε) → Prop
  | _, [] => True
  | h, x :: rest => N.correct x.1 ∧ N.enabled h x.1 x.2 ∧ Plays N (extend h x.1 x.2) rest

instance decidablePlays (N : MachineNetwork P σ ε ω χ) [∀ p, Decidable (N.correct p)]
    [∀ h p e, Decidable (N.enabled h p e)] :
    ∀ (h : P → List ε) (schedule : List (P × ε)), Decidable (N.Plays h schedule)
  | _, [] => inferInstanceAs (Decidable True)
  | h, x :: rest =>
    have : Decidable (N.Plays (extend h x.1 x.2) rest) := decidablePlays N _ rest
    inferInstanceAs (Decidable (N.correct x.1 ∧ N.enabled h x.1 x.2 ∧
      N.Plays (extend h x.1 x.2) rest))

lemma Reachable.play (hr : N.Reachable h) {schedule : List (P × ε)}
    (hp : N.Plays h schedule) : N.Reachable (play h schedule) := by
  induction schedule generalizing h with
  | nil => exact hr
  | cons x rest ih => exact ih (hr.step hp.1 hp.2.1) hp.2.2

end MachineNetwork
