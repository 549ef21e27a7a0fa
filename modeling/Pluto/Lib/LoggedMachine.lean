import Mathlib.Data.List.Basic
import Mathlib.Data.List.Induction

/-!
# Deterministic machines with a log

A machine here is an initial state and a total step function.  A step returns the state it
leaves behind, at most one output, and possibly a reason to stop; a stopped machine ignores
every later event.  The run of an event list keeps, for every step really taken, the state
before it, the event and the output.  Properties of whole runs are then properties of this log.

Two rules carry the inductions.  `exec_invariant` is the usual one: what holds of the initial
state and is preserved by every step holds of every state of the run.  `exec_past` relates an
old log entry to a later state: if a step establishes `Past` for its own entry and no later step
destroys it, then `Past` holds between every entry and the final state, and between any two
entries of the log in their order.  The second form is what "at most once per run" and "never
again afterwards" are made of.
-/

/-- What one step leaves behind: the new state, at most one output, and a reason to stop. -/
structure LoggedMachine.Transition (σ ω χ : Type) where
  state : σ
  out : Option ω
  stop : Option χ

/-- A deterministic machine with states `σ`, events `ε`, outputs `ω` and stop reasons `χ`. -/
structure LoggedMachine (σ ε ω χ : Type) where
  init : σ
  step : σ → ε → LoggedMachine.Transition σ ω χ

namespace LoggedMachine

/-- One step really taken: the state before it, the event, and the output. -/
structure Entry (σ ε ω : Type) where
  before : σ
  event : ε
  out : Option ω

/-- A run so far. -/
structure Run (σ ε ω χ : Type) where
  state : σ
  log : List (Entry σ ε ω)
  stop : Option χ

variable {σ ε ω χ : Type} (M : LoggedMachine σ ε ω χ)

/-- The run before any event. -/
def start : Run σ ε ω χ := ⟨M.init, [], none⟩

/-- Deliver one event; a stopped run stays as it is. -/
def act (r : Run σ ε ω χ) (e : ε) : Run σ ε ω χ :=
  match r.stop with
  | some _ => r
  | none =>
    ⟨(M.step r.state e).state, r.log ++ [⟨r.state, e, (M.step r.state e).out⟩],
      (M.step r.state e).stop⟩

/-- The run of an event list. -/
def exec (es : List ε) : Run σ ε ω χ := es.foldl M.act M.start

/-- The state a logged step left behind. -/
def after (en : Entry σ ε ω) : σ := (M.step en.before en.event).state

variable {M}

@[simp] lemma exec_nil : M.exec [] = M.start := rfl

lemma exec_append (es es' : List ε) : M.exec (es ++ es') = es'.foldl M.act (M.exec es) := by
  simp [exec]

lemma exec_snoc (es : List ε) (e : ε) : M.exec (es ++ [e]) = M.act (M.exec es) e := by
  simp [exec_append]

lemma act_of_running {r : Run σ ε ω χ} (h : r.stop = none) (e : ε) :
    M.act r e = ⟨(M.step r.state e).state, r.log ++ [⟨r.state, e, (M.step r.state e).out⟩],
      (M.step r.state e).stop⟩ := by
  simp [act, h]

lemma act_of_stopped {r : Run σ ε ω χ} {c : χ} (h : r.stop = some c) (e : ε) :
    M.act r e = r := by
  simp [act, h]

/-- Induction along a run: only the steps really taken have to preserve the property. -/
theorem exec_induction {P : Run σ ε ω χ → Prop} {E : ε → Prop} (h0 : P M.start)
    (hs : ∀ r e, r.stop = none → E e → P r → P (M.act r e)) :
    ∀ es : List ε, (∀ e ∈ es, E e) → P (M.exec es) := by
  intro es
  induction es using List.reverseRecOn with
  | nil => exact fun _ => h0
  | append_singleton es e ih =>
    intro hE
    have hprev : P (M.exec es) := ih fun x hx => hE x (List.mem_append_left _ hx)
    rw [exec_snoc]
    rcases hstop : (M.exec es).stop with _ | c
    · exact hs _ e hstop (hE e (by simp)) hprev
    · rwa [act_of_stopped hstop]

lemma act_log (r : Run σ ε ω χ) (e : ε) : r.log <+: (M.act r e).log := by
  rcases hstop : r.stop with _ | c
  · rw [act_of_running hstop]
    exact List.prefix_append _ _
  · simp [act_of_stopped hstop]

/-- More events only add to the log. -/
lemma exec_log_append (es es' : List ε) : (M.exec es).log <+: (M.exec (es ++ es')).log := by
  induction es' using List.reverseRecOn with
  | nil => simp
  | append_singleton es' e ih =>
    rw [← List.append_assoc, exec_snoc]
    exact ih.trans (act_log _ e)

/-- Every logged output is the one the step function gives. -/
theorem mem_log_out {es : List ε} {en : Entry σ ε ω} (h : en ∈ (M.exec es).log) :
    en.out = (M.step en.before en.event).out := by
  have key : ∀ en ∈ (M.exec es).log, en.out = (M.step en.before en.event).out := by
    refine exec_induction (P := fun r => ∀ en ∈ r.log, en.out = (M.step en.before en.event).out)
      (E := fun _ => True) (by simp [start]) ?_ es (fun _ _ => trivial)
    intro r e hrun _ ih en hen
    rw [act_of_running hrun] at hen
    rcases List.mem_append.mp hen with hold | hnew
    · exact ih en hold
    · rw [List.mem_singleton.mp hnew]
  exact key en h

theorem mem_log_event {es : List ε} {en : Entry σ ε ω} (h : en ∈ (M.exec es).log) :
    en.event ∈ es := by
  induction es using List.reverseRecOn with
  | nil => simp [start] at h
  | append_singleton es e ih =>
    rw [exec_snoc] at h
    rcases hstop : (M.exec es).stop with _ | c
    · rw [act_of_running hstop] at h
      rcases List.mem_append.mp h with hold | hnew
      · exact List.mem_append_left _ (ih hold)
      · rw [List.mem_singleton.mp hnew]
        simp
    · rw [act_of_stopped hstop] at h
      exact List.mem_append_left _ (ih h)

/-- A run that stopped did so in one of its steps. -/
theorem exec_stop {es : List ε} {c : χ} (h : (M.exec es).stop = some c) :
    ∃ en ∈ (M.exec es).log, (M.step en.before en.event).stop = some c := by
  induction es using List.reverseRecOn with
  | nil => simp [start] at h
  | append_singleton es e ih =>
    rw [exec_snoc] at h ⊢
    rcases hstop : (M.exec es).stop with _ | c'
    · rw [act_of_running hstop] at h ⊢
      exact ⟨⟨(M.exec es).state, e, (M.step (M.exec es).state e).out⟩, by simp, h⟩
    · rw [act_of_stopped hstop] at h ⊢
      exact ih h

/-- Every state of a run is the initial one or was left behind by a logged step. -/
theorem exec_states (es : List ε) :
    ((M.exec es).state = M.init ∨ ∃ en ∈ (M.exec es).log, (M.exec es).state = M.after en) ∧
      ∀ b ∈ (M.exec es).log, b.before = M.init ∨ ∃ en ∈ (M.exec es).log, b.before = M.after en := by
  refine exec_induction
    (P := fun r => (r.state = M.init ∨ ∃ en ∈ r.log, r.state = M.after en) ∧
      ∀ b ∈ r.log, b.before = M.init ∨ ∃ en ∈ r.log, b.before = M.after en)
    (E := fun _ => True) (by simp [start]) ?_ es (fun _ _ => trivial)
  intro r e hrun _ ih
  obtain ⟨hstate, hlog⟩ := ih
  rw [act_of_running hrun]
  refine ⟨.inr ⟨⟨r.state, e, (M.step r.state e).out⟩, by simp, rfl⟩, ?_⟩
  intro b hb
  have lift : (∃ en ∈ r.log, b.before = M.after en) →
      ∃ en ∈ r.log ++ [⟨r.state, e, (M.step r.state e).out⟩], b.before = M.after en :=
    fun ⟨en, hen, heq⟩ => ⟨en, List.mem_append_left _ hen, heq⟩
  rcases List.mem_append.mp hb with hold | hnew
  · exact (hlog b hold).imp_right lift
  · rw [List.mem_singleton] at hnew
    subst hnew
    exact hstate.imp_right lift

/-- Two entries of a log are the same one, or one of them comes first. -/
lemma eq_or_rel_of_pairwise {α : Type} {R : α → α → Prop} {l : List α} (h : l.Pairwise R) {a b : α}
    (ha : a ∈ l) (hb : b ∈ l) : a = b ∨ R a b ∨ R b a := by
  induction h with
  | nil => simp at ha
  | cons hrel _ ih =>
    rcases List.mem_cons.mp ha with rfl | ha' <;> rcases List.mem_cons.mp hb with rfl | hb'
    · exact .inl rfl
    · exact .inr (.inl (hrel b hb'))
    · exact .inr (.inr (hrel a ha'))
    · exact ih ha' hb'

section Rules

variable {I : σ → Prop} {E : ε → Prop}

/-- **Invariant rule.**  What holds initially and survives every step holds of the final state
and of the state before every logged step. -/
theorem exec_invariant (h0 : I M.init) (hs : ∀ s e, E e → I s → I (M.step s e).state)
    {es : List ε} (hes : ∀ e ∈ es, E e) :
    I (M.exec es).state ∧ ∀ en ∈ (M.exec es).log, I en.before := by
  refine exec_induction (P := fun r => I r.state ∧ ∀ en ∈ r.log, I en.before) (E := E)
    (by simpa [start] using h0) ?_ es hes
  intro r e hrun hE ih
  rw [act_of_running hrun]
  refine ⟨hs _ _ hE ih.1, ?_⟩
  intro en hen
  rcases List.mem_append.mp hen with hold | hnew
  · exact ih.2 en hold
  · rw [List.mem_singleton.mp hnew]
    exact ih.1

/-- **History rule.**  `Past a s` is established by the step that logs `a` and survives every
later step, so it relates each entry to the final state and to the state before each later
entry. -/
theorem exec_past {Past : Entry σ ε ω → σ → Prop} (h0 : I M.init)
    (hs : ∀ s e, E e → I s → I (M.step s e).state)
    (hnew : ∀ s e, E e → I s → Past ⟨s, e, (M.step s e).out⟩ (M.step s e).state)
    (hold : ∀ a s e, E e → I s → Past a s → Past a (M.step s e).state)
    {es : List ε} (hes : ∀ e ∈ es, E e) :
    (∀ a ∈ (M.exec es).log, Past a (M.exec es).state) ∧
      (M.exec es).log.Pairwise fun a b => Past a b.before := by
  have key : I (M.exec es).state ∧ (∀ a ∈ (M.exec es).log, Past a (M.exec es).state) ∧
      (M.exec es).log.Pairwise fun a b => Past a b.before := by
    refine exec_induction (P := fun r => I r.state ∧ (∀ a ∈ r.log, Past a r.state) ∧
      r.log.Pairwise fun a b => Past a b.before) (E := E) (by simpa [start] using h0) ?_ es hes
    intro r e hrun hE ih
    obtain ⟨hI, hpast, hpair⟩ := ih
    rw [act_of_running hrun]
    refine ⟨hs _ _ hE hI, ?_, ?_⟩
    · intro a ha
      rcases List.mem_append.mp ha with hmem | hmem
      · exact hold a _ _ hE hI (hpast a hmem)
      · rw [List.mem_singleton.mp hmem]
        exact hnew _ _ hE hI
    · rw [List.pairwise_append]
      refine ⟨hpair, List.pairwise_singleton _ _, ?_⟩
      intro a ha b hb
      rw [List.mem_singleton.mp hb]
      exact hpast a ha
  exact key.2

end Rules

end LoggedMachine
