import Mathlib.Data.List.Basic
import Mathlib.Data.List.Induction

/-!
# Traces of labelled transitions

A step relation here carries a label, and a trace is the list of the labels of a run, oldest
first.  What happened in the past is then a fact about the trace, and no state has to remember it.

`Trace.induction` is the one rule the runs are proved with: a relation between the past and the
current state holds along a run if it holds at the start and every step preserves it.  The
admissible labels can be restricted, for runs in which some labels do not occur.
-/

/-- The runs from `s₀`: the labels of the steps taken, and the state they lead to. -/
inductive Trace {σ α : Type} (Step : σ → α → σ → Prop) (s₀ : σ) : List α → σ → Prop
  | nil : Trace Step s₀ [] s₀
  | snoc {tr : List α} {s s' : σ} {a : α} (run : Trace Step s₀ tr s) (step : Step s a s') :
      Trace Step s₀ (tr ++ [a]) s'

namespace Trace

variable {σ α : Type} {Step : σ → α → σ → Prop} {s₀ s s' : σ} {tr tr' : List α}

/-- **Run rule.**  Only steps with admissible labels have to preserve the relation. -/
theorem induction {P : List α → σ → Prop} {E : α → Prop} (h0 : P [] s₀)
    (hs : ∀ tr s a s', E a → P tr s → Step s a s' → P (tr ++ [a]) s')
    (run : Trace Step s₀ tr s) (hE : ∀ a ∈ tr, E a) : P tr s := by
  induction run with
  | nil => exact h0
  | @snoc tr s s' a run step ih =>
    have hpast : P tr s := ih fun b hb => hE b (List.mem_append_left _ hb)
    exact hs tr s a s' (hE a (by simp)) hpast step

/-- **Invariant rule.** -/
theorem invariant {I : σ → Prop} (h0 : I s₀) (hs : ∀ s a s', I s → Step s a s' → I s')
    (run : Trace Step s₀ tr s) : I s :=
  induction (P := fun _ s => I s) (E := fun _ => True) h0
    (fun _ s a s' _ hI hstep => hs s a s' hI hstep) run fun _ _ => trivial

/-- A run of a relation is one of every relation that contains it. -/
lemma mono {Step' : σ → α → σ → Prop} (h : ∀ s a s', Step s a s' → Step' s a s')
    (run : Trace Step s₀ tr s) : Trace Step' s₀ tr s := by
  induction run with
  | nil => exact Trace.nil
  | snoc _ step ih => exact ih.snoc (h _ _ _ step)

lemma append (run : Trace Step s₀ tr s) (run' : Trace Step s tr' s') :
    Trace Step s₀ (tr ++ tr') s' := by
  induction run' with
  | nil => simpa using run
  | snoc _ step ih =>
    rw [← List.append_assoc]
    exact ih.snoc step

lemma single {a : α} (step : Step s a s') : Trace Step s [a] s' :=
  Trace.nil.snoc step

lemma cons {a : α} (step : Step s₀ a s) (run : Trace Step s tr s') : Trace Step s₀ (a :: tr) s' :=
  (single step).append run

/-- A run passes through the state its first part leads to. -/
lemma split (run : Trace Step s₀ (tr ++ tr') s') :
    ∃ s, Trace Step s₀ tr s ∧ Trace Step s tr' s' := by
  induction tr' using List.reverseRecOn generalizing s' with
  | nil => exact ⟨s', by simpa using run, Trace.nil⟩
  | append_singleton tr' a ih =>
    rw [← List.append_assoc] at run
    generalize hl : tr ++ tr' ++ [a] = l at run
    cases run with
    | nil => simp at hl
    | snoc run step =>
      obtain ⟨rfl, hlast⟩ := List.append_inj' hl rfl
      obtain rfl : a = _ := List.singleton_inj.mp hlast
      obtain ⟨s, hpre, hpost⟩ := ih run
      exact ⟨s, hpre, hpost.snoc step⟩

/-- A run takes the step of each of its labels. -/
lemma split_cons {a : α} (run : Trace Step s₀ (tr ++ a :: tr') s') :
    ∃ s₁ s₂, Trace Step s₀ tr s₁ ∧ Step s₁ a s₂ ∧ Trace Step s₂ tr' s' := by
  rw [List.append_cons] at run
  obtain ⟨s₂, hpre, hpost⟩ := run.split
  generalize hl : tr ++ [a] = l at hpre
  cases hpre with
  | nil => simp at hl
  | @snoc tr₁ s₁ _ b hpast hstep =>
    obtain ⟨rfl, hlast⟩ := List.append_inj' hl rfl
    obtain rfl : a = b := List.singleton_inj.mp hlast
    exact ⟨s₁, s₂, hpast, hstep, hpost⟩

/-- If a property of the states is kept by exactly the steps with `C`, the runs that stay in it are
those of these steps. -/
lemma and_iff {I : σ → Prop} {C : σ → α → σ → Prop} (h0 : I s₀)
    (hs : ∀ s a s', I s → Step s a s' → (I s' ↔ C s a s')) :
    Trace (fun s a s' => Step s a s' ∧ I s') s₀ tr s ↔
      Trace (fun s a s' => Step s a s' ∧ C s a s') s₀ tr s := by
  suffices h : (Trace (fun s a s' => Step s a s' ∧ I s') s₀ tr s →
      I s ∧ Trace (fun s a s' => Step s a s' ∧ C s a s') s₀ tr s) ∧
      (Trace (fun s a s' => Step s a s' ∧ C s a s') s₀ tr s →
        I s ∧ Trace (fun s a s' => Step s a s' ∧ I s') s₀ tr s) from
    ⟨fun run => (h.1 run).2, fun run => (h.2 run).2⟩
  constructor
  · intro run
    induction run with
    | nil => exact ⟨h0, Trace.nil⟩
    | snoc _ step ih => exact ⟨step.2, ih.2.snoc ⟨step.1, (hs _ _ _ ih.1 step.1).mp step.2⟩⟩
  · intro run
    induction run with
    | nil => exact ⟨h0, Trace.nil⟩
    | snoc _ step ih =>
      have hI := (hs _ _ _ ih.1 step.1).mpr step.2
      exact ⟨hI, ih.2.snoc ⟨step.1, hI⟩⟩

end Trace
