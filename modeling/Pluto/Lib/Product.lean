import Pluto.Lib.Trace

/-!
# Two machines that meet on some of their labels

A component that calls another one takes some of its steps together with a step of the other.
`Product` runs a machine with labels `α` beside one with labels `β`: `sync` names the step of the
first that a step of the second goes with, if there is one, and `alone` says which steps the first
takes by itself.  A run of the product is a run of each of the two, with the other one standing
still in between; for the second machine this is what its invariants are lifted by.
-/

/-- One step of the first machine, of the second, or of both. -/
inductive Product {σ τ α β : Type} (A : σ → α → σ → Prop) (B : τ → β → τ → Prop) (alone : α → Prop)
    (sync : β → Option α) : σ × τ → α ⊕ β → σ × τ → Prop
  | left {s s' : σ} {t : τ} {a : α} (free : alone a) (step : A s a s') :
      Product A B alone sync (s, t) (.inl a) (s', t)
  | right {s : σ} {t t' : τ} {b : β} (free : sync b = none) (step : B t b t') :
      Product A B alone sync (s, t) (.inr b) (s, t')
  | both {s s' : σ} {t t' : τ} {a : α} {b : β} (meet : sync b = some a) (step : A s a s')
      (step' : B t b t') : Product A B alone sync (s, t) (.inr b) (s', t')

namespace Product

variable {σ τ α β : Type} {A : σ → α → σ → Prop} {B : τ → β → τ → Prop} {alone : α → Prop}
  {sync : β → Option α} {p p' : σ × τ} {l : α ⊕ β} {tr : List (α ⊕ β)}

/-- The second machine takes the step it is labelled with, or stands still. -/
lemma snd_cases (h : Product A B alone sync p l p') :
    (∃ b, l = .inr b ∧ B p.2 b p'.2) ∨ ∃ a, l = .inl a ∧ p'.2 = p.2 := by
  cases h with
  | left _ _ => exact .inr ⟨_, rfl, rfl⟩
  | right _ step => exact .inl ⟨_, rfl, step⟩
  | both _ _ step => exact .inl ⟨_, rfl, step⟩

lemma snd_step {b : β} (h : Product A B alone sync p (.inr b) p') : B p.2 b p'.2 := by
  cases h with
  | right _ step => exact step
  | both _ _ step => exact step

/-- An invariant of the second machine holds along the runs of the product. -/
lemma invariant_snd {I : τ → Prop} (h0 : I p.2) (hs : ∀ t b t', I t → B t b t' → I t')
    (run : Trace (Product A B alone sync) p tr p') : I p'.2 := by
  refine run.invariant (I := fun p => I p.2) h0 fun p₁ l p₂ hI hstep => ?_
  rcases hstep.snd_cases with ⟨b, -, step⟩ | ⟨_, -, hsame⟩
  · exact hs _ _ _ hI step
  · exact hsame ▸ hI

end Product
