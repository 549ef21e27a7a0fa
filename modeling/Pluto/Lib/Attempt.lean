import Mathlib.Data.List.Basic

/-!
# Attempts

A computation that changes a state and may fail on the way, with no rollback: the state it has
reached when it fails is the state that stays.  This is what a method on a mutable reference that
returns early does.

`exec` runs an attempt, and there is one equation for each way of putting attempts together.
`Keeps` says that an attempt moves the state along a relation whether or not it succeeds; for a
reflexive and transitive relation it is preserved by sequences and loops.
-/

/-- A computation that may fail, and leaves a state behind either way. -/
abbrev Attempt (ε σ α : Type) : Type := ExceptT ε (StateM σ) α

namespace Attempt

variable {ε σ α β : Type}

/-- The result of an attempt and the state it leaves behind. -/
def exec (m : Attempt ε σ α) (s : σ) : Except ε α × σ := StateT.run (ExceptT.run m) s

@[simp] lemma exec_pure (a : α) (s : σ) : exec (pure a : Attempt ε σ α) s = (.ok a, s) := rfl

@[simp] lemma exec_throw (e : ε) (s : σ) : exec (throw e : Attempt ε σ α) s = (.error e, s) := rfl

@[simp] lemma exec_get (s : σ) : exec (get : Attempt ε σ σ) s = (.ok s, s) := rfl

@[simp] lemma exec_set (s s' : σ) : exec (set s' : Attempt ε σ PUnit) s = (.ok ⟨⟩, s') := rfl

@[simp] lemma exec_modify (f : σ → σ) (s : σ) :
    exec (modify f : Attempt ε σ PUnit) s = (.ok ⟨⟩, f s) := rfl

@[simp] lemma exec_ite (c : Prop) [Decidable c] (m m' : Attempt ε σ α) (s : σ) :
    exec (if c then m else m') s = if c then exec m s else exec m' s := by
  split <;> rfl

/-- A computation that does not look at the state. -/
def ofExcept (x : Except ε α) : Attempt ε σ α :=
  match x with
  | .ok a => pure a
  | .error e => throw e

@[simp] lemma exec_ofExcept (x : Except ε α) (s : σ) :
    exec (ofExcept x : Attempt ε σ α) s = (x, s) := by
  cases x <;> rfl

/-- A sequence goes on with the state of its first part, or stops with it. -/
lemma exec_bind (m : Attempt ε σ α) (f : α → Attempt ε σ β) (s : σ) :
    exec (m >>= f) s =
      match exec m s with
      | (.ok a, s') => exec (f a) s'
      | (.error e, s') => (.error e, s') := by
  have hseq : exec (m >>= f) s = exec (ExceptT.mk (ExceptT.bindCont f (exec m s).1)) (exec m s).2 :=
    rfl
  rw [hseq]
  rcases exec m s with ⟨_ | _, s'⟩ <;> rfl

variable {m : Attempt ε σ α} {f : α → Attempt ε σ β}

lemma exec_bind_ok {s s' : σ} {a : α}
    (h : exec m s = (.ok a, s')) : exec (m >>= f) s = exec (f a) s' := by
  rw [exec_bind, h]

lemma exec_bind_error {s s' : σ} {e : ε}
    (h : exec m s = (.error e, s')) : exec (m >>= f) s = (.error e, s') := by
  rw [exec_bind, h]

/-- A sequence that succeeds succeeds in both parts. -/
lemma exec_bind_eq_ok {s s' : σ} {b : β} :
    exec (m >>= f) s = (.ok b, s') ↔
      ∃ a s₁, exec m s = (.ok a, s₁) ∧ exec (f a) s₁ = (.ok b, s') := by
  rcases h : exec m s with ⟨e | a, s₁⟩
  · rw [exec_bind_error h]
    simp
  · rw [exec_bind_ok h]
    simp

/-- A sequence that fails fails in its first part, or in its second one after the first. -/
lemma exec_bind_eq_error {s s' : σ} {e : ε} :
    exec (m >>= f) s = (.error e, s') ↔
      exec m s = (.error e, s') ∨
        ∃ a s₁, exec m s = (.ok a, s₁) ∧ exec (f a) s₁ = (.error e, s') := by
  rcases h : exec m s with ⟨e' | a, s₁⟩
  · rw [exec_bind_error h]
    simp
  · rw [exec_bind_ok h]
    simp

/-! ## Loops -/

section Loops

variable {f : α → Attempt ε σ PUnit} {a : α} {l l' : List α} {s s' s₁ : σ} {e : ε}

@[simp] lemma exec_forM_nil : exec (([] : List α).forM f) s = (.ok ⟨⟩, s) := rfl

lemma exec_forM_cons : exec ((a :: l).forM f) s = exec (f a >>= fun _ => l.forM f) s := rfl

lemma exec_forM_cons_ok (h : exec (f a) s = (.ok ⟨⟩, s₁)) :
    exec ((a :: l).forM f) s = exec (l.forM f) s₁ :=
  exec_bind_ok h

lemma exec_forM_cons_error (h : exec (f a) s = (.error e, s')) :
    exec ((a :: l).forM f) s = (.error e, s') :=
  exec_bind_error h

end Loops

/-! ## Relations an attempt moves along -/

/-- Whether or not it succeeds, the attempt takes a state to a related one. -/
def Keeps (R : σ → σ → Prop) (m : Attempt ε σ α) : Prop := ∀ s, R s (exec m s).2

section Keeps

variable {R : σ → σ → Prop} {m : Attempt ε σ α} {f : α → Attempt ε σ β}

lemma keeps_of_refl (hrefl : ∀ s, R s s) (h : ∀ s, (exec m s).2 = s) : Keeps R m := by
  intro s
  rw [h s]
  exact hrefl s

lemma keeps_throw (hrefl : ∀ s, R s s) (e : ε) : Keeps R (throw e : Attempt ε σ α) :=
  keeps_of_refl hrefl fun _ => rfl

lemma Keeps.bind (htrans : ∀ s₁ s₂ s₃, R s₁ s₂ → R s₂ s₃ → R s₁ s₃) (hm : Keeps R m)
    (hf : ∀ a, Keeps R (f a)) : Keeps R (m >>= f) := by
  intro s
  have hfirst := hm s
  rcases h : exec m s with ⟨e | a, s₁⟩ <;> rw [h] at hfirst
  · rw [exec_bind_error h]
    exact hfirst
  · rw [exec_bind_ok h]
    exact htrans _ _ _ hfirst (hf a s₁)

/-- A sequence whose first part does not look at the state. -/
lemma keeps_ofExcept_bind (hrefl : ∀ s, R s s) {x : Except ε α} (hf : ∀ a, x = .ok a → Keeps R (f a)) :
    Keeps R (ofExcept x >>= f) := by
  intro s
  cases x with
  | error e => exact hrefl s
  | ok a => exact hf a rfl s

lemma Keeps.forM {g : α → Attempt ε σ PUnit} {l : List α} (hrefl : ∀ s, R s s)
    (htrans : ∀ s₁ s₂ s₃, R s₁ s₂ → R s₂ s₃ → R s₁ s₃) (hg : ∀ a ∈ l, Keeps R (g a)) :
    Keeps R (l.forM g) := by
  induction l with
  | nil => exact hrefl
  | cons a l ih =>
    exact Keeps.bind htrans (hg a List.mem_cons_self)
      fun _ => ih fun b hb => hg b (List.mem_cons_of_mem _ hb)

/-- A loop that succeeds does so in each turn, and the rest of it keeps the relation. -/
lemma exists_turn_of_forM_ok {g : α → Attempt ε σ PUnit} {l : List α} (hrefl : ∀ s, R s s)
    (htrans : ∀ s₁ s₂ s₃, R s₁ s₂ → R s₂ s₃ → R s₁ s₃) (hg : ∀ a ∈ l, Keeps R (g a)) {s s' : σ}
    (h : exec (l.forM g) s = (.ok ⟨⟩, s')) {a : α} (ha : a ∈ l) :
    ∃ s₁ s₂, exec (g a) s₁ = (.ok ⟨⟩, s₂) ∧ R s₂ s' := by
  induction l generalizing s with
  | nil => cases ha
  | cons b l ih =>
    obtain ⟨_, s₁, hfirst, hrest⟩ := exec_bind_eq_ok.mp h
    have htail : ∀ a ∈ l, Keeps R (g a) := fun a ha => hg a (List.mem_cons_of_mem b ha)
    rcases List.mem_cons.mp ha with rfl | ha
    · have hkeep := Keeps.forM hrefl htrans htail s₁
      rw [hrest] at hkeep
      exact ⟨s, s₁, hfirst, hkeep⟩
    · exact ih htail hrest ha

end Keeps

end Attempt
