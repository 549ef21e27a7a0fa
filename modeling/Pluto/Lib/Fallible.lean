import Mathlib.Data.List.Forall2

/-!
# Fallible computations

When a computation in `Except` succeeds, and when it fails: one rule for each way of putting
computations together.
A proof about a function with many early returns takes it apart with these rules, without unfolding
the monad.
-/

namespace Except

variable {ε ε' α β : Type}

variable {x : Except ε α} {f : α → Except ε β}

lemma bind_ok_iff {b : β} : (x >>= f) = .ok b ↔ ∃ a, x = .ok a ∧ f a = .ok b := by
  cases x with
  | error e => exact ⟨nofun, nofun⟩
  | ok a =>
    refine ⟨fun h => ⟨a, rfl, h⟩, ?_⟩
    rintro ⟨a', ⟨rfl⟩, h⟩
    exact h

lemma ok_bind (a : α) (f : α → Except ε β) : ((.ok a : Except ε α) >>= f) = f a := rfl

lemma pure_eq_ok (a : α) : (pure a : Except ε α) = .ok a := rfl

lemma pure_ok_iff {a b : α} : (pure a : Except ε α) = .ok b ↔ a = b :=
  ⟨Except.ok.inj, congrArg Except.ok⟩

lemma mapError_ok_iff {f : ε → ε'} {a : α} : x.mapError f = .ok a ↔ x = .ok a := by
  cases x with
  | error e => exact ⟨nofun, nofun⟩
  | ok b =>
    constructor <;> intro h
    · exact congrArg Except.ok (Except.ok.inj h)
    · exact congrArg Except.ok (Except.ok.inj h)

lemma exists_ok_of_isSome (h : x.toOption.isSome) : ∃ a, x = .ok a := by
  cases x with
  | ok a => exact ⟨a, rfl⟩
  | error e => cases h

/-- The value of an option, or an error if there is none. -/
def okOr (x : Option α) (e : ε) : Except ε α :=
  match x with
  | none => .error e
  | some a => .ok a

lemma okOr_ok_iff {x : Option α} {e : ε} {a : α} : okOr x e = .ok a ↔ x = some a := by
  cases x with
  | none => exact ⟨nofun, nofun⟩
  | some b => exact ⟨fun h => congrArg some (Except.ok.inj h), fun h => by rw [h, okOr]⟩

/-- A sequence fails in its first part, or in its second one after the first has succeeded. -/
lemma bind_error_iff {e : ε} :
    (x >>= f) = .error e ↔ x = .error e ∨ ∃ a, x = .ok a ∧ f a = .error e := by
  cases x with
  | error e' =>
    refine ⟨fun h => .inl (congrArg _ (Except.error.inj h)), ?_⟩
    rintro (⟨⟨⟩⟩ | ⟨_, ⟨⟩, _⟩)
    rfl
  | ok a =>
    refine ⟨fun h => .inr ⟨a, rfl, h⟩, ?_⟩
    rintro (⟨⟨⟩⟩ | ⟨_, ⟨⟩, h⟩)
    exact h

lemma mapError_error_iff {f : ε → ε'} {e' : ε'} :
    x.mapError f = .error e' ↔ ∃ e, x = .error e ∧ f e = e' := by
  cases x with
  | error e => simp [Except.mapError]
  | ok a => exact ⟨nofun, nofun⟩

variable {l : List α}

/-- A loop that collects results succeeds if every element does. -/
lemma mapM_ok_iff {bs : List β} :
    l.mapM f = .ok bs ↔ List.Forall₂ (fun a b => f a = .ok b) l bs := by
  induction l generalizing bs with
  | nil => rw [List.mapM_nil, pure_ok_iff, List.forall₂_nil_left_iff, eq_comm]
  | cons a l ih =>
    rw [List.mapM_cons, bind_ok_iff, List.forall₂_cons_left_iff]
    constructor
    · rintro ⟨b, hb, hrest⟩
      obtain ⟨bs', hbs', hcons⟩ := bind_ok_iff.mp hrest
      exact ⟨b, bs', hb, ih.mp hbs', (pure_ok_iff.mp hcons).symm⟩
    · rintro ⟨b, bs', hb, hbs', rfl⟩
      exact ⟨b, hb, bind_ok_iff.mpr ⟨bs', ih.mpr hbs', rfl⟩⟩

/-- A list is mapped if each element is. -/
lemma exists_mapM_ok (h : ∀ a ∈ l, ∃ b, f a = .ok b) :
    ∃ bs, l.mapM f = .ok bs := by
  induction l with
  | nil => exact ⟨[], rfl⟩
  | cons a l ih =>
    obtain ⟨b, hb⟩ := h a List.mem_cons_self
    obtain ⟨bs, hbs⟩ := ih fun a' ha' => h a' (List.mem_cons_of_mem a ha')
    exact ⟨b :: bs, by rw [List.mapM_cons, hb, ok_bind, hbs, ok_bind]; rfl⟩

/-- What a loop collects comes from the elements, and from each of them. -/
lemma mapM_ok_mem {bs : List β} (h : l.mapM f = .ok bs) :
    (∀ b ∈ bs, ∃ a ∈ l, f a = .ok b) ∧ ∀ a ∈ l, ∃ b ∈ bs, f a = .ok b := by
  rw [mapM_ok_iff] at h
  induction h with
  | nil => exact ⟨nofun, nofun⟩
  | @cons a b l bs hab _ ih =>
    refine ⟨List.forall_mem_cons.mpr ⟨⟨a, List.mem_cons_self, hab⟩, fun b' hb' => ?_⟩,
      List.forall_mem_cons.mpr ⟨⟨b, List.mem_cons_self, hab⟩, fun a' ha' => ?_⟩⟩
    · obtain ⟨a', ha', hf⟩ := ih.1 b' hb'
      exact ⟨a', List.mem_cons_of_mem _ ha', hf⟩
    · obtain ⟨b', hb', hf⟩ := ih.2 a' ha'
      exact ⟨b', List.mem_cons_of_mem _ hb', hf⟩

/-- What related elements have in common is the same for the two lists. -/
lemma map_eq_of_forall₂ {γ : Type} {R : α → β → Prop} {bs : List β}
    (h : List.Forall₂ R l bs) (g : α → γ) (g' : β → γ)
    (hg : ∀ a ∈ l, ∀ b, R a b → g' b = g a) : bs.map g' = l.map g := by
  induction h with
  | nil => rfl
  | @cons a b l bs hab _ ih =>
    rw [List.map_cons, List.map_cons, hg a List.mem_cons_self b hab,
      ih fun a' ha' => hg a' (List.mem_cons_of_mem a ha')]

/-- What an element and its result have in common is the same for the two lists. -/
lemma map_eq_of_mapM_ok {γ : Type} {bs : List β} (h : l.mapM f = .ok bs) (g : α → γ) (g' : β → γ)
    (hg : ∀ a ∈ l, ∀ b, f a = .ok b → g' b = g a) : bs.map g' = l.map g :=
  map_eq_of_forall₂ (mapM_ok_iff.mp h) g g' hg

/-- A loop with an accumulator: the invariant is about what is left to visit. -/
lemma foldlM_invariant {f : β → α → Except ε β} {I : List α → β → Prop}
    (hstep : ∀ a l b b', I (a :: l) b → f b a = .ok b' → I l b') {b b' : β}
    (hinit : I l b) (h : l.foldlM f b = .ok b') : I [] b' := by
  induction l generalizing b with
  | nil => exact pure_ok_iff.mp h ▸ hinit
  | cons a l ih =>
    rw [List.foldlM_cons, bind_ok_iff] at h
    obtain ⟨b₁, hfirst, hrest⟩ := h
    exact ih (hstep a l b b₁ hinit hfirst) hrest

/-- A loop of checks succeeds if every check does. -/
lemma forM_ok_iff {f : α → Except ε Unit} :
    l.forM f = .ok () ↔ ∀ a ∈ l, f a = .ok () := by
  induction l with
  | nil => exact ⟨fun _ => by simp, fun _ => rfl⟩
  | cons a l ih =>
    show (f a >>= fun _ => l.forM f) = .ok () ↔ _
    rw [bind_ok_iff, List.forall_mem_cons]
    constructor
    · rintro ⟨_, ha, hl⟩
      exact ⟨ha, ih.mp hl⟩
    · rintro ⟨ha, hl⟩
      exact ⟨(), ha, ih.mpr hl⟩

end Except
