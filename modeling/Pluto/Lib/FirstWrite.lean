import Pluto.Lib.Attempt

/-!
# Writes that keep the first value

In a store where the first value of a key stays, a write inserts into a vacant key and compares with
the value of one that is taken.  What it does is decided by how it stands against the state
(`Standing`): the key is vacant, it holds a value that agrees, or it holds one that clashes.

A sequence of such writes stops at the first clash and leaves behind what it has written.  Whether
it has written anything is decided by the first write whose value is not held yet (`firstOpen`): if
that write is refused the state is as it was (`forM_unchanged`), and if it is the insertion of a new
key then that key stays (`forM_changed`).  The second half needs the laws in `Settles`, with respect
to a relation that insertions move the state along.
-/

/-- How a write stands against a state. -/
inductive Standing
  | vacant
  | held
  | clashing
  deriving DecidableEq, Repr

/-- A write of a key whose present value is `existing`. -/
def Standing.against {β : Type} (existing : Option β) (agrees : β → Bool) : Standing :=
  match existing with
  | none => .vacant
  | some b => if agrees b then .held else .clashing

lemma Standing.against_eq_vacant {β : Type} {existing : Option β} {agrees : β → Bool} :
    Standing.against existing agrees = .vacant ↔ existing = none := by
  cases existing with
  | none => simp [against]
  | some b => simp only [against, reduceCtorEq, iff_false]; split <;> simp

lemma Standing.against_eq_held {β : Type} {existing : Option β} {agrees : β → Bool} :
    Standing.against existing agrees = .held ↔ ∃ b, existing = some b ∧ agrees b = true := by
  cases existing with
  | none => simp [against]
  | some b => simp only [against, Option.some.injEq, exists_eq_left']; split <;> simp_all

/-- A write, with the error it reports on a clash. -/
structure Write (ε σ : Type) where
  standing : σ → Standing
  clash : ε
  insert : σ → σ

namespace Write

variable {ε σ : Type}

/-- Insert if vacant, else compare. -/
def run (w : Write ε σ) : Attempt ε σ PUnit := do
  let s ← get
  match w.standing s with
  | .vacant => set (w.insert s)
  | .held => pure ⟨⟩
  | .clashing => throw w.clash

/-- A write that no state accepts. -/
def refuse (e : ε) : Write ε σ := ⟨fun _ => .clashing, e, id⟩

/-- The standing of the first write whose value is not held yet. -/
def firstOpen (s : σ) (ws : List (Write ε σ)) : Option Standing :=
  (ws.map (·.standing s)).find? (· ≠ .held)

section Run

variable {w : Write ε σ} {s s' : σ}

lemma run_vacant (h : w.standing s = .vacant) : w.run.exec s = (.ok ⟨⟩, w.insert s) := by
  rw [run, Attempt.exec_bind, Attempt.exec_get]
  simp [h]

lemma run_held (h : w.standing s = .held) : w.run.exec s = (.ok ⟨⟩, s) := by
  rw [run, Attempt.exec_bind, Attempt.exec_get]
  simp [h]

lemma run_clashing (h : w.standing s = .clashing) : w.run.exec s = (.error w.clash, s) := by
  rw [run, Attempt.exec_bind, Attempt.exec_get]
  simp [h]

/-- Only an insertion moves the state. -/
lemma exec_run_cases (w : Write ε σ) (s : σ) :
    (w.standing s = .vacant ∧ w.run.exec s = (.ok ⟨⟩, w.insert s)) ∨
    (w.standing s = .held ∧ w.run.exec s = (.ok ⟨⟩, s)) ∨
    (w.standing s = .clashing ∧ w.run.exec s = (.error w.clash, s)) := by
  cases h : w.standing s with
  | vacant => exact .inl ⟨rfl, run_vacant h⟩
  | held => exact .inr (.inl ⟨rfl, run_held h⟩)
  | clashing => exact .inr (.inr ⟨rfl, run_clashing h⟩)

lemma keeps_run {R : σ → σ → Prop} (hrefl : ∀ s, R s s)
    (h : ∀ s, w.standing s = .vacant → R s (w.insert s)) : Attempt.Keeps R w.run := by
  intro s
  rcases exec_run_cases w s with ⟨hvacant, hexec⟩ | ⟨_, hexec⟩ | ⟨_, hexec⟩ <;> rw [hexec]
  · exact h s hvacant
  · exact hrefl s
  · exact hrefl s

end Run

/-! ## Sequences -/

lemma forM_single (w : Write ε σ) : [w].forM run = w.run := bind_pure w.run

lemma forM_refuse (e : ε) : [(refuse e : Write ε σ)].forM run = throw e := forM_single _

lemma forM_append (ws ws' : List (Write ε σ)) :
    (ws ++ ws').forM run = ws.forM run >>= fun _ => ws'.forM run := List.forM_append

/-- Sequences one after the other are one sequence. -/
lemma forM_flatMap {α : Type} (f : α → List (Write ε σ)) (l : List α) :
    (l.flatMap f).forM run = l.forM fun a => (f a).forM run := by
  induction l with
  | nil => rfl
  | cons a l ih =>
    rw [List.flatMap_cons]
    exact (forM_append _ _).trans (congrArg _ (funext fun _ => ih))

lemma firstOpen_cons_held {w : Write ε σ} {ws : List (Write ε σ)} {s : σ}
    (h : w.standing s = .held) : firstOpen s (w :: ws) = firstOpen s ws := by
  simp [firstOpen, h]

lemma firstOpen_cons_open {w : Write ε σ} {ws : List (Write ε σ)} {s : σ}
    (h : w.standing s ≠ .held) : firstOpen s (w :: ws) = some (w.standing s) := by
  simp [firstOpen, h]

/-- Nothing is written before the first write that is not held, nor by one that is refused. -/
lemma forM_unchanged {ws : List (Write ε σ)} {s : σ} (h : firstOpen s ws ≠ some .vacant) :
    (Attempt.exec (ws.forM run) s).2 = s := by
  induction ws with
  | nil => rfl
  | cons w ws ih =>
    rcases exec_run_cases w s with ⟨hvacant, _⟩ | ⟨hheld, hexec⟩ | ⟨_, hexec⟩
    · exact absurd (firstOpen_cons_open (by simp [hvacant])) (hvacant ▸ h)
    · rw [Attempt.exec_forM_cons_ok hexec]
      exact ih (firstOpen_cons_held hheld ▸ h)
    · rw [Attempt.exec_forM_cons_error hexec]

/-- What the writes of a store have in common: an insertion moves the state along `R` and settles
the key, and a settled key stays as it is along `R`. -/
structure Settles (R : σ → σ → Prop) (w : Write ε σ) : Prop where
  grows : ∀ s, w.standing s = .vacant → R s (w.insert s)
  settled : ∀ s, w.standing s = .vacant → w.standing (w.insert s) = .held
  stays : ∀ s s', R s s' → w.standing s ≠ .vacant → w.standing s' = w.standing s

lemma settles_refuse {R : σ → σ → Prop} (e : ε) : Settles R (refuse e) where
  grows _ h := nomatch h
  settled _ h := nomatch h
  stays _ _ _ _ := rfl

/-- A write that looks its key up, and inserts a value that agrees with itself. -/
lemma settles_of_look {β : Type} {R : σ → σ → Prop} {w : Write ε σ} {look : σ → Option β}
    {agrees : β → Bool} {b : β} (hstanding : ∀ s, w.standing s = .against (look s) agrees)
    (hinsert : ∀ s, look (w.insert s) = some b) (hagrees : agrees b = true)
    (hgrows : ∀ s, look s = none → R s (w.insert s))
    (hstays : ∀ s s' b, R s s' → look s = some b → look s' = some b) : Settles R w where
  grows s hvacant := by
    rw [hstanding, Standing.against_eq_vacant] at hvacant
    exact hgrows s hvacant
  settled s _ := by
    rw [hstanding, hinsert, Standing.against_eq_held]
    exact ⟨b, rfl, hagrees⟩
  stays s s' hR htaken := by
    simp only [hstanding, ne_eq, Standing.against_eq_vacant] at htaken ⊢
    obtain ⟨b', hb'⟩ := Option.ne_none_iff_exists'.mp htaken
    rw [hb', hstays s s' b' hR hb']

section Settles

variable {R : σ → σ → Prop} (hrefl : ∀ s, R s s)
  (htrans : ∀ s₁ s₂ s₃, R s₁ s₂ → R s₂ s₃ → R s₁ s₃)
variable {w : Write ε σ} {ws : List (Write ε σ)} {s s' : σ}

include hrefl in
lemma Settles.keeps_run (hw : Settles R w) : Attempt.Keeps R w.run :=
  Write.keeps_run hrefl hw.grows

include hrefl htrans in
lemma keeps_forM (hws : ∀ w ∈ ws, Settles R w) : Attempt.Keeps R (ws.forM run) :=
  Attempt.Keeps.forM hrefl htrans fun w hw => (hws w hw).keeps_run hrefl

include hrefl htrans in
/-- A new key that is reached stays, whether or not a later write is refused. -/
lemma forM_changed (hws : ∀ w ∈ ws, Settles R w) (h : firstOpen s ws = some .vacant) :
    ∃ w ∈ ws, w.standing s = .vacant ∧
      w.standing (Attempt.exec (ws.forM run) s).2 = .held := by
  induction ws with
  | nil => simp [firstOpen] at h
  | cons w ws ih =>
    have hrest : ∀ w' ∈ ws, Settles R w' := fun w' hw' => hws w' (List.mem_cons_of_mem _ hw')
    rcases exec_run_cases w s with ⟨hvacant, hexec⟩ | ⟨hheld, hexec⟩ | ⟨hclash, _⟩
    · have hw := hws w List.mem_cons_self
      have hsettled := hw.settled s hvacant
      rw [Attempt.exec_forM_cons_ok hexec]
      refine ⟨w, List.mem_cons_self, hvacant, ?_⟩
      rw [hw.stays _ _ (keeps_forM hrefl htrans hrest (w.insert s)) (by simp [hsettled])]
      exact hsettled
    · rw [Attempt.exec_forM_cons_ok hexec]
      rw [firstOpen_cons_held hheld] at h
      obtain ⟨w', hmem, hw'⟩ := ih hrest h
      exact ⟨w', List.mem_cons_of_mem _ hmem, hw'⟩
    · rw [firstOpen_cons_open (by simp [hclash]), hclash] at h
      simp at h

include hrefl htrans in
/-- After a sequence that succeeds all its values are held. -/
lemma forM_held (hws : ∀ w ∈ ws, Settles R w)
    (h : Attempt.exec (ws.forM run) s = (.ok ⟨⟩, s')) : ∀ w ∈ ws, w.standing s' = .held := by
  induction ws generalizing s with
  | nil => simp
  | cons w ws ih =>
    have hrest : ∀ w' ∈ ws, Settles R w' := fun w' hw' => hws w' (List.mem_cons_of_mem _ hw')
    obtain ⟨⟨⟩, s₁, hfirst, hlast⟩ :=
      Attempt.exec_bind_eq_ok.mp (Attempt.exec_forM_cons.symm.trans h)
    have hw := hws w List.mem_cons_self
    have hheld : w.standing s₁ = .held := by
      rcases exec_run_cases w s with ⟨hvacant, hexec⟩ | ⟨hheld, hexec⟩ | ⟨_, hexec⟩ <;>
        rw [hexec] at hfirst
      · obtain rfl : w.insert s = s₁ := congrArg Prod.snd hfirst
        exact hw.settled s hvacant
      · obtain rfl : s = s₁ := congrArg Prod.snd hfirst
        exact hheld
      · exact absurd (congrArg Prod.fst hfirst) (by simp)
    rintro w' (_ | ⟨_, hmem⟩)
    · have hgrows : R s₁ s' := by
        have := keeps_forM hrefl htrans hrest s₁
        rwa [hlast] at this
      rw [hw.stays _ _ hgrows (by simp [hheld])]
      exact hheld
    · exact ih hrest hlast w' hmem

end Settles

end Write
