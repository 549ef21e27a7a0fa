import Mathlib.Data.List.Sort

/-!
# Stable sorting by a key

`sortByKey key` orders a list by a key and keeps the order of elements with equal keys.  Two facts
say what a stable sort is worth.  If no two elements share a key, the result does not depend on the
order of the input (`sortByKey_eq_of_perm`).  In any case one element comes out before another if its
key is smaller, or if the keys are equal and it came first (`pair_sublist_sortByKey_iff`); that `a`
stands before `b` in a list without repetition is written `[a, b] <+ l`.
-/

open List

variable {α κ : Type} [LinearOrder κ] (key : α → κ)

/-- The stable sort by a key. -/
def sortByKey (l : List α) : List α := l.insertionSort fun a b => key a ≤ key b

variable {key}

instance total_key_le : Std.Total fun a b : α => key a ≤ key b := ⟨fun a b => le_total (key a) (key b)⟩

instance isTrans_key_le : IsTrans α fun a b => key a ≤ key b := ⟨fun _ _ _ => le_trans⟩

variable (key) in
lemma perm_sortByKey (l : List α) : (sortByKey key l).Perm l := perm_insertionSort _ l

@[simp] lemma mem_sortByKey {a : α} {l : List α} : a ∈ sortByKey key l ↔ a ∈ l :=
  (perm_sortByKey key l).mem_iff

lemma pairwise_sortByKey (l : List α) : (sortByKey key l).Pairwise fun a b => key a ≤ key b :=
  pairwise_insertionSort _ l

/-- Sorting commutes with a map that keeps the keys. -/
lemma map_sortByKey {β : Type} {key' : β → κ} {f : α → β} (hkey : ∀ a, key' (f a) = key a)
    (l : List α) : (sortByKey key l).map f = sortByKey key' (l.map f) := by
  refine map_insertionSort (fun a b => key a ≤ key b) (fun a b => key' a ≤ key' b) f l ?_
  intro a _ b _
  rw [hkey, hkey]

/-- Without equal keys, the order of the input does not matter. -/
theorem sortByKey_eq_of_perm {l l' : List α} (hperm : l.Perm l') (hnodup : (l.map key).Nodup) :
    sortByKey key l = sortByKey key l' := by
  refine List.Perm.eq_of_pairwise ?_ (pairwise_sortByKey l) (pairwise_sortByKey l')
    ((perm_sortByKey key l).trans (hperm.trans (perm_sortByKey key l').symm))
  intro a b ha hb hab hba
  have ha : a ∈ l := mem_sortByKey.mp ha
  have hb : b ∈ l := hperm.mem_iff.mpr (mem_sortByKey.mp hb)
  exact List.inj_on_of_nodup_map hnodup ha hb (le_antisymm hab hba)

/-! ## Which of two elements comes first -/

/-- Of two elements of a list one stands first. -/
lemma pair_sublist_or {a b : α} {l : List α} (ha : a ∈ l) (hb : b ∈ l) (hne : a ≠ b) :
    [a, b] <+ l ∨ [b, a] <+ l := by
  induction l with
  | nil => cases ha
  | cons c l ih =>
    rcases mem_cons.mp ha with rfl | ha'
    · have hb' : b ∈ l := (mem_cons.mp hb).resolve_left (Ne.symm hne)
      exact .inl ((singleton_sublist.mpr hb').cons_cons a)
    · rcases mem_cons.mp hb with rfl | hb'
      · exact .inr ((singleton_sublist.mpr ha').cons_cons b)
      · exact (ih ha' hb').imp (Sublist.cons c) (Sublist.cons c)

/-- Of two elements of a list without repetition only one stands first. -/
lemma not_pair_sublist_swap {a b : α} {l : List α} (hnodup : l.Nodup) (h : [a, b] <+ l) :
    ¬ [b, a] <+ l := by
  induction l with
  | nil => cases h
  | cons c l ih =>
    obtain ⟨hc, hnodup⟩ := nodup_cons.mp hnodup
    intro h'
    cases h with
    | cons _ h =>
      cases h' with
      | cons _ h' => exact ih hnodup h h'
      | cons_cons _ _ => exact hc (h.subset (by simp))
    | cons_cons _ h =>
      have hb : b ∈ l := singleton_sublist.mp h
      cases h' with
      | cons _ h' => exact hc (h'.subset (by simp))
      | cons_cons _ _ => exact hc hb

/-- **Which of two elements a stable sort puts first.** -/
theorem pair_sublist_sortByKey_iff {a b : α} {l : List α} (hnodup : l.Nodup) (ha : a ∈ l)
    (hb : b ∈ l) (hne : a ≠ b) :
    [a, b] <+ sortByKey key l ↔ key a < key b ∨ (key a = key b ∧ [a, b] <+ l) := by
  have hsorted : ∀ {x y}, [x, y] <+ sortByKey key l → key x ≤ key y := by
    intro x y h
    have hpair : [x, y].Pairwise fun a b => key a ≤ key b := (pairwise_sortByKey l).sublist h
    simpa using hpair
  -- what makes the sort stable
  have hstable : ∀ {x y}, key x ≤ key y → [x, y] <+ l → [x, y] <+ sortByKey key l := by
    intro x y hle h
    exact sublist_insertionSort (by simpa using hle) h
  constructor
  · intro h
    rcases lt_or_eq_of_le (hsorted h) with hlt | heq
    · exact .inl hlt
    · refine .inr ⟨heq, (pair_sublist_or ha hb hne).resolve_right fun hba => ?_⟩
      have hnodup' := (perm_sortByKey key l).nodup_iff.mpr hnodup
      exact not_pair_sublist_swap hnodup' h (hstable heq.ge hba)
  · rintro (hlt | ⟨heq, h⟩)
    · refine (pair_sublist_or (mem_sortByKey.mpr ha) (mem_sortByKey.mpr hb) hne).resolve_right ?_
      exact fun h => absurd (hsorted h) (not_le.mpr hlt)
    · exact hstable heq.le h
