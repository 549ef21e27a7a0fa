import Mathlib.Data.Finset.Card

/-!
# Keeping the first element of every key

`firstPerKey key seen l` is the loop `for a in l { if seen.insert(key(a)) { push(a) } }` over a
set of keys already seen.  What comes out is a sublist with pairwise distinct keys that still has
every key of the input, and a list with distinct keys passes unchanged.
-/

variable {α κ : Type} [DecidableEq κ]

/-- The elements of a list whose key has not been seen before them. -/
def firstPerKey (key : α → κ) : List κ → List α → List α
  | _, [] => []
  | seen, a :: l =>
    if key a ∈ seen then firstPerKey key seen l
    else a :: firstPerKey key (key a :: seen) l

namespace FirstPerKey

variable {key : α → κ}

lemma sublist (seen : List κ) (l : List α) : (firstPerKey key seen l).Sublist l := by
  induction l generalizing seen with
  | nil => exact List.Sublist.refl _
  | cons a l ih =>
    rw [firstPerKey]
    split_ifs
    · exact (ih _).cons a
    · exact (ih _).cons_cons a

lemma mem {seen : List κ} {l : List α} {a : α} (h : a ∈ firstPerKey key seen l) : a ∈ l :=
  (sublist seen l).subset h

lemma key_notMem_seen {seen : List κ} {l : List α} {a : α} (h : a ∈ firstPerKey key seen l) :
    key a ∉ seen := by
  induction l generalizing seen with
  | nil => simp [firstPerKey] at h
  | cons b l ih =>
    rw [firstPerKey] at h
    split_ifs at h with hb
    · exact ih h
    · rcases List.mem_cons.mp h with rfl | htail
      · exact hb
      · exact fun hs => ih htail (List.mem_cons_of_mem _ hs)

lemma nodup (seen : List κ) (l : List α) : ((firstPerKey key seen l).map key).Nodup := by
  induction l generalizing seen with
  | nil => simp [firstPerKey]
  | cons a l ih =>
    rw [firstPerKey]
    split_ifs
    · exact ih _
    · rw [List.map_cons, List.nodup_cons]
      refine ⟨?_, ih _⟩
      rintro hmem
      obtain ⟨b, hb, hkey⟩ := List.mem_map.mp hmem
      exact key_notMem_seen hb (by simp [hkey])

/-- A list with distinct fresh keys passes unchanged. -/
lemma eq_self {seen : List κ} {l : List α} (hnd : (l.map key).Nodup)
    (hs : ∀ a ∈ l, key a ∉ seen) : firstPerKey key seen l = l := by
  induction l generalizing seen with
  | nil => rfl
  | cons a l ih =>
    rw [List.map_cons, List.nodup_cons] at hnd
    rw [firstPerKey, if_neg (hs a (by simp))]
    congr 1
    refine ih hnd.2 fun b hb => ?_
    rw [List.mem_cons, not_or]
    exact ⟨fun heq => hnd.1 (heq ▸ List.mem_map_of_mem hb), hs b (List.mem_cons_of_mem _ hb)⟩

/-- A map that keeps the keys commutes with the loop. -/
lemma map {f : α → α} (hf : ∀ a, key (f a) = key a) (seen : List κ) (l : List α) :
    firstPerKey key seen (l.map f) = (firstPerKey key seen l).map f := by
  induction l generalizing seen with
  | nil => rfl
  | cons a l ih =>
    rw [List.map_cons, firstPerKey, firstPerKey, hf]
    split_ifs
    · exact ih seen
    · rw [List.map_cons, ih]

/-- Distinct keys from a finite set bound the length. -/
lemma length_le_card {l : List α} (hnd : (l.map key).Nodup) {S : Finset κ}
    (hS : ∀ a ∈ l, key a ∈ S) : l.length ≤ S.card := by
  rw [← List.length_map (f := key), ← List.toFinset_card_of_nodup hnd]
  refine Finset.card_le_card fun k hk => ?_
  obtain ⟨a, ha, rfl⟩ := List.mem_map.mp (List.mem_toFinset.mp hk)
  exact hS a ha

end FirstPerKey
