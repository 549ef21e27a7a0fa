import Mathlib.Data.Finset.Card
import Mathlib.Data.List.AList

/-!
# Hash maps with an unspecified iteration order

A hash map is an association list without duplicate keys (`AList`), so what can be looked up does
not depend on any order.  Iterating over one does: `IterOrder` is an arbitrary choice of an order
for every list of entries, and a function that iterates takes such a choice as an argument.  A
theorem about all choices is a theorem about every hasher.
-/

/-- A map from `κ` to `β`. -/
abbrev HashMap (κ β : Type) : Type := AList fun _ : κ => β

/-- An iteration order: every list of entries is visited in some order. -/
structure IterOrder (α : Type) where
  order : List α → List α
  perm : ∀ l, (order l).Perm l

/-- The order the entries are stored in. -/
def IterOrder.stored (α : Type) : IterOrder α := ⟨id, fun _ => List.Perm.refl _⟩

namespace HashMap

variable {κ β : Type}

/-- The number of entries. -/
def size (m : HashMap κ β) : ℕ := m.entries.length

/-- The values, in iteration order. -/
def valuesIn (o : IterOrder (Sigma fun _ : κ => β)) (m : HashMap κ β) : List β :=
  (o.order m.entries).map Sigma.snd

@[simp] lemma length_valuesIn (o : IterOrder (Sigma fun _ : κ => β)) (m : HashMap κ β) :
    (valuesIn o m).length = m.size := by
  simp [valuesIn, size, (o.perm m.entries).length_eq]

variable [DecidableEq κ]

variable {o : IterOrder (Sigma fun _ : κ => β)} {m : HashMap κ β} {k : κ}

lemma mem_order_iff {b : β} :
    (⟨k, b⟩ : Sigma fun _ : κ => β) ∈ o.order m.entries ↔ m.lookup k = some b := by
  rw [(o.perm _).mem_iff, ← AList.mem_lookup_iff]
  exact Option.mem_def

lemma mem_valuesIn {b : β} :
    b ∈ valuesIn o m ↔ ∃ k, m.lookup k = some b := by
  simp only [valuesIn, List.mem_map]
  constructor
  · rintro ⟨⟨k, b'⟩, hmem, rfl⟩
    exact ⟨k, mem_order_iff.mp hmem⟩
  · rintro ⟨k, hk⟩
    exact ⟨⟨k, b⟩, mem_order_iff.mpr hk, rfl⟩

/-- The keys, in iteration order. -/
def keysIn (o : IterOrder (Sigma fun _ : κ => β)) (m : HashMap κ β) : List κ :=
  (o.order m.entries).map Sigma.fst

omit [DecidableEq κ] in
@[simp] lemma length_keysIn (o : IterOrder (Sigma fun _ : κ => β)) (m : HashMap κ β) :
    (keysIn o m).length = m.size := by
  simp [keysIn, size, (o.perm m.entries).length_eq]

omit [DecidableEq κ] in
lemma nodup_keysIn (o : IterOrder (Sigma fun _ : κ => β)) (m : HashMap κ β) :
    (keysIn o m).Nodup :=
  ((o.perm m.entries).map Sigma.fst).nodup_iff.mpr m.nodupKeys

lemma mem_keysIn :
    k ∈ keysIn o m ↔ ∃ b, m.lookup k = some b := by
  simp only [keysIn, List.mem_map]
  constructor
  · rintro ⟨⟨k, b⟩, hmem, rfl⟩
    exact ⟨b, mem_order_iff.mp hmem⟩
  · rintro ⟨b, hb⟩
    exact ⟨⟨k, b⟩, mem_order_iff.mpr hb, rfl⟩

/-- Keys and values are visited in the same order. -/
lemma valuesIn_eq_map {f : κ → β}
    (h : ∀ k b, m.lookup k = some b → b = f k) : valuesIn o m = (keysIn o m).map f := by
  rw [valuesIn, keysIn, List.map_map]
  refine List.map_congr_left ?_
  rintro ⟨k, b⟩ hmem
  exact h k b (mem_order_iff.mp hmem)

/-- A map with the keys of a finite set has as many entries. -/
lemma size_eq_card {keys : Finset κ}
    (h : ∀ k, k ∈ keys ↔ ∃ b, m.lookup k = some b) : m.size = keys.card := by
  have hkeys : keys = (keysIn (IterOrder.stored _) m).toFinset := by
    ext k
    rw [h, List.mem_toFinset, mem_keysIn]
  rw [hkeys, List.toFinset_card_of_nodup (nodup_keysIn _ m), length_keysIn]

/-- Values that determine their key are visited without repetition of a key. -/
lemma nodup_map_valuesIn {key : β → κ}
    (h : ∀ k b, m.lookup k = some b → key b = k) : ((valuesIn o m).map key).Nodup := by
  have hkeys : (valuesIn o m).map key = keysIn o m := by
    rw [valuesIn, List.map_map]
    refine List.map_congr_left ?_
    rintro ⟨k, b⟩ hmem
    exact h k b (mem_order_iff.mp hmem)
  exact hkeys ▸ nodup_keysIn o m

variable {k k' : κ}

/-- What an insertion leaves to be found: the new binding, or an old one of another key. -/
lemma lookup_insert_eq_some {b b' : β}
    (h : (m.insert k b).lookup k' = some b') : (k' = k ∧ b' = b) ∨ m.lookup k' = some b' := by
  by_cases hk : k' = k
  · subst hk
    rw [AList.lookup_insert] at h
    exact .inl ⟨rfl, (Option.some.inj h).symm⟩
  · rw [AList.lookup_insert_ne hk] at h
    exact .inr h

/-- What a removal leaves to be found. -/
lemma lookup_erase_eq_some {b : β} :
    AList.lookup k' (m.erase k) = some b ↔ k' ≠ k ∧ m.lookup k' = some b := by
  by_cases hk : k' = k
  · subst hk
    simp
  · simp [hk, AList.lookup_erase_ne hk]

/-! ## Extension -/

/-- Every binding of the first map is one of the second. -/
def Extends (m m' : HashMap κ β) : Prop := ∀ k b, m.lookup k = some b → m'.lookup k = some b

lemma Extends.refl (m : HashMap κ β) : Extends m m := fun _ _ h => h

lemma Extends.trans {m₁ m₂ m₃ : HashMap κ β} (h : Extends m₁ m₂) (h' : Extends m₂ m₃) :
    Extends m₁ m₃ :=
  fun k b hb => h' k b (h k b hb)

lemma extends_insert (b : β) (h : m.lookup k = none) :
    Extends m (m.insert k b) := by
  intro k' b' hb'
  have hne : k' ≠ k := by
    rintro rfl
    simp [h] at hb'
  rw [AList.lookup_insert_ne hne]
  exact hb'

/-! ## Maps to lists -/

/-- The list of a key, empty if there is none. -/
def listAt (m : HashMap κ (List β)) (k : κ) : List β := (m.lookup k).getD []

/-- `entry(k).or_default().push(b)` -/
def push (m : HashMap κ (List β)) (k : κ) (b : β) : HashMap κ (List β) :=
  m.insert k (m.listAt k ++ [b])

@[simp] lemma listAt_push_self (m : HashMap κ (List β)) (k : κ) (b : β) :
    (m.push k b).listAt k = m.listAt k ++ [b] := by
  simp [listAt, push]

lemma listAt_push_ne (m : HashMap κ (List β)) (b : β) (h : k' ≠ k) :
    (m.push k b).listAt k' = m.listAt k' := by
  simp [listAt, push, AList.lookup_insert_ne h]

lemma mem_listAt_push {m : HashMap κ (List β)} {b b' : β} :
    b' ∈ (m.push k b).listAt k' ↔ b' ∈ m.listAt k' ∨ (k' = k ∧ b' = b) := by
  by_cases h : k' = k
  · subst h
    simp
  · simp [listAt_push_ne m b h, h]

@[simp] lemma listAt_erase_self (m : HashMap κ (List β)) (k : κ) : listAt (m.erase k) k = [] := by
  simp [listAt]

lemma listAt_erase_ne (m : HashMap κ (List β)) (h : k' ≠ k) :
    listAt (m.erase k) k' = m.listAt k' := by
  simp [listAt, AList.lookup_erase_ne h]

lemma mem_listAt_erase {m : HashMap κ (List β)} {b : β} :
    b ∈ listAt (m.erase k) k' ↔ b ∈ m.listAt k' ∧ k' ≠ k := by
  by_cases h : k' = k
  · subst h
    simp
  · simp [listAt_erase_ne m h, h]

/-- The items of a list by their keys. -/
def groupBy (key : β → κ) (l : List β) : HashMap κ (List β) :=
  l.foldl (fun m b => m.push (key b) b) ∅

lemma lookup_groupBy_eq_some {key : β → κ} {l : List β} {bs : List β} :
    (groupBy key l).lookup k = some bs ↔ l.filter (fun b => key b = k) = bs ∧ bs ≠ [] := by
  induction l using List.reverseRecOn generalizing bs with
  | nil =>
    simp only [groupBy, List.foldl_nil, List.filter_nil]
    exact ⟨(fun h => by simp at h), fun h => absurd h.1.symm h.2⟩
  | append_singleton l b ih =>
    have hpush : groupBy key (l ++ [b]) = (groupBy key l).push (key b) b := by
      rw [groupBy, List.foldl_append]
      rfl
    rw [hpush, List.filter_append]
    by_cases hk : key b = k
    · subst hk
      -- the list that was there is the one of `l`, empty or not
      have hlist : (groupBy key l).listAt (key b) = l.filter fun a => key a = key b := by
        cases hl : (groupBy key l).lookup (key b) with
        | some as => rw [listAt, hl, (ih.mp hl).1, Option.getD_some]
        | none =>
          by_contra hne
          rw [listAt, hl, Option.getD_none] at hne
          rw [ih.mpr ⟨rfl, fun h => hne h.symm⟩] at hl
          cases hl
      rw [push, AList.lookup_insert, hlist, Option.some_inj]
      simp only [decide_true, List.filter_singleton, cond_true]
      exact ⟨fun h => ⟨h, by rw [← h]; simp⟩, And.left⟩
    · rw [push, AList.lookup_insert_ne (Ne.symm hk), ih]
      simp [hk]
/-! ## Inserting several entries -/

/-- `insert` for every entry of a list. -/
def insertAll (m : HashMap κ β) (es : List (κ × β)) : HashMap κ β :=
  es.foldl (fun m e => m.insert e.1 e.2) m

lemma lookup_insertAll_eq_some {es : List (κ × β)} {b : β}
    (h : (m.insertAll es).lookup k = some b) : (k, b) ∈ es ∨ m.lookup k = some b := by
  induction es generalizing m with
  | nil => exact .inr h
  | cons e es ih =>
    rcases ih h with hmem | hlook
    · exact .inl (List.mem_cons_of_mem _ hmem)
    · rcases lookup_insert_eq_some hlook with ⟨rfl, rfl⟩ | hold
      · exact .inl List.mem_cons_self
      · exact .inr hold

/-- A key of an inserted entry is found, if maybe with the value of a later one. -/
lemma exists_lookup_insertAll {es : List (κ × β)}
    (h : k ∈ es.map Prod.fst ∨ ∃ b, m.lookup k = some b) :
    ∃ b, (m.insertAll es).lookup k = some b := by
  induction es generalizing m with
  | nil => exact h.resolve_left (by simp)
  | cons e es ih =>
    refine ih ?_
    by_cases hk : k = e.1
    · exact .inr ⟨e.2, by rw [hk, AList.lookup_insert]⟩
    · rw [List.map_cons, List.mem_cons, or_iff_right hk] at h
      rwa [AList.lookup_insert_ne hk]

/-- A map made of entries with different keys has exactly these. -/
lemma lookup_insertAll_empty {es : List (κ × β)} (hnodup : (es.map Prod.fst).Nodup) {b : β} :
    ((∅ : HashMap κ β).insertAll es).lookup k = some b ↔ (k, b) ∈ es := by
  have hfound : ∀ b', ((∅ : HashMap κ β).insertAll es).lookup k = some b' → (k, b') ∈ es :=
    fun b' h => (lookup_insertAll_eq_some h).resolve_right (by simp)
  refine ⟨hfound b, fun hmem => ?_⟩
  obtain ⟨b', hb'⟩ := exists_lookup_insertAll (m := (∅ : HashMap κ β))
    (.inl (List.mem_map_of_mem hmem))
  have hsame := List.inj_on_of_nodup_map hnodup (hfound b' hb') hmem rfl
  rw [hb', (Prod.mk.inj hsame).2]

/-! ## Removing several keys -/

/-- `remove` for every key of a list. -/
def eraseAll (m : HashMap κ β) (ks : List κ) : HashMap κ β := ks.foldl (fun m k => m.erase k) m

lemma lookup_eraseAll (m : HashMap κ β) (ks : List κ) (k : κ) :
    (m.eraseAll ks).lookup k = if k ∈ ks then none else m.lookup k := by
  induction ks generalizing m with
  | nil => simp [eraseAll]
  | cons k' ks ih =>
    have hstep : m.eraseAll (k' :: ks) = eraseAll (m.erase k') ks := by
      simp only [eraseAll, List.foldl_cons]
    rw [hstep, ih]
    by_cases hks : k ∈ ks
    · simp [hks]
    · by_cases hk : k = k'
      · subst hk
        simp
      · simp [hks, hk, AList.lookup_erase_ne hk]

lemma lookup_eraseAll_eq_some {ks : List κ} {b : β} :
    (m.eraseAll ks).lookup k = some b ↔ m.lookup k = some b ∧ k ∉ ks := by
  rw [lookup_eraseAll]
  by_cases h : k ∈ ks <;> simp [h]

end HashMap
