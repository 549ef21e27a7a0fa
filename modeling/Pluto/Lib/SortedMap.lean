import Mathlib.Data.List.Nodup
import Mathlib.Order.Lattice

/-!
# Ordered maps

A map whose entries are kept in increasing order of their keys, so that equal maps have equal
entries and iterating over one is deterministic.  `insert` replaces the value of a key that is
already there.
-/

/-- A map from `κ` to `β`, as the list of its entries in increasing order of keys. -/
structure SortedMap (κ β : Type) [LT κ] where
  entries : List (κ × β)
  sorted : entries.Pairwise fun a b => a.1 < b.1

namespace SortedMap

variable {κ β : Type}

@[ext] lemma ext [LT κ] {m m' : SortedMap κ β} (h : m.entries = m'.entries) : m = m' := by
  cases m
  cases m'
  cases h
  rfl

instance [LT κ] [DecidableEq κ] [DecidableEq β] : DecidableEq (SortedMap κ β) := fun m m' =>
  decidable_of_iff (m.entries = m'.entries) ⟨ext, fun h => h ▸ rfl⟩

/-- The empty map. -/
def empty [LT κ] : SortedMap κ β := ⟨[], List.Pairwise.nil⟩

variable [LinearOrder κ]

/-- Inserts into a sorted list of entries. -/
def insertEntry (k : κ) (b : β) : List (κ × β) → List (κ × β)
  | [] => [(k, b)]
  | e :: es =>
    if k < e.1 then (k, b) :: e :: es
    else if k = e.1 then (k, b) :: es
    else e :: insertEntry k b es

variable {k : κ} {es : List (κ × β)}

lemma mem_insertEntry {b : β} {e : κ × β} (h : e ∈ insertEntry k b es) : e = (k, b) ∨ e ∈ es := by
  induction es with
  | nil => exact .inl (List.mem_singleton.mp h)
  | cons f es ih =>
    simp only [insertEntry] at h
    split_ifs at h
    · exact List.mem_cons.mp h
    · exact (List.mem_cons.mp h).imp_right (List.mem_cons_of_mem f)
    · rcases List.mem_cons.mp h with rfl | h
      · exact .inr List.mem_cons_self
      · exact (ih h).imp_right (List.mem_cons_of_mem f)

lemma sorted_insertEntry (k : κ) (b : β) (h : es.Pairwise fun a b => a.1 < b.1) :
    (insertEntry k b es).Pairwise fun a b => a.1 < b.1 := by
  induction es with
  | nil => exact List.pairwise_singleton _ _
  | cons f es ih =>
    have hf := (List.pairwise_cons.mp h).1
    simp only [insertEntry]
    split_ifs with hlt heq
    · refine List.pairwise_cons.mpr ⟨fun e he => ?_, h⟩
      rcases List.mem_cons.mp he with rfl | he
      · exact hlt
      · exact lt_trans hlt (hf e he)
    · exact List.pairwise_cons.mpr ⟨fun e he => heq ▸ hf e he, h.of_cons⟩
    · refine List.pairwise_cons.mpr ⟨fun e he => ?_, ih h.of_cons⟩
      rcases mem_insertEntry he with rfl | he
      · exact lt_of_le_of_ne (not_lt.mp hlt) (Ne.symm heq)
      · exact hf e he

/-- Inserts an entry, replacing the one with its key. -/
def insert (m : SortedMap κ β) (k : κ) (b : β) : SortedMap κ β :=
  ⟨insertEntry k b m.entries, sorted_insertEntry k b m.sorted⟩

/-- Inserts entries one after the other. -/
def insertAll (m : SortedMap κ β) (es : List (κ × β)) : SortedMap κ β :=
  es.foldl (fun m e => m.insert e.1 e.2) m

/-- An entry above all others goes to the end. -/
lemma insertEntry_of_lt {b : β} (h : ∀ e ∈ es, e.1 < k) :
    insertEntry k b es = es ++ [(k, b)] := by
  induction es with
  | nil => rfl
  | cons f es ih =>
    have hf : f.1 < k := h f List.mem_cons_self
    have hes : ∀ e ∈ es, e.1 < k := fun e he => h e (List.mem_cons_of_mem f he)
    simp [insertEntry, lt_asymm hf, ne_of_gt hf, ih hes]

variable {m : SortedMap κ β}

lemma entries_insertAll (h : (m.entries ++ es).Pairwise fun a b => a.1 < b.1) :
    (m.insertAll es).entries = m.entries ++ es := by
  induction es generalizing m with
  | nil => simp [insertAll]
  | cons e es ih =>
    have hlt : ∀ f ∈ m.entries, f.1 < e.1 := fun f hf =>
      (List.pairwise_append.mp h).2.2 f hf e List.mem_cons_self
    have hinsert : (m.insert e.1 e.2).entries = m.entries ++ [e] := insertEntry_of_lt hlt
    have hstep : m.insertAll (e :: es) = (m.insert e.1 e.2).insertAll es := rfl
    rw [hstep, ih (by rw [hinsert]; simpa using h), hinsert]
    simp

/-- A map is rebuilt from its entries. -/
@[simp] theorem insertAll_entries (m : SortedMap κ β) : empty.insertAll m.entries = m :=
  ext (entries_insertAll (m := empty) m.sorted)

/-! ## Lookup -/

/-- The number of entries. -/
def size (m : SortedMap κ β) : ℕ := m.entries.length

def lookup (m : SortedMap κ β) (k : κ) : Option β := (m.entries.find? (·.1 = k)).map Prod.snd

/-- Removes the entry of a key. -/
def erase (m : SortedMap κ β) (k : κ) : SortedMap κ β :=
  ⟨m.entries.filter (·.1 ≠ k), m.sorted.filter _⟩

/-- The keys, in increasing order. -/
def keys (m : SortedMap κ β) : List κ := m.entries.map Prod.fst

/-- The values, in increasing order of their keys. -/
def values (m : SortedMap κ β) : List β := m.entries.map Prod.snd

/-- The map with the same keys and other values. -/
def mapValues {γ : Type} (f : κ → β → γ) (m : SortedMap κ β) : SortedMap κ γ :=
  ⟨m.entries.map fun e => (e.1, f e.1 e.2), List.pairwise_map.mpr m.sorted⟩

lemma nodup_keys (m : SortedMap κ β) : m.keys.Nodup :=
  (List.pairwise_map.mpr m.sorted).imp fun h => ne_of_lt h

lemma lookup_eq_some_iff {b : β} :
    m.lookup k = some b ↔ (k, b) ∈ m.entries := by
  rw [lookup, Option.map_eq_some_iff]
  constructor
  · rintro ⟨⟨k', b⟩, hfind, rfl⟩
    obtain rfl : k' = k := by simpa using List.find?_some hfind
    exact List.mem_of_find?_eq_some hfind
  · intro hmem
    cases hfind : m.entries.find? (·.1 = k) with
    | none => exact absurd (decide_eq_true rfl) (List.find?_eq_none.mp hfind (k, b) hmem)
    | some e =>
      have hkey : e.1 = k := by simpa using List.find?_some hfind
      exact ⟨e, rfl, congrArg Prod.snd
        (List.inj_on_of_nodup_map m.nodup_keys (List.mem_of_find?_eq_some hfind) hmem hkey)⟩

lemma lookup_eq_none_iff : m.lookup k = none ↔ k ∉ m.keys := by
  rw [Option.eq_none_iff_forall_ne_some]
  simp [lookup_eq_some_iff, keys]

/-- Maps with the same bindings are equal. -/
lemma ext_lookup {m m' : SortedMap κ β} (h : ∀ k b, m.lookup k = some b ↔ m'.lookup k = some b) :
    m = m' := by
  have hperm : m.entries.Perm m'.entries := by
    rw [List.perm_ext_iff_of_nodup (List.Nodup.of_map _ m.nodup_keys)
      (List.Nodup.of_map _ m'.nodup_keys)]
    rintro ⟨k, b⟩
    rw [← lookup_eq_some_iff, ← lookup_eq_some_iff, h]
  exact ext (hperm.eq_of_pairwise (fun a b _ _ hab hba => absurd hba (lt_asymm hab)) m.sorted
    m'.sorted)

lemma mem_insertEntry_iff {b : β} (h : es.Pairwise fun a b => a.1 < b.1) {e : κ × β} :
    e ∈ insertEntry k b es ↔ e = (k, b) ∨ (e.1 ≠ k ∧ e ∈ es) := by
  induction es with
  | nil => simp [insertEntry]
  | cons f es ih =>
    have hf := (List.pairwise_cons.mp h).1
    have hes := ih h.of_cons
    simp only [insertEntry]
    split_ifs with hlt heq
    · have hne : ∀ e ∈ f :: es, e.1 ≠ k := by
        intro e he
        rcases List.mem_cons.mp he with rfl | he
        · exact ne_of_gt hlt
        · exact ne_of_gt (hlt.trans (hf e he))
      rw [List.mem_cons]
      exact or_congr_right ⟨fun he => ⟨hne e he, he⟩, And.right⟩
    · rw [List.mem_cons, List.mem_cons]
      refine or_congr_right ⟨fun he => ⟨?_, .inr he⟩, ?_⟩
      · exact heq ▸ ne_of_gt (hf e he)
      · rintro ⟨hne, rfl | he⟩
        · exact absurd heq.symm hne
        · exact he
    · rw [List.mem_cons, hes, List.mem_cons]
      constructor
      · rintro (rfl | rfl | ⟨hne, he⟩)
        · exact .inr ⟨Ne.symm heq, .inl rfl⟩
        · exact .inl rfl
        · exact .inr ⟨hne, .inr he⟩
      · rintro (rfl | ⟨hne, rfl | he⟩)
        · exact .inr (.inl rfl)
        · exact .inl rfl
        · exact .inr (.inr ⟨hne, he⟩)

lemma lookup_insert_eq_some_iff {k k' : κ} {b b' : β} :
    (m.insert k b).lookup k' = some b' ↔ (k' = k ∧ b' = b) ∨ (k' ≠ k ∧ m.lookup k' = some b') := by
  rw [lookup_eq_some_iff, insert, mem_insertEntry_iff m.sorted, lookup_eq_some_iff, Prod.mk.injEq]

@[simp] lemma lookup_insert_self (m : SortedMap κ β) (k : κ) (b : β) :
    (m.insert k b).lookup k = some b :=
  lookup_insert_eq_some_iff.mpr (.inl ⟨rfl, rfl⟩)

lemma lookup_insert_ne (m : SortedMap κ β) {k k' : κ} (b : β) (h : k' ≠ k) :
    (m.insert k b).lookup k' = m.lookup k' := by
  ext b'
  rw [lookup_insert_eq_some_iff]
  simp [h]

lemma lookup_erase_eq_some_iff {k k' : κ} {b : β} :
    (m.erase k).lookup k' = some b ↔ k' ≠ k ∧ m.lookup k' = some b := by
  rw [lookup_eq_some_iff, erase, List.mem_filter, lookup_eq_some_iff, and_comm]
  simp

lemma lookup_mapValues {γ : Type} (f : κ → β → γ) (m : SortedMap κ β) (k : κ) :
    (m.mapValues f).lookup k = (m.lookup k).map (f k) := by
  ext c
  rw [lookup_eq_some_iff, Option.map_eq_some_iff]
  simp only [mapValues, List.mem_map, Prod.mk.injEq, Prod.exists, lookup_eq_some_iff]
  constructor
  · rintro ⟨_, b, hmem, rfl, rfl⟩
    exact ⟨b, hmem, rfl⟩
  · rintro ⟨b, hmem, rfl⟩
    exact ⟨k, b, hmem, rfl, rfl⟩

/-- A new key adds its value, wherever its place is. -/
lemma values_insert_perm (b : β) (h : m.lookup k = none) :
    (m.insert k b).values.Perm (b :: m.values) := by
  have hentries : (m.insert k b).entries.Perm ((k, b) :: m.entries) := by
    rw [lookup_eq_none_iff] at h
    refine (List.perm_ext_iff_of_nodup (List.Nodup.of_map _ (m.insert k b).nodup_keys) ?_).mpr ?_
    · exact List.nodup_cons.mpr ⟨fun hmem => h (List.mem_map_of_mem hmem),
        List.Nodup.of_map _ m.nodup_keys⟩
    · intro e
      rw [insert, mem_insertEntry_iff m.sorted, List.mem_cons]
      refine or_congr_right ⟨And.right, fun he => ⟨?_, he⟩⟩
      rintro rfl
      exact h (List.mem_map_of_mem he)
  exact hentries.map Prod.snd

@[simp] lemma lookup_empty (k : κ) : (empty : SortedMap κ β).lookup k = none := rfl

lemma lookup_insertAll_eq_some {b : β}
    (h : (m.insertAll es).lookup k = some b) : (k, b) ∈ es ∨ m.lookup k = some b := by
  induction es generalizing m with
  | nil => exact .inr h
  | cons e es ih =>
    rcases ih h with hmem | hlook
    · exact .inl (List.mem_cons_of_mem _ hmem)
    · rcases lookup_insert_eq_some_iff.mp hlook with ⟨rfl, rfl⟩ | ⟨-, hold⟩
      · exact .inl List.mem_cons_self
      · exact .inr hold

/-- A key of an inserted entry is found, if maybe with the value of a later one. -/
lemma exists_lookup_insertAll (h : k ∈ es.map Prod.fst ∨ ∃ b, m.lookup k = some b) :
    ∃ b, (m.insertAll es).lookup k = some b := by
  induction es generalizing m with
  | nil => exact h.resolve_left (by simp)
  | cons e es ih =>
    refine ih ?_
    by_cases hk : k = e.1
    · exact .inr ⟨e.2, by rw [hk, lookup_insert_self]⟩
    · rw [List.map_cons, List.mem_cons, or_iff_right hk] at h
      rwa [lookup_insert_ne _ _ hk]

/-- A map made of entries with different keys has exactly these. -/
lemma lookup_insertAll_empty (hnodup : (es.map Prod.fst).Nodup) {b : β} :
    ((empty : SortedMap κ β).insertAll es).lookup k = some b ↔ (k, b) ∈ es := by
  have hfound : ∀ b', ((empty : SortedMap κ β).insertAll es).lookup k = some b' → (k, b') ∈ es :=
    fun b' h => (lookup_insertAll_eq_some h).resolve_right (by simp)
  refine ⟨hfound b, fun hmem => ?_⟩
  obtain ⟨b', hb'⟩ := exists_lookup_insertAll (m := (empty : SortedMap κ β))
    (.inl (List.mem_map_of_mem hmem))
  have hsame := List.inj_on_of_nodup_map hnodup (hfound b' hb') hmem rfl
  rw [hb', (Prod.mk.inj hsame).2]

/-- The values are those of the keys, in any order of the keys. -/
lemma values_perm {ks : List κ} (hnodup : ks.Nodup)
    (h : ∀ k, k ∈ ks ↔ ∃ b, m.lookup k = some b) : m.values.Perm (ks.filterMap m.lookup) := by
  have hperm : m.keys.Perm ks := by
    refine (List.perm_ext_iff_of_nodup m.nodup_keys hnodup).mpr fun k => ?_
    rw [h, ← not_iff_not, ← lookup_eq_none_iff]
    simp [Option.eq_none_iff_forall_ne_some]
  have hvalues : m.keys.filterMap m.lookup = m.values := by
    rw [keys, values, List.filterMap_map, ← List.filterMap_eq_map]
    refine List.filterMap_congr fun e he => ?_
    exact lookup_eq_some_iff.mpr he
  rw [← hvalues]
  exact hperm.filterMap _

end SortedMap
