import Mathlib.Data.List.Forall2
import Mathlib.Data.List.GetD
import Mathlib.Data.Nat.Log
import Pluto.Lib.MerkleTree

/-!
# Hash trees of structured data

The hash of a structured value is the root of a tree of trees.  A chunk is its own root.  A container
has the Merkle root of its fields.  A list has the Merkle root of its elements, with room for as many
as its limit says, hashed together with a chunk that holds its length.

Two values that are laid out in the same way (`SameShape`) have equal roots only if their trees are
equal, as long as the lists fit and the hash is injective on the pairs that are hashed
(`eq_of_root_eq`).  Lists of different length do not have to be laid out in the same way, since their
length chunks differ.
-/

inductive HashTree (C : Type)
  | chunk (c : C)
  | container (fields : List (HashTree C))
  | list (limit len : ℕ) (elems : List (HashTree C))

namespace HashTree

/-- How trees are hashed. -/
structure Scheme (C : Type) where
  pair : C → C → C
  zero : C
  /-- The chunk of a length. -/
  length : ℕ → C
  /-- The lengths that the chunks tell apart. -/
  lengths : Set ℕ
  length_injOn : Set.InjOn length lengths

variable {C : Type} (S : Scheme C)

/-! ## Roots -/

mutual

def root : HashTree C → C
  | chunk c => c
  | container fields =>
    MerkleTree.root S.pair S.zero (Nat.clog 2 (roots fields).length) (roots fields)
  | list limit len elems =>
    S.pair (MerkleTree.root S.pair S.zero (Nat.clog 2 limit) (roots elems)) (S.length len)

def roots : List (HashTree C) → List C
  | [] => []
  | t :: ts => root t :: roots ts

end

mutual

/-- The pairs hashed on the way to a root. -/
def pairs : HashTree C → List (C × C)
  | chunk _ => []
  | container fields =>
    MerkleTree.nodes S.pair S.zero (Nat.clog 2 (roots S fields).length) (roots S fields) ++
      pairsAll fields
  | list limit len elems =>
    (MerkleTree.root S.pair S.zero (Nat.clog 2 limit) (roots S elems), S.length len) ::
      (MerkleTree.nodes S.pair S.zero (Nat.clog 2 limit) (roots S elems) ++ pairsAll elems)

def pairsAll : List (HashTree C) → List (C × C)
  | [] => []
  | t :: ts => pairs t ++ pairsAll ts

end

lemma roots_eq_map (ts : List (HashTree C)) : roots S ts = ts.map (root S) := by
  induction ts with
  | nil => rfl
  | cons t ts ih => rw [roots, ih, List.map_cons]

@[simp] lemma length_roots (ts : List (HashTree C)) : (roots S ts).length = ts.length := by
  rw [roots_eq_map, List.length_map]

@[simp] lemma roots_append (ts ts' : List (HashTree C)) :
    roots S (ts ++ ts') = roots S ts ++ roots S ts' := by
  simp [roots_eq_map]

/-! ## Shapes -/

mutual

/-- The lists of a tree have room for their elements, and a length that can be told apart. -/
def Fits : HashTree C → Prop
  | chunk _ => True
  | container fields => AllFit fields
  | list limit len elems =>
    elems.length ≤ 2 ^ Nat.clog 2 limit ∧ len ∈ S.lengths ∧ AllFit elems

def AllFit : List (HashTree C) → Prop
  | [] => True
  | t :: ts => Fits t ∧ AllFit ts

end

lemma allFit_iff {ts : List (HashTree C)} : AllFit S ts ↔ ∀ t ∈ ts, Fits S t := by
  induction ts with
  | nil => simp [AllFit]
  | cons t ts ih => rw [AllFit, ih, List.forall_mem_cons]

mutual

/-- Two trees are laid out in the same way. -/
def SameShape : HashTree C → HashTree C → Prop
  | chunk _, chunk _ => True
  | container fields, container fields' => SameShapes fields fields'
  | list limit len elems, list limit' len' elems' =>
    limit = limit' ∧ (len = len' → SameShapes elems elems')
  | _, _ => False

def SameShapes : List (HashTree C) → List (HashTree C) → Prop
  | [], [] => True
  | t :: ts, t' :: ts' => SameShape t t' ∧ SameShapes ts ts'
  | _, _ => False

end

lemma SameShapes.length_eq {ts ts' : List (HashTree C)} (h : SameShapes ts ts') :
    ts.length = ts'.length := by
  induction ts generalizing ts' with
  | nil =>
    cases ts' with
    | nil => rfl
    | cons t' ts' => exact absurd h (by simp [SameShapes])
  | cons t ts ih =>
    cases ts' with
    | nil => exact absurd h (by simp [SameShapes])
    | cons t' ts' => rw [List.length_cons, List.length_cons, ih h.2]

lemma SameShapes.append {ts ts' us us' : List (HashTree C)} (h : SameShapes ts ts')
    (h' : SameShapes us us') : SameShapes (ts ++ us) (ts' ++ us') := by
  induction ts generalizing ts' with
  | nil =>
    cases ts' with
    | nil => exact h'
    | cons t' ts' => exact absurd h (by simp [SameShapes])
  | cons t ts ih =>
    cases ts' with
    | nil => exact absurd h (by simp [SameShapes])
    | cons t' ts' => exact ⟨h.1, ih h.2⟩

/-- The elements of two lists have one shape if they come from the same function. -/
lemma SameShapes.map {α : Type} {f : α → HashTree C} {as bs : List α}
    (hf : ∀ a ∈ as, ∀ b ∈ bs, SameShape (f a) (f b)) (hlen : as.length = bs.length) :
    SameShapes (as.map f) (bs.map f) := by
  induction as generalizing bs with
  | nil =>
    obtain rfl : bs = [] := List.length_eq_zero_iff.mp hlen.symm
    trivial
  | cons a as ih =>
    cases bs with
    | nil => cases hlen
    | cons b bs =>
      refine ⟨hf a List.mem_cons_self b List.mem_cons_self, ih ?_ (Nat.succ.inj hlen)⟩
      exact fun a ha b hb => hf a (List.mem_cons_of_mem _ ha) b (List.mem_cons_of_mem _ hb)

/-- Two lists of trees are equal if the trees are equal for related values. -/
lemma map_eq_map_iff {α : Type} {f : α → HashTree C} {R : α → α → Prop} {as bs : List α}
    (hf : ∀ a ∈ as, ∀ b ∈ bs, (f a = f b ↔ R a b)) :
    as.map f = bs.map f ↔ List.Forall₂ R as bs := by
  induction as generalizing bs with
  | nil => cases bs <;> simp
  | cons a as ih =>
    cases bs with
    | nil => simp
    | cons b bs =>
      rw [List.map_cons, List.map_cons, List.cons.injEq, List.forall₂_cons,
        hf a List.mem_cons_self b List.mem_cons_self, ih]
      exact fun a ha b hb => hf a (List.mem_cons_of_mem _ ha) b (List.mem_cons_of_mem _ hb)

/-! ## Equal roots, equal trees -/

section Binding

variable {S} {N : Set (C × C)}

/-- Injectivity on the hashed pairs is binding without a condition on the chunks. -/
lemma binding_of_injOn (hN : Set.InjOn (Function.uncurry S.pair) N) :
    MerkleTree.Binding S.pair N ∅ where
  inj _ hp _ hq h := hN hp hq h
  fresh _ _ h := h

/-- Equal roots of lists of chunks that have the same length. -/
lemma chunks_eq_of_root_eq (hN : Set.InjOn (Function.uncurry S.pair) N) {d : ℕ} {cs cs' : List C}
    (hcs : ∀ p ∈ MerkleTree.nodes S.pair S.zero d cs, p ∈ N)
    (hcs' : ∀ p ∈ MerkleTree.nodes S.pair S.zero d cs', p ∈ N) (hlen : cs.length = cs'.length)
    (hcap : cs.length ≤ 2 ^ d)
    (h : MerkleTree.root S.pair S.zero d cs = MerkleTree.root S.pair S.zero d cs') : cs = cs' := by
  have hall := (binding_of_injOn hN).getD_eq_of_root_eq hcs hcs' h
  apply List.ext_getElem hlen
  intro i hi hi'
  have heq := hall i (hi.trans_le hcap)
  rwa [List.getD_eq_getElem _ _ hi, List.getD_eq_getElem _ _ hi'] at heq

mutual

theorem eq_of_root_eq (hN : Set.InjOn (Function.uncurry S.pair) N) :
    ∀ {t t' : HashTree C}, SameShape t t' → Fits S t → Fits S t' → (∀ p ∈ pairs S t, p ∈ N) →
      (∀ p ∈ pairs S t', p ∈ N) → root S t = root S t' → t = t'
  | chunk c, chunk c', _, _, _, _, _, h => congrArg chunk h
  | container fields, container fields', hshape, hfit, hfit', ht, ht', h => by
    have hlen := SameShapes.length_eq hshape
    rw [root, root, length_roots, length_roots, ← hlen] at h
    simp only [pairs, length_roots, ← hlen, List.mem_append] at ht ht'
    have hcap : (roots S fields).length ≤ 2 ^ Nat.clog 2 fields.length := by
      rw [length_roots]
      exact Nat.le_pow_clog (by omega) _
    have hroots := chunks_eq_of_root_eq hN (fun p hp => ht p (.inl hp))
      (fun p hp => ht' p (.inl hp)) (by simpa using hlen) hcap h
    rw [eq_of_roots_eq hN hshape hfit hfit' (fun p hp => ht p (.inr hp))
      (fun p hp => ht' p (.inr hp)) hroots]
  | list limit len elems, list limit' len' elems', hshape, hfit, hfit', ht, ht', h => by
    obtain ⟨rfl, hshape⟩ := hshape
    obtain ⟨hcap, hknown, hfit⟩ := hfit
    obtain ⟨-, hknown', hfit'⟩ := hfit'
    -- the lengths are equal, so the elements have the same shape
    have hpair := hN (ht _ List.mem_cons_self) (ht' _ List.mem_cons_self) h
    obtain ⟨hroot, hlength⟩ := Prod.mk.inj hpair
    obtain rfl := S.length_injOn hknown hknown' hlength
    have hlen := (hshape rfl).length_eq
    have hroots := chunks_eq_of_root_eq hN
      (fun p hp => ht p (List.mem_cons_of_mem _ (List.mem_append_left _ hp)))
      (fun p hp => ht' p (List.mem_cons_of_mem _ (List.mem_append_left _ hp)))
      (by simpa using hlen) (by simpa using hcap) hroot
    rw [eq_of_roots_eq hN (hshape rfl) hfit hfit'
      (fun p hp => ht p (List.mem_cons_of_mem _ (List.mem_append_right _ hp)))
      (fun p hp => ht' p (List.mem_cons_of_mem _ (List.mem_append_right _ hp))) hroots]

theorem eq_of_roots_eq (hN : Set.InjOn (Function.uncurry S.pair) N) :
    ∀ {ts ts' : List (HashTree C)}, SameShapes ts ts' → AllFit S ts → AllFit S ts' →
      (∀ p ∈ pairsAll S ts, p ∈ N) → (∀ p ∈ pairsAll S ts', p ∈ N) →
      roots S ts = roots S ts' → ts = ts'
  | [], [], _, _, _, _, _, _ => rfl
  | t :: ts, t' :: ts', hshape, hfit, hfit', ht, ht', h => by
    obtain ⟨hroot, hroots⟩ := List.cons.inj h
    rw [eq_of_root_eq hN hshape.1 hfit.1 hfit'.1 (fun p hp => ht p (List.mem_append_left _ hp))
        (fun p hp => ht' p (List.mem_append_left _ hp)) hroot,
      eq_of_roots_eq hN hshape.2 hfit.2 hfit'.2 (fun p hp => ht p (List.mem_append_right _ hp))
        (fun p hp => ht' p (List.mem_append_right _ hp)) hroots]

end

end Binding

/-! ## Sparse trees

If two zero chunks hash to the zero chunk, then so do the subtrees above the end of a list, and a
tree can be evaluated without them. -/

section Sparse

def sparseLayers : ℕ → List C → C
  | _, [] => S.zero
  | 0, c :: _ => c
  | d + 1, c :: cs =>
    S.pair (sparseLayers d ((c :: cs).take (2 ^ d))) (sparseLayers d ((c :: cs).drop (2 ^ d)))

def sparseNodes : ℕ → List C → List (C × C)
  | _, [] => []
  | 0, _ :: _ => []
  | d + 1, c :: cs =>
    (sparseLayers S d ((c :: cs).take (2 ^ d)), sparseLayers S d ((c :: cs).drop (2 ^ d))) ::
      (sparseNodes d ((c :: cs).take (2 ^ d)) ++ sparseNodes d ((c :: cs).drop (2 ^ d)))

mutual

def sparseRoot : HashTree C → C
  | chunk c => c
  | container fields => sparseLayers S (Nat.clog 2 fields.length) (sparseRoots fields)
  | list limit len elems =>
    S.pair (sparseLayers S (Nat.clog 2 limit) (sparseRoots elems)) (S.length len)

def sparseRoots : List (HashTree C) → List C
  | [] => []
  | t :: ts => sparseRoot t :: sparseRoots ts

end

mutual

def sparsePairs : HashTree C → List (C × C)
  | chunk _ => []
  | container fields =>
    sparseNodes S (Nat.clog 2 fields.length) (sparseRoots S fields) ++ sparsePairsAll fields
  | list limit len elems =>
    (sparseLayers S (Nat.clog 2 limit) (sparseRoots S elems), S.length len) ::
      (sparseNodes S (Nat.clog 2 limit) (sparseRoots S elems) ++ sparsePairsAll elems)

def sparsePairsAll : List (HashTree C) → List (C × C)
  | [] => []
  | t :: ts => sparsePairs t ++ sparsePairsAll ts

end

variable {S}

lemma root_eq_sparseLayers (hzero : S.pair S.zero S.zero = S.zero) (d : ℕ) (cs : List C) :
    MerkleTree.root S.pair S.zero d cs = sparseLayers S d cs := by
  induction d generalizing cs with
  | zero => cases cs <;> rfl
  | succ d ih =>
    cases cs with
    | nil =>
      rw [MerkleTree.root, List.take_nil, List.drop_nil, ih, sparseLayers, hzero]
      cases d <;> rfl
    | cons c cs => rw [MerkleTree.root, sparseLayers, ih, ih]

lemma mem_nodes_sparse (hzero : S.pair S.zero S.zero = S.zero) {d : ℕ} {cs : List C} {p : C × C}
    (h : p ∈ MerkleTree.nodes S.pair S.zero d cs) :
    p ∈ sparseNodes S d cs ∨ p = (S.zero, S.zero) := by
  induction d generalizing cs with
  | zero => cases h
  | succ d ih =>
    rw [MerkleTree.nodes, root_eq_sparseLayers hzero, root_eq_sparseLayers hzero] at h
    cases cs with
    | nil =>
      have hempty : sparseNodes S d [] = [] := by cases d <;> rfl
      have hroot : sparseLayers S d [] = S.zero := by cases d <;> rfl
      rw [List.take_nil, List.drop_nil, hroot, List.mem_cons, List.mem_append, or_self] at h
      rcases h with h | h
      · exact .inr h
      · simpa [hempty, sparseNodes] using ih h
    | cons c cs =>
      rw [sparseNodes, List.mem_cons, List.mem_append]
      rw [List.mem_cons, List.mem_append] at h
      rcases h with h | h | h
      · exact .inl (.inl h)
      · exact (ih h).imp_left fun h => .inr (.inl h)
      · exact (ih h).imp_left fun h => .inr (.inr h)

mutual

theorem root_eq_sparseRoot (hzero : S.pair S.zero S.zero = S.zero) :
    ∀ t : HashTree C, root S t = sparseRoot S t
  | chunk _ => rfl
  | container fields => by
    rw [root, sparseRoot, length_roots, root_eq_sparseLayers hzero, roots_eq_sparseRoots hzero fields]
  | list limit len elems => by
    rw [root, sparseRoot, root_eq_sparseLayers hzero, roots_eq_sparseRoots hzero elems]

theorem roots_eq_sparseRoots (hzero : S.pair S.zero S.zero = S.zero) :
    ∀ ts : List (HashTree C), roots S ts = sparseRoots S ts
  | [] => rfl
  | t :: ts => by rw [roots, sparseRoots, root_eq_sparseRoot hzero t, roots_eq_sparseRoots hzero ts]

end

mutual

theorem mem_pairs_sparse (hzero : S.pair S.zero S.zero = S.zero) {p : C × C} :
    ∀ {t : HashTree C}, p ∈ pairs S t → p ∈ sparsePairs S t ∨ p = (S.zero, S.zero)
  | chunk _, h => by cases h
  | container fields, h => by
    rw [pairs, length_roots, roots_eq_sparseRoots hzero, List.mem_append] at h
    rw [sparsePairs, List.mem_append]
    rcases h with h | h
    · exact (mem_nodes_sparse hzero h).imp_left .inl
    · exact (mem_pairsAll_sparse hzero h).imp_left .inr
  | list limit len elems, h => by
    rw [pairs, roots_eq_sparseRoots hzero, root_eq_sparseLayers hzero, List.mem_cons,
      List.mem_append] at h
    rw [sparsePairs, List.mem_cons, List.mem_append]
    rcases h with h | h | h
    · exact .inl (.inl h)
    · exact (mem_nodes_sparse hzero h).imp_left fun h => .inr (.inl h)
    · exact (mem_pairsAll_sparse hzero h).imp_left fun h => .inr (.inr h)

theorem mem_pairsAll_sparse (hzero : S.pair S.zero S.zero = S.zero) {p : C × C} :
    ∀ {ts : List (HashTree C)}, p ∈ pairsAll S ts →
      p ∈ sparsePairsAll S ts ∨ p = (S.zero, S.zero)
  | [], h => by cases h
  | t :: ts, h => by
    rw [pairsAll, List.mem_append] at h
    rw [sparsePairsAll, List.mem_append]
    rcases h with h | h
    · exact (mem_pairs_sparse hzero h).imp_left .inl
    · exact (mem_pairsAll_sparse hzero h).imp_left .inr

end

end Sparse

end HashTree
