import Mathlib.Data.List.Basic
import Mathlib.Tactic.Ring

/-!
# Merkle trees with zero padding

`root pair zero d cs` is the root of the complete binary tree of depth `d` over the chunks `cs`,
padded with `zero` on the right; `pair` hashes two children.  `layers` computes the same root
bottom-up: it hashes neighbours, completes an odd layer with the root of an all-zero subtree, and
goes on (`layers_eq_root`).

A hash function is not injective, so binding is stated relative to the pairs that are really
hashed.  `nodes pair zero d cs` lists the pairs of a tree, and `Binding pair N L` says that on the
set `N` of pairs the hash has no collision and never hits one of the chunks `L`.  Under it two
trees of one depth have equal roots only if they have equal padded leaves (`getD_eq_of_root_eq`),
and a tree never has the root of a deeper one (`root_ne_root`).  For trees whose depths differ by one
`getD_eq_pair_of_root_eq` says what would have to be the case without the second assumption.
-/

namespace MerkleTree

variable {C : Type} (pair : C → C → C)

/-! ## Trees -/

/-- The root of the tree of depth `d` over `cs`. -/
def root (zero : C) : ℕ → List C → C
  | 0, cs => cs.headD zero
  | d + 1, cs => pair (root zero d (cs.take (2 ^ d))) (root zero d (cs.drop (2 ^ d)))

/-- The pairs hashed in the tree of depth `d` over `cs`. -/
def nodes (zero : C) : ℕ → List C → List (C × C)
  | 0, _ => []
  | d + 1, cs =>
    (root pair zero d (cs.take (2 ^ d)), root pair zero d (cs.drop (2 ^ d))) ::
      (nodes zero d (cs.take (2 ^ d)) ++ nodes zero d (cs.drop (2 ^ d)))

/-! ## Bottom-up -/

/-- One layer up: neighbours are hashed, and an odd last one is hashed with `zero`. -/
def layer (zero : C) : List C → List C
  | [] => []
  | [a] => [pair a zero]
  | a :: b :: cs => pair a b :: layer zero cs

/-- `d` layers up.  The padding of a layer is the all-zero tree below it. -/
def layers (zero : C) : ℕ → List C → List C
  | 0, cs => cs
  | d + 1, cs => layers (pair zero zero) d (layer pair zero cs)

variable {pair} {zero : C}

lemma length_layer (cs : List C) : (layer pair zero cs).length = (cs.length + 1) / 2 := by
  fun_induction layer with
  | case1 => simp
  | case2 => simp
  | case3 a b cs ih =>
    simp only [List.length_cons, ih]
    omega

lemma layer_take (k : ℕ) (cs : List C) :
    layer pair zero (cs.take (2 * k)) = (layer pair zero cs).take k := by
  induction k generalizing cs with
  | zero => simp [layer]
  | succ k ih =>
    rw [show 2 * (k + 1) = 2 * k + 1 + 1 by omega]
    match cs with
    | [] => simp [layer]
    | [a] => simp [layer]
    | a :: b :: cs => simp [layer, ih]

lemma layer_drop (k : ℕ) (cs : List C) :
    layer pair zero (cs.drop (2 * k)) = (layer pair zero cs).drop k := by
  induction k generalizing cs with
  | zero => simp
  | succ k ih =>
    rw [show 2 * (k + 1) = 2 * k + 1 + 1 by omega]
    match cs with
    | [] => simp [layer]
    | [a] => simp [layer]
    | a :: b :: cs => simp [layer, ih]

/-- A tree is a tree over the first layer above its leaves. -/
lemma root_succ (d : ℕ) (cs : List C) :
    root pair zero (d + 1) cs = root pair (pair zero zero) d (layer pair zero cs) := by
  induction d generalizing cs with
  | zero =>
    match cs with
    | [] => rfl
    | [a] => rfl
    | a :: b :: cs => rfl
  | succ d ih =>
    have hpow : 2 ^ (d + 1) = 2 * 2 ^ d := by ring
    rw [root, ih, ih, hpow, layer_take, layer_drop]
    rfl

/-- **Bottom-up computes the root**, if there are enough layers for the chunks. -/
theorem layers_eq_root {d : ℕ} {cs : List C} (hne : cs ≠ []) (hlen : cs.length ≤ 2 ^ d) :
    layers pair zero d cs = [root pair zero d cs] := by
  induction d generalizing cs zero with
  | zero =>
    have hpos := List.length_pos_iff.mpr hne
    obtain ⟨c, rfl⟩ := List.length_eq_one_iff.mp (show cs.length = 1 by omega)
    rfl
  | succ d ih =>
    have hpos := List.length_pos_iff.mpr hne
    rw [pow_succ] at hlen
    rw [layers, root_succ]
    apply ih
    · rw [← List.length_pos_iff, length_layer]
      omega
    · rw [length_layer]
      omega

variable (pair zero) in
/-- One layer too few leaves the two children of the root. -/
lemma layers_eq_children {d : ℕ} {cs : List C} (hgt : 2 ^ d < cs.length)
    (hlen : cs.length ≤ 2 ^ (d + 1)) :
    ∃ l r, layers pair zero d cs = [l, r] ∧ root pair zero (d + 1) cs = pair l r := by
  induction d generalizing cs zero with
  | zero =>
    obtain ⟨l, r, rfl⟩ := List.length_eq_two.mp (show cs.length = 2 by simp at hgt hlen; omega)
    exact ⟨l, r, rfl, rfl⟩
  | succ d ih =>
    rw [pow_succ] at hgt hlen
    rw [layers, root_succ]
    apply ih
    · rw [length_layer]
      omega
    · rw [length_layer]
      omega

/-! ## Binding -/

variable (pair) in
/-- On the pairs `N` the hash has no collision, and it never gives one of the chunks `L`. -/
structure Binding (N : Set (C × C)) (L : Set C) : Prop where
  inj : ∀ p ∈ N, ∀ q ∈ N, pair p.1 p.2 = pair q.1 q.2 → p = q
  fresh : ∀ p ∈ N, pair p.1 p.2 ∉ L

variable {N N' : Set (C × C)} {L L' : Set C}

lemma Binding.mono (hb : Binding pair N L) (hN : N' ⊆ N) (hL : L' ⊆ L) : Binding pair N' L' where
  inj p hp q hq := hb.inj p (hN hp) q (hN hq)
  fresh p hp hmem := hb.fresh p (hN hp) (hL hmem)

variable (pair zero) in
lemma root_mem_nodes (d : ℕ) (cs : List C) :
    ∃ p ∈ nodes pair zero (d + 1) cs, root pair zero (d + 1) cs = pair p.1 p.2 :=
  ⟨_, List.mem_cons_self, rfl⟩

/-- Equal roots of trees with the same depth have equal children. -/
lemma Binding.children (hb : Binding pair N L) {d e : ℕ} {cs cs' : List C}
    (hcs : ∀ p ∈ nodes pair zero (d + 1) cs, p ∈ N)
    (hcs' : ∀ p ∈ nodes pair zero (e + 1) cs', p ∈ N)
    (h : root pair zero (d + 1) cs = root pair zero (e + 1) cs') :
    root pair zero d (cs.take (2 ^ d)) = root pair zero e (cs'.take (2 ^ e)) ∧
      root pair zero d (cs.drop (2 ^ d)) = root pair zero e (cs'.drop (2 ^ e)) := by
  have hpair := hb.inj _ (hcs _ List.mem_cons_self) _ (hcs' _ List.mem_cons_self) h
  exact Prod.mk.inj hpair

/-- **Equal roots, equal leaves.** -/
theorem Binding.getD_eq_of_root_eq (hb : Binding pair N L) {d : ℕ} {cs cs' : List C}
    (hcs : ∀ p ∈ nodes pair zero d cs, p ∈ N) (hcs' : ∀ p ∈ nodes pair zero d cs', p ∈ N)
    (h : root pair zero d cs = root pair zero d cs') :
    ∀ i < 2 ^ d, cs.getD i zero = cs'.getD i zero := by
  induction d generalizing cs cs' with
  | zero =>
    intro i hi
    obtain rfl : i = 0 := by simpa using hi
    simpa [root, List.headD_eq_head?_getD, List.head?_eq_getElem?] using h
  | succ d ih =>
    obtain ⟨hleft, hright⟩ := hb.children hcs hcs' h
    have inTake : ∀ {l : List C}, (∀ p ∈ nodes pair zero (d + 1) l, p ∈ N) →
        ∀ p ∈ nodes pair zero d (l.take (2 ^ d)), p ∈ N := fun hl p hp =>
      hl p (List.mem_cons_of_mem _ (List.mem_append_left _ hp))
    have inDrop : ∀ {l : List C}, (∀ p ∈ nodes pair zero (d + 1) l, p ∈ N) →
        ∀ p ∈ nodes pair zero d (l.drop (2 ^ d)), p ∈ N := fun hl p hp =>
      hl p (List.mem_cons_of_mem _ (List.mem_append_right _ hp))
    intro i hi
    rw [pow_succ] at hi
    by_cases hlt : i < 2 ^ d
    · have := ih (inTake hcs) (inTake hcs') hleft i hlt
      simpa [List.getD_eq_getElem?_getD, List.getElem?_take, hlt] using this
    · have := ih (inDrop hcs) (inDrop hcs') hright (i - 2 ^ d) (by omega)
      have hi' : 2 ^ d + (i - 2 ^ d) = i := by omega
      simpa [List.getD_eq_getElem?_getD, List.getElem?_drop, hi'] using this

/-- **A tree does not have the root of a deeper one**, as long as its first leaf is not itself a
hash: along the left edge one meets that leaf while the deeper tree still has a node. -/
theorem Binding.root_ne_root (hb : Binding pair N L) {d e : ℕ} (hlt : d < e) {cs cs' : List C}
    (hcs : ∀ p ∈ nodes pair zero d cs, p ∈ N) (hcs' : ∀ p ∈ nodes pair zero e cs', p ∈ N)
    (hhead : cs.headD zero ∈ L) : root pair zero d cs ≠ root pair zero e cs' := by
  intro h
  induction d generalizing e cs cs' with
  | zero =>
    obtain ⟨e, rfl⟩ : ∃ k, e = k + 1 := ⟨e - 1, by omega⟩
    obtain ⟨p, hp, hroot⟩ := root_mem_nodes pair zero e cs'
    apply hb.fresh p (hcs' p hp)
    rw [← hroot, ← h]
    exact hhead
  | succ d ih =>
    obtain ⟨e, rfl⟩ : ∃ k, e = k + 1 := ⟨e - 1, by omega⟩
    obtain ⟨hleft, -⟩ := hb.children hcs hcs' h
    apply ih (by omega) _ _ _ hleft
    · exact fun p hp => hcs p (List.mem_cons_of_mem _ (List.mem_append_left _ hp))
    · exact fun p hp => hcs' p (List.mem_cons_of_mem _ (List.mem_append_left _ hp))
    · cases cs with
      | nil => simpa using hhead
      | cons c cs => simpa [List.take_cons (Nat.two_pow_pos d)] using hhead

/-- Without collisions, a tree has the root of one that is a level deeper only if its first leaf is the
hash of the first two leaves of the other. -/
theorem getD_eq_pair_of_root_eq
    (hinj : ∀ p ∈ N, ∀ q ∈ N, pair p.1 p.2 = pair q.1 q.2 → p = q) {d : ℕ} {cs cs' : List C}
    (hcs : ∀ p ∈ nodes pair zero d cs, p ∈ N) (hcs' : ∀ p ∈ nodes pair zero (d + 1) cs', p ∈ N)
    (h : root pair zero d cs = root pair zero (d + 1) cs') :
    cs.getD 0 zero = pair (cs'.getD 0 zero) (cs'.getD 1 zero) := by
  induction d generalizing cs cs' with
  | zero => rcases cs with _ | ⟨a, cs⟩ <;> rcases cs' with _ | ⟨b, _ | ⟨c, cs'⟩⟩ <;> exact h
  | succ d ih =>
    have hpair := hinj _ (hcs _ List.mem_cons_self) _ (hcs' _ List.mem_cons_self) h
    have hleft := ih (fun p hp => hcs p (List.mem_cons_of_mem _ (List.mem_append_left _ hp)))
      (fun p hp => hcs' p (List.mem_cons_of_mem _ (List.mem_append_left _ hp))) (Prod.mk.inj hpair).1
    have hone : 1 < 2 ^ (d + 1) := Nat.one_lt_two_pow (by omega)
    simpa [List.getD_eq_getElem?_getD, List.getElem?_take, hone] using hleft

end MerkleTree
