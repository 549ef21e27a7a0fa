import Mathlib.Data.Finset.Card
import Mathlib.Tactic.Linarith

/-!
# Quorums with faulty members, and voting with locks

`Committee` is a finite set of members, some of them faulty, with a quorum size large enough for
two quorums to share a member that is not faulty.  `LockedVoting` is what is left of a two-phase
round-based voting protocol when messages are forgotten: who prepared and who committed which
value in which round, and the three facts a vote depends on.  A correct member commits a value
only over a quorum that prepared it; it prepares at most one value per round; and past the first
round it prepares a value only over a quorum of members whose earlier commitments are all
accounted for by the prepared quorum it follows (the *lock*).

`LockedVoting.agreement` is the safety theorem: two committed quorums carry one value, whatever
their rounds.
-/

/-- A finite committee with faulty members and a quorum size.  `overlap` makes two quorums share
a correct member. -/
structure Committee (P : Type) where
  members : Finset P
  faulty : Finset P
  quorum : ℕ
  overlap : members.card + faulty.card < 2 * quorum

namespace Committee

variable {P : Type} [DecidableEq P] (C : Committee P)

/-- A member that is not faulty. -/
def Correct (p : P) : Prop := p ∈ C.members ∧ p ∉ C.faulty

/-- A set of members of quorum size. -/
def IsQuorum (Q : Finset P) : Prop := Q ⊆ C.members ∧ C.quorum ≤ Q.card

variable {C}

omit [DecidableEq P] in
/-- More members than there are faulty ones contain a correct one. -/
lemma exists_correct_of_card {A : Finset P} (hA : A ⊆ C.members) (h : C.faulty.card < A.card) :
    ∃ p ∈ A, C.Correct p := by
  obtain ⟨p, hp, hpf⟩ := Finset.exists_mem_notMem_of_card_lt_card h
  exact ⟨p, hp, hA hp, hpf⟩

/-- Two quorums share a correct member. -/
theorem exists_correct_inter {A B : Finset P} (hA : C.IsQuorum A) (hB : C.IsQuorum B) :
    ∃ p, p ∈ A ∧ p ∈ B ∧ C.Correct p := by
  have hunion : (A ∪ B).card ≤ C.members.card :=
    Finset.card_le_card (Finset.union_subset hA.1 hB.1)
  have hsum := Finset.card_union_add_card_inter A B
  have hov := C.overlap
  have hAc := hA.2
  have hBc := hB.2
  have hcard : C.faulty.card < (A ∩ B).card := by omega
  obtain ⟨p, hp, hc⟩ :=
    exists_correct_of_card (Finset.inter_subset_left.trans hA.1) hcard
  exact ⟨p, (Finset.mem_inter.mp hp).1, (Finset.mem_inter.mp hp).2, hc⟩

lemma exists_correct_of_quorum {A : Finset P} (hA : C.IsQuorum A) : ∃ p ∈ A, C.Correct p := by
  obtain ⟨p, hp, -, hc⟩ := exists_correct_inter hA hA
  exact ⟨p, hp, hc⟩

/-- A duplicate-free list of members of quorum length is a quorum. -/
lemma isQuorum_toFinset {l : List P} (hnd : l.Nodup) (hmem : ∀ p ∈ l, p ∈ C.members)
    (hlen : C.quorum ≤ l.length) : C.IsQuorum l.toFinset := by
  refine ⟨fun p hp => hmem p (List.mem_toFinset.mp hp), ?_⟩
  rwa [List.toFinset_card_of_nodup hnd]

end Committee

/-- The votes of a run, without the messages that carried them.  Rounds start at `first`. -/
structure LockedVoting {P : Type} [DecidableEq P] (C : Committee P) (V : Type) where
  prepared : P → ℤ → V → Prop
  committed : P → ℤ → V → Prop
  first : ℤ
  prepared_unique : ∀ {p r v w}, C.Correct p → prepared p r v → prepared p r w → v = w
  committed_unique : ∀ {p r v w}, C.Correct p → committed p r v → committed p r w → v = w
  first_le : ∀ {p r v}, C.Correct p → committed p r v → first ≤ r
  /-- A commitment stands on a prepared quorum. -/
  committed_prepared : ∀ {p r v}, C.Correct p → committed p r v →
    ∃ Q, C.IsQuorum Q ∧ ∀ q ∈ Q, C.Correct q → prepared q r v
  /-- Past the first round a preparation follows a quorum `Q` whose correct members either
  committed nothing below, or nothing above the prepared round `pr` of the same value. -/
  prepared_locked : ∀ {p r v}, C.Correct p → prepared p r v → r ≤ first ∨
    ∃ Q, C.IsQuorum Q ∧
      ((∀ q ∈ Q, C.Correct q → ∀ s w, committed q s w → ¬ s < r) ∨
        ∃ pr, pr < r ∧ (∃ Q', C.IsQuorum Q' ∧ ∀ q ∈ Q', C.Correct q → prepared q pr v) ∧
          ∀ q ∈ Q, C.Correct q → ∀ s w, committed q s w → s < r → s ≤ pr)

namespace LockedVoting

variable {P : Type} [DecidableEq P] {C : Committee P} {V : Type} (R : LockedVoting C V)

/-- A quorum whose correct members all committed `v` in round `r`. -/
def CommittedQuorum (r : ℤ) (v : V) : Prop :=
  ∃ Q, C.IsQuorum Q ∧ ∀ q ∈ Q, C.Correct q → R.committed q r v

variable {R}

lemma CommittedQuorum.exists_committed {r : ℤ} {v : V} (h : R.CommittedQuorum r v) :
    ∃ q, C.Correct q ∧ R.committed q r v := by
  obtain ⟨Q, hQ, hcom⟩ := h
  obtain ⟨q, hq, hc⟩ := Committee.exists_correct_of_quorum hQ
  exact ⟨q, hc, hcom q hq hc⟩

/-- Two prepared quorums of one round carry one value. -/
lemma prepared_quorum_unique {r : ℤ} {v w : V} {Q Q' : Finset P} (hQ : C.IsQuorum Q)
    (hQ' : C.IsQuorum Q') (hv : ∀ q ∈ Q, C.Correct q → R.prepared q r v)
    (hw : ∀ q ∈ Q', C.Correct q → R.prepared q r w) : v = w := by
  obtain ⟨q, h1, h2, hc⟩ := Committee.exists_correct_inter hQ hQ'
  exact R.prepared_unique hc (hv q h1 hc) (hw q h2 hc)

/-- **The lock.**  After a committed quorum, correct members prepare only its value. -/
theorem CommittedQuorum.prepared_eq {r : ℤ} {v : V} (h : R.CommittedQuorum r v) {p : P} {r' : ℤ}
    {v' : V} (hp : C.Correct p) (hprep : R.prepared p r' v') (hlt : r < r') : v' = v := by
  -- strong induction on the distance of the later round from `r`
  obtain ⟨k, hk⟩ : ∃ k : ℕ, r' = r + k := ⟨(r' - r).toNat, by omega⟩
  induction k using Nat.strong_induction_on generalizing p r' v' with
  | _ k ih =>
    obtain ⟨q₀, hq₀, hcom₀⟩ := h.exists_committed
    have hfirst := R.first_le hq₀ hcom₀
    rcases R.prepared_locked hp hprep with hle | ⟨Q, hQ, hlock⟩
    · omega
    obtain ⟨Qc, hQc, hcom⟩ := h
    obtain ⟨q, hqQ, hqc, hq⟩ := Committee.exists_correct_inter hQ hQc
    rcases hlock with hnone | ⟨pr, hpr, ⟨Q', hQ', hprep'⟩, hhigh⟩
    · exact absurd hlt (hnone q hqQ hq r v (hcom q hqc hq))
    · have hrpr : r ≤ pr := hhigh q hqQ hq r v (hcom q hqc hq) hlt
      rcases hrpr.eq_or_lt with heq | hgt
      · -- the followed quorum prepared in round `r` itself: two prepared quorums of one round
        obtain ⟨Q'', hQ'', hv⟩ := R.committed_prepared hq (hcom q hqc hq)
        exact prepared_quorum_unique hQ' hQ'' (heq ▸ hprep') hv
      · -- it prepared strictly between the two rounds: the induction hypothesis applies
        obtain ⟨q', hq', hc'⟩ := Committee.exists_correct_of_quorum hQ'
        exact ih (pr - r).toNat (by omega) hc' (hprep' q' hq' hc') hgt (by omega)

/-- **Agreement.**  Two committed quorums carry one value. -/
theorem agreement {r r' : ℤ} {v v' : V} (h : R.CommittedQuorum r v)
    (h' : R.CommittedQuorum r' v') : v = v' := by
  wlog hle : r ≤ r' generalizing r r' v v'
  · exact (this h' h (by omega)).symm
  rcases hle.eq_or_lt with heq | hlt
  · subst heq
    obtain ⟨Q, hQ, hv⟩ := h
    obtain ⟨Q', hQ', hv'⟩ := h'
    obtain ⟨q, hq, hq', hc⟩ := Committee.exists_correct_inter hQ hQ'
    exact R.committed_unique hc (hv q hq hc) (hv' q hq' hc)
  · obtain ⟨q, hq, hcom⟩ := h'.exists_committed
    obtain ⟨Q, hQ, hprep⟩ := R.committed_prepared hq hcom
    obtain ⟨p, hp, hc⟩ := Committee.exists_correct_of_quorum hQ
    exact (h.prepared_eq hc (hprep p hp hc) hlt).symm

end LockedVoting
