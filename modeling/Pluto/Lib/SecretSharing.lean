import Mathlib.LinearAlgebra.Lagrange

/-!
# Secret sharing

A polynomial is the list of its coefficients, constant term first, and `horner` is its value.  The
coefficients are in a module over the field of the points: scalars for a secret that is shared,
group elements for commitments to it, or for signatures with shares.

`interpolate_zero` is what all of these rest on: the values at enough distinct points, weighted with
the Lagrange coefficients of the points at zero, sum up to the constant term.  It follows from
Mathlib's interpolation of monomials.
-/

namespace SecretSharing

variable {F M N : Type} [Field F] [AddCommGroup M] [Module F M] [AddCommGroup N] [Module F N]

/-- The value of a polynomial at a point. -/
def horner (coeffs : List M) (x : F) : M := coeffs.foldr (fun c acc => c + x • acc) 0

@[simp] lemma horner_nil (x : F) : horner ([] : List M) x = 0 := rfl

@[simp] lemma horner_cons (c : M) (coeffs : List M) (x : F) :
    horner (c :: coeffs) x = c + x • horner coeffs x := rfl

/-- Linear maps act on the coefficients. -/
lemma horner_map (f : M →ₗ[F] N) (coeffs : List M) (x : F) :
    horner (coeffs.map f) x = f (horner coeffs x) := by
  induction coeffs with
  | nil => simp
  | cons c coeffs ih => simp [ih]

/-- Commitments: a polynomial in the exponent of `g`. -/
lemma horner_smul (coeffs : List F) (g : M) (x : F) :
    horner (coeffs.map (· • g)) x = horner coeffs x • g :=
  horner_map (LinearMap.toSpanSingleton F M g) coeffs x

/-- Polynomials of the same length are added coefficient by coefficient. -/
lemma horner_zipWith_add {cs ds : List M} (h : cs.length = ds.length) (x : F) :
    horner (List.zipWith (· + ·) cs ds) x = horner cs x + horner ds x := by
  induction cs generalizing ds with
  | nil =>
    obtain rfl := List.length_eq_zero_iff.mp h.symm
    simp
  | cons c cs ih =>
    cases ds with
    | nil => cases h
    | cons d ds =>
      simp only [List.zipWith_cons_cons, horner_cons, ih (Nat.succ.inj h), smul_add]
      abel

/-! ## Interpolation at zero -/

section Lagrange

variable [DecidableEq F]

/-- The Lagrange coefficient of `x` among the points `xs`, at zero. -/
def lagrange (xs : List F) (x : F) : F := ((xs.filter (· ≠ x)).map fun y => y / (y - x)).prod

variable {xs : List F}

/-- A program skips the point itself by its position.  In a list without repetitions, to be at
another position is to be another point. -/
lemma lagrange_eq_zipIdx (h : xs.Nodup) {own : F × ℕ} (hown : own ∈ xs.zipIdx) :
    lagrange xs own.1 = ((xs.zipIdx.filter fun other => own.2 ≠ other.2).map fun other =>
      other.1 / (other.1 - own.1)).prod := by
  have hown' := List.mem_zipIdx' hown
  have hsame : ∀ other ∈ xs.zipIdx,
      decide (own.2 ≠ other.2) = ((fun x => decide (x ≠ own.1)) ∘ Prod.fst) other := by
    intro other hother
    have hother' := List.mem_zipIdx' hother
    rw [Function.comp, hown'.2, hother'.2, decide_eq_decide, ne_eq, ne_eq, h.getElem_inj_iff,
      eq_comm]
  have hpoints : (xs.zipIdx.filter fun other => own.2 ≠ other.2).map Prod.fst =
      xs.filter (· ≠ own.1) := by
    rw [List.filter_congr hsame, ← List.filter_map, List.zipIdx_map_fst]
  rw [lagrange, ← hpoints, List.map_map]
  rfl

lemma eval_basis (h : xs.Nodup) (x : F) :
    (Lagrange.basis xs.toFinset id x).eval 0 = lagrange xs x := by
  have hfactor : ∀ y, (Lagrange.basisDivisor x y).eval 0 = y / (y - x) := by
    intro y
    rw [Lagrange.basisDivisor, ← neg_sub y x, inv_neg]
    simp [div_eq_mul_inv, mul_comm]
  have hpoints : xs.toFinset.erase x = (xs.filter (· ≠ x)).toFinset := by
    ext y
    simp [and_comm]
  simp only [Lagrange.basis, Polynomial.eval_prod, id, hfactor]
  rw [hpoints, List.prod_toFinset _ (h.filter _), lagrange]

/-- The moments of the coefficients. -/
lemma sum_lagrange_pow (h : xs.Nodup) {k : ℕ} (hk : k < xs.length) :
    (xs.map fun x => lagrange xs x * x ^ k).sum = if k = 0 then 1 else 0 := by
  have hdegree : (Polynomial.X ^ k : Polynomial F).degree < xs.toFinset.card := by
    rw [Polynomial.degree_X_pow, List.toFinset_card_of_nodup h]
    exact_mod_cast hk
  have hpoly := Lagrange.eq_interpolate (s := xs.toFinset) (v := id) (Set.injOn_id _) hdegree
  have hzero := congrArg (Polynomial.eval 0) hpoly
  rw [Lagrange.interpolate_apply, Polynomial.eval_finsetSum] at hzero
  simp only [Polynomial.eval_mul, Polynomial.eval_C, Polynomial.eval_pow, Polynomial.eval_X, id,
    eval_basis h] at hzero
  rw [List.sum_toFinset _ h] at hzero
  rw [← zero_pow_eq k, hzero]
  simp only [mul_comm]

lemma sum_lagrange_horner (h : xs.Nodup) (coeffs : List M) :
    ∀ {k : ℕ}, k + coeffs.length ≤ xs.length →
      (xs.map fun x => (lagrange xs x * x ^ k) • horner coeffs x).sum =
        if k = 0 then coeffs.headD 0 else 0 := by
  induction coeffs with
  | nil =>
    intro k _
    simp
  | cons c coeffs ih =>
    intro k hk
    rw [List.length_cons] at hk
    have hconst : (xs.map fun x => (lagrange xs x * x ^ k) • c).sum =
        (if k = 0 then 1 else 0 : F) • c := by
      rw [← sum_lagrange_pow h (by omega), List.sum_smul, List.map_map]
      rfl
    have hrest := ih (show k + 1 + coeffs.length ≤ xs.length by omega)
    rw [if_neg (Nat.succ_ne_zero k)] at hrest
    have hsplit : (xs.map fun x => (lagrange xs x * x ^ k) • horner (c :: coeffs) x) =
        xs.map fun x => (lagrange xs x * x ^ k) • c +
          (lagrange xs x * x ^ (k + 1)) • horner coeffs x := by
      refine List.map_congr_left fun x _ => ?_
      rw [horner_cons, smul_add, smul_smul, pow_succ, mul_assoc]
    rw [hsplit, List.sum_map_add, hconst, hrest, add_zero]
    split <;> simp

/-- **Interpolation at zero.**  Enough values of a polynomial determine its constant term. -/
theorem interpolate_zero (h : xs.Nodup) (coeffs : List M) (hlen : coeffs.length ≤ xs.length) :
    (xs.map fun x => lagrange xs x • horner coeffs x).sum = coeffs.headD 0 := by
  have hsum := sum_lagrange_horner h coeffs (k := 0) (by omega)
  simpa using hsum

omit [DecidableEq F] in
lemma headD_map_smul (coeffs : List F) (p : M) :
    (coeffs.map (· • p)).headD 0 = coeffs.headD 0 • p := by
  cases coeffs with
  | nil => exact (zero_smul F p).symm
  | cons c coeffs => rfl

/-- Interpolation in the exponent. -/
theorem interpolate_zero_smul (h : xs.Nodup) (coeffs : List F) (p : M)
    (hlen : coeffs.length ≤ xs.length) :
    (xs.map fun x => lagrange xs x • horner coeffs x • p).sum = coeffs.headD 0 • p := by
  have hsum := interpolate_zero h (coeffs.map (· • p)) (by rwa [List.length_map])
  rw [headD_map_smul] at hsum
  simpa only [horner_smul] using hsum

end Lagrange

end SecretSharing
