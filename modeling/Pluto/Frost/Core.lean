import Pluto.Lib.Fallible
import Pluto.Lib.SecretSharing
import Pluto.Lib.SortedMap

/-!
# Key material

The model of `frost_core.rs`: identifiers, commitments to polynomials, shares and key packages.

An identifier is its `u32`.  The source keeps the scalar next to it, which is determined by the
number, and compares the number only.  A commitment is the list of commitments to the coefficients,
constant term first.

The source evaluates a polynomial and a commitment in two different ways and sums commitments
coefficient by coefficient.  All three are about `horner`: `evaluatePolynomial_eq`,
`evaluateVss_eq` and `sumCommitments_ok`.
-/

namespace Pluto.Frost

open SecretSharing

instance linearOrderUInt32 : LinearOrder UInt32 where
  le_refl := UInt32.le_refl
  le_trans _ _ _ := UInt32.le_trans
  le_antisymm _ _ := UInt32.le_antisymm
  le_total := UInt32.le_total
  lt_iff_le_not_ge a b := by
    simp only [UInt32.lt_iff_toNat_lt, UInt32.le_iff_toNat_le]
    omega
  toDecidableLE := inferInstance
  toDecidableEq := inferInstance
  toDecidableLT := inferInstance

scoped instance lawfulBEqUInt32 : LawfulBEq UInt32 := inferInstance

inductive FrostCoreError
  | invalidZeroScalar
  | invalidMinSigners
  | invalidMaxSigners
  | invalidSecretShare
  | incorrectNumberOfCommitments
  | incorrectCommitment
  deriving DecidableEq, Repr

/-- All key material of a participant. -/
structure KeyPackage (F G : Type) where
  identifier : UInt32
  signingShare : F
  verifyingShare : G
  verifyingKey : G
  minSigners : UInt16

/-- The public shares of the participants, and the key of the group. -/
structure PublicKeyPackage (G : Type) where
  verifyingShares : SortedMap UInt32 G
  verifyingKey : G

def validateNumOfSigners (minSigners maxSigners : UInt16) : Except FrostCoreError Unit :=
  if minSigners < 2 then .error .invalidMinSigners
  else if maxSigners < 2 then .error .invalidMaxSigners
  else if maxSigners < minSigners then .error .invalidMinSigners
  else .ok ()

lemma validateNumOfSigners_ok {minSigners maxSigners : UInt16}
    (h : validateNumOfSigners minSigners maxSigners = .ok ()) : 2 ≤ minSigners.toNat := by
  rw [validateNumOfSigners] at h
  split_ifs at h with hmin
  exact UInt16.le_iff_toNat_le.mp (UInt16.not_lt.mp hmin)

section Identifiers

variable (F : Type) [Field F] [DecidableEq F]

/-- `Identifier::to_scalar` -/
def toScalar (id : UInt32) : F := (id.toNat : F)

/-- `Identifier::from_u32` -/
def identifierFromU32 (id : UInt32) : Except FrostCoreError UInt32 :=
  if toScalar F id = 0 then .error .invalidZeroScalar else .ok id

lemma identifierFromU32_ok {id id' : UInt32} (h : identifierFromU32 F id = .ok id') : id' = id := by
  rw [identifierFromU32] at h
  split_ifs at h
  exact (Except.ok.inj h).symm

end Identifiers

section Polynomials

variable {F G : Type} [Field F] [AddCommGroup G] [Module F G]

/-- The source panics on the empty list.  There are as many coefficients as the threshold, so at
least two. -/
def evaluatePolynomial (identifier : UInt32) (coefficients : List F) : F :=
  let x := toScalar F identifier
  let value := (coefficients.drop 1).reverse.foldl (fun value coeff => (value + coeff) * x) 0
  value + coefficients.headD 0

def evaluateVss (F : Type) [Field F] [Module F G] (identifier : UInt32) (commitment : List G) : G :=
  let i := toScalar F identifier
  (commitment.foldl (fun (iToTheK, sumSoFar) comm =>
    (i * iToTheK, sumSoFar + iToTheK • comm)) ((1 : F), (0 : G))).2

lemma evaluatePolynomial_eq (identifier : UInt32) (coefficients : List F) :
    evaluatePolynomial identifier coefficients = horner coefficients (toScalar F identifier) := by
  cases coefficients with
  | nil => simp [evaluatePolynomial]
  | cons constant coeffs =>
    have htail : coeffs.foldr (fun coeff value => (value + coeff) * toScalar F identifier) 0 =
        toScalar F identifier * horner coeffs (toScalar F identifier) := by
      induction coeffs with
      | nil => simp
      | cons coeff coeffs ih =>
        rw [List.foldr_cons, ih, horner_cons, smul_eq_mul]
        ring
    simp only [evaluatePolynomial, List.drop_one, List.tail_cons, List.foldl_reverse, htail,
      List.headD_cons, horner_cons, smul_eq_mul]
    ring

/-- The loop that keeps the power of the identifier. -/
lemma evaluateVss_loop (i : F) (commitment : List G) (power : F) (sum : G) :
    (commitment.foldl (fun (iToTheK, sumSoFar) comm =>
      (i * iToTheK, sumSoFar + iToTheK • comm)) (power, sum)).2 =
        sum + power • horner commitment i := by
  induction commitment generalizing power sum with
  | nil => simp
  | cons comm commitment ih =>
    rw [List.foldl_cons, ih, horner_cons, smul_add, smul_smul, mul_comm i power]
    abel

lemma evaluateVss_eq (identifier : UInt32) (commitment : List G) :
    evaluateVss F identifier commitment = horner commitment (toScalar F identifier) := by
  rw [evaluateVss, evaluateVss_loop, zero_add, one_smul]

/-! ## Sums of commitments -/

/-- The inner loop: adds a commitment to the sum so far. -/
def addCommitment (group commitment : List G) : Except FrostCoreError (List G) :=
  group.zipIdx.mapM fun (c, i) =>
    match commitment[i]? with
    | none => .error .incorrectNumberOfCommitments
    | some d => .ok (c + d)

def sumCommitments (commitments : List (List G)) : Except FrostCoreError (List G) :=
  match commitments with
  | [] => .error .incorrectNumberOfCommitments
  | first :: _ => commitments.foldlM addCommitment (List.replicate first.length 0)

lemma addCommitment_eq {group commitment : List G} (h : commitment.length = group.length) :
    addCommitment group commitment = .ok (List.zipWith (· + ·) group commitment) := by
  rw [addCommitment, Except.mapM_ok_iff, List.forall₂_iff_get]
  refine ⟨by simp [h], fun i hi hi' => ?_⟩
  have hlt : i < commitment.length := by simpa [h] using hi
  simp [List.getElem?_eq_getElem hlt]

lemma sumCommitments_loop (commitments : List (List G)) (group : List G)
    (h : ∀ c ∈ commitments, c.length = group.length) :
    ∃ group', commitments.foldlM addCommitment group = .ok group' ∧
      group'.length = group.length ∧
      ∀ x : F, horner group' x = horner group x + (commitments.map fun c => horner c x).sum := by
  induction commitments generalizing group with
  | nil => exact ⟨group, rfl, rfl, by simp⟩
  | cons c commitments ih =>
    rw [List.forall_mem_cons] at h
    have hlen : (List.zipWith (· + ·) group c).length = group.length := by simp [h.1]
    obtain ⟨group', hloop, hlen', hsum⟩ := ih _ (by rw [hlen]; exact h.2)
    refine ⟨group', ?_, hlen'.trans hlen, fun x => ?_⟩
    · rw [List.foldlM_cons, addCommitment_eq h.1]
      exact hloop
    · rw [hsum, horner_zipWith_add h.1.symm, List.map_cons, List.sum_cons, add_assoc]

lemma horner_replicate_zero (n : ℕ) (x : F) : horner (List.replicate n (0 : G)) x = 0 := by
  induction n with
  | zero => simp
  | succ n ih => simp [List.replicate_succ, ih]

/-- The sum of commitments of the same length commits to the sum of the polynomials. -/
lemma sumCommitments_ok {commitments : List (List G)} {t : ℕ} (hne : commitments ≠ [])
    (hlen : ∀ c ∈ commitments, c.length = t) :
    ∃ group, sumCommitments commitments = .ok group ∧ group.length = t ∧
      ∀ x : F, horner group x = (commitments.map fun c => horner c x).sum := by
  obtain ⟨first, rest, rfl⟩ := List.exists_cons_of_ne_nil hne
  have hfirst := hlen first List.mem_cons_self
  obtain ⟨group, hloop, hgroup, hsum⟩ := sumCommitments_loop (F := F) (first :: rest)
    (List.replicate first.length 0) (by simpa [hfirst] using hlen)
  refine ⟨group, hloop, by rw [hgroup, List.length_replicate, hfirst], fun x => ?_⟩
  rw [hsum, horner_replicate_zero, zero_add]

/-! ## Public key packages -/

def verifyingKeyFromCommitment (commitment : List G) : Except FrostCoreError G :=
  match commitment with
  | [] => .error .incorrectCommitment
  | first :: _ => .ok first

/-- The identifiers are the keys of the map of commitments. -/
def fromDkgCommitments (F : Type) [Field F] [Module F G] (commitments : SortedMap UInt32 (List G)) :
    Except FrostCoreError (PublicKeyPackage G) := do
  let groupCommitment ← sumCommitments commitments.values
  let verifyingShares := commitments.mapValues fun id _ => evaluateVss F id groupCommitment
  let verifyingKey ← verifyingKeyFromCommitment groupCommitment
  return { verifyingShares, verifyingKey }

/-- The sum of the filed commitments. -/
lemma fromDkgCommitments_ok {commitments : SortedMap UInt32 (List G)} {pkg : PublicKeyPackage G}
    {t : ℕ} (hne : commitments.values ≠ []) (hlen : ∀ c ∈ commitments.values, c.length = t)
    (h : fromDkgCommitments F commitments = .ok pkg) :
    ∃ group : List G, group.length = t ∧
      (∀ x : F, horner group x = (commitments.values.map fun c => horner c x).sum) ∧
      pkg.verifyingKey = group.headD 0 ∧
      ∀ id, pkg.verifyingShares.lookup id =
        (commitments.lookup id).map fun _ => horner group (toScalar F id) := by
  obtain ⟨group, hgroup, hlength, hsum⟩ := sumCommitments_ok (F := F) hne hlen
  rw [fromDkgCommitments, hgroup, Except.ok_bind] at h
  simp only [Except.bind_ok_iff, Except.pure_ok_iff] at h
  obtain ⟨key, hkey, rfl⟩ := h
  refine ⟨group, hlength, hsum, ?_, fun id => ?_⟩
  · cases group with
    | nil => cases hkey
    | cons first rest => exact (Except.ok.inj hkey).symm
  · simp only [SortedMap.lookup_mapValues, evaluateVss_eq]

variable [DecidableEq G]

/-- `SecretShare::verify` -/
def verifySecretShare (generator : G) (identifier : UInt32) (signingShare : F)
    (commitment : List G) : Except FrostCoreError Unit :=
  if signingShare • generator ≠ evaluateVss F identifier commitment then .error .invalidSecretShare
  else .ok ()

end Polynomials

end Pluto.Frost
