import Pluto.Crypto.Curve
import Pluto.Lib.HashMap
import Pluto.Lib.SecretSharing

/-!
# Threshold BLS signatures

The model of `blst_impl.rs` over the ideal curve: splitting a secret key, recovering it, signing, and
aggregating partial signatures.

A `blst` secret key is a scalar other than zero.  `blst_sk_add_n_check` and `blst_sk_mul_n_check`
fail on a result of zero, and so do the functions built on them.  The random coefficients of a split
are what `key_gen` makes of random bytes; here they are an argument.  The conversion of `threshold`
to `usize` cannot fail on a 64-bit target and is left out.

`recover_secret` and `threshold_aggregate` take the keys and the values of a hash map in its
iteration order, whatever that is.  The theorem is that they undo the split: signatures with the
shares of enough indices are aggregated to the signature with the secret key, and no set of indices
and no order runs into a scalar of zero on the way.  `recover_secret` adds scalars up, which may pass
zero; but what it returns is the secret key.
-/

namespace Pluto.Crypto.Blst

open Except (bind_ok_iff ok_bind pure_ok_iff foldlM_invariant mapM_ok_iff)
open SecretSharing

inductive BlsError
  | keyGeneration
  | badEncoding
  deriving DecidableEq, Repr

inductive Error
  | invalidSecretKey (reason : BlsError)
  | invalidPublicKey
  | invalidSignature
  | verificationFailed
  | emptyPublicKeyArray
  | invalidThreshold (threshold total : UInt64)
  | emptySignatureArray
  | divisionByZero
  | failedToConvertSkToBlstScalar
  | failedToConvertScalarToSecretKey
  | failedToAddScalars
  | failedToMultiplyScalars
  | indicesNotUnique
  | indicesSharesMismatch
  | sharesAreEmpty
  | polynomialIsEmpty
  deriving DecidableEq, Repr

section Scalars

variable {F : Type} [Field F] [DecidableEq F]

/-- `blst_scalar_from_uint64` of one limb -/
def scalarFromU64 (val : UInt64) : F := (val.toNat : F)

/-- `TryInto<&SecretKey> for &blst_scalar` -/
def trySecretKey (s : F) : Option F := if s = 0 then none else some s

def scalarAdd (a b : F) : Except Error F :=
  if a + b = 0 then .error .failedToAddScalars else .ok (a + b)

def scalarMultScalars (a b : F) : Except Error F :=
  if a * b = 0 then .error .failedToMultiplyScalars else .ok (a * b)

def scalarMultSecret (sk scalar : F) : Except Error F := do
  let result ← scalarMultScalars sk scalar
  match trySecretKey result with
  | none => .error .failedToConvertSkToBlstScalar
  | some sk => .ok sk

def scalarAddSecret (sk₁ sk₂ : F) : Except Error F := do
  let result ← scalarAdd sk₁ sk₂
  match trySecretKey result with
  | none => .error .failedToConvertScalarToSecretKey
  | some sk => .ok sk

def scalarNegate (a : F) : F := 0 - a

def scalarDiv (numerator denominator : F) : Except Error F :=
  if denominator = 0 then .error .divisionByZero else scalarMultScalars numerator denominator⁻¹

lemma scalarMultScalars_ok_iff {a b c : F} :
    scalarMultScalars a b = .ok c ↔ c = a * b ∧ a * b ≠ 0 := by
  rw [scalarMultScalars]
  split_ifs with h
  · simp [h]
  · simp [h, eq_comm]

lemma scalarMultSecret_ok_iff {sk scalar c : F} :
    scalarMultSecret sk scalar = .ok c ↔ c = sk * scalar ∧ sk * scalar ≠ 0 := by
  simp only [scalarMultSecret, bind_ok_iff, scalarMultScalars_ok_iff]
  constructor
  · rintro ⟨_, ⟨rfl, hne⟩, h⟩
    rw [trySecretKey, if_neg hne] at h
    exact ⟨(Except.ok.inj h).symm, hne⟩
  · rintro ⟨rfl, hne⟩
    exact ⟨_, ⟨rfl, hne⟩, by rw [trySecretKey, if_neg hne]⟩

lemma scalarAddSecret_ok {sk₁ sk₂ c : F} (h : scalarAddSecret sk₁ sk₂ = .ok c) :
    c = sk₁ + sk₂ ∧ c ≠ 0 := by
  rw [scalarAddSecret, scalarAdd] at h
  split_ifs at h with hne
  · cases h
  · rw [ok_bind, trySecretKey, if_neg hne] at h
    obtain rfl := Except.ok.inj h
    exact ⟨rfl, hne⟩

/-! ## The polynomial -/

/-- One turn of the loop over the coefficients, on the result and the power of the point. -/
def addTerm (more : Bool) (x : UInt64) (acc : F × F) (coeff : F) : Except Error (F × F) := do
  let term ← scalarMultSecret coeff acc.2
  let result ← scalarAddSecret acc.1 term
  if more then
    let xPower ← scalarMultScalars acc.2 (scalarFromU64 x)
    return (result, xPower)
  else return (result, acc.2)

def evaluatePolynomial (poly : List F) (x : UInt64) : Except Error F :=
  match poly with
  | [] => .error .polynomialIsEmpty
  | constant :: coeffs => do
    let (result, _) ← coeffs.foldlM (addTerm (2 < poly.length) x) (constant, scalarFromU64 x)
    return result

/-- The value of a polynomial at an index. -/
def shareAt (poly : List F) (i : UInt64) : F := horner poly (scalarFromU64 i : F)

/-- What holds before each turn: the terms left, at the current power, are missing from the result.
The power is stale after the last turn of a polynomial of degree one, where no term is left. -/
lemma addTerm_step {more : Bool} {x : UInt64} {total coeff : F} {coeffs : List F} {acc acc' : F × F}
    (hmore : more = true ∨ coeffs = [])
    (hacc : acc.1 + acc.2 * horner (coeff :: coeffs) (scalarFromU64 x : F) = total)
    (h : addTerm more x acc coeff = .ok acc') :
    acc'.1 ≠ 0 ∧ acc'.1 + acc'.2 * horner coeffs (scalarFromU64 x : F) = total := by
  simp only [addTerm, bind_ok_iff, scalarMultSecret_ok_iff] at h
  obtain ⟨_, ⟨rfl, -⟩, result, hadd, h⟩ := h
  obtain ⟨rfl, hresult⟩ := scalarAddSecret_ok hadd
  rw [← hacc, horner_cons, smul_eq_mul]
  split_ifs at h with hm
  · simp only [bind_ok_iff, pure_ok_iff, scalarMultScalars_ok_iff] at h
    obtain ⟨_, ⟨rfl, -⟩, rfl⟩ := h
    exact ⟨hresult, by ring⟩
  · obtain rfl := pure_ok_iff.mp h
    obtain rfl := hmore.resolve_left hm
    exact ⟨hresult, by simp [mul_comm]⟩

lemma addTerm_loop {more : Bool} {x : UInt64} {coeffs : List F} {acc acc' : F × F}
    (hmore : more = true ∨ coeffs.length ≤ 1) (hne : acc.1 ≠ 0)
    (h : coeffs.foldlM (addTerm more x) acc = .ok acc') :
    acc'.1 = acc.1 + acc.2 * horner coeffs (scalarFromU64 x : F) ∧ acc'.1 ≠ 0 := by
  have hend := foldlM_invariant
    (I := fun rest b => (more = true ∨ rest.length ≤ 1) ∧ b.1 ≠ 0 ∧
      b.1 + b.2 * horner rest (scalarFromU64 x : F) =
        acc.1 + acc.2 * horner coeffs (scalarFromU64 x : F)) ?_ ⟨hmore, hne, rfl⟩ h
  · exact ⟨by simpa using hend.2.2, hend.2.1⟩
  · rintro coeff rest b b' ⟨hmore, -, hb⟩ hstep
    have hlast : more = true ∨ rest = [] :=
      hmore.imp_right fun hle => List.length_eq_zero_iff.mp (Nat.le_zero.mp (Nat.le_of_succ_le_succ hle))
    exact ⟨hlast.imp_right (by rintro rfl; exact Nat.zero_le 1), addTerm_step hlast hb hstep⟩

lemma evaluatePolynomial_ok {poly : List F} {x : UInt64} {y : F} (hpoly : poly.headD 0 ≠ 0)
    (h : evaluatePolynomial poly x = .ok y) : y = shareAt poly x ∧ y ≠ 0 := by
  cases poly with
  | nil => cases h
  | cons constant coeffs =>
    simp only [evaluatePolynomial, bind_ok_iff, pure_ok_iff] at h
    obtain ⟨⟨result, _⟩, hloop, rfl⟩ := h
    have hmore : decide (2 < (constant :: coeffs).length) = true ∨ coeffs.length ≤ 1 := by
      rw [decide_eq_true_iff, List.length_cons]
      omega
    exact addTerm_loop hmore hpoly hloop

/-! ## Lagrange coefficients -/

/-- One turn of the inner loop, for the coefficient of the index `xᵢ` at position `i`. -/
def lagrangeStep (own : UInt64 × ℕ) (acc : F × F) (other : UInt64 × ℕ) : Except Error (F × F) :=
  if own.2 = other.2 then .ok acc
  else do
    let numerator ← scalarMultScalars acc.1 (scalarFromU64 other.1)
    let diff : F :=
      if own.1 < other.1 then scalarFromU64 (other.1 - own.1)
      else scalarNegate (scalarFromU64 (own.1 - other.1))
    let denominator ← scalarMultScalars acc.2 diff
    return (numerator, denominator)

def lagrangeCoefficient (indices : List UInt64) (own : UInt64 × ℕ) : Except Error F := do
  let (numerator, denominator) ←
    indices.zipIdx.foldlM (lagrangeStep own) (scalarFromU64 1, scalarFromU64 1)
  scalarDiv numerator denominator

def computeLagrangeCoefficients (indices : List UInt64) : Except Error (List F) :=
  if indices.length ≠ indices.dedup.length then .error .indicesNotUnique
  else indices.zipIdx.mapM (lagrangeCoefficient indices)

def lagrangeInterpolateSecret (indices : List UInt64) (shares : List F) : Except Error F :=
  if indices.length ≠ shares.length ∨ indices = [] then .error .indicesSharesMismatch
  else do
    let coeffs ← computeLagrangeCoefficients indices
    (shares.zip coeffs).foldlM (fun result (share, coeff) => do
      let term ← scalarMultSecret share coeff
      scalarAddSecret result term) 0

variable (F) in
def lagrangeInterpolateSignature {G : Type} [AddCommGroup G] [Module F G] (indices : List UInt64)
    (signatures : List G) : Except Error G :=
  if indices.length ≠ signatures.length ∨ indices = [] then .error .emptySignatureArray
  else do
    let coeffs : List F ← computeLagrangeCoefficients indices
    match signatures.zip coeffs with
    | [] => .error .emptySignatureArray -- not reached: both lists are as long as `indices`
    | (first, coeff) :: rest =>
      return rest.foldl (fun result (sig, coeff) => result + coeff • sig) (coeff • first)

end Scalars

/-! ### They are the Lagrange coefficients -/

section Coefficients

variable {F G₁ G₂ : Type} [Field F] [AddCommGroup G₁] [Module F G₁] [AddCommGroup G₂] [Module F G₂]
  (curve : Curve F G₁ G₂)

include curve in
lemma scalarFromU64_ne_zero {x : UInt64} (h : x ≠ 0) : (scalarFromU64 x : F) ≠ 0 := by
  refine curve.natCast_ne_zero x.toNat ?_ x.toNat_lt
  rw [Nat.pos_iff_ne_zero]
  exact fun hzero => h (UInt64.toNat_inj.mp hzero)

include curve in
lemma scalarFromU64_injective : Function.Injective (scalarFromU64 : UInt64 → F) := fun x y h =>
  UInt64.toNat_inj.mp (curve.natCast_inj x.toNat_lt y.toNat_lt h)

/-- The difference of two indices, which is taken on the side where it does not wrap. -/
lemma scalarFromU64_diff (x y : UInt64) :
    (if x < y then scalarFromU64 (y - x) else scalarNegate (scalarFromU64 (x - y)) : F) =
      scalarFromU64 y - scalarFromU64 x := by
  split_ifs with h
  · have hle := UInt64.le_iff_toNat_le.mp (UInt64.le_of_lt h)
    rw [scalarFromU64, UInt64.toNat_sub_of_le _ _ (UInt64.le_of_lt h), Nat.cast_sub hle]
    rfl
  · have hle := UInt64.le_iff_toNat_le.mp (UInt64.not_lt.mp h)
    rw [scalarNegate, scalarFromU64, UInt64.toNat_sub_of_le _ _ (UInt64.not_lt.mp h),
      Nat.cast_sub hle, zero_sub, neg_sub]
    rfl

variable [DecidableEq F]

include curve in
lemma lagrangeStep_ok {own other : UInt64 × ℕ} {acc : F × F} (hacc : acc.1 ≠ 0 ∧ acc.2 ≠ 0)
    (hpos : own.2 ≠ other.2) (hx : own.1 ≠ other.1) (hzero : other.1 ≠ 0) :
    ∃ acc', lagrangeStep own acc other = .ok acc' ∧ (acc'.1 ≠ 0 ∧ acc'.2 ≠ 0) ∧
      acc'.1 / acc'.2 = acc.1 / acc.2 *
        (scalarFromU64 other.1 / (scalarFromU64 other.1 - scalarFromU64 own.1)) := by
  have hy := scalarFromU64_ne_zero curve hzero
  have hdiff : (scalarFromU64 other.1 : F) - scalarFromU64 own.1 ≠ 0 :=
    sub_ne_zero.mpr fun h => hx (scalarFromU64_injective curve h).symm
  have hnum := mul_ne_zero hacc.1 hy
  have hden := mul_ne_zero hacc.2 hdiff
  refine ⟨(_, _), ?_, ⟨hnum, hden⟩, mul_div_mul_comm _ _ _ _⟩
  rw [lagrangeStep, if_neg hpos, scalarMultScalars_ok_iff.mpr ⟨rfl, hnum⟩, ok_bind]
  dsimp only
  rw [scalarFromU64_diff, scalarMultScalars_ok_iff.mpr ⟨rfl, hden⟩]
  rfl

include curve in
lemma lagrangeStep_loop {own : UInt64 × ℕ} {others : List (UInt64 × ℕ)} (acc : F × F)
    (hacc : acc.1 ≠ 0 ∧ acc.2 ≠ 0)
    (hothers : ∀ other ∈ others, own.2 ≠ other.2 → own.1 ≠ other.1 ∧ other.1 ≠ 0) :
    ∃ acc', others.foldlM (lagrangeStep own) acc = .ok acc' ∧ (acc'.1 ≠ 0 ∧ acc'.2 ≠ 0) ∧
      acc'.1 / acc'.2 = acc.1 / acc.2 * ((others.filter fun other => own.2 ≠ other.2).map fun other =>
        scalarFromU64 other.1 / (scalarFromU64 other.1 - scalarFromU64 own.1)).prod := by
  induction others generalizing acc with
  | nil => exact ⟨acc, rfl, hacc, by simp⟩
  | cons other others ih =>
    rw [List.forall_mem_cons] at hothers
    by_cases hpos : own.2 = other.2
    · obtain ⟨acc', hloop, hacc', hval⟩ := ih acc hacc hothers.2
      refine ⟨acc', ?_, hacc', ?_⟩
      · rw [List.foldlM_cons, lagrangeStep, if_pos hpos]
        exact hloop
      · rw [hval, List.filter_cons_of_neg (by simpa using hpos)]
    · obtain ⟨hx, hzero⟩ := hothers.1 hpos
      obtain ⟨acc₁, hstep, hacc₁, hval₁⟩ := lagrangeStep_ok curve hacc hpos hx hzero
      obtain ⟨acc', hloop, hacc', hval⟩ := ih acc₁ hacc₁ hothers.2
      refine ⟨acc', ?_, hacc', ?_⟩
      · rw [List.foldlM_cons, hstep]
        exact hloop
      · rw [hval, hval₁, List.filter_cons_of_pos (by simpa using hpos), List.map_cons,
          List.prod_cons, mul_assoc]

include curve in
lemma lagrangeCoefficient_eq {indices : List UInt64} (hnodup : indices.Nodup)
    (hzero : ∀ x ∈ indices, x ≠ 0) {own : UInt64 × ℕ} (hown : own ∈ indices.zipIdx) :
    lagrangeCoefficient indices own =
      .ok (lagrange (indices.map scalarFromU64) (scalarFromU64 own.1 : F)) := by
  have hone : ((scalarFromU64 1 : F), (scalarFromU64 1 : F)) = (1, 1) := by simp [scalarFromU64]
  have hothers : ∀ other ∈ indices.zipIdx, own.2 ≠ other.2 → own.1 ≠ other.1 ∧ other.1 ≠ 0 := by
    intro other hother hne
    have hown' := List.mem_zipIdx' hown
    have hother' := List.mem_zipIdx' hother
    refine ⟨?_, hzero _ (by rw [hother'.2]; exact List.getElem_mem _)⟩
    rw [hown'.2, hother'.2, ne_eq, hnodup.getElem_inj_iff]
    exact hne
  obtain ⟨⟨num, den⟩, hloop, ⟨hnum, hden⟩, hval⟩ :=
    lagrangeStep_loop curve (1, 1) ⟨one_ne_zero, one_ne_zero⟩ hothers
  -- the points at their positions are the scalars of the indices at theirs
  have hpoints : ((scalarFromU64 own.1 : F), own.2) ∈ (indices.map scalarFromU64).zipIdx := by
    rw [List.zipIdx_map]
    exact List.mem_map_of_mem hown
  rw [lagrangeCoefficient, hone, hloop, ok_bind]
  dsimp only at hnum hden hval ⊢
  rw [scalarDiv, if_neg hden,
    scalarMultScalars_ok_iff.mpr ⟨rfl, mul_ne_zero hnum (inv_ne_zero hden)⟩, ← div_eq_mul_inv, hval,
    div_one, one_mul, lagrange_eq_zipIdx (hnodup.map (scalarFromU64_injective curve)) hpoints,
    List.zipIdx_map, List.filter_map, List.map_map]
  rfl

include curve in
lemma computeLagrangeCoefficients_eq {indices : List UInt64} (hnodup : indices.Nodup)
    (hzero : ∀ x ∈ indices, x ≠ 0) :
    computeLagrangeCoefficients indices =
      .ok (indices.map fun x => lagrange (indices.map scalarFromU64) (scalarFromU64 x : F)) := by
  have hfst : indices.map (fun x => lagrange (indices.map scalarFromU64) (scalarFromU64 x : F)) =
      indices.zipIdx.map fun own =>
        lagrange (indices.map scalarFromU64) (scalarFromU64 own.1 : F) := by
    conv_lhs => enter [2]; rw [← List.zipIdx_map_fst 0 indices]
    rw [List.map_map]
    rfl
  rw [computeLagrangeCoefficients, hnodup.dedup, if_neg (not_not.mpr rfl), mapM_ok_iff, hfst,
    List.forall₂_map_right_iff, List.forall₂_same]
  exact fun own hown => lagrangeCoefficient_eq curve hnodup hzero hown

omit [DecidableEq F] in
lemma foldl_add_smul {G : Type} [AddCommGroup G] [Module F G] (first : G) (rest : List (G × F)) :
    rest.foldl (fun result (sig, coeff) => result + coeff • sig) first =
      first + (rest.map fun entry => entry.2 • entry.1).sum := by
  induction rest generalizing first with
  | nil => simp
  | cons entry rest ih => simp [ih, add_assoc]

include curve in
lemma lagrangeInterpolateSignature_eq {G : Type} [AddCommGroup G] [Module F G]
    {indices : List UInt64} (hnodup : indices.Nodup) (hzero : ∀ x ∈ indices, x ≠ 0)
    (hne : indices ≠ []) (f : UInt64 → G) :
    lagrangeInterpolateSignature F indices (indices.map f) = .ok (indices.map fun x =>
      lagrange (indices.map scalarFromU64) (scalarFromU64 x : F) • f x).sum := by
  obtain ⟨first, rest, hcons⟩ := List.exists_cons_of_ne_nil hne
  rw [lagrangeInterpolateSignature, if_neg (by simp [hne]),
    computeLagrangeCoefficients_eq curve hnodup hzero, ok_bind, List.zip_map', hcons]
  simp only [List.map_cons, List.sum_cons, foldl_add_smul, List.map_map]
  rfl

include curve in
lemma lagrangeInterpolateSecret_ok {indices : List UInt64} (hnodup : indices.Nodup)
    (hzero : ∀ x ∈ indices, x ≠ 0) {f : UInt64 → F} {secret : F}
    (h : lagrangeInterpolateSecret indices (indices.map f) = .ok secret) :
    secret = (indices.map fun x =>
      lagrange (indices.map scalarFromU64) (scalarFromU64 x : F) • f x).sum := by
  rw [lagrangeInterpolateSecret] at h
  split_ifs at h
  rw [computeLagrangeCoefficients_eq curve hnodup hzero, ok_bind, List.zip_map'] at h
  -- what the terms left add to the result stays the same sum
  have hend := foldlM_invariant (I := fun rest result =>
    result + (rest.map fun entry => entry.2 * entry.1).sum = (indices.map fun x =>
      lagrange (indices.map scalarFromU64) (scalarFromU64 x : F) • f x).sum) ?_ ?_ h
  · simpa using hend
  · rintro ⟨share, coeff⟩ rest result result' hsum hstep
    simp only [bind_ok_iff, scalarMultSecret_ok_iff] at hstep
    obtain ⟨_, ⟨rfl, -⟩, hadd⟩ := hstep
    obtain ⟨rfl, -⟩ := scalarAddSecret_ok hadd
    rw [← hsum, List.map_cons, List.sum_cons]
    ring
  · rw [zero_add, List.map_map]
    rfl

end Coefficients

/-! ## Splitting, recovering, signing and aggregating -/

section Keys

variable {F G₁ G₂ : Type} [Field F] [DecidableEq F] [AddCommGroup G₁] [Module F G₁]
  [AddCommGroup G₂] [Module F G₂] (curve : Curve F G₁ G₂)

/-- `BlstSecretKey::from_bytes` -/
def secretKeyFromBytes (bytes : Bytes) : Except Error F :=
  match (curve.scalarFromBytes bytes).bind trySecretKey with
  | none => .error (.invalidSecretKey .badEncoding)
  | some sk => .ok sk

/-- `BlstSignature::from_bytes` -/
def signatureFromBytes (bytes : Bytes) : Except Error G₂ :=
  match curve.g2FromBytes bytes with
  | none => .error .invalidSignature
  | some sig => .ok sig

/-- The numbers `1..=total`. -/
def indicesUpTo (total : UInt64) : List UInt64 :=
  (List.range total.toNat).map fun i => UInt64.ofNat (i + 1)

/-- The coefficients of the polynomial after the secret key. -/
def randomCoefficients (keyGen : ℕ → Option F) (count : ℕ) : Except Error (List F) :=
  (List.range count).mapM fun i =>
    match keyGen i with
    | none => .error (.invalidSecretKey .keyGeneration)
    | some coeff => .ok coeff

/-- One turn of the loop over the indices. -/
def addShare (poly : List F) (shares : HashMap UInt64 Bytes) (i : UInt64) :
    Except Error (HashMap UInt64 Bytes) := do
  let share ← evaluatePolynomial poly i
  return shares.insert i (curve.scalarToBytes share)

def thresholdSplitInsecure (secretKey : Bytes) (total threshold : UInt64) (keyGen : ℕ → Option F) :
    Except Error (HashMap UInt64 Bytes) :=
  if threshold ≤ 1 ∨ total < threshold then .error (.invalidThreshold threshold total)
  else do
    let sk ← secretKeyFromBytes curve secretKey
    let coeffs ← randomCoefficients keyGen (threshold.toNat - 1)
    (indicesUpTo total).foldlM (addShare curve (sk :: coeffs)) ∅

def recoverSecret (order : IterOrder (Sigma fun _ : UInt64 => Bytes))
    (shares : HashMap UInt64 Bytes) : Except Error Bytes :=
  if shares.size = 0 then .error .sharesAreEmpty
  else do
    let shareSecrets ← (HashMap.valuesIn order shares).mapM (secretKeyFromBytes curve)
    let recovered ← lagrangeInterpolateSecret (HashMap.keysIn order shares) shareSecrets
    return curve.scalarToBytes recovered

def sign (privateKey data : Bytes) : Except Error Bytes := do
  let sk ← secretKeyFromBytes curve privateKey
  return curve.g2ToBytes (sk • curve.hashToG2 data)

def thresholdAggregate (order : IterOrder (Sigma fun _ : UInt64 => Bytes))
    (partialSignaturesByIdx : HashMap UInt64 Bytes) : Except Error Bytes :=
  if partialSignaturesByIdx.size = 0 then .error .emptySignatureArray
  else do
    let signatures ←
      (HashMap.valuesIn order partialSignaturesByIdx).mapM (signatureFromBytes curve)
    let recovered ←
      lagrangeInterpolateSignature F (HashMap.keysIn order partialSignaturesByIdx) signatures
    return curve.g2ToBytes recovered

/-! ## What a split is -/

lemma secretKeyFromBytes_ok_iff {bytes : Bytes} {sk : F} :
    secretKeyFromBytes curve bytes = .ok sk ↔ curve.scalarFromBytes bytes = some sk ∧ sk ≠ 0 := by
  have hsome : (curve.scalarFromBytes bytes).bind trySecretKey = some sk ↔
      curve.scalarFromBytes bytes = some sk ∧ sk ≠ 0 := by
    rw [Option.bind_eq_some_iff]
    simp only [trySecretKey, Option.ite_none_left_eq_some, Option.some.injEq]
    constructor
    · rintro ⟨_, hs, hne, rfl⟩
      exact ⟨hs, hne⟩
    · rintro ⟨hs, hne⟩
      exact ⟨sk, hs, hne, rfl⟩
  rw [← hsome, secretKeyFromBytes]
  split
  next h => simp [h]
  next h => simp [h]

lemma secretKeyFromBytes_toBytes {sk : F} (h : sk ≠ 0) :
    secretKeyFromBytes curve (curve.scalarToBytes sk) = .ok sk :=
  (secretKeyFromBytes_ok_iff curve).mpr ⟨curve.scalarFromBytes_toBytes sk, h⟩

lemma mem_indicesUpTo {total i : UInt64} : i ∈ indicesUpTo total ↔ i ≠ 0 ∧ i ≤ total := by
  have hi := i.toNat_lt
  have htotal := total.toNat_lt
  simp only [indicesUpTo, List.mem_map, List.mem_range, UInt64.le_iff_toNat_le, ne_eq,
    ← UInt64.toNat_inj, UInt64.toNat_ofNat', UInt64.toNat_zero]
  constructor
  · rintro ⟨k, hk, hmod⟩
    rw [Nat.mod_eq_of_lt (by omega)] at hmod
    omega
  · rintro ⟨hpos, hle⟩
    exact ⟨i.toNat - 1, by omega, by rw [Nat.mod_eq_of_lt (by omega)]; omega⟩

/-- The shares are the values of a polynomial whose constant term is the secret key, at the indices
from one to `total`.  None of the values is zero. -/
structure Sharing (secretKey : Bytes) (total threshold : UInt64) (shares : HashMap UInt64 Bytes)
    (poly : List F) : Prop where
  secret : secretKeyFromBytes curve secretKey = .ok (poly.headD 0)
  length : poly.length = threshold.toNat
  two_le : 2 ≤ threshold.toNat
  ne_zero : ∀ i ∈ indicesUpTo total, shareAt poly i ≠ 0
  lookup_iff : ∀ i share, shares.lookup i = some share ↔
    i ∈ indicesUpTo total ∧ share = curve.scalarToBytes (shareAt poly i)

omit [Field F] [DecidableEq F] in
lemma length_randomCoefficients {keyGen : ℕ → Option F} {count : ℕ} {coeffs : List F}
    (h : randomCoefficients keyGen count = .ok coeffs) : coeffs.length = count := by
  have hlen := (mapM_ok_iff.mp h).length_eq
  rwa [List.length_range, eq_comm] at hlen

variable {shares : HashMap UInt64 Bytes}

/-- The loop over the indices, each of which is visited once or more. -/
lemma splitLoop_ok (poly : List F) (hpoly : poly.headD 0 ≠ 0) {indices : List UInt64}
    (h : indices.foldlM (addShare curve poly) ∅ = .ok shares) : (∀ i ∈ indices, shareAt poly i ≠ 0 ∧
      shares.lookup i = some (curve.scalarToBytes (shareAt poly i))) ∧
    ∀ i share, shares.lookup i = some share → i ∈ indices := by
  have hend := foldlM_invariant (I := fun rest (m : HashMap UInt64 Bytes) =>
    rest ⊆ indices ∧
    (∀ i ∈ indices, i ∈ rest ∨ (shareAt poly i ≠ 0 ∧
      m.lookup i = some (curve.scalarToBytes (shareAt poly i)))) ∧
    ∀ i share, m.lookup i = some share → i ∈ indices) ?_ ?_ h
  · exact ⟨fun i hi => (hend.2.1 i hi).resolve_left (List.not_mem_nil), hend.2.2⟩
  · rintro i rest m m' ⟨hsub, hdone, hkeys⟩ hstep
    simp only [addShare, bind_ok_iff, pure_ok_iff] at hstep
    obtain ⟨share, heval, rfl⟩ := hstep
    obtain ⟨rfl, hne⟩ := evaluatePolynomial_ok hpoly heval
    refine ⟨fun j hj => hsub (List.mem_cons_of_mem i hj), fun j hj => ?_, fun j share hlook => ?_⟩
    · by_cases hji : j = i
      · subst hji
        exact .inr ⟨hne, AList.lookup_insert _⟩
      · rw [AList.lookup_insert_ne hji]
        exact (hdone j hj).imp_left fun hmem => (List.mem_cons.mp hmem).resolve_left hji
    · rcases HashMap.lookup_insert_eq_some hlook with ⟨rfl, -⟩ | hold
      · exact hsub List.mem_cons_self
      · exact hkeys j share hold
  · exact ⟨fun _ hi => hi, fun i hi => .inl hi, fun i share hlook => by simp at hlook⟩

theorem sharing_of_split {secretKey : Bytes} {total threshold : UInt64} {keyGen : ℕ → Option F}
    (h : thresholdSplitInsecure curve secretKey total threshold keyGen = .ok shares) :
    ∃ poly, Sharing curve secretKey total threshold shares poly := by
  rw [thresholdSplitInsecure] at h
  split_ifs at h with hthreshold
  simp only [bind_ok_iff] at h
  obtain ⟨sk, hsk, coeffs, hcoeffs, hloop⟩ := h
  have htwo : 2 ≤ threshold.toNat := by
    have hone : ¬ threshold ≤ 1 := fun hle => hthreshold (.inl hle)
    rw [UInt64.le_iff_toNat_le] at hone
    exact Nat.lt_of_not_le hone
  obtain ⟨hvalues, hkeys⟩ :=
    splitLoop_ok curve (sk :: coeffs) ((secretKeyFromBytes_ok_iff curve).mp hsk).2 hloop
  refine ⟨sk :: coeffs, hsk, ?_, htwo, fun i hi => (hvalues i hi).1, fun i share => ⟨?_, ?_⟩⟩
  · rw [List.length_cons, length_randomCoefficients hcoeffs]
    omega
  · intro hlook
    have hi := hkeys i share hlook
    exact ⟨hi, Option.some.inj (hlook.symm.trans (hvalues i hi).2)⟩
  · rintro ⟨hi, rfl⟩
    exact (hvalues i hi).2

/-! ## Threshold signatures -/

/-- Enough shares, each weighted with the coefficient of its index, sum up to the secret.  So do
their multiples of a point. -/
lemma Sharing.interpolate {secretKey : Bytes} {total threshold : UInt64} {poly : List F}
    (h : Sharing curve secretKey total threshold shares poly) {indices : List UInt64}
    (hnodup : indices.Nodup) (hlen : threshold.toNat ≤ indices.length) {G : Type} [AddCommGroup G]
    [Module F G] (p : G) :
    (indices.map fun x => lagrange (indices.map scalarFromU64) (scalarFromU64 x : F) •
      shareAt poly x • p).sum = poly.headD 0 • p := by
  have hpoints : (indices.map (scalarFromU64 : UInt64 → F)).Nodup :=
    hnodup.map (scalarFromU64_injective curve)
  have hsum := interpolate_zero_smul hpoints poly p (by rw [List.length_map, h.length]; exact hlen)
  rw [List.map_map] at hsum
  exact hsum

lemma sign_toBytes {sk : F} (h : sk ≠ 0) (message : Bytes) :
    sign curve (curve.scalarToBytes sk) message =
      .ok (curve.g2ToBytes (sk • curve.hashToG2 message)) := by
  rw [sign, secretKeyFromBytes_toBytes curve h]
  rfl

omit [DecidableEq F] in
lemma signatureFromBytes_toBytes (p : G₂) :
    signatureFromBytes curve (curve.g2ToBytes p) = .ok p := by
  rw [signatureFromBytes, curve.g2FromBytes_toBytes]

/-- The signatures of a message with the shares of the indices `s`, by index. -/
def SignedBy (shares : HashMap UInt64 Bytes) (s : Finset UInt64) (message : Bytes)
    (signatures : HashMap UInt64 Bytes) : Prop :=
  ∀ i sig, signatures.lookup i = some sig ↔
    i ∈ s ∧ ∃ share, shares.lookup i = some share ∧ sign curve share message = .ok sig

/-- The shares of the indices `s`. -/
def SharesOf (shares : HashMap UInt64 Bytes) (s : Finset UInt64)
    (subset : HashMap UInt64 Bytes) : Prop :=
  ∀ i share, subset.lookup i = some share ↔ i ∈ s ∧ shares.lookup i = some share

section Threshold

variable {secretKey message : Bytes} {total threshold : UInt64}
  {shares subset signatures : HashMap UInt64 Bytes} {poly : List F} {s : Finset UInt64}
  (order : IterOrder (Sigma fun _ : UInt64 => Bytes))

lemma Sharing.lookup_signed (h : Sharing curve secretKey total threshold shares poly)
    (hs : ∀ i ∈ s, i ≠ 0 ∧ i ≤ total) (hsigned : SignedBy curve shares s message signatures)
    (i : UInt64) (sig : Bytes) :
    signatures.lookup i = some sig ↔
      i ∈ s ∧ sig = curve.g2ToBytes (shareAt poly i • curve.hashToG2 message) := by
  rw [hsigned i sig]
  refine and_congr_right fun hi => ?_
  have hmem := mem_indicesUpTo.mpr (hs i hi)
  simp only [h.lookup_iff, hmem, true_and, exists_eq_left, sign_toBytes curve (h.ne_zero i hmem)]
  exact ⟨fun heq => (Except.ok.inj heq).symm, fun heq => by rw [heq]⟩

/-- The keys of a map over `s`, in any order, are distinct indices other than zero, as many as `s`
has. -/
lemma keysIn_ok {m : HashMap UInt64 Bytes} {f : UInt64 → Bytes} (hs : ∀ i ∈ s, i ≠ 0 ∧ i ≤ total)
    (hm : ∀ i b, m.lookup i = some b ↔ i ∈ s ∧ b = f i) :
    (∀ i ∈ HashMap.keysIn order m, i ≠ 0) ∧ m.size = s.card ∧
      HashMap.valuesIn order m = (HashMap.keysIn order m).map f := by
  refine ⟨fun i hi => ?_, HashMap.size_eq_card fun i => ?_, HashMap.valuesIn_eq_map fun i b hb => ?_⟩
  · obtain ⟨b, hb⟩ := HashMap.mem_keysIn.mp hi
    exact (hs i ((hm i b).mp hb).1).1
  · exact ⟨fun hi => ⟨f i, (hm i _).mpr ⟨hi, rfl⟩⟩, fun ⟨b, hb⟩ => ((hm i b).mp hb).1⟩
  · exact ((hm i b).mp hb).2

lemma Sharing.thresholdAggregate_eq (h : Sharing curve secretKey total threshold shares poly)
    (hs : ∀ i ∈ s, i ≠ 0 ∧ i ≤ total) (hcard : threshold.toNat ≤ s.card)
    (hsigned : SignedBy curve shares s message signatures) :
    thresholdAggregate curve order signatures =
      .ok (curve.g2ToBytes (poly.headD 0 • curve.hashToG2 message)) := by
  obtain ⟨hzero, hsize, hvalues⟩ := keysIn_ok order hs (h.lookup_signed curve hs hsigned)
  have htwo := h.two_le
  have hnodup := HashMap.nodup_keysIn order signatures
  have hlen : (HashMap.keysIn order signatures).length = s.card := by
    rw [HashMap.length_keysIn, hsize]
  have hne : HashMap.keysIn order signatures ≠ [] := List.ne_nil_of_length_pos (by omega)
  have hdecode : (HashMap.valuesIn order signatures).mapM (signatureFromBytes curve) =
      .ok ((HashMap.keysIn order signatures).map fun i =>
        shareAt poly i • curve.hashToG2 message) := by
    rw [mapM_ok_iff, hvalues, List.forall₂_map_left_iff, List.forall₂_map_right_iff,
      List.forall₂_same]
    exact fun i _ => signatureFromBytes_toBytes curve _
  rw [thresholdAggregate, if_neg (by omega), hdecode, ok_bind,
    lagrangeInterpolateSignature_eq curve hnodup hzero hne, ok_bind,
    h.interpolate curve hnodup (by omega)]
  rfl

lemma Sharing.recoverSecret_ok (h : Sharing curve secretKey total threshold shares poly)
    (hs : ∀ i ∈ s, i ≠ 0 ∧ i ≤ total) (hcard : threshold.toNat ≤ s.card)
    (hsubset : SharesOf shares s subset) {key : Bytes}
    (hkey : recoverSecret curve order subset = .ok key) : key = secretKey := by
  have hlookup : ∀ i b, subset.lookup i = some b ↔
      i ∈ s ∧ b = curve.scalarToBytes (shareAt poly i) := by
    intro i b
    rw [hsubset i b, h.lookup_iff]
    exact and_congr_right fun hi => and_iff_right (mem_indicesUpTo.mpr (hs i hi))
  obtain ⟨hzero, hsize, hvalues⟩ := keysIn_ok order hs hlookup
  have hnodup := HashMap.nodup_keysIn order subset
  have hdecode : (HashMap.valuesIn order subset).mapM (secretKeyFromBytes curve) =
      .ok ((HashMap.keysIn order subset).map (shareAt poly)) := by
    rw [mapM_ok_iff, hvalues, List.forall₂_map_left_iff, List.forall₂_map_right_iff,
      List.forall₂_same]
    intro i hi
    obtain ⟨b, hb⟩ := HashMap.mem_keysIn.mp hi
    have hmem := mem_indicesUpTo.mpr (hs i ((hlookup i b).mp hb).1)
    exact secretKeyFromBytes_toBytes curve (h.ne_zero i hmem)
  rw [recoverSecret] at hkey
  split_ifs at hkey
  rw [hdecode, ok_bind, bind_ok_iff] at hkey
  obtain ⟨recovered, hinterpolate, hkey⟩ := hkey
  obtain rfl := pure_ok_iff.mp hkey
  have hsum := h.interpolate curve hnodup (by rw [HashMap.length_keysIn, hsize]; exact hcard) (1 : F)
  simp only [smul_eq_mul, mul_one] at hsum
  rw [lagrangeInterpolateSecret_ok curve hnodup hzero hinterpolate]
  simp only [smul_eq_mul, hsum]
  exact curve.scalarToBytes_fromBytes _ _ ((secretKeyFromBytes_ok_iff curve).mp h.secret).1

end Threshold

/-- **Threshold signatures.**  Let a split succeed, and let `s` be at least `threshold` of the
indices.  Every share of `s` signs; the signatures with them are aggregated, in every order, to the
signature with the secret key; and if the secret key is recovered from them, it is the one that was
split. -/
theorem threshold_correct {secretKey : Bytes} {total threshold : UInt64} {keyGen : ℕ → Option F}
    {shares : HashMap UInt64 Bytes}
    (hsplit : thresholdSplitInsecure curve secretKey total threshold keyGen = .ok shares)
    {s : Finset UInt64} (hs : ∀ i ∈ s, 1 ≤ i ∧ i ≤ total) (hcard : threshold.toNat ≤ s.card)
    (order : IterOrder (Sigma fun _ : UInt64 => Bytes)) :
    (∀ message, ∃ sig, sign curve secretKey message = .ok sig ∧
      (∀ i ∈ s, ∃ share partialSig, shares.lookup i = some share ∧
        sign curve share message = .ok partialSig) ∧
      ∀ signatures, SignedBy curve shares s message signatures →
        thresholdAggregate curve order signatures = .ok sig) ∧
    ∀ subset key, SharesOf shares s subset → recoverSecret curve order subset = .ok key →
      key = secretKey := by
  obtain ⟨poly, h⟩ := sharing_of_split curve hsplit
  have hs' : ∀ i ∈ s, i ≠ 0 ∧ i ≤ total := by
    intro i hi
    refine ⟨?_, (hs i hi).2⟩
    rintro rfl
    exact absurd (hs 0 hi).1 (by decide)
  refine ⟨fun message => ⟨curve.g2ToBytes (poly.headD 0 • curve.hashToG2 message), ?_,
    fun i hi => ?_, fun signatures hsigned => ?_⟩, ?_⟩
  · rw [sign, h.secret]
    rfl
  · have hmem := mem_indicesUpTo.mpr (hs' i hi)
    exact ⟨_, _, (h.lookup_iff i _).mpr ⟨hmem, rfl⟩, sign_toBytes curve (h.ne_zero i hmem) message⟩
  · exact h.thresholdAggregate_eq curve order hs' hcard hsigned
  · exact fun subset key hsubset hkey => h.recoverSecret_ok curve order hs' hcard hsubset hkey

end Keys

/-- The shares of the key `5` under the polynomial `5 + 7x`. -/
def threeShares : HashMap UInt64 Bytes :=
  (((∅ : HashMap UInt64 Bytes).insert 1 (scalarToBytes 12)).insert 2 (scalarToBytes 19)).insert 3
    (scalarToBytes 26)

/-- A message hashes to the generator here, so signatures with the shares are the shares. -/
def twoSignatures : HashMap UInt64 Bytes :=
  ((∅ : HashMap UInt64 Bytes).insert 1 (scalarToBytes 12)).insert 3 (scalarToBytes 26)

lemma split_threeShares :
    thresholdSplitInsecure (exponents fun _ => 1) (scalarToBytes 5) 3 2 (fun _ => some 7) =
      .ok threeShares := by
  rfl

lemma signedBy_twoSignatures :
    SignedBy (exponents fun _ => 1) threeShares {1, 3} [] twoSignatures := by
  have hone : sign (exponents fun _ => 1) (scalarToBytes 12) [] = .ok (scalarToBytes 12) := by rfl
  have hthree : sign (exponents fun _ => 1) (scalarToBytes 26) [] = .ok (scalarToBytes 26) := by rfl
  intro i sig
  by_cases h₁ : i = 1
  · subst h₁
    have hlook : twoSignatures.lookup 1 = some (scalarToBytes 12) := by rfl
    have hshare : threeShares.lookup 1 = some (scalarToBytes 12) := by rfl
    simp [hlook, hshare, hone]
  by_cases h₃ : i = 3
  · subst h₃
    simp [twoSignatures, threeShares, hthree]
  · rw [twoSignatures, AList.lookup_insert_ne h₃, AList.lookup_insert_ne h₁]
    simp [h₁, h₃]

theorem threshold_correct_two_of_three :
    (∃ sig, sign (exponents fun _ => 1) (scalarToBytes 5) [] = .ok sig ∧
      thresholdAggregate (exponents fun _ => 1) (IterOrder.stored _) twoSignatures = .ok sig) ∧
    recoverSecret (exponents fun _ => 1) (IterOrder.stored _) twoSignatures =
      .ok (scalarToBytes 5) := by
  have hsplit := threshold_correct (exponents fun _ => 1) split_threeShares (s := {1, 3})
    (by simp) (by decide) (IterOrder.stored _)
  obtain ⟨sig, hsign, -, haggregate⟩ := hsplit.1 []
  exact ⟨⟨sig, hsign, haggregate _ signedBy_twoSignatures⟩, by decide +kernel⟩

end Pluto.Crypto.Blst
