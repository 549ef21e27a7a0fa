import Mathlib.NumberTheory.LucasPrimality
import Mathlib.Tactic.NormNum.Prime
import Mathlib.Tactic.ReduceModChar
import Pluto.Lib.SszContainer

/-!
# The ideal curve

What the code uses of BLS12-381: a field of scalars, the two groups of prime order as modules over
it, a generator of the first, and byte encodings.  The library behind it (`blst`) is taken to do
these operations.  That the scalars are integers modulo a 255-bit prime matters in one place only:
no positive `u64` is zero.

Decoders of points reject what is not in the group.  The point at infinity is in it; where the code
rejects it, a function over this structure does so too.

`exponents` is the curve with the order of BLS12-381 in which a point is its discrete logarithm.
-/

namespace Pluto.Crypto

open SszContainer

/-- Scalars `F`, and the groups `G₁` of public keys and `G₂` of signatures. -/
structure Curve (F G₁ G₂ : Type) [Field F] [AddCommGroup G₁] [Module F G₁] [AddCommGroup G₂]
    [Module F G₂] where
  generator : G₁
  generator_bijective : Function.Bijective fun s : F => s • generator
  natCast_ne_zero : ∀ n : ℕ, 0 < n → n < 2 ^ 64 → (n : F) ≠ 0
  scalarToBytes : F → Bytes
  scalarFromBytes : Bytes → Option F
  scalarFromBytes_toBytes : ∀ s, scalarFromBytes (scalarToBytes s) = some s
  scalarToBytes_fromBytes : ∀ bytes s, scalarFromBytes bytes = some s → scalarToBytes s = bytes
  g1ToBytes : G₁ → Bytes
  g1FromBytes : Bytes → Option G₁
  g1FromBytes_toBytes : ∀ p, g1FromBytes (g1ToBytes p) = some p
  g2ToBytes : G₂ → Bytes
  g2FromBytes : Bytes → Option G₂
  g2FromBytes_toBytes : ∀ p, g2FromBytes (g2ToBytes p) = some p
  hashToG2 : Bytes → G₂

namespace Curve

variable {F G₁ G₂ : Type} [Field F] [AddCommGroup G₁] [Module F G₁] [AddCommGroup G₂] [Module F G₂]
  (curve : Curve F G₁ G₂)

lemma smul_generator_inj {s s' : F} (h : s • curve.generator = s' • curve.generator) : s = s' :=
  curve.generator_bijective.1 h

/-- Every commitment is one to some polynomial. -/
lemma exists_coefficients (commitment : List G₁) :
    ∃ coefficients : List F, commitment = coefficients.map (· • curve.generator) := by
  induction commitment with
  | nil => exact ⟨[], rfl⟩
  | cons p commitment ih =>
    obtain ⟨coefficients, rfl⟩ := ih
    obtain ⟨c, rfl⟩ := curve.generator_bijective.2 p
    exact ⟨c :: coefficients, rfl⟩

lemma g1ToBytes_injective : Function.Injective curve.g1ToBytes := by
  intro p q h
  refine Option.some.inj ?_
  rw [← curve.g1FromBytes_toBytes p, h, curve.g1FromBytes_toBytes]

include curve in
/-- Different `u64` numbers are different scalars. -/
lemma natCast_inj {n m : ℕ} (hn : n < 2 ^ 64) (hm : m < 2 ^ 64) (h : (n : F) = m) : n = m := by
  rcases lt_trichotomy n m with hlt | rfl | hlt
  · refine absurd ?_ (curve.natCast_ne_zero (m - n) (by omega) (by omega))
    rw [Nat.cast_sub hlt.le, h, sub_self]
  · rfl
  · refine absurd ?_ (curve.natCast_ne_zero (n - m) (by omega) (by omega))
    rw [Nat.cast_sub hlt.le, h, sub_self]

end Curve

/-! ## The order of BLS12-381

The order is prime by Lucas' test: `7` generates the units, as none of its powers for the prime
factors of `order - 1` is one. -/

def order : ℕ := 52435875175126190479447740508185965837690552500527637822603658699938581184513

/-- The prime factors of `order - 1`, with repetitions. -/
def factors : List ℕ :=
  List.replicate 32 2 ++ [3, 11, 19, 10177, 125527, 859267, 906349, 906349, 2508409, 2529403,
    52437899, 254760293, 254760293]

lemma prod_factors : factors.prod = order - 1 := by decide +kernel

lemma prime_of_mem_factors {q : ℕ} (h : q ∈ factors) : q.Prime := by
  simp only [factors, List.mem_append, List.mem_replicate, List.mem_cons, List.not_mem_nil,
    or_false] at h
  rcases h with ⟨-, rfl⟩ | rfl | rfl | rfl | rfl | rfl | rfl | rfl | rfl | rfl | rfl | rfl | rfl |
    rfl <;> norm_num

set_option maxRecDepth 4000 in
lemma seven_pow_ne_one {q : ℕ} (h : q ∈ factors) : (7 : ZMod order) ^ ((order - 1) / q) ≠ 1 := by
  simp only [factors, List.mem_append, List.mem_replicate, List.mem_cons, List.not_mem_nil,
    or_false] at h
  unfold order
  rcases h with ⟨-, rfl⟩ | rfl | rfl | rfl | rfl | rfl | rfl | rfl | rfl | rfl | rfl | rfl | rfl |
    rfl <;> norm_num <;> reduce_mod_char <;> decide

set_option maxRecDepth 4000 in
lemma seven_pow_eq_one : (7 : ZMod order) ^ (order - 1) = 1 := by
  unfold order
  norm_num
  reduce_mod_char

theorem prime_order : order.Prime := by
  refine lucas_primality order 7 seven_pow_eq_one fun q hq hdvd => ?_
  rw [← prod_factors, Prime.dvd_prod_iff hq.prime] at hdvd
  obtain ⟨p, hp, hdvd⟩ := hdvd
  rw [(Nat.prime_dvd_prime_iff_eq hq (prime_of_mem_factors hp)).mp hdvd]
  exact seven_pow_ne_one hp

instance : Fact order.Prime := ⟨prime_order⟩

/-! The numerals that the examples are written with. -/

scoped instance atLeastTwo_two : Nat.AtLeastTwo 2 := ⟨by decide⟩

scoped instance atLeastTwo_three : Nat.AtLeastTwo 3 := ⟨by decide⟩

scoped instance atLeastTwo_five : Nat.AtLeastTwo 5 := ⟨by decide⟩

scoped instance atLeastTwo_six : Nat.AtLeastTwo 6 := ⟨by decide⟩

scoped instance atLeastTwo_seven : Nat.AtLeastTwo 7 := ⟨by decide⟩

scoped instance atLeastTwo_eight : Nat.AtLeastTwo 8 := ⟨by decide⟩

scoped instance atLeastTwo_eleven : Nat.AtLeastTwo 11 := ⟨by decide⟩

scoped instance atLeastTwo_twelve : Nat.AtLeastTwo 12 := ⟨by decide⟩

scoped instance atLeastTwo_twentySix : Nat.AtLeastTwo 26 := ⟨by decide⟩

/-! ## Points as exponents -/

/-- Scalars are 32 bytes, most significant first, and less than the order. -/
def scalarToBytes (s : ZMod order) : Bytes := (leBytes 32 s.val).reverse

def scalarFromBytes (bytes : Bytes) : Option (ZMod order) :=
  if bytes.length = 32 ∧ readLe bytes.reverse < order then some (readLe bytes.reverse : ℕ) else none

lemma scalarFromBytes_toBytes (s : ZMod order) : scalarFromBytes (scalarToBytes s) = some s := by
  have hread : readLe (scalarToBytes s).reverse = s.val := by
    rw [scalarToBytes, List.reverse_reverse]
    exact readLe_leBytes_of_lt (s.val_lt.trans (by decide +kernel))
  rw [scalarFromBytes, hread, if_pos ⟨by simp [scalarToBytes], s.val_lt⟩]
  exact congrArg some (ZMod.natCast_zmod_val s)

lemma scalarToBytes_fromBytes {bytes : Bytes} {s : ZMod order}
    (h : scalarFromBytes bytes = some s) : scalarToBytes s = bytes := by
  rw [scalarFromBytes, Option.ite_none_right_eq_some] at h
  obtain ⟨⟨hlen, hlt⟩, hs⟩ := h
  rw [← Option.some.inj hs, scalarToBytes, ZMod.val_natCast_of_lt hlt, ← hlen,
    ← List.length_reverse, leBytes_readLe, List.reverse_reverse]

/-- A point is the scalar that gives it. -/
def exponents (hashToG2 : Bytes → ZMod order) : Curve (ZMod order) (ZMod order) (ZMod order) where
  generator := 1
  generator_bijective := by simp
  natCast_ne_zero := by
    intro n hpos hlt h
    have hdvd := (ZMod.natCast_eq_zero_iff n order).mp h
    exact absurd (Nat.le_of_dvd hpos hdvd) (hlt.trans (by decide +kernel)).not_ge
  scalarToBytes := scalarToBytes
  scalarFromBytes := scalarFromBytes
  scalarFromBytes_toBytes := scalarFromBytes_toBytes
  scalarToBytes_fromBytes := fun _ _ => scalarToBytes_fromBytes
  g1ToBytes := scalarToBytes
  g1FromBytes := scalarFromBytes
  g1FromBytes_toBytes := scalarFromBytes_toBytes
  g2ToBytes := scalarToBytes
  g2FromBytes := scalarFromBytes
  g2FromBytes_toBytes := scalarFromBytes_toBytes
  hashToG2 := hashToG2

end Pluto.Crypto
