import Pluto.Lib.Wire

/-!
# Base64

Three bytes are four digits of six bits.  `Base64` has the standard alphabet with padding, `Base64Url`
the alphabet for URLs without padding.  Decoding is strict: it wants the padding where there is one,
and no stray bits in the last digit.  `decode_encode` is the round trip.
-/

namespace Base64

def alphabet : List Char :=
  "ABCDEFGHIJKLMNOPQRSTUVWXYZabcdefghijklmnopqrstuvwxyz0123456789+/".toList

def digit (n : ℕ) : Char := alphabet.getD n '='

def value (c : Char) : Option ℕ := alphabet.findIdx? (· = c)

/-- The last group is padded to four characters. -/
def encode : Bytes → List Char
  | [] => []
  | [a] => [digit (a.toNat / 4), digit (a.toNat % 4 * 16), '=', '=']
  | [a, b] =>
    [digit (a.toNat / 4), digit (a.toNat % 4 * 16 + b.toNat / 16), digit (b.toNat % 16 * 4), '=']
  | a :: b :: c :: rest =>
    digit (a.toNat / 4) :: digit (a.toNat % 4 * 16 + b.toNat / 16) ::
      digit (b.toNat % 16 * 4 + c.toNat / 64) :: digit (c.toNat % 64) :: encode rest

/-- The bytes of four digits. -/
def firstByte (a b : ℕ) : UInt8 := UInt8.ofNat (a * 4 + b / 16)

def secondByte (b c : ℕ) : UInt8 := UInt8.ofNat (b % 16 * 16 + c / 4)

def thirdByte (c d : ℕ) : UInt8 := UInt8.ofNat (c % 4 * 64 + d)

/-- Padding is read at the end only, and the bits it leaves over have to be zero. -/
def decode : List Char → Option Bytes
  | [] => some []
  | w :: x :: y :: z :: rest => do
    let a ← value w
    let b ← value x
    if y = '=' ∧ z = '=' ∧ rest = [] then
      if b % 16 = 0 then some [firstByte a b] else none
    else do
      let c ← value y
      if z = '=' ∧ rest = [] then
        if c % 4 = 0 then some [firstByte a b, secondByte b c] else none
      else do
        let d ← value z
        let bytes ← decode rest
        return firstByte a b :: secondByte b c :: thirdByte c d :: bytes
  | _ => none

/-! ## Digits -/

lemma value_digit {n : ℕ} (h : n < 64) : value (digit n) = some n := by
  have hall : ∀ n : Fin 64, value (digit n) = some n.val := by decide +kernel
  exact hall ⟨n, h⟩

lemma digit_ne_pad {n : ℕ} (h : n < 64) : digit n ≠ '=' := by
  have hall : ∀ n : Fin 64, digit n ≠ '=' := by decide +kernel
  exact hall ⟨n, h⟩

/-! ## The round trip -/

lemma firstByte_eq (a b : UInt8) :
    firstByte (a.toNat / 4) (a.toNat % 4 * 16 + b.toNat / 16) = a := by
  have hb := b.toNat_lt
  have hnat : a.toNat / 4 * 4 + (a.toNat % 4 * 16 + b.toNat / 16) / 16 = a.toNat := by omega
  rw [firstByte, hnat, UInt8.ofNat_toNat]

lemma secondByte_eq (n : ℕ) (b c : UInt8) :
    secondByte (n * 16 + b.toNat / 16) (b.toNat % 16 * 4 + c.toNat / 64) = b := by
  have hb := b.toNat_lt
  have hc := c.toNat_lt
  have hnat :
      (n * 16 + b.toNat / 16) % 16 * 16 + (b.toNat % 16 * 4 + c.toNat / 64) / 4 = b.toNat := by
    omega
  rw [secondByte, hnat, UInt8.ofNat_toNat]

lemma thirdByte_eq (n : ℕ) (c : UInt8) :
    thirdByte (n * 4 + c.toNat / 64) (c.toNat % 64) = c := by
  have hc := c.toNat_lt
  have hnat : (n * 4 + c.toNat / 64) % 4 * 64 + c.toNat % 64 = c.toNat := by omega
  rw [thirdByte, hnat, UInt8.ofNat_toNat]

/-- **The round trip.** -/
lemma decode_encode (bytes : Bytes) : decode (encode bytes) = some bytes := by
  fun_induction encode bytes with
  | case1 => rfl
  | case2 a =>
    have ha := a.toNat_lt
    have hbits : a.toNat % 4 * 16 % 16 = 0 := by omega
    have hfirst := firstByte_eq a 0
    simp only [UInt8.toNat_zero, Nat.zero_div, Nat.add_zero] at hfirst
    simp [decode, value_digit (show a.toNat / 4 < 64 by omega),
      value_digit (show a.toNat % 4 * 16 < 64 by omega), hfirst, hbits]
  | case3 a b =>
    have ha := a.toNat_lt
    have hb := b.toNat_lt
    have hbits : b.toNat % 16 * 4 % 4 = 0 := by omega
    have hsecond := secondByte_eq (a.toNat % 4) b 0
    simp only [UInt8.toNat_zero, Nat.zero_div, Nat.add_zero] at hsecond
    simp [decode, value_digit (show a.toNat / 4 < 64 by omega),
      value_digit (show a.toNat % 4 * 16 + b.toNat / 16 < 64 by omega),
      value_digit (show b.toNat % 16 * 4 < 64 by omega),
      digit_ne_pad (show b.toNat % 16 * 4 < 64 by omega), firstByte_eq, hsecond, hbits]
  | case4 a b c rest ih =>
    have ha := a.toNat_lt
    have hb := b.toNat_lt
    have hc := c.toNat_lt
    simp [decode, value_digit (show a.toNat / 4 < 64 by omega),
      value_digit (show a.toNat % 4 * 16 + b.toNat / 16 < 64 by omega),
      value_digit (show b.toNat % 16 * 4 + c.toNat / 64 < 64 by omega),
      value_digit (show c.toNat % 64 < 64 by omega),
      digit_ne_pad (show b.toNat % 16 * 4 + c.toNat / 64 < 64 by omega),
      digit_ne_pad (show c.toNat % 64 < 64 by omega), firstByte_eq, secondByte_eq, thirdByte_eq, ih]

end Base64

namespace Base64Url

open Base64 (firstByte secondByte thirdByte)

def value (c : Char) : Option ℕ :=
  let n := c.toNat
  if 65 ≤ n ∧ n ≤ 90 then some (n - 65)
  else if 97 ≤ n ∧ n ≤ 122 then some (n - 71)
  else if 48 ≤ n ∧ n ≤ 57 then some (n + 4)
  else if n = 45 then some 62
  else if n = 95 then some 63
  else none

/-- A single character in the last group stands for no byte. -/
def decode : List Char → Option Bytes
  | [] => some []
  | [_] => none
  | [w, x] => do
    let a ← value w
    let b ← value x
    if b % 16 = 0 then some [firstByte a b] else none
  | [w, x, y] => do
    let a ← value w
    let b ← value x
    let c ← value y
    if c % 4 = 0 then some [firstByte a b, secondByte b c] else none
  | w :: x :: y :: z :: rest => do
    let a ← value w
    let b ← value x
    let c ← value y
    let d ← value z
    let bytes ← decode rest
    return firstByte a b :: secondByte b c :: thirdByte c d :: bytes

end Base64Url
