import Mathlib.Data.Nat.Log
import Mathlib.Algebra.Order.Ring.Nat
import Mathlib.Tactic.Ring

/-!
# `SocialActivities.Lib.Binary64`: finite binary64 numbers and correct rounding

A finite binary64 number is a sign and a `Magnitude`. A magnitude is a mantissa below `2 ^ 53`
and a biased exponent, in the canonical form (normal, or subnormal at exponent 0), and stands
for the natural number `units = mant * 2 ^ exp` of units `2 ^ -1074`.

`round n d` rounds the ratio `n / d` to the nearest magnitude, ties to the even mantissa, and
is `none` when the result is beyond the largest magnitude. Everything is computed on natural
numbers. `round_of_units` says that rounding is exact: a ratio that is the value of a magnitude
rounds to that magnitude.
-/

namespace SocialActivities.Lib

/-- A non-negative finite binary64 number, in canonical form. -/
structure Magnitude where
  mant : Nat
  exp : Nat
  mant_lt : mant < 2 ^ 53
  canonical : exp = 0 ∨ 2 ^ 52 ≤ mant
  exp_le : exp ≤ 2045
  deriving DecidableEq

/-- A finite binary64 number. Zero has both signs. -/
structure Binary64 where
  neg : Bool
  mag : Magnitude
  deriving DecidableEq

namespace Magnitude

/-- The units in one. -/
def unitsPerOne : Nat := 2 ^ 1074

def zero : Magnitude := ⟨0, 0, by decide, Or.inl rfl, by decide⟩

/-- The value in units of `2 ^ -1074`. -/
def units (x : Magnitude) : Nat := x.mant * 2 ^ x.exp

/-- The magnitude with this mantissa and exponent, if they are in range. -/
def mk? (mant exp : Nat) : Option Magnitude :=
  if h : mant < 2 ^ 53 ∧ (exp = 0 ∨ 2 ^ 52 ≤ mant) ∧ exp ≤ 2045 then
    some ⟨mant, exp, h.1, h.2.1, h.2.2⟩
  else none

/-- The nearest natural number to `q / d`, ties to even. -/
def roundHalfEven (q d : Nat) : Nat :=
  let m := q / d
  let r := q % d
  if 2 * r < d then m
  else if d < 2 * r then m + 1
  else if m % 2 = 0 then m else m + 1

/-- The nearest magnitude to `n / d`, ties to even. A mantissa that rounds up to `2 ^ 53` moves
to the next exponent. -/
def round (n d : Nat) : Option Magnitude :=
  let q := n * unitsPerOne
  let e := Nat.log2 (q / d) - 52
  let m := roundHalfEven q (d * 2 ^ e)
  if m = 2 ^ 53 then mk? (2 ^ 52) (e + 1) else mk? m e

theorem mk?_self (x : Magnitude) : mk? x.mant x.exp = some x := by
  unfold mk?
  rw [dif_pos ⟨x.mant_lt, x.canonical, x.exp_le⟩]

theorem roundHalfEven_mul {m d : Nat} (hd : 0 < d) : roundHalfEven (m * d) d = m := by
  unfold roundHalfEven
  rw [Nat.mul_div_cancel _ hd, Nat.mul_mod_left]
  simp only [Nat.mul_zero, if_pos hd]

/-- The exponent that `round` chooses for the value of a magnitude is the exponent of the
magnitude. -/
theorem log2_units (x : Magnitude) : Nat.log2 x.units - 52 = x.exp := by
  have hpow : 0 < 2 ^ x.exp := Nat.two_pow_pos _
  rcases x.canonical with hexp | hmant
  · -- A subnormal or a least normal number: at most 53 bits, and exponent 0.
    have hlt : x.units < 2 ^ 53 := by
      unfold units
      rw [hexp, Nat.pow_zero, Nat.mul_one]
      exact x.mant_lt
    by_cases hzero : x.units = 0
    · rw [hzero, hexp]
      rfl
    · have hlog : Nat.log2 x.units < 53 := (Nat.log2_lt hzero).mpr hlt
      omega
  · have hlog : Nat.log2 x.units = 52 + x.exp := by
      have hne : x.units ≠ 0 := by
        unfold units
        exact Nat.mul_ne_zero (by omega) (by omega)
      rw [Nat.log2_eq_iff hne]
      unfold units
      constructor
      · rw [Nat.pow_add]
        exact Nat.mul_le_mul_right _ hmant
      · rw [show 52 + x.exp + 1 = 53 + x.exp by omega, Nat.pow_add]
        exact Nat.mul_lt_mul_of_pos_right x.mant_lt hpow
    omega

theorem round_of_units {n d : Nat} {x : Magnitude} (hd : 0 < d)
    (h : n * unitsPerOne = x.units * d) : round n d = some x := by
  have hne : x.mant ≠ 2 ^ 53 := Nat.ne_of_lt x.mant_lt
  have hpow : 0 < d * 2 ^ x.exp := Nat.mul_pos hd (Nat.two_pow_pos _)
  have hsplit : x.units * d = x.mant * (d * 2 ^ x.exp) := by
    unfold units
    ring
  unfold round
  simp only [h]
  rw [Nat.mul_div_cancel _ hd, log2_units, hsplit, roundHalfEven_mul hpow, if_neg hne, mk?_self]

theorem round_zero {d : Nat} (hd : 0 < d) : round 0 d = some zero :=
  round_of_units hd (by rw [units, zero, Nat.zero_mul, Nat.zero_mul, Nat.zero_mul])

theorem round_mul_right {n d c : Nat} (hc : 0 < c) : round (n * c) (d * c) = round n d := by
  have hq : n * c * unitsPerOne = n * unitsPerOne * c := by ring
  have hhalf : ∀ e, roundHalfEven (n * unitsPerOne * c) (d * c * 2 ^ e)
      = roundHalfEven (n * unitsPerOne) (d * 2 ^ e) := by
    intro e
    have hden : d * c * 2 ^ e = d * 2 ^ e * c := by ring
    unfold roundHalfEven
    rw [hden, Nat.mul_div_mul_right _ _ hc, Nat.mul_mod_mul_right]
    have hleft : 2 * (n * unitsPerOne % (d * 2 ^ e) * c) < d * 2 ^ e * c ↔
        2 * (n * unitsPerOne % (d * 2 ^ e)) < d * 2 ^ e := by
      rw [← Nat.mul_assoc]
      exact Nat.mul_lt_mul_right hc
    have hright : d * 2 ^ e * c < 2 * (n * unitsPerOne % (d * 2 ^ e) * c) ↔
        d * 2 ^ e < 2 * (n * unitsPerOne % (d * 2 ^ e)) := by
      rw [← Nat.mul_assoc]
      exact Nat.mul_lt_mul_right hc
    simp only [hleft, hright]
  unfold round
  simp only [hq, Nat.mul_div_mul_right _ _ hc, hhalf]

end Magnitude

end SocialActivities.Lib
