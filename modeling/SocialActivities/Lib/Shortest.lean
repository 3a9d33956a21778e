import SocialActivities.Lib.NumberText

/-!
# `SocialActivities.Lib.Shortest`: the shortest decimal of a binary64 number

The text that languages print for a binary64 number has the fewest digits that still read back
as that number, and of these the nearest to it; of two equally near the one with the even last
digit. `shortest` finds it by trying 1 to 17 digits: with `k` digits, the decimals just below and
just above the exact value are the only candidates. Seventeen digits are enough for every
binary64 number, and the exact decimal after them makes the function total.

`fixedText` and `scientificText` lay the decimal out without and with an exponent. Both read back
as the number (`parseFloat_fixedText`, `parseFloat_scientificText`).
-/

namespace SocialActivities.Lib

open Digits

/-- The number `coeff * 10 ^ exp`. -/
structure Decimal where
  coeff : Nat
  exp : Int
  deriving DecidableEq

namespace Decimal

/-- The magnitude nearest to a decimal. -/
def round (d : Decimal) : Option Magnitude := roundScaled d.coeff d.exp

/-- The exponent that leaves one digit before the point. -/
def scientificExponent (d : Decimal) : Int := d.exp + Nat.log 10 d.coeff

end Decimal

/-- A unit in units of `10 ^ -1074`. -/
def fiveScale : Nat := 5 ^ 1074

/-- The exact decimal of a magnitude. -/
def exactDecimal (x : Magnitude) : Decimal := ⟨x.units * fiveScale, -1074⟩

/-- A coefficient of `k` digits, or the next power of ten as a single digit. -/
def carry (k coeff : Nat) (exp : Int) : Decimal :=
  if coeff = 10 ^ k then ⟨1, exp + k⟩ else ⟨coeff, exp⟩

/-- The decimal of `k` digits that reads back as `x` and is nearest to it, if there is one. -/
def nearest (x : Magnitude) (k : Nat) : Option Decimal :=
  let n := x.units * fiveScale
  let cut := width n - k
  let below := carry k (n / 10 ^ cut) (cut - 1074)
  let above := carry k (n / 10 ^ cut + 1) (cut - 1074)
  let r := n % 10 ^ cut
  let nearBelow := decide (2 * r < 10 ^ cut) || decide (2 * r = 10 ^ cut ∧ n / 10 ^ cut % 2 = 0)
  if below.round = some x ∧ (nearBelow = true ∨ above.round ≠ some x) then some below
  else if above.round = some x then some above
  else none

/-- The shortest decimal that reads back as `x`. -/
def shortest (x : Magnitude) : Decimal :=
  if x.units = 0 then ⟨0, 0⟩
  else ((List.range 17).findSome? fun i => nearest x (i + 1)).getD (exactDecimal x)

/-! ### Reading back -/

variable {x : Magnitude}

theorem units_eq_zero (h : x.units = 0) : x = Magnitude.zero := by
  obtain ⟨mant, exp, hlt, hcanonical, hle⟩ := x
  have hmant : mant = 0 := by
    rcases Nat.mul_eq_zero.mp h with hmant | hpow
    · exact hmant
    · exact absurd hpow (Nat.pos_iff_ne_zero.mp (Nat.two_pow_pos _))
  subst hmant
  have hexp : exp = 0 := hcanonical.resolve_right (by decide)
  subst hexp
  rfl

theorem unitsPerOne_eq : Magnitude.unitsPerOne = 2 ^ 1074 := by
  unfold Magnitude.unitsPerOne
  rfl

variable {k : Nat}

theorem round_mul_five_pow (x : Magnitude) (hk : Magnitude.unitsPerOne = 2 ^ k) :
    Magnitude.round (x.units * 5 ^ k) (10 ^ k) = some x := by
  refine Magnitude.round_of_units (Nat.pow_pos (by decide)) ?_
  have hten : 10 ^ k = 5 ^ k * 2 ^ k := Nat.mul_pow 5 2 k
  rw [hk, hten, Nat.mul_assoc]

theorem round_exactDecimal (x : Magnitude) : (exactDecimal x).round = some x := by
  have hneg : ¬(0 : Int) ≤ -1074 := by decide
  have hscale : (-(-1074 : Int)).toNat = 1074 := rfl
  unfold exactDecimal Decimal.round roundScaled fiveScale
  rw [if_neg hneg, hscale]
  exact round_mul_five_pow x unitsPerOne_eq

variable {d : Decimal}

theorem round_nearest (h : nearest x k = some d) :
    d.round = some x := by
  unfold nearest at h
  dsimp only at h
  split at h
  · next hbelow =>
    obtain rfl := Option.some.inj h
    exact hbelow.1
  · split at h
    · next habove =>
      obtain rfl := Option.some.inj h
      exact habove
    · cases h

theorem round_shortest (x : Magnitude) : (shortest x).round = some x := by
  unfold shortest
  split
  · next hzero =>
    rw [units_eq_zero hzero, Decimal.round, roundScaled, if_pos (Int.le_refl 0), Nat.zero_mul,
      Magnitude.round_zero Nat.one_pos]
  · cases hfound : (List.range 17).findSome? fun i => nearest x (i + 1) with
    | none =>
      rw [Option.getD_none]
      exact round_exactDecimal x
    | some =>
      obtain ⟨i, _, hi⟩ := List.exists_of_findSome?_eq_some hfound
      exact round_nearest hi

/-! ### The scientific exponent of the shortest decimal -/

theorem scientificExponent_exactDecimal (x : Magnitude) :
    (exactDecimal x).scientificExponent = Nat.log 10 (x.units * fiveScale) - 1074 := by
  show (-1074 : Int) + Nat.log 10 (x.units * fiveScale) = _
  omega

theorem scientificExponent_carry (k m : Nat) (q : Int) :
    (carry k m q).scientificExponent = q + Nat.log 10 m := by
  unfold carry
  split
  · next h =>
    show q + (k : Int) + (Nat.log 10 1 : Nat) = _
    rw [Nat.log_one_right, h, Nat.log_pow (by decide)]
    omega
  · rfl

theorem log_succ (m : Nat) :
    Nat.log 10 (m + 1) = Nat.log 10 m ∨ m + 1 = 10 ^ Nat.log 10 (m + 1) := by
  by_cases h : m + 1 = 10 ^ Nat.log 10 (m + 1)
  · exact Or.inr h
  · have hle : 10 ^ Nat.log 10 (m + 1) ≤ m + 1 := Nat.pow_log_le_self 10 (Nat.succ_ne_zero m)
    have hm : 10 ^ Nat.log 10 (m + 1) ≤ m := by omega
    have hne : m ≠ 0 := by
      have hpos : 0 < 10 ^ Nat.log 10 (m + 1) := Nat.pow_pos (by decide)
      omega
    exact Or.inl (le_antisymm ((Nat.le_log_iff_pow_le (by decide) hne).mpr hm)
      (Nat.log_mono_right (Nat.le_succ m)))

theorem roundScaled_pow_ten {j : Nat} {p : Int} (h : (j : Int) + p = k) :
    roundScaled (10 ^ j) p = Magnitude.round (10 ^ k) 1 := by
  unfold roundScaled
  split
  · next hp =>
    have hk : j + p.toNat = k := by omega
    rw [← Nat.pow_add, hk]
  · next hp =>
    obtain rfl : j = k + (-p).toNat := by omega
    have hmul := Magnitude.round_mul_right (n := 10 ^ k) (d := 1) (c := 10 ^ (-p).toNat)
      (Nat.pow_pos (by decide))
    rw [Nat.one_mul] at hmul
    rw [Nat.pow_add, hmul]

/-- The decimal below the exact value has its exponent; the one above it too, or it is the next
power of ten. -/
theorem scientificExponent_nearest (hk : 0 < k) (h : nearest x k = some d) :
    d.scientificExponent = (exactDecimal x).scientificExponent ∨
      d.scientificExponent = (exactDecimal x).scientificExponent + 1 ∧
        ∃ j : Nat, d.coeff = 10 ^ j ∧ (j : Int) + d.exp = d.scientificExponent := by
  rw [scientificExponent_exactDecimal]
  unfold nearest at h
  dsimp only at h
  generalize x.units * fiveScale = n at h ⊢
  generalize hcut : width n - k = cut at h
  have hcut' : cut ≤ Nat.log 10 n := by
    unfold width at hcut
    omega
  -- Cutting digits off divides by a power of ten and keeps the exponent.
  have hlog : Nat.log 10 (n / 10 ^ cut) = Nat.log 10 n - cut := Nat.log_div_base_pow 10 n cut
  split at h
  · obtain rfl := Option.some.inj h
    left
    rw [scientificExponent_carry, hlog]
    omega
  · split at h
    · obtain rfl := Option.some.inj h
      rw [scientificExponent_carry]
      generalize hm : n / 10 ^ cut = m at hlog ⊢
      -- The decimal above: adding one keeps the logarithm or gives a power of ten.
      rcases log_succ m with hsame | hpower
      · left
        rw [hsame, hlog]
        omega
      · by_cases hraise : Nat.log 10 (m + 1) = Nat.log 10 m
        · left
          rw [hraise, hlog]
          omega
        · right
          have hnext : Nat.log 10 (m + 1) = Nat.log 10 m + 1 := by
            have hmono : Nat.log 10 m ≤ Nat.log 10 (m + 1) := Nat.log_mono_right (Nat.le_succ m)
            have hup : Nat.log 10 (m + 1) ≤ Nat.log 10 m + 1 := by
              have hlt : m < 10 ^ (Nat.log 10 m + 1) := Nat.lt_pow_succ_log_self (by decide) m
              calc Nat.log 10 (m + 1) ≤ Nat.log 10 (10 ^ (Nat.log 10 m + 1)) :=
                    Nat.log_mono_right hlt
                _ = Nat.log 10 m + 1 := Nat.log_pow (by decide) _
            omega
          refine ⟨by rw [hnext, hlog]; omega, ?_⟩
          unfold carry
          split
          · next hcarry =>
            refine ⟨0, rfl, ?_⟩
            rw [hcarry, Nat.log_pow (by decide)]
            show ((0 : Nat) : Int) + ((cut : Int) - 1074 + k) = (cut : Int) - 1074 + k
            omega
          · exact ⟨Nat.log 10 (m + 1), hpower, by
              show (Nat.log 10 (m + 1) : Int) + ((cut : Int) - 1074) = _
              omega⟩
    · cases h

/-- `10 ^ 16` is a binary64 number. -/
def tenToSixteen : Magnitude :=
  ⟨5000000000000000, 1075, by decide, Or.inr (by decide), by decide⟩

theorem units_of_exp (hk : Magnitude.unitsPerOne = 2 ^ k)
    (hmant : x.mant = 5000000000000000) (hexp : x.exp = k + 1) :
    10 ^ 16 * Magnitude.unitsPerOne = x.units := by
  rw [Magnitude.units, hk, hmant, hexp, Nat.pow_succ]
  omega

theorem units_tenToSixteen : 10 ^ 16 * Magnitude.unitsPerOne = tenToSixteen.units :=
  units_of_exp unitsPerOne_eq rfl rfl

theorem log_mul_five_pow_lt {u : Nat} (hu : u ≠ 0) (h : u < 10 ^ 16 * 2 ^ k) :
    Nat.log 10 (u * 5 ^ k) < 16 + k := by
  have hfive : 0 < 5 ^ k := Nat.pow_pos (by decide)
  have hten : 10 ^ (16 + k) = 10 ^ 16 * 2 ^ k * 5 ^ k := by
    rw [Nat.pow_add, Nat.mul_assoc, ← Nat.mul_pow]
  refine Nat.log_lt_of_lt_pow (Nat.mul_ne_zero hu (Nat.pos_iff_ne_zero.mp hfive)) ?_
  rw [hten]
  exact Nat.mul_lt_mul_of_pos_right h hfive

theorem log_units_lt (hzero : x.units ≠ 0) (hx : x.units < 10 ^ 16 * Magnitude.unitsPerOne) :
    Nat.log 10 (x.units * fiveScale) < 16 + 1074 := by
  unfold Magnitude.unitsPerOne at hx
  unfold fiveScale
  exact log_mul_five_pow_lt hzero hx

theorem scientificExponent_shortest_lt (hx : x.units < 10 ^ 16 * Magnitude.unitsPerOne) :
    (shortest x).scientificExponent < 16 := by
  have hround : Magnitude.round (10 ^ 16) 1 = some tenToSixteen :=
    Magnitude.round_of_units Nat.one_pos (units_tenToSixteen.trans (Nat.mul_one _).symm)
  by_cases hzero : x.units = 0
  · rw [shortest, if_pos hzero]
    decide
  -- If no length up to 17 digits reads back, the exact decimal is printed.
  have hexact : (exactDecimal x).scientificExponent < 16 := by
    have hlog := log_units_lt hzero hx
    rw [scientificExponent_exactDecimal]
    omega
  rw [shortest, if_neg hzero]
  cases hfound : (List.range 17).findSome? fun i => nearest x (i + 1) with
  | none =>
    rw [Option.getD_none]
    exact hexact
  | some d =>
    rw [Option.getD_some]
    obtain ⟨i, _, hi⟩ := List.exists_of_findSome?_eq_some hfound
    rcases scientificExponent_nearest (Nat.succ_pos i) hi with hsame | ⟨hnext, j, hcoeff, hj⟩
    · omega
    · -- Only the power of ten itself could reach 16, and it is not below it.
      rcases lt_or_ge d.scientificExponent 16 with hlt | hge
      · exact hlt
      · have hsixteen : (j : Int) + d.exp = (16 : Nat) := by omega
        have hten : d.round = some tenToSixteen := by
          rw [Decimal.round, hcoeff, roundScaled_pow_ten hsixteen, hround]
        obtain rfl := Option.some.inj ((round_nearest hi).symm.trans hten)
        exact absurd hx (by rw [units_tenToSixteen]; exact Nat.lt_irrefl _)

/-! ### Layouts -/

/-- The text of a decimal without exponent, with at least one digit after the point. -/
def fixedText (neg : Bool) (d : Decimal) : NumberText :=
  if d.exp < 0 then .pointed neg d.coeff (-d.exp).toNat
  else .pointed neg (d.coeff * 10 ^ d.exp.toNat * 10) 1

/-- An exponent as it is printed: its sign, and at least two digits. -/
def printedExponent (e : Int) : Exponent where
  upper := false
  sign := some (decide (e < 0))
  digits := digitsPad (max 2 (width e.natAbs)) e.natAbs
  digits_ne := by
    intro h
    have hlen := congrArg List.length h
    rw [length_digitsPad, List.length_nil] at hlen
    omega

/-- The text of a decimal with an exponent and one digit before the point. -/
def scientificText (neg : Bool) (d : Decimal) : NumberText :=
  { NumberText.pointed neg d.coeff (Nat.log 10 d.coeff) with
    exp := some (printedExponent d.scientificExponent) }

theorem power_fixedText_neg (neg : Bool) (d : Decimal) : (fixedText neg d).power < 0 := by
  unfold fixedText
  split <;> rw [NumberText.power_pointed] <;> omega

theorem isDecimal_fixedText (neg : Bool) (d : Decimal) : (fixedText neg d).isDecimal = true := by
  unfold fixedText
  split <;> rw [NumberText.isDecimal_pointed, decide_eq_true_eq] <;> omega

theorem isDecimal_scientificText (neg : Bool) (d : Decimal) :
    (scientificText neg d).isDecimal = true := by
  rw [NumberText.isDecimal]
  exact Bool.or_true _

theorem exp_fixedText (neg : Bool) (d : Decimal) : (fixedText neg d).exp = none := by
  unfold fixedText
  split <;> rfl

theorem value_printedExponent (e : Int) : (printedExponent e).value = e := by
  have hlt : e.natAbs < 10 ^ max 2 (width e.natAbs) :=
    Nat.lt_of_lt_of_le (lt_pow_width _) (Nat.pow_le_pow_right (by decide) (le_max_right _ _))
  unfold Exponent.value printedExponent
  rw [ofDigits_digitsPad, Nat.mod_eq_of_lt hlt]
  by_cases h : e < 0
  · simp only [h, decide_true, if_true]
    omega
  · simp only [h, decide_false, Option.some.injEq, Bool.false_eq_true, if_false]
    omega

theorem parseFloat_fixedText (neg : Bool) {x : Magnitude}
    (h : d.round = some x) : (fixedText neg d).parseFloat = some ⟨neg, x⟩ := by
  have hscaled : roundScaled d.coeff d.exp = some x := h
  unfold fixedText
  split
  · next hneg =>
    have hexp : -(((-d.exp).toNat : Nat) : Int) = d.exp := by omega
    rw [NumberText.parseFloat_pointed, hexp, hscaled]
    rfl
  · next hpos =>
    have hshift : roundScaled (d.coeff * 10 ^ d.exp.toNat * 10) (-((1 : Nat) : Int)) = some x := by
      rw [roundScaled, if_pos (Int.not_lt.mp hpos)] at hscaled
      rw [roundScaled, if_neg (by decide), ← hscaled]
      exact Magnitude.round_mul_right (d := 1) (c := 10) (by decide)
    rw [NumberText.parseFloat_pointed, hshift]
    rfl

theorem power_scientificText (neg : Bool) (d : Decimal) :
    (scientificText neg d).power = d.exp := by
  have hpointed := NumberText.power_pointed neg d.coeff (Nat.log 10 d.coeff)
  have hfrac : (scientificText neg d).power = d.scientificExponent
      + (NumberText.pointed neg d.coeff (Nat.log 10 d.coeff)).power := by
    have hnone : (NumberText.pointed neg d.coeff (Nat.log 10 d.coeff)).exp = none := rfl
    simp only [NumberText.power, hnone, scientificText, Option.map_some, Option.getD_some,
      value_printedExponent, Option.map_none, Option.getD_none, NumberText.fracDigits]
    omega
  rw [hfrac, hpointed, Decimal.scientificExponent]
  omega

theorem parseFloat_scientificText (neg : Bool) {x : Magnitude}
    (h : d.round = some x) : (scientificText neg d).parseFloat = some ⟨neg, x⟩ := by
  have hcoeff : (scientificText neg d).coefficient = d.coeff :=
    NumberText.coefficient_pointed neg d.coeff (Nat.log 10 d.coeff)
  have hscaled : roundScaled d.coeff d.exp = some x := h
  rw [NumberText.parseFloat, hcoeff, power_scientificText, hscaled]
  rfl

end SocialActivities.Lib
