import SocialActivities.Lib.Binary64
import SocialActivities.Lib.JsonText
import Mathlib.Data.List.Induction

/-!
# `SocialActivities.Lib.NumberText`: the texts of JSON numbers and their values

A number of a JSON text is a sign, a whole part without leading zeros, and possibly digits after
a point and an exponent (`NumberText`). Its value is an integer when it has neither point nor
exponent, else the binary64 number nearest to it (`Number`), and there is none when it is beyond
the largest. A text is `coefficient * 10 ^ power`, and only these and the sign count for the value.

`chars_append_inj`: the characters of a number show where it ends, and which number it is.
-/

namespace SocialActivities.Lib

/-! ### Decimal digits -/

namespace Digits

/-- The number that digits write, the most significant first. -/
def ofDigits (ds : List (Fin 10)) : Nat := ds.foldl (fun a d => a * 10 + d.val) 0

/-- The last `k` digits of a number. -/
def digitsPad : Nat → Nat → List (Fin 10)
  | 0, _ => []
  | k + 1, n => digitsPad k (n / 10) ++ [Fin.ofNat 10 n]

/-- The number of digits of a number; zero has one. -/
def width (n : Nat) : Nat := Nat.log 10 n + 1

/-- The digits of a number, without leading zeros. -/
def digits (n : Nat) : List (Fin 10) := digitsPad (width n) n

/-- At least two digits. -/
def twoDigits (n : Nat) : List (Fin 10) := if n < 10 then 0 :: digits n else digits n

def digitChar (d : Fin 10) : Char := Char.ofNat (48 + d.val)

theorem ofDigits_concat (ds : List (Fin 10)) (d : Fin 10) :
    ofDigits (ds ++ [d]) = ofDigits ds * 10 + d.val := by
  rw [ofDigits, List.foldl_append]
  rfl

@[simp] theorem length_digitsPad (k n : Nat) : (digitsPad k n).length = k := by
  induction k generalizing n with
  | zero => rfl
  | succ k ih => rw [digitsPad, List.length_append, ih]; rfl

theorem ofDigits_digitsPad (k n : Nat) : ofDigits (digitsPad k n) = n % 10 ^ k := by
  induction k generalizing n with
  | zero => rw [Nat.pow_zero, Nat.mod_one]; rfl
  | succ k ih =>
    have hmod : n % (10 * 10 ^ k) = n % 10 + 10 * (n / 10 % 10 ^ k) := Nat.mod_mul
    rw [digitsPad, ofDigits_concat, ih, Nat.pow_succ', hmod]
    show n / 10 % 10 ^ k * 10 + n % 10 = _
    omega

theorem lt_pow_width (n : Nat) : n < 10 ^ width n := Nat.lt_pow_succ_log_self (by decide) n

theorem ofDigits_digits (n : Nat) : ofDigits (digits n) = n := by
  rw [digits, ofDigits_digitsPad, Nat.mod_eq_of_lt (lt_pow_width n)]

theorem digits_ne_nil (n : Nat) : digits n ≠ [] := by
  intro h
  have hlen := congrArg List.length h
  rw [digits, length_digitsPad] at hlen
  exact absurd hlen (Nat.succ_ne_zero _)

theorem digits_injective : Function.Injective digits := by
  intro m n h
  rw [← ofDigits_digits m, h, ofDigits_digits]

theorem digitsPad_ofDigits (ds : List (Fin 10)) : digitsPad ds.length (ofDigits ds) = ds := by
  induction ds using List.reverseRecOn with
  | nil => rfl
  | append_singleton ds d ih =>
    have hd := d.isLt
    have hdiv : (ofDigits ds * 10 + d.val) / 10 = ofDigits ds := by omega
    have hlast : Fin.ofNat 10 (ofDigits ds * 10 + d.val) = d := by
      apply Fin.ext
      show (ofDigits ds * 10 + d.val) % 10 = d.val
      omega
    rw [ofDigits_concat, List.length_append, List.length_singleton, digitsPad, hdiv, ih, hlast]

theorem ofDigits_lt (ds : List (Fin 10)) : ofDigits ds < 10 ^ ds.length := by
  rw [← digitsPad_ofDigits ds, ofDigits_digitsPad, length_digitsPad]
  exact Nat.mod_lt _ (Nat.pow_pos (by decide))

theorem digitsPad_add_mul (k m n : Nat) : digitsPad k (m * 10 ^ k + n) = digitsPad k n := by
  induction k generalizing n with
  | zero => rfl
  | succ k ih =>
    have hsplit : m * 10 ^ (k + 1) = m * 10 ^ k * 10 := by rw [Nat.pow_succ, Nat.mul_assoc]
    have hdiv : (m * 10 ^ (k + 1) + n) / 10 = m * 10 ^ k + n / 10 := by omega
    have hlast : Fin.ofNat 10 (m * 10 ^ (k + 1) + n) = Fin.ofNat 10 n := by
      apply Fin.ext
      show (m * 10 ^ (k + 1) + n) % 10 = n % 10
      omega
    rw [digitsPad, digitsPad, hdiv, ih, hlast]

theorem digitChar_injective : Function.Injective digitChar :=
  show ∀ d e, digitChar d = digitChar e → d = e by decide

theorem isDigit_digitChar : ∀ d, (digitChar d).isDigit = true := by decide

/-- The text does not go on with a digit. -/
def NoDigit : List Char → Prop
  | [] => True
  | c :: _ => c.isDigit = false

theorem append_inj {ds es : List (Fin 10)} {r r' : List Char} (hr : NoDigit r)
    (hr' : NoDigit r') (h : ds.map digitChar ++ r = es.map digitChar ++ r') : ds = es ∧ r = r' := by
  induction ds generalizing es with
  | nil =>
    cases es with
    | nil => exact ⟨rfl, h⟩
    | cons =>
      rw [List.map_nil, List.nil_append] at h
      rw [h, List.map_cons, List.cons_append, NoDigit, isDigit_digitChar] at hr
      cases hr
  | cons d ds ih =>
    cases es with
    | nil =>
      rw [List.map_nil, List.nil_append] at h
      rw [← h, List.map_cons, List.cons_append, NoDigit, isDigit_digitChar] at hr'
      cases hr'
    | cons =>
      obtain ⟨hhead, htail⟩ := List.cons.inj h
      obtain ⟨rfl, hrest⟩ := ih htail
      exact ⟨by rw [digitChar_injective hhead], hrest⟩

end Digits

open Digits

/-! ### Number texts -/

/-- The exponent of a number text. -/
structure Exponent where
  upper : Bool
  /-- The sign, if it is written; `true` is minus. -/
  sign : Option Bool
  digits : List (Fin 10)
  digits_ne : digits ≠ []
  deriving DecidableEq

/-- A number of a JSON text. -/
structure NumberText where
  neg : Bool
  whole : Nat
  /-- The digits after the point, if there is one. -/
  frac : Option (List (Fin 10))
  exp : Option Exponent
  frac_ne : frac ≠ some []
  deriving DecidableEq

/-- An integer, or a binary64 number. -/
inductive Number where
  | integer (n : Int)
  | float (x : Binary64)
  deriving DecidableEq

namespace Exponent

def value (e : Exponent) : Int :=
  if e.sign = some true then -(ofDigits e.digits : Int) else ofDigits e.digits

def signChars : Option Bool → List Char
  | none => []
  | some true => ['-']
  | some false => ['+']

def chars (e : Exponent) : List Char :=
  (if e.upper then 'E' else 'e') :: signChars e.sign ++ e.digits.map digitChar

end Exponent

namespace NumberText

/-- The digits after the point. -/
def fracDigits (t : NumberText) : List (Fin 10) := t.frac.getD []

/-- A text with a point or an exponent. -/
def isDecimal (t : NumberText) : Bool := t.frac.isSome || t.exp.isSome

def coefficient (t : NumberText) : Nat :=
  t.whole * 10 ^ t.fracDigits.length + ofDigits t.fracDigits

def power (t : NumberText) : Int := (t.exp.map Exponent.value).getD 0 - t.fracDigits.length

def fracChars : Option (List (Fin 10)) → List Char
  | none => []
  | some ds => '.' :: ds.map digitChar

def expChars : Option Exponent → List Char
  | none => []
  | some e => e.chars

/-- The characters of the text. -/
def chars (t : NumberText) : List Char :=
  (if t.neg then ['-'] else []) ++ (digits t.whole).map digitChar ++ fracChars t.frac
    ++ expChars t.exp

end NumberText

/-- The magnitude nearest to `m * 10 ^ p`. -/
def roundScaled (m : Nat) (p : Int) : Option Magnitude :=
  if 0 ≤ p then Magnitude.round (m * 10 ^ p.toNat) 1 else Magnitude.round m (10 ^ (-p).toNat)

namespace NumberText

/-- The binary64 number nearest to the text; zero keeps the sign. -/
def parseFloat (t : NumberText) : Option Binary64 :=
  (roundScaled t.coefficient t.power).map fun x => ⟨t.neg, x⟩

def integerValue (t : NumberText) : Int := if t.neg then -(t.whole : Int) else t.whole

/-- The value of the text. -/
def value (t : NumberText) : Option Number :=
  if t.isDecimal then t.parseFloat.map .float else some (.integer t.integerValue)

/-- The text of an integer. -/
def ofInt (n : Int) : NumberText := ⟨decide (n < 0), n.natAbs, none, none, by simp⟩

/-- The number `m / 10 ^ s` with `s` digits after the point. -/
def pointed (neg : Bool) (m s : Nat) : NumberText where
  neg := neg
  whole := m / 10 ^ s
  frac := if s = 0 then none else some (digitsPad s m)
  exp := none
  frac_ne := by
    intro h
    split at h
    · cases h
    · have hlen := congrArg List.length (Option.some.inj h)
      rw [length_digitsPad] at hlen
      contradiction

/-- The number `m * 10 ^ p` without an exponent. -/
def plain (neg : Bool) (m : Nat) (p : Int) : NumberText :=
  if p < 0 then pointed neg m (-p).toNat else pointed neg (m * 10 ^ p.toNat) 0

theorem integerValue_ofInt (n : Int) : (ofInt n).integerValue = n := by
  unfold integerValue ofInt
  dsimp only
  split
  · next h =>
    have hlt : n < 0 := of_decide_eq_true h
    omega
  · next h =>
    have hge : ¬n < 0 := fun hlt => h (decide_eq_true hlt)
    omega

theorem value_ofInt (n : Int) : (ofInt n).value = some (.integer n) := by
  have hdecimal : (ofInt n).isDecimal = false := rfl
  rw [value, hdecimal, integerValue_ofInt]
  rfl

theorem coefficient_pointed (neg : Bool) (m s : Nat) : (pointed neg m s).coefficient = m := by
  unfold coefficient fracDigits
  by_cases hs : s = 0
  · subst hs
    simp [pointed, ofDigits]
  · have hfrac : (pointed neg m s).frac = some (digitsPad s m) := if_neg hs
    have hwhole : (pointed neg m s).whole = m / 10 ^ s := rfl
    rw [hfrac, hwhole, Option.getD_some, length_digitsPad, ofDigits_digitsPad, Nat.mul_comm]
    exact Nat.div_add_mod m (10 ^ s)

theorem power_pointed (neg : Bool) (m s : Nat) : (pointed neg m s).power = -(s : Int) := by
  unfold power fracDigits pointed
  by_cases hs : s = 0
  · subst hs
    rfl
  · simp [hs]

theorem isDecimal_pointed (neg : Bool) (m s : Nat) :
    (pointed neg m s).isDecimal = decide (s ≠ 0) := by
  unfold isDecimal pointed
  by_cases hs : s = 0 <;> simp [hs]

theorem parseFloat_pointed (neg : Bool) (m s : Nat) :
    (pointed neg m s).parseFloat = (roundScaled m (-(s : Int))).map fun x => ⟨neg, x⟩ := by
  rw [parseFloat, coefficient_pointed, power_pointed]
  rfl

variable {t : NumberText}

theorem pointed_self (hexp : t.exp = none) :
    pointed t.neg t.coefficient t.fracDigits.length = t := by
  obtain ⟨neg, whole, frac, exp, hfrac⟩ := t
  obtain rfl : exp = none := hexp
  cases frac with
  | none => simp [pointed, coefficient, fracDigits, ofDigits]
  | some ds =>
    have hlen : ds.length ≠ 0 := fun h => hfrac (congrArg some (List.length_eq_zero_iff.mp h))
    have hlt := ofDigits_lt ds
    have hdiv : (whole * 10 ^ ds.length + ofDigits ds) / 10 ^ ds.length = whole := by
      rw [Nat.mul_comm, Nat.mul_add_div (Nat.pow_pos (by decide)), Nat.div_eq_of_lt hlt,
        Nat.add_zero]
    have hpad : digitsPad ds.length (whole * 10 ^ ds.length + ofDigits ds) = ds := by
      rw [digitsPad_add_mul, digitsPad_ofDigits]
    simp only [pointed, coefficient, fracDigits, Option.getD_some, hdiv, hpad, if_neg hlen]

theorem parseFloat_of_coefficient_eq_zero (h : t.coefficient = 0) :
    t.parseFloat = some ⟨t.neg, .zero⟩ := by
  have hround : ∀ p, roundScaled 0 p = some .zero := by
    intro p
    unfold roundScaled
    split
    · rw [Nat.zero_mul, Magnitude.round_zero Nat.one_pos]
    · rw [Magnitude.round_zero (Nat.pow_pos (by decide))]
  rw [parseFloat, h, hround]
  rfl

theorem not_isDecimal (h : ¬t.isDecimal = true) : t.frac = none ∧ t.exp = none := by
  simpa [isDecimal] using h

theorem coefficient_of_frac (h : t.frac = none) : t.coefficient = t.whole := by
  rw [coefficient, fracDigits, h]
  show t.whole * 1 + 0 = t.whole
  omega

theorem parseFloat_plain (neg : Bool) (m : Nat) (p : Int) :
    (plain neg m p).parseFloat = (roundScaled m p).map fun x => ⟨neg, x⟩ := by
  unfold plain
  split
  · next hneg =>
    have hexp : -(((-p).toNat : Nat) : Int) = p := by omega
    rw [parseFloat_pointed, hexp]
  · next hpos =>
    have hscaled : roundScaled (m * 10 ^ p.toNat) (-((0 : Nat) : Int)) = roundScaled m p := by
      rw [roundScaled, roundScaled, if_pos (Int.not_lt.mp hpos), if_pos (by decide)]
      exact congrArg (fun n => Magnitude.round n 1) (Nat.mul_one _)
    rw [parseFloat_pointed, hscaled]

theorem plain_self (hexp : t.exp = none) :
    plain t.neg t.coefficient t.power = t := by
  have hpower : t.power = -(t.fracDigits.length : Int) := by
    rw [power, hexp]
    exact Int.zero_sub _
  have hself := pointed_self hexp
  unfold plain
  rw [hpower]
  split
  · rw [Int.neg_neg, Int.toNat_natCast]
    exact hself
  · have hlen : t.fracDigits.length = 0 := by omega
    rw [hlen] at hself ⊢
    exact (congrArg (pointed t.neg · 0) (Nat.mul_one _)).trans hself

theorem isDecimal_plain {neg : Bool} {m : Nat} {p : Int} (hp : p < 0) :
    (plain neg m p).isDecimal = true := by
  rw [plain, if_pos hp, isDecimal_pointed, decide_eq_true_eq]
  omega

/-! ### The end of a number text -/

/-- The text does not go on with a character of a number. -/
def NoNumeral : List Char → Prop
  | [] => True
  | c :: _ => c.isDigit = false ∧ c ≠ '.' ∧ c ≠ 'e' ∧ c ≠ 'E'

variable {r : List Char}

theorem noNumeral_of_stops (h : Json.Stops r) : NoNumeral r := by
  cases r with
  | nil => trivial
  | cons => rcases h with rfl | rfl | rfl <;> exact ⟨by decide, by decide, by decide, by decide⟩

theorem noDigit_of_noNumeral (h : NoNumeral r) : NoDigit r := by
  cases r with
  | nil => trivial
  | cons => exact h.1

theorem noDigit_expChars (e : Option Exponent) (hr : NoNumeral r) :
    NoDigit (expChars e ++ r) := by
  cases e with
  | none => exact noDigit_of_noNumeral hr
  | some e =>
    obtain ⟨upper, sign, ds, hds⟩ := e
    cases upper <;> exact rfl

theorem noDigit_fracChars (f : Option (List (Fin 10))) (e : Option Exponent)
    (hr : NoNumeral r) : NoDigit (fracChars f ++ (expChars e ++ r)) := by
  cases f with
  | none => exact noDigit_expChars e hr
  | some => exact rfl

theorem exists_digit_cons {ds : List (Fin 10)} (hds : ds ≠ []) (r : List Char) :
    ∃ c cs, ds.map digitChar ++ r = c :: cs ∧ c.isDigit = true := by
  cases ds with
  | nil => exact absurd rfl hds
  | cons d => exact ⟨digitChar d, _, rfl, isDigit_digitChar d⟩

variable {r' : List Char}

theorem signChars_append_inj {s s' : Option Bool} {ds ds' : List (Fin 10)} (hds : ds ≠ [])
    (hds' : ds' ≠ [])
    (h : Exponent.signChars s ++ (ds.map digitChar ++ r)
      = Exponent.signChars s' ++ (ds'.map digitChar ++ r')) :
    s = s' ∧ ds.map digitChar ++ r = ds'.map digitChar ++ r' := by
  obtain ⟨c, cs, hc, hdigit⟩ := exists_digit_cons hds r
  obtain ⟨c', cs', hc', hdigit'⟩ := exists_digit_cons hds' r'
  rw [hc, hc'] at h ⊢
  have hne : ∀ {x : Char}, x.isDigit = true → x ≠ '-' ∧ x ≠ '+' := by
    intro x hx
    constructor <;> (rintro rfl; revert hx; decide)
  obtain ⟨hm, hp⟩ := hne hdigit
  obtain ⟨hm', hp'⟩ := hne hdigit'
  rcases s with _ | _ | _ <;> rcases s' with _ | _ | _ <;> grind [Exponent.signChars]

theorem expChars_append_inj {e e' : Option Exponent} (hr : NoNumeral r)
    (hr' : NoNumeral r') (h : expChars e ++ r = expChars e' ++ r') : e = e' ∧ r = r' := by
  -- What follows a number starts no exponent.
  have hlead : ∀ {e : Exponent} {r r' : List Char}, NoNumeral r → r ≠ e.chars ++ r' := by
    rintro ⟨upper, sign, ds, hds⟩ r r' hr rfl
    cases upper
    · exact hr.2.2.1 rfl
    · exact hr.2.2.2 rfl
  cases e with
  | none =>
    cases e' with
    | none => exact ⟨rfl, h⟩
    | some => exact absurd h (hlead hr)
  | some e =>
    cases e' with
    | none => exact absurd h.symm (hlead hr')
    | some e' =>
      obtain ⟨upper, sign, ds, hds⟩ := e
      obtain ⟨upper', sign', ds', hds'⟩ := e'
      simp only [expChars, Exponent.chars, List.cons_append, List.append_assoc,
        List.cons.injEq] at h
      have hupper : upper = upper' := by
        revert h
        cases upper <;> cases upper' <;> simp
      obtain ⟨rfl, hdigits⟩ := signChars_append_inj hds hds' h.2
      obtain ⟨rfl, hrest⟩ :=
        append_inj (noDigit_of_noNumeral hr) (noDigit_of_noNumeral hr') hdigits
      exact ⟨by rw [hupper], hrest⟩

theorem fracChars_append_inj {f f' : Option (List (Fin 10))} {e e' : Option Exponent}
    (hr : NoNumeral r) (hr' : NoNumeral r')
    (h : fracChars f ++ (expChars e ++ r) = fracChars f' ++ (expChars e' ++ r')) :
    f = f' ∧ expChars e ++ r = expChars e' ++ r' := by
  -- Neither an exponent nor what follows a number starts with a point.
  have hlead : ∀ {e : Option Exponent} {r r' : List Char}, NoNumeral r →
      expChars e ++ r ≠ '.' :: r' := by
    intro e r r' hr heq
    cases e with
    | none =>
      rw [expChars, List.nil_append] at heq
      rw [heq] at hr
      exact hr.2.1 rfl
    | some e =>
      obtain ⟨upper, sign, ds, hds⟩ := e
      have hpoint := (List.cons.inj heq).1
      cases upper <;> revert hpoint <;> simp
  cases f with
  | none =>
    cases f' with
    | none => exact ⟨rfl, h⟩
    | some => exact absurd h (hlead hr)
  | some =>
    cases f' with
    | none => exact absurd h.symm (hlead hr')
    | some =>
      obtain ⟨rfl, hrest⟩ :=
        append_inj (noDigit_expChars e hr) (noDigit_expChars e' hr') (List.cons.inj h).2
      exact ⟨rfl, hrest⟩

theorem chars_lead (t : NumberText) :
    ∃ c cs, t.chars = c :: cs ∧ (c = '-' ∨ c.isDigit = true) := by
  obtain ⟨neg, whole, frac, exp, hfrac⟩ := t
  cases neg with
  | true => exact ⟨'-', _, rfl, Or.inl rfl⟩
  | false =>
    obtain ⟨c, cs, hc, hdigit⟩ :=
      exists_digit_cons (digits_ne_nil whole) (fracChars frac ++ expChars exp)
    refine ⟨c, cs, ?_, Or.inr hdigit⟩
    rw [← hc]
    simp [chars]

theorem leadKind_chars (t : NumberText) : ∃ c cs, t.chars = c :: cs ∧ Json.leadKind c = 2 := by
  obtain ⟨c, cs, hc, hlead⟩ := chars_lead t
  exact ⟨c, cs, hc, Json.leadKind_number hlead⟩

theorem chars_append_inj {u : NumberText} (hr : NoNumeral r)
    (hr' : NoNumeral r') (h : t.chars ++ r = u.chars ++ r') : t = u ∧ r = r' := by
  obtain ⟨neg, whole, frac, exp, hfrac⟩ := t
  obtain ⟨neg', whole', frac', exp', hfrac'⟩ := u
  simp only [chars, List.append_assoc] at h
  obtain ⟨c, cs, hc, hdigit⟩ := exists_digit_cons (digits_ne_nil whole)
    (fracChars frac ++ (expChars exp ++ r))
  obtain ⟨c', cs', hc', hdigit'⟩ := exists_digit_cons (digits_ne_nil whole')
    (fracChars frac' ++ (expChars exp' ++ r'))
  -- The integer part starts with a digit, so a minus in front is the sign.
  have hsign : neg = neg' ∧ (digits whole).map digitChar ++ (fracChars frac ++ (expChars exp ++ r))
      = (digits whole').map digitChar ++ (fracChars frac' ++ (expChars exp' ++ r')) := by
    have hne : ∀ {x : Char}, x.isDigit = true → x ≠ '-' := by
      rintro x hx rfl
      revert hx
      decide
    rw [hc, hc'] at h ⊢
    have hm := hne hdigit
    have hm' := hne hdigit'
    cases neg <;> cases neg' <;> grind
  obtain ⟨rfl, hdigits⟩ := hsign
  obtain ⟨hwhole, hfracs⟩ :=
    append_inj (noDigit_fracChars frac exp hr) (noDigit_fracChars frac' exp' hr') hdigits
  obtain rfl := digits_injective hwhole
  obtain ⟨rfl, hexps⟩ := fracChars_append_inj hr hr' hfracs
  obtain ⟨rfl, hrest⟩ := expChars_append_inj hr hr' hexps
  exact ⟨rfl, hrest⟩

end NumberText

end SocialActivities.Lib
