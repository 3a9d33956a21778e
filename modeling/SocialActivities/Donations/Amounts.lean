import Mathlib.Algebra.Order.Floor.Semiring
import Mathlib.Algebra.Order.Archimedean.Basic
import Mathlib.Data.Nat.Digits.Lemmas
import Mathlib.Data.Rat.Floor
import SocialActivities.Feeds.Lines
import SocialActivities.Lib.Checked
import SocialActivities.Lib.NumberText

/-!
# `SocialActivities.Donations.Amounts`: the amount of a donation form (`internal/web/payments.go`)

`donationCents` reads the amount with integer arithmetic: the digits as one number, and how many of
them stand after the point once the exponent has moved it. `Written` is a decimal as it is written,
and `donationCents_eq_ok` says which of them are taken and that the result is a hundred times their
value. Every operation on an `int` is checked here, and no check fails (`avoids_overflow`).
-/

namespace SocialActivities.Donations

open Lib Lib.Digits
open Feeds (Text splitOn atoi)

/-! ### The source -/

/-- A Go string as it is decoded: its runes, and `none` for a byte that is part of none. -/
abbrev GoText := List (Option Char)

/-- `len`. -/
def byteLength (s : GoText) : Nat := (s.map fun r => r.elim 1 Char.utf8Size).sum

def isSpace (r : Option Char) : Bool := r.any Safety.Go.isSpace

def trimSpace (s : GoText) : GoText := ((s.dropWhile isSpace).reverse.dropWhile isSpace).reverse

/-- What ends a conversion without a result. -/
inductive Stop where
  | invalid
  | overflow
  deriving DecidableEq

/-- The result of an operation on `int` or `int64`. -/
def int64 (n : Int) : Except Stop Int :=
  if -2 ^ 63 ≤ n ∧ n < 2 ^ 63 then .ok n else .error .overflow

/-- `(?:[0-9]+(?:\.[0-9]*)?|\.[0-9]+)`. -/
def isMantissa (s : Text) : Bool :=
  let whole := s.takeWhile Char.isDigit
  match s.dropWhile Char.isDigit with
  | [] => !whole.isEmpty
  | c :: fraction =>
    c == '.' && fraction.all Char.isDigit && !(whole.isEmpty && fraction.isEmpty)

/-- `[+-]?`. -/
def dropSign : Text → Text
  | '+' :: s => s
  | '-' :: s => s
  | s => s

/-- `[+-]?[0-9]{1,3}`. -/
def isExponent (s : Text) : Bool :=
  (dropSign s).all Char.isDigit && decide (1 ≤ (dropSign s).length) && decide ((dropSign s).length ≤ 3)

/-- `\+?`. -/
def dropPlus : Text → Text
  | '+' :: s => s
  | s => s

def isDigitOrPoint (c : Char) : Bool := c.isDigit || c == '.'

/-- The groups of `donationDecimal` in a text that matches it. The second is empty if there is no
exponent. -/
def submatches (s : Text) : Option (Text × Text) :=
  let mantissa := (dropPlus s).takeWhile isDigitOrPoint
  if isMantissa mantissa then
    match (dropPlus s).dropWhile isDigitOrPoint with
    | [] => some (mantissa, [])
    | e :: exponent =>
      if (e == 'e' || e == 'E') && isExponent exponent then some (mantissa, exponent) else none
  else none

/-- `for i := scale; i < 2; i++ { cents *= 10 }`, of which `n` rounds are left. -/
def scaleUp : Nat → Int → Except Stop Int
  | 0, cents => .ok cents
  | n + 1, cents => do
    let cents ← int64 (cents * 10)
    scaleUp n cents

/-- `scale := 0; if len(parts) == 2 { scale = len(parts[1]) }`. -/
def placesAfterPoint : List Text → Int
  | [_, fraction] => fraction.length
  | _ => 0

/-- `if scale < 0 { total -= scale } else { total = max(total, scale) }`. -/
def totalOf (total scale : Int) : Except Stop Int :=
  if scale < 0 then int64 (total - scale) else .ok (max total scale)

/-- The part of `donationCents` after the match. -/
def centsOf (parts : List Text) (exponent : Int) : Except Stop Int := do
  let scale ← int64 (placesAfterPoint parts - exponent)
  need .invalid (scale ≤ 2)
  let digits := parts.flatten.dropWhile (· == '0')
  let digits := if digits.isEmpty then ['0'] else digits
  let total ← totalOf digits.length scale
  let left ← int64 (total - max 0 scale)
  need .invalid (total ≤ 8 && left ≤ 6)
  let cents ← (atoi digits).elim (.error .invalid) .ok
  let cents ← scaleUp (2 - scale).toNat cents
  need .invalid (100 ≤ cents && cents ≤ 99999999)
  .ok cents

def donationCents (raw : GoText) : Except Stop Int := do
  let raw := trimSpace raw
  need .invalid (byteLength raw ≤ 128)
  -- A byte that is part of no rune matches nothing in the pattern.
  let (mantissa, power) ← ((raw.mapM id).bind submatches).elim (.error .invalid) .ok
  let exponent := if power = [] then 0 else (atoi power).getD 0
  centsOf (splitOn '.' mantissa) exponent

/-! ### Decimals as they are written -/

/-- An unsigned or plus-signed decimal, with an exponent of at most three digits if there is one. -/
structure Written where
  plus : Bool
  whole : List (Fin 10)
  /-- The digits after the point, if there is one. -/
  frac : Option (List (Fin 10))
  exp : Option Exponent
  digits_ne : whole ++ frac.getD [] ≠ []
  exp_short : ∀ e ∈ exp, e.digits.length ≤ 3

namespace Written

variable (w : Written)

/-- The digits of the mantissa. -/
def digits : List (Fin 10) := w.whole ++ w.frac.getD []

def mantissa : Text := w.whole.map digitChar ++ NumberText.fracChars w.frac

def text : Text := (if w.plus then ['+'] else []) ++ (w.mantissa ++ NumberText.expChars w.exp)

/-- The exponent without its mark. -/
def power : Text := w.exp.elim [] fun e => Exponent.signChars e.sign ++ e.digits.map digitChar

def exponent : Int := (w.exp.map Exponent.value).getD 0

/-- The number of decimal places as written, after the exponent has moved the point. It is negative
if zeros stand between the last digit and the point. -/
def places : Int := (w.frac.getD []).length - w.exponent

/-- The digits as one number. -/
def number : Nat := ofDigits w.digits

def value : ℚ := w.number * (10 : ℚ) ^ (-w.places)

/-- The number of digits before the point. -/
def integerDigits : Nat := (Nat.digits 10 ⌊w.value⌋₊).length

/-- The amounts that are taken. -/
structure Accepted : Prop where
  places : w.places ≤ 2
  integerDigits : w.integerDigits ≤ 6
  least : 1 ≤ w.value
  most : w.value ≤ 999999.99

end Written

/-! ### Texts of digits -/

theorem exists_digits {s : Text} (h : s.all Char.isDigit = true) :
    ∃ ds : List (Fin 10), s = ds.map digitChar := by
  induction s with
  | nil => exact ⟨[], rfl⟩
  | cons c s ih =>
    rw [List.all_cons, Bool.and_eq_true] at h
    obtain ⟨ds, hds⟩ := ih h.2
    have hc : 48 ≤ c.toNat ∧ c.toNat ≤ 57 := by
      simpa [Char.isDigit, UInt32.le_iff_toNat_le] using h.1
    refine ⟨⟨c.toNat - 48, by omega⟩ :: ds, ?_⟩
    have hchar : digitChar ⟨c.toNat - 48, by omega⟩ = c := by
      show Char.ofNat (48 + (c.toNat - 48)) = c
      rw [Nat.add_sub_cancel' hc.1, Char.ofNat_toNat]
    rw [List.map_cons, hchar, ← hds]

theorem decimal_map (ds : List (Fin 10)) : Feeds.decimal (ds.map digitChar) = ofDigits ds := by
  have hdigit : ∀ d, (digitChar d).toNat - '0'.toNat = d.val := by decide
  rw [Feeds.decimal, ofDigits, List.foldl_map]
  congr 1
  funext n d
  rw [hdigit, Nat.mul_comm]

theorem not_sign (d : Fin 10) : digitChar d ≠ '+' ∧ digitChar d ≠ '-' := by
  revert d
  decide

theorem signOf_digits (ds : List (Fin 10)) : Feeds.signOf (ds.map digitChar) = (false, ds.map digitChar) := by
  cases ds with
  | nil => rfl
  | cons d ds =>
    have hd := not_sign d
    unfold Feeds.signOf
    grind

theorem atoi_digits {ds : List (Fin 10)} (hne : ds ≠ []) (h : ofDigits ds < 2 ^ 63) :
    atoi (ds.map digitChar) = some (ofDigits ds : Int) := by
  rw [atoi, signOf_digits]
  simpa [decimal_map, hne, isDigit_digitChar] using h

theorem takeWhile_digits (ds : List (Fin 10)) {s : Text} (hs : NoDigit s) :
    (ds.map digitChar ++ s).takeWhile Char.isDigit = ds.map digitChar := by
  rw [List.takeWhile_append_of_pos (by simp [isDigit_digitChar])]
  cases s with
  | nil => simp
  | cons c => simp [show c.isDigit = false from hs]

theorem dropWhile_digits (ds : List (Fin 10)) {s : Text} (hs : NoDigit s) :
    (ds.map digitChar ++ s).dropWhile Char.isDigit = s := by
  rw [List.dropWhile_append_of_pos (by simp [isDigit_digitChar])]
  cases s with
  | nil => rfl
  | cons c => simp [show c.isDigit = false from hs]

/-! ### What the pattern matches -/

theorem isMantissa_iff {s : Text} : isMantissa s = true ↔
    ∃ (whole : List (Fin 10)) (frac : Option (List (Fin 10))), whole ++ frac.getD [] ≠ [] ∧
      s = whole.map digitChar ++ NumberText.fracChars frac := by
  constructor
  · intro h
    obtain ⟨whole, hwhole⟩ := exists_digits (s := s.takeWhile Char.isDigit) (by simp)
    have hs : s = whole.map digitChar ++ s.dropWhile Char.isDigit := by
      rw [← hwhole, List.takeWhile_append_dropWhile]
    simp only [isMantissa, hwhole] at h
    cases hrest : s.dropWhile Char.isDigit with
    | nil =>
      rw [hrest] at hs h
      exact ⟨whole, none, by simpa using h, hs⟩
    | cons c fraction =>
      rw [hrest] at hs h
      simp only [Bool.and_eq_true, beq_iff_eq] at h
      obtain ⟨⟨rfl, hall⟩, hne⟩ := h
      obtain ⟨ds, rfl⟩ := exists_digits hall
      refine ⟨whole, some ds, ?_, hs⟩
      intro hnil
      simp_all
  · rintro ⟨whole, frac, hne, rfl⟩
    have hstop : NoDigit (NumberText.fracChars frac) := by
      cases frac <;> trivial
    rw [isMantissa, takeWhile_digits whole hstop, dropWhile_digits whole hstop]
    cases frac with
    | none => simpa [NumberText.fracChars] using hne
    | some ds =>
      have hdigits : ¬whole = [] ∨ ¬ds = [] := by simpa [not_and_or, -not_and] using hne
      simpa [NumberText.fracChars, isDigit_digitChar] using hdigits

theorem dropSign_digits (sign : Option Bool) (ds : List (Fin 10)) :
    dropSign (Exponent.signChars sign ++ ds.map digitChar) = ds.map digitChar := by
  rcases sign with _ | _ | _
  · cases ds with
    | nil => rfl
    | cons d ds =>
      have hd := not_sign d
      simp only [Exponent.signChars, List.nil_append, List.map_cons]
      unfold dropSign
      grind
  · rfl
  · rfl

theorem isExponent_iff {s : Text} : isExponent s = true ↔
    ∃ (sign : Option Bool) (ds : List (Fin 10)), ds ≠ [] ∧ ds.length ≤ 3 ∧
      s = Exponent.signChars sign ++ ds.map digitChar := by
  constructor
  · intro h
    simp only [isExponent, Bool.and_eq_true, decide_eq_true_eq] at h
    obtain ⟨⟨hall, hone⟩, hthree⟩ := h
    obtain ⟨ds, hds⟩ := exists_digits hall
    rw [hds, List.length_map] at hone hthree
    have hsign : ∃ sign, s = Exponent.signChars sign ++ dropSign s := by
      unfold dropSign
      split
      · exact ⟨some false, rfl⟩
      · exact ⟨some true, rfl⟩
      · exact ⟨none, rfl⟩
    obtain ⟨sign, hs⟩ := hsign
    exact ⟨sign, ds, List.ne_nil_of_length_pos hone, hthree, hds ▸ hs⟩
  · rintro ⟨sign, ds, hne, hthree, rfl⟩
    have hone : 1 ≤ ds.length := List.length_pos_of_ne_nil hne
    simp [isExponent, dropSign_digits, isDigit_digitChar, hone, hthree]

theorem mantissa_digitOrPoint (w : Written) : ∀ c ∈ w.mantissa, isDigitOrPoint c = true := by
  intro c hc
  rw [Written.mantissa, List.mem_append] at hc
  have hdigit : ∀ ds : List (Fin 10), c ∈ ds.map digitChar → isDigitOrPoint c = true := by
    intro ds hmem
    obtain ⟨d, -, rfl⟩ := List.mem_map.mp hmem
    simp [isDigitOrPoint, isDigit_digitChar]
  rcases hc with hc | hc
  · exact hdigit w.whole hc
  · cases hfrac : w.frac with
    | none => simp [hfrac, NumberText.fracChars] at hc
    | some ds =>
      rw [hfrac, NumberText.fracChars, List.mem_cons] at hc
      rcases hc with rfl | hc
      · rfl
      · exact hdigit ds hc

theorem span_mantissa (w : Written) {s : Text} (hs : ∀ c ∈ s.head?, isDigitOrPoint c = false) :
    (w.mantissa ++ s).takeWhile isDigitOrPoint = w.mantissa ∧
      (w.mantissa ++ s).dropWhile isDigitOrPoint = s := by
  have hall := mantissa_digitOrPoint w
  rw [List.takeWhile_append_of_pos hall, List.dropWhile_append_of_pos hall]
  cases s with
  | nil => simp
  | cons c =>
    have hc : isDigitOrPoint c = false := hs c rfl
    simp [hc]

theorem head_expChars {e : Option Exponent} : ∀ c ∈ (NumberText.expChars e).head?, isDigitOrPoint c = false := by
  rcases e with _ | ⟨upper, sign, ds, hne⟩
  · simp [NumberText.expChars]
  · cases upper <;> simp [NumberText.expChars, Exponent.chars, isDigitOrPoint]

theorem dropPlus_text (w : Written) : dropPlus w.text = w.mantissa ++ NumberText.expChars w.exp := by
  rw [Written.text]
  cases w.plus with
  | true => rfl
  | false =>
    have hhead : ∀ c ∈ (w.mantissa ++ NumberText.expChars w.exp).head?, c ≠ '+' := by
      rintro c hc rfl
      cases hm : w.mantissa with
      | nil =>
        have hne := w.digits_ne
        cases hwhole : w.whole <;> cases hfrac : w.frac <;>
          simp_all [Written.mantissa, NumberText.fracChars]
      | cons d =>
        have hd := mantissa_digitOrPoint w d (by simp [hm])
        rw [hm, List.cons_append, List.head?_cons, Option.mem_some_iff] at hc
        subst hc
        exact absurd hd (by decide)
    simp only [Bool.false_eq_true, if_false, List.nil_append]
    unfold dropPlus
    split
    · rename_i s heq
      exact absurd rfl (hhead '+' (by rw [heq]; rfl))
    · rfl

theorem submatches_eq_some {s m p : Text} : submatches s = some (m, p) ↔
    ∃ w : Written, s = w.text ∧ m = w.mantissa ∧ p = w.power := by
  constructor
  · intro h
    have hplus : ∃ plus : Bool, s = (if plus then ['+'] else []) ++ dropPlus s := by
      unfold dropPlus
      split
      · exact ⟨true, rfl⟩
      · exact ⟨false, rfl⟩
    obtain ⟨plus, hs⟩ := hplus
    have hspan := List.takeWhile_append_dropWhile (p := isDigitOrPoint) (l := dropPlus s)
    simp only [submatches] at h
    split at h
    · rename_i hmantissa
      obtain ⟨whole, frac, hne, hmant⟩ := isMantissa_iff.mp hmantissa
      cases hrest : (dropPlus s).dropWhile isDigitOrPoint with
      | nil =>
        rw [hrest] at h hspan
        obtain ⟨rfl, rfl⟩ := Prod.mk.inj (Option.some.inj h)
        refine ⟨⟨plus, whole, frac, none, hne, by simp⟩, ?_, hmant, rfl⟩
        rw [hs, ← hspan, hmant]
        rfl
      | cons e =>
        rw [hrest] at h hspan
        simp only [Option.ite_none_right_eq_some, Bool.and_eq_true, Bool.or_eq_true, beq_iff_eq] at h
        obtain ⟨⟨hmark, hexp⟩, h⟩ := h
        obtain ⟨rfl, rfl⟩ := Prod.mk.inj (Option.some.inj h)
        obtain ⟨sign, ds, hds, hthree, hexponent⟩ := isExponent_iff.mp hexp
        refine ⟨⟨plus, whole, frac, some ⟨decide (e = 'E'), sign, ds, hds⟩, hne, ?_⟩, ?_, hmant, hexponent⟩
        · rintro _ ⟨⟩
          exact hthree
        · rw [hs, ← hspan, hmant, hexponent]
          rcases hmark with rfl | rfl <;> rfl
    · cases h
  · rintro ⟨w, rfl, rfl, rfl⟩
    have hspan := span_mantissa w (head_expChars (e := w.exp))
    have hmantissa : isMantissa w.mantissa = true := isMantissa_iff.mpr ⟨w.whole, w.frac, w.digits_ne, rfl⟩
    rw [submatches, dropPlus_text]
    simp only [hspan.1, hspan.2, hmantissa, if_true]
    cases hexp : w.exp with
    | none => simp [NumberText.expChars, Written.power, hexp]
    | some e =>
      have hshort := w.exp_short e (by simp [hexp])
      have hexponent := isExponent_iff.mpr ⟨e.sign, e.digits, e.digits_ne, hshort, rfl⟩
      cases hupper : e.upper <;>
        simp [NumberText.expChars, Exponent.chars, Written.power, hexp, hexponent, hupper]

/-! ### The number of the digits -/

theorem dropWhile_zero (ds : List (Fin 10)) :
    (ds.map digitChar).dropWhile (· == '0') = (ds.dropWhile (· == 0)).map digitChar := by
  have hzero : ∀ d, (digitChar d == '0') = (d == 0) := by decide
  rw [List.dropWhile_map]
  congr 2
  funext d
  exact hzero d

theorem ofDigits_dropWhile (ds : List (Fin 10)) : ofDigits (ds.dropWhile (· == 0)) = ofDigits ds := by
  induction ds with
  | nil => rfl
  | cons d ds ih =>
    rw [List.dropWhile_cons]
    split
    · rename_i hd
      rw [ih, beq_iff_eq.mp hd]
      rfl
    · rfl

theorem ofDigits_cons (d : Fin 10) (ds : List (Fin 10)) :
    ofDigits (d :: ds) = d.val * 10 ^ ds.length + ofDigits ds := by
  induction ds using List.reverseRecOn with
  | nil => simp [ofDigits]
  | append_singleton ds e ih =>
    rw [← List.cons_append, ofDigits_concat, ofDigits_concat, ih, List.length_append,
      List.length_singleton, Nat.pow_succ]
    ring

theorem length_eq_width {ds : List (Fin 10)} (hne : ds ≠ []) (hhead : ∀ d ∈ ds.head?, d ≠ 0) :
    ds.length = width (ofDigits ds) := by
  have hupper := ofDigits_lt ds
  have hlower : 10 ^ (ds.length - 1) ≤ ofDigits ds := by
    cases ds with
    | nil => exact absurd rfl hne
    | cons d =>
      have hd : 1 ≤ d.val := Nat.one_le_iff_ne_zero.mpr fun h => hhead d rfl (Fin.ext h)
      rw [ofDigits_cons, List.length_cons, Nat.add_sub_cancel]
      exact Nat.le_add_right_of_le (Nat.le_mul_of_pos_left _ hd)
  have hpos : 0 < ds.length := List.length_pos_of_ne_nil hne
  have hlog : Nat.log 10 (ofDigits ds) = ds.length - 1 :=
    (Nat.log_eq_iff (Or.inr ⟨by decide, by have := Nat.pow_pos (n := ds.length - 1) (show 0 < 10 by decide); omega⟩)).mpr
      ⟨hlower, by rwa [Nat.sub_add_cancel hpos]⟩
  rw [width, hlog, Nat.sub_add_cancel hpos]

theorem significant (ds : List (Fin 10)) :
    ∃ es : List (Fin 10), es ≠ [] ∧ es.length = width (ofDigits ds) ∧ ofDigits es = ofDigits ds ∧
      (let s := (ds.map digitChar).dropWhile (· == '0')
        if s.isEmpty then ['0'] else s) = es.map digitChar := by
  have hnumber := ofDigits_dropWhile ds
  rw [dropWhile_zero]
  cases hes : ds.dropWhile (· == 0) with
  | nil =>
    rw [hes] at hnumber
    refine ⟨[0], by simp, ?_, hnumber, rfl⟩
    rw [← hnumber]
    rfl
  | cons e es =>
    rw [hes] at hnumber
    have hhead : ∀ d ∈ (e :: es).head?, d ≠ 0 := by
      rintro d hd
      have hfirst := List.head?_dropWhile_not (· == 0) ds
      rw [hes] at hfirst
      cases hd
      simpa using hfirst
    refine ⟨e :: es, by simp, ?_, hnumber, rfl⟩
    rw [length_eq_width (by simp) hhead, hnumber]

/-! ### The arithmetic -/

theorem int64_eq {n : Int} (hlow : -2 ^ 63 ≤ n) (hhigh : n < 2 ^ 63) : int64 n = .ok n :=
  if_pos ⟨hlow, hhigh⟩

theorem scaleUp_eq {n : Nat} {cents : Int} (hpos : 0 ≤ cents) (h : cents * 10 ^ n < 2 ^ 63) :
    scaleUp n cents = .ok (cents * 10 ^ n) := by
  induction n generalizing cents with
  | zero => simp [scaleUp]
  | succ n ih =>
    have hstep : cents * 10 * 10 ^ n = cents * 10 ^ (n + 1) := by ring
    have hle : cents * 10 ≤ cents * 10 * 10 ^ n :=
      le_mul_of_one_le_right (by omega) (one_le_pow₀ (by decide))
    rw [scaleUp, int64_eq (by omega) (by omega), ok_bind, ih (by omega) (by omega), hstep]

theorem not_mem_digits {c : Char} (hc : c.isDigit = false) (ds : List (Fin 10)) : c ∉ ds.map digitChar := by
  intro hmem
  obtain ⟨d, -, rfl⟩ := List.mem_map.mp hmem
  rw [isDigit_digitChar] at hc
  cases hc

theorem splitOn_mantissa (w : Written) :
    (splitOn '.' w.mantissa).flatten = w.digits.map digitChar ∧
      placesAfterPoint (splitOn '.' w.mantissa) = (w.frac.getD []).length := by
  have hpoint := not_mem_digits (show '.'.isDigit = false by decide)
  rw [Written.mantissa, Written.digits]
  cases w.frac with
  | none =>
    rw [NumberText.fracChars, List.append_nil, Feeds.splitOn_of_not_mem (hpoint _)]
    simp [placesAfterPoint]
  | some =>
    rw [NumberText.fracChars, Feeds.splitOn_append (hpoint _), Feeds.splitOn_of_not_mem (hpoint _)]
    simp [placesAfterPoint]

theorem power_value (w : Written) :
    (if w.power = [] then 0 else (atoi w.power).getD 0) = w.exponent := by
  rw [Written.power, Written.exponent]
  cases hexp : w.exp with
  | none => rfl
  | some e =>
    have hshort := w.exp_short e (by simp [hexp])
    obtain ⟨upper, sign, ds, hne⟩ := e
    have hsmall : ofDigits ds < 2 ^ 63 := by
      have hlt := ofDigits_lt ds
      have hle : 10 ^ ds.length ≤ 10 ^ 3 := Nat.pow_le_pow_right (by decide) hshort
      omega
    rcases sign with _ | _ | _
    · simp [Exponent.signChars, Exponent.value, hne, atoi_digits hne hsmall]
    · simp [Exponent.signChars, atoi, Feeds.signOf, isDigit_digitChar, decimal_map, hne,
        show ofDigits ds < 9223372036854775808 by omega]
      rfl
    · simp [Exponent.signChars, atoi, Feeds.signOf, isDigit_digitChar, decimal_map, hne]
      rw [if_pos ⟨by omega, by omega⟩]
      rfl

theorem abs_exponent_lt (w : Written) : -1000 < w.exponent ∧ w.exponent < 1000 := by
  rw [Written.exponent]
  cases hexp : w.exp with
  | none => simp
  | some e =>
    have hshort := w.exp_short e (by simp [hexp])
    have hlt := ofDigits_lt e.digits
    have hle : 10 ^ e.digits.length ≤ 10 ^ 3 := Nat.pow_le_pow_right (by decide) hshort
    simp only [Option.map_some, Option.getD_some, Exponent.value]
    split <;> omega

theorem width_le {n k : Nat} (h : n < 10 ^ k) : width n ≤ k + 1 := by
  rcases Nat.eq_zero_or_pos n with rfl | hpos
  · simp [width]
  · have hlog := Nat.log_lt_of_lt_pow (by omega) h
    rw [width]
    omega

variable {w : Written}

/-- What the arithmetic comes to. -/
theorem centsOf_eq (h : w.digits.length ≤ 128) :
    centsOf (splitOn '.' w.mantissa) w.exponent =
      if w.places ≤ 2 ∧ (width w.number : Int) - w.places ≤ 6 then
        need .invalid (decide (100 ≤ (w.number : Int) * 10 ^ (2 - w.places).toNat) &&
          decide ((w.number : Int) * 10 ^ (2 - w.places).toNat ≤ 99999999)) >>= fun _ =>
          .ok ((w.number : Int) * 10 ^ (2 - w.places).toNat)
      else .error .invalid := by
  obtain ⟨hflat, hplaces⟩ := splitOn_mantissa w
  obtain ⟨es, hne, hlen, hnum, hes⟩ := significant w.digits
  have hexponent := abs_exponent_lt w
  have hfrac : (w.frac.getD []).length ≤ w.digits.length := by
    rw [Written.digits, List.length_append]
    omega
  have hscale : ((w.frac.getD []).length : Int) - w.exponent = w.places := rfl
  have hwidth : width w.number ≤ 129 := by
    have hbound := width_le (ofDigits_lt w.digits)
    rw [Written.number]
    omega
  have hpos : 1 ≤ width w.number := by simp [width]
  rw [centsOf, hplaces, hscale, int64_eq (by omega) (by omega), ok_bind]
  simp only [hflat]
  simp only at hes
  simp only [hes, List.length_map, hlen]
  by_cases htwo : w.places ≤ 2
  · rw [decide_eq_true htwo, need_true, ok_bind]
    -- The digits and the zeros that the exponent puts after them.
    have htotal : totalOf (width w.number) w.places =
        .ok (max (width w.number : Int) (max (width w.number - w.places) w.places)) := by
      rw [totalOf]
      split
      · rw [int64_eq (by omega) (by omega)]
        congr 1
        omega
      · congr 1
        omega
    rw [show width (ofDigits w.digits) = width w.number from rfl, htotal, ok_bind,
      int64_eq (by omega) (by omega), ok_bind]
    by_cases hsix : (width w.number : Int) - w.places ≤ 6
    · rw [if_pos ⟨htwo, hsix⟩, decide_eq_true (by omega), decide_eq_true (by omega), Bool.and_self,
        need_true, ok_bind]
      -- With so few digits nothing overflows.
      have hnumber : w.number < 10 ^ width w.number := lt_pow_width w.number
      have hproduct : w.number * 10 ^ (2 - w.places).toNat < 10 ^ 8 := by
        calc w.number * 10 ^ (2 - w.places).toNat
            < 10 ^ width w.number * 10 ^ (2 - w.places).toNat :=
              Nat.mul_lt_mul_of_pos_right hnumber (Nat.pow_pos (by decide))
          _ = 10 ^ (width w.number + (2 - w.places).toNat) := (Nat.pow_add ..).symm
          _ ≤ 10 ^ 8 := Nat.pow_le_pow_right (by decide) (by omega)
      have hle : w.number ≤ w.number * 10 ^ (2 - w.places).toNat :=
        Nat.le_mul_of_pos_right _ (Nat.pow_pos (by decide))
      have hdigits : ofDigits es < 2 ^ 63 := by
        rw [hnum]
        show w.number < 2 ^ 63
        omega
      rw [atoi_digits hne hdigits, hnum]
      have hcast : (w.number : Int) * 10 ^ (2 - w.places).toNat < 2 ^ 63 := by
        have hcast : ((w.number * 10 ^ (2 - w.places).toNat : Nat) : Int) < 2 ^ 63 := by omega
        simpa using hcast
      show (scaleUp _ (w.number : Int) >>= _) = _
      rw [scaleUp_eq (by omega) hcast]
      rfl
    · rw [if_neg fun hboth => hsix hboth.2]
      have hfalse : (decide (max (width w.number : Int) (max (width w.number - w.places) w.places) ≤ 8) &&
          decide (max (width w.number : Int) (max (width w.number - w.places) w.places) - max 0 w.places ≤ 6)) =
            false := by
        simp only [Bool.and_eq_false_iff, decide_eq_false_iff_not]
        omega
      rw [hfalse]
      rfl
  · rw [decide_eq_false htwo, if_neg fun hboth => htwo hboth.1]
    rfl

/-! ### The amount -/

theorem hundred_value (h : w.places ≤ 2) :
    100 * w.value = ((w.number * 10 ^ (2 - w.places).toNat : Nat) : ℚ) := by
  have hpower : (10 : ℚ) ^ (2 - w.places).toNat = 10 ^ (2 : ℤ) * 10 ^ (-w.places) := by
    rw [← zpow_natCast, Int.toNat_of_nonneg (by omega), ← zpow_add₀ (by norm_num)]
    congr 1
  rw [Written.value, Nat.cast_mul, Nat.cast_pow, Nat.cast_ofNat, hpower]
  ring

theorem integerDigits_le (h : w.value ≤ 999999.99) : w.integerDigits ≤ 6 := by
  have hfloor : ⌊w.value⌋₊ < 10 ^ 6 := by
    rw [Nat.floor_lt' (by decide)]
    norm_num at h ⊢
    linarith
  rw [Written.integerDigits]
  exact Nat.digits_length_le_iff (by decide) _ |>.mpr hfloor

theorem width_le_of_lt (htwo : w.places ≤ 2) (hpos : 0 < w.number)
    (h : w.number * 10 ^ (2 - w.places).toNat < 10 ^ 8) : (width w.number : Int) - w.places ≤ 6 := by
  have hlow : 10 ^ (width w.number - 1) ≤ w.number := Nat.pow_log_le_self 10 (by omega)
  have hpower : 10 ^ (width w.number - 1 + (2 - w.places).toNat) < 10 ^ 8 := by
    calc 10 ^ (width w.number - 1 + (2 - w.places).toNat)
        = 10 ^ (width w.number - 1) * 10 ^ (2 - w.places).toNat := Nat.pow_add ..
      _ ≤ w.number * 10 ^ (2 - w.places).toNat := Nat.mul_le_mul_right _ hlow
      _ < 10 ^ 8 := h
  have hexponent := (Nat.pow_lt_pow_iff_right (by decide)).mp hpower
  omega

theorem centsOf_eq_ok (h : w.digits.length ≤ 128) {cents : Int} :
    centsOf (splitOn '.' w.mantissa) w.exponent = .ok cents ↔
      w.Accepted ∧ (cents : ℚ) = 100 * w.value := by
  have hcast : (w.number : Int) * 10 ^ (2 - w.places).toNat =
      ((w.number * 10 ^ (2 - w.places).toNat : Nat) : Int) := by push_cast; rfl
  rw [centsOf_eq h, hcast]
  constructor
  · intro hok
    split at hok
    · rename_i hfits
      rw [seq_eq_ok, need_eq_ok, Bool.and_eq_true, decide_eq_true_eq, decide_eq_true_eq] at hok
      obtain ⟨⟨hleast, hmost⟩, hcents⟩ := hok
      have hvalue := hundred_value hfits.1
      have hleast : (100 : ℚ) ≤ 100 * w.value := by rw [hvalue]; exact_mod_cast hleast
      have hmost : 100 * w.value ≤ 99999999 := by rw [hvalue]; exact_mod_cast hmost
      have hmost : w.value ≤ 999999.99 := by norm_num; linarith
      refine ⟨⟨hfits.1, integerDigits_le hmost, by linarith, hmost⟩, ?_⟩
      rw [hvalue, ← Except.ok.inj hcents]
      simp
    · cases hok
  · rintro ⟨⟨htwo, -, hleast, hmost⟩, hcents⟩
    have hvalue := hundred_value htwo
    rw [hvalue] at hcents
    have hcents : cents = ((w.number * 10 ^ (2 - w.places).toNat : Nat) : Int) := by exact_mod_cast hcents
    have hlow : 100 ≤ w.number * 10 ^ (2 - w.places).toNat := by
      have hlow : (100 : ℚ) ≤ 100 * w.value := by linarith
      rw [hvalue] at hlow
      exact_mod_cast hlow
    have hhigh : w.number * 10 ^ (2 - w.places).toNat ≤ 99999999 := by
      have hhigh : 100 * w.value ≤ (99999999 : ℚ) := by norm_num at hmost; linarith
      rw [hvalue] at hhigh
      exact_mod_cast hhigh
    have hpos : 0 < w.number := by
      rcases Nat.eq_zero_or_pos w.number with hzero | hpos
      · rw [hzero, Nat.zero_mul] at hlow
        omega
      · exact hpos
    rw [if_pos ⟨htwo, width_le_of_lt htwo hpos (by omega)⟩, seq_eq_ok, need_eq_ok, Bool.and_eq_true,
      decide_eq_true_eq, decide_eq_true_eq, hcents]
    exact ⟨⟨by omega, by omega⟩, rfl⟩

/-! ### The form -/

theorem mapM_id_eq_some {s : GoText} {t : Text} : s.mapM id = some t ↔ s = t.map some := by
  induction s generalizing t with
  | nil => cases t <;> simp
  | cons r s ih =>
    cases r with
    | none => cases t <;> simp
    | some =>
      rw [List.mapM_cons]
      cases hrest : s.mapM id with
      | none =>
        cases t with
        | nil => simp
        | cons d t =>
          have hne : s ≠ t.map some := fun h => by rw [ih.mpr h] at hrest; cases hrest
          simp [hne]
      | some u =>
        have hu : s = u.map some := ih.mp hrest
        cases t with
        | nil => simp
        | cons => simp [hu, (List.map_injective_iff.mpr (Option.some_injective Char)).eq_iff]

theorem length_le_byteLength (t : Text) : t.length ≤ byteLength (t.map some) := by
  induction t with
  | nil => simp [byteLength]
  | cons c t ih =>
    have hc : 0 < c.utf8Size := Char.utf8Size_pos c
    simp only [byteLength, List.map_cons, List.sum_cons, List.length_cons, Option.elim_some] at ih ⊢
    omega

theorem digits_le_text (w : Written) : w.digits.length ≤ w.text.length := by
  rw [Written.text, Written.mantissa, Written.digits]
  cases w.frac <;> simp [NumberText.fracChars] <;> omega

theorem donationCents_text {raw : GoText} (h : trimSpace raw = w.text.map some)
    (hlen : byteLength (trimSpace raw) ≤ 128) :
    donationCents raw = centsOf (splitOn '.' w.mantissa) w.exponent := by
  have hmatch : ((trimSpace raw).mapM id).bind submatches = some (w.mantissa, w.power) := by
    rw [mapM_id_eq_some.mpr h]
    exact submatches_eq_some.mpr ⟨w, rfl, rfl, rfl⟩
  rw [donationCents]
  simp only [hmatch, decide_eq_true hlen, need_true, ok_bind, Option.elim_some, power_value]

theorem centsOf_avoids (h : w.digits.length ≤ 128) :
    Avoids .overflow (centsOf (splitOn '.' w.mantissa) w.exponent) := by
  rw [centsOf_eq h]
  split
  · exact avoids_bind (avoids_need (by decide) _) fun _ _ => avoids_ok _ _
  · intro heq
    cases heq

theorem avoids_overflow (raw : GoText) : Avoids .overflow (donationCents raw) := by
  by_cases hlen : byteLength (trimSpace raw) ≤ 128
  · cases hmatch : ((trimSpace raw).mapM id).bind submatches with
    | none =>
      rw [donationCents]
      simp only [hmatch, decide_eq_true hlen, need_true, ok_bind]
      intro heq
      cases heq
    | some groups =>
      obtain ⟨t, htext, hgroups⟩ := Option.bind_eq_some_iff.mp hmatch
      obtain ⟨w, rfl, -, -⟩ := submatches_eq_some.mp hgroups
      have htext := mapM_id_eq_some.mp htext
      rw [donationCents_text htext hlen]
      have hdigits := digits_le_text w
      have hbytes := length_le_byteLength w.text
      rw [← htext] at hbytes
      exact centsOf_avoids (by omega)
  · rw [donationCents]
    simp only [decide_eq_false hlen]
    intro heq
    cases heq

theorem text_injective {w' : Written} (h : w.text = w'.text) : w = w' := by
  have hrest := congrArg dropPlus h
  rw [dropPlus_text, dropPlus_text] at hrest
  have hspan := span_mantissa w (head_expChars (e := w.exp))
  have hspan' := span_mantissa w' (head_expChars (e := w'.exp))
  have hmantissa : w.mantissa = w'.mantissa := by rw [← hspan.1, hrest, hspan'.1]
  have hexp : NumberText.expChars w.exp = NumberText.expChars w'.exp := by rw [← hspan.2, hrest, hspan'.2]
  have hexp : w.exp = w'.exp := by
    have happend : NumberText.expChars w.exp ++ [] = NumberText.expChars w'.exp ++ [] := by rw [hexp]
    have hend : NumberText.NoNumeral [] := trivial
    exact (NumberText.expChars_append_inj hend hend happend).1
  have hstop : ∀ frac, NoDigit (NumberText.fracChars frac) := by
    rintro (_ | ds) <;> trivial
  obtain ⟨hwhole, hfrac⟩ := append_inj (hstop w.frac) (hstop w'.frac) hmantissa
  have hfrac : w.frac = w'.frac := by
    have hinj : Function.Injective (List.map digitChar) := List.map_injective_iff.mpr digitChar_injective
    cases h1 : w.frac <;> cases h2 : w'.frac <;> rw [h1, h2] at hfrac <;>
      simp_all [NumberText.fracChars, hinj.eq_iff]
  have hplus : w.plus = w'.plus := by
    have hlen := congrArg List.length h
    rw [Written.text, Written.text, hmantissa, hexp, List.length_append, List.length_append] at hlen
    cases h1 : w.plus <;> cases h2 : w'.plus <;> simp_all
  obtain ⟨plus, whole, frac, exp, _, _⟩ := w
  obtain ⟨plus', whole', frac', exp', _, _⟩ := w'
  subst hplus hwhole hfrac hexp
  rfl

/-- The conversion succeeds for the decimals of at most 128 bytes with at most two places and six
digits before the point and a value from 1.00 to 999999.99, and its result is a hundred times the
value. Nothing overflows. -/
theorem donation_amounts_exact (raw : GoText) :
    donationCents raw ≠ .error .overflow ∧
    (∀ cents, donationCents raw = .ok cents ↔
      byteLength (trimSpace raw) ≤ 128 ∧
        ∃ w : Written, trimSpace raw = w.text.map some ∧ w.Accepted ∧ (cents : ℚ) = 100 * w.value) ∧
    ∀ w w' : Written, trimSpace raw = w.text.map some → trimSpace raw = w'.text.map some → w = w' := by
  refine ⟨avoids_overflow raw, fun cents => ?_, fun w w' h h' => ?_⟩
  · constructor
    · intro hok
      have hok' := hok
      rw [donationCents, seq_eq_ok, need_eq_ok, decide_eq_true_eq] at hok'
      obtain ⟨hlen, hok'⟩ := hok'
      obtain ⟨⟨m, p⟩, hgroups, -⟩ := bind_eq_ok.mp hok'
      obtain ⟨t, htext, hgroups⟩ := Option.bind_eq_some_iff.mp (elim_eq_ok.mp hgroups)
      obtain ⟨w, rfl, -, -⟩ := submatches_eq_some.mp hgroups
      have htext := mapM_id_eq_some.mp htext
      have hbytes := length_le_byteLength w.text
      rw [← htext] at hbytes
      rw [donationCents_text htext hlen] at hok
      exact ⟨hlen, w, htext, (centsOf_eq_ok ((digits_le_text w).trans (hbytes.trans hlen))).mp hok⟩
    · rintro ⟨hlen, w, htext, haccepted⟩
      have hbytes := length_le_byteLength w.text
      rw [← htext] at hbytes
      rw [donationCents_text htext hlen]
      exact (centsOf_eq_ok ((digits_le_text w).trans (hbytes.trans hlen))).mpr haccepted
  · exact text_injective ((List.map_injective_iff.mpr (Option.some_injective _)) (h.symm.trans h'))

end SocialActivities.Donations
