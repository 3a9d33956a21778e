import SocialActivities.Audit.Rows
import SocialActivities.Lib.Shortest

/-!
# `SocialActivities.Audit.PyCanonical`: the audit JSON of the Django application

`_canonical` hashes `json.dumps(..., sort_keys=True, separators=(",", ":"))` (`safety/services.py`),
and the column keeps what `json.dumps` writes for the data. Python reads a number text as an `int`
or a `float`; conversion of an `int` from or to more than 4300 digits raises, and a decimal beyond
the largest float is an infinity, which `dumps` writes as a word that is not JSON.

The column expands exponents. A float that Python prints with a positive exponent comes back as an
integer, so the data that reads back as it was written (`PyNumber.survives`) has floats below
`10 ^ 16` only, and no negative zero.
-/

namespace SocialActivities.Audit.Py

open Lib Lib.Digits

/-! ### Numbers -/

inductive PyNumber where
  | int (n : Int)
  | float (x : Binary64)
  | infinity (neg : Bool)
  deriving DecidableEq

/-- What `dumps` writes for a number. -/
inductive PyText where
  | number (t : NumberText)
  | infinity (neg : Bool)

/-- `sys.get_int_max_str_digits()`. -/
def maxStrDigits : Nat := 4300

/-- `json.loads` of a number text. -/
def loadsNumber (t : NumberText) : Option PyNumber :=
  if t.isDecimal then
    match t.parseFloat with
    | some x => some (.float x)
    | none => some (.infinity t.neg)
  else if width t.whole ≤ maxStrDigits then some (.int t.integerValue) else none

/-- `repr` of a float. `decpt` is the place of the point in the shortest digits. -/
def floatRepr (x : Binary64) : NumberText :=
  let d := shortest x.mag
  let decpt := d.scientificExponent + 1
  if decpt ≤ -4 ∨ 16 < decpt then scientificText x.neg d else fixedText x.neg d

/-- `json.dumps` of a number. -/
def dumpsNumber : PyNumber → Option PyText
  | .int n => if width n.natAbs ≤ maxStrDigits then some (.number (.ofInt n)) else none
  | .float x => some (.number (floatRepr x))
  | .infinity neg => some (.infinity neg)

def PyText.chars : PyText → List Char
  | .number t => t.chars
  | .infinity neg => (if neg then ['-'] else []) ++ ['I', 'n', 'f', 'i', 'n', 'i', 't', 'y']

/-- The number text of the JSON grammar; an infinity is none. -/
def PyText.json? : PyText → Option NumberText
  | .number t => some t
  | .infinity _ => none

/-- A float below `10 ^ 16` that is not a negative zero, and every integer. -/
def PyNumber.survives : PyNumber → Bool
  | .int _ => true
  | .float x =>
    decide (x ≠ ⟨true, .zero⟩) && decide (x.mag.units < 10 ^ 16 * Magnitude.unitsPerOne)
  | .infinity _ => false

/-! ### Strings -/

/-- `ESCAPE_DCT`, less the unicode escapes. -/
def escapeDct (c : Char) : Option Char :=
  if c = '\\' then some '\\' else if c = '"' then some '"' else if c = '\x08' then some 'b'
  else if c = '\x0c' then some 'f' else if c = '\n' then some 'n' else if c = '\r' then some 'r'
  else if c = '\t' then some 't' else none

/-- `\\u{0:04x}`. -/
def unicodeEscape (n : Nat) : List Char := '\\' :: 'u' :: hexPad 4 n

/-- One character of `py_encode_basestring_ascii`: characters from space to tilde stay, less the
backslash and the quote. -/
def encodeChar (c : Char) : List Char :=
  if 32 ≤ c.toNat ∧ c.toNat ≤ 126 ∧ c ≠ '\\' ∧ c ≠ '"' then [c]
  else match escapeDct c with
    | some e => ['\\', e]
    | none =>
      let n := c.toNat
      if n < 0x10000 then unicodeEscape n
      else
        -- The surrogate pair of `n`.
        let s1 := 0xd800 + (n - 0x10000) / 1024 % 1024
        let s2 := 0xdc00 + (n - 0x10000) % 1024
        unicodeEscape s1 ++ unicodeEscape s2

def encodeBasestringAscii (s : List Char) : List Char := '"' :: (s.flatMap encodeChar ++ ['"'])

/-! ### Encoding and storage -/

/-- `json.dumps(value, sort_keys=True, separators=(",", ":"))`. -/
def dumps (value : Json PyNumber) : Option (List Char) :=
  (value.numbers? dumpsNumber).map fun d => (d.sortFields id).print encodeBasestringAscii PyText.chars

/-- The document that the column holds after `json.dumps` of the data. -/
def stored (value : Document PyNumber) : Option (Document NumberText) :=
  (value.numbers? fun n => (dumpsNumber n).bind PyText.json?).bind jsonb

/-- A document as Python decodes it from the column. -/
def decoded (stored : Document NumberText) : Option (Document PyNumber) :=
  stored.numbers? loadsNumber

theorem dumps_eq (v : Json PyNumber) : dumps v
    = (v.rendered id dumpsNumber).map (Json.print encodeBasestringAscii PyText.chars) := by
  rw [dumps, Json.rendered, Option.map_map]
  rfl

/-! ### Through the column -/

theorem parseFloat_floatRepr (x : Binary64) : (floatRepr x).parseFloat = some x := by
  unfold floatRepr
  dsimp only
  split
  · exact parseFloat_scientificText x.neg (round_shortest x.mag)
  · exact parseFloat_fixedText x.neg (round_shortest x.mag)

variable {t : NumberText} {x : Binary64}

theorem neg_and_coeff_ne_zero (hx : x ≠ ⟨true, .zero⟩)
    (hread : t.parseFloat = some x) : (t.neg && decide (t.coefficient ≠ 0)) = x.neg := by
  have hneg : t.neg = x.neg := by
    obtain ⟨m, -, rfl⟩ := Option.map_eq_some_iff.mp hread
    rfl
  by_cases hcoeff : t.coefficient = 0
  · rw [NumberText.parseFloat_of_coefficient_eq_zero hcoeff] at hread
    have hvalue := Option.some.inj hread
    cases hx' : t.neg with
    | true => rw [hx'] at hvalue; exact absurd hvalue.symm hx
    | false => rw [← hneg, hx']; rfl
  · rw [decide_eq_true hcoeff, Bool.and_true, hneg]

theorem loadsNumber_numeric (hx : x ≠ ⟨true, .zero⟩) {m : NumberText}
    (hread : m.parseFloat = some x) (hpower : m.power < 0) (ht : numeric m = some t) :
    loadsNumber t = some (.float x) := by
  have hstored : t = NumberText.plain x.neg m.coefficient m.power := by
    unfold numeric at ht
    rw [neg_and_coeff_ne_zero hx hread] at ht
    dsimp only at ht
    split at ht
    · exact (Option.some.inj ht).symm
    · cases ht
  have hvalue : t.parseFloat = some x := by
    obtain ⟨m', hm', rfl⟩ := Option.map_eq_some_iff.mp hread
    rw [hstored, NumberText.parseFloat_plain, hm']
    rfl
  rw [loadsNumber, if_pos (hstored ▸ NumberText.isDecimal_plain hpower), hvalue]

theorem power_floatRepr (hx : x.mag.units < 10 ^ 16 * Magnitude.unitsPerOne) :
    (floatRepr x).power < 0 := by
  have hlt := scientificExponent_shortest_lt hx
  unfold floatRepr
  dsimp only
  split
  · next h =>
    rw [power_scientificText]
    unfold Decimal.scientificExponent at hlt h
    omega
  · exact power_fixedText_neg x.neg _

theorem loadsNumber_ofInt {n : Int} (h : width n.natAbs ≤ maxStrDigits) :
    loadsNumber (.ofInt n) = some (.int n) := by
  have hdecimal : (NumberText.ofInt n).isDecimal = false := rfl
  rw [loadsNumber, hdecimal, if_neg (by decide), NumberText.integerValue_ofInt]
  exact if_pos h

theorem loadsNumber_stored {n : PyNumber} {m : NumberText} (hn : n.survives = true)
    (hm : (dumpsNumber n).bind PyText.json? = some m) (ht : numeric m = some t) :
    loadsNumber t = some n := by
  cases n with
  | int =>
    obtain ⟨text, htext, hjson⟩ := Option.bind_eq_some_iff.mp hm
    rw [dumpsNumber] at htext
    split at htext
    · next hwidth =>
      obtain rfl := Option.some.inj htext
      obtain rfl := Option.some.inj hjson
      rw [numeric_ofInt ht, loadsNumber_ofInt hwidth]
    · cases htext
  | float x =>
    obtain rfl := Option.some.inj hm
    rw [PyNumber.survives, Bool.and_eq_true, decide_eq_true_eq, decide_eq_true_eq] at hn
    obtain ⟨hzero, hbound⟩ := hn
    exact loadsNumber_numeric hzero (parseFloat_floatRepr x) (power_floatRepr hbound) ht
  | infinity => cases hn

theorem exists_kept {v : Document PyNumber} {s : Document NumberText} (hs : stored v = some s) :
    ∃ d kept, v.numbers? (fun n => (dumpsNumber n).bind PyText.json?) = some d
      ∧ d.numbers? numeric = some kept
      ∧ ∀ {κ : Type} [LinearOrder κ] {key : List Char → κ}, Function.Injective key →
        s.sortFields key = kept.sortFields key := by
  obtain ⟨d, hd, hcolumn⟩ := Option.bind_eq_some_iff.mp hs
  obtain ⟨kept, hkept, rfl⟩ := jsonb_eq_some hcolumn
  exact ⟨d, kept, hd, hkept, fun hkey => Document.sortFields_sortFields hkey jsonbKey kept⟩

/-- What is read back from the column renders as what its numbers are read as. -/
theorem rendered_decoded {β : Type} {v : Document β} {s : Document NumberText}
    {read : β → Option PyNumber} {w : Json PyNumber} (hw : v.json.numbers? read = some w)
    (hread : s.json.rendered id loadsNumber = v.json.rendered id read) :
    ∃ d, decoded s = some d ∧ d.json.rendered id dumpsNumber =
      s.json.rendered id fun t => (loadsNumber t).bind dumpsNumber := by
  rw [Json.rendered, Json.rendered, hw] at hread
  obtain ⟨e, he, -⟩ := Option.map_eq_some_iff.mp hread
  have hd : decoded s = some ⟨e, Json.distinct_numbers? he s.distinct⟩ :=
    Document.numbers?_eq_some.mpr he
  exact ⟨_, hd, Document.rendered_of_numbers? hd⟩

theorem rendered_stored {v : Document PyNumber} {s : Document NumberText}
    (hv : ∀ n ∈ v.json.numbers, n.survives = true) (hs : stored v = some s) :
    ∃ d, decoded s = some d
      ∧ d.json.rendered id dumpsNumber = v.json.rendered id dumpsNumber := by
  obtain ⟨d, kept, hd, hkept, hsort⟩ := exists_kept hs
  have hid : Function.Injective (id : List Char → List Char) := Function.injective_id
  have hread : s.json.rendered id loadsNumber = v.json.rendered id fun n => some n :=
    Document.rendered_of_stored hd hkept (hsort hid) fun n hn m t hm ht =>
      loadsNumber_stored (hv n hn) hm ht
  obtain ⟨d', hd', hrendered⟩ := rendered_decoded (Json.numbers?_some id v.json) hread
  refine ⟨d', hd', hrendered.trans ?_⟩
  exact Document.rendered_of_stored hd hkept (hsort hid) fun n hn m t hm ht => by
    rw [loadsNumber_stored (hv n hn) hm ht, Option.bind_some]

end SocialActivities.Audit.Py
