import SocialActivities.Audit.Rows
import SocialActivities.Lib.Shortest

/-!
# `SocialActivities.Audit.GoCanonical`: the audit JSON of the Go server

`CanonicalJSON` writes the bytes that are hashed and `StoredAuditJSON` the document that goes into
the column (`platform/canonical.go`). Both are `writeCanonical`, which sorts the fields by the
bytes of their names, escapes every character outside printable ASCII, and renders a decimal from
the binary64 number nearest to it; they differ in the layout of large and small decimals.

The text is unambiguous (`unambiguous_asciiString`), so equal bytes come from equal documents of
number texts, up to the order of fields.
-/

namespace SocialActivities.Audit.Go

open Lib

/-! ### Numbers -/

/-- A number of a Go value: the text of a `json.Number`, an integer, or a finite float. -/
inductive GoNumber where
  | number (t : NumberText)
  | int (n : Int)
  | float (x : Binary64)
  deriving DecidableEq

/-- CPython's text of a float: an exponent below -4 or from 16 on is written. -/
def pythonFloat (x : Binary64) : NumberText :=
  let d := shortest x.mag
  if d.scientificExponent < -4 ∨ 16 ≤ d.scientificExponent then scientificText x.neg d
  else fixedText x.neg d

/-- The text of a float that goes into the column: never an exponent, always a point. -/
def storedFloat (x : Binary64) : NumberText := fixedText x.neg (shortest x.mag)

def floatText (storage : Bool) (x : Binary64) : NumberText :=
  if storage then storedFloat x else pythonFloat x

/-- The number branches of `writeCanonical`. A decimal beyond the largest float is an error. -/
def writeNumber (storage : Bool) : GoNumber → Option NumberText
  | .number t => if t.isDecimal then t.parseFloat.map (floatText storage) else some t
  | .int n => some (.ofInt n)
  | .float x => some (floatText storage x)

/-- What a number of a Go value stands for. -/
def GoNumber.value : GoNumber → Option Number
  | .number t => t.value
  | .int n => some (.integer n)
  | .float x => some (.float x)

/-- A negative zero: of all values, the ones that a column of exact decimals changes. -/
def GoNumber.negativeZero : GoNumber → Bool
  | .number t =>
    if t.isDecimal then decide (t.parseFloat = some ⟨true, .zero⟩)
    else t.neg && decide (t.whole = 0)
  | .int _ => false
  | .float x => decide (x = ⟨true, .zero⟩)

theorem parseFloat_pythonFloat (x : Binary64) : (pythonFloat x).parseFloat = some x := by
  unfold pythonFloat
  dsimp only
  split
  · exact parseFloat_scientificText x.neg (round_shortest x.mag)
  · exact parseFloat_fixedText x.neg (round_shortest x.mag)

theorem parseFloat_storedFloat (x : Binary64) : (storedFloat x).parseFloat = some x :=
  parseFloat_fixedText x.neg (round_shortest x.mag)

theorem parseFloat_floatText (storage : Bool) (x : Binary64) :
    (floatText storage x).parseFloat = some x := by
  cases storage
  · exact parseFloat_pythonFloat x
  · exact parseFloat_storedFloat x

theorem isDecimal_storedFloat (x : Binary64) : (storedFloat x).isDecimal = true :=
  isDecimal_fixedText x.neg _

theorem isDecimal_floatText (storage : Bool) (x : Binary64) :
    (floatText storage x).isDecimal = true := by
  cases storage
  · show (pythonFloat x).isDecimal = true
    unfold pythonFloat
    dsimp only
    split
    · exact isDecimal_scientificText x.neg _
    · exact isDecimal_fixedText x.neg _
  · exact isDecimal_storedFloat x

theorem value_floatText (storage : Bool) (x : Binary64) :
    (floatText storage x).value = some (.float x) := by
  rw [NumberText.value, if_pos (isDecimal_floatText storage x), parseFloat_floatText]
  rfl

theorem value_writeNumber {storage : Bool} {n : GoNumber} {t : NumberText}
    (h : writeNumber storage n = some t) : t.value = n.value := by
  cases n with
  | number u =>
    by_cases hu : u.isDecimal = true
    · rw [writeNumber, if_pos hu] at h
      obtain ⟨x, hx, rfl⟩ := Option.map_eq_some_iff.mp h
      rw [value_floatText, GoNumber.value, NumberText.value, if_pos hu, hx]
      rfl
    · rw [writeNumber, if_neg hu] at h
      rw [← Option.some.inj h]
      rfl
  | int n =>
    rw [← Option.some.inj h]
    exact NumberText.value_ofInt n
  | float x =>
    rw [← Option.some.inj h]
    exact value_floatText storage x

/-! ### Strings -/

/-- `\uXXXX` in lower case. -/
def unicodeEscape (n : Nat) : List Char := '\\' :: 'u' :: hexPad 4 n

/-- One rune of `asciiString`. -/
def asciiRune (r : Char) : List Char :=
  if r = '"' then ['\\', '"']
  else if r = '\\' then ['\\', '\\']
  else if r = '\x08' then ['\\', 'b']
  else if r = '\x0c' then ['\\', 'f']
  else if r = '\n' then ['\\', 'n']
  else if r = '\r' then ['\\', 'r']
  else if r = '\t' then ['\\', 't']
  else if r.toNat < 32 ∨ 127 ≤ r.toNat then
    if r.toNat ≤ 0xffff then unicodeEscape r.toNat
    -- `utf16.EncodeRune`: the two surrogates of a rune above U+FFFF.
    else unicodeEscape (0xd800 + (r.toNat - 0x10000) / 1024 % 1024)
      ++ unicodeEscape (0xdc00 + (r.toNat - 0x10000) % 1024)
  else [r]

def asciiString (value : List Char) : List Char := '"' :: (value.flatMap asciiRune ++ ['"'])

/-- The character of a two-character escape. -/
def shortEscape (e : Char) : Option Char :=
  if e = '"' then some '"' else if e = '\\' then some '\\' else if e = 'b' then some '\x08'
  else if e = 'f' then some '\x0c' else if e = 'n' then some '\n'
  else if e = 'r' then some '\r' else if e = 't' then some '\t' else none

def hexValue4 (a b c d : Char) : Nat :=
  ((hexValue a * 16 + hexValue b) * 16 + hexValue c) * 16 + hexValue d

/-- The character of the digits of a `\u` escape, and of the low surrogate after a high one. -/
def unicodeRune : List Char → Option (Char × List Char)
  | a :: b :: c :: d :: rest =>
    if 0xd800 ≤ hexValue4 a b c d ∧ hexValue4 a b c d < 0xdc00 then
      match rest with
      | _ :: _ :: a' :: b' :: c' :: d' :: rest =>
        some (Char.ofNat (0x10000 + (hexValue4 a b c d - 0xd800) * 1024
          + (hexValue4 a' b' c' d' - 0xdc00)), rest)
      | _ => none
    else some (Char.ofNat (hexValue4 a b c d), rest)
  | _ => none

/-- The first character of an escaped text, and the rest. -/
def readRune : List Char → Option (Char × List Char)
  | [] => none
  | c :: rest =>
    if c ≠ '\\' then some (c, rest)
    else match rest with
      | [] => none
      | e :: rest => if e = 'u' then unicodeRune rest else (shortEscape e).map (·, rest)

theorem hexPad_four (n : Nat) : hexPad 4 n
    = [hexChar (n / 16 / 16 / 16 % 16), hexChar (n / 16 / 16 % 16), hexChar (n / 16 % 16),
      hexChar (n % 16)] := rfl

theorem hexValue4_hexChar {n : Nat} (h : n < 65536) :
    hexValue4 (hexChar (n / 16 / 16 / 16 % 16)) (hexChar (n / 16 / 16 % 16))
      (hexChar (n / 16 % 16)) (hexChar (n % 16)) = n := by
  unfold hexValue4
  rw [hexValue_hexChar (Nat.mod_lt _ (by decide)), hexValue_hexChar (Nat.mod_lt _ (by decide)),
    hexValue_hexChar (Nat.mod_lt _ (by decide)), hexValue_hexChar (Nat.mod_lt _ (by decide))]
  omega

theorem readRune_unicodeEscape {c : Char} (h : c.toNat ≤ 0xffff) (rest : List Char) :
    readRune (unicodeEscape c.toNat ++ rest) = some (c, rest) := by
  have hsurrogate : ¬(0xd800 ≤ c.toNat ∧ c.toNat < 0xdc00) := by
    have hvalid : c.toNat < 0xd800 ∨ 0xdfff < c.toNat ∧ c.toNat < 0x110000 := c.valid
    omega
  rw [unicodeEscape, hexPad_four]
  simp only [List.cons_append, List.nil_append, readRune, unicodeRune, ne_eq, not_true,
    if_false, if_true, hexValue4_hexChar (Nat.lt_succ_of_le h), hsurrogate, Char.ofNat_toNat]

theorem readRune_surrogates {c : Char} (h : ¬c.toNat ≤ 0xffff) (rest : List Char) :
    readRune (unicodeEscape (0xd800 + (c.toNat - 0x10000) / 1024 % 1024)
      ++ unicodeEscape (0xdc00 + (c.toNat - 0x10000) % 1024) ++ rest) = some (c, rest) := by
  have hmax : c.toNat < 0x110000 := by
    have hvalid : c.toNat < 0xd800 ∨ 0xdfff < c.toNat ∧ c.toNat < 0x110000 := c.valid
    omega
  generalize hhigh : 0xd800 + (c.toNat - 0x10000) / 1024 % 1024 = high
  generalize hlow : 0xdc00 + (c.toNat - 0x10000) % 1024 = low
  have hrange : 0xd800 ≤ high ∧ high < 0xdc00 := by omega
  have hvalue : 0x10000 + (high - 0xd800) * 1024 + (low - 0xdc00) = c.toNat := by omega
  rw [unicodeEscape, unicodeEscape, hexPad_four, hexPad_four]
  simp only [List.cons_append, List.nil_append, readRune, unicodeRune, ne_eq, not_true,
    if_false, if_true, hexValue4_hexChar (show high < 65536 by omega),
    hexValue4_hexChar (show low < 65536 by omega), hrange, and_self, hvalue, Char.ofNat_toNat]

theorem readRune_asciiRune (c : Char) (rest : List Char) :
    readRune (asciiRune c ++ rest) = some (c, rest) := by
  unfold asciiRune
  split_ifs with h1 h2 h3 h4 h5 h6 h7 h8 h9
  · rw [h1]; rfl
  · rw [h2]; rfl
  · rw [h3]; rfl
  · rw [h4]; rfl
  · rw [h5]; rfl
  · rw [h6]; rfl
  · rw [h7]; rfl
  · exact readRune_unicodeEscape h9 rest
  · exact readRune_surrogates h9 rest
  · exact if_pos h2

theorem asciiRune_ne_quote (c : Char) (rest rest' : List Char) :
    asciiRune c ++ rest ≠ '"' :: rest' := by
  intro h
  unfold asciiRune at h
  split_ifs at h with h1 <;>
    first
    | exact absurd (List.cons.inj h).1 (by decide)
    | exact h1 (List.cons.inj h).1

theorem body_append_inj {rune : Char → List Char}
    (hread : ∀ c rest, readRune (rune c ++ rest) = some (c, rest))
    (hquote : ∀ c rest rest', rune c ++ rest ≠ '"' :: rest') {s t r r' : List Char}
    (h : s.flatMap rune ++ '"' :: r = t.flatMap rune ++ '"' :: r') : s = t ∧ r = r' := by
  induction s generalizing t with
  | nil =>
    cases t with
    | nil => exact ⟨rfl, (List.cons.inj h).2⟩
    | cons d =>
      rw [List.flatMap_cons, List.append_assoc] at h
      exact absurd h.symm (hquote d _ _)
  | cons c s ih =>
    cases t with
    | nil =>
      rw [List.flatMap_cons, List.append_assoc] at h
      exact absurd h (hquote c _ _)
    | cons =>
      rw [List.flatMap_cons, List.flatMap_cons, List.append_assoc, List.append_assoc] at h
      have hrunes := congrArg readRune h
      rw [hread, hread] at hrunes
      obtain ⟨rfl, hrest⟩ := Prod.mk.inj (Option.some.inj hrunes)
      obtain ⟨rfl, hend⟩ := ih hrest
      exact ⟨rfl, hend⟩

theorem unambiguous_asciiString : Json.Unambiguous asciiString NumberText.chars where
  quote_lead s := ⟨_, rfl⟩
  quote_inj h := by
    simp only [asciiString, List.cons_append, List.append_assoc, List.nil_append,
      List.cons.injEq, true_and] at h
    exact body_append_inj readRune_asciiRune asciiRune_ne_quote h
  num_lead := NumberText.leadKind_chars
  num_inj hr hr' h :=
    NumberText.chars_append_inj (NumberText.noNumeral_of_stops hr)
      (NumberText.noNumeral_of_stops hr') h

/-! ### The two encodings -/

/-- `CanonicalJSON`: the text that is hashed. -/
def canonicalJson (value : Json GoNumber) : Option (List Char) :=
  (value.numbers? (writeNumber false)).map fun d => (d.sortFields utf8).print asciiString
    NumberText.chars

/-- `StoredAuditJSON`: the document that goes into the column, as a tree. -/
def storedAuditDocument (value : Document GoNumber) : Option (Document NumberText) :=
  (value.numbers? (writeNumber true)).map (Document.sortFields utf8)

/-- A document as Go decodes it from the column, with `UseNumber`. -/
def decoded (stored : Document NumberText) : Document GoNumber := stored.map .number

theorem canonicalJson_eq (v : Json GoNumber) : canonicalJson v
    = (v.rendered utf8 (writeNumber false)).map (Json.print asciiString NumberText.chars) := by
  rw [canonicalJson, Json.rendered, Option.map_map]
  rfl

theorem exists_value {storage : Bool} {n : GoNumber} {t : NumberText}
    (h : writeNumber storage n = some t) : ∃ x, n.value = some x := by
  cases n with
  | number u =>
    by_cases hu : u.isDecimal = true
    · rw [writeNumber, if_pos hu] at h
      obtain ⟨x, hx, -⟩ := Option.map_eq_some_iff.mp h
      exact ⟨.float x, by rw [GoNumber.value, NumberText.value, if_pos hu, hx]; rfl⟩
    · exact ⟨.integer u.integerValue, by rw [GoNumber.value, NumberText.value, if_neg hu]⟩
  | int | float => exact ⟨_, rfl⟩

variable {v : Document GoNumber}

theorem exists_value_of_canonicalJson {b : List Char}
    (h : canonicalJson v.json = some b) : ∃ x, v.numbers? GoNumber.value = some x := by
  obtain ⟨d, hd, -⟩ := Option.map_eq_some_iff.mp h
  refine Document.exists_numbers? fun n hn => ?_
  obtain ⟨t, ht⟩ := Json.exists_of_numbers? hd n hn
  exact exists_value ht

theorem sameFields_of_canonicalJson {w : Document GoNumber} {b : List Char}
    (hv : canonicalJson v.json = some b) (hw : canonicalJson w.json = some b) :
    ∃ x y, v.numbers? GoNumber.value = some x ∧ w.numbers? GoNumber.value = some y
      ∧ x.SameFields y := by
  -- What is written of a value, and the value of what is written.
  have hwritten : ∀ {v : Document GoNumber}, canonicalJson v.json = some b →
      ∃ d : Document NumberText, d.numbers? NumberText.value = v.numbers? GoNumber.value ∧
        (∃ x, v.numbers? GoNumber.value = some x) ∧
        (d.sortFields utf8).json.print asciiString NumberText.chars = b := by
    intro v hv
    obtain ⟨d, hd, hprint⟩ := Option.map_eq_some_iff.mp hv
    have hdistinct := Json.distinct_numbers? hd v.distinct
    have hwrite : v.numbers? (writeNumber false) = some ⟨d, hdistinct⟩ :=
      Document.numbers?_eq_some.mpr hd
    have hvalue := Document.numbers?_of_eq_some hwrite fun n _ t ht => value_writeNumber ht
    refine ⟨⟨d, hdistinct⟩, hvalue, ?_, hprint⟩
    exact exists_value_of_canonicalJson hv
  obtain ⟨d, hdvalue, ⟨x, hx⟩, hd⟩ := hwritten hv
  obtain ⟨e, hevalue, ⟨y, hy⟩, he⟩ := hwritten hw
  have hsame : d.SameFields e :=
    Document.sameFields_of_sortFields
      (Document.json_injective (Json.print_inj unambiguous_asciiString (hd.trans he.symm)))
  exact ⟨x, y, hx, hy, hsame.numbers? (hdvalue.trans hx) (hevalue.trans hy)⟩

/-! ### Through the column -/

theorem numeric_storedFloat {x : Binary64} {t : NumberText} (hx : x ≠ ⟨true, .zero⟩)
    (h : numeric (storedFloat x) = some t) : t = storedFloat x := by
  refine numeric_self (exp_fixedText _ _) (fun hneg hcoeff => ?_) h
  have hread := parseFloat_storedFloat x
  rw [NumberText.parseFloat_of_coefficient_eq_zero hcoeff, hneg] at hread
  exact hx (Option.some.inj hread).symm

theorem numeric_integer {u t : NumberText} (hu : ¬u.isDecimal = true)
    (hn : (GoNumber.number u).negativeZero = false) (h : numeric u = some t) : t = u := by
  obtain ⟨hfrac, hexp⟩ := NumberText.not_isDecimal hu
  rw [GoNumber.negativeZero, if_neg hu] at hn
  refine numeric_self hexp (fun hneg => ?_) h
  rw [NumberText.coefficient_of_frac hfrac]
  simpa [hneg] using hn

theorem writeNumber_stored {n : GoNumber} {m t : NumberText} (hn : n.negativeZero = false)
    (hm : writeNumber true n = some m) (ht : numeric m = some t) :
    writeNumber false (.number t) = writeNumber false n := by
  -- A float, given or parsed, is stored with a point and so read as the same float.
  have hfloat : ∀ x : Binary64, x ≠ ⟨true, .zero⟩ → m = storedFloat x →
      writeNumber false (.number t) = some (pythonFloat x) := by
    rintro x hx rfl
    rw [numeric_storedFloat hx ht, writeNumber, if_pos (isDecimal_storedFloat x),
      parseFloat_storedFloat]
    rfl
  cases n with
  | number u =>
    by_cases hu : u.isDecimal = true
    · rw [writeNumber, if_pos hu] at hm
      obtain ⟨x, hx, rfl⟩ := Option.map_eq_some_iff.mp hm
      rw [GoNumber.negativeZero, if_pos hu, hx, decide_eq_false_iff_not, Option.some.injEq] at hn
      rw [hfloat x hn rfl, writeNumber, if_pos hu, hx]
      rfl
    · rw [writeNumber, if_neg hu] at hm
      obtain rfl := Option.some.inj hm
      rw [numeric_integer hu hn ht]
  | int =>
    obtain rfl := Option.some.inj hm
    rw [numeric_ofInt ht]
    rfl
  | float x =>
    obtain rfl := Option.some.inj hm
    exact hfloat x (of_decide_eq_false hn) rfl

/-- The document that the column holds after `StoredAuditJSON`. -/
def stored (value : Document GoNumber) : Option (Document NumberText) :=
  (storedAuditDocument value).bind jsonb

theorem exists_kept {s : Document NumberText} (hs : stored v = some s) :
    ∃ d kept, v.numbers? (writeNumber true) = some d ∧ d.numbers? numeric = some kept
      ∧ ∀ {κ : Type} [LinearOrder κ] {key : List Char → κ}, Function.Injective key →
        s.sortFields key = kept.sortFields key := by
  obtain ⟨written, hwritten, hcolumn⟩ := Option.bind_eq_some_iff.mp hs
  obtain ⟨d, hd, rfl⟩ := Option.map_eq_some_iff.mp hwritten
  obtain ⟨s', hs', rfl⟩ := jsonb_eq_some hcolumn
  rw [Document.numbers?_sortFields] at hs'
  obtain ⟨kept, hkept, rfl⟩ := Option.map_eq_some_iff.mp hs'
  refine ⟨d, kept, hd, hkept, fun hkey => ?_⟩
  rw [Document.sortFields_sortFields hkey, Document.sortFields_sortFields hkey]

theorem rendered_stored {s : Document NumberText}
    (hzero : ∀ n ∈ v.json.numbers, n.negativeZero = false) (hs : stored v = some s) :
    (decoded s).json.rendered utf8 (writeNumber false)
      = v.json.rendered utf8 (writeNumber false) := by
  obtain ⟨d, kept, hd, hkept, hsort⟩ := exists_kept hs
  rw [decoded, Document.json_map, Json.rendered_map]
  exact Document.rendered_of_stored hd hkept (hsort utf8_injective)
    fun n hn m t hm ht => writeNumber_stored (hzero n hn) hm ht

end SocialActivities.Audit.Go
