import SocialActivities.Audit.GoChain
import SocialActivities.Audit.PyChain

/-!
# `SocialActivities.Audit.Agreement`: the two encodings of the audit chain

The digest of a row is written by one program and may be verified by the other, so both encode the
same value to the same bytes, and read the same value back from the column. The escapes are the
same function (`asciiString_eq`), the two orders of fields are the same order, and so all turns on
the numbers: where a number `agrees`, what Python writes for it is what Go writes
(`dumpsNumber_pyNumber`).

They differ on the text `-0`, on decimals beyond the largest float, and on integers of more than
4300 digits. The column changes a negative zero, and the floats from `10 ^ 16` on that Python
writes.
-/

namespace SocialActivities.Audit

open Lib Lib.Digits Go Py

/-! ### Strings -/

theorem encodeChar_eq (c : Char) : encodeChar c = asciiRune c := by
  by_cases hshort : (escapeDct c).isSome
  · -- The seven characters with an escape of their own.
    have hc : c = '\\' ∨ c = '"' ∨ c = '\x08' ∨ c = '\x0c' ∨ c = '\n' ∨ c = '\r' ∨ c = '\t' := by
      unfold escapeDct at hshort
      split_ifs at hshort <;> simp_all
    rcases hc with rfl | rfl | rfl | rfl | rfl | rfl | rfl <;> decide
  · have hnone : escapeDct c = none := Option.not_isSome_iff_eq_none.mp hshort
    have hne : c ≠ '\\' ∧ c ≠ '"' ∧ c ≠ '\x08' ∧ c ≠ '\x0c' ∧ c ≠ '\n' ∧ c ≠ '\r' ∧ c ≠ '\t' := by
      refine ⟨?_, ?_, ?_, ?_, ?_, ?_, ?_⟩ <;> (rintro rfl; revert hnone; decide)
    obtain ⟨h1, h2, h3, h4, h5, h6, h7⟩ := hne
    have hgo : asciiRune c = if c.toNat < 32 ∨ 127 ≤ c.toNat then
        if c.toNat ≤ 0xffff then Go.unicodeEscape c.toNat
        else Go.unicodeEscape (0xd800 + (c.toNat - 0x10000) / 1024 % 1024)
          ++ Go.unicodeEscape (0xdc00 + (c.toNat - 0x10000) % 1024)
        else [c] := by
      unfold asciiRune
      rw [if_neg h2, if_neg h1, if_neg h3, if_neg h4, if_neg h5, if_neg h6, if_neg h7]
    have hpy : encodeChar c = if 32 ≤ c.toNat ∧ c.toNat ≤ 126 ∧ c ≠ '\\' ∧ c ≠ '"' then [c]
        else if c.toNat < 0x10000 then Py.unicodeEscape c.toNat
        else Py.unicodeEscape (0xd800 + (c.toNat - 0x10000) / 1024 % 1024)
          ++ Py.unicodeEscape (0xdc00 + (c.toNat - 0x10000) % 1024) := by
      unfold encodeChar
      rw [hnone]
    -- The two ask the same of a character, in other comparisons.
    rw [hgo, hpy]
    by_cases hplain : 32 ≤ c.toNat ∧ c.toNat ≤ 126
    · rw [if_pos ⟨hplain.1, hplain.2, h1, h2⟩, if_neg (by omega)]
    · have hescaped : c.toNat < 32 ∨ 127 ≤ c.toNat := by omega
      rw [if_neg fun h => hplain ⟨h.1, h.2.1⟩, if_pos hescaped]
      by_cases hbasic : c.toNat ≤ 0xffff
      · have hlt : c.toNat < 0x10000 := by omega
        rw [if_pos hbasic, if_pos hlt]
        rfl
      · have hge : ¬c.toNat < 0x10000 := by omega
        rw [if_neg hbasic, if_neg hge]
        rfl

theorem asciiString_eq : asciiString = encodeBasestringAscii := by
  funext s
  have hchars : asciiRune = encodeChar := (funext encodeChar_eq).symm
  rw [asciiString, encodeBasestringAscii, hchars]

/-! ### Numbers -/

/-- What Go writes for a number, among the texts that Python can write. -/
def goText (n : GoNumber) : Option PyText := (writeNumber false n).map .number

/-- The same number in Python. -/
def pyNumber : GoNumber → Option PyNumber
  | .number t => loadsNumber t
  | .int n => some (.int n)
  | .float x => some (.float x)

/-- A number that both programs encode, and that is not the integer text `-0`. -/
def Go.GoNumber.agrees : GoNumber → Bool
  | .number t =>
    if t.isDecimal then t.parseFloat.isSome
    else !(t.neg && decide (t.whole = 0)) && decide (width t.whole ≤ maxStrDigits)
  | .int n => decide (width n.natAbs ≤ maxStrDigits)
  | .float _ => true

theorem canonicalJson_eq_print (v : Json GoNumber) : canonicalJson v
    = (v.rendered id goText).map (Json.print encodeBasestringAscii PyText.chars) := by
  have horder : v.rendered utf8 (writeNumber false) = v.rendered id (writeNumber false) := by
    refine congrArg (fun f => (v.numbers? (writeNumber false)).map f) (funext fun d => ?_)
    exact Json.sortFields_congr utf8_le_utf8 d
  unfold goText
  rw [canonicalJson_eq, horder, Json.rendered_option_map, Option.map_map]
  refine congrArg (fun f => (v.rendered id (writeNumber false)).map f) (funext fun d => ?_)
  rw [asciiString_eq]
  exact (Json.print_map encodeBasestringAscii PyText.chars PyText.number d).symm

theorem floatRepr_eq (x : Binary64) : floatRepr x = pythonFloat x := by
  unfold floatRepr pythonFloat
  dsimp only
  by_cases h : (shortest x.mag).scientificExponent < -4 ∨ 16 ≤ (shortest x.mag).scientificExponent
  · rw [if_pos h, if_pos (by omega)]
  · rw [if_neg h, if_neg (by omega)]

theorem ofInt_integerValue {t : NumberText} (hdecimal : ¬t.isDecimal = true)
    (hzero : ¬(t.neg = true ∧ t.whole = 0)) : NumberText.ofInt t.integerValue = t := by
  obtain ⟨hfrac, hexp⟩ := NumberText.not_isDecimal hdecimal
  obtain ⟨neg, whole, frac, exp, hne⟩ := t
  obtain rfl : frac = none := hfrac
  obtain rfl : exp = none := hexp
  have hvalue : (⟨neg, whole, none, none, hne⟩ : NumberText).integerValue
      = if neg then -(whole : Int) else whole := rfl
  rw [hvalue, NumberText.ofInt]
  cases neg with
  | true =>
    have hwhole : whole ≠ 0 := fun h => hzero ⟨rfl, h⟩
    simp only [if_true, Int.natAbs_neg, Int.natAbs_natCast, NumberText.mk.injEq, and_true,
      decide_eq_true_eq]
    omega
  | false =>
    simp only [Bool.false_eq_true, if_false, Int.natAbs_natCast, NumberText.mk.injEq, and_true,
      decide_eq_false_iff_not]
    omega

theorem dumpsNumber_pyNumber {n : GoNumber} (h : n.agrees = true) :
    (pyNumber n).bind dumpsNumber = goText n := by
  cases n with
  | number t =>
    by_cases hdecimal : t.isDecimal = true
    · rw [GoNumber.agrees, if_pos hdecimal] at h
      obtain ⟨x, hx⟩ := Option.isSome_iff_exists.mp h
      rw [pyNumber, loadsNumber, if_pos hdecimal, hx, goText, writeNumber, if_pos hdecimal, hx]
      show some (PyText.number (floatRepr x)) = some (PyText.number (pythonFloat x))
      rw [floatRepr_eq]
    · rw [GoNumber.agrees, if_neg hdecimal, Bool.and_eq_true, decide_eq_true_eq] at h
      obtain ⟨hzero, hwidth⟩ := h
      have hnot : ¬(t.neg = true ∧ t.whole = 0) := by
        rintro ⟨hneg, hwhole⟩
        simp [hneg, hwhole] at hzero
      have htext := ofInt_integerValue hdecimal hnot
      have habs : t.integerValue.natAbs = t.whole := congrArg NumberText.whole htext
      rw [pyNumber, loadsNumber, if_neg hdecimal, if_pos hwidth, goText, writeNumber,
        if_neg hdecimal]
      show dumpsNumber (.int t.integerValue) = some (PyText.number t)
      rw [dumpsNumber, habs, if_pos hwidth, htext]
  | int => exact if_pos (of_decide_eq_true h)
  | float x =>
    show some (PyText.number (floatRepr x)) = some (PyText.number (pythonFloat x))
    rw [floatRepr_eq]

theorem exists_goText {n : GoNumber} (h : n.agrees = true) : ∃ t, goText n = some t := by
  cases n with
  | number t =>
    by_cases hdecimal : t.isDecimal = true
    · rw [GoNumber.agrees, if_pos hdecimal] at h
      obtain ⟨x, hx⟩ := Option.isSome_iff_exists.mp h
      exact ⟨.number (pythonFloat x), by
        rw [goText, writeNumber, if_pos hdecimal, hx]
        rfl⟩
    · exact ⟨.number t, by rw [goText, writeNumber, if_neg hdecimal]; rfl⟩
  | int | float => exact ⟨_, rfl⟩

/-! ### Bytes -/

theorem canonicalJson_eq_dumps {v : Document GoNumber}
    (h : ∀ n ∈ v.json.numbers, n.agrees = true) :
    ∃ w b, v.numbers? pyNumber = some w ∧ canonicalJson v.json = some b ∧
      dumps w.json = some b := by
  have hpy : ∀ n ∈ v.json.numbers, ∃ p, pyNumber n = some p := by
    intro n hn
    obtain ⟨t, ht⟩ := exists_goText (h n hn)
    rw [← dumpsNumber_pyNumber (h n hn)] at ht
    obtain ⟨p, hp, -⟩ := Option.bind_eq_some_iff.mp ht
    exact ⟨p, hp⟩
  obtain ⟨w, hw⟩ := Document.exists_numbers? hpy
  obtain ⟨texts, htexts⟩ := Document.exists_numbers? (d := v) fun n hn => exists_goText (h n hn)
  have hsame : w.json.rendered id dumpsNumber = v.json.rendered id goText := by
    rw [Document.rendered_of_numbers? hw]
    exact Json.rendered_congr id fun n hn => dumpsNumber_pyNumber (h n hn)
  have hgo : v.json.rendered id goText = some (texts.json.sortFields id) := by
    rw [Json.rendered, Document.numbers?_eq_some.mp htexts]
    rfl
  refine ⟨w, (texts.json.sortFields id).print encodeBasestringAscii PyText.chars, hw, ?_, ?_⟩
  · rw [canonicalJson_eq_print, hgo]
    rfl
  · rw [dumps_eq, hsame, hgo]
    rfl

/-! ### Rows of the other program -/

theorem loadsNumber_goStored {n : GoNumber} {m t : NumberText} (hzero : n.negativeZero = false)
    (hn : n.agrees = true) (hm : writeNumber true n = some m) (ht : numeric m = some t) :
    loadsNumber t = pyNumber n := by
  -- A float is stored with a point, so it is read as a float.
  have hfloat : ∀ x : Binary64, x ≠ ⟨true, .zero⟩ → m = storedFloat x →
      loadsNumber t = some (.float x) := by
    rintro x hx rfl
    rw [numeric_storedFloat hx ht, loadsNumber, if_pos (isDecimal_storedFloat x),
      parseFloat_storedFloat]
  cases n with
  | number u =>
    by_cases hu : u.isDecimal = true
    · rw [writeNumber, if_pos hu] at hm
      obtain ⟨x, hx, rfl⟩ := Option.map_eq_some_iff.mp hm
      rw [GoNumber.negativeZero, if_pos hu, hx, decide_eq_false_iff_not, Option.some.injEq] at hzero
      rw [hfloat x hzero rfl, pyNumber, loadsNumber, if_pos hu, hx]
    · rw [writeNumber, if_neg hu] at hm
      obtain rfl := Option.some.inj hm
      rw [numeric_integer hu hzero ht]
      rfl
  | int =>
    obtain rfl := Option.some.inj hm
    rw [numeric_ofInt ht, loadsNumber_ofInt (of_decide_eq_true hn)]
    rfl
  | float x =>
    obtain rfl := Option.some.inj hm
    exact hfloat x (of_decide_eq_false hzero) rfl

theorem decoded_goStored {v : Document GoNumber} {s : Document NumberText}
    (hzero : ∀ n ∈ v.json.numbers, n.negativeZero = false)
    (hagrees : ∀ n ∈ v.json.numbers, n.agrees = true) (hs : Go.stored v = some s) :
    ∃ d, Py.decoded s = some d
      ∧ d.json.rendered id dumpsNumber = v.json.rendered id goText := by
  obtain ⟨d, kept, hd, hkept, hsort⟩ := Go.exists_kept hs
  have hid : Function.Injective (id : List Char → List Char) := Function.injective_id
  obtain ⟨w, -, hw, -, -⟩ := canonicalJson_eq_dumps hagrees
  have hread : s.json.rendered id loadsNumber = v.json.rendered id pyNumber :=
    Document.rendered_of_stored hd hkept (hsort hid) fun n hn m t hm ht =>
      loadsNumber_goStored (hzero n hn) (hagrees n hn) hm ht
  obtain ⟨d', hd', hrendered⟩ := Py.rendered_decoded (Document.numbers?_eq_some.mp hw) hread
  refine ⟨d', hd', hrendered.trans ?_⟩
  exact Document.rendered_of_stored hd hkept (hsort hid) fun n hn m t hm ht => by
    rw [loadsNumber_goStored (hzero n hn) (hagrees n hn) hm ht,
      dumpsNumber_pyNumber (hagrees n hn)]

theorem dumpsNumber_actor {actorRef : Option (Fin 2147483648)} :
    ∀ a ∈ actorRef.map Fin.val, dumpsNumber (.int a) = goText (.int a) := by
  intro a ha
  obtain ⟨f, -, rfl⟩ := Option.map_eq_some_iff.mp ha
  refine if_pos ?_
  have hlog : Nat.log 10 f.val < 10 :=
    Nat.log_lt_of_lt_pow' (by decide) (Nat.lt_trans f.isLt (by decide))
  show width f.val ≤ maxStrDigits
  unfold width maxStrDigits
  omega

theorem pyCheckRow_goRecordRow {i : Nat} {e : Go.Event} {last : Checkpoint} {row : AuditRow}
    (hzero : ∀ n ∈ e.dataOrEmpty.json.numbers, n.negativeZero = false)
    (hagrees : ∀ n ∈ e.dataOrEmpty.json.numbers, n.agrees = true)
    (h : Go.recordRow i last.lastHash e = some row) :
    Py.checkRow last row = .ok (some row.checkpoint) := by
  obtain ⟨canonical, hcanonical, hrest⟩ := Option.bind_eq_some_iff.mp h
  obtain ⟨data, hstored, hrest⟩ := Option.bind_eq_some_iff.mp hrest
  obtain ⟨actorRef, hactor, hrow⟩ := Option.bind_eq_some_iff.mp hrest
  obtain rfl := Option.some.inj hrow
  obtain ⟨d, hd, hrendered⟩ := decoded_goStored hzero hagrees hstored
  refine Py.checkRow_of_hash ?_ rfl rfl
  rw [rowText, hd, ← hcanonical, canonicalJson_eq_print, pythonTimestamp_eq]
  show canonicalText (actorRef.map Fin.val) e.event e.target d e.created.isoformat = _
  rw [canonicalText, dumps_eq, ← map_val_integerColumn hactor]
  exact congrArg _ (rendered_payload dumpsNumber_actor hrendered ..)

theorem goText_pyStored {n : PyNumber} {m t : NumberText} (hn : n.survives = true)
    (hm : (dumpsNumber n).bind PyText.json? = some m) (ht : numeric m = some t) :
    goText (.number t) = dumpsNumber n := by
  have hloads := loadsNumber_stored hn hm ht
  have hagrees : (GoNumber.number t).agrees = true := by
    rw [loadsNumber] at hloads
    rw [GoNumber.agrees]
    split at hloads
    · next hdecimal =>
      rw [if_pos hdecimal]
      split at hloads
      · next x hx => rw [hx]; rfl
      · -- An infinity does not survive.
        rw [← Option.some.inj hloads] at hn
        cases hn
    · next hdecimal =>
      rw [if_neg hdecimal]
      split at hloads
      · next hwidth =>
        obtain rfl := Option.some.inj hloads
        have htext : t = .ofInt t.integerValue := by
          obtain ⟨text, htext, hjson⟩ := Option.bind_eq_some_iff.mp hm
          rw [dumpsNumber] at htext
          split at htext
          · obtain rfl := Option.some.inj htext
            obtain rfl := Option.some.inj hjson
            exact numeric_ofInt ht
          · cases htext
        -- The text of an integer writes no minus zero.
        have hzero : ¬(t.neg = true ∧ t.whole = 0) := by
          rintro ⟨hneg, hwhole⟩
          rw [htext] at hneg hwhole
          have hlt : t.integerValue < 0 := of_decide_eq_true hneg
          have habs : t.integerValue.natAbs = 0 := hwhole
          omega
        rw [Bool.and_eq_true]
        refine ⟨?_, decide_eq_true hwidth⟩
        by_cases hneg : t.neg = true
        · have hwhole : t.whole ≠ 0 := fun h => hzero ⟨hneg, h⟩
          simp [hwhole]
        · simp [hneg]
      · cases hloads
  have hpy : pyNumber (.number t) = some n := hloads
  rw [← dumpsNumber_pyNumber hagrees, hpy, Option.bind_some]

theorem goCheckRow_pyRecordRow {i : Nat} {e : Py.Event} {last : Checkpoint} {row : AuditRow}
    (hdata : ∀ n ∈ e.data.json.numbers, n.survives = true)
    (h : Py.recordRow i last.lastHash e = some row) :
    Go.checkRow last row = .ok (some row.checkpoint) := by
  obtain ⟨text, htext, hrest⟩ := Option.bind_eq_some_iff.mp h
  obtain ⟨data, hstored, hrest⟩ := Option.bind_eq_some_iff.mp hrest
  obtain ⟨actorRef, hactor, hrow⟩ := Option.bind_eq_some_iff.mp hrest
  obtain rfl := Option.some.inj hrow
  obtain ⟨d, kept, hd, hkept, hsort⟩ := Py.exists_kept hstored
  have hid : Function.Injective (id : List Char → List Char) := Function.injective_id
  have hrendered : (Go.decoded data).json.rendered id goText
      = e.data.json.rendered id dumpsNumber := by
    rw [Go.decoded, Document.json_map, Json.rendered_map]
    exact Document.rendered_of_stored hd hkept (hsort hid) fun n hn m t hm ht =>
      goText_pyStored (hdata n hn) hm ht
  refine Go.checkRow_of_hash ?_ rfl rfl
  rw [← htext, canonicalJson_eq_print, rowPayload, pythonTimestamp_eq, canonicalText, dumps_eq,
    ← map_val_integerColumn hactor]
  exact congrArg _ (rendered_payload (fun a ha => (dumpsNumber_actor a ha).symm) hrendered ..)

/-! ### The encoding -/

/-- The two encodings of audit data. Where the numbers agree they have the same bytes; equal bytes
come from values that are the same up to the order of fields; what either program wrote to the
column reads back with the bytes that were hashed, negative zeros and, for Python, floats from
`10 ^ 16` on excepted; and so a row of either program passes the verification of the other. -/
theorem audit_encoding :
    (∀ v : Document GoNumber, (∀ n ∈ v.json.numbers, n.agrees = true) →
      ∃ w b, v.numbers? pyNumber = some w ∧ canonicalJson v.json = some b ∧
        dumps w.json = some b) ∧
    (∀ (v w : Document GoNumber) (b : List Char), canonicalJson v.json = some b →
      canonicalJson w.json = some b → ∃ x y, v.numbers? GoNumber.value = some x ∧
        w.numbers? GoNumber.value = some y ∧ x.SameFields y) ∧
    (∀ (v : Document GoNumber) (s : Document NumberText),
      (∀ n ∈ v.json.numbers, n.negativeZero = false) → Go.stored v = some s →
      canonicalJson (Go.decoded s).json = canonicalJson v.json) ∧
    (∀ (v : Document PyNumber) (s : Document NumberText),
      (∀ n ∈ v.json.numbers, n.survives = true) → Py.stored v = some s →
      ∃ d, Py.decoded s = some d ∧ dumps d.json = dumps v.json) ∧
    (∀ (i : Nat) (e : Go.Event) (last : Checkpoint) (row : AuditRow),
      (∀ n ∈ e.dataOrEmpty.json.numbers, n.negativeZero = false ∧ n.agrees = true) →
      Go.recordRow i last.lastHash e = some row →
      Go.checkRow last row = .ok (some row.checkpoint) ∧
        Py.checkRow last row = .ok (some row.checkpoint)) ∧
    (∀ (i : Nat) (e : Py.Event) (last : Checkpoint) (row : AuditRow),
      (∀ n ∈ e.data.json.numbers, n.survives = true) →
      Py.recordRow i last.lastHash e = some row →
      Py.checkRow last row = .ok (some row.checkpoint) ∧
        Go.checkRow last row = .ok (some row.checkpoint)) := by
  -- The encodings agree on every document, and the verdicts follow from what is stored.
  refine ⟨fun v hv => canonicalJson_eq_dumps hv,
    fun v w b hv hw => sameFields_of_canonicalJson hv hw, ?_, ?_, ?_, ?_⟩
  · intro v s hzero hs
    rw [canonicalJson_eq, canonicalJson_eq, Go.rendered_stored hzero hs]
  · intro v s hv hs
    obtain ⟨d, hd, hrendered⟩ := Py.rendered_stored hv hs
    exact ⟨d, hd, by rw [dumps_eq, dumps_eq, hrendered]⟩
  · intro i e last row hdata hrow
    exact ⟨Go.checkRow_recordRow (fun n hn => (hdata n hn).1) hrow,
      pyCheckRow_goRecordRow (fun n hn => (hdata n hn).1) (fun n hn => (hdata n hn).2) hrow⟩
  · intro i e last row hdata hrow
    exact ⟨Py.checkRow_recordRow hdata hrow, goCheckRow_pyRecordRow hdata hrow⟩

/-- On the integer text `-0` the bytes differ. A negative zero float does not read back from the
column as Go hashed it, nor a float of `10 ^ 16` as Python did. And on a decimal beyond the largest
float Go fails where Python writes a word. -/
theorem audit_encoding_differs :
    let minusZero : NumberText := ⟨true, 0, none, none, by decide⟩
    let zeroFloat : Document GoNumber := ⟨.number (.float ⟨true, .zero⟩), trivial⟩
    let large : Document PyNumber := ⟨.number (.float ⟨false, tenToSixteen⟩), trivial⟩
    let beyond : NumberText := ⟨false, 1, none, some ⟨false, none, [4, 0, 0], by decide⟩, by decide⟩
    (canonicalJson (.number (.number minusZero)) = some ['-', '0'] ∧
      (pyNumber (.number minusZero)).bind (fun n => dumps (.number n)) = some ['0']) ∧
    (canonicalJson zeroFloat.json = some ['-', '0', '.', '0'] ∧
      (Go.stored zeroFloat).bind (fun s => canonicalJson (Go.decoded s).json)
        = some ['0', '.', '0']) ∧
    (dumps large.json = some ['1', 'e', '+', '1', '6'] ∧
      ((Py.stored large).bind Py.decoded).bind (fun d => dumps d.json)
        = some ('1' :: List.replicate 16 '0')) ∧
    (canonicalJson (.number (.number beyond)) = none ∧
      (pyNumber (.number beyond)).bind (fun n => dumps (.number n))
        = some ['I', 'n', 'f', 'i', 'n', 'i', 't', 'y']) := by
  decide +kernel

end SocialActivities.Audit
