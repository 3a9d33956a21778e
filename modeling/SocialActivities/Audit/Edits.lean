import Mathlib.Data.List.Perm.Basic
import SocialActivities.Audit.Agreement

/-!
# `SocialActivities.Audit.Edits`: what the digest of a row shows

Rows with a common text have the same hashed fields (`Py.eq_of_rowTexts`, `Go.eq_of_rowTexts`). The
data of a row is seen as the verification reads it: Python takes its numbers for integers and
floats, and Go also takes the legacy readings, in which a long integer is a float. So an edit that
changes the data only within one reading (`SameData`) leaves the digest as it was.
-/

namespace SocialActivities.Audit

open Lib Lib.Digits Go Py

/-- An edit of the hashed fields of a row, or of the digest it names before it. `same` says of two
columns that they hold the same data. -/
def AuditRow.Edited (same : Document NumberText → Document NumberText → Prop)
    (row edited : AuditRow) : Prop :=
  edited.actorRef ≠ row.actorRef ∨ edited.event ≠ row.event ∨ edited.targetRef ≠ row.targetRef ∨
    edited.createdAt ≠ row.createdAt ∨ edited.prevHash ≠ row.prevHash ∨ ¬same row.data edited.data

theorem actorRef_inj {a b : Option (Fin 2147483648)} (h : a.map Fin.val = b.map Fin.val) : a = b :=
  Option.map_injective Fin.val_injective h

/-! ### Python -/

namespace Py

/-- The columns are read as the same data. -/
def SameData (s s' : Document NumberText) : Prop :=
  ∃ d d', decoded s = some d ∧ decoded s' = some d' ∧ d.SameFields d'

/-- The number that a text of `dumps` stands for. -/
def PyText.value : PyText → Option PyNumber
  | .number t => loadsNumber t
  | .infinity neg => some (.infinity neg)

theorem value_dumpsNumber {n : PyNumber} {t : PyText} (h : dumpsNumber n = some t) :
    t.value = some n := by
  cases n with
  | int =>
    rw [dumpsNumber] at h
    split at h
    · next hwidth =>
      rw [← Option.some.inj h]
      exact loadsNumber_ofInt hwidth
    · cases h
  | float x =>
    rw [← Option.some.inj h]
    have hdecimal : (floatRepr x).isDecimal = true := by
      rw [floatRepr_eq]
      exact isDecimal_floatText false x
    show loadsNumber (floatRepr x) = _
    rw [loadsNumber, if_pos hdecimal, parseFloat_floatRepr]
  | infinity =>
    rw [← Option.some.inj h]
    rfl

theorem chars_ne_infinity (t : NumberText) (neg : Bool) (r r' : List Char) :
    t.chars ++ r ≠ (PyText.infinity neg).chars ++ r' := by
  obtain ⟨sign, whole, frac, exp, hfrac⟩ := t
  obtain ⟨c, cs, hc, hdigit⟩ := NumberText.exists_digit_cons (digits_ne_nil whole)
    (NumberText.fracChars frac ++ (NumberText.expChars exp ++ r))
  have hne : c ≠ '-' ∧ c ≠ 'I' := by
    constructor <;> (rintro rfl; revert hdigit; decide)
  intro h
  simp only [NumberText.chars, List.append_assoc] at h
  rw [hc] at h
  cases sign <;> cases neg <;> simp_all [PyText.chars]

theorem unambiguous_encodeBasestringAscii :
    Json.Unambiguous encodeBasestringAscii PyText.chars where
  quote_lead := asciiString_eq ▸ unambiguous_asciiString.quote_lead
  quote_inj := asciiString_eq ▸ unambiguous_asciiString.quote_inj
  num_lead n := by
    cases n with
    | number t => exact NumberText.leadKind_chars t
    | infinity neg => cases neg <;> exact ⟨_, _, rfl, by decide⟩
  num_inj {n m r r'} hr hr' h := by
    cases n with
    | number t =>
      cases m with
      | number =>
        obtain ⟨rfl, hrest⟩ := unambiguous_asciiString.num_inj hr hr' h
        exact ⟨rfl, hrest⟩
      | infinity neg => exact absurd h (chars_ne_infinity t neg r r')
    | infinity neg =>
      cases m with
      | number u => exact absurd h.symm (chars_ne_infinity u neg r' r)
      | infinity neg' => cases neg <;> cases neg' <;> simp_all [PyText.chars]

theorem sameFields_of_rendered {d d' : Document PyNumber} {x : Json PyText}
    (h : d.json.rendered id dumpsNumber = some x)
    (h' : d'.json.rendered id dumpsNumber = some x) : d.SameFields d' := by
  have hread : ∀ {d : Document PyNumber}, d.json.rendered id dumpsNumber = some x →
      x.numbers? PyText.value = some (d.json.sortFields id) := by
    intro d h
    rw [Json.numbers?_of_rendered id h fun n _ t ht => value_dumpsNumber ht, Json.rendered]
    have hsome : d.json.numbers? (fun n => some n) = some (d.json.map id) :=
      Json.numbers?_some id d.json
    rw [hsome, Json.map_id]
    rfl
  exact Document.json_injective (Option.some.inj ((hread h).symm.trans (hread h')))

theorem eq_of_rowTexts {row row' : AuditRow} {t : List Char} (h : t ∈ rowTexts row)
    (h' : t ∈ rowTexts row') :
    row.actorRef = row'.actorRef ∧ row.event = row'.event ∧ row.targetRef = row'.targetRef ∧
      row.createdAt = row'.createdAt ∧ SameData row.data row'.data := by
  obtain ⟨d, hd, htext⟩ := Option.bind_eq_some_iff.mp h
  obtain ⟨d', hd', htext'⟩ := Option.bind_eq_some_iff.mp h'
  rw [canonicalText, dumps_eq] at htext htext'
  obtain ⟨e, he, hprint⟩ := Option.map_eq_some_iff.mp htext
  obtain ⟨e', he', hprint'⟩ := Option.map_eq_some_iff.mp htext'
  obtain rfl := Json.print_inj unambiguous_encodeBasestringAscii (hprint.trans hprint'.symm)
  have hint : ∀ {a b : Nat} {m : PyText}, dumpsNumber (.int a) = some m →
      dumpsNumber (.int b) = some m → a = b := by
    intro a b m ha hb
    have hvalue := (value_dumpsNumber ha).symm.trans (value_dumpsNumber hb)
    exact Int.ofNat.inj (PyNumber.int.inj (Option.some.inj hvalue))
  obtain ⟨hactor, hevent, htarget, hcreated, x, hx, hx'⟩ :=
    eq_of_rendered_payload hint (List.Perm.refl _) (List.Perm.refl _) he he'
  exact ⟨actorRef_inj hactor, hevent, htarget, Timestamp.isoformat_injective hcreated,
    d, d', hd, hd', sameFields_of_rendered hx hx'⟩

end Py

/-! ### Go -/

namespace Go

/-- The readings of the data of a row: as it is, and the legacy readings. -/
def readings (s : Document NumberText) : List (Json GoNumber) :=
  (decoded s).json :: legacyNumericVariants (decoded s).json

/-- The columns have readings with the same values. -/
def SameData (s s' : Document NumberText) : Prop :=
  ∃ d ∈ readings s, ∃ d' ∈ readings s', ∃ x,
    d.rendered utf8 GoNumber.value = some x ∧ d'.rendered utf8 GoNumber.value = some x

theorem mem_choices {α : Type} {options : List (List α)} {c : List α} (h : c ∈ choices options) :
    List.Forall₂ (fun option place => option ∈ place) c options := by
  -- `done` are the places that `out` has options of.
  have hfold : ∀ (options done : List (List α)) (out : List (List α)),
      (∀ c ∈ out, List.Forall₂ (fun option place => option ∈ place) c done) →
      ∀ c ∈ options.foldl (fun out place =>
          (out.flatMap fun existing => place.map fun option => existing ++ [option]).take 64) out,
        List.Forall₂ (fun option place => option ∈ place) c (done ++ options) := by
    intro options
    induction options with
    | nil =>
      intro done out hout c hc
      rw [List.append_nil]
      exact hout c hc
    | cons place options ih =>
      intro done out hout c hc
      rw [List.append_cons]
      refine ih (done ++ [place]) _ (fun c hc => ?_) c hc
      obtain ⟨existing, hexisting, hc⟩ := List.mem_flatMap.mp (List.mem_of_mem_take hc)
      obtain ⟨option, hoption, rfl⟩ := List.mem_map.mp hc
      exact List.rel_append (hout existing hexisting) (.cons hoption .nil)
  refine hfold options [] [[]] (fun c hc => ?_) c h
  rw [List.mem_singleton.mp hc]
  exact .nil

theorem exists_reading {row : AuditRow} {d : Json GoNumber}
    (h : d ∈ (rowPayload row).json :: legacyNumericVariants (rowPayload row).json) :
    ∃ fs, d = .object fs ∧ ∃ data ∈ readings row.data,
      fs.Perm (payloadFields .int (row.actorRef.map Fin.val) row.event row.targetRef data
        (pythonTimestamp row.createdAt)) := by
  rcases List.mem_cons.mp h with rfl | h
  · exact ⟨_, rfl, _, List.mem_cons_self, .refl _⟩
  · obtain ⟨fs, hfs, rfl⟩ := List.mem_map.mp h
    refine ⟨fs, rfl, ?_⟩
    have hchoice := List.forall₂_map_right_iff.mp (mem_choices hfs)
    -- Put the fields of the choice in the order of the payload.
    obtain ⟨gs, hplaces, hperm⟩ :=
      List.perm_comp_forall₂ (Json.perm_sortedFields utf8 _).symm hchoice.flip
    have hactor : legacyNumericVariants (actorJson .int (row.actorRef.map Fin.val))
        = [actorJson .int (row.actorRef.map Fin.val)] := by
      cases row.actorRef <;> rfl
    obtain - | ⟨h1, - | ⟨h2, - | ⟨h3, - | ⟨h4, - | ⟨h5, ⟨⟩⟩⟩⟩⟩⟩ := hplaces
    obtain ⟨a, ha, rfl⟩ := List.mem_map.mp h1
    obtain ⟨e, he, rfl⟩ := List.mem_map.mp h2
    obtain ⟨t, ht, rfl⟩ := List.mem_map.mp h3
    obtain ⟨data, hdata, rfl⟩ := List.mem_map.mp h4
    obtain ⟨c, hc, rfl⟩ := List.mem_map.mp h5
    refine ⟨data, List.mem_cons_of_mem _ hdata, ?_⟩
    rw [hactor] at ha
    rw [List.mem_singleton.mp ha, List.mem_singleton.mp he, List.mem_singleton.mp ht,
      List.mem_singleton.mp hc] at hperm
    exact hperm.symm

theorem exists_value_of_rendered {d d' : Json GoNumber} {x : Json NumberText}
    (h : d.rendered utf8 (writeNumber false) = some x)
    (h' : d'.rendered utf8 (writeNumber false) = some x) :
    ∃ y, d.rendered utf8 GoNumber.value = some y ∧ d'.rendered utf8 GoNumber.value = some y := by
  have hread : ∀ {d : Json GoNumber}, d.rendered utf8 (writeNumber false) = some x →
      x.numbers? NumberText.value = d.rendered utf8 GoNumber.value := fun h =>
    Json.numbers?_of_rendered utf8 h fun n _ t ht => value_writeNumber ht
  obtain ⟨w, hw, -⟩ := Option.map_eq_some_iff.mp h
  obtain ⟨v, hv⟩ := Json.exists_numbers? (f := GoNumber.value) (d := d) fun n hn => by
    obtain ⟨t, ht⟩ := Json.exists_of_numbers? hw n hn
    exact exists_value ht
  refine ⟨v.sortFields utf8, by rw [Json.rendered, hv]; rfl, ?_⟩
  rw [← hread h', hread h, Json.rendered, hv]
  rfl

theorem eq_of_rowTexts {row row' : AuditRow} {t : List Char} (h : t ∈ rowTexts row)
    (h' : t ∈ rowTexts row') :
    row.actorRef = row'.actorRef ∧ row.event = row'.event ∧ row.targetRef = row'.targetRef ∧
      row.createdAt = row'.createdAt ∧ SameData row.data row'.data := by
  obtain ⟨d, hd, htext⟩ := h
  obtain ⟨d', hd', htext'⟩ := h'
  obtain ⟨fs, rfl, data, hdata, hfs⟩ := exists_reading hd
  obtain ⟨gs, rfl, data', hdata', hgs⟩ := exists_reading hd'
  rw [canonicalJson_eq] at htext htext'
  obtain ⟨e, he, hprint⟩ := Option.map_eq_some_iff.mp htext
  obtain ⟨e', he', hprint'⟩ := Option.map_eq_some_iff.mp htext'
  obtain rfl := Json.print_inj unambiguous_asciiString (hprint.trans hprint'.symm)
  have hint : ∀ {a b : Nat} {m : NumberText}, writeNumber false (.int a) = some m →
      writeNumber false (.int b) = some m → a = b := by
    intro a b m ha hb
    have hvalue := (value_writeNumber ha).symm.trans (value_writeNumber hb)
    exact Int.ofNat.inj (Number.integer.inj (Option.some.inj hvalue))
  obtain ⟨hactor, hevent, htarget, hcreated, x, hx, hx'⟩ :=
    eq_of_rendered_payload hint hfs hgs he he'
  rw [pythonTimestamp_eq, pythonTimestamp_eq] at hcreated
  exact ⟨actorRef_inj hactor, hevent, htarget, Timestamp.isoformat_injective hcreated,
    data, hdata, data', hdata', exists_value_of_rendered hx hx'⟩

end Go

end SocialActivities.Audit
