import Mathlib.Data.List.Dedup
import SocialActivities.Audit.PyCanonical
import SocialActivities.Roedu.Accepted
import SocialActivities.Roedu.Admission

/-!
# `SocialActivities.Roedu.Waived`: what an admitted item is like

The canonical text of an admission is what `json.dumps` of Python writes for it (`pyText_admission`), so
its digest binds all of its members. An item is accepted with an admission only if the admission waives
exactly the reasons of the denial (`Waiver`) and the rest of the contract holds of the item itself: the
copy that the validator sees differs from it in the clearance alone (`sound_of_clearedShape`).
-/

namespace SocialActivities.Roedu

open Lib Audit.Py
open Snapshots (GoJson Text)

/-! ### The canonical text -/

/-- One character of `py_encode_basestring`: `ESCAPE` matches controls, the quote and the backslash. -/
def escapeChar (c : Char) : Text :=
  if c.toNat < 32 ∨ c = '"' ∨ c = '\\' then
    match escapeDct c with
    | some e => ['\\', e]
    | none => unicodeEscape c.toNat
  else [c]

def encodeBasestring (s : Text) : Text := '"' :: (s.flatMap escapeChar ++ ['"'])

/-- `json.dumps(json.loads(value), sort_keys=True, separators=(",", ":"), ensure_ascii=False)`. -/
def pyText (value : GoJson) : Option Text :=
  (value.rendered id fun n => (loadsNumber n).bind dumpsNumber).map (Json.print encodeBasestring PyText.chars)

theorem canonicalRune_eq (c : Char) : canonicalRune c = escapeChar c := by
  unfold canonicalRune escapeChar
  by_cases hcontrol : c.toNat < 32
  · have hall : ∀ n < 32, canonicalRune (Char.ofNat n) = escapeChar (Char.ofNat n) := by decide
    have hc := hall c.toNat hcontrol
    rw [Char.ofNat_toNat] at hc
    exact hc
  · have hne : ∀ d : Char, d.toNat < 32 → c ≠ d := by
      rintro d hd rfl
      exact hcontrol hd
    have hn := hne '\n' (by decide)
    have hr := hne '\r' (by decide)
    have ht := hne '\t' (by decide)
    have hb := hne '\x08' (by decide)
    have hf := hne '\x0c' (by decide)
    by_cases hquote : c = '"'
    · subst hquote
      rfl
    · by_cases hslash : c = '\\'
      · subst hslash
        rfl
      · simp [hcontrol, hquote, hslash, hn, hr, ht, hb, hf]

theorem canonicalString_eq : canonicalString = encodeBasestring := by
  funext s
  unfold canonicalString encodeBasestring
  rw [List.flatMap_congr fun c _ => canonicalRune_eq c]

theorem printItems_strings (first : Bool) (ss : List Text) (num : PyText → List Char) :
    Json.printItems encodeBasestring num first (ss.map .string) =
      (if first ∨ ss = [] then [] else [',']) ++ [','].intercalate (ss.map encodeBasestring) ++ [']'] := by
  induction ss generalizing first with
  | nil => cases first <;> rfl
  | cons s ss ih =>
    rw [List.map_cons, Json.printItems, ih]
    cases ss <;> cases first <;> simp [Json.comma, Json.print, List.intercalate]

/-! ### Objects as their keys -/

theorem get_of_mem {o : Object} (hnodup : (o.map Prod.fst).Nodup) {field : Text × GoJson} (h : field ∈ o) :
    o.get field.1 = field.2 := by
  have hfind : o.find? (·.1 == field.1) = some field := by
    induction o with
    | nil => cases h
    | cons first rest ih =>
      rw [List.map_cons, List.nodup_cons] at hnodup
      rcases List.mem_cons.mp h with heq | hrest
      · rw [← heq]
        simp
      · have hne : first.1 ≠ field.1 := fun heq =>
          hnodup.1 (List.mem_map.mpr ⟨field, hrest, heq.symm⟩)
        rw [List.find?_cons_of_neg (by simpa using hne)]
        exact ih hnodup.2 hrest
  rw [Object.get, Object.get?, hfind]
  rfl

theorem Keyed.perm {o : Object} {fields : List Text} (h : Keyed o fields) (hfields : fields.Nodup) :
    o.Perm (fields.map fun key => (key, o.get key)) := by
  have hnodup : (o.map Prod.fst).Nodup := h.nodup_iff.mpr hfields
  have hself : (o.map Prod.fst).map (fun key => (key, o.get key)) = o := by
    rw [List.map_map]
    have hid : ∀ field ∈ o, ((fun key => (key, o.get key)) ∘ Prod.fst) field = field :=
      fun field hfield => Prod.ext rfl (get_of_mem hnodup hfield)
    rw [List.map_congr_left hid, List.map_id']
  have hperm := h.map fun key => (key, o.get key)
  rw [hself] at hperm
  exact hperm

theorem keys_erase (o : Object) (key : Text) :
    (o.erase key).map Prod.fst = (o.map Prod.fst).filter (· != key) := by
  rw [List.filter_map]
  rfl

/-! ### The digest of an admission -/

/-- The names that the digest binds, in order. -/
def signedFields : List Text :=
  names ["kind", "not_a_legal_basis", "poc_root", "schema_version", "underlying_decision_id", "waived_reasons"]

theorem sortedFields_signed {α : Type} {fs : List (Text × α)} (h : fs.map Prod.fst = signedFields) :
    Json.sortedFields id fs = fs := by
  have hsorted : signedFields.Pairwise (· ≤ ·) := by decide +kernel
  apply List.Pairwise.insertionSort_eq
  rw [← h, List.pairwise_map] at hsorted
  exact hsorted

theorem itemsNumbers?_strings {μ : Type} (f : NumberText → Option μ) (ss : List Text) :
    Json.itemsNumbers? f (ss.map .string) = some (ss.map .string) := by
  induction ss with
  | nil => rfl
  | cons s ss ih => simp [Json.itemsNumbers?, Json.numbers?, ih]

/-- The members of an admission but for its digest. -/
def signedMembers (root decision : Text) (waived : List Text) : Object :=
  [("kind".toList, .string localPOCAdmissionKind), ("not_a_legal_basis".toList, .bool true),
    ("poc_root".toList, .string root), ("schema_version".toList, .number (.ofInt 1)),
    ("underlying_decision_id".toList, .string decision), ("waived_reasons".toList, .array (waived.map .string))]

/-- The same members after `json.loads` and `json.dumps` have read and written the number. -/
def writtenMembers (root decision : Text) (waived : List Text) : List (Text × Json PyText) :=
  [("kind".toList, .string localPOCAdmissionKind), ("not_a_legal_basis".toList, .bool true),
    ("poc_root".toList, .string root), ("schema_version".toList, .number (.number (.ofInt 1))),
    ("underlying_decision_id".toList, .string decision), ("waived_reasons".toList, .array (waived.map .string))]

theorem sortFieldsItems_strings {μ : Type} (ss : List Text) :
    Json.sortFieldsItems id (ss.map .string : List (Json μ)) = ss.map .string := by
  rw [Json.sortFieldsItems_eq, List.map_map]
  rfl

theorem pyText_signedMembers (root decision : Text) (waived : List Text) :
    pyText (.object (signedMembers root decision waived)) =
      some (canonicalText (admissionMembers root decision waived)) := by
  have hone : (loadsNumber (.ofInt 1)).bind dumpsNumber = some (.number (.ofInt 1)) := by
    have hloads : loadsNumber (.ofInt 1) = some (.int 1) := by decide +kernel
    have hwidth : Digits.width 1 ≤ maxStrDigits := by decide +kernel
    rw [hloads]
    simp [dumpsNumber, hwidth]
  have hnumbers : Json.numbers? (fun n => (loadsNumber n).bind dumpsNumber)
      (.object (signedMembers root decision waived)) = some (.object (writtenMembers root decision waived)) := by
    simp only [signedMembers, writtenMembers, Json.numbers?, Json.fieldsNumbers?, itemsNumbers?_strings, hone,
      Option.map_some, Option.bind_some]
  have hsorted : Json.sortFields id (.object (writtenMembers root decision waived)) =
      .object (writtenMembers root decision waived) := by
    have hfields : Json.sortFieldsFields id (writtenMembers root decision waived) =
        writtenMembers root decision waived := by
      simp only [writtenMembers, Json.sortFieldsFields, Json.sortFields, sortFieldsItems_strings]
    rw [Json.sortFields, hfields, sortedFields_signed rfl]
  have hprinted : Json.print encodeBasestring PyText.chars (.object (writtenMembers root decision waived)) =
      canonicalText (admissionMembers root decision waived) := by
    have hchars : PyText.chars (.number (.ofInt 1)) = "1".toList := by decide +kernel
    have hitems := printItems_strings true waived PyText.chars
    unfold canonicalText
    rw [sortedFields_signed rfl]
    simp only [writtenMembers, admissionMembers, Json.print, Json.printFields, Json.comma, hchars, hitems,
      canonicalString_eq, List.map_cons, List.map_nil, List.intercalate, List.intersperse]
    simp
  rw [pyText, Json.rendered, hnumbers, Option.map_some, Option.map_some, hsorted, hprinted]

variable {waived : List Text}

/-- The object that Python writes for an admission without its digest. -/
theorem pyText_admission {admission : Object} {root decision : Text}
    (hkeys : Keyed admission admissionFields)
    (hschema : admission.get "schema_version".toList = .number (.ofInt 1))
    (hkind : admission.get "kind".toList = .string localPOCAdmissionKind)
    (hbasis : admission.get "not_a_legal_basis".toList = .bool true)
    (hdecision : admission.get "underlying_decision_id".toList = .string decision)
    (hroot : admission.get "poc_root".toList = .string root)
    (hwaived : admission.get "waived_reasons".toList = .array (waived.map .string)) :
    pyText (.object (admission.erase "admission_digest".toList)) =
      some (canonicalText (admissionMembers root decision waived)) := by
  have hfields : admissionFields.Nodup := by simp [admissionFields]
  have hnames : (admissionFields.filter (· != "admission_digest".toList)).Perm signedFields := by decide +kernel
  have hmembers : signedFields.map (fun key => (key, admission.get key)) = signedMembers root decision waived := by
    simp only [signedFields, signedMembers, names, List.map_cons, List.map_nil, hschema, hkind, hbasis, hdecision,
      hroot, hwaived]
  have hperm : (admission.erase "admission_digest".toList).Perm (signedMembers root decision waived) := by
    have herase := (hkeys.perm hfields).filter (·.1 != "admission_digest".toList)
    rw [List.filter_map] at herase
    exact herase.trans (hmembers ▸ hnames.map fun key => (key, admission.get key))
  have hnodup : ((admission.erase "admission_digest".toList).map Prod.fst).Nodup := by
    rw [keys_erase]
    exact (hkeys.nodup_iff.mpr hfields).filter _
  unfold pyText
  rw [Json.rendered_object_of_perm id Function.injective_id hperm hnodup]
  exact pyText_signedMembers root decision waived

/-! ### A verified admission -/

/-- An admission that waives the denial of this attestation. -/
structure Waiver (admission attestation : Object) : Prop where
  keys : Keyed admission admissionFields
  action : attestation.get "action".toList = .string "publish_source".toList
  effect : attestation.get "effect".toList = .string "deny".toList
  reasons : ∃ waived denied : List Text,
    admission.get "waived_reasons".toList = .array (waived.map .string) ∧
    attestation.get "reasons".toList = .array (denied.map .string) ∧
    waived ≠ [] ∧ waived.Pairwise (· < ·) ∧ (∀ reason, reason ∈ waived ↔ reason ∈ denied) ∧
    ∀ reason ∈ waived, reason ∈ localPOCWaivable
  decision : ∃ decision : Text, decision ≠ [] ∧
    admission.get "underlying_decision_id".toList = .string decision ∧
    attestation.get "decision_id".toList = .string decision
  schema : admission.get "schema_version".toList = .number (.ofInt 1)
  kind : admission.get "kind".toList = .string localPOCAdmissionKind
  basis : admission.get "not_a_legal_basis".toList = .bool true
  root : ∃ root : Text, admission.get "poc_root".toList = .string root ∧ root.head? = some '/' ∧
    (utf8 root).length ≤ 4096
  /-- The digest is the one of what Python writes for the rest. -/
  digest : ∃ written, pyText (.object (admission.erase "admission_digest".toList)) = some written ∧
    admission.get "admission_digest".toList = .string (sha256 written)

theorem waivableAfter_eq_some {last : Option Text} {raw : List GoJson}
    (h : waivableAfter last raw = some waived) :
    raw = waived.map .string ∧ waived.Pairwise (· < ·) ∧ (∀ before ∈ last, ∀ reason ∈ waived, before < reason) ∧
      ∀ reason ∈ waived, reason ∈ localPOCWaivable := by
  induction raw generalizing last waived with
  | nil =>
    cases h
    simp
  | cons v raw ih =>
    cases v with
    | string reason =>
      rw [waivableAfter] at h
      split at h
      · next hreason =>
        have ⟨hknown, hlast⟩ := Bool.and_eq_true_iff.mp hreason
        have ⟨rest, hrest, hwaived⟩ := Option.map_eq_some_iff.mp h
        subst hwaived
        have ⟨hraw, hsorted, habove, hwaivable⟩ := ih hrest
        have hbefore : ∀ before ∈ last, before < reason := by simpa [all_iff_forall_mem] using hlast
        refine ⟨by rw [hraw, List.map_cons], List.pairwise_cons.mpr ⟨habove reason rfl, hsorted⟩, ?_, ?_⟩
        · intro before hmem other hother
          rcases List.mem_cons.mp hother with rfl | hother
          · exact hbefore before hmem
          · exact lt_trans (hbefore before hmem) (habove reason rfl other hother)
        · exact List.forall_mem_cons.mpr ⟨by simpa using hknown, hwaivable⟩
      · cases h
    | _ => cases h

theorem sortedWaivable_eq_some {v : GoJson} (h : sortedWaivable v = some waived) :
    v = .array (waived.map .string) ∧ waived ≠ [] ∧ waived.Pairwise (· < ·) ∧
      ∀ reason ∈ waived, reason ∈ localPOCWaivable := by
  have ⟨raw, hraw, hloop⟩ := Option.bind_eq_some_iff.mp h
  split at hloop
  · cases hloop
  · next hne =>
    have ⟨hmap, hsorted, _, hwaivable⟩ := waivableAfter_eq_some hloop
    subst hmap
    exact ⟨asArray_eq_some.mp hraw, by simpa using hne, hsorted, hwaivable⟩

theorem mapM_asString_eq_some {raw : List GoJson} {texts : List Text} (h : raw.mapM asString = some texts) :
    raw = texts.map .string := by
  induction raw generalizing texts with
  | nil =>
    cases h
    rfl
  | cons v raw ih =>
    rw [List.mapM_cons] at h
    have ⟨s, hs, hrest⟩ := Option.bind_eq_some_iff.mp h
    have ⟨rest, hmap, htexts⟩ := Option.bind_eq_some_iff.mp hrest
    cases htexts
    rw [asString_eq_some.mp hs, ih hmap, List.map_cons]

theorem mem_iff_of_count {denied : List Text} (hnodup : waived.Nodup)
    (hlength : denied.dedup.length = waived.length) (hsub : ∀ reason ∈ waived, reason ∈ denied) (reason : Text) :
    reason ∈ waived ↔ reason ∈ denied := by
  have hsubset : waived ⊆ denied.dedup := fun r hr => List.mem_dedup.mpr (hsub r hr)
  have hperm := (List.subperm_of_subset hnodup hsubset).perm_of_length_le (by omega)
  rw [hperm.mem_iff, List.mem_dedup]

theorem integerOne_iff {v : GoJson} : integerOne v = true ↔ v = .number (.ofInt 1) := by
  constructor
  · intro h
    cases v with
    | number n =>
      have hchars : n.chars = ['1'] := by simpa [integerOne] using h
      have hone : (NumberText.ofInt 1).chars = ['1'] := by decide +kernel
      have hnil : NumberText.NoNumeral [] := trivial
      have hsame : n.chars ++ [] = (NumberText.ofInt 1).chars ++ [] := by rw [hchars, hone]
      exact congrArg Json.number (NumberText.chars_append_inj hnil hnil hsame).1
    | _ => cases h
  · rintro rfl
    decide +kernel

theorem waiver_of_verified {admission attestation : Object}
    (h : verifyLocalPOCAdmission admission attestation = .ok ()) : Waiver admission attestation := by
  unfold verifyLocalPOCAdmission at h
  simp only [ensure_seq, given_bind, ensure_eq_ok, asString_eq_some, asArray_eq_some] at h
  obtain ⟨hkeys, heffect, waived, hwaived, reasons, hreasons, hnone, denied, hdenied, hset, decision, hdecision,
    hnamed, digest, hdigest, _, computed, hcomputed, hequal⟩ := h
  have hkeys := (exactKeys_iff (by simp [admissionFields] : admissionFields.Nodup)).mp hkeys
  obtain ⟨haction, hdeny⟩ := Bool.and_eq_true_iff.mp heffect
  obtain ⟨hraw, hne, hsorted, hwaivable⟩ := sortedWaivable_eq_some hwaived
  obtain ⟨hcount, hsub⟩ := Bool.and_eq_true_iff.mp hset
  obtain ⟨hfilled, hown⟩ := Bool.and_eq_true_iff.mp hnamed
  have hset : ∀ reason, reason ∈ waived ↔ reason ∈ denied :=
    mem_iff_of_count (hsorted.imp fun hlt => ne_of_lt hlt) (by simpa using hcount) (by simpa using hsub)
  -- What the digest of the admission reads is what the rest of the checks has read.
  unfold localPOCAdmissionDigest at hcomputed
  split at hcomputed
  · cases hcomputed
  · next hfixed =>
    obtain ⟨⟨hschema, hkind⟩, hbasis⟩ : (integerOne (admission.get "schema_version".toList) = true ∧
        isString localPOCAdmissionKind (admission.get "kind".toList) = true) ∧
          isBool true (admission.get "not_a_legal_basis".toList) = true := by simpa using hfixed
    obtain ⟨same, hsame, hrest⟩ := Option.bind_eq_some_iff.mp hcomputed
    obtain ⟨root, hroot, hrest⟩ := Option.bind_eq_some_iff.mp hrest
    obtain ⟨again, hagain, hrest⟩ := Option.bind_eq_some_iff.mp hrest
    obtain ⟨hsame, _⟩ := Option.filter_eq_some_iff.mp hsame
    obtain ⟨hroot, hpath⟩ := Option.filter_eq_some_iff.mp hroot
    have hsame : Json.string decision = Json.string same := hdecision.symm.trans (asString_eq_some.mp hsame)
    have hroot := asString_eq_some.mp hroot
    obtain ⟨hslash, hlength⟩ := Bool.and_eq_true_iff.mp hpath
    injection hsame with hsame
    subst hsame
    cases hwaived.symm.trans hagain
    cases hrest
    have hschema := integerOne_iff.mp hschema
    have hkind := isString_iff.mp hkind
    have hbasis := isBool_iff.mp hbasis
    have hdigest : admission.get "admission_digest".toList =
        .string (sha256 (canonicalText (admissionMembers root decision waived))) := by
      rw [hdigest, ← beq_iff_eq.mp hequal]
    exact {
      keys := hkeys
      action := isString_iff.mp haction
      effect := isString_iff.mp hdeny
      reasons := ⟨waived, denied, hraw, hreasons.trans (congrArg _ (mapM_asString_eq_some hdenied)), hne, hsorted,
        hset, hwaivable⟩
      decision := ⟨decision, by simpa using hfilled, hdecision, isString_iff.mp hown⟩
      schema := hschema
      kind := hkind
      basis := hbasis
      root := ⟨root, hroot, by simpa using hslash, by simpa using hlength⟩
      digest := ⟨_, pyText_admission hkeys hschema hkind hbasis hdecision hroot hraw, hdigest⟩ }

end SocialActivities.Roedu
