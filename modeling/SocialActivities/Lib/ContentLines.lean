import Mathlib.Data.List.Basic

/-!
# `SocialActivities.Lib.ContentLines`: nested components as lines of text

A `Tree` is what a text of components says: properties, one a line, and named components, which begin
and end with a line of their own and nest. `Tree.lines` writes it, `Tree.own` are the properties of the
component itself, `Tree.named` the components of a name, each after those that it contains.

A line may be folded: cut at any place and continued on the next line behind a space or a tab. `Written`
relates lines to the texts that write them so, with either line ending.
-/

namespace SocialActivities.Lib.ContentLines

/-- The content of a component. -/
inductive Tree where
  | nil
  | property (line : List Char) (rest : Tree)
  | component (name : List Char) (content rest : Tree)
  deriving DecidableEq

def beginLine (name : List Char) : List Char := "BEGIN:".toList ++ name

def endLine (name : List Char) : List Char := "END:".toList ++ name

namespace Tree

/-- The lines, in order. -/
def lines : Tree → List (List Char)
  | nil => []
  | property line rest => line :: rest.lines
  | component name content rest =>
    beginLine name :: (content.lines ++ endLine name :: rest.lines)

/-- The properties that do not belong to a component in it. -/
def own : Tree → List (List Char)
  | nil => []
  | property line rest => line :: rest.own
  | component _ _ rest => rest.own

/-- The components of a name, by their end. -/
def named (name : List Char) : Tree → List Tree
  | nil => []
  | property _ rest => rest.named name
  | component other content rest =>
    content.named name ++ (if other = name then [content] else []) ++ rest.named name

end Tree

/-! ### Well-formed lines -/

/-- The line has no line ending in it, and does not begin as a continuation does. -/
structure Clean (line : List Char) : Prop where
  no_lf : '\n' ∉ line
  no_cr : '\r' ∉ line
  start : ∀ c rest, line = c :: rest → c ≠ ' ' ∧ c ≠ '\t'

/-- The line is a property: it neither begins nor ends a component. -/
structure IsProperty (line : List Char) : Prop where
  clean : Clean line
  no_begin : ¬"BEGIN:".toList <+: line
  no_end : ¬"END:".toList <+: line

/-- All lines of the tree are well-formed. -/
def Tree.WellFormed : Tree → Prop
  | nil => True
  | property line rest => IsProperty line ∧ rest.WellFormed
  | component name content rest => '\n' ∉ name ∧ '\r' ∉ name ∧ content.WellFormed ∧ rest.WellFormed

theorem clean_iff {line : List Char} :
    Clean line ↔ '\n' ∉ line ∧ '\r' ∉ line ∧ line.head? ≠ some ' ' ∧ line.head? ≠ some '\t' := by
  constructor
  · intro h
    refine ⟨h.no_lf, h.no_cr, fun hspace => ?_, fun htab => ?_⟩
    · have ⟨rest, hrest⟩ := List.head?_eq_some_iff.mp hspace
      exact (h.start _ rest hrest).1 rfl
    · have ⟨rest, hrest⟩ := List.head?_eq_some_iff.mp htab
      exact (h.start _ rest hrest).2 rfl
  · rintro ⟨hlf, hcr, hspace, htab⟩
    refine ⟨hlf, hcr, fun c rest hline => ⟨fun hc => hspace ?_, fun hc => htab ?_⟩⟩
    · rw [hline, hc, List.head?_cons]
    · rw [hline, hc, List.head?_cons]

instance (line : List Char) : Decidable (Clean line) := decidable_of_iff _ clean_iff.symm

instance (line : List Char) : Decidable (IsProperty line) :=
  decidable_of_iff (Clean line ∧ ¬"BEGIN:".toList <+: line ∧ ¬"END:".toList <+: line)
    ⟨fun ⟨hclean, hbegin, hend⟩ => ⟨hclean, hbegin, hend⟩,
      fun h => ⟨h.clean, h.no_begin, h.no_end⟩⟩

instance Tree.decidableWellFormed : (tree : Tree) → Decidable tree.WellFormed
  | nil => isTrue trivial
  | property _ rest => @instDecidableAnd _ _ inferInstance (decidableWellFormed rest)
  | component _ content rest =>
    @instDecidableAnd _ _ inferInstance (@instDecidableAnd _ _ inferInstance
      (@instDecidableAnd _ _ (decidableWellFormed content) (decidableWellFormed rest)))

theorem clean_beginLine {name : List Char} (hlf : '\n' ∉ name) (hcr : '\r' ∉ name) :
    Clean (beginLine name) := by
  constructor
  · exact List.not_mem_append (by decide) hlf
  · exact List.not_mem_append (by decide) hcr
  · intro c rest h
    have hc : 'B' = c := (List.cons.inj h).1
    rw [← hc]
    decide

theorem clean_endLine {name : List Char} (hlf : '\n' ∉ name) (hcr : '\r' ∉ name) :
    Clean (endLine name) := by
  constructor
  · exact List.not_mem_append (by decide) hlf
  · exact List.not_mem_append (by decide) hcr
  · intro c rest h
    have hc : 'E' = c := (List.cons.inj h).1
    rw [← hc]
    decide

theorem Tree.WellFormed.clean {tree : Tree} (h : tree.WellFormed) : ∀ line ∈ tree.lines, Clean line := by
  induction tree with
  | nil => exact fun _ hline => absurd hline List.not_mem_nil
  | property line rest ih =>
    intro l hl
    rcases List.mem_cons.mp hl with rfl | hl
    · exact h.1.clean
    · exact ih h.2 l hl
  | component name content rest ihcontent ihrest =>
    have ⟨hlf, hcr, hcontent, hrest⟩ := h
    intro l hl
    rcases List.mem_cons.mp hl with rfl | hl
    · exact clean_beginLine hlf hcr
    · rcases List.mem_append.mp hl with hl | hl
      · exact ihcontent hcontent l hl
      · rcases List.mem_cons.mp hl with rfl | hl
        · exact clean_endLine hlf hcr
        · exact ihrest hrest l hl

/-! ### Folded text -/

/-- A continuation: the blank, which is a space or a tab, and the text behind it. -/
structure Continuation where
  tab : Bool
  text : List Char

def Continuation.chars (c : Continuation) : List Char := (if c.tab then '\t' else ' ') :: c.text

inductive LineEnd where
  | lf
  | crlf
  deriving DecidableEq

def LineEnd.chars : LineEnd → List Char
  | .lf => ['\n']
  | .crlf => ['\r', '\n']

/-- The physical lines of folded lines. -/
inductive Laid : List (List Char) → List (List Char) → Prop where
  | nil : Laid [] []
  | cons {lines physical : List (List Char)} (first : List Char) (rest : List Continuation)
      (laid : Laid lines physical) :
      Laid ((first ++ rest.flatMap Continuation.text) :: lines)
        (first :: (rest.map Continuation.chars ++ physical))

/-- Physical lines with their ends, and what follows the last end. -/
def joined (ended : List (List Char × LineEnd)) (last : List Char) : List Char :=
  ended.flatMap (fun p => p.1 ++ p.2.chars) ++ last

/-- The text writes the lines. The last line may lack its end. -/
def Written (lines : List (List Char)) (text : List Char) : Prop :=
  ∃ ended last, text = joined ended last ∧
    (Laid lines (ended.map Prod.fst ++ [last]) ∨ last = [] ∧ Laid lines (ended.map Prod.fst))

theorem laid_self (lines : List (List Char)) : Laid lines lines := by
  induction lines with
  | nil => exact .nil
  | cons line lines ih =>
    have h := Laid.cons line [] ih
    rwa [List.flatMap_nil, List.append_nil, List.map_nil, List.nil_append] at h

theorem written_lines (lineEnd : LineEnd) (lines : List (List Char)) :
    Written lines (joined (lines.map fun line => (line, lineEnd)) []) := by
  refine ⟨lines.map fun line => (line, lineEnd), [], rfl, Or.inr ⟨rfl, ?_⟩⟩
  rw [List.map_map]
  exact (List.map_id lines).symm ▸ laid_self lines

theorem Laid.clean {lines physical : List (List Char)} (h : Laid lines physical)
    (hclean : ∀ line ∈ lines, Clean line) : ∀ p ∈ physical, '\n' ∉ p ∧ '\r' ∉ p := by
  induction h with
  | nil => exact fun _ hp => absurd hp List.not_mem_nil
  | cons first rest laid ih =>
    have hline := hclean _ List.mem_cons_self
    have hlf := hline.no_lf
    have hcr := hline.no_cr
    rw [List.mem_append, List.mem_flatMap, not_or] at hlf hcr
    intro p hp
    rcases List.mem_cons.mp hp with rfl | hp
    · exact ⟨hlf.1, hcr.1⟩
    · rcases List.mem_append.mp hp with hp | hp
      · have ⟨c, hc, hcp⟩ := List.mem_map.mp hp
        have hnlf : '\n' ∉ c.text := fun h => hlf.2 ⟨c, hc, h⟩
        have hncr : '\r' ∉ c.text := fun h => hcr.2 ⟨c, hc, h⟩
        rw [← hcp]
        cases htab : c.tab with
        | true | false => simp [Continuation.chars, htab, hnlf, hncr]
      · exact ih (fun line hl => hclean line (List.mem_cons_of_mem _ hl)) p hp

end SocialActivities.Lib.ContentLines
