import SocialActivities.Lib.Json

/-!
# `SocialActivities.Lib.JsonText`: the compact text of a JSON document

`print quote num` writes a document without white space, with `quote` for strings and names and
`num` for numbers. The text is unambiguous when its strings and numbers are: `quote` must end by
itself, a number only before a character that ends a value (`Unambiguous`). Then equal texts have
equal documents (`print_inj`).

A value shows its kind in its first character, so two values of one text are of one kind, and
the induction is on one of them.
-/

namespace SocialActivities.Lib.Json

variable {ν μ : Type}

section Print

variable (quote : List Char → List Char) (num : ν → List Char)

/-- The comma before an item that is not the first. -/
def comma (first : Bool) : List Char := if first then [] else [',']

mutual

/-- The text of a document, without white space. -/
def print : Json ν → List Char
  | .null => ['n', 'u', 'l', 'l']
  | .bool true => ['t', 'r', 'u', 'e']
  | .bool false => ['f', 'a', 'l', 's', 'e']
  | .number n => num n
  | .string s => quote s
  | .array items => '[' :: printItems true items
  | .object fields => '\x7b' :: printFields true fields

def printItems (first : Bool) : List (Json ν) → List Char
  | [] => [']']
  | d :: ds => comma first ++ print d ++ printItems false ds

def printFields (first : Bool) : List (List Char × Json ν) → List Char
  | [] => ['\x7d']
  | (k, d) :: fs => comma first ++ quote k ++ ':' :: print d ++ printFields false fs

end

end Print

theorem print_map (quote : List Char → List Char) (num : μ → List Char) (f : ν → μ)
    (d : Json ν) : print quote num (map f d) = print quote (fun n => num (f n)) d := by
  induction d using induction with
  | null => rfl
  | bool b => cases b <;> rfl
  | number | string => rfl
  | array items ih =>
    have hitems : ∀ first, printItems quote num first (mapItems f items)
        = printItems quote (fun n => num (f n)) first items := by
      induction items with
      | nil => intro first; rfl
      | cons d ds ihds =>
        intro first
        obtain ⟨hd, hds⟩ := List.forall_mem_cons.mp ih
        simp only [mapItems, printItems, hd, ihds hds]
    simp only [map, print, hitems]
  | object fields ih =>
    have hfields : ∀ first, printFields quote num first (mapFields f fields)
        = printFields quote (fun n => num (f n)) first fields := by
      induction fields with
      | nil => intro first; rfl
      | cons p fs ihfs =>
        intro first
        obtain ⟨hd, hds⟩ := List.forall_mem_cons.mp ih
        simp only [mapFields, printFields, hd, ihfs hds]
    simp only [map, print, hfields]

/-! ### Unambiguous texts -/

/-- The kind of a value that starts with a character. A number may start with every character
that starts no other value and ends none. -/
def leadKind (c : Char) : Nat :=
  if c = 'n' then 0
  else if c = 't' ∨ c = 'f' then 1
  else if c = '"' then 3
  else if c = '[' then 4
  else if c = '\x7b' then 5
  else if c = ',' ∨ c = ']' ∨ c = '\x7d' then 6
  else 2

def kind : Json ν → Nat
  | .null => 0
  | .bool _ => 1
  | .number _ => 2
  | .string _ => 3
  | .array _ => 4
  | .object _ => 5

/-- The text ends, or goes on with a character that ends a value. -/
def Stops : List Char → Prop
  | [] => True
  | c :: _ => c = ',' ∨ c = ']' ∨ c = '\x7d'

/-- Strings and numbers that can be told apart where they stand in a document. -/
structure Unambiguous (quote : List Char → List Char) (num : ν → List Char) : Prop where
  quote_lead : ∀ s, ∃ cs, quote s = '"' :: cs
  quote_inj : ∀ {s t r r'}, quote s ++ r = quote t ++ r' → s = t ∧ r = r'
  num_lead : ∀ n, ∃ c cs, num n = c :: cs ∧ leadKind c = 2
  num_inj : ∀ {n m r r'}, Stops r → Stops r' → num n ++ r = num m ++ r' → n = m ∧ r = r'

variable {quote : List Char → List Char} {num : ν → List Char}

theorem leadKind_number {c : Char} (h : c = '-' ∨ c.isDigit = true) : leadKind c = 2 := by
  rcases h with rfl | hdigit
  · rfl
  · have hne : ∀ d : Char, d.isDigit = false → c ≠ d := by
      rintro d hd rfl
      rw [hdigit] at hd
      cases hd
    have hbool : ¬(c = 't' ∨ c = 'f') := not_or.mpr ⟨hne 't' rfl, hne 'f' rfl⟩
    have hend : ¬(c = ',' ∨ c = ']' ∨ c = '\x7d') :=
      not_or.mpr ⟨hne ',' rfl, not_or.mpr ⟨hne ']' rfl, hne '\x7d' rfl⟩⟩
    unfold leadKind
    rw [if_neg (hne 'n' rfl), if_neg hbool, if_neg (hne '"' rfl), if_neg (hne '[' rfl),
      if_neg (hne '\x7b' rfl), if_neg hend]

theorem print_lead (h : Unambiguous quote num) (d : Json ν) :
    ∃ c cs, print quote num d = c :: cs ∧ leadKind c = kind d := by
  cases d with
  | null => exact ⟨'n', _, rfl, rfl⟩
  | bool b => cases b with
    | true => exact ⟨'t', _, rfl, rfl⟩
    | false => exact ⟨'f', _, rfl, rfl⟩
  | number n =>
    obtain ⟨c, cs, hnum, hc⟩ := h.num_lead n
    exact ⟨c, cs, hnum, hc⟩
  | string s =>
    obtain ⟨cs, hquote⟩ := h.quote_lead s
    exact ⟨'"', cs, hquote, rfl⟩
  | array => exact ⟨'[', _, rfl, rfl⟩
  | object => exact ⟨'\x7b', _, rfl, rfl⟩

variable {r' r : List Char} {d : Json ν}

theorem kind_eq (h : Unambiguous quote num) {e : Json ν}
    (heq : print quote num d ++ r = print quote num e ++ r') : kind d = kind e := by
  obtain ⟨c, cs, hd, hc⟩ := print_lead h d
  obtain ⟨c', cs', he, hc'⟩ := print_lead h e
  rw [hd, he, List.cons_append, List.cons_append] at heq
  rw [← hc, ← hc', (List.cons.inj heq).1]

theorem print_ne_cons (h : Unambiguous quote num) {c : Char}
    (hc : leadKind c = 6) : print quote num d ++ r ≠ c :: r' := by
  obtain ⟨c', cs, hd, hkind⟩ := print_lead h d
  intro heq
  rw [hd, List.cons_append] at heq
  rw [(List.cons.inj heq).1, hc] at hkind
  cases d <;> cases hkind

theorem stops_printItems (ds : List (Json ν)) (r : List Char) :
    Stops (printItems quote num false ds ++ r) := by
  cases ds with
  | nil => exact Or.inr (Or.inl rfl)
  | cons => exact Or.inl rfl

theorem stops_printFields (fs : List (List Char × Json ν)) (r : List Char) :
    Stops (printFields quote num false fs ++ r) := by
  cases fs with
  | nil => exact Or.inr (Or.inr rfl)
  | cons => exact Or.inl rfl

theorem printItems_cons (first : Bool) (d : Json ν) (ds : List (Json ν)) (r : List Char) :
    printItems quote num first (d :: ds) ++ r
      = comma first ++ (print quote num d ++ (printItems quote num false ds ++ r)) := by
  simp only [printItems, List.append_assoc]

theorem printFields_cons (first : Bool) (k : List Char) (d : Json ν)
    (fs : List (List Char × Json ν)) (r : List Char) :
    printFields quote num first ((k, d) :: fs) ++ r
      = comma first ++ (quote k ++ ':' :: (print quote num d
          ++ (printFields quote num false fs ++ r))) := by
  simp only [printFields, List.append_assoc, List.cons_append]

theorem printItems_nil_ne (h : Unambiguous quote num) (first : Bool) (d : Json ν)
    (ds : List (Json ν)) (r r' : List Char) :
    printItems quote num first (d :: ds) ++ r ≠ printItems quote num first [] ++ r' := by
  rw [printItems_cons]
  cases first with
  | true => exact print_ne_cons h (by decide)
  | false => intro heq; exact absurd (List.cons.inj heq).1 (by decide)

theorem printFields_nil_ne (h : Unambiguous quote num) (first : Bool)
    (p : List Char × Json ν) (fs : List (List Char × Json ν)) (r r' : List Char) :
    printFields quote num first (p :: fs) ++ r ≠ printFields quote num first [] ++ r' := by
  obtain ⟨k, d⟩ := p
  rw [printFields_cons]
  intro heq
  cases first with
  | true =>
    obtain ⟨cs, hquote⟩ := h.quote_lead k
    rw [hquote] at heq
    exact absurd (List.cons.inj heq).1 (by decide)
  | false => exact absurd (List.cons.inj heq).1 (by decide)

/-- The text of `d` is the text of no other document, whatever ends the two. -/
def Separated (quote : List Char → List Char) (num : ν → List Char) (d : Json ν) : Prop :=
  ∀ ⦃e : Json ν⦄ ⦃r r' : List Char⦄, Stops r → Stops r' →
    print quote num d ++ r = print quote num e ++ r' → d = e ∧ r = r'

/-- Items that are separated each are separated as a list: two equal texts go through the same
items, and the closing bracket ends both. -/
theorem printItems_append_inj (h : Unambiguous quote num) {items items' : List (Json ν)}
    {first : Bool} (hitems : ∀ d ∈ items, Separated quote num d)
    (heq : printItems quote num first items ++ r = printItems quote num first items' ++ r') :
    items = items' ∧ r = r' := by
  induction items generalizing first items' with
  | nil =>
    cases items' with
    | nil => exact ⟨rfl, List.append_cancel_left heq⟩
    | cons e es => exact absurd heq.symm (printItems_nil_ne h first e es r' r)
  | cons d ds ih =>
    obtain ⟨hd, hds⟩ := List.forall_mem_cons.mp hitems
    cases items' with
    | nil => exact absurd heq (printItems_nil_ne h first d ds r r')
    | cons e es =>
      rw [printItems_cons, printItems_cons] at heq
      -- What follows an item is a comma or the bracket, so it stops the item's text.
      obtain ⟨rfl, hrest⟩ := hd (stops_printItems ds r) (stops_printItems es r')
        (List.append_cancel_left heq)
      obtain ⟨rfl, hend⟩ := ih hds hrest
      exact ⟨rfl, hend⟩

theorem printFields_append_inj (h : Unambiguous quote num)
    {fields fields' : List (List Char × Json ν)} {first : Bool}
    (hfields : ∀ p ∈ fields, Separated quote num p.2)
    (heq : printFields quote num first fields ++ r
      = printFields quote num first fields' ++ r') :
    fields = fields' ∧ r = r' := by
  induction fields generalizing first fields' with
  | nil =>
    cases fields' with
    | nil => exact ⟨rfl, List.append_cancel_left heq⟩
    | cons q es => exact absurd heq.symm (printFields_nil_ne h first q es r' r)
  | cons p fs ih =>
    obtain ⟨hd, hfs⟩ := List.forall_mem_cons.mp hfields
    obtain ⟨k, d⟩ := p
    cases fields' with
    | nil => exact absurd heq (printFields_nil_ne h first (k, d) fs r r')
    | cons q es =>
      obtain ⟨k', e⟩ := q
      rw [printFields_cons, printFields_cons] at heq
      -- The key is delimited by itself, the value by what follows it.
      obtain ⟨rfl, hvalue⟩ := h.quote_inj (List.append_cancel_left heq)
      obtain ⟨rfl, hrest⟩ := hd (stops_printFields fs r) (stops_printFields es r')
        (List.cons.inj hvalue).2
      obtain ⟨rfl, hend⟩ := ih hfs hrest
      exact ⟨rfl, hend⟩

theorem separated (h : Unambiguous quote num) (d : Json ν) : Separated quote num d := by
  induction d using induction with
  | null =>
    intro e r r' _ _ heq
    have hkind := kind_eq h heq
    cases e with
    | null => exact ⟨rfl, List.append_cancel_left heq⟩
    | _ => cases hkind
  | bool b =>
    intro e r r' _ _ heq
    have hkind := kind_eq h heq
    cases e with
    | bool b' => cases b <;> cases b' <;> simp_all [print]
    | _ => cases hkind
  | number =>
    intro e r r' hr hr' heq
    have hkind := kind_eq h heq
    cases e with
    | number =>
      obtain ⟨rfl, hrest⟩ := h.num_inj hr hr' heq
      exact ⟨rfl, hrest⟩
    | _ => cases hkind
  | string =>
    intro e r r' _ _ heq
    have hkind := kind_eq h heq
    cases e with
    | string =>
      obtain ⟨rfl, hrest⟩ := h.quote_inj heq
      exact ⟨rfl, hrest⟩
    | _ => cases hkind
  | array items ih =>
    intro e r r' _ _ heq
    have hkind := kind_eq h heq
    cases e with
    | array =>
      obtain ⟨rfl, hend⟩ := printItems_append_inj h ih (List.cons.inj heq).2
      exact ⟨rfl, hend⟩
    | _ => cases hkind
  | object fields ih =>
    intro e r r' _ _ heq
    have hkind := kind_eq h heq
    cases e with
    | object =>
      obtain ⟨rfl, hend⟩ := printFields_append_inj h ih (List.cons.inj heq).2
      exact ⟨rfl, hend⟩
    | _ => cases hkind

theorem print_inj (h : Unambiguous quote num) {e : Json ν}
    (heq : print quote num d = print quote num e) : d = e :=
  (separated h d (show Stops [] from trivial) (show Stops [] from trivial)
    (congrArg (· ++ []) heq)).1

end SocialActivities.Lib.Json
