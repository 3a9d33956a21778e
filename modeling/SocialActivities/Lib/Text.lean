import Mathlib.Data.List.Lex
import Mathlib.Data.Char
import Mathlib.Data.Prod.Lex

/-!
# `SocialActivities.Lib.Text`: UTF-8, the order of code points, and hexadecimal digits

`utf8 s` is the UTF-8 encoding of a text, as a list of byte values. Byte order and code point
order are the same order of texts (`utf8_le_utf8`): the first byte grows with the length of an
encoded character, and within one length the bytes are the digits of the code point.

`hexPad k n` writes the last `k` hexadecimal digits of a number in lower case.
-/

namespace SocialActivities.Lib

/-- The UTF-8 bytes of a character. -/
def utf8Char (c : Char) : List Nat :=
  if c.toNat < 128 then [c.toNat]
  else if c.toNat < 2048 then [192 + c.toNat / 64, 128 + c.toNat % 64]
  else if c.toNat < 65536 then
    [224 + c.toNat / 4096, 128 + c.toNat / 64 % 64, 128 + c.toNat % 64]
  else
    [240 + c.toNat / 262144, 128 + c.toNat / 4096 % 64, 128 + c.toNat / 64 % 64,
      128 + c.toNat % 64]

/-- The UTF-8 bytes of a text. -/
def utf8 (s : List Char) : List Nat := s.flatMap utf8Char

theorem utf8_cons (c : Char) (s : List Char) : utf8 (c :: s) = utf8Char c ++ utf8 s := rfl

theorem utf8Char_append_lt {c d : Char} (h : c < d) (x y : List Nat) :
    utf8Char c ++ x < utf8Char d ++ y := by
  have hlt : c.toNat < d.toNat := h
  unfold utf8Char
  generalize c.toNat = m at hlt ⊢
  generalize d.toNat = n at hlt ⊢
  -- The lengths of the two characters are the cases; a longer one is never the smaller.
  split_ifs <;> simp only [List.cons_append, List.nil_append, List.cons_lt_cons_iff] <;> omega

theorem append_lt_append_iff (p x y : List Nat) : p ++ x < p ++ y ↔ x < y := by
  induction p with
  | nil => exact Iff.rfl
  | cons a p ih =>
    rw [List.cons_append, List.cons_append, List.cons_lt_cons_iff, ih]
    simp

theorem nil_lt_utf8 (c : Char) (s : List Char) : [] < utf8 (c :: s) := by
  rw [utf8_cons, utf8Char]
  split_ifs <;> exact List.nil_lt_cons _ _

theorem utf8_lt_utf8 (s t : List Char) : utf8 s < utf8 t ↔ s < t := by
  induction s generalizing t with
  | nil =>
    cases t with
    | nil => exact ⟨fun h => absurd h (List.lt_irrefl _), fun h => absurd h (List.lt_irrefl _)⟩
    | cons d t => exact ⟨fun _ => List.nil_lt_cons d t, fun _ => nil_lt_utf8 d t⟩
  | cons c s ih =>
    cases t with
    | nil => exact ⟨fun h => absurd h (List.not_lt_nil _), fun h => absurd h (List.not_lt_nil _)⟩
    | cons d =>
      rw [List.cons_lt_cons_iff, utf8_cons, utf8_cons]
      rcases lt_trichotomy c d with h | rfl | h
      · exact ⟨fun _ => Or.inl h, fun _ => utf8Char_append_lt h _ _⟩
      · rw [append_lt_append_iff, ih]
        simp
      · constructor
        · intro hlt
          exact absurd (utf8Char_append_lt h _ _) (lt_asymm hlt)
        · rintro (hlt | ⟨rfl, _⟩)
          · exact absurd h (lt_asymm hlt)
          · exact absurd h (lt_irrefl c)

theorem utf8_le_utf8 (s t : List Char) : utf8 s ≤ utf8 t ↔ s ≤ t := by
  rw [← not_lt, ← not_lt, utf8_lt_utf8]

theorem utf8_injective : Function.Injective utf8 := by
  intro s t h
  exact le_antisymm ((utf8_le_utf8 s t).mp (le_of_eq h)) ((utf8_le_utf8 t s).mp (le_of_eq h.symm))

/-! ### Hexadecimal digits -/

def hexChar (n : Nat) : Char :=
  ['0', '1', '2', '3', '4', '5', '6', '7', '8', '9', 'a', 'b', 'c', 'd', 'e', 'f'].getD n '0'

/-- The last `k` hexadecimal digits of a number. -/
def hexPad : Nat → Nat → List Char
  | 0, _ => []
  | k + 1, n => hexPad k (n / 16) ++ [hexChar (n % 16)]

/-- The value of a hexadecimal digit. -/
def hexValue (c : Char) : Nat := if c.isDigit then c.toNat - 48 else c.toNat - 87

theorem length_hexPad (k n : Nat) : (hexPad k n).length = k := by
  induction k generalizing n with
  | zero => rfl
  | succ k ih => rw [hexPad, List.length_append, ih]; rfl

theorem exists_hexChar_of_mem_hexPad {k n : Nat} {c : Char} (h : c ∈ hexPad k n) :
    ∃ m < 16, c = hexChar m := by
  induction k generalizing n with
  | zero => cases h
  | succ k ih =>
    rcases List.mem_append.mp h with hinit | hlast
    · exact ih hinit
    · exact ⟨n % 16, Nat.mod_lt n (by decide), List.mem_singleton.mp hlast⟩

theorem hexValue_hexChar {n : Nat} (h : n < 16) : hexValue (hexChar n) = n := by
  have hall : ∀ m : Fin 16, hexValue (hexChar m.val) = m.val := by decide
  exact hall ⟨n, h⟩

end SocialActivities.Lib
