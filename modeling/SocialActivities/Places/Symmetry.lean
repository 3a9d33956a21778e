import SocialActivities.Places.Matching

/-!
# `SocialActivities.Places.Symmetry`: the order of two names

A new place is compared with one that is there, and the name of the one that is there comes first. The
matching blocks of two names depend on which of them comes first (`order_matters`): of two longest blocks the
earliest one in the first name is taken. They do not where no part has two longest blocks, and the decision
does not where one common block is enough for it or no common subsequence is (`sameName_comm`).
-/

namespace SocialActivities.Places

open Lib

variable {a b : Text}

/-! ### Names that are shorter than the heuristic looks at -/

theorem not_popular (h : b.length < 200) (r : Char) : Py.popular b r = false := by
  unfold Py.popular
  rw [Bool.and_eq_false_iff, decide_eq_false_iff_not]
  exact Or.inl (by omega)

theorem plain_eq_same (h : b.length < 200) : plain a b = same a b := by
  funext i j
  simp [plain, same, not_popular h]

theorem same_swap (a b : Text) : (fun j i => same a b i j) = same b a := by
  funext j i
  exact propext ⟨fun ⟨r, ha, hb⟩ => ⟨r, hb, ha⟩, fun ⟨r, hb, ha⟩ => ⟨r, ha, hb⟩⟩

theorem matching_of_short (h : b.length < 200) :
    Matching (same a b) (same a b) (whole a b) (Py.matchingBlocks a b) := by
  have hm := matchingBlocks_matching a b
  rw [plain_eq_same h] at hm
  exact hm

theorem total_comm (ha : a.length < 200) (hb : b.length < 200) (ht : Tieless (same a b) (same a b) (whole a b)) :
    total (Py.matchingBlocks b a) = total (Py.matchingBlocks a b) := by
  have hswap := (matching_of_short hb).swap ht
  rw [same_swap] at hswap
  have hsame := (matching_of_short ha).unique hswap
  rw [hsame, total_swap]

/-! ### A bound below, and one above -/

theorem size_le_total (hb : b.length < 200) {x : Block} (hx : Candidate (same a b) (whole a b) x) :
    x.size ≤ total (Py.matchingBlocks a b) := by
  have hm := matching_of_short (a := a) hb
  revert hm
  generalize Py.matchingBlocks a b = blocks
  intro hm
  cases hm with
  | @none _ z y hlongest hextended hempty =>
    have hle := hlongest.size_le x hx
    have hafter := hextended.after
    have hbefore := hextended.before
    omega
  | @some _ z y before behind hlongest hextended _ _ _ =>
    have hle := hlongest.size_le x hx
    have hafter := hextended.after
    have hbefore := hextended.before
    rw [total_append]
    omega

/-- The runes of a text from one position up to another. -/
def slice (s : Text) (lo hi : Nat) : Text := (s.take hi).drop lo

theorem slice_split {s : Text} {lo mid hi : Nat} (h1 : lo ≤ mid) (h2 : mid ≤ hi) :
    slice s lo hi = slice s lo mid ++ slice s mid hi := by
  unfold slice
  rw [List.drop_take, List.drop_take, List.drop_take]
  have hmid : s.drop mid = (s.drop lo).drop (mid - lo) := by rw [List.drop_drop, Nat.add_sub_cancel' h1]
  have hlength : hi - lo = (mid - lo) + (hi - mid) := by omega
  rw [hmid, hlength, List.take_add]

theorem slice_of_same {x : Block} (h : ∀ d < x.size, same a b (x.i + d) (x.j + d)) :
    slice a x.i (x.i + x.size) = slice b x.j (x.j + x.size) ∧ (slice a x.i (x.i + x.size)).length = x.size := by
  unfold slice
  rw [List.drop_take, List.drop_take, Nat.add_sub_cancel_left, Nat.add_sub_cancel_left]
  have hget : ∀ d : Nat, ((a.drop x.i).take x.size)[d]? = ((b.drop x.j).take x.size)[d]? := by
    intro d
    rw [List.getElem?_take, List.getElem?_take, List.getElem?_drop, List.getElem?_drop]
    split
    · next hd =>
      have ⟨r, hra, hrb⟩ := h d hd
      rw [hra, hrb]
    · rfl
  refine ⟨List.ext_getElem? hget, ?_⟩
  rw [List.length_take, List.length_drop]
  by_cases hzero : x.size = 0
  · omega
  · have ⟨r, hra, _⟩ := h (x.size - 1) (by omega)
    have hlt := (List.getElem?_eq_some_iff.mp hra).1
    omega

theorem exists_common {w : Region} {xs : List Block} (hm : Matching (plain a b) (same a b) w xs) :
    ∃ s : Text, s.length = total xs ∧ s.Sublist (slice a w.alo w.ahi) ∧ s.Sublist (slice b w.blo w.bhi) := by
  induction hm with
  | none => exact ⟨[], rfl, List.nil_sublist _, List.nil_sublist _⟩
  | @some w x y before behind _ hextended _ _ _ ihleft ihright =>
    have ⟨s, hs, hsa, hsb⟩ := ihleft
    have ⟨t, ht, hta, htb⟩ := ihright
    have ⟨h1, h2, h3, h4⟩ := hextended.inside
    have ⟨hequal, hlength⟩ := slice_of_same hextended.matched
    refine ⟨s ++ (slice a y.i (y.i + y.size) ++ t), ?_, ?_, ?_⟩
    · rw [List.length_append, List.length_append, hs, ht, hlength, total_append]
      omega
    · rw [slice_split h1 (by omega), slice_split (Nat.le_add_right y.i y.size) h2]
      exact hsa.append ((List.Sublist.refl _).append hta)
    · rw [slice_split h3 (by omega), slice_split (Nat.le_add_right y.j y.size) h4, hequal]
      exact hsb.append ((List.Sublist.refl _).append htb)

theorem exists_common_whole (a b : Text) :
    ∃ s : Text, s.length = total (Py.matchingBlocks a b) ∧ s.Sublist a ∧ s.Sublist b := by
  have ⟨s, hs, ha, hb⟩ := exists_common (matchingBlocks_matching a b)
  have hwhole : ∀ t : Text, slice t 0 t.length = t := fun t => by simp [slice]
  simp only [whole, hwhole] at ha hb
  exact ⟨s, hs, ha, hb⟩

/-! ### The decision -/

/-- `n` common runes are enough. -/
def Enough (a b : Text) (n : Nat) : Prop := 82 / 100 ≤ quotient n a b

theorem quotient_comm (n : Nat) (a b : Text) : quotient n a b = quotient n b a := by
  unfold quotient
  rw [add_comm]

theorem quotient_mono {m n : Nat} (h : m ≤ n) (a b : Text) : quotient m a b ≤ quotient n a b := by
  unfold quotient
  have hcast : (m : ℚ) ≤ n := by exact_mod_cast h
  gcongr

/-- The order of two texts does not matter: no part of them has two longest blocks, or one block is enough, or
no common subsequence is. The first two are about texts that are too short for the heuristic. -/
inductive Indifferent (a b : Text) : Prop where
  | tieless (first : a.length < 200) (second : b.length < 200)
      (ties : Tieless (same a b) (same a b) (whole a b))
  | enough (first : a.length < 200) (second : b.length < 200) (x : Block)
      (block : Candidate (same a b) (whole a b) x) (reaches : Enough a b x.size)
  | tooFew (short : ∀ s : Text, s.Sublist a → s.Sublist b → ¬Enough a b s.length)

theorem enough_comm (h : Indifferent a b) :
    82 / 100 ≤ Py.ratio a b ↔ 82 / 100 ≤ Py.ratio b a := by
  have hcomm := quotient_comm (total (Py.matchingBlocks b a)) b a
  unfold Py.ratio
  rw [hcomm]
  cases h with
  | tieless first second ties => rw [total_comm first second ties]
  | enough first second x block reaches =>
    have hab := size_le_total second block
    have hswapped : Candidate (same b a) (whole b a) x.swap := same_swap a b ▸ block.swap
    have hba := size_le_total first hswapped
    exact ⟨fun _ => le_trans reaches (quotient_mono hba a b), fun _ => le_trans reaches (quotient_mono hab a b)⟩
  | tooFew short =>
    have ⟨s, hs, hsa, hsb⟩ := exists_common_whole a b
    have ⟨t, ht, htb, hta⟩ := exists_common_whole b a
    exact ⟨fun h => absurd (hs ▸ h) (short s hsa hsb), fun h => absurd (ht ▸ h) (short t hta htb)⟩

theorem decision_comm (h : Indifferent a b) :
    82 / 100 ≤ (if a.isEmpty || b.isEmpty then 0 else if a = b then 1 else Py.ratio a b) ↔
      82 / 100 ≤ (if b.isEmpty || a.isEmpty then 0 else if b = a then 1 else Py.ratio b a) := by
  rw [Bool.or_comm b.isEmpty]
  split
  · exact Iff.rfl
  · by_cases hequal : a = b
    · subst hequal
      exact Iff.rfl
    · rw [if_neg hequal, if_neg (Ne.symm hequal)]
      exact enough_comm h

/-- Whether two named places count as the same does not depend on which of them was there first, where the order
of their normalised names does not matter. -/
theorem sameName_comm (u : NameTables) (x y : Text) (hx : Feeds.strip x ≠ []) (hy : Feeds.strip y ≠ []) :
    (Indifferent (normalizePlaceName u x) (normalizePlaceName u y) → sameName u x y = sameName u y x) ∧
      (Indifferent (Py.normalizeName u x) (Py.normalizeName u y) → Py.sameName u x y = Py.sameName u y x) := by
  constructor
  · intro h
    have hcomm := decision_comm h
    unfold sameName
    rw [placeNameSimilarity_eq, placeNameSimilarity_eq]
    simp only [Option.any_some]
    exact decide_eq_decide.mpr hcomm
  · intro h
    have hcomm := decision_comm h
    have hnamed : ∀ {s : Text}, s ≠ [] → s.isEmpty = false := fun hs => by simpa using hs
    unfold Py.sameName
    rw [hnamed hx, hnamed hy]
    exact congrArg _ (decide_eq_decide.mpr hcomm)

/-! ### Names of ASCII letters -/

/-- The tables, as far as ASCII goes. -/
def NameTables.ascii : NameTables where
  nfkd := id
  toLower := Char.toLower
  lower := List.map Char.toLower
  isMark _ := false
  isLetter := Char.isAlpha
  isNumber := Char.isDigit
  combining _ := false
  isWord c := c.isAlphanum || c == '_'

/-- A library and the same one with the name of its town. -/
theorem sameName_comm_library :
    sameName .ascii "Central Library".toList "Central Library Cluj".toList =
        sameName .ascii "Central Library Cluj".toList "Central Library".toList ∧
      Py.sameName .ascii "Central Library".toList "Central Library Cluj".toList =
        Py.sameName .ascii "Central Library Cluj".toList "Central Library".toList := by
  have hgo : normalizePlaceName .ascii "Central Library".toList = "central library".toList ∧
      normalizePlaceName .ascii "Central Library Cluj".toList = "central library cluj".toList := by decide +kernel
  have hpy : Py.normalizeName .ascii "Central Library".toList = "central library".toList ∧
      Py.normalizeName .ascii "Central Library Cluj".toList = "central library cluj".toList := by decide +kernel
  have hblock : ∀ d < 15, Py.matches? "central library".toList "central library cluj".toList (0 + d) (0 + d) := by
    decide +kernel
  have hindifferent : Indifferent "central library".toList "central library cluj".toList := by
    refine .enough (by decide +kernel) (by decide +kernel) ⟨0, 0, 15⟩ ⟨?_, fun d hd => ?_⟩ ?_
    · exact ⟨by decide +kernel, by decide +kernel, by decide +kernel, by decide +kernel⟩
    · exact same_of_plain (matches?_iff.mp (hblock d hd))
    · unfold Enough
      decide +kernel
  have ⟨h1, h2⟩ := sameName_comm .ascii "Central Library".toList "Central Library Cluj".toList
    (by decide +kernel) (by decide +kernel)
  rw [hgo.1, hgo.2] at h1
  rw [hpy.1, hpy.2] at h2
  exact ⟨h1 hindifferent, h2 hindifferent⟩

/-- Two cafes whose names end in the same letters: they count as the same place in one order only. -/
theorem order_matters :
    sameName .ascii "Cafe Bar Tide".toList "Cafe Bar Diet".toList = false ∧
      sameName .ascii "Cafe Bar Diet".toList "Cafe Bar Tide".toList = true ∧
      Py.sameName .ascii "Cafe Bar Tide".toList "Cafe Bar Diet".toList = false ∧
      Py.sameName .ascii "Cafe Bar Diet".toList "Cafe Bar Tide".toList = true := by
  decide +kernel

end SocialActivities.Places
