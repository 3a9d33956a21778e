import Mathlib.Data.Finset.Card

/-!
# `SocialActivities.Lib.Overlap`: pairs of sets that overlap

A family of finite sets, and the pairs of two members whose intersection has at least `n` elements.
`Shared` is the union of these intersections, over all such pairs.

A member that contains all of `Shared` need not exist: two pairs may overlap in different elements.
`covered_twice_iff` says when two members do: exactly when the intersections have a greatest one.
-/

namespace SocialActivities.Lib.Overlap

variable {ι α : Type} [DecidableEq α] (s : ι → Finset α) (n : Nat)

/-- Two members that have at least `n` elements in common. -/
def Pair (i j : ι) : Prop := i ≠ j ∧ n ≤ (s i ∩ s j).card

/-- Two such members have the element in common. -/
def Shared (x : α) : Prop := ∃ i j, Pair s n i j ∧ x ∈ s i ∩ s j

/-- A member that contains every element that two such members have in common. -/
def Covers (i : ι) : Prop := ∀ x, Shared s n x → x ∈ s i

/-- Two such members that have in common what any other two have. -/
def Greatest (i j : ι) : Prop := Pair s n i j ∧ ∀ k l, Pair s n k l → s k ∩ s l ⊆ s i ∩ s j

variable {s n}

theorem Greatest.covers {i j : ι} (h : Greatest s n i j) : Covers s n i ∧ Covers s n j := by
  constructor
  · intro x ⟨k, l, hpair, hx⟩
    exact (Finset.mem_inter.mp (h.2 k l hpair hx)).1
  · intro x ⟨k, l, hpair, hx⟩
    exact (Finset.mem_inter.mp (h.2 k l hpair hx)).2

/-- Where some pair overlaps, two members cover all that is shared exactly when the overlaps have a
greatest one. -/
theorem covered_twice_iff (hsome : ∃ i j, Pair s n i j) :
    (∃ i j, i ≠ j ∧ Covers s n i ∧ Covers s n j) ↔ ∃ i j, Greatest s n i j := by
  constructor
  · intro ⟨i, j, hne, hi, hj⟩
    have hgreatest : ∀ k l, Pair s n k l → s k ∩ s l ⊆ s i ∩ s j := by
      intro k l hpair x hx
      exact Finset.mem_inter.mpr ⟨hi x ⟨k, l, hpair, hx⟩, hj x ⟨k, l, hpair, hx⟩⟩
    -- The two members contain some overlap, so they overlap themselves.
    have ⟨k, l, hpair⟩ := hsome
    exact ⟨i, j, ⟨hne, hpair.2.trans (Finset.card_le_card (hgreatest k l hpair))⟩, hgreatest⟩
  · intro ⟨i, j, h⟩
    exact ⟨i, j, h.1.1, h.covers.1, h.covers.2⟩

end SocialActivities.Lib.Overlap
