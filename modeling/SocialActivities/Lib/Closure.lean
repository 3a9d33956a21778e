import Mathlib.Data.Set.Lattice
import Mathlib.Logic.Relation

/-!
# `SocialActivities.Lib.Closure`: what goes along with a set

Where `follows a b` says that `b` goes when `a` goes, `Reach follows s` is what goes along with `s`: the least
set around `s` that is closed. A search that removes the reach of one part after the other ends with the reach
of the whole (`reach_union`), also when it leaves out what is gone already (`union_reach_sdiff`), and the reach
of a set is the set with the reach of its successors (`reach_eq`).
-/

namespace SocialActivities.Lib

variable {κ : Type} {follows : κ → κ → Prop} {g s t : Set κ}

/-- What goes along with a set. -/
def Reach (follows : κ → κ → Prop) (s : Set κ) : Set κ :=
  {b | ∃ a ∈ s, Relation.ReflTransGen follows a b}

/-- Whatever follows an element is in the set as well. -/
def Closed (follows : κ → κ → Prop) (g : Set κ) : Prop := ∀ a b, follows a b → a ∈ g → b ∈ g

/-- What follows an element of the set. -/
def successors (follows : κ → κ → Prop) (s : Set κ) : Set κ := {b | ∃ a ∈ s, follows a b}

theorem subset_reach : s ⊆ Reach follows s := fun a ha => ⟨a, ha, .refl⟩

theorem closed_reach (s : Set κ) : Closed follows (Reach follows s) :=
  fun _ _ hab ⟨c, hc, hca⟩ => ⟨c, hc, hca.tail hab⟩

theorem Closed.union (hg : Closed follows g) (hs : Closed follows s) : Closed follows (g ∪ s) := by
  intro a b hab ha
  cases ha with
  | inl ha => exact .inl (hg a b hab ha)
  | inr ha => exact .inr (hs a b hab ha)

theorem Closed.reach_subset (hg : Closed follows g) (hs : s ⊆ g) : Reach follows s ⊆ g := by
  intro b ⟨a, ha, hab⟩
  induction hab with
  | refl => exact hs ha
  | tail _ hbc ih => exact hg _ _ hbc ih

theorem reach_mono (h : s ⊆ t) : Reach follows s ⊆ Reach follows t :=
  fun _ ⟨a, ha, hab⟩ => ⟨a, h ha, hab⟩

theorem reach_union : Reach follows (s ∪ t) = Reach follows s ∪ Reach follows t := by
  apply Set.Subset.antisymm
  · exact ((closed_reach s).union (closed_reach t)).reach_subset (Set.union_subset_union subset_reach subset_reach)
  · exact Set.union_subset (reach_mono Set.subset_union_left) (reach_mono Set.subset_union_right)

theorem reach_empty : Reach follows (∅ : Set κ) = ∅ :=
  Set.eq_empty_of_forall_notMem fun _ ⟨_, ha, _⟩ => ha

theorem Closed.union_reach_sdiff (hg : Closed follows g) :
    g ∪ Reach follows {a | a ∈ s ∧ a ∉ g} = g ∪ Reach follows s := by
  apply Set.Subset.antisymm
  · exact Set.union_subset_union_right g (reach_mono fun a ha => ha.1)
  · refine Set.union_subset Set.subset_union_left ?_
    refine (hg.union (closed_reach _)).reach_subset fun a ha => ?_
    by_cases hag : a ∈ g
    · exact .inl hag
    · exact .inr (subset_reach ⟨ha, hag⟩)

theorem reach_eq (s : Set κ) : Reach follows s = s ∪ Reach follows (successors follows s) := by
  apply Set.Subset.antisymm
  · intro b ⟨a, ha, hab⟩
    cases hab.cases_head with
    | inl heq => exact .inl (heq ▸ ha)
    | inr hstep =>
      have ⟨c, hac, hcb⟩ := hstep
      exact .inr ⟨c, ⟨a, ha, hac⟩, hcb⟩
  · refine Set.union_subset subset_reach ?_
    exact (closed_reach s).reach_subset fun b ⟨a, ha, hab⟩ => closed_reach s a b hab (subset_reach ha)

end SocialActivities.Lib
