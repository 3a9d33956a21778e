import Mathlib.Data.List.Basic

/-!
# `SocialActivities.Lib.Climb`: walks along a parent pointer

A walk starts at a node and follows its parents for at most a number of steps. The chain may end in
a cycle. `climb` goes around a cycle until its steps are used up; `climbOnce` keeps the nodes that it
has seen and stops where the next one is among them.

`mem_climbOnce_iff`: with one bound both meet the same nodes.
-/

namespace SocialActivities.Lib.Climb

variable {α : Type} [DecidableEq α] (parent : α → Option α)

/-- The first `n` nodes of the walk from a node. -/
def climb : Nat → α → List α
  | 0, _ => []
  | n + 1, a => a :: (match parent a with
    | none => []
    | some b => climb n b)

/-- The node and at most `n` more, none of them twice. `seen` are the nodes so far. -/
def climbOnce : Nat → List α → α → List α
  | 0, _, a => [a]
  | n + 1, seen, a => a :: (match parent a with
    | none => []
    | some b => if b ∈ seen then [] else climbOnce n (b :: seen) b)

variable {parent}

omit [DecidableEq α] in
theorem climb_subset {seen : List α} (hclosed : ∀ a ∈ seen, ∀ b, parent a = some b → b ∈ seen)
    (n : Nat) (a : α) (ha : a ∈ seen) : ∀ b ∈ climb parent n a, b ∈ seen := by
  induction n generalizing a with
  | zero =>
    intro b hb
    cases hb
  | succ n ih =>
    intro b hb
    rw [climb, List.mem_cons] at hb
    rcases hb with rfl | hb
    · exact ha
    · cases hparent : parent a with
      | none => simp [hparent] at hb
      | some c =>
        simp only [hparent] at hb
        exact ih c (hclosed a ha c hparent) b hb

theorem mem_climbOnce_or (n : Nat) (seen : List α) (a : α) (ha : a ∈ seen)
    (hseen : ∀ b ∈ seen, b ≠ a → ∀ c, parent b = some c → c ∈ seen) (b : α) :
    (b ∈ seen ∨ b ∈ climbOnce parent n seen a) ↔ (b ∈ seen ∨ b ∈ climb parent (n + 1) a) := by
  induction n generalizing seen a with
  | zero => simp only [climbOnce, climb]; cases parent a <;> simp
  | succ n ih =>
    rw [climbOnce, climb]
    cases hparent : parent a with
    | none => simp
    | some c =>
      simp only
      by_cases hc : c ∈ seen
      · -- The chain has come back: whatever `climb` still meets was seen.
        rw [if_pos hc]
        have hclosed : ∀ d ∈ seen, ∀ e, parent d = some e → e ∈ seen := by
          intro d hd e he
          by_cases hda : d = a
          · rw [hda, hparent] at he
            exact Option.some.inj he ▸ hc
          · exact hseen d hd hda e he
        constructor
        · rintro (hb | hb)
          · exact Or.inl hb
          · exact Or.inr (List.mem_cons.mpr (Or.inl (List.mem_singleton.mp hb)))
        · rintro (hb | hb)
          · exact Or.inl hb
          · rcases List.mem_cons.mp hb with rfl | hb
            · exact Or.inl ha
            · exact Or.inl (climb_subset hclosed (n + 1) c hc b hb)
      · rw [if_neg hc]
        have hlater := ih (c :: seen) c (List.mem_cons_self ..) (by
          intro d hd hdc e he
          rcases List.mem_cons.mp hd with rfl | hd
          · exact absurd rfl hdc
          · by_cases hda : d = a
            · rw [hda, hparent] at he
              exact Option.some.inj he ▸ List.mem_cons_self ..
            · exact List.mem_cons_of_mem c (hseen d hd hda e he))
        have hhead : b ∈ climb parent (n + 1) c ∨ b ≠ c := by
          by_cases hbc : b = c
          · exact Or.inl (by rw [hbc, climb]; exact List.mem_cons_self ..)
          · exact Or.inr hbc
        have hhead' : b ∈ climbOnce parent n (c :: seen) c ∨ b ≠ c := by
          by_cases hbc : b = c
          · refine Or.inl ?_
            rw [hbc]
            cases n <;> exact List.mem_cons_self ..
          · exact Or.inr hbc
        simp only [List.mem_cons] at hlater ⊢
        grind

theorem mem_climbOnce_iff (n : Nat) (a b : α) :
    b ∈ climbOnce parent n [a] a ↔ b ∈ climb parent (n + 1) a := by
  have hseen : ∀ d ∈ [a], d ≠ a → ∀ c, parent d = some c → c ∈ [a] := fun d hd hda =>
    absurd (List.mem_singleton.mp hd) hda
  have h := mem_climbOnce_or n [a] a (List.mem_singleton_self a) hseen b
  have hfirst : b ∈ [a] → b ∈ climbOnce parent n [a] a ∧ b ∈ climb parent (n + 1) a := by
    intro hb
    rw [List.mem_singleton.mp hb]
    refine ⟨?_, by rw [climb]; exact List.mem_cons_self ..⟩
    cases n <;> exact List.mem_cons_self ..
  by_cases hb : b ∈ [a]
  · exact iff_of_true (hfirst hb).1 (hfirst hb).2
  · simpa [hb] using h

end SocialActivities.Lib.Climb
