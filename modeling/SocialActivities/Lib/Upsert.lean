import Mathlib.Data.List.Basic

/-!
# `SocialActivities.Lib.Upsert`: update a row of a list, or add one

`upsert` updates the first row that matches, and adds a new row where none does.
-/

namespace SocialActivities.Lib

variable {ρ : Type}

/-- Update the first row that matches, or add the new one. -/
def upsert (matched : ρ → Bool) (update : ρ → ρ) (new : ρ) : List ρ → List ρ
  | [] => [new]
  | r :: rs => if matched r then update r :: rs else r :: upsert matched update new rs

variable {p : ρ → Bool} {f : ρ → ρ} {new : ρ} {rows : List ρ}

variable {holds : ρ → Prop}

theorem forall_upsert (hrows : ∀ r ∈ rows, holds r)
    (hupdate : ∀ r ∈ rows, p r = true → holds (f r)) (hnew : holds new) :
    ∀ r ∈ upsert p f new rows, holds r := by
  induction rows with
  | nil => exact fun r hr => List.mem_singleton.mp hr ▸ hnew
  | cons r rs ih =>
    have hrest := ih (fun q hq => hrows q (List.mem_cons_of_mem _ hq))
      fun q hq => hupdate q (List.mem_cons_of_mem _ hq)
    rw [upsert]
    split
    · next hp =>
      exact List.forall_mem_cons.mpr
        ⟨hupdate r List.mem_cons_self hp, fun q hq => hrows q (List.mem_cons_of_mem _ hq)⟩
    · exact List.forall_mem_cons.mpr ⟨hrows r List.mem_cons_self, hrest⟩

theorem exists_upsert (h : ∃ r ∈ rows, holds r)
    (hupdate : ∀ r ∈ rows, p r = true → holds r → holds (f r)) : ∃ r ∈ upsert p f new rows, holds r := by
  induction rows with
  | nil =>
    have ⟨_, hr, _⟩ := h
    exact absurd hr List.not_mem_nil
  | cons r rs ih =>
    have ⟨q, hq, hholds⟩ := h
    rw [upsert]
    split
    · next hp =>
      rcases List.mem_cons.mp hq with rfl | hq
      · exact ⟨f q, List.mem_cons_self, hupdate q List.mem_cons_self hp hholds⟩
      · exact ⟨q, List.mem_cons_of_mem _ hq, hholds⟩
    · rcases List.mem_cons.mp hq with rfl | hq
      · exact ⟨q, List.mem_cons_self, hholds⟩
      · have ⟨q', hq', hholds'⟩ := ih ⟨q, hq, hholds⟩ fun r hr => hupdate r (List.mem_cons_of_mem _ hr)
        exact ⟨q', List.mem_cons_of_mem _ hq', hholds'⟩

theorem exists_upsert_written (hupdate : ∀ r ∈ rows, p r = true → holds (f r))
    (hnew : holds new) : ∃ r ∈ upsert p f new rows, holds r := by
  induction rows with
  | nil => exact ⟨new, List.mem_singleton_self new, hnew⟩
  | cons r rs ih =>
    rw [upsert]
    split
    · next hp => exact ⟨f r, List.mem_cons_self, hupdate r List.mem_cons_self hp⟩
    · have ⟨q, hq, hholds⟩ := ih fun q hq => hupdate q (List.mem_cons_of_mem _ hq)
      exact ⟨q, List.mem_cons_of_mem _ hq, hholds⟩

theorem length_upsert (h : ∃ r ∈ rows, p r = true) : (upsert p f new rows).length = rows.length := by
  induction rows with
  | nil =>
    have ⟨_, hr, _⟩ := h
    exact absurd hr List.not_mem_nil
  | cons r rs ih =>
    rw [upsert]
    split
    · rfl
    · next hp =>
      have ⟨q, hq, hpq⟩ := h
      rcases List.mem_cons.mp hq with rfl | hq
      · exact absurd hpq hp
      · rw [List.length_cons, ih ⟨q, hq, hpq⟩, List.length_cons]

end SocialActivities.Lib
