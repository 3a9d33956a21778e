import Mathlib.Data.Finset.Lattice.Fold
import Mathlib.Order.Lattice

/-!
# `SocialActivities.Lib.Limits`: the strictest of optional limits

Several parties may each set a limit or leave it open. A bound on a number is combined with `min?`
or `max?` of the bounds that are set, and an allow-list with `common`, the intersection of the lists
that are set. Both are `none` when nobody set a limit; an empty intersection is a limit that allows
nothing.

The strictest limit depends on the limits as a set (`min?_congr`, `max?_congr`, `common_congr`), and
it holds exactly when each one does (`all_min?_iff`, `all_max?_iff`, `mem_common`).
-/

namespace SocialActivities.Lib.Limits

variable {α : Type}

section Bounds

variable [LinearOrder α] {l l' : List α}

theorem min?_congr (h : ∀ a, a ∈ l ↔ a ∈ l') : l.min? = l'.min? := by
  refine Option.ext fun a => ?_
  simp only [List.min?_eq_some_iff, h]

theorem max?_congr (h : ∀ a, a ∈ l ↔ a ∈ l') : l.max? = l'.max? := by
  refine Option.ext fun a => ?_
  simp only [List.max?_eq_some_iff, h]

theorem min?_concat (l : List α) (a : α) : (l ++ [a]).min? = some (l.min?.elim a (min · a)) := by
  cases l with
  | nil => rfl
  | cons => simp [List.min?]

theorem max?_concat (l : List α) (a : α) : (l ++ [a]).max? = some (l.max?.elim a (max · a)) := by
  cases l with
  | nil => rfl
  | cons => simp [List.max?]

theorem all_min?_iff {p : α → Bool} (hmono : ∀ a b, a ≤ b → p a = true → p b = true) :
    l.min?.all p = true ↔ ∀ a ∈ l, p a = true := by
  cases hmin : l.min? with
  | none =>
    rw [List.min?_eq_none_iff] at hmin
    simp [hmin]
  | some m =>
    obtain ⟨hm, hle⟩ := List.min?_eq_some_iff.mp hmin
    exact ⟨fun h a ha => hmono m a (hle a ha) h, fun h => h m hm⟩

/-- A condition that grows as the bound gets smaller holds of the greatest bound if it holds of
all. -/
theorem all_max?_iff {p : α → Bool} (hmono : ∀ a b, b ≤ a → p a = true → p b = true) :
    l.max?.all p = true ↔ ∀ a ∈ l, p a = true := by
  cases hmax : l.max? with
  | none =>
    rw [List.max?_eq_none_iff] at hmax
    simp [hmax]
  | some m =>
    obtain ⟨hm, hle⟩ := List.max?_eq_some_iff.mp hmax
    exact ⟨fun h a ha => hmono m a (hle a ha) h, fun h => h m hm⟩

end Bounds

section Sets

variable [DecidableEq α]

/-- The common elements of the sets; `none` if there is no set. -/
def common : List (Finset α) → Option (Finset α)
  | [] => none
  | s :: rest => some (rest.foldl (· ∩ ·) s)

variable {l l' : List (Finset α)}

@[simp] theorem common_eq_none_iff : common l = none ↔ l = [] := by
  cases l <;> simp [common]

theorem mem_foldl_inter (s : Finset α) (l : List (Finset α)) (a : α) :
    a ∈ l.foldl (· ∩ ·) s ↔ a ∈ s ∧ ∀ t ∈ l, a ∈ t := by
  induction l generalizing s with
  | nil => simp
  | cons t l ih => rw [List.foldl_cons, ih, Finset.mem_inter, List.forall_mem_cons, and_assoc]

theorem mem_common {s : Finset α} (h : common l = some s) (a : α) : a ∈ s ↔ ∀ t ∈ l, a ∈ t := by
  cases l with
  | nil => cases h
  | cons =>
    obtain rfl := Option.some.inj h
    rw [mem_foldl_inter, List.forall_mem_cons]

theorem common_congr (h : ∀ s, s ∈ l ↔ s ∈ l') : common l = common l' := by
  cases hl : common l with
  | none =>
    rw [common_eq_none_iff] at hl
    have hnil : l' = [] := List.eq_nil_iff_forall_not_mem.mpr fun s hs => by
      have hmem := (h s).mpr hs
      simp [hl] at hmem
    rw [hnil]
    rfl
  | some =>
    cases hl' : common l' with
    | none =>
      rw [common_eq_none_iff] at hl'
      have hnil : l = [] := List.eq_nil_iff_forall_not_mem.mpr fun t ht => by
        have hmem := (h t).mp ht
        simp [hl'] at hmem
      rw [hnil] at hl
      cases hl
    | some =>
      refine congrArg some (Finset.ext fun a => ?_)
      rw [mem_common hl, mem_common hl']
      exact forall_congr' fun t => imp_congr_left (h t)

theorem common_concat (l : List (Finset α)) (s : Finset α) :
    common (l ++ [s]) = some ((common l).elim s (· ∩ s)) := by
  cases l with
  | nil => rfl
  | cons => simp [common]

theorem common_filter_map_eq_none {β : Type} {parties : List β} {isSet : β → Bool}
    {limit : β → Finset α} :
    common ((parties.filter isSet).map limit) = none ↔ ∀ b ∈ parties, isSet b = false := by
  rw [common_eq_none_iff, List.map_eq_nil_iff, List.filter_eq_nil_iff]
  simp only [Bool.not_eq_true]

theorem mem_common_filter_map {β : Type} {parties : List β} {isSet : β → Bool}
    {limit : β → Finset α} {s : Finset α}
    (h : common ((parties.filter isSet).map limit) = some s) (a : α) :
    a ∈ s ↔ ∀ b ∈ parties, isSet b = true → a ∈ limit b := by
  rw [mem_common h]
  simp only [List.mem_map, List.mem_filter]
  constructor
  · intro hall b hb hset
    exact hall (limit b) ⟨b, ⟨hb, hset⟩, rfl⟩
  · intro hall t ⟨b, ⟨hb, hset⟩, ht⟩
    exact ht ▸ hall b hb hset

end Sets

end SocialActivities.Lib.Limits
