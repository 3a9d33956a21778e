import Mathlib.Data.List.Nodup
import Mathlib.Data.List.Sort

/-!
# `SocialActivities.Lib.Ranked`: the first rows of an order

`ORDER BY rank LIMIT n`: `firstBy rank n rows`, over any linear order of ranks. Where no two rows have
the same rank, a row is among the first `n` exactly when fewer than `n` rows come before it
(`mem_firstBy`), and a row that comes before all others is the first one (`head?_filter_firstBy`).
-/

namespace SocialActivities.Lib

variable {α β : Type} [LinearOrder α]

/-- The first `n` rows by a rank. -/
def firstBy (rank : β → α) (n : Nat) (rows : List β) : List β :=
  (rows.mergeSort fun a b => decide (rank a ≤ rank b)).take n

variable {rank : β → α} {n : Nat} {rows : List β} {x : β}

theorem mem_of_mem_firstBy {x : β} (h : x ∈ firstBy rank n rows) : x ∈ rows :=
  List.mem_mergeSort.mp (List.mem_of_mem_take h)

theorem mem_take_iff {rows : List β}
    (h : rows.Pairwise fun a b => rank a < rank b) (n : Nat) (x : β) :
    x ∈ rows.take n ↔ x ∈ rows ∧ rows.countP (fun y => decide (rank y < rank x)) < n := by
  induction rows generalizing n with
  | nil => simp
  | cons a rows ih =>
    rw [List.pairwise_cons] at h
    cases n with
    | zero => simp
    | succ n =>
      rw [List.take_succ_cons, List.mem_cons, List.mem_cons, ih h.2, List.countP_cons]
      constructor
      · rintro (rfl | ⟨hx, hcount⟩)
        · -- Nothing comes before the head.
          have hzero : rows.countP (fun y => decide (rank y < rank x)) = 0 := by
            rw [List.countP_eq_zero]
            intro y hy
            simpa using (h.1 y hy).le
          rw [hzero]
          simp
        · refine ⟨Or.inr hx, ?_⟩
          rw [if_pos (by simpa using h.1 x hx)]
          omega
      · rintro ⟨rfl | hx, hcount⟩
        · exact Or.inl rfl
        · rw [if_pos (by simpa using h.1 x hx)] at hcount
          exact Or.inr ⟨hx, by omega⟩

theorem pairwise_mergeSort_lt (hrank : (rows.map rank).Nodup) :
    (rows.mergeSort fun a b => decide (rank a ≤ rank b)).Pairwise fun a b => rank a < rank b := by
  have hle := @List.pairwise_mergeSort β (fun a b => decide (rank a ≤ rank b))
    (fun a b c hab hbc => by
      simp only [decide_eq_true_eq] at hab hbc ⊢
      exact hab.trans hbc)
    (fun a b => by simpa using le_total (rank a) (rank b)) rows
  have hne : (rows.mergeSort fun a b => decide (rank a ≤ rank b)).Pairwise
      fun a b => rank a ≠ rank b := by
    have hperm := (List.mergeSort_perm rows fun a b => decide (rank a ≤ rank b)).map rank
    exact List.pairwise_map.mp (hperm.nodup_iff.mpr hrank)
  refine (hle.and hne).imp fun {a b} h => ?_
  exact lt_of_le_of_ne (of_decide_eq_true h.1) h.2

/-- Where the ranks differ, a row is among the first `n` exactly when fewer than `n` rows come
before it. -/
theorem mem_firstBy (hrank : (rows.map rank).Nodup) (n : Nat) (x : β) : x ∈ firstBy rank n rows ↔
      x ∈ rows ∧ rows.countP (fun y => decide (rank y < rank x)) < n := by
  unfold firstBy
  rw [mem_take_iff (pairwise_mergeSort_lt hrank), List.mem_mergeSort,
    (List.mergeSort_perm rows _).countP_eq]

theorem lt_of_not_mem_firstBy (hrank : (rows.map rank).Nodup)
    {y : β} (hx : x ∈ rows) (hno : x ∉ firstBy rank n rows) (hy : y ∈ firstBy rank n rows) :
    rank y < rank x := by
  have hsorted := pairwise_mergeSort_lt hrank
  have hmem : x ∈ rows.mergeSort fun a b => decide (rank a ≤ rank b) := List.mem_mergeSort.mpr hx
  rw [← List.take_append_drop n (rows.mergeSort _)] at hsorted hmem
  have hlast := (List.mem_append.mp hmem).resolve_left hno
  exact (List.pairwise_append.mp hsorted).2.2 y hy x hlast

theorem firstBy_of_pairwise {rows : List β}
    (h : rows.Pairwise fun a b => rank a ≤ rank b) (n : Nat) : firstBy rank n rows = rows.take n := by
  unfold firstBy
  rw [List.mergeSort_of_pairwise (h.imp fun {a b} hab => by simpa using hab)]

/-- A row that comes before all others is the first, also of those that satisfy a query that it
satisfies. -/
theorem head?_filter_firstBy (hrank : (rows.map rank).Nodup)
    (hn : 0 < n) (hx : x ∈ rows) (hfirst : ∀ y ∈ rows, y ≠ x → rank x < rank y)
    {p : β → Bool} (hp : p x = true) : ((firstBy rank n rows).filter p).head? = some x := by
  have hsorted := pairwise_mergeSort_lt hrank
  have hmem : ∀ y, y ∈ rows.mergeSort (fun a b => decide (rank a ≤ rank b)) ↔ y ∈ rows := fun _ =>
    List.mem_mergeSort
  unfold firstBy
  cases hlist : rows.mergeSort fun a b => decide (rank a ≤ rank b) with
  | nil =>
    have hin := (hmem x).mpr hx
    rw [hlist] at hin
    cases hin
  | cons a =>
    rw [hlist] at hsorted hmem
    have ha : a = x := by
      rcases List.mem_cons.mp ((hmem x).mpr hx) with heq | hrest
      · exact heq.symm
      · by_contra hne
        have hxa := hfirst a ((hmem a).mp List.mem_cons_self) hne
        exact lt_asymm hxa ((List.pairwise_cons.mp hsorted).1 x hrest)
    obtain ⟨m, rfl⟩ := Nat.exists_eq_succ_of_ne_zero (Nat.ne_of_gt hn)
    rw [ha, List.take_succ_cons, List.filter_cons_of_pos hp]
    rfl

end SocialActivities.Lib
