import Mathlib.Data.List.Pairwise
import SocialActivities.Lib.KeyMap

/-!
# `SocialActivities.Lib.Table`: rows under a serial key

A `Table ρ` is a database table with a serial primary key: rows in key order, and the next
value of the sequence. The structure carries its well-formedness, so a key names at most one
row and the sequence is above every key.

Every later proof reads a table through `get?`: `get?_insert` and `get?_modify` say what a
write changes, `any_iff` turns an existence query into a statement about `get?`, and
`mem_selectIds` does the same for a query that lists keys.
-/

namespace SocialActivities.Lib

/-- Rows under a serial key. -/
structure Table (ρ : Type) where
  /-- The rows with their keys, in key order. -/
  rows : List (Nat × ρ)
  /-- The next value of the sequence. -/
  next : Nat
  ordered : (rows.map Prod.fst).Pairwise (· < ·)
  below : ∀ k ∈ rows.map Prod.fst, k < next

namespace Table

variable {ρ : Type}

/-- No rows. The sequence starts at 1. -/
def empty : Table ρ := ⟨[], 1, List.Pairwise.nil, by simp⟩

/-- The row under a key. -/
def get? (t : Table ρ) (k : Nat) : Option ρ := (t.rows.find? fun row => row.1 == k).map Prod.snd

/-- Does a row satisfy a query? -/
def any (t : Table ρ) (p : Nat → ρ → Bool) : Bool := t.rows.any fun row => p row.1 row.2

/-- The keys of the rows that satisfy a query, in key order. -/
def selectIds (t : Table ρ) (p : Nat → ρ → Bool) : List Nat :=
  (t.rows.filter fun row => p row.1 row.2).map Prod.fst

/-- A new row, under the next value of the sequence. -/
def insert (t : Table ρ) (r : ρ) : Table ρ where
  rows := t.rows ++ [(t.next, r)]
  next := t.next + 1
  ordered := by
    rw [List.map_append, List.pairwise_append]
    exact ⟨t.ordered, by simp, fun k hk j hj => by
      rw [List.mem_map] at hj
      obtain ⟨row, hrow, rfl⟩ := hj
      rw [List.mem_singleton.mp hrow]
      exact t.below k hk⟩
  below := by
    intro k hk
    rw [List.map_append, List.mem_append] at hk
    rcases hk with hk | hk
    · exact Nat.lt_succ_of_lt (t.below k hk)
    · simp only [List.map_cons, List.map_nil, List.mem_singleton] at hk
      omega

private theorem fst_modify (k : Nat) (f : ρ → ρ) (rows : List (Nat × ρ)) :
    (rows.map fun row => if row.1 = k then (row.1, f row.2) else row).map Prod.fst
      = rows.map Prod.fst := by
  rw [List.map_map]
  refine List.map_congr_left fun row _ => ?_
  by_cases h : row.1 = k <;> simp [h]

/-- The row under `k`, updated. -/
def modify (t : Table ρ) (k : Nat) (f : ρ → ρ) : Table ρ where
  rows := t.rows.map fun row => if row.1 = k then (row.1, f row.2) else row
  next := t.next
  ordered := by rw [fst_modify]; exact t.ordered
  below := by rw [fst_modify]; exact t.below

theorem nodup_keys (t : Table ρ) : (t.rows.map Prod.fst).Nodup :=
  t.ordered.imp fun h => Nat.ne_of_lt h

variable {k : Nat} {t : Table ρ}

/-- The rows under their keys. -/
def toKeyMap (t : Table ρ) : KeyMap Nat ρ := ⟨t.rows, t.nodup_keys⟩

theorem mem_rows_iff {r : ρ} : (k, r) ∈ t.rows ↔ t.get? k = some r :=
  KeyMap.mem_entries_iff (m := t.toKeyMap)

theorem lt_next {r : ρ} (h : t.get? k = some r) : k < t.next :=
  t.below k (List.mem_map.mpr ⟨(k, r), mem_rows_iff.mpr h, rfl⟩)

@[simp] theorem get?_next (t : Table ρ) : t.get? t.next = none := by
  cases h : t.get? t.next with
  | none => rfl
  | some => exact absurd (lt_next h) (Nat.lt_irrefl _)

theorem get?_insert (t : Table ρ) (r : ρ) (k : Nat) :
    (t.insert r).get? k = if k = t.next then some r else t.get? k := by
  unfold get? insert
  rw [List.find?_append]
  by_cases hk : k = t.next
  · subst hk
    have hnone : t.rows.find? (fun row => row.1 == t.next) = none := by
      simpa [get?] using t.get?_next
    simp [hnone]
  · have hne : (t.next == k) = false := by simpa using Ne.symm hk
    simp [hne, hk]

private theorem find?_modify (k j : Nat) (f : ρ → ρ) (rows : List (Nat × ρ)) :
    ((rows.map fun row => if row.1 = k then (row.1, f row.2) else row).find?
        fun row => row.1 == j).map Prod.snd
      = if j = k then ((rows.find? fun row => row.1 == j).map Prod.snd).map f
        else (rows.find? fun row => row.1 == j).map Prod.snd := by
  induction rows with
  | nil => simp
  | cons row rows ih =>
    rw [List.map_cons]
    by_cases hj : row.1 = j
    · subst hj
      by_cases hrow : row.1 = k <;> simp [hrow]
    · have hskip : ∀ tail : List (Nat × ρ),
          (row :: tail).find? (fun row => row.1 == j) = tail.find? fun row => row.1 == j :=
        fun tail => List.find?_cons_of_neg (by simpa using hj)
      have hskip' : ∀ tail : List (Nat × ρ),
          ((row.1, f row.2) :: tail).find? (fun row => row.1 == j)
            = tail.find? fun row => row.1 == j :=
        fun tail => List.find?_cons_of_neg (by simpa using hj)
      by_cases hrow : row.1 = k
      · rw [if_pos hrow, hskip', hskip, ih]
      · rw [if_neg hrow, hskip, hskip, ih]

theorem get?_modify (t : Table ρ) (k : Nat) (f : ρ → ρ) (j : Nat) :
    (t.modify k f).get? j = if j = k then (t.get? j).map f else t.get? j :=
  find?_modify k j f t.rows

theorem any_iff {p : Nat → ρ → Bool} :
    t.any p = true ↔ ∃ k r, t.get? k = some r ∧ p k r = true :=
  KeyMap.anyRow_eq_true (m := t.toKeyMap)

theorem mem_selectIds {p : Nat → ρ → Bool} :
    k ∈ t.selectIds p ↔ ∃ r, t.get? k = some r ∧ p k r = true :=
  KeyMap.mem_keysWhere (m := t.toKeyMap)

end Table

end SocialActivities.Lib
