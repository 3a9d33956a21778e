import SocialActivities.Audit.Rows
import SocialActivities.Lib.HashChain

/-!
# `SocialActivities.Audit.Log`: a log that stands

A verification of the audit table is a walk with a check of one row. `Standing check nextId rows`
says that the rows, in the order in which they were committed, are in the order of their ids, below
the next id, and verified from the start. It is what a log has to be for the next record to be
appended: the newest row is the last one, and the state of the walk is its checkpoint
(`newest_eq`), so a row that passes after the newest row makes a log that stands again (`concat`).
-/

namespace SocialActivities.Audit

open Lib.HashChain

/-- The state of a verification after rows that all passed. -/
def endOf (rows : List AuditRow) : Checkpoint :=
  (rows.getLast?.map AuditRow.checkpoint).getD .genesis

/-- The row with the greatest id: `ORDER BY id DESC LIMIT 1`. -/
def newest (rows : List AuditRow) : Option AuditRow := (byId rows).getLast?

/-- The hash of the tail, or the empty text for none. -/
def tailHash (tail : Option AuditRow) : List Char := (tail.map AuditRow.hash).getD []

/-- The rows stand: in the order of their ids, below the next id, and verified. -/
structure Standing (check : Checkpoint → AuditRow → Except Failure (Option Checkpoint))
    (nextId : Nat) (rows : List AuditRow) : Prop where
  sorted : rows.Pairwise fun r s => r.id < s.id
  below : ∀ r ∈ rows, 0 < r.id ∧ r.id < nextId
  verified : walk check .genesis rows = .ok (true, endOf rows)

variable {check : Checkpoint → AuditRow → Except Failure (Option Checkpoint)} {nextId : Nat}
  {rows : List AuditRow}

theorem tailHash_getLast? (rows : List AuditRow) : tailHash rows.getLast? = (endOf rows).lastHash := by
  unfold tailHash endOf
  cases rows.getLast? <;> rfl

theorem byId_eq (h : rows.Pairwise fun r s => r.id < s.id) : byId rows = rows :=
  (h.imp fun hlt => Nat.le_of_lt hlt).insertionSort_eq

namespace Standing

theorem nil (check : Checkpoint → AuditRow → Except Failure (Option Checkpoint)) (nextId : Nat) :
    Standing check nextId [] :=
  ⟨.nil, fun _ h => (by cases h), rfl⟩

theorem mono {next : Nat} (h : Standing check nextId rows) (hle : nextId ≤ next) :
    Standing check next rows :=
  ⟨h.sorted, fun r hr => ⟨(h.below r hr).1, Nat.lt_of_lt_of_le (h.below r hr).2 hle⟩, h.verified⟩

theorem newest_eq (h : Standing check nextId rows) : newest rows = rows.getLast? := by
  rw [newest, byId_eq h.sorted]

theorem concat (h : Standing check nextId rows) (hpos : 0 < nextId) {row : AuditRow}
    (hid : row.id = nextId) (hpass : check (endOf rows) row = .ok (some row.checkpoint)) :
    Standing check (nextId + 1) (rows ++ [row]) where
  sorted := by
    rw [List.pairwise_append]
    refine ⟨h.sorted, List.pairwise_singleton _ _, fun r hr s hs => ?_⟩
    rw [List.mem_singleton.mp hs, hid]
    exact (h.below r hr).2
  below := by
    intro r hr
    rcases List.mem_append.mp hr with hr | hr
    · exact ⟨(h.below r hr).1, Nat.lt_succ_of_lt (h.below r hr).2⟩
    · rw [List.mem_singleton.mp hr, hid]
      exact ⟨hpos, Nat.lt_succ_self nextId⟩
  verified := by
    have hend : endOf (rows ++ [row]) = row.checkpoint := by
      rw [endOf, List.getLast?_concat]
      rfl
    rw [hend]
    exact walk_concat h.verified hpass

end Standing

/-- The time of the sample events. -/
def sampleTime : Timestamp := ⟨2026, 5, 4, 10, 30, 0, 250⟩

end SocialActivities.Audit
