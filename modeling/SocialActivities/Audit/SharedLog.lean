import SocialActivities.Audit.Checkpoint
import SocialActivities.Audit.GoLog
import SocialActivities.Audit.PyLog

/-!
# `SocialActivities.Audit.SharedLog`: one log of both programs

The Go server and the Django application write one table, and each verifies the rows of both. `record`
is a record of either of them after the newest row; one that is refused may leave a gap in the ids. The
log stands for both verifications (`Shared`), because what one program appends passes the check of the
other. So both accept it from the start, and from every checkpoint that either of them has saved
(`shared_log`).
-/

namespace SocialActivities.Audit

open Lib Lib.HashChain Lib.Machine

/-- A record of one of the programs, with data that survives in its column and that both read alike. -/
inductive Record where
  | go (e : Go.Event)
    (agrees : ∀ n ∈ e.dataOrEmpty.json.numbers, n.negativeZero = false ∧ n.agrees = true)
  | py (e : Py.Event) (survives : ∀ n ∈ e.data.json.numbers, n.survives = true)

structure SharedLog where
  rows : List AuditRow
  nextId : Nat

def SharedLog.empty : SharedLog := ⟨[], 1⟩

def Record.row (id : Nat) (previous : List Char) : Record → Option AuditRow
  | .go e _ => Go.recordRow id previous e
  | .py e _ => Py.recordRow id previous e

def record (s : SharedLog) (r : Record) : SharedLog :=
  ⟨s.rows ++ (r.row s.nextId (tailHash (newest s.rows))).toList, s.nextId + 1⟩

/-- The log stands for both verifications. -/
structure Shared (s : SharedLog) : Prop where
  positive : 0 < s.nextId
  go : Standing Go.checkRow s.nextId s.rows
  py : Standing Py.checkRow s.nextId s.rows

variable {s : SharedLog} {row : AuditRow} {cp : Checkpoint}

theorem Record.row_spec {id : Nat} {last : Checkpoint} {r : Record}
    (h : r.row id last.lastHash = some row) :
    row.id = id ∧ Go.checkRow last row = .ok (some row.checkpoint) ∧
      Py.checkRow last row = .ok (some row.checkpoint) := by
  cases r with
  | go e agrees =>
    have hzero := fun n hn => (agrees n hn).1
    exact ⟨Go.id_recordRow h, Go.checkRow_recordRow hzero h,
      pyCheckRow_goRecordRow hzero (fun n hn => (agrees n hn).2) h⟩
  | py e survives =>
    exact ⟨Py.id_recordRow h, goCheckRow_pyRecordRow survives h, Py.checkRow_recordRow survives h⟩

theorem shared_record (s : SharedLog) (r : Record) (h : Shared s) : Shared (record s r) := by
  unfold record
  rw [h.go.newest_eq, tailHash_getLast?]
  cases hrow : r.row s.nextId (endOf s.rows).lastHash with
  | none =>
    rw [Option.toList_none, List.append_nil]
    exact ⟨Nat.succ_pos _, h.go.mono (Nat.le_succ _), h.py.mono (Nat.le_succ _)⟩
  | some row =>
    obtain ⟨hid, hgo, hpy⟩ := Record.row_spec hrow
    exact ⟨Nat.succ_pos _, h.go.concat h.positive hid hgo, h.py.concat h.positive hid hpy⟩

/-- Both programs accept the log of any records of the two, from the start and from a checkpoint after
any of its rows. The rows are one chain in the order of their ids. -/
theorem shared_log (records : List Record) :
    let rows := (run record .empty records).rows
    (rows.Pairwise (fun r q => r.id < q.id) ∧ rows.IsChain fun r q => q.prevHash = r.hash) ∧
    (Py.verifyAuditChain rows none = .ok true ∧
      ∃ last, Go.verifyAuditChain rows none = .ok (true, last)) ∧
    ∀ r ∈ rows, Py.verifyAuditChain rows (some r.checkpoint) = .ok true ∧
      ∃ last, Go.verifyAuditChain rows (some r.checkpoint) = .ok (true, last) := by
  have hshared : Shared (run record .empty records) :=
    run_invariant shared_record ⟨Nat.one_pos, .nil _ _, .nil _ _⟩ records
  generalize run record .empty records = s at hshared
  obtain ⟨-, hgo, hpy⟩ := hshared
  refine ⟨⟨hgo.sorted, (isChain_of_walk Go.linked_checkRow hgo.verified).2⟩,
    ⟨Py.verifyAuditChain_of_standing hpy, _, Go.verifyAuditChain_of_standing hgo⟩, fun r hr => ?_⟩
  let T : AuditTable := ⟨s.rows, hgo.sorted, fun r hr => (hgo.below r hr).1⟩
  have hcp : T.HasCheckpoint r.checkpoint := Or.inr ⟨r, hr, rfl⟩
  refine ⟨(Py.verifyAuditChain_some hcp rfl).trans ?_, endOf s.rows,
    (Go.verifyAuditChain_some hcp rfl).trans ?_⟩
  · rw [walk_after Py.state_of_checkRow hpy.verified hcp rfl, show T.rows = s.rows from rfl, hpy.verified]
    rfl
  · rw [walk_after Go.state_of_checkRow hgo.verified hcp rfl, show T.rows = s.rows from rfl, hgo.verified]

end SocialActivities.Audit
