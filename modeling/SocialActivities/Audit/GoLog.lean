import SocialActivities.Audit.GoChain
import SocialActivities.Audit.Log
import SocialActivities.Lib.Machine

/-!
# `SocialActivities.Audit.GoLog`: concurrent `RecordAudit` transactions

Any number of transactions call `RecordAudit`, each any number of times between other work. A call
takes the advisory lock (`lock`), which one transaction holds until it ends, reads the tail among
the committed rows and its own (`readTail`), and inserts the row (`insert`). The transaction may
commit or roll back at every point. The row lock that the tail read also takes is never waited
for, because only the holder of the advisory lock reads the tail.

A transaction that is not the holder has inserted nothing, so the holder's own log stands
(`Inv`), and the committed log verifies in every run in which no data holds a negative zero
(`recorded_log_verifies`). The ids are in the order of the chain, and the rows of a transaction that
rolled back are never seen.
-/

namespace SocialActivities.Audit.Go

open Lib Lib.HashChain Lib.Machine

/-- Where a transaction is in `RecordAudit`. -/
inductive Stage where
  | idle
  /-- It holds the lock and has not read the tail. -/
  | locked
  /-- The tail was read. -/
  | read (tail : Option AuditRow)

/-- A transaction: its stage, and the rows it has inserted. -/
structure Transaction where
  stage : Stage
  inserted : List AuditRow

def Transaction.fresh : Transaction := ⟨.idle, []⟩

/-- The committed rows in the order of commits, the sequence of ids, the transactions, and the
holder of the advisory lock. -/
structure State where
  rows : List AuditRow
  nextId : Nat
  tx : Nat → Transaction
  holder : Option Nat

inductive Action where
  | lock (t : Nat)
  | readTail (t : Nat)
  | insert (t : Nat) (e : Event)
  | commit (t : Nat)
  | rollback (t : Nat)

/-- The transaction ends, and gives up the lock if it holds it. -/
def State.finish (s : State) (t : Nat) : State :=
  { s with
    tx := Function.update s.tx t .fresh
    holder := if s.holder = some t then none else s.holder }

/-- One step of a transaction; a step that is not its turn changes nothing. -/
def step (s : State) : Action → State
  | .lock t =>
    match (s.tx t).stage with
    | .idle =>
      if s.holder = none ∨ s.holder = some t then
        { s with
          tx := Function.update s.tx t { s.tx t with stage := .locked }
          holder := some t }
      else s
    | _ => s
  | .readTail t =>
    match (s.tx t).stage with
    | .locked =>
      { s with
        tx := Function.update s.tx t
          { s.tx t with stage := .read (newest (s.rows ++ (s.tx t).inserted)) } }
    | _ => s
  | .insert t e =>
    match (s.tx t).stage with
    | .read tail =>
      match recordRow s.nextId (tailHash tail) e with
      | some row =>
        { s with
          nextId := s.nextId + 1
          tx := Function.update s.tx t ⟨.idle, (s.tx t).inserted ++ [row]⟩ }
      | none => s
    | _ => s
  | .commit t => { s.finish t with rows := s.rows ++ (s.tx t).inserted }
  | .rollback t => s.finish t

/-- An empty table. -/
def init : State := ⟨[], 1, fun _ => .fresh, none⟩

/-- The data of an event holds no negative zero. -/
def guard (_ : State) : Action → Prop
  | .insert _ e => ∀ n ∈ e.dataOrEmpty.json.numbers, n.negativeZero = false
  | _ => True

/-- The log that a transaction would commit stands, and the tail it has read is the last row. -/
structure Holding (x : Transaction) (nextId : Nat) (rows : List AuditRow) : Prop where
  standing : Standing checkRow nextId (rows ++ x.inserted)
  tail : ∀ tail, x.stage = .read tail → tail = (rows ++ x.inserted).getLast?

/-- The committed rows stand, only the holder of the lock is at work, and so does its log. -/
structure Inv (s : State) : Prop where
  pos : 0 < s.nextId
  standing : Standing checkRow s.nextId s.rows
  others : ∀ t, s.holder ≠ some t → s.tx t = .fresh
  holding : ∀ t, s.holder = some t → Holding (s.tx t) s.nextId s.rows

theorem inv_init : Inv init where
  pos := by decide
  standing := .nil _ _
  others _ _ := rfl
  holding _ h := by cases h

variable {s : State}

variable {i : Nat}

theorem id_recordRow {previous : List Char} {e : Event} {row : AuditRow}
    (h : recordRow i previous e = some row) : row.id = i := by
  obtain ⟨canonical, -, hrest⟩ := Option.bind_eq_some_iff.mp h
  obtain ⟨data, -, hrest⟩ := Option.bind_eq_some_iff.mp hrest
  obtain ⟨actorRef, -, hrow⟩ := Option.bind_eq_some_iff.mp hrest
  rw [← Option.some.inj hrow]

variable {t : Nat}

theorem Inv.holder_of_stage (hs : Inv s) (h : (s.tx t).stage ≠ .idle) :
    s.holder = some t := by
  by_contra hne
  rw [hs.others t hne] at h
  exact h rfl

theorem Inv.standing_tx (hs : Inv s) (t : Nat) :
    Standing checkRow s.nextId (s.rows ++ (s.tx t).inserted) := by
  by_cases h : s.holder = some t
  · exact (hs.holding t h).standing
  · rw [hs.others t h]
    exact (List.append_nil s.rows).symm ▸ hs.standing

theorem Inv.update (hs : Inv s) {n : Nat} {x : Transaction} (hn : s.nextId ≤ n)
    (hholder : ∀ u, u ≠ t → s.holder ≠ some u) (hx : Holding x n s.rows) :
    Inv ⟨s.rows, n, Function.update s.tx t x, some t⟩ where
  pos := Nat.lt_of_lt_of_le hs.pos hn
  standing := hs.standing.mono hn
  others u hu := by
    have hne : u ≠ t := fun h => hu (by rw [h])
    dsimp only
    rw [Function.update_of_ne hne]
    exact hs.others u (hholder u hne)
  holding u hu := by
    obtain rfl : t = u := Option.some.inj hu
    dsimp only
    rw [Function.update_self]
    exact hx

theorem inv_lock (hs : Inv s) (t : Nat) : Inv (step s (.lock t)) := by
  cases hstage : (s.tx t).stage with
  | idle =>
    by_cases hfree : s.holder = none ∨ s.holder = some t
    · simp only [step, hstage, if_pos hfree]
      refine hs.update (Nat.le_refl _) (fun u hu hholder => ?_) ⟨hs.standing_tx t, fun tail h => ?_⟩
      · rcases hfree with h | h <;> rw [h] at hholder
        · cases hholder
        · exact hu (Option.some.inj hholder).symm
      · cases h
    · simpa only [step, hstage, if_neg hfree] using hs
  | locked | read => simpa only [step, hstage] using hs

theorem Inv.ne_holder (_ : Inv s) (h : s.holder = some t) :
    ∀ u, u ≠ t → s.holder ≠ some u := by
  intro u hu hholder
  exact hu (Option.some.inj (hholder.symm.trans h))

theorem inv_readTail (hs : Inv s) (t : Nat) : Inv (step s (.readTail t)) := by
  cases hstage : (s.tx t).stage with
  | locked =>
    have hholder := hs.holder_of_stage (t := t) (by rw [hstage]; exact Stage.noConfusion)
    have hstanding := hs.standing_tx t
    have hx : Holding { s.tx t with stage := .read (newest (s.rows ++ (s.tx t).inserted)) }
        s.nextId s.rows := by
      refine ⟨hstanding, fun tail htail => ?_⟩
      rw [← Stage.read.inj htail, hstanding.newest_eq]
    simp only [step, hstage]
    rw [hholder]
    exact hs.update (Nat.le_refl _) (hs.ne_holder hholder) hx
  | idle | read => simpa only [step, hstage] using hs

theorem inv_insert (hs : Inv s) {e : Event} (he : guard s (.insert t e)) :
    Inv (step s (.insert t e)) := by
  cases hstage : (s.tx t).stage with
  | read tail =>
    have hholder := hs.holder_of_stage (t := t) (by rw [hstage]; exact Stage.noConfusion)
    have hholding := hs.holding t hholder
    cases hrow : recordRow s.nextId (tailHash tail) e with
    | none => simpa only [step, hstage, hrow] using hs
    | some row =>
      have hpass : checkRow (endOf (s.rows ++ (s.tx t).inserted)) row
          = .ok (some row.checkpoint) := by
        rw [hholding.tail tail hstage, tailHash_getLast?] at hrow
        exact checkRow_recordRow he hrow
      have hx : Holding ⟨.idle, (s.tx t).inserted ++ [row]⟩ (s.nextId + 1) s.rows := by
        refine ⟨?_, fun tail h => (by cases h)⟩
        rw [← List.append_assoc]
        exact hholding.standing.concat hs.pos (id_recordRow hrow) hpass
      simp only [step, hstage, hrow]
      rw [hholder]
      exact hs.update (Nat.le_succ _) (hs.ne_holder hholder) hx
  | idle | locked => simpa only [step, hstage] using hs

theorem Inv.finish (hs : Inv s) (t : Nat) {rows : List AuditRow}
    (hrows : rows = s.rows ∨ rows = s.rows ++ (s.tx t).inserted) :
    Inv { s.finish t with rows := rows } := by
  have hfresh : ∀ u, (if s.holder = some t then none else s.holder) = some u → s.holder = some u ∧
      u ≠ t := by
    intro u hu
    split at hu
    · cases hu
    · next h => exact ⟨hu, fun heq => h (heq ▸ hu)⟩
  refine ⟨hs.pos, ?_, fun u hu => ?_, fun u hu => ?_⟩
  · rcases hrows with rfl | rfl
    · exact hs.standing
    · exact hs.standing_tx t
  · show Function.update s.tx t .fresh u = _
    by_cases h : u = t
    · rw [h, Function.update_self]
    · rw [Function.update_of_ne h]
      refine hs.others u fun hholder => hu ?_
      show (if s.holder = some t then none else s.holder) = some u
      rw [if_neg fun ht => h (Option.some.inj (hholder.symm.trans ht)), hholder]
  · obtain ⟨hholder, hne⟩ := hfresh u hu
    show Holding (Function.update s.tx t .fresh u) s.nextId rows
    rw [Function.update_of_ne hne]
    -- The one that ends is not the holder, so it has inserted nothing.
    have hnothing : s.tx t = .fresh := hs.others t (hs.ne_holder hholder t hne.symm)
    have hsame : rows = s.rows := by
      rcases hrows with h | h
      · exact h
      · rw [h, hnothing]
        exact List.append_nil _
    rw [hsame]
    exact hs.holding u hholder

theorem inv_step (s : State) (a : Action) (hs : Inv s) (ha : guard s a) : Inv (step s a) := by
  cases a with
  | lock t => exact inv_lock hs t
  | readTail t => exact inv_readTail hs t
  | insert => exact inv_insert hs ha
  | commit t => exact hs.finish t (Or.inr rfl)
  | rollback t => exact hs.finish t (Or.inl rfl)

/-! ### Rolled back rows -/

/-- An id that was used up by a row that nobody has. -/
structure Absent (i : Nat) (s : State) : Prop where
  used : i < s.nextId
  rows : ∀ r ∈ s.rows, r.id ≠ i
  inserted : ∀ t, ∀ r ∈ (s.tx t).inserted, r.id ≠ i

theorem Absent.update (h : Absent i s) {n : Nat} {x : Transaction}
    {holder : Option Nat} (hn : s.nextId ≤ n) (hx : ∀ r ∈ x.inserted, r.id ≠ i) :
    Absent i ⟨s.rows, n, Function.update s.tx t x, holder⟩ where
  used := Nat.lt_of_lt_of_le h.used hn
  rows := h.rows
  inserted u := by
    dsimp only
    by_cases hu : u = t
    · rw [hu, Function.update_self]
      exact hx
    · rw [Function.update_of_ne hu]
      exact h.inserted u

theorem absent_step (s : State) (a : Action) (h : Absent i s) : Absent i (step s a) := by
  have hfinish : ∀ t, Absent i (s.finish t) := fun t =>
    h.update (Nat.le_refl _) fun r hr => (by cases hr)
  cases a with
  | lock t =>
    simp only [step]
    split
    · split
      · exact h.update (Nat.le_refl _) (h.inserted t)
      · exact h
    · exact h
  | readTail t =>
    simp only [step]
    split
    · exact h.update (Nat.le_refl _) (h.inserted t)
    · exact h
  | insert t =>
    simp only [step]
    split
    · split
      · next row hrow =>
        refine h.update (Nat.le_succ _) fun r hr => ?_
        -- A new row takes the next id, which is past every id in use.
        rcases List.mem_append.mp hr with hr | hr
        · exact h.inserted t r hr
        · rw [List.mem_singleton.mp hr, id_recordRow hrow]
          exact Nat.ne_of_gt h.used
      · exact h
    · exact h
  | commit t =>
    refine ⟨h.used, fun r hr => ?_, (hfinish t).inserted⟩
    rcases List.mem_append.mp hr with hr | hr
    · exact h.rows r hr
    · exact h.inserted t r hr
  | rollback t => exact hfinish t

theorem absent_rollback (hs : Inv s) {r : AuditRow} (hr : r ∈ (s.tx t).inserted) :
    Absent r.id (step s (.rollback t)) := by
  have hholder : s.holder = some t := by
    by_contra hne
    rw [hs.others t hne] at hr
    cases hr
  have hstanding := (hs.holding t hholder).standing
  have hbefore := (List.pairwise_append.mp hstanding.sorted).2.2
  refine ⟨(hstanding.below r (List.mem_append_right _ hr)).2,
    fun q hq => Nat.ne_of_lt (hbefore q hq r hr), fun u q hq => ?_⟩
  change q ∈ (Function.update s.tx t .fresh u).inserted at hq
  by_cases hu : u = t
  · rw [hu, Function.update_self] at hq
    cases hq
  · rw [Function.update_of_ne hu, hs.others u (hs.ne_holder hholder u hu)] at hq
    cases hq

/-! ### The committed log -/

theorem verifyAuditChain_of_standing {nextId : Nat} {rows : List AuditRow}
    (h : Standing checkRow nextId rows) : verifyAuditChain rows none = .ok (true, endOf rows) := by
  have hall : rows.filter (fun r => decide (0 < r.id)) = rows :=
    List.filter_eq_self.mpr fun r hr => decide_eq_true (h.below r hr).1
  show walk checkRow .genesis (byId (rows.filter fun r => decide (0 < r.id))) = _
  rw [hall, byId_eq h.sorted]
  exact h.verified

/-- In every run in which no data holds a negative zero the committed log verifies from the start,
its rows are committed in the order of their ids, each names the hash of the one before it, and a
row of a transaction that rolled back is in no later log. -/
theorem recorded_log_verifies (as : List Action) (h : ∀ p ∈ steps step init as, guard p.1 p.2) :
    let rows := (run step init as).rows
    (∃ last, verifyAuditChain rows none = .ok (true, last)) ∧
    (rows.Pairwise (fun r s => r.id < s.id) ∧ (∀ r ∈ rows.head?, r.prevHash = []) ∧
      rows.IsChain fun r s => s.prevHash = r.hash) ∧
    ∀ before t after, as = before ++ .rollback t :: after →
      ∀ r ∈ ((run step init before).tx t).inserted, ∀ q ∈ rows, q.id ≠ r.id := by
  have hstanding := (run_guarded guard inv_step inv_init h).standing
  refine ⟨⟨_, verifyAuditChain_of_standing hstanding⟩,
    ⟨hstanding.sorted, isChain_of_walk linked_checkRow hstanding.verified⟩, ?_⟩
  rintro before t after rfl r hr
  have hbefore : Inv (run step init before) := by
    refine run_guarded guard inv_step inv_init fun p hp => h p ?_
    rw [steps_append]
    exact List.mem_append_left _ hp
  have habsent := run_invariant (absent_step (i := r.id)) (absent_rollback hbefore hr) after
  rw [run_append]
  exact habsent.rows

/-- An event with one number as its data. -/
def sampleEvent (n : GoNumber) : Event where
  actor := 7
  event := ['s', 'c', 'o', 'r', 'e']
  target := []
  data := some ⟨.object [(['n'], .number n)], List.nodup_singleton _, trivial, trivial⟩
  created := sampleTime

/-- One record of a transaction. -/
def recordSteps (t : Nat) (e : Event) : List Action := [.lock t, .readTail t, .insert t e]

/-- Two records, one of them rolled back, and a third. -/
def sampleRun : List Action :=
  recordSteps 0 (sampleEvent (.int 1)) ++ .commit 0 :: recordSteps 1 (sampleEvent (.int 2))
    ++ .rollback 1 :: recordSteps 2 (sampleEvent (.int 3)) ++ [.commit 2]

theorem recorded_log_verifies_sample :
    ∃ last, verifyAuditChain (run step init sampleRun).rows none = .ok (true, last) := by
  refine (recorded_log_verifies sampleRun ?_).1
  have hdata : ∀ n, ∀ m ∈ (sampleEvent (.int n)).dataOrEmpty.json.numbers,
      m.negativeZero = false := by
    intro n m hm
    rw [List.mem_singleton.mp hm]
    rfl
  intro p hp
  simp only [sampleRun, recordSteps, List.cons_append, List.nil_append, steps, List.mem_cons,
    List.not_mem_nil, or_false] at hp
  rcases hp with rfl | rfl | rfl | rfl | rfl | rfl | rfl | rfl | rfl | rfl | rfl | rfl
  all_goals first | trivial | exact hdata _

/-- A committed record whose data is a negative zero does not verify. -/
theorem negative_zero_breaks_log :
    verifyAuditChain (run step init (recordSteps 0 (sampleEvent (.float ⟨true, .zero⟩))
      ++ [.commit 0])).rows none = .ok (false, .genesis) := by
  decide +kernel

end SocialActivities.Audit.Go
