import SocialActivities.Audit.Log
import SocialActivities.Audit.PyChain
import SocialActivities.Lib.Machine

/-!
# `SocialActivities.Audit.PyLog`: concurrent `record_audit` transactions

Any number of transactions record audit events at READ COMMITTED. The tail read of `record_audit`
is a statement of its own, `SELECT ... ORDER BY id DESC LIMIT 1 FOR UPDATE`: it picks the newest
row that it sees when it starts (`startRead`), waits while another transaction holds the lock on
that row, and then returns that same row and holds the lock (`endRead`). In an empty table there is
nothing to lock. Then the row is created with the next id of the sequence (`create`), and is seen
by others once the transaction commits.

The lock orders the reads of one tail, not the rows after it: the second reader chains its row to
the same tail (`forked_log`). The log stands in every run in which no transaction commits rows
between the first tail read of another and its commit, and the data of every row survives the
column (`audit_log_verifies`).
-/

namespace SocialActivities.Audit.Py

open Lib Lib.HashChain Lib.Machine

/-- Where a transaction is in `record_audit`. -/
inductive Stage where
  | idle
  /-- The tail read has picked a row, and may wait for its lock. -/
  | reading (tail : Option AuditRow)
  /-- The tail read has returned. -/
  | read (tail : Option AuditRow)

/-- A transaction: its stage, the rows it has created, and the committed rows that its first tail
read saw. -/
structure Transaction where
  stage : Stage
  created : List AuditRow
  seen : List AuditRow

/-- A transaction that has not recorded anything. -/
def Transaction.fresh : Transaction := ⟨.idle, [], []⟩

/-- The committed rows in the order of commits, the sequence of ids, the transactions, and the
row locks: the id of a row and the transaction that holds it. -/
structure State where
  rows : List AuditRow
  nextId : Nat
  tx : Nat → Transaction
  locks : List (Nat × Nat)

inductive Action where
  | startRead (t : Nat)
  | endRead (t : Nat)
  | create (t : Nat) (e : Event)
  | commit (t : Nat)
  | rollback (t : Nat)

def State.setTx (s : State) (t : Nat) (x : Transaction) : State :=
  { s with tx := Function.update s.tx t x }

/-- Another transaction holds the lock on the row. -/
def State.locked (s : State) (t : Nat) (tail : Option AuditRow) : Bool :=
  match tail with
  | none => false
  | some row => s.locks.any fun l => decide (l.1 = row.id ∧ l.2 ≠ t)

/-- The transaction ends and gives up its locks. -/
def State.finish (s : State) (t : Nat) : State :=
  { s.setTx t .fresh with locks := s.locks.filter fun l => decide (l.2 ≠ t) }

/-- One step of a transaction; a step that is not its turn changes nothing. -/
def step (s : State) : Action → State
  | .startRead t =>
    match (s.tx t).stage with
    | .idle =>
      -- The rows at the transaction's first tail read, which `guard` asks for at the commit.
      let seen := if (s.tx t).created.isEmpty then s.rows else (s.tx t).seen
      s.setTx t ⟨.reading (newest (s.rows ++ (s.tx t).created)), (s.tx t).created, seen⟩
    | _ => s
  | .endRead t =>
    match (s.tx t).stage with
    | .reading tail =>
      -- Another transaction holds the row: `select_for_update` waits.
      if s.locked t tail then s
      else { s.setTx t { s.tx t with stage := .read tail } with
        locks := (tail.map fun row => (row.id, t)).toList ++ s.locks }
    | _ => s
  | .create t e =>
    match (s.tx t).stage with
    | .read tail =>
      match recordRow s.nextId (tailHash tail) e with
      | some row =>
        { s.setTx t { s.tx t with stage := .idle, created := (s.tx t).created ++ [row] } with
          nextId := s.nextId + 1 }
      | none => s
    | _ => s
  | .commit t =>
    match (s.tx t).stage with
    | .idle => { s.finish t with rows := s.rows ++ (s.tx t).created }
    | _ => s
  | .rollback t => s.finish t

/-- An empty table. -/
def init : State := ⟨[], 1, fun _ => .fresh, []⟩

/-- The data of a created row survives the column, and no transaction with rows commits after
another has since its first tail read. -/
def guard (s : State) : Action → Prop
  | .create _ e => ∀ n ∈ e.data.json.numbers, n.survives = true
  | .commit t => (s.tx t).created = [] ∨ s.rows = (s.tx t).seen
  | _ => True

/-- A transaction that has read the tail, or created rows, since it saw the committed rows. -/
def Transaction.active (x : Transaction) : Prop :=
  x.created ≠ [] ∨ ∃ tail, x.stage = .reading tail ∨ x.stage = .read tail

/-- A transaction that saw the rows that are committed now has a log of its own that stands, and
its tail read picks, or returned, the last row of it. -/
structure Transaction.Current (x : Transaction) (nextId : Nat) (rows : List AuditRow) : Prop where
  standing : Standing checkRow nextId (rows ++ x.created)
  tail : ∀ tail, x.stage = .reading tail ∨ x.stage = .read tail →
    tail = (rows ++ x.created).getLast?

/-- The committed rows stand. A transaction saw no more rows than there are, and if none was
committed since, it is current. -/
structure Inv (s : State) : Prop where
  pos : 0 < s.nextId
  standing : Standing checkRow s.nextId s.rows
  seen : ∀ t, (s.tx t).active → (s.tx t).seen.length ≤ s.rows.length
  current : ∀ t, (s.tx t).active → s.rows = (s.tx t).seen →
    (s.tx t).Current s.nextId s.rows

theorem not_active_fresh : ¬Transaction.fresh.active := by
  rintro (h | ⟨tail, h | h⟩)
  · exact h rfl
  · cases h
  · cases h

theorem inv_init : Inv init where
  pos := by decide
  standing := .nil _ _
  seen _ h := absurd h not_active_fresh
  current _ h := absurd h not_active_fresh

variable {s : State}

theorem Transaction.Current.mono {x : Transaction} {n m : Nat} {rows : List AuditRow}
    (h : x.Current n rows) (hle : n ≤ m) : x.Current m rows :=
  ⟨h.standing.mono hle, h.tail⟩

variable {t : Nat}

theorem Inv.update (hs : Inv s) {n : Nat} {x : Transaction} {locks : List (Nat × Nat)}
    (hn : s.nextId ≤ n) (hseen : x.active → x.seen.length ≤ s.rows.length)
    (hcurrent : x.active → s.rows = x.seen → x.Current n s.rows) :
    Inv ⟨s.rows, n, Function.update s.tx t x, locks⟩ where
  pos := Nat.lt_of_lt_of_le hs.pos hn
  standing := hs.standing.mono hn
  seen u hu := by
    dsimp only at hu ⊢
    by_cases h : u = t
    · subst h
      rw [Function.update_self] at hu ⊢
      exact hseen hu
    · rw [Function.update_of_ne h] at hu ⊢
      exact hs.seen u hu
  current u hu heq := by
    dsimp only at hu heq ⊢
    by_cases h : u = t
    · subst h
      rw [Function.update_self] at hu heq ⊢
      exact hcurrent hu heq
    · rw [Function.update_of_ne h] at hu heq ⊢
      exact (hs.current u hu heq).mono hn

theorem id_recordRow {i : Nat} {prevHash : List Char} {e : Event} {row : AuditRow}
    (h : recordRow i prevHash e = some row) : row.id = i := by
  obtain ⟨text, -, hrest⟩ := Option.bind_eq_some_iff.mp h
  obtain ⟨data, -, hrest⟩ := Option.bind_eq_some_iff.mp hrest
  obtain ⟨actorRef, -, hrow⟩ := Option.bind_eq_some_iff.mp hrest
  rw [← Option.some.inj hrow]

theorem inv_startRead (hs : Inv s) (t : Nat) : Inv (step s (.startRead t)) := by
  cases hstage : (s.tx t).stage with
  | idle =>
    simp only [step, hstage, State.setTx]
    refine hs.update (Nat.le_refl _) (fun _ => ?_) (fun _ heq => ?_)
    · dsimp only
      split
      · exact Nat.le_refl _
      · next hcreated => exact hs.seen t (Or.inl fun h => hcreated (by rw [h]; rfl))
    · -- The log of the transaction stands, so the newest row is its last one.
      have hstanding : Standing checkRow s.nextId (s.rows ++ (s.tx t).created) := by
        by_cases hcreated : (s.tx t).created = []
        · rw [hcreated, List.append_nil]
          exact hs.standing
        · have hsame : s.rows = (s.tx t).seen := by
            rwa [if_neg (by simpa using hcreated)] at heq
          exact (hs.current t (Or.inl hcreated) hsame).standing
      refine ⟨hstanding, fun tail htail => ?_⟩
      rcases htail with htail | htail
      · rw [← hstanding.newest_eq]
        exact (Stage.reading.inj htail).symm
      · cases htail
  | reading | read => simpa only [step, hstage] using hs

theorem inv_endRead (hs : Inv s) (t : Nat) : Inv (step s (.endRead t)) := by
  cases hstage : (s.tx t).stage with
  | reading tail =>
    have hactive : (s.tx t).active := Or.inr ⟨tail, Or.inl hstage⟩
    by_cases hlocked : s.locked t tail = true
    · simpa only [step, hstage, hlocked, if_true] using hs
    · simp only [step, hstage, hlocked, State.setTx]
      refine hs.update (Nat.le_refl _) (fun _ => hs.seen t hactive) (fun _ heq => ?_)
      have hcurrent := hs.current t hactive heq
      refine ⟨hcurrent.standing, fun tail' htail => ?_⟩
      rcases htail with htail | htail
      · cases htail
      · rw [← Stage.read.inj htail]
        exact hcurrent.tail tail (Or.inl hstage)
  | idle | read => simpa only [step, hstage] using hs

theorem inv_create (hs : Inv s) {e : Event} (he : guard s (.create t e)) :
    Inv (step s (.create t e)) := by
  cases hstage : (s.tx t).stage with
  | read tail =>
    have hactive : (s.tx t).active := Or.inr ⟨tail, Or.inr hstage⟩
    cases hrow : recordRow s.nextId (tailHash tail) e with
    | none => simpa only [step, hstage, hrow] using hs
    | some =>
      simp only [step, hstage, hrow, State.setTx]
      refine hs.update (Nat.le_succ _) (fun _ => hs.seen t hactive) (fun _ heq => ?_)
      have hcurrent := hs.current t hactive heq
      have htail := hcurrent.tail tail (Or.inr hstage)
      rw [htail, tailHash_getLast?] at hrow
      have hpass := checkRow_recordRow he hrow
      refine ⟨?_, fun tail htail => ?_⟩
      · rw [← List.append_assoc]
        exact hcurrent.standing.concat hs.pos (id_recordRow hrow) hpass
      · rcases htail with htail | htail <;> cases htail
  | idle | reading => simpa only [step, hstage] using hs

theorem inv_finish (hs : Inv s) (t : Nat) : Inv (s.finish t) :=
  hs.update (Nat.le_refl _) (fun h => absurd h not_active_fresh) fun h => absurd h not_active_fresh

theorem inv_commit (hs : Inv s) (ht : guard s (.commit t)) :
    Inv (step s (.commit t)) := by
  cases hstage : (s.tx t).stage with
  | idle =>
    simp only [step, hstage]
    by_cases hcreated : (s.tx t).created = []
    · rw [hcreated, List.append_nil]
      exact inv_finish hs t
    · have hactive : (s.tx t).active := Or.inl hcreated
      have hsame : s.rows = (s.tx t).seen := ht.resolve_left hcreated
      have hlonger : s.rows.length < (s.rows ++ (s.tx t).created).length := by
        have hpos := List.length_pos_iff.mpr hcreated
        rw [List.length_append]
        omega
      exact {
        pos := hs.pos
        standing := (hs.current t hactive hsame).standing
        seen := fun u hu =>
          Nat.le_trans ((inv_finish hs t).seen u hu) (Nat.le_of_lt hlonger)
        current := by
          -- Another transaction saw fewer rows than there are now.
          intro u hu heq
          have hle := (inv_finish hs t).seen u hu
          rw [← heq] at hle
          exact absurd hlonger (Nat.not_lt_of_le hle) }
  | reading | read => simpa only [step, hstage] using hs

theorem inv_step (s : State) (a : Action) (hs : Inv s) (ha : guard s a) : Inv (step s a) := by
  cases a with
  | startRead t => exact inv_startRead hs t
  | endRead t => exact inv_endRead hs t
  | create => exact inv_create hs ha
  | commit => exact inv_commit hs ha
  | rollback t => exact inv_finish hs t

theorem verifyAuditChain_of_standing {nextId : Nat} {rows : List AuditRow}
    (h : Standing checkRow nextId rows) : verifyAuditChain rows none = .ok true := by
  have hwalk : verifyAuditRows (byId rows) [] = .ok (true, endOf rows) := by
    rw [byId_eq h.sorted]
    exact h.verified
  rw [verifyAuditChain, hwalk]
  rfl

/-- The committed log verifies in every state of a run in which no transaction commits rows
between the first tail read of another and its commit, and the data of every row survives the
column. -/
theorem audit_log_verifies (as : List Action) (h : ∀ p ∈ steps step init as, guard p.1 p.2) :
    verifyAuditChain (run step init as).rows none = .ok true :=
  verifyAuditChain_of_standing (run_guarded guard inv_step inv_init h).standing

/-- An event with one number as its data. -/
def sampleEvent (n : PyNumber) : Event where
  actor := some 7
  event := ['s', 'c', 'o', 'r', 'e']
  target := []
  data := ⟨.object [(['n'], .number n)], List.nodup_singleton _, trivial, trivial⟩
  created := sampleTime

/-- A transaction that records one event on its own. -/
def recordAlone (t : Nat) (e : Event) : List Action :=
  [.startRead t, .endRead t, .create t e, .commit t]

/-- The transactions of `recordAlone`, one after another, meet the guard. -/
theorem audit_log_verifies_serial :
    verifyAuditChain (run step init
      (recordAlone 0 (sampleEvent (.int 1)) ++ recordAlone 1 (sampleEvent (.int 2)))).rows none
      = .ok true := by
  refine audit_log_verifies _ ?_
  have hdata : ∀ n, ∀ m ∈ (sampleEvent (.int n)).data.json.numbers, m.survives = true := by
    intro n m hm
    rw [List.mem_singleton.mp hm]
    rfl
  intro p hp
  simp only [recordAlone, List.cons_append, List.nil_append, steps, List.mem_cons,
    List.not_mem_nil, or_false] at hp
  rcases hp with rfl | rfl | rfl | rfl | rfl | rfl | rfl | rfl
  · trivial
  · trivial
  · exact hdata 1
  · exact Or.inr rfl
  · trivial
  · trivial
  · exact hdata 2
  · exact Or.inr rfl

/-- In an empty table two transactions read no tail. After a row, the second of two waits for the
lock on that row and then reads it. And alone, a float of `10 ^ 16` comes back as an integer. -/
theorem forked_log :
    verifyAuditChain (run step init [.startRead 0, .startRead 1, .endRead 0, .endRead 1,
      .create 0 (sampleEvent (.int 1)), .create 1 (sampleEvent (.int 2)), .commit 0,
      .commit 1]).rows none = .ok false ∧
    verifyAuditChain (run step init (recordAlone 0 (sampleEvent (.int 1)) ++
      [.startRead 1, .startRead 2, .endRead 1, .endRead 2, .create 1 (sampleEvent (.int 2)),
        .commit 1, .endRead 2, .create 2 (sampleEvent (.int 3)), .commit 2])).rows none
      = .ok false ∧
    verifyAuditChain (run step init
      (recordAlone 0 (sampleEvent (.float ⟨false, tenToSixteen⟩)))).rows none = .ok false := by
  decide +kernel

end SocialActivities.Audit.Py
