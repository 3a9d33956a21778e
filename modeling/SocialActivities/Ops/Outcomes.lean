import SocialActivities.Ops.Tasks
import Mathlib.Tactic.Linarith

/-!
# `SocialActivities.Ops.Outcomes`: what becomes of a task

`Valid` is the invariant of the queue: a claimed row is pending and claimed once, the inserts of a
transaction are not among the committed rows, the attempts of a row fit its status, and a task has
one committed effect when it is done and none otherwise. `finish_spec` says what an outcome writes,
and the other `_spec` lemmas what the other operations do to rows and transactions. `Moves` puts
them together: `moves_step` says all that a step can do, and every invariant is proved from it.

`outcomes` is the statement about runs. One drain may run a task twice, when the delay of the task
passes during the drain (`drain_runs_twice`): each claim reads the clock again.
-/

namespace SocialActivities.Ops

open Lib

/-- The attempts of a row fit its status. -/
def DeferredTask.Bounded (row : DeferredTask) : Prop :=
  match row.status with
  | .pending => row.attempts < row.maxAttempts
  | .done => 1 ≤ row.attempts ∧ row.attempts ≤ row.maxAttempts
  | .failed => row.attempts = row.maxAttempts

/-- A row as `Enqueue` inserts it. -/
structure DeferredTask.New (row : DeferredTask) : Prop where
  pending : row.status = .pending
  attempts : row.attempts = 0
  budget : 1 ≤ row.maxAttempts
  payload : ∃ members, row.payload = .object members

theorem DeferredTask.New.bounded {row : DeferredTask} (h : row.New) : row.Bounded := by
  have hbudget := h.budget
  unfold DeferredTask.Bounded
  rw [h.pending, h.attempts]
  exact hbudget

/-- What the handlers have committed for a task. -/
def State.effectsOf {ε : Type} (s : State ε) (id : Nat) : List (Nat × ε) :=
  s.effects.filter fun e => e.1 == id

/-- The invariant of the queue. -/
structure Valid {ε : Type} (s : State ε) : Prop where
  bounded : ∀ id row, s.tasks.get? id = some row → row.Bounded ∧ id < s.nextId
  fresh : ∀ o t, s.txs.get? o = some t → ∀ e ∈ t.inserted,
    e.2.New ∧ e.1 < s.nextId ∧ s.tasks.get? e.1 = none
  apart : ∀ o p t u, s.txs.get? o = some t → s.txs.get? p = some u → o ≠ p →
    ∀ e ∈ t.inserted, ∀ d ∈ u.inserted, e.1 ≠ d.1
  claimed : ∀ o t id, s.txs.get? o = some t → t.claimed = some id →
    ∃ row, s.tasks.get? id = some row ∧ row.status = .pending
  single : ∀ o p t u id, s.txs.get? o = some t → s.txs.get? p = some u →
    t.claimed = some id → u.claimed = some id → o = p
  once : ∀ id, (s.effectsOf id).length =
    if (s.tasks.get? id).any (fun row => row.status == .done) then 1 else 0

/-- A transaction may insert a row: the row has no deduplication key, or no row that the
transaction sees is pending under the key, which it has locked. -/
def Opens {ε : Type} (s : State ε) (o : Owner) (kind dedupKey : String) (u v : Tx) : Prop :=
  (dedupKey = "" ∧ v = u) ∨
    (dedupKey ≠ "" ∧ s.keyLocked o (kind, dedupKey) = false ∧
      s.pendingRow (u.lock (kind, dedupKey)) kind dedupKey = none ∧ v = u.lock (kind, dedupKey))

section
variable {ε : Type} {s t : State ε} {o : Owner} {u v : Tx} {id : Nat} {row : DeferredTask}

/-! ### What the operations do -/

/-- `Enqueue` inserts a new row, or returns the pending row that it finds. -/
theorem enqueue_spec {q : Queue} {kind : String} {raw : Option Raw} {opts : EnqueueOptions}
    {now : Int} (h : s.enqueue o q kind raw opts now = .ok t) :
    ∃ u, s.txs.get? o = some u ∧
      ((∃ (row : DeferredTask) (v : Tx), row.New ∧ row.kind = kind ∧ row.dedupKey = opts.dedupKey ∧
        q.kinds.contains kind = true ∧ Opens s o kind opts.dedupKey u v ∧
        t = s.insertTask o v row) ∨
      ∃ id, opts.dedupKey ≠ "" ∧ s.keyLocked o (kind, opts.dedupKey) = false ∧
        s.pendingRow (u.lock (kind, opts.dedupKey)) kind opts.dedupKey = some id ∧
        t = s.setTx o ((u.lock (kind, opts.dedupKey)).wake id)) := by
  unfold State.enqueue at h
  rw [bind_eq_ok] at h
  obtain ⟨u, hu, h⟩ := h
  rw [seq_eq_ok, seq_eq_ok, seq_eq_ok, need_eq_ok, need_eq_ok, need_eq_ok, bind_eq_ok] at h
  obtain ⟨hkind, -, hbudget, raw', -, h⟩ := h
  rw [seq_eq_ok] at h
  obtain ⟨-, h⟩ := h
  refine ⟨u, elim_eq_ok.mp hu, ?_⟩
  simp only [Bool.and_eq_true, decide_eq_true_eq] at hbudget
  have hnew : 1 ≤ (attemptBudget q opts).toNat := by omega
  by_cases hkey : opts.dedupKey = ""
  · rw [if_pos hkey, pure_eq_ok] at h
    exact Or.inl ⟨_, u, ⟨rfl, rfl, hnew, _, rfl⟩, rfl, rfl, hkind, Or.inl ⟨hkey, rfl⟩, h.symm⟩
  · rw [if_neg hkey, seq_eq_ok, need_eq_ok, Bool.not_eq_true'] at h
    obtain ⟨hfree, h⟩ := h
    dsimp only at h
    cases hfound : s.pendingRow (u.lock (kind, opts.dedupKey)) kind opts.dedupKey with
    | none =>
      rw [hfound, pure_eq_ok] at h
      exact Or.inl ⟨_, u.lock (kind, opts.dedupKey), ⟨rfl, rfl, hnew, _, rfl⟩, rfl, rfl, hkind,
        Or.inr ⟨hkey, hfree, hfound, rfl⟩, h.symm⟩
    | some id =>
      rw [hfound, pure_eq_ok] at h
      exact Or.inr ⟨id, hkey, hfree, rfl, h.symm⟩

theorem oldest_spec {now : Int} (h : s.oldest now = some id) :
    ∃ row, s.tasks.get? id = some row ∧ row.status = .pending ∧ row.availableAt ≤ now ∧
      s.locked id = false ∧ ∀ j other, s.tasks.get? j = some other → other.status = .pending →
        other.availableAt ≤ now → s.locked j = false → claimsBefore (id, row) (j, other) := by
  have : Std.Total claimsBefore := ⟨fun a b => by unfold claimsBefore; omega⟩
  have : IsTrans (Nat × DeferredTask) claimsBefore :=
    ⟨fun a b c => by unfold claimsBefore; omega⟩
  unfold State.oldest at h
  obtain ⟨e, hhead, rfl⟩ := Option.map_eq_some_iff.mp h
  have hmem := (List.mem_insertionSort _).mp (List.mem_of_mem_head? hhead)
  rw [List.mem_filter, Bool.and_eq_true, Bool.and_eq_true, beq_iff_eq, decide_eq_true_eq,
    Bool.not_eq_true'] at hmem
  obtain ⟨hrow, ⟨hpending, hdue⟩, hfree⟩ := hmem
  refine ⟨e.2, KeyMap.mem_entries_iff.mp hrow, hpending, hdue, hfree, fun j other hget hp hd hf => ?_⟩
  have hin : (j, other) ∈ (s.tasks.entries.filter fun e => e.2.status == .pending &&
      decide (e.2.availableAt ≤ now) && !s.locked e.1).insertionSort claimsBefore := by
    rw [List.mem_insertionSort, List.mem_filter]
    exact ⟨KeyMap.mem_entries_iff.mpr hget, by simp [hp, hd, hf]⟩
  have hsorted := List.pairwise_insertionSort claimsBefore (s.tasks.entries.filter fun e =>
    e.2.status == .pending && decide (e.2.availableAt ≤ now) && !s.locked e.1)
  cases hlist : (s.tasks.entries.filter fun e => e.2.status == .pending &&
      decide (e.2.availableAt ≤ now) && !s.locked e.1).insertionSort claimsBefore with
  | nil =>
    rw [hlist] at hhead
    cases hhead
  | cons d ds =>
    rw [hlist] at hhead hin hsorted
    cases hhead
    rcases List.mem_cons.mp hin with heq | hin
    · rw [← heq]
      exact Or.inr ⟨rfl, Nat.le_refl _⟩
    · exact (List.pairwise_cons.mp hsorted).1 _ hin

theorem oldest_eq_none {now : Int} (h : s.oldest now = none) (hget : s.tasks.get? id = some row)
    (hpending : row.status = .pending) (hdue : row.availableAt ≤ now) : s.locked id = true := by
  cases hlocked : s.locked id with
  | true => rfl
  | false =>
    have hin : (id, row) ∈ (s.tasks.entries.filter fun e => e.2.status == .pending &&
        decide (e.2.availableAt ≤ now) && !s.locked e.1).insertionSort claimsBefore := by
      rw [List.mem_insertionSort, List.mem_filter]
      exact ⟨KeyMap.mem_entries_iff.mpr hget, by simp [hpending, hdue, hlocked]⟩
    unfold State.oldest at h
    rw [Option.map_eq_none_iff, List.head?_eq_none_iff] at h
    rw [h] at hin
    cases hin

variable {w : Nat}

/-- A claim takes the oldest row, or ends the drain. -/
theorem claim_spec {began now : Int} {x : Option Nat} (h : s.claim w began now = .ok (t, x)) :
    ∃ d, s.drains.get? w = some d ∧ s.txs.get? (.worker w) = none ∧
      ((x = none ∧ t = s.endDrain w ∧ (d.remaining = 0 ∨ s.oldest now = none)) ∨
        ∃ id, x = some id ∧ s.oldest now = some id ∧ 0 < d.remaining ∧
          t = s.setTx (.worker w) ⟨began, some id, [], [], []⟩) := by
  unfold State.claim at h
  rw [bind_eq_ok] at h
  obtain ⟨d, hd, h⟩ := h
  rw [seq_eq_ok, need_eq_ok, Option.isNone_iff_eq_none] at h
  obtain ⟨hfree, h⟩ := h
  refine ⟨d, elim_eq_ok.mp hd, hfree, ?_⟩
  by_cases hzero : d.remaining = 0
  · rw [if_pos hzero, pure_eq_ok] at h
    cases h
    exact Or.inl ⟨rfl, rfl, Or.inl hzero⟩
  · rw [if_neg hzero] at h
    cases hold : s.oldest now with
    | none =>
      rw [hold, pure_eq_ok] at h
      cases h
      exact Or.inl ⟨rfl, rfl, Or.inr rfl⟩
    | some id =>
      rw [hold, pure_eq_ok] at h
      cases h
      exact Or.inr ⟨id, rfl, rfl, Nat.pos_of_ne_zero hzero, rfl⟩

/-- What an outcome writes: the row and the effect of a success with the inserts of the handler, or
the row of a failure and nothing else. -/
theorem finish_spec {result : Except String ε} {now : Readings}
    (h : s.finish w result now = .ok t) :
    ∃ d u id row, s.drains.get? w = some d ∧ s.txs.get? (.worker w) = some u ∧
      u.claimed = some id ∧ s.tasks.get? id = some row ∧
      ((∃ writes, d.queue.handle row result = .ok writes ∧
          t = { s.release (.worker w) with
            tasks := (insertAll s.tasks u.inserted).set id (row.succeed now.start)
            drains := s.drains.set w (State.Drain.count d .done)
            effects := s.effects ++ [(id, writes)] }) ∨
        ∃ e, d.queue.handle row result = .error e ∧
          t = { s.release (.worker w) with
            tasks := s.tasks.set id (row.fail d.queue e now)
            drains := s.drains.set w (State.Drain.count d (row.fail d.queue e now).status) }) := by
  unfold State.finish at h
  rw [bind_eq_ok] at h
  obtain ⟨d, hd, h⟩ := h
  rw [bind_eq_ok] at h
  obtain ⟨u, hu, h⟩ := h
  rw [bind_eq_ok] at h
  obtain ⟨id, hid, h⟩ := h
  rw [bind_eq_ok] at h
  obtain ⟨row, hrow, h⟩ := h
  refine ⟨d, u, id, row, elim_eq_ok.mp hd, elim_eq_ok.mp hu, elim_eq_ok.mp hid, elim_eq_ok.mp hrow, ?_⟩
  cases hhandle : d.queue.handle row result with
  | ok writes =>
    rw [hhandle, pure_eq_ok] at h
    exact Or.inl ⟨writes, rfl, h.symm⟩
  | error e =>
    rw [hhandle, pure_eq_ok] at h
    exact Or.inr ⟨e, rfl, h.symm⟩

theorem claims_eq {began now : Int} {x : Option Nat}
    (h : s.claim w began now = .ok (t, x)) : s.claims (.claim w began now) = x := by
  simp only [State.claims, h]

/-! ### What a step does -/

/-- What a step does: nothing or something about drains only, or one of the operations. -/
inductive Moves (s : State ε) : Act ε → State ε → Prop where
  | rest (act : Act ε) (drains : KeyMap Nat Drain) (h : s.claims act = none)
    (hdrains : ∀ w d, drains.get? w = some d →
      s.drains.get? w = some d ∨ ∃ q limit, act = .startDrain w q limit ∧ d.queue = q) :
    Moves s act { s with drains := drains }
  | begin (n : Nat) (now : Int) (h : s.txs.get? (.request n) = none) :
    Moves s (.begin n now) (s.setTx (.request n) ⟨now, none, [], [], []⟩)
  | insert (o : Owner) (q : Queue) (raw : Option Raw) (opts : EnqueueOptions) (now : Int)
    (u v : Tx) (row : DeferredTask) (hget : s.txs.get? o = some u) (new : row.New)
    (hkind : q.kinds.contains row.kind = true) (hopens : Opens s o row.kind row.dedupKey u v) :
    Moves s (.enqueue o q row.kind raw opts now) (s.insertTask o v row)
  | wake (o : Owner) (q : Queue) (kind : String) (raw : Option Raw) (opts : EnqueueOptions)
    (now : Int) (u : Tx) (id : Nat) (hget : s.txs.get? o = some u)
    (hfree : s.keyLocked o (kind, opts.dedupKey) = false)
    (hfound : s.pendingRow (u.lock (kind, opts.dedupKey)) kind opts.dedupKey = some id) :
    Moves s (.enqueue o q kind raw opts now)
      (s.setTx o ((u.lock (kind, opts.dedupKey)).wake id))
  | commit (n : Nat) (u : Tx) (hget : s.txs.get? (.request n) = some u) :
    Moves s (.commit n)
      { s.release (.request n) with tasks := insertAll s.tasks u.inserted }
  | rollback (n : Nat) : Moves s (.rollback n) (s.release (.request n))
  | claim (w : Nat) (began now : Int) (id : Nat)
    (hclaims : s.claims (.claim w began now) = some id) (hfree : s.txs.get? (.worker w) = none)
    (hold : s.oldest now = some id) :
    Moves s (.claim w began now) (s.setTx (.worker w) ⟨began, some id, [], [], []⟩)
  | succeed (w : Nat) (result : Except String ε) (now : Readings) (d : Drain) (u : Tx) (id : Nat)
    (row : DeferredTask) (writes : ε) (hdrain : s.drains.get? w = some d)
    (hget : s.txs.get? (.worker w) = some u) (hid : u.claimed = some id)
    (hrow : s.tasks.get? id = some row) (hhandle : d.queue.handle row result = .ok writes) :
    Moves s (.finish w result now)
      { s.release (.worker w) with
        tasks := (insertAll s.tasks u.inserted).set id (row.succeed now.start)
        drains := s.drains.set w (State.Drain.count d .done)
        effects := s.effects ++ [(id, writes)] }
  | fail (w : Nat) (result : Except String ε) (now : Readings) (d : Drain) (u : Tx) (id : Nat)
    (row : DeferredTask) (e : HandlerError) (hdrain : s.drains.get? w = some d)
    (hget : s.txs.get? (.worker w) = some u) (hid : u.claimed = some id)
    (hrow : s.tasks.get? id = some row) (hhandle : d.queue.handle row result = .error e) :
    Moves s (.finish w result now)
      { s.release (.worker w) with
        tasks := s.tasks.set id (row.fail d.queue e now)
        drains := s.drains.set w (State.Drain.count d (row.fail d.queue e now).status) }
  | abort (w : Nat) : Moves s (.abort w) (s.abort w)

variable {act : Act ε}

theorem moves_orElse (hclaims : (∀ w began now, act ≠ .claim w began now))
    {x : Except Error (State ε)} (h : ∀ t, x = .ok t → Moves s act t) :
    Moves s act (s.orElse x) := by
  cases x with
  | ok t => exact h t rfl
  | error =>
    refine Moves.rest act s.drains ?_ fun w d h => Or.inl h
    cases act with
    | claim w began now => exact absurd rfl (hclaims w began now)
    | _ => rfl

theorem moves_step (s : State ε) (act : Act ε) : Moves s act (s.step act) := by
  cases act with
  | begin n now =>
    refine moves_orElse (by simp) fun t h => ?_
    unfold State.begin at h
    rw [seq_eq_ok, need_eq_ok, pure_eq_ok, Option.isNone_iff_eq_none] at h
    obtain ⟨hnone, rfl⟩ := h
    exact Moves.begin n now hnone
  | enqueue o q kind raw opts now =>
    refine moves_orElse (by simp) fun t h => ?_
    obtain ⟨u, hget, ⟨row, v, hnew, rfl, hkey, hkind, hopens, rfl⟩ |
      ⟨id, -, hfree, hfound, rfl⟩⟩ := enqueue_spec h
    · rw [← hkey] at hopens
      exact Moves.insert o q raw opts now u v row hget hnew hkind hopens
    · exact Moves.wake o q kind raw opts now u id hget hfree hfound
  | commit n =>
    refine moves_orElse (by simp) fun t h => ?_
    unfold State.commit at h
    rw [bind_eq_ok] at h
    obtain ⟨u, hu, h⟩ := h
    rw [pure_eq_ok] at h
    subst h
    exact Moves.commit n u (elim_eq_ok.mp hu)
  | rollback n => exact Moves.rollback n
  | startDrain w q limit =>
    refine moves_orElse (by simp) fun t h => ?_
    unfold State.startDrain at h
    rw [seq_eq_ok, seq_eq_ok, pure_eq_ok] at h
    obtain ⟨-, -, rfl⟩ := h
    refine Moves.rest _ _ rfl fun v d hd => ?_
    rcases KeyMap.of_get?_set hd with ⟨rfl, rfl⟩ | hd
    · exact Or.inr ⟨q, limit, rfl, rfl⟩
    · exact Or.inl hd
  | claim w began now =>
    show Moves s _ (s.orElse ((s.claim w began now).map Prod.fst))
    cases hclaim : s.claim w began now with
    | error =>
      exact Moves.rest _ s.drains (by simp only [State.claims, hclaim]) fun v d h => Or.inl h
    | ok x =>
      have hclaims := claims_eq hclaim
      obtain ⟨d, -, hfree, ⟨hnone, hsame, -⟩ | ⟨id, hid, hold, -, hset⟩⟩ := claim_spec hclaim
      · show Moves s _ x.1
        rw [hsame]
        exact Moves.rest _ _ (hclaims.trans hnone) fun v d h => Or.inl (KeyMap.get?_of_removeIf h)
      · show Moves s _ x.1
        rw [hset]
        exact Moves.claim w began now id (hclaims.trans hid) hfree hold
  | finish w result now =>
    refine moves_orElse (by simp) fun t h => ?_
    obtain ⟨d, u, id, row, hdrain, hget, hid, hrow, ⟨writes, hhandle, rfl⟩ | ⟨e, hhandle, rfl⟩⟩ :=
      finish_spec h
    · exact Moves.succeed w result now d u id row writes hdrain hget hid hrow hhandle
    · exact Moves.fail w result now d u id row e hdrain hget hid hrow hhandle
  | abort w => exact Moves.abort w

/-! ### What the invariant survives -/

theorem get?_release (s : State ε) (o p : Owner) :
    (s.release o).txs.get? p = if p = o then none else s.txs.get? p := by
  show (s.txs.removeIf fun p _ => p == o).get? p = _
  rw [KeyMap.get?_removeIf]
  by_cases hp : p = o
  · rw [if_pos hp]
    cases s.txs.get? p <;> simp [hp]
  · rw [if_neg hp]
    cases s.txs.get? p <;> simp [hp]

variable {tasks : KeyMap Nat DeferredTask} {inserted : List (Nat × DeferredTask)}

theorem get?_insertAll {inserted : List (Nat × DeferredTask)}
    (h : ∀ e ∈ inserted, e.1 ≠ id) : (insertAll tasks inserted).get? id = tasks.get? id := by
  unfold insertAll
  induction inserted generalizing tasks with
  | nil => rfl
  | cons e es ih =>
    rw [List.foldl_cons, ih fun d hd => h d (List.mem_cons_of_mem _ hd), KeyMap.get?_set,
      if_neg (Ne.symm (h e List.mem_cons_self))]

theorem forall_insertAll {inserted : List (Nat × DeferredTask)}
    {holds : Nat → DeferredTask → Prop} (hnew : ∀ e ∈ inserted, holds e.1 e.2)
    (hold : ∀ id row, tasks.get? id = some row → holds id row) :
    ∀ id row, (insertAll tasks inserted).get? id = some row → holds id row := by
  unfold insertAll
  induction inserted generalizing tasks with
  | nil => exact hold
  | cons e es ih =>
    rw [List.foldl_cons]
    exact ih (fun d hd => hnew d (List.mem_cons_of_mem _ hd))
      (KeyMap.forall_set (hnew e List.mem_cons_self) hold)

theorem mem_insertAll {inserted : List (Nat × DeferredTask)}
    (h : (∃ e ∈ inserted, e.1 = id) ∨ ∃ row, tasks.get? id = some row) :
    ∃ row, (insertAll tasks inserted).get? id = some row := by
  unfold insertAll
  induction inserted generalizing tasks with
  | nil =>
    rcases h with ⟨e, he, -⟩ | h
    · cases he
    · exact h
  | cons e es ih =>
    rw [List.foldl_cons]
    refine ih ?_
    by_cases hid : id = e.1
    · exact Or.inr ⟨e.2, by rw [KeyMap.get?_set, if_pos hid]⟩
    · rcases h with ⟨d, hd, rfl⟩ | ⟨row, hrow⟩
      · rcases List.mem_cons.mp hd with rfl | hd
        · exact absurd rfl hid
        · exact Or.inl ⟨d, hd, rfl⟩
      · exact Or.inr ⟨row, by rw [KeyMap.get?_set, if_neg hid, hrow]⟩

theorem Valid.setTx (hs : Valid s)
    (hfresh : ∀ e ∈ u.inserted, e.2.New ∧ e.1 < s.nextId ∧ s.tasks.get? e.1 = none)
    (hapart : ∀ p v, p ≠ o → s.txs.get? p = some v →
      ∀ e ∈ u.inserted, ∀ d ∈ v.inserted, e.1 ≠ d.1)
    (hclaimed : ∀ id, u.claimed = some id →
      (∃ row, s.tasks.get? id = some row ∧ row.status = .pending) ∧
        ∀ p v, s.txs.get? p = some v → v.claimed = some id → p = o) : Valid (s.setTx o u) := by
  refine ⟨hs.bounded, KeyMap.forall_set hfresh hs.fresh,
    KeyMap.pairs_set (fun a b h e he d hd heq => h d hd e he heq.symm) hapart hs.apart,
    KeyMap.forall_set (fun id hid => (hclaimed id hid).1) (fun p v hp id hid => hs.claimed p v id hp hid)
      |> fun h p v id hp => h p v hp id, fun p q v w id hp hq hv hw => ?_, hs.once⟩
  by_contra hne
  refine KeyMap.pairs_set (R := fun v w : Tx => ∀ id, v.claimed = some id → w.claimed ≠ some id)
    (fun a b h id hb ha => h id ha hb) (fun p v hne hp id hid hv => hne ((hclaimed id hid).2 p v hp hv))
    (fun p q v w hp hq hne id hv hw => hne (hs.single p q v w id hp hq hv hw)) p q v w hp hq hne id hv hw

theorem Valid.insertTask (hs : Valid s) (hget : s.txs.get? o = some u)
    (hinserted : v.inserted = u.inserted) (hclaim : v.claimed = u.claimed) (hnew : row.New) :
    Valid (s.insertTask o v row) := by
  have hnext : Valid { s with nextId := s.nextId + 1 } :=
    ⟨fun id row h => ⟨(hs.bounded id row h).1, Nat.lt_succ_of_lt (hs.bounded id row h).2⟩,
      fun p w hp e he => ⟨(hs.fresh p w hp e he).1, Nat.lt_succ_of_lt (hs.fresh p w hp e he).2.1,
        (hs.fresh p w hp e he).2.2⟩, hs.apart, hs.claimed, hs.single, hs.once⟩
  have hunused : s.tasks.get? s.nextId = none := by
    cases hrow : s.tasks.get? s.nextId with
    | none => rfl
    | some => exact absurd (hs.bounded _ _ hrow).2 (Nat.lt_irrefl _)
  refine hnext.setTx (fun e he => ?_) (fun p w hne hp e he d hd => ?_) (fun id hid => ?_)
  · rcases List.mem_append.mp he with he | he
    · rw [hinserted] at he
      have hold := hs.fresh o u hget e he
      exact ⟨hold.1, Nat.lt_succ_of_lt hold.2.1, hold.2.2⟩
    · rw [List.mem_singleton.mp he]
      exact ⟨hnew, Nat.lt_succ_self _, hunused⟩
  · rcases List.mem_append.mp he with he | he
    · rw [hinserted] at he
      exact hs.apart o p u w hget hp (Ne.symm hne) e he d hd
    · rw [List.mem_singleton.mp he]
      exact Ne.symm (Nat.ne_of_lt (hs.fresh p w hp d hd).2.1)
  · have hid' : u.claimed = some id := by rw [← hclaim]; exact hid
    exact ⟨hs.claimed o u id hget hid', fun p w hp hw => hs.single p o w u id hp hget hw hid'⟩

theorem Valid.release (hs : Valid s) (o : Owner) : Valid (s.release o) := by
  have hof : ∀ p w, (s.release o).txs.get? p = some w → s.txs.get? p = some w := fun p w h =>
    KeyMap.get?_of_removeIf h
  exact ⟨hs.bounded, fun p w hp => hs.fresh p w (hof p w hp),
    fun p q v w hp hq => hs.apart p q v w (hof p v hp) (hof q w hq),
    fun p w id hp => hs.claimed p w id (hof p w hp),
    fun p q v w id hp hq => hs.single p q v w id (hof p v hp) (hof q w hq), hs.once⟩

theorem Valid.get?_insertAll (hs : Valid s) (hget : s.txs.get? o = some u)
    (hrow : s.tasks.get? id = some row) : (Ops.insertAll s.tasks u.inserted).get? id = some row := by
  rw [Ops.get?_insertAll fun e he heq => ?_, hrow]
  have hnone := (hs.fresh o u hget e he).2.2
  rw [heq, hrow] at hnone
  cases hnone

theorem Valid.insertAll (hs : Valid s) (hget : s.txs.get? o = some u) :
    Valid { s.release o with tasks := insertAll s.tasks u.inserted } := by
  have hr := hs.release o
  have hkeep : ∀ id row, s.tasks.get? id = some row →
      (Ops.insertAll s.tasks u.inserted).get? id = some row :=
    fun id row hrow => hs.get?_insertAll hget hrow
  refine ⟨forall_insertAll (fun e he => ?_) hs.bounded, fun p w hp e he => ?_, hr.apart,
    fun p w id hp hid => ?_, hr.single, fun id => ?_⟩
  · have hnew := hs.fresh o u hget e he
    exact ⟨hnew.1.bounded, hnew.2.1⟩
  · have hold := hr.fresh p w hp e he
    have hne : p ≠ o := by
      rintro rfl
      rw [get?_release, if_pos rfl] at hp
      cases hp
    refine ⟨hold.1, hold.2.1, ?_⟩
    show (Ops.insertAll s.tasks u.inserted).get? e.1 = none
    rw [Ops.get?_insertAll fun d hd heq => ?_]
    · exact hold.2.2
    · exact hs.apart o p u w hget (KeyMap.get?_of_removeIf hp) (Ne.symm hne) d hd e he heq
  · obtain ⟨row, hrow, hpending⟩ := hr.claimed p w id hp hid
    exact ⟨row, hkeep id row hrow, hpending⟩
  · -- The new rows are pending, so they have no effect.
    show (s.effectsOf id).length = _
    rw [hs.once id]
    cases hrow : s.tasks.get? id with
    | some row =>
      have := hkeep id row hrow
      simp only [this]
    | none =>
      cases hnew : (Ops.insertAll s.tasks u.inserted).get? id with
      | none => rfl
      | some row =>
        have hpending : s.tasks.get? id = none → row.status = .pending :=
          @forall_insertAll s.tasks u.inserted
            (fun id row => s.tasks.get? id = none → row.status = .pending)
            (fun e he _ => (hs.fresh o u hget e he).1.pending)
            (fun id row hrow hnone => by rw [hrow] at hnone; cases hnone) id row hnew
        simp only [Option.any_some, Option.any_none, hpending hrow]
        rfl

theorem Valid.setRow (hs : Valid s) (hget : s.tasks.get? id = some row)
    (hpending : row.status = .pending)
    (hfree : ∀ p v, s.txs.get? p = some v → v.claimed ≠ some id) {r : DeferredTask}
    (hbounded : r.Bounded) (writes : Option ε) (hwrites : (r.status == .done) = writes.isSome) :
    Valid { s with
      tasks := s.tasks.set id r
      effects := s.effects ++ (writes.map (id, ·)).toList } := by
  refine ⟨KeyMap.forall_set ⟨hbounded, (hs.bounded id row hget).2⟩ hs.bounded,
    fun p v hp e he => ?_, hs.apart, fun p v j hp hj => ?_, hs.single, fun j => ?_⟩
  · have hold := hs.fresh p v hp e he
    have hne : e.1 ≠ id := by
      intro heq
      have hnone := hold.2.2
      rw [heq, hget] at hnone
      cases hnone
    exact ⟨hold.1, hold.2.1, by rw [KeyMap.get?_set, if_neg hne]; exact hold.2.2⟩
  · have hne : j ≠ id := fun heq => hfree p v hp (heq ▸ hj)
    obtain ⟨other, hother, hp'⟩ := hs.claimed p v j hp hj
    exact ⟨other, by rw [KeyMap.get?_set, if_neg hne]; exact hother, hp'⟩
  · have hbefore := hs.once j
    show ((s.effects ++ (writes.map (id, ·)).toList).filter fun e => e.1 == j).length =
      if ((s.tasks.set id r).get? j).any (fun row => row.status == .done) then 1 else 0
    rw [List.filter_append, List.length_append, KeyMap.get?_set]
    unfold State.effectsOf at hbefore
    rw [hbefore]
    by_cases hj : j = id
    · subst hj
      rw [if_pos rfl, hget]
      simp only [Option.any_some, hpending, hwrites]
      cases writes <;> simp
    · rw [if_neg hj]
      have hother : ((writes.map (id, ·)).toList.filter fun e => e.1 == j) = [] := by
        cases writes <;> simp [Ne.symm hj]
      rw [hother, List.length_nil, Nat.add_zero]

theorem DeferredTask.succeed_bounded (h : row.Bounded) (hpending : row.status = .pending)
    (now : Int) : (row.succeed now).Bounded := by
  unfold DeferredTask.Bounded at h
  rw [hpending] at h
  exact ⟨Nat.le_add_left 1 row.attempts, h⟩

theorem DeferredTask.fail_status (h : row.Bounded) (hpending : row.status = .pending) (q : Queue)
    (e : HandlerError) (now : Readings) :
    (row.fail q e now).status =
      if row.attempts + 1 = row.maxAttempts then .failed else .pending := by
  unfold DeferredTask.Bounded at h
  rw [hpending] at h
  simp only [DeferredTask.fail, decide_eq_true_eq]
  by_cases hlast : row.attempts + 1 = row.maxAttempts
  · rw [if_pos hlast, if_pos (Nat.le_of_eq hlast.symm)]
  · rw [if_neg hlast, if_neg fun hle => hlast (Nat.le_antisymm h hle)]

theorem DeferredTask.fail_bounded (h : row.Bounded) (hpending : row.status = .pending) (q : Queue)
    (e : HandlerError) (now : Readings) : (row.fail q e now).Bounded := by
  have hstatus := DeferredTask.fail_status h hpending q e now
  unfold DeferredTask.Bounded at h ⊢
  rw [hpending] at h
  rw [hstatus]
  split
  · rename_i heq
    split at heq
    · cases heq
    · rename_i hlast
      exact Nat.lt_of_le_of_ne h hlast
  · rename_i heq
    split at heq <;> cases heq
  · rename_i heq
    split at heq
    · assumption
    · cases heq

theorem Opens.same (h : Opens s o row.kind row.dedupKey u v) :
    v.inserted = u.inserted ∧ v.claimed = u.claimed ∧ v.wakes = u.wakes := by
  rcases h with ⟨-, rfl⟩ | ⟨-, -, -, rfl⟩ <;> exact ⟨rfl, rfl, rfl⟩

theorem locked_eq_false : s.locked id = false ↔
    ∀ o u, s.txs.get? o = some u → u.claimed ≠ some id := by
  unfold State.locked
  rw [List.any_eq_false]
  constructor
  · intro h o u hget
    simpa using h (o, u) (KeyMap.mem_entries_iff.mpr hget)
  · rintro h ⟨o, u⟩ he
    simpa using h o u (KeyMap.mem_entries_iff.mp he)

theorem Valid.unclaimed (hs : Valid s) (hget : s.txs.get? o = some u) (hid : u.claimed = some id) :
    ∀ p v, (s.release o).txs.get? p = some v → v.claimed ≠ some id := by
  intro p v hp hv
  have hpo := hs.single p o v u id (KeyMap.get?_of_removeIf hp) hget hv hid
  rw [hpo, get?_release, if_pos rfl] at hp
  cases hp

theorem Valid.pending (hs : Valid s) (hget : s.txs.get? o = some u) (hid : u.claimed = some id)
    (hrow : s.tasks.get? id = some row) : row.status = .pending := by
  obtain ⟨other, hother, hpending⟩ := hs.claimed o u id hget hid
  rw [hrow] at hother
  cases hother
  exact hpending

theorem Valid.succeed (hs : Valid s) (hget : s.txs.get? (.worker w) = some u)
    (hid : u.claimed = some id) (hrow : s.tasks.get? id = some row) (now : Int) (writes : ε)
    (drains : KeyMap Nat Drain) :
    Valid { s.release (.worker w) with
      tasks := (Ops.insertAll s.tasks u.inserted).set id (row.succeed now)
      drains := drains
      effects := s.effects ++ [(id, writes)] } := by
  have hdone := (hs.insertAll hget).setRow (hs.get?_insertAll hget hrow) (hs.pending hget hid hrow)
    (hs.unclaimed hget hid)
    (DeferredTask.succeed_bounded (hs.bounded id row hrow).1 (hs.pending hget hid hrow) now)
    (some writes) rfl
  exact ⟨hdone.bounded, hdone.fresh, hdone.apart, hdone.claimed, hdone.single, hdone.once⟩

theorem Valid.fail (hs : Valid s) (hget : s.txs.get? (.worker w) = some u)
    (hid : u.claimed = some id) (hrow : s.tasks.get? id = some row) (q : Queue) (e : HandlerError)
    (now : Readings) (drains : KeyMap Nat Drain) :
    Valid { s.release (.worker w) with
      tasks := s.tasks.set id (row.fail q e now)
      drains := drains } := by
  have hpending := hs.pending hget hid hrow
  have hbounded := (hs.bounded id row hrow).1
  have hnotDone : ((row.fail q e now).status == .done) = (none : Option ε).isSome := by
    rw [DeferredTask.fail_status hbounded hpending]
    split <;> rfl
  have hfailed := (hs.release (.worker w)).setRow hrow hpending (hs.unclaimed hget hid)
    (DeferredTask.fail_bounded hbounded hpending q e now) none hnotDone
  refine ⟨hfailed.bounded, hfailed.fresh, hfailed.apart, hfailed.claimed, hfailed.single,
    fun j => ?_⟩
  have hlength := hfailed.once j
  simp only [Option.map_none, Option.toList_none, List.append_nil] at hlength
  exact hlength

theorem Valid.step (hs : Valid s) (act : Act ε) : Valid (s.step act) := by
  generalize ht : s.step act = t
  have hmoves : Moves s act t := ht ▸ moves_step s act
  cases hmoves with
  | rest => exact ⟨hs.bounded, hs.fresh, hs.apart, hs.claimed, hs.single, hs.once⟩
  | begin =>
    exact hs.setTx (fun e he => (by cases he)) (fun p v _ _ e he => (by cases he))
      fun j hj => (by cases hj)
  | insert o q raw opts now u v row hget hnew hkind hopens =>
    exact hs.insertTask hget hopens.same.1 hopens.same.2.1 hnew
  | wake o q kind raw opts now u id hget =>
    exact hs.setTx (hs.fresh o u hget)
      (fun p v hne hp e he d hd => hs.apart o p u v hget hp (Ne.symm hne) e he d hd)
      fun id hid => ⟨hs.claimed o u id hget hid, fun p v hp hv => hs.single p o v u id hp hget hv hid⟩
  | commit n u hget => exact hs.insertAll hget
  | rollback n => exact hs.release (.request n)
  | claim w began now id hclaims hfree hold =>
    obtain ⟨row, hrow, hpending, -, hunlocked, -⟩ := oldest_spec hold
    refine hs.setTx (fun e he => (by cases he)) (fun p v _ _ e he => (by cases he)) fun j hj => ?_
    cases hj
    exact ⟨⟨row, hrow, hpending⟩, fun p v hp hv => absurd hv (locked_eq_false.mp hunlocked p v hp)⟩
  | succeed w result now d u id row writes hdrain hget hid hrow =>
    exact hs.succeed hget hid hrow now.start writes _
  | fail w result now d u id row e hdrain hget hid hrow =>
    exact hs.fail hget hid hrow d.queue e now _
  | abort w =>
    have hr := hs.release (.worker w)
    exact ⟨hr.bounded, hr.fresh, hr.apart, hr.claimed, hr.single, hr.once⟩

theorem valid_empty : Valid (State.empty : State ε) :=
  ⟨fun id row h => (by cases h), fun o u h => (by cases h), fun o p u v h => (by cases h),
    fun o u id h => (by cases h), fun o p u v id h => (by cases h), fun id => rfl⟩

theorem valid_run (acts : List (Act ε)) : Valid (Machine.run State.step State.empty acts) :=
  @Machine.run_invariant _ _ State.step Valid (fun _ act hs => hs.step act) _ valid_empty acts

/-! ### Rows that nobody works on -/

/-- A committed row that no worker has claimed. -/
structure Idle (s : State ε) (id : Nat) (row : DeferredTask) : Prop where
  row : s.tasks.get? id = some row
  unclaimed : ∀ o u, s.txs.get? o = some u → u.claimed ≠ some id

theorem Idle.row_step (hs : Valid s) (h : Idle s id row) (act : Act ε) :
    (s.step act).tasks.get? id = some row := by
  generalize ht : s.step act = t
  have hmoves : Moves s act t := ht ▸ moves_step s act
  have hother : ∀ o u j, s.txs.get? o = some u → u.claimed = some j → id ≠ j :=
    fun o u j hget hj heq => h.unclaimed o u hget (heq ▸ hj)
  cases hmoves with
  | rest | begin | insert | wake | rollback | claim | abort => exact h.row
  | commit n u hget => exact hs.get?_insertAll hget h.row
  | succeed w result now d u j other writes hdrain hget hj =>
    show ((Ops.insertAll s.tasks u.inserted).set j _).get? id = some row
    rw [KeyMap.get?_set, if_neg (hother _ u j hget hj), hs.get?_insertAll hget h.row]
  | fail w result now d u j other e hdrain hget hj =>
    show (s.tasks.set j _).get? id = some row
    rw [KeyMap.get?_set, if_neg (hother _ u j hget hj), h.row]

theorem unclaimed_step (h : ∀ o u, s.txs.get? o = some u → u.claimed ≠ some id)
    (hclaims : s.claims act ≠ some id) :
    ∀ o u, (s.step act).txs.get? o = some u → u.claimed ≠ some id := by
  generalize ht : s.step act = t
  have hmoves : Moves s act t := ht ▸ moves_step s act
  have hrelease : ∀ o p u, (s.release o).txs.get? p = some u → u.claimed ≠ some id :=
    fun o p u hp => h p u (KeyMap.get?_of_removeIf hp)
  cases hmoves with
  | rest => exact h
  | begin => exact KeyMap.forall_set (by simp) h
  | insert o q raw opts now u v row hget hnew hkind hopens =>
    refine KeyMap.forall_set ?_ h
    show v.claimed ≠ some id
    rw [hopens.same.2.1]
    exact h o u hget
  | wake o q kind raw opts now u j hget => exact KeyMap.forall_set (h o u hget) h
  | commit n => exact hrelease (.request n)
  | rollback n => exact hrelease (.request n)
  | claim w began now j hj =>
    refine KeyMap.forall_set ?_ h
    rw [hj] at hclaims
    exact hclaims
  | succeed w => exact hrelease (.worker w)
  | fail w => exact hrelease (.worker w)
  | abort w => exact hrelease (.worker w)

theorem Idle.step (hs : Valid s) (h : Idle s id row)
    (hclaims : s.claims act ≠ some id) : Idle (s.step act) id row :=
  ⟨h.row_step hs act, unclaimed_step h.unclaimed hclaims⟩

theorem Idle.run (hs : Valid s) (h : Idle s id row) {acts : List (Act ε)}
    (hclaims : ∀ p ∈ Machine.steps State.step s acts, p.1.claims p.2 ≠ some id) :
    Idle (Machine.run State.step s acts) id row := by
  have hrun : Valid (Machine.run State.step s acts) ∧ Idle (Machine.run State.step s acts) id row :=
    @Machine.run_guarded _ _ State.step (fun s => Valid s ∧ Idle s id row)
      (fun s act => s.claims act ≠ some id)
      (fun s act h hc => ⟨h.1.step act, Idle.step h.1 h.2 hc⟩) s ⟨hs, h⟩ acts hclaims
  exact hrun.2

theorem pending_of_claims (h : s.claims act = some id) :
    ∃ w began now, act = .claim w began now ∧ s.oldest now = some id ∧
      ∃ row, s.tasks.get? id = some row ∧ row.status = .pending := by
  cases act with
  | claim w began now =>
    cases hclaim : s.claim w began now with
    | error =>
      simp [State.claims, hclaim] at h
    | ok x =>
      have hx : x.2 = some id := by simpa [State.claims, hclaim] using h
      obtain ⟨d, -, -, ⟨hnone, -⟩ | ⟨j, hj, hold, -⟩⟩ := claim_spec hclaim
      · rw [hnone] at hx
        cases hx
      · rw [hj] at hx
        cases hx
        obtain ⟨row, hrow, hpending, -⟩ := oldest_spec hold
        exact ⟨w, began, now, rfl, hold, row, hrow, hpending⟩
  | _ => cases h

theorem Valid.absorbing (hs : Valid s) (hrow : s.tasks.get? id = some row)
    (hstatus : row.status ≠ .pending) (acts : List (Act ε)) :
    Idle (Machine.run State.step s acts) id row := by
  have hidle : Idle s id row := by
    refine ⟨hrow, fun o u hget hid => ?_⟩
    obtain ⟨other, hother, hpending⟩ := hs.claimed o u id hget hid
    rw [hrow] at hother
    cases hother
    exact hstatus hpending
  have hrun : Valid (Machine.run State.step s acts) ∧ Idle (Machine.run State.step s acts) id row :=
    @Machine.run_invariant _ _ State.step (fun s => Valid s ∧ Idle s id row)
      (fun s act h => ⟨h.1.step act, Idle.step h.1 h.2 fun hc => by
        obtain ⟨-, -, -, -, -, other, hother, hpending⟩ := pending_of_claims hc
        rw [h.2.row] at hother
        cases hother
        exact hstatus hpending⟩) s ⟨hs, hidle⟩ acts
  exact hrun.2

/-! ### The delay -/

theorem doubleDelay_eq {backoffMax : Int} (rounds : Nat) {delay : Int} (hnonneg : 0 ≤ delay)
    (hle : delay ≤ backoffMax) :
    doubleDelay backoffMax rounds delay = min (delay * 2 ^ rounds) backoffMax := by
  induction rounds generalizing delay with
  | zero =>
    rw [doubleDelay, pow_zero, Int.mul_one, Int.min_eq_left hle]
  | succ n ih =>
    have hpos : (0 : Int) < 2 ^ n := Int.pow_pos (by decide)
    have hpow : delay * 2 ^ (n + 1) = delay * 2 * 2 ^ n := by
      rw [pow_succ, Int.mul_assoc, Int.mul_comm (2 ^ n) 2]
    rw [doubleDelay]
    split
    · rw [ih (by omega) (by omega), hpow]
      by_cases hdouble : delay * 2 ≤ backoffMax
      · rw [Int.min_eq_left hdouble]
      · -- The maximum is reached, and further doubling stays above it.
        have hmax : backoffMax ≤ backoffMax * 2 ^ n := by nlinarith
        have hmore : backoffMax ≤ delay * 2 * 2 ^ n := by nlinarith
        rw [Int.min_eq_right (by omega : backoffMax ≤ delay * 2), Int.min_eq_right hmax,
          Int.min_eq_right hmore]
    · have heq : delay = backoffMax := by omega
      have hmore : backoffMax ≤ delay * 2 ^ (n + 1) := by
        rw [hpow, heq]
        nlinarith
      rw [Int.min_eq_right hmore, heq]

theorem Queue.delay_eq (q : Queue) (hnonneg : 0 ≤ q.backoffBase) (hle : q.backoffBase ≤ q.backoffMax)
    (attempts : Nat) : q.delay attempts = min (q.backoffBase * 2 ^ (attempts - 1)) q.backoffMax :=
  doubleDelay_eq _ hnonneg hle

theorem Queue.delay_pos (q : Queue) (hpos : 0 < q.backoffBase) (hle : q.backoffBase ≤ q.backoffMax)
    (attempts : Nat) : q.backoffBase ≤ q.delay attempts := by
  rw [q.delay_eq (Int.le_of_lt hpos) hle]
  have hpow : (0 : Int) < 2 ^ (attempts - 1) := Int.pow_pos (by decide)
  exact Int.le_min.mpr ⟨by nlinarith, hle⟩

/-! ### Runs -/

/-- A worker runs the handler of a row. -/
structure Running (s : State ε) (w : Nat) (d : Drain) (id : Nat) (row : DeferredTask) : Prop where
  drain : s.drains.get? w = some d
  tx : ∃ u, s.txs.get? (.worker w) = some u ∧ u.claimed = some id
  row : s.tasks.get? id = some row

/-- The state after a run. -/
def after (acts : List (Act ε)) : State ε := Machine.run State.step State.empty acts

theorem after_concat (acts : List (Act ε)) (act : Act ε) :
    after (acts ++ [act]) = (after acts).step act :=
  Machine.run_concat ..

theorem Running.finish {d : Drain} (h : Running s w d id row) (result : Except String ε)
    (now : Readings) :
    (∃ u, s.txs.get? (.worker w) = some u ∧ ∀ writes, d.queue.handle row result = .ok writes →
      s.step (.finish w result now) = { s.release (.worker w) with
        tasks := (Ops.insertAll s.tasks u.inserted).set id (row.succeed now.start)
        drains := s.drains.set w (State.Drain.count d .done)
        effects := s.effects ++ [(id, writes)] }) ∧
    ∀ e, d.queue.handle row result = .error e →
      s.step (.finish w result now) = { s.release (.worker w) with
        tasks := s.tasks.set id (row.fail d.queue e now)
        drains := s.drains.set w (State.Drain.count d (row.fail d.queue e now).status) } := by
  obtain ⟨u, hget, hid⟩ := h.tx
  have hrun : ∀ t, s.finish w result now = .ok t → s.step (.finish w result now) = t := by
    intro t ht
    show s.orElse (s.finish w result now) = t
    rw [ht]
    rfl
  have hdrain : s.drain w = .ok d := elim_eq_ok.mpr h.drain
  have htx : s.tx (.worker w) = .ok u := elim_eq_ok.mpr hget
  have hrow : s.task id = .ok row := elim_eq_ok.mpr h.row
  refine ⟨⟨u, hget, fun writes hok => hrun _ ?_⟩, fun e herror => hrun _ ?_⟩
  all_goals rw [State.finish, hdrain, ok_bind, htx, ok_bind, hid, Option.elim_some, ok_bind, hrow, ok_bind]
  · rw [hok]
    rfl
  · rw [herror]
    rfl

/-- What a run says about the outcomes of its tasks. -/
structure TaskOutcomes (acts : List (Act ε)) : Prop where
  /-- A task that is done has one committed effect, and no other task has any. -/
  once : ∀ id, ((after acts).effectsOf id).length =
    if ((after acts).tasks.get? id).any (fun row => row.status == .done) then 1 else 0
  /-- A success commits the effect together with the status. -/
  success : ∀ before w result now rest, acts = before ++ .finish w result now :: rest →
    ∀ d id row writes, Running (after before) w d id row →
      d.queue.handle row result = .ok writes →
        (after (before ++ [.finish w result now])).tasks.get? id = some (row.succeed now.start) ∧
          (after (before ++ [.finish w result now])).effects =
            (after before).effects ++ [(id, writes)]
  /-- A failure has no effect, and writes no other row. It counts one more attempt; the last one
  fails the task, and the others put it off by the delay. The drain goes on. -/
  failure : ∀ before w result now rest, acts = before ++ .finish w result now :: rest →
    ∀ d id row e, Running (after before) w d id row → d.queue.handle row result = .error e →
      ∃ failed : DeferredTask,
        (after (before ++ [.finish w result now])).tasks = (after before).tasks.set id failed ∧
        (after (before ++ [.finish w result now])).effects = (after before).effects ∧
        (after (before ++ [.finish w result now])).drains.get? w =
          some (State.Drain.count d failed.status) ∧
        failed.attempts = row.attempts + 1 ∧
        failed.status = (if row.attempts + 1 = row.maxAttempts then .failed else .pending) ∧
        (0 ≤ d.queue.backoffBase → d.queue.backoffBase ≤ d.queue.backoffMax →
          failed.availableAt = now.available +
            min (d.queue.backoffBase * 2 ^ row.attempts) d.queue.backoffMax)
  /-- What is done or failed stays as it is. -/
  absorbing : ∀ before rest, acts = before ++ rest → ∀ id row,
    (after before).tasks.get? id = some row → row.status ≠ .pending →
      (after acts).tasks.get? id = some row
  /-- A task that has failed is claimed again only after its delay, and then no task that was due
  at its failure waits unlocked. -/
  spaced : ∀ before w result now mid w' began clock rest,
    acts = before ++ .finish w result now :: mid ++ .claim w' began clock :: rest →
      ∀ d id row e, Running (after before) w d id row → d.queue.handle row result = .error e →
        (∀ p ∈ Machine.steps State.step (after (before ++ [.finish w result now])) mid,
          p.1.claims p.2 ≠ some id) →
        (after (before ++ .finish w result now :: mid)).claims (.claim w' began clock) = some id →
          now.available + d.queue.delay (row.attempts + 1) ≤ clock ∧
            (0 < d.queue.backoffBase → d.queue.backoffBase ≤ d.queue.backoffMax →
              ∀ j other, (after (before ++ .finish w result now :: mid)).tasks.get? j = some other →
                other.status = .pending →
                  (after (before ++ .finish w result now :: mid)).locked j = false →
                    now.available < other.availableAt)

/-- The outcomes of the tasks of every run: any workers, with any settings, next to any other
transactions. -/
theorem outcomes (acts : List (Act ε)) : TaskOutcomes acts := by
  refine ⟨(valid_run acts).once, ?_, ?_, ?_, ?_⟩
  · rintro before w result now rest rfl d id row writes hrunning hok
    obtain ⟨⟨u, -, hstep⟩, -⟩ := hrunning.finish result now
    rw [after_concat, hstep writes hok]
    exact ⟨by simp [KeyMap.get?_set], rfl⟩
  · rintro before w result now rest rfl d id row e hrunning herror
    have hvalid : Valid (after before) := valid_run before
    obtain ⟨u, hget, hid⟩ := hrunning.tx
    obtain ⟨row', hrow', hpending⟩ := hvalid.claimed _ u id hget hid
    rw [hrunning.row] at hrow'
    cases hrow'
    have hstep := (hrunning.finish result now).2 e herror
    refine ⟨row.fail d.queue e now, ?_, ?_, ?_, rfl,
      DeferredTask.fail_status (hvalid.bounded id row hrunning.row).1 hpending d.queue e now,
      fun hnonneg hle => ?_⟩
    · rw [after_concat, hstep]
    · rw [after_concat, hstep]
      rfl
    · rw [after_concat, hstep]
      simp [KeyMap.get?_set]
    · show now.available + d.queue.delay (row.attempts + 1) = _
      rw [d.queue.delay_eq hnonneg hle, Nat.add_sub_cancel]
  · rintro before rest rfl id row hrow hstatus
    have hafter : after (before ++ rest) = Machine.run State.step (after before) rest :=
      Machine.run_append ..
    rw [hafter]
    exact ((valid_run before).absorbing hrow hstatus rest).row
  · rintro before w result now mid w' began clock rest rfl d id row e hrunning herror hmid hclaims
    have hvalid : Valid (after before) := valid_run before
    obtain ⟨u, hget, hid⟩ := hrunning.tx
    have hstep := (hrunning.finish result now).2 e herror
    have hidle : Idle (after (before ++ [.finish w result now])) id (row.fail d.queue e now) := by
      rw [after_concat, hstep]
      exact ⟨by simp [KeyMap.get?_set], hvalid.unclaimed hget hid⟩
    have hafter : after (before ++ .finish w result now :: mid) =
        Machine.run State.step (after (before ++ [.finish w result now])) mid := by
      rw [List.append_cons]
      exact Machine.run_append ..
    -- The row rests until the claim, so the claim finds the time that the failure wrote.
    have hrow : (after (before ++ .finish w result now :: mid)).tasks.get? id =
        some (row.fail d.queue e now) := by
      rw [hafter]
      exact (Idle.run (valid_run _) hidle hmid).row
    obtain ⟨w₁, began₁, clock₁, hact, hold, -⟩ := pending_of_claims hclaims
    cases hact
    obtain ⟨row', hrow', -, hdue, -, hfirst⟩ := oldest_spec hold
    rw [hrow] at hrow'
    cases hrow'
    have hdelay : (row.fail d.queue e now).availableAt =
        now.available + d.queue.delay (row.attempts + 1) := rfl
    rw [hdelay] at hdue
    refine ⟨hdue, fun hpos hle j other hother hpending hfree => ?_⟩
    have hbase := d.queue.delay_pos hpos hle (row.attempts + 1)
    by_cases hdue' : other.availableAt ≤ clock
    · have hbefore : now.available + d.queue.delay (row.attempts + 1) ≤ other.availableAt := by
        rw [← hdelay]
        rcases hfirst j other hother hpending hdue' hfree with hlt | ⟨heq, -⟩
        · exact Int.le_of_lt hlt
        · exact Int.le_of_eq heq
      omega
    · omega

end

/-! ### A drain that takes longer than the delay -/

/-- A process with one kind of task, and a delay of 30 seconds. -/
def sampleQueue : Queue := ⟨["case.ok"], 30000000, 3600000000, 5⟩

/-- A task is enqueued, claimed and fails. -/
def failedOnce : List (Act Unit) :=
  [.begin 1 0, .enqueue (.request 1) sampleQueue "case.ok" (some ⟨[], 2⟩) ⟨0, none, 0, ""⟩ 0,
    .commit 1, .startDrain 1 sampleQueue 10, .claim 1 0 0,
    .finish 1 (.error "*errors.errorString") ⟨0, 0, 0⟩]

/-- The drain that has run the task claims it once more, 30 seconds later. -/
theorem drain_runs_twice :
    0 < sampleQueue.backoffBase ∧ failedOnce[3]? = some (.startDrain 1 sampleQueue 10) ∧
      (after (failedOnce.take 4)).claims (.claim 1 0 0) = some 1 ∧
      ((after failedOnce).drains.get? 1).map Drain.remaining = some 9 ∧
      (after failedOnce).claims (.claim 1 30000000 30000000) = some 1 := by
  refine ⟨by decide, rfl, by decide, by decide, by decide⟩

end SocialActivities.Ops
