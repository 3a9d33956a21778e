import SocialActivities.Ops.Outcomes

/-!
# `SocialActivities.Ops.Wakeups`: which enqueues lead to a run of the handler

`Unique` is the invariant of the deduplication keys: whoever inserts a row under a key has locked
it, so at most one row is pending under it.

An infinite schedule is `Fair` when every worker that has claimed a row finishes or gives up, and
when the workers keep up with the rows that are due. Then a task is claimed until it is done or
failed (`settled_of_unclaimed`). So an enqueue that has committed has no later run of its handler
exactly when a run that was under way before the commit settles the task: `wakeups`.

That happens (`swallowed`): a row that a worker has claimed is still pending for the other
transactions, so `Enqueue` returns it, and the worker that did not see what the transaction has
written marks it as done.
-/

namespace SocialActivities.Ops

open Lib

/-- Two rows of one kind with one deduplication key. -/
def DeferredTask.SameKey (row other : DeferredTask) : Prop :=
  row.dedupKey ≠ "" ∧ row.kind = other.kind ∧ row.dedupKey = other.dedupKey

/-- The invariant of the deduplication keys. -/
structure Unique {ε : Type} (s : State ε) : Prop where
  locks : ∀ o p u v, s.txs.get? o = some u → s.txs.get? p = some v → o ≠ p →
    ∀ key ∈ u.locks, key ∉ v.locks
  held : ∀ o u, s.txs.get? o = some u → ∀ e ∈ u.inserted, e.2.dedupKey ≠ "" →
    (e.2.kind, e.2.dedupKey) ∈ u.locks
  own : ∀ o u, s.txs.get? o = some u → ∀ e ∈ u.inserted, ∀ d ∈ u.inserted,
    e.2.SameKey d.2 → e.1 = d.1
  apart : ∀ o u, s.txs.get? o = some u → ∀ e ∈ u.inserted, ∀ id row,
    s.tasks.get? id = some row → row.status = .pending → ¬e.2.SameKey row
  one : ∀ i j row other, s.tasks.get? i = some row → s.tasks.get? j = some other →
    row.status = .pending → other.status = .pending → row.SameKey other → i = j

section
variable {ε : Type} {s t : State ε} {o : Owner} {u v : Tx} {id : Nat} {row : DeferredTask}

/-! ### Deduplication keys -/

theorem DeferredTask.SameKey.symm {other : DeferredTask} (h : row.SameKey other) :
    other.SameKey row :=
  ⟨h.2.2 ▸ h.1, h.2.1.symm, h.2.2.symm⟩

theorem keyLocked_eq_false {key : String × String} : s.keyLocked o key = false ↔
    ∀ p v, p ≠ o → s.txs.get? p = some v → key ∉ v.locks := by
  unfold State.keyLocked
  rw [List.any_eq_false]
  constructor
  · intro h p v hne hget
    have hno := h (p, v) (KeyMap.mem_entries_iff.mpr hget)
    simpa [hne] using hno
  · rintro h ⟨p, v⟩ he
    by_cases hne : p = o
    · simp [hne]
    · simpa [hne] using h p v hne (KeyMap.mem_entries_iff.mp he)

theorem pendingRow_spec {kind dedupKey : String} (h : s.pendingRow u kind dedupKey = some id) :
    (∃ row, s.tasks.get? id = some row) ∨ ∃ e ∈ u.inserted, e.1 = id := by
  unfold State.pendingRow at h
  obtain ⟨e, hfind, rfl⟩ := Option.map_eq_some_iff.mp h
  rcases List.mem_append.mp (List.mem_of_find?_eq_some hfind) with hrow | hown
  · exact Or.inl ⟨e.2, KeyMap.mem_entries_iff.mp hrow⟩
  · exact Or.inr ⟨e, hown, rfl⟩

theorem pendingRow_eq_none {kind dedupKey : String} (h : s.pendingRow u kind dedupKey = none) :
    (∀ id row, s.tasks.get? id = some row → row.status = .pending →
        ¬(row.kind = kind ∧ row.dedupKey = dedupKey)) ∧
      ∀ e ∈ u.inserted, e.2.status = .pending → ¬(e.2.kind = kind ∧ e.2.dedupKey = dedupKey) := by
  unfold State.pendingRow at h
  rw [Option.map_eq_none_iff, List.find?_eq_none] at h
  constructor
  · rintro id row hrow hpending ⟨hkind, hkey⟩
    have hno := h (id, row) (List.mem_append_left _ (KeyMap.mem_entries_iff.mpr hrow))
    simp [hpending, hkind, hkey] at hno
  · rintro e he hpending ⟨hkind, hkey⟩
    have hno := h e (List.mem_append_right _ he)
    simp [hpending, hkind, hkey] at hno

theorem Unique.setTx (hs : Unique s)
    (hlocks : ∀ p v, p ≠ o → s.txs.get? p = some v → ∀ key ∈ u.locks, key ∉ v.locks)
    (hheld : ∀ e ∈ u.inserted, e.2.dedupKey ≠ "" → (e.2.kind, e.2.dedupKey) ∈ u.locks)
    (hown : ∀ e ∈ u.inserted, ∀ d ∈ u.inserted, e.2.SameKey d.2 → e.1 = d.1)
    (hapart : ∀ e ∈ u.inserted, ∀ id row, s.tasks.get? id = some row → row.status = .pending →
      ¬e.2.SameKey row) : Unique (s.setTx o u) := by
  exact ⟨KeyMap.pairs_set (fun a b h key hb ha => h key ha hb) hlocks hs.locks,
    KeyMap.forall_set hheld hs.held, KeyMap.forall_set hown hs.own, KeyMap.forall_set hapart hs.apart,
    hs.one⟩

theorem Unique.release (hs : Unique s) (o : Owner) : Unique (s.release o) := by
  have hof : ∀ p w, (s.release o).txs.get? p = some w → s.txs.get? p = some w := fun p w h =>
    KeyMap.get?_of_removeIf h
  exact ⟨fun p q v w hp hq => hs.locks p q v w (hof p v hp) (hof q w hq),
    fun p w hp => hs.held p w (hof p w hp), fun p w hp => hs.own p w (hof p w hp),
    fun p w hp => hs.apart p w (hof p w hp), hs.one⟩

theorem Unique.lock (hs : Unique s) (hget : s.txs.get? o = some u) {key : String × String}
    (hfree : s.keyLocked o key = false) :
    (∀ p v, p ≠ o → s.txs.get? p = some v → ∀ k ∈ (u.lock key).locks, k ∉ v.locks) ∧
      ∀ e ∈ u.inserted, e.2.dedupKey ≠ "" → (e.2.kind, e.2.dedupKey) ∈ (u.lock key).locks := by
  refine ⟨fun p v hne hp k hk => ?_, fun e he hkey => ?_⟩
  · rcases List.mem_cons.mp hk with rfl | hk
    · exact keyLocked_eq_false.mp hfree p v hne hp
    · exact hs.locks o p u v hget hp (Ne.symm hne) k hk
  · exact List.mem_cons_of_mem _ (hs.held o u hget e he hkey)

/-- A transaction that may insert a row has locked its key, and sees no row pending under it. -/
theorem Unique.opens (hs : Unique s) (hvalid : Valid s) (hget : s.txs.get? o = some u)
    (h : Opens s o row.kind row.dedupKey u v) :
    (∀ p w, p ≠ o → s.txs.get? p = some w → ∀ k ∈ v.locks, k ∉ w.locks) ∧
      (∀ e ∈ u.inserted, e.2.dedupKey ≠ "" → (e.2.kind, e.2.dedupKey) ∈ v.locks) ∧
      (row.dedupKey ≠ "" → (row.kind, row.dedupKey) ∈ v.locks) ∧
      (∀ e ∈ u.inserted, ¬e.2.SameKey row) ∧
      ∀ id other, s.tasks.get? id = some other → other.status = .pending → ¬row.SameKey other := by
  rcases h with ⟨hnone, rfl⟩ | ⟨hkey, hfree, hnothing, rfl⟩
  · refine ⟨fun p w hne hp => hs.locks o p v w hget hp (Ne.symm hne), hs.held o v hget,
      fun hne => absurd hnone hne, fun e _ hsame => hsame.symm.1 hnone,
      fun id other _ _ hsame => hsame.1 hnone⟩
  · obtain ⟨hcommitted, hown⟩ := pendingRow_eq_none hnothing
    obtain ⟨hlocks, hheld⟩ := hs.lock hget hfree
    refine ⟨hlocks, hheld, fun _ => List.mem_cons_self, fun e he hsame => ?_,
      fun id other hother hpending hsame => ?_⟩
    · exact hown e he (hvalid.fresh o u hget e he).1.pending ⟨hsame.2.1, hsame.2.2⟩
    · exact hcommitted id other hother hpending ⟨hsame.2.1.symm, hsame.2.2.symm⟩

theorem Unique.insertTask (hs : Unique s) (hvalid : Valid s) (hget : s.txs.get? o = some u)
    (h : Opens s o row.kind row.dedupKey u v) : Unique (s.insertTask o v row) := by
  have hnext : Unique { s with nextId := s.nextId + 1 } :=
    ⟨hs.locks, hs.held, hs.own, hs.apart, hs.one⟩
  obtain ⟨hlocks, hheld, hlocked, hnone, hrows⟩ := hs.opens hvalid hget h
  have hsplit : ∀ e ∈ ((v.insert s.nextId row).wake s.nextId).inserted,
      e ∈ u.inserted ∨ e = (s.nextId, row) := by
    intro e he
    rw [← h.same.1]
    exact (List.mem_append.mp he).imp_right List.mem_singleton.mp
  refine hnext.setTx hlocks (fun e he hkey => ?_) (fun e he d hd hsame => ?_)
    fun e he id other hother hpending => ?_
  · rcases hsplit e he with he | rfl
    · exact hheld e he hkey
    · exact hlocked hkey
  · rcases hsplit e he with he | rfl
    · rcases hsplit d hd with hd | rfl
      · exact hs.own o u hget e he d hd hsame
      · exact absurd hsame (hnone e he)
    · rcases hsplit d hd with hd | rfl
      · exact absurd hsame.symm (hnone d hd)
      · rfl
  · rcases hsplit e he with he | rfl
    · exact hs.apart o u hget e he id other hother hpending
    · exact hrows id other hother hpending

theorem of_insertAll {tasks : KeyMap Nat DeferredTask} {inserted : List (Nat × DeferredTask)}
    (h : (insertAll tasks inserted).get? id = some row) :
    (id, row) ∈ inserted ∨ tasks.get? id = some row :=
  @forall_insertAll tasks inserted (fun id row => (id, row) ∈ inserted ∨ tasks.get? id = some row)
    (fun _ he => Or.inl he) (fun _ _ hrow => Or.inr hrow) id row h

theorem Unique.insertAll (hs : Unique s) (hget : s.txs.get? o = some u) :
    Unique { s.release o with tasks := insertAll s.tasks u.inserted } := by
  have hr := hs.release o
  refine ⟨hr.locks, hr.held, hr.own, fun p w hp e he id row hrow hpending hsame => ?_,
    fun i j row other hrow hother hpending hother' hsame => ?_⟩
  · rcases of_insertAll hrow with hnew | hold
    · -- Two transactions do not have the lock of one key.
      have hne : o ≠ p := by
        rintro rfl
        rw [get?_release, if_pos rfl] at hp
        cases hp
      have hlocked := hs.held o u hget _ hnew hsame.symm.1
      refine hs.locks o p u w hget (KeyMap.get?_of_removeIf hp) hne _ hlocked ?_
      have hheld := hr.held p w hp e he hsame.1
      rw [hsame.2.1, hsame.2.2] at hheld
      exact hheld
    · exact hr.apart p w hp e he id row hold hpending hsame
  · rcases of_insertAll hrow with hnew | hold
    · rcases of_insertAll hother with hnew' | hold'
      · exact hs.own o u hget _ hnew _ hnew' hsame
      · exact absurd hsame (hs.apart o u hget _ hnew j other hold' hother')
    · rcases of_insertAll hother with hnew' | hold'
      · exact absurd hsame.symm (hs.apart o u hget _ hnew' i row hold hpending)
      · exact hs.one i j row other hold hold' hpending hother' hsame

theorem Unique.setRow (hs : Unique s) (hget : s.tasks.get? id = some row)
    (hpending : row.status = .pending) {r : DeferredTask} (hkind : r.kind = row.kind)
    (hkey : r.dedupKey = row.dedupKey) : Unique { s with tasks := s.tasks.set id r } := by
  have hof : ∀ j other, (s.tasks.set id r).get? j = some other → other.status = .pending →
      ∃ old, s.tasks.get? j = some old ∧ old.status = .pending ∧ other.kind = old.kind ∧
        other.dedupKey = old.dedupKey := by
    intro j other hother hp
    rcases KeyMap.of_get?_set hother with ⟨rfl, rfl⟩ | hother
    · exact ⟨row, hget, hpending, hkind, hkey⟩
    · exact ⟨other, hother, hp, rfl, rfl⟩
  refine ⟨hs.locks, hs.held, hs.own, fun o u hu e he j other hother hp hsame => ?_,
    fun i j first second hfirst hsecond hp hp' hsame => ?_⟩
  · obtain ⟨old, hold, hstatus, hk, hd⟩ := hof j other hother hp
    refine hs.apart o u hu e he j old hold hstatus ?_
    exact ⟨hsame.1, hsame.2.1.trans hk, hsame.2.2.trans hd⟩
  · obtain ⟨old, hold, hstatus, hk, hd⟩ := hof i first hfirst hp
    obtain ⟨old', hold', hstatus', hk', hd'⟩ := hof j second hsecond hp'
    refine hs.one i j old old' hold hold' hstatus hstatus' ?_
    unfold DeferredTask.SameKey
    rw [← hk, ← hd, ← hk', ← hd']
    exact hsame

theorem Unique.step (hvalid : Valid s) (hs : Unique s) (act : Act ε) : Unique (s.step act) := by
  generalize ht : s.step act = t
  have hmoves : Moves s act t := ht ▸ moves_step s act
  cases hmoves with
  | rest => exact ⟨hs.locks, hs.held, hs.own, hs.apart, hs.one⟩
  | begin | claim =>
    exact hs.setTx (fun p v _ _ key hkey => (by cases hkey)) (fun e he => (by cases he))
      (fun e he => (by cases he)) fun e he => (by cases he)
  | insert o q raw opts now u v row hget hnew hkind hopens =>
    exact hs.insertTask hvalid hget hopens
  | wake o q kind raw opts now u id hget hfree =>
    obtain ⟨hlocks, hheld⟩ := hs.lock hget hfree
    exact hs.setTx hlocks hheld (hs.own o u hget) (hs.apart o u hget)
  | commit n u hget => exact hs.insertAll hget
  | rollback n => exact hs.release (.request n)
  | succeed w result now d u id row writes hdrain hget hid hrow =>
    have hpending := hvalid.pending hget hid hrow
    have hdone := (hs.insertAll hget).setRow (hvalid.get?_insertAll hget hrow) hpending
      (r := row.succeed now.start) rfl rfl
    exact ⟨hdone.locks, hdone.held, hdone.own, hdone.apart, hdone.one⟩
  | fail w result now d u id row e hdrain hget hid hrow =>
    have hpending := hvalid.pending hget hid hrow
    have hfailed := (hs.release (.worker w)).setRow hrow hpending
      (r := row.fail d.queue e now) rfl rfl
    exact ⟨hfailed.locks, hfailed.held, hfailed.own, hfailed.apart, hfailed.one⟩
  | abort w =>
    have hr := hs.release (.worker w)
    exact ⟨hr.locks, hr.held, hr.own, hr.apart, hr.one⟩

/-! ### Rows and what waits for them -/

theorem row_stays (hrow : ∃ row, s.tasks.get? id = some row) (act : Act ε) :
    ∃ row, (s.step act).tasks.get? id = some row := by
  generalize ht : s.step act = t
  have hmoves : Moves s act t := ht ▸ moves_step s act
  have hset : ∀ {tasks : KeyMap Nat DeferredTask} (j : Nat) (r : DeferredTask),
      (∃ row, tasks.get? id = some row) → ∃ row, (tasks.set j r).get? id = some row := by
    intro tasks j r h
    rw [KeyMap.get?_set]
    split
    · exact ⟨r, rfl⟩
    · exact h
  cases hmoves with
  | rest | begin | insert | wake | rollback | claim | abort => exact hrow
  | commit => exact mem_insertAll (Or.inr hrow)
  | succeed => exact hset _ _ (mem_insertAll (Or.inr hrow))
  | fail => exact hset _ _ hrow

/-- What `Enqueue` has returned to a transaction is committed or an insert of it, and it has
returned every insert. -/
def Woken (s : State ε) : Prop :=
  ∀ o u, s.txs.get? o = some u →
    (∀ id ∈ u.wakes, (∃ e ∈ u.inserted, e.1 = id) ∨ ∃ row, s.tasks.get? id = some row) ∧
      ∀ e ∈ u.inserted, e.1 ∈ u.wakes

theorem Woken.step (hs : Woken s) (act : Act ε) : Woken (s.step act) := by
  have hrows : ∀ o u, s.txs.get? o = some u →
      (∀ id ∈ u.wakes, (∃ e ∈ u.inserted, e.1 = id) ∨
        ∃ row, (s.step act).tasks.get? id = some row) ∧ ∀ e ∈ u.inserted, e.1 ∈ u.wakes :=
    fun o u hget => ⟨fun id hid => ((hs o u hget).1 id hid).imp_right fun h => row_stays h act,
      (hs o u hget).2⟩
  generalize ht : s.step act = t at hrows
  have hmoves : Moves s act t := ht ▸ moves_step s act
  cases hmoves with
  | rest => exact hrows
  | begin | claim =>
    exact KeyMap.forall_set ⟨fun id hid => (by cases hid), fun e he => (by cases he)⟩ hrows
  | insert o q raw opts now u v row hget hnew hkind hopens =>
    obtain ⟨hinserted, -, hwakes⟩ := hopens.same
    refine KeyMap.forall_set ⟨fun id hid => ?_, fun e he => ?_⟩ hrows
    · rcases List.mem_append.mp hid with hid | hid
      · have hid' : id ∈ u.wakes := hwakes ▸ hid
        rcases (hrows o u hget).1 id hid' with ⟨e, he, heq⟩ | hrow
        · refine Or.inl ⟨e, List.mem_append_left _ ?_, heq⟩
          rw [hinserted]
          exact he
        · exact Or.inr hrow
      · rw [List.mem_singleton.mp hid]
        exact Or.inl ⟨_, List.mem_append_right _ List.mem_cons_self, rfl⟩
    · rcases List.mem_append.mp he with he | he
      · rw [hinserted] at he
        have hid : e.1 ∈ v.wakes := hwakes ▸ (hrows o u hget).2 e he
        exact List.mem_append_left _ hid
      · rw [List.mem_singleton.mp he]
        exact List.mem_append_right _ List.mem_cons_self
  | wake o q kind raw opts now u id hget hfree hfound =>
    refine KeyMap.forall_set ⟨fun j hj => ?_, fun e he => ?_⟩ hrows
    · rcases List.mem_append.mp hj with hj | hj
      · exact (hrows o u hget).1 j hj
      · rw [List.mem_singleton.mp hj]
        exact (pendingRow_spec hfound).symm
    · exact List.mem_append_left _ ((hrows o u hget).2 e he)
  | commit | rollback => exact fun p w hp => hrows p w (KeyMap.get?_of_removeIf hp)
  | succeed w => exact fun p w hp => hrows p w (KeyMap.get?_of_removeIf hp)
  | fail w => exact fun p w hp => hrows p w (KeyMap.get?_of_removeIf hp)
  | abort w => exact fun p w hp => hrows p w (KeyMap.get?_of_removeIf hp)

/-- A step commits a transaction of a request, or that of a worker whose handler has succeeded. -/
inductive Commits (s : State ε) : Act ε → Tx → Prop where
  | request (n : Nat) (u : Tx) (hget : s.txs.get? (.request n) = some u) : Commits s (.commit n) u
  | worker (w : Nat) (result : Except String ε) (now : Readings) (d : Drain) (u : Tx) (id : Nat)
    (row : DeferredTask) (writes : ε) (hdrain : s.drains.get? w = some d)
    (hget : s.txs.get? (.worker w) = some u) (hid : u.claimed = some id)
    (hrow : s.tasks.get? id = some row) (hhandle : d.queue.handle row result = .ok writes) :
    Commits s (.finish w result now) u

variable {act : Act ε}

theorem Commits.tx (h : Commits s act u) : ∃ o, s.txs.get? o = some u := by
  cases h with
  | request n _ hget => exact ⟨_, hget⟩
  | worker w result now d _ id row writes hdrain hget => exact ⟨_, hget⟩

theorem Commits.claims_eq_none (h : Commits s act u) : s.claims act = none := by
  cases h with
  | request | worker => rfl

theorem Commits.wakes_row (h : Commits s act u) (hs : Woken s) (hid : id ∈ u.wakes) :
    ∃ row, (s.step act).tasks.get? id = some row := by
  obtain ⟨o, hget⟩ := h.tx
  have hwoken := (hs o u hget).1 id hid
  cases h with
  | request n _ hget =>
    have hstep : s.step (.commit n) =
        { s.release (.request n) with tasks := insertAll s.tasks u.inserted } := by
      simp only [State.step, State.commit, State.tx, hget]
      rfl
    rw [hstep]
    exact mem_insertAll hwoken
  | worker w result now d _ j row writes hdrain hget hj hrow hhandle =>
    have hrunning : Running s w d j row := ⟨hdrain, ⟨u, hget, hj⟩, hrow⟩
    obtain ⟨⟨u', hget', hstep⟩, -⟩ := hrunning.finish result now
    rw [hget] at hget'
    cases hget'
    rw [hstep writes hhandle]
    show ∃ row, ((insertAll s.tasks u.inserted).set j _).get? id = some row
    rw [KeyMap.get?_set]
    split
    · exact ⟨_, rfl⟩
    · exact mem_insertAll hwoken

/-- A step brings a task from pending to done or failed. -/
def Settles (s : State ε) (act : Act ε) (id : Nat) : Prop :=
  (∃ row, s.tasks.get? id = some row ∧ row.status = .pending) ∧
    ∃ row, (s.step act).tasks.get? id = some row ∧ row.status ≠ .pending

theorem pending_of_new (hs : Valid s) (hnone : s.tasks.get? id = none)
    (hrow : (s.step act).tasks.get? id = some row) : row.status = .pending := by
  generalize ht : s.step act = t at hrow
  have hmoves : Moves s act t := ht ▸ moves_step s act
  have hnew : ∀ o u, s.txs.get? o = some u → (insertAll s.tasks u.inserted).get? id = some row →
      row.status = .pending := by
    intro o u hget hrow
    rcases of_insertAll hrow with hnew | hold
    · exact (hs.fresh o u hget _ hnew).1.pending
    · rw [hnone] at hold
      cases hold
  cases hmoves with
  | rest | begin | insert | wake | rollback | claim | abort =>
    have hsame : s.tasks.get? id = some row := hrow
    rw [hnone] at hsame
    cases hsame
  | commit n u hget => exact hnew _ u hget hrow
  | succeed w result now d u j other writes hdrain hget hj hother =>
    have hne : id ≠ j := by
      rintro rfl
      rw [hnone] at hother
      cases hother
    rw [KeyMap.get?_set, if_neg hne] at hrow
    exact hnew _ u hget hrow
  | fail w result now d u j other e hdrain hget hj hother =>
    have hne : id ≠ j := by
      rintro rfl
      rw [hnone] at hother
      cases hother
    rw [KeyMap.get?_set, if_neg hne, hnone] at hrow
    cases hrow

theorem Settles.locked (hs : Valid s) (h : Settles s act id) :
    s.locked id = true := by
  cases hlocked : s.locked id with
  | true => rfl
  | false =>
    obtain ⟨⟨row, hrow, hpending⟩, after, hafter, hsettled⟩ := h
    have hsame := Idle.row_step hs ⟨hrow, locked_eq_false.mp hlocked⟩ act
    rw [hafter] at hsame
    cases hsame
    exact absurd hpending hsettled

theorem locked_of_claims (h : s.claims act = some id) : s.locked id = false := by
  obtain ⟨w, began, now, -, hold, -⟩ := pending_of_claims h
  obtain ⟨row, -, -, -, hfree, -⟩ := oldest_spec hold
  exact hfree

/-! ### Handlers that every process has -/

/-- A row whose handler is called where these kinds are registered. -/
def DeferredTask.Known (kinds : List String) (row : DeferredTask) : Prop :=
  kinds.contains row.kind = true ∧ ∃ members, row.payload = .object members

/-- A process that enqueues or drains has registered these kinds. -/
def Registers (kinds : List String) : Act ε → Prop
  | .enqueue _ q _ _ _ _ => q.kinds = kinds
  | .startDrain _ q _ => q.kinds = kinds
  | _ => True

structure Registered (kinds : List String) (s : State ε) : Prop where
  rows : ∀ id row, s.tasks.get? id = some row → row.Known kinds
  inserted : ∀ o u, s.txs.get? o = some u → ∀ e ∈ u.inserted, e.2.Known kinds
  drains : ∀ w d, s.drains.get? w = some d → d.queue.kinds = kinds

variable {kinds : List String}

theorem Registered.insertAll (hs : Registered kinds s) (hget : s.txs.get? o = some u) :
    ∀ id row, (insertAll s.tasks u.inserted).get? id = some row → row.Known kinds :=
  @forall_insertAll _ _ (fun _ row => row.Known kinds) (hs.inserted o u hget) hs.rows

theorem Registered.release (hs : Registered kinds s) (o : Owner) : Registered kinds (s.release o) :=
  ⟨hs.rows, fun p w hp => hs.inserted p w (KeyMap.get?_of_removeIf hp), hs.drains⟩

theorem Registered.step (hs : Registered kinds s) (hact : Registers kinds act) :
    Registered kinds (s.step act) := by
  generalize ht : s.step act = t
  have hmoves : Moves s act t := ht ▸ moves_step s act
  cases hmoves with
  | rest _ drains h hdrains =>
    refine ⟨hs.rows, hs.inserted, fun w d hget => ?_⟩
    rcases hdrains w d hget with hold | ⟨q, limit, rfl, rfl⟩
    · exact hs.drains w d hold
    · exact hact
  | begin | claim =>
    exact ⟨hs.rows, KeyMap.forall_set (fun e he => (by cases he)) hs.inserted, hs.drains⟩
  | insert o q raw opts now u v row hget hnew hkind hopens =>
    refine ⟨hs.rows, KeyMap.forall_set (fun e he => ?_) hs.inserted, hs.drains⟩
    rcases List.mem_append.mp he with he | he
    · rw [hopens.same.1] at he
      exact hs.inserted o u hget e he
    · rw [List.mem_singleton.mp he]
      have hq : q.kinds = kinds := hact
      exact ⟨hq ▸ hkind, hnew.payload⟩
  | wake o q kind raw opts now u id hget =>
    exact ⟨hs.rows, KeyMap.forall_set (hs.inserted o u hget) hs.inserted, hs.drains⟩
  | commit n u hget => exact ⟨hs.insertAll hget, (hs.release _).inserted, hs.drains⟩
  | rollback => exact hs.release _
  | succeed w result now d u id row writes hdrain hget hid hrow =>
    exact ⟨KeyMap.forall_set (hs.rows id row hrow) (hs.insertAll hget), (hs.release _).inserted,
      KeyMap.forall_set (hs.drains w d hdrain) hs.drains⟩
  | fail w result now d u id row e hdrain hget hid hrow =>
    exact ⟨KeyMap.forall_set (hs.rows id row hrow) hs.rows, (hs.release _).inserted,
      KeyMap.forall_set (hs.drains w d hdrain) hs.drains⟩
  | abort =>
    exact ⟨hs.rows, (hs.release _).inserted, fun v d hd => hs.drains v d (KeyMap.get?_of_removeIf hd)⟩

/-- A step claims the task, and the worker calls its handler. -/
def Calls (s : State ε) (act : Act ε) (id : Nat) : Prop :=
  ∃ w began now d row, act = .claim w began now ∧ s.claims act = some id ∧
    s.drains.get? w = some d ∧ s.tasks.get? id = some row ∧
    ∀ result : Except String ε, d.queue.handle row result = result.mapError .returned

theorem Registered.calls (hs : Registered kinds s) (h : s.claims act = some id) :
    Calls s act id := by
  obtain ⟨w, began, now, rfl, -, row, hrow, -⟩ := pending_of_claims h
  obtain ⟨hkind, members, hpayload⟩ := hs.rows id row hrow
  cases hclaim : s.claim w began now with
  | error => simp [State.claims, hclaim] at h
  | ok =>
    obtain ⟨d, hdrain, -⟩ := claim_spec hclaim
    refine ⟨w, began, now, d, row, rfl, h, hdrain, hrow, fun result => ?_⟩
    unfold Queue.handle
    rw [hpayload, hs.drains w d hdrain]
    dsimp only
    rw [if_pos hkind]
    cases result <;> rfl

/-! ### Infinite schedules -/

/-- The state before the step `n` of a schedule. -/
def stateAt (σ : Nat → Act ε) (n : Nat) : State ε := Machine.path State.step State.empty σ n

theorem stateAt_succ (σ : Nat → Act ε) (n : Nat) :
    stateAt σ (n + 1) = (stateAt σ n).step (σ n) := rfl

/-- A worker looks for a row, and finds none that is due by `clock`. -/
def CatchesUp (s : State ε) (act : Act ε) (clock : Int) : Prop :=
  ∃ w began now d, act = .claim w began now ∧ clock ≤ now ∧ s.drains.get? w = some d ∧
    0 < d.remaining ∧ s.txs.get? (.worker w) = none ∧
    ∀ id row, s.oldest now = some id → s.tasks.get? id = some row → clock < row.availableAt

/-- The workers keep draining the queue. -/
structure Fair (kinds : List String) (σ : Nat → Act ε) : Prop where
  /-- All processes have the same handlers. -/
  registered : ∀ n, Registers kinds (σ n)
  /-- Who has claimed a row finishes or gives up. -/
  ended : ∀ n id, (stateAt σ n).locked id = true →
    ∃ m, n ≤ m ∧ (stateAt σ m).locked id = false
  /-- The workers catch up with every clock reading. -/
  drained : ∀ n clock, ∃ m, n ≤ m ∧ CatchesUp (stateAt σ m) (σ m) clock

/-- A run of the handler that a worker began before the step `c` settles the task. -/
def Overtaken (σ : Nat → Act ε) (c id : Nat) : Prop :=
  ∃ b f, b < c ∧ b < f ∧ (stateAt σ b).claims (σ b) = some id ∧
    Settles (stateAt σ f) (σ f) id ∧
    ∀ j, b < j → j < f → (stateAt σ j).claims (σ j) ≠ some id

variable {σ : Nat → Act ε} {n m c : Nat}

theorem valid_stateAt (σ : Nat → Act ε) (n : Nat) : Valid (stateAt σ n) :=
  @Machine.path_invariant _ _ State.step Valid (fun _ act hs => hs.step act) _ valid_empty σ n

theorem woken_stateAt (σ : Nat → Act ε) (n : Nat) : Woken (stateAt σ n) :=
  @Machine.path_invariant _ _ State.step Woken (fun _ act hs => hs.step act) _
    (fun o u h => (by cases h)) σ n

theorem unique_stateAt (σ : Nat → Act ε) (n : Nat) : Unique (stateAt σ n) := by
  have hboth : Valid (stateAt σ n) ∧ Unique (stateAt σ n) :=
    @Machine.path_invariant _ _ State.step (fun s => Valid s ∧ Unique s)
      (fun _ act hs => ⟨hs.1.step act, Unique.step hs.1 hs.2 act⟩) _
      ⟨valid_empty, fun o p u v h => (by cases h), fun o u h => (by cases h),
        fun o u h => (by cases h), fun o u h => (by cases h), fun i j row other h => (by cases h)⟩ σ n
  exact hboth.2

theorem registered_stateAt (h : ∀ n, Registers kinds (σ n)) (n : Nat) :
    Registered kinds (stateAt σ n) := by
  induction n with
  | zero => exact ⟨fun id row h => (by cases h), fun o u h => (by cases h), fun w d h => (by cases h)⟩
  | succ n ih => exact ih.step (h n)

theorem settled_from (hnm : n ≤ m) (hrow : (stateAt σ n).tasks.get? id = some row)
    (hsettled : row.status ≠ .pending) : (stateAt σ m).tasks.get? id = some row := by
  have hkeep := @Machine.path_from _ _ State.step (fun s => s.tasks.get? id = some row) _ σ n m hnm
    (fun j _ _ hj => ((valid_stateAt σ j).absorbing hj hsettled [σ j]).row) hrow
  exact hkeep

theorem settles_before (hrow : (stateAt σ n).tasks.get? id = some row)
    (hsettled : row.status ≠ .pending) : ∃ f, f < n ∧ Settles (stateAt σ f) (σ f) id := by
  induction n with
  | zero => cases hrow
  | succ n ih =>
    cases hbefore : (stateAt σ n).tasks.get? id with
    | none => exact absurd (pending_of_new (valid_stateAt σ n) hbefore hrow) hsettled
    | some old =>
      by_cases hpending : old.status = .pending
      · exact ⟨n, Nat.lt_succ_self n, ⟨old, hbefore, hpending⟩, row, hrow, hsettled⟩
      · have hsame := settled_from (Nat.le_succ n) hbefore hpending
        rw [hrow] at hsame
        cases hsame
        obtain ⟨f, hf, hsettles⟩ := ih hbefore
        exact ⟨f, Nat.lt_succ_of_lt hf, hsettles⟩

theorem claimed_before (hlocked : (stateAt σ n).locked id = true) :
    ∃ b, b < n ∧ (stateAt σ b).claims (σ b) = some id ∧
      ∀ j, b < j → j < n → (stateAt σ j).claims (σ j) ≠ some id := by
  induction n with
  | zero => cases hlocked
  | succ n ih =>
    by_cases hclaims : (stateAt σ n).claims (σ n) = some id
    · exact ⟨n, Nat.lt_succ_self n, hclaims, fun j hnj hjn => by omega⟩
    · have hbefore : (stateAt σ n).locked id = true := by
        cases hfree : (stateAt σ n).locked id with
        | true => rfl
        | false =>
          have hnext := unclaimed_step (locked_eq_false.mp hfree) hclaims
          rw [stateAt_succ, locked_eq_false.mpr hnext] at hlocked
          cases hlocked
      obtain ⟨b, hb, hclaim, hlast⟩ := ih hbefore
      refine ⟨b, Nat.lt_succ_of_lt hb, hclaim, fun j hbj hjn => ?_⟩
      by_cases hj : j = n
      · rw [hj]
        exact hclaims
      · exact hlast j hbj (by omega)

theorem idle_from (hnm : n ≤ m) (h : Idle (stateAt σ n) id row)
    (hclaims : ∀ j, n ≤ j → (stateAt σ j).claims (σ j) ≠ some id) : Idle (stateAt σ m) id row :=
  @Machine.path_from _ _ State.step (fun s => Idle s id row) _ σ n m hnm
    (fun j hnj _ hj => Idle.step (valid_stateAt σ j) hj (hclaims j hnj)) h

theorem row_from (hnm : n ≤ m) (hrow : ∃ row, (stateAt σ n).tasks.get? id = some row) :
    ∃ row, (stateAt σ m).tasks.get? id = some row :=
  @Machine.path_from _ _ State.step (fun s => ∃ row, s.tasks.get? id = some row) _ σ n m hnm
    (fun j _ _ hj => row_stays hj (σ j)) hrow

theorem settled_of_unclaimed (hfair : Fair kinds σ)
    (hrow : ∃ row, (stateAt σ n).tasks.get? id = some row)
    (hclaims : ∀ j, n ≤ j → (stateAt σ j).claims (σ j) ≠ some id) :
    ∃ m row, (stateAt σ m).tasks.get? id = some row ∧ row.status ≠ .pending := by
  obtain ⟨k, hnk, hfree⟩ : ∃ k, n ≤ k ∧ (stateAt σ k).locked id = false := by
    cases hlocked : (stateAt σ n).locked id with
    | true => exact hfair.ended n id hlocked
    | false => exact ⟨n, Nat.le_refl n, hlocked⟩
  obtain ⟨row, hrow⟩ := row_from hnk hrow
  by_cases hpending : row.status = .pending
  · -- It would rest, and a worker that catches up with its time would claim it.
    obtain ⟨m, hkm, w, began, now, d, -, hdue, -, -, -, hlater⟩ := hfair.drained k row.availableAt
    have hidle : Idle (stateAt σ m) id row :=
      idle_from hkm ⟨hrow, locked_eq_false.mp hfree⟩ fun j hkj => hclaims j (Nat.le_trans hnk hkj)
    exfalso
    cases hold : (stateAt σ m).oldest now with
    | none =>
      have hlocked := oldest_eq_none hold hidle.row hpending hdue
      rw [locked_eq_false.mpr hidle.unclaimed] at hlocked
      cases hlocked
    | some j =>
      obtain ⟨other, hother, -, -, -, hfirst⟩ := oldest_spec hold
      have hlt := hlater j other hold hother
      have hbefore : other.availableAt < row.availableAt ∨
          other.availableAt = row.availableAt ∧ j ≤ id :=
        hfirst id row hidle.row hpending hdue (locked_eq_false.mpr hidle.unclaimed)
      omega
  · exact ⟨k, row, hrow, hpending⟩

theorem Settles.not_claims (h : Settles (stateAt σ n) (σ n) id) :
    (stateAt σ n).claims (σ n) ≠ some id := by
  intro hclaims
  have hfree := locked_of_claims hclaims
  rw [h.locked (valid_stateAt σ n)] at hfree
  cases hfree

theorem not_overtaken_of_claims (hcm : c < m) (hclaims : (stateAt σ m).claims (σ m) = some id) :
    ¬Overtaken σ c id := by
  rintro ⟨b, f, hbc, hbf, -, hsettles, hlast⟩
  by_cases hmf : m < f
  · exact hlast m (Nat.lt_trans hbc hcm) hmf hclaims
  · by_cases heq : m = f
    · rw [heq] at hclaims
      exact hsettles.not_claims hclaims
    · obtain ⟨-, row, hrow, hsettled⟩ := hsettles
      have hkept := settled_from (σ := σ) (n := f + 1) (m := m) (by omega) hrow hsettled
      obtain ⟨-, -, -, -, -, other, hother, hpending⟩ := pending_of_claims hclaims
      rw [hkept] at hother
      cases hother
      exact hsettled hpending

theorem overtaken_of_unclaimed (hfair : Fair kinds σ) (hcommits : Commits (stateAt σ c) (σ c) u)
    (hid : id ∈ u.wakes)
    (hclaims : ∀ m, c < m → (stateAt σ m).claims (σ m) ≠ some id) : Overtaken σ c id := by
  have hrow : ∃ row, (stateAt σ (c + 1)).tasks.get? id = some row :=
    hcommits.wakes_row (woken_stateAt σ c) hid
  obtain ⟨m, row, hrow, hsettled⟩ := settled_of_unclaimed hfair hrow fun j hj => hclaims j hj
  obtain ⟨f, -, hsettles⟩ := settles_before hrow hsettled
  obtain ⟨b, hbf, hclaim, hlast⟩ := claimed_before (hsettles.locked (valid_stateAt σ f))
  refine ⟨b, f, ?_, hbf, hclaim, hsettles, hlast⟩
  by_cases hbc : b = c
  · rw [hbc, hcommits.claims_eq_none] at hclaim
    cases hclaim
  · by_cases hlt : c < b
    · exact absurd hclaim (hclaims b hlt)
    · omega

/-- What a fair schedule says about its enqueues. -/
structure WakeUps (σ : Nat → Act ε) : Prop where
  /-- At most one row is pending under a deduplication key. -/
  unique : ∀ n i j row other, (stateAt σ n).tasks.get? i = some row →
    (stateAt σ n).tasks.get? j = some other → row.status = .pending → other.status = .pending →
      row.dedupKey ≠ "" → row.kind = other.kind → row.dedupKey = other.dedupKey → i = j
  /-- The handler is called for every row that a transaction has inserted. -/
  inserted : ∀ c u, Commits (stateAt σ c) (σ c) u → ∀ e ∈ u.inserted,
    ∃ m, c < m ∧ Calls (stateAt σ m) (σ m) e.1
  /-- The handler is called after a commit unless an earlier call settles the task. -/
  woken : ∀ c u, Commits (stateAt σ c) (σ c) u → ∀ id ∈ u.wakes,
    ((∃ m, c < m ∧ Calls (stateAt σ m) (σ m) id) ↔ ¬Overtaken σ c id)

theorem woken_iff (hfair : Fair kinds σ) (hcommits : Commits (stateAt σ c) (σ c) u)
    (hid : id ∈ u.wakes) :
    (∃ m, c < m ∧ Calls (stateAt σ m) (σ m) id) ↔ ¬Overtaken σ c id := by
  constructor
  · rintro ⟨m, hcm, w, began, now, d, row, -, hclaims, -⟩
    exact not_overtaken_of_claims hcm hclaims
  · intro hnot
    by_contra hnever
    refine hnot (overtaken_of_unclaimed hfair hcommits hid fun m hcm hclaims => hnever ?_)
    exact ⟨m, hcm, (registered_stateAt hfair.registered m).calls hclaims⟩

theorem not_overtaken_of_inserted (hcommits : Commits (stateAt σ c) (σ c) u)
    {e : Nat × DeferredTask} (he : e ∈ u.inserted) : ¬Overtaken σ c e.1 := by
  rintro ⟨b, f, hbc, -, hclaims, -⟩
  obtain ⟨-, -, -, -, -, row, hrow, -⟩ := pending_of_claims hclaims
  obtain ⟨row', hrow'⟩ := row_from (Nat.le_of_lt hbc) ⟨row, hrow⟩
  obtain ⟨o, hget⟩ := hcommits.tx
  rw [((valid_stateAt σ c).fresh o u hget e he).2.2] at hrow'
  cases hrow'

/-- The enqueues of every fair schedule: any workers, next to any transactions. -/
theorem wakeups (kinds : List String) (σ : Nat → Act ε) (hfair : Fair kinds σ) : WakeUps σ := by
  refine ⟨fun n i j row other hrow hother hp hp' hkey hkind hsame => ?_,
    fun c u hcommits e he => ?_, fun c u hcommits id hid => woken_iff hfair hcommits hid⟩
  · exact (unique_stateAt σ n).one i j row other hrow hother hp hp' ⟨hkey, hkind, hsame⟩
  · obtain ⟨o, hget⟩ := hcommits.tx
    have hid := (woken_stateAt σ c o u hget).2 e he
    exact (woken_iff hfair hcommits hid).mpr (not_overtaken_of_inserted hcommits he)

end

/-! ### A wake-up that is lost -/

/-- `Enqueue` under the key `digest`. -/
def enqueueDigest (n : Nat) : Act Unit :=
  .enqueue (.request n) sampleQueue "case.ok" (some ⟨[], 2⟩) ⟨0, none, 0, "digest"⟩ 0

/-- A worker runs the first task while a second request enqueues it. From then on the worker drains
the queue again and again. -/
def busyWorker : Nat → Act Unit
  | 0 => .begin 1 0
  | 1 => enqueueDigest 1
  | 2 => .commit 1
  | 3 => .startDrain 1 sampleQueue 10
  | 4 => .claim 1 0 0
  | 5 => .begin 2 0
  | 6 => enqueueDigest 2
  | 7 => .commit 2
  | 8 => .finish 1 (.ok ()) ⟨0, 0, 0⟩
  | 9 => .claim 1 0 0
  | n + 10 => if n % 2 = 0 then .startDrain 1 sampleQueue 10 else .claim 1 n n

theorem busyWorker_rests (n : Nat) :
    stateAt busyWorker (2 * n + 10) = stateAt busyWorker 10 := by
  induction n with
  | zero => rfl
  | succ n ih =>
    have hstart : busyWorker (2 * n + 10) = .startDrain 1 sampleQueue 10 := by
      simp [busyWorker]
    have hclaim : busyWorker (2 * n + 1 + 10) = .claim 1 (2 * n + 1 : Nat) (2 * n + 1 : Nat) := by
      simp only [busyWorker]
      rw [if_neg (by omega)]
    show ((stateAt busyWorker (2 * n + 10)).step (busyWorker (2 * n + 10))).step
      (busyWorker (2 * n + 1 + 10)) = _
    rw [ih, hstart, hclaim]
    rfl

theorem busyWorker_fair : Fair sampleQueue.kinds busyWorker := by
  refine ⟨fun n => ?_, fun n id _ => ⟨2 * n + 10, by omega, ?_⟩, fun n clock => ?_⟩
  · match n with
    | 0 | 2 | 4 | 5 | 7 | 8 | 9 => trivial
    | 1 | 3 | 6 => rfl
    | n + 10 =>
      show Registers sampleQueue.kinds (if n % 2 = 0 then _ else _)
      by_cases heven : n % 2 = 0
      · rw [if_pos heven]
        rfl
      · rw [if_neg heven]
        trivial
  · rw [busyWorker_rests]
    rfl
  · let k := n + clock.toNat
    have hclaim : busyWorker (2 * k + 1 + 10) = .claim 1 (2 * k + 1 : Nat) (2 * k + 1 : Nat) := by
      simp only [busyWorker]
      rw [if_neg (by omega)]
    have hstart : busyWorker (2 * k + 10) = .startDrain 1 sampleQueue 10 := by
      simp [busyWorker]
    have hstate : stateAt busyWorker (2 * k + 1 + 10) =
        (stateAt busyWorker 10).step (.startDrain 1 sampleQueue 10) := by
      rw [← busyWorker_rests k, ← hstart]
      rfl
    refine ⟨2 * k + 1 + 10, by omega, 1, _, _, ⟨sampleQueue, 10, ⟨0, 0, 0, 0⟩⟩, hclaim, by omega, ?_⟩
    rw [hstate]
    exact ⟨rfl, by decide, rfl, fun id row hold => by cases hold⟩

/-- Every task that the first request has inserted is run after its commit. -/
theorem busyWorker_inserted : ∃ m, 2 < m ∧ Calls (stateAt busyWorker m) (busyWorker m) 1 := by
  have hget : (stateAt busyWorker 2).txs.get? (.request 1) = some _ := rfl
  exact (wakeups sampleQueue.kinds busyWorker busyWorker_fair).inserted 2 _
    (Commits.request 1 _ hget) _ List.mem_cons_self

/-- The second request has enqueued the task that the worker runs, and no run of it starts after the
commit. -/
theorem swallowed : Fair sampleQueue.kinds busyWorker ∧
    (∃ u, Commits (stateAt busyWorker 7) (busyWorker 7) u ∧ 1 ∈ u.wakes) ∧
      ¬∃ m, 7 < m ∧ Calls (stateAt busyWorker m) (busyWorker m) 1 := by
  have hget : (stateAt busyWorker 7).txs.get? (.request 2) = some _ := rfl
  refine ⟨busyWorker_fair, ⟨_, Commits.request 2 _ hget, by decide⟩, ?_⟩
  rintro ⟨m, hm, w, began, now, d, row, hact, hclaims, -⟩
  have hdone : (stateAt busyWorker 9).tasks.get? 1 = some _ := rfl
  by_cases height : m = 8
  · rw [height] at hact
    cases hact
  · have hkept := settled_from (m := m) (by omega) hdone (by decide)
    obtain ⟨-, -, -, -, -, other, hother, hpending⟩ := pending_of_claims hclaims
    rw [hkept] at hother
    cases hother
    exact absurd hpending (by decide)

end SocialActivities.Ops
