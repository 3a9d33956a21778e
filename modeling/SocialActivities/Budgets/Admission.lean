import SocialActivities.Lib.Checked
import SocialActivities.Lib.KeyMap
import SocialActivities.Lib.Machine
import Mathlib.Data.List.Sort
import Mathlib.Data.String.Basic

/-!
# `SocialActivities.Budgets.Admission`: shared rate budgets

`go_rate_budget` has a row for each key: the admissions of a sliding window, and when the last of
them leaves it. `go_admit_rate_budget` admits or denies a call, `go_prune_rate_budgets` deletes
expired rows, the erasure of an account deletes its rows, and a `TRUNCATE` deletes all of them.
After each statement a trigger adds the change to the usage of the families of its rows.

An admission runs in a transaction of its own, next to others. The model takes it apart where
others can commit in between: `call` takes the lock of the key, reads the clock and the row, and
checks the window; `attempt` is the first write, with the trigger; when the family is full, `evict`
is the rest of the loop, with the eviction and the second write. Between them the admission is
pending, and it holds the lock of its key, its row and its account. A statement that changes a
family keeps the usage of the family locked until the commit, so the write and the commit are one
step. A step that has to wait, or that fails, leaves the state as it is.

The rows that other transactions have locked, and the order in which a scan meets the rows that
expire together, come with each step.
-/

namespace SocialActivities.Budgets

open Lib

/-! ### Rows -/

/-- The families of `go_rate_budget_family`, in name order. -/
inductive Family where
  | actor
  | anonymous
  | ops
  | other
  deriving DecidableEq

/-- The primary key of `go_rate_budget`. -/
structure Key where
  subject : List UInt8
  scope : String
  deriving DecidableEq

/-- A row of `go_rate_budget`, under its key. Times are in microseconds. -/
structure Budget where
  userId : Option Nat
  policyLimit : Int
  windowUs : Int
  events : List Int
  expiresAt : Int
  deriving DecidableEq

def goRateBudgetFamily (scope : String) (userId : Option Nat) : Family :=
  if userId.isSome then .actor
  else if scope == "api.anonymous" || scope == "api.token" then .anonymous
  else if "ops.".toList.isPrefixOf scope.toList then .ops
  else .other

/-- The family of a row. -/
def familyOf (k : Key) (row : Budget) : Family := goRateBudgetFamily k.scope row.userId

/-- The columns `keys` and `events` of `go_rate_budget_family_capacity`. -/
@[ext] structure Usage where
  keys : Int
  events : Int
  deriving DecidableEq

instance : Add Usage := ⟨fun u v => ⟨u.keys + v.keys, u.events + v.events⟩⟩

def Family.maxKeys : Family → Int
  | .actor => 50000
  | .anonymous => 10000
  | .ops => 100
  | .other => 1000

def Family.maxEvents : Family → Int
  | .actor => 1000000
  | .anonymous => 200000
  | .ops => 10000
  | .other => 100000

/-- The arguments of `go_admit_rate_budget`. -/
structure Call where
  key : Key
  user : Option Nat
  limit : Int
  windowUs : Int
  deriving DecidableEq

/-- An admission between its window check and its commit. -/
structure Admission where
  call : Call
  kept : List Int
  admittedAt : Int
  /-- The first write has been rolled back. -/
  full : Bool
  deriving DecidableEq

/-- The tables, and the admissions under way. Accounts are numbered in the order in which they are
created. -/
structure State where
  users : List Nat
  nextUser : Nat
  rows : KeyMap Key Budget
  capacity : Family → Usage
  pending : KeyMap Key Admission

inductive Error where
  /-- `invalid shared rate policy`. -/
  | invalidPolicy
  /-- `invalid shared rate actor`. -/
  | invalidActor
  /-- `invalid shared budget prune batch`. -/
  | invalidBatch
  /-- `P5001`: `shared budget capacity exhausted`. -/
  | capacityExhausted
  /-- The statement waits for a lock. -/
  | waiting
  deriving DecidableEq

/-- What `go_admit_rate_budget` returns. -/
inductive Decision where
  | allowed
  | denied (retryUs : Int)
  deriving DecidableEq

/-! ### The counting triggers -/

/-- A row counts as one key in its family. -/
def keysIn (f : Family) (k : Key) (row : Budget) : Nat := if familyOf k row = f then 1 else 0

/-- A row counts with its events in its family. -/
def eventsIn (f : Family) (k : Key) (row : Budget) : Nat :=
  if familyOf k row = f then row.events.length else 0

/-- `key_delta` and `event_delta`: what a statement that replaces some rows by others changes in a
family. -/
def delta (olds news : List (Key × Budget)) (f : Family) : Usage where
  keys := (KeyMap.weigh (keysIn f) news : Int) - KeyMap.weigh (keysIn f) olds
  events := (KeyMap.weigh (eventsIn f) news : Int) - KeyMap.weigh (eventsIn f) olds

/-- The usage of a family is within its maxima. -/
def Family.fits (f : Family) (u : Usage) : Bool :=
  decide (0 ≤ u.keys) && decide (u.keys ≤ f.maxKeys) && decide (0 ≤ u.events) &&
    decide (u.events ≤ f.maxEvents)

/-- One round of the loop of `go_count_rate_budgets`. -/
def countFamily (d : Family → Usage) (capacity : Family → Usage) (f : Family) :
    Except Error (Family → Usage) :=
  if d f = ⟨0, 0⟩ then .ok capacity
  else do
    need Error.capacityExhausted (f.fits (capacity f + d f))
    pure fun g => if g = f then capacity f + d f else capacity g

/-- `go_count_rate_budgets`, after a statement that replaces `olds` by `news`. -/
def goCountRateBudgets (olds news : List (Key × Budget)) (capacity : Family → Usage) :
    Except Error (Family → Usage) :=
  [Family.actor, .anonymous, .ops, .other].foldlM (countFamily (delta olds news)) capacity

/-- `DELETE FROM go_rate_budget`, with its trigger. -/
def deleteRows (gone : Key → Budget → Bool) (s : State) : Except Error State := do
  let capacity ← goCountRateBudgets (s.rows.entries.filter fun e => gone e.1 e.2) [] s.capacity
  pure { s with rows := s.rows.removeIf gone, capacity }

/-- The row that an admission writes. -/
def Admission.row (a : Admission) : Budget where
  userId := a.call.user
  policyLimit := a.call.limit
  windowUs := a.call.windowUs
  events := a.kept ++ [a.admittedAt]
  expiresAt := a.admittedAt + a.call.windowUs

/-- `INSERT INTO go_rate_budget ... ON CONFLICT(scope,subject) DO UPDATE`, with its triggers. -/
def upsertRow (a : Admission) (s : State) : Except Error State := do
  let olds := ((s.rows.get? a.call.key).map (a.call.key, ·)).toList
  let capacity ← goCountRateBudgets olds [(a.call.key, a.row)] s.capacity
  pure { s with rows := s.rows.set a.call.key a.row, capacity }

/-! ### An admission -/

/-- `[a-z0-9_.]`. -/
def scopeChar (c : Char) : Bool :=
  (decide ('a' ≤ c) && decide (c ≤ 'z')) || (decide ('0' ≤ c) && decide (c ≤ '9')) || c == '_' ||
    c == '.'

/-- The check on the arguments. -/
def Call.valid (c : Call) : Bool :=
  c.key.scope.toList.all scopeChar && decide (1 ≤ c.key.scope.length) &&
    decide (c.key.scope.length ≤ 64) && c.key.subject.length == 32 && decide (1 ≤ c.limit) &&
    decide (c.limit ≤ 10000) && decide (1000000 ≤ c.windowUs) && decide (c.windowUs ≤ 86400000000)

/-- The outcome of the window check. -/
inductive Verdict where
  | denied (retryUs : Int)
  | passed (kept : List Int) (admittedAt : Int)
  deriving DecidableEq

/-- `greatest` of the clock and the last event of a row. -/
def Budget.admittedAt (row : Budget) (clock : Int) : Int := row.events.getLast?.elim clock (max clock)

/-- The events of a row that are within a window, in order. -/
def Budget.kept (row : Budget) (admittedAt windowUs : Int) : List Int :=
  (row.events.filter fun e => decide (admittedAt - windowUs < e)).insertionSort (· ≤ ·)

/-- The window check of `go_admit_rate_budget` on the row of the key. -/
def checkWindow (c : Call) (clock : Int) : Option Budget → Verdict
  | some previous =>
    if clock < previous.expiresAt then
      let admittedAt := previous.admittedAt clock
      if previous.windowUs != c.windowUs || previous.policyLimit != c.limit ||
          previous.userId != c.user then
        -- A live history under another policy refuses until it expires.
        .denied (max 1000000 (previous.expiresAt - admittedAt))
      else
        let kept := previous.kept admittedAt c.windowUs
        if c.limit ≤ kept.length then
          .denied (kept.head?.elim 1000000 fun first => max 1000000 (first + c.windowUs - admittedAt))
        else .passed kept admittedAt
    else .passed [] clock
  | none => .passed [] clock

namespace State

variable (s : State)

/-- The rows that a statement with `SKIP LOCKED` passes over: those that other transactions have
locked, among them the rows of the admissions under way. -/
def held (locked : Key → Bool) (k : Key) : Bool := locked k || (s.pending.get? k).isSome

/-- The admission is over. -/
def finish (k : Key) : State := { s with pending := s.pending.removeIf fun j _ => j == k }

/-- The first part of `go_admit_rate_budget`: up to the window check. -/
def call (c : Call) (clock : Int) : Except Error (State × Option Decision) := do
  need Error.invalidPolicy c.valid
  need Error.invalidActor (c.user.all fun u => s.users.contains u)
  need Error.waiting (s.pending.get? c.key).isNone
  match checkWindow c clock (s.rows.get? c.key) with
  | .denied retryUs => pure (s, some (.denied retryUs))
  | .passed kept admittedAt =>
    pure ({ s with pending := s.pending.set c.key ⟨c, kept, admittedAt, false⟩ }, none)

/-- The first round of its loop. The error is caught after a rollback to the savepoint. -/
def attempt (k : Key) : Except Error (State × Option Decision) := do
  let a ← (s.pending.get? k).elim (.error Error.waiting) .ok
  need Error.waiting (!a.full)
  match upsertRow a s with
  | .ok t => pure (t.finish k, some .allowed)
  | .error _ => pure ({ s with pending := s.pending.set k { a with full := true } }, none)

/-- The rows that a statement picks: those that expire first, up to a number of them. -/
def soonest (limit : Nat) (scan : Key → Nat) (candidate : Key → Budget → Bool) : List Key :=
  (((s.rows.entries.filter fun e => candidate e.1 e.2).insertionSort fun d e =>
    d.2.expiresAt < e.2.expiresAt ∨ d.2.expiresAt = e.2.expiresAt ∧ scan d.1 ≤ scan e.1).take
      limit).map Prod.fst

/-- The victims of an admission: at most 64 other keys of its family. -/
def victims (locked : Key → Bool) (scan : Key → Nat) (c : Call) : List Key :=
  s.soonest 64 scan fun k row =>
    familyOf k row == goRateBudgetFamily c.key.scope c.user && k != c.key && !s.held locked k

/-- The rest of its loop: the eviction, and the second round. -/
def evict (k : Key) (locked : Key → Bool) (scan : Key → Nat) :
    Except Error (State × Option Decision) := do
  let a ← (s.pending.get? k).elim (.error Error.waiting) .ok
  need Error.waiting a.full
  let victims := s.victims locked scan a.call
  if victims.isEmpty then pure (s.finish k, some (.denied 1000000))
  else do
    let t ← deleteRows (fun j _ => victims.contains j) s
    match upsertRow a t with
    | .ok u => pure (u.finish k, some .allowed)
    -- The eviction stays when the second write is refused as well.
    | .error _ => pure (t.finish k, some (.denied 1000000))

def goPruneRateBudgets (batch sweepAt : Int) (locked : Key → Bool) (scan : Key → Nat) :
    Except Error State := do
  need Error.invalidBatch (decide (1 ≤ batch) && decide (batch ≤ 1000))
  let victims := s.soonest batch.toNat scan fun k row =>
    decide (row.expiresAt ≤ sweepAt) && !s.held locked k
  deleteRows (fun j _ => victims.contains j) s

/-- An account is deleted, and its rows with it. An admission under way keeps its account and the
row of its key. -/
def erase (user : Nat) : Except Error State := do
  need Error.waiting (s.pending.entries.all fun e =>
    e.2.call.user != some user && (s.rows.get? e.1).all fun row => row.userId != some user)
  let t ← deleteRows (fun _ row => row.userId == some user) s
  pure { t with users := t.users.filter (· != user) }

/-- `TRUNCATE go_rate_budget`, with `go_reset_rate_budget_capacity`. -/
def truncate : Except Error State := do
  need Error.waiting s.pending.entries.isEmpty
  pure { s with rows := KeyMap.empty, capacity := fun _ => ⟨0, 0⟩ }

end State

/-! ### Runs -/

inductive Act where
  | signUp
  | call (c : Call) (clock : Int)
  | attempt (k : Key)
  | evict (k : Key) (locked : Key → Bool) (scan : Key → Nat)
  /-- The transaction of an admission is rolled back. -/
  | cancel (k : Key)
  | prune (batch sweepAt : Int) (locked : Key → Bool) (scan : Key → Nat)
  | erase (user : Nat)
  | truncate

namespace State

/-- A step that answers no call. -/
def silently (x : Except Error State) : Except Error (State × Option Decision) := do
  pure (← x, none)

/-- What an action does, and what it answers to the call that it belongs to. -/
def perform (s : State) : Act → Except Error (State × Option Decision)
  | .signUp => .ok ({ s with users := s.nextUser :: s.users, nextUser := s.nextUser + 1 }, none)
  | .call c clock => s.call c clock
  | .attempt k => s.attempt k
  | .evict k locked scan => s.evict k locked scan
  | .cancel k => .ok (s.finish k, none)
  | .prune batch sweepAt locked scan => silently (s.goPruneRateBudgets batch sweepAt locked scan)
  | .erase user => silently (s.erase user)
  | .truncate => silently s.truncate

/-- The state after an action. -/
def step (s : State) (act : Act) : State :=
  match s.perform act with
  | .ok (t, _) => t
  | .error _ => s

/-- The decision that an action returns. -/
def decision (s : State) (act : Act) : Option Decision :=
  match s.perform act with
  | .ok (_, d) => d
  | .error _ => none

/-- No accounts and no histories. -/
def empty : State := ⟨[], 1, KeyMap.empty, fun _ => ⟨0, 0⟩, KeyMap.empty⟩

end State

/-! ### What the statements do -/

section
variable {s t : State} {d : Option Decision} {k : Key} {a : Admission}

@[simp] theorem Usage.keys_add (u v : Usage) : (u + v).keys = u.keys + v.keys := rfl

@[simp] theorem Usage.events_add (u v : Usage) : (u + v).events = u.events + v.events := rfl

private theorem countFamily_foldlM {d : Family → Usage} {families : List Family}
    (hnodup : families.Nodup) {capacity capacity' : Family → Usage} :
    families.foldlM (countFamily d) capacity = .ok capacity' ↔
      (∀ f ∈ families, d f = ⟨0, 0⟩ ∨ f.fits (capacity f + d f) = true) ∧
        capacity' = fun f => if f ∈ families then capacity f + d f else capacity f := by
  induction families generalizing capacity with
  | nil =>
    rw [List.foldlM_nil, pure_eq_ok]
    simp only [List.not_mem_nil, false_implies, implies_true, true_and, if_false]
    exact eq_comm
  | cons f fs ih =>
    obtain ⟨hfirst, hnodup⟩ := List.nodup_cons.mp hnodup
    rw [List.foldlM_cons, bind_eq_ok]
    -- A family is counted once, so a later round reads what the first one left.
    have hlater : ∀ g ∈ fs, g ≠ f := fun g hg hgf => hfirst (hgf ▸ hg)
    have hround : ∀ capacity₁, countFamily d capacity f = .ok capacity₁ ↔
        (d f = ⟨0, 0⟩ ∨ f.fits (capacity f + d f) = true) ∧
          capacity₁ = fun g => if g = f then capacity f + d f else capacity g := by
      intro capacity₁
      unfold countFamily
      by_cases hzero : d f = ⟨0, 0⟩
      · have hsame : (fun g => if g = f then capacity f + d f else capacity g) = capacity := by
          funext g
          by_cases hg : g = f
          · subst hg
            rw [if_pos rfl, hzero]
            ext <;> simp
          · rw [if_neg hg]
        rw [if_pos hzero, hsame]
        exact ⟨fun h => ⟨Or.inl hzero, (Except.ok.inj h).symm⟩, fun h => by rw [h.2]⟩
      · rw [if_neg hzero, seq_eq_ok, need_eq_ok, pure_eq_ok, or_iff_right hzero]
        exact and_congr_right fun _ => eq_comm
    constructor
    · rintro ⟨capacity₁, hone, hrest⟩
      obtain ⟨hfits, rfl⟩ := (hround _).mp hone
      obtain ⟨hall, rfl⟩ := (ih hnodup).mp hrest
      refine ⟨List.forall_mem_cons.mpr ⟨hfits, fun g hg => ?_⟩, funext fun g => ?_⟩
      · have h := hall g hg
        rwa [if_neg (hlater g hg)] at h
      · by_cases hg : g = f
        · subst hg
          simp [hfirst]
        · simp [hg]
    · rintro ⟨hall, rfl⟩
      obtain ⟨hfits, hall⟩ := List.forall_mem_cons.mp hall
      refine ⟨_, (hround _).mpr ⟨hfits, rfl⟩, (ih hnodup).mpr ⟨fun g hg => ?_, funext fun g => ?_⟩⟩
      · rw [if_neg (hlater g hg)]
        exact hall g hg
      · by_cases hg : g = f
        · subst hg
          simp [hfirst]
        · simp [hg]

/-- The trigger adds the change of each family to its usage, or refuses the statement for a family
that would not fit. -/
theorem goCountRateBudgets_eq_ok {olds news : List (Key × Budget)}
    {capacity capacity' : Family → Usage} :
    goCountRateBudgets olds news capacity = .ok capacity' ↔
      (∀ f, delta olds news f = ⟨0, 0⟩ ∨ f.fits (capacity f + delta olds news f) = true) ∧
        capacity' = fun f => capacity f + delta olds news f := by
  have hmem : ∀ f : Family, f ∈ [Family.actor, .anonymous, .ops, .other] := by
    intro f
    cases f <;> simp
  unfold goCountRateBudgets
  rw [countFamily_foldlM (by decide)]
  simp [hmem]

theorem deleteRows_eq_ok {gone : Key → Budget → Bool} :
    deleteRows gone s = .ok t ↔
      ∃ capacity, goCountRateBudgets (s.rows.entries.filter fun e => gone e.1 e.2) [] s.capacity
          = .ok capacity ∧ t = { s with rows := s.rows.removeIf gone, capacity } := by
  unfold deleteRows
  simp only [bind_eq_ok, pure_eq_ok, eq_comm (a := t)]

theorem upsertRow_eq_ok :
    upsertRow a s = .ok t ↔
      ∃ capacity, goCountRateBudgets ((s.rows.get? a.call.key).map (a.call.key, ·)).toList
          [(a.call.key, a.row)] s.capacity = .ok capacity ∧
        t = { s with rows := s.rows.set a.call.key a.row, capacity } := by
  unfold upsertRow
  simp only [bind_eq_ok, pure_eq_ok, eq_comm (a := t)]

/-- A call that is not refused outright is denied and changes nothing, or its admission is under
way. -/
theorem call_spec {c : Call} {clock : Int} (h : s.call c clock = .ok (t, d)) :
    c.valid = true ∧ s.pending.get? c.key = none ∧
      ((∃ r, checkWindow c clock (s.rows.get? c.key) = .denied r ∧ t = s ∧ d = some (.denied r)) ∨
        ∃ kept m, checkWindow c clock (s.rows.get? c.key) = .passed kept m ∧
          t = { s with pending := s.pending.set c.key ⟨c, kept, m, false⟩ } ∧ d = none) := by
  unfold State.call at h
  rw [seq_eq_ok, need_eq_ok, seq_eq_ok, need_eq_ok, seq_eq_ok, need_eq_ok] at h
  obtain ⟨hvalid, -, hfree, h⟩ := h
  refine ⟨hvalid, Option.isNone_iff_eq_none.mp hfree, ?_⟩
  cases hcheck : checkWindow c clock (s.rows.get? c.key) with
  | denied r =>
    rw [hcheck, pure_eq_ok] at h
    cases h
    exact Or.inl ⟨r, rfl, rfl, rfl⟩
  | passed kept m =>
    rw [hcheck, pure_eq_ok] at h
    cases h
    exact Or.inr ⟨kept, m, rfl, rfl, rfl⟩

theorem attempt_spec (h : s.attempt k = .ok (t, d)) :
    ∃ a, s.pending.get? k = some a ∧ a.full = false ∧
      ((∃ u, upsertRow a s = .ok u ∧ t = u.finish k ∧ d = some .allowed) ∨
        (∃ e, upsertRow a s = .error e) ∧
          t = { s with pending := s.pending.set k { a with full := true } } ∧ d = none) := by
  unfold State.attempt at h
  rw [bind_eq_ok] at h
  obtain ⟨a, ha, h⟩ := h
  rw [seq_eq_ok, need_eq_ok, Bool.not_eq_true'] at h
  refine ⟨a, elim_eq_ok.mp ha, h.1, ?_⟩
  cases hup : upsertRow a s with
  | ok u =>
    rw [hup, pure_eq_ok] at h
    cases h.2
    exact Or.inl ⟨u, rfl, rfl, rfl⟩
  | error e =>
    rw [hup, pure_eq_ok] at h
    cases h.2
    exact Or.inr ⟨⟨e, rfl⟩, rfl, rfl⟩

variable {scan : Key → Nat}

/-- The second round has nothing to evict, or evicts the victims and writes again. -/
theorem evict_spec {locked : Key → Bool} (h : s.evict k locked scan = .ok (t, d)) :
    ∃ a, s.pending.get? k = some a ∧
      ((s.victims locked scan a.call = [] ∧ t = s.finish k ∧ d = some (.denied 1000000)) ∨
        s.victims locked scan a.call ≠ [] ∧
          ∃ u, deleteRows (fun j _ => (s.victims locked scan a.call).contains j) s = .ok u ∧
            ((∃ v, upsertRow a u = .ok v ∧ t = v.finish k ∧ d = some .allowed) ∨
              (∃ e, upsertRow a u = .error e) ∧ t = u.finish k ∧ d = some (.denied 1000000))) := by
  unfold State.evict at h
  rw [bind_eq_ok] at h
  obtain ⟨a, ha, h⟩ := h
  rw [seq_eq_ok, need_eq_ok] at h
  refine ⟨a, elim_eq_ok.mp ha, ?_⟩
  obtain ⟨-, h⟩ := h
  by_cases hnone : s.victims locked scan a.call = []
  · rw [if_pos (by simpa using hnone), pure_eq_ok] at h
    cases h
    exact Or.inl ⟨hnone, rfl, rfl⟩
  · rw [if_neg (by simpa using hnone), bind_eq_ok] at h
    obtain ⟨u, hdelete, h⟩ := h
    refine Or.inr ⟨hnone, u, hdelete, ?_⟩
    cases hup : upsertRow a u with
    | ok v =>
      rw [hup, pure_eq_ok] at h
      cases h
      exact Or.inl ⟨v, rfl, rfl, rfl⟩
    | error e =>
      rw [hup, pure_eq_ok] at h
      cases h
      exact Or.inr ⟨⟨e, rfl⟩, rfl, rfl⟩

theorem mem_soonest {limit : Nat} {candidate : Key → Budget → Bool}
    (h : k ∈ s.soonest limit scan candidate) :
    ∃ row, s.rows.get? k = some row ∧ candidate k row = true := by
  obtain ⟨e, he, rfl⟩ := List.mem_map.mp h
  have hmem := (List.mem_insertionSort _).mp (List.mem_of_mem_take he)
  obtain ⟨hrow, hcandidate⟩ := List.mem_filter.mp hmem
  exact ⟨e.2, KeyMap.mem_entries_iff.mp hrow, hcandidate⟩

theorem soonest_eq_nil {limit : Nat} {candidate : Key → Budget → Bool}
    (hlimit : 0 < limit) (h : s.soonest limit scan candidate = []) {row : Budget}
    (hget : s.rows.get? k = some row) : candidate k row = false := by
  unfold State.soonest at h
  rw [List.map_eq_nil_iff, List.take_eq_nil_iff] at h
  have hempty := h.resolve_left (Nat.pos_iff_ne_zero.mp hlimit)
  have hlength := List.length_insertionSort
    (fun d e : Key × Budget => d.2.expiresAt < e.2.expiresAt ∨
      d.2.expiresAt = e.2.expiresAt ∧ scan d.1 ≤ scan e.1)
    (s.rows.entries.filter fun e => candidate e.1 e.2)
  rw [hempty, List.length_nil] at hlength
  have hfilter := List.eq_nil_of_length_eq_zero hlength.symm
  have hno := List.filter_eq_nil_iff.mp hfilter (k, row) (KeyMap.mem_entries_iff.mpr hget)
  simpa using hno

end

end SocialActivities.Budgets
