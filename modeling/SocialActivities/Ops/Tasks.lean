import SocialActivities.Lib.Checked
import SocialActivities.Lib.KeyMap
import SocialActivities.Lib.Machine
import Mathlib.Data.List.Sort

/-!
# `SocialActivities.Ops.Tasks`: the queue of deferred work (Go)

`Enqueue` inserts a row of `ops_deferredtask` in the transaction of its caller, or returns the
pending row with the same deduplication key. `RunPending` drains the queue of its process: `runOne`
claims the oldest row that is due and not locked, runs its handler behind a savepoint, and writes
the outcome, all in one transaction.

The state has the committed rows, the transactions under way and the drains. A transaction sees the
committed rows and its own inserts. It keeps the lock of each deduplication key that it has looked
up, and a worker the row that it has claimed. A handler may enqueue in the transaction of its
worker. What else it writes is an `ε`, committed together with the outcome or not at all.

A step that waits for a lock, or that fails, leaves the state as it is. Clock readings come with
each step.
-/

namespace SocialActivities.Ops

open Lib

inductive Status where
  | pending
  | done
  | failed
  deriving DecidableEq

/-- A value of the column `payload`, as `json.Unmarshal` reads it into a map. -/
inductive Payload where
  | object (members : List (String × String))
  | null
  | other (text : String)
  deriving DecidableEq

/-- A row of `ops_deferredtask`, under its id. -/
structure DeferredTask where
  kind : String
  payload : Payload
  status : Status
  attempts : Nat
  maxAttempts : Nat
  availableAt : Int
  dedupKey : String
  lastError : String
  createdAt : Int
  startedAt : Option Int
  finishedAt : Option Int
  deriving DecidableEq

/-- `Queue`: the kinds with a handler, and the settings of the process. -/
structure Queue where
  kinds : List String
  backoffBase : Int
  backoffMax : Int
  maxAttempts : Int
  deriving DecidableEq

structure EnqueueOptions where
  delay : Int
  availableAt : Option Int
  maxAttempts : Int
  dedupKey : String
  deriving DecidableEq

/-- What `json.Marshal` returns for a payload. -/
structure Raw where
  members : List (String × String)
  length : Nat
  deriving DecidableEq

inductive Error where
  /-- `unregistered deferred task kind`. -/
  | unregisteredKind
  /-- `invalid deferred dedup key`. -/
  | invalidDedupKey
  /-- `invalid deferred attempt budget`. -/
  | invalidAttemptBudget
  /-- `invalid deferred task payload`. -/
  | invalidPayload
  /-- `invalid deferred batch`. -/
  | invalidBatch
  /-- The statement waits for a lock, or there is no such transaction. -/
  | waiting
  deriving DecidableEq

structure TaskSummary where
  claimed : Nat
  done : Nat
  retried : Nat
  failed : Nat
  deriving DecidableEq

/-! ### Handlers and their failures -/

/-- Why a handler did not succeed. -/
inductive HandlerError where
  /-- The payload is not an object. -/
  | payload
  | missingHandler
  /-- The handler returned an error of this type. -/
  | returned (type : String)
  deriving DecidableEq

/-- The text of the column `last_error`. -/
def HandlerError.diagnostic : HandlerError → String
  | .payload => "*json.UnmarshalTypeError: deferred handler failed"
  | .missingHandler => "no handler for deferred task"
  | .returned type => type ++ ": deferred handler failed"

/-- The rounds of the loop that doubles the delay. -/
def doubleDelay (backoffMax : Int) : Nat → Int → Int
  | 0, delay => delay
  | rounds + 1, delay =>
    if delay < backoffMax then doubleDelay backoffMax rounds (min (delay * 2) backoffMax) else delay

/-- The delay after a failure, when the attempts have been counted. -/
def Queue.delay (q : Queue) (attempts : Nat) : Int :=
  doubleDelay q.backoffMax (attempts - 1) q.backoffBase

/-- The readings of the clock while an outcome is written. -/
structure Readings where
  finish : Int
  start : Int
  available : Int
  deriving DecidableEq

/-- `COALESCE(started_at, $n)`. -/
def DeferredTask.started (row : DeferredTask) (at' : Int) : Option Int :=
  some (row.startedAt.getD at')

/-- The row after an attempt that succeeds. -/
def DeferredTask.succeed (row : DeferredTask) (now : Int) : DeferredTask :=
  { row with
    status := .done
    attempts := row.attempts + 1
    startedAt := row.started now
    finishedAt := some now
    lastError := "" }

/-- The row after an attempt that fails. -/
def DeferredTask.fail (row : DeferredTask) (q : Queue) (e : HandlerError) (now : Readings) :
    DeferredTask :=
  let exhausted := decide (row.maxAttempts ≤ row.attempts + 1)
  { row with
    status := if exhausted then .failed else .pending
    attempts := row.attempts + 1
    startedAt := row.started now.start
    finishedAt := if exhausted then some now.finish else none
    availableAt := now.available + q.delay (row.attempts + 1)
    lastError := e.diagnostic }

/-- `runOne` decodes the payload, looks the handler up and calls it. -/
def Queue.handle {ε : Type} (q : Queue) (row : DeferredTask) (result : Except String ε) :
    Except HandlerError ε :=
  match row.payload with
  | .other _ => .error .payload
  | _ =>
    if q.kinds.contains row.kind then
      match result with
      | .ok writes => .ok writes
      | .error type => .error (.returned type)
    else .error .missingHandler

/-! ### Transactions and drains -/

/-- Who runs a transaction. -/
inductive Owner where
  | request (n : Nat)
  | worker (w : Nat)
  deriving DecidableEq

/-- A transaction under way. -/
structure Tx where
  began : Int
  /-- The row that a worker has claimed. -/
  claimed : Option Nat
  /-- The kinds and deduplication keys that it has locked. -/
  locks : List (String × String)
  inserted : List (Nat × DeferredTask)
  /-- What its calls of `Enqueue` have returned. -/
  wakes : List Nat
  deriving DecidableEq

/-- With the lock of a deduplication key, until the transaction is over. -/
def Tx.lock (t : Tx) (key : String × String) : Tx := { t with locks := key :: t.locks }

/-- After a call of `Enqueue` that returns an id. -/
def Tx.wake (t : Tx) (id : Nat) : Tx := { t with wakes := t.wakes ++ [id] }

/-- After an insert. -/
def Tx.insert (t : Tx) (id : Nat) (row : DeferredTask) : Tx :=
  { t with inserted := t.inserted ++ [(id, row)] }

/-- A call of `RunPending` under way. -/
structure Drain where
  queue : Queue
  remaining : Nat
  summary : TaskSummary
  deriving DecidableEq

structure State (ε : Type) where
  tasks : KeyMap Nat DeferredTask
  nextId : Nat
  txs : KeyMap Owner Tx
  drains : KeyMap Nat Drain
  /-- What the handlers have committed, under the id of the task. -/
  effects : List (Nat × ε)

/-- The attempts that a task may have. -/
def attemptBudget (q : Queue) (o : EnqueueOptions) : Int :=
  if o.maxAttempts = 0 then (if q.maxAttempts = 0 then 5 else q.maxAttempts) else o.maxAttempts

/-- A task is before another one in the order of the claims. -/
def claimsBefore (a b : Nat × DeferredTask) : Prop :=
  a.2.availableAt < b.2.availableAt ∨ a.2.availableAt = b.2.availableAt ∧ a.1 ≤ b.1

instance (a b : Nat × DeferredTask) : Decidable (claimsBefore a b) :=
  inferInstanceAs (Decidable (_ ∨ _))

/-- The rows after the inserts of a transaction. -/
def insertAll (tasks : KeyMap Nat DeferredTask) (inserted : List (Nat × DeferredTask)) :
    KeyMap Nat DeferredTask :=
  inserted.foldl (fun rows e => rows.set e.1 e.2) tasks

namespace State

variable {ε : Type} (s : State ε)

def tx (o : Owner) : Except Error Tx := (s.txs.get? o).elim (.error .waiting) .ok

def drain (w : Nat) : Except Error Drain := (s.drains.get? w).elim (.error .waiting) .ok

def task (id : Nat) : Except Error DeferredTask := (s.tasks.get? id).elim (.error .waiting) .ok

/-- A worker has claimed the row. -/
def locked (id : Nat) : Bool := s.txs.entries.any fun e => e.2.claimed == some id

/-- Another transaction has the lock of the deduplication key. -/
def keyLocked (o : Owner) (key : String × String) : Bool :=
  s.txs.entries.any fun e => e.1 != o && e.2.locks.contains key

/-- The pending row with a deduplication key that a transaction sees. -/
def pendingRow (t : Tx) (kind dedupKey : String) : Option Nat :=
  ((s.tasks.entries ++ t.inserted).find? fun e =>
    e.2.kind == kind && e.2.dedupKey == dedupKey && e.2.status == .pending).map Prod.fst

/-- The transaction, with what it has done. -/
def setTx (o : Owner) (t : Tx) : State ε := { s with txs := s.txs.set o t }

/-- `INSERT INTO ops_deferredtask ... RETURNING id`. -/
def insertTask (o : Owner) (t : Tx) (row : DeferredTask) : State ε :=
  { s.setTx o ((t.insert s.nextId row).wake s.nextId) with nextId := s.nextId + 1 }

def enqueue (o : Owner) (q : Queue) (kind : String) (raw : Option Raw) (opts : EnqueueOptions)
    (now : Int) : Except Error (State ε) := do
  let t ← s.tx o
  need Error.unregisteredKind (q.kinds.contains kind)
  need Error.invalidDedupKey (decide (opts.dedupKey.length ≤ 200))
  let budget := attemptBudget q opts
  need Error.invalidAttemptBudget (decide (1 ≤ budget) && decide (budget ≤ 100))
  let raw ← raw.elim (.error Error.invalidPayload) .ok
  need Error.invalidPayload (decide (raw.length ≤ 64 * 1024))
  let row : DeferredTask :=
    { kind, payload := .object raw.members, status := .pending, attempts := 0
      maxAttempts := budget.toNat, availableAt := opts.availableAt.getD (now + opts.delay)
      dedupKey := opts.dedupKey, lastError := "", createdAt := t.began
      startedAt := none, finishedAt := none }
  if opts.dedupKey = "" then pure (s.insertTask o t row)
  else do
    need Error.waiting (!s.keyLocked o (kind, opts.dedupKey))
    let t := t.lock (kind, opts.dedupKey)
    match s.pendingRow t kind opts.dedupKey with
    -- A row that a worker has claimed is pending until the worker commits.
    | some id => pure (s.setTx o (t.wake id))
    | none => pure (s.insertTask o t row)

/-- A transaction of a request begins. -/
def begin (n : Nat) (now : Int) : Except Error (State ε) := do
  need Error.waiting (s.txs.get? (.request n)).isNone
  pure (s.setTx (.request n) ⟨now, none, [], [], []⟩)

/-- The transaction is over, and what it has locked is free. -/
def release (o : Owner) : State ε := { s with txs := s.txs.removeIf fun p _ => p == o }

def commit (n : Nat) : Except Error (State ε) := do
  let t ← s.tx (.request n)
  pure { s.release (.request n) with tasks := insertAll s.tasks t.inserted }

/-- The first statements of `RunPending`. A process has one drain at a time. -/
def startDrain (w : Nat) (q : Queue) (limit : Int) : Except Error (State ε) := do
  need Error.invalidBatch (decide (0 ≤ limit) && decide (limit ≤ 10000))
  need Error.waiting (s.drains.get? w).isNone
  pure { s with drains := s.drains.set w ⟨q, limit.toNat, ⟨0, 0, 0, 0⟩⟩ }

def endDrain (w : Nat) : State ε := { s with drains := s.drains.removeIf fun v _ => v == w }

/-- The row that a claim takes: the oldest one that is due and not locked. -/
def oldest (now : Int) : Option Nat :=
  ((s.tasks.entries.filter fun e => e.2.status == .pending && decide (e.2.availableAt ≤ now) &&
    !s.locked e.1).insertionSort claimsBefore).head?.map Prod.fst

/-- The claim of `runOne`, or the end of the loop of `RunPending`. -/
def claim (w : Nat) (began now : Int) : Except Error (State ε × Option Nat) := do
  let drain ← s.drain w
  need Error.waiting (s.txs.get? (.worker w)).isNone
  if drain.remaining = 0 then pure (s.endDrain w, none)
  else
    match s.oldest now with
    | none => pure (s.endDrain w, none)
    | some id => pure (s.setTx (.worker w) ⟨began, some id, [], [], []⟩, some id)

/-- The drain counts an outcome, and goes on. -/
def Drain.count (d : Drain) (status : Status) : Drain where
  queue := d.queue
  remaining := d.remaining - 1
  summary :=
    { claimed := d.summary.claimed + 1
      done := d.summary.done + (if status = .done then 1 else 0)
      retried := d.summary.retried + (if status = .pending then 1 else 0)
      failed := d.summary.failed + (if status = .failed then 1 else 0) }

/-- The rest of `runOne`: the handler, the outcome and the commit. A failed handler is rolled back
to the savepoint. -/
def finish (w : Nat) (result : Except String ε) (now : Readings) : Except Error (State ε) := do
  let drain ← s.drain w
  let t ← s.tx (.worker w)
  let id ← t.claimed.elim (.error Error.waiting) .ok
  let row ← s.task id
  let after := s.release (.worker w)
  match drain.queue.handle row result with
  | .ok writes => pure { after with
      tasks := (insertAll s.tasks t.inserted).set id (row.succeed now.start)
      drains := s.drains.set w (Drain.count drain .done)
      effects := s.effects ++ [(id, writes)] }
  | .error e =>
    let failed := row.fail drain.queue e now
    pure { after with
      tasks := s.tasks.set id failed
      drains := s.drains.set w (Drain.count drain failed.status) }

/-- A statement of `runOne` or its commit fails: the transaction is rolled back, and `RunPending`
returns the error. -/
def abort (w : Nat) : State ε := (s.release (.worker w)).endDrain w

end State

/-! ### Runs -/

inductive Act (ε : Type) where
  | begin (n : Nat) (now : Int)
  | enqueue (o : Owner) (q : Queue) (kind : String) (raw : Option Raw) (opts : EnqueueOptions)
      (now : Int)
  | commit (n : Nat)
  | rollback (n : Nat)
  | startDrain (w : Nat) (q : Queue) (limit : Int)
  | claim (w : Nat) (began now : Int)
  | finish (w : Nat) (result : Except String ε) (now : Readings)
  | abort (w : Nat)

namespace State

variable {ε : Type}

/-- The state after a successful operation, or the state before it. -/
def orElse (s : State ε) : Except Error (State ε) → State ε
  | .ok t => t
  | .error _ => s

def step (s : State ε) : Act ε → State ε
  | .begin n now => s.orElse (s.begin n now)
  | .enqueue o q kind raw opts now => s.orElse (s.enqueue o q kind raw opts now)
  | .commit n => s.orElse (s.commit n)
  | .rollback n => s.release (.request n)
  | .startDrain w q limit => s.orElse (s.startDrain w q limit)
  | .claim w began now => s.orElse ((s.claim w began now).map Prod.fst)
  | .finish w result now => s.orElse (s.finish w result now)
  | .abort w => s.abort w

/-- The task that a step claims. -/
def claims (s : State ε) : Act ε → Option Nat
  | .claim w began now =>
    match s.claim w began now with
    | .ok (_, id) => id
    | .error _ => none
  | _ => none

/-- No tasks, and nobody at work. -/
def empty : State ε := ⟨KeyMap.empty, 1, KeyMap.empty, KeyMap.empty, []⟩

end State

end SocialActivities.Ops
