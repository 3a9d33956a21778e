import SocialActivities.Feeds.Dates
import SocialActivities.Lib.Occurrences

/-!
# `SocialActivities.Feeds.Rules`: recurrence rules (Go and Python)

A `Rule` is what the two expansions read from the text of an `RRULE`: an interval of days, weeks or months,
a number of occurrences and an end. `readRule` reads it; a rule of another shape is not supported.

`Rule.occurs` says at which instants a rule repeats a start, in the terms of the calendar. The expansions
differ in how they come to these instants, in the numbers they can read and in the dates they have.
-/

namespace SocialActivities.Feeds

open Lib Lib.Calendar

/-- Days of the week, in order. -/
structure Weekdays where
  days : List Nat
  increasing : days.Pairwise (· < ·)
  lt_seven : ∀ day ∈ days, day < 7
  deriving DecidableEq

/-- What a rule repeats by. -/
inductive Pattern where
  | daily
  | weekly
  /-- Weekly, on some days of the week. -/
  | weekdays (on : Weekdays)
  | monthly
  deriving DecidableEq

structure Rule where
  pattern : Pattern
  interval : Nat
  count : Option Nat
  until_ : Option Stamp
  interval_pos : 0 < interval
  deriving DecidableEq

/-! ### Reading -/

/-- The parts of a rule, with their keys in upper case. -/
def ruleParts (upper strip : Text → Text) (rule : Text) : List (Text × Text) :=
  (splitOn ';' rule).filterMap fun token =>
    (cut '=' token).map fun (k, v) => (upper (strip k), strip v)

/-- The part under a key. The last one wins. -/
def part (parts : List (Text × Text)) (key : String) : Option Text :=
  (parts.reverse.find? fun p => p.1 == key.toList).map Prod.snd

def weekdayNames : List String := ["MO", "TU", "WE", "TH", "FR", "SA", "SU"]

/-- The days of the week that `BYDAY` names. -/
def byDay (upper strip : Text → Text) (raw : Text) : Weekdays where
  days := (List.range 7).filter fun d => (splitOn ',' raw).any fun token =>
    upper (strip token) == (weekdayNames.getD d "").toList
  increasing := List.pairwise_lt_range.filter _
  lt_seven _ hday := List.mem_range.mp (List.mem_filter.mp hday).1

/-- The day of the week of the start. -/
def weekdayOf (start : Stamp) : Weekdays where
  days := [weekday start.day]
  increasing := List.pairwise_singleton _ _
  lt_seven day hday := by
    rw [List.mem_singleton.mp hday]
    exact Nat.mod_lt _ (by decide)

/-- The days of the week, or that of the start if there are none. -/
def byDayOf (upper strip : Text → Text) (start : Stamp) (raw : Text) : Weekdays :=
  let named := byDay upper strip raw
  if named.days.isEmpty then weekdayOf start else named

/-- The pattern of a rule that is supported. -/
def readPattern (upper strip : Text → Text) (start : Stamp) (parts : List (Text × Text)) : Option Pattern :=
  let freq := upper ((part parts "FREQ").getD [])
  let days := (part parts "BYDAY").getD []
  if freq = "DAILY".toList then some .daily
  else if freq = "WEEKLY".toList then
    some (if days = [] then .weekly else .weekdays (byDayOf upper strip start days))
  else if freq = "MONTHLY".toList ∧ days = [] then some .monthly
  else none

/-- A positive number, if the text is one. -/
def positiveOf (parse : Text → Option Int) (raw : Option Text) : Option Nat :=
  (raw.bind parse).bind fun n => if 0 < n then some n.toNat else none

theorem positiveOf_pos {parse : Text → Option Int} {raw : Option Text} {n : Nat}
    (h : positiveOf parse raw = some n) : 0 < n := by
  have ⟨v, _, hv⟩ := Option.bind_eq_some_iff.mp h
  split at hv
  · next hpos =>
    cases hv
    omega
  · cases hv

/-- Intervals above this are cut down to it (Go). -/
def maxInterval : Nat := 100000

namespace Go

/-- What `expandRule` reads of a rule. `COUNT` and `INTERVAL` beyond 64 bits are as if absent. -/
def readRule (u : Unicode) (start : Stamp) (rule : Text) : Option Rule :=
  let parts := ruleParts u.goUpper trimSpace rule
  (readPattern u.goUpper trimSpace start parts).map fun pattern =>
    { pattern := pattern
      interval := min ((positiveOf atoi (part parts "INTERVAL")).getD 1) maxInterval
      count := positiveOf atoi (part parts "COUNT")
      until_ := (icalDate ((part parts "UNTIL").getD [])).filter (· ≠ zeroTime)
      interval_pos := by
        refine Nat.lt_min.mpr ⟨?_, by decide⟩
        cases h : positiveOf atoi (part parts "INTERVAL") with
        | none => exact Nat.one_pos
        | some => exact positiveOf_pos h }

end Go

namespace Py

/-- What `_expand_rrule` reads of a rule. -/
def readRule (u : Unicode) (start : Stamp) (rule : Text) : Option Rule :=
  let parts := ruleParts u.pyUpper strip rule
  (readPattern u.pyUpper strip start parts).map fun pattern =>
    { pattern := pattern
      interval := (positiveOf (pyInt u) (part parts "INTERVAL")).getD 1
      count := positiveOf (pyInt u) (part parts "COUNT")
      until_ := (part parts "UNTIL").bind (parseDt u)
      interval_pos := by
        cases h : positiveOf (pyInt u) (part parts "INTERVAL") with
        | none => exact Nat.one_pos
        | some => exact positiveOf_pos h }

end Py

/-! ### Meaning -/

/-- The loops of the expansions give up after as many rounds. -/
def maxRounds : Nat := 4000

namespace Rule

variable (r : Rule) (ticks : Nat) (start : Stamp)

/-- The day of the week in which the start lies, which is a Monday. -/
def week0 : Nat := start.day - weekday start.day

/-- The instants at which the rule repeats the start. -/
def occurs (x : Int) : Prop :=
  match r.pattern with
  | .daily => ∃ k : Nat, x = Stamp.at ticks ⟨start.day + k * r.interval, start.time⟩
  | .weekly => ∃ k : Nat, x = Stamp.at ticks ⟨start.day + 7 * (k * r.interval), start.time⟩
  | .weekdays on => start.at ticks ≤ x ∧ ∃ week, ∃ day ∈ on.days,
      x = Stamp.at ticks ⟨week0 start + 7 * (week * r.interval) + day, start.time⟩
  | .monthly => ∃ k : Nat, x = Stamp.at ticks ⟨addMonths start.day (k * r.interval), start.time⟩

/-- How far the expansions look: as many weeks or months of the rule as their loops have rounds. Days, and weeks
without a day of the week, have no bound. -/
def reached (x : Int) : Prop :=
  match r.pattern with
  | .daily => True
  | .weekly => True
  | .weekdays _ => x < Stamp.at ticks ⟨week0 start + 7 * (maxRounds * r.interval), start.time⟩
  | .monthly => x < Stamp.at ticks ⟨addMonths start.day (maxRounds * r.interval), start.time⟩

/-- The view of the expansions. -/
def window (now : Int) (days : Nat) : Window Int where
  floor := now - ticks
  horizon := now + days * ticks
  until_ := r.until_.map (Stamp.at ticks)
  count := r.count
  cap := 120
  cap_pos := by decide

end Rule

end SocialActivities.Feeds
