import SocialActivities.Lib.Calendar
import SocialActivities.Safety.GoModeration
import SocialActivities.Safety.PyModeration

/-!
# `SocialActivities.Feeds.Dates`: calendar dates and texts of numbers (Go and Python)

A `Stamp` is a day and a time of the day. Python counts microseconds, and days from 1 January of year 1,
where its dates begin. Go counts nanoseconds, and its parser takes the year 0 as well; days are counted
from 400 years earlier there, which is a whole number of weeks and keeps the leap years in place.

`icalDate` and `parseDt` read the dates of a calendar, `atoi` and `pyInt` the numbers of a rule.
-/

namespace SocialActivities.Feeds

open Lib Lib.Calendar

abbrev Text := List Char

/-- Tables of Unicode: upper case, and the decimal digits that Python reads. -/
structure Unicode where
  goUpper : Text → Text
  pyUpper : Text → Text
  digit : Char → Option Nat

/-- The tables for ASCII. -/
def Unicode.ascii : Unicode where
  goUpper s := s.map Char.toUpper
  pyUpper s := s.map Char.toUpper
  digit c := if c.isDigit then some (c.toNat - '0'.toNat) else none

/-- A day, and a time of the day. -/
structure Stamp where
  day : Nat
  time : Nat
  deriving DecidableEq

/-- The instant of a stamp, where a day has `ticks` units. -/
def Stamp.at (ticks : Nat) (s : Stamp) : Int := s.day * ticks + s.time

/-- The same day of the month `n` months later, or the last day of that month. -/
def addMonths (day n : Nat) : Nat :=
  let k := monthOf day
  monthStart (k + n) + min (day - monthStart k) (monthLength (k + n) - 1)

theorem addMonths_lt (day : Nat) {m n : Nat} (h : m < n) : addMonths day m < addMonths day n := by
  have hnext : monthStart (monthOf day + m + 1) ≤ monthStart (monthOf day + n) :=
    monthStart_le_of_le (by omega)
  have hlength := le_monthLength (monthOf day + m)
  rw [monthStart_succ] at hnext
  unfold addMonths
  dsimp only
  omega

theorem addMonths_zero (day : Nat) : addMonths day 0 = day := by
  have hle := monthStart_monthOf_le day
  have hlt := lt_monthStart_succ day
  rw [monthStart_succ] at hlt
  unfold addMonths
  dsimp only
  rw [Nat.add_zero]
  omega

theorem addMonths_add_le (day m n : Nat) : addMonths day (m + n) ≤ addMonths day m + 31 * n := by
  induction n with
  | zero => exact Nat.le_refl _
  | succ n ih =>
    have hlength := monthLength_le (monthOf day + (m + n))
    have hnext := le_monthLength (monthOf day + (m + n))
    have hstep : addMonths day (m + (n + 1)) ≤ addMonths day (m + n) + 31 := by
      unfold addMonths
      dsimp only
      rw [← Nat.add_assoc m, ← Nat.add_assoc (monthOf day), monthStart_succ]
      have hlast := monthLength_le (monthOf day + (m + n) + 1)
      omega
    omega

/-- `weekday()`: 0 is Monday. Both counts of days begin on one. -/
def weekday (day : Nat) : Nat := day % 7

/-! ### Texts -/

def trim (isSpace : Char → Bool) (s : Text) : Text :=
  ((s.dropWhile isSpace).reverse.dropWhile isSpace).reverse

def trimSpace (s : Text) : Text := trim Safety.Go.isSpace s

def strip (s : Text) : Text := trim Safety.Py.isSpace s

/-- The text before the first separator and the text after it. -/
def cut (separator : Char) (s : Text) : Option (Text × Text) :=
  if s.contains separator then
    some (s.takeWhile (· != separator), (s.dropWhile (· != separator)).drop 1)
  else none

/-- The texts between the separators. -/
def splitOn (separator : Char) : Text → List Text
  | [] => [[]]
  | c :: s =>
    if c = separator then [] :: splitOn separator s
    else
      match splitOn separator s with
      | [] => [[c]]
      | part :: parts => (c :: part) :: parts

/-- The value of a text of ASCII digits. -/
def decimal (s : Text) : Nat := s.foldl (fun n c => 10 * n + (c.toNat - '0'.toNat)) 0

/-- The sign of a number, and the rest. -/
def signOf : Text → Bool × Text
  | '-' :: s => (true, s)
  | '+' :: s => (false, s)
  | s => (false, s)

def atoi (s : Text) : Option Int :=
  let (negative, ds) := signOf s
  if ds.isEmpty || !ds.all Char.isDigit then none
  else
    let n : Int := if negative then -decimal ds else decimal ds
    if -2 ^ 63 ≤ n ∧ n < 2 ^ 63 then some n else none

/-- Digits with single underscores between them, as their values. -/
def digitRun (digit : Char → Option Nat) : Text → Option (List Nat)
  | [] => none
  | [c] => (digit c).map fun d => [d]
  | c :: '_' :: s => do
    let d ← digit c
    let ds ← digitRun digit s
    pure (d :: ds)
  | c :: s => do
    let d ← digit c
    let ds ← digitRun digit s
    pure (d :: ds)

/-- `int`, with its limit on the number of digits. -/
def pyInt (u : Unicode) (s : Text) : Option Int :=
  let (negative, ds) := signOf (strip s)
  match digitRun u.digit ds with
  | none => none
  | some ds =>
    if 4300 < ds.length then none
    else
      let n : Int := (ds.foldl (fun n d => 10 * n + d) 0 : Nat)
      some (if negative then -n else n)

/-! ### `icalDate` (Go) -/

/-- The nanoseconds of a day. -/
def dayNanos : Nat := 24 * 60 * 60 * 10 ^ 9

/-- A number of exactly `n` ASCII digits, and the rest. -/
def fixedDigits (n : Nat) (s : Text) : Option (Nat × Text) :=
  if (s.take n).length = n ∧ (s.take n).all Char.isDigit then some (decimal (s.take n), s.drop n)
  else none

/-- One character, and the rest. -/
def literal (c : Char) : Text → Option Text
  | d :: s => if c = d then some s else none
  | [] => none

/-- `20060102`. -/
def goDay (s : Text) : Option (Nat × Text) := do
  let (year, s) ← fixedDigits 4 s
  let (month, s) ← fixedDigits 2 s
  let (day, s) ← fixedDigits 2 s
  if 1 ≤ month ∧ month ≤ 12 then
    let k := (year + 399) * 12 + (month - 1)
    if 1 ≤ day ∧ day ≤ monthLength k then some (monthStart k + (day - 1), s) else none
  else none

/-- A fraction of a second, which `time.Parse` takes although the layout has none. -/
def fraction (s : Text) : Nat × Text :=
  match s with
  | c :: rest =>
    let ds := rest.takeWhile Char.isDigit
    if (c = '.' ∨ c = ',') ∧ ds ≠ [] then
      (decimal (ds.take 9) * 10 ^ (9 - (ds.take 9).length), rest.drop ds.length)
    else (0, s)
  | [] => (0, s)

/-- `150405`. -/
def goTime (s : Text) : Option (Nat × Text) := do
  let (hour, s) ← fixedDigits 2 s
  let (minute, s) ← fixedDigits 2 s
  let (second, s) ← fixedDigits 2 s
  if hour < 24 ∧ minute < 60 ∧ second < 60 then
    let (nanos, s) := fraction s
    some (((hour * 60 + minute) * 60 + second) * 10 ^ 9 + nanos, s)
  else none

/-- `20060102T150405`. -/
def goDayTime (s : Text) : Option (Stamp × Text) := do
  let (day, s) ← goDay s
  let s ← literal 'T' s
  let (time, s) ← goTime s
  pure (⟨day, time⟩, s)

/-- The value, if nothing is left. -/
def complete {α : Type} (parsed : α × Text) : Option α := if parsed.2.isEmpty then some parsed.1 else none

def icalDate (raw : Text) : Option Stamp :=
  let s := trimSpace raw
  (do
    let (stamp, s) ← goDayTime s
    let s ← literal 'Z' s
    complete (stamp, s)) <|>
  (goDayTime s >>= complete) <|>
  (do
    let (day, s) ← goDay s
    complete (⟨day, 0⟩, s))

/-- `time.Time{}`, which `IsZero` takes for no time. -/
def zeroTime : Stamp := ⟨monthStart (400 * 12), 0⟩

/-! ### `_parse_dt` (Python) -/

/-- A digit from `lo` to `hi`, in a class such as `[0-5]`. -/
def inClass (lo hi : Nat) (c : Char) : Option Nat :=
  if '0'.toNat + lo ≤ c.toNat ∧ c.toNat ≤ '0'.toNat + hi then some (c.toNat - '0'.toNat) else none

/-- One character of a class. -/
def one (a : Char → Option Nat) : Text → List (Nat × Text)
  | c :: s => (a c).toList.map fun n => (n, s)
  | [] => []

/-- A character of each class. -/
def two (a b : Char → Option Nat) (s : Text) : List (Nat × Text) :=
  (one a s).flatMap fun (m, s) => (one b s).map fun (n, s) => (10 * m + n, s)

/-- The matches of a directive of `strptime`, the preferred one first. -/
def directive (u : Unicode) : Char → Text → List (Nat × Text)
  | 'Y', s => (two u.digit u.digit s).flatMap fun (m, s) =>
    (two u.digit u.digit s).map fun (n, s) => (100 * m + n, s)
  | 'm', s => two (inClass 1 1) (inClass 0 2) s ++ two (inClass 0 0) (inClass 1 9) s ++ one (inClass 1 9) s
  | 'd', s => two (inClass 3 3) (inClass 0 1) s ++ two (inClass 1 2) u.digit s ++
    two (inClass 0 0) (inClass 1 9) s ++ one (inClass 1 9) s ++
    (literal ' ' s).toList.flatMap (one (inClass 1 9))
  | 'H', s => two (inClass 2 2) (inClass 0 3) s ++ two (inClass 0 1) u.digit s ++ one u.digit s
  | 'M', s => two (inClass 0 5) u.digit s ++ one u.digit s
  | 'S', s => two (inClass 6 6) (inClass 0 1) s ++ two (inClass 0 5) u.digit s ++ one u.digit s
  | c, s => ((literal c s).toList ++ (literal c.toLower s).toList).map fun s => (0, s)

/-- The matches of a format. -/
def formatMatches (u : Unicode) : List Char → Text → List (List Nat × Text)
  | [], s => [([], s)]
  | c :: format, s => (directive u c s).flatMap fun (n, s) =>
    (formatMatches u format s).map fun (ns, s) => (n :: ns, s)

/-- `strptime`: the values of the first match, if it takes the whole text. -/
def strptime (u : Unicode) (format : List Char) (s : Text) : Option (List Nat) :=
  (formatMatches u format s).head?.bind complete

/-- `datetime(year, month, day, hour, minute, second)`. -/
def pyStamp (year month day hour minute second : Nat) : Option Stamp :=
  let k := (year - 1) * 12 + (month - 1)
  if 1 ≤ year ∧ 1 ≤ day ∧ day ≤ monthLength k ∧ second < 60 then
    some ⟨monthStart k + (day - 1), ((hour * 60 + minute) * 60 + second) * 10 ^ 6⟩
  else none

/-- The stamp of the values of a format. -/
def stampOf : List Nat → Option Stamp
  | [year, month, day] => pyStamp year month day 0 0 0
  | year :: month :: day :: _ :: hour :: minute :: second :: _ => pyStamp year month day hour minute second
  | _ => none

def parseDt (u : Unicode) (value : Text) : Option Stamp :=
  let s := strip value
  (strptime u ['Y', 'm', 'd', 'T', 'H', 'M', 'S', 'Z'] s >>= stampOf) <|>
  (strptime u ['Y', 'm', 'd', 'T', 'H', 'M', 'S'] s >>= stampOf) <|>
  (strptime u ['Y', 'm', 'd'] s >>= stampOf)

end SocialActivities.Feeds
