import SocialActivities.Lib.Calendar
import SocialActivities.Lib.KeyMap
import SocialActivities.Lib.Machine
import SocialActivities.Lib.Ranked

/-!
# `SocialActivities.Searches.Rows`: saved searches and what they match (Go)

A saved search belongs to a user and names an activity type or a category, an area, a cost band and a
window of the week. `Board` has the tables that the queries of `MatchSavedSearches` read, `Book` the
ledgers, notices and budgets that it writes.

Instants are microseconds as in `Lib.Calendar`, and the local clock of the windows is a zone.
-/

namespace SocialActivities.Searches

open Lib Lib.Calendar

inductive Cohort where
  | unassigned
  | child
  | teen
  | adult
  deriving DecidableEq

inductive CostBand where
  | unspecified
  | free
  | low
  | paid
  deriving DecidableEq

/-- `CoarseWindow`, where `unknown` is a value outside the choices. -/
inductive CoarseWindow where
  | weekdayDaytime
  | weekdayEvening
  | weekendDaytime
  | weekendEvening
  | unknown
  deriving DecidableEq

/-- `ActivityStatus`, up to what is not open. -/
inductive Status where
  | open_
  | closed
  deriving DecidableEq

structure SavedSearch where
  id : Nat
  user : Nat
  cohort : Cohort
  type : Option Nat
  category : Option Nat
  area : Option Nat
  beginners : Bool
  cost : Option CostBand
  window : Option CoarseWindow
  deriving DecidableEq

/-- The row of a user, and what `Participate` makes of it. -/
structure Account where
  cohort : Cohort
  participates : Bool
  deriving DecidableEq

structure ActivityType where
  name : String
  category : Nat
  deriving DecidableEq

structure Place where
  name : String
  city : String
  deriving DecidableEq

/-- An area, and whether it was derived from a city. -/
structure Area where
  byCity : Bool
  city : String
  deriving DecidableEq

structure Activity where
  cohort : Cohort
  isHidden : Bool
  status : Status
  startsAt : Nat
  owner : Nat
  place : Nat
  type : Nat
  secondaryTypes : List Nat
  beginnersWelcome : Bool
  cost : CostBand
  title : String
  deriving DecidableEq

/-- An interest gauge (`ActivityInterest`). -/
structure Gauge where
  cohort : Cohort
  converted : Bool
  expiresAt : Nat
  proposer : Nat
  place : Nat
  type : Nat
  window : CoarseWindow
  interested : List Nat
  deriving DecidableEq

/-- What a notice is about. -/
inductive Subject where
  | activity (id : Nat)
  | gauge (id : Nat)
  deriving DecidableEq

inductive NoticeKind where
  | activityMatch
  | gaugeMatch
  deriving DecidableEq

def Subject.kind : Subject → NoticeKind
  | .activity _ => .activityMatch
  | .gauge _ => .gaugeMatch

structure Notice where
  recipient : Nat
  subject : Subject
  title : String
  body : String
  url : String
  deriving DecidableEq

/-- The settings of a run, the local clock and the database's `lower`. -/
structure Env where
  savedSearchMatchBatch : Nat
  savedSearchNotifyLimit : Nat
  savedSearchNotifyWindow : Nat
  zone : Zone
  lower : String → String

/-- The tables that a run reads, and the time. -/
structure Board where
  now : Nat
  searches : List SavedSearch
  users : KeyMap Nat Account
  types : KeyMap Nat ActivityType
  places : KeyMap Nat Place
  areas : KeyMap Nat Area
  activities : KeyMap Nat Activity
  gauges : KeyMap Nat Gauge
  /-- Pairs of blocker and blocked. -/
  blocks : List (Nat × Nat)
  /-- The kinds that users have muted. -/
  muted : List (Nat × NoticeKind)

/-- A row of `accounts_go_action_budget`. -/
structure Budget where
  count : Nat
  until_ : Nat
  deriving DecidableEq

/-- The tables that a run writes: the two ledgers, the notices and the budgets. -/
structure Book where
  matches_ : List (Nat × Subject)
  notices : List Notice
  budgets : KeyMap Nat Budget

def Book.empty : Book := ⟨[], [], KeyMap.empty⟩

/-! ### The local clock -/

/-- Is the day of a wall-clock time one from Monday to Friday? Day 0 is a Monday. -/
def isWeekday (wall : Nat) : Bool := decide (wall / dayLength % 7 < 5)

/-- The hour of a wall-clock time. -/
def hourOf (wall : Nat) : Nat := wall % dayLength / (60 * 60 * 10 ^ 6)

def scheduleFits (wall : Nat) : Option CoarseWindow → Bool
  | none => true
  | some .weekdayDaytime => isWeekday wall && decide (hourOf wall < 18)
  | some .weekdayEvening => isWeekday wall && !decide (hourOf wall < 18)
  | some .weekendDaytime => !isWeekday wall && decide (hourOf wall < 18)
  | some .weekendEvening => !isWeekday wall && !decide (hourOf wall < 18)
  | some .unknown => false

/-- Two digits. -/
def pad (n : Nat) : String := if n < 10 then "0" ++ toString n else toString n

def weekdayNames : List String := ["Mon", "Tue", "Wed", "Thu", "Fri", "Sat", "Sun"]

def monthNames : List String :=
  ["Jan", "Feb", "Mar", "Apr", "May", "Jun", "Jul", "Aug", "Sep", "Oct", "Nov", "Dec"]

/-- `Format("Mon 02 Jan, 15:04")`. -/
def formatStart (wall : Nat) : String :=
  let day := wall / dayLength
  let month := monthOf day
  weekdayNames.getD (day % 7) "" ++ " " ++ pad (day - monthStart month + 1) ++ " " ++
    monthNames.getD (month % 12) "" ++ ", " ++ pad (hourOf wall) ++ ":" ++
    pad (wall % dayLength / (60 * 10 ^ 6) % 60)

end SocialActivities.Searches
