import SocialActivities.Lib.KeyMap
import SocialActivities.Lib.Machine
import Mathlib.Data.List.Sort

/-!
# `SocialActivities.Jobs.Reminders`: reminders of activities

A call of `Reminders` lists the activities that start soon, and then takes one after the other in a
transaction of its own, which locks the row and reads it again. Between two of these transactions other
calls may run, members join and leave, activities change or go, venues move, and kinds are muted.

A member who has a reminder of an activity gets no other one until its venue is moved. But the loop
returns at an activity that is no longer open, and those after it are not reminded: `Ready` says that a
transaction does not find such a one.
-/

namespace SocialActivities.Jobs

open Lib

/-- A row of `social_activity`, with the members in state `member`. -/
structure Plan where
  isOpen : Bool
  isHidden : Bool
  startsAt : Int
  placeId : Nat
  members : List Nat

/-- A call of `Reminders` under way, with the activities that it still has to take. -/
inductive Call where
  | idle
  | going (ids : List Nat)
  /-- It has returned an error. -/
  | failed

structure Board where
  activities : KeyMap Nat Plan
  /-- The recipients and activities of the rows of kind `event_reminder`. The `url` of a row is the
  path of its activity. -/
  reminders : List (Nat × Nat)
  /-- The users whose `muted_kinds` have `event_reminder`. -/
  muted : Nat → Bool
  calls : Nat → Call

inductive Move where
  /-- The query of a call, with its two readings of the clock. -/
  | list (call : Nat) (now now' : Int)
  /-- The next transaction of a call. -/
  | remind (call : Nat)
  /-- An activity is created, edited, cancelled, hidden or deleted, or has other members. -/
  | change (id : Nat) (row : Option Plan)
  | moveActivity (id placeId : Nat) (now : Int)
  | mute (user : Nat) (muted : Bool)

namespace Board

variable (lookAhead : Int) (s : Board)

/-- The activities that start within the look-ahead. -/
def listed (now now' : Int) : List Nat :=
  (s.activities.keysWhere fun _ a => a.isOpen && !a.isHidden && decide (now ≤ a.startsAt) &&
    decide (a.startsAt ≤ now' + lookAhead)).insertionSort (· ≤ ·)

/-- The row that a transaction locks. -/
def locked (id : Nat) : Option Plan :=
  (s.activities.get? id).filter fun a => a.isOpen && !a.isHidden

/-- The members whom a transaction notifies: they have no reminder and have not muted the kind. -/
def notified (id : Nat) (a : Plan) : List (Nat × Nat) :=
  (a.members.filter fun u => !s.reminders.contains (u, id) && !s.muted u).map (·, id)

def setCall (call : Nat) (c : Call) : Board :=
  { s with calls := fun other => if other = call then c else s.calls other }

/-- What a step inserts. -/
def inserted : Move → List (Nat × Nat)
  | .remind call =>
    match s.calls call with
    | .going (id :: _) => (s.locked id).elim [] (s.notified id)
    | _ => []
  | _ => []

/-- `MoveActivity` deletes the reminders, if it moves the activity. -/
def moves (id placeId : Nat) (now : Int) : Option Plan :=
  (s.activities.get? id).filter fun a =>
    a.isOpen && decide (now < a.startsAt) && decide (a.placeId ≠ placeId)

def step : Move → Board
  | .list call now now' => s.setCall call (.going (s.listed lookAhead now now'))
  | .remind call =>
    match s.calls call with
    | .going (id :: ids) =>
      match s.locked id with
      | some a => { s with reminders := s.reminders ++ s.notified id a }.setCall call (.going ids)
      | none => s.setCall call .failed
    | _ => s
  | .change id row =>
    { s with activities := row.elim (s.activities.removeIf fun j _ => j == id) (s.activities.set id) }
  | .moveActivity id placeId now =>
    match s.moves id placeId now with
    | some a =>
      { s with activities := s.activities.set id { a with placeId }
               reminders := s.reminders.filter fun r => r.2 != id }
    | none => s
  | .mute user muted => { s with muted := fun u => if u = user then muted else s.muted u }

/-- The venue of the activity is moved. -/
def Moves (id : Nat) (m : Move) : Prop :=
  ∃ placeId now, m = .moveActivity id placeId now ∧ (s.moves id placeId now).isSome

end Board

section
variable {lookAhead : Int} {s : Board} {m : Move} {u id call : Nat}

end

/-! ### Runs -/

end SocialActivities.Jobs
