import SocialActivities.Audit.Rows
import SocialActivities.Feeds.GoExpand
import SocialActivities.Feeds.Lines
import SocialActivities.Feeds.PyExpand

/-!
# `SocialActivities.Feeds.Parse`: `ParseICS` (Go) and `parse_ics` (Python)

Both parsers go through the lines. `BEGIN:VEVENT` begins a draft, a property changes it, and
`END:VEVENT` makes events of it: one for each instant of its rule, or one without a rule. A draft without
a start gives none. Other lines are properties like any other, also where they begin or end a component.

The texts of instants follow the languages: `Format("20060102")` in Go, `%Y%m%d` in Python, where the
number of digits of a year depends on the platform.
-/

namespace SocialActivities.Feeds

open Lib Lib.Calendar Lib.Digits
open Audit (pad)

/-- What was read of an event. -/
structure Draft where
  title : Text := "(untitled)".toList
  description : Text := []
  url : Text := []
  uid : Text := []
  starts : Option Stamp := none
  ends : Option Stamp := none
  rule : Text := []
  deriving DecidableEq

/-- An event of a feed. Its times are instants. -/
structure RawEvent where
  title : Text
  description : Text
  url : Text
  externalId : Text
  starts : Int
  ends : Option Int
  deriving DecidableEq

def feedMaxEvents : Nat := 2000

def occUidMax : Nat := 150

def beginEvent : Text := "BEGIN:VEVENT".toList

def endEvent : Text := "END:VEVENT".toList

/-- The name of a property in upper case, and its value. -/
def property (upper : Text → Text) (line : Text) : Option (Text × Text) :=
  (cut ':' line).map fun (name, value) => (upper (name.takeWhile (· != ';')), value)

/-- The date of a day in the calendar, where `before` is the number of years counted before year 1. -/
def dateText (yearText : Int → Text) (before : Int) (day : Nat) : Text :=
  let k := monthOf day
  yearText ((k / 12 : Nat) + 1 - before) ++ pad 2 (k % 12 + 1) ++ pad 2 (day - monthStart k + 1)

/-- The identity of an occurrence. -/
def occurrenceId (dateOf : Int → Text) (uid : Text) (date : Int) : Text :=
  if uid = [] then [] else uid.take occUidMax ++ ':' :: dateOf date

/-! ### Go -/

namespace Go

/-- One line of an event. -/
def readLine (u : Unicode) (d : Draft) (line : Text) : Draft :=
  match property u.goUpper line with
  | none => d
  | some (key, value) =>
    let value := trimSpace value
    if key = "SUMMARY".toList then { d with title := value.take 255 }
    else if key = "DESCRIPTION".toList then { d with description := value }
    else if key = "URL".toList then { d with url := value.take 500 }
    else if key = "UID".toList then { d with uid := value.take 200 }
    else if key = "RRULE".toList then { d with rule := value }
    else if key = "DTSTART".toList then { d with starts := (icalDate value).filter (· ≠ zeroTime) }
    else if key = "DTEND".toList then
      match icalDate value with
      | some ends => { d with ends := some ends }
      | none => d
    else d

/-- The day of an instant. -/
def dayOf (x : Int) : Nat := (x / dayNanos).toNat

/-- A year has at least four digits. -/
def yearText (y : Int) : Text :=
  if y < 0 then '-' :: pad (max 4 (width y.natAbs)) y.natAbs else pad (max 4 (width y.natAbs)) y.natAbs

/-- `Format("20060102")`. -/
def dateOf (x : Int) : Text := dateText yearText 400 (dayOf x)

/-- The events of a draft. -/
def eventsOf (u : Unicode) (now : Int) (d : Draft) : List RawEvent :=
  match d.starts with
  | none => []
  | some starts =>
    let dates := if d.rule = [] then [starts.at dayNanos] else expandRule u starts d.rule now feedDays
    dates.map fun date =>
      { title := d.title
        description := d.description
        url := d.url
        externalId := if d.rule = [] then d.uid else occurrenceId dateOf d.uid date
        starts := date
        ends := d.ends.map fun ends => date + sub64 (ends.at dayNanos) (starts.at dayNanos) }

/-- The events at the end of an event. -/
def yields (u : Unicode) (now : Int) (current : Option Draft) : List RawEvent :=
  (current.map (eventsOf u now)).getD []

/-- Events are appended one by one. The flag tells whether there are enough. -/
def append (out : List RawEvent) : List RawEvent → List RawEvent × Bool
  | [] => (out, false)
  | event :: events =>
    if feedMaxEvents ≤ (out ++ [event]).length then (out ++ [event], true) else append (out ++ [event]) events

/-- The loop over lines. -/
def parseLines (u : Unicode) (now : Int) : Option Draft → List RawEvent → List Text → List RawEvent
  | _, out, [] => out
  | current, out, line :: lines =>
    if line = beginEvent then parseLines u now (some {}) out lines
    else if line = endEvent then
      match append out (yields u now current) with
      | (out, true) => out
      | (out, false) => parseLines u now none out lines
    else parseLines u now (current.map fun d => readLine u d line) out lines

def parseICS (u : Unicode) (raw : Text) (now : Int) : Except CalendarError (List RawEvent) := do
  let lines ← unfoldText raw
  pure (parseLines u now none [] lines)

end Go

/-! ### Python -/

namespace Py

/-- One line of an event. -/
def readLine (u : Unicode) (d : Draft) (line : Text) : Draft :=
  match property u.pyUpper line with
  | none => d
  | some (key, value) =>
    if key = "SUMMARY".toList then { d with title := (strip value).take 255 }
    else if key = "DESCRIPTION".toList then { d with description := strip value }
    else if key = "URL".toList then { d with url := (strip value).take 500 }
    else if key = "UID".toList then { d with uid := (strip value).take 200 }
    else if key = "RRULE".toList then { d with rule := strip value }
    else if key = "DTSTART".toList then { d with starts := parseDt u value }
    else if key = "DTEND".toList then { d with ends := parseDt u value }
    else d

/-- The day of an instant. -/
def dayOf (x : Int) : Nat := (x / dayLength).toNat

/-- `%Y%m%d`. -/
def dateOf (yearText : Int → Text) (x : Int) : Text := dateText yearText 0 (dayOf x)

/-- `(occ + duration) if duration else None`. -/
def occurrenceEnd (duration : Option Int) (occ : Int) : Except Raised (Option Int) :=
  match duration with
  | none => .ok none
  | some duration => if duration = 0 then .ok none else (dated (occ + duration)).map some

/-- The event at an instant, where an end is moved along. -/
def occurrence (yearText : Int → Text) (d : Draft) (duration : Option Int) (occ : Int) :
    Except Raised RawEvent := do
  let ends ← occurrenceEnd duration occ
  pure
    { title := d.title
      description := d.description
      url := d.url
      externalId := occurrenceId (dateOf yearText) d.uid occ
      starts := occ
      ends := ends }

def expandedEvents (u : Unicode) (yearText : Int → Text) (now : Int) (d : Draft) (starts : Stamp) :
    Except Raised (List RawEvent) := do
  let duration := d.ends.map fun ends => ends.at dayLength - starts.at dayLength
  let occurrences ← expandRule u starts d.rule now horizonDays
  occurrences.mapM (occurrence yearText d duration)

/-- The events of a draft. -/
def eventsOf (u : Unicode) (yearText : Int → Text) (now : Int) (d : Draft) : Except Raised (List RawEvent) :=
  match d.starts with
  | none => .ok []
  | some starts =>
    if d.rule = [] then
      .ok [{ title := d.title
             description := d.description
             url := d.url
             externalId := d.uid
             starts := starts.at dayLength
             ends := d.ends.map (Stamp.at dayLength) }]
    else expandedEvents u yearText now d starts

/-- The events at the end of an event. -/
def yields (u : Unicode) (yearText : Int → Text) (now : Int) (current : Option Draft) :
    Except Raised (List RawEvent) :=
  match current with
  | none => .ok []
  | some d => eventsOf u yearText now d

/-- The loop over lines. -/
def parseLines (u : Unicode) (yearText : Int → Text) (now : Int) :
    Option Draft → List RawEvent → List Text → Except Raised (List RawEvent)
  | _, out, [] => .ok out
  | current, out, line :: lines =>
    if line = beginEvent then parseLines u yearText now (some {}) out lines
    else if line = endEvent then do
      let events ← yields u yearText now current
      let out := out ++ events
      if feedMaxEvents ≤ out.length then .ok (out.take feedMaxEvents)
      else parseLines u yearText now none out lines
    else parseLines u yearText now (current.map fun d => readLine u d line) out lines

def parseIcs (u : Unicode) (yearText : Int → Text) (text : Text) (now : Int) : Except Raised (List RawEvent) :=
  parseLines u yearText now none [] (unfoldText text)

end Py

end SocialActivities.Feeds
