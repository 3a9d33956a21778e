import Mathlib.Data.Prod.Lex
import SocialActivities.Searches.Rows

/-!
# `SocialActivities.Searches.Match`: `MatchSavedSearches` (Go)

Each search is one transaction: it reads the activities that may match, under a `LIMIT` of what is left
of the batch, drops those outside the window of the search, and records and announces the rest; then
the gauges likewise, whose window the query itself compares.
-/

namespace SocialActivities.Searches

open Lib

variable (env : Env) (b : Board)

/-! ### The queries -/

def searchArea (area : Option Nat) (place : Nat) : Bool :=
  area.all fun id => (b.areas.get? id).any fun ar => ar.byCity &&
    (b.places.get? place).any fun p => env.lower p.city == env.lower ar.city

def blocked (user other : Nat) : Bool := b.blocks.contains (user, other) || b.blocks.contains (other, user)

/-- The activity has the type or the category of the search, or is of it in the second place. -/
def typeMatches (search : SavedSearch) (a : Activity) : Bool :=
  search.type.any (fun t => a.type == t || a.secondaryTypes.contains t) ||
    search.category.any fun c => (a.type :: a.secondaryTypes).any fun t =>
      (b.types.get? t).any fun x => x.category == c

/-- The conditions of the query on an activity, but for the ledger. -/
def activityMatches (search : SavedSearch) (a : Activity) : Bool :=
  a.cohort == search.cohort && !a.isHidden && a.status == .open_ && decide (b.now ≤ a.startsAt) &&
    a.owner != search.user && (b.types.get? a.type).isSome && (b.places.get? a.place).isSome &&
    searchArea env b search.area a.place && typeMatches b search a &&
    (!search.beginners || a.beginnersWelcome) && search.cost.all (fun c => a.cost == c) &&
    !blocked b search.user a.owner

/-- The conditions of the query on a gauge, but for the ledger. -/
def gaugeMatches (search : SavedSearch) (g : Gauge) : Bool :=
  g.cohort == search.cohort && !g.converted && decide (b.now < g.expiresAt) &&
    g.proposer != search.user && (b.types.get? g.type).isSome && (b.places.get? g.place).isSome &&
    searchArea env b search.area g.place &&
    (search.type.any (fun t => g.type == t) ||
      search.category.any fun c => (b.types.get? g.type).any fun x => x.category == c) &&
    search.window.all (fun w => g.window == w) && !g.interested.contains search.user &&
    !blocked b search.user g.proposer

/-- `ORDER BY a.starts_at, a.id`. -/
def activityOrder (e : Nat × Activity) : Nat ×ₗ Nat := toLex (e.2.startsAt, e.1)

/-- `ORDER BY g.expires_at, g.id`. -/
def gaugeOrder (e : Nat × Gauge) : Nat ×ₗ Nat := toLex (e.2.expiresAt, e.1)

/-- The activities that the query may return. -/
def openActivities (book : Book) (search : SavedSearch) : List (Nat × Activity) :=
  b.activities.entries.filter fun e => activityMatches env b search e.2 &&
    !book.matches_.contains (search.user, .activity e.1)

def openGauges (book : Book) (search : SavedSearch) : List (Nat × Gauge) :=
  b.gauges.entries.filter fun e => gaugeMatches env b search e.2 &&
    !book.matches_.contains (search.user, .gauge e.1)

/-- The first query of a search, with its `LIMIT`. -/
def activityPage (book : Book) (search : SavedSearch) (limit : Nat) : List (Nat × Activity) :=
  firstBy activityOrder limit (openActivities env b book search)

def gaugePage (book : Book) (search : SavedSearch) (limit : Nat) : List (Nat × Gauge) :=
  firstBy gaugeOrder limit (openGauges env b book search)

/-! ### The notices -/

/-- A row that a query has returned: what it is, whether it fits the window, and its notice. -/
structure Offer where
  subject : Subject
  fits : Bool
  title : String
  body : String
  url : String

def activityOffer (search : SavedSearch) (e : Nat × Activity) : Offer where
  subject := .activity e.1
  fits := scheduleFits (env.zone.wall e.2.startsAt) search.window
  title := "New " ++ (b.types.get? e.2.type).elim "" ActivityType.name ++ ": \"" ++ e.2.title ++ "\""
  body := "Starts " ++ formatStart (env.zone.wall e.2.startsAt) ++ "."
  url := "/activities/" ++ toString e.1 ++ "/"

def windowLabel : CoarseWindow → String
  | .weekdayDaytime => "Weekday daytime"
  | .weekdayEvening => "Weekday evening"
  | .weekendDaytime => "Weekend daytime"
  | .weekendEvening => "Weekend evening"
  | .unknown => ""

def gaugeOffer (e : Nat × Gauge) : Offer where
  subject := .gauge e.1
  fits := true
  title := "New interest gauge: " ++ (b.types.get? e.2.type).elim "" ActivityType.name
  body := "Someone's gauging interest at " ++ (b.places.get? e.2.place).elim "" Place.name ++ " (" ++
    windowLabel e.2.window ++ "). Add yours to help it start."
  url := "/gauges/" ++ toString e.1 ++ "/"

/-! ### The run -/

/-- `searchBudget`: the budgets after the call, and whether it allows the notice. -/
def searchBudget (budgets : KeyMap Nat Budget) (user : Nat) : KeyMap Nat Budget × Bool :=
  let live := budgets.removeIf fun _ x => decide (x.until_ ≤ b.now)
  let next : Budget := (live.get? user).elim ⟨1, b.now + env.savedSearchNotifyWindow⟩
    fun x => { x with count := x.count + 1 }
  (live.set user next, decide (next.count ≤ env.savedSearchNotifyLimit))

/-- The counters of a run, with what it has written, and whether a limit of a user has stopped it. -/
structure Sweep where
  book : Book
  scanned : Nat
  notified : Nat
  skipped : Nat
  limited : Bool

/-- The ledger entry, and the notice unless its kind is muted. -/
def recordMatch (user : Nat) (o : Offer) (w : Sweep) : Sweep :=
  let sent := !b.muted.contains (user, o.subject.kind)
  { w with
    book := { w.book with
      matches_ := w.book.matches_ ++ [(user, o.subject)]
      notices := if sent then w.book.notices ++ [⟨user, o.subject, o.title, o.body, o.url⟩]
        else w.book.notices }
    scanned := w.scanned + 1
    notified := w.notified + if sent then 1 else 0 }

/-- The loop over the rows of a query. -/
def matchOffers (user : Nat) : List Offer → Sweep → Sweep
  | [], w => w
  | o :: os, w =>
    if !o.fits then matchOffers user os w
    else if env.savedSearchMatchBatch ≤ w.scanned then w
    else
      let (budgets, allowed) := searchBudget env b w.book.budgets user
      let charged := { w with book := { w.book with budgets := budgets } }
      if !allowed then { charged with limited := true }
      -- `ON CONFLICT DO NOTHING`.
      else if charged.book.matches_.contains (user, o.subject) then matchOffers user os charged
      else matchOffers user os (recordMatch b user o charged)

def Sweep.left (w : Sweep) : Nat := env.savedSearchMatchBatch - w.scanned

/-- The activities of a search. -/
def matchActivities (search : SavedSearch) (w : Sweep) : Sweep :=
  matchOffers env b search.user ((activityPage env b w.book search (w.left env)).map
    (activityOffer env b search)) w

/-- The gauges of a search that asks for nothing else. -/
def matchGauges (search : SavedSearch) (w : Sweep) : Sweep :=
  if search.beginners || search.cost.isSome then w
  else matchOffers env b search.user ((gaugePage env b w.book search (w.left env)).map (gaugeOffer b)) w

/-- The owner may be told of what the search finds. -/
def eligible (search : SavedSearch) (a : Account) : Bool :=
  a.cohort != .unassigned && a.cohort == search.cohort && a.participates

/-- The transaction of one search. One that fails leaves no trace but the count. -/
def matchSearch (fails : Nat → Bool) (w : Sweep) (search : SavedSearch) : Sweep :=
  if env.savedSearchMatchBatch ≤ w.scanned then w
  else
    match b.users.get? search.user with
    | none => { w with skipped := w.skipped + 1 }
    | some a =>
      if fails search.id then { w with skipped := w.skipped + 1 }
      else if eligible search a then matchGauges env b search (matchActivities env b search w)
      else w

def matchSavedSearches (fails : Nat → Bool) (book : Book) : Sweep :=
  Machine.run (matchSearch env b fails) ⟨book, 0, 0, 0, false⟩ b.searches

end SocialActivities.Searches
