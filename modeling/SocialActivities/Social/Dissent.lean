import SocialActivities.Lib.IsoWeek
import SocialActivities.Lib.Streak
import SocialActivities.Social.AppreciationRuns
import SocialActivities.Social.Rows

/-!
# `SocialActivities.Social.Dissent`: the weekly dissent of a post

The daily run also looks, once a week, at how many members see a post differently: the weekly part
of `RecomputeSentiment` of the Go server and `_recompute_dissent_window` of the Python services.
Only a post of an adult thread that is no announcement has a dissent. The marker
`post_sentiment_weekly` is stamped when the run ends; a run that ends before leaves the week due,
and the week in the footer of a post says that the post has had its turn.

Go takes the footer and the dissent of a post in one transaction, Python in two loops. Go reads the
week from the server's local clock, Python from universal time.

`dissentState_recomputeWeekly` says of both what one run does: nothing to the dissent unless the
post is evaluated (`evaluates`), and then one step of the two streaks.

The cohort of a thread is fixed when the thread is created. The streaks are `smallint` columns: a
row that exceeds them is not saved.
-/

namespace SocialActivities.Social

open Lib
open Lib.Calendar (LocalClock dayLength isoWeekText)

/-- `DissentK`, `DissentAudience`, `DissentLatch` and `DissentLapse`. -/
structure DissentSettings where
  k : Nat
  audience : Nat
  latch : Nat
  lapse : Nat

/-- `DefaultSentimentConfig`, and the defaults of the Python settings. -/
def DissentSettings.usual : DissentSettings := ⟨6, 12, 2, 2⟩

/-- What a run finds of the post. The audience is the one in `counted`. -/
structure WeeklyVisit where
  hiddenOwner : Bool
  announcement : Bool
  counted : Counted
  /-- The members who see it differently. -/
  dissents : Nat

structure DissentChanges where
  latched : Nat
  lapsed : Nat
  deriving DecidableEq

def DissentChanges.zero : DissentChanges := ⟨0, 0⟩

/-- The streaks fit their columns. -/
def Footer.fits (f : Footer) : Bool := f.hits < 2 ^ 15 && f.misses < 2 ^ 15

namespace Go

/-- The weekly part of the transaction. -/
def advance (c : DissentSettings) (f : Footer) (v : WeeklyVisit) (week : String) :
    Footer × DissentChanges :=
  let was := f.dissent
  let f := if c.k ≤ v.dissents && c.audience ≤ v.counted.audience then
      { f with hits := f.hits + 1, misses := 0 }
    else { f with misses := f.misses + 1, hits := 0 }
  let f := if c.latch ≤ f.hits then { f with dissent := true }
    else if c.lapse ≤ f.misses then { f with dissent := false }
    else f
  ({ f with week := week },
    ⟨if f.dissent && !was then 1 else 0, if was && !f.dissent then 1 else 0⟩)

/-- The body of the loop of `RecomputeSentiment`. -/
def recomputePost (c : DissentSettings) (cohort : Cohort) (weekly : Bool) (week : String)
    (today : Nat) (f : Footer) (v : WeeklyVisit) : Footer × DissentChanges :=
  if v.hiddenOwner then (f, .zero)
  else if cohort == .child || cohort != .adult && cohort != .teen then (Footer.blank, .zero)
  else
    let loaded := (appreciation f v.counted today).1
    if weekly && cohort == .adult && !v.announcement && loaded.week != week then
      let out := advance c loaded v week
      -- `saveFooter` fails, and the transaction with it.
      if out.1.fits then out else (f, .zero)
    else (loaded, .zero)

end Go

namespace Py

/-- The body of the loop of `recompute_post_sentiment`. -/
def recomputePost (cohort : Cohort) (today : Nat) (f : Footer) (v : WeeklyVisit) : Footer :=
  if v.hiddenOwner then f
  else if cohort == .child || !(cohort == .adult || cohort == .teen) then Footer.blank
  else (recomputeAppreciation f v.counted today).1

/-- The body of the loop of `_recompute_dissent_window`. -/
def recomputeDissentWindow (c : DissentSettings) (cohort : Cohort) (week : String) (f : Footer)
    (v : WeeklyVisit) : Footer × DissentChanges :=
  if v.hiddenOwner then (f, .zero)
  else if cohort != .adult || v.announcement then (f, .zero)
  else if f.week == week then (f, .zero)
  else
    let hit := c.k ≤ v.dissents && c.audience ≤ v.counted.audience
    let next := if hit then { f with hits := f.hits + 1, misses := 0 }
      else { f with misses := f.misses + 1, hits := 0 }
    let wasActive := next.dissent
    let next := if c.latch ≤ next.hits then { next with dissent := true }
      else if c.lapse ≤ next.misses then { next with dissent := false }
      else next
    let changes : DissentChanges :=
      if next.dissent && !wasActive then ⟨1, 0⟩
      else if wasActive && !next.dissent then ⟨0, 1⟩
      else .zero
    let next := { next with week := week }
    -- The changes are counted before `save`.
    if next.fits then (next, changes) else (f, changes)

end Py

/-! ### The runs -/

/-- A run as far as it concerns the post. `second` is what the run finds of the post when it takes
its dissent, if it comes to that; `first`, for Python, when it takes its appreciation. The run is
`finished` when it stamps the weekly marker. -/
structure WeeklyRun where
  now : Nat
  first : Option WeeklyVisit
  second : Option WeeklyVisit
  finished : Bool

/-- The markers `post_sentiment_daily` and `post_sentiment_weekly`, and the footer of the post. -/
structure Weekly where
  daily : Option Nat
  weekly : Option Nat
  footer : Footer

def Weekly.start : Weekly := ⟨none, none, Footer.blank⟩

/-- The clock by which a service tells the week: Go's `time.Now` is in the zone of the server,
Django's `timezone.now` is not. -/
def Service.clock (server : LocalClock) : Service → LocalClock
  | .go => server
  | .python => LocalClock.utc

variable (server : LocalClock) (c : DissentSettings) (cohort : Cohort)

/-- `isoWeek` and `_iso_week_key`. -/
def isoWeek (clock : LocalClock) (now : Nat) : String := isoWeekText (clock.day now)

/-- `weeklyDue` and `_weekly_due`. -/
def weeklyDue (clock : LocalClock) (stamp : Option Nat) (now : Nat) : Bool :=
  match stamp with
  | none => true
  | some last => isoWeek clock last != isoWeek clock now

/-- The footer after a run that has claimed the daily marker. -/
def Service.recompute (weekly : Bool) (week : String) (f : Footer) (r : WeeklyRun) :
    Service → Footer
  | .go => match r.second with
    | none => f
    | some v => (Go.recomputePost c cohort weekly week (r.now / dayLength) f v).1
  | .python =>
    let f := match r.first with
      | none => f
      | some v => Py.recomputePost cohort (r.now / dayLength) f v
    if weekly then
      match r.second with
      | none => f
      | some v => (Py.recomputeDissentWindow c cohort week f v).1
    else f

/-- `RecomputeSentiment` and `recompute_post_sentiment`. -/
def recomputeWeekly (service : Service) (s : Weekly) (r : WeeklyRun) : Weekly :=
  if claimDaily s.daily r.now then
    let clock := service.clock server
    let weekly := weeklyDue clock s.weekly r.now
    { daily := some r.now
      weekly := if weekly && r.finished then some r.now else s.weekly
      footer := service.recompute c cohort weekly (isoWeek clock r.now) s.footer r }
  else s

/-! ### What one run does to the dissent -/

/-- The columns of the dissent. -/
structure DissentState where
  streak : Streak.State
  week : String
  deriving DecidableEq

def Footer.dissentState (f : Footer) : DissentState := ⟨⟨f.dissent, f.hits, f.misses⟩, f.week⟩

/-- Are there enough who see it differently? -/
def DissentSettings.hit (v : WeeklyVisit) : Bool :=
  c.k ≤ v.dissents && c.audience ≤ v.counted.audience

/-- The dissent of a post is due at a visit. -/
def WeeklyVisit.counts (v : WeeklyVisit) (week : String) (f : Footer) : Bool :=
  !v.hiddenOwner && cohort == .adult && !v.announcement && f.week != week

/-- The streaks fit their columns after one more week. -/
def Footer.advances (f : Footer) (v : WeeklyVisit) : Bool :=
  let next := f.dissentState.streak.count (c.hit v)
  next.hits < 2 ^ 15 && next.misses < 2 ^ 15

/-- A week in which the post was evaluated: when, and whether it was a hit. -/
structure Evaluated where
  now : Nat
  hit : Bool

/-- A run evaluates the post. -/
def evaluates (service : Service) (s : Weekly) (r : WeeklyRun) : Option Evaluated :=
  let clock := service.clock server
  match r.second with
  | none => none
  | some v =>
    if claimDaily s.daily r.now && weeklyDue clock s.weekly r.now &&
        v.counts cohort (isoWeek clock r.now) s.footer && s.footer.advances c v then
      some ⟨r.now, c.hit v⟩
    else none

/-- The dissent after the post was evaluated, or not. -/
def DissentState.after (clock : LocalClock) (d : DissentState) : Option Evaluated → DissentState
  | none => d
  | some e => ⟨Streak.step c.latch c.lapse d.streak e.hit, isoWeek clock e.now⟩

/-- Only a post of an adult thread has a dissent. -/
def Footer.AdultOnly (f : Footer) : Prop :=
  cohort = .adult ∨ f.dissentState = Footer.blank.dissentState

section Visit

/-- The dissent after a visit. -/
def Footer.visited (weekly : Bool) (week : String) (f : Footer) (v : WeeklyVisit) : DissentState :=
  if weekly && v.counts cohort week f && f.advances c v then
    ⟨Streak.step c.latch c.lapse f.dissentState.streak (c.hit v), week⟩
  else f.dissentState

theorem Go.dissentState_advance (f : Footer) (v : WeeklyVisit) (week : String) :
    (Go.advance c f v week).1.dissentState =
      ⟨Streak.step c.latch c.lapse f.dissentState.streak (c.hit v), week⟩ := by
  rw [Go.advance, Footer.dissentState, Footer.dissentState, DissentSettings.hit, Streak.step,
    Streak.settle, Streak.State.count]
  cases hhit : (decide (c.k ≤ v.dissents) && decide (c.audience ≤ v.counted.audience)) with
  | true =>
    by_cases hlatch : c.latch ≤ f.hits + 1
    · simp [hlatch]
    · by_cases hlapse : c.lapse = 0
      · simp [hlatch, hlapse]
      · simp [hlatch, hlapse]
  | false =>
    by_cases hlatch : c.latch = 0
    · simp [hlatch]
    · by_cases hlapse : c.lapse ≤ f.misses + 1
      · simp [hlatch, hlapse]
      · simp [hlatch, hlapse]

theorem Go.fits_advance (f : Footer) (v : WeeklyVisit) (week : String) :
    (Go.advance c f v week).1.fits = f.advances c v := by
  have hstate := Go.dissentState_advance c f v week
  have hhits : (Go.advance c f v week).1.hits = (f.dissentState.streak.count (c.hit v)).hits :=
    congrArg (fun d => d.streak.hits) hstate
  have hmisses : (Go.advance c f v week).1.misses =
      (f.dissentState.streak.count (c.hit v)).misses :=
    congrArg (fun d => d.streak.misses) hstate
  rw [Footer.fits, Footer.advances, hhits, hmisses]

variable {f : Footer}

theorem Footer.AdultOnly.blank (h : f.AdultOnly cohort) (hcohort : cohort ≠ .adult) :
    Footer.blank.dissentState = f.dissentState :=
  (h.resolve_left hcohort).symm

theorem Go.dissentState_appreciation (f : Footer) (counted : Counted) (today : Nat) :
    (Go.appreciation f counted today).1.dissentState = f.dissentState := rfl

theorem Go.dissentState_recomputePost (weekly : Bool) (week : String) (today : Nat)
    (h : f.AdultOnly cohort) (v : WeeklyVisit) :
    (Go.recomputePost c cohort weekly week today f v).1.dissentState =
      f.visited c cohort weekly week v := by
  rw [Go.recomputePost, Footer.visited, WeeklyVisit.counts]
  cases hhidden : v.hiddenOwner with
  | true => simp
  | false =>
    cases cohort with
    | unassigned | child => simpa using h.blank _ (by decide)
    | teen => simp [Go.dissentState_appreciation]
    | adult =>
      have hfits := Go.fits_advance c (Go.appreciation f v.counted today).1 v week
      have hstate := Go.dissentState_advance c (Go.appreciation f v.counted today).1 v week
      have hweek : (Go.appreciation f v.counted today).1.week = f.week := rfl
      have hadvances : (Go.appreciation f v.counted today).1.advances c v = f.advances c v := rfl
      rw [hadvances] at hfits
      rw [Go.dissentState_appreciation] at hstate
      by_cases hdue : weekly = true ∧ v.announcement = false ∧ f.week ≠ week
      · have ⟨hweekly, hannouncement, hnew⟩ := hdue
        cases hsaved : f.advances c v with
        | true => simp [hweek, hweekly, hannouncement, hnew, hfits, hsaved, hstate]
        | false => simp [hweek, hweekly, hannouncement, hnew, hfits, hsaved]
      · have hskip : (weekly && !v.announcement && f.week != week) = false := by
          cases weekly <;> simp_all
        simp only [Bool.not_false, beq_self_eq_true, Bool.and_true, Bool.true_and, hweek,
          ← Bool.and_assoc, hskip]
        rfl

theorem Py.dissentState_recomputePost (today : Nat) (h : f.AdultOnly cohort)
    (v : WeeklyVisit) : (Py.recomputePost cohort today f v).dissentState = f.dissentState := by
  rw [Py.recomputePost]
  cases v.hiddenOwner with
  | true => rfl
  | false =>
    cases cohort with
    | unassigned | child => exact h.blank _ (by decide)
    | teen | adult => rfl

theorem Py.recomputeDissentWindow_eq (week : String) (f : Footer) (v : WeeklyVisit) :
    (Py.recomputeDissentWindow c cohort week f v).1 =
      if v.counts cohort week f && (Go.advance c f v week).1.fits then (Go.advance c f v week).1
      else f := by
  rw [Py.recomputeDissentWindow, WeeklyVisit.counts]
  cases v.hiddenOwner with
  | true => rfl
  | false =>
    cases hadult : cohort != .adult || v.announcement with
    | true =>
      have hskip : (cohort == .adult && !v.announcement) = false := by
        rw [← Bool.not_eq_true', Bool.not_and, Bool.not_not]
        exact hadult
      simp [hskip]
    | false =>
      have hturn : (cohort == .adult && !v.announcement) = true := by
        rw [← Bool.not_eq_false', Bool.not_and, Bool.not_not]
        exact hadult
      by_cases hweek : f.week = week
      · simp [hweek]
      · have hnew : (f.week == week) = false := by simp [hweek]
        simp only [hnew, hturn, bne, Bool.not_false, Bool.true_and, Bool.false_eq_true, if_false]
        exact apply_ite Prod.fst _ _ _

theorem Py.dissentState_recomputeDissentWindow (week : String) (f : Footer) (v : WeeklyVisit) :
    (Py.recomputeDissentWindow c cohort week f v).1.dissentState =
      f.visited c cohort true week v := by
  rw [Py.recomputeDissentWindow_eq, Go.fits_advance, Footer.visited, Bool.true_and]
  split
  · exact Go.dissentState_advance c f v week
  · rfl

theorem Footer.visited_congr {f' : Footer} (h : f'.dissentState = f.dissentState) (weekly : Bool)
    (week : String) (v : WeeklyVisit) :
    f'.visited c cohort weekly week v = f.visited c cohort weekly week v := by
  have hweek : f'.week = f.week := congrArg DissentState.week h
  have hcounts : v.counts cohort week f' = v.counts cohort week f := by
    rw [WeeklyVisit.counts, WeeklyVisit.counts, hweek]
  have hadvances : f'.advances c v = f.advances c v := by
    rw [Footer.advances, Footer.advances, h]
  rw [Footer.visited, Footer.visited, hcounts, hadvances, h]

theorem Service.dissentState_recompute (service : Service) (weekly : Bool) (week : String)
    (h : f.AdultOnly cohort) (r : WeeklyRun) :
    (service.recompute c cohort weekly week f r).dissentState =
      r.second.elim f.dissentState (f.visited c cohort weekly week) := by
  cases service with
  | go =>
    rw [Service.recompute]
    cases r.second with
    | none => rfl
    | some v => exact Go.dissentState_recomputePost c cohort weekly week _ h v
  | python =>
    -- The first loop leaves the dissent as it is.
    have hfirst : ∀ f', f' = (match r.first with
        | none => f
        | some v => Py.recomputePost cohort (r.now / dayLength) f v) →
        f'.dissentState = f.dissentState := by
      rintro f' rfl
      cases r.first with
      | none => rfl
      | some v => exact Py.dissentState_recomputePost cohort _ h v
    rw [Service.recompute]
    generalize (match r.first with
      | none => f
      | some v => Py.recomputePost cohort (r.now / dayLength) f v) = f' at hfirst ⊢
    have hstate := hfirst f' rfl
    cases r.second with
    | none => cases weekly <;> exact hstate
    | some v =>
      show _ = f.visited c cohort weekly week v
      rw [← Footer.visited_congr c cohort hstate]
      cases weekly with
      | true => exact Py.dissentState_recomputeDissentWindow c cohort week f' v
      | false => rfl

end Visit

variable {s : Weekly}

theorem dissentState_recomputeWeekly (service : Service)
    (h : s.footer.AdultOnly cohort) (r : WeeklyRun) :
    (recomputeWeekly server c cohort service s r).footer.dissentState =
      s.footer.dissentState.after c (service.clock server)
        (evaluates server c cohort service s r) := by
  rw [recomputeWeekly, evaluates]
  cases hclaim : claimDaily s.daily r.now with
  | false => cases r.second <;> simp [DissentState.after]
  | true =>
    simp only [if_true]
    rw [Service.dissentState_recompute c cohort service _ _ h r]
    cases r.second with
    | none => rfl
    | some =>
      simp only [Option.elim_some, Footer.visited, Bool.true_and]
      split <;> rfl

theorem adult_of_evaluates {service : Service} {r : WeeklyRun} {e : Evaluated}
    (h : evaluates server c cohort service s r = some e) : cohort = .adult := by
  rw [evaluates] at h
  cases hsecond : r.second with
  | none => simp [hsecond] at h
  | some =>
    simp only [hsecond, Option.ite_none_right_eq_some, Bool.and_eq_true, WeeklyVisit.counts] at h
    have hadult := h.1.1.2.1.1.2
    simpa using hadult

theorem adultOnly_recomputeWeekly (service : Service)
    (h : s.footer.AdultOnly cohort) (r : WeeklyRun) :
    (recomputeWeekly server c cohort service s r).footer.AdultOnly cohort := by
  by_cases hadult : cohort = .adult
  · exact Or.inl hadult
  · refine Or.inr ?_
    rw [dissentState_recomputeWeekly server c cohort service h r]
    cases hevaluates : evaluates server c cohort service s r with
    | some => exact absurd (adult_of_evaluates server c cohort hevaluates) hadult
    | none => exact h.resolve_left hadult

end SocialActivities.Social
