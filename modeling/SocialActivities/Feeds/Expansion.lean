import SocialActivities.Feeds.GoExpand
import SocialActivities.Feeds.PyExpand

/-!
# `SocialActivities.Feeds.Expansion`: the occurrences of an event (Go and Python)

`recurrence_expanded` says what an expansion gives: the instants at which the rule repeats the start that
lie between a day before now and the horizon, in increasing order and up to 120, as `COUNT` and `UNTIL`
allow. On weekdays and by months, only the first 4000 weeks or months of the rule are looked at.

Go needs durations that fit in 64 bits (`Go.Fits`). Python raises where its dates end.
-/

namespace SocialActivities.Feeds

open Lib Lib.Calendar

/-- The result of an expansion. -/
def Expansion (r : Rule) (ticks : Nat) (start : Stamp) (now : Int) (days : Nat) (out : List Int) : Prop :=
  Expands (r.occurs ticks start) (r.window ticks now days) (r.reached ticks start) out

theorem Rule.expansion (r : Rule) {ticks : Nat} (hticks : 0 < ticks) (start : Stamp) (now : Int) (days : Nat) :
    Expansion r ticks start now days (r.expand ticks start (r.window ticks now days)) :=
  Rule.expands hticks (show 120 < maxRounds by decide)

namespace Go

theorem interval_le {u : Unicode} {start : Stamp} {rule : Text} {r : Rule}
    (h : readRule u start rule = some r) : r.interval ≤ maxInterval := by
  have ⟨pattern, _, hr⟩ := Option.map_eq_some_iff.mp h
  rw [← hr]
  exact Nat.min_le_right _ _

theorem expandRule_eq {u : Unicode} {start : Stamp} {rule : Text} {now : Int} {days : Nat} {r : Rule}
    (hr : readRule u start rule = some r) (hfits : Fits r start (r.window dayNanos now days)) :
    expandRule u start rule now days = r.expand dayNanos start (r.window dayNanos now days) := by
  unfold expandRule
  rw [hr]
  exact expand_eq (interval_le hr) hfits

end Go

namespace Py

theorem expandRule_ok {u : Unicode} {start : Stamp} {rule : Text} {now : Int} {days : Nat} {r : Rule}
    {out : List Int} (hr : readRule u start rule = some r) (h : expandRule u start rule now days = .ok out) :
    out = r.expand dayLength start (r.window dayLength now days) := by
  unfold expandRule at h
  rw [hr] at h
  have ⟨_, _, h⟩ := bind_eq_ok.mp h
  have ⟨_, _, h⟩ := bind_eq_ok.mp h
  exact expand_ok h

/-- The dates have room for the window and one interval of the rule. -/
structure Fits (r : Rule) (start : Stamp) (w : Window Int) : Prop where
  start : start.at dayLength < endOfDates
  floor : 0 ≤ w.floor
  floor_le : w.floor ≤ w.horizon
  room : w.horizon + r.span * (dayLength : Int) < endOfDates

theorem expandRule_returns {u : Unicode} {start : Stamp} {rule : Text} {now : Int} {days : Nat} {r : Rule}
    (hr : readRule u start rule = some r) (hfits : Fits r start (r.window dayLength now days)) :
    ∃ out, expandRule u start rule now days = .ok out := by
  have ⟨hstart, hfloor, hle, hroom⟩ := hfits
  have hspan : 0 ≤ r.span * (dayLength : Int) := Int.mul_nonneg (by omega) (by omega)
  unfold expandRule
  rw [hr]
  dsimp only
  rw [dated_eq hfloor (by omega), ok_bind, dated_eq (by omega) (by omega), ok_bind]
  exact expand_returns hstart (by omega) (by omega) hroom

end Py

/-- What the expansions of a rule give. -/
theorem recurrence_expanded (u : Unicode) (start : Stamp) (rule : Text) (now : Int) (days : Nat) :
    (∀ r out, Go.readRule u start rule = some r → Go.expandRuleWithHorizon u start rule now days = some out →
      Go.Fits r start (r.window dayNanos now days) → Expansion r dayNanos start now days out) ∧
    (∀ r out, Py.readRule u start rule = some r → Py.expandRule u start rule now days = .ok out →
      Expansion r dayLength start now days out) ∧
    (∀ r, Py.readRule u start rule = some r → Py.Fits r start (r.window dayLength now days) →
      ∃ out, Py.expandRule u start rule now days = .ok out) := by
  refine ⟨fun r out hr hout hfits => ?_, fun r out hr hout => ?_, fun r hr hfits => ?_⟩
  · unfold Go.expandRuleWithHorizon at hout
    split at hout
    · cases hout
    · rw [← Option.some.inj hout, Go.expandRule_eq hr hfits]
      exact r.expansion (by decide) start now days
  · rw [Py.expandRule_ok hr hout]
    exact r.expansion (by decide) start now days
  · exact Py.expandRule_returns hr hfits

/-- Every day, three times, from 1 June 2026 on. -/
def threeDays : Rule := ⟨.daily, 1, some 3, none, by decide⟩

theorem recurrence_expanded_three_days :
    Expansion threeDays dayNanos ⟨monthStart (2425 * 12 + 5), 0⟩ (monthStart (2425 * 12 + 5) * dayNanos) 90
      (Go.expandRule .ascii ⟨monthStart (2425 * 12 + 5), 0⟩ "FREQ=DAILY;COUNT=3".toList
        (monthStart (2425 * 12 + 5) * dayNanos) 90) ∧
    ∃ out, Py.expandRule .ascii ⟨monthStart (2025 * 12 + 5), 0⟩ "FREQ=DAILY;COUNT=3".toList
        (monthStart (2025 * 12 + 5) * dayLength) 90 = .ok out ∧
      Expansion threeDays dayLength ⟨monthStart (2025 * 12 + 5), 0⟩ (monthStart (2025 * 12 + 5) * dayLength) 90
        out := by
  have hpy := recurrence_expanded .ascii ⟨monthStart (2025 * 12 + 5), 0⟩ "FREQ=DAILY;COUNT=3".toList
    (monthStart (2025 * 12 + 5) * dayLength) 90
  have ⟨out, hout⟩ := hpy.2.2 threeDays (by decide +kernel)
    ⟨by decide +kernel, by decide +kernel, by decide +kernel, by decide +kernel⟩
  exact ⟨(recurrence_expanded .ascii ⟨monthStart (2425 * 12 + 5), 0⟩ "FREQ=DAILY;COUNT=3".toList
      (monthStart (2425 * 12 + 5) * dayNanos) 90).1 threeDays _ (by decide +kernel) rfl
      (show _ < _ by decide +kernel),
    out, hout, hpy.2.1 threeDays out (by decide +kernel) hout⟩

/-- Every Monday. -/
def mondays : Rule := ⟨.weekdays ⟨[0], by decide, by decide⟩, 1, none, none, by decide⟩

/-- A Monday of 1900, in the days of Go and of Python, and one of 2026. -/
def monday1900 (year1 : Nat) : Nat := monthStart ((year1 + 1899) * 12)

def monday2026 (year1 : Nat) : Nat := monday1900 year1 + 7 * 6600

/-- A series of Mondays from 1900 on is not found in 2026, where it still goes on. -/
theorem old_series_lost :
    ∃ start startPy : Stamp, icalDate "19000101T180000Z".toList = some start ∧
      parseDt .ascii "19000101T180000Z".toList = some startPy ∧
      Go.readRule .ascii start "FREQ=WEEKLY;BYDAY=MO".toList = some mondays ∧
      Py.readRule .ascii startPy "FREQ=WEEKLY;BYDAY=MO".toList = some mondays ∧
      ∃ x y : Int, mondays.occurs dayNanos start x ∧ (mondays.window dayNanos x 90).admits x = true ∧
        Go.expandRule .ascii start "FREQ=WEEKLY;BYDAY=MO".toList x 90 = [] ∧
        mondays.occurs dayLength startPy y ∧ (mondays.window dayLength y 90).admits y = true ∧
        Py.expandRule .ascii startPy "FREQ=WEEKLY;BYDAY=MO".toList y 90 = .ok [] := by
  have hgo : Go.readRule .ascii ⟨monday1900 400, 18 * 60 * 60 * 10 ^ 9⟩ "FREQ=WEEKLY;BYDAY=MO".toList =
      some mondays := by decide +kernel
  have hpy : Py.readRule .ascii ⟨monday1900 0, 18 * 60 * 60 * 10 ^ 6⟩ "FREQ=WEEKLY;BYDAY=MO".toList =
      some mondays := by decide +kernel
  refine ⟨⟨monday1900 400, 18 * 60 * 60 * 10 ^ 9⟩, ⟨monday1900 0, 18 * 60 * 60 * 10 ^ 6⟩,
    by decide +kernel, by decide +kernel, hgo, hpy,
    Stamp.at dayNanos ⟨monday2026 400, 18 * 60 * 60 * 10 ^ 9⟩,
    Stamp.at dayLength ⟨monday2026 0, 18 * 60 * 60 * 10 ^ 6⟩,
    ⟨by decide +kernel, 6600, 0, List.mem_singleton_self 0, by decide +kernel⟩, by decide +kernel, ?_,
    ⟨by decide +kernel, 6600, 0, List.mem_singleton_self 0, by decide +kernel⟩, by decide +kernel, ?_⟩
  · rw [Go.expandRule_eq hgo trivial]
    exact Rule.expand_of_old (by decide) rfl (by decide +kernel)
  · have hfits : Py.Fits mondays ⟨monday1900 0, 18 * 60 * 60 * 10 ^ 6⟩
        (mondays.window dayLength (Stamp.at dayLength ⟨monday2026 0, 18 * 60 * 60 * 10 ^ 6⟩) 90) :=
      ⟨by decide +kernel, by decide +kernel, by decide +kernel, by decide +kernel⟩
    have ⟨out, hout⟩ := Py.expandRule_returns hpy hfits
    rw [hout, Py.expandRule_ok hpy hout]
    exact congrArg Except.ok (Rule.expand_of_old (by decide) rfl (by decide +kernel))

end SocialActivities.Feeds
