import SocialActivities.Lib.Calendar
import SocialActivities.Lib.NumberText

/-!
# `SocialActivities.Lib.IsoWeek`: weeks of the ISO calendar

A week runs from Monday to Sunday and belongs to the year of its Thursday, so the first days of a
year may be in the last week of the year before. Day 0, the first of January of year 1, is a
Monday.

`isoWeekText` writes the year and the week. Two days have one text exactly when they are in one
week (`isoWeekText_inj`), across the years as within one.

`LocalClock` is what the clock of a place shows: its offset may change, but it is never set back by
more than a day. So the weeks that it shows at times a day apart or more do not go back.
-/

namespace SocialActivities.Lib.Calendar

open Lib.Digits

/-- The year of a day, counted from zero: the last one that starts on it or before. -/
def yearOf (day : Nat) : Nat := Nat.findGreatest (fun y => yearStart y ≤ day) (day / 365)

theorem yearStart_yearOf_le (day : Nat) : yearStart (yearOf day) ≤ day :=
  Nat.findGreatest_spec (P := fun y => yearStart y ≤ day) (Nat.zero_le _) (Nat.zero_le day)

/-! ### The week of a day -/

/-- The Thursday of the week of a day. -/
def thursday (day : Nat) : Nat := day - day % 7 + 3

/-- The ISO year, counted from year 1. -/
def isoYear (day : Nat) : Nat := yearOf (thursday day) + 1

/-- The ISO week of the year. -/
def isoWeek (day : Nat) : Nat := (thursday day - yearStart (yearOf (thursday day))) / 7 + 1

/-- The year, `-W` and the week in two digits. -/
def isoWeekText (day : Nat) : String :=
  String.ofList ((digits (isoYear day)).map digitChar ++
    '-' :: 'W' :: (twoDigits (isoWeek day)).map digitChar)

theorem ofDigits_zero_cons (ds : List (Fin 10)) : ofDigits (0 :: ds) = ofDigits ds := rfl

theorem twoDigits_injective : Function.Injective twoDigits := by
  have hvalue : ∀ n, ofDigits (twoDigits n) = n := by
    intro n
    rw [twoDigits]
    split
    · rw [ofDigits_zero_cons, ofDigits_digits]
    · exact ofDigits_digits n
  intro m n h
  rw [← hvalue m, h, hvalue]

theorem iso_inj {d d' : Nat} : isoYear d = isoYear d' ∧ isoWeek d = isoWeek d' ↔ d / 7 = d' / 7 := by
  constructor
  · rintro ⟨hyear, hweek⟩
    have hyear' : yearOf (thursday d) = yearOf (thursday d') := Nat.succ.inj hyear
    have hstart := yearStart_yearOf_le (thursday d)
    have hstart' := yearStart_yearOf_le (thursday d')
    rw [isoWeek, isoWeek, hyear'] at hweek
    rw [hyear'] at hstart
    generalize yearStart (yearOf (thursday d')) = start at hweek hstart hstart'
    rw [thursday] at hstart hweek
    rw [thursday] at hstart' hweek
    omega
  · intro hweek
    have hthursday : thursday d = thursday d' := by
      rw [thursday, thursday]
      omega
    rw [isoYear, isoYear, isoWeek, isoWeek, hthursday]
    exact ⟨rfl, rfl⟩

theorem isoWeekText_inj {d d' : Nat} : isoWeekText d = isoWeekText d' ↔ d / 7 = d' / 7 := by
  rw [← iso_inj, isoWeekText, isoWeekText, String.ofList_inj]
  constructor
  · intro h
    have ⟨hyear, hrest⟩ := append_inj (by simp [NoDigit]) (by simp [NoDigit]) h
    have hweek := List.map_injective_iff.mpr digitChar_injective
      (List.cons.inj (List.cons.inj hrest).2).2
    exact ⟨digits_injective hyear, twoDigits_injective hweek⟩
  · rintro ⟨hyear, hweek⟩
    rw [hyear, hweek]

theorem isoWeekText_ne_empty (day : Nat) : isoWeekText day ≠ "" := by
  intro h
  have hchars := congrArg String.toList h
  rw [isoWeekText, String.toList_ofList] at hchars
  simp at hchars

-- The third of January of 2021, a Sunday.
example : isoWeekText 737792 = "2020-W53" := by decide +kernel

/-! ### Local clocks -/

/-- What the clock of a place shows at an instant. -/
structure LocalClock where
  wall : Nat → Nat
  wall_le : ∀ t t', t + dayLength ≤ t' → wall t ≤ wall t'

namespace LocalClock

/-- The day of a clock. -/
def day (clock : LocalClock) (t : Nat) : Nat := clock.wall t / dayLength

/-- The number of the week of a clock, from the first of January of year 1. -/
def week (clock : LocalClock) (t : Nat) : Nat := clock.day t / 7

theorem week_le (clock : LocalClock) {t t' : Nat} (h : t + dayLength ≤ t') :
    clock.week t ≤ clock.week t' :=
  Nat.div_le_div_right (Nat.div_le_div_right (clock.wall_le t t' h))

/-- Universal time. -/
def utc : LocalClock := ⟨id, fun _ _ h => Nat.le_trans (Nat.le_add_right _ _) h⟩

/-- The clock of a zone to the east. -/
def ofZone (z : Zone) : LocalClock where
  wall := z.wall
  wall_le t t' h := by
    have hoffset := z.offset_lt t
    rw [Zone.wall, Zone.wall]
    omega

end LocalClock

end SocialActivities.Lib.Calendar
