import Mathlib.Algebra.Order.Ring.Nat
import Mathlib.Data.Nat.Find
import Mathlib.Tactic.IntervalCases

/-!
# `SocialActivities.Lib.Calendar`: dates and wall-clock times

Days and months of the Gregorian calendar are numbered from the first of January of year 1, both
from zero. `monthOf` is the month of a day, `addMonth` the same day of the next month, clamped to
its length.

A wall-clock time is the microseconds since the start of year 1 that a local clock shows. A `Zone`
gives the offset of an instant and the instant of a wall-clock time; near a change of the offset
the two need not be inverse, so a zone promises only that its offsets are below half a day. That is
enough for `lt_shift`: a time that the local clock shows a day later, or more, is a later instant.
-/

namespace SocialActivities.Lib.Calendar

/-- The days before the year that comes `y` years after year 1. -/
def yearStart (y : Nat) : Nat := 365 * y + y / 4 - y / 100 + y / 400

/-- Is the year that comes `y` years after year 1 a leap year? -/
def isLeap (y : Nat) : Bool := ((y + 1) % 4 == 0 && (y + 1) % 100 != 0) || (y + 1) % 400 == 0

/-- The days of a common year before a month. -/
def beforeMonth : Nat → Nat
  | 0 => 0
  | 1 => 31
  | 2 => 59
  | 3 => 90
  | 4 => 120
  | 5 => 151
  | 6 => 181
  | 7 => 212
  | 8 => 243
  | 9 => 273
  | 10 => 304
  | _ => 334

/-- The days of a month of a year. -/
def lengthOf (leap : Bool) : Nat → Nat
  | 1 => if leap then 29 else 28
  | 3 => 30
  | 5 => 30
  | 8 => 30
  | 10 => 30
  | _ => 31

/-- The first day of a month. -/
def monthStart (k : Nat) : Nat :=
  yearStart (k / 12) + beforeMonth (k % 12) + if 2 ≤ k % 12 && isLeap (k / 12) then 1 else 0

/-- The days of a month. -/
def monthLength (k : Nat) : Nat := lengthOf (isLeap (k / 12)) (k % 12)

theorem yearStart_succ (y : Nat) :
    yearStart (y + 1) = yearStart y + 365 + if isLeap y then 1 else 0 := by
  have h100 : y / 100 ≤ y / 4 := Nat.div_le_div_left (by decide) (by decide)
  have h400 : 400 ∣ y + 1 → 100 ∣ y + 1 := fun h => Nat.dvd_trans (by decide) h
  have h4 : 100 ∣ y + 1 → 4 ∣ y + 1 := fun h => Nat.dvd_trans (by decide) h
  have hleap : isLeap y = true ↔ (4 ∣ y + 1 ∧ ¬100 ∣ y + 1) ∨ 400 ∣ y + 1 := by
    unfold isLeap
    simp [Nat.dvd_iff_mod_eq_zero]
  unfold yearStart
  rw [Nat.succ_div, Nat.succ_div, Nat.succ_div]
  -- A multiple of 400 is one of 100, and that one of 4.
  by_cases hfour : 4 ∣ y + 1
  · by_cases hcentury : 100 ∣ y + 1
    · by_cases hlong : 400 ∣ y + 1
      · rw [if_pos hfour, if_pos hcentury, if_pos hlong, if_pos (hleap.mpr (Or.inr hlong))]
        omega
      · rw [if_pos hfour, if_pos hcentury, if_neg hlong, if_neg fun h =>
          (hleap.mp h).elim (fun h => h.2 hcentury) hlong]
        omega
    · rw [if_pos hfour, if_neg hcentury, if_neg (mt h400 hcentury),
        if_pos (hleap.mpr (Or.inl ⟨hfour, hcentury⟩))]
      omega
  · have hcentury : ¬100 ∣ y + 1 := mt h4 hfour
    rw [if_neg hfour, if_neg hcentury, if_neg (mt h400 hcentury), if_neg fun h =>
      (hleap.mp h).elim (fun h => hfour h.1) fun h => hcentury (h400 h)]
    omega

theorem monthStart_succ (k : Nat) : monthStart (k + 1) = monthStart k + monthLength k := by
  unfold monthStart monthLength
  have hlast : k % 12 < 12 := Nat.mod_lt _ (by decide)
  by_cases hdecember : k % 12 = 11
  · -- The next month is in the next year.
    have hyear : (k + 1) / 12 = k / 12 + 1 := by omega
    have hmonth : (k + 1) % 12 = 0 := by omega
    rw [hyear, hmonth, hdecember, yearStart_succ]
    cases isLeap (k / 12) with
    | false | true => rfl
  · have hyear : (k + 1) / 12 = k / 12 := by omega
    have hmonth : (k + 1) % 12 = k % 12 + 1 := by omega
    rw [hyear, hmonth]
    generalize hm : k % 12 = m at hlast hdecember
    generalize yearStart (k / 12) = days
    cases isLeap (k / 12) with
    | false =>
      clear hm
      interval_cases m <;> simp [beforeMonth, lengthOf] at hdecember ⊢
    | true =>
      clear hm
      interval_cases m <;> simp [beforeMonth, lengthOf] at hdecember ⊢

theorem le_monthLength (k : Nat) : 28 ≤ monthLength k := by
  unfold monthLength lengthOf
  split
  · split
    · decide
    · decide
  all_goals decide

theorem monthLength_le (k : Nat) : monthLength k ≤ 31 := by
  unfold monthLength lengthOf
  split
  · split <;> decide
  all_goals decide

theorem mul_le_monthStart (k : Nat) : 28 * k ≤ monthStart k := by
  induction k with
  | zero => exact Nat.zero_le _
  | succ k ih =>
    have hlength := le_monthLength k
    rw [monthStart_succ]
    omega

theorem monthStart_le_of_le {j k : Nat} (h : j ≤ k) : monthStart j ≤ monthStart k := by
  induction h with
  | refl => exact Nat.le_refl _
  | step _ ih =>
    rw [monthStart_succ]
    exact Nat.le_trans ih (Nat.le_add_right _ _)

/-- The month of a day: the last one that starts on it or before. -/
def monthOf (day : Nat) : Nat := Nat.findGreatest (fun k => monthStart k ≤ day) (day / 28)

theorem monthStart_monthOf_le (day : Nat) : monthStart (monthOf day) ≤ day :=
  Nat.findGreatest_spec (P := fun k => monthStart k ≤ day) (Nat.zero_le _) (Nat.zero_le day)

theorem lt_monthStart_succ (day : Nat) : day < monthStart (monthOf day + 1) := by
  by_contra hge
  rw [Nat.not_lt] at hge
  -- A month that starts by `day` is within the bound of the search.
  have hbound : monthOf day + 1 ≤ day / 28 := by
    have hmul := mul_le_monthStart (monthOf day + 1)
    rw [Nat.le_div_iff_mul_le (by decide)]
    omega
  have hle : monthOf day + 1 ≤ monthOf day :=
    Nat.le_findGreatest (P := fun k => monthStart k ≤ day) hbound hge
  omega

theorem monthOf_eq {k day : Nat} (hstart : monthStart k ≤ day) (hnext : day < monthStart (k + 1)) :
    monthOf day = k := by
  have hle := monthStart_monthOf_le day
  have hlt := lt_monthStart_succ day
  rcases Nat.lt_trichotomy (monthOf day) k with hbefore | hsame | hafter
  · have hmono := @monthStart_le_of_le (monthOf day + 1) k hbefore
    omega
  · exact hsame
  · have hmono := @monthStart_le_of_le (k + 1) (monthOf day) hafter
    omega

/-- The day `anchor` of the next month, or the last one when that is shorter. An anchor of zero
stands for the day of the month that `day` is. -/
def addMonth (anchor day : Nat) : Nat :=
  let k := monthOf day
  let target := if anchor < 1 then day - monthStart k + 1 else anchor
  monthStart (k + 1) + (min target (monthLength (k + 1)) - 1)

theorem lt_addMonth (anchor day : Nat) : day < addMonth anchor day :=
  Nat.lt_of_lt_of_le (lt_monthStart_succ day) (Nat.le_add_right _ _)

/-! ### Wall-clock times and zones -/

/-- The microseconds of a day. -/
def dayLength : Nat := 24 * 60 * 60 * 10 ^ 6

/-- A wall-clock time on another day. -/
def onDay (day wall : Nat) : Nat := day * dayLength + wall % dayLength

theorem onDay_ge {day wall : Nat} (h : wall / dayLength < day) :
    wall + dayLength ≤ onDay day wall := by
  have hsplit := Nat.div_add_mod wall dayLength
  have hmul : (wall / dayLength + 1) * dayLength ≤ day * dayLength := Nat.mul_le_mul_right _ h
  rw [Nat.add_mul, Nat.one_mul, Nat.mul_comm] at hmul
  unfold onDay
  omega

/-- A time zone, all of whose offsets are to the east and below half a day. -/
structure Zone where
  /-- The offset of the local clock at an instant. -/
  offset : Nat → Nat
  /-- The instant of a wall-clock time. -/
  resolve : Nat → Nat
  offset_lt : ∀ t, 2 * offset t < dayLength
  resolve_add : ∀ wall, dayLength ≤ wall → ∃ o, 2 * o < dayLength ∧ resolve wall + o = wall

/-- The wall-clock time at an instant. -/
def Zone.wall (z : Zone) (t : Nat) : Nat := t + z.offset t

/-- The instant at which the local clock shows what `f` makes of the time it shows now. -/
def Zone.shift (z : Zone) (f : Nat → Nat) (t : Nat) : Nat := z.resolve (f (z.wall t))

theorem Zone.lt_shift (z : Zone) {f : Nat → Nat} {t : Nat}
    (hf : z.wall t + dayLength ≤ f (z.wall t)) : t < z.shift f t := by
  obtain ⟨o, ho, hresolve⟩ := z.resolve_add (f (z.wall t)) (by omega)
  have hwall : z.wall t = t + z.offset t := rfl
  unfold Zone.shift
  omega

/-- The zone of one offset: two hours, the winter time of the east of Europe. -/
def Zone.fixed : Zone where
  offset := fun _ => 2 * 60 * 60 * 10 ^ 6
  resolve := fun wall => wall - 2 * 60 * 60 * 10 ^ 6
  offset_lt := fun _ => by decide
  resolve_add := fun wall hwall => ⟨2 * 60 * 60 * 10 ^ 6, by decide, Nat.sub_add_cancel (by
    have hday : 2 * 60 * 60 * 10 ^ 6 ≤ dayLength := by decide
    omega)⟩

/-- Universal time. -/
def Zone.utc : Zone where
  offset := fun _ => 0
  resolve := fun wall => wall
  offset_lt := fun _ => by decide
  resolve_add := fun wall _ => ⟨0, by decide, Nat.add_zero wall⟩

end SocialActivities.Lib.Calendar
