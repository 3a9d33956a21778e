import SocialActivities.Lib.Transitions
import SocialActivities.Social.Series

/-!
# `SocialActivities.Social.Recurrence`: the slots of a series in a zone with changing offsets

`AdvanceSlot` and `_advance_slot` move a slot by the local clock: a week, two weeks, or to the anchor
day of the next month, clamped to its length. Then they look for the instant that shows this local
time. `Series.lean` leaves that search to the zone; here the zone is a list of offset changes, and
the search is that of the library which each server uses.

A local time in a gap is never shown, so the slot moves to another time of the day, and the slots
after it stay there. In a fold the two libraries take different passes in a zone east of Greenwich.
`slots_of_clear` is what holds of every run that meets neither (`ClearStep`).
-/

namespace SocialActivities.Social

open Lib.Calendar (monthStart monthLength monthOf addMonth yearStart)
open Lib.Transitions (Zone day)
open Lib.Transitions.Zone (Clear ClearMidnight)

/-- The day of a local time. -/
def dayOf (w : Int) : Nat := (w / day).toNat

/-- A local time on another day. -/
def onDayOf (d : Nat) (w : Int) : Int := d * day + w % day

/-- The day of the month. -/
def dayOfMonth (d : Nat) : Nat := d - monthStart (monthOf d) + 1

/-! ### The two servers -/

/-- The month's length as `AdvanceSlot` finds it: the day that the midnight of its last day falls
on. `k` is the month before. -/
def Go.lastDay (z : Zone) (k : Nat) : Nat :=
  dayOfMonth (dayOf (z.wall (z.resolveTwice ((monthStart (k + 2) - 1 : Nat) * day))))

def Go.advanceSlot (z : Zone) (cadence : Cadence) (anchor : Nat) (value : Int) : Int :=
  let w := z.wall value
  match cadence with
  | .weekly => z.resolveTwice (onDayOf (dayOf w + 7) w)
  | .biweekly => z.resolveTwice (onDayOf (dayOf w + 14) w)
  | .monthly =>
    let k := monthOf (dayOf w)
    let last := Go.lastDay z k
    let anchor := if anchor < 1 then dayOfMonth (dayOf w) else anchor
    z.resolveTwice (onDayOf (monthStart (k + 1) + min anchor last - 1) w)

/-- Where the dates of `datetime` end: the year 10000. -/
def Py.maxWall : Int := yearStart 9999 * day

/-- `make_aware` of a date that `datetime` has. -/
def Py.makeAware (z : Zone) (fold : Bool) (w : Int) : Option Int :=
  if w < Py.maxWall then some (z.resolveFold fold w) else none

/-- `_advance_slot`. Adding a `timedelta` forgets the fold of the slot, and `replace` keeps it. -/
def Py.advanceSlot (z : Zone) (cadence : Cadence) (anchor : Nat) (startsAt : Int) : Option Int :=
  let w := z.wall startsAt
  match cadence with
  | .weekly => Py.makeAware z false (w + 7 * day)
  | .biweekly => Py.makeAware z false (w + 14 * day)
  | .monthly => Py.makeAware z (z.foldAt startsAt) (onDayOf (addMonth anchor (dayOf w)) w)

/-- The slots of a series from its first one on. -/
def Go.slots (z : Zone) (cadence : Cadence) (anchor : Nat) (first : Int) : Nat → Int
  | 0 => first
  | n + 1 => Go.advanceSlot z cadence anchor (Go.slots z cadence anchor first n)

def Py.slots (z : Zone) (cadence : Cadence) (anchor : Nat) (first : Int) : Nat → Option Int
  | 0 => some first
  | n + 1 => (Py.slots z cadence anchor first n).bind (Py.advanceSlot z cadence anchor)

/-! ### Steps without trouble -/

/-- The local time of the next slot. -/
def nextWall (cadence : Cadence) (anchor : Nat) (w : Int) : Int :=
  match cadence with
  | .weekly => w + 7 * day
  | .biweekly => w + 14 * day
  | .monthly => onDayOf (addMonth anchor (dayOf w)) w

/-- The slot after this one is at a local time that both servers resolve alike, before the year
10000, and the month's length can be read off the midnight of its last day. -/
structure ClearStep (z : Zone) (cadence : Cadence) (anchor : Nat) (t : Int) : Prop where
  clear : Clear z t (nextWall cadence anchor (z.wall t)) (cadence == .monthly && z.foldAt t)
  year : nextWall cadence anchor (z.wall t) < Py.maxWall
  midnight : cadence = .monthly →
    ClearMidnight z ((monthStart (monthOf (dayOf (z.wall t)) + 2) - 1 : Nat) * day)

section

variable {z : Zone} {cadence : Cadence} {anchor d n : Nat} {t w : Int}

/-! ### Local times on other days -/

theorem dayOf_onDayOf (d : Nat) (w : Int) : dayOf (onDayOf d w) = d := by
  have hpos : 0 < day := by decide
  have hmod := Int.emod_nonneg w (Int.ne_of_gt hpos)
  have hlt := Int.emod_lt_of_pos w hpos
  rw [dayOf, onDayOf, Int.add_comm, Int.add_mul_ediv_right _ _ (Int.ne_of_gt hpos),
    Int.ediv_eq_zero_of_lt hmod hlt, Int.zero_add, Int.toNat_natCast]

theorem onDayOf_mod (d : Nat) (w : Int) : onDayOf d w % day = w % day := by
  rw [onDayOf, Int.add_comm, Int.add_mul_emod_self_right, Int.emod_emod_of_dvd w (Int.dvd_refl day)]

theorem onDayOf_add (hw : 0 ≤ w) (d : Nat) : onDayOf (dayOf w + d) w = w + d * day := by
  have hpos : 0 < day := by decide
  have hdiv := Int.ediv_nonneg hw (Int.le_of_lt hpos)
  have hsplit := Int.emod_add_mul_ediv w day
  rw [onDayOf, dayOf, Int.natCast_add, Int.toNat_of_nonneg hdiv, Int.add_mul, Int.mul_comm (w / day)]
  omega

theorem onDayOf_le (hw : 0 ≤ w) (hd : dayOf w + 1 ≤ d) : w + day ≤ onDayOf d w := by
  obtain ⟨e, rfl⟩ := Nat.exists_eq_add_of_le hd
  rw [Nat.add_assoc, onDayOf_add hw]
  have hpos : 0 < day := by decide
  have hmul : 0 ≤ (e : Int) * day := Int.mul_nonneg (Int.natCast_nonneg e) (Int.le_of_lt hpos)
  rw [Int.natCast_add, Int.add_mul]
  omega

theorem nextWall_day (hw : 0 ≤ w) :
    w + day ≤ nextWall cadence anchor w ∧ nextWall cadence anchor w % day = w % day := by
  have hpos : 0 < day := by decide
  cases cadence with
  | weekly => exact ⟨by simp only [nextWall]; omega, Int.add_mul_emod_self_right ..⟩
  | biweekly => exact ⟨by simp only [nextWall]; omega, Int.add_mul_emod_self_right ..⟩
  | monthly =>
    exact ⟨onDayOf_le hw (SocialActivities.Lib.Calendar.lt_addMonth anchor (dayOf w)),
      onDayOf_mod _ _⟩

/-! ### Months -/

theorem addMonth_eq (hanchor : 1 ≤ anchor) (d : Nat) :
    addMonth anchor d = monthStart (monthOf d + 1) + (min anchor (monthLength (monthOf d + 1)) - 1) := by
  simp only [addMonth]
  rw [if_neg (by omega)]

theorem monthOf_addMonth (anchor d : Nat) : monthOf (addMonth anchor d) = monthOf d + 1 := by
  have hlength := SocialActivities.Lib.Calendar.le_monthLength (monthOf d + 1)
  refine SocialActivities.Lib.Calendar.monthOf_eq (Nat.le_add_right _ _) ?_
  rw [SocialActivities.Lib.Calendar.monthStart_succ]
  simp only [addMonth]
  omega

theorem lastDay_eq {k : Nat} (h : ClearMidnight z ((monthStart (k + 2) - 1 : Nat) * day)) :
    Go.lastDay z k = monthLength (k + 1) := by
  have hpos : 0 < day := by decide
  obtain ⟨hlow, hhigh⟩ := Zone.wall_of_clearMidnight h
  have hlength := SocialActivities.Lib.Calendar.le_monthLength (k + 1)
  have hnext : monthStart (k + 2) = monthStart (k + 1) + monthLength (k + 1) :=
    SocialActivities.Lib.Calendar.monthStart_succ (k + 1)
  have hday : dayOf (z.wall (z.resolveTwice ((monthStart (k + 2) - 1 : Nat) * day))) =
      monthStart (k + 2) - 1 := by
    rw [dayOf, Int.ediv_eq_iff_of_pos hpos |>.mpr ⟨hlow, hhigh⟩]
    exact Int.toNat_natCast _
  have hmonth : monthOf (monthStart (k + 2) - 1) = k + 1 :=
    SocialActivities.Lib.Calendar.monthOf_eq (by omega) (show _ < monthStart (k + 2) by omega)
  rw [Go.lastDay, hday, dayOfMonth, hmonth]
  omega

/-! ### One step -/

theorem Go.advanceSlot_eq (hw : 0 ≤ z.wall t) (h : ClearStep z cadence anchor t) :
    Go.advanceSlot z cadence anchor t = z.resolveTwice (nextWall cadence anchor (z.wall t)) := by
  cases cadence with
  | weekly | biweekly => simp only [Go.advanceSlot, nextWall, onDayOf_add hw, Int.cast_ofNat_Int]
  | monthly =>
    have hlength := SocialActivities.Lib.Calendar.le_monthLength (monthOf (dayOf (z.wall t)) + 1)
    simp only [Go.advanceSlot, nextWall, lastDay_eq (h.midnight rfl), addMonth]
    refine congrArg _ (congrArg (onDayOf · _) ?_)
    have hfirst : dayOfMonth (dayOf (z.wall t)) =
        dayOf (z.wall t) - monthStart (monthOf (dayOf (z.wall t))) + 1 := rfl
    rw [hfirst]
    split <;> omega

theorem step_of_clear (hw : 0 ≤ z.wall t) (h : ClearStep z cadence anchor t) :
    Py.advanceSlot z cadence anchor t = some (Go.advanceSlot z cadence anchor t) ∧
      z.wall (Go.advanceSlot z cadence anchor t) = nextWall cadence anchor (z.wall t) ∧
      t < Go.advanceSlot z cadence anchor t := by
  obtain ⟨hsame, hshown, hlater⟩ := Zone.resolve_of_clear h.clear
  rw [Go.advanceSlot_eq hw h]
  refine ⟨?_, hshown, hlater (nextWall_day hw).1⟩
  rw [← hsame]
  have hyear := h.year
  cases cadence with
  | weekly | biweekly | monthly => exact if_pos hyear

/-! ### Runs -/

/-- The days of the slots: `k` steps after the day `d`. -/
structure OnSchedule (cadence : Cadence) (anchor d k d' : Nat) : Prop where
  weekly : cadence = .weekly → d' = d + 7 * k
  biweekly : cadence = .biweekly → d' = d + 14 * k
  month : cadence = .monthly → monthOf d' = monthOf d + k
  monthDay : cadence = .monthly → 1 ≤ anchor → 1 ≤ k →
    d' = monthStart (monthOf d + k) + (min anchor (monthLength (monthOf d + k)) - 1)

theorem OnSchedule.zero (cadence : Cadence) (anchor d : Nat) : OnSchedule cadence anchor d 0 d :=
  ⟨fun _ => rfl, fun _ => rfl, fun _ => rfl, fun _ _ h => absurd h (by omega)⟩

theorem OnSchedule.succ {k d' : Nat} (hw : 0 ≤ w) (h : OnSchedule cadence anchor d k (dayOf w))
    (hd' : d' = dayOf (nextWall cadence anchor w)) : OnSchedule cadence anchor d (k + 1) d' := by
  cases cadence with
  | weekly =>
    have hday : d' = dayOf w + 7 := by
      rw [hd', nextWall, show (7 : Int) * day = (7 : Nat) * day from rfl, ← onDayOf_add hw,
        dayOf_onDayOf]
    refine ⟨fun _ => ?_, fun h => (by cases h), fun h => (by cases h), fun h => (by cases h)⟩
    have hprev := h.weekly rfl
    omega
  | biweekly =>
    have hday : d' = dayOf w + 14 := by
      rw [hd', nextWall, show (14 : Int) * day = (14 : Nat) * day from rfl, ← onDayOf_add hw,
        dayOf_onDayOf]
    refine ⟨fun h => (by cases h), fun _ => ?_, fun h => (by cases h), fun h => (by cases h)⟩
    have hprev := h.biweekly rfl
    omega
  | monthly =>
    have hday : d' = addMonth anchor (dayOf w) := by rw [hd', nextWall, dayOf_onDayOf]
    have hmonth := h.month rfl
    refine ⟨fun h => (by cases h), fun h => (by cases h), fun _ => ?_, fun _ hanchor _ => ?_⟩
    · rw [hday, monthOf_addMonth, hmonth, Nat.add_assoc]
    · rw [hday, addMonth_eq hanchor, hmonth, Nat.add_assoc]

end

/-- In a run of steps without trouble both servers have the same slots. Each slot is later than the
one before, at the time of the day of the first one, and on the day that the schedule says. -/
theorem slots_of_clear (z : Zone) (cadence : Cadence) (anchor : Nat) (first : Int)
    (hfirst : 0 ≤ z.wall first) (n : Nat)
    (hclear : ∀ k < n, ClearStep z cadence anchor (Go.slots z cadence anchor first k)) :
    ∀ k ≤ n,
      Py.slots z cadence anchor first k = some (Go.slots z cadence anchor first k) ∧
      z.wall (Go.slots z cadence anchor first k) % day = z.wall first % day ∧
      OnSchedule cadence anchor (dayOf (z.wall first)) k
        (dayOf (z.wall (Go.slots z cadence anchor first k))) ∧
      ∀ j < k, Go.slots z cadence anchor first j < Go.slots z cadence anchor first k := by
  suffices hrun : ∀ k ≤ n, 0 ≤ z.wall (Go.slots z cadence anchor first k) ∧
      Py.slots z cadence anchor first k = some (Go.slots z cadence anchor first k) ∧
      z.wall (Go.slots z cadence anchor first k) % day = z.wall first % day ∧
      OnSchedule cadence anchor (dayOf (z.wall first)) k
        (dayOf (z.wall (Go.slots z cadence anchor first k))) ∧
      ∀ j < k, Go.slots z cadence anchor first j < Go.slots z cadence anchor first k from
    fun k hk => (hrun k hk).2
  intro k
  induction k with
  | zero => exact fun _ => ⟨hfirst, rfl, rfl, OnSchedule.zero .., fun j hj => by omega⟩
  | succ k ih =>
    intro hk
    obtain ⟨hw, hpy, htime, hschedule, hlater⟩ := ih (by omega)
    obtain ⟨hnext, hwall, hlt⟩ := step_of_clear hw (hclear k (by omega))
    obtain ⟨hday, hmod⟩ := @nextWall_day cadence anchor _ hw
    have hpos : 0 < day := by decide
    simp only [Go.slots]
    refine ⟨by omega, ?_, by rw [hwall, hmod, htime], ?_, ?_⟩
    · rw [Py.slots, hpy]
      exact hnext
    · exact hschedule.succ hw (congrArg dayOf hwall)
    · intro j hj
      rcases Nat.lt_succ_iff_lt_or_eq.mp hj with hj | rfl
      · have hbefore := hlater j hj
        omega
      · exact hlt

/-- The microseconds of an hour. -/
def hour : Int := 60 * 60 * 10 ^ 6

/-- Bucharest in 2026: an hour more from 29 March to 25 October, both at one o'clock universal
time. -/
def bucharest : Zone where
  first := 2 * hour
  transitions := [(63910342800 * 10 ^ 6, 3 * hour), (63928486800 * 10 ^ 6, 2 * hour)]
  sorted := by decide
  first_lt := by decide
  offset_lt := by decide

/-- Two weekly slots of the evening, over the change in March: 22 March 2026, 18:00. -/
theorem evening_slots_kept :
    Py.slots bucharest .weekly 22 (63909792000 * 10 ^ 6) 2 =
        some (Go.slots bucharest .weekly 22 (63909792000 * 10 ^ 6) 2) ∧
      bucharest.wall (Go.slots bucharest .weekly 22 (63909792000 * 10 ^ 6) 2) % day = 18 * hour := by
  have hclear : ∀ k < 2, ClearStep bucharest .weekly 22
      (Go.slots bucharest .weekly 22 (63909792000 * 10 ^ 6) k) := by
    intro k hk
    have hcases : k = 0 ∨ k = 1 := by omega
    rcases hcases with rfl | rfl
    · exact ⟨⟨by decide +kernel, by decide +kernel, by decide +kernel⟩, by decide +kernel,
        fun h => (by cases h)⟩
    · exact ⟨⟨by decide +kernel, by decide +kernel, by decide +kernel⟩, by decide +kernel,
        fun h => (by cases h)⟩
  obtain ⟨hsame, htime, -⟩ := slots_of_clear bucharest .weekly 22 (63909792000 * 10 ^ 6)
    (by decide +kernel) 2 hclear 2 (Nat.le_refl 2)
  exact ⟨hsame, htime.trans (by decide +kernel)⟩

/-- At half past three on a Sunday: the slot after 22 March 2026 falls into the gap and moves by an
hour, and the slot after 18 October is in the fold, where the servers take different passes. -/
theorem night_slots_move :
    (¬∀ (z : Zone) (cadence : Cadence) (anchor : Nat) (first : Int) (n : Nat),
      z.wall (Go.slots z cadence anchor first n) % day = z.wall first % day) ∧
    ¬∀ (z : Zone) (cadence : Cadence) (anchor : Nat) (first : Int) (n : Nat),
      Py.slots z cadence anchor first n = some (Go.slots z cadence anchor first n) := by
  constructor
  · intro h
    have hmarch := h bucharest .weekly 22 (63909739800 * 10 ^ 6) 1
    revert hmarch
    decide +kernel
  · intro h
    have hoctober := h bucharest .weekly 18 (63927880200 * 10 ^ 6) 1
    revert hoctober
    decide +kernel

end SocialActivities.Social
