import SocialActivities.Feeds.Series

/-!
# `SocialActivities.Feeds.GoExpand`: `expandRule` (Go)

Instants are nanoseconds. Durations are 64-bit numbers of nanoseconds: products of durations wrap
(`wrap64`), differences of times saturate (`sub64`). A horizon has at most 4000 days, which do not wrap.

`expand_eq` says when nothing wraps or saturates: the result is then that of the integers.
-/

namespace SocialActivities.Feeds.Go

open Lib Lib.Calendar

/-- A 64-bit result. -/
def wrap64 (n : Int) : Int := (n + 2 ^ 63) % 2 ^ 64 - 2 ^ 63

/-- `Time.Sub`. -/
def sub64 (a b : Int) : Int := max (-2 ^ 63) (min (a - b) (2 ^ 63 - 1))

/-- The occurrences of a week that are not before the start. -/
def weekOccurrences (r : Rule) (start : Stamp) (days : List Nat) (week : Nat) : List Int :=
  (days.map fun day => Stamp.at dayNanos ⟨Rule.week0 start + week * r.interval * 7 + day, start.time⟩).filter
    fun x => !decide (x < start.at dayNanos)

/-- The loop over weeks from `week` on. -/
def expandWeeks (r : Rule) (start : Stamp) (w : Window Int) (days : List Nat) :
    Nat → Nat → Recorder Int → Recorder Int
  | 0, _, rec => rec
  | rounds + 1, week, rec =>
    if w.horizon < Stamp.at dayNanos ⟨Rule.week0 start + week * r.interval * 7, start.time⟩ then rec
    else
      match w.recordAll rec (weekOccurrences r start days week) with
      | (rec, true) => expandWeeks r start w days rounds (week + 1) rec
      | (rec, false) => rec

/-- The loop over months. -/
def expandMonths (r : Rule) (start : Stamp) (w : Window Int) : Recorder Int :=
  (w.recordAll ⟨0, []⟩ ((List.range maxRounds).map fun i =>
    Stamp.at dayNanos ⟨addMonths start.day (i * r.interval), start.time⟩)).1

/-- The duration of a step of days or weeks. -/
def stepOf (r : Rule) : Int :=
  let step := wrap64 (wrap64 (dayNanos : Int) * r.interval)
  if r.pattern = .weekly then wrap64 (step * 7) else step

/-- The loop over steps, which starts near the floor. -/
def expandSteps (r : Rule) (start : Stamp) (w : Window Int) : Recorder Int :=
  let step := stepOf r
  let value := start.at dayNanos
  let skipped := if value < w.floor then Int.tdiv (sub64 w.floor value) step else 0
  if 0 < skipped then
    let value := value + wrap64 (step * skipped)
    if w.count.any (fun c => decide (c ≤ skipped.toNat)) then ⟨skipped.toNat, []⟩
    else (w.recordAll ⟨skipped.toNat, []⟩ ((List.range maxRounds).map fun (i : Nat) => value + i * step)).1
  else (w.recordAll ⟨0, []⟩ ((List.range maxRounds).map fun (i : Nat) => value + i * step)).1

/-- The occurrences of a rule in the window. -/
def expand (r : Rule) (start : Stamp) (w : Window Int) : List Int :=
  match r.pattern with
  | .weekdays on => (expandWeeks r start w on.days maxRounds 0 ⟨0, []⟩).out
  | .monthly => (expandMonths r start w).out
  | _ => (expandSteps r start w).out

/-- `expandRule`. A rule that is not supported gives the start. -/
def expandRule (u : Unicode) (start : Stamp) (rule : Text) (now : Int) (days : Nat) : List Int :=
  match readRule u start rule with
  | none => [start.at dayNanos]
  | some r => expand r start (r.window dayNanos now days)

/-- The days of `ExpandRule`, which expands the rules of a feed. -/
def feedDays : Nat := 90

def expandRuleWithHorizon (u : Unicode) (start : Stamp) (rule : Text) (now : Int) (days : Nat) :
    Option (List Int) :=
  if days < 1 ∨ 4000 < days then none else some (expandRule u start rule now days)

/-! ### Where nothing wraps -/

theorem wrap64_eq {n : Int} (h : -2 ^ 63 ≤ n) (hlt : n < 2 ^ 63) : wrap64 n = n := by
  unfold wrap64
  omega

theorem expandWeeks_out (r : Rule) (start : Stamp) (w : Window Int) (on : Weekdays) (rounds week : Nat)
    (rec : Recorder Int) :
    (expandWeeks r start w on.days rounds week rec).out =
      (w.recordAll rec ((List.range rounds).flatMap fun i => r.weekOf dayNanos start on (week + i))).1.out := by
  induction rounds generalizing week rec with
  | zero => rfl
  | succ rounds ih =>
    have hweek : weekOccurrences r start on.days week = r.weekOf dayNanos start on week := by
      simp only [weekOccurrences, Rule.weekOf, Nat.mul_comm 7]
    rw [expandWeeks, Rule.weeks_succ]
    split
    · next hlate =>
      rw [Nat.mul_comm _ 7] at hlate
      rw [← Rule.weeks_succ, Rule.weeks_after_horizon hlate]
    · rw [hweek, Window.recordAll_append]
      cases hweek : w.recordAll rec (r.weekOf dayNanos start on week) with
      | mk rec go =>
        cases go with
        | true => exact ih (week + 1) rec
        | false => rfl

/-- A rule and a start whose durations fit in 64 bits: 15250 weeks and 2^63 nanoseconds, that is 292 years. -/
def Fits (r : Rule) (start : Stamp) (w : Window Int) : Prop :=
  match r.pattern with
  | .daily => w.floor - start.at dayNanos < 2 ^ 63
  | .weekly => r.interval ≤ 15250 ∧ w.floor - start.at dayNanos < 2 ^ 63
  | _ => True

theorem dayNanos_eq : (dayNanos : Int) = 86400000000000 := rfl

theorem wrap64_days {n : Nat} (h : n ≤ maxInterval) :
    wrap64 (wrap64 (dayNanos : Int) * n) = 86400000000000 * n := by
  unfold maxInterval at h
  rw [dayNanos_eq, wrap64_eq (n := 86400000000000) (by omega) (by omega)]
  exact wrap64_eq (by omega) (by omega)

variable {r : Rule}

theorem stepOf_eq (hinterval : r.interval ≤ maxInterval)
    (hweekly : r.pattern = .weekly → r.interval ≤ 15250)
    (hweekdays : ∀ on, r.pattern ≠ .weekdays on) : stepOf r = r.step dayNanos := by
  unfold stepOf Rule.step
  rw [wrap64_days hinterval, dayNanos_eq]
  cases hpattern : r.pattern with
  | weekly =>
    have hfits := hweekly hpattern
    rw [if_pos rfl, wrap64_eq (by omega) (by omega)]
    push_cast
    omega
  | daily | monthly => exact Int.mul_comm _ _
  | weekdays on => exact absurd hpattern (hweekdays on)

theorem expandSteps_out {start : Stamp} {w : Window Int} (hstep : stepOf r = r.step dayNanos)
    (hspan : w.floor - start.at dayNanos < 2 ^ 63) :
    (expandSteps r start w).out =
      (w.recordAll ⟨r.skipped dayNanos start w, []⟩ ((List.range maxRounds).map fun i =>
        r.afterSteps dayNanos start (r.skipped dayNanos start w + i))).1.out := by
  have hticks : 0 < dayNanos := by decide
  have hpos := Rule.step_pos (r := r) hticks
  unfold expandSteps
  dsimp only
  rw [hstep]
  by_cases hbefore : start.at dayNanos < w.floor
  · have hsub : sub64 w.floor (start.at dayNanos) = w.floor - start.at dayNanos := by
      unfold sub64
      omega
    have hskipped := Rule.skipped_eq (r := r) hticks hbefore.le
    have hdiv : Int.tdiv (w.floor - start.at dayNanos) (r.step dayNanos) =
        (r.skipped dayNanos start w : Nat) := by
      rw [Int.tdiv_eq_ediv_of_nonneg (by omega), hskipped]
    rw [if_pos hbefore, hsub, hdiv, Int.toNat_natCast]
    by_cases hsome : (0 : Int) < (r.skipped dayNanos start w : Nat)
    · rw [if_pos hsome]
      split
      · next hcount => exact (Window.out_of_counted hcount _).symm
      · have hle : ((r.skipped dayNanos start w : Nat) : Int) * r.step dayNanos ≤
            w.floor - start.at dayNanos := by
          rw [hskipped]
          exact Int.ediv_mul_le _ (ne_of_gt hpos)
        have hnonneg := Int.mul_nonneg hsome.le hpos.le
        have hmul : wrap64 (r.step dayNanos * (r.skipped dayNanos start w : Nat)) =
            (r.skipped dayNanos start w : Nat) * r.step dayNanos := by
          rw [Int.mul_comm]
          exact wrap64_eq (by omega) (by omega)
        rw [hmul]
        simp only [Rule.afterSteps, Int.natCast_add, Int.add_mul, Int.add_assoc]
    · have hzero : r.skipped dayNanos start w = 0 := by omega
      rw [if_neg hsome, hzero]
      simp only [Rule.afterSteps, Nat.zero_add]
  · rw [if_neg hbefore, if_neg (lt_irrefl _), Rule.skipped_of_ge hticks (not_lt.mp hbefore)]
    simp only [Rule.afterSteps, Nat.zero_add]

theorem expand_eq {start : Stamp} {w : Window Int} (hinterval : r.interval ≤ maxInterval)
    (hfits : Fits r start w) : expand r start w = r.expand dayNanos start w := by
  unfold Fits at hfits
  unfold expand Rule.expand
  cases hpattern : r.pattern with
  | daily =>
    simp only [hpattern] at hfits ⊢
    exact expandSteps_out (stepOf_eq hinterval (by simp [hpattern]) (by simp [hpattern])) hfits
  | weekly =>
    simp only [hpattern] at hfits ⊢
    exact expandSteps_out (stepOf_eq hinterval (fun _ => hfits.1) (by simp [hpattern])) hfits.2
  | weekdays => simp only [expandWeeks_out, Nat.zero_add]
  | monthly =>
    have hmonths : r.afterMonths dayNanos start =
        fun k => Stamp.at dayNanos ⟨addMonths start.day (k * r.interval), start.time⟩ := rfl
    simp only [expandMonths, hmonths]

end SocialActivities.Feeds.Go
