import SocialActivities.Feeds.Series
import SocialActivities.Lib.Checked

/-!
# `SocialActivities.Feeds.PyExpand`: `_expand_rrule` (Python)

Instants are microseconds from 1 January of year 1 on. A `datetime` ends with year 9999 and a `timedelta`
has at most 999999999 days; beyond that Python raises (`Raised`). Integers have no bound.

`expand_ok` says that a result is that of the integers, `expand_returns` where there is one.
-/

namespace SocialActivities.Feeds.Py

open Lib Lib.Calendar

/-- `OverflowError`, or `ValueError` from `replace`. -/
inductive Raised where
  | outOfRange
  deriving DecidableEq

/-- The end of year 9999. -/
def endOfDates : Int := Stamp.at dayLength ⟨monthStart (9999 * 12), 0⟩

/-- The instant, if it is a `datetime`. -/
def dated (x : Int) : Except Raised Int :=
  if 0 ≤ x ∧ x < endOfDates then .ok x else .error .outOfRange

/-- The days of one week. The flag tells whether to go on. -/
def expandDays (w : Window Int) (start base : Int) : List Nat → Recorder Int → Except Raised (Recorder Int × Bool)
  | [], rec => .ok (rec, true)
  | day :: days, rec => do
    let occ ← dated (base + day * dayLength)
    if occ < start then expandDays w start base days rec
    else
      match w.record rec occ with
      | (rec, true) => expandDays w start base days rec
      | (rec, false) => .ok (rec, false)

/-- The loop over weeks from `week` on. -/
def expandWeeks (r : Rule) (start : Stamp) (w : Window Int) (days : List Nat) :
    Nat → Nat → Recorder Int → Except Raised (Recorder Int)
  | 0, _, rec => .ok rec
  | rounds + 1, week, rec => do
    let base ← dated (Stamp.at dayLength ⟨Rule.week0 start + 7 * (week * r.interval), start.time⟩)
    if w.horizon < base then .ok rec
    else
      match ← expandDays w (start.at dayLength) base days rec with
      | (rec, true) => expandWeeks r start w days rounds (week + 1) rec
      | (rec, false) => .ok rec

/-- The loop over months from `k` on. -/
def expandMonths (r : Rule) (start : Stamp) (w : Window Int) :
    Nat → Nat → Recorder Int → Except Raised (Recorder Int)
  | 0, _, rec => .ok rec
  | rounds + 1, k, rec => do
    let occ ← dated (Stamp.at dayLength ⟨addMonths start.day (k * r.interval), start.time⟩)
    match w.record rec occ with
    | (rec, true) => expandMonths r start w rounds (k + 1) rec
    | (rec, false) => .ok rec

/-- The loop over steps from `dt` on. -/
def expandFrom (w : Window Int) (step : Int) : Nat → Int → Recorder Int → Except Raised (Recorder Int)
  | 0, _, rec => .ok rec
  | rounds + 1, dt, rec =>
    match w.record rec dt with
    | (rec, true) => do
      let dt ← dated (dt + step)
      expandFrom w step rounds dt rec
    | (rec, false) => .ok rec

/-- `timedelta(weeks=interval)` or `timedelta(days=interval)`. -/
def stepOf (r : Rule) : Except Raised Int :=
  let days := if r.pattern = .weekly then 7 * r.interval else r.interval
  if days ≤ 999999999 then .ok (days * dayLength) else .error .outOfRange

/-- The loop over steps, which starts near the floor. -/
def expandSteps (r : Rule) (start : Stamp) (w : Window Int) : Except Raised (Recorder Int) := do
  let step ← stepOf r
  let dt := start.at dayLength
  let skipped := if dt < w.floor then (w.floor - dt) / step else 0
  if 0 < skipped then
    let dt ← dated (dt + step * skipped)
    if w.count.any (fun c => decide (c ≤ skipped.toNat)) then .ok ⟨skipped.toNat, []⟩
    else expandFrom w step maxRounds dt ⟨skipped.toNat, []⟩
  else expandFrom w step maxRounds dt ⟨0, []⟩

/-- The occurrences of a rule in the window. -/
def expand (r : Rule) (start : Stamp) (w : Window Int) : Except Raised (List Int) :=
  match r.pattern with
  | .weekdays on => (expandWeeks r start w on.days maxRounds 0 ⟨0, []⟩).map Recorder.out
  | .monthly => (expandMonths r start w maxRounds 0 ⟨0, []⟩).map Recorder.out
  | _ => (expandSteps r start w).map Recorder.out

/-- `_RRULE_HORIZON_DAYS`. -/
def horizonDays : Nat := 90

/-- `_expand_rrule`. A rule that is not supported gives the start. -/
def expandRule (u : Unicode) (start : Stamp) (rule : Text) (now : Int) (days : Nat) :
    Except Raised (List Int) :=
  match readRule u start rule with
  | none => .ok [start.at dayLength]
  | some r => do
    let w := r.window dayLength now days
    let _ ← dated w.floor
    let _ ← dated w.horizon
    expand r start w

/-! ### Results -/

theorem dated_ok {x y : Int} (h : dated x = .ok y) : y = x := by
  unfold dated at h
  split at h
  · exact (Except.ok.inj h).symm
  · cases h

theorem expandDays_ok {w : Window Int} {start base : Int} {days : List Nat} {rec : Recorder Int}
    {res : Recorder Int × Bool} (h : expandDays w start base days rec = .ok res) :
    res = w.recordAll rec ((days.map fun (day : Nat) => base + day * (dayLength : Int)).filter fun x =>
      !decide (x < start)) := by
  induction days generalizing rec with
  | nil => exact (Except.ok.inj h).symm
  | cons day days ih =>
    rw [expandDays, bind_eq_ok] at h
    have ⟨occ, hocc, hrest⟩ := h
    rw [dated_ok hocc] at hrest
    rw [List.map_cons, List.filter_cons]
    split at hrest
    · next hbefore =>
      rw [decide_eq_true hbefore]
      exact ih hrest
    · next hbefore =>
      rw [decide_eq_false hbefore, Bool.not_false, if_pos rfl, Window.recordAll]
      cases hrecord : w.record rec (base + day * dayLength) with
      | mk rec' go =>
        rw [hrecord] at hrest
        cases go with
        | true => exact ih hrest
        | false => exact (Except.ok.inj hrest).symm

theorem expandWeeks_ok {r : Rule} {start : Stamp} {w : Window Int} {on : Weekdays} {rounds week : Nat}
    {rec res : Recorder Int} (h : expandWeeks r start w on.days rounds week rec = .ok res) :
    res.out = (w.recordAll rec
      ((List.range rounds).flatMap fun i => r.weekOf dayLength start on (week + i))).1.out := by
  induction rounds generalizing week rec with
  | zero => exact congrArg Recorder.out (Except.ok.inj h).symm
  | succ rounds ih =>
    rw [expandWeeks, bind_eq_ok] at h
    have ⟨base, hbase, hrest⟩ := h
    rw [dated_ok hbase] at hrest
    split at hrest
    · next hlate =>
      rw [Rule.weeks_after_horizon hlate]
      exact congrArg Recorder.out (Except.ok.inj hrest).symm
    · have ⟨rec', hdays, hrest⟩ := bind_eq_ok.mp hrest
      have hweek : rec' = w.recordAll rec (r.weekOf dayLength start on week) := by
        rw [expandDays_ok hdays]
        unfold Rule.weekOf Stamp.at
        simp only [Int.natCast_add, Int.add_mul, Int.add_right_comm]
      rw [Rule.weeks_succ, Window.recordAll_append, ← hweek]
      cases hgo : rec' with
      | mk rec go =>
        rw [hgo] at hrest
        cases go with
        | true => exact ih hrest
        | false => exact congrArg Recorder.out (Except.ok.inj hrest).symm

theorem expandMonths_ok {r : Rule} {start : Stamp} {w : Window Int} {rounds k : Nat} {rec res : Recorder Int}
    (h : expandMonths r start w rounds k rec = .ok res) :
    res = (w.recordAll rec ((List.range rounds).map fun i => r.afterMonths dayLength start (k + i))).1 := by
  induction rounds generalizing k rec with
  | zero => exact (Except.ok.inj h).symm
  | succ rounds ih =>
    rw [expandMonths, bind_eq_ok] at h
    have ⟨occ, hocc, hrest⟩ := h
    rw [dated_ok hocc] at hrest
    rw [List.range_succ_eq_map, List.map_cons, List.map_map, Window.recordAll, Nat.add_zero]
    unfold Rule.afterMonths at ih ⊢
    cases hrecord : w.record rec (Stamp.at dayLength ⟨addMonths start.day (k * r.interval), start.time⟩) with
    | mk rec' go =>
      rw [hrecord] at hrest
      cases go with
      | true =>
        rw [ih hrest]
        simp only [Function.comp_def, Nat.succ_eq_add_one, Nat.add_assoc, Nat.add_comm 1]
      | false => exact (Except.ok.inj hrest).symm

theorem expandFrom_ok {w : Window Int} {step dt : Int} {rounds : Nat} {rec res : Recorder Int}
    (h : expandFrom w step rounds dt rec = .ok res) :
    res = (w.recordAll rec ((List.range rounds).map fun (i : Nat) => dt + i * step)).1 := by
  induction rounds generalizing dt rec with
  | zero => exact (Except.ok.inj h).symm
  | succ rounds ih =>
    rw [expandFrom] at h
    rw [List.range_succ_eq_map, List.map_cons, List.map_map, Window.recordAll]
    simp only [Int.natCast_zero, Int.zero_mul, Int.add_zero, Function.comp_def]
    cases hrecord : w.record rec dt with
    | mk rec' go =>
      rw [hrecord] at h
      cases go with
      | true =>
        obtain ⟨next, hnext, hrest⟩ := bind_eq_ok.mp h
        rw [ih hrest, dated_ok hnext]
        simp only [Nat.succ_eq_add_one, Int.natCast_add, Int.add_mul, Int.natCast_one, Int.one_mul,
          Int.add_assoc, Int.add_comm step]
      | false => exact (Except.ok.inj h).symm

theorem step_days (r : Rule) : r.step dayLength =
    ((if r.pattern = .weekly then 7 * r.interval else r.interval : Nat) : Int) * (dayLength : Int) := by
  unfold Rule.step
  cases r.pattern <;> rfl

theorem stepOf_ok {r : Rule} {step : Int} (h : stepOf r = .ok step) : step = r.step dayLength := by
  have hdays := step_days r
  unfold stepOf at h
  dsimp only at h
  by_cases hfits : (if r.pattern = .weekly then 7 * r.interval else r.interval) ≤ 999999999
  · rw [if_pos hfits] at h
    rw [hdays]
    exact (Except.ok.inj h).symm
  · rw [if_neg hfits] at h
    cases h

theorem expandSteps_ok {r : Rule} {start : Stamp} {w : Window Int} {res : Recorder Int}
    (h : expandSteps r start w = .ok res) :
    res.out = (w.recordAll ⟨r.skipped dayLength start w, []⟩ ((List.range maxRounds).map fun i =>
      r.afterSteps dayLength start (r.skipped dayLength start w + i))).1.out := by
  have hticks : 0 < dayLength := by decide
  unfold expandSteps at h
  have ⟨step, hstep, h⟩ := bind_eq_ok.mp h
  rw [stepOf_ok hstep] at h
  dsimp only at h
  by_cases hbefore : start.at dayLength < w.floor
  · have hskipped := Rule.skipped_eq (r := r) hticks hbefore.le
    rw [if_pos hbefore, ← hskipped, Int.toNat_natCast] at h
    split at h
    · have ⟨dt, hdt, h⟩ := bind_eq_ok.mp h
      rw [dated_ok hdt] at h
      split at h
      · next hcount =>
        rw [Window.out_of_counted hcount]
        exact congrArg Recorder.out (Except.ok.inj h).symm
      · rw [expandFrom_ok h]
        simp only [Rule.afterSteps, Int.natCast_add, Int.add_mul, Int.add_assoc, Int.mul_comm (r.step _)]
    · next hnone =>
      have hzero : r.skipped dayLength start w = 0 := by omega
      rw [expandFrom_ok h, hzero]
      simp only [Rule.afterSteps, Nat.zero_add]
  · rw [if_neg hbefore, if_neg (lt_irrefl _)] at h
    rw [expandFrom_ok h, Rule.skipped_of_ge hticks (not_lt.mp hbefore)]
    simp only [Rule.afterSteps, Nat.zero_add]

theorem expand_ok {r : Rule} {start : Stamp} {w : Window Int} {out : List Int}
    (h : expand r start w = .ok out) : out = r.expand dayLength start w := by
  have hout : ∀ {x : Except Raised (Recorder Int)}, x.map Recorder.out = .ok out →
      ∃ rec, x = .ok rec ∧ out = rec.out := by
    intro x hx
    cases x with
    | error => cases hx
    | ok rec => exact ⟨rec, rfl, (Except.ok.inj hx).symm⟩
  unfold expand at h
  unfold Rule.expand
  cases hpattern : r.pattern with
  | daily =>
    simp only [hpattern] at h ⊢
    have ⟨rec, hrec, hres⟩ := hout h
    rw [hres, expandSteps_ok hrec]
  | weekly =>
    simp only [hpattern] at h ⊢
    have ⟨rec, hrec, hres⟩ := hout h
    rw [hres, expandSteps_ok hrec]
  | weekdays =>
    simp only [hpattern] at h ⊢
    have ⟨rec, hrec, hres⟩ := hout h
    rw [hres, expandWeeks_ok hrec]
    simp only [Nat.zero_add]
  | monthly =>
    simp only [hpattern] at h ⊢
    have ⟨rec, hrec, hres⟩ := hout h
    rw [hres, expandMonths_ok hrec]
    simp only [Nat.zero_add]

/-! ### Where nothing is raised -/

theorem dated_eq {x : Int} (h : 0 ≤ x) (hlt : x < endOfDates) : dated x = .ok x := if_pos ⟨h, hlt⟩

theorem at_nonneg (s : Stamp) : 0 ≤ s.at dayLength :=
  Int.add_nonneg (Int.mul_nonneg (Int.natCast_nonneg _) (Int.natCast_nonneg _)) (Int.natCast_nonneg _)

theorem expandFrom_returns {w : Window Int} {step dt : Int} (hstep : 0 ≤ step)
    (hroom : w.horizon + step < endOfDates) (rounds : Nat) (hdt : 0 ≤ dt) (rec : Recorder Int) :
    ∃ res, expandFrom w step rounds dt rec = .ok res := by
  induction rounds generalizing dt rec with
  | zero => exact ⟨rec, rfl⟩
  | succ rounds ih =>
    rw [expandFrom]
    cases hrecord : w.record rec dt with
    | mk rec' go =>
      cases go with
      | true =>
        -- The next instant is one step after one that is not after the horizon.
        have hle := Window.le_horizon hrecord
        dsimp only
        rw [dated_eq (by omega) (by omega)]
        exact ih (by omega) rec'
      | false => exact ⟨rec', rfl⟩

theorem expandMonths_returns {r : Rule} {start : Stamp} {w : Window Int}
    (hroom : w.horizon + ((31 * r.interval : Nat) : Int) * dayLength < endOfDates) (rounds k : Nat)
    (hk : r.afterMonths dayLength start k < endOfDates) (rec : Recorder Int) :
    ∃ res, expandMonths r start w rounds k rec = .ok res := by
  induction rounds generalizing k rec with
  | zero => exact ⟨rec, rfl⟩
  | succ rounds ih =>
    rw [expandMonths, dated_eq (at_nonneg _) hk]
    show ∃ res, (match w.record rec (r.afterMonths dayLength start k) with
      | (rec, true) => expandMonths r start w rounds (k + 1) rec
      | (rec, false) => .ok rec) = .ok res
    cases hrecord : w.record rec (r.afterMonths dayLength start k) with
    | mk rec' go =>
      cases go with
      | true =>
        have hle := Window.le_horizon hrecord
        have hadd := addMonths_add_le start.day (k * r.interval) r.interval
        rw [← Nat.add_one_mul] at hadd
        have hnext : r.afterMonths dayLength start (k + 1) ≤
            r.afterMonths dayLength start k + ((31 * r.interval : Nat) : Int) * dayLength := by
          unfold Rule.afterMonths
          rw [← Rule.at_add]
          exact Rule.at_le hadd
        exact ih (k + 1) (by omega) rec'
      | false => exact ⟨rec', rfl⟩

theorem expandDays_returns {w : Window Int} {start base : Int} {days : List Nat}
    (hbase : 0 ≤ base) (hdays : ∀ day ∈ days, base + (day : Int) * dayLength < endOfDates)
    (rec : Recorder Int) : ∃ res, expandDays w start base days rec = .ok res := by
  induction days generalizing rec with
  | nil => exact ⟨(rec, true), rfl⟩
  | cons day days ih =>
    have hrest := ih fun day hday => hdays day (List.mem_cons_of_mem _ hday)
    have hnonneg : 0 ≤ (day : Int) * dayLength := Int.mul_nonneg (by omega) (by omega)
    rw [expandDays, dated_eq (by omega) (hdays day List.mem_cons_self)]
    show ∃ res, (if base + day * dayLength < start then expandDays w start base days rec
      else match w.record rec (base + day * dayLength) with
        | (rec, true) => expandDays w start base days rec
        | (rec, false) => .ok (rec, false)) = .ok res
    split
    · exact hrest rec
    · cases w.record rec (base + day * dayLength) with
      | mk rec' go =>
        cases go with
        | true => exact hrest rec'
        | false => exact ⟨(rec', false), rfl⟩

theorem expandWeeks_returns {r : Rule} {start : Stamp} {w : Window Int} {on : Weekdays}
    (hroom : w.horizon + ((7 * r.interval : Nat) : Int) * dayLength < endOfDates) (rounds week : Nat)
    (hweek : Stamp.at dayLength ⟨Rule.week0 start + 7 * (week * r.interval), start.time⟩ < endOfDates)
    (rec : Recorder Int) : ∃ res, expandWeeks r start w on.days rounds week rec = .ok res := by
  have hinterval := r.interval_pos
  induction rounds generalizing week rec with
  | zero => exact ⟨rec, rfl⟩
  | succ rounds ih =>
    rw [expandWeeks, dated_eq (at_nonneg _) hweek, ok_bind]
    split
    · exact ⟨rec, rfl⟩
    · next hhorizon =>
      have hafter : ∀ days : Nat, days ≤ 7 * r.interval →
          Stamp.at dayLength ⟨Rule.week0 start + 7 * (week * r.interval), start.time⟩ +
            (days : Int) * dayLength < endOfDates := by
        intro days hle
        have hmul : (days : Int) * dayLength ≤ ((7 * r.interval : Nat) : Int) * dayLength :=
          Int.mul_le_mul_of_nonneg_right (by omega) (by omega)
        omega
      have ⟨res, hdays⟩ := @expandDays_returns w (start.at dayLength) _ on.days
        (at_nonneg ⟨Rule.week0 start + 7 * (week * r.interval), start.time⟩)
        (fun day hday => hafter day (by have := on.lt_seven day hday; omega)) rec
      rw [hdays, ok_bind]
      cases res with
      | mk rec' go =>
        cases go with
        | true =>
          refine ih (week + 1) ?_ rec'
          rw [Nat.add_one_mul week, Nat.mul_add, ← Nat.add_assoc, Rule.at_add]
          exact hafter (7 * r.interval) (Nat.le_refl _)
        | false => exact ⟨rec', rfl⟩

theorem expandSteps_returns {r : Rule} {start : Stamp} {w : Window Int} (hfloor : w.floor < endOfDates)
    (hhorizon : 0 ≤ w.horizon) (hroom : w.horizon + r.step dayLength < endOfDates) :
    ∃ res, expandSteps r start w = .ok res := by
  have hstep : 0 < r.step dayLength := Rule.step_pos (by decide)
  have hstart := at_nonneg start
  have hstepOf : stepOf r = .ok (r.step dayLength) := by
    have hdays := step_days r
    have hend : endOfDates = 3652059 * (dayLength : Int) := by decide +kernel
    unfold stepOf
    dsimp only
    rw [hdays] at hroom ⊢
    rw [if_pos ?_]
    by_contra hlarge
    have hmul : (999999999 : Int) * dayLength ≤
        ((if r.pattern = .weekly then 7 * r.interval else r.interval : Nat) : Int) * (dayLength : Int) :=
      Int.mul_le_mul_of_nonneg_right (by omega) (by omega)
    omega
  unfold expandSteps
  rw [hstepOf, ok_bind]
  dsimp only
  by_cases hbefore : start.at dayLength < w.floor
  · rw [if_pos hbefore]
    have hle : (w.floor - start.at dayLength) / r.step dayLength * r.step dayLength ≤
        w.floor - start.at dayLength := Int.ediv_mul_le _ (ne_of_gt hstep)
    rw [Int.mul_comm] at hle
    split
    · next hsome =>
      have hnonneg := Int.mul_nonneg hstep.le hsome.le
      rw [dated_eq (by omega) (by omega), ok_bind]
      split
      · exact ⟨_, rfl⟩
      · exact expandFrom_returns hstep.le hroom _ (by omega) _
    · exact expandFrom_returns hstep.le hroom _ hstart _
  · rw [if_neg hbefore, if_neg (lt_irrefl _)]
    exact expandFrom_returns hstep.le hroom _ hstart _

theorem expand_returns {r : Rule} {start : Stamp} {w : Window Int} (hstart : start.at dayLength < endOfDates)
    (hfloor : w.floor < endOfDates) (hhorizon : 0 ≤ w.horizon)
    (hroom : w.horizon + r.span * (dayLength : Int) < endOfDates) : ∃ out, expand r start w = .ok out := by
  unfold Rule.span at hroom
  unfold expand
  cases hpattern : r.pattern with
  | daily | weekly =>
    simp only [hpattern] at hroom
    have ⟨res, hres⟩ := @expandSteps_returns r start w hfloor hhorizon (by
      simpa only [Rule.step, hpattern] using hroom)
    exact ⟨res.out, by dsimp only; rw [hres]; rfl⟩
  | weekdays on =>
    simp only [hpattern] at hroom
    have hmonday : Stamp.at dayLength ⟨Rule.week0 start + 7 * (0 * r.interval), start.time⟩ ≤
        start.at dayLength := by
      rw [Nat.zero_mul]
      exact Rule.at_le (Nat.sub_le _ _)
    have ⟨res, hres⟩ := @expandWeeks_returns r start w on hroom maxRounds 0 (by omega) ⟨0, []⟩
    exact ⟨res.out, by dsimp only; rw [hres]; rfl⟩
  | monthly =>
    simp only [hpattern] at hroom
    have hfirst : r.afterMonths dayLength start 0 = start.at dayLength := by
      unfold Rule.afterMonths
      rw [Nat.zero_mul, addMonths_zero]
    have ⟨res, hres⟩ := @expandMonths_returns r start w hroom maxRounds 0 (by omega) ⟨0, []⟩
    exact ⟨res.out, by dsimp only; rw [hres]; rfl⟩

end SocialActivities.Feeds.Py
