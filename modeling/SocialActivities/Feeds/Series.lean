import Mathlib.Data.Int.ConditionallyCompleteOrder
import SocialActivities.Feeds.Rules

/-!
# `SocialActivities.Feeds.Series`: what both expansions of a rule compute

`Rule.expand` is the expansion over the integers, where nothing overflows: a view of the first occurrences
for weekdays and months, and of those from the floor on for days and weeks.

`Rule.expands` says what its result is. Either program gives this result where its numbers suffice.
-/

namespace SocialActivities.Feeds

open Lib Lib.Calendar

namespace Rule

variable (r : Rule) (ticks : Nat) (start : Stamp)

/-- The occurrences of a week, which are not before the start. -/
def weekOf (on : Weekdays) (week : Nat) : List Int :=
  (on.days.map fun day => Stamp.at ticks ⟨week0 start + 7 * (week * r.interval) + day, start.time⟩).filter
    fun x => !decide (x < start.at ticks)

/-- The occurrence of a month. -/
def afterMonths (k : Nat) : Int := Stamp.at ticks ⟨addMonths start.day (k * r.interval), start.time⟩

/-- The length of a step of days or weeks. -/
def step : Int := (match r.pattern with | .weekly => 7 * r.interval | _ => r.interval : Nat) * (ticks : Int)

/-- The most days that an interval of the rule takes. -/
def span : Nat :=
  match r.pattern with
  | .daily => r.interval
  | .monthly => 31 * r.interval
  | _ => 7 * r.interval

/-- The occurrence after some steps of days or weeks. -/
def afterSteps (k : Nat) : Int := start.at ticks + k * r.step ticks

/-- The steps before the floor. -/
def skipped (w : Window Int) : Nat := ((w.floor - start.at ticks) / r.step ticks).toNat

/-- The expansion over the integers. -/
def expand (w : Window Int) : List Int :=
  match r.pattern with
  | .weekdays on => (w.recordAll ⟨0, []⟩ ((List.range maxRounds).flatMap (r.weekOf ticks start on))).1.out
  | .monthly => (w.recordAll ⟨0, []⟩ ((List.range maxRounds).map (r.afterMonths ticks start))).1.out
  | _ =>
    let s := r.skipped ticks start w
    (w.recordAll ⟨s, []⟩ ((List.range maxRounds).map fun i => r.afterSteps ticks start (s + i))).1.out

variable {r ticks start}

theorem step_pos (hticks : 0 < ticks) : 0 < r.step ticks := by
  have hinterval := r.interval_pos
  have hticks : (0 : Int) < ticks := by omega
  have hdays : 0 < (match r.pattern with | .weekly => 7 * r.interval | _ => r.interval : Nat) := by
    cases r.pattern <;> simp <;> omega
  exact Int.mul_pos (by omega) hticks

theorem at_add (day n time : Nat) :
    Stamp.at ticks ⟨day + n, time⟩ = Stamp.at ticks ⟨day, time⟩ + n * (ticks : Int) := by
  show ((day + n : Nat) : Int) * ticks + time = day * ticks + time + n * ticks
  rw [Int.natCast_add, Int.add_mul, Int.add_right_comm]

theorem at_lt {day day' time : Nat} (hticks : 0 < ticks) (h : day < day') :
    Stamp.at ticks ⟨day, time⟩ < Stamp.at ticks ⟨day', time⟩ := by
  have hmul : (day : Int) * ticks < day' * ticks := by
    exact Int.mul_lt_mul_of_pos_right (by omega) (by omega)
  show (day : Int) * ticks + time < day' * ticks + time
  omega

theorem at_le {day day' time : Nat} (h : day ≤ day') :
    Stamp.at ticks ⟨day, time⟩ ≤ Stamp.at ticks ⟨day', time⟩ := by
  have hmul : (day : Int) * ticks ≤ day' * ticks :=
    Int.mul_le_mul_of_nonneg_right (by omega) (by omega)
  show (day : Int) * ticks + time ≤ day' * ticks + time
  omega

theorem afterSteps_strictMono (hticks : 0 < ticks) : StrictMono (r.afterSteps ticks start) := by
  intro j k hjk
  have hmul : (j : Int) * r.step ticks < k * r.step ticks :=
    Int.mul_lt_mul_of_pos_right (by omega) (step_pos hticks)
  show start.at ticks + j * r.step ticks < start.at ticks + k * r.step ticks
  omega

theorem afterMonths_strictMono (hticks : 0 < ticks) : StrictMono (r.afterMonths ticks start) := by
  intro j k hjk
  exact at_lt hticks (addMonths_lt start.day (Nat.mul_lt_mul_of_pos_right hjk r.interval_pos))

/-! ### Steps of days or weeks -/

variable {w : Window Int}

theorem afterSteps_lt_floor (hticks : 0 < ticks) {k : Nat} (hk : k < r.skipped ticks start w) :
    r.afterSteps ticks start k < w.floor := by
  have hstep := step_pos (r := r) hticks
  have hpos : 0 < (w.floor - start.at ticks) / r.step ticks := by
    have : 0 < ((w.floor - start.at ticks) / r.step ticks).toNat := Nat.lt_of_le_of_lt (Nat.zero_le _) hk
    omega
  have hle : ((r.skipped ticks start w : Nat) : Int) * r.step ticks ≤ w.floor - start.at ticks := by
    unfold skipped
    rw [Int.toNat_of_nonneg hpos.le]
    exact Int.ediv_mul_le _ (ne_of_gt hstep)
  have hlt := @afterSteps_strictMono r ticks start hticks _ _ hk
  have hlast : r.afterSteps ticks start (r.skipped ticks start w) ≤ w.floor := by
    show start.at ticks + _ * r.step ticks ≤ w.floor
    omega
  omega

theorem floor_le_afterSteps (hticks : 0 < ticks) {k : Nat} (hk : r.skipped ticks start w < k) :
    w.floor ≤ r.afterSteps ticks start k := by
  have hstep := step_pos (r := r) hticks
  have hquot : (w.floor - start.at ticks) / r.step ticks < k := by
    have := Int.self_le_toNat ((w.floor - start.at ticks) / r.step ticks)
    unfold skipped at hk
    omega
  have hlt : w.floor - start.at ticks < k * r.step ticks := (Int.ediv_lt_iff_lt_mul hstep).mp hquot
  show w.floor ≤ start.at ticks + k * r.step ticks
  omega

theorem skipped_eq (hticks : 0 < ticks) (h : start.at ticks ≤ w.floor) :
    ((r.skipped ticks start w : Nat) : Int) = (w.floor - start.at ticks) / r.step ticks :=
  Int.toNat_of_nonneg (Int.ediv_nonneg (by omega) (step_pos hticks).le)

theorem skipped_of_ge (hticks : 0 < ticks) (h : w.floor ≤ start.at ticks) :
    r.skipped ticks start w = 0 := by
  have hstep := step_pos (r := r) hticks
  have hquot : (w.floor - start.at ticks) / r.step ticks < 1 := by
    rw [Int.ediv_lt_iff_lt_mul hstep]
    omega
  unfold skipped
  omega

theorem expands_steps (hticks : 0 < ticks) (hcap : w.cap < maxRounds) :
    Expands (fun x => ∃ k, x = r.afterSteps ticks start k) w (fun _ => True)
      (w.recordAll ⟨r.skipped ticks start w, []⟩
        ((List.range maxRounds).map fun i => r.afterSteps ticks start (r.skipped ticks start w + i))).1.out :=
  expands_of_steps (afterSteps_strictMono hticks) (fun _ hk => afterSteps_lt_floor hticks hk)
    (fun _ hk => floor_le_afterSteps hticks hk) hcap

/-! ### Weeks -/

variable {x : Int} {on : Weekdays}

theorem mem_weekOf {week : Nat} :
    x ∈ r.weekOf ticks start on week ↔ start.at ticks ≤ x ∧ ∃ day ∈ on.days,
      x = Stamp.at ticks ⟨week0 start + 7 * (week * r.interval) + day, start.time⟩ := by
  unfold weekOf
  rw [List.mem_filter, List.mem_map, and_comm, Bool.not_eq_true', decide_eq_false_iff_not, not_lt]
  refine and_congr_right fun _ => exists_congr fun day => and_congr_right fun _ => eq_comm

theorem weekOf_pairwise (hticks : 0 < ticks) (on : Weekdays) (week : Nat) :
    (r.weekOf ticks start on week).Pairwise (· < ·) := by
  unfold weekOf
  exact (List.pairwise_map.mpr (on.increasing.imp fun h =>
    at_lt hticks (Nat.add_lt_add_left h _))).filter _

theorem weekOf_lt (hticks : 0 < ticks) {m n : Nat} (hmn : m < n) {y : Int}
    (hx : x ∈ r.weekOf ticks start on m) (hy : y ∈ r.weekOf ticks start on n) : x < y := by
  have ⟨_, day, hday, hxday⟩ := mem_weekOf.mp hx
  have ⟨_, day', _, hyday⟩ := mem_weekOf.mp hy
  have hseven := on.lt_seven day hday
  have hweek : (m + 1) * r.interval ≤ n * r.interval := Nat.mul_le_mul_right _ hmn
  rw [Nat.add_mul] at hweek
  have hinterval := r.interval_pos
  rw [hxday, hyday]
  exact at_lt hticks (by omega)

theorem mem_weeks {x : Int} (hx : ∃ week, x ∈ r.weekOf ticks start on week) {n : Nat}
    (hlt : x < Stamp.at ticks ⟨week0 start + 7 * (n * r.interval), start.time⟩) :
    x ∈ (List.range n).flatMap (r.weekOf ticks start on) := by
  have ⟨week, hweek⟩ := hx
  refine List.mem_flatMap.mpr ⟨week, List.mem_range.mpr ?_, hweek⟩
  have ⟨_, day, _, hday⟩ := mem_weekOf.mp hweek
  by_contra hge
  have hmul : n * r.interval ≤ week * r.interval := Nat.mul_le_mul_right _ (by omega)
  have hle : Stamp.at ticks ⟨week0 start + 7 * (n * r.interval), start.time⟩ ≤ x := by
    rw [hday]
    exact at_le (by omega)
  omega

theorem weeks_succ (on : Weekdays) (week rounds : Nat) :
    (List.range (rounds + 1)).flatMap (fun i => r.weekOf ticks start on (week + i)) =
      r.weekOf ticks start on week ++
        (List.range rounds).flatMap fun i => r.weekOf ticks start on (week + 1 + i) := by
  rw [List.range_succ_eq_map, List.flatMap_cons, List.flatMap_map, Nat.add_zero]
  simp only [Nat.succ_eq_add_one, Nat.add_assoc, Nat.add_comm 1]

/-- No week has an occurrence before its Monday, so that nothing is in view from a week after the horizon
on. -/
theorem weeks_after_horizon {week : Nat}
    (hlate : w.horizon < Stamp.at ticks ⟨week0 start + 7 * (week * r.interval), start.time⟩) (rounds : Nat)
    (rec : Recorder Int) :
    (w.recordAll rec ((List.range rounds).flatMap fun i => r.weekOf ticks start on (week + i))).1.out =
      rec.out := by
  refine Window.out_of_horizon_lt fun x hx => hlate.trans_le ?_
  have ⟨i, _, hi⟩ := List.mem_flatMap.mp hx
  have ⟨_, day, _, hday⟩ := mem_weekOf.mp hi
  have hmul : week * r.interval ≤ (week + i) * r.interval := Nat.mul_le_mul_right _ (Nat.le_add_right _ _)
  rw [hday]
  exact at_le (by omega)

/-! ### All patterns -/

theorem occurs_weekdays (hpattern : r.pattern = .weekdays on) :
    r.occurs ticks start = fun x => ∃ week, x ∈ r.weekOf ticks start on week := by
  funext x
  unfold occurs
  rw [hpattern]
  refine propext ⟨fun ⟨hx, week, hday⟩ => ⟨week, mem_weekOf.mpr ⟨hx, hday⟩⟩, fun ⟨week, hx⟩ => ?_⟩
  have ⟨hle, hday⟩ := mem_weekOf.mp hx
  exact ⟨hle, week, hday⟩

theorem expands (hticks : 0 < ticks) (hcap : w.cap < maxRounds) :
    Expands (r.occurs ticks start) w (r.reached ticks start) (r.expand ticks start w) := by
  cases hpattern : r.pattern with
  | daily =>
    have hoccurs : r.occurs ticks start = fun x => ∃ k, x = r.afterSteps ticks start k := by
      funext x
      unfold occurs afterSteps step Stamp.at
      simp only [hpattern]
      refine propext (exists_congr fun k => ?_)
      push_cast
      rw [add_mul, mul_assoc, add_right_comm]
    unfold expand reached
    simp only [hpattern]
    rw [hoccurs]
    exact expands_steps hticks hcap
  | weekly =>
    have hoccurs : r.occurs ticks start = fun x => ∃ k, x = r.afterSteps ticks start k := by
      funext x
      unfold occurs afterSteps step Stamp.at
      simp only [hpattern]
      refine propext (exists_congr fun k => ?_)
      push_cast
      rw [add_mul, add_right_comm, mul_left_comm, mul_assoc (k : Int), mul_assoc (7 : Int)]
    unfold expand reached
    simp only [hpattern]
    rw [hoccurs]
    exact expands_steps hticks hcap
  | weekdays on =>
    unfold expand reached
    simp only [hpattern]
    rw [occurs_weekdays hpattern]
    have hinit := initial_of_blocks (@weekOf_pairwise r ticks start hticks on)
      (fun m n hmn x hx y hy => weekOf_lt hticks hmn hx hy) maxRounds
    exact (expands_of_initial hinit).mono fun x hx hlt => mem_weeks hx hlt
  | monthly =>
    have hoccurs : r.occurs ticks start = fun x => ∃ k, x = r.afterMonths ticks start k := by
      funext x
      unfold occurs
      rw [hpattern]
      rfl
    unfold expand reached
    simp only [hpattern]
    rw [hoccurs]
    have hinit := initial_of_strictMono (@afterMonths_strictMono r ticks start hticks) maxRounds
    refine (expands_of_initial hinit).mono fun x hx hlt => ?_
    have ⟨k, hk⟩ := hx
    rw [hk] at hlt ⊢
    have hk := (afterMonths_strictMono hticks).lt_iff_lt.mp hlt
    exact List.mem_map_of_mem (List.mem_range.mpr hk)

theorem expand_of_old (hticks : 0 < ticks) (hpattern : r.pattern = .weekdays on)

    (hold : Stamp.at ticks ⟨week0 start + 7 * (maxRounds * r.interval), start.time⟩ ≤ w.floor) :
    r.expand ticks start w = [] := by
  have hinit := initial_of_blocks (@weekOf_pairwise r ticks start hticks on)
    (fun m n hmn x hx y hy => weekOf_lt hticks hmn hx hy) maxRounds
  refine List.eq_nil_iff_forall_not_mem.mpr fun x hx => ?_
  unfold expand at hx
  simp only [hpattern] at hx
  have ⟨_, hadmits, _⟩ := (expands_of_initial hinit).sound x hx
  have ⟨week, hweek, hday⟩ := List.mem_flatMap.mp (Window.mem_of_mem_recordAll hinit.sorted hx)
  have ⟨_, day, hon, hday⟩ := mem_weekOf.mp hday
  have hseven := on.lt_seven day hon
  have hinterval := r.interval_pos
  have hmul : (week + 1) * r.interval ≤ maxRounds * r.interval :=
    Nat.mul_le_mul_right _ (List.mem_range.mp hweek)
  rw [Nat.add_one_mul] at hmul
  have hlt : x < Stamp.at ticks ⟨week0 start + 7 * (maxRounds * r.interval), start.time⟩ := by
    rw [hday]
    exact at_lt hticks (by omega)
  unfold Window.admits at hadmits
  rw [Bool.and_eq_true, Bool.and_eq_true, decide_eq_true_eq] at hadmits
  omega

end Rule

end SocialActivities.Feeds
