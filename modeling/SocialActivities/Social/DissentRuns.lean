import SocialActivities.Social.Dissent

/-!
# `SocialActivities.Social.DissentRuns`: the weekly dissent over every schedule

A schedule is a list of runs of the job at any times: several in a week, runs that end before they
come to the post or before they stamp the week, weeks without a run.

By the clock of the service a post is evaluated at most once a week, its dissent is latched by the
last of enough evaluated weeks in a row that were hits and lapses by the last of enough that were
misses (`follows`, `turns`). That holds of both services and in every zone.

Both leave the same dissent exactly if at every run that claims the daily marker the server's clock
is in the same ISO week as universal time (`weekly_dissent_iff`). Otherwise Go takes the Sunday
evening of universal time for the Monday of the next week and evaluates a post for the second time
(`local_monday`).
-/

namespace SocialActivities.Social

open Lib
open Lib.Calendar (LocalClock Zone dayLength isoWeekText isoWeekText_inj
  isoWeekText_ne_empty)
open Lib.Machine (run emitted)
open Lib.Streak (Ends)

variable (server : LocalClock) (c : DissentSettings) (cohort : Cohort) (service : Service)

/-- The state after a schedule. -/
def weeklyAfter (rs : List WeeklyRun) : Weekly :=
  run (recomputeWeekly server c cohort service) Weekly.start rs

/-- The evaluations of the post in a schedule. -/
def evaluations (rs : List WeeklyRun) : List Evaluated :=
  emitted (recomputeWeekly server c cohort service) (evaluates server c cohort service)
    Weekly.start rs

/-- The dissent after a schedule. -/
def dissentAfter (rs : List WeeklyRun) : DissentState :=
  (weeklyAfter server c cohort service rs).footer.dissentState

/-- The times of the runs that claim the daily marker. -/
def claims : Option Nat → List Nat → List Nat
  | _, [] => []
  | last, now :: times =>
    if claimDaily last now then now :: claims (some now) times else claims last times

/-- How a run after a schedule turns the dissent: not, if it does not evaluate the post; and else it
latches at the last of enough hits in a row and lapses at the last of enough misses in a row. The
two exclude each other unless a setting is zero; hits come first then. -/
structure Turns (rs : List WeeklyRun) (r : WeeklyRun) : Prop where
  idle : evaluates server c cohort service (weeklyAfter server c cohort service rs) r = none →
    dissentAfter server c cohort service (rs ++ [r]) = dissentAfter server c cohort service rs
  latched : (evaluates server c cohort service (weeklyAfter server c cohort service rs) r).isSome →
    (dissentAfter server c cohort service rs).streak.active = false →
    ((dissentAfter server c cohort service (rs ++ [r])).streak.active = true ↔
      Ends c.latch true ((evaluations server c cohort service (rs ++ [r])).map Evaluated.hit))
  lapsed : (evaluates server c cohort service (weeklyAfter server c cohort service rs) r).isSome →
    (dissentAfter server c cohort service rs).streak.active = true →
    ((dissentAfter server c cohort service (rs ++ [r])).streak.active = false ↔
      Ends c.lapse false ((evaluations server c cohort service (rs ++ [r])).map Evaluated.hit) ∧
      ¬Ends c.latch true ((evaluations server c cohort service (rs ++ [r])).map Evaluated.hit))
  apart : 0 < c.latch → 0 < c.lapse →
    Ends c.latch true ((evaluations server c cohort service (rs ++ [r])).map Evaluated.hit) →
    ¬Ends c.lapse false ((evaluations server c cohort service (rs ++ [r])).map Evaluated.hit)

/-- At most one evaluation in each ISO week of universal time, every turn of the latch as it should
be, and one dissent whichever service runs, in every state of a schedule. -/
structure DissentRight (rs : List WeeklyRun) : Prop where
  once : ∀ service,
    ((evaluations server c cohort service rs).map fun e => LocalClock.utc.week e.now).Nodup
  turns : ∀ service before r after, rs = before ++ r :: after → Turns server c cohort service before r
  agree : ∀ before after, rs = before ++ after →
    dissentAfter server c cohort .go before = dissentAfter server c cohort .python before

/-! ### One service -/

theorem claimDaily_some {last now : Nat} : claimDaily (some last) now = true ↔ last + dayLength ≤ now :=
  decide_eq_true_iff

theorem isoWeek_inj {clock clock' : LocalClock} {t t' : Nat} :
    isoWeek clock t = isoWeek clock' t' ↔ clock.week t = clock'.week t' :=
  isoWeekText_inj

section Service

variable {server c cohort service}

theorem evaluates_some {s : Weekly} {r : WeeklyRun} {e : Evaluated}
    (h : evaluates server c cohort service s r = some e) :
    e.now = r.now ∧ claimDaily s.daily r.now = true ∧
      s.footer.week ≠ isoWeek (service.clock server) r.now := by
  rw [evaluates] at h
  cases hsecond : r.second with
  | none => simp [hsecond] at h
  | some =>
    simp only [hsecond, Option.ite_none_right_eq_some, Bool.and_eq_true, WeeklyVisit.counts] at h
    obtain ⟨⟨⟨⟨hclaim, _⟩, _, hweek⟩, _⟩, he⟩ := h
    refine ⟨?_, hclaim, by simpa using hweek⟩
    rw [← Option.some.inj he]

theorem daily_recomputeWeekly (s : Weekly) (r : WeeklyRun) :
    (recomputeWeekly server c cohort service s r).daily =
      if claimDaily s.daily r.now then some r.now else s.daily := by
  rw [recomputeWeekly]
  split <;> rfl

end Service

/-- What the state says about the evaluations so far. -/
structure Follows (s : Weekly) (out : List Evaluated) : Prop where
  adult : s.footer.AdultOnly cohort
  claimed : ∀ e ∈ out, ∃ last, s.daily = some last ∧ e.now ≤ last
  weeks : out.Pairwise fun e e' =>
    (service.clock server).week e.now < (service.clock server).week e'.now
  week : s.footer.week = (out.getLast?.map fun e => isoWeek (service.clock server) e.now).getD ""
  streak : s.footer.dissentState.streak =
    run (Streak.step c.latch c.lapse) Streak.State.off (out.map Evaluated.hit)

theorem follows_start : Follows server c cohort service Weekly.start [] where
  adult := Or.inr rfl
  claimed e h := by cases h
  weeks := List.Pairwise.nil
  week := rfl
  streak := rfl

section Follows

variable {server c cohort service} {s : Weekly} {out : List Evaluated}

theorem Follows.week_le (h : Follows server c cohort service s out) {r : WeeklyRun}
    (hclaim : claimDaily s.daily r.now = true) {e : Evaluated} (he : e ∈ out) :
    (service.clock server).week e.now ≤ (service.clock server).week r.now := by
  have ⟨last, hlast, hle⟩ := h.claimed e he
  rw [hlast, claimDaily_some] at hclaim
  exact (service.clock server).week_le (by omega)

theorem Follows.week_lt (h : Follows server c cohort service s out) {r : WeeklyRun} {e : Evaluated}
    (he : evaluates server c cohort service s r = some e) :
    ∀ e' ∈ out, (service.clock server).week e'.now < (service.clock server).week e.now := by
  have ⟨hnow, hclaim, hnew⟩ := evaluates_some he
  intro e' he'
  rw [hnow]
  rcases List.eq_nil_or_concat out with hnil | ⟨before, last, hconcat⟩
  · rw [hnil] at he'
    cases he'
  · -- The last one is in another week, by the key in the footer.
    have hweek := h.week
    rw [hconcat, List.concat_eq_append, List.getLast?_concat] at hweek
    rw [hweek] at hnew
    have hlast : (service.clock server).week last.now < (service.clock server).week r.now := by
      refine Nat.lt_of_le_of_ne (h.week_le hclaim ?_) (mt isoWeek_inj.mpr hnew)
      rw [hconcat, List.concat_eq_append]
      simp
    have hweeks := h.weeks
    rw [hconcat, List.concat_eq_append] at hweeks he'
    rcases List.mem_append.mp he' with hbefore | hend
    · have hlt := (List.pairwise_append.mp hweeks).2.2 e' hbefore last List.mem_cons_self
      exact Nat.lt_trans hlt hlast
    · rw [List.mem_singleton.mp hend]
      exact hlast

theorem Follows.step (h : Follows server c cohort service s out) (r : WeeklyRun) :
    Follows server c cohort service (recomputeWeekly server c cohort service s r)
      (out ++ (evaluates server c cohort service s r).toList) := by
  have hstate := dissentState_recomputeWeekly server c cohort service h.adult r
  have hadult := adultOnly_recomputeWeekly server c cohort service h.adult r
  have hdaily := @daily_recomputeWeekly server c cohort service s r
  -- The times of the evaluations so far stay behind the marker.
  have hclaimed : ∀ e ∈ out, ∃ last,
      (recomputeWeekly server c cohort service s r).daily = some last ∧ e.now ≤ last := by
    intro e he
    have ⟨last, hlast, hle⟩ := h.claimed e he
    rw [hdaily, hlast]
    cases hclaim : claimDaily (some last) r.now with
    | true =>
      rw [claimDaily_some] at hclaim
      exact ⟨r.now, rfl, by omega⟩
    | false => exact ⟨last, rfl, hle⟩
  cases hevaluates : evaluates server c cohort service s r with
  | none =>
    rw [hevaluates] at hstate
    rw [Option.toList_none, List.append_nil]
    exact ⟨hadult, hclaimed, h.weeks, (congrArg DissentState.week hstate).trans h.week,
      (congrArg DissentState.streak hstate).trans h.streak⟩
  | some =>
    have ⟨hnow, hclaim, _⟩ := evaluates_some hevaluates
    rw [hevaluates] at hstate
    rw [Option.toList_some]
    refine ⟨hadult, ?_, ?_, ?_, ?_⟩
    · rw [List.forall_mem_append, List.forall_mem_singleton]
      rw [hclaim, if_pos rfl] at hdaily
      exact ⟨hclaimed, r.now, hdaily, Nat.le_of_eq hnow⟩
    · rw [List.pairwise_append]
      refine ⟨h.weeks, List.pairwise_singleton _ _, fun e' he' e'' he'' => ?_⟩
      rw [List.mem_singleton.mp he'']
      exact h.week_lt hevaluates e' he'
    · rw [List.getLast?_concat]
      exact congrArg DissentState.week hstate
    · rw [List.map_append, List.map_singleton, Machine.run_concat, ← h.streak]
      exact congrArg DissentState.streak hstate

end Follows

theorem follows (rs : List WeeklyRun) :
    Follows server c cohort service (weeklyAfter server c cohort service rs)
      (evaluations server c cohort service rs) :=
  Machine.emitted_invariant (fun _ _ _ => True) (fun _ r _ h _ => h.step r)
    (follows_start server c cohort service) fun _ _ _ _ => trivial

theorem dissentAfter_concat (rs : List WeeklyRun) (r : WeeklyRun) :
    dissentAfter server c cohort service (rs ++ [r]) =
      (dissentAfter server c cohort service rs).after c (service.clock server)
        (evaluates server c cohort service (weeklyAfter server c cohort service rs) r) := by
  rw [dissentAfter, weeklyAfter, Machine.run_concat]
  exact dissentState_recomputeWeekly server c cohort service
    (follows server c cohort service rs).adult r

theorem evaluations_concat (rs : List WeeklyRun) (r : WeeklyRun) :
    evaluations server c cohort service (rs ++ [r]) = evaluations server c cohort service rs ++
      (evaluates server c cohort service (weeklyAfter server c cohort service rs) r).toList :=
  Machine.emitted_concat _ _ _ rs r

theorem turns (rs : List WeeklyRun) (r : WeeklyRun) : Turns server c cohort service rs r := by
  have hstreak : (dissentAfter server c cohort service rs).streak =
      run (Streak.step c.latch c.lapse) Streak.State.off
        ((evaluations server c cohort service rs).map Evaluated.hit) :=
    (follows server c cohort service rs).streak
  have hnext : (dissentAfter server c cohort service (rs ++ [r])).streak =
      run (Streak.step c.latch c.lapse) Streak.State.off
        ((evaluations server c cohort service (rs ++ [r])).map Evaluated.hit) :=
    (follows server c cohort service (rs ++ [r])).streak
  refine ⟨fun hnone => ?_, fun hsome hoff => ?_, fun hsome hon => ?_, Ends.exclusive⟩
  · rw [dissentAfter_concat, hnone]
    rfl
  · have ⟨e, he⟩ := Option.isSome_iff_exists.mp hsome
    rw [hstreak] at hoff
    rw [hnext, evaluations_concat, he, Option.toList_some, List.map_append, List.map_singleton]
    exact Streak.set_iff hoff
  · have ⟨e, he⟩ := Option.isSome_iff_exists.mp hsome
    rw [hstreak] at hon
    rw [hnext, evaluations_concat, he, Option.toList_some, List.map_append, List.map_singleton]
    exact Streak.reset_iff hon

/-! ### The two services -/

/-- The server's clock is in the ISO week of universal time. -/
def SameWeek (t : Nat) : Prop := server.week t = LocalClock.utc.week t

/-- Both services have the same markers and the same dissent. -/
structure Alike (s t : Weekly) : Prop where
  daily : s.daily = t.daily
  weekly : s.weekly = t.weekly
  dissent : s.footer.dissentState = t.footer.dissentState
  left : s.footer.AdultOnly cohort
  right : t.footer.AdultOnly cohort
  stamped : ∀ stamp, s.weekly = some stamp → SameWeek server stamp

section Alike

variable {server cohort} {s t : Weekly}

theorem alike_start : Alike server cohort Weekly.start Weekly.start :=
  ⟨rfl, rfl, rfl, Or.inr rfl, Or.inr rfl, fun _ h => (by cases h)⟩

theorem Alike.due (h : Alike server cohort s t) {now : Nat} (hnow : SameWeek server now) :
    weeklyDue server s.weekly now = weeklyDue LocalClock.utc t.weekly now := by
  rw [← h.weekly]
  cases hweekly : s.weekly with
  | none => rfl
  | some stamp =>
    have hstamp : isoWeek server stamp = isoWeek LocalClock.utc stamp :=
      isoWeek_inj.mpr (h.stamped stamp hweekly)
    have hkey : isoWeek server now = isoWeek LocalClock.utc now := isoWeek_inj.mpr hnow
    rw [weeklyDue, weeklyDue, hstamp, hkey]

theorem Alike.evaluates (h : Alike server cohort s t) {r : WeeklyRun}
    (hr : claimDaily s.daily r.now = true → SameWeek server r.now) :
    evaluates server c cohort .go s r = evaluates server c cohort .python t r := by
  rw [Social.evaluates, Social.evaluates, ← h.daily]
  cases hclaim : claimDaily s.daily r.now with
  | false => simp
  | true =>
    have hkey : isoWeek server r.now = isoWeek LocalClock.utc r.now := isoWeek_inj.mpr (hr hclaim)
    have hweek : s.footer.week = t.footer.week := congrArg DissentState.week h.dissent
    have hdue := h.due (hr hclaim)
    have hadvances : ∀ v, s.footer.advances c v = t.footer.advances c v := by
      intro v
      rw [Footer.advances, Footer.advances, h.dissent]
    simp only [Service.clock, hdue, hkey, hadvances, WeeklyVisit.counts, hweek]
    cases r.second <;> rfl

theorem Alike.step (h : Alike server cohort s t) {r : WeeklyRun}
    (hr : claimDaily s.daily r.now = true → SameWeek server r.now) :
    Alike server cohort (recomputeWeekly server c cohort .go s r)
      (recomputeWeekly server c cohort .python t r) := by
  have hgo := dissentState_recomputeWeekly server c cohort .go h.left r
  have hpython := dissentState_recomputeWeekly server c cohort .python h.right r
  have hevaluates := h.evaluates c hr
  refine ⟨?_, ?_, ?_, adultOnly_recomputeWeekly server c cohort .go h.left r,
    adultOnly_recomputeWeekly server c cohort .python h.right r, ?_⟩
  · rw [daily_recomputeWeekly, daily_recomputeWeekly, h.daily]
  · rw [recomputeWeekly, recomputeWeekly, ← h.daily]
    cases hclaim : claimDaily s.daily r.now with
    | false => exact h.weekly
    | true =>
      show (if weeklyDue server s.weekly r.now && r.finished then some r.now else s.weekly) =
        if weeklyDue LocalClock.utc t.weekly r.now && r.finished then some r.now else t.weekly
      rw [h.due (hr hclaim), h.weekly]
  · rw [hgo, hpython, hevaluates, h.dissent]
    cases he : Social.evaluates server c cohort .python t r with
    | none => rfl
    | some e =>
      obtain ⟨hnow, hclaim, _⟩ := evaluates_some (hevaluates.trans he)
      have hkey : isoWeek server e.now = isoWeek LocalClock.utc e.now := by
        rw [hnow]
        exact isoWeek_inj.mpr (hr hclaim)
      simp only [DissentState.after, Service.clock, hkey]
  · intro stamp hstamp
    rw [recomputeWeekly] at hstamp
    cases hclaim : claimDaily s.daily r.now with
    | false =>
      rw [hclaim] at hstamp
      exact h.stamped stamp hstamp
    | true =>
      simp only [hclaim, if_true] at hstamp
      split at hstamp
      · rw [← Option.some.inj hstamp]
        exact hr hclaim
      · exact h.stamped stamp hstamp

theorem Alike.run (h : Alike server cohort s t) {rs : List WeeklyRun}
    (hrs : ∀ now ∈ claims s.daily (rs.map WeeklyRun.now), SameWeek server now) :
    Alike server cohort (run (recomputeWeekly server c cohort .go) s rs)
      (run (recomputeWeekly server c cohort .python) t rs) := by
  induction rs generalizing s t with
  | nil => exact h
  | cons r rs ih =>
    have hdaily := @daily_recomputeWeekly server c cohort .go s r
    rw [List.map_cons, claims] at hrs
    cases hclaim : claimDaily s.daily r.now with
    | true =>
      rw [if_pos hclaim, List.forall_mem_cons] at hrs
      refine ih (h.step c fun _ => hrs.1) ?_
      rw [hdaily, if_pos hclaim]
      exact hrs.2
    | false =>
      rw [hclaim, if_neg Bool.false_ne_true] at hrs
      refine ih (h.step c fun h' => absurd (hclaim.symm.trans h') Bool.false_ne_true) ?_
      rw [hdaily, hclaim, if_neg Bool.false_ne_true]
      exact hrs

end Alike

theorem mem_claims_of_mem_emitted {s : Weekly} {rs : List WeeklyRun} {e : Evaluated}
    (he : e ∈ emitted (recomputeWeekly server c cohort service)
      (evaluates server c cohort service) s rs) :
    e.now ∈ claims s.daily (rs.map WeeklyRun.now) := by
  induction rs generalizing s with
  | nil => cases he
  | cons r rs ih =>
    have hdaily := @daily_recomputeWeekly server c cohort service s r
    rw [← List.singleton_append, Machine.emitted_append, Machine.emitted_singleton,
      List.mem_append, Option.mem_toList] at he
    rw [List.map_cons, claims]
    rcases he with hfirst | hrest
    · have ⟨hnow, hclaim, _⟩ := evaluates_some hfirst
      rw [if_pos hclaim, hnow]
      exact List.mem_cons_self
    · have hmem := ih hrest
      rw [Machine.run_cons, Machine.run_nil, hdaily] at hmem
      by_cases hclaim : claimDaily s.daily r.now = true
      · rw [if_pos hclaim] at hmem ⊢
        exact List.mem_cons_of_mem _ hmem
      · rw [if_neg hclaim] at hmem ⊢
        exact hmem

theorem mem_claims_append {last : Option Nat} {times after : List Nat} {t : Nat}
    (h : t ∈ claims last times) : t ∈ claims last (times ++ after) := by
  induction times generalizing last with
  | nil => cases h
  | cons now times ih =>
    rw [List.cons_append, claims]
    rw [claims] at h
    by_cases hclaim : claimDaily last now = true
    · rw [if_pos hclaim] at h ⊢
      rcases List.mem_cons.mp h with hhead | htail
      · exact List.mem_cons.mpr (Or.inl hhead)
      · exact List.mem_cons_of_mem _ (ih htail)
    · rw [if_neg hclaim] at h ⊢
      exact ih h

theorem dissentRight_of_sameWeek {rs : List WeeklyRun}
    (h : ∀ t ∈ claims none (rs.map WeeklyRun.now), SameWeek server t) :
    DissentRight server c cohort rs where
  once service := by
    have hweeks := (follows server c cohort service rs).weeks
    rw [List.nodup_iff_pairwise_ne, List.pairwise_map]
    refine hweeks.imp_of_mem fun he he' hlt heq => ?_
    have hsame := h _ (mem_claims_of_mem_emitted server c cohort service he)
    have hsame' := h _ (mem_claims_of_mem_emitted server c cohort service he')
    cases service with
    | go =>
      rw [SameWeek] at hsame hsame'
      rw [← hsame, ← hsame'] at heq
      exact absurd heq (Nat.ne_of_lt hlt)
    | python => exact absurd heq (Nat.ne_of_lt hlt)
  turns service before r _ _ := turns server c cohort service before r
  agree before after heq := by
    refine (Alike.run c alike_start fun t ht => h t ?_).dissent
    rw [heq, List.map_append]
    exact mem_claims_append ht

/-! ### Where the weeks differ -/

/-- Enough members of a thread see the post differently. -/
def visitOf (c : DissentSettings) : WeeklyVisit :=
  ⟨false, false, ⟨fun _ => 0, 0, c.audience, 0⟩, c.k⟩

/-- A run that does not end, and comes to the post only at `now`. -/
def runAt (now t : Nat) : WeeklyRun := ⟨t, none, if t = now then some (visitOf c) else none, false⟩

section Differ

variable {server c service} {s : Weekly} {now t : Nat}

theorem recomputeWeekly_runAt (ht : t ≠ now) :
    recomputeWeekly server c .adult service s (runAt c now t) =
      if claimDaily s.daily t then { s with daily := some t } else s := by
  rw [recomputeWeekly, runAt, if_neg ht]
  cases claimDaily s.daily t with
  | false => rfl
  | true =>
    simp only [if_true, Bool.and_false, Bool.false_eq_true, if_false]
    cases service with
    | go => rfl
    | python => simp [Service.recompute]

theorem recomputeWeekly_unclaimed {r : WeeklyRun} (h : claimDaily s.daily r.now = false) :
    recomputeWeekly server c cohort service s r = s := by
  rw [recomputeWeekly, h]
  rfl

theorem evaluates_runAt (hblank : s.footer = Footer.blank) (hweekly : s.weekly = none)
    (hclaim : claimDaily s.daily now = true) :
    evaluates server c .adult service s (runAt c now now) = some ⟨now, true⟩ := by
  have hnew : (Footer.blank.week != isoWeek (service.clock server) now) = true :=
    bne_iff_ne.mpr (isoWeekText_ne_empty _).symm
  rw [evaluates, runAt, if_pos rfl, hblank, hweekly, hclaim]
  simp [weeklyDue, WeeklyVisit.counts, visitOf, DissentSettings.hit, Footer.advances,
    Streak.State.count, Footer.dissentState, hnew]
  decide

theorem dissent_late {times : List Nat} {last : Nat} (hlast : s.daily = some last)
    (hnow : now ≤ last) :
    (run (recomputeWeekly server c .adult service) s (times.map (runAt c now))).footer =
      s.footer := by
  induction times generalizing s last with
  | nil => rfl
  | cons t times ih =>
    rw [List.map_cons, Machine.run_cons]
    cases hclaim : claimDaily s.daily t with
    | false =>
      rw [recomputeWeekly_unclaimed .adult hclaim]
      exact ih hlast hnow
    | true =>
      have hlater : last + dayLength ≤ t := by
        rw [hlast, claimDaily_some] at hclaim
        exact hclaim
      have hday : 0 < dayLength := by decide
      rw [recomputeWeekly_runAt (by omega), if_pos hclaim]
      exact ih rfl (by omega)

theorem dissentState_runAt {times : List Nat} (hblank : s.footer = Footer.blank)
    (hweekly : s.weekly = none) (hnow : now ∈ claims s.daily times) :
    (run (recomputeWeekly server c .adult service) s
        (times.map (runAt c now))).footer.dissentState =
      Footer.blank.dissentState.after c (service.clock server) (some ⟨now, true⟩) := by
  induction times generalizing s with
  | nil => cases hnow
  | cons t times ih =>
    rw [List.map_cons, Machine.run_cons]
    rw [claims] at hnow
    cases hclaim : claimDaily s.daily t with
    | false =>
      rw [hclaim, if_neg Bool.false_ne_true] at hnow
      rw [recomputeWeekly_unclaimed .adult hclaim]
      exact ih hblank hweekly hnow
    | true =>
      rw [if_pos hclaim] at hnow
      by_cases ht : t = now
      · subst ht
        have hdaily := @daily_recomputeWeekly server c .adult service s (runAt c t t)
        have hadult : s.footer.AdultOnly .adult := Or.inl rfl
        have hclaim' : claimDaily s.daily (runAt c t t).now = true := hclaim
        rw [if_pos hclaim'] at hdaily
        rw [dissent_late hdaily (Nat.le_refl t),
          dissentState_recomputeWeekly server c .adult service hadult,
          evaluates_runAt hblank hweekly hclaim, hblank]
      · have hnext : now ∈ claims (some t) times := by
          rcases List.mem_cons.mp hnow with heq | hmem
          · exact absurd heq.symm ht
          · exact hmem
        rw [recomputeWeekly_runAt ht, if_pos hclaim]
        exact ih hblank hweekly hnext

end Differ

/-- Over every schedule at some times the claim holds exactly if the runs that claim the marker are
all in the same week by both clocks. -/
theorem weekly_dissent_iff (times : List Nat) :
    (∀ t ∈ claims none times, SameWeek server t) ↔
      ∀ c cohort rs, rs.map WeeklyRun.now = times → DissentRight server c cohort rs := by
  constructor
  · rintro h c cohort rs rfl
    exact dissentRight_of_sameWeek server c cohort h
  · intro h t ht
    have htimes : (times.map (runAt DissentSettings.usual t)).map WeeklyRun.now = times := by
      rw [List.map_map]
      exact List.map_id times
    have hagree := (h DissentSettings.usual .adult _ htimes).agree _ [] (List.append_nil _).symm
    have hgo : dissentAfter server DissentSettings.usual .adult .go
        (times.map (runAt DissentSettings.usual t)) = _ := dissentState_runAt rfl rfl ht
    have hpython : dissentAfter server DissentSettings.usual .adult .python
        (times.map (runAt DissentSettings.usual t)) = _ := dissentState_runAt rfl rfl ht
    rw [hgo, hpython] at hagree
    exact isoWeek_inj.mp (congrArg DissentState.week hagree)

/-- A clock two hours east of universal time. -/
def eastern : LocalClock := LocalClock.ofZone Zone.fixed

/-- Runs at noon on a Saturday and in the last hour of the Sunday after it, by universal time. -/
def weekend : List WeeklyRun :=
  [5 * dayLength + dayLength / 2, 6 * dayLength + 23 * dayLength / 24].map fun t =>
    ⟨t, none, some (visitOf DissentSettings.usual), true⟩

/-- By the eastern clock the second run is on Monday: Go evaluates the post again and latches its
dissent, Python does neither. -/
theorem local_monday :
    ¬DissentRight eastern DissentSettings.usual .adult weekend ∧
      (dissentAfter eastern DissentSettings.usual .adult .go weekend).streak = ⟨true, 2, 0⟩ ∧
      (dissentAfter eastern DissentSettings.usual .adult .python weekend).streak =
        ⟨false, 1, 0⟩ := by
  have hgo : (dissentAfter eastern DissentSettings.usual .adult .go weekend).streak =
      ⟨true, 2, 0⟩ := by decide +kernel
  have hpython : (dissentAfter eastern DissentSettings.usual .adult .python weekend).streak =
      ⟨false, 1, 0⟩ := by decide +kernel
  refine ⟨fun h => ?_, hgo, hpython⟩
  have hagree := congrArg DissentState.streak (h.agree weekend [] (List.append_nil weekend).symm)
  rw [hgo, hpython] at hagree
  exact absurd hagree (by decide)

end SocialActivities.Social
