import SocialActivities.Social.SeriesRuns

/-!
# `SocialActivities.Social.SeriesStatus`: an ended series

In Go a request on a series reads the status under the lock of the row, so an ended series stays
ended (`Go.ended_step`). In Python a pause or a resume checks the copy that its view has loaded and
then saves a status over whatever is stored. When an end has committed in between, the save undoes
it. `Py.Undoes` is that step, and a run keeps its ended series exactly when it has none.
-/

namespace SocialActivities.Social

open Lib
open Lib.Calendar (Zone)
open Lib.Machine (run steps)

namespace Engine

variable {σ α : Type} {z : Zone} {leadDays : Nat} (E : Engine σ α z leadDays)

def Ended (s : σ) : Prop := (E.view s).series.status = .ended

/-- Once the series is ended in a run, it is ended in every later state, and no later tick spawns
from it. -/
def EndStays (s : σ) (as : List α) : Prop :=
  ∀ before mid rest, as = before ++ (mid ++ rest) → E.Ended (run E.step s before) →
    E.Ended (run E.step s (before ++ mid)) ∧
      ∀ q ∈ steps E.step (run E.step s before) mid, E.new q.1 q.2 = none

variable {E}

variable {s : σ}

theorem ended_tick {a : α} {t : Tick} (hended : E.Ended s) (ht : E.tick s a = some t) :
    E.Ended (E.step s a) ∧ E.new s a = none := by
  unfold Ended at hended ⊢
  unfold new
  rw [ht, Option.bind_some]
  cases hresult : t.result with
  | none =>
    rw [E.tick_failed ht hresult]
    exact ⟨hended, rfl⟩
  | some =>
    obtain ⟨hstep, hview⟩ := E.tick_ok ht hresult
    rw [hview, Option.bind_some]
    cases hstep with
    -- Whatever a tick changes, it changes of an active series.
    | kept hstate hnew =>
      rw [hstate]
      exact ⟨hended, hnew⟩
    | paused hactive => rw [hended] at hactive; cases hactive
    | moved _ _ hactive => rw [hended] at hactive; cases hactive
    | spawned _ hactive => rw [hended] at hactive; cases hactive

theorem new_of_not_tick {a : α} (ht : E.tick s a = none) : E.new s a = none := by
  unfold new
  rw [ht]
  rfl

theorem endStays_of_steps {as : List α}
    (hstep : ∀ q ∈ steps E.step s as, E.Ended q.1 → E.Ended (E.step q.1 q.2)) :
    E.EndStays s as := by
  rintro before mid rest rfl hended
  -- The steps of the middle part are steps of the run.
  have hmid : ∀ q ∈ steps E.step (run E.step s before) mid, E.Ended q.1 →
      E.Ended (E.step q.1 q.2) := by
    intro q hq
    refine hstep q ?_
    rw [Lib.Machine.steps_append, Lib.Machine.steps_append]
    exact List.mem_append_right _ (List.mem_append_left _ hq)
  have hall : ∀ q ∈ steps E.step (run E.step s before) mid, E.Ended q.1 :=
    Lib.Machine.steps_guarded (fun s a => E.Ended s → E.Ended (E.step s a))
      (fun s a hs hguard => hguard hs) hended hmid
  refine ⟨?_, fun q hq => ?_⟩
  · rw [Lib.Machine.run_append]
    exact Lib.Machine.run_guarded (fun s a => E.Ended s → E.Ended (E.step s a))
      (fun s a hs hguard => hguard hs) hended hmid
  · cases ht : E.tick q.1 q.2 with
    | none => exact new_of_not_tick ht
    | some => exact (ended_tick (hall q hq) ht).2

end Engine

namespace Go

theorem nextStatus_ended {env : Env} {a : Actor} {action : SeriesAction} {s : SeriesState}
    {next : SeriesStatus} (hended : s.series.status = .ended) :
    nextStatus env a action s ≠ .ok next := by
  intro h
  unfold nextStatus at h
  cases action with
  | pause =>
    rw [seq_eq_ok, need_eq_ok, beq_iff_eq, hended] at h
    cases h.1
  | resume =>
    rw [seq_eq_ok, need_eq_ok, beq_iff_eq, hended] at h
    cases h.1
  | close =>
    rw [seq_eq_ok, need_eq_ok, bne_iff_ne] at h
    exact h.1 hended
  | other => cases h

theorem ended_step (z : Zone) (leadDays : Nat) (s : SeriesState) (op : SeriesOp)
    (hended : (engine z leadDays).Ended s) :
    (engine z leadDays).Ended ((engine z leadDays).step s op) := by
  cases op with
  | tick => exact (Engine.ended_tick hended rfl).1
  | transition env a action fails =>
    show (seriesStep z leadDays s (.transition env a action fails)).series.status = .ended
    unfold seriesStep
    dsimp only
    cases htransition : transitionSeries env a action fails s with
    | error => exact hended
    | ok =>
      obtain ⟨next, hnext, -⟩ := transitionSeries_spec htransition
      exact absurd hnext (nextStatus_ended hended)
  | note a note fails =>
    show (seriesStep z leadDays s (.note a note fails)).series.status = .ended
    unfold seriesStep
    dsimp only
    cases hset : setSeriesNote a note fails s with
    | error => exact hended
    | ok =>
      -- The note of an ended series cannot be set.
      exact absurd hended (setSeriesNote_spec hset).1
  | edit => exact hended

end Go

namespace Py

/-- The step saves a status over an end: a pause of a copy that was active, or a resume of one that
was paused. -/
def Undoes (s : SeriesRequests) : SeriesOp → Prop
  | .pause request owner fails => fails = false ∧ s.base.series.status = .ended ∧
    ∃ loaded, s.loaded.get? request = some loaded ∧ loaded.owner = owner ∧ loaded.status = .active
  | .resume request owner fails => fails = false ∧ s.base.series.status = .ended ∧
    ∃ loaded, s.loaded.get? request = some loaded ∧ loaded.owner = owner ∧ loaded.status = .paused
  | _ => False

/-- A service that saves another status than ended: the series stays ended exactly when the service
refuses the request's copy. -/
theorem ended_serve_iff {s : SeriesRequests} {status : SeriesStatus} (request : Nat)
    (service : Series → SeriesState → Except Error SeriesState) (hne : status ≠ .ended)
    (hservice : ∀ loaded base, service loaded s.base = .ok base → base = s.base.withStatus status)
    (hended : s.base.series.status = .ended) :
    (s.serve request service).base.series.status = .ended ↔
      ∀ loaded base, s.loaded.get? request = some loaded → service loaded s.base ≠ .ok base := by
  rcases SeriesRequests.serve_cases s request service with hkept | ⟨loaded, base, hloaded, hok, h⟩
  · rw [hkept]
    refine iff_of_true hended fun loaded base hloaded hok => ?_
    -- The service would have been applied.
    unfold SeriesRequests.serve at hkept
    rw [hloaded] at hkept
    dsimp only at hkept
    rw [hok] at hkept
    have hstatus : base.series.status = status := by
      rw [hservice loaded base hok]
      rfl
    rw [← hkept] at hended
    exact hne (hstatus.symm.trans hended)
  · rw [h]
    refine iff_of_false ?_ fun hnot => hnot loaded base hloaded hok
    rw [hservice loaded base hok]
    exact hne

theorem ended_step_iff (z : Zone) (leadDays : Nat) (s : SeriesRequests) (op : SeriesOp)
    (hended : (engine z leadDays).Ended s) :
    (engine z leadDays).Ended ((engine z leadDays).step s op) ↔ ¬Undoes s op := by
  have hstored : s.base.series.status = .ended := hended
  cases op with
  | tick => exact iff_of_true (Engine.ended_tick hended rfl).1 (fun h => h)
  | load | edit => exact iff_of_true hended (fun h => h)
  | pause request owner fails =>
    -- A request that loaded the series before it ended writes its own status over it.
    have hserve := ended_serve_iff request (fun loaded => pauseSeries owner loaded fails)
      (show SeriesStatus.paused ≠ .ended by decide)
      (fun loaded base h => (pauseSeries_eq_ok.mp h).2.2.2.symm) hstored
    refine hserve.trans ⟨fun hnot => ?_, fun hnot loaded base hloaded hok => ?_⟩
    · rintro ⟨hfails, -, loaded, hloaded, howner, hactive⟩
      exact hnot loaded _ hloaded (pauseSeries_eq_ok.mpr ⟨howner, hactive, hfails, rfl⟩)
    · obtain ⟨howner, hactive, hfails, -⟩ := pauseSeries_eq_ok.mp hok
      exact hnot ⟨hfails, hstored, loaded, hloaded, howner, hactive⟩
  | resume request owner fails =>
    have hserve := ended_serve_iff request (fun loaded => resumeSeries owner loaded fails)
      (show SeriesStatus.active ≠ .ended by decide)
      (fun loaded base h => (resumeSeries_eq_ok.mp h).2.2.2.symm) hstored
    refine hserve.trans ⟨fun hnot => ?_, fun hnot loaded base hloaded hok => ?_⟩
    · rintro ⟨hfails, -, loaded, hloaded, howner, hpaused⟩
      exact hnot loaded _ hloaded (resumeSeries_eq_ok.mpr ⟨howner, hpaused, hfails, rfl⟩)
    · obtain ⟨howner, hpaused, hfails, -⟩ := resumeSeries_eq_ok.mp hok
      exact hnot ⟨hfails, hstored, loaded, hloaded, howner, hpaused⟩
  | close request owner fails =>
    refine iff_of_true ?_ (fun h => h)
    show (s.serve request fun loaded => endSeries owner loaded fails).base.series.status = .ended
    rcases SeriesRequests.serve_cases s request (fun loaded => endSeries owner loaded fails) with
      h | ⟨_, base, -, hok, h⟩
    · rw [h]
      exact hstored
    · rw [h, endSeries_spec hok]
      rfl
  | note request owner note fails =>
    refine iff_of_true ?_ (fun h => h)
    show (s.serve request fun loaded =>
      setNextInstanceNote owner loaded note fails).base.series.status = .ended
    rcases SeriesRequests.serve_cases s request
      (fun loaded => setNextInstanceNote owner loaded note fails) with h | ⟨_, base, -, hok, h⟩
    · rw [h]
      exact hstored
    · rw [h, setNextInstanceNote_spec hok]
      exact hstored

theorem ended_of_undoes {z : Zone} {leadDays : Nat} {s : SeriesRequests} {op : SeriesOp}
    (h : Undoes s op) : (engine z leadDays).Ended s := by
  cases op with
  | pause | resume => exact h.2.1
  | _ => exact h.elim

end Py

/-- In Go an ended series stays ended, and no later tick spawns from it, in every order of
requests and ticks. In Python that holds of a run exactly when no step of it is a pause or a resume
that was let through by a copy from before the end. -/
theorem ended_series (z : Zone) (leadDays : Nat) :
    (∀ s as, (Go.engine z leadDays).EndStays s as) ∧
    ∀ s as, (Py.engine z leadDays).EndStays s as ↔
      ∀ q ∈ steps (Py.engine z leadDays).step s as, ¬Py.Undoes q.1 q.2 := by
  constructor
  · intro s as
    exact Engine.endStays_of_steps fun q _ hended => Go.ended_step z leadDays q.1 q.2 hended
  · intro s as
    constructor
    · intro h q hq hundoes
      obtain ⟨before, after, rfl, hbefore⟩ :=
        (Lib.Machine.mem_steps (Py.engine z leadDays).step).mp hq
      have hended : (Py.engine z leadDays).Ended q.1 := Py.ended_of_undoes hundoes
      have hnext := (h before [q.2] after (by simp) (hbefore ▸ hended)).1
      rw [Lib.Machine.run_concat, ← hbefore] at hnext
      exact (Py.ended_step_iff z leadDays q.1 q.2 hended).mp hnext hundoes
    · intro hnot
      exact Engine.endStays_of_steps fun q hq hended =>
        (Py.ended_step_iff z leadDays q.1 q.2 hended).mpr (hnot q hq)

/-- A weekly series. -/
def sampleSeries : Series where
  owner := 1
  cohort := .adult
  template :=
    { place := 1, activityType := 1, joinThreshold := Magnitude.zero, capacity := none,
      minToGo := none, guardianAccompanied := false, supervised := false, organizerNote := "",
      durationMinutes := none }
  cadence := .weekly
  anchorDay := 1
  nextStartsAt := 740000 * Calendar.dayLength
  nextInstanceNote := ""
  status := .active

/-- Two views load an active series; one ends it, and then the other pauses it. -/
theorem pause_after_end : ¬(Py.engine Zone.fixed 14).EndStays ⟨⟨sampleSeries, []⟩, KeyMap.empty⟩
    [.load 1, .load 2, .close 2 1 false, .pause 1 1 false] := by
  intro h
  have hlater := (h [.load 1, .load 2, .close 2 1 false] [.pause 1 1 false] [] rfl rfl).1
  cases hlater

end SocialActivities.Social
