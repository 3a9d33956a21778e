import SocialActivities.Social.Departed

/-!
# `SocialActivities.Social.LiveSignals`: removed memberships carry no signal (Python)

`leave_activity` resets the signals "so a removed row carries nothing", but it does not reset
`arrived_at`. `noLiveSignal_iff` says that a run keeps the promise exactly when nobody leaves with
an arrival marked, and then no day-of operation changes a removed membership.
`arrival_outlives_leave` is a run that breaks it.
-/

namespace SocialActivities.Social.Py

open Lib
open Lib.Machine (run steps)
open DayState (isRemoved)

/-- Every removed membership carries no signal. -/
def RemovedBlank (s : Option DayState) : Prop :=
  ∀ t ∈ s, ∀ user, isRemoved user t.rows = true → t.signals user = .blank

/-- The step leaves the rows and the signals of the removed memberships as they are. -/
def SparesRemoved (s : Option DayState) (p : DayEnv × DayOp) : Prop :=
  ∀ t ∈ s, ∃ t' ∈ dayStep s p, Spares t t'

/-- In every state of the schedule no removed membership carries a signal, and no day-of operation
changes one. -/
structure NoLiveSignal (ps : List (DayEnv × DayOp)) : Prop where
  blank : ∀ before after, ps = before ++ after → RemovedBlank (dayAfter before)
  spared : ∀ q ∈ steps dayStep none ps, q.2.2.isDayOf = true → SparesRemoved q.1 q.2

/-- Who leaves in this step has no arrival marked. -/
def LeavesUnarrived (s : Option DayState) (p : DayEnv × DayOp) : Prop :=
  ∀ t ∈ s, ∀ user, leaves user s p = true → (t.signals user).arrivedAt = none

variable {t : DayState} {env : DayEnv}

theorem dayStep_of_isDayOf {op : DayOp} (hday : op.isDayOf = true) :
    ∃ t', dayStep (some t) (env, op) = some t' ∧ (t' = t ∨ dayOperate env t op = .ok t') := by
  have hdeletes : op.deletes t.rows = false := by
    cases op with
    | service => cases hday
    | _ => rfl
  simp only [dayStep, hdeletes, Bool.false_eq_true, if_false]
  cases hstep : dayOperate env t op with
  | error => exact ⟨t, rfl, Or.inl rfl⟩
  | ok t' => exact ⟨t', rfl, Or.inr rfl⟩

theorem spares_of_blank {t' : DayState} {op : DayOp} (hday : op.isDayOf = true)
    (hblank : RemovedBlank (some t)) (h : dayOperate env t op = .ok t') : Spares t t' := by
  cases hjob : op.isExpiry with
  | false => exact spares_dayOperate hday hjob h
  | true =>
    -- The job looks at every membership, but blank signals stay blank.
    obtain ⟨hrows, hkept⟩ := expiry_spec hjob h
    refine ⟨hrows, fun v hv => ?_⟩
    have hv := hblank t rfl v hv
    rw [hkept v hv, hv]

theorem sparesRemoved_of_blank {s : Option DayState} {p : DayEnv × DayOp}
    (hday : p.2.isDayOf = true) (hs : RemovedBlank s) : SparesRemoved s p := by
  intro t ht
  cases ht
  obtain ⟨env, op⟩ := p
  obtain ⟨t', hstep, heq | hok⟩ := @dayStep_of_isDayOf t env op hday
  · exact ⟨t', hstep, heq ▸ Spares.refl t⟩
  · exact ⟨t', hstep, spares_of_blank hday hs hok⟩

theorem removedBlank_of_isDayOf {op : DayOp} (hday : op.isDayOf = true)
    (hs : RemovedBlank (some t)) : RemovedBlank (dayStep (some t) (env, op)) := by
  obtain ⟨t', ht', hrows, hsignals⟩ := @sparesRemoved_of_blank (some t) (env, op) hday hs t rfl
  intro t'' heq user hrow
  cases (Option.mem_def.mp heq).symm.trans ht'
  rw [hrows] at hrow
  rw [hsignals user hrow]
  exact hs t rfl user hrow

/-- A service of the join workflow keeps the removed memberships blank exactly when those who leave
have no arrival marked. -/
theorem removedBlank_service {op : Op} {rows : State}
    (hs : RemovedBlank (some t)) (h : operate env.toEnv t.rows op = .ok rows) :
    RemovedBlank (some ⟨rows, signalsAfter t op⟩) ↔
      ∀ user, departs user t.rows op = true → (t.signals user).arrivedAt = none := by
  constructor
  · intro hafter user hdeparts
    have hrow : isRemoved user rows = true := by
      rw [isRemoved_operate h, hdeparts]
      rfl
    have hblank : signalsAfter t op user = .blank := hafter _ rfl user hrow
    rw [signalsAfter_of_departs hdeparts] at hblank
    exact Signals.left_eq_blank_iff.mp hblank
  · intro hquiet t' ht' user hrow
    cases ht'
    have hrow : isRemoved user rows = true := hrow
    rw [isRemoved_operate h, Bool.or_eq_true, Bool.and_eq_true] at hrow
    rcases hrow with hdeparts | ⟨hbefore, -⟩
    · show signalsAfter t op user = .blank
      rw [signalsAfter_of_departs hdeparts]
      exact Signals.left_eq_blank_iff.mpr (hquiet user hdeparts)
    · show signalsAfter t op user = .blank
      rw [signalsAfter_of_isRemoved h hbefore]
      exact hs t rfl user hbefore

theorem removedBlank_dayStep (s : Option DayState) (p : DayEnv × DayOp) (hs : RemovedBlank s) :
    RemovedBlank (dayStep s p) ↔ LeavesUnarrived s p := by
  cases s with
  | none =>
    refine iff_of_true (fun t ht user hrow => ?_) fun t ht => (by cases ht)
    have hnot := removedIn_dayStep_none p user
    rw [Option.mem_def.mp ht] at hnot
    rw [removedIn, Option.any_some, hrow] at hnot
    cases hnot
  | some t =>
    obtain ⟨env, op⟩ := p
    have hquiet : (∀ user, leaves user (some t) (env, op) = false) →
        LeavesUnarrived (some t) (env, op) := by
      intro hnone t' _ user hleaves
      rw [hnone user] at hleaves
      cases hleaves
    cases op with
    | service op =>
      simp only [dayStep, DayOp.deletes]
      by_cases hdeletes : deletes t.rows op = true
      · simp only [hdeletes, if_true]
        refine iff_of_true (fun t ht => (by cases ht)) (hquiet fun user => ?_)
        cases op <;> first | rfl | cases hdeletes
      · simp only [hdeletes, Bool.false_eq_true, if_false]
        cases hstep : operate env.toEnv t.rows op with
        | error =>
          simp only [dayOperate, hstep]
          exact iff_of_true hs (hquiet fun user => by simp [leaves, hstep, Except.isOk, Except.toBool])
        | ok =>
          simp only [dayOperate, hstep]
          refine (removedBlank_service hs hstep).trans ?_
          simp [LeavesUnarrived, leaves, hstep, Except.isOk, Except.toBool]
    | _ => exact iff_of_true (removedBlank_of_isDayOf rfl hs) (hquiet fun user => rfl)

/-- No removed membership ever carries a signal, and no day-of operation changes one, exactly if
nobody leaves with an arrival marked. -/
theorem noLiveSignal_iff (ps : List (DayEnv × DayOp)) :
    NoLiveSignal ps ↔ ∀ q ∈ steps dayStep none ps, LeavesUnarrived q.1 q.2 := by
  have hstart : RemovedBlank none := fun t ht => by cases ht
  have hrun := Machine.forall_steps_iff LeavesUnarrived removedBlank_dayStep
    (fun _ _ _ hgood => hgood) hstart ps
  have hstates : (∀ before after, ps = before ++ after → RemovedBlank (dayAfter before)) ↔ _ :=
    Machine.forall_states_iff none ps
  constructor
  · intro h
    exact hrun.mp (hstates.mp h.blank).2
  · intro h
    refine ⟨hstates.mpr ⟨hstart, hrun.mpr h⟩, fun q hq hday => sparesRemoved_of_blank hday ?_⟩
    exact Machine.steps_guarded LeavesUnarrived
      (fun s p hs hguard => (removedBlank_dayStep s p hs).mpr hguard) hstart h q hq

/-- Member 2 marks the arrival and leaves: the row that stays behind says that 2 is there. -/
theorem arrival_outlives_leave :
    ¬NoLiveSignal (joinedOps ++ [(openDay, .markArrived 2 false), (openDay, .service (.leave 2))]) := by
  have hkept : ∃ s ∈ dayAfter (joinedOps ++
      [(openDay, .markArrived 2 false), (openDay, .service (.leave 2))]),
      isRemoved 2 s.rows = true ∧ s.signals 2 ≠ .blank := by
    decide +kernel
  intro h
  obtain ⟨s, hs, hrow, hlive⟩ := hkept
  exact hlive (h.blank _ [] (List.append_nil _).symm s hs 2 hrow)

end SocialActivities.Social.Py
