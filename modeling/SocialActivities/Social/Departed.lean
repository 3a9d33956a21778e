import SocialActivities.Social.PySignals

/-!
# `SocialActivities.Social.Departed`: the memberships of those who left (Python)

A membership that is left stays in the table, in state `removed`, under the unique pair of
activity and user. `removedIn_dayStep` says what a step does to it: it comes with a leave and goes
with the erasure of an account, and in no other way. So it is there exactly when the user has left
(`removedIn_iff`).

The day-of services look for a current member, so they write to no removed membership
(`spares_dayOperate`). The job of `expire_arrivals` does not look at the state (`expiry_spec`), and
a service of the join workflow writes to the signals of a membership when it inserts it and when
its user leaves (`signalsAfter_of_isRemoved`, `signalsAfter_of_departs`).
-/

namespace SocialActivities.Social.Py

open Lib
open Lib.Machine (run Since)
open DayState (isRemoved)

/-- The state after a schedule. -/
def dayAfter (ps : List (DayEnv × DayOp)) : Option DayState := run dayStep none ps

/-! ### Which memberships are removed -/

section

variable {env : Env} {s t : State} {u v : Nat}

variable {m : Membership}

theorem isRemoved_of_get? (h : s.memberships.get? u = some m) :
    isRemoved u s = (m.state == .removed) := by
  simp [isRemoved, h]

theorem isRemoved_setMembership (m : Membership) :
    isRemoved v (s.setMembership u m) = if v = u then m.state == .removed else isRemoved v s := by
  by_cases hv : v = u <;> simp [isRemoved, hv]

theorem isRemoved_setMembership_of_live (hrow : isRemoved u s = false)
    (hm : m.state ≠ .removed) : isRemoved v (s.setMembership u m) = isRemoved v s := by
  rw [isRemoved_setMembership]
  by_cases hv : v = u
  · simp [hv, hrow, hm]
  · simp [hv]

theorem isRemoved_eq_false_of_isRequested (h : s.isRequested u = true) : isRemoved u s = false := by
  obtain ⟨m, hget, hstate⟩ := State.isRequested_iff.mp h
  simp [isRemoved_of_get? hget, hstate]

theorem isRemoved_admitUser (h : isRemoved u s = false) :
    isRemoved v (s.admitUser u) = isRemoved v s := by
  cases hget : s.memberships.get? u with
  | none => simp [State.admitUser, hget]
  | some =>
    simp only [State.admitUser, hget]
    exact isRemoved_setMembership_of_live h (by simp)

theorem isRemoved_evaluateVote (h : isRemoved u s = false) :
    isRemoved v (evaluateVote env u s) = isRemoved v s := by
  simp only [evaluateVote, admitMembership]
  split
  · split
    · exact isRemoved_admitUser h
    · rfl
  · rfl

theorem isRemoved_evaluateAll {targets : List Nat}
    (h : ∀ target ∈ targets, isRemoved target s = false) :
    isRemoved v (evaluateAll env targets s) = isRemoved v s := by
  induction targets generalizing s with
  | nil => rfl
  | cons target targets ih =>
    have hfirst : isRemoved target s = false := h target List.mem_cons_self
    show isRemoved v (evaluateAll env targets (evaluateVote env target s)) = isRemoved v s
    rw [ih, isRemoved_evaluateVote hfirst]
    intro other hother
    rw [isRemoved_evaluateVote hfirst]
    exact h other (List.mem_cons_of_mem target hother)

theorem isRemoved_settlePendingJoins :
    isRemoved v (settlePendingJoins env s) = isRemoved v s :=
  isRemoved_evaluateAll fun _ h =>
    isRemoved_eq_false_of_isRequested (isRequested_of_mem_pendingJoins h)

theorem isRemoved_setRole (r : Role) (hget : s.memberships.get? u = some m)
    (hm : m.state ≠ .removed) : isRemoved v (s.setMembership u { m with role := r }) = isRemoved v s :=
  isRemoved_setMembership_of_live (by simp [isRemoved_of_get? hget, hm]) hm

theorem isRemoved_stepDown (owner : Nat) : isRemoved v (stepDown owner s) = isRemoved v s := by
  simp only [stepDown]
  split
  · rename_i m hfilter
    obtain ⟨hget, hcond⟩ := Option.filter_eq_some_iff.mp hfilter
    exact isRemoved_setRole .member hget (by simp_all)
  · rfl

theorem isRemoved_eraseUser :
    isRemoved v (s.eraseUser u) = if v = u then false else isRemoved v s := by
  simp only [isRemoved, State.get?_eraseUser]
  split <;> rfl

/-- The leave of a membership that is there. -/
def departs (user : Nat) (s : State) : Op → Bool
  | .leave u => u == user && (s.memberships.get? u).any fun m => m.state != .removed
  | _ => false

/-- The deletion of a membership alone. -/
def erases (user : Nat) : Op → Bool
  | .erase u => u == user
  | _ => false

theorem isRemoved_leaveActivity (h : leaveActivity u s = .ok t) :
    isRemoved v t = (departs v s (.leave u) || isRemoved v s) := by
  simp only [leaveActivity] at h
  split at h
  · rename_i hget
    cases h
    simp [departs, hget]
  · rename_i m hget
    split at h
    · rename_i hstate
      cases h
      simp_all [departs]
    · rename_i hstate
      simp only [seq_eq_ok, need_eq_ok, pure_eq_ok] at h
      obtain ⟨-, rfl⟩ := h
      rw [isRemoved_setMembership]
      by_cases hv : v = u
      · simp_all [departs]
      · have hne : u ≠ v := fun h => hv h.symm
        simp [departs, hv, hne]

variable {owner : Nat} {fails : Bool}

theorem isRemoved_addGuardian {guardian : Nat}
    (h : addGuardian env owner guardian fails s = .ok t) : isRemoved v t = isRemoved v s := by
  simp only [addGuardian, seq_eq_ok, need_eq_ok] at h
  obtain ⟨-, -, -, -, h⟩ := h
  split at h
  · simp only [seq_eq_ok, pure_eq_ok] at h
    rw [h.2]
  · rename_i hget
    have hseated : isRemoved v (withGuardian guardian s) = isRemoved v s :=
      isRemoved_setMembership_of_live (by simp [isRemoved, hget]) (by simp)
    simp only [seq_eq_ok] at h
    obtain ⟨-, h⟩ := h
    split at h <;> cases pure_eq_ok.mp h
    · rw [isRemoved_settlePendingJoins, hseated]
    · exact hseated

theorem isRemoved_castVote {voter target : Nat} {approve : Bool}
    (h : castVote env voter target approve fails s = .ok t) : isRemoved v t = isRemoved v s := by
  simp only [castVote, seq_eq_ok, need_eq_ok, pure_eq_ok] at h
  obtain ⟨hrequested, -, -, -, rfl⟩ := h
  exact isRemoved_evaluateVote (s := s.setVote target voter approve)
    (isRemoved_eq_false_of_isRequested hrequested)

theorem isRemoved_ownerAdmit {target : Nat}
    (h : ownerAdmit env owner target fails s = .ok t) : isRemoved v t = isRemoved v s := by
  simp only [ownerAdmit, seq_eq_ok, need_eq_ok, pure_eq_ok] at h
  obtain ⟨-, -, hrequested, hsupervised, -, rfl⟩ := h
  rw [admitMembership, if_pos hsupervised]
  exact isRemoved_admitUser (isRemoved_eq_false_of_isRequested hrequested)

theorem isRemoved_grantCoOrganizer {fails : Bool}
    (h : grantCoOrganizer env owner u fails s = .ok t) : isRemoved v t = isRemoved v s := by
  obtain ⟨-, m, heligible, rfl⟩ := grantCoOrganizer_spec h
  obtain ⟨-, hget, hseat⟩ := coorgEligible_eq_some heligible
  exact isRemoved_setRole .coOrganizer hget (by simp [Membership.state_of_isSeat hseat])

theorem isRemoved_revokeCoOrganizer {fails : Bool}
    (h : revokeCoOrganizer owner u fails s = .ok t) : isRemoved v t = isRemoved v s := by
  obtain ⟨hget, rfl⟩ := revokeCoOrganizer_spec h
  exact isRemoved_setRole .member hget (by simp)

theorem isRemoved_transferOwnership {fails : Bool}
    (h : transferOwnership env owner u fails s = .ok t) : isRemoved v t = isRemoved v s := by
  obtain ⟨-, -, m, heligible, rfl⟩ := transferOwnership_spec h
  obtain ⟨-, hget, hseat⟩ := coorgEligible_eq_some heligible
  rw [isRemoved_stepDown]
  exact isRemoved_setRole (s := { s with activity := { s.activity with owner := u } }) .owner hget
    (by simp [Membership.state_of_isSeat hseat])

/-! #### Writes to the activity row alone -/

theorem memberships_updateActivity {changes : Changes}
    (h : updateActivity env owner changes fails s = .ok t) : t.memberships = s.memberships := by
  simp only [updateActivity, seq_eq_ok, need_eq_ok, pure_eq_ok] at h
  obtain ⟨-, -, -, -, -, -, -, -, rfl⟩ := h
  rfl

theorem memberships_moveActivity {place : Nat}
    (h : moveActivity env owner place fails s = .ok t) : t.memberships = s.memberships := by
  obtain rfl | rfl := moveActivity_spec h <;> rfl

theorem memberships_cancelActivity {fails : Bool}
    (h : cancelActivity owner fails s = .ok t) : t.memberships = s.memberships := by
  simp only [cancelActivity, seq_eq_ok, pure_eq_ok] at h
  obtain ⟨-, -, -, rfl⟩ := h
  rfl

theorem memberships_completeActivity (s : State) :
    (completeActivity s).memberships = s.memberships := by
  simp only [completeActivity]
  split <;> rfl

theorem isRemoved_of_memberships (h : t.memberships = s.memberships) : isRemoved v t = isRemoved v s := by
  simp only [isRemoved, h]

theorem get?_of_requestToJoin (h : requestToJoin env u fails s = .ok t) :
    s.memberships.get? u = none ∧ t = s.setMembership u ⟨.member, .requested⟩ := by
  simp only [requestToJoin, seq_eq_ok, need_eq_ok, pure_eq_ok] at h
  obtain ⟨-, hnone, -, rfl⟩ := h
  exact ⟨by simpa using hnone, rfl⟩

/-- A removed membership comes with a leave, goes with the erasure of its user, and changes in no
other way. -/
theorem isRemoved_operate {op : Op} (h : operate env s op = .ok t) (v : Nat) :
    isRemoved v t = (departs v s op || (isRemoved v s && !erases v op)) := by
  -- A call that is neither a leave nor an erasure leaves the removed memberships as they are.
  have hkept : isRemoved v t = isRemoved v s →
      isRemoved v t = (false || (isRemoved v s && !false)) := fun h => by simp [h]
  cases op with
  | create => exact hkept (by cases h; rfl)
  | requestToJoin =>
    obtain ⟨hnone, rfl⟩ := get?_of_requestToJoin h
    exact hkept (isRemoved_setMembership_of_live (by simp [isRemoved, hnone]) (by simp))
  | castVote => exact hkept (isRemoved_castVote h)
  | ownerAdmit => exact hkept (isRemoved_ownerAdmit h)
  | addGuardian => exact hkept (isRemoved_addGuardian h)
  | setSupervision =>
    simp only [operate, setActivitySupervision, seq_eq_ok, pure_eq_ok] at h
    obtain ⟨-, -, -, -, rfl⟩ := h
    exact hkept isRemoved_settlePendingJoins
  | leave =>
    rw [isRemoved_leaveActivity h]
    simp [erases]
  | update => exact hkept (isRemoved_of_memberships (memberships_updateActivity h))
  | move => exact hkept (isRemoved_of_memberships (memberships_moveActivity h))
  | cancel => exact hkept (isRemoved_of_memberships (memberships_cancelActivity h))
  | complete =>
    cases h
    exact hkept (isRemoved_of_memberships (memberships_completeActivity s))
  | grantCoOrganizer => exact hkept (isRemoved_grantCoOrganizer h)
  | revokeCoOrganizer => exact hkept (isRemoved_revokeCoOrganizer h)
  | transferOwnership => exact hkept (isRemoved_transferOwnership h)
  | setHidden =>
    cases h
    exact hkept rfl
  | erase user =>
    cases h
    rw [isRemoved_eraseUser]
    by_cases hv : v = user
    · simp [departs, erases, hv]
    · have hne : user ≠ v := fun h => hv h.symm
      simp [departs, erases, hv, hne]

end

/-! ### What the calls write to the signals -/

section

variable {env : DayEnv} {s t : DayState} {user v : Nat}

theorem signals_save_of_ne (new : Signals) (hv : v ≠ user) :
    (s.save user new).signals v = s.signals v := by
  simp [DayState.save, setSignals, hv]

theorem isRemoved_eq_false_of_isSome {p : Membership → Bool} (hp : ∀ m, p m = true → m.state = .member)
    (h : ((s.rows.memberships.get? user).filter p).isSome = true) : isRemoved user s.rows = false := by
  obtain ⟨m, hm⟩ := Option.isSome_iff_exists.mp h
  obtain ⟨hget, hcond⟩ := Option.filter_eq_some_iff.mp hm
  simp [isRemoved_of_get? hget, hp m hcond]

theorem isRemoved_eq_false_of_currentMember (h : (currentMember user s.rows).isSome = true) :
    isRemoved user s.rows = false :=
  isRemoved_eq_false_of_isSome (by simp) h

theorem isRemoved_eq_false_of_votingMember (h : (votingMember user s.rows).isSome = true) :
    isRemoved user s.rows = false :=
  isRemoved_eq_false_of_isSome (fun _ => Membership.state_of_isSeat) h

/-- The rows are as they were, and so are the signals of the removed memberships. -/
def Spares (s t : DayState) : Prop :=
  t.rows = s.rows ∧ ∀ v, isRemoved v s.rows = true → t.signals v = s.signals v

theorem Spares.refl (s : DayState) : Spares s s := ⟨rfl, fun _ _ => rfl⟩

theorem spares_save (new : Signals) (h : isRemoved user s.rows = false) : Spares s (s.save user new) := by
  refine ⟨rfl, fun v hv => signals_save_of_ne new ?_⟩
  intro heq
  rw [heq, h] at hv
  cases hv

/-- The end of a signal that may be set already. -/
theorem spares_unlessSet {c : Prop} [Decidable c] {fails : Bool} {new : Signals}
    (hmember : (currentMember user s.rows).isSome = true)
    (h : (if c then pure s else do
        need Error.failed (!fails)
        pure (s.save user new)) = Except.ok t) : Spares s t := by
  split at h
  · cases pure_eq_ok.mp h
    exact Spares.refl s
  · simp only [seq_eq_ok, pure_eq_ok] at h
    rw [← h.2]
    exact spares_save _ (isRemoved_eq_false_of_currentMember hmember)

/-- An operation of the day: what a user says about the day, or an update of the job. -/
def DayOp.isDayOf : DayOp → Bool
  | .service _ => false
  | _ => true

/-- An update of the job. -/
def DayOp.isExpiry : DayOp → Bool
  | .expireArrivals _ => true
  | .expireDepartures _ => true
  | _ => false

theorem spares_dayOperate {op : DayOp} (hday : op.isDayOf = true) (hjob : op.isExpiry = false)
    (h : dayOperate env s op = .ok t) : Spares s t := by
  cases op with
  | service => cases hday
  | setAttendanceIntent =>
    simp only [dayOperate, setAttendanceIntent, seq_eq_ok, need_eq_ok] at h
    obtain ⟨hmember, h⟩ := h
    split at h
    · cases h
    · simp only [seq_eq_ok, pure_eq_ok] at h
      rw [← h.2]
      exact spares_save _ (isRemoved_eq_false_of_currentMember hmember)
  | setMetConfirmed =>
    simp only [dayOperate, setMetConfirmed] at h
    split at h
    · cases h
    · rename_i m hget
      simp only [seq_eq_ok] at h
      obtain ⟨-, -, h⟩ := h
      split at h <;> cases pure_eq_ok.mp h
      · exact Spares.refl s
      · exact spares_save _ (isRemoved_eq_false_of_currentMember (by simp [hget]))
  | markArrived =>
    simp only [dayOperate, markArrived, seq_eq_ok, need_eq_ok] at h
    obtain ⟨hmember, -, -, -, h⟩ := h
    exact spares_unlessSet hmember h
  | markDeparting =>
    simp only [dayOperate, markDeparting, seq_eq_ok, need_eq_ok] at h
    obtain ⟨hmember, -, -, -, -, h⟩ := h
    exact spares_unlessSet hmember h
  | setTransitStatus =>
    simp only [dayOperate, setTransitStatus, seq_eq_ok, need_eq_ok] at h
    obtain ⟨-, hmember, -, -, -, h⟩ := h
    exact spares_unlessSet hmember h
  | setSupportCompanion =>
    simp only [dayOperate, setSupportCompanion, seq_eq_ok, need_eq_ok, pure_eq_ok] at h
    obtain ⟨hmember, -, -, rfl⟩ := h
    exact spares_save _ (isRemoved_eq_false_of_votingMember hmember)
  | expireArrivals | expireDepartures => cases hjob

theorem expiry_spec {op : DayOp} (hjob : op.isExpiry = true) (h : dayOperate env s op = .ok t) :
    t.rows = s.rows ∧ ∀ v, s.signals v = .blank → t.signals v = .blank := by
  cases op with
  | expireArrivals =>
    cases h
    simp only [expireArrivals]
    split
    · refine ⟨rfl, fun v hv => ?_⟩
      show (s.signals v).arrivalExpired = .blank
      rw [hv]
      rfl
    · exact ⟨rfl, fun _ hv => hv⟩
  | expireDepartures =>
    cases h
    simp only [expireDepartures]
    split
    · refine ⟨rfl, fun v hv => ?_⟩
      show { s.signals v with departingAt := none } = Signals.blank
      rw [hv]
      rfl
    · exact ⟨rfl, fun _ hv => hv⟩
  | _ => cases hjob

theorem rows_dayOperate {op : DayOp} (hday : op.isDayOf = true) (h : dayOperate env s op = .ok t) :
    t.rows = s.rows := by
  cases hjob : op.isExpiry with
  | true => exact (expiry_spec hjob h).1
  | false => exact (spares_dayOperate hday hjob h).1

/-- A service of the join workflow writes to the signals of a removed membership only when its user
leaves. -/
theorem signalsAfter_of_isRemoved {op : Op} {rows : State}
    (h : operate env.toEnv s.rows op = .ok rows) (hv : isRemoved v s.rows = true) :
    signalsAfter s op v = s.signals v := by
  -- An insert finds no row; a removed one is another user's.
  have hinsert : ∀ u, s.rows.memberships.get? u = none → v ≠ u := by
    intro u hnone heq
    rw [isRemoved, heq, hnone] at hv
    cases hv
  cases op with
  | requestToJoin user =>
    have hne := hinsert user (get?_of_requestToJoin h).1
    simp [signalsAfter, setSignals, hne]
  | addGuardian owner guardian =>
    simp only [signalsAfter]
    split
    · rename_i hnone
      have hne := hinsert guardian (by simpa using hnone)
      simp [setSignals, hne]
    · rfl
  | leave user =>
    simp only [signalsAfter]
    split
    · rename_i hlive
      have hne : v ≠ user := by
        intro heq
        simp only [isRemoved, heq] at hv
        cases hget : s.rows.memberships.get? user <;> simp_all
      simp [setSignals, hne]
    · rfl
  | _ => rfl

theorem signalsAfter_of_departs {op : Op} (h : departs v s.rows op = true) :
    signalsAfter s op v = (s.signals v).left := by
  cases op with
  | leave =>
    simp only [departs, Bool.and_eq_true, beq_iff_eq] at h
    obtain ⟨rfl, hlive⟩ := h
    simp [signalsAfter, hlive, setSignals]
  | _ => cases h

theorem Signals.left_eq_blank_iff {c : Signals} : c.left = .blank ↔ c.arrivedAt = none := by
  simp [Signals.left, Signals.blank]

end

/-! ### One step -/

/-- The membership of the user, if there is an activity, is removed. -/
def removedIn (user : Nat) (s : Option DayState) : Bool := s.any fun t => isRemoved user t.rows

/-- The step is a leave that succeeds, of a membership that is there. -/
def leaves (user : Nat) (s : Option DayState) (p : DayEnv × DayOp) : Bool :=
  s.any fun t => match p.2 with
    | .service op => departs user t.rows op && (operate p.1.toEnv t.rows op).isOk
    | _ => false

/-- The step deletes the membership of the user: the erasure of the user, or of the owner with the
whole activity. -/
def deletesRow (user : Nat) (s : Option DayState) (p : DayEnv × DayOp) : Bool :=
  s.any fun t => match p.2 with
    | .service op => erases user op || deletes t.rows op
    | _ => false

theorem removedIn_dayStep_none (p : DayEnv × DayOp) (user : Nat) :
    removedIn user (dayStep none p) = false := by
  obtain ⟨env, op⟩ := p
  cases op with
  | service op =>
    cases op with
    | create owner new fails =>
      simp only [dayStep, step]
      cases hcreate : createActivity env.toEnv owner new fails with
      | error => rfl
      | ok =>
        simp only [createActivity, seq_eq_ok, pure_eq_ok] at hcreate
        obtain ⟨-, -, -, -, -, -, -, -, -, -, -, rfl⟩ := hcreate
        simp only [Option.map_some, removedIn, Option.any_some, isRemoved, created,
          KeyMap.get?_set, KeyMap.get?_empty]
        split <;> rfl
    | _ => rfl
  | _ => rfl

theorem removedIn_dayStep (s : Option DayState) (p : DayEnv × DayOp) (user : Nat) :
    removedIn user (dayStep s p) = (leaves user s p || (removedIn user s && !deletesRow user s p)) := by
  cases s with
  | none =>
    rw [removedIn_dayStep_none]
    rfl
  | some t =>
    obtain ⟨env, op⟩ := p
    cases hday : op.isDayOf with
    | true =>
      -- The rows stay, whatever the outcome.
      have hrows : removedIn user (dayStep (some t) (env, op)) = isRemoved user t.rows := by
        have hdeletes : op.deletes t.rows = false := by cases op <;> first | rfl | cases hday
        simp only [dayStep, hdeletes, Bool.false_eq_true, if_false]
        cases hstep : dayOperate env t op with
        | error => rfl
        | ok t' =>
          show isRemoved user t'.rows = _
          rw [rows_dayOperate hday hstep]
      rw [hrows]
      cases op with
      | service => cases hday
      | _ => simp [removedIn, leaves, deletesRow]
    | false =>
      cases op with
      | service op =>
        simp only [dayStep, DayOp.deletes]
        by_cases hdeletes : deletes t.rows op = true
        · -- The activity goes, and only an erasure takes it.
          have hdeparts : departs user t.rows op = false := by
            cases op <;> first | rfl | cases hdeletes
          simp [hdeletes, removedIn, leaves, deletesRow, hdeparts]
        · simp only [hdeletes, Bool.false_eq_true, if_false]
          cases hstep : operate env.toEnv t.rows op with
          | error =>
            have herases : erases user op = false := by
              cases op <;> first | rfl | cases hstep
            simp [dayOperate, hstep, removedIn, leaves, deletesRow, herases, hdeletes, Except.isOk,
              Except.toBool, bind, Except.bind]
          | ok =>
            simp [dayOperate, hstep, removedIn, leaves, deletesRow, hdeletes, Except.isOk,
              Except.toBool, bind, Except.bind, pure, Except.pure, isRemoved_operate hstep]
      | _ => cases hday

/-- The user has left the activity and has not been erased since. -/
def Left (ps : List (DayEnv × DayOp)) (user : Nat) : Prop :=
  Since dayStep (fun s p => leaves user s p = true) (fun s p => deletesRow user s p = true) none ps

theorem removedIn_iff (ps : List (DayEnv × DayOp)) (user : Nat) :
    removedIn user (dayAfter ps) = true ↔ Left ps user := by
  induction ps using List.reverseRecOn with
  | nil => exact iff_of_false (by simp [dayAfter, removedIn]) (Machine.not_since_nil none)
  | append_singleton ps p ih =>
    have hstep : dayAfter (ps ++ [p]) = dayStep (dayAfter ps) p := Machine.run_concat ..
    rw [Left, Machine.since_concat, hstep, removedIn_dayStep, Bool.or_eq_true, Bool.and_eq_true,
      Bool.not_eq_true', Bool.not_eq_true, ih]
    exact Iff.rfl

/-- Adults whom every gate accepts, four hours around the start. -/
def openDay : DayEnv where
  now := 10
  cohort _ := .adult
  canParticipate _ := true
  canCreateActivity _ := true
  isGuardianOf _ _ := false
  passesGuardrails _ := true
  categoryAllows _ _ := true
  childPublicVenuesOnly := true
  isChildSafeVenue _ := true
  publicPlace _ := true
  ownPendingPlace _ _ := false
  order := ⟨id, fun l => List.Perm.refl l⟩
  arrivalWindowBefore := 7200000000
  arrivalWindowAfter := 7200000000
  departureFallbackDuration := 7200000000
  departureWindowAfter := 14400000000
  supportCompanionCohorts cohort := cohort == .adult

/-- User 1 creates an activity; 2 asks to join and is admitted. -/
def joinedOps : List (DayEnv × DayOp) :=
  [(openDay, .service (.create 1 ⟨1, 1, 10, none, none, none, none, false, false, true⟩ false)),
   (openDay, .service (.requestToJoin 2 false)),
   (openDay, .service (.ownerAdmit 1 2 false))]

end SocialActivities.Social.Py
