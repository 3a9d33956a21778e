import SocialActivities.Social.Departed

/-!
# `SocialActivities.Social.Rejoin`: coming back to an activity (Python)

A departed member may ask again, and a departed guardian may be seated again: `can_join` and the
lookup of `add_guardian` pass over the removed row. Then the insert fails on the pair that this row
still holds. `rejoins_iff` says that the two services work, with one membership and clean signals,
exactly for those who have not left. `leaver_cannot_rejoin` is a member who has.
-/

namespace SocialActivities.Social.Py

open Lib
open DayState (isRemoved)

/-- The checks that `add_guardian` makes before it looks for a membership. -/
def mayAddGuardian (env : Env) (owner guardian : Nat) (s : State) : Bool :=
  s.activity.owner == owner && (s.activity.guardianAccompanied && s.activity.cohort == .child)
    && (env.cohort guardian == .adult && env.canParticipate guardian)
    && env.isGuardianOf guardian owner

/-- The user has exactly one membership, this one, and it carries no signal. -/
structure HoldsClean (s : DayState) (user : Nat) (m : Membership) : Prop where
  row : s.rows.memberships.get? user = some m
  one : s.rows.memberships.count (fun u _ => u == user) = 1
  blank : s.signals user = .blank

/-- After the schedule, whoever `can_join` accepts gets a request, and a guardian whom the owner may
add and who is not there gets a seat. -/
structure Rejoins (ps : List (DayEnv × DayOp)) (env : DayEnv) : Prop where
  member : ∀ s, dayAfter ps = some s → ∀ user, canJoin env.toEnv user s.rows = true →
    ∃ t, dayOperate env s (.service (.requestToJoin user false)) = .ok t ∧
      HoldsClean t user ⟨.member, .requested⟩
  guardian : ∀ s, dayAfter ps = some s → ∀ owner guardian,
    mayAddGuardian env.toEnv owner guardian s.rows = true →
    (s.rows.memberships.get? guardian).all (fun m => m.state == .removed) = true →
    ∃ t, dayOperate env s (.service (.addGuardian owner guardian false)) = .ok t ∧
      HoldsClean t guardian ⟨.guardian, .member⟩

/-- Nobody whom `can_join` accepts, and no guardian whom the owner may add, has left the activity
in the schedule. -/
structure NobodyReturns (ps : List (DayEnv × DayOp)) (env : DayEnv) : Prop where
  member : ∀ s, dayAfter ps = some s → ∀ user, canJoin env.toEnv user s.rows = true → ¬Left ps user
  guardian : ∀ s, dayAfter ps = some s → ∀ owner guardian,
    mayAddGuardian env.toEnv owner guardian s.rows = true → ¬Left ps guardian

section

variable {env : DayEnv} {s : DayState} {user : Nat}

theorem holdsClean_of_get? {m : Membership} (hget : s.rows.memberships.get? user = some m)
    (hblank : s.signals user = .blank) : HoldsClean s user m := by
  have hpos : 0 < s.rows.memberships.count (fun u _ => u == user) :=
    KeyMap.count_pos_of_get? hget (by simp)
  have hle : s.rows.memberships.count (fun u _ => u == user) ≤ [user].length :=
    KeyMap.count_le_length fun u _ _ hu => by simpa using hu
  have hlength : [user].length = 1 := rfl
  exact ⟨hget, by omega, hblank⟩

theorem get?_of_canJoin (hjoin : canJoin env.toEnv user s.rows = true)
    (hrow : isRemoved user s.rows = false) : s.rows.memberships.get? user = none := by
  simp only [canJoin, Bool.and_eq_true] at hjoin
  obtain ⟨⟨⟨-, hall⟩, -⟩, -⟩ := hjoin
  cases hget : s.rows.memberships.get? user with
  | none => rfl
  | some =>
    rw [isRemoved_of_get? hget] at hrow
    rw [hget, Option.all_some, hrow] at hall
    cases hall

theorem requestToJoin_succeeds (hjoin : canJoin env.toEnv user s.rows = true)
    (hnone : s.rows.memberships.get? user = none) :
    ∃ t, dayOperate env s (.service (.requestToJoin user false)) = .ok t ∧
      HoldsClean t user ⟨.member, .requested⟩ := by
  refine ⟨⟨s.rows.setMembership user ⟨.member, .requested⟩, setSignals s.signals user .blank⟩, ?_, ?_⟩
  · simp only [dayOperate, operate, requestToJoin, hjoin, hnone, Option.isNone_none, need_true,
      ok_bind, Bool.not_false, signalsAfter]
    rfl
  · exact holdsClean_of_get? (by simp) (by simp [setSignals])

theorem get?_evaluateAll_of_notMem {env : Env} {rows : State} {targets : List Nat}
    (h : user ∉ targets) :
    (evaluateAll env targets rows).memberships.get? user = rows.memberships.get? user := by
  induction targets generalizing rows with
  | nil => rfl
  | cons target targets ih =>
    simp only [List.mem_cons, not_or] at h
    obtain ⟨hne, hrest⟩ := h
    show (evaluateAll env targets (evaluateVote env target rows)).memberships.get? user = _
    rw [ih hrest]
    simp only [evaluateVote, admitMembership]
    split
    · split
      · rw [State.get?_admitUser, if_neg hne]
      · rfl
    · rfl

theorem get?_settle_withGuardian {env : Env} {rows : State} :
    (settlePendingJoins env (withGuardian user rows)).memberships.get? user
      = some ⟨.guardian, .member⟩ := by
  have hget : (withGuardian user rows).memberships.get? user = some ⟨.guardian, .member⟩ := by
    simp [withGuardian]
  have hnot : user ∉ pendingJoins env (withGuardian user rows) := by
    intro hmem
    obtain ⟨m, hm, hstate⟩ := State.isRequested_iff.mp (isRequested_of_mem_pendingJoins hmem)
    rw [hget] at hm
    cases hm
    cases hstate
  rw [settlePendingJoins, get?_evaluateAll_of_notMem hnot, hget]

theorem addGuardian_succeeds {owner guardian : Nat}
    (hmay : mayAddGuardian env.toEnv owner guardian s.rows = true)
    (hnone : s.rows.memberships.get? guardian = none) :
    ∃ t, dayOperate env s (.service (.addGuardian owner guardian false)) = .ok t ∧
      HoldsClean t guardian ⟨.guardian, .member⟩ := by
  rw [mayAddGuardian, Bool.and_eq_true, Bool.and_eq_true, Bool.and_eq_true] at hmay
  obtain ⟨⟨⟨howner, hactivity⟩, hadult⟩, hlink⟩ := hmay
  have hsignals : signalsAfter s (.addGuardian owner guardian false) guardian = .blank := by
    simp [signalsAfter, hnone, setSignals]
  by_cases hsupervised : s.rows.activity.supervised = true
  · refine ⟨⟨settlePendingJoins env.toEnv (withGuardian guardian s.rows),
      signalsAfter s (.addGuardian owner guardian false)⟩, ?_, ?_⟩
    · simp only [dayOperate, operate, addGuardian, howner, hactivity, hadult, hlink, hnone, need_true,
        ok_bind, Bool.not_false, hsupervised, if_true]
      rfl
    · exact holdsClean_of_get? get?_settle_withGuardian hsignals
  · refine ⟨⟨withGuardian guardian s.rows, signalsAfter s (.addGuardian owner guardian false)⟩, ?_, ?_⟩
    · simp only [dayOperate, operate, addGuardian, howner, hactivity, hadult, hlink, hnone, need_true,
        ok_bind, Bool.not_false, hsupervised, Bool.false_eq_true, if_false]
      rfl
    · exact holdsClean_of_get? (by simp [withGuardian]) hsignals

theorem not_addGuardian_of_isRemoved {owner guardian : Nat} {t : DayState}
    (hrow : isRemoved guardian s.rows = true) :
    dayOperate env s (.service (.addGuardian owner guardian false)) ≠ .ok t := by
  intro h
  obtain ⟨rows, hrows, -⟩ := bind_eq_ok.mp h
  simp only [operate, addGuardian, seq_eq_ok, need_eq_ok] at hrows
  obtain ⟨-, -, -, -, hrows⟩ := hrows
  cases hget : s.rows.memberships.get? guardian with
  | none => simp [isRemoved, hget] at hrow
  | some =>
    rw [isRemoved_of_get? hget] at hrow
    simp only [hget, seq_eq_ok, need_eq_ok] at hrows
    simp [bne, hrow] at hrows

end

theorem isRemoved_iff {ps : List (DayEnv × DayOp)} {s : DayState} (hs : dayAfter ps = some s)
    (user : Nat) : isRemoved user s.rows = true ↔ Left ps user := by
  rw [← removedIn_iff, hs]
  exact Iff.rfl

/-- Whoever may come to the activity gets in exactly if nobody among them has left it before. -/
theorem rejoins_iff (ps : List (DayEnv × DayOp)) (env : DayEnv) :
    Rejoins ps env ↔ NobodyReturns ps env := by
  constructor
  · intro h
    refine ⟨fun s hs user hjoin hleft => ?_, fun s hs owner guardian hmay hleft => ?_⟩
    · obtain ⟨t, hok, -⟩ := h.member s hs user hjoin
      obtain ⟨rows, hrows, -⟩ := bind_eq_ok.mp hok
      have hnone := (get?_of_requestToJoin hrows).1
      have hrow := (isRemoved_iff hs user).mpr hleft
      rw [isRemoved, hnone] at hrow
      cases hrow
    · have hrow := (isRemoved_iff hs guardian).mpr hleft
      have hgone : (s.rows.memberships.get? guardian).all (fun m => m.state == .removed) = true := by
        cases hget : s.rows.memberships.get? guardian with
        | none => rfl
        | some => rwa [isRemoved_of_get? hget] at hrow
      obtain ⟨t, hok, -⟩ := h.guardian s hs owner guardian hmay hgone
      exact not_addGuardian_of_isRemoved hrow hok
  · intro h
    refine ⟨fun s hs user hjoin => ?_, fun s hs owner guardian hmay hgone => ?_⟩
    · have hrow : isRemoved user s.rows = false := Bool.eq_false_iff.mpr fun hrow =>
        h.member s hs user hjoin ((isRemoved_iff hs user).mp hrow)
      exact requestToJoin_succeeds hjoin (get?_of_canJoin hjoin hrow)
    · have hrow : isRemoved guardian s.rows = false := Bool.eq_false_iff.mpr fun hrow =>
        h.guardian s hs owner guardian hmay ((isRemoved_iff hs guardian).mp hrow)
      refine addGuardian_succeeds hmay ?_
      cases hget : s.rows.memberships.get? guardian with
      | none => rfl
      | some =>
        rw [isRemoved_of_get? hget] at hrow
        rw [hget, Option.all_some, hrow] at hgone
        cases hgone

/-- Who leaves may not come back: `can_join` holds of 2, and the request fails on the row that 2
has left. -/
theorem leaver_cannot_rejoin :
    ¬Rejoins (joinedOps ++ [(openDay, .service (.leave 2))]) openDay := by
  have hrefused : ∃ s ∈ dayAfter (joinedOps ++ [(openDay, .service (.leave 2))]),
      canJoin openDay.toEnv 2 s.rows = true ∧
        (dayOperate openDay s (.service (.requestToJoin 2 false))).isOk = false := by
    decide +kernel
  intro h
  obtain ⟨s, hs, hjoin, hfails⟩ := hrefused
  obtain ⟨t, hok, -⟩ := h.member s hs 2 hjoin
  rw [hok] at hfails
  cases hfails

end SocialActivities.Social.Py
