import SocialActivities.Safety.PyModeration

/-!
# `SocialActivities.Safety.PySanctions`: when an account is re-activated (Python)

Two operations re-activate an account: a sweep row and a granted appeal. `Sound` says of one step that an account it
re-activates has no sanction in force afterwards.

A granted appeal is sound: `_reverse_action` asks for other sanctions with no expiry as well as
for later ones. A sweep row asks only for `expires_at > now`, so it does not see a sanction
with no expiry. `HeldByUndatedOnly` is the state in which that matters: the candidate's account
is inactive, and what holds it is an undated sanction and nothing the sweep asks for.

* `sound_iff`: on a state with valid sweeps, a step is sound exactly when it is not a sweep row
  in such a state.
* `reactivations_sound_iff`: the same for all steps of a run, from any set of accounts.
* `undated_suspension_lifted`: a run that re-activates an account under an undated suspension.
-/

namespace SocialActivities.Safety.Py

open Lib
open Lib.Machine

/-- The account is inactive before the step and active after it. -/
def Reactivates (s : State) (op : Op) (u : Nat) : Prop :=
  s.active u = some false ∧ (step s op).active u = some true

/-- An account that the step re-activates has no sanction in force. -/
def Sound (s : State) (op : Op) : Prop :=
  ∀ u, Reactivates s op u → ¬ InForce (step s op) u

/-- The next candidate of sweep `i` is an un-lifted action on the inactive account `u`. Every
un-lifted sanction on `u` is a timed restriction that is undated or has expired by the time of
the sweep, and one of them is undated. -/
def HeldByUndatedOnly (s : State) (i u : Nat) : Prop :=
  ∃ now id pending count candidate,
    s.sweeps[i]? = some ⟨now, id :: pending, count⟩ ∧
    s.actions.get? id = some candidate ∧ candidate.liftedAt = none ∧
    candidate.target = .user u ∧ s.active u = some false ∧
    (∀ k m, s.actions.get? k = some m → m.target = .user u → m.liftedAt = none →
      m.action ≠ .ban ∧
        (m.action.isTimedRestriction = true → ∀ e, m.expiresAt = some e → e ≤ now)) ∧
    ∃ k m, s.actions.get? k = some m ∧ m.target = .user u ∧ m.liftedAt = none ∧
      m.action.isTimedRestriction = true ∧ m.expiresAt = none

/-- A sweep row whose account is held by an undated sanction only. -/
def ReachesUndated (s : State) : Op → Prop
  | .sweepRow i => ∃ u, HeldByUndatedOnly s i u
  | _ => False

/-! ### Sweep rows -/

/-- The account side of a sweep row: it activates its inactive target when neither query finds
a sanction, and changes no other account. -/
theorem active_reactivateExpired (now : Nat) (target : Target) (s : State) (v : Nat) :
    (reactivateExpired now target s).1.active v
      = if target = .user v ∧ s.active v = some false ∧ banned target s = false ∧
          stillSuspended now target s = false then some true else s.active v := by
  cases target with
  | user u =>
    cases hrow : s.users u with
    | none =>
      simp only [reactivateExpired, hrow]
      rw [if_neg]
      rintro ⟨huv, hinactive, -⟩
      rw [← Target.user.inj huv, State.active, hrow] at hinactive
      cases hinactive
    | some row =>
      have hactive : s.active u = some row.isActive := by rw [State.active, hrow]; rfl
      simp only [reactivateExpired, hrow]
      -- The row is written only when nothing holds the account and it is inactive.
      by_cases hcond : (!banned (.user u) s && !stillSuspended now (.user u) s
          && !row.isActive) = true
      · rw [if_pos hcond]
        show (s.setUser u _).active v = _
        simp only [Bool.and_eq_true, Bool.not_eq_true'] at hcond
        rw [active_setUser]
        by_cases hv : v = u
        · subst hv
          rw [if_pos rfl, if_pos ⟨rfl, by rw [hactive, hcond.2], hcond.1.1, hcond.1.2⟩]
        · rw [if_neg hv, if_neg]
          rintro ⟨huv, -⟩
          exact hv (Target.user.inj huv).symm
      · rw [if_neg hcond, if_neg]
        rintro ⟨huv, hinactive, hban, htimed⟩
        rw [← Target.user.inj huv, hactive, Option.some.injEq] at hinactive
        exact hcond (by simp [hban, htimed, hinactive])
  | content | other => simp [reactivateExpired]

variable {id now : Nat} {s : State}

/-- A sweep row re-activates an inactive account exactly when its candidate is an un-lifted
action on it and neither query finds a sanction. -/
theorem liftOne_reactivates {v : Nat} (hv : s.active v = some false) :
    (liftOne now id s).1.active v = some true ↔
      ∃ m, s.actions.get? id = some m ∧ m.liftedAt = none ∧ m.target = .user v ∧
        banned (.user v) s = false ∧ stillSuspended now (.user v) s = false := by
  by_cases h : ∃ m, s.actions.get? id = some m ∧ m.liftedAt = none
  · obtain ⟨m, hget, hlifted⟩ := h
    rw [liftOne_of_unlifted hget hlifted]
    show (reactivateExpired now m.target s).1.active v = some true ↔ _
    rw [active_reactivateExpired]
    constructor
    · intro hactive
      by_cases hcond : m.target = .user v ∧ s.active v = some false ∧
          banned m.target s = false ∧ stillSuspended now m.target s = false
      · obtain ⟨htarget, -, hban, htimed⟩ := hcond
        rw [htarget] at hban htimed
        exact ⟨m, hget, hlifted, htarget, hban, htimed⟩
      · rw [if_neg hcond, hv] at hactive
        cases hactive
    · -- The action with the candidate's id is the candidate.
      rintro ⟨m', hget', -, htarget, hban, htimed⟩
      rw [hget, Option.some.injEq] at hget'
      subst hget'
      rw [if_pos ⟨htarget, hv, by rw [htarget]; exact hban, by rw [htarget]; exact htimed⟩]
  · rw [liftOne_of_lifted fun m hm hnone => h ⟨m, hm, hnone⟩]
    constructor
    · intro hactive
      rw [show (s, (none : Option Nat)).1.active v = s.active v from rfl, hv] at hactive
      cases hactive
    · rintro ⟨m, hget, hlifted, -⟩
      exact absurd ⟨m, hget, hlifted⟩ h

variable {u : Nat}

theorem sweep_queries :
    banned (.user u) s = false ∧ stillSuspended now (.user u) s = false ↔
      ∀ k m, s.actions.get? k = some m → m.target = .user u → m.liftedAt = none →
        m.action ≠ .ban ∧
          (m.action.isTimedRestriction = true → ∀ e, m.expiresAt = some e → e ≤ now) := by
  unfold banned stillSuspended
  rw [unliftedOn_eq_false, unliftedOn_eq_false]
  constructor
  · rintro ⟨hban, htimed⟩ k m hget htarget hlifted
    refine ⟨by simpa using hban k m hget htarget hlifted, fun hrestriction e he => ?_⟩
    have := htimed k m hget htarget hlifted
    simp only [hrestriction, he, Bool.true_and, Option.any_some, decide_eq_false_iff_not] at this
    omega
  · intro h
    refine ⟨fun k m hget htarget hlifted => ?_, fun k m hget htarget hlifted => ?_⟩
    · simpa using (h k m hget htarget hlifted).1
    · have hle := (h k m hget htarget hlifted).2
      cases hrestriction : m.action.isTimedRestriction with
      | false => rfl
      | true =>
        cases hexpires : m.expiresAt with
        -- SQL's comparison with NULL is not true, so the query passes over an undated one.
        | none => rfl
        | some e =>
          have := hle hrestriction e hexpires
          simp only [Option.any_some, Bool.true_and, decide_eq_false_iff_not]
          omega

theorem get?_liftOne {m : ModerationAction}
    (hget : s.actions.get? id = some m) (hlifted : m.liftedAt = none) (k : Nat) :
    (liftOne now id s).1.actions.get? k
      = if k = id then some { m with liftedAt := some now } else s.actions.get? k := by
  rw [liftOne_of_unlifted hget hlifted]
  show ((reactivateExpired now m.target s).1.actions.modify id _).get? k = _
  rw [(reactivateExpired_frame now m.target s).1.actions, Table.get?_modify]
  by_cases hk : k = id
  · rw [if_pos hk, if_pos hk, hk, hget]
    rfl
  · rw [if_neg hk, if_neg hk]

theorem sweepRow_sound_iff (hvalid : SweepsValid s) (i : Nat) :
    Sound s (.sweepRow i) ↔ ¬ ∃ u, HeldByUndatedOnly s i u := by
  constructor
  · rintro hsound ⟨u, now, id, pending, count, candidate, hsweep, hget, hlifted, htarget,
      hinactive, hno, k, m, hgetk, htargetk, hliftedk, hrestriction, hundated⟩
    have hactive : (step s (.sweepRow i)).active u = some true := by
      simp only [step, sweepRow, sweepWith, hsweep]
      show (liftOne now id s).1.active u = some true
      exact (liftOne_reactivates hinactive).mpr
        ⟨candidate, hget, hlifted, htarget, sweep_queries.mpr hno⟩
    -- The undated sanction is not the candidate, whose expiry is set, so it still stands.
    have hne : k ≠ id := by
      rintro rfl
      obtain ⟨m', e, hget', -, hexpires, -⟩ :=
        (hvalid _ (List.mem_of_getElem? hsweep)).2 k List.mem_cons_self
      rw [hgetk, Option.some.injEq] at hget'
      rw [← hget', hundated] at hexpires
      cases hexpires
    refine hsound u ⟨hinactive, hactive⟩ ⟨k, m, ?_, htargetk, hliftedk, Or.inr ⟨hrestriction, ?_⟩⟩
    · simp only [step, sweepRow, sweepWith, hsweep]
      rw [get?_liftOne hget hlifted, if_neg hne]
      exact hgetk
    · intro e he
      rw [hundated] at he
      cases he
  · rintro hno u ⟨hinactive, hactive⟩ ⟨k, m, hgetk, htargetk, hliftedk, hholds⟩
    cases hsweep : s.sweeps[i]? with
    | none =>
      simp only [step, sweepRow, sweepWith, hsweep, hinactive] at hactive
      cases hactive
    | some sweep =>
      obtain ⟨now, pending, count⟩ := sweep
      cases pending with
      | nil =>
        simp only [step, sweepRow, sweepWith, hsweep, hinactive] at hactive
        cases hactive
      | cons id pending =>
        simp only [step, sweepRow, sweepWith, hsweep] at hactive hgetk
        change (liftOne now id s).1.active u = some true at hactive
        obtain ⟨candidate, hget, hlifted, htarget, hqueries⟩ :=
          (liftOne_reactivates hinactive).mp hactive
        rw [get?_liftOne hget hlifted] at hgetk
        have hrows := sweep_queries.mp hqueries
        by_cases hk : k = id
        · -- The candidate itself has just been stamped.
          rw [if_pos hk, Option.some.injEq] at hgetk
          rw [← hgetk] at hliftedk
          cases hliftedk
        · rw [if_neg hk] at hgetk
          obtain ⟨hnoban, hexpired⟩ := hrows k m hgetk htargetk hliftedk
          rcases hholds with hban | ⟨hrestriction, hlater⟩
          · exact hnoban hban
          · cases hexpires : m.expiresAt with
            | none =>
              exact hno ⟨u, now, id, pending, count, candidate, hsweep, hget, hlifted, htarget,
                hinactive, hrows, k, m, hgetk, htargetk, hliftedk, hrestriction, hexpires⟩
            | some e =>
              have hle := hexpired hrestriction e hexpires
              have hlt : (step s (.sweepRow i)).clock < e := hlater e hexpires
              have hnow : now ≤ s.clock := (hvalid _ (List.mem_of_getElem? hsweep)).1
              have hclock := (step_extends s (.sweepRow i)).clock
              omega

/-! ### Appeals and the other operations -/

theorem not_inForce_stampReversed {action : ModerationAction} {u : Nat}
    (hget : s.actions.get? id = some action) (htarget : action.target = .user u)
    (hban : otherBan id action.target s = false)
    (htimed : otherTimed id action.target s = false) :
    ¬ InForce (stampReversed id action s) u := by
  rw [otherBan, unliftedOn_eq_false] at hban
  rw [otherTimed, unliftedOn_eq_false] at htimed
  rintro ⟨k, m, hgetk, htargetk, hliftedk, hholds⟩
  -- The reversed action is stamped, so this is a row that the queries read.
  obtain ⟨hk, hold, -⟩ := (unlifted_stampReversed hget).mp ⟨hgetk, hliftedk⟩
  have htarget' : m.target = action.target := htargetk.trans htarget.symm
  have hb := hban k m hold htarget' hliftedk
  have ht := htimed k m hold htarget' hliftedk
  rcases hholds with hisban | ⟨hrestriction, hlater⟩
  · simp [hk, hisban] at hb
  · cases hexpires : m.expiresAt with
    | none => simp [hk, hrestriction, hexpires] at ht
    | some e =>
      have hlt : (stampReversed id action s).clock < e := hlater e hexpires
      rw [(stampReversed_frame id action s).1] at hlt
      simp [hk, hrestriction, hexpires, hlt] at ht

theorem reverseAction_sound {action : ModerationAction} {u : Nat}
    (hget : s.actions.get? id = some action) (hinactive : s.active u = some false)
    (hactive : (reverseAction id action s).1.active u = some true) :
    ¬ InForce (reverseAction id action s).1 u := by
  rcases reverseAction_cases id action s with
    ⟨v, row, htarget, hrow, -, heq⟩ | ⟨c, row, -, -, -, heq⟩ | ⟨-, -, heq⟩
  · rw [heq] at hactive ⊢
    unfold reverseSanction at hactive ⊢
    simp only at hactive ⊢
    have hsame : (stampReversed id action s).active u = s.active u := by
      rw [State.active, (stampReversed_frame id action s).2.2.2.1]
      rfl
    by_cases hcond : (!(otherBan id action.target s || otherTimed id action.target s)
        && !row.isActive) = true
    · rw [if_pos hcond] at hactive ⊢
      simp only at hactive ⊢
      rw [active_setUser, hsame] at hactive
      by_cases hu : u = v
      · subst hu
        simp only [Bool.and_eq_true, Bool.not_eq_true', Bool.or_eq_false_iff] at hcond
        obtain ⟨⟨hban, htimed⟩, -⟩ := hcond
        exact not_inForce_stampReversed hget htarget hban htimed
      · rw [if_neg hu, hinactive] at hactive
        cases hactive
    · rw [if_neg hcond, hsame, hinactive] at hactive
      cases hactive
  · -- The content branch does not touch accounts.
    have husers : (reverseAction id action s).1.users = s.users := by
      rw [heq, reverseRemove]
      repeat' split
      all_goals exact (stampReversed_frame id action s).2.2.2.1
    rw [State.active, husers] at hactive
    rw [State.active, hactive] at hinactive
    cases hinactive
  · rw [heq, hinactive] at hactive
    cases hactive

/-- A step is sound exactly when it is not a sweep row whose account is held by an undated
sanction only. -/
theorem sound_iff (hvalid : SweepsValid s) (op : Op) :
    Sound s op ↔ ¬ ReachesUndated s op := by
  by_cases hsweep : ∃ i, op = .sweepRow i
  · obtain ⟨i, rfl⟩ := hsweep
    exact sweepRow_sound_iff hvalid i
  · have hnone : ¬ ReachesUndated s op := by
      cases op with
      | sweepRow i => exact absurd ⟨i, rfl⟩ hsweep
      | _ => exact id
    refine iff_of_true ?_ hnone
    rintro u ⟨hinactive, hactive⟩
    revert hactive
    generalize hs' : step s op = s'
    intro hactive
    have hkeep : s.active u ≠ some true := by rw [hinactive]; simp
    cases hs' ▸ step_change s op with
    | takeAction _ _ _ _ _ _ _ record mid event _ _ _ heffect =>
      -- A moderation action only ever deactivates.
      rcases applyEffect_ok heffect with
        ⟨v, row, -, -, -, rfl⟩ | ⟨c, row, -, -, -, rfl⟩ | ⟨-, -, rfl⟩
      · change (State.setUser _ v _).active u = some true at hactive
        rw [active_setUser] at hactive
        by_cases hu : u = v
        · rw [if_pos hu] at hactive
          cases hactive
        · rw [if_neg hu] at hactive
          exact absurd hactive hkeep
      · exact absurd hactive hkeep
      · exact absurd hactive hkeep
    | sweepRow i => exact absurd ⟨i, rfl⟩ hsweep
    | grant _ _ _ _ appeal action mid _ _ haction hmid =>
      subst hmid
      exact reverseAction_sound (s := { s with appeals := _ }) haction hinactive hactive
    | _ => exact absurd hactive hkeep

/-! ### Runs -/

/-- In every run, from any accounts and contents, each re-activation is sound exactly when no
step is a sweep row whose account is held by an undated sanction only. -/
theorem reactivations_sound_iff (users : Nat → Option User) (authors : ContentRef → Option Nat)
    (owners : String → Nat → Option Nat) (clock : Nat) (ops : List Op) :
    (∀ p ∈ steps step (State.start users authors owners clock) ops, Sound p.1 p.2) ↔
      ∀ p ∈ steps step (State.start users authors owners clock) ops,
        ¬ ReachesUndated p.1 p.2 := by
  have hvalid := steps_invariant step_sweepsValid (start_sweepsValid users authors owners clock) ops
  exact forall₂_congr fun p hp => sound_iff (hvalid p hp) p.2

/-- A run on one account: an undated suspension, a suspension that expires at 5, and a sweep at
5. -/
def undatedRun : List Op :=
  [.takeAction 9 (.user 1) .suspend .harassment "" none none,
   .takeAction 9 (.user 1) .suspend .spam "" none (some 5),
   .advance 5, .startSweep]

/-- The sweep row after this run re-activates the account, although the undated suspension on
it was never lifted. -/
theorem undated_suspension_lifted :
    ¬ ∀ (users : Nat → Option User) (authors : ContentRef → Option Nat)
      (owners : String → Nat → Option Nat) (clock : Nat) (ops : List Op),
      ∀ p ∈ steps step (State.start users authors owners clock) ops, Sound p.1 p.2 := by
  intro h
  have hmem : (run step (State.start (fun u => if u = 1 then some ⟨true⟩ else none)
      (fun _ => none) (fun _ _ => none) 0) undatedRun, Op.sweepRow 0)
      ∈ steps step (State.start (fun u => if u = 1 then some ⟨true⟩ else none)
        (fun _ => none) (fun _ _ => none) 0) (undatedRun ++ [.sweepRow 0]) :=
    (mem_steps step).mpr ⟨undatedRun, [], rfl, rfl⟩
  refine h _ _ _ _ _ _ hmem 1 ⟨by decide, by decide⟩ ⟨1, _, rfl, rfl, rfl, Or.inr ⟨rfl, ?_⟩⟩
  intro e he
  cases he

end SocialActivities.Safety.Py
