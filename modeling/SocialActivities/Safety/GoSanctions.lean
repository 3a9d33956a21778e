import SocialActivities.Safety.GoModeration

/-!
# `SocialActivities.Safety.GoSanctions`: the account flag and the sanctions (Go)

Both paths that end a sanction, the sweep row and the granted appeal, ask whether another
sanction is in force before they activate the account. `HeldElsewhere` is that question with
its meaning: a sanction other than action `id` is in force on the account. `blocked_iff` and
`others_iff` give it as the value of the two Go queries, and `inForce_stamp` as the sanctions
in force after `id` is stamped.

* `step_heldInactive`: an account with a sanction in force is not active. This is an invariant
  of every operation, so no operation activates an account under a sanction.
* `endsSanction_active`: an operation that ends a sanction on an account, and leaves none in
  force, leaves the account active.
* `sanctions_exact`: both, for every step of every run.
-/

namespace SocialActivities.Safety.Go

open Lib
open Lib.Machine

/-- A sanction other than action `id` is in force on the account. -/
def HeldElsewhere (s : State) (id u : Nat) : Prop :=
  ∃ k m, k ≠ id ∧ s.actions.get? k = some m ∧ m.target = .user u ∧ m.Holds s.clock

theorem expiry_query {m : ModerationAction} {now : Nat} :
    (m.expiresAt.isNone || m.expiresAt.any fun e => decide (now < e)) = true ↔
      ∀ e, m.expiresAt = some e → now < e := by
  cases h : m.expiresAt with
  | none | some => simp

variable {u : Nat} {s : State}

theorem blocked_iff : blocked (.user u) s = true ↔ InForce s u := by
  unfold blocked
  rw [unliftedOn_iff]
  refine exists_congr fun k => exists_congr fun m => and_congr_right fun _ =>
    and_congr_right fun _ => and_congr_right fun _ => ?_
  rw [Bool.or_eq_true, Bool.and_eq_true, expiry_query, beq_iff_eq]

variable {id : Nat}

theorem others_iff :
    otherBan id (.user u) s = false ∧ otherTimed id (.user u) s = false ↔
      ¬ HeldElsewhere s id u := by
  unfold otherBan otherTimed
  rw [← Bool.not_eq_true, ← Bool.not_eq_true, unliftedOn_iff, unliftedOn_iff, ← not_or]
  refine not_congr ⟨?_, ?_⟩
  · rintro (⟨k, m, hget, htarget, hlifted, hquery⟩ | ⟨k, m, hget, htarget, hlifted, hquery⟩)
    · simp only [Bool.and_eq_true, bne_iff_ne, beq_iff_eq] at hquery
      exact ⟨k, m, hquery.1, hget, htarget, hlifted, Or.inl hquery.2⟩
    · rw [Bool.and_eq_true, Bool.and_eq_true, bne_iff_ne, expiry_query] at hquery
      exact ⟨k, m, hquery.1.1, hget, htarget, hlifted, Or.inr ⟨hquery.1.2, hquery.2⟩⟩
  · rintro ⟨k, m, hk, hget, htarget, hlifted, hban | ⟨hrestriction, hlater⟩⟩
    · exact Or.inl ⟨k, m, hget, htarget, hlifted, by simp [hk, hban]⟩
    · refine Or.inr ⟨k, m, hget, htarget, hlifted, ?_⟩
      rw [Bool.and_eq_true, Bool.and_eq_true, bne_iff_ne, expiry_query]
      exact ⟨⟨hk, hrestriction⟩, hlater⟩

theorem inForce_stamp {s' : State} {t : Nat} (hclock : s'.clock = s.clock)
    (hactions : s'.actions = s.actions.modify id fun m => { m with liftedAt := some t }) :
    InForce s' u ↔ HeldElsewhere s id u := by
  unfold InForce HeldElsewhere
  rw [hclock, hactions]
  constructor
  · rintro ⟨k, m, hget, htarget, hholds⟩
    rw [Table.get?_modify] at hget
    by_cases hk : k = id
    · rw [if_pos hk] at hget
      obtain ⟨old, -, rfl⟩ := Option.map_eq_some_iff.mp hget
      exact absurd hholds.1 (by simp)
    · rw [if_neg hk] at hget
      exact ⟨k, m, hk, hget, htarget, hholds⟩
  · rintro ⟨k, m, hk, hget, htarget, hholds⟩
    refine ⟨k, m, ?_, htarget, hholds⟩
    rw [Table.get?_modify, if_neg hk]
    exact hget

theorem inForce_of_not_holds {m : ModerationAction}
    (hget : s.actions.get? id = some m) (hm : ¬ m.Holds s.clock) :
    InForce s u ↔ HeldElsewhere s id u := by
  constructor
  · rintro ⟨k, m', hget', htarget, hholds⟩
    refine ⟨k, m', ?_, hget', htarget, hholds⟩
    rintro rfl
    rw [hget, Option.some.injEq] at hget'
    exact hm (hget' ▸ hholds)
  · rintro ⟨k, m', -, hget', htarget, hholds⟩
    exact ⟨k, m', hget', htarget, hholds⟩

theorem HeldElsewhere.inForce (h : HeldElsewhere s id u) :
    InForce s u := by
  obtain ⟨k, m, -, hget, htarget, hholds⟩ := h
  exact ⟨k, m, hget, htarget, hholds⟩

theorem inForce_of_frame {s' : State} (hclock : s'.clock = s.clock)
    (hactions : s'.actions = s.actions ∨
      ∃ id t, s'.actions = s.actions.modify id fun m => { m with liftedAt := some t })
    (h : InForce s' u) : InForce s u := by
  rcases hactions with hsame | ⟨id, t, hstamp⟩
  · unfold InForce at h ⊢
    rwa [hsame, hclock] at h
  · exact ((inForce_stamp hclock hstamp).mp h).inForce

/-- After the reversal of a sanction on an account, the sanctions in force on it are those in
force elsewhere before. -/
theorem inForce_reverse {action : ModerationAction} {row : User}
    (hget : s.actions.get? id = some action) (htarget : action.target = .user u)
    (hsanction : action.action.isAccountSanction = true) (hrow : s.users u = some row) :
    InForce (reverse id action s).1 u ↔ HeldElsewhere s id u := by
  have hactions : (reverse id action s).1.actions = (stampReversed id action s).actions := by
    simp only [reverse, htarget, hrow, if_pos hsanction]
    unfold reverseSanction
    simp only
    split <;> rfl
  have hclock : (reverse id action s).1.clock = s.clock := (reverse_frame id action s).1
  unfold stampReversed at hactions
  cases hlifted : action.liftedAt with
  | none =>
    rw [hlifted] at hactions
    exact inForce_stamp hclock hactions
  | some =>
    -- A lifted action does not hold, and the reversal leaves the rows alone.
    simp only [hlifted, Option.isNone_some, Bool.false_eq_true,
      if_false] at hactions
    rw [← inForce_of_not_holds hget fun hm => absurd (hlifted.symm.trans hm.1) (by simp)]
    unfold InForce
    rw [hactions, hclock]

/-! ### No account is active under a sanction -/

/-- An account with a sanction in force is not active. -/
def HeldInactive (s : State) : Prop := ∀ u, InForce s u → s.active u ≠ some true

/-- An activation by a map over the flag: if the flag is up afterwards and was not up before,
the condition held. -/
private theorem map_true_ne {flag : Option Bool} {c : Prop} [Decidable c]
    (hbefore : flag ≠ some true) (hc : ¬ c) :
    (if c then flag.map fun _ => true else flag) ≠ some true := by
  rw [if_neg hc]
  exact hbefore

/-- A recorded action whose effect is applied keeps accounts under a sanction inactive: a new
sanction deactivates its own account, and a new row ends no other sanction. -/
theorem heldInactive_record {record : ModerationAction} {target : Target}
    (htarget : record.target = target) (h : HeldInactive s) :
    HeldInactive (applyEffect record.action target { s with actions := s.actions.insert record }) := by
  rintro u ⟨k, m, hget, htargetm, hholds⟩
  have hframe := applyEffect_frame record.action target
    { s with actions := s.actions.insert record }
  rw [hframe.actions, Table.get?_insert] at hget
  rw [hframe.clock] at hholds
  rw [active_applyEffect]
  by_cases hk : k = s.actions.next
  · -- The sanction is the new one, so its account has just been deactivated.
    rw [if_pos hk, Option.some.injEq] at hget
    subst hget
    have hsanction : record.action.isAccountSanction = true := by
      rcases hholds.2 with hban | ⟨hrestriction, -⟩
      · rw [hban]
        rfl
      · unfold Action.isTimedRestriction at hrestriction
        unfold Action.isAccountSanction
        rw [hrestriction, Bool.true_or]
    rw [if_pos ⟨htarget ▸ htargetm, hsanction⟩]
    simp
  · rw [if_neg hk] at hget
    have hbefore : s.active u ≠ some true := h u ⟨k, m, hget, htargetm, hholds⟩
    split
    · simp
    · exact hbefore

theorem heldInactive_liftOne (h : HeldInactive s) :
    HeldInactive (liftOne id s).1 := by
  intro u hforce
  obtain ⟨hclock, hactions⟩ := liftOne_frame id s
  have hold : InForce s u := inForce_of_frame hclock
    (hactions.imp_right fun hstamp => ⟨_, _, hstamp⟩) hforce
  by_cases hun : ∃ m, s.actions.get? id = some m ∧ m.liftedAt = none
  · obtain ⟨m, hget, hlifted⟩ := hun
    rw [liftOne_of_unlifted hget hlifted]
    show (reactivateExpired m.target s).1.active u ≠ some true
    rw [active_reactivateExpired]
    refine map_true_ne (h u hold) ?_
    rintro ⟨htarget, hblocked⟩
    rw [htarget, blocked_iff.mpr hold] at hblocked
    cases hblocked
  · rw [liftOne_of_lifted fun m hm hnone => hun ⟨m, hm, hnone⟩]
    exact h u hold

theorem heldInactive_reverse {action : ModerationAction}
    (haction : s.actions.get? id = some action) (h : HeldInactive s) :
    HeldInactive (reverse id action s).1 := by
  intro u hforce
  obtain ⟨hclock, -, hactions⟩ := reverse_frame id action s
  have hold : InForce s u := inForce_of_frame hclock
    (hactions.imp_right fun hstamp => ⟨_, _, hstamp⟩) hforce
  rw [active_reverse]
  by_cases hcond : action.target = .user u ∧ action.action.isAccountSanction = true ∧
      otherBan id action.target s = false ∧ otherTimed id action.target s = false
  · rw [if_pos hcond]
    obtain ⟨htarget, hsanction, hothers⟩ := hcond
    rw [htarget] at hothers
    cases hrow : s.users u with
    | none => simp [State.active, hrow]
    | some =>
      exact absurd ((inForce_reverse haction htarget hsanction hrow).mp hforce)
        (others_iff.mp hothers)
  · rw [if_neg hcond]
    exact h u hold

theorem step_heldInactive (s : State) (op : Op) (h : HeldInactive s) :
    HeldInactive (step s op) := by
  generalize hs' : step s op = s'
  intro u
  cases hs' ▸ step_change s op with
  | advance d =>
    rintro ⟨k, m, hget, htarget, hlifted, hholds⟩
    -- A restriction that is in force later was in force before.
    refine h u ⟨k, m, hget, htarget, hlifted, hholds.imp_right fun ⟨hrestriction, hlater⟩ =>
      ⟨hrestriction, fun e he => ?_⟩⟩
    have hlt : s.clock + d < e := hlater e he
    omega
  | deactivate v =>
    intro hforce
    have hframe := setActive_frame v false s
    have hold : InForce s u := inForce_of_frame hframe.clock (Or.inl hframe.actions) hforce
    rw [active_setActive]
    split
    · simp
    · exact h u hold
  | takeAction _ target _ _ _ record event htarget =>
    exact heldInactive_record htarget h u
  | sweepRow =>
    exact heldInactive_liftOne h u
  | grant _ _ _ _ appeal action appeals event _ haction =>
    exact heldInactive_reverse haction h u
  | _ => exact h u

/-! ### The last sanction -/

/-- The operation ends a sanction on an existing account: it is a sweep row whose candidate is
un-lifted, or a granted appeal that commits. -/
def EndsSanction (s : State) (u : Nat) : Op → Prop
  | .sweepRow i => ∃ now id pending count m, s.sweeps[i]? = some ⟨now, id :: pending, count⟩ ∧
      s.actions.get? id = some m ∧ m.liftedAt = none ∧ m.target = .user u ∧ s.active u ≠ none
  | .resolveAppeal a id true notes fails => ∃ appeal m result,
      s.appeals.get? id = some appeal ∧ s.actions.get? appeal.action = some m ∧
      m.target = .user u ∧ m.action.isAccountSanction = true ∧ s.active u ≠ none ∧
      resolveAppeal a id true notes fails s = .ok result
  | _ => False

/-- An operation that ends a sanction on an account, and leaves none in force, leaves the
account active. -/
theorem endsSanction_active {op : Op} (hvalid : SweepsValid s)
    (hends : EndsSanction s u op) (hlast : ¬ InForce (step s op) u) :
    (step s op).active u = some true := by
  cases op with
  | sweepRow i =>
    obtain ⟨now, id, pending, count, m, hsweep, hget, hlifted, htarget, hexists⟩ := hends
    obtain ⟨m', e, hget', hrestriction, hexpires, hle⟩ :=
      (hvalid _ (List.mem_of_getElem? hsweep)).2 id List.mem_cons_self
    have hnow : now ≤ s.clock := (hvalid _ (List.mem_of_getElem? hsweep)).1
    rw [hget, Option.some.injEq] at hget'
    subst hget'
    -- The candidate has expired, so what blocks the account is in force elsewhere.
    have hnot : ¬ m.Holds s.clock := by
      rintro ⟨-, hban | ⟨-, hlater⟩⟩
      · rw [hban] at hrestriction
        cases hrestriction
      · have hlt := hlater e hexpires
        change e ≤ now at hle
        omega
    simp only [step, sweepRow, sweepWith, hsweep] at hlast ⊢
    change ¬ InForce (liftOne id s).1 u at hlast
    show (liftOne id s).1.active u = some true
    rw [liftOne_of_unlifted hget hlifted] at hlast ⊢
    obtain ⟨hframe, _⟩ := reactivateExpired_frame m.target s
    have helsewhere : InForce ((reactivateExpired m.target s).1.setLifted id s.clock) u ↔
        HeldElsewhere s id u := by
      refine inForce_stamp hframe.clock (t := s.clock) ?_
      simp only [State.setLifted, hframe.actions]
    have hblocked : blocked (.user u) s = false := by
      rw [← Bool.not_eq_true, blocked_iff, inForce_of_not_holds hget hnot, ← helsewhere]
      exact hlast
    show (reactivateExpired m.target s).1.active u = some true
    rw [active_reactivateExpired, htarget, if_pos ⟨rfl, hblocked⟩]
    obtain ⟨b, hb⟩ := Option.ne_none_iff_exists'.mp hexists
    rw [hb]
    rfl
  | resolveAppeal a id grant notes fails =>
    cases grant with
    | false => exact absurd hends fun h => h
    | true =>
      obtain ⟨appeal, m, result, happeal, haction, htarget, hsanction, hexists, hok⟩ := hends
      obtain ⟨appeal', m', happeal', -, haction', mid, appeals, event, hmid, hs'⟩ :=
        resolveAppeal_ok (show resolveAppeal a id true notes fails s = .ok (result.1, result.2)
          from hok)
      rw [happeal, Option.some.injEq] at happeal'
      subst happeal'
      rw [haction, Option.some.injEq] at haction'
      subst haction'
      have hstep : step s (.resolveAppeal a id true notes fails)
          = { (reverse appeal.action m s).1 with appeals := appeals, audit := event } := by
        simp only [step, hok, Except.map, commit, hs', hmid, if_true]
      rw [hstep] at hlast ⊢
      change ¬ InForce (reverse appeal.action m s).1 u at hlast
      show (reverse appeal.action m s).1.active u = some true
      obtain ⟨row, hrow⟩ : ∃ row, s.users u = some row := by
        cases hrow : s.users u with
        | none => exact absurd (by simp [State.active, hrow]) hexists
        | some row => exact ⟨row, rfl⟩
      rw [inForce_reverse haction htarget hsanction hrow, ← others_iff] at hlast
      rw [active_reverse, htarget, if_pos ⟨rfl, hsanction, hlast⟩, State.active, hrow]
      rfl
  | _ => exact absurd hends fun h => h

/-! ### Runs -/

/-- The two invariants of a run. -/
def Consistent (s : State) : Prop := SweepsValid s ∧ HeldInactive s

theorem step_consistent (s : State) (op : Op) (h : Consistent s) : Consistent (step s op) :=
  ⟨step_sweepsValid s op h.1, step_heldInactive s op h.2⟩

theorem start_consistent (users : Nat → Option User) (authors : ContentRef → Option Nat)
    (owners : String → Nat → Option Nat) (clock : Nat) :
    Consistent (State.start users authors owners clock) := by
  refine ⟨start_sweepsValid users authors owners clock, ?_⟩
  rintro u ⟨k, m, hget, -⟩
  cases hget

/-- In every run, from any accounts, and for every operation after it:

- an account with a sanction in force is not active;
- an account that the operation re-activates has no sanction in force afterwards;
- if the operation ends a sanction on an account and leaves none in force, the account is active
  afterwards. -/
theorem sanctions_exact (users : Nat → Option User) (authors : ContentRef → Option Nat)
    (owners : String → Nat → Option Nat) (clock : Nat) (ops : List Op) (op : Op) (u : Nat) :
    let s := run step (State.start users authors owners clock) ops
    (InForce s u → s.active u ≠ some true) ∧
    (s.active u = some false → (step s op).active u = some true → ¬ InForce (step s op) u) ∧
    (EndsSanction s u op → ¬ InForce (step s op) u → (step s op).active u = some true) := by
  intro s
  have hconsistent : Consistent s :=
    run_invariant step_consistent (start_consistent users authors owners clock) ops
  refine ⟨hconsistent.2 u, fun _ hactive hforce => ?_, endsSanction_active hconsistent.1⟩
  exact step_heldInactive s op hconsistent.2 u hforce hactive

/-- Two suspensions on one account: a sweep at the expiry of the first leaves the account
inactive, and a sweep at the expiry of the second activates it. -/
example :
    let moderator : Actor := ⟨9, true, true, false, ""⟩
    let start := State.start (fun u => if u = 1 then some ⟨true⟩ else none) (fun _ => none)
      (fun _ _ => none) 0
    let first := run step start
      [.takeAction moderator (.user 1) ⟨"suspend", "spam", "", 1⟩ 0 false,
       .takeAction moderator (.user 1) ⟨"timed_ban", "spam", "", 2⟩ 0 false,
       .advance day, .startSweep, .sweepRow 0]
    first.active 1 = some false ∧
      (run step first [.advance day, .startSweep, .sweepRow 1]).active 1 = some true := by
  decide

end SocialActivities.Safety.Go
