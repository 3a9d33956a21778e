import SocialActivities.Lib.Machine
import SocialActivities.Safety.Rows

/-!
# `SocialActivities.Safety.GoModeration`: moderation actions, sweeps and appeals (Go)

The operations of `services/server/internal/safety`: `TakeAction`, `FileAppeal`,
`ResolveAppeal` with `reverse`, and `LiftSuspensions`. An operation is one transaction, so an
error leaves the state as it was. The argument `fails` stands for the calls of a transaction
that this model leaves out (the report row, messaging, audit and guardian notices): when one of
them returns an error, the transaction is rolled back.

A sweep lists its candidates once and then takes one transaction for each. `sweepRow` is the
transaction of the next candidate, which reads the clock itself; `sweepSkip` is a candidate
whose row another transaction has locked (`SKIP LOCKED`); `sweepFail` is a transaction that
fails, which ends the sweep. `deactivate` is any other part of the program that deactivates an
account.

`step_change` says once what a step can do; later proofs read a step through it.
-/

namespace SocialActivities.Safety.Go

open Lib

/-- The errors of the operations. -/
inductive Error where
  | errForbidden
  | errInvalid
  | errNotFound
  | errConflict
  | errRate
  | errNoRows
  | failed
  deriving DecidableEq

structure Actor where
  id : Nat
  isActive : Bool
  isStaff : Bool
  isSuperuser : Bool
  role : String
  deriving DecidableEq

def Actor.moderator (a : Actor) : Bool :=
  a.isActive && (a.isStaff || a.isSuperuser || a.role == "moderator" || a.role == "admin")

/-- The keys of `actions`. -/
def parseAction (decision : String) : Option Action :=
  [Action.warn, .remove, .suspend, .timedBan, .ban].find? fun a => a.value == decision

/-- The keys of `reasons`. -/
def parseReason (reason : String) : Option ReasonCode :=
  [ReasonCode.grooming, .harassment, .csam, .spam, .offPlatform, .other].find? fun r =>
    r.value == reason

structure ActionInput where
  decision : String
  reason : String
  notes : String
  suspendDays : Int
  deriving DecidableEq

/-- One day of the clock, which counts microseconds. -/
def day : Nat := 24 * 60 * 60 * 1000000

/-- The content types that `ResolveTarget` knows, besides accounts and hidable content. -/
def otherModels : List String := ["messaging.message", "booking.booking", "social.membership"]

/-- `ResolveTarget`: the user that an action on the target affects. -/
def resolveTarget (target : Target) (s : State) : Except Error Nat :=
  match target with
  | .other label id =>
    if otherModels.contains label then
      match s.owners label id with
      | some affected => .ok affected
      | none => .error .errNoRows
    else .error .errNotFound
  | _ =>
    match s.affectedUser target with
    | some affected => .ok affected
    | none => .error .errNoRows

/-! ### `TakeAction` -/

/-- `UPDATE accounts_user SET is_active=...`: no row, no effect. -/
def setActive (u : Nat) (isActive : Bool) (s : State) : State :=
  match s.users u with
  | some row => s.setUser u { row with isActive }
  | none => s

/-- `UPDATE social_... SET is_hidden=...`: no row, no effect. -/
def setHidden (c : ContentRef) (isHidden : Bool) (s : State) : State :=
  match s.contents c with
  | some row => s.setContent c { row with isHidden }
  | none => s

/-- The effect of an action on its target. -/
def applyEffect (action : Action) (target : Target) (s : State) : State :=
  match target with
  | .user u => if action.isAccountSanction then setActive u false s else s
  | .content c => if action == .remove then setHidden c true s else s
  | .other _ _ => s

/-- The expiry of a new action: only a suspension or a timed ban of at least a day has one. -/
def expiry (action : Action) (days : Int) (now : Nat) : Option Nat :=
  if action.isTimedRestriction && decide (0 < days) then some (now + days.toNat * day) else none

/-- The action row that `TakeAction` inserts. -/
def newAction (a : Actor) (target : Target) (input : ActionInput) (action : Action)
    (reason : ReasonCode) (report now : Nat) : ModerationAction :=
  { moderator := a.id, target, action, reason, notes := input.notes,
    report := if 0 < report then some report else none,
    expiresAt := expiry action input.suspendDays now, liftedAt := none, createdAt := now }

def takeAction (a : Actor) (target : Target) (input : ActionInput) (report : Nat)
    (fails : Bool) (s : State) : Except Error State :=
  if !a.moderator then .error .errForbidden
  else
    match parseAction input.decision, parseReason input.reason with
    | some action, some reason =>
      -- Zero days is a suspension without an end; a timed ban needs a day.
      if input.suspendDays < 0 || 36500 < input.suspendDays
          || action == .timedBan && input.suspendDays < 1 then .error .errInvalid
      else if fails then .error .failed
      else
        let record := newAction a target input action reason report s.clock
        .ok ((applyEffect action target { s with actions := s.actions.insert record }).recordAudit
          "moderation.action" (some a.id) target.ref
          [("action", .text input.decision), ("reason", .text input.reason)])
    | _, _ => .error .errInvalid

/-! ### `LiftSuspensions` -/

/-- The `blocked` query of a sweep row: an un-lifted lifetime ban, or an un-lifted timed
restriction with no expiry or a later one. -/
def blocked (target : Target) (s : State) : Bool :=
  s.unliftedOn target fun _ m => m.action == .ban || (m.action.isTimedRestriction &&
    (m.expiresAt.isNone || m.expiresAt.any fun e => decide (s.clock < e)))

/-- The account side of a sweep row. The result names the account that it reactivated. -/
def reactivateExpired (target : Target) (s : State) : State × Option Nat :=
  match target with
  | .user u =>
    match s.users u with
    | some row =>
      -- The candidate is among the rows read, but its own expiry has passed.
      if !blocked target s && !row.isActive then
        ((s.setUser u { row with isActive := true }).recordAudit
          "moderation.suspension_lifted" none target.ref [], some u)
      else (s, none)
    | none => (s, none)
  | _ => (s, none)

/-- The transaction of one candidate, which reads the clock itself. -/
def liftOne (id : Nat) (s : State) : State × Option Nat :=
  liftWith reactivateExpired s.clock id s

def sweepRow (i : Nat) (s : State) : State := sweepWith (fun _ => liftOne) i s

/-- The transaction of the next candidate fails: it is rolled back and the sweep returns. -/
def sweepFail (i : Nat) (s : State) : State :=
  { s with sweeps := s.sweeps.eraseIdx i }

/-! ### `FileAppeal` and `ResolveAppeal` -/

def isSpace (c : Char) : Bool :=
  let n := c.toNat
  (9 ≤ n && n ≤ 13) || n == 32 || n == 0x85 || n == 0xA0 || n == 0x1680
    || (0x2000 ≤ n && n ≤ 0x200A) || n == 0x2028 || n == 0x2029 || n == 0x202F
    || n == 0x205F || n == 0x3000

def trimSpace (text : String) : List Char :=
  ((text.toList.dropWhile isSpace).reverse.dropWhile isSpace).reverse

/-- `FileAppeal`. `allowed` is the answer of the rate limiter. -/
def fileAppeal (a : Actor) (action : Nat) (statement : String) (allowed fails : Bool)
    (s : State) : Except Error State :=
  let statement := trimSpace statement
  -- A statement that is too long is refused, not cut.
  if statement.isEmpty || 2000 < statement.length then .error .errInvalid
  else
    match s.actions.get? action with
    | none => .error .errNoRows
    | some row =>
      match resolveTarget row.target s with
      | .error e => .error e
      | .ok affected =>
        if affected ≠ a.id then .error .errNotFound
        -- The limiter is outside the transaction, so a try counts even when the rest fails.
        else if !allowed then .error .errRate
        else if s.appeals.any fun _ appeal => appeal.action == action then .error .errConflict
        else if fails then .error .failed
        else
          let appeal : ModerationAppeal :=
            { action, appellant := a.id, statement := String.ofList statement,
              status := .pending, decidedBy := none, decisionNotes := "", decidedAt := none,
              createdAt := s.clock }
          .ok ({ s with appeals := s.appeals.insert appeal }.recordAudit
            "moderation.appeal_filed" (some a.id)
            ("safety.moderationaction:" ++ toString action) [])

/-- The content branch of `reverse`. -/
def reverseRemove (id : Nat) (action : ModerationAction) (c : ContentRef) (row : Content)
    (s : State) : State × Reversal :=
  let held := otherRemove id action.target s
  let s := stampReversed id action s
  if !held && row.isHidden then
    -- Only posts have an author's stamp.
    if c.kind == .post && row.isAuthorDeleted then
      (s.recordAudit "moderation.reversal_left_hidden" none action.target.ref
        [("action_id", .number id), ("reason", .text "author_deleted")], ⟨false, true⟩)
    else (s.setContent c { row with isHidden := false }, ⟨false, false⟩)
  else (s, ⟨false, false⟩)

/-- `reverse`. A target that no longer exists leaves the action as it is. -/
def reverse (id : Nat) (action : ModerationAction) (s : State) : State × Reversal :=
  match action.target with
  | .user u =>
    match s.users u with
    | none => (s, ⟨false, false⟩)
    | some row =>
      if action.action.isAccountSanction then reverseSanction id action u row s
      else (s, ⟨false, false⟩)
  | .content c =>
    match s.contents c with
    | none => (s, ⟨false, false⟩)
    | some row =>
      if action.action = .remove then reverseRemove id action c row s
      else (s, ⟨false, false⟩)
  | .other _ _ => (s, ⟨false, false⟩)

def resolveAppeal (a : Actor) (id : Nat) (grant : Bool) (notes : String) (fails : Bool)
    (s : State) : Except Error (State × Reversal) :=
  if !a.moderator then .error .errForbidden
  else
    match s.appeals.get? id with
    | none => .error .errNoRows
    | some appeal =>
      if appeal.status ≠ .pending then .error .errConflict
      else
        match s.actions.get? appeal.action with
        | none => .error .errNoRows
        | some action =>
          -- A target that is gone is no obstacle; one whose type is not known is.
          if resolveTarget action.target s = .error .errNotFound then .error .errNotFound
          else if fails then .error .failed
          else
            let (s', outcome) :=
              if grant then reverse appeal.action action s else (s, ⟨false, false⟩)
            .ok ({ s' with
                appeals := s'.appeals.modify id (decided a.id s.clock grant notes) }.recordAudit
              "moderation.appeal_resolved" (some a.id)
              ("safety.moderationaction:" ++ toString appeal.action)
              [("granted", .flag grant)], outcome)

/-! ### The machine -/

/-- One transaction, or one tick of the clock. -/
inductive Op where
  | advance (d : Nat)
  | deactivate (u : Nat)
  | takeAction (a : Actor) (target : Target) (input : ActionInput) (report : Nat)
      (fails : Bool)
  | startSweep
  | sweepRow (i : Nat)
  | sweepSkip (i : Nat)
  | sweepFail (i : Nat)
  | fileAppeal (a : Actor) (action : Nat) (statement : String) (allowed fails : Bool)
  | resolveAppeal (a : Actor) (appeal : Nat) (grant : Bool) (notes : String) (fails : Bool)

/-- The state after one operation. -/
def step (s : State) : Op → State
  | .advance d => { s with clock := s.clock + d }
  | .deactivate u => setActive u false s
  | .takeAction a target input report fails => commit s (takeAction a target input report fails s)
  | .startSweep => startSweep s
  | .sweepRow i => sweepRow i s
  | .sweepSkip i => sweepSkip i s
  | .sweepFail i => sweepFail i s
  | .fileAppeal a action statement allowed fails =>
    commit s (fileAppeal a action statement allowed fails s)
  | .resolveAppeal a appeal grant notes fails =>
    commit s ((resolveAppeal a appeal grant notes fails s).map Prod.fst)

/-! ### What a step can do -/

theorem active_setActive (u : Nat) (isActive : Bool) (s : State) (v : Nat) :
    (setActive u isActive s).active v
      = if v = u then (s.active v).map fun _ => isActive else s.active v := by
  unfold setActive
  cases hrow : s.users u with
  | none =>
    by_cases hv : v = u
    · subst hv
      simp [State.active, hrow]
    · rw [if_neg hv]
  | some =>
    simp only [active_setUser]
    by_cases hv : v = u
    · subst hv
      simp [State.active, hrow]
    · rw [if_neg hv, if_neg hv]

theorem setActive_frame (u : Nat) (isActive : Bool) (s : State) :
    Frame s (setActive u isActive s) := by
  unfold setActive
  split <;> exact ⟨rfl, rfl, rfl, rfl⟩

theorem setHidden_frame (c : ContentRef) (isHidden : Bool) (s : State) :
    Frame s (setHidden c isHidden s) ∧ (setHidden c isHidden s).users = s.users := by
  unfold setHidden
  split <;> exact ⟨⟨rfl, rfl, rfl, rfl⟩, rfl⟩

theorem applyEffect_frame (action : Action) (target : Target) (s : State) :
    Frame s (applyEffect action target s) := by
  cases target with
  | user u =>
    simp only [applyEffect]
    split
    · exact setActive_frame u false s
    · exact ⟨rfl, rfl, rfl, rfl⟩
  | content c =>
    simp only [applyEffect]
    split
    · exact (setHidden_frame c true s).1
    · exact ⟨rfl, rfl, rfl, rfl⟩
  | other => exact ⟨rfl, rfl, rfl, rfl⟩

theorem active_applyEffect (action : Action) (target : Target) (s : State) (v : Nat) :
    (applyEffect action target s).active v
      = if target = .user v ∧ action.isAccountSanction = true
          then (s.active v).map fun _ => false else s.active v := by
  cases target with
  | user u =>
    by_cases hsanction : action.isAccountSanction = true
    · simp only [applyEffect, if_pos hsanction, active_setActive]
      by_cases hv : v = u
      · subst hv
        rw [if_pos rfl, if_pos ⟨rfl, hsanction⟩]
      · rw [if_neg hv, if_neg]
        rintro ⟨huv, -⟩
        exact hv (Target.user.inj huv).symm
    · simp only [applyEffect, if_neg hsanction]
      rw [if_neg fun h => hsanction h.2]
  | content c =>
    rw [if_neg (by simp)]
    simp only [applyEffect]
    split
    · rw [State.active, (setHidden_frame c true s).2]
      rfl
    · rfl
  | other => simp [applyEffect]

variable {fails : Bool} {a : Actor} {s' s : State}

theorem takeAction_ok {target : Target} {input : ActionInput} {report : Nat}
    (h : takeAction a target input report fails s = .ok s') :
    ∃ record event, record.target = target ∧ record.liftedAt = none ∧
      s' = { applyEffect record.action target { s with actions := s.actions.insert record } with
        audit := event } := by
  unfold takeAction at h
  split at h
  · cases h
  split at h
  case h_2 => cases h
  case h_1 action reason _ _ =>
    split at h
    · cases h
    split at h
    · cases h
    · refine ⟨newAction a target input action reason report s.clock, s'.audit, rfl, rfl, ?_⟩
      rw [← Except.ok.inj h]
      rfl

/-! #### Sweep rows -/

theorem reactivateExpired_frame (target : Target) (s : State) :
    Frame s (reactivateExpired target s).1 ∧
      (reactivateExpired target s).1.contents = s.contents := by
  unfold reactivateExpired
  repeat' split
  all_goals exact ⟨⟨rfl, rfl, rfl, rfl⟩, rfl⟩

theorem active_reactivateExpired (target : Target) (s : State) (v : Nat) :
    (reactivateExpired target s).1.active v
      = if target = .user v ∧ blocked target s = false
          then (s.active v).map fun _ => true else s.active v := by
  cases target with
  | user u =>
    cases hrow : s.users u with
    | none =>
      simp only [reactivateExpired, hrow]
      by_cases hv : u = v
      · subst hv
        simp [State.active, hrow]
      · rw [if_neg fun h => hv (Target.user.inj h.1)]
    | some row =>
      have hactive : s.active u = some row.isActive := by rw [State.active, hrow]; rfl
      simp only [reactivateExpired, hrow]
      by_cases hcond : (!blocked (.user u) s && !row.isActive) = true
      · rw [if_pos hcond]
        show (s.setUser u _).active v = _
        rw [active_setUser]
        simp only [Bool.and_eq_true, Bool.not_eq_true'] at hcond
        by_cases hv : v = u
        · subst hv
          rw [if_pos rfl, if_pos ⟨rfl, hcond.1⟩, hactive]
          rfl
        · rw [if_neg hv, if_neg fun h => hv (Target.user.inj h.1).symm]
      · rw [if_neg hcond]
        show s.active v = _
        -- Blocked, or active already: then the write would change nothing.
        by_cases hv : Target.user u = .user v ∧ blocked (.user u) s = false
        · rw [if_pos hv, ← Target.user.inj hv.1, hactive]
          simp only [hv.2, Bool.not_false, Bool.true_and, Bool.not_eq_true'] at hcond
          simpa using hcond
        · rw [if_neg hv]
  | content | other => simp [reactivateExpired]

variable {id : Nat}

theorem liftOne_of_lifted {s : State}
    (h : ∀ m, s.actions.get? id = some m → m.liftedAt ≠ none) : liftOne id s = (s, none) :=
  liftWith_of_lifted h

theorem liftOne_of_unlifted {m : ModerationAction}
    (hget : s.actions.get? id = some m) (hlifted : m.liftedAt = none) :
    liftOne id s = ((reactivateExpired m.target s).1.setLifted id s.clock,
      (reactivateExpired m.target s).2) :=
  liftWith_of_unlifted hget hlifted

theorem liftOne_frame (id : Nat) (s : State) :
    (liftOne id s).1.clock = s.clock ∧ ((liftOne id s).1.actions = s.actions ∨
      (liftOne id s).1.actions
        = s.actions.modify id fun m => { m with liftedAt := some s.clock }) :=
  have ⟨hclock, _, _, hactions⟩ :=
    liftWith_frame s.clock id s fun target => reactivateExpired_frame target s
  ⟨hclock, hactions⟩

/-! #### Reversals -/

theorem reverse_frame (id : Nat) (action : ModerationAction) (s : State) :
    (reverse id action s).1.clock = s.clock ∧ (reverse id action s).1.sweeps = s.sweeps ∧
      ((reverse id action s).1.actions = s.actions ∨ (reverse id action s).1.actions
        = s.actions.modify id fun m => { m with liftedAt := some s.clock }) := by
  obtain ⟨hclock, -, hsweeps, -, -, hactions⟩ := stampReversed_frame id action s
  unfold reverse
  split
  · split
    · exact ⟨rfl, rfl, Or.inl rfl⟩
    · split
      · unfold reverseSanction
        simp only
        split <;> exact ⟨hclock, hsweeps, hactions⟩
      · exact ⟨rfl, rfl, Or.inl rfl⟩
  · split
    · exact ⟨rfl, rfl, Or.inl rfl⟩
    · split
      · unfold reverseRemove
        simp only
        repeat' split
        all_goals exact ⟨hclock, hsweeps, hactions⟩
      · exact ⟨rfl, rfl, Or.inl rfl⟩
  · exact ⟨rfl, rfl, Or.inl rfl⟩

/-- The account flag after a reversal: it goes up when the action is a sanction on the account
and no other sanction is in force on it. -/
theorem active_reverse (id : Nat) (action : ModerationAction) (s : State) (v : Nat) :
    (reverse id action s).1.active v
      = if action.target = .user v ∧ action.action.isAccountSanction = true ∧
          otherBan id action.target s = false ∧ otherTimed id action.target s = false
          then (s.active v).map fun _ => true else s.active v := by
  have hstamp : ∀ v, (stampReversed id action s).active v = s.active v := by
    intro v
    rw [State.active, (stampReversed_frame id action s).2.2.2.1]
    rfl
  cases htarget : action.target with
  | user u =>
    cases hrow : s.users u with
    | none =>
      simp only [reverse, htarget, hrow]
      by_cases hv : u = v
      · subst hv
        simp [State.active, hrow]
      · rw [if_neg fun h => hv (Target.user.inj h.1)]
    | some row =>
      have hactive : s.active u = some row.isActive := by rw [State.active, hrow]; rfl
      simp only [reverse, htarget, hrow]
      by_cases hsanction : action.action.isAccountSanction = true
      · rw [if_pos hsanction]
        unfold reverseSanction
        simp only [htarget]
        by_cases hcond : (!(otherBan id (.user u) s || otherTimed id (.user u) s)
            && !row.isActive) = true
        · rw [if_pos hcond]
          simp only [Bool.and_eq_true, Bool.not_eq_true', Bool.or_eq_false_iff] at hcond
          show (State.setUser _ u _).active v = _
          rw [active_setUser, hstamp]
          by_cases hv : v = u
          · subst hv
            rw [if_pos rfl, if_pos ⟨rfl, hsanction, hcond.1.1, hcond.1.2⟩, hactive]
            rfl
          · rw [if_neg hv, if_neg fun h => hv (Target.user.inj h.1).symm]
        · rw [if_neg hcond, hstamp]
          -- Not re-activated: another sanction holds the account, or it was active already.
          by_cases hv : Target.user u = .user v ∧ action.action.isAccountSanction = true ∧
              otherBan id (.user u) s = false ∧ otherTimed id (.user u) s = false
          · rw [if_pos hv, ← Target.user.inj hv.1, hactive]
            simp only [hv.2.2.1, hv.2.2.2, Bool.or_self, Bool.not_false, Bool.true_and,
              Bool.not_eq_true'] at hcond
            simpa using hcond
          · rw [if_neg hv]
      · rw [if_neg hsanction, if_neg fun h => hsanction h.2.1]
  | content =>
    rw [if_neg (by simp)]
    simp only [reverse, htarget]
    split
    · rfl
    · split
      · unfold reverseRemove
        simp only
        repeat' split
        all_goals exact hstamp v
      · rfl
  | other =>
    simp only [reverse, htarget]
    rw [if_neg (by simp)]

/-- A resolution decides a pending appeal, and reverses its action if it is granted. -/
theorem resolveAppeal_ok {grant : Bool} {notes : String} {outcome : Reversal}
    (h : resolveAppeal a id grant notes fails s = .ok (s', outcome)) :
    ∃ appeal action, s.appeals.get? id = some appeal ∧ appeal.status = .pending ∧
      s.actions.get? appeal.action = some action ∧
      ∃ mid appeals event, mid = (if grant then (reverse appeal.action action s).1 else s) ∧
        s' = { mid with appeals := appeals, audit := event } := by
  unfold resolveAppeal at h
  cases hget : s.appeals.get? id with
  | none =>
    simp only [hget] at h
    split at h <;> cases h
  | some appeal =>
    simp only [hget] at h
    split at h
    · cases h
    by_cases hpending : appeal.status = .pending
    · cases haction : s.actions.get? appeal.action with
      | none => simp [hpending, haction] at h
      | some action =>
        -- The reversal runs on the rows before the appeal is stamped; it reads no appeal.
        refine ⟨appeal, action, rfl, hpending, haction, ?_⟩
        simp only [hpending, haction, ne_eq, not_true_eq_false, if_false] at h
        split at h
        · cases h
        split at h
        · cases h
        refine ⟨_, s'.appeals, s'.audit, rfl, ?_⟩
        rw [← (Prod.mk.inj (Except.ok.inj h)).1]
        cases grant <;> rfl
    · simp [hpending] at h

theorem fileAppeal_ok {action : Nat} {statement : String} {allowed : Bool}
    (h : fileAppeal a action statement allowed fails s = .ok s') :
    ∃ appeal event, s' = { s with appeals := s.appeals.insert appeal, audit := event } := by
  unfold fileAppeal at h
  simp only at h
  split at h
  · cases h
  split at h
  · cases h
  split at h
  · cases h
  repeat' split at h
  case isFalse => exact ⟨_, s'.audit, by rw [← Except.ok.inj h]; rfl⟩
  all_goals cases h

/-- What a step can do, operation by operation. `idle` is a refusal, or nothing to do. -/
inductive Change (s : State) : Op → State → Prop where
  | idle (op : Op) : Change s op s
  | advance (d : Nat) : Change s (.advance d) { s with clock := s.clock + d }
  | deactivate (u : Nat) : Change s (.deactivate u) (setActive u false s)
  | takeAction (a : Actor) (target : Target) (input : ActionInput) (report : Nat) (fails : Bool)
      (record : ModerationAction) (event : List AuditEvent) (htarget : record.target = target)
      (hlifted : record.liftedAt = none) :
      Change s (.takeAction a target input report fails)
        { applyEffect record.action target { s with actions := s.actions.insert record } with
          audit := event }
  | startSweep : Change s .startSweep (startSweep s)
  | sweepRow (i now id : Nat) (pending : List Nat) (count count' : Nat)
      (hsweep : s.sweeps[i]? = some ⟨now, id :: pending, count⟩) :
      Change s (.sweepRow i)
        { (liftOne id s).1 with sweeps := s.sweeps.set i ⟨now, pending, count'⟩ }
  | sweepSkip (i now id : Nat) (pending : List Nat) (count : Nat)
      (hsweep : s.sweeps[i]? = some ⟨now, id :: pending, count⟩) :
      Change s (.sweepSkip i) { s with sweeps := s.sweeps.set i ⟨now, pending, count⟩ }
  | sweepFail (i : Nat) : Change s (.sweepFail i) { s with sweeps := s.sweeps.eraseIdx i }
  | fileAppeal (a : Actor) (action : Nat) (statement : String) (allowed fails : Bool)
      (appeal : ModerationAppeal) (event : List AuditEvent) :
      Change s (.fileAppeal a action statement allowed fails)
        { s with appeals := s.appeals.insert appeal, audit := event }
  | uphold (a : Actor) (id : Nat) (notes : String) (fails : Bool)
      (appeals : Table ModerationAppeal) (event : List AuditEvent) :
      Change s (.resolveAppeal a id false notes fails)
        { s with appeals := appeals, audit := event }
  | grant (a : Actor) (id : Nat) (notes : String) (fails : Bool) (appeal : ModerationAppeal)
      (action : ModerationAction) (appeals : Table ModerationAppeal) (event : List AuditEvent)
      (happeal : s.appeals.get? id = some appeal)
      (haction : s.actions.get? appeal.action = some action) :
      Change s (.resolveAppeal a id true notes fails)
        { (reverse appeal.action action s).1 with appeals := appeals, audit := event }

theorem step_change (s : State) (op : Op) : Change s op (step s op) := by
  cases op with
  | advance d => exact .advance d
  | deactivate u => exact .deactivate u
  | takeAction a target input report fails =>
    simp only [step]
    cases h : takeAction a target input report fails s with
    | error => exact .idle _
    | ok =>
      -- Each transaction either raises and is rolled back or does what its lemma says.
      obtain ⟨record, event, htarget, hlifted, rfl⟩ := takeAction_ok h
      exact .takeAction a target input report fails record event htarget hlifted
  | startSweep => exact .startSweep
  | sweepRow i =>
    simp only [step, sweepRow, sweepWith]
    split
    · rename_i now id pending count hsweep
      exact .sweepRow i now id pending count _ hsweep
    · exact .idle _
  | sweepSkip i =>
    simp only [step, sweepSkip]
    split
    · rename_i now id pending count hsweep
      exact .sweepSkip i now id pending count hsweep
    · exact .idle _
  | sweepFail i => exact .sweepFail i
  | fileAppeal a action statement allowed fails =>
    simp only [step]
    cases h : fileAppeal a action statement allowed fails s with
    | error => exact .idle _
    | ok =>
      obtain ⟨appeal, event, rfl⟩ := fileAppeal_ok h
      exact .fileAppeal a action statement allowed fails appeal event
  | resolveAppeal a id grant notes fails =>
    simp only [step]
    cases h : resolveAppeal a id grant notes fails s with
    | error => exact .idle _
    | ok result =>
      have hok : resolveAppeal a id grant notes fails s = .ok (result.1, result.2) := h
      obtain ⟨appeal, action, happeal, -, haction, mid, appeals, event, hmid, hs'⟩ :=
        resolveAppeal_ok hok
      simp only [Except.map, commit, hs', hmid]
      cases grant with
      | false => exact .uphold a id notes fails appeals event
      | true => exact .grant a id notes fails appeal action appeals event happeal haction

theorem step_extends (s : State) (op : Op) : Extends s (step s op) := by
  generalize hs' : step s op = s'
  cases hs' ▸ step_change s op with
  | advance => exact ⟨Nat.le_add_right _ _, Or.inl rfl, SweepsStep.of_eq rfl⟩
  | deactivate u =>
    have hframe := setActive_frame u false s
    exact ⟨Nat.le_of_eq hframe.clock.symm, Or.inl hframe.actions, SweepsStep.of_eq hframe.sweeps⟩
  | takeAction _ target _ _ _ record event _ hlifted =>
    have hframe := applyEffect_frame record.action target
      { s with actions := s.actions.insert record }
    exact ⟨Nat.le_of_eq hframe.clock.symm, Or.inr (Or.inl ⟨record, hlifted, hframe.actions⟩),
      SweepsStep.of_eq hframe.sweeps⟩
  | startSweep => exact ⟨Nat.le_refl _, Or.inl rfl, SweepsStep.start s⟩
  | sweepRow i now id pending count count' hsweep =>
    obtain ⟨hclock, hactions⟩ := liftOne_frame id s
    exact ⟨Nat.le_of_eq hclock.symm, hactions.imp_right fun h => Or.inr ⟨id, s.clock, h⟩,
      SweepsStep.drop hsweep rfl⟩
  | sweepSkip i now id pending count hsweep =>
    exact ⟨Nat.le_refl _, Or.inl rfl, SweepsStep.drop hsweep rfl⟩
  | sweepFail =>
    refine ⟨Nat.le_refl _, Or.inl rfl, fun sweep hsweep => Or.inl ?_⟩
    exact ⟨sweep, List.mem_of_mem_eraseIdx hsweep, rfl, fun _ hid => hid⟩
  | grant _ _ _ _ appeal action =>
    obtain ⟨hclock, hsweeps, hactions⟩ := reverse_frame appeal.action action s
    exact ⟨Nat.le_of_eq hclock.symm, hactions.imp_right fun h => Or.inr ⟨_, _, h⟩,
      SweepsStep.of_eq hsweeps⟩
  | _ => exact ⟨Nat.le_refl _, Or.inl rfl, SweepsStep.of_eq rfl⟩

theorem step_sweepsValid (s : State) (op : Op) (h : SweepsValid s) : SweepsValid (step s op) :=
  h.extends (step_extends s op)

end SocialActivities.Safety.Go
