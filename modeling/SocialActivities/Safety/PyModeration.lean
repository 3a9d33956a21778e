import SocialActivities.Lib.Machine
import SocialActivities.Safety.Rows

/-!
# `SocialActivities.Safety.PyModeration`: moderation actions, sweeps and appeals (Python)

The operations of `apps/safety/services.py` and the author delete of
`apps/social/services.py`: `take_action`, `lift_expired_suspensions`, `file_appeal`,
`resolve_appeal` with `_reverse_action`, and `delete_own_post`. An operation is one
transaction, so a refusal (`Except.error`) leaves the state as it was.

A sweep reads the clock once. `startSweep` opens one, `sweepRow` processes its next candidate
(`liftOne`) with the time of the sweep, and `sweepSkip` steps over a candidate that another
worker has locked. The clock is part of the state and only `advance` moves it, so times never
decrease.

`step_change` says once what a step can do; later proofs read a step through it.
-/

namespace SocialActivities.Safety.Py

open Lib

/-! ### Errors -/

/-- The exceptions of the operations, with their messages. -/
inductive Error where
  | appealError (message : String)
  | notEligible (message : String)
  | databaseError
  | doesNotExist
  deriving DecidableEq

/-! ### `take_action` -/

/-- The account side of `take_action`: a target with `is_active` is deactivated. -/
def deactivate (target : Target) (s : State) : Except Error State :=
  match target with
  | .user u =>
    match s.users u with
    | some row => .ok (s.setUser u { row with isActive := false })
    | none => .error .databaseError
  | _ => .ok s

/-- The content side of `take_action`: a target with `is_hidden` is hidden. -/
def hide (target : Target) (s : State) : Except Error State :=
  match target with
  | .content c =>
    match s.contents c with
    | some row => .ok (s.setContent c { row with isHidden := true })
    | none => .error .databaseError
  | _ => .ok s

/-- The effect of an action on its target. -/
def applyEffect (action : Action) (target : Target) (s : State) : Except Error State :=
  match action with
  | .suspend | .timedBan | .ban => deactivate target s
  | .remove => hide target s
  | .warn => .ok s

def takeAction (moderator : Nat) (target : Target) (action : Action) (reason : ReasonCode)
    (notes : String) (report expiresAt : Option Nat) (s : State) : Except Error State :=
  let record : ModerationAction :=
    { moderator, target, action, reason, notes, report, expiresAt, liftedAt := none,
      createdAt := s.clock }
  match applyEffect action target { s with actions := s.actions.insert record } with
  | .error e => .error e
  | .ok s' => .ok (s'.recordAudit "moderation.action" (some moderator) target.ref
      [("action", .text action.value), ("reason", .text reason.value)])

/-! ### `lift_expired_suspensions` -/

/-- An un-lifted lifetime ban on the target. -/
def banned (target : Target) (s : State) : Bool :=
  s.unliftedOn target fun _ m => m.action == .ban

/-- The `still_suspended` query of the sweep. SQL's `expires_at > now` is not true of NULL. -/
def stillSuspended (now : Nat) (target : Target) (s : State) : Bool :=
  s.unliftedOn target fun _ m =>
    m.action.isTimedRestriction && m.expiresAt.any fun e => decide (now < e)

/-- The account side of a sweep row: reactivate the account if neither query finds a sanction.
The result names the account that it reactivated. -/
def reactivateExpired (now : Nat) (target : Target) (s : State) : State × Option Nat :=
  match target with
  | .user u =>
    match s.users u with
    | some row =>
      if !banned target s && !stillSuspended now target s && !row.isActive then
        ((s.setUser u { row with isActive := true }).recordAudit
          "moderation.suspension_lifted" none target.ref [], some u)
      else (s, none)
    | none => (s, none)
  | _ => (s, none)

/-- The transaction of one candidate. -/
def liftOne (now id : Nat) (s : State) : State × Option Nat :=
  liftWith (reactivateExpired now) now id s

def sweepRow (i : Nat) (s : State) : State := sweepWith liftOne i s

/-! ### `file_appeal` and `resolve_appeal` -/

/-- The characters that `str.strip` removes. -/
def isSpace (c : Char) : Bool :=
  let n := c.toNat
  (9 ≤ n && n ≤ 13) || (28 ≤ n && n ≤ 32) || n == 0x85 || n == 0xA0 || n == 0x1680
    || (0x2000 ≤ n && n ≤ 0x200A) || n == 0x2028 || n == 0x2029 || n == 0x202F
    || n == 0x205F || n == 0x3000

def strip (text : String) : List Char :=
  ((text.toList.dropWhile isSpace).reverse.dropWhile isSpace).reverse

def appealMaxLen : Nat := 2000

/-- The refusals of `file_appeal` and `resolve_appeal`. -/
def emptyStatement : Error :=
  .appealError "Please tell us why you think this decision is wrong."
def notYours : Error :=
  .appealError "You can only contest a decision about your own account or content."
def alreadyContested : Error :=
  .appealError "You've already contested this decision; we're reviewing it."
def tooManyAppeals : Error :=
  .appealError "You've contested several decisions recently; please wait a little."
def alreadyDecided : Error := .appealError "This appeal has already been decided."

/-- `file_appeal`. `allowed` is the answer of the rate limiter, whose counters live in the
cache. -/
def fileAppeal (user action : Nat) (statement : String) (allowed : Bool) (s : State) :
    Except Error State :=
  match s.actions.get? action with
  | none => .error .doesNotExist
  | some row =>
    let statement := strip statement
    if statement.isEmpty then .error emptyStatement
    else if s.affectedUser row.target != some user then .error notYours
    else if s.appeals.any fun _ appeal => appeal.action == action then .error alreadyContested
    -- The limiter counts a try when it is asked, so it is asked last.
    else if !allowed then .error tooManyAppeals
    else
      let appeal : ModerationAppeal :=
        { action, appellant := user, statement := String.ofList (statement.take appealMaxLen),
          status := .pending, decidedBy := none, decisionNotes := "", decidedAt := none,
          createdAt := s.clock }
      .ok ({ s with appeals := s.appeals.insert appeal }.recordAudit "moderation.appeal_filed"
        (some user) ("safety.moderationaction:" ++ toString action) [])

abbrev ReversalOutcome := Reversal

/-- The content branch of `_reverse_action`. -/
def reverseRemove (id : Nat) (action : ModerationAction) (c : ContentRef) (row : Content) (s : State) :
    State × ReversalOutcome :=
  let held := otherRemove id action.target s
  let s := stampReversed id action s
  if !held && row.isHidden then
    -- The author deleted the post too, and a reversal does not undo that.
    if row.isAuthorDeleted then
      (s.recordAudit "moderation.reversal_left_hidden" none action.target.ref
        [("action_id", .number id), ("reason", .text "author_deleted")], ⟨false, true⟩)
    else (s.setContent c { row with isHidden := false }, ⟨false, false⟩)
  else (s, ⟨false, false⟩)

/-- `_reverse_action`. A target that no longer exists leaves the action as it is. -/
def reverseAction (id : Nat) (action : ModerationAction) (s : State) :
    State × ReversalOutcome :=
  match action.target with
  | .user u =>
    match s.users u with
    | none => (s, ⟨false, false⟩)
    | some row =>
      if action.action.isAccountSanction then reverseSanction id action u row s
      else (s, ⟨false, false⟩)
  | .content c =>
    match s.contents c with
    | none => (s, ⟨false, false⟩)
    | some row =>
      if action.action = .remove then reverseRemove id action c row s
      else (s, ⟨false, false⟩)
  | .other _ _ => (s, ⟨false, false⟩)

/-- `resolve_appeal`. The outcome is `none` on an uphold. -/
def resolveAppeal (moderator id : Nat) (grant : Bool) (notes : String) (s : State) :
    Except Error (State × Option ReversalOutcome) :=
  match s.appeals.get? id with
  | none => .error .doesNotExist
  | some appeal =>
    -- The status is the guard: an appeal is decided once.
    if appeal.status ≠ .pending then .error alreadyDecided
    else
      match s.actions.get? appeal.action with
      | none => .error .doesNotExist
      | some action =>
        let s := { s with
          appeals := s.appeals.modify id (decided moderator s.clock grant notes) }
        let (s, outcome) :=
          if grant then
            let (s, outcome) := reverseAction appeal.action action s
            (s, some outcome)
          else (s, none)
        .ok (s.recordAudit "moderation.appeal_resolved" (some moderator)
          ("safety.moderationaction:" ++ toString appeal.action) [("granted", .flag grant)],
          outcome)

/-! ### `delete_own_post` -/

def notYourMessage : Error := .notEligible "You can only delete your own messages."
def contesting : Error :=
  .notEligible ("You're contesting the moderation decision that hid this message, so it " ++
    "wasn't deleted. If your contest succeeds and nothing else is holding " ++
    "the message, it will come back — you can delete it then if you still " ++
    "want to.")

/-- The content reference of a post. -/
def postRef (p : Nat) : ContentRef := ⟨.post, p⟩

/-- `targets_with_unlifted_remove` for one post. -/
def unliftedRemove (p : Nat) (s : State) : Bool :=
  s.unliftedOn (.content (postRef p)) fun _ m => m.action == .remove

/-- A pending appeal against an un-lifted REMOVE of the post. -/
def pendingContest (p : Nat) (s : State) : Bool :=
  s.appeals.any fun _ appeal => appeal.status == .pending &&
    (s.actions.get? appeal.action).any fun m =>
      m.action == .remove && m.liftedAt.isNone && m.target == .content (postRef p)

/-- `delete_own_post`, with `was_moderation_hidden` of its result. -/
def deleteOwnPost (author p : Nat) (s : State) : Except Error (State × Bool) :=
  match s.contents (postRef p) with
  | none => .error .doesNotExist
  | some post =>
    if post.author ≠ author then .error notYourMessage
    else if post.isHidden then
      -- A second delete writes nothing.
      if post.isAuthorDeleted then .ok (s, false)
      else
        -- Hidden by a moderator: the delete adds its own cause under the flag that is up.
        let wasModerationHidden := unliftedRemove p s
        if wasModerationHidden && pendingContest p s then .error contesting
        else
          .ok ((s.setContent (postRef p) { post with isAuthorDeleted := true }).recordAudit
            "post.self_deleted" (some author) (Target.content (postRef p)).ref [], wasModerationHidden)
    else
      .ok ((s.setContent (postRef p) { post with isHidden := true, isAuthorDeleted := true }).recordAudit
        "post.self_deleted" (some author) (Target.content (postRef p)).ref [], false)

/-! ### The machine -/

/-- One transaction, or one tick of the clock. -/
inductive Op where
  | advance (d : Nat)
  | takeAction (moderator : Nat) (target : Target) (action : Action) (reason : ReasonCode)
      (notes : String) (report expiresAt : Option Nat)
  | startSweep
  | sweepRow (i : Nat)
  | sweepSkip (i : Nat)
  | fileAppeal (user action : Nat) (statement : String) (allowed : Bool)
  | resolveAppeal (moderator appeal : Nat) (grant : Bool) (notes : String)
  | deleteOwnPost (author post : Nat)

/-- The state after one operation. -/
def step (s : State) : Op → State
  | .advance d => { s with clock := s.clock + d }
  | .takeAction moderator target action reason notes report expiresAt =>
    commit s (takeAction moderator target action reason notes report expiresAt s)
  | .startSweep => startSweep s
  | .sweepRow i => sweepRow i s
  | .sweepSkip i => sweepSkip i s
  | .fileAppeal user action statement allowed =>
    commit s (fileAppeal user action statement allowed s)
  | .resolveAppeal moderator appeal grant notes =>
    commit s ((resolveAppeal moderator appeal grant notes s).map Prod.fst)
  | .deleteOwnPost author post => commit s ((deleteOwnPost author post s).map Prod.fst)

/-! ### What a step can do

Later proofs read a step through the lemmas of this section: `step_actions` for the action
rows, `step_sweeps` for the sweeps in flight, `step_clock` for the time. The account flag and
the post flags have theirs in the modules that reason about them. -/

variable {target : Target} {s' s : State}

theorem deactivate_ok (h : deactivate target s = .ok s') :
    (∃ u row, target = .user u ∧ s.users u = some row ∧
      s' = s.setUser u { row with isActive := false }) ∨
    ((∀ u, target ≠ .user u) ∧ s' = s) := by
  cases target with
  | user u =>
    cases hrow : s.users u with
    | none => simp [deactivate, hrow] at h
    | some row =>
      simp only [deactivate, hrow, Except.ok.injEq] at h
      exact Or.inl ⟨u, row, rfl, hrow, h.symm⟩
  | content | other => exact Or.inr ⟨by simp, (Except.ok.inj h).symm⟩

theorem hide_ok (h : hide target s = .ok s') :
    (∃ c row, target = .content c ∧ s.contents c = some row ∧
      s' = s.setContent c { row with isHidden := true }) ∨
    ((∀ c, target ≠ .content c) ∧ s' = s) := by
  cases target with
  | user => exact Or.inr ⟨by simp, (Except.ok.inj h).symm⟩
  | content c =>
    cases hrow : s.contents c with
    | none => simp [hide, hrow] at h
    | some row =>
      simp only [hide, hrow, Except.ok.injEq] at h
      exact Or.inl ⟨c, row, rfl, hrow, h.symm⟩
  | other => exact Or.inr ⟨by simp, (Except.ok.inj h).symm⟩

theorem applyEffect_ok {action : Action} {s s' : State} (h : applyEffect action target s = .ok s') :
    (∃ u row, action.isAccountSanction = true ∧ target = .user u ∧ s.users u = some row ∧
      s' = s.setUser u { row with isActive := false }) ∨
    (∃ c row, action = .remove ∧ target = .content c ∧ s.contents c = some row ∧
      s' = s.setContent c { row with isHidden := true }) ∨
    ((∀ u, action.isAccountSanction = true → target ≠ .user u) ∧
      (∀ c, action = .remove → target ≠ .content c) ∧ s' = s) := by
  -- The three account sanctions deactivate alike.
  have hsanction : ∀ a : Action, a.isAccountSanction = true → a ≠ .remove →
      deactivate target s = .ok s' →
      (∃ u row, a.isAccountSanction = true ∧ target = .user u ∧ s.users u = some row ∧
        s' = s.setUser u { row with isActive := false }) ∨
      (∃ c row, a = .remove ∧ target = .content c ∧ s.contents c = some row ∧
        s' = s.setContent c { row with isHidden := true }) ∨
      ((∀ u, a.isAccountSanction = true → target ≠ .user u) ∧
        (∀ c, a = .remove → target ≠ .content c) ∧ s' = s) := by
    intro a ha hne hd
    rcases deactivate_ok hd with ⟨u, row, ht, hrow, hs'⟩ | ⟨hno, hs'⟩
    · exact Or.inl ⟨u, row, ha, ht, hrow, hs'⟩
    · exact Or.inr (Or.inr ⟨fun u _ => hno u, fun c h => absurd h hne, hs'⟩)
  cases action with
  | warn => exact Or.inr (Or.inr ⟨by simp [Action.isAccountSanction], by simp, (Except.ok.inj h).symm⟩)
  | remove =>
    rcases hide_ok h with ⟨c, row, ht, hrow, hs'⟩ | ⟨hno, hs'⟩
    · exact Or.inr (Or.inl ⟨c, row, rfl, ht, hrow, hs'⟩)
    · exact Or.inr (Or.inr ⟨by simp [Action.isAccountSanction], fun c _ => hno c, hs'⟩)
  | suspend => exact hsanction .suspend rfl (by simp) h
  | timedBan => exact hsanction .timedBan rfl (by simp) h
  | ban => exact hsanction .ban rfl (by simp) h

theorem applyEffect_frame {action : Action} {s s' : State}
    (h : applyEffect action target s = .ok s') : Frame s s' := by
  rcases applyEffect_ok h with ⟨u, row, -, -, -, rfl⟩ | ⟨c, row, -, -, -, rfl⟩ | ⟨-, -, rfl⟩ <;>
    exact ⟨rfl, rfl, rfl, rfl⟩

/-- `take_action` inserts its record and applies the effect. -/
theorem takeAction_ok {moderator : Nat} {action : Action}
    {reason : ReasonCode} {notes : String} {report expiresAt : Option Nat}
    (h : takeAction moderator target action reason notes report expiresAt s = .ok s') :
    ∃ record : ModerationAction, ∃ mid event, record.target = target ∧ record.action = action ∧
      record.expiresAt = expiresAt ∧ record.liftedAt = none ∧
      applyEffect action target { s with actions := s.actions.insert record } = .ok mid ∧
      s' = { mid with audit := mid.audit ++ [event] } := by
  unfold takeAction at h
  simp only at h
  split at h
  · cases h
  · rename_i mid hmid
    cases h
    exact ⟨_, mid, _, rfl, rfl, rfl, rfl, hmid, rfl⟩

theorem reactivateExpired_frame (now : Nat) (target : Target) (s : State) :
    Frame s (reactivateExpired now target s).1 ∧
      (reactivateExpired now target s).1.contents = s.contents := by
  unfold reactivateExpired
  repeat' split
  all_goals exact ⟨⟨rfl, rfl, rfl, rfl⟩, rfl⟩

variable {id : Nat}

theorem liftOne_of_lifted {now : Nat}
    (h : ∀ m, s.actions.get? id = some m → m.liftedAt ≠ none) : liftOne now id s = (s, none) :=
  liftWith_of_lifted h

theorem liftOne_of_unlifted {now : Nat} {m : ModerationAction}
    (hget : s.actions.get? id = some m) (hlifted : m.liftedAt = none) :
    liftOne now id s = ((reactivateExpired now m.target s).1.setLifted id now,
      (reactivateExpired now m.target s).2) :=
  liftWith_of_unlifted hget hlifted

theorem liftOne_frame (now id : Nat) (s : State) :
    (liftOne now id s).1.clock = s.clock ∧ (liftOne now id s).1.appeals = s.appeals ∧
      (liftOne now id s).1.contents = s.contents ∧
      ((liftOne now id s).1.actions = s.actions ∨ (liftOne now id s).1.actions
        = s.actions.modify id fun m => { m with liftedAt := some now }) :=
  liftWith_frame now id s fun target => reactivateExpired_frame now target s

/-- The three cases of `_reverse_action`: a sanction on an account, a REMOVE on a post, and
everything else, which has nothing to undo. -/
theorem reverseAction_cases (id : Nat) (action : ModerationAction) (s : State) :
    (∃ u row, action.target = .user u ∧ s.users u = some row ∧
      action.action.isAccountSanction = true ∧
      reverseAction id action s = reverseSanction id action u row s) ∨
    (∃ c row, action.target = .content c ∧ s.contents c = some row ∧ action.action = .remove ∧
      reverseAction id action s = reverseRemove id action c row s) ∨
    ((∀ u row, action.target = .user u → s.users u = some row →
        action.action.isAccountSanction = false) ∧
      (∀ c row, action.target = .content c → s.contents c = some row → action.action ≠ .remove) ∧
      reverseAction id action s = (s, ⟨false, false⟩)) := by
  -- Target first, then its row: both branches ask whether the row exists.
  cases htarget : action.target with
  | user u =>
    cases hrow : s.users u with
    | none =>
      refine Or.inr (Or.inr ⟨?_, by simp, by simp only [reverseAction, htarget, hrow]⟩)
      rintro v row hv hsome
      rw [← Target.user.inj hv, hrow] at hsome
      cases hsome
    | some row =>
      by_cases hs : action.action.isAccountSanction = true
      · exact Or.inl ⟨u, row, rfl, hrow, hs, by simp only [reverseAction, htarget, hrow, hs, if_true]⟩
      · refine Or.inr (Or.inr ⟨fun _ _ _ _ => by simpa using hs, by simp, ?_⟩)
        simp only [reverseAction, htarget, hrow, if_neg hs]
  | content c =>
    cases hrow : s.contents c with
    | none =>
      refine Or.inr (Or.inr ⟨by simp, ?_, by simp only [reverseAction, htarget, hrow]⟩)
      rintro q row hq hsome
      rw [← Target.content.inj hq, hrow] at hsome
      cases hsome
    | some row =>
      by_cases hr : action.action = .remove
      · exact Or.inr (Or.inl ⟨c, row, rfl, hrow, hr,
          by simp only [reverseAction, htarget, hrow, hr, if_true]⟩)
      · refine Or.inr (Or.inr ⟨by simp, fun _ _ _ _ => hr, ?_⟩)
        simp only [reverseAction, htarget, hrow, hr, if_false]
  | other =>
    exact Or.inr (Or.inr ⟨by simp, by simp, by simp only [reverseAction, htarget]⟩)

/-- The rows that are unlifted after the stamp of a reversal are the other unlifted rows: the
reversed action is lifted, now or since before. -/
theorem unlifted_stampReversed {k : Nat} {action m : ModerationAction}
    (hget : s.actions.get? id = some action) :
    ((stampReversed id action s).actions.get? k = some m ∧ m.liftedAt = none) ↔
      k ≠ id ∧ s.actions.get? k = some m ∧ m.liftedAt = none := by
  unfold stampReversed
  by_cases hk : k = id
  · subst hk
    refine iff_of_false ?_ fun h => h.1 rfl
    rintro ⟨hgetk, hnone⟩
    cases hlifted : action.liftedAt with
    | none =>
      rw [hlifted] at hgetk
      simp only [Option.isNone_none, if_true, State.setLifted, Table.get?_modify, hget,
        Option.map_some, Option.some.injEq] at hgetk
      rw [← hgetk] at hnone
      cases hnone
    | some =>
      simp only [hlifted, Option.isNone_some, Bool.false_eq_true, if_false] at hgetk
      rw [hget, Option.some.injEq] at hgetk
      rw [← hgetk, hlifted] at hnone
      cases hnone
  · rw [and_iff_right hk]
    split
    · simp only [State.setLifted, Table.get?_modify, if_neg hk]
    · exact Iff.rfl

/-- A reversal leaves the clock, the appeals and the sweeps alone, and stamps at most its
action. -/
theorem reverseAction_frame (id : Nat) (action : ModerationAction) (s : State) :
    (reverseAction id action s).1.clock = s.clock ∧
      (reverseAction id action s).1.appeals = s.appeals ∧
      (reverseAction id action s).1.sweeps = s.sweeps ∧
      ((reverseAction id action s).1.actions = s.actions ∨
        (reverseAction id action s).1.actions
          = s.actions.modify id fun m => { m with liftedAt := some s.clock }) := by
  obtain ⟨hclock, happeals, hsweeps, -, -, hactions⟩ := stampReversed_frame id action s
  rcases reverseAction_cases id action s with
    ⟨u, row, -, -, -, heq⟩ | ⟨c, row, -, -, -, heq⟩ | ⟨-, -, heq⟩ <;> rw [heq]
  · unfold reverseSanction
    simp only
    split <;> exact ⟨hclock, happeals, hsweeps, hactions⟩
  · unfold reverseRemove
    simp only
    repeat' split
    all_goals exact ⟨hclock, happeals, hsweeps, hactions⟩
  · exact ⟨rfl, rfl, rfl, Or.inl rfl⟩

/-- A resolution decides a pending appeal, and reverses its action if it is granted. -/
theorem resolveAppeal_ok {moderator : Nat} {grant : Bool} {notes : String}
    {outcome : Option ReversalOutcome}
    (h : resolveAppeal moderator id grant notes s = .ok (s', outcome)) :
    ∃ appeal action, s.appeals.get? id = some appeal ∧ appeal.status = .pending ∧
      s.actions.get? appeal.action = some action ∧
      ∃ mid event,
        mid = { s with appeals := s.appeals.modify id (decided moderator s.clock grant notes) } ∧
        s' = { (if grant then (reverseAction appeal.action action mid).1 else mid) with
          audit := event } := by
  unfold resolveAppeal at h
  cases hget : s.appeals.get? id with
  | none => simp [hget] at h
  | some appeal =>
    by_cases hpending : appeal.status = .pending
    · cases haction : s.actions.get? appeal.action with
      | none => simp [hget, hpending, haction] at h
      | some action =>
        refine ⟨appeal, action, rfl, hpending, haction, ?_⟩
        simp only [hget, hpending, haction, ne_eq, not_true_eq_false, if_false] at h
        cases hg : grant
        all_goals
          simp only [hg, if_true, Bool.false_eq_true, if_false, Except.ok.injEq,
            Prod.mk.injEq] at h ⊢
          obtain ⟨rfl, -⟩ := h
          exact ⟨_, _, rfl, rfl⟩
    · simp [hget, hpending] at h

theorem deleteOwnPost_ok {author p : Nat} {b : Bool} (h : deleteOwnPost author p s = .ok (s', b)) :
    s' = s ∨ ∃ post event, s.contents (postRef p) = some post ∧
      s' = { s.setContent (postRef p) { post with isHidden := true, isAuthorDeleted := true } with
        audit := event } := by
  unfold deleteOwnPost at h
  cases hpost : s.contents (postRef p) with
  | none => simp [hpost] at h
  | some post =>
    simp only [hpost] at h
    split at h
    · cases h
    split at h
    case isTrue hhidden =>
      split at h
      · exact Or.inl (Prod.mk.inj (Except.ok.inj h)).1.symm
      split at h
      · cases h
      · refine Or.inr ⟨post, s'.audit, rfl, ?_⟩
        rw [← (Prod.mk.inj (Except.ok.inj h)).1, ← hhidden]
        rfl
    case isFalse hhidden =>
      exact Or.inr ⟨post, _, rfl, (Prod.mk.inj (Except.ok.inj h)).1.symm⟩

theorem fileAppeal_ok {user action : Nat} {statement : String} {allowed : Bool}
    (h : fileAppeal user action statement allowed s = .ok s') :
    ∃ appeal event, s' = { s with appeals := s.appeals.insert appeal, audit := event } := by
  unfold fileAppeal at h
  cases hget : s.actions.get? action with
  | none => simp [hget] at h
  | some =>
    simp only [hget] at h
    repeat' split at h
    case isFalse => exact ⟨_, _, (Except.ok.inj h).symm⟩
    all_goals cases h

/-- What a step can do, operation by operation. `idle` is a refusal, or nothing to do. -/
inductive Change (s : State) : Op → State → Prop where
  | idle (op : Op) : Change s op s
  | advance (d : Nat) : Change s (.advance d) { s with clock := s.clock + d }
  | takeAction (moderator : Nat) (target : Target) (action : Action) (reason : ReasonCode)
      (notes : String) (report expiresAt : Option Nat) (record : ModerationAction) (mid : State)
      (event : List AuditEvent) (htarget : record.target = target)
      (haction : record.action = action) (hlifted : record.liftedAt = none)
      (heffect : applyEffect action target { s with actions := s.actions.insert record }
        = .ok mid) :
      Change s (.takeAction moderator target action reason notes report expiresAt)
        { mid with audit := event }
  | startSweep : Change s .startSweep (startSweep s)
  | sweepRow (i now id : Nat) (pending : List Nat) (count count' : Nat)
      (hsweep : s.sweeps[i]? = some ⟨now, id :: pending, count⟩) :
      Change s (.sweepRow i)
        { (liftOne now id s).1 with sweeps := s.sweeps.set i ⟨now, pending, count'⟩ }
  | sweepSkip (i now id : Nat) (pending : List Nat) (count : Nat)
      (hsweep : s.sweeps[i]? = some ⟨now, id :: pending, count⟩) :
      Change s (.sweepSkip i) { s with sweeps := s.sweeps.set i ⟨now, pending, count⟩ }
  | fileAppeal (user action : Nat) (statement : String) (allowed : Bool)
      (appeal : ModerationAppeal) (event : List AuditEvent) :
      Change s (.fileAppeal user action statement allowed)
        { s with appeals := s.appeals.insert appeal, audit := event }
  | uphold (moderator id : Nat) (notes : String) (event : List AuditEvent) :
      Change s (.resolveAppeal moderator id false notes)
        { s with appeals := s.appeals.modify id (decided moderator s.clock false notes),
                 audit := event }
  | grant (moderator id : Nat) (notes : String) (event : List AuditEvent)
      (appeal : ModerationAppeal) (action : ModerationAction) (mid : State)
      (happeal : s.appeals.get? id = some appeal) (hpending : appeal.status = .pending)
      (haction : s.actions.get? appeal.action = some action)
      (hmid : mid = { s with
        appeals := s.appeals.modify id (decided moderator s.clock true notes) }) :
      Change s (.resolveAppeal moderator id true notes)
        { (reverseAction appeal.action action mid).1 with audit := event }
  | deleteOwnPost (author p : Nat) (post : Content) (event : List AuditEvent)
      (hpost : s.contents (postRef p) = some post) :
      Change s (.deleteOwnPost author p)
        { s.setContent (postRef p) { post with isHidden := true, isAuthorDeleted := true } with
          audit := event }

theorem step_change (s : State) (op : Op) : Change s op (step s op) := by
  cases op with
  | advance d => exact .advance d
  | takeAction moderator target action reason notes report expiresAt =>
    simp only [step]
    cases h : takeAction moderator target action reason notes report expiresAt s with
    | error => exact .idle _
    | ok =>
      obtain ⟨record, mid, event, htarget, haction, -, hlifted, heffect, rfl⟩ := takeAction_ok h
      exact .takeAction moderator target action reason notes report expiresAt record mid _
        htarget haction hlifted heffect
  | startSweep => exact .startSweep
  | sweepRow i =>
    simp only [step, sweepRow, sweepWith]
    split
    · rename_i now id pending count hsweep
      exact .sweepRow i now id pending count _ hsweep
    · exact .idle _
  | sweepSkip i =>
    simp only [step, sweepSkip]
    split
    · rename_i now id pending count hsweep
      exact .sweepSkip i now id pending count hsweep
    · exact .idle _
  | fileAppeal user action statement allowed =>
    simp only [step]
    cases h : fileAppeal user action statement allowed s with
    | error => exact .idle _
    | ok =>
      obtain ⟨appeal, event, rfl⟩ := fileAppeal_ok h
      exact .fileAppeal user action statement allowed appeal event
  | resolveAppeal moderator id grant notes =>
    simp only [step]
    cases h : resolveAppeal moderator id grant notes s with
    | error => exact .idle _
    | ok result =>
      have hok : resolveAppeal moderator id grant notes s = .ok (result.1, result.2) := h
      obtain ⟨appeal, action, happeal, hpending, haction, mid, event, hmid, hs'⟩ :=
        resolveAppeal_ok hok
      simp only [Except.map, commit, hs']
      cases grant with
      | false =>
        subst hmid
        exact .uphold moderator id notes event
      | true => exact .grant moderator id notes event appeal action mid happeal hpending haction hmid
  | deleteOwnPost author p =>
    simp only [step]
    cases h : deleteOwnPost author p s with
    | error => exact .idle _
    | ok result =>
      simp only [Except.map, commit]
      rcases deleteOwnPost_ok (b := result.2) h with hs' | ⟨post, event, hpost, hs'⟩ <;> rw [hs']
      · exact .idle _
      · exact .deleteOwnPost author p post event hpost

theorem step_extends (s : State) (op : Op) : Extends s (step s op) := by
  generalize hs' : step s op = s'
  cases hs' ▸ step_change s op with
  | advance => exact ⟨Nat.le_add_right _ _, Or.inl rfl, SweepsStep.of_eq rfl⟩
  | takeAction _ _ _ _ _ _ _ record mid event _ _ hlifted heffect =>
    have hframe : Frame _ mid := applyEffect_frame heffect
    exact ⟨Nat.le_of_eq hframe.clock.symm, Or.inr (Or.inl ⟨record, hlifted, hframe.actions⟩),
      SweepsStep.of_eq hframe.sweeps⟩
  | startSweep => exact ⟨Nat.le_refl _, Or.inl rfl, SweepsStep.start s⟩
  | sweepRow i now id pending count count' hsweep =>
    obtain ⟨hclock, -, -, hactions⟩ := liftOne_frame now id s
    exact ⟨Nat.le_of_eq hclock.symm, hactions.imp_right fun h => Or.inr ⟨id, now, h⟩,
      SweepsStep.drop hsweep rfl⟩
  | sweepSkip i now id pending count hsweep =>
    exact ⟨Nat.le_refl _, Or.inl rfl, SweepsStep.drop hsweep rfl⟩
  | grant _ _ _ _ appeal action mid _ _ _ hmid =>
    subst hmid
    obtain ⟨hclock, -, hsweeps, hactions⟩ := reverseAction_frame appeal.action action
      { s with appeals := s.appeals.modify _ (decided _ s.clock true _) }
    exact ⟨Nat.le_of_eq hclock.symm, hactions.imp_right fun h => Or.inr ⟨_, _, h⟩,
      SweepsStep.of_eq hsweeps⟩
  | _ => exact ⟨Nat.le_refl _, Or.inl rfl, SweepsStep.of_eq rfl⟩

theorem step_sweepsValid (s : State) (op : Op) (h : SweepsValid s) : SweepsValid (step s op) :=
  h.extends (step_extends s op)

end SocialActivities.Safety.Py
