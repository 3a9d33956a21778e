import Mathlib.Logic.Function.Basic
import SocialActivities.Lib.Table

/-!
# `SocialActivities.Safety.Rows`: the moderation tables

The rows that the Python and the Go moderation services share: they work on one database.
`State` holds the tables, the clock and the sweeps in flight. A sweep of expired sanctions is
not one transaction: it lists its candidates once, and then takes one transaction for each, so
the state keeps what is left of each list.

`InForce` is the meaning of a sanction: an un-lifted lifetime ban, or an un-lifted timed
restriction with no expiry or a later one. `SweepsValid` is the invariant of the candidate
lists, and `SweepsValid.extends` its step rule: a step extends the state (`Extends`) when it
keeps every action row up to its stamp, moves the clock forward only, and lists candidates only
by the candidate query.

`FlagsAgree` is the meaning of the hidden flag: it is up exactly when a cause for it stands, the
author's own delete or an un-lifted REMOVE (`Standing`).

Notices to users and guardians, report rows and the wallet ban ledger are written by the
moderation functions and read by none of them; they are left out.
-/

namespace SocialActivities.Safety

open Lib

/-! ### Rows -/

inductive Action where
  | warn | remove | suspend | timedBan | ban
  deriving DecidableEq

/-- The stored text of an action. -/
def Action.value : Action → String
  | .warn => "warn"
  | .remove => "remove"
  | .suspend => "suspend"
  | .timedBan => "timed_ban"
  | .ban => "ban"

/-- `_TIMED_RESTRICTIONS`. -/
def Action.isTimedRestriction (a : Action) : Bool := a == .suspend || a == .timedBan

/-- `_ACCOUNT_SANCTIONS`. -/
def Action.isAccountSanction (a : Action) : Bool :=
  a == .suspend || a == .timedBan || a == .ban

inductive ReasonCode where
  | grooming | harassment | csam | spam | offPlatform | other
  deriving DecidableEq

/-- The stored text of a reason. -/
def ReasonCode.value : ReasonCode → String
  | .grooming => "grooming"
  | .harassment => "harassment"
  | .csam => "csam"
  | .spam => "spam"
  | .offPlatform => "off_platform"
  | .other => "other"

/-- The content that carries an `is_hidden` flag. -/
inductive ContentKind where
  | post | activity | group
  deriving DecidableEq

/-- The name of the content's model. -/
def ContentKind.model : ContentKind → String
  | .post => "post"
  | .activity => "activity"
  | .group => "group"

/-- A content row: its kind and its key. -/
structure ContentRef where
  kind : ContentKind
  id : Nat
  deriving DecidableEq

/-- The generic foreign key of an action: an account, content with an `is_hidden` flag, or
another row under its content type label. -/
inductive Target where
  | user (id : Nat)
  | content (ref : ContentRef)
  | other (label : String) (id : Nat)
  deriving DecidableEq

/-- The `target_ref` that an audit row stores for a target. -/
def Target.ref : Target → String
  | .user id => "accounts.user:" ++ toString id
  | .content c => "social." ++ c.kind.model ++ ":" ++ toString c.id
  | .other label id => label ++ ":" ++ toString id

/-- A `ModerationAction` row. `expiresAt = none` is an indefinite sanction, and
`liftedAt = none` an action that still stands. -/
structure ModerationAction where
  moderator : Nat
  target : Target
  action : Action
  reason : ReasonCode
  notes : String
  report : Option Nat
  expiresAt : Option Nat
  liftedAt : Option Nat
  createdAt : Nat
  deriving DecidableEq

/-- `ModerationAppeal.Status`. -/
inductive AppealStatus where
  | pending | upheld | overturned
  deriving DecidableEq

/-- A `ModerationAppeal` row. -/
structure ModerationAppeal where
  action : Nat
  appellant : Nat
  statement : String
  status : AppealStatus
  decidedBy : Option Nat
  decisionNotes : String
  decidedAt : Option Nat
  createdAt : Nat
  deriving DecidableEq

/-- The columns of an account row that moderation reads and writes. -/
structure User where
  isActive : Bool
  deriving DecidableEq

/-- The columns of a content row that moderation reads and writes. `author` is the user that an
action on the content affects, and only a post can have `isAuthorDeleted`. -/
structure Content where
  author : Nat
  isHidden : Bool
  isAuthorDeleted : Bool
  deriving DecidableEq

/-- A value in the data of an audit row. -/
inductive AuditDatum where
  | text (value : String)
  | number (value : Nat)
  | flag (value : Bool)
  deriving DecidableEq

/-- An audit row as it is asked for. -/
structure AuditEvent where
  event : String
  actor : Option Nat
  targetRef : String
  data : List (String × AuditDatum)
  deriving DecidableEq

/-- A sweep in flight: the time at which it listed its candidates, the candidates it has not
reached, and its count so far. -/
structure Sweep where
  now : Nat
  pending : List Nat
  reactivated : Nat
  deriving DecidableEq

/-- The moderation tables, the clock and the sweeps in flight. `owners` gives the affected user
of the other rows. -/
structure State where
  clock : Nat
  users : Nat → Option User
  contents : ContentRef → Option Content
  owners : String → Nat → Option Nat
  actions : Table ModerationAction
  appeals : Table ModerationAppeal
  audit : List AuditEvent
  sweeps : List Sweep

namespace State

/-- Accounts, visible content and other rows, before any moderation. -/
def start (users : Nat → Option User) (authors : ContentRef → Option Nat)
    (owners : String → Nat → Option Nat) (clock : Nat) : State where
  clock := clock
  users := users
  contents := fun c => (authors c).map fun author => ⟨author, false, false⟩
  owners := owners
  actions := Table.empty
  appeals := Table.empty
  audit := []
  sweeps := []

def setUser (s : State) (u : Nat) (row : User) : State :=
  { s with users := Function.update s.users u (some row) }

def setContent (s : State) (c : ContentRef) (row : Content) : State :=
  { s with contents := Function.update s.contents c (some row) }

/-- `lifted_at` of one action. -/
def setLifted (s : State) (id now : Nat) : State :=
  { s with actions := s.actions.modify id fun m => { m with liftedAt := some now } }

def recordAudit (s : State) (event : String) (actor : Option Nat) (targetRef : String)
    (data : List (String × AuditDatum)) : State :=
  { s with audit := s.audit ++ [⟨event, actor, targetRef, data⟩] }

/-- The user that an action on the target affects. -/
def affectedUser (s : State) : Target → Option Nat
  | .user u => (s.users u).map fun _ => u
  | .content c => (s.contents c).map Content.author
  | .other label id => s.owners label id

/-- Is there an un-lifted action on the target that satisfies the query? -/
def unliftedOn (s : State) (target : Target) (query : Nat → ModerationAction → Bool) : Bool :=
  s.actions.any fun k m => m.target == target && m.liftedAt.isNone && query k m

/-- Is the account active? `none` when there is no such account. -/
def active (s : State) (u : Nat) : Option Bool := (s.users u).map User.isActive

end State

variable {s : State}

theorem unliftedOn_iff {target : Target} {query : Nat → ModerationAction → Bool} :
    s.unliftedOn target query = true ↔ ∃ k m, s.actions.get? k = some m ∧ m.target = target ∧
      m.liftedAt = none ∧ query k m = true := by
  unfold State.unliftedOn
  rw [Table.any_iff]
  simp only [Bool.and_eq_true, beq_iff_eq, Option.isNone_iff_eq_none, and_assoc]

theorem unliftedOn_eq_false {target : Target} {query : Nat → ModerationAction → Bool} :
    s.unliftedOn target query = false ↔ ∀ k m, s.actions.get? k = some m → m.target = target →
      m.liftedAt = none → query k m = false := by
  rw [← Bool.not_eq_true, unliftedOn_iff]
  simp

@[simp] theorem active_setUser (s : State) (u : Nat) (row : User) (v : Nat) :
    (s.setUser u row).active v = if v = u then some row.isActive else s.active v := by
  unfold State.active State.setUser
  by_cases h : v = u <;> simp [h]

/-! ### Sanctions in force -/

/-- A sanction that is un-lifted and has not run out at `now`. -/
def ModerationAction.Holds (m : ModerationAction) (now : Nat) : Prop :=
  m.liftedAt = none ∧ (m.action = .ban ∨
    (m.action.isTimedRestriction = true ∧ ∀ e, m.expiresAt = some e → now < e))

/-- A sanction is in force on the account. -/
def InForce (s : State) (u : Nat) : Prop :=
  ∃ k m, s.actions.get? k = some m ∧ m.target = .user u ∧ m.Holds s.clock

/-! ### Sweeps -/

/-- The candidates of a sweep that reads the clock at `now`: the un-lifted timed restrictions
that have expired, in key order. -/
def candidateIds (now : Nat) (s : State) : List Nat :=
  s.actions.selectIds fun _ m =>
    m.action.isTimedRestriction && m.expiresAt.any (fun e => decide (e ≤ now))
      && m.liftedAt.isNone

/-- Open a sweep: read the clock and the candidates. -/
def startSweep (s : State) : State :=
  { s with sweeps := s.sweeps ++ [⟨s.clock, candidateIds s.clock s, 0⟩] }

/-- A candidate of a sweep in flight is a timed restriction that has expired by the time the
sweep read, which is no later than now. -/
def SweepsValid (s : State) : Prop :=
  ∀ sweep ∈ s.sweeps, sweep.now ≤ s.clock ∧ ∀ id ∈ sweep.pending, ∃ m e,
    s.actions.get? id = some m ∧ m.action.isTimedRestriction = true ∧
      m.expiresAt = some e ∧ e ≤ sweep.now

variable {id : Nat}

theorem mem_candidateIds {now : Nat} (h : id ∈ candidateIds now s) :
    ∃ m e, s.actions.get? id = some m ∧ m.action.isTimedRestriction = true ∧
      m.expiresAt = some e ∧ e ≤ now := by
  obtain ⟨m, hget, hquery⟩ := Table.mem_selectIds.mp h
  simp only [Bool.and_eq_true, Option.any_eq_true, decide_eq_true_eq] at hquery
  obtain ⟨⟨htimed, e, hexpires, hle⟩, -⟩ := hquery
  exact ⟨m, e, hget, htimed, hexpires, hle⟩

/-- What a step may do to the actions: nothing, one new un-lifted row, or one stamp. -/
def ActionsStep (before after : Table ModerationAction) : Prop :=
  after = before ∨ (∃ record, record.liftedAt = none ∧ after = before.insert record) ∨
    ∃ id t, after = before.modify id fun m => { m with liftedAt := some t }

theorem ActionsStep.get? {before after : Table ModerationAction} (h : ActionsStep before after)
    {k : Nat} {m : ModerationAction} (hget : before.get? k = some m) :
    ∃ l, after.get? k = some { m with liftedAt := l } := by
  rcases h with rfl | ⟨record, -, rfl⟩ | ⟨id, t, rfl⟩
  · exact ⟨m.liftedAt, hget⟩
  · rw [Table.get?_insert, if_neg (Nat.ne_of_lt (Table.lt_next hget))]
    exact ⟨m.liftedAt, hget⟩
  · rw [Table.get?_modify, hget]
    by_cases hk : k = id
    · exact ⟨some t, by rw [if_pos hk]; rfl⟩
    · exact ⟨m.liftedAt, by rw [if_neg hk]⟩

/-- What a step may do to the sweeps: each sweep after it was in flight before, with no new
candidate, or was opened by it. -/
def SweepsStep (s s' : State) : Prop :=
  ∀ sweep ∈ s'.sweeps,
    (∃ old ∈ s.sweeps, sweep.now = old.now ∧ ∀ id ∈ sweep.pending, id ∈ old.pending) ∨
    (sweep.now = s.clock ∧ sweep.pending = candidateIds s.clock s)

variable {s' : State}

theorem SweepsStep.of_eq (h : s'.sweeps = s.sweeps) : SweepsStep s s' :=
  fun sweep hsweep => Or.inl ⟨sweep, h ▸ hsweep, rfl, fun _ hid => hid⟩

theorem SweepsStep.drop {i now : Nat} {pending : List Nat} {count count' : Nat}
    (hsweep : s.sweeps[i]? = some ⟨now, id :: pending, count⟩)
    (h : s'.sweeps = s.sweeps.set i ⟨now, pending, count'⟩) : SweepsStep s s' := by
  intro sweep hmem
  rw [h] at hmem
  rcases List.mem_or_eq_of_mem_set hmem with hold | rfl
  · exact Or.inl ⟨sweep, hold, rfl, fun _ hid => hid⟩
  · exact Or.inl ⟨_, List.mem_of_getElem? hsweep, rfl, fun _ hid => List.mem_cons_of_mem _ hid⟩

theorem SweepsStep.start (s : State) : SweepsStep s (startSweep s) := by
  intro sweep hmem
  rcases List.mem_append.mp hmem with hold | hnew
  · exact Or.inl ⟨sweep, hold, rfl, fun _ hid => hid⟩
  · rw [List.mem_singleton.mp hnew]
    exact Or.inr ⟨rfl, rfl⟩

/-- A step extends the state: the clock does not go back, and actions and sweeps change only in
the ways above. -/
structure Extends (s s' : State) : Prop where
  clock : s.clock ≤ s'.clock
  actions : ActionsStep s.actions s'.actions
  sweeps : SweepsStep s s'

theorem SweepsValid.extends (h : SweepsValid s) (hstep : Extends s s') :
    SweepsValid s' := by
  intro sweep hsweep
  -- In both cases the candidates were valid rows of `s`, and rows survive the step.
  have hrows : sweep.now ≤ s.clock ∧ ∀ id ∈ sweep.pending, ∃ m e,
      s.actions.get? id = some m ∧ m.action.isTimedRestriction = true ∧
        m.expiresAt = some e ∧ e ≤ sweep.now := by
    rcases hstep.sweeps sweep hsweep with ⟨old, hold, hnow, hpending⟩ | ⟨hnow, hpending⟩
    · rw [hnow]
      exact ⟨(h old hold).1, fun id hid => (h old hold).2 id (hpending id hid)⟩
    · rw [hnow, hpending]
      exact ⟨Nat.le_refl _, fun id hid => mem_candidateIds hid⟩
  refine ⟨Nat.le_trans hrows.1 hstep.clock, fun id hid => ?_⟩
  obtain ⟨m, e, hget, htimed, hexpires, hle⟩ := hrows.2 id hid
  obtain ⟨l, hget'⟩ := hstep.actions.get? hget
  exact ⟨{ m with liftedAt := l }, e, hget', htimed, hexpires, hle⟩

theorem start_sweepsValid (users : Nat → Option User) (authors : ContentRef → Option Nat)
    (owners : String → Nat → Option Nat) (clock : Nat) :
    SweepsValid (State.start users authors owners clock) :=
  fun _ hsweep => absurd hsweep List.not_mem_nil

/-- What the effect of an action leaves alone. -/
structure Frame (s s' : State) : Prop where
  clock : s'.clock = s.clock
  actions : s'.actions = s.actions
  appeals : s'.appeals = s.appeals
  sweeps : s'.sweeps = s.sweeps

/-! ### What both services ask and write -/

/-- A transaction that fails is rolled back. -/
def commit {ε : Type} (s : State) : Except ε State → State
  | .ok s' => s'
  | .error _ => s

/-- The transaction of one candidate of a sweep: lock it un-lifted, look at its account, and stamp
`lifted_at`. -/
def liftWith (reactivate : Target → State → State × Option Nat) (now id : Nat) (s : State) :
    State × Option Nat :=
  match s.actions.get? id with
  | none => (s, none)
  | some action =>
    -- Lifted since the sweep listed it, by an appeal or by another sweep.
    if action.liftedAt.isSome then (s, none)
    else
      -- The account is looked at before the stamp, so the candidate is among the rows read: its
      -- own expiry has passed.
      let (s', reactivated) := reactivate action.target s
      (s'.setLifted id now, reactivated)

/-- The next candidate of the `i`-th sweep, in its own transaction. -/
def sweepWith (lift : Nat → Nat → State → State × Option Nat) (i : Nat) (s : State) : State :=
  match s.sweeps[i]? with
  | some ⟨now, id :: pending, count⟩ =>
    let (s', reactivated) := lift now id s
    { s' with sweeps := s.sweeps.set i ⟨now, pending, count + reactivated.toList.length⟩ }
  | _ => s

/-- The next candidate of the `i`-th sweep is locked by another worker: step over it. -/
def sweepSkip (i : Nat) (s : State) : State :=
  match s.sweeps[i]? with
  | some ⟨now, _ :: pending, count⟩ =>
    { s with sweeps := s.sweeps.set i ⟨now, pending, count⟩ }
  | _ => s

structure Reversal where
  reactivated : Bool
  leftHiddenAuthorDeleted : Bool
  deriving DecidableEq

/-- Another un-lifted lifetime ban than action `id` on the target. -/
def otherBan (id : Nat) (target : Target) (s : State) : Bool :=
  s.unliftedOn target fun k m => k != id && m.action == .ban

/-- Another un-lifted timed restriction than action `id`, with no expiry or a later one. -/
def otherTimed (id : Nat) (target : Target) (s : State) : Bool :=
  s.unliftedOn target fun k m => k != id && m.action.isTimedRestriction &&
    (m.expiresAt.isNone || m.expiresAt.any fun e => decide (s.clock < e))

/-- Another un-lifted REMOVE than action `id` on the target. -/
def otherRemove (id : Nat) (target : Target) (s : State) : Bool :=
  s.unliftedOn target fun k m => k != id && m.action == .remove

/-- The stamp of a reversal: an action that is lifted already keeps its first stamp. -/
def stampReversed (id : Nat) (action : ModerationAction) (s : State) : State :=
  if action.liftedAt.isNone then s.setLifted id s.clock else s

/-- The account branch of a reversal. -/
def reverseSanction (id : Nat) (action : ModerationAction) (u : Nat) (row : User) (s : State) :
    State × Reversal :=
  -- The queries leave the reversed action out, so the stamp does not change their answer.
  let held := otherBan id action.target s || otherTimed id action.target s
  let s := stampReversed id action s
  if !held && !row.isActive then (s.setUser u { row with isActive := true }, ⟨true, false⟩)
  else (s, ⟨false, false⟩)

/-- The columns that a resolution writes on the appeal. -/
def decided (moderator now : Nat) (grant : Bool) (notes : String) (appeal : ModerationAppeal) :
    ModerationAppeal :=
  { appeal with
      status := if grant then .overturned else .upheld
      decidedBy := some moderator
      decidedAt := some now
      decisionNotes := notes }

section

variable {reactivate : Target → State → State × Option Nat} {now : Nat}

theorem liftWith_of_lifted (h : ∀ m, s.actions.get? id = some m → m.liftedAt ≠ none) :
    liftWith reactivate now id s = (s, none) := by
  unfold liftWith
  cases hget : s.actions.get? id with
  | none => rfl
  | some m =>
    have hlifted : m.liftedAt.isSome = true := Option.isSome_iff_ne_none.mpr (h m hget)
    simp only [hlifted, if_true]

theorem liftWith_of_unlifted {m : ModerationAction} (hget : s.actions.get? id = some m)
    (hlifted : m.liftedAt = none) : liftWith reactivate now id s =
      ((reactivate m.target s).1.setLifted id now, (reactivate m.target s).2) := by
  unfold liftWith
  simp only [hget, hlifted, Option.isSome_none, Bool.false_eq_true, if_false]

theorem liftWith_frame (now id : Nat) (s : State) (hframe : ∀ target,
      Frame s (reactivate target s).1 ∧ (reactivate target s).1.contents = s.contents) :
    (liftWith reactivate now id s).1.clock = s.clock ∧
      (liftWith reactivate now id s).1.appeals = s.appeals ∧
      (liftWith reactivate now id s).1.contents = s.contents ∧
      ((liftWith reactivate now id s).1.actions = s.actions ∨
        (liftWith reactivate now id s).1.actions
          = s.actions.modify id fun m => { m with liftedAt := some now }) := by
  by_cases h : ∃ m, s.actions.get? id = some m ∧ m.liftedAt = none
  · obtain ⟨m, hget, hlifted⟩ := h
    rw [liftWith_of_unlifted hget hlifted]
    obtain ⟨hsame, hcontents⟩ := hframe m.target
    refine ⟨hsame.clock, hsame.appeals, hcontents, Or.inr ?_⟩
    simp only [State.setLifted, hsame.actions]
  · rw [liftWith_of_lifted fun m hm hnone => h ⟨m, hm, hnone⟩]
    exact ⟨rfl, rfl, rfl, Or.inl rfl⟩

end

theorem stampReversed_frame (id : Nat) (action : ModerationAction) (s : State) :
    (stampReversed id action s).clock = s.clock ∧
      (stampReversed id action s).appeals = s.appeals ∧
      (stampReversed id action s).sweeps = s.sweeps ∧
      (stampReversed id action s).users = s.users ∧
      (stampReversed id action s).contents = s.contents ∧
      ((stampReversed id action s).actions = s.actions ∨
        (stampReversed id action s).actions
          = s.actions.modify id fun m => { m with liftedAt := some s.clock }) := by
  unfold stampReversed
  split
  · exact ⟨rfl, rfl, rfl, rfl, rfl, Or.inr rfl⟩
  · exact ⟨rfl, rfl, rfl, rfl, rfl, Or.inl rfl⟩

/-! ### Content flags -/

/-- The action is an un-lifted REMOVE on the content. -/
def ModerationAction.Removes (m : ModerationAction) (c : ContentRef) : Prop :=
  m.target = .content c ∧ m.action = .remove ∧ m.liftedAt = none

/-- An un-lifted REMOVE on the content. -/
def Standing (actions : Table ModerationAction) (c : ContentRef) : Prop :=
  ∃ k m, actions.get? k = some m ∧ m.Removes c

/-- Every content row is hidden exactly when its author deleted it or a REMOVE on it stands. -/
def FlagsAgree (s : State) : Prop :=
  ∀ c row, s.contents c = some row →
    (row.isHidden = true ↔ row.isAuthorDeleted = true ∨ Standing s.actions c)

variable {c : ContentRef} {actions : Table ModerationAction}

theorem standing_insert {record : ModerationAction} :
    Standing (actions.insert record) c ↔ Standing actions c ∨ record.Removes c := by
  constructor
  · rintro ⟨k, m, hget, hm⟩
    rw [Table.get?_insert] at hget
    by_cases hk : k = actions.next
    · rw [if_pos hk, Option.some.injEq] at hget
      exact Or.inr (hget ▸ hm)
    · rw [if_neg hk] at hget
      exact Or.inl ⟨k, m, hget, hm⟩
  · rintro (⟨k, m, hget, hm⟩ | hrecord)
    · refine ⟨k, m, ?_, hm⟩
      rw [Table.get?_insert, if_neg (Nat.ne_of_lt (Table.lt_next hget))]
      exact hget
    · refine ⟨actions.next, record, ?_, hrecord⟩
      rw [Table.get?_insert, if_pos rfl]

theorem standing_stamp {t : Nat} :
    Standing (actions.modify id fun m => { m with liftedAt := some t }) c ↔
      ∃ k m, k ≠ id ∧ actions.get? k = some m ∧ m.Removes c := by
  constructor
  · rintro ⟨k, m, hget, hm⟩
    rw [Table.get?_modify] at hget
    by_cases hk : k = id
    · rw [if_pos hk] at hget
      obtain ⟨m', -, rfl⟩ := Option.map_eq_some_iff.mp hget
      exact absurd hm.2.2 (by simp)
    · rw [if_neg hk] at hget
      exact ⟨k, m, hk, hget, hm⟩
  · rintro ⟨k, m, hk, hget, hm⟩
    refine ⟨k, m, ?_, hm⟩
    rw [Table.get?_modify, if_neg hk]
    exact hget

theorem standing_stamp_of_not {t : Nat}
    {m : ModerationAction} (hget : actions.get? id = some m) (hm : ¬ m.Removes c) :
    Standing (actions.modify id fun m => { m with liftedAt := some t }) c ↔
      Standing actions c := by
  rw [standing_stamp]
  constructor
  · rintro ⟨k, m', -, hget', hm'⟩
    exact ⟨k, m', hget', hm'⟩
  · rintro ⟨k, m', hget', hm'⟩
    refine ⟨k, m', ?_, hget', hm'⟩
    rintro rfl
    rw [hget, Option.some.injEq] at hget'
    exact hm (hget' ▸ hm')

end SocialActivities.Safety
