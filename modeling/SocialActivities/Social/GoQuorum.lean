import SocialActivities.Social.GoAdmission

/-!
# `SocialActivities.Social.GoQuorum`: the quorum latch (Go)

An activity may set `min_to_go`. When enough members say that they are going, `confirmQuorum` sets
`go_confirmed_at`, once, and tells the members that the meetup is on. It runs at the end of `RSVP`
and of `UpdateActivity`.

The model adds to the rows of the activity the `attendance_intent` of each membership and the
latch, and a `Fanout` for each time the notice goes out. `Latched` is the invariant: an open
activity with enough members going has the latch. Every other operation keeps it because none of
them raises the number of members going (`operate_quorum`): a request that is admitted has the
intent that `Join` wrote, which is unknown.

`quorum_latch` is the whole life of an activity, from before its creation to after its deletion.
-/

namespace SocialActivities.Social.Go

open Lib
open Lib.Machine (run steps)

inductive AttendanceIntent where
  | unknown
  | going
  | notGoing
  deriving DecidableEq

/-- The values that `RSVP` accepts. -/
def AttendanceIntent.parse (text : String) : Option AttendanceIntent :=
  if text == "unknown" then some .unknown
  else if text == "going" then some .going
  else if text == "not_going" then some .notGoing
  else none

/-- The rows of the activity with the intents, by user, and the latch. -/
structure QuorumState where
  base : State
  intents : Nat → AttendanceIntent
  goConfirmedAt : Option Nat

namespace QuorumState

variable (s : QuorumState)

/-- A member who is no guardian and says to be going. -/
def isGoing (u : Nat) : Bool := s.base.isSeated u && decide (s.intents u = .going)

/-- The count of `confirmQuorum`. -/
def going : Nat := s.base.memberships.count fun u m => m.isSeat && decide (s.intents u = .going)

/-- The condition of `confirmQuorum`, less the latch. -/
def reached : Bool :=
  s.base.activity.status == .opened
    && s.base.activity.minToGo.any fun least => decide (least ≤ s.going)

end QuorumState

/-- One notice that the meetup is on: the rows just before the latch, and who gets it. -/
structure Fanout where
  before : QuorumState
  recipients : List Nat

/-- The owner, when seated, and then the members that no block separates from the owner. -/
def quorumRecipients (env : Env) (s : State) : List Nat :=
  let owner := s.activity.owner
  (if (s.memberships.get? owner).any fun m => m.state == .member then [owner] else [])
    ++ (s.memberships.keysWhere fun u m =>
        m.state == .member && u != owner && !env.blocked owner u).mergeSort

def confirmQuorum (env : Env) (s : QuorumState) : QuorumState × List Fanout :=
  if s.goConfirmedAt.isNone && s.reached then
    ({ s with goConfirmedAt := some env.now }, [⟨s, quorumRecipients env s.base⟩])
  else (s, [])

def rsvp (env : Env) (a : Actor) (intent : String) (fails : Bool) (s : QuorumState) :
    Except Error (QuorumState × List Fanout) :=
  match AttendanceIntent.parse intent with
  | none => .error .errInvalid
  | some intent => do
    participate env a
    activity env a s.base
    need Error.errForbidden ((s.base.memberships.get? a.id).any fun m => m.state == .member)
    need Error.failed (!fails)
    -- In the same transaction, so before anybody sees the new intent.
    pure (confirmQuorum env { s with intents := Function.update s.intents a.id intent })

/-- An operation on the rows. `otherColumns` says that an update also writes a column that the
model leaves out. -/
inductive QuorumOp where
  | rsvp (a : Actor) (intent : String) (fails : Bool)
  | operate (op : Op) (otherColumns : Bool)

/-- The intents after an operation: `Join` and `Leave` reset the intent of the row, a new row of a
guardian and a deleted row have none. -/
def intentsAfter (op : Op) (s : QuorumState) : Nat → AttendanceIntent :=
  match op with
  | .join a _ => Function.update s.intents a.id .unknown
  | .leave a _ => Function.update s.intents a.id .unknown
  | .addGuardian _ target _ =>
    if (s.base.memberships.get? target).isNone then Function.update s.intents target .unknown
    else s.intents
  | .erase u => Function.update s.intents u .unknown
  | _ => s.intents

/-- The update writes a column, and so goes on to `confirmQuorum`. -/
def Op.writesColumns (otherColumns : Bool) : Op → Bool
  | .update _ changes _ => otherColumns || changes.startsAt.isSome || changes.endsAt.isSome
      || changes.capacity.isSome || changes.minToGo.isSome
  | _ => false

/-- An operation on an activity that exists, with the notices that it sends. -/
def quorumOperate (env : Env) (s : QuorumState) :
    QuorumOp → Except Error (QuorumState × List Fanout)
  | .rsvp a intent fails => rsvp env a intent fails s
  | .operate op otherColumns => do
    let r ← operate env s.base op
    let s' : QuorumState := ⟨r.1, intentsAfter op s, s.goConfirmedAt⟩
    -- An update without a column to write returns before the quorum.
    pure (if op.writesColumns otherColumns then confirmQuorum env s' else (s', []))

/-- The life of one activity. -/
inductive Life where
  | unborn
  | alive (s : QuorumState)
  | deleted

/-- The state of a new activity: `go_confirmed_at` is null, and the owner's intent is unknown. -/
def newborn (s : State) : QuorumState := ⟨s, fun _ => .unknown, none⟩

def QuorumOp.deletes (s : QuorumState) : QuorumOp → Bool
  | .rsvp _ _ _ => false
  | .operate op _ => Go.deletes s.base op

/-- One operation in the life of the activity. -/
def Life.next (env : Env) (op : QuorumOp) : Life → Life × List Fanout
  | .unborn =>
    match op with
    | .operate (.create a input fromSeries fails) _ =>
      match createActivity env a input fromSeries fails with
      | .ok s => (.alive (newborn s), [])
      | .error _ => (.unborn, [])
    | _ => (.unborn, [])
  | .alive s =>
    if op.deletes s then (.deleted, [])
    else
      match quorumOperate env s op with
      | .ok r => (.alive r.1, r.2)
      | .error _ => (.alive s, [])
  | .deleted => (.deleted, [])

def Life.step (life : Life) (p : Env × QuorumOp) : Life := (life.next p.1 p.2).1

/-- The notices of one operation. -/
def Life.fanouts (life : Life) (p : Env × QuorumOp) : List Fanout := (life.next p.1 p.2).2

/-! ### What an operation does to the seats -/

/-- What an operation other than `Join` and `UpdateActivity` keeps: it opens nothing, leaves
`min_to_go`, seats only whose request waited, and makes no request. -/
structure QuorumKept (s s' : State) : Prop where
  status : s'.activity.status = .opened → s.activity.status = .opened
  minToGo : s'.activity.minToGo = s.activity.minToGo
  seats : ∀ u, s'.isSeated u = true → s.isSeated u = true ∨ s.isRequested u = true
  requested : ∀ u, s'.isRequested u = true → s.isRequested u = true

namespace QuorumKept

variable {s t r : State}

theorem refl (s : State) : QuorumKept s s := ⟨id, rfl, fun _ h => Or.inl h, fun _ h => h⟩

theorem trans (h : QuorumKept s t) (h' : QuorumKept t r) : QuorumKept s r where
  status hr := h.status (h'.status hr)
  minToGo := h'.minToGo.trans h.minToGo
  seats u hu := by
    -- A request that is seated by the second step was one before the first.
    rcases h'.seats u hu with hseat | hreq
    · exact h.seats u hseat
    · exact Or.inr (h.requested u hreq)
  requested u hu := h.requested u (h'.requested u hu)

theorem activity (v : Activity) (hstatus : v.status = .opened → s.activity.status = .opened)
    (hmin : v.minToGo = s.activity.minToGo) : QuorumKept s { s with activity := v } :=
  ⟨hstatus, hmin, fun _ h => Or.inl h, fun _ h => h⟩

theorem votes (votes : KeyMap (Nat × Nat) Bool) : QuorumKept s { s with votes } :=
  ⟨id, rfl, fun _ h => Or.inl h, fun _ h => h⟩

variable {u : Nat}

theorem setMembership {m : Membership} (hstate : m.state ≠ .requested)
    (hseat : m.isSeat = true → s.isSeated u = true ∨ s.isRequested u = true) :
    QuorumKept s (s.setMembership u m) where
  status := id
  minToGo := rfl
  seats v hv := by
    rw [State.isSeated_setMembership] at hv
    split at hv
    · next huv => exact huv ▸ hseat hv
    · exact Or.inl hv
  requested v hv := by
    obtain ⟨n, hn, hnstate⟩ := State.isRequested_iff.mp hv
    rw [State.get?_setMembership] at hn
    split at hn
    · obtain rfl := Option.some.inj hn
      exact absurd hnstate hstate
    · exact State.isRequested_iff.mpr ⟨n, hn, hnstate⟩

theorem setRole {m : Membership} (role : Role) (hget : s.memberships.get? u = some m)
    (hseat : m.isSeat = true) : QuorumKept s (s.setMembership u { m with role }) := by
  refine setMembership ?_ fun _ => Or.inl (State.isSeated_iff.mpr ⟨m, hget, hseat⟩)
  show m.state ≠ .requested
  rw [Membership.state_of_isSeat hseat]
  decide

theorem admitUser (hreq : s.isRequested u = true) : QuorumKept s (s.admitUser u) := by
  obtain ⟨m, hget, -⟩ := State.isRequested_iff.mp hreq
  rw [State.admitUser, hget]
  exact setMembership (by simp) fun _ => Or.inr hreq

theorem eraseUser (s : State) (u : Nat) : QuorumKept s (s.eraseUser u) where
  status := id
  minToGo := rfl
  seats v hv := Or.inl ((Keeps.eraseUser s u).seats v hv)
  requested v hv := by
    obtain ⟨n, hn, hnstate⟩ := State.isRequested_iff.mp hv
    rw [State.get?_eraseUser] at hn
    split at hn
    · cases hn
    · exact State.isRequested_iff.mpr ⟨n, hn, hnstate⟩

end QuorumKept

section

variable {env : Env} {a : Actor} {fails : Bool} {s s' : State}

theorem Admits.quorumKept {log : List Admission} (h : Admits env s log s') : QuorumKept s s' := by
  induction h with
  | nil s => exact QuorumKept.refl s
  | cons gate _ ih => exact (QuorumKept.admitUser gate.requested).trans ih

theorem Admits.requestsPlain {log : List Admission} (h : Admits env s log s')
    (hplain : s.RequestsPlain) : s'.RequestsPlain := by
  induction h with
  | nil => exact hplain
  | cons _ _ ih => exact ih (hplain.admitUser _)

theorem cancelActivity_quorumKept (h : cancelActivity env a fails s = .ok s') :
    QuorumKept s s' := by
  unfold cancelActivity at h
  simp only [seq_eq_ok, need_eq_ok, pure_eq_ok] at h
  obtain ⟨-, -, -, -, -, rfl⟩ := h
  exact QuorumKept.activity _ (fun h => by cases h) rfl

theorem moveActivity_quorumKept {place : Nat} (h : moveActivity env a place fails s = .ok s') :
    QuorumKept s s' := by
  rcases moveActivity_spec h with rfl | rfl
  · exact QuorumKept.refl s'
  · exact QuorumKept.activity _ id rfl

theorem autoComplete_quorumKept (env : Env) (grace : Nat) (s : State) :
    QuorumKept s (autoComplete env grace s) := by
  unfold autoComplete
  split
  · exact QuorumKept.activity _ (fun h => by cases h) rfl
  · exact QuorumKept.refl s

theorem leave_quorumKept (h : leave a fails s = .ok s') : QuorumKept s s' := by
  obtain ⟨m, -, -, rfl⟩ := leave_spec h
  exact QuorumKept.setMembership (by simp) fun h => by cases h

theorem demoteOwner_quorumKept (u : Nat) (s : State) : QuorumKept s (demoteOwner u s) := by
  rcases demoteOwner_spec u s with h | ⟨m, hget, hseat, h⟩
  · rw [h]
    exact QuorumKept.refl s
  · rw [h]
    exact QuorumKept.setRole .member hget hseat

variable {target : Nat}

theorem changeOrganizer_quorumKept {action : String}
    (h : changeOrganizer env a target action fails s = .ok s') : QuorumKept s s' := by
  rcases changeOrganizer_spec h with rfl | ⟨m, hget, hseat, hne, -, -, rfl | rfl | rfl⟩
  · exact QuorumKept.refl s'
  · exact QuorumKept.setRole .member hget hseat
  · exact QuorumKept.setRole .coOrganizer hget hseat
  · have hcolumn : QuorumKept s { s with activity := { s.activity with owner := target } } :=
      QuorumKept.activity _ id rfl
    exact (hcolumn.trans (demoteOwner_quorumKept a.id _)).trans
      (QuorumKept.setRole .owner ((get?_demoteOwner hne _).trans hget) hseat)

variable {r : State × List Admission}

theorem vote_quorumKept {approve override : Bool}
    (h : vote env a target approve override fails s = .ok r) : QuorumKept s r.1 := by
  obtain ⟨t, ht, -, hadmits, -⟩ := vote_change h
  have hballot : QuorumKept s t := by
    rcases ht with ⟨-, rfl⟩ | ⟨rfl, -⟩
    · exact QuorumKept.refl t
    · exact QuorumKept.votes _
  exact hballot.trans hadmits.quorumKept

theorem addGuardian_quorumKept {r : State × List Admission}
    (hplain : s.RequestsPlain) (h : addGuardian env a target fails s = .ok r) :
    QuorumKept s r.1 := by
  have hrow : QuorumKept s (s.setMembership target ⟨.guardian, .member⟩) :=
    QuorumKept.setMembership (by decide) fun h => by cases h
  exact hrow.trans (addGuardian_change hplain h).2.quorumKept

theorem setSupervision_quorumKept {supervised : Bool}
    (hplain : s.RequestsPlain) (h : setSupervision env a supervised fails s = .ok r) :
    QuorumKept s r.1 := by
  have hrow : QuorumKept s (withSupervision supervised s) := QuorumKept.activity _ id rfl
  exact hrow.trans (setSupervision_change hplain h).2.2.quorumKept

end

variable {env : Env}

theorem operate_quorumKept {op : Op} {s : State} {r : State × List Admission}
    (hplain : s.RequestsPlain) (hjoin : ∀ a fails, op ≠ .join a fails)
    (hupdate : ∀ a changes fails, op ≠ .update a changes fails) (h : operate env s op = .ok r) :
    QuorumKept s r.1 := by
  -- One lemma for each operation; the two that are left out have their own.
  cases op with
  | create =>
    have hr := Except.ok.inj (quiet_eq_ok.mp h).1
    exact hr ▸ QuorumKept.refl s
  | update a changes fails => exact absurd rfl (hupdate a changes fails)
  | cancel => exact cancelActivity_quorumKept (quiet_eq_ok.mp h).1
  | move => exact moveActivity_quorumKept (quiet_eq_ok.mp h).1
  | autoComplete grace =>
    have hr := Except.ok.inj (quiet_eq_ok.mp h).1
    exact hr ▸ autoComplete_quorumKept env grace s
  | join a fails => exact absurd rfl (hjoin a fails)
  | leave => exact leave_quorumKept (quiet_eq_ok.mp h).1
  | vote => exact vote_quorumKept h
  | changeOrganizer => exact changeOrganizer_quorumKept (quiet_eq_ok.mp h).1
  | addGuardian => exact addGuardian_quorumKept hplain h
  | setSupervision => exact setSupervision_quorumKept hplain h
  | setHidden =>
    have hr := Except.ok.inj (quiet_eq_ok.mp h).1
    exact hr ▸ QuorumKept.activity _ id rfl
  | erase u =>
    have hr := Except.ok.inj (quiet_eq_ok.mp h).1
    exact hr ▸ QuorumKept.eraseUser s u

/-! ### The latch -/

/-- What holds in every state: pending requests have no guardian role and an unknown intent, and an
open activity with enough members going has the latch. -/
structure Latched (s : QuorumState) : Prop where
  plain : s.base.RequestsPlain
  unknown : ∀ u, s.base.isRequested u = true → s.intents u = .unknown
  latched : s.reached = true → s.goConfirmedAt.isSome = true

theorem intentsAfter_cases (op : Op) (s : QuorumState) (u : Nat) :
    intentsAfter op s u = s.intents u ∨ intentsAfter op s u = .unknown := by
  have hupdate : ∀ v, Function.update s.intents v .unknown u = s.intents u ∨
      Function.update s.intents v .unknown u = .unknown := by
    intro v
    by_cases huv : u = v
    · rw [huv, Function.update_self]
      exact Or.inr rfl
    · rw [Function.update_of_ne huv]
      exact Or.inl rfl
  unfold intentsAfter
  cases op with
  | join a => exact hupdate a.id
  | leave a => exact hupdate a.id
  | addGuardian a target =>
    dsimp only
    split
    · exact hupdate target
    · exact Or.inl rfl
  | erase v => exact hupdate v
  | _ => exact Or.inl rfl

variable {s' : QuorumState}

theorem going_le {s : QuorumState}
    (h : ∀ u, s'.isGoing u = true → s.isGoing u = true) : s'.going ≤ s.going := by
  refine KeyMap.count_le_of_keys fun u m hget hcond => ?_
  rw [Bool.and_eq_true] at hcond
  have hgoing : s'.isGoing u = true := by
    rw [QuorumState.isGoing, Bool.and_eq_true]
    exact ⟨State.isSeated_iff.mpr ⟨m, hget, hcond.1⟩, hcond.2⟩
  have hwas := h u hgoing
  rw [QuorumState.isGoing, Bool.and_eq_true] at hwas
  obtain ⟨n, hn, hseat⟩ := State.isSeated_iff.mp hwas.1
  exact ⟨n, hn, by rw [hseat, hwas.2]; rfl⟩

theorem reached_of_going_le {s : QuorumState} (hgoing : s'.going ≤ s.going)
    (hstatus : s'.base.activity.status = .opened → s.base.activity.status = .opened)
    (hmin : s'.base.activity.minToGo = s.base.activity.minToGo) (h : s'.reached = true) :
    s.reached = true := by
  unfold QuorumState.reached at h ⊢
  rw [Bool.and_eq_true, beq_iff_eq, Option.any_eq_true] at h ⊢
  obtain ⟨hopen, least, hleast, hle⟩ := h
  have hle : least ≤ s'.going := of_decide_eq_true hle
  exact ⟨hstatus hopen, least, hmin ▸ hleast, decide_eq_true (Nat.le_trans hle hgoing)⟩

theorem confirmQuorum_latched {s : QuorumState} (hplain : s.base.RequestsPlain)
    (hunknown : ∀ u, s.base.isRequested u = true → s.intents u = .unknown) :
    Latched (confirmQuorum env s).1 := by
  unfold confirmQuorum
  by_cases h : (s.goConfirmedAt.isNone && s.reached) = true
  · rw [if_pos h]
    exact ⟨hplain, hunknown, fun _ => rfl⟩
  · rw [if_neg h]
    refine ⟨hplain, hunknown, fun hreached => ?_⟩
    rw [hreached, Bool.and_true, Option.isNone_iff_eq_none] at h
    exact Option.isSome_iff_ne_none.mpr h

/-- What one operation does to the latch: it is never cleared, and the notice goes out only when it
is set, with enough members going. -/
structure LatchStep (s s' : QuorumState) (log : List Fanout) : Prop where
  kept : ∀ t, s.goConfirmedAt = some t → s'.goConfirmedAt = some t
  fanout : log = [] ∨ s.goConfirmedAt = none ∧ s'.goConfirmedAt.isSome = true ∧
    ∃ f, log = [f] ∧ f.before.reached = true

theorem confirmQuorum_step (env : Env) (s : QuorumState) :
    LatchStep s (confirmQuorum env s).1 (confirmQuorum env s).2 := by
  unfold confirmQuorum
  by_cases h : (s.goConfirmedAt.isNone && s.reached) = true
  · rw [if_pos h]
    rw [Bool.and_eq_true, Option.isNone_iff_eq_none] at h
    refine ⟨fun t ht => ?_, Or.inr ⟨h.1, rfl, _, rfl, h.2⟩⟩
    rw [h.1] at ht
    cases ht
  · rw [if_neg h]
    exact ⟨fun t ht => ht, Or.inl rfl⟩

theorem Latched.of_kept {s : QuorumState} (hs : Latched s) (hplain : s'.base.RequestsPlain)
    (hintents : ∀ u, s'.intents u = s.intents u ∨ s'.intents u = .unknown)
    (hlatch : s'.goConfirmedAt = s.goConfirmedAt) (hkept : QuorumKept s.base s'.base) :
    Latched s' := by
  refine ⟨hplain, fun u hu => ?_, fun hreached => ?_⟩
  · rcases hintents u with heq | hunknown
    · exact heq.trans (hs.unknown u (hkept.requested u hu))
    · exact hunknown
  · -- A new seat was a request, so its intent is unknown.
    have hgoing : ∀ u, s'.isGoing u = true → s.isGoing u = true := by
      intro u hu
      rw [QuorumState.isGoing, Bool.and_eq_true, decide_eq_true_eq] at hu ⊢
      rcases hintents u with heq | hunknown
      · rcases hkept.seats u hu.1 with hseat | hreq
        · exact ⟨hseat, heq.symm.trans hu.2⟩
        · have hstays := heq.trans (hs.unknown u hreq)
          rw [hu.2] at hstays
          cases hstays
      · rw [hu.2] at hunknown
        cases hunknown
    rw [hlatch]
    exact hs.latched
      (reached_of_going_le (going_le hgoing) hkept.status hkept.minToGo hreached)

variable {fails : Bool} {a : Actor}

theorem Latched.join {s : QuorumState} {t : State}
    (hs : Latched s) (h : join env a fails s.base = .ok t) :
    Latched ⟨t, intentsAfter (.join a fails) s, s.goConfirmedAt⟩ := by
  have hkeeps := join_keeps h
  unfold Go.join at h
  simp only [seq_eq_ok, need_eq_ok, pure_eq_ok] at h
  obtain ⟨-, -, -, -, -, -, -, ht⟩ := h
  refine ⟨hkeeps.plain hs.plain, fun u hu => ?_, fun hreached => ?_⟩
  · show Function.update s.intents a.id .unknown u = .unknown
    by_cases huv : u = a.id
    · rw [huv, Function.update_self]
    · rw [Function.update_of_ne huv]
      rw [← ht] at hu
      obtain ⟨n, hn, hnstate⟩ := State.isRequested_iff.mp hu
      have hrow : (s.base.setMembership a.id ⟨.member, .requested⟩).memberships.get? u = some n := hn
      rw [State.get?_setMembership, if_neg huv] at hrow
      exact hs.unknown u (State.isRequested_iff.mpr ⟨n, hrow, hnstate⟩)
  · -- A join seats nobody and clears one intent, so nobody is newly going.
    have hgoing : ∀ u, QuorumState.isGoing ⟨t, intentsAfter (.join a fails) s, s.goConfirmedAt⟩ u
        = true → s.isGoing u = true := by
      intro u hu
      rw [QuorumState.isGoing, Bool.and_eq_true, decide_eq_true_eq] at hu ⊢
      refine ⟨hkeeps.seats u hu.1, ?_⟩
      rcases intentsAfter_cases (.join a fails) s u with heq | hunknown
      · exact heq.symm.trans hu.2
      · have hno := hunknown.symm.trans hu.2
        cases hno
    have hactivity : t.activity = s.base.activity := ht ▸ rfl
    refine hs.latched (reached_of_going_le (going_le hgoing) (fun h => ?_) ?_ hreached)
    · exact hactivity ▸ h
    · exact congrArg Activity.minToGo hactivity

theorem apply_of_not_writesColumns {changes : Changes} {otherColumns : Bool}
    (h : (Op.update a changes fails).writesColumns otherColumns = false) (v : Activity) :
    changes.apply v = v := by
  simp only [Op.writesColumns, Bool.or_eq_false_iff, Option.isSome_eq_false_iff,
    Option.isNone_iff_eq_none] at h
  obtain ⟨⟨⟨⟨-, hstarts⟩, hends⟩, hcapacity⟩, hmin⟩ := h
  unfold Changes.apply
  rw [hstarts, hends, hcapacity, hmin]
  rfl

theorem rsvp_spec {text : String} {s : QuorumState}
    {r : QuorumState × List Fanout} (hs : Latched s) (h : rsvp env a text fails s = .ok r) :
    Latched r.1 ∧ LatchStep s r.1 r.2 := by
  unfold rsvp at h
  split at h
  · cases h
  · next intent _ =>
    simp only [seq_eq_ok, need_eq_ok, pure_eq_ok] at h
    obtain ⟨-, -, hmember, -, rfl⟩ := h
    refine ⟨confirmQuorum_latched hs.plain fun u hu => ?_, ?_⟩
    · -- Who answers is a member, so not waiting.
      have hne : u ≠ a.id := by
        rintro rfl
        obtain ⟨n, hn, hnstate⟩ := State.isRequested_iff.mp hu
        rw [hn, Option.any_some, hnstate] at hmember
        cases hmember
      show Function.update s.intents a.id intent u = .unknown
      rw [Function.update_of_ne hne]
      exact hs.unknown u hu
    · have hstep := confirmQuorum_step env { s with intents := Function.update s.intents a.id intent }
      exact ⟨hstep.kept, hstep.fanout⟩

theorem memberships_updateActivity {changes : Changes}
    {s t : State} (h : updateActivity env a changes fails s = .ok t) :
    t = { s with activity := changes.apply s.activity } := by
  unfold updateActivity at h
  simp only [seq_eq_ok, need_eq_ok, pure_eq_ok] at h
  obtain ⟨-, -, -, -, -, -, -, -, rfl⟩ := h
  rfl

theorem quorumOperate_spec {op : QuorumOp} {s : QuorumState}
    {r : QuorumState × List Fanout} (hs : Latched s) (h : quorumOperate env s op = .ok r) :
    Latched r.1 ∧ LatchStep s r.1 r.2 := by
  cases op with
  | rsvp => exact rsvp_spec hs h
  | operate op otherColumns =>
    obtain ⟨t, ht, hrest⟩ := bind_eq_ok.mp h
    obtain rfl := pure_eq_ok.mp hrest
    have hplain : t.1.RequestsPlain := by
      obtain ⟨k, hkeeps, hadmits, -⟩ := operate_change hs.plain ht
      exact hadmits.requestsPlain (hkeeps.plain hs.plain)
    have hquiet : Latched ⟨t.1, intentsAfter op s, s.goConfirmedAt⟩ →
        Latched ⟨t.1, intentsAfter op s, s.goConfirmedAt⟩ ∧
          LatchStep s ⟨t.1, intentsAfter op s, s.goConfirmedAt⟩ [] :=
      fun hlatched => ⟨hlatched, fun t ht => ht, Or.inl rfl⟩
    have hkept : (∀ a fails, op ≠ .join a fails) →
        (∀ a changes fails, op ≠ .update a changes fails) →
        Latched ⟨t.1, intentsAfter op s, s.goConfirmedAt⟩ := fun hjoin hupdate =>
      hs.of_kept hplain (intentsAfter_cases op s) rfl
        (operate_quorumKept hs.plain hjoin hupdate ht)
    by_cases hwrites : op.writesColumns otherColumns = true
    · rw [if_pos hwrites]
      cases op with
      | update a changes fails =>
        -- Whatever the update has changed, the quorum is checked after it.
        have hrow := memberships_updateActivity (quiet_eq_ok.mp ht).1
        refine ⟨confirmQuorum_latched hplain fun u hu => hs.unknown u ?_, ?_⟩
        · rw [hrow] at hu
          exact hu
        · have hstep := confirmQuorum_step env
            ⟨t.1, intentsAfter (.update a changes fails) s, s.goConfirmedAt⟩
          exact ⟨hstep.kept, hstep.fanout⟩
      | _ => cases hwrites
    · rw [if_neg hwrites]
      refine hquiet ?_
      cases op with
      | join => exact hs.join (quiet_eq_ok.mp ht).1
      | update =>
        have hrow := memberships_updateActivity (quiet_eq_ok.mp ht).1
        rw [apply_of_not_writesColumns (Bool.eq_false_iff.mpr hwrites)] at hrow
        rw [hrow]
        exact ⟨hs.plain, hs.unknown, hs.latched⟩
      | _ => exact hkept (fun a fails => by simp) fun a changes fails => by simp

/-! ### The life of an activity -/

/-- The latch over the life of an activity: the notices so far, and the state. -/
def LifeLatched (life : Life) (log : List Fanout) : Prop :=
  (∀ f ∈ log, f.before.reached = true) ∧
    match life with
    | .unborn => log = []
    | .alive s => Latched s ∧ log.length ≤ 1 ∧ (log ≠ [] → s.goConfirmedAt.isSome = true)
    | .deleted => log.length ≤ 1

theorem latched_newborn {input : ActivityInput} {fromSeries : Bool}
    {s : State} (h : createActivity env a input fromSeries fails = .ok s) :
    Latched (newborn s) := by
  unfold createActivity ActivityInput.validate at h
  simp only [seq_eq_ok, need_eq_ok, pure_eq_ok, Bool.and_eq_true] at h
  obtain ⟨⟨-, ⟨⟨-, hmin⟩, -⟩, -⟩, -, -, -, -, -, -, -, rfl⟩ := h
  have hrow : ∀ u m, (KeyMap.empty.set a.id (⟨.owner, .member⟩ : Membership)).get? u = some m →
      m.state = .member := by
    intro u m hm
    rw [KeyMap.get?_set] at hm
    split at hm
    · rw [← Option.some.inj hm]
    · cases hm
  refine ⟨fun u m hm hstate => ?_, fun u _ => rfl, fun hreached => ?_⟩
  · rw [hrow u m hm] at hstate
    cases hstate
  · -- Nobody is going yet, and that is less than `min_to_go`.
    have hnobody : ∀ t : State, (newborn t).going = 0 := fun t =>
      List.countP_eq_zero.mpr fun e _ => by simp [newborn]
    rw [QuorumState.reached, Bool.and_eq_true, hnobody, Option.any_eq_true] at hreached
    obtain ⟨-, least, hleast, hle⟩ := hreached
    obtain ⟨n, hn, rfl⟩ := Option.map_eq_some_iff.mp hleast
    rw [hn, Option.all_some] at hmin
    rw [decide_eq_true_eq] at hmin hle
    omega

variable {life : Life} {log : List Fanout}

theorem lifeLatched_next (h : LifeLatched life log)
    (p : Env × QuorumOp) : LifeLatched (life.step p) (log ++ life.fanouts p) := by
  obtain ⟨env, op⟩ := p
  obtain ⟨hlog, hlife⟩ := h
  unfold Life.step Life.fanouts Life.next
  cases life with
  | unborn =>
    obtain rfl : log = [] := hlife
    have hunborn : LifeLatched .unborn [] := ⟨fun f hf => (by cases hf), rfl⟩
    cases op with
    | rsvp => exact hunborn
    | operate op =>
      cases op with
      | create a input fromSeries fails =>
        dsimp only
        cases hcreate : createActivity env a input fromSeries fails with
        | error => exact hunborn
        | ok =>
          exact ⟨fun f hf => (by cases hf), latched_newborn hcreate, Nat.zero_le 1,
            fun hne => absurd rfl hne⟩
      | _ => exact hunborn
  | alive s =>
    obtain ⟨hs, hlength, hset⟩ := hlife
    dsimp only
    by_cases hdeletes : op.deletes s = true
    · rw [if_pos hdeletes, List.append_nil]
      exact ⟨hlog, hlength⟩
    · rw [if_neg hdeletes]
      cases hop : quorumOperate env s op with
      | error =>
        rw [List.append_nil]
        exact ⟨hlog, hs, hlength, hset⟩
      | ok =>
        obtain ⟨hr, hstep⟩ := quorumOperate_spec hs hop
        dsimp only
        rcases hstep.fanout with hnone | ⟨hnot, hsome, f, hf, hreached⟩
        · -- No notice: the latch is as it was, or was set before.
          rw [hnone, List.append_nil]
          refine ⟨hlog, hr, hlength, fun hne => ?_⟩
          obtain ⟨t, ht⟩ := Option.isSome_iff_exists.mp (hset hne)
          rw [hstep.kept t ht]
          rfl
        · -- The latch was open, so this is the first notice.
          have hempty : log = [] := by
            by_contra hne
            have hsome := hset hne
            rw [hnot] at hsome
            cases hsome
          rw [hf, hempty, List.nil_append]
          refine ⟨fun g hg => ?_, hr, Nat.le_refl 1, fun _ => hsome⟩
          rw [List.mem_singleton.mp hg]
          exact hreached
  | deleted =>
    rw [List.append_nil]
    exact ⟨hlog, hlife⟩

/-- The notices of a run. -/
def Life.notices (life : Life) (as : List (Env × QuorumOp)) : List Fanout :=
  (steps Life.step life as).flatMap fun p => p.1.fanouts p.2

theorem lifeLatched_run (h : LifeLatched life log) (as : List (Env × QuorumOp)) :
    LifeLatched (run Life.step life as) (log ++ life.notices as) := by
  induction as generalizing life log with
  | nil =>
    show LifeLatched life (log ++ [])
    rw [List.append_nil]
    exact h
  | cons p as ih =>
    have hrest := ih (lifeLatched_next h p)
    rw [List.append_assoc] at hrest
    exact hrest

theorem latch_kept (h : LifeLatched life log)
    (p : Env × QuorumOp) {s : QuorumState} {t : Nat} (hs : life = .alive s)
    (hs' : life.step p = .alive s') (ht : s.goConfirmedAt = some t) :
    s'.goConfirmedAt = some t := by
  obtain ⟨env, op⟩ := p
  subst hs
  obtain ⟨-, hlatched, -⟩ := h
  unfold Life.step Life.next at hs'
  dsimp only at hs'
  by_cases hdeletes : op.deletes s = true
  · rw [if_pos hdeletes] at hs'
    cases hs'
  · rw [if_neg hdeletes] at hs'
    cases hop : quorumOperate env s op with
    | error =>
      rw [hop] at hs'
      cases hs'
      exact ht
    | ok =>
      rw [hop] at hs'
      cases hs'
      exact (quorumOperate_spec hlatched hop).2.kept t ht

/-- Over the whole life of an activity, in any order of its operations: at most one notice that the
meetup is on; when it goes out, the activity is open and the members going are at least
`min_to_go`; in every state an open activity with so many members going has the latch; and the
latch, once set, stays as it is. -/
theorem quorum_latch (as : List (Env × QuorumOp)) :
    (Life.unborn.notices as).length ≤ 1 ∧
    (∀ f ∈ Life.unborn.notices as, f.before.base.activity.status = .opened ∧
      ∃ least, f.before.base.activity.minToGo = some least ∧ least ≤ f.before.going) ∧
    (∀ s least, run Life.step .unborn as = .alive s → s.base.activity.status = .opened →
      s.base.activity.minToGo = some least → least ≤ s.going → s.goConfirmedAt.isSome = true) ∧
    (∀ p ∈ steps Life.step .unborn as, ∀ s s' t, p.1 = .alive s → p.1.step p.2 = .alive s' →
      s.goConfirmedAt = some t → s'.goConfirmedAt = some t) := by
  have hstart : LifeLatched .unborn [] := ⟨fun f hf => (by cases hf), rfl⟩
  -- The invariant is about the state and the notices sent so far.
  have hrun : ∀ as, LifeLatched (run Life.step .unborn as) (Life.unborn.notices as) :=
    fun as => lifeLatched_run hstart as
  obtain ⟨hlog, hlife⟩ := hrun as
  refine ⟨?_, fun f hf => ?_, fun s least hs hopen hmin hle => ?_, fun p hp s s' t hs hs' ht => ?_⟩
  · cases hend : run Life.step .unborn as with
    | unborn =>
      rw [hend] at hlife
      rw [hlife]
      exact Nat.zero_le 1
    | alive =>
      rw [hend] at hlife
      exact hlife.2.1
    | deleted =>
      rw [hend] at hlife
      exact hlife
  · have hreached := hlog f hf
    rw [QuorumState.reached, Bool.and_eq_true, beq_iff_eq, Option.any_eq_true] at hreached
    obtain ⟨hopen, least, hleast, hle⟩ := hreached
    exact ⟨hopen, least, hleast, of_decide_eq_true hle⟩
  · rw [hs] at hlife
    refine hlife.1.latched ?_
    rw [QuorumState.reached, hopen, hmin, Option.any_some, decide_eq_true hle]
    rfl
  · obtain ⟨before, after, -, hbefore⟩ := (Lib.Machine.mem_steps Life.step).mp hp
    have hinv := hrun before
    rw [← hbefore] at hinv
    exact latch_kept hinv p.2 hs hs' ht

end SocialActivities.Social.Go
