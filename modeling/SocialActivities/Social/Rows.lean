import SocialActivities.Lib.Binary64
import SocialActivities.Lib.KeyMap

/-!
# `SocialActivities.Social.Rows`: one activity, its memberships and its join votes

The rows that the join workflow of one activity reads and writes. `(activity, user)` is unique
in `social_membership`, so the memberships of the activity are a `KeyMap` by user, and a join
vote is a row under the requester and the voter. The workflow only touches rows of its own
activity, so this is the whole state; what it reads elsewhere (accounts, blocks, guardian
links, the clock) comes with each operation.

A *seat* is a membership in state `member` whose role is not `guardian`: the people that
`participantCount` counts and that may vote. `admitUser` is the one write that makes a request a
seat. `participantCount_admitUser` says that it takes exactly one seat, and `RequestsPlain`, which
every operation keeps, is the fact about the rows that it needs.
-/

namespace SocialActivities.Social

open Lib

inductive Cohort where
  | unassigned
  | child
  | teen
  | adult
  deriving DecidableEq

inductive Role where
  | owner
  | coOrganizer
  | member
  | guardian
  deriving DecidableEq

/-- `Membership.State`. -/
inductive MemberState where
  | requested
  | member
  | removed
  deriving DecidableEq

inductive Status where
  | opened
  | cancelled
  | completed
  deriving DecidableEq

/-- A row of `social_activity`. Times are in microseconds. -/
structure Activity where
  owner : Nat
  place : Nat
  activityType : Nat
  cohort : Cohort
  startsAt : Nat
  endsAt : Option Nat
  joinThreshold : Magnitude
  capacity : Option Nat
  minToGo : Option Nat
  status : Status
  ownerCanOverride : Bool
  guardianAccompanied : Bool
  supervised : Bool
  isHidden : Bool
  deriving DecidableEq

/-- A row of `social_membership`. -/
structure Membership where
  role : Role
  state : MemberState
  deriving DecidableEq

/-- `state='member' AND role<>'guardian'`: a person who holds a position and may vote. -/
def Membership.isSeat (m : Membership) : Bool := m.state == .member && m.role != .guardian

theorem Membership.state_of_isSeat {m : Membership} (h : m.isSeat = true) : m.state = .member := by
  rw [isSeat, Bool.and_eq_true, beq_iff_eq] at h
  exact h.1

/-- One activity with its memberships, by user, and its join votes, by requester and voter. -/
structure State where
  activity : Activity
  memberships : KeyMap Nat Membership
  votes : KeyMap (Nat × Nat) Bool

/-! ### Queries -/

namespace State

variable (s : State)

/-- The user holds a position. -/
def isSeated (u : Nat) : Bool := (s.memberships.get? u).any Membership.isSeat

/-- The user has a request that is not decided yet. -/
def isRequested (u : Nat) : Bool := (s.memberships.get? u).any fun m => m.state == .requested

/-- `participantCount` / `participant_count`: members that are not guardians. -/
def participantCount : Nat := s.memberships.count fun _ m => m.isSeat

/-- The approve votes on the request of a user. -/
def approvals (u : Nat) : Nat := s.votes.count fun key approve => key.1 == u && approve

/-- The approve votes on the request of a user whose voter holds a position now. -/
def currentApprovals (u : Nat) : Nat :=
  s.votes.count fun key approve => key.1 == u && approve && s.isSeated key.2

/-- No free position, in an activity with a capacity. -/
def isFull : Bool := s.activity.capacity.any fun capacity => decide (capacity ≤ s.participantCount)

/-- The activity has at most as many participants as its capacity. -/
def WithinCapacity : Prop := ∀ capacity, s.activity.capacity = some capacity →
  s.participantCount ≤ capacity

instance : Decidable s.WithinCapacity :=
  match h : s.activity.capacity with
  | none => isTrue fun capacity hc => by rw [h] at hc; cases hc
  | some capacity => decidable_of_iff (s.participantCount ≤ capacity)
      ⟨fun hle _ hc => by rw [h] at hc; cases hc; exact hle, fun hw => hw capacity h⟩

/-! ### Writes -/

/-- Upsert the membership of a user. -/
def setMembership (u : Nat) (m : Membership) : State :=
  { s with memberships := s.memberships.set u m }

/-- `UPDATE ... SET state='member'` on the membership of a user: no row, no effect. -/
def admitUser (u : Nat) : State :=
  match s.memberships.get? u with
  | some m => s.setMembership u { m with state := .member }
  | none => s

/-- `INSERT ... ON CONFLICT(membership_id,voter_id) DO UPDATE` on a join vote. -/
def setVote (requester voter : Nat) (approve : Bool) : State :=
  { s with votes := s.votes.set (requester, voter) approve }

/-- `DELETE FROM social_joinvote` on the votes of one request. -/
def clearVotes (requester : Nat) : State :=
  { s with votes := s.votes.removeIf fun key _ => key.1 == requester }

/-- The cascade of the erasure of a user who does not own the activity. -/
def eraseUser (u : Nat) : State :=
  { s with
      memberships := s.memberships.removeIf fun v _ => v == u
      votes := s.votes.removeIf fun key _ => key.1 == u || key.2 == u }

end State

/-- `float64(approvals)/float64(members) >= threshold`. -/
def ratioAtLeast (approvals members : Nat) (threshold : Magnitude) : Bool :=
  match Magnitude.round approvals members with
  | some ratio => decide (threshold.units ≤ ratio.units)
  | none => true

/-- The vote rule: some members, and enough approvals for the threshold. -/
def clears (approvals members : Nat) (threshold : Magnitude) : Bool :=
  decide (0 < members) && ratioAtLeast approvals members threshold

/-! ### What the writes change -/

namespace State

variable {s : State}

@[simp] theorem get?_setMembership (s : State) (u : Nat) (m : Membership) (v : Nat) :
    (s.setMembership u m).memberships.get? v
      = if v = u then some m else s.memberships.get? v :=
  KeyMap.get?_set ..

@[simp] theorem activity_setMembership (s : State) (u : Nat) (m : Membership) :
    (s.setMembership u m).activity = s.activity := rfl

theorem isSeated_setMembership (s : State) (u : Nat) (m : Membership) (v : Nat) :
    (s.setMembership u m).isSeated v = if v = u then m.isSeat else s.isSeated v := by
  unfold isSeated
  rw [get?_setMembership]
  split <;> rfl

variable {u : Nat}

theorem isSeated_iff :
    s.isSeated u = true ↔ ∃ m, s.memberships.get? u = some m ∧ m.isSeat = true := by
  unfold isSeated
  cases h : s.memberships.get? u with
  | none | some => simp

theorem isRequested_iff :
    s.isRequested u = true ↔ ∃ m, s.memberships.get? u = some m ∧ m.state = .requested := by
  unfold isRequested
  cases h : s.memberships.get? u with
  | none | some => simp

theorem participantCount_setMembership (s : State) (u : Nat) (m : Membership) :
    (s.setMembership u m).participantCount + (if s.isSeated u then 1 else 0)
      = s.participantCount + (if m.isSeat then 1 else 0) :=
  KeyMap.count_set s.memberships u m fun _ m => m.isSeat

theorem participantCount_setMembership_le (u : Nat) {m : Membership}
    (h : m.isSeat = true → s.isSeated u = true) :
    (s.setMembership u m).participantCount ≤ s.participantCount := by
  have hcount := participantCount_setMembership s u m
  by_cases hseat : m.isSeat = true
  · rw [if_pos hseat, if_pos (h hseat)] at hcount
    omega
  · rw [if_neg hseat] at hcount
    omega

theorem isFull_eq_false :
    s.isFull = false ↔ ∀ capacity, s.activity.capacity = some capacity →
      s.participantCount < capacity := by
  unfold isFull
  cases s.activity.capacity with
  | none | some => simp

theorem not_isSeated_of_isRequested (h : s.isRequested u = true) :
    s.isSeated u = false := by
  obtain ⟨m, hget, hstate⟩ := isRequested_iff.mp h
  unfold isSeated Membership.isSeat
  rw [hget, Option.any_some, hstate]
  rfl

@[simp] theorem activity_admitUser (s : State) (u : Nat) : (s.admitUser u).activity = s.activity := by
  unfold admitUser
  split <;> rfl

@[simp] theorem votes_admitUser (s : State) (u : Nat) : (s.admitUser u).votes = s.votes := by
  unfold admitUser
  split <;> rfl

@[simp] theorem approvals_admitUser (s : State) (u v : Nat) :
    (s.admitUser u).approvals v = s.approvals v := by
  unfold approvals
  rw [votes_admitUser]

theorem get?_admitUser (s : State) (u v : Nat) :
    (s.admitUser u).memberships.get? v
      = if v = u then (s.memberships.get? u).map fun m => { m with state := .member }
        else s.memberships.get? v := by
  unfold admitUser
  cases hget : s.memberships.get? u with
  | none =>
    by_cases hv : v = u
    · rw [if_pos hv, hv, hget]
      rfl
    · rw [if_neg hv]
  | some =>
    by_cases hv : v = u <;> simp [hv]

variable {v : Nat}

theorem get?_admitUser_of_not_requested {m : Membership} (hu : s.isRequested u = true)
    (hget : s.memberships.get? v = some m) (hstate : m.state ≠ .requested) :
    (s.admitUser u).memberships.get? v = some m := by
  have hne : v ≠ u := by
    rintro rfl
    obtain ⟨m', hget', hstate'⟩ := isRequested_iff.mp hu
    rw [hget] at hget'
    cases hget'
    exact hstate hstate'
  rw [get?_admitUser, if_neg hne, hget]

theorem isRequested_admitUser_of_ne (hv : v ≠ u) :
    (s.admitUser u).isRequested v = s.isRequested v := by
  unfold isRequested
  rw [get?_admitUser, if_neg hv]

theorem isSeated_admitUser_of_isSeated (h : s.isSeated v = true) :
    (s.admitUser u).isSeated v = true := by
  obtain ⟨m, hget, hseat⟩ := isSeated_iff.mp h
  refine isSeated_iff.mpr ?_
  by_cases hv : v = u
  · subst hv
    refine ⟨{ m with state := .member }, by rw [get?_admitUser, if_pos rfl, hget]; rfl, ?_⟩
    simp only [Membership.isSeat, Bool.and_eq_true] at hseat ⊢
    exact ⟨rfl, hseat.2⟩
  · exact ⟨m, by rw [get?_admitUser, if_neg hv, hget], hseat⟩

theorem isSeated_admitUser_of_ne (hv : v ≠ u) :
    (s.admitUser u).isSeated v = s.isSeated v := by
  unfold isSeated
  rw [get?_admitUser, if_neg hv]

end State

/-! ### Pending requests have no guardian role -/

/-- The role of a request that is not decided yet is not `guardian`. -/
def State.RequestsPlain (s : State) : Prop :=
  ∀ u m, s.memberships.get? u = some m → m.state = .requested → m.role ≠ .guardian

namespace State

variable {s : State}

theorem participantCount_admitUser {u : Nat} (hplain : s.RequestsPlain)
    (h : s.isRequested u = true) : (s.admitUser u).participantCount = s.participantCount + 1 := by
  obtain ⟨m, hget, hstate⟩ := isRequested_iff.mp h
  have hseat : Membership.isSeat { m with state := .member } = true := by
    simpa [Membership.isSeat] using hplain u m hget hstate
  have hcount := participantCount_setMembership s u { m with state := .member }
  rw [if_pos hseat, not_isSeated_of_isRequested h] at hcount
  unfold admitUser
  rw [hget]
  simpa using hcount

theorem RequestsPlain.setMembership (hplain : s.RequestsPlain) (u : Nat) {m : Membership}
    (h : m.state = .requested → m.role ≠ .guardian) :
    (s.setMembership u m).RequestsPlain := by
  intro v row hget hstate
  rw [get?_setMembership] at hget
  split at hget
  · cases hget
    exact h hstate
  · exact hplain v row hget hstate

theorem RequestsPlain.admitUser (hplain : s.RequestsPlain) (u : Nat) : (s.admitUser u).RequestsPlain := by
  unfold State.admitUser
  split
  · exact hplain.setMembership u fun h => by cases h
  · exact hplain

theorem get?_eraseUser (s : State) (u v : Nat) :
    (s.eraseUser u).memberships.get? v
      = if v = u then none else s.memberships.get? v := by
  show (s.memberships.removeIf fun v _ => v == u).get? v = _
  rw [KeyMap.get?_removeIf]
  by_cases hv : v = u
  · simp [hv]
  · cases s.memberships.get? v <;> simp [Option.filter, hv]

theorem RequestsPlain.eraseUser (hplain : s.RequestsPlain) (u : Nat) :
    (s.eraseUser u).RequestsPlain := by
  intro v row hget hstate
  rw [get?_eraseUser] at hget
  split at hget
  · cases hget
  · exact hplain v row hget hstate

theorem participantCount_eraseUser_le (s : State) (u : Nat) :
    (s.eraseUser u).participantCount ≤ s.participantCount := by
  unfold participantCount eraseUser KeyMap.count KeyMap.removeIf
  exact List.Sublist.countP_le List.filter_sublist

theorem currentApprovals_eq {u : Nat}
    (h : ∀ voter, s.votes.get? (u, voter) = some true → s.isSeated voter = true) :
    s.currentApprovals u = s.approvals u := by
  refine KeyMap.count_congr fun key approve hget => ?_
  obtain ⟨requester, voter⟩ := key
  by_cases hkey : requester = u
  · subst hkey
    cases approve with
    | false => simp
    | true => simp [h voter hget]
  · simp [hkey]

end State

/-! ### Writes that seat nobody -/

/-- The supervision columns of an activity are consistent. -/
def SupervisionPaired (v : Activity) : Prop :=
  (v.guardianAccompanied = true → v.cohort = .child) ∧
    (v.supervised = true → v.guardianAccompanied = true)

/-- What a write that seats nobody keeps. -/
structure Keeps (s s' : State) : Prop where
  seats : ∀ u, s'.isSeated u = true → s.isSeated u = true
  plain : s.RequestsPlain → s'.RequestsPlain
  within : s.WithinCapacity → s'.WithinCapacity
  paired : SupervisionPaired s.activity → SupervisionPaired s'.activity

namespace Keeps

variable {s t u : State}

theorem refl (s : State) : Keeps s s := ⟨fun _ h => h, id, id, id⟩

theorem trans (h : Keeps s t) (h' : Keeps t u) : Keeps s u where
  seats v hv := h.seats v (h'.seats v hv)
  plain hs := h'.plain (h.plain hs)
  within hs := h'.within (h.within hs)
  paired hs := h'.paired (h.paired hs)

theorem activity (v : Activity) (hroom : ∀ capacity, v.capacity = some capacity →
      s.activity.capacity = some capacity ∨ s.participantCount ≤ capacity)
    (hpaired : SupervisionPaired s.activity → SupervisionPaired v) :
    Keeps s { s with activity := v } where
  seats _ h := h
  plain := id
  within h capacity hcap := (hroom capacity hcap).elim (h capacity) id
  paired := hpaired

theorem setMembership (u : Nat) {m : Membership} (hseat : m.isSeat = true → s.isSeated u = true)
    (hplain : m.state = .requested → m.role ≠ .guardian) : Keeps s (s.setMembership u m) where
  seats v h := by
    rw [State.isSeated_setMembership] at h
    split at h
    · rename_i hv
      rw [hv]
      exact hseat h
    · exact h
  plain h := h.setMembership u hplain
  within h capacity hcap :=
    (State.participantCount_setMembership_le u hseat).trans (h capacity hcap)
  paired := id

theorem setRole {u : Nat} {m : Membership} (r : Role) (hget : s.memberships.get? u = some m)
    (hseat : m.isSeat = true) : Keeps s (s.setMembership u { m with role := r }) := by
  refine setMembership u (fun _ => State.isSeated_iff.mpr ⟨m, hget, hseat⟩) fun hstate => ?_
  rw [Membership.state_of_isSeat hseat] at hstate
  cases hstate

theorem votes (votes : KeyMap (Nat × Nat) Bool) : Keeps s { s with votes } :=
  ⟨fun _ h => h, id, id, id⟩

theorem eraseUser (s : State) (u : Nat) : Keeps s (s.eraseUser u) where
  seats v h := by
    obtain ⟨m, hget, hseat⟩ := State.isSeated_iff.mp h
    rw [State.get?_eraseUser] at hget
    split at hget
    · cases hget
    · exact State.isSeated_iff.mpr ⟨m, hget, hseat⟩
  plain h := h.eraseUser u
  within h capacity hcap :=
    (State.participantCount_eraseUser_le s u).trans (h capacity hcap)
  paired := id

end Keeps

end SocialActivities.Social
