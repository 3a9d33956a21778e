import SocialActivities.Lib.Checked
import SocialActivities.Lib.Machine
import SocialActivities.Social.Rows

/-!
# `SocialActivities.Social.PyActivity`: the join workflow of an activity (Python)

The services of `apps/social/services.py` on one activity: `create_activity`,
`request_to_join` with `can_join`, `cast_vote`, `owner_admit`, `add_guardian`,
`set_activity_supervision`, `leave_activity`, `update_activity`, `move_activity`,
`cancel_activity`, `complete_activity` and the organizer roles. Each is one atomic
transaction: an exception rolls it back.

`Env` holds what a service reads elsewhere and comes with each step. `fails` stands for the
calls of a transaction that this model leaves out (notices, audit, the thread, secondary
types): when one of them raises, the transaction is rolled back.

`_settle_pending_joins` reads the pending rows without an order, so `Env.order` is any
rearrangement of them.
-/

namespace SocialActivities.Social.Py

open Lib

/-- The exceptions of the services. -/
inductive Error where
  | notEligible
  | invalidState
  | notAMember
  | integrityError
  | failed
  deriving DecidableEq

/-- What a service reads outside the rows of the activity. -/
structure Env where
  now : Nat
  cohort : Nat → Cohort
  canParticipate : Nat → Bool
  canCreateActivity : Nat → Bool
  /-- `is_guardian_of`: guardian, ward. -/
  isGuardianOf : Nat → Nat → Bool
  /-- `_passes_guardrails` of the user on this activity. -/
  passesGuardrails : Nat → Bool
  /-- `category_envelope_allows`: user, activity type. -/
  categoryAllows : Nat → Nat → Bool
  /-- `CHILD_PUBLIC_VENUES_ONLY`. -/
  childPublicVenuesOnly : Bool
  isChildSafeVenue : Nat → Bool
  publicPlace : Nat → Bool
  /-- `_own_pending_place`: user, place. -/
  ownPendingPlace : Nat → Nat → Bool
  /-- The order of the rows of a query without `order_by`. -/
  order : { f : List Nat → List Nat // ∀ l, (f l).Perm l }

def isOrganizer (user : Nat) (s : State) : Bool :=
  s.activity.owner == user || (s.memberships.get? user).any fun m =>
    m.state == .member && m.role == .coOrganizer

/-! ### Creating and editing the activity -/

/-- The arguments of `create_activity` that reach the rows of this model. `costValid` stands for
the pairing of the amount with the band. -/
structure NewActivity where
  place : Nat
  activityType : Nat
  startsAt : Nat
  endsAt : Option Nat
  joinThreshold : Option Magnitude
  capacity : Option Nat
  minToGo : Option Nat
  guardianAccompanied : Bool
  supervised : Bool
  costValid : Bool
  deriving DecidableEq

def defaultJoinThreshold : Magnitude := (Magnitude.round 2 3).getD Magnitude.zero

/-- The check constraint on `join_threshold`. -/
def thresholdFraction (threshold : Magnitude) : Bool :=
  decide (0 < threshold.units) && decide (threshold.units ≤ Magnitude.unitsPerOne)

/-- `min_to_go` is at most `capacity`, when both are given. -/
def minFits (minToGo capacity : Option Nat) : Bool :=
  minToGo.all fun least => capacity.all fun most => decide (least ≤ most)

/-- The place gate of a creation and of a move. -/
def placeAllowed (env : Env) (user place : Nat) (cohort : Cohort) (accompanied : Bool) : Bool :=
  env.publicPlace place || (cohort == .adult && !accompanied && env.ownPendingPlace user place)

/-- The child venue gate. -/
def venueAllowed (env : Env) (place : Nat) (cohort : Cohort) : Bool :=
  cohort != .child || !env.childPublicVenuesOnly || env.isChildSafeVenue place

/-- The rows that a creation inserts: the activity and the owner's membership. -/
def created (cohort : Cohort) (owner : Nat) (new : NewActivity) (guardianAccompanied : Bool)
    (threshold : Magnitude) : State where
  activity :=
    { owner, place := new.place, activityType := new.activityType, cohort,
      startsAt := new.startsAt, endsAt := new.endsAt, joinThreshold := threshold,
      capacity := new.capacity, minToGo := new.minToGo, status := .opened,
      ownerCanOverride := true, guardianAccompanied, supervised := new.supervised,
      isHidden := false }
  memberships := KeyMap.empty.set owner ⟨.owner, .member⟩
  votes := KeyMap.empty

/-- `create_activity`. It does not check that the capacity is positive. -/
def createActivity (env : Env) (owner : Nat) (new : NewActivity) (fails : Bool) :
    Except Error State := do
  need Error.notEligible (env.canCreateActivity owner)
  let child := env.cohort owner == .child
  need Error.invalidState (!new.supervised || child)
  -- Supervision needs a guardian's seat, so it implies the accompanied flag.
  let guardianAccompanied := new.supervised || new.guardianAccompanied
  need Error.invalidState (!guardianAccompanied || child)
  need Error.invalidState (minFits new.minToGo new.capacity)
  need Error.invalidState (new.endsAt.all fun ends => decide (new.startsAt ≤ ends))
  need Error.invalidState new.costValid
  need Error.invalidState (placeAllowed env owner new.place (env.cohort owner) guardianAccompanied)
  need Error.invalidState (venueAllowed env new.place (env.cohort owner))
  -- The owner is seated without `can_join`, so a child's category limits are asked for here.
  need Error.invalidState (env.categoryAllows owner new.activityType)
  let threshold := new.joinThreshold.getD defaultJoinThreshold
  -- No check of the service reads the threshold; the row's constraint does.
  need Error.integrityError (thresholdFraction threshold)
  need Error.failed (!fails)
  pure (created (env.cohort owner) owner new guardianAccompanied threshold)

/-- The entries of `changes` that reach the rows of this model; `none` is a field that is not
given. `othersValid` stands for the checks on the other fields. -/
structure Changes where
  startsAt : Option Nat
  endsAt : Option (Option Nat)
  capacity : Option (Option Nat)
  minToGo : Option (Option Nat)
  othersValid : Bool
  deriving DecidableEq

/-- The activity with the changes written. -/
def Changes.apply (changes : Changes) (v : Activity) : Activity :=
  { v with
      startsAt := changes.startsAt.getD v.startsAt
      endsAt := changes.endsAt.getD v.endsAt
      capacity := changes.capacity.getD v.capacity
      minToGo := changes.minToGo.getD v.minToGo }

def updateActivity (env : Env) (owner : Nat) (changes : Changes) (fails : Bool) (s : State) :
    Except Error State := do
  need Error.notAMember (isOrganizer owner s)
  need Error.invalidState (s.activity.status == .opened)
  need Error.invalidState (decide (env.now < s.activity.startsAt))
  let v := changes.apply s.activity
  -- These checks read the activity as it will be, whichever of the fields are given.
  need Error.invalidState (v.endsAt.all fun ends => decide (v.startsAt ≤ ends))
  need Error.invalidState (v.capacity.all fun most => decide (s.participantCount ≤ most))
  need Error.invalidState changes.othersValid
  need Error.invalidState (minFits v.minToGo v.capacity)
  need Error.failed (!fails)
  pure { s with activity := v }

def moveActivity (env : Env) (owner place : Nat) (fails : Bool) (s : State) :
    Except Error State := do
  need Error.notAMember (isOrganizer owner s)
  need Error.invalidState (s.activity.status == .opened)
  need Error.invalidState (decide (env.now < s.activity.startsAt))
  -- The same place passes without the gates, even one that is no longer public.
  if place == s.activity.place then pure s
  else do
    need Error.invalidState
      (placeAllowed env owner place s.activity.cohort s.activity.guardianAccompanied)
    need Error.invalidState (venueAllowed env place s.activity.cohort)
    need Error.failed (!fails)
    pure { s with activity := { s.activity with place } }

theorem moveActivity_spec {env : Env} {owner place : Nat} {fails : Bool} {s s' : State}
    (h : moveActivity env owner place fails s = .ok s') :
    s' = s ∨ s' = { s with activity := { s.activity with place } } := by
  simp only [moveActivity, seq_eq_ok] at h
  obtain ⟨-, -, -, h⟩ := h
  split at h
  · exact Or.inl (pure_eq_ok.mp h).symm
  · simp only [seq_eq_ok, pure_eq_ok] at h
    exact Or.inr h.2.2.2.symm

def cancelActivity (owner : Nat) (fails : Bool) (s : State) : Except Error State := do
  need Error.notAMember (isOrganizer owner s)
  need Error.invalidState (s.activity.status == .opened)
  need Error.failed (!fails)
  pure { s with activity := { s.activity with status := .cancelled } }

def completeActivity (s : State) : State :=
  if s.activity.status == .opened then
    { s with activity := { s.activity with status := .completed } }
  else s

/-! ### Requests, and leaving -/

def canJoin (env : Env) (user : Nat) (s : State) : Bool :=
  env.canParticipate user && env.cohort user == s.activity.cohort
    && s.activity.status == .opened && !s.isFull
    && (s.memberships.get? user).all (fun m => m.state == .removed)
    && venueAllowed env s.activity.place s.activity.cohort
    && (env.cohort user != .child || env.passesGuardrails user)

/-- `request_to_join`. A removed membership still holds the unique pair of activity and user. -/
def requestToJoin (env : Env) (user : Nat) (fails : Bool) (s : State) : Except Error State := do
  need Error.notEligible (canJoin env user s)
  need Error.integrityError (s.memberships.get? user).isNone
  need Error.failed (!fails)
  pure (s.setMembership user ⟨.member, .requested⟩)

def leaveActivity (user : Nat) (s : State) : Except Error State :=
  match s.memberships.get? user with
  | none => .ok s
  | some m =>
    -- Leaving twice is no error, whatever the role of the row.
    if m.state == .removed then .ok s
    else do
      need Error.invalidState (m.role != .owner)
      pure (s.setMembership user { m with state := .removed })

/-! ### Admission -/

def activeSupervisorPresent (env : Env) (s : State) : Bool :=
  !(s.memberships.keysWhere fun g m => m.role == .guardian && m.state == .member
    && env.isGuardianOf g s.activity.owner).isEmpty

def supervisionSatisfied (env : Env) (s : State) : Bool :=
  !s.activity.supervised || activeSupervisorPresent env s

/-- `_admit`: no check of the capacity. -/
def admitMembership (env : Env) (target : Nat) (s : State) : State :=
  -- A request that cleared the vote without a supervisor stays pending.
  if supervisionSatisfied env s then s.admitUser target else s

def voteThresholdMet (target : Nat) (s : State) : Bool :=
  clears (s.approvals target) s.participantCount s.activity.joinThreshold

def evaluateVote (env : Env) (target : Nat) (s : State) : State :=
  if voteThresholdMet target s then admitMembership env target s else s

/-- `cast_vote`, on the membership of `target`. -/
def castVote (env : Env) (voter target : Nat) (approve fails : Bool) (s : State) :
    Except Error State := do
  -- The status of the activity is not asked for.
  need Error.invalidState (s.isRequested target)
  need Error.invalidState (target != voter)
  need Error.notAMember (s.isSeated voter)
  need Error.failed (!fails)
  pure (evaluateVote env target (s.setVote target voter approve))

/-- `owner_admit`, on the membership of `target`. -/
def ownerAdmit (env : Env) (owner target : Nat) (fails : Bool) (s : State) :
    Except Error State := do
  need Error.notAMember (isOrganizer owner s)
  need Error.invalidState s.activity.ownerCanOverride
  need Error.invalidState (s.isRequested target)
  need Error.invalidState (supervisionSatisfied env s)
  need Error.failed (!fails)
  pure (admitMembership env target s)

/-- The memberships that wait for a decision, as `_settle_pending_joins` reads them. -/
def pendingJoins (env : Env) (s : State) : List Nat :=
  env.order.val (s.memberships.keysWhere fun _ m => m.state == .requested)

/-- The loop of `_settle_pending_joins`. -/
def evaluateAll (env : Env) (targets : List Nat) (s : State) : State :=
  targets.foldl (fun s target => evaluateVote env target s) s

theorem nodup_pendingJoins (env : Env) (s : State) : (pendingJoins env s).Nodup :=
  (env.order.property _).nodup_iff.mpr (KeyMap.nodup_keysWhere ..)

theorem isRequested_of_mem_pendingJoins {env : Env} {s : State} {u : Nat}
    (h : u ∈ pendingJoins env s) : s.isRequested u = true := by
  have hmem := (env.order.property _).mem_iff.mp h
  obtain ⟨m, hget, hstate⟩ := KeyMap.mem_keysWhere.mp hmem
  exact State.isRequested_iff.mpr ⟨m, hget, by simpa using hstate⟩

def settlePendingJoins (env : Env) (s : State) : State := evaluateAll env (pendingJoins env s) s

/-- The rows with the guardian seated. -/
def withGuardian (guardian : Nat) (s : State) : State :=
  s.setMembership guardian ⟨.guardian, .member⟩

def addGuardian (env : Env) (owner guardian : Nat) (fails : Bool) (s : State) :
    Except Error State := do
  need Error.notAMember (s.activity.owner == owner)
  need Error.invalidState (s.activity.guardianAccompanied && s.activity.cohort == .child)
  need Error.notEligible (env.cohort guardian == .adult && env.canParticipate guardian)
  need Error.notEligible (env.isGuardianOf guardian owner)
  match s.memberships.get? guardian with
  | some m =>
    -- The lookup leaves removed rows out, and the insert fails on the pair they still hold.
    need Error.integrityError (m.state != .removed)
    pure s
  | none =>
    need Error.failed (!fails)
    -- Requests that cleared the vote before the supervisor came are settled now.
    if s.activity.supervised then pure (settlePendingJoins env (withGuardian guardian s))
    else pure (withGuardian guardian s)

/-- The activity row after `set_activity_supervision`. -/
def withSupervision (supervised : Bool) (s : State) : State :=
  { s with activity := { s.activity with
      supervised
      guardianAccompanied := supervised || s.activity.guardianAccompanied } }

def setActivitySupervision (env : Env) (owner : Nat) (supervised fails : Bool) (s : State) :
    Except Error State := do
  need Error.notAMember (s.activity.owner == owner)
  need Error.invalidState (s.activity.status == .opened)
  need Error.invalidState (!(supervised && s.activity.cohort != .child))
  need Error.failed (!fails)
  pure (settlePendingJoins env (withSupervision supervised s))

/-! ### Organizers -/

/-- `_coorg_eligible`: the membership of a user who may get an organizer role. -/
def coorgEligible (env : Env) (user : Nat) (s : State) : Option Membership :=
  -- The cohort and the eligibility of now, not those of the day the user joined.
  if user == s.activity.owner || env.cohort user != s.activity.cohort
      || !env.canParticipate user then none
  else (s.memberships.get? user).filter Membership.isSeat

def grantCoOrganizer (env : Env) (owner member : Nat) (fails : Bool) (s : State) :
    Except Error State := do
  need Error.notAMember (s.activity.owner == owner)
  need Error.invalidState (s.activity.cohort == .adult)
  match coorgEligible env member s with
  | none => .error .notAMember
  | some m =>
    need Error.failed (!fails)
    pure (s.setMembership member { m with role := .coOrganizer })

def revokeCoOrganizer (owner member : Nat) (fails : Bool) (s : State) : Except Error State := do
  need Error.notAMember (s.activity.owner == owner)
  match (s.memberships.get? member).filter fun m =>
      m.state == .member && m.role == .coOrganizer with
  | none => .error .notAMember
  | some m =>
    need Error.failed (!fails)
    pure (s.setMembership member { m with role := .member })

/-- The old owner's row after `transfer_ownership`. -/
def stepDown (owner : Nat) (s : State) : State :=
  match (s.memberships.get? owner).filter fun m => m.state == .member && m.role == .owner with
  | some m => s.setMembership owner { m with role := .member }
  | none => s

def transferOwnership (env : Env) (owner newOwner : Nat) (fails : Bool) (s : State) :
    Except Error State := do
  need Error.notAMember (s.activity.owner == owner)
  need Error.invalidState (s.activity.cohort == .adult)
  match coorgEligible env newOwner s with
  | none => .error .notAMember
  | some m =>
    need Error.failed (!fails)
    let s := { s with activity := { s.activity with owner := newOwner } }
    pure (stepDown owner (s.setMembership newOwner { m with role := .owner }))

section

variable {env : Env} {owner user : Nat} {fails : Bool} {s s' : State} {m : Membership}

theorem coorgEligible_eq_some (h : coorgEligible env user s = some m) :
    user ≠ s.activity.owner ∧ s.memberships.get? user = some m ∧ m.isSeat = true := by
  unfold coorgEligible at h
  split at h
  · cases h
  rename_i hcond
  simp only [Bool.or_eq_true, beq_iff_eq, not_or] at hcond
  obtain ⟨hget, hseat⟩ := Option.filter_eq_some_iff.mp h
  exact ⟨hcond.1.1, hget, hseat⟩

theorem grantCoOrganizer_spec (h : grantCoOrganizer env owner user fails s = .ok s') :
    s.activity.cohort = .adult ∧ ∃ m, coorgEligible env user s = some m ∧
      s' = s.setMembership user { m with role := .coOrganizer } := by
  simp only [grantCoOrganizer, seq_eq_ok, need_eq_ok, beq_iff_eq] at h
  obtain ⟨-, hadult, h⟩ := h
  split at h
  · cases h
  · simp only [seq_eq_ok, pure_eq_ok] at h
    exact ⟨hadult, _, by assumption, h.2.symm⟩

theorem revokeCoOrganizer_spec (h : revokeCoOrganizer owner user fails s = .ok s') :
    s.memberships.get? user = some ⟨.coOrganizer, .member⟩ ∧
      s' = s.setMembership user ⟨.member, .member⟩ := by
  simp only [revokeCoOrganizer, seq_eq_ok] at h
  obtain ⟨-, h⟩ := h
  split at h
  · cases h
  · rename_i m hfilter
    obtain ⟨role, state⟩ := m
    obtain ⟨hget, hcond⟩ := Option.filter_eq_some_iff.mp hfilter
    simp only [Bool.and_eq_true, beq_iff_eq] at hcond
    obtain ⟨rfl, rfl⟩ := hcond
    simp only [seq_eq_ok, pure_eq_ok] at h
    exact ⟨hget, h.2.symm⟩

theorem transferOwnership_spec (h : transferOwnership env owner user fails s = .ok s') :
    s.activity.owner = owner ∧ s.activity.cohort = .adult ∧ ∃ m, coorgEligible env user s = some m ∧
      s' = stepDown owner ({ s with activity := { s.activity with owner := user } }.setMembership
        user { m with role := .owner }) := by
  simp only [transferOwnership, seq_eq_ok, need_eq_ok, beq_iff_eq] at h
  obtain ⟨howner, hadult, h⟩ := h
  split at h
  · cases h
  · simp only [seq_eq_ok, pure_eq_ok] at h
    exact ⟨howner, hadult, _, by assumption, h.2.symm⟩

end

/-! ### The machine -/

/-- One service call on the activity. `setHidden` is a moderation action or its reversal, and
`erase` the erasure of an account. -/
inductive Op where
  | create (owner : Nat) (new : NewActivity) (fails : Bool)
  | requestToJoin (user : Nat) (fails : Bool)
  | castVote (voter target : Nat) (approve fails : Bool)
  | ownerAdmit (owner target : Nat) (fails : Bool)
  | addGuardian (owner guardian : Nat) (fails : Bool)
  | setSupervision (owner : Nat) (supervised fails : Bool)
  | leave (user : Nat)
  | update (owner : Nat) (changes : Changes) (fails : Bool)
  | move (owner place : Nat) (fails : Bool)
  | cancel (owner : Nat) (fails : Bool)
  | complete
  | grantCoOrganizer (owner member : Nat) (fails : Bool)
  | revokeCoOrganizer (owner member : Nat) (fails : Bool)
  | transferOwnership (owner newOwner : Nat) (fails : Bool)
  | setHidden (isHidden : Bool)
  | erase (u : Nat)

/-- A call on an activity that exists. A creation makes another activity, and the erasure of
the owner, which deletes this one, is dealt with in `step`. -/
def operate (env : Env) (s : State) : Op → Except Error State
  | .create _ _ _ => .ok s
  | .requestToJoin user fails => requestToJoin env user fails s
  | .castVote voter target approve fails => castVote env voter target approve fails s
  | .ownerAdmit owner target fails => ownerAdmit env owner target fails s
  | .addGuardian owner guardian fails => addGuardian env owner guardian fails s
  | .setSupervision owner supervised fails => setActivitySupervision env owner supervised fails s
  | .leave user => leaveActivity user s
  | .update owner changes fails => updateActivity env owner changes fails s
  | .move owner place fails => moveActivity env owner place fails s
  | .cancel owner fails => cancelActivity owner fails s
  | .complete => .ok (completeActivity s)
  | .grantCoOrganizer owner member fails => grantCoOrganizer env owner member fails s
  | .revokeCoOrganizer owner member fails => revokeCoOrganizer owner member fails s
  | .transferOwnership owner newOwner fails => transferOwnership env owner newOwner fails s
  | .setHidden isHidden => .ok { s with activity := { s.activity with isHidden } }
  | .erase u => .ok (s.eraseUser u)

/-- The erasure of the owner deletes the activity with all its rows. -/
def deletes (s : State) : Op → Bool
  | .erase u => u == s.activity.owner
  | _ => false

/-- The state after an exception is the state before. -/
def commit (s : State) : Except Error State → State
  | .ok s' => s'
  | .error _ => s

/-- The state after one call. There is no activity before its creation, nor after its owner is
erased. -/
def step : Option State → Env × Op → Option State
  | none, (env, .create owner new fails) =>
    match createActivity env owner new fails with
    | .ok s => some s
    | .error _ => none
  | none, _ => none
  | some s, (env, op) => if deletes s op then none else some (commit s (operate env s op))

end SocialActivities.Social.Py
