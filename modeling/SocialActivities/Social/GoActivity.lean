import SocialActivities.Lib.Checked
import SocialActivities.Lib.Machine
import SocialActivities.Social.Rows

/-!
# `SocialActivities.Social.GoActivity`: the join workflow of an activity (Go)

The operations of `services/server/internal/social` on one activity: `CreateActivity`,
`UpdateActivity`, `CancelActivity`, `MoveActivity`, `AutoComplete`, `Join`, `Leave`, `Vote`
with its override, `ChangeOrganizer`, `AddGuardian`, `SetSupervision`, and the cascade of an
erased account. Each locks the activity row first, so it is one atomic step; an error rolls
the step back.

`Env` holds what an operation reads elsewhere. It comes with each step, so between two steps
any account, block, guardian link, consent, guardrail or venue may change. The argument
`fails` stands for the calls of a transaction that this model leaves out (secondary types, the
thread row, notices, audit): when one of them returns an error, the transaction is rolled back.

`vote`, `addGuardian` and `setSupervision` also return their admissions: for each
`UPDATE social_membership SET state='member'` that the transaction runs, the user and the rows
just before that statement.
-/

namespace SocialActivities.Social.Go

open Lib

/-- The errors of the operations. -/
inductive Error where
  | errForbidden
  | errInvalid
  | errNotFound
  | errNoRows
  | failed
  deriving DecidableEq

/-! ### What an operation reads outside the activity -/

inductive AgeBand where
  | unknown
  | under16
  | age1617
  | adult
  deriving DecidableEq

/-- The columns of `accounts_user` that the gates read. -/
structure User where
  ageBand : AgeBand
  cohort : Cohort
  role : String
  isActive : Bool
  isIdentityVerified : Bool
  isStaff : Bool
  isSuperuser : Bool
  deriving DecidableEq

/-- `platform.Actor`: a snapshot of an account. -/
structure Actor where
  id : Nat
  user : User
  deriving DecidableEq

/-- `Guardrail`: the limits that one guardian sets. -/
structure Guardrail where
  supervised : Bool
  latest : Option Int
  earliest : Option Int
  cap : Option Int
  weekdays : String
  categories : List String
  deriving DecidableEq

/-- What an operation reads outside the rows of the activity. -/
structure Env where
  now : Nat
  users : Nat → Option User
  /-- The latest age assurance of the user has not expired, or there is none. -/
  assuranceCurrent : Nat → Bool
  /-- The user has an active parental consent that has not expired. -/
  parentalConsent : Nat → Bool
  /-- The rows of `safety_block`: blocker, blocked. -/
  blocks : Nat → Nat → Bool
  /-- The active rows of `accounts_guardianrelationship`: guardian, ward. -/
  guardianOf : Nat → Nat → Bool
  /-- The guardrails of the active guardians of a ward. -/
  rails : Nat → List Guardrail
  /-- The memberships of the user in open activities that are not removed. -/
  openJoins : Nat → Nat
  /-- `childVenue`. -/
  childVenue : Nat → Bool
  /-- `catalog.PlaceSQL`: the place is public. -/
  placePublic : Nat → Bool
  /-- A pending proposal of the place by the user. -/
  placeProposed : Nat → Nat → Bool
  typeActive : Nat → Bool
  /-- The slugs of the category of an activity type and of its ancestors. -/
  ancestry : Nat → List String
  /-- The hour and the ISO weekday of a time in Europe/Bucharest. -/
  localHour : Nat → Int
  localWeekday : Nat → Nat

/-- `platform.Blocked`: a block either way. -/
def Env.blocked (env : Env) (a b : Nat) : Bool := env.blocks a b || env.blocks b a

/-- The account is as the snapshot has it, and its age assurance is current. -/
def Env.current (env : Env) (a : Actor) : Bool :=
  (env.users a.id).any fun u => u.isActive && u.isIdentityVerified && u.ageBand == a.user.ageBand
    && u.cohort == a.user.cohort && u.role == a.user.role && u.isStaff == a.user.isStaff
    && u.isSuperuser == a.user.isSuperuser && env.assuranceCurrent a.id

def participate (env : Env) (a : Actor) : Except Error Unit := do
  need Error.errForbidden
    (a.user.isActive && a.user.isIdentityVerified && a.user.cohort != .unassigned)
  -- The snapshot may be old; the row that decides is the one in the database.
  need Error.errForbidden (env.current a)
  need Error.errForbidden (a.user.ageBand != .under16 || env.parentalConsent a.id)

def actorByID (env : Env) (id : Nat) : Except Error Actor :=
  match env.users id with
  | some user => .ok ⟨id, user⟩
  | none => .error .errNoRows

/-- The participation gate accepts the user as the account is now. -/
def Env.participates (env : Env) (u : Nat) : Bool :=
  (env.users u).any fun user => (participate env ⟨u, user⟩).isOk

def assigned (a : Actor) : Bool := a.user.isActive && a.user.cohort != .unassigned

/-- `activity`: the actor may see the activity. -/
def activity (env : Env) (a : Actor) (s : State) : Except Error Unit := do
  need Error.errNotFound (assigned a)
  need Error.errNoRows (s.activity.cohort == a.user.cohort && !s.activity.isHidden
    && !env.blocked a.id s.activity.owner)

def organizer (a : Actor) (s : State) : Bool :=
  a.id == s.activity.owner || (s.memberships.get? a.id).any fun m =>
    m.state == .member && m.role == .coOrganizer

/-! ### Guardrails -/

structure EffectiveGuardrail where
  supervised : Bool
  latest : Option Int
  earliest : Option Int
  cap : Option Int
  weekdays : Option (List Nat)
  categories : Option (List String)
  deriving DecidableEq

def minOptional : Option Int → Option Int → Option Int
  | none, b => b
  | a, none => a
  | some a, some b => if b < a then some b else some a

def maxOptional : Option Int → Option Int → Option Int
  | none, b => b
  | a, none => a
  | some a, some b => if a < b then some b else some a

/-- The elements allowed by two restrictions, where `none` allows all. -/
def narrow {α : Type} [DecidableEq α] (allowed : Option (List α)) (limit : List α) :
    Option (List α) :=
  match allowed with
  | none => some limit
  | some elements => some (elements.filter (· ∈ limit))

/-- The weekday digits of a guardrail. -/
def weekdayDigits (text : String) : Except Error (List Nat) :=
  text.toList.mapM fun c =>
    -- Any other digit fails the whole gate rather than being skipped.
    if '1' ≤ c ∧ c ≤ '7' then .ok (c.toNat - '0'.toNat) else .error .errForbidden

/-- One round of `combineGuardrails`. -/
def addRail (out : EffectiveGuardrail) (r : Guardrail) : Except Error EffectiveGuardrail := do
  let days ← weekdayDigits r.weekdays
  need Error.errForbidden (r.categories.all (· != ""))
  pure
    { supervised := out.supervised || r.supervised
      latest := minOptional out.latest r.latest
      earliest := maxOptional out.earliest r.earliest
      cap := minOptional out.cap r.cap
      -- An empty list of a guardian restricts nothing.
      weekdays := if r.weekdays == "" then out.weekdays else narrow out.weekdays days
      categories :=
        if r.categories.isEmpty then out.categories else narrow out.categories r.categories }

def combineGuardrails (rails : List Guardrail) : Except Error EffectiveGuardrail :=
  rails.foldlM addRail ⟨false, none, none, none, none, none⟩

def categoryAllowed (env : Env) (rail : EffectiveGuardrail) (activityType : Nat) : Bool :=
  rail.categories.all fun allowed => (env.ancestry activityType).any (· ∈ allowed)

/-- The start of the activity is within the hours and weekdays of the guardrail. -/
def withinHours (env : Env) (rail : EffectiveGuardrail) (start : Nat) : Bool :=
  rail.latest.all (fun latest => decide (env.localHour start ≤ latest))
    && rail.earliest.all (fun earliest => decide (earliest ≤ env.localHour start))
    && rail.weekdays.all (fun days => decide (env.localWeekday start ∈ days))

def childCreateGate (env : Env) (a : Actor) (place activityType : Nat) : Except Error Unit :=
  if a.user.cohort != .child then .ok ()
  else do
    need Error.errForbidden (env.childVenue place)
    let rail ← combineGuardrails (env.rails a.id)
    need Error.errForbidden (categoryAllowed env rail activityType)

def childJoinGate (env : Env) (a : Actor) (v : Activity) : Except Error Unit :=
  if a.user.cohort != .child then .ok ()
  else do
    need Error.errForbidden (env.childVenue v.place)
    let rail ← combineGuardrails (env.rails a.id)
    -- A guardian who asks for supervision is content with an accompanied activity.
    need Error.errForbidden (!(rail.supervised && !v.guardianAccompanied)
      && withinHours env rail v.startsAt)
    need Error.errForbidden (categoryAllowed env rail v.activityType)
    need Error.errForbidden (rail.cap.all fun cap => decide ((env.openJoins a.id : Int) < cap))

/-! ### Creating and editing the activity -/

/-- `ActivityInput`. `textsValid` stands for the checks on its texts, cost and difficulty. -/
structure ActivityInput where
  place : Nat
  activityType : Nat
  startsAt : Nat
  endsAt : Option Nat
  joinThreshold : Option Binary64
  capacity : Option Int
  minToGo : Option Int
  guardianAccompanied : Bool
  supervised : Bool
  textsValid : Bool
  deriving DecidableEq

/-- `0.01` and `2.0 / 3.0` as the compiler rounds them. -/
def minThreshold : Magnitude := (Magnitude.round 1 100).getD Magnitude.zero

def defaultThreshold : Magnitude := (Magnitude.round 2 3).getD Magnitude.zero

/-- The check of `validate` on a given threshold. -/
def thresholdValid (x : Binary64) : Bool :=
  !x.neg && decide (minThreshold.units ≤ x.mag.units) && decide (x.mag.units ≤ Magnitude.unitsPerOne)

/-- `minToGo` is at most `capacity`, when both are given. -/
def minFits (minToGo capacity : Option Int) : Bool :=
  minToGo.all fun least => capacity.all fun most => decide (least ≤ most)

def ActivityInput.validate (input : ActivityInput) : Except Error Unit := do
  need Error.errInvalid input.textsValid
  need Error.errInvalid (input.capacity.all (fun n => decide (1 ≤ n))
    && input.minToGo.all (fun n => decide (1 ≤ n)) && minFits input.minToGo input.capacity)
  need Error.errInvalid (input.endsAt.all fun ends => decide (input.startsAt ≤ ends))
  need Error.errInvalid (input.joinThreshold.all thresholdValid)

def publicPlace (env : Env) (a : Actor) (place : Nat) (ownPending : Bool) : Except Error Unit :=
  need Error.errForbidden (env.placePublic place
    || (ownPending && a.user.cohort == .adult && env.placeProposed place a.id))

/-- The rows that a creation inserts: the activity and the owner's membership. -/
def created (a : Actor) (input : ActivityInput) (guardianAccompanied : Bool) : State where
  activity :=
    { owner := a.id, place := input.place, activityType := input.activityType,
      cohort := a.user.cohort, startsAt := input.startsAt, endsAt := input.endsAt,
      joinThreshold := (input.joinThreshold.map Binary64.mag).getD defaultThreshold,
      capacity := input.capacity.map Int.toNat, minToGo := input.minToGo.map Int.toNat,
      status := .opened, ownerCanOverride := true, guardianAccompanied,
      supervised := input.supervised, isHidden := false }
  memberships := KeyMap.empty.set a.id ⟨.owner, .member⟩
  votes := KeyMap.empty

/-- `CreateActivity` and `createActivity`, also for the next instance of a series. -/
def createActivity (env : Env) (a : Actor) (input : ActivityInput) (fromSeries fails : Bool) :
    Except Error State := do
  input.validate
  participate env a
  need Error.errInvalid (!input.supervised || a.user.cohort == .child)
  let guardianAccompanied := input.supervised || input.guardianAccompanied
  need Error.errInvalid (!guardianAccompanied || a.user.cohort == .child)
  childCreateGate env a input.place input.activityType
  -- A series cannot meet at the owner's pending proposal.
  publicPlace env a input.place (!fromSeries)
  need Error.errForbidden (env.typeActive input.activityType)
  need Error.failed (!fails)
  pure (created a input guardianAccompanied)

/-- The entries of `changes` that reach the rows of this model; `none` is a field that is not
in the map. `othersValid` stands for the checks on the other fields. -/
structure Changes where
  startsAt : Option Nat
  endsAt : Option (Option Nat)
  capacity : Option (Option Int)
  minToGo : Option (Option Int)
  othersValid : Bool
  deriving DecidableEq

/-- `nullableInt`: null, or an integer of at least 1. -/
def nullableInt (value : Option Int) : Bool := value.all fun n => decide (1 ≤ n)

/-- The activity with the changes written. -/
def Changes.apply (changes : Changes) (v : Activity) : Activity :=
  { v with
      startsAt := changes.startsAt.getD v.startsAt
      endsAt := changes.endsAt.getD v.endsAt
      capacity := (changes.capacity.map fun n => n.map Int.toNat).getD v.capacity
      minToGo := (changes.minToGo.map fun n => n.map Int.toNat).getD v.minToGo }

def updateActivity (env : Env) (a : Actor) (changes : Changes) (fails : Bool) (s : State) :
    Except Error State := do
  participate env a
  activity env a s
  need Error.errForbidden (organizer a s)
  need Error.errInvalid (s.activity.status == .opened && decide (env.now < s.activity.startsAt))
  need Error.errInvalid (changes.othersValid && changes.capacity.all nullableInt
    && changes.minToGo.all nullableInt)
  -- The rest reads the activity as it will be, whichever of the fields are given.
  let v := changes.apply s.activity
  need Error.errInvalid (v.endsAt.all (fun ends => decide (v.startsAt ≤ ends))
    && v.minToGo.all fun least => v.capacity.all fun most => decide (least ≤ most))
  need Error.errInvalid (v.capacity.all fun most => decide (s.participantCount ≤ most))
  need Error.failed (!fails)
  pure { s with activity := v }

/-- The gate of `privacyTransaction`. -/
def privacyGate (a : Actor) : Except Error Unit :=
  need Error.errForbidden (decide (1 ≤ a.id) && a.user.isActive)

def cancelActivity (env : Env) (a : Actor) (fails : Bool) (s : State) : Except Error State := do
  privacyGate a
  activity env a s
  need Error.errForbidden (organizer a s)
  need Error.errInvalid (s.activity.status == .opened)
  need Error.failed (!fails)
  pure { s with activity := { s.activity with status := .cancelled } }

def moveActivity (env : Env) (a : Actor) (place : Nat) (fails : Bool) (s : State) :
    Except Error State := do
  participate env a
  activity env a s
  need Error.errForbidden (organizer a s)
  need Error.errInvalid (s.activity.status == .opened && decide (env.now < s.activity.startsAt))
  -- The same place passes without the gates, even one that is no longer public.
  if s.activity.place == place then pure s
  else do
    publicPlace env a place (s.activity.cohort == .adult && !s.activity.guardianAccompanied)
    need Error.errForbidden (s.activity.cohort != .child || env.childVenue place)
    need Error.failed (!fails)
    pure { s with activity := { s.activity with place } }

/-- `AutoComplete` on this activity. -/
def autoComplete (env : Env) (grace : Nat) (s : State) : State :=
  -- Without an end the start counts.
  if s.activity.status == .opened
      && decide (s.activity.endsAt.getD s.activity.startsAt + grace < env.now) then
    { s with activity := { s.activity with status := .completed } }
  else s

/-! ### Requests, and leaving -/

def join (env : Env) (a : Actor) (fails : Bool) (s : State) : Except Error State := do
  participate env a
  activity env a s
  need Error.errForbidden (s.activity.status == .opened)
  childJoinGate env a s.activity
  need Error.errForbidden (!s.isFull)
  need Error.errForbidden ((s.memberships.get? a.id).all fun m => m.state == .removed)
  need Error.failed (!fails)
  -- The insert takes a removed row over and drops the votes cast on the old request.
  pure ((s.setMembership a.id ⟨.member, .requested⟩).clearVotes a.id)

/-- `Leave`. The role of the row and the votes of the user stay. -/
def leave (a : Actor) (fails : Bool) (s : State) : Except Error State := do
  privacyGate a
  need Error.errNotFound (assigned a)
  need Error.errNoRows (s.activity.cohort == a.user.cohort && !s.activity.isHidden)
  match s.memberships.get? a.id with
  | none => .error .errNoRows
  | some m =>
    need Error.errInvalid (m.state != .removed && m.role != .owner)
    need Error.failed (!fails)
    pure (s.setMembership a.id { m with state := .removed })

/-! ### Admission -/

/-- One `UPDATE social_membership SET state='member'`: the user, the rows just before it, and
whether an organizer overrides the vote. -/
structure Admission where
  before : State
  user : Nat
  override : Bool

/-- The members that may supervise the activity for its owner. -/
def supervisors (env : Env) (s : State) : List Nat :=
  s.memberships.keysWhere fun g m =>
    m.role == .guardian && m.state == .member && env.guardianOf g s.activity.owner
      && (env.users g).any (fun u => u.cohort == .adult) && env.participates g

def supervisionSatisfied (env : Env) (s : State) : Bool :=
  !s.activity.supervised || !(supervisors env s).isEmpty

/-- The gate of `Vote` on the requester, after the vote itself. -/
def admissionGate (env : Env) (target : Nat) (s : State) : Except Error Unit := do
  let actor ← actorByID env target
  need Error.errForbidden (actor.user.cohort == s.activity.cohort)
  participate env actor
  need Error.errForbidden (!env.blocked target s.activity.owner)
  need Error.errInvalid (!s.isFull)

/-- The vote of `Vote`: an override checks the organizer, a ballot is stored. -/
def ballot (a : Actor) (target : Nat) (approve override : Bool) (s : State) :
    Except Error State :=
  if override then do
    -- An override stores no vote.
    need Error.errForbidden (organizer a s && s.activity.ownerCanOverride)
    pure s
  else do
    need Error.errInvalid (target != a.id)
    need Error.errForbidden (s.isSeated a.id)
    pure (s.setVote target a.id approve)

/-- The decision of `Vote`, on the rows with the ballot. -/
def decideVote (env : Env) (target : Nat) (override fails : Bool) (s : State) :
    Except Error (State × List Admission) :=
  -- The gates on the requester run only once the vote is won: a losing ballot is stored
  -- whoever it is about.
  if override || clears (s.approvals target) s.participantCount s.activity.joinThreshold then
    if supervisionSatisfied env s then do
      admissionGate env target s
      need Error.failed (!fails)
      pure (s.admitUser target, [⟨s, target, override⟩])
    else do
      -- Without a supervisor a winning ballot is kept and the request stays pending.
      need Error.errInvalid (!override)
      need Error.failed (!fails)
      pure (s, [])
  else do
    need Error.failed (!fails)
    pure (s, [])

/-- `Vote`, on the membership of `target`. -/
def vote (env : Env) (a : Actor) (target : Nat) (approve override fails : Bool) (s : State) :
    Except Error (State × List Admission) := do
  participate env a
  need Error.errNoRows (s.memberships.get? target).isSome
  activity env a s
  need Error.errInvalid (s.isRequested target && s.activity.status == .opened)
  let s ← ballot a target approve override s
  decideVote env target override fails s

/-- The loop of `settlePending` over the pending requests. `members` is its counter. A full
activity ends the loop; a requester that fails another check is passed over. -/
def settleLoop (env : Env) : List Nat → Nat → State → State × List Admission
  | [], _, s => (s, [])
  | target :: pending, members, s =>
    if !clears (s.approvals target) members s.activity.joinThreshold then
      settleLoop env pending members s
    else if s.activity.capacity.any fun capacity => decide (capacity ≤ members) then (s, [])
    else if !((env.users target).any fun u => u.cohort == s.activity.cohort) then
      settleLoop env pending members s
    else if !env.participates target then settleLoop env pending members s
    else if env.blocked target s.activity.owner then settleLoop env pending members s
    else
      let (s', rest) := settleLoop env pending (members + 1) (s.admitUser target)
      (s', ⟨s, target, false⟩ :: rest)

/-- The `pending` query of `settlePending`. -/
def pending (s : State) : List Nat :=
  s.memberships.keysWhere fun target m => m.state == .requested &&
    clears (s.approvals target) s.participantCount s.activity.joinThreshold

def settlePending (env : Env) (s : State) : State × List Admission :=
  if supervisionSatisfied env s then settleLoop env (pending s) s.participantCount s else (s, [])

/-- `AddGuardian`. The activity need not be open. -/
def addGuardian (env : Env) (a : Actor) (target : Nat) (fails : Bool) (s : State) :
    Except Error (State × List Admission) := do
  participate env a
  activity env a s
  need Error.errForbidden (s.activity.owner == a.id && s.activity.cohort == .child
    && s.activity.guardianAccompanied)
  let guardian ← actorByID env target
  need Error.errForbidden (guardian.user.cohort == .adult)
  participate env guardian
  need Error.errForbidden (env.guardianOf target a.id)
  need Error.failed (!fails)
  pure (settlePending env (s.setMembership target ⟨.guardian, .member⟩))

/-- The activity row after `SetSupervision`. -/
def withSupervision (supervised : Bool) (s : State) : State :=
  { s with activity := { s.activity with
      supervised
      guardianAccompanied := supervised || s.activity.guardianAccompanied } }

def setSupervision (env : Env) (a : Actor) (supervised fails : Bool) (s : State) :
    Except Error (State × List Admission) := do
  participate env a
  activity env a s
  need Error.errForbidden (s.activity.owner == a.id && s.activity.status == .opened
    && !(supervised && s.activity.cohort != .child))
  need Error.failed (!fails)
  pure (settlePending env (withSupervision supervised s))

/-! ### Organizers -/

/-- `UPDATE ... SET role='member' WHERE user_id=... AND role='owner' AND state='member'`. -/
def demoteOwner (u : Nat) (s : State) : State :=
  match s.memberships.get? u with
  | some m => if m.role == .owner && m.state == .member then
      s.setMembership u { m with role := .member } else s
  | none => s

/-- The writes of `ChangeOrganizer` on the seat `m` of the target. -/
def changeRole (a : Actor) (target : Nat) (action : String) (m : Membership) (s : State) :
    Except Error State :=
  if action == "revoke_organizer" then do
    need Error.errInvalid (m.role == .coOrganizer)
    pure (s.setMembership target { m with role := .member })
  else if action == "transfer" then
    -- The old owner steps down by role and state, so a removed row keeps its role.
    let s := { s with activity := { s.activity with owner := target } }
    .ok ((demoteOwner a.id s).setMembership target { m with role := .owner })
  else if action == "grant_organizer" then
    .ok (s.setMembership target { m with role := .coOrganizer })
  else .error .errInvalid

def changeOrganizer (env : Env) (a : Actor) (target : Nat) (action : String) (fails : Bool)
    (s : State) : Except Error State := do
  participate env a
  activity env a s
  need Error.errForbidden (s.activity.owner == a.id && s.activity.cohort == .adult && target != a.id)
  let actor ← actorByID env target
  need Error.errForbidden (actor.user.cohort == s.activity.cohort)
  participate env actor
  match s.memberships.get? target with
  | none => .error .errNoRows
  | some m =>
    need Error.errNoRows m.isSeat
    -- Granting twice is no error and writes nothing.
    if action == "grant_organizer" && m.role == .coOrganizer then pure s
    else do
      let s' ← changeRole a target action m s
      need Error.failed (!fails)
      pure s'

/-! ### The machine -/

/-- One operation on the activity. `setHidden` is a moderation action or its reversal, and
`erase` the erasure of an account. -/
inductive Op where
  | create (a : Actor) (input : ActivityInput) (fromSeries fails : Bool)
  | update (a : Actor) (changes : Changes) (fails : Bool)
  | cancel (a : Actor) (fails : Bool)
  | move (a : Actor) (place : Nat) (fails : Bool)
  | autoComplete (grace : Nat)
  | join (a : Actor) (fails : Bool)
  | leave (a : Actor) (fails : Bool)
  | vote (a : Actor) (target : Nat) (approve override fails : Bool)
  | changeOrganizer (a : Actor) (target : Nat) (action : String) (fails : Bool)
  | addGuardian (a : Actor) (target : Nat) (fails : Bool)
  | setSupervision (a : Actor) (supervised fails : Bool)
  | setHidden (isHidden : Bool)
  | erase (u : Nat)

/-- An operation that admits nobody. -/
def quiet (r : Except Error State) : Except Error (State × List Admission) :=
  r.map fun s => (s, [])

/-- An operation on an activity that exists. A creation makes another activity, and the
erasure of the owner, which deletes this one, is dealt with in `perform`. -/
def operate (env : Env) (s : State) : Op → Except Error (State × List Admission)
  | .create _ _ _ _ => quiet (.ok s)
  | .update a changes fails => quiet (updateActivity env a changes fails s)
  | .cancel a fails => quiet (cancelActivity env a fails s)
  | .move a place fails => quiet (moveActivity env a place fails s)
  | .autoComplete grace => quiet (.ok (autoComplete env grace s))
  | .join a fails => quiet (join env a fails s)
  | .leave a fails => quiet (leave a fails s)
  | .vote a target approve override fails => vote env a target approve override fails s
  | .changeOrganizer a target action fails => quiet (changeOrganizer env a target action fails s)
  | .addGuardian a target fails => addGuardian env a target fails s
  | .setSupervision a supervised fails => setSupervision env a supervised fails s
  | .setHidden isHidden => quiet (.ok { s with activity := { s.activity with isHidden } })
  | .erase u => quiet (.ok (s.eraseUser u))

/-- The erasure of the owner deletes the activity with all its rows. -/
def deletes (s : State) : Op → Bool
  | .erase u => u == s.activity.owner
  | _ => false

/-- An operation. There is no activity before its creation, nor after its owner is erased. -/
def perform (env : Env) (op : Op) : Option State →
    Except Error (Option State × List Admission)
  | none =>
    match op with
    | .create a input fromSeries fails =>
      (createActivity env a input fromSeries fails).map fun s => (some s, [])
    | _ => .error .errNoRows
  | some s =>
    if deletes s op then .ok (none, []) else (operate env s op).map fun r => (some r.1, r.2)

/-- The state after one operation: an error is rolled back. -/
def step (s : Option State) (p : Env × Op) : Option State :=
  match perform p.1 p.2 s with
  | .ok r => r.1
  | .error _ => s

/-- The admissions of one operation, in the order of their statements. -/
def admissions (s : Option State) (p : Env × Op) : List Admission :=
  match perform p.1 p.2 s with
  | .ok r => r.2
  | .error _ => []

end SocialActivities.Social.Go
