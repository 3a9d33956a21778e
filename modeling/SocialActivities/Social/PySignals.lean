import SocialActivities.Social.PyActivity

/-!
# `SocialActivities.Social.PySignals`: the transient signals of a membership (Python)

A membership carries what its user says about the day of the meetup: the intent to come, the
transit cue, the arrival and the departure, the confirmation of the meetup, the support person.
The services of `apps/social/services.py` that write them are here, with `expire_arrivals`. They
run beside the services of the join workflow, which insert memberships with the defaults of the
model and of which `leave_activity` resets a list of these columns. That list leaves `arrived_at`
out.

`signals` gives the columns for every user. They mean something where the user has a membership.

A step is one service call. `fails` stands, as for the join workflow, for the notices and the
audit of the transaction.
-/

namespace SocialActivities.Social.Py

open Lib

inductive AttendanceIntent where
  | unknown
  | going
  | notGoing
  deriving DecidableEq

inductive TransitStatus where
  | none
  | onMyWay
  | runningLate
  deriving DecidableEq

/-- The transient columns of a membership. -/
structure Signals where
  attendanceIntent : AttendanceIntent
  arrivedAt : Option Nat
  metConfirmedAt : Option Nat
  transitStatus : TransitStatus
  departingAt : Option Nat
  bringsSupportPerson : Bool
  deriving DecidableEq

/-- The defaults of the columns. -/
def Signals.blank : Signals := ⟨.unknown, none, none, .none, none, false⟩

/-- The activity with its memberships and their signals. -/
structure DayState where
  rows : State
  signals : Nat → Signals

/-- The day-of settings beside what the join workflow reads. Times are in microseconds. -/
structure DayEnv extends Env where
  arrivalWindowBefore : Nat
  arrivalWindowAfter : Nat
  departureFallbackDuration : Nat
  departureWindowAfter : Nat
  /-- `support_companions_allowed_cohorts`. -/
  supportCompanionCohorts : Cohort → Bool

/-- The signals with those of one user replaced. -/
def setSignals (signals : Nat → Signals) (user : Nat) (new : Signals) : Nat → Signals :=
  fun v => if v = user then new else signals v

namespace DayState

/-- The membership of the user in state `removed`. -/
def isRemoved (user : Nat) (s : State) : Bool :=
  (s.memberships.get? user).any fun m => m.state == .removed

/-- A write to the signals of one membership. -/
def save (s : DayState) (user : Nat) (new : Signals) : DayState :=
  { s with signals := setSignals s.signals user new }

end DayState

open DayState (isRemoved)

/-- `current_members(activity).filter(user=user).first()`. -/
def currentMember (user : Nat) (s : State) : Option Membership :=
  (s.memberships.get? user).filter fun m => m.state == .member

/-- `voting_members(activity).filter(user=user).first()`. -/
def votingMember (user : Nat) (s : State) : Option Membership :=
  (s.memberships.get? user).filter Membership.isSeat

/-! ### The day-of services -/

/-- `set_attendance_intent`; `none` is a value that is no choice. The status of the activity is not
asked for. -/
def setAttendanceIntent (user : Nat) (intent : Option AttendanceIntent) (fails : Bool)
    (s : DayState) : Except Error DayState := do
  need Error.notAMember (currentMember user s.rows).isSome
  match intent with
  | none => .error .invalidState
  | some intent =>
    need Error.failed (!fails)
    pure (s.save user { s.signals user with attendanceIntent := intent })

def setMetConfirmed (env : DayEnv) (user : Nat) (confirmed : Bool) (s : DayState) :
    Except Error DayState :=
  match currentMember user s.rows with
  | none => .error .notAMember
  | some m => do
    need Error.notEligible (m.role != .guardian)
    need Error.invalidState (s.rows.activity.status == .completed)
    -- A second tap changes nothing, not even the time.
    if confirmed && (s.signals user).metConfirmedAt.isSome then pure s
    else
      pure (s.save user { s.signals user with
        metConfirmedAt := if confirmed then some env.now else none })

def arrivalWindowOpen (env : DayEnv) (v : Activity) : Bool :=
  v.status == .opened && decide (v.startsAt ≤ env.now + env.arrivalWindowBefore)
    && decide (env.now ≤ v.startsAt + env.arrivalWindowAfter)

def markArrived (env : DayEnv) (user : Nat) (fails : Bool) (s : DayState) :
    Except Error DayState := do
  need Error.notAMember (currentMember user s.rows).isSome
  need Error.notEligible (env.canParticipate user)
  need Error.invalidState (s.rows.activity.status == .opened)
  need Error.invalidState (arrivalWindowOpen env s.rows.activity)
  if (s.signals user).arrivedAt.isSome then pure s
  else do
    need Error.failed (!fails)
    pure (s.save user { s.signals user with arrivedAt := some env.now })

def departureWindowOpen (env : DayEnv) (v : Activity) : Bool :=
  v.status == .opened && decide (v.startsAt ≤ env.now)
    && decide (env.now ≤ v.endsAt.getD (v.startsAt + env.departureFallbackDuration)
        + env.departureWindowAfter)

def markDeparting (env : DayEnv) (user : Nat) (fails : Bool) (s : DayState) :
    Except Error DayState := do
  need Error.notAMember (currentMember user s.rows).isSome
  need Error.notEligible (env.canParticipate user)
  need Error.invalidState (env.cohort user == .child)
  need Error.invalidState (s.rows.activity.status == .opened)
  need Error.invalidState (departureWindowOpen env s.rows.activity)
  if (s.signals user).departingAt.isSome then pure s
  else do
    need Error.failed (!fails)
    pure (s.save user { s.signals user with departingAt := some env.now })

/-- `_TRANSIT_RANK`. -/
def TransitStatus.rank : TransitStatus → Nat
  | .none => 0
  | .onMyWay => 1
  | .runningLate => 2

/-- `set_transit_status`; the status `none` stands also for a value that is no choice, since both
have no copy. -/
def setTransitStatus (env : DayEnv) (user : Nat) (status : TransitStatus) (fails : Bool)
    (s : DayState) : Except Error DayState := do
  need Error.invalidState (status != .none)
  need Error.notAMember (currentMember user s.rows).isSome
  need Error.notEligible (env.canParticipate user)
  need Error.invalidState (s.rows.activity.status == .opened)
  need Error.invalidState (arrivalWindowOpen env s.rows.activity)
  -- Forward only: the same status, or an earlier one, is no error and no write.
  if status.rank ≤ (s.signals user).transitStatus.rank then pure s
  else do
    need Error.failed (!fails)
    pure (s.save user { s.signals user with transitStatus := status })

def setSupportCompanion (env : DayEnv) (user : Nat) (brings : Bool) (s : DayState) :
    Except Error DayState := do
  need Error.notAMember (votingMember user s.rows).isSome
  need Error.notEligible (env.canParticipate user)
  need Error.notEligible (env.supportCompanionCohorts (env.cohort user))
  -- An unchanged flag is not written; writing it would leave the same row.
  pure (s.save user { s.signals user with bringsSupportPerson := brings })

/-- A member's signals after the first update of `expire_arrivals`. -/
def Signals.arrivalExpired (c : Signals) : Signals :=
  { c with arrivedAt := none, transitStatus := .none }

/-- The first update of `expire_arrivals`: the query does not ask for the state of a membership.
The retention is an option of the command and may be negative. -/
def expireArrivals (env : DayEnv) (retention : Int) (s : DayState) : DayState :=
  if (s.rows.activity.startsAt : Int) + retention < env.now then
    { s with signals := fun user => (s.signals user).arrivalExpired }
  else s

/-- The second update of `expire_arrivals`, by the end of the activity or, where it is open, by its
start. -/
def expireDepartures (env : DayEnv) (retention : Int) (s : DayState) : DayState :=
  if (s.rows.activity.endsAt.getD s.rows.activity.startsAt : Int) + retention < env.now then
    { s with signals := fun user => { s.signals user with departingAt := none } }
  else s

/-! ### The services of the join workflow on the signals -/

/-- The reset of `leave_activity`, with its `update_fields`. `arrived_at` is not among them. -/
def Signals.left (c : Signals) : Signals :=
  { c with
      attendanceIntent := .unknown
      metConfirmedAt := none
      transitStatus := .none
      departingAt := none
      bringsSupportPerson := false }

/-- The signals after a service call that succeeded on these rows: an inserted membership has the
defaults, and a leave resets those of a membership that is not removed already. -/
def signalsAfter (s : DayState) : Op → Nat → Signals
  | .requestToJoin user _ => setSignals s.signals user .blank
  | .addGuardian _ guardian _ =>
    if (s.rows.memberships.get? guardian).isNone then setSignals s.signals guardian .blank
    else s.signals
  | .leave user =>
    if (s.rows.memberships.get? user).any (fun m => m.state != .removed) then
      setSignals s.signals user (s.signals user).left
    else s.signals
  | _ => s.signals

/-! ### The machine -/

/-- A service call, or an update of the job. -/
inductive DayOp where
  | service (op : Op)
  | setAttendanceIntent (user : Nat) (intent : Option AttendanceIntent) (fails : Bool)
  | setMetConfirmed (user : Nat) (confirmed : Bool)
  | markArrived (user : Nat) (fails : Bool)
  | markDeparting (user : Nat) (fails : Bool)
  | setTransitStatus (user : Nat) (status : TransitStatus) (fails : Bool)
  | setSupportCompanion (user : Nat) (brings : Bool)
  | expireArrivals (retention : Int)
  | expireDepartures (retention : Int)

/-- A call on an activity that exists. -/
def dayOperate (env : DayEnv) (s : DayState) : DayOp → Except Error DayState
  | .service op => do
    let rows ← operate env.toEnv s.rows op
    pure ⟨rows, signalsAfter s op⟩
  | .setAttendanceIntent user intent fails => setAttendanceIntent user intent fails s
  | .setMetConfirmed user confirmed => setMetConfirmed env user confirmed s
  | .markArrived user fails => markArrived env user fails s
  | .markDeparting user fails => markDeparting env user fails s
  | .setTransitStatus user status fails => setTransitStatus env user status fails s
  | .setSupportCompanion user brings => setSupportCompanion env user brings s
  | .expireArrivals retention => .ok (expireArrivals env retention s)
  | .expireDepartures retention => .ok (expireDepartures env retention s)

/-- The erasure of the owner deletes the activity. -/
def DayOp.deletes (s : State) : DayOp → Bool
  | .service op => Py.deletes s op
  | _ => false

/-- The state after one step. The owner's membership of a new activity has the defaults. -/
def dayStep : Option DayState → DayEnv × DayOp → Option DayState
  | none, (env, .service op) => (step none (env.toEnv, op)).map fun rows => ⟨rows, fun _ => .blank⟩
  | none, _ => none
  | some s, (env, op) =>
    if op.deletes s.rows then none
    else match dayOperate env s op with
      | .ok t => some t
      | .error _ => some s

end SocialActivities.Social.Py
