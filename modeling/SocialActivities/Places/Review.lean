import Mathlib.Logic.Function.Basic
import SocialActivities.Lib.Checked

/-!
# `SocialActivities.Places.Review`: proposals and corrections of places

`apps/social/services.py` and `apps/places/services.py`: members confirm a proposed place or a
corrected value until there are enough of them, and staff publish or reject it. A service checks
the row that its view has loaded, and takes no lock before it saves. So the transaction of a
request goes in steps, and `Review.step` takes one step of one request:

* the view loads the row;
* the service checks the loaded status and opens its transaction;
* a confirmation is found or inserted, and then the confirmations are counted;
* the new status is saved, which locks the row until the end of the transaction;
* the transaction commits, or is rolled back.

A statement reads what is committed and what its own transaction has written. An insert waits for
a transaction that has inserted the same confirmation, and a save for one that has saved the row.
-/

namespace SocialActivities.Places

open Lib

/-- `Status` of both models. -/
inductive Status where
  | pending
  | published
  | rejected
  deriving DecidableEq

/-- `PlaceCorrection.Field`. -/
inductive CorrectionField where
  | name
  | address
  | hours
  deriving DecidableEq

/-- A `UserPlaceProposal`, or a `PlaceCorrection` of a field. -/
inductive Kind where
  | proposal
  | correction (field : CorrectionField)
  deriving DecidableEq

/-- The columns that no request writes. -/
structure Subject where
  kind : Kind
  place : Nat
  proposer : Nat
  requiredConfirmations : Nat
  /-- `proposal_quorum_positive` and `correction_quorum_positive`. -/
  positive : 1 ≤ requiredConfirmations
  deriving DecidableEq

/-- The exceptions of the services, with their texts. -/
inductive Error where
  | invalidState (text : String)
  | notEligible (text : String)
  deriving DecidableEq

structure AuditRow where
  event : String
  actor : Nat
  place : Nat
  reason : String
  deriving DecidableEq

/-- A request: who calls which service. -/
inductive Call where
  | confirm (user : Nat) (canParticipate : Bool)
  | publish (staffUser : Nat) (isStaff : Bool)
  | reject (staffUser : Nat) (isStaff : Bool) (reason : String)
  deriving DecidableEq

/-! ### The checks of the services -/

/-- The checks before a confirmation. -/
def confirmChecks (closed own ineligible : String) (proposer user : Nat) (canParticipate : Bool)
    (status : Status) : Except Error Unit := do
  need (.invalidState closed) (status == .pending)
  need (.invalidState own) (proposer != user)
  need (.notEligible ineligible) canParticipate

/-- The checks of `confirm_place`. -/
def confirmPlace :=
  confirmChecks "This place proposal is no longer open for confirmation."
    "The proposer cannot confirm their own place."
    "User cannot confirm places (needs verification/consent)."

/-- The checks of `confirm_place_correction`. -/
def confirmPlaceCorrection :=
  confirmChecks "This correction is no longer open for confirmation."
    "The proposer cannot confirm their own correction."
    "Verified, consented participation is required to confirm a correction."

/-- The checks of staff. -/
def staffChecks (ineligible closed : String) (isOpen : Status → Bool) (isStaff : Bool)
    (status : Status) : Except Error Unit := do
  need (.notEligible ineligible) isStaff
  need (.invalidState closed) (isOpen status)

/-- The checks of `staff_publish_proposal`. -/
def staffPublishProposal :=
  staffChecks "Only staff may publish a place proposal." "This proposal is not pending."
    (· == .pending)

/-- The checks of `staff_publish_correction`. -/
def staffPublishCorrection :=
  staffChecks "Only staff may publish a correction." "This correction is not pending."
    (· == .pending)

/-- The checks of `staff_reject_proposal`. -/
def staffRejectProposal :=
  staffChecks "Only staff may reject a place proposal." "This proposal is not pending."
    (· == .pending)

/-- The checks of `staff_reject_correction`: a published correction can be reverted. -/
def staffRejectCorrection :=
  staffChecks "Only staff may reject a correction." "This correction is already rejected."
    (· != .rejected)

/-- The checks of the service that a request calls, on the status that its view has loaded. -/
def Subject.check (subject : Subject) (status : Status) : Call → Except Error Unit
  | .confirm user canParticipate =>
    match subject.kind with
    | .proposal => confirmPlace subject.proposer user canParticipate status
    | .correction _ => confirmPlaceCorrection subject.proposer user canParticipate status
  | .publish _ isStaff =>
    match subject.kind with
    | .proposal => staffPublishProposal isStaff status
    | .correction _ => staffPublishCorrection isStaff status
  | .reject _ isStaff _ =>
    match subject.kind with
    | .proposal => staffRejectProposal isStaff status
    | .correction _ => staffRejectCorrection isStaff status

/-! ### What the services save -/

/-- A save: the status, `published_at` where it is saved too, the reports that go with it, and the
audit row of the transaction. -/
structure Write where
  status : Status
  publishedAt : Option (Option Nat)
  clearsReports : Bool
  audit : List AuditRow
  deriving DecidableEq

/-- The save of `confirm_place` and `staff_publish_proposal`, and `_publish_correction`. -/
def Subject.publishing (subject : Subject) (now : Nat) (audit : List AuditRow) : Write where
  status := .published
  publishedAt := some (some now)
  clearsReports := subject.kind == .correction .hours
  audit := audit

/-- The save of `staff_reject_proposal` and `staff_reject_correction`. -/
def Subject.rejecting (subject : Subject) (staffUser : Nat) (reason : String) : Write where
  status := .rejected
  publishedAt :=
    match subject.kind with
    | .proposal => none
    | .correction _ => some none
  clearsReports := false
  audit :=
    match subject.kind with
    | .proposal =>
      [⟨"place.staff_rejected", staffUser, subject.place,
        String.ofList (reason.toList.take 200)⟩]
    | .correction _ => [⟨"place.correction_rejected", staffUser, subject.place, reason⟩]

/-- What a request saves. -/
def Subject.write (subject : Subject) (now : Nat) : Call → Write
  | .confirm _ _ => subject.publishing now []
  | .publish staffUser _ =>
    subject.publishing now
      [⟨match subject.kind with
        | .proposal => "place.staff_published"
        | .correction _ => "place.correction_published", staffUser, subject.place, ""⟩]
  | .reject staffUser _ reason => subject.rejecting staffUser reason

/-! ### Requests in steps -/

/-- How far a request is. `row` is the user of the confirmation that its transaction has
inserted. -/
inductive Phase where
  | idle
  | loaded (status : Status)
  | checked
  | recorded (row : Option Nat)
  | counted (row : Option Nat) (enough : Bool)
  | saved (row : Option Nat) (write : Write)
  | ended (result : Option (Except Error Status))

/-- The confirmation that the open transaction of a request has inserted. -/
def Phase.row : Phase → Option Nat
  | .recorded row => row
  | .counted row _ => row
  | .saved row _ => row
  | _ => none

/-- What is committed, the locks of the open transactions, and the requests. -/
structure Review where
  status : Status
  publishedAt : Option Nat
  /-- The users of the committed confirmations. -/
  confirmations : List Nat
  openNowReports : List Nat
  audit : List AuditRow
  /-- The users of the confirmations that open transactions have inserted. -/
  inserting : List Nat
  /-- The request whose open transaction has saved the row. -/
  lock : Option Nat
  phase : Nat → Phase

/-- A new row, with the open-now reports of its place. -/
def Review.created (openNowReports : List Nat) : Review where
  status := .pending
  publishedAt := none
  confirmations := []
  openNowReports := openNowReports
  audit := []
  inserting := []
  lock := none
  phase := fun _ => .idle

namespace Review

/-- The request moves on. -/
def goto (s : Review) (request : Nat) (phase : Phase) : Review :=
  { s with phase := Function.update s.phase request phase }

/-- `get_or_create` of the confirmation. -/
def getOrCreate (s : Review) (request user : Nat) : Review :=
  if user ∈ s.confirmations then s.goto request (.recorded none)
  -- The insert waits for the transaction that has the same row.
  else if user ∈ s.inserting then s
  else { s with inserting := user :: s.inserting }.goto request (.recorded (some user))

/-- The confirmations that a request counts. -/
def count (s : Review) (row : Option Nat) : Nat :=
  s.confirmations.length + row.toList.length

def save (s : Review) (request : Nat) (row : Option Nat) (write : Write) : Review :=
  match s.lock with
  -- The row is locked: the save waits.
  | some _ => s
  | none => { s with lock := some request }.goto request (.saved row write)

/-- The confirmation of a transaction is committed. -/
def commitRow (s : Review) : Option Nat → Review
  | none => s
  | some user =>
    { s with confirmations := s.confirmations ++ [user]
             inserting := s.inserting.filter (· != user) }

/-- The save of a transaction is committed. -/
def commitWrite (s : Review) (write : Write) : Review :=
  { s with status := write.status
           publishedAt := write.publishedAt.getD s.publishedAt
           openNowReports := if write.clearsReports then [] else s.openNowReports
           audit := s.audit ++ write.audit
           lock := none }

/-- The next statement of a request. -/
def next (subject : Subject) (calls : Nat → Call) (s : Review) (request now : Nat) : Review :=
  match s.phase request with
  | .idle => s
  | .loaded status =>
    match subject.check status (calls request) with
    | .error e => s.goto request (.ended (some (.error e)))
    | .ok _ => s.goto request .checked
  | .checked =>
    match calls request with
    | .confirm user _ => s.getOrCreate request user
    -- Staff save at once: the status is not read again.
    | .publish _ _ => s.save request none (subject.write now (calls request))
    | .reject _ _ _ => s.save request none (subject.write now (calls request))
  | .recorded row =>
    -- Of the other transactions only what is committed is seen.
    s.goto request (.counted row (decide (subject.requiredConfirmations ≤ s.count row)))
  | .counted row true => s.save request row (subject.write now (calls request))
  | .counted row false => (s.commitRow row).goto request (.ended (some (.ok .pending)))
  | .saved row write =>
    ((s.commitRow row).commitWrite write).goto request (.ended (some (.ok write.status)))
  | .ended _ => s

/-- The transaction of a request is rolled back. -/
def rollback (s : Review) (request : Nat) : Review :=
  match s.phase request with
  | .ended _ => s
  | phase =>
    { s with inserting := s.inserting.filter fun user => some user != phase.row
             lock := if s.lock = some request then none else s.lock }.goto request (.ended none)

end Review

inductive ReviewOp where
  | load (request : Nat)
  | next (request now : Nat)
  | rollback (request : Nat)

/-- One step of one request. -/
def Review.step (subject : Subject) (calls : Nat → Call) (s : Review) : ReviewOp → Review
  | .load request =>
    match s.phase request with
    | .idle => s.goto request (.loaded s.status)
    | _ => s
  | .next request now => s.next subject calls request now
  | .rollback request => s.rollback request

end SocialActivities.Places
