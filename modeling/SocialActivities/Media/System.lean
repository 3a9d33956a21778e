import SocialActivities.Media.Lifecycle
import SocialActivities.Media.Uploads

/-!
# `SocialActivities.Media.System`: the media service, step by step (Go)

A step is one call of a job: one transaction, one request to the object store, or the start of a
job. Any number of uploads, video workers, purges and drains take steps in any order, between steps
of members and moderators. Every call may fail, and may take effect although its caller has an
error. Two calls are taken to succeed: the insert of `discard` into the queue, and a process does
not crash.

A worker of `ProcessPendingVideos` is a job for each claim. Its loop only limits how many claims one
call makes.
-/

namespace SocialActivities.Media

open Lib

inductive Action where
  /-- Time passes. -/
  | tick (seconds : Nat)
  | change (c : BoardChange)
  /-- An upload is accepted. -/
  | start (upload : Upload) (thumb : Bool)
  /-- A worker claims a video, past the rows that others have locked. -/
  | claim (locked : List Nat) (answer : Answer)
  /-- The codec, the scanner or the download fails before an object is stored. -/
  | reject (j : Nat) (cause : Cause)
  /-- `storeArtifact`. -/
  | put (j : Nat) (answer : Answer) (cause : Cause)
  | publish (j : Nat) (g : Gate) (answer : Answer)
  /-- The next call of a job that ends or drains. -/
  | proceed (j : Nat) (answer : Answer)
  | deleteAttachment (actor : Nat) (staff : Bool) (id : Nat) (answer : Answer)
  /-- Rows are deleted by other code or by a cascade. -/
  | deleteRows (ids : List Nat) (slots : List Slot) (answer : Answer)
  | startPurge (limit : Nat)
  /-- The next page or the next candidate of a purge. -/
  | purge (j : Nat) (answer : Answer) (cancelled : Bool)
  | startDrain (limit : Nat)
  | drain (j : Nat) (locked : List Key) (key : Option Key) (answer : Answer)
  deriving DecidableEq

/-- The deferred clean-up of a job whose transaction returned an error. -/
def Upload.cleanup (cause : Cause) (keys : List Key) : Upload → List Task
  | .video _ => [.failClaim cause, .discard keys]
  | _ => [.discard keys]

/-- What follows when an object could not be stored: `storeArtifact` discards its key, the caller the
key before, and a claim fails. -/
def Upload.giveUp (cause : Cause) (keys : List Key) (key : Key) (upload : Upload) : List Task :=
  .discard [key] :: keys.map (fun k => .discard [k]) ++
    match upload with
    | .video _ => [.failClaim cause]
    | _ => []

namespace Service

variable (p : PolicyConfig) (s : Service)

/-- A transaction that leads to `t`. -/
def commit (t : Service) (answer : Answer) : Service := if answer.applied then t else s

/-- The claim of a worker, which goes on with the video if it is told of the commit. -/
def claimStep (locked : List Nat) (answer : Answer) : Service :=
  match s.claim p locked, answer with
  | none, _ => s
  | some _, .failed => s
  | some (t, _), .lost => t
  | some (t, none), .done => t
  | some (t, some lease), .done => t.startJob (.storing (.video lease) false [])

def rejectStep (j : Nat) (cause : Cause) : Service :=
  match s.jobs.get? j with
  | some (.storing upload _ []) =>
    s.setJob j (.ending upload.lease?
      (match upload with
      | .video _ => [.failClaim cause]
      | _ => []))
  | _ => s

/-- `storeArtifact`: the key that is drawn is the next one. -/
def putStep (j : Nat) (answer : Answer) (cause : Cause) : Service :=
  match s.jobs.get? j with
  | some (.storing upload thumb keys) =>
    if keys.length < upload.artifacts thumb then
      let key := s.makers.length
      let drawn := { s with
        makers := s.makers ++ [j]
        objects := if answer.applied then s.objects ++ [key] else s.objects }
      drawn.setJob j
        (if answer = .done then .storing upload thumb (keys ++ [key])
        else .ending upload.lease? (upload.giveUp cause keys key))
    else s
  | _ => s

def publishStep (j : Nat) (g : Gate) (answer : Answer) : Service :=
  match s.jobs.get? j with
  | some (.storing upload thumb keys) =>
    if keys.length = upload.artifacts thumb then
      match s.publish p g keys upload, answer with
      | .ok t, .done => t.setJob j (.ending upload.lease? [])
      | .ok t, .lost => t.setJob j (.ending upload.lease? (upload.cleanup .other keys))
      | .ok _, .failed => s.setJob j (.ending upload.lease? (upload.cleanup .other keys))
      | .error cause, _ => s.setJob j (.ending upload.lease? (upload.cleanup cause keys))
    else s
  | _ => s

/-- The transaction of `failClaim` for a job, if it has a claim. -/
def recordFailure (lease : Option Lease) (cause : Cause) (answer : Answer) : Service :=
  match lease with
  | none => s
  | some l => s.commit ((s.failClaim p l cause).getD s) answer

/-- The first task of a job that ends. -/
def runTask (j : Nat) (lease : Option Lease) (task : Task) (tasks : List Task) (answer : Answer) :
    Service :=
  match task with
  | .discard keys => (s.queueDelete keys).setJob j (.ending lease (keys.map .erase ++ tasks))
  | .erase key =>
    (s.commit (s.eraseObject key) answer).setJob j
      (.ending lease (if answer = .done then .clear key :: tasks else tasks))
  | .clear key => (s.commit (s.unqueue key) answer).setJob j (.ending lease tasks)
  | .failClaim cause => (s.recordFailure p lease cause answer).setJob j (.ending lease tasks)

def proceedStep (j : Nat) (answer : Answer) : Service :=
  match s.jobs.get? j with
  | some (.ending lease (task :: tasks)) => s.runTask p j lease task tasks answer
  | some (.deleting key attempts left) => s.drainDelete j key attempts left answer
  | some (.settling key left) => s.drainSettle j key left answer
  | some (.backingOff key attempts left) => s.drainBackOff j key attempts left answer
  | _ => s

def purgeStep (j : Nat) (answer : Answer) (cancelled : Bool) : Service :=
  match s.jobs.get? j with
  | some (.purging w) =>
    match w.page with
    | [] => s.purgePage j w (answer = .done)
    | c :: rest => s.purgeCandidate j w c rest answer cancelled
  | _ => s

def drainStep (j : Nat) (locked : List Key) (key : Option Key) (answer : Answer) : Service :=
  match s.jobs.get? j with
  | some (.draining left) => s.drainRound j left locked key answer
  | _ => s

end Service

/-- The state after a step. -/
def step (p : PolicyConfig) (s : Service) : Action → Service
  | .tick seconds => { s with now := s.now + seconds }
  | .change c => { s with board := s.board.change c }
  | .start upload thumb =>
    if upload.lease?.isSome then s else s.startJob (.storing upload thumb [])
  | .claim locked answer => s.claimStep p locked answer
  | .reject j cause => s.rejectStep j cause
  | .put j answer cause => s.putStep j answer cause
  | .publish j g answer => s.publishStep p j g answer
  | .proceed j answer => s.proceedStep p j answer
  | .deleteAttachment actor staff id answer =>
    match s.deleteAttachment actor staff id with
    | none => s
    | some t => s.commit t answer
  | .deleteRows ids slots answer =>
    s.commit ((s.deleteAttachments ids.contains).deletePictures slots.contains) answer
  | .startPurge limit =>
    if 1 ≤ limit ∧ limit ≤ 1000 then s.startJob (.purging ⟨limit, 0, 0, none, []⟩) else s
  | .purge j answer cancelled => s.purgeStep j answer cancelled
  | .startDrain limit => if 1 ≤ limit ∧ limit ≤ 1000 then s.startJob (.draining limit) else s
  | .drain j locked key answer => s.drainStep j locked key answer

/-- The state after a schedule. -/
abbrev run (p : PolicyConfig) (s : Service) (as : List Action) : Service :=
  Machine.run (step p) s as

end SocialActivities.Media
