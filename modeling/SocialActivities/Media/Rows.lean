import SocialActivities.Lib.Custody
import SocialActivities.Lib.KeyMap
import SocialActivities.Lib.Machine
import Mathlib.Data.Prod.Lex

/-!
# `SocialActivities.Media.Rows`: the rows, the store and the jobs of the media service (Go)

A row of `media_attachment` names up to four objects by its key columns, a photo or a cover up to
two. The bytes are in an object store, outside of the transactions of the database. So every
operation is a job of several steps: it stores objects under fresh keys, names them in a transaction,
and discards them if the transaction fails. A key whose object is to be deleted is a row of
`media_go_blobdeletion`, which a drain works off.

A `Key` is the number of the draw: `randomKey` reads 16 random bytes, and a key is drawn once. The
empty text of a key column is `none`. A transaction is one step. It takes its locks before it
writes, and `Answer` says whether it took effect, and whether its caller was told so.

`attachmentHeld` is the hold rule, over what other domains write: the `Board` has the flags of posts,
activities and groups, the reports and the REMOVE actions.
-/

namespace SocialActivities.Media

open Lib

/-- The key of an object: the number of its draw. -/
abbrev Key := Nat

inductive Kind where
  | image
  | file
  | video
  deriving DecidableEq

inductive Status where
  | pending
  | processing
  | ready
  | failed
  | blocked
  deriving DecidableEq

inductive Cohort where
  | child
  | teen
  | adult
  | unassigned
  deriving DecidableEq

/-- A row of `media_attachment`, under its id. -/
structure Attachment where
  post : Nat
  uploader : Nat
  kind : Kind
  status : Status
  storageKey : Option Key
  thumbKey : Option Key
  posterKey : Option Key
  sourceKey : Option Key
  attempts : Nat
  startedAt : Option Int
  expiresAt : Option Int
  purgedAt : Option Int
  createdAt : Int
  deriving DecidableEq

/-- The keys that the columns of the row name. -/
def Attachment.keys (r : Attachment) : List Key :=
  r.storageKey.toList ++ r.thumbKey.toList ++ r.posterKey.toList ++ r.sourceKey.toList

/-- All key columns empty. -/
def Attachment.clearKeys (r : Attachment) : Attachment :=
  { r with storageKey := none, thumbKey := none, posterKey := none, sourceKey := none }

/-- The rows of `media_photo`, `media_activitycover` and `places_placecover`, by what they are unique
for. A thread photo has a serial id. -/
inductive Slot where
  | threadPhoto (id : Nat)
  | profilePhoto (uploader : Nat)
  | activityCover (activity : Nat)
  | placeCover (place : Nat)
  deriving DecidableEq

/-- The key columns of a photo or a cover. -/
structure Picture where
  storageKey : Option Key
  thumbKey : Option Key
  deriving DecidableEq

def Picture.keys (r : Picture) : List Key := r.storageKey.toList ++ r.thumbKey.toList

/-- A row of `media_go_blobdeletion`, under its key. -/
structure BlobDeletion where
  createdAt : Int
  attempts : Nat
  nextAttemptAt : Int
  deriving DecidableEq

/-! ### What other domains write -/

/-- A row of `social_post`, with the activity or the group of its thread. -/
structure Post where
  author : Nat
  activity : Option Nat
  group : Option Nat
  isHidden : Bool
  isAuthorDeleted : Bool
  deriving DecidableEq

/-- What a report is about. -/
inductive Target where
  | post (id : Nat)
  | activity (id : Nat)
  | group (id : Nat)
  | user (id : Nat)
  deriving DecidableEq

inductive ReportStatus where
  | open_
  | reviewing
  | actioned
  | dismissed
  deriving DecidableEq

structure Report where
  target : Target
  status : ReportStatus
  deriving DecidableEq

/-- A REMOVE action on a post, a row of `safety_moderationaction`. -/
structure Removal where
  post : Nat
  lifted : Bool
  deriving DecidableEq

/-- The tables that the hold rule reads. -/
structure Board where
  posts : KeyMap Nat Post
  hiddenActivities : List Nat
  hiddenGroups : List Nat
  reports : KeyMap Nat Report
  removals : KeyMap Nat Removal

/-- `attachmentHoldSQL`. -/
def Board.attachmentHeld (b : Board) (r : Attachment) : Bool :=
  (b.posts.get? r.post).any fun p =>
    (p.isHidden && (!p.isAuthorDeleted || b.removals.anyRow fun _ m => m.post == r.post && !m.lifted)) ||
    p.activity.any b.hiddenActivities.contains ||
    p.group.any b.hiddenGroups.contains ||
    b.reports.anyRow fun _ e => e.status != .dismissed &&
      (e.target == .post r.post || p.activity.any (fun id => e.target == .activity id) ||
        p.group.any (fun id => e.target == .group id) || e.target == .user r.uploader)

/-- What authors, members and moderators do. -/
inductive BoardChange where
  /-- A new post. -/
  | write (id : Nat) (author : Nat) (activity group : Option Nat)
  /-- A moderator hides the post, or shows it again. -/
  | setHidden (post : Nat) (hidden : Bool)
  /-- The author deletes the post. -/
  | withdraw (post : Nat)
  | setActivityHidden (activity : Nat) (hidden : Bool)
  | setGroupHidden (group : Nat) (hidden : Bool)
  | report (id : Nat) (target : Target)
  /-- A report is reviewed, acted on or dismissed. -/
  | resolve (id : Nat) (status : ReportStatus)
  /-- A REMOVE action, which hides the post. -/
  | remove (id : Nat) (post : Nat)
  /-- The action is lifted, on appeal or by a moderator. -/
  | lift (id : Nat)
  deriving DecidableEq

/-- Set or clear a flag of a list of ids. -/
def flag (ids : List Nat) (id : Nat) (on : Bool) : List Nat :=
  if on then id :: ids else ids.filter (· ≠ id)

/-- Change the post under an id. -/
def Board.setPost (b : Board) (id : Nat) (f : Post → Post) : Board :=
  { b with posts := b.posts.mapRows fun k p => if k = id then f p else p }

def Board.change (b : Board) : BoardChange → Board
  | .write id author activity group =>
    if (b.posts.get? id).isSome then b
    else { b with posts := b.posts.set id ⟨author, activity, group, false, false⟩ }
  | .setHidden post hidden => b.setPost post fun p => { p with isHidden := hidden }
  | .withdraw post => b.setPost post fun p => { p with isHidden := true, isAuthorDeleted := true }
  | .setActivityHidden activity hidden =>
    { b with hiddenActivities := flag b.hiddenActivities activity hidden }
  | .setGroupHidden group hidden => { b with hiddenGroups := flag b.hiddenGroups group hidden }
  | .report id target =>
    if (b.reports.get? id).isSome then b else { b with reports := b.reports.set id ⟨target, .open_⟩ }
  | .resolve id status =>
    { b with reports := b.reports.mapRows fun k e => if k = id then { e with status := status } else e }
  | .remove id post =>
    if (b.removals.get? id).isSome then b
    else
      { (b.setPost post fun p => { p with isHidden := true }) with
        removals := b.removals.set id ⟨post, false⟩ }
  | .lift id =>
    { b with removals := b.removals.mapRows fun k m => if k = id then { m with lifted := true } else m }

/-! ### Settings -/

/-- `PolicyConfig`, with the bounds that `Validate` checks and the results here rest on. -/
structure PolicyConfig where
  attachmentsEnabled : Bool
  /-- `FileCohorts["adult"]`. -/
  fileAdult : Bool
  /-- `VideoCohorts["adult"]`, and the processor takes videos. -/
  videoAdult : Bool
  ephemeralMinTtl : Int
  ephemeralMinTtlMinors : Int
  videoStaleProcessing : Int
  videoMaxAttempts : Nat
  stale_pos : 0 < videoStaleProcessing
  attempts_pos : 1 ≤ videoMaxAttempts

/-- `DefaultPolicyConfig`, where a processor takes videos. Times are in seconds. -/
def defaultPolicyConfig : PolicyConfig where
  attachmentsEnabled := true
  fileAdult := true
  videoAdult := true
  ephemeralMinTtl := 3600
  ephemeralMinTtlMinors := 24 * 3600
  videoStaleProcessing := 1800
  videoMaxAttempts := 3
  stale_pos := by decide
  attempts_pos := by decide

def PolicyConfig.attachmentModeAllowed (p : PolicyConfig) (kind : Kind) (cohort : Cohort) : Bool :=
  p.attachmentsEnabled &&
    match kind with
    | .image => true
    | .file => cohort == .adult && p.fileAdult
    | .video => cohort == .adult && p.videoAdult

/-- `expiryWithPolicy`. -/
def PolicyConfig.expiry (p : PolicyConfig) (now : Int) (cohort : Cohort) (ttl : Option Int) :
    Option Int :=
  match ttl with
  | none => none
  | some ttl =>
    if ttl ≤ 0 then none
    else
      let floor := if cohort == .child || cohort == .teen then p.ephemeralMinTtlMinors
        else p.ephemeralMinTtl
      some (now + min (max floor ttl) (10 * 365 * 86400))

/-! ### Jobs -/

/-- Whether a call took effect, and whether its caller was told so. -/
inductive Answer where
  /-- It took effect. -/
  | done
  /-- It took effect, and the caller has an error. -/
  | lost
  /-- It had no effect, and the caller has an error. -/
  | failed
  deriving DecidableEq

/-- The call took effect. -/
def Answer.applied : Answer → Bool
  | .done => true
  | .lost => true
  | .failed => false

/-- Why a claim failed: what `errors.Is` tells apart. -/
inductive Cause where
  /-- `ErrScanner`. -/
  | scanner
  /-- `ErrBlocked`. -/
  | blocked
  /-- `ErrRejected`. -/
  | rejected
  /-- `platform.ErrForbidden`. -/
  | forbidden
  | other
  deriving DecidableEq

/-- A claim of a video: the row as the claiming transaction left it. -/
structure Lease where
  id : Nat
  att : Attachment
  deriving DecidableEq

/-- What the objects of a job are for. -/
inductive Upload where
  /-- `UploadPhoto` for a thread. -/
  | threadPhoto
  /-- `UploadPhoto` for a profile. -/
  | profilePhoto (uploader : Nat)
  /-- `UploadActivityCover`. -/
  | activityCover (activity : Nat)
  /-- `UploadPlaceCover`. -/
  | placeCover (place : Nat)
  /-- `ImportLicensedPlaceCover`. -/
  | licensedCover (place : Nat)
  /-- `PrepareThreadAttachment`, or `AttachToPost`. -/
  | attachment (post uploader : Nat) (kind : Kind) (ttl : Option Int) (prepared : Bool)
  /-- `processClaim`. -/
  | video (lease : Lease)
  deriving DecidableEq

/-- The number of objects: a video has a poster, and a picture may have a thumbnail. -/
def Upload.artifacts (thumb : Bool) : Upload → Nat
  | .threadPhoto => if thumb then 2 else 1
  | .profilePhoto _ => if thumb then 2 else 1
  | .activityCover _ => if thumb then 2 else 1
  | .placeCover _ => 1
  | .licensedCover _ => 1
  | .attachment _ _ kind _ _ => if thumb && kind == .image then 2 else 1
  | .video _ => 2

def Upload.lease? : Upload → Option Lease
  | .video lease => some lease
  | _ => none

/-- What is left to do at the end of a job. -/
inductive Task where
  /-- `discard`: queue the keys, then delete each. -/
  | discard (keys : List Key)
  /-- The deletion of one object in `discard`. -/
  | erase (key : Key)
  /-- The removal of its queue entry, after the store has confirmed. -/
  | clear (key : Key)
  /-- `failClaim`. -/
  | failClaim (cause : Cause)
  deriving DecidableEq

structure Candidate where
  id : Nat
  expires : Int
  held : Bool
  deriving DecidableEq

/-- The variables of `PurgeExpiredAttachments`. -/
structure Purge where
  limit : Nat
  purged : Nat
  scanned : Nat
  cursor : Option (Int × Nat)
  page : List Candidate
  deriving DecidableEq

inductive Job where
  /-- Between the first object and the transaction that names them. -/
  | storing (upload : Upload) (thumb : Bool) (keys : List Key)
  /-- After it, or after a failure. A finished job has no tasks left. -/
  | ending (lease : Option Lease) (tasks : List Task)
  | purging (purge : Purge)
  /-- `DrainBlobDeletions` before its next round. -/
  | draining (left : Nat)
  /-- The drain has taken a key, and deletes its object. -/
  | deleting (key : Key) (attempts left : Nat)
  /-- The object is deleted. -/
  | settling (key : Key) (left : Nat)
  /-- The object could not be deleted. -/
  | backingOff (key : Key) (attempts left : Nat)
  deriving DecidableEq

def Job.finished : Job := .ending none []

/-- The claim that the job works on. -/
def Job.lease? : Job → Option Lease
  | .storing upload _ _ => upload.lease?
  | .ending lease _ => lease
  | _ => none

/-- The task may write the row of the claim. -/
def Task.writesRow : Task → Bool
  | .failClaim _ => true
  | _ => false

/-- The claim that the job may still finish or fail. -/
def Job.active? : Job → Option Lease
  | .storing upload _ _ => upload.lease?
  | .ending lease tasks => if tasks.any Task.writesRow then lease else none
  | _ => none

def Task.dropped : Task → List Key
  | .discard keys => keys
  | _ => []

def Task.doomed : Task → List Key
  | .erase key => [key]
  | .clear key => [key]
  | _ => []

def Task.cleared : Task → List Key
  | .clear key => [key]
  | _ => []

/-- The keys of stored objects that the job has not named yet. -/
def Job.carried : Job → List Key
  | .storing _ _ keys => keys
  | _ => []

/-- The keys that the job has given up and not queued yet. -/
def Job.dropped : Job → List Key
  | .ending _ tasks => tasks.flatMap Task.dropped
  | _ => []

/-- The keys whose objects the job is deleting. -/
def Job.doomed : Job → List Key
  | .ending _ tasks => tasks.flatMap Task.doomed
  | .deleting key _ _ => [key]
  | .settling key _ => [key]
  | _ => []

/-- The keys whose objects the job has deleted. -/
def Job.cleared : Job → List Key
  | .ending _ tasks => tasks.flatMap Task.cleared
  | .settling key _ => [key]
  | _ => []

/-- The job has objects that no row names, or is about to delete some. -/
def Job.inFlight : Job → Bool
  | .storing _ _ _ => true
  | .ending _ tasks => !tasks.isEmpty
  | _ => false

/-- The database, the object store and the jobs. `makers` has the job of each draw, in order. Ids of
rows and jobs are serial, from 1. -/
structure Service where
  now : Int
  board : Board
  attachments : KeyMap Nat Attachment
  pictures : KeyMap Slot Picture
  blobDeletions : KeyMap Key BlobDeletion
  objects : List Key
  makers : List Nat
  jobs : KeyMap Nat Job
  nextId : Nat

/-- No rows, no objects, no jobs. -/
def Service.initial (now : Int) : Service where
  now := now
  board := ⟨KeyMap.empty, [], [], KeyMap.empty, KeyMap.empty⟩
  attachments := KeyMap.empty
  pictures := KeyMap.empty
  blobDeletions := KeyMap.empty
  objects := []
  makers := []
  jobs := KeyMap.empty
  nextId := 1

namespace Service

variable (s : Service)

def attachmentHeld (r : Attachment) : Bool := s.board.attachmentHeld r

/-- The key is queued for deletion. -/
def queued (k : Key) : Bool := (s.blobDeletions.get? k).isSome

/-- `INSERT INTO media_go_blobdeletion … ON CONFLICT DO NOTHING`. -/
def enqueue (now : Int) (m : KeyMap Key BlobDeletion) (k : Key) : KeyMap Key BlobDeletion :=
  if (m.get? k).isSome then m else m.set k ⟨now, 0, now⟩

/-- `queueDelete`, the trigger `media_go_queue_deleted_blobs` and the insert of `discard`. -/
def queueDelete (keys : List Key) : Service :=
  { s with blobDeletions := keys.foldl (enqueue s.now) s.blobDeletions }

/-- Remove a key from the queue. -/
def unqueue (k : Key) : Service :=
  { s with blobDeletions := s.blobDeletions.removeIf fun j _ => j == k }

def setAttachment (id : Nat) (r : Attachment) : Service :=
  { s with attachments := s.attachments.set id r }

def setJob (j : Nat) (job : Job) : Service := { s with jobs := s.jobs.set j job }

/-- Start a job. -/
def startJob (job : Job) : Service := { s.setJob s.nextId job with nextId := s.nextId + 1 }

/-- The store deletes the object. -/
def eraseObject (k : Key) : Service := { s with objects := s.objects.filter (· ≠ k) }

/-! ### What the writes change -/

@[simp] theorem jobs_setJob (j : Nat) (job : Job) : (s.setJob j job).jobs = s.jobs.set j job := rfl

@[simp] theorem jobs_startJob (job : Job) : (s.startJob job).jobs = s.jobs.set s.nextId job := rfl

theorem get?_enqueue (now : Int) (m : KeyMap Key BlobDeletion) (k j : Key) :
    ((enqueue now m k).get? j).isSome = ((m.get? j).isSome || j == k) := by
  unfold enqueue
  by_cases hj : j = k
  · subst hj
    split
    · next hsome => rw [hsome, Bool.true_or]
    · rw [KeyMap.get?_set, if_pos rfl]
      simp
  · have hne : (j == k) = false := by simpa using hj
    rw [hne, Bool.or_false]
    split
    · rfl
    · rw [KeyMap.get?_set, if_neg hj]

theorem isSome_foldl_enqueue (now : Int) (keys : List Key) (m : KeyMap Key BlobDeletion) (k : Key) :
    ((keys.foldl (enqueue now) m).get? k).isSome = ((m.get? k).isSome || keys.contains k) := by
  induction keys generalizing m with
  | nil => simp
  | cons key keys ih =>
    rw [List.foldl_cons, ih, get?_enqueue, List.contains_cons, Bool.or_assoc]

theorem queued_queueDelete (keys : List Key) (k : Key) :
    (s.queueDelete keys).queued k = (s.queued k || keys.contains k) :=
  isSome_foldl_enqueue s.now keys s.blobDeletions k

theorem queued_unqueue (key k : Key) :
    (s.unqueue key).queued k = (s.queued k && !(k == key)) := by
  show ((s.blobDeletions.removeIf fun j _ => j == key).get? k).isSome = _
  rw [KeyMap.get?_removeIf]
  unfold queued
  cases s.blobDeletions.get? k with
  | none => rfl
  | some => cases k == key <;> simp

theorem mem_objects_eraseObject (key k : Key) :
    k ∈ (s.eraseObject key).objects ↔ k ∈ s.objects ∧ k ≠ key := by
  show k ∈ s.objects.filter (· ≠ key) ↔ _
  simp

end Service

end SocialActivities.Media
