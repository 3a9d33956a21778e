import SocialActivities.Media.Rows

/-!
# `SocialActivities.Media.Uploads`: the transactions that name objects (Go)

`claim` is the first transaction of a round of `ProcessPendingVideos`: it takes the oldest video that
waits, or whose lease is stale. `finishVideo` and `failClaim` are the two ends of `processClaim`. They
write the row only while it is under the lease of the claim.

`publish` is the transaction that names the objects of a job: the insert of an attachment or a
thread photo, the upsert of a profile photo or a cover, or the end of a video. Its errors are the
causes that `failClaim` tells apart. What it reads of other domains is in `Gate`: whether the caller
may write there, and the cohort of the thread.
-/

namespace SocialActivities.Media

open Lib

/-- What a publishing transaction reads of other domains. -/
structure Gate where
  /-- `CanWriteThread`, `manageCover`, `managePlace` or the limits of profile photos. -/
  allowed : Bool
  /-- The cohort of the activity or the group of the thread. -/
  cohort : Cohort
  deriving DecidableEq

/-- The mode check of the publishing transaction. `AttachToPost` has checked the mode before, and asks
for the cohort only. -/
def PolicyConfig.uploadAllowed (p : PolicyConfig) (prepared : Bool) (kind : Kind) (cohort : Cohort) :
    Bool :=
  if prepared then p.attachmentModeAllowed kind cohort else kind == .image || cohort == .adult

/-! ### Videos -/

/-- A video that a worker may claim. -/
def claimable (p : PolicyConfig) (now : Int) (r : Attachment) : Bool :=
  r.kind == .video && r.purgedAt.isNone && r.sourceKey.isSome &&
    (r.status == .pending ||
      (r.status == .processing && r.startedAt.any (fun t => decide (t < now - p.videoStaleProcessing)) &&
        decide (r.attempts < p.videoMaxAttempts)))

/-- `ORDER BY created_at, id`. -/
def videoOrder (id : Nat) (r : Attachment) : Int ×ₗ Nat := toLex (r.createdAt, id)

namespace Service

variable (p : PolicyConfig) (s : Service)

/-- The oldest video that can be claimed and is not locked. -/
def nextVideo (locked : List Nat) : Option Nat :=
  s.attachments.top? (fun id r => OrderDual.toDual (videoOrder id r)) fun id r =>
    claimable p s.now r && !locked.contains id

/-- A terminal failure: the keys are queued, and the row is kept without them. -/
def failRow (id : Nat) (r : Attachment) : Service :=
  (s.queueDelete r.keys).setAttachment id { r.clearKeys with status := .failed, startedAt := none }

/-- The row under a new claim. -/
def leaseOf (id : Nat) (r : Attachment) : Lease :=
  ⟨id, { r with status := .processing, attempts := r.attempts + 1, startedAt := some s.now }⟩

/-- The claiming transaction: the state after it, and the claim. There is none if the row had no
attempts left. -/
def claim (locked : List Nat) : Option (Service × Option Lease) :=
  match s.nextVideo p locked with
  | none => none
  | some id =>
    match s.attachments.get? id with
    | none => none
    | some r =>
      if p.videoMaxAttempts ≤ r.attempts then
        -- `ErrProcessing` for a stale lease.
        if r.status = .processing then none else some (s.failRow id r, none)
      else some (s.setAttachment id (s.leaseOf id r).att, some (s.leaseOf id r))

/-- The row is under the lease of the claim. -/
def holds (lease : Lease) : Bool :=
  (s.attachments.get? lease.id).any fun r =>
    r.status == .processing && r.startedAt.isSome && r.startedAt == lease.att.startedAt

/-- `postUploadGate`: the post, and whether its author may write there. -/
def postUploadGate (g : Gate) (actor post : Nat) : Except Cause Unit :=
  match s.board.posts.get? post with
  | none => .error .other
  | some x => if x.author != actor || x.isHidden || !g.allowed then .error .forbidden else .ok ()

/-- The publishing transaction of `processClaim`. -/
def finishVideo (g : Gate) (keys : List Key) (lease : Lease) : Except Cause Service :=
  match s.attachments.get? lease.id with
  | none => .error .other
  | some r =>
    if r.status != .processing || r.sourceKey != lease.att.sourceKey || r.startedAt.isNone ||
        r.startedAt != lease.att.startedAt || r.purgedAt.isSome then
      .error .forbidden
    else
      match s.postUploadGate g lease.att.uploader lease.att.post with
      | .error cause => .error cause
      | .ok () =>
        if g.cohort != .adult || r.expiresAt.any (fun t => decide (t ≤ s.now)) then
          .error .forbidden
        else
          .ok ((s.setAttachment lease.id { r with
            status := .ready, storageKey := keys[0]?, posterKey := keys[1]?, sourceKey := none,
            startedAt := none }).queueDelete lease.att.sourceKey.toList)

/-- The transaction of `failClaim`. -/
def failClaim (lease : Lease) (cause : Cause) : Option Service :=
  match s.attachments.get? lease.id with
  | none => none
  | some r =>
    if r.status != .processing || r.startedAt.isNone || r.startedAt != lease.att.startedAt then some s
    else
      match cause with
      | .scanner => some (s.setAttachment lease.id
          { r with status := .pending, attempts := r.attempts - 1, startedAt := none })
      | .blocked => some (s.setAttachment lease.id { r with status := .blocked, startedAt := none })
      | cause =>
        if p.videoMaxAttempts ≤ r.attempts || cause == .rejected || cause == .forbidden then
          some (s.failRow lease.id r)
        else some s

/-! ### The row that names the objects -/

/-- The upsert of a photo or a cover, which queues the keys of the row that it replaces. -/
def replacePicture (slot : Slot) (keys : List Key) : Service :=
  ({ s with pictures := s.pictures.set slot ⟨keys[0]?, keys[1]?⟩ }).queueDelete
    ((s.pictures.get? slot).elim [] Picture.keys)

/-- The row that `PreparedAttachment.Publish` inserts. -/
def newAttachment (post uploader : Nat) (kind : Kind) (expires : Option Int) (keys : List Key) :
    Attachment where
  post := post
  uploader := uploader
  kind := kind
  status := if kind = .video then .pending else .ready
  storageKey := if kind = .video then none else keys[0]?
  thumbKey := keys[1]?
  posterKey := none
  sourceKey := if kind = .video then keys[0]? else none
  attempts := 0
  startedAt := none
  expiresAt := expires
  purgedAt := none
  createdAt := s.now

/-- The publishing transaction of a job. -/
def publish (g : Gate) (keys : List Key) : Upload → Except Cause Service
  | .threadPhoto =>
    if g.allowed then
      .ok { s.replacePicture (.threadPhoto s.nextId) keys with nextId := s.nextId + 1 }
    else .error .forbidden
  | .profilePhoto uploader =>
    if g.allowed then .ok (s.replacePicture (.profilePhoto uploader) keys) else .error .forbidden
  | .activityCover activity =>
    if g.allowed then .ok (s.replacePicture (.activityCover activity) keys) else .error .forbidden
  | .placeCover place =>
    if g.allowed then .ok (s.replacePicture (.placeCover place) keys) else .error .forbidden
  | .licensedCover place =>
    -- A cover that is there stays: the transaction commits without `created`.
    if g.allowed && (s.pictures.get? (.placeCover place)).isNone then
      .ok (s.replacePicture (.placeCover place) keys)
    else .error .other
  | .attachment post uploader kind ttl prepared =>
    match s.postUploadGate g uploader post with
    | .error cause => .error cause
    | .ok () =>
      if p.uploadAllowed prepared kind g.cohort then
        .ok { s.setAttachment s.nextId
            (s.newAttachment post uploader kind (p.expiry s.now g.cohort ttl) keys) with
          nextId := s.nextId + 1 }
      else .error .forbidden
  | .video lease => s.finishVideo g keys lease

end Service

end SocialActivities.Media
