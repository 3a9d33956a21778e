import Mathlib.Algebra.Group.Int.Defs
import SocialActivities.Lib.Ranked
import SocialActivities.Media.Rows

/-!
# `SocialActivities.Media.Lifecycle`: deletion, purge and drain (Go)

`DeleteAttachment` and every other `DELETE` of a media row queue the keys of the row, the second by the
trigger. `PurgeExpiredAttachments` reads the expired rows page by page, each with its hold flag, and
purges those that are not held, each in a transaction that checks again. `DrainBlobDeletions` takes
a key that is due from the queue, deletes its object, and removes the entry or puts it off.
-/

namespace SocialActivities.Media

open Lib

/-- The keys of rows that are deleted. -/
def keysOf {κ ρ : Type} (keys : ρ → List Key) (entries : List (κ × ρ)) : List Key :=
  entries.flatMap fun e => keys e.2

def purgeScanFactor : Nat := 200

/-- The row has expired, and is neither purged, blocked nor in processing. -/
def purgeable (now : Int) (r : Attachment) : Bool :=
  r.purgedAt.isNone && r.expiresAt.any (fun t => decide (t ≤ now)) && r.status != .blocked &&
    r.status != .processing

/-- `ORDER BY expires_at, id`, of rows that expire. -/
def expiryOrder (e : Nat × Attachment) : Int ×ₗ Nat := toLex (e.2.expiresAt.getD 0, e.1)

/-- The rows after a position. Before the first page there is none (`afterID` is 0). -/
def afterCursor (cursor : Option (Int × Nat)) (e : Nat × Attachment) : Bool :=
  cursor.all fun c => decide (toLex c < expiryOrder e)

/-- The delay after a failed deletion, in seconds. -/
def drainDelay (attempts : Nat) : Int := min (24 * 3600) (2 ^ min attempts 8 * 60)

namespace Service

variable (s : Service)

/-! ### Deletion -/

/-- `DELETE FROM media_attachment`, with the trigger. -/
def deleteAttachments (gone : Nat → Bool) : Service :=
  { s.queueDelete (keysOf Attachment.keys (s.attachments.entries.filter fun e => gone e.1)) with
    attachments := s.attachments.removeIf fun id _ => gone id }

/-- `DELETE` of photos or covers, with the trigger. -/
def deletePictures (gone : Slot → Bool) : Service :=
  { s.queueDelete (keysOf Picture.keys (s.pictures.entries.filter fun e => gone e.1)) with
    pictures := s.pictures.removeIf fun slot _ => gone slot }

/-- `DeleteAttachment`, by its uploader or staff. -/
def deleteAttachment (actor : Nat) (staff : Bool) (id : Nat) : Option Service :=
  match s.attachments.get? id with
  | none => none
  | some r =>
    if actor != r.uploader && !staff then none
    else some (s.deleteAttachments fun j => j == id)

/-! ### Purge -/

/-- The rows that the page query may return. -/
def expiredRows (cursor : Option (Int × Nat)) : List (Nat × Attachment) :=
  s.attachments.entries.filter fun e => purgeable s.now e.2 && afterCursor cursor e

def expiredAttachmentPage (cursor : Option (Int × Nat)) (n : Nat) : List Candidate :=
  (firstBy expiryOrder n (s.expiredRows cursor)).map fun e =>
    ⟨e.1, e.2.expiresAt.getD 0, s.attachmentHeld e.2⟩

/-- The transaction for one candidate, and whether it purged the row. -/
def purgeAttachment (id : Nat) : Service × Bool :=
  match s.attachments.get? id with
  | none => (s, false)
  | some r =>
    if purgeable s.now r && !s.attachmentHeld r then
      ((s.queueDelete r.keys).setAttachment id { r.clearKeys with purgedAt := some s.now }, true)
    else (s, false)

/-- The head of the loop of `PurgeExpiredAttachments`: the next page, or the end. -/
def purgePage (j : Nat) (w : Purge) (ok : Bool) : Service :=
  if w.purged < w.limit && w.scanned < w.limit * purgeScanFactor && ok then
    match s.expiredAttachmentPage w.cursor
        (min (w.limit * 4) (w.limit * purgeScanFactor - w.scanned)) with
    | [] => s.setJob j .finished
    | c :: cs => s.setJob j (.purging { w with
        scanned := w.scanned + (c :: cs).length
        cursor := (c :: cs).getLast?.map fun last => (last.expires, last.id)
        page := c :: cs })
  else s.setJob j .finished

/-- One candidate of the page. The context may be cancelled when the transaction has failed. -/
def purgeCandidate (j : Nat) (w : Purge) (c : Candidate) (rest : List Candidate) (answer : Answer)
    (cancelled : Bool) : Service :=
  if c.held then s.setJob j (.purging { w with page := rest })
  else
    match answer with
    | .done =>
      let purged := w.purged + if (s.purgeAttachment c.id).2 then 1 else 0
      (s.purgeAttachment c.id).1.setJob j
        (.purging { w with purged := purged, page := if w.limit ≤ purged then [] else rest })
    | .lost =>
      (s.purgeAttachment c.id).1.setJob j
        (if cancelled then .finished else .purging { w with page := rest })
    | .failed => s.setJob j (if cancelled then .finished else .purging { w with page := rest })

/-! ### Drain -/

/-- A key that the drain may take: due, not locked, and none older is. -/
def isNextBlob (locked : List Key) (key : Key) : Bool :=
  (s.blobDeletions.get? key).any fun b => decide (b.nextAttemptAt ≤ s.now) && !locked.contains key &&
    !s.blobDeletions.anyRow fun k c =>
      decide (c.nextAttemptAt ≤ s.now) && !locked.contains k && decide (c.createdAt < b.createdAt)

/-- The entry under a key, if there is one. -/
def updateBlob (key : Key) (f : BlobDeletion → BlobDeletion) : Service :=
  { s with blobDeletions := s.blobDeletions.mapRows fun k b => if k = key then f b else b }

/-- The transaction that takes a key. -/
def takeBlob (key : Key) : Service :=
  s.updateBlob key fun b => { b with attempts := b.attempts + 1, nextAttemptAt := s.now + 300 }

/-- The first transaction of a round of `DrainBlobDeletions`. -/
def drainRound (j left : Nat) (locked : List Key) (key : Option Key) (answer : Answer) : Service :=
  match left, key with
  | 0, _ => s.setJob j .finished
  | _ + 1, none => s.setJob j .finished
  | left + 1, some key =>
    if s.isNextBlob locked key then
      match answer with
      | .done => (s.takeBlob key).setJob j
          (.deleting key ((s.blobDeletions.get? key).elim 0 BlobDeletion.attempts) left)
      | .lost => (s.takeBlob key).setJob j .finished
      | .failed => s.setJob j .finished
    else s

/-- `storage.Delete` of a drain. -/
def drainDelete (j : Nat) (key : Key) (attempts left : Nat) : Answer → Service
  | .done => (s.eraseObject key).setJob j (.settling key left)
  | .lost => (s.eraseObject key).setJob j (.backingOff key attempts left)
  | .failed => s.setJob j (.backingOff key attempts left)

/-- The removal of the entry. -/
def drainSettle (j : Nat) (key : Key) (left : Nat) : Answer → Service
  | .done => (s.unqueue key).setJob j (.draining left)
  | .lost => (s.unqueue key).setJob j .finished
  | .failed => s.setJob j .finished

/-- The next attempt after a failure. -/
def drainBackOff (j : Nat) (key : Key) (attempts left : Nat) (answer : Answer) : Service :=
  let next := s.updateBlob key fun b => { b with nextAttemptAt := s.now + drainDelay attempts }
  match answer with
  | .done => next.setJob j (.draining left)
  | .lost => next.setJob j .finished
  | .failed => s.setJob j .finished

end Service

end SocialActivities.Media
