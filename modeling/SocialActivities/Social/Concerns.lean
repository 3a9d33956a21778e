import Mathlib.Data.List.Dedup
import SocialActivities.Lib.Calendar
import SocialActivities.Lib.Table
import SocialActivities.Social.Rows

/-!
# `SocialActivities.Social.Concerns`: the daily evaluation of concerns

Members flag a post that does not seem to fit with a concern. Once a day a run looks at the flagged
posts: `evaluate_concerns` of the Python services and `EvaluateConcerns` of the Go server. First it
shields the authors that draw concerns on several posts. Then it visits the posts. A post in an
adult thread with enough concerns gives its author one formative note; a post in a teen thread goes
to the moderators.

Both implementations visit a post by the same rules. They differ in when they load the posts and
count an audience, and in how they step back some days. The coordination sensor, which opens
reviews that no visit reads, and the alerts to moderators are left out.
-/

namespace SocialActivities.Social

open Lib
open Lib.Calendar (Zone dayLength)

/-- The activity or group that owns a thread. -/
structure ThreadOwner where
  group : Bool
  id : Nat
  cohort : Cohort
  hidden : Bool
  deriving DecidableEq

/-- What the runs read of a row of `social_post`. -/
structure ConcernPost where
  author : Nat
  thread : Nat
  updatedAt : Nat
  hidden : Bool
  deriving DecidableEq

/-- A row of `social_postconcernstate`. -/
structure PostConcernState where
  noteSentAt : Option Nat
  noteBarred : Bool
  deriving DecidableEq

/-- `ConcernReview.Kind`. -/
inductive ReviewKind where
  | concernEscalated
  | teenConcern
  | sensorCoordinated
  | sensorPileon
  deriving DecidableEq

/-- `ConcernReview.Status`. -/
inductive ReviewStatus where
  | opened
  | reviewed
  | dismissed
  | escalated
  deriving DecidableEq

/-- A row of `safety_concernreview`. -/
structure ConcernReview where
  kind : ReviewKind
  status : ReviewStatus
  post : Option Nat
  subject : Option Nat
  deriving DecidableEq

/-- A notification of the kind `formative_note`. -/
structure FormativeNote where
  recipient : Nat
  title : String
  body : String
  url : String
  deriving DecidableEq

/-- What a run has done. -/
structure ConcernSummary where
  notes : Nat
  escalated : Nat
  teen : Nat
  pileon : Nat
  failed : Nat
  deriving DecidableEq

inductive ConcernAudit where
  | event (name : String) (post : Nat)
  | evaluated (summary : ConcernSummary)
  deriving DecidableEq

/-- The rows that the runs read and write. Times are in microseconds. -/
structure ConcernDb where
  threads : Nat → ThreadOwner
  posts : Table ConcernPost
  /-- `created_at` by post and user. -/
  concerns : KeyMap (Nat × Nat) Nat
  states : KeyMap Nat PostConcernState
  reviews : Table ConcernReview
  /-- The cohort of an account. -/
  cohort : Nat → Cohort
  /-- The account has muted the kind of the note. -/
  muted : Nat → Bool
  /-- The eligible audience of a thread. -/
  audience : Nat → Nat
  /-- The marker `concerns_daily`. -/
  lastRunAt : Option Nat
  notes : List FormativeNote
  audit : List ConcernAudit

/-- The settings of the ladder. -/
structure ConcernConfig where
  concernK1 : Nat
  concernK2 : Nat
  concernTeenK : Nat
  concernAudienceFloor : Nat
  formativeNoteCooldownDays : Nat

/-- A post as a run has loaded it, with the owner of its thread. -/
structure LoadedPost where
  id : Nat
  row : ConcernPost
  owner : ThreadOwner

/-- A run: its time, what it has found at its start, the authors it has sent a note, the audiences
it has counted, and the posts it has loaded and not visited. -/
structure Sweep where
  now : Nat
  protectedAuthors : List Nat
  downweighted : List Nat
  noted : List Nat
  audiences : List (Nat × Nat)
  posts : List LoadedPost
  /-- The post that was visited last. -/
  after : Nat
  summary : ConcernSummary

/-- An attempt to give a note, which a mute keeps from being delivered. -/
structure Attempt where
  post : Nat
  author : Nat
  time : Nat
  delivered : Bool
  deriving DecidableEq

/-- What a visit of a post leaves, and its attempt. -/
structure Visit where
  db : ConcernDb
  sweep : Sweep
  attempt : Option Attempt

/-! ### The sensors at the start of a run -/

/-- `_claim_daily` and `claimDaily`: a day has passed since the last run. -/
def ConcernDb.claimable (db : ConcernDb) (now : Nat) : Bool :=
  db.lastRunAt.all fun last => decide (last + dayLength ≤ now)

/-- The concerns since a time, by post, user and author. -/
def ConcernDb.concernsSince (db : ConcernDb) (start : Nat) : List (Nat × Nat × Nat) :=
  (db.concerns.entries.filter fun e => decide (start ≤ e.2)).filterMap fun e =>
    (db.posts.get? e.1.1).map fun row => (e.1.1, e.1.2, row.author)

/-- The users with concerns about five authors or more. -/
def ConcernDb.downweightedFlaggers (db : ConcernDb) (start : Nat) : List Nat :=
  let rows := db.concernsSince start
  (rows.map fun r => r.2.1).dedup.filter fun user =>
    decide (5 ≤ ((rows.filter fun r => r.2.1 == user).map fun r => r.2.2).dedup.length)

/-- The authors with concerns about three posts or more. -/
def ConcernDb.piledOn (db : ConcernDb) (start : Nat) : List Nat :=
  let rows := db.concernsSince start
  (rows.map fun r => r.2.2).dedup.filter fun author =>
    decide (3 ≤ ((rows.filter fun r => r.2.2 == author).map fun r => r.1).dedup.length)

/-- The authors with an open review for a pile-on. -/
def ConcernDb.openPileons (db : ConcernDb) : List Nat :=
  (db.reviews.rows.filter fun e => e.2.kind == .sensorPileon && e.2.status == .opened).filterMap
    fun e => e.2.subject

/-- A review of the kind is open for the same post, or for the same subject if it is for a
pile-on. -/
def ConcernDb.hasOpenReview (db : ConcernDb) (kind : ReviewKind) (post subject : Option Nat) :
    Bool :=
  db.reviews.any fun _ r => r.kind == kind && r.status == .opened &&
    match kind with
    | .sensorPileon => r.subject == subject
    | _ => r.post == post

/-- `_open_review` and `openReview`: the rows, and whether there is a new review. -/
def ConcernDb.openReview (db : ConcernDb) (kind : ReviewKind) (post subject : Option Nat) :
    ConcernDb × Bool :=
  if db.hasOpenReview kind post subject then (db, false)
  else ({ db with reviews := db.reviews.insert ⟨kind, .opened, post, subject⟩ }, true)

/-- The reviews for the authors of a pile-on, and how many of them are new. -/
def shield : List Nat → ConcernDb → ConcernDb × Nat
  | [], db => (db, 0)
  | author :: authors, db =>
    let (db, fresh) := db.openReview .sensorPileon none (some author)
    let (db, created) := shield authors db
    (db, created + if fresh then 1 else 0)

/-- `_sensor_pileon` and `pileon`: the protected authors. -/
def sensorPileon (start : Nat) (db : ConcernDb) : ConcernDb × List Nat × Nat :=
  let piled := db.piledOn start
  let (shielded, created) := shield piled db
  (shielded, db.openPileons ++ piled, created)

/-- The posts with a concern, as they are now, with the owners of their threads. -/
def ConcernDb.loadPosts (db : ConcernDb) : List LoadedPost :=
  (db.posts.rows.filter fun e => db.concerns.entries.any fun c => c.1.1 == e.1).map fun e =>
    ⟨e.1, e.2, db.threads e.2.thread⟩

/-! ### The ladder of an adult thread -/

/-- The state of a post, or that of a new row. -/
def ConcernDb.stateOf (db : ConcernDb) (post : Nat) : PostConcernState :=
  (db.states.get? post).getD ⟨none, false⟩

/-- A post that was edited after its note is barred from another. -/
def barEdited (p : LoadedPost) (state : PostConcernState) : PostConcernState :=
  if state.noteSentAt.any (fun sent => decide (sent < p.row.updatedAt)) && !state.noteBarred then
    { state with noteBarred := true }
  else state

/-- `_recent_formative_note`: the author has had an attempt since a time. -/
def ConcernDb.recentFormativeNote (db : ConcernDb) (author start : Nat) : Bool :=
  db.states.entries.any fun e =>
    (db.posts.get? e.1).any (fun row => row.author == author) &&
      e.2.noteSentAt.any fun sent => decide (start ≤ sent)

/-- The members who count: their concern is later than the last edit, and they are not
discounted. -/
def ConcernDb.flaggers (db : ConcernDb) (p : LoadedPost) (downweighted : List Nat) : Nat :=
  (db.concerns.keysWhere fun k createdAt =>
    k.1 == p.id && decide (p.row.updatedAt < createdAt) && !downweighted.contains k.2).length

/-- The audience of a thread is counted, once in a run. -/
def Sweep.countAudience (w : Sweep) (db : ConcernDb) (thread : Nat) : Sweep :=
  match w.audiences.lookup thread with
  | some _ => w
  | none => { w with audiences := (thread, db.audience thread) :: w.audiences }

/-- The condition for a note. -/
def noteDue (config : ConcernConfig) (start : Nat) (p : LoadedPost) (count : Nat) (w : Sweep)
    (db : ConcernDb) : Bool :=
  let state := barEdited p (db.stateOf p.id)
  -- Who got a note earlier in this run is in `noted`, and in the cooldown too.
  decide (config.concernK1 ≤ count) &&
    decide (config.concernAudienceFloor ≤ (w.audiences.lookup p.row.thread).getD 0) &&
    state.noteSentAt.isNone && !state.noteBarred && !w.protectedAuthors.contains p.row.author &&
    !w.noted.contains p.row.author && !db.recentFormativeNote p.row.author start

def formativeNoteTitle : String := "A quiet note about one of your posts"

def formativeNoteBody : String :=
  "A few members felt one of your recent posts didn't quite fit the spirit of this group. " ++
    "No one has reported anything, nothing is hidden, and no names or numbers are attached — " ++
    "this is just a friendly heads-up so you can take another look if you'd like. If you edit " ++
    "the post, this note won't come back for it. You're a valued part of this group; this is " ++
    "about one post, not about you."

def ThreadOwner.url (owner : ThreadOwner) : String :=
  if owner.group then "/groups/" ++ toString owner.id ++ "/"
  else "/activities/" ++ toString owner.id ++ "/"

/-- The attempt is stamped on the post whether the note is delivered or not. -/
def giveNote (now : Nat) (p : LoadedPost) (db : ConcernDb) : ConcernDb :=
  let author := p.row.author
  { db with
    notes :=
      -- `notify` refuses a muted kind.
      if db.muted author then db.notes
      else db.notes ++ [⟨author, formativeNoteTitle, formativeNoteBody, p.owner.url⟩]
    states :=
      db.states.set p.id { barEdited p (db.stateOf p.id) with noteSentAt := some now }
    audit := db.audit ++ [.event (if db.muted author then "concern.formative_note_muted"
      else "concern.formative_note_sent") p.id] }

/-- The ladder, when the audience has been counted. -/
def ladder (config : ConcernConfig) (start : Nat) (p : LoadedPost) (count : Nat) (w : Sweep)
    (db : ConcernDb) : Visit :=
  if noteDue config start p count w db then
    let delivered := !db.muted p.row.author
    { db := giveNote w.now p db
      sweep :=
        { w with
          noted := p.row.author :: w.noted
          summary :=
            { w.summary with notes := w.summary.notes + if delivered then 1 else 0 } }
      attempt := some ⟨p.id, p.row.author, w.now, delivered⟩ }
  else
    { db := { db with states := db.states.set p.id (barEdited p (db.stateOf p.id)) }
      sweep := w
      attempt := none }

/-- `_adult_escalation`: enough concerns, or a barred post that reaches the first number again. -/
def Visit.escalate (config : ConcernConfig) (p : LoadedPost) (count : Nat) (v : Visit) : Visit :=
  let recross := (v.db.stateOf p.id).noteBarred && decide (config.concernK1 ≤ count)
  if decide (config.concernK2 ≤ count) || recross then
    let (db, created) := v.db.openReview .concernEscalated (some p.id) (some p.row.author)
    { v with
      db := db
      sweep :=
        { v.sweep with
          summary :=
            { v.sweep.summary with
              escalated := v.sweep.summary.escalated + if created then 1 else 0 } } }
  else v

/-- A post in a teen thread. -/
def teenConcern (config : ConcernConfig) (p : LoadedPost) (count : Nat) (w : Sweep)
    (db : ConcernDb) : Visit :=
  if config.concernTeenK ≤ count then
    let (db, created) := db.openReview .teenConcern (some p.id) (some p.row.author)
    { db := db
      sweep :=
        { w with summary := { w.summary with teen := w.summary.teen + if created then 1 else 0 } }
      attempt := none }
  else ⟨db, w, none⟩

/-! ### The two implementations -/

namespace Py

/-- `now - timedelta(days=days)`. -/
def daysBefore (days now : Nat) : Nat := now - days * dayLength

/-- The start of `evaluate_concerns`. -/
def begin (config : ConcernConfig) (now : Nat) (db : ConcernDb) : ConcernDb × Sweep :=
  let downweighted := db.downweightedFlaggers (daysBefore config.formativeNoteCooldownDays now)
  let (db, protectedAuthors, pileon) := sensorPileon (daysBefore 7 now) db
  (db, ⟨now, protectedAuthors, downweighted, [], [], db.loadPosts, 0, ⟨0, 0, 0, pileon, 0⟩⟩)

/-- The posts are loaded once. -/
def refill (_ : Sweep) (_ : ConcernDb) : Option Sweep := none

/-- `_adult_ladder` counts an audience when there are enough concerns. -/
def adultLadder (config : ConcernConfig) (p : LoadedPost) (count : Nat) (w : Sweep)
    (db : ConcernDb) : Visit :=
  ladder config (daysBefore config.formativeNoteCooldownDays w.now) p count
    (if config.concernK1 ≤ count then w.countAudience db p.row.thread else w) db

/-- The body of the loop over the posts. -/
def evaluatePost (config : ConcernConfig) (p : LoadedPost) (w : Sweep) (db : ConcernDb) : Visit :=
  -- The post and its owner are as they were loaded, the concerns as they are now.
  if p.row.hidden then ⟨db, w, none⟩
  else if p.owner.hidden then ⟨db, w, none⟩
  else
    let count := db.flaggers p w.downweighted
    match p.owner.cohort with
    -- Concerns in a child's thread are only logged.
    | .child => ⟨db, w, none⟩
    | .teen => teenConcern config p count w db
    | .adult => (adultLadder config p count w db).escalate config p count
    | .unassigned => ⟨db, w, none⟩

def editPost (post now : Nat) (db : ConcernDb) : ConcernDb :=
  { db with posts := db.posts.modify post fun row => { row with updatedAt := now } }

end Py

namespace Go

/-- `now.AddDate(0, 0, -days)` by the clock of the server. -/
def addDate (z : Zone) (days now : Nat) : Nat := z.shift (fun wall => wall - days * dayLength) now

/-- The start of `EvaluateConcerns`. -/
def begin (z : Zone) (config : ConcernConfig) (now : Nat) (db : ConcernDb) : ConcernDb × Sweep :=
  let (db, protectedAuthors, pileon) := sensorPileon (addDate z 7 now) db
  let downweighted := db.downweightedFlaggers (addDate z config.formativeNoteCooldownDays now)
  -- The first batch is loaded by `refill`.
  (db, ⟨now, protectedAuthors, downweighted, [], [], [], 0, ⟨0, 0, 0, pileon, 0⟩⟩)

/-- `postBatch`: the next posts that are not hidden. The audiences are counted for each batch. -/
def refill (w : Sweep) (db : ConcernDb) : Option Sweep :=
  match (db.loadPosts.filter fun p => decide (w.after < p.id) && !p.row.hidden).take 1000 with
  | [] => none
  | posts => some { w with posts := posts, audiences := [] }

/-- `adultLadder`, with the audience of every adult post counted before. -/
def adultLadder (z : Zone) (config : ConcernConfig) (p : LoadedPost) (count : Nat) (w : Sweep)
    (db : ConcernDb) : Visit :=
  ladder config (addDate z config.formativeNoteCooldownDays w.now) p count
    (w.countAudience db p.row.thread) db

/-- The body of the loop over a batch. -/
def evaluatePost (z : Zone) (config : ConcernConfig) (p : LoadedPost) (w : Sweep)
    (db : ConcernDb) : Visit :=
  if p.owner.hidden || p.owner.cohort == .child ||
      (p.owner.cohort != .adult && p.owner.cohort != .teen) then ⟨db, w, none⟩
  else
    let count := db.flaggers p w.downweighted
    if p.owner.cohort == .teen then teenConcern config p count w db
    else (adultLadder z config p count w db).escalate config p count

/-- `EditPost` bars the post at once. -/
def editPost (post now : Nat) (db : ConcernDb) : ConcernDb :=
  { db with
    posts := db.posts.modify post fun row => { row with updatedAt := now }
    states :=
      match db.states.get? post with
      | none => db.states
      | some state =>
        if state.noteSentAt.isSome then db.states.set post { state with noteBarred := true }
        else db.states }

end Go

end SocialActivities.Social
