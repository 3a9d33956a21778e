import SocialActivities.Lib.Keyset
import SocialActivities.Social.GoActivity

/-!
# `SocialActivities.Social.Threads`: the posts of a thread and their pages

The rows of `social_post` and the two reads that give a thread page by page: `Posts` of the Go
server, which gives all visible posts, and `thread_page` of the Python services, which gives the
top-level posts with their replies.

Both start at the newest post and go back by a keyset cursor, the id of the last post of a page.
The row of that post gives the bound for the next page, whether it is still visible or not. The Go
query orders by `(created_at, id)`. The Python query orders by `created_at` alone, so posts of one
time come in an order that the database chooses for each query (`Ties`).
-/

namespace SocialActivities.Social

open Lib
open Lib.Keyset (Arranged)

/-- A row of `social_post`. Times are in microseconds. -/
structure Post where
  thread : Nat
  author : Nat
  createdAt : Nat
  isAnnouncement : Bool
  isHidden : Bool
  isAuthorDeleted : Bool
  replyTo : Option Nat
  deriving DecidableEq

/-- The table of posts. The ids come from a sequence. -/
structure Posts where
  rows : KeyMap Nat Post
  nextId : Nat
  started : 0 < nextId
  sequence : ∀ id post, rows.get? id = some post → 0 < id ∧ id < nextId

/-- A row with its id. -/
abbrev PostRow := Nat × Post

/-- `(created_at, id)`. -/
def postStamp (r : PostRow) : Nat ×ₗ Nat := toLex (r.2.createdAt, r.1)

/-- `created_at`. -/
def postTime (r : PostRow) : Nat := r.2.createdAt

/-- The row of a post of the thread that a cursor names. -/
def anchor (posts : Posts) (thread : Nat) (cursor : Int) : Option PostRow :=
  if cursor ≤ 0 then none
  else ((posts.rows.get? cursor.toNat).filter fun post => post.thread == thread).map fun post =>
    (cursor.toNat, post)

/-- The bound that a cursor stands for. -/
def anchorBound (posts : Posts) (thread : Nat) (cursor : Int) : Option (Nat ×ₗ Nat) :=
  (anchor posts thread cursor).map postStamp

theorem anchorBound_of_get? {posts : Posts} {thread id : Nat} {post : Post}
    (hget : posts.rows.get? id = some post) (hthread : post.thread = thread) :
    anchorBound posts thread id = some (postStamp (id, post)) := by
  have hpos := (posts.sequence id post hget).1
  simp only [anchorBound, anchor]
  rw [if_neg (by omega), Int.toNat_natCast, hget, Option.filter_some,
    if_pos (by rw [hthread]; exact beq_self_eq_true thread)]
  rfl

theorem nodup_postStamp {rows : List PostRow} (h : (rows.map Prod.fst).Nodup) :
    (rows.map postStamp).Nodup := by
  refine List.Nodup.of_map (fun s => (ofLex s).2) ?_
  rw [List.map_map]
  exact h

/-! ### Go -/

namespace Go

/-- The posts of the thread that are not hidden. -/
def visiblePosts (posts : Posts) (thread : Nat) : List PostRow :=
  posts.rows.entries.filter fun r => r.2.thread == thread && !r.2.isHidden

/-- `ORDER BY po.created_at DESC,po.id DESC`. -/
def newestPosts (rows : List PostRow) : List PostRow :=
  rows.insertionSort fun r r' => postStamp r' ≤ postStamp r

/-- The posts of a page, the oldest first, and the cursor of the next one. -/
structure PostsPage where
  results : List PostRow
  nextCursor : Option Nat
  deriving DecidableEq

/-- `ThreadPostLimit`, which the configuration keeps positive. -/
abbrev ThreadPostLimit := { n : Nat // 1 ≤ n }

/-- The limit of a page. -/
def postLimit (threadPostLimit : ThreadPostLimit) (limit : Int) : Nat :=
  if limit < 1 then threadPostLimit.val
  else if (threadPostLimit.val : Int) < limit then threadPostLimit.val
  else limit.toNat

/-- `Posts`. `access` is the thread, or the error of `threadOwner` or `threadGate`. -/
def posts (threadPostLimit : ThreadPostLimit) (access : Except Error Nat) (table : Posts)
    (before limit : Int) : Except Error PostsPage := do
  let thread ← access
  let limit := postLimit threadPostLimit limit
  -- A cursor that names no post of the thread gives the newest page. A hidden post is an anchor.
  let rows := (newestPosts ((visiblePosts table thread).filter fun r =>
    (anchor table thread before).all fun a => decide (postStamp r < postStamp a))).take (limit + 1)
  if limit < rows.length then
    let rows := rows.take limit
    pure ⟨rows.reverse, rows.getLast?.map Prod.fst⟩
  else pure ⟨rows.reverse, none⟩

end Go

/-! ### Python -/

namespace Py

/-- How the database orders the rows of one query by `created_at`, the newest first or the oldest
first. -/
structure Ties where
  descending : List PostRow → List PostRow
  ascending : List PostRow → List PostRow
  descending_arranged : ∀ rows, Arranged postTime rows (descending rows)
  ascending_arranged : ∀ rows, (ascending rows).Perm rows ∧
    (ascending rows).Pairwise fun r r' => postTime r ≤ postTime r'

/-- The top-level posts of the thread. -/
def topPosts (posts : Posts) (thread : Nat) : List PostRow :=
  posts.rows.entries.filter fun r =>
    r.2.thread == thread && !r.2.isHidden && !r.2.isAnnouncement && r.2.replyTo.isNone

/-- The replies of a post, as `replies_qs` reads them: whatever thread they are in. -/
def repliesOf (posts : Posts) (parent : Nat) : List PostRow :=
  posts.rows.entries.filter fun r => !r.2.isHidden && r.2.replyTo == some parent

/-- The window of a page, the oldest post first, each with its replies; `has_older` and the
cursor. -/
structure ThreadPage where
  window : List (PostRow × List PostRow)
  hasOlder : Bool
  olderCursor : Option Nat

/-- `SOCIAL_THREAD_POST_LIMIT`. -/
abbrev ThreadPostLimit := { n : Nat // 1 ≤ n }

/-- `limit or SOCIAL_THREAD_POST_LIMIT`. -/
def pageLimit (default : ThreadPostLimit) (limit : Option Nat) : Nat :=
  match limit with
  | some n => if n = 0 then default.val else n
  | none => default.val

/-- `thread_page`; `none` for `before` is a cursor that is empty or no number. -/
def threadPage (default : ThreadPostLimit) (ties : Ties) (posts : Posts) (thread : Nat)
    (before : Option Int) (limit : Option Nat) : ThreadPage :=
  let limit := pageLimit default limit
  let top := (topPosts posts thread).filter fun r =>
    (before.bind (anchor posts thread)).all fun a =>
      decide (r.2.createdAt < a.2.createdAt)
        || (r.2.createdAt == a.2.createdAt && decide (r.1 < a.1))
  let window := (ties.descending top).take (limit + 1)
  let hasOlder := decide (limit < window.length)
  let window := window.take limit
  { window := window.reverse.map fun r => (r, ties.ascending (repliesOf posts r.1))
    hasOlder
    olderCursor := if hasOlder then window.getLast?.map Prod.fst else none }

end Py

end SocialActivities.Social
