import SocialActivities.Social.PyActivity
import SocialActivities.Social.Threads

/-!
# `SocialActivities.Social.Replies`: the reply tree of a thread

A reply is checked against the post that it answers, and stored under the top-level ancestor of
that post. So the tree is one level deep (`Tree`), which every operation of both services keeps:
posts, edits, deletions, moderation and the erasure of accounts.

The post that is checked and the one that is stored are two rows, and one may be hidden while the
other is not. The Go server looks at the ancestor again; the Python service does not. `replyTree_iff`
says that every reply hangs off a visible top-level post exactly if no reply by the Python service
answers a visible reply of a hidden post. `reply_under_hidden` is one that does.
-/

namespace SocialActivities.Social

open Lib
open Lib.Machine (run steps)

/-! ### Writes to the table -/

namespace Posts

/-- No posts. -/
def empty : Posts := ⟨KeyMap.empty, 1, Nat.one_pos, fun id post h => by cases h⟩

/-- `INSERT INTO social_post`, with the next id of the sequence. -/
def insert (posts : Posts) (post : Post) : Posts where
  rows := posts.rows.set posts.nextId post
  nextId := posts.nextId + 1
  started := Nat.succ_pos _
  sequence id row h := by
    rw [KeyMap.get?_set] at h
    have hstarted := posts.started
    split at h
    · omega
    · have hold := posts.sequence id row h
      omega

/-- `UPDATE social_post` on the rows, as `f` says. -/
def update (posts : Posts) (f : Nat → Post → Post) : Posts where
  rows := posts.rows.mapRows f
  nextId := posts.nextId
  started := posts.started
  sequence id row h := by
    rw [KeyMap.get?_mapRows] at h
    obtain ⟨old, hold, -⟩ := Option.map_eq_some_iff.mp h
    exact posts.sequence id old hold

/-- The deletion of some rows. `reply_to` of their replies is set to null. -/
def delete (posts : Posts) (gone : Nat → Post → Bool) : Posts where
  rows := (posts.rows.removeIf gone).mapRows fun _ post =>
    { post with replyTo := post.replyTo.filter fun parent =>
        ((posts.rows.removeIf gone).get? parent).isSome }
  nextId := posts.nextId
  started := posts.started
  sequence id row h := by
    rw [KeyMap.get?_mapRows] at h
    obtain ⟨old, hold, -⟩ := Option.map_eq_some_iff.mp h
    exact posts.sequence id old (KeyMap.get?_of_removeIf hold)

end Posts

/-! ### The operations -/

/-- A post that may be answered in the thread. -/
def Post.answerable (thread : Nat) (post : Post) : Bool :=
  post.thread == thread && !post.isHidden && !post.isAnnouncement

/-- What a reply names: the id of a post. Zero is an id that is no number or not positive. -/
abbrev ReplyTarget := Option Nat

namespace Py

/-- `_validate_reply_to`. The ancestor that it returns is not looked at. -/
def validateReplyTo (posts : Posts) (thread : Nat) : ReplyTarget → Except Error (Option Nat)
  | none => .ok none
  | some target =>
    match posts.rows.get? target with
    | none => .error .invalidState
    | some parent => do
      need Error.invalidState (parent.answerable thread)
      pure (some (parent.replyTo.getD target))

/-- `post_to_thread`. `allowed` stands for the other checks of the call. -/
def postToThread (posts : Posts) (now author thread : Nat) (replyTo : ReplyTarget) (allowed : Bool) :
    Except Error Posts := do
  need Error.invalidState allowed
  let parent ← validateReplyTo posts thread replyTo
  pure (posts.insert ⟨thread, author, now, false, false, false, parent⟩)

/-- `post_announcement`, which answers nothing. -/
def postAnnouncement (posts : Posts) (now author thread : Nat) (allowed : Bool) :
    Except Error Posts := do
  need Error.invalidState allowed
  pure (posts.insert ⟨thread, author, now, true, false, false, none⟩)

/-- The row after `delete_own_post`. `contested` says that the author contests the decision that
hides the post. -/
def deleteOwnPost (author : Nat) (contested : Bool) (post : Post) : Except Error Post := do
  need Error.notEligible (post.author == author)
  if post.isHidden then
    if post.isAuthorDeleted then pure post
    else do
      need Error.notEligible (!contested)
      pure { post with isAuthorDeleted := true }
  else pure { post with isHidden := true, isAuthorDeleted := true }

end Py

namespace Go

/-- The parent of a reply in `writePost`. The ancestor is looked at again. -/
def replyParent (posts : Posts) (thread : Nat) : ReplyTarget → Except Error (Option Nat)
  | none => .ok none
  | some target => do
    let row ← (posts.rows.get? target).elim (.error .errNoRows) .ok
    need Error.errInvalid (row.answerable thread)
    let parent := row.replyTo.getD target
    let ancestor ← (posts.rows.get? parent).elim (.error .errNoRows) .ok
    need Error.errInvalid (ancestor.answerable thread)
    pure (some parent)

/-- `writePost`. An announcement may name a post too. `allowed` stands for the other checks. -/
def writePost (posts : Posts) (now author thread : Nat) (replyTo : ReplyTarget)
    (announcement allowed : Bool) : Except Error Posts := do
  need Error.errInvalid allowed
  let parent ← replyParent posts thread replyTo
  pure (posts.insert ⟨thread, author, now, announcement, false, false, parent⟩)

/-- The row after `DeletePost`. -/
def deletePost (author : Nat) (contested : Bool) (post : Post) : Except Error Post := do
  need Error.errForbidden (post.author == author)
  if post.isAuthorDeleted then pure post
  else do
    need Error.errForbidden (!(post.isHidden && contested))
    pure { post with isHidden := true, isAuthorDeleted := true }

end Go

/-- One call of either service on the posts, or the erasure of an account: the posts of the user go,
and with the threads that the user owned all posts in them. An edit writes the text alone. -/
inductive ThreadOp where
  | goPost (author thread : Nat) (replyTo : ReplyTarget) (announcement allowed : Bool)
  | pyPost (author thread : Nat) (replyTo : ReplyTarget) (allowed : Bool)
  | pyAnnouncement (author thread : Nat) (allowed : Bool)
  | edit (id : Nat)
  | goDelete (author id : Nat) (contested : Bool)
  | pyDelete (author id : Nat) (contested : Bool)
  | hide (id : Nat)
  | unhide (id : Nat)
  | erase (author : Nat) (threads : List Nat)

/-- A post that its author has deleted stays hidden. -/
def Post.unhidden (post : Post) : Post :=
  if post.isAuthorDeleted then post else { post with isHidden := false }

/-- The table with the row of one post changed, if the change succeeds. -/
def Posts.change {ε : Type} (posts : Posts) (id : Nat) (f : Post → Except ε Post) : Posts :=
  posts.update fun k post =>
    if k = id then
      match f post with
      | .ok changed => changed
      | .error _ => post
    else post

/-- The table after a call; one that fails leaves it as it is. -/
def Posts.commit {ε : Type} (posts : Posts) : Except ε Posts → Posts
  | .ok posts' => posts'
  | .error _ => posts

/-- One step, at a time. -/
def threadStep (posts : Posts) : Nat × ThreadOp → Posts
  | (now, .goPost author thread replyTo announcement allowed) =>
    posts.commit (Go.writePost posts now author thread replyTo announcement allowed)
  | (now, .pyPost author thread replyTo allowed) =>
    posts.commit (Py.postToThread posts now author thread replyTo allowed)
  | (now, .pyAnnouncement author thread allowed) =>
    posts.commit (Py.postAnnouncement posts now author thread allowed)
  | (_, .edit _) => posts
  | (_, .goDelete author id contested) => posts.change id (Go.deletePost author contested)
  | (_, .pyDelete author id contested) => posts.change id (Py.deleteOwnPost author contested)
  | (_, .hide id) =>
    posts.update fun k post => if k = id then { post with isHidden := true } else post
  | (_, .unhide id) => posts.update fun k post => if k = id then post.unhidden else post
  | (_, .erase author threads) =>
    posts.delete fun _ post => post.author == author || threads.contains post.thread

/-! ### The tree -/

/-- The parent of every reply is a top-level post of the same thread and no announcement. -/
def Tree (posts : Posts) : Prop :=
  ∀ id post parent, posts.rows.get? id = some post → post.replyTo = some parent →
    ∃ row, posts.rows.get? parent = some row ∧ row.replyTo = none ∧ row.thread = post.thread ∧
      row.isAnnouncement = false

/-- The post that an operation answers. -/
def ThreadOp.target : ThreadOp → ReplyTarget
  | .goPost _ _ replyTo _ _ => replyTo
  | .pyPost _ _ replyTo _ => replyTo
  | _ => none

/-- A reply that the step stores hangs off the post that it answers, or off the top-level ancestor
of that post, and this is a visible top-level post of the thread and no announcement. -/
def Attached (posts : Posts) (p : Nat × ThreadOp) : Prop :=
  ∀ post parent, (threadStep posts p).rows.get? posts.nextId = some post →
    post.replyTo = some parent →
      (∃ target row, p.2.target = some target ∧ posts.rows.get? target = some row ∧
        parent = row.replyTo.getD target) ∧
      ∃ row, posts.rows.get? parent = some row ∧ row.replyTo = none ∧ row.thread = post.thread ∧
        row.isAnnouncement = false ∧ row.isHidden = false

/-- If the Python service stores an answer to a reply, the ancestor of that reply is visible. -/
def AncestorVisible (posts : Posts) (p : Nat × ThreadOp) : Prop :=
  match p.2 with
  | .pyPost _ thread (some target) true => ∀ row ancestor,
    posts.rows.get? target = some row → row.answerable thread = true → row.replyTo = some ancestor →
      ∀ root, posts.rows.get? ancestor = some root → root.isHidden = false
  | _ => True

/-- In every state of the schedule the posts form a tree, and every step attaches its reply. -/
structure ReplyTree (ps : List (Nat × ThreadOp)) : Prop where
  tree : ∀ before after, ps = before ++ after → Tree (run threadStep Posts.empty before)
  attached : ∀ q ∈ steps threadStep Posts.empty ps, Attached q.1 q.2

section

variable {posts posts' : Posts} {post : Post}

theorem get?_nextId (posts : Posts) : posts.rows.get? posts.nextId = none := by
  cases hget : posts.rows.get? posts.nextId with
  | none => rfl
  | some post =>
    have hlt := (posts.sequence _ _ hget).2
    omega

theorem get?_insert (posts : Posts) (post : Post) (id : Nat) :
    (posts.insert post).rows.get? id = if id = posts.nextId then some post else posts.rows.get? id :=
  KeyMap.get?_set ..

variable {row : Post}

theorem get?_insert_of_get? {id : Nat} (h : posts.rows.get? id = some row) :
    (posts.insert post).rows.get? id = some row := by
  have hne : id ≠ posts.nextId := by
    intro heq
    rw [heq, get?_nextId] at h
    cases h
  rw [get?_insert, if_neg hne, h]

theorem Tree.insert (h : Tree posts)
    (hparent : ∀ parent, post.replyTo = some parent → ∃ row, posts.rows.get? parent = some row ∧
      row.replyTo = none ∧ row.thread = post.thread ∧ row.isAnnouncement = false) :
    Tree (posts.insert post) := by
  intro id row parent hget hreply
  rw [get?_insert] at hget
  split at hget
  · cases hget
    obtain ⟨root, hroot, hrest⟩ := hparent parent hreply
    exact ⟨root, get?_insert_of_get? hroot, hrest⟩
  · obtain ⟨root, hroot, hrest⟩ := h id row parent hget hreply
    exact ⟨root, get?_insert_of_get? hroot, hrest⟩

theorem Tree.update (h : Tree posts) {f : Nat → Post → Post}
    (hf : ∀ id row, (f id row).replyTo = row.replyTo ∧ (f id row).thread = row.thread ∧
      (f id row).isAnnouncement = row.isAnnouncement) : Tree (posts.update f) := by
  intro id row parent hget hreply
  rw [Posts.update, KeyMap.get?_mapRows] at hget
  obtain ⟨old, hold, rfl⟩ := Option.map_eq_some_iff.mp hget
  rw [(hf id old).1] at hreply
  obtain ⟨root, hroot, htop, hthread, hordinary⟩ := h id old parent hold hreply
  obtain ⟨hsameReply, hsameThread, hsameKind⟩ := hf parent root
  refine ⟨f parent root, ?_, by rw [hsameReply, htop], ?_, by rw [hsameKind, hordinary]⟩
  · rw [Posts.update, KeyMap.get?_mapRows, hroot]
    rfl
  · rw [hsameThread, (hf id old).2.1, hthread]

theorem Tree.delete (h : Tree posts) (gone : Nat → Post → Bool) : Tree (posts.delete gone) := by
  intro id row parent hget hreply
  rw [Posts.delete, KeyMap.get?_mapRows] at hget
  obtain ⟨old, hold, rfl⟩ := Option.map_eq_some_iff.mp hget
  -- The reply still has its parent, so the parent is still there.
  obtain ⟨hreply, hkept⟩ := Option.filter_eq_some_iff.mp hreply
  obtain ⟨root, hroot, htop, hthread, hordinary⟩ :=
    h id old parent (KeyMap.get?_of_removeIf hold) hreply
  obtain ⟨root', hroot'⟩ := Option.isSome_iff_exists.mp hkept
  have hsame : root' = root := by
    have hget := KeyMap.get?_of_removeIf hroot'
    rw [hroot] at hget
    exact (Option.some.inj hget).symm
  subst hsame
  refine ⟨{ root' with replyTo := none }, ?_, rfl, hthread, hordinary⟩
  rw [Posts.delete, KeyMap.get?_mapRows, hroot', Option.map_some, htop]
  rfl

/-! ### The resolution of a reply -/

variable {thread target : Nat}

theorem validateReplyTo_eq_ok {parent : Option Nat}
    (h : Py.validateReplyTo posts thread (some target) = .ok parent) :
    ∃ row, posts.rows.get? target = some row ∧ row.answerable thread = true ∧
      parent = some (row.replyTo.getD target) := by
  simp only [Py.validateReplyTo] at h
  split at h
  · cases h
  · rename_i row hget
    simp only [seq_eq_ok, need_eq_ok, pure_eq_ok] at h
    exact ⟨row, hget, h.1, h.2.symm⟩

theorem replyParent_eq_ok {parent : Option Nat}
    (h : Go.replyParent posts thread (some target) = .ok parent) :
    ∃ row root, posts.rows.get? target = some row ∧ parent = some (row.replyTo.getD target) ∧
      posts.rows.get? (row.replyTo.getD target) = some root ∧ root.answerable thread = true := by
  obtain ⟨row, hrow, h⟩ := bind_eq_ok.mp h
  obtain ⟨-, h⟩ := seq_eq_ok.mp h
  obtain ⟨root, hroot, h⟩ := bind_eq_ok.mp h
  simp only [seq_eq_ok, need_eq_ok, pure_eq_ok] at h
  exact ⟨row, root, elim_eq_ok.mp hrow, h.2.symm, elim_eq_ok.mp hroot, h.1⟩

theorem answerable_iff : post.answerable thread = true ↔
    post.thread = thread ∧ post.isHidden = false ∧ post.isAnnouncement = false := by
  simp [Post.answerable, and_assoc]

theorem Tree.root (h : Tree posts) {row : Post}
    (hrow : posts.rows.get? target = some row) (hanswer : row.answerable thread = true) :
    ∃ root, posts.rows.get? (row.replyTo.getD target) = some root ∧ root.replyTo = none ∧
      root.thread = thread ∧ root.isAnnouncement = false ∧
      (row.replyTo = none → root.isHidden = false) := by
  obtain ⟨hthread, hvisible, hordinary⟩ := answerable_iff.mp hanswer
  cases hreply : row.replyTo with
  | none => exact ⟨row, hrow, hreply, hthread, hordinary, fun _ => hvisible⟩
  | some ancestor =>
    obtain ⟨root, hroot, htop, hsame, hkind⟩ := h target row ancestor hrow hreply
    exact ⟨root, hroot, htop, hsame.trans hthread, hkind, fun h => by cases h⟩

/-! ### One step -/

theorem attached_of_not_stored {p : Nat × ThreadOp}
    (h : (threadStep posts p).rows.get? posts.nextId = none) : Attached posts p := by
  intro post parent hget
  rw [h] at hget
  cases hget

theorem get?_update_nextId (f : Nat → Post → Post) :
    (posts.update f).rows.get? posts.nextId = none := by
  rw [Posts.update, KeyMap.get?_mapRows, get?_nextId]
  rfl

theorem get?_delete_nextId (gone : Nat → Post → Bool) :
    (posts.delete gone).rows.get? posts.nextId = none := by
  rw [Posts.delete, KeyMap.get?_mapRows, KeyMap.get?_removeIf, get?_nextId]
  rfl

theorem change_keeps {ε : Type} {f : Post → Except ε Post} {id : Nat}
    (hf : ∀ row changed, f row = .ok changed → changed.replyTo = row.replyTo ∧
      changed.thread = row.thread ∧ changed.isAnnouncement = row.isAnnouncement)
    (h : Tree posts) : Tree (posts.change id f) := by
  refine h.update fun k row => ?_
  by_cases hk : k = id
  · simp only [hk, if_true]
    cases hchange : f row with
    | ok changed => exact hf row changed hchange
    | error => exact ⟨rfl, rfl, rfl⟩
  · simp [hk]

theorem deletePost_keeps {author : Nat} {contested : Bool} {changed : Post}
    (h : Go.deletePost author contested row = .ok changed) : changed.replyTo = row.replyTo ∧
      changed.thread = row.thread ∧ changed.isAnnouncement = row.isAnnouncement := by
  simp only [Go.deletePost, seq_eq_ok] at h
  obtain ⟨-, h⟩ := h
  split at h
  · cases pure_eq_ok.mp h
    exact ⟨rfl, rfl, rfl⟩
  · simp only [seq_eq_ok, pure_eq_ok] at h
    rw [← h.2]
    exact ⟨rfl, rfl, rfl⟩

theorem deleteOwnPost_keeps {author : Nat} {contested : Bool} {changed : Post}
    (h : Py.deleteOwnPost author contested row = .ok changed) : changed.replyTo = row.replyTo ∧
      changed.thread = row.thread ∧ changed.isAnnouncement = row.isAnnouncement := by
  simp only [Py.deleteOwnPost, seq_eq_ok] at h
  obtain ⟨-, h⟩ := h
  split at h
  · split at h
    · cases pure_eq_ok.mp h
      exact ⟨rfl, rfl, rfl⟩
    · simp only [seq_eq_ok, pure_eq_ok] at h
      rw [← h.2]
      exact ⟨rfl, rfl, rfl⟩
  · cases pure_eq_ok.mp h
    exact ⟨rfl, rfl, rfl⟩

/-- A write that is stored under a parent. -/
theorem attached_insert {p : Nat × ThreadOp} (hstep : threadStep posts p = posts.insert post)
    (hparent : ∀ parent, post.replyTo = some parent →
      (∃ target row, p.2.target = some target ∧ posts.rows.get? target = some row ∧
        parent = row.replyTo.getD target) ∧
      ∃ row, posts.rows.get? parent = some row ∧ row.replyTo = none ∧ row.thread = post.thread ∧
        row.isAnnouncement = false ∧ row.isHidden = false) : Attached posts p := by
  intro stored parent hget hreply
  rw [hstep, get?_insert, if_pos rfl] at hget
  cases hget
  exact hparent parent hreply

theorem goPost_spec (h : Tree posts) (now author thread : Nat) (replyTo : ReplyTarget)
    (announcement allowed : Bool) :
    Tree (threadStep posts (now, .goPost author thread replyTo announcement allowed)) ∧
      Attached posts (now, .goPost author thread replyTo announcement allowed) := by
  cases hwrite : Go.writePost posts now author thread replyTo announcement allowed with
  | error =>
    have hstep : threadStep posts (now, .goPost author thread replyTo announcement allowed) = posts := by
      simp only [threadStep, hwrite, Posts.commit]
    exact ⟨by rwa [hstep], attached_of_not_stored (by rw [hstep, get?_nextId])⟩
  | ok posts' =>
    have hstep : threadStep posts (now, .goPost author thread replyTo announcement allowed) = posts' := by
      simp only [threadStep, hwrite, Posts.commit]
    obtain ⟨-, hwrite⟩ := seq_eq_ok.mp hwrite
    obtain ⟨parent, hparent, hwrite⟩ := bind_eq_ok.mp hwrite
    rw [← pure_eq_ok.mp hwrite] at hstep
    -- The ancestor was looked at, and the tree says that it is a top-level post.
    have hroot : ∀ k, parent = some k →
        (∃ target row, replyTo = some target ∧ posts.rows.get? target = some row ∧
          k = row.replyTo.getD target) ∧
        ∃ row, posts.rows.get? k = some row ∧ row.replyTo = none ∧ row.thread = thread ∧
          row.isAnnouncement = false ∧ row.isHidden = false := by
      intro k hk
      cases replyTo with
      | none =>
        cases hparent
        cases hk
      | some target =>
        obtain ⟨row, root, hrow, hsame, hroot, hanswer⟩ := replyParent_eq_ok hparent
        rw [hk] at hsame
        cases hsame
        obtain ⟨hthread, hvisible, hordinary⟩ := answerable_iff.mp hanswer
        refine ⟨⟨target, row, rfl, hrow, rfl⟩, root, hroot, ?_, hthread, hordinary, hvisible⟩
        cases hreply : row.replyTo with
        | none =>
          rw [hreply, Option.getD_none, hrow] at hroot
          rw [← Option.some.inj hroot, hreply]
        | some ancestor =>
          rw [hreply, Option.getD_some] at hroot
          obtain ⟨root', hroot', htop, -⟩ := h target row ancestor hrow hreply
          rw [hroot] at hroot'
          rw [Option.some.inj hroot', htop]
    refine ⟨?_, attached_insert hstep hroot⟩
    rw [hstep]
    refine h.insert fun k hk => ?_
    obtain ⟨-, row, hrow, htop, hthread, hordinary, -⟩ := hroot k hk
    exact ⟨row, hrow, htop, hthread, hordinary⟩

theorem pyPost_spec (h : Tree posts) (now author thread : Nat) (replyTo : ReplyTarget)
    (allowed : Bool) :
    Tree (threadStep posts (now, .pyPost author thread replyTo allowed)) ∧
      (Attached posts (now, .pyPost author thread replyTo allowed) ↔
        AncestorVisible posts (now, .pyPost author thread replyTo allowed)) := by
  cases hwrite : Py.postToThread posts now author thread replyTo allowed with
  | error =>
    have hstep : threadStep posts (now, .pyPost author thread replyTo allowed) = posts := by
      simp only [threadStep, hwrite, Posts.commit]
    refine ⟨by rwa [hstep], iff_of_true (attached_of_not_stored (by rw [hstep, get?_nextId])) ?_⟩
    -- A call that fails names no post that could be answered.
    unfold AncestorVisible
    cases replyTo with
    | none => trivial
    | some =>
      cases allowed with
      | false => trivial
      | true =>
        intro row ancestor hrow hanswer
        rw [Py.postToThread, need_true, ok_bind, Py.validateReplyTo, hrow] at hwrite
        simp only [hanswer, need_true, ok_bind] at hwrite
        cases hwrite
  | ok posts' =>
    have hstep : threadStep posts (now, .pyPost author thread replyTo allowed) = posts' := by
      simp only [threadStep, hwrite, Posts.commit]
    obtain ⟨hallowed, hwrite⟩ := seq_eq_ok.mp hwrite
    obtain ⟨parent, hparent, hwrite⟩ := bind_eq_ok.mp hwrite
    rw [← pure_eq_ok.mp hwrite] at hstep
    rw [need_eq_ok] at hallowed
    subst hallowed
    cases replyTo with
    | none =>
      cases hparent
      refine ⟨?_, iff_of_true (attached_insert hstep fun k hk => by cases hk) trivial⟩
      rw [hstep]
      exact h.insert fun k hk => by cases hk
    | some target =>
      obtain ⟨row, hrow, hanswer, rfl⟩ := validateReplyTo_eq_ok hparent
      obtain ⟨root, hroot, htop, hthread, hordinary, hvisible⟩ := h.root hrow hanswer
      refine ⟨?_, ?_, ?_⟩
      · rw [hstep]
        refine h.insert fun k hk => ?_
        cases hk
        exact ⟨root, hroot, htop, hthread, hordinary⟩
      · intro hattached row' ancestor hrow' hanswer' hreply root' hroot'
        rw [hrow] at hrow'
        cases hrow'
        have hstored : (threadStep posts (now, .pyPost author thread (some target) true)).rows.get?
            posts.nextId = some ⟨thread, author, now, false, false, false,
              some (row.replyTo.getD target)⟩ := by
          rw [hstep, get?_insert, if_pos rfl]
        obtain ⟨-, found, hfound, -, -, -, hshown⟩ := hattached _ _ hstored rfl
        rw [hreply, Option.getD_some, hroot'] at hfound
        rw [Option.some.inj hfound]
        exact hshown
      · intro hguard
        refine attached_insert hstep fun k hk => ?_
        cases hk
        refine ⟨⟨target, row, rfl, hrow, rfl⟩, root, hroot, htop, hthread, hordinary, ?_⟩
        cases hreply : row.replyTo with
        | none => exact hvisible hreply
        | some ancestor =>
          rw [hreply, Option.getD_some] at hroot
          exact hguard row ancestor hrow hanswer hreply root hroot

theorem threadStep_spec (h : Tree posts) (p : Nat × ThreadOp) :
    Tree (threadStep posts p) ∧ (Attached posts p ↔ AncestorVisible posts p) := by
  obtain ⟨now, op⟩ := p
  cases op with
  | goPost author thread replyTo announcement allowed =>
    obtain ⟨htree, hattached⟩ := goPost_spec h now author thread replyTo announcement allowed
    exact ⟨htree, iff_of_true hattached trivial⟩
  | pyPost author thread replyTo allowed => exact pyPost_spec h now author thread replyTo allowed
  | pyAnnouncement author thread allowed =>
    cases hwrite : Py.postAnnouncement posts now author thread allowed with
    | error =>
      have hstep : threadStep posts (now, .pyAnnouncement author thread allowed) = posts := by
        simp only [threadStep, hwrite, Posts.commit]
      exact ⟨by rwa [hstep],
        iff_of_true (attached_of_not_stored (by rw [hstep, get?_nextId])) trivial⟩
    | ok posts' =>
      have hstep : threadStep posts (now, .pyAnnouncement author thread allowed) = posts' := by
        simp only [threadStep, hwrite, Posts.commit]
      obtain ⟨-, hwrite⟩ := seq_eq_ok.mp hwrite
      rw [← pure_eq_ok.mp hwrite] at hstep
      refine ⟨?_, iff_of_true (attached_insert hstep fun k hk => by cases hk) trivial⟩
      rw [hstep]
      exact h.insert fun k hk => by cases hk
  | edit => exact ⟨h, iff_of_true (attached_of_not_stored (get?_nextId posts)) trivial⟩
  | goDelete =>
    exact ⟨change_keeps (fun _ _ => deletePost_keeps) h,
      iff_of_true (attached_of_not_stored (get?_update_nextId _)) trivial⟩
  | pyDelete =>
    exact ⟨change_keeps (fun _ _ => deleteOwnPost_keeps) h,
      iff_of_true (attached_of_not_stored (get?_update_nextId _)) trivial⟩
  | hide id =>
    refine ⟨h.update fun k row => ?_,
      iff_of_true (attached_of_not_stored (get?_update_nextId _)) trivial⟩
    by_cases hk : k = id <;> simp [hk]
  | unhide id =>
    refine ⟨h.update fun k row => ?_,
      iff_of_true (attached_of_not_stored (get?_update_nextId _)) trivial⟩
    by_cases hk : k = id
    · simp only [hk, if_true, Post.unhidden]
      split <;> exact ⟨rfl, rfl, rfl⟩
    · simp [hk]
  | erase =>
    exact ⟨h.delete _, iff_of_true (attached_of_not_stored (get?_delete_nextId _)) trivial⟩

end

/-- The posts are a tree in every state, and every reply hangs off a visible top-level post, exactly
if no reply by the Python service answers a visible reply of a hidden post. -/
theorem replyTree_iff (ps : List (Nat × ThreadOp)) :
    ReplyTree ps ↔ ∀ q ∈ steps threadStep Posts.empty ps, AncestorVisible q.1 q.2 := by
  have hstart : Tree Posts.empty := fun id post parent h => by cases h
  have hkeep : ∀ posts p, Tree posts → Tree (threadStep posts p) := fun posts p h =>
    (threadStep_spec h p).1
  have htree : ∀ q ∈ steps threadStep Posts.empty ps, Tree q.1 :=
    Machine.steps_invariant hkeep hstart ps
  constructor
  · intro h q hq
    exact (threadStep_spec (htree q hq) q.2).2.mp (h.attached q hq)
  · intro h
    refine ⟨fun before after _ => Machine.run_invariant hkeep hstart before, fun q hq => ?_⟩
    exact (threadStep_spec (htree q hq) q.2).2.mpr (h q hq)

/-- User 1 posts, 2 answers, the post of 1 is hidden, and 3 answers the answer. -/
def hiddenRoot : List (Nat × ThreadOp) :=
  [(10, .pyPost 1 1 none true), (20, .pyPost 2 1 (some 1) true), (30, .hide 1)]

/-- The answer of 3 is stored under the hidden post. -/
theorem reply_under_hidden : ¬ReplyTree (hiddenRoot ++ [(40, .pyPost 3 1 (some 2) true)]) := by
  intro h
  have hlast : (run threadStep Posts.empty hiddenRoot, (40, ThreadOp.pyPost 3 1 (some 2) true)) ∈
      steps threadStep Posts.empty (hiddenRoot ++ [(40, .pyPost 3 1 (some 2) true)]) :=
    (Machine.mem_steps threadStep).mpr ⟨hiddenRoot, [], rfl, rfl⟩
  have hstored : (threadStep (run threadStep Posts.empty hiddenRoot)
      (40, .pyPost 3 1 (some 2) true)).rows.get? (run threadStep Posts.empty hiddenRoot).nextId =
        some ⟨1, 3, 40, false, false, false, some 1⟩ := by
    decide +kernel
  obtain ⟨-, row, hrow, -, -, -, hvisible⟩ := h.attached _ hlast _ 1 hstored rfl
  have hroot : (run threadStep Posts.empty hiddenRoot).rows.get? 1 =
      some ⟨1, 1, 10, false, true, false, none⟩ := by
    decide +kernel
  rw [hroot] at hrow
  rw [← Option.some.inj hrow] at hvisible
  cases hvisible

end SocialActivities.Social
