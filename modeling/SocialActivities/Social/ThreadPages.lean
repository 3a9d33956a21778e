import SocialActivities.Social.Threads

/-!
# `SocialActivities.Social.ThreadPages`: reading a whole thread (Go)

A client reads the newest page of a thread and goes back by the cursors until there is none, and
puts each page before those that it has. `posts_paged` says what it gets: the visible posts of the
thread, each once and in the order of `(created_at, id)`. From any post of the thread as the
cursor, a hidden one too, it gets the visible posts before it. If posts are written, hidden and
shown again between the requests, so that an anchor may be hidden by the time it is used, it still
gets every post that is visible all the time, once and in order.

A walk is one of `Lib/Keyset`, with the stamp of the anchor as the bound (`postsWalk_of_walk`).
-/

namespace SocialActivities.Social.Go

open Lib
open Lib.Keyset (Arranged Walk older)

/-- The requests of a client who goes back by the cursors, from request `i` on, and the posts that
it has in the end. -/
inductive PostsWalk (page : Nat → Int → Except Error PostsPage) :
    Nat → Int → List PostRow → Prop where
  | last (i : Nat) (before : Int) (p : PostsPage) (hpage : page i before = .ok p)
    (hnone : p.nextCursor = none) : PostsWalk page i before p.results
  | more (i : Nat) (before : Int) (p : PostsPage) (next : Nat) (rest : List PostRow)
    (hpage : page i before = .ok p) (hnext : p.nextCursor = some next)
    (hrest : PostsWalk page (i + 1) next rest) :
    PostsWalk page i before (rest ++ p.results)

/-- The requests for the posts of a thread, with a table for each. -/
def postsPages (threadPostLimit : ThreadPostLimit) (limit : Int) (tables : Nat → Posts)
    (thread i : Nat) (before : Int) : Except Error PostsPage :=
  posts threadPostLimit (.ok thread) (tables i) before limit

/-- Exactly these rows, each once, in the order of `(created_at, id)`. -/
structure InOrder (rows received : List PostRow) : Prop where
  perm : received.Perm rows
  sorted : received.Pairwise fun r r' => postStamp r < postStamp r'

/-- Between two requests no post is deleted or moved to another time or thread. It may be hidden or
shown again, and posts may be written. -/
def PostsStay (tables : Nat → Posts) : Prop :=
  ∀ i id post, (tables i).rows.get? id = some post →
    ∃ post', (tables (i + 1)).rows.get? id = some post' ∧ post'.thread = post.thread ∧
      post'.createdAt = post.createdAt

/-- What reading a thread page by page promises. -/
structure PostsPaged (threadPostLimit : ThreadPostLimit) (limit : Int) (tables : Nat → Posts)
    (thread : Nat) : Prop where
  whole : ∀ received,
    PostsWalk (postsPages threadPostLimit limit (fun _ => tables 0) thread) 0 0 received ↔
      InOrder (visiblePosts (tables 0) thread) received
  fromAnchor : ∀ id post, (tables 0).rows.get? id = some post → post.thread = thread →
    ∀ received,
      PostsWalk (postsPages threadPostLimit limit (fun _ => tables 0) thread) 0 id received ↔
        InOrder ((visiblePosts (tables 0) thread).filter fun r =>
          decide (postStamp r < postStamp (id, post))) received
  changing : PostsStay tables → ∃ received,
    PostsWalk (postsPages threadPostLimit limit tables thread) 0 0 received ∧
      received.Pairwise (fun r r' => postStamp r < postStamp r') ∧
      (∀ r ∈ received, ∃ i, r ∈ visiblePosts (tables i) thread) ∧
      ∀ id, (∀ i, ∃ r ∈ visiblePosts (tables i) thread, r.1 = id) → id ∈ received.map Prod.fst

section

variable {threadPostLimit : ThreadPostLimit} {limit : Int} {tables : Nat → Posts} {table : Posts}
  {thread i : Nat} {before : Int} {received : List PostRow}

/-! ### The rows -/

theorem nodup_visiblePosts (table : Posts) (thread : Nat) :
    ((visiblePosts table thread).map postStamp).Nodup :=
  nodup_postStamp (table.rows.nodup.sublist (List.filter_sublist.map Prod.fst))

theorem arranged_newestPosts (rows : List PostRow) : Arranged postStamp rows (newestPosts rows) :=
  ⟨List.perm_insertionSort _ _, List.pairwise_insertionSort _ _⟩

theorem postLimit_pos : 0 < postLimit threadPostLimit limit := by
  have hpos := threadPostLimit.property
  simp only [postLimit]
  split
  · omega
  · split
    · omega
    · omega

/-! ### One page -/

/-- The rows that a request reads, sorted. -/
def pageRows (table : Posts) (thread : Nat) (bound : Option (Nat ×ₗ Nat)) : List PostRow :=
  newestPosts (older postStamp bound (visiblePosts table thread))

/-- A page has the first rows, and a cursor if there are more. -/
theorem posts_eq {bound : Option (Nat ×ₗ Nat)} (hbound : anchorBound table thread before = bound) :
    posts threadPostLimit (.ok thread) table before limit =
      .ok (if postLimit threadPostLimit limit < (pageRows table thread bound).length then
          ⟨((pageRows table thread bound).take (postLimit threadPostLimit limit)).reverse,
            ((pageRows table thread bound).take (postLimit threadPostLimit limit)).getLast?.map
              Prod.fst⟩
        else ⟨(pageRows table thread bound).reverse, none⟩) := by
  have hrows : (newestPosts ((visiblePosts table thread).filter fun r =>
      (anchor table thread before).all fun a => decide (postStamp r < postStamp a))) =
      pageRows table thread bound := by
    rw [pageRows, older, ← hbound, anchorBound]
    simp only [Option.all_map]
  have hn := @postLimit_pos threadPostLimit limit
  simp only [posts, ok_bind, hrows]
  generalize pageRows table thread bound = rows
  generalize postLimit threadPostLimit limit = n at hn
  -- One row more than the limit is asked for.
  have hlength : n < (rows.take (n + 1)).length ↔ n < rows.length := by
    rw [List.length_take]
    omega
  by_cases hmore : n < rows.length
  · rw [if_pos (hlength.mpr hmore), if_pos hmore, List.take_take, Nat.min_eq_left (Nat.le_succ n)]
    rfl
  · rw [if_neg (fun h => hmore (hlength.mp h)), if_neg hmore, List.take_of_length_le (by omega)]
    rfl

/-! ### The walk -/

theorem PostsWalk.unique {page : Nat → Int → Except Error PostsPage} {received' : List PostRow}
    (h : PostsWalk page i before received) (h' : PostsWalk page i before received') :
    received = received' := by
  induction h generalizing received' with
  | last i before p hpage hnone =>
    cases h' with
    | last _ _ p' hpage' =>
      rw [hpage] at hpage'
      cases hpage'
      rfl
    | more _ _ p' next rest hpage' hnext =>
      rw [hpage] at hpage'
      cases hpage'
      rw [hnone] at hnext
      cases hnext
  | more i before p next rest hpage hnext hrest ih =>
    cases h' with
    | last _ _ p' hpage' hnone =>
      rw [hpage] at hpage'
      cases hpage'
      rw [hnext] at hnone
      cases hnone
    | more _ _ p' next' rest' hpage' hnext' hrest' =>
      rw [hpage] at hpage'
      cases hpage'
      rw [hnext] at hnext'
      cases hnext'
      rw [ih hrest']

/-- The walk of a client is one of the keyset. -/
theorem postsWalk_of_walk (hstay : PostsStay tables) {bound : Option (Nat ×ₗ Nat)}
    (h : Walk postStamp (fun _ => newestPosts) (postLimit threadPostLimit limit)
      (fun i => visiblePosts (tables i) thread) i bound received)
    (hbound : anchorBound (tables i) thread before = bound) :
    PostsWalk (postsPages threadPostLimit limit tables thread) i before received.reverse := by
  induction h generalizing before with
  | last i bound hfit =>
    have hpage := @posts_eq threadPostLimit limit _ _ _ _ hbound
    rw [pageRows, if_neg (Nat.not_lt.mpr hfit)] at hpage
    exact PostsWalk.last i before ⟨_, none⟩ hpage rfl
  | more i bound last rest hmore hlast hrest ih =>
    have hpage := @posts_eq threadPostLimit limit _ _ _ _ hbound
    rw [pageRows, if_pos hmore] at hpage
    rw [List.reverse_append]
    refine PostsWalk.more i before _ last.1 rest.reverse hpage ?_ (ih ?_)
    · show Option.map Prod.fst _ = some last.1
      rw [hlast]
      rfl
    · -- The anchor of the next page is in the next table, hidden or not.
      have hin : last ∈ visiblePosts (tables i) thread :=
        (Keyset.mem_older.mp ((arranged_newestPosts _).perm.mem_iff.mp
          (List.mem_of_mem_take (List.mem_of_getLast? hlast)))).1
      obtain ⟨hmem, hcond⟩ := List.mem_filter.mp hin
      rw [Bool.and_eq_true, beq_iff_eq] at hcond
      obtain ⟨post, hget, hthread, htime⟩ := hstay i last.1 last.2 (KeyMap.mem_entries_iff.mp hmem)
      rw [anchorBound_of_get? hget (hthread.trans hcond.1)]
      simp only [postStamp, htime]

theorem inOrder_iff {rows : List PostRow} (hdistinct : (rows.map postStamp).Nodup) :
    InOrder rows received ↔ received = (newestPosts rows).reverse := by
  have hstrict := (arranged_newestPosts rows).strict hdistinct
  have hsorted : InOrder rows (newestPosts rows).reverse :=
    ⟨(List.reverse_perm _).trans (arranged_newestPosts rows).perm, List.pairwise_reverse.mpr hstrict⟩
  constructor
  · intro h
    exact (h.perm.trans hsorted.perm.symm).eq_of_pairwise
      (fun r r' _ _ hlt hgt => absurd hgt (lt_asymm hlt)) h.sorted hsorted.sorted
  · intro h
    rw [h]
    exact hsorted

theorem postsWalk_iff (table : Posts) {bound : Option (Nat ×ₗ Nat)}
    (hbound : anchorBound table thread before = bound) :
    PostsWalk (postsPages threadPostLimit limit (fun _ => table) thread) 0 before received ↔
      InOrder (older postStamp bound (visiblePosts table thread)) received := by
  have hstay : PostsStay fun _ => table := fun _ _ post hget => ⟨post, hget, rfl, rfl⟩
  have hdistinct := nodup_visiblePosts table thread
  obtain ⟨rows, hwalk⟩ := @Walk.exists _ _ _ postStamp _ _ (fun _ => newestPosts)
    (fun _ all => (arranged_newestPosts all).perm) (@postLimit_pos threadPostLimit limit)
    (fun _ => visiblePosts table thread) 0 bound
  have hrows := hwalk.eq_query (fun _ => arranged_newestPosts) hdistinct
  have hclient := @postsWalk_of_walk _ _ (fun _ => table) _ _ _ _ hstay _ hwalk hbound
  have holder : ((older postStamp bound (visiblePosts table thread)).map postStamp).Nodup :=
    hdistinct.sublist (List.filter_sublist.map postStamp)
  rw [inOrder_iff holder, ← hrows]
  constructor
  · intro h
    exact h.unique hclient
  · intro h
    rw [h]
    exact hclient

end

/-- Reading a thread page by page gives the visible posts, each once and in order. -/
theorem posts_paged (threadPostLimit : ThreadPostLimit) (limit : Int) (tables : Nat → Posts)
    (thread : Nat) : PostsPaged threadPostLimit limit tables thread := by
  have hnone : ∀ table, anchorBound table thread 0 = none := fun table => rfl
  constructor
  · intro received
    rw [postsWalk_iff (tables 0) (hnone _)]
    simp [older]
  · intro id post hget hthread received
    exact postsWalk_iff (tables 0) (anchorBound_of_get? hget hthread)
  · intro hstay
    obtain ⟨rows, hwalk⟩ := @Walk.exists _ _ _ postStamp _ _ (fun _ => newestPosts)
      (fun _ all => (arranged_newestPosts all).perm) (@postLimit_pos threadPostLimit limit)
      (fun i => visiblePosts (tables i) thread) 0 none
    obtain ⟨hsorted, hwithin, hall⟩ := hwalk.complete (fun _ => arranged_newestPosts)
      fun i => nodup_visiblePosts (tables i) thread
    refine ⟨rows.reverse, postsWalk_of_walk hstay hwalk (hnone _), List.pairwise_reverse.mpr hsorted,
      fun r hr => ?_, fun id hid => ?_⟩
    · obtain ⟨j, -, hin⟩ := hwithin r (List.mem_reverse.mp hr)
      exact ⟨j, (Keyset.mem_older.mp hin).1⟩
    · -- The stamp of a post is the same in all tables.
      obtain ⟨first, hfirst, rfl⟩ := hid 0
      have hstamp : ∀ j, ∀ r ∈ visiblePosts (tables j) thread, r.1 = first.1 →
          r.2.createdAt = first.2.createdAt := by
        have hkept : ∀ j, ∃ post, (tables j).rows.get? first.1 = some post ∧
            post.createdAt = first.2.createdAt := by
          intro j
          induction j with
          | zero => exact ⟨first.2, KeyMap.mem_entries_iff.mp (List.mem_of_mem_filter hfirst), rfl⟩
          | succ j ih =>
            obtain ⟨post, hget, htime⟩ := ih
            obtain ⟨post', hget', -, htime'⟩ := hstay j first.1 post hget
            exact ⟨post', hget', htime'.trans htime⟩
        intro j r hr hid
        obtain ⟨post, hget, htime⟩ := hkept j
        have hrow := KeyMap.mem_entries_iff.mp (List.mem_of_mem_filter hr)
        rw [hid, hget] at hrow
        rw [← Option.some.inj hrow]
        exact htime
      have hin : postStamp first ∈ rows.map postStamp := by
        refine hall _ (fun b hb => by cases hb) fun j _ => ?_
        obtain ⟨r, hr, hsame⟩ := hid j
        refine List.mem_map.mpr ⟨r, hr, ?_⟩
        simp only [postStamp, hstamp j r hr hsame, hsame]
      obtain ⟨r, hr, hsame⟩ := List.mem_map.mp hin
      have hids : r.1 = first.1 := congrArg (fun s => (ofLex s).2) hsame
      exact List.mem_map.mpr ⟨r, List.mem_reverse.mpr hr, hids⟩

end SocialActivities.Social.Go
