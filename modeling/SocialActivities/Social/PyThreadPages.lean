import SocialActivities.Social.Threads

/-!
# `SocialActivities.Social.PyThreadPages`: reading a whole thread (Python)

A client of `thread_page` reads the newest page and goes back by the cursors. It should be shown
every visible post of the thread once, as a top-level post or among the replies of one.

`pagingComplete_iff` says when it is, whatever order the database gives to posts of one time:

* the parent of every visible reply is a visible top-level post. A reply whose parent is hidden has
  no page that shows it.
* no page ends with a post that shares its time with another one. The cursor compares the ids of
  such posts and the query does not, so a boundary between them loses some or shows them twice.

`hidden_parent_hides_reply` is a thread of two posts that is not shown in full.
-/

namespace SocialActivities.Social.Py

open Lib
open Lib.Keyset (Arranged Walk Untied older newestFirst)

/-- The requests of a client who goes back by the cursors, from request `i` on, and what it is
shown in the end. -/
inductive PagesWalk (page : Nat → Option Int → ThreadPage) :
    Nat → Option Int → List (PostRow × List PostRow) → Prop where
  | last (i : Nat) (before : Option Int) (hnone : (page i before).olderCursor = none) :
    PagesWalk page i before (page i before).window
  | more (i : Nat) (before : Option Int) (next : Nat) (rest : List (PostRow × List PostRow))
    (hnext : (page i before).olderCursor = some next)
    (hrest : PagesWalk page (i + 1) (some next) rest) :
    PagesWalk page i before (rest ++ (page i before).window)

/-- The requests for a thread that does not change. The order of ties may differ from one request to
the next. -/
def threadPages (default : ThreadPostLimit) (limit : Option Nat) (ties : Nat → Ties) (posts : Posts)
    (thread i : Nat) (before : Option Int) : ThreadPage :=
  threadPage default (ties i) posts thread before limit

/-- The ids of the posts that a client is shown. -/
def shownIds (received : List (PostRow × List PostRow)) : List Nat :=
  received.flatMap fun e => e.1.1 :: e.2.map Prod.fst

/-- A post of the thread that is visible and no announcement. -/
structure Showable (posts : Posts) (thread id : Nat) (post : Post) : Prop where
  row : posts.rows.get? id = some post
  thread : post.thread = thread
  visible : post.isHidden = false
  ordinary : post.isAnnouncement = false

/-- However ties are ordered, reading the thread shows each of these posts exactly once. -/
def PagingComplete (default : ThreadPostLimit) (limit : Option Nat) (posts : Posts) (thread : Nat) :
    Prop :=
  ∀ ties : Nat → Ties, ∃ received,
    PagesWalk (threadPages default limit ties posts thread) 0 none received ∧
      ∀ id post, Showable posts thread id post → (shownIds received).count id = 1

/-- The parent of every such reply is a visible top-level post of the thread. -/
def ParentsShown (posts : Posts) (thread : Nat) : Prop :=
  ∀ id post parent, Showable posts thread id post → post.replyTo = some parent →
    parent ∈ (topPosts posts thread).map Prod.fst

/-- No page but the last one ends with a post that shares its time with another one. -/
def BoundariesUntied (default : ThreadPostLimit) (limit : Option Nat) (posts : Posts)
    (thread : Nat) : Prop :=
  Untied postTime (pageLimit default limit) (newestFirst postTime postStamp (topPosts posts thread))

section

variable {default : ThreadPostLimit} {limit : Option Nat} {ties : Nat → Ties} {posts : Posts}
  {thread i : Nat} {before : Option Int} {received : List (PostRow × List PostRow)}

/-! ### The rows -/

variable {r : PostRow}

theorem mem_topPosts :
    r ∈ topPosts posts thread ↔ Showable posts thread r.1 r.2 ∧ r.2.replyTo = none := by
  rw [topPosts, List.mem_filter, KeyMap.mem_entries_iff]
  constructor
  · intro ⟨hget, hcond⟩
    simp only [Bool.and_eq_true, beq_iff_eq, Bool.not_eq_true', Option.isNone_iff_eq_none] at hcond
    obtain ⟨⟨⟨hthread, hvisible⟩, hordinary⟩, htop⟩ := hcond
    exact ⟨⟨hget, hthread, hvisible, hordinary⟩, htop⟩
  · intro ⟨⟨hget, hthread, hvisible, hordinary⟩, htop⟩
    exact ⟨hget, by simp [hthread, hvisible, hordinary, htop]⟩

theorem nodup_topPosts (posts : Posts) (thread : Nat) :
    ((topPosts posts thread).map postStamp).Nodup :=
  nodup_postStamp (posts.rows.nodup.sublist (List.filter_sublist.map Prod.fst))

theorem pageLimit_pos : 0 < pageLimit default limit := by
  have hpos := default.property
  simp only [pageLimit]
  split
  · split
    · omega
    · omega
  · omega

theorem postStamp_lt (r r' : PostRow) (h : postTime r < postTime r') : postStamp r < postStamp r' :=
  Prod.Lex.lt_iff.mpr (Or.inl h)

theorem postStamp_lt_iff {a : PostRow} :
    (decide (r.2.createdAt < a.2.createdAt) ||
      (r.2.createdAt == a.2.createdAt && decide (r.1 < a.1))) = decide (postStamp r < postStamp a) := by
  rw [Bool.eq_iff_iff]
  simp [postStamp, Prod.Lex.lt_iff]

/-! ### The walk -/

/-- The rows that a request reads, in the order of the database. -/
def windowRows (ties : Ties) (posts : Posts) (thread : Nat) (bound : Option (Nat ×ₗ Nat)) :
    List PostRow :=
  ties.descending (older postStamp bound (topPosts posts thread))

/-- The bound of a request. -/
def requestBound (posts : Posts) (thread : Nat) (before : Option Int) : Option (Nat ×ₗ Nat) :=
  before.bind (anchorBound posts thread)

/-- A page has the first rows with their replies, and a cursor if there are more rows. -/
theorem threadPage_eq (ties : Ties) {bound : Option (Nat ×ₗ Nat)}
    (hbound : requestBound posts thread before = bound) :
    (threadPage default ties posts thread before limit).window =
        ((windowRows ties posts thread bound).take (pageLimit default limit)).reverse.map
          (fun r => (r, ties.ascending (repliesOf posts r.1))) ∧
      (threadPage default ties posts thread before limit).olderCursor =
        if pageLimit default limit < (windowRows ties posts thread bound).length then
          ((windowRows ties posts thread bound).take (pageLimit default limit)).getLast?.map Prod.fst
        else none := by
  have hrows : ties.descending ((topPosts posts thread).filter fun r =>
      (before.bind (anchor posts thread)).all fun a =>
        decide (r.2.createdAt < a.2.createdAt)
          || (r.2.createdAt == a.2.createdAt && decide (r.1 < a.1))) =
      windowRows ties posts thread bound := by
    have hall : requestBound posts thread before = (before.bind (anchor posts thread)).map postStamp := by
      rw [requestBound, Option.map_bind]
      rfl
    rw [windowRows, older, ← hbound, hall]
    simp only [Option.all_map, postStamp_lt_iff]
  simp only [threadPage, hrows]
  generalize windowRows ties posts thread bound = rows
  generalize pageLimit default limit = n
  -- One row more than the limit is asked for.
  rw [List.take_take, Nat.min_eq_left (Nat.le_succ n)]
  refine ⟨rfl, ?_⟩
  by_cases hmore : n < rows.length <;> simp [hmore]

theorem PagesWalk.unique {page : Nat → Option Int → ThreadPage}
    {received' : List (PostRow × List PostRow)} (h : PagesWalk page i before received)
    (h' : PagesWalk page i before received') : received = received' := by
  induction h generalizing received' with
  | last i before hnone =>
    cases h' with
    | last => rfl
    | more _ _ next rest hnext =>
      rw [hnone] at hnext
      cases hnext
  | more i before next rest hnext hrest ih =>
    cases h' with
    | last _ _ hnone =>
      rw [hnext] at hnone
      cases hnone
    | more _ _ next' rest' hnext' hrest' =>
      rw [hnext] at hnext'
      cases hnext'
      rw [ih hrest']

/-- What a client is shown: these rows, each with its replies. -/
structure Framed (posts : Posts) (rows : List PostRow) (received : List (PostRow × List PostRow)) :
    Prop where
  tops : received.map Prod.fst = rows.reverse
  replies : ∀ e ∈ received, e.2.Perm (repliesOf posts e.1.1)

theorem framed_window (ties : Ties) (rows : List PostRow) :
    Framed posts rows (rows.reverse.map fun r => (r, ties.ascending (repliesOf posts r.1))) := by
  constructor
  · rw [List.map_map]
    exact List.map_id _
  · intro e he
    obtain ⟨r, -, rfl⟩ := List.mem_map.mp he
    exact (ties.ascending_arranged _).1

variable {rows : List PostRow}

theorem Framed.append {rest : List PostRow} {page later : List (PostRow × List PostRow)}
    (h : Framed posts rows page) (hlater : Framed posts rest later) :
    Framed posts (rows ++ rest) (later ++ page) := by
  constructor
  · rw [List.map_append, List.reverse_append, h.tops, hlater.tops]
  · intro e he
    rcases List.mem_append.mp he with hin | hin
    · exact hlater.replies e hin
    · exact h.replies e hin

/-- The walk of a client is one of the keyset. -/
theorem pagesWalk_of_walk {bound : Option (Nat ×ₗ Nat)}
    (h : Walk postStamp (fun i => (ties i).descending) (pageLimit default limit)
      (fun _ => topPosts posts thread) i bound rows)
    (hbound : requestBound posts thread before = bound) :
    ∃ received, PagesWalk (threadPages default limit ties posts thread) i before received ∧
      Framed posts rows received := by
  induction h generalizing before with
  | last i bound hfit =>
    obtain ⟨hwindow, hcursor⟩ := @threadPage_eq default limit _ _ _ (ties i) _ hbound
    rw [windowRows, if_neg (Nat.not_lt.mpr hfit)] at hcursor
    rw [windowRows, List.take_of_length_le hfit] at hwindow
    refine ⟨_, PagesWalk.last i before hcursor, ?_⟩
    rw [threadPages, hwindow]
    exact framed_window (ties i) _
  | more i bound last rest hmore hlast hrest ih =>
    obtain ⟨hwindow, hcursor⟩ := @threadPage_eq default limit _ _ _ (ties i) _ hbound
    rw [windowRows, if_pos hmore, hlast] at hcursor
    rw [windowRows] at hwindow
    -- The last row of the page is the anchor of the next one.
    have hin : last ∈ topPosts posts thread :=
      (Keyset.mem_older.mp (((ties i).descending_arranged _).perm.mem_iff.mp
        (List.mem_of_mem_take (List.mem_of_getLast? hlast)))).1
    have hrow := (mem_topPosts.mp hin).1
    have hanchor : requestBound posts thread (some (last.1 : Int)) = some (postStamp last) :=
      anchorBound_of_get? hrow.row hrow.thread
    obtain ⟨received, hwalk, hframed⟩ := ih hanchor
    refine ⟨_, PagesWalk.more i before last.1 received hcursor hwalk, ?_⟩
    rw [threadPages, hwindow]
    exact (framed_window (ties i) _).append hframed

/-! ### How often a post is shown -/

/-- The top-level post with which a post is shown: itself, or its parent. -/
def rootOf (id : Nat) (post : Post) : Nat := post.replyTo.getD id

theorem mem_repliesOf {parent : Nat} :
    r ∈ repliesOf posts parent ↔
      posts.rows.get? r.1 = some r.2 ∧ r.2.isHidden = false ∧ r.2.replyTo = some parent := by
  rw [repliesOf, List.mem_filter, KeyMap.mem_entries_iff, Bool.and_eq_true, Bool.not_eq_true',
    beq_iff_eq]

theorem count_entry {id : Nat} {post : Post} (hshow : Showable posts thread id post)
    {e : PostRow × List PostRow} (htop : e.1 ∈ topPosts posts thread)
    (hreplies : e.2.Perm (repliesOf posts e.1.1)) :
    (e.1.1 :: e.2.map Prod.fst).count id = if e.1.1 = rootOf id post then 1 else 0 := by
  obtain ⟨hrow, hnone⟩ := mem_topPosts.mp htop
  have hnodup : ((repliesOf posts e.1.1).map Prod.fst).Nodup :=
    posts.rows.nodup.sublist (List.filter_sublist.map Prod.fst)
  -- The post is among the replies exactly when it is a reply to this one.
  have hmem : id ∈ (repliesOf posts e.1.1).map Prod.fst ↔ post.replyTo = some e.1.1 := by
    constructor
    · intro hin
      obtain ⟨r, hr, rfl⟩ := List.mem_map.mp hin
      obtain ⟨hget, -, hreply⟩ := mem_repliesOf.mp hr
      rw [hshow.row] at hget
      rwa [Option.some.inj hget]
    · intro hreply
      exact List.mem_map.mpr ⟨(id, post), mem_repliesOf.mpr ⟨hshow.row, hshow.visible, hreply⟩, rfl⟩
  rw [List.count_cons, ((hreplies.map Prod.fst).count_eq id), hnodup.count]
  cases hparent : post.replyTo with
  | none =>
    rw [hparent] at hmem
    simp [rootOf, hparent, hmem]
  | some parent =>
    have hne : e.1.1 ≠ id := by
      intro heq
      have hget := hrow.row
      rw [heq, hshow.row] at hget
      rw [← Option.some.inj hget, hparent] at hnone
      cases hnone
    rw [hparent] at hmem
    by_cases heq : e.1.1 = parent
    · subst heq
      simp [rootOf, hparent, hmem, hne]
    · have hother : parent ≠ e.1.1 := fun h => heq h.symm
      simp [rootOf, hparent, hmem, hne, heq, hother]

theorem count_shownIds (hframed : Framed posts rows received)
    (htops : ∀ r ∈ rows, r ∈ topPosts posts thread) {id : Nat} {post : Post}
    (hshow : Showable posts thread id post) :
    (shownIds received).count id = (rows.map Prod.fst).count (rootOf id post) := by
  have hrows : (rows.map Prod.fst).count (rootOf id post) =
      (received.map fun e => e.1.1).count (rootOf id post) := by
    have hmap : (received.map fun e => e.1.1) = (rows.map Prod.fst).reverse := by
      rw [← List.map_reverse, ← hframed.tops, List.map_map]
      rfl
    rw [hmap, List.count_reverse]
  have hentry : ∀ e ∈ received, (e.1.1 :: e.2.map Prod.fst).count id =
      if e.1.1 = rootOf id post then 1 else 0 := by
    intro e he
    refine count_entry hshow (htops e.1 ?_) (hframed.replies e he)
    exact List.mem_reverse.mp (hframed.tops ▸ List.mem_map_of_mem he)
  rw [hrows]
  clear hrows hframed
  induction received with
  | nil => rfl
  | cons e received ih =>
    have hrest := ih fun e' he' => hentry e' (List.mem_cons_of_mem e he')
    rw [shownIds, List.flatMap_cons, List.count_append, hentry e List.mem_cons_self, List.map_cons,
      List.count_cons, ← hrest, Nat.add_comm]
    simp only [beq_iff_eq]
    rfl

theorem perm_of_count {all : List PostRow} (hsub : ∀ r ∈ rows, r ∈ all)
    (hids : (all.map Prod.fst).Nodup) (hone : ∀ r ∈ all, (rows.map Prod.fst).count r.1 = 1) :
    rows.Perm all := by
  have hnodup : (rows.map Prod.fst).Nodup := by
    refine List.nodup_iff_count_le_one.mpr fun id => ?_
    by_cases hin : id ∈ rows.map Prod.fst
    · obtain ⟨r, hr, rfl⟩ := List.mem_map.mp hin
      exact le_of_eq (hone r (hsub r hr))
    · rw [List.count_eq_zero_of_not_mem hin]
      omega
  refine (List.perm_ext_iff_of_nodup (hnodup.of_map Prod.fst) (hids.of_map Prod.fst)).mpr fun r => ?_
  constructor
  · exact hsub r
  · intro hr
    have hpos : 0 < (rows.map Prod.fst).count r.1 := by rw [hone r hr]; exact Nat.one_pos
    obtain ⟨r', hr', hsame⟩ := List.mem_map.mp (List.count_pos_iff.mp hpos)
    rwa [← List.inj_on_of_nodup_map hids (hsub r' hr') hr hsame]

end

/-! ### Every order of ties -/

/-- The order by time, and by id among posts of one time. -/
def byId : Ties where
  descending := newestFirst postTime postStamp
  ascending rows := rows.insertionSort fun r r' => postTime r ≤ postTime r'
  descending_arranged _ := Keyset.arranged_newestFirst _
  ascending_arranged rows := ⟨List.perm_insertionSort _ rows, List.pairwise_insertionSort _ rows⟩

/-- Reading a thread shows every visible post once, whatever the order of ties, exactly if the
parents of the replies are shown and no page ends with a post that shares its time. -/
theorem pagingComplete_iff (default : ThreadPostLimit) (limit : Option Nat) (posts : Posts)
    (thread : Nat) :
    PagingComplete default limit posts thread ↔
      ParentsShown posts thread ∧ BoundariesUntied default limit posts thread := by
  have hn := @pageLimit_pos default limit
  have hdistinct := nodup_topPosts posts thread
  have hids : ((topPosts posts thread).map Prod.fst).Nodup :=
    posts.rows.nodup.sublist (List.filter_sublist.map Prod.fst)
  have hall : older postStamp none (topPosts posts thread) = topPosts posts thread := by
    simp [older]
  -- For every order of ties there is a walk, and it shows each post as often as its root.
  have hwalks : ∀ ties : Nat → Ties, ∃ rows received,
      Walk postStamp (fun i => (ties i).descending) (pageLimit default limit)
        (fun _ => topPosts posts thread) 0 none rows ∧
      PagesWalk (threadPages default limit ties posts thread) 0 none received ∧
      (∀ r ∈ rows, r ∈ topPosts posts thread) ∧
      ∀ id post, Showable posts thread id post →
        (shownIds received).count id = (rows.map Prod.fst).count (rootOf id post) := by
    intro ties
    have hperm : ∀ i all, ((ties i).descending all).Perm all := fun i all =>
      ((ties i).descending_arranged all).perm
    obtain ⟨rows, hwalk⟩ := @Walk.exists _ _ _ postStamp _ _ (fun i => (ties i).descending) hperm hn
      (fun _ => topPosts posts thread) 0 none
    obtain ⟨received, hclient, hframed⟩ := @pagesWalk_of_walk default limit _ _ _ _ none _ _ hwalk rfl
    have htops : ∀ r ∈ rows, r ∈ topPosts posts thread := fun r hr => by
      obtain ⟨-, -, hin⟩ := hwalk.mem hperm hr
      exact (Keyset.mem_older.mp hin).1
    exact ⟨rows, received, hwalk, hclient, htops, fun _ _ hshow => count_shownIds hframed htops hshow⟩
  constructor
  · intro h
    obtain ⟨rows, received, hwalk, hclient, htops, hcount⟩ := hwalks fun _ => byId
    obtain ⟨received', hclient', hshown⟩ := h fun _ => byId
    rw [← hclient.unique hclient'] at hshown
    have hone : ∀ id post, Showable posts thread id post →
        (rows.map Prod.fst).count (rootOf id post) = 1 := fun id post hshow => by
      rw [← hcount id post hshow]
      exact hshown id post hshow
    constructor
    · intro id post parent hshow hreply
      have hpos : 0 < (rows.map Prod.fst).count (rootOf id post) := by
        rw [hone id post hshow]
        exact Nat.one_pos
      rw [rootOf, hreply, Option.getD_some] at hpos
      obtain ⟨r, hr, hsame⟩ := List.mem_map.mp (List.count_pos_iff.mp hpos)
      exact List.mem_map.mpr ⟨r, htops r hr, hsame⟩
    · have hperm : rows.Perm (topPosts posts thread) := by
        refine perm_of_count htops hids fun r hr => ?_
        obtain ⟨hshow, hnone⟩ := mem_topPosts.mp hr
        have hr := hone r.1 r.2 hshow
        rwa [rootOf, hnone, Option.getD_none] at hr
      have huntied := Keyset.untied_of_perm postStamp_lt hn hdistinct hwalk (by rwa [hall])
      rwa [hall] at huntied
  · rintro ⟨hparents, huntied⟩ ties
    obtain ⟨rows, received, hwalk, hclient, htops, hcount⟩ := hwalks ties
    refine ⟨received, hclient, fun id post hshow => ?_⟩
    have hperm : rows.Perm (topPosts posts thread) := by
      have hperm := hwalk.perm_of_untied postStamp_lt (fun i => (ties i).descending_arranged)
        hdistinct (by rw [hall]; exact huntied)
      rwa [hall] at hperm
    rw [hcount id post hshow, (hperm.map Prod.fst).count_eq, hids.count, if_pos]
    -- The root is a visible top-level post.
    cases hreply : post.replyTo with
    | none =>
      rw [rootOf, hreply, Option.getD_none]
      exact List.mem_map.mpr ⟨(id, post), mem_topPosts.mpr ⟨hshow, hreply⟩, rfl⟩
    | some parent =>
      rw [rootOf, hreply, Option.getD_some]
      exact hparents id post parent hshow hreply

/-- A post that was hidden after it got a reply. -/
def hiddenParent : Posts where
  rows := (KeyMap.empty.set 1 ⟨1, 1, 10, false, true, false, none⟩).set 2
    ⟨1, 2, 20, false, false, false, some 1⟩
  nextId := 3
  started := by decide
  sequence := by
    intro id post h
    simp only [KeyMap.get?_set, KeyMap.get?_empty] at h
    split at h
    · omega
    · split at h
      · omega
      · cases h

/-- The reply is visible, and no page shows it. -/
theorem hidden_parent_hides_reply : ¬PagingComplete ⟨100, by decide⟩ none hiddenParent 1 := by
  have hpage : (threadPages ⟨100, by decide⟩ none (fun _ => byId) hiddenParent 1 0 none).window = [] ∧
      (threadPages ⟨100, by decide⟩ none (fun _ => byId) hiddenParent 1 0 none).olderCursor = none := by
    decide +kernel
  intro h
  obtain ⟨received, hwalk, hshown⟩ := h fun _ => byId
  have hone := hshown 2 ⟨1, 2, 20, false, false, false, some 1⟩ ⟨by decide, rfl, rfl, rfl⟩
  cases hwalk with
  | last =>
    rw [hpage.1] at hone
    cases hone
  | more _ _ next rest hnext =>
    rw [hpage.2] at hnext
    cases hnext

end SocialActivities.Social.Py
