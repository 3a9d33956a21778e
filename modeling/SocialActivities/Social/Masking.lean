import SocialActivities.Lib.Overlap
import SocialActivities.Social.Coordinated

/-!
# `SocialActivities.Social.Masking`: what the coordination detector finds

Both detectors report the same authors with the same posts and the same number of flaggers
(`coordinated_perm`). They report an author exactly when some two flaggers share at least three of
the author's posts, and share every post that any other such two share (`reported_iff`).

So one group of flaggers masks another: two groups that share different posts have no flagger in
common that covers all of them, and neither is reported (`masked_groups`). `detection_iff` says when
detection is complete, and when further flags leave a reported author reported.

The proofs read a map of flaggers through `Go.postsOf`, as a family of sets (`Lib.Overlap`).
-/

namespace SocialActivities.Social

open Lib
open Lib.Overlap (Pair Shared Covers Greatest)
open Go (postsOf)

/-! ### The shared posts -/

theorem mem_shareWith (shared : Nat → Nat → Finset Nat) (i x : Nat) (rest : List Nat)
    (common : Finset Nat) :
    x ∈ rest.foldl (fun common j =>
      if 3 ≤ (shared i j).card then common ∪ shared i j else common) common ↔
        x ∈ common ∨ ∃ j ∈ rest, 3 ≤ (shared i j).card ∧ x ∈ shared i j := by
  induction rest generalizing common with
  | nil => simp
  | cons j rest ih =>
    rw [List.foldl_cons, ih]
    by_cases hcard : 3 ≤ (shared i j).card
    · simp only [hcard, if_true, Finset.mem_union, List.exists_mem_cons_iff, true_and, or_assoc]
    · simp only [hcard, if_false, List.exists_mem_cons_iff, false_and, false_or]

theorem mem_eachPair {shared : Nat → Nat → Finset Nat} (hsymm : ∀ i j, shared i j = shared j i)
    {heavy : List Nat} (hnodup : heavy.Nodup) (common : Finset Nat) (x : Nat) :
    x ∈ eachPair shared common heavy ↔ x ∈ common ∨
      ∃ i ∈ heavy, ∃ j ∈ heavy, i ≠ j ∧ 3 ≤ (shared i j).card ∧ x ∈ shared i j := by
  induction heavy generalizing common with
  | nil => simp [eachPair]
  | cons i rest ih =>
    have ⟨hi, hrest⟩ := List.nodup_cons.mp hnodup
    rw [eachPair, ih hrest, mem_shareWith, or_assoc]
    refine or_congr_right ?_
    constructor
    · rintro (⟨j, hj, hshared⟩ | ⟨j, hj, k, hk, hshared⟩)
      · exact ⟨i, List.mem_cons_self, j, List.mem_cons_of_mem _ hj,
          fun heq => hi (heq ▸ hj), hshared⟩
      · exact ⟨j, List.mem_cons_of_mem _ hj, k, List.mem_cons_of_mem _ hk, hshared⟩
    · -- A pair is the first member and a later one, in either order, or two later ones.
      intro ⟨j, hj, k, hk, hne, hshared⟩
      rcases List.mem_cons.mp hj with rfl | hjrest
      · have hkrest : k ∈ rest := (List.mem_cons.mp hk).resolve_left (Ne.symm hne)
        exact Or.inl ⟨k, hkrest, hshared⟩
      · rcases List.mem_cons.mp hk with rfl | hkrest
        · rw [hsymm] at hshared
          exact Or.inl ⟨j, hjrest, hshared⟩
        · exact Or.inr ⟨j, hjrest, k, hkrest, hne, hshared⟩

variable {users : FlaggerPosts}

theorem postsOf_of_get? {user : Nat} {posts : Finset Nat} (h : users.get? user = some posts) :
    postsOf users user = posts := by
  rw [postsOf, h, Option.getD_some]

theorem get?_of_mem_postsOf {user x : Nat} (h : x ∈ postsOf users user) :
    users.get? user = some (postsOf users user) := by
  cases hget : users.get? user with
  | none =>
    rw [postsOf, hget] at h
    simp at h
  | some => rw [postsOf_of_get? hget]

/-- The posts that two flaggers share belong to heavy flaggers. -/
theorem mem_of_shared {heavy : List Nat} {shared : Nat → Nat → Finset Nat}
    (hheavy : ∀ i, i ∈ heavy ↔ 3 ≤ (postsOf users i).card)
    (hshared : ∀ i ∈ heavy, ∀ j ∈ heavy, shared i j = postsOf users i ∩ postsOf users j)
    (x : Nat) :
    (∃ i ∈ heavy, ∃ j ∈ heavy, i ≠ j ∧ 3 ≤ (shared i j).card ∧ x ∈ shared i j) ↔
      Shared (postsOf users) 3 x := by
  constructor
  · intro ⟨i, hi, j, hj, hne, hcard, hx⟩
    rw [hshared i hi j hj] at hcard hx
    exact ⟨i, j, ⟨hne, hcard⟩, hx⟩
  · intro ⟨i, j, ⟨hne, hcard⟩, hx⟩
    have hi : i ∈ heavy :=
      (hheavy i).mpr (hcard.trans (Finset.card_le_card Finset.inter_subset_left))
    have hj : j ∈ heavy :=
      (hheavy j).mpr (hcard.trans (Finset.card_le_card Finset.inter_subset_right))
    rw [← hshared i hi j hj] at hcard hx
    exact ⟨i, hi, j, hj, hne, hcard, hx⟩

namespace Go

/-- The heavy flaggers, in order. -/
def heavy (users : FlaggerPosts) : List Nat :=
  (users.keysWhere fun _ posts => 3 ≤ posts.card).insertionSort (· ≤ ·)

/-- The posts that `coordinatedPosts` collects. -/
def common (users : FlaggerPosts) : Finset Nat :=
  eachPair (fun i j => (postsOf users i).filter fun pid => pid ∈ postsOf users j) ∅ (heavy users)

theorem mem_heavy (users : FlaggerPosts) (i : Nat) :
    i ∈ heavy users ↔ 3 ≤ (postsOf users i).card := by
  rw [heavy, (List.perm_insertionSort _ _).mem_iff, KeyMap.mem_keysWhere]
  constructor
  · intro ⟨posts, hget, hcard⟩
    rw [postsOf_of_get? hget]
    simpa using hcard
  · intro hcard
    have ⟨x, hx⟩ := Finset.card_pos.mp (Nat.lt_of_lt_of_le (by decide) hcard)
    exact ⟨_, get?_of_mem_postsOf hx, by simpa using hcard⟩

theorem mem_common (users : FlaggerPosts) (x : Nat) :
    x ∈ common users ↔ Shared (postsOf users) 3 x := by
  have hnodup : (heavy users).Nodup :=
    (List.perm_insertionSort _ _).nodup_iff.mpr (KeyMap.nodup_keysWhere _ _)
  have hshared : ∀ i j, (postsOf users i).filter (fun pid => pid ∈ postsOf users j) =
      postsOf users i ∩ postsOf users j := fun i j => Finset.filter_mem_eq_inter
  have hsymm : ∀ i j, (postsOf users i).filter (fun pid => pid ∈ postsOf users j) =
      (postsOf users j).filter fun pid => pid ∈ postsOf users i := by
    intro i j
    rw [hshared, hshared, Finset.inter_comm]
  rw [common, mem_eachPair hsymm hnodup,
    mem_of_shared (mem_heavy users) (fun i _ j _ => hshared i j)]
  simp

theorem mem_overlap (hsome : ∃ x, Shared (postsOf users) 3 x) (i : Nat) :
    i ∈ users.keysWhere (fun _ posts => common users ⊆ posts) ↔ Covers (postsOf users) 3 i := by
  rw [KeyMap.mem_keysWhere]
  constructor
  · intro ⟨posts, hget, hcovers⟩ x hx
    rw [postsOf_of_get? hget]
    exact (of_decide_eq_true hcovers) ((mem_common users x).mpr hx)
  · intro hcovers
    have ⟨x, hx⟩ := hsome
    refine ⟨_, get?_of_mem_postsOf (hcovers x hx), decide_eq_true fun y hy => ?_⟩
    exact hcovers y ((mem_common users y).mp hy)

theorem coordinatedPosts_eq (users : FlaggerPosts) : coordinatedPosts users =
    if common users = ∅ then ([], 0)
    else if users.count (fun _ posts => common users ⊆ posts) < 2 then ([], 0)
    else ((common users).sort, users.count fun _ posts => common users ⊆ posts) := rfl

theorem two_le_length {l : List Nat} (h : l.Nodup) :
    2 ≤ l.length ↔ ∃ i ∈ l, ∃ j ∈ l, i ≠ j := by
  have hcard : l.toFinset.card = l.length := List.toFinset_card_of_nodup h
  have htwo := Finset.one_lt_card (s := l.toFinset)
  simp only [List.mem_toFinset, hcard] at htwo
  exact htwo

/-- `coordinatedPosts` finds posts exactly when the posts that pairs of flaggers share have a greatest
set. -/
theorem found_iff (users : FlaggerPosts) :
    (coordinatedPosts users).1 ≠ [] ↔ ∃ i j, Greatest (postsOf users) 3 i j := by
  rw [coordinatedPosts_eq]
  by_cases hempty : common users = ∅
  · -- No two flaggers share three posts.
    rw [if_pos hempty]
    constructor
    · intro h
      exact absurd rfl h
    · intro ⟨i, j, hpair, _⟩
      have ⟨x, hx⟩ := Finset.card_pos.mp (Nat.lt_of_lt_of_le (by decide) hpair.2)
      have hmem : x ∈ common users := (mem_common users x).mpr ⟨i, j, hpair, hx⟩
      rw [hempty] at hmem
      simp at hmem
  · rw [if_neg hempty]
    have ⟨x, hx⟩ := Finset.nonempty_iff_ne_empty.mpr hempty
    have hsome : ∃ x, Shared (postsOf users) 3 x := ⟨x, (mem_common users x).mp hx⟩
    have ⟨_, k, l, hpair, _⟩ := hsome
    have htwo : 2 ≤ users.count (fun _ posts => common users ⊆ posts) ↔
        ∃ i j, Greatest (postsOf users) 3 i j := by
      rw [KeyMap.count_eq_length_keysWhere, two_le_length (KeyMap.nodup_keysWhere _ _),
        ← Overlap.covered_twice_iff ⟨k, l, hpair⟩]
      simp only [mem_overlap hsome]
      constructor
      · intro ⟨i, hi, j, hj, hne⟩
        exact ⟨i, j, hne, hi, hj⟩
      · intro ⟨i, j, hne, hi, hj⟩
        exact ⟨i, hi, j, hj, hne⟩
    rw [← htwo]
    split
    · next hfew =>
      simp only [ne_eq, not_true_eq_false, false_iff]
      omega
    · next hmany =>
      have hlength := Finset.length_sort (s := common users) (· ≤ ·)
      have hpos : 0 < (common users).card := Finset.card_pos.mpr ⟨x, hx⟩
      constructor
      · intro _
        omega
      · intro _ hnil
        have hzero := hlength.symm.trans (List.length_eq_zero_iff.mpr hnil)
        omega

theorem two_le_of_found {users : FlaggerPosts} (h : (coordinatedPosts users).1 ≠ []) :
    2 ≤ (coordinatedPosts users).2 := by
  rw [coordinatedPosts_eq] at h ⊢
  split
  · next hempty => simp [hempty] at h
  · next hempty =>
    split
    · next hfew => simp [hempty, hfew] at h
    · next hmany => exact Nat.le_of_not_lt hmany

theorem coordinatedPosts_congr {users users' : FlaggerPosts}
    (h : ∀ u, users.get? u = users'.get? u) : coordinatedPosts users = coordinatedPosts users' := by
  have hposts : postsOf users = postsOf users' := by
    funext u
    rw [postsOf, postsOf, h u]
  have hcommon : common users = common users' := by
    ext x
    rw [mem_common, mem_common, hposts]
  have hcount : users.count (fun _ posts => common users' ⊆ posts) =
      users'.count (fun _ posts => common users' ⊆ posts) := by
    refine Nat.le_antisymm ?_ ?_
    · exact KeyMap.count_le_of_keys fun u posts hget hp => ⟨posts, h u ▸ hget, hp⟩
    · exact KeyMap.count_le_of_keys fun u posts hget hp => ⟨posts, (h u).symm ▸ hget, hp⟩
  rw [coordinatedPosts_eq, coordinatedPosts_eq, hcommon, hcount]

end Go

namespace Py

/-- The posts that the loop over the pairs collects. -/
def commonPosts (users : FlaggerPosts) : Finset Nat :=
  let heavy := users.removeIf fun _ posts => posts.card < 3
  eachPair (fun i j => (heavy.get? i).getD ∅ ∩ (heavy.get? j).getD ∅) ∅
    (heavy.entries.map Prod.fst)

theorem commonPosts_eq (users : FlaggerPosts) : commonPosts users = Go.common users := by
  have hget : ∀ i, (users.removeIf fun _ posts => posts.card < 3).get? i =
      (users.get? i).filter fun posts => !decide (posts.card < 3) := by
    intro i
    rw [KeyMap.get?_removeIf]
  have hheavy : ∀ i, i ∈ (users.removeIf fun _ posts => posts.card < 3).entries.map Prod.fst ↔
      3 ≤ (postsOf users i).card := by
    intro i
    rw [KeyMap.mem_keys_iff, hget, postsOf]
    cases users.get? i with
    | none => simp
    | some => simp [Option.filter]
  have hposts : ∀ i, 3 ≤ (postsOf users i).card →
      ((users.removeIf fun _ posts => posts.card < 3).get? i).getD ∅ = postsOf users i := by
    intro i hcard
    rw [hget, postsOf]
    rw [postsOf] at hcard
    cases hi : users.get? i with
    | none => rfl
    | some =>
      rw [hi, Option.getD_some] at hcard
      simp [Option.filter, Nat.not_lt.mpr hcard]
  ext x
  rw [commonPosts, Go.mem_common, mem_eachPair (fun i j => Finset.inter_comm _ _)
    (KeyMap.nodup _), mem_of_shared hheavy]
  · simp
  · intro i hi j hj
    rw [hposts i ((hheavy i).mp hi), hposts j ((hheavy j).mp hj)]

theorem overlapping_eq (users : FlaggerPosts) :
    (overlapping users).map (fun found => (found.1.sort, found.2.length)) =
      if (Go.coordinatedPosts users).1.length = 0 then none
      else some (Go.coordinatedPosts users) := by
  have hover : overlapping users =
      if commonPosts users = ∅ then none
      else if (users.keysWhere fun _ posts => commonPosts users ⊆ posts).length < 2 then none
      else some (commonPosts users, users.keysWhere fun _ posts => commonPosts users ⊆ posts) := rfl
  rw [hover, commonPosts_eq, Go.coordinatedPosts_eq, KeyMap.count_eq_length_keysWhere]
  by_cases hempty : Go.common users = ∅
  · simp [hempty]
  · by_cases hfew :
        (users.keysWhere fun _ posts => decide (Go.common users ⊆ posts)).length < 2
    · simp [hempty, hfew]
    · simp [hempty, hfew]

end Py

/-! ### Flags under their author and flagger -/

/-- The posts of an author that a user has flagged. -/
def flagged (flags : List Flag) (author user : Nat) : Finset Nat :=
  ((flags.filter fun f => f.author = author ∧ f.user = user).map Flag.post).toFinset

variable {flags : List Flag}

theorem mem_flagged {author user post : Nat} :
    post ∈ flagged flags author user ↔ ⟨author, user, post⟩ ∈ flags := by
  simp only [flagged, List.mem_toFinset, List.mem_map, List.mem_filter, decide_eq_true_eq]
  constructor
  · rintro ⟨⟨_, _, _⟩, ⟨hmem, rfl, rfl⟩, rfl⟩
    exact hmem
  · intro hmem
    exact ⟨_, ⟨hmem, rfl, rfl⟩, rfl⟩

/-- The posts under an author and a flagger. -/
def postsAt (authors : KeyMap Nat FlaggerPosts) (author : Nat) : Nat → Finset Nat :=
  postsOf ((authors.get? author).getD KeyMap.empty)

/-- The map holds the flags, and a flagger in it has a flagged post. -/
structure Grouped (flags : List Flag) (authors : KeyMap Nat FlaggerPosts) : Prop where
  posts : ∀ author user post,
    post ∈ postsAt authors author user ↔ ⟨author, user, post⟩ ∈ flags
  full : ∀ author users user posts, authors.get? author = some users →
    users.get? user = some posts → posts.Nonempty

theorem grouped_empty : Grouped [] KeyMap.empty where
  posts author user post := by
    simp [postsAt, postsOf, KeyMap.empty, KeyMap.get?]
  full author users user posts h := by cases h

theorem postsAt_flag (authors : KeyMap Nat FlaggerPosts) (f : Flag) (author user : Nat) :
    postsAt (flag authors f) author user =
      if author = f.author ∧ user = f.user then insert f.post (postsAt authors author user)
      else postsAt authors author user := by
  rw [postsAt, postsAt, flag, KeyMap.get?_set]
  by_cases hauthor : author = f.author
  · subst hauthor
    rw [if_pos rfl, Option.getD_some]
    show ((KeyMap.set _ f.user _).get? user).getD ∅ = _
    rw [KeyMap.get?_set]
    by_cases huser : user = f.user
    · subst huser
      rw [if_pos rfl, if_pos ⟨rfl, rfl⟩, Option.getD_some]
      rfl
    · rw [if_neg huser, if_neg fun h => huser h.2]
      rfl
  · rw [if_neg hauthor, if_neg fun h => hauthor h.1]

variable {authors : KeyMap Nat FlaggerPosts}

theorem grouped_flag {authors : KeyMap Nat FlaggerPosts}
    (h : Grouped flags authors) (f : Flag) : Grouped (flags ++ [f]) (flag authors f) where
  posts author user post := by
    rw [postsAt_flag, List.mem_append, List.mem_singleton, ← h.posts author user post]
    by_cases hsame : author = f.author ∧ user = f.user
    · have ⟨hauthor, huser⟩ := hsame
      subst hauthor huser
      rw [if_pos ⟨rfl, rfl⟩, Finset.mem_insert, or_comm]
      refine or_congr_right ?_
      constructor
      · rintro rfl
        rfl
      · intro heq
        rw [← heq]
    · rw [if_neg hsame]
      constructor
      · exact Or.inl
      · rintro (hmem | rfl)
        · exact hmem
        · exact absurd ⟨rfl, rfl⟩ hsame
  full author users user posts hauthor huser := by
    rw [flag, KeyMap.get?_set] at hauthor
    split at hauthor
    · cases hauthor
      rw [KeyMap.get?_set] at huser
      split at huser
      · cases huser
        exact Finset.insert_nonempty _ _
      · cases hold : authors.get? f.author with
        | none =>
          rw [hold] at huser
          cases huser
        | some old =>
          rw [hold, Option.getD_some] at huser
          exact h.full f.author old user posts hold huser
    · exact h.full author users user posts hauthor huser

theorem grouped_foldl {authors : KeyMap Nat FlaggerPosts}
    (h : Grouped flags authors) (rows : List Flag) :
    Grouped (flags ++ rows) (rows.foldl flag authors) := by
  induction rows generalizing flags authors with
  | nil => simpa using h
  | cons f rows ih =>
    rw [List.append_cons]
    exact ih (grouped_flag h f)

theorem Grouped.perm {flags' : List Flag}
    (h : Grouped flags authors) (hperm : flags.Perm flags') : Grouped flags' authors :=
  ⟨fun author user post => (h.posts author user post).trans hperm.mem_iff, h.full⟩

theorem Go.grouped_authors (concerns dissents : List Flag) :
    Grouped (concerns ++ dissents) (Go.authors concerns dissents) :=
  (grouped_foldl grouped_empty _).perm (List.perm_insertionSort _ _)

theorem Py.grouped_byAuthor (concerns dissents : List Flag) :
    Grouped (concerns ++ dissents) (Py.byAuthor concerns dissents) :=
  grouped_foldl (grouped_foldl grouped_empty concerns) dissents

namespace Grouped

variable {flags : List Flag} {authors authors' : KeyMap Nat FlaggerPosts}

theorem postsOf_eq (h : Grouped flags authors) {author : Nat} {users : FlaggerPosts}
    (hauthor : authors.get? author = some users) : postsOf users = flagged flags author := by
  funext user
  ext post
  have hposts := h.posts author user post
  rw [postsAt, hauthor, Option.getD_some] at hposts
  rw [hposts, mem_flagged]

theorem get?_eq (h : Grouped flags authors) (h' : Grouped flags authors') {author : Nat}
    {users users' : FlaggerPosts} (hauthor : authors.get? author = some users)
    (hauthor' : authors'.get? author = some users') (user : Nat) :
    users.get? user = users'.get? user := by
  have hposts : postsOf users = postsOf users' :=
    (h.postsOf_eq hauthor).trans (h'.postsOf_eq hauthor').symm
  cases huser : users.get? user with
  | some posts =>
    have ⟨x, hx⟩ := h.full author users user posts hauthor huser
    rw [← postsOf_of_get? huser, hposts] at hx ⊢
    exact (get?_of_mem_postsOf hx).symm
  | none =>
    cases huser' : users'.get? user with
    | none => rfl
    | some posts =>
      have ⟨x, hx⟩ := h'.full author users' user posts hauthor' huser'
      rw [← postsOf_of_get? huser', ← hposts] at hx
      rw [get?_of_mem_postsOf hx] at huser
      cases huser

theorem exists_get? (h : Grouped flags authors) {f : Flag} (hf : f ∈ flags) :
    ∃ users, authors.get? f.author = some users := by
  have hposts := (h.posts f.author f.user f.post).mpr hf
  cases hauthor : authors.get? f.author with
  | none =>
    rw [postsAt, hauthor, Option.getD_none, postsOf, KeyMap.get?_empty] at hposts
    simp at hposts
  | some users => exact ⟨users, rfl⟩

end Grouped

/-! ### The reports -/

theorem Go.mem_coordinated {concerns dissents : List Flag} {r : CoordinatedReport} :
    r ∈ Go.coordinated concerns dissents ↔
      ∃ users, (Go.authors concerns dissents).get? r.author = some users ∧
        (Go.coordinatedPosts users).1 ≠ [] ∧ Go.coordinatedPosts users = (r.posts, r.size) := by
  rw [Go.coordinated, List.mem_filterMap]
  constructor
  · intro ⟨⟨author, users⟩, hmem, hfound⟩
    dsimp only at hfound
    split at hfound
    · cases hfound
    · next hlength =>
      cases hfound
      exact ⟨users, KeyMap.mem_entries_iff.mp hmem,
        fun hnil => hlength (List.length_eq_zero_iff.mpr hnil), rfl⟩
  · intro ⟨users, hget, hfound, heq⟩
    refine ⟨(r.author, users), KeyMap.mem_entries_iff.mpr hget, ?_⟩
    dsimp only
    rw [if_neg fun hlength => hfound (List.length_eq_zero_iff.mp hlength), heq]

theorem Py.mem_sensorCoordinated {concerns dissents : List Flag} {r : CoordinatedReport} :
    r ∈ Py.sensorCoordinated concerns dissents ↔
      ∃ users, (Py.byAuthor concerns dissents).get? r.author = some users ∧
        (Go.coordinatedPosts users).1 ≠ [] ∧ Go.coordinatedPosts users = (r.posts, r.size) := by
  have hreport : ∀ author users, (Py.overlapping users).map
      (fun found => CoordinatedReport.mk author found.1.sort found.2.length) =
        if (Go.coordinatedPosts users).1.length = 0 then none
        else some ⟨author, (Go.coordinatedPosts users).1, (Go.coordinatedPosts users).2⟩ := by
    intro author users
    have heq := congrArg (Option.map fun found : List Nat × Nat =>
      CoordinatedReport.mk author found.1 found.2) (Py.overlapping_eq users)
    rw [Option.map_map] at heq
    refine Eq.trans heq ?_
    split <;> rfl
  rw [Py.sensorCoordinated, List.mem_filterMap]
  constructor
  · intro ⟨⟨author, users⟩, hmem, hfound⟩
    rw [hreport] at hfound
    split at hfound
    · cases hfound
    · next hlength =>
      cases hfound
      exact ⟨users, KeyMap.mem_entries_iff.mp hmem,
        fun hnil => hlength (List.length_eq_zero_iff.mpr hnil), rfl⟩
  · intro ⟨users, hget, hfound, heq⟩
    refine ⟨(r.author, users), KeyMap.mem_entries_iff.mpr hget, ?_⟩
    rw [hreport, if_neg fun hlength => hfound (List.length_eq_zero_iff.mp hlength), heq]

/-- What the flaggers of an author have in common is found from any map of the flags. -/
theorem found_of_grouped {flags : List Flag} {authors authors' : KeyMap Nat FlaggerPosts}
    (h : Grouped flags authors) (h' : Grouped flags authors') {author : Nat}
    {users : FlaggerPosts} (hget : authors.get? author = some users)
    (hfound : (Go.coordinatedPosts users).1 ≠ []) :
    ∃ users', authors'.get? author = some users' ∧
      Go.coordinatedPosts users' = Go.coordinatedPosts users := by
  have ⟨i, j, hpair, _⟩ := (Go.found_iff users).mp hfound
  have ⟨x, hx⟩ := Finset.card_pos.mp (Nat.lt_of_lt_of_le (by decide) hpair.2)
  rw [h.postsOf_eq hget, Finset.mem_inter, mem_flagged] at hx
  have ⟨users', hget'⟩ := h'.exists_get? hx.1
  exact ⟨users', hget', Go.coordinatedPosts_congr (h'.get?_eq h hget' hget)⟩

private theorem nodup_reports (authors : KeyMap Nat FlaggerPosts)
    {report : Nat × FlaggerPosts → Option CoordinatedReport}
    (hauthor : ∀ e r, report e = some r → r.author = e.1) :
    (authors.entries.filterMap report).Nodup := by
  refine (List.pairwise_map.mp authors.nodup).filterMap report fun e e' hne r hr r' hr' heq => ?_
  exact hne (by rw [← hauthor e r hr, ← hauthor e' r' hr', heq])

theorem coordinated_perm (concerns dissents : List Flag) :
    (Go.coordinated concerns dissents).Perm (Py.sensorCoordinated concerns dissents) := by
  have hgo : (Go.coordinated concerns dissents).Nodup := by
    refine nodup_reports _ fun e r hr => ?_
    dsimp only at hr
    split at hr
    · cases hr
    · cases hr
      rfl
  have hpy : (Py.sensorCoordinated concerns dissents).Nodup := by
    refine nodup_reports _ fun e r hr => ?_
    have ⟨found, _, heq⟩ := Option.map_eq_some_iff.mp hr
    rw [← heq]
  rw [List.perm_ext_iff_of_nodup hgo hpy]
  intro r
  rw [Go.mem_coordinated, Py.mem_sensorCoordinated]
  constructor
  · intro ⟨users, hget, hfound, heq⟩
    have ⟨users', hget', hsame⟩ := found_of_grouped (Go.grouped_authors concerns dissents)
      (Py.grouped_byAuthor concerns dissents) hget hfound
    exact ⟨users', hget', hsame ▸ hfound, hsame.trans heq⟩
  · intro ⟨users, hget, hfound, heq⟩
    have ⟨users', hget', hsame⟩ := found_of_grouped (Py.grouped_byAuthor concerns dissents)
      (Go.grouped_authors concerns dissents) hget hfound
    exact ⟨users', hget', hsame ▸ hfound, hsame.trans heq⟩

/-- The author is reported, with a set of at least two flaggers. -/
def Reported (reports : List CoordinatedReport) (author : Nat) : Prop :=
  ∃ r ∈ reports, r.author = author ∧ 2 ≤ r.size

/-- An author is reported exactly when two flaggers share at least three of the author's posts, and
every post that any other such two share. -/
theorem reported_iff (concerns dissents : List Flag) (author : Nat) :
    Reported (Go.coordinated concerns dissents) author ↔
      ∃ u v, Greatest (flagged (concerns ++ dissents) author) 3 u v := by
  have hgrouped := Go.grouped_authors concerns dissents
  constructor
  · intro ⟨r, hr, hauthor, _⟩
    have ⟨users, hget, hfound, _⟩ := Go.mem_coordinated.mp hr
    rw [hauthor] at hget
    rw [← hgrouped.postsOf_eq hget]
    exact (Go.found_iff users).mp hfound
  · intro ⟨u, v, hgreatest⟩
    have ⟨x, hx⟩ := Finset.card_pos.mp (Nat.lt_of_lt_of_le (by decide) hgreatest.1.2)
    rw [Finset.mem_inter, mem_flagged] at hx
    have ⟨users, hget⟩ := hgrouped.exists_get? hx.1
    have hfound : (Go.coordinatedPosts users).1 ≠ [] := by
      rw [Go.found_iff, hgrouped.postsOf_eq hget]
      exact ⟨u, v, hgreatest⟩
    exact ⟨⟨author, _, _⟩, Go.mem_coordinated.mpr ⟨users, hget, hfound, rfl⟩, rfl,
      Go.two_le_of_found hfound⟩

/-! ### When detection is complete, and when it is monotone -/

/-- Two flaggers share at least three posts of the author. -/
def Coordinated (flags : List Flag) (author : Nat) : Prop :=
  ∃ u v, Pair (flagged flags author) 3 u v

/-- Two such flaggers share every post that any two such flaggers share. -/
def Unmasked (flags : List Flag) (author : Nat) : Prop :=
  ∃ u v, Greatest (flagged flags author) 3 u v

/-- Both detectors make the same reports. They report an author whose posts two flaggers share
exactly where no other such two share another post; and further flags leave a reported author
reported exactly where this still holds after them. -/
theorem detection_iff (concerns dissents moreConcerns moreDissents : List Flag) (author : Nat) :
    (Go.coordinated concerns dissents).Perm (Py.sensorCoordinated concerns dissents) ∧
    ((Coordinated (concerns ++ dissents) author →
        Reported (Go.coordinated concerns dissents) author) ↔
      (Coordinated (concerns ++ dissents) author → Unmasked (concerns ++ dissents) author)) ∧
    ((Reported (Go.coordinated concerns dissents) author →
        Reported (Go.coordinated (concerns ++ moreConcerns) (dissents ++ moreDissents)) author) ↔
      (Unmasked (concerns ++ dissents) author →
        Unmasked ((concerns ++ moreConcerns) ++ (dissents ++ moreDissents)) author)) := by
  refine ⟨coordinated_perm concerns dissents, ?_, ?_⟩
  · rw [reported_iff]
    rfl
  · rw [reported_iff, reported_iff]
    rfl

/-- Two members flag the same three posts of an author. -/
def oneGroup : List Flag :=
  [⟨9, 1, 11⟩, ⟨9, 1, 12⟩, ⟨9, 1, 13⟩, ⟨9, 2, 11⟩, ⟨9, 2, 12⟩, ⟨9, 2, 13⟩]

/-- Two other members flag three other posts. -/
def otherGroup : List Flag :=
  [⟨9, 3, 14⟩, ⟨9, 3, 15⟩, ⟨9, 3, 16⟩, ⟨9, 4, 14⟩, ⟨9, 4, 15⟩, ⟨9, 4, 16⟩]

/-- One group is reported. With the flags of the other one, neither is. -/
theorem masked_groups :
    Reported (Go.coordinated oneGroup []) 9 ∧
    Coordinated (oneGroup ++ otherGroup) 9 ∧
    ¬Reported (Go.coordinated (oneGroup ++ otherGroup) []) 9 ∧
    ¬Reported (Py.sensorCoordinated (oneGroup ++ otherGroup) []) 9 := by
  have hone : Greatest (flagged (oneGroup ++ []) 9) 3 1 2 := by
    refine ⟨⟨by decide, by decide⟩, fun k l _ x hx => ?_⟩
    have hx := mem_flagged.mp (Finset.mem_inter.mp hx).1
    rw [Finset.mem_inter, mem_flagged, mem_flagged]
    simp [oneGroup] at hx ⊢
    omega
  have hnone : Go.coordinated (oneGroup ++ otherGroup) [] = [] := by decide +kernel
  refine ⟨(reported_iff _ _ _).mpr ⟨1, 2, hone⟩, ⟨1, 2, by decide, by decide⟩, ?_, ?_⟩
  · rw [hnone]
    rintro ⟨r, hr, _⟩
    cases hr
  · have hpy := coordinated_perm (oneGroup ++ otherGroup) []
    rw [hnone] at hpy
    rw [List.nil_perm.mp hpy]
    rintro ⟨r, hr, _⟩
    cases hr

end SocialActivities.Social
