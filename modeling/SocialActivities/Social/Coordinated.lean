import Mathlib.Data.Finset.Sort
import Mathlib.Data.List.Sort
import SocialActivities.Lib.KeyMap

/-!
# `SocialActivities.Social.Coordinated`: the detection of coordinated flagging

Members that flag the same three posts of one author may have agreed to. The detector reads the
concerns and dissents of its window, groups the flagged posts by author and flagger, and looks for
flaggers that share posts: `coordinated` and `coordinatedPosts` of the Go server and
`_sensor_coordinated` of the Python services. What it reports goes to the moderators. The review it
opens, unless one is open for the author, is left out.

`common` are the posts that some two flaggers share, over all pairs that share at least three. The
overlapping set are the flaggers that flagged all of them. An author is reported if it has at least
two members.
-/

namespace SocialActivities.Social

open Lib

/-- A row of the window: who flagged which post of which author. -/
structure Flag where
  author : Nat
  user : Nat
  post : Nat
  deriving DecidableEq

/-- `flaggerPosts`: the posts that each flagger of one author has flagged. -/
abbrev FlaggerPosts := KeyMap Nat (Finset Nat)

/-- The payload of the review, apart from the length of the window. -/
structure CoordinatedReport where
  author : Nat
  posts : List Nat
  size : Nat
  deriving DecidableEq

/-- A flag is put under its author and its user. -/
def flag (authors : KeyMap Nat FlaggerPosts) (f : Flag) : KeyMap Nat FlaggerPosts :=
  let users := (authors.get? f.author).getD KeyMap.empty
  let posts := (users.get? f.user).getD ∅
  authors.set f.author (users.set f.user (insert f.post posts))

/-- The loop over the pairs of heavy flaggers, from what was collected so far. -/
def eachPair (shared : Nat → Nat → Finset Nat) : Finset Nat → List Nat → Finset Nat
  | common, [] => common
  | common, i :: rest =>
    let next := rest.foldl (fun common j =>
      if 3 ≤ (shared i j).card then common ∪ shared i j else common) common
    eachPair shared next rest

namespace Go

/-- `users[heavy[i]]`; the posts of a user without an entry are a nil map. -/
def postsOf (users : FlaggerPosts) (user : Nat) : Finset Nat := (users.get? user).getD ∅

def coordinatedPosts (users : FlaggerPosts) : List Nat × Nat :=
  let heavy := (users.keysWhere fun _ posts => 3 ≤ posts.card).insertionSort (· ≤ ·)
  let common := eachPair
    (fun i j => (postsOf users i).filter fun pid => pid ∈ postsOf users j) ∅ heavy
  if common = ∅ then ([], 0)
  else
    let overlap := users.count fun _ posts => common ⊆ posts
    if overlap < 2 then ([], 0) else (common.sort, overlap)

/-- `ORDER BY p.author_id,c.user_id,c.post_id`. -/
def rowLe (f g : Flag) : Prop :=
  f.author < g.author ∨ f.author = g.author ∧
    (f.user < g.user ∨ f.user = g.user ∧ f.post ≤ g.post)

instance : DecidableRel rowLe := fun f g =>
  inferInstanceAs (Decidable (f.author < g.author ∨ f.author = g.author ∧
    (f.user < g.user ∨ f.user = g.user ∧ f.post ≤ g.post)))

/-- The loop of `coordinated` over the rows of its query, which unites the two tables. -/
def authors (concerns dissents : List Flag) : KeyMap Nat FlaggerPosts :=
  ((concerns ++ dissents).insertionSort rowLe).foldl flag KeyMap.empty

def coordinated (concerns dissents : List Flag) : List CoordinatedReport :=
  (authors concerns dissents).entries.filterMap fun entry =>
    let found := coordinatedPosts entry.2
    if found.1.length = 0 then none else some ⟨entry.1, found.1, found.2⟩

end Go

namespace Py

def byAuthor (concerns dissents : List Flag) : KeyMap Nat FlaggerPosts :=
  dissents.foldl flag (concerns.foldl flag KeyMap.empty)

/-- The body of the loop of `_sensor_coordinated`: the shared posts and the overlapping set. -/
def overlapping (flaggerPosts : FlaggerPosts) : Option (Finset Nat × List Nat) :=
  let heavy := flaggerPosts.removeIf fun _ posts => posts.card < 3
  let heavyIds := heavy.entries.map Prod.fst
  let commonPosts := eachPair
    (fun i j => (heavy.get? i).getD ∅ ∩ (heavy.get? j).getD ∅) ∅ heavyIds
  if commonPosts = ∅ then none
  else
    let overlap := flaggerPosts.keysWhere fun _ posts => commonPosts ⊆ posts
    if overlap.length < 2 then none else some (commonPosts, overlap)

def sensorCoordinated (concerns dissents : List Flag) : List CoordinatedReport :=
  (byAuthor concerns dissents).entries.filterMap fun entry =>
    (overlapping entry.2).map fun found => ⟨entry.1, found.1.sort, found.2.length⟩

end Py

end SocialActivities.Social
