import Mathlib.Data.List.Dedup
import Mathlib.Data.List.Sort
import Mathlib.Data.String.Basic
import SocialActivities.Lib.KeyMap
import SocialActivities.Lib.Latch

/-!
# `SocialActivities.Social.Appreciation`: the footer of a post

A footer holds what the daily runs derive from the reactions to a post: the facets that are latched,
each with the day on which it latched, and the facets that are permanent. `appreciation` of the Go
server and `_recompute_appreciation` of the Python services compute the next footer from the last
one and from the number of reactors of each facet. What the page shows are the first two facets that
are latched or permanent, in the order of the catalog.

Days are numbered as in `Lib.Calendar`. A stored day that does not parse is `none`; both read it as
today. A `Duration` ends at 292 years, which is more than the retention can be.

For each facet both do a step of the latch (`Lib.Latch`): `appreciation_eq` states the footer that
both compute.
-/

namespace SocialActivities.Social

open Lib

/-- `Facets` and the keys of `REACTION_FACETS`. -/
def facets : List String :=
  ["helped_me", "felt_welcome", "made_me_smile", "want_to_come", "got_me_thinking"]

/-- A row of `social_postsentimentfooter`: the latched facets and the permanent ones, and the state
of the weekly dissent. -/
structure Footer where
  pairs : List (String × Option Nat)
  permanent : List String
  dissent : Bool
  hits : Nat
  misses : Nat
  week : String
  deriving DecidableEq

/-- The row as it is inserted. -/
def Footer.blank : Footer := ⟨[], [], false, 0, 0, ""⟩

structure FooterChanges where
  latched : Nat
  unlatched : Nat
  permanent : Nat
  deriving DecidableEq

/-- What a run reads for a post: the reactors of each facet, the threshold of its cohort, its
audience, and the days after which a facet is permanent. -/
structure Counted where
  counts : String → Nat
  k : Nat
  audience : Nat
  retention : Nat

/-- The facets of a footer, what is found so far, and the counters. -/
structure Found where
  pairs : List (String × Option Nat)
  permanent : List String
  changes : FooterChanges
  deriving DecidableEq

/-- The pairs as a map; the last one of a facet counts. -/
def existing (pairs : List (String × Option Nat)) : KeyMap String (Option Nat) :=
  pairs.foldl (fun m pair => m.set pair.1 pair.2) KeyMap.empty

def Found.graduate (found : Found) (slug : String) : Found :=
  { found with
    permanent := slug :: found.permanent
    changes := { found.changes with permanent := found.changes.permanent + 1 } }

def Found.unlatch (found : Found) : Found :=
  { found with changes := { found.changes with unlatched := found.changes.unlatched + 1 } }

def Found.latch (found : Found) : Found :=
  { found with changes := { found.changes with latched := found.changes.latched + 1 } }

def Found.keep (found : Found) (slug : String) (since : Option Nat) : Found :=
  { found with pairs := found.pairs ++ [(slug, since)] }

namespace Go

variable (c : Counted) (today : Nat) (existing : KeyMap String (Option Nat))

/-- The branch of a facet that is kept: it stays, or it is old enough. -/
def keepFacet (found : Found) (slug : String) (since : Option Nat) : Found :=
  let start := since.getD today
  if start + c.retention ≤ today ∧ slug ∉ found.permanent then found.graduate slug
  else found.keep slug (some start)

/-- The body of the loop over the facets. -/
def facet (found : Found) (slug : String) : Found :=
  match existing.get? slug with
  | some since =>
    if c.k ≤ c.counts slug then keepFacet c today found slug since
    else if slug ∈ found.permanent then found
    else if since.getD today + c.retention ≤ today then found.graduate slug
    else found.unlatch
  | none =>
    if c.k ≤ c.counts slug ∧ 2 * c.k ≤ c.audience then
      keepFacet c today found.latch slug (some today)
    else found

def appreciation (footer : Footer) (c : Counted) (today : Nat) : Footer × FooterChanges :=
  let found := facets.foldl (facet c today (Social.existing footer.pairs))
    ⟨[], footer.permanent.dedup, ⟨0, 0, 0⟩⟩
  ({ footer with
      pairs := found.pairs
      permanent := found.permanent.insertionSort (· ≤ ·) }, found.changes)

end Go

namespace Py

variable (c : Counted) (today : Nat) (existing : KeyMap String (Option Nat))

/-- The body of the loop over the catalog; `pairs` are `new_pairs`. -/
def latchFacet (found : Found) (slug : String) : Found :=
  match existing.get? slug with
  | some since =>
    if c.k ≤ c.counts slug then found.keep slug since
    else if slug ∈ found.permanent then found
    else if since.getD today + c.retention ≤ today then found.graduate slug
    else found.unlatch
  | none =>
    if c.k ≤ c.counts slug ∧ 2 * c.k ≤ c.audience then found.latch.keep slug (some today)
    else found

/-- The body of the loop over `new_pairs`; `pairs` are what is left of them. -/
def graduateFacet (found : Found) (pair : String × Option Nat) : Found :=
  let start := pair.2.getD today
  if start + c.retention ≤ today ∧ pair.1 ∉ found.permanent then found.graduate pair.1
  else found.keep pair.1 (some start)

def recomputeAppreciation (footer : Footer) (c : Counted) (today : Nat) :
    Footer × FooterChanges :=
  let latched := facets.foldl (latchFacet c today (Social.existing footer.pairs))
    ⟨[], footer.permanent.dedup, ⟨0, 0, 0⟩⟩
  let found := latched.pairs.foldl (graduateFacet c today) { latched with pairs := [] }
  ({ footer with
      pairs := found.pairs
      permanent := found.permanent.insertionSort (· ≤ ·) }, found.changes)

end Py

/-! ### A step of the latch for each facet -/

/-- What a run reads of one facet. -/
def Counted.reading (c : Counted) (today : Nat) (slug : String) : Latch.Reading where
  starts := c.k ≤ c.counts slug && 2 * c.k ≤ c.audience
  keeps := c.k ≤ c.counts slug
  today := today
  age := c.retention
  keeps_of_starts h := by
    rw [Bool.and_eq_true] at h
    exact h.1

variable {c : Counted} {today : Nat}

/-! ### Loops over different facets -/

/-- What one turn of a loop does for its facet: `out` is the pair that it keeps and `mark` whether
the facet is permanent after it. -/
structure Turned (slug : String) (out : Option (Option Nat)) (mark : Bool) (found found' : Found) :
    Prop where
  pairs : found'.pairs = found.pairs ++ (out.map fun since => (slug, since)).toList
  permanent : ∀ t, t ∈ found'.permanent ↔ t ∈ found.permanent ∨ t = slug ∧ mark = true
  nodup : found.permanent.Nodup → found'.permanent.Nodup

theorem turned_graduate {slug : String} {found found' : Found}
    (hpairs : found'.pairs = found.pairs) (hpermanent : found'.permanent = slug :: found.permanent)
    (hslug : slug ∉ found.permanent) : Turned slug none true found found' where
  pairs := by
    rw [hpairs]
    exact (List.append_nil _).symm
  permanent t := by
    rw [hpermanent, List.mem_cons]
    simp [or_comm]
  nodup h := hpermanent ▸ List.nodup_cons.mpr ⟨hslug, h⟩

theorem turned_keep {slug : String} {out : Option (Option Nat)} {mark : Bool}
    {found found' : Found}
    (hpairs : found'.pairs = found.pairs ++ (out.map fun since => (slug, since)).toList)
    (hsame : found'.permanent = found.permanent)
    (hslug : mark = true → slug ∈ found.permanent) : Turned slug out mark found found' where
  pairs := hpairs
  permanent t := by
    rw [hsame]
    refine ⟨Or.inl, ?_⟩
    rintro (h | ⟨rfl, h⟩)
    · exact h
    · exact hslug h
  nodup h := hsame ▸ h

/-- A loop over different facets: each turn sees its facet as the loop found it. -/
theorem turned_foldl {ε : Type} (key : ε → String) (out : ε → Bool → Option (Option Nat))
    (mark : ε → Bool → Bool) {body : Found → ε → Found}
    (hbody : ∀ found x, Turned (key x) (out x (key x ∈ found.permanent))
      (mark x (key x ∈ found.permanent)) found (body found x))
    {xs : List ε} (hxs : (xs.map key).Nodup) (found : Found) {permanent : List String}
    (hpermanent : ∀ x ∈ xs, key x ∈ found.permanent ↔ key x ∈ permanent) :
    (xs.foldl body found).pairs = found.pairs ++
        xs.filterMap (fun x => (out x (key x ∈ permanent)).map fun since => (key x, since)) ∧
      (∀ t, t ∈ (xs.foldl body found).permanent ↔ t ∈ found.permanent ∨
        ∃ x ∈ xs, t = key x ∧ mark x (key x ∈ permanent) = true) ∧
      (found.permanent.Nodup → (xs.foldl body found).permanent.Nodup) := by
  induction xs generalizing found with
  | nil => simp
  | cons x xs ih =>
    rw [List.map_cons, List.nodup_cons] at hxs
    have hturn := hbody found x
    rw [show decide (key x ∈ found.permanent) = decide (key x ∈ permanent) from
      decide_eq_decide.mpr (hpermanent x List.mem_cons_self)] at hturn
    -- The facets of the later turns are permanent exactly when they were before.
    have hlater : ∀ y ∈ xs, key y ∈ (body found x).permanent ↔ key y ∈ permanent := by
      intro y hy
      rw [hturn.permanent, ← hpermanent y (List.mem_cons_of_mem _ hy)]
      refine ⟨fun h => h.resolve_right fun h' => hxs.1 ?_, Or.inl⟩
      rw [← h'.1]
      exact List.mem_map_of_mem hy
    have ⟨hpairs, hmarks, hnodup⟩ := ih hxs.2 (body found x) hlater
    refine ⟨?_, fun t => ?_, fun h => hnodup (hturn.nodup h)⟩
    · rw [List.foldl_cons, hpairs, hturn.pairs, List.append_assoc, List.filterMap_cons]
      cases out x (decide (key x ∈ permanent)) <;> rfl
    · rw [List.foldl_cons, hmarks, hturn.permanent, List.exists_mem_cons_iff, or_assoc]

theorem due_reading {since : Nat} {slug : String} :
    Latch.due since (c.reading today slug) = true ↔ since + c.retention ≤ today :=
  decide_eq_true_iff

theorem not_due_reading {since : Nat} {slug : String} :
    Latch.due since (c.reading today slug) = false ↔ today < since + c.retention := by
  rw [← Bool.not_eq_true, due_reading, Nat.not_le]

/-- The step of the latch of a facet. -/
def nextLatch (c : Counted) (today : Nat) (ex : KeyMap String (Option Nat)) (slug : String)
    (permanent : Bool) : Latch.State :=
  Latch.step ⟨(ex.get? slug).map (·.getD today), permanent⟩ (c.reading today slug)

/-! ### The loop of the Go server -/

theorem Go.turned_keepFacet {slug : String} {since : Option Nat} {found found' : Found}
    (hpairs : found'.pairs = found.pairs) (hpermanent : found'.permanent = found.permanent) :
    let s := if Latch.due (since.getD today) (c.reading today slug) &&
        !decide (slug ∈ found.permanent) then Latch.State.mk none true
      else ⟨some (since.getD today), slug ∈ found.permanent⟩
    Turned slug (s.since.map some) s.permanent found (Go.keepFacet c today found' slug since) := by
  intro s
  rw [Go.keepFacet, hpermanent]
  by_cases hdue : since.getD today + c.retention ≤ today ∧ slug ∉ found.permanent
  · have hs : s = ⟨none, true⟩ := if_pos (by simpa [due_reading] using hdue)
    rw [if_pos hdue, hs]
    exact turned_graduate hpairs (congrArg (slug :: ·) hpermanent) hdue.2
  · have hs : s = ⟨some (since.getD today), slug ∈ found.permanent⟩ :=
      if_neg (by simpa [due_reading] using hdue)
    rw [if_neg hdue, hs]
    exact turned_keep (congrArg (· ++ [(slug, some (since.getD today))]) hpairs) hpermanent
      of_decide_eq_true

theorem Go.turned_facet (ex : KeyMap String (Option Nat)) (found : Found) (slug : String) :
    Turned slug ((nextLatch c today ex slug (slug ∈ found.permanent)).since.map some)
      (nextLatch c today ex slug (slug ∈ found.permanent)).permanent found
      (Go.facet c today ex found slug) := by
  rw [Go.facet, nextLatch, Latch.step]
  cases ex.get? slug with
  | some since =>
    simp only [Option.map_some]
    by_cases hkeeps : c.k ≤ c.counts slug
    · have hlatch : (c.reading today slug).keeps = true := decide_eq_true hkeeps
      rw [if_pos hkeeps, if_pos hlatch]
      exact Go.turned_keepFacet rfl rfl
    · rw [if_neg hkeeps, if_neg (by simpa [Counted.reading] using hkeeps)]
      by_cases hpermanent : slug ∈ found.permanent
      · rw [if_pos hpermanent, if_pos (decide_eq_true hpermanent)]
        exact turned_keep (List.append_nil _).symm rfl fun _ => hpermanent
      · rw [if_neg hpermanent, if_neg (by simpa using hpermanent)]
        by_cases hdue : since.getD today + c.retention ≤ today
        · have hlatch : Latch.due (since.getD today) (c.reading today slug) = true :=
            decide_eq_true hdue
          rw [if_pos hdue, hlatch]
          exact turned_graduate rfl rfl hpermanent
        · have hlatch : Latch.due (since.getD today) (c.reading today slug) = false :=
            decide_eq_false hdue
          rw [if_neg hdue, hlatch]
          exact turned_keep (List.append_nil _).symm rfl fun h => (by cases h)
  | none =>
    simp only [Option.map_none]
    by_cases hstarts : c.k ≤ c.counts slug ∧ 2 * c.k ≤ c.audience
    · have hlatch : (c.reading today slug).starts = true := by
        simpa [Counted.reading] using hstarts
      rw [if_pos hstarts, if_pos hlatch]
      exact @Go.turned_keepFacet c today slug (some today) _ _ rfl rfl
    · have hlatch : ¬(c.reading today slug).starts = true := by
        simpa [Counted.reading] using hstarts
      rw [if_neg hstarts, if_neg hlatch]
      exact turned_keep (List.append_nil _).symm rfl of_decide_eq_true

/-! ### The loops of the Python services -/

namespace Py

/-- The pair that the first loop makes of a facet. -/
def candidate (c : Counted) (today : Nat) (ex : KeyMap String (Option Nat)) (slug : String) :
    Option (Option Nat) :=
  match ex.get? slug with
  | some since => if c.k ≤ c.counts slug then some since else none
  | none => if c.k ≤ c.counts slug ∧ 2 * c.k ≤ c.audience then some (some today) else none

/-- The facet is permanent after the first loop. -/
def early (c : Counted) (today : Nat) (ex : KeyMap String (Option Nat)) (slug : String)
    (permanent : Bool) : Bool :=
  permanent || match ex.get? slug with
    | some since => !decide (c.k ≤ c.counts slug) && since.getD today + c.retention ≤ today
    | none => false

theorem turned_latchFacet (ex : KeyMap String (Option Nat)) (found : Found) (slug : String) :
    Turned slug (candidate c today ex slug) (early c today ex slug (slug ∈ found.permanent)) found
      (latchFacet c today ex found slug) := by
  rw [latchFacet, candidate, early]
  cases ex.get? slug with
  | some since =>
    simp only
    by_cases hkeeps : c.k ≤ c.counts slug
    · rw [if_pos hkeeps, if_pos hkeeps]
      exact turned_keep rfl rfl fun h => by simpa [hkeeps] using h
    · rw [if_neg hkeeps, if_neg hkeeps]
      by_cases hpermanent : slug ∈ found.permanent
      · rw [if_pos hpermanent]
        exact turned_keep (List.append_nil _).symm rfl fun _ => hpermanent
      · rw [if_neg hpermanent]
        by_cases hdue : since.getD today + c.retention ≤ today
        · rw [if_pos hdue, decide_eq_true hdue, decide_eq_false hkeeps]
          have hturn : Turned slug none true found (found.graduate slug) :=
            turned_graduate rfl rfl hpermanent
          simpa using hturn
        · rw [if_neg hdue]
          exact turned_keep (List.append_nil _).symm rfl fun h => by simp [hdue, hpermanent] at h
  | none =>
    simp only
    by_cases hstarts : c.k ≤ c.counts slug ∧ 2 * c.k ≤ c.audience
    · rw [if_pos hstarts, if_pos hstarts]
      exact turned_keep rfl rfl fun h => by simpa using h
    · rw [if_neg hstarts, if_neg hstarts]
      exact turned_keep (List.append_nil _).symm rfl fun h => by simpa using h

/-- The pair that the second loop leaves. -/
def left (c : Counted) (today : Nat) (pair : String × Option Nat) (permanent : Bool) :
    Option (Option Nat) :=
  if pair.2.getD today + c.retention ≤ today ∧ permanent = false then none
  else some (some (pair.2.getD today))

theorem turned_graduateFacet (found : Found) (pair : String × Option Nat) :
    Turned pair.1 (left c today pair (pair.1 ∈ found.permanent))
      (decide (pair.1 ∈ found.permanent) || decide (pair.2.getD today + c.retention ≤ today)) found
      (graduateFacet c today found pair) := by
  rw [graduateFacet, left]
  by_cases hdue : pair.2.getD today + c.retention ≤ today ∧ pair.1 ∉ found.permanent
  · rw [if_pos hdue, if_pos ⟨hdue.1, decide_eq_false hdue.2⟩, decide_eq_true hdue.1, Bool.or_true]
    exact turned_graduate rfl rfl hdue.2
  · rw [if_neg hdue, if_neg (by simpa using hdue)]
    refine turned_keep rfl rfl fun h => ?_
    simp only [Bool.or_eq_true, decide_eq_true_eq] at h
    rcases h with hpermanent | hold
    · exact hpermanent
    · exact not_not.mp fun hnot => hdue ⟨hold, hnot⟩

end Py

/-! ### The footer that both compute -/

/-- The next pairs. -/
def nextPairs (footer : Footer) (c : Counted) (today : Nat) : List (String × Option Nat) :=
  facets.filterMap fun slug =>
    (nextLatch c today (existing footer.pairs) slug (slug ∈ footer.permanent)).since.map
      fun since => (slug, some since)

/-- A list of permanent facets in order, without duplicates. -/
structure IsNextPermanent (footer : Footer) (c : Counted) (today : Nat) (permanent : List String) :
    Prop where
  mem : ∀ t, t ∈ permanent ↔ t ∈ footer.permanent ∨ t ∈ facets ∧
    (nextLatch c today (existing footer.pairs) t (t ∈ footer.permanent)).permanent = true
  nodup : permanent.Nodup
  sorted : permanent.Pairwise (· ≤ ·)

theorem IsNextPermanent.unique {footer : Footer} {l l' : List String}
    (h : IsNextPermanent footer c today l) (h' : IsNextPermanent footer c today l') : l = l' := by
  have hperm : l.Perm l' := by
    rw [List.perm_ext_iff_of_nodup h.nodup h'.nodup]
    intro t
    rw [h.mem, h'.mem]
  exact hperm.eq_of_pairwise' h.sorted h'.sorted

theorem facets_nodup : facets.Nodup := by decide

theorem nodup_fst_filterMap {β : Type} (f : String → Option β) :
    ((facets.filterMap fun slug => (f slug).map fun x => (slug, x)).map Prod.fst).Nodup := by
  refine List.pairwise_map.mpr
    (List.Pairwise.filterMap _ (fun slug slug' hne p hp p' hp' => ?_) facets_nodup)
  have ⟨_, _, heq⟩ := Option.map_eq_some_iff.mp hp
  have ⟨_, _, heq'⟩ := Option.map_eq_some_iff.mp hp'
  rw [← heq, ← heq']
  exact hne

theorem mem_filterMap_pair {β : Type} {f : String → Option β} {pair : String × β} :
    pair ∈ facets.filterMap (fun slug => (f slug).map fun x => (slug, x)) ↔
      pair.1 ∈ facets ∧ f pair.1 = some pair.2 := by
  rw [List.mem_filterMap]
  constructor
  · intro ⟨slug, hslug, heq⟩
    have ⟨x, hx, hpair⟩ := Option.map_eq_some_iff.mp heq
    rw [← hpair]
    exact ⟨hslug, hx⟩
  · intro ⟨hslug, hx⟩
    exact ⟨pair.1, hslug, by rw [hx]; rfl⟩

theorem isNextPermanent_sort {footer : Footer} {l : List String} (hnodup : l.Nodup)
    (hmem : ∀ t, t ∈ l ↔ t ∈ footer.permanent ∨ t ∈ facets ∧
      (nextLatch c today (existing footer.pairs) t (t ∈ footer.permanent)).permanent = true) :
    IsNextPermanent footer c today (l.insertionSort (· ≤ ·)) where
  mem t := by
    rw [List.mem_insertionSort, hmem]
  nodup := (List.perm_insertionSort _ l).nodup_iff.mpr hnodup
  sorted := List.pairwise_insertionSort _ l

theorem Go.appreciation_spec (footer : Footer) (c : Counted) (today : Nat) :
    (Go.appreciation footer c today).1.pairs = nextPairs footer c today ∧
      IsNextPermanent footer c today (Go.appreciation footer c today).1.permanent := by
  have hmap : (facets.map fun slug => slug).Nodup := by simpa using facets_nodup
  have ⟨hpairs, hmarks, hnodup⟩ := turned_foldl (fun slug => slug)
    (fun slug permanent =>
      (nextLatch c today (existing footer.pairs) slug permanent).since.map some)
    (fun slug permanent => (nextLatch c today (existing footer.pairs) slug permanent).permanent)
    (Go.turned_facet (existing footer.pairs)) hmap
    ⟨[], footer.permanent.dedup, ⟨0, 0, 0⟩⟩ (fun slug _ => List.mem_dedup)
  refine ⟨?_, isNextPermanent_sort (hnodup (List.nodup_dedup _)) fun t => ?_⟩
  · refine hpairs.trans ?_
    rw [nextPairs, List.nil_append]
    simp only [Option.map_map, Function.comp_def]
  · rw [hmarks, List.mem_dedup]
    refine or_congr_right ?_
    constructor
    · rintro ⟨slug, hslug, rfl, hmark⟩
      exact ⟨hslug, hmark⟩
    · intro ⟨hslug, hmark⟩
      exact ⟨t, hslug, rfl, hmark⟩

/-- The step of the latch of a facet that has a pair. -/
theorem nextLatch_some {ex : KeyMap String (Option Nat)} {slug : String} {since : Option Nat}
    (h : ex.get? slug = some since) (permanent : Bool) :
    nextLatch c today ex slug permanent =
      if c.k ≤ c.counts slug then
        if since.getD today + c.retention ≤ today ∧ permanent = false then ⟨none, true⟩
        else ⟨some (since.getD today), permanent⟩
      else ⟨none, permanent || decide (since.getD today + c.retention ≤ today)⟩ := by
  rw [nextLatch, Latch.step, h]
  show (if decide (c.k ≤ c.counts slug) = true then
      if (decide (since.getD today + c.retention ≤ today) && !permanent) = true then
        Latch.State.mk none true
      else ⟨some (since.getD today), permanent⟩
    else if permanent = true then ⟨none, true⟩
    else ⟨none, decide (since.getD today + c.retention ≤ today)⟩) = _
  cases permanent <;> simp

/-- The step of the latch of a facet that has none. -/
theorem nextLatch_none {ex : KeyMap String (Option Nat)} {slug : String} (h : ex.get? slug = none)
    (permanent : Bool) : nextLatch c today ex slug permanent =
      if c.k ≤ c.counts slug ∧ 2 * c.k ≤ c.audience then
        if today + c.retention ≤ today ∧ permanent = false then ⟨none, true⟩
        else ⟨some today, permanent⟩
      else ⟨none, permanent⟩ := by
  rw [nextLatch, Latch.step, h]
  show (if (decide (c.k ≤ c.counts slug) && decide (2 * c.k ≤ c.audience)) = true then
      if (decide (today + c.retention ≤ today) && !permanent) = true then Latch.State.mk none true
      else ⟨some today, permanent⟩
    else ⟨none, permanent⟩) = _
  cases permanent <;> simp

theorem Py.left_candidate (ex : KeyMap String (Option Nat)) (slug : String) (permanent : Bool) :
    ((Py.candidate c today ex slug).bind fun since => Py.left c today (slug, since) permanent) =
      (nextLatch c today ex slug permanent).since.map some := by
  cases h : ex.get? slug with
  | some =>
    rw [nextLatch_some h, Py.candidate, h]
    dsimp only
    by_cases hkeeps : c.k ≤ c.counts slug
    · simp only [hkeeps, if_true, Option.bind_some, Py.left]
      split <;> rfl
    · simp only [hkeeps, if_false, Option.bind_none, Option.map_none]
  | none =>
    rw [nextLatch_none h, Py.candidate, h]
    dsimp only
    by_cases hstarts : c.k ≤ c.counts slug ∧ 2 * c.k ≤ c.audience
    · simp only [hstarts, and_self, if_true, Option.bind_some, Py.left, Option.getD_some]
      split <;> rfl
    · simp only [hstarts, if_false, Option.bind_none, Option.map_none]

theorem Py.permanent_candidate (ex : KeyMap String (Option Nat)) (slug : String)
    (permanent : Bool) :
    (Py.early c today ex slug permanent = true ∨ ∃ since, Py.candidate c today ex slug = some since ∧
      since.getD today + c.retention ≤ today) ↔
      (nextLatch c today ex slug permanent).permanent = true := by
  cases h : ex.get? slug with
  | some since =>
    rw [nextLatch_some h, Py.candidate, Py.early, h]
    dsimp only
    by_cases hkeeps : c.k ≤ c.counts slug
    · by_cases hdue : since.getD today + c.retention ≤ today
      · cases permanent <;> simp [hkeeps, hdue]
      · cases permanent <;> simp [hkeeps, hdue]
    · simp [hkeeps]
  | none =>
    rw [nextLatch_none h, Py.candidate, Py.early, h]
    dsimp only
    by_cases hstarts : c.k ≤ c.counts slug ∧ 2 * c.k ≤ c.audience
    · by_cases hdue : today + c.retention ≤ today
      · cases permanent <;> simp [hstarts, hdue]
      · cases permanent <;> simp [hstarts, hdue]
    · simp [hstarts]

theorem Py.early_of_candidate {ex : KeyMap String (Option Nat)} {slug : String}
    {since : Option Nat} (h : Py.candidate c today ex slug = some since) (permanent : Bool) :
    Py.early c today ex slug permanent = permanent := by
  rw [Py.candidate] at h
  rw [Py.early]
  cases hex : ex.get? slug with
  | some =>
    rw [hex] at h
    by_cases hkeeps : c.k ≤ c.counts slug
    · simp [hkeeps]
    · simp [hkeeps] at h
  | none => simp

theorem Py.recomputeAppreciation_spec (footer : Footer) (c : Counted) (today : Nat) :
    (Py.recomputeAppreciation footer c today).1.pairs = nextPairs footer c today ∧
      IsNextPermanent footer c today (Py.recomputeAppreciation footer c today).1.permanent := by
  have hmap : (facets.map fun slug => slug).Nodup := by simpa using facets_nodup
  have ⟨hpairs, hmarks, hnodup⟩ := turned_foldl (fun slug => slug)
    (fun slug _ => Py.candidate c today (existing footer.pairs) slug)
    (fun slug permanent => Py.early c today (existing footer.pairs) slug permanent)
    (Py.turned_latchFacet (existing footer.pairs)) hmap
    ⟨[], footer.permanent.dedup, ⟨0, 0, 0⟩⟩ (fun slug _ => List.mem_dedup)
  rw [List.nil_append] at hpairs
  generalize hfirst : facets.foldl (Py.latchFacet c today (existing footer.pairs))
    ⟨[], footer.permanent.dedup, ⟨0, 0, 0⟩⟩ = latched at hpairs hmarks hnodup
  -- The pairs of the first loop, and what it does not change for them.
  have hmem : ∀ pair : String × Option Nat, pair ∈ latched.pairs ↔
      pair.1 ∈ facets ∧ Py.candidate c today (existing footer.pairs) pair.1 = some pair.2 := by
    intro pair
    rw [hpairs]
    exact mem_filterMap_pair
  have hkeys : (latched.pairs.map Prod.fst).Nodup := by
    rw [hpairs]
    exact nodup_fst_filterMap _
  have hsame : ∀ pair ∈ latched.pairs, pair.1 ∈ latched.permanent ↔ pair.1 ∈ footer.permanent := by
    intro pair hpair
    have hcandidate := ((hmem pair).mp hpair).2
    rw [hmarks, List.mem_dedup]
    constructor
    · rintro (h | ⟨slug, _, heq, hearly⟩)
      · exact h
      · rw [← heq, Py.early_of_candidate hcandidate] at hearly
        exact of_decide_eq_true hearly
    · exact Or.inl
  have ⟨hpairs', hmarks', hnodup'⟩ := turned_foldl Prod.fst (fun pair => Py.left c today pair)
    (fun pair permanent => permanent || decide (pair.2.getD today + c.retention ≤ today))
    Py.turned_graduateFacet hkeys { latched with pairs := [] } hsame
  have hresult : (Py.recomputeAppreciation footer c today).1 = { footer with
      pairs := (latched.pairs.foldl (Py.graduateFacet c today) { latched with pairs := [] }).pairs
      permanent := (latched.pairs.foldl (Py.graduateFacet c today)
        { latched with pairs := [] }).permanent.insertionSort (· ≤ ·) } := by
    rw [← hfirst]
    rfl
  rw [hresult]
  refine ⟨?_, isNextPermanent_sort (hnodup' (hnodup (List.nodup_dedup _))) fun t => ?_⟩
  · refine hpairs'.trans ?_
    rw [List.nil_append, hpairs, List.filterMap_filterMap, nextPairs]
    refine List.filterMap_congr fun slug _ => ?_
    have hleft := @Py.left_candidate c today (existing footer.pairs) slug
      (slug ∈ footer.permanent)
    cases hcandidate : Py.candidate c today (existing footer.pairs) slug with
    | none =>
      rw [hcandidate, Option.bind_none, eq_comm, Option.map_eq_none_iff] at hleft
      rw [hleft]
      rfl
    | some since =>
      rw [hcandidate, Option.bind_some] at hleft
      show Option.map _ (Py.left c today (slug, since) (slug ∈ footer.permanent)) = _
      rw [hleft, Option.map_map]
      rfl
  · rw [hmarks', hmarks, List.mem_dedup, ← Py.permanent_candidate]
    constructor
    · rintro ((h | ⟨slug, hslug, rfl, hearly⟩) | ⟨pair, hpair, rfl, hmark⟩)
      · exact Or.inl h
      · exact Or.inr ⟨hslug, Or.inl hearly⟩
      · have ⟨hslug, hcandidate⟩ := (hmem pair).mp hpair
        simp only [Bool.or_eq_true, decide_eq_true_eq] at hmark
        rcases hmark with hpermanent | hdue
        · exact Or.inl hpermanent
        · exact Or.inr ⟨hslug, Or.inr ⟨pair.2, hcandidate, hdue⟩⟩
    · rintro (h | ⟨hslug, hearly | ⟨since, hcandidate, hdue⟩⟩)
      · exact Or.inl (Or.inl h)
      · exact Or.inl (Or.inr ⟨t, hslug, rfl, hearly⟩)
      · refine Or.inr ⟨(t, since), (hmem _).mpr ⟨hslug, hcandidate⟩, rfl, ?_⟩
        simp [hdue]

theorem appreciation_eq (footer : Footer) (c : Counted) (today : Nat) :
    (Py.recomputeAppreciation footer c today).1 = (Go.appreciation footer c today).1 := by
  have ⟨hgo, hgoPermanent⟩ := Go.appreciation_spec footer c today
  have ⟨hpy, hpyPermanent⟩ := Py.recomputeAppreciation_spec footer c today
  have hpairs := hpy.trans hgo.symm
  have hpermanent := hpyPermanent.unique hgoPermanent
  show Footer.mk (Py.recomputeAppreciation footer c today).1.pairs
      (Py.recomputeAppreciation footer c today).1.permanent _ _ _ _ =
    Footer.mk (Go.appreciation footer c today).1.pairs
      (Go.appreciation footer c today).1.permanent _ _ _ _
  rw [hpairs, hpermanent]

end SocialActivities.Social
