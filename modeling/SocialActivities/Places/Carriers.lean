import Mathlib.Data.Prod.Lex
import SocialActivities.Lib.Ranked
import SocialActivities.Places.Venues

/-!
# `SocialActivities.Places.Carriers`: one RO-EDU venue, one place

Syncs and ingests one after the other, each with the search that it runs itself. A venue may be
carried by a row of its own or by a place of another source that it has claimed. Every sync of the
venue searches for a place to claim before it looks for the venue's own row, so it moves, and leaves
two places for one venue, in two cases:

* the carrier is the venue's own row, and a free place of another source has come near;
* the carrier is a place of another source, and the venue's title or location has gone from it.

`one_carrier_iff` says that these are all cases: each venue is carried by one place in every state of
a run exactly when every sync and ingest of a venue meets `Stays`.
-/

namespace SocialActivities.Places

open Lib
open Lib.Machine (run steps)

/-- What the searches read outside the catalog. -/
structure SearchEnv extends IngestEnv where
  /-- `ST_Distance` of two locations, in metres. -/
  distance : Point → Point → Rat
  /-- `PlaceNameSimilarity` of two names is at least 0.82. -/
  similar : String → String → Bool

/-! ### The searches -/

/-- `ST_DWithin(location, point, 75)`. -/
def SearchEnv.isNear (env : SearchEnv) (location : Point) (p : Place) : Bool :=
  env.distance p.location location ≤ 75

/-- `ORDER BY first DESC, ST_Distance(location, point), id`. -/
def SearchEnv.rank (env : SearchEnv) (first : Place → Bool) (location : Point) (row : Nat × Place) :
    Nat ×ₗ Rat ×ₗ Nat :=
  toLex (if first row.2 then 0 else 1, toLex (env.distance row.2.location location, row.1))

/-- The search of an importer: of the first 50 places that may be chosen, those with a similar
name. -/
def SearchEnv.search (env : SearchEnv) (s : Catalog) (choosable first : Place → Bool)
    (location : Point) (name : String) : List Nat :=
  ((firstBy (env.rank first location) 50
      (s.places.entries.filter fun row => choosable row.2 && env.isNear location row.2)).filter
    fun row => env.similar row.2.name name).map Prod.fst

/-- The places that a venue may claim: of another source, and claimed by no other venue. -/
def claimable (external : String) (p : Place) : Bool :=
  p.source != .roedu && decide (p.roeduVenues ⊆ {external})

/-- `cardinality(...)>0`. -/
def isClaimed (p : Place) : Bool := 0 < p.roeduVenues.card

/-- The first query of `FindRoeduDuplicate`. -/
def roeduCandidates (env : SearchEnv) (s : Catalog) (external title : String) (location : Point) :
    List Nat :=
  env.search s (claimable external) isClaimed location title

/-- The search of `upsertPlace`. -/
def RawPlace.nearby (env : SearchEnv) (raw : RawPlace) (s : Catalog) : List Nat :=
  if raw.source = .roedu then roeduCandidates env s raw.externalId raw.name raw.location
  else env.search s (fun p => p.source != raw.source) (fun _ => false) raw.location raw.name

/-- The search for a venue item. -/
def VenueItem.nearby (env : SearchEnv) (item : VenueItem) (s : Catalog) : List Nat :=
  roeduCandidates env s item.id item.title item.location

/-! ### The operations -/

/-- A venue item of a sync. -/
def venueStep (env : SearchEnv) (s : Catalog) (item : VenueItem) : Catalog :=
  catalogStep env.toIngestEnv s (.venue item (item.nearby env s))

/-- The venues of a pack, in one transaction. -/
def syncVenues (env : SearchEnv) (items : List VenueItem) (s : Catalog) :
    Except IngestError Catalog :=
  items.foldlM (fun s item => syncVenue env.toIngestEnv item (item.nearby env s) s) s

/-- A sync, or an ingest of one place. `fails` is an error in the rest of the sync's transaction. -/
inductive ImportAction where
  | sync (items : List VenueItem) (fails : Bool)
  | ingest (raw : RawPlace) (matched : List PlaceMatch) (dedup : Bool)

/-- One step: an operation that fails changes nothing. -/
def importStep (env : SearchEnv) (s : Catalog) : ImportAction → Catalog
  | .sync items fails => if fails then s else (syncVenues env items s).toOption.getD s
  | .ingest raw matched dedup =>
    catalogStep env.toIngestEnv s (.ingest raw matched dedup (raw.nearby env s))

variable {env : SearchEnv} {s t : Catalog}

/-! ### What a search finds -/

theorem nodup_rank (env : SearchEnv) (first : Place → Bool) (location : Point)
    (p : Nat × Place → Bool) (s : Catalog) :
    ((s.places.entries.filter p).map (env.rank first location)).Nodup := by
  have hkeys : ((s.places.entries.filter p).map Prod.fst).Nodup :=
    s.places.nodup.sublist (List.filter_sublist.map _)
  rw [List.Nodup, List.pairwise_map] at hkeys ⊢
  refine hkeys.imp fun {a b} hne heq => hne ?_
  have hsecond := congrArg (fun r => (ofLex (ofLex r).2).2) heq
  exact hsecond

variable {id : Nat} {location : Point}

/-- The search finds a place of a similar name that may be chosen and is near, when fewer than 50
such places come before it. -/
theorem mem_search {choosable first : Place → Bool} {name : String} :
    id ∈ env.search s choosable first location name ↔
      ∃ p, s.places.get? id = some p ∧ choosable p = true ∧ env.isNear location p = true ∧
        env.similar p.name name = true ∧
        (s.places.count fun j q => (choosable q && env.isNear location q) &&
          decide (env.rank first location (j, q) < env.rank first location (id, p))) < 50 := by
  unfold SearchEnv.search
  rw [List.mem_map]
  have hcount : ∀ row : Nat × Place,
      (s.places.entries.filter fun row => choosable row.2 && env.isNear location row.2).countP
          (fun y => decide (env.rank first location y < env.rank first location row)) =
        s.places.count fun j q => (choosable q && env.isNear location q) &&
          decide (env.rank first location (j, q) < env.rank first location row) := by
    intro row
    rw [List.countP_filter]
    refine List.countP_congr fun e _ => ?_
    simp [and_comm]
  constructor
  · intro ⟨row, hrow, hid⟩
    obtain ⟨hfirst, hsimilar⟩ := List.mem_filter.mp hrow
    rw [mem_firstBy (nodup_rank env first location _ s), hcount] at hfirst
    obtain ⟨hmem, hchoosable⟩ := List.mem_filter.mp hfirst.1
    rw [Bool.and_eq_true] at hchoosable
    subst hid
    exact ⟨row.2, KeyMap.mem_entries_iff.mp hmem, hchoosable.1, hchoosable.2, hsimilar, hfirst.2⟩
  · intro ⟨p, hp, hchoosable, hnear, hsimilar, hfew⟩
    refine ⟨(id, p), List.mem_filter.mpr ⟨?_, hsimilar⟩, rfl⟩
    rw [mem_firstBy (nodup_rank env first location _ s), hcount]
    refine ⟨List.mem_filter.mpr ⟨KeyMap.mem_entries_iff.mpr hp, ?_⟩, hfew⟩
    simp [hchoosable, hnear]

/-! ### The place that a venue is written to -/

/-- A place is a free neighbour of a venue, and too few come before it to hide it from the search. -/
def IsRival (env : SearchEnv) (s : Catalog) (v title : String) (location : Point) (id : Nat)
    (p : Place) : Prop :=
  s.places.get? id = some p ∧ claimable v p = true ∧ env.isNear location p = true ∧
    env.similar p.name title = true ∧
    (s.places.count fun j q => (claimable v q && env.isNear location q) &&
      decide (env.rank isClaimed location (j, q) < env.rank isClaimed location (id, p))) < 50

variable {v title : String}

theorem roeduCandidates_eq_nil :
    roeduCandidates env s v title location = [] ↔
      ∀ id p, ¬IsRival env s v title location id p := by
  rw [List.eq_nil_iff_forall_not_mem]
  constructor
  · intro h id p hrival
    exact h id (mem_search.mpr ⟨p, hrival⟩)
  · intro h id hid
    obtain ⟨p, hrival⟩ := mem_search.mp hid
    exact h id p hrival

theorem findRoeduDuplicate_candidates (v title : String) (location : Point) :
    findRoeduDuplicate s v (roeduCandidates env s v title location) =
      (roeduCandidates env s v title location).head? := by
  have hfree : ∀ id ∈ roeduCandidates env s v title location, isFree s v id = true := by
    intro id hid
    obtain ⟨p, hp, hclaimable, -⟩ := mem_search.mp hid
    rw [claimable, Bool.and_eq_true] at hclaimable
    exact isFree_iff.mpr ⟨p, hp, of_decide_eq_true hclaimable.2⟩
  unfold findRoeduDuplicate
  cases hlist : roeduCandidates env s v title location with
  | nil => rfl
  | cons id =>
    rw [hlist] at hfree
    rw [List.find?_cons_of_pos (hfree id List.mem_cons_self)]
    rfl

/-- Each venue is carried by one place at most. -/
def UniqueCarriers (s : Catalog) : Prop :=
  ∀ v p q, v ∈ s.venues p → v ∈ s.venues q → p = q

/-- The place of another source that carries a venue comes first in the venue's search, while it is
near and has a similar name. -/
theorem head?_candidates {p : Place}
    (hex : Exclusive s) (huniq : UniqueCarriers s) (hp : s.places.get? id = some p)
    (hv : v ∈ p.roeduVenues) (hsource : p.source ≠ .roedu) (hnear : env.isNear location p = true)
    (hsimilar : env.similar p.name title = true) :
    (roeduCandidates env s v title location).head? = some id := by
  have hvenue : v ∈ s.venues id := Catalog.mem_venues.mpr ⟨p, hp, hv⟩
  have hfree : p.roeduVenues ⊆ {v} := by
    intro w hw
    rw [← Catalog.venues_of_get? hp] at hw
    exact Finset.mem_singleton.mpr (Finset.card_le_one.mp (hex id) w hw v hvenue)
  have hclaimed : isClaimed p = true := decide_eq_true (Finset.card_pos.mpr ⟨v, hv⟩)
  have hmem : (id, p) ∈ s.places.entries.filter fun row =>
      claimable v row.2 && env.isNear location row.2 :=
    List.mem_filter.mpr ⟨KeyMap.mem_entries_iff.mpr hp, by simp [claimable, hsource, hfree, hnear]⟩
  -- No other place that the venue may claim is claimed, so they all come later.
  have hfirst : ∀ y ∈ s.places.entries.filter (fun row =>
      claimable v row.2 && env.isNear location row.2), y ≠ (id, p) →
      env.rank isClaimed location (id, p) < env.rank isClaimed location y := by
    intro y hy hne
    obtain ⟨hin, hy⟩ := List.mem_filter.mp hy
    have hget := KeyMap.mem_entries_iff.mp hin
    have hunclaimed : isClaimed y.2 = false := by
      rw [isClaimed, decide_eq_false_iff_not, Nat.not_lt, Nat.le_zero, Finset.card_eq_zero]
      rw [Bool.and_eq_true, claimable, Bool.and_eq_true, decide_eq_true_eq] at hy
      refine Finset.eq_empty_of_forall_notMem fun w hw => hne ?_
      have hwv : w = v := Finset.mem_singleton.mp (hy.1.2 hw)
      subst hwv
      have hid : y.1 = id := huniq w y.1 id (Catalog.mem_venues.mpr ⟨y.2, hget, hw⟩) hvenue
      rw [hid, hp] at hget
      exact Prod.ext hid (Option.some.inj hget).symm
    refine Prod.Lex.toLex_lt_toLex.mpr (Or.inl ?_)
    simp [hclaimed, hunclaimed]
  show (List.map Prod.fst _).head? = _
  rw [List.head?_map, head?_filter_firstBy (nodup_rank env isClaimed location _ s) (by decide) hmem
    hfirst hsimilar]
  rfl

/-- The condition for one sync or ingest of a venue: the place that carries it is its own row, and
no other place is to be claimed; or it is a place of another source, which is still near and has
still a similar name. -/
def Stays (env : SearchEnv) (s : Catalog) (v title : String) (location : Point) : Prop :=
  ∀ id p, s.places.get? id = some p → v ∈ p.roeduVenues →
    (p.source = .roedu ∧ p.externalId = v ∧ ∀ j q, ¬IsRival env s v title location j q) ∨
    (p.source ≠ .roedu ∧ env.isNear location p = true ∧ env.similar p.name title = true)

theorem get?_roeduRow (h : roeduRow s v = some id) :
    ∃ p, s.places.get? id = some p ∧ p.source = .roedu ∧ p.externalId = v := by
  obtain ⟨p, hp, hrow⟩ := get?_of_head? h
  rw [Bool.and_eq_true, beq_iff_eq, beq_iff_eq] at hrow
  exact ⟨p, hp, hrow⟩

theorem mem_venues_roeduRow (hv : v ≠ "") (h : roeduRow s v = some id) :
    v ∈ s.venues id := by
  obtain ⟨p, hp, hsource, hext⟩ := get?_roeduRow h
  exact Catalog.mem_venues.mpr
    ⟨p, hp, mem_roeduVenues.mpr (Or.inl (mem_ownVenues.mpr ⟨hsource, hext.symm, hv⟩))⟩

theorem roeduRow_eq {p : Place} (hv : v ≠ "") (huniq : UniqueCarriers s)
    (hp : s.places.get? id = some p) (hsource : p.source = .roedu) (hext : p.externalId = v) :
    roeduRow s v = some id := by
  have hvenue : v ∈ s.venues id := Catalog.mem_venues.mpr
    ⟨p, hp, mem_roeduVenues.mpr (Or.inl (mem_ownVenues.mpr ⟨hsource, hext.symm, hv⟩))⟩
  cases hrow : roeduRow s v with
  | none =>
    have hnone := List.head?_eq_none_iff.mp hrow
    have hmem : id ∈ s.places.keysWhere fun _ p => p.source == .roedu && p.externalId == v :=
      KeyMap.mem_keysWhere.mpr ⟨p, hp, by simp [hsource, hext]⟩
    rw [hnone] at hmem
    cases hmem
  | some j => rw [huniq v j id (mem_venues_roeduRow hv hrow) hvenue]

theorem carrier_eq_iff (hv : v ≠ "") (hex : Exclusive s) (huniq : UniqueCarriers s) :
    (∀ id, v ∈ s.venues id →
        id = (roeduCandidates env s v title location).head?.getD
          ((roeduRow s v).getD s.nextId)) ↔
      Stays env s v title location := by
  constructor
  · intro htarget id p hp hvp
    have hid := htarget id (Catalog.mem_venues.mpr ⟨p, hp, hvp⟩)
    cases hfound : roeduCandidates env s v title location with
    | cons =>
      rw [hfound] at hid
      have hmem : id ∈ roeduCandidates env s v title location := by
        rw [hfound, hid]
        exact List.mem_cons_self
      obtain ⟨q, hq, hclaimable, hnear, hsimilar, -⟩ := mem_search.mp hmem
      rw [hp] at hq
      cases hq
      rw [claimable, Bool.and_eq_true, bne_iff_ne] at hclaimable
      exact Or.inr ⟨hclaimable.1, hnear, hsimilar⟩
    | nil =>
      have hrivals := roeduCandidates_eq_nil.mp hfound
      rw [hfound] at hid
      cases hrow : roeduRow s v with
      | none =>
        rw [hrow] at hid
        exact absurd (s.fresh id p hp) (by rw [hid]; exact Nat.lt_irrefl _)
      | some j =>
        rw [hrow] at hid
        obtain ⟨q, hq, hsource, hext⟩ := get?_roeduRow hrow
        have hij : id = j := hid
        rw [← hij, hp] at hq
        cases hq
        exact Or.inl ⟨hsource, hext, hrivals⟩
  · intro hstays id hid
    obtain ⟨p, hp, hvp⟩ := Catalog.mem_venues.mp hid
    rcases hstays id p hp hvp with ⟨hsource, hext, hrivals⟩ | ⟨hsource, hnear, hsimilar⟩
    · rw [roeduCandidates_eq_nil.mpr hrivals, roeduRow_eq hv huniq hp hsource hext]
      rfl
    · rw [head?_candidates hex huniq hp hvp hsource hnear hsimilar]
      rfl

/-! ### When a write keeps the carriers apart -/

/-- A write that gives a venue to a row keeps the carriers apart exactly when the row is the one
that carried the venue. -/
theorem Sets.unique_iff {venues : Finset String}
    (hs : UniqueCarriers s) (h : Sets s t id venues) (hv : v ∈ venues)
    (hold : ∀ w ∈ venues, w = v ∨ w ∈ s.venues id) :
    UniqueCarriers t ↔ ∀ q, v ∈ s.venues q → q = id := by
  have hid : v ∈ t.venues id := by
    rw [h id, if_pos rfl]
    exact hv
  constructor
  · intro huniq q hq
    by_contra hne
    have hq' : v ∈ t.venues q := by
      rw [h q, if_neg hne]
      exact hq
    exact hne (huniq v q id hq' hid)
  · intro honly w p q hp hq
    by_cases hw : w = v
    · -- Whoever carries `v` after the write is the row itself.
      have hself : ∀ j, v ∈ t.venues j → j = id := by
        intro j hj
        rw [h j] at hj
        by_cases hji : j = id
        · exact hji
        · rw [if_neg hji] at hj
          exact honly j hj
      subst hw
      rw [hself p hp, hself q hq]
    · have hbefore : ∀ j, w ∈ t.venues j → w ∈ s.venues j := by
        intro j hj
        rw [h j] at hj
        by_cases hji : j = id
        · rw [if_pos hji] at hj
          rw [hji]
          exact (hold w hj).resolve_left hw
        · rw [if_neg hji] at hj
          exact hj
      exact hs w p q (hbefore p hp) (hbefore q hq)

theorem UniqueCarriers.mono (hs : UniqueCarriers s) (h : ∀ id, t.venues id ⊆ s.venues id) :
    UniqueCarriers t := fun v p q hp hq => hs v p q (h p hp) (h q hq)

theorem Sets.subset {venues : Finset String} (h : Sets s t id venues)
    (hvenues : venues ⊆ s.venues id) : ∀ j, t.venues j ⊆ s.venues j := by
  intro j
  rw [h j]
  split
  · rename_i hj
    rw [hj]
    exact hvenues
  · exact Finset.Subset.refl _

/-- A venue item commits when the taxonomy has the activities of its tags: the row that it writes
to is there. -/
theorem syncVenue_commits (item : VenueItem) (nearby : List Nat) :
    (∃ t, syncVenue env.toIngestEnv item nearby s = .ok t) ↔ env.Knows item.matched := by
  refine exists_upsertEdges ?_
  rw [VenueItem.write, get?_write, if_pos rfl]
  cases hfound : findRoeduDuplicate s item.id nearby with
  | some id =>
    obtain ⟨p, hp, -⟩ := free_of_findRoeduDuplicate hfound
    show ((s.places.get? id).map _).isSome = true
    rw [hp]
    rfl
  | none =>
    cases hown : item.ownRow s with
    | some id =>
      obtain ⟨p, hp, -⟩ := get?_of_head? hown
      show ((s.places.get? id).map _).isSome = true
      rw [hp]
      rfl
    | none => rfl

theorem snd_write (item : VenueItem) : (item.write (item.nearby env s) s).2 =
    (roeduCandidates env s item.id item.title item.location).head?.getD
      ((roeduRow s item.id).getD s.nextId) := by
  show (s.write (findRoeduDuplicate s item.id (roeduCandidates env s item.id item.title
    item.location)) (roeduRow s item.id) _ _ _).2 = _
  rw [findRoeduDuplicate_candidates]
  cases (roeduCandidates env s item.id item.title item.location).head? with
  | some => rfl
  | none => cases roeduRow s item.id <;> rfl

theorem unique_syncVenue_iff {item : VenueItem} (hex : Exclusive s) (huniq : UniqueCarriers s)
    (h : syncVenue env.toIngestEnv item (item.nearby env s) s = .ok t) :
    UniqueCarriers t ↔ Stays env s item.id item.title item.location := by
  rw [← carrier_eq_iff item.hasId hex huniq, ← snd_write]
  have hself : ∀ id : Nat, ∀ w ∈ ({item.id} : Finset String), w = item.id ∨ w ∈ s.venues id :=
    fun id w hw => Or.inl (Finset.mem_singleton.mp hw)
  rcases venue_cases h with ⟨id, p, hfound, -, -, hsets⟩ | ⟨id, hfound, hown, hsets⟩ |
    ⟨hfound, hown, hsets⟩
  · rw [hsets.unique_iff huniq (Finset.mem_singleton_self _) (hself id), VenueItem.write, hfound]
    rfl
  · rw [hsets.unique_iff huniq (mem_venues_roeduRow item.hasId hown) fun w hw => Or.inr hw,
      VenueItem.write, hfound, hown]
    rfl
  · rw [hsets.unique_iff huniq (Finset.mem_singleton_self _) (hself _), VenueItem.write, hfound,
      hown]
    rfl

/-! ### Whole syncs -/

theorem venueStep_of_ok {item : VenueItem}
    (h : syncVenue env.toIngestEnv item (item.nearby env s) s = .ok t) :
    venueStep env s item = t := catalogStep_of_ok h

variable {items : List VenueItem}

/-- A sync commits when the taxonomy has the activities of all its venues, and then it is the run
of its items. -/
theorem syncVenues_iff :
    syncVenues env items s = .ok t ↔
      (∀ item ∈ items, env.Knows item.matched) ∧ t = run (venueStep env) s items := by
  induction items generalizing s with
  | nil =>
    constructor
    · intro h
      exact ⟨fun item hitem => (by cases hitem), (pure_eq_ok.mp h).symm⟩
    · intro ⟨_, h⟩
      rw [h]
      rfl
  | cons item items ih =>
    rw [List.forall_mem_cons, Machine.run_cons, ← @syncVenue_commits env s item (item.nearby env s)]
    constructor
    · intro h
      obtain ⟨u, hu, hrest⟩ := bind_eq_ok.mp h
      obtain ⟨hknows, ht⟩ := ih.mp hrest
      refine ⟨⟨⟨u, hu⟩, hknows⟩, ?_⟩
      rw [venueStep_of_ok hu]
      exact ht
    · intro ⟨⟨⟨u, hu⟩, hknows⟩, ht⟩
      rw [venueStep_of_ok hu] at ht
      exact bind_eq_ok.mpr ⟨u, hu, ih.mpr ⟨hknows, ht⟩⟩

theorem exclusive_venueStep (item : VenueItem) (h : Exclusive s) :
    Exclusive (venueStep env s item) := exclusive_step _ h

theorem unique_of_run (h : UniqueCarriers (run (venueStep env) s items)) : UniqueCarriers s := by
  induction items generalizing s with
  | nil => exact h
  | cons item items ih =>
    refine (ih h).mono fun id => ?_
    exact @keepsClaim_venue env.toIngestEnv s item (item.nearby env s) id

theorem unique_items_iff (hex : Exclusive s) (huniq : UniqueCarriers s)
    (hknows : ∀ item ∈ items, env.Knows item.matched) :
    UniqueCarriers (run (venueStep env) s items) ↔
      ∀ q ∈ steps (venueStep env) s items, Stays env q.1 q.2.id q.2.title q.2.location := by
  induction items generalizing s with
  | nil => exact ⟨fun _ q hq => (by cases hq), fun _ => huniq⟩
  | cons item items ih =>
    rw [List.forall_mem_cons] at hknows
    rw [Machine.steps_cons, List.forall_mem_cons, Machine.run_cons]
    obtain ⟨u, hu⟩ := (@syncVenue_commits env s item (item.nearby env s)).mpr hknows.1
    have hstep := @unique_syncVenue_iff env s u item hex huniq hu
    rw [← venueStep_of_ok hu] at hstep
    have hex' : Exclusive (venueStep env s item) := exclusive_venueStep item hex
    constructor
    · intro hrun
      have hnext := unique_of_run hrun
      exact ⟨hstep.mp hnext, (ih hex' hnext hknows.2).mp hrun⟩
    · intro ⟨hfirst, hrest⟩
      exact (ih hex' (hstep.mpr hfirst) hknows.2).mpr hrest

/-! ### Ingests -/

/-- The condition for an ingest. Without a search the venue's row can only be its own. -/
def RawPlace.Stays (env : SearchEnv) (s : Catalog) (raw : RawPlace) (dedup : Bool) : Prop :=
  if raw.searches dedup = true then
    SocialActivities.Places.Stays env s raw.externalId raw.name raw.location
  else
    ∀ id p, s.places.get? id = some p → raw.externalId ∈ p.roeduVenues →
      p.source = .roedu ∧ p.externalId = raw.externalId

/-- The place that a raw place of RO-EDU is written to. -/
def RawPlace.target (env : SearchEnv) (s : Catalog) (raw : RawPlace) (dedup : Bool) : Nat :=
  (raw.write env.toIngestEnv dedup (raw.nearby env s) s).2

variable {raw : RawPlace}

theorem ownRow_roedu (hsource : raw.source = .roedu) :
    raw.ownRow s = roeduRow s raw.externalId := by
  unfold RawPlace.ownRow roeduRow RawPlace.isRow
  simp [hsource]

theorem externalId_ne (hsource : raw.source = .roedu) (hidentity : raw.hasIdentity = true) :
    raw.externalId ≠ "" := by
  simpa [RawPlace.hasIdentity, hsource] using hidentity

theorem duplicate_roedu (hsource : raw.source = .roedu) (dedup : Bool) :
    raw.duplicate dedup (raw.nearby env s) s =
      if raw.searches dedup = true then
        (roeduCandidates env s raw.externalId raw.name raw.location).head?
      else none := by
  unfold RawPlace.duplicate RawPlace.nearby
  rw [if_pos hsource, if_pos hsource, findRoeduDuplicate_candidates]

theorem target_iff (dedup : Bool) (hsource : raw.source = .roedu)
    (hidentity : raw.hasIdentity = true) (hex : Exclusive s) (huniq : UniqueCarriers s) :
    (∀ id, raw.externalId ∈ s.venues id → id = raw.target env s dedup) ↔
      raw.Stays env s dedup := by
  have hv := externalId_ne hsource hidentity
  have htarget : raw.target env s dedup = (raw.duplicate dedup (raw.nearby env s) s).getD
      ((roeduRow s raw.externalId).getD s.nextId) := by
    show (s.write _ (raw.ownRow s) _ _ _).2 = _
    rw [ownRow_roedu hsource]
    cases raw.duplicate dedup (raw.nearby env s) s with
    | some => rfl
    | none => cases roeduRow s raw.externalId <;> rfl
  rw [htarget, duplicate_roedu hsource, RawPlace.Stays]
  by_cases hsearches : raw.searches dedup = true
  · rw [if_pos hsearches, if_pos hsearches]
    exact carrier_eq_iff hv hex huniq
  · rw [if_neg hsearches, if_neg hsearches, Option.getD_none]
    constructor
    · intro honly id p hp hvp
      have hid := honly id (Catalog.mem_venues.mpr ⟨p, hp, hvp⟩)
      cases hrow : roeduRow s raw.externalId with
      | none =>
        rw [hrow] at hid
        exact absurd (s.fresh id p hp) (by rw [hid]; exact Nat.lt_irrefl _)
      | some j =>
        rw [hrow] at hid
        obtain ⟨q, hq, hown⟩ := get?_roeduRow hrow
        have hij : id = j := hid
        rw [← hij, hp] at hq
        cases hq
        exact hown
    · intro hrow id hid
      obtain ⟨p, hp, hvp⟩ := Catalog.mem_venues.mp hid
      obtain ⟨hroedu, hext⟩ := hrow id p hp hvp
      rw [roeduRow_eq hv huniq hp hroedu hext]
      rfl

theorem upsertPlace_commits (matched : List PlaceMatch) (dedup : Bool)
    (hsource : raw.source = .roedu) :
    (∃ t, upsertPlace env.toIngestEnv raw matched dedup (raw.nearby env s) s = .ok t) ↔
      raw.hasIdentity = true ∧ env.Knows matched := by
  have hplace : ((raw.write env.toIngestEnv dedup (raw.nearby env s) s).1.places.get?
      (raw.write env.toIngestEnv dedup (raw.nearby env s) s).2).isSome = true := by
    rw [RawPlace.write, get?_write, if_pos rfl, duplicate_roedu hsource]
    cases hfound : (if raw.searches dedup = true then
        (roeduCandidates env s raw.externalId raw.name raw.location).head? else none) with
    | some id =>
      split at hfound
      · obtain ⟨p, hp, -⟩ := mem_search.mp (List.mem_of_head? hfound)
        show ((s.places.get? id).map _).isSome = true
        rw [hp]
        rfl
      · cases hfound
    | none =>
      cases hown : raw.ownRow s with
      | some id =>
        obtain ⟨p, hp, -⟩ := get?_of_head? hown
        show ((s.places.get? id).map _).isSome = true
        rw [hp]
        rfl
      | none => rfl
  rw [← @exists_upsertEdges env.toIngestEnv _ raw.source matched _ hplace]
  constructor
  · intro ⟨t, ht⟩
    obtain ⟨hidentity, hedges⟩ := seq_eq_ok.mp ht
    exact ⟨need_eq_ok.mp hidentity, t, hedges⟩
  · intro ⟨hidentity, t, ht⟩
    exact ⟨t, seq_eq_ok.mpr ⟨need_eq_ok.mpr hidentity, ht⟩⟩

theorem unique_ingest_iff {matched : List PlaceMatch} {dedup : Bool} (hsource : raw.source = .roedu)
    (hex : Exclusive s) (huniq : UniqueCarriers s)
    (h : upsertPlace env.toIngestEnv raw matched dedup (raw.nearby env s) s = .ok t) :
    UniqueCarriers t ↔ raw.Stays env s dedup := by
  have hidentity : raw.hasIdentity = true := need_eq_ok.mp (seq_eq_ok.mp h).1
  have hv := externalId_ne hsource hidentity
  have hraw : raw.venues = {raw.externalId} := if_pos ⟨hsource, hv⟩
  have hmem : raw.externalId ∈ raw.venues := by
    rw [hraw]
    exact Finset.mem_singleton_self _
  have hself : ∀ (id : Nat), ∀ w ∈ raw.venues, w = raw.externalId ∨ w ∈ s.venues id := by
    intro id w hw
    rw [hraw] at hw
    exact Or.inl (Finset.mem_singleton.mp hw)
  rw [← target_iff dedup hsource hidentity hex huniq]
  rcases ingest_cases h with ⟨id, hfound, hsets⟩ | ⟨id, hfound, hown, hsets⟩ |
    ⟨hfound, hown, hsets⟩
  · -- The place found is there.
    obtain ⟨p, hp⟩ : ∃ p, s.places.get? id = some p := by
      rw [duplicate_roedu hsource] at hfound
      split at hfound
      · obtain ⟨p, hp, -⟩ := mem_search.mp (List.mem_of_head? hfound)
        exact ⟨p, hp⟩
      · cases hfound
    rw [hp, Option.elim_some] at hsets
    rw [hsets.unique_iff huniq (Finset.mem_union_right _ hmem), RawPlace.target, RawPlace.write,
      hfound]
    · rfl
    · intro w hw
      rw [Catalog.venues_of_get? hp]
      exact (Finset.mem_union.mp hw).elim Or.inr fun hw => (hself id w hw).imp_right fun h => by
        rw [← Catalog.venues_of_get? hp]
        exact h
  · rw [hsets.unique_iff huniq hmem (hself id), RawPlace.target, RawPlace.write, hfound, hown]
    rfl
  · rw [hsets.unique_iff huniq hmem (hself _), RawPlace.target, RawPlace.write, hfound, hown]
    rfl

theorem venues_ingest_other {matched : List PlaceMatch} {dedup : Bool} {nearby : List Nat}
    (hsource : raw.source ≠ .roedu)
    (h : upsertPlace env.toIngestEnv raw matched dedup nearby s = .ok t) (j : Nat) :
    t.venues j ⊆ s.venues j := by
  have hraw : raw.venues = ∅ := if_neg fun h => hsource h.1
  rcases ingest_cases h with ⟨id, -, hsets⟩ | ⟨id, -, -, hsets⟩ | ⟨-, -, hsets⟩
  · refine hsets.subset ?_ j
    show _ ⊆ (s.places.get? id).elim ∅ Place.roeduVenues
    cases s.places.get? id with
    | none => exact Finset.Subset.refl _
    | some =>
      rw [Option.elim_some, hraw, Finset.union_empty]
      exact Finset.Subset.refl _
  · exact hsets.subset (by rw [hraw]; exact Finset.empty_subset _) j
  · exact hsets.subset (by rw [hraw]; exact Finset.empty_subset _) j

/-! ### Runs -/

/-- The condition for one operation: where it commits, every venue that it writes stays with its
place. -/
def ImportAction.Stays (env : SearchEnv) (s : Catalog) : ImportAction → Prop
  | .sync items fails =>
    fails = false → (∀ item ∈ items, env.Knows item.matched) →
      ∀ q ∈ steps (venueStep env) s items,
        SocialActivities.Places.Stays env q.1 q.2.id q.2.title q.2.location
  | .ingest raw matched dedup =>
    raw.source = .roedu → raw.hasIdentity = true → env.Knows matched → raw.Stays env s dedup

theorem sync_eq (items : List VenueItem) (fails : Bool) :
    (fails = false ∧ (∀ item ∈ items, env.Knows item.matched) ∧
      importStep env s (.sync items fails) = run (venueStep env) s items) ∨
    (¬(fails = false ∧ ∀ item ∈ items, env.Knows item.matched) ∧
      importStep env s (.sync items fails) = s) := by
  cases fails with
  | true => exact Or.inr ⟨fun h => (by cases h.1), rfl⟩
  | false =>
    show (_ ∧ _ ∧ (syncVenues env items s).toOption.getD s = _) ∨ _
    by_cases hknows : ∀ item ∈ items, env.Knows item.matched
    · refine Or.inl ⟨rfl, hknows, ?_⟩
      rw [syncVenues_iff.mpr ⟨hknows, rfl⟩]
      rfl
    · refine Or.inr ⟨fun h => hknows h.2, ?_⟩
      show (syncVenues env items s).toOption.getD s = s
      cases h : syncVenues env items s with
      | error => rfl
      | ok => exact absurd (syncVenues_iff.mp h).1 hknows

theorem exclusive_importStep (a : ImportAction) (h : Exclusive s) :
    Exclusive (importStep env s a) := by
  cases a with
  | sync items fails =>
    rcases @sync_eq env s items fails with ⟨-, -, hrun⟩ | ⟨-, hsame⟩
    · rw [hrun]
      exact Machine.run_invariant (fun _ item hs => exclusive_venueStep item hs) h items
    · rw [hsame]
      exact h
  | ingest => exact exclusive_step _ h

theorem unique_step_iff (a : ImportAction) (hex : Exclusive s) (huniq : UniqueCarriers s) :
    UniqueCarriers (importStep env s a) ↔ a.Stays env s := by
  cases a with
  | sync items fails =>
    rcases @sync_eq env s items fails with ⟨hfails, hknows, hrun⟩ | ⟨hno, hsame⟩
    · rw [hrun, unique_items_iff hex huniq hknows]
      exact ⟨fun h _ _ => h, fun h => h hfails hknows⟩
    · rw [hsame]
      exact ⟨fun _ hfails hknows => absurd ⟨hfails, hknows⟩ hno, fun _ => huniq⟩
  | ingest raw matched dedup =>
    rcases catalogStep_eq_or env.toIngestEnv s (.ingest raw matched dedup (raw.nearby env s)) with
      hsame | hok
    · have hstep : importStep env s (.ingest raw matched dedup) = s := hsame
      rw [hstep]
      refine ⟨fun _ hsource hidentity hknows => ?_, fun _ => huniq⟩
      obtain ⟨t, ht⟩ := (@upsertPlace_commits env s raw matched dedup hsource).mpr
        ⟨hidentity, hknows⟩
      have ht' : s = t := hsame.symm.trans (catalogStep_of_ok ht)
      exact (unique_ingest_iff hsource hex huniq ht).mp (ht' ▸ huniq)
    · by_cases hsource : raw.source = .roedu
      · have hcommits := (@upsertPlace_commits env s raw matched dedup hsource).mp ⟨_, hok⟩
        refine (unique_ingest_iff hsource hex huniq hok).trans ?_
        exact ⟨fun h _ _ _ => h, fun h => h hsource hcommits.1 hcommits.2⟩
      · refine ⟨fun _ h => absurd h hsource, fun _ => huniq.mono fun j => ?_⟩
        exact venues_ingest_other hsource hok j

/-- Each venue is carried by one place, after every operation of a run, exactly when all operations
leave their venues where they are. Then the events of every venue in a sync point to the place that
carried it before. -/
theorem one_carrier_iff (env : SearchEnv) (s : Catalog) (hex : Exclusive s)
    (huniq : UniqueCarriers s) (as : List ImportAction) :
    ((∀ q ∈ steps (importStep env) s as, UniqueCarriers (importStep env q.1 q.2)) ↔
      ∀ q ∈ steps (importStep env) s as, q.2.Stays env q.1) ∧
    ((∀ q ∈ steps (importStep env) s as, q.2.Stays env q.1) →
      UniqueCarriers (run (importStep env) s as) ∧
      ∀ q ∈ steps (importStep env) s as, ∀ items, q.2 = .sync items false →
        (∀ item ∈ items, env.Knows item.matched) → ∀ w ∈ steps (venueStep env) q.1 items,
          ∀ id, w.2.id ∈ w.1.venues id → id = (w.2.write (w.2.nearby env w.1) w.1).2) := by
  have hboth : ∀ u a, (Exclusive u ∧ UniqueCarriers u) → a.Stays env u →
      Exclusive (importStep env u a) ∧ UniqueCarriers (importStep env u a) := fun u a h hstays =>
    ⟨exclusive_importStep a h.1, (unique_step_iff a h.1 h.2).mpr hstays⟩
  refine ⟨?_, fun hguard => ⟨?_, ?_⟩⟩
  · exact @Machine.forall_steps_iff _ _ _ (fun u => Exclusive u ∧ UniqueCarriers u) UniqueCarriers
      (fun (u : Catalog) (a : ImportAction) => a.Stays env u)
      (fun u a h => unique_step_iff a h.1 h.2)
      (fun u a h hgood => ⟨exclusive_importStep a h.1, hgood⟩) _ ⟨hex, huniq⟩ as
  · exact (Machine.run_guarded (fun (u : Catalog) (a : ImportAction) => a.Stays env u) hboth
      ⟨hex, huniq⟩ hguard).2
  · intro q hq items hsync hknows w hw id hid
    have hstate := Machine.steps_guarded (fun (u : Catalog) (a : ImportAction) => a.Stays env u)
      hboth ⟨hex, huniq⟩ hguard q hq
    have hstays : ∀ w ∈ steps (venueStep env) q.1 items,
        Stays env w.1 w.2.id w.2.title w.2.location := by
      have h := hguard q hq
      rw [hsync] at h
      exact h rfl hknows
    -- Within the sync, each item finds its venue with one carrier.
    have hwithin : ∀ w ∈ steps (venueStep env) q.1 items, Exclusive w.1 ∧ UniqueCarriers w.1 := by
      intro w hw
      obtain ⟨before, after, rfl, hstate'⟩ := (Machine.mem_steps _).mp hw
      rw [Machine.steps_append] at hstays
      have hprefix := (unique_items_iff hstate.1 hstate.2 fun item hitem =>
        hknows item (List.mem_append_left _ hitem)).mpr fun v hv =>
          hstays v (List.mem_append_left _ hv)
      rw [hstate']
      exact ⟨Machine.run_invariant (fun _ item hs => exclusive_venueStep item hs) hstate.1 before,
        hprefix⟩
    have hw' := hwithin w hw
    rw [snd_write]
    exact (carrier_eq_iff w.2.hasId hw'.1 hw'.2).mpr (hstays w hw) id hid

/-- Two places are far apart unless they share a location, and names are similar when they are
equal. -/
def exactSearch : SearchEnv :=
  { noActivities with
    distance := fun a b => if a = b then 0 else 1000
    similar := fun a b => a == b }

theorem one_carrier_opera :
    UniqueCarriers (run (importStep exactSearch) .empty [.sync [opera] false]) := by
  refine ((one_carrier_iff exactSearch .empty exclusive_empty (fun v p q hp _ => by cases hp)
    [.sync [opera] false]).2 ?_).1
  intro q hq
  simp only [steps, List.mem_cons, List.not_mem_nil, or_false] at hq
  subst hq
  intro _ _ w hw id p hp
  simp only [steps, List.mem_cons, List.not_mem_nil, or_false] at hw
  subst hw
  cases hp

/-- The opera has a row of its own when OSM adds the building, and the next sync claims the
building too. -/
theorem opera_carried_twice :
    ¬∀ (env : SearchEnv) (as : List ImportAction),
      UniqueCarriers (run (importStep env) .empty as) := by
  intro h
  have htwice := h exactSearch
    [.sync [opera] false, .ingest operaHouse [] true, .sync [opera] false] "opera" 1 2
    (by decide +kernel) (by decide +kernel)
  cases htwice

end SocialActivities.Places
