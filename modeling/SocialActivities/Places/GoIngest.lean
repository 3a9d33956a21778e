import SocialActivities.Lib.Checked
import SocialActivities.Places.Catalog
import SocialActivities.Safety.GoModeration

/-!
# `SocialActivities.Places.GoIngest`: importers and merges (Go)

`internal/commands/places.go`, `internal/commands/merge.go` and the venue part of
`internal/jobs/sync_roedu.go`. Each operation is one transaction, or one item of it. It locks the
rows that it writes until it commits, and reads them again under the lock. Only the searches for a
place nearby read without a lock, so their result is an input here: the ids of the places that a
search found, in its order, whatever has happened to these places since.

An item writes in one of three ways: it is merged into a place that was found, it refreshes the row
of its own, or it inserts one. `Catalog.write` is that choice, and both importers are made of it.
`venues_write` says what it does to the venues of every place, and `venues_mergePlaces` the same for
a merge.
-/

namespace SocialActivities.Places

open Lib
open Safety.Go (trimSpace)

/-- Why an operation of the importers is rolled back. `typeError` is one of the Python merge. -/
inductive IngestError where
  | errInvalid
  | errNoRows
  | missingTaxonomy
  | foreignKey
  | typeError
  deriving DecidableEq

/-- What the importers read outside the catalog. -/
structure IngestEnv where
  /-- `taxonomy_activitytype`, by slug. -/
  activityTypes : String → Option Nat
  /-- `external`: the URL if it is a web address, else nothing. -/
  external : String → String

/-- `jobs.PlaceMatch`: an activity that the tags of a place stand for. -/
structure PlaceMatch where
  slug : String
  ruleID : String
  confidence : Rat
  deriving DecidableEq

/-! ### Edges -/

/-- The edge of a match: a new one, or a stronger match of an edge that no person has made or
confirmed. -/
def writeEdge (place activity : Nat) (source : PlaceSource) (s : Catalog) (m : PlaceMatch) :
    Except IngestError Catalog :=
  match s.edges.get? (place, activity) with
  | none => do
    need .foreignKey (s.places.get? place).isSome
    pure (s.setEdge place activity ⟨.inferred, m.confidence, source, m.ruleID, false⟩)
  | some e =>
    if !e.isProtected && e.confidence ≤ m.confidence then
      pure (s.setEdge place activity { e with
        origin := .inferred
        confidence := m.confidence
        source := source
        mappingRule := m.ruleID })
    else pure s

/-- One round of the loop over the matches. -/
def upsertEdge (env : IngestEnv) (place : Nat) (source : PlaceSource) (s : Catalog)
    (m : PlaceMatch) : Except IngestError Catalog :=
  match env.activityTypes m.slug with
  | none => .error .missingTaxonomy
  | some activity => writeEdge place activity source s m

/-- The loop over the matches. -/
def upsertEdges (env : IngestEnv) (place : Nat) (source : PlaceSource) (matched : List PlaceMatch)
    (s : Catalog) : Except IngestError Catalog :=
  matched.foldlM (upsertEdge env place source) s

/-- Every match names an activity of the taxonomy. -/
def IngestEnv.Knows (env : IngestEnv) (matched : List PlaceMatch) : Prop :=
  ∀ m ∈ matched, (env.activityTypes m.slug).isSome = true

theorem places_writeEdge {place activity : Nat} {source : PlaceSource} {s t : Catalog}
    {m : PlaceMatch} (h : writeEdge place activity source s m = .ok t) : t.places = s.places := by
  unfold writeEdge at h
  split at h
  · rw [← pure_eq_ok.mp (seq_eq_ok.mp h).2]
    rfl
  · split at h
    · rw [← pure_eq_ok.mp h]
      rfl
    · rw [← pure_eq_ok.mp h]

theorem exists_writeEdge {place : Nat} (activity : Nat) (source : PlaceSource) {s : Catalog}
    (m : PlaceMatch) (hplace : (s.places.get? place).isSome = true) :
    ∃ t, writeEdge place activity source s m = .ok t := by
  unfold writeEdge
  split
  · rw [hplace]
    exact ⟨_, rfl⟩
  · split
    · exact ⟨_, rfl⟩
    · exact ⟨_, rfl⟩

theorem places_upsertEdge {env : IngestEnv} {place : Nat} {source : PlaceSource} {s t : Catalog}
    {m : PlaceMatch} (h : upsertEdge env place source s m = .ok t) : t.places = s.places := by
  unfold upsertEdge at h
  split at h
  · cases h
  · exact places_writeEdge h

theorem exists_upsertEdge {env : IngestEnv} {place : Nat} {source : PlaceSource} {s : Catalog}
    {m : PlaceMatch} (hplace : (s.places.get? place).isSome = true) :
    (∃ t, upsertEdge env place source s m = .ok t) ↔ (env.activityTypes m.slug).isSome = true := by
  unfold upsertEdge
  cases env.activityTypes m.slug with
  | none => simp
  | some activity => simpa using exists_writeEdge activity source m hplace

theorem places_upsertEdges {env : IngestEnv} {place : Nat} {source : PlaceSource}
    {matched : List PlaceMatch} {s t : Catalog}
    (h : upsertEdges env place source matched s = .ok t) : t.places = s.places := by
  induction matched generalizing s with
  | nil => rw [← pure_eq_ok.mp h]
  | cons m ms ih =>
    obtain ⟨u, hu, hrest⟩ := bind_eq_ok.mp h
    rw [ih hrest, places_upsertEdge hu]

theorem exists_upsertEdges {env : IngestEnv} {place : Nat} {source : PlaceSource}
    {matched : List PlaceMatch} {s : Catalog} (hplace : (s.places.get? place).isSome = true) :
    (∃ t, upsertEdges env place source matched s = .ok t) ↔ env.Knows matched := by
  induction matched generalizing s with
  | nil => simp [upsertEdges, IngestEnv.Knows]
  | cons m ms ih =>
    have hfirst := @exists_upsertEdge env place source s m hplace
    have hsplit : env.Knows (m :: ms) ↔
        (env.activityTypes m.slug).isSome = true ∧ env.Knows ms := List.forall_mem_cons
    rw [hsplit, ← hfirst]
    constructor
    · intro ⟨t, h⟩
      obtain ⟨u, hu, hrest⟩ := bind_eq_ok.mp h
      have hu' : (u.places.get? place).isSome = true := by rw [places_upsertEdge hu, hplace]
      exact ⟨⟨u, hu⟩, (ih hu').mp ⟨t, hrest⟩⟩
    · intro ⟨⟨u, hu⟩, hms⟩
      have hu' : (u.places.get? place).isSome = true := by rw [places_upsertEdge hu, hplace]
      obtain ⟨t, ht⟩ := (ih hu').mpr hms
      exact ⟨t, bind_eq_ok.mpr ⟨u, hu, ht⟩⟩

def mapRoeduVenue (env : IngestEnv) (place : Nat) (matched : List PlaceMatch) (s : Catalog) :
    Except IngestError Catalog :=
  upsertEdges env place .roedu matched s

/-! ### The row of an item -/

/-- The place is there, and no other venue has claimed it. -/
def isFree (s : Catalog) (external : String) (id : Nat) : Bool :=
  match s.places.get? id with
  | some p => p.roeduVenues ⊆ {external}
  | none => false

/-- The second loop of `FindRoeduDuplicate`: the first of the places found that is free, read again
under its lock. -/
def findRoeduDuplicate (s : Catalog) (external : String) (candidates : List Nat) : Option Nat :=
  candidates.find? (isFree s external)

theorem isFree_iff {s : Catalog} {external : String} {id : Nat} :
    isFree s external id = true ↔ ∃ p, s.places.get? id = some p ∧ p.roeduVenues ⊆ {external} := by
  unfold isFree
  cases s.places.get? id with
  | none | some => simp

/-- The place that an item is merged into, or its own row, or a new row. -/
def Catalog.write (s : Catalog) (found own : Option Nat) (merge refresh : Place → Place)
    (row : Place) : Catalog × Nat :=
  match found with
  | some id => (s.modifyPlace id merge, id)
  | none =>
    match own with
    | some id => (s.modifyPlace id refresh, id)
    | none => (s.insertPlace row, s.nextId)

/-- The row that a write leaves under the id it gives. -/
def Catalog.written (s : Catalog) (found own : Option Nat) (merge refresh : Place → Place)
    (row : Place) : Option Place :=
  match found with
  | some id => (s.places.get? id).map merge
  | none =>
    match own with
    | some id => (s.places.get? id).map refresh
    | none => some row

theorem get?_write (s : Catalog) (found own : Option Nat) (merge refresh : Place → Place)
    (row : Place) (j : Nat) :
    (s.write found own merge refresh row).1.places.get? j =
      if j = (s.write found own merge refresh row).2 then s.written found own merge refresh row
      else s.places.get? j := by
  have hmodify : ∀ (id : Nat) (f : Place → Place), (s.modifyPlace id f).places.get? j =
      if j = id then (s.places.get? id).map f else s.places.get? j := by
    intro id f
    rw [Catalog.get?_modifyPlace]
    by_cases hj : j = id <;> simp [hj]
  cases found with
  | some id => exact hmodify id merge
  | none =>
    cases own with
    | some id => exact hmodify id refresh
    | none => exact s.get?_insertPlace row j

/-- `CASE WHEN column='' THEN value ELSE column END`. -/
def orElseText (column value : String) : String := if column = "" then value else column

/-- `RawPlace`. Of its tags, only one with the name `merged_sources` is read again. -/
structure RawPlace where
  source : PlaceSource
  osmType : String
  osmId : Option Int
  externalId : String
  name : String
  location : Point
  mergedSourcesTag : Option String
  details : Details
  deriving DecidableEq

namespace RawPlace

variable (raw : RawPlace)

/-- The checks on the identity of the place. -/
def hasIdentity : Bool :=
  if raw.source = .osm then raw.osmId.any (1 ≤ ·) else raw.externalId != ""

/-- The `WHERE` of the row that the same place has in the catalog. -/
def isRow (p : Place) : Bool :=
  p.source == raw.source &&
    (if raw.source = .osm then p.osmType == raw.osmType && p.osmId == raw.osmId
      else p.externalId == raw.externalId)

/-- The columns of an insert, and of an update. -/
def row (env : IngestEnv) : Place where
  name := raw.name
  source := raw.source
  osmType := raw.osmType
  osmId := raw.osmId
  externalId := raw.externalId
  location := raw.location
  mergedSources := raw.mergedSourcesTag.elim .missing .text
  details :=
    { raw.details with
      website := env.external raw.details.website
      provenanceURL := env.external raw.details.provenanceURL }

/-- The update of the place that it is merged into. -/
def mergeInto (env : IngestEnv) (p : Place) : Place :=
  { p with
    mergedSources := p.mergedSources.append (.object raw.source raw.externalId)
    details :=
      { openingHoursRaw := orElseText p.details.openingHoursRaw raw.details.openingHoursRaw
        website := orElseText p.details.website (env.external raw.details.website)
        phone := orElseText p.details.phone raw.details.phone
        attribution := orElseText p.details.attribution raw.details.attribution
        licenseName := orElseText p.details.licenseName raw.details.licenseName
        provenanceURL :=
          orElseText p.details.provenanceURL (env.external raw.details.provenanceURL) } }

/-- Where `upsertPlace` looks for a place to merge into: not for a place of OSM, nor for one without
a name. -/
def searches (dedup : Bool) : Bool :=
  dedup && raw.source != .osm && !(trimSpace raw.name).isEmpty

/-- The place that it is merged into. An RO-EDU venue takes only a place that is free. -/
def duplicate (dedup : Bool) (nearby : List Nat) (s : Catalog) : Option Nat :=
  if raw.searches dedup then
    if raw.source = .roedu then findRoeduDuplicate s raw.externalId nearby else nearby.head?
  else none

/-- The row of its own. -/
def ownRow (s : Catalog) : Option Nat := (s.places.keysWhere fun _ p => raw.isRow p).head?

/-- The write to `places_place`. -/
def write (env : IngestEnv) (dedup : Bool) (nearby : List Nat) (s : Catalog) : Catalog × Nat :=
  s.write (raw.duplicate dedup nearby s) (raw.ownRow s) (raw.mergeInto env)
    (fun _ => raw.row env) (raw.row env)

end RawPlace

def upsertPlace (env : IngestEnv) (raw : RawPlace) (matched : List PlaceMatch) (dedup : Bool)
    (nearby : List Nat) (s : Catalog) : Except IngestError Catalog := do
  need .errInvalid raw.hasIdentity
  let written := raw.write env dedup nearby s
  upsertEdges env written.2 raw.source matched written.1

/-- A venue item of a pack, with the activities that its tags stand for. The validation of the pack
refuses an item without an id. -/
structure VenueItem where
  id : String
  title : String
  location : Point
  website : String
  attribution : String
  license : String
  matched : List PlaceMatch
  hasId : id ≠ ""

/-- The row of the source RO-EDU with an external id. -/
def roeduRow (s : Catalog) (external : String) : Option Nat :=
  (s.places.keysWhere fun _ p => p.source == .roedu && p.externalId == external).head?

namespace VenueItem

variable (item : VenueItem)

/-- The entry that records the claim. -/
def entry : MergedEntry := .object .roedu item.id

/-- The update of the place that the venue claims. A claim is recorded once. -/
def claim (p : Place) : Place :=
  { p with
    mergedSources :=
      if item.entry ∈ p.mergedSources.entries then p.mergedSources
      else p.mergedSources.append item.entry
    details :=
      { p.details with
        website := orElseText p.details.website item.website
        attribution := orElseText p.details.attribution item.attribution
        licenseName := orElseText p.details.licenseName item.license } }

/-- The update of the venue's own row. -/
def refresh (p : Place) : Place :=
  { p with
    name := item.title
    location := item.location
    details :=
      { p.details with
        website := item.website
        attribution := item.attribution
        licenseName := item.license
        provenanceURL := "" } }

/-- The venue's own row, new. -/
def row : Place where
  name := item.title
  source := .roedu
  osmType := ""
  osmId := none
  externalId := item.id
  location := item.location
  mergedSources := .missing
  details := ⟨"", item.website, "", item.attribution, item.license, ""⟩

/-- The venue's own row. -/
def ownRow (s : Catalog) : Option Nat := roeduRow s item.id

/-- The write to `places_place`, and the place that the venue's events point to. -/
def write (nearby : List Nat) (s : Catalog) : Catalog × Nat :=
  s.write (findRoeduDuplicate s item.id nearby) (item.ownRow s) item.claim item.refresh item.row

end VenueItem

/-- The venue loop of `ApplyRoeduWithOptions`, for one item. -/
def syncVenue (env : IngestEnv) (item : VenueItem) (nearby : List Nat) (s : Catalog) :
    Except IngestError Catalog :=
  let written := item.write nearby s
  mapRoeduVenue env written.2 item.matched written.1

/-! ### Merges -/

/-- A pair of places to merge. The searches of both callers leave out the place itself. -/
structure MergePair where
  canonical : Nat
  duplicate : Nat
  distinct : canonical ≠ duplicate

/-- One round of the loop over the edges of the duplicate. -/
def mergeEdge (pair : MergePair) (aggregate : Bool) (s : Catalog) (row : Nat × Edge) : Catalog :=
  let activity := row.1
  let e := row.2
  if aggregate && e.isDisputed then s
  else
    match s.edges.get? (pair.canonical, activity) with
    | none =>
      if aggregate then
        s.setEdge pair.canonical activity ⟨.inferred, e.confidence, e.source, e.mappingRule, false⟩
      else s.moveEdge pair.duplicate activity pair.canonical e
    | some existing =>
      if existing.confidence < e.confidence && !existing.isProtected then
        s.setEdge pair.canonical activity { existing with
          origin := if aggregate then existing.origin else e.origin
          confidence := e.confidence
          source := e.source
          mappingRule := e.mappingRule }
      else s

/-- What the canonical place takes over from the row of the duplicate. -/
def foldPlace (duplicate : Place) (p : Place) : Place :=
  { p with
    mergedSources := p.mergedSources.append (.object duplicate.source duplicate.externalId)
    details :=
      { p.details with
        openingHoursRaw :=
          orElseText p.details.openingHoursRaw duplicate.details.openingHoursRaw } }

theorem places_mergeEdge (pair : MergePair) (aggregate : Bool) (s : Catalog) (row : Nat × Edge) :
    (mergeEdge pair aggregate s row).places = s.places := by
  unfold mergeEdge
  dsimp only
  split
  · rfl
  · split
    · split <;> rfl
    · split <;> rfl

theorem places_mergeEdges (pair : MergePair) (aggregate : Bool) (rows : List (Nat × Edge))
    (s : Catalog) : (rows.foldl (mergeEdge pair aggregate) s).places = s.places := by
  induction rows generalizing s with
  | nil => rfl
  | cons row rows ih => rw [List.foldl_cons, ih, places_mergeEdge]

/-- The writes of a merge: the edges, the sources where the duplicate is a place of its own, and
then the duplicate goes. -/
def foldDuplicate (pair : MergePair) (aggregate : Bool) (duplicate : Place) (s : Catalog) :
    Catalog :=
  let folded := (s.edgesOf pair.duplicate).foldl (mergeEdge pair aggregate) s
  let recorded :=
    if aggregate then folded else folded.modifyPlace pair.canonical (foldPlace duplicate)
  recorded.removePlace pair.duplicate

/-- `mergePlaces`. `blocked` is the answer of `placeDependents`: whether a row of another table
points to the duplicate. -/
def mergePlaces (pair : MergePair) (aggregate blocked : Bool) (s : Catalog) :
    Except IngestError Catalog := do
  let canonical ← (s.places.get? pair.canonical).elim (.error .errNoRows) .ok
  let duplicate ← (s.places.get? pair.duplicate).elim (.error .errNoRows) .ok
  if blocked || 1 < (canonical.roeduVenues ∪ duplicate.roeduVenues).card then pure s
  else pure (foldDuplicate pair aggregate duplicate s)

/-! ### Steps -/

/-- An operation on the catalog, with what its search has found. -/
inductive CatalogAction where
  | ingest (raw : RawPlace) (matched : List PlaceMatch) (dedup : Bool) (nearby : List Nat)
  | venue (item : VenueItem) (nearby : List Nat)
  | merge (pair : MergePair) (aggregate blocked : Bool)

/-- The operation, if it is not rolled back. -/
def CatalogAction.apply (env : IngestEnv) (s : Catalog) :
    CatalogAction → Except IngestError Catalog
  | .ingest raw matched dedup nearby => upsertPlace env raw matched dedup nearby s
  | .venue item nearby => syncVenue env item nearby s
  | .merge pair aggregate blocked => mergePlaces pair aggregate blocked s

/-- One step: an operation that fails changes nothing. -/
def catalogStep (env : IngestEnv) (s : Catalog) (a : CatalogAction) : Catalog :=
  (a.apply env s).toOption.getD s

/-- The place itself, or the canonical place, where the step has merged it into that. -/
def MergePair.heir (pair : MergePair) (s t : Catalog) (id : Nat) : Nat :=
  if id = pair.duplicate ∧ (s.places.get? id).isSome ∧ (t.places.get? id).isNone then pair.canonical
  else id

/-- The place that stands for a place after a step. -/
def heir (env : IngestEnv) (s : Catalog) (a : CatalogAction) (id : Nat) : Nat :=
  match a with
  | .merge pair _ _ => pair.heir s (catalogStep env s a) id
  | _ => id

theorem heir_same (pair : MergePair) (s : Catalog) (id : Nat) : pair.heir s s id = id := by
  refine if_neg fun h => ?_
  rw [Option.isNone_iff_eq_none] at h
  rw [h.2.2] at h
  cases h.2.1

theorem heir_duplicate {pair : MergePair} {s t : Catalog} {p : Place}
    (hp : s.places.get? pair.duplicate = some p) (ht : t.places.get? pair.duplicate = none) :
    pair.heir s t pair.duplicate = pair.canonical := by
  refine if_pos ⟨rfl, ?_, ?_⟩
  · rw [hp]
    rfl
  · rw [ht]
    rfl

theorem heir_ne {pair : MergePair} {s t : Catalog} {id : Nat} (h : id ≠ pair.duplicate) :
    pair.heir s t id = id := if_neg fun hid => h hid.1

end SocialActivities.Places
