import SocialActivities.Places.GoIngest

/-!
# `SocialActivities.Places.PyMerge`: edges of importers and merges (Python)

`apps/ingestion/management/commands/ingest_places.py`, `apps/places/enrichment/dedup.py` and
`apps/places/management/commands/aggregate_unnamed_places.py`, on the same tables. Two of the loops
over edges do what their Go counterparts do (`pyUpsertEdge_eq`, `pyMergeEdge_eq`). The aggregation
does not: it has no check that the edge of the parent is unprotected.
-/

namespace SocialActivities.Places

open Lib

/-- `_upsert_edge`, for one match. -/
def pyUpsertEdge (env : IngestEnv) (place : Nat) (source : PlaceSource) (s : Catalog)
    (m : PlaceMatch) : Except IngestError Catalog :=
  match env.activityTypes m.slug with
  | none => .error .missingTaxonomy
  | some activity =>
    match s.edges.get? (place, activity) with
    | some existing =>
      if existing.isProtected then pure s
      else if m.confidence < existing.confidence then pure s
      else
        pure (s.setEdge place activity { existing with
          origin := .inferred
          confidence := m.confidence
          source := source
          mappingRule := m.ruleID })
    | none => do
      need .foreignKey (s.places.get? place).isSome
      pure (s.setEdge place activity ⟨.inferred, m.confidence, source, m.ruleID, false⟩)

/-- The loop over the matches, for the place that `_resolve_place` has given. -/
def pyUpsertEdges (env : IngestEnv) (place : Nat) (source : PlaceSource)
    (matched : List PlaceMatch) (s : Catalog) : Except IngestError Catalog :=
  matched.foldlM (pyUpsertEdge env place source) s

/-- One round of the loop of `merge_places`. -/
def pyMergeEdge (pair : MergePair) (s : Catalog) (row : Nat × Edge) : Catalog :=
  let activity := row.1
  let e := row.2
  match s.edges.get? (pair.canonical, activity) with
  | none => s.moveEdge pair.duplicate activity pair.canonical e
  | some existing =>
    if !existing.isProtected && existing.confidence < e.confidence then
      s.setEdge pair.canonical activity { existing with
        confidence := e.confidence
        origin := e.origin
        source := e.source
        mappingRule := e.mappingRule }
    else s

/-- What `merge_places` saves in the canonical place. `recorded` is `entry in merged`. -/
def pyFoldPlace (duplicate : Place) (recorded : Bool) (p : Place) : Place :=
  { p with
    mergedSources :=
      if recorded then p.mergedSources
      else p.mergedSources.append (.object duplicate.source duplicate.externalId)
    details :=
      { p.details with
        openingHoursRaw :=
          orElseText p.details.openingHoursRaw duplicate.details.openingHoursRaw } }

/-- The writes of `merge_places`. -/
def pyFoldDuplicate (pair : MergePair) (recorded : Bool) (duplicate : Place) (s : Catalog) :
    Catalog :=
  let folded := (s.edgesOf pair.duplicate).foldl (pyMergeEdge pair) s
  (folded.modifyPlace pair.canonical (pyFoldPlace duplicate recorded)).removePlace pair.duplicate

/-- A text, which has no test for an entry. -/
def MergedSources.isText : MergedSources → Bool
  | .text _ => true
  | _ => false

/-- `merge_places`, in the transaction of `dedup_places`. -/
def pyMergePlaces (pair : MergePair) (recorded : Bool) (s : Catalog) :
    Except IngestError Catalog := do
  let canonical ← (s.places.get? pair.canonical).elim (.error .errNoRows) .ok
  let duplicate ← (s.places.get? pair.duplicate).elim (.error .errNoRows) .ok
  need .typeError (!canonical.mergedSources.isText)
  pure (pyFoldDuplicate pair recorded duplicate s)

/-- One round of the loop of `_merge_and_delete`, over the edges that are not disputed. -/
def pyAggregateEdge (pair : MergePair) (s : Catalog) (row : Nat × Edge) : Catalog :=
  let activity := row.1
  let e := row.2
  if e.isDisputed then s
  else
    match s.edges.get? (pair.canonical, activity) with
    | none =>
      s.setEdge pair.canonical activity ⟨.inferred, e.confidence, e.source, e.mappingRule, false⟩
    | some existing =>
      if existing.confidence < e.confidence then
        s.setEdge pair.canonical activity { existing with
          confidence := e.confidence
          source := e.source
          mappingRule := e.mappingRule }
      else s

/-- The writes of `_merge_and_delete`. -/
def pyFoldChild (pair : MergePair) (s : Catalog) : Catalog :=
  ((s.edgesOf pair.duplicate).foldl (pyAggregateEdge pair) s).removePlace pair.duplicate

/-- `_merge_and_delete` of a parent and its child. `blocked` is the answer of
`_dependency_reasons`. -/
def pyMergeAndDelete (pair : MergePair) (blocked : Bool) (s : Catalog) :
    Except IngestError Catalog := do
  let _ ← (s.places.get? pair.duplicate).elim (.error .errNoRows) .ok
  let _ ← (s.places.get? pair.canonical).elim (.error .errNoRows) .ok
  if blocked then pure s
  else pure (pyFoldChild pair s)

/-! ### What both languages do -/

theorem pyUpsertEdge_eq (env : IngestEnv) (place : Nat) (source : PlaceSource) (s : Catalog)
    (m : PlaceMatch) : pyUpsertEdge env place source s m = upsertEdge env place source s m := by
  unfold pyUpsertEdge upsertEdge
  cases env.activityTypes m.slug with
  | none => rfl
  | some activity =>
    show (match s.edges.get? (place, activity) with | some existing => _ | none => _) =
      writeEdge place activity source s m
    unfold writeEdge
    cases s.edges.get? (place, activity) with
    | none => rfl
    | some existing =>
      dsimp only
      by_cases hprotected : existing.isProtected = true
      · simp [hprotected]
      · by_cases hless : m.confidence < existing.confidence
        · simp [hprotected, hless, not_le.mpr hless]
        · simp [hprotected, hless, not_lt.mp hless]

theorem pyUpsertEdges_eq (env : IngestEnv) (place : Nat) (source : PlaceSource)
    (matched : List PlaceMatch) (s : Catalog) :
    pyUpsertEdges env place source matched s = upsertEdges env place source matched s := by
  have hsame : pyUpsertEdge env place source = upsertEdge env place source := by
    funext s m
    exact pyUpsertEdge_eq env place source s m
  unfold pyUpsertEdges upsertEdges
  rw [hsame]

theorem pyMergeEdge_eq (pair : MergePair) : pyMergeEdge pair = mergeEdge pair false := by
  funext s row
  unfold pyMergeEdge mergeEdge
  dsimp only
  rw [Bool.false_and, if_neg Bool.false_ne_true]
  cases s.edges.get? (pair.canonical, row.1) with
  | none => rfl
  | some =>
    dsimp only
    rw [Bool.and_comm]
    rfl

end SocialActivities.Places
