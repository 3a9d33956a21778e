import SocialActivities.Places.Catalog

/-!
# `SocialActivities.Places.PyDedup`: one merge, write by write (`dedup.py`, `dedup_places.py`)

`merge_places` saves edge after edge and then the canonical place, before it deletes the duplicate, which
other rows may forbid. Each save is a write of its own, and stays when a later one fails (`mergePlaces`).
The command runs the whole of it in one transaction (`applyMerge`), so a failure leaves the tables as they
were. `merge_all_or_nothing` says what comes of it.

The values of `raw_tags` are taken up to the `==` of Python, in a type of their own.
-/

namespace SocialActivities.Places.Dedup

open Lib
open Places (Edge)

abbrev Text := List Char

/-! ### Tables -/

/-- A value under a key of `raw_tags`. -/
inductive TagValue (V : Type) where
  | list (items : List V)
  | other (value : V)

inductive RawTags (V : Type) where
  /-- `None`, or an empty value. -/
  | falsy
  | dict (fields : List (Text × TagValue V))
  /-- A value that is not an object. -/
  | other (value : V)

/-- The columns of a place that a merge reads or writes. -/
structure PlaceRow (V : Type) where
  rawTags : RawTags V
  openingHoursRaw : Text
  openingHours : Option V
  source : Text
  externalId : Text
  osmType : Text
  osmId : Option Int

inductive OnDelete where
  | cascade
  | protect
  | setNull
  deriving DecidableEq

/-- A row of another table that names a place. -/
structure Reference where
  onDelete : OnDelete
  place : Option Nat
  deriving DecidableEq

structure Tables (V : Type) where
  places : KeyMap Nat (PlaceRow V)
  /-- The edges by place and activity, of which there is one. -/
  edges : KeyMap (Nat × Nat) Edge
  references : List Reference

/-- A place as it was loaded. -/
structure Instance (V : Type) where
  pk : Nat
  row : PlaceRow V

inductive MergeError where
  | attributeError
  | typeError
  /-- `save(update_fields=…)` found no row. -/
  | databaseError
  | protectedError
  deriving DecidableEq

variable {V : Type}

/-! ### Writes -/

/-- `place.place_activities.all()`. -/
def edgesOf (edges : KeyMap (Nat × Nat) Edge) (pk : Nat) : List (Nat × Edge) :=
  (edges.entries.filter fun row => row.1.1 == pk).map fun row => (row.1.2, row.2)

/-- One round of the loop over the edges of the duplicate. What `canonical_edges` holds is what the table
holds, because each activity comes once. -/
def mergeEdge (canonical duplicate : Nat) (edges : KeyMap (Nat × Nat) Edge) (row : Nat × Edge) :
    KeyMap (Nat × Nat) Edge :=
  match edges.get? (canonical, row.1) with
  | none => (edges.removeIf fun key _ => key == (duplicate, row.1)).set (canonical, row.1) row.2
  | some existing =>
    if !existing.isProtected && existing.confidence < row.2.confidence then
      edges.set (canonical, row.1) { existing with
        confidence := row.2.confidence
        origin := row.2.origin
        source := row.2.source
        mappingRule := row.2.mappingRule }
    else edges

/-- `canonical.raw_tags.get("merged_sources", []) if canonical.raw_tags else []`, as the list that is
looked through and appended to. -/
def mergedSources : RawTags V → Except MergeError (List V)
  | .falsy => .ok []
  | .other _ => .error .attributeError
  | .dict fields =>
    match fields.lookup "merged_sources".toList with
    | none => .ok []
    | some (.list items) => .ok items
    | some (.other _) => .error .typeError

/-- `{**(canonical.raw_tags or {}), "merged_sources": merged}`. -/
def withMerged (tags : RawTags V) (merged : List V) : RawTags V :=
  let fields := match tags with
    | .dict fields => fields
    | _ => []
  if (fields.lookup "merged_sources".toList).isSome then
    .dict (fields.map fun field =>
      if field.1 = "merged_sources".toList then (field.1, .list merged) else field)
  else .dict (fields ++ [("merged_sources".toList, .list merged)])

/-- The fields of the canonical place that a merge saves. -/
def saved (canonical duplicate : PlaceRow V) (merged : List V) (row : PlaceRow V) : PlaceRow V :=
  let fills := canonical.openingHoursRaw.isEmpty && !duplicate.openingHoursRaw.isEmpty
  { row with
    rawTags := withMerged canonical.rawTags merged
    openingHoursRaw := if fills then duplicate.openingHoursRaw else canonical.openingHoursRaw
    openingHours := if fills then duplicate.openingHours else canonical.openingHours }

/-- `canonical.save(update_fields=…)`. -/
def savePlace (pk : Nat) (write : PlaceRow V → PlaceRow V) (db : Tables V) : Option (Tables V) :=
  (db.places.get? pk).map fun row => { db with places := db.places.set pk (write row) }

/-- Some row forbids that the place is deleted. -/
def isProtected (db : Tables V) (pk : Nat) : Bool :=
  db.references.any fun r => r.onDelete == .protect && r.place == some pk

/-- `duplicate.delete()`: nothing is deleted if a row forbids it. -/
def deletePlace (pk : Nat) (db : Tables V) : Option (Tables V) :=
  if isProtected db pk then none
  else some {
    places := db.places.removeIf fun key _ => key == pk
    edges := db.edges.removeIf fun key _ => key.1 == pk
    references := (db.references.filter fun r => !(r.onDelete == .cascade && r.place == some pk)).map fun r =>
      if r.onDelete = .setNull ∧ r.place = some pk then { r with place := none } else r }

/-- A row of writes: what they leave in the tables, and how they end. -/
abbrev Writes (V : Type) := Tables V → Tables V × Except MergeError Unit

/-- `with transaction.atomic()`. -/
def atomic (writes : Writes V) : Writes V := fun db =>
  match writes db with
  | (after, .ok ()) => (after, .ok ())
  | (_, .error e) => (db, .error e)

/-- `merge_places`. `entry` is the object that names the duplicate's source. -/
def mergePlaces [DecidableEq V] (canonical duplicate : Instance V) (entry : V) : Writes V := fun db =>
  if canonical.pk = duplicate.pk then (db, .ok ())
  else
    let db := { db with edges :=
      (edgesOf db.edges duplicate.pk).foldl (mergeEdge canonical.pk duplicate.pk) db.edges }
    match mergedSources canonical.row.rawTags with
    | .error e => (db, .error e)
    | .ok merged =>
      let merged := if entry ∈ merged then merged else merged ++ [entry]
      match savePlace canonical.pk (saved canonical.row duplicate.row merged) db with
      | none => (db, .error .databaseError)
      | some db =>
        match deletePlace duplicate.pk db with
        | none => (db, .error .protectedError)
        | some db => (db, .ok ())

/-- A merge of `dedup_places --apply`. -/
def applyMerge [DecidableEq V] (canonical duplicate : Instance V) (entry : V) : Writes V :=
  atomic (mergePlaces canonical duplicate entry)

/-! ### Edges -/

/-- The edge of the canonical place after a merge. -/
def combined (own : Option Edge) (other : Option Edge) : Option Edge :=
  match own, other with
  | own, none => own
  | none, some e => some e
  | some existing, some e =>
    if !existing.isProtected && existing.confidence < e.confidence then
      some { existing with
        confidence := e.confidence
        origin := e.origin
        source := e.source
        mappingRule := e.mappingRule }
    else some existing

variable {pk : Nat}

theorem mem_edgesOf {edges : KeyMap (Nat × Nat) Edge} {activity : Nat} {e : Edge} :
    (activity, e) ∈ edgesOf edges pk ↔ edges.get? (pk, activity) = some e := by
  rw [← KeyMap.mem_entries_iff]
  simp only [edgesOf, List.mem_map, List.mem_filter, beq_iff_eq]
  constructor
  · rintro ⟨⟨⟨place, act⟩, e'⟩, ⟨hmem, hplace⟩, heq⟩
    simp only [Prod.mk.injEq] at hplace heq
    rw [← hplace, ← heq.1, ← heq.2]
    exact hmem
  · intro hmem
    exact ⟨((pk, activity), e), ⟨hmem, rfl⟩, rfl⟩

theorem nodup_edgesOf (edges : KeyMap (Nat × Nat) Edge) (pk : Nat) : ((edgesOf edges pk).map Prod.fst).Nodup := by
  unfold edgesOf
  rw [List.map_map]
  have hfiltered := edges.nodup.sublist (List.filter_sublist.map Prod.fst : List.Sublist
    ((edges.entries.filter fun row => row.1.1 == pk).map Prod.fst) _)
  have hsnd : ((edges.entries.filter fun row => row.1.1 == pk).map (Prod.fst ∘ fun row => (row.1.2, row.2))) =
      ((edges.entries.filter fun row => row.1.1 == pk).map Prod.fst).map Prod.snd := by
    rw [List.map_map]
    rfl
  rw [hsnd]
  refine hfiltered.map_on fun p hp q hq heq => ?_
  have hplace : ∀ r ∈ (edges.entries.filter fun row => row.1.1 == pk).map Prod.fst, r.1 = pk := by
    intro r hr
    have ⟨row, hrow, hfst⟩ := List.mem_map.mp hr
    rw [← hfst]
    simpa using (List.mem_filter.mp hrow).2
  exact Prod.ext ((hplace p hp).trans (hplace q hq).symm) heq

/-- One round writes the combined edge of its activity, and takes it from the duplicate at most. -/
theorem get?_mergeEdge (canonical : Nat) {duplicate : Nat} (edges : KeyMap (Nat × Nat) Edge)
    (row : Nat × Edge) {place : Nat} (activity : Nat) (hplace : place ≠ duplicate) :
    (mergeEdge canonical duplicate edges row).get? (place, activity) =
      if place = canonical ∧ activity = row.1 then combined (edges.get? (canonical, row.1)) (some row.2)
      else edges.get? (place, activity) := by
  have hkey : (place, activity) = (canonical, row.1) ↔ place = canonical ∧ activity = row.1 := Prod.mk.injEq ..▸ Iff.rfl
  unfold mergeEdge
  cases hown : edges.get? (canonical, row.1) with
  | none =>
    rw [KeyMap.get?_set, KeyMap.get?_removeIf]
    have hother : ((place, activity) == (duplicate, row.1)) = false := by simp [hplace]
    simp only [hkey, hother, combined, Bool.not_false]
    cases edges.get? (place, activity) <;> rfl
  | some =>
    dsimp only
    split
    · next htake =>
      rw [KeyMap.get?_set]
      simp only [hkey, combined, htake, if_true]
    · next hkeep =>
      split
      · next hhere =>
        rw [hhere.1, hhere.2, hown]
        simp only [combined, hkeep]
        rfl
      · rfl

theorem get?_foldl_mergeEdge {canonical duplicate : Nat} (hne : canonical ≠ duplicate) (rows : List (Nat × Edge))
    (hrows : (rows.map Prod.fst).Nodup) (edges : KeyMap (Nat × Nat) Edge) {place : Nat} (activity : Nat)
    (hplace : place ≠ duplicate) :
    (rows.foldl (mergeEdge canonical duplicate) edges).get? (place, activity) =
      if place = canonical then combined (edges.get? (canonical, activity)) (rows.lookup activity)
      else edges.get? (place, activity) := by
  induction rows generalizing edges with
  | nil =>
    simp only [List.foldl_nil, List.lookup_nil]
    split
    · next hhere =>
      rw [hhere]
      cases edges.get? (canonical, activity) <;> rfl
    · rfl
  | cons row rows ih =>
    have ⟨hfresh, hrest⟩ := List.nodup_cons.mp hrows
    rw [List.foldl_cons, ih hrest, List.lookup_cons]
    have hcanonical := get?_mergeEdge canonical edges row activity hne
    have hown := get?_mergeEdge canonical edges row activity hplace
    by_cases hactivity : activity = row.1
    · -- No later round has this activity.
      have hlater : rows.lookup row.1 = none := by
        rw [List.lookup_eq_none_iff]
        intro later hmem
        rw [bne_iff_ne]
        intro heq
        exact hfresh (heq ▸ List.mem_map.mpr ⟨later, hmem, rfl⟩)
      subst hactivity
      rw [hcanonical, hown, hlater]
      by_cases hhere : place = canonical
      · simp [hhere, combined]
      · simp [hhere]
    · have hne' : (activity == row.1) = false := by simpa using hactivity
      rw [hcanonical, hown, hne']
      simp [hactivity]

theorem lookup_edgesOf (edges : KeyMap (Nat × Nat) Edge) (pk activity : Nat) :
    (edgesOf edges pk).lookup activity = edges.get? (pk, activity) := by
  cases hlookup : (edgesOf edges pk).lookup activity with
  | none =>
    cases hget : edges.get? (pk, activity) with
    | none => rfl
    | some =>
      have hnone := List.lookup_eq_none_iff.mp hlookup _ (mem_edgesOf.mpr hget)
      simp at hnone
  | some =>
    have ⟨before, after, heq, _⟩ := List.lookup_eq_some_iff.mp hlookup
    refine (mem_edgesOf.mp ?_).symm
    rw [heq]
    exact List.mem_append_right _ List.mem_cons_self

/-! ### Tags -/

theorem lookup_map_replace {fields : List (Text × TagValue V)} {key : Text} {value : TagValue V}
    (h : (fields.lookup key).isSome = true) :
    (fields.map fun field => if field.1 = key then (field.1, value) else field).lookup key = some value := by
  induction fields with
  | nil => cases h
  | cons field fields ih =>
    rw [List.map_cons, List.lookup_cons]
    by_cases hkey : field.1 = key
    · simp [hkey]
    · have hne : (key == field.1) = false := by simpa using Ne.symm hkey
      rw [List.lookup_cons, hne] at h
      rw [if_neg hkey, hne]
      exact ih h

theorem mergedSources_withMerged {tags : RawTags V} {before : List V} (h : mergedSources tags = .ok before)
    (merged : List V) : mergedSources (withMerged tags merged) = .ok merged := by
  have happend : ∀ fields : List (Text × TagValue V), fields.lookup "merged_sources".toList = none →
      (fields ++ [("merged_sources".toList, TagValue.list merged)]).lookup "merged_sources".toList =
        some (.list merged) := by
    intro fields hnone
    rw [List.lookup_append, hnone]
    simp
  cases tags with
  | other => cases h
  | falsy => rfl
  | dict fields =>
    simp only [withMerged]
    split
    · next hsome => simp only [mergedSources, lookup_map_replace hsome]
    · next hnone =>
      have hnone : fields.lookup "merged_sources".toList = none := Option.not_isSome_iff_eq_none.mp hnone
      simp only [mergedSources, happend fields hnone]

theorem count_recorded [DecidableEq V] (before : List V) (entry : V) :
    (if entry ∈ before then before else before ++ [entry]).count entry = max 1 (before.count entry) ∧
      ∀ v, v ≠ entry → (if entry ∈ before then before else before ++ [entry]).count v = before.count v := by
  split
  · next hmem =>
    have hpos := List.count_pos_iff.mpr hmem
    exact ⟨by omega, fun v _ => rfl⟩
  · next hmem =>
    have hzero := List.count_eq_zero.mpr hmem
    refine ⟨by rw [List.count_append, hzero]; simp, fun v hv => ?_⟩
    rw [List.count_append, List.count_singleton]
    simp [Ne.symm hv]

/-! ### All or nothing -/

/-- A merge that went through. -/
structure Folded [DecidableEq V] (db after : Tables V) (canonical duplicate : Instance V) (entry : V) : Prop where
  edges : ∀ place activity, after.edges.get? (place, activity) =
    if place = duplicate.pk then none
    else if place = canonical.pk then
      combined (db.edges.get? (canonical.pk, activity)) (db.edges.get? (duplicate.pk, activity))
    else db.edges.get? (place, activity)
  /-- The name of the duplicate is recorded once, and the other names stay. -/
  recorded : ∃ before merged row, mergedSources canonical.row.rawTags = .ok before ∧
    db.places.get? canonical.pk = some row ∧
    after.places.get? canonical.pk = some (saved canonical.row duplicate.row merged row) ∧
    mergedSources (saved canonical.row duplicate.row merged row).rawTags = .ok merged ∧
    merged.count entry = max 1 (before.count entry) ∧ ∀ v, v ≠ entry → merged.count v = before.count v
  gone : after.places.get? duplicate.pk = none
  others : ∀ pk, pk ≠ canonical.pk → pk ≠ duplicate.pk → after.places.get? pk = db.places.get? pk
  references : ∀ r ∈ after.references, r.place ≠ some duplicate.pk

variable {after db : Tables V}

theorem references_deleted (h : deletePlace pk db = some after) :
    ∀ r ∈ after.references, r.place ≠ some pk := by
  unfold deletePlace at h
  split at h
  · cases h
  · next hfree =>
    cases h
    intro r hr hplace
    have ⟨old, hold, heq⟩ := List.mem_map.mp hr
    have ⟨hmem, hkeep⟩ := List.mem_filter.mp hold
    have hnot : ¬(old.onDelete = .protect ∧ old.place = some pk) := by
      intro hboth
      apply hfree
      exact List.any_eq_true.mpr ⟨old, hmem, by simp [hboth.1, hboth.2]⟩
    subst heq
    split at hplace
    · cases hplace
    · next hnull =>
      have hcascade : ¬(old.onDelete = .cascade ∧ old.place = some pk) := by
        intro ⟨hpolicy, hnamed⟩
        simp [hpolicy, hnamed] at hkeep
      cases hpolicy : old.onDelete with
      | cascade => exact hcascade ⟨hpolicy, hplace⟩
      | protect => exact hnot ⟨hpolicy, hplace⟩
      | setNull => exact hnull ⟨hpolicy, hplace⟩

theorem atomic_error {writes : Writes V} {e : MergeError} (h : (writes db).2 = .error e) :
    atomic writes db = (db, .error e) := by
  unfold atomic
  rcases hwrites : writes db with ⟨after, result⟩
  rw [hwrites] at h
  subst h
  rfl

theorem atomic_ok {writes : Writes V} (h : writes db = (after, .ok ())) :
    atomic writes db = (after, .ok ()) := by
  unfold atomic
  rw [h]

/-- The writes of a merge that gets as far as the deletion. -/
def folded [DecidableEq V] (canonical duplicate : Instance V) (entry : V) (before : List V) (row : PlaceRow V)
    (db : Tables V) : Tables V :=
  { db with
    edges := (edgesOf db.edges duplicate.pk).foldl (mergeEdge canonical.pk duplicate.pk) db.edges
    places := db.places.set canonical.pk
      (saved canonical.row duplicate.row (if entry ∈ before then before else before ++ [entry]) row) }

theorem folded_of_deleted [DecidableEq V] {canonical duplicate : Instance V} {entry : V}
    {before : List V} {row : PlaceRow V} (hne : canonical.pk ≠ duplicate.pk)
    (hbefore : mergedSources canonical.row.rawTags = .ok before) (hrow : db.places.get? canonical.pk = some row)
    (h : deletePlace duplicate.pk (folded canonical duplicate entry before row db) = some after) :
    Folded db after canonical duplicate entry := by
  have hreferences := references_deleted h
  unfold deletePlace at h
  split at h
  · cases h
  cases h
  have hcount := count_recorded before entry
  refine ⟨fun place activity => ?_, ⟨before, _, row, hbefore, hrow, ?_, mergedSources_withMerged hbefore _, hcount⟩, ?_,
    fun pk hpk hpk' => ?_, hreferences⟩
  · show (KeyMap.removeIf _ _).get? _ = _
    rw [KeyMap.get?_removeIf]
    by_cases hplace : place = duplicate.pk
    · rw [if_pos hplace]
      cases KeyMap.get? _ (place, activity) <;> simp [hplace]
    · have hkeep : ∀ x : Option Edge, x.filter (fun _ => !(place == duplicate.pk)) = x := by
        intro x
        cases x <;> simp [hplace]
      rw [if_neg hplace, hkeep]
      show KeyMap.get? ((edgesOf db.edges duplicate.pk).foldl _ db.edges) _ = _
      rw [get?_foldl_mergeEdge hne _ (nodup_edgesOf _ _) _ activity hplace, lookup_edgesOf]
  · show (KeyMap.removeIf _ _).get? _ = _
    rw [KeyMap.get?_removeIf]
    show Option.filter _ ((db.places.set _ _).get? _) = _
    rw [KeyMap.get?_set, if_pos rfl]
    simp [hne]
  · show (KeyMap.removeIf _ _).get? _ = _
    rw [KeyMap.get?_removeIf]
    cases KeyMap.get? _ duplicate.pk <;> simp
  · show (KeyMap.removeIf _ _).get? _ = _
    rw [KeyMap.get?_removeIf]
    show Option.filter _ ((db.places.set _ _).get? _) = _
    rw [KeyMap.get?_set, if_neg hpk]
    cases db.places.get? pk <;> simp [hpk']

theorem deletePlace_eq_none : deletePlace pk db = none ↔ isProtected db pk = true := by
  unfold deletePlace
  split <;> next h => simp [h]

/-- How the writes of a merge end: with an error, or with a deletion. -/
theorem mergePlaces_eq [DecidableEq V] (canonical duplicate : Instance V) (entry : V) (db : Tables V)
    (hne : canonical.pk ≠ duplicate.pk) :
    (∃ e, (mergePlaces canonical duplicate entry db).2 = .error e ∧
      ¬∃ row before, db.places.get? canonical.pk = some row ∧ mergedSources canonical.row.rawTags = .ok before) ∨
    ∃ row before, db.places.get? canonical.pk = some row ∧ mergedSources canonical.row.rawTags = .ok before ∧
      mergePlaces canonical duplicate entry db =
        match deletePlace duplicate.pk (folded canonical duplicate entry before row db) with
        | none => (folded canonical duplicate entry before row db, .error .protectedError)
        | some after => (after, .ok ()) := by
  cases hmerged : mergedSources canonical.row.rawTags with
  | error e =>
    refine Or.inl ⟨e, ?_, fun ⟨_, _, _, hok⟩ => by cases hok⟩
    simp only [mergePlaces, if_neg hne, hmerged]
  | ok before =>
    cases hrow : db.places.get? canonical.pk with
    | none =>
      refine Or.inl ⟨.databaseError, ?_, fun ⟨_, _, hsome, _⟩ => by cases hsome⟩
      simp only [mergePlaces, if_neg hne, hmerged, savePlace, hrow, Option.map_none]
    | some row =>
      refine Or.inr ⟨row, before, rfl, rfl, ?_⟩
      simp only [mergePlaces, if_neg hne, hmerged, savePlace, hrow, Option.map_some]
      rfl

/-- A merge of a place into another one goes through with all that it has to do, or it leaves every row as it
was. It never goes through where a row forbids that the duplicate is deleted, and otherwise it does if the
canonical place is there and its tags have a list of merged sources, or none yet. -/
theorem merge_all_or_nothing [DecidableEq V] (db : Tables V) (canonical duplicate : Instance V) (entry : V) :
    (canonical.pk = duplicate.pk → applyMerge canonical duplicate entry db = (db, .ok ())) ∧
    (canonical.pk ≠ duplicate.pk →
      (isProtected db duplicate.pk = true → ∃ e, applyMerge canonical duplicate entry db = (db, .error e)) ∧
      (∀ after e, applyMerge canonical duplicate entry db = (after, .error e) → after = db) ∧
      (∀ after, applyMerge canonical duplicate entry db = (after, .ok ()) →
        Folded db after canonical duplicate entry) ∧
      (isProtected db duplicate.pk = false →
        (∃ row before, db.places.get? canonical.pk = some row ∧ mergedSources canonical.row.rawTags = .ok before) →
        ∃ after, applyMerge canonical duplicate entry db = (after, .ok ()))) := by
  refine ⟨fun heq => ?_, fun hne => ?_⟩
  · refine atomic_ok ?_
    simp only [mergePlaces, if_pos heq]
  · rcases mergePlaces_eq canonical duplicate entry db hne with ⟨e, hwrites, hnot⟩ |
        ⟨row, before, hrow, hbefore, hwrites⟩
    · have hresult := atomic_error hwrites
      unfold applyMerge
      rw [hresult]
      exact ⟨fun _ => ⟨e, rfl⟩, fun _ _ h => (Prod.mk.inj h).1.symm, fun _ h => (by cases h), fun _ h => absurd h hnot⟩
    · -- The deletion decides, and the writes before it have not touched the rows that may forbid it.
      have hsame : isProtected (folded canonical duplicate entry before row db) duplicate.pk =
          isProtected db duplicate.pk := rfl
      cases hdelete : deletePlace duplicate.pk (folded canonical duplicate entry before row db) with
      | none =>
        rw [hdelete] at hwrites
        have hprotected := hsame.symm.trans (deletePlace_eq_none.mp hdelete)
        have hresult := atomic_error (congrArg Prod.snd hwrites)
        unfold applyMerge
        rw [hresult]
        refine ⟨fun _ => ⟨_, rfl⟩, fun _ _ h => (Prod.mk.inj h).1.symm, fun _ h => (by cases h), fun hfree _ => ?_⟩
        rw [hprotected] at hfree
        cases hfree
      | some after =>
        rw [hdelete] at hwrites
        have hfree : isProtected db duplicate.pk ≠ true := fun hprotected => by
          rw [deletePlace_eq_none.mpr (hsame.trans hprotected)] at hdelete
          cases hdelete
        have hresult := atomic_ok hwrites
        unfold applyMerge
        rw [hresult]
        refine ⟨fun h => absurd h hfree, fun _ _ h => (by cases h), fun other h => ?_, fun _ _ => ⟨after, rfl⟩⟩
        rw [← (Prod.mk.inj h).1]
        exact folded_of_deleted hne hbefore hrow hdelete

end SocialActivities.Places.Dedup
