import SocialActivities.Snapshots.Records

/-!
# `SocialActivities.Snapshots.Decoding`: a dataset that was exported, as the loader decodes it

The typed view of every record can be read, whatever the row holds. So a dataset is accepted exactly
when its ids are above zero and different (`validateRecords_map`, `acceptDataset_events` and its
siblings), and a taxonomy exactly when its slugs are not empty and different (`acceptDataset_taxonomy`).
-/

namespace SocialActivities.Snapshots

open Lib

/-! ### Values -/

theorem int64?_ofInt {i : Int} (h : -2 ^ 63 ≤ i ∧ i < 2 ^ 63) : int64? (.ofInt i) = some i := by
  unfold int64?
  rw [NumberText.integerValue_ofInt]
  exact if_pos ⟨rfl, h⟩

theorem asInt_id (id : Int64) : asInt (some (jsonId id)) = some id.toInt :=
  int64?_ofInt ⟨id.le_toInt, id.toInt_lt⟩

theorem asInt_count {n : Nat} {i : Int} :
    asInt (some (jsonCount n)) = some i ↔ (n : Int) = i ∧ (n : Int) < 2 ^ 63 := by
  show int64? (.ofInt n) = some i ↔ _
  constructor
  · intro h
    unfold int64? at h
    rw [NumberText.integerValue_ofInt] at h
    split at h
    · next hrange => exact ⟨Option.some.inj h, hrange.2.2⟩
    · cases h
  · intro ⟨heq, hlt⟩
    rw [int64?_ofInt ⟨by omega, hlt⟩, heq]

theorem asIntPointer_option (o : Option Int64) :
    asIntPointer (some (jsonOption jsonId o)) = some (o.map Int64.toInt) := by
  cases o with
  | none => rfl
  | some id =>
    show (int64? (.ofInt id.toInt)).map some = _
    rw [int64?_ofInt ⟨id.le_toInt, id.toInt_lt⟩]
    rfl

theorem asFloatPointer_option (o : Option Coordinate) :
    ∃ x, asFloatPointer (some (jsonOption jsonCoordinate o)) = some x := by
  cases o with
  | none => exact ⟨none, rfl⟩
  | some c =>
    have ⟨x, hx⟩ := Option.isSome_iff_exists.mp c.finite
    refine ⟨some x, ?_⟩
    show c.text.parseFloat.map some = _
    rw [hx]
    rfl

theorem asString_option (o : Option Text) :
    asString (some (jsonOption .string o)) = some (o.getD []) := by
  cases o <;> rfl

theorem asPlaceSummary_option (o : Option PlaceSummary) :
    ∃ p, asPlaceSummary (some (jsonOption placeSummaryJson o)) = some p := by
  cases o with
  | none => exact ⟨none, rfl⟩
  | some p =>
    have ⟨lat, hlat⟩ := asFloatPointer_option p.lat
    have ⟨lon, hlon⟩ := asFloatPointer_option p.lon
    have hlat' : field? (placeSummaryJson p) "lat".toList = some (jsonOption jsonCoordinate p.lat) := rfl
    have hlon' : field? (placeSummaryJson p) "lon".toList = some (jsonOption jsonCoordinate p.lon) := rfl
    have hname : field? (placeSummaryJson p) "name".toList = some (.string p.name) := rfl
    have hcity : field? (placeSummaryJson p) "city".toList = some (.string p.city) := rfl
    refine ⟨some ⟨p.name, p.city, lat, lon⟩, ?_⟩
    show (do
      pure (some ⟨← asString (field? (placeSummaryJson p) "name".toList),
        ← asString (field? (placeSummaryJson p) "city".toList),
        ← asFloatPointer (field? (placeSummaryJson p) "lat".toList),
        ← asFloatPointer (field? (placeSummaryJson p) "lon".toList)⟩) :
      Option (Option PlaceSummaryFields)) = _
    rw [hlat', hlon', hname, hcity, hlat, hlon]
    rfl

/-! ### Records -/

theorem recordId_event (e : EventView) : recordId (eventRecord e) = some e.row.id.toInt := by
  have hid : field? (eventRecord e) "id".toList = some (jsonId e.row.id) := rfl
  unfold recordId
  rw [hid]
  exact asInt_id e.row.id

theorem recordId_place (p : PlaceRow) (path : Text) :
    recordId (placeRecord p path) = some p.id.toInt := by
  have hid : field? (placeRecord p path) "id".toList = some (jsonId p.id) := rfl
  unfold recordId
  rw [hid]
  exact asInt_id p.id

theorem recordId_activity (a : ActivityRow) (startsAt : Text) :
    recordId (activityRecord a startsAt) = some a.id.toInt := by
  have hid : field? (activityRecord a startsAt) "id".toList = some (jsonId a.id) := rfl
  unfold recordId
  rw [hid]
  exact asInt_id a.id

/-- A key that is allowed and was not seen. -/
def newKey {κ : Type} [BEq κ] (allowed : κ → Bool) (seen : List κ) (key : κ) : Bool :=
  allowed key && !seen.contains key

/-- The keys of some rows, each new when it is read. -/
def newKeys {κ : Type} [BEq κ] (allowed : κ → Bool) : List κ → List κ → Bool
  | _, [] => true
  | seen, key :: keys => newKey allowed seen key && newKeys allowed (key :: seen) keys

theorem newKeys_iff {κ : Type} [BEq κ] [LawfulBEq κ] {allowed : κ → Bool} {seen keys : List κ} :
    newKeys allowed seen keys = true ↔ (∀ key ∈ keys, newKey allowed seen key = true) ∧ keys.Nodup := by
  induction keys generalizing seen with
  | nil => exact ⟨fun _ => ⟨fun key hkey => (by cases hkey), List.nodup_nil⟩, fun _ => rfl⟩
  | cons key keys ih =>
    have hseen : ∀ k, newKey allowed (key :: seen) k = true ↔ newKey allowed seen k = true ∧ k ≠ key := by
      intro k
      unfold newKey
      simp only [Bool.and_eq_true, Bool.not_eq_true', List.contains_eq_mem, List.mem_cons,
        decide_eq_false_iff_not, not_or, and_assoc]
      exact and_congr_right fun _ => and_comm
    rw [newKeys, Bool.and_eq_true, ih, List.forall_mem_cons, List.nodup_cons, and_assoc]
    simp only [hseen]
    constructor
    · intro ⟨hnew, hrest, hnodup⟩
      exact ⟨hnew, fun k hk => (hrest k hk).1, fun hmem => (hrest key hmem).2 rfl, hnodup⟩
    · intro ⟨hnew, hrest, hfresh, hnodup⟩
      exact ⟨hnew, fun k hk => ⟨hrest k hk, fun heq => hfresh (heq ▸ hk)⟩, hnodup⟩

/-- What is left to check of a record that was reviewed. -/
def newId : List Int → Int → Bool := newKey fun id => decide (0 < id)

/-- A record of reviewed fields is accepted exactly when its id is new. -/
theorem validateRecord_iff {name : DatasetName} {seen : List Int} {record : GoJson} {id i : Int}
    (hreview : reviewedObject (recordFields name) record = .ok ()) (hid : recordId record = some id)
    (hadult : name = .activities → field? record "cohort".toList = some (.string "adult".toList))
    (hsummary : name = .events →
      reviewNested placeSummaryFields (field? record "place_summary".toList) = .ok ())
    (hcredit : name = .events →
      reviewNested creditFields (field? record "attribution_credit".toList) = .ok ()) :
    validateRecord name seen record = .ok i ↔ newId seen id = true ∧ id = i := by
  unfold validateRecord
  rw [seq_eq_ok, bind_eq_ok, hid]
  simp only [hreview, true_and, Option.elim_some, Except.ok.injEq, exists_eq_left']
  rw [seq_eq_ok, need_eq_ok]
  refine and_congr_right fun _ => ?_
  cases name with
  | events =>
    simp only [reduceCtorEq, if_false, if_true]
    rw [hsummary rfl, hcredit rfl]
    exact pure_eq_ok
  | places => exact pure_eq_ok
  | activities =>
    simp only [reduceCtorEq, if_false, if_true]
    rw [hadult rfl, seq_eq_ok, need_eq_ok]
    exact ⟨fun h => pure_eq_ok.mp h.2, fun h => ⟨rfl, pure_eq_ok.mpr h⟩⟩
  | taxonomy => exact pure_eq_ok

theorem validateRecord_event {seen : List Int} {e : EventView} {i : Int} :
    validateRecord .events seen (eventRecord e) = .ok i ↔
      newId seen e.row.id.toInt = true ∧ e.row.id.toInt = i := by
  have hsummary : field? (eventRecord e) "place_summary".toList =
    some (jsonOption placeSummaryJson e.row.placeSummary) := rfl
  have hcredit : field? (eventRecord e) "attribution_credit".toList =
    some (jsonOption creditJson e.credit) := rfl
  exact validateRecord_iff (reviewed_eventRecord e) (recordId_event e) (fun h => by cases h)
    (fun _ => hsummary ▸ reviewed_placeSummary _) (fun _ => hcredit ▸ reviewed_credit _)

theorem validateRecord_place {seen : List Int} {p : PlaceRow} {path : Text} {i : Int} :
    validateRecord .places seen (placeRecord p path) = .ok i ↔
      newId seen p.id.toInt = true ∧ p.id.toInt = i :=
  validateRecord_iff (reviewed_placeRecord p path) (recordId_place p path) (fun h => by cases h)
    (fun h => by cases h) (fun h => by cases h)

theorem validateRecord_activity {seen : List Int} {a : ActivityRow} {startsAt : Text} {i : Int}
    (hadult : a.cohort = "adult".toList) :
    validateRecord .activities seen (activityRecord a startsAt) = .ok i ↔
      newId seen a.id.toInt = true ∧ a.id.toInt = i := by
  have hcohort : field? (activityRecord a startsAt) "cohort".toList = some (.string a.cohort) := rfl
  exact validateRecord_iff (reviewed_activityRecord a startsAt) (recordId_activity a startsAt)
    (fun _ => hadult ▸ hcohort) (fun h => by cases h) (fun h => by cases h)

/-- The records of some rows are accepted exactly when their ids are above zero and different. -/
theorem validateRecords_map {α : Type} {name : DatasetName} {record : α → GoJson} {id : α → Int}
    {rows : List α} (hone : ∀ a ∈ rows, ∀ seen i,
      validateRecord name seen (record a) = .ok i ↔ newId seen (id a) = true ∧ id a = i)
    {seen : List Int} : validateRecords name seen (rows.map record) = .ok () ↔
      newKeys (fun id => decide (0 < id)) seen (rows.map id) = true := by
  induction rows generalizing seen with
  | nil => exact ⟨fun _ => rfl, fun _ => rfl⟩
  | cons a rows ih =>
    show (validateRecord name seen (record a) >>= fun i =>
      validateRecords name (i :: seen) (rows.map record)) = .ok () ↔ _
    simp only [bind_eq_ok, hone a List.mem_cons_self, and_assoc, exists_and_left, exists_eq_left']
    rw [ih fun b hb => hone b (List.mem_cons_of_mem a hb), List.map_cons, newKeys, Bool.and_eq_true]
    rfl

theorem newIds_iff {ids : List Int64} (h : ids.Nodup) :
    newKeys (fun id : Int => decide (0 < id)) [] (ids.map Int64.toInt) = true ↔
      ∀ id ∈ ids, 0 < id.toInt := by
  have hnodup : (ids.map Int64.toInt).Nodup := h.map fun _ _ heq => Int64.toInt_inj.mp heq
  rw [newKeys_iff]
  simp only [hnodup, and_true, List.forall_mem_map]
  exact forall₂_congr fun id _ => by simp [newKey]

/-! ### The typed views -/

theorem parseEvent_record (e : EventView) : ∃ r, parseEvent (eventRecord e) = some r := by
  have ⟨summary, hsummary⟩ := asPlaceSummary_option e.row.placeSummary
  have h1 : field? (eventRecord e) "activity".toList = some (jsonOption .string e.row.activity) := rfl
  have h2 : field? (eventRecord e) "activity_type".toList = none := rfl
  have h3 : field? (eventRecord e) "id".toList = some (jsonId e.row.id) := rfl
  have h4 : field? (eventRecord e) "title".toList = some (.string e.row.title) := rfl
  have h5 : field? (eventRecord e) "description".toList = some (.string e.row.description) := rfl
  have h6 : field? (eventRecord e) "starts_at".toList = some (.string e.startsAt) := rfl
  have h7 : field? (eventRecord e) "place_id".toList = some (jsonOption jsonId e.row.placeId) := rfl
  have h8 : field? (eventRecord e) "place_summary".toList =
    some (jsonOption placeSummaryJson e.row.placeSummary) := rfl
  unfold parseEvent
  rw [h1, h2, h3, h4, h5, h6, h7, h8, asString_option, asInt_id, asIntPointer_option, hsummary]
  exact ⟨_, rfl⟩

theorem parsePlace_record (p : PlaceRow) (path : Text) :
    ∃ r, parsePlace (placeRecord p path) = some r := by
  have ⟨lat, hlat⟩ := asFloatPointer_option p.lat
  have ⟨lon, hlon⟩ := asFloatPointer_option p.lon
  have h1 : field? (placeRecord p path) "id".toList = some (jsonId p.id) := rfl
  have h2 : field? (placeRecord p path) "name".toList = some (.string p.name) := rfl
  have h3 : field? (placeRecord p path) "city".toList = some (.string p.city) := rfl
  have h4 : field? (placeRecord p path) "lat".toList = some (jsonOption jsonCoordinate p.lat) := rfl
  have h5 : field? (placeRecord p path) "lon".toList = some (jsonOption jsonCoordinate p.lon) := rfl
  have h6 : field? (placeRecord p path) "activity_types".toList =
    some (.array (p.activityTypes.map .string)) := rfl
  unfold parsePlace
  rw [h1, h2, h3, h4, h5, h6, asInt_id, hlat, hlon, asStrings_strings]
  exact ⟨_, rfl⟩

theorem parseActivity_record (a : ActivityRow) (startsAt : Text) :
    ∃ r, parseActivity (activityRecord a startsAt) = some r := by
  have h1 : field? (activityRecord a startsAt) "id".toList = some (jsonId a.id) := rfl
  have h2 : field? (activityRecord a startsAt) "title".toList = some (.string a.title) := rfl
  have h3 : field? (activityRecord a startsAt) "starts_at".toList = some (.string startsAt) := rfl
  have h4 : field? (activityRecord a startsAt) "status".toList = some (.string a.status) := rfl
  have h5 : field? (activityRecord a startsAt) "activity_type".toList =
    some (jsonOption .string a.activityType) := rfl
  have h6 : field? (activityRecord a startsAt) "place_id".toList =
    some (jsonOption jsonId a.placeId) := rfl
  unfold parseActivity
  rw [h1, h2, h3, h4, h5, h6, asInt_id, asString_option, asIntPointer_option]
  exact ⟨_, rfl⟩

theorem mapM_record {α β : Type} {parse : GoJson → Option β} {record : α → GoJson}
    (h : ∀ a, ∃ r, parse (record a) = some r) (rows : List α) :
    ∃ rs, (rows.map record).mapM parse = some rs := by
  induction rows with
  | nil => exact ⟨[], rfl⟩
  | cons a rows ih =>
    have ⟨r, hr⟩ := h a
    have ⟨rs, hrs⟩ := ih
    rw [List.map_cons, List.mapM_cons, hr, hrs]
    exact ⟨r :: rs, rfl⟩

/-! ### Datasets -/

theorem decodeDatasetFile_file {generated : Text} {records : List GoJson}
    (h : (records.length : Int) < 2 ^ 63) :
    decodeDatasetFile (datasetFile generated records) =
      some ⟨2, generated, records.length, records⟩ := by
  have h1 : field? (datasetFile generated records) "schema_version".toList =
    some (.number (.ofInt 2)) := rfl
  have h2 : field? (datasetFile generated records) "generated_at".toList =
    some (.string generated) := rfl
  have h3 : field? (datasetFile generated records) "count".toList =
    some (jsonCount records.length) := rfl
  have h4 : field? (datasetFile generated records) "records".toList = some (.array records) := rfl
  have honly : onlyFields ["schema_version".toList, "generated_at".toList, "count".toList,
    "records".toList] (datasetFile generated records) = true := rfl
  unfold decodeDatasetFile
  rw [if_pos honly, h1, h2, h3, h4, asInt_count.mpr ⟨rfl, h⟩]
  rfl

theorem unique_datasetFile {generated : Text} {records : List GoJson}
    (h : ∀ d ∈ records, uniqueValue 2 d = true) : uniqueValue 0 (datasetFile generated records) = true := by
  refine @unique_object 0 _
    ["count".toList, "generated_at".toList, "records".toList, "schema_version".toList]
    (by decide) rfl (by decide) ?_
  simp only [List.forall_mem_cons]
  exact ⟨rfl, rfl, unique_array (by decide) h, rfl, fun f hf => (by cases hf)⟩

theorem decodeTaxonomyFile_file (generated : Text) (categories types : List GoJson) :
    decodeTaxonomyFile (taxonomyFile generated categories types) =
      some ⟨2, generated, categories, types⟩ := by
  have h1 : field? (taxonomyFile generated categories types) "schema_version".toList =
    some (.number (.ofInt 2)) := rfl
  have h2 : field? (taxonomyFile generated categories types) "generated_at".toList =
    some (.string generated) := rfl
  have h3 : field? (taxonomyFile generated categories types) "categories".toList =
    some (.array categories) := rfl
  have h4 : field? (taxonomyFile generated categories types) "activity_types".toList =
    some (.array types) := rfl
  have honly : onlyFields ["schema_version".toList, "generated_at".toList, "categories".toList,
    "activity_types".toList] (taxonomyFile generated categories types) = true := rfl
  unfold decodeTaxonomyFile
  rw [if_pos honly, h1, h2, h3, h4]
  rfl

theorem unique_taxonomyFile {generated : Text} {categories types : List GoJson}
    (hcategories : ∀ d ∈ categories, uniqueValue 2 d = true)
    (htypes : ∀ d ∈ types, uniqueValue 2 d = true) :
    uniqueValue 0 (taxonomyFile generated categories types) = true := by
  refine @unique_object 0 _
    ["activity_types".toList, "categories".toList, "generated_at".toList, "schema_version".toList]
    (by decide) rfl (by decide) ?_
  simp only [List.forall_mem_cons]
  exact ⟨unique_array (by decide) htypes, unique_array (by decide) hcategories, rfl, rfl,
    fun f hf => (by cases hf)⟩

/-- A group of a taxonomy is accepted exactly when its slugs are not empty and different. -/
theorem validateGroup_map {α : Type} {fields : List Text} {record : α → GoJson} {slug : α → Text}
    (hreview : ∀ a, reviewedObject fields (record a) = .ok ())
    (hslug : ∀ a, field? (record a) "slug".toList = some (.string (slug a))) {rows : List α}
    {seen : List Text} : validateGroup fields seen (rows.map record) = .ok () ↔
      newKeys (fun slug => !slug.isEmpty) seen (rows.map slug) = true := by
  induction rows generalizing seen with
  | nil => exact ⟨fun _ => rfl, fun _ => rfl⟩
  | cons a rows ih =>
    rw [List.map_cons, validateGroup, seq_eq_ok, bind_eq_ok, hslug]
    simp only [hreview, true_and, Option.bind_some, asString, Option.elim_some, Except.ok.injEq,
      exists_eq_left']
    rw [seq_eq_ok, need_eq_ok, ih, List.map_cons, newKeys, Bool.and_eq_true, newKey, Bool.and_eq_true,
      Bool.and_eq_true]

theorem newSlugs_iff {slugs : List Text} (h : slugs.Nodup) :
    newKeys (fun slug => !slug.isEmpty) [] slugs = true ↔ ∀ slug ∈ slugs, slug ≠ [] := by
  rw [newKeys_iff]
  simp only [h, and_true]
  exact forall₂_congr fun slug _ => by simp [newKey]

/-! ### What the exporters keep -/

/-- The keys of an export are keys, its activities are those of adults, and no dataset but the taxonomy
is over its cap. -/
structure Export.WellFormed (e : Export) : Prop where
  eventIds : (e.events.map fun v => v.row.id).Nodup
  placeIds : (e.places.map fun p => p.1.id).Nodup
  activityIds : (e.activities.map fun a => a.1.id).Nodup
  categorySlugs : (e.categories.map CategoryRow.slug).Nodup
  typeSlugs : (e.types.map TypeRow.slug).Nodup
  adults : ∀ a ∈ e.activities, a.1.cohort = "adult".toList
  events_le : e.events.length ≤ 10000
  places_le : e.places.length ≤ 50000
  activities_le : e.activities.length ≤ 2000

/-- The ids of a dataset are above zero, and the slugs of the taxonomy are not empty. -/
def Export.SoundKeys (e : Export) : DatasetName → Prop
  | .events => ∀ v ∈ e.events, 0 < v.row.id.toInt
  | .places => ∀ p ∈ e.places, 0 < p.1.id.toInt
  | .activities => ∀ a ∈ e.activities, 0 < a.1.id.toInt
  | .taxonomy => (∀ c ∈ e.categories, c.slug ≠ []) ∧ ∀ t ∈ e.types, t.slug ≠ []

variable {e : Export} {m : ManifestDoc} {info : DatasetInfo} {snap : Snapshot}

theorem unique_file (name : DatasetName) : uniqueValue 0 (e.file name) = true := by
  cases name with
  | events =>
    refine unique_datasetFile fun d hd => ?_
    have ⟨v, _, heq⟩ := List.mem_map.mp hd
    exact heq ▸ unique_eventRecord (by decide) v
  | places =>
    refine unique_datasetFile fun d hd => ?_
    have ⟨p, _, heq⟩ := List.mem_map.mp hd
    exact heq ▸ unique_placeRecord (by decide) p.1 p.2
  | activities =>
    refine unique_datasetFile fun d hd => ?_
    have ⟨a, _, heq⟩ := List.mem_map.mp hd
    exact heq ▸ unique_activityRecord (by decide) a.1 a.2
  | taxonomy =>
    refine unique_taxonomyFile (fun d hd => ?_) fun d hd => ?_
    · have ⟨c, _, heq⟩ := List.mem_map.mp hd
      exact heq ▸ unique_categoryRecord (by decide) c
    · have ⟨t, _, heq⟩ := List.mem_map.mp hd
      exact heq ▸ unique_typeRecord (by decide) t

/-- A dataset of reviewed rows with different ids is accepted exactly when they are above zero. -/
theorem acceptDataset_rows {α : Type} {name : DatasetName} {record : α → GoJson} {key : α → Int64}
    {rows : List α} {generated : Text} (hname : name ≠ .taxonomy)
    (hgenerated : m.generatedAt = generated) (hcount : info.count = rows.length)
    (hlt : (rows.length : Int) < 2 ^ 63)
    (hunique : uniqueValue 0 (datasetFile generated (rows.map record)) = true)
    (hone : ∀ a ∈ rows, ∀ seen i, validateRecord name seen (record a) = .ok i ↔
      newId seen (key a).toInt = true ∧ (key a).toInt = i) (hnodup : (rows.map key).Nodup)
    (hevents : name = .events → ∀ a, ∃ r, parseEvent (record a) = some r)
    (hplaces : name = .places → ∀ a, ∃ r, parsePlace (record a) = some r)
    (hactivities : name = .activities → ∀ a, ∃ r, parseActivity (record a) = some r) :
    (∃ s, acceptDataset m info name (datasetFile generated (rows.map record)) snap = .ok s) ↔
      ∀ a ∈ rows, 0 < (key a).toInt := by
  have hids : validateRecords name [] (rows.map record) = .ok () ↔ ∀ a ∈ rows, 0 < (key a).toInt := by
    rw [validateRecords_map hone, ← List.forall_mem_map (f := key) (P := fun id => 0 < id.toInt),
      ← newIds_iff hnodup, List.map_map]
    rfl
  have hdecode := @decodeDatasetFile_file generated (rows.map record) (by rwa [List.length_map])
  rw [← hids]
  unfold acceptDataset
  rw [if_neg hname]
  constructor
  · intro ⟨s, h⟩
    rw [seq_eq_ok, bind_eq_ok] at h
    have ⟨_, df, hdf, hrest⟩ := h
    rw [elim_eq_ok, hdecode, Option.some_inj] at hdf
    rw [← hdf, seq_eq_ok, seq_eq_ok] at hrest
    exact hrest.2.1
  · intro hrecords
    have hcounts : ((2 : Int) == snapshotSchema && generated == m.generatedAt &&
        ((rows.map record).length : Int) == info.count &&
        ((rows.map record).length : Int) == info.count) = true := by
      simp [hgenerated, hcount, snapshotSchema]
    simp only [hunique, hdecode, need_true, ok_bind, Option.elim_some, hcounts, hrecords]
    cases name with
    | events =>
      have ⟨rs, hrs⟩ := mapM_record (hevents rfl) rows
      exact ⟨_, by rw [hrs]; rfl⟩
    | places =>
      have ⟨rs, hrs⟩ := mapM_record (hplaces rfl) rows
      exact ⟨_, by rw [hrs]; rfl⟩
    | activities =>
      have ⟨rs, hrs⟩ := mapM_record (hactivities rfl) rows
      exact ⟨_, by rw [hrs]; rfl⟩
    | taxonomy => exact absurd rfl hname

/-- A taxonomy of rows with different slugs is accepted exactly when they are not empty. -/
theorem acceptDataset_taxonomy {categories : List CategoryRow} {types : List TypeRow} {generated : Text}
    (hgenerated : m.generatedAt = generated)
    (hcount : info.count = categories.length + types.length)
    (hunique : uniqueValue 0
      (taxonomyFile generated (categories.map categoryRecord) (types.map typeRecord)) = true)
    (hcategories : (categories.map CategoryRow.slug).Nodup) (htypes : (types.map TypeRow.slug).Nodup) :
    (∃ s, acceptDataset m info .taxonomy
      (taxonomyFile generated (categories.map categoryRecord) (types.map typeRecord)) snap = .ok s) ↔
      (∀ c ∈ categories, c.slug ≠ []) ∧ ∀ t ∈ types, t.slug ≠ [] := by
  have hfirst := @validateGroup_map _ categoryFields categoryRecord CategoryRow.slug
    reviewed_categoryRecord (fun _ => rfl) categories []
  have hsecond := @validateGroup_map _ activityTypeFields typeRecord TypeRow.slug
    reviewed_typeRecord (fun _ => rfl) types []
  rw [newSlugs_iff hcategories, List.forall_mem_map] at hfirst
  rw [newSlugs_iff htypes, List.forall_mem_map] at hsecond
  rw [← hfirst, ← hsecond]
  have hdecode := decodeTaxonomyFile_file generated (categories.map categoryRecord)
    (types.map typeRecord)
  have hcounts : ((2 : Int) == snapshotSchema && generated == m.generatedAt &&
      ((categories.map categoryRecord).length + (types.map typeRecord).length : Int) == info.count) =
      true := by
    simp [hgenerated, hcount, snapshotSchema]
  have hbody : validateTaxonomy
      (taxonomyFile generated (categories.map categoryRecord) (types.map typeRecord)) m.generatedAt
        info.count = (do
      validateGroup categoryFields [] (categories.map categoryRecord)
      validateGroup activityTypeFields [] (types.map typeRecord)) := by
    unfold validateTaxonomy
    simp only [hunique, hdecode, need_true, ok_bind, Option.elim_some, hcounts]
  unfold acceptDataset
  rw [if_pos rfl, hbody]
  constructor
  · intro ⟨s, h⟩
    rw [seq_eq_ok, seq_eq_ok] at h
    exact h.1
  · intro ⟨hone, htwo⟩
    rw [hone, htwo]
    exact ⟨_, rfl⟩

theorem acceptDataset_iff {name : DatasetName} (hwf : e.WellFormed)
    (hgenerated : m.generatedAt = e.generatedAt) (hcount : info.count = e.count name) :
    (∃ s, acceptDataset m info name (e.file name) snap = .ok s) ↔ e.SoundKeys name := by
  have hunique := @unique_file e name
  cases name with
  | events =>
    have hfile : e.file .events = datasetFile e.generatedAt (e.events.map eventRecord) := rfl
    have hle := hwf.events_le
    rw [Export.count_events] at hcount
    rw [hfile] at hunique ⊢
    exact acceptDataset_rows (by decide) hgenerated hcount (by omega) hunique
      (fun v _ seen i => @validateRecord_event seen v i) hwf.eventIds (fun _ => parseEvent_record)
      (fun h => by cases h) (fun h => by cases h)
  | places =>
    have hfile : e.file .places =
      datasetFile e.generatedAt (e.places.map fun p => placeRecord p.1 p.2) := rfl
    have hle := hwf.places_le
    rw [Export.count_places] at hcount
    rw [hfile] at hunique ⊢
    exact acceptDataset_rows (by decide) hgenerated hcount (by omega) hunique
      (fun p _ seen i => @validateRecord_place seen p.1 p.2 i) hwf.placeIds (fun h => by cases h)
      (fun _ p => parsePlace_record p.1 p.2) (fun h => by cases h)
  | activities =>
    have hfile : e.file .activities =
      datasetFile e.generatedAt (e.activities.map fun a => activityRecord a.1 a.2) := rfl
    have hle := hwf.activities_le
    rw [Export.count_activities] at hcount
    rw [hfile] at hunique ⊢
    exact acceptDataset_rows (by decide) hgenerated hcount (by omega) hunique
      (fun a ha seen i => @validateRecord_activity seen a.1 a.2 i (hwf.adults a ha)) hwf.activityIds
      (fun h => by cases h) (fun h => by cases h) (fun _ a => parseActivity_record a.1 a.2)
  | taxonomy =>
    have hfile : e.file .taxonomy =
      taxonomyFile e.generatedAt (e.categories.map categoryRecord) (e.types.map typeRecord) := rfl
    rw [Export.count_taxonomy] at hcount
    rw [hfile] at hunique ⊢
    exact acceptDataset_taxonomy hgenerated (by rw [hcount, Nat.cast_add]) hunique hwf.categorySlugs
      hwf.typeSlugs

end SocialActivities.Snapshots
