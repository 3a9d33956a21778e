import SocialActivities.Snapshots.Exporters

/-!
# `SocialActivities.Snapshots.Records`: the loader reads what the exporters write

Record by record and file by file: strict JSON accepts every file (`unique_file`), the fields of every
record are the reviewed ones (`reviewed_event` and its siblings), and the typed view of every record
can be read. What is left to the values is an id above zero, a slug that is not empty, and the number
of the records.
-/

namespace SocialActivities.Snapshots

open Lib

/-! ### Names -/

/-- The fields of a place summary, in the order of the encoder. -/
def placeSummaryNames : List Text :=
  ["city".toList, "id".toList, "lat".toList, "lon".toList, "name".toList]

/-- The fields of an event, in the order of the encoder. -/
def eventNames : List Text :=
  ["activity".toList, "attribution".toList, "attribution_credit".toList, "description".toList,
    "ends_at".toList, "id".toList, "license_name".toList, "lifecycle_status".toList,
    "path".toList, "place_id".toList, "place_summary".toList, "provenance_url".toList,
    "source".toList, "source_availability".toList, "source_category".toList,
    "source_confidence".toList, "source_currency".toList, "source_is_free".toList,
    "source_price_max".toList, "source_price_min".toList, "source_recurrence".toList,
    "source_timezone".toList, "starts_at".toList, "title".toList, "url".toList]

/-- The fields of a place, in the order of the encoder. -/
def placeNames : List Text :=
  ["activity_types".toList, "address".toList, "attribution".toList, "city".toList,
    "country".toList, "id".toList, "lat".toList, "license_name".toList, "lon".toList,
    "name".toList, "opening_hours_text".toList, "path".toList, "phone".toList,
    "postcode".toList, "provenance_url".toList, "website".toList]

/-- The fields of an activity, in the order of the encoder. -/
def activityNames : List Text :=
  ["activity_type".toList, "cohort".toList, "id".toList, "place_id".toList,
    "starts_at".toList, "status".toList, "title".toList]

/-- The fields of a category, in the order of the encoder. -/
def categoryNames : List Text :=
  ["name".toList, "parent".toList, "slug".toList]

/-- The fields of an activity type, in the order of the encoder. -/
def typeNames : List Text :=
  ["category".toList, "family_friendly".toList, "name".toList, "parent".toList, "slug".toList,
    "wellness".toList]

/-! ### Strict JSON -/

theorem uniqueItems_iff {n : Nat} {ds : List GoJson} :
    uniqueItems n ds = true ↔ ∀ d ∈ ds, uniqueValue n d = true := by
  induction ds with
  | nil => exact ⟨fun _ d hd => (by cases hd), fun _ => rfl⟩
  | cons d ds ih => rw [uniqueItems, Bool.and_eq_true, ih, List.forall_mem_cons]

theorem uniqueFields_iff {n : Nat} {seen : List Text} {fields : List (Text × GoJson)} :
    uniqueFields n seen fields = true ↔ (fields.map Prod.fst).Nodup ∧
      ∀ f ∈ fields, f.1 ∉ seen ∧ canonicalKey f.1 = true ∧ uniqueValue n f.2 = true := by
  induction fields generalizing seen with
  | nil => exact ⟨fun _ => ⟨List.nodup_nil, fun f hf => (by cases hf)⟩, fun _ => rfl⟩
  | cons f fields ih =>
    obtain ⟨key, d⟩ := f
    have hseen : (!seen.contains key) = true ↔ key ∉ seen := by
      rw [Bool.not_eq_true', List.contains_eq_mem, decide_eq_false_iff_not]
    rw [uniqueFields, Bool.and_eq_true, Bool.and_eq_true, Bool.and_eq_true, hseen, ih, List.map_cons,
      List.nodup_cons, List.forall_mem_cons]
    constructor
    · intro ⟨⟨⟨hkey, hcanonical⟩, hvalue⟩, hnodup, hrest⟩
      refine ⟨⟨fun hmem => ?_, hnodup⟩, ⟨hkey, hcanonical, hvalue⟩, fun f hf =>
        ⟨fun hold => (hrest f hf).1 (List.mem_cons_of_mem _ hold), (hrest f hf).2⟩⟩
      obtain ⟨f, hf, heq⟩ := List.mem_map.mp hmem
      exact (hrest f hf).1 (heq ▸ List.mem_cons_self)
    · intro ⟨⟨hnew, hnodup⟩, ⟨hkey, hcanonical, hvalue⟩, hrest⟩
      refine ⟨⟨⟨hkey, hcanonical⟩, hvalue⟩, hnodup, fun f hf => ⟨fun hmem => ?_, (hrest f hf).2⟩⟩
      rcases List.mem_cons.mp hmem with heq | hold
      · exact hnew (List.mem_map.mpr ⟨f, hf, heq⟩)
      · exact (hrest f hf).1 hold

theorem unique_object {n : Nat} {fields : List (Text × GoJson)} {names : List Text} (hn : n ≤ 16)
    (hfields : fields.map Prod.fst = names) (hnames : names.Nodup ∧ names.all canonicalKey = true)
    (hvalues : ∀ f ∈ fields, uniqueValue (n + 1) f.2 = true) : uniqueValue n (.object fields) = true := by
  rw [uniqueValue, decide_eq_true hn, Bool.true_and, uniqueFields_iff]
  refine ⟨hfields ▸ hnames.1, fun f hf => ⟨List.not_mem_nil, ?_, hvalues f hf⟩⟩
  exact List.all_eq_true.mp hnames.2 f.1 (hfields ▸ List.mem_map_of_mem hf)

theorem unique_array {n : Nat} {items : List GoJson} (hn : n ≤ 16)
    (hitems : ∀ d ∈ items, uniqueValue (n + 1) d = true) : uniqueValue n (.array items) = true := by
  rw [uniqueValue, decide_eq_true hn, Bool.true_and, uniqueItems_iff]
  exact hitems

theorem unique_scalar {n : Nat} {d : GoJson} (hn : n ≤ 16) (h : isScalar d = true) :
    uniqueValue n d = true := by
  cases d with
  | array | object => cases h
  | null | bool | number | string => exact decide_eq_true hn

theorem isScalar_option {α : Type} {value : α → GoJson} (h : ∀ a, isScalar (value a) = true)
    (o : Option α) : isScalar (jsonOption value o) = true := by
  cases o with
  | none => rfl
  | some a => exact h a

theorem isScalar_optString (o : Option Text) : isScalar (jsonOption .string o) = true :=
  isScalar_option (fun _ => rfl) o

theorem isScalar_optId (o : Option Int64) : isScalar (jsonOption jsonId o) = true :=
  isScalar_option (fun _ => rfl) o

theorem isScalar_optCoordinate (o : Option Coordinate) :
    isScalar (jsonOption jsonCoordinate o) = true := isScalar_option (fun _ => rfl) o

theorem isScalar_optNumber (o : Option NumberText) : isScalar (jsonOption .number o) = true :=
  isScalar_option (fun _ => rfl) o

theorem isScalar_optBool (o : Option Bool) : isScalar (jsonOption .bool o) = true :=
  isScalar_option (fun _ => rfl) o

theorem unique_flat {n : Nat} {fields : List (Text × GoJson)} {names : List Text} (hn : n ≤ 15)
    (hfields : fields.map Prod.fst = names) (hnames : names.Nodup ∧ names.all canonicalKey = true)
    (hscalar : (fields.all fun f => isScalar f.2) = true) : uniqueValue n (.object fields) = true :=
  unique_object (by omega) hfields hnames fun f hf =>
    unique_scalar (by omega) (List.all_eq_true.mp hscalar f hf)

theorem unique_credit {n : Nat} (hn : n ≤ 15) (c : Option Credit) :
    uniqueValue n (jsonOption creditJson c) = true := by
  cases c with
  | none => exact decide_eq_true (by omega)
  | some => exact @unique_flat n _ creditFields hn rfl (by decide) rfl

theorem unique_placeSummary {n : Nat} (hn : n ≤ 15) (p : Option PlaceSummary) :
    uniqueValue n (jsonOption placeSummaryJson p) = true := by
  cases p with
  | none => exact decide_eq_true (by omega)
  | some =>
    refine @unique_flat n _ placeSummaryNames hn rfl (by decide) ?_
    simp only [List.all_cons, isScalar_optCoordinate, List.all_nil]
    rfl

theorem unique_eventRecord {n : Nat} (hn : n ≤ 14) (e : EventView) :
    uniqueValue n (eventRecord e) = true := by
  refine @unique_object n _ eventNames (by omega) rfl (by decide +kernel) ?_
  simp only [List.forall_mem_cons]
  have hn' : n + 1 ≤ 16 := by omega
  exact ⟨unique_scalar hn' (isScalar_optString _), unique_scalar hn' rfl,
    unique_credit (by omega) _, unique_scalar hn' rfl, unique_scalar hn' (isScalar_optString _),
    unique_scalar hn' rfl, unique_scalar hn' rfl, unique_scalar hn' rfl, unique_scalar hn' rfl,
    unique_scalar hn' (isScalar_optId _), unique_placeSummary (by omega) _, unique_scalar hn' rfl,
    unique_scalar hn' rfl, unique_scalar hn' rfl, unique_scalar hn' rfl,
    unique_scalar hn' (isScalar_optNumber _), unique_scalar hn' rfl,
    unique_scalar hn' (isScalar_optBool _), unique_scalar hn' (isScalar_optString _),
    unique_scalar hn' (isScalar_optString _), unique_scalar hn' rfl, unique_scalar hn' rfl,
    unique_scalar hn' rfl, unique_scalar hn' rfl, unique_scalar hn' rfl, fun f hf => (by cases hf)⟩

/-- The fields of a place but the first. -/
def placeScalars (p : PlaceRow) (path : Text) : List (Text × GoJson) :=
  [("address".toList, .string p.address), ("attribution".toList, .string p.attribution),
    ("city".toList, .string p.city), ("country".toList, .string p.country), ("id".toList, jsonId p.id),
    ("lat".toList, jsonOption jsonCoordinate p.lat), ("license_name".toList, .string p.licenseName),
    ("lon".toList, jsonOption jsonCoordinate p.lon), ("name".toList, .string p.name),
    ("opening_hours_text".toList, .string p.openingHoursText), ("path".toList, .string path),
    ("phone".toList, .string p.phone), ("postcode".toList, .string p.postcode),
    ("provenance_url".toList, .string p.provenanceUrl), ("website".toList, .string p.website)]

theorem placeRecord_eq (p : PlaceRow) (path : Text) : placeRecord p path =
    .object (("activity_types".toList, .array (p.activityTypes.map .string)) :: placeScalars p path) :=
  rfl

theorem placeScalars_scalar (p : PlaceRow) (path : Text) :
    ((placeScalars p path).all fun f => isScalar f.2) = true := by
  unfold placeScalars
  simp only [List.all_cons, isScalar_optCoordinate]
  rfl

theorem unique_placeRecord {n : Nat} (hn : n ≤ 14) (p : PlaceRow) (path : Text) :
    uniqueValue n (placeRecord p path) = true := by
  refine @unique_object n _ placeNames (by omega) rfl (by decide +kernel) ?_
  refine List.forall_mem_cons.mpr ⟨unique_array (by omega) fun d hd => ?_, fun f hf =>
    unique_scalar (by omega) (List.all_eq_true.mp (placeScalars_scalar p path) f hf)⟩
  obtain ⟨s, -, rfl⟩ := List.mem_map.mp hd
  exact unique_scalar (by omega) rfl

theorem unique_activityRecord {n : Nat} (hn : n ≤ 15) (a : ActivityRow) (startsAt : Text) :
    uniqueValue n (activityRecord a startsAt) = true := by
  refine @unique_flat n _ activityNames hn rfl (by decide +kernel) ?_
  simp only [List.all_cons, isScalar_optString, isScalar_optId]
  rfl

theorem unique_categoryRecord {n : Nat} (hn : n ≤ 15) (c : CategoryRow) :
    uniqueValue n (categoryRecord c) = true := by
  refine @unique_flat n _ categoryNames hn rfl (by decide) ?_
  simp only [List.all_cons, isScalar_optString]
  rfl

theorem unique_typeRecord {n : Nat} (hn : n ≤ 15) (t : TypeRow) :
    uniqueValue n (typeRecord t) = true := by
  refine @unique_flat n _ typeNames hn rfl (by decide) ?_
  simp only [List.all_cons, isScalar_optString]
  rfl

/-! ### Reviewed fields -/

/-- The fields that are reviewed apart. -/
def isNested (key : Text) : Bool :=
  key == "place_summary".toList || key == "attribution_credit".toList

theorem reviewField_ok {allowed : List Text} {f : Text × GoJson} (hname : allowed.contains f.1 = true)
    (hplain : f.1 ≠ "activity_types".toList) (hvalue : (isNested f.1 || isScalar f.2) = true) :
    reviewField allowed f = .ok () := by
  unfold reviewField
  rw [seq_eq_ok, need_eq_ok]
  refine ⟨hname, ?_⟩
  split
  · rfl
  · rename_i hnested
    rw [need_eq_ok]
    unfold isNested at hvalue
    rw [Bool.or_eq_true, Bool.or_eq_true, beq_iff_eq, beq_iff_eq] at hvalue
    exact hvalue.resolve_left hnested

/-- The reviewed names of an object, none of them a list. -/
def reviewedNames (allowed names : List Text) : Bool :=
  names.all allowed.contains && !names.contains "activity_types".toList

theorem reviewedObject_ok {allowed names : List Text} {fields : List (Text × GoJson)}
    (hfields : fields.map Prod.fst = names) (hnames : reviewedNames allowed names = true)
    (hvalues : (fields.all fun f => isNested f.1 || isScalar f.2) = true) :
    reviewedObject allowed (.object fields) = .ok () := by
  show fields.forM (reviewField allowed) = .ok ()
  unfold reviewedNames at hnames
  rw [Bool.and_eq_true, Bool.not_eq_true'] at hnames
  rw [forM_eq_ok]
  intro f hf
  have hmem : f.1 ∈ names := hfields ▸ List.mem_map_of_mem hf
  refine reviewField_ok (List.all_eq_true.mp hnames.1 f.1 hmem) (fun htypes => ?_)
    (List.all_eq_true.mp hvalues f hf)
  rw [htypes, ← List.contains_iff_mem, hnames.2] at hmem
  cases hmem

theorem asStrings_strings (ss : List Text) :
    asStrings (some (.array (ss.map .string))) = some ss := by
  show (ss.map (Json.string : Text → GoJson)).mapM (fun item => asString (some item)) = some ss
  induction ss with
  | nil => rfl
  | cons s ss ih =>
    rw [List.map_cons, List.mapM_cons, ih]
    rfl

theorem reviewed_credit (c : Option Credit) :
    reviewNested creditFields (some (jsonOption creditJson c)) = .ok () := by
  cases c with
  | none => rfl
  | some => exact @reviewedObject_ok creditFields creditFields _ rfl (by decide) rfl

theorem reviewed_placeSummary (p : Option PlaceSummary) :
    reviewNested placeSummaryFields (some (jsonOption placeSummaryJson p)) = .ok () := by
  cases p with
  | none => rfl
  | some =>
    refine @reviewedObject_ok placeSummaryFields placeSummaryNames _ rfl (by decide) ?_
    simp only [List.all_cons, isScalar_optCoordinate, Bool.or_true]
    rfl

theorem reviewed_eventRecord (e : EventView) :
    reviewedObject (recordFields .events) (eventRecord e) = .ok () := by
  refine @reviewedObject_ok _ eventNames _ rfl (by decide +kernel) ?_
  simp only [List.all_cons, isScalar_optString, isScalar_optId, isScalar_optNumber, isScalar_optBool,
    Bool.or_true]
  rfl

theorem reviewField_types {allowed : List Text} {key : Text} {value : GoJson}
    (hname : allowed.contains key = true) (hnested : isNested key = false)
    (htypes : key = "activity_types".toList) (hvalue : (asStrings (some value)).isSome = true) :
    reviewField allowed (key, value) = .ok () := by
  unfold isNested at hnested
  rw [Bool.or_eq_false_iff, beq_eq_false_iff_ne, beq_eq_false_iff_ne] at hnested
  unfold reviewField
  rw [if_neg (not_or.mpr hnested), if_pos htypes, seq_eq_ok, need_eq_ok, need_eq_ok]
  exact ⟨hname, hvalue⟩

theorem reviewed_placeRecord (p : PlaceRow) (path : Text) :
    reviewedObject (recordFields .places) (placeRecord p path) = .ok () := by
  have htypes : (asStrings (some (.array (p.activityTypes.map .string)))).isSome = true := by
    rw [asStrings_strings]
    rfl
  have hscalars : reviewedObject (recordFields .places) (.object (placeScalars p path)) = .ok () := by
    refine @reviewedObject_ok _ placeNames.tail (placeScalars p path) rfl (by decide +kernel) ?_
    rw [List.all_eq_true]
    intro f hf
    rw [List.all_eq_true.mp (placeScalars_scalar p path) f hf, Bool.or_true]
  rw [placeRecord_eq]
  show List.forM _ (reviewField (recordFields .places)) = .ok ()
  rw [forM_eq_ok, List.forall_mem_cons]
  exact ⟨reviewField_types (by decide +kernel) (by decide) rfl htypes, forM_eq_ok.mp hscalars⟩

theorem reviewed_activityRecord (a : ActivityRow) (startsAt : Text) :
    reviewedObject (recordFields .activities) (activityRecord a startsAt) = .ok () := by
  refine @reviewedObject_ok _ activityNames _ rfl (by decide +kernel) ?_
  simp only [List.all_cons, isScalar_optString, isScalar_optId, Bool.or_true]
  rfl

theorem reviewed_categoryRecord (c : CategoryRow) :
    reviewedObject categoryFields (categoryRecord c) = .ok () := by
  refine @reviewedObject_ok _ categoryNames _ rfl (by decide) ?_
  simp only [List.all_cons, isScalar_optString, Bool.or_true]
  rfl

theorem reviewed_typeRecord (t : TypeRow) :
    reviewedObject activityTypeFields (typeRecord t) = .ok () := by
  refine @reviewedObject_ok _ typeNames _ rfl (by decide) ?_
  simp only [List.all_cons, isScalar_optString, Bool.or_true]
  rfl

end SocialActivities.Snapshots
