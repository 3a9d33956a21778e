import SocialActivities.Lib.Checked
import SocialActivities.Lib.Sha256
import SocialActivities.Snapshots.GoJson
import SocialActivities.Snapshots.Stamp

/-!
# `SocialActivities.Snapshots.Loader`: the loader of the agent API

`services/agentapi/snapshot.go` and `snapshot_integrity.go`. A load reads the manifest, the four
datasets it names and the manifest again. `startLoad`, `readDataset` and `finishLoad` are its parts,
one for each file that is read, so that a writer may come between any two; `load` is all of them over
a directory that stands still.

Everything that is accepted has passed `strictJSON`, and then the checks of its own kind:
`validateManifest`, `validateRecords` or `validateTaxonomy`.
-/

namespace SocialActivities.Snapshots

open Lib

/-! ### Files -/

inductive DatasetName where
  | events
  | places
  | activities
  | taxonomy
  deriving DecidableEq

/-- The datasets, in the order of `load`. -/
def datasetNames : List DatasetName := [.events, .places, .activities, .taxonomy]

def DatasetName.text : DatasetName → Text
  | .events => "events".toList
  | .places => "places".toList
  | .activities => "activities".toList
  | .taxonomy => "taxonomy".toList

/-- `name+".json"`. -/
def DatasetName.file (name : DatasetName) : Text := name.text ++ ".json".toList

def snapshotCaps : DatasetName → Int
  | .events => 10000
  | .places => 50000
  | .activities => 2000
  | .taxonomy => 50000

def snapshotByteCaps : DatasetName → Nat
  | .events => 32 * 2 ^ 20
  | .places => 64 * 2 ^ 20
  | .activities => 8 * 2 ^ 20
  | .taxonomy => 8 * 2 ^ 20

/-- The byte budget of the manifest. -/
def manifestByteCap : Nat := 2 ^ 20

def snapshotSchema : Int := 2

/-- The files of the snapshot directory. -/
inductive FileName where
  | manifest
  | dataset (name : DatasetName)
  deriving DecidableEq

abbrev Directory := FileName → Option GoJson

/-- `sha256Sum`, of the bytes of a file. -/
def sha256Sum (d : GoJson) : Text := sha256 (goText d)

def readSnapshotFile (dir : Directory) (name : FileName) (limit : Nat) : Except String GoJson := do
  let d ← (dir name).elim (.error "snapshot file unavailable or exceeds budget") .ok
  need "snapshot file unavailable or exceeds budget" (decide (fileBytes d ≤ limit))
  pure d

/-! ### Strict JSON -/

/-- A lower ASCII key. -/
def canonicalKey (key : Text) : Bool :=
  !key.isEmpty && key.all fun c => c == '_' || (decide ('a' ≤ c) && decide (c ≤ 'z')) || c.isDigit

mutual

/-- `uniqueJSONValue`. -/
def uniqueValue (depth : Nat) : GoJson → Bool
  | .array items => decide (depth ≤ 16) && uniqueItems (depth + 1) items
  | .object fields => decide (depth ≤ 16) && uniqueFields (depth + 1) [] fields
  | _ => decide (depth ≤ 16)

def uniqueItems (depth : Nat) : List GoJson → Bool
  | [] => true
  | d :: ds => uniqueValue depth d && uniqueItems depth ds

def uniqueFields (depth : Nat) (seen : List Text) : List (Text × GoJson) → Bool
  | [] => true
  | (key, d) :: fields =>
    !seen.contains key && canonicalKey key && uniqueValue depth d &&
      uniqueFields depth (key :: seen) fields

end

/-- The value of a field of an object. -/
def field? (d : GoJson) (name : Text) : Option GoJson :=
  match d with
  | .object fields => (fields.find? (·.1 == name)).map Prod.snd
  | _ => none

/-- `DisallowUnknownFields`, of a struct with these fields. -/
def onlyFields (names : List Text) : GoJson → Bool
  | .object fields => fields.all fun f => names.contains f.1
  | .null => true
  | _ => false

/-- The number of an `int64`. -/
def int64? (t : NumberText) : Option Int :=
  if t.isDecimal = false ∧ -2 ^ 63 ≤ t.integerValue ∧ t.integerValue < 2 ^ 63 then some t.integerValue
  else none

/-- A field of type `int` or `int64`. -/
def asInt : Option GoJson → Option Int
  | none | some .null => some 0
  | some (.number t) => int64? t
  | _ => none

/-- A field of type `*int64`. -/
def asIntPointer : Option GoJson → Option (Option Int)
  | none | some .null => some none
  | some (.number t) => (int64? t).map some
  | _ => none

/-- A field of type `*float64`. -/
def asFloatPointer : Option GoJson → Option (Option Binary64)
  | none | some .null => some none
  | some (.number t) => t.parseFloat.map some
  | _ => none

/-- A field of type `string`. -/
def asString : Option GoJson → Option Text
  | none | some .null => some []
  | some (.string s) => some s
  | _ => none

/-- A field of type `bool`. -/
def asBool : Option GoJson → Option Bool
  | none | some .null => some false
  | some (.bool b) => some b
  | _ => none

/-- A field of type `[]json.RawMessage`. -/
def asRawList : Option GoJson → Option (List GoJson)
  | none | some .null => some []
  | some (.array items) => some items
  | _ => none

/-- A field of type `[]string`. -/
def asStrings (d : Option GoJson) : Option (List Text) :=
  (asRawList d).bind fun items => items.mapM fun item => asString (some item)

/-! ### The manifest -/

structure DatasetInfo where
  file : Text
  count : Int
  sha256 : Text
  deriving DecidableEq

structure ManifestDoc where
  schemaVersion : Int
  generatedAt : Text
  site : Text
  datasets : List (Text × DatasetInfo)
  licenses : Option GoJson
  truncated : Bool

def decodeDatasetInfo (d : GoJson) : Option DatasetInfo :=
  if onlyFields ["file".toList, "count".toList, "sha256".toList] d then do
    pure ⟨← asString (field? d "file".toList), ← asInt (field? d "count".toList),
      ← asString (field? d "sha256".toList)⟩
  else none

/-- A field of type `map[string]datasetInfo`. -/
def asDatasets : Option GoJson → Option (List (Text × DatasetInfo))
  | none | some .null => some []
  | some (.object fields) => fields.mapM fun f => (decodeDatasetInfo f.2).map (Prod.mk f.1)
  | _ => none

def decodeManifest (d : GoJson) : Option ManifestDoc :=
  if onlyFields ["schema_version".toList, "generated_at".toList, "site".toList, "datasets".toList,
      "licenses".toList, "truncated".toList] d then do
    pure ⟨← asInt (field? d "schema_version".toList), ← asString (field? d "generated_at".toList),
      ← asString (field? d "site".toList), ← asDatasets (field? d "datasets".toList),
      field? d "licenses".toList, ← asBool (field? d "truncated".toList)⟩
  else none

/-- The metadata of a dataset. -/
def ManifestDoc.info? (m : ManifestDoc) (name : DatasetName) : Option DatasetInfo :=
  (m.datasets.find? (·.1 == name.text)).map Prod.snd

/-- A digest of 32 bytes in lower hexadecimal. -/
def isDigest (s : Text) : Bool :=
  s.length == 64 && s.all fun c => c.isDigit || (decide ('a' ≤ c) && decide (c ≤ 'f'))

/-- The credits of the manifest are objects with a licence and an attribution. -/
def decodesCredits (d : GoJson) : Bool :=
  match asRawList (some d) with
  | none => false
  | some credits => credits.all fun credit =>
    onlyFields ["license_name".toList, "attribution".toList] credit &&
      (asString (field? credit "license_name".toList)).isSome &&
      (asString (field? credit "attribution".toList)).isSome

/-- Five minutes, in microseconds. -/
def clockSkew : Nat := 300000000

def validateManifest (now : Nat) (m : ManifestDoc) : Except String Unit := do
  need "unsupported snapshot schema" (m.schemaVersion == snapshotSchema && m.datasets.length == 4)
  need "invalid snapshot generation" (m.generatedAt.getLast? == some 'Z' &&
    (parseStamp m.generatedAt).any fun generated => decide (generated ≤ now + clockSkew))
  need "invalid snapshot dataset metadata" (datasetNames.all fun name => (m.info? name).any fun d =>
    d.file == name.file && decide (0 ≤ d.count) && decide (d.count ≤ snapshotCaps name) &&
      isDigest d.sha256)
  let licenses ← m.licenses.elim (.error "ambiguous snapshot JSON") .ok
  need "ambiguous snapshot JSON" (uniqueValue 0 licenses)
  need "invalid snapshot JSON schema" (decodesCredits licenses)

/-! ### Records -/

def recordFields : DatasetName → List Text
  | .events => ["id".toList, "title".toList, "description".toList, "starts_at".toList,
      "ends_at".toList, "url".toList, "source".toList, "attribution".toList, "license_name".toList,
      "provenance_url".toList, "attribution_credit".toList, "activity".toList,
      "activity_type".toList, "source_category".toList, "lifecycle_status".toList,
      "source_confidence".toList, "source_recurrence".toList, "source_timezone".toList,
      "source_price_min".toList, "source_price_max".toList, "source_currency".toList,
      "source_is_free".toList, "source_availability".toList, "place_id".toList, "path".toList,
      "place_summary".toList]
  | .places => ["id".toList, "name".toList, "lat".toList, "lon".toList, "address".toList,
      "city".toList, "postcode".toList, "country".toList, "website".toList, "phone".toList,
      "opening_hours_text".toList, "activity_types".toList, "attribution".toList,
      "license_name".toList, "provenance_url".toList, "path".toList]
  | .activities => ["id".toList, "title".toList, "cohort".toList, "starts_at".toList,
      "status".toList, "activity_type".toList, "place_id".toList]
  | .taxonomy => []

def placeSummaryFields : List Text :=
  ["id".toList, "name".toList, "city".toList, "lat".toList, "lon".toList]

def creditFields : List Text := ["attribution".toList, "license_name".toList, "provenance_url".toList]

def categoryFields : List Text := ["slug".toList, "name".toList, "parent".toList]

def activityTypeFields : List Text :=
  ["slug".toList, "name".toList, "category".toList, "parent".toList, "family_friendly".toList,
    "wellness".toList]

/-- A value that is no object and no array. -/
def isScalar : GoJson → Bool
  | .array _ | .object _ => false
  | _ => true

/-- One field of `reviewedObject`. -/
def reviewField (allowed : List Text) (f : Text × GoJson) : Except String Unit := do
  need "unreviewed snapshot field" (allowed.contains f.1)
  if f.1 = "place_summary".toList ∨ f.1 = "attribution_credit".toList then pure ()
  else if f.1 = "activity_types".toList then
    need "invalid activity type list" (asStrings (some f.2)).isSome
  else need "non-scalar snapshot field" (isScalar f.2)

def reviewedObject (allowed : List Text) : GoJson → Except String Unit
  | .object fields => fields.forM (reviewField allowed)
  | _ => .error "invalid snapshot object"

/-- A nested object, unless it is missing or null. -/
def reviewNested (allowed : List Text) : Option GoJson → Except String Unit
  | none | some .null => pure ()
  | some d => reviewedObject allowed d

/-- The id of a record: it must be there. -/
def recordId (record : GoJson) : Option Int := (field? record "id".toList).bind fun d => asInt (some d)

/-- One record of `validateRecords`, with the ids before it. -/
def validateRecord (name : DatasetName) (seen : List Int) (record : GoJson) : Except String Int := do
  reviewedObject (recordFields name) record
  let id ← (recordId record).elim (.error "invalid or duplicate snapshot ID") .ok
  need "invalid or duplicate snapshot ID" (decide (0 < id) && !seen.contains id)
  if name = .activities then
    need "non-adult public activity rejected"
      (((field? record "cohort".toList).bind fun d => asString (some d)) == some "adult".toList)
  if name = .events then do
    reviewNested placeSummaryFields (field? record "place_summary".toList)
    reviewNested creditFields (field? record "attribution_credit".toList)
  pure id

def validateRecords (name : DatasetName) : List Int → List GoJson → Except String Unit
  | _, [] => pure ()
  | seen, record :: records => do
    let id ← validateRecord name seen record
    validateRecords name (id :: seen) records

structure PlaceSummaryFields where
  name : Text
  city : Text
  lat : Option Binary64
  lon : Option Binary64

structure EventRecord where
  raw : GoJson
  id : Int
  title : Text
  description : Text
  startsAt : Text
  activity : Text
  placeId : Option Int
  placeSummary : Option PlaceSummaryFields

structure PlaceRecord where
  raw : GoJson
  id : Int
  name : Text
  city : Text
  lat : Option Binary64
  lon : Option Binary64
  activityTypes : List Text

structure ActivityRecord where
  raw : GoJson
  id : Int
  title : Text
  startsAt : Text
  status : Text
  activityType : Text
  placeId : Option Int

/-- A field that is a pointer to a place summary. -/
def asPlaceSummary : Option GoJson → Option (Option PlaceSummaryFields)
  | none | some .null => some none
  | some (.object fields) => do
    let d : GoJson := .object fields
    pure (some ⟨← asString (field? d "name".toList), ← asString (field? d "city".toList),
      ← asFloatPointer (field? d "lat".toList), ← asFloatPointer (field? d "lon".toList)⟩)
  | _ => none

/-- One record of `parseEvents`. -/
def parseEvent (raw : GoJson) : Option EventRecord := do
  let activity ← asString (field? raw "activity".toList)
  let activityType ← asString (field? raw "activity_type".toList)
  pure ⟨raw, ← asInt (field? raw "id".toList), ← asString (field? raw "title".toList),
    ← asString (field? raw "description".toList), ← asString (field? raw "starts_at".toList),
    if activity.isEmpty then activityType else activity, ← asIntPointer (field? raw "place_id".toList),
    ← asPlaceSummary (field? raw "place_summary".toList)⟩

/-- One record of `parsePlaces`. -/
def parsePlace (raw : GoJson) : Option PlaceRecord := do
  pure ⟨raw, ← asInt (field? raw "id".toList), ← asString (field? raw "name".toList),
    ← asString (field? raw "city".toList), ← asFloatPointer (field? raw "lat".toList),
    ← asFloatPointer (field? raw "lon".toList), ← asStrings (field? raw "activity_types".toList)⟩

/-- One record of `parseActivities`. -/
def parseActivity (raw : GoJson) : Option ActivityRecord := do
  pure ⟨raw, ← asInt (field? raw "id".toList), ← asString (field? raw "title".toList),
    ← asString (field? raw "starts_at".toList), ← asString (field? raw "status".toList),
    ← asString (field? raw "activity_type".toList), ← asIntPointer (field? raw "place_id".toList)⟩

/-! ### Datasets -/

structure DatasetFile where
  schemaVersion : Int
  generatedAt : Text
  count : Int
  records : List GoJson

def decodeDatasetFile (d : GoJson) : Option DatasetFile :=
  if onlyFields ["schema_version".toList, "generated_at".toList, "count".toList, "records".toList] d
  then do
    pure ⟨← asInt (field? d "schema_version".toList), ← asString (field? d "generated_at".toList),
      ← asInt (field? d "count".toList), ← asRawList (field? d "records".toList)⟩
  else none

structure TaxonomyFile where
  schemaVersion : Int
  generatedAt : Text
  categories : List GoJson
  activityTypes : List GoJson

def decodeTaxonomyFile (d : GoJson) : Option TaxonomyFile :=
  if onlyFields ["schema_version".toList, "generated_at".toList, "categories".toList,
      "activity_types".toList] d then do
    pure ⟨← asInt (field? d "schema_version".toList), ← asString (field? d "generated_at".toList),
      ← asRawList (field? d "categories".toList), ← asRawList (field? d "activity_types".toList)⟩
  else none

/-- One group of `validateTaxonomy`, with the slugs before the rest. -/
def validateGroup (fields : List Text) : List Text → List GoJson → Except String Unit
  | _, [] => pure ()
  | seen, record :: records => do
    reviewedObject fields record
    let slug ← ((field? record "slug".toList).bind fun d => asString (some d)).elim
      (.error "invalid taxonomy identity") .ok
    need "invalid taxonomy identity" (!slug.isEmpty && !seen.contains slug)
    validateGroup fields (slug :: seen) records

def validateTaxonomy (raw : GoJson) (generated : Text) (count : Int) : Except String Unit := do
  need "incoherent snapshot taxonomy" (uniqueValue 0 raw)
  let tax ← (decodeTaxonomyFile raw).elim (.error "incoherent snapshot taxonomy") .ok
  need "incoherent snapshot taxonomy" (tax.schemaVersion == snapshotSchema &&
    tax.generatedAt == generated && (tax.categories.length + tax.activityTypes.length : Int) == count)
  validateGroup categoryFields [] tax.categories
  validateGroup activityTypeFields [] tax.activityTypes

/-- What is served. -/
structure Snapshot where
  manifestRaw : GoJson
  site : Text
  licenses : Option GoJson
  generatedAt : Text
  taxonomyRaw : GoJson
  events : List EventRecord
  places : List PlaceRecord
  activities : List ActivityRecord
  version : Text

/-- The checks of a dataset after its digest, and what it adds to the snapshot. -/
def acceptDataset (m : ManifestDoc) (info : DatasetInfo) (name : DatasetName) (raw : GoJson)
    (snap : Snapshot) : Except String Snapshot := do
  if name = .taxonomy then do
    validateTaxonomy raw m.generatedAt info.count
    pure { snap with taxonomyRaw := raw }
  else do
    need "ambiguous snapshot JSON" (uniqueValue 0 raw)
    let df ← (decodeDatasetFile raw).elim (.error "invalid snapshot JSON schema") .ok
    need "incoherent snapshot dataset" (df.schemaVersion == snapshotSchema &&
      df.generatedAt == m.generatedAt && df.count == info.count &&
      (df.records.length : Int) == info.count)
    validateRecords name [] df.records
    match name with
    | .events => do
      let events ← (df.records.mapM parseEvent).elim (.error "invalid snapshot record") .ok
      pure { snap with events := events }
    | .places => do
      let places ← (df.records.mapM parsePlace).elim (.error "invalid snapshot record") .ok
      pure { snap with places := places }
    | .activities => do
      let activities ← (df.records.mapM parseActivity).elim (.error "invalid snapshot record") .ok
      pure { snap with activities := activities }
    | .taxonomy => pure snap

/-! ### A load -/

/-- A load that has read the manifest. -/
structure Loading where
  manifestRaw : GoJson
  manifest : ManifestDoc
  snap : Snapshot

/-- `load`, up to the first dataset: nothing more is read if the manifest is the one that is
served. -/
def startLoad (now : Nat) (lastManifestDigest : Text) (dir : Directory) :
    Except String (Option Loading) := do
  let raw ← readSnapshotFile dir .manifest manifestByteCap
  need "ambiguous snapshot JSON" (uniqueValue 0 raw)
  let m ← (decodeManifest raw).elim (.error "invalid snapshot JSON schema") .ok
  validateManifest now m
  if sha256Sum raw = lastManifestDigest then pure none
  else pure (some ⟨raw, m, ⟨raw, m.site, m.licenses, m.generatedAt, .null, [], [], [], []⟩⟩)

/-- One round of the loop over the datasets. -/
def readDataset (dir : Directory) (l : Loading) (name : DatasetName) : Except String Loading := do
  let info ← (l.manifest.info? name).elim (.error "snapshot file unavailable") .ok
  let raw ← readSnapshotFile dir (.dataset name) (snapshotByteCaps name)
  need "snapshot checksum mismatch" (sha256Sum raw == info.sha256)
  let snap ← acceptDataset l.manifest info name raw l.snap
  pure { l with snap := snap }

/-- The end of `load`: the manifest is still the same. -/
def finishLoad (dir : Directory) (l : Loading) : Except String Snapshot := do
  let final ← match readSnapshotFile dir .manifest manifestByteCap with
    | .error _ => .error "snapshot changed during load"
    | .ok final => .ok final
  need "snapshot changed during load" (sha256Sum final == sha256Sum l.manifestRaw)
  pure { l.snap with version := sha256Sum l.manifestRaw }

/-- `load`, of a directory that stands still. -/
def load (now : Nat) (lastManifestDigest : Text) (dir : Directory) :
    Except String (Option Snapshot) := do
  match ← startLoad now lastManifestDigest dir with
  | none => pure none
  | some l => do
    let l ← datasetNames.foldlM (readDataset dir) l
    let snap ← finishLoad dir l
    pure (some snap)

end SocialActivities.Snapshots
