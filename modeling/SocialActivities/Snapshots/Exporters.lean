import SocialActivities.Snapshots.Loader

/-!
# `SocialActivities.Snapshots.Exporters`: the two exporters

`ExportAgentSnapshot` of `internal/jobs` is the one that runs; `Snapshot` of `internal/export` writes
the same files from the same tables and is not wired in. Both read rows, cap them, turn them into
records, and write four datasets and a manifest with the digests of the datasets.

The queries yield the columns of a row, with the corrections of a place already applied, in the order
of the files; `Database` is what they range over. The records are written with their fields in the
order of the encoder, which is that of their names.

Between the two, an event differs in its times, its credit and its path, and a place in its path. So
the record of an event is built from an `EventView`, which each exporter makes in its own way.
-/

namespace SocialActivities.Snapshots

open Lib

/-! ### Rows -/

/-- A coordinate: the text of a finite float. -/
structure Coordinate where
  text : NumberText
  finite : text.parseFloat.isSome = true

structure PlaceRow where
  id : Int64
  name : Text
  lat : Option Coordinate
  lon : Option Coordinate
  address : Text
  city : Text
  postcode : Text
  country : Text
  website : Text
  phone : Text
  openingHoursText : Text
  activityTypes : List Text
  attribution : Text
  licenseName : Text
  provenanceUrl : Text

structure PlaceSummary where
  id : Int64
  name : Text
  city : Text
  lat : Option Coordinate
  lon : Option Coordinate

structure EventRow where
  id : Int64
  title : Text
  description : Text
  startsAt : Nat
  endsAt : Option Nat
  url : Text
  source : Text
  attribution : Text
  licenseName : Text
  provenanceUrl : Text
  activity : Option Text
  sourceCategory : Text
  lifecycleStatus : Text
  sourceConfidence : Option NumberText
  sourceRecurrence : Text
  sourceTimezone : Text
  sourcePriceMin : Option Text
  sourcePriceMax : Option Text
  sourceCurrency : Text
  sourceIsFree : Option Bool
  sourceAvailability : Text
  placeId : Option Int64
  placeSummary : Option PlaceSummary

/-- An activity that is publicly listed, open and not hidden, of an active owner. -/
structure ActivityRow where
  id : Int64
  title : Text
  cohort : Text
  startsAt : Nat
  status : Text
  activityType : Option Text
  placeId : Option Int64

structure CategoryRow where
  slug : Text
  name : Text
  parent : Option Text

structure TypeRow where
  slug : Text
  name : Text
  category : Option Text
  parent : Option Text
  familyFriendly : Bool
  wellness : Bool

/-- The rows that the queries range over, in their order, with the keys of the tables. -/
structure Database where
  places : List PlaceRow
  events : List EventRow
  activities : List ActivityRow
  categories : List CategoryRow
  types : List TypeRow
  placeIds : (places.map PlaceRow.id).Nodup
  eventIds : (events.map EventRow.id).Nodup
  activityIds : (activities.map ActivityRow.id).Nodup
  categorySlugs : (categories.map CategoryRow.slug).Nodup
  typeSlugs : (types.map TypeRow.slug).Nodup

/-! ### Values -/

def jsonId (id : Int64) : GoJson := .number (.ofInt id.toInt)

def jsonCount (n : Nat) : GoJson := .number (.ofInt n)

/-- A column that may be null. -/
def jsonOption {α : Type} (value : α → GoJson) : Option α → GoJson
  | none => .null
  | some a => value a

def jsonCoordinate (c : Coordinate) : GoJson := .number c.text

/-- The digits of an id. -/
def idText (id : Int64) : Text := (NumberText.ofInt id.toInt).chars

/-! ### Slugs -/

/-- What the slugs use of the Unicode tables: `norm.NFKD`, `strings.ToLower`, and `unicode.Mn`. -/
structure Unicode where
  nfkd : Text → Text
  toLower : Char → Char
  isMark : Char → Bool

def isSpace (c : Char) : Bool :=
  [0x9, 0xa, 0xb, 0xc, 0xd, 0x20, 0x85, 0xa0, 0x1680, 0x2000, 0x2001, 0x2002, 0x2003, 0x2004, 0x2005,
    0x2006, 0x2007, 0x2008, 0x2009, 0x200a, 0x2028, 0x2029, 0x202f, 0x205f, 0x3000].contains c.toNat

/-- `strings.Trim`, of the characters that a predicate names. -/
def trim (cut : Char → Bool) (s : Text) : Text :=
  ((s.dropWhile cut).reverse.dropWhile cut).reverse

def trimSpace (s : Text) : Text := trim isSpace s

/-- Every run of the characters that a predicate names becomes one `-`. -/
def collapse (separator : Char → Bool) : Text → Text
  | [] => []
  | c :: cs =>
    if separator c then
      match cs with
      | d :: _ => if separator d then collapse separator cs else '-' :: collapse separator cs
      | [] => ['-']
    else c :: collapse separator cs

/-- `slug` of `internal/jobs`. -/
def jobsSlug (u : Unicode) (value fallback : Text) : Text :=
  let runes := (u.nfkd value).map u.toLower
  let kept := (runes.filter fun r => !u.isMark r).filterMap fun r =>
    if decide (r.toNat < 128) &&
        ((decide ('a' ≤ r) && decide (r ≤ 'z')) || r.isDigit || r == '_') then some r
    else if isSpace r || r == '-' then some '-' else none
  let out := trim (fun c => c == '-' || c == '_') (collapse (· == '-') kept)
  (if out = [] then fallback else out).take 80

/-- `Slug` of `internal/export`. -/
def exportSlug (u : Unicode) (text fallback : Text) : Text :=
  let kept := (u.nfkd text).filterMap fun r =>
    if decide (r.toNat < 128) && (r.isAlpha || r.isDigit || isSpace r || r == '_' || r == '-') then
      some r.toLower
    else none
  let slug := trim (fun c => c == '-' || c == '_')
    (collapse (fun c => c == '-' || ['\t', '\n', '\x0c', '\r', ' '].contains c) kept)
  if slug = [] then fallback else slug

/-- `/kind/id/slug/`. -/
def pathText (kind : Text) (id : Int64) (slug : Text) : Text :=
  '/' :: (kind ++ '/' :: (idText id ++ '/' :: (slug ++ ['/'])))

/-! ### Records -/

/-- The credit of an event. -/
structure Credit where
  attribution : Text
  licenseName : Text
  provenanceUrl : Text

def creditJson (c : Credit) : GoJson :=
  .object [("attribution".toList, .string c.attribution),
    ("license_name".toList, .string c.licenseName),
    ("provenance_url".toList, .string c.provenanceUrl)]

def placeSummaryJson (p : PlaceSummary) : GoJson :=
  .object [("city".toList, .string p.city), ("id".toList, jsonId p.id),
    ("lat".toList, jsonOption jsonCoordinate p.lat), ("lon".toList, jsonOption jsonCoordinate p.lon),
    ("name".toList, .string p.name)]

/-- An event as it is exported: the row, and what the exporters make of it. -/
structure EventView where
  row : EventRow
  startsAt : Text
  endsAt : Option Text
  credit : Option Credit
  path : Text

def eventRecord (e : EventView) : GoJson :=
  .object [("activity".toList, jsonOption .string e.row.activity),
    ("attribution".toList, .string e.row.attribution),
    ("attribution_credit".toList, jsonOption creditJson e.credit),
    ("description".toList, .string e.row.description),
    ("ends_at".toList, jsonOption .string e.endsAt),
    ("id".toList, jsonId e.row.id),
    ("license_name".toList, .string e.row.licenseName),
    ("lifecycle_status".toList, .string e.row.lifecycleStatus),
    ("path".toList, .string e.path),
    ("place_id".toList, jsonOption jsonId e.row.placeId),
    ("place_summary".toList, jsonOption placeSummaryJson e.row.placeSummary),
    ("provenance_url".toList, .string e.row.provenanceUrl),
    ("source".toList, .string e.row.source),
    ("source_availability".toList, .string e.row.sourceAvailability),
    ("source_category".toList, .string e.row.sourceCategory),
    ("source_confidence".toList, jsonOption .number e.row.sourceConfidence),
    ("source_currency".toList, .string e.row.sourceCurrency),
    ("source_is_free".toList, jsonOption .bool e.row.sourceIsFree),
    ("source_price_max".toList, jsonOption .string e.row.sourcePriceMax),
    ("source_price_min".toList, jsonOption .string e.row.sourcePriceMin),
    ("source_recurrence".toList, .string e.row.sourceRecurrence),
    ("source_timezone".toList, .string e.row.sourceTimezone),
    ("starts_at".toList, .string e.startsAt),
    ("title".toList, .string e.row.title),
    ("url".toList, .string e.row.url)]

def placeRecord (p : PlaceRow) (path : Text) : GoJson :=
  .object [("activity_types".toList, .array (p.activityTypes.map .string)),
    ("address".toList, .string p.address),
    ("attribution".toList, .string p.attribution),
    ("city".toList, .string p.city),
    ("country".toList, .string p.country),
    ("id".toList, jsonId p.id),
    ("lat".toList, jsonOption jsonCoordinate p.lat),
    ("license_name".toList, .string p.licenseName),
    ("lon".toList, jsonOption jsonCoordinate p.lon),
    ("name".toList, .string p.name),
    ("opening_hours_text".toList, .string p.openingHoursText),
    ("path".toList, .string path),
    ("phone".toList, .string p.phone),
    ("postcode".toList, .string p.postcode),
    ("provenance_url".toList, .string p.provenanceUrl),
    ("website".toList, .string p.website)]

def activityRecord (a : ActivityRow) (startsAt : Text) : GoJson :=
  .object [("activity_type".toList, jsonOption .string a.activityType),
    ("cohort".toList, .string a.cohort),
    ("id".toList, jsonId a.id),
    ("place_id".toList, jsonOption jsonId a.placeId),
    ("starts_at".toList, .string startsAt),
    ("status".toList, .string a.status),
    ("title".toList, .string a.title)]

def categoryRecord (c : CategoryRow) : GoJson :=
  .object [("name".toList, .string c.name), ("parent".toList, jsonOption .string c.parent),
    ("slug".toList, .string c.slug)]

def typeRecord (t : TypeRow) : GoJson :=
  .object [("category".toList, jsonOption .string t.category),
    ("family_friendly".toList, .bool t.familyFriendly),
    ("name".toList, .string t.name), ("parent".toList, jsonOption .string t.parent),
    ("slug".toList, .string t.slug), ("wellness".toList, .bool t.wellness)]

/-! ### Files -/

/-- What an exporter writes. -/
structure Export where
  generatedAt : Text
  site : Text
  events : List EventView
  places : List (PlaceRow × Text)
  activities : List (ActivityRow × Text)
  categories : List CategoryRow
  types : List TypeRow
  /-- The licence and the attribution of each credit of the manifest. -/
  licenses : List (Text × Text)
  truncated : Bool

/-- The records of a dataset. -/
def Export.records (e : Export) : DatasetName → List GoJson
  | .events => e.events.map eventRecord
  | .places => e.places.map fun p => placeRecord p.1 p.2
  | .activities => e.activities.map fun a => activityRecord a.1 a.2
  | .taxonomy => e.categories.map categoryRecord ++ e.types.map typeRecord

def datasetFile (generated : Text) (records : List GoJson) : GoJson :=
  .object [("count".toList, jsonCount records.length), ("generated_at".toList, .string generated),
    ("records".toList, .array records), ("schema_version".toList, .number (.ofInt 2))]

def taxonomyFile (generated : Text) (categories types : List GoJson) : GoJson :=
  .object [("activity_types".toList, .array types), ("categories".toList, .array categories),
    ("generated_at".toList, .string generated), ("schema_version".toList, .number (.ofInt 2))]

/-- The file of a dataset. -/
def Export.file (e : Export) : DatasetName → GoJson
  | .taxonomy => taxonomyFile e.generatedAt (e.categories.map categoryRecord) (e.types.map typeRecord)
  | name => datasetFile e.generatedAt (e.records name)

def datasetInfoJson (file : Text) (count : Nat) (digest : Text) : GoJson :=
  .object [("count".toList, jsonCount count), ("file".toList, .string file),
    ("sha256".toList, .string digest)]

def licenseJson (l : Text × Text) : GoJson :=
  .object [("attribution".toList, .string l.2), ("license_name".toList, .string l.1)]

/-- The manifest of an export with these counts and digests. -/
def manifestFile (generated site : Text) (counts : DatasetName → Nat) (digest : DatasetName → Text)
    (licenses : List (Text × Text)) (truncated : Bool) : GoJson :=
  let info := fun name : DatasetName =>
    (name.text, datasetInfoJson name.file (counts name) (digest name))
  .object [("datasets".toList, .object [info .activities, info .events, info .places, info .taxonomy]),
    ("generated_at".toList, .string generated),
    ("licenses".toList, .array (licenses.map licenseJson)),
    ("schema_version".toList, .number (.ofInt 2)), ("site".toList, .string site),
    ("truncated".toList, .bool truncated)]

/-- The number of the records of a dataset. -/
def Export.count (e : Export) (name : DatasetName) : Nat := (e.records name).length

@[simp] theorem Export.count_events (e : Export) : e.count .events = e.events.length :=
  List.length_map _

@[simp] theorem Export.count_places (e : Export) : e.count .places = e.places.length :=
  List.length_map _

@[simp] theorem Export.count_activities (e : Export) : e.count .activities = e.activities.length :=
  List.length_map _

@[simp] theorem Export.count_taxonomy (e : Export) :
    e.count .taxonomy = e.categories.length + e.types.length := by
  show (e.categories.map categoryRecord ++ e.types.map typeRecord).length = _
  rw [List.length_append, List.length_map, List.length_map]

/-- The manifest: it pins the exact files. -/
def Export.manifest (e : Export) : GoJson :=
  manifestFile e.generatedAt e.site e.count (fun name => sha256Sum (e.file name)) e.licenses e.truncated

/-- The files of an export. -/
def Export.files (e : Export) : Directory
  | .manifest => some e.manifest
  | .dataset name => some (e.file name)

/-- The loop over the credits: places first, and each pair once. -/
def collectLicenses : List Text → List (Text × Text) → List (Text × Text)
  | _, [] => []
  | seen, (license, attribution) :: rest =>
    let name := trimSpace license
    let credit := trimSpace attribution
    let key := name ++ '\x00' :: credit
    if name = [] ∨ key ∈ seen then collectLicenses seen rest
    else (name, credit) :: collectLicenses (key :: seen) rest

def licensesOf (places : List PlaceRow) (events : List EventRow) : List (Text × Text) :=
  collectLicenses [] (places.map (fun p => (p.licenseName, p.attribution)) ++
    events.map fun e => (e.licenseName, e.attribution))

/-- What an exporter is run with. -/
structure ExportEnv where
  unicode : Unicode
  /-- `SiteBaseURL`, or the site given to `New`. -/
  site : Text
  now : Nat

/-! ### `internal/jobs` -/

/-- A column of time, `to_char(… 'YYYY-MM-DD"T"HH24:MI:SS.US"Z"')`. -/
def jobsTime (t : Nat) : Text := formatStamp t

def jobsCredit (e : EventRow) : Option Credit :=
  if e.licenseName = [] ∧ e.attribution = [] ∧ e.provenanceUrl = [] then none
  else some ⟨e.attribution, e.licenseName, e.provenanceUrl⟩

def jobsEvent (u : Unicode) (e : EventRow) : EventView where
  row := e
  startsAt := jobsTime e.startsAt
  endsAt := e.endsAt.map jobsTime
  credit := jobsCredit e
  path := pathText "events".toList e.id (jobsSlug u e.title "event".toList)

/-- `ExportAgentSnapshot`, up to its files. -/
def exportAgentSnapshot (env : ExportEnv) (db : Database) : Export :=
  let places := db.places.take 50001
  let events := db.events.take 10001
  let activities := (db.activities.filter (·.cohort == "adult".toList)).take 2001
  { generatedAt := formatStamp env.now
    site := env.site
    events := (events.take 10000).map (jobsEvent env.unicode)
    places := (places.take 50000).map fun p =>
      (p, pathText "places".toList p.id (jobsSlug env.unicode p.name "place".toList))
    activities := (activities.take 2000).map fun a => (a, jobsTime a.startsAt)
    categories := db.categories
    types := db.types
    licenses := licensesOf (places.take 50000) (events.take 10000)
    truncated := decide (50000 < places.length) || decide (10000 < events.length) ||
      decide (2000 < activities.length) }

/-! ### `internal/export` -/

/-- `platform.ErrInvalid`. -/
inductive ExportError where
  | invalid
  deriving DecidableEq

/-- `isoZ`, of a column of time. -/
def isoZ (t : Nat) : Text := if t % 1000000 = 0 then formatSeconds t else formatStamp t

def btrim (s : Text) : Text := trim (· == ' ') s

/-- `safeURLSQL`. -/
def safeUrl (s : Text) : Text :=
  let lower := (btrim s).map Char.toLower
  if "http://".toList.isPrefixOf lower || "https://".toList.isPrefixOf lower then btrim s else []

/-- `creditSQL`. -/
def exportCredit (e : EventRow) : Option Credit :=
  if btrim e.licenseName = [] ∧ btrim e.attribution = [] ∧ safeUrl e.provenanceUrl = [] then none
  else some ⟨btrim e.attribution, btrim e.licenseName, safeUrl e.provenanceUrl⟩

/-- `recordID`: an id below 1 is an error. -/
def checkIds (ids : List Int64) : Except ExportError Unit :=
  ids.forM fun id => need .invalid (decide (1 ≤ id.toInt))

def exportEvent (u : Unicode) (e : EventRow) : EventView where
  row := e
  startsAt := isoZ e.startsAt
  endsAt := e.endsAt.map isoZ
  credit := exportCredit e
  path := pathText "events".toList e.id (exportSlug u e.title "event".toList)

/-- `strings.TrimRight(site, "/")`. -/
def trimSite (site : Text) : Text := (site.reverse.dropWhile (· == '/')).reverse

/-- `Snapshot`, up to its files. -/
def snapshotExport (env : ExportEnv) (db : Database) : Except ExportError Export := do
  let events := db.events.take 10001
  checkIds ((events.take 10000).map EventRow.id)
  let places := db.places.take 50001
  checkIds ((places.take 50000).map PlaceRow.id)
  let activities := (db.activities.filter (·.cohort == "adult".toList)).take 2001
  pure {
    generatedAt := formatStamp env.now
    site := trimSite env.site
    events := (events.take 10000).map (exportEvent env.unicode)
    places := (places.take 50000).map fun p =>
      (p, pathText "places".toList p.id (exportSlug env.unicode p.name "place".toList))
    activities := (activities.take 2000).map fun a => (a, isoZ a.startsAt)
    categories := db.categories
    types := db.types
    licenses := licensesOf (places.take 50000) (events.take 10000)
    truncated := decide (10000 < events.length) || decide (50000 < places.length) ||
      decide (2000 < activities.length) }

end SocialActivities.Snapshots
