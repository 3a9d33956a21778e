import SocialActivities.Roedu.Urls

/-!
# `SocialActivities.Roedu.Items`: the validator of an item (`internal/jobs/roedu.go`)

`validatePackItem` accepts an item of a page, a venue, an event or the tombstone of an event: it is
`.ok ()` where the source returns `true`. The checks stand in the order of the source, as a comparison
may panic on a value that an earlier check lets through.
-/

namespace SocialActivities.Roedu

open Lib
open Snapshots (GoJson Text)

def policyHash : Text := "140290d4bc6374ebb5b7922dee98c79bee5501a6cf76e1ef18923a8647068fd1".toList

def commonFields : List Text :=
  names ["id", "kind", "title", "tags", "facets", "source", "provenance", "license", "attribution",
    "access_type", "legal_basis", "gdpr_relevant", "privacy_classification", "privacy_revision",
    "policy_decision_id", "redistributable", "confidence", "content_id", "capture_id",
    "capture_schema_version", "acquisition_lane", "acquisition_evidence_sha256", "policy_attestation",
    "first_seen", "last_seen", "updated_at"]

def attestationFields : List Text :=
  names ["decision_id", "evidence_digest", "clearance_digest", "subject_sha256", "schema_version",
    "ruleset_version", "ruleset_hash", "action", "effect", "reasons", "obligations", "capture_id",
    "capture_schema_version", "acquisition_lane", "acquisition_evidence_sha256"]

/-- `packAccessContext`. -/
inductive PackAccess where
  | publicPackAccess
  | verifiedLocalPOCPackAccess
  deriving DecidableEq

def lanes : List Text := names ["web_http", "sanctioned_api", "bulk_download", "derived_member"]

/-- The digests of an item. -/
def itemHashes : List Text :=
  names ["privacy_revision", "content_id", "capture_id", "acquisition_evidence_sha256", "policy_decision_id"]

/-- The digests of an attestation. -/
def attestationHashes : List Text := names ["decision_id", "evidence_digest", "clearance_digest"]

def knownObligations : List Text := names ["attribution", "share_alike", "noncommercial", "verbatim_only"]

/-- The labels of access of an open source. -/
def openAccess : List Text := names ["public_document", "open_license", "public_domain"]

/-- A string that matches `hashPattern`. -/
def isHash (value : GoJson) : Bool := (asString value).any hashPattern

def categoryPattern (s : Text) : Bool :=
  s.head?.any lowerLetter && decide (s.length ≤ 64) && s.all fun c => lowerLetter c || c.isDigit || c == '_'

/-- The loop over the tags: each is a text that did not come before. -/
def distinctTags (seen : List Text) : List GoJson → Bool
  | [] => true
  | .string tag :: tags =>
    text (.string tag) 128 false && !seen.contains tag && distinctTags (tag :: seen) tags
  | _ :: _ => false

/-- A value between two integers. -/
def between (low high : Int) (n : Binary64) : Bool := decide (whole low ≤ units n) && decide (units n ≤ whole high)

/-- The part of `validateCommon` on the attestation. -/
def validateAttestation (item attestation : Object) : Except Stop Unit := do
  ensure (exactKeys attestation attestationFields)
  ensure (attestationHashes.all fun key => isHash (attestation.get key))
  ensure (equalsNumber (attestation.get "schema_version".toList) 5 &&
    equalsNumber (attestation.get "ruleset_version".toList) 8 &&
    isString policyHash (attestation.get "ruleset_hash".toList))
  agree (attestation.get "subject_sha256".toList) (item.get "content_id".toList)
  agree (attestation.get "decision_id".toList) (item.get "policy_decision_id".toList)
  ensure (equalsNumber (item.get "capture_schema_version".toList) 3 &&
    equalsNumber (attestation.get "capture_schema_version".toList) 3)
  agree (attestation.get "capture_id".toList) (item.get "capture_id".toList)
  agree (attestation.get "acquisition_evidence_sha256".toList) (item.get "acquisition_evidence_sha256".toList)
  agree (attestation.get "acquisition_lane".toList) (item.get "acquisition_lane".toList)
  ensure (isString "publish_source".toList (attestation.get "action".toList) &&
    isString "allow".toList (attestation.get "effect".toList))
  -- The lane of the item is checked a second time.
  ensure (lanes.any fun lane => isString lane (item.get "acquisition_lane".toList))
  let reasons ← given (asArray (attestation.get "reasons".toList))
  ensure (decide (reasons.length = 1) && reasons.head?.any (isString "explicitly_cleared".toList))
  let obligations ← given (asArray (attestation.get "obligations".toList))
  ensure (obligations.all fun obligation =>
    knownObligations.any fun known => isString known obligation)

def validateCommon (item : Object) (access : PackAccess) : Except Stop Unit := do
  let lane ← given (asString (item.get "acquisition_lane".toList))
  ensure (lanes.contains lane)
  ensure (stable (item.get "id".toList) && text (item.get "source".toList) 255 false &&
    text (item.get "license".toList) 500 false && text (item.get "attribution".toList) 255 false &&
    text (item.get "legal_basis".toList) 500 false && isBool false (item.get "gdpr_relevant".toList) &&
    isBool true (item.get "redistributable".toList) &&
    isString "no_personal_data".toList (item.get "privacy_classification".toList))
  ensure ((openAccess.any fun known =>
      isString known (item.get "access_type".toList)) ||
    (decide (access = .verifiedLocalPOCPackAccess) &&
      isString "tdm_exception".toList (item.get "access_type".toList)))
  ensure (itemHashes.all
    fun key => isHash (item.get key))
  let confidence ← given (number (item.get "confidence".toList))
  ensure (between 0 1 confidence)
  let provenance ← given (asObject (item.get "provenance".toList))
  ensure provenance.isEmpty
  let tags ← given (asArray (item.get "tags".toList))
  ensure (distinctTags [] tags)
  let first ← given (aware (item.get "first_seen".toList))
  let last ← given (aware (item.get "last_seen".toList))
  let updated ← given (aware (item.get "updated_at".toList))
  ensure (decide (first ≤ last) && decide (first ≤ updated))
  let attestation ← given (asObject (item.get "policy_attestation".toList))
  validateAttestation item attestation

def locationFields : List Text := names ["lat", "lon"]

def location (value : GoJson) : Bool :=
  (asObject value).any fun loc =>
    exactKeys loc locationFields && (number (loc.get "lat".toList)).any (between (-90) 90) &&
      (number (loc.get "lon".toList)).any (between (-180) 180)

/-- `^[A-Z]{n}$`. -/
def capitals (n : Nat) (s : Text) : Bool :=
  s.length == n && s.all fun c => decide ('A' ≤ c) && decide (c ≤ 'Z')

def stringValue (m : Object) (key : Text) : Text := (asString (m.get key)).getD []

def venueFields : List Text := commonFields ++ names ["location", "address", "category", "website"]

def venueFacets : List Text := names ["city", "county", "category", "venue_category", "place_category"]

/-- The facets of a venue that repeat its category. -/
def venueCategories : List Text := names ["category", "venue_category", "place_category"]

def addressFields : List Text := names ["street", "city", "county", "country"]

/-- The part of `validatePackItem` on a venue. -/
def validateVenue (t : Tables) (item facets : Object) (category : Text) : Except Stop Unit := do
  ensure (exactKeys item venueFields &&
    text (item.get "title".toList) 255 false && location (item.get "location".toList) &&
    publicURL t (item.get "website".toList) &&
    exactKeys facets venueFacets &&
    venueCategories.all fun key => isString category (facets.get key))
  let address ← given (asObject (item.get "address".toList))
  ensure (exactKeys address addressFields &&
    text (address.get "street".toList) 255 true && text (address.get "city".toList) 128 true &&
    text (address.get "county".toList) 128 true && capitals 2 (sprint (address.get "country".toList)) &&
    isString (stringValue facets "city".toList) (address.get "city".toList) &&
    isString (stringValue facets "county".toList) (address.get "county".toList))
  let tags ← asserted (asArray (item.get "tags".toList))
  ensure (decide (tags.length = 1) && tags.head?.any (isString ("venue:".toList ++ category)))

def tombstoneFields : List Text :=
  commonFields ++ names ["category", "status", "lifecycle_status", "cancelled", "tombstone", "is_tombstone"]

def eventFields : List Text :=
  tombstoneFields ++ names ["start_datetime", "starts_at", "end_datetime", "ends_at", "timezone", "currency",
    "is_free", "venue_id", "place_id"]

/-- The keys that an item of this kind must have. -/
def requiredFields (event : Bool) : List Text := if event then eventFields else tombstoneFields

/-- The keys that an item of this kind may have. -/
def allowedFields (event : Bool) : List Text :=
  if event then eventFields ++ names ["recurrence", "location", "ticket_url", "price_min", "price_max",
    "availability"]
  else tombstoneFields ++ names ["venue_id", "place_id"]

/-- The facets of an event or a tombstone. -/
def lifecycleFacets : List Text :=
  names ["city", "county", "category", "venue_id", "place_id", "status", "lifecycle_status"]

def availabilities : List Text := names ["available", "limited", "sold_out", "unknown"]

/-- The statuses of an event, between bars. -/
def knownStatuses : Text := "|scheduled|rescheduled|postponed|cancelled|sold_out|moved_online|expired|".toList

/-- The largest price, the float of `9999999999.99`. -/
def maxPrice : Option Binary64 := (Magnitude.round 999999999999 100).map fun x => ⟨false, x⟩

/-- A price, if there is one. -/
def price (item : Object) (key : Text) : Except Stop (Option Binary64) :=
  match item.get key with
  | .null => pure none
  | value => do
    let n ← given (number value)
    ensure (decide (0 ≤ units n) && maxPrice.any fun most => decide (units n ≤ units most))
    pure (some n)

/-- The end of an event: it may be empty, and it is not before the start. -/
def validateFinish (item : Object) (start : Int) : Except Stop Unit :=
  if isString [] (item.get "end_datetime".toList) then pure ()
  else do
    let finish ← given (aware (item.get "end_datetime".toList))
    ensure (decide (start ≤ finish))

/-- The part of `validatePackItem` on an event, after what it has in common with a tombstone. -/
def validateEvent (t : Tables) (item : Object) (status : Text) : Except Stop Unit := do
  ensure (text (item.get "title".toList) 255 false &&
    contains ('|' :: (status ++ ['|'])) knownStatuses &&
    isBool (status == "cancelled".toList) (item.get "cancelled".toList) &&
    isBool false (item.get "tombstone".toList) && isBool false (item.get "is_tombstone".toList))
  ensure (text (item.get "end_datetime".toList) 80 true)
  let start ← given (aware (item.get "start_datetime".toList))
  agree (item.get "starts_at".toList) (item.get "start_datetime".toList)
  agree (item.get "ends_at".toList) (item.get "end_datetime".toList)
  validateFinish item start
  let zone ← given (asString (item.get "timezone".toList))
  ensure (Feeds.trimSpace zone == zone && loadLocation t zone)
  ensure (capitals 3 (sprint (item.get "currency".toList)))
  ensure (asBool (item.get "is_free".toList)).isSome
  let minimum ← price item "price_min".toList
  let maximum ← price item "price_max".toList
  ensure (minimum.all fun least => maximum.all fun most => decide (units least ≤ units most))
  ensure ((item.get? "recurrence".toList).all (text · 1000 false))
  ensure ((item.get? "location".toList).all location)
  ensure ((item.get? "ticket_url".toList).all (publicURL t))
  ensure ((item.get? "availability".toList).all fun value =>
    availabilities.any fun known => isString known value)

/-- `if present && item["place_id"] != venue { return false }`. -/
def validatePlace (item : Object) : Except Stop Unit :=
  if item.has "venue_id".toList then agree (item.get "place_id".toList) (item.get "venue_id".toList)
  else pure ()

/-- The part of `validatePackItem` that an event and a tombstone have in common. -/
def validateLifecycle (item facets : Object) (category status : Text) : Except Stop Unit := do
  ensure (exactKeys facets lifecycleFacets &&
    isString category (facets.get "category".toList) && isString status (facets.get "status".toList) &&
    isString status (facets.get "lifecycle_status".toList) &&
    isString status (item.get "lifecycle_status".toList))
  let venue := item.get "venue_id".toList
  ensure (item.has "venue_id".toList == item.has "place_id".toList)
  ensure (isNil venue || stable venue)
  validatePlace item
  agree (facets.get "venue_id".toList) venue
  agree (facets.get "place_id".toList) venue
  let tags ← asserted (asArray (item.get "tags".toList))
  ensure (decide (tags.length = 2) && tags.head?.any (isString ("event:".toList ++ category)) &&
    tags[1]?.any (isString ("lifecycle:".toList ++ status)))

/-- The part of `validatePackItem` on a tombstone. -/
def validateTombstone (item : Object) (status : Text) : Except Stop Unit :=
  ensure (isString [] (item.get "title".toList) && status == "removed".toList &&
    isBool false (item.get "cancelled".toList) && isBool true (item.get "tombstone".toList) &&
    isBool true (item.get "is_tombstone".toList))

/-- `validatePackItem`, the one with an access context. -/
def validatePackItemIn (access : PackAccess) (t : Tables) (item : Object) : Except Stop Unit := do
  validateCommon item access
  let kind := stringValue item "kind".toList
  let category ← given (asString (item.get "category".toList))
  ensure (categoryPattern category)
  let facets ← given (asObject (item.get "facets".toList))
  ensure (optionalText (facets.get "city".toList) 128 && optionalText (facets.get "county".toList) 128)
  if kind = "venue".toList then validateVenue t item facets category
  else do
    ensure (kind == "event".toList || kind == "event_tombstone".toList)
    let event := kind == "event".toList
    ensure ((requiredFields event).all item.has && item.all fun field => (allowedFields event).contains field.1)
    let status ← given (asString (item.get "status".toList))
    validateLifecycle item facets category status
    if event then validateEvent t item status else validateTombstone item status

def validatePackItem (t : Tables) (item : Object) : Except Stop Unit :=
  validatePackItemIn .publicPackAccess t item

end SocialActivities.Roedu
