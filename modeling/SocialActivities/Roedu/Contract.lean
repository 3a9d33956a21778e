import Mathlib.Data.List.Perm.Subperm
import SocialActivities.Feeds.Lines
import SocialActivities.Roedu.Items

/-!
# `SocialActivities.Roedu.Contract`: what an accepted item is like

The contract of an item in its own terms: which keys it has, how its parts agree with each other, and
what its texts, times, numbers and URLs are like. `Sound` is all of it but the clearance, which is
`Cleared`: an item that is clear to publish has both.

The rules of the first half read one helper of the validator each, those of the second half one part of
the validator (`validatePackItemIn_eq_ok`). A part that the validator runs never panics, because what it
compares has been checked to be text or nil (`avoids_validatePackItemIn`).
-/

namespace SocialActivities.Roedu

open Lib
open Snapshots (GoJson Text)

/-! ### The parts of the contract -/

/-- The object has these keys, each once, and no others. -/
def Keyed (o : Object) (fields : List Text) : Prop := (o.map Prod.fst).Perm fields

/-- A text without control characters and without space at its ends. -/
structure IsText (n : Nat) (s : Text) : Prop where
  length_le : s.length ≤ n
  printable : ∀ c ∈ s, 32 ≤ c.toNat
  first : ∀ c ∈ s.head?, Safety.Go.isSpace c = false
  last : ∀ c ∈ s.getLast?, Safety.Go.isSpace c = false

/-- A text of at most `n` runes. -/
def Line (n : Nat) (v : GoJson) : Prop := ∃ s, v = .string s ∧ IsText n s ∧ s ≠ []

/-- The same, where it may be empty. -/
def LineOrEmpty (n : Nat) (v : GoJson) : Prop := ∃ s, v = .string s ∧ IsText n s

/-- A text without white space, of at most 128 runes. -/
def Stable (v : GoJson) : Prop :=
  ∃ s, v = .string s ∧ IsText 128 s ∧ s ≠ [] ∧ ∀ c ∈ s, Safety.Go.isSpace c = false

/-- A digest in hexadecimal. -/
def IsHash (v : GoJson) : Prop := ∃ s : Text, v = .string s ∧ s.length = 64 ∧ ∀ c ∈ s, lowerHex c = true

/-- A number that is an integer as `float64`. -/
def IsNumber (n : Int) (v : GoJson) : Prop := ∃ x, number v = some x ∧ units x = whole n

/-- A number in a range. -/
def InRange (low high : Int) (v : GoJson) : Prop :=
  ∃ x, number v = some x ∧ whole low ≤ units x ∧ units x ≤ whole high

/-- One of some words. -/
def OneOf (words : List Text) (v : GoJson) : Prop := ∃ word ∈ words, v = .string word

/-- The blocks that no public address is in. -/
def reservedBlocks : List Block :=
  [net4 10 0 0 0 8, net4 172 16 0 0 12, net4 192 168 0 0 16, net6 0xFC00 0 0 0 7, net4 127 0 0 0 8,
    net4 169 254 0 0 16, net6 0xFE80 0 0 0 10, net4 224 0 0 0 4, net6 0xFF00 0 0 0 8] ++ nonPublicNetworks

/-- A name of the public domain name system, in lower case. -/
structure DnsName (host : Text) : Prop where
  labels : ∀ label ∈ Feeds.splitOn '.' host, dnsPattern label = true
  dotted : 2 ≤ (Feeds.splitOn '.' host).length
  length_le : (utf8 host).length ≤ 253
  notNumeric : ∃ label ∈ Feeds.splitOn '.' host, numericLabel label = false

/-- A host outside the reserved names and addresses. -/
structure PublicHost (host : Text) : Prop where
  suffix : ∀ suffix ∈ privateSuffixes, ¬ suffix <:+ host
  address : ∀ ip, parseIP host = some ip → ∀ block ∈ reservedBlocks, block.contains ip = false
  name : parseIP host = none → DnsName host

/-- A URL of a public host, without a user, a fragment or a query that is not a digest. -/
structure PublicUrl (t : Tables) (u : Url) : Prop where
  scheme : u.scheme = "https".toList ∨ u.scheme = "http".toList
  user : u.user = false
  fragment : u.fragment = []
  query : u.rawQuery = [] ∨ queryPattern u.rawQuery = true
  port : u.port = [] ∨ ∃ port, Feeds.atoi u.port = some port ∧ 0 ≤ port ∧ port ≤ 65535
  named : u.hostname ≠ []
  undotted : u.hostname.getLast? ≠ some '.'
  host : PublicHost (toLower t u.hostname)

/-- A text that is such a URL. -/
def NamesPublicHost (t : Tables) (v : GoJson) : Prop :=
  ∃ s u, v = .string s ∧ IsText 500 s ∧ (∀ c ∈ s, Safety.Go.isSpace c = false) ∧ parseUrl s = some u ∧
    PublicUrl t u

/-- A place on the globe. -/
def IsLocation (v : GoJson) : Prop :=
  ∃ loc : Object, v = .object loc ∧ Keyed loc locationFields ∧ InRange (-90) 90 (loc.get "lat".toList) ∧
    InRange (-180) 180 (loc.get "lon".toList)

/-- A price that the item may have. -/
def PriceOf (item : Object) (key : Text) (value : Option Binary64) : Prop :=
  (item.get key = .null ∧ value = none) ∨
    ∃ x most, number (item.get key) = some x ∧ maxPrice = some most ∧ 0 ≤ units x ∧
      units x ≤ units most ∧ value = some x

/-- The attestation is one of this item's content, capture and decision. -/
structure Attested (item attestation : Object) : Prop where
  keys : Keyed attestation attestationFields
  digests : ∀ key ∈ attestationHashes, IsHash (attestation.get key)
  schema : IsNumber 5 (attestation.get "schema_version".toList)
  ruleset : IsNumber 8 (attestation.get "ruleset_version".toList)
  policy : attestation.get "ruleset_hash".toList = .string policyHash
  content : attestation.get "subject_sha256".toList = item.get "content_id".toList
  decision : attestation.get "decision_id".toList = item.get "policy_decision_id".toList
  itemSchema : IsNumber 3 (item.get "capture_schema_version".toList)
  captureSchema : IsNumber 3 (attestation.get "capture_schema_version".toList)
  capture : attestation.get "capture_id".toList = item.get "capture_id".toList
  evidence : attestation.get "acquisition_evidence_sha256".toList = item.get "acquisition_evidence_sha256".toList
  lane : attestation.get "acquisition_lane".toList = item.get "acquisition_lane".toList
  action : attestation.get "action".toList = .string "publish_source".toList
  obligations : ∃ obligations, attestation.get "obligations".toList = .array obligations ∧
    ∀ v ∈ obligations, OneOf knownObligations v

/-- The labels of access that a context permits. -/
def accessTypes : PackAccess → List Text
  | .publicPackAccess => openAccess
  | .verifiedLocalPOCPackAccess => openAccess ++ names ["tdm_exception"]

/-- What every item has, of whatever kind. -/
structure Common (access : PackAccess) (item attestation : Object) : Prop where
  lane : OneOf lanes (item.get "acquisition_lane".toList)
  id : Stable (item.get "id".toList)
  source : Line 255 (item.get "source".toList)
  license : Line 500 (item.get "license".toList)
  attribution : Line 255 (item.get "attribution".toList)
  legalBasis : Line 500 (item.get "legal_basis".toList)
  redistributable : item.get "redistributable".toList = .bool true
  accessType : OneOf (accessTypes access) (item.get "access_type".toList)
  hashes : ∀ key ∈ itemHashes,
    IsHash (item.get key)
  confidence : InRange 0 1 (item.get "confidence".toList)
  provenance : item.get "provenance".toList = .object []
  tags : ∃ tags : List Text, item.get "tags".toList = .array (tags.map .string) ∧ tags.Nodup ∧
    ∀ tag ∈ tags, IsText 128 tag ∧ tag ≠ []
  times : ∃ first last updated, aware (item.get "first_seen".toList) = some first ∧
    aware (item.get "last_seen".toList) = some last ∧ aware (item.get "updated_at".toList) = some updated ∧
    first ≤ last ∧ first ≤ updated
  decided : item.get "policy_attestation".toList = .object attestation
  attested : Attested item attestation

/-- The clearance: no personal data, and a decision that allows. -/
structure Cleared (item attestation : Object) : Prop where
  gdpr : item.get "gdpr_relevant".toList = .bool false
  privacy : item.get "privacy_classification".toList = .string "no_personal_data".toList
  effect : attestation.get "effect".toList = .string "allow".toList
  reasons : attestation.get "reasons".toList = .array [.string "explicitly_cleared".toList]

/-- A venue. -/
structure VenueItem (t : Tables) (item facets : Object) (category : Text) : Prop where
  keys : Keyed item venueFields
  title : Line 255 (item.get "title".toList)
  location : IsLocation (item.get "location".toList)
  website : NamesPublicHost t (item.get "website".toList)
  facetKeys : Keyed facets venueFacets
  categories : ∀ key ∈ venueCategories, facets.get key = .string category
  address : ∃ address : Object, item.get "address".toList = .object address ∧
    Keyed address addressFields ∧ LineOrEmpty 255 (address.get "street".toList) ∧
    LineOrEmpty 128 (address.get "city".toList) ∧ LineOrEmpty 128 (address.get "county".toList) ∧
    (∃ country, address.get "country".toList = .string country ∧ capitals 2 country = true) ∧
    address.get "city".toList = .string (stringValue facets "city".toList) ∧
    address.get "county".toList = .string (stringValue facets "county".toList)
  tags : item.get "tags".toList = .array [.string ("venue:".toList ++ category)]

/-- What an event and a tombstone have in common: the status and the venue stand in the item and in its
facets, and the status in the tags. -/
structure Lifecycle (item facets : Object) (category status : Text) : Prop where
  facetKeys : Keyed facets lifecycleFacets
  facetCategory : facets.get "category".toList = .string category
  itemStatus : item.get "status".toList = .string status
  facetStatus : facets.get "status".toList = .string status
  facetLifecycle : facets.get "lifecycle_status".toList = .string status
  lifecycle : item.get "lifecycle_status".toList = .string status
  present : item.has "venue_id".toList = item.has "place_id".toList
  venue : item.get "venue_id".toList = .null ∨ Stable (item.get "venue_id".toList)
  place : item.get "place_id".toList = item.get "venue_id".toList
  facetVenue : facets.get "venue_id".toList = item.get "venue_id".toList
  facetPlace : facets.get "place_id".toList = item.get "venue_id".toList
  tags : item.get "tags".toList =
    .array [.string ("event:".toList ++ category), .string ("lifecycle:".toList ++ status)]

/-- An event, whose status `Status` admits. -/
structure EventItem (Status : Text → Prop) (t : Tables) (item : Object) (status : Text) : Prop where
  known : Status status
  title : Line 255 (item.get "title".toList)
  cancelled : item.get "cancelled".toList = .bool (status == "cancelled".toList)
  tombstone : item.get "tombstone".toList = .bool false
  isTombstone : item.get "is_tombstone".toList = .bool false
  finish : LineOrEmpty 80 (item.get "end_datetime".toList)
  startsAt : item.get "starts_at".toList = item.get "start_datetime".toList
  endsAt : item.get "ends_at".toList = item.get "end_datetime".toList
  times : ∃ start, aware (item.get "start_datetime".toList) = some start ∧
    (item.get "end_datetime".toList = .string [] ∨
      ∃ finish, aware (item.get "end_datetime".toList) = some finish ∧ start ≤ finish)
  timezone : ∃ zone, item.get "timezone".toList = .string zone ∧ Feeds.trimSpace zone = zone ∧
    loadLocation t zone = true
  currency : ∃ currency, item.get "currency".toList = .string currency ∧ capitals 3 currency = true
  isFree : ∃ free, item.get "is_free".toList = .bool free
  prices : ∃ least most, PriceOf item "price_min".toList least ∧ PriceOf item "price_max".toList most ∧
    ∀ x ∈ least, ∀ y ∈ most, units x ≤ units y
  recurrence : ∀ v ∈ item.get? "recurrence".toList, Line 1000 v
  location : ∀ v ∈ item.get? "location".toList, IsLocation v
  ticketUrl : ∀ v ∈ item.get? "ticket_url".toList, NamesPublicHost t v
  availability : ∀ v ∈ item.get? "availability".toList, OneOf availabilities v

/-- The tombstone of an event. -/
structure TombstoneItem (item : Object) (status : Text) : Prop where
  title : item.get "title".toList = .string []
  removed : status = "removed".toList
  cancelled : item.get "cancelled".toList = .bool false
  tombstone : item.get "tombstone".toList = .bool true
  isTombstone : item.get "is_tombstone".toList = .bool true

/-- The keys of an event or a tombstone: those that it must have, and others that it may have. -/
structure Fields (event : Bool) (item : Object) : Prop where
  required : ∀ key ∈ requiredFields event, item.has key = true
  allowed : ∀ field ∈ item, field.1 ∈ allowedFields event

/-- What an item of its kind is like. -/
inductive Kinded (Status : Text → Prop) (t : Tables) (item facets : Object) (category : Text) : Prop where
  | venue (kind : item.get "kind".toList = .string "venue".toList)
      (venue : VenueItem t item facets category)
  | event (kind : item.get "kind".toList = .string "event".toList) (fields : Fields true item) (status : Text)
      (lifecycle : Lifecycle item facets category status) (event : EventItem Status t item status)
  | tombstone (kind : item.get "kind".toList = .string "event_tombstone".toList) (fields : Fields false item)
      (status : Text) (lifecycle : Lifecycle item facets category status)
      (tombstone : TombstoneItem item status)

/-- The contract but for the clearance. -/
structure Sound (Status : Text → Prop) (access : PackAccess) (t : Tables) (item attestation : Object) :
    Prop where
  common : Common access item attestation
  kinded : ∃ (category : Text) (facets : Object), item.get "category".toList = .string category ∧
    categoryPattern category = true ∧ item.get "facets".toList = .object facets ∧
    (facets.get "city".toList = .null ∨ Line 128 (facets.get "city".toList)) ∧
    (facets.get "county".toList = .null ∨ Line 128 (facets.get "county".toList)) ∧
    Kinded Status t item facets category

/-! ### Values -/

@[simp] theorem ensure_eq_ok {condition : Bool} : ensure condition = .ok () ↔ condition = true := need_eq_ok

variable {α : Type}

theorem ensure_seq {condition : Bool} {f : Unit → Except Stop α} {r : α} :
    (ensure condition >>= f) = .ok r ↔ condition = true ∧ f () = .ok r := by
  rw [seq_eq_ok, ensure_eq_ok]

variable {value : Option α}

theorem given_eq_ok {a : α} : given value = .ok a ↔ value = some a := elim_eq_ok

theorem given_bind {β : Type} {f : α → Except Stop β} {r : β} :
    (given value >>= f) = .ok r ↔ ∃ a, value = some a ∧ f a = .ok r := by
  simp only [bind_eq_ok, given_eq_ok]

theorem asserted_bind {β : Type} {f : α → Except Stop β} {r : β} :
    (asserted value >>= f) = .ok r ↔ ∃ a, value = some a ∧ f a = .ok r := by
  simp only [bind_eq_ok, asserted, elim_eq_ok]

variable {v : GoJson}

@[simp] theorem asString_eq_some {s : Text} : asString v = some s ↔ v = .string s := by
  cases v <;> simp [asString]

@[simp] theorem asBool_eq_some {b : Bool} : asBool v = some b ↔ v = .bool b := by
  cases v <;> simp [asBool]

@[simp] theorem asArray_eq_some {items : List GoJson} :
    asArray v = some items ↔ v = .array items := by
  cases v <;> simp [asArray]

@[simp] theorem asObject_eq_some {o : Object} : asObject v = some o ↔ v = .object o := by
  cases v <;> simp [asObject]

@[simp] theorem isString_iff {s : Text} : isString s v = true ↔ v = .string s := by
  cases v <;> simp [isString]

@[simp] theorem isBool_iff {b : Bool} : isBool b v = true ↔ v = .bool b := by
  cases v <;> simp [isBool]

@[simp] theorem isNil_iff : isNil v = true ↔ v = .null := by
  cases v <;> simp [isNil]

theorem any_isString_iff {words : List Text} :
    (words.any fun word => isString word v) = true ↔ OneOf words v := by
  simp [OneOf]

theorem option_any_iff {o : Option α} {p : α → Bool} :
    o.any p = true ↔ ∃ a, o = some a ∧ p a = true := by
  cases o <;> simp

/-- A value that `==` takes. -/
def comparable : GoJson → Bool
  | .array _ | .object _ => false
  | _ => true

theorem eq_of_agree {a b : GoJson} (h : agree a b = .ok ()) : a = b := by
  have ⟨equal, hsame, hequal⟩ := bind_eq_ok.mp h
  have hequal : equal = true := ensure_eq_ok.mp hequal
  subst hequal
  cases a <;> cases b <;> simp_all [same]

theorem same_self {a : GoJson} (h : comparable a = true) : same a a = .ok true := by
  cases a <;> simp_all [same, comparable]

theorem agree_iff {a b : GoJson} (h : comparable b = true) : agree a b = .ok () ↔ a = b := by
  constructor
  · exact eq_of_agree
  · rintro rfl
    show (same a a >>= fun equal => ensure equal) = .ok ()
    rw [same_self h, ok_bind]
    rfl

theorem agree_seq {a b : GoJson} {f : Unit → Except Stop α} {r : α} (h : comparable b = true) :
    (agree a b >>= f) = .ok r ↔ a = b ∧ f () = .ok r := by
  rw [seq_eq_ok, agree_iff h]

theorem avoids_agree (a : GoJson) {b : GoJson} (h : comparable b = true) : Avoids .panicked (agree a b) := by
  have hsame : Avoids .panicked (same a b) := by
    cases a <;> cases b <;> first | exact avoids_ok _ _ | cases h
  exact avoids_bind hsame fun equal _ => avoids_need (by decide) equal

theorem avoids_ensure (condition : Bool) : Avoids Stop.panicked (ensure condition) :=
  avoids_need (by decide) condition

theorem avoids_given (value : Option α) : Avoids Stop.panicked (given value) :=
  avoids_elim (by decide) value

/-! ### Objects -/

namespace Object

variable {key : Text} {o : Object}

theorem get?_eq_some {v : GoJson} (h : get? o key = some v) : (key, v) ∈ o := by
  have ⟨field, hfield, hv⟩ := Option.map_eq_some_iff.mp h
  have hkey : field.1 = key := by simpa using List.find?_some hfield
  subst hkey hv
  exact List.mem_of_find?_eq_some hfield

theorem has_iff : has o key = true ↔ key ∈ o.map Prod.fst := by
  simp [has, get?, List.find?_isSome]

theorem get_eq (o : Object) (key : Text) : get o key = (get? o key).getD .null := rfl

@[simp] theorem get?_set_self (o : Object) (key : Text) (v : GoJson) : get? (set o key v) key = some v := by
  simp [get?, set]

theorem get?_erase {other : Text} (h : key ≠ other) : get? (erase o other) key = get? o key := by
  unfold get? erase
  rw [List.find?_filter]
  congr 2
  funext field
  by_cases hkey : field.1 = key
  · simp [hkey, h]
  · simp [hkey]

theorem get?_set {other : Text} (v : GoJson) (h : key ≠ other) :
    get? (set o other v) key = get? o key := by
  have hne : (other == key) = false := by simpa using Ne.symm h
  have hcons : get? (set o other v) key = get? (erase o other) key := by simp [get?, set, hne]
  rw [hcons, get?_erase h]

end Object

theorem exactKeys_iff {o : Object} {fields : List Text} (hfields : fields.Nodup) :
    exactKeys o fields = true ↔ Keyed o fields := by
  unfold exactKeys Keyed
  rw [Bool.and_eq_true, decide_eq_true_iff, List.all_eq_true]
  constructor
  · intro ⟨hlength, hhas⟩
    -- The wanted keys are different and as many as the keys, so there are no others.
    have hsub : fields ⊆ o.map Prod.fst := fun key hkey => Object.has_iff.mp (hhas key hkey)
    exact ((List.subperm_of_subset hfields hsub).perm_of_length_le (by simp [hlength])).symm
  · intro h
    exact ⟨by simpa using h.length_eq, fun key hkey => Object.has_iff.mpr (h.mem_iff.mpr hkey)⟩

/-! ### Texts -/

variable {s : Text} {p : Char → Bool}

theorem dropWhile_eq_self (h : ∀ c ∈ s.head?, p c = false) : s.dropWhile p = s := by
  cases s with
  | nil => rfl
  | cons c => simp [h c rfl]

theorem head?_of_dropWhile_eq_self (h : s.dropWhile p = s) :
    ∀ c ∈ s.head?, p c = false := by
  intro c hc
  cases hp : p c with
  | false => rfl
  | true =>
    cases s with
    | nil => cases hc
    | cons d s =>
      cases hc
      have hlength := congrArg List.length h
      have hle := (List.dropWhile_suffix p (l := s)).length_le
      simp [hp] at hlength
      omega

theorem trim_eq_self_iff :
    Feeds.trim p s = s ↔ (∀ c ∈ s.head?, p c = false) ∧ ∀ c ∈ s.getLast?, p c = false := by
  have hlast : ∀ c, c ∈ s.getLast? ↔ c ∈ s.reverse.head? := by simp
  unfold Feeds.trim
  constructor
  · intro h
    -- Neither end can have been cut: the length would have gone down.
    have hlength := congrArg List.length h
    have hfront := (List.dropWhile_suffix p (l := s)).length_le
    have hback := (List.dropWhile_suffix p (l := (s.dropWhile p).reverse)).length_le
    simp only [List.length_reverse] at hlength hback
    have hs : s.dropWhile p = s := (List.dropWhile_suffix p).eq_of_length (by omega)
    rw [hs] at h
    have hr : s.reverse.dropWhile p = s.reverse := by rw [← List.reverse_eq_iff]; exact h
    exact ⟨head?_of_dropWhile_eq_self hs, fun c hc => head?_of_dropWhile_eq_self hr c ((hlast c).mp hc)⟩
  · intro ⟨hfirst, hend⟩
    rw [dropWhile_eq_self hfirst, dropWhile_eq_self fun c hc => hend c ((hlast c).mpr hc), List.reverse_reverse]

theorem isText_iff {n : Nat} :
    IsText n s ↔ Feeds.trimSpace s = s ∧ s.length ≤ n ∧ ∀ c ∈ s, 32 ≤ c.toNat := by
  unfold Feeds.trimSpace
  rw [trim_eq_self_iff]
  exact ⟨fun h => ⟨⟨h.first, h.last⟩, h.length_le, h.printable⟩, fun ⟨⟨h1, h2⟩, h3, h4⟩ => ⟨h3, h4, h1, h2⟩⟩

theorem text_string_iff {n : Nat} {empty : Bool} :
    text (.string s) n empty = true ↔ IsText n s ∧ (empty = true ∨ s ≠ []) := by
  rw [isText_iff]
  simp only [text, Bool.and_eq_true, beq_iff_eq, decide_eq_true_iff, Bool.or_eq_true, Bool.not_eq_true',
    List.isEmpty_eq_false_iff, List.all_eq_true]
  constructor
  · intro ⟨⟨⟨h1, h2⟩, h3⟩, h4⟩
    exact ⟨⟨h1.symm, h2, h4⟩, h3⟩
  · intro ⟨⟨h1, h2, h4⟩, h3⟩
    exact ⟨⟨⟨h1.symm, h2⟩, h3⟩, h4⟩

variable {v : GoJson}

theorem exists_of_text {n : Nat} {empty : Bool} (h : text v n empty = true) : ∃ s, v = .string s := by
  cases v <;> first | exact ⟨_, rfl⟩ | cases h

@[simp] theorem text_iff {n : Nat} : text v n false = true ↔ Line n v := by
  constructor
  · intro h
    have ⟨s, hs⟩ := exists_of_text h
    have ⟨htext, hne⟩ := text_string_iff.mp (hs ▸ h)
    exact ⟨s, hs, htext, hne.resolve_left (by decide)⟩
  · rintro ⟨s, rfl, htext, hne⟩
    exact text_string_iff.mpr ⟨htext, Or.inr hne⟩

@[simp] theorem text_empty_iff {n : Nat} : text v n true = true ↔ LineOrEmpty n v := by
  constructor
  · intro h
    have ⟨s, hs⟩ := exists_of_text h
    exact ⟨s, hs, (text_string_iff.mp (hs ▸ h)).1⟩
  · rintro ⟨s, rfl, htext⟩
    exact text_string_iff.mpr ⟨htext, Or.inl rfl⟩

@[simp] theorem stable_iff : stable v = true ↔ Stable v := by
  unfold stable
  rw [Bool.and_eq_true, text_iff, option_any_iff]
  constructor
  · rintro ⟨⟨s, rfl, htext, hne⟩, s', hs', hall⟩
    obtain rfl : s = s' := by simpa using hs'
    exact ⟨s, rfl, htext, hne, fun c hc => by simpa using (by simpa using List.all_eq_true.mp hall c hc :
      Safety.Go.isSpace c = false ∧ 32 ≤ c.toNat).1⟩
  · rintro ⟨s, rfl, htext, hne, hspace⟩
    refine ⟨⟨s, rfl, htext, hne⟩, s, rfl, List.all_eq_true.mpr fun c hc => ?_⟩
    simpa [hspace c hc] using htext.printable c hc

@[simp] theorem isHash_iff : isHash v = true ↔ IsHash v := by
  unfold isHash IsHash hashPattern
  rw [option_any_iff]
  simp

@[simp] theorem equalsNumber_iff {n : Int} : equalsNumber v n = true ↔ IsNumber n v := by
  unfold equalsNumber IsNumber
  rw [option_any_iff]
  simp

theorem between_iff {low high : Int} {x : Binary64} :
    between low high x = true ↔ whole low ≤ units x ∧ units x ≤ whole high := by
  simp [between]

theorem any_between_iff {low high : Int} :
    (number v).any (between low high) = true ↔ InRange low high v := by
  rw [option_any_iff]
  simp [between_iff, InRange]

@[simp] theorem location_iff : location v = true ↔ IsLocation v := by
  unfold location IsLocation
  rw [option_any_iff]
  simp only [asObject_eq_some, Bool.and_eq_true, exactKeys_iff (by decide : locationFields.Nodup),
    any_between_iff, and_assoc]

theorem isDigit_iff {c : Char} : c.isDigit = true ↔ '0'.toNat ≤ c.toNat ∧ c.toNat ≤ '9'.toNat := by
  rw [Char.isDigit, Bool.and_eq_true, decide_eq_true_iff, decide_eq_true_iff]
  exact Iff.rfl

theorem capitals_sprint {n : Nat} :
    capitals n (sprint v) = true ↔ ∃ s, v = .string s ∧ capitals n s = true := by
  constructor
  · intro h
    have hcapital : ∀ c ∈ (sprint v).head?, 'A' ≤ c ∧ c ≤ 'Z' := by
      intro c hc
      have hall := (Bool.and_eq_true_iff.mp h).2
      simpa using List.all_eq_true.mp hall c (List.mem_of_mem_head? hc)
    have hlead : ∀ c cs, sprint v = c :: cs → ¬('A' ≤ c ∧ c ≤ 'Z') → ∃ s, v = .string s ∧ capitals n s = true :=
      fun c cs hs hc => absurd (hcapital c (by rw [hs]; rfl)) hc
    cases v with
    | null => exact hlead '<' _ rfl (by decide)
    | bool b => cases b with
      | true => exact hlead 't' _ rfl (by decide)
      | false => exact hlead 'f' _ rfl (by decide)
    | number n =>
      have ⟨c, cs, hcs, hc⟩ := NumberText.chars_lead n
      refine hlead c cs hcs ?_
      rcases hc with rfl | hdigit
      · decide
      · intro ⟨hcapital, _⟩
        have hdigit := isDigit_iff.mp hdigit
        have hcapital : 'A'.toNat ≤ c.toNat := hcapital
        have hnine : '9'.toNat < 'A'.toNat := by decide
        omega
    | string s => exact ⟨s, rfl, h⟩
    | array => exact hlead '[' _ rfl (by decide)
    | object => exact hlead 'm' _ rfl (by decide)
  · rintro ⟨s, rfl, h⟩
    exact h

end SocialActivities.Roedu
