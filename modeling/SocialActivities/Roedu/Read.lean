import SocialActivities.Roedu.Admission
import SocialActivities.Snapshots.Loader

/-!
# `SocialActivities.Roedu.Read`: reading the pages of a producer (`RoeduClient.Read`)

The client asks for page after page, each with the cursor that the page before named, and collects the
items that its validator accepts. A producer is any function from the number and the cursor of a request
to an answer: it may answer differently every time, repeat itself or never come to an end.

`readPage` is one round of the loop, `relate` what comes after it, and `read` both. A read ends with a
result, with an error and what was read so far, or with a panic (`Halt`).
-/

namespace SocialActivities.Roedu

open Lib
open Snapshots (GoJson Text int64?)

def socialPack : Text := "roedu:social_media_activities_app:events_places:v1".toList

def pageEnvelopeFields : List Text :=
  names ["pack_id", "app", "layer", "schema_version", "snapshot_id", "release_id", "snapshot_generated_at",
    "snapshot_mode", "snapshot_complete", "items", "pagination", "withheld", "errors"]

structure PackRead where
  items : List Object
  pack : Text
  snapshot : Text
  release : Text
  generated : Text
  mode : Text
  complete : Bool
  localPOC : Bool

/-! ### Errors -/

inductive ReadError where
  | message (text : String)
  /-- `ProductRefusalError`. -/
  | productRefused (withheld conditions : Nat)
  deriving DecidableEq

def maxProductRefusalWithheld : Nat := 10000000000

def publicRefusalCondition (note : Text) : Nat :=
  if note = "schema not ready".toList then 1 else if note = "policy ruleset drifted".toList then 2 else 4

def productRefusal (withheld conditions : Nat) : ReadError :=
  if maxProductRefusalWithheld < withheld then .message "invalid RO-EDU refusal count"
  else .productRefused withheld (conditions &&& 7)

/-- What ends a read before its result: a panic, or an error beside what was read so far. -/
inductive Halt where
  | panicked
  | failed (result : PackRead) (error : ReadError)

/-- `if !condition { return result, errors.New(message) }`. -/
def expect (result : PackRead) (message : String) (condition : Bool) : Except Halt Unit :=
  need (.failed result (.message message)) condition

/-- The same for a value that is not there. -/
def required {α : Type} (result : PackRead) (message : String) (value : Option α) : Except Halt α :=
  value.elim (.error (.failed result (.message message))) .ok

/-- A type assertion with one result. -/
def demanded {α : Type} (value : Option α) : Except Halt α := value.elim (.error .panicked) .ok

/-! ### One page -/

/-- What a request comes to. A body is one JSON value, or it cannot be decoded. Of several fields of one
name in an object the decoder keeps the last. -/
inductive Answer where
  | invalidRequest
  | unavailable
  /-- A status other than 200, a body that cannot be read or one that is longer than 8 MiB. -/
  | oversized
  | body (value : Option (Document NumberText))

/-- A producer: the number and the cursor of a request to the answer. -/
abbrev Producer := Nat → Text → Answer

/-- The variables of the loop. -/
structure Paging where
  result : PackRead
  cursor : Text
  seenCursor : List Text
  seenItem : List Text
  clean : Bool
  withheldTotal : Nat
  refusalConditions : Nat
  producerDirty : Bool

/-- Decoding into a `map[string]any`. -/
def decodePage (value : Option (Document NumberText)) : Option Object :=
  match value.map Document.json with
  | some (.object fields) => some fields
  | some .null => some []
  | _ => none

def envelopeFields (t : Tables) (c : RoeduClient) (page : Object) : List Text :=
  if page.has "local_poc".toList && c.localPOCActive t then pageEnvelopeFields ++ ["local_poc".toList]
  else pageEnvelopeFields

/-- The page of an answer, and whether it is marked as a local proof of concept. -/
def readEnvelope (t : Tables) (c : RoeduClient) (result : PackRead) : Answer → Except Halt (Object × Bool)
  | .invalidRequest => .error (.failed result (.message "invalid RO-EDU request"))
  | .unavailable => .error (.failed result (.message "RO-EDU unavailable"))
  | .oversized => .error (.failed result (.message "RO-EDU unavailable or oversized"))
  | .body value => do
    let page ← required result "invalid RO-EDU page envelope" (decodePage value)
    expect result "invalid RO-EDU page envelope" (exactKeys page (envelopeFields t c page))
    let pocKey := page.has "local_poc".toList
    let localPOC := pocKey && isBool true (page.get "local_poc".toList)
    expect result "invalid RO-EDU page envelope" (!pocKey || localPOC)
    pure (page, localPOC)

def releasePattern (s : Text) : Bool := s.take 7 == "sha256-".toList && hashPattern (s.drop 7)

/-- The identity of a page, which must be the one of the pages before it. -/
def readIdentity (result : PackRead) (page : Object) (localPOC : Bool) : Except Halt (PackRead × Bool) := do
  let snapshot := stringValue page "snapshot_id".toList
  let generated := stringValue page "snapshot_generated_at".toList
  let mode := stringValue page "snapshot_mode".toList
  let complete ← required result "RO-EDU product identity or completeness invalid"
    (asBool (page.get "snapshot_complete".toList))
  expect result "RO-EDU product identity or completeness invalid" (
    isString socialPack (page.get "pack_id".toList) &&
      isString "social_media_activities_app".toList (page.get "app".toList) &&
      isString "redistributable".toList (page.get "layer".toList) &&
      equalsNumber (page.get "schema_version".toList) 1 && releasePattern snapshot &&
      isString snapshot (page.get "release_id".toList) && (aware (.string generated)).isSome &&
      (mode == "full".toList || mode == "partial".toList) && complete == (mode == "full".toList))
  expect result "RO-EDU snapshot drift" (result.snapshot.isEmpty ||
    (result.snapshot == snapshot && result.generated == generated && result.mode == mode &&
      result.localPOC == localPOC))
  pure ({ result with
    pack := socialPack, snapshot, release := snapshot, generated, mode, localPOC }, complete)

/-- `withheld`, an integer of the page. -/
def readWithheld (result : PackRead) (page : Object) : Except Halt Nat := do
  let withheld ← required result "RO-EDU result envelope invalid" <|
    match page.get "withheld".toList with
    | .number n => int64? n
    | _ => none
  expect result "RO-EDU result envelope invalid" (decide (0 ≤ withheld) && decide (withheld ≤ 1000000))
  pure withheld.toNat

/-- One note of `errors`, with the conditions of the notes before it. -/
def readNote (result : PackRead) (conditions : Nat) (problem : GoJson) : Except Halt Nat := do
  expect result "invalid producer error" (text problem 4096 false)
  let note ← demanded (asString problem)
  pure (conditions ||| publicRefusalCondition note)

/-- An item that is not taken. -/
def Paging.drop (s : Paging) : Paging := { s with clean := false }

/-- One item of a page. -/
def readItem (t : Tables) (localPOC : Bool) (city : Text) (s : Paging) (raw : GoJson) :
    Except Halt Paging :=
  match asObject raw with
  | none => pure s.drop
  | some item =>
    match validatePageItem t item localPOC with
    | .error .panicked => .error .panicked
    | .error .refused => pure s.drop
    | .ok () => do
      let facets ← demanded (asObject (item.get "facets".toList))
      if !city.isEmpty && !equalFold t (sprint (facets.get "city".toList)) city then pure s.drop
      else do
        let id ← demanded (asString (item.get "id".toList))
        if s.seenItem.contains id then pure s.drop
        else do
          let result := { s.result with items := s.result.items ++ [item] }
          expect result "RO-EDU record bound exceeded" (decide (result.items.length ≤ 1000000))
          pure { s with result, seenItem := id :: s.seenItem }

/-- The end of a round: the cursor of the next page, unless the page is the last one. -/
def readPagination (s : Paging) (page : Object) (complete : Bool) : Except Halt (Paging × Bool) := do
  let pagination ← required s.result "invalid RO-EDU pagination" (asObject (page.get "pagination".toList))
  expect s.result "invalid RO-EDU pagination" (exactKeys pagination ["next_cursor".toList])
  if isNil (pagination.get "next_cursor".toList) then
    -- A local snapshot is never complete, even when the producer admitted every item.
    pure ({ s with result := { s.result with complete := complete && s.clean && !s.result.localPOC } }, true)
  else do
    let next ← required s.result "RO-EDU cursor repeated or invalid"
      (asString (pagination.get "next_cursor".toList))
    expect s.result "RO-EDU cursor repeated or invalid"
      (text (.string next) 4096 false && !s.seenCursor.contains next)
    pure ({ s with seenCursor := next :: s.seenCursor, cursor := next }, false)

/-- The endpoint of the pack. -/
def endpoint (c : RoeduClient) : Text :=
  (c.baseURL.reverse.dropWhile (· == '/')).reverse ++ "/v1/app-packs/social_media_activities_app/".toList ++
    socialPack

/-- One round of the loop. -/
def readPage (t : Tables) (c : RoeduClient) (city : Text) (producer : Producer) (i : Nat) (s : Paging) :
    Except Halt (Paging × Bool) := do
  expect s.result "invalid RO-EDU endpoint" (parseUrl (endpoint c)).isSome
  let (page, localPOC) ← readEnvelope t c s.result (producer i s.cursor)
  let (result, complete) ← readIdentity s.result page localPOC
  let withheld ← readWithheld result page
  let producerErrors ← required result "RO-EDU errors invalid" (asArray (page.get "errors".toList))
  let refusalConditions ← producerErrors.foldlM (readNote result) s.refusalConditions
  let items ← required result "RO-EDU items invalid" (asArray (page.get "items".toList))
  let s ← items.foldlM (readItem t localPOC city) { s with
    result
    clean := s.clean && withheld == 0 && producerErrors.isEmpty
    withheldTotal := s.withheldTotal + withheld
    refusalConditions
    producerDirty := s.producerDirty || !producerErrors.isEmpty }
  readPagination s page complete

/-! ### The read -/

/-- The variables before the loop. -/
def Paging.start : Paging where
  result := ⟨[], [], [], [], [], [], false, false⟩
  cursor := []
  seenCursor := []
  seenItem := []
  clean := true
  withheldTotal := 0
  refusalConditions := 0
  producerDirty := false

def pageBound : Nat := 10000

/-- The ids of the venues among some items. -/
def venueIds (items : List Object) : Except Halt (List Text) :=
  (items.filter fun item => isString "venue".toList (item.get "kind".toList)).mapM fun item =>
    demanded (asString (item.get "id".toList))

/-- An event that names a venue which is not among these. -/
def isOrphan (venues : List Text) (item : Object) : Bool :=
  isString "event".toList (item.get "kind".toList) && !isNil (item.get "venue_id".toList) &&
    !venues.contains (sprint (item.get "venue_id".toList))

/-- What follows the loop: events without their venue are taken out. -/
def relate (s : Paging) : Except Halt PackRead := do
  let venues ← venueIds s.result.items
  let related := s.result.items.filter fun item => !isOrphan venues item
  let result := { s.result with
    items := related, complete := s.result.complete && !s.result.items.any (isOrphan venues) }
  need (.failed result (productRefusal s.withheldTotal s.refusalConditions))
    (!(related.isEmpty && (decide (0 < s.withheldTotal) || s.producerDirty)))
  pure result

def read (t : Tables) (c : RoeduClient) (city : Text) (producer : Producer) : Except Halt PackRead := do
  let s ← rounds (readPage t c city producer)
    (fun s => .failed s.result (.message "RO-EDU page bound exceeded")) pageBound 0 Paging.start
  relate s

end SocialActivities.Roedu
