import SocialActivities.Lib.Sha256
import SocialActivities.Roedu.Items

/-!
# `SocialActivities.Roedu.Admission`: items of a local proof of concept (`internal/jobs/roedu_local_poc.go`)

An item that its source denied may carry an admission, which names the reasons of the denial that the
owner waived. `validateLocalPOCPackItem` accepts it when the admission is verified
(`verifyLocalPOCAdmission`) and the validator accepts a copy of the item whose four clearance fields are
set to what it wants. The admission carries the digest of its own canonical text
(`localPOCAdmissionDigest`).
-/

namespace SocialActivities.Roedu

open Lib
open Snapshots (GoJson Text)

def localPOCWaivable : List Text :=
  names ["capability_denied", "confidentiality_not_public", "copyright_unknown", "missing_legal_basis",
    "personal_data_not_cleared", "privacy_personal_data", "privacy_revision_missing", "privacy_unknown"]

def localPOCAdmissionKind : Text := "owner_local_development_override".toList

def admissionFields : List Text :=
  names ["schema_version", "kind", "not_a_legal_basis", "underlying_decision_id", "waived_reasons",
    "poc_root", "admission_digest"]

def privacyClassPattern (s : Text) : Bool :=
  s.head?.any lowerLetter && decide (s.length ≤ 64) && s.all fun c => lowerLetter c || c == '_'

/-! ### The digest -/

/-- The loop of `sortedWaivable`, after the reason `last`. -/
def waivableAfter (last : Option Text) : List GoJson → Option (List Text)
  | [] => some []
  | .string reason :: rest =>
    if localPOCWaivable.contains reason && last.all fun before => decide (before < reason) then
      (waivableAfter (some reason) rest).map (reason :: ·)
    else none
  | _ :: _ => none

def sortedWaivable (value : GoJson) : Option (List Text) :=
  (asArray value).bind fun raw => if raw.isEmpty then none else waivableAfter none raw

def integerOne : GoJson → Bool
  | .number n => n.chars == ['1']
  | _ => false

/-- One rune of `canonicalString`. -/
def canonicalRune (r : Char) : Text :=
  if r = '"' then ['\\', '"']
  else if r = '\\' then ['\\', '\\']
  else if r = '\n' then ['\\', 'n']
  else if r = '\r' then ['\\', 'r']
  else if r = '\t' then ['\\', 't']
  else if r = '\x08' then ['\\', 'b']
  else if r = '\x0c' then ['\\', 'f']
  else if r.toNat < 0x20 then "\\u00".toList ++ [hexChar (r.toNat / 16), hexChar (r.toNat % 16)]
  else [r]

def canonicalString (value : Text) : Text := '"' :: (value.flatMap canonicalRune ++ ['"'])

/-- The members of the canonical text, as texts. -/
def admissionMembers (root decision : Text) (waived : List Text) : List (Text × Text) :=
  [("kind".toList, canonicalString localPOCAdmissionKind),
    ("not_a_legal_basis".toList, "true".toList),
    ("poc_root".toList, canonicalString root),
    ("schema_version".toList, "1".toList),
    ("underlying_decision_id".toList, canonicalString decision),
    ("waived_reasons".toList, '[' :: ([','].intercalate (waived.map canonicalString) ++ [']']))]

/-- The canonical text: the members by their names. -/
def canonicalText (members : List (Text × Text)) : Text :=
  let sorted := Json.sortedFields id members
  '\x7b' :: ([','].intercalate (sorted.map fun m => canonicalString m.1 ++ ':' :: m.2) ++ ['\x7d'])

def localPOCAdmissionDigest (admission : Object) : Option Text :=
  if !integerOne (admission.get "schema_version".toList) ||
      !isString localPOCAdmissionKind (admission.get "kind".toList) ||
      !isBool true (admission.get "not_a_legal_basis".toList) then none
  else do
    let decision ← (asString (admission.get "underlying_decision_id".toList)).filter (!·.isEmpty)
    let root ← (asString (admission.get "poc_root".toList)).filter fun root =>
      root.head? == some '/' && decide ((utf8 root).length ≤ 4096)
    let waived ← sortedWaivable (admission.get "waived_reasons".toList)
    some (sha256 (canonicalText (admissionMembers root decision waived)))

/-! ### Verification -/

def verifyLocalPOCAdmission (admission attestation : Object) : Except Stop Unit := do
  ensure (exactKeys admission admissionFields)
  ensure (isString "publish_source".toList (attestation.get "action".toList) &&
    isString "deny".toList (attestation.get "effect".toList))
  let waived ← given (sortedWaivable (admission.get "waived_reasons".toList))
  let reasons ← given (asArray (attestation.get "reasons".toList))
  ensure (!reasons.isEmpty)
  let denied ← given (reasons.mapM asString)
  -- The reasons are collected in a set.
  ensure (decide (denied.dedup.length = waived.length) && waived.all denied.contains)
  let decision ← given (asString (admission.get "underlying_decision_id".toList))
  ensure (!decision.isEmpty && isString decision (attestation.get "decision_id".toList))
  let digest ← given (asString (admission.get "admission_digest".toList))
  ensure (hashPattern digest)
  let computed ← given (localPOCAdmissionDigest admission)
  ensure (computed == digest)

/-- The copy of a denied item that the validator sees. -/
def clearedShape (item attestation : Object) : Object :=
  let cleared := (attestation.set "effect".toList (.string "allow".toList)).set "reasons".toList
    (.array [.string "explicitly_cleared".toList])
  (((item.erase "local_poc_admission".toList).set "gdpr_relevant".toList (.bool false)).set
    "privacy_classification".toList (.string "no_personal_data".toList)).set "policy_attestation".toList
      (.object cleared)

def validateLocalPOCPackItem (t : Tables) (item : Object) : Except Stop Unit :=
  match item.get? "local_poc_admission".toList with
  | none => validatePackItem t item
  | some raw => do
    let admission ← given (asObject raw)
    let attestation ← given (asObject (item.get "policy_attestation".toList))
    verifyLocalPOCAdmission admission attestation
    ensure (asBool (item.get "gdpr_relevant".toList)).isSome
    let privacy ← given (asString (item.get "privacy_classification".toList))
    ensure (privacyClassPattern privacy)
    agree (attestation.get "decision_id".toList) (item.get "policy_decision_id".toList)
    agree (admission.get "underlying_decision_id".toList) (item.get "policy_decision_id".toList)
    validatePackItemIn .verifiedLocalPOCPackAccess t (clearedShape item attestation)

def validatePageItem (t : Tables) (item : Object) (localPOC : Bool) : Except Stop Unit :=
  if localPOC then validateLocalPOCPackItem t item else validatePackItem t item

/-! ### The gate of the client -/

/-- A `RoeduClient`, as far as its configuration matters to what it accepts. -/
structure RoeduClient where
  baseURL : Text
  localPOC : Bool

def RoeduClient.localPOCActive (t : Tables) (c : RoeduClient) : Bool :=
  c.localPOC && (parseUrl c.baseURL).any fun parsed =>
    !parsed.user && (parsed.scheme == "http".toList || parsed.scheme == "https".toList) &&
      loopbackHost t parsed.hostname

end SocialActivities.Roedu
