import Mathlib.Data.List.Infix
import SocialActivities.Roedu.Accepted

/-!
# `SocialActivities.Roedu.Statuses`: the status of an event, and the whole contract

`validatePackItem` finds the status of an event with `strings.Contains` in a list whose names stand
between bars. The test lets through every name of the list, and also neighbours of the list joined by
bars, such as `scheduled|rescheduled` (`listed_iff`). But for these the validator accepts exactly the
contract (`pack_item_contract`).
-/

namespace SocialActivities.Roedu

open Lib
open Snapshots (GoJson Text)

/-- The statuses of an event. -/
def statuses : List Text :=
  names ["scheduled", "rescheduled", "postponed", "cancelled", "sold_out", "moved_online", "expired"]

/-- Neighbours of the list, joined by bars. -/
def Joined (status : Text) : Prop := '|' ∈ status ∧ Feeds.splitOn '|' status <:+: statuses

/-! ### Parts between bars -/

theorem contains_iff {part s : Text} : contains part s = true ↔ part <:+: s := by
  induction s with
  | nil => simp [contains]
  | cons c s ih => rw [contains, Bool.or_eq_true, ih, List.infix_cons_iff, List.isPrefixOf_iff_prefix]

theorem splitOn_append_cons (c : Char) (a b : Text) :
    Feeds.splitOn c (a ++ c :: b) = Feeds.splitOn c a ++ Feeds.splitOn c b := by
  induction a with
  | nil => simp [Feeds.splitOn]
  | cons d a ih =>
    rw [List.cons_append, Feeds.splitOn, Feeds.splitOn, ih]
    split_ifs
    · rfl
    · cases h : Feeds.splitOn c a with
      | nil => exact absurd h (Feeds.splitOn_ne_nil c a)
      | cons => rfl

theorem flatMap_splitOn (c : Char) (s : Text) : (Feeds.splitOn c s).flatMap (· ++ [c]) = s ++ [c] := by
  induction s with
  | nil => rfl
  | cons d s ih =>
    rw [Feeds.splitOn]
    split_ifs with h
    · rw [List.flatMap_cons, ih, h]
      rfl
    · cases hs : Feeds.splitOn c s with
      | nil => exact absurd hs (Feeds.splitOn_ne_nil c s)
      | cons =>
        rw [hs, List.flatMap_cons] at ih
        rw [List.flatMap_cons, List.cons_append, List.cons_append, List.cons_append, ih]

theorem cons_flatMap (c : Char) (parts : List Text) :
    c :: parts.flatMap (· ++ [c]) = parts.flatMap (c :: ·) ++ [c] := by
  induction parts with
  | nil => rfl
  | cons part parts ih =>
    rw [List.flatMap_cons, List.flatMap_cons, List.append_assoc (c :: part), ← ih]
    simp

theorem splitOn_knownStatuses : Feeds.splitOn '|' knownStatuses = [] :: (statuses ++ [[]]) := by decide +kernel

theorem knownStatuses_eq : knownStatuses = '|' :: statuses.flatMap (· ++ ['|']) := by decide +kernel

theorem listed_iff_consecutive {status : Text} : Listed status ↔ Feeds.splitOn '|' status <:+: statuses := by
  unfold Listed
  rw [contains_iff]
  constructor
  · intro ⟨before, after, h⟩
    have hknown : before ++ '|' :: (status ++ '|' :: after) = knownStatuses := by
      rw [← h]
      simp
    -- The parts of the list are those before, those of the status and those after.
    have hparts := congrArg (Feeds.splitOn '|') hknown
    rw [splitOn_append_cons, splitOn_append_cons, splitOn_knownStatuses] at hparts
    cases hbefore : Feeds.splitOn '|' before with
    | nil => exact absurd hbefore (Feeds.splitOn_ne_nil '|' before)
    | cons first parts =>
      rw [hbefore] at hparts
      have htail : parts ++ (Feeds.splitOn '|' status ++ Feeds.splitOn '|' after) = statuses ++ [[]] :=
        (List.cons.inj hparts).2
      have hafter := List.dropLast_append_getLast (Feeds.splitOn_ne_nil '|' after)
      rw [← hafter, ← List.append_assoc, ← List.append_assoc] at htail
      exact ⟨parts, (Feeds.splitOn '|' after).dropLast, (List.append_inj' htail rfl).1⟩
  · intro ⟨before, after, h⟩
    refine ⟨before.flatMap ('|' :: ·), after.flatMap (· ++ ['|']), ?_⟩
    calc before.flatMap ('|' :: ·) ++ '|' :: (status ++ ['|']) ++ after.flatMap (· ++ ['|'])
        = before.flatMap ('|' :: ·) ++ ['|'] ++ (status ++ ['|'] ++ after.flatMap (· ++ ['|'])) := by simp
      _ = '|' :: before.flatMap (· ++ ['|']) ++ (status ++ ['|'] ++ after.flatMap (· ++ ['|'])) := by
          rw [cons_flatMap]
      _ = knownStatuses := by
          rw [knownStatuses_eq, ← h, List.flatMap_append, List.flatMap_append, flatMap_splitOn]
          simp

theorem no_bar : ∀ status ∈ statuses, '|' ∉ status := by
  simp [statuses, forall_names]

theorem listed_iff {status : Text} : Listed status ↔ status ∈ statuses ∨ Joined status := by
  rw [listed_iff_consecutive]
  by_cases hbar : '|' ∈ status
  · constructor
    · intro h
      exact Or.inr ⟨hbar, h⟩
    · rintro (hmem | hjoined)
      · exact absurd hbar (no_bar status hmem)
      · exact hjoined.2
  · rw [Feeds.splitOn_of_not_mem hbar]
    rw [List.singleton_infix_iff]
    exact ⟨Or.inl, fun h => h.resolve_right fun hjoined => hbar hjoined.1⟩

/-! ### The contract -/

/-- The contract of an item. -/
def Contract (t : Tables) (item : Object) : Prop :=
  ∃ attestation, Sound (· ∈ statuses) .publicPackAccess t item attestation ∧ Cleared item attestation

/-- An event that keeps the contract but for its status, which is neighbours of the list joined by bars. -/
def JoinedEvent (t : Tables) (item : Object) : Prop :=
  item.get "kind".toList = .string "event".toList ∧
    ∃ attestation, Sound Joined .publicPackAccess t item attestation ∧ Cleared item attestation

theorem EventItem.with {P Q : Text → Prop} {t : Tables} {item : Object} {status : Text}
    (h : EventItem P t item status) (hstatus : Q status) : EventItem Q t item status :=
  { h with known := hstatus }

theorem Sound.with {P Q : Text → Prop} {access : PackAccess} {t : Tables} {item attestation : Object}
    (h : Sound P access t item attestation) (hstatus : ∀ status, item.get "kind".toList = .string "event".toList →
      item.get "status".toList = .string status → P status → Q status) :
    Sound Q access t item attestation := by
  have ⟨category, facets, hcategory, hpattern, hfacets, hcity, hcounty, hkinded⟩ := h.kinded
  refine ⟨h.common, category, facets, hcategory, hpattern, hfacets, hcity, hcounty, ?_⟩
  cases hkinded with
  | venue hkind hvenue => exact .venue hkind hvenue
  | event hkind hfields status hlifecycle hevent =>
    exact .event hkind hfields status hlifecycle
      (hevent.with (hstatus status hkind hlifecycle.itemStatus hevent.known))
  | tombstone hkind hfields status hlifecycle htombstone =>
    exact .tombstone hkind hfields status hlifecycle htombstone

theorem Sound.status {P : Text → Prop} {access : PackAccess} {t : Tables} {item attestation : Object}
    (h : Sound P access t item attestation) (hkind : item.get "kind".toList = .string "event".toList) :
    ∃ status, item.get "status".toList = .string status ∧ P status := by
  have ⟨_, _, _, _, _, _, _, hkinded⟩ := h.kinded
  cases hkinded with
  | venue hvenue => exact absurd (hkind.symm.trans hvenue) (by simp)
  | event _ _ status hlifecycle hevent => exact ⟨status, hlifecycle.itemStatus, hevent.known⟩
  | tombstone htombstone => exact absurd (hkind.symm.trans htombstone) (by simp)

theorem validatePackItem_eq_ok {t : Tables} {item : Object} :
    validatePackItem t item = .ok () ↔ Contract t item ∨ JoinedEvent t item := by
  unfold validatePackItem
  rw [validatePackItemIn_eq_ok]
  constructor
  · intro ⟨attestation, hsound, hclear⟩
    by_cases hjoined : item.get "kind".toList = .string "event".toList ∧
        ∃ status, item.get "status".toList = .string status ∧ Joined status
    · have ⟨hkind, status, hstatus, hbars⟩ := hjoined
      refine Or.inr ⟨hkind, attestation, hsound.with fun other _ hother _ => ?_, hclear⟩
      have hsame : Json.string status = Json.string other := hstatus.symm.trans hother
      injection hsame with hsame
      exact hsame ▸ hbars
    · refine Or.inl ⟨attestation, hsound.with fun status hkind hstatus hlisted => ?_, hclear⟩
      exact (listed_iff.mp hlisted).resolve_right fun hbars => hjoined ⟨hkind, status, hstatus, hbars⟩
  · rintro (⟨attestation, hsound, hclear⟩ | ⟨_, attestation, hsound, hclear⟩)
    · exact ⟨attestation, hsound.with fun _ _ _ h => listed_iff.mpr (Or.inl h), hclear⟩
    · exact ⟨attestation, hsound.with fun _ _ _ h => listed_iff.mpr (Or.inr h), hclear⟩

theorem not_contract_of_joinedEvent {t : Tables} {item : Object} (h : JoinedEvent t item) : ¬Contract t item := by
  intro ⟨_, hsound, _⟩
  have ⟨hkind, _, hjoined, _⟩ := h
  have ⟨status, hstatus, hbars⟩ := hjoined.status hkind
  have ⟨other, hother, hmem⟩ := hsound.status hkind
  have hsame : Json.string status = Json.string other := hstatus.symm.trans hother
  injection hsame with hsame
  exact no_bar other hmem (hsame ▸ hbars.1)

/-- The validator never panics, and it accepts exactly the contract of an item unless the item is an event
with a joined status. -/
theorem pack_item_contract (t : Tables) (item : Object) :
    validatePackItem t item ≠ .error .panicked ∧
      ((validatePackItem t item = .ok () ↔ Contract t item) ↔ ¬JoinedEvent t item) := by
  refine ⟨avoids_validatePackItemIn _ t item, ?_⟩
  rw [validatePackItem_eq_ok]
  constructor
  · intro h hjoined
    exact not_contract_of_joinedEvent hjoined (h.mp (Or.inr hjoined))
  · intro hnot
    exact ⟨fun h => h.resolve_right hnot, Or.inl⟩

/-! ### An event with two statuses -/

def jsonText (s : String) : GoJson := .string s.toList

/-- A digest of the samples. -/
def sampleDigest : GoJson := .string (List.replicate 64 'a')

def sampleAttestation : Object :=
  [("decision_id".toList, sampleDigest), ("evidence_digest".toList, sampleDigest),
    ("clearance_digest".toList, sampleDigest), ("subject_sha256".toList, sampleDigest),
    ("schema_version".toList, .number (.ofInt 5)), ("ruleset_version".toList, .number (.ofInt 8)),
    ("ruleset_hash".toList, .string policyHash), ("action".toList, jsonText "publish_source"),
    ("effect".toList, jsonText "allow"), ("reasons".toList, .array [jsonText "explicitly_cleared"]),
    ("obligations".toList, .array [jsonText "attribution"]), ("capture_id".toList, sampleDigest),
    ("capture_schema_version".toList, .number (.ofInt 3)), ("acquisition_lane".toList, jsonText "web_http"),
    ("acquisition_evidence_sha256".toList, sampleDigest)]

/-- The fields that every item has, of an item with this id, kind, title, tags and facets. -/
def sampleCommon (id kind title : String) (tags : List GoJson) (facets : Object) : Object :=
  [("id".toList, jsonText id), ("kind".toList, jsonText kind), ("title".toList, jsonText title),
    ("tags".toList, .array tags), ("facets".toList, .object facets), ("source".toList, jsonText "opera"),
    ("provenance".toList, .object []), ("license".toList, jsonText "Law 8"),
    ("attribution".toList, jsonText "opera"), ("access_type".toList, jsonText "public_document"),
    ("legal_basis".toList, jsonText "Law 8"), ("gdpr_relevant".toList, .bool false),
    ("privacy_classification".toList, jsonText "no_personal_data"), ("privacy_revision".toList, sampleDigest),
    ("policy_decision_id".toList, sampleDigest), ("redistributable".toList, .bool true),
    ("confidence".toList, .number (.ofInt 1)), ("content_id".toList, sampleDigest),
    ("capture_id".toList, sampleDigest), ("capture_schema_version".toList, .number (.ofInt 3)),
    ("acquisition_lane".toList, jsonText "web_http"), ("acquisition_evidence_sha256".toList, sampleDigest),
    ("policy_attestation".toList, .object sampleAttestation),
    ("first_seen".toList, jsonText "2026-07-01T08:00:00Z"), ("last_seen".toList, jsonText "2026-07-12T08:00:00Z"),
    ("updated_at".toList, jsonText "2026-07-12T08:00:00Z")]

/-- An event without a venue. -/
def sampleEvent (status : String) : Object :=
  sampleCommon "event-1" "event" "Concert"
      [jsonText "event:concert", .string ("lifecycle:".toList ++ status.toList)]
      [("city".toList, jsonText "Cluj-Napoca"), ("county".toList, .null), ("category".toList, jsonText "concert"),
        ("venue_id".toList, .null), ("place_id".toList, .null), ("status".toList, jsonText status),
        ("lifecycle_status".toList, jsonText status)] ++
    [("category".toList, jsonText "concert"), ("status".toList, jsonText status),
      ("lifecycle_status".toList, jsonText status), ("cancelled".toList, .bool false),
      ("tombstone".toList, .bool false), ("is_tombstone".toList, .bool false),
      ("start_datetime".toList, jsonText "2026-08-01T19:00:00+03:00"),
      ("starts_at".toList, jsonText "2026-08-01T19:00:00+03:00"), ("end_datetime".toList, jsonText ""),
      ("ends_at".toList, jsonText ""), ("timezone".toList, jsonText "Europe/Bucharest"),
      ("currency".toList, jsonText "RON"), ("is_free".toList, .bool true), ("venue_id".toList, .null),
      ("place_id".toList, .null)]

/-- An event is accepted with the status `scheduled|rescheduled`, which is no status of the contract. -/
theorem joined_status_accepted :
    validatePackItem .ascii (sampleEvent "scheduled|rescheduled") = .ok () ∧
      ¬Contract .ascii (sampleEvent "scheduled|rescheduled") := by
  refine ⟨by decide +kernel, fun ⟨_, hsound, _⟩ => ?_⟩
  have ⟨status, hstatus, hmem⟩ := hsound.status rfl
  have hsame : Json.string "scheduled|rescheduled".toList = Json.string status := hstatus
  injection hsame with hsame
  exact absurd (hsame ▸ hmem) (by decide +kernel)

end SocialActivities.Roedu
