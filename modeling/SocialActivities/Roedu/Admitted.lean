import SocialActivities.Roedu.Waived

/-!
# `SocialActivities.Roedu.Admitted`: what a page item is like

The validator of a page accepts an item that is clear to publish, or a denied one with an admission
(`Admitted`). It looks at a copy of a denied item, which differs from the item under the keys of the
clearance alone (`Alike`), so that the rest of the contract holds of the item itself (`sound_of_alike`).
`validatePageItem_cases` says all of it for a page with and without a mark.
-/

namespace SocialActivities.Roedu

open Lib
open Snapshots (GoJson Text)

/-! ### Objects that differ under some keys -/

/-- The objects have the same keys, and under all but the changed ones the same values. -/
structure Alike (changed : List Text) (a b : Object) : Prop where
  keys : (a.map Prod.fst).Perm (b.map Prod.fst)
  get? : ∀ key, key ∉ changed → a.get? key = b.get? key

variable {changed : List Text} {a b : Object} {key : Text}

theorem Alike.get (h : Alike changed a b) (hkey : key ∉ changed) :
    a.get key = b.get key := by
  rw [Object.get_eq, Object.get_eq, h.get? key hkey]

theorem Alike.has (h : Alike changed a b) (key : Text) :
    a.has key = b.has key := by
  rw [Bool.eq_iff_iff, Object.has_iff, Object.has_iff, h.keys.mem_iff]

theorem Alike.keyed {fields : List Text} (h : Alike changed a b) (ha : Keyed a fields) :
    Keyed b fields := h.keys.symm.trans ha

theorem Alike.trans {c : Object} (h : Alike changed a b) (h' : Alike changed b c) :
    Alike changed a c :=
  ⟨h.keys.trans h'.keys, fun key hkey => (h.get? key hkey).trans (h'.get? key hkey)⟩

theorem perm_keys_set {o : Object} (hnodup : (o.map Prod.fst).Nodup) (hkey : o.has key = true)
    (v : GoJson) : ((o.set key v).map Prod.fst).Perm (o.map Prod.fst) := by
  have hmem := Object.has_iff.mp hkey
  have herase : (o.map Prod.fst).erase key = (o.erase key).map Prod.fst := by
    rw [keys_erase, hnodup.erase_eq_filter]
  have hperm := (List.perm_cons_erase hmem).symm
  rw [herase] at hperm
  exact hperm

theorem alike_set {o : Object} (hnodup : (o.map Prod.fst).Nodup)
    (hkey : o.has key = true) (v : GoJson) (hchanged : key ∈ changed) : Alike changed (o.set key v) o :=
  ⟨perm_keys_set hnodup hkey v, fun _ hother => Object.get?_set v fun heq => hother (heq ▸ hchanged)⟩

/-! ### The contract of objects that are alike -/

/-- What the copy of a denied item changes in the item. -/
def clearanceKeys : List Text := names ["gdpr_relevant", "privacy_classification", "policy_attestation"]

/-- What it changes in the attestation. -/
def verdictKeys : List Text := names ["effect", "reasons"]

section

variable {a b x y : Object} (h : Alike clearanceKeys a b)

include h

theorem Attested.alike (hxy : Alike verdictKeys x y) (ha : Attested a x) : Attested b y := by
  have ⟨h1, h2, h3, h4, h5, h6, h7, h8, h9, h10, h11, h12, h13, h14⟩ := ha
  have hdigests : ∀ key ∈ attestationHashes, key ∉ verdictKeys := by
    simp [attestationHashes, verdictKeys, forall_names, -String.reduceToList]
  simp (disch := simp [clearanceKeys, verdictKeys, -String.reduceToList]) only [hxy.get, h.get] at h3 h4 h5 h6 h7 h8 h9 h10 h11 h12 h13 h14
  exact ⟨hxy.keyed h1, fun key hkey => hxy.get (hdigests key hkey) ▸ h2 key hkey, h3, h4, h5, h6, h7, h8, h9, h10,
    h11, h12, h13, h14⟩

theorem Common.alike {access : PackAccess} (hxy : Alike verdictKeys x y)
    (hy : b.get "policy_attestation".toList = .object y) (ha : Common access a x) : Common access b y := by
  have ⟨h1, h2, h3, h4, h5, h6, h7, h8, h9, h10, h11, h12, h13, _, h14⟩ := ha
  have hhashes : ∀ key ∈ itemHashes, key ∉ clearanceKeys := by
    simp [itemHashes, clearanceKeys, forall_names, -String.reduceToList]
  simp (disch := simp [clearanceKeys, -String.reduceToList]) only [h.get] at h1 h2 h3 h4 h5 h6 h7 h8 h10 h11 h12 h13
  exact ⟨h1, h2, h3, h4, h5, h6, h7, h8, fun key hkey => h.get (hhashes key hkey) ▸ h9 key hkey, h10, h11, h12, h13,
    hy, h14.alike h hxy⟩

variable {t : Tables} {facets : Object} {category : Text}

theorem VenueItem.alike (ha : VenueItem t a facets category) :
    VenueItem t b facets category := by
  have ⟨h1, h2, h3, h4, h5, h6, h7, h8⟩ := ha
  simp (disch := simp [clearanceKeys, -String.reduceToList]) only [h.get] at h2 h3 h4 h7 h8
  exact ⟨h.keyed h1, h2, h3, h4, h5, h6, h7, h8⟩

variable {status : Text}

theorem Lifecycle.alike (ha : Lifecycle a facets category status) :
    Lifecycle b facets category status := by
  have ⟨h1, h2, h3, h4, h5, h6, h7, h8, h9, h10, h11, h12⟩ := ha
  simp (disch := simp [clearanceKeys, -String.reduceToList]) only [h.get, h.has] at h3 h6 h7 h8 h9 h10 h11 h12
  exact ⟨h1, h2, h3, h4, h5, h6, h7, h8, h9, h10, h11, h12⟩

variable {Status : Text → Prop}

theorem EventItem.alike (ha : EventItem Status t a status) :
    EventItem Status t b status := by
  have ⟨h1, h2, h3, h4, h5, h6, h7, h8, h9, h10, h11, h12, ⟨least, most, hleast, hmost, hle⟩, h14, h15, h16, h17⟩ := ha
  unfold PriceOf at hleast hmost
  simp (disch := simp [clearanceKeys, -String.reduceToList]) only [h.get, h.get?] at h2 h3 h4 h5 h6 h7 h8 h9 h10 h11 h12 hleast hmost h14 h15 h16 h17
  exact ⟨h1, h2, h3, h4, h5, h6, h7, h8, h9, h10, h11, h12, ⟨least, most, hleast, hmost, hle⟩, h14, h15, h16, h17⟩

theorem TombstoneItem.alike (ha : TombstoneItem a status) : TombstoneItem b status := by
  have ⟨h1, h2, h3, h4, h5⟩ := ha
  simp (disch := simp [clearanceKeys, -String.reduceToList]) only [h.get] at h1 h3 h4 h5
  exact ⟨h1, h2, h3, h4, h5⟩

theorem Fields.alike {event : Bool} (ha : Fields event a) : Fields event b := by
  refine ⟨fun key hkey => (h.has key).symm.trans (ha.required key hkey), fun field hfield => ?_⟩
  have hmem := h.keys.mem_iff.mpr (List.mem_map_of_mem hfield)
  have ⟨other, hother, heq⟩ := List.mem_map.mp hmem
  exact heq ▸ ha.allowed other hother

theorem Kinded.alike {category : Text}
    (ha : Kinded Status t a facets category) : Kinded Status t b facets category := by
  have hkind : a.get "kind".toList = b.get "kind".toList := h.get (by simp [clearanceKeys, -String.reduceToList])
  cases ha with
  | venue kind venue => exact .venue (hkind ▸ kind) (venue.alike h)
  | event kind fields status lifecycle event =>
    exact .event (hkind ▸ kind) (fields.alike h) status (lifecycle.alike h) (event.alike h)
  | tombstone kind fields status lifecycle tombstone =>
    exact .tombstone (hkind ▸ kind) (fields.alike h) status (lifecycle.alike h) (tombstone.alike h)

theorem Sound.alike {access : PackAccess} (hxy : Alike verdictKeys x y)
    (hy : b.get "policy_attestation".toList = .object y) (ha : Sound Status access t a x) :
    Sound Status access t b y := by
  have ⟨category, facets, h1, h2, h3, h4, h5, hkinded⟩ := ha.kinded
  simp (disch := simp [clearanceKeys, -String.reduceToList]) only [h.get] at h1 h3
  exact ⟨ha.common.alike h hxy hy, category, facets, h1, h2, h3, h4, h5, hkinded.alike h⟩

end

/-! ### Denied items -/

/-- A denied item with an admission that waives its denial. It keeps the rest of the contract, except that
the label of its access may be the one of a private copy. -/
structure Admitted (t : Tables) (item attestation admission : Object) : Prop where
  carried : item.get? "local_poc_admission".toList = some (.object admission)
  waiver : Waiver admission attestation
  gdpr : ∃ b, item.get "gdpr_relevant".toList = .bool b
  privacy : ∃ label, item.get "privacy_classification".toList = .string label ∧ privacyClassPattern label = true
  decision : item.get "policy_decision_id".toList = admission.get "underlying_decision_id".toList
  sound : Sound Listed .verifiedLocalPOCPackAccess t (item.erase "local_poc_admission".toList) attestation

variable {o : Object} {v : GoJson} {key : Text}

theorem has_of_get (h : o.get key = v) (hv : v ≠ .null) : o.has key = true := by
  cases hhas : o.has key with
  | true => rfl
  | false => exact absurd (h.symm.trans (get_of_has hhas)) hv

theorem get?_of_get (h : o.get key = v) (hv : v ≠ .null) :
    o.get? key = some v := by
  rw [Object.get_eq] at h
  cases hget : o.get? key with
  | none => exact absurd (by rw [← h, hget]; rfl) hv
  | some => rw [← h, hget, Option.getD_some]

variable {item : Object}

/-- The copy of a denied item differs from the item without its admission in the clearance alone. -/
theorem alike_clearedShape {attestation : Object} (hnodup : (item.map Prod.fst).Nodup) {b : Bool} {label : Text}
    (hgdpr : item.get "gdpr_relevant".toList = .bool b)
    (hprivacy : item.get "privacy_classification".toList = .string label)
    (hattestation : item.get "policy_attestation".toList = .object attestation) :
    Alike clearanceKeys (clearedShape item attestation) (item.erase "local_poc_admission".toList) := by
  have hget : ∀ key ∈ clearanceKeys,
      (item.erase "local_poc_admission".toList).get? key = item.get? key := by
    have hne : ∀ key ∈ clearanceKeys, key ≠ "local_poc_admission".toList := by
      simp [clearanceKeys, forall_names]
    exact fun key hkey => Object.get?_erase (hne key hkey)
  have hrest : ((item.erase "local_poc_admission".toList).map Prod.fst).Nodup := by
    rw [keys_erase]
    exact hnodup.filter _
  have hhas : ∀ key ∈ clearanceKeys, (item.erase "local_poc_admission".toList).has key = true := by
    have hitem : ∀ key ∈ clearanceKeys, item.has key = true := by
      intro key hkey
      simp only [clearanceKeys, names, List.map_cons, List.map_nil, List.mem_cons, List.not_mem_nil, or_false] at hkey
      rcases hkey with rfl | rfl | rfl
      · exact has_of_get hgdpr (by simp)
      · exact has_of_get hprivacy (by simp)
      · exact has_of_get hattestation (by simp)
    intro key hkey
    show ((item.erase "local_poc_admission".toList).get? key).isSome = true
    rw [hget key hkey]
    exact hitem key hkey
  -- The three fields are set one after the other.
  have hset : ∀ (o : Object) (key : Text) (v : GoJson), (o.map Prod.fst).Nodup →
      (∀ key ∈ clearanceKeys, o.has key = true) → key ∈ clearanceKeys →
        Alike clearanceKeys (o.set key v) o := fun o key v ho hall hkey => alike_set ho (hall key hkey) v hkey
  have hfirst := hset _ "gdpr_relevant".toList (.bool false) hrest hhas (by simp [clearanceKeys, -String.reduceToList])
  have hhas1 := fun key hkey => (hfirst.has key).trans (hhas key hkey)
  have hsecond := hset _ "privacy_classification".toList (.string "no_personal_data".toList)
    (hfirst.keys.nodup_iff.mpr hrest) hhas1 (by simp [clearanceKeys, -String.reduceToList])
  have hboth := hsecond.trans hfirst
  have hthird := hset _ "policy_attestation".toList
    (.object ((attestation.set "effect".toList (.string "allow".toList)).set "reasons".toList
      (.array [.string "explicitly_cleared".toList])))
    (hboth.keys.nodup_iff.mpr hrest) (fun key hkey => (hboth.has key).trans (hhas key hkey))
    (by simp [clearanceKeys, -String.reduceToList])
  exact hthird.trans hboth

/-- An object with distinct keys, whose objects have distinct keys. -/
abbrev Object.Distinct (o : Object) : Prop := (Json.object o).Distinct

theorem Object.Distinct.get (h : o.Distinct) (hv : o.get? key = some v) :
    v.Distinct := Json.distinctFields_iff.mp h.2 _ (Object.get?_eq_some hv)

variable {t : Tables}

theorem admitted_of_valid (hdistinct : item.Distinct)
    (h : validateLocalPOCPackItem t item = .ok ()) (hhas : item.has "local_poc_admission".toList = true) :
    ∃ attestation admission, item.get "policy_attestation".toList = .object attestation ∧
      Admitted t item attestation admission := by
  obtain ⟨raw, hraw⟩ := Option.isSome_iff_exists.mp hhas
  unfold validateLocalPOCPackItem at h
  rw [hraw] at h
  simp only [given_bind, seq_eq_ok, ensure_eq_ok, asObject_eq_some, asString_eq_some] at h
  obtain ⟨admission, hadmission, attestation, hattestation, hverified, hgdpr, label, hlabel, hpattern, _, hdecision,
    hvalid⟩ := h
  obtain ⟨b, hgdpr⟩ := Option.isSome_iff_exists.mp hgdpr
  have hgdpr := asBool_eq_some.mp hgdpr
  have hwaiver := waiver_of_verified hverified
  obtain ⟨other, hsound, _⟩ := validatePackItemIn_eq_ok.mp hvalid
  have halike := alike_clearedShape hdistinct.1 hgdpr hlabel hattestation
  have hattested := hdistinct.get (get?_of_get hattestation (by simp))
  -- The attestation of the copy is the item's with another verdict.
  have hother : other = (attestation.set "effect".toList (.string "allow".toList)).set "reasons".toList
      (.array [.string "explicitly_cleared".toList]) := by
    have hdecided := hsound.common.decided
    rw [clearedShape, Object.get_eq, Object.get?_set_self, Option.getD_some] at hdecided
    injection hdecided with hdecided
    exact hdecided.symm
  have hverdict : Alike verdictKeys other attestation := by
    obtain ⟨_, denied, _, hreasons, _⟩ := hwaiver.reasons
    have hfirst : Alike verdictKeys (attestation.set "effect".toList (.string "allow".toList)) attestation :=
      alike_set hattested.1 (has_of_get hwaiver.effect (by simp)) _ (by simp [verdictKeys, -String.reduceToList])
    rw [hother]
    refine (alike_set (hfirst.keys.nodup_iff.mpr hattested.1) ?_ _ (by simp [verdictKeys, -String.reduceToList])).trans hfirst
    rw [hfirst.has]
    exact has_of_get hreasons (by simp)
  have herased : (item.erase "local_poc_admission".toList).get "policy_attestation".toList = .object attestation := by
    rw [Object.get_eq, Object.get?_erase (by simp), ← Object.get_eq, hattestation]
  refine ⟨attestation, admission, hattestation, ?_⟩
  exact {
    carried := hraw.trans (congrArg some hadmission)
    waiver := hwaiver
    gdpr := ⟨b, hgdpr⟩
    privacy := ⟨label, hlabel, hpattern⟩
    decision := (eq_of_agree hdecision).symm
    sound := hsound.alike halike hverdict herased }

/-- What an accepted item is like: clear to publish, or denied, admitted, and on a page with a mark. -/
theorem validatePageItem_cases {localPOC : Bool} (hdistinct : item.Distinct)
    (h : validatePageItem t item localPOC = .ok ()) :
    (∃ attestation, Sound Listed .publicPackAccess t item attestation ∧ Cleared item attestation) ∨
      localPOC = true ∧ ∃ attestation admission, item.get "policy_attestation".toList = .object attestation ∧
        Admitted t item attestation admission := by
  cases localPOC with
  | false => exact Or.inl (validatePackItemIn_eq_ok.mp h)
  | true =>
    cases hhas : item.has "local_poc_admission".toList with
    | true => exact Or.inr ⟨rfl, admitted_of_valid hdistinct h hhas⟩
    | false =>
      have hnone : item.get? "local_poc_admission".toList = none := by simpa [Object.has] using hhas
      have h : validateLocalPOCPackItem t item = .ok () := h
      rw [validateLocalPOCPackItem, hnone] at h
      exact Or.inl (validatePackItemIn_eq_ok.mp h)

/-! ### What the client reads of an accepted item -/

/-- The fields of an item that the client reads without a check. -/
structure Readable (item : Object) : Prop where
  id : ∃ id : Text, item.get "id".toList = .string id
  facets : ∃ facets : Object, item.get "facets".toList = .object facets
  venue : item.get "kind".toList = .string "event".toList → item.get "venue_id".toList = .null ∨
    ∃ id : Text, item.get "venue_id".toList = .string id

theorem Sound.readable {Status : Text → Prop} {access : PackAccess} {attestation : Object}
    (h : Sound Status access t item attestation) : Readable item := by
  have ⟨category, facets, _, _, hfacets, _, _, hkinded⟩ := h.kinded
  have ⟨id, hid, _⟩ := h.common.id
  refine ⟨⟨id, hid⟩, ⟨facets, hfacets⟩, fun hkind => ?_⟩
  cases hkinded with
  | venue kind => exact absurd (hkind.symm.trans kind) (by simp)
  | event _ _ _ lifecycle => exact lifecycle.venue.imp_right fun ⟨s, hs, _⟩ => ⟨s, hs⟩
  | tombstone kind => exact absurd (hkind.symm.trans kind) (by simp)

theorem readable_of_valid {localPOC : Bool} (hdistinct : item.Distinct)
    (h : validatePageItem t item localPOC = .ok ()) : Readable item := by
  rcases validatePageItem_cases hdistinct h with ⟨_, hsound, _⟩ | ⟨_, _, _, _, hadmitted⟩
  · exact hsound.readable
  · have hread := hadmitted.sound.readable
    have hget : ∀ key, key ≠ "local_poc_admission".toList →
        (item.erase "local_poc_admission".toList).get key = item.get key := by
      intro key hkey
      rw [Object.get_eq, Object.get?_erase hkey, ← Object.get_eq]
    have ⟨hid, hfacets, hvenue⟩ := hread
    simp (disch := simp [String.toList_inj, -String.reduceToList]) only [hget] at hid hfacets hvenue
    exact ⟨hid, hfacets, hvenue⟩

theorem avoids_verifyLocalPOCAdmission (admission attestation : Object) :
    Avoids .panicked (verifyLocalPOCAdmission admission attestation) := by
  unfold verifyLocalPOCAdmission
  refine avoids_ensure_seq fun _ => avoids_ensure_seq fun _ => avoids_given_bind fun _ _ => ?_
  refine avoids_given_bind fun _ _ => avoids_ensure_seq fun _ => avoids_given_bind fun _ _ => ?_
  refine avoids_ensure_seq fun _ => avoids_given_bind fun _ _ => avoids_ensure_seq fun _ => ?_
  refine avoids_given_bind fun _ _ => avoids_ensure_seq fun _ => avoids_given_bind fun _ _ => ?_
  exact avoids_ensure _

theorem avoids_agree_string (s : Text) (v : GoJson) : Avoids .panicked (agree (.string s) v) := by
  have hsame : Avoids .panicked (same (.string s) v) := by cases v <;> exact avoids_ok _ _
  exact avoids_bind hsame fun equal _ => avoids_ensure equal

theorem avoids_validateLocalPOCPackItem (t : Tables) (item : Object) :
    Avoids .panicked (validateLocalPOCPackItem t item) := by
  unfold validateLocalPOCPackItem
  split
  · exact avoids_validatePackItemIn _ t item
  · refine avoids_given_bind fun admission _ => avoids_given_bind fun attestation _ => ?_
    refine avoids_bind (avoids_verifyLocalPOCAdmission admission attestation) fun _ hverified => ?_
    -- Both ids of the decision are text, because the admission is verified.
    have ⟨decision, _, hnamed, hown⟩ := (waiver_of_verified hverified).decision
    rw [hnamed, hown]
    refine avoids_ensure_seq fun _ => avoids_given_bind fun _ _ => avoids_ensure_seq fun _ => ?_
    refine avoids_bind (avoids_agree_string decision _) fun _ _ => ?_
    exact avoids_bind (avoids_agree_string decision _) fun _ _ => avoids_validatePackItemIn _ t _

theorem avoids_validatePageItem (t : Tables) (item : Object) (localPOC : Bool) :
    Avoids .panicked (validatePageItem t item localPOC) := by
  cases localPOC with
  | false => exact avoids_validatePackItemIn _ t item
  | true => exact avoids_validateLocalPOCPackItem t item

end SocialActivities.Roedu
