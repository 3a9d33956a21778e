import SocialActivities.Roedu.Contract

/-!
# `SocialActivities.Roedu.Accepted`: the validator accepts the contract
-/

namespace SocialActivities.Roedu

open Lib
open Snapshots (GoJson Text)

/-! ### Hosts -/

variable {ip : IP}

theorem contains_of_bits {first : IP} {short long : Nat} (hle : short ≤ long) (hlong : long ≤ 32)
    (h : Block.contains ⟨first, long⟩ ip = true) : Block.contains ⟨first, short⟩ ip = true := by
  have hshift : ∀ n : Nat, n / 2 ^ (32 - short) = n / 2 ^ (32 - long) / 2 ^ (long - short) := by
    intro n
    rw [Nat.div_div_eq_div_mul, ← Nat.pow_add]
    congr 2
    omega
  have hshift6 : ∀ n : Nat, n / 2 ^ (128 - short) = n / 2 ^ (128 - long) / 2 ^ (long - short) := by
    intro n
    rw [Nat.div_div_eq_div_mul, ← Nat.pow_add]
    congr 2
    omega
  cases first <;> cases ip <;> simp only [Block.contains, beq_iff_eq, Bool.false_eq_true] at h ⊢
  · rw [hshift, hshift, h]
  · rw [hshift6, hshift6, h]

theorem isMulticast_of_isLinkLocalMulticast (h : isLinkLocalMulticast ip = true) :
    isMulticast ip = true := by
  unfold isLinkLocalMulticast at h
  rcases Bool.or_eq_true_iff.mp h with h4 | h6
  · have hblock : (net4 224 0 0 0 4).contains ip = true := contains_of_bits (by decide) (by decide) h4
    simp [isMulticast, hblock]
  · cases ip with
    | v4 => cases h6
    | v6 n =>
      have hfirst : n.toNat / 2 ^ 120 = 0xFF := (by simpa using h6 : _ ∧ _).1
      have hblock : (net6 0xFF00 0 0 0 8).contains (.v6 n) = true := by
        show (_ / 2 ^ 120 == n.toNat / 2 ^ 120) = true
        rw [hfirst]
        decide
      simp [isMulticast, hblock]

theorem publicIP_iff :
    publicIP ip = true ↔ ∀ block ∈ reservedBlocks, block.contains ip = false := by
  have hreserved : (∀ block ∈ reservedBlocks, block.contains ip = false) ↔ isPrivate ip = false ∧
      (net4 127 0 0 0 8).contains ip = false ∧ isLinkLocalUnicast ip = false ∧ isMulticast ip = false ∧
      nonPublicNetworks.any (·.contains ip) = false := by
    simp only [reservedBlocks, isPrivate, isLinkLocalUnicast, isMulticast, List.forall_mem_append,
      List.forall_mem_cons, List.any_cons, List.any_nil, Bool.or_false, Bool.or_eq_false_iff,
      List.any_eq_false, Bool.not_eq_true]
    tauto
  rw [hreserved]
  constructor
  · intro h
    simp only [publicIP, isLoopback, Bool.and_eq_true, Bool.not_eq_true', Bool.or_eq_false_iff] at h
    have ⟨⟨⟨⟨⟨⟨⟨hprivate, hloop⟩, hlink⟩, _⟩, _⟩, hmulti⟩, _⟩, hnon⟩ := h
    exact ⟨hprivate, hloop.1, hlink, hmulti, hnon⟩
  · intro ⟨hprivate, hloop, hlink, hmulti, hnon⟩
    -- The addresses that `net` names apart lie in blocks of the list.
    have hother : ∀ {other : IP}, nonPublicNetworks.any (·.contains other) = true → ip ≠ other := by
      rintro other hin rfl
      rw [hnon] at hin
      cases hin
    have hloop6 : ip ≠ .v6 1#128 := hother (by decide)
    have hzero4 : ip ≠ .v4 0#32 := hother (by decide)
    have hzero6 : ip ≠ .v6 0#128 := hother (by decide)
    have hbroadcast : (net4 255 255 255 255 32).contains ip = false := by
      by_contra hne
      have hfull : (net4 255 255 255 255 32).contains ip = true := by simpa using hne
      have hin : (net4 255 255 255 255 4).contains ip = true := contains_of_bits (by decide) (by decide) hfull
      have hblock : (net4 240 0 0 0 4).contains ip = true := by
        cases ip with
        | v6 => cases hin
        | v4 => exact hin
      have hmem : net4 240 0 0 0 4 ∈ nonPublicNetworks := by simp [nonPublicNetworks]
      have hnot := List.any_eq_false.mp hnon _ hmem
      exact hnot hblock
    have hlocal : isLinkLocalMulticast ip = false := by
      by_contra hne
      rw [isMulticast_of_isLinkLocalMulticast (by simpa using hne)] at hmulti
      cases hmulti
    have hloopback : isLoopback ip = false := by simp [isLoopback, hloop, hloop6]
    have hunspecified : isUnspecified ip = false := by simp [isUnspecified, hzero4, hzero6]
    simp [publicIP, isGlobalUnicast, hprivate, hloopback, hlink, hlocal, hunspecified, hmulti, hbroadcast, hnon]

theorem publicHost_iff {host : Text} : publicHost host = true ↔ PublicHost host := by
  have hsuffix : privateSuffixes.any (·.isSuffixOf host) = false ↔
      ∀ suffix ∈ privateSuffixes, ¬ suffix <:+ host := by
    simp [List.any_eq_false]
  unfold publicHost
  split
  · next h =>
    constructor
    · intro hfalse
      cases hfalse
    · intro hpublic
      rw [hsuffix.mpr hpublic.suffix] at h
      cases h
  · next h =>
    have hnone := hsuffix.mp (by simpa using h)
    split
    · next ip hip =>
      rw [publicIP_iff]
      constructor
      · intro haddress
        refine ⟨hnone, fun ip' hip' => ?_, fun hno => ?_⟩
        · rw [hip] at hip'
          cases hip'
          exact haddress
        · rw [hip] at hno
          cases hno
      · intro hpublic
        exact hpublic.address ip hip
    · next hip =>
      have hname : (decide (2 ≤ (Feeds.splitOn '.' host).length) && decide ((utf8 host).length ≤ 253) &&
          (Feeds.splitOn '.' host).all dnsPattern && !(Feeds.splitOn '.' host).all numericLabel) = true ↔
          DnsName host := by
        simp only [Bool.and_eq_true, decide_eq_true_iff, List.all_eq_true, Bool.not_eq_true',
          List.all_eq_false, Bool.not_eq_true]
        exact ⟨fun ⟨⟨⟨h1, h2⟩, h3⟩, h4⟩ => ⟨h3, h1, h2, h4⟩, fun h => ⟨⟨⟨h.dotted, h.length_le⟩, h.labels⟩,
          h.notNumeric⟩⟩
      rw [hname]
      constructor
      · intro hdns
        refine ⟨hnone, fun ip' hip' => ?_, fun _ => hdns⟩
        rw [hip] at hip'
        cases hip'
      · intro hpublic
        exact hpublic.name hip

variable {t : Tables}

@[simp] theorem publicURL_iff {v : GoJson} : publicURL t v = true ↔ NamesPublicHost t v := by
  constructor
  · intro h
    cases v with
    | string s =>
      obtain ⟨hfront, hparsed⟩ := Bool.and_eq_true_iff.mp h
      obtain ⟨htext, hspace⟩ := Bool.and_eq_true_iff.mp hfront
      have hspace : ∀ c ∈ s, Safety.Go.isSpace c = false := by simpa using hspace
      split at hparsed
      · cases hparsed
      · next u hu =>
        simp only [Bool.and_eq_true, Bool.or_eq_true, Bool.not_eq_true', beq_iff_eq, bne_iff_ne, ne_eq,
          List.isEmpty_iff, List.isEmpty_eq_false_iff, option_any_iff, decide_eq_true_iff, publicHost_iff]
          at hparsed
        obtain ⟨⟨⟨⟨⟨⟨⟨huser, hscheme⟩, hfragment⟩, hnamed⟩, hdot⟩, hport⟩, hquery⟩, hhost⟩ := hparsed
        exact ⟨s, u, rfl, (text_string_iff.mp htext).1, hspace, hu,
          ⟨hscheme, huser, hfragment, hquery, hport, hnamed, hdot, hhost⟩⟩
    | _ => cases h
  · rintro ⟨s, u, rfl, htext, hspace, hu, hpublic⟩
    have hne : s ≠ [] := by
      rintro rfl
      have hnamed := hpublic.named
      cases hu
      exact hnamed rfl
    have hfront : (text (.string s) 500 false && !s.any Safety.Go.isSpace) = true := by
      rw [Bool.and_eq_true]
      exact ⟨text_string_iff.mpr ⟨htext, Or.inr hne⟩, by simpa using hspace⟩
    rw [publicURL, hfront, hu]
    simp only [Bool.true_and, Bool.and_eq_true, Bool.or_eq_true, Bool.not_eq_true', beq_iff_eq, bne_iff_ne,
      ne_eq, List.isEmpty_iff, List.isEmpty_eq_false_iff, option_any_iff, decide_eq_true_iff, publicHost_iff]
    exact ⟨⟨⟨⟨⟨⟨⟨hpublic.user, hpublic.scheme⟩, hpublic.fragment⟩, hpublic.named⟩, hpublic.undotted⟩,
      hpublic.port⟩, hpublic.query⟩, hpublic.host⟩

/-! ### Tags and prices -/

variable {tags : List GoJson}

theorem distinctTags_iff {seen : List Text} :
    distinctTags seen tags = true ↔ ∃ ts : List Text, tags = ts.map .string ∧ ts.Nodup ∧
      (∀ tag ∈ ts, tag ∉ seen) ∧ ∀ tag ∈ ts, IsText 128 tag ∧ tag ≠ [] := by
  induction tags generalizing seen with
  | nil =>
    constructor
    · intro _
      exact ⟨[], rfl, List.nodup_nil, by simp, by simp⟩
    · intro _
      rfl
  | cons v tags ih =>
    constructor
    · intro h
      cases v with
      | string tag =>
        simp only [distinctTags, Bool.and_eq_true, Bool.not_eq_true', List.contains_eq_mem,
          decide_eq_false_iff_not, text_string_iff, ih] at h
        have ⟨⟨⟨htext, hne⟩, hnew⟩, ts, htags, hnodup, hseen, htexts⟩ := h
        subst htags
        refine ⟨tag :: ts, rfl, List.nodup_cons.mpr ⟨fun hmem => ?_, hnodup⟩, ?_, ?_⟩
        · exact hseen tag hmem List.mem_cons_self
        · exact List.forall_mem_cons.mpr ⟨hnew, fun t ht hin => hseen t ht (List.mem_cons_of_mem _ hin)⟩
        · exact List.forall_mem_cons.mpr ⟨⟨htext, hne.resolve_left (by decide)⟩, htexts⟩
      | _ => cases h
    · rintro ⟨ts, hts, hnodup, hseen, htexts⟩
      cases ts with
      | nil => cases hts
      | cons tag ts =>
        have ⟨hv, htags⟩ := List.cons.inj hts
        have ⟨hnot, hnodup⟩ := List.nodup_cons.mp hnodup
        have ⟨hnew, hseen⟩ := List.forall_mem_cons.mp hseen
        have ⟨⟨htext, hne⟩, htexts⟩ := List.forall_mem_cons.mp htexts
        subst hv
        simp only [distinctTags, Bool.and_eq_true, Bool.not_eq_true', List.contains_eq_mem,
          decide_eq_false_iff_not, text_string_iff, ih]
        refine ⟨⟨⟨htext, Or.inr hne⟩, hnew⟩, ts, htags, hnodup, fun t ht hin => ?_, htexts⟩
        rcases List.mem_cons.mp hin with rfl | hin
        · exact hnot ht
        · exact hseen t ht hin

variable {item : Object} {key : Text}

theorem price_eq_ok {value : Option Binary64} :
    price item key = .ok value ↔ PriceOf item key value := by
  unfold price PriceOf
  split
  · next h =>
    rw [pure_eq_ok]
    simp [h, number, eq_comm]
  · next v hv =>
    simp only [given_bind, ensure_seq, pure_eq_ok, Bool.and_eq_true, decide_eq_true_iff, option_any_iff]
    constructor
    · rintro ⟨x, hx, ⟨hlow, most, hmost, hhigh⟩, rfl⟩
      exact Or.inr ⟨x, most, hx, hmost, hlow, hhigh, rfl⟩
    · rintro (⟨hnull, -⟩ | ⟨x, most, hx, hmost, hlow, hhigh, rfl⟩)
      · exact absurd hnull hv
      · exact ⟨x, hx, ⟨hlow, most, hmost, hhigh⟩, rfl⟩

theorem price_bind {f : Option Binary64 → Except Stop Unit} :
    (price item key >>= f) = .ok () ↔ ∃ value, PriceOf item key value ∧ f value = .ok () := by
  simp only [bind_eq_ok, price_eq_ok]

/-! ### What every item has -/

theorem IsHash.comparable {v : GoJson} (h : IsHash v) : comparable v = true := by
  have ⟨s, hs, _⟩ := h
  rw [hs]
  rfl

theorem OneOf.comparable {words : List Text} {v : GoJson} (h : OneOf words v) : comparable v = true := by
  have ⟨s, _, hs⟩ := h
  rw [hs]
  rfl

theorem one_reason_iff {reasons : List GoJson} {reason : Text} :
    (decide (reasons.length = 1) = true ∧ reasons.head?.any (isString reason) = true) ↔
      reasons = [.string reason] := by
  rcases reasons with _ | ⟨v, _ | ⟨w, reasons⟩⟩ <;> simp

theorem attestationFields_nodup : attestationFields.Nodup := by simp [attestationFields]

theorem validateAttestation_eq_ok {attestation : Object}
    (hhash : ∀ key ∈ itemHashes, IsHash (item.get key)) (hlane : OneOf lanes (item.get "acquisition_lane".toList)) :
    validateAttestation item attestation = .ok () ↔ Attested item attestation ∧
      attestation.get "effect".toList = .string "allow".toList ∧
      attestation.get "reasons".toList = .array [.string "explicitly_cleared".toList] := by
  have hkey : ∀ key ∈ itemHashes, comparable (item.get key) = true := fun key h => (hhash key h).comparable
  simp only [validateAttestation, ensure_seq, given_bind, ensure_eq_ok,
    agree_seq (hkey "content_id".toList (by decide)), agree_seq (hkey "policy_decision_id".toList (by decide)),
    agree_seq (hkey "capture_id".toList (by decide)),
    agree_seq (hkey "acquisition_evidence_sha256".toList (by decide)), agree_seq hlane.comparable,
    Bool.and_eq_true, exactKeys_iff attestationFields_nodup, equalsNumber_iff, isString_iff, any_isString_iff,
    one_reason_iff, asArray_eq_some, List.all_eq_true, isHash_iff]
  constructor
  · rintro ⟨hkeys, hdigests, ⟨⟨hschema, hruleset⟩, hpolicy⟩, h1, h2, ⟨h3, h4⟩, h5, h6, h7, ⟨haction, heffect⟩, -,
      reasons, hreasons, rfl, obligations, hobligations, hall⟩
    exact ⟨⟨hkeys, hdigests, hschema, hruleset, hpolicy, h1, h2, h3, h4, h5, h6, h7, haction, obligations,
      hobligations, hall⟩, heffect, hreasons⟩
  · rintro ⟨h, heffect, hreasons⟩
    obtain ⟨obligations, hobligations, hall⟩ := h.obligations
    exact ⟨h.keys, h.digests, ⟨⟨h.schema, h.ruleset⟩, h.policy⟩, h.content, h.decision,
      ⟨h.itemSchema, h.captureSchema⟩, h.capture, h.evidence, h.lane, ⟨h.action, heffect⟩, hlane, _, hreasons,
      rfl, obligations, hobligations, hall⟩

variable {access : PackAccess}

theorem accessType_iff {v : GoJson} :
    ((openAccess.any fun known => isString known v) ||
      (decide (access = .verifiedLocalPOCPackAccess) && isString "tdm_exception".toList v)) = true ↔
      OneOf (accessTypes access) v := by
  rw [Bool.or_eq_true, any_isString_iff, Bool.and_eq_true, decide_eq_true_iff, isString_iff]
  cases access with
  | publicPackAccess => simp [accessTypes]
  | verifiedLocalPOCPackAccess => simp [accessTypes, OneOf, names, or_and_right, exists_or]

theorem validateCommon_eq_ok :
    validateCommon item access = .ok () ↔
      ∃ attestation, Common access item attestation ∧ Cleared item attestation := by
  unfold validateCommon
  simp only [ensure_seq, given_bind, Bool.and_eq_true, accessType_iff, asString_eq_some, asObject_eq_some,
    asArray_eq_some, text_iff, stable_iff, isBool_iff, isString_iff, List.all_eq_true, isHash_iff, between_iff,
    List.isEmpty_iff, decide_eq_true_iff, distinctTags_iff, List.contains_eq_mem]
  constructor
  · rintro ⟨lane, hlane, hknown, ⟨⟨⟨⟨⟨⟨⟨hid, hsource⟩, hlicense⟩, hattribution⟩, hlegal⟩, hgdpr⟩, hredistributable⟩,
      hprivacy⟩, haccess, hhashes, confidence, hconfidence, hrange, provenance, hprovenance, hempty, tags, htags,
      ⟨ts, hts, hnodup, -, htexts⟩, first, hfirst, last, hlast, updated, hupdated, hordered, attestation, hdecided,
      hvalid⟩
    have hlanes : OneOf lanes (item.get "acquisition_lane".toList) := ⟨lane, hknown, hlane⟩
    obtain ⟨hattested, heffect, hreasons⟩ := (validateAttestation_eq_ok hhashes hlanes).mp hvalid
    exact ⟨attestation, ⟨hlanes, hid, hsource, hlicense, hattribution, hlegal, hredistributable, haccess, hhashes,
      ⟨confidence, hconfidence, hrange⟩, hempty ▸ hprovenance, ⟨ts, hts ▸ htags, hnodup, htexts⟩,
      ⟨first, last, updated, hfirst, hlast, hupdated, hordered⟩, hdecided, hattested⟩,
      ⟨hgdpr, hprivacy, heffect, hreasons⟩⟩
  · rintro ⟨attestation, h, hclear⟩
    obtain ⟨lane, hknown, hlane⟩ := h.lane
    obtain ⟨confidence, hconfidence, hrange⟩ := h.confidence
    obtain ⟨ts, hts, hnodup, htexts⟩ := h.tags
    obtain ⟨first, last, updated, hfirst, hlast, hupdated, hordered⟩ := h.times
    have hvalid := (validateAttestation_eq_ok h.hashes h.lane).mpr ⟨h.attested, hclear.effect, hclear.reasons⟩
    exact ⟨lane, hlane, hknown, ⟨⟨⟨⟨⟨⟨⟨h.id, h.source⟩, h.license⟩, h.attribution⟩, h.legalBasis⟩, hclear.gdpr⟩,
      h.redistributable⟩, hclear.privacy⟩, h.accessType, h.hashes, confidence, hconfidence, hrange, [],
      h.provenance, rfl, _, hts, ⟨ts, rfl, hnodup, by simp, htexts⟩, first, hfirst, last, hlast, updated, hupdated,
      hordered, attestation, h.decided, hvalid⟩

/-! ### Venues -/

theorem venueFields_nodup : venueFields.Nodup := by simp [venueFields, commonFields]

theorem venueFacets_nodup : venueFacets.Nodup := by simp [venueFacets]

theorem addressFields_nodup : addressFields.Nodup := by simp [addressFields]

theorem one_tag_iff {v : Text} :
    (decide (tags.length = 1) && tags.head?.any (isString v)) = true ↔ tags = [.string v] := by
  rw [Bool.and_eq_true, one_reason_iff]

variable {facets : Object} {category : Text}

theorem validateVenue_eq_ok :
    validateVenue t item facets category = .ok () ↔ VenueItem t item facets category := by
  unfold validateVenue
  simp only [ensure_seq, given_bind, asserted_bind, ensure_eq_ok, asObject_eq_some,
    asArray_eq_some, one_tag_iff]
  simp only [Bool.and_eq_true, exactKeys_iff venueFields_nodup, exactKeys_iff venueFacets_nodup,
    exactKeys_iff addressFields_nodup, text_iff, text_empty_iff, location_iff, publicURL_iff, isString_iff,
    List.all_eq_true, capitals_sprint]
  constructor
  · rintro ⟨⟨⟨⟨⟨⟨hkeys, htitle⟩, hlocation⟩, hwebsite⟩, hfacets⟩, hcategories⟩, address, haddress,
      ⟨⟨⟨⟨⟨⟨hfields, hstreet⟩, hcity⟩, hcounty⟩, hcountry⟩, hsameCity⟩, hsameCounty⟩, tags, htags, rfl⟩
    exact ⟨hkeys, htitle, hlocation, hwebsite, hfacets, hcategories,
      ⟨address, haddress, hfields, hstreet, hcity, hcounty, hcountry, hsameCity, hsameCounty⟩, htags⟩
  · intro h
    obtain ⟨address, haddress, hfields, hstreet, hcity, hcounty, hcountry, hsameCity, hsameCounty⟩ := h.address
    exact ⟨⟨⟨⟨⟨⟨h.keys, h.title⟩, h.location⟩, h.website⟩, h.facetKeys⟩, h.categories⟩, address, haddress,
      ⟨⟨⟨⟨⟨⟨hfields, hstreet⟩, hcity⟩, hcounty⟩, hcountry⟩, hsameCity⟩, hsameCounty⟩, _, h.tags, rfl⟩

/-! ### Events and tombstones -/

theorem LineOrEmpty.comparable {n : Nat} {v : GoJson} (h : LineOrEmpty n v) : comparable v = true := by
  have ⟨s, hs, _⟩ := h
  rw [hs]
  rfl

theorem comparable_venue {v : GoJson} (h : v = .null ∨ Stable v) : comparable v = true := by
  rcases h with rfl | ⟨s, rfl, _⟩ <;> rfl

theorem comparable_of_aware {v : GoJson} {n : Int} (h : aware v = some n) : comparable v = true := by
  cases v with
  | string => rfl
  | _ => cases h

theorem get_of_has {o : Object} (h : o.has key = false) : o.get key = .null := by
  have hnone : o.get? key = none := by simpa [Object.has] using h
  rw [Object.get_eq, hnone]
  rfl

theorem lifecycleFacets_nodup : lifecycleFacets.Nodup := by simp [lifecycleFacets]

theorem two_tags_iff {v w : Text} :
    (decide (tags.length = 2) && tags.head?.any (isString v) && tags[1]?.any (isString w)) = true ↔
      tags = [.string v, .string w] := by
  rcases tags with _ | ⟨a, _ | ⟨b, _ | ⟨c, tags⟩⟩⟩ <;> simp

theorem validatePlace_eq_ok (hpresent : item.has "venue_id".toList = item.has "place_id".toList)
    (hvenue : item.get "venue_id".toList = .null ∨ Stable (item.get "venue_id".toList)) :
    validatePlace item = .ok () ↔ item.get "place_id".toList = item.get "venue_id".toList := by
  unfold validatePlace
  cases hhas : item.has "venue_id".toList with
  | true => exact agree_iff (comparable_venue hvenue)
  | false =>
    rw [get_of_has hhas, get_of_has (hpresent ▸ hhas)]
    exact ⟨fun _ => rfl, fun _ => rfl⟩

variable {status : Text}

theorem validateLifecycle_eq_ok {category status : Text}
    (hstatus : item.get "status".toList = .string status) :
    validateLifecycle item facets category status = .ok () ↔ Lifecycle item facets category status := by
  unfold validateLifecycle
  simp only [seq_eq_ok, ensure_eq_ok, asserted_bind, asArray_eq_some, two_tags_iff]
  simp only [Bool.and_eq_true, Bool.or_eq_true, beq_iff_eq, exactKeys_iff lifecycleFacets_nodup, isString_iff,
    isNil_iff, stable_iff]
  constructor
  · rintro ⟨⟨⟨⟨⟨hkeys, hcategory⟩, hfacet⟩, hlifecycle⟩, hitem⟩, hpresent, hvenue, hplace, hfacetVenue, hfacetPlace,
      tags, htags, rfl⟩
    exact ⟨hkeys, hcategory, hstatus, hfacet, hlifecycle, hitem, hpresent, hvenue,
      (validatePlace_eq_ok hpresent hvenue).mp hplace, eq_of_agree hfacetVenue, eq_of_agree hfacetPlace, htags⟩
  · intro h
    have hvenue := comparable_venue h.venue
    exact ⟨⟨⟨⟨⟨h.facetKeys, h.facetCategory⟩, h.facetStatus⟩, h.facetLifecycle⟩, h.lifecycle⟩, h.present, h.venue,
      (validatePlace_eq_ok h.present h.venue).mpr h.place, (agree_iff hvenue).mpr h.facetVenue,
      (agree_iff hvenue).mpr h.facetPlace, _, h.tags, rfl⟩

theorem validateFinish_eq_ok {start : Int} :
    validateFinish item start = .ok () ↔ item.get "end_datetime".toList = .string [] ∨
      ∃ finish, aware (item.get "end_datetime".toList) = some finish ∧ start ≤ finish := by
  unfold validateFinish
  split
  · next h => exact ⟨fun _ => Or.inl (isString_iff.mp h), fun _ => rfl⟩
  · next h =>
    rw [given_bind]
    simp only [ensure_eq_ok, decide_eq_true_iff]
    exact ⟨Or.inr, fun hfinish => hfinish.resolve_left fun hempty => h (isString_iff.mpr hempty)⟩

/-- The test of the source: the status stands between bars in the list. -/
def Listed (status : Text) : Prop := contains ('|' :: (status ++ ['|'])) knownStatuses = true

variable {α : Type}

theorem all_iff_forall_mem {o : Option α} {p : α → Bool} :
    o.all p = true ↔ ∀ a ∈ o, p a = true := by
  cases o <;> simp

theorem validateEvent_eq_ok :
    validateEvent t item status = .ok () ↔ EventItem Listed t item status := by
  unfold validateEvent
  simp only [given_bind, seq_eq_ok, validateFinish_eq_ok, price_bind, ensure_eq_ok,
    asString_eq_some]
  simp only [Bool.and_eq_true, text_iff, text_empty_iff, isBool_iff, beq_iff_eq, capitals_sprint,
    Option.isSome_iff_exists, asBool_eq_some, all_iff_forall_mem, decide_eq_true_iff, location_iff,
    publicURL_iff, any_isString_iff]
  constructor
  · rintro ⟨⟨⟨⟨⟨htitle, hlisted⟩, hcancelled⟩, htombstone⟩, hisTombstone⟩, hend, start, hstart, hstartsAt, hendsAt,
      hfinish, zone, hzone, ⟨htrim, hload⟩, hcurrency, hfree, least, hleast, most, hmost, hordered, hrecurrence,
      hlocation, hticket, havailability⟩
    exact ⟨hlisted, htitle, hcancelled, htombstone, hisTombstone, hend, eq_of_agree hstartsAt, eq_of_agree hendsAt,
      ⟨start, hstart, hfinish⟩, ⟨zone, hzone, htrim, hload⟩, hcurrency, hfree, ⟨least, most, hleast, hmost, hordered⟩,
      hrecurrence, hlocation, hticket, havailability⟩
  · intro h
    obtain ⟨start, hstart, hfinish⟩ := h.times
    obtain ⟨zone, hzone, htrim, hload⟩ := h.timezone
    obtain ⟨least, most, hleast, hmost, hordered⟩ := h.prices
    exact ⟨⟨⟨⟨⟨h.title, h.known⟩, h.cancelled⟩, h.tombstone⟩, h.isTombstone⟩, h.finish, start, hstart,
      (agree_iff (comparable_of_aware hstart)).mpr h.startsAt, (agree_iff h.finish.comparable).mpr h.endsAt, hfinish,
      zone, hzone, ⟨htrim, hload⟩, h.currency, h.isFree, least, hleast, most, hmost, hordered, h.recurrence,
      h.location, h.ticketUrl, h.availability⟩

theorem validateTombstone_eq_ok :
    validateTombstone item status = .ok () ↔ TombstoneItem item status := by
  unfold validateTombstone
  simp only [ensure_eq_ok, Bool.and_eq_true, isString_iff, isBool_iff, beq_iff_eq]
  constructor
  · rintro ⟨⟨⟨⟨h1, h2⟩, h3⟩, h4⟩, h5⟩
    exact ⟨h1, h2, h3, h4, h5⟩
  · intro h
    exact ⟨⟨⟨⟨h.title, h.removed⟩, h.cancelled⟩, h.tombstone⟩, h.isTombstone⟩

/-! ### Items -/

theorem stringValue_iff {o : Object} {s : Text} (hs : s ≠ []) :
    stringValue o key = s ↔ o.get key = .string s := by
  unfold stringValue
  cases o.get key <;> simp [asString, hs.symm]

theorem fields_iff {event : Bool} :
    ((requiredFields event).all item.has && item.all fun field => (allowedFields event).contains field.1) = true ↔
      Fields event item := by
  simp only [Bool.and_eq_true, List.all_eq_true, List.contains_eq_mem, decide_eq_true_iff]
  exact ⟨fun ⟨h1, h2⟩ => ⟨h1, h2⟩, fun h => ⟨h.required, h.allowed⟩⟩

theorem optionalText_iff {v : GoJson} {n : Nat} : optionalText v n = true ↔ v = .null ∨ Line n v := by
  unfold optionalText
  rw [Bool.or_eq_true, isNil_iff, text_iff]

theorem validatePackItemIn_eq_ok :
    validatePackItemIn access t item = .ok () ↔
      ∃ attestation, Sound Listed access t item attestation ∧ Cleared item attestation := by
  have hvenue : "venue".toList ≠ [] := by decide
  have hevent : "event".toList ≠ [] := by decide
  have htombstone : "event_tombstone".toList ≠ [] := by decide
  unfold validatePackItemIn
  simp only [seq_eq_ok, validateCommon_eq_ok, given_bind, ensure_eq_ok, asString_eq_some, asObject_eq_some,
    Bool.and_eq_true, optionalText_iff]
  constructor
  · rintro ⟨⟨attestation, hcommon, hclear⟩, category, hcategory, hpattern, facets, hfacets, ⟨hcity, hcounty⟩, hkind⟩
    refine ⟨attestation, ⟨hcommon, category, facets, hcategory, hpattern, hfacets, hcity, hcounty, ?_⟩, hclear⟩
    split at hkind
    · next h => exact .venue ((stringValue_iff hvenue).mp h) (validateVenue_eq_ok.mp hkind)
    · simp only [seq_eq_ok, ensure_eq_ok, given_bind, asString_eq_some, fields_iff, Bool.or_eq_true,
        beq_iff_eq] at hkind
      obtain ⟨hnamed, hfields, status, hstatus, hlifecycle, hrest⟩ := hkind
      have hlifecycle := (validateLifecycle_eq_ok hstatus).mp hlifecycle
      -- An item that is no event is a tombstone.
      split at hrest
      · next h =>
        rw [h] at hfields
        exact .event ((stringValue_iff hevent).mp (by simpa using h)) hfields status hlifecycle
          (validateEvent_eq_ok.mp hrest)
      · next h =>
        have hfalse : (stringValue item "kind".toList == "event".toList) = false := by simpa using h
        rw [hfalse] at hfields
        have hkind := hnamed.resolve_left (by simpa using hfalse)
        exact .tombstone ((stringValue_iff htombstone).mp hkind) hfields status hlifecycle
          (validateTombstone_eq_ok.mp hrest)
  · rintro ⟨attestation, ⟨hcommon, category, facets, hcategory, hpattern, hfacets, hcity, hcounty, hkinded⟩, hclear⟩
    refine ⟨⟨attestation, hcommon, hclear⟩, category, hcategory, hpattern, facets, hfacets, ⟨hcity, hcounty⟩, ?_⟩
    cases hkinded with
    | venue hkind h =>
      rw [if_pos ((stringValue_iff hvenue).mpr hkind)]
      exact validateVenue_eq_ok.mpr h
    | event hkind hfields status hlifecycle h =>
      have hkind := (stringValue_iff hevent).mpr hkind
      rw [hkind, if_neg (by decide)]
      simp only [seq_eq_ok, ensure_eq_ok, given_bind, asString_eq_some]
      exact ⟨by decide, fields_iff.mpr hfields, status, hlifecycle.itemStatus,
        (validateLifecycle_eq_ok hlifecycle.itemStatus).mpr hlifecycle, validateEvent_eq_ok.mpr h⟩
    | tombstone hkind hfields status hlifecycle h =>
      have hkind := (stringValue_iff htombstone).mpr hkind
      rw [hkind, if_neg (by decide)]
      simp only [seq_eq_ok, ensure_eq_ok, given_bind, asString_eq_some]
      exact ⟨by decide, fields_iff.mpr hfields, status, hlifecycle.itemStatus,
        (validateLifecycle_eq_ok hlifecycle.itemStatus).mpr hlifecycle, validateTombstone_eq_ok.mpr h⟩

/-! ### No panic -/

theorem avoids_ensure_seq {condition : Bool} {f : Unit → Except Stop α}
    (h : condition = true → Avoids .panicked (f ())) : Avoids .panicked (ensure condition >>= f) :=
  avoids_bind (avoids_ensure condition) fun _ hok => h (ensure_eq_ok.mp hok)

theorem avoids_given_bind {β : Type} {value : Option α} {f : α → Except Stop β}
    (h : ∀ a, value = some a → Avoids .panicked (f a)) : Avoids .panicked (given value >>= f) :=
  avoids_bind (avoids_given value) fun a hok => h a (given_eq_ok.mp hok)

theorem avoids_agree_seq {a b : GoJson} {f : Unit → Except Stop α} (hb : comparable b = true)
    (h : a = b → Avoids .panicked (f ())) : Avoids .panicked (agree a b >>= f) :=
  avoids_bind (avoids_agree a hb) fun _ hok => h (eq_of_agree hok)

theorem avoids_validateAttestation {attestation : Object} (hhash : ∀ key ∈ itemHashes, IsHash (item.get key))
    (hlane : OneOf lanes (item.get "acquisition_lane".toList)) :
    Avoids .panicked (validateAttestation item attestation) := by
  unfold validateAttestation
  refine avoids_ensure_seq fun _ => avoids_ensure_seq fun _ => avoids_ensure_seq fun _ => ?_
  refine avoids_agree_seq (hhash "content_id".toList (by decide)).comparable fun _ => ?_
  refine avoids_agree_seq (hhash "policy_decision_id".toList (by decide)).comparable fun _ => ?_
  refine avoids_ensure_seq fun _ => ?_
  refine avoids_agree_seq (hhash "capture_id".toList (by decide)).comparable fun _ => ?_
  refine avoids_agree_seq (hhash "acquisition_evidence_sha256".toList (by decide)).comparable fun _ => ?_
  refine avoids_agree_seq hlane.comparable fun _ => ?_
  refine avoids_ensure_seq fun _ => avoids_ensure_seq fun _ => avoids_given_bind fun _ _ => ?_
  exact avoids_ensure_seq fun _ => avoids_given_bind fun _ _ => avoids_ensure _

theorem avoids_validateCommon (item : Object) (access : PackAccess) :
    Avoids .panicked (validateCommon item access) := by
  unfold validateCommon
  refine avoids_given_bind fun lane hlane => avoids_ensure_seq fun hknown => ?_
  refine avoids_ensure_seq fun _ => avoids_ensure_seq fun _ => avoids_ensure_seq fun hhashes => ?_
  refine avoids_given_bind fun _ _ => avoids_ensure_seq fun _ => avoids_given_bind fun _ _ => ?_
  refine avoids_ensure_seq fun _ => avoids_given_bind fun _ _ => avoids_ensure_seq fun _ => ?_
  refine avoids_given_bind fun _ _ => avoids_given_bind fun _ _ => avoids_given_bind fun _ _ => ?_
  refine avoids_ensure_seq fun _ => avoids_given_bind fun _ _ => avoids_validateAttestation ?_ ?_
  · intro key hkey
    exact isHash_iff.mp (List.all_eq_true.mp hhashes key hkey)
  · exact ⟨lane, by simpa using hknown, asString_eq_some.mp hlane⟩

theorem avoids_asserted_bind {β : Type} {value : Option α} {a : α} {f : α → Except Stop β}
    (hvalue : value = some a) (h : Avoids .panicked (f a)) : Avoids .panicked (asserted value >>= f) := by
  rw [hvalue]
  exact h

theorem avoids_validateVenue {tags : List GoJson}
    (htags : item.get "tags".toList = .array tags) : Avoids .panicked (validateVenue t item facets category) := by
  unfold validateVenue
  refine avoids_ensure_seq fun _ => avoids_given_bind fun _ _ => avoids_ensure_seq fun _ => ?_
  exact avoids_asserted_bind (asArray_eq_some.mpr htags) (avoids_ensure _)

theorem avoids_validateLifecycle {tags : List GoJson}
    (htags : item.get "tags".toList = .array tags) :
    Avoids .panicked (validateLifecycle item facets category status) := by
  unfold validateLifecycle
  refine avoids_ensure_seq fun _ => avoids_ensure_seq fun _ => avoids_ensure_seq fun hnamed => ?_
  -- The id of the venue is nil or text, which can be compared with everything.
  have hvenue : comparable (item.get "venue_id".toList) = true := by
    simp only [Bool.or_eq_true, isNil_iff, stable_iff] at hnamed
    exact comparable_venue hnamed
  have hplace : Avoids .panicked (validatePlace item) := by
    unfold validatePlace
    split
    · exact avoids_agree _ hvenue
    · exact avoids_ok _ ()
  refine avoids_bind hplace fun _ _ => avoids_agree_seq hvenue fun _ => avoids_agree_seq hvenue fun _ => ?_
  exact avoids_asserted_bind (asArray_eq_some.mpr htags) (avoids_ensure _)

theorem avoids_price (item : Object) (key : Text) : Avoids .panicked (price item key) := by
  unfold price
  split
  · exact avoids_ok _ none
  · exact avoids_given_bind fun x _ => avoids_ensure_seq fun _ => avoids_ok _ (some x)

theorem avoids_validateEvent (t : Tables) (item : Object) (status : Text) :
    Avoids .panicked (validateEvent t item status) := by
  unfold validateEvent
  refine avoids_ensure_seq fun _ => avoids_ensure_seq fun hend => avoids_given_bind fun start hstart => ?_
  refine avoids_agree_seq (comparable_of_aware hstart) fun _ => ?_
  refine avoids_agree_seq (text_empty_iff.mp hend).comparable fun _ => ?_
  have hfinish : Avoids .panicked (validateFinish item start) := by
    unfold validateFinish
    split
    · exact avoids_ok _ ()
    · exact avoids_given_bind fun _ _ => avoids_ensure _
  refine avoids_bind hfinish fun _ _ => avoids_given_bind fun _ _ => avoids_ensure_seq fun _ => ?_
  refine avoids_ensure_seq fun _ => avoids_ensure_seq fun _ => ?_
  refine avoids_bind (avoids_price item _) fun _ _ => avoids_bind (avoids_price item _) fun _ _ => ?_
  exact avoids_ensure_seq fun _ => avoids_ensure_seq fun _ => avoids_ensure_seq fun _ => avoids_ensure_seq fun _ =>
    avoids_ensure _

theorem avoids_validatePackItemIn (access : PackAccess) (t : Tables) (item : Object) :
    Avoids .panicked (validatePackItemIn access t item) := by
  unfold validatePackItemIn
  refine avoids_bind (avoids_validateCommon item access) fun _ hcommon => ?_
  have ⟨_, hcommon, _⟩ := validateCommon_eq_ok.mp hcommon
  have ⟨_, htags, _⟩ := hcommon.tags
  refine avoids_given_bind fun _ _ => avoids_ensure_seq fun _ => avoids_given_bind fun _ _ => ?_
  refine avoids_ensure_seq fun _ => ?_
  split
  · exact avoids_validateVenue htags
  · refine avoids_ensure_seq fun _ => avoids_ensure_seq fun _ => avoids_given_bind fun status _ => ?_
    refine avoids_bind (avoids_validateLifecycle htags) fun _ _ => ?_
    split
    · exact avoids_validateEvent t item status
    · exact avoids_ensure _

end SocialActivities.Roedu
