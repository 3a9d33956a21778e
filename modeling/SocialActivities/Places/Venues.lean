import SocialActivities.Places.GoIngest

/-!
# `SocialActivities.Places.Venues`: one place, one RO-EDU venue

A place must never stand for two RO-EDU venues, and it must go on standing for the venue that has
claimed it, also through the place that it is merged into. The first half holds in every run
(`exclusive_run`): each write that adds a venue looks at the venues of the row under its lock. The
second half does not, since two writes drop entries of `merged_sources`:

* an update of a place by its own source replaces all its tags;
* a merge records the duplicate's own external id, but not the entries of the duplicate.

`keepsClaim_iff` says for every step when no claim is dropped, and `kept_after` what follows for a run: the
heir of a place carries the same venue and no other.
-/

namespace SocialActivities.Places

open Lib
open Lib.Machine (run steps)

variable {env : IngestEnv} {s t : Catalog}

/-! ### The venues of the rows that are written -/

/-- The venue of a raw place of RO-EDU. -/
def RawPlace.venues (raw : RawPlace) : Finset String :=
  if raw.source = .roedu ∧ raw.externalId ≠ "" then {raw.externalId} else ∅

@[simp] theorem mem_rawVenues {raw : RawPlace} {v : String} :
    v ∈ raw.venues ↔ raw.source = .roedu ∧ v = raw.externalId ∧ v ≠ "" := by
  unfold RawPlace.venues
  split
  · rename_i h
    simp only [Finset.mem_singleton, h.1, true_and]
    constructor
    · rintro rfl
      exact ⟨rfl, h.2⟩
    · intro hv
      exact hv.1
  · rename_i h
    simp only [Finset.notMem_empty, false_iff]
    rintro ⟨hsource, rfl, hne⟩
    exact h ⟨hsource, hne⟩

theorem venues_row (raw : RawPlace) : (raw.row env).roeduVenues = raw.venues := by
  ext v
  have hclaims : v ∉ (raw.row env).claims := by
    rw [mem_claims]
    show ¬(_ ∈ MergedSources.entries (raw.mergedSourcesTag.elim .missing .text) ∧ _)
    cases raw.mergedSourcesTag <;> simp [MergedSources.entries]
  rw [mem_roeduVenues, mem_ownVenues, mem_rawVenues, or_iff_left hclaims]
  exact Iff.rfl

theorem venues_mergeInto (raw : RawPlace) (p : Place) :
    (raw.mergeInto env p).roeduVenues = p.roeduVenues ∪ raw.venues := by
  ext v
  have hclaims : v ∈ (raw.mergeInto env p).claims ↔ v ∈ p.claims ∨ v ∈ raw.venues := by
    show v ∈ ({ p with mergedSources := p.mergedSources.append _ } : Place).claims ↔ _
    rw [mem_claims_append, mem_rawVenues, MergedEntry.object.injEq, and_assoc]
    simp only [eq_comm]
  rw [Finset.mem_union, mem_roeduVenues, mem_roeduVenues, hclaims, or_assoc]
  exact Iff.rfl

theorem venues_claim (item : VenueItem) (p : Place) :
    (item.claim p).roeduVenues = p.roeduVenues ∪ {item.id} := by
  ext v
  have hclaims : v ∈ (item.claim p).claims ↔ v ∈ p.claims ∨ v = item.id := by
    by_cases hentry : item.entry ∈ p.mergedSources.entries
    · have hsame : (item.claim p).claims = p.claims := by
        show Place.claims { p with mergedSources := if _ then _ else _ } = _
        rw [if_pos hentry]
      have hid : item.id ∈ p.claims := mem_claims.mpr ⟨hentry, item.hasId⟩
      rw [hsame]
      exact ⟨Or.inl, fun h => h.elim id fun heq => heq ▸ hid⟩
    · have hmore : (item.claim p).claims =
          Place.claims { p with mergedSources := p.mergedSources.append item.entry } := by
        show Place.claims { p with mergedSources := if _ then _ else _ } = _
        rw [if_neg hentry]
      rw [hmore, mem_claims_append]
      show _ ∨ MergedEntry.object .roedu item.id = _ ∧ _ ↔ _
      rw [MergedEntry.object.injEq]
      constructor
      · rintro (h | ⟨⟨-, rfl⟩, -⟩)
        · exact Or.inl h
        · exact Or.inr rfl
      · rintro (h | rfl)
        · exact Or.inl h
        · exact Or.inr ⟨⟨rfl, rfl⟩, item.hasId⟩
  rw [Finset.mem_union, Finset.mem_singleton, mem_roeduVenues, mem_roeduVenues, hclaims, or_assoc]
  exact Iff.rfl

@[simp] theorem venues_refresh (item : VenueItem) (p : Place) :
    (item.refresh p).roeduVenues = p.roeduVenues := rfl

theorem venues_itemRow (item : VenueItem) : item.row.roeduVenues = {item.id} := by
  ext v
  have hclaims : v ∉ item.row.claims := by
    rw [mem_claims]
    simp [VenueItem.row, MergedSources.entries]
  rw [mem_roeduVenues, mem_ownVenues, or_iff_left hclaims, Finset.mem_singleton]
  constructor
  · intro h
    exact h.2.1
  · rintro rfl
    exact ⟨rfl, rfl, item.hasId⟩

theorem venues_foldPlace (duplicate p : Place) :
    (foldPlace duplicate p).roeduVenues = p.roeduVenues ∪ duplicate.ownVenues := by
  ext v
  have hclaims : v ∈ (foldPlace duplicate p).claims ↔ v ∈ p.claims ∨ v ∈ duplicate.ownVenues := by
    show v ∈ ({ p with mergedSources := p.mergedSources.append _ } : Place).claims ↔ _
    rw [mem_claims_append, mem_ownVenues, MergedEntry.object.injEq, and_assoc]
    simp only [eq_comm]
  rw [Finset.mem_union, mem_roeduVenues, mem_roeduVenues, hclaims, or_assoc]
  exact Iff.rfl

/-! ### What one step does to the venues -/

theorem venues_write (found own : Option Nat) (merge refresh : Place → Place) (row : Place)
    (j : Nat) :
    (s.write found own merge refresh row).1.venues j =
      if j = (s.write found own merge refresh row).2 then
        (s.written found own merge refresh row).elim ∅ Place.roeduVenues
      else s.venues j := by
  show ((s.write found own merge refresh row).1.places.get? j).elim ∅ Place.roeduVenues = _
  rw [get?_write]
  split <;> rfl

theorem get?_of_head? {p : Nat → Place → Bool} {id : Nat}
    (h : (s.places.keysWhere p).head? = some id) :
    ∃ row, s.places.get? id = some row ∧ p id row = true :=
  KeyMap.mem_keysWhere.mp (List.mem_of_head? h)

theorem free_of_findRoeduDuplicate {external : String} {candidates : List Nat} {id : Nat}
    (h : findRoeduDuplicate s external candidates = some id) :
    ∃ p, s.places.get? id = some p ∧ p.roeduVenues ⊆ {external} :=
  isFree_iff.mp (List.find?_some h)

/-- The venues of one place have become `venues`, and those of the others are what they were. -/
def Sets (s t : Catalog) (id : Nat) (venues : Finset String) : Prop :=
  ∀ j, t.venues j = if j = id then venues else s.venues j

/-- What a write does to the venues: it changes the place that it finds, its own row, or adds one. -/
theorem write_cases {found own : Option Nat} {merge refresh : Place → Place} {row : Place}
    (h : t.places = (s.write found own merge refresh row).1.places) :
    (∃ id, found = some id ∧
      Sets s t id (((s.places.get? id).map merge).elim ∅ Place.roeduVenues)) ∨
    (∃ id, found = none ∧ own = some id ∧
      Sets s t id (((s.places.get? id).map refresh).elim ∅ Place.roeduVenues)) ∨
    (found = none ∧ own = none ∧ Sets s t s.nextId row.roeduVenues) := by
  have hwrite : ∀ j, t.venues j = if j = (s.write found own merge refresh row).2 then _
      else s.venues j :=
    fun j => (Catalog.venues_congr (by rw [h])).trans (venues_write ..)
  cases found with
  | some id => exact Or.inl ⟨id, rfl, hwrite⟩
  | none =>
    cases own with
    | some id => exact Or.inr (Or.inl ⟨id, rfl, rfl, hwrite⟩)
    | none => exact Or.inr (Or.inr ⟨rfl, rfl, hwrite⟩)

/-- What an ingest that commits does to the venues: the place it is merged into gains the venue of
the raw place, and its own row, refreshed or new, has that venue only. -/
theorem ingest_cases {raw : RawPlace} {matched : List PlaceMatch} {dedup : Bool} {nearby : List Nat}
    (h : upsertPlace env raw matched dedup nearby s = .ok t) :
    (∃ id, raw.duplicate dedup nearby s = some id ∧
      Sets s t id ((s.places.get? id).elim ∅ fun p => p.roeduVenues ∪ raw.venues)) ∨
    (∃ id, raw.duplicate dedup nearby s = none ∧ raw.ownRow s = some id ∧ Sets s t id raw.venues) ∨
    (raw.duplicate dedup nearby s = none ∧ raw.ownRow s = none ∧ Sets s t s.nextId raw.venues) := by
  obtain ⟨-, hedges⟩ := seq_eq_ok.mp h
  rcases write_cases (places_upsertEdges hedges) with ⟨id, hfound, hsets⟩ |
    ⟨id, hfound, hown, hsets⟩ | ⟨hfound, hown, hsets⟩
  · refine Or.inl ⟨id, hfound, ?_⟩
    cases hrow : s.places.get? id <;> rw [hrow] at hsets
    · exact hsets
    · simpa only [Option.map_some, Option.elim_some, venues_mergeInto] using hsets
  · obtain ⟨p, hp, -⟩ := get?_of_head? hown
    rw [hp, Option.map_some, Option.elim_some, venues_row] at hsets
    exact Or.inr (Or.inl ⟨id, hfound, hown, hsets⟩)
  · rw [venues_row] at hsets
    exact Or.inr (Or.inr ⟨hfound, hown, hsets⟩)

/-- What a venue item that commits does to the venues: the free place that it claims, or its new
row, has that venue and no other; its own row keeps what it has. -/
theorem venue_cases {item : VenueItem} {nearby : List Nat}
    (h : syncVenue env item nearby s = .ok t) :
    (∃ id p, findRoeduDuplicate s item.id nearby = some id ∧ s.places.get? id = some p ∧
      p.roeduVenues ⊆ {item.id} ∧ Sets s t id {item.id}) ∨
    (∃ id, findRoeduDuplicate s item.id nearby = none ∧ item.ownRow s = some id ∧
      Sets s t id (s.venues id)) ∨
    (findRoeduDuplicate s item.id nearby = none ∧ item.ownRow s = none ∧
      Sets s t s.nextId {item.id}) := by
  rcases write_cases (places_upsertEdges h) with ⟨id, hfound, hsets⟩ |
    ⟨id, hfound, hown, hsets⟩ | ⟨hfound, hown, hsets⟩
  · obtain ⟨p, hp, hfree⟩ := free_of_findRoeduDuplicate hfound
    rw [hp, Option.map_some, Option.elim_some, venues_claim, Finset.union_eq_right.mpr hfree] at hsets
    exact Or.inl ⟨id, p, hfound, hp, hfree, hsets⟩
  · obtain ⟨p, hp, -⟩ := get?_of_head? hown
    rw [hp, Option.map_some, Option.elim_some, venues_refresh, ← Catalog.venues_of_get? hp] at hsets
    exact Or.inr (Or.inl ⟨id, hfound, hown, hsets⟩)
  · rw [venues_itemRow] at hsets
    exact Or.inr (Or.inr ⟨hfound, hown, hsets⟩)

/-- What a merge keeps of the duplicate's venues. -/
def Place.passedOn (duplicate : Place) (aggregate : Bool) : Finset String :=
  if aggregate then ∅ else duplicate.ownVenues

/-- Both places are there, nothing points to the duplicate, and the two stand for one venue at
most. -/
structure Merges (s : Catalog) (pair : MergePair) (blocked : Bool) (canonical duplicate : Place) :
    Prop where
  canonicalRow : s.places.get? pair.canonical = some canonical
  duplicateRow : s.places.get? pair.duplicate = some duplicate
  unblocked : blocked = false
  one : (canonical.roeduVenues ∪ duplicate.roeduVenues).card ≤ 1

theorem Merges.commits {pair : MergePair} {blocked : Bool} {canonical duplicate : Place}
    (h : Merges s pair blocked canonical duplicate) (aggregate : Bool) :
    mergePlaces pair aggregate blocked s = .ok (foldDuplicate pair aggregate duplicate s) := by
  have hgoes : (blocked || decide (1 < (canonical.roeduVenues ∪ duplicate.roeduVenues).card)) =
      false := by
    simp [h.unblocked, h.one]
  refine bind_eq_ok.mpr ⟨canonical, elim_eq_ok.mpr h.canonicalRow, ?_⟩
  refine bind_eq_ok.mpr ⟨duplicate, elim_eq_ok.mpr h.duplicateRow, ?_⟩
  rw [hgoes]
  rfl

theorem merges_or_same {pair : MergePair} {aggregate blocked : Bool}
    (h : mergePlaces pair aggregate blocked s = .ok t) :
    (t = s ∧ ∀ canonical duplicate, ¬Merges s pair blocked canonical duplicate) ∨
    ∃ canonical duplicate, Merges s pair blocked canonical duplicate ∧
      t = foldDuplicate pair aggregate duplicate s := by
  obtain ⟨canonical, hcanonical, h⟩ := bind_eq_ok.mp h
  obtain ⟨duplicate, hduplicate, h⟩ := bind_eq_ok.mp h
  rw [elim_eq_ok] at hcanonical hduplicate
  split at h
  · rename_i hrefused
    refine Or.inl ⟨(pure_eq_ok.mp h).symm, fun c d hm => ?_⟩
    have hc := hm.canonicalRow.symm.trans hcanonical
    have hd := hm.duplicateRow.symm.trans hduplicate
    have hone := hm.one
    cases hc
    cases hd
    simp only [hm.unblocked, Bool.false_or, decide_eq_true_eq] at hrefused
    omega
  · rename_i hmerges
    simp only [Bool.or_eq_true, decide_eq_true_eq, not_or, Bool.not_eq_true, Nat.not_lt] at hmerges
    exact Or.inr ⟨canonical, duplicate, ⟨hcanonical, hduplicate, hmerges.1, hmerges.2⟩,
      (pure_eq_ok.mp h).symm⟩

/-- After the writes of a merge the duplicate is gone, and the canonical place has gained what is
passed on. -/
theorem venues_foldDuplicate {pair : MergePair} {blocked : Bool} {canonical duplicate : Place}
    (h : Merges s pair blocked canonical duplicate) (aggregate : Bool) (j : Nat) :
    (foldDuplicate pair aggregate duplicate s).venues j =
      if j = pair.duplicate then ∅
      else if j = pair.canonical then canonical.roeduVenues ∪ duplicate.passedOn aggregate
      else s.venues j := by
  -- The loop over the edges does not touch the places.
  have hfolded : ∀ k, ((s.edgesOf pair.duplicate).foldl (mergeEdge pair aggregate) s).places.get? k
      = s.places.get? k := fun k => by rw [places_mergeEdges]
  show (Catalog.removePlace _ _).venues j = _
  rw [Catalog.venues_removePlace]
  by_cases hj : j = pair.duplicate
  · rw [if_pos hj, if_pos hj]
  rw [if_neg hj, if_neg hj]
  cases aggregate with
  | true =>
    rw [if_pos rfl, Catalog.venues_congr (hfolded j)]
    by_cases hk : j = pair.canonical
    · rw [if_pos hk, hk, Catalog.venues_of_get? h.canonicalRow]
      simp [Place.passedOn]
    · rw [if_neg hk]
  | false =>
    rw [if_neg Bool.false_ne_true]
    by_cases hk : j = pair.canonical
    · rw [if_pos hk, hk, Catalog.venues_modifyPlace_self ((hfolded _).trans h.canonicalRow),
        venues_foldPlace]
      simp [Place.passedOn]
    · rw [if_neg hk, Catalog.venues_modifyPlace_ne hk, Catalog.venues_congr (hfolded j)]

theorem get?_foldDuplicate_duplicate (pair : MergePair) (aggregate : Bool) (duplicate : Place) :
    (foldDuplicate pair aggregate duplicate s).places.get? pair.duplicate = none := by
  show (Catalog.removePlace _ _).places.get? _ = _
  rw [Catalog.get?_removePlace, if_pos rfl]

theorem catalogStep_eq_or (env : IngestEnv) (s : Catalog) (a : CatalogAction) :
    catalogStep env s a = s ∨ a.apply env s = .ok (catalogStep env s a) := by
  unfold catalogStep
  cases a.apply env s with
  | error => exact Or.inl rfl
  | ok => exact Or.inr rfl

theorem catalogStep_of_ok {a : CatalogAction} (h : a.apply env s = .ok t) :
    catalogStep env s a = t := by
  unfold catalogStep
  rw [h]
  rfl

/-! ### No place stands for two venues -/

/-- A place stands for one venue at most. -/
def Exclusive (s : Catalog) : Prop := ∀ id, (s.venues id).card ≤ 1

theorem Sets.exclusive {id : Nat} {venues : Finset String} (h : Sets s t id venues)
    (hs : Exclusive s) (hvenues : venues.card ≤ 1) : Exclusive t := by
  intro j
  rw [h j]
  split
  · exact hvenues
  · exact hs j

theorem card_rawVenues (raw : RawPlace) : raw.venues.card ≤ 1 := by
  unfold RawPlace.venues
  split <;> simp

theorem card_mergeInto {raw : RawPlace} {dedup : Bool} {nearby : List Nat} (hs : Exclusive s)
    {id : Nat} {p : Place} (hfound : raw.duplicate dedup nearby s = some id)
    (hp : s.places.get? id = some p) : (p.roeduVenues ∪ raw.venues).card ≤ 1 := by
  unfold RawPlace.duplicate at hfound
  split at hfound
  · split at hfound
    · -- The place is free for the venue of the raw place.
      obtain ⟨q, hq, hfree⟩ := free_of_findRoeduDuplicate hfound
      rw [hp] at hq
      cases hq
      have hsub : p.roeduVenues ∪ raw.venues ⊆ {raw.externalId} := by
        apply Finset.union_subset hfree
        intro v hv
        exact Finset.mem_singleton.mpr (mem_rawVenues.mp hv).2.1
      exact (Finset.card_le_card hsub).trans (Finset.card_singleton _).le
    · rename_i hsource
      have hnone : raw.venues = ∅ := if_neg fun h => hsource h.1
      rw [hnone, Finset.union_empty, ← Catalog.venues_of_get? hp]
      exact hs id
  · cases hfound

theorem exclusive_step (a : CatalogAction) (hs : Exclusive s) : Exclusive (catalogStep env s a) := by
  rcases catalogStep_eq_or env s a with hsame | hok
  · rw [hsame]
    exact hs
  cases a with
  | ingest raw =>
    rcases ingest_cases hok with ⟨id, hfound, hsets⟩ | ⟨id, -, -, hsets⟩ | ⟨-, -, hsets⟩
    · apply hsets.exclusive hs
      cases hp : s.places.get? id with
      | none => exact Nat.zero_le _
      | some => exact card_mergeInto hs hfound hp
    · exact hsets.exclusive hs (card_rawVenues raw)
    · exact hsets.exclusive hs (card_rawVenues raw)
  | venue =>
    rcases venue_cases hok with ⟨id, p, -, -, -, hsets⟩ | ⟨id, -, -, hsets⟩ | ⟨-, -, hsets⟩
    · exact hsets.exclusive hs (Finset.card_singleton _).le
    · exact hsets.exclusive hs (hs id)
    · exact hsets.exclusive hs (Finset.card_singleton _).le
  | merge pair aggregate =>
    rcases merges_or_same hok with ⟨hsame, -⟩ | ⟨canonical, duplicate, hmerges, hfold⟩
    · rw [hsame]
      exact hs
    intro j
    rw [hfold, venues_foldDuplicate hmerges]
    have hpassed : duplicate.passedOn aggregate ⊆ duplicate.roeduVenues := by
      cases aggregate with
      | true => exact Finset.empty_subset _
      | false => exact Finset.subset_union_left
    split
    · exact Nat.zero_le _
    · split
      · exact (Finset.card_le_card (Finset.union_subset_union_right hpassed)).trans hmerges.one
      · exact hs j

theorem exclusive_run (as : List CatalogAction) (hs : Exclusive s) :
    Exclusive (run (catalogStep env) s as) :=
  Machine.run_invariant (fun _ a h => exclusive_step a h) hs as

/-! ### When a place goes on standing for its venue -/

/-- No place loses a venue: what it stands for, its heir stands for. -/
def KeepsClaim (env : IngestEnv) (s : Catalog) (a : CatalogAction) : Prop :=
  ∀ id, s.venues id ⊆ (catalogStep env s a).venues (heir env s a id)

/-- The writes that drop no claim. Neither an update by the place's own source may reach a place
that a venue has claimed, nor a merge take one as the duplicate whose claims the canonical place
does not have. -/
def DropsNoClaim (env : IngestEnv) (s : Catalog) : CatalogAction → Prop
  | .ingest raw matched dedup nearby =>
    raw.source ≠ .roedu → raw.hasIdentity = true → env.Knows matched →
      (raw.searches dedup = true → nearby = []) →
      ∀ id, raw.ownRow s = some id → s.venues id = ∅
  | .venue _ _ => True
  | .merge pair aggregate blocked =>
    ∀ canonical duplicate, Merges s pair blocked canonical duplicate →
      duplicate.roeduVenues ⊆ canonical.roeduVenues ∪ duplicate.passedOn aggregate

theorem venues_ownRow {raw : RawPlace} {id : Nat} (hs : Exclusive s) (hsource : raw.source = .roedu)
    (hidentity : raw.hasIdentity = true) (hown : raw.ownRow s = some id) :
    s.venues id = raw.venues := by
  obtain ⟨p, hp, hrow⟩ := get?_of_head? hown
  have hext : raw.externalId ≠ "" := by simpa [RawPlace.hasIdentity, hsource] using hidentity
  have hvenue : raw.externalId ∈ s.venues id := by
    simp only [RawPlace.isRow, hsource, reduceCtorEq, if_false, Bool.and_eq_true, beq_iff_eq] at hrow
    refine Catalog.mem_venues.mpr ⟨p, hp, mem_roeduVenues.mpr (Or.inl ?_)⟩
    exact mem_ownVenues.mpr ⟨hrow.1, hrow.2.symm, hext⟩
  have hraw : raw.venues = {raw.externalId} := if_pos ⟨hsource, hext⟩
  rw [hraw]
  refine Finset.eq_singleton_iff_unique_mem.mpr ⟨hvenue, fun v hv => ?_⟩
  exact Finset.card_le_one.mp (hs id) v hv _ hvenue

theorem duplicate_eq_none {raw : RawPlace} (hsource : raw.source ≠ .roedu) (dedup : Bool)
    (nearby : List Nat) :
    raw.duplicate dedup nearby s = none ↔ (raw.searches dedup = true → nearby = []) := by
  unfold RawPlace.duplicate
  rw [if_neg hsource]
  by_cases hsearches : raw.searches dedup = true
  · rw [if_pos hsearches, List.head?_eq_none_iff]
    simp [hsearches]
  · simp [hsearches]

theorem ownRow_commits {raw : RawPlace} {matched : List PlaceMatch} {dedup : Bool}
    {nearby : List Nat} {id : Nat} (hfound : raw.duplicate dedup nearby s = none)
    (hown : raw.ownRow s = some id) :
    (∃ t, upsertPlace env raw matched dedup nearby s = .ok t) ↔
      raw.hasIdentity = true ∧ env.Knows matched := by
  obtain ⟨p, hp, -⟩ := get?_of_head? hown
  have hwrite : raw.write env dedup nearby s = (s.modifyPlace id fun _ => raw.row env, id) := by
    show s.write _ _ _ _ _ = _
    rw [hfound, hown]
    rfl
  have hplace : ((s.modifyPlace id fun _ => raw.row env).places.get? id).isSome = true := by
    rw [Catalog.get?_modifyPlace, hp]
    rfl
  rw [← @exists_upsertEdges env id raw.source matched _ hplace]
  constructor
  · intro ⟨t, ht⟩
    obtain ⟨hidentity, hedges⟩ := seq_eq_ok.mp ht
    rw [hwrite] at hedges
    exact ⟨need_eq_ok.mp hidentity, t, hedges⟩
  · intro ⟨hidentity, t, ht⟩
    refine ⟨t, seq_eq_ok.mpr ⟨need_eq_ok.mpr hidentity, ?_⟩⟩
    rw [hwrite]
    exact ht

theorem keepsClaim_of_same {a : CatalogAction} (h : catalogStep env s a = s) : KeepsClaim env s a := by
  intro id
  rw [h]
  cases a with
  | ingest | venue => exact Finset.Subset.refl _
  | merge pair =>
    show s.venues id ⊆ s.venues (pair.heir s _ id)
    rw [h, heir_same]

theorem Sets.keepsClaim_iff {a : CatalogAction} {id : Nat} {venues : Finset String}
    (hheir : ∀ j, heir env s a j = j) (h : Sets s (catalogStep env s a) id venues) :
    KeepsClaim env s a ↔ s.venues id ⊆ venues := by
  constructor
  · intro hkeeps
    have hid := hkeeps id
    rwa [hheir, h id, if_pos rfl] at hid
  · intro hsub j
    rw [hheir, h j]
    split
    · rename_i hj
      rw [hj]
      exact hsub
    · exact Finset.Subset.refl _

theorem keeps_ingest_iff {raw : RawPlace} {matched : List PlaceMatch} {dedup : Bool}
    {nearby : List Nat} (hs : Exclusive s) :
    KeepsClaim env s (.ingest raw matched dedup nearby) ↔
      DropsNoClaim env s (.ingest raw matched dedup nearby) := by
  have hheir : ∀ j, heir env s (.ingest raw matched dedup nearby) j = j := fun _ => rfl
  constructor
  · intro hkeeps hsource hidentity hknows hsearches id hown
    have hfound := (duplicate_eq_none (s := s) hsource dedup nearby).mpr hsearches
    obtain ⟨t, ht⟩ := (ownRow_commits hfound hown).mpr ⟨hidentity, hknows⟩
    have hraw : raw.venues = ∅ := if_neg fun h => hsource h.1
    rcases ingest_cases ht with ⟨j, hj, -⟩ | ⟨j, -, hj, hsets⟩ | ⟨-, hj, -⟩
    · rw [hfound] at hj
      cases hj
    · rw [hown] at hj
      cases hj
      have hstep : catalogStep env s (.ingest raw matched dedup nearby) = t := catalogStep_of_ok ht
      rw [← hstep] at hsets
      exact Finset.subset_empty.mp (hraw ▸ (hsets.keepsClaim_iff hheir).mp hkeeps)
    · rw [hown] at hj
      cases hj
  · intro hguard
    rcases catalogStep_eq_or env s (.ingest raw matched dedup nearby) with hsame | hok
    · exact keepsClaim_of_same hsame
    rcases ingest_cases hok with ⟨id, -, hsets⟩ | ⟨id, hfound, hown, hsets⟩ | ⟨-, -, hsets⟩
    · refine (hsets.keepsClaim_iff hheir).mpr ?_
      show (s.places.get? id).elim ∅ Place.roeduVenues ⊆ _
      cases s.places.get? id with
      | none => exact Finset.empty_subset _
      | some => exact Finset.subset_union_left
    · refine (hsets.keepsClaim_iff hheir).mpr ?_
      have hcommits := (ownRow_commits hfound hown).mp ⟨_, hok⟩
      by_cases hsource : raw.source = .roedu
      · rw [venues_ownRow hs hsource hcommits.1 hown]
      · have hsearches := (duplicate_eq_none hsource dedup nearby).mp hfound
        rw [hguard hsource hcommits.1 hcommits.2 hsearches id hown]
        exact Finset.empty_subset _
    · refine (hsets.keepsClaim_iff hheir).mpr ?_
      rw [Catalog.venues_nextId]
      exact Finset.empty_subset _

theorem keepsClaim_venue (item : VenueItem) (nearby : List Nat) : KeepsClaim env s (.venue item nearby) := by
  have hheir : ∀ j, heir env s (.venue item nearby) j = j := fun _ => rfl
  rcases catalogStep_eq_or env s (.venue item nearby) with hsame | hok
  · exact keepsClaim_of_same hsame
  rcases venue_cases hok with ⟨id, p, -, hp, hfree, hsets⟩ | ⟨id, -, -, hsets⟩ | ⟨-, -, hsets⟩
  · refine (hsets.keepsClaim_iff hheir).mpr ?_
    rw [Catalog.venues_of_get? hp]
    exact hfree
  · exact (hsets.keepsClaim_iff hheir).mpr (Finset.Subset.refl _)
  · refine (hsets.keepsClaim_iff hheir).mpr ?_
    rw [Catalog.venues_nextId]
    exact Finset.empty_subset _

theorem keeps_merge_iff {pair : MergePair} {aggregate blocked : Bool} :
    KeepsClaim env s (.merge pair aggregate blocked) ↔
      DropsNoClaim env s (.merge pair aggregate blocked) := by
  constructor
  · intro hkeeps canonical duplicate hmerges
    have hkept := hkeeps pair.duplicate
    have hstep : catalogStep env s (.merge pair aggregate blocked) =
        foldDuplicate pair aggregate duplicate s := catalogStep_of_ok (hmerges.commits aggregate)
    rw [heir, hstep, heir_duplicate hmerges.duplicateRow
        (get?_foldDuplicate_duplicate pair aggregate duplicate),
      venues_foldDuplicate hmerges, if_neg pair.distinct, if_pos rfl,
      Catalog.venues_of_get? hmerges.duplicateRow] at hkept
    exact hkept
  · intro hguard
    rcases catalogStep_eq_or env s (.merge pair aggregate blocked) with hsame | hok
    · exact keepsClaim_of_same hsame
    rcases merges_or_same hok with ⟨hsame, -⟩ | ⟨canonical, duplicate, hmerges, hfold⟩
    · exact keepsClaim_of_same hsame
    intro id
    rw [heir, hfold]
    by_cases hid : id = pair.duplicate
    · subst hid
      rw [heir_duplicate hmerges.duplicateRow
          (get?_foldDuplicate_duplicate pair aggregate duplicate),
        venues_foldDuplicate hmerges, if_neg pair.distinct, if_pos rfl,
        Catalog.venues_of_get? hmerges.duplicateRow]
      exact hguard canonical duplicate hmerges
    · rw [heir_ne hid, venues_foldDuplicate hmerges, if_neg hid]
      split
      · rename_i hcanonical
        rw [hcanonical, Catalog.venues_of_get? hmerges.canonicalRow]
        exact Finset.subset_union_left
      · exact Finset.Subset.refl _

theorem keepsClaim_iff (a : CatalogAction) (hs : Exclusive s) :
    KeepsClaim env s a ↔ DropsNoClaim env s a := by
  cases a with
  | ingest => exact keeps_ingest_iff hs
  | venue item nearby => exact ⟨fun _ => trivial, fun _ => keepsClaim_venue item nearby⟩
  | merge => exact keeps_merge_iff

/-- The heir of a place after a run. -/
def heirAfter (env : IngestEnv) : Catalog → List CatalogAction → Nat → Nat
  | _, [], id => id
  | s, a :: as, id => heirAfter env (catalogStep env s a) as (heir env s a id)

theorem kept_after {as : List CatalogAction} (id : Nat)
    (h : ∀ q ∈ steps (catalogStep env) s as, KeepsClaim env q.1 q.2) :
    s.venues id ⊆ (run (catalogStep env) s as).venues (heirAfter env s as id) := by
  induction as generalizing s id with
  | nil => exact Finset.Subset.refl _
  | cons a as ih =>
    have hfirst : KeepsClaim env s a := h (s, a) List.mem_cons_self
    exact (hfirst id).trans (ih _ fun q hq => h q (List.mem_cons_of_mem _ hq))

/-- In every run no place stands for two venues, and the steps that keep what every place stands
for are those that drop no claim. Where all do, a place that a venue has claimed, or its heir,
stands for that venue and no other ever after. -/
theorem claims_persist_iff (env : IngestEnv) (s : Catalog) (hs : Exclusive s)
    (as : List CatalogAction) :
    Exclusive (run (catalogStep env) s as) ∧
    ((∀ q ∈ steps (catalogStep env) s as, KeepsClaim env q.1 q.2) ↔
      ∀ q ∈ steps (catalogStep env) s as, DropsNoClaim env q.1 q.2) ∧
    ((∀ q ∈ steps (catalogStep env) s as, DropsNoClaim env q.1 q.2) →
      ∀ before after, as = before ++ after → ∀ id v,
        v ∈ (run (catalogStep env) s before).venues id →
        (run (catalogStep env) s as).venues
          (heirAfter env (run (catalogStep env) s before) after id) = {v}) := by
  have hall : ∀ q ∈ steps (catalogStep env) s as, Exclusive q.1 :=
    Machine.steps_invariant (fun _ a h => exclusive_step a h) hs as
  have hiff : (∀ q ∈ steps (catalogStep env) s as, KeepsClaim env q.1 q.2) ↔
      ∀ q ∈ steps (catalogStep env) s as, DropsNoClaim env q.1 q.2 :=
    forall₂_congr fun q hq => keepsClaim_iff q.2 (hall q hq)
  refine ⟨exclusive_run as hs, hiff, ?_⟩
  intro hguard before after heq id v hv
  subst heq
  have hkeeps := hiff.mpr hguard
  rw [Machine.steps_append] at hkeeps
  have hsub := @kept_after env _ after id fun q hq => hkeeps q (List.mem_append_right _ hq)
  rw [← Machine.run_append] at hsub
  refine Finset.eq_singleton_iff_unique_mem.mpr ⟨hsub hv, fun w hw => ?_⟩
  exact Finset.card_le_one.mp (exclusive_run (before ++ after) hs _) w hw v (hsub hv)

/-! ### Two venues in one building -/

theorem exclusive_empty : Exclusive .empty := fun _ => Nat.zero_le _

/-- A taxonomy without activities. -/
def noActivities : IngestEnv where
  activityTypes := fun _ => none
  external := id

/-- The building, as OSM knows it. -/
def operaHouse : RawPlace where
  source := .osm
  osmType := "way"
  osmId := some 7
  externalId := ""
  name := "Opera"
  location := ⟨23, 46⟩
  mergedSourcesTag := none
  details := ⟨"", "", "", "", "", ""⟩

/-- The opera, in the building. -/
def opera : VenueItem where
  id := "opera"
  title := "Opera"
  location := ⟨23, 46⟩
  website := ""
  attribution := ""
  license := ""
  matched := []
  hasId := by decide

/-- The theatre, in the same building. -/
def theatre : VenueItem := { opera with id := "theatre", hasId := by decide }

theorem claims_persist_opera :
    (run (catalogStep noActivities) .empty [.venue opera [], .venue opera [1]]).venues 1 =
      {"opera"} := by
  refine (claims_persist_iff noActivities .empty exclusive_empty
    [.venue opera [], .venue opera [1]]).2.2 ?_ [.venue opera []] [.venue opera [1]] rfl 1 "opera"
    (by decide +kernel)
  intro q hq
  simp only [steps, List.mem_cons, List.not_mem_nil, or_false] at hq
  rcases hq with rfl | rfl <;> trivial

/-- The opera claims the building, the next ingest of OSM drops the claim, and the theatre takes the
place. -/
theorem claim_passes_to_theatre :
    ¬∀ (env : IngestEnv) (before after : List CatalogAction) (id : Nat) (v : String),
      v ∈ (run (catalogStep env) .empty before).venues id →
      (run (catalogStep env) .empty (before ++ after)).venues
        (heirAfter env (run (catalogStep env) .empty before) after id) = {v} := by
  intro h
  have hopera := h noActivities [.ingest operaHouse [] true [], .venue opera [1]]
    [.ingest operaHouse [] true [], .venue theatre [1]] 1 "opera" (by decide +kernel)
  revert hopera
  decide +kernel

end SocialActivities.Places
