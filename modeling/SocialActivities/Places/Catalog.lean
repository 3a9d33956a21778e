import Mathlib.Data.Finset.Card
import Mathlib.Algebra.Order.Ring.Rat
import SocialActivities.Lib.KeyMap

/-!
# `SocialActivities.Places.Catalog`: places and their activities

The tables `places_place` and `places_placeactivity`, with the writes that the importers are made
of. A place records the RO-EDU venues it stands for in two ways: its own external id, when RO-EDU
created it, and the entries of `merged_sources` in its raw tags. `Place.roeduVenues` is the set of
them, as `RoeduVenueIdentitiesSQL` reads it.

Ids come from a sequence, so `Catalog` carries that every place has an id below the next one. One
lemma for each write says which rows it leaves (`get?_modifyPlace`, `get?_insertPlace`,
`get?_removePlace`).
-/

namespace SocialActivities.Places

open Lib

/-- `Place.Source`. -/
inductive PlaceSource where
  | osm
  | overture
  | google
  | user
  | roedu
  deriving DecidableEq

/-- An element of `merged_sources`: an object with a source and an external id, or a text. -/
inductive MergedEntry where
  | text (value : String)
  | object (source : PlaceSource) (externalId : String)
  deriving DecidableEq

/-- `raw_tags->'merged_sources'`. A text is a tag of that name which the source itself has. -/
inductive MergedSources where
  | missing
  | text (value : String)
  | array (entries : List MergedEntry)
  deriving DecidableEq

/-- A longitude and a latitude. -/
structure Point where
  lon : Rat
  lat : Rat
  deriving DecidableEq

/-- The columns that a merge fills where they are empty. -/
structure Details where
  openingHoursRaw : String
  website : String
  phone : String
  attribution : String
  licenseName : String
  provenanceURL : String
  deriving DecidableEq

/-- A row of `places_place`. -/
structure Place where
  name : String
  source : PlaceSource
  osmType : String
  osmId : Option Int
  externalId : String
  location : Point
  mergedSources : MergedSources
  details : Details
  deriving DecidableEq

inductive Origin where
  | inferred
  | confirmed
  | manual
  deriving DecidableEq

/-- A row of `places_placeactivity`, under its place and its activity. -/
structure Edge where
  origin : Origin
  confidence : Rat
  source : PlaceSource
  mappingRule : String
  isDisputed : Bool
  deriving DecidableEq

/-- An edge that a person made or confirmed. -/
def Edge.isProtected (e : Edge) : Bool := e.origin == .confirmed || e.origin == .manual

/-- Where an edge comes from, as its row records it. -/
def Edge.provenance (e : Edge) : PlaceSource × String := (e.source, e.mappingRule)

/-! ### The venues of a place -/

namespace MergedSources

/-- `coalesce(raw_tags->'merged_sources','[]')||jsonb_build_array(entry)`. -/
def append (m : MergedSources) (entry : MergedEntry) : MergedSources :=
  match m with
  | missing => array [entry]
  | text value => array [.text value, entry]
  | array entries => array (entries ++ [entry])

/-- The elements of an array, and none of anything else. -/
def entries : MergedSources → List MergedEntry
  | array entries => entries
  | _ => []

/-- The RO-EDU venues that the entries name. -/
def venues (m : MergedSources) : List String :=
  m.entries.filterMap fun
    | .object .roedu externalId => some externalId
    | _ => none

end MergedSources

/-- The venue of a row that RO-EDU created. -/
def Place.ownVenues (p : Place) : Finset String :=
  ((if p.source = .roedu then [p.externalId] else []).filter (· ≠ "")).toFinset

/-- The venues merged into a place. -/
def Place.claims (p : Place) : Finset String :=
  (p.mergedSources.venues.filter (· ≠ "")).toFinset

/-- `RoeduVenueIdentitiesSQL`. -/
def Place.roeduVenues (p : Place) : Finset String := p.ownVenues ∪ p.claims

variable {v : String} {p : Place}

theorem mem_ownVenues :
    v ∈ p.ownVenues ↔ p.source = .roedu ∧ v = p.externalId ∧ v ≠ "" := by
  unfold Place.ownVenues
  by_cases h : p.source = .roedu <;> simp [h]

theorem mem_claims :
    v ∈ p.claims ↔ MergedEntry.object .roedu v ∈ p.mergedSources.entries ∧ v ≠ "" := by
  have hentry : v ∈ p.mergedSources.venues ↔
      MergedEntry.object .roedu v ∈ p.mergedSources.entries := by
    unfold MergedSources.venues
    rw [List.mem_filterMap]
    constructor
    · intro ⟨e, he, heq⟩
      split at heq
      · rw [← Option.some.inj heq]
        exact he
      · cases heq
    · intro he
      exact ⟨_, he, rfl⟩
  unfold Place.claims
  simp [hentry]

theorem mem_roeduVenues :
    v ∈ p.roeduVenues ↔ v ∈ p.ownVenues ∨ v ∈ p.claims :=
  Finset.mem_union

theorem mem_entries_append {m : MergedSources} {entry : MergedEntry} {source : PlaceSource}
    : MergedEntry.object source v ∈ (m.append entry).entries ↔
      MergedEntry.object source v ∈ m.entries ∨ entry = .object source v := by
  cases m <;> simp [MergedSources.append, MergedSources.entries, eq_comm]

theorem mem_claims_append {entry : MergedEntry} :
    v ∈ ({ p with mergedSources := p.mergedSources.append entry } : Place).claims ↔
      v ∈ p.claims ∨ entry = .object .roedu v ∧ v ≠ "" := by
  rw [mem_claims, mem_claims, mem_entries_append]
  exact or_and_right

/-! ### The tables -/

/-- The tables, with the next value of the sequence of place ids. -/
structure Catalog where
  places : KeyMap Nat Place
  edges : KeyMap (Nat × Nat) Edge
  nextId : Nat
  fresh : ∀ id p, places.get? id = some p → id < nextId

namespace Catalog

variable (s : Catalog)

/-- Nothing imported yet. -/
def empty : Catalog := ⟨KeyMap.empty, KeyMap.empty, 1, fun id p h => by cases h⟩

/-- The venues of the place under an id. -/
def venues (id : Nat) : Finset String := (s.places.get? id).elim ∅ Place.roeduVenues

/-- `UPDATE places_place ... WHERE id=`. -/
def modifyPlace (id : Nat) (f : Place → Place) : Catalog where
  places := s.places.mapRows fun j p => if j = id then f p else p
  edges := s.edges
  nextId := s.nextId
  fresh := by
    intro j p hget
    rw [KeyMap.get?_mapRows] at hget
    obtain ⟨q, hq, -⟩ := Option.map_eq_some_iff.mp hget
    exact s.fresh j q hq

/-- `INSERT INTO places_place`. -/
def insertPlace (p : Place) : Catalog where
  places := s.places.set s.nextId p
  edges := s.edges
  nextId := s.nextId + 1
  fresh := by
    refine KeyMap.forall_set (Nat.lt_succ_self _) fun j q hget => ?_
    exact Nat.lt_succ_of_lt (s.fresh j q hget)

/-- `DELETE FROM places_placeactivity` and `places_place` of one place. -/
def removePlace (id : Nat) : Catalog where
  places := s.places.removeIf fun j _ => j == id
  edges := s.edges.removeIf fun key _ => key.1 == id
  nextId := s.nextId
  fresh := fun j p hget => s.fresh j p (KeyMap.get?_of_removeIf hget)

/-- The row of an edge, inserted or updated. -/
def setEdge (id activity : Nat) (e : Edge) : Catalog :=
  { s with edges := s.edges.set (id, activity) e }

/-- `UPDATE places_placeactivity SET place_id=`. -/
def moveEdge (id activity canonical : Nat) (e : Edge) : Catalog :=
  { s with edges := (s.edges.removeIf fun key _ => key == (id, activity)).set (canonical, activity) e }

/-- The activities of a place, with their edges. -/
def edgesOf (id : Nat) : List (Nat × Edge) :=
  (s.edges.entries.filter fun row => row.1.1 == id).map fun row => (row.1.2, row.2)

theorem get?_modifyPlace (id : Nat) (f : Place → Place) (j : Nat) :
    (s.modifyPlace id f).places.get? j =
      (s.places.get? j).map fun p => if j = id then f p else p :=
  KeyMap.get?_mapRows ..

theorem get?_insertPlace (p : Place) (j : Nat) :
    (s.insertPlace p).places.get? j = if j = s.nextId then some p else s.places.get? j :=
  KeyMap.get?_set ..

theorem get?_removePlace (id j : Nat) :
    (s.removePlace id).places.get? j = if j = id then none else s.places.get? j := by
  show (s.places.removeIf _).get? j = _
  rw [KeyMap.get?_removeIf]
  by_cases h : j = id
  · rw [if_pos h]
    cases s.places.get? j <;> simp [h]
  · rw [if_neg h]
    cases s.places.get? j <;> simp [h]

theorem get?_nextId : s.places.get? s.nextId = none := by
  cases h : s.places.get? s.nextId with
  | none => rfl
  | some p => exact absurd (s.fresh s.nextId p h) (Nat.lt_irrefl _)

variable {s}

variable {id : Nat}

theorem mem_venues {v : String} :
    v ∈ s.venues id ↔ ∃ p, s.places.get? id = some p ∧ v ∈ p.roeduVenues := by
  unfold venues
  cases s.places.get? id with
  | none | some => simp

theorem venues_of_get? {p : Place} (h : s.places.get? id = some p) :
    s.venues id = p.roeduVenues := by
  unfold venues
  rw [h]
  rfl

theorem venues_congr {t : Catalog} (h : t.places.get? id = s.places.get? id) :
    t.venues id = s.venues id := by
  unfold venues
  rw [h]

theorem venues_modifyPlace_ne {f : Place → Place} {j : Nat} (h : j ≠ id) :
    (s.modifyPlace id f).venues j = s.venues j := by
  apply venues_congr
  rw [get?_modifyPlace]
  cases s.places.get? j <;> simp [h]

theorem venues_modifyPlace_self {f : Place → Place} {p : Place}
    (h : s.places.get? id = some p) : (s.modifyPlace id f).venues id = (f p).roeduVenues := by
  apply venues_of_get?
  rw [get?_modifyPlace, h, Option.map_some, if_pos rfl]

@[simp] theorem venues_nextId : s.venues s.nextId = ∅ := by
  unfold venues
  rw [get?_nextId]
  rfl

theorem venues_removePlace (j : Nat) :
    (s.removePlace id).venues j = if j = id then ∅ else s.venues j := by
  by_cases h : j = id
  · unfold venues
    rw [if_pos h, get?_removePlace, if_pos h]
    rfl
  · rw [if_neg h]
    apply venues_congr
    rw [get?_removePlace, if_neg h]

theorem mem_edgesOf {activity : Nat} {e : Edge} :
    (activity, e) ∈ s.edgesOf id ↔ s.edges.get? (id, activity) = some e := by
  rw [← KeyMap.mem_entries_iff]
  unfold edgesOf
  rw [List.mem_map]
  constructor
  · intro ⟨⟨⟨j, b⟩, r⟩, hmem, heq⟩
    obtain ⟨hin, hid⟩ := List.mem_filter.mp hmem
    have hj : j = id := by simpa using hid
    cases heq
    rw [← hj]
    exact hin
  · intro hin
    exact ⟨((id, activity), e), List.mem_filter.mpr ⟨hin, by simp⟩, rfl⟩

theorem nodup_edgesOf (s : Catalog) (id : Nat) : ((s.edgesOf id).map Prod.fst).Nodup := by
  show ((List.map _ (List.filter _ s.edges.entries)).map Prod.fst).Nodup
  rw [List.map_map]
  have hkeys : ((s.edges.entries.filter fun row => row.1.1 == id).map Prod.fst).Nodup :=
    s.edges.nodup.sublist (List.filter_sublist.map _)
  rw [List.Nodup, List.pairwise_map] at hkeys ⊢
  refine hkeys.imp_of_mem fun {a b} ha hb hne heq => hne ?_
  have hfst : a.1.1 = b.1.1 := by
    have h1 : a.1.1 = id := by simpa using (List.mem_filter.mp ha).2
    have h2 : b.1.1 = id := by simpa using (List.mem_filter.mp hb).2
    rw [h1, h2]
  exact Prod.ext hfst heq

end Catalog

end SocialActivities.Places
