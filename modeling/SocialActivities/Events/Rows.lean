import Mathlib.Algebra.Order.Ring.Rat
import SocialActivities.Lib.Checked
import SocialActivities.Lib.KeyMap
import SocialActivities.Lib.Machine

/-!
# `SocialActivities.Events.Rows`: events of RO-EDU and the packs that write them

The table `events_event`, of the source `roedu` and by external id, and
`events_roedueventsyncstate`. A pack is what the reader hands to a sync: items of different ids,
read from one snapshot. The snapshot has the time at which it was generated, and each item the time
of its last update, and these are two clocks.

A sync treats every row on its own: `Rowwise` says so, with the function that takes the row before to
the row after. `rowwise_foldl` gives it for a loop over the items. A sync overwrites no newer
snapshot exactly when it keeps the rows that have a later stamp (`neverStale_iff`). The syncs of the two
languages meet an item in the same way with other rows and another test (`Meeting`).
-/

namespace SocialActivities.Events

open Lib

/-- A time, in microseconds. -/
abbrev Time := Int

/-- `Event.LifecycleStatus`. -/
inductive Lifecycle where
  | scheduled
  | rescheduled
  | postponed
  | cancelled
  | soldOut
  | movedOnline
  | expired
  | removed
  | unknown
  deriving DecidableEq

/-- What an item says about the happening. -/
structure EventFacts where
  title : String
  startsAt : Time
  endsAt : Option Time
  url : String
  attribution : String
  licenseName : String
  deriving DecidableEq

/-- What an item says about its source. -/
structure SourceFacts where
  category : String
  city : String
  confidence : Option Rat
  venueId : String
  firstSeenAt : Option Time
  lastSeenAt : Option Time
  recurrence : String
  timezone : String
  priceMin : Option Rat
  priceMax : Option Rat
  currency : String
  isFree : Option Bool
  availability : String
  deriving DecidableEq

/-- A row of `events_event`, under its external id. -/
structure EventRow where
  place : Option Nat
  activityType : Option Nat
  facts : EventFacts
  source : SourceFacts
  isImportHeld : Bool
  lifecycleStatus : Lifecycle
  isTombstone : Bool
  packId : String
  releaseId : String
  snapshotId : String
  /-- `source_snapshot_generated_at`. -/
  generatedAt : Option Time
  /-- `source_updated_at`. -/
  updatedAt : Option Time
  deriving DecidableEq

/-- A row of `events_roedueventsyncstate`: the last snapshot that was applied as a whole. -/
structure SyncState where
  snapshotId : String
  releaseId : String
  generatedAt : Time
  deriving DecidableEq

/-- An event of a pack, with the place that the sync has found for its venue. -/
structure EventItem where
  place : Option Nat
  activityType : Option Nat
  facts : EventFacts
  source : SourceFacts
  confidence : Rat
  status : Lifecycle
  deriving DecidableEq

/-- `event` or `event_tombstone`. -/
inductive ItemBody where
  | event (e : EventItem)
  | tombstone
  deriving DecidableEq

/-- An item of a pack. -/
structure PackItem where
  id : String
  updatedAt : Time
  body : ItemBody
  deriving DecidableEq

/-- The venue of the item, if it needs one, has a place. -/
def PackItem.hasPlace (item : PackItem) : Bool :=
  match item.body with
  | .tombstone => true
  | .event e => e.place.isSome

/-- The items of one snapshot. The reader takes an id once, and only a full snapshot that it could
read without a problem is complete. -/
structure Pack where
  id : String
  snapshot : String
  generatedAt : Time
  complete : Bool
  items : List PackItem
  nodup : (items.map PackItem.id).Nodup

/-- The two tables. -/
structure EventState where
  rows : KeyMap String EventRow
  /-- By the pack and the city of the sync. -/
  syncs : KeyMap (String × String) SyncState

/-- The item of a pack with an id. -/
def Pack.item (pack : Pack) (id : String) : Option PackItem := pack.items.find? (·.id == id)

/-- A row is removed, by a tombstone or by its absence, in the name of a snapshot. -/
def EventRow.remove (row : EventRow) (pack : Pack) : EventRow :=
  { row with
    lifecycleStatus := .removed
    isTombstone := true
    releaseId := pack.snapshot
    snapshotId := pack.snapshot
    generatedAt := some pack.generatedAt }

/-! ### One row at a time -/

/-- Every row after is a function of the row before. -/
def Rowwise (s t : KeyMap String EventRow) (after : String → Option EventRow → Option EventRow) :
    Prop := ∀ id, t.get? id = after id (s.get? id)

/-- The row of an item, as the sync writes it. -/
def putRow (rows : KeyMap String EventRow) (id : String) (row : Option EventRow) :
    KeyMap String EventRow :=
  match row with
  | some row => rows.set id row
  | none => rows

theorem get?_putRow {rows : KeyMap String EventRow} {id : String} {row : Option EventRow}
    (h : row = none → rows.get? id = none) (j : String) :
    (putRow rows id row).get? j = if j = id then row else rows.get? j := by
  cases row with
  | none =>
    show rows.get? j = _
    by_cases hj : j = id
    · rw [if_pos hj, hj, h rfl]
    · rw [if_neg hj]
  | some => exact KeyMap.get?_set ..

/-- A loop that writes the row of each item, over items of different ids, writes each row once. -/
theorem rowwise_foldl {after : PackItem → Option EventRow → Option EventRow}
    (hafter : ∀ item row, after item row = none → row = none) (items : List PackItem)
    (hitems : (items.map PackItem.id).Nodup) (rows : KeyMap String EventRow) :
    Rowwise rows (items.foldl (fun rows item =>
        putRow rows item.id (after item (rows.get? item.id))) rows)
      (fun id row => ((items.find? (·.id == id)).elim row fun item => after item row)) := by
  intro id
  induction items generalizing rows with
  | nil => rfl
  | cons item items ih =>
    rw [List.map_cons, List.nodup_cons] at hitems
    rw [List.foldl_cons, ih hitems.2, get?_putRow (hafter item _)]
    dsimp only
    by_cases hid : id = item.id
    · -- No later item has the id.
      have hlater : items.find? (·.id == item.id) = none := by
        rw [List.find?_eq_none]
        intro later hlater heq
        exact hitems.1 ((beq_iff_eq.mp heq) ▸ List.mem_map_of_mem hlater)
      subst hid
      rw [if_pos rfl, hlater, List.find?_cons_of_pos (by simp)]
      rfl
    · have hne : ¬(item.id == id) = true := by simpa using fun h => hid h.symm
      have hskip : (item :: items).find? (·.id == id) = items.find? (·.id == id) :=
        List.find?_cons_of_neg hne
      rw [if_neg hid, hskip]

theorem Pack.item_eq_some {pack : Pack} {id : String} {item : PackItem} :
    pack.item id = some item ↔ item ∈ pack.items ∧ item.id = id := by
  constructor
  · intro h
    exact ⟨List.mem_of_find?_eq_some h, by simpa using List.find?_some h⟩
  · intro ⟨hmem, hid⟩
    unfold Pack.item
    cases hfind : pack.items.find? (·.id == id) with
    | none =>
      have hno := List.find?_eq_none.mp hfind item hmem
      simp [hid] at hno
    | some other =>
      have hother : other.id = id := by simpa using List.find?_some hfind
      rw [List.inj_on_of_nodup_map pack.nodup (List.mem_of_find?_eq_some hfind) hmem
        (hother.trans hid.symm)]

/-! ### What no stale pack may do -/

/-- A row that a pack changes was last written by a snapshot that is not newer than the pack's. -/
def NeverStale (s t : KeyMap String EventRow) (pack : Pack) : Prop :=
  ∀ id row g, s.get? id = some row → row.generatedAt = some g → t.get? id ≠ some row →
    g ≤ pack.generatedAt

/-- A row that a pack changes names the pack's snapshot as the last to write it. -/
def Stamps (s t : KeyMap String EventRow) (pack : Pack) : Prop :=
  ∀ id, t.get? id ≠ s.get? id → ∃ row, t.get? id = some row ∧
    row.generatedAt = some pack.generatedAt

/-- Every row is kept, or it is there and names the pack's snapshot. -/
def StampsOrKeeps (pack : Pack) (after : String → Option EventRow → Option EventRow) : Prop :=
  ∀ id row, after id row = row ∨
    ∃ next, after id row = some next ∧ next.generatedAt = some pack.generatedAt

section

variable {s t : KeyMap String EventRow} {pack : Pack}
  {after : String → Option EventRow → Option EventRow}

theorem stamps_of_rowwise (hrows : Rowwise s t after) (h : StampsOrKeeps pack after) :
    Stamps s t pack := by
  intro id hchanged
  rw [hrows id] at hchanged ⊢
  rcases h id (s.get? id) with hkept | hstamped
  · exact absurd hkept hchanged
  · exact hstamped

theorem neverStale_iff (hrows : Rowwise s t after) :
    NeverStale s t pack ↔ ∀ id row g, s.get? id = some row → row.generatedAt = some g →
      pack.generatedAt < g → after id (some row) = some row := by
  constructor
  · intro hnever id row g hrow hg hless
    by_contra hchanged
    rw [← hrow, ← hrows id, hrow] at hchanged
    exact absurd (hnever id row g hrow hg hchanged) (not_le.mpr hless)
  · intro hkeeps id row g hrow hg hchanged
    by_contra hless
    rw [hrows id, hrow] at hchanged
    exact hchanged (hkeeps id row g hrow hg (not_le.mp hless))

theorem StampsOrKeeps.kept_iff (h : StampsOrKeeps pack after) {id : String} {row : EventRow} {g : Time}
    (hg : row.generatedAt = some g) (hless : pack.generatedAt < g) :
    after id (some row) = some row ↔
      ¬∃ next, after id (some row) = some next ∧ next.generatedAt = some pack.generatedAt := by
  constructor
  · intro hkept ⟨next, hnext, hstamp⟩
    cases hkept.symm.trans hnext
    cases hg.symm.trans hstamp
    exact lt_irrefl _ hless
  · intro hno
    rcases h id (some row) with hkept | hstamped
    · exact hkept
    · exact absurd hstamped hno

end

/-- The same rows, whatever their order. -/
def SameRows (s t : EventState) : Prop := ∀ id, s.rows.get? id = t.rows.get? id

/-! ### What both syncs rest on -/

/-- How a sync meets an item: it accepts the row or not, and it has a row for a tombstone, for a new
event and for an event that is known. -/
structure Meeting where
  accepts : EventRow → PackItem → Bool
  tombstone : PackItem → EventRow → EventRow
  new : PackItem → EventItem → Nat → EventRow
  known : PackItem → EventItem → Nat → EventRow → EventRow

/-- The row of an item after it was met. -/
def Meeting.row (m : Meeting) (item : PackItem) (row : Option EventRow) : Option EventRow :=
  match item.body with
  | .tombstone => row.map fun row => if m.accepts row item then m.tombstone item row else row
  | .event e =>
    match e.place with
    | none => row
    | some place =>
      match row with
      | none => some (m.new item e place)
      | some row => some (if m.accepts row item then m.known item e place row else row)

/-- A row after a pack, from the row before. -/
def Pack.rowAfter (pack : Pack) (m : Meeting) (isAbsent : String → EventRow → Bool) (id : String)
    (row : Option EventRow) : Option EventRow :=
  match pack.item id with
  | some item => m.row item row
  | none => row.map fun row => if isAbsent id row then row.remove pack else row

/-- Every row that is written names the snapshot of the pack, is accepted again, and is then the same. -/
structure Meeting.Stamping (m : Meeting) (pack : Pack) : Prop where
  tombstone : ∀ item row, (m.tombstone item row).generatedAt = some pack.generatedAt ∧
    m.accepts (m.tombstone item row) item = true ∧
    m.tombstone item (m.tombstone item row) = m.tombstone item row
  new : ∀ item e place, (m.new item e place).generatedAt = some pack.generatedAt ∧
    m.accepts (m.new item e place) item = true ∧
    m.known item e place (m.new item e place) = m.new item e place
  known : ∀ item e place row, (m.known item e place row).generatedAt = some pack.generatedAt ∧
    m.accepts (m.known item e place row) item = true ∧
    m.known item e place (m.known item e place row) = m.known item e place row

namespace Meeting

variable {m : Meeting} {pack : Pack} {item : PackItem} {row : EventRow}
  {isAbsent : String → EventRow → Bool}

theorem row_of_accepts (h : m.Stamping pack) (hplace : item.hasPlace = true)
    (haccepts : m.accepts row item = true) :
    ∃ next, m.row item (some row) = some next ∧ next.generatedAt = some pack.generatedAt := by
  rw [PackItem.hasPlace] at hplace
  rw [Meeting.row]
  cases hbody : item.body with
  | tombstone => exact ⟨m.tombstone item row, by simp [haccepts], (h.tombstone item row).1⟩
  | event e =>
    rw [hbody] at hplace
    obtain ⟨place, hp⟩ := Option.isSome_iff_exists.mp hplace
    exact ⟨m.known item e place row, by simp [hp, haccepts], (h.known item e place row).1⟩

theorem row_of_refused (h : m.accepts row item = false) : m.row item (some row) = some row := by
  rw [Meeting.row]
  cases item.body with
  | tombstone => simp [h]
  | event e => cases hp : e.place <;> simp [hp, h]

theorem row_of_noPlace {row : Option EventRow} (h : item.hasPlace = false) : m.row item row = row := by
  rw [PackItem.hasPlace] at h
  rw [Meeting.row]
  cases hbody : item.body with
  | tombstone => simp [hbody] at h
  | event e =>
    have hp : e.place = none := by simpa [hbody] using h
    simp [hp]

theorem row_none (h : m.Stamping pack) : m.row item none = none ∨
    ∃ next, m.row item none = some next ∧ next.generatedAt = some pack.generatedAt := by
  rw [Meeting.row]
  cases item.body with
  | tombstone => exact Or.inl rfl
  | event e =>
    cases hp : e.place with
    | none => exact Or.inl (by simp [hp])
    | some place => exact Or.inr ⟨m.new item e place, by simp [hp], (h.new item e place).1⟩

theorem row_cases (h : m.Stamping pack) (item : PackItem) (row : Option EventRow) :
    m.row item row = row ∨
      ∃ next, m.row item row = some next ∧ next.generatedAt = some pack.generatedAt := by
  cases row with
  | none => exact row_none h
  | some row =>
    cases haccepts : m.accepts row item with
    | false => exact Or.inl (row_of_refused haccepts)
    | true =>
      cases hplace : item.hasPlace with
      | false => exact Or.inl (row_of_noPlace hplace)
      | true => exact Or.inr (row_of_accepts h hplace haccepts)

theorem row_twice (h : m.Stamping pack) (item : PackItem) (row : Option EventRow) :
    m.row item (m.row item row) = m.row item row := by
  cases hbody : item.body with
  | tombstone =>
    obtain _ | row := row
    · simp [Meeting.row, hbody]
    · obtain ⟨-, hagain, hsame⟩ := h.tombstone item row
      cases haccepts : m.accepts row item <;> simp [Meeting.row, hbody, haccepts, hagain, hsame]
  | event e =>
    cases hp : e.place with
    | none => simp [Meeting.row, hbody, hp]
    | some place =>
      obtain _ | row := row
      · obtain ⟨-, hagain, hsame⟩ := h.new item e place
        simp [Meeting.row, hbody, hp, hagain, hsame]
      · obtain ⟨-, hagain, hsame⟩ := h.known item e place row
        cases haccepts : m.accepts row item <;>
          simp [Meeting.row, hbody, hp, haccepts, hagain, hsame]

theorem stampsOrKeeps (h : m.Stamping pack) : StampsOrKeeps pack (pack.rowAfter m isAbsent) := by
  intro id row
  rw [Pack.rowAfter]
  cases pack.item id with
  | some item => exact row_cases h item row
  | none =>
    obtain _ | row := row
    · exact Or.inl rfl
    · cases habsent : isAbsent id row with
      | false => exact Or.inl (by simp [habsent])
      | true => exact Or.inr ⟨row.remove pack, by simp [habsent], rfl⟩

/-- A row of a newer snapshot that an item of an older pack leaves refuses the item. -/
theorem refused_of_kept (h : m.Stamping pack) (hitem : item ∈ pack.items)
    (hplace : item.hasPlace = true) {g : Time} (hg : row.generatedAt = some g)
    (hless : pack.generatedAt < g)
    (hkept : pack.rowAfter m isAbsent item.id (some row) = some row) : m.accepts row item = false := by
  rw [(stampsOrKeeps h).kept_iff hg hless, Pack.rowAfter, Pack.item_eq_some.mpr ⟨hitem, rfl⟩] at hkept
  exact Bool.eq_false_iff.mpr fun haccepts => hkept (row_of_accepts h hplace haccepts)

theorem rowAfter_twice (h : m.Stamping pack) (id : String) (row : Option EventRow) :
    pack.rowAfter m isAbsent id (pack.rowAfter m isAbsent id row) = pack.rowAfter m isAbsent id row := by
  rw [Pack.rowAfter, Pack.rowAfter]
  cases pack.item id with
  | some item => exact row_twice h item row
  | none =>
    obtain _ | row := row
    · rfl
    · simp only [Option.map_some]
      cases habsent : isAbsent id row with
      | false => simp [habsent]
      | true =>
        -- What was removed is removed again, in the name of the same snapshot.
        simp only [if_true]
        split <;> rfl

/-- The loop over the items and the removal of the absent rows treat every row on its own. -/
theorem rowwise (h : m.Stamping pack) {removes : Bool}
    (habsent : ∀ id row, isAbsent id row = true → id ∉ pack.items.map PackItem.id)
    (rows : KeyMap String EventRow) :
    Rowwise rows ((if removes then fun rows => rows.mapRows fun id row =>
          if isAbsent id row then row.remove pack else row else id)
        (pack.items.foldl (fun rows item => putRow rows item.id (m.row item (rows.get? item.id))) rows))
      (pack.rowAfter m fun id row => removes && isAbsent id row) := by
  intro id
  have hid := @rowwise_foldl m.row (fun item row hnone => by
    rcases row_cases h item row with hkept | ⟨next, hnext, -⟩
    · exact hkept ▸ hnone
    · cases hnext.symm.trans hnone) pack.items pack.nodup rows id
  have hfind : pack.items.find? (·.id == id) = pack.item id := rfl
  dsimp only at hid
  rw [hfind] at hid
  rw [Pack.rowAfter]
  cases hitem : pack.item id with
  | some item =>
    rw [hitem, Option.elim_some] at hid
    -- A row of the pack is not absent from it.
    have hkept : ∀ row, isAbsent id row = false := fun row => by
      rw [← Bool.not_eq_true]
      obtain ⟨hmem, rfl⟩ := Pack.item_eq_some.mp hitem
      exact fun hno => habsent _ row hno (List.mem_map_of_mem hmem)
    cases removes with
    | false => exact hid
    | true => simp [KeyMap.get?_mapRows, hid, hkept]
  | none =>
    rw [hitem, Option.elim_none] at hid
    cases removes with
    | false => simp [hid]
    | true => simp [KeyMap.get?_mapRows, hid]

end Meeting

/-- One sync, for a step of a run, from what it does when it is accepted. -/
theorem sync_spec {ε : Type} {apply : EventState → Except ε EventState} {accepted : EventState → Prop}
    {applied : EventState → EventState} {m : Meeting} {pack : Pack}
    {isAbsent : String → EventRow → Bool} {s : EventState} {guard : Prop} (hstamps : m.Stamping pack)
    (happly : ∀ s t, apply s = .ok t ↔ accepted s ∧ t = applied s)
    (hrows : ∀ s, Rowwise s.rows (applied s).rows (pack.rowAfter m isAbsent))
    (hagain : accepted s → accepted (applied s)) (hrefused : ¬accepted s → guard)
    (hguard : accepted s → (NeverStale s.rows (applied s).rows pack ↔ guard)) :
    let sync := fun s => (apply s).toOption.getD s
    (NeverStale s.rows (sync s).rows pack ↔ guard) ∧ Stamps s.rows (sync s).rows pack ∧
      SameRows (sync (sync s)) (sync s) := by
  have hok : ∀ s, accepted s → (apply s).toOption.getD s = applied s := fun s h => by
    rw [(happly s _).mpr ⟨h, rfl⟩]
    rfl
  intro sync
  by_cases haccepted : accepted s
  · have hsync : sync s = applied s := hok s haccepted
    have htwice : sync (applied s) = applied (applied s) := hok _ (hagain haccepted)
    rw [hsync, htwice]
    refine ⟨hguard haccepted, stamps_of_rowwise (hrows s) (Meeting.stampsOrKeeps hstamps), fun id => ?_⟩
    rw [hrows (applied s) id, hrows s id, Meeting.rowAfter_twice hstamps]
  · -- A sync that fails changes nothing.
    have hsync : sync s = s := by
      show (apply s).toOption.getD s = s
      cases h : apply s with
      | error e => rfl
      | ok t => exact absurd ((happly s t).mp h).1 haccepted
    rw [hsync, hsync]
    exact ⟨⟨fun _ => hrefused haccepted, fun _ id row g hrow _ hchanged => absurd hrow hchanged⟩,
      fun id hchanged => absurd rfl hchanged, fun id => rfl⟩

end SocialActivities.Events
