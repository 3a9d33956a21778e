import SocialActivities.Events.Rows

/-!
# `SocialActivities.Events.PySync`: the events of a sync (Python)

The command `sync_roedu_events` for an app-pack, without `--allow-snapshot-rollback`, over
`upsert_event`, `tombstone_roedu_event` and `reconcile_roedu_snapshot`. It differs from the Go sync
in four places:

* a row without an update time is compared by the time it was last seen;
* a value that is missing keeps the value of the row;
* an event whose venue has no place is skipped, and then nothing is removed;
* a row that a complete pack leaves out is removed whatever snapshot has written it.

The last one is a second way for an older snapshot to win (`OlderPackRefused.absent`).
-/

namespace SocialActivities.Events.Py

open Lib

/-- `StaleRoeduSnapshot`. -/
inductive SyncError where
  | staleRoeduSnapshot
  deriving DecidableEq

/-- What the command is called with. -/
structure SyncEnv where
  /-- `iexact` compares two cities in upper case. -/
  upper : String → String
  /-- `--min-confidence`. -/
  minConfidence : Rat

/-- `keep`, of a text. -/
def keepText (new old : String) : String := if new = "" then old else new

/-- `keep`, of a value that may be missing. -/
def keepValue {α : Type} (new old : Option α) : Option α := new.orElse fun _ => old

/-- The columns about the source, of an event and the row it meets. -/
def keepSource (new old : SourceFacts) : SourceFacts where
  category := keepText new.category old.category
  city := keepText new.city old.city
  confidence := keepValue new.confidence old.confidence
  venueId := keepText new.venueId old.venueId
  firstSeenAt := keepValue new.firstSeenAt old.firstSeenAt
  lastSeenAt := keepValue new.lastSeenAt old.lastSeenAt
  recurrence := keepText new.recurrence old.recurrence
  timezone := keepText new.timezone old.timezone
  priceMin := keepValue new.priceMin old.priceMin
  priceMax := keepValue new.priceMax old.priceMax
  currency := keepText new.currency old.currency
  isFree := keepValue new.isFree old.isFree
  availability := keepText new.availability old.availability

/-- `existing.source_updated_at or existing.source_last_seen_at`. -/
def observedAt (row : EventRow) : Option Time := row.updatedAt.orElse fun _ => row.source.lastSeenAt

/-- The guard of an item: it is not older than what the row has observed. -/
def accepts (row : EventRow) (item : PackItem) : Bool := (observedAt row).all (· ≤ item.updatedAt)

/-- What the item says about its source, with its confidence. -/
def itemSource (e : EventItem) : SourceFacts := { e.source with confidence := some e.confidence }

/-- The row that `upsert_event` creates. -/
def newRow (env : SyncEnv) (pack : Pack) (item : PackItem) (e : EventItem) (place : Nat) : EventRow where
  place := some place
  activityType := e.activityType
  facts := e.facts
  source := itemSource e
  isImportHeld := e.confidence < env.minConfidence
  lifecycleStatus := e.status
  isTombstone := false
  packId := pack.id
  releaseId := pack.snapshot
  snapshotId := pack.snapshot
  generatedAt := some pack.generatedAt
  updatedAt := some item.updatedAt

/-- The row that `upsert_event` updates. -/
def updatedRow (env : SyncEnv) (pack : Pack) (item : PackItem) (e : EventItem) (place : Nat)
    (row : EventRow) : EventRow :=
  { newRow env pack item e place with
    activityType := e.activityType.orElse fun _ => row.activityType
    source := keepSource (itemSource e) row.source
    packId := keepText pack.id row.packId
    releaseId := keepText pack.snapshot row.releaseId
    snapshotId := keepText pack.snapshot row.snapshotId }

/-- The row that `tombstone_roedu_event` leaves. -/
def tombstoneRow (pack : Pack) (item : PackItem) (row : EventRow) : EventRow :=
  { row with
    lifecycleStatus := .removed
    isTombstone := true
    packId := keepText pack.id row.packId
    releaseId := keepText pack.snapshot row.releaseId
    snapshotId := keepText pack.snapshot row.snapshotId
    generatedAt := some pack.generatedAt
    updatedAt := some item.updatedAt }

/-- The row of an item after the loop has met it: `tombstone_roedu_event`, or `upsert_event` if the
venue has a place. -/
def itemRow (env : SyncEnv) (pack : Pack) (item : PackItem) (row : Option EventRow) :
    Option EventRow :=
  match item.body with
  | .tombstone => row.map fun row => if accepts row item then tombstoneRow pack item row else row
  | .event e =>
    match e.place with
    | none => row
    | some place =>
      match row with
      | none => some (newRow env pack item e place)
      | some row => some (if accepts row item then updatedRow env pack item e place row else row)

/-- The row is in the scope of a complete pack, and not among its items. -/
def isAbsent (env : SyncEnv) (city : String) (pack : Pack) (id : String) (row : EventRow) : Bool :=
  row.packId == pack.id && env.upper row.source.city == env.upper city && !row.isTombstone &&
    !(pack.items.map PackItem.id).contains id

/-- The last complete snapshot of the scope: the first row, whatever the case of its city. -/
def lastSync (env : SyncEnv) (city : String) (pack : Pack) (s : EventState) : Option SyncState :=
  (s.syncs.entries.find? fun e => e.1.1 == pack.id && env.upper e.1.2 == env.upper city).map Prod.snd

def checkSnapshotOrder (last : Option SyncState) (pack : Pack) : Bool :=
  match last with
  | none => true
  | some last =>
    !(pack.generatedAt < last.generatedAt) &&
      !(pack.generatedAt == last.generatedAt && pack.snapshot != last.snapshotId)

/-- `reconcile_roedu_snapshot`. -/
def reconcile (env : SyncEnv) (city : String) (pack : Pack) (s : EventState) :
    Except SyncError EventState := do
  need .staleRoeduSnapshot (checkSnapshotOrder (lastSync env city pack s) pack)
  pure {
    rows := s.rows.mapRows fun id row => if isAbsent env city pack id row then row.remove pack else row
    syncs := s.syncs.set (pack.id, city) ⟨pack.snapshot, pack.snapshot, pack.generatedAt⟩ }

/-- No item is a bad record. -/
def allPlaced (pack : Pack) : Bool := pack.items.all PackItem.hasPlace

/-- The command. -/
def applyPack (env : SyncEnv) (city : String) (pack : Pack) (s : EventState) :
    Except SyncError EventState := do
  need .staleRoeduSnapshot (!pack.complete || checkSnapshotOrder (lastSync env city pack s) pack)
  let rows := pack.items.foldl (fun rows item =>
    putRow rows item.id (itemRow env pack item (rows.get? item.id))) s.rows
  if pack.complete && allPlaced pack then
    reconcile env city pack { s with rows := rows }
  else pure { s with rows := rows }

/-! ### One row -/

/-- How the sync meets an item. -/
def meeting (env : SyncEnv) (pack : Pack) : Meeting where
  accepts := accepts
  tombstone := tombstoneRow pack
  new := newRow env pack
  known := updatedRow env pack

/-- The pack is no rollback of the last complete one. -/
def Accepted (env : SyncEnv) (city : String) (pack : Pack) (s : EventState) : Prop :=
  pack.complete = true → checkSnapshotOrder (lastSync env city pack s) pack = true

/-- The tables after a pack that is applied. -/
def applied (env : SyncEnv) (city : String) (pack : Pack) (s : EventState) : EventState where
  rows :=
    (if pack.complete && allPlaced pack then
        fun rows => rows.mapRows fun id row =>
          if isAbsent env city pack id row then row.remove pack else row
      else id)
      (pack.items.foldl (fun rows item =>
        putRow rows item.id (itemRow env pack item (rows.get? item.id))) s.rows)
  syncs :=
    if pack.complete && allPlaced pack then
      s.syncs.set (pack.id, city) ⟨pack.snapshot, pack.snapshot, pack.generatedAt⟩
    else s.syncs

variable {env : SyncEnv} {city : String} {pack : Pack} {s t : EventState}

/-- When a pack is applied, and what it does to the tables. The order is the same when it is checked
again, at the end. -/
theorem applyPack_iff : applyPack env city pack s = .ok t ↔
    Accepted env city pack s ∧ t = applied env city pack s := by
  have horder : (!pack.complete || checkSnapshotOrder (lastSync env city pack s) pack) = true ↔
      Accepted env city pack s := by
    unfold Accepted
    cases pack.complete <;> simp
  unfold applyPack
  rw [seq_eq_ok, need_eq_ok, horder]
  refine and_congr_right fun haccepted => ?_
  dsimp only
  cases hall : pack.complete && allPlaced pack with
  | false =>
    simp only [Bool.false_eq_true, if_false, pure_eq_ok, applied, hall, id_eq]
    exact eq_comm
  | true =>
    simp only [if_true, reconcile, applied, hall]
    rw [seq_eq_ok, need_eq_ok, pure_eq_ok]
    have hcomplete : pack.complete = true := (Bool.and_eq_true_iff.mp hall).1
    constructor
    · intro ⟨_, ht⟩
      exact ht.symm
    · intro ht
      exact ⟨haccepted hcomplete, ht.symm⟩

theorem accepts_eq_false {row : EventRow} {item : PackItem} :
    accepts row item = false ↔ ∃ u, observedAt row = some u ∧ item.updatedAt < u := by
  unfold accepts
  cases observedAt row <;> simp

theorem itemRow_eq : itemRow env pack = (meeting env pack).row := rfl

theorem keepText_twice (new old : String) : keepText new (keepText new old) = keepText new old := by
  by_cases h : new = "" <;> simp [keepText, h]

theorem keepText_self (new : String) : keepText new new = new := by simp [keepText]

theorem keepValue_twice {α : Type} (new old : Option α) :
    keepValue new (keepValue new old) = keepValue new old := by
  cases new <;> rfl

theorem keepValue_self {α : Type} (value : Option α) : keepValue value value = value := by
  cases value <;> rfl

theorem accepts_self {row : EventRow} {item : PackItem} (h : row.updatedAt = some item.updatedAt) :
    accepts row item = true := by
  simp [accepts, observedAt, h]

theorem stamping (env : SyncEnv) (pack : Pack) : (meeting env pack).Stamping pack where
  tombstone item row := by
    refine ⟨rfl, @accepts_self (tombstoneRow pack item row) item rfl, ?_⟩
    simp only [meeting, tombstoneRow, keepText_twice]
  new item e place := by
    refine ⟨rfl, @accepts_self (newRow env pack item e place) item rfl, ?_⟩
    simp only [meeting, updatedRow, newRow, keepText_self, keepSource, keepValue_self]
    cases e.activityType <;> rfl
  known item e place row := by
    refine ⟨rfl, @accepts_self (updatedRow env pack item e place row) item rfl, ?_⟩
    simp only [meeting, updatedRow, keepText_twice, keepSource, keepValue_twice]
    cases e.activityType <;> rfl

theorem not_mem_of_absent {id : String} {row : EventRow} (h : isAbsent env city pack id row = true) :
    id ∉ pack.items.map PackItem.id := by
  intro hmem
  rw [isAbsent, List.contains_iff_mem.mpr hmem, Bool.not_true, Bool.and_false] at h
  cases h

theorem rowwise_applied (env : SyncEnv) (city : String) (pack : Pack) (s : EventState) :
    Rowwise s.rows (applied env city pack s).rows (pack.rowAfter (meeting env pack) fun id row =>
      (pack.complete && allPlaced pack) && isAbsent env city pack id row) := by
  have h := @Meeting.rowwise _ _ (isAbsent env city pack) (stamping env pack)
    (pack.complete && allPlaced pack) (fun id row => not_mem_of_absent) s.rows
  rw [← itemRow_eq] at h
  exact h

/-! ### Applying a pack twice -/

/-- A pack that was applied can be applied again: the scope still has the row of before, or the row
of this pack. -/
theorem accepted_again (h : Accepted env city pack s) :
    Accepted env city pack (applied env city pack s) := by
  intro hcomplete
  have hbefore := h hcomplete
  unfold applied lastSync
  dsimp only
  cases pack.complete && allPlaced pack with
  | false => exact hbefore
  | true =>
    rw [if_pos rfl]
    cases hfind : (s.syncs.set (pack.id, city) ⟨pack.snapshot, pack.snapshot, pack.generatedAt⟩).entries.find?
        (fun e => e.1.1 == pack.id && env.upper e.1.2 == env.upper city) with
    | none => rfl
    | some e =>
      rcases @KeyMap.find?_set _ _ _ s.syncs _ (pack.id, city)
        (fun k => k.1 == pack.id && env.upper k.2 == env.upper city) e hfind with hnew | hold
      · rw [hnew]
        simp [checkSnapshotOrder]
      · unfold lastSync at hbefore
        rw [hold] at hbefore
        exact hbefore

/-! ### When no newer snapshot is overwritten -/

/-- One step: a sync that fails changes nothing. -/
def syncStep (env : SyncEnv) (s : EventState) (a : String × Pack) : EventState :=
  (applyPack env a.1 a.2 s).toOption.getD s

/-- The condition: an item of an older pack meets a row that has observed more than the item, and an
older pack that is complete leaves no row of its scope out. -/
structure OlderPackRefused (env : SyncEnv) (city : String) (pack : Pack) (s : EventState) : Prop where
  items : Accepted env city pack s → ∀ item ∈ pack.items, item.hasPlace = true → ∀ row g,
    s.rows.get? item.id = some row → row.generatedAt = some g → pack.generatedAt < g →
    ∃ u, observedAt row = some u ∧ item.updatedAt < u
  absent : Accepted env city pack s → pack.complete = true → allPlaced pack = true → ∀ id row g,
    s.rows.get? id = some row → row.generatedAt = some g → pack.generatedAt < g →
    isAbsent env city pack id row = false

theorem neverStale_applied_iff (haccepted : Accepted env city pack s) :
    NeverStale s.rows (applied env city pack s).rows pack ↔ OlderPackRefused env city pack s := by
  rw [neverStale_iff (rowwise_applied env city pack s)]
  constructor
  · intro hkeeps
    refine ⟨fun _ item hitem hplace row g hrow hg hless => ?_,
      fun _ hcomplete hplaced id row g hrow hg hless => ?_⟩
    · exact accepts_eq_false.mp (Meeting.refused_of_kept (stamping env pack) hitem hplace hg hless
        (hkeeps item.id row g hrow hg hless))
    · have hkept := ((Meeting.stampsOrKeeps (stamping env pack)).kept_iff hg hless).mp
        (hkeeps id row g hrow hg hless)
      rw [← Bool.not_eq_true]
      intro habsent
      refine hkept ⟨row.remove pack, ?_, rfl⟩
      have hnone : pack.item id = none := by
        rw [Option.eq_none_iff_forall_not_mem]
        intro item hitem
        obtain ⟨hmem, rfl⟩ := Pack.item_eq_some.mp hitem
        exact not_mem_of_absent habsent (List.mem_map_of_mem hmem)
      simp [Pack.rowAfter, hnone, hcomplete, hplaced, habsent]
  · intro hguard id row g hrow hg hless
    rw [Pack.rowAfter]
    cases hitem : pack.item id with
    | some item =>
      obtain ⟨hmem, rfl⟩ := Pack.item_eq_some.mp hitem
      cases hplace : item.hasPlace with
      | false => exact Meeting.row_of_noPlace hplace
      | true =>
        exact Meeting.row_of_refused
          (accepts_eq_false.mpr (hguard.items haccepted item hmem hplace row g hrow hg hless))
    | none =>
      by_cases hall : pack.complete = true ∧ allPlaced pack = true
      · simp [hguard.absent haccepted hall.1 hall.2 id row g hrow hg hless]
      · rw [← Bool.and_eq_true_iff, Bool.not_eq_true] at hall
        simp [hall]

theorem syncStep_spec (env : SyncEnv) (s : EventState) (a : String × Pack) :
    (NeverStale s.rows (syncStep env s a).rows a.2 ↔ OlderPackRefused env a.1 a.2 s) ∧
      Stamps s.rows (syncStep env s a).rows a.2 ∧
      SameRows (syncStep env (syncStep env s a) a) (syncStep env s a) :=
  sync_spec (stamping env a.2) (fun _ _ => applyPack_iff) (rowwise_applied env a.1 a.2) accepted_again
    (fun hrefused => ⟨fun h => absurd h hrefused, fun h => absurd h hrefused⟩) neverStale_applied_iff

end SocialActivities.Events.Py
