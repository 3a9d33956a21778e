import SocialActivities.Events.Rows

/-!
# `SocialActivities.Events.GoSync`: the events of a sync (Go)

The event part of `ApplyRoeduWithOptions` in `internal/jobs/sync_roedu.go`, without approval of a
rollback. Three guards protect a row, and each looks at another clock:

* a complete pack is refused if it is older than the last complete one;
* an item is written unless the row has a later update;
* a row that a complete pack leaves out is removed unless a newer snapshot has written it.

`rowwise_applied` is what they come to for one row. From it: a pack applied twice changes nothing more
than once (`syncStep_spec`), and `neverStale_applied_iff` says when no newer snapshot is overwritten. A partial pack is not held up by the first guard, and the second does not see the
snapshots.
-/

namespace SocialActivities.Events.Go

open Lib

/-- Why a sync is rolled back. -/
inductive SyncError where
  | rollback
  | unavailableVenue
  deriving DecidableEq

/-- What a sync is called with. -/
structure SyncEnv where
  /-- `lower`, of a city. -/
  lower : String → String
  /-- `options.MinConfidence`. -/
  minConfidence : Rat

/-- `source_updated_at IS NULL OR source_updated_at<=`. -/
def accepts (row : EventRow) (item : PackItem) : Bool := row.updatedAt.all (· ≤ item.updatedAt)

/-- The columns that an event item writes. -/
def eventRow (env : SyncEnv) (pack : Pack) (item : PackItem) (e : EventItem) (place : Nat)
    (activityType : Option Nat) : EventRow where
  place := some place
  activityType := activityType
  facts := e.facts
  source := { e.source with confidence := some e.confidence }
  isImportHeld := e.confidence < env.minConfidence
  lifecycleStatus := e.status
  isTombstone := false
  packId := pack.id
  releaseId := pack.snapshot
  snapshotId := pack.snapshot
  generatedAt := some pack.generatedAt
  updatedAt := some item.updatedAt

/-- The columns that a tombstone writes. -/
def tombstoneRow (pack : Pack) (item : PackItem) (row : EventRow) : EventRow :=
  { row.remove pack with
    packId := pack.id
    updatedAt := some item.updatedAt }

/-- The row of an item after the loop has met it. An event whose venue has no place is an error. -/
def itemRow (env : SyncEnv) (pack : Pack) (item : PackItem) (row : Option EventRow) :
    Option EventRow :=
  match item.body with
  | .tombstone => row.map fun row => if accepts row item then tombstoneRow pack item row else row
  | .event e =>
    match e.place with
    | none => row
    | some place =>
      match row with
      | none => some (eventRow env pack item e place e.activityType)
      | some row =>
        if accepts row item then
          some (eventRow env pack item e place (e.activityType.orElse fun _ => row.activityType))
        else some row

/-- One round of the loop over the items. -/
def applyItem (env : SyncEnv) (pack : Pack) (rows : KeyMap String EventRow) (item : PackItem) :
    Except SyncError (KeyMap String EventRow) := do
  need .unavailableVenue item.hasPlace
  pure (putRow rows item.id (itemRow env pack item (rows.get? item.id)))

/-- The row is in the scope of a complete pack, is not among its items, and was not written by a
newer snapshot. -/
def isAbsent (env : SyncEnv) (city : String) (pack : Pack) (id : String) (row : EventRow) : Bool :=
  row.packId == pack.id && env.lower row.source.city == env.lower city &&
    !(pack.items.map PackItem.id).contains id && row.generatedAt.all (· ≤ pack.generatedAt)

/-- The absence statement: every row that is absent is removed. -/
def removeAbsent (env : SyncEnv) (city : String) (pack : Pack) (rows : KeyMap String EventRow) :
    KeyMap String EventRow :=
  rows.mapRows fun id row => if isAbsent env city pack id row then row.remove pack else row

/-- The pack is no rollback of the last complete one. -/
def inOrder (city : String) (pack : Pack) (s : EventState) : Bool :=
  match s.syncs.get? (pack.id, city) with
  | none => true
  | some last =>
    !(pack.generatedAt < last.generatedAt ||
      pack.generatedAt == last.generatedAt && last.snapshotId != pack.snapshot)

/-- `ApplyRoeduWithOptions`, the events. -/
def applyPack (env : SyncEnv) (city : String) (pack : Pack) (s : EventState) :
    Except SyncError EventState := do
  need .rollback (!pack.complete || inOrder city pack s)
  let rows ← pack.items.foldlM (applyItem env pack) s.rows
  if pack.complete then
    pure {
      rows := removeAbsent env city pack rows
      syncs := s.syncs.set (pack.id, city) ⟨pack.snapshot, pack.snapshot, pack.generatedAt⟩ }
  else pure { s with rows := rows }

/-! ### One row -/

/-- How the sync meets an item. -/
def meeting (env : SyncEnv) (pack : Pack) : Meeting where
  accepts := accepts
  tombstone := tombstoneRow pack
  new item e place := eventRow env pack item e place e.activityType
  known item e place row :=
    eventRow env pack item e place (e.activityType.orElse fun _ => row.activityType)

variable {env : SyncEnv} {city : String} {pack : Pack} {s t : EventState}

variable {item : PackItem}

theorem itemRow_eq : itemRow env pack = (meeting env pack).row := by
  funext item row
  rw [itemRow, Meeting.row]
  cases item.body with
  | tombstone => rfl
  | event e =>
    dsimp only
    cases e.place with
    | none => rfl
    | some place =>
      obtain _ | row := row
      · rfl
      · exact (apply_ite some _ _ _).symm

theorem accepts_self {row : EventRow} {item : PackItem} (h : row.updatedAt = some item.updatedAt) :
    accepts row item = true := by
  simp [accepts, h]

theorem stamping (env : SyncEnv) (pack : Pack) : (meeting env pack).Stamping pack where
  tombstone item row := ⟨rfl, @accepts_self (tombstoneRow pack item row) item rfl, rfl⟩
  new item e place := by
    refine ⟨rfl, @accepts_self ((meeting env pack).new item e place) item rfl, ?_⟩
    simp only [meeting, eventRow]
    cases e.activityType <;> rfl
  known item e place row := by
    refine ⟨rfl, @accepts_self ((meeting env pack).known item e place row) item rfl, ?_⟩
    simp only [meeting, eventRow]
    cases e.activityType <;> rfl

theorem foldlM_applyItem {items : List PackItem} {rows after : KeyMap String EventRow} :
    items.foldlM (applyItem env pack) rows = .ok after ↔
      (∀ item ∈ items, item.hasPlace = true) ∧
      after = items.foldl (fun rows item =>
        putRow rows item.id (itemRow env pack item (rows.get? item.id))) rows := by
  induction items generalizing rows with
  | nil =>
    constructor
    · intro h
      exact ⟨fun item hitem => (by cases hitem), (pure_eq_ok.mp h).symm⟩
    · intro h
      rw [h.2]
      rfl
  | cons item items ih =>
    rw [List.forall_mem_cons, List.foldl_cons]
    constructor
    · intro h
      obtain ⟨next, hnext, hrest⟩ := bind_eq_ok.mp h
      obtain ⟨hplace, hput⟩ := seq_eq_ok.mp hnext
      rw [← pure_eq_ok.mp hput] at hrest
      exact ⟨⟨need_eq_ok.mp hplace, (ih.mp hrest).1⟩, (ih.mp hrest).2⟩
    · intro ⟨hplaces, hafter⟩
      exact bind_eq_ok.mpr ⟨_, seq_eq_ok.mpr ⟨need_eq_ok.mpr hplaces.1, rfl⟩,
        ih.mpr ⟨hplaces.2, hafter⟩⟩

/-- The pack is applied: it is no rollback, and all its events have a place. -/
structure Accepted (city : String) (pack : Pack) (s : EventState) : Prop where
  inOrder : pack.complete = true → inOrder city pack s = true
  places : ∀ item ∈ pack.items, item.hasPlace = true

/-- The tables after a pack that is applied. -/
def applied (env : SyncEnv) (city : String) (pack : Pack) (s : EventState) : EventState where
  rows :=
    (if pack.complete then removeAbsent env city pack else id)
      (pack.items.foldl (fun rows item =>
        putRow rows item.id (itemRow env pack item (rows.get? item.id))) s.rows)
  syncs :=
    if pack.complete then s.syncs.set (pack.id, city) ⟨pack.snapshot, pack.snapshot, pack.generatedAt⟩
    else s.syncs

theorem applyPack_iff : applyPack env city pack s = .ok t ↔
    Accepted city pack s ∧ t = applied env city pack s := by
  have horder : (!pack.complete || inOrder city pack s) = true ↔
      (pack.complete = true → inOrder city pack s = true) := by
    cases pack.complete <;> simp
  unfold applyPack
  rw [seq_eq_ok, need_eq_ok, horder]
  constructor
  · intro ⟨hinOrder, h⟩
    obtain ⟨rows, hrows, h⟩ := bind_eq_ok.mp h
    obtain ⟨hplaces, hrows⟩ := foldlM_applyItem.mp hrows
    refine ⟨⟨hinOrder, hplaces⟩, ?_⟩
    unfold applied
    rw [← hrows]
    split at h
    · rename_i hcomplete
      rw [if_pos hcomplete, if_pos hcomplete]
      exact (pure_eq_ok.mp h).symm
    · rename_i hcomplete
      rw [if_neg hcomplete, if_neg hcomplete]
      exact (pure_eq_ok.mp h).symm
  · intro ⟨haccepted, ht⟩
    refine ⟨haccepted.inOrder, bind_eq_ok.mpr
      ⟨_, foldlM_applyItem.mpr ⟨haccepted.places, rfl⟩, ?_⟩⟩
    rw [ht, applied]
    cases pack.complete with
    | true | false => rfl

theorem rowwise_applied (env : SyncEnv) (city : String) (pack : Pack) (s : EventState) :
    Rowwise s.rows (applied env city pack s).rows
      (pack.rowAfter (meeting env pack) fun id row => pack.complete && isAbsent env city pack id row) := by
  have habsent : ∀ id row, isAbsent env city pack id row = true → id ∉ pack.items.map PackItem.id := by
    intro id row h hmem
    simp only [isAbsent, List.contains_iff_mem.mpr hmem, Bool.not_true, Bool.and_false, Bool.false_and,
      Bool.false_eq_true] at h
  have h := @Meeting.rowwise _ _ _ (stamping env pack) pack.complete habsent s.rows
  rw [← itemRow_eq] at h
  exact h

/-! ### Applying a pack twice -/

theorem accepted_again (h : Accepted city pack s) : Accepted city pack (applied env city pack s) := by
  refine ⟨fun hcomplete => ?_, h.places⟩
  unfold inOrder applied
  dsimp only
  rw [if_pos hcomplete, KeyMap.get?_set, if_pos rfl]
  simp

/-! ### When no newer snapshot is overwritten -/

/-- One step: a sync that fails changes nothing. -/
def syncStep (env : SyncEnv) (s : EventState) (a : String × Pack) : EventState :=
  (applyPack env a.1 a.2 s).toOption.getD s

/-- The condition: an item of an older pack meets a row that has a later update than the item. -/
def OlderItemsRefused (city : String) (pack : Pack) (s : EventState) : Prop :=
  Accepted city pack s → ∀ item ∈ pack.items, ∀ row g, s.rows.get? item.id = some row →
    row.generatedAt = some g → pack.generatedAt < g →
    ∃ u, row.updatedAt = some u ∧ item.updatedAt < u

theorem accepts_eq_false {row : EventRow} :
    accepts row item = false ↔ ∃ u, row.updatedAt = some u ∧ item.updatedAt < u := by
  unfold accepts
  cases row.updatedAt <;> simp

theorem isAbsent_of_newer {id : String} {row : EventRow} {g : Time}
    (hg : row.generatedAt = some g) (hless : pack.generatedAt < g) :
    isAbsent env city pack id row = false := by
  have hlate : row.generatedAt.all (· ≤ pack.generatedAt) = false := by
    rw [hg]
    simpa using hless
  unfold isAbsent
  rw [hlate, Bool.and_false]

theorem neverStale_applied_iff (haccepted : Accepted city pack s) :
    NeverStale s.rows (applied env city pack s).rows pack ↔ OlderItemsRefused city pack s := by
  rw [neverStale_iff (rowwise_applied env city pack s)]
  constructor
  · intro hkeeps _ item hitem row g hrow hg hless
    exact accepts_eq_false.mp (Meeting.refused_of_kept (stamping env pack) hitem
      (haccepted.places item hitem) hg hless (hkeeps item.id row g hrow hg hless))
  · intro hguard id row g hrow hg hless
    rw [Pack.rowAfter]
    cases hitem : pack.item id with
    | some item =>
      obtain ⟨hmem, rfl⟩ := Pack.item_eq_some.mp hitem
      exact Meeting.row_of_refused
        (accepts_eq_false.mpr (hguard haccepted item hmem row g hrow hg hless))
    | none => simp [isAbsent_of_newer hg hless]

theorem syncStep_spec (env : SyncEnv) (s : EventState) (a : String × Pack) :
    (NeverStale s.rows (syncStep env s a).rows a.2 ↔ OlderItemsRefused a.1 a.2 s) ∧
      Stamps s.rows (syncStep env s a).rows a.2 ∧
      SameRows (syncStep env (syncStep env s a) a) (syncStep env s a) :=
  sync_spec (stamping env a.2) (fun _ _ => applyPack_iff) (rowwise_applied env a.1 a.2) accepted_again
    (fun hrefused haccepted => absurd haccepted hrefused) neverStale_applied_iff

end SocialActivities.Events.Go
