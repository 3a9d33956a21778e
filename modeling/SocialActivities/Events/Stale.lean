import SocialActivities.Events.GoSync
import SocialActivities.Events.PySync

/-!
# `SocialActivities.Events.Stale`: does a stale pack win?

A sync stamps every row it changes with the time of its snapshot (`Stamps`), so `NeverStale` says
that no row goes back to an older snapshot. Over any sequence of packs, that holds exactly when every
sync meets its language's condition (`no_stale_pack_iff`): the update times, which the items are
guarded by, agree with the snapshot times. They need not. A row that is removed by its absence keeps
its update time, so an older partial pack brings it back (`tombstone_revived`).
-/

namespace SocialActivities.Events

open Lib

/-- No sync of a run lets an older snapshot win, and none does more when it is repeated. -/
def NoStalePackWins (step : EventState → String × Pack → EventState) (s : EventState)
    (as : List (String × Pack)) : Prop :=
  ∀ q ∈ Machine.steps step s as, NeverStale q.1.rows (step q.1 q.2).rows q.2.2 ∧
    SameRows (step (step q.1 q.2) q.2) (step q.1 q.2)

/-- Over any sequence of packs, no stale pack wins exactly when every sync meets the condition of its
language. -/
theorem no_stale_pack_iff (go : Go.SyncEnv) (py : Py.SyncEnv) (s : EventState)
    (as : List (String × Pack)) :
    ((NoStalePackWins (Go.syncStep go) s as ↔ ∀ q ∈ Machine.steps (Go.syncStep go) s as,
        Go.OlderItemsRefused q.2.1 q.2.2 q.1) ∧
      ∀ q ∈ Machine.steps (Go.syncStep go) s as,
        Stamps q.1.rows (Go.syncStep go q.1 q.2).rows q.2.2) ∧
    (NoStalePackWins (Py.syncStep py) s as ↔ ∀ q ∈ Machine.steps (Py.syncStep py) s as,
        Py.OlderPackRefused py q.2.1 q.2.2 q.1) ∧
      ∀ q ∈ Machine.steps (Py.syncStep py) s as,
        Stamps q.1.rows (Py.syncStep py q.1 q.2).rows q.2.2 := by
  refine ⟨⟨forall₂_congr fun q _ => ?_, fun q _ => (Go.syncStep_spec go q.1 q.2).2.1⟩,
    forall₂_congr fun q _ => ?_, fun q _ => (Py.syncStep_spec py q.1 q.2).2.1⟩
  · obtain ⟨hnever, -, htwice⟩ := Go.syncStep_spec go q.1 q.2
    rw [hnever]
    exact and_iff_left htwice
  · obtain ⟨hnever, -, htwice⟩ := Py.syncStep_spec py q.1 q.2
    rw [hnever]
    exact and_iff_left htwice

/-! ### An event that comes back -/

/-- A concert, as the first snapshot lists it. -/
def concert : EventItem where
  place := some 1
  activityType := none
  facts := ⟨"Concert", 100, none, "", "", ""⟩
  source := ⟨"music", "Cluj-Napoca", some 1, "venue", none, none, "", "", none, none, "", none, ""⟩
  confidence := 1
  status := .scheduled

/-- The first snapshot, in a full or a partial pack. -/
def firstPack (complete : Bool) : Pack where
  id := "social"
  snapshot := "s1"
  generatedAt := 1
  complete := complete
  items := [⟨"concert", 1, .event concert⟩]
  nodup := by decide

/-- The second snapshot: the concert is gone. -/
def secondPack : Pack where
  id := "social"
  snapshot := "s2"
  generatedAt := 2
  complete := true
  items := []
  nodup := by decide

/-- No events yet. -/
def noEvents : EventState := ⟨.empty, .empty⟩

/-- The two snapshots, and then a partial pack of the first one. -/
def replay : List (String × Pack) :=
  [("Cluj-Napoca", firstPack true), ("Cluj-Napoca", secondPack), ("Cluj-Napoca", firstPack false)]

/-- The concert, as the second snapshot has removed it. -/
def removedConcert : EventRow where
  place := some 1
  activityType := none
  facts := concert.facts
  source := concert.source
  isImportHeld := false
  lifecycleStatus := .removed
  isTombstone := true
  packId := "social"
  releaseId := "s2"
  snapshotId := "s2"
  generatedAt := some 2
  updatedAt := some 1

/-- An event that the second snapshot has removed is back after a partial pack of the first one, in
both languages. -/
theorem tombstone_revived :
    ¬(∀ (env : Go.SyncEnv) (s : EventState) (as : List (String × Pack)),
      NoStalePackWins (Go.syncStep env) s as) ∧
    ¬∀ (env : Py.SyncEnv) (s : EventState) (as : List (String × Pack)),
      NoStalePackWins (Py.syncStep env) s as := by
  have hno : ¬(2 : Time) ≤ (firstPack false).generatedAt := by decide
  refine ⟨fun h => ?_, fun h => ?_⟩
  · have hlast := (h ⟨id, 0⟩ noEvents replay _
      (List.mem_cons_of_mem _ (List.mem_cons_of_mem _ List.mem_cons_self))).1
    exact hno (hlast "concert" removedConcert 2 (by decide +kernel) rfl (by decide +kernel))
  · have hlast := (h ⟨id, 0⟩ noEvents replay _
      (List.mem_cons_of_mem _ (List.mem_cons_of_mem _ List.mem_cons_self))).1
    exact hno (hlast "concert" removedConcert 2 (by decide +kernel) rfl (by decide +kernel))

end SocialActivities.Events
