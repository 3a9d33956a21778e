import SocialActivities.Lib.Calendar
import SocialActivities.Social.GoActivity
import SocialActivities.Social.PyActivity

/-!
# `SocialActivities.Social.Series`: recurring activities and the next instance of a series

A row of `social_activityseries` is a template with a cursor, `next_starts_at`: the slot that the
next instance takes. A tick handles each due series in a transaction of its own, under the lock of
its row, and spawns at most one instance. `spawnSeries` is that transaction, in Go and in Python.

`World` is what it finds about the owner, and what the creation of the instance decides. Both
implementations do the same kinds of steps (`SpawnStep`), and both spawn exactly when the series is
`Able`; they differ in the order of their checks, and in what they save when they do not spawn.
-/

namespace SocialActivities.Social

open Lib
open Lib.Calendar (Zone onDay addMonth dayLength)

inductive Cadence where
  | weekly
  | biweekly
  | monthly
  deriving DecidableEq

/-- `ActivitySeries.Status`. -/
inductive SeriesStatus where
  | active
  | paused
  | ended
  deriving DecidableEq

/-- The columns of a series that are copied to its instances. -/
structure Template where
  place : Nat
  activityType : Nat
  joinThreshold : Magnitude
  capacity : Option Nat
  minToGo : Option Nat
  guardianAccompanied : Bool
  supervised : Bool
  organizerNote : String
  durationMinutes : Option Nat
  deriving DecidableEq

/-- A row of `social_activityseries`. Times are in microseconds. -/
structure Series where
  owner : Nat
  cohort : Cohort
  template : Template
  cadence : Cadence
  anchorDay : Nat
  nextStartsAt : Nat
  nextInstanceNote : String
  status : SeriesStatus
  deriving DecidableEq

/-- What a row of `social_activity` with a `series_id` has from the series. -/
structure Instance where
  startsAt : Nat
  endsAt : Option Nat
  organizerNote : String
  cohort : Cohort
  deriving DecidableEq

/-- A series and its instances. -/
structure SeriesState where
  series : Series
  instances : List Instance
  deriving DecidableEq

/-- The instance that a tick asks to create. -/
structure Draft where
  template : Template
  startsAt : Nat
  endsAt : Option Nat
  organizerNote : String

/-- What a tick finds outside the series: its owner, and what the creation of an instance decides,
which pins the owner's cohort. -/
structure World where
  /-- The cohort of the owner's account, when there is one. -/
  cohort : Option Cohort
  /-- The owner passes the participation gate. -/
  participates : Bool
  /-- The cohort of the new activity; `none` when the creation is refused or fails. -/
  create : Draft → Option Cohort
  pinned : ∀ draft c, create draft = some c → cohort = some c

/-! ### Slots -/

/-- `AdvanceSlot` and `_advance_slot`: the next slot by the local clock. -/
def advanceSlot (z : Zone) (cadence : Cadence) (anchor t : Nat) : Nat :=
  match cadence with
  | .weekly => z.shift (fun wall => onDay (wall / dayLength + 7) wall) t
  | .biweekly => z.shift (fun wall => onDay (wall / dayLength + 14) wall) t
  | .monthly => z.shift (fun wall => onDay (addMonth anchor (wall / dayLength)) wall) t

/-- The loop that moves a cursor past the slots that are gone, with its guard. -/
def fastForward (z : Zone) (cadence : Cadence) (anchor now : Nat) : Nat → Nat → Nat
  | 0, t => t
  | guard + 1, t =>
    if t < now then fastForward z cadence anchor now guard (advanceSlot z cadence anchor t) else t

theorem lt_advanceSlot (z : Zone) (cadence : Cadence) (anchor t : Nat) :
    t < advanceSlot z cadence anchor t := by
  unfold advanceSlot
  cases cadence with
  | weekly => exact z.lt_shift (Calendar.onDay_ge (by omega))
  | biweekly => exact z.lt_shift (Calendar.onDay_ge (by omega))
  | monthly => exact z.lt_shift (Calendar.onDay_ge (Calendar.lt_addMonth _ _))

theorem le_fastForward (z : Zone) (cadence : Cadence) (anchor now guard t : Nat) :
    t ≤ fastForward z cadence anchor now guard t := by
  induction guard generalizing t with
  | zero => exact Nat.le_refl t
  | succ guard ih =>
    unfold fastForward
    split
    · have hnext := lt_advanceSlot z cadence anchor t
      have hrest := ih (advanceSlot z cadence anchor t)
      omega
    · exact Nat.le_refl t

namespace SeriesState

variable (s : SeriesState)

/-- `next_starts_at` is saved. -/
def withCursor (slot : Nat) : SeriesState := { s with series := { s.series with nextStartsAt := slot } }

def withStatus (status : SeriesStatus) : SeriesState := { s with series := { s.series with status } }

/-- The slot after one. -/
def after (z : Zone) (slot : Nat) : Nat := advanceSlot z s.series.cadence s.series.anchorDay slot

/-- The cursor moved to the first slot from `now` on. -/
def slot (z : Zone) (now : Nat) : Nat :=
  fastForward z s.series.cadence s.series.anchorDay now 240 s.series.nextStartsAt

/-- `EXISTS(... starts_at>=now)`. -/
def upcoming (now : Nat) : Bool := s.instances.any fun i => decide (now ≤ i.startsAt)

/-- `EXISTS(... starts_at=slot)`. -/
def taken (slot : Nat) : Bool := s.instances.any fun i => i.startsAt == slot

/-- `starts_at + duration`. -/
def endsAt (slot : Nat) : Option Nat :=
  (s.series.template.durationMinutes.filter (0 < ·)).map fun minutes =>
    slot + minutes * (60 * 10 ^ 6)

/-- The series and its instances after a spawn. -/
def spawned (z : Zone) (i : Instance) : SeriesState where
  series := { s.series with nextStartsAt := s.after z i.startsAt, nextInstanceNote := "" }
  instances := s.instances ++ [i]

end SeriesState

/-- The time up to which a tick spawns. `AddDate` steps by the clock of the server, which is in
universal time. -/
def leadOf (now leadDays : Nat) : Nat := now + leadDays * dayLength

/-- How the handling of a series counts in the summary. -/
inductive Outcome where
  | none
  | skipped
  | paused
  | spawned
  deriving DecidableEq

/-- What the transaction of one series leaves: the rows, the outcome and the new instance. -/
structure Handled where
  state : SeriesState
  outcome : Outcome
  new : Option Instance

/-! ### The transaction of one series -/

namespace Go

/-- The organizer note of the instance. -/
def noteWith (organizerNote note : String) : String :=
  if note != "" then
    (if organizerNote != "" then organizerNote ++ "\n\n" else organizerNote) ++ note
  else organizerNote

/-- One series in `SpawnDueSeries`. -/
def spawnSeries (z : Zone) (leadDays now : Nat) (w : World) (fails : Bool) (s : SeriesState) :
    Except Error Handled :=
  -- The locking read has `status='active'` again.
  if s.series.status != .active then .ok ⟨s, .none, none⟩ else
  match w.cohort with
  | none => .error .errNoRows
  | some cohort =>
    if cohort != s.series.cohort then do
      need Error.failed (!fails)
      pure ⟨s.withStatus .paused, .paused, none⟩
    else do
      -- An owner who is barred is an error, also when an instance is still to start.
      need Error.errForbidden w.participates
      if s.upcoming now then pure ⟨s, .none, none⟩ else
      let slot := s.slot z now
      -- A slot beyond the lead counts as skipped here, and as nothing in Python.
      if decide (slot < now) || decide (leadOf now leadDays < slot) then do
        need Error.failed (!fails)
        pure ⟨s.withCursor slot, .skipped, none⟩
      else if s.taken slot then do
        need Error.failed (!fails)
        pure ⟨s.withCursor (s.after z slot), .none, none⟩
      else
        let note := noteWith s.series.template.organizerNote s.series.nextInstanceNote
        match w.create ⟨s.series.template, slot, s.endsAt slot, note⟩ with
        | none => .error .errForbidden
        | some cohort => do
          need Error.failed (!fails)
          let i : Instance := ⟨slot, s.endsAt slot, note, cohort⟩
          pure ⟨s.spawned z i, .spawned, some i⟩

end Go

namespace Py

/-- The organizer note of the instance. -/
def noteWith (organizerNote note : String) : String :=
  String.join (([organizerNote, note].filter (· != "")).intersperse "\n\n")

/-- One series in `spawn_due_series`. -/
def spawnSeries (z : Zone) (leadDays now : Nat) (w : World) (fails : Bool) (s : SeriesState) :
    Except Error Handled :=
  if s.series.status != .active then .ok ⟨s, .none, none⟩ else
  if w.cohort != some s.series.cohort then do
    need Error.failed (!fails)
    pure ⟨s.withStatus .paused, .paused, none⟩
  else if s.upcoming now then .ok ⟨s, .none, none⟩ else
  let slot := s.slot z now
  if slot < now then do
    -- The guard of the loop was reached.
    need Error.failed (!fails)
    pure ⟨s.withCursor slot, .skipped, none⟩
  else if leadOf now leadDays < slot then do
    need Error.failed (!fails)
    pure ⟨s.withCursor slot, .none, none⟩
  else if s.taken slot then do
    need Error.failed (!fails)
    pure ⟨s.withCursor (s.after z slot), .none, none⟩
  else do
    let note := noteWith s.series.template.organizerNote s.series.nextInstanceNote
    -- The gate is the first check of `create_activity`.
    need Error.notEligible w.participates
    match w.create ⟨s.series.template, slot, s.endsAt slot, note⟩ with
    | none => .error .invalidState
    | some cohort => do
      need Error.failed (!fails)
      let i : Instance := ⟨slot, s.endsAt slot, note, cohort⟩
      pure ⟨s.spawned z i, .spawned, some i⟩

end Py

/-! ### The owner and the creation of an instance -/

namespace Go

/-- What the instance is created from. -/
def Draft.input (draft : Draft) : ActivityInput where
  place := draft.template.place
  activityType := draft.template.activityType
  startsAt := draft.startsAt
  endsAt := draft.endsAt
  joinThreshold := some ⟨false, draft.template.joinThreshold⟩
  capacity := draft.template.capacity.map Int.ofNat
  minToGo := draft.template.minToGo.map Int.ofNat
  guardianAccompanied := draft.template.guardianAccompanied
  supervised := draft.template.supervised
  textsValid := true

/-- `createActivity` for a series: the part of a creation after its checks of the request. -/
def createInstance (env : Env) (a : Actor) (input : ActivityInput) : Except Error State := do
  need Error.errInvalid (!input.supervised || a.user.cohort == .child)
  let guardianAccompanied := input.supervised || input.guardianAccompanied
  need Error.errInvalid (!guardianAccompanied || a.user.cohort == .child)
  childCreateGate env a input.place input.activityType
  publicPlace env a input.place false
  need Error.errForbidden (env.typeActive input.activityType)
  pure (created a input guardianAccompanied)

theorem cohort_createInstance {env : Env} {a : Actor} {input : ActivityInput} {s : State}
    (h : createInstance env a input = .ok s) : s.activity.cohort = a.user.cohort := by
  unfold createInstance at h
  rw [seq_eq_ok] at h
  replace h := h.2
  dsimp only at h
  rw [seq_eq_ok, seq_eq_ok, seq_eq_ok, seq_eq_ok, pure_eq_ok] at h
  rw [← h.2.2.2.2]
  rfl

/-- What a tick finds of the owner. -/
def world (env : Env) (owner : Nat) : World where
  cohort := (env.users owner).map User.cohort
  participates := env.participates owner
  create := fun draft => (env.users owner).bind fun user =>
    (createInstance env ⟨owner, user⟩ (Draft.input draft)).toOption.map fun s => s.activity.cohort
  pinned := by
    intro draft c hcreate
    obtain ⟨user, huser, hmap⟩ := Option.bind_eq_some_iff.mp hcreate
    obtain ⟨s, hs, rfl⟩ := Option.map_eq_some_iff.mp hmap
    cases hok : createInstance env ⟨owner, user⟩ (Draft.input draft) with
    | error =>
      rw [hok] at hs
      cases hs
    | ok =>
      rw [hok] at hs
      rw [huser, ← Option.some.inj hs, cohort_createInstance hok]
      rfl

end Go

namespace Py

/-- What the instance is created from. -/
def Draft.new (draft : Draft) : NewActivity where
  place := draft.template.place
  activityType := draft.template.activityType
  startsAt := draft.startsAt
  endsAt := draft.endsAt
  joinThreshold := some draft.template.joinThreshold
  capacity := draft.template.capacity
  minToGo := draft.template.minToGo
  guardianAccompanied := draft.template.guardianAccompanied
  supervised := draft.template.supervised
  costValid := true

theorem cohort_createActivity {env : Env} {owner : Nat} {new : NewActivity} {s : State}
    (h : createActivity env owner new false = .ok s) : s.activity.cohort = env.cohort owner := by
  unfold createActivity at h
  rw [seq_eq_ok] at h
  replace h := h.2
  dsimp only at h
  rw [seq_eq_ok] at h
  replace h := h.2
  iterate 7 rw [seq_eq_ok] at h
  replace h := h.2.2.2.2.2.2.2
  rw [seq_eq_ok, seq_eq_ok, pure_eq_ok] at h
  rw [← h.2.2]
  rfl

/-- What a tick finds of the owner. -/
def world (env : Env) (owner : Nat) : World where
  cohort := some (env.cohort owner)
  participates := env.canCreateActivity owner
  create := fun draft =>
    (createActivity env owner (Draft.new draft) false).toOption.map fun s => s.activity.cohort
  pinned := by
    intro draft c hcreate
    obtain ⟨s, hs, rfl⟩ := Option.map_eq_some_iff.mp hcreate
    cases hok : createActivity env owner (Draft.new draft) false with
    | error =>
      rw [hok] at hs
      cases hs
    | ok =>
      rw [hok] at hs
      rw [← Option.some.inj hs, cohort_createActivity hok]

end Py

/-! ### What the transaction does -/

theorem noteWith_eq (organizerNote note : String) :
    Py.noteWith organizerNote note = Go.noteWith organizerNote note := by
  unfold Py.noteWith Go.noteWith
  by_cases hnote : note = ""
  · by_cases horganizer : organizerNote = ""
    · simp [hnote, horganizer]
    · simp [hnote, horganizer]
  · by_cases horganizer : organizerNote = ""
    · simp [hnote, horganizer]
    · simp [hnote, horganizer, String.join]

/-- All that the transaction of one series can do. -/
inductive SpawnStep (z : Zone) (leadDays now : Nat) (w : World) (s : SeriesState) :
    Handled → Prop where
  | kept {r : Handled} (hstate : r.state = s) (hnew : r.new = none)
      (hcount : r.outcome ≠ .spawned) : SpawnStep z leadDays now w s r
  | paused {r : Handled} (hactive : s.series.status = .active)
      (hdrift : w.cohort ≠ some s.series.cohort) (hstate : r.state = s.withStatus .paused)
      (hnew : r.new = none) (hcount : r.outcome ≠ .spawned) : SpawnStep z leadDays now w s r
  | moved {r : Handled} (slot : Nat) (hle : s.series.nextStartsAt ≤ slot)
      (hactive : s.series.status = .active)
      (hstate : r.state = s.withCursor slot) (hnew : r.new = none)
      (hcount : r.outcome ≠ .spawned) : SpawnStep z leadDays now w s r
  | spawned {r : Handled} (i : Instance) (hactive : s.series.status = .active)
      (hcohort : w.cohort = some s.series.cohort) (hparticipates : w.participates = true)
      (hupcoming : s.upcoming now = false)
      (hslot : i.startsAt = s.slot z now) (hnow : now ≤ i.startsAt)
      (hlead : i.startsAt ≤ leadOf now leadDays) (htaken : s.taken i.startsAt = false)
      (hends : i.endsAt = s.endsAt i.startsAt)
      (hnote : i.organizerNote =
        Go.noteWith s.series.template.organizerNote s.series.nextInstanceNote)
      (hpinned : w.create ⟨s.series.template, i.startsAt, i.endsAt, i.organizerNote⟩ =
        some i.cohort)
      (hstate : r.state = s.spawned z i) (hnew : r.new = some i)
      (hcount : r.outcome = .spawned) : SpawnStep z leadDays now w s r

section
variable {z : Zone} {leadDays now : Nat} {w : World} {fails : Bool} {s : SeriesState} {r : Handled}

theorem le_slot (z : Zone) (s : SeriesState) (now : Nat) :
    s.series.nextStartsAt ≤ s.slot z now := le_fastForward ..

theorem Go.spawnSeries_spec (h : Go.spawnSeries z leadDays now w fails s = .ok r) :
    SpawnStep z leadDays now w s r := by
  unfold Go.spawnSeries at h
  split at h
  · rw [← Except.ok.inj h]
    exact .kept rfl rfl (by simp)
  · rename_i hstatus
    have hactive : s.series.status = .active := by simpa using hstatus
    split at h
    · cases h
    · rename_i cohort hcohort
      split at h
      · rename_i hdrift
        -- The owner is in another cohort.
        rw [seq_eq_ok, pure_eq_ok] at h
        rw [← h.2]
        refine .paused hactive ?_ rfl rfl (by simp)
        rw [hcohort]
        simpa using hdrift
      · rename_i hsame
        have hpin : cohort = s.series.cohort := by simpa using hsame
        rw [hpin] at hcohort
        rw [seq_eq_ok, need_eq_ok] at h
        obtain ⟨hparticipates, h⟩ := h
        split at h
        · rw [← Except.ok.inj h]
          exact .kept rfl rfl (by simp)
        · rename_i hupcoming
          dsimp only at h
          split at h
          · -- The slot is in the past or beyond the lead.
            rw [seq_eq_ok, pure_eq_ok] at h
            rw [← h.2]
            exact .moved _ (le_slot z s now) hactive rfl rfl (by simp)
          · rename_i hwindow
            rw [Bool.or_eq_true, decide_eq_true_eq, decide_eq_true_eq, not_or] at hwindow
            split at h
            · -- The slot is taken, and the cursor goes past it.
              rw [seq_eq_ok, pure_eq_ok] at h
              rw [← h.2]
              refine .moved _ ?_ hactive rfl rfl (by simp)
              exact Nat.le_of_lt (Nat.lt_of_le_of_lt (le_slot z s now) (lt_advanceSlot ..))
            · rename_i htaken
              split at h
              · cases h
              · rename_i c hcreate
                rw [seq_eq_ok, pure_eq_ok] at h
                rw [← h.2]
                exact .spawned _ hactive hcohort hparticipates (by simpa using hupcoming) rfl
                  (Nat.not_lt.mp hwindow.1) (Nat.not_lt.mp hwindow.2) (by simpa using htaken) rfl
                  rfl hcreate rfl rfl rfl

theorem Py.spawnSeries_spec (h : Py.spawnSeries z leadDays now w fails s = .ok r) :
    SpawnStep z leadDays now w s r := by
  unfold Py.spawnSeries at h
  -- The branches in the order of the source.
  split at h
  · rw [← Except.ok.inj h]
    exact .kept rfl rfl (by simp)
  · rename_i hstatus
    have hactive : s.series.status = .active := by simpa using hstatus
    split at h
    · rename_i hdrift
      rw [seq_eq_ok, pure_eq_ok] at h
      rw [← h.2]
      exact .paused hactive (by simpa using hdrift) rfl rfl (by simp)
    · rename_i hsame
      have hcohort : w.cohort = some s.series.cohort := by simpa using hsame
      split at h
      · rw [← Except.ok.inj h]
        exact .kept rfl rfl (by simp)
      · rename_i hupcoming
        dsimp only at h
        split at h
        · -- The slot is still in the past.
          rw [seq_eq_ok, pure_eq_ok] at h
          rw [← h.2]
          exact .moved _ (le_slot z s now) hactive rfl rfl (by simp)
        · rename_i hnow
          split at h
          · -- The slot is beyond the lead.
            rw [seq_eq_ok, pure_eq_ok] at h
            rw [← h.2]
            exact .moved _ (le_slot z s now) hactive rfl rfl (by simp)
          · rename_i hlead
            split at h
            · -- The slot is taken, and the cursor goes past it.
              rw [seq_eq_ok, pure_eq_ok] at h
              rw [← h.2]
              refine .moved _ ?_ hactive rfl rfl (by simp)
              exact Nat.le_of_lt (Nat.lt_of_le_of_lt (le_slot z s now) (lt_advanceSlot ..))
            · rename_i htaken
              rw [seq_eq_ok, need_eq_ok] at h
              obtain ⟨hparticipates, h⟩ := h
              split at h
              · cases h
              · rename_i c hcreate
                rw [seq_eq_ok, pure_eq_ok] at h
                rw [← h.2]
                exact .spawned _ hactive hcohort hparticipates (by simpa using hupcoming) rfl
                  (Nat.not_lt.mp hnow) (Nat.not_lt.mp hlead) (by simpa using htaken) rfl
                  (noteWith_eq ..) hcreate rfl rfl rfl

end

end SocialActivities.Social
