import SocialActivities.Social.Series

/-!
# `SocialActivities.Social.SeriesRuns`: every order of ticks and requests on one series

The requests of the owner and the ticks that handle the series, as two machines. In Go a request
locks the row, reads it and writes it in one step. In Python a request loads the row first and
checks its copy later, when the row may be another; so the copies are part of the state. The other
operations may change the template and the instances in any way.

`Engine` is what both machines have in common: a tick is a `SpawnStep`, and everything else leaves
the cursor as it is. `SpawnSafe` collects what a run of an engine promises about the instances it
spawns, and `spawnSafe` proves it of every engine.
-/

namespace SocialActivities.Social

open Lib
open Lib.Calendar (Zone)
open Lib.Machine (run steps emitted)

/-- `next_instance_note` is saved. -/
def SeriesState.withNote (s : SeriesState) (note : String) : SeriesState :=
  { s with series := { s.series with nextInstanceNote := note } }

/-- The longest note. -/
def nextInstanceNoteMax : Nat := 500

/-- A text without the blanks at its ends, cut to the longest note. -/
def clipNote (isSpace : Char → Bool) (note : String) : String :=
  let left := note.toList.dropWhile isSpace
  let trimmed := (left.reverse.dropWhile isSpace).reverse
  String.ofList (trimmed.take nextInstanceNoteMax)

/-- The white space of Unicode. -/
def isWhiteSpace (c : Char) : Bool :=
  let n := c.toNat
  (decide (9 ≤ n) && decide (n ≤ 13)) || n == 32 || n == 0x85 || n == 0xA0 || n == 0x1680 ||
    (decide (0x2000 ≤ n) && decide (n ≤ 0x200A)) || n == 0x2028 || n == 0x2029 || n == 0x202F ||
    n == 0x205F || n == 0x3000

/-! ### The requests -/

namespace Go

/-- The actions of `TransitionSeries`. -/
inductive SeriesAction where
  | pause
  | resume
  | close
  | other
  deriving DecidableEq

/-- The status that an action gives the series. -/
def nextStatus (env : Env) (a : Actor) (action : SeriesAction) (s : SeriesState) :
    Except Error SeriesStatus :=
  match action with
  | .pause => do
    need Error.errInvalid (s.series.status == .active)
    pure .paused
  | .resume => do
    need Error.errInvalid (s.series.status == .paused)
    -- Only a resume asks for the gate.
    participate env a
    pure .active
  | .close => do
    need Error.errInvalid (s.series.status != .ended)
    pure .ended
  | .other => .error .errInvalid

def transitionSeries (env : Env) (a : Actor) (action : SeriesAction) (fails : Bool)
    (s : SeriesState) : Except Error SeriesState := do
  privacyGate a
  need Error.errForbidden (s.series.owner == a.id)
  let next ← nextStatus env a action s
  need Error.failed (!fails)
  pure (s.withStatus next)

def setSeriesNote (a : Actor) (note : String) (fails : Bool) (s : SeriesState) :
    Except Error SeriesState := do
  privacyGate a
  need Error.errForbidden (s.series.owner == a.id && s.series.status != .ended)
  need Error.failed (!fails)
  pure (s.withNote (clipNote isWhiteSpace note))

/-- One step on a series. `edit` is any change of the template and of the instances by other
operations. -/
inductive SeriesOp where
  | tick (env : Env) (now : Nat) (fails : Bool)
  | transition (env : Env) (a : Actor) (action : SeriesAction) (fails : Bool)
  | note (a : Actor) (note : String) (fails : Bool)
  | edit (template : Template) (instances : List Instance)

/-- The series after one step: an error is rolled back. -/
def seriesStep (z : Zone) (leadDays : Nat) (s : SeriesState) : SeriesOp → SeriesState
  | .tick env now fails =>
    match spawnSeries z leadDays now (world env s.series.owner) fails s with
    | .ok r => r.state
    | .error _ => s
  | .transition env a action fails =>
    match transitionSeries env a action fails s with
    | .ok s' => s'
    | .error _ => s
  | .note a note fails =>
    match setSeriesNote a note fails s with
    | .ok s' => s'
    | .error _ => s
  | .edit template instances => ⟨{ s.series with template }, instances⟩

end Go

namespace Py

/-- What `str.strip` takes off. -/
def isSpace (c : Char) : Bool := isWhiteSpace c || (decide (0x1C ≤ c.toNat) && decide (c.toNat ≤ 0x1F))

/-- `pause_series`, on the copy that the view has loaded. -/
def pauseSeries (owner : Nat) (loaded : Series) (fails : Bool) (s : SeriesState) :
    Except Error SeriesState := do
  need Error.notAMember (loaded.owner == owner)
  need Error.invalidState (loaded.status == .active)
  need Error.failed (!fails)
  pure (s.withStatus .paused)

def resumeSeries (owner : Nat) (loaded : Series) (fails : Bool) (s : SeriesState) :
    Except Error SeriesState := do
  need Error.notAMember (loaded.owner == owner)
  need Error.invalidState (loaded.status == .paused)
  need Error.failed (!fails)
  pure (s.withStatus .active)

def endSeries (owner : Nat) (loaded : Series) (fails : Bool) (s : SeriesState) :
    Except Error SeriesState := do
  need Error.notAMember (loaded.owner == owner)
  need Error.invalidState (loaded.status != .ended)
  need Error.failed (!fails)
  pure (s.withStatus .ended)

def setNextInstanceNote (owner : Nat) (loaded : Series) (note : String) (fails : Bool)
    (s : SeriesState) : Except Error SeriesState := do
  need Error.notAMember (loaded.owner == owner)
  need Error.invalidState (loaded.status != .ended)
  need Error.failed (!fails)
  pure (s.withNote (clipNote isSpace note))

/-- A series, and the copies that requests have loaded. -/
structure SeriesRequests where
  base : SeriesState
  loaded : KeyMap Nat Series

/-- One step on a series. `load` is the read of a view, and the other requests go on with what it
has read. -/
inductive SeriesOp where
  | tick (env : Env) (now : Nat) (fails : Bool)
  | load (request : Nat)
  | pause (request owner : Nat) (fails : Bool)
  | resume (request owner : Nat) (fails : Bool)
  | close (request owner : Nat) (fails : Bool)
  | note (request owner : Nat) (note : String) (fails : Bool)
  | edit (template : Template) (instances : List Instance)

namespace SeriesRequests

variable (s : SeriesRequests)

/-- A service on the copy of a request: an error is rolled back. -/
def serve (request : Nat) (service : Series → SeriesState → Except Error SeriesState) :
    SeriesRequests :=
  match s.loaded.get? request with
  | some loaded =>
    match service loaded s.base with
    | .ok base => { s with base }
    | .error _ => s
  | none => s

/-- The series after one step. -/
def step (z : Zone) (leadDays : Nat) : SeriesOp → SeriesRequests
  | .tick env now fails =>
    match spawnSeries z leadDays now (world env s.base.series.owner) fails s.base with
    | .ok r => { s with base := r.state }
    | .error _ => s
  | .load request => { s with loaded := s.loaded.set request s.base.series }
  | .pause request owner fails => s.serve request fun loaded => pauseSeries owner loaded fails
  | .resume request owner fails => s.serve request fun loaded => resumeSeries owner loaded fails
  | .close request owner fails => s.serve request fun loaded => endSeries owner loaded fails
  | .note request owner note fails =>
    s.serve request fun loaded => setNextInstanceNote owner loaded note fails
  | .edit template instances =>
    { s with base := ⟨{ s.base.series with template }, instances⟩ }

end SeriesRequests

end Py

/-! ### Engines -/

/-- A tick on a series: its time, what it finds, and what it leaves unless it fails. -/
structure Tick where
  now : Nat
  world : World
  result : Option Handled

/-- A machine that runs a series. -/
structure Engine (σ α : Type) (z : Zone) (leadDays : Nat) where
  step : σ → α → σ
  view : σ → SeriesState
  /-- The tick that an action is. -/
  tick : σ → α → Option Tick
  /-- Is the action a request to set the note? -/
  setsNote : α → Bool
  tick_ok : ∀ {s a t r}, tick s a = some t → t.result = some r →
    SpawnStep z leadDays t.now t.world (view s) r ∧ view (step s a) = r.state
  tick_failed : ∀ {s a t}, tick s a = some t → t.result = none → step s a = s
  other : ∀ {s a}, tick s a = none →
    (view (step s a)).series.nextStartsAt = (view s).series.nextStartsAt ∧
      (setsNote a = false →
        (view (step s a)).series.nextInstanceNote = (view s).series.nextInstanceNote)

namespace Engine

variable {σ α : Type} {z : Zone} {leadDays : Nat} (E : Engine σ α z leadDays)

/-- The instance that a step spawns. -/
def new (s : σ) (a : α) : Option Instance :=
  (E.tick s a).bind fun t => t.result.bind Handled.new

/-- The note that is staged. -/
def staged (s : σ) : String := (E.view s).series.nextInstanceNote

/-- What a run promises about the instances that it spawns. -/
structure SpawnSafe (s : σ) (as : List α) : Prop where
  /-- Each instance takes a later slot than the ones before it, so no slot is taken twice. -/
  slots : (emitted E.step E.new s as).Pairwise (fun i j => i.startsAt < j.startsAt)
  /-- No instance is spawned while one is to start. -/
  alone : ∀ q ∈ steps E.step s as, ∀ t i, E.tick q.1 q.2 = some t → E.new q.1 q.2 = some i →
    ∀ j ∈ (E.view q.1).instances, j.startsAt < t.now
  window : ∀ q ∈ steps E.step s as, ∀ t i, E.tick q.1 q.2 = some t → E.new q.1 q.2 = some i →
    t.now ≤ i.startsAt ∧ i.startsAt ≤ leadOf t.now leadDays
  cursor : ∀ q ∈ steps E.step s as,
    (E.view q.1).series.nextStartsAt ≤ (E.view (E.step q.1 q.2)).series.nextStartsAt
  /-- A spawn takes the staged note and clears it, and only a spawn or a request changes it. -/
  note : ∀ q ∈ steps E.step s as,
    (∀ i, E.new q.1 q.2 = some i → i.organizerNote =
      Go.noteWith (E.view q.1).series.template.organizerNote (E.staged q.1) ∧
        E.staged (E.step q.1 q.2) = "") ∧
    (E.new q.1 q.2 = none → E.setsNote q.2 = false →
      E.staged (E.step q.1 q.2) = E.staged q.1)
  /-- A note that is staged at a spawn was set after the spawn before. -/
  noteOnce : ∀ before p mid q after, as = before ++ p :: (mid ++ q :: after) →
    (E.new (run E.step s before) p).isSome → (E.new (run E.step s (before ++ p :: mid)) q).isSome →
    E.staged (run E.step s (before ++ p :: mid)) ≠ "" → ∃ r ∈ mid, E.setsNote r = true
  failed : ∀ q ∈ steps E.step s as, ∀ t, E.tick q.1 q.2 = some t → t.result = none →
    E.step q.1 q.2 = q.1
  cohort : ∀ q ∈ steps E.step s as, ∀ t i, E.tick q.1 q.2 = some t → E.new q.1 q.2 = some i →
    t.world.cohort = some i.cohort

variable {E}

variable {i : Instance} {a : α} {s : σ}

theorem spawned_of_new {t : Tick} (ht : E.tick s a = some t) (hnew : E.new s a = some i) :
    ∃ r, SpawnStep z leadDays t.now t.world (E.view s) r ∧ r.new = some i ∧
      E.view (E.step s a) = r.state := by
  unfold new at hnew
  rw [ht, Option.bind_some] at hnew
  obtain ⟨r, hresult, hr⟩ := Option.bind_eq_some_iff.mp hnew
  obtain ⟨hstep, hview⟩ := E.tick_ok ht hresult
  exact ⟨r, hstep, hr, hview⟩

theorem tick_of_new (hnew : E.new s a = some i) :
    ∃ t, E.tick s a = some t := by
  obtain ⟨t, ht, -⟩ := Option.bind_eq_some_iff.mp hnew
  exact ⟨t, ht⟩

/-- What is known of an instance that a tick has spawned. -/
theorem new_spec {t : Tick} (ht : E.tick s a = some t) (hnew : E.new s a = some i) :
    (E.view s).series.nextStartsAt ≤ i.startsAt ∧
      i.startsAt < (E.view (E.step s a)).series.nextStartsAt ∧
      (E.view s).upcoming t.now = false ∧ t.now ≤ i.startsAt ∧
      i.startsAt ≤ leadOf t.now leadDays ∧
      i.organizerNote =
        Go.noteWith (E.view s).series.template.organizerNote (E.staged s) ∧
      E.staged (E.step s a) = "" ∧ t.world.cohort = some i.cohort := by
  obtain ⟨r, hstep, hr, hview⟩ := spawned_of_new ht hnew
  cases hstep with
  -- Only a spawn has a new instance.
  | kept _ hnone => rw [hnone] at hr; cases hr
  | paused _ _ _ hnone => rw [hnone] at hr; cases hr
  | moved _ _ _ _ hnone => rw [hnone] at hr; cases hr
  | spawned j _ hcohort _ hupcoming hslot hnow hlead _ _ hnote hcreate hstate hsome =>
    obtain rfl : j = i := Option.some.inj (hsome.symm.trans hr)
    have hle := le_slot z (E.view s) t.now
    refine ⟨hslot ▸ hle, ?_, hupcoming, hnow, hlead, hnote, ?_, ?_⟩
    · rw [hview, hstate]
      exact lt_advanceSlot ..
    · unfold staged
      rw [hview, hstate]
      rfl
    · exact t.world.pinned _ _ hcreate

theorem cursor_step (s : σ) (a : α) :
    (E.view s).series.nextStartsAt ≤ (E.view (E.step s a)).series.nextStartsAt := by
  cases ht : E.tick s a with
  | none => exact Nat.le_of_eq (E.other ht).1.symm
  | some t =>
    cases hresult : t.result with
    | none => rw [E.tick_failed ht hresult]
    | some =>
      obtain ⟨hstep, hview⟩ := E.tick_ok ht hresult
      rw [hview]
      cases hstep with
      | kept hstate => rw [hstate]
      | paused _ _ hstate => rw [hstate]; exact Nat.le_refl _
      | moved _ hle _ hstate => rw [hstate]; exact hle
      | spawned i _ _ _ _ hslot _ _ _ _ _ _ hstate =>
        rw [hstate]
        have hle := le_slot z (E.view s) t.now
        exact Nat.le_of_lt (Nat.lt_of_le_of_lt (hslot ▸ hle) (lt_advanceSlot ..))

theorem staged_step (hnew : E.new s a = none) (hset : E.setsNote a = false) :
    E.staged (E.step s a) = E.staged s := by
  unfold staged
  cases ht : E.tick s a with
  | none => exact (E.other ht).2 hset
  | some t =>
    cases hresult : t.result with
    | none => rw [E.tick_failed ht hresult]
    | some =>
      obtain ⟨hstep, hview⟩ := E.tick_ok ht hresult
      rw [hview]
      cases hstep with
      | kept hstate => rw [hstate]
      | paused _ _ hstate => rw [hstate]; rfl
      | moved _ _ _ hstate => rw [hstate]; rfl
      | spawned i _ _ _ _ _ _ _ _ _ _ _ _ hsome =>
        -- A spawn has a new instance.
        unfold new at hnew
        rw [ht, Option.bind_some, hresult, Option.bind_some, hsome] at hnew
        cases hnew

theorem setsNote_of_staged (hbefore : E.staged s = "")
    (hafter : E.staged (E.step s a) ≠ "") : E.setsNote a = true := by
  cases hset : E.setsNote a with
  | true => rfl
  | false =>
    cases hnew : E.new s a with
    | none => exact absurd ((staged_step hnew hset).trans hbefore) hafter
    | some =>
      obtain ⟨t, ht⟩ := tick_of_new hnew
      obtain ⟨-, -, -, -, -, -, hcleared, -⟩ := new_spec ht hnew
      exact absurd hcleared hafter

theorem spawnSafe (E : Engine σ α z leadDays) (s : σ) (as : List α) : E.SpawnSafe s as := by
  constructor
  case slots =>
    -- A spawned slot is from the cursor before its step on and below the cursor after it.
    refine Lib.Machine.emitted_pairwise (fun s => (E.view s).series.nextStartsAt)
      cursor_step (fun s a i hnew => ?_) s as
    obtain ⟨t, ht⟩ := tick_of_new hnew
    obtain ⟨hle, hlt, -⟩ := new_spec ht hnew
    exact ⟨hle, hlt⟩
  case alone =>
    intro q _ t i ht hnew j hj
    obtain ⟨-, -, hupcoming, -⟩ := new_spec ht hnew
    unfold SeriesState.upcoming at hupcoming
    rw [List.any_eq_false] at hupcoming
    have hnot := hupcoming j hj
    simpa using hnot
  case window =>
    intro q _ t i ht hnew
    obtain ⟨-, -, -, hnow, hlead, -⟩ := new_spec ht hnew
    exact ⟨hnow, hlead⟩
  case cursor =>
    intro q _
    exact cursor_step q.1 q.2
  case note =>
    intro q _
    refine ⟨fun i hnew => ?_, staged_step⟩
    obtain ⟨t, ht⟩ := tick_of_new hnew
    obtain ⟨-, -, -, -, -, hnote, hcleared, -⟩ := new_spec ht hnew
    exact ⟨hnote, hcleared⟩
  case noteOnce =>
    rintro before p mid q after - hp - hstaged
    obtain ⟨i, hnew⟩ := Option.isSome_iff_exists.mp hp
    obtain ⟨t, ht⟩ := tick_of_new hnew
    obtain ⟨-, -, -, -, -, -, hcleared, -⟩ := new_spec ht hnew
    -- Nothing is staged after the first spawn, so a step before the second stages the note.
    rw [← Lib.Machine.run_concat E.step] at hcleared
    have hsplit : before ++ p :: mid = (before ++ [p]) ++ mid := by simp
    rw [hsplit, Lib.Machine.run_append] at hstaged
    obtain ⟨r, hr, hno, hyes⟩ := Lib.Machine.exists_turn (fun s => E.staged s ≠ "")
      (not_not.mpr hcleared) hstaged
    obtain ⟨left, right, hmid, -⟩ := (Lib.Machine.mem_steps E.step).mp hr
    refine ⟨r.2, ?_, setsNote_of_staged (not_not.mp hno) hyes⟩
    rw [hmid]
    simp
  case failed =>
    intro q _ t ht hresult
    exact E.tick_failed ht hresult
  case cohort =>
    intro q _ t i ht hnew
    obtain ⟨-, -, -, -, -, -, -, hcohort⟩ := new_spec ht hnew
    exact hcohort

end Engine

/-! ### The two machines are engines -/

namespace Go

section
variable {env : Env} {a : Actor} {fails : Bool} {s s' : SeriesState}

theorem transitionSeries_spec {action : SeriesAction}
    (h : transitionSeries env a action fails s = .ok s') :
    ∃ next, nextStatus env a action s = .ok next ∧ s' = s.withStatus next := by
  unfold transitionSeries at h
  rw [seq_eq_ok, seq_eq_ok, bind_eq_ok] at h
  obtain ⟨-, -, next, hnext, h⟩ := h
  rw [seq_eq_ok, pure_eq_ok] at h
  exact ⟨next, hnext, h.2.symm⟩

theorem setSeriesNote_spec {note : String} (h : setSeriesNote a note fails s = .ok s') :
    s.series.status ≠ .ended ∧ s' = s.withNote (clipNote isWhiteSpace note) := by
  unfold setSeriesNote at h
  rw [seq_eq_ok, seq_eq_ok, need_eq_ok, Bool.and_eq_true, bne_iff_ne, seq_eq_ok, pure_eq_ok] at h
  exact ⟨h.2.1.2, h.2.2.2.symm⟩

end

/-- The tick that a step is. -/
def seriesTick (z : Zone) (leadDays : Nat) (s : SeriesState) : SeriesOp → Option Tick
  | .tick env now fails =>
    let w := world env s.series.owner
    some ⟨now, w, (spawnSeries z leadDays now w fails s).toOption⟩
  | _ => none

def setsNote : SeriesOp → Bool
  | .note _ _ _ => true
  | _ => false

def engine (z : Zone) (leadDays : Nat) : Engine SeriesState SeriesOp z leadDays where
  step := seriesStep z leadDays
  view := id
  tick := seriesTick z leadDays
  setsNote := setsNote
  tick_ok := by
    intro s op t r ht hresult
    cases op with
    | tick env now fails =>
      obtain rfl := Option.some.inj ht
      have hspawn := toOption_eq_some.mp hresult
      unfold seriesStep
      dsimp only
      rw [hspawn]
      exact ⟨spawnSeries_spec hspawn, rfl⟩
    | transition | note | edit => cases ht
  tick_failed := by
    intro s op t ht hresult
    cases op with
    | tick env now fails =>
      obtain rfl := Option.some.inj ht
      obtain ⟨e, hspawn⟩ := toOption_eq_none.mp hresult
      unfold seriesStep
      dsimp only
      rw [hspawn]
    | transition | note | edit => cases ht
  other := by
    intro s op ht
    unfold seriesStep
    cases op with
    | tick => cases ht
    | transition env a action fails =>
      dsimp only
      cases htransition : transitionSeries env a action fails s with
      | error => exact ⟨rfl, fun _ => rfl⟩
      | ok =>
        obtain ⟨next, -, rfl⟩ := transitionSeries_spec htransition
        exact ⟨rfl, fun _ => rfl⟩
    | note a note fails =>
      dsimp only
      cases hset : setSeriesNote a note fails s with
      | error => exact ⟨rfl, fun _ => rfl⟩
      | ok =>
        obtain ⟨-, rfl⟩ := setSeriesNote_spec hset
        exact ⟨rfl, fun h => (by cases h)⟩
    | edit => exact ⟨rfl, fun _ => rfl⟩

end Go

namespace Py

namespace SeriesRequests

theorem serve_cases (s : SeriesRequests) (request : Nat)
    (service : Series → SeriesState → Except Error SeriesState) :
    s.serve request service = s ∨
      ∃ loaded base, s.loaded.get? request = some loaded ∧ service loaded s.base = .ok base ∧
        s.serve request service = { s with base } := by
  unfold serve
  cases hloaded : s.loaded.get? request with
  | none => exact Or.inl rfl
  | some loaded =>
    dsimp only
    cases hservice : service loaded s.base with
    | error => exact Or.inl rfl
    | ok base => exact Or.inr ⟨loaded, base, rfl, hservice, rfl⟩

/-- A service that changes the status, as a step that is not a tick. -/
theorem serve_other {p : Prop} (s : SeriesRequests) (request : Nat)
    {service : Series → SeriesState → Except Error SeriesState}
    (hservice : ∀ loaded base, service loaded s.base = .ok base →
      ∃ status, base = s.base.withStatus status) :
    (s.serve request service).base.series.nextStartsAt = s.base.series.nextStartsAt ∧
      (p → (s.serve request service).base.series.nextInstanceNote =
        s.base.series.nextInstanceNote) := by
  rcases serve_cases s request service with h | ⟨loaded, base, -, hok, h⟩
  · rw [h]
    exact ⟨rfl, fun _ => rfl⟩
  · obtain ⟨status, rfl⟩ := hservice loaded base hok
    rw [h]
    exact ⟨rfl, fun _ => rfl⟩

end SeriesRequests

section
variable {owner : Nat} {loaded : Series} {fails : Bool} {s s' : SeriesState}

theorem pauseSeries_eq_ok :
    pauseSeries owner loaded fails s = .ok s' ↔
      loaded.owner = owner ∧ loaded.status = .active ∧ fails = false ∧
        s.withStatus .paused = s' := by
  unfold pauseSeries
  rw [seq_eq_ok, seq_eq_ok, seq_eq_ok, pure_eq_ok, need_eq_ok, need_eq_ok, need_eq_ok, beq_iff_eq,
    beq_iff_eq, Bool.not_eq_true']

theorem resumeSeries_eq_ok :
    resumeSeries owner loaded fails s = .ok s' ↔
      loaded.owner = owner ∧ loaded.status = .paused ∧ fails = false ∧
        s.withStatus .active = s' := by
  unfold resumeSeries
  rw [seq_eq_ok, seq_eq_ok, seq_eq_ok, pure_eq_ok, need_eq_ok, need_eq_ok, need_eq_ok, beq_iff_eq,
    beq_iff_eq, Bool.not_eq_true']

theorem endSeries_spec (h : endSeries owner loaded fails s = .ok s') :
    s' = s.withStatus .ended := by
  unfold endSeries at h
  rw [seq_eq_ok, seq_eq_ok, seq_eq_ok, pure_eq_ok] at h
  exact h.2.2.2.symm

theorem setNextInstanceNote_spec {note : String}
    (h : setNextInstanceNote owner loaded note fails s = .ok s') :
    s' = s.withNote (clipNote isSpace note) := by
  unfold setNextInstanceNote at h
  rw [seq_eq_ok, seq_eq_ok, seq_eq_ok, pure_eq_ok] at h
  exact h.2.2.2.symm

end

/-- The tick that a step is. -/
def seriesTick (z : Zone) (leadDays : Nat) (s : SeriesRequests) : SeriesOp → Option Tick
  | .tick env now fails =>
    let w := world env s.base.series.owner
    some ⟨now, w, (spawnSeries z leadDays now w fails s.base).toOption⟩
  | _ => none

def setsNote : SeriesOp → Bool
  | .note _ _ _ _ => true
  | _ => false

def engine (z : Zone) (leadDays : Nat) : Engine SeriesRequests SeriesOp z leadDays where
  step := fun s op => s.step z leadDays op
  view := SeriesRequests.base
  tick := seriesTick z leadDays
  setsNote := setsNote
  tick_ok := by
    intro s op t r ht hresult
    cases op with
    | tick env now fails =>
      obtain rfl := Option.some.inj ht
      have hspawn := toOption_eq_some.mp hresult
      unfold SeriesRequests.step
      dsimp only
      rw [hspawn]
      exact ⟨spawnSeries_spec hspawn, rfl⟩
    | _ => cases ht
  tick_failed := by
    intro s op t ht hresult
    cases op with
    | tick env now fails =>
      obtain rfl := Option.some.inj ht
      obtain ⟨e, hspawn⟩ := toOption_eq_none.mp hresult
      unfold SeriesRequests.step
      dsimp only
      rw [hspawn]
    | _ => cases ht
  other := by
    intro s op ht
    unfold SeriesRequests.step
    cases op with
    | tick => cases ht
    | load | edit => exact ⟨rfl, fun _ => rfl⟩
    | pause request =>
      exact SeriesRequests.serve_other s request fun _ _ h => ⟨_, (pauseSeries_eq_ok.mp h).2.2.2.symm⟩
    | resume request =>
      exact SeriesRequests.serve_other s request fun _ _ h => ⟨_, (resumeSeries_eq_ok.mp h).2.2.2.symm⟩
    | close request => exact SeriesRequests.serve_other s request fun _ _ h => ⟨_, endSeries_spec h⟩
    | note request owner note fails =>
      refine ⟨?_, fun h => (by cases h)⟩
      dsimp only
      rcases SeriesRequests.serve_cases s request
        (fun loaded => setNextInstanceNote owner loaded note fails) with h | ⟨_, base, -, hok, h⟩
      · rw [h]
      · rw [h, setNextInstanceNote_spec hok]
        rfl

end Py

/-- In both implementations, for every series and every order of ticks at any times, requests of
the owner and changes of its template and instances: no slot gets two instances; nothing is spawned
while an instance is to start, nor in the past, nor beyond the lead; the cursor never moves back; a
staged note goes to one instance and is cleared by its spawn; a tick that fails changes nothing;
and an instance is in the owner's cohort. -/
theorem series_spawning (z : Zone) (leadDays : Nat) :
    (∀ s as, (Go.engine z leadDays).SpawnSafe s as) ∧
      ∀ s as, (Py.engine z leadDays).SpawnSafe s as :=
  ⟨fun s as => (Go.engine z leadDays).spawnSafe s as,
    fun s as => (Py.engine z leadDays).spawnSafe s as⟩

end SocialActivities.Social
