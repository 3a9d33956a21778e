import Mathlib.Data.Finset.Card
import SocialActivities.Events.Rows

/-!
# `SocialActivities.Places.Reports`: reports of members that decay (Python)

Three tables of reports: `OpenNowReport` and `PlaceClosureReport` of `apps/places`, and `EventReport`
of `apps/events`. The readers count the rows of a place or an event within a decay window. No
constraint keeps a member to one row in a window: `file_open_now_report`, `file_closure_report` and
`file_event_report` look for a row of the member first, and then create one.

A filing is a transaction of two parts, the look and the insert, and it sees the rows that were
committed when it looks. `report_quorum` says when the counts are counts of members: when no filing
passes its look while another of the same member is on its way to the same place or event. Where one
does, there are rows that were not counted on (`overlap_breaks`).
-/

namespace SocialActivities.Places.Reports

open Lib Events

/-- The table of a report. -/
inductive Table where
  | openNow
  | closure
  | event
  deriving DecidableEq

/-- `EventReport.Kind`. -/
inductive EventReportKind where
  | cancelled
  | moved
  | wrongTime
  deriving DecidableEq

/-- The kind under a value of `EventReport.Kind.values`. -/
def EventReportKind.ofValue : String → Option EventReportKind
  | "cancelled" => some .cancelled
  | "moved" => some .moved
  | "wrong_time" => some .wrongTime
  | _ => none

/-- Who reports, and what: a place or an event. -/
structure Subject where
  table : Table
  target : Nat
  reporter : Nat
  deriving DecidableEq

/-- A row of one of the tables. Only an event report has a kind. -/
structure Report where
  subject : Subject
  kind : Option EventReportKind
  createdAt : Time
  deriving DecidableEq

/-- A filing that has passed its look and is not committed yet, with its row once it is created. -/
structure Filing where
  subject : Subject
  kind : Option EventReportKind
  createdAt : Option Time
  deriving DecidableEq

/-- The settings of one table. -/
structure ReportSettings where
  threshold : Nat := 3
  decaySeconds : Nat := 14 * 24 * 3600
  rateLimit : Nat := 10
  rateWindowSeconds : Nat := 3600

structure Settings where
  openNow : ReportSettings := {}
  closure : ReportSettings := {}
  event : ReportSettings := {}

/-- The settings of a table. -/
def Settings.of (c : Settings) : Table → ReportSettings
  | .openNow => c.openNow
  | .closure => c.closure
  | .event => c.event

/-- A number of seconds as a `timedelta`. -/
def seconds (n : Nat) : Time := 1000000 * n

/-- The decay window of a table. -/
def Settings.decay (c : Settings) (table : Table) : Time := seconds (c.of table).decaySeconds

/-- A counter of the cache, with the end of its window. -/
structure RateEntry where
  count : Nat
  expiresAt : Time
  deriving DecidableEq

structure State where
  now : Time
  /-- The rows that are committed. -/
  reports : List Report
  filings : KeyMap Nat Filing
  /-- By the action and the member. -/
  cache : KeyMap (String × Nat) RateEntry

/-- Why a filing is refused. -/
inductive ReportError where
  | valueError (message : String)
  | permissionError (message : String)
  | notEligible (message : String)
  deriving DecidableEq

/-! ### Filing a report -/

/-- `allow_action`: a fixed window that starts with the first hit. -/
def allowAction (user : Nat) (action : String) (c : ReportSettings) (s : State) : Bool × State :=
  if c.rateLimit = 0 then (false, s)
  else
    let fresh : RateEntry := ⟨1, s.now + seconds c.rateWindowSeconds⟩
    match s.cache.get? (action, user) with
    | none => (true, { s with cache := s.cache.set (action, user) fresh })
    | some entry =>
      if s.now < entry.expiresAt then
        (decide (entry.count + 1 ≤ c.rateLimit),
          { s with cache := s.cache.set (action, user) { entry with count := entry.count + 1 } })
      else (true, { s with cache := s.cache.set (action, user) fresh })

/-- A committed row of the subject is in the decay window. -/
def alreadyReported (c : Settings) (s : State) (subject : Subject) : Bool :=
  s.reports.any fun r => r.subject == subject && decide (s.now - c.decay subject.table ≤ r.createdAt)

/-- What the three services share: the gate, the rate limit and the look. The filing is on its way if
it was not throttled and the member has not reported in this window. -/
def beginReport (c : Settings) (action : String) (refused : ReportError) (subject : Subject)
    (kind : Option EventReportKind) (participates : Bool) (s : State) :
    Except ReportError (Option Filing × State) := do
  need refused participates
  let (allowed, s) := allowAction subject.reporter action (c.of subject.table) s
  if allowed && !alreadyReported c s subject then pure (some ⟨subject, kind, none⟩, s)
  else pure (none, s)

/-- `file_open_now_report`, up to the insert. -/
def fileOpenNowReport (c : Settings) (reporter place : Nat) (participates : Bool) (s : State) :
    Except ReportError (Option Filing × State) :=
  beginReport c "open_now_report"
    (.notEligible "Verified, consented participation is required to report hours.")
    ⟨.openNow, place, reporter⟩ none participates s

/-- `file_closure_report`, up to the insert. -/
def fileClosureReport (c : Settings) (reporter place : Nat) (participates : Bool) (s : State) :
    Except ReportError (Option Filing × State) :=
  beginReport c "place_closure_report"
    (.notEligible "Verified, consented participation is required to report a closed venue.")
    ⟨.closure, place, reporter⟩ none participates s

/-- What makes an event discoverable. -/
structure EventListing where
  isTombstone : Bool
  isImportHeld : Bool
  lifecycleStatus : Lifecycle
  deriving DecidableEq

def eventIsDiscoverable (e : EventListing) : Bool :=
  !e.isTombstone && !e.isImportHeld &&
    [Lifecycle.scheduled, .rescheduled, .soldOut].contains e.lifecycleStatus

/-- `file_event_report`, up to the insert. -/
def fileEventReport (c : Settings) (reporter event : Nat) (listing : EventListing) (kind : String)
    (participates : Bool) (s : State) : Except ReportError (Option Filing × State) := do
  let kind ← (EventReportKind.ofValue kind).elim (.error (.valueError "Unknown event report kind.")) .ok
  need (.valueError "This event is no longer listed as an upcoming activity.")
    (eventIsDiscoverable listing)
  beginReport c "event_report"
    (.permissionError "Verified, consented participation is required to report an event.")
    ⟨.event, event, reporter⟩ (some kind) participates s

/-- A call of one of the services, with what `can_participate` says about the reporter. -/
inductive Request where
  | openNow (reporter place : Nat) (participates : Bool)
  | closure (reporter place : Nat) (participates : Bool)
  | event (reporter event : Nat) (listing : EventListing) (kind : String) (participates : Bool)

def Request.begin (c : Settings) (s : State) :
    Request → Except ReportError (Option Filing × State)
  | .openNow reporter place participates => fileOpenNowReport c reporter place participates s
  | .closure reporter place participates => fileClosureReport c reporter place participates s
  | .event reporter target listing kind participates =>
    fileEventReport c reporter target listing kind participates s

/-- The row that the filing has created. -/
def Filing.report (f : Filing) : Option Report := f.createdAt.map fun t => ⟨f.subject, f.kind, t⟩

/-- One step. A filing that is on its way creates its row and is committed, or is rolled back. -/
inductive Action where
  | wait (elapsed : Nat)
  | file (id : Nat) (r : Request)
  | create (id : Nat)
  | commit (id : Nat)
  | rollback (id : Nat)
  /-- `clear_open_now_reports`, `clear_closure_reports` or `clear_event_reports`. -/
  | clear (table : Table) (target : Nat)

/-- The state after a call that was not on its way before. -/
def fileStep (c : Settings) (s : State) (id : Nat) (r : Request) : State :=
  match r.begin c s with
  | .error _ => s
  | .ok (none, s') => s'
  | .ok (some f, s') => { s' with filings := s'.filings.set id f }

/-- The state without a filing. -/
def State.drop (s : State) (id : Nat) : State :=
  { s with filings := s.filings.removeIf fun j _ => j == id }

def step (c : Settings) (s : State) : Action → State
  | .wait elapsed => { s with now := s.now + elapsed }
  | .file id r => if (s.filings.get? id).isSome then s else fileStep c s id r
  | .create id =>
    match s.filings.get? id with
    | some ⟨subject, kind, none⟩ =>
      { s with filings := s.filings.set id ⟨subject, kind, some s.now⟩ }
    | _ => s
  | .commit id =>
    match (s.filings.get? id).bind Filing.report with
    | some report => { s.drop id with reports := s.reports ++ [report] }
    | none => s
  | .rollback id => s.drop id
  | .clear table target =>
    { s with reports := s.reports.filter fun r =>
        !(r.subject.table == table && r.subject.target == target) }

/-- No reports at a time. -/
def State.empty (now : Time) : State := ⟨now, [], .empty, .empty⟩

/-! ### Reading the reports -/

/-- `created_at__gte=cutoff`, of the rows of a place or an event. -/
def isRecent (c : Settings) (s : State) (table : Table) (target : Nat) (r : Report) : Bool :=
  r.subject.table == table && r.subject.target == target &&
    decide (s.now - c.decay table ≤ r.createdAt)

/-- The number of rows in the decay window. -/
def recentCount (c : Settings) (s : State) (table : Table) (target : Nat) : Nat :=
  s.reports.countP (isRecent c s table target)

/-- `_closed_place_ids`: the places that have rows, and enough of them. -/
def closedPlaceIds (c : Settings) (s : State) : List Nat :=
  ((s.reports.map fun r => r.subject.target).filter fun place =>
    decide (0 < recentCount c s .closure place) &&
      decide (c.closure.threshold ≤ recentCount c s .closure place)).dedup

def hoursReliable (c : Settings) (s : State) (place : Nat) : Bool :=
  decide (recentCount c s .openNow place < c.openNow.threshold)

def eventIsFlagged (c : Settings) (s : State) (event : Nat) : Bool :=
  decide (c.event.threshold ≤ recentCount c s .event event)

/-- A time is in the decay window before a time. -/
def inWindow (c : Settings) (table : Table) (t created : Time) : Bool :=
  decide (t - c.decay table ≤ created) && decide (created ≤ t)

/-- The members who have a row of a place or an event in the decay window. -/
def recentReporters (c : Settings) (s : State) (table : Table) (target : Nat) : Finset Nat :=
  ((s.reports.filter fun r => r.subject.table == table && r.subject.target == target &&
    inWindow c table s.now r.createdAt).map fun r => r.subject.reporter).toFinset

/-- A member has at most one row of a place or an event in any window. -/
def OnePerWindow (c : Settings) (s : State) : Prop :=
  ∀ subject t, s.reports.countP (fun r => r.subject == subject &&
    inWindow c subject.table t r.createdAt) ≤ 1

/-- What the readers say rests on as many members as the threshold. -/
structure CountsPeople (c : Settings) (s : State) : Prop where
  closed : ∀ place ∈ closedPlaceIds c s,
    c.closure.threshold ≤ (recentReporters c s .closure place).card
  unreliable : ∀ place, hoursReliable c s place = false →
    c.openNow.threshold ≤ (recentReporters c s .openNow place).card
  flagged : ∀ event, eventIsFlagged c s event = true →
    c.event.threshold ≤ (recentReporters c s .event event).card

/-! ### What the steps do -/

variable {c : Settings} {s s' : State} {id : Nat}

theorem allowAction_state (user : Nat) (action : String) (rc : ReportSettings) (s : State) :
    ∃ cache, (allowAction user action rc s).2 = { s with cache := cache } := by
  unfold allowAction
  split
  · exact ⟨s.cache, rfl⟩
  · dsimp only
    split
    · exact ⟨_, rfl⟩
    · split
      · exact ⟨_, rfl⟩
      · exact ⟨_, rfl⟩

/-- The look: no committed row of the subject is in the window. -/
def NotReported (c : Settings) (s : State) (subject : Subject) : Prop :=
  ∀ r ∈ s.reports, r.subject = subject → r.createdAt + c.decay subject.table < s.now

variable {subject : Subject}

theorem alreadyReported_eq_false :
    alreadyReported c s subject = false ↔ NotReported c s subject := by
  unfold alreadyReported NotReported
  rw [List.any_eq_false]
  refine forall₂_congr fun r _ => ?_
  simp only [Bool.and_eq_true, beq_iff_eq, decide_eq_true_eq, not_and, not_le]
  exact imp_congr_right fun _ => lt_sub_iff_add_lt

theorem beginReport_spec {action : String} {refused : ReportError}
    {kind : Option EventReportKind} {participates : Bool} {result : Option Filing}
    (h : beginReport c action refused subject kind participates s = .ok (result, s')) :
    (∃ cache, s' = { s with cache := cache }) ∧
      ∀ f, result = some f → f.createdAt = none ∧ NotReported c s f.subject := by
  unfold beginReport at h
  obtain ⟨-, h⟩ := seq_eq_ok.mp h
  obtain ⟨cache, hcache⟩ := allowAction_state subject.reporter action (c.of subject.table) s
  generalize allowAction subject.reporter action (c.of subject.table) s = limited at h hcache
  obtain ⟨allowed, next⟩ := limited
  dsimp only at h hcache
  subst hcache
  split at h
  · rename_i hpassed
    obtain ⟨rfl, rfl⟩ := Prod.mk.inj (pure_eq_ok.mp h)
    refine ⟨⟨cache, rfl⟩, fun f hf => ?_⟩
    cases hf
    rw [Bool.and_eq_true_iff, Bool.not_eq_true'] at hpassed
    exact ⟨rfl, alreadyReported_eq_false.mp hpassed.2⟩
  · obtain ⟨rfl, rfl⟩ := Prod.mk.inj (pure_eq_ok.mp h)
    exact ⟨⟨cache, rfl⟩, fun f hf => (by cases hf)⟩

theorem begin_spec {r : Request} {result : Option Filing} (h : r.begin c s = .ok (result, s')) :
    (∃ cache, s' = { s with cache := cache }) ∧
      ∀ f, result = some f → f.createdAt = none ∧ NotReported c s f.subject := by
  cases r with
  | openNow | closure => exact beginReport_spec h
  | event reporter target listing kind =>
    obtain ⟨kind, -, h⟩ := bind_eq_ok.mp h
    exact beginReport_spec (seq_eq_ok.mp h).2

/-- A call that puts a filing on its way. -/
def Passes (c : Settings) (s : State) (id : Nat) (r : Request) (f : Filing) : Prop :=
  s.filings.get? id = none ∧ ∃ next, r.begin c s = .ok (some f, next)

theorem step_file (c : Settings) (s : State) (id : Nat) (r : Request) :
    (∃ cache, step c s (.file id r) = { s with cache := cache }) ∨
      ∃ f cache, Passes c s id r f ∧ f.createdAt = none ∧ NotReported c s f.subject ∧
        step c s (.file id r) = { s with cache := cache, filings := s.filings.set id f } := by
  show (∃ cache, (if (s.filings.get? id).isSome then s else fileStep c s id r) = _) ∨
    ∃ f cache, _ ∧ _ ∧ _ ∧ (if (s.filings.get? id).isSome then s else fileStep c s id r) = _
  cases hid : s.filings.get? id with
  | some => exact Or.inl ⟨s.cache, rfl⟩
  | none =>
    simp only [Option.isSome_none, Bool.false_eq_true, if_false]
    unfold fileStep
    cases hbegin : r.begin c s with
    | error => exact Or.inl ⟨s.cache, rfl⟩
    | ok result =>
      obtain ⟨result, next⟩ := result
      obtain ⟨⟨cache, rfl⟩, hfiling⟩ := begin_spec hbegin
      cases result with
      | none => exact Or.inl ⟨cache, rfl⟩
      | some f =>
        obtain ⟨hcreated, hlook⟩ := hfiling f rfl
        exact Or.inr ⟨f, cache, ⟨hid, _, hbegin⟩, hcreated, hlook, rfl⟩

/-! ### Nothing is in the future -/

/-- Every row was created by now, committed or not. -/
structure NotFuture (s : State) : Prop where
  reports : ∀ r ∈ s.reports, r.createdAt ≤ s.now
  filings : ∀ id f t, s.filings.get? id = some f → f.createdAt = some t → t ≤ s.now

variable {f : Filing}

theorem get?_drop {s : State} {id j : Nat} (h : (s.drop id).filings.get? j = some f) :
    s.filings.get? j = some f ∧ j ≠ id := by
  unfold State.drop at h
  rw [KeyMap.get?_removeIf, Option.filter_eq_some_iff] at h
  exact ⟨h.1, by simpa using h.2⟩

theorem notFuture_empty (now : Time) : NotFuture (State.empty now) :=
  ⟨fun r hr => (by cases hr), fun id f t hf => (by cases hf)⟩

theorem notFuture_step (s : State) (a : Action) (h : NotFuture s) : NotFuture (step c s a) := by
  cases a with
  | wait elapsed =>
    have hlater : s.now ≤ s.now + elapsed := Int.le_add_of_nonneg_right (Int.natCast_nonneg elapsed)
    exact ⟨fun r hr => (h.reports r hr).trans hlater,
      fun id f t hf ht => (h.filings id f t hf ht).trans hlater⟩
  | file id r =>
    rcases step_file c s id r with ⟨cache, hstep⟩ | ⟨f, cache, -, hcreated, -, hstep⟩
    · rw [hstep]
      exact ⟨h.reports, h.filings⟩
    · rw [hstep]
      refine ⟨h.reports, fun j g t hg ht => ?_⟩
      rcases KeyMap.of_get?_set hg with ⟨-, rfl⟩ | hg
      · rw [hcreated] at ht
        cases ht
      · exact h.filings j g t hg ht
  | create id =>
    show NotFuture (match s.filings.get? id with
      | some ⟨subject, kind, none⟩ =>
        { s with filings := s.filings.set id ⟨subject, kind, some s.now⟩ }
      | _ => s)
    split
    · refine ⟨h.reports, fun j g t hg ht => ?_⟩
      rcases KeyMap.of_get?_set hg with ⟨-, rfl⟩ | hg
      · cases ht
        exact le_refl _
      · exact h.filings j g t hg ht
    · exact h
  | commit id =>
    show NotFuture (match (s.filings.get? id).bind Filing.report with
      | some report => { s.drop id with reports := s.reports ++ [report] }
      | none => s)
    split
    · rename_i report hreport
      obtain ⟨f, hf, hrow⟩ := Option.bind_eq_some_iff.mp hreport
      obtain ⟨t, ht, rfl⟩ := Option.map_eq_some_iff.mp hrow
      refine ⟨?_, fun j g u hg hu => h.filings j g u (get?_drop hg).1 hu⟩
      show ∀ r ∈ s.reports ++ [_], r.createdAt ≤ s.now
      rw [List.forall_mem_append, List.forall_mem_singleton]
      exact ⟨h.reports, h.filings id f t hf ht⟩
    · exact h
  | rollback => exact ⟨h.reports, fun j g t hg ht => h.filings j g t (get?_drop hg).1 ht⟩
  | clear => exact ⟨fun r hr => h.reports r (List.mem_of_mem_filter hr), h.filings⟩

/-! ### Rows of one member are apart -/

/-- Two rows of one subject are in no window together. A row that is not created yet will be created
now or later. -/
def Apart (decay now : Time) : Option Time → Option Time → Prop
  | some a, some b => a + decay < b ∨ b + decay < a
  | some a, none => a + decay < now
  | none, some b => b + decay < now
  | none, none => False

variable {now decay : Time}

theorem Apart.symm {a b : Option Time} (h : Apart decay now a b) :
    Apart decay now b a := by
  cases a with
  | none => cases b with
    | none | some => exact h
  | some => cases b with
    | none => exact h
    | some => exact Or.symm h

theorem Apart.later {later : Time} {a b : Option Time} (h : Apart decay now a b)
    (hlater : now ≤ later) : Apart decay later a b := by
  cases a with
  | none => cases b with
    | none => exact h
    | some => exact lt_of_lt_of_le h hlater
  | some => cases b with
    | none => exact lt_of_lt_of_le h hlater
    | some => exact h

theorem Apart.create {a : Option Time} (h : Apart decay now a none) :
    Apart decay now a (some now) := by
  cases a with
  | none => cases h
  | some => exact Or.inl h

/-- The rows of one member, committed or on their way, are apart. -/
structure Serial (c : Settings) (s : State) : Prop where
  reports : s.reports.Pairwise fun r r' => r.subject = r'.subject →
    Apart (c.decay r.subject.table) s.now (some r.createdAt) (some r'.createdAt)
  filing : ∀ id f, s.filings.get? id = some f → ∀ r ∈ s.reports, r.subject = f.subject →
    Apart (c.decay f.subject.table) s.now (some r.createdAt) f.createdAt
  filings : ∀ i f j g, s.filings.get? i = some f → s.filings.get? j = some g → i ≠ j →
    f.subject = g.subject → Apart (c.decay g.subject.table) s.now f.createdAt g.createdAt

/-- Another filing of the subject is on its way, and its row is in the window or is still to come. -/
def Overlaps (c : Settings) (s : State) (subject : Subject) : Prop :=
  ∃ id g, s.filings.get? id = some g ∧ g.subject = subject ∧
    ∀ t, g.createdAt = some t → s.now ≤ t + c.decay subject.table

/-- The condition: no filing passes its look while another of the same member is on its way to the
same place or event. -/
def NoOverlap (c : Settings) (s : State) : Action → Prop
  | .file id r => ∀ f, Passes c s id r f → ¬Overlaps c s f.subject
  | _ => True

theorem serial_empty (now : Time) : Serial c (State.empty now) :=
  ⟨List.Pairwise.nil, fun id f hf => (by cases hf), fun i f j g hf => (by cases hf)⟩

/-- A new filing is apart from the others: the look keeps it from the rows, and the condition from
the filings. -/
theorem serial_file (h : Serial c s) (hcreated : f.createdAt = none)
    (hlook : NotReported c s f.subject) (hno : ¬Overlaps c s f.subject) :
    Serial c { s with filings := s.filings.set id f } := by
  -- Apart from each filing that is on its way.
  have hothers : ∀ j g, s.filings.get? j = some g → f.subject = g.subject →
      Apart (c.decay g.subject.table) s.now f.createdAt g.createdAt := by
    intro j g hg hsame
    rw [hcreated]
    by_contra hapart
    refine hno ⟨j, g, hg, hsame.symm, fun t ht => ?_⟩
    rw [ht, ← hsame] at hapart
    exact not_lt.mp hapart
  refine ⟨h.reports, fun j g hg r hr hsame => ?_, fun i g j g' hg hg' hne hsame => ?_⟩
  · rcases KeyMap.of_get?_set hg with ⟨-, rfl⟩ | hg
    · rw [hcreated]
      exact hlook r hr hsame
    · exact h.filing j g hg r hr hsame
  · rw [KeyMap.get?_set] at hg hg'
    split at hg
    · rename_i hi
      cases hg
      rw [if_neg fun hj => hne (hi.trans hj.symm)] at hg'
      exact hothers j g' hg' hsame
    · split at hg'
      · cases hg'
        rw [← hsame]
        exact (hothers i g hg hsame.symm).symm
      · exact h.filings i g j g' hg hg' hne hsame

theorem serial_create {kind : Option EventReportKind} (h : Serial c s)
    (hid : s.filings.get? id = some ⟨subject, kind, none⟩) :
    Serial c { s with filings := s.filings.set id ⟨subject, kind, some s.now⟩ } := by
  refine ⟨h.reports, fun j g hg r hr hsame => ?_, fun i g j g' hg hg' hne hsame => ?_⟩
  · rcases KeyMap.of_get?_set hg with ⟨-, rfl⟩ | hg
    · exact (h.filing id _ hid r hr hsame).create
    · exact h.filing j g hg r hr hsame
  · rw [KeyMap.get?_set] at hg hg'
    split at hg
    · rename_i hi
      cases hg
      rw [if_neg fun hj => hne (hi.trans hj.symm)] at hg'
      have hbefore := h.filings id _ j g' hid hg' (fun hj => hne (hi.trans hj)) hsame
      exact (Apart.create hbefore.symm).symm
    · rename_i hi
      split at hg'
      · cases hg'
        exact (h.filings i g id _ hg hid hi hsame).create
      · exact h.filings i g j g' hg hg' hne hsame

theorem serial_drop (h : Serial c s) : Serial c (s.drop id) :=
  ⟨h.reports, fun j g hg => h.filing j g (get?_drop hg).1,
    fun i g j g' hg hg' => h.filings i g j g' (get?_drop hg).1 (get?_drop hg').1⟩

theorem serial_commit {t : Time} (h : Serial c s) (hid : s.filings.get? id = some f)
    (ht : f.createdAt = some t) :
    Serial c { s.drop id with reports := s.reports ++ [⟨f.subject, f.kind, t⟩] } := by
  refine ⟨?_, fun j g hg => ?_, (serial_drop h).filings⟩
  · refine List.pairwise_append.mpr ⟨h.reports, List.pairwise_singleton _ _, fun r hr r' hr' => ?_⟩
    rw [List.mem_singleton.mp hr']
    intro hsame
    have hapart := h.filing id f hid r hr hsame
    rw [ht] at hapart
    rw [hsame]
    exact hapart
  · show ∀ r ∈ s.reports ++ [_], _
    rw [List.forall_mem_append, List.forall_mem_singleton]
    obtain ⟨hg, hne⟩ := get?_drop hg
    refine ⟨h.filing j g hg, fun hsame => ?_⟩
    have hapart := h.filings id f j g hid hg hne.symm hsame
    rw [ht] at hapart
    exact hapart

theorem serial_step (s : State) (a : Action) (h : Serial c s) (hno : NoOverlap c s a) :
    Serial c (step c s a) := by
  cases a with
  | wait elapsed =>
    have hlater : s.now ≤ s.now + elapsed := Int.le_add_of_nonneg_right (Int.natCast_nonneg elapsed)
    exact ⟨h.reports.imp fun hapart hsame => (hapart hsame).later hlater,
      fun id f hf r hr hsame => (h.filing id f hf r hr hsame).later hlater,
      fun i f j g hf hg hne hsame => (h.filings i f j g hf hg hne hsame).later hlater⟩
  | file id r =>
    rcases step_file c s id r with ⟨cache, hstep⟩ | ⟨f, cache, hpasses, hcreated, hlook, hstep⟩
    · rw [hstep]
      exact ⟨h.reports, h.filing, h.filings⟩
    · rw [hstep]
      have hfile := @serial_file c s id f h hcreated hlook (hno f hpasses)
      exact ⟨hfile.reports, hfile.filing, hfile.filings⟩
  | create id =>
    show Serial c (match s.filings.get? id with
      | some ⟨subject, kind, none⟩ =>
        { s with filings := s.filings.set id ⟨subject, kind, some s.now⟩ }
      | _ => s)
    split
    · rename_i subject kind hid
      exact serial_create h hid
    · exact h
  | commit id =>
    show Serial c (match (s.filings.get? id).bind Filing.report with
      | some report => { s.drop id with reports := s.reports ++ [report] }
      | none => s)
    split
    · rename_i report hreport
      obtain ⟨f, hf, hrow⟩ := Option.bind_eq_some_iff.mp hreport
      obtain ⟨t, ht, rfl⟩ := Option.map_eq_some_iff.mp hrow
      exact serial_commit h hf ht
    · exact h
  | rollback => exact serial_drop h
  | clear =>
    exact ⟨h.reports.sublist List.filter_sublist,
      fun id f hf r hr => h.filing id f hf r (List.mem_of_mem_filter hr), h.filings⟩

/-! ### From rows to members -/

theorem not_inWindow_of_apart {table : Table} {t a b : Time}
    (h : Apart (c.decay table) now (some a) (some b)) (ha : inWindow c table t a = true)
    (hb : inWindow c table t b = true) : False := by
  simp only [inWindow, Bool.and_eq_true, decide_eq_true_eq] at ha hb
  obtain ⟨hafter, hbefore⟩ := ha
  obtain ⟨hafter', hbefore'⟩ := hb
  rw [sub_le_iff_le_add] at hafter hafter'
  rcases h with hless | hless
  · exact absurd (hbefore'.trans hafter) (not_le.mpr hless)
  · exact absurd (hbefore.trans hafter') (not_le.mpr hless)

theorem countP_le_one {α : Type} {p : α → Bool} {as : List α}
    (h : as.Pairwise fun a b => ¬(p a = true ∧ p b = true)) : as.countP p ≤ 1 := by
  induction as with
  | nil => exact Nat.zero_le 1
  | cons a as ih =>
    rw [List.pairwise_cons] at h
    rw [List.countP_cons]
    by_cases ha : p a = true
    · have hrest : as.countP p = 0 :=
        List.countP_eq_zero.mpr fun b hb hpb => h.1 b hb ⟨ha, hpb⟩
      rw [hrest, if_pos ha]
    · rw [if_neg ha]
      exact ih h.2

theorem onePerWindow_of_serial (h : Serial c s) : OnePerWindow c s := by
  intro subject t
  refine countP_le_one (h.reports.imp fun {r r'} hapart => ?_)
  intro ⟨hr, hr'⟩
  rw [Bool.and_eq_true, beq_iff_eq] at hr hr'
  have hsame : r.subject = r'.subject := hr.1.trans hr'.1.symm
  have hapart := hapart hsame
  rw [hr.1] at hapart
  exact not_inWindow_of_apart hapart hr.2 hr'.2

theorem recentCount_eq_card (h : Serial c s) (hnow : NotFuture s) (table : Table) (target : Nat) :
    recentCount c s table target = (recentReporters c s table target).card := by
  have hfilter : s.reports.filter (isRecent c s table target) =
      s.reports.filter fun r => r.subject.table == table && r.subject.target == target &&
        inWindow c table s.now r.createdAt := by
    refine List.filter_congr fun r hr => ?_
    have hcreated : decide (r.createdAt ≤ s.now) = true := decide_eq_true (hnow.reports r hr)
    unfold isRecent inWindow
    rw [hcreated, Bool.and_true]
  have hnodup : ((s.reports.filter fun r => r.subject.table == table && r.subject.target == target &&
      inWindow c table s.now r.createdAt).map fun r => r.subject.reporter).Nodup := by
    rw [List.Nodup, List.pairwise_map]
    refine (h.reports.sublist List.filter_sublist).imp_of_mem fun {r r'} hr hr' hapart hreporter => ?_
    have hof := List.of_mem_filter hr
    have hof' := List.of_mem_filter hr'
    simp only [Bool.and_eq_true, beq_iff_eq] at hof hof'
    have hsame : r.subject = r'.subject := by
      obtain ⟨⟨a, b, d⟩, kind, created⟩ := r
      obtain ⟨⟨a', b', d'⟩, kind', created'⟩ := r'
      simp only at hof hof' hreporter ⊢
      rw [hof.1.1, hof.1.2, hof'.1.1, hof'.1.2, hreporter]
    have hapart := hapart hsame
    rw [hof.1.1] at hapart
    exact not_inWindow_of_apart hapart hof.2 hof'.2
  unfold recentCount recentReporters
  rw [List.countP_eq_length_filter, hfilter, List.toFinset_card_of_nodup hnodup, List.length_map]

theorem countsPeople_of_serial (h : Serial c s) (hnow : NotFuture s) : CountsPeople c s := by
  refine ⟨fun place hplace => ?_, fun place hplace => ?_, fun event hevent => ?_⟩
  · rw [← recentCount_eq_card h hnow]
    unfold closedPlaceIds at hplace
    have hquorum := List.of_mem_filter (List.mem_dedup.mp hplace)
    rw [Bool.and_eq_true, decide_eq_true_eq, decide_eq_true_eq] at hquorum
    exact hquorum.2
  · rw [← recentCount_eq_card h hnow]
    exact not_lt.mp (of_decide_eq_false hplace)
  · rw [← recentCount_eq_card h hnow]
    exact of_decide_eq_true hevent

/-! ### What an overlap does -/

/-- The row of a filing, created now if it is not yet. -/
def Filing.rowAt (f : Filing) (now : Time) : Report := ⟨f.subject, f.kind, f.createdAt.getD now⟩

theorem run_commit (hid : s.filings.get? id = some f) :
    ∃ filings, Machine.run (step c) s [.create id, .commit id] =
        { s with filings := filings, reports := s.reports ++ [f.rowAt s.now] } ∧
      ∀ j, j ≠ id → filings.get? j = s.filings.get? j := by
  obtain ⟨subject, kind, created⟩ := f
  cases created with
  | none =>
    have hcreate : step c s (.create id) =
        { s with filings := s.filings.set id ⟨subject, kind, some s.now⟩ } := by
      simp only [step, hid]
    have hset : (s.filings.set id ⟨subject, kind, some s.now⟩).get? id =
        some ⟨subject, kind, some s.now⟩ := by
      rw [KeyMap.get?_set, if_pos rfl]
    refine ⟨(s.filings.set id ⟨subject, kind, some s.now⟩).removeIf fun j _ => j == id, ?_,
      fun j hj => ?_⟩
    · rw [Machine.run_cons, Machine.run_cons, Machine.run_nil, hcreate]
      simp only [step, hset, Option.bind_some, Filing.report, Option.map_some]
      rfl
    · rw [KeyMap.get?_removeIf, KeyMap.get?_set, if_neg hj]
      cases s.filings.get? j <;> simp [hj]
  | some =>
    have hcreate : step c s (.create id) = s := by
      simp only [step, hid]
    refine ⟨s.filings.removeIf fun j _ => j == id, ?_, fun j hj => ?_⟩
    · rw [Machine.run_cons, Machine.run_cons, Machine.run_nil, hcreate]
      simp only [step, hid, Option.bind_some, Filing.report, Option.map_some]
      rfl
    · rw [KeyMap.get?_removeIf]
      cases s.filings.get? j <;> simp [hj]

theorem decay_nonneg (c : Settings) (table : Table) : 0 ≤ c.decay table := by
  unfold Settings.decay seconds
  exact Int.mul_nonneg (by decide) (Int.natCast_nonneg _)

/-- After a step that overlaps with another filing, the two can be committed, and then a member has
two rows in one window. -/
theorem overlap_breaks {a : Action} (hnow : NotFuture s) (h : ¬NoOverlap c s a) :
    ∃ as, ¬OnePerWindow c (Machine.run (step c) (step c s a) as) := by
  cases a with
  | file id r =>
    simp only [NoOverlap, not_forall, not_not] at h
    obtain ⟨f, hpasses, other, g, hg, hsame, hwindow⟩ := h
    obtain ⟨hfree, next, hbegin⟩ := hpasses
    obtain ⟨⟨cache, rfl⟩, hfiling⟩ := begin_spec hbegin
    obtain ⟨hcreated, -⟩ := hfiling f rfl
    have hne : other ≠ id := by
      rintro rfl
      rw [hfree] at hg
      cases hg
    have hstep : step c s (.file id r) = { s with cache := cache, filings := s.filings.set id f } := by
      simp only [step, hfree, Option.isSome_none, Bool.false_eq_true, if_false, fileStep, hbegin]
    have hother : (step c s (.file id r)).filings.get? other = some g := by
      rw [hstep]
      show (s.filings.set id f).get? other = some g
      rw [KeyMap.get?_set, if_neg hne, hg]
    have hfile : (step c s (.file id r)).filings.get? id = some f := by
      rw [hstep]
      show (s.filings.set id f).get? id = some f
      rw [KeyMap.get?_set, if_pos rfl]
    -- The other filing is committed, and then the new one.
    obtain ⟨filings, hrun, hkept⟩ := @run_commit c _ other g hother
    have hlast : (Machine.run (step c) (step c s (.file id r))
        [.create other, .commit other]).filings.get? id = some f := by
      rw [hrun]
      exact (hkept id hne.symm).trans hfile
    obtain ⟨filings', hrun', -⟩ := @run_commit c _ id f hlast
    refine ⟨[.create other, .commit other] ++ [.create id, .commit id], fun hone => ?_⟩
    rw [Machine.run_append, hrun', hrun, hstep] at hone
    have hcount := hone f.subject s.now
    -- Both rows are in the window that ends now.
    have hlate : ∀ t : Time, s.now ≤ t + c.decay f.subject.table → t ≤ s.now →
        inWindow c f.subject.table s.now t = true := by
      intro t hafter hbefore
      simp only [inWindow, Bool.and_eq_true, decide_eq_true_eq]
      exact ⟨sub_le_iff_le_add.mpr hafter, hbefore⟩
    have hself : s.now ≤ s.now + c.decay f.subject.table :=
      Int.le_add_of_nonneg_right (decay_nonneg c f.subject.table)
    have hnew : inWindow c f.subject.table s.now (f.rowAt s.now).createdAt = true := by
      unfold Filing.rowAt
      rw [hcreated]
      exact hlate s.now hself le_rfl
    have hold : inWindow c f.subject.table s.now (g.rowAt s.now).createdAt = true := by
      unfold Filing.rowAt
      cases hg' : g.createdAt with
      | none => exact hlate s.now hself le_rfl
      | some t => exact hlate t (hwindow t hg') (hnow.filings other g t hg hg')
    have hboth : ((s.reports ++ [g.rowAt s.now]) ++ [f.rowAt s.now]).countP (fun r =>
        r.subject == f.subject && inWindow c f.subject.table s.now r.createdAt) =
        s.reports.countP (fun r =>
          r.subject == f.subject && inWindow c f.subject.table s.now r.createdAt) + 1 + 1 := by
      rw [List.countP_append, List.countP_append, List.countP_singleton, List.countP_singleton,
        hnew, hold]
      simp [Filing.rowAt, hsame]
    have htwo := hboth.symm.trans_le hcount
    omega
  | wait | create | commit | rollback | clear => exact absurd trivial h

/-! ### Every run -/

/-- In a run in which no filing passes its look while another of the same member is on its way to the
same place or event, the counts are counts of members at every time. And wherever one does, there is a
way to go on to two rows of one member in one window. -/
theorem report_quorum (c : Settings) (start : Time) (as : List Action) :
    ((∀ q ∈ Machine.steps (step c) (State.empty start) as, NoOverlap c q.1 q.2) →
      OnePerWindow c (Machine.run (step c) (State.empty start) as) ∧
      CountsPeople c (Machine.run (step c) (State.empty start) as)) ∧
    ∀ q ∈ Machine.steps (step c) (State.empty start) as, ¬NoOverlap c q.1 q.2 →
      ∃ more, ¬OnePerWindow c (Machine.run (step c) (step c q.1 q.2) more) := by
  constructor
  · intro hno
    have hserial : Serial c (Machine.run (step c) (State.empty start) as) :=
      Machine.run_guarded (NoOverlap c) serial_step (serial_empty start) hno
    have hnow : NotFuture (Machine.run (step c) (State.empty start) as) :=
      Machine.run_invariant notFuture_step (notFuture_empty start) as
    exact ⟨onePerWindow_of_serial hserial, countsPeople_of_serial hserial hnow⟩
  · intro q hq hoverlap
    have hnow : NotFuture q.1 :=
      Machine.steps_invariant notFuture_step (notFuture_empty start) as q hq
    exact overlap_breaks hnow hoverlap

/-! ### One member closes a venue -/

/-- Three calls of one member, on their way together. -/
def threeAtOnce : List Action :=
  [.file 1 (.closure 7 1 true), .file 2 (.closure 7 1 true), .file 3 (.closure 7 1 true),
    .create 1, .create 2, .create 3, .commit 1, .commit 2, .commit 3]

/-- The place is hidden, and one member has reported it. -/
theorem closed_by_one_member :
    ¬∀ (c : Settings) (start : Time) (as : List Action),
      OnePerWindow c (Machine.run (step c) (State.empty start) as) ∧
      CountsPeople c (Machine.run (step c) (State.empty start) as) := by
  intro h
  have hquorum := (h {} 0 threeAtOnce).2.closed 1 (by decide +kernel)
  have hone : (recentReporters {} (Machine.run (step {}) (State.empty 0) threeAtOnce)
      .closure 1).card = 1 := by decide +kernel
  rw [hone] at hquorum
  exact absurd hquorum (by decide)

end SocialActivities.Places.Reports
