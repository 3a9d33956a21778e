import Mathlib.Data.Finset.Card
import SocialActivities.Social.AppreciationRuns
import SocialActivities.Social.Concerns

/-!
# `SocialActivities.Social.ReactionPurge`: the footer and the purge of old reactions

Two daily jobs work on the reactions to a post. One derives the footer (`AppreciationRuns`); the
other deletes the reactions that are older than the retention: `PurgeSentimentRows` of the Go server
and `purge_stale_reaction_rows` of the Python services. Members react in between; none takes a
reaction back.

The latch ages from the day on which enough members had reacted, the rows from the day of each
reaction. So a purge can leave too few rows of a facet that has not been latched for the retention,
and the next run unlatches it (`purged_before_graduation`). `displayed_until` says that nothing else
does: a displayed facet stays displayed exactly as long as no run finds that.

A post, its threshold and the retention are fixed. Purges of dissents and concerns do not touch the
footer and are left out.
-/

namespace SocialActivities.Social

open Lib
open Lib.Calendar (Zone dayLength)
open Lib.Machine (run steps)

/-- A row of `social_postreaction` of the post. -/
structure Reaction where
  user : Nat
  emoji : String
  createdAt : Nat
  deriving DecidableEq

/-- The clock, the reactions to the post, the job that derives the footer, and the marker
`reaction_purge_daily`. -/
structure Sentiment where
  clock : Nat
  reactions : List Reaction
  daily : Recomputed
  purgedAt : Option Nat

def Sentiment.start : Sentiment := ⟨0, [], Recomputed.start, none⟩

/-- The threshold of the thread's cohort, the retention in days, and the zone of the server's
clock. -/
structure SentimentSettings where
  k : Nat
  retention : Nat
  zone : Zone

/-- `COUNT(DISTINCT user_id)` of a facet. -/
def reactors (reactions : List Reaction) (slug : String) : Nat :=
  ((reactions.filter fun row => row.emoji == slug).map Reaction.user).dedup.length

/-- The rows created before this time are deleted. -/
def SentimentSettings.cutoff (settings : SentimentSettings) (now : Nat) : Service → Nat
  | .go => Go.addDate settings.zone settings.retention now
  | .python => Py.daysBefore settings.retention now

inductive SentimentOp where
  | wait (time : Nat)
  | react (user : Nat) (slug : String)
  | recompute (service : Service) (audience : Option Nat)
  | purge (service : Service)
  deriving DecidableEq

variable (settings : SentimentSettings)

/-- What the run of the daily job reads. -/
def Sentiment.visit (s : Sentiment) (service : Service) (audience : Option Nat) : Recompute :=
  ⟨service, s.clock, audience.map fun n =>
    ⟨reactors s.reactions, settings.k, n, settings.retention⟩⟩

/-- A step. A member who has reacted to the facet does not react again. -/
def sentimentStep (s : Sentiment) : SentimentOp → Sentiment
  | .wait time => { s with clock := s.clock + time }
  | .react user slug =>
    if s.reactions.any fun row => row.user == user && row.emoji == slug then s
    else { s with reactions := s.reactions ++ [⟨user, slug, s.clock⟩] }
  | .recompute service audience =>
    { s with daily := Social.recompute s.daily (s.visit settings service audience) }
  | .purge service =>
    if claimDaily s.purgedAt s.clock then
      { s with
        reactions := s.reactions.filter fun row =>
          !decide (row.createdAt < settings.cutoff s.clock service)
        purgedAt := some s.clock }
    else s

/-- The facet is latched or permanent after the last run. -/
def Sentiment.Displays (s : Sentiment) (slug : String) : Prop := s.daily.footer.Displays slug

/-- The run finds too few rows of a facet that is not permanent and has been latched for fewer days
than the retention. -/
def Lapses (s : Sentiment) (op : SentimentOp) (slug : String) : Prop :=
  ∃ service audience since, op = .recompute service (some audience) ∧
    claimDaily s.daily.lastRunAt s.clock = true ∧
    s.daily.footer.latch slug = ⟨some since, false⟩ ∧
    reactors s.reactions slug < settings.k ∧
    s.clock / dayLength < since + settings.retention

/-- The step is a purge that deletes a reactor of the facet. -/
def Removes (s : Sentiment) (op : SentimentOp) (slug : String) : Prop :=
  (∃ service, op = .purge service) ∧
    reactors (sentimentStep settings s op).reactions slug < reactors s.reactions slug

/-! ### What a step does to the footer -/

variable {settings}

variable {s : Sentiment}

theorem wellFormed_sentimentStep (h : s.daily.footer.WellFormed)
    (op : SentimentOp) : (sentimentStep settings s op).daily.footer.WellFormed := by
  cases op with
  | wait => exact h
  | react =>
    simp only [sentimentStep]
    split <;> exact h
  | recompute => exact wellFormed_recompute h _
  | purge =>
    simp only [sentimentStep]
    split <;> exact h

theorem wellFormed_sentimentRun (ops : List SentimentOp) :
    (run (sentimentStep settings) Sentiment.start ops).daily.footer.WellFormed :=
  @Machine.run_invariant _ _ (sentimentStep settings) (fun s => s.daily.footer.WellFormed)
    (fun _ op h => wellFormed_sentimentStep h op) _ Footer.WellFormed.blank ops

theorem footer_sentimentStep {op : SentimentOp}
    (hop : ∀ service audience, op ≠ .recompute service audience) :
    (sentimentStep settings s op).daily = s.daily := by
  cases op with
  | wait => rfl
  | react =>
    simp only [sentimentStep]
    split <;> rfl
  | recompute service audience => exact absurd rfl (hop service audience)
  | purge =>
    simp only [sentimentStep]
    split <;> rfl

variable {slug : String}

/-- A run of the daily job does a step of the latch, if it claims the marker and comes to the post. -/
theorem latch_sentimentStep (h : s.daily.footer.WellFormed) (service : Service)
    (audience : Option Nat) (hslug : slug ∈ facets) :
    (sentimentStep settings s (.recompute service audience)).daily.footer.latch slug =
      if claimDaily s.daily.lastRunAt s.clock then
        match audience with
        | none => s.daily.footer.latch slug
        | some n => Latch.step (s.daily.footer.latch slug)
          (Counted.reading ⟨reactors s.reactions, settings.k, n, settings.retention⟩
            (s.clock / dayLength) slug)
      else s.daily.footer.latch slug := by
  show (recompute s.daily (s.visit settings service audience)).footer.latch slug = _
  rw [latch_recompute h _ hslug, reads]
  show run Latch.step _ (Option.map _ (if claimDaily s.daily.lastRunAt s.clock then
    Option.map _ (audience.map _) else none)).toList = _
  split
  · cases audience <;> rfl
  · rfl

theorem displays_sentimentStep (h : s.daily.footer.WellFormed)
    (hslug : slug ∈ facets) (hdisplays : s.Displays slug) (op : SentimentOp) :
    (sentimentStep settings s op).Displays slug ↔ ¬Lapses settings s op slug := by
  by_cases hop : ∀ service audience, op ≠ .recompute service audience
  · rw [Sentiment.Displays, footer_sentimentStep hop]
    refine ⟨fun _ => ?_, fun _ => hdisplays⟩
    rintro ⟨service, audience, _, heq, _⟩
    exact hop service (some audience) heq
  · simp only [not_forall, not_not] at hop
    have ⟨service, audience, heq⟩ := hop
    subst heq
    rw [Sentiment.Displays, (wellFormed_sentimentStep h _).displays_iff,
      latch_sentimentStep h service audience hslug]
    rw [Sentiment.Displays, h.displays_iff] at hdisplays
    split
    · next hclaim =>
      cases audience with
      | none =>
        refine ⟨fun _ => ?_, fun _ => hdisplays⟩
        rintro ⟨_, _, _, heq, _⟩
        cases heq
      | some n =>
        dsimp only
        rw [Latch.displayed_step hdisplays, not_iff_not]
        simp only [not_due_reading]
        constructor
        · intro ⟨since, hlatch, hfew, hyoung⟩
          have hcount : ¬settings.k ≤ reactors s.reactions slug := of_decide_eq_false hfew
          exact ⟨service, n, since, rfl, hclaim, hlatch, Nat.lt_of_not_le hcount, hyoung⟩
        · rintro ⟨_, _, since, heq, _, hlatch, hfew, hyoung⟩
          cases heq
          exact ⟨since, hlatch, decide_eq_false (Nat.not_le_of_lt hfew), hyoung⟩
    · next hclaim =>
      refine ⟨fun _ => ?_, fun _ => hdisplays⟩
      rintro ⟨_, _, _, _, hclaimed, _⟩
      exact hclaim hclaimed

/-! ### The reactors of a facet -/

theorem reactors_eq_card (reactions : List Reaction) (slug : String) :
    reactors reactions slug =
      ((reactions.filter fun row => row.emoji == slug).map Reaction.user).toFinset.card := by
  rw [reactors, List.card_toFinset]

theorem reactors_mono {reactions reactions' : List Reaction}
    (h : ∀ row ∈ reactions, row.emoji = slug → row ∈ reactions') :
    reactors reactions slug ≤ reactors reactions' slug := by
  rw [reactors_eq_card, reactors_eq_card]
  refine Finset.card_le_card fun user huser => ?_
  simp only [List.mem_toFinset, List.mem_map, List.mem_filter, beq_iff_eq] at huser ⊢
  have ⟨row, ⟨hrow, hemoji⟩, heq⟩ := huser
  exact ⟨row, ⟨h row hrow hemoji, hemoji⟩, heq⟩

/-- The reactions that are not older than a day. -/
def recent (reactions : List Reaction) (day : Nat) : List Reaction :=
  reactions.filter fun row => decide (day * dayLength ≤ row.createdAt)

theorem mem_react {user : Nat} {row : Reaction}
    (h : row ∈ s.reactions) : row ∈ (sentimentStep settings s (.react user slug)).reactions := by
  simp only [sentimentStep]
  split
  · exact h
  · exact List.mem_append_left _ h

/-- Enough members back a facet that is latched and not permanent. -/
def Backed (settings : SentimentSettings) (s : Sentiment) (slug : String) : Prop :=
  ∀ since, s.daily.footer.latch slug = ⟨some since, false⟩ →
    settings.k ≤ reactors s.reactions slug

theorem backed_sentimentStep (h : s.daily.footer.WellFormed)
    (hslug : slug ∈ facets) (hbacked : Backed settings s slug) {op : SentimentOp}
    (hkept : ¬Removes settings s op slug) : Backed settings (sentimentStep settings s op) slug := by
  intro since hlatch
  cases op with
  | wait => exact hbacked since hlatch
  | react =>
    rw [footer_sentimentStep fun _ _ heq => (by cases heq)] at hlatch
    exact (hbacked since hlatch).trans (reactors_mono fun row hrow _ => mem_react hrow)
  | recompute service audience =>
    rw [latch_sentimentStep h service audience hslug] at hlatch
    split at hlatch
    · cases audience with
      | none => exact hbacked since hlatch
      | some =>
        dsimp only at hlatch
        rcases Latch.step_since (congrArg Latch.State.since hlatch) with
          ⟨_, hkeeps⟩ | ⟨_, hstarts, _⟩
        · exact of_decide_eq_true hkeeps
        · exact of_decide_eq_true (Latch.Reading.keeps_of_starts _ hstarts)
    · exact hbacked since hlatch
  | purge service =>
    rw [footer_sentimentStep fun _ _ heq => (by cases heq)] at hlatch
    have hcount := hbacked since hlatch
    have hremoves : ¬reactors (sentimentStep settings s (.purge service)).reactions slug <
        reactors s.reactions slug := fun hless => hkept ⟨⟨service, rfl⟩, hless⟩
    omega

theorem not_lapses_of_backed (h : Backed settings s slug)
    (op : SentimentOp) : ¬Lapses settings s op slug := by
  rintro ⟨_, _, since, _, _, hlatch, hfew, _⟩
  exact absurd (h since hlatch) (Nat.not_le_of_lt hfew)

/-- A facet is permanent, or it is latched since a day and enough members have reacted since the
beginning of that day, unless it has its age. -/
def Fresh (settings : SentimentSettings) (since : Nat) (s : Sentiment) (slug : String) : Prop :=
  (s.daily.footer.latch slug).permanent = true ∨
    s.daily.footer.latch slug = ⟨some since, false⟩ ∧
      (s.clock / dayLength < since + settings.retention →
        settings.k ≤ reactors (recent s.reactions since) slug)

variable {since : Nat}

theorem mem_recent_purge (hzone : settings.zone = Zone.utc)
    (hyoung : s.clock / dayLength < since + settings.retention) (service : Service)
    {row : Reaction} (h : row ∈ recent s.reactions since) :
    row ∈ recent (sentimentStep settings s (.purge service)).reactions since := by
  have hcutoff : settings.cutoff s.clock service = s.clock - settings.retention * dayLength := by
    cases service with
    | go =>
      show Go.addDate settings.zone settings.retention s.clock = _
      rw [hzone]
      rfl
    | python => rfl
  have ⟨hmem, hday⟩ := List.mem_filter.mp h
  have hcreated : since * dayLength ≤ row.createdAt := of_decide_eq_true hday
  have hclock : s.clock < (since + settings.retention) * dayLength :=
    (Nat.div_lt_iff_lt_mul (by decide)).mp hyoung
  simp only [sentimentStep]
  split
  · refine List.mem_filter.mpr ⟨List.mem_filter.mpr ⟨hmem, ?_⟩, hday⟩
    rw [hcutoff]
    rw [Nat.add_mul] at hclock
    have hkept : ¬row.createdAt < s.clock - settings.retention * dayLength := by omega
    simp [hkept]
  · exact h

theorem fresh_sentimentStep (h : s.daily.footer.WellFormed)
    (hslug : slug ∈ facets) (hzone : settings.zone = Zone.utc)
    (hfresh : Fresh settings since s slug) (op : SentimentOp) :
    Fresh settings since (sentimentStep settings s op) slug := by
  rcases hfresh with hpermanent | ⟨hlatch, hcount⟩
  · -- The permanent mark stays.
    by_cases hop : ∀ service audience, op ≠ .recompute service audience
    · rw [Fresh, footer_sentimentStep hop]
      exact Or.inl hpermanent
    · simp only [not_forall, not_not] at hop
      have ⟨service, audience, heq⟩ := hop
      subst heq
      refine Or.inl ?_
      rw [latch_sentimentStep h service audience hslug]
      split
      · cases audience with
        | none => exact hpermanent
        | some => exact Latch.permanent_step hpermanent _
      · exact hpermanent
  · cases op with
    | wait =>
      refine Or.inr ⟨hlatch, fun hyoung => hcount (Nat.lt_of_le_of_lt ?_ hyoung)⟩
      exact Nat.div_le_div_right (Nat.le_add_right _ _)
    | react user slug' =>
      rw [Fresh, footer_sentimentStep fun _ _ heq => (by cases heq)]
      refine Or.inr ⟨hlatch, fun hyoung => ?_⟩
      have hclock : (sentimentStep settings s (.react user slug')).clock = s.clock := by
        simp only [sentimentStep]
        split <;> rfl
      rw [hclock] at hyoung
      refine (hcount hyoung).trans (reactors_mono fun row hrow _ => ?_)
      have ⟨hmem, hday⟩ := List.mem_filter.mp hrow
      exact List.mem_filter.mpr ⟨mem_react hmem, hday⟩
    | recompute service audience =>
      rw [Fresh, latch_sentimentStep h service audience hslug, hlatch]
      split
      · cases audience with
        | none => exact Or.inr ⟨rfl, hcount⟩
        | some n =>
          dsimp only
          rcases Latch.step_latched since (Counted.reading
            ⟨reactors s.reactions, settings.k, n, settings.retention⟩ (s.clock / dayLength) slug)
            with hpermanent | hstays | ⟨hfew, hyoung⟩
          · exact Or.inl hpermanent
          · exact Or.inr ⟨hstays, hcount⟩
          · -- All reactors since the day count, and they are enough.
            have hless : ¬settings.k ≤ reactors s.reactions slug := of_decide_eq_false hfew
            have hall : reactors (recent s.reactions since) slug ≤ reactors s.reactions slug :=
              reactors_mono fun row hrow _ => (List.mem_filter.mp hrow).1
            exact absurd ((hcount (not_due_reading.mp hyoung)).trans hall) hless
      · exact Or.inr ⟨rfl, hcount⟩
    | purge service =>
      rw [Fresh, footer_sentimentStep fun _ _ heq => (by cases heq)]
      refine Or.inr ⟨hlatch, fun hyoung => ?_⟩
      have hclock : (sentimentStep settings s (.purge service)).clock = s.clock := by
        simp only [sentimentStep]
        split <;> rfl
      rw [hclock] at hyoung
      exact (hcount hyoung).trans
        (reactors_mono fun row hrow _ => mem_recent_purge hzone hyoung service hrow)

/-! ### Every schedule -/

theorem Fresh.displays (h : s.daily.footer.WellFormed)
    (hfresh : Fresh settings since s slug) : s.Displays slug := by
  rw [Sentiment.Displays, h.displays_iff]
  rcases hfresh with hpermanent | ⟨hlatch, _⟩
  · exact Or.inr hpermanent
  · rw [hlatch]
    exact Or.inl rfl

theorem backed_start (slug : String) : Backed settings Sentiment.start slug := by
  intro since hlatch
  cases hlatch

/-- The state after a schedule. -/
def sentimentRun (settings : SentimentSettings) (ops : List SentimentOp) : Sentiment :=
  run (sentimentStep settings) Sentiment.start ops

/-- The facet is displayed after every step of a schedule. -/
def StaysDisplayed (settings : SentimentSettings) (s : Sentiment) (ops : List SentimentOp)
    (slug : String) : Prop :=
  ∀ q ∈ steps (sentimentStep settings) s ops, (sentimentStep settings q.1 q.2).Displays slug

/-- After every schedule, for every facet that is displayed:

* it stays displayed exactly as long as no run finds too few of its rows before it has been latched
  for the retention;
* it stays displayed where no purge of the schedule deletes one of its reactors;
* by a clock of universal time, it stays displayed if enough members have reacted since the beginning
  of the day on which it latched. -/
theorem displayed_until (settings : SentimentSettings) (before after : List SentimentOp)
    {slug : String} (hslug : slug ∈ facets)
    (hdisplays : (sentimentRun settings before).Displays slug) :
    (StaysDisplayed settings (sentimentRun settings before) after slug ↔
      ∀ q ∈ steps (sentimentStep settings) (sentimentRun settings before) after,
        ¬Lapses settings q.1 q.2 slug) ∧
    ((∀ q ∈ steps (sentimentStep settings) Sentiment.start (before ++ after),
        ¬Removes settings q.1 q.2 slug) →
      StaysDisplayed settings (sentimentRun settings before) after slug) ∧
    (∀ since, settings.zone = Zone.utc →
      (sentimentRun settings before).daily.footer.latch slug = ⟨some since, false⟩ →
      settings.k ≤ reactors (recent (sentimentRun settings before).reactions since) slug →
        StaysDisplayed settings (sentimentRun settings before) after slug) := by
  have hwell : (sentimentRun settings before).daily.footer.WellFormed :=
    wellFormed_sentimentRun before
  have hstays : StaysDisplayed settings (sentimentRun settings before) after slug ↔
      ∀ q ∈ steps (sentimentStep settings) (sentimentRun settings before) after,
        ¬Lapses settings q.1 q.2 slug :=
    @Machine.forall_steps_iff _ _ (sentimentStep settings)
      (fun s => s.daily.footer.WellFormed ∧ s.Displays slug) (fun s => s.Displays slug)
      (fun s op => ¬Lapses settings s op slug)
      (fun s op h => displays_sentimentStep h.1 hslug h.2 op)
      (fun s op h hnext => ⟨wellFormed_sentimentStep h.1 op, hnext⟩) _ ⟨hwell, hdisplays⟩ after
  refine ⟨hstays, fun hkept => hstays.mpr ?_, fun since hzone hlatch hcount => ?_⟩
  · -- From the start every latched facet is backed.
    have hbacked : ∀ q ∈ steps (sentimentStep settings) Sentiment.start (before ++ after),
        q.1.daily.footer.WellFormed ∧ Backed settings q.1 slug :=
      @Machine.steps_guarded _ _ (sentimentStep settings)
        (fun s => s.daily.footer.WellFormed ∧ Backed settings s slug)
        (fun s op => ¬Removes settings s op slug)
        (fun s op h hop =>
          ⟨wellFormed_sentimentStep h.1 op, backed_sentimentStep h.1 hslug h.2 hop⟩)
        Sentiment.start ⟨Footer.WellFormed.blank, backed_start slug⟩ _ hkept
    intro q hq
    refine not_lapses_of_backed (hbacked q ?_).2 q.2
    rw [Machine.steps_append]
    exact List.mem_append_right _ hq
  · -- Until the facet is permanent its rows since the day are safe.
    have hfresh : ∀ q ∈ steps (sentimentStep settings) (sentimentRun settings before) after,
        q.1.daily.footer.WellFormed ∧ Fresh settings since q.1 slug :=
      @Machine.steps_invariant _ _ (sentimentStep settings)
        (fun s => s.daily.footer.WellFormed ∧ Fresh settings since s slug)
        (fun s op h =>
          ⟨wellFormed_sentimentStep h.1 op, fresh_sentimentStep h.1 hslug hzone h.2 op⟩)
        _ ⟨hwell, Or.inr ⟨hlatch, fun _ => hcount⟩⟩ after
    intro q hq
    have ⟨hq, hqfresh⟩ := hfresh q hq
    exact (fresh_sentimentStep hq hslug hzone hqfresh q.2).displays
      (wellFormed_sentimentStep hq q.2)

/-! ### A purge before graduation -/

/-- The default settings of an adult thread, with a threshold of two. -/
def twoOfFour : SentimentSettings := ⟨2, 90, Zone.utc⟩

/-- A member reacts on the first day and another one on day 60, when a run latches the facet. -/
def latchedLate (service : Service) : List SentimentOp :=
  [.react 1 "helped_me", .wait (60 * dayLength), .react 2 "helped_me",
    .recompute service (some 4)]

/-- On day 91 a purge deletes the first reaction, and a run follows. -/
def purgedEarly (service : Service) : List SentimentOp :=
  [.wait (31 * dayLength), .purge service, .recompute service (some 4)]

instance (s : Sentiment) (slug : String) : Decidable (s.Displays slug) :=
  inferInstanceAs (Decidable (slug ∈ s.daily.footer.pairs.map Prod.fst ∨
    slug ∈ s.daily.footer.permanent))

/-- The facet that latched on day 60 is displayed then. -/
theorem displayed_until_latchedLate :
    (StaysDisplayed twoOfFour (sentimentRun twoOfFour (latchedLate .go))
      (purgedEarly .go) "helped_me" ↔
      ∀ q ∈ steps (sentimentStep twoOfFour) (sentimentRun twoOfFour (latchedLate .go))
        (purgedEarly .go),
        ¬Lapses twoOfFour q.1 q.2 "helped_me") ∧
    ((∀ q ∈ steps (sentimentStep twoOfFour) Sentiment.start
        (latchedLate .go ++ purgedEarly .go),
        ¬Removes twoOfFour q.1 q.2 "helped_me") →
      StaysDisplayed twoOfFour (sentimentRun twoOfFour (latchedLate .go))
      (purgedEarly .go) "helped_me") ∧
    (∀ since, twoOfFour.zone = Zone.utc →
      (sentimentRun twoOfFour (latchedLate .go)).daily.footer.latch "helped_me" =
        ⟨some since, false⟩ →
      twoOfFour.k ≤
        reactors (recent (sentimentRun twoOfFour (latchedLate .go)).reactions since) "helped_me" →
        StaysDisplayed twoOfFour (sentimentRun twoOfFour (latchedLate .go))
      (purgedEarly .go) "helped_me") :=
  displayed_until twoOfFour (latchedLate .go) (purgedEarly .go) (by decide) (by decide +kernel)

/-- No member takes a reaction back, and the facet vanishes, with both implementations. -/
theorem purged_before_graduation :
    ¬(∀ settings before after slug, (sentimentRun settings before).Displays slug →
      (sentimentRun settings (before ++ after)).Displays slug) ∧
    ¬(sentimentRun twoOfFour (latchedLate .python ++ purgedEarly .python)).Displays
      "helped_me" := by
  refine ⟨fun h => ?_, by decide +kernel⟩
  exact absurd (h twoOfFour (latchedLate .go) (purgedEarly .go) "helped_me" (by decide +kernel))
    (by decide +kernel)

end SocialActivities.Social
