import SocialActivities.Lib.Calendar
import SocialActivities.Social.Appreciation

/-!
# `SocialActivities.Social.AppreciationRuns`: the footer of a post over the daily runs

A schedule is a list of runs of the daily job, of either implementation, at any times. A run that
does not claim the marker changes nothing, so the runs that do are at least a day apart. A run that
claims it may still pass the post by: it is hidden, or the run failed before it came to the post.
The others are the readings of each facet (`readings`).

`appreciation_trace` says from the readings which facets a footer shows and which of them are
permanent, that no permanent facet is lost, and when no facet is latched and permanent at once:
exactly when no run finds a permanent facet above both thresholds. The code says that such a facet
is not latched again, and latches it (`graduated_again`).
-/

namespace SocialActivities.Social

open Lib
open Lib.Calendar (dayLength)
open Lib.Machine (run steps emitted)

/-- The implementation that a run belongs to. -/
inductive Service where
  | go
  | python
  deriving DecidableEq

def Service.appreciation : Service → Footer → Counted → Nat → Footer × FooterChanges
  | .go => Go.appreciation
  | .python => Py.recomputeAppreciation

/-- A run of the daily job as far as it concerns the post: `counted` is what it reads, if it comes
to the post. -/
structure Recompute where
  service : Service
  now : Nat
  counted : Option Counted

/-- The marker `post_sentiment_daily` and the footer of the post. -/
structure Recomputed where
  lastRunAt : Option Nat
  footer : Footer

def Recomputed.start : Recomputed := ⟨none, Footer.blank⟩

/-- `claimDaily` and `_claim_daily`. -/
def claimDaily (lastRunAt : Option Nat) (now : Nat) : Bool :=
  match lastRunAt with
  | none => true
  | some last => last + dayLength ≤ now

/-- A run of the daily job. -/
def recompute (s : Recomputed) (r : Recompute) : Recomputed :=
  if claimDaily s.lastRunAt r.now then
    { lastRunAt := some r.now
      footer := match r.counted with
        | none => s.footer
        | some c => (r.service.appreciation s.footer c (r.now / dayLength)).1 }
  else s

/-- What a run reads for the post, and on which day, if it claims the marker. -/
def reads (s : Recomputed) (r : Recompute) : Option (Nat × Counted) :=
  if claimDaily s.lastRunAt r.now then r.counted.map fun c => (r.now / dayLength, c) else none

/-- What the runs read of a facet. -/
def readings (rs : List Recompute) (slug : String) : List Latch.Reading :=
  (emitted recompute reads Recomputed.start rs).map fun q => q.2.reading q.1 slug

/-- The facet is latched or permanent. -/
def Footer.Displays (footer : Footer) (slug : String) : Prop :=
  slug ∈ footer.pairs.map Prod.fst ∨ slug ∈ footer.permanent

/-- No facet occurs twice in the latched pairs and the permanent ones. -/
def Footer.Unique (footer : Footer) : Prop :=
  (footer.pairs.map Prod.fst ++ footer.permanent).Nodup

instance (footer : Footer) : Decidable footer.Unique :=
  inferInstanceAs (Decidable (footer.pairs.map Prod.fst ++ footer.permanent).Nodup)

/-! ### A footer as a latch for each facet -/

theorem get?_foldl_set (pairs : List (String × Option Nat)) (m : KeyMap String (Option Nat))
    (hpairs : (pairs.map Prod.fst).Nodup) (slug : String) (since : Option Nat) :
    (pairs.foldl (fun m pair => m.set pair.1 pair.2) m).get? slug = some since ↔
      (slug, since) ∈ pairs ∨ slug ∉ pairs.map Prod.fst ∧ m.get? slug = some since := by
  induction pairs generalizing m with
  | nil => simp
  | cons pair pairs ih =>
    rw [List.map_cons, List.nodup_cons] at hpairs
    rw [List.foldl_cons, ih _ hpairs.2, KeyMap.get?_set, List.mem_cons, List.map_cons,
      List.mem_cons]
    by_cases hslug : slug = pair.1
    · subst hslug
      have hrest : (pair.1, since) ∉ pairs := fun h =>
        hpairs.1 (List.mem_map.mpr ⟨_, h, rfl⟩)
      simp only [hrest, hpairs.1, if_true, Option.some.injEq, false_or, not_false_iff, true_and,
        not_true_eq_false, false_and, or_false]
      constructor
      · rintro rfl
        rfl
      · intro heq
        rw [← heq]
    · have hne : (slug, since) ≠ pair := fun heq => hslug (congrArg Prod.fst heq)
      simp only [hslug, hne, if_false, false_or]

theorem get?_existing {pairs : List (String × Option Nat)} (hpairs : (pairs.map Prod.fst).Nodup)
    {slug : String} {since : Option Nat} :
    (existing pairs).get? slug = some since ↔ (slug, since) ∈ pairs := by
  rw [existing, get?_foldl_set pairs KeyMap.empty hpairs]
  simp

/-- A footer as the runs leave it. -/
structure Footer.WellFormed (footer : Footer) : Prop where
  keys : (footer.pairs.map Prod.fst).Nodup
  catalog : ∀ pair ∈ footer.pairs, pair.1 ∈ facets
  dated : ∀ pair ∈ footer.pairs, pair.2.isSome = true
  permanent : footer.permanent.Nodup

/-- The latch of a facet. -/
def Footer.latch (footer : Footer) (slug : String) : Latch.State :=
  ⟨((existing footer.pairs).get? slug).bind id, slug ∈ footer.permanent⟩

namespace Footer.WellFormed

variable {footer : Footer}

theorem blank : Footer.blank.WellFormed where
  keys := List.nodup_nil
  catalog pair h := by cases h
  dated pair h := by cases h
  permanent := List.nodup_nil

theorem mem_pairs_iff (h : footer.WellFormed) (slug : String) :
    slug ∈ footer.pairs.map Prod.fst ↔ (footer.latch slug).since.isSome = true := by
  constructor
  · intro hslug
    have ⟨pair, hpair, heq⟩ := List.mem_map.mp hslug
    have ⟨since, hsince⟩ := Option.isSome_iff_exists.mp (h.dated pair hpair)
    have hget : (existing footer.pairs).get? slug = some (some since) := by
      rw [get?_existing h.keys, ← heq, ← hsince]
      exact hpair
    rw [Footer.latch, hget]
    rfl
  · intro hsome
    have ⟨since, hsince⟩ := Option.isSome_iff_exists.mp hsome
    have ⟨stored, hget, _⟩ := Option.bind_eq_some_iff.mp hsince
    exact List.mem_map.mpr ⟨_, (get?_existing h.keys).mp hget, rfl⟩

theorem displays_iff (h : footer.WellFormed) (slug : String) :
    footer.Displays slug ↔ (footer.latch slug).displayed := by
  rw [Footer.Displays, h.mem_pairs_iff, Latch.State.displayed]
  simp [Footer.latch]

theorem unique_iff (h : footer.WellFormed) :
    footer.Unique ↔ ∀ slug ∈ facets, (footer.latch slug).Unique := by
  rw [Footer.Unique, List.nodup_append]
  constructor
  · intro ⟨_, _, hdisjoint⟩ slug _ hpermanent
    rw [← Option.not_isSome_iff_eq_none, ← h.mem_pairs_iff]
    exact fun hslug => hdisjoint slug hslug slug (of_decide_eq_true hpermanent) rfl
  · intro hunique
    refine ⟨h.keys, h.permanent, fun slug hslug slug' hslug' heq => ?_⟩
    subst heq
    have ⟨pair, hpair, heq⟩ := List.mem_map.mp hslug
    have hnone := hunique slug (heq ▸ h.catalog pair hpair) (decide_eq_true hslug')
    rw [h.mem_pairs_iff, hnone] at hslug
    cases hslug

end Footer.WellFormed

theorem appreciation_go (v : Service) (footer : Footer) (c : Counted) (today : Nat) :
    (v.appreciation footer c today).1 = (Go.appreciation footer c today).1 := by
  cases v with
  | go => rfl
  | python => exact appreciation_eq footer c today

theorem wellFormed_appreciation (v : Service) (footer : Footer) (c : Counted) (today : Nat) :
    (v.appreciation footer c today).1.WellFormed := by
  obtain ⟨hpairs, hpermanent⟩ := Go.appreciation_spec footer c today
  rw [appreciation_go]
  have hnext : ∀ pair ∈ (Go.appreciation footer c today).1.pairs,
      pair.1 ∈ facets ∧ pair.2.isSome = true := by
    intro pair hpair
    rw [hpairs, nextPairs] at hpair
    obtain ⟨slug, hslug, heq⟩ := List.mem_filterMap.mp hpair
    obtain ⟨since, _, hmade⟩ := Option.map_eq_some_iff.mp heq
    rw [← hmade]
    exact ⟨hslug, rfl⟩
  refine ⟨?_, fun pair hpair => (hnext pair hpair).1, fun pair hpair => (hnext pair hpair).2,
    hpermanent.nodup⟩
  rw [hpairs, nextPairs]
  have hkeys := nodup_fst_filterMap fun slug =>
    (nextLatch c today (existing footer.pairs) slug (slug ∈ footer.permanent)).since.map some
  simpa only [Option.map_map, Function.comp_def] using hkeys

variable {slug : String}

theorem latch_appreciation (v : Service) {footer : Footer} (h : footer.WellFormed) (c : Counted)
    (today : Nat) (hslug : slug ∈ facets) :
    (v.appreciation footer c today).1.latch slug =
      Latch.step (footer.latch slug) (c.reading today slug) := by
  obtain ⟨hpairs, hpermanent⟩ := Go.appreciation_spec footer c today
  have hwell : (Go.appreciation footer c today).1.WellFormed :=
    wellFormed_appreciation .go footer c today
  rw [appreciation_go]
  -- A day that a footer of the runs holds parses.
  have hstate : nextLatch c today (existing footer.pairs) slug (slug ∈ footer.permanent) =
      Latch.step (footer.latch slug) (c.reading today slug) := by
    rw [nextLatch, Footer.latch]
    congr 2
    cases hget : (existing footer.pairs).get? slug with
    | none => rfl
    | some =>
      obtain ⟨since, hsince⟩ := Option.isSome_iff_exists.mp
        (h.dated _ ((get?_existing h.keys).mp hget))
      simp only at hsince
      subst hsince
      rfl
  have hsince : ((existing (Go.appreciation footer c today).1.pairs).get? slug).bind id =
      (Latch.step (footer.latch slug) (c.reading today slug)).since := by
    rw [← hstate]
    refine Option.ext fun since => ?_
    rw [Option.bind_eq_some_iff]
    constructor
    · rintro ⟨stored, hget, heq⟩
      rw [get?_existing hwell.keys, hpairs, nextPairs, List.mem_filterMap] at hget
      obtain ⟨slug', _, hmade⟩ := hget
      obtain ⟨since', hnext, hpair⟩ := Option.map_eq_some_iff.mp hmade
      cases hpair
      cases heq
      exact hnext
    · intro hnext
      refine ⟨some since, (get?_existing hwell.keys).mpr ?_, rfl⟩
      rw [hpairs, nextPairs, List.mem_filterMap]
      exact ⟨slug, hslug, by rw [hnext]; rfl⟩
  have hmark : decide (slug ∈ (Go.appreciation footer c today).1.permanent) =
      (Latch.step (footer.latch slug) (c.reading today slug)).permanent := by
    rw [Bool.eq_iff_iff, decide_eq_true_iff, hpermanent.mem, hstate]
    constructor
    · rintro (hold | ⟨_, hnew⟩)
      · exact Latch.permanent_step (decide_eq_true hold) _
      · exact hnew
    · intro hnew
      exact Or.inr ⟨hslug, hnew⟩
  show Latch.State.mk _ _ = _
  rw [hsince, hmark]

theorem permanent_appreciation (v : Service) (footer : Footer) (c : Counted) (today : Nat) :
    footer.permanent ⊆ (v.appreciation footer c today).1.permanent := by
  intro slug hslug
  rw [appreciation_go]
  exact ((Go.appreciation_spec footer c today).2.mem slug).mpr (Or.inl hslug)

/-! ### Every schedule -/

/-- The first day on which the next run can claim the marker. -/
def nextDay (s : Recomputed) : Nat := s.lastRunAt.elim 0 fun last => last / dayLength + 1

variable {s : Recomputed}

theorem nextDay_le {r : Recompute} (h : claimDaily s.lastRunAt r.now = true) :
    nextDay s ≤ r.now / dayLength := by
  cases hlast : s.lastRunAt with
  | none =>
    rw [nextDay, hlast]
    exact Nat.zero_le _
  | some last =>
    rw [hlast] at h
    have hday : last + dayLength ≤ r.now := of_decide_eq_true h
    rw [nextDay, hlast, Option.elim_some, ← Nat.add_div_right last (by decide)]
    exact Nat.div_le_div_right hday

theorem readings_days (rs : List Recompute) (slug : String) :
    (readings rs slug).Pairwise fun r r' => r.today ≤ r'.today := by
  have hstep : ∀ s r, nextDay s ≤ nextDay (recompute s r) := by
    intro s r
    rw [recompute]
    split
    · next hclaim => exact Nat.le_succ_of_le (nextDay_le hclaim)
    · exact Nat.le_refl _
  have hreads : ∀ s r (q : Nat × Counted), reads s r = some q →
      nextDay s ≤ q.1 ∧ q.1 < nextDay (recompute s r) := by
    intro s r q hq
    rw [reads] at hq
    split at hq
    · next hclaim =>
      have ⟨c, _, heq⟩ := Option.map_eq_some_iff.mp hq
      rw [recompute, if_pos hclaim, ← heq]
      exact ⟨nextDay_le hclaim, Nat.lt_succ_self _⟩
    · cases hq
  have hdays : (emitted recompute reads Recomputed.start rs).Pairwise fun q q' => q.1 < q'.1 :=
    Machine.emitted_pairwise nextDay hstep hreads Recomputed.start rs
  rw [readings, List.pairwise_map]
  exact hdays.imp fun h => Nat.le_of_lt h

theorem readings_concat (rs : List Recompute) (r : Recompute) (slug : String) :
    readings (rs ++ [r]) slug = readings rs slug ++
      ((reads (run recompute Recomputed.start rs) r).map fun q => q.2.reading q.1 slug).toList := by
  rw [readings, Machine.emitted_concat, List.map_append, readings]
  cases reads (run recompute Recomputed.start rs) r <;> rfl

theorem wellFormed_recompute (h : s.footer.WellFormed) (r : Recompute) :
    (recompute s r).footer.WellFormed := by
  rw [recompute]
  split
  · show (match r.counted with | none => s.footer | some c => _ : Footer).WellFormed
    cases r.counted with
    | none => exact h
    | some c => exact wellFormed_appreciation r.service s.footer c _
  · exact h

theorem latch_recompute (h : s.footer.WellFormed) (r : Recompute)
    (hslug : slug ∈ facets) : (recompute s r).footer.latch slug =
      run Latch.step (s.footer.latch slug)
        ((reads s r).map fun q => q.2.reading q.1 slug).toList := by
  rw [recompute, reads]
  split
  · cases r.counted with
    | none => rfl
    | some c => exact latch_appreciation r.service h c _ hslug
  · rfl

theorem wellFormed_run (rs : List Recompute) :
    (run recompute Recomputed.start rs).footer.WellFormed :=
  @Machine.run_invariant _ _ recompute (fun s => s.footer.WellFormed)
    (fun _ r h => wellFormed_recompute h r) _ Footer.WellFormed.blank rs

theorem latch_run (rs : List Recompute) (hslug : slug ∈ facets) :
    (run recompute Recomputed.start rs).footer.latch slug =
      run Latch.step Latch.State.off (readings rs slug) := by
  induction rs using List.reverseRecOn with
  | nil => rfl
  | append_singleton rs r ih =>
    rw [Machine.run_concat, readings_concat, Machine.run_append, ← ih]
    exact latch_recompute (wellFormed_run rs) r hslug

/-- No facet that is permanent is above both thresholds at the run. -/
def Below (s : Recomputed) (r : Recompute) : Prop :=
  ∀ q, reads s r = some q → ∀ slug ∈ facets, slug ∈ s.footer.permanent →
    ¬(q.2.k ≤ q.2.counts slug ∧ 2 * q.2.k ≤ q.2.audience)

theorem unique_recompute (h : s.footer.WellFormed) (hunique : s.footer.Unique)
    (r : Recompute) : (recompute s r).footer.Unique ↔ Below s r := by
  rw [(wellFormed_recompute h r).unique_iff]
  rw [h.unique_iff] at hunique
  cases hreads : reads s r with
  | none =>
    constructor
    · intro _ q hq
      rw [hreads] at hq
      cases hq
    · intro _ slug hslug
      rw [latch_recompute h r hslug, hreads]
      exact hunique slug hslug
  | some q =>
    have hstep : ∀ slug ∈ facets, ((recompute s r).footer.latch slug).Unique ↔
        ¬(slug ∈ s.footer.permanent ∧ q.2.k ≤ q.2.counts slug ∧ 2 * q.2.k ≤ q.2.audience) := by
      intro slug hslug
      rw [latch_recompute h r hslug, hreads]
      show (Latch.step (s.footer.latch slug) (q.2.reading q.1 slug)).Unique ↔ _
      rw [Latch.unique_step (hunique slug hslug)]
      simp [Footer.latch, Counted.reading]
    constructor
    · intro hnext q' hq' slug hslug hpermanent habove
      rw [hreads] at hq'
      cases hq'
      exact (hstep slug hslug).mp (hnext slug hslug) ⟨hpermanent, habove⟩
    · intro hbelow slug hslug
      exact (hstep slug hslug).mpr fun h' => hbelow q hreads slug hslug h'.1 h'.2

/-- Over every schedule: a facet is permanent exactly when it was held up to a run that came at
least the retention after it had latched; it is displayed exactly when it is permanent or some run
latched it and every run since kept it; no permanent facet is lost; and no footer names a facet
twice exactly when no run finds a permanent facet above both thresholds. -/
theorem appreciation_trace (rs : List Recompute) :
    (∀ slug ∈ facets,
      (slug ∈ (run recompute Recomputed.start rs).footer.permanent ↔
        Latch.Graduated (readings rs slug)) ∧
      ((run recompute Recomputed.start rs).footer.Displays slug ↔
        Latch.Graduated (readings rs slug) ∨ Latch.Held (readings rs slug))) ∧
    (∀ q ∈ steps recompute Recomputed.start rs,
      q.1.footer.permanent ⊆ (recompute q.1 q.2).footer.permanent) ∧
    ((∀ q ∈ steps recompute Recomputed.start rs, (recompute q.1 q.2).footer.Unique) ↔
      ∀ q ∈ steps recompute Recomputed.start rs, Below q.1 q.2) := by
  refine ⟨fun slug hslug => ⟨?_, ?_⟩, fun q _ => ?_, ?_⟩
  · rw [← Latch.run_permanent_iff _ (readings_days rs slug), ← latch_run rs hslug]
    simp [Footer.latch]
  · rw [← Latch.run_displayed_iff _ (readings_days rs slug), ← latch_run rs hslug,
      (wellFormed_run rs).displays_iff]
  · rw [recompute]
    split
    · cases q.2.counted with
      | none => exact fun slug hslug => hslug
      | some c => exact permanent_appreciation q.2.service q.1.footer c _
    · exact fun slug hslug => hslug
  · refine @Machine.forall_steps_iff _ _ recompute
      (fun s => s.footer.WellFormed ∧ s.footer.Unique) (fun s => s.footer.Unique) Below
      (fun s r h => unique_recompute h.1 h.2 r)
      (fun s r h hunique => ⟨wellFormed_recompute h.1 r, hunique⟩) Recomputed.start
      ⟨Footer.WellFormed.blank, List.nodup_nil⟩ rs

/-- A facet that five members of ten keep, at the start and ninety days later, and a day after
that. -/
def graduatedAgain (service : Service) : List Recompute :=
  [0, 90, 91].map fun day =>
    ⟨service, day * dayLength, some ⟨fun slug => if slug = "helped_me" then 5 else 0, 5, 10, 90⟩⟩

/-- The footer after some runs. -/
def footerAfter (rs : List Recompute) : Footer := (run recompute Recomputed.start rs).footer

/-- A graduated facet is latched again, by both implementations. -/
theorem graduated_again :
    ¬(∀ rs, (footerAfter rs).Unique) ∧
    ("helped_me" ∈ (footerAfter (graduatedAgain .go)).permanent ∧
      ("helped_me", some 91) ∈ (footerAfter (graduatedAgain .go)).pairs) ∧
    ("helped_me" ∈ (footerAfter (graduatedAgain .python)).permanent ∧
      ("helped_me", some 91) ∈ (footerAfter (graduatedAgain .python)).pairs) := by
  refine ⟨fun h => ?_, by decide +kernel, by decide +kernel⟩
  exact absurd (h (graduatedAgain .go)) (by decide +kernel)

end SocialActivities.Social
