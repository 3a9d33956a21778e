import Mathlib.Data.List.Pairwise
import SocialActivities.Lib.Machine

/-!
# `SocialActivities.Lib.Latch`: a latch that becomes permanent with age

A value is read from time to time. It latches at a reading that is high enough to start, stays
latched while the readings keep it, and becomes permanent once it has been latched for a given
number of days.

`run_permanent_iff` and `run_displayed_iff` say from the readings alone when the latch is permanent
and when it is set: `Held` is that some reading started it and every later one kept it, `Graduated`
that it was held up to a reading that came late enough. Both hold for every list of readings in the
order of their days.

The step does not look at the permanent mark before it starts. So a permanent latch starts again,
and is both: `unique_step` says exactly when.
-/

namespace SocialActivities.Lib.Latch

/-- A reading on a day: it is high enough to start the latch, or to keep it. `age` is the number of
days after which the latch is permanent. -/
structure Reading where
  starts : Bool
  keeps : Bool
  today : Nat
  age : Nat
  keeps_of_starts : starts = true → keeps = true

/-- The day on which it latched, and the permanent mark. -/
structure State where
  since : Option Nat
  permanent : Bool
  deriving DecidableEq

/-- Neither latched nor permanent. -/
def State.off : State := ⟨none, false⟩

/-- Latched or permanent. -/
def State.displayed (s : State) : Prop := s.since.isSome = true ∨ s.permanent = true

/-- Not both. -/
def State.Unique (s : State) : Prop := s.permanent = true → s.since = none

/-- Latched, or about to become permanent: it has a start day and has reached the age. -/
def due (since : Nat) (r : Reading) : Bool := since + r.age ≤ r.today

/-- One reading. -/
def step (s : State) (r : Reading) : State :=
  match s.since with
  | some since =>
    if r.keeps then
      if due since r && !s.permanent then ⟨none, true⟩ else s
    else if s.permanent then ⟨none, true⟩
    else ⟨none, due since r⟩
  | none =>
    if r.starts then
      if due r.today r && !s.permanent then ⟨none, true⟩ else ⟨some r.today, s.permanent⟩
    else s

/-! ### One reading -/

theorem step_permanent (s : State) (r : Reading) : (step s r).permanent = true ↔
    s.permanent = true ∨ (∃ since, s.since = some since ∧ due since r = true) ∨
      s.since = none ∧ r.starts = true ∧ due r.today r = true := by
  have ⟨since, permanent⟩ := s
  cases since with
  | some since =>
    cases hkeeps : r.keeps with
    | true => cases permanent <;> cases hdue : due since r <;> simp [step, hkeeps, hdue]
    | false => cases permanent <;> simp [step, hkeeps]
  | none =>
    cases hstarts : r.starts with
    | true => cases permanent <;> cases hdue : due r.today r <;> simp [step, hstarts, hdue]
    | false => simp [step, hstarts]

variable {s : State}

theorem permanent_step (h : s.permanent = true) (r : Reading) :
    (step s r).permanent = true :=
  (step_permanent s r).mpr (Or.inl h)

variable {r : Reading} {d : Nat}

theorem step_since (h : (step s r).since = some d) :
    s.since = some d ∧ r.keeps = true ∨ s.since = none ∧ r.starts = true ∧ d = r.today := by
  have ⟨since, permanent⟩ := s
  cases since with
  | some =>
    cases hkeeps : r.keeps with
    | true =>
      simp only [step, hkeeps, if_true] at h
      split at h
      · cases h
      · exact Or.inl ⟨h, rfl⟩
    | false =>
      simp only [step, hkeeps, Bool.false_eq_true, if_false] at h
      split at h <;> cases h
  | none =>
    cases hstarts : r.starts with
    | true =>
      simp only [step, hstarts, if_true] at h
      split at h
      · cases h
      · exact Or.inr ⟨rfl, rfl, (Option.some.inj h).symm⟩
    | false =>
      simp only [step, hstarts, Bool.false_eq_true, if_false] at h
      cases h

theorem step_kept (h : s.since = some d)
    (hkeeps : r.keeps = true) : (step s r).since = some d ∨ (step s r).permanent = true := by
  have ⟨since, permanent⟩ := s
  simp only at h
  subst h
  simp only [step, hkeeps, if_true]
  split
  · exact Or.inr rfl
  · exact Or.inl rfl

theorem step_started (h : s.since = none) (hstarts : r.starts = true) :
    (step s r).since = some r.today ∨ (step s r).permanent = true := by
  have ⟨since, permanent⟩ := s
  simp only at h
  subst h
  simp only [step, hstarts, if_true]
  split
  · exact Or.inr rfl
  · exact Or.inl rfl

theorem step_latched (since : Nat) (r : Reading) :
    (step ⟨some since, false⟩ r).permanent = true ∨ step ⟨some since, false⟩ r = ⟨some since, false⟩ ∨
      r.keeps = false ∧ due since r = false := by
  cases hkeeps : r.keeps with
  | true | false => cases hdue : due since r <;> simp [step, hkeeps, hdue]

theorem displayed_step (h : s.displayed) (r : Reading) : (step s r).displayed ↔
    ¬∃ since, s = ⟨some since, false⟩ ∧ r.keeps = false ∧ due since r = false := by
  have ⟨since, permanent⟩ := s
  cases permanent with
  | true =>
    have hpermanent : (step ⟨since, true⟩ r).permanent = true := permanent_step rfl r
    simp [State.displayed, hpermanent]
  | false =>
    cases since with
    | none => simp [State.displayed] at h
    | some since =>
      cases hkeeps : r.keeps with
      | true | false => cases hdue : due since r <;> simp [step, State.displayed, hkeeps, hdue]

/-- The latch is not both latched and permanent after a reading exactly when it was not permanent
before a reading that could start it. -/
theorem unique_step (h : s.Unique) (r : Reading) :
    (step s r).Unique ↔ ¬(s.permanent = true ∧ r.starts = true) := by
  have ⟨since, permanent⟩ := s
  cases permanent with
  | false =>
    simp only [Bool.false_eq_true, false_and, not_false_iff, iff_true]
    intro hpermanent
    cases since with
    | some since =>
      simp only [step] at hpermanent ⊢
      cases hkeeps : r.keeps with
      | true => cases hdue : due since r <;> simp_all
      | false => simp
    | none =>
      simp only [step] at hpermanent ⊢
      cases hstarts : r.starts with
      | true => cases hdue : due r.today r <;> simp_all
      | false => simp
  | true =>
    have hnone : since = none := h rfl
    subst hnone
    cases hstarts : r.starts <;> simp [step, hstarts, State.Unique]

/-! ### Every list of readings -/

/-- Some reading started the latch, on the day `d`, and every later one kept it. -/
def HeldSince (rs : List Reading) (d : Nat) : Prop :=
  ∃ before r after, rs = before ++ r :: after ∧ r.starts = true ∧ r.today = d ∧
    ∀ q ∈ after, q.keeps = true

/-- Some reading started the latch and every later one kept it. -/
def Held (rs : List Reading) : Prop := ∃ d, HeldSince rs d

/-- The latch was held up to some reading, or started at it, and by then had its age. -/
def Graduated (rs : List Reading) : Prop :=
  ∃ before q after, rs = before ++ q :: after ∧
    ((∃ d, HeldSince before d ∧ due d q = true) ∨ q.starts = true ∧ due q.today q = true)

theorem not_held_nil (d : Nat) : ¬HeldSince [] d := by
  rintro ⟨before, r, after, heq, -⟩
  exact List.append_ne_nil_of_right_ne_nil before (List.cons_ne_nil r after) heq.symm

variable {rs : List Reading} {q : Reading}

theorem heldSince_concat :
    HeldSince (rs ++ [q]) d ↔
      HeldSince rs d ∧ q.keeps = true ∨ q.starts = true ∧ q.today = d := by
  constructor
  · rintro ⟨before, r, after, heq, hstarts, hday, hkept⟩
    rcases List.eq_nil_or_concat after with rfl | ⟨after, last, rfl⟩
    · have ⟨_, hlast⟩ := List.append_inj' heq rfl
      cases hlast
      exact Or.inr ⟨hstarts, hday⟩
    · rw [List.concat_eq_append, ← List.cons_append, ← List.append_assoc] at heq
      have ⟨hbefore, hlast⟩ := List.append_inj' heq rfl
      cases hlast
      rw [List.concat_eq_append, List.forall_mem_append, List.forall_mem_singleton] at hkept
      exact Or.inl ⟨⟨before, r, after, hbefore, hstarts, hday, hkept.1⟩, hkept.2⟩
  · rintro (⟨⟨before, r, after, rfl, hstarts, hday, hkept⟩, hkeeps⟩ | ⟨hstarts, hday⟩)
    · refine ⟨before, r, after ++ [q], by simp, hstarts, hday, fun x hx => ?_⟩
      rcases List.mem_append.mp hx with hafter | hlast
      · exact hkept x hafter
      · rw [List.mem_singleton.mp hlast]
        exact hkeeps
    · exact ⟨rs, q, [], rfl, hstarts, hday, fun x hx => (by cases hx)⟩

theorem graduated_concat : Graduated (rs ++ [q]) ↔
    Graduated rs ∨ (∃ d, HeldSince rs d ∧ due d q = true) ∨
      q.starts = true ∧ due q.today q = true := by
  constructor
  · rintro ⟨before, p, after, heq, hdue⟩
    rcases List.eq_nil_or_concat after with rfl | ⟨after, last, rfl⟩
    · have ⟨hbefore, hlast⟩ := List.append_inj' heq rfl
      cases hlast
      rw [hbefore]
      exact Or.inr hdue
    · rw [List.concat_eq_append, ← List.cons_append, ← List.append_assoc] at heq
      have ⟨hbefore, _⟩ := List.append_inj' heq rfl
      exact Or.inl ⟨before, p, after, hbefore, hdue⟩
  · rintro (⟨before, p, after, rfl, hdue⟩ | hdue)
    · exact ⟨before, p, after ++ [q], by simp, hdue⟩
    · exact ⟨rs, q, [], rfl, hdue⟩

theorem HeldSince.le_today (h : HeldSince rs d)
    (hdays : (rs ++ [q]).Pairwise fun r r' => r.today ≤ r'.today) : d ≤ q.today := by
  have ⟨before, r, after, heq, _, hday, _⟩ := h
  rw [← hday]
  refine (List.pairwise_append.mp hdays).2.2 r ?_ q List.mem_cons_self
  rw [heq]
  simp

/-- What the state says about the readings, and they about the state. -/
structure Tracks (rs : List Reading) (s : State) : Prop where
  held : ∀ d, s.since = some d → HeldSince rs d
  since : ∀ d, HeldSince rs d → s.permanent = true ∨ ∃ d', s.since = some d' ∧ d' ≤ d
  permanent : s.permanent = true ↔ Graduated rs

theorem tracks_off : Tracks [] State.off where
  held d h := by cases h
  since d h := absurd h (not_held_nil d)
  permanent := by
    refine ⟨fun h => (by cases h), ?_⟩
    rintro ⟨before, q, after, heq, -⟩
    exact absurd heq.symm (List.append_ne_nil_of_right_ne_nil before (List.cons_ne_nil q after))

theorem tracks_step (h : Tracks rs s) (q : Reading)
    (hdays : (rs ++ [q]).Pairwise fun r r' => r.today ≤ r'.today) :
    Tracks (rs ++ [q]) (step s q) where
  held d hd := by
    rcases step_since hd with ⟨hsince, hkeeps⟩ | ⟨_, hstarts, htoday⟩
    · exact heldSince_concat.mpr (Or.inl ⟨h.held d hsince, hkeeps⟩)
    · exact heldSince_concat.mpr (Or.inr ⟨hstarts, htoday.symm⟩)
  since d hd := by
    have hkept : ∀ d', s.since = some d' → d' ≤ d → q.keeps = true →
        (step s q).permanent = true ∨ ∃ d'', (step s q).since = some d'' ∧ d'' ≤ d := by
      intro d' hsince hle hkeeps
      rcases step_kept hsince hkeeps with hstays | hpermanent
      · exact Or.inr ⟨d', hstays, hle⟩
      · exact Or.inl hpermanent
    rcases heldSince_concat.mp hd with ⟨hheld, hkeeps⟩ | ⟨hstarts, htoday⟩
    · rcases h.since d hheld with hpermanent | ⟨d', hsince, hle⟩
      · exact Or.inl (permanent_step hpermanent q)
      · exact hkept d' hsince hle hkeeps
    · -- A latch that was set before started no later than today.
      cases hsince : s.since with
      | some d' =>
        have hle : d' ≤ q.today := (h.held d' hsince).le_today hdays
        exact hkept d' hsince (htoday ▸ hle) (q.keeps_of_starts hstarts)
      | none =>
        rcases step_started hsince hstarts with hstarted | hpermanent
        · exact Or.inr ⟨q.today, hstarted, Nat.le_of_eq htoday⟩
        · exact Or.inl hpermanent
  permanent := by
    rw [step_permanent, graduated_concat, h.permanent]
    constructor
    · rintro (hgraduated | ⟨since, hsince, hdue⟩ | ⟨_, hstarts, hdue⟩)
      · exact Or.inl hgraduated
      · exact Or.inr (Or.inl ⟨since, h.held since hsince, hdue⟩)
      · exact Or.inr (Or.inr ⟨hstarts, hdue⟩)
    · rintro (hgraduated | ⟨d, hheld, hdue⟩ | ⟨hstarts, hdue⟩)
      · exact Or.inl hgraduated
      · rcases h.since d hheld with hpermanent | ⟨d', hsince, hle⟩
        · exact Or.inl (h.permanent.mp hpermanent)
        · -- It was latched at least as long as since the day `d`.
          have hdue' : due d' q = true := by
            simp only [due, decide_eq_true_eq] at hdue ⊢
            omega
          exact Or.inr (Or.inl ⟨d', hsince, hdue'⟩)
      · cases hsince : s.since with
        | some d' =>
          have hle : d' ≤ q.today := (h.held d' hsince).le_today hdays
          have hdue' : due d' q = true := by
            simp only [due, decide_eq_true_eq] at hdue ⊢
            omega
          exact Or.inr (Or.inl ⟨d', rfl, hdue'⟩)
        | none => exact Or.inr (Or.inr ⟨rfl, hstarts, hdue⟩)

theorem tracks_run (rs : List Reading) (hdays : rs.Pairwise fun r r' => r.today ≤ r'.today) :
    Tracks rs (Machine.run step State.off rs) := by
  induction rs using List.reverseRecOn with
  | nil => exact tracks_off
  | append_singleton rs q ih =>
    rw [Machine.run_concat]
    exact tracks_step (ih (List.pairwise_append.mp hdays).1) q hdays

theorem run_permanent_iff (rs : List Reading) (hdays : rs.Pairwise fun r r' => r.today ≤ r'.today) :
    (Machine.run step State.off rs).permanent = true ↔ Graduated rs :=
  (tracks_run rs hdays).permanent

theorem run_displayed_iff (rs : List Reading) (hdays : rs.Pairwise fun r r' => r.today ≤ r'.today) :
    (Machine.run step State.off rs).displayed ↔ Graduated rs ∨ Held rs := by
  have htracks := tracks_run rs hdays
  rw [← htracks.permanent]
  constructor
  · rintro (hsince | hpermanent)
    · have ⟨d, hd⟩ := Option.isSome_iff_exists.mp hsince
      exact Or.inr ⟨d, htracks.held d hd⟩
    · exact Or.inl hpermanent
  · rintro (hpermanent | ⟨d, hd⟩)
    · exact Or.inr hpermanent
    · rcases htracks.since d hd with hpermanent | ⟨d', hsince, _⟩
      · exact Or.inr hpermanent
      · exact Or.inl (by rw [hsince]; rfl)

end SocialActivities.Lib.Latch
