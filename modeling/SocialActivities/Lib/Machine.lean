import Mathlib.Data.List.Basic
import Mathlib.Data.List.Induction

/-!
# `SocialActivities.Lib.Machine`: runs of a state machine

A machine is a step function `σ → α → σ`: an action that is not enabled, or that fails, leaves
the state as it is. So every list of actions is a schedule, and a statement about every
schedule is a statement about every order of steps.

`run` folds the step over a schedule. `steps` keeps, for every step of the run, the state
before it and its action. The rules:

* `run_invariant`: an invariant of the step is an invariant of the run.
* `steps_invariant`: the same for every state that the run takes a step from.
* `run_guarded` / `steps_guarded`: the guard may be a condition on the steps taken.
* `forall_steps_iff`: where a step leads to a good state exactly when it meets the guard, a run
  does exactly when all its steps do.
* `forall_states_iff`: what holds in every state of a run, as a fact about its steps.
* `mem_steps`: a step of the run is a prefix of the schedule and the action after it.
* `emitted_pairwise`: where each step moves a cursor past what it emits and never back, a run emits
  in increasing order.
* `emitted_invariant`: an invariant that ties the state to what the run has emitted so far.
* `exists_turn`: what does not hold before a run and holds after it is brought about by a step.
* `path`: an infinite run. `path_invariant` and `path_from` are the rules for it.
* `since_concat`: that something has occurred in a run and was not undone since, step by step.
-/

namespace SocialActivities.Lib.Machine

variable {σ α : Type} (step : σ → α → σ)

/-- The state after a schedule. -/
def run (s : σ) (as : List α) : σ := as.foldl step s

/-- The steps of a run: the state before each step, and its action. -/
def steps : σ → List α → List (σ × α)
  | _, [] => []
  | s, a :: as => (s, a) :: steps (step s a) as

@[simp] theorem run_nil (s : σ) : run step s [] = s := rfl

@[simp] theorem run_cons (s : σ) (a : α) (as : List α) :
    run step s (a :: as) = run step (step s a) as := rfl

theorem steps_cons (s : σ) (a : α) (as : List α) :
    steps step s (a :: as) = (s, a) :: steps step (step s a) as := rfl

theorem run_append (s : σ) (as bs : List α) :
    run step s (as ++ bs) = run step (run step s as) bs :=
  List.foldl_append ..

theorem run_concat (s : σ) (as : List α) (a : α) :
    run step s (as ++ [a]) = step (run step s as) a := by
  rw [run_append, run_cons, run_nil]

theorem mem_steps {s : σ} {as : List α} {t : σ} {a : α} :
    (t, a) ∈ steps step s as ↔
      ∃ before after, as = before ++ a :: after ∧ t = run step s before := by
  induction as generalizing s with
  | nil => simp [steps]
  | cons b bs ih =>
    constructor
    · intro h
      rcases List.mem_cons.mp h with h | h
      · obtain ⟨rfl, rfl⟩ := Prod.mk.inj h
        exact ⟨[], bs, rfl, rfl⟩
      · obtain ⟨before, after, rfl, rfl⟩ := ih.mp h
        exact ⟨b :: before, after, rfl, rfl⟩
    · rintro ⟨before, after, hlist, rfl⟩
      cases before with
      | nil =>
        obtain ⟨rfl, rfl⟩ := List.cons.inj hlist
        exact List.mem_cons_self
      | cons c cs =>
        obtain ⟨rfl, rfl⟩ := List.cons.inj hlist
        exact List.mem_cons_of_mem _ (ih.mpr ⟨cs, after, rfl, rfl⟩)

theorem steps_append (s : σ) (as bs : List α) :
    steps step s (as ++ bs) = steps step s as ++ steps step (run step s as) bs := by
  induction as generalizing s with
  | nil => rfl
  | cons a as ih => simp only [List.cons_append, steps, run_cons, ih]

variable {step}

/-- An invariant that every step meeting `guard` keeps holds after every run whose steps all
meet `guard`. -/
theorem run_guarded {inv : σ → Prop} (guard : σ → α → Prop)
    (hstep : ∀ s a, inv s → guard s a → inv (step s a)) {s : σ} (hs : inv s) {as : List α}
    (hguard : ∀ p ∈ steps step s as, guard p.1 p.2) : inv (run step s as) := by
  induction as generalizing s with
  | nil => exact hs
  | cons a as ih =>
    have hfirst : guard s a := hguard (s, a) List.mem_cons_self
    exact ih (hstep s a hs hfirst) fun p hp => hguard p (List.mem_cons_of_mem _ hp)

theorem run_invariant {inv : σ → Prop} (hstep : ∀ s a, inv s → inv (step s a)) {s : σ}
    (hs : inv s) (as : List α) : inv (run step s as) :=
  run_guarded (fun _ _ => True) (fun s a h _ => hstep s a h) hs fun _ _ => trivial

theorem steps_guarded {inv : σ → Prop} (guard : σ → α → Prop)
    (hstep : ∀ s a, inv s → guard s a → inv (step s a)) {s : σ} (hs : inv s) {as : List α}
    (hguard : ∀ p ∈ steps step s as, guard p.1 p.2) : ∀ p ∈ steps step s as, inv p.1 := by
  rintro ⟨t, a⟩ hp
  obtain ⟨before, after, rfl, rfl⟩ := (mem_steps step).mp hp
  refine run_guarded guard hstep hs fun q hq => hguard q ?_
  rw [steps_append]
  exact List.mem_append_left _ hq

theorem steps_invariant {inv : σ → Prop} (hstep : ∀ s a, inv s → inv (step s a)) {s : σ}
    (hs : inv s) (as : List α) : ∀ p ∈ steps step s as, inv p.1 :=
  steps_guarded (fun _ _ => True) (fun s a h _ => hstep s a h) hs fun _ _ => trivial

/-- From the invariant, a step leads to a good state exactly when it meets the guard, and then
the invariant holds again. So a run leads only to good states exactly when all its steps meet
the guard. -/
theorem forall_steps_iff {inv good : σ → Prop} (guard : σ → α → Prop)
    (hstep : ∀ s a, inv s → (good (step s a) ↔ guard s a))
    (hnext : ∀ s a, inv s → good (step s a) → inv (step s a)) {s : σ} (hs : inv s)
    (as : List α) :
    (∀ p ∈ steps step s as, good (step p.1 p.2)) ↔ ∀ p ∈ steps step s as, guard p.1 p.2 := by
  induction as generalizing s with
  | nil => exact ⟨fun _ p hp => (by cases hp), fun _ p hp => (by cases hp)⟩
  | cons a as ih =>
    simp only [steps, List.forall_mem_cons]
    constructor
    · rintro ⟨hfirst, hrest⟩
      exact ⟨(hstep s a hs).mp hfirst, (ih (hnext s a hs hfirst)).mp hrest⟩
    · rintro ⟨hfirst, hrest⟩
      have hgood : good (step s a) := (hstep s a hs).mpr hfirst
      exact ⟨hgood, (ih (hnext s a hs hgood)).mpr hrest⟩

/-- Every state that a run goes through is good exactly when the first one is and each step leads to
a good one. -/
theorem forall_states_iff {good : σ → Prop} (s : σ) (as : List α) :
    (∀ before after, as = before ++ after → good (run step s before)) ↔
      good s ∧ ∀ p ∈ steps step s as, good (step p.1 p.2) := by
  constructor
  · intro h
    have hstart : good s := h [] as rfl
    refine ⟨hstart, fun p hp => ?_⟩
    obtain ⟨before, after, rfl, hbefore⟩ := (mem_steps step).mp hp
    have hafter := h (before ++ [p.2]) after (by simp)
    rwa [run_concat, ← hbefore] at hafter
  · intro ⟨hstart, hsteps⟩ before after heq
    -- The state after a part of the schedule is the first one, or comes after its last step.
    rcases List.eq_nil_or_concat before with rfl | ⟨before, a, rfl⟩
    · exact hstart
    · rw [List.concat_eq_append] at heq ⊢
      rw [run_concat]
      exact hsteps (run step s before, a) ((mem_steps step).mpr ⟨before, after, by simp [heq], rfl⟩)

/-- Where the invariant makes a property of a step the same as its guard, all steps of a run have the property
exactly when all meet the guard. -/
theorem forall_steps_iff_guard {inv : σ → Prop} {good : σ → α → Prop} (guard : σ → α → Prop)
    (hgood : ∀ s a, inv s → (good s a ↔ guard s a)) (hstep : ∀ s a, inv s → guard s a → inv (step s a))
    {s : σ} (hs : inv s) (as : List α) :
    (∀ p ∈ steps step s as, good p.1 p.2) ↔ ∀ p ∈ steps step s as, guard p.1 p.2 := by
  induction as generalizing s with
  | nil => exact ⟨fun _ p hp => (by cases hp), fun _ p hp => (by cases hp)⟩
  | cons a as ih =>
    simp only [steps, List.forall_mem_cons]
    rw [hgood s a hs]
    exact and_congr_right fun hfirst => ih (hstep s a hs hfirst)

/-- What a run emits, in order. -/
def emitted {β : Type} (step : σ → α → σ) (emit : σ → α → Option β) (s : σ) (as : List α) : List β :=
  (steps step s as).filterMap fun q => emit q.1 q.2

theorem emitted_append {β : Type} (step : σ → α → σ) (emit : σ → α → Option β) (s : σ)
    (as bs : List α) :
    emitted step emit s (as ++ bs) =
      emitted step emit s as ++ emitted step emit (run step s as) bs := by
  unfold emitted
  rw [steps_append, List.filterMap_append]

theorem emitted_singleton {β : Type} (step : σ → α → σ) (emit : σ → α → Option β) (s : σ) (a : α) :
    emitted step emit s [a] = (emit s a).toList := by
  unfold emitted
  rw [steps_cons, List.filterMap_cons]
  cases emit s a with
  | none | some => rfl

theorem emitted_concat {β : Type} (step : σ → α → σ) (emit : σ → α → Option β) (s : σ)
    (as : List α) (a : α) :
    emitted step emit s (as ++ [a]) =
      emitted step emit s as ++ (emit (run step s as) a).toList := by
  rw [emitted_append, emitted_singleton]

/-- An invariant of the state and of what was emitted so far holds after every run whose steps all
meet `guard`. -/
theorem emitted_invariant {β : Type} {emit : σ → α → Option β} {inv : σ → List β → Prop}
    (guard : σ → α → List β → Prop)
    (hstep : ∀ s a out, inv s out → guard s a out → inv (step s a) (out ++ (emit s a).toList))
    {s : σ} (hs : inv s []) {as : List α}
    (hguard : ∀ before a after, as = before ++ a :: after →
      guard (run step s before) a (emitted step emit s before)) :
    inv (run step s as) (emitted step emit s as) := by
  induction as using List.reverseRecOn with
  | nil => exact hs
  | append_singleton as a ih =>
    have hbefore : inv (run step s as) (emitted step emit s as) :=
      ih fun before b after heq => hguard before b (after ++ [a]) (by rw [heq]; simp)
    rw [run_concat, emitted_concat]
    exact hstep _ a _ hbefore (hguard as a [] rfl)

/-- Each step emits at its cursor or after it, and moves the cursor past what it emits: so a run
emits in increasing order. -/
theorem emitted_pairwise {β : Type} {emit : σ → α → Option β} {value : β → Nat} (cursor : σ → Nat)
    (hstep : ∀ s a, cursor s ≤ cursor (step s a))
    (hemit : ∀ s a b, emit s a = some b → cursor s ≤ value b ∧ value b < cursor (step s a))
    (s : σ) (as : List α) :
    (emitted step emit s as).Pairwise (fun b c => value b < value c) := by
  induction as generalizing s with
  | nil => exact List.Pairwise.nil
  | cons a as ih =>
    -- The rest of the run emits at the next cursor or after it.
    have hlater : ∀ c ∈ emitted step emit (step s a) as, cursor (step s a) ≤ value c := by
      intro c hc
      obtain ⟨q, hq, hemitted⟩ := List.mem_filterMap.mp hc
      have hcursor : cursor (step s a) ≤ cursor q.1 :=
        @steps_invariant _ _ step (fun t => cursor (step s a) ≤ cursor t)
          (fun t b h => Nat.le_trans h (hstep t b)) _ (Nat.le_refl _) as q hq
      exact Nat.le_trans hcursor (hemit q.1 q.2 c hemitted).1
    have hsplit : emitted step emit s (a :: as) =
        (emit s a).toList ++ emitted step emit (step s a) as := by
      rw [← List.singleton_append, emitted_append, emitted_singleton]
      rfl
    rw [hsplit, List.pairwise_append]
    refine ⟨?_, ih (step s a), fun b hb c hc => ?_⟩
    · cases emit s a with
      | none => exact List.Pairwise.nil
      | some b => exact List.pairwise_singleton _ b
    · have hfirst := hemit s a b (Option.mem_toList.mp hb)
      exact Nat.lt_of_lt_of_le hfirst.2 (hlater c hc)

theorem exists_turn (holds : σ → Prop) {s : σ} {as : List α} (hbefore : ¬holds s)
    (hafter : holds (run step s as)) :
    ∃ q ∈ steps step s as, ¬holds q.1 ∧ holds (step q.1 q.2) := by
  induction as generalizing s with
  | nil => exact absurd hafter hbefore
  | cons a as ih =>
    by_cases hnext : holds (step s a)
    · exact ⟨(s, a), List.mem_cons_self, hbefore, hnext⟩
    · obtain ⟨q, hq, hturn⟩ := ih hnext hafter
      exact ⟨q, List.mem_cons_of_mem _ hq, hturn⟩

/-- The states of an infinite run. -/
def path (step : σ → α → σ) (s : σ) (schedule : Nat → α) : Nat → σ
  | 0 => s
  | n + 1 => step (path step s schedule n) (schedule n)

theorem path_invariant {inv : σ → Prop} (hstep : ∀ s a, inv s → inv (step s a)) {s : σ}
    (hs : inv s) (schedule : Nat → α) (n : Nat) : inv (path step s schedule n) := by
  induction n with
  | zero => exact hs
  | succ n ih => exact hstep _ _ ih

theorem path_from {inv : σ → Prop} {s : σ} {schedule : Nat → α} {n m : Nat} (hnm : n ≤ m)
    (hstep : ∀ j, n ≤ j → j < m → inv (path step s schedule j) →
      inv (path step s schedule (j + 1))) (h : inv (path step s schedule n)) :
    inv (path step s schedule m) := by
  induction hnm with
  | refl => exact h
  | @step m hnm ih =>
    exact hstep m hnm (Nat.lt_succ_self m) (ih fun j hj hjm => hstep j hj (Nat.lt_succ_of_lt hjm))

theorem steps_concat (s : σ) (as : List α) (a : α) :
    steps step s (as ++ [a]) = steps step s as ++ [(run step s as, a)] := by
  rw [steps_append, steps_cons]
  rfl

/-- Something has occurred in a run and was not undone since. -/
def Since (step : σ → α → σ) (occurs undone : σ → α → Prop) (s : σ) (as : List α) : Prop :=
  ∃ before a after, as = before ++ a :: after ∧ occurs (run step s before) a ∧
    ∀ q ∈ steps step (run step s (before ++ [a])) after, ¬undone q.1 q.2

variable {occurs undone : σ → α → Prop}

theorem not_since_nil (s : σ) : ¬Since step occurs undone s [] := by
  rintro ⟨before, a, after, heq, -⟩
  exact List.append_ne_nil_of_right_ne_nil before (List.cons_ne_nil a after) heq.symm

theorem since_concat (s : σ) (as : List α) (a : α) :
    Since step occurs undone s (as ++ [a]) ↔
      occurs (run step s as) a ∨ Since step occurs undone s as ∧ ¬undone (run step s as) a := by
  constructor
  · rintro ⟨before, b, after, heq, hoccurs, hkept⟩
    rcases List.eq_nil_or_concat after with rfl | ⟨after, c, rfl⟩
    · obtain ⟨rfl, hlast⟩ := List.append_inj' heq rfl
      cases hlast
      exact Or.inl hoccurs
    · rw [List.concat_eq_append] at heq hkept
      rw [← List.cons_append, ← List.append_assoc] at heq
      obtain ⟨rfl, hlast⟩ := List.append_inj' heq rfl
      cases hlast
      rw [steps_concat, List.forall_mem_append, List.forall_mem_singleton, ← run_append] at hkept
      rw [← List.append_cons] at hkept
      exact Or.inr ⟨⟨before, b, after, rfl, hoccurs, hkept.1⟩, hkept.2⟩
  · rintro (hoccurs | ⟨⟨before, b, after, rfl, hoccurs, hkept⟩, hlast⟩)
    · exact ⟨as, a, [], rfl, hoccurs, fun q hq => (by cases hq)⟩
    · refine ⟨before, b, after ++ [a], by simp, hoccurs, ?_⟩
      rw [steps_concat, List.forall_mem_append, List.forall_mem_singleton, ← run_append,
        ← List.append_cons]
      exact ⟨hkept, hlast⟩

end SocialActivities.Lib.Machine
