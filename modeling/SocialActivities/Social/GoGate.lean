import SocialActivities.Social.GoAdmission

/-!
# `SocialActivities.Social.GoGate`: nobody joins past the gate (Go)

`step_seats` and `admissions_gate` lift the split of `operate_change` to the machine, and
`admission_gate` is the result over every run from before the creation of the activity.

The gate has no check on the guardians of the requester: `supervisionSatisfied` asks for a
guardian of the owner, and only in an activity that is supervised. The guardrail of a ward that
may only go to supervised meetups is checked once, by `Join`, and it asks for a
guardian-accompanied activity (`join_accompanied`). `ward_seated_without_guardian` is a run
where such a ward gets a seat and no guardian of theirs is in the activity.
-/

namespace SocialActivities.Social.Go

open Lib
open Lib.Machine (run steps)

/-! ### The guardrail of a request -/

theorem addRail_supervised {out out' : EffectiveGuardrail} {r : Guardrail}
    (h : addRail out r = .ok out') : out'.supervised = (out.supervised || r.supervised) := by
  unfold addRail at h
  obtain ⟨days, -, h⟩ := bind_eq_ok.mp h
  simp only [seq_eq_ok, need_eq_ok, pure_eq_ok] at h
  rw [← h.2]

theorem foldRails_supervised {rails : List Guardrail} {out out' : EffectiveGuardrail}
    (h : rails.foldlM addRail out = .ok out') :
    out'.supervised = (out.supervised || rails.any Guardrail.supervised) := by
  induction rails generalizing out with
  | nil =>
    rw [List.foldlM_nil, pure_eq_ok] at h
    simp [h]
  | cons r rails ih =>
    rw [List.foldlM_cons] at h
    obtain ⟨mid, hmid, hrest⟩ := bind_eq_ok.mp h
    rw [ih hrest, addRail_supervised hmid, List.any_cons, Bool.or_assoc]

/-- A child whose guardrails ask for supervision only requests to join a guardian-accompanied
activity. -/
theorem join_accompanied {env : Env} {a : Actor} {fails : Bool} {s s' : State}
    (h : join env a fails s = .ok s') (hchild : a.user.cohort = .child)
    (hrail : (env.rails a.id).any Guardrail.supervised = true) :
    s.activity.guardianAccompanied = true := by
  unfold join at h
  simp only [seq_eq_ok] at h
  obtain ⟨-, -, -, hgate, -⟩ := h
  unfold childJoinGate at hgate
  rw [if_neg (by simp [hchild])] at hgate
  simp only [seq_eq_ok] at hgate
  obtain ⟨-, hgate⟩ := hgate
  obtain ⟨rail, hcombine, hgate⟩ := bind_eq_ok.mp hgate
  simp only [seq_eq_ok, need_eq_ok] at hgate
  obtain ⟨haccompanied, -⟩ := hgate
  have hsupervised : rail.supervised = true := by
    rw [foldRails_supervised hcombine, hrail, Bool.or_true]
  rw [hsupervised, Bool.and_eq_true] at haccompanied
  simpa using haccompanied.1

/-! ### Every run -/

/-- The user holds a position in the activity, if there is one. -/
def seated (s : Option State) (u : Nat) : Bool := s.any fun t => t.isSeated u

/-- The user is the owner of the new activity, which is open, of the owner's cohort and not
full without the owner, and the participation gate accepts the owner. -/
def Founds (env : Env) (s' : Option State) (u : Nat) : Prop :=
  ∃ t, s' = some t ∧ t.activity.owner = u ∧ t.activity.status = .opened ∧
    (env.users u).map User.cohort = some t.activity.cohort ∧ env.participates u = true ∧
    ∀ capacity, t.activity.capacity = some capacity → 0 < capacity

/-- The rows of the activity, if there is one, are sound. -/
def SoundRows (s : Option State) : Prop := ∀ t, s = some t → Sound t

theorem mem_admissions {s : Option State} {p : Env × Op} {adm : Admission}
    (h : adm ∈ admissions s p) :
    ∃ t r, s = some t ∧ operate p.1 t p.2 = .ok r ∧ adm ∈ r.2 := by
  obtain ⟨env, op⟩ := p
  unfold admissions at h
  cases s with
  | none =>
    -- Before the creation there is nothing to admit to.
    cases op with
    | create a input fromSeries fails =>
      simp only [perform] at h
      cases hcreate : createActivity env a input fromSeries fails <;>
        rw [hcreate] at h <;> cases h
    | _ => cases h
  | some t =>
    simp only [perform] at h
    by_cases hdelete : deletes t op = true
    · rw [if_pos hdelete] at h
      cases h
    · rw [if_neg hdelete] at h
      cases hop : operate env t op with
      | error =>
        rw [hop] at h
        cases h
      | ok r =>
        rw [hop] at h
        exact ⟨t, r, rfl, hop, h⟩

theorem step_seats {s : Option State} {p : Env × Op} (hs : SoundRows s) :
    SoundRows (step s p) ∧
      ∀ u, seated (step s p) u = true → seated s u = true ∨
        (s = none ∧ Founds p.1 (step s p) u) ∨ ∃ adm ∈ admissions s p, adm.user = u := by
  obtain ⟨env, op⟩ := p
  unfold step admissions
  cases hperform : perform env op s with
  | error => exact ⟨hs, fun u hu => Or.inl hu⟩
  | ok =>
    cases s with
    | none =>
      cases op with
      | create a input fromSeries fails =>
        -- The creation: the owner is the only seat.
        simp only [perform] at hperform
        cases hcreate : createActivity env a input fromSeries fails with
        | error =>
          rw [hcreate] at hperform
          cases hperform
        | ok t =>
          rw [hcreate] at hperform
          cases hperform
          obtain ⟨hsound, hpart, hpos, guardianAccompanied, rfl⟩ := createActivity_sound hcreate
          refine ⟨fun t ht => by cases ht; exact hsound, fun u hu => ?_⟩
          have hu : u = a.id := isSeated_created.mp hu
          obtain ⟨hpasses, hcohort⟩ := participates_of_participate hpart
          subst hu
          exact Or.inr (Or.inl ⟨rfl, _, rfl, rfl, rfl, hcohort, hpasses, hpos⟩)
      | _ => cases hperform
    | some t =>
      simp only [perform] at hperform
      by_cases hdelete : deletes t op = true
      · rw [if_pos hdelete] at hperform
        cases hperform
        exact ⟨fun _ ht => (by cases ht), fun _ hu => (by cases hu)⟩
      · rw [if_neg hdelete] at hperform
        cases hop : operate env t op with
        | error =>
          rw [hop] at hperform
          cases hperform
        | ok =>
          rw [hop] at hperform
          cases hperform
          obtain ⟨mid, hkeeps, hadmits, -⟩ := operate_change (hs t rfl).plain hop
          obtain ⟨-, hsound, hseats, -⟩ := hadmits.spec
          refine ⟨fun u hu => ?_, fun u hu => ?_⟩
          · cases hu
            exact hsound ((hs t rfl).of_keeps hkeeps)
          · rcases hseats u hu with hseated | hadm
            · exact Or.inl (hkeeps.seats u hseated)
            · exact Or.inr (Or.inr hadm)

theorem admissions_gate {s : Option State} {p : Env × Op} (hs : SoundRows s) :
    ∀ adm ∈ admissions s p, Gate p.1 adm ∧
      (p.2.isAddGuardian = false → adm.before.activity.status = .opened) := by
  intro adm hadm
  obtain ⟨t, r, rfl, hop, hadm⟩ := mem_admissions hadm
  obtain ⟨mid, -, hadmits, hopen⟩ := operate_change (hs t rfl).plain hop
  obtain ⟨hgate, hbefore⟩ := hadmits.spec.2.2.2 adm hadm
  refine ⟨hgate, fun hguardian => ?_⟩
  rcases hopen with hnil | hadd | hopen
  · rw [hnil] at hadm
    cases hadm
  · rw [hadd] at hguardian
    cases hguardian
  · rw [hbefore]
    exact hopen

theorem step_soundRows (s : Option State) (p : Env × Op) (hs : SoundRows s) :
    SoundRows (step s p) :=
  (step_seats hs).1

theorem soundRows_none : SoundRows none := fun _ ht => by cases ht

theorem soundRows_of_mem_steps {ops : List (Env × Op)} {p : Option State × (Env × Op)}
    (hp : p ∈ steps step none ops) : SoundRows p.1 :=
  Machine.steps_invariant step_soundRows soundRows_none ops p hp

/-- Nobody gets a position past the gate, in any run: not by a vote, an override, a guardian
who arrives or a change of supervision. So there are never more participants than the capacity,
and a supervised activity is a guardian-accompanied activity of children. -/
theorem admission_gate (ops : List (Env × Op)) :
    (∀ p ∈ steps step none ops,
      (∀ u, seated (step p.1 p.2) u = true → seated p.1 u = true ∨
        (p.1 = none ∧ Founds p.2.1 (step p.1 p.2) u) ∨
          ∃ adm ∈ admissions p.1 p.2, adm.user = u) ∧
      (∀ adm ∈ admissions p.1 p.2, Gate p.2.1 adm ∧
        (p.2.2.isAddGuardian = false → adm.before.activity.status = .opened)) ∧
      ∀ s a fails s', p.1 = some s → p.2.2 = .join a fails →
        join p.2.1 a fails s = .ok s' → a.user.cohort = .child →
        (p.2.1.rails a.id).any Guardrail.supervised = true →
        s.activity.guardianAccompanied = true) ∧
    ∀ s, run step none ops = some s → s.WithinCapacity ∧
      (s.activity.supervised = true →
        s.activity.guardianAccompanied = true ∧ s.activity.cohort = .child) := by
  constructor
  · intro p hp
    have hsound := soundRows_of_mem_steps hp
    exact ⟨(step_seats hsound).2, admissions_gate hsound,
      fun _ _ _ _ _ _ h hchild hrail => join_accompanied h hchild hrail⟩
  · intro s hrun
    have hsound : Sound s :=
      Machine.run_invariant step_soundRows soundRows_none ops s hrun
    have hpaired := hsound.paired
    exact ⟨hsound.within, fun hsup => ⟨hpaired.2 hsup, hpaired.1 (hpaired.2 hsup)⟩⟩

/-! ### A ward without a guardian -/

/-- Children 1 and 2, of whom 2 may only go to supervised meetups, and the adults 3, the
guardian of 2, and 4, the guardian of 1. -/
def wardEnv : Env where
  now := 0
  users u :=
    if u = 1 ∨ u = 2 then some ⟨.under16, .child, "user", true, true, false, false⟩
    else if u = 3 ∨ u = 4 then some ⟨.adult, .adult, "user", true, true, false, false⟩
    else none
  assuranceCurrent _ := true
  parentalConsent _ := true
  blocks _ _ := false
  guardianOf g u := (g == 3 && u == 2) || (g == 4 && u == 1)
  rails u := if u = 2 then [⟨true, none, none, none, "", []⟩] else []
  openJoins _ := 0
  childVenue _ := true
  placePublic _ := true
  placeProposed _ _ := false
  typeActive _ := true
  ancestry _ := ["outdoors"]
  localHour _ := 15
  localWeekday _ := 3

def wardActor (id : Nat) : Actor := ⟨id, ⟨.under16, .child, "user", true, true, false, false⟩⟩

/-- Child 1 creates a supervised activity. Child 2 asks to join, and child 1 approves. -/
def wardOps : List (Env × Op) :=
  [(wardEnv, .create (wardActor 1) ⟨1, 1, 10, none, none, some 5, none, true, true, true⟩
      false false),
   (wardEnv, .join (wardActor 2) false),
   (wardEnv, .vote (wardActor 1) 2 true false false)]

/-- The guardian of child 1 arrives, and that seats child 2, whose guardrail asks for
supervision, in a supervised activity where no guardian of child 2 is. -/
theorem ward_seated_without_guardian :
    ∃ adm ∈ admissions (run step none wardOps) (wardEnv, .addGuardian (wardActor 1) 4 false),
      (wardEnv.rails adm.user).any Guardrail.supervised = true ∧
        adm.before.activity.supervised = true ∧
        adm.before.memberships.count
          (fun g m => m.role == .guardian && wardEnv.guardianOf g adm.user) = 0 := by
  decide +kernel

end SocialActivities.Social.Go
