import SocialActivities.Lib.Machine

/-!
# `SocialActivities.Lib.Streak`: a latch with two streaks

A latch is set by a number of hits in a row and reset by a number of misses in a row. It counts
both streaks: a hit ends the streak of misses, a miss that of hits.

The counters are the lengths of the last streaks (`hits_run`, `misses_run`). So the latch is set
exactly by the last of enough hits in a row (`set_iff`), and reset exactly by the last of enough
misses in a row (`reset_iff`).
-/

namespace SocialActivities.Lib.Streak

/-- The latch and the lengths of the streaks. -/
structure State where
  active : Bool
  hits : Nat
  misses : Nat
  deriving DecidableEq

def State.off : State := ⟨false, 0, 0⟩

variable (latch lapse : Nat)

/-- The latch after its streaks are counted; enough hits are looked at first. -/
def settle (s : State) : State :=
  { s with active := if latch ≤ s.hits then true else if lapse ≤ s.misses then false else s.active }

/-- The streaks after one more week. -/
def State.count (s : State) (hit : Bool) : State :=
  if hit then { s with hits := s.hits + 1, misses := 0 }
  else { s with misses := s.misses + 1, hits := 0 }

def step (s : State) (hit : Bool) : State := settle latch lapse (s.count hit)

/-- The last `n` are all `b`. -/
def Ends (n : Nat) (b : Bool) (hs : List Bool) : Prop := List.replicate n b <:+ hs

theorem ends_zero (b : Bool) (hs : List Bool) : Ends 0 b hs := List.nil_suffix

theorem not_ends_nil (n : Nat) (b : Bool) : ¬Ends (n + 1) b [] := by
  simp [Ends]

theorem ends_concat {n : Nat} {b h : Bool} {hs : List Bool} :
    Ends (n + 1) b (hs ++ [h]) ↔ h = b ∧ Ends n b hs := by
  rw [Ends, List.replicate_succ', List.suffix_concat_iff]
  constructor
  · rintro (hnil | ⟨t, heq, hsuffix⟩)
    · simp at hnil
    · have ⟨ht, hlast⟩ := List.append_inj' heq rfl
      cases hlast
      rw [← ht] at hsuffix
      exact ⟨rfl, hsuffix⟩
  · rintro ⟨rfl, hsuffix⟩
    exact Or.inr ⟨_, rfl, hsuffix⟩

theorem Ends.exclusive {n m : Nat} {hs : List Bool} (hn : 0 < n) (hm : 0 < m)
    (hhits : Ends n true hs) : ¬Ends m false hs := by
  intro hmisses
  have ⟨n', hn'⟩ := Nat.exists_eq_succ_of_ne_zero (Nat.ne_of_gt hn)
  have ⟨m', hm'⟩ := Nat.exists_eq_succ_of_ne_zero (Nat.ne_of_gt hm)
  subst hn' hm'
  rcases List.eq_nil_or_concat hs with rfl | ⟨hs, h, rfl⟩
  · exact not_ends_nil n' true hhits
  · rw [List.concat_eq_append] at hhits hmisses
    have htrue := (ends_concat.mp hhits).1
    have hfalse := (ends_concat.mp hmisses).1
    rw [htrue] at hfalse
    cases hfalse

/-! ### The streaks and the latch -/

section Run

variable {latch lapse}

theorem hits_step (s : State) (h : Bool) :
    (step latch lapse s h).hits = if h then s.hits + 1 else 0 := by
  cases h <;> rfl

theorem misses_step (s : State) (h : Bool) :
    (step latch lapse s h).misses = if h then 0 else s.misses + 1 := by
  cases h <;> rfl

theorem hits_run (hs : List Bool) (n : Nat) :
    n ≤ (Machine.run (step latch lapse) State.off hs).hits ↔ Ends n true hs := by
  induction hs using List.reverseRecOn generalizing n with
  | nil =>
    cases n with
    | zero => simp [ends_zero]
    | succ => simp [State.off, not_ends_nil]
  | append_singleton hs h ih =>
    rw [Machine.run_concat, hits_step]
    cases n with
    | zero => simp [ends_zero]
    | succ n =>
      rw [ends_concat, ← ih n]
      cases h with
      | true | false => simp

theorem misses_run (hs : List Bool) (n : Nat) :
    n ≤ (Machine.run (step latch lapse) State.off hs).misses ↔ Ends n false hs := by
  induction hs using List.reverseRecOn generalizing n with
  | nil =>
    cases n with
    | zero => simp [ends_zero]
    | succ => simp [State.off, not_ends_nil]
  | append_singleton hs h ih =>
    rw [Machine.run_concat, misses_step]
    cases n with
    | zero => simp [ends_zero]
    | succ n =>
      rw [ends_concat, ← ih n]
      cases h with
      | true | false => simp

theorem active_settle (s : State) : (settle latch lapse s).active = true ↔
    latch ≤ s.hits ∨ ¬lapse ≤ s.misses ∧ s.active = true := by
  rw [settle]
  by_cases hlatch : latch ≤ s.hits
  · simp [hlatch]
  · by_cases hlapse : lapse ≤ s.misses
    · simp [hlatch, hlapse]
    · simp [hlatch, hlapse]

theorem active_count (s : State) (h : Bool) : (s.count h).active = s.active := by
  cases h <;> rfl

theorem active_concat (hs : List Bool) (h : Bool) :
    (Machine.run (step latch lapse) State.off (hs ++ [h])).active = true ↔
      Ends latch true (hs ++ [h]) ∨
        ¬Ends lapse false (hs ++ [h]) ∧
          (Machine.run (step latch lapse) State.off hs).active = true := by
  rw [← @hits_run latch lapse, ← @misses_run latch lapse, Machine.run_concat]
  -- Settling does not change the counters.
  exact (active_settle _).trans (by rw [active_count]; rfl)

theorem set_iff {hs : List Bool} {h : Bool}
    (hoff : (Machine.run (step latch lapse) State.off hs).active = false) :
    (Machine.run (step latch lapse) State.off (hs ++ [h])).active = true ↔
      Ends latch true (hs ++ [h]) := by
  rw [active_concat, hoff]
  simp

theorem reset_iff {hs : List Bool} {h : Bool}
    (hon : (Machine.run (step latch lapse) State.off hs).active = true) :
    (Machine.run (step latch lapse) State.off (hs ++ [h])).active = false ↔
      Ends lapse false (hs ++ [h]) ∧ ¬Ends latch true (hs ++ [h]) := by
  rw [← Bool.not_eq_true, active_concat, hon]
  simp only [and_true, not_or, not_not]
  exact And.comm

end Run

end SocialActivities.Lib.Streak
