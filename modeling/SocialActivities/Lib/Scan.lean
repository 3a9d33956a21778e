import Mathlib.Data.List.Basic

/-!
# `SocialActivities.Lib.Scan`: the matches of a pattern from left to right

A pattern is tried at a position: it sees the element before it and the rest of the list, and gives
the length of its match and what it captures. `finditer` tries it at every position from left to
right and goes on after a match where the match ends, as the regular expression libraries do.

`mem_finditer_iff`: a match is found exactly where the pattern matches and the position is not
inside a match that is found.
-/

namespace SocialActivities.Lib.Scan

variable {α β : Type}

/-- A match: its first position, its length and what it captures. -/
structure Span (β : Type) where
  start : Nat
  length : Nat
  value : β
  deriving DecidableEq

/-- The first position after the match. -/
def Span.stop (s : Span β) : Nat := s.start + s.length

/-- The position is inside the match, after its first element. -/
def Span.Covers (s : Span β) (p : Nat) : Prop := s.start < p ∧ p < s.stop

/-- What a pattern gives at a position. -/
abbrev Pattern (α β : Type) := Option α → List α → Option (Nat × β)

variable (m : Pattern α β)

/-- The matches in the rest of a list, from a position on. The next `skip` elements belong to a
match. -/
def spans : Nat → Nat → Option α → List α → List (Span β)
  | _, _, _, [] => []
  | pos, skip + 1, _, c :: rest => spans (pos + 1) skip (some c) rest
  | pos, 0, prev, c :: rest =>
    match m prev (c :: rest) with
    | some (n, b) => ⟨pos, n, b⟩ :: spans (pos + 1) (n - 1) (some c) rest
    | none => spans (pos + 1) 0 (some c) rest

/-- The matches in a list. -/
def finditer (all : List α) : List (Span β) := spans m 0 0 none all

/-- The element before a position. -/
def before (all : List α) (p : Nat) : Option α := if p = 0 then none else all[p - 1]?

/-- The pattern at a position of the list. -/
def matchAt (all : List α) (p : Nat) : Option (Nat × β) := m (before all p) (all.drop p)

variable {m}

theorem matchAt_append (front rest : List α) :
    matchAt m (front ++ rest) front.length = m (before (front ++ rest) front.length) rest := by
  rw [matchAt, List.drop_left]

theorem before_concat (front rest : List α) (c : α) :
    before (front ++ c :: rest) (front.length + 1) = some c := by
  simp [before]

/-- The matches in the rest of a list. -/
theorem mem_spans_iff (hpos : ∀ prev text n b, m prev text = some (n, b) → 0 < n)
    (front rest : List α) (skip : Nat) (s : Span β) :
    s ∈ spans m front.length skip (before (front ++ rest) front.length) rest ↔
      front.length + skip ≤ s.start ∧ s.start < front.length + rest.length ∧
        matchAt m (front ++ rest) s.start = some (s.length, s.value) ∧
        ∀ t ∈ spans m front.length skip (before (front ++ rest) front.length) rest,
          ¬t.Covers s.start := by
  induction rest generalizing front skip s with
  | nil =>
    simp only [spans, List.not_mem_nil, List.length_nil, false_iff]
    omega
  | cons c rest ih =>
    have hstep := fun skip s => ih (front ++ [c]) skip s
    simp only [List.length_append, List.length_singleton, List.append_assoc, List.singleton_append,
      before_concat] at hstep
    have hlength : (c :: rest).length = rest.length + 1 := rfl
    cases skip with
    | succ skip =>
      simp only [spans]
      rw [hstep skip s]
      constructor
      · intro ⟨hle, hlt, hmatch⟩
        exact ⟨by omega, by omega, hmatch⟩
      · intro ⟨hle, hlt, hmatch⟩
        exact ⟨by omega, by omega, hmatch⟩
    | zero =>
      have hhere := @matchAt_append _ _ m front (c :: rest)
      simp only [spans]
      cases hm : m (before (front ++ c :: rest) front.length) (c :: rest) with
      | none =>
        rw [hm] at hhere
        simp only
        rw [hstep 0 s]
        constructor
        · intro ⟨hle, hlt, hmatch⟩
          exact ⟨by omega, by omega, hmatch⟩
        · intro ⟨hle, hlt, hmatch, hfree⟩
          have hne : s.start ≠ front.length := by
            intro heq
            rw [heq, hhere] at hmatch
            cases hmatch
          exact ⟨by omega, by omega, hmatch, hfree⟩
      | some found =>
        obtain ⟨n, b⟩ := found
        rw [hm] at hhere
        have hn := hpos _ _ _ _ hm
        rw [List.mem_cons, List.forall_mem_cons]
        -- The later matches start where this one ends, or after.
        have hlater : ∀ t ∈ spans m (front.length + 1) (n - 1) (some c) rest,
            front.length + n ≤ t.start := fun t ht => by
          have hle := ((hstep (n - 1) t).mp ht).1
          omega
        constructor
        · rintro (rfl | hin)
          · refine ⟨by simp, by simp, hhere, fun hcovers => Nat.lt_irrefl _ hcovers.1, ?_⟩
            intro t ht hcovers
            have hle := hlater t ht
            have hlt := hcovers.1
            simp only at hlt
            omega
          · obtain ⟨hle, hlt, hmatch, hfree⟩ := (hstep (n - 1) s).mp hin
            refine ⟨by omega, by omega, hmatch, fun hcovers => ?_, hfree⟩
            have hstop := hcovers.2
            simp only [Span.stop] at hstop
            omega
        · intro ⟨hle, hlt, hmatch, hhead, hfree⟩
          by_cases heq : s.start = front.length
          · left
            rw [heq, hhere] at hmatch
            obtain ⟨hlength, hvalue⟩ := Prod.mk.inj (Option.some.inj hmatch)
            obtain ⟨start, length, value⟩ := s
            simp only at heq hlength hvalue
            rw [heq, hlength, hvalue]
          · right
            refine (hstep (n - 1) s).mpr ⟨?_, by omega, hmatch, hfree⟩
            by_contra hlt'
            exact hhead ⟨by simp only; omega, by simp only [Span.stop]; omega⟩

theorem mem_finditer_iff (hpos : ∀ prev text n b, m prev text = some (n, b) → 0 < n) (all : List α)
    (s : Span β) :
    s ∈ finditer m all ↔ s.start < all.length ∧ matchAt m all s.start = some (s.length, s.value) ∧
      ∀ t ∈ finditer m all, ¬t.Covers s.start := by
  have h := mem_spans_iff hpos [] all 0 s
  simp only [List.length_nil, List.nil_append, Nat.zero_add, Nat.zero_le, true_and] at h
  exact h

end SocialActivities.Lib.Scan
