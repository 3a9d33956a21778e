import Mathlib.Algebra.BigOperators.Group.List.Basic
import Mathlib.Algebra.GroupWithZero.Nat
import Mathlib.Data.List.Basic

/-!
# `SocialActivities.Lib.Blocks`: matching two sequences by their longest blocks

Two sequences are matched by taking the longest block that they have in common, and then matching what lies
before it and what lies behind it in both. `same` says which positions hold equal elements. Blocks are
chosen among those of `plain` positions, the earliest one first (`IsLongest`), and then grow over all equal
positions around them (`Extended`). `Matching` is the whole of it, from left to right.

A matching is unique (`Matching.unique`), its blocks do not overlap (`Matching.ordered`) and they fit into
both sequences (`Matching.total_le`). It does not depend on which sequence comes first if no region has two
longest blocks (`Matching.swap`): the earliest one in the first sequence may be a later one in the second.
-/

namespace SocialActivities.Lib

/-- A part of each of the sequences. -/
structure Region where
  alo : Nat
  ahi : Nat
  blo : Nat
  bhi : Nat
  deriving DecidableEq

/-- `size` positions from `i` in the first sequence, and as many from `j` in the second. -/
structure Block where
  i : Nat
  j : Nat
  size : Nat
  deriving DecidableEq

structure Block.Inside (x : Block) (w : Region) : Prop where
  alo : w.alo ≤ x.i
  ahi : x.i + x.size ≤ w.ahi
  blo : w.blo ≤ x.j
  bhi : x.j + x.size ≤ w.bhi

/-- One block lies before the other in both sequences. -/
def Block.Before (x y : Block) : Prop := x.i + x.size ≤ y.i ∧ x.j + x.size ≤ y.j

def Region.left (w : Region) (x : Block) : Region := ⟨w.alo, x.i, w.blo, x.j⟩

def Region.right (w : Region) (x : Block) : Region := ⟨x.i + x.size, w.ahi, x.j + x.size, w.bhi⟩

section

variable (plain same : Nat → Nat → Prop)

/-- A block of plain positions. -/
structure Candidate (w : Region) (x : Block) : Prop where
  inside : x.Inside w
  matched : ∀ d < x.size, plain (x.i + d) (x.j + d)

/-- No block is longer, and none of its length begins earlier in the first sequence, or at the same place
in it and earlier in the second. -/
structure IsLongest (w : Region) (x : Block) : Prop where
  candidate : Candidate plain w x
  size_le : ∀ y, Candidate plain w y → y.size ≤ x.size
  first : ∀ y, Candidate plain w y → y.size = x.size → x.i < y.i ∨ x.i = y.i ∧ x.j ≤ y.j

/-- The block `y` is `x` with all equal positions right before and right behind it. -/
structure Extended (w : Region) (x y : Block) : Prop where
  inside : y.Inside w
  matched : ∀ d < y.size, same (y.i + d) (y.j + d)
  before : y.i ≤ x.i
  diagonal : x.i + y.j = y.i + x.j
  after : x.i + x.size ≤ y.i + y.size
  left : w.alo < y.i → w.blo < y.j → ¬same (y.i - 1) (y.j - 1)
  right : y.i + y.size < w.ahi → y.j + y.size < w.bhi → ¬same (y.i + y.size) (y.j + y.size)

/-- The blocks of a region, from left to right. -/
inductive Matching : Region → List Block → Prop where
  | none {w : Region} {x y : Block} (longest : IsLongest plain w x) (extended : Extended same w x y)
      (empty : y.size = 0) : Matching w []
  | some {w : Region} {x y : Block} {before behind : List Block} (longest : IsLongest plain w x)
      (extended : Extended same w x y) (nonempty : 0 < y.size) (left : Matching (w.left y) before)
      (right : Matching (w.right y) behind) : Matching w (before ++ y :: behind)

end

variable {plain same : Nat → Nat → Prop}

/-! ### One matching -/

variable {w : Region} {x y : Block}

theorem IsLongest.unique (hx : IsLongest plain w x) (hy : IsLongest plain w y) : x = y := by
  have hsize : x.size = y.size := Nat.le_antisymm (hy.size_le x hx.candidate) (hx.size_le y hy.candidate)
  have hxy := hx.first y hy.candidate hsize.symm
  have hyx := hy.first x hx.candidate hsize
  obtain ⟨i, j, size⟩ := x
  obtain ⟨i', j', size'⟩ := y
  simp only [Block.mk.injEq] at *
  omega

theorem Extended.unique {z : Block} (hy : Extended same w x y) (hz : Extended same w x z) : y = z := by
  have hdiagonal := hy.diagonal
  have hdiagonal' := hz.diagonal
  -- Where one of two extensions ends, the other one does too: the next position would be equal.
  have hstart : ∀ {u v : Block}, Extended same w x u → Extended same w x v → u.i ≤ v.i := by
    intro u v hu hv
    by_contra hlt
    have hubound := hu.inside.alo
    have hvbound := hv.inside
    have hvalo := hvbound.alo
    have hvblo := hvbound.blo
    have hud := hu.diagonal
    have hvd := hv.diagonal
    have hub := hu.before
    have hva := hv.after
    have hsame := hv.matched (u.i - 1 - v.i) (by omega)
    have hi : v.i + (u.i - 1 - v.i) = u.i - 1 := by omega
    have hj : v.j + (u.i - 1 - v.i) = u.j - 1 := by omega
    rw [hi, hj] at hsame
    exact hu.left (by omega) (by omega) hsame
  have hend : ∀ {u v : Block}, Extended same w x u → Extended same w x v → v.i + v.size ≤ u.i + u.size := by
    intro u v hu hv
    by_contra hlt
    have hvahi := hv.inside.ahi
    have hvbhi := hv.inside.bhi
    have hud := hu.diagonal
    have hvd := hv.diagonal
    have hvb := hv.before
    have hua := hu.after
    have hsame := hv.matched (u.i + u.size - v.i) (by omega)
    have hi : v.i + (u.i + u.size - v.i) = u.i + u.size := by omega
    have hj : v.j + (u.i + u.size - v.i) = u.j + u.size := by omega
    rw [hi, hj] at hsame
    exact hu.right (by omega) (by omega) hsame
  have h1 := hstart hy hz
  have h2 := hstart hz hy
  have h3 := hend hy hz
  have h4 := hend hz hy
  obtain ⟨i, j, size⟩ := y
  obtain ⟨i', j', size'⟩ := z
  simp only [Block.mk.injEq] at *
  omega

variable {xs : List Block}

theorem Matching.unique {ys : List Block} (hx : Matching plain same w xs)
    (hy : Matching plain same w ys) : xs = ys := by
  induction hx generalizing ys with
  | none hlongest hextended hempty =>
    cases hy with
    | none => rfl
    | some hlongest' hextended' hnonempty =>
      have hsame := hlongest.unique hlongest'
      subst hsame
      have hsame := hextended.unique hextended'
      subst hsame
      omega
  | some hlongest hextended hnonempty _ _ ihleft ihright =>
    cases hy with
    | none hlongest' hextended' hempty =>
      have hsame := hlongest.unique hlongest'
      subst hsame
      have hsame := hextended.unique hextended'
      subst hsame
      omega
    | some hlongest' hextended' _ hleft' hright' =>
      have hsame := hlongest.unique hlongest'
      subst hsame
      have hsame := hextended.unique hextended'
      subst hsame
      rw [ihleft hleft', ihright hright']

/-! ### Blocks do not overlap -/

theorem Block.Inside.of_left (hx : x.Inside w) (h : y.Inside (w.left x)) : y.Inside w := by
  have ⟨h1, h2, h3, h4⟩ := h
  have ⟨g1, g2, g3, g4⟩ := hx
  simp only [Region.left] at h1 h2 h3 h4
  exact ⟨h1, by omega, h3, by omega⟩

theorem Block.Inside.of_right (hx : x.Inside w) (h : y.Inside (w.right x)) :
    y.Inside w := by
  have ⟨h1, h2, h3, h4⟩ := h
  have ⟨g1, g2, g3, g4⟩ := hx
  simp only [Region.right] at h1 h2 h3 h4
  exact ⟨by omega, h2, by omega, h4⟩

theorem Matching.inside (h : Matching plain same w xs) :
    ∀ x ∈ xs, x.Inside w ∧ 0 < x.size ∧ ∀ d < x.size, same (x.i + d) (x.j + d) := by
  induction h with
  | none => simp
  | @some w x y before behind hlongest hextended hnonempty _ _ ihleft ihright =>
    have hy := hextended.inside
    rw [List.forall_mem_append, List.forall_mem_cons]
    exact ⟨fun z hz => ⟨hy.of_left (ihleft z hz).1, (ihleft z hz).2⟩, ⟨hy, hnonempty, hextended.matched⟩,
      fun z hz => ⟨hy.of_right (ihright z hz).1, (ihright z hz).2⟩⟩

theorem Matching.ordered (h : Matching plain same w xs) :
    xs.Pairwise Block.Before := by
  induction h with
  | none => exact List.Pairwise.nil
  | @some w x y before behind hlongest hextended hnonempty hleft hright ihleft ihright =>
    have hbefore : ∀ z ∈ before, z.Before y := by
      intro z hz
      have hinside := (hleft.inside z hz).1
      exact ⟨hinside.ahi, hinside.bhi⟩
    have hbehind : ∀ z ∈ behind, y.Before z := by
      intro z hz
      have hinside := (hright.inside z hz).1
      exact ⟨hinside.alo, hinside.blo⟩
    refine List.pairwise_append.mpr ⟨ihleft, List.pairwise_cons.mpr ⟨hbehind, ihright⟩, ?_⟩
    intro u hu v hv
    have huy := hbefore u hu
    rcases List.mem_cons.mp hv with rfl | hv
    · exact huy
    · have hyv := hbehind v hv
      unfold Block.Before at *
      omega

/-- How many positions are matched. -/
def total (xs : List Block) : Nat := (xs.map Block.size).sum

theorem total_append (xs : List Block) (y : Block) (ys : List Block) :
    total (xs ++ y :: ys) = total xs + y.size + total ys := by
  simp [total, Nat.add_assoc]

theorem Matching.total_le (h : Matching plain same w xs) :
    w.alo + total xs ≤ w.ahi ∧ w.blo + total xs ≤ w.bhi := by
  induction h with
  | none hlongest =>
    have hinside := hlongest.candidate.inside
    have ⟨h1, h2, h3, h4⟩ := hinside
    simp only [total, List.map_nil, List.sum_nil]
    omega
  | some _ hextended _ _ _ ihleft ihright =>
    rw [total_append]
    simp only [Region.left, Region.right] at ihleft ihright
    omega

/-! ### The table of runs -/

section

open Classical in
/-- How many plain positions of the region end right before `(e, f)`, one behind the other. -/
noncomputable def run (plain : Nat → Nat → Prop) (w : Region) : Nat → Nat → Nat
  | e + 1, f + 1 => if w.alo ≤ e ∧ w.blo ≤ f ∧ plain e f then run plain w e f + 1 else 0
  | 0, _ => 0
  | _ + 1, 0 => 0

variable {w : Region} {e f : Nat}

theorem run_succ (he : w.alo ≤ e) (hf : w.blo ≤ f) (h : plain e f) :
    run plain w (e + 1) (f + 1) = run plain w e f + 1 := by
  rw [run, if_pos ⟨he, hf, h⟩]

theorem run_eq_zero (h : ¬plain e f) : run plain w (e + 1) (f + 1) = 0 := by
  rw [run, if_neg fun hall => h hall.2.2]

theorem run_of_le_blo (h : f ≤ w.blo) : run plain w e f = 0 := by
  match e, f with
  | 0, _ => rfl
  | _ + 1, 0 => rfl
  | e + 1, f + 1 => rw [run, if_neg fun hall => by omega]

theorem candidate_of_le_run {n : Nat} (he : w.alo ≤ e) (hf : w.blo ≤ f) (hahi : e ≤ w.ahi)
    (hbhi : f ≤ w.bhi) (h : n ≤ run plain w e f) :
    n ≤ e ∧ n ≤ f ∧ Candidate plain w ⟨e - n, f - n, n⟩ := by
  induction n generalizing e f with
  | zero => exact ⟨Nat.zero_le e, Nat.zero_le f, ⟨he, hahi, hf, hbhi⟩, fun d hd => by cases hd⟩
  | succ n ih =>
    match e, f with
    | 0, _ => cases h
    | _ + 1, 0 => cases h
    | e + 1, f + 1 =>
      by_cases hplain : w.alo ≤ e ∧ w.blo ≤ f ∧ plain e f
      · have ⟨halo, hblo, hend⟩ := hplain
        rw [run, if_pos hplain] at h
        have ⟨hne, hnf, hcandidate⟩ := ih halo hblo (by omega) (by omega) (Nat.le_of_succ_le_succ h)
        have h1 := hcandidate.inside.alo
        have h2 := hcandidate.inside.blo
        have hi : e + 1 - (n + 1) = e - n := by omega
        have hj : f + 1 - (n + 1) = f - n := by omega
        refine ⟨by omega, by omega, ⟨by simp only at *; omega, by simp only; omega, by simp only at *; omega,
          by simp only; omega⟩, fun d hd => ?_⟩
        rw [hi, hj]
        by_cases hlast : d = n
        · subst hlast
          rw [Nat.sub_add_cancel hne, Nat.sub_add_cancel hnf]
          exact hend
        · exact hcandidate.matched d (by simp only at *; omega)
      · rw [run, if_neg hplain] at h
        cases h

theorem Candidate.size_le_run {x : Block} (h : Candidate plain w x) :
    x.size ≤ run plain w (x.i + x.size) (x.j + x.size) := by
  have halo := h.inside.alo
  have hblo := h.inside.blo
  have hprefix : ∀ n ≤ x.size, n ≤ run plain w (x.i + n) (x.j + n) := by
    intro n hn
    induction n with
    | zero => exact Nat.zero_le _
    | succ n ih =>
      have hrun := run_succ (w := w) (by omega) (by omega) (h.matched n hn)
      have hle := ih (by omega)
      rw [← Nat.add_assoc, ← Nat.add_assoc, hrun]
      omega
  exact hprefix x.size (Nat.le_refl _)

/-- The block is the first longest one of those that end at `(e, f)` or before it, row by row. -/
structure Scanned (plain : Nat → Nat → Prop) (w : Region) (e f : Nat) (x : Block) : Prop where
  candidate : Candidate plain w x
  start : x.size = 0 → x.i = w.alo ∧ x.j = w.blo
  reached : x.i + x.size < e ∨ x.i + x.size = e ∧ x.j + x.size ≤ f
  size_le : ∀ e' f', e' < e ∨ e' = e ∧ f' ≤ f → f' ≤ w.bhi → run plain w e' f' ≤ x.size
  first : ∀ e' f', e' < e ∨ e' = e ∧ f' ≤ f → w.alo ≤ e' → w.blo ≤ f' → f' ≤ w.bhi →
    run plain w e' f' = x.size → x.i + x.size < e' ∨ x.i + x.size = e' ∧ x.j + x.size ≤ f'

variable {w : Region} {e f : Nat} {x : Block}

theorem run_of_le_alo (h : e ≤ w.alo) : run plain w e f = 0 := by
  match e, f with
  | 0, _ => rfl
  | _ + 1, 0 => rfl
  | e + 1, f + 1 => rw [run, if_neg fun hall => by omega]

theorem Scanned.empty (ha : w.alo ≤ w.ahi) (hb : w.blo ≤ w.bhi) : Scanned plain w w.alo w.bhi ⟨w.alo, w.blo, 0⟩ where
  candidate := ⟨⟨Nat.le_refl _, ha, Nat.le_refl _, hb⟩, fun d hd => by cases hd⟩
  start _ := ⟨rfl, rfl⟩
  reached := Or.inr ⟨rfl, hb⟩
  size_le e' f' h _ := by
    have hzero : run plain w e' f' = 0 := run_of_le_alo (by omega)
    omega
  first e' f' h halo hblo _ _ := by
    simp only
    omega

theorem Scanned.skip (h : Scanned plain w e f x) (hrun : run plain w e (f + 1) ≤ x.size) :
    Scanned plain w e (f + 1) x where
  candidate := h.candidate
  start := h.start
  reached := by
    have hreached := h.reached
    omega
  size_le e' f' hle hbhi := by
    by_cases hnew : e' = e ∧ f' = f + 1
    · rw [hnew.1, hnew.2]
      exact hrun
    · exact h.size_le e' f' (by omega) hbhi
  first e' f' hle halo hblo hbhi heq := by
    by_cases hnew : e' = e ∧ f' = f + 1
    · have hreached := h.reached
      omega
    · exact h.first e' f' (by omega) halo hblo hbhi heq

theorem Scanned.skipTo {g : Nat} (h : Scanned plain w e f x) (hfg : f ≤ g)
    (hrun : ∀ j, f ≤ j → j < g → run plain w e (j + 1) ≤ x.size) : Scanned plain w e g x := by
  induction g with
  | zero =>
    have hzero : f = 0 := by omega
    exact hzero ▸ h
  | succ g ih =>
    by_cases hlast : f = g + 1
    · exact hlast ▸ h
    · exact (ih (by omega) fun j hj hlt => hrun j hj (by omega)).skip (hrun g (by omega) (by omega))

theorem Scanned.take (h : Scanned plain w e f x) (halo : w.alo ≤ e) (hblo : w.blo ≤ f) (hahi : e ≤ w.ahi)
    (hbhi : f + 1 ≤ w.bhi) (hrun : x.size < run plain w e (f + 1)) :
    Scanned plain w e (f + 1) ⟨e - run plain w e (f + 1), f + 1 - run plain w e (f + 1), run plain w e (f + 1)⟩ := by
  have ⟨hne, hnf, hcandidate⟩ := @candidate_of_le_run plain _ _ _ _ halo (by omega) hahi hbhi (Nat.le_refl _)
  refine ⟨hcandidate, fun hzero => ?_, ?_, fun e' f' hle hbound => ?_, fun e' f' hle ha hb hbound heq => ?_⟩
  · simp only at hzero
    omega
  · simp only
    omega
  · by_cases hnew : e' = e ∧ f' = f + 1
    · exact Nat.le_of_eq (by rw [hnew.1, hnew.2])
    · have hold := h.size_le e' f' (by omega) hbound
      simp only
      omega
  · by_cases hnew : e' = e ∧ f' = f + 1
    · simp only
      omega
    · have hold := h.size_le e' f' (by omega) hbound
      simp only at heq
      omega

theorem Scanned.nextRow (h : Scanned plain w e w.bhi x) : Scanned plain w (e + 1) w.blo x where
  candidate := h.candidate
  start := h.start
  reached := by
    have hreached := h.reached
    have hblo := h.candidate.inside.bhi
    omega
  size_le e' f' hle hbound := by
    by_cases hnew : e' = e + 1
    · rw [run_of_le_blo (by omega)]
      exact Nat.zero_le _
    · exact h.size_le e' f' (by omega) hbound
  first e' f' hle halo hblo hbound heq := by
    by_cases hnew : e' = e + 1
    · have hreached := h.reached
      omega
    · exact h.first e' f' (by omega) halo hblo hbound heq

theorem Scanned.isLongest (h : Scanned plain w w.ahi w.bhi x) : IsLongest plain w x := by
  refine ⟨h.candidate, fun y hy => ?_, fun y hy hsize => ?_⟩
  · have ⟨_, hahi, _, hbhi⟩ := hy.inside
    exact Nat.le_trans hy.size_le_run (h.size_le (y.i + y.size) (y.j + y.size) (by omega) hbhi)
  · have ⟨halo, hahi, hblo, hbhi⟩ := hy.inside
    have hle := h.size_le (y.i + y.size) (y.j + y.size) (by omega) hbhi
    have hrun := hy.size_le_run
    have hfirst := h.first (y.i + y.size) (y.j + y.size) (by omega) (by omega) (by omega) hbhi (by omega)
    omega

end

/-! ### The other sequence first -/

def Region.swap (w : Region) : Region := ⟨w.blo, w.bhi, w.alo, w.ahi⟩

def Block.swap (x : Block) : Block := ⟨x.j, x.i, x.size⟩

/-- The regions that a matching looks at. -/
inductive Reached (plain same : Nat → Nat → Prop) (w : Region) : Region → Prop where
  | start : Reached plain same w w
  | left {v : Region} {x y : Block} (reached : Reached plain same w v) (longest : IsLongest plain v x)
      (extended : Extended same v x y) (nonempty : 0 < y.size) : Reached plain same w (v.left y)
  | right {v : Region} {x y : Block} (reached : Reached plain same w v) (longest : IsLongest plain v x)
      (extended : Extended same v x y) (nonempty : 0 < y.size) : Reached plain same w (v.right y)

/-- A region has one longest block at most. -/
def OneLongest (plain : Nat → Nat → Prop) (w : Region) : Prop :=
  ∀ x y, Candidate plain w x → Candidate plain w y → 0 < x.size → x.size = y.size →
    (∀ z, Candidate plain w z → z.size ≤ x.size) → x = y

/-- No region has two longest blocks. -/
def Tieless (plain same : Nat → Nat → Prop) (w : Region) : Prop := ∀ v, Reached plain same w v → OneLongest plain v

variable {w : Region} {x : Block}

theorem Block.Inside.swap (h : x.Inside w) : x.swap.Inside w.swap :=
  ⟨h.blo, h.bhi, h.alo, h.ahi⟩

theorem Candidate.swap (h : Candidate plain w x) :
    Candidate (fun j i => plain i j) w.swap x.swap := ⟨h.inside.swap, h.matched⟩

theorem Candidate.of_swap (h : Candidate (fun j i => plain i j) w.swap x) :
    Candidate plain w x.swap := h.swap

theorem candidate_empty (h : Candidate plain w x) :
    Candidate plain w ⟨w.alo, w.blo, 0⟩ := by
  have ⟨h1, h2, h3, h4⟩ := h.inside
  exact ⟨⟨Nat.le_refl _, by simp only; omega, Nat.le_refl _, by simp only; omega⟩, fun d hd => by cases hd⟩

theorem IsLongest.swap (h : IsLongest plain w x) (hone : OneLongest plain w) :
    IsLongest (fun j i => plain i j) w.swap x.swap := by
  refine ⟨h.candidate.swap, fun y hy => h.size_le y.swap hy.of_swap, fun y hy hsize => ?_⟩
  have hy' := hy.of_swap
  by_cases hpos : 0 < x.size
  · have hsame := hone x y.swap h.candidate hy' hpos hsize.symm h.size_le
    subst hsame
    right
    exact ⟨rfl, Nat.le_refl _⟩
  · -- Among empty blocks the first one stands at the beginning of the region.
    have hempty := h.first _ (candidate_empty h.candidate) (by simp only; omega)
    have hinside := h.candidate.inside
    have hyinside := hy.inside
    have h1 := hinside.alo
    have h2 := hinside.blo
    have h3 := hyinside.alo
    have h4 := hyinside.blo
    simp only [Region.swap, Block.swap] at *
    omega

variable {y : Block}

theorem Extended.swap (h : Extended same w x y) :
    Extended (fun j i => same i j) w.swap x.swap y.swap := by
  have hdiagonal := h.diagonal
  have hbefore := h.before
  have hafter := h.after
  refine ⟨h.inside.swap, h.matched, ?_, ?_, ?_, fun h1 h2 => h.left h2 h1, fun h1 h2 => h.right h2 h1⟩
  all_goals
    simp only [Block.swap]
    omega

theorem Tieless.left (h : Tieless plain same w) (hlongest : IsLongest plain w x)
    (hextended : Extended same w x y) (hnonempty : 0 < y.size) : Tieless plain same (w.left y) := by
  intro v hv
  apply h
  induction hv with
  | start => exact Reached.start.left hlongest hextended hnonempty
  | left _ hl he hn ih => exact ih.left hl he hn
  | right _ hl he hn ih => exact ih.right hl he hn

theorem Tieless.right (h : Tieless plain same w) (hlongest : IsLongest plain w x)
    (hextended : Extended same w x y) (hnonempty : 0 < y.size) : Tieless plain same (w.right y) := by
  intro v hv
  apply h
  induction hv with
  | start => exact Reached.start.right hlongest hextended hnonempty
  | left _ hl he hn ih => exact ih.left hl he hn
  | right _ hl he hn ih => exact ih.right hl he hn

theorem Matching.swap {xs : List Block} (h : Matching plain same w xs) (ht : Tieless plain same w) :
    Matching (fun j i => plain i j) (fun j i => same i j) w.swap (xs.map Block.swap) := by
  induction h with
  | none hlongest hextended hempty =>
    exact .none (hlongest.swap (ht _ .start)) hextended.swap hempty
  | some hlongest hextended hnonempty _ _ ihleft ihright =>
    rw [List.map_append, List.map_cons]
    exact .some (hlongest.swap (ht _ .start)) hextended.swap hnonempty
      (ihleft (ht.left hlongest hextended hnonempty)) (ihright (ht.right hlongest hextended hnonempty))

theorem total_swap (xs : List Block) : total (xs.map Block.swap) = total xs := by
  unfold total
  rw [List.map_map]
  rfl

end SocialActivities.Lib
