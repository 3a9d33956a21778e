import Mathlib.Algebra.Order.Field.Basic
import Mathlib.Tactic.Positivity
import SocialActivities.Places.Similarity

/-!
# `SocialActivities.Places.Matching`: the loops find the documented blocks

Both the table of the Go functions (`longestBlock_isLongest`) and the documented search of the standard
library (`longestMatch_isLongest`) name the first longest block of a part. So the recursion over parts and
the loop over the stack come to the same blocks (`matching_total`), and the stack empties.
-/

namespace SocialActivities.Places

open Lib

variable {a b : Text}

/-- Equal runes. -/
def same (a b : Text) (i j : Nat) : Prop := ∃ r, a[i]? = some r ∧ b[j]? = some r

/-- Equal runes that are not popular. -/
def plain (a b : Text) (i j : Nat) : Prop := ∃ r, a[i]? = some r ∧ b[j]? = some r ∧ Py.popular b r = false

variable {i j : Nat}

theorem same_of_plain (h : plain a b i j) : same a b i j :=
  have ⟨r, ha, hb, _⟩ := h
  ⟨r, ha, hb⟩

/-- A part of both texts. -/
structure Fits (a b : Text) (w : Region) : Prop where
  alo : w.alo ≤ w.ahi
  ahi : w.ahi ≤ a.length
  blo : w.blo ≤ w.bhi
  bhi : w.bhi ≤ b.length

theorem fits_whole (a b : Text) : Fits a b (whole a b) :=
  ⟨Nat.zero_le _, Nat.le_refl _, Nat.zero_le _, Nat.le_refl _⟩

variable {w : Region} {x : Block}

theorem Fits.left (h : Fits a b w) (hx : x.Inside w) : Fits a b (w.left x) := by
  have ⟨h1, h2, h3, h4⟩ := h
  have ⟨g1, g2, g3, g4⟩ := hx
  exact ⟨g1, by simp only [Region.left]; omega, g3, by simp only [Region.left]; omega⟩

theorem Fits.right (h : Fits a b w) (hx : x.Inside w) : Fits a b (w.right x) :=
  ⟨hx.ahi, h.ahi, hx.bhi, h.bhi⟩

/-! ### The positions of a rune -/

theorem mem_positions {r : Char} : j ∈ positions b r ↔ b[j]? = some r := by
  simp only [positions, List.mem_filter, List.mem_range, beq_iff_eq]
  exact ⟨fun h => h.2, fun h => ⟨(List.getElem?_eq_some_iff.mp h).1, h⟩⟩

theorem length_positions (b : Text) (r : Char) : (positions b r).length = b.count r := by
  unfold positions
  induction b with
  | nil => rfl
  | cons c b ih =>
    have htail : ((List.range b.length).map (· + 1)).filter (fun j => (c :: b)[j]? == some r) =
        ((List.range b.length).filter fun j => b[j]? == some r).map (· + 1) := by
      rw [List.filter_map]
      congr 2
    rw [List.length_cons, List.range_succ_eq_map, List.filter_cons]
    by_cases hc : c = r
    · subst hc
      simp [htail, ih]
    · simp [htail, ih, hc]

theorem mem_b2j {r : Char} : j ∈ b2j b r ↔ b[j]? = some r ∧ Py.popular b r = false := by
  simp only [b2j, Py.popular, length_positions]
  split
  · next h => simp [h.1, h.2]
  · next h =>
    rw [mem_positions, Bool.and_eq_false_iff, decide_eq_false_iff_not, decide_eq_false_iff_not]
    exact ⟨fun hj => ⟨hj, by omega⟩, fun hj => hj.1⟩

theorem sorted_b2j (b : Text) (r : Char) : (b2j b r).Pairwise (· < ·) := by
  simp only [b2j]
  split
  · exact List.Pairwise.nil
  · exact List.Pairwise.filter _ List.pairwise_lt_range

/-- The positions of `a[i]` in the table. -/
def rowPositions (a b : Text) (i : Nat) : List Nat := (a[i]?.map (b2j b)).getD []

theorem mem_rowPositions : j ∈ rowPositions a b i ↔ plain a b i j := by
  unfold rowPositions plain
  cases hi : a[i]? with
  | none => simp
  | some => simp [mem_b2j]

theorem sorted_rowPositions (a b : Text) (i : Nat) : (rowPositions a b i).Pairwise (· < ·) := by
  unfold rowPositions
  cases a[i]? with
  | none => exact List.Pairwise.nil
  | some r => exact sorted_b2j b r

/-! ### The table -/

/-- The row has the runs that end right before the position `f`. -/
def RowOf (plain : Nat → Nat → Prop) (w : Region) (e f : Nat) (row : Row) : Prop :=
  ∀ j, row.at j = if w.blo ≤ j ∧ j < f then run plain w e (j + 1) else 0

theorem Row.at_cons (row : Row) (j n k : Nat) : Row.at ((j, n) :: row) k = if k = j then n else row.at k := by
  unfold Row.at
  rw [List.lookup_cons]
  by_cases h : k = j
  · subst h
    simp
  · have hne : (k == j) = false := by simpa using h
    rw [hne, if_neg h]

variable {row : Row} {e : Nat}

theorem RowOf.before (h : RowOf (plain a b) w e w.bhi row)
    (hj : j < w.bhi) : row.before j = run (plain a b) w e j := by
  cases j with
  | zero => exact (run_of_le_blo (Nat.zero_le _)).symm
  | succ j =>
    show row.at j = _
    rw [h j]
    split
    · rfl
    · exact (run_of_le_blo (by omega)).symm

variable {f : Nat}

theorem RowOf.extend {g : Nat} (h : RowOf (plain a b) w e f row) (hfg : f ≤ g)
    (hrun : ∀ j, f ≤ j → j < g → run (plain a b) w e (j + 1) = 0) : RowOf (plain a b) w e g row := by
  intro j
  rw [h j]
  by_cases hold : w.blo ≤ j ∧ j < f
  · rw [if_pos hold, if_pos ⟨hold.1, by omega⟩]
  · rw [if_neg hold]
    split
    · exact (hrun j (by omega) (by omega)).symm
    · rfl

theorem RowOf.push (h : RowOf (plain a b) w e f row) (hblo : w.blo ≤ f) :
    RowOf (plain a b) w e (f + 1) ((f, run (plain a b) w e (f + 1)) :: row) := by
  intro j
  rw [Row.at_cons, h j]
  by_cases hj : j = f
  · subst hj
    rw [if_pos rfl, if_pos ⟨hblo, by omega⟩]
  · rw [if_neg hj]
    by_cases hold : w.blo ≤ j ∧ j < f
    · rw [if_pos hold, if_pos ⟨hold.1, by omega⟩]
    · rw [if_neg hold, if_neg (by omega)]

/-- Positions that are not in the list end no run. -/
theorem skip_row {g : Nat} {current : Row} {best : Block} {js : List Nat}
    (hcurrent : RowOf (plain a b) w (i + 1) f current) (hbest : Scanned (plain a b) w (i + 1) f best)
    (hmem : ∀ j, f ≤ j → (j ∈ js ↔ plain a b i j)) (hfg : f ≤ g) (hjs : ∀ j ∈ js, f ≤ j → g ≤ j) :
    RowOf (plain a b) w (i + 1) g current ∧ Scanned (plain a b) w (i + 1) g best := by
  have hnone : ∀ j, f ≤ j → j < g → run (plain a b) w (i + 1) (j + 1) = 0 := by
    intro j hj hlt
    refine run_eq_zero fun hplain => ?_
    have hle := hjs j ((hmem j hj).mpr hplain) hj
    omega
  refine ⟨hcurrent.extend hfg hnone, hbest.skipTo hfg fun j hj hlt => ?_⟩
  rw [hnone j hj hlt]
  exact Nat.zero_le _

/-- The inner loop goes through one row. `f` is the first position that was not looked at. -/
theorem scanRow_spec {previous current : Row} {best : Block} {js : List Nat}
    (halo : w.alo ≤ i) (hahi : i < w.ahi) (hblo : w.blo ≤ f) (hbhi : f ≤ w.bhi)
    (hprevious : RowOf (plain a b) w i w.bhi previous) (hcurrent : RowOf (plain a b) w (i + 1) f current)
    (hbest : Scanned (plain a b) w (i + 1) f best) (hsorted : js.Pairwise (· < ·))
    (hmem : ∀ j, f ≤ j → (j ∈ js ↔ plain a b i j)) (hahead : ∀ j ∈ js, j < w.blo ∨ f ≤ j) :
    RowOf (plain a b) w (i + 1) w.bhi (scanRow w i previous js current best).1 ∧
      Scanned (plain a b) w (i + 1) w.bhi (scanRow w i previous js current best).2 := by
  induction js generalizing f current best with
  | nil => exact skip_row hcurrent hbest hmem hbhi fun j hj => by cases hj
  | cons j js ih =>
    have ⟨hfirst, hrest⟩ := List.pairwise_cons.mp hsorted
    have htail : ∀ k, k ≠ j → (k ∈ j :: js ↔ k ∈ js) := fun k hk => by simp [hk]
    have hfrom : ∀ k ∈ j :: js, j ≤ k := fun k hk => by
      rcases List.mem_cons.mp hk with rfl | hk
      · exact Nat.le_refl _
      · exact Nat.le_of_lt (hfirst k hk)
    rw [scanRow]
    split
    · -- Before the part.
      next hlow =>
      refine ih hblo hbhi hcurrent hbest hrest (fun k hk => ?_) fun k hk => hahead k (List.mem_cons_of_mem j hk)
      rw [← hmem k hk, htail k (by omega)]
    · next hin =>
      have hfj : f ≤ j := (hahead j List.mem_cons_self).resolve_left hin
      split
      · -- Behind the part, like all that follow.
        next hhigh => exact skip_row hcurrent hbest hmem hbhi fun k hk _ => Nat.le_trans hhigh (hfrom k hk)
      · next hwithin =>
        have ⟨hrow, hscanned⟩ := skip_row hcurrent hbest hmem hfj fun k hk _ => hfrom k hk
        have hplain : plain a b i j := (hmem j hfj).mp List.mem_cons_self
        have hsize : previous.before j + 1 = run (plain a b) w (i + 1) (j + 1) := by
          rw [hprevious.before (by omega), run_succ halo (by omega) hplain]
        have hpushed := hrow.push (by omega : w.blo ≤ j)
        have htaken : Scanned (plain a b) w (i + 1) (j + 1)
            (if best.size < run (plain a b) w (i + 1) (j + 1) then
              ⟨i + 1 - run (plain a b) w (i + 1) (j + 1), j + 1 - run (plain a b) w (i + 1) (j + 1),
                run (plain a b) w (i + 1) (j + 1)⟩
            else best) := by
          split
          · next hlt => exact hscanned.take (by omega) (by omega) hahi (by omega) hlt
          · next hle => exact hscanned.skip (by omega)
        simp only [hsize]
        refine ih (by omega) (by omega) hpushed htaken hrest (fun k hk => ?_) fun k hk => Or.inr (hfirst k hk)
        rw [← hmem k (by omega), htail k (by omega)]

theorem longestBlock_isLongest (h : Fits a b w) : IsLongest (plain a b) w (longestBlock a b w) := by
  have hrows : ∀ (n i : Nat) (s : Row × Block), w.alo ≤ i → i + n = w.ahi → RowOf (plain a b) w i w.bhi s.1 →
      Scanned (plain a b) w i w.bhi s.2 →
      Scanned (plain a b) w w.ahi w.bhi ((List.range' i n).foldl (fun (s : Row × Block) i =>
        scanRow w i s.1 ((a[i]?.map (b2j b)).getD []) [] s.2) s).2 := by
    intro n
    induction n with
    | zero =>
      intro i s _ hi _ hbest
      rw [Nat.add_zero] at hi
      exact hi ▸ hbest
    | succ n ih =>
      intro i s halo hi hrow hbest
      have hempty : RowOf (plain a b) w (i + 1) w.blo [] := by
        intro j
        rw [if_neg (by omega)]
        rfl
      have hscan := scanRow_spec halo (by omega) (Nat.le_refl _) h.blo hrow hempty hbest.nextRow
        (sorted_rowPositions a b i) (fun j _ => mem_rowPositions) fun j _ => Nat.lt_or_ge j w.blo
      rw [List.range'_succ, List.foldl_cons]
      exact ih (i + 1) _ (by omega) (by omega) hscan.1 hscan.2
  have hstart : RowOf (plain a b) w w.alo w.bhi [] := by
    intro j
    rw [run_of_le_alo (Nat.le_refl _), ite_self]
    rfl
  exact (hrows (w.ahi - w.alo) w.alo ([], ⟨w.alo, w.blo, 0⟩) (Nat.le_refl _) (Nat.add_sub_cancel' h.alo) hstart
    (Scanned.empty h.alo h.blo)).isLongest

/-! ### Equal runes around a block -/

theorem same_iff (hi : i < a.length) : same a b i j ↔ a[i]? = b[j]? := by
  unfold same
  rw [List.getElem?_eq_getElem hi]
  exact ⟨fun ⟨r, ha, hb⟩ => ha.trans hb.symm, fun h => ⟨a[i], rfl, h.symm⟩⟩

variable {n : Nat}

/-- The block begins as early as it can. -/
theorem extendBack_spec (hfits : Fits a b w) (hinside : Block.Inside ⟨i, j, n⟩ w)
    (hsame : ∀ d < n, same a b (i + d) (j + d)) :
    (extendBack a b w i j n).Inside w ∧
      (∀ d < (extendBack a b w i j n).size,
        same a b ((extendBack a b w i j n).i + d) ((extendBack a b w i j n).j + d)) ∧
      (extendBack a b w i j n).i ≤ i ∧ i + (extendBack a b w i j n).j = (extendBack a b w i j n).i + j ∧
      i + n = (extendBack a b w i j n).i + (extendBack a b w i j n).size ∧
      (w.alo < (extendBack a b w i j n).i → w.blo < (extendBack a b w i j n).j →
        ¬same a b ((extendBack a b w i j n).i - 1) ((extendBack a b w i j n).j - 1)) := by
  have hahi := hfits.ahi
  induction i generalizing j n with
  | zero => exact ⟨hinside, hsame, Nat.le_refl _, rfl, rfl, fun h => by cases h⟩
  | succ i ih =>
    cases j with
    | zero => exact ⟨hinside, hsame, Nat.le_refl _, rfl, rfl, fun _ h => by cases h⟩
    | succ j =>
      have ⟨h1, h2, h3, h4⟩ := hinside
      simp only at h1 h2 h3 h4
      rw [extendBack]
      split
      · next hgrow =>
        have ⟨halo, hblo, hequal⟩ := hgrow
        have hnew : ∀ d < n + 1, same a b (i + d) (j + d) := by
          intro d hd
          cases d with
          | zero => exact (same_iff (by omega)).mpr hequal
          | succ d =>
            have hold := hsame d (by omega)
            rw [Nat.add_right_comm i 1 d, Nat.add_right_comm j 1 d] at hold
            exact hold
        have ⟨g1, g2, g3, g4, g5, g6⟩ := ih (n := n + 1) (j := j)
          ⟨by simp only; omega, by simp only; omega, by simp only; omega, by simp only; omega⟩ hnew
        exact ⟨g1, g2, by omega, by omega, by omega, g6⟩
      · next hstop =>
        refine ⟨hinside, hsame, Nat.le_refl _, rfl, rfl, fun halo hblo hequal => hstop ⟨halo, hblo, ?_⟩⟩
        exact (same_iff (by omega)).mp hequal

/-- The block ends as late as it can. -/
theorem extendForward_spec (hfits : Fits a b w) {m : Nat} (hinside : Block.Inside ⟨i, j, n⟩ w)
    (hsame : ∀ d < n, same a b (i + d) (j + d)) (hm : w.ahi ≤ i + n + m) :
    ∃ size, extendForward a b w i j m n = ⟨i, j, size⟩ ∧ n ≤ size ∧ Block.Inside ⟨i, j, size⟩ w ∧
      (∀ d < size, same a b (i + d) (j + d)) ∧
      (i + size < w.ahi → j + size < w.bhi → ¬same a b (i + size) (j + size)) := by
  have hahi := hfits.ahi
  induction m generalizing n with
  | zero => exact ⟨n, rfl, Nat.le_refl _, hinside, hsame, fun h => by omega⟩
  | succ m ih =>
    rw [extendForward]
    split
    · next hgrow =>
      have ⟨ha, hb, hequal⟩ := hgrow
      have hnew : ∀ d < n + 1, same a b (i + d) (j + d) := by
        intro d hd
        by_cases hlast : d = n
        · subst hlast
          exact (same_iff (by omega)).mpr hequal
        · exact hsame d (by omega)
      have ⟨size, g1, g2, g3, g4, g5⟩ := ih (n := n + 1)
        ⟨hinside.alo, by simp only; omega, hinside.blo, by simp only; omega⟩ hnew (by omega)
      exact ⟨size, g1, by omega, g3, g4, g5⟩
    · next hstop =>
      refine ⟨n, rfl, Nat.le_refl _, hinside, hsame, fun ha hb hequal => hstop ⟨ha, hb, ?_⟩⟩
      exact (same_iff (by omega)).mp hequal

theorem extend_extended (hfits : Fits a b w) (hx : Candidate (plain a b) w x) :
    Extended (same a b) w x (extend a b w x) := by
  have ⟨h1, h2, h3, h4, h5, h6⟩ := extendBack_spec hfits hx.inside fun d hd => same_of_plain (hx.matched d hd)
  have ⟨size, g1, g2, g3, g4, g5⟩ := extendForward_spec hfits
    (m := w.ahi - ((extendBack a b w x.i x.j x.size).i + (extendBack a b w x.i x.j x.size).size)) h1 h2 (by omega)
  show Extended (same a b) w x (extendForward a b w (extendBack a b w x.i x.j x.size).i
    (extendBack a b w x.i x.j x.size).j (w.ahi - ((extendBack a b w x.i x.j x.size).i +
      (extendBack a b w x.i x.j x.size).size)) (extendBack a b w x.i x.j x.size).size)
  rw [g1]
  exact ⟨g3, g4, h3, h4, by simp only; omega, h6, g5⟩

/-! ### The documented search -/

theorem matches?_iff : Py.matches? a b i j = true ↔ plain a b i j := by
  unfold Py.matches? plain
  cases a[i]? <;> simp

theorem candidate_of_matchesFrom (halo : w.alo ≤ i) (hahi : i ≤ w.ahi) (hblo : w.blo ≤ j)
    (hbhi : j ≤ w.bhi) : Candidate (plain a b) w ⟨i, j, Py.matchesFrom a b w i j n⟩ := by
  induction n generalizing i j with
  | zero => exact ⟨⟨halo, hahi, hblo, hbhi⟩, fun d hd => by cases hd⟩
  | succ n ih =>
    rw [Py.matchesFrom]
    split
    · next hmatch =>
      have ⟨hi, hj, hequal⟩ := hmatch
      have ⟨hinside, hmatched⟩ := ih (i := i + 1) (j := j + 1) (by omega) (by omega) (by omega) (by omega)
      have h2 := hinside.ahi
      have h4 := hinside.bhi
      simp only at h2 h4 hmatched
      refine ⟨⟨halo, by simp only; omega, hblo, by simp only; omega⟩, fun d hd => ?_⟩
      cases d with
      | zero => exact matches?_iff.mp hequal
      | succ d =>
        have hnext := hmatched d (by simp only at hd; omega)
        rw [Nat.add_right_comm i 1 d, Nat.add_right_comm j 1 d] at hnext
        exact hnext
    · exact ⟨⟨halo, hahi, hblo, hbhi⟩, fun d hd => by cases hd⟩

theorem size_le_matchesFrom (hx : Candidate (plain a b) w x)
    (hn : w.ahi ≤ x.i + n) : x.size ≤ Py.matchesFrom a b w x.i x.j n := by
  obtain ⟨i, j, size⟩ := x
  induction n generalizing i j size with
  | zero =>
    have hahi := hx.inside.ahi
    simp only at *
    omega
  | succ n ih =>
    cases size with
    | zero => exact Nat.zero_le _
    | succ size =>
      have ⟨h1, h2, h3, h4⟩ := hx.inside
      simp only at h1 h2 h3 h4 hn
      have hrest : Candidate (plain a b) w ⟨i + 1, j + 1, size⟩ := by
        refine ⟨⟨by simp only; omega, by simp only; omega, by simp only; omega, by simp only; omega⟩, fun d hd => ?_⟩
        have hnext := hx.matched (d + 1) (by simp only at *; omega)
        rw [Nat.add_right_comm i 1 d, Nat.add_right_comm j 1 d]
        exact hnext
      have hle := ih (i + 1) (j + 1) size hrest (by simp only; omega)
      have hfirst : plain a b i j := hx.matched 0 (by simp only; omega)
      simp only at hle ⊢
      rw [Py.matchesFrom, if_pos ⟨by omega, by omega, matches?_iff.mpr hfirst⟩]
      omega

theorem mem_pairs (h : Fits a b w) :
    (i, j) ∈ Py.pairs w ↔ (w.alo ≤ i ∧ i < w.ahi) ∧ w.blo ≤ j ∧ j < w.bhi := by
  have halo := h.alo
  have hblo := h.blo
  rw [Py.pairs, List.mem_product, List.mem_range'_1, List.mem_range'_1]
  omega

theorem sorted_pairs (w : Region) :
    (Py.pairs w).Pairwise fun p q => p.1 < q.1 ∨ p.1 = q.1 ∧ p.2 < q.2 := by
  have hrows : ∀ s n, (List.range' s n).Pairwise (· < ·) := fun s n => List.pairwise_lt_range'
  show List.Pairwise _ ((List.range' w.alo _).flatMap fun i => (List.range' w.blo _).map (Prod.mk i))
  rw [List.pairwise_flatMap]
  refine ⟨fun i _ => ?_, (hrows _ _).imp fun hlt p hp q hq => ?_⟩
  · rw [List.pairwise_map]
    exact (hrows _ _).imp fun hlt => Or.inr ⟨rfl, hlt⟩
  · have ⟨_, _, hp⟩ := List.mem_map.mp hp
    have ⟨_, _, hq⟩ := List.mem_map.mp hq
    subst hp hq
    exact Or.inl hlt

theorem rel_of_idxOf_le {α : Type} [DecidableEq α] {r : α → α → Prop} {l : List α} {p q : α}
    (hsorted : l.Pairwise r) (hp : p ∈ l) (hq : q ∈ l) (h : l.idxOf p ≤ l.idxOf q) : p = q ∨ r p q := by
  by_cases heq : p = q
  · exact Or.inl heq
  · have hne : l.idxOf p ≠ l.idxOf q := fun hidx => heq ((List.idxOf_inj hp).mp hidx)
    have hlt := List.pairwise_iff_getElem.mp hsorted _ _ (List.idxOf_lt_length_iff.mpr hp)
      (List.idxOf_lt_length_iff.mpr hq) (by omega)
    rw [List.getElem_idxOf, List.getElem_idxOf] at hlt
    exact Or.inr hlt

theorem longestMatch_isLongest (h : Fits a b w) :
    IsLongest (plain a b) w (Py.longestMatch a b w) := by
  have halo := h.alo
  have hblo := h.blo
  -- A block with a position begins at a pair.
  have hstart : ∀ y, Candidate (plain a b) w y → 0 < y.size → (y.i, y.j) ∈ Py.pairs w := by
    intro y hy hpos
    have ⟨h1, h2, h3, h4⟩ := hy.inside
    exact (mem_pairs h).mpr ⟨⟨h1, by omega⟩, h3, by omega⟩
  cases hmax : (Py.pairs w).argmax fun start => Py.matchesFrom a b w start.1 start.2 (w.ahi - start.1) with
  | none =>
    have hblock : Py.longestMatch a b w = ⟨w.alo, w.blo, 0⟩ := by simp only [Py.longestMatch, hmax]
    have hnil := List.argmax_eq_none.mp hmax
    rw [hblock]
    refine ⟨⟨⟨Nat.le_refl _, halo, Nat.le_refl _, hblo⟩, fun d hd => by cases hd⟩, fun y hy => ?_, fun y hy _ => ?_⟩
    · refine Nat.le_of_not_lt fun hpos => ?_
      have hmem := hstart y hy hpos
      rw [hnil] at hmem
      cases hmem
    · have ⟨h1, h2, h3, h4⟩ := hy.inside
      simp only
      omega
  | some start =>
    have hblock : Py.longestMatch a b w =
        ⟨start.1, start.2, Py.matchesFrom a b w start.1 start.2 (w.ahi - start.1)⟩ := by
      simp only [Py.longestMatch, hmax]
    have ⟨hmem, hle, hfirst⟩ := List.argmax_eq_some_iff.mp hmax
    have ⟨hrow, hcolumn⟩ := (mem_pairs h).mp hmem
    have hearly : ∀ p ∈ Py.pairs w, Py.matchesFrom a b w start.1 start.2 (w.ahi - start.1) ≤
        Py.matchesFrom a b w p.1 p.2 (w.ahi - p.1) → start.1 < p.1 ∨ start.1 = p.1 ∧ start.2 ≤ p.2 := by
      intro p hp hge
      rcases rel_of_idxOf_le (sorted_pairs w) hmem hp (hfirst p hp hge) with rfl | hlt
      · exact Or.inr ⟨rfl, Nat.le_refl _⟩
      · omega
    rw [hblock]
    refine ⟨candidate_of_matchesFrom hrow.1 (by omega) hcolumn.1 (by omega), fun y hy => ?_, fun y hy hsize => ?_⟩
    · by_cases hpos : 0 < y.size
      · have hyle := size_le_matchesFrom (n := w.ahi - y.i) hy (by omega)
        exact Nat.le_trans hyle (hle _ (hstart y hy hpos))
      · simp only
        omega
    · simp only at hsize ⊢
      by_cases hpos : 0 < y.size
      · have hyle := size_le_matchesFrom (n := w.ahi - y.i) hy (by omega)
        exact hearly _ (hstart y hy hpos) (by simp only; omega)
      · -- Without a match the first pair is taken, which stands at the beginning of the part.
        have ⟨h1, h2, h3, h4⟩ := hy.inside
        have hcorner := hearly (w.alo, w.blo) ((mem_pairs h).mpr ⟨⟨Nat.le_refl _, by omega⟩, Nat.le_refl _, by omega⟩)
          (by omega)
        simp only at hcorner
        omega

/-! ### All blocks -/

theorem blocksOf_matching (h : Fits a b w) (hn : w.ahi < w.alo + n) :
    Matching (plain a b) (same a b) w (Py.blocksOf a b n w) := by
  induction n generalizing w with
  | zero =>
    have halo := h.alo
    omega
  | succ n ih =>
    have hlongest := longestMatch_isLongest h
    have hextended := extend_extended h hlongest.candidate
    have ⟨h1, h2, h3, h4⟩ := hextended.inside
    rw [Py.blocksOf]
    split
    · next hempty => exact .none hlongest hextended hempty
    · next hsize =>
      refine .some hlongest hextended (by omega) (ih (h.left hextended.inside) ?_) (ih (h.right hextended.inside) ?_)
      · simp only [Region.left]
        omega
      · simp only [Region.right]
        omega

theorem matchingBlocks_matching (a b : Text) :
    Matching (plain a b) (same a b) (whole a b) (Py.matchingBlocks a b) :=
  blocksOf_matching (fits_whole a b) (by simp [whole])

theorem total_of_empty {xs : List Block} (hm : Matching (plain a b) (same a b) w xs)
    (hempty : ¬(w.alo < w.ahi ∧ w.blo < w.bhi)) : total xs = 0 := by
  have hle := hm.total_le
  omega

/-- How many parts the loop may still look at. -/
def pending (stack : List Region) : Nat := (stack.map fun w => 2 * (w.ahi - w.alo) + 1).sum

/-- The stack has parts of both texts, and `n` positions in their blocks. -/
def Stacked (a b : Text) (stack : List Region) (n : Nat) : Prop :=
  (∀ w ∈ stack, Fits a b w) ∧
    ∃ xss, List.Forall₂ (Matching (plain a b) (same a b)) stack xss ∧ (xss.map total).sum = n

/-- A part is pushed unless one of its sides is empty, and then it has no blocks. -/
theorem Stacked.push {stack : List Region} (h : Stacked a b stack n) {xs : List Block}
    (hw : Fits a b w) (hm : Matching (plain a b) (same a b) w xs) (c : Prop) [Decidable c]
    (hc : c ↔ w.alo < w.ahi ∧ w.blo < w.bhi) :
    Stacked a b (if c then w :: stack else stack) (total xs + n) ∧
      pending (if c then w :: stack else stack) ≤ 2 * (w.ahi - w.alo) + 1 + pending stack := by
  have ⟨hfits, xss, hall, hsum⟩ := h
  split
  · refine ⟨⟨List.forall_mem_cons.mpr ⟨hw, hfits⟩, xs :: xss, .cons hm hall, by simp [hsum]⟩, ?_⟩
    simp [pending]
  · next hempty =>
    have hzero := total_of_empty hm fun hboth => hempty (hc.mpr hboth)
    refine ⟨⟨hfits, xss, hall, by omega⟩, by omega⟩

theorem matchLoop_eq {fuel : Nat} {stack : List Region} {count : Nat} (h : Stacked a b stack count)
    (hfuel : pending stack ≤ fuel) : matchLoop a b fuel stack n = some (n + count) := by
  induction fuel generalizing stack count n with
  | zero =>
    have ⟨_, xss, hall, hsum⟩ := h
    cases hall with
    | nil =>
      subst hsum
      rfl
    | cons => simp [pending] at hfuel
  | succ fuel ih =>
    have ⟨hfits, xss, hall, hsum⟩ := h
    cases hall with
    | nil =>
      subst hsum
      rfl
    | @cons w xs stack xss hm hrest =>
      have ⟨hw, hstack⟩ := List.forall_mem_cons.mp hfits
      have hlongest := longestBlock_isLongest hw
      have hextended := extend_extended hw hlongest.candidate
      have hcost : pending (w :: stack) = 2 * (w.ahi - w.alo) + 1 + pending stack := by simp [pending]
      rw [hcost] at hfuel
      rw [List.map_cons, List.sum_cons] at hsum
      have hunder : Stacked a b stack (xss.map total).sum := ⟨hstack, xss, hrest, rfl⟩
      rw [matchLoop]
      cases hm with
      | none hlongest' hextended' hempty =>
        have hsame := hlongest.unique hlongest'
        subst hsame
        have hsame := hextended.unique hextended'
        subst hsame
        simp only [if_pos hempty]
        rw [ih hunder (by omega)]
        have hzero : total [] = 0 := rfl
        rw [hzero] at hsum
        exact congrArg some (by omega)
      | @some _ x y before behind hlongest' hextended' hnonempty hleft hright =>
        have hsame := hlongest.unique hlongest'
        subst hsame
        have hsame := hextended.unique hextended'
        rw [hsame]
        have hinside := hextended'.inside
        have ⟨h1, h2, h3, h4⟩ := hinside
        have hsize : y.size ≠ 0 := by omega
        have ⟨hone, hcost1⟩ := hunder.push (hw.left hinside) hleft (w.alo < y.i ∧ w.blo < y.j) Iff.rfl
        have ⟨htwo, hcost2⟩ := hone.push (hw.right hinside) hright
          (y.i + y.size < w.ahi ∧ y.j + y.size < w.bhi) Iff.rfl
        simp only [Region.left, Region.right] at hcost1 hcost2
        rw [total_append] at hsum
        simp only [if_neg hsize]
        rw [ih htwo (by simp only [Region.left, Region.right]; omega)]
        exact congrArg some (by omega)

theorem matched_eq (a b : Text) : matched a b = some (total (Py.matchingBlocks a b)) := by
  have hstacked : Stacked a b [whole a b] (total (Py.matchingBlocks a b)) :=
    ⟨List.forall_mem_singleton.mpr (fits_whole a b), [_], .cons (matchingBlocks_matching a b) .nil, by simp⟩
  have hfuel : pending [whole a b] ≤ 2 * a.length + 1 := by simp [pending, whole]
  have hloop := matchLoop_eq (n := 0) hstacked hfuel
  rw [Nat.zero_add] at hloop
  exact hloop

theorem placeNameSimilarity_eq (u : NameTables) (left right : Text) :
    placeNameSimilarity u left right = some (
      if (normalizePlaceName u left).isEmpty || (normalizePlaceName u right).isEmpty then 0
      else if normalizePlaceName u left = normalizePlaceName u right then 1
      else Py.ratio (normalizePlaceName u left) (normalizePlaceName u right)) := by
  simp only [placeNameSimilarity, matched_eq]
  split
  · rfl
  · split <;> rfl

theorem sequenceRatio_eq (u : NameTables) (left right : Text) :
    sequenceRatio u left right = some (
      if (normalizeName u left).isEmpty || (normalizeName u right).isEmpty then 0
      else Py.ratio (normalizeName u left) (normalizeName u right)) := by
  simp only [sequenceRatio, matched_eq]
  split <;> rfl

/-- Both Go functions count the blocks of the standard library, and their stack empties. The blocks are the
only ones that the documentation describes, they follow one another in both texts, and the ratio lies between
0 and 1. -/
theorem matching_total (a b : Text) :
    Matching (plain a b) (same a b) (whole a b) (Py.matchingBlocks a b) ∧
      (∀ blocks, Matching (plain a b) (same a b) (whole a b) blocks → blocks = Py.matchingBlocks a b) ∧
      matched a b = some (total (Py.matchingBlocks a b)) ∧
      (∀ u left right, normalizePlaceName u left = a → normalizePlaceName u right = b →
        placeNameSimilarity u left right =
          some (if a.isEmpty || b.isEmpty then 0 else if a = b then 1 else Py.ratio a b)) ∧
      (∀ u left right, normalizeName u left = a → normalizeName u right = b →
        sequenceRatio u left right = some (if a.isEmpty || b.isEmpty then 0 else Py.ratio a b)) ∧
      (Py.matchingBlocks a b).Pairwise Block.Before ∧
      (∀ x ∈ Py.matchingBlocks a b, x.Inside (whole a b) ∧ 0 < x.size ∧
        ∀ d < x.size, same a b (x.i + d) (x.j + d)) ∧
      0 ≤ Py.ratio a b ∧ Py.ratio a b ≤ 1 := by
  have hm := matchingBlocks_matching a b
  refine ⟨hm, fun blocks h => h.unique hm, matched_eq a b, ?_, ?_, hm.ordered, hm.inside, ?_, ?_⟩
  · rintro u left right rfl rfl
    exact placeNameSimilarity_eq u left right
  · rintro u left right rfl rfl
    exact sequenceRatio_eq u left right
  · unfold Py.ratio quotient
    positivity
  · have ⟨ha, hb⟩ := hm.total_le
    simp only [whole] at ha hb
    unfold Py.ratio quotient
    apply div_le_one_of_le₀
    · have hle : 2 * total (Py.matchingBlocks a b) ≤ a.length + b.length := by omega
      exact_mod_cast hle
    · positivity

end SocialActivities.Places
