import Mathlib.Data.Set.Card
import SocialActivities.Lib.Ranked

/-!
# `SocialActivities.Lib.Occurrences`: a bounded view of a recurring event

An event occurs at the instants of a set, of which a program generates an initial part in increasing
order (`Initial`). `recordAll` goes through it and keeps what lies in a window, until the window, an end
date, a number of occurrences or a number of results is exceeded.

`Expands` is what the result should be: occurrences of the window in increasing order, none left out
that was reached, unless the result is full. `expands_of_initial` says that `recordAll` gives it, and
`expands_of_suffix` that a program may start later, as long as it counts what it leaves out.
-/

namespace SocialActivities.Lib

variable {α : Type} [LinearOrder α]

/-- The bounds of a view. -/
structure Window (α : Type) where
  floor : α
  horizon : α
  until_ : Option α
  count : Option Nat
  cap : Nat
  cap_pos : 0 < cap

/-- The occurrences so far, and those in the window. -/
structure Recorder (α : Type) where
  seen : Nat
  out : List α

namespace Window

variable (w : Window α)

/-- One occurrence, and whether to go on. -/
def record (r : Recorder α) (x : α) : Recorder α × Bool :=
  if w.count.any (fun c => decide (c < r.seen + 1)) || w.until_.any (fun u => decide (u < x)) ||
      decide (w.horizon < x) then (⟨r.seen + 1, r.out⟩, false)
  else
    let out := if w.floor ≤ x then r.out ++ [x] else r.out
    (⟨r.seen + 1, out⟩, decide (out.length < w.cap))

/-- One occurrence after the other, until `record` stops, and whether it has not. -/
def recordAll (r : Recorder α) : List α → Recorder α × Bool
  | [] => (r, true)
  | x :: xs =>
    match w.record r x with
    | (r, true) => recordAll r xs
    | (r, false) => (r, false)

/-- The instant is in the window, and not after the end. -/
def admits (x : α) : Bool :=
  decide (w.floor ≤ x) && decide (x ≤ w.horizon) && w.until_.all fun u => decide (x ≤ u)

/-- The first occurrences of a list, up to the number that is left after `n`. -/
def counted (n : Nat) (xs : List α) : List α := w.count.elim xs fun c => xs.take (c - n)

end Window

variable {w : Window α}

theorem Window.recordAll_append (r : Recorder α) (xs ys : List α) :
    w.recordAll r (xs ++ ys) =
      if (w.recordAll r xs).2 then w.recordAll (w.recordAll r xs).1 ys else w.recordAll r xs := by
  induction xs generalizing r with
  | nil => rfl
  | cons x xs ih =>
    rw [List.cons_append, Window.recordAll, Window.recordAll]
    cases hrecord : w.record r x with
    | mk r' go =>
      cases go with
      | true => exact ih r'
      | false => rfl

theorem Window.out_of_horizon_lt {r : Recorder α} {xs : List α} (h : ∀ x ∈ xs, w.horizon < x) :
    (w.recordAll r xs).1.out = r.out := by
  cases xs with
  | nil => rfl
  | cons x =>
    have hx : decide (w.horizon < x) = true := decide_eq_true (h x List.mem_cons_self)
    rw [Window.recordAll, Window.record, hx, Bool.or_true, if_pos rfl]

theorem Window.le_horizon {r r' : Recorder α} {x : α} (h : w.record r x = (r', true)) : x ≤ w.horizon := by
  by_contra hlate
  rw [Window.record, decide_eq_true (not_le.mp hlate), Bool.or_true, if_pos rfl] at h
  cases h

theorem Window.out_of_counted {r : Recorder α} (h : w.count.any (fun c => decide (c ≤ r.seen)) = true)
    (xs : List α) : (w.recordAll r xs).1.out = r.out := by
  cases xs with
  | nil => rfl
  | cons =>
    have hcount : w.count.any (fun c => decide (c < r.seen + 1)) = true := by
      simpa only [Nat.lt_succ_iff] using h
    rw [Window.recordAll, Window.record, hcount, Bool.true_or, Bool.true_or, if_pos rfl]

omit [LinearOrder α] in
theorem Window.mem_of_mem_counted {n : Nat} {xs : List α} {x : α} (h : x ∈ w.counted n xs) : x ∈ xs := by
  unfold Window.counted at h
  cases hcount : w.count with
  | none =>
    rw [hcount] at h
    exact h
  | some =>
    rw [hcount] at h
    exact List.mem_of_mem_take h

theorem Window.not_admits {x y : α} (h : w.until_.any (fun u => decide (u < x)) = true ∨ w.horizon < x)
    (hxy : x ≤ y) : ¬w.admits y = true := by
  unfold Window.admits
  rw [Bool.and_eq_true, Bool.and_eq_true, decide_eq_true_eq, decide_eq_true_eq]
  rintro ⟨⟨_, hhorizon⟩, huntil⟩
  rcases h with hend | hlate
  · have ⟨u, hu, hlt⟩ := (Option.any_eq_true _ _).mp hend
    rw [hu] at huntil
    exact absurd (of_decide_eq_true huntil) (not_le.mpr ((of_decide_eq_true hlt).trans_le hxy))
  · exact absurd hhorizon (not_le.mpr (hlate.trans_le hxy))

theorem Window.nothing_left {n : Nat} {x : α} {xs : List α} (hlt : ∀ y ∈ xs, x < y)
    (hstop : (w.count.any (fun c => decide (c < n + 1)) || w.until_.any (fun u => decide (u < x)) ||
      decide (w.horizon < x)) = true) : (w.counted n (x :: xs)).filter w.admits = [] := by
  rw [Bool.or_eq_true, Bool.or_eq_true, decide_eq_true_eq] at hstop
  have hlate : (w.until_.any (fun u => decide (u < x)) = true ∨ w.horizon < x) →
      (w.counted n (x :: xs)).filter w.admits = [] := by
    intro hlate
    refine List.filter_eq_nil_iff.mpr fun y hy => Window.not_admits hlate ?_
    rcases List.mem_cons.mp (Window.mem_of_mem_counted hy) with rfl | hy
    · exact le_refl _
    · exact (hlt y hy).le
  rcases hstop with (hcount | hend) | hlater
  · have ⟨c, hc, hle⟩ := (Option.any_eq_true _ _).mp hcount
    unfold Window.counted
    rw [hc]
    have hzero : c - n = 0 := by
      have := of_decide_eq_true hle
      omega
    show ((x :: xs).take (c - n)).filter w.admits = []
    rw [hzero]
    rfl
  · exact hlate (Or.inl hend)
  · exact hlate (Or.inr hlater)

theorem Window.goes_on {n : Nat} {x : α} {xs : List α}
    (hstop : ¬(w.count.any (fun c => decide (c < n + 1)) || w.until_.any (fun u => decide (u < x)) ||
      decide (w.horizon < x)) = true) :
    w.counted n (x :: xs) = x :: w.counted (n + 1) xs ∧ w.admits x = decide (w.floor ≤ x) := by
  rw [Bool.or_eq_true, Bool.or_eq_true, decide_eq_true_eq, not_or, not_or] at hstop
  have ⟨⟨hcount, hend⟩, hhorizon⟩ := hstop
  constructor
  · unfold Window.counted
    cases hc : w.count with
    | none => rfl
    | some c =>
      rw [hc] at hcount
      have hlt : n < c := by
        by_contra hge
        exact hcount (decide_eq_true (by omega))
      show (x :: xs).take (c - n) = x :: xs.take (c - (n + 1))
      rw [show c - n = (c - (n + 1)) + 1 by omega, List.take_succ_cons]
  · unfold Window.admits
    rw [decide_eq_true (not_lt.mp hhorizon), Bool.and_true]
    cases hu : w.until_ with
    | none => rw [Option.all_none, Bool.and_true]
    | some u =>
      rw [hu] at hend
      have hle : x ≤ u := by
        by_contra hgt
        exact hend (decide_eq_true (not_le.mp hgt))
      rw [Option.all_some, decide_eq_true hle, Bool.and_true]

theorem Window.out_recordAll {xs : List α} (hsorted : xs.Pairwise (· < ·)) (r : Recorder α)
    (hroom : r.out.length < w.cap) :
    (w.recordAll r xs).1.out =
      r.out ++ ((w.counted r.seen xs).filter w.admits).take (w.cap - r.out.length) := by
  induction xs generalizing r with
  | nil =>
    have hnil : w.counted r.seen ([] : List α) = [] :=
      List.eq_nil_iff_forall_not_mem.mpr fun x hx => List.not_mem_nil (Window.mem_of_mem_counted hx)
    rw [hnil, List.filter_nil, List.take_nil, List.append_nil]
    rfl
  | cons x xs ih =>
    have ⟨hlt, hrest⟩ := List.pairwise_cons.mp hsorted
    by_cases hstop : (w.count.any (fun c => decide (c < r.seen + 1)) ||
        w.until_.any (fun u => decide (u < x)) || decide (w.horizon < x)) = true
    · rw [Window.recordAll, Window.record, if_pos hstop, Window.nothing_left hlt hstop, List.take_nil,
        List.append_nil]
    · have ⟨hcounted, hadmits⟩ := @Window.goes_on _ _ w _ _ xs hstop
      rw [Window.recordAll, Window.record, if_neg hstop, hcounted, List.filter_cons, hadmits]
      by_cases hfloor : w.floor ≤ x
      · rw [if_pos hfloor, if_pos (decide_eq_true hfloor)]
        have hlength : (r.out ++ [x]).length = r.out.length + 1 := by
          rw [List.length_append, List.length_singleton]
        dsimp only
        by_cases hfull : (r.out ++ [x]).length < w.cap
        · rw [decide_eq_true hfull]
          show (w.recordAll ⟨r.seen + 1, r.out ++ [x]⟩ xs).1.out = _
          rw [ih hrest ⟨r.seen + 1, r.out ++ [x]⟩ hfull, hlength, List.append_assoc]
          rw [show w.cap - r.out.length = (w.cap - (r.out.length + 1)) + 1 by omega, List.take_succ_cons]
          rfl
        · rw [decide_eq_false hfull]
          rw [show w.cap - r.out.length = 0 + 1 by omega, List.take_succ_cons, List.take_zero]
      · rw [if_neg hfloor, if_neg (by simpa using hfloor)]
        dsimp only
        rw [decide_eq_true hroom]
        exact ih hrest ⟨r.seen + 1, r.out⟩ hroom

/-! ### Occurrences -/

/-- The number of occurrences before an instant. -/
noncomputable def rank (occurs : α → Prop) (x : α) : ℕ∞ := Set.encard {u | occurs u ∧ u < x}

/-- The first occurrences, in increasing order. -/
structure Initial (occurs : α → Prop) (xs : List α) : Prop where
  sorted : xs.Pairwise (· < ·)
  sound : ∀ x ∈ xs, occurs x
  closed : ∀ x ∈ xs, ∀ u, occurs u → u < x → u ∈ xs

variable {occurs : α → Prop}

theorem initial_of_strictMono {f : Nat → α} (hf : StrictMono f) (n : Nat) :
    Initial (fun x => ∃ k, x = f k) ((List.range n).map f) := by
  constructor
  · exact List.pairwise_map.mpr (List.pairwise_lt_range.imp fun h => hf h)
  · intro x hx
    have ⟨k, _, hk⟩ := List.mem_map.mp hx
    exact ⟨k, hk.symm⟩
  · intro x hx u hu hlt
    have ⟨k, hk, hx⟩ := List.mem_map.mp hx
    have ⟨j, hj⟩ := hu
    rw [← hx, hj] at hlt
    have hjk := hf.lt_iff_lt.mp hlt
    rw [List.mem_range] at hk
    exact List.mem_map.mpr ⟨j, List.mem_range.mpr (hjk.trans hk), hj.symm⟩

theorem Initial.nodup {xs : List α} (h : Initial occurs xs) : xs.Nodup :=
  h.sorted.imp fun hlt => ne_of_lt hlt

theorem Initial.rank_eq {xs : List α} (h : Initial occurs xs) {x : α} (hx : x ∈ xs) :
    rank occurs x = xs.countP fun u => decide (u < x) := by
  have hset : {u | occurs u ∧ u < x} = {u | u ∈ xs.filter fun u => decide (u < x)} := by
    ext u
    rw [Set.mem_ofPred_eq, Set.mem_ofPred_eq, List.mem_filter, decide_eq_true_eq]
    exact ⟨fun ⟨hu, hlt⟩ => ⟨h.closed x hx u hu hlt, hlt⟩, fun ⟨hu, hlt⟩ => ⟨h.sound u hu, hlt⟩⟩
  classical
  unfold rank
  rw [hset, ← List.coe_toFinset, Set.encard_coe_eq_coe_finsetCard,
    List.toFinset_card_of_nodup (h.nodup.filter _), List.countP_eq_length_filter]

theorem rank_mono {x y : α} (h : x ≤ y) : rank occurs x ≤ rank occurs y :=
  Set.encard_le_encard fun _ hu => ⟨hu.1, hu.2.trans_le h⟩

/-- The occurrence is one of those that the count allows. -/
def Window.counts (w : Window α) (occurs : α → Prop) (x : α) : Prop :=
  ∀ c, w.count = some c → rank occurs x < c

/-- The occurrences of the window, but for those that were not reached or for which there is no room. -/
structure Expands (occurs : α → Prop) (w : Window α) (reached : α → Prop) (out : List α) : Prop where
  increasing : out.Pairwise (· < ·)
  sound : ∀ x ∈ out, occurs x ∧ w.admits x = true ∧ w.counts occurs x
  bounded : out.length ≤ w.cap
  complete : ∀ x, occurs x → w.admits x = true → w.counts occurs x → reached x →
    x ∈ out ∨ out.length = w.cap ∧ ∀ u ∈ out, u < x

theorem Initial.mem_counted {xs : List α} (h : Initial occurs xs) {x : α} :
    x ∈ w.counted 0 xs ↔ x ∈ xs ∧ w.counts occurs x := by
  unfold Window.counted Window.counts
  cases w.count with
  | none => exact ⟨fun hx => ⟨hx, fun c hc => (by cases hc)⟩, fun hx => hx.1⟩
  | some c =>
    show x ∈ xs.take c ↔ _
    rw [@mem_take_iff _ _ _ id xs h.sorted c x]
    refine and_congr_right fun hx => ?_
    have hrank : rank occurs x < c ↔ (xs.countP fun u => decide (u < x)) < c := by
      rw [h.rank_eq hx, Nat.cast_lt]
    constructor
    · intro hlt d hd
      rw [← Option.some.inj hd]
      exact hrank.mpr hlt
    · exact fun hall => hrank.mp (hall c rfl)

theorem expands_of_suffix {pre xs : List α} (h : Initial occurs (pre ++ xs))
    (hpre : ∀ x ∈ pre, x < w.floor) :
    Expands occurs w (· ∈ pre ++ xs) (w.recordAll ⟨pre.length, []⟩ xs).1.out := by
  have hskip : (w.counted 0 (pre ++ xs)).filter w.admits =
      (w.counted pre.length xs).filter w.admits := by
    have hnone : ∀ ys : List α, (∀ y ∈ ys, y ∈ pre) → ys.filter w.admits = [] := by
      intro ys hys
      refine List.filter_eq_nil_iff.mpr fun y hy hadmits => ?_
      unfold Window.admits at hadmits
      rw [Bool.and_eq_true, Bool.and_eq_true, decide_eq_true_eq] at hadmits
      exact absurd hadmits.1.1 (not_le.mpr (hpre y (hys y hy)))
    unfold Window.counted
    cases w.count with
    | none =>
      show (pre ++ xs).filter _ = xs.filter _
      rw [List.filter_append, hnone pre fun _ hy => hy, List.nil_append]
    | some c =>
      show ((pre ++ xs).take c).filter _ = (xs.take (c - pre.length)).filter _
      rw [List.take_append, List.filter_append, hnone _ fun y hy => List.mem_of_mem_take hy,
        List.nil_append]
  have hout : (w.recordAll ⟨pre.length, []⟩ xs).1.out =
      ((w.counted 0 (pre ++ xs)).filter w.admits).take w.cap := by
    rw [Window.out_recordAll (List.pairwise_append.mp h.sorted).2.1 ⟨pre.length, []⟩ w.cap_pos, hskip]
    rfl
  have hsorted : ((w.counted 0 (pre ++ xs)).filter w.admits).Pairwise (· < ·) := by
    refine List.Pairwise.filter _ ?_
    unfold Window.counted
    cases w.count with
    | none => exact h.sorted
    | some => exact h.sorted.take
  rw [hout]
  constructor
  · exact hsorted.take
  · intro x hx
    have ⟨hmem, hadmits⟩ := List.mem_filter.mp (List.mem_of_mem_take hx)
    have ⟨hin, hcounts⟩ := h.mem_counted.mp hmem
    exact ⟨h.sound x hin, hadmits, hcounts⟩
  · exact List.length_take_le _ _
  · intro x _ hadmits hcounts hreached
    have hmem := List.mem_filter.mpr ⟨h.mem_counted.mpr ⟨hreached, hcounts⟩, hadmits⟩
    rw [← List.take_append_drop w.cap (List.filter _ _)] at hmem hsorted
    refine (List.mem_append.mp hmem).imp_right fun hdrop => ⟨?_, ?_⟩
    · rw [List.length_take, Nat.min_eq_left]
      have hpos := List.length_pos_of_mem hdrop
      rw [List.length_drop] at hpos
      omega
    · exact fun u hu => (List.pairwise_append.mp hsorted).2.2 u hu x hdrop

theorem expands_of_initial {xs : List α} (h : Initial occurs xs) :
    Expands occurs w (· ∈ xs) (w.recordAll ⟨0, []⟩ xs).1.out :=
  @expands_of_suffix _ _ w occurs [] xs h fun _ hx => absurd hx List.not_mem_nil

/-- Where the list has enough occurrences from the floor on to fill the result, nothing is left out for
not being reached. -/
theorem Expands.of_enough {xs out : List α} (h : Expands occurs w (· ∈ xs) out) (hinit : Initial occurs xs)
    (hmem : ∀ u ∈ out, u ∈ xs)
    (henough : w.cap ≤ (xs.filter fun u => decide (w.floor ≤ u)).length) :
    Expands occurs w (fun _ => True) out := by
  refine ⟨h.increasing, h.sound, h.bounded, fun x hx hadmits hcounts _ => ?_⟩
  by_cases hin : x ∈ xs
  · exact h.complete x hx hadmits hcounts hin
  · right
    have hbelow : ∀ u ∈ xs, u < x := by
      intro u hu
      by_contra hle
      rcases lt_or_eq_of_le (not_lt.mp hle) with hlt | heq
      · exact hin (hinit.closed u hu x hx hlt)
      · exact hin (heq ▸ hu)
    refine ⟨?_, fun u hu => hbelow u (hmem u hu)⟩
    by_contra hshort
    -- Every occurrence of the list from the floor on is in the result, which is too short for them.
    have hall : ∀ u ∈ xs.filter (fun u => decide (w.floor ≤ u)), u ∈ out := by
      intro u hu
      have ⟨humem, hfloor⟩ := List.mem_filter.mp hu
      have hlt := hbelow u humem
      refine (h.complete u (hinit.sound u humem) ?_ ?_ humem).resolve_right fun hfull => hshort hfull.1
      · unfold Window.admits at hadmits ⊢
        rw [Bool.and_eq_true, Bool.and_eq_true, decide_eq_true_eq, decide_eq_true_eq] at hadmits
        rw [hfloor, decide_eq_true (hlt.le.trans hadmits.1.2), Bool.true_and]
        cases hu : w.until_ with
        | none => rfl
        | some =>
          rw [hu] at hadmits
          exact decide_eq_true (hlt.le.trans (of_decide_eq_true hadmits.2))
      · exact fun c hc => (rank_mono hlt.le).trans_lt (hcounts c hc)
    have hle := (List.subperm_of_subset (hinit.nodup.filter _) hall).length_le
    have hbound := h.bounded
    omega

theorem Window.mem_of_mem_recordAll {n : Nat} {xs : List α} (hsorted : xs.Pairwise (· < ·)) {u : α}
    (hu : u ∈ (w.recordAll ⟨n, []⟩ xs).1.out) : u ∈ xs := by
  rw [Window.out_recordAll hsorted ⟨n, []⟩ w.cap_pos, List.nil_append] at hu
  exact Window.mem_of_mem_counted (List.mem_filter.mp (List.mem_of_mem_take hu)).1

theorem Expands.mono {R R' : α → Prop} {out : List α} (h : Expands occurs w R out)
    (hreached : ∀ x, occurs x → R' x → R x) : Expands occurs w R' out :=
  ⟨h.increasing, h.sound, h.bounded, fun x hx hadmits hcounts hR =>
    h.complete x hx hadmits hcounts (hreached x hx hR)⟩

theorem expands_of_steps {f : Nat → α} (hf : StrictMono f) {s n : Nat}
    (hbefore : ∀ k, k < s → f k < w.floor) (hafter : ∀ k, s < k → w.floor ≤ f k) (hn : w.cap < n) :
    Expands (fun x => ∃ k, x = f k) w (fun _ => True)
      (w.recordAll ⟨s, []⟩ ((List.range n).map fun i => f (s + i))).1.out := by
  have hsplit : ∀ a b, (List.range (a + b)).map f =
      (List.range a).map f ++ (List.range b).map fun i => f (a + i) := by
    intro a b
    rw [List.range_add, List.map_append, List.map_map]
    rfl
  have hinit := initial_of_strictMono hf (s + n)
  have hsorted := hinit.sorted
  have hpre : ∀ x ∈ (List.range s).map f, x < w.floor := by
    intro x hx
    have ⟨k, hk, hfk⟩ := List.mem_map.mp hx
    rw [← hfk]
    exact hbefore k (List.mem_range.mp hk)
  have hexpands : Expands (fun x => ∃ k, x = f k) w (· ∈ (List.range (s + n)).map f)
      (w.recordAll ⟨s, []⟩ ((List.range n).map fun i => f (s + i))).1.out := by
    have hsuffix := expands_of_suffix (w := w) (hsplit s n ▸ hinit) hpre
    rw [List.length_map, List.length_range] at hsuffix
    rw [hsplit s n]
    exact hsuffix
  refine hexpands.of_enough hinit (fun u hu => ?_) ?_
  · rw [hsplit s n] at hsorted ⊢
    exact List.mem_append_right _ (Window.mem_of_mem_recordAll (List.pairwise_append.mp hsorted).2.1 hu)
  · -- From the next step on all are in view.
    rw [show s + n = (s + 1) + (n - 1) by omega, hsplit, List.filter_append, List.length_append]
    have hall : ((List.range (n - 1)).map fun i => f (s + 1 + i)).filter
        (fun u => decide (w.floor ≤ u)) = (List.range (n - 1)).map fun i => f (s + 1 + i) := by
      refine List.filter_eq_self.mpr fun x hx => ?_
      have ⟨i, _, hi⟩ := List.mem_map.mp hx
      rw [← hi]
      exact decide_eq_true (hafter _ (by omega))
    rw [hall, List.length_map, List.length_range]
    omega

theorem initial_of_blocks {block : Nat → List α} (hsorted : ∀ m, (block m).Pairwise (· < ·))
    (hblocks : ∀ m n, m < n → ∀ x ∈ block m, ∀ y ∈ block n, x < y) (n : Nat) :
    Initial (fun x => ∃ m, x ∈ block m) ((List.range n).flatMap block) := by
  constructor
  · rw [List.pairwise_flatMap]
    exact ⟨fun m _ => hsorted m, List.pairwise_lt_range.imp fun {m n} hmn => hblocks m n hmn⟩
  · intro x hx
    have ⟨m, _, hm⟩ := List.mem_flatMap.mp hx
    exact ⟨m, hm⟩
  · intro x hx u ⟨m, hm⟩ hlt
    have ⟨k, hk, hxk⟩ := List.mem_flatMap.mp hx
    rw [List.mem_range] at hk
    refine List.mem_flatMap.mpr ⟨m, List.mem_range.mpr ?_, hm⟩
    by_contra hge
    exact lt_asymm hlt (hblocks k m (by omega) x hxk u hm)

end SocialActivities.Lib
