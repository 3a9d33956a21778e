import Mathlib.Data.List.Basic
import Mathlib.Data.List.GetD
import Mathlib.Data.List.TakeWhile
import Mathlib.Algebra.Order.Ring.Int

/-!
# `SocialActivities.Lib.Transitions`: local time over a list of offset changes

A zone is an offset and a list of changes: from an instant on, another offset holds. All offsets are
below a day. The local time of an instant is the instant and its offset. Around a change some local
times are shown twice (a fold) or never (a gap), so a local time has no instant of its own, and
libraries resolve it in different ways:

- `resolveTwice` reads the local time as an instant, takes the offset there, and checks it against
  the period of that offset (Go's `time.Date`);
- `resolveFold` compares the local time with the changes in local time, which are sorted into a list
  for each `fold` and searched by bisection (Python's `zoneinfo`).

`exists_view` is the view of a zone from a local time with at most one change within a day: one
offset, the change, and another offset. `resolve_agree` is what follows outside gaps.
-/

namespace SocialActivities.Lib.Transitions

/-- The microseconds of a day. -/
def day : Int := 24 * 60 * 60 * 10 ^ 6

/-! ### Bisection -/

/-- `bisect_right` between two positions: the first position whose element is greater. -/
def bisectRight (xs : List Int) (x : Int) : Nat → Nat → Nat → Nat
  | 0, low, _ => low
  | fuel + 1, low, high =>
    if low < high then
      let mid := (low + high) / 2
      if x < xs.getD mid 0 then bisectRight xs x fuel low mid
      else bisectRight xs x fuel (mid + 1) high
    else low

theorem bisectRight_eq {xs : List Int} {x : Int} {k : Nat} (hle : ∀ i, i < k → xs.getD i 0 ≤ x)
    (hlt : ∀ i, k ≤ i → i < xs.length → x < xs.getD i 0) (fuel low high : Nat) (hlow : low ≤ k)
    (hhigh : k ≤ high) (hlength : high ≤ xs.length) (hfuel : high - low ≤ fuel) :
    bisectRight xs x fuel low high = k := by
  induction fuel generalizing low high with
  | zero =>
    show low = k
    omega
  | succ fuel ih =>
    simp only [bisectRight]
    split
    · split
      · rename_i hsearch hgreater
        have hmid : k ≤ (low + high) / 2 := by
          by_contra hnot
          have hless := hle ((low + high) / 2) (by omega)
          omega
        exact ih low _ hlow hmid (by omega) (by omega)
      · rename_i hsearch hgreater
        have hmid : (low + high) / 2 < k := by
          by_contra hnot
          exact hgreater (hlt ((low + high) / 2) (by omega) (by omega))
        exact ih _ high (by omega) hhigh hlength (by omega)
    · omega

/-! ### Zones -/

/-- A change of the offset, with the offset before it. -/
structure Change where
  instant : Int
  before : Int
  after : Int
  deriving DecidableEq

/-- The last offset of a list of changes. -/
def lastOffset (first : Int) (changes : List (Int × Int)) : Int :=
  changes.foldl (fun _ c => c.2) first

/-- The changes with the offsets before them. -/
def withBefore : Int → List (Int × Int) → List Change
  | _, [] => []
  | before, (instant, after) :: rest => ⟨instant, before, after⟩ :: withBefore after rest

/-- A time zone: the offset at first, and the changes in their order. -/
structure Zone where
  first : Int
  transitions : List (Int × Int)
  sorted : transitions.Pairwise fun a b => a.1 < b.1
  first_lt : -day < first ∧ first < day
  offset_lt : ∀ c ∈ transitions, -day < c.2 ∧ c.2 < day

namespace Zone

variable (z : Zone)

def changes : List Change := withBefore z.first z.transitions

/-- The offset at an instant: that of the last change up to it. -/
def offsetAt (t : Int) : Int := lastOffset z.first (z.transitions.takeWhile fun c => c.1 ≤ t)

/-- The local time of an instant. -/
def wall (t : Int) : Int := t + z.offsetAt t

/-- An offset with the instants between which it holds. -/
structure Period where
  offset : Int
  start : Option Int
  stop : Option Int

/-- The period of an instant. -/
def lookup (t : Int) : Period :=
  let past := z.transitions.takeWhile fun c => c.1 ≤ t
  let coming := z.transitions.dropWhile fun c => c.1 ≤ t
  ⟨lastOffset z.first past, past.getLast?.map Prod.fst, coming.head?.map Prod.fst⟩

/-- The instant of a local time: the offset at the local time read as an instant, and if it does not
hold at the result, the offset that does. -/
def resolveTwice (w : Int) : Int :=
  let p := z.lookup w
  if p.offset = 0 then w
  else
    let utc := w - p.offset
    if p.start.any (fun start => decide (utc < start)) || p.stop.any (fun stop => decide (stop ≤ utc))
    then w - (z.lookup utc).offset
    else utc

/-- A change in local time: by the greater of its offsets, in a fold's second pass by the smaller. -/
def localTime (fold : Bool) (c : Change) : Int :=
  c.instant + if fold then min c.before c.after else max c.before c.after

/-- The number of changes before a local time. -/
def changesBefore (fold : Bool) (w : Int) : Nat :=
  let times := z.changes.map (localTime fold)
  if times.head?.any fun first => decide (w < first) then 0
  else if times.getLast?.all fun last => decide (last < w) then times.length
  else bisectRight times w times.length 0 times.length

/-- The instant of a local time, in the pass that `fold` says. -/
def resolveFold (fold : Bool) (w : Int) : Int :=
  w - lastOffset z.first (z.transitions.take (z.changesBefore fold w))

/-- The local time of the instant is shown for the second time. -/
def foldAt (t : Int) : Bool :=
  (z.changes.takeWhile fun c => c.instant ≤ t).getLast?.any fun c =>
    decide (t - c.instant < c.before - c.after)

end Zone

section

variable {z : Zone} {w t : Int}

/-! ### Lists of changes -/

theorem lastOffset_append (first : Int) (l l' : List (Int × Int)) :
    lastOffset first (l ++ l') = lastOffset (lastOffset first l) l' := List.foldl_append ..

theorem withBefore_append (before : Int) (l l' : List (Int × Int)) :
    withBefore before (l ++ l') = withBefore before l ++ withBefore (lastOffset before l) l' := by
  induction l generalizing before with
  | nil => rfl
  | cons c l ih => simp only [List.cons_append, withBefore, ih, lastOffset, List.foldl_cons]

@[simp] theorem length_withBefore (before : Int) (l : List (Int × Int)) :
    (withBefore before l).length = l.length := by
  induction l generalizing before with
  | nil => rfl
  | cons c l ih => simp only [withBefore, List.length_cons, ih]

theorem lastOffset_lt {first : Int} {l : List (Int × Int)} (hfirst : -day < first ∧ first < day)
    (h : ∀ c ∈ l, -day < c.2 ∧ c.2 < day) : -day < lastOffset first l ∧ lastOffset first l < day := by
  induction l generalizing first with
  | nil => exact hfirst
  | cons c l ih =>
    rw [List.forall_mem_cons] at h
    exact ih h.1 h.2

theorem mem_withBefore {before : Int} {l : List (Int × Int)} {c : Change}
    (hbefore : -day < before ∧ before < day) (h : ∀ c ∈ l, -day < c.2 ∧ c.2 < day)
    (hc : c ∈ withBefore before l) :
    (c.instant, c.after) ∈ l ∧ (-day < c.before ∧ c.before < day) ∧
      -day < c.after ∧ c.after < day := by
  induction l generalizing before with
  | nil => cases hc
  | cons d l ih =>
    rw [List.forall_mem_cons] at h
    rcases List.mem_cons.mp hc with rfl | hc
    · exact ⟨List.mem_cons_self .., hbefore, h.1⟩
    · obtain ⟨hmem, hbounds⟩ := ih h.1 h.2 hc
      exact ⟨List.mem_cons_of_mem d hmem, hbounds⟩

theorem takeWhile_split {past coming : List (Int × Int)} (hpast : ∀ c ∈ past, c.1 ≤ t)
    (hcoming : ∀ c ∈ coming, t < c.1) :
    (past ++ coming).takeWhile (fun c => c.1 ≤ t) = past := by
  rw [List.takeWhile_append_of_pos fun c hc => decide_eq_true (hpast c hc)]
  cases coming with
  | nil => simp
  | cons d =>
    have hlater := hcoming d (List.mem_cons_self ..)
    rw [List.takeWhile_cons_of_neg (by simpa using hlater), List.append_nil]

namespace Zone

theorem offsetAt_split {past coming : List (Int × Int)} (h : z.transitions = past ++ coming)
    (hpast : ∀ c ∈ past, c.1 ≤ t) (hcoming : ∀ c ∈ coming, t < c.1) :
    z.offsetAt t = lastOffset z.first past := by
  rw [offsetAt, h, takeWhile_split hpast hcoming]

theorem split_at (z : Zone) (t : Int) :
    ∃ past coming, z.transitions = past ++ coming ∧ (∀ c ∈ past, c.1 ≤ t) ∧ (∀ c ∈ coming, t < c.1) ∧
      past = z.transitions.takeWhile (fun c => c.1 ≤ t) ∧
      coming = z.transitions.dropWhile (fun c => c.1 ≤ t) := by
  refine ⟨_, _, List.takeWhile_append_dropWhile.symm, ?_, ?_, rfl, rfl⟩
  · intro c hc
    exact of_decide_eq_true (List.all_eq_true.mp List.all_takeWhile c hc)
  · -- The first of them is later, and the list is sorted.
    have hsorted := z.sorted.sublist (List.dropWhile_sublist fun c => decide (c.1 ≤ t))
    cases hdrop : z.transitions.dropWhile fun c => decide (c.1 ≤ t) with
    | nil =>
      intro c hc
      cases hc
    | cons d rest =>
      have hne : z.transitions.dropWhile (fun c => decide (c.1 ≤ t)) ≠ [] := by
        rw [hdrop]
        exact List.cons_ne_nil d rest
      have hnot := List.head_dropWhile_not (fun c : Int × Int => decide (c.1 ≤ t)) hne
      simp only [hdrop, List.head_cons, decide_eq_false_iff_not] at hnot
      rw [hdrop] at hsorted
      intro c hc
      rcases List.mem_cons.mp hc with rfl | hc
      · omega
      · have hlt := List.rel_of_pairwise_cons hsorted hc
        omega

theorem offset_bounds (z : Zone) (t : Int) : -day < z.offsetAt t ∧ z.offsetAt t < day :=
  lastOffset_lt z.first_lt fun c hc => z.offset_lt c ((List.takeWhile_sublist _).subset hc)

/-! ### Two lookups -/

theorem offsetAt_of_period {s : Int}
    (hstart : ((z.lookup t).start.any fun start => decide (s < start)) = false)
    (hstop : ((z.lookup t).stop.any fun stop => decide (stop ≤ s)) = false) :
    z.offsetAt s = (z.lookup t).offset := by
  obtain ⟨past, coming, hsplit, hpast, hcoming, rfl, rfl⟩ := z.split_at t
  refine offsetAt_split hsplit ?_ ?_
  · -- Every change of the past is at most the last one, where the period starts.
    intro c hc
    obtain ⟨front, last, hlast⟩ := List.eq_nil_or_concat'
      (z.transitions.takeWhile fun c => c.1 ≤ t) |>.resolve_left (List.ne_nil_of_mem hc)
    have hsorted := z.sorted.sublist (List.takeWhile_sublist fun c => decide (c.1 ≤ t))
    simp [lookup, hlast] at hstart
    rw [hlast] at hc hsorted
    have hle : c.1 ≤ last.1 := by
      rcases List.mem_append.mp hc with hc | hc
      · have hlt := (List.pairwise_append.mp hsorted).2.2 c hc last (List.mem_singleton_self last)
        omega
      · rw [List.mem_singleton.mp hc]
    omega
  · intro c hc
    have hsorted := z.sorted.sublist (List.dropWhile_sublist fun c => decide (c.1 ≤ t))
    cases hdrop : z.transitions.dropWhile fun c => decide (c.1 ≤ t) with
    | nil =>
      rw [hdrop] at hc
      cases hc
    | cons d rest =>
      simp only [lookup, hdrop, List.head?_cons, Option.map_some, Option.any_some,
        decide_eq_false_iff_not] at hstop
      rw [hdrop] at hc hsorted
      rcases List.mem_cons.mp hc with rfl | hc
      · omega
      · have hlt := List.rel_of_pairwise_cons hsorted hc
        omega

theorem resolveTwice_eq (z : Zone) (w : Int) :
    z.resolveTwice w = w - z.offsetAt (w - z.offsetAt w) := by
  have hlookup : ∀ s, (z.lookup s).offset = z.offsetAt s := fun _ => rfl
  simp only [resolveTwice, hlookup]
  split
  · rename_i hzero
    rw [hzero, Int.sub_zero, hzero, Int.sub_zero]
  · split
    · rfl
    · rename_i hperiod
      rw [Bool.not_eq_true, Bool.or_eq_false_iff] at hperiod
      rw [offsetAt_of_period hperiod.1 hperiod.2, hlookup]

/-! ### The bisection -/

variable {fold : Bool}

theorem localTime_bounds {c : Change} (hbefore : -day < c.before ∧ c.before < day)
    (hafter : -day < c.after ∧ c.after < day) :
    c.instant - day < localTime fold c ∧ localTime fold c < c.instant + day := by
  cases fold <;> simp only [localTime] <;> constructor <;> split <;> omega

theorem changesBefore_eq {past coming : List Change} (h : z.changes = past ++ coming)
    (hpast : ∀ c ∈ past, localTime fold c ≤ w) (hcoming : ∀ c ∈ coming, w < localTime fold c) :
    z.changesBefore fold w = past.length := by
  have htimes : z.changes.map (localTime fold) =
      past.map (localTime fold) ++ coming.map (localTime fold) := by rw [h, List.map_append]
  simp only [changesBefore, htimes]
  split
  · rename_i hfirst
    -- The first change is still to come, so there is no earlier one.
    cases past with
    | nil => rfl
    | cons c past =>
      simp only [List.map_cons, List.cons_append, List.head?_cons, Option.any_some,
        decide_eq_true_eq] at hfirst
      have hle := hpast c (List.mem_cons_self ..)
      omega
  · split
    · rename_i hlast
      rcases List.eq_nil_or_concat' coming with rfl | ⟨front, last, rfl⟩
      · simp
      · simp [List.getLast?_append] at hlast
        have hlt := hcoming last (by simp)
        omega
    · refine bisectRight_eq ?_ ?_ _ 0 _ (Nat.zero_le _) (by simp) (Nat.le_refl _) (by omega)
      · intro i hi
        rw [List.getD_append _ _ _ _ (by simpa using hi), List.getD_eq_getElem _ _ (by simpa using hi),
          List.getElem_map]
        exact hpast _ (List.getElem_mem _)
      · intro i hle hlt
        rw [List.length_append, List.length_map, List.length_map] at hlt
        rw [List.getD_append_right _ _ _ _ (by simpa using hle), List.length_map,
          List.getD_eq_getElem _ _ (by simp; omega), List.getElem_map]
        exact hcoming _ (List.getElem_mem _)

theorem resolveFold_split {past coming : List (Int × Int)} (h : z.transitions = past ++ coming)
    (hpast : ∀ c ∈ withBefore z.first past, localTime fold c ≤ w)
    (hcoming : ∀ c ∈ withBefore (lastOffset z.first past) coming, w < localTime fold c) :
    z.resolveFold fold w = w - lastOffset z.first past := by
  have hchanges : z.changes = withBefore z.first past ++
      withBefore (lastOffset z.first past) coming := by rw [changes, h, withBefore_append]
  rw [resolveFold, changesBefore_eq hchanges hpast hcoming, length_withBefore, h, List.take_left]

/-! ### A local time with one change around it -/

/-- At most one change within a day of a local time. -/
def Quiet (z : Zone) (w : Int) : Prop :=
  (z.transitions.filter fun c => decide (w - day < c.1) && decide (c.1 < w + day)).length ≤ 1

instance : Decidable (z.Quiet w) := inferInstanceAs (Decidable (_ ≤ _))

/-- The zone as it looks from a local time: an offset, a change, and another offset. -/
structure View (z : Zone) (w : Int) (c : Change) : Prop where
  before_lt : -day < c.before ∧ c.before < day
  after_lt : -day < c.after ∧ c.after < day
  offsetAt : ∀ t, w - day < t → t < w + day →
    z.offsetAt t = if t < c.instant then c.before else c.after
  resolveFold : ∀ fold,
    z.resolveFold fold w = w - if w < localTime fold c then c.before else c.after
  change : c ∈ z.changes ∨ c.before = c.after

theorem localTime_le_of_past {before : Int} {past : List (Int × Int)}
    (hbefore : -day < before ∧ before < day) (hoffsets : ∀ c ∈ past, -day < c.2 ∧ c.2 < day)
    (hpast : ∀ c ∈ past, c.1 ≤ w - day) : ∀ c ∈ withBefore before past, localTime fold c ≤ w := by
  intro c hc
  obtain ⟨hmem, hb, ha⟩ := mem_withBefore hbefore hoffsets hc
  have hle := hpast _ hmem
  have hbound := (@localTime_bounds fold c hb ha).2
  simp only at hle
  omega

theorem lt_localTime_of_coming {before : Int} {coming : List (Int × Int)}
    (hbefore : -day < before ∧ before < day) (hoffsets : ∀ c ∈ coming, -day < c.2 ∧ c.2 < day)
    (hcoming : ∀ c ∈ coming, w + day ≤ c.1) :
    ∀ c ∈ withBefore before coming, w < localTime fold c := by
  intro c hc
  obtain ⟨hmem, hb, ha⟩ := mem_withBefore hbefore hoffsets hc
  have hle := hcoming _ hmem
  have hbound := (@localTime_bounds fold c hb ha).1
  simp only at hle
  omega

theorem view_of_far {past coming : List (Int × Int)} (h : z.transitions = past ++ coming)
    (hpast : ∀ c ∈ past, c.1 ≤ w - day) (hcoming : ∀ c ∈ coming, w + day ≤ c.1) :
    View z w ⟨w, lastOffset z.first past, lastOffset z.first past⟩ := by
  have hoffsets : ∀ c ∈ past ++ coming, -day < c.2 ∧ c.2 < day := h ▸ z.offset_lt
  have hbound := lastOffset_lt z.first_lt fun c hc => hoffsets c (List.mem_append_left _ hc)
  refine ⟨hbound, hbound, ?_, ?_, Or.inr rfl⟩
  · intro t hlow hhigh
    rw [ite_self]
    refine offsetAt_split h ?_ ?_
    · intro c hc
      have hle := hpast c hc
      omega
    · intro c hc
      have hle := hcoming c hc
      omega
  · intro fold
    rw [ite_self]
    exact resolveFold_split h
      (localTime_le_of_past z.first_lt (fun c hc => hoffsets c (List.mem_append_left _ hc)) hpast)
      (lt_localTime_of_coming hbound (fun c hc => hoffsets c (List.mem_append_right _ hc)) hcoming)

theorem view_of_near {past later : List (Int × Int)} {c : Int × Int}
    (h : z.transitions = past ++ c :: later) (hpast : ∀ d ∈ past, d.1 ≤ w - day)
    (hnear : w - day < c.1) (hlater : ∀ d ∈ later, w + day ≤ d.1) :
    View z w ⟨c.1, lastOffset z.first past, c.2⟩ := by
  have hoffsets : ∀ d ∈ past ++ c :: later, -day < d.2 ∧ d.2 < day := h ▸ z.offset_lt
  have hpastOffsets : ∀ d ∈ past, -day < d.2 ∧ d.2 < day := fun d hd =>
    hoffsets d (List.mem_append_left _ hd)
  have hlaterOffsets : ∀ d ∈ later, -day < d.2 ∧ d.2 < day := fun d hd =>
    hoffsets d (List.mem_append_right _ (List.mem_cons_of_mem c hd))
  have hafter : -day < c.2 ∧ c.2 < day :=
    hoffsets c (List.mem_append_right _ (List.mem_cons_self ..))
  have hbefore := lastOffset_lt z.first_lt hpastOffsets
  have hshift : past ++ c :: later = (past ++ [c]) ++ later := by simp
  have hlast : lastOffset z.first (past ++ [c]) = c.2 := by rw [lastOffset_append]; rfl
  refine ⟨hbefore, hafter, ?_, ?_, Or.inl ?_⟩
  · intro t hlow hhigh
    split
    · rename_i hlt
      refine offsetAt_split h ?_ ?_
      · intro d hd
        have hle := hpast d hd
        omega
      · intro d hd
        rcases List.mem_cons.mp hd with rfl | hd
        · exact hlt
        · have hle := hlater d hd
          omega
    · rename_i hge
      refine (offsetAt_split (h.trans hshift) ?_ ?_).trans hlast
      · intro d hd
        rcases List.mem_append.mp hd with hd | hd
        · have hle := hpast d hd
          omega
        · rw [List.mem_singleton.mp hd]
          simp only at hge
          omega
      · intro d hd
        have hle := hlater d hd
        omega
  · intro fold
    split
    · rename_i hlt
      refine resolveFold_split h (localTime_le_of_past z.first_lt hpastOffsets hpast) ?_
      intro d hd
      rcases List.mem_cons.mp hd with rfl | hd
      · exact hlt
      · exact lt_localTime_of_coming hafter hlaterOffsets hlater d hd
    · rename_i hge
      rw [resolveFold_split (h.trans hshift) ?_ ?_, hlast]
      · rw [withBefore_append]
        intro d hd
        rcases List.mem_append.mp hd with hd | hd
        · exact localTime_le_of_past z.first_lt hpastOffsets hpast d hd
        · rw [List.mem_singleton.mp hd]
          exact Int.not_lt.mp hge
      · rw [hlast]
        exact lt_localTime_of_coming hafter hlaterOffsets hlater
  · rw [changes, h, withBefore_append]
    exact List.mem_append_right _ (List.mem_cons_self ..)

theorem exists_view (hquiet : z.Quiet w) : ∃ c, View z w c := by
  obtain ⟨past, coming, hsplit, hpast, hcoming, -, -⟩ := z.split_at (w - day)
  cases coming with
  | nil => exact ⟨_, view_of_far hsplit hpast fun c hc => by cases hc⟩
  | cons c later =>
    have hsorted := z.sorted
    rw [hsplit] at hsorted
    have hrest := (List.pairwise_append.mp hsorted).2.1
    by_cases hnear : c.1 < w + day
    · refine ⟨_, view_of_near hsplit hpast (hcoming c (List.mem_cons_self ..)) fun d hd => ?_⟩
      -- A second near change would be one too many.
      by_contra hnot
      rw [Quiet, hsplit, List.filter_append, List.length_append] at hquiet
      have htwo : 2 ≤ ((c :: later).filter fun c =>
          decide (w - day < c.1) && decide (c.1 < w + day)).length := by
        have hc := hcoming c (List.mem_cons_self ..)
        have hd' := hcoming d (List.mem_cons_of_mem c hd)
        rw [List.filter_cons_of_pos (by simp [hc, hnear]), List.length_cons]
        have hmem : d ∈ later.filter fun c => decide (w - day < c.1) && decide (c.1 < w + day) :=
          List.mem_filter.mpr ⟨hd, by simp only [Bool.and_eq_true, decide_eq_true_eq]; omega⟩
        have hpos := List.length_pos_of_mem hmem
        omega
      omega
    · refine ⟨_, view_of_far hsplit hpast fun d hd => ?_⟩
      rcases List.mem_cons.mp hd with rfl | hd
      · omega
      · have hlt := List.rel_of_pairwise_cons hrest hd
        omega

/-! ### Local times that both resolve -/

/-- A local time after an instant that both ways of resolving take to the same instant: it is in no
gap, and in a fold both take the same pass, which is still ahead. -/
structure Clear (z : Zone) (t w : Int) (fold : Bool) : Prop where
  quiet : z.Quiet w
  noGap : ∀ c ∈ z.changes, ¬(c.instant + c.before ≤ w ∧ w < c.instant + c.after)
  inFold : ∀ c ∈ z.changes, c.instant + c.after ≤ w → w < c.instant + c.before →
    (w < c.instant ↔ fold = false) ∧ t < w - c.before

variable {fold : Bool} {c : Change}

theorem View.resolveTwice_eq (h : View z w c) :
    z.resolveTwice w = w - if w < c.instant then
      (if w - c.before < c.instant then c.before else c.after)
      else if w - c.after < c.instant then c.before else c.after := by
  obtain ⟨hb, ha⟩ := And.intro h.before_lt h.after_lt
  rw [Zone.resolveTwice_eq, h.offsetAt w (by omega) (by omega)]
  split <;> rw [h.offsetAt _ (by omega) (by omega)]

theorem View.wall_resolveTwice (h : View z w c)
    (hgap : ¬(c.instant + c.before ≤ w ∧ w < c.instant + c.after)) :
    z.wall (z.resolveTwice w) = w := by
  obtain ⟨hb, ha⟩ := And.intro h.before_lt h.after_lt
  rw [h.resolveTwice_eq, wall]
  split
  · split
    · rw [h.offsetAt _ (by omega) (by omega), if_pos (by omega)]
      omega
    · rw [h.offsetAt _ (by omega) (by omega), if_neg (by omega)]
      omega
  · split
    · rw [h.offsetAt _ (by omega) (by omega), if_pos (by omega)]
      omega
    · rw [h.offsetAt _ (by omega) (by omega), if_neg (by omega)]
      omega

theorem View.resolveFold_eq (h : View z w c)
    (hgap : ¬(c.instant + c.before ≤ w ∧ w < c.instant + c.after))
    (hfold : c.instant + c.after ≤ w → w < c.instant + c.before → (w < c.instant ↔ fold = false)) :
    z.resolveFold fold w = z.resolveTwice w := by
  rw [h.resolveTwice_eq, h.resolveFold]
  refine congrArg _ ?_
  -- Before the change in local time for both, after it for both, or inside the fold.
  cases fold with
  | false =>
    simp only [localTime, Bool.false_eq_true, if_false, iff_true] at hfold ⊢
    split <;> split <;> split <;> omega
  | true =>
    simp only [localTime, if_true, Bool.true_eq_false, iff_false] at hfold ⊢
    split <;> split <;> split <;> omega

theorem View.lt_resolveTwice (h : View z w c)
    (hgap : ¬(c.instant + c.before ≤ w ∧ w < c.instant + c.after))
    (hahead : c.instant + c.after ≤ w → w < c.instant + c.before → t < w - c.before)
    (hday : z.wall t + day ≤ w) : t < z.resolveTwice w := by
  have hshown := h.wall_resolveTwice hgap
  have htwice := h.resolveTwice_eq
  obtain ⟨hb, ha⟩ := And.intro h.before_lt h.after_lt
  have ht := z.offset_bounds t
  rw [wall] at hday
  by_contra hle
  -- Then the instant is near enough for the view, and only a fold could turn the clock back so far.
  have hlow : w - day < z.resolveTwice w := by
    rw [htwice]
    split <;> split <;> omega
  rw [wall, h.offsetAt _ hlow (by omega)] at hshown
  rw [h.offsetAt t (by omega) (by omega)] at hday
  split at hshown <;> split at hday <;> omega

theorem resolve_of_clear (h : Clear z t w fold) :
    z.resolveFold fold w = z.resolveTwice w ∧ z.wall (z.resolveTwice w) = w ∧
      (z.wall t + day ≤ w → t < z.resolveTwice w) := by
  obtain ⟨c, hview⟩ := exists_view h.quiet
  have hgap : ¬(c.instant + c.before ≤ w ∧ w < c.instant + c.after) := by
    rcases hview.change with hc | hsame
    · exact h.noGap c hc
    · omega
  have hfold : c.instant + c.after ≤ w → w < c.instant + c.before →
      (w < c.instant ↔ fold = false) ∧ t < w - c.before := by
    intro hlow hhigh
    rcases hview.change with hc | hsame
    · exact h.inFold c hc hlow hhigh
    · omega
  exact ⟨hview.resolveFold_eq hgap fun hlow hhigh => (hfold hlow hhigh).1,
    hview.wall_resolveTwice hgap,
    hview.lt_resolveTwice hgap fun hlow hhigh => (hfold hlow hhigh).2⟩

/-- The two lookups take this midnight to an instant of its day: it is in no gap, or they resolve it
forward by less than a day. -/
structure ClearMidnight (z : Zone) (m : Int) : Prop where
  quiet : z.Quiet m
  inGap : ∀ c ∈ z.changes, c.instant + c.before ≤ m → m < c.instant + c.after →
    c.instant ≤ m ∧ c.after - c.before < day

theorem wall_of_clearMidnight {m : Int} (h : ClearMidnight z m) :
    m ≤ z.wall (z.resolveTwice m) ∧ z.wall (z.resolveTwice m) < m + day := by
  obtain ⟨c, hview⟩ := exists_view h.quiet
  obtain ⟨hb, ha⟩ := And.intro hview.before_lt hview.after_lt
  by_cases hgap : c.instant + c.before ≤ m ∧ m < c.instant + c.after
  · have hforward : c.instant ≤ m ∧ c.after - c.before < day := by
      rcases hview.change with hc | hsame
      · exact h.inGap c hc hgap.1 hgap.2
      · omega
    rw [hview.resolveTwice_eq, if_neg (by omega), if_pos (by omega), wall,
      hview.offsetAt _ (by omega) (by omega), if_neg (by omega)]
    omega
  · rw [hview.wall_resolveTwice hgap]
    have hpos : 0 < day := by decide
    omega

end Zone

end

end SocialActivities.Lib.Transitions
