import Mathlib.Data.Prod.Lex
import Mathlib.Order.WellFounded
import SocialActivities.Lib.Paging

/-!
# `SocialActivities.Lib.Keyset`: pages from the newest row back

Rows have a time and a stamp, which refines the time and tells all rows apart. A request gives the
newest rows that are older than a bound, and where there are more, the stamp of the last row of the
page is the bound of the next request. A query puts its rows in the order of their times; rows of
one time may come in any order, and in another one in every request.

* `Walk.complete`: if the order is that of the stamps, a walk receives every row that is there all
  the time, once and in order, whatever else comes and goes meanwhile.
* `Walk.perm_of_untied`: if no page ends with a row that shares its time with another row, a walk
  over rows that stay receives each of them once, whatever the order of ties.
* `untied_of_perm`: otherwise one order of ties loses a row or gives it twice.
-/

namespace SocialActivities.Lib.Keyset

variable {α τ κ : Type} [LinearOrder τ] [LinearOrder κ] (time : α → τ) (stamp : α → κ)

/-- The rows that are older than the bound; all of them without one. -/
def older (bound : Option κ) (rows : List α) : List α :=
  rows.filter fun r => bound.all fun b => decide (stamp r < b)

/-- The rows with the newest first. -/
structure Arranged (rows result : List α) : Prop where
  perm : result.Perm rows
  sorted : result.Pairwise fun r r' => time r' ≤ time r

/-- The requests of a client from number `i` on, and what it receives, the newest first. In request
`i` the rows are `rows i`. -/
inductive Walk (query : Nat → List α → List α) (n : Nat) (rows : Nat → List α) :
    Nat → Option κ → List α → Prop where
  | last (i : Nat) (bound : Option κ)
    (hfit : (query i (older stamp bound (rows i))).length ≤ n) :
    Walk query n rows i bound (query i (older stamp bound (rows i)))
  | more (i : Nat) (bound : Option κ) (last : α) (rest : List α)
    (hmore : n < (query i (older stamp bound (rows i))).length)
    (hlast : ((query i (older stamp bound (rows i))).take n).getLast? = some last)
    (hrest : Walk query n rows (i + 1) (some (stamp last)) rest) :
    Walk query n rows i bound ((query i (older stamp bound (rows i))).take n ++ rest)

/-- The order of the times, and of the stamps among rows of one time. -/
def rank (r : α) : τᵒᵈ ×ₗ κ := toLex (OrderDual.toDual (time r), stamp r)

/-- The rows with the newest first, and of one time those with the smaller stamps first. -/
def newestFirst (rows : List α) : List α :=
  rows.insertionSort fun r r' => rank time stamp r ≤ rank time stamp r'

/-- No page of the list, but for the last one, ends with a row that shares its time. -/
def Untied (n : Nat) (rows : List α) : Prop :=
  ∀ i last, (i + 1) * n < rows.length → (rows.take ((i + 1) * n)).getLast? = some last →
    ∀ r ∈ rows, time r = time last → r = last

section

variable {time stamp} {query : Nat → List α → List α} {n i : Nat} {rows : Nat → List α}
  {bound : Option κ} {received : List α}

variable {all : List α} {r : α}

theorem mem_older :
    r ∈ older stamp bound all ↔ r ∈ all ∧ ∀ b ∈ bound, stamp r < b := by
  simp [older, Option.all_eq_true]

variable {last : α}

theorem older_older (hlast : last ∈ older stamp bound all) :
    older stamp (some (stamp last)) (older stamp bound all) = older stamp (some (stamp last)) all := by
  simp only [older, List.filter_filter]
  refine List.filter_congr fun r _ => ?_
  by_cases hr : stamp r < stamp last
  · have hbound : bound.all (fun b => decide (stamp r < b)) = true := by
      rw [Option.all_eq_true]
      intro b hb
      exact decide_eq_true (hr.trans ((mem_older.mp hlast).2 b hb))
    simp [hr, hbound]
  · simp [hr]

theorem Walk.exists [WellFoundedLT κ] (query : Nat → List α → List α)
    (hquery : ∀ i all, (query i all).Perm all) (hn : 0 < n) (rows : Nat → List α) (i : Nat)
    (bound : Option κ) : ∃ received, Walk stamp query n rows i bound received := by
  -- One request from any bound, when the walks from its rows end.
  have hone : ∀ i bound, (∀ last ∈ older stamp bound (rows i),
      ∃ rest, Walk stamp query n rows (i + 1) (some (stamp last)) rest) →
      ∃ received, Walk stamp query n rows i bound received := by
    intro i bound hnext
    by_cases hfit : (query i (older stamp bound (rows i))).length ≤ n
    · exact ⟨_, Walk.last i bound hfit⟩
    · cases hlast : ((query i (older stamp bound (rows i))).take n).getLast? with
      | none =>
        rw [List.getLast?_eq_none_iff, List.take_eq_nil_iff] at hlast
        rcases hlast with hzero | hnil
        · omega
        · rw [hnil, List.length_nil] at hfit
          omega
      | some last =>
        have hmem := List.mem_of_mem_take (List.mem_of_getLast? hlast)
        obtain ⟨rest, hrest⟩ := hnext last ((hquery i _).mem_iff.mp hmem)
        exact ⟨_, Walk.more i bound last rest (Nat.lt_of_not_le hfit) hlast hrest⟩
  have hsome : ∀ b i, ∃ received, Walk stamp query n rows i (some b) received := by
    intro b
    induction b using WellFoundedLT.induction with
    | ind b ih =>
      intro i
      refine hone i (some b) fun last hlast => ih (stamp last) ?_ (i + 1)
      exact (mem_older.mp hlast).2 b rfl
  exact hone i bound fun last _ => hsome (stamp last) (i + 1)

theorem Walk.mem (hquery : ∀ i all, (query i all).Perm all)
    (h : Walk stamp query n rows i bound received) (hr : r ∈ received) :
    ∃ j, i ≤ j ∧ r ∈ older stamp bound (rows j) := by
  induction h with
  | last i => exact ⟨i, Nat.le_refl i, (hquery i _).mem_iff.mp hr⟩
  | more i bound last rest hmore hlast hrest ih =>
    rcases List.mem_append.mp hr with hpage | htail
    · exact ⟨i, Nat.le_refl i, (hquery i _).mem_iff.mp (List.mem_of_mem_take hpage)⟩
    · obtain ⟨j, hj, hin⟩ := ih htail
      obtain ⟨hrow, hlt⟩ := mem_older.mp hin
      have hmem := (hquery i _).mem_iff.mp (List.mem_of_mem_take (List.mem_of_getLast? hlast))
      refine ⟨j, by omega, mem_older.mpr ⟨hrow, fun b hb => ?_⟩⟩
      exact (hlt _ rfl).trans ((mem_older.mp hmem).2 b hb)

/-! ### In the order of the stamps -/

/-- What a client receives from request `i` on while rows come and go. -/
structure Complete (stamp : α → κ) (rows : Nat → List α) (i : Nat) (bound : Option κ)
    (received : List α) : Prop where
  sorted : received.Pairwise fun r r' => stamp r' < stamp r
  within : ∀ r ∈ received, ∃ j, i ≤ j ∧ r ∈ older stamp bound (rows j)
  all : ∀ k, (∀ b ∈ bound, k < b) → (∀ j, i ≤ j → k ∈ (rows j).map stamp) →
    k ∈ received.map stamp

variable {result : List α}

theorem Arranged.strict (h : Arranged stamp all result)
    (hdistinct : (all.map stamp).Nodup) : result.Pairwise fun r r' => stamp r' < stamp r := by
  have hne : result.Pairwise fun r r' => stamp r ≠ stamp r' :=
    List.pairwise_map.mp ((h.perm.map stamp).nodup_iff.mpr hdistinct)
  exact (h.sorted.and hne).imp fun ⟨hle, hne⟩ => lt_of_le_of_ne hle hne.symm

theorem Walk.complete (hquery : ∀ i all, Arranged stamp all (query i all))
    (hdistinct : ∀ i, ((rows i).map stamp).Nodup)
    (h : Walk stamp query n rows i bound received) : Complete stamp rows i bound received := by
  have hwithin := fun r hr => h.mem (fun i all => (hquery i all).perm) (r := r) hr
  induction h with
  | last i bound =>
    have harranged := hquery i (older stamp bound (rows i))
    refine ⟨harranged.strict ((hdistinct i).sublist (List.filter_sublist.map stamp)), hwithin, ?_⟩
    intro k hk hall
    obtain ⟨r, hr, rfl⟩ := List.mem_map.mp (hall i (Nat.le_refl i))
    exact List.mem_map_of_mem (harranged.perm.mem_iff.mpr (mem_older.mpr ⟨hr, hk⟩))
  | more i bound last rest hmore hlast hrest ih =>
    have harranged := hquery i (older stamp bound (rows i))
    have hstrict := harranged.strict ((hdistinct i).sublist (List.filter_sublist.map stamp))
    have hrestMem := fun r hr => hrest.mem (fun i all => (hquery i all).perm) (r := r) hr
    obtain ⟨hsorted, -, hall⟩ := ih hrestMem
    -- The rows of the page are not older than its last row, and the rest is.
    obtain ⟨front, hfront⟩ := List.getLast?_eq_some_iff.mp hlast
    have hparts := List.take_append_drop n (query i (older stamp bound (rows i)))
    rw [← hparts] at hstrict
    obtain ⟨hpage, -, hcross⟩ := List.pairwise_append.mp hstrict
    have hle : ∀ r ∈ (query i (older stamp bound (rows i))).take n, stamp last ≤ stamp r := by
      intro r hr
      rw [hfront] at hr hpage
      rcases List.mem_append.mp hr with hin | hin
      · exact le_of_lt ((List.pairwise_append.mp hpage).2.2 r hin last List.mem_cons_self)
      · rw [List.mem_singleton.mp hin]
    refine ⟨List.pairwise_append.mpr ⟨hpage, hsorted, fun r hr r' hr' => ?_⟩, hwithin, ?_⟩
    · obtain ⟨j, -, hin⟩ := hrestMem r' hr'
      exact lt_of_lt_of_le ((mem_older.mp hin).2 _ rfl) (hle r hr)
    · intro k hk halways
      rw [List.map_append, List.mem_append]
      by_cases hlt : k < stamp last
      · refine Or.inr (hall k (fun b hb => ?_) fun j hj => halways j (by omega))
        cases hb
        exact hlt
      · -- What is not older than the last row is on the page.
        obtain ⟨r, hr, rfl⟩ := List.mem_map.mp (halways i (Nat.le_refl i))
        have hin := harranged.perm.mem_iff.mpr (mem_older.mpr ⟨hr, hk⟩)
        rw [← hparts] at hin
        rcases List.mem_append.mp hin with hfirst | hlater
        · exact Or.inl (List.mem_map_of_mem hfirst)
        · exact absurd (hcross last (List.mem_of_getLast? hlast) r hlater) hlt

theorem Walk.eq_query (hquery : ∀ i all, Arranged stamp all (query i all))
    (hdistinct : (all.map stamp).Nodup)
    (h : Walk stamp query n (fun _ => all) i bound received) :
    received = query i (older stamp bound all) := by
  have harranged := hquery i (older stamp bound all)
  have hstrict := harranged.strict (hdistinct.sublist (List.filter_sublist.map stamp))
  obtain ⟨hsorted, hwithin, hall⟩ := h.complete hquery fun _ => hdistinct
  have hnodup : ∀ {l : List α}, (l.Pairwise fun r r' => stamp r' < stamp r) → l.Nodup :=
    fun hl => hl.imp fun hlt heq => absurd (congrArg stamp heq) (ne_of_gt hlt)
  have hperm : received.Perm (query i (older stamp bound all)) := by
    refine (List.perm_ext_iff_of_nodup (hnodup hsorted) (hnodup hstrict)).mpr fun r => ?_
    rw [harranged.perm.mem_iff]
    constructor
    · intro hr
      obtain ⟨-, -, hin⟩ := hwithin r hr
      exact hin
    · intro hr
      obtain ⟨hrow, hbound⟩ := mem_older.mp hr
      obtain ⟨r', hr', hsame⟩ := List.mem_map.mp
        (hall (stamp r) hbound fun _ _ => List.mem_map_of_mem hrow)
      obtain ⟨-, -, hin⟩ := hwithin r' hr'
      rwa [← List.inj_on_of_nodup_map hdistinct (mem_older.mp hin).1 hrow hsame]
  exact hperm.eq_of_pairwise (fun r r' _ _ hlt hgt => absurd hgt (lt_asymm hlt)) hsorted hstrict

/-! ### Rows of one time in any order -/

theorem arranged_newestFirst (all : List α) : Arranged time all (newestFirst time stamp all) := by
  refine ⟨List.perm_insertionSort _ _, ?_⟩
  have hsorted : (newestFirst time stamp all).Pairwise fun r r' =>
      rank time stamp r ≤ rank time stamp r' := List.pairwise_insertionSort _ _
  refine hsorted.imp fun hle => ?_
  rcases (Prod.Lex.le_iff).mp hle with hlt | ⟨heq, -⟩
  · exact le_of_lt (OrderDual.toDual_lt_toDual.mp hlt)
  · exact le_of_eq (OrderDual.toDual_inj.mp heq).symm

theorem mem_newestFirst : r ∈ newestFirst time stamp all ↔ r ∈ all :=
  arranged_newestFirst all |>.perm.mem_iff

theorem newestFirst_pairwise (hdistinct : (all.map stamp).Nodup) :
    (newestFirst time stamp all).Pairwise fun r r' => rank time stamp r < rank time stamp r' := by
  have hsorted : (newestFirst time stamp all).Pairwise fun r r' =>
      rank time stamp r ≤ rank time stamp r' := List.pairwise_insertionSort _ _
  have hne : (newestFirst time stamp all).Pairwise fun r r' => stamp r ≠ stamp r' :=
    List.pairwise_map.mp (((List.perm_insertionSort _ all).map stamp).nodup_iff.mpr hdistinct)
  refine (hsorted.and hne).imp fun ⟨hle, hne⟩ => lt_of_le_of_ne hle fun hsame => hne ?_
  exact congrArg (fun k => (ofLex k).2) hsame

theorem newestFirst_filter (hdistinct : (all.map stamp).Nodup) (p : α → Bool) :
    newestFirst time stamp (all.filter p) = (newestFirst time stamp all).filter p := by
  have hfiltered : ((all.filter p).map stamp).Nodup :=
    hdistinct.sublist (List.filter_sublist.map stamp)
  have hleft := @newestFirst_pairwise _ _ _ _ _ time stamp _ hfiltered
  have hright := (@newestFirst_pairwise _ _ _ _ _ time stamp _ hdistinct).filter p
  have hperm : (newestFirst time stamp (all.filter p)).Perm ((newestFirst time stamp all).filter p) :=
    (List.perm_insertionSort _ _).trans ((List.perm_insertionSort _ all).filter p).symm
  exact List.Perm.eq_of_pairwise (fun _ _ _ _ hlt hgt => absurd hgt (lt_asymm hlt)) hleft hright hperm

theorem Arranged.map_time {result' : List α} (h : Arranged time all result)
    (h' : Arranged time all result') : result.map time = result'.map time := by
  refine List.Perm.eq_of_pairwise (fun _ _ _ _ hle hge => le_antisymm hge hle) ?_ ?_
    ((h.perm.trans h'.perm.symm).map time)
  · exact List.pairwise_map.mpr h.sorted
  · exact List.pairwise_map.mpr h'.sorted

/-- After a row whose time no other row has, what is older than it is the rest of the list. -/
theorem older_of_unique (hstamp : ∀ r r', time r < time r' → stamp r < stamp r') {page later : List α}
    (hsorted : (page ++ later).Pairwise fun r r' => time r' ≤ time r)
    (hnodup : (page ++ later).Nodup) (hlast : page.getLast? = some last)
    (hunique : ∀ r ∈ page ++ later, time r = time last → r = last) :
    older stamp (some (stamp last)) (page ++ later) = later := by
  obtain ⟨front, rfl⟩ := List.getLast?_eq_some_iff.mp hlast
  obtain ⟨hpage, -, hcross⟩ := List.pairwise_append.mp hsorted
  obtain ⟨-, -, hdisjoint⟩ := List.nodup_append.mp hnodup
  have hin : last ∈ front ++ [last] := List.mem_append_right _ List.mem_cons_self
  rw [older, List.filter_append]
  have hnone : (front ++ [last]).filter (fun r => (some (stamp last)).all fun b =>
      decide (stamp r < b)) = [] := by
    refine List.filter_eq_nil_iff.mpr fun r hr => ?_
    simp only [Option.all_some, decide_eq_true_eq, not_lt]
    by_cases heq : r = last
    · rw [heq]
    · -- The row is newer than the last one of its page.
      have hle : time last ≤ time r := by
        rcases List.mem_append.mp hr with hfront | hend
        · exact (List.pairwise_append.mp hpage).2.2 r hfront last List.mem_cons_self
        · exact absurd (List.mem_singleton.mp hend) heq
      have hne : time last ≠ time r := fun h =>
        heq (hunique r (List.mem_append_left _ hr) h.symm)
      exact le_of_lt (hstamp _ _ (lt_of_le_of_ne hle hne))
  have hall : later.filter (fun r => (some (stamp last)).all fun b => decide (stamp r < b)) =
      later := by
    refine List.filter_eq_self.mpr fun r hr => ?_
    have hne : time r ≠ time last := fun h =>
      hdisjoint last hin r hr (hunique r (List.mem_append_right _ hr) h).symm
    exact decide_eq_true (hstamp _ _ (lt_of_le_of_ne (hcross last hin r hr) hne))
  rw [hnone, hall, List.nil_append]

theorem untied_iff (hsorted : all.Pairwise fun r r' => time r' ≤ time r)
    (hnodup : all.Nodup) (hmore : n < all.length)
    (hlast : (all.take n).getLast? = some last) :
    Untied time n all ↔
      (∀ r ∈ all, time r = time last → r = last) ∧ Untied time n (all.drop n) := by
  have hparts := List.take_append_drop n all
  have hlength : (all.drop n).length = all.length - n := List.length_drop
  constructor
  · intro h
    have hfirst := h 0 last (by omega) (by rw [Nat.zero_add, Nat.one_mul]; exact hlast)
    refine ⟨hfirst, fun i last' hi hlast' r hr => ?_⟩
    obtain ⟨htake, -⟩ := Paging.take_pages n i all
    have hnext := h (i + 1) last' (by rw [Nat.succ_mul]; omega)
      (by rw [Paging.getLast?_pages hlast, hlast']; rfl)
    exact hnext r (List.mem_of_mem_drop hr)
  · intro ⟨hfirst, hrest⟩ i last' hi hlast'
    cases i with
    | zero =>
      rw [Nat.zero_add, Nat.one_mul, hlast] at hlast'
      cases hlast'
      exact hfirst
    | succ i =>
      rw [Nat.succ_mul] at hi
      rw [Paging.getLast?_pages hlast] at hlast'
      cases hlater : ((all.drop n).take ((i + 1) * n)).getLast? with
      | none =>
        rw [List.getLast?_eq_none_iff, List.take_eq_nil_iff] at hlater
        rcases hlater with hzero | hnil
        · have hpos : 0 < n := by
            cases n with
            | zero => simp at hlast
            | succ n => omega
          exact absurd hzero (Nat.ne_of_gt (Nat.mul_pos (Nat.succ_pos i) hpos))
        · rw [hnil, List.length_nil] at hlength
          omega
      | some later =>
        rw [hlater] at hlast'
        cases hlast'
        have hin := List.mem_of_mem_take (List.mem_of_getLast? hlater)
        intro r hr hsame
        rw [← hparts] at hr hsorted hnodup
        rcases List.mem_append.mp hr with hpage | hdrop
        · -- A row of the first page is newer than all later ones.
          obtain ⟨hpageSorted, -, hcross⟩ := List.pairwise_append.mp hsorted
          have hlastIn := List.mem_of_getLast? hlast
          have hlt : time last' ≠ time last := fun h =>
            (List.nodup_append.mp hnodup).2.2 last hlastIn last' hin
              (hfirst last' (List.mem_of_mem_drop hin) h).symm
          have hge : time last ≤ time r := by
            obtain ⟨front, hfront⟩ := List.getLast?_eq_some_iff.mp hlast
            rw [hfront] at hpage hpageSorted
            rcases List.mem_append.mp hpage with h | h
            · exact (List.pairwise_append.mp hpageSorted).2.2 r h last List.mem_cons_self
            · rw [List.mem_singleton.mp h]
          have hle := hcross last hlastIn last' hin
          rw [hsame] at hge
          exact absurd (le_antisymm hle hge) hlt
        · exact hrest i last' (by omega) hlater r hdrop hsame

theorem older_page (hstamp : ∀ r r', time r < time r' → stamp r < stamp r')
    (hdistinct : (all.map stamp).Nodup) (h : Arranged time all result)
    (hlast : (result.take n).getLast? = some last)
    (hunique : ∀ r ∈ all, time r = time last → r = last) :
    older stamp (some (stamp last)) result = result.drop n := by
  have hparts := List.take_append_drop n result
  have hnodup : result.Nodup := h.perm.nodup_iff.mpr (hdistinct.of_map stamp)
  have hsorted := h.sorted
  rw [← hparts] at hnodup hsorted
  have holder := older_of_unique hstamp hsorted hnodup hlast fun r hr =>
    hunique r (h.perm.mem_iff.mp (by rwa [hparts] at hr))
  rwa [hparts] at holder

/-- What the next request reads, sorted. -/
theorem newestFirst_next (hstamp : ∀ r r', time r < time r' → stamp r < stamp r')
    (hdistinct : (all.map stamp).Nodup) (hin : last ∈ older stamp bound all)
    (hlast : ((newestFirst time stamp (older stamp bound all)).take n).getLast? = some last)
    (hunique : ∀ r ∈ older stamp bound all, time r = time last → r = last) :
    newestFirst time stamp (older stamp (some (stamp last)) all) =
      (newestFirst time stamp (older stamp bound all)).drop n := by
  have hold : ((older stamp bound all).map stamp).Nodup :=
    hdistinct.sublist (List.filter_sublist.map stamp)
  rw [← older_older hin, ← older_page hstamp hold (arranged_newestFirst _) hlast hunique]
  exact newestFirst_filter hold _

/-- If no page ends with a shared time, every walk receives each row once, whatever the order of
ties. -/
theorem Walk.perm_of_untied (hstamp : ∀ r r', time r < time r' → stamp r < stamp r')
    (hquery : ∀ i all, Arranged time all (query i all))
    (hdistinct : (all.map stamp).Nodup) (h : Walk stamp query n (fun _ => all) i bound received)
    (huntied : Untied time n (newestFirst time stamp (older stamp bound all))) :
    received.Perm (older stamp bound all) := by
  induction h with
  | last i => exact (hquery i _).perm
  | more i bound last rest hmore hlast hrest ih =>
    have hold : ((older stamp bound all).map stamp).Nodup :=
      hdistinct.sublist (List.filter_sublist.map stamp)
    have harranged := hquery i (older stamp bound all)
    have hsorted := @arranged_newestFirst _ _ _ _ _ time stamp (older stamp bound all)
    have htimes := harranged.map_time hsorted
    have hin := harranged.perm.mem_iff.mp (List.mem_of_mem_take (List.mem_of_getLast? hlast))
    have hlong : n < (newestFirst time stamp (older stamp bound all)).length := by
      rw [hsorted.perm.length_eq, ← harranged.perm.length_eq]
      exact hmore
    -- The sorted rows have the same time at the end of their first page, so the same row.
    have hend : (((newestFirst time stamp (older stamp bound all)).take n).getLast?).map time =
        some (time last) := by
      rw [← List.getLast?_map, List.map_take, ← htimes, ← List.map_take, List.getLast?_map, hlast]
      rfl
    obtain ⟨last', hlast', hsame⟩ := Option.map_eq_some_iff.mp hend
    have hnodup := hsorted.perm.nodup_iff.mpr (hold.of_map stamp)
    obtain ⟨hunique, hnext⟩ := (untied_iff hsorted.sorted hnodup hlong hlast').mp huntied
    have heq : last = last' := hunique last (mem_newestFirst.mpr hin) hsame.symm
    subst heq
    have hone : ∀ r ∈ older stamp bound all, time r = time last → r = last := fun r hr =>
      hunique r (mem_newestFirst.mpr hr)
    rw [← newestFirst_next hstamp hdistinct hin hlast' hone] at hnext
    have hrestPerm := ih hnext
    -- The rest is what the page leaves of the rows.
    have hdrop : (older stamp (some (stamp last)) all).Perm
        ((query i (older stamp bound all)).drop n) := by
      rw [← older_older hin, ← older_page hstamp hold harranged hlast hone]
      exact (harranged.perm.filter _).symm
    have hpage := (hrestPerm.trans hdrop).append_left ((query i (older stamp bound all)).take n)
    rw [List.take_append_drop] at hpage
    exact hpage.trans harranged.perm

theorem Walk.head_mem (hn : 0 < n) (h : Walk stamp query n rows i bound received)
    (hr : (query i (older stamp bound (rows i))).head? = some r) : r ∈ received := by
  cases h with
  | last => exact List.mem_of_head? hr
  | more last rest hmore hlast hrest =>
    refine List.mem_append_left _ (List.mem_of_head? ?_)
    rw [List.head?_take, if_neg (by omega)]
    exact hr

/-- In the order of the stamps among rows of one time, a walk that receives each row once has no
page that ends with a shared time. -/
theorem untied_of_perm (hstamp : ∀ r r', time r < time r' → stamp r < stamp r') (hn : 0 < n)
    (hdistinct : (all.map stamp).Nodup)
    (h : Walk stamp (fun _ => newestFirst time stamp) n (fun _ => all) i bound received)
    (hperm : received.Perm (older stamp bound all)) :
    Untied time n (newestFirst time stamp (older stamp bound all)) := by
  induction h with
  | last i bound hfit =>
    intro i last hi
    have hle : n ≤ (i + 1) * n := Nat.le_mul_of_pos_left n (Nat.succ_pos i)
    omega
  | more i bound last rest hmore hlast hrest ih =>
    have hold : ((older stamp bound all).map stamp).Nodup :=
      hdistinct.sublist (List.filter_sublist.map stamp)
    have hsorted := @arranged_newestFirst _ _ _ _ _ time stamp (older stamp bound all)
    have hranked := @newestFirst_pairwise _ _ _ _ _ time stamp _ hold
    have hnodup := hsorted.perm.nodup_iff.mpr (hold.of_map stamp)
    have hparts := List.take_append_drop n (newestFirst time stamp (older stamp bound all))
    have hlastIn := List.mem_of_getLast? hlast
    have hin := mem_newestFirst.mp (List.mem_of_mem_take hlastIn)
    -- The rest of the walk receives what the page leaves.
    have hrestPerm : rest.Perm ((newestFirst time stamp (older stamp bound all)).drop n) := by
      have hsplit := hperm.trans hsorted.perm.symm
      rw [← hparts] at hsplit
      rw [List.take_append_drop n] at hsplit
      have hcancel : ((newestFirst time stamp (older stamp bound all)).take n ++ rest).Perm
          ((newestFirst time stamp (older stamp bound all)).take n ++
            (newestFirst time stamp (older stamp bound all)).drop n) := by
        rw [hparts]
        exact hsplit
      exact (List.perm_append_left_iff _).mp hcancel
    have hrestMem : ∀ r ∈ rest, stamp r < stamp last := fun r hr => by
      obtain ⟨-, -, hmem⟩ := hrest.mem (fun _ => fun _ => List.perm_insertionSort _ _) hr
      exact (mem_older.mp hmem).2 _ rfl
    rw [← hparts] at hranked
    obtain ⟨hpageRanked, -, hcross⟩ := List.pairwise_append.mp hranked
    -- A later row of the time of the last one has a greater stamp, so no page gives it.
    have hlater : ∀ r ∈ (newestFirst time stamp (older stamp bound all)).drop n,
        time r ≠ time last := by
      intro r hr hsame
      have hlt := hrestMem r (hrestPerm.mem_iff.mpr hr)
      rcases Prod.Lex.lt_iff.mp (hcross last hlastIn r hr) with htime | ⟨-, hgt⟩
      · exact absurd hsame (ne_of_lt (OrderDual.toDual_lt_toDual.mp htime))
      · exact lt_asymm hlt hgt
    have hunique : ∀ r ∈ newestFirst time stamp (older stamp bound all),
        time r = time last → r = last := by
      intro r hr hsame
      rw [← hparts] at hr
      rcases List.mem_append.mp hr with hpage | hdrop
      · by_contra hne
        -- An earlier row of that time is older than the cursor: the next page starts with its time.
        obtain ⟨front, hfront⟩ := List.getLast?_eq_some_iff.mp hlast
        have hrank : rank time stamp r < rank time stamp last := by
          rw [hfront] at hpage hpageRanked
          rcases List.mem_append.mp hpage with h | h
          · exact (List.pairwise_append.mp hpageRanked).2.2 r h last List.mem_cons_self
          · exact absurd (List.mem_singleton.mp h) hne
        have hlt : stamp r < stamp last := by
          rcases Prod.Lex.lt_iff.mp hrank with htime | ⟨-, hlt⟩
          · exact absurd hsame.symm (ne_of_lt (OrderDual.toDual_lt_toDual.mp htime))
          · exact hlt
        have hrow := mem_newestFirst.mp (List.mem_of_mem_take hpage)
        have hnext : r ∈ newestFirst time stamp (older stamp (some (stamp last)) all) := by
          rw [mem_newestFirst, ← older_older hin]
          exact mem_older.mpr ⟨hrow, fun b hb => by cases hb; exact hlt⟩
        obtain ⟨first, more, hfirst⟩ := List.exists_cons_of_ne_nil (List.ne_nil_of_mem hnext)
        have hreceived : first ∈ rest := hrest.head_mem hn (by rw [hfirst]; rfl)
        refine hlater first (hrestPerm.mem_iff.mp hreceived) (le_antisymm ?_ ?_)
        · by_contra hnewer
          exact lt_asymm (hrestMem first hreceived) (hstamp _ _ (lt_of_not_ge hnewer))
        · have horder := (@arranged_newestFirst _ _ _ _ _ time stamp
            (older stamp (some (stamp last)) all)).sorted
          rw [hfirst] at horder hnext
          rw [← hsame]
          rcases List.mem_cons.mp hnext with rfl | hmore
          · exact le_refl _
          · exact (List.pairwise_cons.mp horder).1 r hmore
      · exact absurd hsame (hlater r hdrop)
    have hone : ∀ r ∈ older stamp bound all, time r = time last → r = last := fun r hr =>
      hunique r (mem_newestFirst.mpr hr)
    have hnext := newestFirst_next hstamp hdistinct hin hlast hone
    refine (untied_iff hsorted.sorted hnodup hmore hlast).mpr ⟨hunique, ?_⟩
    rw [← hnext]
    refine ih (hrestPerm.trans ?_)
    rw [← hnext]
    exact List.perm_insertionSort _ _

end

end SocialActivities.Lib.Keyset
