import Mathlib.Data.List.Sort

/-!
# `SocialActivities.Lib.Paging`: reading a list by pages

A reader asks for the first `n` items after a position, goes on after the key of the last item of
the page, and stops when a page is empty. The items come in the order of the list, which need not
be the order of their keys: `Walk` has the items that such a reader receives. `Walk.exists` says
that every walk ends, as the position grows with every page.

`Walk.perm_iff` says when the reader receives the items of a first part `front` of the list once
each, and none of the rest. Every page of `front` has to end with its greatest key so far, below
the keys that come later (`Separated`), and an item of the rest has to be below the key at the end of
a full page (`Passed`). The induction is on the walk, with the part that is left as the new `front`.
-/

namespace SocialActivities.Lib.Paging

variable {α : Type} (key : α → Int) (n : Nat) (items : List α)

/-- The items after a position. -/
def after (position : Int) : List α := items.filter fun m => decide (position < key m)

/-- A reader at the position receives the items. -/
inductive Walk : Int → List α → Prop where
  | done (position : Int) (hpage : (after key items position).take n = []) : Walk position []
  | more (position : Int) (last : α) (rest : List α)
    (hlast : ((after key items position).take n).getLast? = some last)
    (hrest : Walk (key last) rest) : Walk position ((after key items position).take n ++ rest)

/-- Every page of the list ends with the greatest key so far, and the keys that come later are
greater. -/
def Separated : Prop :=
  ∀ i last, (items.take ((i + 1) * n)).getLast? = some last →
    (∀ m ∈ items.take ((i + 1) * n), key m ≤ key last) ∧
      ∀ m ∈ items.drop ((i + 1) * n), key last < key m

/-- A full page of the list ends with a key that is not below that of `m`. -/
def Passed (m : α) : Prop :=
  ∃ i last, (i + 1) * n ≤ items.length ∧ (items.take ((i + 1) * n)).getLast? = some last ∧
    key m ≤ key last

section
variable {key : α → Int} {n : Nat} {items : List α} {position : Int} {received : List α}

variable {m : α}

theorem mem_after : m ∈ after key items position ↔ m ∈ items ∧ position < key m := by
  simp [after]

theorem after_after {later : Int} (h : position ≤ later) :
    after key (after key items position) later = after key items later := by
  unfold after
  rw [List.filter_filter]
  refine List.filter_congr fun m _ => ?_
  simp only [Bool.and_eq_decide, decide_eq_decide, decide_eq_true_eq]
  omega

variable {last : α}

theorem lt_of_getLast?_take
    (h : ((after key items position).take n).getLast? = some last) : position < key last :=
  (mem_after.mp (List.mem_of_mem_take (List.mem_of_getLast? h))).2

theorem Walk.exists (key : α → Int) (n : Nat) (items : List α) (position : Int) :
    ∃ received, Walk key n items position received := by
  generalize hsize : (after key items position).length = size
  induction size using Nat.strong_induction_on generalizing position with
  | _ size ih =>
    cases hlast : ((after key items position).take n).getLast? with
    | none => exact ⟨[], Walk.done position (List.getLast?_eq_none_iff.mp hlast)⟩
    | some last =>
      have hlt := lt_of_getLast?_take hlast
      have hmem : last ∈ after key items position :=
        List.mem_of_mem_take (List.mem_of_getLast? hlast)
      have hless : (after key items (key last)).length < size := by
        rw [← hsize, ← after_after (Int.le_of_lt hlt)]
        refine List.length_filter_lt_length_iff_exists.mpr ⟨last, hmem, ?_⟩
        simp
      obtain ⟨rest, hrest⟩ := ih _ hless (key last) rfl
      exact ⟨_, Walk.more position last rest hlast hrest⟩

theorem Walk.mem (h : Walk key n items position received) (hm : m ∈ received) :
    m ∈ after key items position := by
  induction h with
  | done => cases hm
  | more position last rest hlast hrest ih =>
    rcases List.mem_append.mp hm with hpage | htail
    · exact List.mem_of_mem_take hpage
    · obtain ⟨hin, hlt⟩ := mem_after.mp (ih htail)
      exact mem_after.mpr ⟨hin, Int.lt_trans (lt_of_getLast?_take hlast) hlt⟩

theorem Walk.head?_eq (hn : 0 < n) (h : Walk key n items position received) :
    received.head? = (after key items position).head? := by
  cases h with
  | done _ hpage =>
    rcases List.take_eq_nil_iff.mp hpage with hzero | hnil
    · omega
    · rw [hnil]
  | more _ last rest hlast hrest =>
    rw [List.head?_append, List.head?_take, if_neg (by omega)]
    cases hafter : after key items position with
    | nil =>
      rw [hafter, List.take_nil] at hlast
      cases hlast
    | cons => rfl

/-! ### Pages of a list -/

theorem separated_nil : Separated key n ([] : List α) := by
  intro i last hlast
  simp at hlast

theorem separated_of_pairwise (h : items.Pairwise fun m m' => key m < key m') :
    Separated key n items := by
  intro i last hlast
  rw [← List.take_append_drop ((i + 1) * n) items] at h
  obtain ⟨hpage, -, hlater⟩ := List.pairwise_append.mp h
  refine ⟨fun m hm => ?_, fun m hm => hlater last (List.mem_of_getLast? hlast) m hm⟩
  obtain ⟨before, hbefore⟩ := List.getLast?_eq_some_iff.mp hlast
  rw [hbefore] at hpage hm
  rcases List.mem_append.mp hm with hin | hin
  · exact Int.le_of_lt ((List.pairwise_append.mp hpage).2.2 m hin last List.mem_cons_self)
  · rw [List.mem_singleton.mp hin]

theorem take_pages (n i : Nat) (items : List α) :
    items.take ((i + 1 + 1) * n) = items.take n ++ (items.drop n).take ((i + 1) * n) ∧
      items.drop ((i + 1 + 1) * n) = (items.drop n).drop ((i + 1) * n) := by
  have hsum : (i + 1 + 1) * n = n + (i + 1) * n := by
    rw [Nat.succ_mul, Nat.add_comm]
  rw [hsum]
  exact ⟨List.take_add .., (List.drop_drop ..).symm⟩

theorem getLast?_pages (hlast : (items.take n).getLast? = some last) (i : Nat) :
    (items.take ((i + 1 + 1) * n)).getLast? =
      ((items.drop n).take ((i + 1) * n)).getLast?.or (some last) := by
  rw [(take_pages n i items).1, List.getLast?_append, hlast]

theorem separated_iff (hlast : (items.take n).getLast? = some last) :
    Separated key n items ↔ (∀ m ∈ items.take n, key m ≤ key last) ∧
      (∀ m ∈ items.drop n, key last < key m) ∧ Separated key n (items.drop n) := by
  constructor
  · intro h
    have hfirst := h 0 last (by rw [Nat.zero_add, Nat.one_mul]; exact hlast)
    rw [Nat.zero_add, Nat.one_mul] at hfirst
    refine ⟨hfirst.1, hfirst.2, fun i last' hlast' => ?_⟩
    obtain ⟨htake, hdrop⟩ := take_pages n i items
    have hnext := h (i + 1) last' (by rw [getLast?_pages hlast, hlast']; rfl)
    rw [htake, hdrop] at hnext
    exact ⟨fun m hm => hnext.1 m (List.mem_append_right _ hm), hnext.2⟩
  · intro ⟨hpage, hlater, hrest⟩ i last' hlast'
    cases i with
    | zero =>
      rw [Nat.zero_add, Nat.one_mul] at hlast' ⊢
      rw [hlast] at hlast'
      cases hlast'
      exact ⟨hpage, hlater⟩
    | succ i =>
      obtain ⟨htake, hdrop⟩ := take_pages n i items
      rw [getLast?_pages hlast] at hlast'
      rw [htake, hdrop]
      cases hmore : ((items.drop n).take ((i + 1) * n)).getLast? with
      | none =>
        -- The list ended with the first page.
        rw [hmore] at hlast'
        cases hlast'
        rw [List.getLast?_eq_none_iff.mp hmore, List.append_nil]
        exact ⟨hpage, fun m hm => hlater m (List.mem_of_mem_drop hm)⟩
      | some =>
        rw [hmore] at hlast'
        cases hlast'
        obtain ⟨hbefore, hafter⟩ := hrest i last' hmore
        have hlt := hlater last' (List.mem_of_mem_take (List.mem_of_getLast? hmore))
        refine ⟨fun m hm => ?_, hafter⟩
        rcases List.mem_append.mp hm with hin | hin
        · exact Int.le_of_lt (Int.lt_of_le_of_lt (hpage m hin) hlt)
        · exact hbefore m hin

theorem not_passed_of_lt (h : items.length < n) : ¬Passed key n items m := by
  intro ⟨i, last, hfull, _⟩
  have hle : n ≤ (i + 1) * n := Nat.le_mul_of_pos_left n (Nat.succ_pos i)
  omega

theorem passed_iff (hfull : n ≤ items.length) (hlast : (items.take n).getLast? = some last) :
    Passed key n items m ↔ key m ≤ key last ∨ Passed key n (items.drop n) m := by
  constructor
  · intro ⟨i, last', hpages, hlast', hle⟩
    cases i with
    | zero =>
      rw [Nat.zero_add, Nat.one_mul, hlast] at hlast'
      cases hlast'
      exact Or.inl hle
    | succ i =>
      rw [getLast?_pages hlast] at hlast'
      cases hmore : ((items.drop n).take ((i + 1) * n)).getLast? with
      | none =>
        rw [hmore] at hlast'
        cases hlast'
        exact Or.inl hle
      | some later =>
        rw [hmore] at hlast'
        cases hlast'
        refine Or.inr ⟨i, last', ?_, hmore, hle⟩
        rw [List.length_drop]
        rw [Nat.succ_mul] at hpages
        omega
  · rintro (hle | ⟨i, last', hpages, hlast', hle⟩)
    · exact ⟨0, last, by omega, by rw [Nat.zero_add, Nat.one_mul]; exact hlast, hle⟩
    · refine ⟨i + 1, last', ?_, by rw [getLast?_pages hlast, hlast']; rfl, hle⟩
      rw [List.length_drop] at hpages
      rw [Nat.succ_mul]
      omega

/-! ### What a walk receives -/

theorem Walk.le_last (hn : 0 < n) {page others : List α} (h : Walk key n items (key last) received)
    (hsplit : after key items (key last) = after key page (key last) ++ others)
    (hdisjoint : ∀ m ∈ page, m ∉ received) : ∀ m ∈ page, key m ≤ key last := by
  intro m hm
  by_contra hlt
  -- The first item of the page that is after its last one is received next.
  have hin : m ∈ after key page (key last) := mem_after.mpr ⟨hm, by omega⟩
  obtain ⟨again, more, hmore⟩ := List.exists_cons_of_ne_nil (List.ne_nil_of_mem hin)
  have hhead := h.head?_eq hn
  rw [hsplit, hmore] at hhead
  have hpage : again ∈ page := (mem_after.mp (hmore ▸ List.mem_cons_self)).1
  exact hdisjoint again hpage (List.mem_of_head? hhead)

/-- A walk receives each item of a first part of what is after its position once, and none of the
rest. -/
theorem Walk.perm_iff (hn : 0 < n) (hnodup : items.Nodup) {front back : List α}
    (h : Walk key n items position received)
    (hsplit : after key items position = front ++ back) :
    received.Perm front ↔ Separated key n front ∧ ∀ m ∈ back, Passed key n front m := by
  induction h generalizing front back with
  | done position hpage =>
    have hnil : after key items position = [] :=
      (List.take_eq_nil_iff.mp hpage).resolve_left (by omega)
    rw [hnil] at hsplit
    obtain ⟨rfl, rfl⟩ := List.append_eq_nil_iff.mp hsplit.symm
    exact ⟨fun _ => ⟨separated_nil, fun m hm => (by cases hm)⟩, fun _ => List.Perm.nil⟩
  | @more position last rest hlast hrest ih =>
    have hlt := lt_of_getLast?_take hlast
    have hlater := @after_after _ key items _ _ (Int.le_of_lt hlt)
    have hboth : (front ++ back).Nodup := hsplit ▸ hnodup.filter _
    rw [hsplit] at hlast hlater ⊢
    by_cases hshort : front.length < n ∧ back ≠ []
    · -- The page has an item of the rest.
      obtain ⟨hless, hback⟩ := hshort
      obtain ⟨m, ms, rfl⟩ := List.exists_cons_of_ne_nil hback
      refine ⟨fun hperm => ?_, fun ⟨_, hpassed⟩ => ?_⟩
      · have hlength := hperm.length_eq
        rw [List.length_append, List.length_take, List.length_append, List.length_cons] at hlength
        omega
      · exact absurd (hpassed m List.mem_cons_self) (not_passed_of_lt hless)
    · have hpage : (front ++ back).take n = front.take n := by
        by_cases hback : back = []
        · rw [hback, List.append_nil]
        · exact List.take_append_of_le_length (by
            by_contra hless
            exact hshort ⟨by omega, hback⟩)
      rw [hpage] at hlast ⊢
      have hcancel := @List.perm_append_left_iff _ rest (front.drop n) (front.take n)
      rw [List.take_append_drop] at hcancel
      have hcut : (front.take n ++ front.drop n).Nodup := by
        rw [List.take_append_drop]
        exact (List.nodup_append.mp hboth).1
      -- What comes after the page is what is left of the two parts.
      have hleft : after key items (key last) = after key (front.take n) (key last) ++
          (after key (front.drop n) (key last) ++ after key back (key last)) := by
        rw [← hlater, ← List.append_assoc]
        unfold after
        rw [← List.filter_append, List.take_append_drop, List.filter_append]
      have hnext : (∀ m ∈ front.take n, key m ≤ key last) →
          (∀ m ∈ front.drop n, key last < key m) →
            (rest.Perm (front.drop n) ↔ Separated key n (front.drop n) ∧
              ∀ m ∈ after key back (key last), Passed key n (front.drop n) m) := by
        intro hle hmore
        refine ih ?_
        have hnone : after key (front.take n) (key last) = [] :=
          List.filter_eq_nil_iff.mpr fun m hm => by
            have hkey := hle m hm
            simpa using hkey
        have hall : after key (front.drop n) (key last) = front.drop n :=
          List.filter_eq_self.mpr fun m hm => decide_eq_true (hmore m hm)
        rw [hleft, hnone, hall, List.nil_append]
      have hpassed : (∀ m ∈ back, Passed key n front m) ↔
          ∀ m ∈ after key back (key last), Passed key n (front.drop n) m := by
        by_cases hback : back = []
        · simp [hback, after]
        · have hfull : n ≤ front.length := by
            by_contra hless
            exact hshort ⟨by omega, hback⟩
          constructor
          · intro hall m hm
            obtain ⟨hin, hkey⟩ := mem_after.mp hm
            exact ((passed_iff hfull hlast).mp (hall m hin)).resolve_left (by omega)
          · intro hall m hm
            refine (passed_iff hfull hlast).mpr ?_
            by_cases hkey : key m ≤ key last
            · exact Or.inl hkey
            · exact Or.inr (hall m (mem_after.mpr ⟨hm, by omega⟩))
      rw [hcancel, separated_iff hlast, hpassed]
      constructor
      · intro hperm
        have hmore : ∀ m ∈ front.drop n, key last < key m := fun m hm =>
          (mem_after.mp (hrest.mem (hperm.mem_iff.mpr hm))).2
        have hle : ∀ m ∈ front.take n, key m ≤ key last :=
          hrest.le_last hn hleft fun m hm hin =>
            (List.nodup_append.mp hcut).2.2 m hm m (hperm.mem_iff.mp hin) rfl
        obtain ⟨hseparated, hback⟩ := (hnext hle hmore).mp hperm
        exact ⟨⟨hle, hmore, hseparated⟩, hback⟩
      · intro ⟨⟨hle, hmore, hseparated⟩, hback⟩
        exact (hnext hle hmore).mpr ⟨hseparated, hback⟩

theorem Walk.perm_front_iff (hn : 0 < n) {front back : List α} (hnodup : (front ++ back).Nodup)
    (h : Walk key n (front ++ back) position received) :
    received.Perm front ↔ (∀ m ∈ front, position < key m) ∧ Separated key n front ∧
      ∀ m ∈ back, key m ≤ position ∨ Passed key n front m := by
  have hsplit : (∀ m ∈ front, position < key m) →
      after key (front ++ back) position = front ++ after key back position := by
    intro hall
    unfold after
    rw [List.filter_append, List.filter_eq_self.mpr fun m hm => decide_eq_true (hall m hm)]
  constructor
  · intro hperm
    have hall : ∀ m ∈ front, position < key m := fun m hm =>
      (mem_after.mp (h.mem (hperm.mem_iff.mpr hm))).2
    obtain ⟨hseparated, hpassed⟩ := (h.perm_iff hn hnodup (hsplit hall)).mp hperm
    refine ⟨hall, hseparated, fun m hm => ?_⟩
    by_cases hkey : key m ≤ position
    · exact Or.inl hkey
    · exact Or.inr (hpassed m (mem_after.mpr ⟨hm, by omega⟩))
  · intro ⟨hall, hseparated, hback⟩
    refine (h.perm_iff hn hnodup (hsplit hall)).mpr ⟨hseparated, fun m hm => ?_⟩
    obtain ⟨hin, hkey⟩ := mem_after.mp hm
    exact (hback m hin).resolve_left (by omega)

end

end SocialActivities.Lib.Paging
