import SocialActivities.Budgets.Admission

/-!
# `SocialActivities.Budgets.Capacity`: the usage of the families

`Counted` is what the counting triggers keep: the capacity row of each family is the recount of
its rows, and within the maxima. `Counted.deleteRows_ok` shows that a deletion is never refused,
and `Counted.upsertRow_ok` that the second write of an admission is not: each victim frees a key
and an event of the family, and the write needs one of each at most.

`capacity_exact` is the statement about runs: exactness, which keys an admission evicts, and when
it is refused after its window check.
-/

namespace SocialActivities.Budgets

open Lib

/-- A family recounted. -/
def State.usage (s : State) (f : Family) : Usage where
  keys := s.rows.total (keysIn f)
  events := s.rows.total (eventsIn f)

/-- The capacity rows are exact and within the maxima, and every history has between 1 and 10000
events. -/
structure Counted (s : State) : Prop where
  recount : ∀ f : Family, s.capacity f = s.usage f
  within : ∀ f : Family, f.fits (s.usage f) = true
  bounded : ∀ k row, s.rows.get? k = some row → 1 ≤ row.events.length ∧ row.events.length ≤ 10000

/-- An admission under way keeps fewer events than its limit, and at most those that the row of its
key has under its account. -/
structure Continues (rows : KeyMap Key Budget) (k : Key) (a : Admission) : Prop where
  key : a.call.key = k
  room : (a.kept.length : Int) < a.call.limit
  limit : a.call.limit ≤ 10000
  kept : a.kept = [] ∨ ∃ row, rows.get? k = some row ∧ row.userId = a.call.user ∧
    a.kept.length ≤ row.events.length

/-- The invariant of the runs. -/
structure Accounted (s : State) : Prop extends Counted s where
  continues : ∀ k a, s.pending.get? k = some a → Continues s.rows k a

section
variable {s t : State} {d : Option Decision} {k : Key} {a : Admission}

variable {f : Family}

theorem fits_iff {u : Usage} :
    f.fits u = true ↔
      0 ≤ u.keys ∧ u.keys ≤ f.maxKeys ∧ 0 ≤ u.events ∧ u.events ≤ f.maxEvents := by
  simp [Family.fits, and_assoc]

variable {row : Budget}

theorem keysIn_of_eq (h : familyOf k row = f) : keysIn f k row = 1 :=
  if_pos h

theorem eventsIn_of_eq (h : familyOf k row = f) :
    eventsIn f k row = row.events.length :=
  if_pos h

/-! ### Deletions -/

theorem usage_removeIf (s : State) (gone : Key → Budget → Bool) (capacity : Family → Usage)
    (f : Family) :
    { s with rows := s.rows.removeIf gone, capacity : State }.usage f =
      s.usage f + delta (s.rows.entries.filter fun e => gone e.1 e.2) [] f := by
  have hkeys := s.rows.total_removeIf gone (keysIn f)
  have hevents := s.rows.total_removeIf gone (eventsIn f)
  ext
  · show (((s.rows.removeIf gone).total (keysIn f) : Nat) : Int) = s.rows.total (keysIn f) +
      ((KeyMap.weigh (keysIn f) [] : Nat) - _)
    simp only [KeyMap.weigh, List.map_nil, List.sum_nil] at hkeys ⊢
    omega
  · show (((s.rows.removeIf gone).total (eventsIn f) : Nat) : Int) = s.rows.total (eventsIn f) +
      ((KeyMap.weigh (eventsIn f) [] : Nat) - _)
    simp only [KeyMap.weigh, List.map_nil, List.sum_nil] at hevents ⊢
    omega

theorem Counted.fits_removeIf (hs : Counted s) (gone : Key → Budget → Bool)
    (capacity : Family → Usage) (f : Family) :
    f.fits ({ s with rows := s.rows.removeIf gone, capacity : State }.usage f) = true := by
  have hkeys := s.rows.total_removeIf gone (keysIn f)
  have hevents := s.rows.total_removeIf gone (eventsIn f)
  obtain ⟨-, hmaxKeys, -, hmaxEvents⟩ := fits_iff.mp (hs.within f)
  simp only [State.usage] at hmaxKeys hmaxEvents
  rw [fits_iff]
  simp only [State.usage]
  refine ⟨Int.natCast_nonneg _, ?_, Int.natCast_nonneg _, ?_⟩ <;> omega

variable {gone : Key → Budget → Bool}

theorem Counted.deleteRows (hs : Counted s) (h : deleteRows gone s = .ok t) : Counted t := by
  obtain ⟨capacity, hcount, rfl⟩ := deleteRows_eq_ok.mp h
  obtain ⟨-, hcapacity⟩ := goCountRateBudgets_eq_ok.mp hcount
  refine ⟨fun f => ?_, hs.fits_removeIf gone capacity, fun k row hget => ?_⟩
  · rw [usage_removeIf, ← hs.recount f]
    exact congrFun hcapacity f
  · exact hs.bounded k row (KeyMap.get?_of_removeIf hget)

theorem Counted.deleteRows_ok (hs : Counted s) (gone : Key → Budget → Bool) :
    ∃ t, Budgets.deleteRows gone s = .ok t := by
  refine ⟨_, deleteRows_eq_ok.mpr ⟨_, goCountRateBudgets_eq_ok.mpr ⟨fun f => Or.inr ?_, rfl⟩, rfl⟩⟩
  rw [hs.recount f, ← usage_removeIf s gone s.capacity f]
  exact hs.fits_removeIf gone s.capacity f

theorem rows_of_deleteRows (h : deleteRows gone s = .ok t) :
    t.rows = s.rows.removeIf gone ∧ t.pending = s.pending ∧ t.users = s.users := by
  obtain ⟨capacity, -, rfl⟩ := deleteRows_eq_ok.mp h
  exact ⟨rfl, rfl, rfl⟩

theorem get?_deleteRows (h : deleteRows gone s = .ok t)
    (hkept : ∀ row, s.rows.get? k = some row → gone k row = false) :
    t.rows.get? k = s.rows.get? k := by
  rw [(rows_of_deleteRows h).1, KeyMap.get?_removeIf]
  cases hget : s.rows.get? k with
  | none => rfl
  | some row => simp [Option.filter, hkept row hget]

/-! ### The write of an admission -/

theorem usage_set (s : State) (k : Key) (row : Budget) (capacity : Family → Usage) (f : Family) :
    { s with rows := s.rows.set k row, capacity : State }.usage f =
      s.usage f + delta ((s.rows.get? k).map (k, ·)).toList [(k, row)] f := by
  have hkeys := s.rows.total_set k row (keysIn f)
  have hevents := s.rows.total_set k row (eventsIn f)
  ext
  · simp only [State.usage, delta, Usage.keys_add]
    cases hget : s.rows.get? k with
    | none =>
      rw [hget] at hkeys
      simp [KeyMap.weigh] at hkeys ⊢
      omega
    | some old =>
      rw [hget] at hkeys
      simp [KeyMap.weigh] at hkeys ⊢
      omega
  · simp only [State.usage, delta, Usage.events_add]
    cases hget : s.rows.get? k with
    | none =>
      rw [hget] at hevents
      simp [KeyMap.weigh] at hevents ⊢
      omega
    | some old =>
      rw [hget] at hevents
      simp [KeyMap.weigh] at hevents ⊢
      omega

theorem rows_of_upsertRow (h : upsertRow a s = .ok t) :
    t.rows = s.rows.set a.call.key a.row ∧ t.pending = s.pending ∧ t.users = s.users := by
  obtain ⟨capacity, -, rfl⟩ := upsertRow_eq_ok.mp h
  exact ⟨rfl, rfl, rfl⟩

theorem Counted.upsertRow (hs : Counted s) (ha : Continues s.rows a.call.key a)
    (h : upsertRow a s = .ok t) : Counted t := by
  obtain ⟨capacity, hcount, rfl⟩ := upsertRow_eq_ok.mp h
  obtain ⟨hfits, hcapacity⟩ := goCountRateBudgets_eq_ok.mp hcount
  refine ⟨fun f => ?_, fun f => ?_, KeyMap.forall_set ?_ hs.bounded⟩
  · rw [usage_set, ← hs.recount f]
    exact congrFun hcapacity f
  · rw [usage_set]
    rcases hfits f with hzero | hfits
    · -- A family that the write does not change is as it was.
      have hsame : s.usage f + (⟨0, 0⟩ : Usage) = s.usage f := by
        ext <;> simp
      rw [hzero, hsame]
      exact hs.within f
    · rwa [hs.recount f] at hfits
  · have hroom := ha.room
    have hlimit := ha.limit
    show 1 ≤ (a.kept ++ [a.admittedAt]).length ∧ (a.kept ++ [a.admittedAt]).length ≤ 10000
    rw [List.length_append, List.length_singleton]
    omega

/-- A write takes at most one key and one event of the family of its call, and nothing of the
others. -/
theorem delta_upsertRow_le (ha : Continues s.rows a.call.key a) (f : Family) :
    (delta ((s.rows.get? a.call.key).map (a.call.key, ·)).toList [(a.call.key, a.row)] f).keys ≤
        (if goRateBudgetFamily a.call.key.scope a.call.user = f then 1 else 0) ∧
      (delta ((s.rows.get? a.call.key).map (a.call.key, ·)).toList [(a.call.key, a.row)] f).events ≤
        (if goRateBudgetFamily a.call.key.scope a.call.user = f then 1 else 0) := by
  simp only [delta, KeyMap.weigh, List.map_cons, List.map_nil, List.sum_cons, List.sum_nil,
    Nat.add_zero]
  by_cases hf : goRateBudgetFamily a.call.key.scope a.call.user = f
  · have hkeys : keysIn f a.call.key a.row = 1 := keysIn_of_eq hf
    have hevents : eventsIn f a.call.key a.row = a.row.events.length := eventsIn_of_eq hf
    rw [if_pos hf, hkeys, hevents]
    have hlength : (a.row.events.length : Int) = a.kept.length + 1 := by
      simp [Admission.row]
    refine ⟨by omega, ?_⟩
    rcases ha.kept with hnone | ⟨row, hget, huser, hle⟩
    · rw [hnone, List.length_nil] at hlength
      omega
    · -- The old row has the account of the call, so it is counted in the same family.
      have hold : familyOf a.call.key row = f := by
        rw [familyOf, huser]
        exact hf
      rw [hget]
      simp only [Option.map_some, Option.toList_some, List.map_cons, List.map_nil, List.sum_cons,
        List.sum_nil, Nat.add_zero, eventsIn_of_eq hold]
      omega
  · have hkeys : keysIn f a.call.key a.row = 0 := if_neg hf
    have hevents : eventsIn f a.call.key a.row = 0 := if_neg hf
    rw [if_neg hf, hkeys, hevents]
    omega

/-- A write with a key and an event of its family to spare is not refused. -/
theorem Counted.upsertRow_ok (hs : Counted s) (ha : Continues s.rows a.call.key a)
    (hspare : (s.usage (goRateBudgetFamily a.call.key.scope a.call.user)).keys + 1 ≤
        (goRateBudgetFamily a.call.key.scope a.call.user).maxKeys ∧
      (s.usage (goRateBudgetFamily a.call.key.scope a.call.user)).events + 1 ≤
        (goRateBudgetFamily a.call.key.scope a.call.user).maxEvents) :
    ∃ t, Budgets.upsertRow a s = .ok t := by
  refine ⟨_, upsertRow_eq_ok.mpr ⟨_, goCountRateBudgets_eq_ok.mpr ⟨fun f => Or.inr ?_, rfl⟩, rfl⟩⟩
  have hdelta := delta_upsertRow_le ha f
  have hafter := usage_set s a.call.key a.row s.capacity f
  obtain ⟨-, hmaxKeys, -, hmaxEvents⟩ := fits_iff.mp (hs.within f)
  -- A recount is never negative.
  have hkeys : 0 ≤ ({ s with rows := s.rows.set a.call.key a.row : State }.usage f).keys :=
    Int.natCast_nonneg _
  have hevents : 0 ≤ ({ s with rows := s.rows.set a.call.key a.row : State }.usage f).events :=
    Int.natCast_nonneg _
  rw [hs.recount f, fits_iff]
  rw [hafter] at hkeys hevents
  refine ⟨hkeys, ?_, hevents, ?_⟩
  · rw [Usage.keys_add]
    by_cases hf : goRateBudgetFamily a.call.key.scope a.call.user = f
    · subst hf
      rw [if_pos rfl] at hdelta
      omega
    · rw [if_neg hf] at hdelta
      omega
  · rw [Usage.events_add]
    by_cases hf : goRateBudgetFamily a.call.key.scope a.call.user = f
    · subst hf
      rw [if_pos rfl] at hdelta
      omega
    · rw [if_neg hf] at hdelta
      omega

/-! ### The window check and the eviction -/

variable {c : Call}

/-- What a passed check keeps: less than the limit, and nothing but events of the row of the key
under the account of the call. -/
theorem checkWindow_passed {clock : Int} {previous : Option Budget} {kept : List Int}
    {m : Int} (hvalid : c.valid = true) (h : checkWindow c clock previous = .passed kept m) :
    (kept.length : Int) < c.limit ∧ (kept = [] ∨ ∃ row, previous = some row ∧
      row.userId = c.user ∧ kept.length ≤ row.events.length) := by
  have hlimit : 1 ≤ c.limit := by
    simp only [Call.valid, Bool.and_eq_true, decide_eq_true_eq] at hvalid
    exact hvalid.1.1.1.2
  have hnil : (([] : List Int).length : Int) < c.limit := by
    rw [List.length_nil]
    omega
  cases previous with
  | none =>
    cases h
    exact ⟨hnil, Or.inl rfl⟩
  | some row =>
    simp only [checkWindow] at h
    split at h
    · split at h
      · cases h
      · rename_i hpolicy
        split at h
        · cases h
        · rename_i hroom
          cases h
          refine ⟨Int.not_le.mp hroom, Or.inr ⟨row, rfl, ?_, ?_⟩⟩
          · simp only [Bool.or_eq_true, bne_iff_ne, not_or, not_not] at hpolicy
            exact hpolicy.2
          · rw [Budget.kept, List.length_insertionSort]
            exact List.length_filter_le ..
    · cases h
      exact ⟨hnil, Or.inl rfl⟩

variable {locked : Key → Bool} {scan : Key → Nat}

theorem mem_victims {c : Call} (h : k ∈ s.victims locked scan c) :
    ∃ row, s.rows.get? k = some row ∧
      familyOf k row = goRateBudgetFamily c.key.scope c.user ∧ k ≠ c.key ∧
      s.held locked k = false := by
  obtain ⟨row, hget, hcandidate⟩ := mem_soonest h
  simp only [Bool.and_eq_true, beq_iff_eq, bne_iff_ne, Bool.not_eq_true'] at hcandidate
  exact ⟨row, hget, hcandidate.1.1, hcandidate.1.2, hcandidate.2⟩

theorem held_of_victims_eq_nil {c : Call}
    (h : s.victims locked scan c = []) (hget : s.rows.get? k = some row)
    (hfamily : familyOf k row = goRateBudgetFamily c.key.scope c.user) (hne : k ≠ c.key) :
    s.held locked k = true := by
  have hno := soonest_eq_nil (by decide) h hget
  simpa [hfamily, hne] using hno

/-- The eviction leaves a key and an event of the family to spare. -/
theorem Counted.spare_of_victims (hs : Counted s) {scan : Key → Nat}
    (hsome : s.victims locked scan c ≠ []) {u : State}
    (h : Budgets.deleteRows (fun j _ => (s.victims locked scan c).contains j) s = .ok u) :
    (u.usage (goRateBudgetFamily c.key.scope c.user)).keys + 1 ≤
        (goRateBudgetFamily c.key.scope c.user).maxKeys ∧
      (u.usage (goRateBudgetFamily c.key.scope c.user)).events + 1 ≤
        (goRateBudgetFamily c.key.scope c.user).maxEvents := by
  obtain ⟨k, hk⟩ := List.exists_mem_of_ne_nil _ hsome
  obtain ⟨row, hget, hfamily, -, -⟩ := mem_victims hk
  have hgone : (k, row) ∈ s.rows.entries.filter fun e =>
      (s.victims locked scan c).contains e.1 :=
    List.mem_filter.mpr ⟨KeyMap.mem_entries_iff.mpr hget, by simpa using hk⟩
  -- The victim counts for a key, and for at least one event.
  have hkey := KeyMap.weigh_pos (w := keysIn (goRateBudgetFamily c.key.scope c.user)) hgone
    (by rw [keysIn_of_eq hfamily]; exact Nat.one_pos)
  have hevent := KeyMap.weigh_pos (w := eventsIn (goRateBudgetFamily c.key.scope c.user)) hgone
    (by rw [eventsIn_of_eq hfamily]; exact (hs.bounded k row hget).1)
  have hkeys := s.rows.total_removeIf (fun j _ => (s.victims locked scan c).contains j)
    (keysIn (goRateBudgetFamily c.key.scope c.user))
  have hevents := s.rows.total_removeIf (fun j _ => (s.victims locked scan c).contains j)
    (eventsIn (goRateBudgetFamily c.key.scope c.user))
  obtain ⟨-, hmaxKeys, -, hmaxEvents⟩ :=
    fits_iff.mp (hs.within (goRateBudgetFamily c.key.scope c.user))
  simp only [State.usage, (rows_of_deleteRows h).1] at hmaxKeys hmaxEvents ⊢
  omega

/-! ### What a step keeps -/

theorem Continues.congr {rows rows' : KeyMap Key Budget} (h : Continues rows k a)
    (hrow : rows'.get? k = rows.get? k) : Continues rows' k a :=
  ⟨h.key, h.room, h.limit, by rw [hrow]; exact h.kept⟩

variable {j : Key}

theorem get?_finish :
    (s.finish k).pending.get? j = if j = k then none else s.pending.get? j := by
  show (s.pending.removeIf fun j _ => j == k).get? j = _
  rw [KeyMap.get?_removeIf]
  by_cases hj : j = k
  · rw [if_pos hj]
    cases s.pending.get? j <;> simp [hj]
  · rw [if_neg hj]
    cases s.pending.get? j <;> simp [hj]

theorem Accounted.finish (hs : Accounted s) {u : State} (hu : Counted u)
    (hpending : u.pending = s.pending)
    (hrows : ∀ j b, j ≠ k → s.pending.get? j = some b → u.rows.get? j = s.rows.get? j) :
    Accounted (u.finish k) := by
  refine ⟨⟨hu.recount, hu.within, hu.bounded⟩, fun j b hget => ?_⟩
  rw [get?_finish] at hget
  split at hget
  · cases hget
  · rename_i hj
    rw [hpending] at hget
    exact (hs.continues j b hget).congr (hrows j b hj hget)

theorem Accounted.deleteRows (hs : Accounted s)
    (hkept : ∀ j b row, s.pending.get? j = some b → s.rows.get? j = some row →
      gone j row = false) (h : Budgets.deleteRows gone s = .ok t) : Accounted t := by
  refine ⟨hs.toCounted.deleteRows h, fun j b hget => ?_⟩
  rw [(rows_of_deleteRows h).2.1] at hget
  exact (hs.continues j b hget).congr (get?_deleteRows h fun row hrow => hkept j b row hget hrow)

theorem not_pending_of_held (h : s.held locked k = false) :
    s.pending.get? k = none := by
  simp only [State.held, Bool.or_eq_false_iff] at h
  exact Option.isNone_iff_eq_none.mp (by simpa using h.2)

theorem Accounted.call (hs : Accounted s) {clock : Int}
    (h : s.call c clock = .ok (t, d)) : Accounted t := by
  obtain ⟨hvalid, -, ⟨r, -, rfl, -⟩ | ⟨kept, m, hcheck, rfl, -⟩⟩ := call_spec h
  · exact hs
  · obtain ⟨hroom, hkept⟩ := checkWindow_passed hvalid hcheck
    have hlimit : c.limit ≤ 10000 := by
      simp only [Call.valid, Bool.and_eq_true, decide_eq_true_eq] at hvalid
      exact hvalid.1.1.2
    exact ⟨⟨hs.recount, hs.within, hs.bounded⟩,
      KeyMap.forall_set ⟨rfl, hroom, hlimit, hkept⟩ hs.continues⟩

theorem Accounted.attempt (hs : Accounted s) (h : s.attempt k = .ok (t, d)) : Accounted t := by
  obtain ⟨a, hget, -, ⟨u, hup, rfl, -⟩ | ⟨-, rfl, -⟩⟩ := attempt_spec h
  · have ha := hs.continues k a hget
    obtain ⟨hrows, hpending, -⟩ := rows_of_upsertRow hup
    refine hs.finish (hs.toCounted.upsertRow (by rw [ha.key]; exact ha) hup) hpending ?_
    intro j b hj _
    rw [hrows, KeyMap.get?_set, ha.key, if_neg hj]
  · have ha := hs.continues k a hget
    exact ⟨⟨hs.recount, hs.within, hs.bounded⟩,
      KeyMap.forall_set ⟨ha.key, ha.room, ha.limit, ha.kept⟩ hs.continues⟩

/-- The second round of an admission: it has no victims, or it is allowed. -/
theorem Accounted.evict_cases (hs : Accounted s) {scan : Key → Nat}
    (h : s.evict k locked scan = .ok (t, d)) :
    ∃ a, s.pending.get? k = some a ∧
      ((s.victims locked scan a.call = [] ∧ t = s.finish k ∧ d = some (.denied 1000000)) ∨
        ∃ u v, Budgets.deleteRows (fun j _ => (s.victims locked scan a.call).contains j) s = .ok u ∧
          upsertRow a u = .ok v ∧ t = v.finish k ∧ d = some .allowed) := by
  obtain ⟨a, hget, ⟨hnone, rfl, rfl⟩ | ⟨hsome, u, hdelete, hwrite⟩⟩ := evict_spec h
  · exact ⟨a, hget, Or.inl ⟨hnone, rfl, rfl⟩⟩
  · have ha := hs.continues k a hget
    -- No victim is the key of the admission, so its row is as it was.
    have hrow : u.rows.get? a.call.key = s.rows.get? a.call.key :=
      get?_deleteRows hdelete fun row _ => by
        rw [List.contains_eq_mem, decide_eq_false_iff_not]
        intro hmem
        obtain ⟨-, -, -, hne, -⟩ := mem_victims hmem
        exact hne rfl
    have hcontinues : Continues u.rows a.call.key a := by
      rw [← ha.key] at ha
      exact ha.congr hrow
    obtain ⟨w, hw⟩ := (hs.toCounted.deleteRows hdelete).upsertRow_ok hcontinues
      (hs.toCounted.spare_of_victims hsome hdelete)
    rcases hwrite with ⟨v, hup, rfl, rfl⟩ | ⟨⟨e, hup⟩, -, -⟩
    · exact ⟨a, hget, Or.inr ⟨u, v, hdelete, hup, rfl, rfl⟩⟩
    · rw [hw] at hup
      cases hup

theorem Accounted.evict (hs : Accounted s) {scan : Key → Nat}
    (h : s.evict k locked scan = .ok (t, d)) : Accounted t := by
  obtain ⟨a, hget, ⟨-, rfl, -⟩ | ⟨u, v, hdelete, hup, rfl, -⟩⟩ := hs.evict_cases h
  · exact hs.finish hs.toCounted rfl fun _ _ _ _ => rfl
  · have ha := hs.continues k a hget
    have hu : Accounted u := hs.deleteRows (fun j b row hpending _ => by
      rw [List.contains_eq_mem, decide_eq_false_iff_not]
      intro hmem
      obtain ⟨-, -, -, -, hheld⟩ := mem_victims hmem
      rw [not_pending_of_held hheld] at hpending
      cases hpending) hdelete
    have hself := hu.continues k a (by rw [(rows_of_deleteRows hdelete).2.1]; exact hget)
    obtain ⟨hrows, hpending, -⟩ := rows_of_upsertRow hup
    refine hu.finish (hu.toCounted.upsertRow (by rw [hself.key]; exact hself) hup) hpending ?_
    intro j b hj _
    rw [hrows, KeyMap.get?_set, ha.key, if_neg hj]

theorem Accounted.prune (hs : Accounted s) {batch sweepAt : Int}
    (h : s.goPruneRateBudgets batch sweepAt locked scan = .ok t) :
    Accounted t := by
  unfold State.goPruneRateBudgets at h
  rw [seq_eq_ok] at h
  refine hs.deleteRows (fun j b row hpending _ => ?_) h.2
  rw [List.contains_eq_mem, decide_eq_false_iff_not]
  intro hmem
  obtain ⟨row, -, hcandidate⟩ := mem_soonest hmem
  rw [Bool.and_eq_true, Bool.not_eq_true'] at hcandidate
  rw [not_pending_of_held hcandidate.2] at hpending
  cases hpending

theorem Accounted.erase (hs : Accounted s) {user : Nat} (h : s.erase user = .ok t) :
    Accounted t := by
  unfold State.erase at h
  rw [seq_eq_ok, need_eq_ok, bind_eq_ok] at h
  obtain ⟨hfree, u, hdelete, h⟩ := h
  have hu : Accounted u := hs.deleteRows (fun j b row hpending hrow => by
    have hwaits := List.all_eq_true.mp hfree (j, b) (KeyMap.mem_entries_iff.mpr hpending)
    simp only [hrow, Option.all_some, Bool.and_eq_true, bne_iff_ne] at hwaits
    simpa using hwaits.2) hdelete
  rw [pure_eq_ok] at h
  subst h
  exact ⟨⟨hu.recount, hu.within, hu.bounded⟩, hu.continues⟩

theorem Accounted.truncate (h : s.truncate = .ok t) : Accounted t := by
  unfold State.truncate at h
  rw [seq_eq_ok, need_eq_ok, pure_eq_ok] at h
  obtain ⟨hfree, rfl⟩ := h
  have hnone : ∀ k, s.pending.get? k = none := by
    intro k
    cases hget : s.pending.get? k with
    | none => rfl
    | some =>
      rw [List.isEmpty_iff] at hfree
      have hmem := KeyMap.mem_entries_iff.mpr hget
      rw [hfree] at hmem
      cases hmem
  refine ⟨⟨fun f => rfl, fun f => ?_, fun k row hget => (by cases hget)⟩, fun k a hget => ?_⟩
  · show f.fits ⟨0, 0⟩ = true
    cases f <;> decide
  · rw [hnone k] at hget
    cases hget

theorem perform_silently {x : Except Error State} :
    State.silently x = .ok (t, d) ↔ x = .ok t ∧ d = none := by
  unfold State.silently
  rw [bind_eq_ok]
  simp only [pure_eq_ok, Prod.mk.injEq]
  constructor
  · rintro ⟨u, hu, rfl, rfl⟩
    exact ⟨hu, rfl⟩
  · rintro ⟨hu, rfl⟩
    exact ⟨t, hu, rfl, rfl⟩

variable {act : Act}

theorem Accounted.perform (hs : Accounted s) (h : s.perform act = .ok (t, d)) :
    Accounted t := by
  cases act with
  | signUp =>
    cases h
    exact ⟨⟨hs.recount, hs.within, hs.bounded⟩, hs.continues⟩
  | call => exact hs.call h
  | attempt => exact hs.attempt h
  | evict => exact hs.evict h
  | cancel =>
    cases h
    exact hs.finish hs.toCounted rfl fun _ _ _ _ => rfl
  | prune => exact hs.prune (perform_silently.mp h).1
  | erase => exact hs.erase (perform_silently.mp h).1
  | truncate => exact Accounted.truncate (perform_silently.mp h).1

theorem Accounted.step (hs : Accounted s) (act : Act) : Accounted (s.step act) := by
  unfold State.step
  split
  · rename_i hperform
    exact hs.perform hperform
  · exact hs

theorem accounted_empty : Accounted State.empty :=
  ⟨⟨fun f => rfl, fun f => by cases f <;> decide, fun k row hget => (by cases hget)⟩,
    fun k a hget => (by cases hget)⟩

theorem accounted_run (acts : List Act) : Accounted (Machine.run State.step State.empty acts) :=
  Machine.run_invariant (fun _ act hs => hs.step act) accounted_empty acts

/-! ### Evictions and refusals -/

/-- The key of the admission that an action is a part of. -/
def Act.admits : Act → Option Key
  | .call c _ => some c.key
  | .attempt k => some k
  | .evict k _ _ => some k
  | _ => none

theorem step_of_ok (h : s.perform act = .ok (t, d)) :
    s.step act = t ∧ s.decision act = d := by
  unfold State.step State.decision
  rw [h]
  exact ⟨rfl, rfl⟩

theorem step_of_error {e : Error} (h : s.perform act = .error e) :
    s.step act = s ∧ s.decision act = none := by
  unfold State.step State.decision
  rw [h]
  exact ⟨rfl, rfl⟩

theorem get?_upsertRow_none (h : upsertRow a s = .ok t)
    (hget : s.rows.get? j = some row) : t.rows.get? j ≠ none := by
  rw [(rows_of_upsertRow h).1, KeyMap.get?_set]
  split
  · simp
  · rw [hget]
    simp

theorem Accounted.evicted (hs : Accounted s) (hact : act.admits = some k)
    (hget : s.rows.get? j = some row) (hgone : (s.step act).rows.get? j = none) :
    ∃ a, s.pending.get? k = some a ∧
      familyOf j row = goRateBudgetFamily a.call.key.scope a.call.user ∧ j ≠ k := by
  cases hperform : s.perform act with
  | error =>
    rw [(step_of_error hperform).1, hget] at hgone
    cases hgone
  | ok =>
    rw [(step_of_ok hperform).1] at hgone
    cases act with
    | call =>
      obtain ⟨-, -, ⟨_, -, hsame, -⟩ | ⟨_, _, -, hsame, -⟩⟩ := call_spec hperform
      all_goals
        rw [hsame, hget] at hgone
        cases hgone
    | attempt =>
      obtain ⟨a, -, -, ⟨u, hup, hsame, -⟩ | ⟨-, hsame, -⟩⟩ := attempt_spec hperform
      · rw [hsame] at hgone
        exact absurd hgone (get?_upsertRow_none (t := u) hup hget)
      · rw [hsame, hget] at hgone
        cases hgone
    | evict i locked scan =>
      cases hact
      obtain ⟨a, hpending, ⟨-, hsame, -⟩ | ⟨u, v, hdelete, hup, hsame, -⟩⟩ :=
        hs.evict_cases hperform
      · rw [hsame] at hgone
        exact absurd (hget.symm.trans hgone) (by simp)
      · rw [hsame] at hgone
        -- The row was gone before the write, so it is one of the victims.
        have hvictim : j ∈ s.victims locked scan a.call := by
          by_contra hno
          have hleft := get?_deleteRows hdelete (k := j) fun _ _ => by simpa using hno
          exact get?_upsertRow_none hup (hleft.trans hget) hgone
        obtain ⟨row', hget', hfamily, hne, -⟩ := mem_victims hvictim
        rw [hget] at hget'
        cases hget'
        exact ⟨a, hpending, hfamily, by rwa [(hs.continues k a hpending).key] at hne⟩
    | _ => cases hact

theorem decision_attempt (s : State) (k : Key) :
    s.decision (.attempt k) = some .allowed ∨ s.decision (.attempt k) = none := by
  cases hperform : s.perform (.attempt k) with
  | error => exact Or.inr (step_of_error hperform).2
  | ok =>
    rw [(step_of_ok hperform).2]
    obtain ⟨a, -, -, ⟨u, -, -, hd⟩ | ⟨-, -, hd⟩⟩ := attempt_spec hperform
    · exact Or.inl hd
    · exact Or.inr hd

theorem Accounted.evict_answers (hs : Accounted s) (locked : Key → Bool) (scan : Key → Nat)
    (hget : s.pending.get? k = some a) (hfull : a.full = true) :
    ∃ r, s.evict k locked scan = .ok r := by
  have hpending : (s.pending.get? k).elim (.error Error.waiting) .ok =
      (.ok a : Except Error Admission) := by
    rw [hget]
    rfl
  by_cases hnone : s.victims locked scan a.call = []
  · refine ⟨(s.finish k, some (.denied 1000000)), ?_⟩
    refine bind_eq_ok.mpr ⟨a, hpending, seq_eq_ok.mpr ⟨need_eq_ok.mpr hfull, ?_⟩⟩
    exact if_pos (by simpa using hnone)
  · obtain ⟨u, hu⟩ := hs.toCounted.deleteRows_ok
      fun j _ => (s.victims locked scan a.call).contains j
    have hlet : ∀ r, _ → s.evict k locked scan = .ok r := fun r hwrite =>
      bind_eq_ok.mpr ⟨a, hpending, seq_eq_ok.mpr ⟨need_eq_ok.mpr hfull,
        (if_neg (by simpa using hnone)).trans (bind_eq_ok.mpr ⟨u, hu, hwrite⟩)⟩⟩
    cases hrow : upsertRow a u with
    | ok v => exact ⟨(v.finish k, some .allowed), hlet _ (by rw [hrow]; rfl)⟩
    | error e => exact ⟨(u.finish k, some (.denied 1000000)), hlet _ (by rw [hrow]; rfl)⟩

/-- The second round answers, and it refuses only when every other key of the family is held. -/
theorem Accounted.decision_evict (hs : Accounted s) (locked : Key → Bool) (scan : Key → Nat)
    (hget : s.pending.get? k = some a) (hfull : a.full = true) :
    s.decision (.evict k locked scan) = some .allowed ∨
      (∃ r, s.decision (.evict k locked scan) = some (.denied r)) ∧
        ∀ j row, s.rows.get? j = some row →
          familyOf j row = goRateBudgetFamily a.call.key.scope a.call.user → j ≠ k →
            s.held locked j = true := by
  obtain ⟨r, hanswer⟩ := hs.evict_answers locked scan hget hfull
  have hperform : s.perform (.evict k locked scan) = .ok (r.1, r.2) := hanswer
  rw [(step_of_ok hperform).2]
  obtain ⟨b, hb, ⟨hnone, -, hd⟩ | ⟨-, -, -, -, -, hd⟩⟩ := hs.evict_cases hperform
  · rw [hget] at hb
    cases hb
    refine Or.inr ⟨⟨_, hd⟩, fun j row hrow hfamily hne => ?_⟩
    exact held_of_victims_eq_nil hnone hrow hfamily (by rw [(hs.continues k a hget).key]; exact hne)
  · exact Or.inl hd

end

/-- In every committed state the capacity rows are the recount of the histories, within the maxima.
An admission evicts only keys of its own family, and never its own. Once its window check is
passed, it is refused only when all other keys of its family are held. -/
theorem capacity_exact (acts : List Act) :
    (∀ f : Family, (Machine.run State.step State.empty acts).capacity f =
        (Machine.run State.step State.empty acts).usage f ∧
      f.fits ((Machine.run State.step State.empty acts).usage f) = true) ∧
    ∀ p ∈ Machine.steps State.step State.empty acts, ∀ k,
      (p.2.admits = some k → ∀ j row, p.1.rows.get? j = some row →
        (p.1.step p.2).rows.get? j = none →
          ∃ a, p.1.pending.get? k = some a ∧
            familyOf j row = goRateBudgetFamily a.call.key.scope a.call.user ∧ j ≠ k) ∧
      (p.2 = .attempt k → p.1.decision p.2 = some .allowed ∨ p.1.decision p.2 = none) ∧
      ∀ a locked scan, p.1.pending.get? k = some a → a.full = true → p.2 = .evict k locked scan →
        p.1.decision p.2 = some .allowed ∨
          (∃ r, p.1.decision p.2 = some (.denied r)) ∧
            ∀ j row, p.1.rows.get? j = some row →
              familyOf j row = goRateBudgetFamily a.call.key.scope a.call.user → j ≠ k →
                p.1.held locked j = true := by
  have hrun := accounted_run acts
  refine ⟨fun f => ⟨hrun.recount f, hrun.within f⟩, fun p hp k => ?_⟩
  have hs : Accounted p.1 :=
    @Machine.steps_invariant _ _ State.step Accounted (fun _ act hs => hs.step act) _
      accounted_empty acts p hp
  refine ⟨fun hact j row hget hgone => hs.evicted hact hget hgone, fun hact => ?_, ?_⟩
  · rw [hact]
    exact decision_attempt p.1 k
  · intro a locked scan hget hfull hact
    rw [hact]
    exact hs.decision_evict locked scan hget hfull

end SocialActivities.Budgets
