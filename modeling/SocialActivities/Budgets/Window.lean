import SocialActivities.Budgets.Capacity

/-!
# `SocialActivities.Budgets.Window`: the sliding window of a key

`recorded` is the log of a key: the time of each admission that a run has recorded for it, in
order. The row of the key has the end of the log, and what is before that has left the window of
the last admission (`Windowed.stored`). So the window check counts the log (`checkWindow_eq`), and
the windows of the log are bounded.

A sweep deletes a history that has expired at its own clock reading. When the clock steps back
after that, the next call finds no row and starts a new history, although the old one is still in
its window. `Regular` leaves such runs out. `full_family_refuses` is the other case of a call that
is refused without a full window: nothing of its family can be evicted.
-/

namespace SocialActivities.Budgets

open Lib

/-- The admissions of a log in the half-open window of a length that ends at a time. -/
def within (windowUs x : Int) (log : List Int) : List Int :=
  log.filter fun e => decide (x - windowUs < e) && decide (e ≤ x)

/-- The later one of the clock and the last admission. -/
def latest (log : List Int) (clock : Int) : Int := log.getLast?.elim clock (max clock)

/-- The time that a step records for a key. -/
def State.records (k : Key) (s : State) (act : Act) : Option Int :=
  if s.decision act = some .allowed ∧ act.admits = some k then
    (s.pending.get? k).map Admission.admittedAt
  else none

/-- The admissions that a run records for a key. -/
def recorded (k : Key) (acts : List Act) : List Int :=
  Machine.emitted State.step (State.records k) State.empty acts

/-- The state after a run. -/
def after (acts : List Act) : State := Machine.run State.step State.empty acts

/-- The calls of the key have one policy and one account. -/
def Fixed (k : Key) (user : Option Nat) (limit windowUs : Int) (act : Act) : Prop :=
  ∀ c clock, act = .call c clock → c.key = k →
    c.user = user ∧ c.limit = limit ∧ c.windowUs = windowUs

/-- A call that finds no row of the key reads a clock at which the admissions on record have left
the window. -/
def Swept (k : Key) (windowUs : Int) (s : State) (act : Act) (log : List Int) : Prop :=
  ∀ c clock, act = .call c clock → c.key = k → (∃ r, s.perform act = .ok r) →
    s.rows.get? k = none → ∀ e ∈ log, e + windowUs ≤ clock

/-- The runs that the results are about. -/
structure Regular (k : Key) (user : Option Nat) (limit windowUs : Int) (acts : List Act) :
    Prop where
  valid : 1 ≤ limit
  fixed : ∀ act ∈ acts, Fixed k user limit windowUs act
  swept : ∀ before act rest, acts = before ++ act :: rest →
    Swept k windowUs (after before) act (recorded k before)

/-! ### Logs and windows -/

section
variable {windowUs x m clock : Int} {log : List Int}

theorem within_of_le (h : ∀ e ∈ log, e ≤ x) :
    within windowUs x log = log.filter fun e => decide (x - windowUs < e) := by
  unfold within
  refine List.filter_congr fun e he => ?_
  simp [h e he]

theorem within_append (log log' : List Int) :
    within windowUs x (log ++ log') = within windowUs x log ++ within windowUs x log' :=
  List.filter_append ..

theorem within_eq_nil (h : ∀ e ∈ log, e ≤ x - windowUs) : within windowUs x log = [] := by
  refine List.filter_eq_nil_iff.mpr fun e he => ?_
  have hle := h e he
  simp only [Bool.and_eq_true, decide_eq_true_eq, not_and]
  omega

theorem eq_append_filter (hsorted : log.Pairwise (· ≤ ·)) (b : Int) :
    log = log.filter (fun e => decide (e ≤ b)) ++ log.filter fun e => decide (b < e) := by
  induction log with
  | nil => rfl
  | cons e es ih =>
    obtain ⟨hfirst, hsorted⟩ := List.pairwise_cons.mp hsorted
    by_cases he : e ≤ b
    · rw [List.filter_cons_of_pos (by simpa using he), List.filter_cons_of_neg (by simpa using he),
        List.cons_append, ← ih hsorted]
    · -- The first one is in the window, so all are.
      have hall : ∀ d ∈ es, b < d := fun d hd => by
        have := hfirst d hd
        omega
      have hnone : es.filter (fun d => decide (d ≤ b)) = [] :=
        List.filter_eq_nil_iff.mpr fun d hd => by simpa using hall d hd
      have hsome : es.filter (fun d => decide (b < d)) = es :=
        List.filter_eq_self.mpr fun d hd => by simpa using hall d hd
      rw [List.filter_cons_of_neg (by simpa using he), List.filter_cons_of_pos (by simpa using he),
        hnone, hsome, List.nil_append]

theorem le_latest (h : ∀ e ∈ log, ∀ l, log.getLast? = some l → e ≤ l) (clock : Int) :
    clock ≤ latest log clock ∧ ∀ e ∈ log, e ≤ latest log clock := by
  unfold latest
  cases hlast : log.getLast? with
  | none =>
    rw [List.getLast?_eq_none_iff.mp hlast]
    exact ⟨Int.le_refl _, fun e he => (by cases he)⟩
  | some l =>
    refine ⟨Int.le_max_left .., fun e he => ?_⟩
    exact Int.le_trans (h e he l hlast) (Int.le_max_right ..)

theorem le_getLast? (hsorted : log.Pairwise (· ≤ ·)) :
    ∀ e ∈ log, ∀ l, log.getLast? = some l → e ≤ l := by
  intro e he l hlast
  obtain ⟨front, rfl⟩ := List.getLast?_eq_some_iff.mp hlast
  rcases List.mem_append.mp he with he | he
  · exact (List.pairwise_append.mp hsorted).2.2 e he l (List.mem_singleton_self l)
  · rw [List.mem_singleton.mp he]

/-- Windows stay bounded when an admission is added that is not before the others, and whose own
window had room. -/
theorem within_concat_le {limit : Int} (hbounded : ∀ x, ((within windowUs x log).length : Int) ≤ limit)
    (hlast : ∀ e ∈ log, e ≤ m) (hroom : ((within windowUs m log).length : Int) < limit) (x : Int) :
    ((within windowUs x (log ++ [m])).length : Int) ≤ limit := by
  rw [within_append, List.length_append]
  by_cases hm : x - windowUs < m ∧ m ≤ x
  · -- The log in this window is in the window of the new admission as well.
    have hsub : (within windowUs x log).length ≤ (within windowUs m log).length := by
      rw [within_of_le hlast, within_of_le fun e he => Int.le_trans (hlast e he) hm.2]
      refine (List.monotone_filter_right log fun e he => ?_).length_le
      simp only [decide_eq_true_eq] at he ⊢
      omega
    have hone : (within windowUs x [m]).length ≤ 1 := List.length_filter_le ..
    omega
  · have hnone : within windowUs x [m] = [] := by
      refine List.filter_eq_nil_iff.mpr fun e he => ?_
      rw [List.mem_singleton.mp he]
      simpa using hm
    rw [hnone, List.length_nil]
    exact_mod_cast hbounded x

end

/-! ### The history of a key -/

/-- What the row of a key has: the end of its log, in order, with everything before it outside of
the window of the last admission. -/
structure Stored (user : Option Nat) (limit windowUs : Int) (row : Budget) (log : List Int) :
    Prop where
  policy : row.userId = user ∧ row.policyLimit = limit ∧ row.windowUs = windowUs
  sorted : row.events.Pairwise (· ≤ ·)
  suffix : ∃ old last, log = old ++ row.events ∧ row.events.getLast? = some last ∧
    row.expiresAt = last + windowUs ∧ ∀ e ∈ old, e ≤ last - windowUs

/-- What an admission under way has: the window of its time, with room for it. -/
structure Underway (user : Option Nat) (limit windowUs : Int) (a : Admission) (log : List Int) :
    Prop where
  policy : a.call.user = user ∧ a.call.limit = limit ∧ a.call.windowUs = windowUs
  kept : a.kept = within windowUs a.admittedAt log
  last : ∀ e ∈ log, e ≤ a.admittedAt
  room : (a.kept.length : Int) < limit

/-- The invariant: the log of a key and what the state has of it. -/
structure Windowed (k : Key) (user : Option Nat) (limit windowUs : Int) (s : State)
    (log : List Int) : Prop where
  sorted : log.Pairwise (· ≤ ·)
  bounded : ∀ x, ((within windowUs x log).length : Int) ≤ limit
  stored : ∀ row, s.rows.get? k = some row → Stored user limit windowUs row log
  underway : ∀ a, s.pending.get? k = some a → Underway user limit windowUs a log

section
variable {k : Key} {user : Option Nat} {limit windowUs : Int} {s t : State} {d : Option Decision}
  {log : List Int} {c : Call} {clock : Int} {row : Budget}

theorem Stored.admittedAt (h : Stored user limit windowUs row log) (clock : Int) :
    row.admittedAt clock = latest log clock := by
  obtain ⟨old, last, hlog, hlast, -, -⟩ := h.suffix
  unfold Budget.admittedAt latest
  rw [hlog, List.getLast?_append, hlast]
  rfl

theorem Stored.kept (h : Stored user limit windowUs row log) (hsorted : log.Pairwise (· ≤ ·))
    (clock : Int) :
    row.kept (latest log clock) windowUs = within windowUs (latest log clock) log := by
  obtain ⟨hclock, hle⟩ := le_latest (le_getLast? hsorted) clock
  obtain ⟨old, last, hlog, hlast, -, hold⟩ := h.suffix
  have hm : last ≤ latest log clock :=
    hle last (hlog ▸ List.mem_append_right _ (List.mem_of_getLast? hlast))
  have hnil : old.filter (fun e => decide (latest log clock - windowUs < e)) = [] :=
    List.filter_eq_nil_iff.mpr fun e he => by
      have := hold e he
      simp only [decide_eq_true_eq]
      omega
  have hsplit : ∀ p : Int → Bool, log.filter p = old.filter p ++ row.events.filter p := by
    intro p
    rw [hlog, List.filter_append]
  rw [within_of_le hle, hsplit, hnil, List.nil_append]
  exact (h.sorted.sublist List.filter_sublist).insertionSort_eq

theorem Stored.expired (h : Stored user limit windowUs row log) (hsorted : log.Pairwise (· ≤ ·))
    (hexpired : row.expiresAt ≤ clock) : ∀ e ∈ log, e + windowUs ≤ clock := by
  obtain ⟨old, last, hlog, hlast, hexpires, -⟩ := h.suffix
  intro e he
  have hle := le_getLast? hsorted e he last (by rw [hlog, List.getLast?_append, hlast]; rfl)
  omega

theorem within_latest_eq_nil (hwindow : 0 < windowUs) (h : ∀ e ∈ log, e + windowUs ≤ clock) :
    latest log clock = clock ∧ within windowUs (latest log clock) log = [] := by
  have hlatest : latest log clock = clock := by
    unfold latest
    cases hlast : log.getLast? with
    | none => rfl
    | some l =>
      have := h l (List.mem_of_getLast? hlast)
      exact Int.max_eq_left (by omega)
  refine ⟨hlatest, within_eq_nil fun e he => ?_⟩
  have := h e he
  omega

/-- The window check counts the admissions on record in the window that ends at the later one of
the clock and the last admission. -/
theorem Windowed.checkWindow_eq (hs : Windowed k user limit windowUs s log)
    (hvalid : c.valid = true) (hpolicy : c.user = user ∧ c.limit = limit ∧ c.windowUs = windowUs)
    (hswept : s.rows.get? k = none → ∀ e ∈ log, e + windowUs ≤ clock) :
    checkWindow c clock (s.rows.get? k) =
      if limit ≤ (within windowUs (latest log clock) log).length then
        .denied ((within windowUs (latest log clock) log).head?.elim 1000000 fun first =>
          max 1000000 (first + windowUs - latest log clock))
      else .passed (within windowUs (latest log clock) log) (latest log clock) := by
  obtain ⟨rfl, rfl, rfl⟩ := hpolicy
  simp only [Call.valid, Bool.and_eq_true, decide_eq_true_eq] at hvalid
  have hempty : (∀ e ∈ log, e + c.windowUs ≤ clock) →
      Verdict.passed [] clock =
        if c.limit ≤ (within c.windowUs (latest log clock) log).length then
          .denied ((within c.windowUs (latest log clock) log).head?.elim 1000000 fun first =>
            max 1000000 (first + c.windowUs - latest log clock))
        else .passed (within c.windowUs (latest log clock) log) (latest log clock) := by
    intro hleft
    obtain ⟨hlatest, hnil⟩ := within_latest_eq_nil (by omega) hleft
    rw [hnil, hlatest, if_neg (by rw [List.length_nil]; omega)]
  cases hget : s.rows.get? k with
  | none => exact hempty (hswept hget)
  | some row =>
    have hrow := hs.stored row hget
    simp only [checkWindow]
    by_cases hlive : clock < row.expiresAt
    · rw [if_pos hlive, hrow.policy.1, hrow.policy.2.1, hrow.policy.2.2]
      simp only [bne_self_eq_false, Bool.or_self, Bool.false_eq_true, if_false]
      rw [hrow.admittedAt, hrow.kept hs.sorted]
    · rw [if_neg hlive]
      exact hempty (hrow.expired hs.sorted (Int.not_lt.mp hlive))

variable {a : Admission}

theorem Windowed.write (hs : Windowed k user limit windowUs s log)
    (ha : Underway user limit windowUs a log) (hrow : t.rows.get? k = some a.row)
    (hpending : t.pending.get? k = none) :
    Windowed k user limit windowUs t (log ++ [a.admittedAt]) := by
  have hkept : a.kept = log.filter fun e => decide (a.admittedAt - windowUs < e) := by
    rw [ha.kept, within_of_le ha.last]
  refine ⟨?_, within_concat_le hs.bounded ha.last ?_, fun row hget => ?_, fun b hget => ?_⟩
  · refine List.pairwise_append.mpr ⟨hs.sorted, List.pairwise_singleton .., fun e he l hl => ?_⟩
    rw [List.mem_singleton.mp hl]
    exact ha.last e he
  · rw [← ha.kept]
    exact ha.room
  · rw [hrow] at hget
    cases hget
    refine ⟨ha.policy, ?_, log.filter (fun e => decide (e ≤ a.admittedAt - windowUs)),
      a.admittedAt, ?_, ?_, ?_, fun e he => ?_⟩
    · refine List.pairwise_append.mpr ⟨?_, List.pairwise_singleton .., fun e he l hl => ?_⟩
      · rw [hkept]
        exact hs.sorted.sublist List.filter_sublist
      · rw [List.mem_singleton.mp hl]
        rw [hkept] at he
        exact ha.last e (List.mem_of_mem_filter he)
    · show log ++ [a.admittedAt] = _ ++ (a.kept ++ [a.admittedAt])
      rw [← List.append_assoc, hkept, ← eq_append_filter hs.sorted]
    · exact List.getLast?_concat ..
    · rw [← ha.policy.2.2]
      rfl
    · simpa using (List.mem_filter.mp he).2
  · rw [hpending] at hget
    cases hget

/-! ### What a step keeps -/

theorem Windowed.frame (hs : Windowed k user limit windowUs s log)
    (hrow : t.rows.get? k = s.rows.get? k ∨ t.rows.get? k = none)
    (hpending : t.pending.get? k = s.pending.get? k ∨ t.pending.get? k = none) :
    Windowed k user limit windowUs t log := by
  refine ⟨hs.sorted, hs.bounded, fun row hget => ?_, fun a hget => ?_⟩
  · rcases hrow with hsame | hnone
    · exact hs.stored row (by rw [← hsame, hget])
    · rw [hnone] at hget
      cases hget
  · rcases hpending with hsame | hnone
    · exact hs.underway a (by rw [← hsame, hget])
    · rw [hnone] at hget
      cases hget

theorem get?_deleteRows_or {gone : Key → Budget → Bool} (h : deleteRows gone s = .ok t) :
    t.rows.get? k = s.rows.get? k ∨ t.rows.get? k = none := by
  rw [(rows_of_deleteRows h).1, KeyMap.get?_removeIf]
  cases s.rows.get? k with
  | none => exact Or.inl rfl
  | some row =>
    cases hgone : gone k row with
    | true => exact Or.inr (by simp [Option.filter, hgone])
    | false => exact Or.inl (by simp [Option.filter, hgone])

variable {act : Act}

theorem records_eq_none (h : s.decision act ≠ some .allowed ∨ act.admits ≠ some k) :
    s.records k act = none := by
  unfold State.records
  rw [if_neg (not_and_or.mpr h)]

theorem records_eq_some (hdecision : s.decision act = some .allowed)
    (hact : act.admits = some k) (hget : s.pending.get? k = some a) :
    s.records k act = some a.admittedAt := by
  unfold State.records
  rw [if_pos ⟨hdecision, hact⟩, hget]
  rfl

theorem rows_of_erase {user : Nat} (h : s.erase user = .ok t) :
    ∃ u, deleteRows (fun _ row => row.userId == some user) s = .ok u ∧ t.rows = u.rows ∧
      t.pending = s.pending := by
  unfold State.erase at h
  rw [seq_eq_ok, bind_eq_ok] at h
  obtain ⟨-, u, hdelete, h⟩ := h
  rw [pure_eq_ok] at h
  subst h
  exact ⟨u, hdelete, rfl, (rows_of_deleteRows hdelete).2.1⟩

theorem Windowed.other (hs : Windowed k user limit windowUs s log)
    (hact : act.admits ≠ some k) (h : s.perform act = .ok (t, d)) (hacc : Accounted s) :
    Windowed k user limit windowUs t log := by
  cases act with
  | signUp =>
    cases h
    exact hs.frame (Or.inl rfl) (Or.inl rfl)
  | call c =>
    have hne : k ≠ c.key := fun heq => hact (by rw [heq]; rfl)
    obtain ⟨-, -, ⟨_, -, rfl, -⟩ | ⟨kept, m, -, rfl, -⟩⟩ := call_spec h
    · exact hs
    · exact hs.frame (Or.inl rfl) (Or.inl (by simp [KeyMap.get?_set, hne]))
  | attempt j =>
    have hne : k ≠ j := fun heq => hact (by rw [heq]; rfl)
    obtain ⟨a, hget, -, ⟨u, hup, rfl, -⟩ | ⟨-, rfl, -⟩⟩ := attempt_spec h
    · obtain ⟨hrows, hpending, -⟩ := rows_of_upsertRow hup
      refine hs.frame (Or.inl ?_) (Or.inl ?_)
      · show u.rows.get? k = _
        rw [hrows, KeyMap.get?_set, (hacc.continues j a hget).key, if_neg hne]
      · rw [get?_finish, if_neg hne, hpending]
    · exact hs.frame (Or.inl rfl) (Or.inl (by simp [KeyMap.get?_set, hne]))
  | evict j =>
    have hne : k ≠ j := fun heq => hact (by rw [heq]; rfl)
    obtain ⟨a, hget, ⟨-, rfl, -⟩ | ⟨u, v, hdelete, hup, rfl, -⟩⟩ := hacc.evict_cases h
    · exact hs.frame (Or.inl rfl) (Or.inl (by rw [get?_finish, if_neg hne]))
    · obtain ⟨hrows, hpending, -⟩ := rows_of_upsertRow hup
      refine hs.frame ?_ (Or.inl ?_)
      · have hsame : (v.finish j).rows.get? k = u.rows.get? k := by
          show v.rows.get? k = _
          rw [hrows, KeyMap.get?_set, (hacc.continues j a hget).key, if_neg hne]
        rw [hsame]
        exact get?_deleteRows_or hdelete
      · rw [get?_finish, if_neg hne, hpending, (rows_of_deleteRows hdelete).2.1]
  | cancel =>
    cases h
    refine hs.frame (Or.inl rfl) ?_
    rw [get?_finish]
    split
    · exact Or.inr rfl
    · exact Or.inl rfl
  | prune =>
    have hprune := (perform_silently.mp h).1
    unfold State.goPruneRateBudgets at hprune
    rw [seq_eq_ok] at hprune
    exact hs.frame (get?_deleteRows_or hprune.2)
      (Or.inl (by rw [(rows_of_deleteRows hprune.2).2.1]))
  | erase =>
    obtain ⟨v, hdelete, hrows, hpending⟩ := rows_of_erase (perform_silently.mp h).1
    refine hs.frame ?_ (Or.inl (by rw [hpending]))
    rw [hrows]
    exact get?_deleteRows_or hdelete
  | truncate =>
    have htruncate := (perform_silently.mp h).1
    unfold State.truncate at htruncate
    rw [seq_eq_ok, pure_eq_ok] at htruncate
    obtain ⟨-, rfl⟩ := htruncate
    exact hs.frame (Or.inr rfl) (Or.inl rfl)

/-- A call of the key is denied, or its admission is under way. -/
theorem Windowed.call (hs : Windowed k user limit windowUs s log) (hkey : c.key = k)
    (hpolicy : c.user = user ∧ c.limit = limit ∧ c.windowUs = windowUs)
    (hswept : s.rows.get? k = none → ∀ e ∈ log, e + windowUs ≤ clock)
    (h : s.call c clock = .ok (t, d)) :
    (limit ≤ (within windowUs (latest log clock) log).length ∧ t = s ∧
      d = some (.denied ((within windowUs (latest log clock) log).head?.elim 1000000 fun first =>
        max 1000000 (first + windowUs - latest log clock)))) ∨
    ((within windowUs (latest log clock) log).length : Int) < limit ∧
      t = { s with pending := s.pending.set k (Admission.mk c
        (within windowUs (latest log clock) log) (latest log clock) false) } ∧ d = none := by
  subst hkey
  obtain ⟨hvalid, -, hcases⟩ := call_spec h
  have hcheck := hs.checkWindow_eq hvalid hpolicy hswept
  by_cases hfull : limit ≤ (within windowUs (latest log clock) log).length
  · rw [if_pos hfull] at hcheck
    rcases hcases with ⟨r, hr, rfl, rfl⟩ | ⟨kept, m, hpassed, -, -⟩
    · rw [hcheck] at hr
      cases hr
      exact Or.inl ⟨hfull, rfl, rfl⟩
    · rw [hcheck] at hpassed
      cases hpassed
  · rw [if_neg hfull] at hcheck
    rcases hcases with ⟨r, hr, -, -⟩ | ⟨kept, m, hpassed, rfl, rfl⟩
    · rw [hcheck] at hr
      cases hr
    · rw [hcheck] at hpassed
      cases hpassed
      exact Or.inr ⟨Int.not_le.mp hfull, rfl, rfl⟩

theorem Windowed.perform (hs : Windowed k user limit windowUs s log) (hacc : Accounted s)
    (hfixed : Fixed k user limit windowUs act) (hswept : Swept k windowUs s act log)
    (h : s.perform act = .ok (t, d)) :
    Windowed k user limit windowUs t (log ++ (s.records k act).toList) := by
  have hdecision := (step_of_ok h).2
  by_cases hact : act.admits = some k
  · cases act with
    | call c clock =>
      have hkey : c.key = k := Option.some.inj hact
      have hpolicy := hfixed c clock rfl hkey
      rcases hs.call hkey hpolicy (hswept c clock rfl hkey ⟨_, h⟩) h with
        ⟨-, rfl, hd⟩ | ⟨hroom, rfl, hd⟩
      · rw [records_eq_none (Or.inl (by rw [hdecision, hd]; simp)), Option.toList_none,
          List.append_nil]
        exact hs
      · rw [records_eq_none (Or.inl (by rw [hdecision, hd]; simp)), Option.toList_none,
          List.append_nil]
        refine ⟨hs.sorted, hs.bounded, hs.stored, fun a hget => ?_⟩
        rw [KeyMap.get?_set, if_pos rfl] at hget
        cases hget
        exact ⟨hpolicy, rfl, (le_latest (le_getLast? hs.sorted) clock).2, hroom⟩
    | attempt =>
      cases hact
      obtain ⟨a, hget, -, ⟨u, hup, rfl, rfl⟩ | ⟨-, rfl, rfl⟩⟩ := attempt_spec h
      · rw [records_eq_some hdecision rfl hget, Option.toList_some]
        refine hs.write (hs.underway a hget) ?_ (by rw [get?_finish, if_pos rfl])
        show u.rows.get? k = _
        rw [(rows_of_upsertRow hup).1, KeyMap.get?_set, (hacc.continues k a hget).key, if_pos rfl]
      · rw [records_eq_none (Or.inl (by rw [hdecision]; simp)), Option.toList_none,
          List.append_nil]
        refine ⟨hs.sorted, hs.bounded, hs.stored, fun b hb => ?_⟩
        rw [KeyMap.get?_set, if_pos rfl] at hb
        cases hb
        have ha := hs.underway a hget
        exact ⟨ha.policy, ha.kept, ha.last, ha.room⟩
    | evict =>
      cases hact
      obtain ⟨a, hget, ⟨-, rfl, rfl⟩ | ⟨u, v, hdelete, hup, rfl, rfl⟩⟩ := hacc.evict_cases h
      · rw [records_eq_none (Or.inl (by rw [hdecision]; simp)), Option.toList_none,
          List.append_nil]
        exact hs.frame (Or.inl rfl) (Or.inr (by rw [get?_finish, if_pos rfl]))
      · rw [records_eq_some hdecision rfl hget, Option.toList_some]
        refine hs.write (hs.underway a hget) ?_ (by rw [get?_finish, if_pos rfl])
        show v.rows.get? k = _
        rw [(rows_of_upsertRow hup).1, KeyMap.get?_set, (hacc.continues k a hget).key, if_pos rfl]
    | _ => cases hact
  · rw [records_eq_none (Or.inr hact), Option.toList_none, List.append_nil]
    exact hs.other hact h hacc

/-- An admission under way is refused only by the second round, which then changes no row, and only
when all other keys of its family are held. -/
theorem Accounted.refused (hs : Accounted s) {r : Int}
    (hact : act.admits = some k) (hget : s.pending.get? k = some a)
    (hdenied : s.decision act = some (.denied r)) :
    (s.step act).rows = s.rows ∧ (s.step act).capacity = s.capacity ∧
      ∃ locked scan, act = .evict k locked scan ∧ ∀ j row, s.rows.get? j = some row →
        familyOf j row = goRateBudgetFamily a.call.key.scope a.call.user → j ≠ k →
          s.held locked j = true := by
  cases hperform : s.perform act with
  | error =>
    rw [(step_of_error hperform).2] at hdenied
    cases hdenied
  | ok =>
    rw [(step_of_ok hperform).2] at hdenied
    rw [(step_of_ok hperform).1]
    cases act with
    | call =>
      obtain ⟨-, hfree, -⟩ := call_spec hperform
      rw [Option.some.inj hact, hget] at hfree
      cases hfree
    | attempt =>
      obtain ⟨-, -, -, ⟨-, -, -, hd⟩ | ⟨-, -, hd⟩⟩ := attempt_spec hperform
      all_goals
        rw [hd] at hdenied
        cases hdenied
    | evict j locked scan =>
      cases hact
      obtain ⟨b, hb, ⟨hnone, ht, -⟩ | ⟨-, -, -, -, -, hd⟩⟩ := hs.evict_cases hperform
      · rw [hget] at hb
        cases hb
        rw [ht]
        refine ⟨rfl, rfl, locked, scan, rfl, fun j row hrow hfamily hne => ?_⟩
        exact held_of_victims_eq_nil hnone hrow hfamily
          (by rw [(hs.continues k a hget).key]; exact hne)
      · rw [hd] at hdenied
        cases hdenied
    | _ => cases hact

theorem Windowed.room_after (hs : Windowed k user limit windowUs s log) {first : Int} (clock' : Int)
    (hfirst : (within windowUs (latest log clock) log).head? = some first)
    (hlater : first + windowUs ≤ clock') (hle : latest log clock ≤ clock') :
    ((within windowUs (latest log clock') log).length : Int) < limit := by
  obtain ⟨hclock, hlast⟩ := le_latest (le_getLast? hs.sorted) clock'
  have hlast' := (le_latest (le_getLast? hs.sorted) clock).2
  have hmem : first ∈ within windowUs (latest log clock) log := List.mem_of_mem_head? hfirst
  -- The later window is what the earlier one has after its first admission.
  have hsub : within windowUs (latest log clock') log =
      (within windowUs (latest log clock) log).filter
        fun e => decide (latest log clock' - windowUs < e) := by
    rw [within_of_le hlast, within_of_le hlast', List.filter_filter]
    refine List.filter_congr fun e _ => ?_
    rw [← Bool.decide_and]
    refine decide_eq_decide.mpr ⟨fun h => ⟨h, ?_⟩, fun h => h.1⟩
    omega
  have hlt : (within windowUs (latest log clock') log).length <
      (within windowUs (latest log clock) log).length := by
    rw [hsub]
    refine List.length_filter_lt_length_iff_exists.mpr ⟨first, hmem, ?_⟩
    rw [decide_eq_true_eq]
    omega
  have hbound := hs.bounded (latest log clock)
  omega

end

/-! ### Runs -/

section
variable {k : Key} {user : Option Nat} {limit windowUs : Int} {acts : List Act}

theorem windowed_run (h : Regular k user limit windowUs acts) :
    Windowed k user limit windowUs (after acts) (recorded k acts) := by
  have hstep : ∀ s act log, Accounted s ∧ Windowed k user limit windowUs s log →
      Fixed k user limit windowUs act ∧ Swept k windowUs s act log →
        Accounted (s.step act) ∧
          Windowed k user limit windowUs (s.step act) (log ++ (s.records k act).toList) := by
    rintro s act log ⟨hacc, hs⟩ ⟨hfixed, hswept⟩
    refine ⟨hacc.step act, ?_⟩
    cases hperform : s.perform act with
    | error =>
      rw [(step_of_error hperform).1,
        records_eq_none (Or.inl (by rw [(step_of_error hperform).2]; simp)), Option.toList_none,
        List.append_nil]
      exact hs
    | ok =>
      rw [(step_of_ok hperform).1]
      exact hs.perform hacc hfixed hswept hperform
  have hempty : Windowed k user limit windowUs State.empty [] := by
    refine ⟨List.Pairwise.nil, fun x => ?_, fun row hget => (by cases hget),
      fun a hget => (by cases hget)⟩
    have := h.valid
    show ((([] : List Int).length : Nat) : Int) ≤ limit
    rw [List.length_nil]
    omega
  refine (Machine.emitted_invariant _ hstep ⟨accounted_empty, hempty⟩ fun before act rest heq => ?_).2
  exact ⟨h.fixed act (heq ▸ by simp), h.swept before act rest heq⟩

theorem Regular.prefix {before rest : List Act} (h : Regular k user limit windowUs (before ++ rest)) :
    Regular k user limit windowUs before :=
  ⟨h.valid, fun act hact => h.fixed act (List.mem_append_left _ hact),
    fun front act back heq => h.swept front act (back ++ rest) (by rw [heq]; simp)⟩

/-- What a run says about the budget of a key. -/
structure SlidingWindow (k : Key) (limit windowUs : Int) (acts : List Act) : Prop where
  /-- No window has more admissions than the limit. -/
  bounded : ∀ x, ((within windowUs x (recorded k acts)).length : Int) ≤ limit
  /-- The history is sorted, and expires when its last entry leaves the window. -/
  stored : ∀ row, (after acts).rows.get? k = some row → row.events.Pairwise (· ≤ ·) ∧
    ∃ last, row.events.getLast? = some last ∧ row.expiresAt = last + windowUs
  /-- A call passes exactly when the window that ends at the later one of its clock reading and the
  last admission has room, and is denied otherwise. -/
  passes : ∀ before c clock rest, acts = before ++ .call c clock :: rest → c.key = k → ∀ t d,
    (after before).perform (.call c clock) = .ok (t, d) →
      (((within windowUs (latest (recorded k before) clock) (recorded k before)).length : Int) <
          limit → d = none ∧ ∃ a, t.pending.get? k = some a ∧
            a.admittedAt = latest (recorded k before) clock) ∧
        (limit ≤ (within windowUs (latest (recorded k before) clock) (recorded k before)).length →
          t = after before ∧ ∃ r, d = some (.denied r))
  /-- What has passed is admitted and recorded, unless the family is full and all its other keys
  are held; then no row changes. -/
  answered : ∀ before act rest, acts = before ++ act :: rest → act.admits = some k → ∀ a,
    (after before).pending.get? k = some a →
      ((after before).decision act = some .allowed →
        recorded k (before ++ [act]) = recorded k before ++ [a.admittedAt]) ∧
      ∀ r, (after before).decision act = some (.denied r) →
        (after (before ++ [act])).rows = (after before).rows ∧
          (after (before ++ [act])).capacity = (after before).capacity ∧
            ∃ locked scan, act = .evict k locked scan ∧ ∀ j row,
              (after before).rows.get? j = some row →
                familyOf j row = goRateBudgetFamily a.call.key.scope a.call.user → j ≠ k →
                  (after before).held locked j = true
  /-- After the retry time, counted from the end of the window that was full, and with no admission
  in between, a call passes. -/
  retried : ∀ before c clock mid c' clock' rest,
    acts = before ++ .call c clock :: mid ++ .call c' clock' :: rest → c.key = k → c'.key = k →
      ∀ r, (after before).decision (.call c clock) = some (.denied r) →
        recorded k (before ++ .call c clock :: mid) = recorded k before →
          latest (recorded k before) clock + r ≤ clock' → ∀ t d,
            (after (before ++ .call c clock :: mid)).perform (.call c' clock') = .ok (t, d) →
              d = none

theorem accounted_after (acts : List Act) : Accounted (after acts) := accounted_run acts

/-- The window of a call of the key, in a run that the results are about. -/
theorem Regular.call {before : List Act} {c : Call} {clock : Int} {rest : List Act}
    (h : Regular k user limit windowUs (before ++ .call c clock :: rest)) (hkey : c.key = k)
    {t : State} {d : Option Decision}
    (hperform : (after before).perform (.call c clock) = .ok (t, d)) :
    (limit ≤ (within windowUs (latest (recorded k before) clock) (recorded k before)).length ∧
      t = after before ∧
        d = some (.denied ((within windowUs (latest (recorded k before) clock)
          (recorded k before)).head?.elim 1000000 fun first =>
            max 1000000 (first + windowUs - latest (recorded k before) clock)))) ∨
    ((within windowUs (latest (recorded k before) clock) (recorded k before)).length : Int) < limit ∧
      t = { after before with pending := (after before).pending.set k (Admission.mk c
        (within windowUs (latest (recorded k before) clock) (recorded k before))
        (latest (recorded k before) clock) false) } ∧ d = none :=
  (windowed_run h.prefix).call hkey (h.fixed _ (by simp) c clock rfl hkey)
    (h.swept before _ rest rfl c clock rfl hkey ⟨_, hperform⟩) hperform

/-- In a regular run the key has a sliding window. -/
theorem sliding_window (h : Regular k user limit windowUs acts) :
    SlidingWindow k limit windowUs acts := by
  have hrun := windowed_run h
  refine ⟨hrun.bounded, fun row hget => ?_, ?_, ?_, ?_⟩
  · have hrow := hrun.stored row hget
    obtain ⟨-, last, -, hlast, hexpires, -⟩ := hrow.suffix
    exact ⟨hrow.sorted, last, hlast, hexpires⟩
  · rintro before c clock rest rfl hkey t d hperform
    rcases h.call hkey hperform with ⟨hfull, rfl, rfl⟩ | ⟨hroom, rfl, rfl⟩
    · exact ⟨fun hroom => absurd hfull (Int.not_le.mpr hroom), fun _ => ⟨rfl, _, rfl⟩⟩
    · exact ⟨fun _ => ⟨rfl, _, (KeyMap.get?_set ..).trans (if_pos rfl), rfl⟩,
        fun hfull => absurd hfull (Int.not_le.mpr hroom)⟩
  · rintro before act rest rfl hact a hget
    refine ⟨fun hallowed => ?_, fun r hdenied => ?_⟩
    · show Machine.emitted _ _ _ _ = _
      rw [Machine.emitted_concat]
      exact congrArg (recorded k before ++ Option.toList ·) (records_eq_some hallowed hact hget)
    · have hafter : after (before ++ [act]) = (after before).step act := Machine.run_concat ..
      rw [hafter]
      exact (accounted_after before).refused hact hget hdenied
  · rintro before c clock mid c' clock' rest rfl hkey hkey' r hdenied hsame hlater t d hperform
    have hfirst : Regular k user limit windowUs
        (before ++ .call c clock :: (mid ++ .call c' clock' :: rest)) := by
      simpa using h
    cases hcall : (after before).perform (.call c clock) with
    | error =>
      rw [(step_of_error hcall).2] at hdenied
      cases hdenied
    | ok x =>
      rw [(step_of_ok hcall).2] at hdenied
      rcases hfirst.call hkey hcall with ⟨hfull, -, hd⟩ | ⟨-, -, hd⟩
      · rw [hd] at hdenied
        -- The window is full, so it has a first admission, and the retry time waits for it.
        have hvalid := h.valid
        obtain ⟨first, hhead⟩ : ∃ first,
            (within windowUs (latest (recorded k before) clock) (recorded k before)).head? =
              some first := by
          cases hwithin : within windowUs (latest (recorded k before) clock) (recorded k before) with
          | nil =>
            rw [hwithin, List.length_nil] at hfull
            omega
          | cons e => exact ⟨e, rfl⟩
        rw [hhead] at hdenied
        have hr : max 1000000 (first + windowUs - latest (recorded k before) clock) = r := by
          simpa using hdenied
        have hroom := (windowed_run hfirst.prefix).room_after clock' hhead
          (by omega) (by omega)
        rcases h.call hkey' hperform with ⟨hfull', -, -⟩ | ⟨-, -, hd'⟩
        · rw [hsame] at hfull'
          exact absurd hfull' (Int.not_le.mpr hroom)
        · exact hd'
      · rw [hd] at hdenied
        cases hdenied

end

/-! ### A full family -/

/-- Keys of the family `ops`, which has at most 100 of them. -/
def sampleKey (i : Nat) : Key := ⟨UInt8.ofNat i :: List.replicate 31 0, "ops.a"⟩

/-- One admission a minute. -/
def sampleCall (i : Nat) : Call := ⟨sampleKey i, none, 1, 60000000⟩

/-- The first keys are admitted, one after the other. -/
def fill (n : Nat) : List Act :=
  (List.range n).flatMap fun i => [.call (sampleCall i) 0, .attempt (sampleKey i)]

/-- In a regular run. -/
theorem sliding_window_sample :
    Regular (sampleKey 0) none 1 60000000
        [.call (sampleCall 0) 0, .attempt (sampleKey 0), .call (sampleCall 0) 5] ∧
      SlidingWindow (sampleKey 0) 1 60000000
        [.call (sampleCall 0) 0, .attempt (sampleKey 0), .call (sampleCall 0) 5] := by
  have hregular : Regular (sampleKey 0) none 1 60000000
      [.call (sampleCall 0) 0, .attempt (sampleKey 0), .call (sampleCall 0) 5] := by
    refine ⟨by decide, fun act hact c clock heq _ => ?_, fun before act rest heq => ?_⟩
    · subst heq
      have hc : c = sampleCall 0 := by
        simp only [List.mem_cons, Act.call.injEq, reduceCtorEq, List.not_mem_nil, or_false,
          false_or] at hact
        rcases hact with h | h <;> exact h.1
      subst hc
      exact ⟨rfl, rfl, rfl⟩
    · rcases before with _ | ⟨b₁, _ | ⟨b₂, _ | ⟨b₃, before⟩⟩⟩
      · intro c clock _ _ _ _ e he
        cases he
      · cases heq
        intro c clock hcall
        cases hcall
      · cases heq
        intro c clock hcall _ _ hnone
        exact absurd hnone (by decide)
      · simp at heq
  exact ⟨hregular, sliding_window hregular⟩

theorem recorded_concat (k : Key) (acts : List Act) (act : Act) :
    recorded k (acts ++ [act]) = recorded k acts ++ ((after acts).records k act).toList :=
  Machine.emitted_concat ..

theorem recorded_eq_nil {k : Key} {acts : List Act} (h : ∀ act ∈ acts, act.admits ≠ some k) :
    recorded k acts = [] := by
  induction acts using List.reverseRecOn with
  | nil => rfl
  | append_singleton acts act ih =>
    rw [recorded_concat, ih fun b hb => h b (List.mem_append_left _ hb),
      records_eq_none (Or.inr (h act (by simp)))]
    rfl

theorem mem_fill {n : Nat} {act : Act} (h : act ∈ fill n) :
    ∃ i < n, act = .call (sampleCall i) 0 ∨ act = .attempt (sampleKey i) := by
  obtain ⟨i, hi, hact⟩ := List.mem_flatMap.mp h
  exact ⟨i, List.mem_range.mp hi, by simpa using hact⟩

theorem sampleKey_ne {i j : Nat} (hi : i < 256) (hj : j < 256) (h : i ≠ j) :
    sampleKey i ≠ sampleKey j := by
  intro heq
  have hbyte : UInt8.ofNat i = UInt8.ofNat j := by
    simpa [sampleKey] using congrArg (fun k => k.subject.head?) heq
  have hnat := congrArg UInt8.toNat hbyte
  rw [UInt8.toNat_ofNat', UInt8.toNat_ofNat'] at hnat
  omega

/-- The family is full of live histories, and other transactions hold all of them. A call of a new
key has an empty window and no row to evict, and it is refused. -/
theorem full_family_refuses :
    (∀ act ∈ fill 100 ++ [.call (sampleCall 100) 0, .attempt (sampleKey 100)],
      Fixed (sampleKey 100) none 1 60000000 act ∧ ∀ j locked scan, act ≠ .evict j locked scan) ∧
    recorded (sampleKey 100)
      (fill 100 ++ [.call (sampleCall 100) 0] ++ [.attempt (sampleKey 100)]) = [] ∧
    (after (fill 100 ++ [.call (sampleCall 100) 0] ++ [.attempt (sampleKey 100)])).decision
      (.evict (sampleKey 100) (fun _ => true) fun _ => 0) = some (.denied 1000000) := by
  have hdecisions : (after (fill 100)).decision (.call (sampleCall 100) 0) = none ∧
      (after (fill 100 ++ [.call (sampleCall 100) 0])).decision (.attempt (sampleKey 100)) = none ∧
      (after (fill 100 ++ [.call (sampleCall 100) 0] ++ [.attempt (sampleKey 100)])).decision
        (.evict (sampleKey 100) (fun _ => true) fun _ => 0) = some (.denied 1000000) := by
    decide +kernel
  refine ⟨fun act hact => ?_, ?_, hdecisions.2.2⟩
  · have hsample : ∃ i, act = .call (sampleCall i) 0 ∨ act = .attempt (sampleKey i) := by
      rcases List.mem_append.mp hact with hact | hact
      · obtain ⟨i, -, h⟩ := mem_fill hact
        exact ⟨i, h⟩
      · exact ⟨100, by simpa using hact⟩
    obtain ⟨i, rfl | rfl⟩ := hsample
    · refine ⟨fun c clock heq _ => ?_, fun _ _ _ heq => (by cases heq)⟩
      cases heq
      exact ⟨rfl, rfl, rfl⟩
    · exact ⟨fun c clock heq => (by cases heq), fun _ _ _ heq => (by cases heq)⟩
  · have hfill : recorded (sampleKey 100) (fill 100) = [] := by
      refine recorded_eq_nil fun act hact => ?_
      obtain ⟨i, hi, h⟩ := mem_fill hact
      have hne : sampleKey i ≠ sampleKey 100 := sampleKey_ne (by omega) (by omega) (by omega)
      rcases h with rfl | rfl <;> simpa [Act.admits, sampleCall] using hne
    rw [recorded_concat, recorded_concat, hfill,
      records_eq_none (Or.inl (by rw [hdecisions.1]; simp)),
      records_eq_none (Or.inl (by rw [hdecisions.2.1]; simp))]
    rfl

end SocialActivities.Budgets
