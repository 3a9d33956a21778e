import SocialActivities.Accounts.LoginFailures
import SocialActivities.Lib.Machine

/-!
# `SocialActivities.Accounts.LoginReservations`: the limit of failed logins over every run (Go)

`Bounded` carries the limit through every run. It says that the failures of a pair and its slots
within their lease are at most the limit, and so are, for one epoch, the attempts concluded as
failures and the slots of that epoch. `kept_run` is the other side: a failure that was counted
stays until the window ends or an attempt of the same epoch succeeds.
-/

namespace SocialActivities.Accounts

open Lib
open Lib.Machine (run steps)

/-! ### The limit -/

/-- The limit holds in a state, where `concluded` counts the attempts of a pair and an epoch that
were concluded as failures. -/
structure Bounded (c : LoginConfig) (s : LoginState) (concluded : String → Nat → Nat) : Prop where
  total : ∀ key, s.recorded key + s.pending key ≤ c.loginFailureLimit
  perEpoch : ∀ key epoch, concluded key epoch + s.pendingIn key epoch ≤ c.loginFailureLimit
  /-- The failures concluded in the epoch of a row are on record. -/
  counted : ∀ key row, s.failures.get? key = some row → concluded key row.epoch ≤ row.failures
  window : ∀ key row, s.failures.get? key = some row →
    (row.failures = 0 ↔ row.failureUntil = none)
  drawnRow : ∀ key row, s.failures.get? key = some row → row.epoch < s.drawn
  drawnSlot : ∀ token slot, s.slots.get? token = some slot → token < s.drawn
  drawnEpoch : ∀ token slot, s.slots.get? token = some slot → slot.epoch < s.drawn
  drawnCount : ∀ key epoch, s.drawn ≤ epoch → concluded key epoch = 0

section
variable {c : LoginConfig} {s s' : LoginState} {concluded : String → Nat → Nat}

theorem recorded_of_get? {key : String} {row : LoginFailure}
    (h : s.failures.get? key = some row) : s.recorded key = row.failures := by
  unfold LoginState.recorded
  rw [h]
  rfl

theorem pendingIn_le_pending (s : LoginState) (key : String) (epoch : Nat) :
    s.pendingIn key epoch ≤ s.pending key := by
  refine KeyMap.count_le_count fun token slot _ h => ?_
  simp only [Bool.and_eq_true] at h ⊢
  exact ⟨h.1.1, h.2⟩

theorem Bounded.of_fewer (h : Bounded c s concluded) (hdrawn : s'.drawn = s.drawn)
    (hnow : s.now ≤ s'.now)
    (hrows : ∀ key row, s'.failures.get? key = some row → s.failures.get? key = some row)
    (hslots : ∀ token slot, s'.slots.get? token = some slot → s.slots.get? token = some slot) :
    Bounded c s' concluded := by
  -- The clock only goes on, so a slot that is live now was live before.
  have hlive : ∀ p : LoginSlot → Bool,
      (s'.slots.count fun _ slot => p slot && decide (s'.now < slot.expiresAt)) ≤
        s.slots.count fun _ slot => p slot && decide (s.now < slot.expiresAt) := by
    intro p
    refine KeyMap.count_le_of_keys fun token slot hslot hp => ⟨slot, hslots token slot hslot, ?_⟩
    simp only [Bool.and_eq_true, decide_eq_true_eq] at hp ⊢
    exact ⟨hp.1, by omega⟩
  have hrecorded : ∀ key, s'.recorded key ≤ s.recorded key := by
    intro key
    cases hrow : s'.failures.get? key with
    | none =>
      unfold LoginState.recorded
      rw [hrow]
      exact Nat.zero_le _
    | some row =>
      refine Nat.le_of_eq ?_
      rw [recorded_of_get? hrow, recorded_of_get? (hrows key row hrow)]
  constructor
  case total =>
    intro key
    have htotal := h.total key
    have hp : s'.pending key ≤ s.pending key := hlive _
    have hr := hrecorded key
    omega
  case perEpoch =>
    intro key epoch
    have hper := h.perEpoch key epoch
    have hp : s'.pendingIn key epoch ≤ s.pendingIn key epoch := hlive _
    omega
  case counted => exact fun key row hrow => h.counted key row (hrows key row hrow)
  case window => exact fun key row hrow => h.window key row (hrows key row hrow)
  case drawnRow =>
    intro key row hrow
    rw [hdrawn]
    exact h.drawnRow key row (hrows key row hrow)
  case drawnSlot =>
    intro token slot hslot
    rw [hdrawn]
    exact h.drawnSlot token slot (hslots token slot hslot)
  case drawnEpoch =>
    intro token slot hslot
    rw [hdrawn]
    exact h.drawnEpoch token slot (hslots token slot hslot)
  case drawnCount =>
    intro key epoch hepoch
    rw [hdrawn] at hepoch
    exact h.drawnCount key epoch hepoch

theorem Bounded.dropIdle (h : Bounded c s concluded) (key : String) :
    Bounded c (s.dropIdle key) concluded :=
  h.of_fewer rfl (Nat.le_refl _) (fun _ _ => KeyMap.get?_of_removeIf) fun _ _ hslot => hslot

theorem Bounded.current (h : Bounded c s concluded) (key : String) :
    concluded key (s.current key).epoch ≤ (s.current key).failures ∧
      ((s.current key).failures = 0 ↔ (s.current key).failureUntil = none) ∧
      (s.current key).epoch < s.drawn + 3 := by
  unfold LoginState.current
  cases hrow : s.failures.get? key with
  -- No row: the fresh epoch is one that no attempt has been counted under.
  | none =>
    have hnone := h.drawnCount key (s.drawn + 1) (by omega)
    refine ⟨?_, ?_, ?_⟩
    · show concluded key (s.drawn + 1) ≤ 0
      omega
    · exact Iff.intro (fun _ => rfl) fun _ => rfl
    · show s.drawn + 1 < s.drawn + 3
      omega
  | some row =>
    dsimp only [Option.getD_some]
    -- An expired row is started over under a fresh epoch too.
    split
    · have hnone := h.drawnCount key (s.drawn + 2) (by omega)
      refine ⟨?_, ?_, ?_⟩
      · show concluded key (s.drawn + 2) ≤ 0
        omega
      · exact Iff.intro (fun _ => rfl) fun _ => rfl
      · show s.drawn + 2 < s.drawn + 3
        omega
    · have hdrawn := h.drawnRow key row hrow
      exact ⟨h.counted key row hrow, h.window key row hrow, by omega⟩

/-- The slots after a reservation: the new one, and of the others those within their lease. -/
theorem count_reserved {key : String} {slot : LoginSlot} (hfree : s.slots.get? s.drawn = none)
    {q : Nat → LoginSlot → Bool} (hq : ∀ token slot, q token slot = true → s.now < slot.expiresAt) :
    ((s.slots.removeIf fun _ slot =>
        slot.key == key && decide (slot.expiresAt ≤ s.now)).set s.drawn slot).count q =
      s.slots.count q + if q s.drawn slot then 1 else 0 := by
  have hgone : (s.slots.removeIf fun _ slot =>
      slot.key == key && decide (slot.expiresAt ≤ s.now)).get? s.drawn = none := by
    rw [KeyMap.get?_removeIf, hfree]
    rfl
  have hset := KeyMap.count_set (s.slots.removeIf fun _ slot =>
    slot.key == key && decide (slot.expiresAt ≤ s.now)) s.drawn slot q
  rw [hgone, Option.any_none, if_neg Bool.false_ne_true, Nat.add_zero] at hset
  rw [hset, KeyMap.count_removeIf]
  congr 1
  refine KeyMap.count_congr fun token old _ => ?_
  cases hold : q token old with
  | false => rfl
  | true =>
    have hlease := hq token old hold
    have hkeep : decide (old.expiresAt ≤ s.now) = false := decide_eq_false (by omega)
    rw [hkeep, Bool.and_false]
    rfl

theorem Bounded.reserve {username peer : String} {fails : Bool} {r : LoginReservation}
    (h : Bounded c s concluded) (hreserve : reserveLogin c username peer fails s = .ok (s', r)) :
    Bounded c s' concluded := by
  obtain ⟨key, -, hlimit, rfl⟩ := reserveLogin_spec hreserve
  obtain ⟨hcounted, hwindow, hdrawn⟩ := h.current key
  have hfree : s.slots.get? s.drawn = none := by
    cases hslot : s.slots.get? s.drawn with
    | none => rfl
    | some => exact absurd (h.drawnSlot _ _ hslot) (Nat.lt_irrefl _)
  constructor
  case total =>
    -- The limit was checked before the slot was taken.
    intro k
    unfold LoginState.pending LoginState.recorded
    dsimp only
    rw [count_reserved hfree fun token slot hq => by
      rw [Bool.and_eq_true, decide_eq_true_eq] at hq
      exact hq.2]
    rw [KeyMap.get?_set]
    by_cases hk : k = key
    · subst hk
      rw [if_pos rfl, Option.map_some, Option.getD_some]
      show (s.current k).failures + (s.pending k + _) ≤ _
      split <;> omega
    · rw [if_neg hk, if_neg (by simp [Ne.symm hk]), Nat.add_zero]
      exact h.total k
  case perEpoch =>
    intro k epoch
    unfold LoginState.pendingIn
    dsimp only
    rw [count_reserved hfree fun token slot hq => by
      rw [Bool.and_eq_true, decide_eq_true_eq] at hq
      exact hq.2]
    show concluded k epoch + (s.pendingIn k epoch + _) ≤ _
    by_cases hk : key = k ∧ (s.current key).epoch = epoch
    · -- The new slot: the failures of the epoch are on record, its slots are among the pending.
      obtain ⟨rfl, rfl⟩ := hk
      have hle := pendingIn_le_pending s key (s.current key).epoch
      split <;> omega
    · rw [if_neg (fun hq => by
        simp only [Bool.and_eq_true, beq_iff_eq] at hq
        exact hk hq.1), Nat.add_zero]
      exact h.perEpoch k epoch
  case counted => exact KeyMap.forall_set hcounted h.counted
  case window => exact KeyMap.forall_set hwindow h.window
  case drawnRow =>
    refine KeyMap.forall_set hdrawn fun k row hrow => ?_
    exact Nat.lt_of_lt_of_le (h.drawnRow k row hrow) (Nat.le_add_right _ _)
  case drawnSlot =>
    refine KeyMap.forall_set (Nat.lt_add_of_pos_right (by decide)) fun token slot hslot => ?_
    exact Nat.lt_of_lt_of_le (h.drawnSlot token slot (KeyMap.get?_of_removeIf hslot))
      (Nat.le_add_right _ _)
  case drawnEpoch =>
    refine KeyMap.forall_set hdrawn fun token slot hslot => ?_
    exact Nat.lt_of_lt_of_le (h.drawnEpoch token slot (KeyMap.get?_of_removeIf hslot))
      (Nat.le_add_right _ _)
  case drawnCount =>
    intro k epoch hepoch
    exact h.drawnCount k epoch (by
      have hle : s.drawn + 3 ≤ epoch := hepoch
      omega)

/-- The count of the concluded failures after one more of the pair and the epoch of `r`. -/
def countFailure (r : LoginReservation) (failure : Bool) (concluded : String → Nat → Nat)
    (key : String) (epoch : Nat) : Nat :=
  concluded key epoch + if failure && r.key == key && r.epoch == epoch then 1 else 0

theorem Bounded.finish {r : LoginReservation} {success failure fails : Bool}
    (h : Bounded c s concluded)
    (hfinish : finishLogin c r success failure fails s = .ok s') :
    Bounded c s' (countFailure r failure concluded) := by
  obtain ⟨row, slot, hrow, hslot, hkey, hepoch, hlease, rfl⟩ := finishLogin_spec hfinish
  refine Bounded.dropIdle ?_ r.key
  -- The slot of `r` leaves every count it was in.
  have hremove : ∀ q : Nat → LoginSlot → Bool,
      (s.slots.removeIf fun token _ => token == r.token).count q +
        (if q r.token slot then 1 else 0) = s.slots.count q := by
    intro q
    have hcount := KeyMap.count_remove s.slots r.token q
    rw [hslot] at hcount
    exact hcount
  have hconclude := conclude_spec c.loginFailureWindow s.now s.drawn r.epoch success failure row
  generalize row.conclude c.loginFailureWindow s.now s.drawn r.epoch success failure = row'
    at hconclude
  have hmore := hconclude.failures_le
  have hold : r.epoch < s.drawn := hepoch ▸ h.drawnEpoch r.token slot hslot
  constructor
  case total =>
    intro k
    have htotal := h.total k
    have hgone := hremove fun _ slot => slot.key == k && decide (s.now < slot.expiresAt)
    rw [hkey, decide_eq_true hlease, Bool.and_true] at hgone
    unfold LoginState.pending LoginState.recorded at htotal ⊢
    dsimp only
    rw [KeyMap.get?_set]
    by_cases hk : k = r.key
    · -- The slot that goes makes room for the failure.
      subst hk
      rw [if_pos rfl, Option.map_some, Option.getD_some]
      rw [beq_self_eq_true, if_pos rfl] at hgone
      rw [hrow, Option.map_some, Option.getD_some] at htotal
      omega
    · rw [if_neg hk]
      omega
  case perEpoch =>
    intro k epoch
    have hper := h.perEpoch k epoch
    have hgone := hremove fun _ slot =>
      slot.key == k && slot.epoch == epoch && decide (s.now < slot.expiresAt)
    rw [hkey, hepoch, decide_eq_true hlease, Bool.and_true] at hgone
    unfold LoginState.pendingIn at hper ⊢
    unfold countFailure
    dsimp only
    -- A failure goes from the slots of its epoch to the concluded ones.
    cases failure with
    | false =>
      rw [Bool.false_and, Bool.false_and, if_neg Bool.false_ne_true]
      omega
    | true =>
      rw [Bool.true_and]
      omega
  case counted =>
    have hfresh := h.drawnCount r.key s.drawn (Nat.le_refl _)
    intro k row₁ hrow₁
    rw [KeyMap.get?_set] at hrow₁
    unfold countFailure
    by_cases hk : k = r.key
    · subst hk
      rw [if_pos rfl] at hrow₁
      rw [← Option.some.inj hrow₁, beq_self_eq_true, Bool.and_true]
      exact hconclude.onRecord (h.counted r.key row hrow) hfresh (Nat.ne_of_lt hold)
    · rw [if_neg hk] at hrow₁
      rw [if_neg (by simp [Ne.symm hk])]
      exact h.counted k row₁ hrow₁
  case window => exact KeyMap.forall_set (hconclude.window_iff (h.window r.key row hrow)) h.window
  case drawnRow =>
    have hle := hconclude.epoch_le (Nat.le_of_lt (h.drawnRow r.key row hrow))
    refine KeyMap.forall_set (Nat.lt_succ_of_le hle) fun k row₁ hrow₁ => ?_
    exact Nat.lt_succ_of_lt (h.drawnRow k row₁ hrow₁)
  case drawnSlot =>
    intro token slot₁ hslot₁
    exact Nat.lt_succ_of_lt (h.drawnSlot token slot₁ (KeyMap.get?_of_removeIf hslot₁))
  case drawnEpoch =>
    intro token slot₁ hslot₁
    exact Nat.lt_succ_of_lt (h.drawnEpoch token slot₁ (KeyMap.get?_of_removeIf hslot₁))
  case drawnCount =>
    intro k e he
    have hle : s.drawn + 1 ≤ e := he
    unfold countFailure
    rw [h.drawnCount k e (by omega), if_neg]
    simp only [Bool.and_eq_true, beq_iff_eq, not_and]
    intro _ heq
    omega

end

/-! ### Runs -/

/-- The step concludes an attempt of the pair and the epoch as a failure. -/
def concludes (c : LoginConfig) (s : LoginState) (p : Nat × LoginOp) (key : String)
    (epoch : Nat) : Bool :=
  match p.2 with
  | .finish r success failure fails =>
    (finishLogin c r success failure fails (s.after p.1)).isOk &&
      (failure && r.key == key && r.epoch == epoch)
  | _ => false

theorem except_cases {ε α : Type} (x : Except ε α) : (∃ e, x = .error e) ∨ ∃ a, x = .ok a := by
  cases x with
  | error e => exact Or.inl ⟨e, rfl⟩
  | ok a => exact Or.inr ⟨a, rfl⟩

section
variable {c : LoginConfig} {s : LoginState} {concluded : String → Nat → Nat}

theorem Bounded.after (h : Bounded c s concluded) (elapsed : Nat) :
    Bounded c (s.after elapsed) concluded :=
  h.of_fewer rfl (Nat.le_add_right _ _) (fun _ _ hrow => hrow) fun _ _ hslot => hslot

theorem Bounded.step (h : Bounded c s concluded) (p : Nat × LoginOp) :
    Bounded c (s.step c p)
      fun key epoch => concluded key epoch + if concludes c s p key epoch then 1 else 0 := by
  obtain ⟨elapsed, op⟩ := p
  have hafter := h.after elapsed
  unfold LoginState.step LoginState.operate concludes
  dsimp only
  cases op with
  | reserve username peer fails =>
    dsimp only
    cases hreserve : reserveLogin c username peer fails (s.after elapsed) with
    | error => exact hafter
    | ok => exact hafter.reserve hreserve
  | finish r success failure fails =>
    rcases except_cases (finishLogin c r success failure fails (s.after elapsed)) with
      ⟨e, hfinish⟩ | ⟨s', hfinish⟩
    · simp only [hfinish]
      exact hafter
    · simp only [hfinish]
      exact hafter.finish hfinish
  | sweepSlots =>
    exact hafter.of_fewer rfl (Nat.le_refl _) (fun _ _ hrow => hrow) fun _ _ => KeyMap.get?_of_removeIf
  | sweepFailures =>
    exact hafter.of_fewer rfl (Nat.le_refl _) (fun _ _ => KeyMap.get?_of_removeIf) fun _ _ hslot => hslot
  | wait => exact hafter

theorem bounded_run (h : Bounded c s concluded) (as : List (Nat × LoginOp)) :
    Bounded c (run (LoginState.step c) s as) fun key epoch =>
      concluded key epoch +
        (steps (LoginState.step c) s as).countP fun q => concludes c q.1 q.2 key epoch := by
  -- The count of the concluded failures grows with the run.
  induction as generalizing s concluded with
  | nil => exact h
  | cons p as ih =>
    have hrest := ih (h.step p)
    have hsum : ∀ key epoch, concluded key epoch +
        ((steps (LoginState.step c) s (p :: as)).countP fun q => concludes c q.1 q.2 key epoch) =
        concluded key epoch + (if concludes c s p key epoch then 1 else 0) +
          (steps (LoginState.step c) (s.step c p) as).countP
            fun q => concludes c q.1 q.2 key epoch := by
      intro key epoch
      rw [steps, List.countP_cons]
      dsimp only
      omega
    simp only [hsum]
    exact hrest

theorem bounded_empty (c : LoginConfig) : Bounded c .empty fun _ _ => 0 where
  total _ := Nat.zero_le _
  perEpoch _ _ := Nat.zero_le _
  counted _ _ h := (by cases h)
  window _ _ h := (by cases h)
  drawnRow _ _ h := (by cases h)
  drawnSlot _ _ h := (by cases h)
  drawnEpoch _ _ h := (by cases h)
  drawnCount _ _ _ := rfl

theorem bounded_of_run (c : LoginConfig) (as : List (Nat × LoginOp)) :
    Bounded c (run (LoginState.step c) .empty as) fun key epoch =>
      0 + (steps (LoginState.step c) .empty as).countP fun q => concludes c q.1 q.2 key epoch :=
  bounded_run (bounded_empty c) as

end

/-! ### Completions out of time -/

/-- The failures of the pair's window and its end. -/
def LoginState.counter (s : LoginState) (key : String) : Nat × Option Nat :=
  ((s.failures.get? key).map fun row => (row.failures, row.failureUntil)).getD (0, none)

/-- The epoch of the reservation is not the pair's, or its lease has ended. -/
def LoginState.Stale (s : LoginState) (r : LoginReservation) : Prop :=
  (∀ row, s.failures.get? r.key = some row → row.epoch ≠ r.epoch) ∨
    ∀ slot, s.slots.get? r.token = some slot → slot.expiresAt ≤ s.now

section
variable {c : LoginConfig} {s s' : LoginState} {concluded : String → Nat → Nat}

theorem counter_dropIdle (hwindow : ∀ key row, s.failures.get? key = some row →
      (row.failures = 0 ↔ row.failureUntil = none)) (key k : String) :
    (s.dropIdle key).counter k = s.counter k := by
  unfold LoginState.counter LoginState.dropIdle
  dsimp only
  rw [KeyMap.get?_removeIf]
  cases hrow : s.failures.get? k with
  | none => rfl
  | some row =>
    by_cases hgone : (k == key && row.failures == 0 && !s.hasSlot key) = true
    · rw [Option.filter_some, hgone]
      rw [Bool.and_eq_true, Bool.and_eq_true, beq_iff_eq, beq_iff_eq] at hgone
      have hzero := hgone.1.2
      have huntil := (hwindow k row hrow).mp hzero
      simp [hzero, huntil]
    · rw [Bool.not_eq_true] at hgone
      rw [Option.filter_some, hgone]
      rfl

variable {r : LoginReservation} {fails : Bool}

theorem counter_stale {success failure : Bool}
    (h : Bounded c s concluded) (hstale : s.Stale r) (key : String) :
    (s.operate c (.finish r success failure fails)).counter key = s.counter key := by
  unfold LoginState.operate
  dsimp only
  cases hfinish : finishLogin c r success failure fails s with
  | error => rfl
  | ok s' =>
    obtain ⟨row, slot, hrow, hslot, -, -, hlease, rfl⟩ := finishLogin_spec hfinish
    rcases hstale with hepoch | hended
    · -- The row is written back as it was.
      have hconclude : row.conclude c.loginFailureWindow s.now s.drawn r.epoch success failure =
          row := by
        cases conclude_spec c.loginFailureWindow s.now s.drawn r.epoch success failure row with
        | kept _ hsame => exact hsame
        | reset hsame => exact absurd hsame (hepoch row hrow)
        | counted hsame => exact absurd hsame (hepoch row hrow)
      dsimp only
      rw [hconclude]
      have hget : ∀ k, (s.failures.set r.key row).get? k = s.failures.get? k := by
        intro k
        rw [KeyMap.get?_set]
        split
        · rename_i hk
          rw [hk, hrow]
        · rfl
      rw [counter_dropIdle fun k row₁ hrow₁ => h.window k row₁ ((hget k).symm.trans hrow₁)]
      unfold LoginState.counter
      dsimp only
      rw [hget]
    · -- A finish that succeeds has its slot live, which this one is not.
      have hle := hended slot hslot
      omega

/-! ### A counted failure stays -/

/-- The row of the pair has at least the failures of `row`, in the same window. -/
def LoginState.Kept (s : LoginState) (key : String) (row : LoginFailure) : Prop :=
  ∃ row', s.failures.get? key = some row' ∧ row'.epoch = row.epoch ∧
    row.failures ≤ row'.failures ∧ row'.failureUntil = row.failureUntil

/-- The step is a success of the pair and the epoch, in time. -/
def Clears (c : LoginConfig) (s : LoginState) (p : Nat × LoginOp) (key : String)
    (epoch : Nat) : Prop :=
  ∃ r failure fails s', p.2 = .finish r true failure fails ∧ r.key = key ∧ r.epoch = epoch ∧
    finishLogin c r true failure fails (s.after p.1) = .ok s'

variable {key : String} {row : LoginFailure}

theorem kept_of_set {k : String} {w : LoginFailure} {slots : KeyMap Nat LoginSlot}
    {drawn : Nat} (hrow : s.failures.get? key = some row)
    (hw : k = key → w.epoch = row.epoch ∧ row.failures ≤ w.failures ∧
      w.failureUntil = row.failureUntil) :
    LoginState.Kept { s with failures := s.failures.set k w, slots, drawn } key row := by
  by_cases hk : key = k
  · subst hk
    exact ⟨w, by dsimp only; rw [KeyMap.get?_set, if_pos rfl], hw rfl⟩
  · exact ⟨row, by dsimp only; rw [KeyMap.get?_set, if_neg hk, hrow], rfl, Nat.le_refl _, rfl⟩

theorem Kept_dropIdle {k : String} (hpos : 0 < row.failures)
    (h : s.Kept key row) : (s.dropIdle k).Kept key row := by
  obtain ⟨row', hrow', hepoch, hmore, huntil⟩ := h
  refine ⟨row', ?_, hepoch, hmore, huntil⟩
  unfold LoginState.dropIdle
  dsimp only
  rw [KeyMap.get?_removeIf, hrow', Option.filter_some]
  have hne : (row'.failures == 0) = false := by
    rw [beq_eq_false_iff_ne]
    omega
  simp [hne]

theorem kept_reserve {username peer : String} {r : LoginReservation}
    (hrow : s.failures.get? key = some row)
    (hopen : row.expired s.now = false)
    (h : reserveLogin c username peer fails s = .ok (s', r)) : s'.Kept key row := by
  obtain ⟨k, -, -, rfl⟩ := reserveLogin_spec h
  refine kept_of_set hrow fun hk => ?_
  have hcurrent : s.current key = row := by
    unfold LoginState.current
    rw [hrow]
    dsimp only [Option.getD_some]
    rw [hopen]
    rfl
  rw [hk, hcurrent]
  exact ⟨rfl, Nat.le_refl _, rfl⟩

variable {t : Nat}

theorem kept_finish {success failure : Bool} (hrow : s.failures.get? key = some row)
    (hpos : 0 < row.failures) (ht : row.failureUntil = some t)
    (hopen : row.expired s.now = false)
    (h : finishLogin c r success failure fails s = .ok s') :
    s'.Kept key row ∨ success = true ∧ r.key = key ∧ r.epoch = row.epoch := by
  obtain ⟨old, slot, hold, -, -, -, -, rfl⟩ := finishLogin_spec h
  by_cases hk : r.key = key
  · subst hk
    obtain rfl : old = row := Option.some.inj (hold.symm.trans hrow)
    cases conclude_spec c.loginFailureWindow s.now s.drawn r.epoch success failure old with
    | kept _ hsame =>
      refine Or.inl (Kept_dropIdle hpos (kept_of_set hrow fun _ => ?_))
      rw [hsame]
      exact ⟨rfl, Nat.le_refl _, rfl⟩
    | reset hepoch hwhy =>
      rcases hwhy with hexpired | ⟨hsuccess, -⟩
      · rw [hopen] at hexpired
        cases hexpired
      · exact Or.inr ⟨hsuccess, rfl, hepoch.symm⟩
    | counted _ _ hepoch hmore huntil =>
      refine Or.inl (Kept_dropIdle hpos (kept_of_set hrow fun _ => ⟨hepoch, by omega, ?_⟩))
      rw [huntil, ht]
      rfl
  · exact Or.inl (Kept_dropIdle hpos (kept_of_set hrow fun heq => absurd heq hk))

theorem kept_step (h : Bounded c s concluded) (p : Nat × LoginOp)
    (hrow : s.failures.get? key = some row)
    (ht : row.failureUntil = some t) :
    (s.step c p).Kept key row ∨ t ≤ (s.after p.1).now ∨ Clears c s p key row.epoch := by
  obtain ⟨elapsed, op⟩ := p
  have hpos : 0 < row.failures := by
    have hwindow := h.window key row hrow
    rw [ht] at hwindow
    rcases Nat.eq_zero_or_pos row.failures with hzero | hpos
    · cases hwindow.mp hzero
    · exact hpos
  by_cases hended : t ≤ (s.after elapsed).now
  · exact Or.inr (Or.inl hended)
  have hopen : row.expired (s.after elapsed).now = false := by
    unfold LoginFailure.expired
    rw [ht]
    exact decide_eq_false hended
  have hafter : (s.after elapsed).failures.get? key = some row := hrow
  have hsame : (s.after elapsed).Kept key row := ⟨row, hrow, rfl, Nat.le_refl _, rfl⟩
  unfold LoginState.step LoginState.operate
  dsimp only
  cases op with
  | reserve username peer fails =>
    dsimp only
    cases hreserve : reserveLogin c username peer fails (s.after elapsed) with
    | error => exact Or.inl hsame
    | ok => exact Or.inl (kept_reserve hafter hopen hreserve)
  | finish r success failure fails =>
    dsimp only
    cases hfinish : finishLogin c r success failure fails (s.after elapsed) with
    | error => exact Or.inl hsame
    | ok s' =>
      rcases kept_finish hafter hpos ht hopen hfinish with hkept | ⟨rfl, hkey, hepoch⟩
      · exact Or.inl hkept
      · exact Or.inr (Or.inr ⟨r, failure, fails, s', rfl, hkey, hepoch, hfinish⟩)
  | sweepSlots => exact Or.inl hsame
  | sweepFailures =>
    -- The sweep leaves a row whose window has not ended.
    refine Or.inl ⟨row, ?_, rfl, Nat.le_refl _, rfl⟩
    unfold sweepFailures
    dsimp only
    rw [KeyMap.get?_removeIf, hafter, Option.filter_some, ht, Option.all_some,
      decide_eq_false hended]
    simp
  | wait => exact Or.inl hsame

theorem kept_run (h : Bounded c s concluded) (as : List (Nat × LoginOp))
    (hrow : s.failures.get? key = some row)
    (ht : row.failureUntil = some t) :
    (run (LoginState.step c) s as).Kept key row ∨
      ∃ q ∈ steps (LoginState.step c) s as,
        t ≤ (q.1.after q.2.1).now ∨ Clears c q.1 q.2 key row.epoch := by
  induction as generalizing s concluded row with
  | nil => exact Or.inl ⟨row, hrow, rfl, Nat.le_refl _, rfl⟩
  | cons p as ih =>
    rcases kept_step h p hrow ht with ⟨row', hrow', hepoch, hmore, huntil⟩ | hlost
    · rcases ih (h.step p) hrow' (huntil.trans ht) with ⟨row₂, hrow₂, hepoch₂, hmore₂, huntil₂⟩ | hlost
      · exact Or.inl ⟨row₂, hrow₂, hepoch₂.trans hepoch, Nat.le_trans hmore hmore₂,
          huntil₂.trans huntil⟩
      · obtain ⟨q, hq, hwhy⟩ := hlost
        rw [hepoch] at hwhy
        exact Or.inr ⟨q, List.mem_cons_of_mem _ hq, hwhy⟩
    · exact Or.inr ⟨(s, p), List.mem_cons_self, hlost⟩

/-! ### No false lockout -/

theorem reserveLogin_not_limited {username peer : String}
    (hkey : c.loginFailureKey username peer = .ok key)
    (hnone : ∀ row, s.failures.get? key = some row →
      row.failures = 0 ∨ row.expired s.now = true)
    (hpending : s.pending key = 0) :
    reserveLogin c username peer fails s ≠ .error .errLoginFailureLimit := by
  -- The row counts nothing, or it has expired and is started over.
  have hzero : (s.current key).failures = 0 := by
    unfold LoginState.current
    cases hrow : s.failures.get? key with
    | none => rfl
    | some row =>
      dsimp only [Option.getD_some]
      split
      · rfl
      · rename_i hopen
        rcases hnone row hrow with hzero | hexpired
        · exact hzero
        · exact absurd hexpired hopen
  have hcount : (s.slots.removeIf fun _ slot =>
      slot.key == key && decide (slot.expiresAt ≤ s.now)).count (fun _ slot =>
        slot.key == key && decide (s.now < slot.expiresAt)) = 0 := by
    refine Nat.le_zero.mp (hpending ▸ KeyMap.count_le_of_keys fun token slot hslot hp => ?_)
    exact ⟨slot, KeyMap.get?_of_removeIf hslot, hp⟩
  unfold reserveLogin
  intro h
  -- A bad configuration fails with another error.
  by_cases hvalid : (decide (1 ≤ c.loginFailureLimit) && decide (c.loginFailureLimit ≤ 1000) &&
      decide (0 < c.loginFailureWindow) &&
      decide (c.loginFailureWindow ≤ 24 * 60 * 60 * 10 ^ 9)) = true
  · have hlimit : 1 ≤ c.loginFailureLimit := by
      simp only [Bool.and_eq_true, decide_eq_true_eq] at hvalid
      exact hvalid.1.1.1
    have hroom : decide ((s.current key).failures + 0 < c.loginFailureLimit) = true := by
      rw [hzero]
      exact decide_eq_true (by omega)
    rw [need_eq_ok.mpr hvalid, hkey] at h
    dsimp only [bind, Except.bind] at h
    rw [hcount, need_eq_ok.mpr hroom] at h
    cases fails with
    | true | false => cases h
  · unfold need at h
    rw [if_neg hvalid] at h
    cases h

end

/-- Over every run at nondecreasing times: the failures of a pair and its slots within their lease
are at most the limit; so are the attempts concluded as failures in one epoch; a completion of
another epoch or after its lease changes no counter; a counted failure is on record until its
window ends or an attempt of its epoch succeeds; and a pair without failures and slots is not
refused. -/
theorem login_reservations (c : LoginConfig) (as : List (Nat × LoginOp)) :
    (∀ key, (run (LoginState.step c) .empty as).recorded key +
      (run (LoginState.step c) .empty as).pending key ≤ c.loginFailureLimit) ∧
    (∀ key epoch, ((steps (LoginState.step c) .empty as).countP fun q =>
      concludes c q.1 q.2 key epoch) ≤ c.loginFailureLimit) ∧
    (∀ q ∈ steps (LoginState.step c) .empty as, ∀ r success failure fails,
      q.2.2 = .finish r success failure fails → (q.1.after q.2.1).Stale r →
        ∀ key, (q.1.step c q.2).counter key = q.1.counter key) ∧
    (∀ before after key row t, as = before ++ after →
      (run (LoginState.step c) .empty before).failures.get? key = some row →
      row.failureUntil = some t →
      (run (LoginState.step c) .empty as).Kept key row ∨
        ∃ q ∈ steps (LoginState.step c) (run (LoginState.step c) .empty before) after,
          t ≤ (q.1.after q.2.1).now ∨ Clears c q.1 q.2 key row.epoch) ∧
    (∀ username peer key fails, c.loginFailureKey username peer = .ok key →
      (∀ row, (run (LoginState.step c) .empty as).failures.get? key = some row →
        row.failures = 0 ∨ row.expired (run (LoginState.step c) .empty as).now = true) →
      (run (LoginState.step c) .empty as).pending key = 0 →
      reserveLogin c username peer fails (run (LoginState.step c) .empty as) ≠
        .error .errLoginFailureLimit) := by
  have hend := bounded_of_run c as
  refine ⟨hend.total, fun key epoch => ?_, ?_, ?_, ?_⟩
  · have hper := hend.perEpoch key epoch
    omega
  · -- The state before a step of the run is the end of a run of its own.
    rintro ⟨s, elapsed, op⟩ hq r success failure fails rfl hstale key
    obtain ⟨before, after, -, hbefore⟩ := (Lib.Machine.mem_steps (LoginState.step c)).mp hq
    have hs := bounded_of_run c before
    rw [← hbefore] at hs
    exact counter_stale (hs.after elapsed) hstale key
  · rintro before after key row t rfl hrow ht
    rw [Lib.Machine.run_append]
    exact kept_run (bounded_of_run c before) after hrow ht
  · intro username peer key fails hkey hnone hpending
    exact reserveLogin_not_limited hkey hnone hpending

end SocialActivities.Accounts
