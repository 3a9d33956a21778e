import SocialActivities.Lib.Checked
import SocialActivities.Lib.KeyMap

/-!
# `SocialActivities.Accounts.LoginFailures`: login attempts and their slots (Go)

A login attempt reserves a slot of its username and peer before the password is verified, and
finishes the reservation afterwards. `accounts_go_login_failure` has the failures of a pair in its
window, under the epoch of the window; `accounts_go_login_reservation` has the slots that are
taken, each for a lease. Every operation holds the lock of its pair, so it is one step; the sweep
runs between them and deletes what it picks among the rows that are due.

`reserveLogin_spec` and `finishLogin_spec` say what the two operations write. A completion does one
of three things to the row of its pair, and `Concluded` names them.
-/

namespace SocialActivities.Accounts

open Lib

/-- A row of `accounts_go_login_failure`, under the key of the pair. -/
structure LoginFailure where
  epoch : Nat
  failures : Nat
  failureUntil : Option Nat
  touchedAt : Nat
  deriving DecidableEq

/-- A row of `accounts_go_login_reservation`, under its token. -/
structure LoginSlot where
  key : String
  epoch : Nat
  expiresAt : Nat
  deriving DecidableEq

/-- What `reserveLogin` returns. -/
structure LoginReservation where
  key : String
  epoch : Nat
  token : Nat
  deriving DecidableEq

inductive LoginError where
  | errInvalid
  | errLoginFailureLimit
  | errLoginReservation
  /-- A write that fails. -/
  | failed
  deriving DecidableEq

/-- The two tables and the clock. Epochs and tokens are hashes of random texts, and no two of them
are equal: the model numbers them in the order in which they are drawn. -/
structure LoginState where
  now : Nat
  failures : KeyMap String LoginFailure
  slots : KeyMap Nat LoginSlot
  drawn : Nat

/-- The settings, and the key of a username and a peer. -/
structure LoginConfig where
  loginFailureLimit : Nat
  /-- In nanoseconds. -/
  loginFailureWindow : Nat
  loginFailureKey : String → String → Except LoginError String

/-- `loginReservationLease`: a minute. -/
def loginReservationLease : Nat := 60 * 10 ^ 9

namespace LoginState

variable (s : LoginState)

/-- The slots of the pair within their lease. -/
def pending (key : String) : Nat :=
  s.slots.count fun _ slot => slot.key == key && decide (s.now < slot.expiresAt)

/-- The slots of the pair in one epoch within their lease. -/
def pendingIn (key : String) (epoch : Nat) : Nat :=
  s.slots.count fun _ slot =>
    slot.key == key && slot.epoch == epoch && decide (s.now < slot.expiresAt)

/-- The failures of the pair on record. -/
def recorded (key : String) : Nat := ((s.failures.get? key).map LoginFailure.failures).getD 0

/-- Has the pair a slot, also one past its lease? -/
def hasSlot (key : String) : Bool := decide (0 < s.slots.count fun _ slot => slot.key == key)

end LoginState

/-- The window of the row has ended. -/
def LoginFailure.expired (now : Nat) (row : LoginFailure) : Bool :=
  row.failureUntil.any fun expiry => decide (expiry ≤ now)

/-- A window without failures, in a new epoch. -/
def LoginFailure.reset (epoch : Nat) (row : LoginFailure) : LoginFailure :=
  { row with epoch, failures := 0, failureUntil := none }

/-- The row that `reserveLogin` finds: a new one when there is none, and reset when its window has
ended. -/
def LoginState.current (s : LoginState) (key : String) : LoginFailure :=
  let row := (s.failures.get? key).getD ⟨s.drawn + 1, 0, none, s.now⟩
  if row.expired s.now then row.reset (s.drawn + 2) else row

def reserveLogin (c : LoginConfig) (username peer : String) (fails : Bool) (s : LoginState) :
    Except LoginError (LoginState × LoginReservation) := do
  need LoginError.errInvalid (decide (1 ≤ c.loginFailureLimit) &&
    decide (c.loginFailureLimit ≤ 1000) && decide (0 < c.loginFailureWindow) &&
    decide (c.loginFailureWindow ≤ 24 * 60 * 60 * 10 ^ 9))
  let key ← c.loginFailureKey username peer
  let token := s.drawn
  -- The slots of the pair past their lease go first.
  let slots := s.slots.removeIf fun _ slot => slot.key == key && decide (slot.expiresAt ≤ s.now)
  let row := s.current key
  let pending := slots.count fun _ slot => slot.key == key && decide (s.now < slot.expiresAt)
  -- The attempts under way count as if they failed.
  need LoginError.errLoginFailureLimit (decide (row.failures + pending < c.loginFailureLimit))
  need LoginError.failed (!fails)
  pure ({ s with
    failures := s.failures.set key { row with touchedAt := s.now }
    slots := slots.set token ⟨key, row.epoch, s.now + loginReservationLease⟩
    drawn := s.drawn + 3 }, ⟨key, row.epoch, token⟩)

/-- What a completion in time does to the row of its pair. -/
def LoginFailure.conclude (window now fresh epoch : Nat) (success failure : Bool)
    (row : LoginFailure) : LoginFailure :=
  if row.epoch != epoch then
    -- An old epoch can neither count into nor clear the current window.
    row
  else if row.expired now then { row.reset fresh with touchedAt := now }
  else if success && decide (0 < row.failures) then { row.reset fresh with touchedAt := now }
  else if failure then
    { row with
      failures := row.failures + 1
      -- The first failure starts the window.
      failureUntil := some (row.failureUntil.getD (now + window))
      touchedAt := now }
  else row

/-- `DELETE ... WHERE failures=0 AND NOT EXISTS(reservations)`. -/
def LoginState.dropIdle (key : String) (s : LoginState) : LoginState :=
  { s with failures := s.failures.removeIf fun k row =>
      k == key && row.failures == 0 && !s.hasSlot key }

def finishLogin (c : LoginConfig) (r : LoginReservation) (success failure fails : Bool)
    (s : LoginState) : Except LoginError LoginState :=
  match s.failures.get? r.key, s.slots.get? r.token with
  | some row, some slot => do
    need LoginError.errLoginReservation (slot.key == r.key && slot.epoch == r.epoch)
    -- A completion after the lease is refused, and changes nothing.
    need LoginError.errLoginReservation (decide (s.now < slot.expiresAt))
    need LoginError.failed (!fails)
    let row := row.conclude c.loginFailureWindow s.now s.drawn r.epoch success failure
    pure (LoginState.dropIdle r.key { s with
      failures := s.failures.set r.key row
      slots := s.slots.removeIf fun token _ => token == r.token
      drawn := s.drawn + 1 })
  | _, _ => .error .errLoginReservation

/-- The two statements of `sweepAuthState` on these tables, each committed by itself. The bound of
the batch and the rows that others hold leave a choice of what is deleted. -/
def sweepSlots (picked : List Nat) (s : LoginState) : LoginState :=
  { s with slots := s.slots.removeIf fun token slot =>
      picked.contains token && decide (slot.expiresAt ≤ s.now) }

def sweepFailures (picked : List String) (s : LoginState) : LoginState :=
  { s with failures := s.failures.removeIf fun key row =>
      picked.contains key && decide (row.touchedAt + loginReservationLease ≤ s.now) &&
        row.failureUntil.all (fun expiry => decide (expiry ≤ s.now)) && !s.hasSlot key }

/-- One operation. -/
inductive LoginOp where
  | reserve (username peer : String) (fails : Bool)
  | finish (r : LoginReservation) (success failure fails : Bool)
  | sweepSlots (picked : List Nat)
  | sweepFailures (picked : List String)
  | wait

/-- The state some time later. -/
def LoginState.after (s : LoginState) (elapsed : Nat) : LoginState :=
  { s with now := s.now + elapsed }

/-- The state after one operation: an error is rolled back. -/
def LoginState.operate (c : LoginConfig) (s : LoginState) : LoginOp → LoginState
  | .reserve username peer fails =>
    match reserveLogin c username peer fails s with
    | .ok (s', _) => s'
    | .error _ => s
  | .finish r success failure fails =>
    match finishLogin c r success failure fails s with
    | .ok s' => s'
    | .error _ => s
  | .sweepSlots picked => sweepSlots picked s
  | .sweepFailures picked => sweepFailures picked s
  | .wait => s

/-- Time passes, and then an operation. -/
def LoginState.step (c : LoginConfig) (s : LoginState) (p : Nat × LoginOp) : LoginState :=
  (s.after p.1).operate c p.2

/-- No failures and no slots. -/
def LoginState.empty : LoginState := ⟨0, KeyMap.empty, KeyMap.empty, 0⟩

/-! ### What the operations do to the rows -/

section
variable {c : LoginConfig} {s s' : LoginState} {username peer : String} {fails : Bool}
  {r : LoginReservation} {success failure : Bool}

theorem reserveLogin_spec (h : reserveLogin c username peer fails s = .ok (s', r)) :
    ∃ key, c.loginFailureKey username peer = .ok key ∧
      (s.current key).failures + s.pending key < c.loginFailureLimit ∧
      s' = { s with
        failures := s.failures.set key { s.current key with touchedAt := s.now }
        slots := (s.slots.removeIf fun _ slot =>
          slot.key == key && decide (slot.expiresAt ≤ s.now)).set s.drawn
            ⟨key, (s.current key).epoch, s.now + loginReservationLease⟩
        drawn := s.drawn + 3 } := by
  unfold reserveLogin at h
  rw [seq_eq_ok, bind_eq_ok] at h
  obtain ⟨-, key, hkey, h⟩ := h
  dsimp only at h
  rw [seq_eq_ok, seq_eq_ok, need_eq_ok, decide_eq_true_eq, pure_eq_ok] at h
  obtain ⟨hlimit, -, h⟩ := h
  refine ⟨key, hkey, ?_, (Prod.mk.inj h).1.symm⟩
  -- The slots that were deleted are past their lease.
  rw [KeyMap.count_removeIf] at hlimit
  have hcount : s.slots.count (fun _ slot => (slot.key == key && decide (s.now < slot.expiresAt)) &&
      !(slot.key == key && decide (slot.expiresAt ≤ s.now))) = s.pending key := by
    refine KeyMap.count_congr fun token slot _ => ?_
    rw [Bool.eq_iff_iff]
    simp only [Bool.and_eq_true, Bool.not_eq_true', Bool.and_eq_false_iff, decide_eq_true_eq,
      decide_eq_false_iff_not]
    constructor
    · exact fun h => h.1
    · intro h
      exact ⟨h, Or.inr (by omega)⟩
  rw [hcount] at hlimit
  exact hlimit

theorem finishLogin_spec (h : finishLogin c r success failure fails s = .ok s') :
    ∃ row slot, s.failures.get? r.key = some row ∧ s.slots.get? r.token = some slot ∧
      slot.key = r.key ∧ slot.epoch = r.epoch ∧ s.now < slot.expiresAt ∧
      s' = LoginState.dropIdle r.key { s with
        failures := s.failures.set r.key
          (row.conclude c.loginFailureWindow s.now s.drawn r.epoch success failure)
        slots := s.slots.removeIf fun token _ => token == r.token
        drawn := s.drawn + 1 } := by
  unfold finishLogin at h
  split at h
  · rename_i row slot hrow hslot
    rw [seq_eq_ok, seq_eq_ok, seq_eq_ok, need_eq_ok, need_eq_ok, decide_eq_true_eq] at h
    obtain ⟨hown, hlease, -, h⟩ := h
    rw [Bool.and_eq_true, beq_iff_eq, beq_iff_eq] at hown
    exact ⟨row, slot, hrow, hslot, hown.1, hown.2, hlease, (Except.ok.inj h).symm⟩
  · cases h

/-- What a completion does to the row: nothing; a window without failures in a new epoch, by a
completion of the row's epoch; or one more failure. -/
inductive Concluded (window now fresh epoch : Nat) (success failure : Bool)
    (row row' : LoginFailure) : Prop where
  | kept (hstale : row.epoch ≠ epoch ∨ failure = false) (h : row' = row)
  | reset (hepoch : row.epoch = epoch)
      (hwhy : row.expired now = true ∨ success = true ∧ 0 < row.failures)
      (hfresh : row'.epoch = fresh) (hzero : row'.failures = 0) (huntil : row'.failureUntil = none)
  | counted (hepoch : row.epoch = epoch) (hfailure : failure = true)
      (hsame : row'.epoch = row.epoch) (hmore : row'.failures = row.failures + 1)
      (huntil : row'.failureUntil = some (row.failureUntil.getD (now + window)))

theorem conclude_spec (window now fresh epoch : Nat) (success failure : Bool)
    (row : LoginFailure) :
    Concluded window now fresh epoch success failure row
      (row.conclude window now fresh epoch success failure) := by
  unfold LoginFailure.conclude
  split
  · rename_i hstale
    exact .kept (Or.inl (by simpa using hstale)) rfl
  · rename_i hepoch
    have hsame : row.epoch = epoch := by simpa using hepoch
    split
    · rename_i hexpired
      exact .reset hsame (Or.inl hexpired) rfl rfl rfl
    · split
      · rename_i hsuccess
        rw [Bool.and_eq_true, decide_eq_true_eq] at hsuccess
        exact .reset hsame (Or.inr hsuccess) rfl rfl rfl
      · split
        · rename_i hfailure
          exact .counted hsame hfailure rfl rfl rfl
        · rename_i hfailure
          exact .kept (Or.inr (by simpa using hfailure)) rfl

namespace Concluded

variable {window now fresh epoch n : Nat} {success failure : Bool} {row row' : LoginFailure}

theorem failures_le (h : Concluded window now fresh epoch success failure row row') :
    row'.failures ≤ row.failures + 1 := by
  cases h with
  | kept _ hsame => rw [hsame]; omega
  | reset _ _ _ hzero _ => omega
  | counted _ _ _ hmore _ => omega

theorem window_iff (h : Concluded window now fresh epoch success failure row row')
    (hrow : row.failures = 0 ↔ row.failureUntil = none) :
    row'.failures = 0 ↔ row'.failureUntil = none := by
  cases h with
  | kept _ hsame =>
    rw [hsame]
    exact hrow
  | reset _ _ _ hzero huntil => exact iff_of_true hzero huntil
  | counted _ _ _ hmore huntil =>
    refine iff_of_false (by omega) ?_
    rw [huntil]
    simp

theorem epoch_le (h : Concluded window now fresh epoch success failure row row')
    (hrow : row.epoch ≤ fresh) : row'.epoch ≤ fresh := by
  cases h with
  | kept _ hsame => rw [hsame]; omega
  | reset _ _ hfresh _ _ => omega
  | counted _ _ hsame _ _ => omega

theorem onRecord (h : Concluded window now fresh epoch success failure row row')
    {concluded : Nat → Nat} (hrow : concluded row.epoch ≤ row.failures)
    (hfresh : concluded fresh = 0) (hold : epoch ≠ fresh) :
    concluded row'.epoch + (if failure && epoch == row'.epoch then 1 else 0) ≤ row'.failures := by
  cases h with
  | kept hstale hsame =>
    -- The attempt is none of the row's epoch, or no failure.
    rw [hsame, if_neg]
    · exact hrow
    · rcases hstale with hne | hnot
      · simp [Ne.symm hne]
      · simp [hnot]
  | reset _ _ hnew hzero =>
    have hnot : (epoch == fresh) = false := beq_false_of_ne hold
    rw [hnew, hzero, hfresh, hnot, Bool.and_false]
    exact Nat.le_refl 0
  | counted _ _ hsame hmore _ =>
    rw [hsame, hmore]
    split <;> omega

end Concluded

end

end SocialActivities.Accounts
