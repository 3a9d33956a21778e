import SocialActivities.Lib.Checked
import SocialActivities.Social.Rows

/-!
# `SocialActivities.Guardians.Rows`: guardian links, their invites and parental consents

The rows behind the guardianship of an account. `(guardian, ward)` is unique among the links, so
they are a `KeyMap` by that pair; invites and consents are rows under their ids.
-/

namespace SocialActivities.Guardians

open Lib
open Social (Cohort)

/-- `GuardianRelationship.Status`. -/
inductive LinkStatus where
  | active
  | revoked
  deriving DecidableEq

/-- A row of `accounts_guardianrelationship`, under its guardian and its ward. -/
structure Link where
  relationship : String
  status : LinkStatus
  consent : Option Nat
  deriving DecidableEq

/-- `GuardianLinkInvite.Status`. -/
inductive InviteStatus where
  | pending
  | accepted
  | declined
  | expired
  deriving DecidableEq

/-- A row of `accounts_guardianlinkinvite`. Times are in microseconds. -/
structure Invite where
  guardian : Nat
  ward : Nat
  relationship : String
  token : String
  status : InviteStatus
  expiresAt : Nat
  respondedAt : Option Nat
  deriving DecidableEq

/-- `ParentalConsent.Status`. -/
inductive ConsentStatus where
  | active
  | revoked
  | expired
  deriving DecidableEq

/-- A row of `accounts_parentalconsent`. The guardian stands for the identifier of the guardian. -/
structure Consent where
  minor : Nat
  guardian : Nat
  status : ConsentStatus
  expiresAt : Option Nat
  deriving DecidableEq

/-- A minor's cohort. -/
def minorCohort (c : Cohort) : Bool := c == .child || c == .teen

/-- An active link. -/
def Link.isActive (l : Link) : Bool := l.status == .active

/-- An invite that has been answered, or that has expired. -/
def Invite.Settled (i : Invite) : Prop := i.status ≠ .pending

/-- An invite that was declined, or that has expired. -/
def Invite.Refused (i : Invite) : Prop := i.status = .declined ∨ i.status = .expired

/-- The invite has this status from this time on. -/
def Invite.respond (i : Invite) (status : InviteStatus) (at' : Nat) : Invite :=
  { i with status := status, respondedAt := some at' }

/-- An active consent that has not expired. -/
def Consent.isValid (c : Consent) (now : Nat) : Bool :=
  c.status == .active && c.expiresAt.all fun expires => decide (now < expires)

/-- The consent is revoked if it is active. -/
def Consent.revoke (c : Consent) : Consent :=
  if c.status = .active then { c with status := .revoked } else c

/-! ### The table of the invites -/

/-- The rows of `accounts_guardianlinkinvite`, and the next id. -/
structure Invites where
  rows : KeyMap Nat Invite
  next : Nat

namespace Invites

def empty : Invites := ⟨KeyMap.empty, 1⟩

variable (m : Invites)

/-- The pending invite with a token. -/
def pendingWith (token : String) : Option (Nat × Invite) :=
  m.rows.entries.find? fun e => e.2.token == token && e.2.status == .pending

/-- The pending invite of a guardian for a ward. -/
def pendingFor (guardian ward : Nat) : Option (Nat × Invite) :=
  m.rows.entries.find? fun e =>
    e.2.guardian == guardian && e.2.ward == ward && e.2.status == .pending

/-- No other invite has the token. -/
def tokenFree (id : Nat) (token : String) : Bool :=
  m.rows.entries.all fun e => e.1 == id || e.2.token != token

/-- The row that an invite of the guardian for the ward writes. -/
def rowFor (guardian ward : Nat) : Nat := ((m.pendingFor guardian ward).map Prod.fst).getD m.next

/-- Refresh the pending invite of the guardian for the ward, or insert one. -/
def put (guardian ward : Nat) (relationship token : String) (expires : Nat) : Invites :=
  match m.pendingFor guardian ward with
  | some (id, i) => { m with
      rows := m.rows.set id { i with
        relationship := relationship, token := token, expiresAt := expires } }
  | none =>
    ⟨m.rows.set m.next ⟨guardian, ward, relationship, token, .pending, expires, none⟩, m.next + 1⟩

/-- The row with this id is another one. -/
def set (id : Nat) (i : Invite) : Invites := { m with rows := m.rows.set id i }

/-- Delete the invites that have expired. -/
def purge (now : Nat) : Invites :=
  { m with rows := m.rows.removeIf fun _ i => decide (i.expiresAt < now) }

end Invites

section
variable {m m' m'' : Invites} {token : String} {guardian ward id : Nat} {i : Invite}

theorem Invites.pendingWith_spec (h : m.pendingWith token = some (id, i)) :
    m.rows.get? id = some i ∧ i.token = token ∧ i.status = .pending := by
  have hfound := List.find?_some h
  rw [Bool.and_eq_true, beq_iff_eq, beq_iff_eq] at hfound
  exact ⟨KeyMap.mem_entries_iff.mp (List.mem_of_find?_eq_some h), hfound.1, hfound.2⟩

theorem Invites.pendingFor_spec (h : m.pendingFor guardian ward = some (id, i)) :
    m.rows.get? id = some i ∧ i.guardian = guardian ∧ i.ward = ward ∧ i.status = .pending := by
  have hfound := List.find?_some h
  rw [Bool.and_eq_true, Bool.and_eq_true, beq_iff_eq, beq_iff_eq, beq_iff_eq] at hfound
  obtain ⟨⟨hguardian, hward⟩, hpending⟩ := hfound
  exact ⟨KeyMap.mem_entries_iff.mp (List.mem_of_find?_eq_some h), hguardian, hward, hpending⟩

/-- The ids of the invites have been given out. -/
def Invites.Numbered (m : Invites) : Prop := ∀ id i, m.rows.get? id = some i → id < m.next

/-- The invites go on from `m` to `m'`: those that are final stay until they are deleted, and ids
are not used again. -/
structure Invites.Kept (final : Invite → Prop) (m m' : Invites) : Prop where
  numbered : m'.Numbered
  next : m.next ≤ m'.next
  stays : ∀ id i, m.rows.get? id = some i → final i → ∀ j, m'.rows.get? id = some j → j = i
  fresh : ∀ id, id < m.next → m.rows.get? id = none → m'.rows.get? id = none

variable {final : Invite → Prop}

theorem Invites.Kept.refl (h : m.Numbered) : m.Kept final m :=
  ⟨h, Nat.le_refl _, fun id i hi _ j hj => (by rw [hi] at hj; cases hj; rfl), fun id _ hi => hi⟩

theorem Invites.Kept.trans (hm : m.Numbered) (h : m.Kept final m') (h' : m'.Kept final m'') :
    m.Kept final m'' := by
  refine ⟨h'.numbered, Nat.le_trans h.next h'.next, fun id i hi hfinal j hj => ?_,
    fun id hid hnone => h'.fresh id (Nat.lt_of_lt_of_le hid h.next) (h.fresh id hid hnone)⟩
  cases hmid : m'.rows.get? id with
  | none =>
    have hgone := h'.fresh id (Nat.lt_of_lt_of_le (hm id i hi) h.next) hmid
    rw [hgone] at hj
    cases hj
  | some k =>
    have hk := h.stays id i hi hfinal k hmid
    rw [hk] at hmid
    exact h'.stays id i hmid hfinal j hj

theorem Invites.Kept.set (h : m.Numbered) (hrow : m.rows.get? id = some i) (hfinal : ¬final i)
    (r : Invite) : m.Kept final (m.set id r) := by
  refine ⟨KeyMap.forall_set (h id i hrow) h, Nat.le_refl _, fun j k hj hk k' hk' => ?_,
    fun j _ hj => ?_⟩
  · have hne : j ≠ id := by
      rintro rfl
      rw [hrow] at hj
      cases hj
      exact hfinal hk
    have hsame : (m.rows.set id r).get? j = some k' := hk'
    rw [KeyMap.get?_set, if_neg hne, hj] at hsame
    cases hsame
    rfl
  · have hne : j ≠ id := by
      rintro rfl
      rw [hrow] at hj
      cases hj
    show (m.rows.set id r).get? j = none
    rw [KeyMap.get?_set, if_neg hne, hj]

theorem Invites.Kept.put (h : m.Numbered) (hpending : ∀ i : Invite, i.status = .pending → ¬final i)
    (guardian ward : Nat) (relationship token : String) (expires : Nat) :
    m.Kept final (m.put guardian ward relationship token expires) := by
  unfold Invites.put
  split
  · rename_i j k hfound
    obtain ⟨hrow, -, -, hstatus⟩ := Invites.pendingFor_spec hfound
    exact Invites.Kept.set h hrow (hpending k hstatus) _
  · refine ⟨KeyMap.forall_set (Nat.lt_succ_self _) fun j k hj => Nat.lt_succ_of_lt (h j k hj),
      Nat.le_succ _, fun j k hj _ k' hk' => ?_, fun j hlt hj => ?_⟩
    · rw [KeyMap.get?_set, if_neg (Nat.ne_of_lt (h j k hj)), hj] at hk'
      cases hk'
      rfl
    · rw [KeyMap.get?_set, if_neg (Nat.ne_of_lt hlt), hj]

theorem Invites.Kept.purge (h : m.Numbered) (now : Nat) : m.Kept final (m.purge now) := by
  refine ⟨fun id i hi => h id i (KeyMap.get?_of_removeIf hi), Nat.le_refl _,
    fun id i hi _ j hj => ?_, fun id _ hi => ?_⟩
  · have hold := KeyMap.get?_of_removeIf hj
    rw [hi] at hold
    cases hold
    rfl
  · show (m.rows.removeIf _).get? id = none
    rw [KeyMap.get?_removeIf, hi]
    rfl

theorem Invites.numbered_empty : Invites.empty.Numbered := fun id i h => by cases h

end

end SocialActivities.Guardians
