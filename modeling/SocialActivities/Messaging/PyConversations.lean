import SocialActivities.Guardians.PyLinks
import SocialActivities.Messaging.Direct
import SocialActivities.Safety.PyModeration

/-!
# `SocialActivities.Messaging.PyConversations`: who is in a conversation (Python)

The services of `apps/messaging/services.py` that write conversations and their participants, and
those of `apps/accounts/services.py` that end a participation: `apply_assurance`, `revoke_guardian`,
`revoke_parental_consent` and `erase_user_account`. Each is one transaction, and an error rolls it
back. The accounts, guardian links and consents are the `State` of `Guardians.PyLinks`.

`sound_step` is what every step keeps of the tables.
-/

namespace SocialActivities.Messaging.Py

open Lib
open Social (Cohort)
open Social.Go (AgeBand)

structure State where
  accounts : Guardians.Py.State
  chats : Chats

/-- What a service reads elsewhere. `tie` orders the conversations that were updated at the same
time, which the query leaves open; `fails` stands for a statement that returns an error. -/
structure Reads where
  env : Guardians.Py.Env
  isActive : Nat → Bool
  blocked : Nat → Nat → Bool
  hasKey : Nat → Bool
  rateOk : Bool
  tie : Nat → Nat
  fails : Bool

/-- `MessagingError` with its message, or an error elsewhere. -/
inductive Error where
  | messaging (message : String)
  | doesNotExist
  | failed
  deriving DecidableEq

namespace State

variable (s : State) (x : Reads)

def empty : State := ⟨Guardians.Py.State.empty, Chats.empty⟩

/-- The cohort in the account. -/
def cohort (u : Nat) : Cohort := (s.accounts.cohortOf u).getD .unassigned

def canMessage (a b : Nat) : Bool :=
  a != b && x.isActive b && s.cohort a != .unassigned && s.cohort b != .unassigned
    && s.cohort a == s.cohort b && s.accounts.canParticipate x.env a
    && s.accounts.canParticipate x.env b && !x.blocked a b

def assertCanMessage (a b : Nat) : Except Error Unit :=
  need (Error.messaging "You cannot start a conversation with this user.") (s.canMessage x a b)

def startDirect (a b : Nat) : Except Error (State × Nat) := do
  s.assertCanMessage x a b
  match s.chats.directOf x.tie a b with
  | some existing => pure (s, existing)
  | none => do
    need (Error.messaging "You are starting conversations too quickly; slow down.") x.rateOk
    need Error.failed (!x.fails)
    pure ({ s with chats := s.chats.start .direct "" (s.cohort a) a [b] x.env.now }, s.chats.next)

def startGroup (maxMembers a : Nat) (targets : List Nat) (title : String) :
    Except Error (State × Nat) := do
  let unique := (targets.filter (· != a)).eraseDups
  need (Error.messaging "A group needs at least one other member.") (!unique.isEmpty)
  need (Error.messaging s!"A group can have at most {maxMembers} members.")
    (decide (unique.length + 1 ≤ maxMembers))
  need (Error.messaging "You cannot start a conversation with this user.")
    (unique.all fun b => s.canMessage x a b)
  need (Error.messaging "You are starting conversations too quickly; slow down.") x.rateOk
  need Error.failed (!x.fails)
  let title := String.ofList ((Safety.Py.strip title).take 120)
  pure ({ s with chats := s.chats.start .group title (s.cohort a) a unique x.env.now },
    s.chats.next)

/-- `_child_wards_in`, as far as there are any. -/
def hasChildWard (guardian c : Nat) : Bool :=
  s.chats.participants.anyRow fun key p => key.1 == c && p.isActive
    && s.accounts.isGuardianOf guardian key.2 && s.accounts.cohortOf key.2 == some .child

/-- One round of the loops that end observers. -/
def endOrphan (key : Nat × Nat) : State :=
  if s.hasChildWard key.2 key.1 then s
  else { s with chats := s.chats.mark (fun key' _ => key' == key) .removed }

def pruneOrphanedGuardians (c : Nat) : State :=
  (s.chats.participants.keysWhere fun key p => key.1 == c && p.isObserver).foldl endOrphan s

def dropGuardianObserversFor (guardian : Nat) : State :=
  (s.chats.participants.keysWhere fun key p => key.2 == guardian && p.isObserver).foldl endOrphan s

def removeUserFromConversations (u : Nat) : State :=
  let affected := (s.chats.participants.keysWhere fun key p => key.2 == u && p.isSeated).map
    Prod.fst
  let s := { s with chats := s.chats.mark (fun key p => key.2 == u && p.isSeated) .removed }
  affected.foldl pruneOrphanedGuardians s

def acceptInvite (u c : Nat) : Except Error State := do
  let (_, cohort) ← (s.chats.natureOf c).elim (.error .doesNotExist) .ok
  let p ← (s.chats.participants.get? (c, u)).elim
    (.error (.messaging "No pending invitation to accept.")) .ok
  need (Error.messaging "No pending invitation to accept.") (p.state == .invited)
  need (Error.messaging "This conversation is not in your cohort.")
    (s.cohort u != .unassigned && s.cohort u == cohort)
  need (Error.messaging "Complete age verification (and parental consent if under 16) first.")
    (s.accounts.canParticipate x.env u)
  need Error.failed (!x.fails)
  pure { s with chats := s.chats.put c u { p with
    state := .active, joinedAt := some x.env.now } }

def declineInvite (u c : Nat) : Except Error State := do
  let p ← (s.chats.participants.get? (c, u)).elim
    (.error (.messaging "No pending invitation to decline.")) .ok
  need (Error.messaging "No pending invitation to decline.") (p.state == .invited)
  need Error.failed (!x.fails)
  let s := { s with chats := s.chats.put c u { p with state := .declined } }
  pure (s.pruneOrphanedGuardians c)

def leave (u c : Nat) : Except Error State := do
  let p ← (s.chats.participants.get? (c, u)).elim
    (.error (.messaging "You are not part of this conversation.")) .ok
  need (Error.messaging "You are not part of this conversation.") p.isSeated
  need Error.failed (!x.fails)
  let s := { s with chats := s.chats.put c u { p with state := .left } }
  pure (s.pruneOrphanedGuardians c)

/-- The row that `add_participant` writes: a row that is there keeps its role. -/
def addedRow (c b by' : Nat) : Participant :=
  match s.chats.participants.get? (c, b) with
  | some p => { p with state := .invited, invitedBy := some by' }
  | none => Chats.invitation by'

def addParticipant (maxMembers a c b : Nat) : Except Error State := do
  let (kind, cohort) ← (s.chats.natureOf c).elim (.error .doesNotExist) .ok
  need (Error.messaging "Only group conversations can add members.") (kind == .group)
  need (Error.messaging "Only active members can add others.")
    ((s.chats.participants.get? (c, a)).any Participant.isActive)
  need (Error.messaging "Only a group admin can add members.")
    ((s.chats.participants.get? (c, a)).any fun p => p.role == .admin)
  s.assertCanMessage x a b
  need (Error.messaging "Members must share the conversation's cohort.") (s.cohort b == cohort)
  if (s.chats.participants.get? (c, b)).any Participant.isSeated then pure s
  else do
    need (Error.messaging s!"This group is full (max {maxMembers} members).")
      (decide (s.chats.seats c < maxMembers))
    need Error.failed (!x.fails)
    pure { s with chats := s.chats.put c b (s.addedRow c b a) }

def removeParticipant (a c b : Nat) : Except Error State := do
  need (Error.messaging "Only a group admin can remove members.")
    ((s.chats.participants.get? (c, a)).any fun p => p.role == .admin && p.isActive)
  need (Error.messaging "Use leave to exit a conversation.") (a != b)
  let p ← (s.chats.participants.get? (c, b)).elim
    (.error (.messaging "That user is not in the conversation.")) .ok
  need (Error.messaging "That user is not in the conversation.") p.isSeated
  need (Error.messaging "A guardian observer cannot be removed by another member.")
    (p.role != .guardian)
  need Error.failed (!x.fails)
  let s := { s with chats := s.chats.put c b { p with state := .removed } }
  pure (s.pruneOrphanedGuardians c)

/-- The row that `add_guardian_observer` writes. -/
def observerRow (c guardian now : Nat) : Participant :=
  match s.chats.participants.get? (c, guardian) with
  | some p => { p with state := .active, role := .guardian, joinedAt := some now }
  | none => ⟨.active, .guardian, none, some now⟩

def addGuardianObserver (guardian c : Nat) : Except Error State := do
  need (Error.messaging "Only a verified adult guardian can observe a conversation.")
    (s.cohort guardian == .adult && s.accounts.canParticipate x.env guardian)
  need (Error.messaging "You can only observe a conversation your child is part of.")
    (s.hasChildWard guardian c)
  need (Error.messaging "Set up secure messaging (a key) before observing.") (x.hasKey guardian)
  if (s.chats.participants.get? (c, guardian)).any Participant.isActive then pure s
  else do
    need Error.failed (!x.fails)
    pure { s with chats := s.chats.put c guardian (s.observerRow c guardian x.env.now) }

def applyAssurance (u : Nat) (band : AgeBand) (verified : Bool) : State :=
  let old := s.cohort u
  let s := { s with accounts := s.accounts.applyAssurance u band verified }
  if s.cohort u ≠ old ∧ old ≠ .unassigned then s.removeUserFromConversations u else s

def revokeGuardian (guardian ward : Nat) : State :=
  let s := { s with accounts := s.accounts.revokeGuardian guardian ward }
  let s := s.dropGuardianObserversFor guardian
  if s.accounts.canParticipate x.env ward then s else s.removeUserFromConversations ward

/-- The active consents for the ward are revoked. -/
def revokeConsents (ward : Nat) : State :=
  { s with accounts := { s.accounts with
      consents := s.accounts.consents.mapRows fun _ k =>
        if k.minor == ward then k.revoke else k } }

def revokeParentalConsent (guardian ward : Nat) : State :=
  if s.accounts.isGuardianOf guardian ward then
    (s.revokeConsents ward).removeUserFromConversations ward
  else s

/-- `erase_user_account`, as far as conversations and guardianships go. -/
def eraseUserAccount (u : Nat) : State :=
  let wards := (s.accounts.links.keysWhere fun pair l => pair.1 == u && l.isActive).map Prod.snd
  let s := (wards.foldl (fun s ward => s.revokeGuardian x u ward) s).removeUserFromConversations u
  { accounts := { s.accounts with
      users := s.accounts.users.removeIf fun id _ => id == u
      links := s.accounts.links.removeIf fun pair _ => pair.1 == u || pair.2 == u
      invites := { s.accounts.invites with
        rows := s.accounts.invites.rows.removeIf fun _ i => i.guardian == u || i.ward == u }
      consents := s.accounts.consents.removeIf fun _ k => k.minor == u }
    chats := s.chats.erase u }

end State

/-! ### Steps -/

inductive Act where
  /-- Accounts, links and consents come, and links and consents expire. -/
  | accounts (act : Guardians.Py.Act)
  | startDirect (x : Reads) (a b : Nat)
  | startGroup (x : Reads) (maxMembers a : Nat) (targets : List Nat) (title : String)
  | acceptInvite (x : Reads) (u c : Nat)
  | declineInvite (x : Reads) (u c : Nat)
  | leave (x : Reads) (u c : Nat)
  | addParticipant (x : Reads) (maxMembers a c b : Nat)
  | removeParticipant (x : Reads) (a c b : Nat)
  | addGuardianObserver (x : Reads) (guardian c : Nat)
  /-- A message is posted, or the timer is set. -/
  | touch (c : Nat) (disappearing : Nat → Nat) (now : Nat)
  | removeUser (u : Nat)
  | applyAssurance (u : Nat) (band : AgeBand) (verified : Bool)
  | revokeGuardian (x : Reads) (guardian ward : Nat)
  | revokeParentalConsent (guardian ward : Nat)
  | eraseUserAccount (x : Reads) (u : Nat)

namespace State

variable (s : State)

def step : Act → State
  -- Re-verification and revocation have steps of their own: they end participations.
  | .accounts (.applyAssurance _ _ _) => s
  | .accounts (.revoke _ _) => s
  | .accounts act => { s with accounts := s.accounts.step act }
  | .startDirect x a b => ((s.startDirect x a b).toOption.map Prod.fst).getD s
  | .startGroup x maxMembers a targets title =>
    ((s.startGroup x maxMembers a targets title).toOption.map Prod.fst).getD s
  | .acceptInvite x u c => (s.acceptInvite x u c).toOption.getD s
  | .declineInvite x u c => (s.declineInvite x u c).toOption.getD s
  | .leave x u c => (s.leave x u c).toOption.getD s
  | .addParticipant x maxMembers a c b => (s.addParticipant x maxMembers a c b).toOption.getD s
  | .removeParticipant x a c b => (s.removeParticipant x a c b).toOption.getD s
  | .addGuardianObserver x guardian c => (s.addGuardianObserver x guardian c).toOption.getD s
  | .touch c disappearing now => { s with chats := s.chats.touch c disappearing now }
  | .removeUser u => s.removeUserFromConversations u
  | .applyAssurance u band verified => s.applyAssurance u band verified
  | .revokeGuardian x guardian ward => s.revokeGuardian x guardian ward
  | .revokeParentalConsent guardian ward => s.revokeParentalConsent guardian ward
  | .eraseUserAccount x u => s.eraseUserAccount x u

end State

/-! ### What seats nobody -/

section
variable {s t : State} {x : Reads} {c u : Nat}

theorem shrinks_endOrphans (keys : List (Nat × Nat)) (s : State) :
    s.chats.Shrinks (keys.foldl State.endOrphan s).chats := by
  induction keys generalizing s with
  | nil => exact Chats.Shrinks.refl _
  | cons key keys ih =>
    have hfirst : s.chats.Shrinks (s.endOrphan key).chats := by
      unfold State.endOrphan
      split
      · exact Chats.Shrinks.refl _
      · exact Chats.Shrinks.mark _ _ (by decide)
    exact hfirst.trans (ih (s.endOrphan key))

theorem shrinks_pruneEach (ids : List Nat) (s : State) :
    s.chats.Shrinks (ids.foldl State.pruneOrphanedGuardians s).chats := by
  induction ids generalizing s with
  | nil => exact Chats.Shrinks.refl _
  | cons c ids ih =>
    have hfirst : s.chats.Shrinks (s.pruneOrphanedGuardians c).chats := shrinks_endOrphans _ s
    exact hfirst.trans (ih (s.pruneOrphanedGuardians c))

theorem shrinks_removeUser (s : State) (u : Nat) :
    s.chats.Shrinks (s.removeUserFromConversations u).chats := by
  have hmark : s.chats.Shrinks (s.chats.mark (fun key p => key.2 == u && p.isSeated) .removed) :=
    Chats.Shrinks.mark _ _ (by decide)
  exact hmark.trans (shrinks_pruneEach _ { s with chats := s.chats.mark _ _ })

theorem shrinks_depart {p : Participant} {state : PartState}
    (hrow : s.chats.participants.get? (c, u) = some p)
    (hout : state ≠ .active ∧ state ≠ .invited) : s.chats.Shrinks
      ({ s with chats := s.chats.put c u { p with state } }.pruneOrphanedGuardians c).chats := by
  have hput : s.chats.Shrinks (s.chats.put c u { p with state }) := Chats.Shrinks.put hrow rfl hout
  exact hput.trans (shrinks_endOrphans _ { s with chats := s.chats.put c u _ })

theorem shrinks_revokeGuardian (x : Reads) (s : State) (guardian ward : Nat) :
    s.chats.Shrinks (s.revokeGuardian x guardian ward).chats := by
  have hdrop := shrinks_endOrphans
    (s.chats.participants.keysWhere fun key p => key.2 == guardian && p.isObserver)
    { s with accounts := s.accounts.revokeGuardian guardian ward }
  unfold State.revokeGuardian
  dsimp only
  split
  · exact hdrop
  · exact hdrop.trans (shrinks_removeUser _ ward)

theorem shrinks_eraseUserAccount (x : Reads) (s : State) (u : Nat) :
    s.chats.Shrinks (s.eraseUserAccount x u).chats := by
  have hwards : ∀ (wards : List Nat) (s : State), s.chats.Shrinks
      (wards.foldl (fun s ward => s.revokeGuardian x u ward) s).chats := by
    intro wards
    induction wards with
    | nil => exact fun s => Chats.Shrinks.refl _
    | cons ward wards ih =>
      intro s
      exact (shrinks_revokeGuardian x s u ward).trans (ih _)
  exact ((hwards _ s).trans (shrinks_removeUser _ u)).trans (Chats.Shrinks.erase _ u)

/-! ### What a step keeps -/

theorem sound_getD {y : Except Error State} (hs : s.chats.Sound)
    (h : ∀ t, y = .ok t → t.chats.Sound) : (y.toOption.getD s).chats.Sound := by
  cases y with
  | ok t => exact h t rfl
  | error => exact hs

theorem startDirect_spec {a b : Nat} (h : s.startDirect x a b = .ok (t, c)) :
    s.canMessage x a b = true ∧
      (s.chats.directOf x.tie a b = some c ∧ t = s ∨
        s.chats.directOf x.tie a b = none ∧ c = s.chats.next ∧
          t = { s with chats := s.chats.start .direct "" (s.cohort a) a [b] x.env.now }) := by
  unfold State.startDirect State.assertCanMessage at h
  rw [seq_eq_ok, need_eq_ok] at h
  refine ⟨h.1, ?_⟩
  cases hfound : s.chats.directOf x.tie a b with
  | some =>
    rw [hfound] at h
    obtain ⟨rfl, rfl⟩ := Prod.mk.inj (pure_eq_ok.mp h.2)
    exact Or.inl ⟨rfl, rfl⟩
  | none =>
    rw [hfound] at h
    have hnew := h.2
    dsimp only at hnew
    rw [seq_eq_ok, seq_eq_ok, pure_eq_ok] at hnew
    obtain ⟨rfl, rfl⟩ := Prod.mk.inj hnew.2.2
    exact Or.inr ⟨rfl, rfl, rfl⟩

theorem sound_startGroup {maxMembers a : Nat} {targets : List Nat} {title : String}
    (hs : s.chats.Sound) (h : s.startGroup x maxMembers a targets title = .ok (t, c)) :
    t.chats.Sound := by
  unfold State.startGroup at h
  rw [seq_eq_ok, seq_eq_ok, seq_eq_ok, seq_eq_ok, seq_eq_ok, pure_eq_ok] at h
  obtain ⟨rfl, rfl⟩ := Prod.mk.inj h.2.2.2.2.2
  exact hs.start _ _ a _ fun hkind => (by cases hkind)

theorem sound_acceptInvite (hs : s.chats.Sound) (h : s.acceptInvite x u c = .ok t) :
    t.chats.Sound := by
  unfold State.acceptInvite at h
  rw [bind_eq_ok] at h
  obtain ⟨nature, -, h⟩ := h
  dsimp only at h
  rw [bind_eq_ok] at h
  obtain ⟨p, hrow, h⟩ := h
  rw [seq_eq_ok, seq_eq_ok, seq_eq_ok, seq_eq_ok, pure_eq_ok] at h
  obtain ⟨-, -, -, -, rfl⟩ := h
  exact hs.follows (Chats.Follows.put (elim_eq_ok.mp hrow) rfl)

theorem sound_addParticipant {maxMembers a b : Nat} (hs : s.chats.Sound)
    (h : s.addParticipant x maxMembers a c b = .ok t) : t.chats.Sound := by
  unfold State.addParticipant at h
  rw [bind_eq_ok] at h
  obtain ⟨⟨kind, cohort⟩, hnature, h⟩ := h
  dsimp only at h
  rw [seq_eq_ok, seq_eq_ok, seq_eq_ok, seq_eq_ok, seq_eq_ok, need_eq_ok, beq_iff_eq] at h
  obtain ⟨rfl, -, -, -, -, h⟩ := h
  have hgroup := elim_eq_ok.mp hnature
  split at h
  · cases h
    exact hs
  · rw [seq_eq_ok, seq_eq_ok, pure_eq_ok] at h
    obtain ⟨-, -, rfl⟩ := h
    exact hs.put (hs.conversations c _ hgroup) (Or.inr ⟨cohort, hgroup⟩)

theorem sound_addGuardianObserver {guardian : Nat} (hs : s.chats.Sound)
    (h : s.addGuardianObserver x guardian c = .ok t) : t.chats.Sound := by
  unfold State.addGuardianObserver at h
  rw [seq_eq_ok, seq_eq_ok, seq_eq_ok, need_eq_ok, need_eq_ok] at h
  obtain ⟨-, hward, -, h⟩ := h
  split at h
  · cases h
    exact hs
  · rw [seq_eq_ok, pure_eq_ok] at h
    obtain ⟨-, rfl⟩ := h
    -- The child is a participant, so the conversation is there.
    obtain ⟨key, p, hrow, hp⟩ := KeyMap.anyRow_eq_true.mp hward
    simp only [Bool.and_eq_true, beq_iff_eq] at hp
    have hlt : c < s.chats.next := hp.1.1.1 ▸ hs.participants key p hrow
    refine hs.put hlt (Or.inl ?_)
    unfold State.observerRow
    split <;> rfl

theorem sound_step (hs : s.chats.Sound) (act : Act) : (s.step act).chats.Sound := by
  cases act with
  | accounts act =>
    have hsame : (s.step (.accounts act)).chats = s.chats := by
      cases act <;> rfl
    rw [hsame]
    exact hs
  | startDirect x a b =>
    show (((s.startDirect x a b).toOption.map Prod.fst).getD s).chats.Sound
    cases hstart : s.startDirect x a b with
    | error => exact hs
    | ok result =>
      obtain ⟨t, c⟩ := result
      obtain ⟨-, ⟨-, rfl⟩ | ⟨-, -, rfl⟩⟩ := startDirect_spec hstart
      · exact hs
      · exact hs.start _ _ a _ fun _ => ⟨b, rfl⟩
  | startGroup x maxMembers a targets title =>
    show (((s.startGroup x maxMembers a targets title).toOption.map Prod.fst).getD s).chats.Sound
    cases hstart : s.startGroup x maxMembers a targets title with
    | error => exact hs
    | ok result =>
      obtain ⟨t, c⟩ := result
      exact sound_startGroup hs hstart
  | acceptInvite => exact sound_getD hs fun t h => sound_acceptInvite hs h
  | declineInvite =>
    refine sound_getD hs fun t h => ?_
    unfold State.declineInvite at h
    rw [bind_eq_ok] at h
    obtain ⟨p, hrow, h⟩ := h
    rw [seq_eq_ok, seq_eq_ok, pure_eq_ok] at h
    obtain ⟨-, -, rfl⟩ := h
    exact hs.follows (shrinks_depart (elim_eq_ok.mp hrow) (by decide)).follows
  | leave =>
    refine sound_getD hs fun t h => ?_
    unfold State.leave at h
    rw [bind_eq_ok] at h
    obtain ⟨p, hrow, h⟩ := h
    rw [seq_eq_ok, seq_eq_ok, pure_eq_ok] at h
    obtain ⟨-, -, rfl⟩ := h
    exact hs.follows (shrinks_depart (elim_eq_ok.mp hrow) (by decide)).follows
  | addParticipant => exact sound_getD hs fun t h => sound_addParticipant hs h
  | removeParticipant =>
    refine sound_getD hs fun t h => ?_
    unfold State.removeParticipant at h
    rw [seq_eq_ok, seq_eq_ok, bind_eq_ok] at h
    obtain ⟨-, -, p, hrow, h⟩ := h
    rw [seq_eq_ok, seq_eq_ok, seq_eq_ok, pure_eq_ok] at h
    obtain ⟨-, -, -, rfl⟩ := h
    exact hs.follows (shrinks_depart (elim_eq_ok.mp hrow) (by decide)).follows
  | addGuardianObserver =>
    exact sound_getD hs fun t h => sound_addGuardianObserver hs h
  | touch => exact hs.follows (Chats.Shrinks.touch _ _ _ _).follows
  | removeUser u => exact hs.follows (shrinks_removeUser s u).follows
  | applyAssurance u band verified =>
    show (s.applyAssurance u band verified).chats.Sound
    unfold State.applyAssurance
    dsimp only
    split
    · exact hs.follows (shrinks_removeUser
        { s with accounts := s.accounts.applyAssurance u band verified } u).follows
    · exact hs
  | revokeGuardian x guardian ward =>
    exact hs.follows (shrinks_revokeGuardian x s guardian ward).follows
  | revokeParentalConsent guardian ward =>
    show (s.revokeParentalConsent guardian ward).chats.Sound
    unfold State.revokeParentalConsent
    split
    · exact hs.follows (shrinks_removeUser (s.revokeConsents ward) ward).follows
    · exact hs
  | eraseUserAccount x u => exact hs.follows (shrinks_eraseUserAccount x s u).follows

end

end SocialActivities.Messaging.Py
