import SocialActivities.Guardians.Rows
import SocialActivities.Social.GoActivity

/-!
# `SocialActivities.Guardians.PyLinks`: guardian links of the reference (Python)

`create_guardian_link_invite`, `accept_guardian_link_invite`, `decline_guardian_link_invite`,
`revoke_guardian` and `apply_assurance` of `apps/accounts/services.py`.

`accept_guardian_link_invite` runs two transactions. The first one locks the invite, checks it, and
marks it when it has expired; the second one checks the guardian and writes the link. Between the
two any other operation may run, so they are two steps: `acceptFirst` keeps what it has read for
`acceptSecond`.

`link_law` is the statement about runs. The second transaction reads neither the invite nor the
cohort of the ward again. So the law holds exactly when it never finds the ward no minor any more,
or the invite declined or expired (`accepted_although_declined`).
-/

namespace SocialActivities.Guardians.Py

open Lib
open Social (Cohort)
open Social.Go (AgeBand)

/-- The columns of `accounts_user` that these services read. -/
structure User where
  ageBand : AgeBand
  cohort : Cohort
  isIdentityVerified : Bool
  deriving DecidableEq

def cohortByAgeBand : AgeBand → Cohort
  | .under16 => .child
  | .age1617 => .teen
  | .adult => .adult
  | .unknown => .unassigned

/-- What the services read elsewhere: the clock, and whether the latest age assurance of a user
has not expired, or there is none. -/
structure Env where
  now : Nat
  assuranceCurrent : Nat → Bool

/-- The settings. -/
structure Settings where
  minorOnboardingEnabled : Bool
  guardianInviteTTL : Nat
  deriving DecidableEq

/-- What the first transaction of an accept has read. -/
structure Accepting where
  ward : Nat
  id : Nat
  invite : Invite
  deriving DecidableEq

structure State where
  users : KeyMap Nat User
  links : KeyMap (Nat × Nat) Link
  invites : Invites
  consents : KeyMap Nat Consent
  /-- The accepts between their two transactions, by request. -/
  accepting : KeyMap Nat Accepting

/-- The messages of the `ValueError`s, and the errors of the database. -/
inductive Error where
  | value (message : String)
  | database
  deriving DecidableEq

namespace State

variable (s : State)

def cohortOf (id : Nat) : Option Cohort := (s.users.get? id).map User.cohort

def isGuardianOf (guardian ward : Nat) : Bool := (s.links.get? (guardian, ward)).any Link.isActive

def hasValidParentalConsent (e : Env) (minor : Nat) : Bool :=
  s.consents.entries.any fun c => c.2.minor == minor && c.2.isValid e.now

def canParticipate (e : Env) (id : Nat) : Bool :=
  (s.users.get? id).any fun u => u.isIdentityVerified && e.assuranceCurrent id
    && (u.ageBand != .under16 || s.hasValidParentalConsent e id)

def createGuardianLinkInvite (c : Settings) (e : Env) (guardian ward : Nat)
    (relationship token : String) (fails : Bool) : Except Error State := do
  need (.value "Minor onboarding is disabled on this deployment.") c.minorOnboardingEnabled
  need (.value "A user cannot be their own guardian.") (guardian != ward)
  need (.value "Only a verified adult can invite a ward.")
    (s.cohortOf guardian == some .adult && s.canParticipate e guardian)
  need (.value "A guardian link can only target a minor account.")
    ((s.cohortOf ward).any minorCohort)
  need (.value "You are already this user's guardian.") (!s.isGuardianOf guardian ward)
  need .database (!fails && s.invites.tokenFree (s.invites.rowFor guardian ward) token)
  pure { s with
    invites := s.invites.put guardian ward relationship token (e.now + c.guardianInviteTTL) }

/-- The first transaction of `accept_guardian_link_invite`. -/
def acceptFirst (c : Settings) (e : Env) (r ward : Nat) (token : String) : Except Error State := do
  need (.value "Minor onboarding is disabled on this deployment.") c.minorOnboardingEnabled
  let (id, i) ← (s.invites.pendingWith token).elim (.error (.value "No such pending invite.")) .ok
  need (.value "This invite is addressed to a different user.") (i.ward == ward)
  if i.expiresAt ≤ e.now then
    -- The mark is committed; the request fails after that.
    pure { s with invites := s.invites.set id (i.respond .expired e.now) }
  else pure { s with accepting := s.accepting.set r ⟨ward, id, i⟩ }

def linkGuardian (guardian ward : Nat) (relationship : String) : Except Error State := do
  need (.value "A user cannot be their own guardian.") (guardian != ward)
  need (.value "A guardian must be a verified adult.") (s.cohortOf guardian == some .adult)
  pure { s with links := s.links.set (guardian, ward) ⟨relationship, .active, none⟩ }

/-- The second transaction of `accept_guardian_link_invite`. -/
def acceptSecond (e : Env) (a : Accepting) (fails : Bool) : Except Error State := do
  need (.value "The inviting guardian is no longer a verified adult.")
    (s.cohortOf a.invite.guardian == some .adult && s.canParticipate e a.invite.guardian)
  let s ← s.linkGuardian a.invite.guardian a.ward a.invite.relationship
  -- `save(update_fields=...)` writes the two columns of whatever the row is by now.
  let row ← (s.invites.rows.get? a.id).elim (.error .database) .ok
  need .database (!fails)
  pure { s with invites := s.invites.set a.id (row.respond .accepted e.now) }

def declineGuardianLinkInvite (e : Env) (ward : Nat) (token : String) : Except Error State :=
  match s.invites.pendingWith token with
  | some (id, i) =>
    if i.ward = ward then
      .ok { s with invites := s.invites.set id (i.respond .declined e.now) }
    else .error (.value "No such pending invite.")
  | none => .error (.value "No such pending invite.")

/-- `revoke_guardian`: the rows of the accounts. -/
def revokeGuardian (guardian ward : Nat) : State :=
  { s with
    links := s.links.mapRows fun pair l =>
      if pair == (guardian, ward) then { l with status := .revoked } else l
    consents := s.consents.mapRows fun _ c =>
      if c.minor == ward && c.guardian == guardian then c.revoke else c }

/-- `apply_assurance`: the row of the user. -/
def applyAssurance (id : Nat) (band : AgeBand) (verified : Bool) : State :=
  match s.users.get? id with
  | some _ => { s with users := s.users.set id ⟨band, cohortByAgeBand band, verified⟩ }
  | none => s

def empty : State := ⟨KeyMap.empty, KeyMap.empty, Invites.empty, KeyMap.empty, KeyMap.empty⟩

end State

/-! ### Runs -/

inductive Act where
  | signUp (id : Nat)
  | applyAssurance (id : Nat) (band : AgeBand) (verified : Bool)
  | invite (c : Settings) (e : Env) (guardian ward : Nat) (relationship token : String)
      (fails : Bool)
  | acceptFirst (c : Settings) (e : Env) (r ward : Nat) (token : String)
  | acceptSecond (r : Nat) (e : Env) (fails : Bool)
  | decline (e : Env) (ward : Nat) (token : String)
  | revoke (guardian ward : Nat)
  /-- Consents are granted and expire. -/
  | consent (id : Nat) (row : Consent)
  /-- `purge_guardian_invites`. -/
  | purge (now : Nat)

namespace State

variable (s : State)

/-- The request goes on with its second transaction, and is over. -/
def finishAccept (r : Nat) (e : Env) (fails : Bool) : State :=
  match s.accepting.get? r with
  | some a =>
    { (s.acceptSecond e a fails).toOption.getD s with
      accepting := s.accepting.removeIf fun j _ => j == r }
  | none => s

def step : Act → State
  | .signUp id => if (s.users.get? id).isSome then s else
      { s with users := s.users.set id ⟨.unknown, .unassigned, false⟩ }
  | .applyAssurance id band verified => s.applyAssurance id band verified
  | .invite c e guardian ward relationship token fails =>
    (s.createGuardianLinkInvite c e guardian ward relationship token fails).toOption.getD s
  | .acceptFirst c e r ward token => (s.acceptFirst c e r ward token).toOption.getD s
  | .acceptSecond r e fails => s.finishAccept r e fails
  | .decline e ward token => (s.declineGuardianLinkInvite e ward token).toOption.getD s
  | .revoke guardian ward => s.revokeGuardian guardian ward
  | .consent id row => { s with consents := s.consents.set id row }
  | .purge now => { s with invites := s.invites.purge now }

end State

/-- The second transaction of an accept passes all its checks. -/
structure Acceptance (s : State) (e : Env) (a : Accepting) (fails : Bool) (row : Invite) :
    Prop where
  adult : s.cohortOf a.invite.guardian = some .adult
  participates : s.canParticipate e a.invite.guardian = true
  other : a.invite.guardian ≠ a.ward
  row : s.invites.rows.get? a.id = some row
  commits : fails = false

/-- A step links a ward to a guardian because of an invite. -/
def Yields (s : State) (act : Act) (id guardian ward : Nat) (row : Invite) : Prop :=
  ∃ r e fails a, act = .acceptSecond r e fails ∧ s.accepting.get? r = some a ∧ a.id = id ∧
    a.invite.guardian = guardian ∧ a.ward = ward ∧ Acceptance s e a fails row

section
variable {s t : State} {c : Settings} {e : Env} {a : Accepting} {fails : Bool} {act : Act}
  {guardian ward id : Nat} {row : Invite}

theorem acceptSecond_eq_ok : s.acceptSecond e a fails = .ok t ↔
    ∃ row, Acceptance s e a fails row ∧ t = { s with
      links := s.links.set (a.invite.guardian, a.ward) ⟨a.invite.relationship, .active, none⟩
      invites := s.invites.set a.id (row.respond .accepted e.now) } := by
  unfold State.acceptSecond State.linkGuardian
  rw [seq_eq_ok, need_eq_ok, Bool.and_eq_true, beq_iff_eq, bind_eq_ok]
  constructor
  · rintro ⟨⟨hadult, hparticipates⟩, u, hlink, h⟩
    rw [seq_eq_ok, seq_eq_ok, need_eq_ok, bne_iff_ne, pure_eq_ok] at hlink
    obtain ⟨hother, -, rfl⟩ := hlink
    rw [bind_eq_ok] at h
    obtain ⟨row, hrow, h⟩ := h
    rw [seq_eq_ok, need_eq_ok, Bool.not_eq_true', pure_eq_ok] at h
    obtain ⟨hcommits, rfl⟩ := h
    exact ⟨row, ⟨hadult, hparticipates, hother, elim_eq_ok.mp hrow, hcommits⟩, rfl⟩
  · rintro ⟨row, h, rfl⟩
    refine ⟨⟨h.adult, h.participates⟩, { s with
      links := s.links.set (a.invite.guardian, a.ward) ⟨a.invite.relationship, .active, none⟩ },
      ?_, ?_⟩
    · rw [seq_eq_ok, seq_eq_ok, need_eq_ok, need_eq_ok, bne_iff_ne, beq_iff_eq]
      exact ⟨h.other, h.adult, rfl⟩
    · rw [bind_eq_ok]
      refine ⟨row, elim_eq_ok.mpr h.row, ?_⟩
      rw [seq_eq_ok, need_eq_ok, Bool.not_eq_true']
      exact ⟨h.commits, rfl⟩

/-- What a step does: nothing to links and invites, or what one of the operations writes. -/
inductive Moves (s : State) : Act → State → Prop where
  | rest (act : Act) (t : State) (hlinks : t.links = s.links) (hinvites : t.invites = s.invites) :
    Moves s act t
  | invite (act : Act) (t : State) (guardian ward : Nat) (relationship token : String)
    (expires : Nat) (hlinks : t.links = s.links)
    (hinvites : t.invites = s.invites.put guardian ward relationship token expires) :
    Moves s act t
  | respond (act : Act) (t : State) (id : Nat) (i : Invite) (status : InviteStatus) (at' : Nat)
    (hrow : s.invites.rows.get? id = some i) (hpending : i.status = .pending)
    (hlinks : t.links = s.links) (hinvites : t.invites = s.invites.set id (i.respond status at')) :
    Moves s act t
  | link (act : Act) (t : State) (id guardian ward : Nat) (row : Invite) (relationship : String)
    (at' : Nat) (h : Yields s act id guardian ward row)
    (hrow : s.invites.rows.get? id = some row)
    (hlinks : t.links = s.links.set (guardian, ward) ⟨relationship, .active, none⟩)
    (hinvites : t.invites = s.invites.set id (row.respond .accepted at')) : Moves s act t
  | revoke (guardian ward : Nat) : Moves s (.revoke guardian ward) (s.revokeGuardian guardian ward)
  | purge (now : Nat) : Moves s (.purge now) { s with invites := s.invites.purge now }

theorem moves_getD {x : Except Error State} (h : ∀ t, x = .ok t → Moves s act t) :
    Moves s act (x.toOption.getD s) := by
  cases x with
  | ok t => exact h t rfl
  | error => exact Moves.rest act s rfl rfl

theorem moves_step (s : State) (act : Act) : Moves s act (s.step act) := by
  cases act with
  | signUp id =>
    show Moves s _ (if (s.users.get? id).isSome then s else _)
    split <;> exact Moves.rest _ _ rfl rfl
  | applyAssurance id band verified =>
    show Moves s _ (s.applyAssurance id band verified)
    unfold State.applyAssurance
    split <;> exact Moves.rest _ _ rfl rfl
  | invite =>
    refine moves_getD fun t h => ?_
    unfold State.createGuardianLinkInvite at h
    rw [seq_eq_ok, seq_eq_ok, seq_eq_ok, seq_eq_ok, seq_eq_ok, seq_eq_ok, pure_eq_ok] at h
    obtain ⟨-, -, -, -, -, -, rfl⟩ := h
    exact Moves.invite _ _ _ _ _ _ _ rfl rfl
  | acceptFirst =>
    refine moves_getD fun t h => ?_
    unfold State.acceptFirst at h
    rw [seq_eq_ok, bind_eq_ok] at h
    obtain ⟨-, ⟨id, i⟩, hfound, h⟩ := h
    rw [seq_eq_ok] at h
    obtain ⟨-, h⟩ := h
    split at h
    · rw [pure_eq_ok] at h
      subst h
      obtain ⟨hrow, -, hpending⟩ := Invites.pendingWith_spec (elim_eq_ok.mp hfound)
      exact Moves.respond _ _ id i _ _ hrow hpending rfl rfl
    · rw [pure_eq_ok] at h
      subst h
      exact Moves.rest _ _ rfl rfl
  | acceptSecond r e fails =>
    show Moves s _ (s.finishAccept r e fails)
    unfold State.finishAccept
    cases ha : s.accepting.get? r with
    | none => exact Moves.rest _ _ rfl rfl
    | some a =>
      dsimp only
      cases hsecond : s.acceptSecond e a fails with
      | error => exact Moves.rest _ _ rfl rfl
      | ok =>
        obtain ⟨row, haccept, rfl⟩ := acceptSecond_eq_ok.mp hsecond
        exact Moves.link _ _ a.id _ _ row _ _ ⟨r, e, fails, a, rfl, ha, rfl, rfl, rfl, haccept⟩
          haccept.row rfl rfl
  | decline =>
    refine moves_getD fun t h => ?_
    unfold State.declineGuardianLinkInvite at h
    split at h
    · rename_i id i hfound
      split at h
      · cases h
        obtain ⟨hrow, -, hpending⟩ := Invites.pendingWith_spec hfound
        exact Moves.respond _ _ id i _ _ hrow hpending rfl rfl
      · cases h
    · cases h
  | revoke guardian ward => exact Moves.revoke guardian ward
  | consent => exact Moves.rest _ _ rfl rfl
  | purge now => exact Moves.purge now

/-! ### What the law needs -/

/-- A step makes a link active that was not. -/
def Activates (s : State) (act : Act) (guardian ward : Nat) : Prop :=
  s.isGuardianOf guardian ward = false ∧ (s.step act).isGuardianOf guardian ward = true

/-- The second transaction of an accept finds its ward in no minor's cohort any more, when it would
make a link, or finds the invite declined or expired. -/
def TooLate (s : State) (act : Act) : Prop :=
  ∃ id guardian ward row, Yields s act id guardian ward row ∧
    ((s.isGuardianOf guardian ward = false ∧ (s.cohortOf ward).any minorCohort = false) ∨
      row.Refused)

theorem Yields.step (h : Yields s act id guardian ward row) :
    (s.step act).isGuardianOf guardian ward = true := by
  obtain ⟨r, e, fails, a, rfl, ha, rfl, rfl, rfl, haccept⟩ := h
  have hsecond := acceptSecond_eq_ok.mpr ⟨row, haccept, rfl⟩
  show (s.finishAccept r e fails).isGuardianOf _ _ = true
  unfold State.finishAccept State.isGuardianOf
  rw [ha]
  dsimp only
  rw [hsecond]
  show ((s.links.set _ _).get? _).any _ = true
  rw [KeyMap.get?_set, if_pos rfl]
  rfl

theorem Activates.yields (h : Activates s act guardian ward) :
    ∃ id row, Yields s act id guardian ward row := by
  obtain ⟨hbefore, hafter⟩ := h
  generalize ht : s.step act = t at hafter
  have hmoves : Moves s act t := ht ▸ moves_step s act
  unfold State.isGuardianOf at hbefore hafter
  cases hmoves with
  | rest _ _ hlinks => rw [hlinks, hbefore] at hafter; cases hafter
  | invite _ _ g w relationship token expires hlinks => rw [hlinks, hbefore] at hafter; cases hafter
  | respond _ _ id i status at' hrow hpending hlinks =>
    rw [hlinks, hbefore] at hafter
    cases hafter
  | link _ _ id g w row relationship at' hyields hrow hlinks =>
    rw [hlinks, KeyMap.get?_set] at hafter
    split at hafter
    · rename_i hpair
      obtain ⟨rfl, rfl⟩ := Prod.mk.inj hpair
      exact ⟨id, row, hyields⟩
    · rw [hbefore] at hafter
      cases hafter
  | revoke =>
    unfold State.revokeGuardian at hafter
    rw [KeyMap.get?_mapRows] at hafter
    cases hlink : s.links.get? (guardian, ward) with
    | none =>
      rw [hlink] at hafter
      cases hafter
    | some =>
      rw [hlink] at hbefore hafter
      simp only [Option.map_some, Option.any_some] at hbefore hafter
      split at hafter
      · cases hafter
      · rw [hbefore] at hafter
        cases hafter
  | purge => rw [hbefore] at hafter; cases hafter

theorem invitesKept_step (hs : s.invites.Numbered) (htimely : ¬TooLate s act) :
    s.invites.Kept Invite.Refused (s.step act).invites := by
  generalize ht : s.step act = t
  have hmoves : Moves s act t := ht ▸ moves_step s act
  have hpending : ∀ i : Invite, i.status = .pending → ¬i.Refused := by
    rintro i h (hd | hd) <;> rw [h] at hd <;> cases hd
  cases hmoves with
  | rest _ _ hlinks hinvites =>
    rw [hinvites]
    exact Invites.Kept.refl hs
  | invite _ _ g w relationship token expires hlinks hinvites =>
    rw [hinvites]
    exact Invites.Kept.put hs hpending _ _ _ _ _
  | respond _ _ id i status at' hrow hstatus hlinks hinvites =>
    rw [hinvites]
    exact Invites.Kept.set hs hrow (hpending i hstatus) _
  | link _ _ id g w row relationship at' hyields hrow hlinks hinvites =>
    rw [hinvites]
    exact Invites.Kept.set hs hrow
      (fun hrefused => htimely ⟨id, g, w, row, hyields, Or.inr hrefused⟩) _
  | revoke => exact Invites.Kept.refl hs
  | purge now => exact Invites.Kept.purge hs now

/-- The state after a run. -/
def after (acts : List Act) : State := Machine.run State.step State.empty acts

/-- What the law says about a run. -/
structure LinkLaw (acts : List Act) : Prop where
  /-- A link becomes active only by an accept of an invite, and while the ward is in a minor's
  cohort. -/
  minors : ∀ q ∈ Machine.steps State.step State.empty acts, ∀ guardian ward,
    Activates q.1 q.2 guardian ward →
      (∃ id row, Yields q.1 q.2 id guardian ward row) ∧ (q.1.cohortOf ward).any minorCohort = true
  /-- An invite that was declined, or that has expired, yields no link. -/
  refused : ∀ before mid act rest, acts = before ++ mid ++ act :: rest → ∀ id i,
    (after before).invites.rows.get? id = some i → i.Refused → ∀ guardian ward row,
      ¬Yields (after (before ++ mid)) act id guardian ward row

theorem invitesKept_run {s : State} (hs : s.invites.Numbered) {acts : List Act}
    (htimely : ∀ q ∈ Machine.steps State.step s acts, ¬TooLate q.1 q.2) :
    s.invites.Kept Invite.Refused (Machine.run State.step s acts).invites := by
  induction acts generalizing s with
  | nil => exact Invites.Kept.refl hs
  | cons act acts ih =>
    have hfirst := invitesKept_step hs (htimely (s, act) List.mem_cons_self)
    exact hfirst.trans hs
      (ih hfirst.numbered fun q hq => htimely q (List.mem_cons_of_mem _ hq))

/-- The law holds in a run exactly when none of its accepts comes too late. -/
theorem link_law (acts : List Act) :
    LinkLaw acts ↔ ∀ q ∈ Machine.steps State.step State.empty acts, ¬TooLate q.1 q.2 := by
  constructor
  · rintro hlaw q hq ⟨id, guardian, ward, row, hyields, ⟨hnew, hgrown⟩ | hrefused⟩
    · have hminor := (hlaw.minors q hq guardian ward ⟨hnew, hyields.step⟩).2
      rw [hgrown] at hminor
      cases hminor
    · obtain ⟨before, rest, rfl, hstate⟩ := (Machine.mem_steps State.step).mp hq
      have hrow : q.1.invites.rows.get? id = some row := by
        obtain ⟨r, e, fails, a, -, -, rfl, -, -, haccept⟩ := hyields
        exact haccept.row
      refine hlaw.refused before [] q.2 rest (by rw [List.append_nil]) id row ?_ hrefused guardian
        ward row ?_
      · show (Machine.run State.step State.empty before).invites.rows.get? id = some row
        rw [← hstate]
        exact hrow
      · rw [List.append_nil]
        show Yields (Machine.run State.step State.empty before) q.2 id guardian ward row
        rw [← hstate]
        exact hyields
  · intro htimely
    refine ⟨fun q hq guardian ward hactivates => ?_, ?_⟩
    · obtain ⟨id, row, hyields⟩ := hactivates.yields
      refine ⟨⟨id, row, hyields⟩, ?_⟩
      cases hminor : (q.1.cohortOf ward).any minorCohort with
      | true => rfl
      | false =>
        exact absurd ⟨id, guardian, ward, row, hyields, Or.inl ⟨hactivates.1, hminor⟩⟩ (htimely q hq)
    · rintro before mid act rest rfl id i hi hrefused guardian ward row hyields
      have hsteps : ∀ q ∈ Machine.steps State.step State.empty (before ++ mid), ¬TooLate q.1 q.2 := by
        intro q hq
        refine htimely q ?_
        rw [Machine.steps_append]
        exact List.mem_append_left _ hq
      rw [Machine.steps_append, List.forall_mem_append] at hsteps
      have hnumbered := (invitesKept_run (s := State.empty) Invites.numbered_empty hsteps.1).numbered
      have hkept := invitesKept_run hnumbered hsteps.2
      rw [← Machine.run_append] at hkept
      have hrow : (after (before ++ mid)).invites.rows.get? id = some row := by
        obtain ⟨r, e, fails, a, -, -, rfl, -, -, haccept⟩ := hyields
        exact haccept.row
      have hsame := hkept.stays id i hi hrefused row hrow
      refine htimely (after (before ++ mid), act) ?_ ⟨id, guardian, ward, row, hyields, Or.inr ?_⟩
      · exact (Machine.mem_steps State.step).mpr ⟨before ++ mid, rest, rfl, rfl⟩
      · rw [hsame]
        exact hrefused

end

/-! ### Accepts that come too late -/

def sampleSettings : Settings := ⟨true, 100⟩

/-- At this time, with all assurances current. -/
def envAt (now : Nat) : Env := ⟨now, fun _ => true⟩

/-- A teenager is invited by an adult, and the accept has run its first transaction. -/
def accepting : List Act :=
  [.signUp 1, .applyAssurance 1 .adult true, .signUp 2, .applyAssurance 2 .age1617 true,
    .invite sampleSettings (envAt 5) 1 2 "parent" "token" false,
    .acceptFirst sampleSettings (envAt 6) 1 2 "token"]

/-- The ward declines the invite, and is linked. -/
theorem accepted_although_declined :
    ((after (accepting ++ [.decline (envAt 7) 2 "token"])).invites.rows.get? 1).map Invite.status =
        some .declined ∧
      (after (accepting ++ [.decline (envAt 7) 2 "token"] ++
        [.acceptSecond 1 (envAt 8) false])).isGuardianOf 1 2 = true ∧
      ¬LinkLaw (accepting ++ [.decline (envAt 7) 2 "token"] ++
        [.acceptSecond 1 (envAt 8) false]) := by
  refine ⟨by decide, by decide, fun hlaw => ?_⟩
  refine hlaw.refused _ [] _ [] (by rw [List.append_nil]) 1
    ⟨1, 2, "parent", "token", .declined, 105, some 7⟩ (by decide) (Or.inl rfl) 1 2
    ⟨1, 2, "parent", "token", .declined, 105, some 7⟩ ?_
  exact ⟨1, envAt 8, false, ⟨2, 1, ⟨1, 2, "parent", "token", .pending, 105, none⟩⟩, rfl, by decide,
    rfl, rfl, rfl, ⟨by decide, by decide, by decide, by decide, rfl⟩⟩

/-- The ward comes of age between the two transactions, and gets a guardian. -/
example : (after (accepting ++ [.applyAssurance 2 .adult true,
    .acceptSecond 1 (envAt 8) false])).isGuardianOf 1 2 = true := by decide

end SocialActivities.Guardians.Py
