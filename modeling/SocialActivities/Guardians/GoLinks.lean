import SocialActivities.Guardians.Rows
import SocialActivities.Social.GoActivity

/-!
# `SocialActivities.Guardians.GoLinks`: the transactions of a guardianship (Go)

The transactions of `services/server/internal/accounts` that write guardian links, their invites
and parental consents: `GuardianLinks`, `AcceptGuardian`, `DeclineGuardian`, `WardConsent`,
`RevokeGuardian`, and `AgeVerify` with `revokeAdultWard`. An error rolls a transaction back.

A handler gets its actor from the request, so a transaction takes the `Actor` that was loaded
before it began. `Env` is what it reads elsewhere. Its accounts, links and consents are those of
the state (`State.env`).
-/

namespace SocialActivities.Guardians.Go

open Lib
open Social (Cohort)
open Social.Go (Actor AgeBand Env Error User participate)

/-- A row of `accounts_user`. -/
structure Account where
  username : String
  user : User
  deriving DecidableEq

structure State where
  accounts : KeyMap Nat Account
  links : KeyMap (Nat × Nat) Link
  invites : Invites
  consents : KeyMap Nat Consent
  nextConsent : Nat

/-- The settings of the service. -/
structure Config where
  allowMinorOnboarding : Bool
  guardianInviteTTL : Nat
  consentValidity : Nat
  deriving DecidableEq

namespace State

variable (s : State)

/-- What a transaction reads, with the accounts, the links and the consents of the state. -/
def env (e : Env) : Env :=
  { e with
    users := fun id => (s.accounts.get? id).map Account.user
    guardianOf := fun guardian ward => (s.links.get? (guardian, ward)).any Link.isActive
    parentalConsent := fun minor =>
      s.consents.entries.any fun c => c.2.minor == minor && c.2.isValid e.now }

def actor (id : Nat) : Except Error Actor :=
  (s.accounts.get? id).elim (.error .errNoRows) fun a => .ok ⟨id, a.user⟩

/-- The cohort in the account. -/
def cohortOf (id : Nat) : Option Cohort := (s.accounts.get? id).map fun a => a.user.cohort

/-- An active link of the guardian to the ward. -/
def isLinked (guardian ward : Nat) : Bool := (s.links.get? (guardian, ward)).any Link.isActive

/-- `isGuardian`: with the ward in a minor's cohort now. -/
def isGuardian (guardian ward : Nat) : Bool :=
  s.isLinked guardian ward && (s.cohortOf ward).any minorCohort

/-- `GuardianLinks`, the POST: the guardian invites a ward. -/
def invite (c : Config) (e : Env) (clock : Nat) (a ward : Actor) (relationship token : String)
    (fails : Bool) : Except Error State := do
  need Error.errInvalid c.allowMinorOnboarding
  let relationship := if relationship = "" then "parent" else relationship
  need Error.errInvalid (decide (relationship.length ≤ 32))
  need Error.errInvalid (a.id != ward.id && a.user.cohort == .adult && a.user.isIdentityVerified
    && ward.user.isActive && minorCohort ward.user.cohort)
  participate (s.env e) a
  need Error.errForbidden (!e.blocked a.id ward.id)
  need Error.errInvalid (!s.isGuardian a.id ward.id)
  need Error.failed (!fails && s.invites.tokenFree (s.invites.rowFor a.id ward.id) token)
  pure { s with
    invites := s.invites.put a.id ward.id relationship token (clock + c.guardianInviteTTL) }

/-- The pending invite with the token that is addressed to the ward. -/
def pendingInvite (ward : Nat) (token : String) : Except Error (Nat × Invite) :=
  match s.invites.pendingWith token with
  | some (id, i) => if i.ward = ward then .ok (id, i) else .error .errNoRows
  | none => .error .errNoRows

/-- `AcceptGuardian`. An invite that has expired is marked, and the mark is committed. -/
def accept (c : Config) (e : Env) (clock : Nat) (a : Actor) (token : String) (fails : Bool) :
    Except Error State := do
  need Error.errInvalid c.allowMinorOnboarding
  let (id, i) ← s.pendingInvite a.id token
  if i.expiresAt ≤ clock then
    pure { s with invites := s.invites.set id (i.respond .expired e.now) }
  else do
    let g ← s.actor i.guardian
    -- The ward's cohort is the one of the request's actor.
    need Error.errInvalid (g.user.cohort == .adult && minorCohort a.user.cohort)
    participate (s.env e) g
    need Error.errForbidden (!e.blocked g.id a.id)
    need Error.failed (!fails)
    pure { s with
      links := s.links.set (g.id, a.id) ⟨i.relationship, .active, none⟩
      invites := s.invites.set id (i.respond .accepted e.now) }

/-- `DeclineGuardian`. -/
def decline (e : Env) (a : Actor) (token : String) (fails : Bool) : Except Error State := do
  let (id, i) ← (s.pendingInvite a.id token).mapError fun _ => Error.errInvalid
  need Error.failed (!fails)
  pure { s with invites := s.invites.set id (i.respond .declined e.now) }

/-- The consents after a revocation. -/
def revokeConsents (revoked : Consent → Bool) : State :=
  { s with consents := s.consents.mapRows fun _ c => if revoked c then c.revoke else c }

/-- The links after a revocation. -/
def revokeLinks (revoked : Nat × Nat → Bool) : State :=
  { s with links := s.links.mapRows fun pair l =>
      if revoked pair && l.isActive then { l with status := .revoked } else l }

/-- `WardConsent`, the DELETE: the rows of the accounts. -/
def withdrawConsent (a ward : Actor) (fails : Bool) : Except Error State := do
  need Error.errForbidden (s.isGuardian a.id ward.id)
  need Error.failed (!fails)
  pure (s.revokeConsents fun c => c.minor == ward.id)

/-- The consent row of the guardian for the minor. -/
def consentFor (minor guardian : Nat) : Option Nat :=
  (s.consents.entries.find? fun e => e.2.minor == minor && e.2.guardian == guardian).map Prod.fst

/-- The insert or the update of `WardConsent`, and the consent of the link. -/
def putConsent (guardian minor expires : Nat) : State :=
  let id := (s.consentFor minor guardian).getD s.nextConsent
  { s with
    consents := s.consents.set id ⟨minor, guardian, .active, some expires⟩
    nextConsent := max s.nextConsent (id + 1)
    links := s.links.mapRows fun pair l =>
      if pair == (guardian, minor) && l.isActive then { l with consent := some id } else l }

/-- `WardConsent`, the POST. -/
def grantConsent (c : Config) (e : Env) (clock : Nat) (a ward : Actor) (fails : Bool) :
    Except Error State := do
  need Error.errForbidden (s.isGuardian a.id ward.id)
  need Error.errInvalid (c.allowMinorOnboarding && ward.user.ageBand == .under16
    && a.user.cohort == .adult)
  participate (s.env e) a
  need Error.failed (!fails)
  pure (s.putConsent a.id ward.id (clock + c.consentValidity))

/-- `RevokeGuardian`: the rows of the accounts. It reads its actor again. -/
def revokeGuardian (a ward : Nat) (fails : Bool) : Except Error State := do
  let fresh ← s.actor a
  need Error.errForbidden fresh.user.isActive
  need Error.errForbidden (s.isLinked a ward)
  let _ ← s.actor ward
  need Error.failed (!fails)
  pure ((s.revokeLinks fun pair => pair == (a, ward)).revokeConsents fun c =>
    c.minor == ward && c.guardian == a)

def revokeAdultWard (ward : Nat) : State :=
  (s.revokeConsents fun c => c.minor == ward).revokeLinks fun pair => pair.2 == ward

/-- The age band and the cohort that a verified presentation gives. -/
def ageClaims (over16 over18 : Bool) : AgeBand × Cohort :=
  if over18 then (.adult, .adult) else if over16 then (.age1617, .teen) else (.under16, .child)

/-- The update of the account in `AgeVerify`. -/
def setAge (id : Nat) (age : AgeBand × Cohort) : State :=
  match s.accounts.get? id with
  | some account => { s with
      accounts := s.accounts.set id { account with
        user := { account.user with
          ageBand := age.1, cohort := age.2, isIdentityVerified := true } } }
  | none => s

/-- `AgeVerify`: the rows of the accounts, after the presentation has been verified. -/
def ageVerify (a : Nat) (over16 over18 fails : Bool) : Except Error State := do
  need Error.failed (!fails)
  let age := ageClaims over16 over18
  -- Adulthood ends guardian authority in the same transaction.
  let s := if age.2 = .adult then s.revokeAdultWard a else s
  pure (s.setAge a age)

end State

end SocialActivities.Guardians.Go
