import SocialActivities.Guardians.GoLinks
import SocialActivities.Messaging.Rows
import SocialActivities.Safety.GoModeration

/-!
# `SocialActivities.Messaging.GoConversations`: who is in a conversation (Go)

The transactions of `services/server/internal/messaging` that write conversations and their
participants: `Start`, `Transition`, `AddParticipant`, `RemoveParticipant`, `AddGuardian`,
`SetDisappearing`, `Post`, with `PruneObservers` and `RemoveUser`. An error rolls a transaction back.

The accounts, guardian links and consents are the `State` of `Guardians.GoLinks`. The services of
`internal/accounts` that end a participation are here too, over both parts: `evictParticipation`
and what calls it, `RevokeGuardian`, the DELETE of `WardConsent`, `AgeVerify` and `Erase`.
-/

namespace SocialActivities.Messaging.Go

open Lib
open Social (Cohort)
open Social.Go (Actor AgeBand Env Error participate)
open Safety.Go (trimSpace)

structure State where
  accounts : Guardians.Go.State
  chats : Chats

/-- `Service`: the setting that bounds a conversation. -/
structure Config where
  maxGroupMembers : Int
  deriving DecidableEq

def Config.maxMembers (c : Config) : Nat :=
  if c.maxGroupMembers < 1 ∨ 256 < c.maxGroupMembers then 256 else c.maxGroupMembers.toNat

/-- What a transaction reads elsewhere: who has an active public key, and whether the budget allows
the action. `fails` stands for a statement that returns an error. -/
structure Reads where
  env : Env
  hasKey : Nat → Bool
  budgetAllows : Bool
  fails : Bool

namespace State

variable (s : State) (x : Reads)

def empty : State := ⟨⟨KeyMap.empty, KeyMap.empty, Guardians.Invites.empty, KeyMap.empty, 1⟩,
  Chats.empty⟩

/-- The participation gate, with the accounts of the state. -/
def participates (a : Actor) : Except Error Unit := participate (s.accounts.env x.env) a

def target (username : String) : Except Error Actor :=
  match s.accounts.accounts.entries.find? fun e => e.2.username == username with
  | some e => s.accounts.actor e.1
  | none => .error .errNoRows

def pair (a b : Actor) : Except Error Unit := do
  need Error.errForbidden (a.id != b.id && a.user.isActive && b.user.isActive
    && a.user.cohort != .unassigned && a.user.cohort == b.user.cohort)
  s.participates x a
  s.participates x b
  need Error.errForbidden (!x.env.blocked a.id b.id)

/-! ### `Start` -/

/-- The kind that a request names. -/
def parseKind (kind : String) : Option Kind :=
  if kind = "" ∨ kind = "direct" then some .direct
  else if kind = "group" then some .group else none

def trim (title : String) (n : Nat) : String := String.ofList ((trimSpace title).take n)

/-- The loop over the names. `seen` holds the targets so far. -/
def collect (a : Actor) (kind : Kind) : List Actor → List String → Except Error (List Actor)
  | seen, [] => .ok seen
  | seen, name :: names => do
    let b ← s.target name
    if kind = .group ∧ b.id = a.id then collect a kind seen names
    else if seen.any fun t => t.id == b.id then collect a kind seen names
    else do
      s.pair x a b
      collect a kind (seen ++ [b]) names

/-- The rows of a reused direct chat that are revived: the peer's if it has left or was removed, and
the starter's if the peer is not active. -/
def revived (c a b : Nat) (key : Nat × Nat) (p : Participant) : Bool :=
  key.1 == c && (key.2 == a || key.2 == b) && (p.state == .left || p.state == .removed)
    && (key.2 == b || !(s.chats.participants.get? (c, b)).any Participant.isActive)

/-- The update of a reused direct chat: the starter is active, the peer is invited. -/
def revive (c a b : Nat) : State :=
  { s with chats := { s.chats with
      participants := s.chats.participants.mapRows fun key p =>
        if s.revived c a b key p then
          if key.2 = a then { p with state := .active }
          else { p with state := .invited, invitedBy := some a }
        else p } }

/-- `Start` after the targets have been found. -/
def startWith (c : Config) (a : Actor) (kind : Kind) (targets : List Actor) (title : String) :
    Except Error (State × Nat) := do
  need Error.errInvalid (!targets.isEmpty
    && (kind == .direct || decide (targets.length + 1 ≤ c.maxMembers))
    && (kind == .group || targets.length == 1))
  let peer := if kind = .direct then targets.head? else none
  match peer.bind fun b => (s.chats.directOf id a.id b.id).map fun found => (b, found) with
  | some (b, found) =>
    if s.chats.participants.anyRow (s.revived found a.id b.id) then do
      need Error.errForbidden x.budgetAllows
      need Error.failed (!x.fails)
      pure (s.revive found a.id b.id, found)
    else pure (s, found)
  | none => do
    need Error.errForbidden x.budgetAllows
    need Error.failed (!x.fails)
    -- A direct chat has no title.
    let title := if kind = .direct then "" else title
    pure ({ s with
      chats := s.chats.start kind title a.user.cohort a.id (targets.map Actor.id) x.env.now },
      s.chats.next)

def start (c : Config) (a : Nat) (kind : String) (names : List String) (title : String) :
    Except Error (State × Nat) := do
  let kind ← (parseKind kind).elim (.error .errInvalid) .ok
  need Error.errInvalid (decide (names.length ≤ 255) && !names.isEmpty
    && decide (title.length ≤ 2000))
  let a ← s.accounts.actor a
  s.participates x a
  let targets ← s.collect x a kind [] names
  s.startWith x c a kind targets (trim title 120)

/-! ### Observers -/

/-- An active account in the children's cohort. -/
def isActiveChild (u : Nat) : Bool :=
  (s.accounts.accounts.get? u).any fun a => a.user.cohort == .child && a.user.isActive

/-- A child of the guardian is active in the conversation, and no guardian there. -/
def hasWard (c guardian : Nat) : Bool :=
  s.chats.participants.anyRow fun key p => key.1 == c && p.isActive && p.role != .guardian
    && s.isActiveChild key.2 && s.accounts.isLinked guardian key.2

def pruneObservers (c : Nat) : State :=
  { s with
    chats := s.chats.mark (fun key p => key.1 == c && p.isObserver && !s.hasWard c key.2) .removed }

/-- The conversations in which the user is active or invited. -/
def seatsOf (u : Nat) : List Nat :=
  (s.chats.participants.keysWhere fun key p => key.2 == u && p.isSeated).map Prod.fst

/-- End the participation of the user in every conversation. -/
def removeSeats (u : Nat) : State :=
  { s with chats := s.chats.mark (fun key p => key.2 == u && p.isSeated) .removed }

/-- `PruneObservers` for each of the conversations. -/
def pruneEach (ids : List Nat) : State := ids.foldl pruneObservers s

def removeUser (u : Nat) : State := (s.removeSeats u).pruneEach (s.seatsOf u)

/-- The query of `evictParticipation`: an account in the children's cohort with a link to the
guardian is active in the conversation. It asks neither for the role nor for an active account. -/
def hasWardRow (c guardian : Nat) : Bool :=
  s.chats.participants.anyRow fun key p => key.1 == c && p.isActive
    && s.accounts.isLinked guardian key.2 && s.accounts.cohortOf key.2 == some .child

/-- The second update of `evictParticipation`. -/
def pruneAll : State :=
  { s with
    chats := s.chats.mark (fun key p => p.isObserver && !s.hasWardRow key.1 key.2) .removed }

/-- `evictParticipation`, without the groups of `internal/social`. -/
def evictParticipation (u : Nat) : State := (s.removeSeats u).pruneAll

def guardianEligible (a c : Nat) : Bool :=
  match s.accounts.actor a with
  | .error _ => false
  | .ok fresh =>
    fresh.user.isActive && fresh.user.cohort == .adult && (s.participates x fresh).isOk
      && (s.chats.natureOf c).any (fun n => n.2 == .child)
      && ((s.chats.participants.keysWhere fun key p => key.1 == c && p.isActive
          && p.role != .guardian && s.isActiveChild key.2
          && s.accounts.isLinked a key.2).take 256).any fun key =>
        match s.accounts.actor key.2 with
        | .ok ward => (s.participates x ward).isOk
        | .error _ => false

/-! ### The other transactions -/

/-- The row of a participant, with the kind and the cohort of the conversation. -/
def seat (c u : Nat) : Option (Participant × Kind × Cohort) :=
  (s.chats.participants.get? (c, u)).bind fun p => (s.chats.natureOf c).map fun n => (p, n)

/-- The actions of `Transition`. -/
inductive Action where
  | accept
  | decline
  | leave
  deriving DecidableEq

/-- The checks of an action, and the state that it gives. -/
def nextState (a : Actor) (p : Participant) (cohort : Cohort) : Action → Except Error PartState
  | .accept => do
    need Error.errInvalid (p.state == .invited && a.user.cohort != .unassigned
      && a.user.cohort == cohort)
    s.participates x a
    pure PartState.active
  | .decline => do
    need Error.errInvalid (p.state == .invited)
    pure PartState.declined
  | .leave => do
    need Error.errInvalid p.isSeated
    pure PartState.left

def transition (a c : Nat) (action : Action) : Except Error State := do
  let a ← s.accounts.actor a
  let (p, _, cohort) ← (s.seat c a.id).elim (.error .errNoRows) .ok
  let next ← s.nextState x a p cohort action
  need Error.failed (!x.fails)
  let joinedAt := if next = .active then some x.env.now else p.joinedAt
  let s := { s with chats := s.chats.put c a.id { p with state := next, joinedAt } }
  pure (s.pruneObservers c)

def canAdminister (a : Actor) (c : Nat) : Except Error (Kind × Cohort) := do
  need Error.errForbidden a.user.isActive
  let (p, n) ← (s.seat c a.id).elim (.error .errForbidden) .ok
  need Error.errForbidden (p.isActive && p.role != .guardian && a.user.cohort == n.2)
  s.participates x a
  need Error.errInvalid (p.role == .admin)
  pure n

/-- `RemoveParticipant`: `changeParticipant` with `remove`. -/
def removeParticipant (a c : Nat) (username : String) : Except Error State := do
  let a ← s.accounts.actor a
  let _ ← s.canAdminister x a c
  let b ← s.target username
  need Error.errInvalid (b.id != a.id)
  let p ← (s.chats.participants.get? (c, b.id)).elim (.error .errInvalid) .ok
  need Error.errInvalid (p.isSeated && p.role != .guardian)
  need Error.failed (!x.fails)
  let s := { s with chats := s.chats.put c b.id { p with state := .removed } }
  pure (s.pruneObservers c)

/-- The row after the upsert of `AddParticipant`: a row that is there keeps its role. -/
def addedRow (c b by' : Nat) : Participant :=
  match s.chats.participants.get? (c, b) with
  | some p => { p with state := .invited, invitedBy := some by' }
  | none => Chats.invitation by'

/-- `AddParticipant`: `changeParticipant` without `remove`. -/
def addParticipant (cfg : Config) (a c : Nat) (username : String) : Except Error State := do
  let a ← s.accounts.actor a
  let (kind, cohort) ← s.canAdminister x a c
  let b ← s.target username
  need Error.errInvalid (b.id != a.id)
  need Error.errInvalid (kind == .group && b.user.cohort == cohort)
  s.pair x a b
  if (s.chats.participants.get? (c, b.id)).any Participant.isSeated then pure s
  else do
    need Error.errInvalid (decide (s.chats.seats c < cfg.maxMembers))
    need Error.failed (!x.fails)
    pure { s with chats := s.chats.put c b.id (s.addedRow c b.id a.id) }

/-- The row after the upsert of `AddGuardian`. -/
def observerRow (c a now : Nat) : Participant :=
  match s.chats.participants.get? (c, a) with
  | some p => { p with state := .active, role := .guardian, joinedAt := some now }
  | none => ⟨.active, .guardian, none, some now⟩

def addGuardian (cfg : Config) (a c : Nat) : Except Error State := do
  need Error.errInvalid (s.guardianEligible x a c)
  need Error.errInvalid (x.hasKey a)
  if (s.chats.participants.get? (c, a)).any Participant.isActive then pure s
  else do
    need Error.errInvalid (decide (s.chats.seats c < cfg.maxMembers))
    need Error.failed (!x.fails)
    pure { s with chats := s.chats.put c a (s.observerRow c a x.env.now) }

def canView (a c : Nat) : Except Error Bool := do
  let a ← s.accounts.actor a
  if !a.user.isActive then pure false
  else match s.seat c a.id with
  | none => pure false
  | some (p, kind, cohort) =>
    if !p.isActive then pure false
    else if p.role = .guardian then pure (s.guardianEligible x a.id c)
    else if a.user.cohort ≠ cohort ∨ (s.participates x a).isOk = false then pure false
    else if kind ≠ .direct then pure true
    -- A block vetoes a direct chat, unless the peer's account is deactivated.
    else pure !(s.chats.participants.anyRow fun key p => key.1 == c && p.isActive
      && p.role != .guardian && key.2 != a.id && x.env.blocked a.id key.2
      && (s.accounts.accounts.get? key.2).any fun peer => peer.user.isActive)

def canWrite (a c : Nat) : Except Error Unit := do
  let ok ← s.canView x a c
  need Error.errForbidden ok
  need Error.errForbidden ((s.chats.participants.get? (c, a)).any fun p => p.role != .guardian)

def setDisappearing (a c seconds : Nat) : Except Error State := do
  need Error.errInvalid ([0, 300, 3600, 86400, 604800, 2592000].contains seconds)
  s.canWrite x a c
  let (p, kind, _) ← (s.seat c a).elim (.error .errNoRows) .ok
  need Error.errInvalid (kind == .direct || p.role == .admin)
  need Error.failed (!x.fails)
  pure { s with chats := s.chats.touch c (fun _ => seconds) x.env.now }

/-- The active participants with an active account, as `Post` reads them (`LIMIT 257`). -/
def members (c : Nat) : List Nat :=
  ((s.chats.participants.keysWhere fun key p => key.1 == c && p.isActive
    && (s.accounts.accounts.get? key.2).any fun u => u.user.isActive).map Prod.snd).take 257

/-- A recipient key: whose it is, and whether its texts pass the checks. -/
structure RecipientKey where
  recipient : Nat
  wellFormed : Bool
  deriving DecidableEq

/-- `Post`: the conversation. `textsValid` stands for the checks on the ciphertext. -/
def post (cfg : Config) (a c : Nat) (keys : List RecipientKey) (textsValid : Bool) :
    Except Error State := do
  need Error.errInvalid (textsValid && decide (keys.length ≤ cfg.maxMembers))
  -- The first transaction takes the budget; the second one checks `canWrite` again.
  s.canWrite x a c
  need Error.errForbidden x.budgetAllows
  need Error.errInvalid (decide ((s.members c).length ≤ cfg.maxMembers)
    && (s.members c).length == keys.length)
  need Error.errInvalid (decide (keys.map RecipientKey.recipient).Nodup
    && keys.all fun k => (s.members c).contains k.recipient && k.wellFormed)
  need Error.failed (!x.fails)
  pure { s with chats := s.chats.touch c id x.env.now }

/-! ### The services of `internal/accounts` -/

/-- The conversations in which one of the two is active. -/
def activeIn (a b : Nat) : List Nat :=
  ((s.chats.participants.keysWhere fun key p => (key.2 == a || key.2 == b) && p.isActive).map
    Prod.fst).dedup

def revokeGuardian (a ward : Nat) : Except Error State := do
  let accounts ← s.accounts.revokeGuardian a ward x.fails
  let w ← accounts.actor ward
  let s : State := ⟨accounts, s.chats⟩
  let s := s.pruneEach (s.activeIn a ward)
  if (s.participates x w).isOk then pure s
  else pure ((s.removeUser ward).evictParticipation ward)

/-- The DELETE of `WardConsent`. -/
def withdrawConsent (a ward : Nat) : Except Error State := do
  let a ← s.accounts.actor a
  let w ← s.accounts.actor ward
  let accounts ← s.accounts.withdrawConsent a w x.fails
  let s : State := ⟨accounts, s.chats⟩
  pure (s.evictParticipation ward)

/-- The writes of `AgeVerify`. -/
def setAge (a : Actor) (age : AgeBand × Cohort) : State :=
  let s : State := if age.2 = .adult then ⟨s.accounts.revokeAdultWard a.id, s.chats⟩ else s
  -- The eviction comes before the cohort changes.
  let s := if a.user.cohort ≠ age.2 ∧ a.user.cohort ≠ .unassigned then s.evictParticipation a.id
    else s
  ⟨s.accounts.setAge a.id age, s.chats⟩

/-- `AgeVerify`, after the presentation has been verified. -/
def ageVerify (a : Nat) (over16 over18 : Bool) : Except Error State := do
  let a ← s.accounts.actor a
  need Error.failed (!x.fails)
  pure (s.setAge a (Guardians.Go.State.ageClaims over16 over18))

/-- `deleteRows` on the account: its links, invites and consents, and its participations. -/
def deleteAccount (u : Nat) : State where
  accounts := { s.accounts with
    accounts := s.accounts.accounts.removeIf fun id _ => id == u
    links := s.accounts.links.removeIf fun pair _ => pair.1 == u || pair.2 == u
    invites := { s.accounts.invites with
      rows := s.accounts.invites.rows.removeIf fun _ i => i.guardian == u || i.ward == u }
    consents := s.accounts.consents.removeIf fun _ c => c.minor == u }
  chats := s.chats.erase u

/-- The loop of `Erase` over the wards: those who cannot participate any more are evicted. -/
def evictWards : List Nat → State → Except Error State
  | [], s => .ok s
  | ward :: wards, s => do
    let w ← s.accounts.actor ward
    evictWards wards (if (s.participates x w).isOk then s else s.evictParticipation ward)

/-- The wards of the guardian. -/
def wardsOf (u : Nat) : List Nat :=
  (s.accounts.links.keysWhere fun pair l => pair.1 == u && l.isActive).map Prod.snd

/-- The consents and the links that the guardian has given are revoked. -/
def endGuardianships (u : Nat) : State :=
  { s with accounts :=
      (s.accounts.revokeConsents fun c => c.guardian == u).revokeLinks fun pair => pair.1 == u }

def erase (a u : Nat) : Except Error State := do
  let _ ← s.accounts.actor u
  need Error.errForbidden (a == u || s.accounts.isGuardian a u)
  need Error.failed (!x.fails)
  let s ← evictWards x (s.wardsOf u) (s.endGuardianships u)
  pure ((s.evictParticipation u).deleteAccount u)

end State

end SocialActivities.Messaging.Go
