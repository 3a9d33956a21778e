import SocialActivities.Guardians.GoLinks

/-!
# `SocialActivities.Guardians.GoAuthority`: no guardian authority over an adult (Go)

Requests load their actors and run their transactions later, in any order. `System` has the rows
and the requests that have loaded. What else happens to accounts is a step of its own, and only
`AgeVerify` changes a cohort.

`guardian_law` is the statement about runs. `AcceptGuardian` checks the cohort that the request has
loaded, and `AgeVerify` revokes only the links that are there. So the law holds exactly when no
accept that succeeds finds its ward an adult: an accept that loaded the ward before the
re-verification breaks it (`accepted_after_adulthood`). That every link stems from an accept, and
that an invite is settled once, hold in every run.
-/

namespace SocialActivities.Guardians.Go

open Lib
open Social (Cohort)
open Social.Go (Actor Env Error User participate)

/-- A request: its actor, and the account that it names. -/
structure Request where
  actor : Actor
  named : Option Actor
  deriving DecidableEq

structure System where
  rows : State
  requests : KeyMap Nat Request

inductive Act where
  /-- The account is created, or something about it changes that is not its age. -/
  | account (id : Nat) (row : Account)
  | load (r a : Nat)
  | loadWard (r ward : Nat)
  | invite (r : Nat) (c : Config) (e : Env) (clock : Nat) (relationship token : String)
      (fails : Bool)
  | accept (r : Nat) (c : Config) (e : Env) (clock : Nat) (token : String) (fails : Bool)
  | decline (r : Nat) (e : Env) (token : String) (fails : Bool)
  | withdrawConsent (r : Nat) (fails : Bool)
  | grantConsent (r : Nat) (c : Config) (e : Env) (clock : Nat) (fails : Bool)
  | revoke (r ward : Nat) (fails : Bool)
  | ageVerify (r : Nat) (over16 over18 fails : Bool)
  /-- The job that deletes the invites that have expired. -/
  | purge (clock : Nat)

/-- The rows after the account has changed; its age stays. -/
def State.setAccount (s : State) (id : Nat) (row : Account) : State :=
  { s with accounts := s.accounts.set id { row with
      user := { row.user with cohort := (s.cohortOf id).getD .unassigned } } }

namespace System

variable (s : System)

/-- The request runs its transaction, and is over. -/
def finish (r : Nat) (transaction : Request → Except Error State) : System :=
  match s.requests.get? r with
  | some q =>
    { rows := (transaction q).toOption.getD s.rows
      requests := s.requests.removeIf fun j _ => j == r }
  | none => s

/-- The request names an account, or fails. -/
def named (q : Request) : Except Error Actor := q.named.elim (.error .errNoRows) .ok

def step : Act → System
  | .account id row => { s with rows := s.rows.setAccount id row }
  | .load r a =>
    match s.rows.actor a with
    | .ok actor => { s with requests := s.requests.set r ⟨actor, none⟩ }
    | .error _ => s
  | .loadWard r ward =>
    match s.requests.get? r, s.rows.actor ward with
    | some q, .ok actor => { s with requests := s.requests.set r { q with named := some actor } }
    | _, _ => s
  | .invite r c e clock relationship token fails => s.finish r fun q => do
    s.rows.invite c e clock q.actor (← named q) relationship token fails
  | .accept r c e clock token fails => s.finish r fun q =>
    s.rows.accept c e clock q.actor token fails
  | .decline r e token fails => s.finish r fun q => s.rows.decline e q.actor token fails
  | .withdrawConsent r fails => s.finish r fun q => do
    s.rows.withdrawConsent q.actor (← named q) fails
  | .grantConsent r c e clock fails => s.finish r fun q => do
    s.rows.grantConsent c e clock q.actor (← named q) fails
  | .revoke r ward fails => s.finish r fun q => s.rows.revokeGuardian q.actor.id ward fails
  | .ageVerify r over16 over18 fails => s.finish r fun q =>
    s.rows.ageVerify q.actor.id over16 over18 fails
  | .purge clock => { s with rows := { s.rows with
      invites := s.rows.invites.purge clock } }

/-- No accounts and no requests. -/
def empty : System :=
  ⟨⟨KeyMap.empty, KeyMap.empty, Invites.empty, KeyMap.empty, 1⟩, KeyMap.empty⟩

end System

/-! ### What an accept does -/

/-- An accept passes all its checks. -/
structure Acceptance (s : State) (c : Config) (e : Env) (clock : Nat) (a : Actor) (token : String)
    (fails : Bool) (id : Nat) (i : Invite) (g : Actor) : Prop where
  enabled : c.allowMinorOnboarding = true
  found : s.pendingInvite a.id token = .ok (id, i)
  unexpired : clock < i.expiresAt
  guardian : s.actor i.guardian = .ok g
  adult : g.user.cohort = .adult
  minor : minorCohort a.user.cohort = true
  participates : participate (s.env e) g = .ok ()
  unblocked : e.blocked g.id a.id = false
  commits : fails = false

section
variable {s t : State} {c : Config} {e : Env} {clock : Nat} {a : Actor} {token : String}
  {fails : Bool} {id : Nat} {i : Invite} {g : Actor}

theorem pendingInvite_spec {ward : Nat} (h : s.pendingInvite ward token = .ok (id, i)) :
    s.invites.rows.get? id = some i ∧ i.token = token ∧ i.status = .pending ∧ i.ward = ward := by
  unfold State.pendingInvite at h
  split at h
  · rename_i j k hfound
    split at h
    · rename_i hward
      cases h
      obtain ⟨hrow, htoken, hpending⟩ := Invites.pendingWith_spec hfound
      exact ⟨hrow, htoken, hpending, hward⟩
    · cases h
  · cases h

variable {n : Nat}

theorem actor_spec {x : Actor} (h : s.actor n = .ok x) :
    x.id = n ∧ (s.accounts.get? n).map Account.user = some x.user := by
  unfold State.actor at h
  cases haccount : s.accounts.get? n with
  | none =>
    rw [haccount] at h
    cases h
  | some =>
    rw [haccount] at h
    cases h
    exact ⟨rfl, rfl⟩

theorem accept_spec (h : s.accept c e clock a token fails = .ok t) :
    (∃ id i, s.pendingInvite a.id token = .ok (id, i) ∧
      t = { s with invites := s.invites.set id (i.respond .expired e.now) }) ∨
    ∃ id i g, Acceptance s c e clock a token fails id i g ∧
      t = { s with
        links := s.links.set (g.id, a.id) ⟨i.relationship, .active, none⟩
        invites := s.invites.set id (i.respond .accepted e.now) } := by
  unfold State.accept at h
  rw [seq_eq_ok, need_eq_ok, bind_eq_ok] at h
  obtain ⟨henabled, ⟨id, i⟩, hfound, h⟩ := h
  dsimp only at h
  by_cases hexpired : i.expiresAt ≤ clock
  · rw [if_pos hexpired, pure_eq_ok] at h
    exact Or.inl ⟨id, i, hfound, h.symm⟩
  · rw [if_neg hexpired, bind_eq_ok] at h
    obtain ⟨g, hguardian, h⟩ := h
    rw [seq_eq_ok, seq_eq_ok, seq_eq_ok, seq_eq_ok, need_eq_ok, need_eq_ok, need_eq_ok,
      pure_eq_ok, Bool.and_eq_true, beq_iff_eq, Bool.not_eq_true', Bool.not_eq_true'] at h
    obtain ⟨⟨hadult, hminor⟩, hparticipates, hunblocked, hcommits, h⟩ := h
    exact Or.inr ⟨id, i, g, ⟨henabled, hfound, Nat.lt_of_not_le hexpired, hguardian, hadult,
      hminor, hparticipates, hunblocked, hcommits⟩, h.symm⟩

theorem Acceptance.accept_eq (h : Acceptance s c e clock a token fails id i g) :
    s.accept c e clock a token fails = .ok { s with
      links := s.links.set (g.id, a.id) ⟨i.relationship, .active, none⟩
      invites := s.invites.set id (i.respond .accepted e.now) } := by
  unfold State.accept
  rw [seq_eq_ok, need_eq_ok, bind_eq_ok]
  refine ⟨h.enabled, (id, i), h.found, ?_⟩
  dsimp only
  rw [if_neg (Nat.not_le_of_lt h.unexpired), bind_eq_ok]
  refine ⟨g, h.guardian, ?_⟩
  rw [seq_eq_ok, seq_eq_ok, seq_eq_ok, seq_eq_ok, need_eq_ok, need_eq_ok, need_eq_ok, pure_eq_ok,
    Bool.and_eq_true, beq_iff_eq, Bool.not_eq_true', Bool.not_eq_true']
  exact ⟨⟨h.adult, h.minor⟩, h.participates, h.unblocked, h.commits, rfl⟩

/-! ### What the other transactions do -/

/-- What every transaction but the accept of a link keeps of the links: none becomes active, and no
ward becomes an adult under an active link. -/
structure LinksKept (s t : State) : Prop where
  links : ∀ pair l, t.links.get? pair = some l → l.isActive = true →
    ∃ old, s.links.get? pair = some old ∧ old.isActive = true
  cohorts : ∀ ward, t.cohortOf ward = some .adult → s.cohortOf ward = some .adult ∨
    ∀ guardian l, t.links.get? (guardian, ward) = some l → l.isActive = false

theorem LinksKept.same (hlinks : t.links = s.links) (haccounts : t.accounts = s.accounts) :
    LinksKept s t := by
  refine ⟨fun _ l h hl => ⟨l, hlinks ▸ h, hl⟩, fun _ h => Or.inl ?_⟩
  unfold State.cohortOf at h ⊢
  rw [← haccounts]
  exact h

theorem get?_revokeLinks {revoked : Nat × Nat → Bool} {pair : Nat × Nat} {l : Link}
    (h : (s.revokeLinks revoked).links.get? pair = some l) (hl : l.isActive = true) :
    s.links.get? pair = some l ∧ revoked pair = false := by
  unfold State.revokeLinks at h
  rw [KeyMap.get?_mapRows] at h
  obtain ⟨old, hold, rfl⟩ := Option.map_eq_some_iff.mp h
  cases hr : revoked pair with
  | false => exact ⟨by simpa [hr] using hold, rfl⟩
  | true =>
    cases hactive : old.isActive with
    | false => simp [hactive] at hl
    | true =>
      rw [hr, hactive] at hl
      cases hl

theorem LinksKept.revokeLinks (s : State) (revoked : Nat × Nat → Bool) :
    LinksKept s (s.revokeLinks revoked) :=
  ⟨fun _ l h hl => ⟨l, (get?_revokeLinks h hl).1, hl⟩, fun _ h => Or.inl h⟩

theorem cohortOf_setAge (s : State) (n ward : Nat) (age : Social.Go.AgeBand × Cohort) :
    (s.setAge n age).cohortOf ward =
      if ward = n ∧ (s.cohortOf n).isSome then some age.2 else s.cohortOf ward := by
  unfold State.setAge State.cohortOf
  cases s.accounts.get? n with
  | none => simp
  | some =>
    show ((s.accounts.set n _).get? ward).map _ = _
    rw [KeyMap.get?_set]
    by_cases hward : ward = n <;> simp [hward]

theorem setAge_rows (s : State) (n : Nat) (age : Social.Go.AgeBand × Cohort) :
    (s.setAge n age).links = s.links ∧ (s.setAge n age).invites = s.invites := by
  unfold State.setAge
  cases s.accounts.get? n with
  | none | some => exact ⟨rfl, rfl⟩

theorem LinksKept.ageVerify {over16 over18 : Bool}
    (h : s.ageVerify n over16 over18 fails = .ok t) : LinksKept s t := by
  unfold State.ageVerify at h
  rw [seq_eq_ok, pure_eq_ok] at h
  obtain ⟨-, rfl⟩ := h
  by_cases hage : (State.ageClaims over16 over18).2 = .adult
  · rw [if_pos hage]
    constructor
    · intro pair l hl hactive
      rw [(setAge_rows _ _ _).1] at hl
      exact ⟨l, (get?_revokeLinks hl hactive).1, hactive⟩
    · intro ward hadult
      rw [cohortOf_setAge] at hadult
      split at hadult
      · rename_i hward
        refine Or.inr fun guardian l hl => ?_
        rw [(setAge_rows _ _ _).1] at hl
        cases hactive : l.isActive with
        | false => rfl
        | true =>
          have hkept := (get?_revokeLinks hl hactive).2
          rw [hward.1, beq_self_eq_true] at hkept
          cases hkept
      · exact Or.inl hadult
  · rw [if_neg hage]
    constructor
    · intro pair l hl hactive
      rw [(setAge_rows _ _ _).1] at hl
      exact ⟨l, hl, hactive⟩
    · intro ward hadult
      rw [cohortOf_setAge] at hadult
      split at hadult
      · exact absurd (Option.some.inj hadult) hage
      · exact Or.inl hadult

theorem LinksKept.setAccount (s : State) (n : Nat) (row : Account) :
    LinksKept s (s.setAccount n row) := by
  refine ⟨fun _ l h hl => ⟨l, h, hl⟩, fun ward h => Or.inl ?_⟩
  unfold State.setAccount State.cohortOf at h
  dsimp only at h
  rw [KeyMap.get?_set] at h
  split at h
  · rename_i hward
    rw [hward]
    unfold State.cohortOf
    cases haccount : s.accounts.get? n with
    | none =>
      rw [haccount] at h
      cases h
    | some =>
      rw [haccount] at h
      exact h
  · exact h

/-! ### Steps -/

/-- A step is an accept of a link by the ward. -/
def Links (s : System) (act : Act) (guardian ward : Nat) : Prop :=
  ∃ r c e clock token fails q id i g, act = .accept r c e clock token fails ∧
    s.requests.get? r = some q ∧ q.actor.id = ward ∧ g.id = guardian ∧
    Acceptance s.rows c e clock q.actor token fails id i g

theorem invite_spec {ward : Actor} {relationship : String}
    (h : s.invite c e clock a ward relationship token fails = .ok t) :
    ∃ relation expires,
      t = { s with invites := s.invites.put a.id ward.id relation token expires } := by
  unfold State.invite at h
  rw [seq_eq_ok, seq_eq_ok, seq_eq_ok, seq_eq_ok, seq_eq_ok, seq_eq_ok, seq_eq_ok, pure_eq_ok] at h
  obtain ⟨-, -, -, -, -, -, -, rfl⟩ := h
  exact ⟨_, _, rfl⟩

theorem decline_spec (h : s.decline e a token fails = .ok t) :
    ∃ id i, s.pendingInvite a.id token = .ok (id, i) ∧
      t = { s with invites := s.invites.set id (i.respond .declined e.now) } := by
  unfold State.decline at h
  rw [bind_eq_ok] at h
  obtain ⟨⟨id, i⟩, hfound, h⟩ := h
  rw [seq_eq_ok, pure_eq_ok] at h
  cases hrow : s.pendingInvite a.id token with
  | error =>
    rw [hrow] at hfound
    cases hfound
  | ok =>
    rw [hrow] at hfound
    cases hfound
    exact ⟨id, i, rfl, h.2.symm⟩

theorem withdrawConsent_spec {ward : Actor} (h : s.withdrawConsent a ward fails = .ok t) :
    t = s.revokeConsents fun k => k.minor == ward.id := by
  unfold State.withdrawConsent at h
  rw [seq_eq_ok, seq_eq_ok, pure_eq_ok] at h
  exact h.2.2.symm

theorem grantConsent_spec {ward : Actor} (h : s.grantConsent c e clock a ward fails = .ok t) :
    ∃ expires, t = s.putConsent a.id ward.id expires := by
  unfold State.grantConsent at h
  rw [seq_eq_ok, seq_eq_ok, seq_eq_ok, seq_eq_ok, pure_eq_ok] at h
  exact ⟨_, h.2.2.2.2.symm⟩

theorem revokeGuardian_spec {ward : Nat} (h : s.revokeGuardian n ward fails = .ok t) :
    t = (s.revokeLinks fun pair => pair == (n, ward)).revokeConsents fun k =>
      k.minor == ward && k.guardian == n := by
  unfold State.revokeGuardian at h
  rw [bind_eq_ok] at h
  obtain ⟨fresh, -, h⟩ := h
  rw [seq_eq_ok, seq_eq_ok, bind_eq_ok] at h
  obtain ⟨-, -, x, -, h⟩ := h
  rw [seq_eq_ok, pure_eq_ok] at h
  exact h.2.symm

theorem LinksKept.putConsent (s : State) (guardian minor expires : Nat) :
    LinksKept s (s.putConsent guardian minor expires) := by
  refine ⟨fun pair l h hl => ?_, fun _ h => Or.inl h⟩
  unfold State.putConsent at h
  rw [KeyMap.get?_mapRows] at h
  obtain ⟨old, hold, rfl⟩ := Option.map_eq_some_iff.mp h
  refine ⟨old, hold, ?_⟩
  split at hl <;> exact hl

/-- What a step does to the rows: nothing, or what one of the transactions writes. -/
inductive Moves (s : System) : Act → State → Prop where
  | rest (act : Act) : Moves s act s.rows
  | account (id : Nat) (row : Account) : Moves s (.account id row) (s.rows.setAccount id row)
  | invite (act : Act) (guardian ward : Nat) (relationship token : String) (expires : Nat) :
    Moves s act { s.rows with
      invites := s.rows.invites.put guardian ward relationship token expires }
  | respond (act : Act) (id : Nat) (i : Invite) (status : InviteStatus) (at' : Nat)
    (hrow : s.rows.invites.rows.get? id = some i) (hpending : i.status = .pending) :
    Moves s act { s.rows with invites := s.rows.invites.set id (i.respond status at') }
  | link (act : Act) (guardian ward id : Nat) (i : Invite) (at' : Nat)
    (haccept : Links s act guardian ward)
    (hrow : s.rows.invites.rows.get? id = some i) (hpending : i.status = .pending) :
    Moves s act { s.rows with
      links := s.rows.links.set (guardian, ward) ⟨i.relationship, .active, none⟩
      invites := s.rows.invites.set id (i.respond .accepted at') }
  | withdrawConsent (act : Act) (revoked : Consent → Bool) :
    Moves s act (s.rows.revokeConsents revoked)
  | grantConsent (act : Act) (guardian minor expires : Nat) :
    Moves s act (s.rows.putConsent guardian minor expires)
  | revoke (act : Act) (pair : Nat × Nat → Bool) (revoked : Consent → Bool) :
    Moves s act ((s.rows.revokeLinks pair).revokeConsents revoked)
  | ageVerify (act : Act) (n : Nat) (over16 over18 fails : Bool) (t : State)
    (h : s.rows.ageVerify n over16 over18 fails = .ok t) : Moves s act t
  | purge (clock : Nat) :
    Moves s (.purge clock) { s.rows with invites := s.rows.invites.purge clock }

theorem moves_finish (s : System) (r : Nat) {act : Act} {transaction : Request → Except Error State}
    (h : ∀ q t, s.requests.get? r = some q → transaction q = .ok t → Moves s act t) :
    Moves s act (s.finish r transaction).rows := by
  unfold System.finish
  cases hq : s.requests.get? r with
  | none => exact Moves.rest act
  | some q =>
    show Moves s act ((transaction q).toOption.getD s.rows)
    cases ht : transaction q with
    | ok t => exact h q t hq ht
    | error => exact Moves.rest act

theorem moves_step (s : System) (act : Act) : Moves s act (s.step act).rows := by
  cases act with
  | account id row => exact Moves.account id row
  | load r a =>
    show Moves s _ (match s.rows.actor a with | .ok _ => _ | .error _ => s : System).rows
    cases s.rows.actor a with
    | ok | error => exact Moves.rest _
  | loadWard r ward =>
    show Moves s _ (match s.requests.get? r, s.rows.actor ward with
      | some q, .ok actor => _ | _, _ => s : System).rows
    split <;> exact Moves.rest _
  | invite r =>
    refine moves_finish s r fun q t hq ht => ?_
    rw [bind_eq_ok] at ht
    obtain ⟨ward, -, ht⟩ := ht
    obtain ⟨relation, expires, rfl⟩ := invite_spec ht
    exact Moves.invite _ _ _ _ _ _
  | accept r c e clock token fails =>
    refine moves_finish s r fun q t hq ht => ?_
    rcases accept_spec ht with ⟨id, i, hfound, rfl⟩ | ⟨id, i, g, haccept, rfl⟩
    · obtain ⟨hrow, -, hpending, -⟩ := pendingInvite_spec hfound
      exact Moves.respond _ id i _ _ hrow hpending
    · obtain ⟨hrow, -, hpending, -⟩ := pendingInvite_spec haccept.found
      exact Moves.link _ g.id q.actor.id id i _
        ⟨r, c, e, clock, token, fails, q, id, i, g, rfl, hq, rfl, rfl, haccept⟩ hrow hpending
  | decline r =>
    refine moves_finish s r fun q t hq ht => ?_
    obtain ⟨id, i, hfound, rfl⟩ := decline_spec ht
    obtain ⟨hrow, -, hpending, -⟩ := pendingInvite_spec hfound
    exact Moves.respond _ id i _ _ hrow hpending
  | withdrawConsent r =>
    refine moves_finish s r fun q t hq ht => ?_
    rw [bind_eq_ok] at ht
    obtain ⟨ward, -, ht⟩ := ht
    rw [withdrawConsent_spec ht]
    exact Moves.withdrawConsent _ _
  | grantConsent r =>
    refine moves_finish s r fun q t hq ht => ?_
    rw [bind_eq_ok] at ht
    obtain ⟨ward, -, ht⟩ := ht
    obtain ⟨expires, rfl⟩ := grantConsent_spec ht
    exact Moves.grantConsent _ _ _ _
  | revoke r =>
    refine moves_finish s r fun q t hq ht => ?_
    rw [revokeGuardian_spec ht]
    exact Moves.revoke _ _ _
  | ageVerify r =>
    exact moves_finish s r fun q t hq ht => Moves.ageVerify _ _ _ _ _ t ht
  | purge clock => exact Moves.purge clock

variable {s : System}

theorem invitesKept_step (hs : s.rows.invites.Numbered) (act : Act) :
    s.rows.invites.Kept Invite.Settled (s.step act).rows.invites := by
  generalize ht : (s.step act).rows = t
  have hmoves : Moves s act t := ht ▸ moves_step s act
  cases hmoves with
  | rest | account | withdrawConsent | grantConsent | revoke => exact Invites.Kept.refl hs
  | invite => exact Invites.Kept.put hs (fun i h hsettled => hsettled h) _ _ _ _ _
  | respond _ id i status at' hrow hpending =>
    exact Invites.Kept.set hs hrow (fun hsettled => hsettled hpending) _
  | link _ guardian ward id i at' haccept hrow hpending =>
    exact Invites.Kept.set hs hrow (fun hsettled => hsettled hpending) _
  | ageVerify _ n over16 over18 fails _ h =>
    unfold State.ageVerify at h
    rw [seq_eq_ok, pure_eq_ok] at h
    obtain ⟨-, rfl⟩ := h
    rw [(setAge_rows _ _ _).2]
    split <;> exact Invites.Kept.refl hs
  | purge clock => exact Invites.Kept.purge hs clock

theorem linksKept_step (s : System) (act : Act) :
    LinksKept s.rows (s.step act).rows ∨
      ∃ guardian ward relationship, Links s act guardian ward ∧
        (s.step act).rows.accounts = s.rows.accounts ∧
        (s.step act).rows.links =
          s.rows.links.set (guardian, ward) ⟨relationship, .active, none⟩ := by
  generalize ht : (s.step act).rows = t
  have hmoves : Moves s act t := ht ▸ moves_step s act
  cases hmoves with
  | rest | invite | respond | withdrawConsent | purge => exact Or.inl (LinksKept.same rfl rfl)
  | account id row => exact Or.inl (LinksKept.setAccount s.rows id row)
  | link _ guardian ward id i at' haccept =>
    exact Or.inr ⟨guardian, ward, i.relationship, haccept, rfl, rfl⟩
  | grantConsent => exact Or.inl (LinksKept.putConsent _ _ _ _)
  | revoke _ pair =>
    have hlinks := LinksKept.revokeLinks s.rows pair
    exact Or.inl ⟨hlinks.links, hlinks.cohorts⟩
  | ageVerify _ n over16 over18 fails _ h => exact Or.inl (LinksKept.ageVerify h)

/-! ### Runs -/

/-- The rows after a run. -/
def rowsAfter (acts : List Act) : State := (Machine.run System.step System.empty acts).rows

/-- No active link has a ward in the adult cohort. -/
def NoAdultWard (s : State) : Prop :=
  ∀ guardian ward l, s.links.get? (guardian, ward) = some l → l.isActive = true →
    s.cohortOf ward ≠ some .adult

/-- An accept that passes its checks finds its ward in the adult cohort. -/
def TooLate (s : System) (act : Act) : Prop :=
  ∃ guardian ward, Links s act guardian ward ∧ s.rows.cohortOf ward = some .adult

theorem links_step {act : Act} {guardian ward : Nat} (h : Links s act guardian ward) :
    ∃ l, (s.step act).rows.links.get? (guardian, ward) = some l ∧ l.isActive = true := by
  obtain ⟨r, c, e, clock, token, fails, q, id, i, g, rfl, hq, rfl, rfl, haccept⟩ := h
  have hstep : (s.step (.accept r c e clock token fails)).rows = { s.rows with
      links := s.rows.links.set (g.id, q.actor.id) ⟨i.relationship, .active, none⟩
      invites := s.rows.invites.set id (i.respond .accepted e.now) } := by
    simp only [System.step, System.finish, hq, haccept.accept_eq]
    rfl
  rw [hstep]
  exact ⟨⟨i.relationship, .active, none⟩, by simp [KeyMap.get?_set], rfl⟩

/-- From rows without adult wards, a step leads to such rows unless it is an accept that comes too
late. -/
theorem noAdultWard_step (hs : NoAdultWard s.rows) (act : Act) :
    NoAdultWard (s.step act).rows ↔ ¬TooLate s act := by
  constructor
  · rintro hnext ⟨guardian, ward, haccept, hadult⟩
    obtain ⟨l, hl, hactive⟩ := links_step haccept
    refine hnext guardian ward l hl hactive ?_
    rcases linksKept_step s act with hkept | ⟨_, _, _, -, haccounts, -⟩
    · -- An accept changes no account.
      obtain ⟨r, c, e, clock, token, fails, q, id, i, g, rfl, hq, rfl, rfl, hpassed⟩ := haccept
      simp only [System.step, System.finish, hq, hpassed.accept_eq]
      exact hadult
    · unfold State.cohortOf at hadult ⊢
      rw [haccounts]
      exact hadult
  · intro htimely guardian ward l hl hactive hadult
    rcases linksKept_step s act with hkept | ⟨g, w, relationship, haccept, haccounts, hlinks⟩
    · rcases hkept.cohorts ward hadult with hbefore | hnone
      · obtain ⟨old, hold, hwas⟩ := hkept.links _ l hl hactive
        exact hs guardian ward old hold hwas hbefore
      · rw [hnone guardian l hl] at hactive
        cases hactive
    · have hbefore : s.rows.cohortOf ward = some .adult := by
        unfold State.cohortOf at hadult ⊢
        rw [← haccounts]
        exact hadult
      rw [hlinks] at hl
      rcases KeyMap.of_get?_set hl with ⟨hpair, -⟩ | hl
      · obtain ⟨-, rfl⟩ := Prod.mk.inj hpair
        exact htimely ⟨g, ward, haccept, hbefore⟩
      · exact hs guardian ward l hl hactive hbefore

theorem numbered_run (hs : s.rows.invites.Numbered) (acts : List Act) :
    (Machine.run System.step s acts).rows.invites.Numbered :=
  @Machine.run_invariant _ _ System.step (fun s => s.rows.invites.Numbered)
    (fun _ act h => (invitesKept_step h act).numbered) s hs acts

theorem invitesKept_run (hs : s.rows.invites.Numbered) (acts : List Act) :
    s.rows.invites.Kept Invite.Settled (Machine.run System.step s acts).rows.invites := by
  induction acts generalizing s with
  | nil => exact Invites.Kept.refl hs
  | cons act acts ih =>
    have hfirst := invitesKept_step hs act
    exact hfirst.trans hs (ih hfirst.numbered)

theorem linked_by_accept {acts : List Act} {guardian ward : Nat} {l : Link}
    (hl : (rowsAfter acts).links.get? (guardian, ward) = some l) (hactive : l.isActive = true) :
    ∃ q ∈ Machine.steps System.step System.empty acts, Links q.1 q.2 guardian ward := by
  obtain ⟨q, hq, hbefore, l', hl', hactive'⟩ := @Machine.exists_turn _ _ System.step
    (fun s => ∃ l, s.rows.links.get? (guardian, ward) = some l ∧ l.isActive = true) System.empty
    acts (by rintro ⟨l, h, -⟩; cases h) ⟨l, hl, hactive⟩
  refine ⟨q, hq, ?_⟩
  rcases linksKept_step q.1 q.2 with hkept | ⟨g, w, relationship, haccept, -, hlinks⟩
  · exact absurd (hkept.links _ l' hl' hactive') hbefore
  · rw [hlinks] at hl'
    rcases KeyMap.of_get?_set hl' with ⟨hpair, -⟩ | hl'
    · obtain ⟨rfl, rfl⟩ := Prod.mk.inj hpair
      exact haccept
    · exact absurd ⟨l', hl', hactive'⟩ hbefore

/-- What the law says about a run. -/
structure GuardianLaw (acts : List Act) : Prop where
  /-- No active link has an adult ward, in any state that the run reaches. -/
  minors : ∀ before after, acts = before ++ after → NoAdultWard (rowsAfter before)
  /-- Every active link stems from an accept of a pending invite that has not expired, by the ward
  to whom it is addressed. -/
  accepted : ∀ before after, acts = before ++ after → ∀ guardian ward l,
    (rowsAfter before).links.get? (guardian, ward) = some l → l.isActive = true →
      ∃ q ∈ Machine.steps System.step System.empty before,
        ∃ r c e clock token fails request id i, q.2 = .accept r c e clock token fails ∧
          q.1.requests.get? r = some request ∧ request.actor.id = ward ∧
          q.1.rows.invites.rows.get? id = some i ∧ i.token = token ∧ i.guardian = guardian ∧
          i.ward = ward ∧ i.status = .pending ∧ clock < i.expiresAt
  /-- An invite that is accepted, declined or expired stays so until it is deleted, and its id is
  not used again. -/
  settled : ∀ before mid after, acts = before ++ mid ++ after → ∀ id i,
    (rowsAfter before).invites.rows.get? id = some i → i.Settled →
      ∀ j, (rowsAfter (before ++ mid)).invites.rows.get? id = some j → j = i

/-- The law holds in a run exactly when none of its accepts finds its ward an adult. -/
theorem guardian_law (acts : List Act) :
    GuardianLaw acts ↔
      ∀ q ∈ Machine.steps System.step System.empty acts, ¬TooLate q.1 q.2 := by
  have hempty : NoAdultWard System.empty.rows := fun guardian ward l h => by cases h
  have hsteps := @Machine.forall_steps_iff _ _ System.step (fun s => NoAdultWard s.rows)
    (fun s => NoAdultWard s.rows) (fun s act => ¬TooLate s act)
    (fun s act hs => noAdultWard_step hs act) (fun _ _ _ h => h) System.empty hempty acts
  constructor
  · intro hlaw
    refine hsteps.mp fun q hq => ?_
    obtain ⟨before, after, rfl, hstate⟩ := (Machine.mem_steps System.step).mp hq
    have hnext := hlaw.minors (before ++ [q.2]) after (by rw [← List.append_cons])
    unfold rowsAfter at hnext
    rw [Machine.run_concat, ← hstate] at hnext
    exact hnext
  · intro htimely
    refine ⟨?_, ?_, ?_⟩
    · rintro before after rfl
      unfold rowsAfter
      refine @Machine.run_guarded _ _ System.step (fun s => NoAdultWard s.rows)
        (fun s act => ¬TooLate s act) (fun s act hs hg => (noAdultWard_step hs act).mpr hg) _ hempty
        before fun q hq => htimely q ?_
      rw [Machine.steps_append]
      exact List.mem_append_left _ hq
    · rintro before after rfl guardian ward l hl hactive
      obtain ⟨q, hq, r, c, e, clock, token, fails, request, id, i, g, hact, hrequest, hward, rfl,
        haccept⟩ := linked_by_accept hl hactive
      obtain ⟨hrow, htoken, hpending, haddressed⟩ := pendingInvite_spec haccept.found
      exact ⟨q, hq, r, c, e, clock, token, fails, request, id, i, hact, hrequest, hward, hrow,
        htoken, (actor_spec haccept.guardian).1.symm, haddressed.trans hward, hpending,
        haccept.unexpired⟩
    · rintro before mid after rfl id i hi hsettled j hj
      have hkept := invitesKept_run (numbered_run (s := System.empty) Invites.numbered_empty before) mid
      rw [← Machine.run_append] at hkept
      exact hkept.stays id i hi hsettled j hj

end

/-! ### An accept that comes too late -/

/-- Assurances are current, and there are no blocks. -/
def sampleEnv : Env where
  now := 5
  users := fun _ => none
  assuranceCurrent := fun _ => true
  parentalConsent := fun _ => false
  blocks := fun _ _ => false
  guardianOf := fun _ _ => false
  rails := fun _ => []
  openJoins := fun _ => 0
  childVenue := fun _ => false
  placePublic := fun _ => false
  placeProposed := fun _ _ => false
  typeActive := fun _ => false
  ancestry := fun _ => []
  localHour := fun _ => 0
  localWeekday := fun _ => 0

def sampleConfig : Config := ⟨true, 100, 100⟩

def newAccount (username : String) : Account :=
  ⟨username, ⟨.unknown, .unassigned, "user", true, false, false, false⟩⟩

/-- A teenager is invited, opens the request that accepts, and proves in another one to be of age. -/
def lateAccept : List Act :=
  [.account 1 (newAccount "parent"), .load 1 1, .ageVerify 1 true true false,
    .account 2 (newAccount "teen"), .load 2 2, .ageVerify 2 true false false,
    .load 3 1, .loadWard 3 2, .invite 3 sampleConfig sampleEnv 5 "" "token" false,
    .load 4 2, .load 5 2, .ageVerify 5 true true false,
    .accept 4 sampleConfig sampleEnv 5 "token" false]

/-- The link is made after the re-verification that should have ended all authority. -/
theorem accepted_after_adulthood :
    (rowsAfter lateAccept).cohortOf 2 = some .adult ∧
      (rowsAfter lateAccept).isLinked 1 2 = true ∧ ¬GuardianLaw lateAccept := by
  have hadult : (rowsAfter lateAccept).cohortOf 2 = some .adult := by decide
  have hlink : (rowsAfter lateAccept).links.get? (1, 2) = some ⟨"parent", .active, none⟩ := by decide
  refine ⟨hadult, by decide, fun hlaw => ?_⟩
  exact hlaw.minors lateAccept [] (by rw [List.append_nil]) 1 2 _ hlink rfl hadult

end SocialActivities.Guardians.Go
