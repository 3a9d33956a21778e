import SocialActivities.Guardians.GoAuthority
import SocialActivities.Messaging.GoConversations

/-!
# `SocialActivities.Messaging.GoEffects`: what one step does (Go)

`Act` has the operations that write conversations, participants or what the rosters depend on, and
`State.step` runs one of them; each is one transaction, so a run is a serial order of operations.
`Effect` says what a step can do, with the checks that it has passed, and `effect_step` that every
step does one of these. The statements about runs go through `Effect` and never through the
transactions.
-/

namespace SocialActivities.Messaging.Go

open Lib
open Social (Cohort)
open Social.Go (Actor Error participate)
open Guardians.Go (Account)

inductive Act where
  /-- The account is created, or something about it changes that is not its age. -/
  | account (id : Nat) (row : Account)
  | inviteWard (x : Reads) (c : Guardians.Go.Config) (clock a ward : Nat)
      (relationship token : String)
  | acceptGuardian (x : Reads) (c : Guardians.Go.Config) (clock a : Nat) (token : String)
  | declineGuardian (x : Reads) (a : Nat) (token : String)
  | grantConsent (x : Reads) (c : Guardians.Go.Config) (clock a ward : Nat)
  | start (x : Reads) (a : Nat) (kind : String) (names : List String) (title : String)
  | transition (x : Reads) (a c : Nat) (action : State.Action)
  | addParticipant (x : Reads) (a c : Nat) (username : String)
  | removeParticipant (x : Reads) (a c : Nat) (username : String)
  | addGuardian (x : Reads) (a c : Nat)
  | setDisappearing (x : Reads) (a c seconds : Nat)
  | post (x : Reads) (a c : Nat) (keys : List State.RecipientKey) (textsValid : Bool)
  /-- A moderator's decision ends the participation of the user. -/
  | removeUser (u : Nat)
  | revokeGuardian (x : Reads) (a ward : Nat)
  | withdrawConsent (x : Reads) (a ward : Nat)
  | ageVerify (x : Reads) (a : Nat) (over16 over18 : Bool)
  | erase (x : Reads) (a u : Nat)

namespace State

variable (cfg : Config) (s : State)

/-- The state after a transaction on the accounts. -/
def onAccounts (transaction : Except Error Guardians.Go.State) : State :=
  { s with accounts := transaction.toOption.getD s.accounts }

def step : Act → State
  | .account id row => { s with accounts := s.accounts.setAccount id row }
  | .inviteWard x c clock a ward relationship token => s.onAccounts do
    s.accounts.invite c x.env clock (← s.accounts.actor a) (← s.accounts.actor ward) relationship
      token x.fails
  | .acceptGuardian x c clock a token => s.onAccounts do
    s.accounts.accept c x.env clock (← s.accounts.actor a) token x.fails
  | .declineGuardian x a token => s.onAccounts do
    s.accounts.decline x.env (← s.accounts.actor a) token x.fails
  | .grantConsent x c clock a ward => s.onAccounts do
    s.accounts.grantConsent c x.env clock (← s.accounts.actor a) (← s.accounts.actor ward) x.fails
  | .start x a kind names title =>
    ((s.start x cfg a kind names title).toOption.map Prod.fst).getD s
  | .transition x a c action => (s.transition x a c action).toOption.getD s
  | .addParticipant x a c username => (s.addParticipant x cfg a c username).toOption.getD s
  | .removeParticipant x a c username => (s.removeParticipant x a c username).toOption.getD s
  | .addGuardian x a c => (s.addGuardian x cfg a c).toOption.getD s
  | .setDisappearing x a c seconds => (s.setDisappearing x a c seconds).toOption.getD s
  | .post x a c keys textsValid => (s.post x cfg a c keys textsValid).toOption.getD s
  | .removeUser u => s.removeUser u
  | .revokeGuardian x a ward => (s.revokeGuardian x a ward).toOption.getD s
  | .withdrawConsent x a ward => (s.withdrawConsent x a ward).toOption.getD s
  | .ageVerify x a over16 over18 => (s.ageVerify x a over16 over18).toOption.getD s
  | .erase x a u => (s.erase x a u).toOption.getD s

end State

section
variable {cfg : Config} {s t : State} {x : Reads} {a b : Actor} {n c : Nat} {kind : Kind}

/-! ### The start of a conversation -/

theorem actor_id (h : s.accounts.actor n = .ok a) : s.accounts.actor a.id = .ok a := by
  rw [(Guardians.Go.actor_spec h).1]
  exact h

theorem cohortOf_actor (h : s.accounts.actor n = .ok a) :
    s.accounts.cohortOf n = some a.user.cohort := by
  unfold Guardians.Go.State.cohortOf
  obtain ⟨-, huser⟩ := Guardians.Go.actor_spec h
  obtain ⟨account, haccount, hu⟩ := Option.map_eq_some_iff.mp huser
  rw [haccount, ← hu]
  rfl

theorem target_spec {username : String} (h : s.target username = .ok b) :
    s.accounts.actor b.id = .ok b := by
  unfold State.target at h
  split at h
  · exact actor_id h
  · cases h

theorem pair_spec (h : s.pair x a b = .ok ()) :
    a.id ≠ b.id ∧ a.user.cohort ≠ .unassigned ∧ b.user.cohort = a.user.cohort := by
  unfold State.pair at h
  rw [seq_eq_ok, need_eq_ok] at h
  simp only [Bool.and_eq_true, bne_iff_ne, beq_iff_eq] at h
  obtain ⟨⟨⟨⟨⟨hne, -⟩, -⟩, hassigned⟩, hsame⟩, -⟩ := h
  exact ⟨hne, hassigned, hsame.symm⟩

/-- The targets of a start: accounts as they are now that the starter may contact, each once. -/
structure Targets (s : State) (x : Reads) (a : Actor) (targets : List Actor) : Prop where
  fresh : ∀ b ∈ targets, s.accounts.actor b.id = .ok b
  pairs : ∀ b ∈ targets, s.pair x a b = .ok ()
  nodup : (targets.map Actor.id).Nodup

theorem Targets.nil : Targets s x a [] :=
  ⟨fun _ h => (by cases h), fun _ h => (by cases h), List.nodup_nil⟩

theorem Targets.concat {seen : List Actor} (h : Targets s x a seen)
    (hfresh : s.accounts.actor b.id = .ok b) (hpair : s.pair x a b = .ok ())
    (hnew : ∀ t ∈ seen, t.id ≠ b.id) : Targets s x a (seen ++ [b]) := by
  constructor
  · intro t ht
    rcases List.mem_append.mp ht with hold | hlast
    · exact h.fresh t hold
    · rw [List.mem_singleton.mp hlast]
      exact hfresh
  · intro t ht
    rcases List.mem_append.mp ht with hold | hlast
    · exact h.pairs t hold
    · rw [List.mem_singleton.mp hlast]
      exact hpair
  · rw [List.map_append, List.nodup_append']
    refine ⟨h.nodup, List.nodup_singleton _, fun i hi hlast => ?_⟩
    obtain ⟨t, ht, rfl⟩ := List.mem_map.mp hi
    exact hnew t ht (List.mem_singleton.mp hlast)

/-- The loop over the names gives targets, those seen before among them, and every name is the name
of a target or, in a group, of the starter. -/
theorem collect_spec {seen targets : List Actor} {names : List String} (hseen : Targets s x a seen)
    (h : s.collect x a kind seen names = .ok targets) :
    Targets s x a targets ∧ (∀ t ∈ seen, t ∈ targets) ∧ ∀ name ∈ names, ∃ b,
      s.target name = .ok b ∧ (b ∈ targets ∨ kind = .group ∧ b.id = a.id) := by
  induction names generalizing seen with
  | nil =>
    cases h
    exact ⟨hseen, fun t ht => ht, fun name hname => (by cases hname)⟩
  | cons name names ih =>
    unfold State.collect at h
    rw [bind_eq_ok] at h
    obtain ⟨b, htarget, h⟩ := h
    -- Each of the three cases goes on with its own targets; `hfound` says where the name's is.
    have hnext : ∀ seen', Targets s x a seen' → (∀ t ∈ seen, t ∈ seen') →
        (b ∈ seen' ∨ kind = .group ∧ b.id = a.id) →
        s.collect x a kind seen' names = .ok targets →
        Targets s x a targets ∧ (∀ t ∈ seen, t ∈ targets) ∧ ∀ name' ∈ name :: names, ∃ b,
          s.target name' = .ok b ∧ (b ∈ targets ∨ kind = .group ∧ b.id = a.id) := by
      intro seen' hseen' hsub hfound hrest
      obtain ⟨htargets, hkept, hnames⟩ := ih hseen' hrest
      refine ⟨htargets, fun t ht => hkept t (hsub t ht), ?_⟩
      rw [List.forall_mem_cons]
      exact ⟨⟨b, htarget, hfound.imp_left (hkept b)⟩, hnames⟩
    split at h
    · rename_i hself
      exact hnext seen hseen (fun t ht => ht) (Or.inr hself) h
    · split at h
      · rename_i hdup
        obtain ⟨t, ht, hid⟩ := List.any_eq_true.mp hdup
        -- The account that was seen before is the same one.
        have hsame : t = b := by
          have hfresh := hseen.fresh t ht
          rw [beq_iff_eq.mp hid, target_spec htarget] at hfresh
          exact (Except.ok.inj hfresh).symm
        exact hnext seen hseen (fun t ht => ht) (Or.inl (hsame ▸ ht)) h
      · rename_i hnew
        rw [seq_eq_ok] at h
        refine hnext (seen ++ [b]) (hseen.concat (target_spec htarget) h.1 fun t ht hid => ?_)
          (fun t ht => List.mem_append_left _ ht)
          (Or.inl (List.mem_append_right _ List.mem_cons_self)) h.2
        exact hnew (List.any_eq_true.mpr ⟨t, ht, beq_iff_eq.mpr hid⟩)

theorem revive_eq_self {found : Nat}
    (h : s.chats.participants.anyRow (s.revived found a.id b.id) = false) :
    s.revive found a.id b.id = s := by
  have hrows : (s.revive found a.id b.id).chats.participants.entries =
      s.chats.participants.entries := by
    show s.chats.participants.entries.map _ = _
    refine (List.map_congr_left fun e he => ?_).trans (List.map_id' _)
    have hnot := KeyMap.anyRow_eq_false.mp h e.1 e.2 (KeyMap.mem_entries_iff.mp he)
    show (e.1, if s.revived found a.id b.id e.1 e.2 = true then _ else e.2) = e
    rw [hnot]
    rfl
  obtain ⟨accounts, conversations, ⟨entries, nodup⟩, next⟩ := s
  unfold State.revive at hrows ⊢
  dsimp only at hrows ⊢
  congr 2
  unfold KeyMap.mapRows
  congr 1

/-- A direct start reuses a chat: the starter, the peer, and the chat. -/
structure Reuses (s : State) (x : Reads) (a b : Actor) (found : Nat) : Prop where
  fresh : s.accounts.actor a.id = .ok a
  peer : s.accounts.actor b.id = .ok b
  pair : s.pair x a b = .ok ()
  found : s.chats.directOf id a.id b.id = some found

/-- A start opens a new conversation: its starter and its targets. -/
structure Opens (cfg : Config) (s : State) (x : Reads) (a : Actor) (kind : Kind)
    (targets : List Actor) : Prop where
  fresh : s.accounts.actor a.id = .ok a
  allowed : Targets s x a targets
  nonempty : targets ≠ []
  direct : kind = .direct → ∃ b, targets = [b] ∧ s.chats.directOf id a.id b.id = none
  group : kind = .group → targets.length + 1 ≤ cfg.maxMembers

/-- A start reuses a direct chat or opens a conversation. -/
theorem start_spec {u : Nat} {kindText : String} {names : List String} {title : String}
    (h : s.start x cfg u kindText names title = .ok (t, c)) :
    names ≠ [] ∧ ∃ k a, State.parseKind kindText = some k ∧ a.id = u ∧
      ((k = .direct ∧ ∃ b, Reuses s x a b c ∧ (∀ name ∈ names, s.target name = .ok b) ∧
          t = s.revive c a.id b.id) ∨
        ∃ targets, Opens cfg s x a k targets ∧ c = s.chats.next ∧
          (∀ b, k = .direct → targets = [b] → ∀ name ∈ names, s.target name = .ok b) ∧
          ∃ text, t = { s with
            chats := s.chats.start k text a.user.cohort a.id (targets.map Actor.id)
              x.env.now }) := by
  unfold State.start at h
  rw [bind_eq_ok] at h
  obtain ⟨k, hkind, h⟩ := h
  rw [seq_eq_ok, bind_eq_ok, need_eq_ok] at h
  simp only [Bool.and_eq_true, Bool.not_eq_true', List.isEmpty_eq_false_iff] at h
  obtain ⟨⟨⟨-, hsome⟩, -⟩, a, hactor, h⟩ := h
  rw [seq_eq_ok, bind_eq_ok] at h
  obtain ⟨-, targets, hcollect, h⟩ := h
  obtain ⟨htargets, -, hnames⟩ := collect_spec Targets.nil hcollect
  have hfresh := actor_id hactor
  refine ⟨hsome, k, a, elim_eq_ok.mp hkind, (Guardians.Go.actor_spec hactor).1, ?_⟩
  unfold State.startWith at h
  rw [seq_eq_ok, need_eq_ok] at h
  simp only [Bool.and_eq_true, Bool.or_eq_true, beq_iff_eq, decide_eq_true_eq,
    Bool.not_eq_true', List.isEmpty_eq_false_iff] at h
  obtain ⟨⟨⟨hnonempty, hmost⟩, hone⟩, h⟩ := h
  -- A direct start has one target, and every name is its name.
  have hnamed : ∀ b, k = .direct → targets = [b] → ∀ name ∈ names, s.target name = .ok b := by
    intro b hdirect hsingle name hname
    obtain ⟨b', htarget, hin | ⟨hgroup, -⟩⟩ := hnames name hname
    · rw [hsingle] at hin
      rw [htarget, List.mem_singleton.mp hin]
    · rw [hdirect] at hgroup
      cases hgroup
  split at h
  · rename_i b found hfound
    left
    obtain ⟨peer, hpeer, hmap⟩ := Option.bind_eq_some_iff.mp hfound
    obtain ⟨chat, hchat, heq⟩ := Option.map_eq_some_iff.mp hmap
    obtain ⟨rfl, rfl⟩ := Prod.mk.inj heq
    cases k with
    | group => cases hpeer
    | direct =>
      obtain ⟨b, hsingle⟩ := List.length_eq_one_iff.mp (hone.resolve_left (by simp))
      rw [hsingle] at hpeer
      cases hpeer
      have hmem : peer ∈ targets := by
        rw [hsingle]
        exact List.mem_cons_self
      have hreuses : Reuses s x a peer chat :=
        ⟨hfresh, htargets.fresh peer hmem, htargets.pairs peer hmem, hchat⟩
      split at h
      · rw [seq_eq_ok, seq_eq_ok, pure_eq_ok] at h
        obtain ⟨rfl, rfl⟩ := Prod.mk.inj h.2.2
        exact ⟨rfl, peer, hreuses, hnamed peer rfl hsingle, rfl⟩
      · rename_i hnone
        obtain ⟨rfl, rfl⟩ := Prod.mk.inj (pure_eq_ok.mp h)
        exact ⟨rfl, peer, hreuses, hnamed peer rfl hsingle,
          (revive_eq_self (Bool.eq_false_iff.mpr hnone)).symm⟩
  · rename_i hfound
    right
    rw [seq_eq_ok, seq_eq_ok, pure_eq_ok] at h
    obtain ⟨rfl, rfl⟩ := Prod.mk.inj h.2.2
    refine ⟨targets, ⟨hfresh, htargets, hnonempty, fun hdirect => ?_, fun hgroup => ?_⟩, rfl, hnamed,
      _, rfl⟩
    · obtain ⟨b, hsingle⟩ := List.length_eq_one_iff.mp (hone.resolve_left (by simp [hdirect]))
      refine ⟨b, hsingle, ?_⟩
      rw [if_pos hdirect, hsingle] at hfound
      exact Option.map_eq_none_iff.mp hfound
    · exact hmost.resolve_left (by simp [hgroup])

/-! ### The accounts -/

/-- What the other transactions on the accounts keep: no link ends, and no cohort changes. -/
structure Extends (r r' : Guardians.Go.State) : Prop where
  links : ∀ guardian ward, r.isLinked guardian ward = true → r'.isLinked guardian ward = true
  cohorts : ∀ u k, r.cohortOf u = some k → r'.cohortOf u = some k

section
variable {r r' : Guardians.Go.State}

theorem Extends.setAccount (r : Guardians.Go.State) (u : Nat) (row : Account) :
    Extends r (r.setAccount u row) := by
  refine ⟨fun _ _ h => h, fun w k h => ?_⟩
  show ((r.accounts.set u _).get? w).map _ = some k
  rw [KeyMap.get?_set]
  split
  · rename_i hw
    rw [hw] at h
    show some ((r.cohortOf u).getD .unassigned) = some k
    rw [h]
    rfl
  · exact h

theorem Extends.same (hlinks : r'.links = r.links) (haccounts : r'.accounts = r.accounts) :
    Extends r r' := by
  constructor
  · intro guardian ward h
    show (r'.links.get? _).any _ = true
    rw [hlinks]
    exact h
  · intro u k h
    show (r'.accounts.get? u).map _ = some k
    rw [haccounts]
    exact h

theorem Extends.accept {c : Guardians.Go.Config} {clock : Nat} {token : String} {fails : Bool}
    (h : r.accept c x.env clock a token fails = .ok r') : Extends r r' := by
  rcases Guardians.Go.accept_spec h with ⟨i, j, -, rfl⟩ | ⟨i, j, g, -, rfl⟩
  · exact Extends.same rfl rfl
  · refine ⟨fun guardian ward hlink => ?_, fun _ _ h => h⟩
    show ((r.links.set _ _).get? _).any _ = true
    rw [KeyMap.get?_set]
    split
    · rfl
    · exact hlink

theorem Extends.putConsent (r : Guardians.Go.State) (guardian minor expires : Nat) :
    Extends r (r.putConsent guardian minor expires) := by
  refine ⟨fun g ward hlink => ?_, fun _ _ h => h⟩
  show ((r.links.mapRows _).get? _).any _ = true
  rw [KeyMap.get?_mapRows]
  obtain ⟨l, hl, hactive⟩ := (Option.any_eq_true _ _).mp hlink
  rw [hl]
  show Guardians.Link.isActive (if _ then _ else _) = true
  split <;> exact hactive

end

/-! ### The other transactions -/

variable {u : Nat}

theorem seat_eq_some {p : Participant} {nature : Kind × Cohort} :
    s.seat c u = some (p, nature) ↔
      s.chats.participants.get? (c, u) = some p ∧ s.chats.natureOf c = some nature := by
  unfold State.seat
  cases s.chats.participants.get? (c, u) with
  | none => simp
  | some =>
    cases s.chats.natureOf c with
    | none | some => simp

/-- Whoever may observe a conversation is an adult and has a child active there, and it is a
children's conversation. -/
theorem guardianEligible_spec (h : s.guardianEligible x u c = true) :
    s.accounts.cohortOf u = some .adult ∧ (∃ k, s.chats.natureOf c = some (k, .child)) ∧
      s.hasWard c u = true := by
  unfold State.guardianEligible at h
  cases hactor : s.accounts.actor u with
  | error =>
    rw [hactor] at h
    cases h
  | ok =>
    rw [hactor] at h
    simp only [Bool.and_eq_true, beq_iff_eq] at h
    obtain ⟨⟨⟨⟨-, hadult⟩, -⟩, hnature⟩, hward⟩ := h
    refine ⟨hadult ▸ cohortOf_actor hactor, ?_, ?_⟩
    · obtain ⟨n, hn, hchild⟩ := (Option.any_eq_true _ _).mp hnature
      rw [beq_iff_eq] at hchild
      exact ⟨n.1, hn.trans (congrArg some (Prod.ext rfl hchild))⟩
    · obtain ⟨key, hkey, -⟩ := List.any_eq_true.mp hward
      obtain ⟨p, hp, hfound⟩ := KeyMap.mem_keysWhere.mp (List.mem_of_mem_take hkey)
      exact KeyMap.anyRow_eq_true.mpr ⟨key, p, hp, hfound⟩

/-- `RevokeGuardian` after the link has been revoked. -/
def State.endLink (s : State) (a ward : Nat) : State :=
  { s with
    accounts := (s.accounts.revokeLinks fun pair => pair == (a, ward)).revokeConsents fun c =>
      c.minor == ward && c.guardian == a }

/-- `RevokeGuardian` after the observers have been pruned. -/
def State.revokeLink (s : State) (a ward : Nat) : State :=
  (s.endLink a ward).pruneEach (s.activeIn a ward)

/-- What a step can do that seats nobody. -/
inductive Ends (s : State) : Act → State → Prop where
  | rest (act : Act) : Ends s act s
  | accounts (act : Act) (r : Guardians.Go.State) (h : Extends s.accounts r) :
    Ends s act { s with accounts := r }
  | touch (act : Act) (c now : Nat) (disappearing : Nat → Nat) :
    Ends s act { s with chats := s.chats.touch c disappearing now }
  | depart (act : Act) (c u : Nat) (p : Participant) (state : PartState)
    (hrow : s.chats.participants.get? (c, u) = some p)
    (hout : state ≠ .active ∧ state ≠ .invited) :
    Ends s act ({ s with chats := s.chats.put c u { p with state } }.pruneObservers c)
  | remove (u : Nat) : Ends s (.removeUser u) (s.removeUser u)
  | revoke (x : Reads) (a ward : Nat) (t : State) (ht : t = s.revokeLink a ward ∨
      t = ((s.revokeLink a ward).removeUser ward).evictParticipation ward) :
    Ends s (.revokeGuardian x a ward) t
  | withdraw (x : Reads) (a ward : Nat) :
    Ends s (.withdrawConsent x a ward) ((⟨s.accounts.revokeConsents fun k =>
      k.minor == ward, s.chats⟩ : State).evictParticipation ward)
  | verify (x : Reads) (a : Actor) (over16 over18 : Bool)
    (hfresh : s.accounts.actor a.id = .ok a) :
    Ends s (.ageVerify x a.id over16 over18)
      (s.setAge a (Guardians.Go.State.ageClaims over16 over18))
  | erase (x : Reads) (a u : Nat) (t : State)
    (h : State.evictWards x (s.wardsOf u) (s.endGuardianships u) = .ok t) :
    Ends s (.erase x a u) ((t.evictParticipation u).deleteAccount u)

/-- A direct start of `a` with `b` succeeds, and reuses a chat. -/
def Revives (cfg : Config) (s : State) (act : Act) (a b : Actor) (found : Nat) : Prop :=
  ∃ x kind names title t, act = .start x a.id kind names title ∧
    State.parseKind kind = some .direct ∧ Reuses s x a b found ∧ names ≠ [] ∧
    (∀ name ∈ names, s.target name = .ok b) ∧
    s.start x cfg a.id kind names title = .ok (t, found)

theorem Revives.of_start {kind : String} {names : List String} {title : String}
    {found : Nat} (h : Revives cfg s (.start x u kind names title) a b found) :
    a.id = u ∧ (∀ name ∈ names, s.target name = .ok b) ∧
      s.chats.directOf id u b.id = some found := by
  obtain ⟨x', kind', names', title', t, hact, -, hreuses, -, hnames, -⟩ := h
  injection hact with _ hu _ hsame
  exact ⟨hu.symm, hsame ▸ hnames, hu ▸ hreuses.found⟩

/-- What a step can do: seat nobody, or reuse a direct chat, open a conversation, accept an
invitation, add a participant or an observer. -/
inductive Effect (cfg : Config) (s : State) : Act → State → Prop where
  | ends (act : Act) (t : State) (h : Ends s act t) : Effect cfg s act t
  | reuse (act : Act) (a b : Actor) (found : Nat) (h : Revives cfg s act a b found) :
    Effect cfg s act (s.revive found a.id b.id)
  | opening (x : Reads) (a : Actor) (kindText : String) (names : List String) (title : String)
    (kind : Kind) (targets : List Actor) (text : String) (h : Opens cfg s x a kind targets) :
    Effect cfg s (.start x a.id kindText names title) { s with
      chats := s.chats.start kind text a.user.cohort a.id (targets.map Actor.id) x.env.now }
  | join (x : Reads) (a : Actor) (c : Nat) (p : Participant) (kind : Kind)
    (hfresh : s.accounts.actor a.id = .ok a)
    (hrow : s.chats.participants.get? (c, a.id) = some p) (hinvited : p.state = .invited)
    (hnature : s.chats.natureOf c = some (kind, a.user.cohort))
    (hok : (s.transition x a.id c .accept).isOk = true) :
    Effect cfg s (.transition x a.id c .accept) ({ s with
      chats := s.chats.put c a.id { p with
        state := .active, joinedAt := some x.env.now } }.pruneObservers c)
  | add (x : Reads) (a : Actor) (c : Nat) (username : String) (b : Actor)
    (htarget : s.target username = .ok b)
    (hgroup : s.chats.natureOf c = some (.group, b.user.cohort))
    (hassigned : b.user.cohort ≠ .unassigned)
    (hout : (s.chats.participants.get? (c, b.id)).any Participant.isSeated = false)
    (hroom : s.chats.seats c < cfg.maxMembers)
    (hok : (s.addParticipant x cfg a.id c username).isOk = true) :
    Effect cfg s (.addParticipant x a.id c username) { s with
      chats := s.chats.put c b.id (s.addedRow c b.id a.id) }
  | observe (x : Reads) (a c : Nat) (heligible : s.guardianEligible x a c = true)
    (hout : (s.chats.participants.get? (c, a)).any Participant.isActive = false)
    (hroom : s.chats.seats c < cfg.maxMembers) :
    Effect cfg s (.addGuardian x a c) { s with
      chats := s.chats.put c a (s.observerRow c a x.env.now) }

theorem guardian_addedRow {v : Nat} (hout : (s.chats.participants.get? (c, u)).any
    Participant.isSeated = false)
    (hkept : ∀ p, s.chats.participants.get? (c, u) = some p → p.isSeated = false →
      p.role ≠ .guardian) : (s.addedRow c u v).role ≠ .guardian := by
  unfold State.addedRow
  cases hrow : s.chats.participants.get? (c, u) with
  | none => exact PartRole.noConfusion
  | some p =>
    rw [hrow, Option.any_some] at hout
    exact hkept p hrow hout

theorem Effect.rest (act : Act) : Effect cfg s act s := Effect.ends act s (Ends.rest act)

variable {act : Act}

theorem effect_getD {y : Except Error State}
    (h : ∀ t, y = .ok t → Effect cfg s act t) : Effect cfg s act (y.toOption.getD s) := by
  cases y with
  | ok t => exact h t rfl
  | error => exact Effect.rest act

theorem effect_onAccounts {y : Except Error Guardians.Go.State}
    (h : ∀ r, y = .ok r → Extends s.accounts r) : Effect cfg s act (s.onAccounts y) := by
  cases y with
  | ok r => exact Effect.ends _ _ (Ends.accounts act r (h r rfl))
  | error => exact Effect.rest act

theorem effect_transition {action : State.Action}
    (h : s.transition x u c action = .ok t) : Effect cfg s (.transition x u c action) t := by
  have hok : (s.transition x u c action).isOk = true := by
    rw [h]
    rfl
  unfold State.transition at h
  rw [bind_eq_ok] at h
  obtain ⟨a, hactor, h⟩ := h
  have hfresh := actor_id hactor
  obtain ⟨rfl, -⟩ := Guardians.Go.actor_spec hactor
  rw [bind_eq_ok] at h
  obtain ⟨⟨p, kind, cohort⟩, hseat, h⟩ := h
  obtain ⟨hrow, hnature⟩ := seat_eq_some.mp (elim_eq_ok.mp hseat)
  dsimp only at h
  rw [bind_eq_ok] at h
  obtain ⟨next, hnext, h⟩ := h
  rw [seq_eq_ok, pure_eq_ok] at h
  obtain ⟨-, rfl⟩ := h
  unfold State.nextState at hnext
  cases action with
  | accept =>
    rw [seq_eq_ok, seq_eq_ok, pure_eq_ok, need_eq_ok] at hnext
    obtain ⟨hchecks, -, rfl⟩ := hnext
    simp only [Bool.and_eq_true, beq_iff_eq] at hchecks
    obtain ⟨⟨hinvited, -⟩, rfl⟩ := hchecks
    exact Effect.join x a c p kind hfresh hrow hinvited hnature hok
  | decline =>
    rw [seq_eq_ok, pure_eq_ok] at hnext
    obtain ⟨-, rfl⟩ := hnext
    exact Effect.ends _ _ (Ends.depart _ c a.id p .declined hrow (by decide))
  | leave =>
    rw [seq_eq_ok, pure_eq_ok] at hnext
    obtain ⟨-, rfl⟩ := hnext
    exact Effect.ends _ _ (Ends.depart _ c a.id p .left hrow (by decide))

theorem canAdminister_spec {nature : Kind × Cohort} (h : s.canAdminister x a c = .ok nature) :
    s.chats.natureOf c = some nature := by
  unfold State.canAdminister at h
  rw [seq_eq_ok, bind_eq_ok] at h
  obtain ⟨-, ⟨p, n⟩, hseat, h⟩ := h
  rw [seq_eq_ok, seq_eq_ok, seq_eq_ok, pure_eq_ok] at h
  obtain ⟨-, -, -, rfl⟩ := h
  exact (seat_eq_some.mp (elim_eq_ok.mp hseat)).2

theorem effect_removeParticipant {username : String}
    (h : s.removeParticipant x u c username = .ok t) :
    Effect cfg s (.removeParticipant x u c username) t := by
  unfold State.removeParticipant at h
  rw [bind_eq_ok] at h
  obtain ⟨a, -, h⟩ := h
  rw [bind_eq_ok] at h
  obtain ⟨nature, -, h⟩ := h
  rw [bind_eq_ok] at h
  obtain ⟨b, -, h⟩ := h
  rw [seq_eq_ok, bind_eq_ok] at h
  obtain ⟨-, p, hrow, h⟩ := h
  rw [seq_eq_ok, seq_eq_ok, pure_eq_ok] at h
  obtain ⟨-, -, rfl⟩ := h
  exact Effect.ends _ _ (Ends.depart _ c b.id p .removed (elim_eq_ok.mp hrow) (by decide))

theorem effect_addParticipant {username : String}
    (h : s.addParticipant x cfg u c username = .ok t) :
    Effect cfg s (.addParticipant x u c username) t := by
  have hok : (s.addParticipant x cfg u c username).isOk = true := by
    rw [h]
    rfl
  unfold State.addParticipant at h
  rw [bind_eq_ok] at h
  obtain ⟨a, hactor, h⟩ := h
  obtain ⟨rfl, -⟩ := Guardians.Go.actor_spec hactor
  rw [bind_eq_ok] at h
  obtain ⟨⟨kind, cohort⟩, hadmin, h⟩ := h
  rw [bind_eq_ok] at h
  obtain ⟨b, htarget, h⟩ := h
  rw [seq_eq_ok, seq_eq_ok, seq_eq_ok, need_eq_ok, need_eq_ok, Bool.and_eq_true, beq_iff_eq,
    beq_iff_eq] at h
  obtain ⟨-, ⟨rfl, rfl⟩, hpair, h⟩ := h
  obtain ⟨-, hassigned, hsame⟩ := pair_spec hpair
  cases hseated : (s.chats.participants.get? (c, b.id)).any Participant.isSeated with
  | true =>
    rw [hseated, if_pos rfl, pure_eq_ok] at h
    subst h
    exact Effect.rest _
  | false =>
    rw [hseated, if_neg Bool.false_ne_true, seq_eq_ok, seq_eq_ok, pure_eq_ok, need_eq_ok,
      decide_eq_true_eq] at h
    obtain ⟨hroom, -, rfl⟩ := h
    exact Effect.add x a c username b htarget (canAdminister_spec hadmin) (hsame ▸ hassigned)
      hseated hroom hok

theorem effect_addGuardian (h : s.addGuardian x cfg u c = .ok t) :
    Effect cfg s (.addGuardian x u c) t := by
  unfold State.addGuardian at h
  rw [seq_eq_ok, seq_eq_ok, need_eq_ok] at h
  obtain ⟨heligible, -, h⟩ := h
  cases hactive : (s.chats.participants.get? (c, u)).any Participant.isActive with
  | true =>
    rw [hactive, if_pos rfl, pure_eq_ok] at h
    subst h
    exact Effect.rest _
  | false =>
    rw [hactive, if_neg Bool.false_ne_true, seq_eq_ok, seq_eq_ok, pure_eq_ok, need_eq_ok,
      decide_eq_true_eq] at h
    obtain ⟨hroom, -, rfl⟩ := h
    exact Effect.observe x u c heligible hactive hroom

theorem effect_revokeGuardian {ward : Nat} (h : s.revokeGuardian x u ward = .ok t) :
    Effect cfg s (.revokeGuardian x u ward) t := by
  unfold State.revokeGuardian at h
  rw [bind_eq_ok] at h
  obtain ⟨r, haccounts, h⟩ := h
  rw [bind_eq_ok] at h
  obtain ⟨w, -, h⟩ := h
  refine Effect.ends _ _ (Ends.revoke x u ward t ?_)
  rw [Guardians.Go.revokeGuardian_spec haccounts] at h
  dsimp only at h
  split at h
  · exact Or.inl (pure_eq_ok.mp h).symm
  · exact Or.inr (pure_eq_ok.mp h).symm

theorem effect_step (cfg : Config) (s : State) (act : Act) : Effect cfg s act (s.step cfg act) := by
  cases act with
  | account u row => exact Effect.ends _ _ (Ends.accounts _ _ (Extends.setAccount s.accounts u row))
  | inviteWard =>
    refine effect_onAccounts fun r h => ?_
    rw [bind_eq_ok] at h
    obtain ⟨a, -, h⟩ := h
    rw [bind_eq_ok] at h
    obtain ⟨w, -, h⟩ := h
    obtain ⟨-, -, rfl⟩ := Guardians.Go.invite_spec h
    exact Extends.same rfl rfl
  | acceptGuardian =>
    refine effect_onAccounts fun r h => ?_
    rw [bind_eq_ok] at h
    obtain ⟨a, -, h⟩ := h
    exact Extends.accept h
  | declineGuardian =>
    refine effect_onAccounts fun r h => ?_
    rw [bind_eq_ok] at h
    obtain ⟨a, -, h⟩ := h
    obtain ⟨-, -, -, rfl⟩ := Guardians.Go.decline_spec h
    exact Extends.same rfl rfl
  | grantConsent =>
    refine effect_onAccounts fun r h => ?_
    rw [bind_eq_ok] at h
    obtain ⟨a, -, h⟩ := h
    rw [bind_eq_ok] at h
    obtain ⟨w, -, h⟩ := h
    obtain ⟨expires, rfl⟩ := Guardians.Go.grantConsent_spec h
    exact Extends.putConsent s.accounts _ _ _
  | start x u kind names title =>
    show Effect cfg s _ (((s.start x cfg u kind names title).toOption.map Prod.fst).getD s)
    cases hstart : s.start x cfg u kind names title with
    | error => exact Effect.rest _
    | ok result =>
      obtain ⟨t, c⟩ := result
      obtain ⟨hsome, k, a, hkind, rfl, hcase⟩ := start_spec hstart
      show Effect cfg s _ t
      rcases hcase with ⟨rfl, b, hreuses, hnames, rfl⟩ | ⟨targets, hopens, -, -, text, rfl⟩
      · exact Effect.reuse _ a b c
          ⟨x, kind, names, title, _, rfl, hkind, hreuses, hsome, hnames, hstart⟩
      · exact Effect.opening x a kind names title k targets text hopens
  | transition => exact effect_getD fun t h => effect_transition h
  | addParticipant => exact effect_getD fun t h => effect_addParticipant h
  | removeParticipant => exact effect_getD fun t h => effect_removeParticipant h
  | addGuardian => exact effect_getD fun t h => effect_addGuardian h
  | setDisappearing x u c =>
    refine effect_getD fun t h => ?_
    unfold State.setDisappearing at h
    rw [seq_eq_ok, seq_eq_ok, bind_eq_ok] at h
    obtain ⟨-, -, seat, -, h⟩ := h
    rw [seq_eq_ok, seq_eq_ok, pure_eq_ok] at h
    obtain ⟨-, -, rfl⟩ := h
    exact Effect.ends _ _ (Ends.touch _ c _ _)
  | post x u c =>
    refine effect_getD fun t h => ?_
    unfold State.post at h
    rw [seq_eq_ok, seq_eq_ok, seq_eq_ok, seq_eq_ok, seq_eq_ok, seq_eq_ok, pure_eq_ok] at h
    obtain ⟨-, -, -, -, -, -, rfl⟩ := h
    exact Effect.ends _ _ (Ends.touch _ c _ _)
  | removeUser u => exact Effect.ends _ _ (Ends.remove u)
  | revokeGuardian => exact effect_getD fun t h => effect_revokeGuardian h
  | withdrawConsent x u ward =>
    refine effect_getD fun t h => ?_
    unfold State.withdrawConsent at h
    rw [bind_eq_ok] at h
    obtain ⟨a, -, h⟩ := h
    rw [bind_eq_ok] at h
    obtain ⟨w, hward, h⟩ := h
    rw [bind_eq_ok] at h
    obtain ⟨r, haccounts, h⟩ := h
    have hr := Guardians.Go.withdrawConsent_spec haccounts
    rw [(Guardians.Go.actor_spec hward).1] at hr
    rw [pure_eq_ok, hr] at h
    subst h
    exact Effect.ends _ _ (Ends.withdraw x u ward)
  | ageVerify x u over16 over18 =>
    refine effect_getD fun t h => ?_
    unfold State.ageVerify at h
    rw [bind_eq_ok] at h
    obtain ⟨a, hactor, h⟩ := h
    rw [seq_eq_ok, pure_eq_ok] at h
    obtain ⟨-, rfl⟩ := h
    have hfresh := actor_id hactor
    obtain ⟨rfl, -⟩ := Guardians.Go.actor_spec hactor
    exact Effect.ends _ _ (Ends.verify x a over16 over18 hfresh)
  | erase x u v =>
    refine effect_getD fun t h => ?_
    unfold State.erase at h
    rw [bind_eq_ok] at h
    obtain ⟨w, -, h⟩ := h
    rw [seq_eq_ok, seq_eq_ok, bind_eq_ok] at h
    obtain ⟨-, -, t', hwards, h⟩ := h
    rw [pure_eq_ok] at h
    subst h
    exact Effect.ends _ _ (Ends.erase x u v t' hwards)

/-! ### What seats nobody -/

theorem shrinks_pruneObservers (s : State) (c : Nat) :
    s.chats.Shrinks (s.pruneObservers c).chats :=
  Chats.Shrinks.mark _ _ (by decide)

theorem shrinks_pruneEach (s : State) (ids : List Nat) : s.chats.Shrinks (s.pruneEach ids).chats := by
  induction ids generalizing s with
  | nil => exact Chats.Shrinks.refl _
  | cons c ids ih => exact (shrinks_pruneObservers s c).trans (ih (s.pruneObservers c))

theorem accounts_pruneEach (s : State) (ids : List Nat) : (s.pruneEach ids).accounts = s.accounts := by
  induction ids generalizing s with
  | nil => rfl
  | cons c ids ih => exact ih (s.pruneObservers c)

theorem shrinks_removeSeats (s : State) (u : Nat) : s.chats.Shrinks (s.removeSeats u).chats :=
  Chats.Shrinks.mark _ _ (by decide)

theorem shrinks_removeUser (s : State) (u : Nat) : s.chats.Shrinks (s.removeUser u).chats :=
  (shrinks_removeSeats s u).trans (shrinks_pruneEach _ _)

theorem shrinks_evictParticipation (s : State) (u : Nat) :
    s.chats.Shrinks (s.evictParticipation u).chats :=
  (shrinks_removeSeats s u).trans (Chats.Shrinks.mark _ _ (by decide))

theorem shrinks_evictWards {wards : List Nat} (h : State.evictWards x wards s = .ok t) :
    s.chats.Shrinks t.chats := by
  induction wards generalizing s with
  | nil =>
    cases h
    exact Chats.Shrinks.refl _
  | cons ward wards ih =>
    unfold State.evictWards at h
    rw [bind_eq_ok] at h
    obtain ⟨w, -, h⟩ := h
    split at h
    · exact ih h
    · exact (shrinks_evictParticipation s ward).trans (ih h)

theorem shrinks_setAge (s : State) (a : Actor) (age : Social.Go.AgeBand × Cohort) :
    s.chats.Shrinks (s.setAge a age).chats := by
  unfold State.setAge
  dsimp only
  split
  · split
    · exact shrinks_evictParticipation (⟨s.accounts.revokeAdultWard a.id, s.chats⟩ : State) a.id
    · exact shrinks_evictParticipation s a.id
  · split
    · exact Chats.Shrinks.refl _
    · exact Chats.Shrinks.refl _

theorem Ends.shrinks (h : Ends s act t) : s.chats.Shrinks t.chats := by
  cases h with
  | rest | accounts => exact Chats.Shrinks.refl _
  | touch => exact Chats.Shrinks.touch _ _ _ _
  | depart _ d u p state hrow hout =>
    have hput : s.chats.Shrinks (s.chats.put d u { p with state }) :=
      Chats.Shrinks.put hrow rfl hout
    exact hput.trans (shrinks_pruneObservers { s with chats := s.chats.put d u _ } d)
  | remove u => exact shrinks_removeUser s u
  | revoke x u ward _ ht =>
    have hlink : s.chats.Shrinks (s.revokeLink u ward).chats :=
      shrinks_pruneEach (s.endLink u ward) _
    rcases ht with rfl | rfl
    · exact hlink
    · exact (hlink.trans (shrinks_removeUser _ ward)).trans (shrinks_evictParticipation _ ward)
  | withdraw x u ward => exact shrinks_evictParticipation _ ward
  | verify x a => exact shrinks_setAge s a _
  | erase x u v t' hwards =>
    have hevicted : (s.endGuardianships v).chats.Shrinks t'.chats := shrinks_evictWards hwards
    exact (hevicted.trans (shrinks_evictParticipation t' v)).trans (Chats.Shrinks.erase _ v)

end

end SocialActivities.Messaging.Go
