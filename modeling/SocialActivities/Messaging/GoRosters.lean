import SocialActivities.Messaging.GoEffects

/-!
# `SocialActivities.Messaging.GoRosters`: the reads that refuse a roster (Go)

Three reads turn a roster that is larger than the setting allows into an error, for everybody who
asks: the lists of conversations, in `populateConversationParticipants`, `ParticipantKeys`, and
`Post`, which reads the recipients. The first two allow a direct conversation two participants
whatever the setting is (`Config.cap`), and the third does not.

`Within` bounds the rosters, and `Readable` says that none of the three refuses: the lists are
read, whoever may read the keys of a conversation gets them, and whoever may write to it can post
to its members. `Within.readable` is that the first gives the second.
-/

namespace SocialActivities.Messaging.Go

open Lib
open Social (Cohort)
open Social.Go (Error)

/-- `cap`, as the readers compute it for a conversation. -/
def Config.cap (c : Config) : Kind → Nat
  | .direct => max c.maxMembers 2
  | .group => c.maxMembers

namespace State

variable (cfg : Config) (s : State) (x : Reads)

/-- The loop over the rows. `out` has the kinds of the conversations, and `counted` the conversations
of the rows that have been read. -/
def scanParticipants (out : Nat → Option Kind) :
    List Nat → List ((Nat × Nat) × Participant) → Except Error Unit
  | _, [] => .ok ()
  | counted, row :: rows => do
    let kind ← (out row.1.1).elim (.error .errInvalid) .ok
    need Error.errInvalid (decide (counted.count row.1.1 + 1 ≤ cfg.cap kind))
    scanParticipants out (row.1.1 :: counted) rows

/-- A participant as a conversation lists it. -/
structure Listed where
  user : Nat
  state : PartState
  role : PartRole
  joinedAt : Option Nat
  deriving DecidableEq

/-- `populateConversationParticipants`: the participants of the conversations. `Conversations` and
`serializeConversations` call it with conversations that they have read. -/
def populateConversationParticipants (ids : List Nat) (out : Nat → Option Kind) :
    Except Error (List (Nat × List Listed)) := do
  let rows := s.chats.participants.entries.filter fun e => ids.contains e.1.1 && e.2.isSeated
  scanParticipants cfg out [] rows
  pure (ids.map fun c => (c, (rows.filter fun e => e.1.1 == c).map fun e =>
    ⟨e.1.2, e.2.state, e.2.role, e.2.joinedAt⟩))

/-- The query of `ParticipantKeys`: the role and the kind, and whether the predicates hold. They are
those of `CanView`, but for a guardian. -/
def keyAuthority (a c : Nat) : Option (PartRole × Kind × Bool) :=
  match s.accounts.accounts.get? a, s.seat c a with
  | some account, some (p, kind, cohort) =>
    let u := account.user
    some (p.role, kind, u.isActive && p.isActive && (p.role == .guardian
      || (u.isIdentityVerified && u.cohort != .unassigned && u.cohort == cohort
        && x.env.assuranceCurrent a
        && (u.ageBand != .under16 || (s.accounts.env x.env).parentalConsent a)
        && (kind != .direct || !s.chats.participants.anyRow fun key q => key.1 == c && q.isActive
          && q.role != .guardian && key.2 != a && x.env.blocked a key.2
          && (s.accounts.accounts.get? key.2).any fun peer => peer.user.isActive))))
  | _, _ => none

/-- The checks of `ParticipantKeys` before it reads the roster. -/
def mayReadKeys (a c : Nat) : Except Error Kind := do
  let (role, kind, ok) ← (s.keyAuthority x a c).elim (.error .errForbidden) .ok
  if ok = true ∧ role = .guardian then do
    let ok ← s.canView x a c
    need Error.errForbidden ok
    pure kind
  else do
    need Error.errForbidden ok
    pure kind

/-- The active participants with an active account and a key, as `ParticipantKeys` reads them
(`LIMIT 257`). -/
def keyHolders (c : Nat) : List (Nat × PartRole) :=
  ((s.chats.participants.entries.filter fun e => e.1.1 == c && e.2.isActive
    && ((s.accounts.accounts.get? e.1.2).any fun u => u.user.isActive) && x.hasKey e.1.2).map
      fun e => (e.1.2, e.2.role)).take 257

/-- `ParticipantKeys`: whose keys it returns. -/
def participantKeys (a c : Nat) : Except Error (List (Nat × PartRole)) := do
  let kind ← s.mayReadKeys x a c
  need Error.failed (!x.fails)
  need Error.errInvalid (decide ((s.keyHolders x c).length ≤ cfg.cap kind))
  pure (s.keyHolders x c)

end State

/-- No conversation has more participants than the readers allow, and none more active ones than
`Post` allows. -/
structure Within (cfg : Config) (s : State) : Prop where
  seats : ∀ c n, s.chats.natureOf c = some n → s.chats.seats c ≤ cfg.cap n.1
  actives : ∀ c n, s.chats.natureOf c = some n → s.chats.actives c ≤ cfg.maxMembers

/-- No read refuses a roster. -/
structure Readable (cfg : Config) (s : State) : Prop where
  lists : ∀ ids, (∀ c ∈ ids, ∃ n, s.chats.natureOf c = some n) →
    (s.populateConversationParticipants cfg ids
      fun c => (s.chats.natureOf c).map Prod.fst).isOk = true
  keys : ∀ x a c kind, x.fails = false → s.mayReadKeys x a c = .ok kind →
    s.participantKeys cfg x a c = .ok (s.keyHolders x c)
  posts : ∀ (x : Reads) a c keys, x.fails = false → x.budgetAllows = true →
    s.canWrite x a c = .ok () → (keys.map State.RecipientKey.recipient).Perm (s.members c) →
      (∀ k ∈ keys, k.wellFormed = true) → (s.post x cfg a c keys true).isOk = true

section
variable {cfg : Config} {s : State} {x : Reads} {a c : Nat} {kind : Kind}

theorem Config.one_le_maxMembers (cfg : Config) : 1 ≤ cfg.maxMembers := by
  unfold Config.maxMembers
  split <;> omega

theorem Config.maxMembers_le (cfg : Config) : cfg.maxMembers ≤ 256 := by
  unfold Config.maxMembers
  split <;> omega

theorem Config.maxMembers_le_cap (cfg : Config) (kind : Kind) : cfg.maxMembers ≤ cfg.cap kind := by
  cases kind with
  | direct => exact Nat.le_max_left _ _
  | group => exact Nat.le_refl _

theorem scanParticipants_eq_ok {out : Nat → Option Kind} {counted : List Nat}
    {rows : List ((Nat × Nat) × Participant)}
    (h : ∀ row ∈ rows, ∃ k, out row.1.1 = some k ∧
      counted.count row.1.1 + rows.countP (fun e => e.1.1 == row.1.1) ≤ cfg.cap k) :
    State.scanParticipants cfg out counted rows = .ok () := by
  induction rows generalizing counted with
  | nil => rfl
  | cons row rows ih =>
    obtain ⟨k, hk, hfits⟩ := h row List.mem_cons_self
    rw [List.countP_cons_of_pos (by simp)] at hfits
    unfold State.scanParticipants
    rw [bind_eq_ok]
    refine ⟨k, elim_eq_ok.mpr hk, ?_⟩
    rw [seq_eq_ok, need_eq_ok, decide_eq_true_eq]
    refine ⟨by omega, ih fun e he => ?_⟩
    obtain ⟨k', hk', hfits'⟩ := h e (List.mem_cons_of_mem _ he)
    refine ⟨k', hk', ?_⟩
    -- The row has moved from the rows to come to the rows counted.
    rw [List.countP_cons] at hfits'
    rw [List.count_cons]
    omega

theorem members_length_le (s : State) (c : Nat) : (s.members c).length ≤ s.chats.actives c := by
  unfold State.members
  rw [List.length_take, List.length_map, ← KeyMap.count_eq_length_keysWhere]
  refine Nat.le_trans (Nat.min_le_right _ _) (KeyMap.count_le_count fun key p _ hfound => ?_)
  simp only [Bool.and_eq_true] at hfound
  simp [hfound.1]

theorem nodup_members (s : State) (c : Nat) : (s.members c).Nodup := by
  unfold State.members
  refine List.Nodup.sublist (List.take_sublist _ _) (List.Nodup.map_on ?_ (KeyMap.nodup_keysWhere _ _))
  intro k hk j hj hsame
  -- All the keys are in the one conversation.
  obtain ⟨p, -, hfound⟩ := KeyMap.mem_keysWhere.mp hk
  obtain ⟨q, -, hfound'⟩ := KeyMap.mem_keysWhere.mp hj
  simp only [Bool.and_eq_true, beq_iff_eq] at hfound hfound'
  exact Prod.ext (hfound.1.1.trans hfound'.1.1.symm) hsame

theorem keyHolders_length_le (s : State) (x : Reads) (c : Nat) :
    (s.keyHolders x c).length ≤ s.chats.actives c := by
  unfold State.keyHolders
  rw [List.length_take, List.length_map, ← List.countP_eq_length_filter]
  refine Nat.le_trans (Nat.min_le_right _ _) (List.countP_mono_left fun e _ hfound => ?_)
  simp only [Bool.and_eq_true] at hfound
  simp [hfound.1.1]

theorem mayReadKeys_spec (h : s.mayReadKeys x a c = .ok kind) :
    ∃ cohort, s.chats.natureOf c = some (kind, cohort) := by
  unfold State.mayReadKeys at h
  rw [bind_eq_ok] at h
  obtain ⟨⟨role, k, ok⟩, hauthority, h⟩ := h
  have hk : k = kind := by
    dsimp only at h
    split at h
    · rw [bind_eq_ok] at h
      obtain ⟨_, -, h⟩ := h
      rw [seq_eq_ok, pure_eq_ok] at h
      exact h.2
    · rw [seq_eq_ok, pure_eq_ok] at h
      exact h.2
  have hfound := elim_eq_ok.mp hauthority
  unfold State.keyAuthority at hfound
  split at hfound
  · rename_i account p kind' cohort haccount hseat
    have hkind : kind' = k := congrArg (fun found => found.2.1) (Option.some.inj hfound)
    exact ⟨cohort, hk ▸ hkind ▸ (seat_eq_some.mp hseat).2⟩
  · cases hfound

theorem canWrite_spec (h : s.canWrite x a c = .ok ()) : ∃ n, s.chats.natureOf c = some n := by
  unfold State.canWrite at h
  rw [bind_eq_ok] at h
  obtain ⟨ok, hview, h⟩ := h
  rw [seq_eq_ok, need_eq_ok] at h
  unfold State.canView at hview
  rw [bind_eq_ok] at hview
  obtain ⟨fresh, -, hview⟩ := hview
  cases hseat : s.seat c fresh.id with
  | none =>
    -- Nobody views a conversation without a row in it.
    rw [hseat] at hview
    split at hview
    · rw [pure_eq_ok] at hview
      rw [← hview] at h
      cases h.1
    · rw [pure_eq_ok] at hview
      rw [← hview] at h
      cases h.1
  | some found => exact ⟨found.2, (seat_eq_some.mp hseat).2⟩

theorem Within.readable (h : Within cfg s) : Readable cfg s := by
  constructor
  · intro ids hids
    unfold State.populateConversationParticipants
    dsimp only
    rw [scanParticipants_eq_ok fun row hrow => ?_]
    · rfl
    obtain ⟨hmem, hfound⟩ := List.mem_filter.mp hrow
    rw [Bool.and_eq_true, List.contains_iff_mem] at hfound
    obtain ⟨n, hn⟩ := hids _ hfound.1
    refine ⟨n.1, by rw [hn]; rfl, ?_⟩
    -- The rows of the conversation are its seats.
    rw [List.count_nil, Nat.zero_add, List.countP_filter]
    refine Nat.le_trans (List.countP_mono_left fun e _ he => ?_) (h.seats _ n hn)
    simp only [Bool.and_eq_true] at he
    simp [he.1, he.2.2]
  · intro x a c kind hfails hmay
    obtain ⟨cohort, hnature⟩ := mayReadKeys_spec hmay
    have hholders := keyHolders_length_le s x c
    have hactives := h.actives c _ hnature
    have hcap := cfg.maxMembers_le_cap kind
    unfold State.participantKeys
    rw [bind_eq_ok]
    refine ⟨kind, hmay, ?_⟩
    rw [seq_eq_ok, seq_eq_ok, need_eq_ok, need_eq_ok, pure_eq_ok]
    exact ⟨by simp [hfails], decide_eq_true (by omega), rfl⟩
  · intro x a c keys hfails hbudget hwrite hperm hformed
    obtain ⟨n, hnature⟩ := canWrite_spec hwrite
    have hmembers := members_length_le s c
    have hactives := h.actives c n hnature
    have hlength : keys.length = (s.members c).length := by
      rw [← hperm.length_eq, List.length_map]
    have hpost : s.post x cfg a c keys true =
        .ok { s with chats := s.chats.touch c id x.env.now } := by
      unfold State.post
      rw [seq_eq_ok, seq_eq_ok, seq_eq_ok, seq_eq_ok, seq_eq_ok, seq_eq_ok, pure_eq_ok]
      simp only [need_eq_ok, Bool.and_eq_true, decide_eq_true_eq, beq_iff_eq, List.all_eq_true]
      refine ⟨⟨trivial, by omega⟩, hwrite, hbudget, ⟨by omega, hlength.symm⟩,
        ⟨hperm.nodup_iff.mpr (nodup_members s c), fun k hk => ⟨?_, hformed k hk⟩⟩,
        by simp [hfails], trivial⟩
      rw [List.contains_iff_mem]
      exact hperm.mem_iff.mp (List.mem_map_of_mem hk)
    rw [hpost]
    rfl

end

end SocialActivities.Messaging.Go
