import Mathlib.Data.Prod.Lex
import SocialActivities.Social.Rows

/-!
# `SocialActivities.Messaging.Rows`: conversations and their participants

`(conversation, user)` is unique in `messaging_participant`, so the participants are a `KeyMap` by
that pair; conversations are rows under their ids. Both services write these tables, each with its
own transactions. `Chats` has the tables and the writes: `start`, `put`, `mark` (an `UPDATE ... SET
state=...`), `touch` and `erase`.

`Chats.Sound` is what every write keeps: ids are given out once, and a direct conversation has at
most two users with a row of another role than `guardian`. `Chats.Follows` relates the tables before
and after a write that adds no row, and `Chats.Shrinks` those of a write that seats nobody.
-/

namespace SocialActivities.Messaging

open Lib
open Social (Cohort)

inductive Kind where
  | direct
  | group
  deriving DecidableEq

/-- `Participant.State`. -/
inductive PartState where
  | invited
  | active
  | declined
  | left
  | removed
  deriving DecidableEq

/-- `Participant.Role`. -/
inductive PartRole where
  | admin
  | member
  | guardian
  deriving DecidableEq

/-- A row of `messaging_conversation`. Times are in microseconds. -/
structure Conversation where
  kind : Kind
  title : String
  cohort : Cohort
  disappearing : Nat
  creator : Option Nat
  updatedAt : Nat
  deriving DecidableEq

/-- A row of `messaging_participant`, under its conversation and its user. -/
structure Participant where
  state : PartState
  role : PartRole
  invitedBy : Option Nat
  joinedAt : Option Nat
  deriving DecidableEq

/-- `state IN('active','invited')`. -/
def Participant.isSeated (p : Participant) : Bool := p.state == .active || p.state == .invited

/-- `state='active'`. -/
def Participant.isActive (p : Participant) : Bool := p.state == .active

/-- `role='guardian' AND state='active'`. -/
def Participant.isObserver (p : Participant) : Bool := p.role == .guardian && p.state == .active

theorem Participant.isSeated_of_isActive {p : Participant} (h : p.isActive = true) :
    p.isSeated = true := by
  show (p.isActive || p.state == .invited) = true
  rw [h]
  rfl

/-- The conversations, their participants, and the next id. -/
structure Chats where
  conversations : KeyMap Nat Conversation
  participants : KeyMap (Nat × Nat) Participant
  next : Nat

namespace Chats

variable (m : Chats)

def empty : Chats := ⟨KeyMap.empty, KeyMap.empty, 1⟩

/-- The number of rows of a conversation that are active or invited. -/
def seats (c : Nat) : Nat := m.participants.count fun key p => key.1 == c && p.isSeated

/-- The number of active rows of a conversation. -/
def actives (c : Nat) : Nat := m.participants.count fun key p => key.1 == c && p.isActive

/-- The direct conversation in which both users have a row. Among several it is the one that was
updated last, and among those the one with the highest `tie`. -/
def directOf (tie : Nat → Nat) (a b : Nat) : Option Nat :=
  m.conversations.top? (fun c v => toLex (v.updatedAt, tie c)) fun c v =>
    v.kind == .direct && (m.participants.get? (c, a)).isSome && (m.participants.get? (c, b)).isSome

/-- The row of an invited member. -/
def invitation (by' : Nat) : Participant := ⟨.invited, .member, some by', none⟩

/-- Invite the members, in turn. -/
def inviteAll (by' c : Nat) (rows : KeyMap (Nat × Nat) Participant) (members : List Nat) :
    KeyMap (Nat × Nat) Participant :=
  members.foldl (fun rows b => rows.set (c, b) (invitation by')) rows

/-- A new conversation: its creator is active, the members are invited. -/
def start (kind : Kind) (title : String) (cohort : Cohort) (creator : Nat) (members : List Nat)
    (now : Nat) : Chats where
  conversations := m.conversations.set m.next ⟨kind, title, cohort, 0, some creator, now⟩
  participants := inviteAll creator m.next
    (m.participants.set (m.next, creator) ⟨.active, .admin, none, some now⟩) members
  next := m.next + 1

/-- Insert or update the row of a participant. -/
def put (c u : Nat) (p : Participant) : Chats :=
  { m with participants := m.participants.set (c, u) p }

/-- `UPDATE messaging_participant SET state=...` on the rows that a query selects. -/
def mark (selected : Nat × Nat → Participant → Bool) (state : PartState) : Chats :=
  { m with participants := m.participants.mapRows fun key p =>
      if selected key p then { p with state } else p }

/-- Update the row of a conversation; its kind and its cohort stay. -/
def touch (c : Nat) (disappearing : Nat → Nat) (now : Nat) : Chats :=
  match m.conversations.get? c with
  | some v => { m with
      conversations := m.conversations.set c { v with
        disappearing := disappearing v.disappearing, updatedAt := now } }
  | none => m

/-- The cascade of the erasure of a user. -/
def erase (u : Nat) : Chats :=
  { m with
    conversations := m.conversations.mapRows fun _ v =>
      if v.creator = some u then { v with creator := none } else v
    participants := (m.participants.removeIf fun key _ => key.2 == u).mapRows fun _ p =>
      if p.invitedBy = some u then { p with invitedBy := none } else p }

end Chats

section
variable {m m' m'' : Chats} {c u : Nat} {key : Nat × Nat} {p : Participant} {v : Conversation}

/-! ### The rows after a write -/

theorem Chats.get?_put (m : Chats) (c u : Nat) (p : Participant) (key : Nat × Nat) :
    (m.put c u p).participants.get? key =
      if key = (c, u) then some p else m.participants.get? key :=
  KeyMap.get?_set ..

theorem Chats.get?_mark (m : Chats) (selected : Nat × Nat → Participant → Bool) (state : PartState)
    (key : Nat × Nat) :
    (m.mark selected state).participants.get? key =
      (m.participants.get? key).map fun p => if selected key p then { p with state } else p :=
  KeyMap.get?_mapRows ..

theorem Chats.get?_inviteAll (by' c : Nat) (rows : KeyMap (Nat × Nat) Participant)
    (members : List Nat) (key : Nat × Nat) :
    (Chats.inviteAll by' c rows members).get? key =
      if key.1 = c ∧ key.2 ∈ members then some (Chats.invitation by') else rows.get? key := by
  induction members generalizing rows with
  | nil => simp [Chats.inviteAll]
  | cons b members ih =>
    show (Chats.inviteAll by' c (rows.set (c, b) _) members).get? key = _
    rw [ih, KeyMap.get?_set]
    by_cases hc : key.1 = c
    · by_cases hb : key.2 = b
      · have hkey : key = (c, b) := Prod.ext hc hb
        simp [hkey]
      · have hkey : key ≠ (c, b) := fun h => hb (congrArg Prod.snd h)
        simp [hc, hb, hkey]
    · have hkey : key ≠ (c, b) := fun h => hc (congrArg Prod.fst h)
      simp [hc, hkey]

/-- The rows after the start of a conversation. -/
theorem Chats.get?_start (m : Chats) (kind : Kind) (title : String) (cohort : Cohort)
    (creator : Nat) (members : List Nat) (now : Nat) (key : Nat × Nat) :
    (m.start kind title cohort creator members now).participants.get? key =
      if key.1 = m.next ∧ key.2 ∈ members then some (Chats.invitation creator)
      else if key = (m.next, creator) then some ⟨.active, .admin, none, some now⟩
      else m.participants.get? key := by
  show (Chats.inviteAll creator m.next (m.participants.set _ _) members).get? key = _
  rw [Chats.get?_inviteAll, KeyMap.get?_set]

theorem Chats.get?_erase (h : (m.erase u).participants.get? key = some p) :
    key.2 ≠ u ∧ ∃ old, m.participants.get? key = some old ∧ p.state = old.state ∧
      p.role = old.role := by
  have hrow : ((m.participants.removeIf fun key _ => key.2 == u).mapRows _).get? key = some p := h
  rw [KeyMap.get?_mapRows, KeyMap.get?_removeIf] at hrow
  obtain ⟨old, hold, rfl⟩ := Option.map_eq_some_iff.mp hrow
  obtain ⟨hget, hkept⟩ := Option.filter_eq_some_iff.mp hold
  refine ⟨by simpa using hkept, old, hget, ?_, ?_⟩
  · split
    · rfl
    · rfl
  · split
    · rfl
    · rfl

theorem Chats.get?_erase_of_ne (hkey : key.2 ≠ u) (h : m.participants.get? key = some p) :
    ∃ p', (m.erase u).participants.get? key = some p' ∧ p'.state = p.state ∧ p'.role = p.role := by
  refine ⟨if p.invitedBy = some u then { p with invitedBy := none } else p, ?_, ?_, ?_⟩
  · show ((m.participants.removeIf fun key _ => key.2 == u).mapRows _).get? key = _
    rw [KeyMap.get?_mapRows, KeyMap.get?_removeIf, h, Option.filter_some,
      if_pos (by simpa using hkey)]
    rfl
  · split
    · rfl
    · rfl
  · split
    · rfl
    · rfl

/-- The kind and the cohort of a conversation, which no write changes. -/
def Chats.natureOf (m : Chats) (c : Nat) : Option (Kind × Cohort) :=
  (m.conversations.get? c).map fun v => (v.kind, v.cohort)

theorem Chats.natureOf_start (m : Chats) (kind : Kind) (title : String) (cohort : Cohort)
    (creator : Nat) (members : List Nat) (now : Nat) :
    (m.start kind title cohort creator members now).natureOf c =
      if c = m.next then some (kind, cohort) else m.natureOf c := by
  show ((m.conversations.set m.next _).get? c).map _ = _
  rw [KeyMap.get?_set]
  split <;> rfl

theorem Chats.natureOf_touch (m : Chats) (d : Nat) (disappearing : Nat → Nat) (now : Nat) :
    (m.touch d disappearing now).natureOf c = m.natureOf c := by
  unfold Chats.touch
  cases hv : m.conversations.get? d with
  | none => rfl
  | some =>
    show ((m.conversations.set d _).get? c).map _ = (m.conversations.get? c).map _
    rw [KeyMap.get?_set]
    by_cases hc : c = d
    · simp [hc, hv]
    · simp [hc]

theorem Chats.natureOf_erase (m : Chats) (u : Nat) : (m.erase u).natureOf c = m.natureOf c := by
  show ((m.conversations.mapRows _).get? c).map _ = (m.conversations.get? c).map _
  rw [KeyMap.get?_mapRows, Option.map_map]
  refine congrArg (fun f => (m.conversations.get? c).map f) (funext fun v => ?_)
  show (Conversation.kind (if _ then _ else _), Conversation.cohort (if _ then _ else _)) = _
  split <;> rfl

/-! ### What the writes keep -/

/-- Every row after a write was there before it, with its role. -/
structure Chats.Follows (m m' : Chats) : Prop where
  next : m'.next = m.next
  nature : ∀ c, m'.natureOf c = m.natureOf c
  rows : ∀ key p, m'.participants.get? key = some p →
    ∃ old, m.participants.get? key = some old ∧ p.role = old.role

/-- A write that seats nobody: every row after it was there before it, with its role, and has kept
its state or is not seated. -/
structure Chats.Shrinks (m m' : Chats) : Prop where
  next : m'.next = m.next
  nature : ∀ c, m'.natureOf c = m.natureOf c
  rows : ∀ key p, m'.participants.get? key = some p →
    ∃ old, m.participants.get? key = some old ∧ p.role = old.role ∧
      (p.state = old.state ∨ p.isSeated = false)

theorem Chats.Shrinks.follows (h : m.Shrinks m') : m.Follows m' := by
  refine ⟨h.next, h.nature, fun key p hp => ?_⟩
  obtain ⟨old, hold, hrole, -⟩ := h.rows key p hp
  exact ⟨old, hold, hrole⟩

theorem Chats.Shrinks.refl (m : Chats) : m.Shrinks m :=
  ⟨rfl, fun _ => rfl, fun _ p h => ⟨p, h, rfl, Or.inl rfl⟩⟩

theorem Chats.Shrinks.trans (h : m.Shrinks m') (h' : m'.Shrinks m'') : m.Shrinks m'' := by
  refine ⟨h'.next.trans h.next, fun c => (h'.nature c).trans (h.nature c), fun key p hp => ?_⟩
  obtain ⟨mid, hmid, hrole', hstate'⟩ := h'.rows key p hp
  obtain ⟨old, hold, hrole, hstate⟩ := h.rows key mid hmid
  refine ⟨old, hold, hrole'.trans hrole, ?_⟩
  rcases hstate' with hsame | hout
  · rcases hstate with hsame' | hout
    · exact Or.inl (hsame.trans hsame')
    · refine Or.inr ?_
      show (p.state == .active || p.state == .invited) = false
      rw [hsame]
      exact hout
  · exact Or.inr hout

theorem Chats.Shrinks.mark (m : Chats) (selected : Nat × Nat → Participant → Bool)
    {state : PartState} (hstate : state ≠ .active ∧ state ≠ .invited) :
    m.Shrinks (m.mark selected state) := by
  refine ⟨rfl, fun _ => rfl, fun key p hp => ?_⟩
  rw [Chats.get?_mark] at hp
  obtain ⟨old, hold, rfl⟩ := Option.map_eq_some_iff.mp hp
  refine ⟨old, hold, ?_⟩
  cases selected key old with
  | false => exact ⟨rfl, Or.inl rfl⟩
  | true =>
    refine ⟨rfl, Or.inr ?_⟩
    show (state == .active || state == .invited) = false
    simp [hstate.1, hstate.2]

theorem Chats.Follows.put {q : Participant} (hrow : m.participants.get? (c, u) = some p)
    (hrole : q.role = p.role) : m.Follows (m.put c u q) := by
  refine ⟨rfl, fun _ => rfl, fun key r hr => ?_⟩
  rcases KeyMap.of_get?_set hr with ⟨rfl, rfl⟩ | hr
  · exact ⟨p, hrow, hrole⟩
  · exact ⟨r, hr, rfl⟩

theorem Chats.Shrinks.put {q : Participant} (hrow : m.participants.get? (c, u) = some p)
    (hrole : q.role = p.role) (hout : q.state ≠ .active ∧ q.state ≠ .invited) :
    m.Shrinks (m.put c u q) := by
  refine ⟨rfl, fun _ => rfl, fun key r hr => ?_⟩
  rcases KeyMap.of_get?_set hr with ⟨rfl, rfl⟩ | hr
  · refine ⟨p, hrow, hrole, Or.inr ?_⟩
    show (q.state == .active || q.state == .invited) = false
    simp [hout.1, hout.2]
  · exact ⟨r, hr, rfl, Or.inl rfl⟩

theorem Chats.participants_touch (m : Chats) (d : Nat) (disappearing : Nat → Nat) (now : Nat) :
    (m.touch d disappearing now).participants = m.participants := by
  unfold Chats.touch
  split <;> rfl

theorem Chats.Shrinks.touch (m : Chats) (d : Nat) (disappearing : Nat → Nat) (now : Nat) :
    m.Shrinks (m.touch d disappearing now) := by
  have hnext : (m.touch d disappearing now).next = m.next := by
    unfold Chats.touch
    split <;> rfl
  refine ⟨hnext, fun _ => Chats.natureOf_touch m d disappearing now, fun key p hp => ?_⟩
  rw [Chats.participants_touch] at hp
  exact ⟨p, hp, rfl, Or.inl rfl⟩

theorem Chats.Shrinks.erase (m : Chats) (u : Nat) : m.Shrinks (m.erase u) := by
  refine ⟨rfl, fun _ => Chats.natureOf_erase m u, fun key p hp => ?_⟩
  obtain ⟨-, old, hold, hstate, hrole⟩ := Chats.get?_erase hp
  exact ⟨old, hold, hrole, Or.inl hstate⟩

theorem Chats.Shrinks.seats_le (h : m.Shrinks m') (c : Nat) : m'.seats c ≤ m.seats c := by
  refine KeyMap.count_le_of_keys fun key p hp hseat => ?_
  obtain ⟨old, hold, -, hstate⟩ := h.rows key p hp
  rw [Bool.and_eq_true] at hseat
  refine ⟨old, hold, ?_⟩
  rcases hstate with hsame | hout
  · show (key.1 == c && (old.state == .active || old.state == .invited)) = true
    rw [← hsame, Bool.and_eq_true]
    exact hseat
  · rw [hout] at hseat
    cases hseat.2

theorem Chats.Shrinks.actives_le (h : m.Shrinks m') (c : Nat) : m'.actives c ≤ m.actives c := by
  refine KeyMap.count_le_of_keys fun key p hp hactive => ?_
  obtain ⟨old, hold, -, hstate⟩ := h.rows key p hp
  rw [Bool.and_eq_true] at hactive
  refine ⟨old, hold, ?_⟩
  rcases hstate with hsame | hout
  · show (key.1 == c && (old.state == .active)) = true
    rw [← hsame, Bool.and_eq_true]
    exact hactive
  · rw [Participant.isSeated_of_isActive hactive.2] at hout
    cases hout

/-! ### Counts -/

theorem Chats.actives_le_seats (m : Chats) (c : Nat) : m.actives c ≤ m.seats c := by
  refine KeyMap.count_le_count fun key p _ hactive => ?_
  rw [Bool.and_eq_true] at hactive ⊢
  exact ⟨hactive.1, Participant.isSeated_of_isActive hactive.2⟩

theorem Chats.seats_put (m : Chats) (c u : Nat) (p : Participant) :
    (m.put c u p).seats c +
        (if (m.participants.get? (c, u)).any Participant.isSeated then 1 else 0) =
      m.seats c + (if p.isSeated then 1 else 0) := by
  have hcount := KeyMap.count_set m.participants (c, u) p fun key p => key.1 == c && p.isSeated
  simp only [beq_self_eq_true, Bool.true_and] at hcount
  exact hcount

theorem Chats.actives_put (m : Chats) (c u : Nat) (p : Participant) :
    (m.put c u p).actives c +
        (if (m.participants.get? (c, u)).any Participant.isActive then 1 else 0) =
      m.actives c + (if p.isActive then 1 else 0) := by
  have hcount := KeyMap.count_set m.participants (c, u) p fun key p => key.1 == c && p.isActive
  simp only [beq_self_eq_true, Bool.true_and] at hcount
  exact hcount

theorem Chats.counts_put_of_ne (m : Chats) (u : Nat) (p : Participant) {d : Nat} (hd : d ≠ c) :
    (m.put c u p).seats d = m.seats d ∧ (m.put c u p).actives d = m.actives d := by
  have hseats := KeyMap.count_set m.participants (c, u) p fun key p => key.1 == d && p.isSeated
  have hactives := KeyMap.count_set m.participants (c, u) p fun key p => key.1 == d && p.isActive
  have hne : (c == d) = false := beq_eq_false_iff_ne.mpr (Ne.symm hd)
  simp only [hne, Bool.false_and, Option.any_false, Bool.false_eq_true, if_false, Nat.add_zero]
    at hseats hactives
  exact ⟨hseats, hactives⟩

theorem Chats.counts_start_of_ne (m : Chats) (kind : Kind) (title : String) (cohort : Cohort)
    (creator : Nat) (members : List Nat) (now : Nat) (hc : c ≠ m.next) :
    (m.start kind title cohort creator members now).seats c ≤ m.seats c ∧
      (m.start kind title cohort creator members now).actives c ≤ m.actives c := by
  have hrow : ∀ key p, (m.start kind title cohort creator members now).participants.get? key =
      some p → (key.1 == c) = true → m.participants.get? key = some p := by
    intro key p hp hkey
    have hne : key.1 ≠ m.next := by
      rw [beq_iff_eq.mp hkey]
      exact hc
    rw [Chats.get?_start, if_neg fun h => hne h.1, if_neg fun h => hne (congrArg Prod.fst h)] at hp
    exact hp
  constructor
  · refine KeyMap.count_le_of_keys fun key p hp hseat => ⟨p, ?_, hseat⟩
    rw [Bool.and_eq_true] at hseat
    exact hrow key p hp hseat.1
  · refine KeyMap.count_le_of_keys fun key p hp hactive => ⟨p, ?_, hactive⟩
    rw [Bool.and_eq_true] at hactive
    exact hrow key p hp hactive.1

/-! ### What holds of the tables at all times -/

/-- Ids have been given out, and a direct conversation has at most two users with a row of another
role than `guardian`. -/
structure Chats.Sound (m : Chats) : Prop where
  conversations : ∀ c n, m.natureOf c = some n → c < m.next
  participants : ∀ key p, m.participants.get? key = some p → key.1 < m.next
  founders : ∀ c cohort, m.natureOf c = some (.direct, cohort) →
    ∃ x y, ∀ u p, m.participants.get? (c, u) = some p → p.role ≠ .guardian → u = x ∨ u = y

theorem Chats.sound_empty : Chats.empty.Sound :=
  ⟨fun _ _ h => (by cases h), fun _ _ h => (by cases h), fun _ _ h => (by cases h)⟩

theorem Chats.Sound.follows (hm : m.Sound) (h : m.Follows m') : m'.Sound := by
  constructor
  · intro c n hc
    rw [h.nature] at hc
    rw [h.next]
    exact hm.conversations c n hc
  · intro key p hp
    obtain ⟨old, hold, -⟩ := h.rows key p hp
    rw [h.next]
    exact hm.participants key old hold
  · intro c cohort hc
    rw [h.nature] at hc
    obtain ⟨x, y, hxy⟩ := hm.founders c cohort hc
    refine ⟨x, y, fun u p hp hrole => ?_⟩
    obtain ⟨old, hold, hsame⟩ := h.rows _ p hp
    exact hxy u old hold (hsame ▸ hrole)

theorem Chats.Sound.put (hm : m.Sound) (hc : c < m.next)
    (hrow : p.role = .guardian ∨ ∃ cohort, m.natureOf c = some (.group, cohort)) :
    (m.put c u p).Sound := by
  refine ⟨hm.conversations, KeyMap.forall_set hc hm.participants, fun d cohort hd => ?_⟩
  obtain ⟨x, y, hxy⟩ := hm.founders d cohort hd
  refine ⟨x, y, fun w q hq hrole => ?_⟩
  rcases KeyMap.of_get?_set hq with ⟨hkey, rfl⟩ | hq
  · rcases hrow with hguardian | ⟨cohort', hgroup⟩
    · exact absurd hguardian hrole
    · have hnature : m.natureOf d = some (.direct, cohort) := hd
      rw [(Prod.mk.inj hkey).1, hgroup] at hnature
      cases hnature
  · exact hxy w q hq hrole

theorem Chats.Sound.get?_start (hm : m.Sound) {kind : Kind} {title : String} {cohort : Cohort}
    {creator now : Nat} {members : List Nat}
    (h : (m.start kind title cohort creator members now).participants.get? (m.next, u) = some p) :
    (u ∈ members ∧ p = Chats.invitation creator) ∨
      u = creator ∧ p = ⟨.active, .admin, none, some now⟩ := by
  rw [Chats.get?_start] at h
  split at h
  · rename_i hin
    cases h
    exact Or.inl ⟨hin.2, rfl⟩
  · split at h
    · rename_i hkey
      cases h
      exact Or.inr ⟨(Prod.mk.inj hkey).2, rfl⟩
    · exact absurd (hm.participants _ p h) (Nat.lt_irrefl _)

theorem Chats.Sound.counts_start (hm : m.Sound) (kind : Kind) (title : String) (cohort : Cohort)
    (creator : Nat) (members : List Nat) (now : Nat) :
    (m.start kind title cohort creator members now).seats m.next ≤ members.length + 1 ∧
      (m.start kind title cohort creator members now).actives m.next ≤ 1 := by
  constructor
  · have hcount : (m.start kind title cohort creator members now).seats m.next ≤
        ((creator :: members).map fun w => (m.next, w)).length := by
      refine KeyMap.count_le_length fun key p hp hseat => ?_
      rw [Bool.and_eq_true, beq_iff_eq] at hseat
      have hkey : key = (m.next, key.2) := Prod.ext hseat.1 rfl
      rw [hkey] at hp ⊢
      refine List.mem_map.mpr ⟨key.2, ?_, rfl⟩
      rcases hm.get?_start hp with ⟨hu, -⟩ | ⟨hu, -⟩
      · exact List.mem_cons_of_mem _ hu
      · exact hu ▸ List.mem_cons_self
    simpa using hcount
  · have hcount : (m.start kind title cohort creator members now).actives m.next ≤
        [(m.next, creator)].length := by
      refine KeyMap.count_le_length fun key p hp hactive => ?_
      rw [Bool.and_eq_true, beq_iff_eq] at hactive
      have hkey : key = (m.next, key.2) := Prod.ext hactive.1 rfl
      rw [hkey] at hp ⊢
      rcases hm.get?_start hp with ⟨-, rfl⟩ | ⟨hu, -⟩
      · -- An invited member is not active.
        cases hactive.2
      · exact hu ▸ List.mem_singleton_self _
    simpa using hcount

theorem Chats.get?_start_of_ne (m : Chats) (kind : Kind) (title : String) (cohort : Cohort)
    (creator : Nat) (members : List Nat) (now : Nat) (hkey : key.1 ≠ m.next) :
    (m.start kind title cohort creator members now).participants.get? key =
      m.participants.get? key := by
  have hne : key ≠ (m.next, creator) := fun h => hkey (congrArg Prod.fst h)
  rw [Chats.get?_start, if_neg fun h => hkey h.1, if_neg hne]

theorem Chats.Sound.start (hm : m.Sound) {kind : Kind} (title : String) (cohort : Cohort)
    (creator : Nat) {members : List Nat} (now : Nat)
    (hpair : kind = .direct → ∃ b, members = [b]) :
    (m.start kind title cohort creator members now).Sound := by
  constructor
  · intro c n hc
    rw [Chats.natureOf_start] at hc
    show c < m.next + 1
    split at hc
    · omega
    · have hlt := hm.conversations c n hc
      omega
  · intro key p hp
    show key.1 < m.next + 1
    by_cases hkey : key.1 = m.next
    · omega
    · rw [Chats.get?_start_of_ne m _ _ _ _ _ _ hkey] at hp
      have hlt := hm.participants key p hp
      omega
  · intro c k hc
    rw [Chats.natureOf_start] at hc
    split at hc
    · rename_i hnew
      cases hc
      obtain ⟨b, rfl⟩ := hpair rfl
      refine ⟨creator, b, fun u p hp _ => ?_⟩
      rw [hnew] at hp
      rcases hm.get?_start hp with ⟨hu, -⟩ | ⟨hu, -⟩
      · exact Or.inr (List.mem_singleton.mp hu)
      · exact Or.inl hu
    · rename_i hold
      obtain ⟨x, y, hxy⟩ := hm.founders c k hc
      refine ⟨x, y, fun u p hp hrole => ?_⟩
      rw [Chats.get?_start_of_ne m _ _ _ _ _ _ hold] at hp
      exact hxy u p hp hrole

theorem Chats.directOf_spec {tie : Nat → Nat} {a b : Nat} (h : m.directOf tie a b = some c) :
    ∃ v, m.conversations.get? c = some v ∧ v.kind = .direct ∧
      (∃ p, m.participants.get? (c, a) = some p) ∧ (∃ p, m.participants.get? (c, b) = some p) := by
  obtain ⟨v, hv, hfound, -⟩ := KeyMap.top?_spec h
  rw [Bool.and_eq_true, Bool.and_eq_true, beq_iff_eq, Option.isSome_iff_exists,
    Option.isSome_iff_exists] at hfound
  exact ⟨v, hv, hfound.1.1, hfound.1.2, hfound.2⟩

end

end SocialActivities.Messaging
