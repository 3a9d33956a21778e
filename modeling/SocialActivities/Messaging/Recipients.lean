import SocialActivities.Lib.Json
import SocialActivities.Lib.KeyMap

/-!
# `SocialActivities.Messaging.Recipients`: a message and the keys of its recipients

The tables `messaging_message` and `messaging_messagekey`. A post writes one row into the first one and, for
every active member of the conversation, one into the second: the content key, wrapped to that member. The
server reads none of it. `Stored` says what an exact post writes: a row for each member, with what the client
supplied under the public id of that member, and no other row.

`perm_iff` and `perm_iff_covers` are the two ways to check that a list names every member once and nobody
else: Go compares the lengths, Python the sets.
-/

namespace SocialActivities.Messaging

open Lib

/-- `accounts_user.public_id`, which is unique. -/
structure PublicIds where
  text : Nat → String
  unique : Function.Injective text

/-- A content key wrapped to one recipient, as the client supplies it. -/
structure Wrapped (ν : Type) where
  ephemeralPublicJWK : Json ν
  wrappedKey : String
  wrapIV : String

/-- A row of `messaging_message`, without its id. -/
structure Message where
  conversation : Nat
  sender : Nat
  algorithm : String
  ciphertext : String
  iv : String
  deriving DecidableEq

/-- A row of `messaging_messagekey`. -/
structure KeyRow (ν : Type) where
  message : Nat
  recipient : Nat
  key : Wrapped ν

/-- The two tables and the next id of a message, which no row has yet. -/
structure Posts (ν : Type) where
  messages : KeyMap Nat Message
  keys : List (KeyRow ν)
  next : Nat
  fresh : (∀ id m, messages.get? id = some m → id < next) ∧ ∀ row ∈ keys, row.message < next

variable {ν : Type}

def Posts.empty : Posts ν := ⟨KeyMap.empty, [], 1, fun _ _ h => (by cases h), fun _ h => (by cases h)⟩

/-- Insert a message with its keys. -/
def Posts.insert (p : Posts ν) (m : Message) (keys : List (Nat × Wrapped ν)) : Posts ν where
  messages := p.messages.set p.next m
  keys := p.keys ++ keys.map fun k => ⟨p.next, k.1, k.2⟩
  next := p.next + 1
  fresh := by
    constructor
    · intro id m' h
      rw [KeyMap.get?_set] at h
      split at h
      · omega
      · exact Nat.lt_succ_of_lt (p.fresh.1 id m' h)
    · intro row hrow
      cases List.mem_append.1 hrow with
      | inl h => exact Nat.lt_succ_of_lt (p.fresh.2 row h)
      | inr h =>
        have ⟨k, _, hk⟩ := List.mem_map.1 h
        rw [← hk]
        exact Nat.lt_succ_self p.next

/-- A text that a column takes: the database has no NUL character, and the column may have a width. -/
def storable (width : Option Nat) (text : String) : Bool :=
  !text.toList.contains '\x00' && width.all fun n => decide (text.length ≤ n)

def Wrapped.storable (w : Wrapped ν) : Bool :=
  w.ephemeralPublicJWK.strings.all (fun s => !s.contains '\x00') && Messaging.storable none w.wrappedKey
    && Messaging.storable (some 64) w.wrapIV

def Message.storable (m : Message) : Bool :=
  Messaging.storable (some 32) m.algorithm && Messaging.storable none m.ciphertext
    && Messaging.storable (some 64) m.iv

/-! ### What an exact post does -/

/-- The keys, each with the public id that it is addressed to, name every member once and nobody else. -/
def Addressed (ids : PublicIds) (members : List Nat) (keys : List (String × Wrapped ν)) : Prop :=
  (keys.map Prod.fst).Perm (members.map ids.text)

/-- The message is stored under a new id. Every member has one row there, which carries what was supplied under
the public id of that member; no other row is written. -/
def Stored (ids : PublicIds) (members : List Nat) (keys : List (String × Wrapped ν)) (m : Message)
    (before after : Posts ν) : Prop :=
  after.messages = before.messages.set before.next m ∧ ∃ rows, after.keys = before.keys ++ rows ∧
    (rows.map KeyRow.recipient).Perm members ∧
    ∀ row ∈ rows, row.message = before.next ∧ (ids.text row.recipient, row.key) ∈ keys

/-- The tables after a post. An error rolls it back. -/
def Posts.after {ε σ : Type} (p : Posts ν) : Except ε (σ × Posts ν) → Posts ν
  | .ok (_, q) => q
  | .error _ => p

/-- A post goes through exactly when it is accepted; then it stores what it has to, and else nothing. -/
structure Exactly {ε σ : Type} (accepted : Prop) (stored : Posts ν → Prop) (p : Posts ν)
    (outcome : Except ε (σ × Posts ν)) : Prop where
  goesThrough : outcome.isOk = true ↔ accepted
  stores : accepted → stored (p.after outcome)
  refuses : ¬accepted → p.after outcome = p

theorem Exactly.of {ε σ : Type} {accepted : Prop} {stored : Posts ν → Prop} {p : Posts ν}
    {outcome : Except ε (σ × Posts ν)} (haccepted : accepted → ∃ r, outcome = .ok r)
    (hstored : ∀ r, outcome = .ok r → accepted ∧ stored r.2) : Exactly accepted stored p outcome where
  goesThrough := by
    constructor
    · intro hok
      cases outcome with
      | error => cases hok
      | ok r => exact (hstored r rfl).1
    · intro h
      have ⟨r, hr⟩ := haccepted h
      rw [hr]
      rfl
  stores := by
    intro h
    have ⟨r, hr⟩ := haccepted h
    rw [hr]
    exact (hstored r hr).2
  refuses := by
    intro h
    cases outcome with
    | error => rfl
    | ok r => exact absurd (hstored r rfl).1 h

theorem stored_insert {ids : PublicIds} {members : List Nat} {keys : List (String × Wrapped ν)} {m : Message}
    {before : Posts ν} {rows : List (Nat × Wrapped ν)}
    (hrows : rows.map (fun row => (ids.text row.1, row.2)) = keys) (haddressed : Addressed ids members keys) :
    Stored ids members keys m before (before.insert m rows) := by
  refine ⟨rfl, _, rfl, ?_, ?_⟩
  · rw [List.map_map]
    show (rows.map Prod.fst).Perm members
    apply (List.map_perm_map_iff ids.unique).1
    rw [Addressed, ← hrows, List.map_map] at haddressed
    rw [List.map_map]
    exact haddressed
  · intro row hrow
    have ⟨k, hk, heq⟩ := List.mem_map.1 hrow
    rw [← heq, ← hrows]
    exact ⟨rfl, List.mem_map.2 ⟨k, hk, rfl⟩⟩

variable {α : Type}

theorem perm_iff {as members : List α} (hmembers : members.Nodup) :
    as.Perm members ↔ as.Nodup ∧ (∀ a ∈ as, a ∈ members) ∧ as.length = members.length := by
  constructor
  · intro h
    exact ⟨h.nodup_iff.2 hmembers, fun a ha => h.mem_iff.1 ha, h.length_eq⟩
  · intro ⟨hnodup, hsub, hlength⟩
    exact (List.subperm_of_subset hnodup hsub).perm_of_length_le (Nat.le_of_eq hlength.symm)

theorem perm_iff_covers {as members : List α} (hmembers : members.Nodup) :
    as.Perm members ↔ as.Nodup ∧ (∀ a ∈ as, a ∈ members) ∧ ∀ a ∈ members, a ∈ as := by
  constructor
  · intro h
    exact ⟨h.nodup_iff.2 hmembers, fun a ha => h.mem_iff.1 ha, fun a ha => h.mem_iff.2 ha⟩
  · intro ⟨hnodup, hsub, hcovers⟩
    exact (List.perm_ext_iff_of_nodup hnodup hmembers).2 fun a => ⟨hsub a, hcovers a⟩

end SocialActivities.Messaging
