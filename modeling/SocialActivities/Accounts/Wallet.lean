import SocialActivities.Lib.Checked
import SocialActivities.Lib.KeyMap
import SocialActivities.Lib.Machine
import SocialActivities.Lib.Sha256

/-!
# `SocialActivities.Accounts.Wallet`: wallet bindings and the ban ledger

`accounts_identitybinding` has a row for each wallet that was ever bound, under the hash of its
holder. The row outlives the account: an erased account leaves it without a user, and a release
only sets `released_at`. `accounts_bannedidentity` lists the wallets of banned people.

`Ledger` is both tables, with the unique column `user_id` as a field: an account names at most one
row, its `bindingOf`. `Binder` is what an implementation of the binding gives: a bind that succeeds
is a `BindStep`. Everything about runs is proved of any binder, and the two implementations are
binders (`Py.binder`, `Go.binder`).
-/

namespace SocialActivities.Accounts

open Lib

/-- A row of `accounts_identitybinding`, under its holder hash. -/
structure Binding where
  user : Option Nat
  createdAt : Nat
  releasedAt : Option Nat
  deriving DecidableEq

/-- The tables `accounts_identitybinding` and `accounts_bannedidentity`. -/
structure Ledger where
  bindings : KeyMap String Binding
  banned : KeyMap String Nat
  /-- `user_id` is unique. -/
  unique : ∀ h h' b b' u, bindings.get? h = some b → bindings.get? h' = some b' →
    b.user = some u → b'.user = some u → h = h'

namespace Ledger

/-- No rows. -/
def empty : Ledger where
  bindings := KeyMap.empty
  banned := KeyMap.empty
  unique := fun _ _ _ _ _ h => (by cases h)

variable (s : Ledger)

/-- The wallet that an account names. -/
def bindingOf (u : Nat) : Option String :=
  (s.bindings.keysWhere fun _ b => b.user == some u).head?

/-- Is the wallet on the ban ledger? -/
def isBanned (holder : String) : Bool := (s.banned.get? holder).isSome

/-- The row of the wallet names the account and is not released. -/
def Live (u : Nat) (holder : String) : Prop :=
  ∃ b, s.bindings.get? holder = some b ∧ b.user = some u ∧ b.releasedAt = none

theorem bindingOf_eq_some {u : Nat} {holder : String} :
    s.bindingOf u = some holder ↔ ∃ b, s.bindings.get? holder = some b ∧ b.user = some u := by
  have hmem : ∀ h, h ∈ s.bindings.keysWhere (fun _ b => b.user == some u) ↔
      ∃ b, s.bindings.get? h = some b ∧ b.user = some u := by
    intro h
    rw [KeyMap.mem_keysWhere]
    simp
  unfold bindingOf
  constructor
  · intro h
    exact (hmem holder).mp (List.mem_of_head? h)
  · intro h
    obtain ⟨b, hb, hu⟩ := h
    cases hkeys : s.bindings.keysWhere (fun _ b => b.user == some u) with
    | nil =>
      have hin := (hmem holder).mpr ⟨b, hb, hu⟩
      rw [hkeys] at hin
      cases hin
    | cons k =>
      -- The first of the keys is the only one.
      have hk : k ∈ s.bindings.keysWhere (fun _ b => b.user == some u) := by
        rw [hkeys]
        exact List.mem_cons_self
      obtain ⟨b', hb', hu'⟩ := (hmem k).mp hk
      rw [s.unique k holder b' b u hb' hb hu' hu]
      rfl

/-- An upsert of one row that takes no account from another row. -/
def put (holder : String) (b : Binding)
    (hfree : ∀ u, b.user = some u → s.bindingOf u = none ∨ s.bindingOf u = some holder) :
    Ledger where
  bindings := s.bindings.set holder b
  banned := s.banned
  unique := by
    -- Another row with the new row's account would be a row of that account before.
    have hother : ∀ h c u, s.bindings.get? h = some c → b.user = some u → c.user = some u →
        h = holder := by
      intro h c u hc hb hu
      have hof : s.bindingOf u = some h := (s.bindingOf_eq_some).mpr ⟨c, hc, hu⟩
      rcases hfree u hb with hnone | hsame
      · rw [hof] at hnone
        cases hnone
      · rw [hof] at hsame
        exact Option.some.inj hsame
    intro h h' c c' u hc hc' hu hu'
    rw [KeyMap.get?_set] at hc hc'
    split at hc
    · split at hc'
      · rename_i hh hh'
        rw [hh, hh']
      · rename_i hh _
        rw [← Option.some.inj hc] at hu
        rw [hh]
        exact (hother h' c' u hc' hu hu').symm
    · split at hc'
      · rename_i hh'
        rw [← Option.some.inj hc'] at hu'
        rw [hh']
        exact hother h c u hc hu' hu
      · exact s.unique h h' c c' u hc hc' hu hu'

/-- A write of the account's name into the row of a wallet; `none` when `user_id` would not be
unique. -/
def attach (holder : String) (u createdAt : Nat) : Option Ledger :=
  if hfree : s.bindingOf u = none ∨ s.bindingOf u = some holder then
    some (s.put holder ⟨some u, createdAt, none⟩ fun _ h => Option.some.inj h ▸ hfree)
  else none

/-- An update of the row of a wallet that gives it no new account. -/
def update (holder : String) (f : Binding → Binding)
    (hf : ∀ b u, (f b).user = some u → b.user = some u) : Ledger :=
  match hb : s.bindings.get? holder with
  | some b => s.put holder (f b) fun u hu =>
      Or.inr ((s.bindingOf_eq_some).mpr ⟨b, hb, hf b u hu⟩)
  | none => s

theorem get?_update (holder : String) (f : Binding → Binding)
    (hf : ∀ b u, (f b).user = some u → b.user = some u) (h : String) :
    (s.update holder f hf).bindings.get? h =
      if h = holder then (s.bindings.get? h).map f else s.bindings.get? h := by
  unfold update
  split
  · rename_i b hb
    show (s.bindings.set holder (f b)).get? h = _
    rw [KeyMap.get?_set]
    by_cases hh : h = holder
    · subst hh
      rw [if_pos rfl, if_pos rfl, hb]
      rfl
    · rw [if_neg hh, if_neg hh]
  · rename_i hb
    by_cases hh : h = holder
    · subst hh
      rw [if_pos rfl, hb]
      rfl
    · rw [if_neg hh]

theorem banned_update (holder : String) (f : Binding → Binding)
    (hf : ∀ b u, (f b).user = some u → b.user = some u) :
    (s.update holder f hf).banned = s.banned := by
  unfold update
  split <;> rfl

end Ledger

/-! ### The operations -/

/-- `released_at = now()`, when the row is live. -/
def Binding.release (now : Nat) (b : Binding) : Binding :=
  if b.releasedAt.isNone then { b with releasedAt := some now } else b

theorem Binding.user_release {now : Nat} {b : Binding} : (b.release now).user = b.user := by
  unfold Binding.release
  split <;> rfl

/-- `release_binding`, and the action `release_bindings` of the console. -/
def releaseBinding (now u : Nat) (s : Ledger) : Ledger :=
  match s.bindingOf u with
  | some holder => s.update holder (Binding.release now) fun _ _ h => Binding.user_release ▸ h
  | none => s

/-- The account is erased: its row stays without a user. -/
def eraseUser (u : Nat) (s : Ledger) : Ledger :=
  match s.bindingOf u with
  | some holder => s.update holder (fun b => { b with user := none }) fun _ _ h => (by cases h)
  | none => s

/-- `ban_identity`: the wallet that the account names goes on the ban ledger, once. -/
def banIdentity (now u : Nat) (s : Ledger) : Ledger :=
  match s.bindingOf u with
  | some holder =>
    if s.isBanned holder then s else { s with banned := s.banned.set holder now }
  | none => s

/-- `lift_bans` of the console, for one wallet. -/
def liftBan (holder : String) (s : Ledger) : Ledger :=
  { s with banned := s.banned.removeIf fun h _ => h == holder }

def releaseIdentityBan (u : Nat) (s : Ledger) : Ledger :=
  match s.bindingOf u with
  | some holder => liftBan holder s
  | none => s

/-- What an operation reads outside the ledger. -/
structure Env where
  now : Nat
  /-- `IDENTITY_UNIQUENESS_ENFORCED` -/
  identityUniquenessEnforced : Bool
  /-- `IDENTITY_BINDING_SECRET` -/
  identityBindingSecret : String

/-- What the verification of a wallet returns. -/
structure Presentation where
  holderSub : Option String
  /-- `raw["holder_proof"]` -/
  holderProof : Option String

def holderHash (env : Env) (holderSub : String) : String :=
  String.ofList (hmacSha256 env.identityBindingSecret.toList holderSub.toList)

/-- The errors of a binding. -/
inductive Error where
  | identityBanned
  | identityAlreadyBound
  /-- A write that breaks a unique column. -/
  | integrityError
  | errForbidden
  /-- A write that fails. -/
  | failed
  deriving DecidableEq

/-- The presentation is one that binds: enforcement is on and the wallet proved its holder key. -/
def enforced (env : Env) (p : Presentation) : Bool :=
  env.identityUniquenessEnforced && p.holderSub.any (· != "") && p.holderProof == some "verified"

/-- The wallet of a presentation. -/
def Presentation.holder (env : Env) (p : Presentation) : String :=
  holderHash env (p.holderSub.getD "")

/-- One operation on the ledger. -/
inductive WalletOp where
  | bind (u : Nat) (p : Presentation) (fails : Bool)
  | release (u : Nat)
  | ban (u : Nat)
  | releaseBan (u : Nat)
  | lift (holder : String)
  | erase (u : Nat)

/-! ### Binders -/

/-- What a bind of a wallet to an account that succeeds does. Only an implementation that `skips`
lets an account with a row of another wallet pass without one. -/
inductive BindStep (skips : Bool) (s : Ledger) (u : Nat) (holder : String) (s' : Ledger) : Prop where
  | reproof (b : Binding) (hrow : s.bindings.get? holder = some b) (huser : b.user = some u)
      (h : s' = s)
  | attached (createdAt : Nat)
      (hold : ∀ b, s.bindings.get? holder = some b →
        b.user ≠ some u ∧ (b.user = none ∨ b.releasedAt.isSome = true))
      (h : s.attach holder u createdAt = some s')
  | second (hskips : skips = true) (hrow : s.bindings.get? holder = none)
      (hholds : s.bindingOf u ≠ none) (h : s' = s)

/-- The account proves again the wallet that its own row names, and the row is released. -/
def Ledger.OwnReleased (s : Ledger) (u : Nat) (holder : String) : Prop :=
  ∃ b, s.bindings.get? holder = some b ∧ b.user = some u ∧ b.releasedAt.isSome = true

/-- The wallet has no row, and the account has one of another wallet. -/
def Ledger.SecondWallet (s : Ledger) (u : Nat) (holder : String) : Prop :=
  s.bindings.get? holder = none ∧ s.bindingOf u ≠ none

/-- An implementation of the binding. -/
structure Binder where
  bind : Env → Nat → Presentation → Bool → Ledger → Except Error Ledger
  /-- The configuration admits bindings. -/
  configured : Env → Bool
  /-- An account with a row may prove a wallet without one. -/
  skips : Bool
  /-- A presentation that does not bind changes nothing. -/
  idle : ∀ {env u p fails s s'}, enforced env p = false → bind env u p fails s = .ok s' → s' = s
  /-- What a bind that succeeds does. -/
  spec : ∀ {env u p fails s s'}, enforced env p = true → bind env u p fails s = .ok s' →
    configured env = true ∧ s.isBanned (p.holder env) = false ∧
      BindStep skips s u (p.holder env) s'
  /-- The binds that succeed without a write. -/
  unwritten : ∀ {env u p fails s}, enforced env p = true → configured env = true →
    s.isBanned (p.holder env) = false →
    (s.OwnReleased u (p.holder env) ∨ skips = true ∧ s.SecondWallet u (p.holder env)) →
    bind env u p fails s = .ok s

/-- The ledger after one operation: an error is rolled back. -/
def Binder.step (B : Binder) (s : Ledger) (q : Env × WalletOp) : Ledger :=
  match q.2 with
  | .bind u p fails =>
    match B.bind q.1 u p fails s with
    | .ok s' => s'
    | .error _ => s
  | .release u => releaseBinding q.1.now u s
  | .ban u => banIdentity q.1.now u s
  | .releaseBan u => releaseIdentityBan u s
  | .lift holder => liftBan holder s
  | .erase u => eraseUser u s

end SocialActivities.Accounts
