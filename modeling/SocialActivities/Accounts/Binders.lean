import SocialActivities.Accounts.Wallet

/-!
# `SocialActivities.Accounts.Binders`: the two implementations of the wallet binding

`bind_identity` of the Python services and `bindIdentity` of the Go server. Both refuse a banned
wallet and one that is live under another account, and both let an account that proves its own
wallet again pass without a look at `released_at`. They differ for a wallet without a row and an
account that has one: Go refuses, Python returns no binding and the caller goes on to apply the
assurance.
-/

namespace SocialActivities.Accounts

open Lib

/-- A unique column of the row is checked when it is written. -/
def unique (written : Option Ledger) : Except Error Ledger :=
  match written with
  | some s => .ok s
  | none => .error .integrityError

theorem unique_eq_ok {written : Option Ledger} {s : Ledger} :
    unique written = .ok s ↔ written = some s := by
  cases written with
  | none => exact ⟨fun h => (by cases h), fun h => (by cases h)⟩
  | some => exact ⟨fun h => congrArg some (Except.ok.inj h), fun h => congrArg _ (Option.some.inj h)⟩

namespace Py

def identityUniquenessActive (env : Env) (result : Presentation) : Bool :=
  env.identityUniquenessEnforced && result.holderSub.any (· != "") &&
    result.holderProof == some "verified"

/-- `bind_identity`, with the wallet of the row that it returns. -/
def bindIdentity (env : Env) (u : Nat) (result : Presentation) (fails : Bool) (s : Ledger) :
    Except Error (Ledger × Option String) :=
  if !identityUniquenessActive env result then .ok (s, none) else do
    let holder := holderHash env (result.holderSub.getD "")
    need Error.identityBanned (!s.isBanned holder)
    match s.bindings.get? holder with
    | some existing =>
      -- `released_at` of the own row is not looked at.
      if existing.user == some u then pure (s, some holder) else do
        need Error.identityAlreadyBound (!(existing.user.isSome && existing.releasedAt.isNone))
        -- Released, or left by an erased account.
        let s' ← unique (s.attach holder u existing.createdAt)
        need Error.failed (!fails)
        pure (s', some holder)
    | none =>
      -- The callers apply the assurance also when no binding is returned.
      if (s.bindingOf u).isSome then pure (s, none) else do
        let s' ← unique (s.attach holder u env.now)
        need Error.failed (!fails)
        pure (s', some holder)

def bind (env : Env) (u : Nat) (p : Presentation) (fails : Bool) (s : Ledger) :
    Except Error Ledger :=
  (bindIdentity env u p fails s).map Prod.fst

end Py

namespace Go

def bindIdentity (env : Env) (u : Nat) (subject : String) (proof fails : Bool) (s : Ledger) :
    Except Error Ledger :=
  if !env.identityUniquenessEnforced || !proof || subject == "" then .ok s else do
    need Error.errForbidden (decide (32 ≤ env.identityBindingSecret.utf8ByteSize))
    let holder := holderHash env subject
    need Error.identityBanned (!s.isBanned holder)
    match s.bindings.get? holder with
    | some row =>
      if row.user == some u then pure s else do
        need Error.identityAlreadyBound (!(row.user.isSome && row.releasedAt.isNone))
        let s' ← unique (s.attach holder u row.createdAt)
        need Error.failed (!fails)
        pure s'
    | none => do
      -- A second wallet is refused, where Python returns no binding.
      need Error.identityAlreadyBound (s.bindingOf u).isNone
      let s' ← unique (s.attach holder u env.now)
      need Error.failed (!fails)
      pure s'

/-- The call in `AgeVerify`. -/
def bind (env : Env) (u : Nat) (p : Presentation) (fails : Bool) (s : Ledger) :
    Except Error Ledger :=
  bindIdentity env u (p.holderSub.getD "") (p.holderProof == some "verified") fails s

end Go

/-! ### Both are binders -/

section
variable {env : Env} {u : Nat} {p : Presentation} {fails : Bool} {s s' : Ledger}

theorem attach_eq_ok {ρ : Type} {holder : String} {createdAt : Nat} {result : Ledger → ρ} {r : ρ}
    (h : (do
      let s' ← unique (s.attach holder u createdAt)
      need Error.failed (!fails)
      pure (result s')) = .ok r) :
    ∃ t, s.attach holder u createdAt = some t ∧ result t = r := by
  rw [bind_eq_ok] at h
  obtain ⟨t, hattach, h⟩ := h
  rw [seq_eq_ok, pure_eq_ok] at h
  exact ⟨t, unique_eq_ok.mp hattach, h.2⟩

theorem free_of_not_bound {row : Binding}
    (h : (!(row.user.isSome && row.releasedAt.isNone)) = true) :
    row.user = none ∨ row.releasedAt.isSome = true := by
  cases huser : row.user with
  | none => exact Or.inl rfl
  | some => exact Or.inr (by simpa [huser] using h)

namespace Py

theorem bind_iff : bind env u p fails s = .ok s' ↔
    ∃ row, bindIdentity env u p fails s = .ok (s', row) := by
  unfold bind
  cases bindIdentity env u p fails s with
  | error => exact ⟨fun h => (by cases h), fun ⟨_, h⟩ => (by cases h)⟩
  | ok r =>
    obtain ⟨t, row⟩ := r
    constructor
    · intro h
      exact ⟨row, by rw [← Except.ok.inj h]⟩
    · rintro ⟨row', h⟩
      rw [(Prod.mk.inj (Except.ok.inj h)).1]
      rfl

theorem bind_idle (henforced : enforced env p = false) (h : bind env u p fails s = .ok s') :
    s' = s := by
  obtain ⟨row, h⟩ := bind_iff.mp h
  have hinactive : identityUniquenessActive env p = false := henforced
  unfold bindIdentity at h
  rw [hinactive] at h
  exact (Prod.mk.inj (Except.ok.inj h)).1.symm

/-- `bind_identity`, when the uniqueness is active. -/
theorem bindIdentity_active (henforced : enforced env p = true) :
    bindIdentity env u p fails s = (do
      need Error.identityBanned (!s.isBanned (p.holder env))
      match s.bindings.get? (p.holder env) with
      | some existing =>
        if existing.user == some u then pure (s, some (p.holder env)) else do
          need Error.identityAlreadyBound (!(existing.user.isSome && existing.releasedAt.isNone))
          let s' ← unique (s.attach (p.holder env) u existing.createdAt)
          need Error.failed (!fails)
          pure (s', some (p.holder env))
      | none =>
        if (s.bindingOf u).isSome then pure (s, none) else do
          let s' ← unique (s.attach (p.holder env) u env.now)
          need Error.failed (!fails)
          pure (s', some (p.holder env))) := by
  have hactive : identityUniquenessActive env p = true := henforced
  unfold bindIdentity
  rw [hactive]
  rfl

theorem bind_spec (henforced : enforced env p = true) (h : bind env u p fails s = .ok s') :
    s.isBanned (p.holder env) = false ∧ BindStep true s u (p.holder env) s' := by
  obtain ⟨row, h⟩ := bind_iff.mp h
  rw [bindIdentity_active henforced, seq_eq_ok, need_eq_ok, Bool.not_eq_true'] at h
  obtain ⟨hbanned, h⟩ := h
  refine ⟨hbanned, ?_⟩
  cases hrow : s.bindings.get? (p.holder env) with
  -- The wallet is on record: for this account, for another, or for none any more.
  | some existing =>
    rw [hrow] at h
    dsimp only at h
    by_cases huser : existing.user = some u
    · rw [if_pos (by rw [huser]; exact beq_self_eq_true _), pure_eq_ok] at h
      exact .reproof existing hrow huser (Prod.mk.inj h).1.symm
    · rw [if_neg (by simpa using huser), seq_eq_ok, need_eq_ok] at h
      obtain ⟨t, hattach, hresult⟩ := attach_eq_ok h.2
      rw [(Prod.mk.inj hresult).1] at hattach
      refine .attached existing.createdAt (fun b hb => ?_) hattach
      rw [hrow] at hb
      rw [← Option.some.inj hb]
      exact ⟨huser, free_of_not_bound h.1⟩
  | none =>
    rw [hrow] at h
    dsimp only at h
    -- A new wallet of an account that holds one already is left unrecorded.
    by_cases hholds : (s.bindingOf u).isSome = true
    · rw [if_pos hholds, pure_eq_ok] at h
      refine .second rfl hrow (fun hnone => ?_) (Prod.mk.inj h).1.symm
      rw [hnone] at hholds
      cases hholds
    · rw [if_neg hholds] at h
      obtain ⟨t, hattach, hresult⟩ := attach_eq_ok h
      rw [(Prod.mk.inj hresult).1] at hattach
      refine .attached env.now (fun b hb => ?_) hattach
      rw [hrow] at hb
      cases hb

theorem bind_unwritten (henforced : enforced env p = true)
    (hbanned : s.isBanned (p.holder env) = false)
    (hpasses : s.OwnReleased u (p.holder env) ∨ true = true ∧ s.SecondWallet u (p.holder env)) :
    bind env u p fails s = .ok s := by
  have hneed : need Error.identityBanned (!s.isBanned (p.holder env)) = .ok () := by
    rw [hbanned]
    rfl
  rcases hpasses with ⟨b, hrow, huser, -⟩ | ⟨-, hrow, hholds⟩
  · refine bind_iff.mpr ⟨some (p.holder env), ?_⟩
    rw [bindIdentity_active henforced, seq_eq_ok, hrow]
    refine ⟨hneed, ?_⟩
    show (if b.user == some u then _ else _) = _
    rw [if_pos (by rw [huser]; exact beq_self_eq_true _)]
    rfl
  · refine bind_iff.mpr ⟨none, ?_⟩
    rw [bindIdentity_active henforced, seq_eq_ok, hrow]
    refine ⟨hneed, ?_⟩
    show (if (s.bindingOf u).isSome then _ else _) = _
    rw [if_pos (Option.isSome_iff_ne_none.mpr hholds)]
    rfl

/-- The binder of the Python services. -/
def binder : Binder where
  bind := bind
  configured := fun _ => true
  skips := true
  idle := bind_idle
  spec := fun henforced h => ⟨rfl, bind_spec henforced h⟩
  unwritten := fun henforced _ hbanned hpasses => bind_unwritten henforced hbanned hpasses

end Py

namespace Go

/-- The secret is long enough. -/
def configured (env : Env) : Bool := decide (32 ≤ env.identityBindingSecret.utf8ByteSize)

theorem not_skipped (henforced : enforced env p = true) :
    (!env.identityUniquenessEnforced || !(p.holderProof == some "verified") ||
      p.holderSub.getD "" == "") = false := by
  unfold enforced at henforced
  rw [Bool.and_eq_true, Bool.and_eq_true] at henforced
  obtain ⟨⟨hon, hsub⟩, hproof⟩ := henforced
  rw [Option.any_eq_true] at hsub
  obtain ⟨sub, hsome, hne⟩ := hsub
  rw [hon, hproof, hsome, Option.getD_some]
  simpa using hne

theorem bind_idle (henforced : enforced env p = false) (h : bind env u p fails s = .ok s') :
    s' = s := by
  have hskipped : (!env.identityUniquenessEnforced || !(p.holderProof == some "verified") ||
      p.holderSub.getD "" == "") = true := by
    unfold enforced at henforced
    cases hon : env.identityUniquenessEnforced with
    | false => rfl
    | true =>
      cases hproof : p.holderProof == some "verified" with
      | false => rfl
      | true =>
        cases hsub : p.holderSub with
        | none => rfl
        | some => simpa [hon, hproof, hsub] using henforced
  unfold bind bindIdentity at h
  rw [hskipped] at h
  exact (Except.ok.inj h).symm

/-- `bindIdentity`, for a presentation that binds. -/
theorem bind_active (henforced : enforced env p = true) :
    bind env u p fails s = (do
      need Error.errForbidden (configured env)
      need Error.identityBanned (!s.isBanned (p.holder env))
      match s.bindings.get? (p.holder env) with
      | some row =>
        if row.user == some u then pure s else do
          need Error.identityAlreadyBound (!(row.user.isSome && row.releasedAt.isNone))
          let s' ← unique (s.attach (p.holder env) u row.createdAt)
          need Error.failed (!fails)
          pure s'
      | none => do
        need Error.identityAlreadyBound (s.bindingOf u).isNone
        let s' ← unique (s.attach (p.holder env) u env.now)
        need Error.failed (!fails)
        pure s') := by
  unfold bind bindIdentity
  rw [not_skipped henforced]
  rfl

theorem bind_spec (henforced : enforced env p = true) (h : bind env u p fails s = .ok s') :
    configured env = true ∧ s.isBanned (p.holder env) = false ∧
      BindStep false s u (p.holder env) s' := by
  rw [bind_active henforced, seq_eq_ok, seq_eq_ok, need_eq_ok, need_eq_ok, Bool.not_eq_true'] at h
  obtain ⟨hconfigured, hbanned, h⟩ := h
  refine ⟨hconfigured, hbanned, ?_⟩
  cases hrow : s.bindings.get? (p.holder env) with
  -- The wallet is on record: for this account, for another, or for none any more.
  | some row =>
    rw [hrow] at h
    dsimp only at h
    by_cases huser : row.user = some u
    · rw [if_pos (by rw [huser]; exact beq_self_eq_true _), pure_eq_ok] at h
      exact .reproof row hrow huser h.symm
    · rw [if_neg (by simpa using huser), seq_eq_ok, need_eq_ok] at h
      obtain ⟨t, hattach, rfl⟩ := attach_eq_ok h.2
      refine .attached row.createdAt (fun b hb => ?_) hattach
      rw [hrow] at hb
      rw [← Option.some.inj hb]
      exact ⟨huser, free_of_not_bound h.1⟩
  | none =>
    rw [hrow] at h
    dsimp only at h
    rw [seq_eq_ok] at h
    obtain ⟨t, hattach, rfl⟩ := attach_eq_ok h.2
    refine .attached env.now (fun b hb => ?_) hattach
    rw [hrow] at hb
    cases hb

theorem bind_unwritten (henforced : enforced env p = true) (hconfigured : configured env = true)
    (hbanned : s.isBanned (p.holder env) = false)
    (hpasses : s.OwnReleased u (p.holder env) ∨ false = true ∧ s.SecondWallet u (p.holder env)) :
    bind env u p fails s = .ok s := by
  rcases hpasses with ⟨b, hrow, huser, -⟩ | ⟨hskips, -⟩
  · rw [bind_active henforced, seq_eq_ok, seq_eq_ok, hrow]
    refine ⟨need_eq_ok.mpr hconfigured, need_eq_ok.mpr (by rw [hbanned]; rfl), ?_⟩
    show (if b.user == some u then _ else _) = _
    rw [if_pos (by rw [huser]; exact beq_self_eq_true _)]
    rfl
  · cases hskips

/-- The binder of the Go server. -/
def binder : Binder where
  bind := bind
  configured := configured
  skips := false
  idle := bind_idle
  spec := bind_spec
  unwritten := bind_unwritten

end Go

end

end SocialActivities.Accounts
