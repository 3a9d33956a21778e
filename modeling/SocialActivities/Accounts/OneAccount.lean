import SocialActivities.Accounts.Binders

/-!
# `SocialActivities.Accounts.OneAccount`: one wallet, one account

`WalletStep` says all that one operation can do to the row of a wallet, for any binder. The row
that a bind leaves live stays with its account until the account releases it or is erased
(`live_run`), and the row of a banned wallet gets no other account until the ban is lifted
(`banned_run`).

What can go wrong is the bind that succeeds without a write. An account that proves a wallet which
it has released, and in Python an account that proves a second wallet without a row, is assured and
leaves the wallet free for another account. `OneWallet` holds of a run exactly when no step of it
is such a bind.
-/

namespace SocialActivities.Accounts

open Lib
open Lib.Machine (run steps)

namespace Binder

variable (B : Binder)

/-- The step binds the wallet to the account, and succeeds: the account is assured by it. -/
def Assures (s : Ledger) (q : Env × WalletOp) (u : Nat) (holder : String) : Prop :=
  ∃ p fails s', q.2 = .bind u p fails ∧ enforced q.1 p = true ∧ p.holder q.1 = holder ∧
    B.bind q.1 u p fails s = .ok s'

/-- The step presents a wallet that the account has released; or, where the binder skips it, a
wallet without a row while the account has another one. No ban or setting is in the way. -/
def Slips (s : Ledger) (q : Env × WalletOp) : Prop :=
  ∃ u p fails, q.2 = .bind u p fails ∧ enforced q.1 p = true ∧ B.configured q.1 = true ∧
    s.isBanned (p.holder q.1) = false ∧
    (s.OwnReleased u (p.holder q.1) ∨ B.skips = true ∧ s.SecondWallet u (p.holder q.1))

/-- The step takes the wallet off the ban ledger. -/
def Lifts (s : Ledger) (q : Env × WalletOp) (holder : String) : Prop :=
  q.2 = .lift holder ∨ ∃ u, q.2 = .releaseBan u ∧ s.bindingOf u = some holder

/-- One wallet, one account, in a run. -/
structure OneWallet (as : List (Env × WalletOp)) : Prop where
  /-- A bind that succeeds leaves the wallet's row live under the account. -/
  live : ∀ q ∈ steps B.step .empty as, ∀ u holder, B.Assures q.1 q.2 u holder →
    (B.step q.1 q.2).Live u holder
  /-- A wallet that assured an account assures another one only after the first released it,
  while the first is not erased. -/
  single : ∀ before p mid q after u v holder, as = before ++ p :: (mid ++ q :: after) → u ≠ v →
    B.Assures (run B.step .empty before) p u holder →
    (∀ r ∈ mid, r.2 ≠ .erase u) →
    B.Assures (run B.step .empty (before ++ p :: mid)) q v holder →
    ∃ r ∈ steps B.step (run B.step .empty (before ++ [p])) mid,
      r.2.2 = .release u ∧ r.1.Live u holder
  /-- The wallet of a banned account goes to no other account until the ban is lifted. -/
  banned : ∀ before p mid after u holder, as = before ++ p :: (mid ++ after) → p.2 = .ban u →
    (run B.step .empty before).bindingOf u = some holder →
    (∀ r ∈ steps B.step (run B.step .empty (before ++ [p])) mid, ¬Lifts r.1 r.2 holder) →
    ∀ b v, (run B.step .empty (before ++ p :: mid)).bindings.get? holder = some b →
      b.user = some v → v = u
  /-- A bind that is refused changes nothing. -/
  refused : ∀ q ∈ steps B.step .empty as, ∀ u p fails e, q.2.2 = .bind u p fails →
    B.bind q.2.1 u p fails q.1 = .error e → B.step q.1 q.2 = q.1

end Binder

/-! ### One operation and one wallet -/

/-- All that one operation can do to the row of a wallet. -/
inductive WalletStep (B : Binder) (s : Ledger) (q : Env × WalletOp) (holder : String)
    (s' : Ledger) : Prop where
  | kept (h : s'.bindings.get? holder = s.bindings.get? holder)
  | bound (u createdAt : Nat) (hbanned : s.isBanned holder = false)
      (hold : ∀ b, s.bindings.get? holder = some b →
        b.user ≠ some u ∧ (b.user = none ∨ b.releasedAt.isSome = true))
      (h : s'.bindings.get? holder = some ⟨some u, createdAt, none⟩)
  | released (u : Nat) (b : Binding) (hop : q.2 = .release u)
      (hrow : s.bindings.get? holder = some b) (huser : b.user = some u)
      (h : s'.bindings.get? holder = some (b.release q.1.now))
  | erased (u : Nat) (b : Binding) (hop : q.2 = .erase u)
      (hrow : s.bindings.get? holder = some b) (huser : b.user = some u)
      (h : s'.bindings.get? holder = some { b with user := none })

section
variable {s s' : Ledger} {u createdAt : Nat} {holder : String}

theorem get?_attach (h : s.attach holder u createdAt = some s') (wallet : String) :
    s'.bindings.get? wallet =
      if wallet = holder then some ⟨some u, createdAt, none⟩ else s.bindings.get? wallet := by
  unfold Ledger.attach at h
  split at h
  · rw [← Option.some.inj h]
    exact KeyMap.get?_set ..
  · cases h

theorem banned_attach (h : s.attach holder u createdAt = some s') : s'.banned = s.banned := by
  unfold Ledger.attach at h
  split at h
  · rw [← Option.some.inj h]
    rfl
  · cases h

theorem BindStep.banned {skips : Bool} (h : BindStep skips s u holder s') :
    s'.banned = s.banned := by
  cases h with
  | reproof _ _ _ h => rw [h]
  | attached _ _ h => exact banned_attach h
  | second _ _ _ h => rw [h]

end

variable {holder : String} {s : Ledger}

/-- An update of the row that the account names, as a step on the row of a wallet. -/
theorem row_update {u : Nat} {named : String} {f : Binding → Binding}
    {hf : ∀ b w, (f b).user = some w → b.user = some w} (hnamed : s.bindingOf u = some named) :
    (s.update named f hf).bindings.get? holder = s.bindings.get? holder ∨
      ∃ b, s.bindings.get? holder = some b ∧ b.user = some u ∧
        (s.update named f hf).bindings.get? holder = some (f b) := by
  rw [Ledger.get?_update]
  by_cases hwallet : holder = named
  · subst hwallet
    obtain ⟨b, hb, hu⟩ := (s.bindingOf_eq_some).mp hnamed
    rw [if_pos rfl, hb]
    exact Or.inr ⟨b, rfl, hu, rfl⟩
  · rw [if_neg hwallet]
    exact Or.inl rfl

theorem bindings_banIdentity (now u : Nat) (s : Ledger) :
    (banIdentity now u s).bindings = s.bindings := by
  unfold banIdentity
  split
  · split
    · rfl
    · rfl
  · rfl

theorem wallet_step (B : Binder) (s : Ledger) (q : Env × WalletOp) (holder : String) :
    WalletStep B s q holder (B.step s q) := by
  obtain ⟨env, op⟩ := q
  unfold Binder.step
  cases op with
  | bind u p fails =>
    dsimp only
    cases hbind : B.bind env u p fails s with
    | error => exact .kept rfl
    | ok =>
      dsimp only
      cases henforced : enforced env p with
      -- A proof that is not enforced leaves the ledger alone.
      | false => exact .kept (by rw [B.idle henforced hbind])
      | true =>
        obtain ⟨-, hbanned, hstep⟩ := B.spec henforced hbind
        cases hstep with
        | reproof _ _ _ h => exact .kept (by rw [h])
        | second _ _ _ h => exact .kept (by rw [h])
        | attached createdAt hold h =>
          -- Only the row of the proven wallet is written.
          by_cases hwallet : holder = p.holder env
          · subst hwallet
            exact .bound u createdAt hbanned hold (by rw [get?_attach h, if_pos rfl])
          · exact .kept (by rw [get?_attach h, if_neg hwallet])
  | release u =>
    dsimp only
    unfold releaseBinding
    cases hnamed : s.bindingOf u with
    | none => exact .kept rfl
    | some =>
      rcases row_update hnamed with hrow | ⟨b, hb, hu, hrow⟩
      · exact .kept hrow
      · exact .released u b rfl hb hu hrow
  | erase u =>
    dsimp only
    unfold eraseUser
    cases hnamed : s.bindingOf u with
    | none => exact .kept rfl
    | some =>
      rcases row_update hnamed with hrow | ⟨b, hb, hu, hrow⟩
      · exact .kept hrow
      · exact .erased u b rfl hb hu hrow
  | ban => exact .kept (by rw [bindings_banIdentity])
  | releaseBan =>
    refine .kept ?_
    dsimp only
    unfold releaseIdentityBan
    split <;> rfl
  | lift => exact .kept rfl

theorem banned_step (B : Binder) {q : Env × WalletOp}
    (hbanned : s.isBanned holder = true) (hnot : ¬Binder.Lifts s q holder) :
    (B.step s q).isBanned holder = true := by
  obtain ⟨env, op⟩ := q
  have hsame : ∀ s' : Ledger, s'.banned = s.banned → s'.isBanned holder = true := by
    intro s' h
    unfold Ledger.isBanned at hbanned ⊢
    rw [h]
    exact hbanned
  -- Another wallet goes off the ledger.
  have hlift : ∀ wallet, wallet ≠ holder → (liftBan wallet s).isBanned holder = true := by
    intro wallet hne
    unfold Ledger.isBanned at hbanned ⊢
    obtain ⟨t, ht⟩ := Option.isSome_iff_exists.mp hbanned
    show ((s.banned.removeIf _).get? holder).isSome = true
    rw [KeyMap.get?_removeIf, ht]
    simp [hne.symm]
  unfold Binder.step
  cases op with
  | bind u p fails =>
    dsimp only
    cases hbind : B.bind env u p fails s with
    | error => exact hbanned
    | ok s' =>
      -- A bind does not write the ban ledger.
      dsimp only
      cases henforced : enforced env p with
      | false => exact hsame s' (by rw [B.idle henforced hbind])
      | true => exact hsame s' (B.spec henforced hbind).2.2.banned
  | release =>
    dsimp only
    unfold releaseBinding
    split
    · exact hsame _ (s.banned_update ..)
    · exact hbanned
  | erase =>
    dsimp only
    unfold eraseUser
    split
    · exact hsame _ (s.banned_update ..)
    · exact hbanned
  | ban =>
    dsimp only
    unfold banIdentity
    split
    · split
      · exact hbanned
      · rename_i wallet _ _
        unfold Ledger.isBanned at hbanned ⊢
        dsimp only
        rw [KeyMap.get?_set]
        split
        · rfl
        · exact hbanned
    · exact hbanned
  | releaseBan u =>
    dsimp only
    unfold releaseIdentityBan
    split
    · rename_i wallet hnamed
      refine hlift wallet fun heq => hnot (Or.inr ⟨u, rfl, ?_⟩)
      rw [← heq]
      exact hnamed
    · exact hbanned
  | lift wallet =>
    refine hlift wallet fun heq => hnot (Or.inl ?_)
    rw [heq]

theorem isBanned_banIdentity {now u : Nat} {holder : String}
    (h : s.bindingOf u = some holder) : (banIdentity now u s).isBanned holder = true := by
  unfold banIdentity
  rw [h]
  dsimp only
  split
  · rename_i hbanned
    exact hbanned
  · unfold Ledger.isBanned
    dsimp only
    rw [KeyMap.get?_set, if_pos rfl]
    rfl

/-! ### Runs -/

section
variable {B : Binder} {s : Ledger} {u v : Nat} {holder : String}

variable {q : Env × WalletOp}

theorem Binder.Assures.spec (h : B.Assures s q u holder) :
    B.configured q.1 = true ∧ s.isBanned holder = false ∧
      BindStep B.skips s u holder (B.step s q) := by
  obtain ⟨env, op⟩ := q
  obtain ⟨p, fails, s', rfl, henforced, rfl, hbind⟩ := h
  have hstep : B.step s (env, .bind u p fails) = s' := by
    unfold Binder.step
    dsimp only at hbind ⊢
    rw [hbind]
  rw [hstep]
  exact B.spec henforced hbind

theorem live_iff_not_slips (q : Env × WalletOp) :
    (∀ u holder, B.Assures s q u holder → (B.step s q).Live u holder) ↔ ¬B.Slips s q := by
  obtain ⟨env, op⟩ := q
  constructor
  · rintro hlive ⟨u, p, fails, hop, henforced, hconfigured, hbanned, hpasses⟩
    dsimp only at hop henforced hconfigured hbanned hpasses
    subst hop
    have hbind : B.bind env u p fails s = .ok s :=
      B.unwritten henforced hconfigured hbanned hpasses
    have hrow := hlive u (p.holder env) ⟨p, fails, s, rfl, henforced, rfl, hbind⟩
    have hstep : B.step s (env, .bind u p fails) = s := by
      unfold Binder.step
      dsimp only
      rw [hbind]
    rw [hstep] at hrow
    obtain ⟨b, hb, hu, hnot⟩ := hrow
    rcases hpasses with ⟨c, hc, -, hreleased⟩ | ⟨-, hnone, -⟩
    · rw [hb] at hc
      rw [← Option.some.inj hc, hnot] at hreleased
      cases hreleased
    · rw [hnone] at hb
      cases hb
  · intro hnot u holder hassures
    obtain ⟨hconfigured, hbanned, hstep⟩ := hassures.spec
    obtain ⟨p, fails, s', hop, henforced, rfl, -⟩ := hassures
    have hslips : ∀ hpasses, False := fun hpasses =>
      hnot ⟨u, p, fails, hop, henforced, hconfigured, hbanned, hpasses⟩
    cases hstep with
    | reproof b hrow huser h =>
      -- The row names the account already, and is live unless the step slips.
      rw [h]
      refine ⟨b, hrow, huser, ?_⟩
      cases hreleased : b.releasedAt with
      | none => rfl
      | some => exact (hslips (Or.inl ⟨b, hrow, huser, by rw [hreleased]; rfl⟩)).elim
    | attached createdAt _ h => exact ⟨_, by rw [get?_attach h, if_pos rfl], rfl, rfl⟩
    | second hskips hrow hholds => exact (hslips (Or.inr ⟨hskips, hrow, hholds⟩)).elim

theorem live_step (q : Env × WalletOp) (hlive : s.Live u holder) (herase : q.2 ≠ .erase u) :
    (B.step s q).Live u holder ∨ q.2 = .release u := by
  obtain ⟨b, hb, hu, hnot⟩ := hlive
  cases wallet_step B s q holder with
  | kept h => exact Or.inl ⟨b, h.trans hb, hu, hnot⟩
  | bound v _ _ hold =>
    -- The row is neither free nor released.
    rcases (hold b hb).2 with hnone | hreleased
    · rw [hu] at hnone
      cases hnone
    · rw [hnot] at hreleased
      cases hreleased
  | released w c hop hc hw =>
    rw [hb] at hc
    rw [← Option.some.inj hc, hu] at hw
    exact Or.inr (by rw [hop, Option.some.inj hw])
  | erased w c hop hc hw =>
    rw [hb] at hc
    rw [← Option.some.inj hc, hu] at hw
    exact absurd (by rw [hop, Option.some.inj hw]) herase

theorem live_run {mid : List (Env × WalletOp)} (hlive : s.Live u holder)
    (herase : ∀ r ∈ mid, r.2 ≠ .erase u) :
    (run B.step s mid).Live u holder ∨
      ∃ r ∈ steps B.step s mid, r.2.2 = .release u ∧ r.1.Live u holder := by
  induction mid generalizing s with
  | nil => exact Or.inl hlive
  | cons q mid ih =>
    rcases live_step (B := B) q hlive (herase q List.mem_cons_self) with hnext | hrelease
    · rcases ih hnext fun r hr => herase r (List.mem_cons_of_mem _ hr) with hend | ⟨r, hr, h⟩
      · exact Or.inl hend
      · exact Or.inr ⟨r, List.mem_cons_of_mem _ hr, h⟩
    · exact Or.inr ⟨(s, q), List.mem_cons_self, hrelease, hlive⟩

theorem not_assures_of_live (hlive : s.Live u holder) (hne : u ≠ v) :
    ¬B.Assures s q v holder := by
  intro hassures
  obtain ⟨b, hb, hu, hnot⟩ := hlive
  obtain ⟨-, -, hstep⟩ := hassures.spec
  cases hstep with
  | reproof c hc hv =>
    rw [hb] at hc
    rw [← Option.some.inj hc, hu] at hv
    exact hne (Option.some.inj hv)
  | attached _ hold =>
    rcases (hold b hb).2 with hnone | hreleased
    · rw [hu] at hnone
      cases hnone
    · rw [hnot] at hreleased
      cases hreleased
  | second _ hrow =>
    rw [hrow] at hb
    cases hb

/-- The wallet is on the ban ledger, and its row names the account or nobody. -/
def Ledger.Barred (s : Ledger) (u : Nat) (holder : String) : Prop :=
  s.isBanned holder = true ∧
    ∀ b v, s.bindings.get? holder = some b → b.user = some v → v = u

theorem barred_step (h : s.Barred u holder)
    (hnot : ¬Binder.Lifts s q holder) : (B.step s q).Barred u holder := by
  obtain ⟨hbanned, hrow⟩ := h
  refine ⟨banned_step B hbanned hnot, fun b v hb hv => ?_⟩
  cases wallet_step B s q holder with
  | kept h => exact hrow b v (h.symm.trans hb) hv
  | bound _ _ hfree =>
    rw [hbanned] at hfree
    cases hfree
  | released w c _ hc _ h =>
    rw [h] at hb
    rw [← Option.some.inj hb, Binding.user_release] at hv
    exact hrow c v hc hv
  | erased w c _ _ _ h =>
    rw [h] at hb
    rw [← Option.some.inj hb] at hv
    cases hv

theorem banned_run {mid : List (Env × WalletOp)} (h : s.Barred u holder)
    (hnot : ∀ r ∈ steps B.step s mid, ¬Binder.Lifts r.1 r.2 holder) :
    (run B.step s mid).Barred u holder :=
  Lib.Machine.run_guarded (fun s q => ¬Binder.Lifts s q holder) (fun _ _ => barred_step) h hnot

end

theorem oneWallet_iff (B : Binder) (as : List (Env × WalletOp)) :
    B.OneWallet as ↔ ∀ q ∈ steps B.step .empty as, ¬B.Slips q.1 q.2 := by
  constructor
  · intro h q hq
    exact (live_iff_not_slips q.2).mp (h.live q hq)
  · intro hnot
    -- The first property is the one that steps can break; the others follow from it by runs.
    have hlive : ∀ q ∈ steps B.step .empty as, ∀ u holder, B.Assures q.1 q.2 u holder →
        (B.step q.1 q.2).Live u holder := fun q hq => (live_iff_not_slips q.2).mpr (hnot q hq)
    refine ⟨hlive, ?_, ?_, ?_⟩
    · rintro before p mid q after u v holder rfl hne hp herase hq
      have hmem : (run B.step .empty before, p) ∈
          steps B.step .empty (before ++ p :: (mid ++ q :: after)) :=
        (Lib.Machine.mem_steps B.step).mpr ⟨before, _, rfl, rfl⟩
      have hfirst := hlive _ hmem u holder hp
      rw [← Lib.Machine.run_concat B.step] at hfirst
      rcases live_run hfirst herase with hend | hrelease
      · rw [← Lib.Machine.run_append, List.append_assoc, List.singleton_append] at hend
        exact absurd hq (not_assures_of_live hend hne)
      · exact hrelease
    · rintro before ⟨env, op⟩ mid after u holder - rfl hnamed hlift b v hb hv
      -- The ban puts the wallet that the account names on the ledger, and its row names no other.
      have hbarred : (run B.step .empty (before ++ [(env, .ban u)])).Barred u holder := by
        rw [Lib.Machine.run_concat]
        refine ⟨isBanned_banIdentity hnamed, fun b v hb hv => ?_⟩
        obtain ⟨c, hc, hu⟩ := (Ledger.bindingOf_eq_some _).mp hnamed
        have hsame : (banIdentity env.now u (run B.step .empty before)).bindings.get? holder =
            some b := hb
        rw [bindings_banIdentity, hc] at hsame
        rw [← Option.some.inj hsame, hu] at hv
        exact (Option.some.inj hv).symm
      have hend := banned_run hbarred hlift
      rw [← Lib.Machine.run_append, List.append_assoc, List.singleton_append] at hend
      exact hend.2 b v hb hv
    · rintro ⟨s, env, op⟩ - u p fails e rfl hrefused
      unfold Binder.step
      dsimp only at hrefused ⊢
      rw [hrefused]

/-- In both implementations, for every run: each bind that succeeds leaves its wallet live under
the account, no wallet assures two accounts that exist without a release in between, the wallet of
a banned account goes to nobody else, and a refused bind changes nothing, exactly when no step
presents a wallet that its own account has released (or, in Python, a wallet without a row while
the account has another one). -/
theorem wallet_binding (as : List (Env × WalletOp)) :
    (Py.binder.OneWallet as ↔ ∀ q ∈ steps Py.binder.step .empty as, ¬Py.binder.Slips q.1 q.2) ∧
    (Go.binder.OneWallet as ↔ ∀ q ∈ steps Go.binder.step .empty as, ¬Go.binder.Slips q.1 q.2) :=
  ⟨oneWallet_iff Py.binder as, oneWallet_iff Go.binder as⟩

def sampleEnv : Env where
  now := 5
  identityUniquenessEnforced := true
  identityBindingSecret := "0123456789abcdef0123456789abcdef"

/-- A wallet that proves its holder key. -/
def sampleWallet (holderSub : String) : Presentation := ⟨some holderSub, some "verified"⟩

/-- An account binds a wallet, releases it and proves it again; then another account binds it. -/
def releasedThenProved : List (Env × WalletOp) :=
  [(sampleEnv, .bind 1 (sampleWallet "holder") false), (sampleEnv, .release 1),
    (sampleEnv, .bind 1 (sampleWallet "holder") false),
    (sampleEnv, .bind 2 (sampleWallet "holder") false)]

/-- An account with a wallet proves a second one; then another account binds that one. -/
def secondWalletProved : List (Env × WalletOp) :=
  [(sampleEnv, .bind 1 (sampleWallet "first") false),
    (sampleEnv, .bind 1 (sampleWallet "second") false),
    (sampleEnv, .bind 2 (sampleWallet "second") false)]

/-- Both implementations assure two accounts by one wallet, Python also in the other way. -/
theorem wallet_assures_two :
    ¬Py.binder.OneWallet releasedThenProved ∧ ¬Go.binder.OneWallet releasedThenProved ∧
      ¬Py.binder.OneWallet secondWalletProved := by
  refine ⟨fun h => ?_, fun h => ?_, fun h => ?_⟩
  · have hmem : (run Py.binder.step .empty (releasedThenProved.take 2),
        (sampleEnv, .bind 1 (sampleWallet "holder") false)) ∈
          steps Py.binder.step .empty releasedThenProved :=
      (Lib.Machine.mem_steps _).mpr ⟨_, _, rfl, rfl⟩
    refine (oneWallet_iff _ _).mp h _ hmem
      ⟨1, _, false, rfl, rfl, rfl, by decide +kernel, Or.inl ⟨⟨some 1, 5, some 5⟩, ?_, rfl, rfl⟩⟩
    decide +kernel
  · have hmem : (run Go.binder.step .empty (releasedThenProved.take 2),
        (sampleEnv, .bind 1 (sampleWallet "holder") false)) ∈
          steps Go.binder.step .empty releasedThenProved :=
      (Lib.Machine.mem_steps _).mpr ⟨_, _, rfl, rfl⟩
    refine (oneWallet_iff _ _).mp h _ hmem
      ⟨1, _, false, rfl, rfl, by decide +kernel, by decide +kernel,
        Or.inl ⟨⟨some 1, 5, some 5⟩, ?_, rfl, rfl⟩⟩
    decide +kernel
  · -- An account that holds a wallet proves another one, which is not recorded.
    have hmem : (run Py.binder.step .empty (secondWalletProved.take 1),
        (sampleEnv, .bind 1 (sampleWallet "second") false)) ∈
          steps Py.binder.step .empty secondWalletProved :=
      (Lib.Machine.mem_steps _).mpr ⟨_, _, rfl, rfl⟩
    refine (oneWallet_iff _ _).mp h _ hmem
      ⟨1, _, false, rfl, rfl, rfl, by decide +kernel, Or.inr ⟨rfl, ?_, ?_⟩⟩
    · decide +kernel
    · decide +kernel

end SocialActivities.Accounts
