import SocialActivities.Social.GoAdmission

/-!
# `SocialActivities.Social.GoConnections`: requests and connections between two users (Go)

A row of `connections_connection` is directed, from the requester to the addressee, and stays when
it is declined, withdrawn or removed: a later request revives it. Every operation holds the lock of
its unordered pair, so it is one step.

A row is *active* when it is pending or accepted. `step_row` says all that a step can do to one
row. Two facts follow for every run: of the two rows of a pair at most one is active
(`active_exclusive`), and an accepted row has a history (`accepted_since`): a request of the one
side, pending until the other side accepted or requested too, and accepted from then on.
-/

namespace SocialActivities.Social.Go

open Lib
open Lib.Machine (run steps)

/-- `Connection.Status`. -/
inductive ConnectionStatus where
  | pending
  | accepted
  | declined
  | withdrawn
  | removed
  deriving DecidableEq

/-- A row of `connections_connection`, under its requester and addressee. -/
structure Connection where
  status : ConnectionStatus
  createdAt : Nat
  decidedAt : Option Nat
  deriving DecidableEq

/-- The tables `connections_connection` and `safety_block`. -/
structure ConnectionState where
  connections : KeyMap (Nat × Nat) Connection
  blocks : KeyMap (Nat × Nat) Unit

/-- What an operation reads outside these tables. -/
structure ConnectionEnv extends Env where
  /-- The account with a public id. -/
  publicIds : String → Option Nat
  /-- `sharedActivity`: two users are members of one activity, and no guardians in it. -/
  sharedActivity : Nat → Nat → Bool
  /-- `ConnectionCohorts`. -/
  connectionCohorts : Cohort → Bool

namespace ConnectionState

variable (s : ConnectionState)

/-- The status of the row from a requester to an addressee. -/
def status (req ad : Nat) : Option ConnectionStatus :=
  (s.connections.get? (req, ad)).map Connection.status

/-- `platform.Blocked`: a block either way. -/
def blocked (a b : Nat) : Bool :=
  (s.blocks.get? (a, b)).isSome || (s.blocks.get? (b, a)).isSome

/-- Pending or accepted. -/
def Active (req ad : Nat) : Prop :=
  s.status req ad = some .pending ∨ s.status req ad = some .accepted

/-- `UPDATE ... SET status=..., decided_at=now()` on one row. -/
def decide (now : Nat) (row : Nat × Nat) (next : ConnectionStatus) : ConnectionState :=
  match s.connections.get? row with
  | some c => { s with
      connections := s.connections.set row { c with status := next, decidedAt := some now } }
  | none => s

/-- `INSERT ... ON CONFLICT DO UPDATE SET status='pending',decided_at=NULL`. -/
def insertPending (now : Nat) (row : Nat × Nat) : ConnectionState :=
  let createdAt := ((s.connections.get? row).map Connection.createdAt).getD now
  { s with connections := s.connections.set row ⟨.pending, createdAt, none⟩ }

end ConnectionState

/-! ### The operations -/

def pairVisible (a b : Actor) : Bool :=
  assigned a && assigned b && a.id != b.id && a.user.cohort == b.user.cohort

def canConnect (env : ConnectionEnv) (a b : Actor) (s : ConnectionState) : Except Error Unit := do
  need Error.errForbidden (pairVisible a b && env.connectionCohorts a.user.cohort)
  participate env.toEnv a
  participate env.toEnv b
  need Error.errForbidden (!s.blocked a.id b.id)
  need Error.errForbidden (env.sharedActivity a.id b.id)

def targetByPublicID (env : ConnectionEnv) (publicID : String) : Except Error Actor := do
  need Error.errNotFound (publicID.utf8ByteSize == 36)
  match env.publicIds publicID with
  | some id => actorByID env.toEnv id
  | none => .error .errNoRows

/-- `RequestConnection`. `reserved` is the admission to the budget of requests, which only a new
request needs. -/
def requestConnection (env : ConnectionEnv) (a : Actor) (publicID : String)
    (reserved fails : Bool) (s : ConnectionState) : Except Error ConnectionState := do
  participate env.toEnv a
  let b ← targetByPublicID env publicID
  canConnect env a b s
  need Error.errInvalid (s.status a.id b.id != some .accepted && s.status b.id a.id != some .accepted)
  if s.status a.id b.id == some .pending then pure s
  -- Two requests that cross connect the two.
  else if s.status b.id a.id == some .pending then do
    need Error.failed (!fails)
    pure (s.decide env.now (b.id, a.id) .accepted)
  else do
    need Error.errForbidden reserved
    need Error.failed (!fails)
    pure (s.insertPending env.now (a.id, b.id))

/-- The actions of `RespondConnection`. -/
inductive Response where
  | withdraw
  | accept
  | decline
  | other
  deriving DecidableEq

/-- What `RespondConnection` decides for a pending row. -/
def response (env : ConnectionEnv) (a : Actor) (req ad : Nat) (action : Response)
    (s : ConnectionState) : Except Error ConnectionStatus :=
  match action with
  | .withdraw => do
    need Error.errForbidden (req == a.id)
    pure .withdrawn
  | .accept => do
    need Error.errForbidden (ad == a.id)
    let b ← actorByID env.toEnv req
    canConnect env a b s
    pure .accepted
  | .decline => do
    need Error.errForbidden (ad == a.id)
    pure .declined
  | .other => do
    need Error.errForbidden (ad == a.id)
    .error .errInvalid

/-- `RespondConnection`, on the row of a requester and an addressee. -/
def respondConnection (env : ConnectionEnv) (a : Actor) (req ad : Nat) (action : Response)
    (fails : Bool) (s : ConnectionState) : Except Error ConnectionState := do
  privacyGate a
  -- The row is read again under the lock of the pair.
  need Error.errNoRows (s.connections.get? (req, ad)).isSome
  need Error.errInvalid (s.status req ad == some .pending)
  let next ← response env a req ad action s
  need Error.failed (!fails)
  pure (s.decide env.now (req, ad) next)

/-- The row after `RemoveConnection`, when it is accepted. -/
def ConnectionState.removeAccepted (now : Nat) (row : Nat × Nat) (s : ConnectionState) :
    ConnectionState :=
  if s.status row.1 row.2 == some .accepted then s.decide now row .removed else s

def removeConnection (env : ConnectionEnv) (a : Actor) (publicID : String) (fails : Bool)
    (s : ConnectionState) : Except Error ConnectionState := do
  privacyGate a
  let b ← targetByPublicID env publicID
  need Error.failed (!fails)
  pure ((s.removeAccepted env.now (a.id, b.id)).removeAccepted env.now (b.id, a.id))

/-- One operation. `block` and `unblock` are the two methods of `BlockHTTP`, and `erase` the
cascade of an erased account. -/
inductive ConnectionOp where
  | request (a : Actor) (publicID : String) (reserved fails : Bool)
  | respond (a : Actor) (req ad : Nat) (action : Response) (fails : Bool)
  | remove (a : Actor) (publicID : String) (fails : Bool)
  | block (a : Actor) (target : Nat)
  | unblock (a : Actor) (target : Nat)
  | erase (u : Nat)

def connect (env : ConnectionEnv) (s : ConnectionState) :
    ConnectionOp → Except Error ConnectionState
  | .request a publicID reserved fails => requestConnection env a publicID reserved fails s
  | .respond a req ad action fails => respondConnection env a req ad action fails s
  | .remove a publicID fails => removeConnection env a publicID fails s
  | .block a target => do
    need Error.errInvalid (decide (1 ≤ target) && target != a.id)
    pure { s with blocks := s.blocks.set (a.id, target) () }
  | .unblock a target => do
    need Error.errInvalid (decide (1 ≤ target) && target != a.id)
    pure { s with blocks := s.blocks.removeIf fun key _ => key == (a.id, target) }
  | .erase u => .ok
    { connections := s.connections.removeIf fun key _ => key.1 == u || key.2 == u
      blocks := s.blocks.removeIf fun key _ => key.1 == u || key.2 == u }

/-- The state after one operation: an error is rolled back. -/
def ConnectionState.step (s : ConnectionState) (p : ConnectionEnv × ConnectionOp) :
    ConnectionState :=
  match connect p.1 s p.2 with
  | .ok s' => s'
  | .error _ => s

/-- No connections and no blocks. -/
def ConnectionState.empty : ConnectionState := ⟨KeyMap.empty, KeyMap.empty⟩

/-! ### What a step does to one row -/

/-- One user asks another for a connection. -/
def Requests (p : ConnectionEnv × ConnectionOp) (x y : Nat) : Prop :=
  ∃ a publicID reserved fails, p.2 = .request a publicID reserved fails ∧ a.id = x ∧
    p.1.publicIds publicID = some y

/-- The addressee of a row accepts it, or asks the requester in turn. -/
def Agrees (p : ConnectionEnv × ConnectionOp) (x y : Nat) : Prop :=
  (∃ a fails, p.2 = .respond a x y .accept fails ∧ a.id = y) ∨ Requests p y x

/-- Neither row of the pair is active. -/
def ConnectionState.Free (s : ConnectionState) (x y : Nat) : Prop := ¬s.Active x y ∧ ¬s.Active y x

/-- All that one step can do to the row from `x` to `y`. -/
inductive RowStep (s : ConnectionState) (p : ConnectionEnv × ConnectionOp) (x y : Nat)
    (s' : ConnectionState) : Prop where
  | kept (h : s'.status x y = s.status x y)
  | requested (hasks : Requests p x y) (hne : x ≠ y) (hfree : s.Free x y)
      (h : s'.status x y = some .pending)
  | agreed (hpending : s.status x y = some .pending) (hagrees : Agrees p x y)
      (h : s'.status x y = some .accepted)
  | ended (h : ¬s'.Active x y)

namespace ConnectionState

theorem status_decide (s : ConnectionState) (now : Nat) (row : Nat × Nat)
    (next : ConnectionStatus) (x y : Nat) :
    (s.decide now row next).status x y =
      if (x, y) = row then (s.status x y).map fun _ => next else s.status x y := by
  unfold decide status
  by_cases hrow : (x, y) = row
  · subst hrow
    rw [if_pos rfl]
    cases hget : s.connections.get? (x, y) with
    | none =>
      show (s.connections.get? (x, y)).map Connection.status = none
      rw [hget]
      rfl
    | some =>
      show ((s.connections.set _ _).get? (x, y)).map Connection.status = some next
      rw [KeyMap.get?_set, if_pos rfl]
      rfl
  · rw [if_neg hrow]
    cases s.connections.get? row with
    | none => rfl
    | some =>
      show ((s.connections.set _ _).get? (x, y)).map Connection.status = _
      rw [KeyMap.get?_set, if_neg hrow]

theorem status_insertPending (s : ConnectionState) (now : Nat) (row : Nat × Nat) (x y : Nat) :
    (s.insertPending now row).status x y =
      if (x, y) = row then some .pending else s.status x y := by
  unfold insertPending status
  dsimp only
  rw [KeyMap.get?_set]
  split <;> rfl

theorem status_removeIf (s : ConnectionState) (gone : Nat × Nat → Connection → Bool)
    (blocks : KeyMap (Nat × Nat) Unit) (x y : Nat) :
    (ConnectionState.mk (s.connections.removeIf gone) blocks).status x y = s.status x y ∨
      (ConnectionState.mk (s.connections.removeIf gone) blocks).status x y = none := by
  unfold status
  dsimp only
  rw [KeyMap.get?_removeIf]
  cases s.connections.get? (x, y) with
  | none => exact Or.inr rfl
  | some c =>
    by_cases hgone : gone (x, y) c = true
    · exact Or.inr (by simp [hgone])
    · exact Or.inl (by simp [hgone])

end ConnectionState

section
variable {env : ConnectionEnv} {a b : Actor} {publicID : String} {fails : Bool}
  {s s' : ConnectionState}

theorem publicIds_of_targetByPublicID (h : targetByPublicID env publicID = .ok b) :
    env.publicIds publicID = some b.id := by
  unfold targetByPublicID at h
  rw [seq_eq_ok] at h
  have hfound := h.2
  cases hid : env.publicIds publicID with
  | none =>
    rw [hid] at hfound
    cases hfound
  | some id =>
    rw [hid] at hfound
    unfold actorByID at hfound
    cases huser : env.users id with
    | none => simp [huser] at hfound
    | some =>
      simp only [huser] at hfound
      rw [← Except.ok.inj hfound]

theorem ne_of_canConnect (h : canConnect env a b s = .ok ()) : a.id ≠ b.id := by
  unfold canConnect at h
  rw [seq_eq_ok, need_eq_ok, Bool.and_eq_true] at h
  have hvisible := h.1.1
  unfold pairVisible at hvisible
  simp only [Bool.and_eq_true, bne_iff_ne, ne_eq] at hvisible
  exact hvisible.1.2

/-- `requestConnection`: nothing, the pending row of the other side accepted, or a new request
where neither row is active. -/
theorem requestConnection_spec {reserved : Bool}
    (h : requestConnection env a publicID reserved fails s = .ok s') :
    ∃ y, env.publicIds publicID = some y ∧ a.id ≠ y ∧
      (s' = s ∨
        (s.status y a.id = some .pending ∧ s' = s.decide env.now (y, a.id) .accepted) ∨
        (s.Free a.id y ∧ s' = s.insertPending env.now (a.id, y))) := by
  unfold requestConnection at h
  rw [seq_eq_ok, bind_eq_ok] at h
  obtain ⟨-, b, htarget, h⟩ := h
  rw [seq_eq_ok, seq_eq_ok, need_eq_ok, Bool.and_eq_true] at h
  obtain ⟨hcan, ⟨hno, hno'⟩, h⟩ := h
  refine ⟨b.id, publicIds_of_targetByPublicID htarget, ne_of_canConnect hcan, ?_⟩
  rw [bne_iff_ne] at hno hno'
  by_cases hmine : s.status a.id b.id = some .pending
  · rw [if_pos (by rw [hmine]; rfl), pure_eq_ok] at h
    exact Or.inl h.symm
  rw [if_neg (by simpa using hmine)] at h
  by_cases htheirs : s.status b.id a.id = some .pending
  · rw [if_pos (by rw [htheirs]; rfl), seq_eq_ok, pure_eq_ok] at h
    exact Or.inr (Or.inl ⟨htheirs, h.2.symm⟩)
  · rw [if_neg (by simpa using htheirs), seq_eq_ok, seq_eq_ok, pure_eq_ok] at h
    have hfree : s.Free a.id b.id :=
      ⟨fun hactive => hactive.elim hmine hno, fun hactive => hactive.elim htheirs hno'⟩
    exact Or.inr (Or.inr ⟨hfree, h.2.2.symm⟩)

theorem respondConnection_spec {req ad : Nat} {action : Response}
    (h : respondConnection env a req ad action fails s = .ok s') :
    s.status req ad = some .pending ∧ ∃ next, s' = s.decide env.now (req, ad) next ∧
      next ≠ .pending ∧ (next = .accepted → action = .accept ∧ a.id = ad) := by
  unfold respondConnection at h
  rw [seq_eq_ok, seq_eq_ok, seq_eq_ok, bind_eq_ok] at h
  obtain ⟨-, -, hpending, next, hnext, h⟩ := h
  rw [need_eq_ok, beq_iff_eq] at hpending
  rw [seq_eq_ok, pure_eq_ok] at h
  refine ⟨hpending, next, h.2.symm, ?_⟩
  unfold response at hnext
  cases action with
  | withdraw =>
    rw [seq_eq_ok, pure_eq_ok] at hnext
    rw [← hnext.2]
    exact ⟨by simp, fun h => (by cases h)⟩
  -- Only the addressee accepts.
  | accept =>
    rw [seq_eq_ok, need_eq_ok, beq_iff_eq, bind_eq_ok] at hnext
    obtain ⟨had, b, -, hnext⟩ := hnext
    rw [seq_eq_ok, pure_eq_ok] at hnext
    rw [← hnext.2]
    exact ⟨by simp, fun _ => ⟨rfl, had.symm⟩⟩
  | decline =>
    rw [seq_eq_ok, pure_eq_ok] at hnext
    rw [← hnext.2]
    exact ⟨by simp, fun h => (by cases h)⟩
  | other =>
    rw [seq_eq_ok] at hnext
    cases hnext.2

theorem status_removeAccepted (now : Nat) (row : Nat × Nat) (s : ConnectionState) (x y : Nat) :
    (s.removeAccepted now row).status x y = s.status x y ∨
      (s.removeAccepted now row).status x y = some .removed := by
  unfold ConnectionState.removeAccepted
  split
  · rename_i haccepted
    rw [beq_iff_eq] at haccepted
    rw [ConnectionState.status_decide]
    split
    · rename_i hrow
      rw [← hrow] at haccepted
      rw [haccepted]
      exact Or.inr rfl
    · exact Or.inl rfl
  · exact Or.inl rfl

end

variable {s : ConnectionState} {y x : Nat}

theorem not_active_of_status {o : Option ConnectionStatus}
    (h : s.status x y = o) (hpending : o ≠ some .pending) (haccepted : o ≠ some .accepted) :
    ¬s.Active x y := by
  rintro (hrow | hrow)
  · exact hpending (h.symm.trans hrow)
  · exact haccepted (h.symm.trans hrow)

theorem connect_row {p : ConnectionEnv × ConnectionOp} {s' : ConnectionState}
    (h : connect p.1 s p.2 = .ok s') (x y : Nat) : RowStep s p x y s' := by
  obtain ⟨env, op⟩ := p
  cases op with
  | request a publicID reserved fails =>
    obtain ⟨t, htarget, hne, rfl | ⟨hpending, rfl⟩ | ⟨hfree, rfl⟩⟩ := requestConnection_spec h
    · exact .kept rfl
    · -- The row of the other side.
      by_cases hrow : (x, y) = (t, a.id)
      · obtain ⟨rfl, rfl⟩ := Prod.mk.inj hrow
        refine .agreed hpending (Or.inr ⟨a, publicID, reserved, fails, rfl, rfl, htarget⟩) ?_
        rw [ConnectionState.status_decide, if_pos rfl, hpending]
        rfl
      · exact .kept (by rw [ConnectionState.status_decide, if_neg hrow])
    · by_cases hrow : (x, y) = (a.id, t)
      · obtain ⟨rfl, rfl⟩ := Prod.mk.inj hrow
        refine .requested ⟨a, publicID, reserved, fails, rfl, rfl, htarget⟩ hne hfree ?_
        rw [ConnectionState.status_insertPending, if_pos rfl]
      · exact .kept (by rw [ConnectionState.status_insertPending, if_neg hrow])
  | respond a req ad action fails =>
    obtain ⟨hpending, next, rfl, hnot, haccept⟩ := respondConnection_spec h
    by_cases hrow : (x, y) = (req, ad)
    · obtain ⟨rfl, rfl⟩ := Prod.mk.inj hrow
      have hstatus : (s.decide env.now (x, y) next).status x y = some next := by
        rw [ConnectionState.status_decide, if_pos rfl, hpending]
        rfl
      by_cases hnext : next = .accepted
      · obtain ⟨rfl, ha⟩ := haccept hnext
        refine .agreed hpending (Or.inl ⟨a, fails, rfl, ha⟩) ?_
        rw [hstatus, hnext]
      · exact .ended (not_active_of_status hstatus (by simpa using hnot) (by simpa using hnext))
    · exact .kept (by rw [ConnectionState.status_decide, if_neg hrow])
  | remove a =>
    dsimp only [connect] at h
    unfold removeConnection at h
    rw [seq_eq_ok, bind_eq_ok] at h
    obtain ⟨-, b, -, h⟩ := h
    rw [seq_eq_ok, pure_eq_ok] at h
    rw [← h.2]
    -- Each of the two updates keeps the row or removes it.
    rcases status_removeAccepted env.now (b.id, a.id) (s.removeAccepted env.now (a.id, b.id)) x y
      with hsecond | hsecond
    · rcases status_removeAccepted env.now (a.id, b.id) s x y with hfirst | hfirst
      · exact .kept (hsecond.trans hfirst)
      · exact .ended (not_active_of_status (hsecond.trans hfirst) (by simp) (by simp))
    · exact .ended (not_active_of_status hsecond (by simp) (by simp))
  | block =>
    dsimp only [connect] at h
    rw [seq_eq_ok, pure_eq_ok] at h
    rw [← h.2]
    exact .kept rfl
  | unblock =>
    dsimp only [connect] at h
    rw [seq_eq_ok, pure_eq_ok] at h
    rw [← h.2]
    exact .kept rfl
  | erase u =>
    dsimp only [connect] at h
    rw [← Except.ok.inj h]
    rcases ConnectionState.status_removeIf s (fun key _ => key.1 == u || key.2 == u)
      (s.blocks.removeIf fun key _ => key.1 == u || key.2 == u) x y with hrow | hrow
    · exact .kept hrow
    · exact .ended (not_active_of_status hrow (by simp) (by simp))

theorem step_row (s : ConnectionState) (p : ConnectionEnv × ConnectionOp) (x y : Nat) :
    RowStep s p x y (s.step p) := by
  unfold ConnectionState.step
  cases hop : connect p.1 s p.2 with
  | error => exact .kept rfl
  | ok => exact connect_row hop x y

/-! ### Every run -/

/-- Of the two rows of a pair at most one is active. -/
def ConnectionState.Exclusive (s : ConnectionState) : Prop :=
  ∀ x y, s.Active x y → ¬s.Active y x

theorem active_step {p : ConnectionEnv × ConnectionOp}
    (h : (s.step p).Active x y) : s.Active x y ∨ (Requests p x y ∧ x ≠ y ∧ s.Free x y) := by
  cases step_row s p x y with
  | kept hkept =>
    unfold ConnectionState.Active at h ⊢
    rw [hkept] at h
    exact Or.inl h
  | requested hasks hne hfree => exact Or.inr ⟨hasks, hne, hfree⟩
  | agreed hpending => exact Or.inl (Or.inl hpending)
  | ended hnot => exact absurd h hnot

theorem step_exclusive (s : ConnectionState) (p : ConnectionEnv × ConnectionOp)
    (hs : s.Exclusive) : (s.step p).Exclusive := by
  intro x y hxy hyx
  rcases active_step hxy with hbefore | ⟨hasks, hne, hfree⟩
  · rcases active_step hyx with hbefore' | ⟨-, -, hfree'⟩
    · exact hs x y hbefore hbefore'
    · exact hfree'.2 hbefore
  · rcases active_step hyx with hbefore' | ⟨hasks', -, -⟩
    · exact hfree.2 hbefore'
    · -- One step is a request of one user only.
      obtain ⟨a, _, _, _, hop, ha, -⟩ := hasks
      obtain ⟨b, _, _, _, hop', hb, -⟩ := hasks'
      have hab : a = b := (ConnectionOp.request.inj (hop.symm.trans hop')).1
      exact hne (ha.symm.trans (hab ▸ hb))

theorem active_exclusive (as : List (ConnectionEnv × ConnectionOp)) :
    (run ConnectionState.step .empty as).Exclusive := by
  refine Lib.Machine.run_invariant step_exclusive ?_ as
  intro x y hactive
  rcases hactive with h | h <;> cases h

/-- The last request of `x` to `y` found the pair free, and the row is pending since. -/
def PendingSince (as : List (ConnectionEnv × ConnectionOp)) (x y : Nat) : Prop :=
  ∃ before r mid, as = before ++ r :: mid ∧ Requests r x y ∧
    (run ConnectionState.step .empty before).Free x y ∧
    ∀ m, m <+: mid →
      (run ConnectionState.step .empty (before ++ r :: m)).status x y = some .pending

/-- The row was pending since a request of `x`, then `y` agreed, and it is accepted since. -/
def AcceptedSince (as : List (ConnectionEnv × ConnectionOp)) (x y : Nat) : Prop :=
  ∃ before c after, as = before ++ c :: after ∧ PendingSince before x y ∧ Agrees c x y ∧
    ∀ m, m <+: after →
      (run ConnectionState.step .empty (before ++ c :: m)).status x y = some .accepted

/-- What holds of every prefix of a list and of the list with one more element holds of every
prefix of that. -/
theorem forall_prefix_concat {α : Type} {l : List α} {a : α} {q : List α → Prop}
    (hbefore : ∀ m, m <+: l → q m) (hall : q (l ++ [a])) : ∀ m, m <+: l ++ [a] → q m := by
  intro m hm
  rcases List.prefix_concat_iff.mp hm with rfl | hm
  · exact hall
  · exact hbefore m hm

theorem row_history (as : List (ConnectionEnv × ConnectionOp)) (x y : Nat) :
    ((run ConnectionState.step .empty as).status x y = some .pending → PendingSince as x y) ∧
    ((run ConnectionState.step .empty as).status x y = some .accepted → AcceptedSince as x y) := by
  -- By the last step of the run.
  induction as using List.reverseRecOn with
  | nil => exact ⟨fun h => (by cases h), fun h => (by cases h)⟩
  | append_singleton as p ih =>
    obtain ⟨ihpending, ihaccepted⟩ := ih
    have hlast : run ConnectionState.step .empty (as ++ [p]) =
        (run ConnectionState.step .empty as).step p := Lib.Machine.run_concat ..
    cases hrow : step_row (run ConnectionState.step .empty as) p x y with
    | kept hkept =>
      -- The history of the row before, one step longer.
      constructor
      · intro h
        have hbefore := h
        rw [hlast, hkept] at hbefore
        obtain ⟨before, r, mid, rfl, hasks, hfree, hmid⟩ := ihpending hbefore
        refine ⟨before, r, mid ++ [p], by simp, hasks, hfree, forall_prefix_concat hmid ?_⟩
        rw [← h]
        simp
      · intro h
        have hbefore := h
        rw [hlast, hkept] at hbefore
        obtain ⟨before, c, after, rfl, hpending, hagrees, hafter⟩ := ihaccepted hbefore
        refine ⟨before, c, after ++ [p], by simp, hpending, hagrees,
          forall_prefix_concat hafter ?_⟩
        rw [← h]
        simp
    | requested hasks hne hfree hnow =>
      -- The history starts here.
      rw [← hlast] at hnow
      refine ⟨fun _ => ⟨as, p, [], rfl, hasks, hfree, ?_⟩, fun h => ?_⟩
      · intro m hm
        rw [List.prefix_nil.mp hm]
        exact hnow
      · rw [hnow] at h
        cases h
    | agreed hpending hagrees hnow =>
      -- The row was pending up to this step.
      rw [← hlast] at hnow
      refine ⟨fun h => ?_, fun _ => ⟨as, p, [], rfl, ihpending hpending, hagrees, ?_⟩⟩
      · rw [hnow] at h
        cases h
      · intro m hm
        rw [List.prefix_nil.mp hm]
        exact hnow
    | ended hnot =>
      rw [← hlast] at hnot
      exact ⟨fun h => absurd (Or.inl h) hnot, fun h => absurd (Or.inr h) hnot⟩

theorem accepted_since {as : List (ConnectionEnv × ConnectionOp)}
    (h : (run ConnectionState.step .empty as).status x y = some .accepted) :
    AcceptedSince as x y :=
  (row_history as x y).2 h

/-- After any operations in any order, for any two users: at most one of their two rows is
accepted, an accepted row has no pending row beside it, and not both are pending. An accepted row
goes back to a request of its requester, made when neither row was active and pending until its
addressee accepted it or asked in turn; it is accepted since. -/
theorem connection_pair (as : List (ConnectionEnv × ConnectionOp)) (x y : Nat) :
    ¬((run ConnectionState.step .empty as).status x y = some .accepted ∧
      (run ConnectionState.step .empty as).status y x = some .accepted) ∧
    ¬((run ConnectionState.step .empty as).status x y = some .accepted ∧
      (run ConnectionState.step .empty as).status y x = some .pending) ∧
    ¬((run ConnectionState.step .empty as).status x y = some .pending ∧
      (run ConnectionState.step .empty as).status y x = some .pending) ∧
    ((run ConnectionState.step .empty as).status x y = some .accepted → AcceptedSince as x y) := by
  have hexclusive := active_exclusive as x y
  exact ⟨fun h => hexclusive (Or.inr h.1) (Or.inr h.2), fun h => hexclusive (Or.inr h.1) (Or.inl h.2),
    fun h => hexclusive (Or.inl h.1) (Or.inl h.2), accepted_since⟩

end SocialActivities.Social.Go
