import SocialActivities.Lib.Machine
import SocialActivities.Places.Catalog

/-!
# `SocialActivities.Places.EdgeVotes`: votes on the activities of a place

Members confirm or dispute that a place supports an activity: `VoteEdge` (`internal/catalog`) and
`vote_on_edge` (`apps/places`). A vote counts the votes on the edge again. Enough disputes hide an
inferred edge, and else enough confirmations promote it. Moderators take this back: `ReverseEdge` and
`moderator_reverse_edge`.

A Go transaction locks the edge, so it is one step of `step`. A hidden edge with enough disputes is
not hidden again, so the next vote looks at the confirmations, and these promote it
(`promoted_over_disputes`). `weighed_iff` says when a vote does what it is for.

The Python requests have no lock. They read the edge, write the vote, count, and save in separate
steps (`Py.step`), and see what is committed. Where a request commits on what it has read as it still
is, it is the step of Go (`py_refines`).
-/

namespace SocialActivities.Places.Votes

open Lib

inductive Vote where
  | confirm
  | dispute
  deriving DecidableEq

def Vote.ofText : String → Option Vote
  | "confirm" => some .confirm
  | "dispute" => some .dispute
  | _ => none

def Vote.text : Vote → String
  | .confirm => "confirm"
  | .dispute => "dispute"

/-- What a moderator does. -/
inductive Reversal where
  | demote
  | restore
  | reset
  deriving DecidableEq

def Reversal.ofText : String → Option Reversal
  | "demote" => some .demote
  | "restore" => some .restore
  | "reset" => some .reset
  | _ => none

def Reversal.text : Reversal → String
  | .demote => "demote"
  | .restore => "restore"
  | .reset => "reset"

/-- The columns of an edge that votes are about. -/
structure Standing where
  origin : Origin
  disputed : Bool
  deriving DecidableEq

/-- An edge and the votes on it, one for each user. -/
structure State where
  edge : Standing
  votes : KeyMap Nat Vote

def tally (votes : KeyMap Nat Vote) (vote : Vote) : Nat := votes.count fun _ v => v = vote

/-- What a vote does to an edge. -/
inductive Outcome where
  | keep
  | hide
  | promote
  deriving DecidableEq

/-- What the numbers of confirmations and disputes say for an edge. -/
def reevaluate (quorum confirms disputes : Nat) (edge : Standing) : Outcome :=
  if edge.origin = .inferred then
    if quorum ≤ disputes ∧ edge.disputed = false then .hide
    else if quorum ≤ confirms then .promote
    else .keep
  else .keep

/-- The update of the row. -/
def Outcome.write : Outcome → Standing → Standing
  | .keep, edge => edge
  | .hide, edge => { edge with disputed := true }
  | .promote, _ => ⟨.confirmed, false⟩

/-- The edge after a reversal. -/
def reversed (reversal : Reversal) (edge : Standing) : Standing :=
  match reversal with
  | .demote => ⟨.inferred, false⟩
  | .restore => { edge with disputed := false }
  | .reset => { edge with disputed := false }

/-- The votes that a reversal deletes. -/
def Reversal.deletes (reversal : Reversal) (vote : Vote) : Bool :=
  match reversal with
  | .restore => vote == .dispute
  | _ => true

/-! ### The Go transactions -/

inductive Action where
  /-- `VoteEdge`; `allowed` are the checks of the user and the place. -/
  | vote (user : Nat) (vote : String) (allowed : Bool)
  /-- `ReverseEdge`, by active staff or not. -/
  | reverse (action : String) (staff : Bool)
  deriving DecidableEq

variable (quorum : Nat)

/-- A vote that passes its checks. -/
def voteEdge (s : State) (user : Nat) (vote : Vote) : State :=
  let votes := s.votes.set user vote
  let outcome := reevaluate quorum (tally votes .confirm) (tally votes .dispute) s.edge
  ⟨outcome.write s.edge, votes⟩

def reverseEdge (s : State) (reversal : Reversal) : State :=
  ⟨reversed reversal s.edge, s.votes.removeIf fun _ v => reversal.deletes v⟩

def step (s : State) : Action → State
  | .vote user raw allowed =>
    match Vote.ofText raw with
    | none => s
    | some vote => if allowed then voteEdge quorum s user vote else s
  | .reverse action staff =>
    match Reversal.ofText action with
    | none => s
    | some reversal => if staff then reverseEdge s reversal else s

/-! ### The Python requests -/

namespace Py

/-- How far a request is. `edge` is the row as the view has read it. -/
inductive Phase where
  | reading
  | read (edge : Standing)
  /-- The vote is written, and not committed yet. -/
  | voted (edge : Standing) (user : Nat) (vote : Vote)
  /-- The confirmations are counted. -/
  | confirms (edge : Standing) (user : Nat) (vote : Vote) (confirms : Nat)
  | tallied (edge : Standing) (user : Nat) (vote : Vote) (confirms disputes : Nat)
  /-- The votes of these users are being deleted. -/
  | deleting (reversal : Reversal) (users : List Nat)
  deriving DecidableEq

/-- The edge and the votes as they are committed, the requests, and the users whose vote a request has
written and not committed. -/
structure System where
  state : State
  phase : Nat → Phase
  locks : List Nat

def System.start (s : State) : System := ⟨s, fun _ => .reading, []⟩

def System.enter (s : System) (request : Nat) (phase : Phase) : System :=
  { s with phase := Function.update s.phase request phase }

inductive Op where
  /-- `get_object_or_404`, or the queryset of the moderator. -/
  | read (request : Nat)
  /-- `update_or_create`, after the checks. -/
  | write (request user : Nat) (vote : String) (allowed : Bool)
  | countConfirms (request : Nat)
  | countDisputes (request : Nat)
  /-- `edge_votes.…delete()`, after the check of the moderator. -/
  | delete (request : Nat) (action : String) (staff : Bool)
  /-- `edge.save()`, and the commit. -/
  | commit (request : Nat)
  deriving DecidableEq

/-- The votes that a request sees: the committed ones, with its own. -/
def System.seen (s : System) (user : Nat) (vote : Vote) : KeyMap Nat Vote := s.state.votes.set user vote

/-- A user has one vote at a time in a transaction. -/
def write (s : System) (request user : Nat) (edge : Standing) (vote : Option Vote) (allowed : Bool) :
    System :=
  match vote with
  | none => s.enter request .reading
  | some vote =>
    if !allowed then s.enter request .reading
    else if user ∈ s.locks then s
    else { s.enter request (.voted edge user vote) with locks := user :: s.locks }

def delete (s : System) (request : Nat) (reversal : Option Reversal) (staff : Bool) : System :=
  match reversal with
  | none => s.enter request .reading
  | some reversal =>
    if !staff then s.enter request .reading
    else s.enter request (.deleting reversal (s.state.votes.keysWhere fun _ v => reversal.deletes v))

/-- What a request commits. -/
def commit (s : System) (request : Nat) : Option (State × Action) :=
  match s.phase request with
  | .tallied edge user vote confirms disputes =>
    let outcome := reevaluate quorum confirms disputes edge
    some (⟨outcome.write s.state.edge, s.seen user vote⟩, .vote user vote.text true)
  | .deleting reversal users =>
    -- A deletion waits for the votes that are locked.
    if users.any fun user => decide (user ∈ s.locks) then none
    else
      some (⟨reversed reversal s.state.edge,
        s.state.votes.removeIf fun user v => decide (user ∈ users) && reversal.deletes v⟩,
        .reverse reversal.text true)
  | _ => none

/-- The user whose lock a request returns. -/
def Phase.user : Phase → Option Nat
  | .tallied _ user _ _ _ => some user
  | _ => none

def step (s : System) : Op → System
  | .read request =>
    match s.phase request with
    | .reading => s.enter request (.read s.state.edge)
    | _ => s
  | .write request user raw allowed =>
    match s.phase request with
    | .read edge => write s request user edge (Vote.ofText raw) allowed
    | _ => s
  | .countConfirms request =>
    match s.phase request with
    | .voted edge user vote =>
      s.enter request (.confirms edge user vote (tally (s.seen user vote) .confirm))
    | _ => s
  | .countDisputes request =>
    match s.phase request with
    | .confirms edge user vote confirms =>
      s.enter request (.tallied edge user vote confirms (tally (s.seen user vote) .dispute))
    | _ => s
  | .delete request action staff =>
    match s.phase request with
    | .read _ => delete s request (Reversal.ofText action) staff
    | _ => s
  | .commit request =>
    match commit quorum s request with
    | none => s
    | some (state, _) =>
      { s.enter request .reading with
        state := state
        locks := s.locks.filter fun user => some user ≠ (s.phase request).user }

/-- The action of a request that a step commits. -/
def committed (s : System) : Op → Option Action
  | .commit request => (commit quorum s request).map Prod.snd
  | _ => none

def after (s : State) (ops : List Op) : System := Machine.run (step quorum) (System.start s) ops

/-- The actions of a schedule, in the order of their commits. -/
def actions (s : State) (ops : List Op) : List Action :=
  Machine.emitted (step quorum) (committed quorum) (System.start s) ops

end Py

/-! ### What a vote is for -/

variable {quorum} {s : State}

/-- What a step is to do: a vote promotes an inferred edge only with enough confirmations and without
enough disputes, it leaves no inferred edge with enough disputes in sight, and it changes no other
edge. -/
def Good (quorum : Nat) (s : State) : Action → Prop
  | .reverse _ _ => True
  | .vote user raw allowed =>
    let t := step quorum s (.vote user raw allowed)
    (s.edge.origin = .inferred → t.edge.origin ≠ .inferred →
      t.edge.origin = .confirmed ∧ quorum ≤ tally t.votes .confirm ∧ tally t.votes .dispute < quorum) ∧
    ((Vote.ofText raw).isSome = true → allowed = true →
      t.edge.origin = .inferred → quorum ≤ tally t.votes .dispute → t.edge.disputed = true) ∧
    (s.edge.origin ≠ .inferred → t.edge = s.edge)

/-- The vote does not come to a hidden edge with enough disputes and enough confirmations. -/
def Weighed (quorum : Nat) (s : State) : Action → Prop
  | .reverse _ _ => True
  | .vote user raw allowed => ∀ vote, Vote.ofText raw = some vote → allowed = true →
      s.edge.origin = .inferred → s.edge.disputed = true →
        ¬(quorum ≤ tally (s.votes.set user vote) .confirm ∧
          quorum ≤ tally (s.votes.set user vote) .dispute)

theorem voteEdge_good (user : Nat) (vote : Vote) :
    (let t := voteEdge quorum s user vote
    (s.edge.origin = .inferred → t.edge.origin ≠ .inferred →
      t.edge.origin = .confirmed ∧ quorum ≤ tally t.votes .confirm ∧ tally t.votes .dispute < quorum) ∧
    (t.edge.origin = .inferred → quorum ≤ tally t.votes .dispute → t.edge.disputed = true) ∧
    (s.edge.origin ≠ .inferred → t.edge = s.edge)) ↔
    (s.edge.origin = .inferred → s.edge.disputed = true →
      ¬(quorum ≤ tally (s.votes.set user vote) .confirm ∧
        quorum ≤ tally (s.votes.set user vote) .dispute)) := by
  simp only [voteEdge]
  generalize tally (s.votes.set user vote) .confirm = confirms
  generalize tally (s.votes.set user vote) .dispute = disputes
  obtain ⟨origin, disputed⟩ := s.edge
  by_cases horigin : origin = .inferred
  · subst horigin
    by_cases hdisputes : quorum ≤ disputes <;> by_cases hconfirms : quorum ≤ confirms <;>
      cases disputed <;> simp [reevaluate, Outcome.write, hdisputes, hconfirms] <;> omega
  · simp [reevaluate, Outcome.write, horigin]

theorem good_iff_weighed (act : Action) : Good quorum s act ↔ Weighed quorum s act := by
  cases act with
  | reverse => exact Iff.rfl
  | vote user raw allowed =>
    simp only [Good, Weighed, step]
    cases hvote : Vote.ofText raw with
    | none => simpa using fun h h' => absurd h h'
    | some vote =>
      cases allowed with
      | false => simpa using fun h h' => absurd h h'
      | true => simpa using voteEdge_good user vote

/-! ### Demotions -/

/-- An edge that nobody has voted on. -/
def State.fresh : State := ⟨⟨.inferred, false⟩, KeyMap.empty⟩

theorem step_demote : step quorum s (.reverse "demote" true) = State.fresh := by
  have hnone : (s.votes.removeIf fun _ _ => true) = KeyMap.empty := by
    simp [KeyMap.removeIf, KeyMap.empty]
  show reverseEdge s .demote = State.fresh
  rw [reverseEdge, reversed, State.fresh, ← hnone]
  rfl

/-! ### The Python requests -/

namespace Py

theorem ofText_text (vote : Vote) : Vote.ofText vote.text = some vote := by
  cases vote <;> rfl

theorem reversal_ofText_text (reversal : Reversal) : Reversal.ofText reversal.text = some reversal := by
  cases reversal <;> rfl

/-- What a request has read is as it still is: the row of the edge and the votes that it has counted, or
all votes that it is to delete. -/
def Phase.Fresh (s : System) : Phase → Prop
  | .tallied edge user vote yes no =>
    edge = s.state.edge ∧ yes = tally (s.seen user vote) .confirm ∧
      no = tally (s.seen user vote) .dispute
  | .deleting reversal users =>
    ∀ user ∈ s.state.votes.keysWhere fun _ v => reversal.deletes v, user ∈ users
  | _ => True

/-- A request commits on what it has read as it still is. -/
def Fresh (s : System) : Op → Prop
  | .commit request => (s.phase request).Fresh s
  | _ => True

instance (s : System) : (phase : Phase) → Decidable (phase.Fresh s)
  | .tallied .. => inferInstanceAs (Decidable (_ ∧ _ ∧ _))
  | .deleting .. => inferInstanceAs (Decidable (∀ user ∈ KeyMap.keysWhere _ _, _))
  | .reading => isTrue trivial
  | .read _ => isTrue trivial
  | .voted .. => isTrue trivial
  | .confirms .. => isTrue trivial

instance (s : System) : (op : Op) → Decidable (Fresh s op)
  | .commit request => inferInstanceAs (Decidable ((s.phase request).Fresh s))
  | .read _ => isTrue trivial
  | .write .. => isTrue trivial
  | .countConfirms _ => isTrue trivial
  | .countDisputes _ => isTrue trivial
  | .delete .. => isTrue trivial

theorem removeIf_users {votes : KeyMap Nat Vote} {reversal : Reversal} {users : List Nat}
    (h : ∀ user ∈ votes.keysWhere fun _ v => reversal.deletes v, user ∈ users) :
    (votes.removeIf fun user v => decide (user ∈ users) && reversal.deletes v) =
      votes.removeIf fun _ v => reversal.deletes v := by
  rw [KeyMap.removeIf, KeyMap.removeIf, KeyMap.mk.injEq]
  refine List.filter_congr fun e he => ?_
  cases hdeletes : reversal.deletes e.2 with
  | false => simp
  | true =>
    have huser : e.1 ∈ users :=
      h e.1 (KeyMap.mem_keysWhere.mpr ⟨e.2, KeyMap.mem_entries_iff.mp he, hdeletes⟩)
    simp [huser]

variable {s : System}

theorem commit_fresh {request : Nat} (hfresh : Fresh s (.commit request)) {t : State} {act : Action}
    (h : commit quorum s request = some (t, act)) : t = Votes.step quorum s.state act := by
  rw [commit] at h
  simp only [Fresh] at hfresh
  split at h
  · rename_i edge user vote confirms disputes hphase
    rw [hphase] at hfresh
    obtain ⟨rfl, rfl, rfl⟩ := hfresh
    cases h
    simp only [Votes.step, ofText_text, if_true, voteEdge]
    rfl
  · rename_i reversal users hphase
    rw [hphase] at hfresh
    split at h
    · cases h
    · cases h
      simp only [Votes.step, reversal_ofText_text, if_true, reverseEdge]
      rw [removeIf_users hfresh]
  · cases h

theorem state_step {op : Op} (h : committed quorum s op = none) : (step quorum s op).state = s.state := by
  cases op with
  | read =>
    simp only [step]
    split <;> rfl
  | write =>
    simp only [step, write]
    repeat' split
    all_goals rfl
  | countConfirms =>
    simp only [step]
    split <;> rfl
  | countDisputes =>
    simp only [step]
    split <;> rfl
  | delete =>
    simp only [step, delete]
    repeat' split
    all_goals rfl
  | commit =>
    simp only [committed, Option.map_eq_none_iff] at h
    simp only [step, h]

theorem state_commit {op : Op} (hfresh : Fresh s op) {act : Action} (h : committed quorum s op = some act) :
    (step quorum s op).state = Votes.step quorum s.state act := by
  cases op with
  | commit =>
    obtain ⟨⟨t, act'⟩, hcommit, rfl⟩ := Option.map_eq_some_iff.mp h
    simp only [step, hcommit]
    exact commit_fresh hfresh hcommit
  | _ => cases h

theorem py_refines {s : State} {ops : List Op}
    (hfresh : ∀ q ∈ Machine.steps (step quorum) (System.start s) ops, Fresh q.1 q.2) :
    (after quorum s ops).state = Machine.run (Votes.step quorum) s (actions quorum s ops) := by
  have hstep : ∀ (sys : System) op out, sys.state = Machine.run (Votes.step quorum) s out →
      Fresh sys op → (step quorum sys op).state =
        Machine.run (Votes.step quorum) s (out ++ (committed quorum sys op).toList) := by
    intro sys op out hstate hop
    cases hact : committed quorum sys op with
    | none => rw [state_step hact, Option.toList_none, List.append_nil, hstate]
    | some => rw [state_commit hop hact, Option.toList_some, Machine.run_concat, hstate]
  exact Machine.emitted_invariant (fun sys op _ => Fresh sys op) hstep rfl
    fun before op rest heq => hfresh (_, op) ((Machine.mem_steps _).mpr ⟨before, rest, heq, rfl⟩)

end Py

/-! ### Disputes first -/

/-- For every edge with votes on it:

1. In a run of Go transactions each vote does what it is for exactly when each one is weighed.
2. After a demotion a run goes on as from an edge without votes.
3. A schedule of Python requests that commit on fresh data leaves what Go leaves when it runs their
  actions in the order of the commits, and so does each of its commits. -/
theorem disputes_first (quorum : Nat) (s : State) :
    (∀ acts, (∀ q ∈ Machine.steps (step quorum) s acts, Good quorum q.1 q.2) ↔
      ∀ q ∈ Machine.steps (step quorum) s acts, Weighed quorum q.1 q.2) ∧
    (∀ before later, Machine.run (step quorum) s (before ++ .reverse "demote" true :: later) =
      Machine.run (step quorum) State.fresh later) ∧
    ∀ ops, (∀ q ∈ Machine.steps (Py.step quorum) (Py.System.start s) ops, Py.Fresh q.1 q.2) →
      (Py.after quorum s ops).state = Machine.run (step quorum) s (Py.actions quorum s ops) ∧
      ∀ q ∈ Machine.steps (Py.step quorum) (Py.System.start s) ops, ∀ act,
        Py.committed quorum q.1 q.2 = some act →
          (Py.step quorum q.1 q.2).state = step quorum q.1.state act := by
  refine ⟨fun acts => ?_, fun before later => ?_, fun ops hfresh => ⟨Py.py_refines hfresh, ?_⟩⟩
  · simp only [good_iff_weighed]
  · rw [Machine.run_append, Machine.run_cons, step_demote]
  · intro q hq act hact
    exact Py.state_commit (hfresh q hq) hact

instance (act : Action) : Decidable (Good quorum s act) :=
  match act with
  | .reverse _ _ => isTrue trivial
  | .vote _ _ _ => inferInstanceAs (Decidable (_ ∧ _ ∧ _))

/-- The votes of three users. -/
def three (first : Nat) (vote : String) : List Action :=
  [.vote first vote true, .vote (first + 1) vote true, .vote (first + 2) vote true]

namespace Py

/-- A request from its view to its last count. -/
def counted (r user : Nat) (vote : String) : List Op :=
  [.read r, .write r user vote true, .countConfirms r, .countDisputes r]

def complete (r user : Nat) (vote : String) : List Op := counted r user vote ++ [.commit r]

/-- The second and the third dispute are counted before either is committed. -/
def overlapping : List Op :=
  complete 0 1 "dispute" ++ counted 1 2 "dispute" ++ counted 2 3 "dispute" ++ [.commit 1, .commit 2]

/-- The third dispute has read the edge before the third confirmation promotes it. -/
def late : List Op :=
  complete 0 1 "confirm" ++ complete 0 2 "confirm" ++ complete 0 4 "dispute" ++ complete 0 5 "dispute" ++
    [.read 1] ++ complete 0 3 "confirm" ++ [.write 1 6 "dispute" true, .countConfirms 1, .countDisputes 1, .commit 1]

end Py

/-- Requests one after another, with a demotion between them. -/
theorem disputes_first_sample :
    (Py.after 3 State.fresh (Py.complete 0 1 "confirm" ++ [.read 1, .delete 1 "demote" true, .commit 1] ++
        Py.complete 2 1 "dispute")).state =
      Machine.run (step 3) State.fresh [.vote 1 "confirm" true, .reverse "demote" true, .vote 1 "dispute" true] :=
  ((disputes_first 3 State.fresh).2.2 _ (by decide)).1

/-- Three disputes hide an edge, and three confirmations promote it. Of two requests that overlap, neither
hides an edge with three disputes; and one that has read the edge before it was promoted hides it. -/
theorem promoted_over_disputes :
    (¬∀ q ∈ Machine.steps (step 3) State.fresh (three 1 "dispute" ++ three 4 "confirm"), Good 3 q.1 q.2) ∧
    (Machine.run (step 3) State.fresh (three 1 "dispute" ++ three 4 "confirm")).edge = ⟨.confirmed, false⟩ ∧
    (Py.after 3 State.fresh Py.overlapping).state.edge = ⟨.inferred, false⟩ ∧
    tally (Py.after 3 State.fresh Py.overlapping).state.votes .dispute = 3 ∧
    (Py.after 3 State.fresh Py.late).state.edge = ⟨.confirmed, true⟩ := by
  decide

end SocialActivities.Places.Votes
