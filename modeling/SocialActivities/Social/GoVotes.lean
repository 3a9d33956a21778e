import SocialActivities.Social.GoGate

/-!
# `SocialActivities.Social.GoVotes`: who decides a join vote (Go)

`Vote` and `settlePending` compare the approve votes on a request with the members of the
moment. They count every vote that is stored, and `Leave`, which unseats a member, and
`AddGuardian`, which can turn a member into a guardian, keep the votes of that user. So a vote
can count after its voter stopped being a member.

`CountsCurrent` is the condition on a step that no such vote is on a request that the step may
decide. `votes_current` says that in every run whose steps meet it, each admission by vote has
the approval of enough current members. `left_voter_decides` is a run that breaks it: the vote
of a user who left admits a request that the only member has just rejected.
-/

namespace SocialActivities.Social.Go

open Lib
open Lib.Machine (run steps)

/-- Enough of the current members approve the request of the user, in the arithmetic of the
code. -/
def MembersApprove (s : State) (u : Nat) : Prop :=
  clears (s.currentApprovals u) s.participantCount s.activity.joinThreshold = true

/-- Every approve vote on the request of the user is a current member's. -/
def VotesCurrent (s : State) (u : Nat) : Prop :=
  ∀ voter, s.votes.get? (u, voter) = some true → s.isSeated voter = true

/-- The votes on the requests that a step may decide are current members' votes, and not votes
of a member whom the step turns into a guardian. -/
def CountsCurrent (s : State) : Op → Prop
  | .vote _ target _ override _ => override = false → VotesCurrent s target
  | .addGuardian _ target _ => ∀ u, s.isRequested u = true →
      VotesCurrent s u ∧ s.votes.get? (u, target) ≠ some true
  | .setSupervision _ _ _ => ∀ u, s.isRequested u = true → VotesCurrent s u
  | _ => True

instance (s : State) (u : Nat) : Decidable (VotesCurrent s u) :=
  decidable_of_iff (∀ e ∈ s.votes.entries, e.1.1 = u → e.2 = true → s.isSeated e.1.2 = true)
    ⟨fun h voter hget => h ((u, voter), true) (KeyMap.mem_entries_iff.mpr hget) rfl rfl,
     fun h e he hu hvote => h e.1.2 (by
      rw [← hu, ← hvote]
      exact KeyMap.mem_entries_iff.mp he)⟩

/-- A property of every pending request is a property of the rows. -/
instance (s : State) (p : Nat → Prop) [DecidablePred p] :
    Decidable (∀ u, s.isRequested u = true → p u) :=
  decidable_of_iff (∀ e ∈ s.memberships.entries, e.2.state = .requested → p e.1)
    ⟨fun h u hreq => by
      obtain ⟨m, hget, hstate⟩ := State.isRequested_iff.mp hreq
      exact h (u, m) (KeyMap.mem_entries_iff.mpr hget) hstate,
     fun h e he hstate =>
      h e.1 (State.isRequested_iff.mpr ⟨e.2, KeyMap.mem_entries_iff.mp he, hstate⟩)⟩

instance (s : State) : (op : Op) → Decidable (CountsCurrent s op)
  | .vote _ target _ override _ =>
    inferInstanceAs (Decidable (override = false → VotesCurrent s target))
  | .addGuardian _ target _ =>
    inferInstanceAs (Decidable (∀ u, s.isRequested u = true →
      VotesCurrent s u ∧ s.votes.get? (u, target) ≠ some true))
  | .setSupervision _ _ _ =>
    inferInstanceAs (Decidable (∀ u, s.isRequested u = true → VotesCurrent s u))
  | .create .. | .update .. | .cancel .. | .move .. | .autoComplete .. | .join .. | .leave ..
  | .changeOrganizer .. | .setHidden .. | .erase .. => isTrue trivial

variable {env : Env}

theorem Gate.membersApprove {adm : Admission} (h : Gate env adm)
    (hvote : adm.override = false) (hcurrent : VotesCurrent adm.before adm.user) :
    MembersApprove adm.before adm.user := by
  unfold MembersApprove
  rw [State.currentApprovals_eq hcurrent]
  exact h.quorum hvote

variable {s : State}

theorem isRequested_of_admitUser {u v : Nat} (h : (s.admitUser u).isRequested v = true) :
    s.isRequested v = true := by
  obtain ⟨m, hget, hstate⟩ := State.isRequested_iff.mp h
  rw [State.get?_admitUser] at hget
  split at hget
  · obtain ⟨m', -, rfl⟩ := Option.map_eq_some_iff.mp hget
    cases hstate
  · exact State.isRequested_iff.mpr ⟨m, hget, hstate⟩

/-- Within a chain of admissions the votes stay, nobody loses a seat, and each admitted user was
waiting before the first admission. So votes that are current before the chain are current at
each admission. -/
theorem Admits.votesCurrent {s' : State} {log : List Admission}
    (h : Admits env s log s') (hcurrent : ∀ u, s.isRequested u = true → VotesCurrent s u) :
    ∀ adm ∈ log, VotesCurrent adm.before adm.user := by
  induction h with
  | nil => exact fun adm hadm => by cases hadm
  | @cons s s' u override log gate rest ih =>
    have hnext : ∀ v, (s.admitUser u).isRequested v = true → VotesCurrent (s.admitUser u) v := by
      intro v hv voter hvoter
      rw [State.votes_admitUser] at hvoter
      exact State.isSeated_admitUser_of_isSeated (hcurrent v (isRequested_of_admitUser hv) voter hvoter)
    intro adm hadm
    rcases List.mem_cons.mp hadm with rfl | htail
    · exact hcurrent u gate.requested
    · exact ih hnext adm htail

theorem votesCurrent_setVote {target voter : Nat} {approve : Bool}
    (hcurrent : VotesCurrent s target) (hseated : s.isSeated voter = true) :
    VotesCurrent (s.setVote target voter approve) target := by
  intro v hv
  have hget : (s.setVote target voter approve).votes.get? (target, v)
      = if (target, v) = (target, voter) then some approve else s.votes.get? (target, v) :=
    KeyMap.get?_set ..
  rw [hget] at hv
  split at hv
  · rename_i heq
    rw [(Prod.mk.inj heq).2]
    exact hseated
  · exact hcurrent v hv

theorem operate_votes {op : Op} {r : State × List Admission}
    (hplain : s.RequestsPlain) (h : operate env s op = .ok r) (hcounts : CountsCurrent s op) :
    ∀ adm ∈ r.2, adm.override = false → MembersApprove adm.before adm.user := by
  intro adm hadm hvote
  have hnone : ∀ x : Except Error State, quiet x = .ok r →
      MembersApprove adm.before adm.user := by
    intro x hx
    rw [(quiet_eq_ok.mp hx).2] at hadm
    cases hadm
  cases op with
  | vote a target approve override =>
    obtain ⟨t, ht, -, hadmits, htarget⟩ := vote_change h
    have hgate := (hadmits.spec.2.2.2 adm hadm).1
    cases htarget adm hadm
    have hvote : override = false := hvote
    rcases ht with ⟨hoverridden, -⟩ | ⟨rfl, hseated⟩
    · rw [hvote] at hoverridden
      cases hoverridden
    · exact hgate.membersApprove hvote (votesCurrent_setVote (hcounts hvote) hseated)
  | addGuardian a target =>
    obtain ⟨-, hadmits⟩ := addGuardian_change hplain h
    refine (hadmits.spec.2.2.2 adm hadm).1.membersApprove hvote ?_
    refine hadmits.votesCurrent (fun u hu voter hvoter => ?_) adm hadm
    -- The new guardian has no vote on a pending request, and nobody else changed.
    have hreq : s.isRequested u = true := by
      obtain ⟨m, hget, hstate⟩ := State.isRequested_iff.mp hu
      rw [State.get?_setMembership] at hget
      split at hget
      · cases hget
        cases hstate
      · exact State.isRequested_iff.mpr ⟨m, hget, hstate⟩
    obtain ⟨hcurrent, hguardian⟩ := hcounts u hreq
    have hne : voter ≠ target := by
      rintro rfl
      exact hguardian hvoter
    rw [State.isSeated_setMembership, if_neg hne]
    exact hcurrent voter hvoter
  | setSupervision =>
    obtain ⟨-, -, hadmits⟩ := setSupervision_change hplain h
    refine (hadmits.spec.2.2.2 adm hadm).1.membersApprove hvote ?_
    exact hadmits.votesCurrent (fun u hu => hcounts u hu) adm hadm
  | create => exact hnone _ h
  | update | cancel | move | autoComplete | join | leave | changeOrganizer | setHidden | erase =>
    exact hnone _ h

/-- In every run whose steps count current votes only, each admission by vote has the approval
of enough of the members of that moment. -/
theorem votes_current (ops : List (Env × Op))
    (hcounts : ∀ p ∈ steps step none ops, ∀ s ∈ p.1, CountsCurrent s p.2.2) :
    ∀ p ∈ steps step none ops, ∀ adm ∈ admissions p.1 p.2, adm.override = false →
      MembersApprove adm.before adm.user := by
  intro p hp adm hadm hvote
  obtain ⟨s, r, hs, hop, hadm⟩ := mem_admissions hadm
  exact operate_votes (soundRows_of_mem_steps hp s hs).plain hop (hcounts p hp s hs) adm hadm hvote

/-! ### A vote that outlives its voter -/

/-- Three adults whom every gate accepts. -/
def openEnv : Env where
  now := 0
  users u := if u = 1 ∨ u = 2 ∨ u = 3 then
    some ⟨.adult, .adult, "user", true, true, false, false⟩ else none
  assuranceCurrent _ := true
  parentalConsent _ := false
  blocks _ _ := false
  guardianOf _ _ := false
  rails _ := []
  openJoins _ := 0
  childVenue _ := true
  placePublic _ := true
  placeProposed _ _ := false
  typeActive _ := true
  ancestry _ := []
  localHour _ := 15
  localWeekday _ := 3

def adult (id : Nat) : Actor := ⟨id, ⟨.adult, .adult, "user", true, true, false, false⟩⟩

/-- A new activity of the adult 1, with the default threshold. -/
def adultActivity : Op :=
  .create (adult 1) ⟨1, 1, 10, none, none, none, none, false, false, true⟩ false false

/-- Adult 1 admits 2. Adult 3 asks to join, 2 approves, which is one vote of two, and leaves. -/
def leftVoterOps : List (Env × Op) :=
  [(openEnv, adultActivity),
   (openEnv, .join (adult 2) false),
   (openEnv, .vote (adult 1) 2 true false false),
   (openEnv, .join (adult 3) false),
   (openEnv, .vote (adult 2) 3 true false false),
   (openEnv, .leave (adult 2) false)]

/-- Adult 1, the only member, rejects the request of 3, and this vote admits 3: the vote of 2
still counts, now as one of one. -/
theorem left_voter_decides :
    ∃ adm ∈ admissions (run step none leftVoterOps)
        (openEnv, .vote (adult 1) 3 false false false),
      adm.override = false ∧ adm.before.currentApprovals adm.user = 0 ∧
        adm.before.participantCount = 1 ∧ ¬ MembersApprove adm.before adm.user := by
  unfold MembersApprove
  decide +kernel

/-- The admission of 2 at the start of that run counts the vote of the only member. -/
theorem votes_current_first :
    (admissions (run step none (leftVoterOps.take 2))
        (openEnv, .vote (adult 1) 2 true false false)).length = 1 ∧
      ∀ p ∈ steps step none (leftVoterOps.take 3), ∀ adm ∈ admissions p.1 p.2,
        adm.override = false → MembersApprove adm.before adm.user :=
  ⟨by decide +kernel, votes_current (leftVoterOps.take 3) (by decide +kernel)⟩

end SocialActivities.Social.Go
