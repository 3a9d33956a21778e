import SocialActivities.Social.PyActivity

/-!
# `SocialActivities.Social.PyCapacity`: capacity over every run (Python)

`can_join` refuses a request to a full activity and `update_activity` refuses a capacity below
the participants. But a request waits, and `_admit` does not look at the capacity again, so the
requests that an activity with one free position collects can all be admitted.

`hasRoom` is the condition on a call that each admission it makes finds a free position. It is
arithmetic on the rows before the call: for a settlement, `settleFits` counts the pending
requests that clear the threshold in turn. `capacity_iff` says that a run keeps the activity
within its capacity, and refuses to admit to a full one, exactly when all its calls meet
`hasRoom`. `full_activity_admits` is a run that does not.
-/

namespace SocialActivities.Social.Py

open Lib
open Lib.Machine (run steps)

/-! ### The condition -/

/-- A settlement of requests with these approvals, from this number of members, finds a free
position for each request that clears the threshold. -/
def settleFits (threshold : Magnitude) (capacity : Option Nat) : List Nat → Nat → Bool
  | [], _ => true
  | approvals :: rest, members =>
    if clears approvals members threshold then
      capacity.all (fun most => decide (members < most))
        && settleFits threshold capacity rest (members + 1)
    else settleFits threshold capacity rest members

/-- The pending requests fit into the activity. -/
def pendingFit (env : Env) (s : State) : Bool :=
  settleFits s.activity.joinThreshold s.activity.capacity
    ((pendingJoins env s).map s.approvals) s.participantCount

/-- `add_guardian` seats the guardian. -/
def seatsGuardian (env : Env) (owner guardian : Nat) (s : State) : Bool :=
  s.activity.owner == owner && (s.activity.guardianAccompanied && s.activity.cohort == .child)
    && (env.cohort guardian == .adult && env.canParticipate guardian)
    && env.isGuardianOf guardian owner && (s.memberships.get? guardian).isNone

/-- `set_activity_supervision` changes the activity. -/
def setsSupervision (owner : Nat) (supervised : Bool) (s : State) : Bool :=
  s.activity.owner == owner && s.activity.status == .opened
    && !(supervised && s.activity.cohort != .child)

/-- `cast_vote` decides for the request. -/
def voteAdmits (env : Env) (voter target : Nat) (approve : Bool) (s : State) : Bool :=
  s.isRequested target && target != voter && s.isSeated voter
    && voteThresholdMet target (s.setVote target voter approve) && supervisionSatisfied env s

/-- `owner_admit` admits the request. -/
def overrideAdmits (env : Env) (owner target : Nat) (s : State) : Bool :=
  isOrganizer owner s && s.activity.ownerCanOverride && s.isRequested target
    && supervisionSatisfied env s

/-- Each admission of the call finds a free position. -/
def hasRoom (env : Env) (s : State) : Op → Bool
  | .castVote voter target approve fails =>
    fails || !voteAdmits env voter target approve s || !s.isFull
  | .ownerAdmit owner target fails => fails || !overrideAdmits env owner target s || !s.isFull
  | .addGuardian owner guardian fails =>
    fails || !seatsGuardian env owner guardian s || !s.activity.supervised
      || pendingFit env (withGuardian guardian s)
  | .setSupervision owner supervised fails =>
    fails || !setsSupervision owner supervised s
      || !supervisionSatisfied env (withSupervision supervised s) || pendingFit env s
  | _ => true

/-- The condition on a step: a creation does not set the capacity to 0, and each admission finds
a free position. -/
def StepHasRoom (s : Option State) (p : Env × Op) : Prop :=
  match s, p with
  | none, (env, .create owner new fails) =>
    (createActivity env owner new fails).isOk = true → new.capacity ≠ some 0
  | none, _ => True
  | some s, (env, op) => deletes s op = true ∨ hasRoom env s op = true

/-! ### Admission -/

section

variable {env : Env} {s s' : State} {fails : Bool}

variable {u : Nat}

theorem within_admitUser_iff (hplain : s.RequestsPlain) (hreq : s.isRequested u = true) :
    (s.admitUser u).WithinCapacity ↔ s.isFull = false := by
  unfold State.WithinCapacity
  rw [State.isFull_eq_false, State.activity_admitUser, State.participantCount_admitUser hplain hreq]
  exact Iff.rfl

theorem activeSupervisorPresent_admitUser (hreq : s.isRequested u = true)
    (h : activeSupervisorPresent env s = true) : activeSupervisorPresent env (s.admitUser u) = true := by
  unfold activeSupervisorPresent at h ⊢
  rw [Bool.not_eq_true', List.isEmpty_eq_false_iff_exists_mem] at h ⊢
  obtain ⟨g, hg⟩ := h
  obtain ⟨m, hget, hcond⟩ := KeyMap.mem_keysWhere.mp hg
  have hstate : m.state = .member := by
    simp only [Bool.and_eq_true, beq_iff_eq] at hcond
    exact hcond.1.2
  have hget' := State.get?_admitUser_of_not_requested hreq hget (by rw [hstate]; simp)
  exact ⟨g, KeyMap.mem_keysWhere.mpr ⟨m, hget', by rw [State.activity_admitUser]; exact hcond⟩⟩

theorem supervisionSatisfied_admitUser (hreq : s.isRequested u = true)
    (h : supervisionSatisfied env s = true) : supervisionSatisfied env (s.admitUser u) = true := by
  unfold supervisionSatisfied at h ⊢
  rw [State.activity_admitUser]
  rw [Bool.or_eq_true] at h ⊢
  exact h.imp id (activeSupervisorPresent_admitUser hreq)

theorem settle_unsupervised (us : List Nat) (h : supervisionSatisfied env s = false) :
    evaluateAll env us s = s := by
  unfold evaluateAll
  induction us with
  | nil => rfl
  | cons u us ih =>
    have hstay : evaluateVote env u s = s := by
      unfold evaluateVote admitMembership
      rw [h]
      simp
    rw [List.foldl_cons, hstay, ih]

/-- A settlement with supervision. It only adds participants, and the activity stays within its
capacity exactly when the requests that clear the threshold fit. -/
theorem settle_supervised (us : List Nat) (s : State) (hplain : s.RequestsPlain)
    (hnodup : us.Nodup) (hreq : ∀ u ∈ us, s.isRequested u = true)
    (hsup : supervisionSatisfied env s = true) :
    (evaluateAll env us s).RequestsPlain ∧
      s.participantCount ≤ (evaluateAll env us s).participantCount ∧
      (evaluateAll env us s).activity = s.activity ∧
      (s.WithinCapacity → ((evaluateAll env us s).WithinCapacity ↔
        settleFits s.activity.joinThreshold s.activity.capacity (us.map s.approvals)
          s.participantCount = true)) := by
  induction us generalizing s with
  | nil => exact ⟨hplain, Nat.le_refl _, rfl, fun h => iff_of_true h rfl⟩
  | cons u us ih =>
    obtain ⟨hu, hnodup⟩ := List.nodup_cons.mp hnodup
    have hrest : ∀ v ∈ us, s.isRequested v = true := fun v hv =>
      hreq v (List.mem_cons_of_mem u hv)
    rw [show evaluateAll env (u :: us) s = evaluateAll env us (evaluateVote env u s) from rfl,
      List.map_cons]
    unfold settleFits
    by_cases hclears : clears (s.approvals u) s.participantCount s.activity.joinThreshold = true
    · -- The request clears: it is admitted, whatever the capacity.
      have hrequ : s.isRequested u = true := hreq u List.mem_cons_self
      have hone : evaluateVote env u s = s.admitUser u := by
        unfold evaluateVote admitMembership voteThresholdMet
        rw [if_pos hclears, if_pos hsup]
      have hcount := State.participantCount_admitUser hplain hrequ
      obtain ⟨hplain', hle, hactivity, hfits⟩ := ih (s.admitUser u) (hplain.admitUser u) hnodup
        (fun v hv => by
          have hne : v ≠ u := fun h => hu (by rwa [h] at hv)
          rw [State.isRequested_admitUser_of_ne hne]
          exact hrest v hv)
        (supervisionSatisfied_admitUser hrequ hsup)
      rw [State.activity_admitUser] at hactivity hfits
      rw [hone]
      refine ⟨hplain', by omega, hactivity, fun _ => ?_⟩
      rw [if_pos hclears, Bool.and_eq_true]
      have happrovals : us.map (s.admitUser u).approvals = us.map s.approvals :=
        List.map_congr_left fun v _ => State.approvals_admitUser s u v
      rw [hcount, happrovals] at hfits
      have hroom : s.activity.capacity.all (fun most => decide (s.participantCount < most)) = true ↔
          (s.admitUser u).WithinCapacity := by
        rw [within_admitUser_iff hplain hrequ, State.isFull_eq_false, Option.all_eq_true]
        simp only [decide_eq_true_eq]
      rw [hroom]
      constructor
      · intro hwithin
        -- Participants are only added, so the first admission was within the capacity too.
        have hfirst : (s.admitUser u).WithinCapacity := by
          intro capacity hcap
          rw [State.activity_admitUser] at hcap
          exact hle.trans (hwithin capacity (by rw [hactivity]; exact hcap))
        exact ⟨hfirst, (hfits hfirst).mp hwithin⟩
      · rintro ⟨hfirst, hothers⟩
        exact (hfits hfirst).mpr hothers
    · have hstay : evaluateVote env u s = s := by
        unfold evaluateVote voteThresholdMet
        rw [if_neg hclears]
      rw [hstay, if_neg hclears]
      exact ih s hplain hnodup hrest hsup

/-- `_settle_pending_joins` keeps the activity within its capacity exactly when it admits nobody
or the pending requests fit. -/
theorem settlePendingJoins_spec (env : Env) (hplain : s.RequestsPlain) (hwithin : s.WithinCapacity) :
    (settlePendingJoins env s).RequestsPlain ∧
      ((settlePendingJoins env s).WithinCapacity ↔
        (!supervisionSatisfied env s || pendingFit env s) = true) := by
  unfold settlePendingJoins
  cases hsup : supervisionSatisfied env s with
  | false =>
    rw [settle_unsupervised _ hsup]
    exact ⟨hplain, iff_of_true hwithin rfl⟩
  | true =>
    obtain ⟨hplain', -, -, hfits⟩ := settle_supervised _ s hplain (nodup_pendingJoins env s)
      (fun _ => isRequested_of_mem_pendingJoins) hsup
    exact ⟨hplain', by simpa [pendingFit] using hfits hwithin⟩

/-! ### What each call does -/

theorem commit_need {e : Error} {condition : Bool} {f : Unit → Except Error State} :
    commit s (need e condition >>= f) = if condition = true then commit s (f ()) else s := by
  cases condition <;> rfl

@[simp] theorem commit_pure : commit s (pure s') = s' := rfl

/-- A ballot admits its target, or stores at most the vote. -/
theorem castVote_outcome (env : Env) (voter target : Nat) (approve fails : Bool) (s : State) :
    (fails = false ∧ voteAdmits env voter target approve s = true ∧
        commit s (castVote env voter target approve fails s)
          = (s.setVote target voter approve).admitUser target) ∨
      ((fails || !voteAdmits env voter target approve s) = true ∧
        (commit s (castVote env voter target approve fails s) = s ∨
          commit s (castVote env voter target approve fails s)
            = s.setVote target voter approve)) := by
  unfold castVote voteAdmits
  simp only [commit_need, commit_pure]
  -- One check after the other: the first that fails ends the call without a write.
  by_cases hreq : s.isRequested target = true
  swap
  · simp [hreq]
  by_cases hne : (target != voter) = true
  swap
  · simp [hreq, hne]
  by_cases hseated : s.isSeated voter = true
  swap
  · simp [hreq, hne, hseated]
  cases fails with
  | true => simp [hreq, hne, hseated]
  | false =>
    simp only [hreq, hne, hseated, if_true, Bool.not_false, Bool.true_and, Bool.false_or]
    unfold evaluateVote admitMembership
    have hsup : supervisionSatisfied env (s.setVote target voter approve)
        = supervisionSatisfied env s := rfl
    rw [hsup]
    cases voteThresholdMet target (s.setVote target voter approve) <;>
      cases supervisionSatisfied env s <;> simp

theorem ownerAdmit_outcome (env : Env) (owner target : Nat) (fails : Bool) (s : State) :
    (fails = false ∧ overrideAdmits env owner target s = true ∧
        commit s (ownerAdmit env owner target fails s) = s.admitUser target) ∨
      ((fails || !overrideAdmits env owner target s) = true ∧
        commit s (ownerAdmit env owner target fails s) = s) := by
  unfold ownerAdmit overrideAdmits admitMembership
  simp only [commit_need, commit_pure]
  cases fails <;> cases isOrganizer owner s <;> cases s.activity.ownerCanOverride <;>
    cases s.isRequested target <;> cases supervisionSatisfied env s <;> simp

/-- A guardian is seated and the requests that waited are settled, or nobody is admitted. -/
theorem addGuardian_outcome (env : Env) (owner guardian : Nat) (fails : Bool) (s : State) :
    (fails = false ∧ seatsGuardian env owner guardian s = true ∧ s.activity.supervised = true ∧
        commit s (addGuardian env owner guardian fails s)
          = settlePendingJoins env (withGuardian guardian s)) ∨
      ((fails || !seatsGuardian env owner guardian s || !s.activity.supervised) = true ∧
        (commit s (addGuardian env owner guardian fails s) = s ∨
          commit s (addGuardian env owner guardian fails s) = withGuardian guardian s)) := by
  unfold addGuardian seatsGuardian
  simp only [commit_need]
  cases s.activity.owner == owner with
  | false => simp
  | true =>
  cases s.activity.guardianAccompanied && s.activity.cohort == .child with
  | false => simp
  | true =>
  cases env.cohort guardian == .adult && env.canParticipate guardian with
  | false => simp
  | true =>
  cases env.isGuardianOf guardian owner with
  | false => simp
  | true =>
    simp only [if_true, Bool.true_and]
    cases s.memberships.get? guardian with
    -- A guardian who has a row already is not seated again.
    | some =>
      simp only [commit_need, commit_pure, ite_self]
      simp
    | none =>
      simp only [commit_need]
      cases fails <;> cases s.activity.supervised <;> simp [commit_pure]

variable {owner : Nat}

theorem supervisionSatisfied_withGuardian {guardian : Nat}
    (h : seatsGuardian env owner guardian s = true) :
    supervisionSatisfied env (withGuardian guardian s) = true := by
  simp only [seatsGuardian, Bool.and_eq_true, beq_iff_eq] at h
  obtain ⟨⟨⟨⟨howner, -⟩, -⟩, hguardian⟩, -⟩ := h
  unfold supervisionSatisfied activeSupervisorPresent
  rw [Bool.or_eq_true, Bool.not_eq_true' (List.isEmpty _), List.isEmpty_eq_false_iff_exists_mem]
  refine Or.inr ⟨guardian, KeyMap.mem_keysWhere.mpr ⟨⟨.guardian, .member⟩, ?_, ?_⟩⟩
  · exact (State.get?_setMembership s guardian _ guardian).trans (if_pos rfl)
  · rw [show (withGuardian guardian s).activity.owner = owner from howner, hguardian]
    rfl

/-- The activity row is written and the requests are settled, or nothing changes. -/
theorem setActivitySupervision_outcome (env : Env) (owner : Nat) (supervised fails : Bool)
    (s : State) :
    (fails = false ∧ setsSupervision owner supervised s = true ∧
        commit s (setActivitySupervision env owner supervised fails s)
          = settlePendingJoins env (withSupervision supervised s)) ∨
      ((fails || !setsSupervision owner supervised s) = true ∧
        commit s (setActivitySupervision env owner supervised fails s) = s) := by
  unfold setActivitySupervision setsSupervision
  simp only [commit_need, commit_pure]
  cases fails <;> cases s.activity.owner == owner <;> cases s.activity.status == .opened <;>
    cases supervised && s.activity.cohort != .child <;> simp

/-! #### Calls that admit nobody -/

theorem updateActivity_keeps {changes : Changes}
    (h : updateActivity env owner changes fails s = .ok s') : Keeps s s' := by
  unfold updateActivity at h
  simp only [seq_eq_ok, need_eq_ok, pure_eq_ok] at h
  obtain ⟨-, -, -, -, hroom, -, -, -, rfl⟩ := h
  refine Keeps.activity _ (fun capacity hcap => Or.inr ?_) id
  rw [hcap] at hroom
  simpa using hroom

theorem moveActivity_keeps {place : Nat}
    (h : moveActivity env owner place fails s = .ok s') : Keeps s s' := by
  obtain rfl | rfl := moveActivity_spec h
  · exact Keeps.refl s'
  · exact Keeps.activity _ (fun _ hcap => Or.inl hcap) id

theorem cancelActivity_keeps (h : cancelActivity owner fails s = .ok s') :
    Keeps s s' := by
  unfold cancelActivity at h
  simp only [seq_eq_ok, need_eq_ok, pure_eq_ok] at h
  obtain ⟨-, -, -, rfl⟩ := h
  exact Keeps.activity _ (fun _ hcap => Or.inl hcap) id

theorem completeActivity_keeps (s : State) : Keeps s (completeActivity s) := by
  unfold completeActivity
  split
  · exact Keeps.activity _ (fun _ hcap => Or.inl hcap) id
  · exact Keeps.refl s

variable {user : Nat}

theorem requestToJoin_keeps (h : requestToJoin env user fails s = .ok s') :
    Keeps s s' := by
  unfold requestToJoin at h
  simp only [seq_eq_ok, need_eq_ok, pure_eq_ok] at h
  obtain ⟨-, -, -, rfl⟩ := h
  exact Keeps.setMembership user (fun h => by cases h) (fun _ h => by cases h)

theorem leaveActivity_keeps (h : leaveActivity user s = .ok s') : Keeps s s' := by
  unfold leaveActivity at h
  split at h
  · cases h
    exact Keeps.refl s
  split at h
  · cases h
    exact Keeps.refl s
  · simp only [seq_eq_ok, need_eq_ok, pure_eq_ok] at h
    obtain ⟨-, rfl⟩ := h
    exact Keeps.setMembership user (fun h => by cases h) (fun h => by cases h)

theorem grantCoOrganizer_keeps {member : Nat}
    (h : grantCoOrganizer env owner member fails s = .ok s') : Keeps s s' := by
  obtain ⟨-, m, heligible, rfl⟩ := grantCoOrganizer_spec h
  obtain ⟨-, hget, hseat⟩ := coorgEligible_eq_some heligible
  exact Keeps.setRole .coOrganizer hget hseat

theorem revokeCoOrganizer_keeps {member : Nat}
    (h : revokeCoOrganizer owner member fails s = .ok s') : Keeps s s' := by
  obtain ⟨hget, rfl⟩ := revokeCoOrganizer_spec h
  exact Keeps.setRole .member hget rfl

theorem stepDown_keeps (owner : Nat) (s : State) : Keeps s (stepDown owner s) := by
  unfold stepDown
  split
  · rename_i m hfilter
    obtain ⟨hget, hcond⟩ := Option.filter_eq_some_iff.mp hfilter
    simp only [Bool.and_eq_true, beq_iff_eq] at hcond
    exact Keeps.setRole .member hget (by simp [Membership.isSeat, hcond.1, hcond.2])
  · exact Keeps.refl s

theorem transferOwnership_keeps {newOwner : Nat}
    (h : transferOwnership env owner newOwner fails s = .ok s') : Keeps s s' := by
  obtain ⟨-, -, m, heligible, rfl⟩ := transferOwnership_spec h
  obtain ⟨-, hget, hseat⟩ := coorgEligible_eq_some heligible
  have howner : Keeps s { s with activity := { s.activity with owner := newOwner } } :=
    Keeps.activity _ (fun _ hcap => Or.inl hcap) id
  exact (howner.trans (Keeps.setRole .owner hget hseat)).trans (stepDown_keeps owner _)

end

/-! ### One call -/

/-- What `operate_within` says of a call and of the state it leaves. -/
def KeptWithin (env : Env) (s : State) (op : Op) (t : State) : Prop :=
  t.RequestsPlain ∧ (t.WithinCapacity ↔ hasRoom env s op = true)

variable {env : Env}

theorem KeptWithin.of_keeps {s t : State} {op : Op} (h : Keeps s t)
    (hplain : s.RequestsPlain) (hwithin : s.WithinCapacity) (hroom : hasRoom env s op = true) :
    KeptWithin env s op t :=
  ⟨h.plain hplain, iff_of_true (h.within hwithin) hroom⟩

theorem castVote_within {s : State} (voter target : Nat) (approve fails : Bool)
    (hplain : s.RequestsPlain) (hwithin : s.WithinCapacity) :
    KeptWithin env s (.castVote voter target approve fails)
      (commit s (operate env s (.castVote voter target approve fails))) := by
  have hvote : Keeps s (s.setVote target voter approve) := Keeps.votes _
  simp only [operate]
  rcases castVote_outcome env voter target approve fails s with
    ⟨hfails, hadmits, heq⟩ | ⟨hnone, heq⟩
  · have hreq : (s.setVote target voter approve).isRequested target = true := by
      simp only [voteAdmits, Bool.and_eq_true] at hadmits
      exact hadmits.1.1.1.1
    unfold KeptWithin
    rw [heq, within_admitUser_iff (hvote.plain hplain) hreq]
    refine ⟨(hvote.plain hplain).admitUser target, ?_⟩
    simp only [hasRoom, hfails, hadmits, Bool.false_or, Bool.not_true, Bool.not_eq_true']
    exact Iff.rfl
  · have hroom : hasRoom env s (.castVote voter target approve fails) = true := by
      rw [hasRoom, hnone, Bool.true_or]
    rcases heq with heq | heq <;> rw [heq]
    · exact KeptWithin.of_keeps (Keeps.refl s) hplain hwithin hroom
    · exact KeptWithin.of_keeps hvote hplain hwithin hroom

theorem ownerAdmit_within {s : State} (owner target : Nat) (fails : Bool)
    (hplain : s.RequestsPlain) (hwithin : s.WithinCapacity) :
    KeptWithin env s (.ownerAdmit owner target fails)
      (commit s (operate env s (.ownerAdmit owner target fails))) := by
  simp only [operate]
  rcases ownerAdmit_outcome env owner target fails s with
    ⟨hfails, hadmits, heq⟩ | ⟨hnone, heq⟩
  · have hreq : s.isRequested target = true := by
      simp only [overrideAdmits, Bool.and_eq_true] at hadmits
      exact hadmits.1.2
    unfold KeptWithin
    rw [heq, within_admitUser_iff hplain hreq]
    refine ⟨hplain.admitUser target, ?_⟩
    simp [hasRoom, hfails, hadmits]
  · have hroom : hasRoom env s (.ownerAdmit owner target fails) = true := by
      rw [hasRoom, hnone, Bool.true_or]
    rw [heq]
    exact KeptWithin.of_keeps (Keeps.refl s) hplain hwithin hroom

theorem addGuardian_within {s : State} (owner guardian : Nat) (fails : Bool)
    (hplain : s.RequestsPlain) (hwithin : s.WithinCapacity) :
    KeptWithin env s (.addGuardian owner guardian fails)
      (commit s (operate env s (.addGuardian owner guardian fails))) := by
  have hrow : Keeps s (withGuardian guardian s) :=
    Keeps.setMembership guardian (fun h => by cases h) (fun h => by cases h)
  simp only [operate]
  rcases addGuardian_outcome env owner guardian fails s with
    ⟨hfails, hseats, hsupervised, heq⟩ | ⟨hnone, heq⟩
  · obtain ⟨hplain', hfits⟩ :=
      settlePendingJoins_spec env (hrow.plain hplain) (hrow.within hwithin)
    rw [supervisionSatisfied_withGuardian hseats] at hfits
    unfold KeptWithin
    rw [heq, hasRoom, hfails, hseats, hsupervised]
    exact ⟨hplain', hfits⟩
  · have hroom : hasRoom env s (.addGuardian owner guardian fails) = true := by
      rw [hasRoom, hnone, Bool.true_or]
    rcases heq with heq | heq <;> rw [heq]
    · exact KeptWithin.of_keeps (Keeps.refl s) hplain hwithin hroom
    · exact KeptWithin.of_keeps hrow hplain hwithin hroom

theorem setSupervision_within {s : State} (owner : Nat) (supervised fails : Bool)
    (hplain : s.RequestsPlain) (hwithin : s.WithinCapacity) :
    KeptWithin env s (.setSupervision owner supervised fails)
      (commit s (operate env s (.setSupervision owner supervised fails))) := by
  simp only [operate]
  rcases setActivitySupervision_outcome env owner supervised fails s with
    ⟨hfails, hsets, heq⟩ | ⟨hnone, heq⟩
  · have hplain' : (withSupervision supervised s).RequestsPlain := hplain
    have hwithin' : (withSupervision supervised s).WithinCapacity := hwithin
    obtain ⟨hplain'', hfits⟩ := settlePendingJoins_spec env hplain' hwithin'
    unfold KeptWithin
    rw [heq, hasRoom, hfails, hsets]
    exact ⟨hplain'', hfits⟩
  · have hroom : hasRoom env s (.setSupervision owner supervised fails) = true := by
      rw [hasRoom, hnone, Bool.true_or, Bool.true_or]
    rw [heq]
    exact KeptWithin.of_keeps (Keeps.refl s) hplain hwithin hroom

/-- A call keeps the pending requests plain. From within its capacity the activity stays there
exactly when each admission of the call finds a free position. -/
theorem operate_within {s : State} (op : Op) (hplain : s.RequestsPlain)
    (hwithin : s.WithinCapacity) :
    (commit s (operate env s op)).RequestsPlain ∧
      ((commit s (operate env s op)).WithinCapacity ↔ hasRoom env s op = true) := by
  -- A call that can admit nobody has room by definition.
  have hquiet : ∀ t, Keeps s t → t.RequestsPlain ∧ (t.WithinCapacity ↔ true = true) :=
    fun t h => ⟨h.plain hplain, iff_of_true (h.within hwithin) rfl⟩
  have hcommit : ∀ x : Except Error State, (∀ t, x = .ok t → Keeps s t) →
      (commit s x).RequestsPlain ∧ ((commit s x).WithinCapacity ↔ true = true) := by
    intro x hx
    cases x with
    | error => exact hquiet s (Keeps.refl s)
    | ok t => exact hquiet t (hx t rfl)
  cases op with
  | castVote voter target approve fails =>
    exact castVote_within voter target approve fails hplain hwithin
  | ownerAdmit owner target fails => exact ownerAdmit_within owner target fails hplain hwithin
  | addGuardian owner guardian fails =>
    exact addGuardian_within owner guardian fails hplain hwithin
  | setSupervision owner supervised fails =>
    exact setSupervision_within owner supervised fails hplain hwithin
  | create => exact hquiet s (Keeps.refl s)
  | requestToJoin => exact hcommit _ fun _ => requestToJoin_keeps
  | leave => exact hcommit _ fun _ => leaveActivity_keeps
  | update => exact hcommit _ fun _ => updateActivity_keeps
  | move => exact hcommit _ fun _ => moveActivity_keeps
  | cancel => exact hcommit _ fun _ => cancelActivity_keeps
  | complete => exact hquiet _ (completeActivity_keeps s)
  | grantCoOrganizer => exact hcommit _ fun _ => grantCoOrganizer_keeps
  | revokeCoOrganizer => exact hcommit _ fun _ => revokeCoOrganizer_keeps
  | transferOwnership => exact hcommit _ fun _ => transferOwnership_keeps
  | setHidden => exact hquiet _ (Keeps.activity _ (fun _ hcap => Or.inl hcap) id)
  | erase u => exact hquiet _ (Keeps.eraseUser s u)

/-- The request that the call decides. -/
def Op.decides : Op → Option Nat
  | .castVote _ target _ _ => some target
  | .ownerAdmit _ target _ => some target
  | _ => none

theorem operate_refuses {s : State} {op : Op} {u : Nat}
    (hroom : hasRoom env s op = true) (hfull : s.isFull = true) (hdecides : op.decides = some u)
    (hreq : s.isRequested u = true) : (commit s (operate env s op)).isRequested u = true := by
  cases op with
  | castVote voter target approve fails =>
    cases hdecides
    simp only [hasRoom, hfull, Bool.not_true, Bool.or_false] at hroom
    simp only [operate]
    rcases castVote_outcome env voter u approve fails s with ⟨hfails, hadmits, -⟩ | ⟨-, heq⟩
    · rw [hfails, hadmits] at hroom
      cases hroom
    · rcases heq with heq | heq <;> rw [heq] <;> exact hreq
  | ownerAdmit owner target fails =>
    cases hdecides
    simp only [hasRoom, hfull, Bool.not_true, Bool.or_false] at hroom
    simp only [operate]
    rcases ownerAdmit_outcome env owner u fails s with ⟨hfails, hadmits, -⟩ | ⟨-, heq⟩
    · rw [hfails, hadmits] at hroom
      cases hroom
    · rw [heq]
      exact hreq
  | _ => cases hdecides

/-! ### Every run -/

/-- The activity, if there is one, is within its capacity. -/
def Within (s : Option State) : Prop := ∀ t ∈ s, t.WithinCapacity

/-- The pending requests of the activity, if there is one, are plain. -/
def Plain (s : Option State) : Prop := ∀ t ∈ s, t.RequestsPlain

theorem participantCount_created (cohort : Cohort) (owner : Nat) (new : NewActivity)
    (guardianAccompanied : Bool) (threshold : Magnitude) :
    (created cohort owner new guardianAccompanied threshold).participantCount = 1 :=
  rfl

theorem createActivity_eq_ok {owner : Nat} {new : NewActivity} {fails : Bool}
    {s : State} (h : createActivity env owner new fails = .ok s) :
    s.RequestsPlain ∧ (s.WithinCapacity ↔ new.capacity ≠ some 0) := by
  unfold createActivity at h
  simp only [seq_eq_ok, need_eq_ok, pure_eq_ok] at h
  obtain ⟨-, -, -, -, -, -, -, -, -, -, -, rfl⟩ := h
  constructor
  · intro u m hget hstate
    simp only [created, KeyMap.get?_set, KeyMap.get?_empty] at hget
    split at hget
    · cases hget
      cases hstate
    · cases hget
  · unfold State.WithinCapacity
    rw [participantCount_created]
    constructor
    · intro hwithin hzero
      exact absurd (hwithin 0 hzero) (by omega)
    · intro hne capacity hcap
      have hcap : new.capacity = some capacity := hcap
      have hpos : capacity ≠ 0 := fun hzero => hne (hzero ▸ hcap)
      omega

theorem step_within (s : Option State) (p : Env × Op) (hs : Plain s ∧ Within s) :
    Plain (step s p) ∧ (Within (step s p) ↔ StepHasRoom s p) := by
  obtain ⟨env, op⟩ := p
  have hnone : Plain none ∧ Within none := ⟨fun t ht => (by cases ht), fun t ht => (by cases ht)⟩
  cases s with
  | none =>
    cases op with
    | create owner new fails =>
      simp only [step, StepHasRoom]
      -- A creation starts with one participant, so the capacity must not be zero.
      cases hcreate : createActivity env owner new fails with
      | error => exact ⟨hnone.1, iff_of_true hnone.2 (fun h => by cases h)⟩
      | ok t =>
        obtain ⟨hplain, hwithin⟩ := createActivity_eq_ok hcreate
        refine ⟨fun u hu => by cases hu; exact hplain, ?_⟩
        constructor
        · intro h _
          exact hwithin.mp (h t rfl)
        · intro h u hu
          cases hu
          exact hwithin.mpr (h rfl)
    | _ => exact ⟨hnone.1, iff_of_true hnone.2 trivial⟩
  | some t =>
    simp only [step, StepHasRoom]
    by_cases hdelete : deletes t op = true
    · rw [if_pos hdelete]
      exact ⟨hnone.1, iff_of_true hnone.2 (Or.inl hdelete)⟩
    · rw [if_neg hdelete]
      obtain ⟨hplain, hwithin⟩ := operate_within op (hs.1 t rfl) (hs.2 t rfl)
      refine ⟨fun u hu => by cases hu; exact hplain, ?_⟩
      constructor
      · intro h
        exact Or.inr (hwithin.mp (h _ rfl))
      · intro h u hu
        cases hu
        exact hwithin.mpr (h.resolve_left hdelete)

/-- A full activity refuses: a request that the step decides still waits after it. -/
def Refuses (s : Option State) (p : Env × Op) : Prop :=
  ∀ t ∈ s, t.isFull = true → ∀ u, p.2.decides = some u → t.isRequested u = true →
    ∀ t' ∈ step s p, t'.isRequested u = true

theorem refuses_of_stepHasRoom {s : Option State} {p : Env × Op} (h : StepHasRoom s p) :
    Refuses s p := by
  obtain ⟨env, op⟩ := p
  intro t ht hfull u hdecides hreq t' ht'
  cases ht
  have hdelete : deletes t op = false := by
    cases op <;> first | rfl | cases hdecides
  simp only [StepHasRoom, hdelete, Bool.false_eq_true, false_or] at h
  simp only [step, hdelete, Bool.false_eq_true, if_false] at ht'
  cases ht'
  exact operate_refuses h hfull hdecides hreq

/-- A run keeps the activity within its capacity, and refuses to admit to a full one by vote or
by override, exactly when each of its admissions finds a free position and the activity is not
created with the capacity 0. -/
theorem capacity_iff (ops : List (Env × Op)) :
    (∀ p ∈ steps step none ops, Within (step p.1 p.2) ∧ Refuses p.1 p.2) ↔
      ∀ p ∈ steps step none ops, StepHasRoom p.1 p.2 := by
  have hstart : Plain none ∧ Within none := ⟨fun t ht => (by cases ht), fun t ht => (by cases ht)⟩
  have hrun := Machine.forall_steps_iff StepHasRoom (fun s p hs => (step_within s p hs).2)
    (fun s p hs hwithin => ⟨(step_within s p hs).1, hwithin⟩) hstart ops
  constructor
  · intro h
    exact hrun.mp fun p hp => (h p hp).1
  · intro h p hp
    exact ⟨hrun.mpr h p hp, refuses_of_stepHasRoom (h p hp)⟩

/-! ### A full activity that admits -/

/-- Adults whom every gate accepts. -/
def openEnv : Env where
  now := 0
  cohort _ := .adult
  canParticipate _ := true
  canCreateActivity _ := true
  isGuardianOf _ _ := false
  passesGuardrails _ := true
  categoryAllows _ _ := true
  childPublicVenuesOnly := true
  isChildSafeVenue _ := true
  publicPlace _ := true
  ownPendingPlace _ _ := false
  order := ⟨id, fun l => List.Perm.refl l⟩

/-- User 1 creates an activity for two, and 2 and 3 ask to join while a position is free. User 1
approves 2, and the activity is full. -/
def twoRequestOps : List (Env × Op) :=
  [(openEnv, .create 1 ⟨1, 1, 10, none, none, some 2, none, false, false, true⟩ false),
   (openEnv, .requestToJoin 2 false),
   (openEnv, .requestToJoin 3 false),
   (openEnv, .castVote 1 2 true false)]

/-- The override admits 3 to the full activity: three participants, for a capacity of two. -/
theorem full_activity_admits :
    (∃ s ∈ run step none twoRequestOps, s.isFull = true ∧ s.isRequested 3 = true) ∧
      ∃ s ∈ run step none (twoRequestOps ++ [(openEnv, .ownerAdmit 1 3 false)]),
        s.isSeated 3 = true ∧ ¬ s.WithinCapacity := by
  decide +kernel

end SocialActivities.Social.Py
