import SocialActivities.Lib.Machine
import SocialActivities.Places.ReviewState

/-!
# `SocialActivities.Places.ReviewRuns`: what a proposal or correction becomes

`Lifecycle` says of a run of requests what the services are for: the row is published exactly when
staff have published it or enough members have confirmed it while it was pending, and staff have
not reverted it since; a rejected row stays rejected; and no confirmation is recorded once the row
is not pending.

A commit keeps this when the row is still in a status that its request may act on, and when a
confirmation that does not publish leaves the committed ones below the number. That is `Sound`.
`review_lifecycle` proves that a run has its lifecycle exactly when all its steps are sound.

`step_cases` says what a step can commit: nothing, a confirmation, or a save. For each of these the
step keeps the lifecycle exactly when it is sound (`keeps_iff`), where the state is `Consistent`.
-/

namespace SocialActivities.Places

open Lib
open Lib.Machine (run steps Since)

section
variable (subject : Subject) (calls : Nat → Call)

/-- The step commits the transaction of a request. -/
def Commits (s : Review) (op : ReviewOp) (request : Nat) : Prop :=
  (∀ result, s.phase request ≠ .ended result) ∧
    ∃ status, (s.step subject calls op).phase request = .ended (some (.ok status))

/-- Staff publish the row, or the confirmations reach the number while it is pending. -/
def Publishes (s : Review) (op : ReviewOp) : Prop :=
  (∃ request staffUser isStaff, calls request = .publish staffUser isStaff ∧
    Commits subject calls s op request) ∨
  s.status = .pending ∧ s.confirmers subject < subject.requiredConfirmations ∧
    subject.requiredConfirmations ≤ (s.step subject calls op).confirmers subject

/-- Staff revert a correction. -/
def Reverts (s : Review) (op : ReviewOp) : Prop :=
  subject.kind ≠ .proposal ∧ ∃ request staffUser isStaff reason,
    calls request = .reject staffUser isStaff reason ∧ Commits subject calls s op request

/-- What the services promise of a run from a new row, in every state that it reaches. -/
structure Lifecycle (openNowReports : List Nat) (ops : List ReviewOp) : Prop where
  published : ∀ before after, ops = before ++ after →
    ((run (Review.step subject calls) (.created openNowReports) before).status = .published ↔
      Since (Review.step subject calls) (Publishes subject calls) (Reverts subject calls)
        (.created openNowReports) before)
  rejected : ∀ q ∈ steps (Review.step subject calls) (.created openNowReports) ops,
    q.1.status = .rejected → (q.1.step subject calls q.2).status = .rejected
  confirmed : ∀ q ∈ steps (Review.step subject calls) (.created openNowReports) ops,
    (q.1.step subject calls q.2).confirmations ≠ q.1.confirmations → q.1.status = .pending

/-- If a request in this phase commits: one with a confirmation finds the row pending, one that
publishes finds it not rejected, the rejection of a proposal finds it not published, and a
confirmation that does not publish leaves the committed ones below the number. -/
def Phase.Sound (s : Review) : Phase → Prop
  | .counted row false =>
    row ≠ none → s.status = .pending ∧ s.count row < subject.requiredConfirmations
  | .saved row write =>
    (row ≠ none → s.status = .pending) ∧
      (write.status = .published → s.status ≠ .rejected) ∧
      (subject.kind = .proposal → write.status = .rejected → s.status ≠ .published)
  | _ => True

/-- A commit of the step meets this condition. -/
def Sound (s : Review) : ReviewOp → Prop
  | .next request _ => (s.phase request).Sound subject s
  | _ => True

end

section
variable {subject : Subject} {calls : Nat → Call} {s : Review} {request : Nat}

/-! ### What a step does -/

/-- A step that commits nothing: what is committed is as before, and no request has ended well. -/
structure Quiet (s t : Review) : Prop where
  status : t.status = s.status
  confirmations : t.confirmations = s.confirmations
  ended : ∀ request status, t.phase request = .ended (some (.ok status)) →
    s.phase request = .ended (some (.ok status))

/-- A request commits its confirmation without a save. -/
structure CommitsRow (subject : Subject) (calls : Nat → Call) (s : Review) (op : ReviewOp)
    (request : Nat) (row : Option Nat) : Prop where
  next : ∃ now, op = .next request now
  phase : s.phase request = .counted row false
  status : (s.step subject calls op).status = s.status
  confirmations : (s.step subject calls op).confirmations = s.confirmations ++ row.toList
  request : (s.step subject calls op).phase =
    Function.update s.phase request (.ended (some (.ok .pending)))

/-- A request commits its save, and its confirmation. -/
structure CommitsWrite (subject : Subject) (calls : Nat → Call) (s : Review) (op : ReviewOp)
    (request : Nat) (row : Option Nat) (write : Write) : Prop where
  next : ∃ now, op = .next request now
  phase : s.phase request = .saved row write
  status : (s.step subject calls op).status = write.status
  confirmations : (s.step subject calls op).confirmations = s.confirmations ++ row.toList
  request : (s.step subject calls op).phase =
    Function.update s.phase request (.ended (some (.ok write.status)))

theorem Quiet.refl (s : Review) : Quiet s s := ⟨rfl, rfl, fun _ _ h => h⟩

theorem quiet_goto (s : Review) (request : Nat) {phase : Phase}
    (hphase : ∀ status, phase ≠ .ended (some (.ok status))) : Quiet s (s.goto request phase) := by
  refine ⟨rfl, rfl, fun other status h => ?_⟩
  rw [phase_goto] at h
  by_cases hsame : other = request
  · rw [if_pos hsame] at h
    exact absurd h (hphase status)
  · rwa [if_neg hsame] at h

theorem quiet_save (s : Review) (request : Nat) (row : Option Nat) (write : Write) :
    Quiet s (s.save request row write) := by
  unfold Review.save
  cases s.lock with
  | some => exact Quiet.refl s
  | none =>
    have hgoto : Quiet { s with lock := some request }
        ({ s with lock := some request }.goto request (.saved row write)) :=
      quiet_goto _ request fun _ h => (by cases h)
    exact ⟨hgoto.status, hgoto.confirmations, hgoto.ended⟩

theorem quiet_getOrCreate (s : Review) (request user : Nat) :
    Quiet s (s.getOrCreate request user) := by
  unfold Review.getOrCreate
  by_cases hmem : user ∈ s.confirmations
  · rw [if_pos hmem]
    exact quiet_goto s request fun _ h => (by cases h)
  · rw [if_neg hmem]
    by_cases hwaits : user ∈ s.inserting
    · rw [if_pos hwaits]
      exact Quiet.refl s
    · rw [if_neg hwaits]
      have hgoto : Quiet { s with inserting := user :: s.inserting }
          ({ s with inserting := user :: s.inserting }.goto request (.recorded (some user))) :=
        quiet_goto _ request fun _ h => (by cases h)
      exact ⟨hgoto.status, hgoto.confirmations, hgoto.ended⟩

theorem confirmations_commitRow (s : Review) (row : Option Nat) :
    (s.commitRow row).confirmations = s.confirmations ++ row.toList := by
  cases row with
  | none => exact (List.append_nil _).symm
  | some => rfl

theorem status_commitRow (s : Review) (row : Option Nat) : (s.commitRow row).status = s.status := by
  cases row <;> rfl

theorem phase_commitRow (s : Review) (row : Option Nat) : (s.commitRow row).phase = s.phase := by
  cases row <;> rfl

theorem step_cases (subject : Subject) (calls : Nat → Call) (s : Review) (op : ReviewOp) :
    Quiet s (s.step subject calls op) ∧ Sound subject s op ∨
    (∃ request row, CommitsRow subject calls s op request row) ∨
    ∃ request row write, CommitsWrite subject calls s op request row write := by
  cases op with
  | load request =>
    refine Or.inl ⟨?_, trivial⟩
    rw [Review.step]
    cases s.phase request with
    | idle => exact quiet_goto s request fun _ h => (by cases h)
    | _ => exact Quiet.refl s
  | rollback request =>
    refine Or.inl ⟨?_, trivial⟩
    show Quiet s (s.rollback request)
    unfold Review.rollback
    have hgoto : Quiet s (s.goto request (.ended none)) :=
      quiet_goto s request fun _ h => (by cases h)
    cases s.phase request with
    | ended => exact Quiet.refl s
    | _ => exact ⟨hgoto.status, hgoto.confirmations, hgoto.ended⟩
  | next request now =>
    show Quiet s (s.next subject calls request now) ∧ _ ∨ _
    cases hphase : s.phase request with
    | counted row enough =>
      cases enough with
      | false =>
        have hstep : s.step subject calls (.next request now) =
            (s.commitRow row).goto request (.ended (some (.ok .pending))) := by
          show s.next subject calls request now = _
          unfold Review.next
          rw [hphase]
        refine Or.inr (Or.inl ⟨request, row, ⟨now, rfl⟩, hphase, ?_, ?_, ?_⟩)
        · rw [hstep]
          exact status_commitRow s row
        · rw [hstep]
          exact confirmations_commitRow s row
        · rw [hstep, ← phase_commitRow s row]
          rfl
      | true =>
        refine Or.inl ⟨?_, ?_⟩
        · unfold Review.next
          rw [hphase]
          exact quiet_save ..
        · show (s.phase request).Sound subject s
          rw [hphase]
          trivial
    | saved row write =>
      have hstep : s.step subject calls (.next request now) =
          ((s.commitRow row).commitWrite write).goto request
            (.ended (some (.ok write.status))) := by
        show s.next subject calls request now = _
        unfold Review.next
        rw [hphase]
      refine Or.inr (Or.inr ⟨request, row, write, ⟨now, rfl⟩, hphase, ?_, ?_, ?_⟩)
      · rw [hstep]
        rfl
      · rw [hstep]
        exact confirmations_commitRow s row
      · rw [hstep, ← phase_commitRow s row]
        rfl
    | _ =>
      -- The other phases commit nothing.
      refine Or.inl ⟨?_, ?_⟩
      · unfold Review.next
        rw [hphase]
        dsimp only
        first
          | exact Quiet.refl s
          | exact quiet_goto s request fun _ h => (by cases h)
          | (split
             · exact quiet_goto s request fun _ h => (by cases h)
             · exact quiet_goto s request fun _ h => (by cases h))
          | (split
             · exact quiet_getOrCreate ..
             · exact quiet_save ..
             · exact quiet_save ..)
      · show (s.phase request).Sound subject s
        rw [hphase]
        trivial

/-! ### One step of a run -/

theorem not_commits_of_quiet {op : ReviewOp} (hquiet : Quiet s (s.step subject calls op))
    (request : Nat) : ¬Commits subject calls s op request := by
  rintro ⟨hopen, status, hended⟩
  exact hopen _ (hquiet.ended request status hended)

theorem eq_of_commits {op : ReviewOp} {other : Nat} {phase : Phase}
    (hphase : (s.step subject calls op).phase = Function.update s.phase request phase)
    (h : Commits subject calls s op other) : other = request := by
  obtain ⟨hopen, status, hended⟩ := h
  by_contra hne
  rw [hphase, Function.update_of_ne hne] at hended
  exact hopen _ hended

theorem not_reached {t : Review} (hsame : t.confirmations = s.confirmations) :
    ¬(s.confirmers subject < subject.requiredConfirmations ∧
      subject.requiredConfirmations ≤ t.confirmers subject) := by
  unfold Review.confirmers
  rw [hsame]
  omega

/-- The step keeps the lifecycle, where the row has or has not been published before. -/
structure Keeps (subject : Subject) (calls : Nat → Call) (s : Review) (op : ReviewOp)
    (inForce : Prop) : Prop where
  published : (s.step subject calls op).status = .published ↔
    Publishes subject calls s op ∨ inForce ∧ ¬Reverts subject calls s op
  rejected : s.status = .rejected → (s.step subject calls op).status = .rejected
  confirmed : (s.step subject calls op).confirmations ≠ s.confirmations → s.status = .pending

section
variable {op : ReviewOp} {inForce : Prop}

theorem keeps_of_quiet (hquiet : Quiet s (s.step subject calls op))
    (hforce : s.status = .published ↔ inForce) : Keeps subject calls s op inForce := by
  have hpublishes : ¬Publishes subject calls s op := by
    rintro (⟨request, staffUser, isStaff, hcall, hcommits⟩ | ⟨hpending, hreached⟩)
    · exact not_commits_of_quiet hquiet request hcommits
    · exact not_reached hquiet.confirmations hreached
  have hreverts : ¬Reverts subject calls s op := by
    rintro ⟨hkind, request, staffUser, isStaff, reason, hcall, hcommits⟩
    exact not_commits_of_quiet hquiet request hcommits
  refine ⟨?_, fun h => hquiet.status.trans h, fun h => absurd hquiet.confirmations h⟩
  rw [hquiet.status, hforce]
  exact ⟨fun h => Or.inr ⟨h, hreverts⟩, fun h => (h.resolve_left hpublishes).1⟩

theorem confirmers_commit (hs : Consistent subject calls s) {row : Option Nat}
    (hconfirmations : (s.step subject calls op).confirmations = s.confirmations ++ row.toList) :
    (s.step subject calls op).confirmers subject = s.count row := by
  rw [confirmers_eq (consistent_step hs op), hconfirmations, List.length_append]
  rfl

theorem adds_iff {row : Option Nat}
    (hconfirmations : (s.step subject calls op).confirmations = s.confirmations ++ row.toList) :
    (s.step subject calls op).confirmations ≠ s.confirmations ↔ row ≠ none := by
  rw [hconfirmations]
  cases row with
  | none => exact iff_of_false (fun hne => hne (List.append_nil _)) (fun hne => hne rfl)
  | some user =>
    refine iff_of_true (fun hsame => ?_) (fun hnone => by cases hnone)
    have hnil : [user] = [] := List.append_cancel_left (hsame.trans (List.append_nil _).symm)
    cases hnil

/-! The commit of a confirmation is no decision of staff. -/

section
variable {phase : Phase}

theorem publishes_of_confirms_iff (hconfirms : (calls request).confirms = true)
    (hrequest : (s.step subject calls op).phase = Function.update s.phase request phase) :
    Publishes subject calls s op ↔
      s.status = .pending ∧ s.confirmers subject < subject.requiredConfirmations ∧
        subject.requiredConfirmations ≤ (s.step subject calls op).confirmers subject := by
  refine or_iff_right ?_
  rintro ⟨other, staffUser, isStaff, hcall, hcommits⟩
  rw [← eq_of_commits hrequest hcommits, hcall] at hconfirms
  cases hconfirms

theorem not_reverts_of_confirms (hconfirms : (calls request).confirms = true)
    (hrequest : (s.step subject calls op).phase = Function.update s.phase request phase) :
    ¬Reverts subject calls s op := by
  rintro ⟨-, other, staffUser, isStaff, reason, hcall, hcommits⟩
  rw [← eq_of_commits hrequest hcommits, hcall] at hconfirms
  cases hconfirms

end

/-! A confirmation that commits without a save. -/

theorem sound_commitsRow_iff {row : Option Nat} (h : CommitsRow subject calls s op request row) :
    Sound subject s op ↔
      (row ≠ none → s.status = .pending ∧ s.count row < subject.requiredConfirmations) := by
  obtain ⟨now, rfl⟩ := h.next
  show (s.phase request).Sound subject s ↔ _
  rw [h.phase]
  rfl

theorem keeps_commitsRow_iff (hs : Consistent subject calls s)
    (hforce : s.status = .published ↔ inForce)
    (hbelow : s.status = .pending → s.confirmations.length < subject.requiredConfirmations)
    {row : Option Nat} (h : CommitsRow subject calls s op request row) :
    Keeps subject calls s op inForce ↔ Sound subject s op := by
  have hfits := hs.fits request
  rw [h.phase] at hfits
  have hadds := adds_iff h.confirmations
  have hcount := confirmers_commit hs h.confirmations
  have hpublishes := publishes_of_confirms_iff hfits.1 h.request
  have hreverts := not_reverts_of_confirms hfits.1 h.request
  rw [sound_commitsRow_iff h]
  constructor
  · intro hkeeps hrow
    have hpending := hkeeps.confirmed (hadds.mpr hrow)
    refine ⟨hpending, Nat.lt_of_not_le fun hreached => ?_⟩
    -- The confirmations reach the number, and the row is left pending.
    have hpublished : (s.step subject calls op).status = .published := by
      refine hkeeps.published.mpr (Or.inl (hpublishes.mpr ⟨hpending, ?_, ?_⟩))
      · rw [confirmers_eq hs]
        exact hbelow hpending
      · rw [hcount]
        exact hreached
    rw [h.status, hpending] at hpublished
    cases hpublished
  · intro hrow
    have hnot : ¬Publishes subject calls s op := by
      rw [hpublishes]
      rintro ⟨-, hreached⟩
      cases row with
      | none => exact not_reached (h.confirmations.trans (List.append_nil _)) hreached
      | some =>
        rw [hcount] at hreached
        exact Nat.not_le_of_lt (hrow (by simp)).2 hreached.2
    refine ⟨?_, fun hrejected => h.status.trans hrejected, fun hnew => (hrow (hadds.mp hnew)).1⟩
    rw [h.status, hforce]
    exact ⟨fun hold => Or.inr ⟨hold, hreverts⟩, fun hnew => (hnew.resolve_left hnot).1⟩

/-! A request that commits with a save: a confirmation, or a decision of staff. -/

section
variable {row : Option Nat} {write : Write}

theorem commits_of_commitsWrite (h : CommitsWrite subject calls s op request row write) :
    Commits subject calls s op request := by
  refine ⟨fun result hended => ?_, write.status, ?_⟩
  · rw [h.phase] at hended
    cases hended
  · rw [h.request, Function.update_self]

theorem sound_commitsWrite_iff (h : CommitsWrite subject calls s op request row write) :
    Sound subject s op ↔ (row ≠ none → s.status = .pending) ∧
      (write.status = .published → s.status ≠ .rejected) ∧
      (subject.kind = .proposal → write.status = .rejected → s.status ≠ .published) := by
  obtain ⟨now, rfl⟩ := h.next
  show (s.phase request).Sound subject s ↔ _
  rw [h.phase]
  rfl

/-- The confirmation that reaches the number publishes the row. -/
theorem keeps_confirm_iff (hs : Consistent subject calls s)
    (hforce : s.status = .published ↔ inForce)
    (hbelow : s.status = .pending → s.confirmations.length < subject.requiredConfirmations)
    (h : CommitsWrite subject calls s op request row write)
    (hconfirms : (calls request).confirms = true) (hpublished : write.status = .published)
    (hcounted : subject.requiredConfirmations ≤ s.count row) :
    Keeps subject calls s op inForce ↔ Sound subject s op := by
  have hadds := adds_iff h.confirmations
  have hreverts := not_reverts_of_confirms hconfirms h.request
  rw [sound_commitsWrite_iff h]
  constructor
  · intro hkeeps
    refine ⟨fun hrow => hkeeps.confirmed (hadds.mpr hrow), fun _ hrejected => ?_,
      fun _ hwrite => ?_⟩
    · have hstill := hkeeps.rejected hrejected
      rw [h.status, hpublished] at hstill
      cases hstill
    · rw [hpublished] at hwrite
      cases hwrite
  · rintro ⟨hrow, hopen, -⟩
    refine ⟨?_, fun hrejected => absurd hrejected (hopen hpublished),
      fun hnew => hrow (hadds.mp hnew)⟩
    rw [h.status, hpublished]
    refine iff_of_true rfl ?_
    cases hstatus : s.status with
    | rejected => exact absurd hstatus (hopen hpublished)
    | published => exact Or.inr ⟨hforce.mp hstatus, hreverts⟩
    | pending =>
      -- The count reaches the number, which the committed confirmations did not.
      refine Or.inl ((publishes_of_confirms_iff hconfirms h.request).mpr ⟨hstatus, ?_, ?_⟩)
      · rw [confirmers_eq hs]
        exact hbelow hstatus
      · rw [confirmers_commit hs h.confirmations]
        exact hcounted

theorem keeps_publish_iff (h : CommitsWrite subject calls s op request none write)
    {staffUser : Nat} {isStaff : Bool} (hcall : calls request = .publish staffUser isStaff)
    (hpublished : write.status = .published) :
    Keeps subject calls s op inForce ↔ Sound subject s op := by
  have hadds := adds_iff h.confirmations
  have hpublishes : Publishes subject calls s op :=
    Or.inl ⟨request, staffUser, isStaff, hcall, commits_of_commitsWrite h⟩
  rw [sound_commitsWrite_iff h]
  constructor
  · intro hkeeps
    refine ⟨fun hrow => absurd rfl hrow, fun _ hrejected => ?_, fun _ hwrite => ?_⟩
    · have hstill := hkeeps.rejected hrejected
      rw [h.status, hpublished] at hstill
      cases hstill
    · rw [hpublished] at hwrite
      cases hwrite
  · rintro ⟨-, hopen, -⟩
    refine ⟨?_, fun hrejected => absurd hrejected (hopen hpublished),
      fun hnew => absurd rfl (hadds.mp hnew)⟩
    rw [h.status, hpublished]
    exact iff_of_true rfl (Or.inl hpublishes)

theorem keeps_reject_iff (hforce : s.status = .published ↔ inForce)
    (h : CommitsWrite subject calls s op request none write) {staffUser : Nat} {isStaff : Bool}
    {reason : String} (hcall : calls request = .reject staffUser isStaff reason)
    (hrejected : write.status = .rejected) :
    Keeps subject calls s op inForce ↔ Sound subject s op := by
  have hadds := adds_iff h.confirmations
  have hpublishes : ¬Publishes subject calls s op := by
    rintro (⟨other, staffUser', isStaff', hother, hcommits⟩ | ⟨-, hreached⟩)
    · rw [eq_of_commits h.request hcommits, hcall] at hother
      cases hother
    · exact not_reached (h.confirmations.trans (List.append_nil _)) hreached
  -- A rejection takes a correction back, and never a proposal.
  have hreverts : Reverts subject calls s op ↔ subject.kind ≠ .proposal :=
    ⟨fun hr => hr.1, fun hkind =>
      ⟨hkind, request, staffUser, isStaff, reason, hcall, commits_of_commitsWrite h⟩⟩
  have hnot : ¬(s.step subject calls op).status = .published := by
    rw [h.status, hrejected]
    exact fun heq => (by cases heq)
  rw [sound_commitsWrite_iff h]
  constructor
  · intro hkeeps
    refine ⟨fun hrow => absurd rfl hrow, fun hwrite => ?_, fun hkind _ hpublished => ?_⟩
    · rw [hrejected] at hwrite
      cases hwrite
    · exact hnot (hkeeps.published.mpr
        (Or.inr ⟨hforce.mp hpublished, fun hr => hreverts.mp hr hkind⟩))
  · rintro ⟨-, -, hproposal⟩
    refine ⟨iff_of_false hnot ?_, fun _ => h.status.trans hrejected,
      fun hnew => absurd rfl (hadds.mp hnew)⟩
    rintro (hnew | ⟨hold, hkept⟩)
    · exact hpublishes hnew
    · -- A correction is reverted, and a published proposal cannot be rejected.
      refine hkept (hreverts.mpr fun hkind => ?_)
      exact hproposal hkind hrejected (hforce.mpr hold)

theorem keeps_commitsWrite_iff (hs : Consistent subject calls s)
    (hforce : s.status = .published ↔ inForce)
    (hbelow : s.status = .pending → s.confirmations.length < subject.requiredConfirmations)
    (h : CommitsWrite subject calls s op request row write) :
    Keeps subject calls s op inForce ↔ Sound subject s op := by
  have hfits := hs.fits request
  rw [h.phase] at hfits
  obtain ⟨htarget, hcounted, hnorow⟩ := hfits
  cases hcall : calls request with
  | confirm =>
    have hconfirms : (calls request).confirms = true := by
      rw [hcall]
      rfl
    rw [hcall] at htarget
    exact keeps_confirm_iff hs hforce hbelow h hconfirms htarget (hcounted hconfirms)
  | publish =>
    rw [hcall] at htarget hnorow
    obtain rfl := hnorow rfl
    exact keeps_publish_iff h hcall htarget
  | reject =>
    rw [hcall] at htarget hnorow
    obtain rfl := hnorow rfl
    exact keeps_reject_iff hforce h hcall htarget

end

theorem keeps_iff (hs : Consistent subject calls s) (hforce : s.status = .published ↔ inForce)
    (hbelow : s.status = .pending → s.confirmations.length < subject.requiredConfirmations) :
    Keeps subject calls s op inForce ↔ Sound subject s op := by
  rcases step_cases subject calls s op with
    ⟨hquiet, hsound⟩ | ⟨request, row, h⟩ | ⟨request, row, write, h⟩
  · exact iff_of_true (keeps_of_quiet hquiet hforce) hsound
  · exact keeps_commitsRow_iff hs hforce hbelow h
  · exact keeps_commitsWrite_iff hs hforce hbelow h

theorem below_step (hs : Consistent subject calls s) (hsound : Sound subject s op)
    (hbelow : s.status = .pending → s.confirmations.length < subject.requiredConfirmations)
    (hpending : (s.step subject calls op).status = .pending) :
    (s.step subject calls op).confirmations.length < subject.requiredConfirmations := by
  rcases step_cases subject calls s op with
    ⟨hquiet, -⟩ | ⟨request, row, h⟩ | ⟨request, row, write, h⟩
  · rw [hquiet.confirmations]
    exact hbelow (hquiet.status ▸ hpending)
  · obtain ⟨now, rfl⟩ := h.next
    have hphase : (s.phase request).Sound subject s := hsound
    rw [h.phase] at hphase
    rw [h.confirmations, List.length_append]
    cases row with
    | none => exact hbelow (h.status ▸ hpending)
    -- A sound commit of a confirmation alone leaves too few of them.
    | some => exact (hphase (by simp)).2
  · -- A request does not save the status of a new row.
    have htarget := hs.fits request
    rw [h.phase] at htarget
    rw [h.status, htarget.1] at hpending
    cases hcall : calls request with
    | confirm =>
      rw [hcall] at hpending
      cases hpending
    | publish =>
      rw [hcall] at hpending
      cases hpending
    | reject =>
      rw [hcall] at hpending
      cases hpending

end

/-! ### Runs -/

section
variable {openNowReports : List Nat} {ops : List ReviewOp}

theorem consistent_run (openNowReports : List Nat) (ops : List ReviewOp) :
    Consistent subject calls (run (Review.step subject calls) (.created openNowReports) ops) :=
  @Machine.run_invariant _ _ (Review.step subject calls) (Consistent subject calls)
    (fun _ op hs => consistent_step hs op) _ (consistent_created openNowReports) ops

theorem below_run
    (hsound : ∀ q ∈ steps (Review.step subject calls) (.created openNowReports) ops,
      Sound subject q.1 q.2) :
    let s := run (Review.step subject calls) (.created openNowReports) ops
    s.status = .pending → s.confirmations.length < subject.requiredConfirmations := by
  let below (s : Review) : Prop :=
    s.status = .pending → s.confirmations.length < subject.requiredConfirmations
  have hboth := @Machine.run_guarded _ _ (Review.step subject calls)
    (fun s => Consistent subject calls s ∧ below s) (Sound subject)
    (fun s op hs hsound => ⟨consistent_step hs.1 op, below_step hs.1 hsound hs.2⟩)
    (.created openNowReports) ⟨consistent_created openNowReports, fun _ => subject.positive⟩ ops
    hsound
  exact hboth.2

/-- A run with one more step. -/
theorem lifecycle_concat_iff (op : ReviewOp) :
    Lifecycle subject calls openNowReports (ops ++ [op]) ↔
      Lifecycle subject calls openNowReports ops ∧
        Keeps subject calls (run (Review.step subject calls) (.created openNowReports) ops) op
          (Since (Review.step subject calls) (Publishes subject calls) (Reverts subject calls)
            (.created openNowReports) ops) := by
  constructor
  · intro h
    refine ⟨⟨fun before after heq => ?_, fun q hq => ?_, fun q hq => ?_⟩, ?_, ?_, ?_⟩
    · exact h.published before (after ++ [op]) (by rw [heq, List.append_assoc])
    · refine h.rejected q ?_
      rw [Machine.steps_append]
      exact List.mem_append_left _ hq
    · refine h.confirmed q ?_
      rw [Machine.steps_append]
      exact List.mem_append_left _ hq
    · have hlast := h.published (ops ++ [op]) [] (List.append_nil _).symm
      rw [Machine.since_concat, Machine.run_concat] at hlast
      exact hlast
    · refine h.rejected (_, op) ?_
      rw [Machine.steps_concat]
      exact List.mem_append_right _ List.mem_cons_self
    · refine h.confirmed (_, op) ?_
      rw [Machine.steps_concat]
      exact List.mem_append_right _ List.mem_cons_self
  · rintro ⟨h, hkeeps⟩
    refine ⟨fun before after heq => ?_, fun q hq => ?_, fun q hq => ?_⟩
    · -- A prefix of the longer run is the whole of it or a prefix of the shorter.
      rcases List.eq_nil_or_concat after with rfl | ⟨after, last, rfl⟩
      · rw [List.append_nil] at heq
        rw [← heq, Machine.since_concat, Machine.run_concat]
        exact hkeeps.published
      · rw [List.concat_eq_append, ← List.append_assoc] at heq
        exact h.published before after (List.append_inj' heq rfl).1
    · rw [Machine.steps_concat, List.mem_append, List.mem_singleton] at hq
      rcases hq with hq | rfl
      · exact h.rejected q hq
      · exact hkeeps.rejected
    · rw [Machine.steps_concat, List.mem_append, List.mem_singleton] at hq
      rcases hq with hq | rfl
      · exact h.confirmed q hq
      · exact hkeeps.confirmed

end

/-- In every order of the steps of any requests, the row is published exactly when it should be, a
rejection stands and no confirmation comes late, if and only if all steps are sound. -/
theorem review_lifecycle (subject : Subject) (calls : Nat → Call) (openNowReports : List Nat)
    (ops : List ReviewOp) :
    Lifecycle subject calls openNowReports ops ↔
      ∀ q ∈ steps (Review.step subject calls) (.created openNowReports) ops,
        Sound subject q.1 q.2 := by
  induction ops using List.reverseRecOn with
  | nil =>
    refine iff_of_true ⟨fun before after heq => ?_, fun q hq => (by cases hq),
      fun q hq => (by cases hq)⟩ (fun q hq => (by cases hq))
    obtain ⟨rfl, rfl⟩ := List.append_eq_nil_iff.mp heq.symm
    exact iff_of_false (fun h => (by cases h)) (Machine.not_since_nil _)
  | append_singleton ops op ih =>
    rw [lifecycle_concat_iff, Machine.steps_concat, List.forall_mem_append,
      List.forall_mem_singleton, ih]
    refine and_congr_right fun hsound => ?_
    exact keeps_iff (consistent_run openNowReports ops)
      ((ih.mpr hsound).published ops [] (List.append_nil _).symm) (below_run hsound)

/-- A proposal that one confirmation publishes. -/
def sampleProposal : Subject where
  kind := .proposal
  place := 1
  proposer := 1
  requiredConfirmations := 1
  positive := Nat.le_refl 1

/-- A member confirms and staff reject. -/
def sampleCalls : Nat → Call
  | 0 => .confirm 2 true
  | _ => .reject 3 true ""

/-- Both views load the pending proposal. Staff reject it, and then the confirmation publishes
it. -/
theorem publish_after_reject : ¬Lifecycle sampleProposal sampleCalls []
    [.load 0, .load 1, .next 1 0, .next 1 0, .next 1 0, .next 0 1, .next 0 1, .next 0 1, .next 0 1,
      .next 0 1] := by
  intro h
  have hlast := h.rejected (_, .next 0 1) ((Machine.mem_steps _).mpr
    ⟨[.load 0, .load 1, .next 1 0, .next 1 0, .next 1 0, .next 0 1, .next 0 1, .next 0 1,
      .next 0 1], [], rfl, rfl⟩) rfl
  cases hlast

end

end SocialActivities.Places
