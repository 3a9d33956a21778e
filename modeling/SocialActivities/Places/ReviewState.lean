import Mathlib.Data.List.Dedup
import SocialActivities.Places.Review

/-!
# `SocialActivities.Places.ReviewState`: what every order of the steps keeps

`Consistent` says what holds of the rows and of the open transactions in every state: the
confirmations are those of distinct members other than the proposer, a row that waits for its
commit belongs to one transaction, and each open transaction has counted no more than what is
committed with it. `consistent_step` proves that every step keeps it.
-/

namespace SocialActivities.Places

open Lib

/-- The request is a confirmation. -/
def Call.confirms : Call → Bool
  | .confirm _ _ => true
  | _ => false

/-- The status that a request saves. -/
def Call.target : Call → Status
  | .reject _ _ _ => .rejected
  | _ => .published

/-- The members other than the proposer who have confirmed. -/
def Review.confirmers (subject : Subject) (s : Review) : Nat :=
  (s.confirmations.filter (· != subject.proposer)).dedup.length

section
variable (subject : Subject) (calls : Nat → Call)

/-- What a phase has established of its request, with so many confirmations committed. -/
def Phase.Fits (call : Call) (confirmations : Nat) : Phase → Prop
  | .checked => ∀ user canParticipate, call = .confirm user canParticipate →
    user ≠ subject.proposer
  | .recorded _ => call.confirms = true
  | .counted row enough => call.confirms = true ∧
    (enough = true → subject.requiredConfirmations ≤ confirmations + row.toList.length)
  | .saved row write => write.status = call.target ∧
    (call.confirms = true → subject.requiredConfirmations ≤ confirmations + row.toList.length) ∧
    (call.confirms = false → row = none)
  | _ => True

/-- What every state satisfies. -/
structure Consistent (s : Review) : Prop where
  nodup : s.confirmations.Nodup
  proposer : subject.proposer ∉ s.confirmations
  inserting : ∀ user ∈ s.inserting, user ≠ subject.proposer ∧ user ∉ s.confirmations
  row : ∀ request user, (s.phase request).row = some user → user ∈ s.inserting
  apart : ∀ request other user, (s.phase request).row = some user →
    (s.phase other).row = some user → request = other
  fits : ∀ request, (s.phase request).Fits subject (calls request) s.confirmations.length

end

section
variable {subject : Subject} {calls : Nat → Call} {s : Review} {request : Nat}

theorem confirmers_eq (hs : Consistent subject calls s) :
    s.confirmers subject = s.confirmations.length := by
  have hothers : s.confirmations.filter (· != subject.proposer) = s.confirmations := by
    refine List.filter_eq_self.mpr fun user huser => ?_
    rw [bne_iff_ne]
    rintro rfl
    exact hs.proposer huser
  unfold Review.confirmers
  rw [hothers, List.dedup_eq_self.mpr hs.nodup]

theorem consistent_created (openNowReports : List Nat) :
    Consistent subject calls (.created openNowReports) where
  nodup := List.nodup_nil
  proposer := List.not_mem_nil
  inserting := fun _ h => (by cases h)
  row := fun _ _ h => (by cases h)
  apart := fun _ _ _ h => (by cases h)
  fits := fun _ => trivial

theorem Phase.Fits.mono {call : Call} {n m : Nat} {phase : Phase}
    (h : phase.Fits subject call n) (hle : n ≤ m) : phase.Fits subject call m := by
  cases phase with
  | counted =>
    exact ⟨h.1, fun henough => Nat.le_trans (h.2 henough) (Nat.add_le_add_right hle _)⟩
  | saved =>
    exact ⟨h.1, fun hconfirms => Nat.le_trans (h.2.1 hconfirms) (Nat.add_le_add_right hle _),
      h.2.2⟩
  | _ => exact h

theorem phase_goto (s : Review) (request other : Nat) (phase : Phase) :
    (s.goto request phase).phase other = if other = request then phase else s.phase other :=
  Function.update_apply ..

theorem consistent_goto (hs : Consistent subject calls s) {phase : Phase}
    (hrow : phase.row = none ∨ phase.row = (s.phase request).row)
    (hfits : phase.Fits subject (calls request) s.confirmations.length) :
    Consistent subject calls (s.goto request phase) := by
  -- A row of the new state is the row of the same request before.
  have hold : ∀ other user, ((s.goto request phase).phase other).row = some user →
      (s.phase other).row = some user := by
    intro other user huser
    rw [phase_goto] at huser
    by_cases h : other = request
    · rw [if_pos h] at huser
      rcases hrow with hnone | hsame
      · rw [hnone] at huser
        cases huser
      · rw [h, ← hsame]
        exact huser
    · rwa [if_neg h] at huser
  refine ⟨hs.nodup, hs.proposer, hs.inserting, fun other user huser => ?_,
    fun other third user huser hthird => ?_, fun other => ?_⟩
  · exact hs.row other user (hold other user huser)
  · exact hs.apart other third user (hold other user huser) (hold third user hthird)
  · rw [phase_goto]
    by_cases h : other = request
    · rw [if_pos h, h]
      exact hfits
    · rw [if_neg h]
      exact hs.fits other

theorem consistent_insert (hs : Consistent subject calls s) {user : Nat}
    (huser : user ≠ subject.proposer) (hnew : user ∉ s.confirmations) (hfree : user ∉ s.inserting)
    (hconfirms : (calls request).confirms = true) :
    Consistent subject calls
      ({ s with inserting := user :: s.inserting }.goto request (.recorded (some user))) := by
  -- No other request has a row of the user.
  have hnone : ∀ other, (s.phase other).row ≠ some user := fun other h => hfree (hs.row other _ h)
  refine ⟨hs.nodup, hs.proposer, fun other hother => ?_, fun other third hthird => ?_,
    fun other third fourth hother hthird => ?_, fun other => ?_⟩
  · rcases List.mem_cons.mp hother with rfl | hmem
    · exact ⟨huser, hnew⟩
    · exact hs.inserting other hmem
  · rw [phase_goto] at hthird
    by_cases h : other = request
    · rw [if_pos h] at hthird
      cases hthird
      exact List.mem_cons_self
    · rw [if_neg h] at hthird
      exact List.mem_cons_of_mem _ (hs.row other third hthird)
  · rw [phase_goto] at hother hthird
    by_cases h : other = request
    · rw [if_pos h] at hother
      cases hother
      by_cases h' : third = request
      · exact h.trans h'.symm
      · rw [if_neg h'] at hthird
        exact absurd hthird (hnone third)
    · rw [if_neg h] at hother
      by_cases h' : third = request
      · rw [if_pos h'] at hthird
        cases hthird
        exact absurd hother (hnone other)
      · rw [if_neg h'] at hthird
        exact hs.apart other third fourth hother hthird
  · rw [phase_goto]
    by_cases h : other = request
    · rw [if_pos h, h]
      exact hconfirms
    · rw [if_neg h]
      exact hs.fits other

variable {row : Option Nat}

theorem consistent_release (hs : Consistent subject calls s)
    (hnone : ∀ other user, row = some user → (s.phase other).row ≠ some user) :
    Consistent subject calls
      { s with inserting := s.inserting.filter fun user => some user != row } := by
  refine ⟨hs.nodup, hs.proposer, fun user huser => ?_, fun other user huser => ?_, hs.apart,
    hs.fits⟩
  · exact hs.inserting user (List.mem_of_mem_filter huser)
  · refine List.mem_filter.mpr ⟨hs.row other user huser, ?_⟩
    rw [bne_iff_ne]
    exact fun h => hnone other user h.symm huser

theorem consistent_commitRow (hs : Consistent subject calls s)
    (hmem : ∀ user, row = some user → user ∈ s.inserting)
    (hnone : ∀ other user, row = some user → (s.phase other).row ≠ some user) :
    Consistent subject calls (s.commitRow row) := by
  cases row with
  | none => exact hs
  | some user =>
    obtain ⟨hne, hnew⟩ := hs.inserting user (hmem user rfl)
    refine ⟨?_, ?_, fun other hother => ?_, fun other third hthird => ?_, hs.apart, fun other => ?_⟩
    · -- A row that is being inserted is not among the committed ones.
      exact List.nodup_append.mpr ⟨hs.nodup, List.nodup_singleton user, by
        intro a ha b hb
        rw [List.mem_singleton] at hb
        rintro rfl
        exact hnew (hb ▸ ha)⟩
    · show subject.proposer ∉ s.confirmations ++ [user]
      rw [List.mem_append, List.mem_singleton]
      rintro (h | h)
      · exact hs.proposer h
      · exact hne h.symm
    · obtain ⟨hold, hother⟩ := List.mem_filter.mp hother
      rw [bne_iff_ne] at hother
      refine ⟨(hs.inserting other hold).1, ?_⟩
      show other ∉ s.confirmations ++ [user]
      rw [List.mem_append, List.mem_singleton]
      rintro (h | h)
      · exact (hs.inserting other hold).2 h
      · exact hother h
    · refine List.mem_filter.mpr ⟨hs.row other third hthird, ?_⟩
      rw [bne_iff_ne]
      rintro rfl
      exact hnone other third rfl hthird
    · refine (hs.fits other).mono ?_
      show s.confirmations.length ≤ (s.confirmations ++ [user]).length
      rw [List.length_append]
      exact Nat.le_add_right ..

theorem row_goto_ended (hs : Consistent subject calls s) (result : Option (Except Error Status))
    (other user : Nat) (hrow : (s.phase request).row = some user) :
    ((s.goto request (.ended result)).phase other).row ≠ some user := by
  rw [phase_goto]
  by_cases h : other = request
  · rw [if_pos h]
    exact fun hnone => (by cases hnone)
  · rw [if_neg h]
    exact fun hother => h (hs.apart other request user hother hrow)

theorem consistent_commit (hs : Consistent subject calls s) {status : Status}
    (hrow : (s.phase request).row = row) :
    Consistent subject calls ((s.commitRow row).goto request (.ended (some (.ok status)))) := by
  have hended : Consistent subject calls (s.goto request (.ended (some (.ok status)))) :=
    consistent_goto hs (Or.inl rfl) trivial
  have hcommit : Consistent subject calls
      ((s.goto request (.ended (some (.ok status)))).commitRow row) := consistent_commitRow hended
    (fun user huser => hs.row request user (hrow.trans huser))
    (fun other user huser => row_goto_ended hs _ other user (hrow.trans huser))
  cases row with
  | none | some => exact hcommit

theorem consistent_commitWrite (hs : Consistent subject calls s) (write : Write) :
    Consistent subject calls (s.commitWrite write) :=
  ⟨hs.nodup, hs.proposer, hs.inserting, hs.row, hs.apart, hs.fits⟩

theorem consistent_save (hs : Consistent subject calls s) {write : Write}
    (hrow : row = none ∨ row = (s.phase request).row)
    (hfits : (Phase.saved row write).Fits subject (calls request) s.confirmations.length) :
    Consistent subject calls (s.save request row write) := by
  unfold Review.save
  cases s.lock with
  | some => exact hs
  | none =>
    have hlocked : Consistent subject calls { s with lock := some request } :=
      ⟨hs.nodup, hs.proposer, hs.inserting, hs.row, hs.apart, hs.fits⟩
    exact consistent_goto hlocked hrow hfits

theorem write_status (subject : Subject) (now : Nat) (call : Call) :
    (subject.write now call).status = call.target := by
  cases call <;> rfl

theorem ne_proposer_of_check {status : Status} {user : Nat} {canParticipate : Bool}
    (h : subject.check status (.confirm user canParticipate) = .ok ()) :
    user ≠ subject.proposer := by
  unfold Subject.check at h
  cases hkind : subject.kind with
  | proposal =>
    rw [hkind] at h
    unfold confirmPlace confirmChecks at h
    dsimp only at h
    rw [seq_eq_ok, seq_eq_ok, need_eq_ok, need_eq_ok, bne_iff_ne] at h
    exact h.2.1.symm
  | correction =>
    rw [hkind] at h
    unfold confirmPlaceCorrection confirmChecks at h
    dsimp only at h
    rw [seq_eq_ok, seq_eq_ok, need_eq_ok, need_eq_ok, bne_iff_ne] at h
    exact h.2.1.symm

theorem consistent_next (hs : Consistent subject calls s) (now : Nat) :
    Consistent subject calls (s.next subject calls request now) := by
  have hfits := hs.fits request
  unfold Review.next
  cases hphase : s.phase request with
  | idle => exact hs
  | loaded status =>
    dsimp only
    cases hcheck : subject.check status (calls request) with
    | error => exact consistent_goto hs (Or.inl rfl) trivial
    | ok =>
      refine consistent_goto hs (Or.inl rfl) ?_
      intro user canParticipate hcall
      rw [hcall] at hcheck
      -- The check refused the proposer's own confirmation.
      exact ne_proposer_of_check hcheck
  | checked =>
    rw [hphase] at hfits
    dsimp only
    cases hcall : calls request with
    | confirm user canParticipate =>
      dsimp only
      have hconfirms : (calls request).confirms = true := by
        rw [hcall]
        rfl
      unfold Review.getOrCreate
      by_cases hmem : user ∈ s.confirmations
      · rw [if_pos hmem]
        exact consistent_goto hs (Or.inl rfl) hconfirms
      · rw [if_neg hmem]
        by_cases hwaits : user ∈ s.inserting
        · -- The unique row of the user is being inserted by another request: this one waits.
          rw [if_pos hwaits]
          exact hs
        · rw [if_neg hwaits]
          exact consistent_insert hs (hfits user canParticipate hcall) hmem hwaits hconfirms
    | publish =>
      refine consistent_save hs (Or.inl rfl) ?_
      rw [hcall]
      exact ⟨rfl, fun h => (by cases h), fun _ => rfl⟩
    | reject =>
      refine consistent_save hs (Or.inl rfl) ?_
      rw [hcall]
      exact ⟨rfl, fun h => (by cases h), fun _ => rfl⟩
  | recorded =>
    rw [hphase] at hfits
    -- The count reads the committed rows and the request's own.
    refine consistent_goto hs (Or.inr ?_) ⟨hfits, fun henough => of_decide_eq_true henough⟩
    rw [hphase]
    rfl
  | counted row enough =>
    rw [hphase] at hfits
    have hrow : (s.phase request).row = row := by
      rw [hphase]
      rfl
    cases enough with
    | false => exact consistent_commit hs hrow
    | true =>
      refine consistent_save hs (Or.inr hrow.symm)
        ⟨write_status .., fun _ => hfits.2 rfl, fun hstaff => ?_⟩
      rw [hfits.1] at hstaff
      cases hstaff
  | saved row write =>
    have hrow : (s.phase request).row = row := by
      rw [hphase]
      rfl
    have hcommit : Consistent subject calls
        ((s.commitRow row).goto request (.ended (some (.ok write.status)))) :=
      consistent_commit hs hrow
    exact consistent_commitWrite hcommit write
  | ended => exact hs

theorem consistent_rollback (hs : Consistent subject calls s) :
    Consistent subject calls (s.rollback request) := by
  have hended : Consistent subject calls (s.goto request (.ended none)) :=
    consistent_goto hs (Or.inl rfl) trivial
  have hreleased := consistent_release hended
    fun other user huser => row_goto_ended hs none other user huser
  unfold Review.rollback
  cases hphase : s.phase request with
  | ended => exact hs
  | _ =>
    rw [hphase] at hreleased
    exact ⟨hreleased.nodup, hreleased.proposer, hreleased.inserting, hreleased.row,
      hreleased.apart, hreleased.fits⟩

theorem consistent_step (hs : Consistent subject calls s) (op : ReviewOp) :
    Consistent subject calls (s.step subject calls op) := by
  cases op with
  | load request =>
    rw [Review.step]
    cases s.phase request with
    | idle => exact consistent_goto hs (Or.inl rfl) trivial
    | _ => exact hs
  | next request now => exact consistent_next hs now
  | rollback => exact consistent_rollback hs

end

end SocialActivities.Places
