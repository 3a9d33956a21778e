import SocialActivities.Safety.PyModeration

/-!
# `SocialActivities.Safety.PyVisibility`: why a post is hidden (Python)

A post carries one flag `isHidden` for two independent causes: the author's own delete, which
`isAuthorDeleted` records, and a standing REMOVE. `FlagsAgree` is an invariant of every
operation (`step_flagsAgree`): a REMOVE adds a cause and raises the flag, an author delete
does the same, and a granted appeal, which lifts one REMOVE, lowers the flag only when it finds
neither another standing REMOVE nor the author's stamp. A sweep lifts timed restrictions only,
which `SweepsValid` says of its candidates.

`post_visibility` puts the invariant, the permanence of an author delete and the refusal of a
delete under a pending appeal together, for every reachable state.
-/

namespace SocialActivities.Safety.Py

open Lib
open Lib.Machine

variable {p : Nat} {s : State}

theorem unliftedRemove_iff :
    unliftedRemove p s = true ↔ Standing s.actions (postRef p) := by
  unfold unliftedRemove
  rw [unliftedOn_iff]
  constructor
  · rintro ⟨k, m, hget, htarget, hlifted, hremove⟩
    exact ⟨k, m, hget, htarget, by simpa using hremove, hlifted⟩
  · rintro ⟨k, m, hget, htarget, hremove, hlifted⟩
    exact ⟨k, m, hget, htarget, hlifted, by simpa using hremove⟩

/-! ### The operations -/

theorem takeAction_flagsAgree {action : Action} {target : Target} {record : ModerationAction}
    {mid : State} (htarget : record.target = target) (haction : record.action = action)
    (hlifted : record.liftedAt = none)
    (heffect : applyEffect action target { s with actions := s.actions.insert record } = .ok mid)
    (h : FlagsAgree s) : FlagsAgree mid := by
  have hactions : mid.actions = s.actions.insert record := (applyEffect_frame heffect).actions
  intro q post hpost
  rw [hactions, standing_insert]
  -- A post that the effect leaves alone keeps its causes if the record does not remove it.
  have hkeep : s.contents q = some post → ¬ record.Removes q →
      (post.isHidden = true ↔
        post.isAuthorDeleted = true ∨ Standing s.actions q ∨ record.Removes q) := by
    intro hold hnot
    rw [h q post hold, or_iff_left hnot]
  rcases applyEffect_ok heffect with
    ⟨u, row, hsanction, -, -, rfl⟩ | ⟨c, row, rfl, rfl, hrow, rfl⟩ | ⟨-, hother, rfl⟩
  · refine hkeep hpost ?_
    rintro ⟨-, hremove, -⟩
    rw [← haction, hremove] at hsanction
    cases hsanction
  · by_cases hq : q = c
    · subst hq
      simp only [State.setContent, Function.update_self, Option.some.injEq] at hpost
      subst hpost
      exact iff_of_true rfl (Or.inr (Or.inr ⟨htarget, haction, hlifted⟩))
    · refine hkeep ?_ ?_
      · simpa only [State.setContent, Function.update_of_ne hq] using hpost
      · rintro ⟨htargetq, -, -⟩
        exact hq (Target.content.inj (htargetq.symm.trans htarget))
  · refine hkeep hpost ?_
    rintro ⟨htargetq, hremove, -⟩
    exact hother q (haction ▸ hremove) (htarget ▸ htargetq)

variable {id : Nat}

theorem sweepRow_flagsAgree {i now : Nat} {pending : List Nat} {count : Nat}
    (hvalid : SweepsValid s) (hsweep : s.sweeps[i]? = some ⟨now, id :: pending, count⟩)
    (h : FlagsAgree s) : FlagsAgree (liftOne now id s).1 := by
  obtain ⟨-, -, hposts, hactions⟩ := liftOne_frame now id s
  obtain ⟨m, e, hget, hrestriction, -, -⟩ :=
    (hvalid _ (List.mem_of_getElem? hsweep)).2 id List.mem_cons_self
  intro c post hpost
  rw [hposts] at hpost
  rw [h c post hpost]
  rcases hactions with heq | heq <;> rw [heq]
  rw [standing_stamp_of_not hget]
  rintro ⟨-, hremove, -⟩
  rw [hremove] at hrestriction
  cases hrestriction

theorem standing_stampReversed {action : ModerationAction}
    (hget : s.actions.get? id = some action) (q : ContentRef) :
    Standing (stampReversed id action s).actions q ↔
      ∃ k m, k ≠ id ∧ s.actions.get? k = some m ∧ m.Removes q := by
  constructor
  · rintro ⟨k, m, hgetk, htarget, hremove, hnone⟩
    obtain ⟨hk, hold, -⟩ := (unlifted_stampReversed hget).mp ⟨hgetk, hnone⟩
    exact ⟨k, m, hk, hold, htarget, hremove, hnone⟩
  · rintro ⟨k, m, hk, hold, htarget, hremove, hnone⟩
    obtain ⟨hgetk, -⟩ := (unlifted_stampReversed hget).mpr ⟨hk, hold, hnone⟩
    exact ⟨k, m, hgetk, htarget, hremove, hnone⟩

variable {c : ContentRef}

theorem otherRemove_iff :
    otherRemove id (.content c) s = true ↔
      ∃ k m, k ≠ id ∧ s.actions.get? k = some m ∧ m.Removes c := by
  unfold otherRemove
  rw [unliftedOn_iff]
  constructor
  · rintro ⟨k, m, hgetk, ht, hl, hq⟩
    simp only [Bool.and_eq_true, bne_iff_ne, beq_iff_eq] at hq
    exact ⟨k, m, hq.1, hgetk, ht, hq.2, hl⟩
  · rintro ⟨k, m, hk, hgetk, ht, hr, hl⟩
    exact ⟨k, m, hgetk, ht, hl, by simp [hk, hr]⟩

/-- A reversal on post `c` stamps one action and writes at most that post's row, so the flags
agree as soon as that one row does. -/
theorem flagsAgree_of_row {action : ModerationAction} {s' : State}
    (hget : s.actions.get? id = some action) (htarget : action.target = .content c) (h : FlagsAgree s)
    (hactions : s'.actions = (stampReversed id action s).actions)
    (hsame : ∀ q, q ≠ c → s'.contents q = s.contents q)
    (hpost : ∀ post, s'.contents c = some post → (post.isHidden = true ↔
      post.isAuthorDeleted = true ∨ otherRemove id (.content c) s = true)) :
    FlagsAgree s' := by
  intro q post hq
  rw [hactions, standing_stampReversed hget]
  by_cases hqp : q = c
  · subst hqp
    rw [← otherRemove_iff]
    exact hpost post hq
  · -- A post other than `c` keeps its row and its causes.
    have hnot : ¬ action.Removes q := fun ha => hqp (Target.content.inj (ha.1.symm.trans htarget))
    rw [h q post (hsame q hqp ▸ hq)]
    refine or_congr_right ⟨?_, ?_⟩
    · rintro ⟨k, m, hgetk, hm⟩
      refine ⟨k, m, ?_, hgetk, hm⟩
      rintro rfl
      rw [hget, Option.some.injEq] at hgetk
      exact hnot (hgetk ▸ hm)
    · rintro ⟨k, m, -, hgetk, hm⟩
      exact ⟨k, m, hgetk, hm⟩

theorem reverseRemove_flagsAgree {action : ModerationAction} {row : Content}
    (hget : s.actions.get? id = some action) (htarget : action.target = .content c)
    (hrow : s.contents c = some row) (h : FlagsAgree s) :
    FlagsAgree (reverseRemove id action c row s).1 := by
  have hposts : (stampReversed id action s).contents = s.contents :=
    (stampReversed_frame id action s).2.2.2.2.1
  have hrow' := h c row hrow
  unfold reverseRemove
  rw [htarget]
  by_cases hheld : otherRemove id (.content c) s = true
  · -- Another REMOVE stands: the row is left as it is, hidden.
    simp only [hheld, Bool.not_true, Bool.false_and, Bool.false_eq_true, if_false]
    refine flagsAgree_of_row hget htarget h rfl (fun q _ => by rw [hposts]) fun post hpost => ?_
    rw [hposts, hrow, Option.some.injEq] at hpost
    obtain ⟨k, m, -, hgetk, hm⟩ := otherRemove_iff.mp hheld
    exact iff_of_true (hpost ▸ hrow'.mpr (Or.inr ⟨k, m, hgetk, hm⟩)) (Or.inr hheld)
  · by_cases hhidden : row.isHidden = true
    · simp only [hheld, hhidden, Bool.not_false, Bool.and_self, if_true]
      by_cases hauthor : row.isAuthorDeleted = true
      · -- The author took the post down: it stays hidden.
        rw [if_pos hauthor]
        refine flagsAgree_of_row hget htarget h rfl (fun q _ => ?_) fun post hpost => ?_
        · show (stampReversed id action s).contents q = s.contents q
          rw [hposts]
        · change (stampReversed id action s).contents c = some post at hpost
          rw [hposts, hrow, Option.some.injEq] at hpost
          rw [← hpost]
          exact iff_of_true hhidden (Or.inl hauthor)
      · rw [if_neg hauthor]
        refine flagsAgree_of_row hget htarget h rfl (fun q hq => ?_) fun post hpost => ?_
        · simp only [State.setContent, Function.update_of_ne hq, hposts]
        · simp only [State.setContent, Function.update_self, Option.some.injEq] at hpost
          rw [← hpost]
          simp [hauthor, hheld]
    · -- A visible post has no cause, so there is nothing to take back.
      simp only [hheld, hhidden, Bool.and_false, Bool.false_eq_true, if_false]
      refine flagsAgree_of_row hget htarget h rfl (fun q _ => by rw [hposts]) fun post hpost => ?_
      rw [hposts, hrow, Option.some.injEq] at hpost
      rw [← hpost]
      have hnot : row.isAuthorDeleted ≠ true := fun ha => hhidden (hrow'.mpr (Or.inl ha))
      simpa [hhidden, hnot] using hheld

theorem reverseAction_flagsAgree {action : ModerationAction}
    (hget : s.actions.get? id = some action) (h : FlagsAgree s) :
    FlagsAgree (reverseAction id action s).1 := by
  obtain ⟨-, -, -, hactions⟩ := reverseAction_frame id action s
  rcases reverseAction_cases id action s with
    ⟨u, row, htarget, -, -, heq⟩ | ⟨c, row, htarget, hrow, -, heq⟩ | ⟨-, -, heq⟩
  · have hposts : (reverseAction id action s).1.contents = s.contents := by
      rw [heq, reverseSanction]
      split <;> exact (stampReversed_frame id action s).2.2.2.2.1
    intro c post hpost
    rw [hposts] at hpost
    rw [h c post hpost]
    rcases hactions with hsame | hstamp
    · rw [hsame]
    · rw [hstamp, standing_stamp_of_not hget]
      rintro ⟨htargetp, -, -⟩
      rw [htarget] at htargetp
      cases htargetp
  · rw [heq]
    exact reverseRemove_flagsAgree hget htarget hrow h
  · rw [heq]
    exact h

theorem step_flagsAgree (s : State) (op : Op) (hvalid : SweepsValid s) (h : FlagsAgree s) :
    FlagsAgree (step s op) := by
  generalize hs' : step s op = s'
  cases hs' ▸ step_change s op with
  | takeAction _ _ _ _ _ _ _ record mid event htarget haction hlifted heffect =>
    have hmid : FlagsAgree mid := takeAction_flagsAgree htarget haction hlifted heffect h
    exact hmid
  | sweepRow i now id pending count count' hsweep => exact sweepRow_flagsAgree hvalid hsweep h
  | grant _ _ _ _ appeal action mid _ _ haction hmid =>
    subst hmid
    exact reverseAction_flagsAgree (s := { s with appeals := _ }) haction h
  | deleteOwnPost author p =>
    intro q row hrow
    by_cases hq : q = postRef p
    · subst hq
      simp only [State.setContent, Function.update_self, Option.some.injEq] at hrow
      rw [← hrow]
      exact iff_of_true rfl (Or.inl rfl)
    · refine h q row ?_
      simpa only [State.setContent, Function.update_of_ne hq] using hrow
  | _ => exact h

/-! ### Author deletes -/

theorem reverseAction_posts (id : Nat) (action : ModerationAction) (s : State) :
    (reverseAction id action s).1.contents = s.contents ∨ ∃ c row, s.contents c = some row ∧
      (reverseAction id action s).1.contents
        = Function.update s.contents c (some { row with isHidden := false }) := by
  have hstamp : (stampReversed id action s).contents = s.contents :=
    (stampReversed_frame id action s).2.2.2.2.1
  rcases reverseAction_cases id action s with
    ⟨u, row, -, -, -, heq⟩ | ⟨c, row, -, hrow, -, heq⟩ | ⟨-, -, heq⟩ <;> rw [heq]
  · refine Or.inl ?_
    unfold reverseSanction
    simp only
    split <;> exact hstamp
  · unfold reverseRemove
    simp only
    split
    · split
      · exact Or.inl hstamp
      · exact Or.inr ⟨c, row, hrow, by rw [← hstamp]; rfl⟩
    · exact Or.inl hstamp
  · exact Or.inl rfl

theorem step_isAuthorDeleted (op : Op) {post : Content} (hpost : s.contents c = some post) :
    ∃ post', (step s op).contents c = some post' ∧
      (post.isAuthorDeleted = true → post'.isAuthorDeleted = true) := by
  -- A write of one row keeps the stamp when the new row does.
  have hset : ∀ q row, s.contents q = some row → ∀ new : Content,
      (row.isAuthorDeleted = true → new.isAuthorDeleted = true) →
      ∃ post', Function.update s.contents q (some new) c = some post' ∧
        (post.isAuthorDeleted = true → post'.isAuthorDeleted = true) := by
    intro q row hrow new hnew
    by_cases hq : c = q
    · subst hq
      rw [hpost, Option.some.injEq] at hrow
      exact ⟨new, by simp, hrow ▸ hnew⟩
    · exact ⟨post, by rw [Function.update_of_ne hq]; exact hpost, fun ha => ha⟩
  generalize hs' : step s op = s'
  cases hs' ▸ step_change s op with
  | takeAction _ _ _ _ _ _ _ record mid event _ _ _ heffect =>
    rcases applyEffect_ok heffect with
      ⟨u, row, -, -, -, rfl⟩ | ⟨q, row, -, -, hrow, rfl⟩ | ⟨-, -, rfl⟩
    · exact ⟨post, hpost, fun ha => ha⟩
    · exact hset q row hrow _ fun ha => ha
    · exact ⟨post, hpost, fun ha => ha⟩
  | sweepRow i now id =>
    exact ⟨post, (congrFun (liftOne_frame now id s).2.2.1 c).trans hpost, fun ha => ha⟩
  | grant _ _ _ _ appeal action mid _ _ _ hmid =>
    have hmidposts : mid.contents = s.contents := by rw [hmid]
    show ∃ post', (reverseAction appeal.action action mid).1.contents c = some post' ∧ _
    rcases reverseAction_posts appeal.action action mid with heq | ⟨q, row, hrow, heq⟩ <;>
      rw [heq, hmidposts]
    · exact ⟨post, hpost, fun ha => ha⟩
    · exact hset q row (hmidposts ▸ hrow) _ fun ha => ha
  | deleteOwnPost author p row event hrow => exact hset (postRef p) row hrow _ fun _ => rfl
  | _ => exact ⟨post, hpost, fun ha => ha⟩

/-- The author asks to delete a post that the platform hides, and an appeal against a standing
REMOVE on it is pending. -/
def Contested (author p : Nat) (s : State) : Prop :=
  ∃ post, s.contents (postRef p) = some post ∧ post.author = author ∧ post.isHidden = true ∧
    post.isAuthorDeleted = false ∧
    ∃ j appeal m, s.appeals.get? j = some appeal ∧ appeal.status = .pending ∧
      s.actions.get? appeal.action = some m ∧ m.Removes (postRef p)

theorem pendingContest_iff :
    pendingContest p s = true ↔ ∃ j appeal m, s.appeals.get? j = some appeal ∧
      appeal.status = .pending ∧ s.actions.get? appeal.action = some m ∧ m.Removes (postRef p) := by
  unfold pendingContest
  rw [Table.any_iff]
  constructor
  · rintro ⟨j, appeal, hget, hquery⟩
    simp only [Bool.and_eq_true, beq_iff_eq, Option.any_eq_true, Option.isNone_iff_eq_none] at hquery
    obtain ⟨hpending, m, hm, ⟨hremove, hlifted⟩, htarget⟩ := hquery
    exact ⟨j, appeal, m, hget, hpending, hm, htarget, hremove, hlifted⟩
  · rintro ⟨j, appeal, m, hget, hpending, hm, htarget, hremove, hlifted⟩
    exact ⟨j, appeal, hget, by simp [hpending, hm, htarget, hremove, hlifted]⟩

theorem deleteOwnPost_contesting_iff {author : Nat} :
    deleteOwnPost author p s = .error contesting ↔ Contested author p s := by
  have hmessages : notYourMessage ≠ contesting := by decide
  unfold deleteOwnPost
  cases hpost : s.contents (postRef p) with
  | none => simp [Contested, hpost, contesting]
  | some post =>
    simp only [Contested, hpost, Option.some.injEq, exists_eq_left']
    by_cases hauthor : post.author = author
    · cases hhidden : post.isHidden with
      | false => simp [hauthor]
      | true =>
        cases hdeleted : post.isAuthorDeleted with
        | true => simp [hauthor]
        | false =>
          rw [← pendingContest_iff]
          cases hcontest : pendingContest p s with
          | false => simp [hauthor]
          | true =>
            -- The pending appeal names a standing REMOVE, so the first half of the guard holds.
            obtain ⟨j, appeal, m, -, -, hm, hremoves⟩ := pendingContest_iff.mp hcontest
            have hstanding : unliftedRemove p s = true := unliftedRemove_iff.mpr ⟨_, m, hm, hremoves⟩
            simp [hauthor, hstanding]
    · simp [hauthor, hmessages]

/-! ### Runs -/

/-- The two invariants of a run. -/
def Consistent (s : State) : Prop := SweepsValid s ∧ FlagsAgree s

theorem step_consistent (s : State) (op : Op) (h : Consistent s) : Consistent (step s op) :=
  ⟨step_sweepsValid s op h.1, step_flagsAgree s op h.1 h.2⟩

theorem start_consistent (users : Nat → Option User) (authors : ContentRef → Option Nat)
    (owners : String → Nat → Option Nat) (clock : Nat) :
    Consistent (State.start users authors owners clock) := by
  refine ⟨fun sweep hsweep => absurd hsweep List.not_mem_nil, fun c post hpost => ?_⟩
  obtain ⟨author, -, rfl⟩ := Option.map_eq_some_iff.mp hpost
  refine iff_of_false (by simp) ?_
  rintro (hdeleted | ⟨k, m, hget, -⟩)
  · cases hdeleted
  · cases hget

theorem run_isAuthorDeleted {post : Content} (hpost : s.contents c = some post)
    (hdeleted : post.isAuthorDeleted = true) (ops : List Op) :
    ∃ post', (run step s ops).contents c = some post' ∧ post'.isAuthorDeleted = true := by
  have hstep : ∀ (s : State) (op : Op),
      (∃ post', s.contents c = some post' ∧ post'.isAuthorDeleted = true) →
      ∃ post', (step s op).contents c = some post' ∧ post'.isAuthorDeleted = true := by
    rintro s op ⟨old, hold, hd⟩
    obtain ⟨new, hnew, hkeep⟩ := step_isAuthorDeleted op hold
    exact ⟨new, hnew, hkeep hd⟩
  exact run_invariant hstep ⟨post, hpost, hdeleted⟩ ops

/-- In every reachable state:

- a post is hidden exactly when its author deleted it or a REMOVE on it is un-lifted;
- a post that its author deleted stays deleted and hidden, whatever follows;
- an author delete is refused over a pending appeal exactly on a contested post, and the
  refused delete leaves the state as it is. -/
theorem post_visibility (users : Nat → Option User) (authors : ContentRef → Option Nat)
    (owners : String → Nat → Option Nat) (clock : Nat) (ops : List Op) :
    let s := run step (State.start users authors owners clock) ops
    (∀ p post, s.contents (postRef p) = some post →
      (post.isHidden = true ↔
        post.isAuthorDeleted = true ∨ Standing s.actions (postRef p))) ∧
    (∀ p post, s.contents (postRef p) = some post → post.isAuthorDeleted = true →
      ∀ more : List Op, ∃ post', (run step s more).contents (postRef p) = some post' ∧
        post'.isAuthorDeleted = true ∧ post'.isHidden = true) ∧
    (∀ author p, (deleteOwnPost author p s = .error contesting ↔ Contested author p s) ∧
      (Contested author p s → step s (.deleteOwnPost author p) = s)) := by
  intro s
  have hconsistent : Consistent s :=
    run_invariant step_consistent (start_consistent users authors owners clock) ops
  refine ⟨fun p => hconsistent.2 (postRef p), fun p post hpost hdeleted more => ?_, fun author p => ?_⟩
  · obtain ⟨post', hpost', hdeleted'⟩ := run_isAuthorDeleted hpost hdeleted more
    have hlater : Consistent (run step s more) := run_invariant step_consistent hconsistent more
    exact ⟨post', hpost', hdeleted', (hlater.2 (postRef p) post' hpost').mpr (Or.inl hdeleted')⟩
  · refine ⟨deleteOwnPost_contesting_iff, fun hcontested => ?_⟩
    simp only [step, deleteOwnPost_contesting_iff.mpr hcontested]
    rfl

end SocialActivities.Safety.Py
