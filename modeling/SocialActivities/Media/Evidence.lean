import Mathlib.Data.List.Infix
import SocialActivities.Media.Objects

/-!
# `SocialActivities.Media.Evidence`: what the hold rule keeps (Go)

An attachment is evidence while the hold rule holds it or the scanner has blocked it. Two things take
the objects of evidence all the same: `DeleteAttachment` and the deletions of rows by other code, and
the worker of a video that is under its claim, which replaces the source or gives it up. No other step
queues a key of evidence (`evidence_preserved`).

A purge that ends on an empty page has purged every attachment that was expired when it started and
was not held, blocked or in processing in any state of the call: such a row is purged, or it is on the
page in hand, or it comes after the cursor (`Ahead`).
-/

namespace SocialActivities.Media

open Lib

/-- The attachment is held, or blocked by the scanner. -/
def Service.evidence (s : Service) (r : Attachment) : Bool := s.attachmentHeld r || r.status == .blocked

/-- The failure ends the video. -/
def Cause.terminal (p : PolicyConfig) (r : Attachment) : Cause → Bool
  | .scanner => false
  | .blocked => false
  | cause => decide (p.videoMaxAttempts ≤ r.attempts) || cause == .rejected || cause == .forbidden

/-- The step publishes the video of the claim that the row is under, or records its terminal
failure. -/
def Service.settles (p : PolicyConfig) (s : Service) (id : Nat) : Action → Prop
  | .publish j _ _ => ∃ lease thumb keys, s.jobs.get? j = some (.storing (.video lease) thumb keys) ∧
      lease.id = id ∧ s.holds lease = true
  | .proceed j _ => ∃ lease cause tasks r,
      s.jobs.get? j = some (.ending (some lease) (.failClaim cause :: tasks)) ∧
      lease.id = id ∧ s.holds lease = true ∧ s.attachments.get? id = some r ∧ cause.terminal p r = true
  | _ => False

variable {p : PolicyConfig} {s t : Service} {a : Action}

/-! ### Preservation -/

variable {r : Attachment}

theorem keys_failedRow {cause : Cause} (h : cause.terminal p r = false) :
    (failedRow p cause r).keys = r.keys := by
  have hkeep : ∀ c : Cause, (decide (p.videoMaxAttempts ≤ r.attempts) || c == .rejected ||
      c == .forbidden) = false → (if p.videoMaxAttempts ≤ r.attempts || c == .rejected ||
        c == .forbidden then { r.clearKeys with status := .failed, startedAt := none } else r).keys =
        r.keys := by
    intro c hc
    rw [if_neg (by rw [hc]; exact Bool.false_ne_true)]
  cases cause with
  | scanner | blocked => rfl
  | rejected | forbidden | other => exact hkeep _ h

variable {id : Nat}

theorem evidence_step (h : Leased p s) {r : Attachment}
    (hget : s.attachments.get? id = some r) (hevidence : s.evidence r = true)
    (hdeletes : a.deletes id = false) (hsettles : ¬s.settles p id a) :
    ∃ r', (step p s a).attachments.get? id = some r' ∧ r'.keys = r.keys := by
  have hstep := row_step (p := p) h.serial a id
  have hshaped := h.shaped id r hget
  rw [hget] at hstep
  generalize (step p s a).attachments.get? id = after at hstep
  cases hstep with
  | same => exact ⟨r, rfl, rfl⟩
  | claimed => exact ⟨_, rfl, rfl⟩
  | exhausted _ hclaim hspent hstatus =>
    have ⟨_, _, _, hwaits⟩ := claimable_cases hclaim
    have hpending := hwaits.resolve_right fun hp => hstatus hp.1
    have hleft := (hshaped.pending hpending).2
    omega
  | finished _ j thumb keys lease g answer haction hjob hkeys hid hholds =>
    rw [haction] at hsettles
    exact absurd ⟨lease, thumb, keys, hjob, hid, hholds⟩ hsettles
  | failed _ j lease cause tasks answer haction hjob hnext hid hholds =>
    cases hterminal : cause.terminal p r with
    | true =>
      rw [haction] at hsettles
      exact absurd ⟨lease, cause, tasks, r, hjob, hid, hholds, hget, hterminal⟩ hsettles
    | false => exact ⟨_, rfl, keys_failedRow hterminal⟩
  | purged _ j answer cancelled haction hpurge hheld =>
    have ⟨_, _, hblocked, _⟩ := purgeable_cases hpurge
    unfold Service.evidence at hevidence
    rw [hheld, Bool.false_or, beq_iff_eq] at hevidence
    exact absurd hevidence hblocked
  | deleted _ haction =>
    rw [haction] at hdeletes
    cases hdeletes

theorem named_of_mem_keys (hget : s.attachments.get? id = some r)
    {k : Key} (hk : k ∈ r.keys) : 0 < s.named k := by
  have hpos := KeyMap.total_pos (w := fun _ r => r.keys.count k) hget (List.count_pos_iff.mpr hk)
  unfold Service.named
  omega

variable {j : Nat}

theorem purge_kept (hserial : Serial s) {job : Job} (hjob : s.jobs.get? j = some job)
    (hpurge : job = .finished ∨ (∃ w, job = .purging w) ∧ ∀ answer cancelled, a ≠ .purge j answer cancelled) :
    (step p s a).jobs.get? j = some job := by
  by_cases hactor : a.actor? = some j
  · -- The step is not one of a purge.
    have hsame : step p s a = s := by
      rcases hpurge with rfl | ⟨⟨w, rfl⟩, hother⟩
      · cases a <;> cases hactor <;> simp [step, Service.rejectStep, Service.putStep,
          Service.publishStep, Service.proceedStep, Service.purgeStep, Service.drainStep, hjob,
          Job.finished]
      · cases a with
        | purge i answer cancelled =>
          cases hactor
          exact absurd rfl (hother answer cancelled)
        | _ => cases hactor <;> simp [step, Service.rejectStep, Service.putStep,
            Service.publishStep, Service.proceedStep, Service.drainStep, hjob]
    rw [hsame]
    exact hjob
  · rcases (does_step (p := p) hserial a).written with hjobs | ⟨new, hjobs⟩
    · rw [hjobs]
      exact hjob
    · have hne : j ≠ a.job s := by
        unfold Action.job
        cases hwho : a.actor? with
        | none =>
          rintro rfl
          simp [hserial.jobs s.nextId (Nat.le_refl _)] at hjob
        | some i =>
          rintro rfl
          exact hactor hwho
      rw [hjobs, KeyMap.get?_set, if_neg hne]
      exact hjob

/-! ### A purge -/

/-- The page that the next query of a purge returns. -/
def Service.nextPage (s : Service) (w : Purge) : List Candidate :=
  s.expiredAttachmentPage w.cursor (min (w.limit * 4) (w.limit * purgeScanFactor - w.scanned))

/-- The purge has none of its limits behind it, and its next page is empty. -/
def Service.scanEnds (s : Service) (j : Nat) : Prop :=
  ∃ w, s.jobs.get? j = some (.purging w) ∧ w.page = [] ∧ w.purged < w.limit ∧
    w.scanned < w.limit * purgeScanFactor ∧ s.nextPage w = []

/-- The attachment, if it is there, is not held, blocked or in processing. -/
def Service.unprotected (s : Service) (id : Nat) : Prop :=
  ∀ r, s.attachments.get? id = some r → s.evidence r = false ∧ r.status ≠ .processing

/-- The row has expired. -/
def Expired (now : Int) (r : Attachment) : Prop := ∃ e, r.expiresAt = some e ∧ e ≤ now

/-- The row is purged, or the purge still comes to it, unless it reaches its limit. -/
structure Ahead (s : Service) (w : Purge) (id : Nat) : Prop where
  known : id < s.nextId
  row : ∀ r, s.attachments.get? id = some r → Expired s.now r ∧
    (r.purgedAt.isSome ∨ w.limit ≤ w.purged ∨ (∃ c ∈ w.page, c.id = id ∧ c.held = false) ∨
      afterCursor w.cursor (id, r) = true)

/-- The purge has ended, or the row is purged or ahead of it. -/
def Covered (s : Service) (j id : Nat) : Prop :=
  s.jobs.get? j = some .finished ∨ ∃ w, s.jobs.get? j = some (.purging w) ∧ Ahead s w id

theorem purgeable_of_unprotected (hclear : s.unprotected id)
    (hget : s.attachments.get? id = some r) (hexpired : Expired s.now r) (hopen : r.purgedAt.isSome ≠ true) :
    purgeable s.now r = true ∧ s.attachmentHeld r = false := by
  have ⟨hevidence, hprocessing⟩ := hclear r hget
  have ⟨e, hexpires, hle⟩ := hexpired
  unfold Service.evidence at hevidence
  rw [Bool.or_eq_false_iff, beq_eq_false_iff_ne] at hevidence
  refine ⟨?_, hevidence.1⟩
  unfold purgeable
  rw [hexpires]
  simp [hle, hevidence.2, hprocessing, Option.not_isSome_iff_eq_none.mp hopen]

variable {r' : Attachment}

theorem expiry_step (hserial : Serial s) (hknown : id < s.nextId)
    (hget : (step p s a).attachments.get? id = some r') :
    ∃ r, s.attachments.get? id = some r ∧ r'.expiresAt = r.expiresAt ∧
      (r.purgedAt.isSome → r'.purgedAt.isSome) := by
  have hstep := row_step (p := p) hserial a id
  rw [hget] at hstep
  generalize s.attachments.get? id = before at hstep
  cases hstep with
  | same => exact ⟨r', rfl, rfl, fun h => h⟩
  | inserted post uploader kind expires keys hid => omega
  | claimed r => exact ⟨r, rfl, rfl, fun h => h⟩
  | exhausted r => exact ⟨r, rfl, rfl, fun h => h⟩
  | finished r => exact ⟨r, rfl, rfl, fun h => h⟩
  | failed r =>
    refine ⟨r, rfl, ?_⟩
    unfold failedRow
    split
    · exact ⟨rfl, fun h => h⟩
    · exact ⟨rfl, fun h => h⟩
    · split
      · exact ⟨rfl, fun h => h⟩
      · exact ⟨rfl, fun h => h⟩
  | purged r => exact ⟨r, rfl, rfl, fun _ => rfl⟩

variable {w : Purge}

/-- The purge goes on past what it has in hand. -/
theorem ahead_step (hserial : Serial s) {w' : Purge} (h : Ahead s w id)
    (hnext : ∀ r r', s.attachments.get? id = some r → (step p s a).attachments.get? id = some r' →
      r'.expiresAt = r.expiresAt → Expired s.now r → r.purgedAt.isSome ≠ true → ¬w.limit ≤ w.purged →
      (∃ c ∈ w.page, c.id = id ∧ c.held = false) ∨ afterCursor w.cursor (id, r) = true →
      r'.purgedAt.isSome ∨ w'.limit ≤ w'.purged ∨ (∃ c ∈ w'.page, c.id = id ∧ c.held = false) ∨
        afterCursor w'.cursor (id, r') = true)
    (hlimit : w.limit ≤ w.purged → w'.limit ≤ w'.purged) : Ahead (step p s a) w' id := by
  have ⟨⟨hids, _, hclock⟩, _⟩ := @picture_step p s hserial a
  refine ⟨Nat.lt_of_lt_of_le h.known hids, fun r' hget => ?_⟩
  have ⟨r, hold, hexpires, hpurged⟩ := expiry_step hserial h.known hget
  have ⟨⟨e, hsome, hle⟩, hcases⟩ := h.row r hold
  refine ⟨⟨e, hexpires.trans hsome, hle.trans hclock⟩, ?_⟩
  by_cases hdone : r.purgedAt.isSome = true
  · exact Or.inl (hpurged hdone)
  · by_cases hspent : w.limit ≤ w.purged
    · exact Or.inr (Or.inl (hlimit hspent))
    · exact hnext r r' hold hget hexpires ⟨e, hsome, hle⟩ hdone hspent
        ((hcases.resolve_left hdone).resolve_left hspent)

theorem afterCursor_congr {cursor : Option (Int × Nat)} {r r' : Attachment}
    (h : r'.expiresAt = r.expiresAt) : afterCursor cursor (id, r') = afterCursor cursor (id, r) := by
  unfold afterCursor expiryOrder
  rw [h]

theorem nodup_expiryOrder (s : Service) (cursor : Option (Int × Nat)) :
    ((s.expiredRows cursor).map expiryOrder).Nodup := by
  have hids : ((s.expiredRows cursor).map Prod.fst).Nodup :=
    s.attachments.nodup.sublist (List.filter_sublist.map Prod.fst)
  refine List.Nodup.of_map (fun rank : Int ×ₗ Nat => (ofLex rank).2) ?_
  rw [List.map_map]
  exact hids

/-- A row that is ahead of a page is on it, or comes after its last row. -/
theorem page_covers (hget : s.attachments.get? id = some r)
    (hpurge : purgeable s.now r = true) (hheld : s.attachmentHeld r = false)
    (hafter : afterCursor w.cursor (id, r) = true) :
    (∃ c ∈ s.nextPage w, c.id = id ∧ c.held = false) ∨
      (s.nextPage w ≠ [] → afterCursor ((s.nextPage w).getLast?.map fun last => (last.expires, last.id))
        (id, r) = true) := by
  have hrow : (id, r) ∈ s.expiredRows w.cursor := by
    refine List.mem_filter.mpr ⟨KeyMap.mem_entries_iff.mpr hget, ?_⟩
    rw [hpurge, hafter]
    rfl
  unfold Service.nextPage Service.expiredAttachmentPage
  by_cases hin : (id, r) ∈ firstBy expiryOrder
      (min (w.limit * 4) (w.limit * purgeScanFactor - w.scanned)) (s.expiredRows w.cursor)
  · exact Or.inl ⟨_, List.mem_map.mpr ⟨_, hin, rfl⟩, rfl, hheld⟩
  · right
    intro hpage
    rw [List.getLast?_map]
    cases hlast : (firstBy expiryOrder (min (w.limit * 4) (w.limit * purgeScanFactor - w.scanned))
        (s.expiredRows w.cursor)).getLast? with
    | none =>
      rw [List.getLast?_eq_none_iff] at hlast
      rw [hlast] at hpage
      exact absurd rfl hpage
    | some last =>
      have hlt := lt_of_not_mem_firstBy (nodup_expiryOrder s w.cursor) hrow hin
        (List.mem_of_getLast? hlast)
      exact decide_eq_true hlt

theorem purgeAttachment_row {i : Nat} (hclear : s.unprotected id)
    (hget : s.attachments.get? id = some r) (hexpired : Expired s.now r)
    (hget' : (s.purgeAttachment i).1.attachments.get? id = some r') :
    (i = id → r'.purgedAt.isSome = true) ∧ (i ≠ id → r' = r) := by
  rcases purgeAttachment_cases s i with ⟨hsame, hkeep⟩ | ⟨old, hold, _, _, hpurged⟩
  · rw [hsame, hget] at hget'
    have heq := Option.some.inj hget'
    refine ⟨fun hi => ?_, fun _ => heq.symm⟩
    subst hi
    by_contra hopen
    rw [← heq] at hopen
    have ⟨hpurge, hheld⟩ := purgeable_of_unprotected hclear hget hexpired hopen
    rcases hkeep r hget with hno | hyes
    · rw [hpurge] at hno
      cases hno
    · rw [hheld] at hyes
      cases hyes
  · rw [hpurged] at hget'
    have hrow : (if id = i then some _ else s.attachments.get? id) = some r' :=
      (get?_setAttachment (s.queueDelete old.keys) i { old.clearKeys with purgedAt := some s.now } id).symm.trans
        hget'
    constructor
    · intro hi
      rw [if_pos hi.symm] at hrow
      rw [← Option.some.inj hrow]
      rfl
    · intro hi
      rw [if_neg (Ne.symm hi), hget] at hrow
      exact (Option.some.inj hrow).symm

theorem covered_page (hserial : Serial s) {answer : Answer} {cancelled : Bool}
    (hjob : s.jobs.get? j = some (.purging w)) (hpage : w.page = []) (h : Ahead s w id)
    (hclear : s.unprotected id) : Covered (step p s (.purge j answer cancelled)) j id := by
  have hset : ∀ job : Job, (s.setJob j job).jobs.get? j = some job := fun job => by
    rw [Service.jobs_setJob, KeyMap.get?_set, if_pos rfl]
  have hstep : step p s (.purge j answer cancelled) = s.purgePage j w (answer = .done) := by
    show s.purgeStep j answer cancelled = _
    unfold Service.purgeStep
    simp only [hjob, hpage]
  have hend : s.purgePage j w (answer = .done) = s.setJob j .finished ∨
      s.nextPage w ≠ [] ∧ s.purgePage j w (answer = .done) = s.setJob j (.purging { w with
        scanned := w.scanned + (s.nextPage w).length
        cursor := (s.nextPage w).getLast?.map fun last => (last.expires, last.id)
        page := s.nextPage w }) := by
    show s.purgePage j w _ = _ ∨ s.nextPage w ≠ [] ∧ s.purgePage j w _ = _
    unfold Service.purgePage
    split
    · split
      · exact Or.inl rfl
      · next c cs hnext =>
        have hnext' : s.nextPage w = c :: cs := hnext
        rw [hnext']
        exact Or.inr ⟨List.cons_ne_nil _ _, rfl⟩
    · exact Or.inl rfl
  rcases hend with hend | ⟨hne, hend⟩
  · left
    rw [hstep, hend]
    exact hset _
  · right
    refine ⟨{ w with
      scanned := w.scanned + (s.nextPage w).length
      cursor := (s.nextPage w).getLast?.map fun last => (last.expires, last.id)
      page := s.nextPage w }, ?_, ahead_step hserial h ?_ fun hspent => hspent⟩
    · rw [hstep, hend]
      exact hset _
    · intro r r' hget hget' hexpires hexpired hopen hspent hcases
      right
      right
      rw [afterCursor_congr hexpires]
      have hafter : afterCursor w.cursor (id, r) = true := by
        refine hcases.resolve_left ?_
        rw [hpage]
        rintro ⟨c, hc, _⟩
        cases hc
      have ⟨hpurge, hheld⟩ := purgeable_of_unprotected hclear hget hexpired hopen
      exact (page_covers hget hpurge hheld hafter).imp_right fun himp => himp hne

theorem covered_candidate (hserial : Serial s) {c : Candidate}
    {rest : List Candidate} {answer : Answer} {cancelled : Bool}
    (hjob : s.jobs.get? j = some (.purging w)) (hpage : w.page = c :: rest) (h : Ahead s w id)
    (hclear : s.unprotected id) (hreported : answer ≠ .failed) :
    Covered (step p s (.purge j answer cancelled)) j id := by
  have hset : ∀ (t : Service) (job : Job), (t.setJob j job).jobs.get? j = some job := fun t job => by
    rw [Service.jobs_setJob, KeyMap.get?_set, if_pos rfl]
  have hstep : step p s (.purge j answer cancelled) = s.purgeCandidate j w c rest answer cancelled := by
    show s.purgeStep j answer cancelled = _
    unfold Service.purgeStep
    simp only [hjob, hpage]
  -- A candidate that is left behind is not the one that stands for the row.
  have hrest : (∃ x ∈ w.page, x.id = id ∧ x.held = false) → c.held = true ∨ c.id ≠ id →
      ∃ x ∈ rest, x.id = id ∧ x.held = false := by
    rintro ⟨x, hx, hid, hheld⟩ hother
    rw [hpage] at hx
    rcases List.mem_cons.mp hx with rfl | hx
    · rcases hother with hyes | hne
      · rw [hheld] at hyes
        cases hyes
      · exact absurd hid hne
    · exact ⟨x, hx, hid, hheld⟩
  have hpurges : ∀ (w' : Purge), w'.cursor = w.cursor → (w.limit ≤ w.purged → w'.limit ≤ w'.purged) →
      (w'.page = rest ∨ w'.limit ≤ w'.purged) → c.held = false →
      step p s (.purge j answer cancelled) = (s.purgeAttachment c.id).1.setJob j (.purging w') →
      Covered (step p s (.purge j answer cancelled)) j id := by
    intro w' hcursor hlimit hnext hheld hafter
    right
    refine ⟨w', ?_, ahead_step hserial h ?_ hlimit⟩
    · rw [hafter]
      exact hset _ _
    · intro r r' hget hget' hexpires hexpired hopen hspent hcases
      rw [hafter] at hget'
      have ⟨hit, hmiss⟩ := purgeAttachment_row hclear hget hexpired hget'
      by_cases hid : c.id = id
      · exact Or.inl (hit hid)
      · right
        rcases hnext with hnext | hfull
        · right
          rw [hcursor, afterCursor_congr hexpires, hnext]
          exact hcases.imp_left fun hon => hrest hon (Or.inr hid)
        · exact Or.inl hfull
  cases hheld : c.held with
  | true =>
    have hskip : s.purgeCandidate j w c rest answer cancelled =
        s.setJob j (.purging { w with page := rest }) := by
      unfold Service.purgeCandidate
      rw [if_pos hheld]
    right
    refine ⟨{ w with page := rest }, ?_, ahead_step hserial h ?_ fun hspent => hspent⟩
    · rw [hstep, hskip]
      exact hset _ _
    · intro r r' hget hget' hexpires hexpired hopen hspent hcases
      right
      right
      rw [afterCursor_congr hexpires]
      exact hcases.imp_left fun hon => hrest hon (Or.inl hheld)
  | false =>
    have hgo : ∀ t : Service, s.purgeCandidate j w c rest answer cancelled = t →
        step p s (.purge j answer cancelled) = t := fun t ht => hstep.trans ht
    have hnot : ¬c.held = true := by
      rw [hheld]
      exact Bool.false_ne_true
    cases answer with
    | failed => exact absurd rfl hreported
    | done =>
      refine hpurges { w with
        purged := w.purged + if (s.purgeAttachment c.id).2 then 1 else 0
        page := if w.limit ≤ w.purged + (if (s.purgeAttachment c.id).2 then 1 else 0) then [] else rest }
        rfl ?_ ?_ hheld (hgo _ ?_)
      · intro hspent
        exact Nat.le_add_right_of_le hspent
      · by_cases hfull : w.limit ≤ w.purged + if (s.purgeAttachment c.id).2 then 1 else 0
        · exact Or.inr hfull
        · exact Or.inl (if_neg hfull)
      · unfold Service.purgeCandidate
        rw [if_neg hnot]
    | lost =>
      cases cancelled with
      | true =>
        left
        rw [hgo ((s.purgeAttachment c.id).1.setJob j .finished) (by
          unfold Service.purgeCandidate
          rw [if_neg hnot]
          rfl)]
        exact hset _ _
      | false =>
        refine hpurges { w with page := rest } rfl (fun hspent => hspent) (Or.inl rfl) hheld (hgo _ ?_)
        unfold Service.purgeCandidate
        rw [if_neg hnot]
        rfl

theorem covered_step (hserial : Serial s) (h : Covered s j id) (hclear : s.unprotected id)
    (hreported : ∀ cancelled, a ≠ .purge j .failed cancelled) : Covered (step p s a) j id := by
  rcases h with hdone | ⟨w, hjob, h⟩
  · exact Or.inl (purge_kept hserial hdone (Or.inl rfl))
  · by_cases hown : ∃ answer cancelled, a = .purge j answer cancelled
    · have ⟨answer, cancelled, ha⟩ := hown
      subst ha
      have hanswer : answer ≠ .failed := by
        rintro rfl
        exact hreported cancelled rfl
      cases hpage : w.page with
      | nil => exact covered_page hserial hjob hpage h hclear
      | cons => exact covered_candidate hserial hjob hpage h hclear hanswer
    · right
      refine ⟨w, purge_kept hserial hjob (Or.inr ⟨⟨w, rfl⟩, ?_⟩), ahead_step hserial h ?_ fun hs => hs⟩
      · intro answer cancelled ha
        exact hown ⟨answer, cancelled, ha⟩
      · intro r r' hget hget' hexpires hexpired hopen hspent hcases
        right
        right
        rw [afterCursor_congr hexpires]
        exact hcases

theorem purged_of_covered (h : Covered s j id) (hends : s.scanEnds j)
    (hclear : s.unprotected id) (hget : s.attachments.get? id = some r) :
    r.purgedAt.isSome = true := by
  have ⟨w, hjob, hpage, hpurged, hscanned, hnext⟩ := hends
  rcases h with hdone | ⟨w', hjob', h⟩
  · rw [hdone] at hjob
    cases hjob
  · rw [hjob'] at hjob
    cases hjob
    have ⟨hexpired, hcases⟩ := h.row r hget
    by_contra hopen
    have ⟨hpurge, hheld⟩ := purgeable_of_unprotected hclear hget hexpired hopen
    rcases hcases with hdone | hspent | ⟨c, hc, _⟩ | hafter
    · exact hopen hdone
    · omega
    · rw [hpage] at hc
      cases hc
    · -- The query takes at least one row, and this one is there to take.
      have hrow : (id, r) ∈ s.expiredRows w.cursor := by
        refine List.mem_filter.mpr ⟨KeyMap.mem_entries_iff.mpr hget, ?_⟩
        rw [hpurge, hafter]
        rfl
      have hfirst : firstBy expiryOrder (min (w.limit * 4) (w.limit * purgeScanFactor - w.scanned))
          (s.expiredRows w.cursor) = [] := List.map_eq_nil_iff.mp hnext
      have hsize := congrArg List.length hfirst
      have hpos : 0 < (s.expiredRows w.cursor).length := List.length_pos_of_mem hrow
      unfold firstBy at hsize
      rw [List.length_take, List.length_mergeSort, List.length_nil] at hsize
      omega

/-- One call of a purge: it starts, no call of it fails without effect, and it ends on an empty page. -/
structure PurgeCall (p : PolicyConfig) (s : Service) (limit : Nat) (during : List Action) : Prop where
  limits : 1 ≤ limit ∧ limit ≤ 1000
  reported : ∀ cancelled, Action.purge s.nextId .failed cancelled ∉ during
  ends : (run p (step p s (.startPurge limit)) during).scanEnds s.nextId

/-- The purge has purged every row that was expired when it started and that was unprotected in every
state of the call, if it is still there. -/
theorem purge_complete (hleased : Leased p s) {limit : Nat} {during : List Action}
    (hcall : PurgeCall p s limit during) {r : Attachment}
    (hget : s.attachments.get? id = some r) (hexpired : Expired s.now r)
    (hclear : ∀ before after, during = before ++ after →
      (run p (step p s (.startPurge limit)) before).unprotected id)

    (hget' : (run p (step p s (.startPurge limit)) during).attachments.get? id = some r') :
    r'.purgedAt.isSome = true := by
  have hstart : step p s (.startPurge limit) = s.startJob (.purging ⟨limit, 0, 0, none, []⟩) :=
    if_pos hcall.limits
  have hknown : id < s.nextId := by
    by_contra hge
    rw [hleased.serial.attachments id (Nat.le_of_not_lt hge)] at hget
    cases hget
  have hcovered : Covered (step p s (.startPurge limit)) s.nextId id := by
    right
    refine ⟨⟨limit, 0, 0, none, []⟩, ?_, ?_, ?_⟩
    · rw [hstart, Service.jobs_startJob, KeyMap.get?_set, if_pos rfl]
    · rw [hstart]
      exact Nat.lt_succ_of_lt hknown
    · intro r₁ hget₁
      rw [hstart] at hget₁
      have hrow : s.attachments.get? id = some r₁ := hget₁
      rw [hget] at hrow
      have heq := Option.some.inj hrow
      rw [hstart, ← heq]
      exact ⟨hexpired, Or.inr (Or.inr (Or.inr rfl))⟩
  have hrun := @Machine.run_guarded _ _ (step p) (fun t => Leased p t ∧ Covered t s.nextId id)
    (fun t a => t.unprotected id ∧ ∀ cancelled, a ≠ .purge s.nextId .failed cancelled)
    (fun t a h hguard => ⟨leased_step h.1 a, covered_step h.1.serial h.2 hguard.1 hguard.2⟩)
    _ ⟨leased_step hleased _, hcovered⟩ during (by
      intro ⟨t, a⟩ hq
      have ⟨before, after, hsplit, ht⟩ := (Machine.mem_steps (step p)).mp hq
      refine ⟨?_, fun cancelled ha => hcall.reported cancelled ?_⟩
      · show t.unprotected id
        rw [ht]
        exact hclear before (a :: after) hsplit
      · rw [hsplit, ← ha]
        exact List.mem_append_right _ List.mem_cons_self)
  exact purged_of_covered hrun.2 hcall.ends (hclear during [] (List.append_nil _).symm) hget'

/-! ### Runs -/

/-- Every run in which each publishing transaction that takes effect is reported as such. -/
theorem evidence_preserved (p : PolicyConfig) (now : Int) (as : List Action)
    (hkept : ∀ q ∈ Machine.steps (step p) (Service.initial now) as,
      publicationLost p q.1 q.2 = false) :
    -- A step leaves the objects of evidence, unless it deletes the row or settles its claim.
    (∀ q ∈ Machine.steps (step p) (Service.initial now) as, ∀ id r,
      q.1.attachments.get? id = some r → q.1.evidence r = true →
      q.2.deletes id = false → ¬q.1.settles p id q.2 →
      ∃ r', (step p q.1 q.2).attachments.get? id = some r' ∧ r'.keys = r.keys ∧
        ∀ k ∈ r.keys, k ∈ (step p q.1 q.2).objects ∧ (step p q.1 q.2).queued k = false) ∧
    -- A purge that ends on an empty page has purged what was unprotected throughout.
    ∀ limit during, PurgeCall p (run p (Service.initial now) as) limit during →
      ∀ id r, (run p (Service.initial now) as).attachments.get? id = some r →
        Expired (run p (Service.initial now) as).now r →
        (∀ before after, during = before ++ after →
          (run p (step p (run p (Service.initial now) as) (.startPurge limit)) before).unprotected id) →
        ∀ r', (run p (step p (run p (Service.initial now) as) (.startPurge limit)) during).attachments.get? id =
          some r' → r'.purgedAt.isSome = true := by
  constructor
  · intro ⟨s, a⟩ hq id r hget hevidence hdeletes hsettles
    have hinv := @Machine.steps_guarded _ _ (step p) (fun s => Leased p s ∧ Accounted s)
      (fun s a => publicationLost p s a = false)
      (fun s a h hguard => ⟨leased_step h.1 a, accounted_step h.1 h.2 a hguard⟩) _
      ⟨leased_initial p now, accounted_initial now⟩ as hkept (s, a) hq
    have ⟨hleased, haccounted⟩ : Leased p s ∧ Accounted s := hinv
    have ⟨r', hget', hkeys⟩ := evidence_step hleased hget hevidence hdeletes hsettles
    refine ⟨r', hget', hkeys, fun k hk => ?_⟩
    have hafter := accountable_of_accounted (accounted_step hleased haccounted a (hkept (s, a) hq))
    rw [← hkeys] at hk
    exact hafter.rows k (named_of_mem_keys hget' hk)
  · intro limit during hcall id r hget hexpired hclear r' hget'
    exact purge_complete (leased_run p now as) hcall hget hexpired hclear hget'

/-- An image on a post of its author, for an hour. -/
def imageUploaded : List Action :=
  [.change (.write 1 7 none none), .start (.attachment 1 7 .image (some 3600) false) false,
    .put 1 .done .other, .publish 1 ⟨true, .adult⟩ .done]

/-- The state when the hour is over. -/
def imageExpired : Service :=
  run defaultPolicyConfig (Service.initial 0) (imageUploaded ++ [.tick 4000])

/-- A page, its only row, and the end. -/
def purgeCalls : List Action := [.purge 3 .done false, .purge 3 .done false]

theorem purgeCall_imageExpired : PurgeCall defaultPolicyConfig imageExpired 2 purgeCalls := by
  constructor
  · decide
  · decide +kernel
  · exact ⟨⟨2, 1, 1, some (3600, 2), []⟩, by decide +kernel, rfl, by decide, by decide, by decide +kernel⟩

theorem unprotected_of_all
    (h : ((s.attachments.get? id).all fun r => !s.evidence r && r.status != .processing) = true) :
    s.unprotected id := by
  intro r hget
  rw [hget] at h
  simpa using h

theorem evidence_preserved_image :
    (∀ q ∈ Machine.steps (step defaultPolicyConfig) (Service.initial 0)
      (imageUploaded ++ [.tick 4000]), publicationLost defaultPolicyConfig q.1 q.2 = false) ∧
    ∀ r', (run defaultPolicyConfig (step defaultPolicyConfig imageExpired (.startPurge 2))
      purgeCalls).attachments.get? 2 = some r' → r'.purgedAt.isSome = true := by
  have hkept : ∀ q ∈ Machine.steps (step defaultPolicyConfig) (Service.initial 0)
      (imageUploaded ++ [.tick 4000]), publicationLost defaultPolicyConfig q.1 q.2 = false := by
    decide +kernel
  have hclear : ∀ before ∈ purgeCalls.inits,
      (((run defaultPolicyConfig (step defaultPolicyConfig imageExpired (.startPurge 2))
        before).attachments.get? 2).all fun r =>
          !(run defaultPolicyConfig (step defaultPolicyConfig imageExpired (.startPurge 2))
            before).evidence r && r.status != .processing) = true := by
    decide +kernel
  refine ⟨hkept, (evidence_preserved defaultPolicyConfig 0 _ hkept).2 2 purgeCalls
    purgeCall_imageExpired 2 _ rfl ⟨3600, rfl, by decide +kernel⟩ fun before after hsplit => ?_⟩
  exact unprotected_of_all (hclear before ((List.mem_inits _ _).mpr ⟨after, hsplit.symm⟩))

/-- The uploader deletes an attachment that is held, and its object is queued. -/
theorem evidence_deleted_by_uploader :
    (∃ r, (run defaultPolicyConfig (Service.initial 0)
        (imageUploaded ++ [.change (.setHidden 1 true)])).attachments.get? 2 = some r ∧
      r.keys = [0] ∧ r.uploader = 7 ∧ (run defaultPolicyConfig (Service.initial 0)
        (imageUploaded ++ [.change (.setHidden 1 true)])).attachmentHeld r = true) ∧
    (run defaultPolicyConfig (Service.initial 0)
      (imageUploaded ++ [.change (.setHidden 1 true), .deleteAttachment 7 false 2 .done])).queued 0 =
        true :=
  ⟨⟨_, rfl, by decide +kernel, by decide +kernel, by decide +kernel⟩, by decide +kernel⟩

end SocialActivities.Media
