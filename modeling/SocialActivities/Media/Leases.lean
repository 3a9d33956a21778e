import SocialActivities.Media.Steps

/-!
# `SocialActivities.Media.Leases`: the life of a video (Go)

A worker claims a row in one transaction, works for as long as it takes, and ends the claim in another.
Meanwhile the lease may have become stale and gone to another worker, and the row may have been purged
or deleted. `Leased` is the invariant that every interleaving keeps: the claims that may still
write a row have different start times, and all but the one under way are older than the row's lease.
So no two of them hold it (`Leased.holder_unique`). `Shaped` says which keys and attempts a row has in
each status.

`video_lifecycle` collects what follows for every run: a row becomes ready at most once, in the
finishing transaction of the claim that holds its lease; the attempts stay within the maximum, and a
recorded outage of the scanner costs none; the terminal statuses are left by deletion or purge only;
a worker that has lost its lease leaves the row as it is, and discards its own objects only; and a
pending row is claimed whatever rows have no attempts left.
-/

namespace SocialActivities.Media

open Lib

/-- Keys and attempts of a row, by its status. -/
structure Shaped (p : PolicyConfig) (r : Attachment) : Prop where
  attempts : r.attempts ≤ p.videoMaxAttempts
  purged : r.purgedAt.isSome → r.keys = [] ∧ r.status ≠ .processing ∧ r.status ≠ .blocked
  video : r.status ≠ .ready → r.kind = .video
  pending : r.status = .pending → r.startedAt = none ∧ r.attempts < p.videoMaxAttempts
  processing : r.status = .processing → r.startedAt.isSome ∧ 1 ≤ r.attempts
  source : r.status = .pending ∨ r.status = .processing ∨ r.status = .blocked → r.purgedAt = none →
    r.sourceKey.isSome ∧ r.storageKey = none ∧ r.thumbKey = none ∧ r.posterKey = none
  ready : r.status = .ready → r.purgedAt = none → r.storageKey.isSome ∧ r.sourceKey = none
  failed : r.status = .failed → r.keys = []

/-- What any order of steps keeps of the rows and the claims. -/
structure Leased (p : PolicyConfig) (s : Service) : Prop where
  serial : Serial s
  shaped : ∀ id r, s.attachments.get? id = some r → Shaped p r
  /-- A claim under way was made before now, of a row that was there. -/
  started : ∀ j job lease, s.jobs.get? j = some job → job.active? = some lease →
    lease.id < s.nextId ∧ ∃ t, lease.att.startedAt = some t ∧ t ≤ s.now
  /-- The lease of a row was taken before now. -/
  clock : ∀ id r t, s.attachments.get? id = some r → r.startedAt = some t → t ≤ s.now
  /-- The claims of a row that waits are older than now. -/
  waiting : ∀ j job lease r, s.jobs.get? j = some job → job.active? = some lease →
    s.attachments.get? lease.id = some r → r.status = .pending →
    ∀ t, lease.att.startedAt = some t → t < s.now
  /-- The claims of a row in processing are not younger than its lease. -/
  latest : ∀ j job lease r, s.jobs.get? j = some job → job.active? = some lease →
    s.attachments.get? lease.id = some r → r.status = .processing →
    ∀ t u, lease.att.startedAt = some t → r.startedAt = some u → t ≤ u
  /-- Two claims of a row started at different times. -/
  distinct : ∀ j job lease j' job' lease', s.jobs.get? j = some job → job.active? = some lease →
    s.jobs.get? j' = some job' → job'.active? = some lease' → lease.id = lease'.id → j ≠ j' →
    lease.att.startedAt ≠ lease'.att.startedAt
  /-- A claim is ended once. -/
  once : ∀ j job, s.jobs.get? j = some job → job.OneFailure
  /-- The row under a lease is as the claim left it. -/
  current : ∀ j job lease r, s.jobs.get? j = some job → job.active? = some lease →
    s.attachments.get? lease.id = some r → s.holds lease = true → r = lease.att
  /-- The keys in the hands of a worker are its own draws. -/
  made : ∀ j job lease, s.jobs.get? j = some job → job.lease? = some lease →
    ∀ k ∈ job.keys, s.makers[k]? = some j

variable {p : PolicyConfig} {s t : Service} {a : Action}

/-! ### Rows -/

theorem claimable_cases {now : Int} {r : Attachment} (h : claimable p now r = true) :
    r.kind = .video ∧ r.purgedAt = none ∧ r.sourceKey.isSome ∧
      (r.status = .pending ∨ r.status = .processing ∧ r.attempts < p.videoMaxAttempts ∧
        ∃ u, r.startedAt = some u ∧ u < now - p.videoStaleProcessing) := by
  unfold claimable at h
  simp only [Bool.and_eq_true, Bool.or_eq_true, beq_iff_eq, Option.isNone_iff_eq_none,
    decide_eq_true_eq, Option.any_eq_true] at h
  have ⟨⟨⟨hkind, hpurged⟩, hsource⟩, hstatus⟩ := h
  refine ⟨hkind, hpurged, hsource, hstatus.imp_right fun ⟨⟨hprocessing, u, hu, hstale⟩, hleft⟩ => ?_⟩
  exact ⟨hprocessing, hleft, u, hu, hstale⟩

theorem purgeable_cases {now : Int} {r : Attachment} (h : purgeable now r = true) :
    r.purgedAt = none ∧ (∃ e, r.expiresAt = some e ∧ e ≤ now) ∧ r.status ≠ .blocked ∧
      r.status ≠ .processing := by
  unfold purgeable at h
  simp only [Bool.and_eq_true, Option.isNone_iff_eq_none, Option.any_eq_true, decide_eq_true_eq,
    bne_iff_ne] at h
  exact ⟨h.1.1.1, h.1.1.2, h.1.2, h.2⟩

theorem Shaped.unpurged {r : Attachment} (h : Shaped p r) (hstatus : r.status = .processing) :
    r.purgedAt = none := by
  cases hpurged : r.purgedAt with
  | none => rfl
  | some => exact absurd hstatus (h.purged (by rw [hpurged]; rfl)).2.1

theorem Shaped.claimed {r : Attachment} (h : Shaped p r) {id : Nat}
    (hclaim : claimable p s.now r = true) (hleft : r.attempts < p.videoMaxAttempts) :
    Shaped p (s.leaseOf id r).att := by
  have ⟨hkind, hpurged, _, hstatus⟩ := claimable_cases hclaim
  have hsource := h.source (hstatus.imp_right fun hp => Or.inl hp.1) hpurged
  constructor <;> simp [Service.leaseOf, hkind, hpurged, hsource]
  omega

theorem Shaped.failed_row {r : Attachment} (h : Shaped p r) (hstatus : r.status ≠ .ready) :
    Shaped p { r.clearKeys with status := .failed, startedAt := none } := by
  have hattempts := h.attempts
  have hvideo := h.video hstatus
  constructor <;> simp [Attachment.clearKeys, Attachment.keys, hattempts, hvideo]

theorem failedRow_cases (p : PolicyConfig) (cause : Cause) (r : Attachment) :
    failedRow p cause r = { r with status := .pending, attempts := r.attempts - 1, startedAt := none } ∨
      failedRow p cause r = { r with status := .blocked, startedAt := none } ∨
      failedRow p cause r = { r.clearKeys with status := .failed, startedAt := none } ∨
      failedRow p cause r = r := by
  cases cause with
  | scanner => exact Or.inl rfl
  | blocked => exact Or.inr (Or.inl rfl)
  | _ => exact Or.inr (Or.inr (ite_eq_or_eq _ _ _))

theorem Shaped.failure {r : Attachment} (h : Shaped p r) (hstatus : r.status = .processing)
    (cause : Cause) : Shaped p (failedRow p cause r) := by
  have hunpurged := h.unpurged hstatus
  have hsource := h.source (Or.inr (Or.inl hstatus)) hunpurged
  have hone := (h.processing hstatus).2
  have hmax := h.attempts
  have hvideo : r.status ≠ .ready := by simp [hstatus]
  rcases failedRow_cases p cause r with hrow | hrow | hrow | hrow <;> rw [hrow]
  · constructor <;> simp [hunpurged, hsource, h.video hvideo] <;> omega
  · constructor <;> simp [hunpurged, hsource, h.video hvideo, hmax]
  · exact h.failed_row hvideo
  · exact h

theorem Shaped.published {r : Attachment} (h : Shaped p r) {keys : List Key}
    (hkeys : keys.length = 2) (hstatus : r.status = .processing) : Shaped p (readyRow keys r) := by
  have hattempts := h.attempts
  have hunpurged := h.unpurged hstatus
  constructor <;> simp [readyRow, hattempts, hunpurged, hkeys]

theorem Shaped.purge {r : Attachment} (h : Shaped p r) {now : Int}
    (hpurge : purgeable now r = true) :
    Shaped p { r.clearKeys with purgedAt := some now } where
  attempts := h.attempts
  purged _ := ⟨rfl, (purgeable_cases hpurge).2.2.2, (purgeable_cases hpurge).2.2.1⟩
  video := h.video
  pending := h.pending
  processing hstatus := absurd hstatus (purgeable_cases hpurge).2.2.2
  source _ hpurged := by cases hpurged
  ready _ hpurged := by cases hpurged
  failed _ := rfl

theorem Shaped.inserted (p : PolicyConfig) (s : Service) (post uploader : Nat) {kind : Kind}
    (expires : Option Int) {keys : List Key} (hkeys : keys ≠ [])
    (hone : kind ≠ .image → keys.length = 1) :
    Shaped p (s.newAttachment post uploader kind expires keys) := by
  have hfirst : keys[0]?.isSome = true := by
    rw [List.getElem?_eq_getElem (List.length_pos_of_ne_nil hkeys)]
    rfl
  have hattempts := p.attempts_pos
  unfold Service.newAttachment
  by_cases hvideo : kind = .video
  · -- A video has one object, its source.
    have hsecond : keys[1]? = none := by
      rw [List.getElem?_eq_none_iff, hone (by rw [hvideo]; simp)]
    constructor <;> simp [hvideo, hfirst, hsecond]
    omega
  · constructor <;> simp [hvideo, hfirst]

theorem shaped_step (hserial : Serial s) (h : ∀ id r, s.attachments.get? id = some r → Shaped p r)
    {id : Nat} {r : Attachment} (hget : (step p s a).attachments.get? id = some r) : Shaped p r := by
  have hstep := @row_step p s hserial a id
  rw [hget] at hstep
  generalize hbefore : s.attachments.get? id = before at hstep
  cases hstep with
  | same => exact h id r hbefore
  | inserted post uploader kind expires keys hid hnext hkeys hone =>
    exact Shaped.inserted p s post uploader expires hkeys hone
  | claimed r locked answer haction hclaim hleft => exact (h id r hbefore).claimed hclaim hleft
  | exhausted r hclaim hspent hstatus =>
    refine (h id r hbefore).failed_row ?_
    rcases (claimable_cases hclaim).2.2.2 with hp | hp
    · rw [hp]
      simp
    · exact absurd hp.1 hstatus
  | finished r j thumb keys lease g answer haction hjob hkeys hid hholds =>
    subst hid
    exact (h _ r hbefore).published hkeys ((holds_iff hbefore).mp hholds).1
  | failed r j lease cause tasks answer haction hjob hnext hid hholds =>
    subst hid
    exact (h _ r hbefore).failure ((holds_iff hbefore).mp hholds).1 cause
  | purged r j answer cancelled haction hpurge => exact (h id r hbefore).purge hpurge

/-! ### Claims -/

/-- A claim that may still write its row after a step is one from before, or the one that the step
made. -/
theorem active_step (hserial : Serial s) {j : Nat} {job : Job} {lease : Lease}
    (hget : (step p s a).jobs.get? j = some job) (hactive : job.active? = some lease) :
    (∃ old, s.jobs.get? j = some old ∧ old.active? = some lease) ∨
      (j = s.nextId ∧ ∃ id r, lease = s.leaseOf id r ∧ s.attachments.get? id = some r ∧
        claimable p s.now r = true ∧
        (step p s a).attachments = s.attachments.set id (s.leaseOf id r).att) := by
  have hstep := @job_step p s hserial a j
  rw [hget] at hstep
  generalize hbefore : s.jobs.get? j = before at hstep
  cases hstep with
  | same => exact Or.inl ⟨job, rfl, hactive⟩
  | started _ hid hnext hlease hnone =>
    rw [hnone] at hactive
    cases hactive
  | claimed id r hid hnext hrow hclaim hleft hset =>
    exact Or.inr ⟨hid, id, r, (Option.some.inj hactive).symm, hrow, hclaim, hset⟩
  | moved old _ hlease hmoved =>
    rcases hmoved with hnone | hsame
    · rw [hnone] at hactive
      cases hactive
    · exact Or.inl ⟨old, rfl, hsame ▸ hactive⟩

theorem Leased.before_now (h : Leased p s) {j : Nat} {job : Job} {lease : Lease} {r : Attachment}
    (hjob : s.jobs.get? j = some job) (hactive : job.active? = some lease)
    (hget : s.attachments.get? lease.id = some r) (hclaim : claimable p s.now r = true) {t : Int}
    (ht : lease.att.startedAt = some t) : t < s.now := by
  have ⟨_, _, _, hstatus⟩ := claimable_cases hclaim
  rcases hstatus with hpending | ⟨hprocessing, _, u, hu, hstale⟩
  · exact h.waiting j job lease r hjob hactive hget hpending t ht
  · have hle := h.latest j job lease r hjob hactive hget hprocessing t u ht hu
    have hpos := p.stale_pos
    omega

/-- At most one claim holds the lease of a row. -/
theorem Leased.holder_unique (h : Leased p s) {j j' : Nat} {job job' : Job} {lease lease' : Lease}
    (hjob : s.jobs.get? j = some job) (hactive : job.active? = some lease)
    (hjob' : s.jobs.get? j' = some job') (hactive' : job'.active? = some lease')
    (hid : lease.id = lease'.id) (hholds : s.holds lease = true) (hholds' : s.holds lease' = true) :
    j = j' := by
  by_contra hne
  have ⟨r, hget, _⟩ := (Option.any_eq_true _ _).mp hholds
  have hrow := (holds_iff hget).mp hholds
  rw [hid] at hget
  have hrow' := (holds_iff hget).mp hholds'
  exact h.distinct j job lease j' job' lease' hjob hactive hjob' hactive' hid hne
    (hrow.2.2.symm.trans hrow'.2.2)

theorem Leased.recorded (h : Leased p s) {j : Nat} {lease : Option Lease} {cause : Cause}
    {tasks : List Task} (hjob : s.jobs.get? j = some (.ending lease (.failClaim cause :: tasks))) :
    (Job.ending lease tasks).active? = none := by
  have hone : (Task.failClaim cause :: tasks).countP Task.writesRow ≤ 1 := h.once j _ hjob
  have hwrites : (Task.failClaim cause).writesRow = true := rfl
  rw [List.countP_cons, if_pos hwrites] at hone
  have hnone : ¬tasks.any Task.writesRow = true := by
    rw [List.any_eq_true]
    rintro ⟨task, hmem, htask⟩
    have hpos := List.countP_pos_iff.mpr ⟨task, hmem, htask⟩
    omega
  exact if_neg hnone

theorem failedRow_processing {cause : Cause} {r : Attachment}
    (h : (failedRow p cause r).status = .processing) : failedRow p cause r = r := by
  rcases failedRow_cases p cause r with hrow | hrow | hrow | hrow
  · simp [hrow] at h
  · simp [hrow] at h
  · simp [hrow] at h
  · exact hrow

theorem failedRow_started {cause : Cause} {r : Attachment} (hstatus : r.status = .processing)
    (h : (failedRow p cause r).status ≠ .processing) : (failedRow p cause r).startedAt = none := by
  rcases failedRow_cases p cause r with hrow | hrow | hrow | hrow
  · rw [hrow]
  · rw [hrow]
  · rw [hrow]
  · exact absurd ((congrArg Attachment.status hrow).trans hstatus) h

theorem failedRow_not_ready {cause : Cause} {r : Attachment} (hstatus : r.status = .processing) :
    (failedRow p cause r).status ≠ .ready := by
  rcases failedRow_cases p cause r with hrow | hrow | hrow | hrow <;> simp [hrow, hstatus]

theorem get?_leaseOf {id : Nat} {r : Attachment}
    (hset : t.attachments = s.attachments.set id (s.leaseOf id r).att) :
    t.attachments.get? (s.leaseOf id r).id = some (s.leaseOf id r).att := by
  rw [hset, KeyMap.get?_set]
  exact if_pos rfl

/-! ### The invariant is kept -/

/-- A row that is pending after a step: it was so before, or the failure of a claim that held the lease
was recorded. -/
theorem pending_before (h : Leased p s) {id : Nat} {r : Attachment} (hold : id < s.nextId)
    (hget : (step p s a).attachments.get? id = some r) (hstatus : r.status = .pending) :
    (∃ r', s.attachments.get? id = some r' ∧ r'.status = .pending) ∨
      ∃ r' j job lease, s.attachments.get? id = some r' ∧ r'.status = .processing ∧
        s.jobs.get? j = some job ∧ job.active? = some lease ∧ lease.id = id ∧
        s.holds lease = true ∧ ∀ job', (step p s a).jobs.get? j = some job' → job'.active? = none := by
  have hstep := @row_step p s h.serial a id
  rw [hget] at hstep
  generalize hbefore : s.attachments.get? id = before at hstep
  cases hstep with
  | same => exact Or.inl ⟨r, rfl, hstatus⟩
  | inserted post uploader kind expires keys hid hnext hkeys hone hpost => omega
  | claimed | exhausted => cases hstatus
  | finished =>
    cases hstatus
  | failed r' j lease cause tasks answer haction hjob hnext hid hholds =>
    subst hid
    have hprocessing := ((holds_iff hbefore).mp hholds).1
    have hactive : (Job.ending (some lease) (.failClaim cause :: tasks)).active? = some lease := rfl
    refine Or.inr ⟨r', j, _, lease, rfl, hprocessing, hjob, hactive, rfl, hholds, ?_⟩
    intro job' hjob'
    rw [hnext] at hjob'
    rw [← Option.some.inj hjob']
    exact h.recorded hjob
  | purged r' => exact Or.inl ⟨r', rfl, hstatus⟩

theorem processing_before (h : Leased p s) {id : Nat} {r : Attachment}
    (hget : (step p s a).attachments.get? id = some r) (hstatus : r.status = .processing) :
    s.attachments.get? id = some r ∨
      ∃ r', s.attachments.get? id = some r' ∧ claimable p s.now r' = true ∧
        r = (s.leaseOf id r').att := by
  have hstep := @row_step p s h.serial a id
  rw [hget] at hstep
  generalize hbefore : s.attachments.get? id = before at hstep
  cases hstep with
  | same => exact Or.inl rfl
  | inserted post uploader kind =>
    unfold Service.newAttachment at hstatus
    by_cases hvideo : kind = .video <;> simp [hvideo] at hstatus
  | claimed r' locked answer haction hclaim => exact Or.inr ⟨r', rfl, hclaim, rfl⟩
  | exhausted => cases hstatus
  | finished =>
    cases hstatus
  | failed r' j lease cause tasks answer haction hjob hnext hid =>
    subst hid
    have hsame := failedRow_processing hstatus
    rw [hsame]
    exact Or.inl rfl
  | purged r' j answer cancelled haction hpurge =>
    exact absurd hstatus (purgeable_cases hpurge).2.2.2

theorem leased_initial (p : PolicyConfig) (now : Int) : Leased p (Service.initial now) where
  serial := serial_initial now
  shaped id r hget := by cases hget
  started j job lease hjob := by cases hjob
  clock id r t hget := by cases hget
  waiting j job lease r hjob := by cases hjob
  latest j job lease r hjob := by cases hjob
  distinct j job lease j' job' lease' hjob := by cases hjob
  once j job hjob := by cases hjob
  current j job lease r hjob := by cases hjob
  made j job lease hjob := by cases hjob

theorem leased_step (h : Leased p s) (a : Action) : Leased p (step p s a) := by
  have ⟨⟨hids, ⟨more, hdraws⟩, hclock⟩, _⟩ := @picture_step p s h.serial a
  constructor
  · exact serial_step h.serial a
  · intro id r hget
    exact shaped_step h.serial h.shaped hget
  · -- A claim under way was made before.
    intro j job lease hjob hactive
    rcases active_step h.serial hjob hactive with ⟨old, hold, hactive'⟩ | ⟨_, id, r, rfl, hget, _⟩
    · have ⟨hid, t, ht, hle⟩ := h.started j old lease hold hactive'
      exact ⟨Nat.lt_of_lt_of_le hid hids, t, ht, Int.le_trans hle hclock⟩
    · refine ⟨Nat.lt_of_lt_of_le ?_ hids, s.now, rfl, hclock⟩
      by_contra hge
      rw [h.serial.attachments id (Nat.le_of_not_lt hge)] at hget
      cases hget
  · -- The clock of a row.
    intro id r t hget ht
    have hshape := shaped_step h.serial h.shaped hget
    have hstep := @row_step p s h.serial a id
    rw [hget] at hstep
    generalize hbefore : s.attachments.get? id = before at hstep
    cases hstep with
    | same => exact Int.le_trans (h.clock id r t hbefore ht) hclock
    | inserted => cases ht
    | claimed => exact Option.some.inj ht ▸ hclock
    | exhausted => cases ht
    | finished =>
      cases ht
    | failed r' j lease cause tasks answer haction hjob hnext hid hholds =>
      by_cases hprocessing : (failedRow p cause r').status = .processing
      · rw [failedRow_processing hprocessing] at ht
        exact Int.le_trans (h.clock id r' t hbefore ht) hclock
      · subst hid
        rw [failedRow_started ((holds_iff hbefore).mp hholds).1 hprocessing] at ht
        cases ht
    | purged r' =>
      exact Int.le_trans (h.clock id r' t hbefore ht) hclock
  · -- The claims of a row that waits.
    intro j job lease r hjob hactive hget hstatus t ht
    rcases active_step h.serial hjob hactive with ⟨old, hold, hactive'⟩ |
      ⟨_, id, r', rfl, _, _, hset⟩
    · have hid := (h.started j old lease hold hactive').1
      rcases pending_before h hid hget hstatus with ⟨r', hget', hpending⟩ |
        ⟨r', j', job', lease', hget', hprocessing, hjob', hactive'', hid', hholds, hdone⟩
      · have hlt := h.waiting j old lease r' hold hactive' hget' hpending t ht
        omega
      · -- The claim that failed held the lease. This one is another, and so it is older.
        have hne : j ≠ j' := by
          intro heq
          rw [heq] at hjob
          rw [hdone job hjob] at hactive
          cases hactive
        have hdiffer := h.distinct j old lease j' job' lease' hold hactive' hjob' hactive''
          hid'.symm hne
        rw [← hid'] at hget'
        have ⟨_, hsome, heq⟩ := (holds_iff hget').mp hholds
        have ⟨u, hu⟩ := Option.isSome_iff_exists.mp hsome
        rw [hid'] at hget'
        have hle := h.latest j old lease r' hold hactive' hget' hprocessing t u ht hu
        have hnow := h.clock lease.id r' u hget' hu
        rw [ht, ← heq, hu] at hdiffer
        have hltu : t ≠ u := fun htu => hdiffer (congrArg some htu)
        omega
    · rw [get?_leaseOf hset] at hget
      rw [← Option.some.inj hget] at hstatus
      cases hstatus
  · -- The claims of a row in processing.
    intro j job lease r hjob hactive hget hstatus t u ht hu
    rcases active_step h.serial hjob hactive with ⟨old, hold, hactive'⟩ |
      ⟨_, id, r', rfl, _, _, hset⟩
    · rcases processing_before h hget hstatus with hsame | ⟨r', _, _, rfl⟩
      · exact h.latest j old lease r hold hactive' hsame hstatus t u ht hu
      · have ⟨_, v, hv, hle⟩ := h.started j old lease hold hactive'
        rw [ht] at hv
        rw [← Option.some.inj hu, Option.some.inj hv]
        exact hle
    · rw [get?_leaseOf hset] at hget
      rw [← Option.some.inj hget] at hu
      rw [← Option.some.inj hu, ← Option.some.inj ht]
  · -- Two claims of a row.
    intro j job lease j' job' lease' hjob hactive hjob' hactive' hid hne heq
    rcases active_step h.serial hjob hactive with ⟨old, hold, hactive1⟩ |
      ⟨hj, id, r, rfl, hget, hclaim, _⟩
    · rcases active_step h.serial hjob' hactive' with ⟨old', hold', hactive2⟩ |
        ⟨_, id, r, rfl, hget, hclaim, _⟩
      · exact h.distinct j old lease j' old' lease' hold hactive1 hold' hactive2 hid hne heq
      · have hget' : s.attachments.get? lease.id = some r := by
          rw [hid]
          exact hget
        exact absurd (h.before_now hold hactive1 hget' hclaim heq) (Int.lt_irrefl _)
    · rcases active_step h.serial hjob' hactive' with ⟨old', hold', hactive2⟩ | ⟨hj', _⟩
      · have hget' : s.attachments.get? lease'.id = some r := by
          rw [← hid]
          exact hget
        exact absurd (h.before_now hold' hactive2 hget' hclaim heq.symm) (Int.lt_irrefl _)
      · exact hne (hj.trans hj'.symm)
  · -- A claim is ended once.
    intro j job hjob
    have hstep := @job_step p s h.serial a j
    rw [hjob] at hstep
    generalize hbefore : s.jobs.get? j = before at hstep
    cases hstep with
    | same => exact h.once j job hbefore
    | started _ hid hnext hlease hnone hone => exact hone
    | claimed => trivial
    | moved old _ hlease hmoved hone => exact hone (h.once j old hbefore)
  · -- The row under the lease.
    intro j job lease r hjob hactive hget hholds
    have ⟨hstatus, _, heq⟩ := (holds_iff hget).mp hholds
    rcases active_step h.serial hjob hactive with ⟨old, hold, hactive'⟩ |
      ⟨_, id, r', rfl, _, _, hset⟩
    · rcases processing_before h hget hstatus with hsame | ⟨r', hget', hclaim, rfl⟩
      · exact h.current j old lease r hold hactive' hsame
          ((holds_iff hsame).mpr ((holds_iff hget).mp hholds))
      · exact absurd (h.before_now hold hactive' hget' hclaim heq.symm) (Int.lt_irrefl _)
    · rw [get?_leaseOf hset] at hget
      exact (Option.some.inj hget).symm
  · -- The keys of a worker.
    intro j job lease hjob hlease k hk
    have hstep := @job_step p s h.serial a j
    rw [hjob] at hstep
    have hold : ∀ i, s.makers[k]? = some i → (step p s a).makers[k]? = some i := by
      intro i hi
      have hlt := (List.getElem?_eq_some_iff.mp hi).1
      rw [← hdraws, List.getElem?_append_left hlt]
      exact hi
    generalize hbefore : s.jobs.get? j = before at hstep
    cases hstep with
    | same => exact hold j (h.made j job lease hbefore hlease k hk)
    | started _ hid hnext hnone =>
      rw [hnone] at hlease
      cases hlease
    | claimed =>
      simp [Job.keys, Job.carried, Job.dropped, Job.doomed] at hk
    | moved old _ hsame hmoved hone hkeys =>
      rcases hkeys ⟨lease, hlease⟩ k hk with hin | hmade
      · exact hold j (h.made j old lease hbefore (hsame ▸ hlease) k hin)
      · exact hmade

theorem leased_run (p : PolicyConfig) (now : Int) (as : List Action) :
    Leased p (run p (Service.initial now) as) :=
  @Machine.run_invariant _ _ (step p) (Leased p) (fun _ a h => leased_step h a) _
    (leased_initial p now) as

/-! ### The life of a row -/

/-- The step makes the row under an id ready. -/
def BecomesReady (p : PolicyConfig) (s : Service) (a : Action) (id : Nat) : Prop :=
  ∃ r r', s.attachments.get? id = some r ∧ r.status ≠ .ready ∧
    (step p s a).attachments.get? id = some r' ∧ r'.status = .ready

/-- A row becomes ready in the finishing transaction of the claim that holds its lease. -/
theorem ready_by_holder (h : Leased p s) {id : Nat} (hready : BecomesReady p s a id) :
    ∃ j g answer thumb keys lease r r' k, a = .publish j g answer ∧
      s.jobs.get? j = some (.storing (.video lease) thumb keys) ∧ lease.id = id ∧
      s.holds lease = true ∧
      (∀ j' job' lease', s.jobs.get? j' = some job' → job'.active? = some lease' → lease'.id = id →
        s.holds lease' = true → j' = j) ∧
      s.attachments.get? id = some r ∧ (step p s a).attachments.get? id = some r' ∧
      r'.status = .ready ∧ r'.storageKey.isSome ∧ r'.sourceKey = none ∧ r.sourceKey = some k ∧
      (step p s a).queued k = true := by
  have ⟨r, r', hget, hstatus, hget', hready'⟩ := hready
  have hstep := @row_step p s h.serial a id
  rw [hget, hget'] at hstep
  cases hstep with
  | same => exact absurd hready' hstatus
  | claimed | exhausted => cases hready'
  | finished _ j thumb keys lease g answer haction hjob hkeys hid hholds hsource hqueued =>
    subst hid
    have hprocessing := ((holds_iff hget).mp hholds).1
    have hshape := h.shaped _ r hget
    have hunpurged : r.purgedAt = none := by
      cases hpurged : r.purgedAt with
      | none => rfl
      | some => exact absurd hprocessing (hshape.purged (by rw [hpurged]; rfl)).2.1
    have ⟨k, hk⟩ := Option.isSome_iff_exists.mp
      (hshape.source (Or.inr (Or.inl hprocessing)) hunpurged).1
    have hactive : (Job.storing (.video lease) thumb keys).active? = some lease := rfl
    refine ⟨j, g, answer, thumb, keys, lease, r, _, k, haction, hjob, rfl, hholds, ?_, hget, hget', rfl,
      ?_, rfl, hk, hqueued k hk⟩
    · intro j' job' lease' hjob' hactive' hid' hholds'
      exact h.holder_unique hjob' hactive' hjob hactive hid' hholds' hholds
    · show keys[0]?.isSome = true
      rw [List.getElem?_eq_getElem (by omega)]
      rfl
  | failed _ j lease cause tasks answer haction hjob hnext hid hholds =>
    subst hid
    exact absurd hready' (failedRow_not_ready ((holds_iff hget).mp hholds).1)
  | purged => exact absurd hready' hstatus

theorem ready_stays (h : Leased p s) {id : Nat} (hid : id < s.nextId)
    (hready : ∀ r, s.attachments.get? id = some r → r.status = .ready) {r : Attachment}
    (hget : (step p s a).attachments.get? id = some r) : r.status = .ready := by
  have hstep := @row_step p s h.serial a id
  rw [hget] at hstep
  generalize hbefore : s.attachments.get? id = before at hstep
  cases hstep with
  | same => exact hready r hbefore
  | inserted post uploader kind expires keys hnew hnext hkeys hone hpost => omega
  | claimed r' locked answer haction hclaim =>
    have hstatus := hready r' hbefore
    rcases (claimable_cases hclaim).2.2.2 with hs | hs
    · rw [hs] at hstatus
      cases hstatus
    · rw [hs.1] at hstatus
      cases hstatus
  | exhausted r' hclaim hspent hne =>
    have hstatus := hready r' hbefore
    rcases (claimable_cases hclaim).2.2.2 with hs | hs
    · rw [hs] at hstatus
      cases hstatus
    · exact absurd hs.1 hne
  | finished => rfl
  | failed r' j lease cause tasks answer haction hjob hnext hid' hholds =>
    subst hid'
    have hstatus := hready r' hbefore
    rw [((holds_iff hbefore).mp hholds).1] at hstatus
    cases hstatus
  | purged r' => exact hready r' hbefore

theorem ready_once (h : Leased p s) {id : Nat} (hready : BecomesReady p s a id) (bs : List Action)
    (b : Action) : ¬BecomesReady p (run p (step p s a) bs) b id := by
  have ⟨r, r', hget, _, hget', hready'⟩ := hready
  have hid : id < (step p s a).nextId := by
    by_contra hge
    rw [(serial_step h.serial a).attachments id (Nat.le_of_not_lt hge)] at hget'
    cases hget'
  have hinv : Leased p (run p (step p s a) bs) ∧ id < (run p (step p s a) bs).nextId ∧
      ∀ q, (run p (step p s a) bs).attachments.get? id = some q → q.status = .ready := by
    refine @Machine.run_invariant _ _ (step p) (fun u => Leased p u ∧ id < u.nextId ∧
      ∀ q, u.attachments.get? id = some q → q.status = .ready) ?_ _ ⟨leased_step h a, hid, ?_⟩ bs
    · intro u c ⟨hu, hlt, hall⟩
      refine ⟨leased_step hu c, ?_, fun q hq => ready_stays hu hlt hall hq⟩
      have hgrows := (@picture_step p u hu.serial c).1.ids
      omega
    · intro q hq
      rw [hget'] at hq
      rw [← Option.some.inj hq]
      exact hready'
  rintro ⟨q, q', hq, hne, _⟩
  exact hne (hinv.2.2 q hq)

/-- A terminal status is left by deletion or purge only. -/
theorem terminal_stays (h : Leased p s) {id : Nat} {r : Attachment}
    (hget : s.attachments.get? id = some r)
    (hstatus : r.status = .ready ∨ r.status = .failed ∨ r.status = .blocked) :
    (step p s a).attachments.get? id = some r ∨
      ((step p s a).attachments.get? id = none ∧ a.deletes id = true) ∨
      ((step p s a).attachments.get? id = some { r.clearKeys with purgedAt := some s.now } ∧
        r.status ≠ .blocked ∧ s.attachmentHeld r = false ∧
        ∃ j answer cancelled, a = .purge j answer cancelled) := by
  have hstep := @row_step p s h.serial a id
  rw [hget] at hstep
  generalize hafter : (step p s a).attachments.get? id = after at hstep ⊢
  have hnot : r.status ≠ .processing ∧ r.status ≠ .pending := by
    rcases hstatus with hs | hs | hs <;> rw [hs] <;> simp
  cases hstep with
  | same => exact Or.inl rfl
  | claimed _ locked answer haction hclaim =>
    rcases (claimable_cases hclaim).2.2.2 with hs | hs
    · exact absurd hs hnot.2
    · exact absurd hs.1 hnot.1
  | exhausted _ hclaim =>
    rcases (claimable_cases hclaim).2.2.2 with hs | hs
    · exact absurd hs hnot.2
    · exact absurd hs.1 hnot.1
  | finished _ j thumb keys lease g answer haction hjob hkeys hid hholds =>
    subst hid
    exact absurd ((holds_iff hget).mp hholds).1 hnot.1
  | failed _ j lease cause tasks answer haction hjob hnext hid hholds =>
    subst hid
    exact absurd ((holds_iff hget).mp hholds).1 hnot.1
  | purged _ j answer cancelled haction hpurge hheld =>
    exact Or.inr (Or.inr ⟨rfl, (purgeable_cases hpurge).2.2.1, hheld, j, answer, cancelled, haction⟩)
  | deleted _ haction => exact Or.inr (Or.inl ⟨rfl, haction⟩)

/-! ### Attempts -/

theorem lease_run (h : Leased p s) {j : Nat} {job : Job} {lease : Lease}
    (hjob : s.jobs.get? j = some job) (hlease : job.lease? = some lease) (bs : List Action) :
    Leased p (run p s bs) ∧
      ∃ job', (run p s bs).jobs.get? j = some job' ∧ job'.lease? = some lease := by
  refine @Machine.run_invariant _ _ (step p) (fun u => Leased p u ∧
    ∃ job', u.jobs.get? j = some job' ∧ job'.lease? = some lease) ?_ _ ⟨h, job, hjob, hlease⟩ bs
  intro u c ⟨hu, old, hold, hsame⟩
  refine ⟨leased_step hu c, ?_⟩
  have hstep := @job_step p u hu.serial c j
  rw [hold] at hstep
  generalize hafter : (step p u c).jobs.get? j = after at hstep
  cases hstep with
  | same => exact ⟨old, rfl, hsame⟩
  | moved _ new hkept => exact ⟨new, rfl, hkept.trans hsame⟩

/-- The record of an outage of the scanner: the row waits again, and nothing is erased. -/
theorem scanner_outage (h : Leased p s) {j : Nat} {lease : Lease} {tasks : List Task}
    (hjob : s.jobs.get? j = some (.ending (some lease) (.failClaim .scanner :: tasks)))
    (hholds : s.holds lease = true) {answer : Answer} (happlied : answer.applied = true) :
    (step p s (.proceed j answer)).attachments.get? lease.id = some { lease.att with
        status := .pending, attempts := lease.att.attempts - 1, startedAt := none } ∧
      (step p s (.proceed j answer)).objects = s.objects ∧
      (step p s (.proceed j answer)).blobDeletions = s.blobDeletions ∧ 1 ≤ lease.att.attempts := by
  have ⟨r, hget, _⟩ := (Option.any_eq_true _ _).mp hholds
  have ⟨hstatus, hsome, heq⟩ := (holds_iff hget).mp hholds
  have hcurrent := h.current j _ lease r hjob rfl hget hholds
  have hrow : s.failClaim p lease .scanner = some (s.setAttachment lease.id
      { r with status := .pending, attempts := r.attempts - 1, startedAt := none }) := by
    unfold Service.failClaim
    rw [hget]
    simp [hstatus, Option.isSome_iff_ne_none.mp hsome, ← heq]
  have hstep : step p s (.proceed j answer) = (s.setAttachment lease.id
      { r with status := .pending, attempts := r.attempts - 1, startedAt := none }).setJob j
        (.ending (some lease) tasks) := by
    show s.proceedStep p j answer = _
    unfold Service.proceedStep
    rw [hjob]
    show (s.commit ((s.failClaim p lease .scanner).getD s) answer).setJob j _ = _
    rw [hrow, Service.commit, if_pos happlied]
    rfl
  rw [hstep, ← hcurrent]
  refine ⟨?_, rfl, rfl, ((h.shaped _ r hget).processing hstatus).2⟩
  rw [hcurrent]
  exact (get?_setAttachment s lease.id _ lease.id).trans (if_pos rfl)

/-- A claim that ends with a recorded outage of the scanner costs no attempt. -/
theorem outage_costs_nothing (h : Leased p s) {locked : List Nat} {u : Service} {lease : Lease}
    (hclaim : s.claim p locked = some (u, some lease)) (bs : List Action) {job : Option Lease}
    {tasks : List Task}
    (hjob : (run p (step p s (.claim locked .done)) bs).jobs.get? s.nextId =
      some (.ending job (.failClaim .scanner :: tasks)))
    (hholds : (run p (step p s (.claim locked .done)) bs).holds lease = true) {answer : Answer}
    (happlied : answer.applied = true) :
    ∃ r r', s.attachments.get? lease.id = some r ∧
      (step p (run p (step p s (.claim locked .done)) bs) (.proceed s.nextId answer)).attachments.get?
        lease.id = some r' ∧ r'.attempts = r.attempts ∧ r'.keys = r.keys ∧ r'.status = .pending := by
  have ⟨id, r, _, hget, hclaimable, hcases⟩ := claim_cases hclaim
  rcases hcases with ⟨hleft, rfl, hnew⟩ | ⟨_, _, _, hnone⟩
  · have hlease := Option.some.inj hnew
    subst hlease
    have hafter : (step p s (.claim locked .done)).jobs.get? s.nextId =
        some (.storing (.video (s.leaseOf id r)) false []) := by
      show (s.claimStep p locked .done).jobs.get? s.nextId = _
      unfold Service.claimStep
      rw [hclaim]
      exact (KeyMap.get?_set _ _ _ _).trans (if_pos rfl)
    have ⟨hrun, job', hjob', hkept⟩ := lease_run (leased_step h _) hafter rfl bs
    rw [hjob] at hjob'
    have hsame : job = some (s.leaseOf id r) := by
      rw [← Option.some.inj hjob'] at hkept
      exact hkept
    rw [hsame] at hjob
    have ⟨hrow, _⟩ := scanner_outage hrun hjob hholds happlied
    exact ⟨r, _, hget, hrow, rfl, rfl, rfl⟩
  · cases hnone

/-! ### A lost lease -/

/-- The step leaves the rows of attachments, and all keys but those that the job `j` has drawn. -/
def OwnKeysOnly (j : Nat) (s t : Service) : Prop :=
  t.attachments = s.attachments ∧ t.pictures = s.pictures ∧
    ∀ k, t.makers[k]? ≠ some j →
      t.queued k = s.queued k ∧ (k ∈ t.objects ↔ k ∈ s.objects)

theorem ownKeysOnly_same {j : Nat} (hattachments : t.attachments = s.attachments)
    (hpictures : t.pictures = s.pictures) (hqueue : t.blobDeletions = s.blobDeletions)
    (hobjects : t.objects = s.objects) : OwnKeysOnly j s t := by
  refine ⟨hattachments, hpictures, fun k _ => ⟨?_, ?_⟩⟩
  · unfold Service.queued
    rw [hqueue]
  · rw [hobjects]

theorem finishVideo_lost {g : Gate} {keys : List Key} {lease : Lease}
    (hlost : s.holds lease = false) : ∃ cause, s.finishVideo g keys lease = .error cause := by
  cases h : s.finishVideo g keys lease with
  | error cause => exact ⟨cause, rfl⟩
  | ok =>
    have ⟨r, _, hholds, _⟩ := finishVideo_eq_ok h
    rw [hlost] at hholds
    cases hholds

theorem failClaim_lost {lease : Lease} {cause : Cause} (hlost : s.holds lease = false) :
    (s.failClaim p lease cause).getD s = s := by
  cases h : s.failClaim p lease cause with
  | none => rfl
  | some =>
    rcases failClaim_cases h with ⟨rfl, _⟩ | ⟨r, _, hholds, _⟩
    · rfl
    · rw [hlost] at hholds
      cases hholds

theorem runTask_lost {j : Nat} {lease : Lease} {task : Task} {tasks : List Task}
    (hmade : ∀ k ∈ task.dropped ++ task.doomed, s.makers[k]? = some j)
    (hlost : s.holds lease = false) (answer : Answer) :
    OwnKeysOnly j s (s.runTask p j (some lease) task tasks answer) := by
  cases task with
  | discard keys =>
    refine ⟨rfl, rfl, fun k hk => ⟨?_, Iff.rfl⟩⟩
    have hnot : keys.contains k = false := by
      rw [Bool.eq_false_iff]
      intro hin
      exact hk (hmade k (List.mem_append_left _ (List.contains_iff_mem.mp hin)))
    show (s.queueDelete keys).queued k = s.queued k
    rw [Service.queued_queueDelete, hnot, Bool.or_false]
  | erase key =>
    have hkey : s.makers[key]? = some j := hmade key (List.mem_append_right _ List.mem_cons_self)
    have herase : ∀ (u : Service) (job : Job), u.objects = (s.eraseObject key).objects →
        u.attachments = s.attachments → u.pictures = s.pictures → u.makers = s.makers →
        u.blobDeletions = s.blobDeletions → OwnKeysOnly j s (u.setJob j job) := by
      intro u job hobjects hattachments hpictures hmakers hqueue
      refine ⟨hattachments, hpictures, fun k hk => ⟨?_, ?_⟩⟩
      · show (u.blobDeletions.get? k).isSome = (s.blobDeletions.get? k).isSome
        rw [hqueue]
      · have hne : k ≠ key := by
          intro heq
          refine hk ?_
          show u.makers[k]? = some j
          rw [hmakers, heq]
          exact hkey
        show k ∈ u.objects ↔ _
        rw [hobjects, Service.mem_objects_eraseObject]
        exact and_iff_left hne
    cases answer with
    | done | lost => exact herase (s.eraseObject key) _ rfl rfl rfl rfl rfl
    | failed => exact ownKeysOnly_same rfl rfl rfl rfl
  | clear key =>
    have hkey : s.makers[key]? = some j := hmade key (List.mem_append_right _ List.mem_cons_self)
    have hclear : ∀ job, OwnKeysOnly j s ((s.unqueue key).setJob j job) := by
      intro job
      refine ⟨rfl, rfl, fun k hk => ⟨?_, Iff.rfl⟩⟩
      have hne : (k == key) = false := by
        rw [Bool.eq_false_iff]
        intro heq
        exact hk (eq_of_beq heq ▸ hkey)
      show (s.unqueue key).queued k = s.queued k
      rw [Service.queued_unqueue, hne, Bool.not_false, Bool.and_true]
    cases answer with
    | done | lost => exact hclear _
    | failed => exact ownKeysOnly_same rfl rfl rfl rfl
  | failClaim cause =>
    have hsame : s.recordFailure p (some lease) cause answer = s := by
      show s.commit ((s.failClaim p lease cause).getD s) answer = s
      rw [failClaim_lost hlost, Service.commit, ite_self]
    show OwnKeysOnly j s ((s.recordFailure p (some lease) cause answer).setJob j _)
    rw [hsame]
    exact ownKeysOnly_same rfl rfl rfl rfl

theorem lost_lease (h : Leased p s) {j : Nat} {job : Job} {lease : Lease}
    (hjob : s.jobs.get? j = some job) (hlease : job.lease? = some lease)
    (hlost : s.holds lease = false) (hactor : a.actor? = some j) :
    OwnKeysOnly j s (step p s a) := by
  -- The worker is in no other job.
  have hno : ∀ other, s.jobs.get? j = some other → other.lease? = none → False := by
    intro other hget hnone
    rw [Option.some.inj (hjob.symm.trans hget), hnone] at hlease
    cases hlease
  cases a with
  | tick | change | start | claim | deleteAttachment | deleteRows | startPurge | startDrain =>
    cases hactor
  | reject i cause =>
    rw [Option.some.inj hactor]
    show OwnKeysOnly j s (s.rejectStep j cause)
    unfold Service.rejectStep
    split <;> exact ownKeysOnly_same rfl rfl rfl rfl
  | put i answer cause =>
    rw [Option.some.inj hactor]
    show OwnKeysOnly j s (s.putStep j answer cause)
    unfold Service.putStep
    split
    · split
      · refine ⟨rfl, rfl, fun k hk => ⟨rfl, ?_⟩⟩
        -- The key that is drawn is the worker's.
        have hne : k ≠ s.makers.length := by
          intro heq
          refine hk ?_
          show (s.makers ++ [j])[k]? = some j
          rw [heq]
          simp
        show k ∈ (if answer.applied then s.objects ++ [s.makers.length] else s.objects) ↔ _
        split
        · simp [hne]
        · rfl
      · exact ownKeysOnly_same rfl rfl rfl rfl
    · exact ownKeysOnly_same rfl rfl rfl rfl
  | publish i g answer =>
    rw [Option.some.inj hactor]
    show OwnKeysOnly j s (s.publishStep p j g answer)
    unfold Service.publishStep
    split
    · next upload thumb keys hstoring =>
      rw [hjob] at hstoring
      have hupload : upload.lease? = some lease := by
        rw [Option.some.inj hstoring] at hlease
        exact hlease
      by_cases hkeys : keys.length = upload.artifacts thumb
      · rw [if_pos hkeys]
        cases upload with
        | video l =>
          have heq : l = lease := Option.some.inj hupload
          have ⟨cause, hcause⟩ := @finishVideo_lost s g keys lease hlost
          have herror : s.publish p g keys (.video l) = .error cause := by
            rw [heq]
            exact hcause
          rw [herror]
          exact ownKeysOnly_same rfl rfl rfl rfl
        | _ => cases hupload
      · rw [if_neg hkeys]
        exact ownKeysOnly_same rfl rfl rfl rfl
    · exact ownKeysOnly_same rfl rfl rfl rfl
  | proceed i answer =>
    rw [Option.some.inj hactor]
    show OwnKeysOnly j s (s.proceedStep p j answer)
    unfold Service.proceedStep
    split
    · next l task tasks hending =>
      rw [hjob] at hending
      have heq : l = some lease := by
        rw [Option.some.inj hending] at hlease
        exact hlease
      subst heq
      refine runTask_lost (fun k hk => h.made j job lease hjob hlease k ?_) hlost answer
      rw [Option.some.inj hending, mem_keys_ending]
      exact ⟨task, List.mem_cons_self, List.mem_append.mp hk⟩
    · next h => exact (hno _ h rfl).elim
    · next h => exact (hno _ h rfl).elim
    · next h => exact (hno _ h rfl).elim
    · exact ownKeysOnly_same rfl rfl rfl rfl
  | purge i answer cancelled =>
    rw [Option.some.inj hactor]
    show OwnKeysOnly j s (s.purgeStep j answer cancelled)
    unfold Service.purgeStep
    split
    · next h => exact (hno _ h rfl).elim
    · exact ownKeysOnly_same rfl rfl rfl rfl
  | drain i locked key answer =>
    rw [Option.some.inj hactor]
    show OwnKeysOnly j s (s.drainStep j locked key answer)
    unfold Service.drainStep
    split
    · next h => exact (hno _ h rfl).elim
    · exact ownKeysOnly_same rfl rfl rfl rfl

/-! ### The next video -/

/-- While a row waits that is not locked, a claim takes a row with attempts left that is not younger. -/
theorem pending_claimed (h : Leased p s) {id : Nat} {r : Attachment} {locked : List Nat}
    (hget : s.attachments.get? id = some r) (hstatus : r.status = .pending)
    (hpurged : r.purgedAt = none) (hfree : id ∉ locked) :
    ∃ id' r', s.attachments.get? id' = some r' ∧ r'.attempts < p.videoMaxAttempts ∧
      videoOrder id' r' ≤ videoOrder id r ∧
      s.claim p locked = some (s.setAttachment id' (s.leaseOf id' r').att, some (s.leaseOf id' r')) := by
  have hshape := h.shaped id r hget
  have hclaim : claimable p s.now r = true := by
    have hvideo : r.kind = .video := hshape.video (by rw [hstatus]; simp)
    have hsource := (hshape.source (Or.inl hstatus) hpurged).1
    simp [claimable, hvideo, hpurged, hsource, hstatus]
  have hpick : (claimable p s.now r && !locked.contains id) = true := by
    simp [hclaim, hfree]
  cases hnext : s.nextVideo p locked with
  | none =>
    have hnone := KeyMap.top?_eq_none.mp hnext id r hget
    rw [hpick] at hnone
    cases hnone
  | some id' =>
    have ⟨r', hget', hpick', hfirst⟩ := KeyMap.top?_spec hnext
    rw [Bool.and_eq_true] at hpick'
    -- What can be claimed has attempts left.
    have hleft : r'.attempts < p.videoMaxAttempts := by
      rcases (claimable_cases hpick'.1).2.2.2 with hs | hs
      · exact ((h.shaped id' r' hget').pending hs).2
      · exact hs.2.1
    refine ⟨id', r', hget', hleft, OrderDual.toDual_le_toDual.mp (hfirst id r hget hpick), ?_⟩
    unfold Service.claim
    simp only [hnext, hget']
    rw [if_neg (by omega)]

/-! ### Every run -/

/-- The life of a video, in every order of steps. -/
theorem video_lifecycle (p : PolicyConfig) (now : Int) (as : List Action) :
    let s := run p (Service.initial now) as
    -- A row becomes ready at most once, in the finishing transaction of the only claim that holds
    -- its lease. That transaction names a stored object and queues the source.
    (∀ a id, BecomesReady p s a id →
      (∃ j g answer thumb keys lease r r' k, a = .publish j g answer ∧
        s.jobs.get? j = some (.storing (.video lease) thumb keys) ∧ lease.id = id ∧
        s.holds lease = true ∧
        (∀ j' job' lease', s.jobs.get? j' = some job' → job'.active? = some lease' →
          lease'.id = id → s.holds lease' = true → j' = j) ∧
        s.attachments.get? id = some r ∧ (step p s a).attachments.get? id = some r' ∧
        r'.status = .ready ∧ r'.storageKey.isSome ∧ r'.sourceKey = none ∧ r.sourceKey = some k ∧
        (step p s a).queued k = true) ∧
      ∀ bs b, ¬BecomesReady p (run p (step p s a) bs) b id) ∧
    -- Attempts stay within the maximum.
    (∀ id r, s.attachments.get? id = some r → r.attempts ≤ p.videoMaxAttempts) ∧
    -- A recorded outage of the scanner costs no attempt,
    (∀ locked u lease bs job tasks answer, s.claim p locked = some (u, some lease) →
      (run p (step p s (.claim locked .done)) bs).jobs.get? s.nextId =
        some (.ending job (.failClaim .scanner :: tasks)) →
      (run p (step p s (.claim locked .done)) bs).holds lease = true → answer.applied = true →
      ∃ r r', s.attachments.get? lease.id = some r ∧
        (step p (run p (step p s (.claim locked .done)) bs) (.proceed s.nextId answer)).attachments.get?
          lease.id = some r' ∧ r'.attempts = r.attempts ∧ r'.keys = r.keys ∧
        r'.status = .pending) ∧
    -- and it erases nothing.
    (∀ j lease tasks answer,
      s.jobs.get? j = some (.ending (some lease) (.failClaim .scanner :: tasks)) →
      s.holds lease = true → answer.applied = true →
      (step p s (.proceed j answer)).objects = s.objects ∧
        (step p s (.proceed j answer)).blobDeletions = s.blobDeletions) ∧
    -- The terminal statuses are left by deletion or purge only.
    (∀ a id r, s.attachments.get? id = some r →
      r.status = .ready ∨ r.status = .failed ∨ r.status = .blocked →
      (step p s a).attachments.get? id = some r ∨
        ((step p s a).attachments.get? id = none ∧ a.deletes id = true) ∨
        ((step p s a).attachments.get? id = some { r.clearKeys with purgedAt := some s.now } ∧
          r.status ≠ .blocked ∧ s.attachmentHeld r = false ∧
          ∃ j answer cancelled, a = .purge j answer cancelled)) ∧
    -- A failed row names no object, and a blocked row keeps its source.
    (∀ id r, s.attachments.get? id = some r →
      (r.status = .failed → r.keys = []) ∧ (r.status = .blocked → r.sourceKey.isSome)) ∧
    -- A worker whose lease was taken over leaves the rows, and touches its own objects only.
    (∀ a j job lease, s.jobs.get? j = some job → job.lease? = some lease → s.holds lease = false →
      a.actor? = some j → OwnKeysOnly j s (step p s a)) ∧
    -- While a row waits, a row with attempts left that is not younger is claimed.
    ∀ locked id r, s.attachments.get? id = some r → r.status = .pending → r.purgedAt = none →
      id ∉ locked → ∃ id' r', s.attachments.get? id' = some r' ∧
        r'.attempts < p.videoMaxAttempts ∧ videoOrder id' r' ≤ videoOrder id r ∧
        s.claim p locked =
          some (s.setAttachment id' (s.leaseOf id' r').att, some (s.leaseOf id' r')) := by
  intro s
  have h : Leased p s := leased_run p now as
  refine ⟨?_, ?_, ?_, ?_, ?_, ?_, ?_, ?_⟩
  · intro a id hready
    exact ⟨ready_by_holder h hready, ready_once h hready⟩
  · intro id r hget
    exact (h.shaped id r hget).attempts
  · intro locked u lease bs job tasks answer hclaim hjob hholds happlied
    exact outage_costs_nothing h hclaim bs hjob hholds happlied
  · intro j lease tasks answer hjob hholds happlied
    have ⟨_, hobjects, hqueue, _⟩ := scanner_outage h hjob hholds happlied
    exact ⟨hobjects, hqueue⟩
  · intro a id r hget hstatus
    exact terminal_stays h hget hstatus
  · intro id r hget
    have hshape := h.shaped id r hget
    refine ⟨hshape.failed, fun hblocked => ?_⟩
    have hunpurged : r.purgedAt = none := by
      cases hpurged : r.purgedAt with
      | none => rfl
      | some => exact absurd hblocked (hshape.purged (by rw [hpurged]; rfl)).2.2
    exact (hshape.source (Or.inr (Or.inr hblocked)) hunpurged).1
  · intro a j job lease hjob hlease hlost hactor
    exact lost_lease h hjob hlease hlost hactor
  · intro locked id r hget hstatus hpurged hfree
    exact pending_claimed h hget hstatus hpurged hfree

end SocialActivities.Media
