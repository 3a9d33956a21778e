import SocialActivities.Media.System

/-!
# `SocialActivities.Media.Steps`: what a step does to a row and to a job

`RowStep` has every way in which a step changes a row of `media_attachment`: the insert, the claim, the
end of a claim, the purge and the deletion. `JobStep` has every way in which it changes a job.
`row_step` and `job_step` say that there are no others. What holds of rows and jobs over a run is
derived from these two, and from `Serial`: ids are not used again.
-/

namespace SocialActivities.Media

open Lib

/-- The row after a failure of its claim was recorded. -/
def failedRow (p : PolicyConfig) (cause : Cause) (r : Attachment) : Attachment :=
  match cause with
  | .scanner => { r with status := .pending, attempts := r.attempts - 1, startedAt := none }
  | .blocked => { r with status := .blocked, startedAt := none }
  | cause =>
    if p.videoMaxAttempts ≤ r.attempts || cause == .rejected || cause == .forbidden then
      { r.clearKeys with status := .failed, startedAt := none }
    else r

/-- The row after its video was published. -/
def readyRow (keys : List Key) (r : Attachment) : Attachment :=
  { r with
    status := .ready, storageKey := keys[0]?, posterKey := keys[1]?, sourceKey := none,
    startedAt := none }

/-- The action deletes the row, if there is one. -/
def Action.deletes (id : Nat) : Action → Bool
  | .deleteAttachment _ _ j _ => id == j
  | .deleteRows ids _ _ => ids.contains id
  | _ => false

/-- What a step does to the row under an id. -/
inductive RowStep (p : PolicyConfig) (s : Service) (a : Action) (t : Service) (id : Nat) :
    Option Attachment → Option Attachment → Prop where
  | same (r : Option Attachment) : RowStep p s a t id r r
  | inserted (post uploader : Nat) (kind : Kind) (expires : Option Int) (keys : List Key)
    (hid : id = s.nextId) (hnext : t.nextId = s.nextId + 1) (hkeys : keys ≠ [])
    (hone : kind ≠ .image → keys.length = 1) (hpost : (s.board.posts.get? post).isSome) :
    RowStep p s a t id none (some (s.newAttachment post uploader kind expires keys))
  | claimed (r : Attachment) (locked : List Nat) (answer : Answer) (haction : a = .claim locked answer)
    (hclaim : claimable p s.now r = true)
    (hleft : r.attempts < p.videoMaxAttempts) :
    RowStep p s a t id (some r) (some (s.leaseOf id r).att)
  | exhausted (r : Attachment) (hclaim : claimable p s.now r = true)
    (hspent : p.videoMaxAttempts ≤ r.attempts) (hstatus : r.status ≠ .processing) :
    RowStep p s a t id (some r) (some { r.clearKeys with status := .failed, startedAt := none })
  | finished (r : Attachment) (j : Nat) (thumb : Bool) (keys : List Key) (lease : Lease) (g : Gate)
    (answer : Answer) (haction : a = .publish j g answer)
    (hjob : s.jobs.get? j = some (.storing (.video lease) thumb keys)) (hkeys : keys.length = 2)
    (hid : lease.id = id) (hholds : s.holds lease = true) (hsource : r.sourceKey = lease.att.sourceKey)
    (hqueued : ∀ k, r.sourceKey = some k → t.queued k = true) :
    RowStep p s a t id (some r) (some (readyRow keys r))
  | failed (r : Attachment) (j : Nat) (lease : Lease) (cause : Cause) (tasks : List Task)
    (answer : Answer) (haction : a = .proceed j answer)
    (hjob : s.jobs.get? j = some (.ending (some lease) (.failClaim cause :: tasks)))
    (hnext : t.jobs.get? j = some (.ending (some lease) tasks))
    (hid : lease.id = id) (hholds : s.holds lease = true) :
    RowStep p s a t id (some r) (some (failedRow p cause r))
  | purged (r : Attachment) (j : Nat) (answer : Answer) (cancelled : Bool)
    (haction : a = .purge j answer cancelled) (hpurge : purgeable s.now r = true)
    (hheld : s.attachmentHeld r = false) :
    RowStep p s a t id (some r) (some { r.clearKeys with purgedAt := some s.now })
  | deleted (r : Attachment) (haction : a.deletes id = true) : RowStep p s a t id (some r) none

/-- The job records at most one failure. -/
def Job.OneFailure : Job → Prop
  | .ending _ tasks => tasks.countP Task.writesRow ≤ 1
  | _ => True

/-- The job works on no claim. -/
structure Job.Idle (job : Job) : Prop where
  lease : job.lease? = none
  active : job.active? = none
  one : job.OneFailure

theorem idle_finished : Job.finished.Idle := ⟨rfl, rfl, Nat.zero_le 1⟩

/-- The keys that the job has in hand. -/
def Job.keys (job : Job) : List Key := job.carried ++ job.dropped ++ job.doomed

/-- What a step does to the job under an id. -/
inductive JobStep (p : PolicyConfig) (s t : Service) (j : Nat) : Option Job → Option Job → Prop where
  | same (job : Option Job) : JobStep p s t j job job
  | started (job : Job) (hid : j = s.nextId) (hnext : t.nextId = s.nextId + 1)
    (hlease : job.lease? = none) (hactive : job.active? = none) (hone : job.OneFailure) :
    JobStep p s t j none (some job)
  | claimed (id : Nat) (r : Attachment) (hid : j = s.nextId) (hnext : t.nextId = s.nextId + 1)
    (hget : s.attachments.get? id = some r) (hclaim : claimable p s.now r = true)
    (hleft : r.attempts < p.videoMaxAttempts)
    (hrow : t.attachments = s.attachments.set id (s.leaseOf id r).att) :
    JobStep p s t j none (some (.storing (.video (s.leaseOf id r)) false []))
  | moved (old new : Job) (hlease : new.lease? = old.lease?)
    (hactive : new.active? = none ∨ new.active? = old.active?)
    (hone : old.OneFailure → new.OneFailure)
    (hkeys : (∃ lease, new.lease? = some lease) → ∀ k ∈ new.keys, k ∈ old.keys ∨ t.makers[k]? = some j) :
    JobStep p s t j (some old) (some new)

variable {p : PolicyConfig} {s t : Service} {a : Action}

/-! ### The transactions -/

theorem get?_setAttachment (s : Service) (id : Nat) (r : Attachment) (j : Nat) :
    (s.setAttachment id r).attachments.get? j = if j = id then some r else s.attachments.get? j :=
  KeyMap.get?_set s.attachments id r j

theorem holds_iff {lease : Lease} {r : Attachment} (hget : s.attachments.get? lease.id = some r) :
    s.holds lease = true ↔
      r.status = .processing ∧ r.startedAt.isSome = true ∧ r.startedAt = lease.att.startedAt := by
  unfold Service.holds
  rw [hget]
  simp [and_assoc]

theorem nextVideo_spec {locked : List Nat} {id : Nat} (h : s.nextVideo p locked = some id) :
    ∃ r, s.attachments.get? id = some r ∧ claimable p s.now r = true ∧ id ∉ locked := by
  have ⟨r, hget, hpick, _⟩ := KeyMap.top?_spec h
  rw [Bool.and_eq_true] at hpick
  exact ⟨r, hget, hpick.1, by simpa using hpick.2⟩

/-- What the claiming transaction does. -/
theorem claim_cases {locked : List Nat} {t : Service} {lease : Option Lease}
    (h : s.claim p locked = some (t, lease)) :
    ∃ id r, s.nextVideo p locked = some id ∧ s.attachments.get? id = some r ∧
      claimable p s.now r = true ∧
      ((r.attempts < p.videoMaxAttempts ∧ t = s.setAttachment id (s.leaseOf id r).att ∧
          lease = some (s.leaseOf id r)) ∨
        (p.videoMaxAttempts ≤ r.attempts ∧ r.status ≠ .processing ∧ t = s.failRow id r ∧
          lease = none)) := by
  unfold Service.claim at h
  cases hnext : s.nextVideo p locked with
  | none =>
    rw [hnext] at h
    cases h
  | some id =>
    have ⟨r, hget, hclaim, _⟩ := nextVideo_spec hnext
    simp only [hnext, hget] at h
    by_cases hspent : p.videoMaxAttempts ≤ r.attempts
    · rw [if_pos hspent] at h
      by_cases hstatus : r.status = .processing
      · rw [if_pos hstatus] at h
        cases h
      · rw [if_neg hstatus] at h
        cases h
        exact ⟨id, r, rfl, hget, hclaim, Or.inr ⟨hspent, hstatus, rfl, rfl⟩⟩
    · rw [if_neg hspent] at h
      cases h
      exact ⟨id, r, rfl, hget, hclaim, Or.inl ⟨by omega, rfl, rfl⟩⟩

variable {keys : List Key} {g : Gate}

theorem finishVideo_eq_ok {lease : Lease} (h : s.finishVideo g keys lease = .ok t) :
    ∃ r, s.attachments.get? lease.id = some r ∧ s.holds lease = true ∧
      r.sourceKey = lease.att.sourceKey ∧ r.purgedAt = none ∧
      t = (s.setAttachment lease.id (readyRow keys r)).queueDelete lease.att.sourceKey.toList := by
  unfold Service.finishVideo at h
  split at h
  · cases h
  · next r hget =>
    split at h
    · cases h
    · next hlease =>
      split at h
      · cases h
      · split at h
        · cases h
        · simp only [bne_iff_ne, ne_eq, Bool.or_eq_true, not_or, Decidable.not_not,
            Option.isNone_iff_eq_none, Bool.not_eq_true, Option.isSome_eq_false_iff] at hlease
          have ⟨⟨⟨⟨hstatus, hsource⟩, hsome⟩, hstarted⟩, hpurged⟩ := hlease
          exact ⟨r, hget, (holds_iff hget).mpr ⟨hstatus, Option.isSome_iff_ne_none.mpr hsome, hstarted⟩,
            hsource, hpurged,
            (Except.ok.inj h).symm⟩

variable {cause : Cause}

theorem failClaim_cases {lease : Lease} (h : s.failClaim p lease cause = some t) :
    (t = s ∧ s.holds lease = false) ∨
      ∃ r, s.attachments.get? lease.id = some r ∧ s.holds lease = true ∧
        ((t = s.failRow lease.id r ∧ failedRow p cause r = { r.clearKeys with
              status := .failed, startedAt := none }) ∨
          (t = s.setAttachment lease.id (failedRow p cause r) ∧
            (failedRow p cause r).keys = r.keys) ∨ (t = s ∧ failedRow p cause r = r)) := by
  unfold Service.failClaim at h
  split at h
  · cases h
  · next r hget =>
    split at h
    · next hlost =>
      left
      refine ⟨(Option.some.inj h).symm, ?_⟩
      rw [Bool.eq_false_iff, ne_eq, holds_iff hget]
      rintro ⟨hstatus, hsome, hstarted⟩
      simp [hstatus, ← hstarted, Option.isSome_iff_ne_none.mp hsome] at hlost
    · next hlease =>
      right
      have hholds : s.holds lease = true := by
        simp only [bne_iff_ne, ne_eq, Bool.or_eq_true, not_or, Decidable.not_not,
          Bool.not_eq_true, Option.isNone_eq_false_iff] at hlease
        exact (holds_iff hget).mpr ⟨hlease.1.1, hlease.1.2, hlease.2⟩
      refine ⟨r, hget, hholds, ?_⟩
      split at h
      · exact Or.inr (Or.inl ⟨(Option.some.inj h).symm, rfl⟩)
      · exact Or.inr (Or.inl ⟨(Option.some.inj h).symm, rfl⟩)
      · next hscanner hblocked =>
        have hrow : failedRow p cause r =
            if p.videoMaxAttempts ≤ r.attempts || cause == .rejected || cause == .forbidden then
              { r.clearKeys with status := .failed, startedAt := none } else r := by
          cases cause with
          | scanner => exact absurd rfl hscanner
          | blocked => exact absurd rfl hblocked
          | _ => rfl
        rw [hrow]
        split at h
        · next hterminal =>
          rw [if_pos hterminal]
          exact Or.inl ⟨(Option.some.inj h).symm, rfl⟩
        · next hretry =>
          rw [if_neg hretry]
          exact Or.inr (Or.inr ⟨(Option.some.inj h).symm, rfl⟩)

/-! ### Rows -/

/-- The ids in use are below the next one. -/
structure Serial (s : Service) : Prop where
  jobs : ∀ j, s.nextId ≤ j → s.jobs.get? j = none
  attachments : ∀ id, s.nextId ≤ id → s.attachments.get? id = none
  photos : ∀ id, s.nextId ≤ id → s.pictures.get? (.threadPhoto id) = none

theorem row_set {id : Nat} {r : Attachment} (hrows : t.attachments = s.attachments.set id r)
    (hstep : RowStep p s a t id (s.attachments.get? id) (some r)) (k : Nat) :
    RowStep p s a t k (s.attachments.get? k) (t.attachments.get? k) := by
  rw [hrows, KeyMap.get?_set]
  by_cases hk : k = id
  · rw [if_pos hk, hk]
    exact hstep
  · rw [if_neg hk]
    exact RowStep.same _

theorem postUploadGate_eq_ok {actor post : Nat} (h : s.postUploadGate g actor post = .ok ()) :
    ∃ x, s.board.posts.get? post = some x ∧ x.author = actor ∧ x.isHidden = false ∧
      g.allowed = true := by
  unfold Service.postUploadGate at h
  split at h
  · cases h
  · next x hpost =>
    split at h
    · cases h
    · next hgate =>
      simp only [Bool.or_eq_true, bne_iff_ne, ne_eq, Bool.not_eq_true', not_or,
        Decidable.not_not, Bool.not_eq_true, Bool.not_eq_false] at hgate
      exact ⟨x, hpost, hgate.1.1, hgate.1.2, hgate.2⟩

variable {upload : Upload} {thumb : Bool}

theorem keys_ne_nil {keys : List Key} (h : keys.length = upload.artifacts thumb) : keys ≠ [] := by
  rintro rfl
  unfold Upload.artifacts at h
  split at h <;> first | (split at h <;> simp at h) | simp at h

/-- What a publishing transaction does: it names the objects in a photo or a cover, in a new
attachment, or in the row of a claim. -/
theorem publish_cases {keys : List Key}
    (hkeys : keys.length = upload.artifacts thumb) (h : s.publish p g keys upload = .ok t) :
    (∃ slot next, t = { s.replacePicture slot keys with nextId := next } ∧
        ((∃ id, slot = .threadPhoto id) → slot = .threadPhoto s.nextId ∧ next = s.nextId + 1) ∧
        s.nextId ≤ next ∧ keys.length ≤ 2) ∨
      (∃ post uploader kind expires, t = { s.setAttachment s.nextId
            (s.newAttachment post uploader kind expires keys) with nextId := s.nextId + 1 } ∧
          (kind ≠ .image → keys.length = 1) ∧ keys.length ≤ 2 ∧
          (s.board.posts.get? post).isSome = true) ∨
        ∃ lease, upload = .video lease ∧ s.finishVideo g keys lease = .ok t := by
  have htwo : keys.length ≤ 2 := by
    rw [hkeys]
    unfold Upload.artifacts
    split <;> first | (split <;> omega) | omega
  cases upload with
  | threadPhoto =>
    dsimp only [Service.publish] at h
    split at h
    · cases h
      exact Or.inl ⟨_, _, rfl, fun _ => ⟨rfl, rfl⟩, Nat.le_succ _, htwo⟩
    · cases h
  | profilePhoto | activityCover | placeCover | licensedCover =>
    dsimp only [Service.publish] at h
    split at h
    · cases h
      exact Or.inl ⟨_, _, rfl, fun ⟨id, hid⟩ => (by cases hid), Nat.le_refl _, htwo⟩
    · cases h
  | attachment post uploader kind =>
    dsimp only [Service.publish] at h
    split at h
    · cases h
    · next hgate =>
      split at h
      · next hmode =>
        cases h
        have ⟨x, hpost, _⟩ := postUploadGate_eq_ok hgate
        refine Or.inr (Or.inl ⟨post, uploader, kind, _, rfl, ?_, htwo, by rw [hpost]; rfl⟩)
        intro hkind
        have hone : (kind == Kind.image) = false := by simpa using hkind
        simpa [Upload.artifacts, hone] using hkeys
      · cases h
  | video lease => exact Or.inr (Or.inr ⟨lease, rfl, h⟩)

variable {j : Nat}

/-- What a publishing transaction does to the rows of attachments. -/
theorem row_publish (hserial : Serial s) {thumb : Bool}
    (hjob : s.jobs.get? j = some (.storing upload thumb keys))
    (hkeys : keys.length = upload.artifacts thumb) (h : s.publish p g keys upload = .ok t)
    (answer : Answer) (job : Job) (k : Nat) :
    RowStep p s (.publish j g answer) (t.setJob j job) k (s.attachments.get? k)
      ((t.setJob j job).attachments.get? k) := by
  rcases publish_cases hkeys h with ⟨slot, next, rfl, _⟩ |
    ⟨post, uploader, kind, expires, rfl, hone, _, hpost⟩ | ⟨lease, rfl, hfinish⟩
  · exact RowStep.same _
  · refine row_set rfl ?_ k
    rw [hserial.attachments _ (Nat.le_refl _)]
    exact RowStep.inserted post uploader kind _ keys rfl rfl (keys_ne_nil hkeys) hone hpost
  · have ⟨r, hget, hholds, hsource, hpurged, ht⟩ := finishVideo_eq_ok hfinish
    subst ht
    refine row_set rfl ?_ k
    rw [hget]
    refine RowStep.finished r j thumb keys lease g answer rfl hjob hkeys rfl hholds hsource ?_
    intro key hkey
    show ((s.setAttachment lease.id (readyRow keys r)).queueDelete
      lease.att.sourceKey.toList).queued key = true
    rw [Service.queued_queueDelete, ← hsource, hkey]
    simp

variable {tasks : List Task}

theorem row_runTask {lease : Option Lease} {task : Task}
    (hjob : s.jobs.get? j = some (.ending lease (task :: tasks))) (answer : Answer) (k : Nat) :
    RowStep p s (.proceed j answer) (s.runTask p j lease task tasks answer) k (s.attachments.get? k)
      ((s.runTask p j lease task tasks answer).attachments.get? k) := by
  cases task with
  | discard => exact RowStep.same _
  | erase | clear => cases answer <;> exact RowStep.same _
  | failClaim cause =>
    show RowStep p s (.proceed j answer)
      ((s.recordFailure p lease cause answer).setJob j (.ending lease tasks)) k
      (s.attachments.get? k) ((s.recordFailure p lease cause answer).attachments.get? k)
    cases lease with
    | none => exact RowStep.same _
    | some l =>
      show RowStep p s (.proceed j answer) ((s.commit ((s.failClaim p l cause).getD s) answer).setJob j _) k
        (s.attachments.get? k) ((s.commit ((s.failClaim p l cause).getD s) answer).attachments.get? k)
      cases happlied : answer.applied with
      | false =>
        rw [Service.commit, if_neg (by rw [happlied]; exact Bool.false_ne_true)]
        exact RowStep.same _
      | true =>
        rw [Service.commit, if_pos happlied]
        cases h : s.failClaim p l cause with
        | none => exact RowStep.same _
        | some t =>
          have hnext : (t.setJob j (Job.ending (some l) tasks)).jobs.get? j =
              some (.ending (some l) tasks) := by
            rw [Service.jobs_setJob, KeyMap.get?_set, if_pos rfl]
          rcases failClaim_cases h with ⟨rfl, _⟩ | ⟨r, hget, hholds, hcases⟩
          · exact RowStep.same _
          · have hstep : RowStep p s (.proceed j answer) (t.setJob j (Job.ending (some l) tasks)) l.id
                (s.attachments.get? l.id) (some (failedRow p cause r)) := by
              rw [hget]
              exact RowStep.failed r j l cause tasks answer rfl hjob hnext rfl hholds
            rcases hcases with ⟨rfl, hrow⟩ | ⟨rfl, _⟩ | ⟨rfl, hrow⟩
            · rw [hrow] at hstep
              exact row_set rfl hstep k
            · exact row_set rfl hstep k
            · exact RowStep.same _

theorem row_delete {gone : Nat → Bool} (haction : ∀ id, gone id = true → a.deletes id = true)
    (hrows : t.attachments = s.attachments.removeIf fun id _ => gone id) (k : Nat) :
    RowStep p s a t k (s.attachments.get? k) (t.attachments.get? k) := by
  rw [hrows, KeyMap.get?_removeIf]
  cases s.attachments.get? k with
  | none => exact RowStep.same _
  | some r =>
    cases hgone : gone k with
    | true =>
      rw [Option.filter_some, if_neg (by simp)]
      exact RowStep.deleted r (haction k hgone)
    | false =>
      rw [Option.filter_some, if_pos (by simp)]
      exact RowStep.same _

/-- What the transaction of a purge does. -/
theorem purgeAttachment_cases (s : Service) (id : Nat) :
    s.purgeAttachment id = (s, false) ∧ (∀ r, s.attachments.get? id = some r →
        purgeable s.now r = false ∨ s.attachmentHeld r = true) ∨
      ∃ r, s.attachments.get? id = some r ∧ purgeable s.now r = true ∧ s.attachmentHeld r = false ∧
        s.purgeAttachment id = ((s.queueDelete r.keys).setAttachment id
          { r.clearKeys with purgedAt := some s.now }, true) := by
  unfold Service.purgeAttachment
  cases hget : s.attachments.get? id with
  | none => exact Or.inl ⟨rfl, fun r hr => (by cases hr)⟩
  | some r =>
    dsimp only
    split
    · next hpurge =>
      rw [Bool.and_eq_true, Bool.not_eq_true'] at hpurge
      exact Or.inr ⟨r, rfl, hpurge.1, hpurge.2, rfl⟩
    · next hkeep =>
      refine Or.inl ⟨rfl, fun r' hr => ?_⟩
      rw [Option.some.inj hr] at hkeep
      rw [Bool.and_eq_true, Bool.not_eq_true', not_and_or] at hkeep
      exact hkeep.imp (fun h => by simpa using h) (fun h => by simpa using h)

theorem row_purgeAttachment (id j : Nat) (answer : Answer) (cancelled : Bool) (job : Job) (k : Nat) :
    RowStep p s (.purge j answer cancelled) ((s.purgeAttachment id).1.setJob j job) k (s.attachments.get? k)
      ((s.purgeAttachment id).1.attachments.get? k) := by
  rcases purgeAttachment_cases s id with ⟨hsame, _⟩ | ⟨r, hget, hpurge, hheld, hpurged⟩
  · rw [hsame]
    exact RowStep.same _
  · rw [hpurged]
    refine @row_set p s _ _ id { r.clearKeys with purgedAt := some s.now } rfl ?_ k
    rw [hget]
    exact RowStep.purged r j answer cancelled rfl hpurge hheld

/-! ### Jobs -/

theorem job_set {job : Job} (hjobs : t.jobs = s.jobs.set j job)
    (hstep : JobStep p s t j (s.jobs.get? j) (some job)) (k : Nat) :
    JobStep p s t k (s.jobs.get? k) (t.jobs.get? k) := by
  rw [hjobs, KeyMap.get?_set]
  by_cases hk : k = j
  · rw [if_pos hk, hk]
    exact hstep
  · rw [if_neg hk]
    exact JobStep.same _

theorem job_moved {old new : Job} (hold : s.jobs.get? j = some old)
    (hjobs : t.jobs = s.jobs.set j new) (hlease : new.lease? = old.lease?)
    (hactive : new.active? = none ∨ new.active? = old.active?)
    (hone : old.OneFailure → new.OneFailure)
    (hkeys : (∃ lease, new.lease? = some lease) → ∀ k ∈ new.keys, k ∈ old.keys ∨ t.makers[k]? = some j)
    (k : Nat) : JobStep p s t k (s.jobs.get? k) (t.jobs.get? k) := by
  refine job_set hjobs ?_ k
  rw [hold]
  exact JobStep.moved old new hlease hactive hone hkeys

theorem job_idle {old new : Job} (hold : s.jobs.get? j = some old)
    (hjobs : t.jobs = s.jobs.set j new) (hbefore : old.lease? = none) (hidle : new.Idle) (k : Nat) :
    JobStep p s t k (s.jobs.get? k) (t.jobs.get? k) := by
  refine job_moved hold hjobs (hidle.lease.trans hbefore.symm) (Or.inl hidle.active)
    (fun _ => hidle.one) ?_ k
  rintro ⟨lease, hsome⟩
  rw [hidle.lease] at hsome
  cases hsome

theorem active_ending (lease : Option Lease) (tasks : List Task) :
    (Job.ending lease tasks).active? = none ∨ (Job.ending lease tasks).active? = lease := by
  unfold Job.active?
  by_cases h : tasks.any Task.writesRow = true
  · exact Or.inr (if_pos h)
  · exact Or.inl (if_neg h)

/-- The end of a job that stores. -/
theorem job_ending {tasks : List Task} (hold : s.jobs.get? j = some (.storing upload thumb keys))
    (hjobs : t.jobs = s.jobs.set j (.ending upload.lease? tasks))
    (hone : tasks.countP Task.writesRow ≤ 1)
    (hkeys : ∀ k ∈ (Job.ending upload.lease? tasks).keys, k ∈ keys ∨ t.makers[k]? = some j)
    (k : Nat) : JobStep p s t k (s.jobs.get? k) (t.jobs.get? k) := by
  refine job_moved hold hjobs rfl (active_ending upload.lease? tasks) (fun _ => hone) ?_ k
  intro _ key hkey
  refine (hkeys key hkey).imp_left fun h => ?_
  exact List.mem_append_left _ (List.mem_append_left _ h)

/-- A job that ends goes on with its tasks. -/
theorem job_next {lease : Option Lease} {next : List Task}
    (hold : s.jobs.get? j = some (.ending lease tasks))
    (hjobs : t.jobs = s.jobs.set j (.ending lease next))
    (hwrites : next.countP Task.writesRow ≤ tasks.countP Task.writesRow)
    (hkeys : ∀ k ∈ (Job.ending lease next).keys, k ∈ (Job.ending lease tasks).keys) (k : Nat) :
    JobStep p s t k (s.jobs.get? k) (t.jobs.get? k) := by
  refine job_moved hold hjobs rfl ?_ (fun h => Nat.le_trans hwrites h)
    (fun _ key hkey => Or.inl (hkeys key hkey)) k
  by_cases hnext : next.any Task.writesRow = true
  · have htasks : tasks.any Task.writesRow = true := by
      rw [List.any_eq_true] at hnext ⊢
      rw [← List.countP_pos_iff] at hnext ⊢
      omega
    exact Or.inr ((if_pos hnext).trans (if_pos htasks).symm)
  · exact Or.inl (if_neg hnext)

variable {k : Key}

theorem mem_keys_ending {lease : Option Lease} :
    k ∈ (Job.ending lease tasks).keys ↔ ∃ task ∈ tasks, k ∈ task.dropped ∨ k ∈ task.doomed := by
  unfold Job.keys Job.carried Job.dropped Job.doomed
  simp only [List.nil_append, List.mem_append, List.mem_flatMap]
  constructor
  · rintro (⟨task, hmem, h⟩ | ⟨task, hmem, h⟩)
    · exact ⟨task, hmem, Or.inl h⟩
    · exact ⟨task, hmem, Or.inr h⟩
  · rintro ⟨task, hmem, h | h⟩
    · exact Or.inl ⟨task, hmem, h⟩
    · exact Or.inr ⟨task, hmem, h⟩

theorem mem_keys_cleanup {lease : Option Lease}
    (h : k ∈ (Job.ending lease (upload.cleanup cause keys)).keys) : k ∈ keys := by
  have ⟨task, hmem, hk⟩ := mem_keys_ending.mp h
  unfold Upload.cleanup at hmem
  split at hmem <;> simp only [List.mem_cons, List.not_mem_nil, or_false] at hmem
  · rcases hmem with rfl | rfl
    · simp [Task.dropped, Task.doomed] at hk
    · simpa [Task.dropped, Task.doomed] using hk
  · subst hmem
    simpa [Task.dropped, Task.doomed] using hk

theorem mem_keys_giveUp {key : Key} {lease : Option Lease}
    (h : k ∈ (Job.ending lease (upload.giveUp cause keys key)).keys) : k ∈ keys ∨ k = key := by
  have ⟨task, hmem, hk⟩ := mem_keys_ending.mp h
  unfold Upload.giveUp at hmem
  rw [List.mem_append, List.mem_cons, List.mem_map] at hmem
  rcases hmem with (rfl | ⟨key', hkey', rfl⟩) | hfail
  · exact Or.inr (by simpa [Task.dropped, Task.doomed] using hk)
  · have heq : k = key' := by simpa [Task.dropped, Task.doomed] using hk
    exact Or.inl (heq ▸ hkey')
  · split at hfail
    · rw [List.mem_singleton.mp hfail] at hk
      simp [Task.dropped, Task.doomed] at hk
    · cases hfail

theorem countP_cleanup (cause : Cause) (keys : List Key) (upload : Upload) :
    (upload.cleanup cause keys).countP Task.writesRow ≤ 1 := by
  unfold Upload.cleanup
  split
  · exact Nat.le_refl 1
  · exact Nat.zero_le 1

theorem countP_giveUp (cause : Cause) (keys : List Key) (key : Key) (upload : Upload) :
    (upload.giveUp cause keys key).countP Task.writesRow ≤ 1 := by
  have hnone : (keys.map fun k => Task.discard [k]).countP Task.writesRow = 0 := by
    rw [List.countP_eq_zero]
    intro task hmem
    have ⟨k, _, heq⟩ := List.mem_map.mp hmem
    rw [← heq]
    exact Bool.false_ne_true
  unfold Upload.giveUp
  have hdiscard : (Task.discard [key]).writesRow = false := rfl
  rw [List.countP_append, List.countP_cons, hnone, hdiscard, if_neg Bool.false_ne_true, Nat.zero_add]
  split
  · exact Nat.le_refl 1
  · exact Nat.zero_le 1

theorem job_start (hserial : Serial s) {job : Job} (hjobs : t.jobs = s.jobs.set s.nextId job)
    (hnext : t.nextId = s.nextId + 1) (hidle : job.Idle) (k : Nat) :
    JobStep p s t k (s.jobs.get? k) (t.jobs.get? k) := by
  refine job_set hjobs ?_ k
  rw [hserial.jobs _ (Nat.le_refl _)]
  exact JobStep.started job rfl hnext hidle.lease hidle.active hidle.one

theorem jobs_failClaim (s : Service) (lease : Lease) (cause : Cause) :
    ((s.failClaim p lease cause).getD s).jobs = s.jobs := by
  unfold Service.failClaim
  split
  · rfl
  · split
    · rfl
    · split
      · rfl
      · rfl
      · split <;> rfl

theorem jobs_recordFailure (s : Service) (lease : Option Lease) (cause : Cause) (answer : Answer) :
    (s.recordFailure p lease cause answer).jobs = s.jobs := by
  unfold Service.recordFailure
  split
  · rfl
  · next l =>
    unfold Service.commit
    split
    · exact jobs_failClaim s l cause
    · rfl

theorem jobs_purgeAttachment (s : Service) (id : Nat) : (s.purgeAttachment id).1.jobs = s.jobs := by
  unfold Service.purgeAttachment
  split
  · rfl
  · split <;> rfl

theorem jobs_publish {keys : List Key}
    (hkeys : keys.length = upload.artifacts thumb) (h : s.publish p g keys upload = .ok t) :
    t.jobs = s.jobs := by
  rcases publish_cases hkeys h with ⟨slot, next, rfl, _⟩ | ⟨post, uploader, kind, expires, rfl, _⟩ |
    ⟨lease, rfl, hfinish⟩
  · rfl
  · rfl
  · have ⟨r, _, _, _, _, ht⟩ := finishVideo_eq_ok hfinish
    rw [ht]
    rfl

theorem job_runTask {lease : Option Lease} {task : Task}
    (hjob : s.jobs.get? j = some (.ending lease (task :: tasks))) (answer : Answer) (k : Nat) :
    JobStep p s (s.runTask p j lease task tasks answer) k (s.jobs.get? k)
      ((s.runTask p j lease task tasks answer).jobs.get? k) := by
  have hcount : tasks.countP Task.writesRow ≤ (task :: tasks).countP Task.writesRow := by
    rw [List.countP_cons]
    omega
  have hrest : ∀ key ∈ (Job.ending lease tasks).keys, key ∈ (Job.ending lease (task :: tasks)).keys := by
    intro key hkey
    have ⟨task', hmem, h⟩ := mem_keys_ending.mp hkey
    exact mem_keys_ending.mpr ⟨task', List.mem_cons_of_mem _ hmem, h⟩
  cases task with
  | discard keys =>
    refine job_next hjob rfl ?_ ?_ k
    · have hnone : (keys.map Task.erase).countP Task.writesRow = 0 := by
        rw [List.countP_map, List.countP_eq_zero]
        exact fun k _ => Bool.false_ne_true
      rw [List.countP_append, hnone, Nat.zero_add]
      exact hcount
    · intro key hkey
      have ⟨task', hmem, h⟩ := mem_keys_ending.mp hkey
      rcases List.mem_append.mp hmem with hmem | hmem
      · have ⟨key', hkey', heq⟩ := List.mem_map.mp hmem
        subst heq
        have heq : key = key' := by simpa [Task.dropped, Task.doomed] using h
        exact mem_keys_ending.mpr ⟨_, List.mem_cons_self, Or.inl (heq ▸ hkey')⟩
      · exact mem_keys_ending.mpr ⟨task', List.mem_cons_of_mem _ hmem, h⟩
  | erase key =>
    have hjobs : (s.runTask p j lease (.erase key) tasks answer).jobs = s.jobs.set j
        (.ending lease (if answer = .done then .clear key :: tasks else tasks)) := by
      unfold Service.runTask Service.commit
      dsimp only
      split <;> rfl
    by_cases hdone : answer = .done
    · rw [if_pos hdone] at hjobs
      refine job_next hjob hjobs ?_ ?_ k
      · rw [List.countP_cons]
        exact hcount
      · intro key' hkey
        have ⟨task', hmem, h⟩ := mem_keys_ending.mp hkey
        rcases List.mem_cons.mp hmem with rfl | hmem
        · exact mem_keys_ending.mpr ⟨_, List.mem_cons_self, h⟩
        · exact mem_keys_ending.mpr ⟨task', List.mem_cons_of_mem _ hmem, h⟩
    · rw [if_neg hdone] at hjobs
      exact job_next hjob hjobs hcount hrest k
  | clear =>
    refine job_next hjob ?_ hcount hrest k
    unfold Service.runTask Service.commit
    dsimp only
    split <;> rfl
  | failClaim =>
    refine job_next hjob ?_ hcount hrest k
    unfold Service.runTask
    dsimp only
    rw [Service.jobs_setJob, jobs_recordFailure]

/-! ### Photos, covers and ids -/

/-- Ids, draws and the clock only grow. -/
structure Grows (s t : Service) : Prop where
  ids : s.nextId ≤ t.nextId
  draws : s.makers <+: t.makers
  clock : s.now ≤ t.now

/-- What a step does to the photos and covers, and to ids, draws and the clock. -/
def PictureStep (s t : Service) : Prop :=
  Grows s t ∧
    (t.pictures = s.pictures ∨
      (∃ slot r, t.pictures = s.pictures.set slot r ∧
        ∀ id, slot = .threadPhoto id → id = s.nextId ∧ t.nextId = s.nextId + 1) ∨
      ∃ gone : Slot → Bool, t.pictures = s.pictures.removeIf fun slot _ => gone slot)

theorem picture_same (hgrows : Grows s t) (h : t.pictures = s.pictures) : PictureStep s t :=
  ⟨hgrows, Or.inl h⟩

theorem picture_frame (hids : t.nextId = s.nextId) (hdraws : t.makers = s.makers)
    (hclock : t.now = s.now) (h : t.pictures = s.pictures) : PictureStep s t := by
  have hprefix : s.makers <+: t.makers := hdraws ▸ List.prefix_refl s.makers
  exact picture_same ⟨Nat.le_of_eq hids.symm, hprefix, Int.le_of_eq hclock.symm⟩ h

theorem picture_failClaim (s : Service) (lease : Lease) (cause : Cause) :
    PictureStep s ((s.failClaim p lease cause).getD s) := by
  unfold Service.failClaim
  split
  · exact picture_frame rfl rfl rfl rfl
  · split
    · exact picture_frame rfl rfl rfl rfl
    · split
      · exact picture_frame rfl rfl rfl rfl
      · exact picture_frame rfl rfl rfl rfl
      · split <;> exact picture_frame rfl rfl rfl rfl

theorem picture_runTask (j : Nat) (lease : Option Lease) (task : Task) (tasks : List Task)
    (answer : Answer) : PictureStep s (s.runTask p j lease task tasks answer) := by
  cases task with
  | discard => exact picture_frame rfl rfl rfl rfl
  | erase | clear => cases answer <;> exact picture_frame rfl rfl rfl rfl
  | failClaim cause =>
    cases lease with
    | none => exact picture_frame rfl rfl rfl rfl
    | some l =>
      have ⟨⟨hids, hdraws, hclock⟩, hpictures⟩ := @picture_failClaim p s l cause
      cases answer with
      | done | lost => exact ⟨⟨hids, hdraws, hclock⟩, hpictures⟩
      | failed => exact picture_frame rfl rfl rfl rfl

theorem picture_publish {keys : List Key}
    (hkeys : keys.length = upload.artifacts thumb) (h : s.publish p g keys upload = .ok t) :
    PictureStep s t := by
  rcases publish_cases hkeys h with ⟨slot, next, rfl, hphoto, hnext, _⟩ |
    ⟨post, uploader, kind, expires, rfl, _⟩ | ⟨lease, rfl, hfinish⟩
  · refine ⟨⟨hnext, List.prefix_refl _, Int.le_refl _⟩, Or.inr (Or.inl ⟨slot, _, rfl, ?_⟩)⟩
    intro id hid
    have ⟨hslot, hn⟩ := hphoto ⟨id, hid⟩
    rw [hid] at hslot
    cases hslot
    exact ⟨rfl, hn⟩
  · exact picture_same ⟨Nat.le_succ _, List.prefix_refl _, Int.le_refl _⟩ rfl
  · have ⟨r, _, _, _, _, ht⟩ := finishVideo_eq_ok hfinish
    rw [ht]
    exact picture_frame rfl rfl rfl rfl

theorem picture_purgeAttachment (s : Service) (id j : Nat) (job : Job) :
    PictureStep s ((s.purgeAttachment id).1.setJob j job) := by
  unfold Service.purgeAttachment
  split
  · exact picture_frame rfl rfl rfl rfl
  · split <;> exact picture_frame rfl rfl rfl rfl

/-! ### Steps -/

/-- The job that takes the step. -/
def Action.actor? : Action → Option Nat
  | .reject j _ => some j
  | .put j _ _ => some j
  | .publish j _ _ => some j
  | .proceed j _ => some j
  | .purge j _ _ => some j
  | .drain j _ _ _ => some j
  | _ => none

/-- The job that the step may write: its own, or a new one. -/
def Action.job (s : Service) (a : Action) : Nat := a.actor?.getD s.nextId

/-- What a step does to the rows, to the jobs and to all else. -/
structure Does (p : PolicyConfig) (s : Service) (a : Action) (t : Service) : Prop where
  rows : ∀ k, RowStep p s a t k (s.attachments.get? k) (t.attachments.get? k)
  jobs : ∀ k, JobStep p s t k (s.jobs.get? k) (t.jobs.get? k)
  pictures : PictureStep s t
  written : t.jobs = s.jobs ∨ ∃ job, t.jobs = s.jobs.set (a.job s) job

theorem does_rows (hrows : ∀ k, RowStep p s a t k (s.attachments.get? k) (t.attachments.get? k))
    (hjobs : t.jobs = s.jobs) (hpictures : PictureStep s t) : Does p s a t :=
  ⟨hrows, fun k => by rw [hjobs]; exact JobStep.same _, hpictures, Or.inl hjobs⟩

theorem does_nothing : Does p s a s :=
  does_rows (fun _ => RowStep.same _) rfl (picture_frame rfl rfl rfl rfl)

theorem does_job {job : Job} (hrows : t.attachments = s.attachments) (hpictures : PictureStep s t)
    (hjobs : t.jobs = s.jobs.set (a.job s) job)
    (hstep : ∀ k, JobStep p s t k (s.jobs.get? k) (t.jobs.get? k)) : Does p s a t :=
  ⟨fun k => by rw [hrows]; exact RowStep.same _, hstep, hpictures, Or.inr ⟨job, hjobs⟩⟩

theorem does_idle {old new : Job} (hold : s.jobs.get? (a.job s) = some old)
    (hrows : t.attachments = s.attachments) (hpictures : PictureStep s t)
    (hjobs : t.jobs = s.jobs.set (a.job s) new) (hbefore : old.lease? = none) (hidle : new.Idle) :
    Does p s a t :=
  does_job hrows hpictures hjobs (job_idle hold hjobs hbefore hidle)

theorem does_start (hserial : Serial s) (hactor : a.actor? = none) {job : Job} (hidle : job.Idle) :
    Does p s a (s.startJob job) := by
  refine @does_job p s _ a job rfl
    (picture_same ⟨Nat.le_succ _, List.prefix_refl _, Int.le_refl _⟩ rfl) ?_
    (job_start hserial rfl rfl hidle)
  rw [Action.job, hactor]
  rfl

theorem does_claim (hserial : Serial s) (locked : List Nat) (answer : Answer) :
    Does p s (.claim locked answer) (s.claimStep p locked answer) := by
  unfold Service.claimStep
  cases hclaim : s.claim p locked with
  | none => exact does_nothing
  | some result =>
    have ⟨t, lease⟩ := result
    have ⟨id, r, _, hget, hclaimable, hcases⟩ := claim_cases hclaim
    rcases hcases with ⟨hleft, rfl, rfl⟩ | ⟨hspent, hstatus, rfl, rfl⟩
    · have hrow : ∀ u : Service, RowStep p s (.claim locked answer) u id (s.attachments.get? id)
          (some (s.leaseOf id r).att) := by
        intro u
        rw [hget]
        exact RowStep.claimed r locked answer rfl hclaimable hleft
      cases answer with
      | done =>
        refine ⟨row_set rfl (hrow _), @job_set p s _ s.nextId _ rfl ?_,
          picture_same ⟨Nat.le_succ _, List.prefix_refl _, Int.le_refl _⟩ rfl, Or.inr ⟨_, rfl⟩⟩
        rw [hserial.jobs _ (Nat.le_refl _)]
        exact JobStep.claimed id r rfl rfl hget hclaimable hleft rfl
      | lost => exact does_rows (row_set rfl (hrow _)) rfl (picture_frame rfl rfl rfl rfl)
      | failed => exact does_nothing
    · have hrow : ∀ u : Service, RowStep p s (.claim locked answer) u id (s.attachments.get? id)
          (some { r.clearKeys with status := .failed, startedAt := none }) := by
        intro u
        rw [hget]
        exact RowStep.exhausted r hclaimable hspent hstatus
      cases answer with
      | done | lost => exact does_rows (row_set rfl (hrow _)) rfl (picture_frame rfl rfl rfl rfl)
      | failed => exact does_nothing

theorem does_reject (j : Nat) (cause : Cause) : Does p s (.reject j cause) (s.rejectStep j cause) := by
  unfold Service.rejectStep
  split
  · next upload thumb hjob =>
    refine does_job rfl (picture_frame rfl rfl rfl rfl) rfl (job_ending hjob rfl ?_ ?_)
    · split
      · exact Nat.le_refl 1
      · exact Nat.zero_le 1
    · intro key hkey
      have ⟨task, hmem, h⟩ := mem_keys_ending.mp hkey
      split at hmem <;> simp only [List.mem_cons, List.not_mem_nil, or_false] at hmem
      subst hmem
      simp [Task.dropped, Task.doomed] at h
  · exact does_nothing

theorem does_put (j : Nat) (answer : Answer) (cause : Cause) :
    Does p s (.put j answer cause) (s.putStep j answer cause) := by
  unfold Service.putStep
  split
  · next upload thumb keys hjob =>
    split
    · dsimp only
      have hmade : (s.makers ++ [j])[s.makers.length]? = some j := by simp
      refine does_job rfl (picture_same ⟨Nat.le_refl _, List.prefix_append _ _, Int.le_refl _⟩ rfl) rfl
        fun k => ?_
      by_cases hdone : answer = .done
      · rw [if_pos hdone]
        refine job_moved hjob rfl (by rfl) (Or.inr (by rfl)) (by exact fun h => h) ?_ k
        intro _ key hkey
        have hkey' : key ∈ keys ++ [s.makers.length] := by simpa [Job.keys, Job.carried,
          Job.dropped, Job.doomed] using hkey
        rcases List.mem_append.mp hkey' with h | h
        · exact Or.inl (List.mem_append_left _ (List.mem_append_left _ h))
        · rw [List.mem_singleton.mp h]
          exact Or.inr hmade
      · rw [if_neg hdone]
        refine job_ending hjob rfl (countP_giveUp cause keys _ upload) ?_ k
        intro key hkey
        refine (mem_keys_giveUp hkey).imp_right fun h => ?_
        rw [h]
        exact hmade
    · exact does_nothing
  · exact does_nothing

theorem does_publish (hserial : Serial s) (j : Nat) (g : Gate) (answer : Answer) :
    Does p s (.publish j g answer) (s.publishStep p j g answer) := by
  unfold Service.publishStep
  split
  · next upload thumb keys hjob =>
    by_cases hkeys : keys.length = upload.artifacts thumb
    · rw [if_pos hkeys]
      have hclean : ∀ (u : Service) (cause : Cause), u.jobs = s.jobs.set j
          (.ending upload.lease? (upload.cleanup cause keys)) →
          ∀ k, JobStep p s u k (s.jobs.get? k) (u.jobs.get? k) := fun u cause hjobs =>
        job_ending hjob hjobs (countP_cleanup cause keys upload)
          fun key hkey => Or.inl (mem_keys_cleanup hkey)
      cases h : s.publish p g keys upload with
      | error cause => exact does_job rfl (picture_frame rfl rfl rfl rfl) rfl (hclean _ cause rfl)
      | ok t =>
        have ⟨⟨hids, hdraws, hclock⟩, hpictures⟩ := picture_publish hkeys h
        have hset : ∀ job, (t.setJob j job).jobs = s.jobs.set j job := fun job => by
          rw [Service.jobs_setJob, jobs_publish hkeys h]
        cases answer with
        | done =>
          refine ⟨row_publish hserial hjob hkeys h _ _, job_ending hjob (hset _) (Nat.zero_le _) ?_,
            ⟨⟨hids, hdraws, hclock⟩, hpictures⟩, Or.inr ⟨_, hset _⟩⟩
          intro key hkey
          have ⟨task, hmem, _⟩ := mem_keys_ending.mp hkey
          cases hmem
        | lost =>
          exact ⟨row_publish hserial hjob hkeys h _ _, hclean _ .other (hset _),
            ⟨⟨hids, hdraws, hclock⟩, hpictures⟩, Or.inr ⟨_, hset _⟩⟩
        | failed => exact does_job rfl (picture_frame rfl rfl rfl rfl) rfl (hclean _ .other rfl)
    · rw [if_neg hkeys]
      exact does_nothing
  · exact does_nothing

theorem does_proceed (j : Nat) (answer : Answer) :
    Does p s (.proceed j answer) (s.proceedStep p j answer) := by
  unfold Service.proceedStep
  split
  · next lease task tasks hjob =>
    refine ⟨row_runTask hjob answer, job_runTask hjob answer, picture_runTask j _ _ _ answer, Or.inr ?_⟩
    cases task with
    | discard => exact ⟨_, rfl⟩
    | erase | clear => cases answer <;> exact ⟨_, rfl⟩
    | failClaim cause =>
      refine ⟨.ending lease tasks, ?_⟩
      show ((s.recordFailure p lease cause answer).setJob j _).jobs = _
      rw [Service.jobs_setJob, jobs_recordFailure]
      rfl
  · next hjob =>
    cases answer <;> exact does_idle hjob rfl (picture_frame rfl rfl rfl rfl) rfl rfl ⟨rfl, rfl, trivial⟩
  · next hjob =>
    cases answer <;> exact does_idle hjob rfl (picture_frame rfl rfl rfl rfl) rfl rfl
      (by first | exact idle_finished | exact ⟨rfl, rfl, trivial⟩)
  · next hjob =>
    cases answer <;> exact does_idle hjob rfl (picture_frame rfl rfl rfl rfl) rfl rfl
      (by first | exact idle_finished | exact ⟨rfl, rfl, trivial⟩)
  · exact does_nothing

theorem does_delete {actor : Nat} {staff : Bool} {id : Nat} {answer : Answer} :
    Does p s (.deleteAttachment actor staff id answer) (step p s (.deleteAttachment actor staff id answer)) := by
  dsimp only [step]
  unfold Service.deleteAttachment
  split
  · exact does_nothing
  · next t ht =>
    split at ht
    · cases ht
    · split at ht
      · cases ht
      · cases ht
        have hgone : ∀ u : Service, u.attachments = (s.attachments.removeIf fun j _ => j == id) →
            ∀ k, RowStep p s (.deleteAttachment actor staff id answer) u k (s.attachments.get? k)
              (u.attachments.get? k) := fun u hu =>
          row_delete (fun j (h : (j == id) = true) => h) hu
        cases answer with
        | done | lost => exact does_rows (hgone _ rfl) rfl (picture_frame rfl rfl rfl rfl)
        | failed => exact does_nothing

theorem does_purge (j : Nat) (answer : Answer) (cancelled : Bool) :
    Does p s (.purge j answer cancelled) (s.purgeStep j answer cancelled) := by
  unfold Service.purgeStep
  split
  · next w hjob =>
    have hgoes : ∀ job : Job, job.Idle → Does p s (.purge j answer cancelled) (s.setJob j job) :=
      fun job hidle => does_idle hjob rfl (picture_frame rfl rfl rfl rfl) rfl rfl hidle
    have hpurging : ∀ w : Purge, (Job.purging w).Idle := fun _ => ⟨rfl, rfl, trivial⟩
    split
    · unfold Service.purgePage
      split
      · split
        · exact hgoes _ idle_finished
        · exact hgoes _ (hpurging _)
      · exact hgoes _ idle_finished
    · next c rest hpage =>
      have hpurged : ∀ job : Job, job.Idle →
          Does p s (.purge j answer cancelled) ((s.purgeAttachment c.id).1.setJob j job) := by
        intro job hidle
        have hjobs : ((s.purgeAttachment c.id).1.setJob j job).jobs = s.jobs.set j job := by
          rw [Service.jobs_setJob, jobs_purgeAttachment]
        exact ⟨row_purgeAttachment c.id j answer cancelled job, job_idle hjob hjobs rfl hidle,
          picture_purgeAttachment s c.id j job, Or.inr ⟨job, hjobs⟩⟩
      have hnext : (if cancelled then Job.finished else .purging { w with page := rest }).Idle := by
        split
        · exact idle_finished
        · exact hpurging _
      unfold Service.purgeCandidate
      split
      · exact hgoes _ (hpurging _)
      · cases answer with
        | done => exact hpurged _ (hpurging _)
        | lost => exact hpurged _ hnext
        | failed => exact hgoes _ hnext
  · exact does_nothing

theorem does_drain (j : Nat) (locked : List Key) (key : Option Key) (answer : Answer) :
    Does p s (.drain j locked key answer) (s.drainStep j locked key answer) := by
  unfold Service.drainStep
  split
  · next left hjob =>
    have hends : Does p s (.drain j locked key answer) (s.setJob j .finished) :=
      does_idle hjob rfl (picture_frame rfl rfl rfl rfl) rfl rfl idle_finished
    unfold Service.drainRound
    split
    · exact hends
    · exact hends
    · split
      · cases answer with
        | done =>
          exact does_idle hjob rfl (picture_frame rfl rfl rfl rfl) rfl rfl ⟨rfl, rfl, trivial⟩
        | lost => exact does_idle hjob rfl (picture_frame rfl rfl rfl rfl) rfl rfl idle_finished
        | failed => exact hends
      · exact does_nothing
  · exact does_nothing

theorem does_step (hserial : Serial s) (a : Action) : Does p s a (step p s a) := by
  cases a with
  | tick seconds =>
    refine does_rows (fun _ => RowStep.same _) rfl (picture_same ⟨Nat.le_refl _, List.prefix_refl _, ?_⟩ rfl)
    show s.now ≤ s.now + seconds
    omega
  | change => exact does_rows (fun _ => RowStep.same _) rfl (picture_frame rfl rfl rfl rfl)
  | start upload thumb =>
    show Does p s _ (if upload.lease?.isSome then s else s.startJob _)
    split
    · exact does_nothing
    · next hlease =>
      have hnone : upload.lease? = none := by simpa using hlease
      exact does_start hserial rfl ⟨hnone, hnone, trivial⟩
  | claim locked answer => exact does_claim hserial locked answer
  | reject j cause => exact does_reject j cause
  | put j answer cause => exact does_put j answer cause
  | publish j g answer => exact does_publish hserial j g answer
  | proceed j answer => exact does_proceed j answer
  | deleteAttachment => exact does_delete
  | deleteRows ids slots answer =>
    have hgone : ∀ u : Service, u.attachments = (s.attachments.removeIf fun j _ => ids.contains j) →
        ∀ k, RowStep p s (.deleteRows ids slots answer) u k (s.attachments.get? k)
          (u.attachments.get? k) := fun u hu =>
      row_delete (fun j (h : ids.contains j = true) => h) hu
    cases answer with
    | done | lost =>
      exact does_rows (hgone _ rfl) rfl
        ⟨⟨Nat.le_refl _, List.prefix_refl _, Int.le_refl _⟩, Or.inr (Or.inr ⟨slots.contains, rfl⟩)⟩
    | failed => exact does_nothing
  | startPurge limit =>
    show Does p s _ (if 1 ≤ limit ∧ limit ≤ 1000 then s.startJob _ else s)
    split
    · exact does_start hserial rfl ⟨rfl, rfl, trivial⟩
    · exact does_nothing
  | purge j answer cancelled => exact does_purge j answer cancelled
  | startDrain limit =>
    show Does p s _ (if 1 ≤ limit ∧ limit ≤ 1000 then s.startJob _ else s)
    split
    · exact does_start hserial rfl ⟨rfl, rfl, trivial⟩
    · exact does_nothing
  | drain j locked key answer => exact does_drain j locked key answer

theorem row_step (hserial : Serial s) (a : Action) (k : Nat) :
    RowStep p s a (step p s a) k (s.attachments.get? k) ((step p s a).attachments.get? k) :=
  (does_step hserial a).rows k

theorem job_step (hserial : Serial s) (a : Action) (k : Nat) :
    JobStep p s (step p s a) k (s.jobs.get? k) ((step p s a).jobs.get? k) :=
  (does_step hserial a).jobs k

theorem picture_step (hserial : Serial s) (a : Action) : PictureStep s (step p s a) :=
  (does_step hserial a).pictures

theorem serial_step (hserial : Serial s) (a : Action) : Serial (step p s a) := by
  have ⟨⟨hnext, _, _⟩, hpictures⟩ := @picture_step p s hserial a
  constructor
  · intro j hj
    have hnone : s.jobs.get? j = none := hserial.jobs j (Nat.le_trans hnext hj)
    have hstep := @job_step p s hserial a j
    rw [hnone] at hstep
    generalize hafter : (step p s a).jobs.get? j = after at hstep ⊢
    cases hstep with
    | same => rfl
    | started job hid hsucc => omega
    | claimed id r hid hsucc => omega
  · intro id hid
    have hnone : s.attachments.get? id = none := hserial.attachments id (Nat.le_trans hnext hid)
    have hstep := @row_step p s hserial a id
    rw [hnone] at hstep
    generalize hafter : (step p s a).attachments.get? id = after at hstep ⊢
    cases hstep with
    | same => rfl
    | inserted post uploader kind expires keys hnew hsucc => omega
  · intro id hid
    have hnone : s.pictures.get? (.threadPhoto id) = none :=
      hserial.photos id (Nat.le_trans hnext hid)
    rcases hpictures with hsame | ⟨slot, r, hset, hslot⟩ | ⟨gone, hgone⟩
    · rw [hsame]
      exact hnone
    · rw [hset, KeyMap.get?_set, if_neg ?_]
      · exact hnone
      · intro heq
        have ⟨hnew, hsucc⟩ := hslot id heq.symm
        omega
    · rw [hgone, KeyMap.get?_removeIf, hnone]
      rfl

theorem serial_initial (now : Int) : Serial (Service.initial now) :=
  ⟨fun _ _ => rfl, fun _ _ => rfl, fun _ _ => rfl⟩

end SocialActivities.Media
