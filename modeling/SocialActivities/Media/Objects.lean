import SocialActivities.Media.Leases

/-!
# `SocialActivities.Media.Objects`: every stored object is accounted for (Go)

Objects are stored before the row that names them, and deleted after it. `Service.standing` reads from
the rows, the queue, the store and the jobs where a key stands, and `Accounted` says that every key
is `Sound`: one column, one job in flight or the queue answers for its object.

Every step keeps `Accounted` but one. When the commit of a publishing transaction takes effect and the
caller gets an error all the same, the deferred clean-up discards objects that a row names
(`named_object_discarded`). `objects_accounted` is for the runs without that.
-/

namespace SocialActivities.Media

open Lib

namespace Service

variable (s : Service)

/-- How often the jobs have a key among some of theirs. -/
def load (keys : Job → List Key) (k : Key) : Nat := s.jobs.total fun _ job => (keys job).count k

/-- The number of key columns of rows that name a key. -/
def named (k : Key) : Nat :=
  s.attachments.total (fun _ r => r.keys.count k) + s.pictures.total (fun _ r => r.keys.count k)

/-- Where a key stands. -/
def standing (k : Key) : Standing where
  drawn := k < s.makers.length
  carried := s.load Job.carried k
  dropped := s.load Job.dropped k
  named := s.named k
  stored := k ∈ s.objects
  queued := s.queued k = true
  doomed := ∃ j job, s.jobs.get? j = some job ∧ k ∈ job.doomed
  cleared := ∃ j job, s.jobs.get? j = some job ∧ k ∈ job.cleared
  doomed_of_cleared := by
    rintro ⟨j, job, hjob, hk⟩
    refine ⟨j, job, hjob, ?_⟩
    cases job with
    | ending =>
      have ⟨task, hmem, htask⟩ := List.mem_flatMap.mp hk
      refine List.mem_flatMap.mpr ⟨task, hmem, ?_⟩
      cases task with
      | clear => exact htask
      | _ => cases htask
    | settling => exact hk
    | _ => cases hk

end Service

/-- Every key is sound. -/
def Accounted (s : Service) : Prop := ∀ k, (s.standing k).Sound

variable {p : PolicyConfig} {s t : Service} {a : Action}

/-! ### Jobs -/

theorem load_set {j : Nat} {old new : Job} (hold : s.jobs.get? j = some old)
    (hjobs : t.jobs = s.jobs.set j new) (keys : Job → List Key) (k : Key) :
    t.load keys k + (keys old).count k = s.load keys k + (keys new).count k := by
  have htotal := KeyMap.total_set s.jobs j new fun _ job => (keys job).count k
  rw [hold] at htotal
  unfold Service.load
  rw [hjobs]
  exact htotal

theorem doomed_set {j : Nat} {new : Job} {k : Key} (hjobs : t.jobs = s.jobs.set j new)
    (h : (t.standing k).doomed) : (s.standing k).doomed ∨ k ∈ new.doomed := by
  obtain ⟨i, job, hjob, hk⟩ := h
  rw [hjobs] at hjob
  rcases KeyMap.of_get?_set hjob with ⟨-, rfl⟩ | hjob
  · exact Or.inr hk
  · exact Or.inl ⟨i, job, hjob, hk⟩

theorem cleared_set {j : Nat} {new : Job} {k : Key} (hjobs : t.jobs = s.jobs.set j new)
    (h : (t.standing k).cleared) : (s.standing k).cleared ∨ k ∈ new.cleared := by
  obtain ⟨i, job, hjob, hk⟩ := h
  rw [hjobs] at hjob
  rcases KeyMap.of_get?_set hjob with ⟨-, rfl⟩ | hjob
  · exact Or.inr hk
  · exact Or.inl ⟨i, job, hjob, hk⟩

/-- All but the jobs is as before, up to the times of the queue. -/
structure SameRows (s t : Service) : Prop where
  makers : t.makers = s.makers
  objects : t.objects = s.objects
  queued : ∀ k, t.queued k = s.queued k
  named : ∀ k, t.named k = s.named k

theorem SameRows.drawn (h : SameRows s t) {k : Key} (hk : (s.standing k).drawn) :
    (t.standing k).drawn := by
  show k < t.makers.length
  rw [h.makers]
  exact hk

/-- A job goes on without taking, naming or deleting: what it carries it may drop. -/
theorem accounted_job (h : Accounted s) (hrows : SameRows s t) {j : Nat} {old new : Job}
    (hold : s.jobs.get? j = some old) (hjobs : t.jobs = s.jobs.set j new)
    (hplaces : ∀ k, new.carried.count k + new.dropped.count k =
      old.carried.count k + old.dropped.count k)
    (hcarried : ∀ k, new.carried.count k ≤ old.carried.count k)
    (hdoomed : ∀ k ∈ new.doomed, k ∈ old.doomed)
    (hcleared : ∀ k ∈ new.cleared, k ∈ old.cleared) : Accounted t := by
  intro k
  have hcar : (t.standing k).carried + old.carried.count k =
      (s.standing k).carried + new.carried.count k := load_set hold hjobs Job.carried k
  have hdrop : (t.standing k).dropped + old.dropped.count k =
      (s.standing k).dropped + new.dropped.count k := load_set hold hjobs Job.dropped k
  have hname : (t.standing k).named = (s.standing k).named := hrows.named k
  have hp := hplaces k
  have hc := hcarried k
  refine (h k).pass hrows.drawn ?_ ?_ ?_ ?_ ?_ ?_
  · unfold Standing.places
    omega
  · omega
  · show k ∈ t.objects ↔ k ∈ s.objects
    rw [hrows.objects]
  · show t.queued k = true ↔ s.queued k = true
    rw [hrows.queued]
  · intro hd
    rcases doomed_set hjobs hd with hd | hd
    · exact hd
    · exact ⟨j, old, hold, hdoomed k hd⟩
  · intro hd
    rcases cleared_set hjobs hd with hd | hd
    · exact hd
    · exact ⟨j, old, hold, hcleared k hd⟩

/-- A job has no keys. -/
def Job.empty (job : Job) : Prop :=
  job.carried = [] ∧ job.dropped = [] ∧ job.doomed = [] ∧ job.cleared = []

theorem accounted_start (h : Accounted s) (hrows : SameRows s t) {j : Nat} {new : Job}
    (hnone : s.jobs.get? j = none) (hjobs : t.jobs = s.jobs.set j new) (hempty : new.empty) :
    Accounted t := by
  intro k
  have hload : ∀ keys : Job → List Key, keys new = [] → t.load keys k = s.load keys k := by
    intro keys hkeys
    have htotal := KeyMap.total_set s.jobs j new fun _ job => (keys job).count k
    rw [hnone, hkeys] at htotal
    unfold Service.load
    rw [hjobs]
    exact htotal
  have hcar : (t.standing k).carried = (s.standing k).carried := hload _ hempty.1
  have hdrop : (t.standing k).dropped = (s.standing k).dropped := hload _ hempty.2.1
  have hname : (t.standing k).named = (s.standing k).named := hrows.named k
  refine (h k).pass hrows.drawn ?_ ?_ ?_ ?_ ?_ ?_
  · unfold Standing.places
    omega
  · omega
  · show k ∈ t.objects ↔ k ∈ s.objects
    rw [hrows.objects]
  · show t.queued k = true ↔ s.queued k = true
    rw [hrows.queued]
  · intro hd
    rcases doomed_set hjobs hd with hd | hd
    · exact hd
    · rw [hempty.2.2.1] at hd
      cases hd
  · intro hd
    rcases cleared_set hjobs hd with hd | hd
    · exact hd
    · rw [hempty.2.2.2] at hd
      cases hd

/-! ### Rows -/

theorem accounted_release (h : Accounted s) (given : Key → Nat) (hmakers : t.makers = s.makers)
    (hobjects : t.objects = s.objects) (hjobs : t.jobs = s.jobs)
    (hnamed : ∀ k, t.named k + given k = s.named k)
    (hqueued : ∀ k, t.queued k = true ↔ s.queued k = true ∨ 0 < given k) : Accounted t := by
  intro k
  refine @Standing.Sound.exchange _ _ (h k) 0 (given k) ?_ ?_ ?_ (hnamed k) ?_ (hqueued k) ?_ ?_
  · intro hk
    show k < t.makers.length
    rw [hmakers]
    exact hk
  · show t.load Job.carried k + 0 = s.load Job.carried k
    unfold Service.load
    rw [hjobs, Nat.add_zero]
  · show t.load Job.dropped k = s.load Job.dropped k
    unfold Service.load
    rw [hjobs]
  · show k ∈ t.objects ↔ k ∈ s.objects
    rw [hobjects]
  · rintro ⟨j, job, hjob, hd⟩
    exact ⟨j, job, hjobs ▸ hjob, hd⟩
  · rintro ⟨j, job, hjob, hd⟩
    exact ⟨j, job, hjobs ▸ hjob, hd⟩

theorem named_setAttachment {id : Nat} {r r' : Attachment} (hget : s.attachments.get? id = some r)
    (hattachments : t.attachments = s.attachments.set id r') (hpictures : t.pictures = s.pictures)
    (k : Key) : t.named k + r.keys.count k = s.named k + r'.keys.count k := by
  have htotal := KeyMap.total_set s.attachments id r' fun _ r => r.keys.count k
  rw [hget] at htotal
  have helim : (some r).elim 0 (fun r : Attachment => r.keys.count k) = r.keys.count k := rfl
  unfold Service.named
  rw [hattachments, hpictures]
  have hsum : (s.attachments.set id r').total (fun _ r => r.keys.count k) + r.keys.count k =
      s.attachments.total (fun _ r => r.keys.count k) + r'.keys.count k := htotal
  omega

theorem accounted_sameKeys (h : Accounted s) {id : Nat} {r r' : Attachment}
    (hget : s.attachments.get? id = some r) (hkeys : r'.keys = r.keys) :
    Accounted (s.setAttachment id r') := by
  refine accounted_release h (fun _ => 0) rfl rfl rfl (fun k => ?_) fun k => ?_
  · have hnamed := named_setAttachment (t := s.setAttachment id r') hget rfl rfl k
    rw [hkeys] at hnamed
    omega
  · show s.queued k = true ↔ s.queued k = true ∨ 0 < 0
    simp

theorem accounted_cleared (h : Accounted s) {id : Nat} {r r' : Attachment}
    (hget : s.attachments.get? id = some r) (hkeys : r'.keys = []) :
    Accounted ((s.queueDelete r.keys).setAttachment id r') := by
  refine accounted_release h (fun k => r.keys.count k) rfl rfl rfl (fun k => ?_) fun k => ?_
  · have hnamed := named_setAttachment (t := (s.queueDelete r.keys).setAttachment id r') hget rfl rfl k
    rw [hkeys] at hnamed
    exact hnamed
  · show (s.queueDelete r.keys).queued k = true ↔ _
    rw [Service.queued_queueDelete, Bool.or_eq_true, List.contains_iff_mem, List.count_pos_iff]

theorem count_keysOf {κ ρ : Type} (keys : ρ → List Key) (entries : List (κ × ρ)) (k : Key) :
    (keysOf keys entries).count k = KeyMap.weigh (fun _ r => (keys r).count k) entries := by
  unfold keysOf KeyMap.weigh
  rw [List.count_flatMap]
  rfl

theorem accounted_deleteAttachments (h : Accounted s) (gone : Nat → Bool) :
    Accounted (s.deleteAttachments gone) := by
  refine accounted_release h (fun k => (keysOf Attachment.keys
    (s.attachments.entries.filter fun e => gone e.1)).count k) rfl rfl rfl (fun k => ?_) fun k => ?_
  · have htotal := KeyMap.total_removeIf s.attachments (fun id _ => gone id) fun _ r => r.keys.count k
    rw [count_keysOf]
    show (s.attachments.removeIf _).total _ + s.pictures.total _ + _ = s.attachments.total _ + _
    omega
  · show (s.queueDelete _).queued k = true ↔ _
    rw [Service.queued_queueDelete, Bool.or_eq_true, List.contains_iff_mem, List.count_pos_iff]

theorem accounted_deletePictures (h : Accounted s) (gone : Slot → Bool) :
    Accounted (s.deletePictures gone) := by
  refine accounted_release h (fun k => (keysOf Picture.keys
    (s.pictures.entries.filter fun e => gone e.1)).count k) rfl rfl rfl (fun k => ?_) fun k => ?_
  · have htotal := KeyMap.total_removeIf s.pictures (fun slot _ => gone slot) fun _ r => r.keys.count k
    rw [count_keysOf]
    show s.attachments.total _ + (s.pictures.removeIf _).total _ + _ = s.attachments.total _ + _
    omega
  · show (s.queueDelete _).queued k = true ↔ _
    rw [Service.queued_queueDelete, Bool.or_eq_true, List.contains_iff_mem, List.count_pos_iff]

/-! ### Publication -/

/-- A transaction names what the job carries, and queues the names that rows give up. -/
theorem accounted_publish (h : Accounted s) {j : Nat} {upload : Upload} {thumb : Bool}
    {keys : List Key} {lease : Option Lease} (given : List Key)
    (hold : s.jobs.get? j = some (.storing upload thumb keys))
    (hjobs : t.jobs = s.jobs.set j (.ending lease [])) (hmakers : t.makers = s.makers)
    (hobjects : t.objects = s.objects)
    (hnamed : ∀ k, t.named k + given.count k = s.named k + keys.count k)
    (hqueued : ∀ k, t.queued k = (s.queued k || given.contains k)) : Accounted t := by
  intro k
  have hcar : t.load Job.carried k + keys.count k = s.load Job.carried k + 0 :=
    load_set hold hjobs Job.carried k
  have hdrop : t.load Job.dropped k + 0 = s.load Job.dropped k + 0 :=
    load_set hold hjobs Job.dropped k
  refine @Standing.Sound.exchange _ _ (h k) (keys.count k) (given.count k) ?_ hcar hdrop (hnamed k)
    ?_ ?_ ?_ ?_
  · intro hk
    show k < t.makers.length
    rw [hmakers]
    exact hk
  · show k ∈ t.objects ↔ k ∈ s.objects
    rw [hobjects]
  · show t.queued k = true ↔ _
    rw [hqueued, Bool.or_eq_true, List.contains_iff_mem, List.count_pos_iff]
    rfl
  · intro hd
    rcases doomed_set hjobs hd with hd | hd
    · exact hd
    · cases hd
  · intro hd
    rcases cleared_set hjobs hd with hd | hd
    · exact hd
    · cases hd

theorem picture_keys {keys : List Key} (htwo : keys.length ≤ 2) :
    Picture.keys ⟨keys[0]?, keys[1]?⟩ = keys := by
  match keys, htwo with
  | [], _ => rfl
  | [k], _ => rfl
  | [k, k'], _ => rfl

theorem newAttachment_keys (s : Service) (post uploader : Nat) {kind : Kind} (expires : Option Int)
    {keys : List Key} (htwo : keys.length ≤ 2) (hone : kind ≠ .image → keys.length = 1) :
    (s.newAttachment post uploader kind expires keys).keys = keys := by
  unfold Service.newAttachment Attachment.keys
  by_cases hvideo : kind = .video
  · have hlength := hone (by rw [hvideo]; simp)
    match keys, hlength with
    | [k], _ => simp [hvideo]
  · match keys, htwo with
    | [], _ => simp [hvideo]
    | [k], _ => simp [hvideo]
    | [k, k'], _ => simp [hvideo]

theorem readyRow_keys {r : Attachment} {keys : List Key} (htwo : keys.length = 2)
    (hthumb : r.thumbKey = none) : (readyRow keys r).keys = keys := by
  match keys, htwo with
  | [k, k'], _ => simp [readyRow, Attachment.keys, hthumb]

/-- The publishing transaction of a job. -/
theorem publish_names (hleased : Leased p s) {g : Gate} {upload : Upload} {thumb : Bool}
    {keys : List Key} (hkeys : keys.length = upload.artifacts thumb)
    (h : s.publish p g keys upload = .ok t) :
    ∃ given : List Key, (∀ k, t.named k + given.count k = s.named k + keys.count k) ∧
      (∀ k, t.queued k = (s.queued k || given.contains k)) ∧ t.jobs = s.jobs ∧
      t.makers = s.makers ∧ t.objects = s.objects := by
  rcases publish_cases hkeys h with ⟨slot, next, rfl, _, _, htwo⟩ |
    ⟨post, uploader, kind, expires, rfl, hone, htwo, _⟩ | ⟨lease, rfl, hfinish⟩
  · -- The row of the slot is replaced.
    refine ⟨(s.pictures.get? slot).elim [] Picture.keys, fun k => ?_, fun k => ?_, rfl, rfl, rfl⟩
    · have htotal := KeyMap.total_set s.pictures slot ⟨keys[0]?, keys[1]?⟩ fun _ r => r.keys.count k
      rw [picture_keys htwo] at htotal
      have hold : ((s.pictures.get? slot).elim [] Picture.keys).count k =
          (s.pictures.get? slot).elim 0 fun r => r.keys.count k := by
        cases s.pictures.get? slot <;> rfl
      rw [hold]
      show s.attachments.total _ + (s.pictures.set slot _).total _ + _ =
        s.attachments.total _ + s.pictures.total _ + _
      omega
    · exact Service.queued_queueDelete _ _ k
  · -- A new row.
    refine ⟨[], fun k => ?_, fun k => ?_, rfl, rfl, rfl⟩
    · have htotal := KeyMap.total_set s.attachments s.nextId
        (s.newAttachment post uploader kind expires keys) fun _ r => r.keys.count k
      rw [hleased.serial.attachments _ (Nat.le_refl _),
        newAttachment_keys s post uploader expires htwo hone] at htotal
      have hsum : (s.attachments.set s.nextId (s.newAttachment post uploader kind expires keys)).total
          (fun _ r => r.keys.count k) = s.attachments.total (fun _ r => r.keys.count k) +
            keys.count k := htotal
      show (s.attachments.set s.nextId _).total _ + s.pictures.total _ + 0 =
        s.attachments.total _ + s.pictures.total _ + _
      omega
    · show s.queued k = (s.queued k || false)
      rw [Bool.or_false]
  · -- The row of the claim had its source only.
    have ⟨r, hget, hholds, hsource, hpurged, ht⟩ := finishVideo_eq_ok hfinish
    have hprocessing := ((holds_iff hget).mp hholds).1
    have ⟨_, hstorage, hthumb, hposter⟩ :=
      (hleased.shaped _ r hget).source (Or.inr (Or.inl hprocessing)) hpurged
    have hrow : r.keys = lease.att.sourceKey.toList := by
      unfold Attachment.keys
      rw [hstorage, hthumb, hposter, hsource]
      rfl
    subst ht
    refine ⟨r.keys, fun k => ?_, fun k => ?_, rfl, rfl, rfl⟩
    · have hnamed := named_setAttachment (t := (s.setAttachment lease.id (readyRow keys r)).queueDelete
        lease.att.sourceKey.toList) hget rfl rfl k
      rw [readyRow_keys hkeys hthumb] at hnamed
      exact hnamed
    · rw [hrow]
      exact Service.queued_queueDelete (s.setAttachment lease.id (readyRow keys r)) _ k

/-! ### Draws and discards -/

theorem dropped_cleanup (cause : Cause) (keys : List Key) (upload : Upload) (lease : Option Lease) :
    (Job.ending lease (upload.cleanup cause keys)).dropped = keys ∧
      (Job.ending lease (upload.cleanup cause keys)).doomed = [] ∧
      (Job.ending lease (upload.cleanup cause keys)).cleared = [] := by
  cases upload <;> simp [Upload.cleanup, Job.dropped, Job.doomed, Job.cleared, Task.dropped,
    Task.doomed, Task.cleared]

theorem dropped_giveUp (cause : Cause) (keys : List Key) (key : Key) (upload : Upload)
    (lease : Option Lease) :
    (Job.ending lease (upload.giveUp cause keys key)).dropped = key :: keys ∧
      (Job.ending lease (upload.giveUp cause keys key)).doomed = [] ∧
      (Job.ending lease (upload.giveUp cause keys key)).cleared = [] := by
  have hmap : (keys.map fun k => Task.discard [k]).flatMap Task.dropped = keys := by
    rw [List.flatMap_map]
    exact List.flatMap_singleton' keys
  have hnone : (keys.map fun k => Task.discard [k]).flatMap Task.doomed = [] ∧
      (keys.map fun k => Task.discard [k]).flatMap Task.cleared = [] := by
    constructor <;> rw [List.flatMap_map] <;> simp [Task.doomed, Task.cleared]
  unfold Upload.giveUp Job.dropped Job.doomed Job.cleared
  simp only [List.flatMap_append, List.flatMap_cons, hmap, hnone.1, hnone.2]
  split <;> simp [Task.dropped, Task.doomed, Task.cleared]

theorem accounted_cleanup (h : Accounted s) (hrows : SameRows s t) {j : Nat} {upload : Upload}
    {thumb : Bool} {keys : List Key} (hold : s.jobs.get? j = some (.storing upload thumb keys))
    (cause : Cause) (hjobs : t.jobs = s.jobs.set j (.ending upload.lease? (upload.cleanup cause keys))) :
    Accounted t := by
  have ⟨hdropped, hdoomed, hcleared⟩ := dropped_cleanup cause keys upload upload.lease?
  refine accounted_job h hrows hold hjobs (fun k => ?_) (fun k => Nat.zero_le _) ?_ ?_
  · rw [hdropped]
    show 0 + keys.count k = keys.count k + 0
    omega
  · rw [hdoomed]
    exact fun k hk => (by cases hk)
  · rw [hcleared]
    exact fun k hk => (by cases hk)

/-- A job draws a key, for an object that may be stored. -/
theorem accounted_draw (h : Accounted s) {j : Nat} {upload : Upload} {thumb stored : Bool}
    {keys : List Key} {new : Job} (hold : s.jobs.get? j = some (.storing upload thumb keys))
    (hjobs : t.jobs = s.jobs.set j new) (hmakers : t.makers = s.makers ++ [j])
    (hobjects : t.objects = if stored then s.objects ++ [s.makers.length] else s.objects)
    (hqueued : ∀ k, t.queued k = s.queued k) (hnamed : ∀ k, t.named k = s.named k)
    (hplaces : ∀ k, new.carried.count k + new.dropped.count k =
      keys.count k + [s.makers.length].count k)
    (hcarried : stored = false → new.carried = []) (hdoomed : new.doomed = [])
    (hcleared : new.cleared = []) : Accounted t := by
  intro k
  have hcar : (t.standing k).carried + keys.count k =
      (s.standing k).carried + new.carried.count k := load_set hold hjobs Job.carried k
  have hdrop : (t.standing k).dropped + 0 = (s.standing k).dropped + new.dropped.count k :=
    load_set hold hjobs Job.dropped k
  have hname : (t.standing k).named = (s.standing k).named := hnamed k
  have hp := hplaces k
  have hqueue : (t.standing k).queued ↔ (s.standing k).queued := by
    show t.queued k = true ↔ s.queued k = true
    rw [hqueued]
  have hdoom : (t.standing k).doomed → (s.standing k).doomed := by
    intro hd
    refine (doomed_set hjobs hd).resolve_right ?_
    rw [hdoomed]
    exact List.not_mem_nil
  by_cases hk : k = s.makers.length
  · -- The key that is drawn.
    have hcount : [s.makers.length].count k = 1 := by
      rw [hk]
      simp
    have hfresh : ¬(s.standing k).drawn := by
      rw [hk]
      exact Nat.lt_irrefl _
    refine (h k).draw hfresh ?_ ?_ hname ?_ hqueue.mp hdoom
    · show k < t.makers.length
      rw [hmakers, hk]
      simp
    · unfold Standing.places
      omega
    · intro hpos
      have hcarries : 0 < (t.standing k).carried := hpos
      show k ∈ t.objects
      have hnone := ((h k).fresh hfresh).1
      unfold Standing.places at hnone
      cases stored with
      | false =>
        rw [hcarried rfl, List.count_nil] at hcar
        omega
      | true =>
        rw [hobjects, if_pos rfl, hk]
        exact List.mem_append_right _ List.mem_cons_self
  · have hcount : [s.makers.length].count k = 0 := by
      rw [List.count_eq_zero]
      simpa using hk
    refine (h k).pass ?_ ?_ ?_ ?_ hqueue hdoom ?_
    · intro hd
      have hlt : k < s.makers.length := hd
      show k < t.makers.length
      rw [hmakers, List.length_append, List.length_singleton]
      exact Nat.lt_succ_of_lt hlt
    · unfold Standing.places
      omega
    · omega
    · show k ∈ t.objects ↔ k ∈ s.objects
      rw [hobjects]
      split
      · simp [hk]
      · rfl
    · intro hd
      refine (cleared_set hjobs hd).resolve_right ?_
      rw [hcleared]
      exact List.not_mem_nil

theorem accounted_put (h : Accounted s) (j : Nat) (answer : Answer) (cause : Cause) :
    Accounted (s.putStep j answer cause) := by
  unfold Service.putStep
  split
  · next upload thumb keys hold =>
    split
    · have ⟨hdropped, hdoomed, hcleared⟩ :=
        dropped_giveUp cause keys s.makers.length upload upload.lease?
      cases answer with
      | done =>
        refine @accounted_draw s _ h j upload thumb true keys _ hold rfl rfl rfl (fun _ => rfl) (fun _ => rfl)
          (fun k => ?_) (fun hs => (by cases hs)) rfl rfl
        show (keys ++ [s.makers.length]).count k + 0 = _
        rw [List.count_append, Nat.add_zero]
      | lost =>
        refine @accounted_draw s _ h j upload thumb true keys _ hold rfl rfl rfl (fun _ => rfl) (fun _ => rfl)
          (fun k => ?_) (fun hs => (by cases hs)) hdoomed hcleared
        show 0 + (Job.ending _ _).dropped.count k = _
        rw [hdropped, ← List.singleton_append, List.count_append]
        omega
      | failed =>
        refine @accounted_draw s _ h j upload thumb false keys _ hold rfl rfl rfl (fun _ => rfl) (fun _ => rfl)
          (fun k => ?_) (fun _ => rfl) hdoomed hcleared
        show 0 + (Job.ending _ _).dropped.count k = _
        rw [hdropped, ← List.singleton_append, List.count_append]
        omega
    · exact h
  · exact h

/-! ### Tasks -/

theorem ending_cons (keys : Task → List Key) (task : Task) (tasks : List Task) (k : Key) :
    ((task :: tasks).flatMap keys).count k = (keys task).count k + (tasks.flatMap keys).count k := by
  rw [List.flatMap_cons, List.count_append]

theorem accounted_ending (h : Accounted s) (hrows : SameRows s t) {j : Nat} {lease : Option Lease}
    {task : Task} {tasks : List Task} (hold : s.jobs.get? j = some (.ending lease (task :: tasks)))
    (hjobs : t.jobs = s.jobs.set j (.ending lease tasks)) (hdropped : task.dropped = []) :
    Accounted t := by
  refine accounted_job h hrows hold hjobs (fun k => ?_) (fun k => Nat.zero_le _) ?_ ?_
  · show 0 + (tasks.flatMap Task.dropped).count k = 0 + ((task :: tasks).flatMap Task.dropped).count k
    rw [ending_cons, hdropped, List.count_nil]
    omega
  · intro k hk
    exact List.mem_append_right _ hk
  · intro k hk
    exact List.mem_append_right _ hk

theorem accounted_discard (h : Accounted s) {j : Nat} {lease : Option Lease} {keys : List Key}
    {tasks : List Task} (hold : s.jobs.get? j = some (.ending lease (.discard keys :: tasks))) :
    Accounted ((s.queueDelete keys).setJob j (.ending lease (keys.map .erase ++ tasks))) := by
  intro k
  have hmap : ∀ f : Task → List Key, (∀ key, f (.erase key) = []) →
      (keys.map Task.erase ++ tasks).flatMap f = tasks.flatMap f := by
    intro f hf
    rw [List.flatMap_append, List.flatMap_map, List.flatMap_eq_nil_iff.mpr fun key _ => hf key]
    rfl
  have hcar := load_set (t := (s.queueDelete keys).setJob j
    (.ending lease (keys.map .erase ++ tasks))) hold rfl Job.carried k
  have hdrop := load_set (t := (s.queueDelete keys).setJob j
    (.ending lease (keys.map .erase ++ tasks))) hold rfl Job.dropped k
  refine @Standing.Sound.discard _ _ (h k) (keys.count k) (fun hk => hk) hcar ?_ rfl Iff.rfl ?_ ?_ ?_
  · have hleft : (Job.ending lease (.discard keys :: tasks)).dropped.count k =
        keys.count k + (tasks.flatMap Task.dropped).count k := ending_cons Task.dropped _ tasks k
    have hright : (Job.ending lease (keys.map .erase ++ tasks)).dropped = tasks.flatMap Task.dropped :=
      hmap _ fun _ => rfl
    rw [hleft, hright] at hdrop
    show Service.load _ Job.dropped k + _ = Service.load s Job.dropped k
    omega
  · show (s.queueDelete keys).queued k = true ↔ _
    rw [Service.queued_queueDelete, Bool.or_eq_true, List.contains_iff_mem, List.count_pos_iff]
    rfl
  · intro hd
    rcases @doomed_set s _ j _ k rfl hd with hd | hd
    · exact Or.inl hd
    · have hd' : k ∈ (keys.map Task.erase ++ tasks).flatMap Task.doomed := hd
      rw [List.flatMap_append, List.mem_append] at hd'
      rcases hd' with hnew | hold'
      · refine Or.inr (List.count_pos_iff.mpr ?_)
        have ⟨task, hmem, hk⟩ := List.mem_flatMap.mp hnew
        have ⟨key, hkey, htask⟩ := List.mem_map.mp hmem
        subst htask
        rw [List.mem_singleton.mp hk]
        exact hkey
      · exact Or.inl ⟨j, _, hold, hold'⟩
  · intro hd
    refine (@cleared_set s _ j _ k rfl hd).elim id fun hk => ⟨j, _, hold, ?_⟩
    have hk' : k ∈ (keys.map Task.erase ++ tasks).flatMap Task.cleared := hk
    rw [hmap _ fun _ => rfl] at hk'
    exact hk'

/-- A job goes on with a key that it deletes. -/
theorem accounted_handle (h : Accounted s) (key : Key) {j : Nat} {old new : Job}
    (hold : s.jobs.get? j = some old) (hjobs : t.jobs = s.jobs.set j new)
    (hmakers : t.makers = s.makers) (hnamed : ∀ k, t.named k = s.named k)
    (hplaces : new.carried = old.carried ∧ new.dropped = old.dropped)
    (hother : ∀ k, k ≠ key → (k ∈ t.objects ↔ k ∈ s.objects) ∧ t.queued k = s.queued k)
    (hdoomed : ∀ k ∈ new.doomed, k ∈ old.doomed ∨ k = key)
    (hcleared : ∀ k ∈ new.cleared, k ∈ old.cleared ∨ k = key)
    (hkey : (t.standing key).places = (s.standing key).places → (t.standing key).Sound) :
    Accounted t := by
  intro k
  have hcar : (t.standing k).carried + old.carried.count k =
      (s.standing k).carried + new.carried.count k := load_set hold hjobs Job.carried k
  have hdrop : (t.standing k).dropped + old.dropped.count k =
      (s.standing k).dropped + new.dropped.count k := load_set hold hjobs Job.dropped k
  have hname : (t.standing k).named = (s.standing k).named := hnamed k
  rw [hplaces.1] at hcar
  rw [hplaces.2] at hdrop
  have hsame : (t.standing k).places = (s.standing k).places := by
    unfold Standing.places
    omega
  by_cases hk : k = key
  · subst hk
    exact hkey hsame
  · refine (h k).pass ?_ hsame (by omega) (hother k hk).1 ?_ ?_ ?_
    · intro hd
      show k < t.makers.length
      rw [hmakers]
      exact hd
    · show t.queued k = true ↔ s.queued k = true
      rw [(hother k hk).2]
    · intro hd
      rcases doomed_set hjobs hd with hd | hd
      · exact hd
      · exact ⟨j, old, hold, (hdoomed k hd).resolve_right hk⟩
    · intro hd
      rcases cleared_set hjobs hd with hd | hd
      · exact hd
      · exact ⟨j, old, hold, (hcleared k hd).resolve_right hk⟩

/-- The store deletes an object. -/
theorem accounted_erase (h : Accounted s) {key : Key} {j : Nat} {old new : Job}
    (hold : s.jobs.get? j = some old) (hkey : key ∈ old.doomed)
    (hplaces : new.carried = old.carried ∧ new.dropped = old.dropped)
    (hdoomed : ∀ k ∈ new.doomed, k ∈ old.doomed)
    (hcleared : ∀ k ∈ new.cleared, k ∈ old.cleared ∨ k = key) :
    Accounted ((s.eraseObject key).setJob j new) := by
  refine @accounted_handle s ((s.eraseObject key).setJob j new) h key j old new hold rfl rfl
    (fun _ => rfl) hplaces ?_ (fun k hk => Or.inl (hdoomed k hk)) hcleared ?_
  · intro k hk
    have hmem : k ∈ (s.eraseObject key).objects ↔ k ∈ s.objects ∧ k ≠ key :=
      Service.mem_objects_eraseObject s key k
    exact ⟨hmem.trans (and_iff_left hk), rfl⟩
  · intro hsame
    refine (h key).erase ⟨j, old, hold, hkey⟩ (fun hk => hk) hsame ?_
    intro hstored
    exact ((Service.mem_objects_eraseObject s key key).mp hstored).2 rfl

/-- A job removes the queue entry of an object that is gone. -/
theorem accounted_clear (h : Accounted s) {key : Key} {j : Nat} {old new : Job}
    (hold : s.jobs.get? j = some old) (hkey : key ∈ old.cleared)
    (hplaces : new.carried = old.carried ∧ new.dropped = old.dropped)
    (hdoomed : ∀ k ∈ new.doomed, k ∈ old.doomed) (hcleared : ∀ k ∈ new.cleared, k ∈ old.cleared) :
    Accounted ((s.unqueue key).setJob j new) := by
  refine @accounted_handle s ((s.unqueue key).setJob j new) h key j old new hold rfl rfl
    (fun _ => rfl) hplaces ?_ (fun k hk => Or.inl (hdoomed k hk))
    (fun k hk => Or.inl (hcleared k hk)) ?_
  · intro k hk
    have hqueued : (s.unqueue key).queued k = (s.queued k && !(k == key)) :=
      Service.queued_unqueue s key k
    have hne : (k == key) = false := by simpa using hk
    rw [hne, Bool.not_false, Bool.and_true] at hqueued
    exact ⟨Iff.rfl, hqueued⟩
  · intro hsame
    exact (h key).clear ⟨j, old, hold, hkey⟩ (fun hk => hk) hsame Iff.rfl

theorem queued_updateBlob (s : Service) (key : Key) (f : BlobDeletion → BlobDeletion) (k : Key) :
    (s.updateBlob key f).queued k = s.queued k := by
  show ((s.blobDeletions.mapRows _).get? k).isSome = (s.blobDeletions.get? k).isSome
  rw [KeyMap.get?_mapRows, Option.isSome_map]

theorem sameRows_updateBlob (s : Service) (key : Key) (f : BlobDeletion → BlobDeletion) (j : Nat)
    (job : Job) : SameRows s ((s.updateBlob key f).setJob j job) :=
  ⟨rfl, rfl, queued_updateBlob s key f, fun _ => rfl⟩

theorem sameRows_setJob (s : Service) (j : Nat) (job : Job) : SameRows s (s.setJob j job) :=
  ⟨rfl, rfl, fun _ => rfl, fun _ => rfl⟩

/-! ### Steps -/

theorem accounted_failClaim (h : Accounted s) (lease : Lease) (cause : Cause) :
    Accounted ((s.failClaim p lease cause).getD s) := by
  cases hfail : s.failClaim p lease cause with
  | none => exact h
  | some t =>
    show Accounted t
    rcases failClaim_cases hfail with ⟨ht, _⟩ | ⟨r, hget, _, ⟨ht, _⟩ | ⟨ht, hkeys⟩ | ⟨ht, _⟩⟩
    · rw [ht]
      exact h
    · rw [ht]
      exact accounted_cleared h hget rfl
    · rw [ht]
      exact accounted_sameKeys h hget hkeys
    · rw [ht]
      exact h

theorem accounted_recordFailure (h : Accounted s) (lease : Option Lease) (cause : Cause)
    (answer : Answer) : Accounted (s.recordFailure p lease cause answer) := by
  cases lease with
  | none => exact h
  | some lease =>
    show Accounted (if answer.applied then _ else s)
    split
    · exact accounted_failClaim h lease cause
    · exact h

theorem accounted_idle (h : Accounted s) (hrows : SameRows s t) {j : Nat} {old new : Job}
    (hold : s.jobs.get? j = some old) (hjobs : t.jobs = s.jobs.set j new) (hempty : new.empty)
    (hnone : old.carried = [] ∧ old.dropped = []) : Accounted t := by
  have ⟨hcarried, hdropped, hdoomed, hcleared⟩ := hempty
  refine accounted_job h hrows hold hjobs (fun k => ?_) (fun k => ?_) ?_ ?_
  · rw [hcarried, hdropped, hnone.1, hnone.2]
  · rw [hcarried]
    exact Nat.zero_le _
  · rw [hdoomed]
    exact fun k hk => absurd hk List.not_mem_nil
  · rw [hcleared]
    exact fun k hk => absurd hk List.not_mem_nil

theorem accounted_runTask (h : Accounted s) {j : Nat} {lease : Option Lease} {task : Task}
    {tasks : List Task} (hold : s.jobs.get? j = some (.ending lease (task :: tasks)))
    (answer : Answer) : Accounted (s.runTask p j lease task tasks answer) := by
  cases task with
  | discard => exact accounted_discard h hold
  | erase key =>
    have hmem : key ∈ (Job.ending lease (.erase key :: tasks)).doomed := List.mem_cons_self
    have hrest : ∀ k ∈ tasks.flatMap Task.doomed, k ∈ (Job.ending lease (.erase key :: tasks)).doomed :=
      fun k hk => List.mem_append_right [key] hk
    cases answer with
    | done =>
      refine accounted_erase h hold hmem ⟨rfl, rfl⟩ (fun k hk => hk) fun k hk => ?_
      exact (List.mem_cons.mp hk).symm
    | lost => exact accounted_erase h hold hmem ⟨rfl, rfl⟩ hrest fun k hk => Or.inl hk
    | failed => exact accounted_ending h (sameRows_setJob s _ _) hold rfl rfl
  | clear key =>
    have hmem : key ∈ (Job.ending lease (.clear key :: tasks)).cleared := List.mem_cons_self
    have happlied : Accounted ((s.unqueue key).setJob j (.ending lease tasks)) := by
      refine accounted_clear h hold hmem ⟨rfl, rfl⟩ (fun k hk => ?_) fun k hk => ?_
      · exact List.mem_append_right [key] hk
      · exact List.mem_append_right [key] hk
    cases answer with
    | done | lost => exact happlied
    | failed => exact accounted_ending h (sameRows_setJob s _ _) hold rfl rfl
  | failClaim cause =>
    have hold' : (s.recordFailure p lease cause answer).jobs.get? j =
        some (.ending lease (.failClaim cause :: tasks)) := by
      rw [jobs_recordFailure]
      exact hold
    exact accounted_ending (accounted_recordFailure h lease cause answer) (sameRows_setJob _ _ _)
      hold' rfl rfl

theorem accounted_proceed (h : Accounted s) (j : Nat) (answer : Answer) :
    Accounted (s.proceedStep p j answer) := by
  unfold Service.proceedStep
  split
  · next lease task tasks hold => exact accounted_runTask h hold answer
  · next key attempts left hold =>
    have hmem : key ∈ (Job.deleting key attempts left).doomed := List.mem_cons_self
    cases answer with
    | done =>
      refine accounted_erase h hold hmem ⟨rfl, rfl⟩ (fun k hk => hk) fun k hk => ?_
      exact Or.inr (List.mem_singleton.mp hk)
    | lost =>
      refine accounted_erase h hold hmem ⟨rfl, rfl⟩ (fun k hk => ?_) fun k hk => ?_
      · cases hk
      · cases hk
    | failed =>
      exact accounted_idle h (sameRows_setJob s _ _) hold rfl ⟨rfl, rfl, rfl, rfl⟩ ⟨rfl, rfl⟩
  · next key left hold =>
    have hmem : key ∈ (Job.settling key left).cleared := List.mem_cons_self
    have happlied : ∀ new : Job, new.empty → Accounted ((s.unqueue key).setJob j new) := by
      intro new ⟨hcarried, hdropped, hdoomed, hcleared⟩
      refine accounted_clear h hold hmem ⟨hcarried, hdropped⟩ ?_ ?_
      · rw [hdoomed]
        exact fun k hk => absurd hk List.not_mem_nil
      · rw [hcleared]
        exact fun k hk => absurd hk List.not_mem_nil
    cases answer with
    | done | lost => exact happlied _ ⟨rfl, rfl, rfl, rfl⟩
    | failed =>
      exact accounted_idle h (sameRows_setJob s _ _) hold rfl ⟨rfl, rfl, rfl, rfl⟩ ⟨rfl, rfl⟩
  · next key attempts left hold =>
    cases answer with
    | failed =>
      exact accounted_idle h (sameRows_setJob s _ _) hold rfl ⟨rfl, rfl, rfl, rfl⟩ ⟨rfl, rfl⟩
    | _ =>
      exact accounted_idle h (sameRows_updateBlob s key _ j _) hold rfl ⟨rfl, rfl, rfl, rfl⟩ ⟨rfl, rfl⟩
  · exact h

theorem accounted_claim (hleased : Leased p s) (h : Accounted s) (locked : List Nat)
    (answer : Answer) : Accounted (s.claimStep p locked answer) := by
  unfold Service.claimStep
  cases hclaim : s.claim p locked with
  | none => exact h
  | some claimed =>
    have ⟨t, lease⟩ := claimed
    have ⟨id, r, _, hget, _, hcases⟩ := claim_cases hclaim
    have ht : Accounted t := by
      rcases hcases with ⟨_, ht, _⟩ | ⟨_, _, ht, _⟩
      · rw [ht]
        exact accounted_sameKeys h hget rfl
      · rw [ht]
        exact accounted_cleared h hget rfl
    have hnone : t.jobs.get? t.nextId = none := by
      rcases hcases with ⟨_, ht, _⟩ | ⟨_, _, ht, _⟩
      · rw [ht]
        exact hleased.serial.jobs _ (Nat.le_refl _)
      · rw [ht]
        exact hleased.serial.jobs _ (Nat.le_refl _)
    cases answer with
    | failed => exact h
    | lost => exact ht
    | done =>
      cases lease with
      | none => exact ht
      | some lease =>
        have hrows : SameRows t (t.startJob (.storing (.video lease) false [])) :=
          ⟨rfl, rfl, fun _ => rfl, fun _ => rfl⟩
        exact accounted_start ht hrows hnone (Service.jobs_startJob t _) ⟨rfl, rfl, rfl, rfl⟩

theorem accounted_reject (h : Accounted s) (j : Nat) (cause : Cause) :
    Accounted (s.rejectStep j cause) := by
  unfold Service.rejectStep
  split
  · next upload thumb hold =>
    refine accounted_idle h (sameRows_setJob s _ _) hold rfl ?_ ⟨rfl, rfl⟩
    cases upload <;> exact ⟨rfl, rfl, rfl, rfl⟩
  · exact h

/-- The commit of a publishing transaction takes effect, and its caller gets an error. -/
def publicationLost (p : PolicyConfig) (s : Service) : Action → Bool
  | .publish j g .lost =>
    match s.jobs.get? j with
    | some (.storing upload thumb keys) =>
      keys.length == upload.artifacts thumb && (s.publish p g keys upload).isOk
    | _ => false
  | _ => false

theorem accounted_publishStep (hleased : Leased p s) (h : Accounted s) {j : Nat} {g : Gate}
    {answer : Answer} (hkept : publicationLost p s (.publish j g answer) = false) :
    Accounted (s.publishStep p j g answer) := by
  unfold Service.publishStep
  split
  · next upload thumb keys hold =>
    split
    · next hkeys =>
      cases hpublish : s.publish p g keys upload with
      | error cause => exact accounted_cleanup h (sameRows_setJob s _ _) hold cause rfl
      | ok t =>
        have ⟨given, hnamed, hqueued, hjobs, hmakers, hobjects⟩ := publish_names hleased hkeys hpublish
        cases answer with
        | done =>
          have hending : (t.setJob j (.ending upload.lease? [])).jobs =
              s.jobs.set j (.ending upload.lease? []) := by
            rw [Service.jobs_setJob, hjobs]
          exact accounted_publish h given hold hending hmakers hobjects hnamed hqueued
        | failed => exact accounted_cleanup h (sameRows_setJob s _ _) hold .other rfl
        | lost =>
          unfold publicationLost at hkept
          simp [hold, hkeys, hpublish, Except.isOk, Except.toBool] at hkept
    · exact h
  · exact h

theorem accounted_purgeAttachment (h : Accounted s) (id : Nat) :
    Accounted (s.purgeAttachment id).1 := by
  rcases purgeAttachment_cases s id with ⟨hsame, _⟩ | ⟨r, hget, _, _, hpurged⟩
  · rw [hsame]
    exact h
  · rw [hpurged]
    exact accounted_cleared h hget rfl

theorem accounted_purge (h : Accounted s) (j : Nat) (answer : Answer) (cancelled : Bool) :
    Accounted (s.purgeStep j answer cancelled) := by
  unfold Service.purgeStep
  split
  · next w hold =>
    have hidle : ∀ new : Job, new.empty → Accounted (s.setJob j new) := fun new hempty =>
      accounted_idle h (sameRows_setJob s _ _) hold rfl hempty ⟨rfl, rfl⟩
    have hpurged : ∀ (id : Nat) (new : Job), new.empty →
        Accounted ((s.purgeAttachment id).1.setJob j new) := by
      intro id new hempty
      have hstill : (s.purgeAttachment id).1.jobs.get? j = some (.purging w) := by
        rw [jobs_purgeAttachment]
        exact hold
      exact accounted_idle (accounted_purgeAttachment h id) (sameRows_setJob _ _ _) hstill rfl hempty
        ⟨rfl, rfl⟩
    split
    · unfold Service.purgePage
      split
      · split
        · exact hidle _ ⟨rfl, rfl, rfl, rfl⟩
        · exact hidle _ ⟨rfl, rfl, rfl, rfl⟩
      · exact hidle _ ⟨rfl, rfl, rfl, rfl⟩
    · next c rest =>
      unfold Service.purgeCandidate
      split
      · exact hidle _ ⟨rfl, rfl, rfl, rfl⟩
      · cases answer with
        | done => exact hpurged _ _ ⟨rfl, rfl, rfl, rfl⟩
        | lost => cases cancelled <;> exact hpurged _ _ ⟨rfl, rfl, rfl, rfl⟩
        | failed => cases cancelled <;> exact hidle _ ⟨rfl, rfl, rfl, rfl⟩
  · exact h

theorem queued_of_isNextBlob {locked : List Key} {key : Key} (h : s.isNextBlob locked key = true) :
    s.queued key = true := by
  unfold Service.isNextBlob at h
  unfold Service.queued
  cases hget : s.blobDeletions.get? key with
  | none =>
    rw [hget] at h
    cases h
  | some => rfl

theorem accounted_drain (h : Accounted s) (j : Nat) (locked : List Key) (key : Option Key)
    (answer : Answer) : Accounted (s.drainStep j locked key answer) := by
  unfold Service.drainStep
  split
  · next left hold =>
    have hempty : Job.finished.empty := ⟨rfl, rfl, rfl, rfl⟩
    have hidle : Accounted (s.setJob j .finished) :=
      accounted_idle h (sameRows_setJob s _ _) hold rfl hempty ⟨rfl, rfl⟩
    unfold Service.drainRound
    split
    · exact hidle
    · exact hidle
    · next left key =>
      split
      · next hnext =>
        have hqueued := queued_of_isNextBlob hnext
        cases answer with
        | done =>
          refine @accounted_handle s _ h key j _ _ hold rfl rfl (fun _ => rfl) ⟨rfl, rfl⟩ ?_ ?_ ?_ ?_
          · exact fun k _ => ⟨Iff.rfl, queued_updateBlob s key _ k⟩
          · exact fun k hk => Or.inr (List.mem_singleton.mp hk)
          · exact fun k hk => absurd hk List.not_mem_nil
          · intro hsame
            refine (h key).doom hqueued (fun hk => hk) hsame ?_ Iff.rfl ?_
            · exact (queued_updateBlob s key _ key).trans hqueued
            · intro hc
              exact (@cleared_set s _ j _ key rfl hc).resolve_right List.not_mem_nil
        | lost =>
          exact accounted_idle h (sameRows_updateBlob s key _ j _) hold rfl ⟨rfl, rfl, rfl, rfl⟩
            ⟨rfl, rfl⟩
        | failed => exact hidle
      · exact h
  · exact h

theorem accounted_step (hleased : Leased p s) (h : Accounted s) (a : Action)
    (hkept : publicationLost p s a = false) : Accounted (step p s a) := by
  have hstart : ∀ job : Job, job.empty → Accounted (s.startJob job) := fun job hempty =>
    accounted_start h ⟨rfl, rfl, fun _ => rfl, fun _ => rfl⟩ (hleased.serial.jobs _ (Nat.le_refl _))
      (Service.jobs_startJob s job) hempty
  cases a with
  | tick | change => exact h
  | start upload =>
    show Accounted (if upload.lease?.isSome then s else _)
    split
    · exact h
    · exact hstart _ ⟨rfl, rfl, rfl, rfl⟩
  | claim locked answer => exact accounted_claim hleased h locked answer
  | reject j cause => exact accounted_reject h j cause
  | put j answer cause => exact accounted_put h j answer cause
  | publish => exact accounted_publishStep hleased h hkept
  | proceed j answer => exact accounted_proceed h j answer
  | deleteAttachment actor staff id answer =>
    rw [step]
    cases hdelete : s.deleteAttachment actor staff id with
    | none => exact h
    | some t =>
      show Accounted (if answer.applied then t else s)
      split
      · unfold Service.deleteAttachment at hdelete
        split at hdelete
        · cases hdelete
        · split at hdelete
          · cases hdelete
          · cases hdelete
            exact accounted_deleteAttachments h _
      · exact h
  | deleteRows ids slots answer =>
    show Accounted (if answer.applied then _ else s)
    split
    · exact accounted_deletePictures (accounted_deleteAttachments h _) _
    · exact h
  | startPurge limit =>
    show Accounted (if 1 ≤ limit ∧ limit ≤ 1000 then _ else s)
    split
    · exact hstart _ ⟨rfl, rfl, rfl, rfl⟩
    · exact h
  | purge j answer cancelled => exact accounted_purge h j answer cancelled
  | startDrain limit =>
    show Accounted (if 1 ≤ limit ∧ limit ≤ 1000 then _ else s)
    split
    · exact hstart _ ⟨rfl, rfl, rfl, rfl⟩
    · exact h
  | drain j locked key answer => exact accounted_drain h j locked key answer

/-! ### Runs -/

/-- The state of the store as the rows and the queue account for it. -/
structure Accountable (s : Service) : Prop where
  /-- With no upload in flight, one column names an object, or its key is queued. -/
  objects : (∀ j job, s.jobs.get? j = some job → job.inFlight = false) →
    ∀ k ∈ s.objects, s.named k = 1 ∨ s.queued k = true
  /-- The object of a key that a row names is there, and not queued. -/
  rows : ∀ k, 0 < s.named k → k ∈ s.objects ∧ s.queued k = false

theorem accountable_of_accounted (h : Accounted s) : Accountable s := by
  constructor
  · intro hidle k hk
    have hload : ∀ keys : Job → List Key, (∀ job, job.inFlight = false → keys job = []) →
        s.load keys k = 0 := by
      intro keys hkeys
      refine KeyMap.total_eq_zero fun j job hjob => ?_
      rw [hkeys job (hidle j job hjob)]
      rfl
    have hcar : (s.standing k).carried = 0 := hload Job.carried fun job hjob => by
      cases job with
      | storing => cases hjob
      | _ => rfl
    have hdrop : (s.standing k).dropped = 0 := hload Job.dropped fun job hjob => by
      cases job with
      | ending lease tasks =>
        cases tasks with
        | nil => rfl
        | cons => cases hjob
      | _ => rfl
    have hsingle := (h k).single
    refine ((h k).answered hk).imp_left fun hplace => ?_
    unfold Standing.places at hsingle hplace
    show (s.standing k).named = 1
    omega
  · intro k hnamed
    have hname : 0 < (s.standing k).named := hnamed
    have hplace : 0 < (s.standing k).places := by
      unfold Standing.places
      omega
    refine ⟨(h k).backed (by omega), ?_⟩
    rw [Bool.eq_false_iff]
    exact ((h k).kept hplace).1

theorem accounted_initial (now : Int) : Accounted (Service.initial now) := by
  intro k
  have hnone : ¬∃ j job, (Service.initial now).jobs.get? j = some job ∧ k ∈ job.doomed := by
    rintro ⟨j, job, hjob, _⟩
    cases hjob
  constructor
  · exact Nat.zero_le _
  · intro hpos
    cases hpos
  · intro hpos
    cases hpos
  · intro hstored
    cases hstored
  · rintro ⟨j, job, hjob, _⟩
    cases hjob
  · exact fun _ => ⟨rfl, List.not_mem_nil, Bool.false_ne_true, hnone⟩

/-- Every run in which each publishing transaction that takes effect is reported as such. -/
theorem objects_accounted (p : PolicyConfig) (now : Int) (as : List Action)
    (hkept : ∀ q ∈ Machine.steps (step p) (Service.initial now) as,
      publicationLost p q.1 q.2 = false) :
    Accountable (run p (Service.initial now) as) := by
  have hinv := @Machine.run_guarded _ _ (step p) (fun s => Leased p s ∧ Accounted s)
    (fun s a => publicationLost p s a = false)
    (fun s a h hguard => ⟨leased_step h.1 a, accounted_step h.1 h.2 a hguard⟩) _
    ⟨leased_initial p now, accounted_initial now⟩ as hkept
  exact accountable_of_accounted hinv.2

/-- A thread photo whose transaction is reported as it went. -/
def photoPublished (answer : Answer) : List Action :=
  [.start .threadPhoto false, .put 1 .done .other, .publish 1 ⟨true, .adult⟩ answer,
    .proceed 1 .done, .proceed 1 .done, .proceed 1 .done]

theorem objects_accounted_photo :
    (∀ q ∈ Machine.steps (step defaultPolicyConfig) (Service.initial 0) (photoPublished .done),
      publicationLost defaultPolicyConfig q.1 q.2 = false) ∧
    Accountable (run defaultPolicyConfig (Service.initial 0) (photoPublished .done)) :=
  have hkept : ∀ q ∈ Machine.steps (step defaultPolicyConfig) (Service.initial 0)
      (photoPublished .done), publicationLost defaultPolicyConfig q.1 q.2 = false := by
    decide +kernel
  ⟨hkept, objects_accounted defaultPolicyConfig 0 (photoPublished .done) hkept⟩

/-- The photo is published, and its object deleted all the same. -/
theorem named_object_discarded :
    (run defaultPolicyConfig (Service.initial 0) (photoPublished .lost)).named 0 = 1 ∧
      0 ∉ (run defaultPolicyConfig (Service.initial 0) (photoPublished .lost)).objects ∧
      ¬Accountable (run defaultPolicyConfig (Service.initial 0) (photoPublished .lost)) := by
  have hnamed : (run defaultPolicyConfig (Service.initial 0) (photoPublished .lost)).named 0 = 1 := by
    decide +kernel
  have hgone : 0 ∉ (run defaultPolicyConfig (Service.initial 0) (photoPublished .lost)).objects := by
    decide +kernel
  refine ⟨hnamed, hgone, fun h => hgone (h.rows 0 ?_).1⟩
  rw [hnamed]
  exact Nat.one_pos

end SocialActivities.Media
