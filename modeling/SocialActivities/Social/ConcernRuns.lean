import SocialActivities.Lib.Machine
import SocialActivities.Social.Concerns

/-!
# `SocialActivities.Social.ConcernRuns`: the caps on formative notes

A run claims the day, reads the sensors, and then visits one post in a step. Between any two steps
members flag, write, edit and mute, moderators close reviews, audiences change, and accounts prove
another age. Runs come one after another.

`ConcernService` is an implementation with what it promises of its start, its batches, its visits
and its edits; `Py.service` and `Go.service` are the two. `Caps` says what the notes of a run of
steps must keep, and `caps_iff` proves it of every service, but for one cap: the ladder asks for
the cohort of the thread, and the author may be in another cohort by then. So the notes keep the
caps exactly when no visited post that is due has an author in a minor cohort.
-/

namespace SocialActivities.Social

open Lib
open Lib.Calendar (Zone dayLength)
open Lib.Machine (run steps emitted)

/-- When the attempt on a post was stamped. -/
def ConcernDb.stampOf (db : ConcernDb) (post : Nat) : Option Nat :=
  (db.states.get? post).bind fun state => state.noteSentAt

/-- The author has an open review for a pile-on. -/
def ConcernDb.OpenPileon (db : ConcernDb) (author : Nat) : Prop :=
  ∃ k r, db.reviews.get? k = some r ∧ r.kind = .sensorPileon ∧ r.status = .opened ∧
    r.subject = some author

/-- The author of a post. -/
def ConcernDb.authorOf (db : ConcernDb) (post : Nat) : Option Nat :=
  (db.posts.get? post).map fun row => row.author

/-- Posts keep their authors, stamps stay, and no review for a pile-on is opened. -/
structure Kept (db db' : ConcernDb) : Prop where
  author : ∀ post author, db.authorOf post = some author → db'.authorOf post = some author
  stamp : ∀ post, db'.stampOf post = db.stampOf post
  pileon : ∀ author, db'.OpenPileon author → db.OpenPileon author

/-- The run goes on, with the authors that it protects. -/
structure SameRun (w w' : Sweep) : Prop where
  now : w'.now = w.now
  posts : w'.posts = w.posts
  protectedAuthors : w'.protectedAuthors = w.protectedAuthors

/-- What an attempt finds and leaves: the post has no stamp, its author is not protected and has no
stamp since the start of the cooldown; the stamp is the time of the run. -/
structure Attempted (start : Nat) (p : LoadedPost) (w : Sweep) (db db' : ConcernDb)
    (a : Attempt) : Prop where
  post : a.post = p.id
  author : a.author = p.row.author
  time : a.time = w.now
  unstamped : db.stampOf p.id = none
  unprotected : p.row.author ∉ w.protectedAuthors
  apart : ∀ post sent, db.authorOf post = some p.row.author → db.stampOf post = some sent →
    sent < start
  authors : db'.posts = db.posts
  stamp : ∀ post, db'.stampOf post = if post = p.id then some w.now else db.stampOf post
  pileon : ∀ author, db'.OpenPileon author → db.OpenPileon author

/-- An implementation of the runs, and what it promises. -/
structure ConcernService where
  begin : Nat → ConcernDb → ConcernDb × Sweep
  refill : Sweep → ConcernDb → Option Sweep
  evaluatePost : LoadedPost → Sweep → ConcernDb → Visit
  editPost : Nat → Nat → ConcernDb → ConcernDb
  /-- The start of the cooldown that ends at a time. -/
  cooldownStart : Nat → Nat
  /-- A visit of the post attempts a note. -/
  due : LoadedPost → Sweep → ConcernDb → Bool
  begin_posts : ∀ now db, (begin now db).1.posts = db.posts
  begin_stamp : ∀ now db post, (begin now db).1.stampOf post = db.stampOf post
  begin_pileon : ∀ now db author, (begin now db).1.OpenPileon author →
    author ∈ (begin now db).2.protectedAuthors
  begin_loaded : ∀ now db p, p ∈ (begin now db).2.posts → db.authorOf p.id = some p.row.author
  refill_same : ∀ w db w', refill w db = some w' → w'.protectedAuthors = w.protectedAuthors ∧
    ∀ p ∈ w'.posts, db.authorOf p.id = some p.row.author
  visit_same : ∀ p w db, SameRun w (evaluatePost p w db).sweep
  visit_kept : ∀ p w db, (evaluatePost p w db).attempt = none →
    Kept db (evaluatePost p w db).db
  visit_attempted : ∀ p w db a, (evaluatePost p w db).attempt = some a →
    Attempted (cooldownStart w.now) p w db (evaluatePost p w db).db a
  due_iff : ∀ p w db, (evaluatePost p w db).attempt.isSome = due p w db
  edit_kept : ∀ post now db, Kept db (editPost post now db)

/-- The rows, and the run that is going on. -/
structure ConcernState where
  db : ConcernDb
  sweep : Option Sweep

/-- A post is taken from those to visit. -/
def Sweep.pop (w : Sweep) (p : LoadedPost) (rest : List LoadedPost) : Sweep :=
  { w with posts := rest, after := p.id }

/-- The visit of a post has failed. -/
def Sweep.fail (w : Sweep) : Sweep :=
  { w with summary := { w.summary with failed := w.summary.failed + 1 } }

/-- A step of a run, or of anybody else. -/
inductive ConcernOp where
  | evaluate (now : Nat)
  /-- The next post, whose visit may fail before it writes, the next batch, or the end. -/
  | next (fails : Bool)
  /-- The run breaks off. -/
  | abort
  /-- `record_concern`. -/
  | toggleConcern (post user now : Nat)
  | writePost (author thread now : Nat)
  | editPost (post now : Nat)
  | hidePost (post : Nat)
  | setMuted (user : Nat) (muted : Bool)
  /-- A moderator closes an open review. -/
  | resolve (review : Nat) (status : ReviewStatus)
  /-- An account proves another age. -/
  | applyAssurance (user : Nat) (cohort : Cohort)
  | setAudience (thread audience : Nat)
  | setOwner (thread : Nat) (owner : ThreadOwner)

/-- What the other requests do to the rows. -/
def ConcernDb.request (db : ConcernDb) : ConcernOp → ConcernDb
  | .toggleConcern post user now =>
    match db.concerns.get? (post, user) with
    | some _ => { db with concerns := db.concerns.removeIf fun k _ => k == (post, user) }
    | none => { db with concerns := db.concerns.set (post, user) now }
  | .writePost author thread now =>
    { db with posts := db.posts.insert ⟨author, thread, now, false⟩ }
  | .hidePost post =>
    { db with posts := db.posts.modify post fun row => { row with hidden := true } }
  | .setMuted user muted => { db with muted := Function.update db.muted user muted }
  | .resolve review status =>
    { db with
      reviews := db.reviews.modify review fun r =>
        if r.status = .opened then { r with status := status } else r }
  | .applyAssurance user cohort => { db with cohort := Function.update db.cohort user cohort }
  | .setAudience thread audience =>
    { db with audience := Function.update db.audience thread audience }
  | .setOwner thread owner => { db with threads := Function.update db.threads thread owner }
  | _ => db

namespace ConcernService

variable (v : ConcernService)

/-- The run has claimed the day. -/
def begun (s : ConcernState) (now : Nat) : ConcernState :=
  let start := v.begin now { s.db with lastRunAt := some now }
  ⟨start.1, some start.2⟩

/-- The run has visited the posts that it has loaded. -/
def more (s : ConcernState) (w : Sweep) : ConcernState :=
  match v.refill w s.db with
  | some w' => { s with sweep := some w' }
  | none => ⟨{ s.db with audit := s.db.audit ++ [.evaluated w.summary] }, none⟩

/-- The run comes to a post. -/
def visit (s : ConcernState) (w : Sweep) (p : LoadedPost) :
    Bool → ConcernState × Option Attempt
  | true => ({ s with sweep := some w.fail }, none)
  | false => (⟨(v.evaluatePost p w s.db).db, some (v.evaluatePost p w s.db).sweep⟩,
    (v.evaluatePost p w s.db).attempt)

/-- The next statement of a run. -/
def next (s : ConcernState) (fails : Bool) : ConcernState × Option Attempt :=
  match s.sweep with
  | none => (s, none)
  | some w =>
    match w.posts with
    | [] => (v.more s w, none)
    | p :: rest => v.visit s (w.pop p rest) p fails

/-- One step, and the attempt that it makes. -/
def turn (s : ConcernState) : ConcernOp → ConcernState × Option Attempt
  | .evaluate now => (if s.sweep.isNone && s.db.claimable now then v.begun s now else s, none)
  | .next fails => v.next s fails
  | .abort => ({ s with sweep := none }, none)
  | .editPost post now => ({ s with db := v.editPost post now s.db }, none)
  | op => ({ s with db := s.db.request op }, none)

def step (s : ConcernState) (op : ConcernOp) : ConcernState := (v.turn s op).1

/-- The attempt of a step. -/
def attempt (s : ConcernState) (op : ConcernOp) : Option Attempt := (v.turn s op).2

/-- The attempts of the steps from the rows `db`, where no run is going on. -/
def attempts (db : ConcernDb) (ops : List ConcernOp) : List Attempt :=
  emitted v.step v.attempt ⟨db, none⟩ ops

/-- The step visits a post that is due and whose author is in a minor cohort. -/
def MinorDue (s : ConcernState) (op : ConcernOp) : Prop :=
  ∃ w p rest, op = .next false ∧ s.sweep = some w ∧ w.posts = p :: rest ∧
    v.due p (w.pop p rest) s.db = true ∧
    (s.db.cohort p.row.author = .teen ∨ s.db.cohort p.row.author = .child)

/-- The caps on the notes: at most one attempt for a post, the attempts for an author apart, none
for an author under an open review for a pile-on, none after an edit that came after a note, and
none for an author in a minor cohort. -/
structure Caps (apart : Nat → Nat → Prop) (db : ConcernDb) (ops : List ConcernOp) : Prop where
  once : (v.attempts db ops).Pairwise fun a b => a.post ≠ b.post
  apart : (v.attempts db ops).Pairwise fun a b => a.author = b.author → apart a.time b.time
  unprotected : ∀ q ∈ steps v.step ⟨db, none⟩ ops, ∀ a, v.attempt q.1 q.2 = some a →
    ¬q.1.db.OpenPileon a.author
  unedited : ∀ before post now after, ops = before ++ .editPost post now :: after →
    (∃ a ∈ v.attempts db before, a.post = post) →
    ∀ b ∈ emitted v.step v.attempt (run v.step ⟨db, none⟩ (before ++ [.editPost post now])) after,
      b.post ≠ post
  grown : ∀ q ∈ steps v.step ⟨db, none⟩ ops, ∀ a, v.attempt q.1 q.2 = some a →
    q.1.db.cohort a.author ≠ .teen ∧ q.1.db.cohort a.author ≠ .child

end ConcernService

/-! ### What leaves authors, stamps and reviews as they are -/

theorem Kept.refl (db : ConcernDb) : Kept db db := ⟨fun _ _ h => h, fun _ => rfl, fun _ h => h⟩

theorem Kept.trans {db₁ db₂ db₃ : ConcernDb} (h : Kept db₁ db₂) (h' : Kept db₂ db₃) :
    Kept db₁ db₃ :=
  ⟨fun post author hauthor => h'.author post author (h.author post author hauthor),
    fun post => (h'.stamp post).trans (h.stamp post),
    fun author hopen => h.pileon author (h'.pileon author hopen)⟩

theorem kept_of_eq {db db' : ConcernDb} (hposts : db'.posts = db.posts)
    (hstates : db'.states = db.states) (hreviews : db'.reviews = db.reviews) : Kept db db' := by
  refine ⟨fun post author h => ?_, fun post => ?_, fun author h => ?_⟩
  · unfold ConcernDb.authorOf at h ⊢
    rw [hposts]
    exact h
  · unfold ConcernDb.stampOf
    rw [hstates]
  · unfold ConcernDb.OpenPileon at h ⊢
    rw [hreviews] at h
    exact h

theorem authorOf_modify {db : ConcernDb} {post : Nat} {f : ConcernPost → ConcernPost}
    (hf : ∀ row, (f row).author = row.author) (other : Nat) :
    ((db.posts.modify post f).get? other).map (fun row => row.author) = db.authorOf other := by
  rw [Table.get?_modify]
  unfold ConcernDb.authorOf
  by_cases h : other = post
  · rw [if_pos h, Option.map_map]
    congr 1
    funext row
    exact hf row
  · rw [if_neg h]

theorem kept_request (db : ConcernDb) (op : ConcernOp) : Kept db (db.request op) := by
  cases op with
  | toggleConcern post user =>
    unfold ConcernDb.request
    dsimp only
    cases db.concerns.get? (post, user) with
    | some | none => exact kept_of_eq rfl rfl rfl
  | writePost author thread now =>
    refine ⟨fun post other h => ?_, fun _ => rfl, fun _ h => h⟩
    show ((db.posts.insert ⟨author, thread, now, false⟩).get? post).map _ = some other
    obtain ⟨row, hrow, hauthor⟩ := Option.map_eq_some_iff.mp h
    -- The new post is under a free number.
    have hne : post ≠ db.posts.next := by
      rintro rfl
      rw [Table.get?_next] at hrow
      cases hrow
    rw [Table.get?_insert, if_neg hne, hrow]
    exact congrArg some hauthor
  | hidePost post =>
    refine ⟨fun other author h => ?_, fun _ => rfl, fun _ h => h⟩
    exact (@authorOf_modify db post (fun row => { row with hidden := true }) (fun _ => rfl)
      other).trans h
  | resolve review status =>
    refine ⟨fun _ _ h => h, fun _ => rfl, fun author h => ?_⟩
    obtain ⟨k, r, hget, hkind, hstatus, hsubject⟩ := h
    have hmodified : (db.reviews.modify review fun r =>
        if r.status = .opened then { r with status := status } else r).get? k = some r := hget
    rw [Table.get?_modify] at hmodified
    -- A review that is closed stays closed, and keeps its kind and subject.
    by_cases hk : k = review
    · rw [if_pos hk] at hmodified
      obtain ⟨old, hold, rfl⟩ := Option.map_eq_some_iff.mp hmodified
      by_cases hopen : old.status = .opened
      · rw [if_pos hopen] at hkind hsubject
        exact ⟨k, old, hold, hkind, hopen, hsubject⟩
      · rw [if_neg hopen] at hstatus
        exact absurd hstatus hopen
    · rw [if_neg hk] at hmodified
      exact ⟨k, r, hmodified, hkind, hstatus, hsubject⟩
  | _ => exact kept_of_eq rfl rfl rfl

/-! ### Runs of a service -/

/-- What has been attempted so far is stamped on posts of their authors, and a run that is going on
has loaded posts of their authors and protects everyone with an open review for a pile-on. -/
structure Tracks (s : ConcernState) (past : List Attempt) : Prop where
  stamped : ∀ a ∈ past, s.db.stampOf a.post = some a.time
  authors : ∀ a ∈ past, s.db.authorOf a.post = some a.author
  loaded : ∀ w, s.sweep = some w → ∀ p ∈ w.posts, s.db.authorOf p.id = some p.row.author
  shielded : ∀ w, s.sweep = some w → ∀ author, s.db.OpenPileon author →
    author ∈ w.protectedAuthors

namespace ConcernService

variable {v : ConcernService} {s : ConcernState} {past : List Attempt}

theorem tracks_of_kept (h : Tracks s past) {db : ConcernDb} (hkept : Kept s.db db)
    {sweep : Option Sweep}
    (hsweep : ∀ w', sweep = some w' → ∃ w, s.sweep = some w ∧
      w'.protectedAuthors = w.protectedAuthors ∧ ∀ p ∈ w'.posts, p ∈ w.posts) :
    Tracks ⟨db, sweep⟩ past := by
  refine ⟨fun a ha => (hkept.stamp a.post).trans (h.stamped a ha),
    fun a ha => hkept.author _ _ (h.authors a ha), fun w' hw' p hp => ?_,
    fun w' hw' author hopen => ?_⟩
  · obtain ⟨w, hw, -, hposts⟩ := hsweep w' hw'
    exact hkept.author _ _ (h.loaded w hw p (hposts p hp))
  · obtain ⟨w, hw, hprotected, -⟩ := hsweep w' hw'
    rw [hprotected]
    exact h.shielded w hw author (hkept.pileon author hopen)

theorem tracks_request (h : Tracks s past) {db : ConcernDb} (hkept : Kept s.db db) :
    Tracks { s with db := db } past :=
  tracks_of_kept h hkept fun w hw => ⟨w, hw, rfl, fun _ hp => hp⟩

theorem tracks_begun (h : Tracks s past) (now : Nat) : Tracks (v.begun s now) past := by
  have hauthor : ∀ post author, s.db.authorOf post = some author →
      (v.begun s now).db.authorOf post = some author := by
    intro post author hauthor
    have hposts : (v.begun s now).db.posts = s.db.posts := v.begin_posts ..
    unfold ConcernDb.authorOf at hauthor ⊢
    rw [hposts]
    exact hauthor
  refine ⟨fun a ha => (v.begin_stamp ..).trans (h.stamped a ha),
    fun a ha => hauthor _ _ (h.authors a ha), fun w hw p hp => ?_, fun w hw author hopen => ?_⟩
  · cases hw
    exact hauthor _ _ (v.begin_loaded now { s.db with lastRunAt := some now } p hp)
  · cases hw
    exact v.begin_pileon _ _ author hopen

theorem tracks_more (h : Tracks s past) {w : Sweep} (hw : s.sweep = some w) :
    Tracks (v.more s w) past := by
  unfold more
  cases hrefill : v.refill w s.db with
  | none =>
    have hkept : Kept s.db { s.db with audit := s.db.audit ++ [.evaluated w.summary] } :=
      kept_of_eq rfl rfl rfl
    refine @tracks_of_kept _ _ h _ hkept none fun w' hw' => ?_
    cases hw'
  | some w' =>
    obtain ⟨hprotected, hloaded⟩ := v.refill_same w s.db w' hrefill
    refine ⟨h.stamped, h.authors, fun w'' hw'' p hp => ?_, fun w'' hw'' author hopen => ?_⟩
    · cases hw''
      exact hloaded p hp
    · cases hw''
      rw [hprotected]
      exact h.shielded w hw author hopen

theorem tracks_attempted (h : Tracks s past) {w : Sweep} {p : LoadedPost} {rest : List LoadedPost}
    (hw : s.sweep = some w) (hposts : w.posts = p :: rest) {a : Attempt} {db : ConcernDb}
    {w' : Sweep} {start : Nat} (ha : Attempted start p (w.pop p rest) s.db db a)
    (hsame : SameRun (w.pop p rest) w') : Tracks ⟨db, some w'⟩ (past ++ [a]) := by
  have hauthor : ∀ post, db.authorOf post = s.db.authorOf post := by
    intro post
    unfold ConcernDb.authorOf
    rw [ha.authors]
  -- The new attempt joins the past: its stamp and its author are on the row of `p`.
  refine ⟨fun b hb => ?_, fun b hb => ?_, fun w'' hw'' q hq => ?_, fun w'' hw'' author hopen => ?_⟩
  · rw [List.mem_append, List.mem_singleton] at hb
    rw [ha.stamp]
    rcases hb with hb | rfl
    · -- The stamp of an earlier attempt is on another post.
      have hne : b.post ≠ p.id := by
        intro heq
        have hstamped := h.stamped b hb
        rw [heq, ha.unstamped] at hstamped
        cases hstamped
      rw [if_neg hne]
      exact h.stamped b hb
    · rw [if_pos ha.post, ha.time]
  · rw [List.mem_append, List.mem_singleton] at hb
    rw [hauthor]
    rcases hb with hb | rfl
    · exact h.authors b hb
    · rw [ha.post, ha.author]
      exact h.loaded w hw p (by rw [hposts]; exact List.mem_cons_self)
  · cases hw''
    have hmem : q ∈ rest := by
      rw [hsame.posts] at hq
      exact hq
    show db.authorOf q.id = some q.row.author
    rw [hauthor]
    exact h.loaded w hw q (by rw [hposts]; exact List.mem_cons_of_mem _ hmem)
  · cases hw''
    rw [hsame.protectedAuthors]
    exact h.shielded w hw author (ha.pileon author hopen)

theorem tracks_visit (h : Tracks s past) {w : Sweep} {p : LoadedPost} {rest : List LoadedPost}
    (hw : s.sweep = some w) (hposts : w.posts = p :: rest) (fails : Bool) :
    Tracks (v.visit s (w.pop p rest) p fails).1
      (past ++ (v.visit s (w.pop p rest) p fails).2.toList) := by
  have hrest : ∀ q ∈ rest, q ∈ w.posts := by
    intro q hq
    rw [hposts]
    exact List.mem_cons_of_mem _ hq
  cases fails with
  | true =>
    -- The visit is rolled back, and the run goes on with the other posts.
    refine (List.append_nil past).symm ▸ tracks_of_kept h (Kept.refl s.db) fun w' hw' => ?_
    cases hw'
    exact ⟨w, hw, rfl, hrest⟩
  | false =>
    have hsame := v.visit_same p (w.pop p rest) s.db
    unfold visit
    dsimp only
    cases hattempt : (v.evaluatePost p (w.pop p rest) s.db).attempt with
    | none =>
      refine (List.append_nil past).symm ▸
        tracks_of_kept h (v.visit_kept _ _ _ hattempt) fun w' hw' => ?_
      cases hw'
      refine ⟨w, hw, hsame.protectedAuthors, fun q hq => ?_⟩
      rw [hsame.posts] at hq
      exact hrest q hq
    | some a => exact tracks_attempted h hw hposts (v.visit_attempted _ _ _ a hattempt) hsame

theorem tracks_step (h : Tracks s past) (op : ConcernOp) :
    Tracks (v.step s op) (past ++ (v.attempt s op).toList) := by
  have hnil : past ++ (none : Option Attempt).toList = past := List.append_nil past
  cases op with
  | evaluate now =>
    show Tracks (if s.sweep.isNone && s.db.claimable now then v.begun s now else s)
      (past ++ (none : Option Attempt).toList)
    rw [hnil]
    by_cases hclaim : (s.sweep.isNone && s.db.claimable now) = true
    · rw [if_pos hclaim]
      exact tracks_begun h now
    · rw [if_neg hclaim]
      exact h
  -- Only a visit makes an attempt.
  | next fails =>
    show Tracks (v.next s fails).1 (past ++ (v.next s fails).2.toList)
    unfold next
    cases hw : s.sweep with
    | none =>
      dsimp only
      rw [hnil]
      exact h
    | some w =>
      dsimp only
      cases hposts : w.posts with
      | nil =>
        dsimp only
        rw [hnil]
        exact tracks_more h hw
      | cons => exact tracks_visit h hw hposts fails
  | abort =>
    exact hnil.symm ▸ tracks_of_kept h (Kept.refl s.db) fun w' hw' => (by cases hw')
  | editPost post now => exact hnil.symm ▸ tracks_request h (v.edit_kept post now s.db)
  | _ => exact hnil.symm ▸ tracks_request h (kept_request s.db _)

theorem attempt_spec {op : ConcernOp} {a : Attempt} (h : v.attempt s op = some a) :
    ∃ w p rest, op = .next false ∧ s.sweep = some w ∧ w.posts = p :: rest ∧
      (v.evaluatePost p (w.pop p rest) s.db).attempt = some a := by
  cases op with
  | next fails =>
    have hnext : (v.next s fails).2 = some a := h
    unfold next at hnext
    cases hw : s.sweep with
    | none =>
      rw [hw] at hnext
      cases hnext
    | some w =>
      rw [hw] at hnext
      dsimp only at hnext
      cases hposts : w.posts with
      | nil =>
        rw [hposts] at hnext
        cases hnext
      | cons p rest =>
        rw [hposts] at hnext
        cases fails with
        | true => cases hnext
        | false => exact ⟨w, p, rest, rfl, rfl, hposts, hnext⟩
  | _ => cases h

theorem attempted_of_attempt {op : ConcernOp} {a : Attempt} (h : v.attempt s op = some a) :
    ∃ w p rest, op = .next false ∧ s.sweep = some w ∧ w.posts = p :: rest ∧
      v.due p (w.pop p rest) s.db = true ∧
      Attempted (v.cooldownStart w.now) p (w.pop p rest) s.db (v.step s op).db a := by
  obtain ⟨w, p, rest, rfl, hw, hposts, hattempt⟩ := attempt_spec h
  have hstep : (v.step s (.next false)).db = (v.evaluatePost p (w.pop p rest) s.db).db := by
    show (v.next s false).1.db = _
    unfold next
    rw [hw]
    dsimp only
    rw [hposts]
    rfl
  refine ⟨w, p, rest, rfl, hw, hposts, ?_, ?_⟩
  · rw [← v.due_iff, hattempt]
    rfl
  · rw [hstep]
    exact v.visit_attempted p (w.pop p rest) s.db a hattempt

theorem apart_of_attempt (htracks : Tracks s past) {op : ConcernOp} {b : Attempt}
    (h : v.attempt s op = some b) : ∀ a ∈ past, a.post ≠ b.post ∧
      (a.author = b.author → a.time < v.cooldownStart b.time) := by
  intro a ha
  obtain ⟨w, p, rest, rfl, hw, hposts, -, hattempted⟩ := attempted_of_attempt h
  have hstamped := htracks.stamped a ha
  refine ⟨fun heq => ?_, fun hauthor => ?_⟩
  · rw [heq, hattempted.post, hattempted.unstamped] at hstamped
    cases hstamped
  · have hposted := htracks.authors a ha
    rw [hauthor, hattempted.author] at hposted
    rw [hattempted.time]
    exact hattempted.apart a.post a.time hposted hstamped

theorem unprotected_of_attempt (htracks : Tracks s past) {op : ConcernOp} {b : Attempt}
    (h : v.attempt s op = some b) : ¬s.db.OpenPileon b.author := by
  obtain ⟨w, p, rest, rfl, hw, hposts, -, hattempted⟩ := attempted_of_attempt h
  intro hopen
  refine hattempted.unprotected ?_
  rw [← hattempted.author]
  exact htracks.shielded w hw b.author hopen

theorem attempts_concat (db : ConcernDb) (ops : List ConcernOp) (op : ConcernOp) :
    v.attempts db (ops ++ [op]) =
      v.attempts db ops ++ (v.attempt (run v.step ⟨db, none⟩ ops) op).toList := by
  unfold attempts
  rw [Lib.Machine.emitted_append, Lib.Machine.emitted_singleton]

theorem tracks_run (db : ConcernDb) (ops : List ConcernOp) :
    Tracks (run v.step ⟨db, none⟩ ops) (v.attempts db ops) := by
  -- From the end of the run: its last step is taken in a state that tracks the others.
  induction ops using List.reverseRecOn with
  | nil =>
    exact ⟨fun _ h => (by cases h), fun _ h => (by cases h), fun _ h => (by cases h),
      fun _ h => (by cases h)⟩
  | append_singleton ops op ih =>
    rw [Lib.Machine.run_concat, attempts_concat]
    exact tracks_step ih op

theorem attempts_pairwise {r : Attempt → Attempt → Prop} (db : ConcernDb)
    (hr : ∀ (s : ConcernState) (past : List Attempt) (op : ConcernOp) (b : Attempt),
      Tracks s past → v.attempt s op = some b → ∀ a ∈ past, r a b) (ops : List ConcernOp) :
    (v.attempts db ops).Pairwise r := by
  induction ops using List.reverseRecOn with
  | nil => exact List.Pairwise.nil
  | append_singleton ops op ih =>
    rw [attempts_concat, List.pairwise_append]
    refine ⟨ih, ?_, fun a ha b hb => hr _ _ op b (tracks_run db ops) (Option.mem_toList.mp hb) a ha⟩
    cases v.attempt (run v.step ⟨db, none⟩ ops) op with
    | none => exact List.Pairwise.nil
    | some b => exact List.pairwise_singleton r b

theorem attempts_once (db : ConcernDb) (ops : List ConcernOp) :
    (v.attempts db ops).Pairwise fun a b => a.post ≠ b.post :=
  attempts_pairwise db (fun _ _ _ _ htracks h a ha => (apart_of_attempt htracks h a ha).1) ops

theorem attempts_unedited (db : ConcernDb) (before after : List ConcernOp) (op : ConcernOp)
    {a : Attempt} (ha : a ∈ v.attempts db before) {b : Attempt}
    (hb : b ∈ emitted v.step v.attempt (run v.step ⟨db, none⟩ (before ++ [op])) after) :
    b.post ≠ a.post := by
  -- The two attempts are for different posts, for one comes before the other.
  have honce := attempts_once (v := v) db (before ++ [op] ++ after)
  unfold attempts at honce
  rw [Lib.Machine.emitted_append, List.pairwise_append] at honce
  refine (honce.2.2 a ?_ b hb).symm
  rw [Lib.Machine.emitted_append]
  exact List.mem_append_left _ ha

theorem minorDue_iff {op : ConcernOp} : v.MinorDue s op ↔
    ∃ a, v.attempt s op = some a ∧ (s.db.cohort a.author = .teen ∨ s.db.cohort a.author = .child) := by
  constructor
  · rintro ⟨w, p, rest, rfl, hw, hposts, hdue, hminor⟩
    rw [← v.due_iff, Option.isSome_iff_exists] at hdue
    obtain ⟨a, ha⟩ := hdue
    refine ⟨a, ?_, ?_⟩
    · show (v.next s false).2 = some a
      unfold next
      rw [hw]
      dsimp only
      rw [hposts]
      exact ha
    · rw [(v.visit_attempted _ _ _ a ha).author]
      exact hminor
  · rintro ⟨a, ha, hminor⟩
    obtain ⟨w, p, rest, hop, hw, hposts, hdue, hattempted⟩ := attempted_of_attempt ha
    rw [hattempted.author] at hminor
    exact ⟨w, p, rest, hop, hw, hposts, hdue, hminor⟩

/-- The notes of a service keep the caps exactly when no visit is due for an author in a minor
cohort. -/
theorem caps_iff (v : ConcernService) {apart : Nat → Nat → Prop}
    (hapart : ∀ t u, t < v.cooldownStart u → apart t u) (db : ConcernDb) (ops : List ConcernOp) :
    v.Caps apart db ops ↔ ∀ q ∈ steps v.step ⟨db, none⟩ ops, ¬v.MinorDue q.1 q.2 := by
  constructor
  · intro h q hq hminor
    obtain ⟨a, ha, hcohort⟩ := minorDue_iff.mp hminor
    have hgrown := h.grown q hq a ha
    exact hcohort.elim hgrown.1 hgrown.2
  · intro hnot
    refine ⟨attempts_once db ops, ?_, fun q hq a ha => ?_,
      fun before post now after heq ⟨a, ha, hpost⟩ b hb => ?_, fun q hq a ha => ⟨fun hteen => ?_,
        fun hchild => ?_⟩⟩
    · refine attempts_pairwise db (fun s past op b htracks hb a ha hauthor => ?_) ops
      exact hapart a.time b.time ((apart_of_attempt htracks hb a ha).2 hauthor)
    · obtain ⟨before, after, -, hbefore⟩ := (Lib.Machine.mem_steps v.step).mp hq
      rw [hbefore] at ha ⊢
      exact unprotected_of_attempt (tracks_run db before) ha
    · rw [← hpost]
      exact attempts_unedited db before after _ ha hb
    · exact hnot q hq (minorDue_iff.mpr ⟨a, ha, Or.inl hteen⟩)
    · exact hnot q hq (minorDue_iff.mpr ⟨a, ha, Or.inr hchild⟩)

end ConcernService

end SocialActivities.Social
