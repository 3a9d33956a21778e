import SocialActivities.Social.ConcernRuns

/-!
# `SocialActivities.Social.ConcernCaps`: the two implementations keep the caps

`Py.service` and `Go.service` are the implementations as services, with the proofs of what a
service promises. The proofs are shared: `visited_ladder`, `visited_escalate` and
`visited_teenConcern` say what the parts of a visit do (`Visited`), and `openPileon_sensorPileon`
that the sensor finds everyone with an open review for a pile-on.

`concern_caps` is the result for both.
-/

namespace SocialActivities.Social

open Lib
open Lib.Calendar (Zone dayLength)
open Lib.Machine (steps)

section
variable {db : ConcernDb}

/-! ### Reviews -/

variable {author : Nat}

theorem mem_openPileons : author ∈ db.openPileons ↔ db.OpenPileon author := by
  unfold ConcernDb.openPileons ConcernDb.OpenPileon
  rw [List.mem_filterMap]
  constructor
  · rintro ⟨⟨k, r⟩, hmem, hsubject⟩
    rw [List.mem_filter, Bool.and_eq_true, beq_iff_eq, beq_iff_eq] at hmem
    exact ⟨k, r, Table.mem_rows_iff.mp hmem.1, hmem.2.1, hmem.2.2, hsubject⟩
  · rintro ⟨k, r, hget, hkind, hstatus, hsubject⟩
    refine ⟨(k, r), List.mem_filter.mpr ⟨Table.mem_rows_iff.mpr hget, ?_⟩, hsubject⟩
    rw [Bool.and_eq_true, beq_iff_eq, beq_iff_eq]
    exact ⟨hkind, hstatus⟩

theorem openPileon_openReview {kind : ReviewKind} {post subject : Option Nat}
    (h : (db.openReview kind post subject).1.OpenPileon author) :
    db.OpenPileon author ∨ kind = .sensorPileon ∧ subject = some author := by
  unfold ConcernDb.openReview at h
  split at h
  · exact Or.inl h
  · obtain ⟨k, r, hget, hkind, hstatus, hsubject⟩ := h
    have hinsert : (db.reviews.insert ⟨kind, .opened, post, subject⟩).get? k = some r := hget
    rw [Table.get?_insert] at hinsert
    by_cases hk : k = db.reviews.next
    · rw [if_pos hk] at hinsert
      cases hinsert
      exact Or.inr ⟨hkind, hsubject⟩
    · rw [if_neg hk] at hinsert
      exact Or.inl ⟨k, r, hinsert, hkind, hstatus, hsubject⟩

theorem posts_openReview (db : ConcernDb) (kind : ReviewKind) (post subject : Option Nat) :
    (db.openReview kind post subject).1.posts = db.posts := by
  unfold ConcernDb.openReview
  split <;> rfl

theorem states_openReview (db : ConcernDb) (kind : ReviewKind) (post subject : Option Nat) :
    (db.openReview kind post subject).1.states = db.states := by
  unfold ConcernDb.openReview
  split <;> rfl

theorem kept_openReview {kind : ReviewKind} (hkind : kind ≠ .sensorPileon)
    (post subject : Option Nat) : Kept db (db.openReview kind post subject).1 := by
  refine ⟨fun other author h => ?_, fun other => ?_, fun author h => ?_⟩
  · unfold ConcernDb.authorOf at h ⊢
    rw [posts_openReview]
    exact h
  · unfold ConcernDb.stampOf
    rw [states_openReview]
  · exact (openPileon_openReview h).resolve_right fun hnew => hkind hnew.1

theorem shield_spec (authors : List Nat) (db : ConcernDb) :
    (shield authors db).1.posts = db.posts ∧ (shield authors db).1.states = db.states ∧
      ∀ author, (shield authors db).1.OpenPileon author →
        db.OpenPileon author ∨ author ∈ authors := by
  -- By induction on the authors: a pile-on that is open was open before, or is for one of them.
  induction authors generalizing db with
  | nil => exact ⟨rfl, rfl, fun _ h => Or.inl h⟩
  | cons first authors ih =>
    obtain ⟨hposts, hstates, hopen⟩ := ih (db.openReview .sensorPileon none (some first)).1
    refine ⟨hposts.trans (posts_openReview ..), hstates.trans (states_openReview ..),
      fun author h => ?_⟩
    rcases hopen author h with hreview | hmem
    · rcases openPileon_openReview hreview with hold | ⟨-, hnew⟩
      · exact Or.inl hold
      · cases hnew
        exact Or.inr List.mem_cons_self
    · exact Or.inr (List.mem_cons_of_mem _ hmem)

theorem posts_sensorPileon (start : Nat) (db : ConcernDb) :
    (sensorPileon start db).1.posts = db.posts :=
  (shield_spec (db.piledOn start) db).1

theorem states_sensorPileon (start : Nat) (db : ConcernDb) :
    (sensorPileon start db).1.states = db.states :=
  (shield_spec (db.piledOn start) db).2.1

variable {start : Nat}

theorem openPileon_sensorPileon
    (h : (sensorPileon start db).1.OpenPileon author) : author ∈ (sensorPileon start db).2.1 := by
  show author ∈ db.openPileons ++ db.piledOn start
  rw [List.mem_append]
  exact ((shield_spec (db.piledOn start) db).2.2 author h).imp_left mem_openPileons.mpr

variable {p : LoadedPost}

theorem authorOf_of_mem_loadPosts (h : p ∈ db.loadPosts) :
    db.authorOf p.id = some p.row.author := by
  obtain ⟨⟨k, row⟩, hmem, rfl⟩ := List.mem_map.mp h
  unfold ConcernDb.authorOf
  dsimp only
  rw [Table.mem_rows_iff.mp (List.mem_of_mem_filter hmem), Option.map_some]

/-! ### The parts of a visit -/

theorem noteSentAt_stateOf (db : ConcernDb) (post : Nat) :
    (db.stateOf post).noteSentAt = db.stampOf post := by
  unfold ConcernDb.stateOf ConcernDb.stampOf
  cases db.states.get? post with
  | none | some => rfl

theorem noteSentAt_barEdited (p : LoadedPost) (state : PostConcernState) :
    (barEdited p state).noteSentAt = state.noteSentAt := by
  unfold barEdited
  split <;> rfl

theorem lt_of_not_recent (h : db.recentFormativeNote author start = false)
    {post sent : Nat} (hauthor : db.authorOf post = some author)
    (hsent : db.stampOf post = some sent) : sent < start := by
  by_contra hge
  rw [Nat.not_lt] at hge
  obtain ⟨row, hrow, hrowAuthor⟩ := Option.map_eq_some_iff.mp hauthor
  obtain ⟨state, hstate, hstamp⟩ := Option.bind_eq_some_iff.mp hsent
  have hrecent : db.recentFormativeNote author start = true := by
    refine List.any_eq_true.mpr ⟨(post, state), KeyMap.mem_entries_iff.mpr hstate, ?_⟩
    dsimp only
    rw [hrow, hstamp, Option.any_some, Option.any_some, hrowAuthor, beq_self_eq_true,
      Bool.true_and, decide_eq_true hge]
  rw [h] at hrecent
  cases hrecent

/-- What a visit does, from the cooldown that starts at `start`. -/
structure Visited (start : Nat) (p : LoadedPost) (w : Sweep) (db : ConcernDb) (r : Visit) :
    Prop where
  same : SameRun w r.sweep
  kept : r.attempt = none → Kept db r.db
  attempted : ∀ a, r.attempt = some a → Attempted start p w db r.db a

theorem visited_idle (start : Nat) (p : LoadedPost) (w : Sweep) (db : ConcernDb) :
    Visited start p w db ⟨db, w, none⟩ :=
  ⟨⟨rfl, rfl, rfl⟩, fun _ => Kept.refl db, fun _ h => (by cases h)⟩

theorem same_countAudience (w : Sweep) (db : ConcernDb) (thread : Nat) :
    SameRun w (w.countAudience db thread) := by
  unfold Sweep.countAudience
  split <;> exact ⟨rfl, rfl, rfl⟩

theorem Visited.of_same {w w' : Sweep} {r : Visit}
    (h : Visited start p w' db r) (hsame : SameRun w w') : Visited start p w db r := by
  refine ⟨⟨h.same.now.trans hsame.now, h.same.posts.trans hsame.posts,
    h.same.protectedAuthors.trans hsame.protectedAuthors⟩, h.kept, fun a ha => ?_⟩
  have hattempted := h.attempted a ha
  exact
    { hattempted with
      time := hattempted.time.trans hsame.now
      unprotected := hsame.protectedAuthors ▸ hattempted.unprotected
      stamp := hsame.now ▸ hattempted.stamp }

theorem visited_ladder (config : ConcernConfig) (start : Nat) (p : LoadedPost) (count : Nat)
    (w : Sweep) (db : ConcernDb) : Visited start p w db (ladder config start p count w db) := by
  unfold ladder
  by_cases hdue : noteDue config start p count w db = true
  · -- The condition for a note is what an attempt is to find.
    rw [if_pos hdue]
    refine ⟨⟨rfl, rfl, rfl⟩, fun h => (by cases h), fun a ha => ?_⟩
    cases ha
    unfold noteDue at hdue
    simp only [Bool.and_eq_true, Bool.not_eq_true', Option.isNone_iff_eq_none, decide_eq_true_eq,
      noteSentAt_barEdited, noteSentAt_stateOf] at hdue
    obtain ⟨⟨⟨⟨⟨-, hunstamped⟩, -⟩, hunprotected⟩, -⟩, hrecent⟩ := hdue
    refine
      { post := rfl
        author := rfl
        time := rfl
        unstamped := hunstamped
        unprotected := ?_
        apart := fun post sent hauthor hsent => lt_of_not_recent hrecent hauthor hsent
        authors := rfl
        stamp := fun post => ?_
        pileon := fun _ h => h }
    · intro hmem
      rw [List.contains_iff_mem.mpr hmem] at hunprotected
      cases hunprotected
    · show ((db.states.set p.id _).get? post).bind _ = _
      rw [KeyMap.get?_set]
      by_cases hpost : post = p.id
      · rw [if_pos hpost, if_pos hpost]
        rfl
      · rw [if_neg hpost, if_neg hpost]
        rfl
  · rw [if_neg hdue]
    refine ⟨⟨rfl, rfl, rfl⟩, fun _ => ⟨fun _ _ h => h, fun post => ?_, fun _ h => h⟩,
      fun _ h => (by cases h)⟩
    -- The row of the state is written with the stamp that it has.
    show ((db.states.set p.id _).get? post).bind _ = _
    rw [KeyMap.get?_set]
    by_cases hpost : post = p.id
    · rw [if_pos hpost, Option.bind_some, noteSentAt_barEdited, noteSentAt_stateOf, hpost]
    · rw [if_neg hpost]
      rfl

theorem visited_escalate {w : Sweep} {r : Visit}
    (h : Visited start p w db r) (config : ConcernConfig) (count : Nat) :
    Visited start p w db (r.escalate config p count) := by
  unfold Visit.escalate
  dsimp only
  split
  · have hreview : Kept r.db
        (r.db.openReview .concernEscalated (some p.id) (some p.row.author)).1 :=
      kept_openReview (by decide) _ _
    refine ⟨⟨h.same.now, h.same.posts, h.same.protectedAuthors⟩, fun hnone => ?_, fun a ha => ?_⟩
    · exact (h.kept hnone).trans hreview
    · have hattempted := h.attempted a ha
      exact
        { hattempted with
          authors := (posts_openReview ..).trans hattempted.authors
          stamp := fun post => (hreview.stamp post).trans (hattempted.stamp post)
          pileon := fun author hopen => hattempted.pileon author (hreview.pileon author hopen) }
  · exact h

theorem attempt_escalate (config : ConcernConfig) (p : LoadedPost) (count : Nat) (r : Visit) :
    (r.escalate config p count).attempt = r.attempt := by
  unfold Visit.escalate
  dsimp only
  split <;> rfl

theorem visited_teenConcern (config : ConcernConfig) (start : Nat) (p : LoadedPost) (count : Nat)
    (w : Sweep) (db : ConcernDb) : Visited start p w db (teenConcern config p count w db) := by
  unfold teenConcern
  split
  · exact ⟨⟨rfl, rfl, rfl⟩, fun _ => kept_openReview (by decide) _ _, fun _ h => (by cases h)⟩
  · exact visited_idle start p w db

theorem attempt_teenConcern (config : ConcernConfig) (p : LoadedPost) (count : Nat) (w : Sweep)
    (db : ConcernDb) : (teenConcern config p count w db).attempt = none := by
  unfold teenConcern
  split <;> rfl

theorem attempt_ladder (config : ConcernConfig) (start : Nat) (p : LoadedPost) (count : Nat)
    (w : Sweep) (db : ConcernDb) :
    (ladder config start p count w db).attempt.isSome = noteDue config start p count w db := by
  unfold ladder
  by_cases hdue : noteDue config start p count w db = true
  · rw [if_pos hdue, hdue]
    rfl
  · rw [if_neg hdue, Bool.eq_false_of_not_eq_true hdue]
    rfl

end

/-! ### The services -/

namespace Py

/-- A visible post in a visible adult thread, whose ladder attempts a note. -/
def due (config : ConcernConfig) (p : LoadedPost) (w : Sweep) (db : ConcernDb) : Bool :=
  let count := db.flaggers p w.downweighted
  !p.row.hidden && !p.owner.hidden && p.owner.cohort == .adult &&
    noteDue config (daysBefore config.formativeNoteCooldownDays w.now) p count
      (if config.concernK1 ≤ count then w.countAudience db p.row.thread else w) db

theorem visited_evaluatePost (config : ConcernConfig) (p : LoadedPost) (w : Sweep)
    (db : ConcernDb) :
    Visited (daysBefore config.formativeNoteCooldownDays w.now) p w db
      (evaluatePost config p w db) := by
  unfold evaluatePost
  by_cases hhidden : p.row.hidden = true
  · rw [if_pos hhidden]
    exact visited_idle ..
  rw [if_neg hhidden]
  by_cases howner : p.owner.hidden = true
  · rw [if_pos howner]
    exact visited_idle ..
  rw [if_neg howner]
  dsimp only
  cases p.owner.cohort with
  | child => exact visited_idle ..
  | teen => exact visited_teenConcern ..
  | adult =>
    -- The audience may have been counted first, which changes nothing else of the run.
    refine visited_escalate ?_ config _
    have hladder := visited_ladder config (daysBefore config.formativeNoteCooldownDays w.now) p
      (db.flaggers p w.downweighted)
    unfold adultLadder
    split
    · exact (hladder _ db).of_same (same_countAudience w db p.row.thread)
    · exact hladder w db
  | unassigned => exact visited_idle ..

theorem attempt_evaluatePost (config : ConcernConfig) (p : LoadedPost) (w : Sweep)
    (db : ConcernDb) : (evaluatePost config p w db).attempt.isSome = due config p w db := by
  unfold evaluatePost due
  by_cases hhidden : p.row.hidden = true
  · rw [if_pos hhidden, hhidden]
    rfl
  rw [if_neg hhidden, Bool.eq_false_of_not_eq_true hhidden]
  by_cases howner : p.owner.hidden = true
  · rw [if_pos howner, howner]
    rfl
  rw [if_neg howner, Bool.eq_false_of_not_eq_true howner]
  dsimp only
  cases p.owner.cohort with
  | child => rfl
  | teen =>
    dsimp only
    rw [attempt_teenConcern]
    rfl
  | adult =>
    dsimp only
    rw [attempt_escalate]
    exact attempt_ladder ..
  | unassigned => rfl

/-- The Python services. -/
def service (config : ConcernConfig) : ConcernService where
  begin := begin config
  refill := refill
  evaluatePost := evaluatePost config
  editPost := editPost
  cooldownStart := daysBefore config.formativeNoteCooldownDays
  due := due config
  begin_posts := fun _ db => posts_sensorPileon _ db
  begin_stamp := fun now db post => by
    show ((sensorPileon (daysBefore 7 now) db).1.states.get? post).bind _ = _
    rw [states_sensorPileon]
    rfl
  begin_pileon := fun _ _ _ h => openPileon_sensorPileon h
  -- The sweep loads the posts once, after the sensors have run.
  begin_loaded := fun now db p hp => by
    have hloaded := authorOf_of_mem_loadPosts hp
    unfold ConcernDb.authorOf at hloaded ⊢
    rw [(shield_spec _ db).1] at hloaded
    exact hloaded
  -- Python loads all posts at the start, so no refill succeeds.
  refill_same := fun _ _ _ h => by cases h
  visit_same := fun p w db => (visited_evaluatePost config p w db).same
  visit_kept := fun p w db => (visited_evaluatePost config p w db).kept
  visit_attempted := fun p w db => (visited_evaluatePost config p w db).attempted
  due_iff := attempt_evaluatePost config
  edit_kept := fun post now db =>
    ⟨fun other author h => (@authorOf_modify db post (fun row => { row with updatedAt := now })
      (fun _ => rfl) other).trans h, fun _ => rfl, fun _ h => h⟩

end Py

namespace Go

/-- A post in a visible adult thread, whose ladder attempts a note. -/
def due (z : Zone) (config : ConcernConfig) (p : LoadedPost) (w : Sweep) (db : ConcernDb) : Bool :=
  !p.owner.hidden && p.owner.cohort == .adult &&
    noteDue config (addDate z config.formativeNoteCooldownDays w.now) p
      (db.flaggers p w.downweighted) (w.countAudience db p.row.thread) db

theorem visited_evaluatePost (z : Zone) (config : ConcernConfig) (p : LoadedPost) (w : Sweep)
    (db : ConcernDb) :
    Visited (addDate z config.formativeNoteCooldownDays w.now) p w db
      (evaluatePost z config p w db) := by
  unfold evaluatePost
  split
  · exact visited_idle ..
  · dsimp only
    split
    · exact visited_teenConcern ..
    · refine visited_escalate ?_ config _
      have hladder := visited_ladder config (addDate z config.formativeNoteCooldownDays w.now) p
        (db.flaggers p w.downweighted) (w.countAudience db p.row.thread) db
      exact hladder.of_same (same_countAudience w db p.row.thread)

theorem attempt_evaluatePost (z : Zone) (config : ConcernConfig) (p : LoadedPost) (w : Sweep)
    (db : ConcernDb) : (evaluatePost z config p w db).attempt.isSome = due z config p w db := by
  unfold evaluatePost due
  by_cases howner : p.owner.hidden = true
  · rw [howner]
    rfl
  rw [Bool.eq_false_of_not_eq_true howner]
  cases p.owner.cohort with
  | child => rfl
  | teen =>
    show (teenConcern config p (db.flaggers p w.downweighted) w db).attempt.isSome = false
    rw [attempt_teenConcern]
    rfl
  | adult =>
    show ((adultLadder z config p (db.flaggers p w.downweighted) w db).escalate config p
      (db.flaggers p w.downweighted)).attempt.isSome = _
    rw [attempt_escalate]
    exact attempt_ladder ..
  | unassigned => rfl

theorem refill_spec {w w' : Sweep} {db : ConcernDb} (h : refill w db = some w') :
    w'.protectedAuthors = w.protectedAuthors ∧
      ∀ p ∈ w'.posts, db.authorOf p.id = some p.row.author := by
  unfold refill at h
  cases hbatch : (db.loadPosts.filter fun p =>
      decide (w.after < p.id) && !p.row.hidden).take 1000 with
  | nil =>
    rw [hbatch] at h
    cases h
  | cons first rest =>
    rw [hbatch] at h
    cases h
    refine ⟨rfl, fun p hp => ?_⟩
    have hmem : p ∈ first :: rest := hp
    rw [← hbatch] at hmem
    exact authorOf_of_mem_loadPosts (List.mem_of_mem_filter (List.mem_of_mem_take hmem))

theorem edit_kept (post now : Nat) (db : ConcernDb) : Kept db (editPost post now db) := by
  refine ⟨fun other author h => (@authorOf_modify db post (fun row => { row with updatedAt := now })
    (fun _ => rfl) other).trans h, fun other => ?_, fun _ h => h⟩
  unfold editPost ConcernDb.stampOf
  dsimp only
  cases hstate : db.states.get? post with
  | none => rfl
  | some =>
    dsimp only
    split
    · -- The bar is written with the stamp that the row has.
      rw [KeyMap.get?_set]
      by_cases hother : other = post
      · rw [if_pos hother, hother, hstate]
        rfl
      · rw [if_neg hother]
    · rfl

/-- The Go server, whose clock is in the zone `z`. -/
def service (z : Zone) (config : ConcernConfig) : ConcernService where
  begin := begin z config
  refill := refill
  evaluatePost := evaluatePost z config
  editPost := editPost
  cooldownStart := addDate z config.formativeNoteCooldownDays
  due := due z config
  begin_posts := fun _ db => posts_sensorPileon _ db
  begin_stamp := fun now db post => by
    show ((sensorPileon (addDate z 7 now) db).1.states.get? post).bind _ = _
    rw [states_sensorPileon]
    rfl
  begin_pileon := fun _ _ _ h => openPileon_sensorPileon h
  begin_loaded := fun _ _ _ hp => by cases hp
  refill_same := fun _ _ _ h => refill_spec h
  visit_same := fun p w db => (visited_evaluatePost z config p w db).same
  visit_kept := fun p w db => (visited_evaluatePost z config p w db).kept
  visit_attempted := fun p w db => (visited_evaluatePost z config p w db).attempted
  due_iff := attempt_evaluatePost z config
  edit_kept := edit_kept

end Go

/-- In both implementations the notes of any sequence of runs, whatever else happens between their
steps, keep the caps if and only if no visit is due for an author in a minor cohort. The attempts
for an author are more than the cooldown apart; the Go server counts its days by its clock. -/
theorem concern_caps (config : ConcernConfig) (z : Zone) :
    (∀ db ops, (Py.service config).Caps
      (fun t u => t + config.formativeNoteCooldownDays * dayLength < u) db ops ↔
        ∀ q ∈ steps (Py.service config).step ⟨db, none⟩ ops, ¬(Py.service config).MinorDue q.1 q.2) ∧
    ∀ db ops, (Go.service z config).Caps
      (fun t u => t < Go.addDate z config.formativeNoteCooldownDays u) db ops ↔
        ∀ q ∈ steps (Go.service z config).step ⟨db, none⟩ ops,
          ¬(Go.service z config).MinorDue q.1 q.2 := by
  constructor
  · intro db ops
    refine ConcernService.caps_iff _ (fun t u h => ?_) db ops
    have hbefore : t < u - config.formativeNoteCooldownDays * dayLength := h
    exact Nat.lt_sub_iff_add_lt.mp hbefore
  · intro db ops
    exact ConcernService.caps_iff _ (fun _ _ h => h) db ops

/-- The default settings. -/
def defaultConcernConfig : ConcernConfig where
  concernK1 := 2
  concernK2 := 4
  concernTeenK := 3
  concernAudienceFloor := 8
  formativeNoteCooldownDays := 14

/-- A post of an adult in an adult activity, with the concerns of two members. -/
def sampleConcernDb : ConcernDb where
  threads := fun _ => ⟨false, 1, .adult, false⟩
  posts := Table.empty.insert ⟨1, 1, 0, false⟩
  concerns := (KeyMap.empty.set (1, 2) 1).set (1, 3) 1
  states := KeyMap.empty
  reviews := Table.empty
  cohort := fun _ => .adult
  muted := fun _ => false
  audience := fun _ => 8
  lastRunAt := none
  notes := []
  audit := []

/-- The author proves an age of sixteen, and the next run gives them a note. -/
theorem note_to_a_teen : ¬(Py.service defaultConcernConfig).Caps
    (fun t u => t + defaultConcernConfig.formativeNoteCooldownDays * dayLength < u)
    sampleConcernDb [.applyAssurance 1 .teen, .evaluate dayLength, .next false] := by
  intro h
  have hgrown := h.grown (_, .next false) ((Lib.Machine.mem_steps _).mpr
    ⟨[.applyAssurance 1 .teen, .evaluate dayLength], [], rfl, rfl⟩) ⟨1, 1, dayLength, true⟩
    (by decide +kernel)
  exact hgrown.1 (by decide +kernel)

end SocialActivities.Social
