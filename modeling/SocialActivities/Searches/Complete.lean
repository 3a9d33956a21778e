import SocialActivities.Searches.Match

/-!
# `SocialActivities.Searches.Complete`: what a run has matched (Go)

A run records what its queries return and what fits the window, unless it stops (`recorded_of_offer`,
`offer_of_recorded`). The `LIMIT` is taken before the window is asked, so a query may be filled by
rows that do not fit, and the rows that do are cut off. `Returned` says that a query returns a row, and
`saved_search_matching` that a run which does not stop is complete exactly when every pair is returned
to a search of its owner that it satisfies.
-/

namespace SocialActivities.Searches

open Lib

variable {env : Env} {b : Board}

/-! ### The loop over rows -/

/-- What a run keeps as it goes on. -/
structure Sweep.Grows (w w' : Sweep) : Prop where
  recorded : ∀ m ∈ w.book.matches_, m ∈ w'.book.matches_
  scanned : w.scanned ≤ w'.scanned
  limited : w.limited = true → w'.limited = true

namespace Sweep.Grows

theorem refl (w : Sweep) : w.Grows w := ⟨fun _ h => h, Nat.le_refl _, id⟩

theorem trans {w w' w'' : Sweep} (h : w.Grows w') (h' : w'.Grows w'') : w.Grows w'' :=
  ⟨fun m hm => h'.recorded m (h.recorded m hm), h.scanned.trans h'.scanned,
    fun hl => h'.limited (h.limited hl)⟩

end Sweep.Grows

/-- The state after the budget of a notice was charged. -/
def charge (env : Env) (b : Board) (user : Nat) (w : Sweep) : Sweep :=
  { w with book := { w.book with budgets := (searchBudget env b w.book.budgets user).1 } }

theorem matchOffers_cons (user : Nat) (o : Offer) (os : List Offer) (w : Sweep) :
    (o.fits = false ∧ matchOffers env b user (o :: os) w = matchOffers env b user os w) ∨
      (env.savedSearchMatchBatch ≤ w.scanned ∧ matchOffers env b user (o :: os) w = w) ∨
      (∃ w', w' = { charge env b user w with limited := true } ∧
        matchOffers env b user (o :: os) w = w') ∨
      ((user, o.subject) ∈ w.book.matches_ ∧
        matchOffers env b user (o :: os) w = matchOffers env b user os (charge env b user w)) ∨
      (o.fits = true ∧ (user, o.subject) ∉ w.book.matches_ ∧
        matchOffers env b user (o :: os) w =
          matchOffers env b user os (recordMatch b user o (charge env b user w))) := by
  cases hfits : o.fits with
  | false =>
    left
    refine ⟨rfl, ?_⟩
    rw [matchOffers, hfits]
    rfl
  | true =>
    right
    by_cases hfull : env.savedSearchMatchBatch ≤ w.scanned
    · left
      refine ⟨hfull, ?_⟩
      rw [matchOffers, hfits, if_neg (by decide), if_pos hfull]
    · right
      have hcons : matchOffers env b user (o :: os) w =
          if !(searchBudget env b w.book.budgets user).2 then { charge env b user w with limited := true }
          else if w.book.matches_.contains (user, o.subject) then
            matchOffers env b user os (charge env b user w)
          else matchOffers env b user os (recordMatch b user o (charge env b user w)) := by
        rw [matchOffers, hfits, if_neg (by decide), if_neg hfull]
        rfl
      rw [hcons]
      split
      · exact Or.inl ⟨_, rfl, rfl⟩
      · split
        · next hmatched =>
          exact Or.inr (Or.inl ⟨List.contains_iff_mem.mp hmatched, rfl⟩)
        · next hnew =>
          exact Or.inr (Or.inr ⟨rfl, fun hmem => hnew (List.contains_iff_mem.mpr hmem), rfl⟩)

theorem grows_charge (user : Nat) (w : Sweep) : w.Grows (charge env b user w) :=
  ⟨fun _ h => h, Nat.le_refl _, id⟩

theorem grows_recordMatch (user : Nat) (o : Offer) (w : Sweep) : w.Grows (recordMatch b user o w) :=
  ⟨fun _ h => List.mem_append_left _ h, Nat.le_succ _, id⟩

theorem grows_matchOffers (user : Nat) (os : List Offer) (w : Sweep) :
    w.Grows (matchOffers env b user os w) := by
  induction os generalizing w with
  | nil => exact Sweep.Grows.refl w
  | cons o os ih =>
    rcases matchOffers_cons user o os w with ⟨_, h⟩ | ⟨_, h⟩ | ⟨w', hw, h⟩ | ⟨_, h⟩ | ⟨_, _, h⟩
    · rw [h]
      exact ih w
    · rw [h]
      exact Sweep.Grows.refl w
    · rw [h, hw]
      exact ⟨fun _ hm => hm, Nat.le_refl _, fun _ => rfl⟩
    · rw [h]
      exact (grows_charge user w).trans (ih _)
    · rw [h]
      exact ((grows_charge user w).trans (grows_recordMatch user o _)).trans (ih _)

theorem recorded_of_offer (user : Nat) (os : List Offer) (w : Sweep)
    (hroom : (matchOffers env b user os w).scanned < env.savedSearchMatchBatch)
    (hfree : (matchOffers env b user os w).limited = false) {o : Offer} (ho : o ∈ os)
    (hfits : o.fits = true) : (user, o.subject) ∈ (matchOffers env b user os w).book.matches_ := by
  induction os generalizing w with
  | nil => cases ho
  | cons x os ih =>
    rcases matchOffers_cons user x os w with ⟨hx, h⟩ | ⟨hfull, h⟩ | ⟨w', hw, h⟩ | ⟨hmem, h⟩ | ⟨_, _, h⟩
    · rw [h] at hroom hfree ⊢
      rcases List.mem_cons.mp ho with heq | ho
      · rw [heq, hx] at hfits
        cases hfits
      · exact ih w hroom hfree ho
    · rw [h] at hroom
      omega
    · rw [h, hw] at hfree
      cases hfree
    · rw [h] at hroom hfree ⊢
      rcases List.mem_cons.mp ho with heq | ho
      · rw [heq]
        exact (grows_matchOffers user os _).recorded _ hmem
      · exact ih _ hroom hfree ho
    · rw [h] at hroom hfree ⊢
      rcases List.mem_cons.mp ho with heq | ho
      · rw [heq]
        exact (grows_matchOffers user os _).recorded _ (List.mem_append_right _ List.mem_cons_self)
      · exact ih _ hroom hfree ho

theorem offer_of_recorded (user : Nat) (os : List Offer) (w : Sweep) {m : Nat × Subject}
    (hm : m ∈ (matchOffers env b user os w).book.matches_) (hnew : m ∉ w.book.matches_) :
    m.1 = user ∧ ∃ o ∈ os, o.subject = m.2 ∧ o.fits = true := by
  induction os generalizing w with
  | nil => exact absurd hm hnew
  | cons x os ih =>
    have hrest : (m.1 = user ∧ ∃ o ∈ os, o.subject = m.2 ∧ o.fits = true) →
        m.1 = user ∧ ∃ o ∈ x :: os, o.subject = m.2 ∧ o.fits = true := by
      rintro ⟨huser, o, ho, hrow⟩
      exact ⟨huser, o, List.mem_cons_of_mem _ ho, hrow⟩
    rcases matchOffers_cons user x os w with ⟨_, h⟩ | ⟨_, h⟩ | ⟨w', hw, h⟩ | ⟨_, h⟩ | ⟨hx, _, h⟩
    · rw [h] at hm
      exact hrest (ih w hm hnew)
    · rw [h] at hm
      exact absurd hm hnew
    · rw [h, hw] at hm
      exact absurd hm hnew
    · rw [h] at hm
      exact hrest (ih _ hm hnew)
    · rw [h] at hm
      by_cases hthis : m = (user, x.subject)
      · rw [hthis]
        exact ⟨rfl, x, List.mem_cons_self, rfl, hx⟩
      · refine hrest (ih _ hm fun hmem => ?_)
        rcases List.mem_append.mp hmem with hold | hmem
        · exact hnew hold
        · exact hthis (List.mem_singleton.mp hmem)

/-! ### One notice for each entry -/

/-- What a notice is about, and for whom. -/
def Notice.key (n : Notice) : Nat × Subject := (n.recipient, n.subject)

/-- Notices are about entries of the ledgers, one at most for each. -/
structure Book.Once (book : Book) : Prop where
  entered : ∀ n ∈ book.notices, n.key ∈ book.matches_
  once : (book.notices.map Notice.key).Nodup

variable {user : Nat}

theorem once_recordMatch {o : Offer} {w : Sweep} (h : w.book.Once)
    (hnew : (user, o.subject) ∉ w.book.matches_) : (recordMatch b user o w).book.Once := by
  have hold : ∀ n ∈ w.book.notices, n.key ∈ w.book.matches_ ++ [(user, o.subject)] := fun n hn =>
    List.mem_append_left _ (h.entered n hn)
  unfold recordMatch
  cases !b.muted.contains (user, o.subject.kind) with
  | false => exact ⟨hold, h.once⟩
  | true =>
    constructor
    · intro n hn
      rcases List.mem_append.mp hn with hn | hn
      · exact hold n hn
      · rw [List.mem_singleton.mp hn]
        exact List.mem_append_right _ List.mem_cons_self
    · show ((w.book.notices ++ [_]).map Notice.key).Nodup
      rw [List.map_append, List.nodup_append]
      refine ⟨h.once, List.nodup_singleton _, ?_⟩
      intro m hm m' hm' heq
      have ⟨n, hn, hkey⟩ := List.mem_map.mp hm
      rw [List.map_singleton, List.mem_singleton] at hm'
      have hentry := h.entered n hn
      rw [hkey, heq, hm'] at hentry
      exact hnew hentry

theorem once_matchOffers (os : List Offer) {w : Sweep} (h : w.book.Once) :
    (matchOffers env b user os w).book.Once := by
  induction os generalizing w with
  | nil => exact h
  | cons o os ih =>
    rcases matchOffers_cons user o os w with ⟨_, hw⟩ | ⟨_, hw⟩ | ⟨w', hcharge, hw⟩ | ⟨_, hw⟩ |
      ⟨_, hnew, hw⟩
    · rw [hw]
      exact ih h
    · rw [hw]
      exact h
    · rw [hw, hcharge]
      exact ⟨h.entered, h.once⟩
    · rw [hw]
      exact ih ⟨h.entered, h.once⟩
    · rw [hw]
      exact ih (once_recordMatch (w := charge env b user w) ⟨h.entered, h.once⟩ hnew)

/-! ### The transaction of a search -/

variable {fails : Nat → Bool}

theorem grows_matchActivities (search : SavedSearch) (w : Sweep) :
    w.Grows (matchActivities env b search w) := grows_matchOffers _ _ w

theorem grows_matchGauges (search : SavedSearch) (w : Sweep) : w.Grows (matchGauges env b search w) := by
  unfold matchGauges
  split
  · exact Sweep.Grows.refl w
  · exact grows_matchOffers _ _ w

/-- The transaction goes ahead: its owner may be told, and it commits. -/
def Runs (b : Board) (fails : Nat → Bool) (search : SavedSearch) : Prop :=
  fails search.id = false ∧ (b.users.get? search.user).any (eligible search) = true

theorem matchSearch_cases (w : Sweep) (search : SavedSearch) :
    (Runs b fails search ∧ matchSearch env b fails w search =
        matchGauges env b search (matchActivities env b search w)) ∨
      (env.savedSearchMatchBatch ≤ w.scanned ∨ ¬Runs b fails search) ∧
        ∃ skipped, matchSearch env b fails w search = { w with skipped := skipped } := by
  unfold matchSearch Runs
  by_cases hfull : env.savedSearchMatchBatch ≤ w.scanned
  · rw [if_pos hfull]
    exact Or.inr ⟨Or.inl hfull, w.skipped, rfl⟩
  · rw [if_neg hfull]
    cases hget : b.users.get? search.user with
    | none => exact Or.inr ⟨Or.inr (by simp), _, rfl⟩
    | some a =>
      cases hfails : fails search.id with
      | true => exact Or.inr ⟨Or.inr (by simp), _, rfl⟩
      | false =>
        by_cases heligible : eligible search a = true
        · left
          refine ⟨⟨rfl, heligible⟩, ?_⟩
          simp only [Bool.false_eq_true, if_false, if_pos heligible]
        · right
          refine ⟨Or.inr fun h => heligible h.2, w.skipped, ?_⟩
          simp only [Bool.false_eq_true, if_false, if_neg heligible]

theorem grows_matchSearch (w : Sweep) (search : SavedSearch) :
    w.Grows (matchSearch env b fails w search) := by
  rcases @matchSearch_cases env b fails w search with ⟨_, h⟩ | ⟨_, skipped, h⟩
  · rw [h]
    exact (grows_matchActivities search w).trans (grows_matchGauges search _)
  · rw [h]
    exact ⟨fun _ hm => hm, Nat.le_refl _, id⟩

theorem once_matchSearch {w : Sweep} (h : w.book.Once) (search : SavedSearch) :
    (matchSearch env b fails w search).book.Once := by
  rcases @matchSearch_cases env b fails w search with ⟨_, hw⟩ | ⟨_, skipped, hw⟩
  · rw [hw]
    unfold matchGauges
    split
    · exact once_matchOffers _ h
    · exact once_matchOffers _ (once_matchOffers _ h)
  · rw [hw]
    exact h

/-- The search finds the activity, and it fits its window. -/
def Satisfies (env : Env) (b : Board) (search : SavedSearch) (a : Activity) : Prop :=
  (b.users.get? search.user).any (eligible search) = true ∧ activityMatches env b search a = true ∧
    scheduleFits (env.zone.wall a.startsAt) search.window = true

/-- The first query of the search returns the activity. -/
def Returned (env : Env) (b : Board) (w : Sweep) (search : SavedSearch) (id : Nat) (a : Activity) : Prop :=
  (id, a) ∈ activityPage env b w.book search (w.left env)

/-- A transaction that does not stop records what fits of what its query returns. -/
theorem recorded_of_returned {w : Sweep} {search : SavedSearch} {id : Nat} {a : Activity}
    (hroom : (matchSearch env b fails w search).scanned < env.savedSearchMatchBatch)
    (hfree : (matchSearch env b fails w search).limited = false) (hfails : fails search.id = false)
    (hsatisfies : Satisfies env b search a) (hreturned : Returned env b w search id a) :
    (search.user, .activity id) ∈ (matchSearch env b fails w search).book.matches_ := by
  have hgrows := @grows_matchSearch env b fails w search
  rcases @matchSearch_cases env b fails w search with ⟨_, h⟩ | ⟨hfull | hno, _⟩
  · rw [h] at hroom hfree ⊢
    have hgauges := @grows_matchGauges env b search (matchActivities env b search w)
    refine hgauges.recorded _ ?_
    refine recorded_of_offer search.user _ w (hgauges.scanned.trans_lt hroom) ?_
      (List.mem_map.mpr ⟨(id, a), hreturned, rfl⟩) hsatisfies.2.2
    rw [Bool.eq_false_iff]
    intro hlimited
    rw [hgauges.limited hlimited] at hfree
    cases hfree
  · have hle := hgrows.scanned
    omega
  · exact absurd ⟨hfails, hsatisfies.1⟩ hno

/-- What a transaction records of activities was returned to its query, and satisfies its search. -/
theorem returned_of_recorded {w : Sweep} {search : SavedSearch} {id : Nat}
    (hm : (user, .activity id) ∈ (matchSearch env b fails w search).book.matches_)
    (hnew : (user, .activity id) ∉ w.book.matches_) :
    search.user = user ∧ fails search.id = false ∧ ∃ a, b.activities.get? id = some a ∧
      Satisfies env b search a ∧ Returned env b w search id a := by
  rcases @matchSearch_cases env b fails w search with ⟨hruns, h⟩ | ⟨_, skipped, h⟩
  · rw [h] at hm
    -- The gauges record no activity.
    have hfirst : (user, Subject.activity id) ∈ (matchActivities env b search w).book.matches_ := by
      by_contra hno
      unfold matchGauges at hm
      split at hm
      · exact hno hm
      · have ⟨_, o, ho, hsubject, _⟩ := offer_of_recorded search.user _ _ hm hno
        have ⟨e, _, hoffer⟩ := List.mem_map.mp ho
        rw [← hoffer] at hsubject
        cases hsubject
    have ⟨huser, o, ho, hsubject, hfits⟩ := offer_of_recorded search.user _ w hfirst hnew
    have ⟨⟨id', a⟩, hreturned, hoffer⟩ := List.mem_map.mp ho
    rw [← hoffer] at hsubject hfits
    cases hsubject
    have ⟨hmem, hmatches⟩ := List.mem_filter.mp (mem_of_mem_firstBy hreturned)
    rw [Bool.and_eq_true] at hmatches
    exact ⟨huser.symm, hruns.1, a, KeyMap.mem_entries_iff.mp hmem, ⟨hruns.2, hmatches.1, hfits⟩, hreturned⟩
  · rw [h] at hm
    exact absurd hm hnew

/-! ### Runs -/

/-- A run that ends below its batch, and that no limit of a user has stopped. -/
def Ends (env : Env) (b : Board) (fails : Nat → Bool) (book : Book) : Prop :=
  (matchSavedSearches env b fails book).scanned < env.savedSearchMatchBatch ∧
    (matchSavedSearches env b fails book).limited = false

/-- Every pair that satisfies a search and has no entry is recorded. -/
def Complete (env : Env) (b : Board) (fails : Nat → Bool) (book : Book) : Prop :=
  ∀ search ∈ b.searches, ∀ id a, b.activities.get? id = some a → Satisfies env b search a →
    (search.user, .activity id) ∉ book.matches_ →
    (search.user, .activity id) ∈ (matchSavedSearches env b fails book).book.matches_

/-- Every such pair is returned to the query of a search of its owner that it satisfies, and whose
transaction does not fail. -/
def AllReturned (env : Env) (b : Board) (fails : Nat → Bool) (book : Book) : Prop :=
  ∀ search ∈ b.searches, ∀ id a, b.activities.get? id = some a → Satisfies env b search a →
    (search.user, .activity id) ∉ book.matches_ →
    ∃ q ∈ Machine.steps (matchSearch env b fails) ⟨book, 0, 0, 0, false⟩ b.searches,
      q.2.user = search.user ∧ fails q.2.id = false ∧ Satisfies env b q.2 a ∧ Returned env b q.1 q.2 id a

theorem grows_run (searches : List SavedSearch) (w : Sweep) :
    w.Grows (Machine.run (matchSearch env b fails) w searches) :=
  @Machine.run_invariant _ _ (matchSearch env b fails) w.Grows
    (fun w' search h => h.trans (grows_matchSearch w' search)) w (Sweep.Grows.refl w) searches

theorem complete_iff (book : Book) (hends : Ends env b fails book) :
    Complete env b fails book ↔ AllReturned env b fails book := by
  constructor
  · intro hcomplete search hsearch id a hget hsatisfies hnew
    have ⟨⟨w, q⟩, hq, hbefore, hafter⟩ := @Machine.exists_turn _ _ (matchSearch env b fails)
      (fun w : Sweep => (search.user, Subject.activity id) ∈ w.book.matches_) _ _ hnew
      (hcomplete search hsearch id a hget hsatisfies hnew)
    have ⟨huser, hfails, a', hget', hsat, hreturned⟩ := returned_of_recorded hafter hbefore
    rw [hget] at hget'
    cases hget'
    exact ⟨(w, q), hq, huser, hfails, hsat, hreturned⟩
  · intro hall search hsearch id a hget hsatisfies hnew
    have ⟨⟨w, q⟩, hq, huser, hfails, hsat, hreturned⟩ := hall search hsearch id a hget hsatisfies hnew
    have ⟨before, after, hsplit, hw⟩ := (Machine.mem_steps (matchSearch env b fails)).mp hq
    -- The run goes on after the step, and ends without having stopped.
    have hrest : matchSavedSearches env b fails book =
        Machine.run (matchSearch env b fails) (matchSearch env b fails w q) after := by
      unfold matchSavedSearches
      rw [hsplit, Machine.run_append, Machine.run_cons, ← hw]
    have hgrows := @grows_run env b fails after (matchSearch env b fails w q)
    rw [← hrest] at hgrows
    have hroom := hgrows.scanned.trans_lt hends.1
    have hfree : (matchSearch env b fails w q).limited = false := by
      rw [Bool.eq_false_iff]
      intro hlimited
      have hfree := hends.2
      rw [hgrows.limited hlimited] at hfree
      cases hfree
    have hrecorded := recorded_of_returned hroom hfree hfails hsat hreturned
    dsimp only at huser
    rw [huser] at hrecorded
    exact hgrows.recorded _ hrecorded

/-! ### Histories -/

structure World where
  board : Board
  book : Book

inductive Event where
  /-- Other code changes the tables that a run reads. -/
  | change (b : Board)
  | sweep (fails : Nat → Bool)
  /-- One transaction of a run beside it, with the count that run has. -/
  | overlap (search : SavedSearch) (scanned : Nat) (fails : Bool)

def worldStep (env : Env) (w : World) : Event → World
  | .change b => { w with board := b }
  | .sweep fails => { w with book := (matchSavedSearches env w.board fails w.book).book }
  | .overlap search scanned fails =>
    { w with book := (matchSearch env w.board (fun _ => fails) ⟨w.book, scanned, 0, 0, false⟩ search).book }

theorem once_worldStep {w : World} (h : w.book.Once) (e : Event) : (worldStep env w e).book.Once := by
  cases e with
  | change => exact h
  | sweep fails =>
    exact @Machine.run_invariant _ _ (matchSearch env w.board fails) (fun x => x.book.Once)
      (fun x search hx => once_matchSearch hx search) ⟨w.book, 0, 0, 0, false⟩ h w.board.searches
  | overlap search scanned => exact once_matchSearch (w := ⟨w.book, scanned, 0, 0, false⟩) h search

/-- Over every history: a run that ends is complete exactly when its queries return every pair, and no
pair of a user and an activity is notified twice. -/
theorem saved_search_matching (env : Env) (b : Board) (events : List Event) :
    (∀ q ∈ Machine.steps (worldStep env) ⟨b, Book.empty⟩ events, ∀ fails, q.2 = .sweep fails →
      Ends env q.1.board fails q.1.book →
      (Complete env q.1.board fails q.1.book ↔ AllReturned env q.1.board fails q.1.book)) ∧
    ((Machine.run (worldStep env) ⟨b, Book.empty⟩ events).book.notices.map Notice.key).Nodup := by
  constructor
  · intro q _ fails _ hends
    exact complete_iff q.1.book hends
  · have hinv := @Machine.run_invariant _ _ (worldStep env) (fun w => w.book.Once)
      (fun w e h => once_worldStep h e) ⟨b, Book.empty⟩ ⟨fun n hn => (by cases hn), List.nodup_nil⟩ events
    exact hinv.once

/-- One row at a time, and a clock without offset. -/
def narrowEnv : Env := ⟨1, 50, 86400 * 10 ^ 6, Calendar.Zone.utc, id⟩

/-- An open activity of user 2 on a day, at an hour. -/
def activityOn (day hour : Nat) : Activity where
  cohort := .adult
  isHidden := false
  status := .open_
  startsAt := day * Calendar.dayLength + hour * (60 * 60 * 10 ^ 6)
  owner := 2
  place := 1
  type := 1
  secondaryTypes := []
  beginnersWelcome := false
  cost := .free
  title := "Football"

def eveningSearch : SavedSearch := ⟨1, 1, .adult, some 1, none, none, false, none, some .weekdayEvening⟩

/-- Two activities for the search, of which the first is on a Saturday (day 5) and the second on a Monday
evening (day 7). -/
def crowdedBoard : Board where
  now := 0
  searches := [eveningSearch]
  users := KeyMap.empty.set 1 ⟨.adult, true⟩
  types := KeyMap.empty.set 1 ⟨"football", 1⟩
  places := KeyMap.empty.set 1 ⟨"Park", "Cluj-Napoca"⟩
  areas := KeyMap.empty
  activities := (KeyMap.empty.set 1 (activityOn 5 12)).set 2 (activityOn 7 19)
  gauges := KeyMap.empty
  blocks := []
  muted := []

theorem crowdedBoard_run :
    matchSavedSearches narrowEnv crowdedBoard (fun _ => false) Book.empty =
      ⟨Book.empty, 0, 0, 0, false⟩ := by
  have hpage : activityPage narrowEnv crowdedBoard Book.empty eveningSearch 1 = [(1, activityOn 5 12)] := by
    unfold activityPage
    rw [firstBy_of_pairwise (by decide +kernel)]
    decide +kernel
  have hgauges : gaugePage narrowEnv crowdedBoard Book.empty eveningSearch 1 = [] :=
    firstBy_of_pairwise List.Pairwise.nil 1
  have hactivities : matchActivities narrowEnv crowdedBoard eveningSearch
      ⟨Book.empty, 0, 0, 0, false⟩ = ⟨Book.empty, 0, 0, 0, false⟩ := by
    show matchOffers _ _ _ ((activityPage narrowEnv crowdedBoard Book.empty eveningSearch 1).map _) _ = _
    rw [hpage]
    rfl
  have hruns : Runs crowdedBoard (fun _ => false) eveningSearch := ⟨rfl, by decide +kernel⟩
  show matchSearch narrowEnv crowdedBoard (fun _ => false) ⟨Book.empty, 0, 0, 0, false⟩ eveningSearch = _
  rcases @matchSearch_cases narrowEnv crowdedBoard (fun _ => false) ⟨Book.empty, 0, 0, 0, false⟩ eveningSearch
    with ⟨_, h⟩ | ⟨hfull | hno, _⟩
  · rw [h, hactivities]
    unfold matchGauges
    show matchOffers _ _ _ ((gaugePage narrowEnv crowdedBoard Book.empty eveningSearch 1).map _) _ = _
    rw [hgauges]
    rfl
  · exact absurd hfull (by decide)
  · exact absurd hruns hno

/-- The run ends below its batch and under the limits, and the activity on Monday is not recorded. -/
theorem fitting_activity_cut_off :
    Ends narrowEnv crowdedBoard (fun _ => false) Book.empty ∧
      ¬Complete narrowEnv crowdedBoard (fun _ => false) Book.empty := by
  constructor
  · unfold Ends
    rw [crowdedBoard_run]
    decide
  · intro hcomplete
    have hrecorded := hcomplete _ List.mem_cons_self 2 (activityOn 7 19) (by rfl)
      ⟨by decide +kernel, by decide +kernel, by decide +kernel⟩ List.not_mem_nil
    rw [crowdedBoard_run] at hrecorded
    cases hrecorded

end SocialActivities.Searches
