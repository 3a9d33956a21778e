import SocialActivities.Social.PyActivity
import SocialActivities.Social.Strictest

/-!
# `SocialActivities.Social.Preview`: how many meetups a child could join

`guardrail_preview` and `GuardrailPreview` tell a guardian how many of the next meetups their child
could join with the limits as they are. Meetups that the child is in already and full ones are left
out; the others are the candidates that are considered.

The query sorts by the start only in Python, so a preview is any result that the sort allows
(`Candidates`). `preview_counts` says that both count the considered candidates that the real gate
accepts. Neither takes limits that are not saved yet: `draft_not_previewed`.
-/

namespace SocialActivities.Social

open Lib

/-- The counts that a preview returns. -/
structure Counts where
  eligible : Nat
  total : Nat
  deriving DecidableEq

/-- The first `limit` rows of a query, sorted by their start. -/
structure Candidates (matching : List (Nat × State)) (limit : Nat) (found : List (Nat × State)) :
    Prop where
  sorted : ∃ all : List (Nat × State), all.Perm matching ∧
    all.Pairwise (fun a b => a.2.activity.startsAt ≤ b.2.activity.startsAt) ∧ found = all.take limit

/-- The user is in the activity or asks to be. -/
def State.isJoined (s : State) (user : Nat) : Bool :=
  (s.memberships.get? user).any fun m => m.state != .removed

/-- The candidates that a preview considers: not joined and not full. -/
def considered (ward : Nat) (found : List (Nat × State)) : List (Nat × State) :=
  found.filter fun a => !a.2.isJoined ward && !a.2.isFull

/-- The open activities that the user is in. -/
def openJoins (activities : List (Nat × State)) (user : Nat) : Nat :=
  activities.countP fun a => a.2.activity.status == .opened && a.2.isJoined user

/-! ### The Python services -/

namespace Py

/-- The activities, and what the gates read besides them. `rails` are the rows of the active
guardians: guardian, ward and limits. -/
structure World where
  env : Env
  activities : List (Nat × State)
  isBlocked : Nat → Nat → Bool
  rails : List (Nat × Nat × StoredRail)
  tax : Taxonomy
  localHour : Nat → Int
  localWeekday : Nat → Nat

namespace World

variable (w : World)

def railsOf (ward : Nat) : List StoredRail :=
  (w.rails.filter fun row => row.2.1 == ward).map fun row => row.2.2

/-- The row of one guardian, written anew. -/
def saveRail (guardian ward : Nat) (rail : StoredRail) : World :=
  { w with rails := (guardian, ward, rail) ::
      w.rails.filter fun row => !(row.1 == guardian && row.2.1 == ward) }

def meetup (user : Nat) (v : Activity) : Meetup :=
  ⟨v.guardianAccompanied, w.localHour v.startsAt, w.localWeekday v.startsAt,
    categoryAncestrySlugs w.tax v.activityType, openJoins w.activities user⟩

/-- `_passes_guardrails` on the saved rows. -/
def passesGuardrails (v : Activity) (user : Nat) : Bool :=
  Py.passesGuardrails (effectiveGuardrail (w.railsOf user)) (w.meetup user v)

def canJoin (user : Nat) (s : State) : Bool :=
  Py.canJoin { w.env with passesGuardrails := w.passesGuardrails s.activity } user s

/-- The rows that the query of the preview matches: `visible_activities`, open and upcoming. -/
def upcoming (ward : Nat) : List (Nat × State) :=
  w.activities.filter fun a =>
    w.env.cohort ward != .unassigned && a.2.activity.cohort == w.env.cohort ward
      && !a.2.activity.isHidden && !w.isBlocked ward a.2.activity.owner
      && a.2.activity.status == .opened && decide (w.env.now ≤ a.2.activity.startsAt)

/-- The loop of `guardrail_preview`. `cache` are the venues that were looked up. -/
def previewLoop (ward : Nat) (rail : Option Rail) : List (Nat × Bool) → Counts →
    List (Nat × State) → Counts
  | _, counts, [] => counts
  | cache, counts, (_, s) :: rest =>
    if s.isJoined ward then previewLoop ward rail cache counts rest
    else if s.isFull then previewLoop ward rail cache counts rest
    else
      let counts := { counts with total := counts.total + 1 }
      if !w.env.canParticipate ward then previewLoop ward rail cache counts rest
      else
        let venue := (cache.lookup s.activity.place).getD (w.env.isChildSafeVenue s.activity.place)
        let cache := if w.env.childPublicVenuesOnly then (s.activity.place, venue) :: cache else cache
        if w.env.childPublicVenuesOnly && !venue then previewLoop ward rail cache counts rest
        else if rail.isNone || Py.passesGuardrails rail (w.meetup ward s.activity) then
          previewLoop ward rail cache { counts with eligible := counts.eligible + 1 } rest
        else previewLoop ward rail cache counts rest

/-- `guardrail_preview` on the rows that its query returned. -/
def guardrailPreview (ward : Nat) (found : List (Nat × State)) : Option Counts :=
  if w.env.cohort ward != .child then none
  else some (w.previewLoop ward (effectiveGuardrail (w.railsOf ward)) [] ⟨0, 0⟩ found)

end World

end Py

/-! ### The Go server -/

namespace Go

/-- The activities, and what the gates read besides them. -/
structure World where
  env : Env
  activities : List (Nat × State)

namespace World

variable (w : World)

/-- The environment of the gates: the open joins are those of the activities. -/
def gates : Env := { w.env with openJoins := openJoins w.activities }

/-- `CanJoin`. The errors of the gates are answers here. -/
def canJoin (user : Nat) (s : State) : Bool :=
  match actorByID w.gates user with
  | .error _ => false
  | .ok fresh =>
    decide (1 ≤ user) && (participate w.gates fresh).isOk && (activity w.gates fresh s).isOk
      && s.activity.status == .opened && !s.isFull && !s.isJoined fresh.id
      && (childJoinGate w.gates fresh s.activity).isOk

/-- The rows that the query of the preview matches: `ActivityVisibilitySQL`, open and upcoming. -/
def upcoming (ward : Actor) : List (Nat × State) :=
  w.activities.filter fun a =>
    a.2.activity.cohort == ward.user.cohort && !a.2.activity.isHidden
      && !w.env.blocked ward.id a.2.activity.owner
      && a.2.activity.status == .opened && decide (w.env.now ≤ a.2.activity.startsAt)

/-- The bound of the query: 50 unless it is given and smaller. -/
def previewLimit (limit : Int) : Nat := if limit ≤ 0 then 50 else min limit.toNat 50

/-- `GuardrailPreview` on the rows that its query returned. -/
def guardrailPreview (guardian : Actor) (ward : Nat) (found : List (Nat × State)) :
    Except Error (Option Counts) := do
  need Error.errForbidden (decide (1 ≤ guardian.id) && guardian.user.isActive)
  need Error.errForbidden (w.env.guardianOf guardian.id ward)
  let ward ← actorByID w.gates ward
  if ward.user.cohort != .child then pure none
  else
    let ids := considered ward.id found
    match participate w.gates ward with
    | .error _ => pure (some ⟨0, ids.length⟩)
    | .ok _ => pure (some ⟨(ids.filter fun a => w.canJoin ward.id a.2).length, ids.length⟩)

end World

end Go

/-! ### The preview and the gate -/

section

variable {ward : Nat} {found : List (Nat × State)}

/-- What the loop asks of a candidate that it considers. -/
def Py.World.accepts (w : Py.World) (ward : Nat) (rail : Option Rail) (a : Nat × State) : Bool :=
  w.env.canParticipate ward
    && (!w.env.childPublicVenuesOnly || w.env.isChildSafeVenue a.2.activity.place)
    && Py.passesGuardrails rail (w.meetup ward a.2.activity)

/-- The cache holds what the venue check answers. -/
def Py.World.Cached (w : Py.World) (cache : List (Nat × Bool)) : Prop :=
  ∀ place ok, cache.lookup place = some ok → ok = w.env.isChildSafeVenue place

variable {w : Py.World}

theorem Py.World.Cached.getD {cache : List (Nat × Bool)} (h : w.Cached cache) (place : Nat) :
    (cache.lookup place).getD (w.env.isChildSafeVenue place) = w.env.isChildSafeVenue place := by
  cases hlookup : cache.lookup place with
  | none => rfl
  | some ok => exact h place ok hlookup

theorem Py.World.Cached.insert {cache : List (Nat × Bool)} (h : w.Cached cache)
    (place : Nat) (on : Bool) :
    w.Cached (if on = true then (place, w.env.isChildSafeVenue place) :: cache else cache) := by
  intro other ok hlookup
  split at hlookup
  · rw [List.lookup_cons] at hlookup
    split at hlookup
    · rename_i heq
      rw [beq_iff_eq] at heq
      rw [heq]
      exact (Option.some.inj hlookup).symm
    · exact h other ok hlookup
  · exact h other ok hlookup

variable {a : Nat × State}

theorem considered_skip (h : (!a.2.isJoined ward && !a.2.isFull) = false) :
    considered ward (a :: found) = considered ward found := by
  rw [considered, List.filter_cons, h]
  rfl

theorem length_filter_considered {accepts : Nat × State → Bool} {accepted : Bool}
    (haccepts : accepts a = accepted) :
    ((a :: considered ward found).filter accepts).length =
      ((considered ward found).filter accepts).length + accepted.toNat := by
  rw [List.filter_cons, haccepts]
  cases accepted <;> rfl

theorem Py.previewLoop_eq {rail : Option Rail} (cache : List (Nat × Bool))
    (counts : Counts) (hcache : w.Cached cache) :
    w.previewLoop ward rail cache counts found =
      ⟨counts.eligible + ((considered ward found).filter (w.accepts ward rail)).length,
        counts.total + (considered ward found).length⟩ := by
  induction found generalizing cache counts with
  | nil => rfl
  | cons a rest ih =>
    obtain ⟨id, s⟩ := a
    simp only [Py.World.previewLoop]
    by_cases hjoined : s.isJoined ward = true
    · rw [if_pos hjoined, considered_skip (by simp [hjoined])]
      exact ih cache counts hcache
    · rw [if_neg hjoined]
      by_cases hfull : s.isFull = true
      · rw [if_pos hfull, considered_skip (by simp [hfull])]
        exact ih cache counts hcache
      · have hkeep : considered ward ((id, s) :: rest) = (id, s) :: considered ward rest := by
          simp [considered, hjoined, hfull]
        have hpasses : (rail.isNone || Py.passesGuardrails rail (w.meetup ward s.activity)) =
            Py.passesGuardrails rail (w.meetup ward s.activity) := by
          cases rail <;> rfl
        have hcache' := hcache.insert s.activity.place w.env.childPublicVenuesOnly
        rw [if_neg hfull, hkeep, hcache.getD, hpasses, List.length_cons]
        -- The checks in their order, and what each makes of `accepts`.
        by_cases hparticipate : w.env.canParticipate ward = true
        · rw [if_neg (by simp [hparticipate])]
          by_cases hclosed : (w.env.childPublicVenuesOnly &&
              !w.env.isChildSafeVenue s.activity.place) = true
          · have hrefused : w.accepts ward rail (id, s) = false := by
              rw [Bool.and_eq_true] at hclosed
              simp [Py.World.accepts, hclosed.1, (Bool.not_eq_true' _).mp hclosed.2]
            rw [if_pos hclosed, ih _ _ hcache', length_filter_considered hrefused]
            exact congrArg₂ Counts.mk rfl (by simp only; omega)
          · have hopen : (!w.env.childPublicVenuesOnly ||
                w.env.isChildSafeVenue s.activity.place) = true := by
              revert hclosed
              cases w.env.childPublicVenuesOnly <;>
                cases w.env.isChildSafeVenue s.activity.place <;> decide
            have haccepts : w.accepts ward rail (id, s) =
                Py.passesGuardrails rail (w.meetup ward s.activity) := by
              rw [Py.World.accepts, hparticipate, hopen]
              rfl
            rw [if_neg hclosed, length_filter_considered haccepts]
            by_cases hpass : Py.passesGuardrails rail (w.meetup ward s.activity) = true
            · rw [if_pos hpass, ih _ _ hcache', hpass]
              exact congrArg₂ Counts.mk (by simp only [Bool.toNat_true]; omega) (by simp only; omega)
            · rw [if_neg hpass, ih _ _ hcache', Bool.eq_false_iff.mpr hpass]
              exact congrArg₂ Counts.mk rfl (by simp only; omega)
        · have hrefused : w.accepts ward rail (id, s) = false := by
            simp [Py.World.accepts, hparticipate]
          rw [if_pos (by simp [hparticipate]), ih cache _ hcache, length_filter_considered hrefused]
          exact congrArg₂ Counts.mk rfl (by simp only; omega)

theorem mem_of_candidates {matching : List (Nat × State)} {limit : Nat}
    (h : Candidates matching limit found) (ha : a ∈ found) : a ∈ matching := by
  obtain ⟨all, hperm, -, rfl⟩ := h.sorted
  exact hperm.mem_iff.mp (List.mem_of_mem_take ha)

theorem Py.canJoin_eq_accepts (hchild : w.env.cohort ward = .child)
    (ha : a ∈ w.upcoming ward) (hconsidered : (!a.2.isJoined ward && !a.2.isFull) = true) :
    w.canJoin ward a.2 = w.accepts ward (effectiveGuardrail (w.railsOf ward)) a := by
  have hmatch := (List.mem_filter.mp ha).2
  simp only [hchild, Bool.and_eq_true, beq_iff_eq] at hmatch
  obtain ⟨⟨⟨⟨⟨-, hcohort⟩, -⟩, -⟩, hstatus⟩, -⟩ := hmatch
  rw [Bool.and_eq_true, Bool.not_eq_true', Bool.not_eq_true'] at hconsidered
  have hmember : (a.2.memberships.get? ward).all (fun m => m.state == .removed) = true := by
    have hjoined := hconsidered.1
    rw [State.isJoined] at hjoined
    cases hget : a.2.memberships.get? ward with
    | none => rfl
    | some => simpa [hget] using hjoined
  simp only [Py.World.canJoin, Py.canJoin, venueAllowed, hchild, hcohort, hstatus, hconsidered.2,
    hmember, Py.World.accepts, Py.World.passesGuardrails]
  cases w.env.canParticipate ward <;> simp

end

/-- Both previews count the candidates that they consider, and those of them that the gate lets the
child join with the limits as they are. -/
theorem preview_counts :
    (∀ (w : Py.World) (ward limit : Nat) (found : List (Nat × State)) (counts : Counts),
      Candidates (w.upcoming ward) limit found → w.guardrailPreview ward found = some counts →
        counts.total = (considered ward found).length ∧
        counts.eligible = ((considered ward found).filter fun a => w.canJoin ward a.2).length) ∧
    (∀ (w : Go.World) (guardian : Go.Actor) (ward : Nat) (user : Go.User) (limit : Int)
      (found : List (Nat × State)) (counts : Counts), w.env.users ward = some user →
      Candidates (w.upcoming ⟨ward, user⟩) (Go.World.previewLimit limit) found →
      w.guardrailPreview guardian ward found = .ok (some counts) →
        counts.total = (considered ward found).length ∧
        counts.eligible = ((considered ward found).filter fun a => w.canJoin ward a.2).length) := by
  constructor
  · intro w ward limit found counts hfound hpreview
    rw [Py.World.guardrailPreview] at hpreview
    split at hpreview
    · cases hpreview
    · rename_i hcohort
      have hchild : w.env.cohort ward = .child := by simpa using hcohort
      have hcounts := Option.some.inj hpreview
      rw [Py.previewLoop_eq [] ⟨0, 0⟩ (fun _ _ h => by cases h)] at hcounts
      subst hcounts
      refine ⟨Nat.zero_add _, (Nat.zero_add _).trans (congrArg List.length ?_)⟩
      refine List.filter_congr fun a ha => ?_
      obtain ⟨hmem, hconsidered⟩ := List.mem_filter.mp ha
      exact (Py.canJoin_eq_accepts hchild (mem_of_candidates hfound hmem) hconsidered).symm
  · intro w guardian ward user limit found counts huser _ hpreview
    have hactor : Go.actorByID w.gates ward = .ok ⟨ward, user⟩ := by
      rw [Go.actorByID, show w.gates.users ward = some user from huser]
    simp only [Go.World.guardrailPreview, seq_eq_ok, hactor, ok_bind] at hpreview
    obtain ⟨-, -, hpreview⟩ := hpreview
    split at hpreview
    · cases hpreview
    · split at hpreview
      · rename_i e hrefused
        cases hpreview
        refine ⟨rfl, (List.length_eq_zero_iff.mpr ?_).symm⟩
        rw [List.filter_eq_nil_iff]
        intro a _
        simp [Go.World.canJoin, hactor, hrefused, Except.isOk, Except.toBool]
      · cases hpreview
        exact ⟨rfl, rfl⟩

/-! ### A draft -/

/-- A guardian who allows supervised meetups only. -/
def supervisedOnly : StoredRail :=
  ⟨⟨true, none, none, none, "", []⟩,
    { weekdays := fun _ hc => (by cases hc), categories := List.not_mem_nil,
      latest := fun _ h => (by cases h), earliest := fun _ h => (by cases h),
      cap := fun _ h => (by cases h) }⟩

/-- An open meetup of child 1 that no guardian accompanies. -/
def playground : State where
  activity := ⟨1, 1, 1, .child, 10, none, Magnitude.zero, none, none, .opened, true, false, false, false⟩
  memberships := KeyMap.empty.set 1 ⟨.owner, .member⟩
  votes := KeyMap.empty

/-- Children whom every gate accepts, and no limits. -/
def playgroundWorld : Py.World where
  env :=
    { now := 0, cohort := fun _ => .child, canParticipate := fun _ => true
      canCreateActivity := fun _ => true, isGuardianOf := fun _ _ => false
      passesGuardrails := fun _ => true, categoryAllows := fun _ _ => true
      childPublicVenuesOnly := true, isChildSafeVenue := fun _ => true
      publicPlace := fun _ => true, ownPendingPlace := fun _ _ => false
      order := ⟨id, fun l => List.Perm.refl l⟩ }
  activities := [(1, playground)]
  isBlocked _ _ := false
  rails := []
  tax := ⟨fun _ => none, id⟩
  localHour _ := 12
  localWeekday _ := 1

/-- A preview does not count what a draft would allow: guardian 3 thinks of supervised meetups only,
the preview counts the meetup, and once the draft is saved child 2 may not join it. -/
theorem draft_not_previewed :
    ¬∀ (w : Py.World) (guardian ward : Nat) (draft : StoredRail) (limit : Nat)
      (found : List (Nat × State)) (counts : Counts), Candidates (w.upcoming ward) limit found →
        w.guardrailPreview ward found = some counts →
          counts.eligible = ((considered ward found).filter fun a =>
            (w.saveRail guardian ward draft).canJoin ward a.2).length := by
  intro h
  have hfound : Candidates (playgroundWorld.upcoming 2) 50 [(1, playground)] :=
    ⟨[(1, playground)], List.Perm.refl _, List.pairwise_singleton _ _, rfl⟩
  have heq := h playgroundWorld 3 2 supervisedOnly 50 [(1, playground)] ⟨1, 1⟩ hfound
    (by decide +kernel)
  revert heq
  decide +kernel

end SocialActivities.Social
