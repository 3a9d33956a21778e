import Mathlib.Data.Char
import Mathlib.Data.List.Lex
import Mathlib.Data.List.Sort
import SocialActivities.Feeds.Dates
import SocialActivities.Lib.Climb
import SocialActivities.Lib.Limits
import SocialActivities.Social.GoActivity

/-!
# `SocialActivities.Social.Guardrails`: the limits that guardians set

A guardian may limit what a child joins: supervised meetups only, the hours and weekdays of the
start, the categories, and the number of open meetups. The limits of all active guardians apply
together.

A `StoredRail` is a row as `set_guardian_guardrail` and `SetGuardianGuardrail` write it; both return
one, so what the setters check is known of every row (`Stored`). `Go.combineGuardrails` is in
`GoActivity.lean`; here is its counterpart `Py.effectiveGuardrail`, the decision
`Py.passesGuardrails`, and the two walks through the categories.
-/

namespace SocialActivities.Social

open Lib Lib.Limits
open Lib.Climb (climb climbOnce mem_climbOnce_iff)
open Go (Guardrail EffectiveGuardrail)

/-- What the setters check. The weekdays are digits, and no category is empty. -/
structure Stored (r : Guardrail) : Prop where
  weekdays : ∀ c ∈ r.weekdays.toList, '1' ≤ c ∧ c ≤ '7'
  categories : "" ∉ r.categories
  latest : ∀ hour, r.latest = some hour → 0 ≤ hour ∧ hour ≤ 23
  earliest : ∀ hour, r.earliest = some hour → 0 ≤ hour ∧ hour ≤ 23
  cap : ∀ n, r.cap = some n → 1 ≤ n ∧ n ≤ 50

/-- A row of `accounts_guardianguardrail`. -/
abbrev StoredRail := { r : Guardrail // Stored r }

/-! ### Setting the limits -/

/-- The digits of the weekdays, in order and each one once. -/
def weekdayText (days : List Int) : String :=
  String.ofList (((List.range' 1 7).filter fun d : Nat => days.contains (d : Int)).map Nat.digitChar)

/-- A form value: left empty, not readable, or a value. -/
inductive FormValue (α : Type) where
  | empty
  | junk
  | value (a : α)

/-- The arguments of `set_guardian_guardrail`. A number is what `int` makes of the value. -/
structure Py.RailInput where
  supervisedOnly : Bool
  latestStartHour : FormValue Int
  maxOpenJoins : FormValue Int
  allowedWeekdays : FormValue (List (FormValue Int))
  earliestStartHour : FormValue Int
  allowedCategories : FormValue (List (List Char))

/-- An optional number between two bounds. -/
def Py.cleanNumber (low high : Int) (junk range : String) : FormValue Int → Except String (Option Int)
  | .empty => .ok none
  | .junk => .error junk
  | .value n => if low ≤ n ∧ n ≤ high then .ok (some n) else .error range

def Py.cleanHour : FormValue Int → Except String (Option Int) :=
  Py.cleanNumber 0 23 "Latest start hour must be a whole number between 0 and 23."
    "Latest start hour must be between 0 and 23."

def Py.cleanCap : FormValue Int → Except String (Option Int) :=
  Py.cleanNumber 1 50 "The open-meetup limit must be a whole number."
    "The open-meetup limit must be between 1 and 50."

/-- The loop of `_clean_weekdays`. -/
def Py.cleanDays : List (FormValue Int) → Except String (List Int)
  | [] => .ok []
  | .empty :: rest => Py.cleanDays rest
  | .junk :: _ => .error "Pick valid days of the week."
  | .value d :: rest =>
    if 1 ≤ d ∧ d ≤ 7 then (Py.cleanDays rest).map (d :: ·)
    else .error "Pick valid days of the week."

def Py.cleanWeekdays : FormValue (List (FormValue Int)) → Except String String
  | .empty => .ok ""
  | .junk => .error "Pick valid days of the week."
  | .value items => (Py.cleanDays items).map weekdayText

/-- Texts in order, each one once. -/
def sortedUnique (texts : List (List Char)) : List String :=
  (texts.dedup.insertionSort (· ≤ ·)).map String.ofList

/-- `_clean_categories`. `known` are the slugs of the categories. -/
def Py.cleanCategories (known : List Char → Bool) :
    FormValue (List (List Char)) → Except String (List String)
  | .empty => .ok []
  | .junk => .error "Pick valid activity categories."
  | .value items =>
    let slugs := (items.map Feeds.strip).filter fun s => !s.isEmpty
    if slugs.all known then .ok (sortedUnique slugs) else .error "Pick valid activity categories."

/-- `GuardrailInput` of the Go server. -/
structure Go.RailInput where
  supervisedOnly : Bool
  earliest : Option Int
  latest : Option Int
  maxOpen : Option Int
  weekdays : List (List Char)
  categories : List (List Char)

/-- The loop over the weekdays of `SetGuardianGuardrail`. -/
def Go.cleanDays : List (List Char) → Except Go.Error (List Int)
  | [] => .ok []
  | raw :: rest =>
    if (Feeds.trimSpace raw).isEmpty then Go.cleanDays rest
    else
      match Feeds.atoi (Feeds.trimSpace raw) with
      | none => .error .errInvalid
      | some d => if d < 1 ∨ 7 < d then .error .errInvalid else (Go.cleanDays rest).map (d :: ·)

/-- `set_guardian_guardrail`, up to the row that it writes. `isGuardian` says that the link of the
guardian and the ward is active. -/
def Py.setGuardianGuardrail (isGuardian : Bool) (wardCohort : Cohort) (known : List Char → Bool)
    (input : Py.RailInput) : Except String Guardrail := do
  need "You are not a registered guardian of this user." isGuardian
  need "Participation limits apply to children's accounts only." (wardCohort == .child)
  let latest ← Py.cleanHour input.latestStartHour
  let cap ← Py.cleanCap input.maxOpenJoins
  let weekdays ← Py.cleanWeekdays input.allowedWeekdays
  let earliest ← Py.cleanHour input.earliestStartHour
  let categories ← Py.cleanCategories known input.allowedCategories
  pure ⟨input.supervisedOnly, latest, earliest, cap, weekdays, categories⟩

/-- `SetGuardianGuardrail`, up to the row that it writes. `allowed` is the answer of the rate limit. -/
def Go.setGuardianGuardrail (allowed isActive isGuardian : Bool) (wardCohort : Cohort)
    (known : List Char → Bool) (input : Go.RailInput) : Except Go.Error Guardrail := do
  need Go.Error.errInvalid ([input.earliest, input.latest].all fun hour =>
    hour.all fun h => !(decide (h < 0) || decide (23 < h)))
  need Go.Error.errInvalid (input.maxOpen.all fun n => !(decide (n < 1) || decide (50 < n)))
  let days ← Go.cleanDays input.weekdays
  let categories := (input.categories.map Feeds.trimSpace).filter fun s => !s.isEmpty
  need Go.Error.errInvalid (decide (categories.dedup.length ≤ 100))
  need Go.Error.errForbidden allowed
  need Go.Error.errForbidden isActive
  need Go.Error.errForbidden isGuardian
  need Go.Error.errInvalid (wardCohort == .child)
  need Go.Error.errInvalid (categories.all known)
  pure ⟨input.supervisedOnly, input.latest, input.earliest, input.maxOpen, weekdayText days,
    sortedUnique categories⟩

section

variable {days : List Int} {texts : List (List Char)} {r : Guardrail} {known : List Char → Bool}

theorem weekdayText_digits {c : Char} (hc : c ∈ (weekdayText days).toList) : '1' ≤ c ∧ c ≤ '7' := by
  rw [weekdayText, String.toList_ofList, List.mem_map] at hc
  obtain ⟨d, hd, rfl⟩ := hc
  have hmem := (List.mem_filter.mp hd).1
  clear hd
  revert d
  decide

theorem sortedUnique_nonempty (texts : List (List Char)) :
    "" ∉ sortedUnique (texts.filter fun s => !s.isEmpty) := by
  rw [sortedUnique, List.mem_map]
  rintro ⟨s, hs, hempty⟩
  rw [List.mem_insertionSort, List.mem_dedup, List.mem_filter] at hs
  have hnil : s = [] := String.ofList_eq_empty_iff.mp hempty
  simp [hnil] at hs

theorem Py.cleanNumber_eq_ok {low high : Int} {junk range : String} {input : FormValue Int}
    {result : Option Int} (h : Py.cleanNumber low high junk range input = .ok result) (n : Int)
    (hn : result = some n) : low ≤ n ∧ n ≤ high := by
  subst hn
  cases input with
  | empty | junk => cases h
  | value m =>
    simp only [Py.cleanNumber] at h
    split at h
    · cases h
      assumption
    · cases h

theorem Py.cleanWeekdays_digits {input : FormValue (List (FormValue Int))} {text : String}
    (h : Py.cleanWeekdays input = .ok text) : ∀ c ∈ text.toList, '1' ≤ c ∧ c ≤ '7' := by
  intro c hc
  cases input with
  | empty =>
    cases h
    cases hc
  | junk => cases h
  | value items =>
    cases hdays : Py.cleanDays items with
    | error => simp [Py.cleanWeekdays, hdays, Except.map] at h
    | ok =>
      rw [Py.cleanWeekdays, hdays] at h
      cases h
      exact weekdayText_digits hc

theorem Py.cleanCategories_nonempty {input : FormValue (List (List Char))} {slugs : List String}
    (h : Py.cleanCategories known input = .ok slugs) : "" ∉ slugs := by
  cases input with
  | empty =>
    cases h
    exact List.not_mem_nil
  | junk => cases h
  | value =>
    simp only [Py.cleanCategories] at h
    split at h
    · cases h
      exact sortedUnique_nonempty _
    · cases h

theorem Py.stored_of_set {isGuardian : Bool} {wardCohort : Cohort} {input : Py.RailInput}
    (h : Py.setGuardianGuardrail isGuardian wardCohort known input = .ok r) : Stored r := by
  simp only [Py.setGuardianGuardrail, bind_eq_ok, pure_eq_ok] at h
  obtain ⟨_, -, _, -, latest, hlatest, cap, hcap, weekdays, hweekdays, earliest, hearliest, categories,
    hcategories, rfl⟩ := h
  exact
    { weekdays := Py.cleanWeekdays_digits hweekdays
      categories := Py.cleanCategories_nonempty hcategories
      latest := Py.cleanNumber_eq_ok hlatest
      earliest := Py.cleanNumber_eq_ok hearliest
      cap := Py.cleanNumber_eq_ok hcap }

theorem Go.stored_of_set {allowed isActive isGuardian : Bool} {wardCohort : Cohort}
    {input : Go.RailInput}
    (h : Go.setGuardianGuardrail allowed isActive isGuardian wardCohort known input = .ok r) :
    Stored r := by
  simp only [Go.setGuardianGuardrail, bind_eq_ok, pure_eq_ok] at h
  obtain ⟨_, hhours, _, hcap, days, -, _, -, _, -, _, -, _, -, _, -, _, -, rfl⟩ := h
  rw [need_eq_ok] at hhours hcap
  rw [List.all_cons, List.all_cons, List.all_nil, Bool.and_true, Bool.and_eq_true] at hhours
  have hbound : ∀ (value : Option Int) (low high n : Int),
      (value.all fun h => !(decide (h < low) || decide (high < h))) = true → value = some n →
        low ≤ n ∧ n ≤ high := by
    intro value low high n hall hvalue
    simp only [hvalue, Option.all_some, Bool.not_eq_true', Bool.or_eq_false_iff,
      decide_eq_false_iff_not] at hall
    omega
  exact
    { weekdays := fun c hc => weekdayText_digits hc
      categories := sortedUnique_nonempty _
      latest := fun n => hbound _ 0 23 n hhours.2
      earliest := fun n => hbound _ 0 23 n hhours.1
      cap := fun n => hbound _ 1 50 n hcap }

end

/-! ### The categories of an activity type -/

/-- A row of `taxonomy_activitycategory`. -/
structure Category where
  slug : String
  parent : Option Nat

/-- The categories by id, and the category of an activity type. -/
structure Taxonomy where
  category : Nat → Option Category
  categoryOf : Nat → Nat

namespace Taxonomy

variable (tax : Taxonomy)

def parent (id : Nat) : Option Nat := (tax.category id).bind Category.parent

def slugs (ids : List Nat) : List String := ids.filterMap fun id => (tax.category id).map Category.slug

end Taxonomy

/-- `category_ancestry_slugs`, with `CATEGORY_ANCESTRY_MAX_DEPTH`. -/
def Py.categoryAncestrySlugs (tax : Taxonomy) (activityType : Nat) : List String :=
  tax.slugs (climb tax.parent 16 (tax.categoryOf activityType))

/-- The recursive query of `categoryAllowed`: its path holds no category twice, and at most 16. -/
def Go.categoryAncestry (tax : Taxonomy) (activityType : Nat) : List String :=
  tax.slugs (climbOnce tax.parent 15 [tax.categoryOf activityType] (tax.categoryOf activityType))

theorem mem_categoryAncestry {tax : Taxonomy} {activityType : Nat} {slug : String} :
    slug ∈ Go.categoryAncestry tax activityType ↔ slug ∈ Py.categoryAncestrySlugs tax activityType := by
  simp only [Go.categoryAncestry, Py.categoryAncestrySlugs, Taxonomy.slugs, List.mem_filterMap,
    mem_climbOnce_iff]

/-! ### The decision of the Python services -/

/-- The dictionary that `effective_guardrail` returns. -/
structure Rail where
  supervisedOnly : Bool
  latestStartHour : Option Int
  maxOpenJoins : Option Int
  allowedWeekdays : Option (Finset Nat)
  earliestStartHour : Option Int
  allowedCategories : Option (Finset String)
  deriving DecidableEq

/-- `{int(c) for c in r.allowed_weekdays}`. The characters of a row are digits. -/
def StoredRail.days (r : StoredRail) : Finset Nat :=
  (r.1.weekdays.toList.map fun c => c.toNat - '0'.toNat).toFinset

/-- The limits of the guardians together. -/
def strictest (rails : List StoredRail) : Rail where
  supervisedOnly := rails.any fun r => r.1.supervised
  latestStartHour := (rails.filterMap fun r => r.1.latest).min?
  maxOpenJoins := (rails.filterMap fun r => r.1.cap).min?
  -- Without a weekday or a category in the row, the guardian restricts nothing.
  allowedWeekdays := common ((rails.filter fun r => r.1.weekdays != "").map StoredRail.days)
  earliestStartHour := (rails.filterMap fun r => r.1.earliest).max?
  allowedCategories :=
    common ((rails.filter fun r => !r.1.categories.isEmpty).map fun r => r.1.categories.toFinset)

def Py.effectiveGuardrail (rails : List StoredRail) : Option Rail :=
  if rails.isEmpty then none else some (strictest rails)

/-- What the limits are compared with: a meetup, and the open meetups that the child is in. -/
structure Meetup where
  guardianAccompanied : Bool
  hour : Int
  isoWeekday : Nat
  slugs : List String
  openJoins : Int

def Py.typeInCategoryEnvelope (allowed : Option (Finset String)) (slugs : List String) : Bool :=
  match allowed with
  | none => true
  | some allowed => slugs.any fun slug => decide (slug ∈ allowed)

def Py.passesGuardrails (rail : Option Rail) (m : Meetup) : Bool :=
  match rail with
  | none => true
  | some rail =>
    if rail.supervisedOnly && !m.guardianAccompanied then false
    else if rail.latestStartHour.any (fun latest => decide (m.hour > latest)) then false
    else if rail.allowedWeekdays.any (fun days => decide (m.isoWeekday ∉ days)) then false
    else if rail.earliestStartHour.any (fun earliest => decide (m.hour < earliest)) then false
    else if !Py.typeInCategoryEnvelope rail.allowedCategories m.slugs then false
    else if rail.maxOpenJoins.any (fun cap => decide (m.openJoins ≥ cap)) then false
    else true

end SocialActivities.Social
