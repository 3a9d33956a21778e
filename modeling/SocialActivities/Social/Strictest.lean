import SocialActivities.Social.Guardrails

/-!
# `SocialActivities.Social.Strictest`: the limits of all guardians together

`Within` says what the guardians of a child ask of a meetup: each limit that one of them sets, and
one category that all of them list. It is what both servers decide: `passes_iff` for Python, and
`childJoinGate_isOk` for Go, whose fold over the rows gives the sets of `strictest`
(`combineGuardrails_sets`).

From `Within` follow the laws of the combination: order and repetition do not matter, each guardian's
own limits hold, and another guardian or a tighter limit never opens a meetup.
-/

namespace SocialActivities.Social

open Lib Lib.Limits
open Go (Guardrail EffectiveGuardrail)

/-- What the guardians ask of a meetup. -/
structure Within (rails : List StoredRail) (m : Meetup) : Prop where
  supervised : ∀ r ∈ rails, r.1.supervised = true → m.guardianAccompanied = true
  latest : ∀ r ∈ rails, ∀ hour, r.1.latest = some hour → m.hour ≤ hour
  earliest : ∀ r ∈ rails, ∀ hour, r.1.earliest = some hour → hour ≤ m.hour
  cap : ∀ r ∈ rails, ∀ n, r.1.cap = some n → m.openJoins < n
  weekdays : ∀ r ∈ rails, r.1.weekdays ≠ "" → m.isoWeekday ∈ r.days
  categories : (∃ r ∈ rails, r.1.categories ≠ []) →
    ∃ slug ∈ m.slugs, ∀ r ∈ rails, r.1.categories ≠ [] → slug ∈ r.1.categories

/-- The first guardian's limits are at least as tight as the second one's. -/
structure Tighter (r' r : StoredRail) : Prop where
  supervised : r.1.supervised = true → r'.1.supervised = true
  latest : ∀ hour, r.1.latest = some hour → ∃ hour', r'.1.latest = some hour' ∧ hour' ≤ hour
  earliest : ∀ hour, r.1.earliest = some hour → ∃ hour', r'.1.earliest = some hour' ∧ hour ≤ hour'
  cap : ∀ n, r.1.cap = some n → ∃ n', r'.1.cap = some n' ∧ n' ≤ n
  weekdays : r.1.weekdays ≠ "" → r'.1.weekdays ≠ "" ∧ r'.days ⊆ r.days
  categories : r.1.categories ≠ [] →
    r'.1.categories ≠ [] ∧ ∀ slug ∈ r'.1.categories, slug ∈ r.1.categories

section

variable {rails rails' : List StoredRail} {r r' : StoredRail} {m : Meetup}

/-! ### The laws of `Within` -/

theorem Within.mono (h : Within rails m) (hsub : ∀ r ∈ rails', r ∈ rails) : Within rails' m where
  supervised r hr := h.supervised r (hsub r hr)
  latest r hr := h.latest r (hsub r hr)
  earliest r hr := h.earliest r (hsub r hr)
  cap r hr := h.cap r (hsub r hr)
  weekdays r hr := h.weekdays r (hsub r hr)
  categories := by
    intro ⟨r, hr, hset⟩
    obtain ⟨slug, hslug, hall⟩ := h.categories ⟨r, hsub r hr, hset⟩
    exact ⟨slug, hslug, fun r hr => hall r (hsub r hr)⟩

theorem Within.of_tighter (h : Within rails' m) (htighter : ∀ r ∈ rails, ∃ r' ∈ rails', Tighter r' r) :
    Within rails m where
  supervised r hr hset := by
    obtain ⟨r', hr', ht⟩ := htighter r hr
    exact h.supervised r' hr' (ht.supervised hset)
  latest r hr hour hset := by
    obtain ⟨r', hr', ht⟩ := htighter r hr
    obtain ⟨hour', hset', hle⟩ := ht.latest hour hset
    exact Int.le_trans (h.latest r' hr' hour' hset') hle
  earliest r hr hour hset := by
    obtain ⟨r', hr', ht⟩ := htighter r hr
    obtain ⟨hour', hset', hle⟩ := ht.earliest hour hset
    exact Int.le_trans hle (h.earliest r' hr' hour' hset')
  cap r hr n hset := by
    obtain ⟨r', hr', ht⟩ := htighter r hr
    obtain ⟨n', hset', hle⟩ := ht.cap n hset
    exact Int.lt_of_lt_of_le (h.cap r' hr' n' hset') hle
  weekdays r hr hset := by
    obtain ⟨r', hr', ht⟩ := htighter r hr
    obtain ⟨hset', hsub⟩ := ht.weekdays hset
    exact hsub (h.weekdays r' hr' hset')
  categories := by
    intro ⟨r, hr, hset⟩
    obtain ⟨r', hr', ht⟩ := htighter r hr
    obtain ⟨slug, hslug, hall⟩ := h.categories ⟨r', hr', (ht.categories hset).1⟩
    refine ⟨slug, hslug, fun q hq hqset => ?_⟩
    obtain ⟨q', hq', htq⟩ := htighter q hq
    exact (htq.categories hqset).2 slug (hall q' hq' (htq.categories hqset).1)

theorem Tighter.refl (r : StoredRail) : Tighter r r where
  supervised h := h
  latest hour h := ⟨hour, h, Int.le_refl hour⟩
  earliest hour h := ⟨hour, h, Int.le_refl hour⟩
  cap n h := ⟨n, h, Int.le_refl n⟩
  weekdays h := ⟨h, Finset.Subset.refl _⟩
  categories h := ⟨h, fun _ hslug => hslug⟩

/-! ### The decision of the Python services -/

theorem refuse_iff {refused rest : Bool} :
    (if refused = true then false else rest) = true ↔ refused = false ∧ rest = true := by
  cases refused <;> simp

variable {α : Type}

theorem any_eq_false_iff {limit : Option α} {broken kept : α → Bool}
    (h : ∀ a, broken a = !kept a) : limit.any broken = false ↔ limit.all kept = true := by
  cases limit with
  | none => simp
  | some => simp [h]

theorem Py.passes_some {rail : Rail} :
    Py.passesGuardrails (some rail) m = true ↔
      (rail.supervisedOnly = true → m.guardianAccompanied = true) ∧
        rail.latestStartHour.all (fun latest => decide (m.hour ≤ latest)) = true ∧
        rail.allowedWeekdays.all (fun days => decide (m.isoWeekday ∈ days)) = true ∧
        rail.earliestStartHour.all (fun earliest => decide (earliest ≤ m.hour)) = true ∧
        Py.typeInCategoryEnvelope rail.allowedCategories m.slugs = true ∧
        rail.maxOpenJoins.all (fun cap => decide (m.openJoins < cap)) = true := by
  have hsupervised : (rail.supervisedOnly && !m.guardianAccompanied) = false ↔
      (rail.supervisedOnly = true → m.guardianAccompanied = true) := by
    cases rail.supervisedOnly <;> cases m.guardianAccompanied <;> simp
  simp only [Py.passesGuardrails, refuse_iff, hsupervised, and_true, Bool.not_eq_false']
  refine and_congr_right fun _ => and_congr ?_ (and_congr ?_ (and_congr ?_ (and_congr_right
    fun _ => ?_)))
  · exact any_eq_false_iff fun latest => by
      rw [← decide_not]
      exact decide_eq_decide.mpr (by omega)
  · exact any_eq_false_iff fun days => by rw [← decide_not]
  · exact any_eq_false_iff fun earliest => by
      rw [← decide_not]
      exact decide_eq_decide.mpr (by omega)
  · exact any_eq_false_iff fun cap => by
      rw [← decide_not]
      exact decide_eq_decide.mpr (by omega)

theorem Py.passes_effective :
    Py.passesGuardrails (Py.effectiveGuardrail rails) m =
      Py.passesGuardrails (some (strictest rails)) m := by
  cases rails with
  | nil | cons => rfl

theorem mem_filterMap_all {limit : StoredRail → Option α} {p : α → Prop} :
    (∀ a ∈ rails.filterMap limit, p a) ↔ ∀ r ∈ rails, ∀ a, limit r = some a → p a := by
  simp only [List.mem_filterMap]
  exact ⟨fun h r hr a ha => h a ⟨r, hr, ha⟩, fun h a ⟨r, hr, ha⟩ => h r hr a ha⟩

theorem isSet_categories : (!r.1.categories.isEmpty) = true ↔ r.1.categories ≠ [] := by
  rw [Bool.not_eq_true', List.isEmpty_eq_false_iff]

theorem envelope_iff (slugs : List String) :
    Py.typeInCategoryEnvelope (strictest rails).allowedCategories slugs = true ↔
      ((∃ r ∈ rails, r.1.categories ≠ []) →
        ∃ slug ∈ slugs, ∀ r ∈ rails, r.1.categories ≠ [] → slug ∈ r.1.categories) := by
  cases hcommon : (strictest rails).allowedCategories with
  | none =>
    have hnone := common_filter_map_eq_none.mp hcommon
    refine iff_of_true rfl fun ⟨r, hr, hset⟩ => ?_
    exact absurd (isSet_categories.mpr hset) (by rw [hnone r hr]; decide)
  | some allowed =>
    have hmem : ∀ slug, slug ∈ allowed ↔
        ∀ r ∈ rails, r.1.categories ≠ [] → slug ∈ r.1.categories := by
      intro slug
      rw [mem_common_filter_map hcommon]
      simp only [isSet_categories, List.mem_toFinset]
    have hset : ∃ r ∈ rails, r.1.categories ≠ [] := by
      by_contra hnot
      have hnil : (strictest rails).allowedCategories = none :=
        common_filter_map_eq_none.mpr fun r hr => by
          rw [← Bool.not_eq_true, isSet_categories]
          exact fun hne => hnot ⟨r, hr, hne⟩
      rw [hcommon] at hnil
      cases hnil
    simp only [Py.typeInCategoryEnvelope, List.any_eq_true, decide_eq_true_eq, hmem]
    exact ⟨fun h _ => h, fun h => h hset⟩

theorem weekdays_iff (day : Nat) :
    (strictest rails).allowedWeekdays.all (fun days => decide (day ∈ days)) = true ↔
      ∀ r ∈ rails, r.1.weekdays ≠ "" → day ∈ r.days := by
  cases hcommon : (strictest rails).allowedWeekdays with
  | none =>
    have hnone := common_filter_map_eq_none.mp hcommon
    refine iff_of_true rfl fun r hr hset => ?_
    exact absurd (bne_iff_ne.mpr hset) (by rw [hnone r hr]; decide)
  | some =>
    rw [Option.all_some, decide_eq_true_eq, mem_common_filter_map hcommon]
    simp only [bne_iff_ne]

theorem passes_iff :
    Py.passesGuardrails (Py.effectiveGuardrail rails) m = true ↔ Within rails m := by
  rw [Py.passes_effective, Py.passes_some, envelope_iff, weekdays_iff]
  have hlatest : (strictest rails).latestStartHour.all (fun latest => decide (m.hour ≤ latest)) = true ↔
      ∀ r ∈ rails, ∀ hour, r.1.latest = some hour → m.hour ≤ hour := by
    rw [← mem_filterMap_all, strictest]
    simpa using all_min?_iff (l := rails.filterMap fun r => r.1.latest)
      (p := fun latest => decide (m.hour ≤ latest)) (by
        intro a b hab ha
        simp only [decide_eq_true_eq] at ha ⊢
        omega)
  have hcap : (strictest rails).maxOpenJoins.all (fun cap => decide (m.openJoins < cap)) = true ↔
      ∀ r ∈ rails, ∀ n, r.1.cap = some n → m.openJoins < n := by
    rw [← mem_filterMap_all, strictest]
    simpa using all_min?_iff (l := rails.filterMap fun r => r.1.cap)
      (p := fun cap => decide (m.openJoins < cap)) (by
        intro a b hab ha
        simp only [decide_eq_true_eq] at ha ⊢
        omega)
  have hearliest :
      (strictest rails).earliestStartHour.all (fun earliest => decide (earliest ≤ m.hour)) = true ↔
        ∀ r ∈ rails, ∀ hour, r.1.earliest = some hour → hour ≤ m.hour := by
    rw [← mem_filterMap_all, strictest]
    simpa using all_max?_iff (l := rails.filterMap fun r => r.1.earliest)
      (p := fun earliest => decide (earliest ≤ m.hour)) (by
        intro a b hab ha
        simp only [decide_eq_true_eq] at ha ⊢
        omega)
  have hsupervised : ((strictest rails).supervisedOnly = true → m.guardianAccompanied = true) ↔
      ∀ r ∈ rails, r.1.supervised = true → m.guardianAccompanied = true := by
    rw [strictest, List.any_eq_true]
    exact ⟨fun h r hr hset => h ⟨r, hr, hset⟩, fun h ⟨r, hr, hset⟩ => h r hr hset⟩
  rw [hlatest, hcap, hearliest, hsupervised]
  constructor
  · intro ⟨hs, hl, hw, he, hc, hj⟩
    exact ⟨hs, hl, he, hj, hw, hc⟩
  · intro h
    exact ⟨h.supervised, h.latest, h.weekdays, h.earliest, h.categories, h.cap⟩

theorem strictest_congr (h : ∀ r, r ∈ rails' ↔ r ∈ rails) : strictest rails' = strictest rails := by
  simp only [strictest, Rail.mk.injEq]
  refine ⟨?_, ?_, ?_, ?_, ?_, ?_⟩
  · rw [Bool.eq_iff_iff]
    simp only [List.any_eq_true, h]
  · exact min?_congr fun a => by simp only [List.mem_filterMap, h]
  · exact min?_congr fun a => by simp only [List.mem_filterMap, h]
  · exact common_congr fun s => by simp only [List.mem_map, List.mem_filter, h]
  · exact max?_congr fun a => by simp only [List.mem_filterMap, h]
  · exact common_congr fun s => by simp only [List.mem_map, List.mem_filter, h]

theorem Py.effective_congr (h : ∀ r, r ∈ rails' ↔ r ∈ rails) :
    Py.effectiveGuardrail rails' = Py.effectiveGuardrail rails := by
  have hempty : rails'.isEmpty = rails.isEmpty := by
    rw [Bool.eq_iff_iff]
    simp only [List.isEmpty_iff, List.eq_nil_iff_forall_not_mem, h]
  simp only [Py.effectiveGuardrail, hempty, strictest_congr h]

/-! ### The combination of the Go server -/

/-- The sets of a combination. -/
def Go.EffectiveGuardrail.sets (out : EffectiveGuardrail) : Rail where
  supervisedOnly := out.supervised
  latestStartHour := out.latest
  maxOpenJoins := out.cap
  allowedWeekdays := out.weekdays.map List.toFinset
  earliestStartHour := out.earliest
  allowedCategories := out.categories.map List.toFinset

/-- One more guardian. -/
def Rail.add (rail : Rail) (r : StoredRail) : Rail where
  supervisedOnly := rail.supervisedOnly || r.1.supervised
  latestStartHour := Go.minOptional rail.latestStartHour r.1.latest
  maxOpenJoins := Go.minOptional rail.maxOpenJoins r.1.cap
  allowedWeekdays :=
    if r.1.weekdays == "" then rail.allowedWeekdays
    else some (rail.allowedWeekdays.elim r.days (· ∩ r.days))
  earliestStartHour := Go.maxOptional rail.earliestStartHour r.1.earliest
  allowedCategories :=
    if r.1.categories.isEmpty then rail.allowedCategories
    else some (rail.allowedCategories.elim r.1.categories.toFinset (· ∩ r.1.categories.toFinset))

theorem min?_filterMap_concat (limit : StoredRail → Option Int) :
    ((rails ++ [r]).filterMap limit).min? =
      Go.minOptional (rails.filterMap limit).min? (limit r) := by
  rw [List.filterMap_append]
  cases hlimit : limit r with
  | none =>
    simp only [List.filterMap_cons, hlimit, List.filterMap_nil, List.append_nil]
    cases (rails.filterMap limit).min? <;> rfl
  | some a =>
    simp only [List.filterMap_cons, hlimit, List.filterMap_nil, min?_concat]
    cases (rails.filterMap limit).min? with
    | none => rfl
    | some b =>
      simp only [Option.elim_some, Go.minOptional]
      split <;> exact congrArg some (by omega)

theorem max?_filterMap_concat (limit : StoredRail → Option Int) :
    ((rails ++ [r]).filterMap limit).max? =
      Go.maxOptional (rails.filterMap limit).max? (limit r) := by
  rw [List.filterMap_append]
  cases hlimit : limit r with
  | none =>
    simp only [List.filterMap_cons, hlimit, List.filterMap_nil, List.append_nil]
    cases (rails.filterMap limit).max? <;> rfl
  | some a =>
    simp only [List.filterMap_cons, hlimit, List.filterMap_nil, max?_concat]
    cases (rails.filterMap limit).max? with
    | none => rfl
    | some b =>
      simp only [Option.elim_some, Go.maxOptional]
      split <;> exact congrArg some (by omega)

theorem common_filter_concat [DecidableEq α] {isSet : StoredRail → Bool}
    {limit : StoredRail → Finset α} :
    common (((rails ++ [r]).filter isSet).map limit) =
      if isSet r then some ((common ((rails.filter isSet).map limit)).elim (limit r) (· ∩ limit r))
      else common ((rails.filter isSet).map limit) := by
  rw [List.filter_append]
  cases hset : isSet r with
  | false => simp [hset]
  | true => simp [hset, common_concat]

theorem strictest_concat : strictest (rails ++ [r]) = (strictest rails).add r := by
  simp only [strictest, Rail.add, Rail.mk.injEq, min?_filterMap_concat, max?_filterMap_concat,
    common_filter_concat, List.any_append, List.any_cons, List.any_nil, Bool.or_false, true_and]
  constructor
  · cases hempty : r.1.weekdays == "" <;> simp [bne, hempty]
  · cases r.1.categories.isEmpty <;> simp

theorem weekdayDigits_stored (r : StoredRail) :
    Go.weekdayDigits r.1.weekdays = .ok (r.1.weekdays.toList.map fun c => c.toNat - '0'.toNat) := by
  have hdigits := r.2.weekdays
  rw [Go.weekdayDigits]
  generalize r.1.weekdays.toList = text at hdigits
  induction text with
  | nil => rfl
  | cons c text ih =>
    rw [List.mapM_cons, if_pos (hdigits c (List.mem_cons_self ..)), ok_bind,
      ih fun d hd => hdigits d (List.mem_cons_of_mem c hd)]
    rfl

theorem narrow_toFinset [DecidableEq α] (allowed : Option (List α)) (limit : List α) :
    (Go.narrow allowed limit).map List.toFinset =
      some ((allowed.map List.toFinset).elim limit.toFinset (· ∩ limit.toFinset)) := by
  cases allowed with
  | none => rfl
  | some =>
    refine congrArg some (Finset.ext fun a => ?_)
    simp

theorem Go.addRail_sets (out : EffectiveGuardrail) (r : StoredRail) :
    ∃ out', Go.addRail out r.1 = .ok out' ∧ out'.sets = out.sets.add r := by
  have hcategories : r.1.categories.all (· != "") = true := by
    rw [List.all_eq_true]
    intro slug hslug
    exact bne_iff_ne.mpr fun heq => r.2.categories (heq ▸ hslug)
  let days := r.1.weekdays.toList.map fun c => c.toNat - '0'.toNat
  refine ⟨⟨out.supervised || r.1.supervised, Go.minOptional out.latest r.1.latest,
    Go.maxOptional out.earliest r.1.earliest, Go.minOptional out.cap r.1.cap,
    if r.1.weekdays == "" then out.weekdays else Go.narrow out.weekdays days,
    if r.1.categories.isEmpty then out.categories
    else Go.narrow out.categories r.1.categories⟩, ?_, ?_⟩
  · rw [Go.addRail, weekdayDigits_stored, ok_bind, hcategories]
    rfl
  · simp only [Go.EffectiveGuardrail.sets, Rail.add, Rail.mk.injEq, true_and]
    constructor
    · split
      · rfl
      · exact narrow_toFinset _ _
    · split
      · rfl
      · exact narrow_toFinset _ _

theorem Go.combine_sets (rails : List StoredRail) :
    ∃ out, Go.combineGuardrails (rails.map Subtype.val) = .ok out ∧ out.sets = strictest rails := by
  induction rails using List.reverseRecOn with
  | nil => exact ⟨_, rfl, rfl⟩
  | append_singleton rails r ih =>
    obtain ⟨out, hout, hsets⟩ := ih
    obtain ⟨out', hadd, hsets'⟩ := Go.addRail_sets out r
    refine ⟨out', ?_, ?_⟩
    · rw [Go.combineGuardrails] at hout ⊢
      rw [List.map_append, List.foldlM_append, hout, ok_bind]
      simp [hadd]
    · rw [hsets', hsets, strictest_concat]

/-! ### The decision of the Go server -/

/-- The meetup that the gates compare the limits with. -/
def meetup (env : Go.Env) (slugs : List String) (user : Nat) (v : Activity) : Meetup :=
  ⟨v.guardianAccompanied, env.localHour v.startsAt, env.localWeekday v.startsAt, slugs,
    env.openJoins user⟩

variable {env : Go.Env}

theorem Go.categoryAllowed_sets {out : EffectiveGuardrail} {activityType : Nat} :
    Go.categoryAllowed env out activityType =
      Py.typeInCategoryEnvelope out.sets.allowedCategories (env.ancestry activityType) := by
  simp only [Go.categoryAllowed, Go.EffectiveGuardrail.sets]
  cases out.categories with
  | none => rfl
  | some => simp [Py.typeInCategoryEnvelope]

theorem isOk_need_bind {ε : Type} {e : ε} {b : Bool} {f : Unit → Except ε α} :
    (need e b >>= f).isOk = (b && (f ()).isOk) := by
  cases b <;> rfl

theorem Go.childJoinGate_isOk {a : Go.Actor} {v : Activity}
    (hchild : a.user.cohort = .child) (hrails : env.rails a.id = rails.map Subtype.val) :
    (Go.childJoinGate env a v).isOk =
      (env.childVenue v.place && Py.passesGuardrails (Py.effectiveGuardrail rails)
        (meetup env (env.ancestry v.activityType) a.id v)) := by
  obtain ⟨out, hout, hsets⟩ := Go.combine_sets rails
  rw [Go.childJoinGate, if_neg (by simp [hchild]), isOk_need_bind, hrails, hout, ok_bind]
  refine congrArg _ ?_
  rw [isOk_need_bind, isOk_need_bind, Py.passes_effective, ← hsets, Bool.eq_iff_iff, Py.passes_some,
    Go.categoryAllowed_sets]
  have hlast : ∀ b, (need Go.Error.errForbidden b).isOk = b := fun b => by cases b <;> rfl
  have hweekdays : out.sets.allowedWeekdays.all (fun days =>
      decide (env.localWeekday v.startsAt ∈ days)) =
        out.weekdays.all fun days => decide (env.localWeekday v.startsAt ∈ days) := by
    rw [Go.EffectiveGuardrail.sets]
    cases out.weekdays with
    | none => rfl
    | some => simp
  have hsupervised : (!(out.supervised && !v.guardianAccompanied)) = true ↔
      (out.supervised = true → v.guardianAccompanied = true) := by
    cases out.supervised <;> cases v.guardianAccompanied <;> simp
  simp only [hlast, Go.withinHours, meetup, Bool.and_eq_true, hsupervised]
  constructor
  · intro ⟨⟨hsupervised, ⟨hlatest, hearliest⟩, hdays⟩, hcategories, hcap⟩
    exact ⟨hsupervised, hlatest, hweekdays.trans hdays, hearliest, hcategories, hcap⟩
  · intro ⟨hsupervised, hlatest, hdays, hearliest, hcategories, hcap⟩
    exact ⟨⟨hsupervised, ⟨hlatest, hearliest⟩, hweekdays.symm.trans hdays⟩, hcategories, hcap⟩

theorem Py.passes_slugs_congr {slugs slugs' : List String} {user : Nat} {v : Activity}
    (h : ∀ slug, slug ∈ slugs ↔ slug ∈ slugs') :
    Py.passesGuardrails (Py.effectiveGuardrail rails) (meetup env slugs user v) =
      Py.passesGuardrails (Py.effectiveGuardrail rails) (meetup env slugs' user v) := by
  have hany : ∀ allowed, Py.typeInCategoryEnvelope allowed slugs =
      Py.typeInCategoryEnvelope allowed slugs' := by
    intro allowed
    cases allowed with
    | none => rfl
    | some =>
      rw [Bool.eq_iff_iff]
      simp only [Py.typeInCategoryEnvelope, List.any_eq_true, h]
  rw [Py.passes_effective, Py.passes_effective, Bool.eq_iff_iff, Py.passes_some, Py.passes_some]
  simp only [meetup, hany]
  exact Iff.rfl

end

/-! ### The laws of the combination -/

/-- `_passes_guardrails` of a child on an activity, with the rows of its guardians. -/
def Py.allows (tax : Taxonomy) (env : Go.Env) (rails : List StoredRail) (user : Nat) (v : Activity) :
    Bool :=
  Py.passesGuardrails (Py.effectiveGuardrail rails)
    (meetup env (Py.categoryAncestrySlugs tax v.activityType) user v)

/-- What the Go server reads, with the rows of the child's guardians and the categories. -/
def withRails (tax : Taxonomy) (env : Go.Env) (rails : List StoredRail) : Go.Env :=
  { env with rails := fun _ => rails.map Subtype.val, ancestry := Go.categoryAncestry tax }

/-- The limits of all guardians together: order and repetition do not matter, each guardian's limits
hold, one more guardian or a tighter limit opens nothing, and both servers decide the same. -/
theorem guardrails_combined (rails : List StoredRail) :
    (∀ rails', (∀ r, r ∈ rails' ↔ r ∈ rails) →
      Py.effectiveGuardrail rails' = Py.effectiveGuardrail rails ∧
        (Go.combineGuardrails (rails'.map Subtype.val)).map Go.EffectiveGuardrail.sets =
          (Go.combineGuardrails (rails.map Subtype.val)).map Go.EffectiveGuardrail.sets) ∧
    (∀ tax env user v, Py.allows tax env rails user v = true →
      ∀ r ∈ rails, Py.allows tax env [r] user v = true) ∧
    (∀ r tax env user v, Py.allows tax env (r :: rails) user v = true →
      Py.allows tax env rails user v = true) ∧
    (∀ before r r' after, rails = before ++ r :: after → Tighter r' r → ∀ tax env user v,
      Py.allows tax env (before ++ r' :: after) user v = true →
        Py.allows tax env rails user v = true) ∧
    (∀ tax env a v, a.user.cohort = .child →
      (Go.childJoinGate (withRails tax env rails) a v).isOk =
        (env.childVenue v.place && Py.allows tax env rails a.id v)) := by
  refine ⟨?_, ?_, ?_, ?_, ?_⟩
  · intro rails' h
    obtain ⟨out, hout, hsets⟩ := Go.combine_sets rails
    obtain ⟨out', hout', hsets'⟩ := Go.combine_sets rails'
    refine ⟨Py.effective_congr h, ?_⟩
    rw [hout, hout', Except.map, Except.map, hsets, hsets', strictest_congr h]
  · intro tax env user v h r hr
    exact passes_iff.mpr ((passes_iff.mp h).mono fun q hq =>
      List.mem_singleton.mp hq ▸ hr)
  · intro r tax env user v h
    exact passes_iff.mpr ((passes_iff.mp h).mono fun q hq => List.mem_cons_of_mem r hq)
  · intro before r r' after hrails htighter tax env user v h
    refine passes_iff.mpr ((passes_iff.mp h).of_tighter fun q hq => ?_)
    rw [hrails, List.mem_append, List.mem_cons] at hq
    rcases hq with hq | rfl | hq
    · exact ⟨q, List.mem_append_left _ hq, Tighter.refl q⟩
    · exact ⟨r', List.mem_append_right _ (List.mem_cons_self ..), htighter⟩
    · exact ⟨q, List.mem_append_right _ (List.mem_cons_of_mem r' hq), Tighter.refl q⟩
  · intro tax env a v hchild
    rw [Go.childJoinGate_isOk hchild rfl]
    exact congrArg _ (Py.passes_slugs_congr fun slug => mem_categoryAncestry)

end SocialActivities.Social
