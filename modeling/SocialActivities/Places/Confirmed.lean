import SocialActivities.Places.PyMerge
import SocialActivities.Places.Venues

/-!
# `SocialActivities.Places.Confirmed`: what people have confirmed

An edge of origin `confirmed` or `manual` is a decision of people. The importers, in both languages,
leave such an edge alone, never lower a confidence and never make up a confirmation. A merge has to
combine two edges of one activity. `survives_merged_iff` says when both decisions survive it, and the
loops differ there:

* a deduplication compares the confidences, so a confirmed edge of the duplicate is lost to an
  inferred one of the canonical place that is as confident;
* an aggregation hands on no confirmation of the child;
* the Python aggregation also overwrites the provenance of a confirmed edge of the parent.

`confirmed_survive_iff` collects this for every run of both languages.
-/

namespace SocialActivities.Places

open Lib
open Lib.Machine (run steps)

variable {env : IngestEnv} {s t u : Catalog}

/-! ### The laws -/

/-- The edge has a protected successor with the same provenance. -/
def Edge.Upheld (e : Edge) (after : Option Edge) : Prop :=
  ∃ e', after = some e' ∧ e'.isProtected = true ∧ e'.provenance = e.provenance

/-- Every protected edge is upheld, on its place or on the place that this was merged into. -/
def Survives (s t : Catalog) (heir : Nat → Nat) : Prop :=
  ∀ place activity e, s.edges.get? (place, activity) = some e → e.isProtected = true →
    e.Upheld (t.edges.get? (heir place, activity))

/-- No edge that stays has become less confident. -/
def NeverLowers (s t : Catalog) : Prop :=
  ∀ key e e', s.edges.get? key = some e → t.edges.get? key = some e' → e.confidence ≤ e'.confidence

/-- A protected edge was protected before, on the place or on one that was merged into it. -/
def NeverRelabels (s t : Catalog) (heir : Nat → Nat) : Prop :=
  ∀ place activity e', t.edges.get? (place, activity) = some e' → e'.isProtected = true →
    ∃ before e, heir before = place ∧ s.edges.get? (before, activity) = some e ∧
      e.isProtected = true

theorem upheld_self {e : Edge} (h : e.isProtected = true) : e.Upheld (some e) := ⟨e, rfl, h, rfl⟩

theorem upheld_some {e e' : Edge} :
    e.Upheld (some e') ↔ e'.isProtected = true ∧ e'.provenance = e.provenance := by
  constructor
  · intro ⟨e'', heq, h⟩
    cases heq
    exact h
  · intro h
    exact ⟨e', rfl, h⟩

theorem not_upheld_none {e : Edge} : ¬e.Upheld none := fun ⟨_, h, _⟩ => by cases h

/-! ### Importers -/

/-- What the loop over the matches can do to an edge: nothing, or leave an unprotected edge that is
at least as confident as the unprotected one it replaces. -/
def Refreshes (s t : Catalog) : Prop :=
  ∀ key, t.edges.get? key = s.edges.get? key ∨
    ∃ e', t.edges.get? key = some e' ∧ e'.isProtected = false ∧
      ∀ e, s.edges.get? key = some e → e.isProtected = false ∧ e.confidence ≤ e'.confidence

theorem Refreshes.refl (s : Catalog) : Refreshes s s := fun _ => Or.inl rfl

theorem Refreshes.trans (h : Refreshes s t) (h' : Refreshes t u) : Refreshes s u := by
  intro key
  rcases h' key with hsame | ⟨e'', hu, hfree, hmore⟩
  · rw [hsame]
    exact h key
  · refine Or.inr ⟨e'', hu, hfree, fun e he => ?_⟩
    rcases h key with hsame | ⟨e', ht, -, hmore'⟩
    · exact hmore e (hsame.trans he)
    · exact ⟨(hmore' e he).1, (hmore' e he).2.trans (hmore e' ht).2⟩

theorem refreshes_setEdge {place activity : Nat} {e' : Edge} (hfree : e'.isProtected = false)
    (hmore : ∀ e, s.edges.get? (place, activity) = some e →
      e.isProtected = false ∧ e.confidence ≤ e'.confidence) :
    Refreshes s (s.setEdge place activity e') := by
  intro key
  have hget : (s.setEdge place activity e').edges.get? key =
      if key = (place, activity) then some e' else s.edges.get? key := KeyMap.get?_set ..
  by_cases hkey : key = (place, activity)
  · subst hkey
    rw [if_pos rfl] at hget
    exact Or.inr ⟨e', hget, hfree, hmore⟩
  · rw [if_neg hkey] at hget
    exact Or.inl hget

theorem refreshes_upsertEdge {place : Nat} {source : PlaceSource} {m : PlaceMatch}
    (h : upsertEdge env place source s m = .ok t) : Refreshes s t := by
  unfold upsertEdge at h
  split at h
  · cases h
  unfold writeEdge at h
  split at h
  · rename_i hnone
    rw [← pure_eq_ok.mp (seq_eq_ok.mp h).2]
    refine refreshes_setEdge rfl fun e he => ?_
    rw [hnone] at he
    cases he
  · rename_i existing hsome
    split at h
    · rename_i hstronger
      rw [Bool.and_eq_true, Bool.not_eq_true', decide_eq_true_eq] at hstronger
      rw [← pure_eq_ok.mp h]
      refine refreshes_setEdge rfl fun e he => ?_
      rw [hsome] at he
      cases he
      exact hstronger
    · rw [← pure_eq_ok.mp h]
      exact Refreshes.refl s

theorem refreshes_upsertEdges {place : Nat} {source : PlaceSource} {matched : List PlaceMatch}
    (h : upsertEdges env place source matched s = .ok t) : Refreshes s t := by
  induction matched generalizing s with
  | nil =>
    rw [← pure_eq_ok.mp h]
    exact Refreshes.refl s
  | cons m ms ih =>
    obtain ⟨u, hu, hrest⟩ := bind_eq_ok.mp h
    exact (refreshes_upsertEdge hu).trans (ih hrest)

theorem edges_write (s : Catalog) (found own : Option Nat) (merge refresh : Place → Place)
    (row : Place) : (s.write found own merge refresh row).1.edges = s.edges := by
  unfold Catalog.write
  cases found with
  | some => rfl
  | none => cases own <;> rfl

theorem Refreshes.congr (h : Refreshes u t) (hedges : u.edges = s.edges) : Refreshes s t := by
  unfold Refreshes at h ⊢
  rw [hedges] at h
  exact h

theorem Refreshes.survives (h : Refreshes s t) : Survives s t id := by
  intro place activity e he hprotected
  rcases h (place, activity) with hsame | ⟨e', -, -, hmore⟩
  · rw [id, hsame, he]
    exact upheld_self hprotected
  · rw [(hmore e he).1] at hprotected
    cases hprotected

theorem Refreshes.neverLowers (h : Refreshes s t) : NeverLowers s t := by
  intro key e e' he he'
  rcases h key with hsame | ⟨e'', ht, -, hmore⟩
  · rw [hsame, he] at he'
    cases he'
    exact le_refl _
  · rw [ht] at he'
    cases he'
    exact (hmore e he).2

theorem Refreshes.neverRelabels (h : Refreshes s t) : NeverRelabels s t id := by
  intro place activity e' he' hprotected
  rcases h (place, activity) with hsame | ⟨e'', ht, hfree, -⟩
  · exact ⟨place, e', rfl, hsame.symm.trans he', hprotected⟩
  · rw [ht] at he'
    cases he'
    rw [hfree] at hprotected
    cases hprotected

/-! ### Merges -/

/-- The edges after a merge: those of the duplicate are gone, and each of its activities has the
combined edge on the canonical place. -/
def Merged (s t : Catalog) (pair : MergePair) (combine : Option Edge → Edge → Option Edge) : Prop :=
  ∀ place activity, t.edges.get? (place, activity) =
    if place = pair.duplicate then none
    else if place = pair.canonical then
      (s.edges.get? (pair.duplicate, activity)).elim (s.edges.get? (pair.canonical, activity))
        (combine (s.edges.get? (pair.canonical, activity)))
    else s.edges.get? (place, activity)

/-- A round of a loop over the edges of the duplicate writes the combined edge of its activity. -/
structure LoopRound (pair : MergePair) (combine : Option Edge → Edge → Option Edge)
    (f : Catalog → Nat × Edge → Catalog) : Prop where
  own : ∀ s row, (f s row).edges.get? (pair.canonical, row.1) =
    combine (s.edges.get? (pair.canonical, row.1)) row.2
  other : ∀ s row place activity, place ≠ pair.duplicate →
    (place = pair.canonical → activity ≠ row.1) →
    (f s row).edges.get? (place, activity) = s.edges.get? (place, activity)

theorem LoopRound.get?_foldl {pair : MergePair} {combine : Option Edge → Edge → Option Edge}
    {f : Catalog → Nat × Edge → Catalog} (hf : LoopRound pair combine f) (rows : List (Nat × Edge))
    (hrows : (rows.map Prod.fst).Nodup) (s : Catalog) {place : Nat} (activity : Nat)
    (hplace : place ≠ pair.duplicate) :
    (rows.foldl f s).edges.get? (place, activity) =
      if place = pair.canonical then
        (rows.lookup activity).elim (s.edges.get? (place, activity))
          (combine (s.edges.get? (place, activity)))
      else s.edges.get? (place, activity) := by
  induction rows generalizing s with
  | nil => simp
  | cons row rows ih =>
    rw [List.map_cons, List.nodup_cons] at hrows
    rw [List.foldl_cons, ih hrows.2]
    by_cases hcanonical : place = pair.canonical
    · rw [if_pos hcanonical, if_pos hcanonical, List.lookup_cons]
      by_cases hactivity : activity = row.1
      · -- No later round has this activity.
        have hlater : rows.lookup row.1 = none := by
          rw [List.lookup_eq_none_iff]
          intro later hlater
          rw [bne_iff_ne]
          intro heq
          exact hrows.1 (heq ▸ List.mem_map.mpr ⟨later, hlater, rfl⟩)
        subst hactivity
        rw [hlater, hcanonical, hf.own]
        simp
      · rw [hf.other s row place activity hplace fun _ => hactivity]
        have hne : (activity == row.1) = false := by simpa using hactivity
        rw [hne]
    · rw [if_neg hcanonical, if_neg hcanonical]
      exact hf.other s row place activity hplace fun h => absurd h hcanonical

theorem lookup_edgesOf (s : Catalog) (id activity : Nat) :
    (s.edgesOf id).lookup activity = s.edges.get? (id, activity) := by
  have hnodup := Catalog.nodup_edgesOf s id
  have hmem : ∀ e, (activity, e) ∈ s.edgesOf id ↔ s.edges.get? (id, activity) = some e := fun e =>
    Catalog.mem_edgesOf
  cases hlookup : (s.edgesOf id).lookup activity with
  | none =>
    cases hget : s.edges.get? (id, activity) with
    | none => rfl
    | some e =>
      have hno := List.lookup_eq_none_iff.mp hlookup _ ((hmem e).mpr hget)
      simp at hno
  | some e =>
    obtain ⟨before, after, heq, -⟩ := List.lookup_eq_some_iff.mp hlookup
    refine ((hmem e).mp ?_).symm
    rw [heq]
    exact List.mem_append_right _ List.mem_cons_self

theorem LoopRound.merged {pair : MergePair} {combine : Option Edge → Edge → Option Edge}
    {f : Catalog → Nat × Edge → Catalog} (hf : LoopRound pair combine f)
    (hu : u.edges = ((s.edgesOf pair.duplicate).foldl f s).edges) :
    Merged s (u.removePlace pair.duplicate) pair combine := by
  intro place activity
  show (u.edges.removeIf _).get? _ = _
  rw [KeyMap.get?_removeIf, hu]
  by_cases hplace : place = pair.duplicate
  · rw [if_pos hplace]
    subst hplace
    cases ((s.edgesOf pair.duplicate).foldl f s).edges.get? (pair.duplicate, activity) <;> simp
  · rw [if_neg hplace, hf.get?_foldl _ (Catalog.nodup_edgesOf s _) s activity hplace, lookup_edgesOf]
    have hkeep : ∀ x : Option Edge, x.filter (fun _ => !(place == pair.duplicate)) = x := by
      intro x
      cases x <;> simp [hplace]
    rw [hkeep]
    by_cases hcanonical : place = pair.canonical
    · rw [if_pos hcanonical, if_pos hcanonical, hcanonical]
    · rw [if_neg hcanonical, if_neg hcanonical]

/-- When both decisions survive a merge: a protected edge of the canonical place its combination
with the duplicate's, and one of the duplicate its combination with the canonical place's. -/
theorem survives_merged_iff {pair : MergePair} {combine : Option Edge → Edge → Option Edge}
    (h : Merged s t pair combine) {heir : Nat → Nat} (hduplicate : heir pair.duplicate = pair.canonical)
    (hother : ∀ id, id ≠ pair.duplicate → heir id = id) :
    Survives s t heir ↔
      (∀ activity c, s.edges.get? (pair.canonical, activity) = some c → c.isProtected = true →
        ∀ d, s.edges.get? (pair.duplicate, activity) = some d → c.Upheld (combine (some c) d)) ∧
      ∀ activity d, s.edges.get? (pair.duplicate, activity) = some d → d.isProtected = true →
        d.Upheld (combine (s.edges.get? (pair.canonical, activity)) d) := by
  constructor
  · intro hsurvives
    constructor
    · intro activity c hc hprotected d hd
      have hkept := hsurvives pair.canonical activity c hc hprotected
      rw [hother _ pair.distinct, h, if_neg pair.distinct, if_pos rfl, hd, hc] at hkept
      exact hkept
    · intro activity d hd hprotected
      have hkept := hsurvives pair.duplicate activity d hd hprotected
      rw [hduplicate, h, if_neg pair.distinct, if_pos rfl, hd] at hkept
      exact hkept
  · intro ⟨hcanonical, hdup⟩ place activity e he hprotected
    by_cases hplace : place = pair.duplicate
    · subst hplace
      rw [hduplicate, h, if_neg pair.distinct, if_pos rfl, he]
      exact hdup activity e he hprotected
    · rw [hother _ hplace, h, if_neg hplace]
      by_cases hown : place = pair.canonical
      · subst hown
        rw [if_pos rfl]
        cases hd : s.edges.get? (pair.duplicate, activity) with
        | none =>
          rw [he]
          exact upheld_self hprotected
        | some d =>
          rw [he]
          exact hcanonical activity e he hprotected d hd
      · rw [if_neg hown, he]
        exact upheld_self hprotected

theorem Merged.neverLowers {pair : MergePair} {combine : Option Edge → Edge → Option Edge}
    (h : Merged s t pair combine)
    (hcombine : ∀ c d e, combine (some c) d = some e → c.confidence ≤ e.confidence) :
    NeverLowers s t := by
  intro ⟨place, activity⟩ e e' he he'
  rw [h] at he'
  split at he'
  · cases he'
  · split at he'
    · rename_i hcanonical
      subst hcanonical
      rw [he] at he'
      cases hd : s.edges.get? (pair.duplicate, activity) with
      | none =>
        rw [hd] at he'
        cases he'
        exact le_refl _
      | some d =>
        rw [hd] at he'
        exact hcombine e d e' he'
    · rw [he] at he'
      cases he'
      exact le_refl _

/-- A combination that is protected only where one of the two edges is makes up no confirmation. -/
theorem Merged.neverRelabels {pair : MergePair} {combine : Option Edge → Edge → Option Edge}
    (h : Merged s t pair combine) {heir : Nat → Nat} (hduplicate : heir pair.duplicate = pair.canonical)
    (hother : ∀ id, id ≠ pair.duplicate → heir id = id)
    (hcombine : ∀ own d e, combine own d = some e → e.isProtected = true →
      d.isProtected = true ∨ ∃ c, own = some c ∧ c.isProtected = true) :
    NeverRelabels s t heir := by
  intro place activity e' he' hprotected
  rw [h] at he'
  split at he'
  · cases he'
  · rename_i hplace
    split at he'
    · rename_i hcanonical
      subst hcanonical
      cases hd : s.edges.get? (pair.duplicate, activity) with
      | none =>
        rw [hd] at he'
        exact ⟨pair.canonical, e', hother _ hplace, he', hprotected⟩
      | some d =>
        rw [hd] at he'
        rcases hcombine _ d e' he' hprotected with hfrom | ⟨c, hc, hfrom⟩
        · exact ⟨pair.duplicate, d, hduplicate, hd, hfrom⟩
        · exact ⟨pair.canonical, c, hother _ hplace, hc, hfrom⟩
    · exact ⟨place, e', hother _ hplace, he', hprotected⟩

/-! ### The three loops -/

/-- The edge that `mergePlaces` leaves on the canonical place. -/
def goCombined (aggregate : Bool) (own : Option Edge) (e : Edge) : Option Edge :=
  if aggregate && e.isDisputed then own
  else
    match own with
    | none =>
      if aggregate then some ⟨.inferred, e.confidence, e.source, e.mappingRule, false⟩ else some e
    | some existing =>
      if existing.confidence < e.confidence && !existing.isProtected then
        some { existing with
          origin := if aggregate then existing.origin else e.origin
          confidence := e.confidence
          source := e.source
          mappingRule := e.mappingRule }
      else some existing

/-- The edge that `_merge_and_delete` leaves on the parent. -/
def pyAggregated (own : Option Edge) (e : Edge) : Option Edge :=
  if e.isDisputed then own
  else
    match own with
    | none => some ⟨.inferred, e.confidence, e.source, e.mappingRule, false⟩
    | some existing =>
      if existing.confidence < e.confidence then
        some { existing with
          confidence := e.confidence
          source := e.source
          mappingRule := e.mappingRule }
      else some existing

theorem get?_setEdge (s : Catalog) (place activity : Nat) (e : Edge) (key : Nat × Nat) :
    (s.setEdge place activity e).edges.get? key =
      if key = (place, activity) then some e else s.edges.get? key := KeyMap.get?_set ..

theorem get?_moveEdge (s : Catalog) (id activity canonical : Nat) (e : Edge) (key : Nat × Nat) :
    (s.moveEdge id activity canonical e).edges.get? key =
      if key = (canonical, activity) then some e
      else (s.edges.get? key).filter fun _ => !(key == (id, activity)) := by
  show ((s.edges.removeIf _).set _ _).get? key = _
  rw [KeyMap.get?_set, KeyMap.get?_removeIf]

theorem get?_setEdge_other {pair : MergePair} {row : Nat × Edge} {place activity : Nat} (s : Catalog)
    (e : Edge) (h : place = pair.canonical → activity ≠ row.1) :
    (s.setEdge pair.canonical row.1 e).edges.get? (place, activity) =
      s.edges.get? (place, activity) := by
  rw [get?_setEdge, if_neg]
  intro heq
  cases heq
  exact h rfl rfl

theorem loopRound_mergeEdge (pair : MergePair) (aggregate : Bool) :
    LoopRound pair (goCombined aggregate) (mergeEdge pair aggregate) where
  own := by
    intro s row
    unfold mergeEdge goCombined
    dsimp only
    split
    · rfl
    · cases hown : s.edges.get? (pair.canonical, row.1) with
      | none =>
        cases aggregate with
        | true => exact (get?_setEdge ..).trans (if_pos rfl)
        | false => exact (get?_moveEdge ..).trans (if_pos rfl)
      | some =>
        dsimp only
        split
        · exact (get?_setEdge ..).trans (if_pos rfl)
        · exact hown
  other := by
    intro s row place activity hplace hactivity
    unfold mergeEdge
    dsimp only
    split
    · rfl
    · cases s.edges.get? (pair.canonical, row.1) with
      | none =>
        cases aggregate with
        | true => exact get?_setEdge_other s _ hactivity
        | false =>
          show (s.moveEdge pair.duplicate row.1 pair.canonical row.2).edges.get? _ = _
          rw [get?_moveEdge, if_neg fun heq => hactivity (Prod.mk.inj heq).1 (Prod.mk.inj heq).2]
          cases s.edges.get? (place, activity) <;> simp [hplace]
      | some =>
        dsimp only
        split
        · exact get?_setEdge_other s _ hactivity
        · rfl

theorem loopRound_pyAggregateEdge (pair : MergePair) :
    LoopRound pair pyAggregated (pyAggregateEdge pair) where
  own := by
    intro s row
    unfold pyAggregateEdge pyAggregated
    dsimp only
    split
    · rfl
    · cases hown : s.edges.get? (pair.canonical, row.1) with
      | none => exact (get?_setEdge ..).trans (if_pos rfl)
      | some =>
        dsimp only
        split
        · exact (get?_setEdge ..).trans (if_pos rfl)
        · exact hown
  other := by
    intro s row place activity hplace hactivity
    unfold pyAggregateEdge
    dsimp only
    split
    · rfl
    · cases s.edges.get? (pair.canonical, row.1) with
      | none => exact get?_setEdge_other s _ hactivity
      | some =>
        dsimp only
        split
        · exact get?_setEdge_other s _ hactivity
        · rfl

theorem goCombined_protected {aggregate : Bool} {c : Edge} (h : c.isProtected = true) (d : Edge) :
    goCombined aggregate (some c) d = some c := by
  unfold goCombined
  split
  · rfl
  · simp [h]

/-- When a protected edge of the duplicate survives `mergePlaces`: the canonical place has a
protected edge of the same provenance, or the places are one and the canonical edge, if there is
one, is inferred and less confident. -/
theorem not_upheld_inferred {d : Edge} :
    ¬d.Upheld (if d.isDisputed = true then none
      else some ⟨.inferred, d.confidence, d.source, d.mappingRule, false⟩) := by
  split
  · exact not_upheld_none
  · intro h
    cases (upheld_some.mp h).1

theorem goCombined_upheld_iff {aggregate : Bool} {own : Option Edge} {d : Edge}
    (hd : d.isProtected = true) :
    d.Upheld (goCombined aggregate own d) ↔
      (∃ c, own = some c ∧ c.isProtected = true ∧ c.provenance = d.provenance) ∨
      aggregate = false ∧ ∀ c, own = some c → c.isProtected = false ∧ c.confidence < d.confidence := by
  cases own with
  | none =>
    unfold goCombined
    cases aggregate with
    | true => simpa using not_upheld_inferred (d := d)
    | false =>
      have hyes : d.Upheld (some d) := upheld_self hd
      simpa using hyes
  | some c =>
    by_cases hc : c.isProtected = true
    · rw [goCombined_protected hc, upheld_some]
      simp [hc]
    · rw [Bool.not_eq_true] at hc
      unfold goCombined
      cases aggregate with
      | true =>
        have hno : ∀ e : Edge, e.origin = c.origin → ¬d.Upheld (some e) := by
          intro e horigin h
          have hfree : e.isProtected = c.isProtected := by
            unfold Edge.isProtected
            rw [horigin]
          rw [upheld_some, hfree, hc] at h
          cases h.1
        have hnot : ¬d.Upheld (if d.isDisputed = true then some c else
            if c.confidence < d.confidence then
              some { c with
                confidence := d.confidence
                source := d.source
                mappingRule := d.mappingRule }
            else some c) := by
          split
          · exact hno c rfl
          · split
            · exact hno _ rfl
            · exact hno c rfl
        simpa [hc] using hnot
      | false =>
        by_cases hless : c.confidence < d.confidence
        · have hyes : d.Upheld (some { c with
              origin := d.origin
              confidence := d.confidence
              source := d.source
              mappingRule := d.mappingRule }) := upheld_some.mpr ⟨hd, rfl⟩
          simpa [hc, hless] using hyes
        · have hno : ¬d.Upheld (some c) := fun h => by
            rw [upheld_some, hc] at h
            cases h.1
          simpa [hc, hless] using hno

/-- When a protected edge of the parent survives the Python aggregation: its provenance is not
overwritten by another. -/
theorem pyAggregated_parent_iff {c d : Edge} (hc : c.isProtected = true) :
    c.Upheld (pyAggregated (some c) d) ↔
      (d.isDisputed = false → c.confidence < d.confidence → d.provenance = c.provenance) := by
  unfold pyAggregated
  have hself : c.Upheld (some c) := upheld_self hc
  cases hdisputed : d.isDisputed with
  | true => simpa using hself
  | false =>
    by_cases hless : c.confidence < d.confidence
    · have hiff : c.Upheld (some { c with
          confidence := d.confidence
          source := d.source
          mappingRule := d.mappingRule }) ↔ d.provenance = c.provenance :=
        upheld_some.trans (and_iff_right hc)
      simpa [hless] using hiff
    · simpa [hless] using hself

/-- When a protected edge of the child survives it: the parent has a protected edge, of the same
provenance or one that takes it over. -/
theorem pyAggregated_child_iff {own : Option Edge} {d : Edge} :
    d.Upheld (pyAggregated own d) ↔
      ∃ c, own = some c ∧ c.isProtected = true ∧
        (c.provenance = d.provenance ∨ d.isDisputed = false ∧ c.confidence < d.confidence) := by
  unfold pyAggregated
  cases own with
  | none =>
    simpa using not_upheld_inferred (d := d)
  | some c =>
    cases hdisputed : d.isDisputed with
    | true => simp [upheld_some]
    | false =>
      by_cases hless : c.confidence < d.confidence
      · have hiff : d.Upheld (some { c with
            confidence := d.confidence
            source := d.source
            mappingRule := d.mappingRule }) ↔ c.isProtected = true := by
          refine upheld_some.trans ?_
          exact and_iff_left rfl
        simpa [hless] using hiff
      · simp [hless, upheld_some]

theorem goCombined_confidence {aggregate : Bool} {c d e : Edge}
    (h : goCombined aggregate (some c) d = some e) : c.confidence ≤ e.confidence := by
  unfold goCombined at h
  split at h
  · cases h
    exact le_refl _
  · dsimp only at h
    split at h
    · rename_i hless
      rw [Bool.and_eq_true, decide_eq_true_eq] at hless
      cases h
      exact hless.1.le
    · cases h
      exact le_refl _

theorem pyAggregated_confidence {c d e : Edge} (h : pyAggregated (some c) d = some e) :
    c.confidence ≤ e.confidence := by
  unfold pyAggregated at h
  split at h
  · cases h
    exact le_refl _
  · dsimp only at h
    split at h
    · rename_i hless
      cases h
      exact hless.le
    · cases h
      exact le_refl _

theorem goCombined_made {aggregate : Bool} {own : Option Edge} {d e : Edge}
    (h : goCombined aggregate own d = some e) (he : e.isProtected = true) :
    d.isProtected = true ∨ ∃ c, own = some c ∧ c.isProtected = true := by
  unfold goCombined at h
  split at h
  · exact Or.inr ⟨e, h, he⟩
  · cases own with
    | none =>
      cases aggregate with
      | true =>
        cases h
        cases he
      | false =>
        cases h
        exact Or.inl he
    | some c =>
      dsimp only at h
      split at h
      · cases aggregate with
        | true =>
          cases h
          exact Or.inr ⟨c, rfl, he⟩
        | false =>
          cases h
          exact Or.inl he
      · cases h
        exact Or.inr ⟨e, rfl, he⟩

theorem pyAggregated_made {own : Option Edge} {d e : Edge} (h : pyAggregated own d = some e)
    (he : e.isProtected = true) :
    d.isProtected = true ∨ ∃ c, own = some c ∧ c.isProtected = true := by
  unfold pyAggregated at h
  split at h
  · exact Or.inr ⟨e, h, he⟩
  · cases own with
    | none =>
      cases h
      cases he
    | some c =>
      dsimp only at h
      split at h
      · cases h
        exact Or.inr ⟨c, rfl, he⟩
      · cases h
        exact Or.inr ⟨e, rfl, he⟩

/-! ### Steps of both languages -/

/-- An automated operation on the edges. -/
inductive AutomatedAction where
  | go (a : CatalogAction)
  | pyIngest (place : Nat) (source : PlaceSource) (matched : List PlaceMatch)
  | pyMerge (pair : MergePair) (recorded : Bool)
  | pyAggregate (pair : MergePair) (blocked : Bool)

/-- The operation, if it is not rolled back. -/
def AutomatedAction.apply (env : IngestEnv) (s : Catalog) :
    AutomatedAction → Except IngestError Catalog
  | .go a => a.apply env s
  | .pyIngest place source matched => pyUpsertEdges env place source matched s
  | .pyMerge pair recorded => pyMergePlaces pair recorded s
  | .pyAggregate pair blocked => pyMergeAndDelete pair blocked s

/-- One step: an operation that fails changes nothing. -/
def automatedStep (env : IngestEnv) (s : Catalog) (a : AutomatedAction) : Catalog :=
  (a.apply env s).toOption.getD s

/-- The place that stands for a place after a step. -/
def AutomatedAction.heir (env : IngestEnv) (s : Catalog) (a : AutomatedAction) (id : Nat) : Nat :=
  match a with
  | .go (.merge pair _ _) | .pyMerge pair _ | .pyAggregate pair _ =>
    pair.heir s (automatedStep env s a) id
  | _ => id

/-- `mergePlaces` and `merge_places` lose no decision: where the duplicate has a protected edge, the
canonical place has a protected edge of the same provenance, or (in a merge of one place) none, or
an inferred and less confident one. -/
def LosesNone (aggregate : Bool) (s : Catalog) (pair : MergePair) : Prop :=
  ∀ activity d, s.edges.get? (pair.duplicate, activity) = some d → d.isProtected = true →
    (∃ c, s.edges.get? (pair.canonical, activity) = some c ∧ c.isProtected = true ∧
      c.provenance = d.provenance) ∨
    aggregate = false ∧ ∀ c, s.edges.get? (pair.canonical, activity) = some c →
      c.isProtected = false ∧ c.confidence < d.confidence

/-- `_merge_and_delete` loses none: a protected edge of the parent is not overwritten by one of
another provenance, and one of the child has a protected counterpart on the parent. -/
def AggregationLosesNone (s : Catalog) (pair : MergePair) : Prop :=
  (∀ activity c, s.edges.get? (pair.canonical, activity) = some c → c.isProtected = true →
    ∀ d, s.edges.get? (pair.duplicate, activity) = some d → d.isDisputed = false →
      c.confidence < d.confidence → d.provenance = c.provenance) ∧
  ∀ activity d, s.edges.get? (pair.duplicate, activity) = some d → d.isProtected = true →
    ∃ c, s.edges.get? (pair.canonical, activity) = some c ∧ c.isProtected = true ∧
      (c.provenance = d.provenance ∨ d.isDisputed = false ∧ c.confidence < d.confidence)

/-- Both places are there, and the canonical place has no text in the place of the sources. -/
structure PyMerges (s : Catalog) (pair : MergePair) (canonical duplicate : Place) : Prop where
  canonicalRow : s.places.get? pair.canonical = some canonical
  duplicateRow : s.places.get? pair.duplicate = some duplicate
  noText : canonical.mergedSources.isText = false

/-- Both places are there, and nothing points to the child. -/
structure Aggregates (s : Catalog) (pair : MergePair) (blocked : Bool) (canonical duplicate : Place) :
    Prop where
  canonicalRow : s.places.get? pair.canonical = some canonical
  duplicateRow : s.places.get? pair.duplicate = some duplicate
  unblocked : blocked = false

/-- The condition for one operation: a merge that goes through loses no decision. -/
def AutomatedAction.LosesNone (s : Catalog) : AutomatedAction → Prop
  | .go (.merge pair aggregate blocked) =>
    ∀ canonical duplicate, Merges s pair blocked canonical duplicate →
      SocialActivities.Places.LosesNone aggregate s pair
  | .pyMerge pair _ =>
    ∀ canonical duplicate, PyMerges s pair canonical duplicate →
      SocialActivities.Places.LosesNone false s pair
  | .pyAggregate pair blocked =>
    ∀ canonical duplicate, Aggregates s pair blocked canonical duplicate →
      AggregationLosesNone s pair
  | _ => True

/-- A merge goes through where both places allow it, and does nothing elsewhere. -/
theorem automatedStep_merge (pair : MergePair) (aggregate blocked : Bool) :
    (∃ canonical duplicate, Merges s pair blocked canonical duplicate ∧
      automatedStep env s (.go (.merge pair aggregate blocked)) =
        foldDuplicate pair aggregate duplicate s) ∨
    (∀ canonical duplicate, ¬Merges s pair blocked canonical duplicate) ∧
      automatedStep env s (.go (.merge pair aggregate blocked)) = s := by
  show (∃ canonical duplicate, _ ∧ (mergePlaces pair aggregate blocked s).toOption.getD s = _) ∨
    _ ∧ (mergePlaces pair aggregate blocked s).toOption.getD s = s
  cases hmerge : mergePlaces pair aggregate blocked s with
  | error =>
    refine Or.inr ⟨fun canonical duplicate h => ?_, rfl⟩
    rw [h.commits aggregate] at hmerge
    cases hmerge
  | ok =>
    rcases merges_or_same hmerge with ⟨hsame, hno⟩ | ⟨canonical, duplicate, h, hfold⟩
    · exact Or.inr ⟨hno, hsame⟩
    · exact Or.inl ⟨canonical, duplicate, h, hfold⟩

theorem automatedStep_pyMerge (pair : MergePair) (recorded : Bool) :
    (∃ canonical duplicate, PyMerges s pair canonical duplicate ∧
      automatedStep env s (.pyMerge pair recorded) = pyFoldDuplicate pair recorded duplicate s) ∨
    (∀ canonical duplicate, ¬PyMerges s pair canonical duplicate) ∧
      automatedStep env s (.pyMerge pair recorded) = s := by
  show (∃ canonical duplicate, _ ∧ (pyMergePlaces pair recorded s).toOption.getD s = _) ∨
    _ ∧ (pyMergePlaces pair recorded s).toOption.getD s = s
  cases hmerge : pyMergePlaces pair recorded s with
  | error =>
    refine Or.inr ⟨fun canonical duplicate h => ?_, rfl⟩
    have hok : pyMergePlaces pair recorded s = .ok (pyFoldDuplicate pair recorded duplicate s) := by
      refine bind_eq_ok.mpr ⟨canonical, elim_eq_ok.mpr h.canonicalRow, ?_⟩
      refine bind_eq_ok.mpr ⟨duplicate, elim_eq_ok.mpr h.duplicateRow, ?_⟩
      exact seq_eq_ok.mpr ⟨need_eq_ok.mpr (by rw [h.noText]; rfl), rfl⟩
    rw [hok] at hmerge
    cases hmerge
  | ok =>
    obtain ⟨canonical, hcanonical, h⟩ := bind_eq_ok.mp hmerge
    obtain ⟨duplicate, hduplicate, h⟩ := bind_eq_ok.mp h
    obtain ⟨hnoText, h⟩ := seq_eq_ok.mp h
    rw [need_eq_ok, Bool.not_eq_true'] at hnoText
    exact Or.inl ⟨canonical, duplicate,
      ⟨elim_eq_ok.mp hcanonical, elim_eq_ok.mp hduplicate, hnoText⟩, (pure_eq_ok.mp h).symm⟩

theorem automatedStep_pyAggregate (pair : MergePair) (blocked : Bool) :
    (∃ canonical duplicate, Aggregates s pair blocked canonical duplicate ∧
      automatedStep env s (.pyAggregate pair blocked) = pyFoldChild pair s) ∨
    (∀ canonical duplicate, ¬Aggregates s pair blocked canonical duplicate) ∧
      automatedStep env s (.pyAggregate pair blocked) = s := by
  show (∃ canonical duplicate, _ ∧ (pyMergeAndDelete pair blocked s).toOption.getD s = _) ∨
    _ ∧ (pyMergeAndDelete pair blocked s).toOption.getD s = s
  cases hmerge : pyMergeAndDelete pair blocked s with
  | error =>
    refine Or.inr ⟨fun canonical duplicate h => ?_, rfl⟩
    have hok : pyMergeAndDelete pair blocked s = .ok (pyFoldChild pair s) := by
      refine bind_eq_ok.mpr ⟨duplicate, elim_eq_ok.mpr h.duplicateRow, ?_⟩
      refine bind_eq_ok.mpr ⟨canonical, elim_eq_ok.mpr h.canonicalRow, ?_⟩
      rw [h.unblocked]
      rfl
    rw [hok] at hmerge
    cases hmerge
  | ok =>
    obtain ⟨duplicate, hduplicate, h⟩ := bind_eq_ok.mp hmerge
    obtain ⟨canonical, hcanonical, h⟩ := bind_eq_ok.mp h
    rw [elim_eq_ok] at hduplicate hcanonical
    cases blocked with
    | true => exact Or.inr ⟨fun c d h => (by cases h.unblocked), (pure_eq_ok.mp h).symm⟩
    | false => exact Or.inl ⟨canonical, duplicate, ⟨hcanonical, hduplicate, rfl⟩,
        (pure_eq_ok.mp h).symm⟩

/-- The three laws of a step. -/
structure StepLaws (s t : Catalog) (heir : Nat → Nat) (losesNone : Prop) : Prop where
  survives_iff : Survives s t heir ↔ losesNone
  neverLowers : NeverLowers s t
  neverRelabels : NeverRelabels s t heir

theorem StepLaws.congr {heir : Nat → Nat} {p q : Prop} (h : StepLaws s t heir p) (hiff : p ↔ q) :
    StepLaws s t heir q :=
  ⟨h.survives_iff.trans hiff, h.neverLowers, h.neverRelabels⟩

theorem stepLaws_same {heir : Nat → Nat} {losesNone : Prop} (hheir : ∀ id, heir id = id)
    (hvacuous : losesNone) : StepLaws s s heir losesNone := by
  have hid : heir = id := funext hheir
  rw [hid]
  exact ⟨⟨fun _ => hvacuous, fun _ => (Refreshes.refl s).survives⟩,
    (Refreshes.refl s).neverLowers, (Refreshes.refl s).neverRelabels⟩

theorem Refreshes.stepLaws (h : Refreshes s t) : StepLaws s t id True :=
  ⟨iff_of_true h.survives trivial, h.neverLowers, h.neverRelabels⟩

theorem goCombined_laws {pair : MergePair} {aggregate : Bool}
    (h : Merged s t pair (goCombined aggregate)) {duplicate : Place}
    (hduplicate : s.places.get? pair.duplicate = some duplicate)
    (hgone : t.places.get? pair.duplicate = none) :
    StepLaws s t (pair.heir s t) (LosesNone aggregate s pair) := by
  have hheir := heir_duplicate hduplicate hgone
  have hother : ∀ id, id ≠ pair.duplicate → pair.heir s t id = id := fun id hid => heir_ne hid
  refine ⟨?_, h.neverLowers fun _ _ _ => goCombined_confidence,
    h.neverRelabels hheir hother fun _ _ _ => goCombined_made⟩
  rw [survives_merged_iff h hheir hother]
  constructor
  · intro ⟨_, hdup⟩ activity d hd hprotected
    exact (goCombined_upheld_iff hprotected).mp (hdup activity d hd hprotected)
  · intro hguard
    constructor
    · intro activity c _ hprotected d _
      rw [goCombined_protected hprotected]
      exact upheld_self hprotected
    · intro activity d hd hprotected
      exact (goCombined_upheld_iff hprotected).mpr (hguard activity d hd hprotected)

theorem pyAggregated_laws {pair : MergePair}
    (h : Merged s t pair pyAggregated) {duplicate : Place}
    (hduplicate : s.places.get? pair.duplicate = some duplicate)
    (hgone : t.places.get? pair.duplicate = none) :
    StepLaws s t (pair.heir s t) (AggregationLosesNone s pair) := by
  have hheir := heir_duplicate hduplicate hgone
  have hother : ∀ id, id ≠ pair.duplicate → pair.heir s t id = id := fun id hid => heir_ne hid
  refine ⟨?_, h.neverLowers fun _ _ _ => pyAggregated_confidence,
    h.neverRelabels hheir hother fun _ _ _ => pyAggregated_made⟩
  rw [survives_merged_iff h hheir hother]
  constructor
  · intro ⟨hparent, hchild⟩
    constructor
    · intro activity c hc hprotected d hd
      exact (pyAggregated_parent_iff hprotected).mp (hparent activity c hc hprotected d hd)
    · intro activity d hd hprotected
      exact pyAggregated_child_iff.mp (hchild activity d hd hprotected)
  · intro ⟨hparent, hchild⟩
    constructor
    · intro activity c hc hprotected d hd
      exact (pyAggregated_parent_iff hprotected).mpr (hparent activity c hc hprotected d hd)
    · intro activity d hd hprotected
      exact pyAggregated_child_iff.mpr (hchild activity d hd hprotected)

theorem refreshes_ingest (raw : RawPlace) (matched : List PlaceMatch) (dedup : Bool)
    (nearby : List Nat) : Refreshes s (catalogStep env s (.ingest raw matched dedup nearby)) := by
  rcases catalogStep_eq_or env s (.ingest raw matched dedup nearby) with hsame | hok
  · rw [hsame]
    exact Refreshes.refl s
  · obtain ⟨-, hedges⟩ := seq_eq_ok.mp hok
    exact (refreshes_upsertEdges hedges).congr (edges_write ..)

theorem refreshes_venue (item : VenueItem) (nearby : List Nat) :
    Refreshes s (catalogStep env s (.venue item nearby)) := by
  rcases catalogStep_eq_or env s (.venue item nearby) with hsame | hok
  · rw [hsame]
    exact Refreshes.refl s
  · exact (refreshes_upsertEdges hok).congr (edges_write ..)

theorem refreshes_pyIngest (place : Nat) (source : PlaceSource) (matched : List PlaceMatch) :
    Refreshes s (automatedStep env s (.pyIngest place source matched)) := by
  show Refreshes s ((pyUpsertEdges env place source matched s).toOption.getD s)
  rw [pyUpsertEdges_eq]
  cases hedges : upsertEdges env place source matched s with
  | error => exact Refreshes.refl s
  | ok => exact refreshes_upsertEdges hedges

/-- The laws of every step: no confidence is lowered and no confirmation is made up, and the
decisions survive exactly when the operation loses none. -/
theorem automatedStep_laws (env : IngestEnv) (s : Catalog) (a : AutomatedAction) :
    StepLaws s (automatedStep env s a) (a.heir env s) (a.LosesNone s) := by
  cases a with
  | go a =>
    cases a with
    | ingest raw matched dedup nearby =>
      exact (refreshes_ingest raw matched dedup nearby).stepLaws
    | venue item nearby => exact (refreshes_venue item nearby).stepLaws
    | merge pair aggregate blocked =>
      show StepLaws s _ (pair.heir s (automatedStep env s _)) _
      rcases @automatedStep_merge env s pair aggregate blocked with ⟨c, d, h, hstep⟩ | ⟨hno, hstep⟩
      · rw [hstep]
        have hmerged : Merged s (foldDuplicate pair aggregate d s) pair (goCombined aggregate) :=
          (loopRound_mergeEdge pair aggregate).merged (by cases aggregate <;> rfl)
        refine (goCombined_laws hmerged h.duplicateRow
          (get?_foldDuplicate_duplicate pair aggregate d)).congr ?_
        exact ⟨fun hnone _ _ _ => hnone, fun hall => hall c d h⟩
      · rw [hstep]
        exact stepLaws_same (heir_same pair s) fun c d h => absurd h (hno c d)
  | pyIngest place source matched => exact (refreshes_pyIngest place source matched).stepLaws
  | pyMerge pair recorded =>
    show StepLaws s _ (pair.heir s (automatedStep env s _)) _
    rcases @automatedStep_pyMerge env s pair recorded with ⟨c, d, h, hstep⟩ | ⟨hno, hstep⟩
    · rw [hstep]
      have hmerged : Merged s (pyFoldDuplicate pair recorded d s) pair (goCombined false) :=
        (loopRound_mergeEdge pair false).merged (by rw [← pyMergeEdge_eq]; rfl)
      refine (goCombined_laws hmerged h.duplicateRow
        ((Catalog.get?_removePlace ..).trans (if_pos rfl))).congr ?_
      exact ⟨fun hnone _ _ _ => hnone, fun hall => hall c d h⟩
    · rw [hstep]
      exact stepLaws_same (heir_same pair s) fun c d h => absurd h (hno c d)
  | pyAggregate pair blocked =>
    show StepLaws s _ (pair.heir s (automatedStep env s _)) _
    rcases @automatedStep_pyAggregate env s pair blocked with ⟨c, d, h, hstep⟩ | ⟨hno, hstep⟩
    · rw [hstep]
      have hmerged : Merged s (pyFoldChild pair s) pair pyAggregated :=
        (loopRound_pyAggregateEdge pair).merged rfl
      refine (pyAggregated_laws hmerged h.duplicateRow
        ((Catalog.get?_removePlace ..).trans (if_pos rfl))).congr ?_
      exact ⟨fun hnone _ _ _ => hnone, fun hall => hall c d h⟩
    · rw [hstep]
      exact stepLaws_same (heir_same pair s) fun c d h => absurd h (hno c d)

/-! ### Runs -/

/-- The place that stands for a place after a run. -/
def lastHeir (env : IngestEnv) : Catalog → List AutomatedAction → Nat → Nat
  | _, [], id => id
  | s, a :: as, id => lastHeir env (automatedStep env s a) as (a.heir env s id)

/-- Along steps in which all decisions survive, they survive the run. -/
theorem upheld_after {as : List AutomatedAction} {place activity : Nat} {e : Edge}
    (h : ∀ q ∈ steps (automatedStep env) s as,
      Survives q.1 (automatedStep env q.1 q.2) (q.2.heir env q.1))
    (he : s.edges.get? (place, activity) = some e) (hprotected : e.isProtected = true) :
    e.Upheld ((run (automatedStep env) s as).edges.get? (lastHeir env s as place, activity)) := by
  induction as generalizing s place e with
  | nil =>
    show e.Upheld (s.edges.get? (place, activity))
    rw [he]
    exact upheld_self hprotected
  | cons a as ih =>
    have hfirst : Survives s (automatedStep env s a) (a.heir env s) := h (s, a) List.mem_cons_self
    obtain ⟨e', he', hprotected', hsame⟩ := hfirst place activity e he hprotected
    obtain ⟨e'', he'', hprotected'', hsame'⟩ :=
      ih (fun q hq => h q (List.mem_cons_of_mem _ hq)) he' hprotected'
    exact ⟨e'', he'', hprotected'', hsame'.trans hsame⟩

/-- In every run no step lowers a confidence or makes up a confirmation, and every decision of
people survives a step exactly when the step is no merge that loses one. Where none is, a protected
edge has a protected successor of the same provenance ever after. -/
theorem confirmed_survive_iff (env : IngestEnv) (s : Catalog) (as : List AutomatedAction) :
    (∀ q ∈ steps (automatedStep env) s as,
      NeverLowers q.1 (automatedStep env q.1 q.2) ∧
      NeverRelabels q.1 (automatedStep env q.1 q.2) (q.2.heir env q.1)) ∧
    ((∀ q ∈ steps (automatedStep env) s as,
        Survives q.1 (automatedStep env q.1 q.2) (q.2.heir env q.1)) ↔
      ∀ q ∈ steps (automatedStep env) s as, q.2.LosesNone q.1) ∧
    ((∀ q ∈ steps (automatedStep env) s as, q.2.LosesNone q.1) →
      ∀ before after, as = before ++ after → ∀ place activity e,
        (run (automatedStep env) s before).edges.get? (place, activity) = some e →
        e.isProtected = true →
        e.Upheld ((run (automatedStep env) s as).edges.get?
          (lastHeir env (run (automatedStep env) s before) after place, activity))) := by
  have hiff : (∀ q ∈ steps (automatedStep env) s as,
        Survives q.1 (automatedStep env q.1 q.2) (q.2.heir env q.1)) ↔
      ∀ q ∈ steps (automatedStep env) s as, q.2.LosesNone q.1 :=
    forall₂_congr fun q _ => (automatedStep_laws env q.1 q.2).survives_iff
  refine ⟨fun q _ => ?_, hiff, ?_⟩
  · have hlaws := automatedStep_laws env q.1 q.2
    exact ⟨hlaws.neverLowers, hlaws.neverRelabels⟩
  · intro hguard before after heq place activity e he hprotected
    subst heq
    have hsurvives := hiff.mpr hguard
    rw [Machine.steps_append] at hsurvives
    rw [Machine.run_append]
    exact upheld_after (fun q hq => hsurvives q (List.mem_append_right _ hq)) he hprotected

/-! ### A confirmation that a deduplication loses -/

/-- A match of the building's tags. -/
def matchedEdge : Edge := ⟨.inferred, 9 / 10, .osm, "theatre", false⟩

/-- A weaker match that members have confirmed. -/
def confirmedEdge : Edge := ⟨.confirmed, 6 / 10, .overture, "theatre", false⟩

/-- The building, and a second place for it, each with an edge for one activity. -/
def twoBuildings : Catalog :=
  let building := operaHouse.row noActivities
  let second := { building with source := .overture, osmId := none, externalId := "opera" }
  ((((Catalog.empty.insertPlace building).insertPlace second).setEdge 1 5 matchedEdge).setEdge 2 5
    confirmedEdge)

/-- The merge keeps the match and drops the confirmation. -/
theorem confirmation_lost :
    ¬∀ (env : IngestEnv) (s : Catalog) (a : AutomatedAction),
      Survives s (automatedStep env s a) (a.heir env s) := by
  intro h
  have hlost := h noActivities twoBuildings (.go (.merge ⟨1, 2, by decide⟩ false false)) 2 5
    confirmedEdge (by decide +kernel) rfl
  obtain ⟨e, he, hprotected, -⟩ := hlost
  have hkept : (automatedStep noActivities twoBuildings
      (.go (.merge ⟨1, 2, by decide⟩ false false))).edges.get?
        (AutomatedAction.heir noActivities twoBuildings
          (.go (.merge ⟨1, 2, by decide⟩ false false)) 2, 5) = some matchedEdge := by
    decide +kernel
  rw [hkept] at he
  cases he
  cases hprotected

end SocialActivities.Places
