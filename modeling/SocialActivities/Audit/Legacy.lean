import SocialActivities.Audit.GoChain

/-!
# `SocialActivities.Audit.Legacy`: which readings the legacy verification tries (Go)

`forms` lists every choice of a form for each number of a payload; a stored integer literal of 17 or
more digits may also be the float that it rounds to. The search of `legacyNumericVariants` keeps the
first 64 candidates after every place, and so at every depth. What it tries are the first 64 choices
of the whole payload (`legacyNumericVariants_eq`).
-/

namespace SocialActivities.Audit.Go

open Lib Lib.HashChain

/-- One option for each place; those of the last place change first. -/
def allChoices {α : Type} : List (List α) → List (List α)
  | [] => [[]]
  | place :: options => place.flatMap fun option => (allChoices options).map (option :: ·)

mutual

/-- A document with every choice of a form for each of its numbers. The fields of an object are
taken in the order of their names. -/
def forms : Json GoNumber → List (Json GoNumber)
  | .number n => (numberVariants n).map .number
  | .object fields =>
    (allChoices ((Json.sortedFields utf8 (fieldsForms fields)).map fun f =>
      f.2.map fun option => (f.1, option))).map .object
  | .array items => (allChoices (itemsForms items)).map .array
  | value => [value]

def itemsForms : List (Json GoNumber) → List (List (Json GoNumber))
  | [] => []
  | d :: ds => forms d :: itemsForms ds

def fieldsForms : List (List Char × Json GoNumber) → List (List Char × List (Json GoNumber))
  | [] => []
  | (k, d) :: fs => (k, forms d) :: fieldsForms fs

end

/-! ### Places -/

section

variable {α β γ : Type}

/-- Where every element gives one or more, the first `k` come from the first `k` of the first `k`
elements. -/
theorem take_flatMap_take {f : α → List β} (hf : ∀ a, 0 < (f a).length) {k m n : Nat} (hm : k ≤ m)
    (hn : k ≤ n) (as : List α) :
    ((as.take m).flatMap fun a => (f a).take n).take k = (as.flatMap f).take k := by
  induction as generalizing k m with
  | nil => rw [List.take_nil]; rfl
  | cons a as ih =>
    cases m with
    | zero => rw [Nat.le_zero.mp hm, List.take_zero, List.take_zero]
    | succ m =>
      have hpos := hf a
      have hlength : k - ((f a).take n).length = k - (f a).length := by
        rw [List.length_take]
        omega
      rw [List.take_succ_cons, List.flatMap_cons, List.flatMap_cons, List.take_append, List.take_append,
        List.take_take, Nat.min_eq_left hn, hlength, ih (by omega) (by omega)]

theorem take_product (f : α → β → γ) (n : Nat) (as : List α) (bs : List β) :
    ((as.take n).flatMap fun a => (bs.take n).map (f a)).take n =
      (as.flatMap fun a => bs.map (f a)).take n := by
  simp only [List.map_take]
  cases bs with
  | nil =>
    simp only [List.map_nil, List.take_nil]
    rw [List.flatMap_eq_nil_iff.mpr fun _ _ => rfl, List.flatMap_eq_nil_iff.mpr fun _ _ => rfl]
  | cons b bs => exact take_flatMap_take (fun a => by simp) le_rfl le_rfl as

/-- Cutting after every place is cutting at the end. -/
theorem choices_take (options : List (List α)) :
    choices (options.map (List.take 64)) = (allChoices options).take 64 := by
  have hfold : ∀ (options : List (List α)) (out : List (List α)),
      (options.map (List.take 64)).foldl (fun out place =>
          (out.flatMap fun existing => place.map fun option => existing ++ [option]).take 64)
        (out.take 64) =
      (out.flatMap fun existing => (allChoices options).map (existing ++ ·)).take 64 := by
    intro options
    induction options with
    | nil =>
      intro out
      simp [allChoices]
    | cons place options ih =>
      intro out
      rw [List.map_cons, List.foldl_cons, take_product (fun existing option => existing ++ [option]), ih]
      simp [allChoices, List.flatMap_assoc, List.flatMap_map, List.map_flatMap, Function.comp_def]
  simpa [choices] using hfold options [[]]

end

/-! ### The search -/

theorem itemsVariants_eq {ds : List (Json GoNumber)}
    (h : ∀ d ∈ ds, legacyNumericVariants d = (forms d).take 64) :
    itemsVariants ds = (itemsForms ds).map (List.take 64) := by
  induction ds with
  | nil => rfl
  | cons d ds ih =>
    obtain ⟨hd, hds⟩ := List.forall_mem_cons.mp h
    rw [itemsVariants, itemsForms, hd, ih hds, List.map_cons]

theorem fieldsVariants_eq {fs : List (List Char × Json GoNumber)}
    (h : ∀ f ∈ fs, legacyNumericVariants f.2 = (forms f.2).take 64) :
    fieldsVariants fs = (fieldsForms fs).map fun f => (f.1, f.2.take 64) := by
  induction fs with
  | nil => rfl
  | cons f fs ih =>
    obtain ⟨hf, hfs⟩ := List.forall_mem_cons.mp h
    rw [fieldsVariants, fieldsForms, hf, ih hfs, List.map_cons]

theorem legacyNumericVariants_eq (d : Json GoNumber) :
    legacyNumericVariants d = (forms d).take 64 := by
  induction d using Json.induction with
  | null | bool | string => rfl
  | number n =>
    refine (List.take_of_length_le ?_).symm
    rw [legacyNumericVariants, List.length_map]
    unfold numberVariants
    split
    · split
      · split <;> simp
      · simp
    · simp
  | array ds ih =>
    rw [legacyNumericVariants, forms, itemsVariants_eq ih, choices_take, List.map_take]
  | object fs ih =>
    rw [legacyNumericVariants, forms, fieldsVariants_eq ih, ← List.map_take, ← choices_take,
      ← Json.map_sortedFields, List.map_map, List.map_map]
    simp only [Function.comp_def, List.map_take]

/-- The hash is that of a form of the payload. -/
def Gives (previous hash : List Char) (d : Json GoNumber) : Prop :=
  ∃ raw, canonicalJson d = some raw ∧ chained sha256 previous raw = hash

theorem legacyNumericHashMatches_iff {payload : Json GoNumber} {previous hash : List Char} :
    legacyNumericHashMatches payload previous hash = true ↔
      ∃ d ∈ (forms payload).take 64, Gives previous hash d := by
  rw [legacyNumericHashMatches, legacyNumericVariants_eq, List.any_eq_true]
  refine exists_congr fun d => and_congr_right fun _ => ?_
  cases hraw : canonicalJson d <;> simp [Gives, hraw]

/-- The search is sound. It finds the choice that the hash was computed from when it is one of the
first 64, and so whenever there are no more choices than that. -/
theorem legacy_search (payload : Json GoNumber) (previous hash : List Char) :
    (legacyNumericHashMatches payload previous hash = true →
      ∃ d ∈ forms payload, Gives previous hash d) ∧
    (∀ d ∈ (forms payload).take 64, Gives previous hash d →
      legacyNumericHashMatches payload previous hash = true) ∧
    ((forms payload).length ≤ 64 → ∀ d ∈ forms payload, Gives previous hash d →
      legacyNumericHashMatches payload previous hash = true) := by
  refine ⟨fun h => ?_, fun d hd hgives => legacyNumericHashMatches_iff.mpr ⟨d, hd, hgives⟩,
    fun hfew d hd hgives => legacyNumericHashMatches_iff.mpr ⟨d, ?_, hgives⟩⟩
  · obtain ⟨d, hd, hgives⟩ := legacyNumericHashMatches_iff.mp h
    exact ⟨d, List.mem_of_mem_take hd, hgives⟩
  · rwa [List.take_of_length_le hfew]

end SocialActivities.Audit.Go
