import Mathlib.Data.List.Sort
import Mathlib.Data.List.Nodup
import Mathlib.Data.List.Lex
import Mathlib.Data.Char

/-!
# `SocialActivities.Lib.Json`: JSON documents

A document is a tree of the six JSON kinds. The type of its numbers is a parameter: a number may
be a text, a machine number or a number of some language, and a program that reads or writes
documents is first of all a map of their numbers. An object is the list of its fields, in order.

* `map f` changes every number, `numbers? f` does so where `f` may fail on a number.
* `sortFields key` puts the fields of every object in the order of `key`, at every depth.
* `Distinct` says that no object has two fields of one name, at any depth. A `Document` carries it.

For documents with distinct fields a later sort forgets an earlier one (`sortFields_sortFields`),
and sorting commutes with every change of the numbers. So two documents are the same up to the
order of fields exactly when they are equal once sorted, by whatever order
(`Document.SameFields`).
-/

namespace SocialActivities.Lib

/-- A JSON document with numbers of type `ν`. -/
inductive Json (ν : Type) where
  | null
  | bool (b : Bool)
  | number (n : ν)
  | string (s : List Char)
  | array (items : List (Json ν))
  | object (fields : List (List Char × Json ν))

namespace Json

variable {ν μ κ : Type}

/-! ### Induction -/

/-- Induction on a document: an array may assume the property of its items, an object of the
values of its fields. -/
@[elab_as_elim]
theorem induction {P : Json ν → Prop} (d : Json ν) (null : P .null) (bool : ∀ b, P (.bool b))
    (number : ∀ n, P (.number n)) (string : ∀ s, P (.string s))
    (array : ∀ items, (∀ d ∈ items, P d) → P (.array items))
    (object : ∀ fields, (∀ f ∈ fields, P f.2) → P (.object fields)) : P d :=
  @Json.rec ν P (fun items => ∀ d ∈ items, P d) (fun fields => ∀ f ∈ fields, P f.2)
    (fun f => P f.2) null bool number string array object
    (fun _ h => (by cases h)) (fun _ _ hd hds => List.forall_mem_cons.mpr ⟨hd, hds⟩)
    (fun _ h => (by cases h)) (fun _ _ hf hfs => List.forall_mem_cons.mpr ⟨hf, hfs⟩)
    (fun _ _ hd => hd) d

/-! ### Changing the numbers -/

mutual

/-- Every number changed by `f`. -/
def map (f : ν → μ) : Json ν → Json μ
  | .null => .null
  | .bool b => .bool b
  | .number n => .number (f n)
  | .string s => .string s
  | .array items => .array (mapItems f items)
  | .object fields => .object (mapFields f fields)

def mapItems (f : ν → μ) : List (Json ν) → List (Json μ)
  | [] => []
  | d :: ds => map f d :: mapItems f ds

def mapFields (f : ν → μ) : List (List Char × Json ν) → List (List Char × Json μ)
  | [] => []
  | (k, d) :: fs => (k, map f d) :: mapFields f fs

end

mutual

/-- Every number changed by `f`, unless `f` fails on one of them. -/
def numbers? (f : ν → Option μ) : Json ν → Option (Json μ)
  | .null => some .null
  | .bool b => some (.bool b)
  | .number n => (f n).map .number
  | .string s => some (.string s)
  | .array items => (itemsNumbers? f items).map .array
  | .object fields => (fieldsNumbers? f fields).map .object

def itemsNumbers? (f : ν → Option μ) : List (Json ν) → Option (List (Json μ))
  | [] => some []
  | d :: ds => (numbers? f d).bind fun e => (itemsNumbers? f ds).map (e :: ·)

def fieldsNumbers? (f : ν → Option μ) :
    List (List Char × Json ν) → Option (List (List Char × Json μ))
  | [] => some []
  | (k, d) :: fs => (numbers? f d).bind fun e => (fieldsNumbers? f fs).map ((k, e) :: ·)

end

mutual

/-- The numbers of a document, from left to right. -/
def numbers : Json ν → List ν
  | .null => []
  | .bool _ => []
  | .number n => [n]
  | .string _ => []
  | .array items => itemsNumbers items
  | .object fields => fieldsNumbers fields

def itemsNumbers : List (Json ν) → List ν
  | [] => []
  | d :: ds => numbers d ++ itemsNumbers ds

def fieldsNumbers : List (List Char × Json ν) → List ν
  | [] => []
  | (_, d) :: fs => numbers d ++ fieldsNumbers fs

end

mutual

/-- The names and the string values of a document. -/
def strings : Json ν → List (List Char)
  | .null => []
  | .bool _ => []
  | .number _ => []
  | .string s => [s]
  | .array items => itemsStrings items
  | .object fields => fieldsStrings fields

def itemsStrings : List (Json ν) → List (List Char)
  | [] => []
  | d :: ds => strings d ++ itemsStrings ds

def fieldsStrings : List (List Char × Json ν) → List (List Char)
  | [] => []
  | (k, d) :: fs => k :: strings d ++ fieldsStrings fs

end

theorem mapItems_eq (f : ν → μ) (ds : List (Json ν)) : mapItems f ds = ds.map (map f) := by
  induction ds with
  | nil => rfl
  | cons d ds ih => rw [mapItems, ih, List.map_cons]

theorem mapFields_eq (f : ν → μ) (fs : List (List Char × Json ν)) :
    mapFields f fs = fs.map fun p => (p.1, map f p.2) := by
  induction fs with
  | nil => rfl
  | cons p fs ih => rw [mapFields, ih, List.map_cons]

theorem forall_itemsNumbers {p : ν → Prop} {ds : List (Json ν)} :
    (∀ n ∈ itemsNumbers ds, p n) ↔ ∀ d ∈ ds, ∀ n ∈ numbers d, p n := by
  induction ds with
  | nil => simp [itemsNumbers]
  | cons d ds ih => simp only [itemsNumbers, List.forall_mem_append, List.forall_mem_cons, ih]

theorem forall_fieldsNumbers {p : ν → Prop} {fs : List (List Char × Json ν)} :
    (∀ n ∈ fieldsNumbers fs, p n) ↔ ∀ f ∈ fs, ∀ n ∈ numbers f.2, p n := by
  induction fs with
  | nil => simp [fieldsNumbers]
  | cons f fs ih => simp only [fieldsNumbers, List.forall_mem_append, List.forall_mem_cons, ih]

theorem map_id (d : Json ν) : map id d = d := by
  induction d using induction with
  | null | bool | number | string => rfl
  | array items ih =>
    rw [map, mapItems_eq, List.map_congr_left ih]
    simp
  | object fields ih =>
    rw [map, mapFields_eq]
    have hfields : fields.map (fun f => (f.1, map id f.2)) = fields.map fun f => f :=
      List.map_congr_left fun f hf => congrArg (Prod.mk f.1) (ih f hf)
    rw [hfields, List.map_id']

variable {f : ν → Option μ} {d : Json ν}

variable {ρ : Type}

/-- Numbers changed by `f`, which does not fail, and then read by `g` are read as `h` does, where
`g` reads every changed number as `h` reads the number. -/
theorem numbers?_of_eq_some {g : μ → Option ρ} {h : ν → Option ρ}
    {e : Json μ} (he : numbers? f d = some e)
    (hread : ∀ n ∈ numbers d, ∀ m, f n = some m → g m = h n) : numbers? g e = numbers? h d := by
  induction d using induction generalizing e with
  | null | bool | string => cases he; rfl
  | number n =>
    obtain ⟨m, hm, rfl⟩ := Option.map_eq_some_iff.mp he
    exact congrArg (Option.map number) (hread n (List.mem_singleton_self n) m hm)
  | array items ih =>
    obtain ⟨es, hes, rfl⟩ := Option.map_eq_some_iff.mp he
    have hitems := forall_itemsNumbers.mp hread
    refine congrArg (Option.map array) ?_
    clear he hread
    induction items generalizing es with
    | nil => cases hes; rfl
    | cons d ds ihds =>
      obtain ⟨hd, hds⟩ := List.forall_mem_cons.mp ih
      obtain ⟨hn, hns⟩ := List.forall_mem_cons.mp hitems
      obtain ⟨e, he, hrest⟩ := Option.bind_eq_some_iff.mp hes
      obtain ⟨es', hes', rfl⟩ := Option.map_eq_some_iff.mp hrest
      simp only [itemsNumbers?, hd he hn, ihds hds es' hes' hns]
  | object fields ih =>
    obtain ⟨es, hes, rfl⟩ := Option.map_eq_some_iff.mp he
    have hfields := forall_fieldsNumbers.mp hread
    refine congrArg (Option.map object) ?_
    clear he hread
    induction fields generalizing es with
    | nil => cases hes; rfl
    | cons f fs ihfs =>
      obtain ⟨hd, hds⟩ := List.forall_mem_cons.mp ih
      obtain ⟨hn, hns⟩ := List.forall_mem_cons.mp hfields
      obtain ⟨e, he, hrest⟩ := Option.bind_eq_some_iff.mp hes
      obtain ⟨es', hes', rfl⟩ := Option.map_eq_some_iff.mp hrest
      simp only [fieldsNumbers?, hd he hn, ihfs hds es' hes' hns]

theorem numbers?_some (f : ν → μ) (d : Json ν) : numbers? (fun n => some (f n)) d = some (map f d) := by
  induction d using induction with
  | null | bool | number | string => rfl
  | array items ih =>
    have hitems : itemsNumbers? (fun n => some (f n)) items = some (mapItems f items) := by
      induction items with
      | nil => rfl
      | cons d ds ihds =>
        obtain ⟨hd, hds⟩ := List.forall_mem_cons.mp ih
        simp only [itemsNumbers?, mapItems, hd, ihds hds, Option.bind_some, Option.map_some]
    simp only [numbers?, map, hitems, Option.map_some]
  | object fields ih =>
    have hfields : fieldsNumbers? (fun n => some (f n)) fields = some (mapFields f fields) := by
      induction fields with
      | nil => rfl
      | cons p fs ihfs =>
        obtain ⟨hd, hds⟩ := List.forall_mem_cons.mp ih
        simp only [fieldsNumbers?, mapFields, hd, ihfs hds, Option.bind_some, Option.map_some]
    simp only [numbers?, map, hfields, Option.map_some]

theorem numbers?_congr {g : ν → Option μ} (h : ∀ n ∈ numbers d, f n = g n) :
    numbers? f d = numbers? g d := by
  have hsame : numbers? (fun n => some (id n)) d = some d := by rw [numbers?_some, map_id]
  refine numbers?_of_eq_some hsame fun n hn m hm => ?_
  rw [← Option.some.inj hm]
  exact h n hn

theorem numbers?_map (f : ν → μ) (g : μ → Option ρ) (d : Json ν) :
    numbers? g (map f d) = numbers? (fun n => g (f n)) d :=
  numbers?_of_eq_some (numbers?_some f d) fun _ _ _ hm => congrArg g (Option.some.inj hm).symm

theorem isSome_numbers? (f : ν → Option μ) (d : Json ν) :
    (numbers? f d).isSome = (numbers d).all fun n => (f n).isSome := by
  induction d using induction with
  | null | bool | string => rfl
  | number n => simp [numbers?, numbers]
  | array items ih =>
    rw [numbers?, numbers, Option.isSome_map]
    induction items with
    | nil => rfl
    | cons d ds ihds =>
      obtain ⟨hd, hds⟩ := List.forall_mem_cons.mp ih
      rw [itemsNumbers, List.all_append, ← hd, ← ihds hds, itemsNumbers?]
      cases numbers? f d <;> simp
  | object fields ih =>
    rw [numbers?, numbers, Option.isSome_map]
    induction fields with
    | nil => rfl
    | cons p fs ihfs =>
      obtain ⟨hd, hds⟩ := List.forall_mem_cons.mp ih
      rw [fieldsNumbers, List.all_append, ← hd, ← ihfs hds, fieldsNumbers?]
      cases numbers? f p.2 <;> simp

theorem exists_numbers? {d : Json ν}
    (h : ∀ n ∈ numbers d, ∃ m, f n = some m) : ∃ e, numbers? f d = some e := by
  rw [← Option.isSome_iff_exists, isSome_numbers?, List.all_eq_true]
  exact fun n hn => Option.isSome_iff_exists.mpr (h n hn)

theorem exists_of_numbers? {e : Json μ}
    (he : numbers? f d = some e) : ∀ n ∈ numbers d, ∃ m, f n = some m := by
  have hsome := Option.isSome_iff_exists.mpr ⟨e, he⟩
  rw [isSome_numbers?, List.all_eq_true] at hsome
  exact fun n hn => Option.isSome_iff_exists.mp (hsome n hn)

theorem numbers?_option_map (f : ν → Option μ) (g : μ → ρ) (d : Json ν) :
    numbers? (fun n => (f n).map g) d = (numbers? f d).map (map g) := by
  cases he : numbers? f d with
  | some e =>
    have hread : numbers? (fun m => some (g m)) e = numbers? (fun n => (f n).map g) d :=
      numbers?_of_eq_some he fun n _ m hm => by rw [hm, Option.map_some]
    rw [← hread, numbers?_some, Option.map_some]
  | none =>
    cases hboth : numbers? (fun n => (f n).map g) d with
    | none => rfl
    | some =>
      -- `f` fails wherever the composed change would, so it fails nowhere.
      have hall : ∀ n ∈ numbers d, ∃ m, f n = some m := by
        intro n hn
        obtain ⟨m', hm'⟩ := exists_of_numbers? hboth n hn
        obtain ⟨m, hm, -⟩ := Option.map_eq_some_iff.mp hm'
        exact ⟨m, hm⟩
      obtain ⟨e, he'⟩ := exists_numbers? hall
      rw [he] at he'
      cases he'

/-! ### The order of fields -/

section Order

variable [LinearOrder κ] (key : List Char → κ)

/-- The fields in the order of the keys of their names. -/
def sortedFields {α : Type} (fs : List (List Char × α)) : List (List Char × α) :=
  fs.insertionSort fun a b => key a.1 ≤ key b.1

mutual

/-- The fields of every object in the order of the keys of their names. -/
def sortFields : Json ν → Json ν
  | .null => .null
  | .bool b => .bool b
  | .number n => .number n
  | .string s => .string s
  | .array items => .array (sortFieldsItems items)
  | .object fields => .object (sortedFields key (sortFieldsFields fields))

def sortFieldsItems : List (Json ν) → List (Json ν)
  | [] => []
  | d :: ds => sortFields d :: sortFieldsItems ds

def sortFieldsFields : List (List Char × Json ν) → List (List Char × Json ν)
  | [] => []
  | (k, d) :: fs => (k, sortFields d) :: sortFieldsFields fs

end

theorem sortFieldsItems_eq (ds : List (Json ν)) :
    sortFieldsItems key ds = ds.map (sortFields key) := by
  induction ds with
  | nil => rfl
  | cons d ds ih => rw [sortFieldsItems, ih, List.map_cons]

theorem sortFieldsFields_eq (fs : List (List Char × Json ν)) :
    sortFieldsFields key fs = fs.map fun f => (f.1, sortFields key f.2) := by
  induction fs with
  | nil => rfl
  | cons f fs ih => rw [sortFieldsFields, ih, List.map_cons]

variable {α : Type}

theorem perm_sortedFields (fs : List (List Char × α)) :
    (sortedFields key fs).Perm fs :=
  List.perm_insertionSort ..

theorem map_sortedFields {β : Type} (f : α → β) (fs : List (List Char × α)) :
    (sortedFields key fs).map (fun p => (p.1, f p.2))
      = sortedFields key (fs.map fun p => (p.1, f p.2)) :=
  List.map_insertionSort _ _ _ _ fun _ _ _ _ => Iff.rfl

variable {key}

theorem sortedFields_of_perm (hkey : Function.Injective key)
    {fs gs : List (List Char × α)} (hperm : fs.Perm gs) (hnodup : (fs.map Prod.fst).Nodup) :
    sortedFields key fs = sortedFields key gs := by
  have hsorted : ∀ hs : List (List Char × α),
      (sortedFields key hs).Pairwise fun a b => key a.1 ≤ key b.1 := by
    intro hs
    have : Std.Total fun a b : List Char × α => key a.1 ≤ key b.1 :=
      ⟨fun a b => le_total (key a.1) (key b.1)⟩
    have : IsTrans (List Char × α) fun a b => key a.1 ≤ key b.1 := ⟨fun _ _ _ => le_trans⟩
    exact List.pairwise_insertionSort _ _
  have hboth : (sortedFields key fs).Perm (sortedFields key gs) :=
    ((perm_sortedFields key fs).trans hperm).trans (perm_sortedFields key gs).symm
  refine hboth.eq_of_pairwise (fun a b ha hb hab hba => ?_) (hsorted fs) (hsorted gs)
  have ha' : a ∈ fs := (perm_sortedFields key fs).mem_iff.mp ha
  have hb' : b ∈ fs := hperm.mem_iff.mpr ((perm_sortedFields key gs).mem_iff.mp hb)
  -- Two fields that compare alike have one name, so they are one field.
  have hname : a.1 = b.1 := hkey (le_antisymm hab hba)
  exact List.inj_on_of_nodup_map hnodup ha' hb' hname

theorem map_sortFields (f : ν → μ) (d : Json ν) :
    map f (sortFields key d) = sortFields key (map f d) := by
  induction d using induction with
  | null | bool | number | string => rfl
  | array items ih =>
    simp only [sortFields, map, mapItems_eq, sortFieldsItems_eq, List.map_map]
    exact congrArg array (List.map_congr_left ih)
  | object fields ih =>
    simp only [sortFields, map, mapFields_eq, sortFieldsFields_eq, map_sortedFields, List.map_map]
    refine congrArg (fun fs => object (sortedFields key fs)) (List.map_congr_left fun f hf => ?_)
    exact congrArg (Prod.mk f.1) (ih f hf)

theorem fieldsNumbers?_orderedInsert (f : ν → Option μ) (k : List Char) (d : Json ν)
    (fs : List (List Char × Json ν)) :
    fieldsNumbers? f (fs.orderedInsert (fun a b => key a.1 ≤ key b.1) (k, d))
      = (numbers? f d).bind fun e =>
          (fieldsNumbers? f fs).map
            (List.orderedInsert (fun a b => key a.1 ≤ key b.1) (k, e)) := by
  induction fs with
  | nil => cases h : numbers? f d <;> simp [fieldsNumbers?, h]
  | cons p fs ih =>
    obtain ⟨k', d'⟩ := p
    -- The place of a field depends on the names, which a change of the values keeps.
    by_cases hle : key k ≤ key k'
    · simp only [List.orderedInsert_cons, if_pos hle, fieldsNumbers?]
      cases numbers? f d <;> cases numbers? f d' <;> cases fieldsNumbers? f fs <;>
        simp [List.orderedInsert_cons, hle]
    · simp only [List.orderedInsert_cons, if_neg hle, fieldsNumbers?, ih]
      cases numbers? f d <;> cases numbers? f d' <;> cases fieldsNumbers? f fs <;>
        simp [List.orderedInsert_cons, hle]

theorem fieldsNumbers?_sortedFields (f : ν → Option μ) (fs : List (List Char × Json ν)) :
    fieldsNumbers? f (sortedFields key fs) = (fieldsNumbers? f fs).map (sortedFields key) := by
  induction fs with
  | nil => rfl
  | cons p fs ih =>
    obtain ⟨k, d⟩ := p
    unfold sortedFields at ih ⊢
    rw [List.insertionSort_cons, fieldsNumbers?_orderedInsert, ih, fieldsNumbers?]
    cases numbers? f d <;> cases fieldsNumbers? f fs <;> rfl

theorem numbers?_sortFields (f : ν → Option μ) (d : Json ν) :
    numbers? f (sortFields key d) = (numbers? f d).map (sortFields key) := by
  induction d using induction with
  | null | bool => rfl
  | number n => cases h : f n <;> simp [numbers?, sortFields, h]
  | string => rfl
  | array items ih =>
    have hitems : itemsNumbers? f (sortFieldsItems key items)
        = (itemsNumbers? f items).map (sortFieldsItems key) := by
      induction items with
      | nil => rfl
      | cons d ds ihds =>
        obtain ⟨hd, hds⟩ := List.forall_mem_cons.mp ih
        simp only [sortFieldsItems, itemsNumbers?, hd, ihds hds]
        cases numbers? f d <;> cases itemsNumbers? f ds <;> rfl
    simp only [sortFields, numbers?, hitems, Option.map_map]
    rfl
  | object fields ih =>
    have hfields : fieldsNumbers? f (sortFieldsFields key fields)
        = (fieldsNumbers? f fields).map (sortFieldsFields key) := by
      induction fields with
      | nil => rfl
      | cons p fs ihfs =>
        obtain ⟨hd, hds⟩ := List.forall_mem_cons.mp ih
        simp only [sortFieldsFields, fieldsNumbers?, hd, ihfs hds]
        cases numbers? f p.2 <;> cases fieldsNumbers? f fs <;> rfl
    simp only [sortFields, numbers?, fieldsNumbers?_sortedFields, hfields, Option.map_map]
    rfl

end Order

theorem sortFields_congr {κ' : Type} [LinearOrder κ] [LinearOrder κ'] {key : List Char → κ}
    {key' : List Char → κ'} (h : ∀ s t, key s ≤ key t ↔ key' s ≤ key' t) (d : Json ν) :
    sortFields key d = sortFields key' d := by
  have hsorted : ∀ fs : List (List Char × Json ν), sortedFields key fs = sortedFields key' fs := by
    intro fs
    have hmap := List.map_insertionSort (fun a b : List Char × Json ν => key a.1 ≤ key b.1)
      (fun a b => key' a.1 ≤ key' b.1) id fs fun a _ b _ => h a.1 b.1
    rwa [List.map_id, List.map_id] at hmap
  induction d using induction with
  | null | bool | number | string => rfl
  | array items ih =>
    simp only [sortFields, sortFieldsItems_eq]
    exact congrArg array (List.map_congr_left ih)
  | object fields ih =>
    simp only [sortFields, sortFieldsFields_eq, hsorted]
    refine congrArg (fun fs => object (sortedFields key' fs)) (List.map_congr_left fun f hf => ?_)
    exact congrArg (Prod.mk f.1) (ih f hf)

/-! ### Rendering -/

theorem forall₂_exists_right {α β : Type} {R : α → β → Prop} {as : List α} {bs : List β}
    (h : List.Forall₂ R as bs) {a : α} (ha : a ∈ as) : ∃ b ∈ bs, R a b := by
  induction h with
  | nil => cases ha
  | cons hab _ ih =>
    rcases List.mem_cons.mp ha with rfl | ha
    · exact ⟨_, List.mem_cons_self, hab⟩
    · obtain ⟨b, hb, hr⟩ := ih ha
      exact ⟨b, List.mem_cons_of_mem _ hb, hr⟩

theorem forall₂_exists_left {α β : Type} {R : α → β → Prop} {as : List α} {bs : List β}
    (h : List.Forall₂ R as bs) {b : β} (hb : b ∈ bs) : ∃ a ∈ as, R a b :=
  forall₂_exists_right h.flip hb

section Rendering

variable [LinearOrder κ] (key : List Char → κ)

/-- A document as it is rendered: the numbers changed by `f`, which may fail, and the fields in
the order of their keys. -/
def rendered (f : ν → Option μ) (d : Json ν) : Option (Json μ) :=
  (numbers? f d).map (sortFields key)

variable {ρ : Type}

theorem rendered_map (f : ν → μ) (g : μ → Option ρ) (d : Json ν) :
    rendered key g (map f d) = rendered key (fun n => g (f n)) d := by
  rw [rendered, numbers?_map, rendered]

theorem rendered_option_map (f : ν → Option μ) (g : μ → ρ) (d : Json ν) :
    rendered key (fun n => (f n).map g) d = (rendered key f d).map (map g) := by
  rw [rendered, rendered, numbers?_option_map, Option.map_map, Option.map_map]
  exact congrArg (fun h => (numbers? f d).map h) (funext fun e => (map_sortFields g e).symm)

variable {f : ν → Option μ} {d : Json ν}

theorem rendered_congr {g : ν → Option μ} (h : ∀ n ∈ numbers d, f n = g n) :
    rendered key f d = rendered key g d := by
  rw [rendered, rendered, numbers?_congr h]

theorem numbers?_of_rendered {g : μ → Option ρ} {h : ν → Option ρ}
    {e : Json μ} (hd : rendered key f d = some e)
    (hread : ∀ n ∈ numbers d, ∀ m, f n = some m → g m = h n) :
    numbers? g e = rendered key h d := by
  obtain ⟨x, hx, rfl⟩ := Option.map_eq_some_iff.mp hd
  rw [numbers?_sortFields, numbers?_of_eq_some hx hread, rendered]

variable {fs : List (List Char × Json ν)}

theorem rendered_object_of_perm (hkey : Function.Injective key)
    {gs : List (List Char × Json ν)} (hperm : fs.Perm gs) (hnodup : (fs.map Prod.fst).Nodup) :
    rendered key f (.object fs) = rendered key f (.object gs) := by
  have hnames : (fs.map fun p => (p.1, sortFields key p.2)).map Prod.fst = fs.map Prod.fst := by
    rw [List.map_map]
    rfl
  have hsorted : sortFields key (.object fs) = sortFields key (.object gs) := by
    simp only [sortFields, sortFieldsFields_eq]
    exact congrArg object (sortedFields_of_perm hkey (hperm.map _) (hnames ▸ hnodup))
  rw [rendered, rendered, ← numbers?_sortFields, ← numbers?_sortFields, hsorted]

theorem rendered_object {ν' : Type} {g : ν' → Option μ} {gs : List (List Char × Json ν')}
    (h : List.Forall₂ (fun p q => p.1 = q.1 ∧ rendered key f p.2 = rendered key g q.2) fs gs) :
    rendered key f (.object fs) = rendered key g (.object gs) := by
  have hfields : (fieldsNumbers? f fs).map (sortFieldsFields key)
      = (fieldsNumbers? g gs).map (sortFieldsFields key) := by
    induction h with
    | nil => rfl
    | @cons p q fs gs hpq _ ih =>
      obtain ⟨k, d⟩ := p
      obtain ⟨k', e⟩ := q
      obtain ⟨rfl, hvalue⟩ := hpq
      unfold rendered at hvalue
      simp only [fieldsNumbers?]
      cases hd : numbers? f d <;> cases he : numbers? g e <;>
        cases hfs : fieldsNumbers? f fs <;> cases hgs : fieldsNumbers? g gs <;>
        simp_all [sortFieldsFields]
  simp only [rendered, numbers?, Option.map_map]
  -- Sorting the object is sorting inside the fields and then the fields.
  have hsort : ∀ {μ : Type}, (sortFields key ∘ (Json.object : _ → Json μ))
      = (fun fs => Json.object (sortedFields key fs)) ∘ sortFieldsFields key := fun {_} => rfl
  rw [hsort, ← Option.map_map, hfields, Option.map_map]

/-- Every field of an object is rendered like a field of the same name of an object that is
rendered alike. -/
theorem exists_field_of_rendered {ν' : Type} {g : ν' → Option μ}
    {gs : List (List Char × Json ν')} {e : Json μ}
    (hfs : rendered key f (.object fs) = some e) (hgs : rendered key g (.object gs) = some e)
    {k : List Char} (hd : (k, d) ∈ fs) :
    ∃ d', (k, d') ∈ gs ∧ ∃ x, rendered key f d = some x ∧ rendered key g d' = some x := by
  -- The rendered fields of an object, and where each comes from.
  have hfields : ∀ {ν : Type} {f : ν → Option μ} {fs : List (List Char × Json ν)}
      {es : List (List Char × Json μ)}, fieldsNumbers? f fs = some es →
      List.Forall₂ (fun p q => p.1 = q.1 ∧ rendered key f p.2 = some q.2) fs
        (sortFieldsFields key es) := by
    intro ν f fs
    induction fs with
    | nil => intro es h; cases h; exact .nil
    | cons p fs ih =>
      intro es h
      obtain ⟨e, he, hrest⟩ := Option.bind_eq_some_iff.mp h
      obtain ⟨es', hes', rfl⟩ := Option.map_eq_some_iff.mp hrest
      exact .cons ⟨rfl, by rw [rendered, he]; rfl⟩ (ih hes')
  have hobject : ∀ {ν : Type} {f : ν → Option μ} {fs : List (List Char × Json ν)},
      rendered key f (.object fs) = some e → ∃ es, fieldsNumbers? f fs = some es ∧
        e = .object (sortedFields key (sortFieldsFields key es)) := by
    intro ν f fs h
    obtain ⟨x, hx, rfl⟩ := Option.map_eq_some_iff.mp h
    obtain ⟨es, hes, rfl⟩ := Option.map_eq_some_iff.mp hx
    exact ⟨es, hes, rfl⟩
  obtain ⟨es, hes, he⟩ := hobject hfs
  obtain ⟨es', hes', he'⟩ := hobject hgs
  have hsorted : sortedFields key (sortFieldsFields key es)
      = sortedFields key (sortFieldsFields key es') := by
    rw [he] at he'
    exact object.inj he'
  obtain ⟨q, hq, hname, hvalue⟩ := forall₂_exists_right (hfields hes) hd
  -- The sorted lists are one, so the field is in the other object before the sort as well.
  have hq' : q ∈ sortFieldsFields key es' := by
    rw [← (perm_sortedFields key _).mem_iff, ← hsorted, (perm_sortedFields key _).mem_iff]
    exact hq
  obtain ⟨p', hp', hname', hvalue'⟩ := forall₂_exists_left (hfields hes') hq'
  refine ⟨p'.2, ?_, q.2, hvalue, hvalue'⟩
  have hk : p'.1 = k := hname'.trans hname.symm
  rw [← hk]
  exact hp'

end Rendering

/-! ### Distinct names -/

mutual

/-- No object has two fields of one name, at any depth. -/
def Distinct : Json ν → Prop
  | .null => True
  | .bool _ => True
  | .number _ => True
  | .string _ => True
  | .array items => DistinctItems items
  | .object fields => (fields.map Prod.fst).Nodup ∧ DistinctFields fields

def DistinctItems : List (Json ν) → Prop
  | [] => True
  | d :: ds => Distinct d ∧ DistinctItems ds

def DistinctFields : List (List Char × Json ν) → Prop
  | [] => True
  | (_, d) :: fs => Distinct d ∧ DistinctFields fs

end

mutual

def decideDistinct : (d : Json ν) → Decidable d.Distinct
  | .null => isTrue trivial
  | .bool _ => isTrue trivial
  | .number _ => isTrue trivial
  | .string _ => isTrue trivial
  | .array items => decideDistinctItems items
  | .object fields =>
    match (inferInstance : Decidable (fields.map Prod.fst).Nodup), decideDistinctFields fields with
    | isTrue h, isTrue h' => isTrue ⟨h, h'⟩
    | isFalse h, _ => isFalse fun h' => h h'.1
    | _, isFalse h => isFalse fun h' => h h'.2

def decideDistinctItems : (ds : List (Json ν)) → Decidable (DistinctItems ds)
  | [] => isTrue trivial
  | d :: ds =>
    match decideDistinct d, decideDistinctItems ds with
    | isTrue h, isTrue h' => isTrue ⟨h, h'⟩
    | isFalse h, _ => isFalse fun h' => h h'.1
    | _, isFalse h => isFalse fun h' => h h'.2

def decideDistinctFields : (fs : List (List Char × Json ν)) → Decidable (DistinctFields fs)
  | [] => isTrue trivial
  | (_, d) :: fs =>
    match decideDistinct d, decideDistinctFields fs with
    | isTrue h, isTrue h' => isTrue ⟨h, h'⟩
    | isFalse h, _ => isFalse fun h' => h h'.1
    | _, isFalse h => isFalse fun h' => h h'.2

end

instance (d : Json ν) : Decidable d.Distinct := decideDistinct d

theorem distinctItems_iff {ds : List (Json ν)} : DistinctItems ds ↔ ∀ d ∈ ds, Distinct d := by
  induction ds with
  | nil => simp [DistinctItems]
  | cons d ds ih => simp only [DistinctItems, List.forall_mem_cons, ih]

theorem distinctFields_iff {fs : List (List Char × Json ν)} :
    DistinctFields fs ↔ ∀ f ∈ fs, Distinct f.2 := by
  induction fs with
  | nil => simp [DistinctFields]
  | cons f fs ih => simp only [DistinctFields, List.forall_mem_cons, ih]

variable {d : Json ν}

theorem distinct_numbers? {f : ν → Option μ} {e : Json μ}
    (he : numbers? f d = some e) (hd : d.Distinct) : e.Distinct := by
  induction d using induction generalizing e with
  | null | bool | string => cases he; trivial
  | number =>
    obtain ⟨m, _, rfl⟩ := Option.map_eq_some_iff.mp he
    trivial
  | array items ih =>
    obtain ⟨es, hes, rfl⟩ := Option.map_eq_some_iff.mp he
    have hitems := distinctItems_iff.mp hd
    show DistinctItems es
    clear he hd
    induction items generalizing es with
    | nil => cases hes; trivial
    | cons d ds ihds =>
      obtain ⟨hd, hds⟩ := List.forall_mem_cons.mp ih
      obtain ⟨hn, hns⟩ := List.forall_mem_cons.mp hitems
      obtain ⟨e, he, hrest⟩ := Option.bind_eq_some_iff.mp hes
      obtain ⟨es', hes', rfl⟩ := Option.map_eq_some_iff.mp hrest
      exact ⟨hd he hn, ihds hds es' hes' hns⟩
  | object fields ih =>
    obtain ⟨es, hes, rfl⟩ := Option.map_eq_some_iff.mp he
    obtain ⟨hnames, hvalues⟩ := hd
    have hfields := distinctFields_iff.mp hvalues
    have hboth : es.map Prod.fst = fields.map Prod.fst ∧ DistinctFields es := by
      clear he hnames hvalues
      induction fields generalizing es with
      | nil => cases hes; exact ⟨rfl, trivial⟩
      | cons p fs ihfs =>
        obtain ⟨hd, hds⟩ := List.forall_mem_cons.mp ih
        obtain ⟨hn, hns⟩ := List.forall_mem_cons.mp hfields
        obtain ⟨e, he, hrest⟩ := Option.bind_eq_some_iff.mp hes
        obtain ⟨es', hes', rfl⟩ := Option.map_eq_some_iff.mp hrest
        obtain ⟨hnames', hvalues'⟩ := ihfs hds es' hes' hns
        exact ⟨by rw [List.map_cons, List.map_cons, hnames'], hd he hn, hvalues'⟩
    exact ⟨hboth.1.symm ▸ hnames, hboth.2⟩

theorem map_fst_sortFieldsFields [LinearOrder κ] (key : List Char → κ)
    (fs : List (List Char × Json ν)) :
    (sortFieldsFields key fs).map Prod.fst = fs.map Prod.fst := by
  rw [sortFieldsFields_eq, List.map_map]
  rfl

theorem distinct_sortFields [LinearOrder κ] (key : List Char → κ)
    (hd : d.Distinct) : (sortFields key d).Distinct := by
  induction d using induction with
  | null | bool | number | string => trivial
  | array items ih =>
    have hitems := distinctItems_iff.mp hd
    show DistinctItems (sortFieldsItems key items)
    rw [sortFieldsItems_eq, distinctItems_iff, List.forall_mem_map]
    exact fun d hd => ih d hd (hitems d hd)
  | object fields ih =>
    obtain ⟨hnames, hvalues⟩ := hd
    have hfields := distinctFields_iff.mp hvalues
    have hperm := perm_sortedFields key (sortFieldsFields key fields)
    constructor
    · rw [(hperm.map Prod.fst).nodup_iff, map_fst_sortFieldsFields]
      exact hnames
    · rw [distinctFields_iff]
      intro f hf
      rw [hperm.mem_iff, sortFieldsFields_eq, List.mem_map] at hf
      obtain ⟨g, hg, rfl⟩ := hf
      exact ih g hg (hfields g hg)

theorem sortFields_sortFields {κ' : Type} [LinearOrder κ] [LinearOrder κ']
    {key : List Char → κ} (hkey : Function.Injective key) (key' : List Char → κ')
    (hd : d.Distinct) : sortFields key (sortFields key' d) = sortFields key d := by
  induction d using induction with
  | null | bool | number | string => rfl
  | array items ih =>
    have hitems := distinctItems_iff.mp hd
    simp only [sortFields, sortFieldsItems_eq, List.map_map]
    exact congrArg array (List.map_congr_left fun d hd => ih d hd (hitems d hd))
  | object fields ih =>
    obtain ⟨hnames, hvalues⟩ := hd
    have hfields := distinctFields_iff.mp hvalues
    have hvals : (sortFieldsFields key' fields).map (fun f => (f.1, sortFields key f.2))
        = sortFieldsFields key fields := by
      rw [sortFieldsFields_eq, sortFieldsFields_eq, List.map_map]
      exact List.map_congr_left fun f hf => congrArg (Prod.mk f.1) (ih f hf (hfields f hf))
    -- Inside, the values are sorted again; then the outer sort meets the same fields.
    simp only [sortFields]
    rw [sortFieldsFields_eq key, map_sortedFields, hvals]
    refine congrArg object (sortedFields_of_perm hkey (perm_sortedFields key' _) ?_)
    rw [((perm_sortedFields key' _).map Prod.fst).nodup_iff, map_fst_sortFieldsFields]
    exact hnames

end Json

/-- A document whose objects have distinct names. -/
structure Document (ν : Type) where
  json : Json ν
  distinct : json.Distinct

namespace Document

variable {ν μ κ : Type}

theorem json_injective : Function.Injective (json : Document ν → Json ν) := by
  rintro ⟨d, hd⟩ ⟨e, he⟩ h
  obtain rfl : d = e := h
  rfl

/-- Every number changed by `f`, unless `f` fails on one of them. -/
def numbers? (f : ν → Option μ) (d : Document ν) : Option (Document μ) :=
  match h : d.json.numbers? f with
  | none => none
  | some e => some ⟨e, Json.distinct_numbers? h d.distinct⟩

/-- Every number changed by `f`. -/
def map (f : ν → μ) (d : Document ν) : Document μ :=
  ⟨d.json.map f, Json.distinct_numbers? (Json.numbers?_some f d.json) d.distinct⟩

@[simp] theorem json_map (f : ν → μ) (d : Document ν) : (d.map f).json = d.json.map f := rfl

/-- The fields of every object in the order of the keys of their names. -/
def sortFields [LinearOrder κ] (key : List Char → κ) (d : Document ν) : Document ν :=
  ⟨d.json.sortFields key, Json.distinct_sortFields key d.distinct⟩

@[simp] theorem json_sortFields [LinearOrder κ] (key : List Char → κ) (d : Document ν) :
    (d.sortFields key).json = d.json.sortFields key := rfl

theorem map_json_numbers? (f : ν → Option μ) (d : Document ν) :
    (d.numbers? f).map json = d.json.numbers? f := by
  unfold numbers?
  split
  · next h => exact h.symm
  · next e h => exact h.symm

variable {f : ν → Option μ} {e : Document μ} {d : Document ν}

theorem numbers?_eq_some :
    d.numbers? f = some e ↔ d.json.numbers? f = some e.json := by
  rw [← map_json_numbers?]
  exact (Option.map_injective json_injective).eq_iff.symm

theorem exists_numbers? {d : Document ν}
    (h : ∀ n ∈ d.json.numbers, ∃ m, f n = some m) : ∃ e, d.numbers? f = some e := by
  obtain ⟨e, he⟩ := Json.exists_numbers? h
  exact ⟨⟨e, Json.distinct_numbers? he d.distinct⟩, numbers?_eq_some.mpr he⟩

theorem numbers?_of_eq_some {ρ : Type} {g : μ → Option ρ} {h : ν → Option ρ}
    (he : d.numbers? f = some e)
    (hread : ∀ n ∈ d.json.numbers, ∀ m, f n = some m → g m = h n) :
    e.numbers? g = d.numbers? h := by
  apply Option.map_injective json_injective
  rw [map_json_numbers?, map_json_numbers?]
  exact Json.numbers?_of_eq_some (numbers?_eq_some.mp he) hread

theorem numbers?_of_stored {ρ σ : Type} {c : μ → Option ρ}
    {p : ρ → Option σ} {q : ν → Option σ} {s : Document ρ}
    (he : d.numbers? f = some e) (hs : e.numbers? c = some s)
    (h : ∀ n ∈ d.json.numbers, ∀ m t, f n = some m → c m = some t → p t = q n) :
    s.numbers? p = d.numbers? q := by
  have hboth : d.numbers? (fun n => (f n).bind c) = some s := by
    rw [← numbers?_of_eq_some he fun n _ m hm => (by rw [hm, Option.bind_some]), hs]
  refine numbers?_of_eq_some hboth fun n hn t ht => ?_
  obtain ⟨m, hm, hc⟩ := Option.bind_eq_some_iff.mp ht
  exact h n hn m t hm hc

section Order

variable {κ' : Type} [LinearOrder κ] [LinearOrder κ'] {key : List Char → κ}

theorem numbers?_sortFields (f : ν → Option μ) (d : Document ν) :
    (d.sortFields key).numbers? f = (d.numbers? f).map (sortFields key) := by
  apply Option.map_injective json_injective
  have hmap : ((d.numbers? f).map (sortFields key)).map json
      = ((d.numbers? f).map json).map (Json.sortFields key) := by
    rw [Option.map_map, Option.map_map]
    rfl
  rw [hmap, map_json_numbers?, map_json_numbers?, json_sortFields, Json.numbers?_sortFields]

theorem sortFields_sortFields (hkey : Function.Injective key) (key' : List Char → κ')
    (d : Document ν) : (d.sortFields key').sortFields key = d.sortFields key :=
  json_injective (Json.sortFields_sortFields hkey key' d.distinct)

/-- A document that was written and kept, and whose fields may stand in another order, is
rendered from its numbers as they are read. -/
theorem rendered_of_stored {ρ σ : Type} {f : ν → Option μ}
    {c : μ → Option ρ} {p : ρ → Option σ} {q : ν → Option σ} {d : Document ν} {e : Document μ}
    {kept s : Document ρ} (he : d.numbers? f = some e) (hkept : e.numbers? c = some kept)
    (hs : s.sortFields key = kept.sortFields key)
    (h : ∀ n ∈ d.json.numbers, ∀ m t, f n = some m → c m = some t → p t = q n) :
    s.json.rendered key p = d.json.rendered key q := by
  have hread : kept.json.numbers? p = d.json.numbers? q := by
    rw [← map_json_numbers?, ← map_json_numbers?, numbers?_of_stored he hkept h]
  calc s.json.rendered key p = (s.json.sortFields key).numbers? p :=
        (Json.numbers?_sortFields p s.json).symm
    _ = (kept.json.sortFields key).numbers? p := congrArg (fun d => d.json.numbers? p) hs
    _ = (kept.json.numbers? p).map (Json.sortFields key) := Json.numbers?_sortFields p kept.json
    _ = d.json.rendered key q := by rw [hread, Json.rendered]

theorem rendered_of_numbers? {ρ : Type} {f : ν → Option μ} {g : μ → Option ρ} {d : Document ν}
    {e : Document μ} (he : d.numbers? f = some e) :
    e.json.rendered key g = d.json.rendered key fun n => (f n).bind g := by
  have hread : e.json.numbers? g = d.json.numbers? fun n => (f n).bind g :=
    Json.numbers?_of_eq_some (numbers?_eq_some.mp he) fun n _ m hm => by
      rw [hm, Option.bind_some]
  rw [Json.rendered, hread, Json.rendered]

end Order

/-- The same document up to the order of fields. -/
def SameFields (d e : Document ν) : Prop := d.sortFields id = e.sortFields id

theorem sameFields_of_sortFields [LinearOrder κ] {key : List Char → κ} {d e : Document ν}
    (h : d.sortFields key = e.sortFields key) : SameFields d e := by
  have hid : Function.Injective (id : List Char → List Char) := Function.injective_id
  calc d.sortFields id = (d.sortFields key).sortFields id := (sortFields_sortFields hid key d).symm
    _ = (e.sortFields key).sortFields id := by rw [h]
    _ = e.sortFields id := sortFields_sortFields hid key e

theorem SameFields.numbers? {d e : Document ν} (h : SameFields d e) {f : ν → Option μ}
    {x y : Document μ} (hx : d.numbers? f = some x) (hy : e.numbers? f = some y) :
    SameFields x y := by
  have hsorted : (d.sortFields id).numbers? f = (e.sortFields id).numbers? f := by
    rw [show d.sortFields id = e.sortFields id from h]
  rw [numbers?_sortFields, numbers?_sortFields, hx, hy] at hsorted
  exact Option.some.inj hsorted

end Document

end SocialActivities.Lib
