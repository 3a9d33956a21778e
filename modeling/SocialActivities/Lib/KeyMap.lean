import Mathlib.Algebra.GroupWithZero.Nat
import Mathlib.Data.List.MinMax
import Mathlib.Data.List.Nodup
import Mathlib.Data.List.Perm.Subperm

/-!
# `SocialActivities.Lib.KeyMap`: rows under a unique key

A `KeyMap κ ρ` is a table with a unique key that the rows carry themselves: rows in insertion
order, at most one for each key. `set` is an upsert: it replaces the row under the key in its
place, or appends a new one.

Later proofs read a map through `get?` and `count`. `get?_set` and `get?_removeIf` say what a
write changes, and `forall_set` and `get?_of_removeIf` what it keeps. `count_set` says how an
upsert changes the number of rows that satisfy a query: the old row under the key goes and the new
one comes; `count_removeIf` and `count_remove` do the same for removals. `mapRows` changes the rows
in place, with `get?_mapRows` and `count_mapRows`. `count_congr` and `count_le_count` compare two
queries row by row. `total` sums a weight over the rows, and `total_set` and `total_removeIf` say
how a write changes the sum. `anyRow` asks whether a row satisfies a query, and `top?` gives the key
that comes first by a rank.
-/

namespace SocialActivities.Lib

/-- Rows under a unique key, in insertion order. -/
structure KeyMap (κ ρ : Type) where
  entries : List (κ × ρ)
  nodup : (entries.map Prod.fst).Nodup

namespace KeyMap

variable {κ ρ : Type} [DecidableEq κ]

omit [DecidableEq κ] in
/-- No rows. -/
def empty : KeyMap κ ρ := ⟨[], List.nodup_nil⟩

/-- The row under a key. -/
def get? (m : KeyMap κ ρ) (k : κ) : Option ρ :=
  (m.entries.find? fun e => e.1 == k).map Prod.snd

omit [DecidableEq κ] in
/-- The number of rows that satisfy a query. -/
def count (m : KeyMap κ ρ) (p : κ → ρ → Bool) : Nat := m.entries.countP fun e => p e.1 e.2

omit [DecidableEq κ] in
/-- The keys of the rows that satisfy a query, in insertion order. -/
def keysWhere (m : KeyMap κ ρ) (p : κ → ρ → Bool) : List κ :=
  (m.entries.filter fun e => p e.1 e.2).map Prod.fst

omit [DecidableEq κ] in
/-- The rows that do not satisfy a query. -/
def removeIf (m : KeyMap κ ρ) (p : κ → ρ → Bool) : KeyMap κ ρ where
  entries := m.entries.filter fun e => !p e.1 e.2
  nodup := m.nodup.sublist (List.filter_sublist.map _)

/-- The entries with the row under `k` replaced. -/
def replace (entries : List (κ × ρ)) (k : κ) (r : ρ) : List (κ × ρ) :=
  entries.map fun e => if e.1 = k then (k, r) else e

theorem fst_replace (entries : List (κ × ρ)) (k : κ) (r : ρ) :
    (replace entries k r).map Prod.fst = entries.map Prod.fst := by
  unfold replace
  rw [List.map_map]
  refine List.map_congr_left fun e _ => ?_
  by_cases h : e.1 = k <;> simp [h]

/-- Replace the row under `k`, or append a new one. -/
def set (m : KeyMap κ ρ) (k : κ) (r : ρ) : KeyMap κ ρ :=
  if h : k ∈ m.entries.map Prod.fst then
    ⟨replace m.entries k r, by rw [fst_replace]; exact m.nodup⟩
  else
    ⟨m.entries ++ [(k, r)], by
      rw [List.map_append]
      exact List.nodup_append'.mpr ⟨m.nodup, List.nodup_singleton _, by simpa using h⟩⟩

variable {m : KeyMap κ ρ} {r : ρ} {k : κ}

theorem mem_entries_iff :
    (k, r) ∈ m.entries ↔ m.get? k = some r := by
  unfold get?
  constructor
  · intro h
    cases hfind : m.entries.find? (fun e => e.1 == k) with
    | none =>
      have hno := List.find?_eq_none.mp hfind (k, r) h
      simp at hno
    | some e =>
      have hkey : e.1 = k := by simpa using List.find?_some hfind
      have heq : e = (k, r) :=
        List.inj_on_of_nodup_map m.nodup (List.mem_of_find?_eq_some hfind) h hkey
      rw [heq]
      rfl
  · intro h
    obtain ⟨e, hfind, rfl⟩ := Option.map_eq_some_iff.mp h
    have hkey : e.1 = k := by simpa using List.find?_some hfind
    rw [← hkey]
    exact List.mem_of_find?_eq_some hfind

theorem mem_keys_iff :
    k ∈ m.entries.map Prod.fst ↔ ∃ r, m.get? k = some r := by
  constructor
  · intro h
    obtain ⟨⟨j, r⟩, hmem, rfl⟩ := List.mem_map.mp h
    exact ⟨r, mem_entries_iff.mp hmem⟩
  · rintro ⟨r, h⟩
    exact List.mem_map.mpr ⟨(k, r), mem_entries_iff.mpr h, rfl⟩

@[simp] theorem get?_empty (k : κ) : (empty : KeyMap κ ρ).get? k = none := rfl

theorem get?_set (m : KeyMap κ ρ) (k : κ) (r : ρ) (j : κ) :
    (m.set k r).get? j = if j = k then some r else m.get? j := by
  -- Both forms of the write put `(k, r)` among the entries and keep the others.
  have hmem : ∀ s : ρ, (j, s) ∈ (m.set k r).entries ↔
      if j = k then s = r else (j, s) ∈ m.entries := by
    intro s
    unfold set
    split
    · rename_i hk
      simp only [replace, List.mem_map]
      by_cases hj : j = k
      · subst hj
        simp only [if_true]
        constructor
        · rintro ⟨e, he, heq⟩
          by_cases hek : e.1 = j
          · rw [if_pos hek] at heq
            exact (Prod.mk.inj heq).2.symm
          · rw [if_neg hek] at heq
            rw [heq] at hek
            exact absurd rfl hek
        · rintro rfl
          obtain ⟨e, he, hek⟩ := List.mem_map.mp hk
          exact ⟨e, he, by rw [if_pos hek]⟩
      · rw [if_neg hj]
        constructor
        · rintro ⟨e, he, heq⟩
          by_cases hek : e.1 = k
          · rw [if_pos hek] at heq
            exact absurd (Prod.mk.inj heq).1.symm hj
          · rw [if_neg hek] at heq
            rw [← heq]
            exact he
        · intro he
          exact ⟨(j, s), he, by rw [if_neg hj]⟩
    · rename_i hk
      rw [List.mem_append, List.mem_singleton, Prod.mk.injEq]
      by_cases hj : j = k
      · subst hj
        simp only [if_true, true_and]
        exact or_iff_right fun he => hk (List.mem_map.mpr ⟨_, he, rfl⟩)
      · rw [if_neg hj]
        exact or_iff_left fun h => hj h.1
  by_cases hj : j = k
  · rw [if_pos hj]
    exact mem_entries_iff.mp ((hmem r).mpr (by rw [if_pos hj]))
  · rw [if_neg hj]
    refine Option.ext fun s => ?_
    rw [← mem_entries_iff, ← mem_entries_iff, hmem s, if_neg hj]

/-- The first entry of the keys that satisfy a query, after an upsert: it is the new row, or it was
the first before. -/
theorem find?_set {p : κ → Bool} {e : κ × ρ}
    (h : (m.set k r).entries.find? (fun e => p e.1) = some e) :
    e = (k, r) ∨ m.entries.find? (fun e => p e.1) = some e := by
  unfold set at h
  split at h
  · -- The keys are as before, so the entry is found where it was.
    have hsame : ((fun e : κ × ρ => p e.1) ∘ fun e => if e.1 = k then (k, r) else e) =
        fun e => p e.1 := by
      funext e
      by_cases he : e.1 = k <;> simp [he]
    simp only [replace, List.find?_map, hsame] at h
    obtain ⟨old, hold, heq⟩ := Option.map_eq_some_iff.mp h
    by_cases hk : old.1 = k
    · rw [if_pos hk] at heq
      exact Or.inl heq.symm
    · rw [if_neg hk] at heq
      exact Or.inr (heq ▸ hold)
  · rw [List.find?_append] at h
    rcases Option.or_eq_some_iff.mp h with hold | ⟨-, hnew⟩
    · exact Or.inr hold
    · exact Or.inl (List.mem_singleton.mp (List.mem_of_find?_eq_some hnew))

/-- A row after an upsert is the new one or an old one. -/
theorem of_get?_set {j : κ} {s : ρ} (h : (m.set k r).get? j = some s) :
    j = k ∧ r = s ∨ m.get? j = some s := by
  rw [get?_set] at h
  split at h
  · next hj => exact Or.inl ⟨hj, Option.some.inj h⟩
  · exact Or.inr h

theorem forall_set {holds : κ → ρ → Prop} (hnew : holds k r)
    (hold : ∀ j s, m.get? j = some s → holds j s) :
    ∀ j s, (m.set k r).get? j = some s → holds j s := by
  intro j s hget
  rcases of_get?_set hget with ⟨rfl, rfl⟩ | hget
  · exact hnew
  · exact hold j s hget

/-- A symmetric relation between the rows of different keys, after an upsert. -/
theorem pairs_set {R : ρ → ρ → Prop} (hsymm : ∀ a b, R a b → R b a)
    (hnew : ∀ j b, j ≠ k → m.get? j = some b → R r b)
    (hold : ∀ i j a b, m.get? i = some a → m.get? j = some b → i ≠ j → R a b) :
    ∀ i j a b, (m.set k r).get? i = some a → (m.set k r).get? j = some b → i ≠ j → R a b := by
  intro i j a b hi hj hne
  rw [get?_set] at hi hj
  split at hi
  · cases hi
    rename_i hik
    rw [if_neg fun hjk => hne (hik.trans hjk.symm)] at hj
    exact hnew j b (fun hjk => hne (hik.trans hjk.symm)) hj
  · split at hj
    · cases hj
      rename_i hik _
      exact hsymm _ _ (hnew i a hik hi)
    · exact hold i j a b hi hj hne

theorem get?_removeIf (m : KeyMap κ ρ) (p : κ → ρ → Bool) (j : κ) :
    (m.removeIf p).get? j = (m.get? j).filter fun r => !p j r := by
  refine Option.ext fun s => ?_
  rw [← mem_entries_iff, Option.filter_eq_some_iff, ← mem_entries_iff]
  simp [removeIf, List.mem_filter]

theorem get?_of_removeIf {gone : κ → ρ → Bool} {r : ρ}
    (h : (m.removeIf gone).get? k = some r) : m.get? k = some r := by
  rw [get?_removeIf, Option.filter_eq_some_iff] at h
  exact h.1

omit [DecidableEq κ] in
/-- Every row changed by a function that keeps its key. -/
def mapRows (m : KeyMap κ ρ) (f : κ → ρ → ρ) : KeyMap κ ρ where
  entries := m.entries.map fun e => (e.1, f e.1 e.2)
  nodup := by
    rw [List.map_map]
    exact m.nodup

theorem get?_mapRows (m : KeyMap κ ρ) (f : κ → ρ → ρ) (k : κ) :
    (m.mapRows f).get? k = (m.get? k).map (f k) := by
  unfold get? mapRows
  rw [List.find?_map, Option.map_map, Option.map_map]
  change ((m.entries.find? fun e => e.1 == k).map fun e => f e.1 e.2) = _
  cases hfind : m.entries.find? (fun e => e.1 == k) with
  | none => rfl
  | some e =>
    have hkey : e.1 = k := by simpa using List.find?_some hfind
    simp only [Option.map_some, Function.comp_apply, hkey]

omit [DecidableEq κ] in
theorem count_mapRows (m : KeyMap κ ρ) (f : κ → ρ → ρ) (p : κ → ρ → Bool) :
    (m.mapRows f).count p = m.count fun k r => p k (f k r) := by
  unfold count mapRows
  rw [List.countP_map]
  rfl

theorem count_congr {p q : κ → ρ → Bool}
    (h : ∀ k r, m.get? k = some r → p k r = q k r) : m.count p = m.count q :=
  List.countP_congr fun e he => by rw [h e.1 e.2 (mem_entries_iff.mp he)]

theorem count_le_count {p q : κ → ρ → Bool}
    (h : ∀ k r, m.get? k = some r → p k r = true → q k r = true) : m.count p ≤ m.count q :=
  List.countP_mono_left fun e he => h e.1 e.2 (mem_entries_iff.mp he)

theorem count_pos_of_get? {p : κ → ρ → Bool} {r : ρ}
    (hget : m.get? k = some r) (hp : p k r = true) : 0 < m.count p :=
  List.countP_pos_iff.mpr ⟨(k, r), mem_entries_iff.mpr hget, hp⟩

variable {entries : List (κ × ρ)}

/-- The rows are the row under `k`, if there is one, and the rows under the other keys. -/
theorem perm_removeIf (m : KeyMap κ ρ) (k : κ) :
    m.entries.Perm ((m.get? k).toList.map (Prod.mk k) ++ (m.removeIf fun j _ => j == k).entries) := by
  have hkey : ((m.get? k).toList.map (Prod.mk k)).Nodup := by cases m.get? k <;> simp
  refine (List.perm_ext_iff_of_nodup m.nodup.of_map (hkey.append (m.removeIf _).nodup.of_map ?_)).mpr ?_
  · intro e he hrest
    obtain ⟨_, -, rfl⟩ := List.mem_map.mp he
    simp [removeIf] at hrest
  · intro ⟨j, s⟩
    rw [List.mem_append, mem_entries_iff, mem_entries_iff, get?_removeIf]
    by_cases hj : j = k
    · subst hj
      simp
    · simp [hj, Ne.symm hj]

/-- After an upsert they are the new row and the rows under the other keys. -/
theorem set_perm (m : KeyMap κ ρ) (k : κ) (r : ρ) :
    (m.set k r).entries.Perm ((k, r) :: (m.removeIf fun j _ => j == k).entries) := by
  have hrest : ((m.set k r).removeIf fun j _ => j == k).entries.Perm
      (m.removeIf fun j _ => j == k).entries := by
    refine (List.perm_ext_iff_of_nodup (KeyMap.nodup _).of_map (KeyMap.nodup _).of_map).mpr ?_
    intro ⟨j, s⟩
    rw [mem_entries_iff, mem_entries_iff, get?_removeIf, get?_removeIf, get?_set]
    by_cases hj : j = k <;> simp [hj]
  have hself := perm_removeIf (m.set k r) k
  rw [get?_set, if_pos rfl] at hself
  exact hself.trans (hrest.cons _)

theorem count_remove (m : KeyMap κ ρ) (k : κ) (p : κ → ρ → Bool) :
    (m.removeIf fun j _ => j == k).count p + (if (m.get? k).any (p k) then 1 else 0)
      = m.count p := by
  unfold count
  rw [(perm_removeIf m k).countP_eq, List.countP_append, Nat.add_comm]
  cases m.get? k <;> simp [List.countP_cons]

theorem count_set (m : KeyMap κ ρ) (k : κ) (r : ρ) (p : κ → ρ → Bool) :
    (m.set k r).count p + (if (m.get? k).any (p k) then 1 else 0)
      = m.count p + (if p k r then 1 else 0) := by
  have hset : (m.set k r).count p = (m.removeIf fun j _ => j == k).count p + if p k r then 1 else 0 := by
    unfold count
    rw [(set_perm m k r).countP_eq, List.countP_cons]
  have hremove := count_remove m k p
  omega

omit [DecidableEq κ] in
theorem count_removeIf (m : KeyMap κ ρ) (gone p : κ → ρ → Bool) :
    (m.removeIf gone).count p = m.count fun k r => p k r && !gone k r := by
  unfold removeIf count
  dsimp only
  rw [List.countP_filter]

theorem mem_keysWhere {p : κ → ρ → Bool} :
    k ∈ m.keysWhere p ↔ ∃ r, m.get? k = some r ∧ p k r = true := by
  unfold keysWhere
  rw [List.mem_map]
  constructor
  · rintro ⟨⟨j, r⟩, hmem, rfl⟩
    rw [List.mem_filter] at hmem
    exact ⟨r, mem_entries_iff.mp hmem.1, hmem.2⟩
  · rintro ⟨r, hget, hp⟩
    exact ⟨(k, r), List.mem_filter.mpr ⟨mem_entries_iff.mpr hget, hp⟩, rfl⟩

omit [DecidableEq κ] in
theorem nodup_keysWhere (m : KeyMap κ ρ) (p : κ → ρ → Bool) : (m.keysWhere p).Nodup :=
  m.nodup.sublist (List.filter_sublist.map _)

omit [DecidableEq κ] in
theorem count_eq_length_keysWhere (m : KeyMap κ ρ) (p : κ → ρ → Bool) :
    m.count p = (m.keysWhere p).length := by
  rw [count, keysWhere, List.length_map, List.countP_eq_length_filter]

theorem count_le_of_keys {m' : KeyMap κ ρ} {p p' : κ → ρ → Bool}
    (h : ∀ k r, m'.get? k = some r → p' k r = true → ∃ w, m.get? k = some w ∧ p k w = true) :
    m'.count p' ≤ m.count p := by
  rw [count_eq_length_keysWhere, count_eq_length_keysWhere]
  refine (List.subperm_of_subset (nodup_keysWhere m' p') fun k hk => ?_).length_le
  obtain ⟨r, hget, hr⟩ := mem_keysWhere.mp hk
  exact mem_keysWhere.mpr (h k r hget hr)

omit [DecidableEq κ] in
theorem count_or_le (m : KeyMap κ ρ) (p q : κ → ρ → Bool) :
    (m.count fun k r => p k r || q k r) ≤ m.count p + m.count q := by
  show m.entries.countP (fun e => p e.1 e.2 || q e.1 e.2) ≤ _
  unfold count
  induction m.entries with
  | nil => simp
  | cons e es ih =>
    simp only [List.countP_cons]
    cases hp : p e.1 e.2 with
    | true =>
      simp only [Bool.true_or, if_true]
      omega
    | false =>
      simp only [Bool.false_or, Bool.false_eq_true, if_false]
      omega

theorem count_le_length {p : κ → ρ → Bool} {keys : List κ}
    (h : ∀ k r, m.get? k = some r → p k r = true → k ∈ keys) : m.count p ≤ keys.length := by
  rw [count_eq_length_keysWhere]
  refine (List.subperm_of_subset (nodup_keysWhere m p) fun k hk => ?_).length_le
  obtain ⟨r, hget, hr⟩ := mem_keysWhere.mp hk
  exact h k r hget hr

/-! ### Sums over the rows -/

omit [DecidableEq κ] in
/-- The sum of a weight over a list of rows. -/
def weigh (w : κ → ρ → Nat) (entries : List (κ × ρ)) : Nat := (entries.map fun e => w e.1 e.2).sum

omit [DecidableEq κ] in
/-- The sum of a weight over the rows. -/
def total (m : KeyMap κ ρ) (w : κ → ρ → Nat) : Nat := weigh w m.entries

omit [DecidableEq κ] in
theorem weigh_filter (w : κ → ρ → Nat) (p : κ × ρ → Bool) (entries : List (κ × ρ)) :
    weigh w (entries.filter p) + weigh w (entries.filter fun e => !p e) = weigh w entries := by
  unfold weigh
  induction entries with
  | nil => rfl
  | cons e es ih =>
    cases h : p e with
    | true =>
      rw [List.filter_cons_of_pos h, List.filter_cons_of_neg (by simp [h])]
      simp only [List.map_cons, List.sum_cons]
      omega
    | false =>
      rw [List.filter_cons_of_neg (by simp [h]), List.filter_cons_of_pos (by simp [h])]
      simp only [List.map_cons, List.sum_cons]
      omega

variable {w : κ → ρ → Nat}

theorem total_pos (h : m.get? k = some r) (hw : 0 < w k r) : 0 < m.total w := by
  by_contra hzero
  have hterm := List.sum_eq_zero_iff_forall_eq_nat.mp (Nat.eq_zero_of_not_pos hzero) (w k r)
    (List.mem_map.mpr ⟨(k, r), mem_entries_iff.mpr h, rfl⟩)
  omega

theorem total_eq_zero {w : κ → ρ → Nat}
    (h : ∀ k r, m.get? k = some r → w k r = 0) : m.total w = 0 := by
  refine List.sum_eq_zero_iff_forall_eq_nat.mpr fun n hn => ?_
  have ⟨e, he, hw⟩ := List.mem_map.mp hn
  rw [← hw]
  exact h e.1 e.2 (mem_entries_iff.mp he)

omit [DecidableEq κ] in
theorem total_removeIf (m : KeyMap κ ρ) (gone : κ → ρ → Bool) (w : κ → ρ → Nat) :
    weigh w (m.entries.filter fun e => gone e.1 e.2) + (m.removeIf gone).total w = m.total w :=
  weigh_filter w (fun e => gone e.1 e.2) m.entries

theorem total_set (m : KeyMap κ ρ) (k : κ) (r : ρ) (w : κ → ρ → Nat) :
    (m.set k r).total w + ((m.get? k).elim 0 (w k)) = m.total w + w k r := by
  unfold total weigh
  rw [((set_perm m k r).map _).sum_nat, ((perm_removeIf m k).map _).sum_nat]
  cases m.get? k with
  | none => simp [Nat.add_comm]
  | some old =>
    simp only [List.map_cons, List.sum_cons, Option.toList_some, List.map_append, List.sum_append,
      List.map_nil, List.sum_nil, Option.elim_some]
    omega

/-! ### Queries for one row -/

omit [DecidableEq κ] in
/-- Some row satisfies a query. -/
def anyRow (m : KeyMap κ ρ) (p : κ → ρ → Bool) : Bool := m.entries.any fun e => p e.1 e.2

theorem anyRow_eq_true {p : κ → ρ → Bool} :
    m.anyRow p = true ↔ ∃ k r, m.get? k = some r ∧ p k r = true := by
  unfold anyRow
  rw [List.any_eq_true]
  constructor
  · intro ⟨e, he, hp⟩
    exact ⟨e.1, e.2, mem_entries_iff.mp he, hp⟩
  · intro ⟨k, r, hget, hp⟩
    exact ⟨(k, r), mem_entries_iff.mpr hget, hp⟩

theorem anyRow_eq_false {p : κ → ρ → Bool} :
    m.anyRow p = false ↔ ∀ k r, m.get? k = some r → p k r = false := by
  rw [← Bool.not_eq_true, anyRow_eq_true]
  simp

variable {α : Type} [LinearOrder α]

omit [DecidableEq κ] in
/-- The key of the row with the highest rank among those that satisfy a query. -/
def top? (m : KeyMap κ ρ) (rank : κ → ρ → α) (p : κ → ρ → Bool) : Option κ :=
  ((m.entries.filter fun e => p e.1 e.2).argmax fun e => rank e.1 e.2).map Prod.fst

/-- The row under the key that `top?` gives satisfies the query, and no such row has a higher
rank. -/
theorem top?_spec {rank : κ → ρ → α} {p : κ → ρ → Bool}
    (h : m.top? rank p = some k) : ∃ r, m.get? k = some r ∧ p k r = true ∧
      ∀ j w, m.get? j = some w → p j w = true → rank j w ≤ rank k r := by
  obtain ⟨⟨k', r⟩, hmax, rfl⟩ := Option.map_eq_some_iff.mp h
  have hmem := List.mem_filter.mp (List.argmax_mem (Option.mem_def.mpr hmax))
  refine ⟨r, mem_entries_iff.mp hmem.1, hmem.2, fun j w hj hp => ?_⟩
  have hin : (j, w) ∈ m.entries.filter fun e => p e.1 e.2 :=
    List.mem_filter.mpr ⟨mem_entries_iff.mpr hj, hp⟩
  exact List.le_of_mem_argmax hin (Option.mem_def.mpr hmax)

theorem top?_eq_none {rank : κ → ρ → α} {p : κ → ρ → Bool} :
    m.top? rank p = none ↔ ∀ k r, m.get? k = some r → p k r = false := by
  show (List.argmax _ _).map Prod.fst = none ↔ _
  rw [Option.map_eq_none_iff, List.argmax_eq_none, List.filter_eq_nil_iff]
  constructor
  · intro h k r hget
    simpa using h (k, r) (mem_entries_iff.mpr hget)
  · intro h e he
    simpa using h e.1 e.2 (mem_entries_iff.mp he)

omit [DecidableEq κ] in
theorem weigh_pos {e : κ × ρ} (h : e ∈ entries) (hw : 0 < w e.1 e.2) : 0 < weigh w entries :=
  List.sum_pos_iff_exists_pos_nat.mpr ⟨_, List.mem_map.mpr ⟨e, h, rfl⟩, hw⟩

end KeyMap

end SocialActivities.Lib
