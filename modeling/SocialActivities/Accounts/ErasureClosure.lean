import SocialActivities.Accounts.DeleteRows
import SocialActivities.Lib.Closure

/-!
# `SocialActivities.Accounts.ErasureClosure`: what a deletion leaves

`doomed` are the rows that are to go: the roots, and what refers to a row that goes by a `CASCADE` reference.
`Erased` says what is left without them. The search asks a `PROTECT` reference when it comes to it, and not at
its end. It refuses a row that is still there, also one that would have gone later on: `Meets` is that it comes
to such a row, and `deleteRows_exact` that it refuses exactly then.

The proof follows the search. `After` relates the rows at some time to the rows at the start, by the set of rows
that are gone and by the references that are cleared. `Settled` is what makes the gone rows unreferenced.
`follow_spec` is one foreign key, `loop_spec` the loop over them, and `deleteRows_spec` the recursion.
-/

namespace SocialActivities.Accounts.Erasure

open Lib

variable {δ : Type}

/-- A row is named by its table and its key. -/
abbrev Key := String × Nat

/-- A reference, from row `r` to row `t`. -/
def Refers (db : Database δ) (ref : Relation) (r t : Key) : Prop :=
  r.1 = ref.table ∧ t.1 = ref.target ∧ ∃ row, db.get? r = some row ∧ row.refs ref.column = some t.2

/-- Row `r` goes when row `t` goes. -/
def Cascades (c : Catalog) (db : Database δ) (t r : Key) : Prop :=
  ∃ ref ∈ c.relations, ref.policy = some .cascade ∧ Refers db ref r t

/-- The rows with these keys. -/
def rowsOf (table : String) (ids : List Nat) : Set Key := {k | k.1 = table ∧ k.2 ∈ ids}

/-- The rows that are to go. -/
def doomed (c : Catalog) (db : Database δ) (table : String) (ids : List Nat) : Set Key :=
  Reach (Cascades c db) (rowsOf table ids)

/-- Every reference is to a row that is there. -/
def Integrity (c : Catalog) (db : Database δ) : Prop :=
  ∀ ref ∈ c.relations, ∀ r t, Refers db ref r t → (db.get? t).isSome = true

/-- The references in a column are cleared where they are to a row in `cleared`. -/
def Nulled (c : Catalog) (cleared : Relation → Key → Prop) (key : Key) (row : Row δ) (column : String) : Prop :=
  ∃ ref ∈ c.relations, ref.policy = some .setNull ∧ ref.table = key.1 ∧ ref.column = column ∧
    ∃ v, row.refs column = some v ∧ cleared ref (ref.target, v)

/-- A row as it was, but for the cleared references. -/
structure RowAfter (c : Catalog) (cleared : Relation → Key → Prop) (key : Key) (row row' : Row δ) : Prop where
  data : row'.data = row.data
  nulled : ∀ column, Nulled c cleared key row column → row'.refs column = none
  same : ∀ column, ¬Nulled c cleared key row column → row'.refs column = row.refs column

/-- The rows without those that are gone. -/
structure After (c : Catalog) (db : Database δ) (gone : Set Key) (cleared : Relation → Key → Prop)
    (db' : Database δ) : Prop where
  removed : ∀ key ∈ gone, db'.get? key = none
  new : ∀ key, db.get? key = none → db'.get? key = none
  kept : ∀ key ∉ gone, ∀ row, db.get? key = some row →
    ∃ row', db'.get? key = some row' ∧ RowAfter c cleared key row row'

/-- Precisely the rows that are to go are gone, `SET_NULL` references to them are null, and every other column
is as it was; no reference is to a row that is not there. -/
def Erased (c : Catalog) (db : Database δ) (table : String) (ids : List Nat) (db' : Database δ) : Prop :=
  After c db (doomed c db table ids) (fun _ t => t ∈ doomed c db table ids) db' ∧ Integrity c db'

/-! ### What the search meets -/

/-- The rows that go with some of `s` by the foreign keys in a list. -/
def children (db : Database δ) (refs : List Relation) (s : Set Key) : Set Key :=
  {r | ∃ ref ∈ refs, ref.policy = some .cascade ∧ ∃ t ∈ s, Refers db ref r t}

/-- What is gone when the foreign keys of `before` have been followed from the rows of `s`. -/
def goneAfter (c : Catalog) (db : Database δ) (gone s : Set Key) (before : List Relation) : Set Key :=
  gone ∪ Reach (Cascades c db) (children db before s)

/-- The search from the rows of `s`, with the rows of `gone` gone already, comes to a `PROTECT` reference to a
row that it is about to delete, from a row that is still there. -/
inductive Meets (c : Catalog) (db : Database δ) : Set Key → String → Set Key → Prop where
  | refused {gone s : Set Key} {table : String} {before after : List Relation} {ref : Relation} {r t : Key}
      (split : c.references table = before ++ ref :: after) (protects : ref.policy = some .protect)
      (refers : Refers db ref r t) (leaves : t ∈ s) (stays : r ∉ goneAfter c db gone s before) :
      Meets c db gone table s
  | deeper {gone s : Set Key} {table : String} {before after : List Relation} {ref : Relation}
      (split : c.references table = before ++ ref :: after) (cascades : ref.policy = some .cascade)
      (numbered : ref.table ≠ tokenTable)
      (meets : Meets c db (goneAfter c db gone s before) ref.table
        {r | r ∈ children db [ref] s ∧ r ∉ goneAfter c db gone s before}) :
      Meets c db gone table s

/-- The graph is one that `deletionPolicy` covers: every foreign key has a policy there, is in the current schema
and has no action of its own, and every table has a primary key. None refers to the tokens, whose key is no
number, and the `CASCADE` keys make no cycle. -/
structure Covered (c : Catalog) (root : String) : Prop where
  policy : ∀ ref ∈ c.relations, ref.policy.isSome = true
  schema : ∀ ref ∈ c.relations, ref.schema = c.currentSchema
  native : ∀ ref ∈ c.relations, ref.delete ≠ "c" ∧ ref.delete ≠ "n"
  keyed : ∀ table, table = root ∨ table ∈ c.relations.map Relation.table → table ≠ tokenTable →
    c.keyed table = true
  names : ∀ table, table = root ∨ table ∈ c.relations.map Relation.table → isQualified table = false
  tokens : root ≠ tokenTable ∧ ∀ ref ∈ c.relations, ref.target ≠ tokenTable
  acyclic : ∀ table, ¬Relation.TransGen
    (fun a b => ∃ ref ∈ c.relations, ref.policy = some .cascade ∧ ref.target = a ∧ ref.table = b) table table

/-! ### The rows at some time of the search -/

variable {c : Catalog} {db cur : Database δ} {gone s : Set Key} {cleared pending : Relation → Key → Prop}
  {root table : String} {ids : List Nat} {ref : Relation}

theorem mem_references : ref ∈ c.references table ↔ ref ∈ c.relations ∧ ref.target = table := by
  rw [Catalog.references, List.mem_insertionSort, List.mem_filter, beq_iff_eq]

theorem After.refl (db : Database δ) : After c db ∅ (fun _ _ => False) db where
  removed _ h := absurd h (Set.notMem_empty _)
  new _ h := h
  kept _ _ row h := ⟨row, h, rfl, fun _ ⟨_, _, _, _, _, _, _, hfalse⟩ => hfalse.elim, fun _ _ => rfl⟩

theorem After.congr {other : Relation → Key → Prop} (h : After c db gone cleared cur)
    (hsame : ∀ ref ∈ c.relations, ref.policy = some .setNull → ∀ v,
      cleared ref (ref.target, v) ↔ other ref (ref.target, v)) : After c db gone other cur where
  removed := h.removed
  new := h.new
  kept key hkey row hrow := by
    have ⟨row', hrow', hafter⟩ := h.kept key hkey row hrow
    have hnulled : ∀ column, Nulled c cleared key row column ↔ Nulled c other key row column := by
      intro column
      refine exists_congr fun ref => and_congr_right fun href => and_congr_right fun hpolicy => ?_
      refine and_congr_right fun _ => and_congr_right fun _ => exists_congr fun v => and_congr_right fun _ => ?_
      exact hsame ref href hpolicy v
    exact ⟨row', hrow', hafter.data, fun column hn => hafter.nulled column ((hnulled column).2 hn),
      fun column hn => hafter.same column (fun hc => hn ((hnulled column).1 hc))⟩

variable {r : Key}

theorem After.refers_iff (h : After c db gone cleared cur) (hpolicy : ref.policy ≠ some .setNull)
    {v : Nat} (htable : r.1 = ref.table) :
    (∃ row', cur.get? r = some row' ∧ row'.refs ref.column = some v) ↔
      r ∉ gone ∧ Refers db ref r (ref.target, v) := by
  -- The policy goes by table and column, so no other foreign key clears the column.
  have hnot : ∀ row : Row δ, ¬Nulled c cleared r row ref.column := by
    rintro row ⟨other, -, hother, hsame, hcolumn, -⟩
    rw [Relation.policy, hsame, hcolumn, htable] at hother
    exact hpolicy hother
  constructor
  · rintro ⟨row', hrow', hv⟩
    have hstays : r ∉ gone := fun hgone => by
      rw [h.removed r hgone] at hrow'
      cases hrow'
    refine ⟨hstays, htable, rfl, ?_⟩
    cases hrow : db.get? r with
    | none =>
      rw [h.new r hrow] at hrow'
      cases hrow'
    | some row =>
      have ⟨row'', hrow'', hafter⟩ := h.kept r hstays row hrow
      cases hrow'.symm.trans hrow''
      exact ⟨row, rfl, (hafter.same ref.column (hnot row)).symm.trans hv⟩
  · rintro ⟨hstays, -, -, row, hrow, hv⟩
    have ⟨row', hrow', hafter⟩ := h.kept r hstays row hrow
    exact ⟨row', hrow', (hafter.same ref.column (hnot row)).trans hv⟩

theorem refersTo_eq_true {row : Row δ} :
    refersTo ref ids r row = true ↔ r.1 = ref.table ∧ ∃ v ∈ ids, row.refs ref.column = some v := by
  rw [refersTo, Bool.and_eq_true, beq_iff_eq, Option.any_eq_true]
  simp only [List.contains_iff_mem]
  refine and_congr_right fun _ => exists_congr fun v => ?_
  exact and_comm

theorem After.found_iff (h : After c db gone cleared cur) (hpolicy : ref.policy ≠ some .setNull)
    (htarget : ref.target = table) (ids : List Nat) (r : Key) :
    (∃ row, cur.get? r = some row ∧ refersTo ref ids r row = true) ↔
      r ∉ gone ∧ ∃ t ∈ rowsOf table ids, Refers db ref r t := by
  simp only [refersTo_eq_true]
  constructor
  · rintro ⟨row, hrow, htable, v, hv, hrefs⟩
    obtain ⟨hstays, hrefers⟩ := (h.refers_iff hpolicy htable).1 ⟨row, hrow, hrefs⟩
    exact ⟨hstays, (ref.target, v), ⟨htarget, hv⟩, hrefers⟩
  · rintro ⟨hstays, t, ⟨-, ht⟩, hrefers⟩
    have hsame : t = (ref.target, t.2) := Prod.ext hrefers.2.1 rfl
    obtain ⟨row, hrow, hrefs⟩ := (h.refers_iff hpolicy hrefers.1).2 ⟨hstays, hsame ▸ hrefers⟩
    exact ⟨row, hrow, hrefers.1, t.2, ht, hrefs⟩

theorem After.refersTo_iff (h : After c db gone cleared cur) (hpolicy : ref.policy ≠ some .setNull)
    (htarget : ref.target = table) {row : Row δ} (hrow : cur.get? r = some row) :
    refersTo ref ids r row = true ↔ ∃ t ∈ rowsOf table ids, Refers db ref r t := by
  have hstays : r ∉ gone := fun hgone => by
    rw [h.removed r hgone] at hrow
    cases hrow
  have hfound := h.found_iff hpolicy htarget ids r
  constructor
  · exact fun hrefers => (hfound.1 ⟨row, hrow, hrefers⟩).2
  · intro hrefers
    have ⟨row', hrow', hselected⟩ := hfound.2 ⟨hstays, hrefers⟩
    cases hrow.symm.trans hrow'
    exact hselected

theorem After.removeIf (h : After c db gone cleared cur) {p : Key → Row δ → Bool}
    (hp : ∀ r row, cur.get? r = some row → (p r row = true ↔ r ∈ s)) :
    After c db (gone ∪ s) cleared (cur.removeIf p) where
  removed key hkey := by
    rw [KeyMap.get?_removeIf]
    cases hrow : cur.get? key with
    | none => rfl
    | some row =>
      have hs : key ∈ s := hkey.resolve_left fun hgone => by
        rw [h.removed key hgone] at hrow
        cases hrow
      rw [Option.filter_some, (hp key row hrow).2 hs]
      rfl
  new key hkey := by
    rw [KeyMap.get?_removeIf, h.new key hkey]
    rfl
  kept key hkey row hrow := by
    have ⟨row', hrow', hafter⟩ := h.kept key (fun hgone => hkey (.inl hgone)) row hrow
    refine ⟨row', ?_, hafter⟩
    have hnot : p key row' = false := Bool.eq_false_iff.2 fun hp' => hkey (.inr ((hp key row' hrow').1 hp'))
    rw [KeyMap.get?_removeIf, hrow', Option.filter_some, hnot]
    rfl

/-- An `UPDATE` that clears a column. -/
theorem After.nullify (h : After c db gone cleared cur) (href : ref ∈ c.relations)
    (hpolicy : ref.policy = some .setNull) (htarget : ref.target = table) :
    After c db gone (fun other t => cleared other t ∨ (other = ref ∧ t ∈ rowsOf table ids))
      (cur.mapRows fun key row => if refersTo ref ids key row then row.nullify ref.column else row) where
  removed key hkey := by
    rw [KeyMap.get?_mapRows, h.removed key hkey]
    rfl
  new key hkey := by
    rw [KeyMap.get?_mapRows, h.new key hkey]
    rfl
  kept key hkey row hrow := by
    have ⟨row', hrow', hafter⟩ := h.kept key hkey row hrow
    rw [KeyMap.get?_mapRows, hrow', Option.map_some]
    refine ⟨_, rfl, ?_, ?_, ?_⟩
    · split
      · exact hafter.data
      · exact hafter.data
    · rintro column ⟨other, hother, hset, hkeys, hcolumn, v, hv, hcleared⟩
      by_cases hold : Nulled c cleared key row column
      · have hnone := hafter.nulled column hold
        split
        · simp [Row.nullify, hnone]
        · exact hnone
      · cases hcleared with
        | inl hc => exact absurd ⟨other, hother, hset, hkeys, hcolumn, v, hv, hc⟩ hold
        | inr hnew =>
          -- The reference is still there, so the update selects the row.
          have hvalue : row'.refs column = some v := (hafter.same column hold).trans hv
          have hselected : refersTo ref ids key row' = true := by
            rw [refersTo_eq_true, ← hnew.1]
            exact ⟨hkeys.symm, v, hnew.2.2, hcolumn ▸ hvalue⟩
          rw [if_pos hselected, ← hnew.1]
          simp [Row.nullify, hcolumn]
    · intro column hnot
      have hold : ¬Nulled c cleared key row column := by
        rintro ⟨other, hother, hset, hkeys, hcolumn, v, hv, hc⟩
        exact hnot ⟨other, hother, hset, hkeys, hcolumn, v, hv, .inl hc⟩
      have hsame := hafter.same column hold
      split
      · rename_i hselected
        have ⟨htable, v, hv, hvalue⟩ := refersTo_eq_true.1 hselected
        by_cases hcolumn : column = ref.column
        · rw [hcolumn] at hsame
          have hrowValue : row.refs column = some v := by rw [hcolumn, ← hsame, hvalue]
          exact absurd ⟨ref, href, hpolicy, htable.symm, hcolumn.symm, v, hrowValue, .inr ⟨rfl, htarget, hv⟩⟩ hnot
        · simp [Row.nullify, hcolumn, hsame]
      · exact hsame

/-! ### One foreign key -/

/-- The rows that are gone take every row along that refers to them, unless its reference is cleared. -/
structure Settled (c : Catalog) (db : Database δ) (gone : Set Key) : Prop where
  closed : Closed (Cascades c db) gone
  guarded : ∀ ref ∈ c.relations, ref.policy = some .protect → ∀ r t, Refers db ref r t → t ∈ gone → r ∈ gone

/-- The references that are cleared: those to a row that is gone, and those to a row that is about to go, by a
foreign key that has been followed. -/
def clearedFrom (gone : Set Key) (pending : Relation → Key → Prop) (ref : Relation) (t : Key) : Prop :=
  t ∈ gone ∨ pending ref t

/-- The loop is at the rows of `s` and has followed the foreign keys of `before`. -/
structure Loop (c : Catalog) (db : Database δ) (gone : Set Key) (pending : Relation → Key → Prop) (s : Set Key)
    (before : List Relation) (cur : Database δ) : Prop where
  after : After c db (goneAfter c db gone s before)
    (clearedFrom (goneAfter c db gone s before) fun ref t => pending ref t ∨ ref ∈ before ∧ t ∈ s) cur
  settled : Settled c db (goneAfter c db gone s before)
  checked : ∀ ref ∈ before, ref.policy = some .protect → ∀ r, ∀ t ∈ s, Refers db ref r t →
    r ∈ goneAfter c db gone s before

/-- The loop refuses at the next foreign key. -/
def MeetsAt (c : Catalog) (db : Database δ) (gone s : Set Key) (before : List Relation) (ref : Relation) : Prop :=
  (ref.policy = some .protect ∧ ∃ r, ∃ t ∈ s, Refers db ref r t ∧ r ∉ goneAfter c db gone s before) ∨
  (ref.policy = some .cascade ∧ ref.table ≠ tokenTable ∧
    Meets c db (goneAfter c db gone s before) ref.table
      {r | r ∈ children db [ref] s ∧ r ∉ goneAfter c db gone s before})

theorem meets_iff : Meets c db gone table s ↔
    ∃ before ref after, c.references table = before ++ ref :: after ∧ MeetsAt c db gone s before ref := by
  constructor
  · intro h
    cases h with
    | refused split protects refers leaves stays =>
      exact ⟨_, _, _, split, .inl ⟨protects, _, _, leaves, refers, stays⟩⟩
    | deeper split cascades numbered meets => exact ⟨_, _, _, split, .inr ⟨cascades, numbered, meets⟩⟩
  · rintro ⟨before, ref, after, split, ⟨protects, r, t, leaves, refers, stays⟩ | ⟨cascades, numbered, meets⟩⟩
    · exact .refused split protects refers leaves stays
    · exact .deeper split cascades numbered meets

/-- An operation succeeds with `P`, or it refuses and `Q` holds. -/
def Outcome (P : Database δ → Prop) (Q : Prop) : Except Error (Database δ) → Prop
  | .ok cur => P cur ∧ ¬Q
  | .error e => e = .forbidden ∧ Q

theorem children_append (before : List Relation) :
    children db (before ++ [ref]) s = children db before s ∪ children db [ref] s := by
  ext r
  simp only [children, List.mem_append, Set.mem_union, Set.mem_ofPred_eq]
  constructor
  · rintro ⟨other, hother, h⟩
    exact hother.imp (fun hb => ⟨other, hb, h⟩) (fun hr => ⟨other, hr, h⟩)
  · rintro (⟨other, hb, h⟩ | ⟨other, hr, h⟩)
    · exact ⟨other, .inl hb, h⟩
    · exact ⟨other, .inr hr, h⟩

theorem goneAfter_append (before : List Relation) :
    goneAfter c db gone s (before ++ [ref]) =
      goneAfter c db gone s before ∪ Reach (Cascades c db) (children db [ref] s) := by
  rw [goneAfter, goneAfter, children_append, reach_union, Set.union_assoc]

theorem goneAfter_same {before : List Relation} (hpolicy : ref.policy ≠ some .cascade) :
    goneAfter c db gone s (before ++ [ref]) = goneAfter c db gone s before := by
  have hnone : children db [ref] s = ∅ := by
    refine Set.eq_empty_of_forall_notMem fun r ⟨other, hother, hcascade, _⟩ => ?_
    rw [List.mem_singleton] at hother
    exact hpolicy (hother ▸ hcascade)
  rw [goneAfter_append, hnone, reach_empty, Set.union_empty]

theorem reach_tokens (hc : Covered c root) (htable : ref.table = tokenTable) :
    Reach (Cascades c db) (children db [ref] s) = children db [ref] s := by
  refine Set.Subset.antisymm (Closed.reach_subset ?_ (fun _ h => h)) subset_reach
  rintro t r ⟨other, hother, -, hrefers⟩ ⟨token, htoken, -, _, _, hin⟩
  rw [List.mem_singleton] at htoken
  exact absurd (hrefers.2.1.symm.trans (hin.1.trans (htoken ▸ htable))) (hc.tokens.2 other hother)

theorem pending_append {before : List Relation} (hpolicy : ref.policy ≠ some .setNull) {g : Set Key}
    (h : After c db g (clearedFrom g fun other t => pending other t ∨ other ∈ before ∧ t ∈ s) cur) :
    After c db g (clearedFrom g fun other t => pending other t ∨ other ∈ before ++ [ref] ∧ t ∈ s) cur := by
  refine h.congr fun other _ hset v => or_congr_right (or_congr_right (and_congr_left fun _ => ?_))
  have hne : other ≠ ref := fun heq => hpolicy (heq.symm ▸ hset)
  rw [List.mem_append, List.mem_singleton]
  exact ⟨.inl, fun h => h.resolve_right hne⟩

/-- What is asked of a deletion of rows of a table: it removes their reach, or it refuses where it has to. -/
def Deletes (c : Catalog) (db : Database δ) (table : String)
    (delete : Database δ → List Nat → Except Error (Database δ)) : Prop :=
  ∀ cur gone pending ids, After c db gone (clearedFrom gone pending) cur → Settled c db gone →
    Outcome (fun cur' =>
        After c db (gone ∪ Reach (Cascades c db) (rowsOf table ids))
          (clearedFrom (gone ∪ Reach (Cascades c db) (rowsOf table ids)) pending) cur' ∧
        Settled c db (gone ∪ Reach (Cascades c db) (rowsOf table ids)))
      (Meets c db gone table (rowsOf table ids)) (delete cur ids)

section Follow

variable {before : List Relation} {recurse : Database δ → String → List Nat → Except Error (Database δ)}

theorem follow_eq (hc : Covered c root) (href : ref ∈ c.relations) {policy : Policy}
    (hpolicy : ref.policy = some policy) : follow recurse c ids cur ref = applyPolicy recurse c ids cur ref policy := by
  have hnative := hc.native ref href
  have hschema : (ref.schema == c.currentSchema) = true := beq_iff_eq.2 (hc.schema ref href)
  rw [follow, if_neg (by rw [not_or]; exact hnative), hpolicy, Option.elim_some, ok_bind, hschema, need_true, ok_bind]

theorem rowsOf_keysWhere (h : After c db gone cleared cur) (hpolicy : ref.policy = some .cascade)
    (htarget : ref.target = table) :
    rowsOf ref.table ((cur.keysWhere (refersTo ref ids)).map Prod.snd) =
      {r | r ∈ children db [ref] (rowsOf table ids) ∧ r ∉ gone} := by
  have hnot : ref.policy ≠ some .setNull := by
    rw [hpolicy]
    exact fun h => by cases h
  have hchild : ∀ r, r ∈ children db [ref] (rowsOf table ids) ↔ ∃ t ∈ rowsOf table ids, Refers db ref r t := by
    intro r
    simp [children, hpolicy]
  ext r
  rw [Set.mem_ofPred_eq, hchild, and_comm, ← h.found_iff hnot htarget]
  constructor
  · rintro ⟨htable, hr⟩
    have ⟨key, hkey, heq⟩ := List.mem_map.1 hr
    have ⟨row, hrow, hselected⟩ := KeyMap.mem_keysWhere.1 hkey
    have hsame : key = r := Prod.ext ((refersTo_eq_true.1 hselected).1.trans htable.symm) heq
    exact hsame ▸ ⟨row, hrow, hselected⟩
  · rintro ⟨row, hrow, hselected⟩
    refine ⟨(refersTo_eq_true.1 hselected).1, List.mem_map.2 ⟨r, ?_, rfl⟩⟩
    exact KeyMap.mem_keysWhere.2 ⟨row, hrow, hselected⟩

theorem follow_spec (hc : Covered c root) (href : ref ∈ c.references table)
    (hrecurse : ref.policy = some .cascade → ref.table ≠ tokenTable →
      Deletes c db ref.table fun cur ids => recurse cur ref.table ids)
    (hloop : Loop c db gone pending (rowsOf table ids) before cur) :
    Outcome (Loop c db gone pending (rowsOf table ids) (before ++ [ref]))
      (MeetsAt c db gone (rowsOf table ids) before ref) (follow recurse c ids cur ref) := by
  have ⟨hrel, htarget⟩ := mem_references.1 href
  have ⟨policy, hpolicy⟩ := Option.isSome_iff_exists.1 (hc.policy ref hrel)
  rw [follow_eq hc hrel hpolicy]
  -- The old keys are checked; a new one has to be.
  have hchecked : (ref.policy = some .protect → ∀ r, ∀ t ∈ rowsOf table ids, Refers db ref r t →
        r ∈ goneAfter c db gone (rowsOf table ids) (before ++ [ref])) →
      ∀ other ∈ before ++ [ref], other.policy = some .protect → ∀ r, ∀ t ∈ rowsOf table ids, Refers db other r t →
        r ∈ goneAfter c db gone (rowsOf table ids) (before ++ [ref]) := by
    intro hnew other hother hprotect r t ht hrefers
    cases List.mem_append.1 hother with
    | inl hb =>
      rw [goneAfter_append]
      exact .inl (hloop.checked other hb hprotect r t ht hrefers)
    | inr hr =>
      rw [List.mem_singleton.1 hr] at hprotect hrefers
      exact hnew hprotect r t ht hrefers
  have hother : ∀ other, other ≠ policy → ref.policy ≠ some other := fun other hne h =>
    hne (Option.some.inj (h.symm.trans hpolicy))
  cases policy with
  | setNull =>
    have hsame : goneAfter c db gone (rowsOf table ids) (before ++ [ref]) = _ :=
      goneAfter_same (hother .cascade (by decide))
    refine ⟨⟨?_, hsame ▸ hloop.settled, hchecked fun h => absurd h (hother .protect (by decide))⟩, ?_⟩
    · rw [hsame]
      refine (hloop.after.nullify hrel hpolicy htarget).congr fun other _ _ v => ?_
      simp only [clearedFrom, List.mem_append, List.mem_singleton, or_and_right, or_assoc]
    · rintro (⟨h, -⟩ | ⟨h, -⟩)
      · exact hother .protect (by decide) h
      · exact hother .cascade (by decide) h
  | protect =>
    have hset := hother .setNull (by decide)
    have hfound := hloop.after.found_iff hset htarget ids
    rw [applyPolicy]
    cases hpresent : cur.anyRow (refersTo ref ids) with
    | true =>
      have ⟨r, row, hrow, hselected⟩ := KeyMap.anyRow_eq_true.1 hpresent
      have ⟨hstays, t, ht, hrefers⟩ := (hfound r).1 ⟨row, hrow, hselected⟩
      exact ⟨rfl, .inl ⟨hpolicy, r, t, ht, hrefers, hstays⟩⟩
    | false =>
      have hnone : ∀ r, ∀ t ∈ rowsOf table ids, Refers db ref r t →
          r ∈ goneAfter c db gone (rowsOf table ids) before := by
        intro r t ht hrefers
        by_contra hstays
        have ⟨row, hrow, hselected⟩ := (hfound r).2 ⟨hstays, t, ht, hrefers⟩
        have hany := KeyMap.anyRow_eq_true.2 ⟨r, row, hrow, hselected⟩
        rw [hpresent] at hany
        cases hany
      have hsame : goneAfter c db gone (rowsOf table ids) (before ++ [ref]) = _ :=
        goneAfter_same (hother .cascade (by decide))
      refine ⟨⟨?_, hsame ▸ hloop.settled, hchecked fun _ => hsame ▸ hnone⟩, ?_⟩
      · rw [hsame]
        exact pending_append hset hloop.after
      · rintro (⟨-, r, t, ht, hrefers, hstays⟩ | ⟨h, -⟩)
        · exact hstays (hnone r t ht hrefers)
        · exact hother .cascade (by decide) h
  | cascade =>
    have hset := hother .setNull (by decide)
    have hfresh := hchecked fun h => absurd h (hother .protect (by decide))
    rw [applyPolicy]
    by_cases htoken : ref.table = tokenTable
    · rw [if_pos htoken]
      have hgone : goneAfter c db gone (rowsOf table ids) (before ++ [ref]) =
          goneAfter c db gone (rowsOf table ids) before ∪ children db [ref] (rowsOf table ids) := by
        rw [goneAfter_append, reach_tokens hc htoken]
      -- No foreign key is to a token, so nothing else has to do with the rows that go here.
      have hunreferenced : ∀ other ∈ c.relations, ∀ v, (other.target, v) ∉ children db [ref] (rowsOf table ids) := by
        rintro other hrelation v ⟨token, hmem, -, _, _, hrefers⟩
        rw [List.mem_singleton.1 hmem] at hrefers
        exact hc.tokens.2 other hrelation (hrefers.1.trans htoken)
      refine ⟨⟨?_, ⟨?_, ?_⟩, hfresh⟩, ?_⟩
      · rw [hgone]
        have hselected := hloop.after.removeIf (s := children db [ref] (rowsOf table ids))
          (p := refersTo ref ids) fun r row hrow => by
            rw [hloop.after.refersTo_iff hset htarget hrow]
            simp [children, hpolicy]
        refine pending_append hset (hselected.congr fun other hrelation _ v => or_congr_left ?_)
        exact ⟨.inl, fun h => h.resolve_right (hunreferenced other hrelation v)⟩
      · rw [goneAfter_append]
        exact hloop.settled.closed.union (closed_reach _)
      · intro other hrelation hprotect r t hrefers ht
        rw [hgone] at ht ⊢
        have hsame : t = (other.target, t.2) := Prod.ext hrefers.2.1 rfl
        exact .inl (hloop.settled.guarded other hrelation hprotect r t hrefers
          (ht.resolve_right fun h => hunreferenced other hrelation t.2 (hsame ▸ h)))
      · rintro (⟨h, -⟩ | ⟨-, h, -⟩)
        · exact hother .protect (by decide) h
        · exact h htoken
    · have hkeyed := hc.keyed ref.table (.inr (List.mem_map_of_mem hrel)) htoken
      rw [if_neg htoken, hkeyed, need_true, ok_bind]
      have hdeleted := hrecurse hpolicy htoken cur _ _ ((cur.keysWhere (refersTo ref ids)).map Prod.snd) hloop.after
        hloop.settled
      rw [rowsOf_keysWhere hloop.after hpolicy htarget, hloop.settled.closed.union_reach_sdiff, ← goneAfter_append]
        at hdeleted
      dsimp only at hdeleted
      cases hresult : recurse cur ref.table ((cur.keysWhere (refersTo ref ids)).map Prod.snd) with
      | error =>
        rw [hresult] at hdeleted
        exact ⟨hdeleted.1, .inr ⟨hpolicy, htoken, hdeleted.2⟩⟩
      | ok =>
        rw [hresult] at hdeleted
        refine ⟨⟨pending_append hset hdeleted.1.1, hdeleted.1.2, hfresh⟩, ?_⟩
        rintro (⟨h, -⟩ | ⟨-, -, hmeets⟩)
        · exact hother .protect (by decide) h
        · exact hdeleted.2 hmeets

end Follow

/-! ### The loop and the recursion -/

/-- The loop over the rest of the foreign keys refuses exactly when it does so at one of them. -/
theorem loop_spec {before rest : List Relation} {step : Database δ → Relation → Except Error (Database δ)}
    (hstep : ∀ before ref after cur, c.references table = before ++ ref :: after →
      Loop c db gone pending s before cur →
      Outcome (Loop c db gone pending s (before ++ [ref])) (MeetsAt c db gone s before ref) (step cur ref))
    (hsplit : c.references table = before ++ rest) (hloop : Loop c db gone pending s before cur)
    (hpassed : ∀ left ref right, before = left ++ ref :: right → ¬MeetsAt c db gone s left ref) :
    Outcome (Loop c db gone pending s (c.references table)) (Meets c db gone table s) (rest.foldlM step cur) := by
  induction rest generalizing before cur with
  | nil =>
    rw [List.append_nil] at hsplit
    refine ⟨hsplit ▸ hloop, fun hmeets => ?_⟩
    have ⟨left, ref, right, heq, hat⟩ := meets_iff.1 hmeets
    exact hpassed left ref right (hsplit.symm.trans heq) hat
  | cons ref rest ih =>
    have hnext := hstep before ref rest cur hsplit hloop
    rw [List.foldlM_cons]
    cases hresult : step cur ref with
    | error =>
      rw [hresult] at hnext
      exact ⟨hnext.1, meets_iff.2 ⟨before, ref, rest, hsplit, hnext.2⟩⟩
    | ok =>
      rw [hresult] at hnext
      have hrest : before ++ ref :: rest = before ++ [ref] ++ rest := by simp
      refine ih (hsplit.trans hrest) hnext.1 fun left other right heq hat => ?_
      -- The foreign key is one that was passed before, or the one that was passed last.
      cases List.eq_nil_or_concat right with
      | inl hnil =>
        rw [hnil] at heq
        have ⟨hleft, hsame⟩ := List.append_inj' heq rfl
        rw [← hleft, ← List.head_eq_of_cons_eq hsame] at hat
        exact hnext.2 hat
      | inr hconcat =>
        have ⟨init, last, hright⟩ := hconcat
        rw [hright, List.concat_eq_append, ← List.cons_append, ← List.append_assoc] at heq
        exact hpassed left other init (List.append_inj' heq rfl).1 hat

/-- The tables that the search is in, down to this one. -/
structure Path (c : Catalog) (root : String) (seen : List String) (table : String) : Prop where
  nodup : seen.Nodup
  tables : ∀ name, name = table ∨ name ∈ seen → name = root ∨ name ∈ c.relations.map Relation.table
  above : ∀ name ∈ seen, Relation.TransGen
    (fun a b => ∃ ref ∈ c.relations, ref.policy = some .cascade ∧ ref.target = a ∧ ref.table = b) name table

variable {seen : List String}

theorem Path.fresh (h : Path c root seen table) (hc : Covered c root) : table ∉ seen :=
  fun hmem => hc.acyclic table (h.above table hmem)

theorem Path.child (h : Path c root seen table) (hc : Covered c root)
    (href : ref ∈ c.references table) (hpolicy : ref.policy = some .cascade) :
    Path c root (table :: seen) ref.table := by
  have ⟨hrel, htarget⟩ := mem_references.1 href
  refine ⟨List.nodup_cons.2 ⟨h.fresh hc, h.nodup⟩, ?_, ?_⟩
  · rintro name (rfl | hname)
    · exact .inr (List.mem_map_of_mem hrel)
    · exact h.tables name ((List.mem_cons.1 hname).imp id id)
  · intro name hname
    have hlast : ∃ ref' ∈ c.relations, ref'.policy = some .cascade ∧ ref'.target = table ∧ ref'.table = ref.table :=
      ⟨ref, hrel, hpolicy, htarget, rfl⟩
    cases List.mem_cons.1 hname with
    | inl heq => exact heq ▸ .single hlast
    | inr hseen => exact (h.above name hseen).tail hlast

theorem Path.length_le (h : Path c root seen table) :
    seen.length ≤ c.relations.length + 1 := by
  have hsub : seen ⊆ root :: c.relations.map Relation.table := fun name hname =>
    List.mem_cons.2 (h.tables name (.inr hname))
  have hlength := (List.subperm_of_subset h.nodup hsub).length_le
  rwa [List.length_cons, List.length_map] at hlength

theorem not_meets_empty : ¬Meets c db gone table ∅ := by
  intro h
  generalize hs : (∅ : Set Key) = s at h
  induction h with
  | refused split protects refers leaves => exact absurd (hs ▸ leaves) (Set.notMem_empty _)
  | deeper split cascades numbered meets ih =>
    apply ih
    rw [← hs]
    refine (Set.eq_empty_of_forall_notMem ?_).symm
    rintro r ⟨⟨_, -, -, t, ht, -⟩, -⟩
    exact Set.notMem_empty t ht

theorem successors_rowsOf :
    successors (Cascades c db) (rowsOf table ids) = children db (c.references table) (rowsOf table ids) := by
  ext r
  constructor
  · rintro ⟨t, ht, ref, href, hpolicy, hrefers⟩
    exact ⟨ref, mem_references.2 ⟨href, hrefers.2.1.symm.trans ht.1⟩, hpolicy, t, ht, hrefers⟩
  · rintro ⟨ref, href, hpolicy, t, ht, hrefers⟩
    exact ⟨t, ht, ref, (mem_references.1 href).1, hpolicy, hrefers⟩

theorem goneAfter_references :
    goneAfter c db gone (rowsOf table ids) (c.references table) ∪ rowsOf table ids =
      gone ∪ Reach (Cascades c db) (rowsOf table ids) := by
  rw [reach_eq (rowsOf table ids), successors_rowsOf, goneAfter, Set.union_assoc,
    Set.union_comm (rowsOf table ids)]

/-- What the loop leaves, once the rows themselves are deleted. -/
theorem finish_spec {next : Database δ} (hsettled : Settled c db gone)
    (hnext : Loop c db gone pending (rowsOf table ids) (c.references table) next) :
    After c db (gone ∪ Reach (Cascades c db) (rowsOf table ids))
      (clearedFrom (gone ∪ Reach (Cascades c db) (rowsOf table ids)) pending)
      (next.removeIf fun key _ => key.1 == table && ids.contains key.2) ∧
    Settled c db (gone ∪ Reach (Cascades c db) (rowsOf table ids)) := by
  have hdeleted := hnext.after.removeIf (s := rowsOf table ids)
    (p := fun key _ => key.1 == table && ids.contains key.2) fun r row _ => by
      simp [rowsOf]
  rw [goneAfter_references] at hdeleted
  refine ⟨hdeleted.congr fun ref href _ v => ?_, hsettled.closed.union (closed_reach _), ?_⟩
  · -- The references that were pending for these rows are now to rows that are gone.
    rw [← goneAfter_references]
    simp only [clearedFrom, Set.mem_union]
    constructor
    · rintro (h | h | ⟨-, h⟩)
      · exact .inl (.inl h)
      · exact .inr h
      · exact .inl (.inr h)
    · rintro ((h | h) | h)
      · exact .inl h
      · exact .inr (.inr ⟨mem_references.2 ⟨href, h.1⟩, h⟩)
      · exact .inr (.inl h)
  · intro ref href hprotect r t hrefers ht
    rw [← goneAfter_references] at ht ⊢
    cases ht with
    | inl ht => exact .inl (hnext.settled.guarded ref href hprotect r t hrefers ht)
    | inr ht =>
      exact .inl (hnext.checked ref (mem_references.2 ⟨href, hrefers.2.1.symm.trans ht.1⟩) hprotect r t ht hrefers)

theorem loop_start (hafter : After c db gone (clearedFrom gone pending) cur) (hsettled : Settled c db gone) :
    Loop c db gone pending s [] cur := by
  have hgone : goneAfter c db gone s [] = gone := by
    have hnone : children db ([] : List Relation) s = ∅ :=
      Set.eq_empty_of_forall_notMem fun r ⟨_, hmem, _⟩ => (by cases hmem)
    rw [goneAfter, hnone, reach_empty, Set.union_empty]
  refine ⟨?_, hgone.symm ▸ hsettled, fun _ h => (by cases h)⟩
  rw [hgone]
  exact hafter.congr fun ref _ _ v => or_congr_right ⟨.inl, fun h => h.resolve_right fun h => (by cases h.1)⟩

theorem deleteRows_spec (hc : Covered c root) (fuel : Nat) (seen : List String) (table : String)
    (hpath : Path c root seen table) (htoken : table ≠ tokenTable) (hfuel : enough c ≤ fuel + seen.length) :
    Deletes c db table fun cur ids => deleteRows c fuel cur table ids seen := by
  induction fuel generalizing seen table with
  | zero =>
    have hlength := hpath.length_le
    rw [enough] at hfuel
    omega
  | succ fuel ih =>
    intro cur gone pending ids hafter hsettled
    dsimp only
    rw [deleteRows]
    by_cases hids : ids = []
    · have hnone : rowsOf table ids = ∅ :=
        Set.eq_empty_of_forall_notMem fun r ⟨_, hmem⟩ => (by rw [hids] at hmem; cases hmem)
      rw [if_pos hids, hnone, reach_empty, Set.union_empty]
      exact ⟨⟨hafter, hsettled⟩, not_meets_empty⟩
    rw [if_neg hids, if_neg (by rw [List.contains_iff_mem]; exact hpath.fresh hc)]
    dsimp only
    have hown := hpath.tables table (.inl rfl)
    have hloop : Outcome (Loop c db gone pending (rowsOf table ids) (c.references table))
        (Meets c db gone table (rowsOf table ids))
        ((c.references table).foldlM
          (follow (fun db child childIDs => deleteRows c fuel db child childIDs (table :: seen)) c ids) cur) := by
      refine @loop_spec _ _ _ _ _ _ _ _ [] _ _ (fun before ref after cur hsplit hloop => ?_) rfl
        (loop_start hafter hsettled) (fun left ref right heq => by cases left <;> cases heq)
      have href : ref ∈ c.references table := hsplit ▸ List.mem_append_right _ List.mem_cons_self
      refine follow_spec hc href (fun hpolicy hnumbered => ?_) hloop
      refine ih (table :: seen) ref.table (hpath.child hc href hpolicy) hnumbered ?_
      rw [List.length_cons]
      omega
    generalize (c.references table).foldlM
      (follow (fun db child childIDs => deleteRows c fuel db child childIDs (table :: seen)) c ids) cur = result
      at hloop ⊢
    cases result with
    | error => exact hloop
    | ok =>
      rw [ok_bind, hc.names table hown, hc.keyed table hown htoken]
      exact ⟨finish_spec hsettled hloop.1, hloop.2⟩

/-! ### The whole deletion -/

/-- Some row refers by `PROTECT` to a row that is to go; `holder` says more about it. -/
def Guarded (c : Catalog) (db : Database δ) (table : String) (ids : List Nat) (holder : Key → Prop) : Prop :=
  ∃ ref ∈ c.relations, ref.policy = some .protect ∧ ∃ r, holder r ∧
    ∃ t ∈ doomed c db table ids, Refers db ref r t

theorem guarded_of_meets {start : Set Key} (hs : s ⊆ Reach (Cascades c db) start) (h : Meets c db gone table s) :
    ∃ ref ∈ c.relations, ref.policy = some .protect ∧ ∃ r, ∃ t ∈ Reach (Cascades c db) start, Refers db ref r t := by
  induction h with
  | @refused _ _ table before after ref r t split protects refers leaves _ =>
    have href : ref ∈ c.references table := split ▸ List.mem_append_right _ List.mem_cons_self
    exact ⟨ref, (mem_references.1 href).1, protects, r, t, hs leaves, refers⟩
  | @deeper _ s table before after ref split cascades _ _ ih =>
    have href : ref ∈ c.references table := split ▸ List.mem_append_right _ List.mem_cons_self
    refine ih ?_
    rintro r ⟨⟨other, hother, -, t, ht, hrefers⟩, -⟩
    rw [List.mem_singleton.1 hother] at hrefers
    exact closed_reach _ t r ⟨ref, (mem_references.1 href).1, cascades, hrefers⟩ (hs ht)

theorem integrity_after (hc : Covered c root) (hdb : Integrity c db) {g : Set Key} (hsettled : Settled c db g)
    (hafter : After c db g (fun _ t => t ∈ g) cur) : Integrity c cur := by
  rintro ref href r t ⟨htable, htarget, row', hrow', hrefs⟩
  have hstays : r ∉ g := fun hgone => by
    rw [hafter.removed r hgone] at hrow'
    cases hrow'
  cases hrow : db.get? r with
  | none =>
    rw [hafter.new r hrow] at hrow'
    cases hrow'
  | some row =>
    have ⟨row'', hrow'', hkept⟩ := hafter.kept r hstays row hrow
    cases hrow'.symm.trans hrow''
    have hnot : ¬Nulled c (fun _ t => t ∈ g) r row ref.column := fun hn => by
      rw [hkept.nulled ref.column hn] at hrefs
      cases hrefs
    have hrefers : Refers db ref r t :=
      ⟨htable, htarget, row, hrow, (hkept.same ref.column hnot).symm.trans hrefs⟩
    -- The row referred to is there; were it gone, the policy would have taken this one along or cleared it.
    have htstays : t ∉ g := by
      intro hgone
      have ⟨policy, hpolicy⟩ := Option.isSome_iff_exists.1 (hc.policy ref href)
      cases policy with
      | cascade => exact hstays (hsettled.closed t r ⟨ref, href, hpolicy, hrefers⟩ hgone)
      | protect => exact hstays (hsettled.guarded ref href hpolicy r t hrefers hgone)
      | setNull =>
        have hvalue := (hkept.same ref.column hnot).symm.trans hrefs
        have hsame : t = (ref.target, t.2) := Prod.ext htarget rfl
        exact hnot ⟨ref, href, hpolicy, htable.symm, rfl, t.2, hvalue, hsame ▸ hgone⟩
    have ⟨target, hget⟩ := Option.isSome_iff_exists.1 (hdb ref href r t hrefers)
    have ⟨target', hget', _⟩ := hafter.kept t htstays target hget
    rw [hget']
    rfl

theorem settled_empty : Settled c db ∅ where
  closed _ _ _ h := absurd h (Set.notMem_empty _)
  guarded _ _ _ _ _ _ h := absurd h (Set.notMem_empty _)

/-- For every graph that the policies cover, every database with referential integrity and every set of roots the
deletion ends. It refuses exactly when the search comes to a `PROTECT` reference of a row that is still there:
always when a surviving row holds one to a row that is to go, and never when no row does. Else precisely the
rows that are to go are gone, and what is left is intact. -/
theorem deleteRows_exact (hc : Covered c table) (hdb : Integrity c db) (ids : List Nat) {fuel : Nat}
    (hfuel : enough c ≤ fuel) :
    (deleteRows c fuel db table ids [] = .error .forbidden ↔ Meets c db ∅ table (rowsOf table ids)) ∧
    (¬Meets c db ∅ table (rowsOf table ids) →
      ∃ db', deleteRows c fuel db table ids [] = .ok db' ∧ Erased c db table ids db') ∧
    (Guarded c db table ids (· ∉ doomed c db table ids) → Meets c db ∅ table (rowsOf table ids)) ∧
    (Meets c db ∅ table (rowsOf table ids) → Guarded c db table ids fun _ => True) := by
  have hpath : Path c table [] table :=
    ⟨List.nodup_nil, fun name h => .inl (h.resolve_right List.not_mem_nil), fun _ h => (by cases h)⟩
  have hstart : After c db ∅ (clearedFrom ∅ fun _ _ => False) db :=
    (After.refl db).congr fun _ _ _ _ => ⟨fun h => h.elim, fun h => h.elim (Set.notMem_empty _) id⟩
  have hspec := deleteRows_spec hc fuel [] table hpath hc.tokens.1 hfuel db ∅ (fun _ _ => False) ids hstart
    settled_empty
  rw [Set.empty_union] at hspec
  have hholder : Meets c db ∅ table (rowsOf table ids) → Guarded c db table ids fun _ => True := by
    intro h
    have ⟨ref, href, hprotect, r, t, ht, hrefers⟩ := guarded_of_meets subset_reach h
    exact ⟨ref, href, hprotect, r, trivial, t, ht, hrefers⟩
  dsimp only at hspec
  cases hresult : deleteRows c fuel db table ids [] with
  | error =>
    rw [hresult] at hspec
    have ⟨he, hmeets⟩ := hspec
    exact ⟨⟨fun _ => hmeets, fun _ => congrArg _ he⟩, fun hnot => absurd hmeets hnot, fun _ => hmeets, hholder⟩
  | ok db' =>
    rw [hresult] at hspec
    have ⟨⟨hafter, hsettled⟩, hnot⟩ := hspec
    have herased : After c db (doomed c db table ids) (fun _ t => t ∈ doomed c db table ids) db' :=
      hafter.congr fun _ _ _ _ => ⟨fun h => h.resolve_right id, .inl⟩
    refine ⟨⟨fun h => (by cases h), fun h => absurd h hnot⟩, fun _ => ⟨db', rfl, herased, ?_⟩, ?_, hholder⟩
    · exact integrity_after hc hdb hsettled herased
    · rintro ⟨ref, href, hprotect, r, hstays, t, ht, hrefers⟩
      exact absurd (hsettled.guarded ref href hprotect r t hrefers ht) hstays

/-! ### Two deletions -/

/-- The integrity of a database, as a query over its rows. -/
def intact (c : Catalog) (db : Database δ) : Bool :=
  c.relations.all fun ref => db.entries.all fun e =>
    e.1.1 != ref.table || (e.2.refs ref.column).all fun v => (db.get? (ref.target, v)).isSome

theorem integrity_of_intact (h : intact c db = true) : Integrity c db := by
  rintro ref href r t ⟨htable, htarget, row, hrow, hrefs⟩
  have hentry := List.all_eq_true.1 (List.all_eq_true.1 h ref href) (r, row) (KeyMap.mem_entries_iff.2 hrow)
  rw [Bool.or_eq_true, bne_iff_ne, hrefs, Option.all_some] at hentry
  have hget := hentry.resolve_left (not_not_intro htable)
  rwa [← htarget] at hget

theorem acyclic_of_rank (rank : String → Nat)
    (h : ∀ ref ∈ c.relations, ref.policy = some .cascade → rank ref.table < rank ref.target) (table : String) :
    ¬Relation.TransGen (fun a b => ∃ ref ∈ c.relations, ref.policy = some .cascade ∧ ref.target = a ∧ ref.table = b)
      table table := by
  have hdown : ∀ a b, Relation.TransGen
      (fun a b => ∃ ref ∈ c.relations, ref.policy = some .cascade ∧ ref.target = a ∧ ref.table = b) a b →
      rank b < rank a := by
    intro a b hab
    induction hab with
    | single hstep =>
      have ⟨ref, href, hpolicy, htarget, htable⟩ := hstep
      exact htarget ▸ htable ▸ h ref href hpolicy
    | tail _ hstep ih =>
      have ⟨ref, href, hpolicy, htarget, htable⟩ := hstep
      have hlast := h ref href hpolicy
      rw [htarget, htable] at hlast
      omega
  exact fun hcycle => Nat.lt_irrefl _ (hdown table table hcycle)

/-- How an operation fails. -/
def failure : Except Error (Database δ) → Option Error
  | .ok _ => none
  | .error e => some e

theorem of_failure {x : Except Error (Database δ)} {e : Error} (h : failure x = some e) : x = .error e := by
  cases x with
  | ok => cases h
  | error => exact congrArg _ (Option.some.inj h)

/-- A row with these references. -/
def sampleRow (refs : List (String × Nat)) : Row Unit := ⟨fun column => refs.lookup column, ()⟩

/-- The foreign keys of messages and of their keys. -/
def messages : Catalog where
  relations :=
    [⟨"public", "messaging_message", "sender_id", "a", "accounts_user"⟩,
      ⟨"public", "messaging_messagekey", "message_id", "a", "messaging_message"⟩,
      ⟨"public", "messaging_messagekey", "recipient_id", "a", "accounts_user"⟩]
  currentSchema := "public"
  keyed _ := true

/-- One message of user 1, with keys for users 1 and 2. -/
def posted : Database Unit :=
  ((((KeyMap.empty.set ("accounts_user", 1) (sampleRow [])).set ("accounts_user", 2) (sampleRow [])).set
    ("messaging_message", 1) (sampleRow [("sender_id", 1)])).set
    ("messaging_messagekey", 1) (sampleRow [("message_id", 1), ("recipient_id", 1)])).set
    ("messaging_messagekey", 2) (sampleRow [("message_id", 1), ("recipient_id", 2)])

theorem covered_messages : Covered messages "accounts_user" where
  policy := by decide +kernel
  schema := by decide
  native := by decide
  keyed _ _ _ := rfl
  names := by
    rintro table (rfl | htable)
    · decide
    · revert table
      decide
  tokens := by decide
  acyclic := acyclic_of_rank (fun table => if table = "messaging_messagekey" then 0 else 1) (by
    intro ref href hpolicy
    simp only [messages, List.mem_cons, List.not_mem_nil, or_false] at href
    rcases href with rfl | rfl | rfl
    · exact absurd hpolicy (by decide +kernel)
    · decide
    · decide)

/-- User 1 goes, with the key that was for them; the message stays, without a sender. -/
theorem deleteRows_exact_posted :
    ∃ db', deleteRows messages (enough messages) posted "accounts_user" [1] [] = .ok db' ∧
      Erased messages posted "accounts_user" [1] db' := by
  have hexact := deleteRows_exact covered_messages (@integrity_of_intact _ messages posted (by decide +kernel)) [1]
    (Nat.le_refl (enough messages))
  refine hexact.2.1 fun hmeets => ?_
  have ⟨ref, href, hprotect, _⟩ := hexact.2.2.2 hmeets
  have hnone : ∀ ref ∈ messages.relations, ref.policy ≠ some .protect := by decide +kernel
  exact hnone ref href hprotect

/-- The types of activities, one of which may be the parent of others. -/
def types : Catalog where
  relations := [⟨"public", "taxonomy_activitytype", "parent_id", "a", "taxonomy_activitytype"⟩]
  currentSchema := "public"
  keyed _ := true

/-- A type and its child. -/
def family : Database Unit :=
  (KeyMap.empty.set ("taxonomy_activitytype", 1) (sampleRow [])).set ("taxonomy_activitytype", 2)
    (sampleRow [("parent_id", 1)])

/-- The two are not deleted together: the child protects its parent, although it would go as well. -/
theorem family_refused :
    Covered types "taxonomy_activitytype" ∧ Integrity types family ∧
      deleteRows types (enough types) family "taxonomy_activitytype" [1, 2] [] = .error .forbidden ∧
      ¬Guarded types family "taxonomy_activitytype" [1, 2] (· ∉ doomed types family "taxonomy_activitytype" [1, 2]) := by
  refine ⟨⟨by decide +kernel, by decide, by decide, fun _ _ _ => rfl, ?_, by decide, ?_⟩,
    integrity_of_intact (by decide +kernel), ?_, ?_⟩
  · rintro table (rfl | htable)
    · decide
    · revert table
      decide
  · refine acyclic_of_rank (fun _ => 0) ?_
    intro ref href hpolicy
    rw [List.mem_singleton.1 href] at hpolicy
    exact absurd hpolicy (by decide +kernel)
  · exact of_failure (by decide +kernel)
  · rintro ⟨ref, href, -, r, hstays, t, -, hkey, -, row, hrow, -⟩
    rw [List.mem_singleton.1 href] at hkey
    have hkeys : ∀ key ∈ family.entries.map Prod.fst, key.2 ∈ [1, 2] := by decide
    exact hstays (subset_reach ⟨hkey, hkeys r (KeyMap.mem_keys_iff.2 ⟨row, hrow⟩)⟩)

end SocialActivities.Accounts.Erasure
