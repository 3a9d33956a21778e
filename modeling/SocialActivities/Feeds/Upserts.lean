import SocialActivities.Feeds.Identity
import SocialActivities.Lib.Upsert

/-!
# `SocialActivities.Feeds.Upserts`: the rows of feeds (Go and Python)

The table holds the events with the source `ical`. A write finds the row with its identity, or without a
`UID` the row with its place, title and start; it updates this row, or adds one. The identity of a row
stays, its other columns are those of the last write. An identity that is too long for its column is
refused.

`Rules.overwrites_iff` says, over all runs of writes, when none of them goes to the row of another
occurrence; `Rules.length_store` that then a repeated one adds no row.
-/

namespace SocialActivities.Feeds

open Lib Lib.Machine

variable {dating : Dating}

/-- An event that a sync writes, with its feed and the place of the feed. -/
structure Write (dating : Dating) where
  feed : Nat
  place : Option Nat
  delivered : Delivered dating

def Write.uid (x : Write dating) : Text := x.delivered.uid

def Write.day (x : Write dating) : Nat := x.delivered.day

/-- What a write without a `UID` looks for. -/
def Write.key (x : Write dating) : Option Nat × Text × Int :=
  (x.place, x.delivered.event.title, x.delivered.event.starts)

/-- A row: its identity, and the write that its other columns come from. -/
structure Row (dating : Dating) where
  externalId : Text
  written : Write dating

/-- The row is the one that the write looks for. -/
def finds (id : Text) (x : Write dating) (row : Row dating) : Bool :=
  if id = [] then decide (row.written.key = x.key) else decide (row.externalId = id)

/-- One write, with the identity that it has. -/
def store (idOf : Write dating → Text) (rows : List (Row dating)) (x : Write dating) : List (Row dating) :=
  if rows.any (finds (idOf x) x) ∨ (idOf x).length ≤ idLength then
    upsert (finds (idOf x) x) (fun row => { row with written := x }) ⟨idOf x, x⟩ rows
  else rows

/-! ### Occurrences -/

/-- The writes are of the same occurrence: of the feed, with the same `UID` and date. Without a `UID`, they
have the same place, title and start. -/
def SameOccurrence (x y : Write dating) : Prop :=
  if x.uid = [] then y.uid = [] ∧ y.key = x.key else x.feed = y.feed ∧ x.uid = y.uid ∧ x.day = y.day

/-- The feed delivers again what it delivered before. -/
structure Repeats (x y : Write dating) : Prop where
  feed : x.feed = y.feed
  uid : x.uid = y.uid
  recurring : x.delivered.recurring = y.delivered.recurring
  day : x.day = y.day
  key : x.uid = [] → x.key = y.key

/-- The write goes to a row of another occurrence. -/
def Overwrites (idOf : Write dating → Text) (rows : List (Row dating)) (x : Write dating) : Prop :=
  ∃ row ∈ rows, finds (idOf x) x row = true ∧ ¬SameOccurrence x row.written

/-- No row is of another occurrence that the write may be confused with: of an event with a `UID` but the same
place, title and start where the write has no `UID`, and else of one with a confusable `UID`. -/
def Distinct (confusable : Write dating → Write dating → Prop) (rows : List (Row dating)) (x : Write dating) :
    Prop :=
  if x.uid = [] then ∀ row ∈ rows, row.written.key = x.key → row.written.uid = []
  else ∀ row ∈ rows, row.written.uid ≠ [] → confusable x row.written → SameOccurrence x row.written

/-- What identities are made of, for some writes: blank without a `UID`, the same for what is repeated, and
else the same where writes are confusable. -/
structure Rules (idOf : Write dating → Text) (confusable : Write dating → Write dating → Prop)
    (writes : List (Write dating)) : Prop where
  blank : ∀ x, idOf x = [] ↔ x.uid = []
  repeated : ∀ x y, Repeats x y → idOf x = idOf y
  confused : ∀ x ∈ writes, ∀ y ∈ writes, x.uid ≠ [] → y.uid ≠ [] → (idOf x = idOf y ↔ confusable x y)

/-- Each row has the identity of its last write. -/
def Kept (idOf : Write dating → Text) (writes : List (Write dating)) (rows : List (Row dating)) : Prop :=
  ∀ row ∈ rows, row.written ∈ writes ∧ row.externalId = idOf row.written ∧ row.externalId.length ≤ idLength

namespace Rules

variable {idOf : Write dating → Text} {confusable : Write dating → Write dating → Prop}
  {writes : List (Write dating)} {rows : List (Row dating)} {x y : Write dating}

theorem not_overwrites_iff (h : Rules idOf confusable writes) (hkept : Kept idOf writes rows)
    (hx : x ∈ writes) : ¬Overwrites idOf rows x ↔ Distinct confusable rows x := by
  have hall : ¬Overwrites idOf rows x ↔
      ∀ row ∈ rows, finds (idOf x) x row = true → SameOccurrence x row.written := by
    unfold Overwrites
    push Not
    rfl
  rw [hall]
  unfold Distinct SameOccurrence finds
  by_cases huid : x.uid = []
  · rw [if_pos huid]
    refine forall₂_congr fun row _ => ?_
    rw [if_pos ((h.blank x).mpr huid), decide_eq_true_eq, if_pos huid]
    exact ⟨fun hsame hkey => (hsame hkey).1, fun hblank hkey => ⟨hblank hkey, hkey⟩⟩
  · rw [if_neg huid]
    refine forall₂_congr fun row hrow => ?_
    have ⟨hwritten, hid, _⟩ := hkept row hrow
    rw [if_neg (mt (h.blank x).mp huid), decide_eq_true_eq, if_neg huid, hid]
    constructor
    · intro hsame hy hconfusable
      exact hsame ((h.confused x hx _ hwritten huid hy).mpr hconfusable).symm
    · intro hdistinct heq
      have hy : row.written.uid ≠ [] := fun hnil =>
        huid ((h.blank x).mp (heq ▸ (h.blank row.written).mpr hnil))
      exact hdistinct hy ((h.confused x hx _ hwritten huid hy).mp heq.symm)

theorem id_of_finds (h : Rules idOf confusable writes) (hkept : Kept idOf writes rows)
    (hdistinct : Distinct confusable rows x) {row : Row dating} (hrow : row ∈ rows)
    (hfinds : finds (idOf x) x row = true) : row.externalId = idOf x := by
  unfold finds at hfinds
  unfold Distinct at hdistinct
  by_cases huid : x.uid = []
  · have hid := (h.blank x).mpr huid
    rw [if_pos hid, decide_eq_true_eq] at hfinds
    rw [if_pos huid] at hdistinct
    rw [(hkept row hrow).2.1, hid]
    exact (h.blank _).mpr (hdistinct row hrow hfinds)
  · rw [if_neg (mt (h.blank x).mp huid), decide_eq_true_eq] at hfinds
    exact hfinds

theorem kept_store (h : Rules idOf confusable writes) (hkept : Kept idOf writes rows) (hx : x ∈ writes)
    (hdistinct : Distinct confusable rows x) : Kept idOf writes (store idOf rows x) := by
  unfold store
  split
  · next hfits =>
    refine forall_upsert hkept (fun row hrow hfinds => ?_) ⟨hx, rfl, ?_⟩
    · have hid := h.id_of_finds hkept hdistinct hrow hfinds
      exact ⟨hx, hid, (hkept row hrow).2.2⟩
    · rcases hfits with hfound | hfits
      · have ⟨row, hrow, hfinds⟩ := List.any_eq_true.mp hfound
        rw [← h.id_of_finds hkept hdistinct hrow hfinds]
        exact (hkept row hrow).2.2
      · exact hfits
  · exact hkept

theorem sameOccurrence_self (x : Write dating) : SameOccurrence x x := by
  unfold SameOccurrence
  split
  · next huid => exact ⟨huid, rfl⟩
  · exact ⟨rfl, rfl, rfl⟩

theorem written_store (idOf : Write dating → Text) (rows : List (Row dating)) (x : Write dating) :
    ∀ row ∈ store idOf rows x, row ∈ rows ∨ row.written = x := by
  unfold store
  split
  · exact forall_upsert (fun _ hrow => Or.inl hrow) (fun _ _ _ => Or.inr rfl) (Or.inr rfl)
  · exact fun _ hrow => Or.inl hrow

theorem distinct_twice (idOf : Write dating → Text) (confusable : Write dating → Write dating → Prop)
    {x : Write dating} (huid : x.uid ≠ []) :
    ∀ p ∈ steps (store idOf) [] [x, x], Distinct confusable p.1 p.2 := by
  have hrows : ∀ rows : List (Row dating), (∀ row ∈ rows, row.written = x) → Distinct confusable rows x := by
    intro rows hrows
    unfold Distinct
    rw [if_neg huid]
    exact fun row hrow _ _ => hrows row hrow ▸ sameOccurrence_self x
  intro p hp
  have hsteps : steps (store idOf) [] [x, x] = [([], x), (store idOf [] x, x)] := rfl
  rw [hsteps] at hp
  rcases List.mem_cons.mp hp with rfl | hp
  · exact hrows [] fun _ hrow => absurd hrow List.not_mem_nil
  · rw [List.mem_singleton.mp hp]
    exact hrows _ fun row hrow => (written_store idOf [] x row hrow).resolve_left List.not_mem_nil

/-! ### Repeated writes -/

/-- The row that a repeated write will find. -/
def Stored (idOf : Write dating → Text) (y : Write dating) (rows : List (Row dating)) : Prop :=
  if y.uid = [] then ∃ row ∈ rows, row.written.uid = [] ∧ row.written.key = y.key
  else (idOf y).length ≤ idLength → ∃ row ∈ rows, row.externalId = idOf y

theorem stored_self (h : Rules idOf confusable writes) (hkept : Kept idOf writes rows)
    (hdistinct : Distinct confusable rows x) : Stored idOf x (store idOf rows x) := by
  unfold Stored store
  by_cases huid : x.uid = []
  · rw [if_pos huid, if_pos (Or.inr (by rw [(h.blank x).mpr huid]; exact Nat.zero_le _))]
    exact exists_upsert_written (fun _ _ _ => ⟨huid, rfl⟩) ⟨huid, rfl⟩
  · rw [if_neg huid]
    intro hfits
    rw [if_pos (Or.inr hfits)]
    refine exists_upsert_written (fun row hrow hfinds => ?_) rfl
    have hid := h.id_of_finds hkept hdistinct hrow hfinds
    exact hid

theorem stored_store (h : Rules idOf confusable writes) (hkept : Kept idOf writes rows)
    (hdistinct : Distinct confusable rows x) (hy : Stored idOf y rows) : Stored idOf y (store idOf rows x) := by
  by_cases hfits : rows.any (finds (idOf x) x) ∨ (idOf x).length ≤ idLength
  · have hstore : store idOf rows x =
        upsert (finds (idOf x) x) (fun row => { row with written := x }) ⟨idOf x, x⟩ rows := if_pos hfits
    rw [hstore]
    unfold Stored at hy ⊢
    by_cases huid : y.uid = []
    · rw [if_pos huid] at hy ⊢
      refine exists_upsert hy fun row hrow hfinds ⟨hblank, hkey⟩ => ?_
      -- The write that updates a row without a `UID` has none, and the same place, title and start.
      have hid := h.id_of_finds hkept hdistinct hrow hfinds
      rw [(hkept row hrow).2.1, (h.blank _).mpr hblank] at hid
      unfold finds at hfinds
      rw [if_pos hid.symm, decide_eq_true_eq] at hfinds
      exact ⟨(h.blank x).mp hid.symm, hfinds ▸ hkey⟩
    · rw [if_neg huid] at hy ⊢
      exact fun hfits => exists_upsert (hy hfits) fun row _ _ hid => hid
  · have hstore : store idOf rows x = rows := if_neg hfits
    rw [hstore]
    exact hy

theorem length_store (h : Rules idOf confusable writes) (hy : Stored idOf y rows) (hrepeats : Repeats x y) :
    (store idOf rows x).length = rows.length := by
  have hid := h.repeated x y hrepeats
  unfold store
  split
  · next hfits =>
    refine length_upsert ?_
    rcases hfits with hfound | hfits
    · exact List.any_eq_true.mp hfound
    · unfold Stored at hy
      unfold finds
      by_cases huid : y.uid = []
      · rw [if_pos huid] at hy
        have ⟨row, hrow, _, hkey⟩ := hy
        have hxuid : x.uid = [] := hrepeats.uid.trans huid
        refine ⟨row, hrow, ?_⟩
        rw [if_pos ((h.blank x).mpr hxuid), hkey, hrepeats.key hxuid]
        exact decide_eq_true rfl
      · rw [if_neg huid] at hy
        rw [hid] at hfits
        have ⟨row, hrow, hrowId⟩ := hy hfits
        refine ⟨row, hrow, ?_⟩
        rw [if_neg (mt (h.blank x).mp fun hnil => huid (hrepeats.uid.symm.trans hnil)), hid]
        exact decide_eq_true hrowId
  · rfl

/-! ### Runs -/

theorem overwrites_iff (h : Rules idOf confusable writes) :
    (∀ p ∈ steps (store idOf) [] writes, ¬Overwrites idOf p.1 p.2) ↔
      ∀ p ∈ steps (store idOf) [] writes, Distinct confusable p.1 p.2 := by
  have hmem : ∀ p ∈ steps (store idOf) [] writes, p.2 ∈ writes := by
    rintro ⟨rows, x⟩ hp
    have ⟨before, after, hwrites, _⟩ := (mem_steps _).mp hp
    rw [hwrites]
    exact List.mem_append_right _ List.mem_cons_self
  have hrun := @forall_steps_iff_guard _ _ (store idOf) (Kept idOf writes)
    (fun rows x => x ∈ writes ∧ ¬Overwrites idOf rows x)
    (fun rows x => x ∈ writes ∧ Distinct confusable rows x)
    (fun _ _ hkept => and_congr_right fun hx => h.not_overwrites_iff hkept hx)
    (fun _ _ hkept hguard => h.kept_store hkept hguard.1 hguard.2) [] (fun _ hrow => absurd hrow List.not_mem_nil)
    writes
  constructor
  · exact fun hgood p hp => (hrun.mp (fun q hq => ⟨hmem q hq, hgood q hq⟩) p hp).2
  · exact fun hguard p hp => (hrun.mpr (fun q hq => ⟨hmem q hq, hguard q hq⟩) p hp).2

theorem stored_run (h : Rules idOf confusable writes) {before : List (Write dating)}
    (hsub : ∀ x ∈ before, x ∈ writes)
    (hdistinct : ∀ p ∈ steps (store idOf) [] before, Distinct confusable p.1 p.2) :
    Kept idOf writes (run (store idOf) [] before) ∧
      ∀ y ∈ before, Stored idOf y (run (store idOf) [] before) := by
  induction before using List.reverseRecOn with
  | nil => exact ⟨fun _ hrow => absurd hrow List.not_mem_nil, fun _ hy => absurd hy List.not_mem_nil⟩
  | append_singleton before x ih =>
    rw [steps_append] at hdistinct
    have ⟨hkept, hstored⟩ := ih (fun y hy => hsub y (List.mem_append_left _ hy))
      fun p hp => hdistinct p (List.mem_append_left _ hp)
    have hx := hsub x (List.mem_append_right _ (List.mem_singleton_self x))
    have hlast := hdistinct (run (store idOf) [] before, x)
      (List.mem_append_right _ (List.mem_singleton_self _))
    rw [run_concat]
    refine ⟨h.kept_store hkept hx hlast, fun y hy => ?_⟩
    rcases List.mem_append.mp hy with hy | hy
    · exact h.stored_store hkept hlast (hstored y hy)
    · rw [List.mem_singleton.mp hy]
      exact h.stored_self hkept hlast

/-- In a run of distinct writes, a repeated one adds no row. -/
theorem length_repeated (h : Rules idOf confusable writes)
    (hdistinct : ∀ p ∈ steps (store idOf) [] writes, Distinct confusable p.1 p.2)
    {before after : List (Write dating)} (hwrites : writes = before ++ x :: after)
    (hrepeats : ∃ y ∈ before, Repeats x y) :
    (store idOf (run (store idOf) [] before) x).length = (run (store idOf) [] before).length := by
  have ⟨y, hy, hxy⟩ := hrepeats
  have hsub : ∀ z ∈ before, z ∈ writes := fun z hz => hwrites ▸ List.mem_append_left _ hz
  have hbefore : ∀ p ∈ steps (store idOf) [] before, Distinct confusable p.1 p.2 := by
    rw [hwrites, steps_append] at hdistinct
    exact fun p hp => hdistinct p (List.mem_append_left _ hp)
  exact h.length_store ((h.stored_run hsub hbefore).2 y hy) hxy

end Rules

end SocialActivities.Feeds
