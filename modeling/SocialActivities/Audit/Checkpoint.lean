import SocialActivities.Audit.Edits
import SocialActivities.Audit.Log

/-!
# `SocialActivities.Audit.Checkpoint`: verification from a checkpoint

A table that verified from the start has a checkpoint after each of its rows. As long as the rows up
to the checkpoint stay, verification from it and from the start end alike, whatever the later rows
are (`walk_after`). And neither succeeds after tampering (`walk_tampered`): the first row that
follows where the table was changed kept its digest, but rows before it are gone, or its hashed
fields were edited.

Both are shown of any check, and then of the checks of the two programs (`checkpoint_verification`).
-/

namespace SocialActivities.Audit

open Lib Lib.HashChain

/-- The rows of the table, which have distinct ids from 1 on, in the order of the ids. -/
structure AuditTable where
  rows : List AuditRow
  sorted : rows.Pairwise fun r s => r.id < s.id
  positive : ∀ r ∈ rows, 0 < r.id

namespace AuditTable

variable {T T₀ : AuditTable} {cp : Checkpoint}

def upTo (T : AuditTable) (id : Nat) : List AuditRow := T.rows.filter fun r => r.id ≤ id

def after (T : AuditTable) (id : Nat) : List AuditRow := T.rows.filter fun r => id < r.id

/-- A checkpoint of a table: the one before its first row, or the one after a row. -/
def HasCheckpoint (T : AuditTable) (cp : Checkpoint) : Prop :=
  cp = .genesis ∨ ∃ r ∈ T.rows, cp = r.checkpoint

theorem byId_rows (T : AuditTable) : byId T.rows = T.rows := byId_eq T.sorted

theorem byId_after (T : AuditTable) (id : Nat) : byId (T.after id) = T.after id :=
  byId_eq (T.sorted.filter _)

theorem upTo_append_after (T : AuditTable) (id : Nat) : T.upTo id ++ T.after id = T.rows := by
  have hsplit : ∀ rows : List AuditRow, rows.Pairwise (fun r s => r.id < s.id) →
      rows.filter (fun r => r.id ≤ id) ++ rows.filter (fun r => id < r.id) = rows := by
    intro rows hrows
    induction rows with
    | nil => rfl
    | cons r rows ih =>
      obtain ⟨hlt, hrest⟩ := List.pairwise_cons.mp hrows
      by_cases hr : r.id ≤ id
      · rw [List.filter_cons_of_pos (by simpa using hr),
          List.filter_cons_of_neg (by simpa using hr), List.cons_append, ih hrest]
      · -- All rows from here on are after the id.
        have hnone : rows.filter (fun r => r.id ≤ id) = [] :=
          List.filter_eq_nil_iff.mpr fun s hs => by
            have hs := hlt s hs
            simpa using (by omega : id < s.id)
        have hall : rows.filter (fun r => id < r.id) = rows :=
          List.filter_eq_self.mpr fun s hs => by
            have hs := hlt s hs
            simpa using (by omega : id < s.id)
        rw [List.filter_cons_of_neg (by simpa using hr),
          List.filter_cons_of_pos (by simpa using hr), hnone, hall, List.nil_append]
  exact hsplit T.rows T.sorted

theorem endOf_upTo (h : T.HasCheckpoint cp) : endOf (T.upTo cp.lastId) = cp := by
  rcases h with rfl | ⟨r, hr, rfl⟩
  · have hnone : T.upTo Checkpoint.genesis.lastId = [] :=
      List.filter_eq_nil_iff.mpr fun s hs => by
        have hs := T.positive s hs
        simpa [Checkpoint.genesis] using (by omega : s.id ≠ 0)
    rw [hnone]
    rfl
  · obtain ⟨as, bs, hrows⟩ := List.append_of_mem hr
    have hsorted := T.sorted
    rw [hrows, List.pairwise_append, List.pairwise_cons] at hsorted
    obtain ⟨-, ⟨hbs, -⟩, has⟩ := hsorted
    have hupTo : T.upTo r.checkpoint.lastId = as ++ [r] := by
      have hbefore : as.filter (fun s => s.id ≤ r.id) = as :=
        List.filter_eq_self.mpr fun s hs => by
          have hs := has s hs r List.mem_cons_self
          simpa using (by omega : s.id ≤ r.id)
      have hbehind : bs.filter (fun s => s.id ≤ r.id) = [] :=
        List.filter_eq_nil_iff.mpr fun s hs => by
          have hs := hbs s hs
          simpa using (by omega : r.id < s.id)
      show T.rows.filter (fun s => s.id ≤ r.id) = _
      rw [hrows, List.filter_append, List.filter_cons_of_pos (by simp), hbefore, hbehind]
    rw [hupTo, endOf, List.getLast?_concat]
    rfl

theorem any_checkpoint (h : T₀.HasCheckpoint cp) (hsame : T.upTo cp.lastId = T₀.upTo cp.lastId)
    (hpos : 0 < cp.lastId) :
    T.rows.any (fun r => decide (r.id = cp.lastId ∧ r.hash = cp.lastHash)) = true := by
  rcases h with rfl | ⟨r, hr, rfl⟩
  · exact absurd hpos (by decide)
  · have hmem : r ∈ T.upTo r.checkpoint.lastId := by
      rw [hsame]
      exact List.mem_filter.mpr ⟨hr, by simp [AuditRow.checkpoint]⟩
    exact List.any_eq_true.mpr ⟨r, (List.mem_filter.mp hmem).1, decide_eq_true ⟨rfl, rfl⟩⟩

theorem lastHash_of_lastId (h : T.HasCheckpoint cp) (hid : cp.lastId = 0) : cp.lastHash = [] := by
  rcases h with rfl | ⟨r, hr, rfl⟩
  · rfl
  · exact absurd hid (Nat.ne_of_gt (T.positive r hr))

end AuditTable

/-! ### Any check -/

/-- `row` is the first row of `T` that follows a change in `T'`: rows before it are gone, or its
hashed fields were edited. It kept its digest, and what comes after it may be anything. -/
def Tampered (same : Document NumberText → Document NumberText → Prop) (T T' : AuditTable)
    (row : AuditRow) : Prop :=
  ∃ before gone behind row' behind', T.rows = before ++ (gone ++ row :: behind) ∧
    T'.rows = before ++ row' :: behind' ∧ row'.hash = row.hash ∧
    (gone ≠ [] ∨ row.Edited same row')

/-- SHA-256 does not collide on what the verifications of two tables hash. -/
def NoCollision (texts : AuditRow → Set (List Char)) (T T' : AuditTable) : Prop :=
  Set.InjOn sha256 (hashed sha256 AuditRow.prevHash texts { r | r ∈ T.rows ∨ r ∈ T'.rows })

section Check

variable {check : Checkpoint → AuditRow → Except Failure (Option Checkpoint)}
  {T T₀ T' : AuditTable} {cp m : Checkpoint}

theorem walk_after
    (hstate : ∀ last next row, check last row = .ok (some next) → next = row.checkpoint)
    (hverified : walk check .genesis T₀.rows = .ok (true, m)) (hcp : T₀.HasCheckpoint cp)
    (hsame : T.upTo cp.lastId = T₀.upTo cp.lastId) :
    walk check cp (T.after cp.lastId) = walk check .genesis T.rows := by
  rw [← T₀.upTo_append_after cp.lastId] at hverified
  obtain ⟨c, hc⟩ := walk_of_append hverified
  have hend : c = cp := (walk_end hstate hc).trans (AuditTable.endOf_upTo hcp)
  rw [hend] at hc
  rw [← T.upTo_append_after cp.lastId, hsame, walk_append hc]

/-- A tampered table does not verify. -/
theorem walk_tampered {texts : AuditRow → Set (List Char)}
    {same : Document NumberText → Document NumberText → Prop}
    (hlinked : Linked sha256 Checkpoint.lastHash AuditRow.prevHash AuditRow.hash texts check)
    (htexts : ∀ {row row' t}, t ∈ texts row → t ∈ texts row' → row.actorRef = row'.actorRef ∧
      row.event = row'.event ∧ row.targetRef = row'.targetRef ∧ row.createdAt = row'.createdAt ∧
      same row.data row'.data)
    (hverified : walk check .genesis T.rows = .ok (true, m)) {row : AuditRow}
    (htampered : Tampered same T T' row) (hinj : NoCollision texts T T') (m' : Checkpoint) :
    walk check .genesis T'.rows ≠ .ok (true, m') := by
  obtain ⟨before, gone, behind, row', behind', hT, hT', hhash, hchange⟩ := htampered
  -- Up to the edited row the walk is the old one, and passes.
  rw [hT] at hverified
  obtain ⟨l, hl⟩ := walk_of_append hverified
  rw [walk_append hl] at hverified
  obtain ⟨c, hc⟩ := walk_of_append hverified
  rw [walk_append hc] at hverified
  obtain ⟨o, hpass, -⟩ := pass_of_walk hverified
  rw [hT']
  refine walk_ne_true hl (check_tampered hlinked length_sha256 hinj rfl (by decide) ?_ ?_ ?_ ?_
    hl hc hpass hhash ?_) behind' m'
  · exact fun r hr => Or.inl (hT ▸ List.mem_append_left _ hr)
  · exact fun r hr => Or.inl (hT ▸ List.mem_append_right _ (List.mem_append_left _ hr))
  · exact Or.inl (hT ▸ List.mem_append_right _ (List.mem_append_right _ List.mem_cons_self))
  · exact Or.inr (hT' ▸ List.mem_append_right _ List.mem_cons_self)
  · -- An edit of a field that the texts show leaves no text in common.
    rcases hchange with hgone | hedited
    · exact Or.inl hgone
    · by_cases hprev : row'.prevHash ≠ row.prevHash
      · exact Or.inr (Or.inl hprev)
      · refine Or.inr (Or.inr fun t ht ht' => ?_)
        obtain ⟨hactor, hevent, htarget, hcreated, hdata⟩ := htexts ht ht'
        rcases hedited with h | h | h | h | h | h
        · exact h hactor.symm
        · exact h hevent.symm
        · exact h htarget.symm
        · exact h hcreated.symm
        · exact hprev h
        · exact h hdata

end Check

/-! ### The two programs -/

theorem Go.state_of_checkRow (last next : Checkpoint) (row : AuditRow)
    (h : Go.checkRow last row = .ok (some next)) : next = row.checkpoint := by
  unfold Go.checkRow at h
  split at h
  · cases h
  · split at h
    · cases h
    · exact (Option.some.inj (Except.ok.inj h)).symm

theorem Py.state_of_checkRow (last next : Checkpoint) (row : AuditRow)
    (h : Py.checkRow last row = .ok (some next)) : next = row.checkpoint := by
  unfold Py.checkRow at h
  split at h
  · cases h
  · split at h
    · cases h
    · exact (Option.some.inj (Except.ok.inj h)).symm

theorem Go.verifyAuditChain_none (T : AuditTable) :
    Go.verifyAuditChain T.rows none = walk Go.checkRow .genesis T.rows := by
  have hall : T.rows.filter (fun r => (0 : Nat) < r.id) = T.rows :=
    List.filter_eq_self.mpr fun r hr => decide_eq_true (T.positive r hr)
  show walk Go.checkRow .genesis (byId (T.rows.filter fun r => (0 : Nat) < r.id)) = _
  rw [hall, T.byId_rows]

theorem Go.verifyAuditChain_some {T T₀ : AuditTable} {cp : Checkpoint} (hcp : T₀.HasCheckpoint cp)
    (hsame : T.upTo cp.lastId = T₀.upTo cp.lastId) :
    Go.verifyAuditChain T.rows (some cp) = walk Go.checkRow cp (T.after cp.lastId) := by
  unfold Go.verifyAuditChain
  dsimp only [Option.getD_some]
  rw [if_neg fun h => h.2 (AuditTable.lastHash_of_lastId hcp h.1),
    if_neg fun h => h.2 (AuditTable.any_checkpoint hcp hsame h.1)]
  exact congrArg (walk Go.checkRow cp) (T.byId_after cp.lastId)

theorem Py.verifyAuditChain_none (T : AuditTable) :
    Py.verifyAuditChain T.rows none = (walk Py.checkRow .genesis T.rows).map Prod.fst := by
  show (walk Py.checkRow ⟨0, [], none⟩ (byId T.rows)).map Prod.fst = _
  rw [T.byId_rows]
  rfl

theorem Py.verifyAuditChain_some {T T₀ : AuditTable} {cp : Checkpoint} (hcp : T₀.HasCheckpoint cp)
    (hsame : T.upTo cp.lastId = T₀.upTo cp.lastId) : Py.verifyAuditChain T.rows (some cp)
      = (walk Py.checkRow cp (T.after cp.lastId)).map Prod.fst := by
  unfold Py.verifyAuditChain
  dsimp only
  rw [if_neg fun h => h.2 (AuditTable.any_checkpoint hcp hsame h.1),
    if_neg fun h => h.2 (AuditTable.lastHash_of_lastId hcp h.1)]
  show (walk Py.checkRow _ (byId (T.after cp.lastId))).map Prod.fst = _
  rw [T.byId_after]
  have hcheck : ∀ r, Py.checkRow ⟨0, cp.lastHash, none⟩ r = Py.checkRow cp r := fun r => rfl
  exact map_fst_walk hcheck _

/-- Verification from a checkpoint of a verified table ends as verification from the start, in Go
with the same last row that passed, as long as the rows up to the checkpoint stay. Where SHA-256
does not collide on what is hashed, neither succeeds after tampering. Of edited data this holds
unless the verification reads it as the same: Python as the same integers and floats, Go also in
the readings that take a long integer for a float. -/
theorem checkpoint_verification :
    (∀ (T₀ T : AuditTable) (cp m : Checkpoint), Go.verifyAuditChain T₀.rows none = .ok (true, m) →
      T₀.HasCheckpoint cp → T.upTo cp.lastId = T₀.upTo cp.lastId →
      Go.verifyAuditChain T.rows (some cp) = Go.verifyAuditChain T.rows none) ∧
    (∀ (T₀ T : AuditTable) (cp : Checkpoint), Py.verifyAuditChain T₀.rows none = .ok true →
      T₀.HasCheckpoint cp → T.upTo cp.lastId = T₀.upTo cp.lastId →
      Py.verifyAuditChain T.rows (some cp) = Py.verifyAuditChain T.rows none) ∧
    (∀ (T T' : AuditTable) (cp m : Checkpoint) (row : AuditRow),
      Go.verifyAuditChain T.rows none = .ok (true, m) → T.HasCheckpoint cp →
      T'.upTo cp.lastId = T.upTo cp.lastId → Tampered Go.SameData T T' row →
      NoCollision Go.rowTexts T T' → ∀ m', Go.verifyAuditChain T'.rows none ≠ .ok (true, m') ∧
        Go.verifyAuditChain T'.rows (some cp) ≠ .ok (true, m')) ∧
    (∀ (T T' : AuditTable) (cp : Checkpoint) (row : AuditRow),
      Py.verifyAuditChain T.rows none = .ok true → T.HasCheckpoint cp →
      T'.upTo cp.lastId = T.upTo cp.lastId → Tampered Py.SameData T T' row →
      NoCollision Py.rowTexts T T' → Py.verifyAuditChain T'.rows none ≠ .ok true ∧
        Py.verifyAuditChain T'.rows (some cp) ≠ .ok true) := by
  -- Python's verdict drops the checkpoint that its walk ends with.
  have hpy : ∀ {x : Except Failure (Bool × Checkpoint)}, x.map Prod.fst = .ok true →
      ∃ m, x = .ok (true, m) := by
    rintro (_ | ⟨b, m⟩) h
    · cases h
    · exact ⟨m, by rw [show b = true from Except.ok.inj h]⟩
  -- A checkpoint that the old rows pass through stands for the rows up to it.
  have hgoagree : ∀ (T₀ T : AuditTable) (cp m : Checkpoint),
      Go.verifyAuditChain T₀.rows none = .ok (true, m) → T₀.HasCheckpoint cp →
      T.upTo cp.lastId = T₀.upTo cp.lastId →
      Go.verifyAuditChain T.rows (some cp) = Go.verifyAuditChain T.rows none := by
    intro T₀ T cp m hverified hcp hsame
    rw [Go.verifyAuditChain_none] at hverified
    rw [Go.verifyAuditChain_some hcp hsame, Go.verifyAuditChain_none,
      walk_after Go.state_of_checkRow hverified hcp hsame]
  have hpyagree : ∀ (T₀ T : AuditTable) (cp : Checkpoint),
      Py.verifyAuditChain T₀.rows none = .ok true → T₀.HasCheckpoint cp →
      T.upTo cp.lastId = T₀.upTo cp.lastId →
      Py.verifyAuditChain T.rows (some cp) = Py.verifyAuditChain T.rows none := by
    intro T₀ T cp hverified hcp hsame
    rw [Py.verifyAuditChain_none] at hverified
    obtain ⟨m, hm⟩ := hpy hverified
    rw [Py.verifyAuditChain_some hcp hsame, Py.verifyAuditChain_none,
      walk_after Py.state_of_checkRow hm hcp hsame]
  refine ⟨hgoagree, hpyagree, ?_, ?_⟩
  · intro T T' cp m row hverified hcp hsame htampered hinj m'
    rw [hgoagree T T' cp m hverified hcp hsame, Go.verifyAuditChain_none]
    rw [Go.verifyAuditChain_none] at hverified
    have hfails := walk_tampered Go.linked_checkRow Go.eq_of_rowTexts hverified htampered hinj m'
    exact ⟨hfails, hfails⟩
  · intro T T' cp row hverified hcp hsame htampered hinj
    rw [hpyagree T T' cp hverified hcp hsame, Py.verifyAuditChain_none]
    rw [Py.verifyAuditChain_none] at hverified
    obtain ⟨m, hm⟩ := hpy hverified
    have hfails : (walk Py.checkRow .genesis T'.rows).map Prod.fst ≠ .ok true := by
      intro h
      obtain ⟨m', hm'⟩ := hpy h
      exact walk_tampered Py.linked_checkRow Py.eq_of_rowTexts hm htampered hinj m' hm'
    exact ⟨hfails, hfails⟩

/-- Edited data that verifies. In Go a float becomes a long integer, which a legacy reading takes
for that float; in Python one half gets another scale. -/
theorem edited_data_verifies :
    let at12 : Timestamp := ⟨2026, 1, 1, 12, 0, 0, 0⟩
    let large : Document Go.GoNumber := ⟨.number (.float ⟨false, tenToSixteen⟩), trivial⟩
    let half : Document Py.PyNumber :=
      ⟨.number (.float ⟨false, 4503599627370496, 1021, by decide, Or.inr (by decide), by decide⟩),
        trivial⟩
    let integer : NumberText := ⟨false, 10000000000000000, none, none, by decide⟩
    let scaled : NumberText := ⟨false, 0, some [5, 0], none, by decide⟩
    ((Go.recordRow 1 [] ⟨1, ['e'], [], some large, at12⟩).map fun row =>
        let edited := { row with data := ⟨.number integer, trivial⟩ }
        (decide (edited.data.json.numbers = row.data.json.numbers),
          (Go.verifyAuditChain [row] none).map Prod.fst,
          (Go.verifyAuditChain [edited] none).map Prod.fst))
      = some (false, .ok true, .ok true) ∧
    ((Py.recordRow 1 [] ⟨some 1, ['e'], [], half, at12⟩).map fun row =>
        let edited := { row with data := ⟨.number scaled, trivial⟩ }
        (decide (edited.data.json.numbers = row.data.json.numbers),
          Py.verifyAuditChain [row] none, Py.verifyAuditChain [edited] none))
      = some (false, .ok true, .ok true) := by
  decide +kernel

end SocialActivities.Audit
