import SocialActivities.Audit.PyCanonical
import SocialActivities.Lib.HashChain
import SocialActivities.Lib.Sha256

/-!
# `SocialActivities.Audit.PyChain`: writing and verifying the audit chain in Django

`recordRow` is the row that `record_audit` creates after a tail, `verifyAuditRows` the streaming
verification, and `verifyAuditChain` and `verifiedAuditCheckpoint` its two callers
(`safety/services.py`).

A row that was recorded passes after its tail when its data survives the column
(`checkRow_recordRow`). And a row that passes is linked to the row before it (`linked_checkRow`).
-/

namespace SocialActivities.Audit.Py

open Lib Lib.HashChain

/-- The arguments of `record_audit`, the target as its reference, and the clock. -/
structure Event where
  actor : Option Nat
  event : List Char
  target : List Char
  data : Document PyNumber
  created : Timestamp

/-- The text that `_canonical` hashes. -/
def canonicalText (actor : Option Nat) (event target : List Char) (data : Document PyNumber)
    (created : List Char) : Option (List Char) :=
  dumps (payload .int actor event target data created).json

/-- The row of an event after a tail, or none when the encoding or the column refuses the data. -/
def recordRow (id : Nat) (prevHash : List Char) (e : Event) : Option AuditRow := do
  let text ← canonicalText e.actor e.event e.target e.data e.created.isoformat
  let data ← stored e.data
  let actorRef ← integerColumn e.actor
  return {
    id := id
    actorRef := actorRef
    event := e.event
    targetRef := e.target
    data := data
    createdAt := e.created
    prevHash := prevHash
    hash := chained sha256 prevHash text }

/-- The text that the verification hashes for a row. Reading a long integer may raise. -/
def rowText (row : AuditRow) : Option (List Char) := do
  let data ← decoded row.data
  canonicalText (row.actorRef.map Fin.val) row.event row.targetRef data row.createdAt.isoformat

/-- One row of `_verify_audit_rows`. -/
def checkRow (last : Checkpoint) (row : AuditRow) : Except Failure (Option Checkpoint) :=
  match rowText row with
  | none => .error .encoding
  | some text =>
    if row.prevHash ≠ last.lastHash ∨ row.hash ≠ chained sha256 last.lastHash text then .ok none
    else .ok (some row.checkpoint)

def verifyAuditRows (rows : List AuditRow) (prevHash : List Char) :
    Except Failure (Bool × Checkpoint) :=
  walk checkRow ⟨0, prevHash, none⟩ rows

/-- `verify_audit_chain` over the rows of the table. -/
def verifyAuditChain (rows : List AuditRow) (checkpoint : Option Checkpoint) :
    Except Failure Bool :=
  match checkpoint with
  | none => (verifyAuditRows (byId rows) []).map Prod.fst
  | some last =>
    if 0 < last.lastId ∧
        ¬rows.any (fun r => decide (r.id = last.lastId ∧ r.hash = last.lastHash)) then .ok false
    else if last.lastId = 0 ∧ last.lastHash ≠ [] then .ok false
    else (verifyAuditRows (byId (rows.filter fun r => last.lastId < r.id)) last.lastHash).map
      Prod.fst

def verifiedAuditCheckpoint (rows : List AuditRow) : Except Failure (Option Checkpoint) :=
  (verifyAuditRows (byId rows) []).map fun result => if result.1 then some result.2 else none

theorem checkRow_of_hash {last : Checkpoint} {row : AuditRow} {text : List Char}
    (htext : rowText row = some text) (hprev : row.prevHash = last.lastHash)
    (hhash : row.hash = chained sha256 last.lastHash text) :
    checkRow last row = .ok (some row.checkpoint) := by
  rw [checkRow, htext]
  refine if_neg ?_
  rintro (hne | hne)
  · exact hne hprev
  · exact hne hhash

theorem checkRow_recordRow {id : Nat} {e : Event} {last : Checkpoint} {row : AuditRow}
    (hdata : ∀ n ∈ e.data.json.numbers, n.survives = true)
    (h : recordRow id last.lastHash e = some row) :
    checkRow last row = .ok (some row.checkpoint) := by
  obtain ⟨text, htext, hrest⟩ := Option.bind_eq_some_iff.mp h
  obtain ⟨data, hstored, hrest⟩ := Option.bind_eq_some_iff.mp hrest
  obtain ⟨actorRef, hactor, hrow⟩ := Option.bind_eq_some_iff.mp hrest
  obtain rfl := Option.some.inj hrow
  obtain ⟨d, hd, hrendered⟩ := rendered_stored hdata hstored
  refine checkRow_of_hash ?_ rfl rfl
  rw [rowText, hd, ← htext]
  show canonicalText (actorRef.map Fin.val) e.event e.target d e.created.isoformat = _
  rw [map_val_integerColumn hactor, canonicalText, canonicalText, dumps_eq, dumps_eq]
  exact congrArg _ (rendered_payload (fun _ _ => rfl) hrendered ..)

/-- The one text whose digest a row may carry. -/
def rowTexts (row : AuditRow) : Set (List Char) := { t | rowText row = some t }

theorem linked_checkRow : Linked sha256 Checkpoint.lastHash AuditRow.prevHash AuditRow.hash
    rowTexts checkRow := by
  have hcases : ∀ {last next : Checkpoint} {row : AuditRow}, checkRow last row = .ok (some next) →
      row.prevHash = last.lastHash ∧ next = row.checkpoint ∧
        ∃ t ∈ rowTexts row, row.hash = chained sha256 last.lastHash t := by
    intro last next row h
    unfold checkRow at h
    split at h
    · cases h
    · next text htext =>
      split at h
      · cases h
      · next hbroken =>
        obtain ⟨hprev, hhash⟩ := not_or.mp hbroken
        exact ⟨not_not.mp hprev, (Option.some.inj (Except.ok.inj h)).symm, text, htext,
          not_not.mp hhash⟩
  exact {
    prev_eq := fun h => (hcases h).1
    last_eq := fun h => by rw [(hcases h).2.1]; rfl
    text := fun h => (hcases h).2.2 }

end SocialActivities.Audit.Py
