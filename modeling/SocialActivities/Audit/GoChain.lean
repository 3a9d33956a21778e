import SocialActivities.Audit.GoCanonical
import SocialActivities.Lib.HashChain
import SocialActivities.Lib.Sha256

/-!
# `SocialActivities.Audit.GoChain`: writing and verifying the audit chain in the Go server

`recordRow` is the row that `RecordAudit` inserts after a tail (`platform/audit.go`), and
`verifyAuditChain` the verification, from the start or from a checkpoint (`safety/audit.go`). A row
may also carry the digest of one of its legacy readings, in which integers of 17 digits or more are
taken for floats (`safety/legacy_numeric.go`).

A row that was recorded passes after its tail (`checkRow_recordRow`), unless its data held a
negative zero. And a row that passes is linked to the row before it (`linked_checkRow`).
-/

namespace SocialActivities.Audit.Go

open Lib Lib.HashChain

/-! ### Recording -/

/-- The arguments of `RecordAudit`, with the clock truncated to microseconds. -/
structure Event where
  actor : Nat
  event : List Char
  target : List Char
  data : Option (Document GoNumber)
  created : Timestamp

/-- The two layouts of a timestamp, with and without microseconds. -/
def pythonTimestamp (value : Timestamp) : List Char :=
  if value.micro.val = 0 then value.seconds ++ Timestamp.offset
  else value.seconds ++ '.' :: (pad 6 value.micro ++ Timestamp.offset)

/-- The actor id, or null for no actor. -/
def Event.actorId (e : Event) : Option Nat := if 0 < e.actor then some e.actor else none

/-- The data, or an empty object for nil. -/
def Event.dataOrEmpty (e : Event) : Document GoNumber :=
  e.data.getD ⟨.object [], List.nodup_nil, trivial⟩

/-- The row of an event after a tail, or none when the encoding or the column refuses the data. -/
def recordRow (id : Nat) (previous : List Char) (e : Event) : Option AuditRow := do
  let canonical ← canonicalJson (payload .int e.actorId e.event e.target e.dataOrEmpty
    (pythonTimestamp e.created)).json
  let data ← stored e.dataOrEmpty
  let actorRef ← integerColumn e.actorId
  return {
    id := id
    actorRef := actorRef
    event := e.event
    targetRef := e.target
    data := data
    createdAt := e.created
    prevHash := previous
    hash := chained sha256 previous canonical }

theorem pythonTimestamp_eq (t : Timestamp) : pythonTimestamp t = t.isoformat := by
  unfold pythonTimestamp Timestamp.isoformat Timestamp.fraction
  by_cases h : t.micro.val = 0
  · rw [if_pos h, if_pos h, List.nil_append]
  · rw [if_neg h, if_neg h, List.cons_append]

/-! ### Legacy readings -/

/-- The readings of a number: as it is, and as a float when it is a long integer text. -/
def numberVariants : GoNumber → List GoNumber
  | .number t =>
    if t.isDecimal = false ∧ 17 ≤ Digits.width t.whole then
      match t.parseFloat with
      | some x => [.number t, .float x]
      | none => [.number t]
    else [.number t]
  | n => [n]

/-- One choice for each place, the first 64 of them after every place. -/
def choices {α : Type} (options : List (List α)) : List (List α) :=
  options.foldl
    (fun out place => (out.flatMap fun existing => place.map fun option => existing ++ [option]).take 64)
    [[]]

mutual

/-- `legacyNumericVariants`. The fields of an object are taken in the order of their names. -/
def legacyNumericVariants : Json GoNumber → List (Json GoNumber)
  | .number n => (numberVariants n).map .number
  | .object fields =>
    (choices ((Json.sortedFields utf8 (fieldsVariants fields)).map fun f =>
      f.2.map fun option => (f.1, option))).map .object
  | .array items => (choices (itemsVariants items)).map .array
  | value => [value]

def itemsVariants : List (Json GoNumber) → List (List (Json GoNumber))
  | [] => []
  | d :: ds => legacyNumericVariants d :: itemsVariants ds

def fieldsVariants : List (List Char × Json GoNumber) → List (List Char × List (Json GoNumber))
  | [] => []
  | (k, d) :: fs => (k, legacyNumericVariants d) :: fieldsVariants fs

end

/-! ### Verification -/

/-- The payload that the verification builds from a row. -/
def rowPayload (row : AuditRow) : Document GoNumber :=
  payload .int (row.actorRef.map Fin.val) row.event row.targetRef (decoded row.data)
    (pythonTimestamp row.createdAt)

def legacyNumericHashMatches (payload : Json GoNumber) (previous hash : List Char) : Bool :=
  (legacyNumericVariants payload).any fun reading =>
    match canonicalJson reading with
    | some raw => decide (chained sha256 previous raw = hash)
    | none => false

/-- One row of `VerifyAuditChain`. -/
def checkRow (last : Checkpoint) (row : AuditRow) : Except Failure (Option Checkpoint) :=
  match canonicalJson (rowPayload row).json with
  | none => .error .encoding
  | some canonical =>
    if row.prevHash ≠ last.lastHash ∨ (row.hash ≠ chained sha256 last.lastHash canonical ∧
        ¬legacyNumericHashMatches (rowPayload row).json last.lastHash row.hash) then .ok none
    else .ok (some row.checkpoint)

/-- `VerifyAuditChain` over the rows of the table: whether the chain holds, and the last row that
passed. -/
def verifyAuditChain (rows : List AuditRow) (checkpoint : Option Checkpoint) :
    Except Failure (Bool × Checkpoint) :=
  let last := checkpoint.getD .genesis
  if last.lastId = 0 ∧ last.lastHash ≠ [] then .ok (false, last)
  else if 0 < last.lastId ∧
      ¬rows.any (fun r => decide (r.id = last.lastId ∧ r.hash = last.lastHash)) then
    .ok (false, last)
  else walk checkRow last (byId (rows.filter fun r => last.lastId < r.id))

theorem checkRow_of_hash {last : Checkpoint} {row : AuditRow} {canonical : List Char}
    (hcanonical : canonicalJson (rowPayload row).json = some canonical)
    (hprev : row.prevHash = last.lastHash)
    (hhash : row.hash = chained sha256 last.lastHash canonical) :
    checkRow last row = .ok (some row.checkpoint) := by
  rw [checkRow, hcanonical]
  refine if_neg ?_
  rintro (hne | ⟨hne, -⟩)
  · exact hne hprev
  · exact hne hhash

theorem checkRow_recordRow {id : Nat} {e : Event} {last : Checkpoint} {row : AuditRow}
    (hzero : ∀ n ∈ e.dataOrEmpty.json.numbers, n.negativeZero = false)
    (h : recordRow id last.lastHash e = some row) :
    checkRow last row = .ok (some row.checkpoint) := by
  obtain ⟨canonical, hcanonical, hrest⟩ := Option.bind_eq_some_iff.mp h
  obtain ⟨data, hdata, hrest⟩ := Option.bind_eq_some_iff.mp hrest
  obtain ⟨actorRef, hactor, hrow⟩ := Option.bind_eq_some_iff.mp hrest
  obtain rfl := Option.some.inj hrow
  refine checkRow_of_hash ?_ rfl rfl
  rw [← hcanonical, canonicalJson_eq, canonicalJson_eq, rowPayload]
  dsimp only
  rw [map_val_integerColumn hactor]
  exact congrArg _ (rendered_payload (fun _ _ => rfl) (rendered_stored hzero hdata) ..)

/-- The texts whose digest a row may carry. -/
def rowTexts (row : AuditRow) : Set (List Char) :=
  { t | ∃ d ∈ (rowPayload row).json :: legacyNumericVariants (rowPayload row).json,
    canonicalJson d = some t }

theorem linked_checkRow : Linked sha256 Checkpoint.lastHash AuditRow.prevHash AuditRow.hash
    rowTexts checkRow := by
  have hcases : ∀ {last next : Checkpoint} {row : AuditRow}, checkRow last row = .ok (some next) →
      row.prevHash = last.lastHash ∧ next = row.checkpoint ∧
        ∃ t ∈ rowTexts row, row.hash = chained sha256 last.lastHash t := by
    intro last next row h
    unfold checkRow at h
    split at h
    · cases h
    · next canonical hcanonical =>
      split at h
      · cases h
      · next hbroken =>
        obtain ⟨hprev, hhash⟩ := not_or.mp hbroken
        refine ⟨not_not.mp hprev, (Option.some.inj (Except.ok.inj h)).symm, ?_⟩
        -- The digest of the row as it is written now, or of an older reading of it.
        by_cases hown : row.hash = chained sha256 last.lastHash canonical
        · exact ⟨canonical, ⟨_, List.mem_cons_self, hcanonical⟩, hown⟩
        · -- The digest is that of a legacy reading.
          have hlegacy := not_not.mp fun hno => hhash ⟨hown, hno⟩
          obtain ⟨reading, hmem, hmatch⟩ := List.any_eq_true.mp hlegacy
          split at hmatch
          · next raw hraw =>
            exact ⟨raw, ⟨reading, List.mem_cons_of_mem _ hmem, hraw⟩,
              (of_decide_eq_true hmatch).symm⟩
          · cases hmatch
  exact {
    prev_eq := fun h => (hcases h).1
    last_eq := fun h => by rw [(hcases h).2.1]; rfl
    text := fun h => (hcases h).2.2 }

end SocialActivities.Audit.Go
