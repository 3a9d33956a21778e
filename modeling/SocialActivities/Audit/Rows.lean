import SocialActivities.Lib.NumberText
import SocialActivities.Lib.Text

/-!
# `SocialActivities.Audit.Rows`: the audit table

The table `safety_auditlog` as both programs see it: the columns of a row (`AuditRow`), the
timestamp of a row and its ISO text (`Timestamp.isoformat`), and the column type `jsonb` of its
data. `jsonb` keeps a document as PostgreSQL does: numbers as exact decimals with their scale, so
without exponents and without a negative zero, and the fields of an object by the length of their
names and then by bytes. It refuses a NUL character and numbers of too many digits.

Both programs hash the same five fields of an event, the `payload`.
-/

namespace SocialActivities.Audit

open Lib Lib.Digits

/-! ### Timestamps -/

/-- A time of day in UTC, to the microsecond. -/
structure Timestamp where
  year : Fin 10000
  month : Fin 13
  day : Fin 32
  hour : Fin 24
  minute : Fin 60
  second : Fin 60
  micro : Fin 1000000
  deriving DecidableEq

/-- A number in `k` digits. -/
def pad (k n : Nat) : List Char := (digitsPad k n).map digitChar

theorem pad_append_inj {k m n : Nat} (hm : m < 10 ^ k) (hn : n < 10 ^ k) {r r' : List Char}
    (h : pad k m ++ r = pad k n ++ r') : m = n ∧ r = r' := by
  obtain ⟨hdigits, hrest⟩ := List.append_inj h (by simp [pad])
  have hpad : digitsPad k m = digitsPad k n :=
    (List.map_injective_iff.mpr digitChar_injective) hdigits
  have hvalue := congrArg ofDigits hpad
  rw [ofDigits_digitsPad, ofDigits_digitsPad, Nat.mod_eq_of_lt hm, Nat.mod_eq_of_lt hn] at hvalue
  exact ⟨hvalue, hrest⟩

namespace Timestamp

/-- The offset of UTC. -/
def offset : List Char := ['+', '0', '0', ':', '0', '0']

/-- The date and time to the second. -/
def seconds (t : Timestamp) : List Char :=
  pad 4 t.year ++ '-' :: (pad 2 t.month ++ '-' :: (pad 2 t.day ++ 'T' :: (pad 2 t.hour ++ ':' ::
    (pad 2 t.minute ++ ':' :: pad 2 t.second))))

/-- The microseconds, which are left out when they are zero, and the offset. -/
def fraction (micro : Nat) : List Char := (if micro = 0 then [] else '.' :: pad 6 micro) ++ offset

/-- `isoformat()` of an aware timestamp in UTC. -/
def isoformat (t : Timestamp) : List Char := t.seconds ++ fraction t.micro

theorem fraction_injective {m n : Nat} (hm : m < 10 ^ 6) (hn : n < 10 ^ 6)
    (h : fraction m = fraction n) : m = n := by
  unfold fraction at h
  split at h <;> split at h
  · omega
  · simp [offset] at h
  · simp [offset] at h
  · exact (pad_append_inj hm hn (List.cons.inj h).2).1

theorem isoformat_injective : Function.Injective isoformat := by
  rintro ⟨y, mo, d, hr, mi, s, us⟩ ⟨y', mo', d', hr', mi', s', us'⟩ h
  simp only [isoformat, seconds, List.append_assoc, List.cons_append] at h
  obtain ⟨hy, h⟩ := pad_append_inj (by omega) (by omega) h
  obtain ⟨hmo, h⟩ := pad_append_inj (by omega) (by omega) (List.cons.inj h).2
  obtain ⟨hd, h⟩ := pad_append_inj (by omega) (by omega) (List.cons.inj h).2
  obtain ⟨hhr, h⟩ := pad_append_inj (by omega) (by omega) (List.cons.inj h).2
  obtain ⟨hmi, h⟩ := pad_append_inj (by omega) (by omega) (List.cons.inj h).2
  obtain ⟨hs, h⟩ := pad_append_inj (by omega) (by omega) (List.cons.inj h).2
  have hus := fraction_injective us.isLt us'.isLt h
  simp only [Timestamp.mk.injEq]
  exact ⟨Fin.ext hy, Fin.ext hmo, Fin.ext hd, Fin.ext hhr, Fin.ext hmi, Fin.ext hs, Fin.ext hus⟩

end Timestamp

/-! ### The hashed fields -/

section Payload

variable {ν : Type} (int : Int → ν) (actor : Option Nat) (event target : List Char)

/-- The id of the actor, or null. -/
def actorJson : Option Nat → Json ν
  | none => .null
  | some a => .number (int a)

/-- The fields that the digest of a row covers. -/
def payloadFields (data : Json ν) (created : List Char) : List (List Char × Json ν) :=
  [(['a', 'c', 't', 'o', 'r'], actorJson int actor),
    (['e', 'v', 'e', 'n', 't'], .string event),
    (['t', 'a', 'r', 'g', 'e', 't'], .string target),
    (['d', 'a', 't', 'a'], data),
    (['c', 'r', 'e', 'a', 't', 'e', 'd'], .string created)]

def payloadNames : List (List Char) :=
  [['a', 'c', 't', 'o', 'r'], ['e', 'v', 'e', 'n', 't'], ['t', 'a', 'r', 'g', 'e', 't'],
    ['d', 'a', 't', 'a'], ['c', 'r', 'e', 'a', 't', 'e', 'd']]

theorem distinct_payloadFields (data : Document ν) (created : List Char) :
    (Json.object (payloadFields int actor event target data.json created)).Distinct := by
  have hactor : (actorJson int actor).Distinct := by
    cases actor <;> trivial
  have hnames : payloadNames.Nodup := by decide
  exact ⟨hnames, hactor, trivial, trivial, data.distinct, trivial, trivial⟩

/-- The document that the digest of a row is taken of. -/
def payload (data : Document ν) (created : List Char) : Document ν :=
  ⟨.object (payloadFields int actor event target data.json created),
    distinct_payloadFields int actor event target data created⟩

end Payload

variable {ν μ κ : Type} {f : ν → Option μ} {int : Int → ν} {key : List Char → κ}

/-- Payloads of the same fields are rendered alike when their data are. -/
theorem rendered_payload {ν' : Type} [LinearOrder κ] {int' : Int → ν'} {g : ν' → Option μ}
    {data : Document ν} {data' : Document ν'} {actor : Option Nat}
    (hint : ∀ a ∈ actor, f (int a) = g (int' a))
    (hdata : data.json.rendered key f = data'.json.rendered key g)
    (event target created : List Char) :
    (payload int actor event target data created).json.rendered key f
      = (payload int' actor event target data' created).json.rendered key g := by
  have hactor : (actorJson int actor).rendered key f = (actorJson int' actor).rendered key g := by
    cases actor with
    | none => rfl
    | some a =>
      show ((f (int a)).map Json.number).map (Json.sortFields key)
        = ((g (int' a)).map Json.number).map (Json.sortFields key)
      rw [hint a rfl]
  exact Json.rendered_object key (.cons ⟨rfl, hactor⟩ (.cons ⟨rfl, rfl⟩ (.cons ⟨rfl, rfl⟩
    (.cons ⟨rfl, hdata⟩ (.cons ⟨rfl, rfl⟩ .nil)))))

theorem eq_of_rendered_actorJson [LinearOrder κ] {a b : Option Nat} {x : Json μ}
    (hint : ∀ {a b : Nat} {m : μ}, f (int a) = some m → f (int b) = some m → a = b)
    (ha : (actorJson int a).rendered key f = some x)
    (hb : (actorJson int b).rendered key f = some x) : a = b := by
  have hnumber : ∀ {a : Nat}, (actorJson int (some a)).rendered key f = some x →
      ∃ m, f (int a) = some m ∧ x = .number m := by
    intro a h
    obtain ⟨y, hy, rfl⟩ := Option.map_eq_some_iff.mp h
    obtain ⟨m, hm, rfl⟩ := Option.map_eq_some_iff.mp hy
    exact ⟨m, hm, rfl⟩
  have hnull : (actorJson int none).rendered key f = some x → x = .null :=
    fun h => (Option.some.inj h).symm
  -- A number is not null, so both are there or neither is.
  cases a with
  | none =>
    cases b with
    | none => rfl
    | some =>
      obtain ⟨m, -, hm⟩ := hnumber hb
      rw [hnull ha] at hm
      cases hm
  | some =>
    obtain ⟨m, hfa, hm⟩ := hnumber ha
    cases b with
    | none =>
      rw [hnull hb] at hm
      cases hm
    | some =>
      obtain ⟨m', hfb, hm'⟩ := hnumber hb
      rw [hm] at hm'
      rw [hint hfa (Json.number.inj hm' ▸ hfb)]

/-- Objects of hashed fields that are rendered alike have the same fields, and data that is
rendered alike. The fields may stand in any order. -/
theorem eq_of_rendered_payload [LinearOrder κ] {actor actor' : Option Nat}
    {event event' target target' created created' : List Char} {data data' : Json ν}
    {fs gs : List (List Char × Json ν)} {e : Json μ}
    (hint : ∀ {a b : Nat} {m : μ}, f (int a) = some m → f (int b) = some m → a = b)
    (hfs : fs.Perm (payloadFields int actor event target data created))
    (hgs : gs.Perm (payloadFields int actor' event' target' data' created'))
    (hf : (Json.object fs).rendered key f = some e)
    (hg : (Json.object gs).rendered key f = some e) :
    actor = actor' ∧ event = event' ∧ target = target' ∧ created = created' ∧
      ∃ x, data.rendered key f = some x ∧ data'.rendered key f = some x := by
  -- A field of one object has a field of that name in the other, with the same rendering.
  have hfield : ∀ {k d}, (k, d) ∈ payloadFields int actor event target data created →
      ∃ d', (k, d') ∈ payloadFields int actor' event' target' data' created' ∧
        ∃ x, d.rendered key f = some x ∧ d'.rendered key f = some x := by
    intro k d hd
    obtain ⟨d', hd', x, hx⟩ := Json.exists_field_of_rendered key hf hg (hfs.mem_iff.mpr hd)
    exact ⟨d', hgs.mem_iff.mp hd', x, hx⟩
  have hstring : ∀ {k s t}, (k, Json.string s) ∈ payloadFields int actor event target data created →
      (∀ d', (k, d') ∈ payloadFields int actor' event' target' data' created' → d' = .string t) →
      s = t := by
    intro k s t hs ht
    obtain ⟨d', hd', x, hx, hx'⟩ := hfield hs
    rw [ht d' hd'] at hx'
    exact Json.string.inj ((Option.some.inj hx).trans (Option.some.inj hx').symm)
  refine ⟨?_, ?_, ?_, ?_, ?_⟩
  · obtain ⟨d', hd', x, hx, hx'⟩ := hfield (k := ['a', 'c', 't', 'o', 'r']) List.mem_cons_self
    obtain rfl : d' = actorJson int actor' := by simpa [payloadFields] using hd'
    exact eq_of_rendered_actorJson hint hx hx'
  · refine hstring (k := ['e', 'v', 'e', 'n', 't']) (by simp [payloadFields]) fun d' hd' => ?_
    simpa [payloadFields] using hd'
  · refine hstring (k := ['t', 'a', 'r', 'g', 'e', 't']) (by simp [payloadFields]) fun d' hd' => ?_
    simpa [payloadFields] using hd'
  · refine hstring (k := ['c', 'r', 'e', 'a', 't', 'e', 'd']) (by simp [payloadFields])
      fun d' hd' => ?_
    simpa [payloadFields] using hd'
  · obtain ⟨d', hd', hx⟩ := hfield (k := ['d', 'a', 't', 'a']) (d := data) (by simp [payloadFields])
    obtain rfl : d' = data' := by simpa [payloadFields] using hd'
    exact hx

/-! ### Storage -/

/-- A stored number: an exact decimal with its scale, and zero without sign. Up to 131072 digits
before the point and 16383 after it. -/
def numeric (t : NumberText) : Option NumberText :=
  let stored := NumberText.plain (t.neg && decide (t.coefficient ≠ 0)) t.coefficient t.power
  if width stored.whole ≤ 131072 ∧ stored.fracDigits.length ≤ 16383 then some stored else none

theorem numeric_self {t t' : NumberText} (hexp : t.exp = none)
    (hzero : t.neg = true → t.coefficient ≠ 0) (h : numeric t = some t') : t' = t := by
  have hneg : (t.neg && decide (t.coefficient ≠ 0)) = t.neg := by
    cases hn : t.neg with
    | false => rfl
    | true => rw [Bool.true_and, decide_eq_true_eq]; exact hzero hn
  unfold numeric at h
  rw [hneg, NumberText.plain_self hexp] at h
  dsimp only at h
  split at h
  · exact (Option.some.inj h).symm
  · cases h

theorem numeric_ofInt {n : Int} {t : NumberText} (h : numeric (.ofInt n) = some t) :
    t = .ofInt n := by
  refine numeric_self rfl (fun hneg => ?_) h
  have hlt : n < 0 := of_decide_eq_true hneg
  rw [NumberText.coefficient_of_frac rfl]
  show n.natAbs ≠ 0
  omega

/-- The order of the fields of a stored object: the shorter name first, then by bytes. -/
def jsonbKey (name : List Char) : Nat ×ₗ List Nat := toLex ((utf8 name).length, utf8 name)

/-- A document as the column keeps it, or none when the column refuses it. The names of an object
are distinct already, because both programs write objects from maps. -/
def jsonb (d : Document NumberText) : Option (Document NumberText) :=
  if d.json.strings.any (·.contains '\x00') then none
  else (d.numbers? numeric).map (Document.sortFields jsonbKey)

theorem jsonb_eq_some {d s : Document NumberText} (h : jsonb d = some s) :
    ∃ e, d.numbers? numeric = some e ∧ e.sortFields jsonbKey = s := by
  unfold jsonb at h
  split at h
  · cases h
  · exact Option.map_eq_some_iff.mp h

/-- An id as a column of 32-bit integers keeps it. -/
def integerColumn : Option Nat → Option (Option (Fin 2147483648))
  | none => some none
  | some a => if h : a < 2147483648 then some (some ⟨a, h⟩) else none

theorem map_val_integerColumn {a : Option Nat} {b : Option (Fin 2147483648)}
    (h : integerColumn a = some b) : b.map Fin.val = a := by
  cases a with
  | none => rw [← Option.some.inj h]; rfl
  | some a =>
    by_cases ha : a < 2147483648
    · rw [integerColumn, dif_pos ha] at h
      rw [← Option.some.inj h]
      rfl
    · rw [integerColumn, dif_neg ha] at h
      cases h

/-- A row of the audit table. -/
structure AuditRow where
  id : Nat
  actorRef : Option (Fin 2147483648)
  event : List Char
  targetRef : List Char
  data : Document NumberText
  createdAt : Timestamp
  prevHash : List Char
  hash : List Char

/-- The rows in the order of their ids. -/
def byId (rows : List AuditRow) : List AuditRow := rows.insertionSort fun r s => r.id ≤ s.id

/-- A trusted high-water mark of a verification. -/
structure Checkpoint where
  lastId : Nat
  lastHash : List Char
  createdAt : Option Timestamp
  deriving DecidableEq

/-- The checkpoint before the first row. -/
def Checkpoint.genesis : Checkpoint := ⟨0, [], none⟩

/-- The checkpoint after a row. -/
def AuditRow.checkpoint (row : AuditRow) : Checkpoint := ⟨row.id, row.hash, some row.createdAt⟩

/-- Why a verification ends without an answer: the data of a row has no canonical text. -/
inductive Failure where
  | encoding
  deriving DecidableEq

end SocialActivities.Audit
