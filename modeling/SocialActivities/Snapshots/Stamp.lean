import SocialActivities.Audit.Rows
import SocialActivities.Lib.Calendar

/-!
# `SocialActivities.Snapshots.Stamp`: the times of a snapshot

A time is in microseconds since the start of year 1, in UTC. The exporters write it with
`time.Format`, always with or always without a fraction (`formatStamp`), and the loader reads the
time of a generation with `time.Parse` (`parseStamp`). What was written is read back
(`parseStamp_formatStamp`) up to year 9999, and not at all after it (`parseStamp_late`).
-/

namespace SocialActivities.Snapshots

open Lib Lib.Calendar Lib.Digits
open Audit (pad)

/-- The month of a time, from the first of year 1. -/
def monthAt (t : Nat) : Nat := monthOf (t / dayLength)

/-- A year, with four digits or more. -/
def padYear (n : Nat) : List Char := pad (max 4 (width n)) n

/-- The date and time to the second, `2006-01-02T15:04:05`. -/
def stampSeconds (t : Nat) : List Char :=
  padYear (monthAt t / 12 + 1) ++ '-' :: (pad 2 (monthAt t % 12 + 1) ++ '-' ::
    (pad 2 (t / dayLength - monthStart (monthAt t) + 1) ++ 'T' ::
      (pad 2 (t % dayLength / 3600000000) ++ ':' :: (pad 2 (t % dayLength / 60000000 % 60) ++ ':' ::
        pad 2 (t % dayLength / 1000000 % 60)))))

/-- `Format("2006-01-02T15:04:05.000000Z")`. -/
def formatStamp (t : Nat) : List Char := stampSeconds t ++ '.' :: (pad 6 (t % 1000000) ++ ['Z'])

/-- `Format("2006-01-02T15:04:05Z")`. -/
def formatSeconds (t : Nat) : List Char := stampSeconds t ++ ['Z']

/-! ### Reading a time -/

/-- The number that `k` digits stand for, and the rest. -/
def readNumber (k : Nat) (s : List Char) : Option (Nat × List Char) :=
  if (s.take k).length = k ∧ (s.take k).all Char.isDigit then
    some ((s.take k).foldl (fun a c => a * 10 + (c.toNat - 48)) 0, s.drop k)
  else none

/-- The rest after a character. -/
def readChar (c : Char) : List Char → Option (List Char)
  | d :: rest => if d = c then some rest else none
  | [] => none

/-- The fraction of a second, if there is one. What is below a microsecond is dropped. -/
def readFraction : List Char → Option (Nat × List Char)
  | '.' :: rest =>
    let digits := rest.takeWhile Char.isDigit
    if digits = [] then none
    else some (((digits ++ List.replicate 6 '0').take 6).foldl (fun a c => a * 10 + (c.toNat - 48)) 0,
      rest.dropWhile Char.isDigit)
  | rest => some (0, rest)

/-- `time.Parse(time.RFC3339Nano, s)` of a text that ends in `Z`, in the form that `Format` writes and
for the years from 1 on. -/
def parseStamp (s : List Char) : Option Nat := do
  let (year, s) ← readNumber 4 s
  let s ← readChar '-' s
  let (month, s) ← readNumber 2 s
  let s ← readChar '-' s
  let (day, s) ← readNumber 2 s
  let s ← readChar 'T' s
  let (hour, s) ← readNumber 2 s
  let s ← readChar ':' s
  let (minute, s) ← readNumber 2 s
  let s ← readChar ':' s
  let (second, s) ← readNumber 2 s
  let (micro, s) ← readFraction s
  if s = ['Z'] ∧ 1 ≤ year ∧ 1 ≤ month ∧ month ≤ 12 ∧ 1 ≤ day ∧
      day ≤ monthLength (12 * (year - 1) + (month - 1)) ∧ hour < 24 ∧ minute < 60 ∧ second < 60 then
    some ((monthStart (12 * (year - 1) + (month - 1)) + (day - 1)) * dayLength +
      (hour * 3600000000 + minute * 60000000 + second * 1000000 + micro))
  else none

/-! ### What was written is read back -/

theorem foldl_digits (ds : List (Fin 10)) (a : Nat) :
    (ds.map digitChar).foldl (fun a c => a * 10 + (c.toNat - 48)) a =
      ds.foldl (fun a d => a * 10 + d.val) a := by
  have hdigit : ∀ d : Fin 10, (digitChar d).toNat - 48 = d.val := by decide
  induction ds generalizing a with
  | nil => rfl
  | cons d ds ih =>
    rw [List.map_cons, List.foldl_cons, List.foldl_cons, hdigit, ih]

theorem length_pad (k n : Nat) : (pad k n).length = k := by
  simp [pad]

theorem all_isDigit_pad (k n : Nat) : (pad k n).all Char.isDigit = true := by
  rw [List.all_eq_true]
  intro c hc
  obtain ⟨d, -, rfl⟩ := List.mem_map.mp hc
  exact isDigit_digitChar d

theorem foldl_pad (k n : Nat) :
    (pad k n).foldl (fun a c => a * 10 + (c.toNat - 48)) 0 = n % 10 ^ k := by
  rw [← ofDigits_digitsPad k n]
  exact foldl_digits (digitsPad k n) 0

variable {n : Nat}

theorem readNumber_pad {k : Nat} (h : n < 10 ^ k) (rest : List Char) :
    readNumber k (pad k n ++ rest) = some (n, rest) := by
  have htake : (pad k n ++ rest).take k = pad k n := by
    rw [List.take_append_of_le_length (length_pad k n).ge, List.take_of_length_le (length_pad k n).le]
  have hdrop : (pad k n ++ rest).drop k = rest := by
    rw [List.drop_append_of_le_length (length_pad k n).ge, List.drop_of_length_le (length_pad k n).le]
    rfl
  unfold readNumber
  rw [htake, hdrop, if_pos ⟨length_pad k n, all_isDigit_pad k n⟩, foldl_pad, Nat.mod_eq_of_lt h]

theorem padYear_eq (h : n < 10000) : padYear n = pad 4 n := by
  have hlog : Nat.log 10 n < 4 := Nat.log_lt_of_lt_pow' (by decide) h
  unfold padYear width
  rw [Nat.max_eq_left (by omega)]

theorem readChar_padYear {m : Nat} {rest after : List Char} (h : 10000 ≤ n)
    (hread : readNumber 4 (padYear n ++ rest) = some (m, after)) : readChar '-' after = none := by
  have hlog : 4 ≤ Nat.log 10 n := Nat.le_log_of_pow_le (by decide) h
  have hlong : 4 < (padYear n).length := by
    unfold padYear width
    rw [length_pad]
    omega
  unfold readNumber at hread
  split at hread
  · have hafter : after = (padYear n).drop 4 ++ rest := by
      rw [← List.drop_append_of_le_length (by omega)]
      exact (Prod.mk.inj (Option.some.inj hread)).2.symm
    have hdigit : ∀ c ∈ (padYear n).drop 4, Char.isDigit c = true := fun c hc =>
      List.all_eq_true.mp (all_isDigit_pad _ n) c (List.mem_of_mem_drop hc)
    rw [hafter]
    cases hrest : (padYear n).drop 4 with
    | nil =>
      have hnil := List.drop_eq_nil_iff.mp hrest
      omega
    | cons c =>
      refine if_neg fun heq => ?_
      have hc := hdigit c (hrest ▸ List.mem_cons_self)
      rw [heq] at hc
      exact absurd hc (by decide)
  · cases hread

theorem readChar_cons (c : Char) (rest : List Char) : readChar c (c :: rest) = some rest := if_pos rfl

theorem readFraction_pad (h : n < 10 ^ 6) :
    readFraction ('.' :: (pad 6 n ++ ['Z'])) = some (n, ['Z']) := by
  have hdigits : ∀ c ∈ pad 6 n, Char.isDigit c = true := List.all_eq_true.mp (all_isDigit_pad 6 n)
  have htake : (pad 6 n ++ ['Z']).takeWhile Char.isDigit = pad 6 n := by
    rw [List.takeWhile_append_of_pos hdigits]
    simp
  have hdrop : (pad 6 n ++ ['Z']).dropWhile Char.isDigit = ['Z'] := by
    rw [List.dropWhile_append_of_pos hdigits]
    simp
  have hne : pad 6 n ≠ [] := by
    intro hnil
    have hlength := length_pad 6 n
    rw [hnil] at hlength
    cases hlength
  have hsix : (pad 6 n ++ List.replicate 6 '0').take 6 = pad 6 n := by
    rw [List.take_append_of_le_length (length_pad 6 n).ge, List.take_of_length_le (length_pad 6 n).le]
  simp only [readFraction, htake, hne, if_false, hsix, foldl_pad, Nat.mod_eq_of_lt h, hdrop]

/-- The start of year 10000. -/
def stampEnd : Nat := yearStart 9999 * dayLength

theorem parseStamp_late {t : Nat} (h : stampEnd ≤ t) : parseStamp (formatStamp t) = none := by
  have hyear : 12 * 9999 ≤ monthAt t := by
    have hmonth : monthStart (12 * 9999) = yearStart 9999 := by decide
    rw [← Nat.not_lt]
    intro hearly
    have hend := lt_monthStart_succ (t / dayLength)
    have hless : monthStart (monthOf (t / dayLength) + 1) ≤ monthStart (12 * 9999) :=
      monthStart_le_of_le hearly
    have hdays : yearStart 9999 ≤ t / dayLength := (Nat.le_div_iff_mul_le (by decide)).mpr h
    omega
  unfold formatStamp stampSeconds parseStamp
  simp only [List.append_assoc, Option.bind_eq_bind]
  cases hread : readNumber 4 (padYear (monthAt t / 12 + 1) ++ _) with
  | none => rfl
  | some r =>
    show (readChar '-' r.2).bind _ = none
    rw [readChar_padYear (by omega) (hread.trans (congrArg some (Prod.mk.eta).symm))]
    rfl

theorem parseStamp_formatStamp {t : Nat} (h : t < stampEnd) : parseStamp (formatStamp t) = some t := by
  have hstart := monthStart_monthOf_le (t / dayLength)
  have hend := lt_monthStart_succ (t / dayLength)
  rw [monthStart_succ] at hend
  have hyear : monthAt t < 12 * 9999 := by
    rw [← Nat.not_le]
    intro hlate
    have hmonth : monthStart (12 * 9999) = yearStart 9999 := by decide
    have hless : t / dayLength < yearStart 9999 := Nat.div_lt_of_lt_mul (by rwa [Nat.mul_comm])
    have hle := monthStart_le_of_le hlate
    unfold monthAt at hle
    omega
  have hindex : 12 * (monthAt t / 12 + 1 - 1) + (monthAt t % 12 + 1 - 1) = monthAt t := by omega
  have hlength : monthLength (monthAt t) ≤ 31 := by
    unfold monthLength lengthOf
    split
    · split <;> omega
    all_goals omega
  have hrest : t % dayLength < dayLength := Nat.mod_lt t (by decide)
  have hday : dayLength = 86400000000 := by decide
  have hmicro : t % 1000000 = t % dayLength % 1000000 := by
    rw [hday, Nat.mod_mod_of_dvd t (by decide)]
  have hsplit := Nat.div_add_mod t dayLength
  unfold monthAt at hindex hyear hlength
  unfold formatStamp stampSeconds parseStamp monthAt
  rw [padYear_eq (by omega)]
  simp only [List.append_assoc, List.cons_append]
  rw [readNumber_pad (by omega), Option.bind_eq_bind, Option.bind_some]
  simp only [readChar_cons, Option.bind_eq_bind, Option.bind_some]
  rw [readNumber_pad (by omega)]
  simp only [readChar_cons, Option.bind_some]
  rw [readNumber_pad (by omega)]
  simp only [readChar_cons, Option.bind_some]
  rw [readNumber_pad (by omega)]
  simp only [readChar_cons, Option.bind_some]
  rw [readNumber_pad (by omega)]
  simp only [readChar_cons, Option.bind_some]
  rw [readNumber_pad (by omega)]
  simp only [Option.bind_some]
  rw [readFraction_pad (by omega)]
  simp only [Option.bind_some, hindex]
  rw [hday] at hstart hend hyear hlength hrest hsplit hmicro ⊢
  rw [if_pos ⟨trivial, by omega⟩, Option.some_inj, hmicro]
  omega

end SocialActivities.Snapshots
