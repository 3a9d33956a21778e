import SocialActivities.Feeds.Dates
import SocialActivities.Lib.Checked
import SocialActivities.Snapshots.GoJson

/-!
# `SocialActivities.Roedu.Values`: decoded values and their checks (`internal/jobs/roedu.go`)

A page is decoded into `any` with `UseNumber`, so a value is a JSON document whose numbers are texts,
and an object is a map: its fields here are a list with each name once. A check of the source answers
`true` or `false`, or it panics where it compares two maps or two slices or asserts a type that the
value does not have. It is an operation that succeeds for `true` and stops for the two others (`Stop`).

The file embeds the helpers of the validator: `text`, `optionalText`, `number`, `equalsNumber`,
`exactKeys`, `aware` and `stable`, and what they use of the standard library.
-/

namespace SocialActivities.Roedu

open Lib Lib.Calendar
open Snapshots (GoJson Text)

/-- What ends a check that does not return `true`. -/
inductive Stop where
  | refused
  | panicked
  deriving DecidableEq

/-- `if !condition { return false }`. -/
def ensure (condition : Bool) : Except Stop Unit := need .refused condition

/-- What the process takes from its machine: the names of the time zone database, and Unicode's lower
case and simple folding. On ASCII both are the usual ones. -/
structure Tables where
  zoneinfo : Text → Bool
  lower : Char → Char
  fold : Char → Char
  lower_ascii : ∀ c, c.toNat < 128 → lower c = c.toLower
  fold_ascii : ∀ c, c.toNat < 128 → fold c = c.toLower

/-- The tables for ASCII, with one time zone. -/
def Tables.ascii : Tables where
  zoneinfo name := name == "Europe/Bucharest".toList
  lower := Char.toLower
  fold := Char.toLower
  lower_ascii _ _ := rfl
  fold_ascii _ _ := rfl

def equalFold (t : Tables) (a b : Text) : Bool := a.map t.fold == b.map t.fold

/-! ### Objects -/

/-- A decoded `map[string]any`. -/
abbrev Object := List (Text × GoJson)

namespace Object

/-- `value, ok := o[key]`. -/
def get? (o : Object) (key : Text) : Option GoJson := (o.find? (·.1 == key)).map Prod.snd

/-- `o[key]`: a missing key reads as nil. -/
def get (o : Object) (key : Text) : GoJson := (get? o key).getD .null

def has (o : Object) (key : Text) : Bool := (get? o key).isSome

/-- `delete(o, key)`. -/
def erase (o : Object) (key : Text) : Object := o.filter (·.1 != key)

/-- `o[key] = value`. -/
def set (o : Object) (key : Text) (value : GoJson) : Object := (key, value) :: erase o key

end Object

/-- The texts of some words, which the source writes in one string or as a chain of comparisons. -/
def names (words : List String) : List Text := words.map String.toList

variable {words : List String}

@[simp] theorem mem_names {word : String} :
    word.toList ∈ names words ↔ word ∈ words :=
  List.mem_map_of_injective (fun _ _ => String.toList_inj.mp)

@[simp] theorem nodup_names : (names words).Nodup ↔ words.Nodup :=
  List.nodup_map_iff fun _ _ => String.toList_inj.mp

@[simp] theorem names_append (words more : List String) :
    names words ++ names more = names (words ++ more) := List.map_append.symm

theorem forall_names {P : Text → Prop} :
    (∀ key ∈ names words, P key) ↔ ∀ word ∈ words, P word.toList := List.forall_mem_map

def exactKeys (value : Object) (wanted : List Text) : Bool :=
  decide (value.length = wanted.length) && wanted.all value.has

/-! ### Values -/

def isNil : GoJson → Bool
  | .null => true
  | _ => false

/-- `value == wanted`, for a bool. -/
def isBool (wanted : Bool) : GoJson → Bool
  | .bool b => b == wanted
  | _ => false

/-- `value == wanted`, for a string. -/
def isString (wanted : Text) : GoJson → Bool
  | .string s => s == wanted
  | _ => false

/-- `value.(bool)`. -/
def asBool : GoJson → Option Bool
  | .bool b => some b
  | _ => none

/-- `value.(string)`. -/
def asString : GoJson → Option Text
  | .string s => some s
  | _ => none

/-- `value.([]any)`. -/
def asArray : GoJson → Option (List GoJson)
  | .array items => some items
  | _ => none

/-- `value.(map[string]any)`. -/
def asObject : GoJson → Option Object
  | .object fields => some fields
  | _ => none

/-- `v, ok := value.(T); if !ok { return false }`. -/
def given {α : Type} (value : Option α) : Except Stop α := value.elim (.error .refused) .ok

/-- `value.(T)` with one result. -/
def asserted {α : Type} (value : Option α) : Except Stop α := value.elim (.error .panicked) .ok

/-- `a == b`. Maps and slices cannot be compared. -/
def same : GoJson → GoJson → Except Stop Bool
  | .null, .null => .ok true
  | .bool a, .bool b => .ok (a == b)
  | .number a, .number b => .ok (a == b)
  | .string a, .string b => .ok (a == b)
  | .array _, .array _ => .error .panicked
  | .object _, .object _ => .error .panicked
  | _, _ => .ok false

/-- `if a != b { return false }`. -/
def agree (a b : GoJson) : Except Stop Unit := do
  let equal ← same a b
  ensure equal

mutual

def sprint : GoJson → Text
  | .null => "<nil>".toList
  | .bool true => "true".toList
  | .bool false => "false".toList
  | .number n => n.chars
  | .string s => s
  | .array items => '[' :: sprintItems true items
  | .object fields =>
    let sorted := Json.sortedFields id (sprintFields fields)
    "map[".toList ++ [' '].intercalate (sorted.map fun f => f.1 ++ ':' :: f.2) ++ [']']

def sprintItems (first : Bool) : List GoJson → Text
  | [] => [']']
  | d :: ds => (if first then [] else [' ']) ++ sprint d ++ sprintItems false ds

def sprintFields : List (Text × GoJson) → List (Text × Text)
  | [] => []
  | (k, d) :: fs => (k, sprint d) :: sprintFields fs

end

/-! ### Texts -/

def text (value : GoJson) (maxLen : Nat) (empty : Bool) : Bool :=
  match value with
  | .string raw => raw == Feeds.trimSpace raw && decide (raw.length ≤ maxLen) && (empty || !raw.isEmpty) &&
      raw.all fun r => decide (32 ≤ r.toNat)
  | _ => false

def optionalText (value : GoJson) (maximum : Nat) : Bool := isNil value || text value maximum false

def stable (value : GoJson) : Bool :=
  text value 128 false && (asString value).any fun raw =>
    raw.all fun r => !(Safety.Go.isSpace r || decide (r.toNat < 32))

/-! ### Numbers -/

/-- `number`. A number beyond the range of `float64` is an error. -/
def number : GoJson → Option Binary64
  | .number n => n.parseFloat
  | _ => none

/-- The value of a number in units of `2 ^ -1074`. -/
def units (x : Binary64) : Int := if x.neg then -(x.mag.units : Int) else x.mag.units

/-- An integer in the same units. -/
def whole (n : Int) : Int := n * Magnitude.unitsPerOne

def equalsNumber (value : GoJson) (wanted : Int) : Bool :=
  (number value).any fun n => decide (units n = whole wanted)

/-! ### Times -/

/-- The hour of `time.Parse`: one digit or two. -/
def hourDigits (s : Text) : Option (Nat × Text) := Feeds.fixedDigits 2 s <|> Feeds.fixedDigits 1 s

/-- The zone `Z07:00`, as the minutes east of UTC. The bounds are those of the parser. -/
def zoneOffset : Text → Option (Int × Text)
  | 'Z' :: s => some (0, s)
  | sign :: s => do
    let (hours, s) ← Feeds.fixedDigits 2 s
    let s ← Feeds.literal ':' s
    let (minutes, s) ← Feeds.fixedDigits 2 s
    if 24 < hours ∨ 60 < minutes then none
    else if sign = '+' then some (hours * 60 + minutes, s)
    else if sign = '-' then some (-(hours * 60 + minutes : Int), s)
    else none
  | [] => none

/-- `time.Parse(time.RFC3339Nano, s)`, in nanoseconds. -/
def parseTime (s : Text) : Option Int := do
  let (year, s) ← Feeds.fixedDigits 4 s
  let s ← Feeds.literal '-' s
  let (month, s) ← Feeds.fixedDigits 2 s
  let s ← Feeds.literal '-' s
  let (day, s) ← Feeds.fixedDigits 2 s
  let s ← Feeds.literal 'T' s
  let (hour, s) ← hourDigits s
  let s ← Feeds.literal ':' s
  let (minute, s) ← Feeds.fixedDigits 2 s
  let s ← Feeds.literal ':' s
  let (second, s) ← Feeds.fixedDigits 2 s
  let (nanos, s) := Feeds.fraction s
  let (offset, s) ← zoneOffset s
  -- Days are counted from 400 years before year 1, as `time.Parse` takes the year 0.
  let k := (year + 399) * 12 + (month - 1)
  if 1 ≤ month ∧ month ≤ 12 ∧ 1 ≤ day ∧ day ≤ monthLength k ∧ hour < 24 ∧ minute < 60 ∧ second < 60 ∧ s = [] then
    let wall : Nat := ((monthStart k + (day - 1)) * 24 + hour) * 60 + minute
    some (((wall : Int) - offset) * (60 * 10 ^ 9) + (second * 10 ^ 9 + nanos : Nat))
  else none

def aware (value : GoJson) : Option Int :=
  match value with
  | .string raw =>
    if text value 80 false && decide (20 ≤ (utf8 raw).length) && (utf8 raw)[10]? == some 'T'.toNat then
      parseTime raw
    else none
  | _ => none

/-- `strings.Contains(s, part)`. -/
def contains (part : Text) : Text → Bool
  | [] => part.isEmpty
  | c :: s => part.isPrefixOf (c :: s) || contains part s

/-- `time.LoadLocation`, as far as it fails. -/
def loadLocation (t : Tables) (name : Text) : Bool :=
  name.isEmpty || name == "UTC".toList || name == "Local".toList ||
    (!contains "..".toList name && name.head? != some '/' && name.head? != some '\\' && t.zoneinfo name)

end SocialActivities.Roedu
