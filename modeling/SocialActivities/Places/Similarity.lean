import Mathlib.Algebra.Order.Field.Rat
import Mathlib.Data.List.MinMax
import Mathlib.Data.List.ProdSigma
import SocialActivities.Feeds.Dates
import SocialActivities.Lib.Blocks

/-!
# `SocialActivities.Places.Similarity`: how similar two names are

`PlaceNameSimilarity` of `internal/jobs`, `sequenceRatio` of `internal/social` and `name_similarity` of
`dedup.py`. All of them normalise the names and then divide twice the size of the matching blocks by the
lengths. The two Go functions carry the same loops: a table of runs for the longest block of a region
(`longestBlock`), and a stack of regions (`matchLoop`). The Python one calls `SequenceMatcher`, which
`Py.matchingBlocks` models as its documentation says it: the longest block, the earliest in the first text
and then in the second, and then the same to the left and to the right.

A ratio is a rational number. The quotient of `float64` is its rounding, which keeps the order, and no quotient
of lengths below `2 ^ 40` is so close to the threshold that the rounding could reach it.
-/

namespace SocialActivities.Places

open Lib

abbrev Text := List Char

/-! ### Normalised names -/

/-- What the normal forms use of the Unicode tables. -/
structure NameTables where
  /-- `norm.NFKD.String`, `unicodedata.normalize("NFKD", …)`. -/
  nfkd : Text → Text
  /-- `strings.ToLower`, rune by rune. -/
  toLower : Char → Char
  /-- `str.lower`. -/
  lower : Text → Text
  /-- `unicode.Mn`. -/
  isMark : Char → Bool
  isLetter : Char → Bool
  isNumber : Char → Bool
  /-- `unicodedata.combining`. -/
  combining : Char → Bool
  /-- `\w` of Python. -/
  isWord : Char → Bool

def fields : Text → List Text
  | [] => []
  | c :: s =>
    if Safety.Go.isSpace c then fields s
    else match s with
      | [] => [[c]]
      | d :: _ =>
        if Safety.Go.isSpace d then [c] :: fields s
        else match fields s with
          | word :: words => (c :: word) :: words
          | [] => [[c]]

def normalizePlaceName (u : NameTables) (raw : Text) : Text :=
  let raw := (u.nfkd raw).map u.toLower
  let kept := (raw.filter fun r => !u.isMark r).map fun r =>
    if u.isLetter r || u.isNumber r || r == '_' || Safety.Go.isSpace r then r else ' '
  [' '].intercalate (fields kept)

/-- The loop of `normalizeName`, after a space or not. -/
def spaced (u : NameTables) (space : Bool) : Text → Text
  | [] => []
  | c :: s =>
    if u.isMark c then spaced u space s
    else if u.isLetter c || u.isNumber c || c == '_' then c :: spaced u false s
    else if space then spaced u true s
    else ' ' :: spaced u true s

/-- `normalizeName` of `internal/social`. -/
def normalizeName (u : NameTables) (v : Text) : Text :=
  Feeds.trimSpace (spaced u true (u.nfkd (v.map u.toLower)))

/-! ### The matching blocks -/

/-- Where a rune stands in `b`, in order. -/
def positions (b : Text) (r : Char) : List Nat := (List.range b.length).filter fun j => b[j]? == some r

/-- The map `b2j`. The positions of a popular rune are deleted. -/
def b2j (b : Text) (r : Char) : List Nat :=
  let list := positions b r
  if 200 ≤ b.length ∧ b.length / 100 + 1 < list.length then [] else list

/-- A row of the table: for a position in `b`, the length of the run that ends there. A missing one is 0. -/
abbrev Row := List (Nat × Nat)

def Row.at (row : Row) (j : Nat) : Nat := (row.lookup j).getD 0

/-- `previous[j-1]`. -/
def Row.before (row : Row) : Nat → Nat
  | 0 => 0
  | j + 1 => row.at j

/-- The inner loop: the positions of `a[i]` in `b`. -/
def scanRow (part : Region) (i : Nat) (previous : Row) : List Nat → Row → Block → Row × Block
  | [], current, best => (current, best)
  | j :: js, current, best =>
    if j < part.blo then scanRow part i previous js current best
    else if part.bhi ≤ j then (current, best)
    else
      let size := previous.before j + 1
      scanRow part i previous js ((j, size) :: current)
        (if best.size < size then ⟨i + 1 - size, j + 1 - size, size⟩ else best)

/-- The longest block of a part without popular runes. -/
def longestBlock (a b : Text) (part : Region) : Block :=
  ((List.range' part.alo (part.ahi - part.alo)).foldl (fun (s : Row × Block) i =>
    scanRow part i s.1 ((a[i]?.map (b2j b)).getD []) [] s.2) ([], ⟨part.alo, part.blo, 0⟩)).2

/-- `for besti > part.alo && bestj > part.blo && a[besti-1] == b[bestj-1]`. -/
def extendBack (a b : Text) (part : Region) : Nat → Nat → Nat → Block
  | besti + 1, bestj + 1, bestsize =>
    if part.alo < besti + 1 ∧ part.blo < bestj + 1 ∧ a[besti]? = b[bestj]? then
      extendBack a b part besti bestj (bestsize + 1)
    else ⟨besti + 1, bestj + 1, bestsize⟩
  | besti, bestj, bestsize => ⟨besti, bestj, bestsize⟩

/-- `for besti+bestsize < part.ahi && bestj+bestsize < part.bhi && a[besti+bestsize] == b[bestj+bestsize]`,
at most `n` times. -/
def extendForward (a b : Text) (part : Region) (besti bestj : Nat) : Nat → Nat → Block
  | 0, bestsize => ⟨besti, bestj, bestsize⟩
  | n + 1, bestsize =>
    if besti + bestsize < part.ahi ∧ bestj + bestsize < part.bhi ∧ a[besti + bestsize]? = b[bestj + bestsize]? then
      extendForward a b part besti bestj n (bestsize + 1)
    else ⟨besti, bestj, bestsize⟩

/-- A block with the equal runes around it. -/
def extend (a b : Text) (part : Region) (best : Block) : Block :=
  let best := extendBack a b part best.i best.j best.size
  extendForward a b part best.i best.j (part.ahi - (best.i + best.size)) best.size

/-- The loop over the stack, for at most `fuel` parts. -/
def matchLoop (a b : Text) : Nat → List Region → Nat → Option Nat
  | _, [], matched => some matched
  | 0, _ :: _, _ => none
  | fuel + 1, part :: stack, matched =>
    let best := extend a b part (longestBlock a b part)
    if best.size = 0 then matchLoop a b fuel stack matched
    else
      let stack := if part.alo < best.i ∧ part.blo < best.j then part.left best :: stack else stack
      let stack := if best.i + best.size < part.ahi ∧ best.j + best.size < part.bhi then
        part.right best :: stack else stack
      matchLoop a b fuel stack (matched + best.size)

/-- The whole of both texts. -/
def whole (a b : Text) : Region := ⟨0, a.length, 0, b.length⟩

/-- `matched` at the end of the loop. Each part takes one of its runes at least, and leaves two parts. -/
def matched (a b : Text) : Option Nat := matchLoop a b (2 * a.length + 1) [whole a b] 0

/-- `2 * float64(matched) / float64(len(a)+len(b))`. -/
def quotient (matched : Nat) (a b : Text) : ℚ := 2 * matched / (a.length + b.length)

def placeNameSimilarity (u : NameTables) (left right : Text) : Option ℚ :=
  let a := normalizePlaceName u left
  let b := normalizePlaceName u right
  if a.isEmpty || b.isEmpty then some 0
  else if a = b then some 1
  else (matched a b).map fun n => quotient n a b

def sequenceRatio (u : NameTables) (left right : Text) : Option ℚ :=
  let a := normalizeName u left
  let b := normalizeName u right
  if a.isEmpty || b.isEmpty then some 0
  else (matched a b).map fun n => quotient n a b

/-- The test of `upsertPlace` for a place that is there and one that comes in. -/
def sameName (u : NameTables) (existing name : Text) : Bool :=
  (placeNameSimilarity u existing name).any fun ratio => decide (82 / 100 ≤ ratio)

namespace Py

/-! ### `SequenceMatcher` -/

/-- The runes that the automatic heuristic sets aside. -/
def popular (b : Text) (r : Char) : Bool := decide (200 ≤ b.length) && decide (b.length / 100 + 1 < b.count r)

/-- Equal runes that are not set aside. -/
def matches? (a b : Text) (i j : Nat) : Bool :=
  (a[i]?).any fun r => b[j]? == some r && !popular b r

/-- How many matches follow one another from `i` and `j`, at most `n`. -/
def matchesFrom (a b : Text) (part : Region) (i j : Nat) : Nat → Nat
  | 0 => 0
  | n + 1 =>
    if i < part.ahi ∧ j < part.bhi ∧ matches? a b i j then matchesFrom a b part (i + 1) (j + 1) n + 1 else 0

/-- The pairs of positions of a part, row by row. -/
def pairs (part : Region) : List (Nat × Nat) :=
  List.range' part.alo (part.ahi - part.alo) ×ˢ List.range' part.blo (part.bhi - part.blo)

/-- The longest block of a part. Of several it is the one that begins earliest in `a`, and then in `b`. -/
def longestMatch (a b : Text) (part : Region) : Block :=
  let size := fun start : Nat × Nat => matchesFrom a b part start.1 start.2 (part.ahi - start.1)
  match (pairs part).argmax size with
  | some start => ⟨start.1, start.2, size start⟩
  | none => ⟨part.alo, part.blo, 0⟩

/-- `get_matching_blocks`, of a part whose first side is shorter than `n`. -/
def blocksOf (a b : Text) : Nat → Region → List Block
  | 0, _ => []
  | n + 1, part =>
    let best := extend a b part (longestMatch a b part)
    if best.size = 0 then []
    else blocksOf a b n (part.left best) ++ best :: blocksOf a b n (part.right best)

def matchingBlocks (a b : Text) : List Block := blocksOf a b (a.length + 1) (whole a b)

/-- `SequenceMatcher(None, a, b).ratio()`. -/
def ratio (a b : Text) : ℚ := quotient (total (matchingBlocks a b)) a b

/-! ### `dedup.py` -/

/-- `_WS_RE.sub(" ", …)`. -/
def squeeze : Text → Text
  | [] => []
  | c :: s =>
    if Safety.Py.isSpace c then
      match s with
      | [] => [' ']
      | d :: _ => if Safety.Py.isSpace d then squeeze s else ' ' :: squeeze s
    else c :: squeeze s

def normalizeName (u : NameTables) (name : Text) : Text :=
  let kept := u.lower ((u.nfkd name).filter fun ch => !u.combining ch)
  Feeds.strip (squeeze (kept.map fun ch => if u.isWord ch || Safety.Py.isSpace ch then ch else ' '))

def nameSimilarity (u : NameTables) (a b : Text) : ℚ :=
  let na := normalizeName u a
  let nb := normalizeName u b
  if na.isEmpty || nb.isEmpty then 0
  else if na = nb then 1
  else ratio na nb

/-- The test of `find_duplicate` for a candidate and a new name. -/
def sameName (u : NameTables) (candidate name : Text) : Bool :=
  !(Feeds.strip name).isEmpty && decide (82 / 100 ≤ nameSimilarity u candidate name)

end Py

end SocialActivities.Places
