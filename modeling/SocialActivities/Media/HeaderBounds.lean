import SocialActivities.Lib.Pieces
import SocialActivities.Media.Headers

/-!
# `SocialActivities.Media.HeaderBounds`: the sizes that an image declares

`declared` lists every size in the headers of an image that the parser walks over, whatever the parser makes
of them; it is `none` for a file that is cut off or malformed there. A codec may go by any of these sizes, so
the parsed header has to bound them all (`Bounds`).

The parser keeps the first `IHDR` of a PNG, the last `VP8X`, `VP8` or `VP8L` chunk of a WEBP and the last frame
of a JPEG. Only the boxes of an AVIF are taken together. `bounds_iff` says when that is enough: none of the
declared sizes may exceed the one that is kept (`Outgrown`).
-/

namespace SocialActivities.Media.Headers

open Lib

structure Size where
  width : Nat
  height : Nat
  deriving DecidableEq

def Size.Fits (s most : Size) : Prop := s.width ≤ most.width ∧ s.height ≤ most.height

instance (s most : Size) : Decidable (s.Fits most) := inferInstanceAs (Decidable (_ ∧ _))

def ImageHeader.size (h : ImageHeader) : Size := ⟨h.width, h.height⟩

/-! ### The declared sizes -/

/-- `size` bytes from position `i` on. -/
def window (b : Bytes) (i size : Nat) : Bytes := (b.take (i + size)).drop i

def pngFound (b : Bytes) (pos : Nat) : Found (Bytes × Bytes) :=
  if pos + 12 ≤ b.length then
    let n := bigEndian (window b pos 4)
    if b.length - pos - 12 < n then .ending
    else .piece (window b (pos + 4) 4, window b (pos + 8) n) (pos + n + 12)
  else .ending

/-- A size in two fields of four bytes, as in an `IHDR` chunk. -/
def sizeAt (b : Bytes) (i : Nat) : Size := ⟨bigEndian (window b i 4), bigEndian (window b (i + 4) 4)⟩

def pngDeclares (chunk : Bytes × Bytes) : List Size :=
  if chunk.1 = ascii "IHDR" ∧ 8 ≤ chunk.2.length then [sizeAt chunk.2 0] else []

/-- The first header stands at its place also when it is the last thing in the file. -/
def pngSizes (b : Bytes) : Option (List Size) :=
  if window b 12 4 = ascii "IHDR" ∧ bigEndian (window b 8 4) = 13 then
    (pieces (pngFound b) (b.length + 1) 8).map fun chunks => sizeAt b 16 :: chunks.flatMap pngDeclares
  else none

def webpFound (b : Bytes) (pos : Nat) : Found (Bytes × Bytes) :=
  if pos + 8 ≤ b.length then
    let n := littleEndian (window b (pos + 4) 4)
    if b.length - (pos + 8) < n then .broken
    else .piece (window b pos 4, window b (pos + 8) n) (pos + 8 + n + n % 2)
  else .ending

def webpDeclares (chunk : Bytes × Bytes) : Option (List Size) :=
  if chunk.1 = ascii "VP8X" then
    if 10 ≤ chunk.2.length then
      some [⟨1 + littleEndian (window chunk.2 4 3), 1 + littleEndian (window chunk.2 7 3)⟩]
    else none
  else if chunk.1 = ascii "VP8 " then
    if 10 ≤ chunk.2.length ∧ hasAt chunk.2 3 [0x9d, 0x01, 0x2a] then
      some [⟨littleEndian (window chunk.2 6 2) % 0x4000, littleEndian (window chunk.2 8 2) % 0x4000⟩]
    else none
  else if chunk.1 = ascii "VP8L" then
    if 5 ≤ chunk.2.length ∧ hasAt chunk.2 0 [0x2f] then
      let x := littleEndian (window chunk.2 1 4)
      some [⟨x % 0x4000 + 1, x / 0x4000 % 0x4000 + 1⟩]
    else none
  else some []

def webpSizes (b : Bytes) : Option (List Size) :=
  (pieces (webpFound b) (b.length + 1) 12).bind fun chunks => (chunks.mapM webpDeclares).map List.flatten

/-- A marker and its segment, up to the scan or the end of the image. -/
def jpegFound (b : Bytes) (pos : Nat) : Found (UInt8 × Bytes) :=
  if pos + 4 ≤ b.length then
    if b[pos]? = some 0xff then
      let pos := skipFill b pos
      match b[pos]? with
      | none => .ending
      | some marker =>
        let pos := pos + 1
        if marker = 0xd9 ∨ marker = 0xda then .ending
        else if standsAlone marker then .piece (marker, []) pos
        else if b.length < pos + 2 then .broken
        else
          let n := bigEndian (window b pos 2)
          if n < 2 ∨ b.length - pos < n then .broken
          else .piece (marker, window b (pos + 2) (n - 2)) (pos + n)
    else .broken
  else .ending

def jpegDeclares (segment : UInt8 × Bytes) : Option (List Size) :=
  if isFrame segment.1 then
    if 6 ≤ segment.2.length then
      some [⟨bigEndian (window segment.2 3 2), bigEndian (window segment.2 1 2)⟩]
    else none
  else some []

def jpegSizes (b : Bytes) : Option (List Size) :=
  (pieces (jpegFound b) (b.length + 1) 2).bind fun segments => (segments.mapM jpegDeclares).map List.flatten

/-- The length of a box and of its head. -/
def boxAt (b : Bytes) (pos : Nat) : Nat × Nat :=
  let n := bigEndian (window b pos 4)
  if n = 1 then (bigEndian (window b (pos + 8) 8), 16)
  else if n = 0 then (b.length - pos, 8)
  else (n, 8)

/-- The type and the body of a box. -/
def avifFound (b : Bytes) (pos : Nat) : Found (Bytes × Bytes) :=
  if pos + 8 ≤ b.length then
    let (n, head) := boxAt b pos
    if b.length < pos + head ∨ n < head ∨ b.length - pos < n then .broken
    else .piece (window b (pos + 4) 4, window b (pos + head) (n - head)) (pos + n)
  else .ending

def avifDeclares (box : Bytes × Bytes) : Option (List Size) :=
  if box.1 = ascii "ispe" then
    if 12 ≤ box.2.length then some [sizeAt box.2 4] else none
  else some []

/-- The boxes in a box. -/
def within (box : Bytes × Bytes) : Option (Option Bytes) :=
  if box.1 = ascii "meta" then
    if 4 ≤ box.2.length then some (some (box.2.drop 4)) else none
  else some (if box.1 = ascii "iprp" ∨ box.1 = ascii "ipco" then some box.2 else none)

/-- The sizes of the boxes from a position on, and of the boxes in them. -/
def avifSizes : Nat → Bytes → Nat → Nat → Option (List Size)
  | 0, _, _, _ => none
  | fuel + 1, b, depth, pos =>
    match avifFound b pos with
    | .ending => some []
    | .broken => none
    | .piece box next => do
      let own ← avifDeclares box
      let inner ← match ← within box with
        | none => some []
        | some inner => if depth < 16 then avifSizes fuel inner (depth + 1) 0 else none
      let rest ← avifSizes fuel b depth next
      some (own ++ inner ++ rest)

/-- The sizes that the headers of the file declare, if it is well formed. -/
def declared (b : Bytes) : Option (List Size) :=
  match container b with
  | some .png => pngSizes b
  | some .webp => webpSizes b
  | some .jpeg => jpegSizes b
  | some .avif => avifSizes (b.length + 1) b 0 0
  | none => none

/-- The size of the one header that the parser goes by; for an AVIF it goes by all of them. -/
def kept (b : Bytes) (sizes : List Size) : Option Size :=
  match container b with
  | some .png => sizes.head?
  | some .webp => sizes.getLast?
  | some .jpeg => sizes.getLast?
  | some .avif => none
  | none => none

/-- Some header declares more than the one that is kept, and that one passes the parser. -/
def Outgrown (b : Bytes) : Prop :=
  ∃ sizes most, declared b = some sizes ∧ kept b sizes = some most ∧ 0 < most.width ∧ 0 < most.height ∧
    ∃ s ∈ sizes, ¬ s.Fits most

/-- The parser ends without an access out of range, and what it accepts bounds every declared size. -/
def Bounds (b : Bytes) : Prop :=
  parseImageHeader b ≠ .error .panicked ∧ parseImageHeader b ≠ .error .stuck ∧
    ∀ h, parseImageHeader b = .ok h → ∃ sizes, declared b = some sizes ∧ ∀ s ∈ sizes, s.Fits h.size

/-! ### Reads in range -/

theorem slice_ok {b : Bytes} {lo hi : Nat} (hlo : lo ≤ hi) (hhi : hi ≤ b.length) :
    slice b lo hi = .ok (window b lo (hi - lo)) := by
  have hend : lo + (hi - lo) = hi := by omega
  rw [slice, if_pos ⟨hlo, hhi⟩, window, hend]

theorem slice_window {b : Bytes} {i size : Nat} (h : i + size ≤ b.length) :
    slice b i (i + size) = .ok (window b i size) := by
  have hsize : i + size - i = size := by omega
  rw [slice_ok (by omega) h, hsize]

theorem slice_tag {b : Bytes} {pos : Nat} (h : pos + 8 ≤ b.length) :
    slice b (pos + 4) (pos + 8) = .ok (window b (pos + 4) 4) :=
  @slice_window b (pos + 4) 4 h

theorem length_window {b : Bytes} {i size : Nat} (h : i + size ≤ b.length) : (window b i size).length = size := by
  simp only [window, List.length_drop, List.length_take]
  omega

theorem uint_ok {order : ByteOrder} {b : Bytes} {i size : Nat} (h : i + size ≤ b.length) :
    uint order size b i = .ok (order.number (window b i size)) := by
  rw [uint, slice_window h]
  rfl

theorem uint_big {b : Bytes} {i size : Nat} (h : i + size ≤ b.length) :
    uint .big size b i = .ok (bigEndian (window b i size)) := uint_ok h

theorem uint_little {b : Bytes} {i size : Nat} (h : i + size ≤ b.length) :
    uint .little size b i = .ok (littleEndian (window b i size)) := uint_ok h

theorem index_ok {b : Bytes} {i : Nat} {c : UInt8} (h : b[i]? = some c) : index b i = .ok c := by
  rw [index, h]
  rfl

/-! ### The orientation -/

theorem exifEntries_ok (order : ByteOrder) (b : Bytes) (offset n : Nat) (h : offset + 12 * n ≤ b.length) :
    ∃ v, exifEntries order b offset n = .ok v := by
  induction n generalizing offset with
  | zero => exact ⟨1, rfl⟩
  | succ n ih =>
    have hentry : (window b offset 12).length = 12 := length_window (by omega)
    rw [exifEntries, slice_window (by omega), ok_bind, uint_ok (by omega), ok_bind, uint_ok (by omega), ok_bind,
      uint_ok (by omega), ok_bind, uint_ok (by omega), ok_bind]
    split
    · exact ⟨_, rfl⟩
    · exact ih (offset + 12) (by omega)

theorem exifDirectory_ok {order : ByteOrder} {b : Bytes} (h : 8 ≤ b.length) :
    ∃ v, exifDirectory order b = .ok v := by
  rw [exifDirectory, uint_ok (by omega), ok_bind]
  split
  · exact ⟨1, rfl⟩
  · rw [uint_ok (by omega), ok_bind]
    split
    · exact ⟨1, rfl⟩
    · rename_i hoffset
      rw [uint_ok (by omega), ok_bind]
      split
      · exact ⟨1, rfl⟩
      · rename_i hn
        -- A directory of `n` entries fits into what is left of the data.
        have hroom : ∀ n room : Nat, ¬ (512 < n ∨ room / 12 < n) → 12 * n ≤ room := by
          intro n room h
          omega
        exact exifEntries_ok order b _ _ (by have := hroom _ _ hn; omega)

theorem exifOrientation_ok (b : Bytes) : ∃ v, exifOrientation b = .ok v := by
  rw [exifOrientation]
  split
  · exact ⟨1, rfl⟩
  · split
    · exact exifDirectory_ok (by omega)
    · split
      · exact exifDirectory_ok (by omega)
      · exact ⟨1, rfl⟩

theorem oriented_size (h : ImageHeader) (exif : Bytes) : (oriented h exif).map ImageHeader.size = .ok h.size := by
  have ⟨v, hv⟩ := exifOrientation_ok exif
  rw [oriented, hv]
  rfl

/-! ### PNG -/

theorem pngChunk_size (h : ImageHeader) (tag data : Bytes) :
    (pngChunk h tag data).map ImageHeader.size = .ok h.size := by
  rw [pngChunk]
  split
  · exact oriented_size h data
  · rfl

theorem pngFound_advances (b : Bytes) : Advances (pngFound b) b.length := by
  intro pos chunk next hfound
  simp only [pngFound] at hfound
  split at hfound
  · split at hfound
    · cases hfound
    · cases hfound
      constructor <;> omega
  · cases hfound

theorem pngLoop_eq_walk (b : Bytes) (fuel pos : Nat) (h : ImageHeader) :
    pngLoop b fuel pos h =
      walk (pngFound b) (fun h chunk => pngChunk h chunk.1 chunk.2) .rejected .stuck fuel pos h := by
  induction fuel generalizing pos h with
  | zero => rfl
  | succ fuel ih =>
    rw [pngLoop, walk]
    by_cases hpos : pos + 12 ≤ b.length
    · rw [if_pos hpos, uint_big (by omega), ok_bind, show pngFound b pos = _ from if_pos hpos]
      generalize bigEndian (window b pos 4) = n
      by_cases hn : b.length - pos - 12 < n
      · simp only [if_pos hn]
      · simp only [if_neg hn]
        rw [slice_tag (by omega), ok_bind, slice_window (by omega), ok_bind]
        exact congrArg (pngChunk h _ _ >>= ·) (funext fun h => ih _ h)
    · rw [if_neg hpos, show pngFound b pos = .ending from if_neg hpos]

/-! ### WEBP -/

theorem webpChunk_size (h : ImageHeader) (tag data : Bytes) :
    (webpChunk h tag data).map ImageHeader.size =
      (webpDeclares (tag, data)).elim (.error .rejected) fun sizes => .ok (sizes.getLast?.getD h.size) := by
  simp only [webpChunk, webpDeclares]
  split
  · by_cases hroom : 10 ≤ data.length
    · rw [if_pos hroom, decide_eq_true hroom, need_true, ok_bind, uint_ok (by omega), ok_bind, uint_ok (by omega)]
      rfl
    · rw [if_neg hroom, decide_eq_false hroom]
      rfl
  split
  · by_cases hroom : 10 ≤ data.length
    · cases hmagic : hasAt data 3 [0x9d, 0x01, 0x2a] with
      | false =>
        rw [Bool.and_false, if_neg (fun h => Bool.noConfusion h.2)]
        rfl
      | true =>
        rw [if_pos ⟨hroom, rfl⟩, decide_eq_true hroom, Bool.true_and, need_true, ok_bind, uint_ok (by omega),
          ok_bind, uint_ok (by omega)]
        rfl
    · rw [if_neg (fun h => hroom h.1), decide_eq_false hroom]
      rfl
  split
  · by_cases hroom : 5 ≤ data.length
    · cases hmagic : hasAt data 0 [0x2f] with
      | false =>
        rw [Bool.and_false, if_neg (fun h => Bool.noConfusion h.2)]
        rfl
      | true =>
        rw [if_pos ⟨hroom, rfl⟩, decide_eq_true hroom, Bool.true_and, need_true, ok_bind, uint_ok (by omega)]
        rfl
    · rw [if_neg (fun h => hroom h.1), decide_eq_false hroom]
      rfl
  split
  · exact oriented_size h _
  · rfl

theorem webpFound_advances (b : Bytes) : Advances (webpFound b) b.length := by
  intro pos chunk next hfound
  simp only [webpFound] at hfound
  split at hfound
  · split at hfound
    · cases hfound
    · cases hfound
      constructor <;> omega
  · cases hfound

theorem webpLoop_eq_walk (b : Bytes) (fuel pos : Nat) (h : ImageHeader) :
    webpLoop b fuel pos h =
      walk (webpFound b) (fun h chunk => webpChunk h chunk.1 chunk.2) .rejected .stuck fuel pos h := by
  induction fuel generalizing pos h with
  | zero => rfl
  | succ fuel ih =>
    rw [webpLoop, walk]
    by_cases hpos : pos + 8 ≤ b.length
    · rw [if_pos hpos, uint_little (by omega), ok_bind, show webpFound b pos = _ from if_pos hpos]
      generalize littleEndian (window b (pos + 4) 4) = n
      by_cases hn : b.length - (pos + 8) < n
      · simp only [if_pos hn]
      · simp only [if_neg hn]
        rw [slice_window (by omega), ok_bind, slice_window (by omega), ok_bind]
        exact congrArg (webpChunk h _ _ >>= ·) (funext fun h => ih _ h)
    · rw [if_neg hpos, show webpFound b pos = .ending from if_neg hpos]

/-! ### JPEG -/

theorem jpegSegment_alone (h : ImageHeader) {marker : UInt8} (halone : standsAlone marker = true) :
    jpegSegment h marker [] = .ok h ∧ isFrame marker = false := by
  have hframe : isFrame marker = false := by
    simp only [standsAlone, isFrame, Bool.or_eq_true, Bool.and_eq_true, beq_iff_eq, decide_eq_true_eq,
      ← UInt8.toNat_inj, UInt8.le_iff_toNat_le, Bool.eq_false_iff, ne_eq, UInt8.reduceToNat] at halone ⊢
    omega
  exact ⟨by simp [jpegSegment, hframe], hframe⟩

theorem jpegSegment_size (h : ImageHeader) (marker : UInt8) (seg : Bytes) :
    (jpegSegment h marker seg).map ImageHeader.size =
      (jpegDeclares (marker, seg)).elim (.error .rejected) fun sizes => .ok (sizes.getLast?.getD h.size) := by
  simp only [jpegSegment, jpegDeclares]
  split
  · rename_i happ
    rw [oriented_size, happ.1]
    rfl
  split
  · by_cases hroom : 6 ≤ seg.length
    · rw [if_pos hroom, decide_eq_true hroom, need_true, ok_bind, uint_ok (by omega), ok_bind, uint_ok (by omega)]
      rfl
    · rw [if_neg hroom, decide_eq_false hroom]
      rfl
  · rfl

theorem lt_skipFill {b : Bytes} {pos : Nat} (h : b[pos]? = some 0xff) : pos < skipFill b pos := by
  have hdrop : b.drop pos = 0xff :: b.drop (pos + 1) := by
    have ⟨hpos, hget⟩ := List.getElem?_eq_some_iff.1 h
    rw [List.drop_eq_getElem_cons hpos, hget]
  rw [skipFill, hdrop]
  simp

theorem jpegFound_advances (b : Bytes) : Advances (jpegFound b) b.length := by
  intro pos segment next hfound
  simp only [jpegFound] at hfound
  split at hfound
  · split at hfound
    · rename_i hfill
      have hskip := lt_skipFill hfill
      repeat' split at hfound
      all_goals cases hfound
      all_goals constructor <;> omega
    · cases hfound
  · cases hfound

theorem jpegLoop_eq_walk (b : Bytes) (fuel pos : Nat) (h : ImageHeader) :
    jpegLoop b fuel pos h =
      walk (jpegFound b) (fun h segment => jpegSegment h segment.1 segment.2) .rejected .stuck fuel pos h := by
  induction fuel generalizing pos h with
  | zero => rfl
  | succ fuel ih =>
    rw [jpegLoop, walk]
    by_cases hpos : pos + 4 ≤ b.length
    · rw [if_pos hpos, show jpegFound b pos = _ from if_pos hpos]
      obtain ⟨first, hfirst⟩ : ∃ first, b[pos]? = some first := ⟨_, List.getElem?_eq_getElem (by omega)⟩
      rw [index_ok hfirst, ok_bind, hfirst]
      by_cases hff : first = 0xff
      · rw [if_neg (not_not_intro hff), if_pos (congrArg some hff)]
        show (if b.length ≤ skipFill b pos then _ else _) = _
        generalize skipFill b pos = start
        dsimp only
        by_cases hend : b.length ≤ start
        · rw [if_pos hend, List.getElem?_eq_none hend]
        · obtain ⟨marker, hmarker⟩ : ∃ marker, b[start]? = some marker := ⟨_, List.getElem?_eq_getElem (by omega)⟩
          rw [if_neg hend, index_ok hmarker, ok_bind, hmarker]
          by_cases hscan : marker = 0xd9 ∨ marker = 0xda
          · simp only [if_pos hscan]
          simp only [if_neg hscan]
          cases halone : standsAlone marker with
          | true =>
            simp only [if_true]
            rw [(jpegSegment_alone h halone).1, ok_bind]
            exact ih _ h
          | false =>
            simp only [if_neg Bool.false_ne_true]
            by_cases hroom : b.length < start + 1 + 2
            · simp only [if_pos hroom]
            simp only [if_neg hroom]
            rw [uint_big (by omega), ok_bind]
            generalize bigEndian (window b (start + 1) 2) = n
            by_cases hlength : n < 2 ∨ b.length - (start + 1) < n
            · simp only [if_pos hlength]
            simp only [if_neg hlength]
            rw [slice_ok (by omega) (by omega), ok_bind, show start + 1 + n - (start + 1 + 2) = n - 2 by omega]
            exact congrArg (jpegSegment h _ _ >>= ·) (funext fun h => ih _ h)
      · rw [if_pos hff, if_neg (fun h => hff (Option.some.inj h))]
    · rw [if_neg hpos, show jpegFound b pos = .ending from if_neg hpos]

/-! ### AVIF -/

/-- The sizes so far, and one more. -/
def grow (most : Nat × Nat) (s : Size) : Nat × Nat := (max most.1 s.width, max most.2 s.height)

theorem foldl_grow (most : Nat × Nat) (sizes : List Size) :
    sizes.foldl grow most =
      (max most.1 (sizes.foldl grow (0, 0)).1, max most.2 (sizes.foldl grow (0, 0)).2) := by
  induction sizes generalizing most with
  | nil => simp
  | cons s sizes ih =>
    rw [List.foldl_cons, List.foldl_cons, ih (grow most s), ih (grow (0, 0) s)]
    simp [grow, Nat.max_assoc]

theorem fits_foldl_grow (most : Nat × Nat) (sizes : List Size) :
    ∀ s ∈ sizes, s.width ≤ (sizes.foldl grow most).1 ∧ s.height ≤ (sizes.foldl grow most).2 := by
  induction sizes generalizing most with
  | nil => simp
  | cons first sizes ih =>
    intro s hs
    rw [List.foldl_cons]
    cases List.mem_cons.1 hs with
    | inl heq =>
      rw [foldl_grow, heq]
      simp only [grow]
      omega
    | inr hs => exact ih _ s hs

theorem boxLength_eq {b : Bytes} {pos : Nat} (h : pos + 8 ≤ b.length) :
    boxLength b pos = if b.length < pos + (boxAt b pos).2 then .error .rejected else .ok (boxAt b pos) := by
  rw [boxLength, uint_big (by omega), ok_bind, boxAt]
  split
  · by_cases hlong : b.length < pos + 16
    · rw [if_pos hlong, if_pos hlong]
    · rw [if_neg hlong, if_neg hlong, uint_big (by omega)]
      rfl
  split
  · rw [if_neg (by show ¬ b.length < pos + 8; omega)]
    rfl
  · rw [if_neg (by show ¬ b.length < pos + 8; omega)]
    rfl

theorem boxSize_eq (typ body : Bytes) (most : Nat × Nat) :
    boxSize typ body most =
      (avifDeclares (typ, body)).elim (.error .rejected) fun sizes => .ok (sizes.foldl grow most) := by
  rw [boxSize, avifDeclares]
  split
  · by_cases hroom : 12 ≤ body.length
    · rw [decide_eq_true hroom, need_true, ok_bind, uint_big (by omega), ok_bind, uint_big (by omega), if_pos hroom]
      rfl
    · rw [decide_eq_false hroom, if_neg hroom]
      rfl
  · rfl

theorem innerBoxes_eq (typ body : Bytes) :
    innerBoxes typ body = (within (typ, body)).elim (.error .rejected) .ok := by
  rw [innerBoxes, within]
  split
  · by_cases hroom : 4 ≤ body.length
    · rw [decide_eq_true hroom, if_pos hroom]
      rfl
    · rw [decide_eq_false hroom, if_neg hroom]
      rfl
  · by_cases hbox : typ = ascii "iprp" ∨ typ = ascii "ipco"
    · rw [if_pos hbox, if_pos hbox]
      rfl
    · rw [if_neg hbox, if_neg hbox]
      rfl

theorem length_within {box : Bytes × Bytes} {inner : Bytes} (h : within box = some (some inner)) :
    inner.length ≤ box.2.length := by
  rw [within] at h
  split at h
  · split at h
    · cases h
      simp
    · cases h
  · split at h
    · cases h
      exact Nat.le_refl _
    · cases h

theorem avifLoop_eq (fuel : Nat) (b : Bytes) (depth pos : Nat) (most : Nat × Nat) (hpositive : 0 < fuel)
    (hfuel : b.length < pos + fuel) :
    avifLoop fuel b depth pos most =
      (avifSizes fuel b depth pos).elim (.error .rejected) fun sizes => .ok (sizes.foldl grow most) := by
  -- The boxes in a box are shorter than it by its head, so the fuel is enough for them as well.
  induction fuel generalizing b depth pos most with
  | zero => omega
  | succ fuel ih =>
    rw [avifLoop, avifSizes]
    by_cases hpos : pos + 8 ≤ b.length
    · rw [if_pos hpos, boxLength_eq hpos, show avifFound b pos = _ from if_pos hpos]
      dsimp only
      have hhead : 8 ≤ (boxAt b pos).2 := by
        rw [boxAt]
        repeat' split
        all_goals simp
      generalize boxAt b pos = box at hhead ⊢
      obtain ⟨n, head⟩ := box
      dsimp only at hhead ⊢
      by_cases hcut : b.length < pos + head
      · rw [if_pos hcut, if_pos (.inl hcut)]
        rfl
      rw [if_neg hcut, ok_bind]
      dsimp only
      by_cases hlength : n < head ∨ b.length - pos < n
      · rw [if_pos hlength, if_pos (.inr hlength)]
        rfl
      rw [if_neg hlength, if_neg (by omega), slice_tag hpos, ok_bind, slice_ok (by omega) (by omega), ok_bind,
        show pos + n - (pos + head) = n - head by omega, boxSize_eq]
      dsimp only
      have hbody : (window b (pos + head) (n - head)).length = n - head := length_window (by omega)
      generalize window b (pos + head) (n - head) = body at hbody ⊢
      generalize window b (pos + 4) 4 = typ
      have hrest : ∀ most, avifLoop fuel b depth (pos + n) most = _ := fun most =>
        ih b depth (pos + n) most (by omega) (by omega)
      cases avifDeclares (typ, body) with
      | none => rfl
      | some own =>
        rw [Option.elim_some, ok_bind, innerBoxes_eq]
        cases hwithin : within (typ, body) with
        | none => rfl
        | some inside =>
          rw [Option.elim_some, ok_bind]
          cases inside with
          | none =>
            dsimp only
            rw [hrest]
            cases avifSizes fuel b depth (pos + n) with
            | none => rfl
            | some => simp
          | some inner =>
            have hinner : inner.length ≤ body.length := length_within hwithin
            dsimp only
            simp only [Option.bind_eq_bind, Option.bind_some]
            by_cases hdepth : depth < 16
            · rw [if_neg (by omega), if_pos hdepth, ih inner (depth + 1) 0 (0, 0) (by omega) (by omega)]
              cases avifSizes fuel inner (depth + 1) 0 with
              | none => rfl
              | some deeper =>
                rw [Option.elim_some, ok_bind, Option.bind_some, hrest]
                cases avifSizes fuel b depth (pos + n) with
                | none => rfl
                | some =>
                  simp only [Option.bind_some, Option.elim_some, List.foldl_append]
                  rw [foldl_grow (own.foldl grow most) deeper]
            · rw [if_pos (by omega), if_neg hdepth]
              rfl
    · rw [if_neg hpos, show avifFound b pos = .ending from if_neg hpos]
      rfl

/-! ### The size that is kept -/

theorem map_eq_ok {ε α β : Type} {f : α → β} {x : Except ε α} {r : β} :
    x.map f = .ok r ↔ ∃ a, x = .ok a ∧ f a = r := by
  cases x with
  | error => exact ⟨fun h => (by cases h), fun ⟨_, h, _⟩ => (by cases h)⟩
  | ok a => exact ⟨fun h => ⟨a, rfl, Except.ok.inj h⟩, fun ⟨a, h, hr⟩ => (by cases h; exact congrArg Except.ok hr)⟩

theorem map_eq_error {ε α β : Type} {f : α → β} {x : Except ε α} {e : ε} : x.map f = .error e ↔ x = .error e := by
  cases x with
  | error => exact ⟨fun h => congrArg _ (Except.error.inj h), fun h => congrArg _ (Except.error.inj h)⟩
  | ok => exact ⟨fun h => (by cases h), fun h => (by cases h)⟩

section Pieces

variable {α : Type} {take : ImageHeader → α → Except Stop ImageHeader}

/-- Where each piece replaces the size by the one that it declares, the last one stays. -/
theorem foldlM_size {declares : α → Option (List Size)}
    (htake : ∀ h a, (take h a).map ImageHeader.size =
      (declares a).elim (.error .rejected) fun sizes => .ok (sizes.getLast?.getD h.size))
    (as : List α) (h : ImageHeader) :
    (as.foldlM take h).map ImageHeader.size =
      ((as.mapM declares).map List.flatten).elim (.error .rejected)
        fun sizes => .ok (sizes.getLast?.getD h.size) := by
  induction as generalizing h with
  | nil => rfl
  | cons a as ih =>
    have ha := htake h a
    rw [List.foldlM_cons, List.mapM_cons]
    cases hown : declares a with
    | none =>
      rw [hown] at ha
      rw [map_eq_error.1 ha]
      rfl
    | some =>
      rw [hown] at ha
      have ⟨next, hnext, hsize⟩ := map_eq_ok.1 ha
      rw [hnext, ok_bind, ih next, hsize]
      cases as.mapM declares with
      | none => rfl
      | some => simp [List.getLast?_append, Option.getD_or]

theorem foldlM_same_size (htake : ∀ h a, (take h a).map ImageHeader.size = .ok h.size) (as : List α)
    (h : ImageHeader) : (as.foldlM take h).map ImageHeader.size = .ok h.size := by
  induction as generalizing h with
  | nil => rfl
  | cons a as ih =>
    have ⟨next, hnext, hsize⟩ := map_eq_ok.1 (htake h a)
    rw [List.foldlM_cons, hnext, ok_bind, ih next, hsize]

/-- A walk over pieces, by the size that is left at its end. -/
theorem walk_size {declares : α → Option (List Size)} {found : Nat → Found α} {limit : Nat}
    (hadvances : Advances found limit)
    (htake : ∀ h a, (take h a).map ImageHeader.size =
      (declares a).elim (.error .rejected) fun sizes => .ok (sizes.getLast?.getD h.size))
    (pos : Nat) (h : ImageHeader) :
    (walk found take .rejected .stuck (limit + 1) pos h).map ImageHeader.size =
      ((pieces found (limit + 1) pos).bind fun as => (as.mapM declares).map List.flatten).elim (.error .rejected)
        fun sizes => .ok (sizes.getLast?.getD h.size) := by
  have hrejects : ∀ h a e, take h a = .error e → e = .rejected := by
    intro h a e he
    have hsize := htake h a
    rw [he] at hsize
    cases hown : declares a with
    | none =>
      rw [hown] at hsize
      exact Except.error.inj hsize
    | some =>
      rw [hown] at hsize
      cases hsize
  rw [walk_eq hadvances hrejects (limit + 1) pos h (by omega) (by omega)]
  cases pieces found (limit + 1) pos with
  | none => rfl
  | some as => exact foldlM_size htake as h

end Pieces

/-- The size that the parser goes by. -/
def resulting (b : Bytes) (sizes : List Size) : Size :=
  match container b with
  | some .png => sizes.head?.getD ⟨0, 0⟩
  | some .avif => ⟨(sizes.foldl grow (0, 0)).1, (sizes.foldl grow (0, 0)).2⟩
  | _ => sizes.getLast?.getD ⟨0, 0⟩

theorem length_of_png {b : Bytes} (h : container b = some .png) : 24 ≤ b.length := by
  rw [container] at h
  split at h
  · rename_i hpng
    exact hpng.1
  · repeat' split at h
    all_goals cases h

theorem parsePNG_size {b : Bytes} (h : 24 ≤ b.length) :
    (parsePNG b).map ImageHeader.size =
      (pngSizes b).elim (.error .rejected) fun sizes => .ok (sizes.head?.getD ⟨0, 0⟩) := by
  rw [parsePNG, show slice b 12 16 = .ok (window b 12 4) from @slice_window b 12 4 (by omega), ok_bind,
    uint_big (by omega), ok_bind, pngSizes]
  by_cases hfirst : window b 12 4 = ascii "IHDR" ∧ bigEndian (window b 8 4) = 13
  · rw [if_neg (by rw [not_or]; exact ⟨not_not_intro hfirst.1, not_not_intro hfirst.2⟩), if_pos hfirst,
      uint_big (by omega), ok_bind, uint_big (by omega), ok_bind, pngLoop_eq_walk,
      walk_eq (pngFound_advances b) (fun h chunk e he => by
        cases (map_eq_error.2 he).symm.trans (pngChunk_size h chunk.1 chunk.2)) _ _ _ (by omega) (by omega)]
    cases pieces (pngFound b) (b.length + 1) 8 with
    | none => rfl
    | some chunks => exact foldlM_same_size (fun h chunk => pngChunk_size h chunk.1 chunk.2) chunks _
  · rw [if_pos (by rw [← not_and_or]; exact hfirst), if_neg hfirst]
    rfl

theorem parseContainer_size (b : Bytes) :
    (parseContainer b (container b)).map ImageHeader.size =
      (declared b).elim (.error .rejected) fun sizes => .ok (resulting b sizes) := by
  rw [declared]
  unfold resulting
  cases hcontainer : container b with
  | none => rfl
  | some c =>
    cases c with
    | png => exact parsePNG_size (length_of_png hcontainer)
    | webp =>
      show (webpLoop b _ 12 _).map _ = _
      rw [webpLoop_eq_walk]
      exact walk_size (webpFound_advances b) (fun h chunk => webpChunk_size h chunk.1 chunk.2) 12 _
    | jpeg =>
      show (jpegLoop b _ 2 _).map _ = _
      rw [jpegLoop_eq_walk]
      exact walk_size (jpegFound_advances b) (fun h segment => jpegSegment_size h segment.1 segment.2) 2 _
    | avif =>
      show (parseAVIF b).map _ = _
      rw [parseAVIF, avifLoop_eq _ b 0 0 (0, 0) (by omega) (by omega)]
      cases avifSizes (b.length + 1) b 0 0 with
      | none | some => rfl

theorem parseImageHeader_size (b : Bytes) :
    (parseImageHeader b).map ImageHeader.size =
      (declared b).elim (.error .rejected) fun sizes =>
        if 0 < (resulting b sizes).width ∧ 0 < (resulting b sizes).height then .ok (resulting b sizes)
        else .error .rejected := by
  have hsize := parseContainer_size b
  rw [parseImageHeader]
  cases hdeclared : declared b with
  | none =>
    rw [hdeclared] at hsize
    rw [map_eq_error.1 hsize]
    rfl
  | some =>
    rw [hdeclared] at hsize
    have ⟨h, hparse, heq⟩ := map_eq_ok.1 hsize
    rw [hparse, ok_bind, Option.elim_some, ← heq]
    by_cases hpositive : 0 < h.size.width ∧ 0 < h.size.height
    · rw [if_pos hpositive, decide_eq_true (p := 0 < h.width) hpositive.1,
        decide_eq_true (p := 0 < h.height) hpositive.2]
      rfl
    · rw [if_neg hpositive, ← Bool.decide_and, decide_eq_false (p := 0 < h.width ∧ 0 < h.height) hpositive]
      rfl

theorem accepted_size {b : Bytes} {h : ImageHeader} (haccepted : parseImageHeader b = .ok h) :
    ∃ sizes, declared b = some sizes ∧ h.size = resulting b sizes ∧ 0 < h.width ∧ 0 < h.height := by
  have hsize := parseImageHeader_size b
  rw [haccepted] at hsize
  cases hdeclared : declared b with
  | none =>
    rw [hdeclared] at hsize
    cases hsize
  | some sizes =>
    rw [hdeclared, Option.elim_some] at hsize
    split at hsize
    · rename_i hpositive
      have heq : h.size = resulting b sizes := Except.ok.inj hsize
      rw [← heq] at hpositive
      exact ⟨sizes, rfl, heq, hpositive⟩
    · cases hsize

theorem rejects_only {b : Bytes} {e : Stop} (h : parseImageHeader b = .error e) : e = .rejected := by
  have hsize := parseImageHeader_size b
  rw [h] at hsize
  cases hdeclared : declared b with
  | none =>
    rw [hdeclared] at hsize
    exact Except.error.inj hsize
  | some =>
    rw [hdeclared, Option.elim_some] at hsize
    split at hsize
    · cases hsize
    · exact Except.error.inj hsize

/-! ### What the accepted size bounds -/

theorem kept_eq_resulting {b : Bytes} {sizes : List Size} {most : Size} (h : kept b sizes = some most) :
    resulting b sizes = most := by
  unfold kept at h
  unfold resulting
  cases hcontainer : container b with
  | none =>
    rw [hcontainer] at h
    cases h
  | some c =>
    rw [hcontainer] at h
    cases c with
    | png | webp | jpeg => exact (congrArg (Option.getD · _) h :)
    | avif => cases h

theorem kept_or_fits {b : Bytes} {sizes : List Size} {s : Size} (hs : s ∈ sizes) :
    (∃ most, kept b sizes = some most) ∨ container b = none ∨ s.Fits (resulting b sizes) := by
  have hne : sizes ≠ [] := List.ne_nil_of_mem hs
  unfold kept resulting
  cases hcontainer : container b with
  | none => exact .inr (.inl rfl)
  | some c =>
    cases c with
    | png => exact .inl ⟨_, List.head?_eq_some_head hne⟩
    | webp | jpeg => exact .inl ⟨_, List.getLast?_eq_some_getLast hne⟩
    | avif => exact .inr (.inr (fits_foldl_grow (0, 0) sizes s hs))

/-- The parser never reads out of range and always ends. What it accepts bounds all of the sizes that the file
declares exactly when none of them exceeds the one that the parser keeps. -/
theorem bounds_unless_outgrown (b : Bytes) :
    parseImageHeader b ≠ .error .panicked ∧ parseImageHeader b ≠ .error .stuck ∧
      (Bounds b ↔ ¬ Outgrown b) := by
  have hpanics : parseImageHeader b ≠ .error .panicked := fun h => by cases rejects_only h
  have hstuck : parseImageHeader b ≠ .error .stuck := fun h => by cases rejects_only h
  refine ⟨hpanics, hstuck, ?_, ?_⟩
  · intro ⟨_, _, hbounds⟩ ⟨sizes, most, hdeclared, hkept, hwidth, hheight, s, hs, hexceeds⟩
    -- The kept size passes the parser, so the file is accepted with it.
    have hsize := parseImageHeader_size b
    rw [hdeclared, Option.elim_some, kept_eq_resulting hkept, if_pos ⟨hwidth, hheight⟩] at hsize
    have ⟨h, haccepted, hmost⟩ := map_eq_ok.1 hsize
    have ⟨sizes', hdeclared', hfits⟩ := hbounds h haccepted
    rw [hdeclared] at hdeclared'
    cases hdeclared'
    exact hexceeds (hmost ▸ hfits s hs)
  · intro houtgrown
    refine ⟨hpanics, hstuck, fun h haccepted => ?_⟩
    have ⟨sizes, hdeclared, hsize, hpositive⟩ := accepted_size haccepted
    refine ⟨sizes, hdeclared, fun s hs => ?_⟩
    rw [hsize]
    cases @kept_or_fits b sizes s hs with
    | inl hkept =>
      have ⟨most, hkept⟩ := hkept
      rw [← kept_eq_resulting hkept] at hkept
      have hmost : 0 < (resulting b sizes).width ∧ 0 < (resulting b sizes).height := by
        rw [← hsize]
        exact hpositive
      by_contra hexceeds
      exact houtgrown ⟨sizes, _, hdeclared, hkept, hmost.1, hmost.2, s, hs, hexceeds⟩
    | inr hrest =>
      cases hrest with
      | inl hnone =>
        unfold declared at hdeclared
        rw [hnone] at hdeclared
        cases hdeclared
      | inr hfits => exact hfits

/-- A WEBP with a canvas of 16384 by 16384 pixels and a picture of one pixel behind it. -/
def largeCanvas : Bytes :=
  ascii "RIFF" ++ [36, 0, 0, 0] ++ ascii "WEBP" ++
    ascii "VP8X" ++ [10, 0, 0, 0] ++ [0, 0, 0, 0, 0xff, 0x3f, 0, 0xff, 0x3f, 0] ++
    ascii "VP8L" ++ [5, 0, 0, 0] ++ [0x2f, 0, 0, 0, 0] ++ [0]

/-- It passes for a picture of one pixel. -/
theorem largeCanvas_looks_small :
    parseImageHeader largeCanvas = .ok ⟨"WEBP", 1, 1, 1⟩ ∧
      declared largeCanvas = some [⟨16384, 16384⟩, ⟨1, 1⟩] ∧ ¬ Bounds largeCanvas := by
  have hparsed : parseImageHeader largeCanvas = .ok ⟨"WEBP", 1, 1, 1⟩ := by decide +kernel
  have hdeclared : declared largeCanvas = some [⟨16384, 16384⟩, ⟨1, 1⟩] := by decide +kernel
  refine ⟨hparsed, hdeclared, fun ⟨_, _, hbounds⟩ => ?_⟩
  have ⟨sizes, hsizes, hfits⟩ := hbounds _ hparsed
  rw [hdeclared] at hsizes
  cases hsizes
  exact absurd (hfits ⟨16384, 16384⟩ List.mem_cons_self).1 (by decide)

end SocialActivities.Media.Headers
