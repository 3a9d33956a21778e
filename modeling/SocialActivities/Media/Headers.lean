import Mathlib.Data.List.Basic
import SocialActivities.Lib.Checked

/-!
# `SocialActivities.Media.Headers`: the headers of an image (`internal/media/headers.go`)

`parseImageHeader` reads the size of an image from its headers, before a codec sees it. It walks the chunks
of a PNG or a WEBP, the segments of a JPEG and the boxes of an AVIF. An index or a slice that is out of range
is a panic, and a loop that has not come to its end when its fuel is gone is stuck. An `int` has 64 bits.
-/

namespace SocialActivities.Media.Headers

open Lib

abbrev Bytes := List UInt8

/-- How the parser fails. -/
inductive Stop where
  /-- `ErrRejected`. -/
  | rejected
  | panicked
  | stuck
  deriving DecidableEq

structure ImageHeader where
  format : String
  width : Nat
  height : Nat
  orientation : Nat
  deriving DecidableEq

/-! ### Bytes -/

/-- `b[lo:hi]`. -/
def slice (b : Bytes) (lo hi : Nat) : Except Stop Bytes :=
  if lo ≤ hi ∧ hi ≤ b.length then .ok ((b.take hi).drop lo) else .error .panicked

/-- `b[i]`. -/
def index (b : Bytes) (i : Nat) : Except Stop UInt8 := b[i]?.elim (.error .panicked) .ok

def bigEndian (b : Bytes) : Nat := b.foldl (fun n c => 256 * n + c.toNat) 0

def littleEndian (b : Bytes) : Nat := bigEndian b.reverse

/-- The bytes of an ASCII text. -/
def ascii (s : String) : Bytes := s.toList.map fun c => UInt8.ofNat c.toNat

/-- `string(b[i:i+len(word)]) == word`, where the bytes are there. -/
def hasAt (b : Bytes) (i : Nat) (word : Bytes) : Bool := (b.drop i).take word.length == word

inductive ByteOrder where
  | little
  | big
  deriving DecidableEq

def ByteOrder.number : ByteOrder → Bytes → Nat
  | .little => littleEndian
  | .big => bigEndian

/-- `order.Uint16(b[i:i+2])`, and the wider ones. -/
def uint (order : ByteOrder) (size : Nat) (b : Bytes) (i : Nat) : Except Stop Nat := do
  let field ← slice b i (i + size)
  pure (order.number field)

/-! ### The orientation -/

/-- The entries of the directory, from one on. -/
def exifEntries (order : ByteOrder) (b : Bytes) (offset : Nat) : Nat → Except Stop Nat
  | 0 => .ok 1
  | n + 1 => do
    let p ← slice b offset (offset + 12)
    let tag ← uint order 2 p 0
    let type ← uint order 2 p 2
    let count ← uint order 4 p 4
    let v ← uint order 2 p 8
    if tag = 0x112 ∧ type = 3 ∧ count = 1 ∧ 1 ≤ v ∧ v ≤ 8 then .ok v
    else exifEntries order b (offset + 12) n

/-- `exifOrientation`, when the byte order is known. -/
def exifDirectory (order : ByteOrder) (b : Bytes) : Except Stop Nat := do
  let magic ← uint order 2 b 2
  if magic ≠ 42 then .ok 1
  else do
    let offset ← uint order 4 b 4
    if offset < 8 ∨ b.length < offset + 2 then .ok 1
    else do
      let n ← uint order 2 b offset
      if 512 < n ∨ (b.length - (offset + 2)) / 12 < n then .ok 1
      else exifEntries order b (offset + 2) n

def exifOrientation (b : Bytes) : Except Stop Nat :=
  if b.length < 8 then .ok 1
  else if hasAt b 0 (ascii "II") then exifDirectory .little b
  else if hasAt b 0 (ascii "MM") then exifDirectory .big b
  else .ok 1

/-- The header with the orientation of some EXIF data. -/
def oriented (h : ImageHeader) (exif : Bytes) : Except Stop ImageHeader := do
  let orientation ← exifOrientation exif
  pure { h with orientation }

def exifPrefix : Bytes := ascii "Exif" ++ [0, 0]

/-! ### PNG -/

/-- A chunk of a PNG, once its first header has been read. -/
def pngChunk (h : ImageHeader) (tag data : Bytes) : Except Stop ImageHeader :=
  if tag = ascii "eXIf" then oriented h data else .ok h

def pngLoop (b : Bytes) : Nat → Nat → ImageHeader → Except Stop ImageHeader
  | 0, _, _ => .error .stuck
  | fuel + 1, pos, h =>
    if pos + 12 ≤ b.length then do
      let n ← uint .big 4 b pos
      if b.length - pos - 12 < n then .ok h
      else do
        let tag ← slice b (pos + 4) (pos + 8)
        let data ← slice b (pos + 8) (pos + 8 + n)
        let h ← pngChunk h tag data
        pngLoop b fuel (pos + n + 12) h
    else .ok h

def parsePNG (b : Bytes) : Except Stop ImageHeader := do
  let tag ← slice b 12 16
  let length ← uint .big 4 b 8
  if tag ≠ ascii "IHDR" ∨ length ≠ 13 then .error .rejected
  else do
    let width ← uint .big 4 b 16
    let height ← uint .big 4 b 20
    pngLoop b (b.length + 1) 8 ⟨"PNG", width, height, 1⟩

/-! ### WEBP -/

/-- A chunk of a WEBP. -/
def webpChunk (h : ImageHeader) (tag chunk : Bytes) : Except Stop ImageHeader :=
  if tag = ascii "VP8X" then do
    need .rejected (decide (10 ≤ chunk.length))
    let width ← uint .little 3 chunk 4
    let height ← uint .little 3 chunk 7
    pure { h with width := 1 + width, height := 1 + height }
  else if tag = ascii "VP8 " then do
    need .rejected (decide (10 ≤ chunk.length) && hasAt chunk 3 [0x9d, 0x01, 0x2a])
    let width ← uint .little 2 chunk 6
    let height ← uint .little 2 chunk 8
    pure { h with width := width % 0x4000, height := height % 0x4000 }
  else if tag = ascii "VP8L" then do
    need .rejected (decide (5 ≤ chunk.length) && hasAt chunk 0 [0x2f])
    let x ← uint .little 4 chunk 1
    pure { h with width := x % 0x4000 + 1, height := x / 0x4000 % 0x4000 + 1 }
  else if tag = ascii "EXIF" then
    oriented h (if 6 < chunk.length ∧ hasAt chunk 0 exifPrefix then chunk.drop 6 else chunk)
  else .ok h

def webpLoop (b : Bytes) : Nat → Nat → ImageHeader → Except Stop ImageHeader
  | 0, _, _ => .error .stuck
  | fuel + 1, pos, h =>
    if pos + 8 ≤ b.length then do
      let n ← uint .little 4 b (pos + 4)
      let start := pos + 8
      if b.length - start < n then .error .rejected
      else do
        let chunk ← slice b start (start + n)
        let tag ← slice b pos (pos + 4)
        let h ← webpChunk h tag chunk
        webpLoop b fuel (start + n + n % 2) h
    else .ok h

/-! ### JPEG -/

/-- `for pos < len(b) && b[pos] == 0xff { pos++ }`. -/
def skipFill (b : Bytes) (pos : Nat) : Nat := pos + ((b.drop pos).takeWhile (· == 0xff)).length

/-- The markers of the frames. -/
def isFrame (marker : UInt8) : Bool :=
  (0xc0 ≤ marker && marker ≤ 0xc3) || (0xc5 ≤ marker && marker ≤ 0xc7) ||
    (0xc9 ≤ marker && marker ≤ 0xcb) || (0xcd ≤ marker && marker ≤ 0xcf)

/-- A marker without a segment. -/
def standsAlone (marker : UInt8) : Bool := marker == 0x01 || (0xd0 ≤ marker && marker ≤ 0xd7)

/-- A segment of a JPEG. -/
def jpegSegment (h : ImageHeader) (marker : UInt8) (seg : Bytes) : Except Stop ImageHeader :=
  if marker = 0xe1 ∧ 6 < seg.length ∧ hasAt seg 0 exifPrefix then oriented h (seg.drop 6)
  else if isFrame marker then do
    need .rejected (decide (6 ≤ seg.length))
    let height ← uint .big 2 seg 1
    let width ← uint .big 2 seg 3
    pure { h with width, height }
  else .ok h

def jpegLoop (b : Bytes) : Nat → Nat → ImageHeader → Except Stop ImageHeader
  | 0, _, _ => .error .stuck
  | fuel + 1, pos, h =>
    if pos + 4 ≤ b.length then do
      let first ← index b pos
      if first ≠ 0xff then .error .rejected
      else
        let pos := skipFill b pos
        if b.length ≤ pos then .ok h
        else do
          let marker ← index b pos
          let pos := pos + 1
          if marker = 0xd9 ∨ marker = 0xda then .ok h
          else if standsAlone marker then jpegLoop b fuel pos h
          else if b.length < pos + 2 then .error .rejected
          else do
            let n ← uint .big 2 b pos
            if n < 2 ∨ b.length - pos < n then .error .rejected
            else do
              let seg ← slice b (pos + 2) (pos + n)
              let h ← jpegSegment h marker seg
              jpegLoop b fuel (pos + n) h
    else .ok h

/-! ### AVIF -/

def isAVIF (b : Bytes) : Bool :=
  decide (16 ≤ b.length) && hasAt b 4 (ascii "ftyp") &&
    let n := bigEndian (b.take 4)
    decide (16 ≤ n) && decide (n ≤ b.length) &&
      (hasAt b 8 (ascii "avif") || hasAt b 8 (ascii "avis") ||
        (List.range ((n - 16) / 4)).any fun i => hasAt b (16 + 4 * i) (ascii "avif") || hasAt b (16 + 4 * i) (ascii "avis"))

/-- The length of a box and of its head. -/
def boxLength (b : Bytes) (pos : Nat) : Except Stop (Nat × Nat) := do
  let n ← uint .big 4 b pos
  if n = 1 then
    if b.length < pos + 16 then .error .rejected
    else do
      let n ← uint .big 8 b (pos + 8)
      pure (n, 16)
  else if n = 0 then pure (b.length - pos, 8)
  else pure (n, 8)

/-- The size that a box of type `ispe` adds. -/
def boxSize (typ body : Bytes) (most : Nat × Nat) : Except Stop (Nat × Nat) :=
  if typ = ascii "ispe" then do
    need .rejected (decide (12 ≤ body.length))
    let width ← uint .big 4 body 4
    let height ← uint .big 4 body 8
    pure (max most.1 width, max most.2 height)
  else .ok most

/-- The boxes inside of a box, if it has some. -/
def innerBoxes (typ body : Bytes) : Except Stop (Option Bytes) :=
  if typ = ascii "meta" then do
    need .rejected (decide (4 ≤ body.length))
    pure (some (body.drop 4))
  else if typ = ascii "iprp" ∨ typ = ascii "ipco" then .ok (some body)
  else .ok none

/-- The loop of `avifDimensions`, at most 16 levels deep. -/
def avifLoop : Nat → Bytes → Nat → Nat → Nat × Nat → Except Stop (Nat × Nat)
  | 0, _, _, _, _ => .error .stuck
  | fuel + 1, b, depth, pos, most =>
    if pos + 8 ≤ b.length then do
      let (n, head) ← boxLength b pos
      if n < head ∨ b.length - pos < n then .error .rejected
      else do
        let typ ← slice b (pos + 4) (pos + 8)
        let body ← slice b (pos + head) (pos + n)
        let most ← boxSize typ body most
        match ← innerBoxes typ body with
        | none => avifLoop fuel b depth (pos + n) most
        | some inner =>
          if 16 < depth + 1 then .error .rejected
          else do
            let (width, height) ← avifLoop fuel inner (depth + 1) 0 (0, 0)
            avifLoop fuel b depth (pos + n) (max most.1 width, max most.2 height)
    else .ok most

def parseAVIF (b : Bytes) : Except Stop ImageHeader := do
  let (width, height) ← avifLoop (b.length + 1) b 0 0 (0, 0)
  pure ⟨"AVIF", width, height, 1⟩

/-! ### The parser -/

inductive Container where
  | png
  | webp
  | jpeg
  | avif
  deriving DecidableEq

def pngSignature : Bytes := 0x89 :: (ascii "PNG" ++ [0x0d, 0x0a, 0x1a, 0x0a])

/-- The branches of `parseImageHeader`. -/
def container (b : Bytes) : Option Container :=
  if 24 ≤ b.length ∧ hasAt b 0 pngSignature then some .png
  else if 12 ≤ b.length ∧ hasAt b 0 (ascii "RIFF") ∧ hasAt b 8 (ascii "WEBP") then some .webp
  else if 4 ≤ b.length ∧ hasAt b 0 [0xff, 0xd8] then some .jpeg
  else if isAVIF b then some .avif
  else none

def parseContainer (b : Bytes) : Option Container → Except Stop ImageHeader
  | some .png => parsePNG b
  | some .webp => webpLoop b (b.length + 1) 12 ⟨"WEBP", 0, 0, 1⟩
  | some .jpeg => jpegLoop b (b.length + 1) 2 ⟨"JPEG", 0, 0, 1⟩
  | some .avif => parseAVIF b
  | none => .error .rejected

def parseImageHeader (b : Bytes) : Except Stop ImageHeader := do
  let h ← parseContainer b (container b)
  need .rejected (decide (0 < h.width) && decide (0 < h.height))
  pure h

end SocialActivities.Media.Headers
