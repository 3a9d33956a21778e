import SocialActivities.Roedu.Values

/-!
# `SocialActivities.Roedu.Urls`: hosts of URLs (`internal/jobs/roedu.go`, `roedu_local_poc.go`, `feeds.go`)

`publicURL` says whether a URL names a public host, `loopbackHost` whether a host is the machine itself.
Both stand on `net/url` and `net`: `parseUrl` is `url.Parse` as far as its errors, the scheme, the user,
the host, the query and the fragment go, and `parseIP` is `net.ParseIP`. A host may hold any bytes, as its
percent escapes are decoded, so it is read as UTF-8 with U+FFFD for what is none.
-/

namespace SocialActivities.Roedu

open Lib
open Snapshots (GoJson Text)

/-! ### Bytes and runes -/

/-- The value of a hexadecimal digit. -/
def hexValue (c : Char) : Option Nat :=
  if c.isDigit then some (c.toNat - '0'.toNat)
  else if 'a' ≤ c ∧ c ≤ 'f' then some (c.toNat - 'a'.toNat + 10)
  else if 'A' ≤ c ∧ c ≤ 'F' then some (c.toNat - 'A'.toNat + 10)
  else none

/-- A byte that goes on a rune. -/
def isContinuation (b : Nat) : Bool := decide (0x80 ≤ b) && decide (b < 0xC0)

/-- One rune, and the number of bytes that it takes. What is no UTF-8 is one byte of U+FFFD. -/
def decodeRune : List Nat → Char × Nat
  | [] => ('\uFFFD', 1)
  | b :: bs =>
    let low := bs.takeWhile isContinuation |>.map (· % 64)
    let rune (bits : Nat) (least : Nat) (width : Nat) : Char × Nat :=
      let code := (low.take (width - 1)).foldl (fun n d => n * 64 + d) bits
      if width - 1 ≤ low.length ∧ least ≤ code ∧ code.isValidChar then (Char.ofNat code, width)
      else ('\uFFFD', 1)
    if b < 0x80 then (Char.ofNat b, 1)
    else if 0xC2 ≤ b ∧ b < 0xE0 then rune (b - 0xC0) 0x80 2
    else if 0xE0 ≤ b ∧ b < 0xF0 then rune (b - 0xE0) 0x800 3
    else if 0xF0 ≤ b ∧ b < 0xF5 then rune (b - 0xF0) 0x10000 4
    else ('\uFFFD', 1)

/-- The runes of a string, as `range` gives them. `skip` bytes belong to the rune before. -/
def decodeRunes (skip : Nat) : List Nat → Text
  | [] => []
  | b :: bs =>
    match skip with
    | 0 => let (r, width) := decodeRune (b :: bs); r :: decodeRunes (width - 1) bs
    | skip + 1 => decodeRunes skip bs

def toLower (t : Tables) (s : Text) : Text := s.map t.lower

/-! ### IP addresses -/

/-- An address. One of version 6 that maps an address of version 4 is the latter, as for `net.IP`. -/
inductive IP where
  | v4 (address : BitVec 32)
  | v6 (address : BitVec 128)
  deriving DecidableEq

/-- An octet: decimal digits without leading zeros, up to 255. -/
def octet (s : Text) : Option Nat :=
  if s ≠ [] ∧ s.all Char.isDigit ∧ (s.head? = some '0' → s.length = 1) ∧ Feeds.decimal s ≤ 255 then
    some (Feeds.decimal s)
  else none

/-- The four octets of an address of version 4. -/
def octets (s : Text) : Option (List Nat) :=
  match Feeds.splitOn '.' s with
  | [a, b, c, d] => [a, b, c, d].mapM octet
  | _ => none

/-- A group: up to four hexadecimal digits. -/
def group (s : Text) : Option Nat :=
  if s ≠ [] ∧ s.length ≤ 4 then
    (s.mapM hexValue).map fun digits => digits.foldl (fun n d => n * 16 + d) 0
  else none

/-- Groups between colons. The last may be an address of version 4, which takes the place of two. -/
def groups (dotted : Bool) : List Text → Option (List Nat)
  | [] => some []
  | [last] =>
    match group last, octets last with
    | some n, _ => some [n]
    | none, some [a, b, c, d] => if dotted then some [a * 256 + b, c * 256 + d] else none
    | _, _ => none
  | part :: parts => do
    let n ← group part
    let ns ← groups dotted parts
    pure (n :: ns)

/-- The groups of a part of an address that may be empty. -/
def optionalGroups (dotted : Bool) (s : Text) : Option (List Nat) :=
  if s = [] then some [] else groups dotted (Feeds.splitOn ':' s)

/-- `strings.Cut`: the text before the first `part`, and the text after it. -/
def cutText (part : Text) : Text → Option (Text × Text)
  | [] => if part.isEmpty then some ([], []) else none
  | c :: s =>
    if part.isPrefixOf (c :: s) then some ([], (c :: s).drop part.length)
    else (cutText part s).map fun (before, after) => (c :: before, after)

/-- The eight groups of an address of version 6 without a zone. A `::` stands for at least one group. -/
def eightGroups (s : Text) : Option (List Nat) :=
  match cutText "::".toList s with
  | none => (groups true (Feeds.splitOn ':' s)).filter (·.length == 8)
  | some (before, after) => do
    let left ← optionalGroups false before
    let right ← optionalGroups true after
    if left.length + right.length ≤ 7 then
      some (left ++ List.replicate (8 - left.length - right.length) 0 ++ right)
    else none

/-- The number with these digits. -/
def combine (base : Nat) (digits : List Nat) : Nat := digits.foldl (fun n d => n * base + d) 0

/-- `netip.ParseAddr`: the address and its zone. -/
def parseAddr (s : Text) : Option (IP × Text) :=
  match s.find? fun c => c == '.' || c == ':' || c == '%' with
  | some '.' => (octets s).map fun ns => (.v4 (BitVec.ofNat 32 (combine 256 ns)), [])
  | some ':' =>
    match Feeds.cut '%' s with
    | some (_, []) => none
    | some (address, zone) =>
      (eightGroups address).map fun ns => (.v6 (BitVec.ofNat 128 (combine 65536 ns)), zone)
    | none => (eightGroups s).map fun ns => (.v6 (BitVec.ofNat 128 (combine 65536 ns)), [])
  | _ => none

def parseIP (s : Text) : Option IP :=
  match parseAddr s with
  | some (.v6 n, []) =>
    -- `::ffff:0:0/96` maps the addresses of version 4.
    if n.toNat / 2 ^ 32 = 0xFFFF then some (.v4 (BitVec.ofNat 32 (n.toNat % 2 ^ 32))) else some (.v6 n)
  | some (.v4 n, []) => some (.v4 n)
  | _ => none

/-- A block of addresses: those that begin with the same bits. -/
structure Block where
  first : IP
  bits : Nat

/-- `block.Contains(ip)`. -/
def Block.contains (block : Block) (ip : IP) : Bool :=
  match block.first, ip with
  | .v4 n, .v4 a => n.toNat / 2 ^ (32 - block.bits) == a.toNat / 2 ^ (32 - block.bits)
  | .v6 n, .v6 a => n.toNat / 2 ^ (128 - block.bits) == a.toNat / 2 ^ (128 - block.bits)
  | _, _ => false

/-- The block of a network of version 4. -/
def net4 (a b c d bits : Nat) : Block := ⟨.v4 (BitVec.ofNat 32 (combine 256 [a, b, c, d])), bits⟩

/-- The block of a network of version 6 that is given by its first four groups. -/
def net6 (a b c d bits : Nat) : Block := ⟨.v6 (BitVec.ofNat 128 (combine 65536 [a, b, c, d, 0, 0, 0, 0])), bits⟩

def isPrivate (ip : IP) : Bool :=
  [net4 10 0 0 0 8, net4 172 16 0 0 12, net4 192 168 0 0 16, net6 0xFC00 0 0 0 7].any (·.contains ip)

def isLoopback (ip : IP) : Bool :=
  (net4 127 0 0 0 8).contains ip || ip == .v6 1

def isLinkLocalUnicast (ip : IP) : Bool := [net4 169 254 0 0 16, net6 0xFE80 0 0 0 10].any (·.contains ip)

/-- Of version 6: the scope of the multicast address, whatever its flags are. -/
def isLinkLocalMulticast (ip : IP) : Bool :=
  (net4 224 0 0 0 24).contains ip ||
    match ip with
    | .v4 _ => false
    | .v6 n => n.toNat / 2 ^ 120 == 0xFF && n.toNat / 2 ^ 112 % 16 == 2

def isUnspecified (ip : IP) : Bool := ip == .v4 0 || ip == .v6 0

def isMulticast (ip : IP) : Bool := [net4 224 0 0 0 4, net6 0xFF00 0 0 0 8].any (·.contains ip)

def isGlobalUnicast (ip : IP) : Bool :=
  !((net4 255 255 255 255 32).contains ip || isUnspecified ip || isLoopback ip || isMulticast ip ||
    isLinkLocalUnicast ip)

def nonPublicNetworks : List Block :=
  [net4 0 0 0 0 8, net4 100 64 0 0 10, net4 192 0 0 0 24, net4 192 0 2 0 24, net4 192 88 99 0 24,
    net4 198 18 0 0 15, net4 198 51 100 0 24, net4 203 0 113 0 24, net4 240 0 0 0 4, net6 0 0 0 0 96,
    net6 0x64 0xFF9B 1 0 48, net6 0x100 0 0 0 64, net6 0x2001 0 0 0 23, net6 0x2001 0xDB8 0 0 32,
    net6 0x2002 0 0 0 16, net6 0x3FFF 0 0 0 20, net6 0xFC00 0 0 0 7, net6 0xFE80 0 0 0 10]

def publicIP (ip : IP) : Bool :=
  !(isPrivate ip || isLoopback ip || isLinkLocalUnicast ip || isLinkLocalMulticast ip || isUnspecified ip ||
    isMulticast ip || !isGlobalUnicast ip) && !nonPublicNetworks.any (·.contains ip)

/-! ### `url.Parse` -/

structure Url where
  scheme : Text
  /-- Whether there is a user. -/
  user : Bool
  host : List Nat
  rawQuery : Text
  fragment : Text

def isLetter (c : Char) : Bool := (decide ('a' ≤ c) && decide (c ≤ 'z')) || (decide ('A' ≤ c) && decide (c ≤ 'Z'))

/-- The scheme, if the text begins with one, and the rest. -/
def getScheme (s : Text) : Option (Text × Text) :=
  let inScheme (c : Char) := isLetter c || c.isDigit || c == '+' || c == '-' || c == '.'
  match s.dropWhile inScheme with
  | ':' :: rest =>
    if s.head? = some ':' then none
    else if s.head?.any isLetter then some ((s.takeWhile inScheme).map Char.toLower, rest)
    else some ([], s)
  | _ => some ([], s)

/-- Every percent sign begins an escape. -/
def escapesOk : Text → Bool
  | '%' :: a :: b :: s => (hexValue a).isSome && (hexValue b).isSome && escapesOk s
  | '%' :: _ => false
  | _ :: s => escapesOk s
  | [] => true

/-- A character that may stand in a host as it is: `!shouldEscape(c, encodeHost)`. -/
def hostChar (c : Char) : Bool :=
  isLetter c || c.isDigit || "!$&()*+,;=:[]<>-_.~".toList.contains c || c.toNat == 34 || c.toNat == 39

/-- `unescape` in a host or in its zone. -/
def unescapeHost (zone : Bool) : Text → Option (List Nat)
  | '%' :: a :: b :: s => do
    let high ← hexValue a
    let low ← hexValue b
    let v := 16 * high + low
    -- In a host only bytes that are not ASCII are escaped, in a zone only what may stand there anyway.
    let allowed := v = 0x25 || if zone then v == 0x20 || (decide (v < 128) && hostChar (Char.ofNat v))
      else decide (8 ≤ high)
    if allowed then (unescapeHost zone s).map (v :: ·) else none
  | '%' :: _ => none
  | c :: s =>
    if c.toNat < 128 && !hostChar c then none else (unescapeHost zone s).map (utf8Char c ++ ·)
  | [] => some []

/-- The text before the last `c`, and the text after it. -/
def cutLast {α : Type} [BEq α] (c : α) (s : List α) : Option (List α × List α) :=
  if s.contains c then
    some (((s.reverse.dropWhile (· != c)).drop 1).reverse, (s.reverse.takeWhile (· != c)).reverse)
  else none

def validOptionalPort : Text → Bool
  | [] => true
  | ':' :: s => s.all Char.isDigit
  | _ => false

/-- The bytes of a hostname in brackets. It is an address of version 6. -/
def literalHost (hostname : Text) : Option (List Nat) := do
  let bytes ←
    match cutText "%25".toList hostname with
    -- A zone, with the percent sign that begins it.
    | some (address, zone) => do
      let address ← unescapeHost false address
      let zone ← unescapeHost true ("%25".toList ++ zone)
      pure (address ++ zone)
    | none => unescapeHost false hostname
  match parseAddr (decodeRunes 0 bytes) with
  | some (.v6 _, _) => some bytes
  | _ => none

def parseHost (host : Text) : Option (List Nat) :=
  match host with
  | '[' :: s => do
    let (hostname, port) ← cutLast ']' s
    if s.contains '[' || !validOptionalPort port then none
    else do
      let bytes ← literalHost hostname
      let port ← unescapeHost false port
      pure ('['.toNat :: bytes ++ ']'.toNat :: port)
  | _ =>
    if host.contains '[' then none
    -- More than one colon is an error, so the first begins the port.
    else if validOptionalPort (host.dropWhile (· != ':')) then unescapeHost false host
    else none

def validUserinfo (s : Text) : Bool :=
  s.all fun c => isLetter c || c.isDigit || "-._:~!$&()*+,;=%@".toList.contains c || c.toNat == 39

/-- `parseAuthority`: whether there is a user, and the host. -/
def parseAuthority (authority : Text) : Option (Bool × List Nat) :=
  match cutLast '@' authority with
  | none => (parseHost authority).map (Prod.mk false)
  | some (user, host) =>
    if validUserinfo user && escapesOk user then (parseHost host).map (Prod.mk true) else none

/-- `url.Parse`. -/
def parseUrl (raw : Text) : Option Url :=
  let (u, fragment) := (Feeds.cut '#' raw).getD (raw, [])
  if u.any fun c => decide (c.toNat < 32) || c.toNat == 127 then none
  else do
    let (scheme, rest) ← getScheme u
    let (rest, query) := (Feeds.cut '?' rest).getD (rest, [])
    let firstSegment := rest.takeWhile (· != '/')
    let (user, host) ←
      if rest.head? ≠ some '/' then
        -- Opaque after a scheme, else a path whose first segment has no colon.
        if scheme = [] ∧ firstSegment.contains ':' then none
        else if scheme = [] ∧ !escapesOk rest then none
        else some (false, [])
      else if "//".toList.isPrefixOf rest ∧ (scheme ≠ [] ∨ !"///".toList.isPrefixOf rest) then
        let authority := (rest.drop 2).takeWhile (· != '/')
        if escapesOk (rest.drop (2 + authority.length)) then parseAuthority authority else none
      else if escapesOk rest then some (false, [])
      else none
    if escapesOk fragment then some ⟨scheme, user, host, query, fragment⟩ else none

def splitHostPort (hostPort : Text) : Text × Text :=
  let (host, port) :=
    match cutLast ':' hostPort with
    | some (host, port) => if port.all Char.isDigit then (host, port) else (hostPort, [])
    | none => (hostPort, [])
  (if host.head? = some '[' ∧ host.getLast? = some ']' then host.tail.dropLast else host, port)

def Url.hostname (u : Url) : Text := (splitHostPort (decodeRunes 0 u.host)).1

def Url.port (u : Url) : Text := (splitHostPort (decodeRunes 0 u.host)).2

/-! ### Public and loopback hosts -/

/-- A digit of `[0-9a-f]`. -/
def lowerHex (c : Char) : Bool := c.isDigit || (decide ('a' ≤ c) && decide (c ≤ 'f'))

/-- A letter of `[a-z]`. -/
def lowerLetter (c : Char) : Bool := decide ('a' ≤ c) && decide (c ≤ 'z')

def hashPattern (s : Text) : Bool := s.length == 64 && s.all lowerHex

def dnsPattern (s : Text) : Bool :=
  !s.isEmpty && decide (s.length ≤ 63) && s.all (fun c => lowerLetter c || c.isDigit || c == '-') &&
    s.head? != some '-' && s.getLast? != some '-'

/-- `^(?:0x[0-9a-f]+|[0-9]+)$`. -/
def numericLabel (s : Text) : Bool :=
  (s.take 2 == "0x".toList && decide (2 < s.length) && (s.drop 2).all lowerHex) ||
    (!s.isEmpty && s.all Char.isDigit)

/-- `^__query_sha256__=[0-9a-f]{64}$`. -/
def queryPattern (s : Text) : Bool :=
  s.take 17 == "__query_sha256__=".toList && hashPattern (s.drop 17)

/-- The suffixes of names that are not public. -/
def privateSuffixes : List Text :=
  [".localhost".toList, ".local".toList, ".internal".toList, ".home".toList, ".lan".toList, ".corp".toList,
    ".private".toList, ".home.arpa".toList]

/-- The last part of `publicURL`, on the host in lower case. -/
def publicHost (host : Text) : Bool :=
  if privateSuffixes.any (·.isSuffixOf host) then false
  else
    match parseIP host with
    | some ip => publicIP ip
    | none =>
      let labels := Feeds.splitOn '.' host
      decide (2 ≤ labels.length) && decide ((utf8 host).length ≤ 253) && labels.all dnsPattern &&
        !labels.all numericLabel

def publicURL (t : Tables) (value : GoJson) : Bool :=
  match value with
  | .string raw =>
    text value 500 false && !raw.any Safety.Go.isSpace &&
      match parseUrl raw with
      | none => false
      | some parsed =>
        !parsed.user && (parsed.scheme == "https".toList || parsed.scheme == "http".toList) &&
          parsed.fragment.isEmpty && !parsed.hostname.isEmpty && parsed.hostname.getLast? != some '.' &&
          (parsed.port.isEmpty || (Feeds.atoi parsed.port).any fun port =>
            decide (0 ≤ port) && decide (port ≤ 65535)) &&
          (parsed.rawQuery.isEmpty || queryPattern parsed.rawQuery) &&
          publicHost (toLower t parsed.hostname)
  | _ => false

def loopbackHost (t : Tables) (host : Text) : Bool :=
  equalFold t host "localhost".toList || (parseIP host).any isLoopback

end SocialActivities.Roedu
