import SocialActivities.Feeds.Dates
import SocialActivities.Social.Mentions

/-!
# `SocialActivities.Social.Markup`: the rendering of a post body

A post body is shown with code, bold and italic text, mentions of peers and links. Both servers cut
it into tokens from left to right, escape the text of each token and the text between the tokens,
and add their own tags.

`Py.threadMdRe` is one regular expression with lookarounds. Go has none: `Go.threadTokens` is the
same list of alternatives without them, and `Go.token` is what `BodyMarkup` makes of a match. It
looks at the characters around the match, and if the closing delimiter of an italic text stands
before a word it tries the later ones. A match that fails is dropped, and the search goes on with
the next character.
-/

namespace SocialActivities.Social

open Lib.Scan (Span Pattern finditer)

/-- A token of a post body, with the text that it captures. -/
inductive Token where
  | code (inner : List Char)
  | bold (inner : List Char)
  | ital (inner : List Char)
  | italUs (inner : List Char)
  | mention (name : List Char)
  | url (raw : List Char)
  deriving DecidableEq

/-! ### The alternatives -/

/-- A code token: two backticks, and between them text without backticks and newlines. -/
def codeToken (text : List Char) : Option (Nat × Token) :=
  let inner := (text.drop 1).takeWhile fun c => c != '\x60' && c != '\n'
  if text.head? == some '\x60' && !inner.isEmpty
      && (text.drop (inner.length + 1)).head? == some '\x60' then
    some (inner.length + 2, .code inner)
  else none

/-- `\S(?:[…]*?\S)?` matches the first `n` characters; `mid` are the characters in brackets. -/
def fits (space mid : Char → Bool) (text : List Char) : Nat → Bool
  | 0 => false
  | 1 => text[0]?.any fun c => !space c
  | n + 2 => (text[0]?.any fun c => !space c) && (text[n + 1]?.any fun c => !space c)
      && ((text.drop 1).take n).all mid

/-- The length that `\S(?:[…]*?\S)?` matches before a text that `closes`. The group is tried first,
from the shortest length on, and then left out. -/
def emphasis (space mid : Char → Bool) (closes : List Char → Bool) (text : List Char) : Option Nat :=
  (List.range' 2 text.length ++ [1]).find? fun n => fits space mid text n && closes (text.drop n)

/-- A bold token: an emphasis between double asterisks. -/
def boldToken (space : Char → Bool) (text : List Char) : Option (Nat × Token) :=
  if ['*', '*'].isPrefixOf text then
    (emphasis space (fun c => c != '\n') (fun rest => ['*', '*'].isPrefixOf rest) (text.drop 2)).map
      fun n => (n + 4, .bold ((text.drop 2).take n))
  else none

/-- The characters in the brackets of an italic token. -/
def italMid (delimiter : Char) (c : Char) : Bool := c != delimiter && c != '\n'

/-- An italic token: an emphasis between two delimiters. `ends` accepts what follows. -/
def italToken (space : Char → Bool) (delimiter : Char) (ends : Option Char → Bool)
    (make : List Char → Token) (text : List Char) : Option (Nat × Token) :=
  if text.head? == some delimiter then
    (emphasis space (italMid delimiter)
      (fun rest => rest.head? == some delimiter && ends rest.tail.head?) (text.drop 1)).map
      fun n => (n + 2, make ((text.drop 1).take n))
  else none

/-- A mention token, without its left context. -/
def mentionToken (t : WordTable) (text : List Char) : Option (Nat × Token) :=
  let name := t.nameOf (text.drop 1)
  if text.head? == some '@' && !name.isEmpty then some (name.length + 1, .mention name) else none

/-- The length of `https?://`, if the text starts with it. -/
def urlScheme (text : List Char) : Nat :=
  if "https://".toList.isPrefixOf text then 8
  else if "http://".toList.isPrefixOf text then 7 else 0

/-- A link: `https?://` and what follows it, up to white space or `<`. -/
def urlToken (space : Char → Bool) (text : List Char) : Option (Nat × Token) :=
  let scheme := urlScheme text
  let tail := (text.drop scheme).takeWhile fun c => !space c && c != '<'
  if scheme != 0 && !tail.isEmpty then
    some (scheme + tail.length, .url (text.take (scheme + tail.length)))
  else none

/-- The characters that the italic token with this delimiter may not have around it. -/
def WordTable.glued (t : WordTable) (delimiter c : Char) : Bool :=
  t.word c || (delimiter == '*' && c == '*')

/-- `\s` of Go. -/
def goSpace (c : Char) : Bool := c == '\t' || c == '\n' || c == '\x0c' || c == '\r' || c == ' '

/-! ### The tokens of the two servers -/

def Py.threadMdRe (t : WordTable) : Pattern Char Token := fun prev text =>
  let italic delimiter make :=
    if prev.any (t.glued delimiter) then none
    else italToken Safety.Py.isSpace delimiter (fun c => !c.any (t.glued delimiter)) make text
  (codeToken text).or <| (boldToken Safety.Py.isSpace text).or <| (italic '*' .ital).or <|
    (italic '_' .italUs).or <|
    (if t.leftFree prev then mentionToken t text else none).or <| urlToken Safety.Py.isSpace text

def Go.threadTokens (t : WordTable) (text : List Char) : Option (Nat × Token) :=
  let italic delimiter make := italToken goSpace delimiter (fun _ => true) make text
  (codeToken text).or <| (boldToken goSpace text).or <| (italic '*' .ital).or <|
    (italic '_' .italUs).or <| (mentionToken t text).or <| urlToken goSpace text

/-- The length of an italic text after the later delimiters of the line were tried. `rest` is the
text after the opening delimiter, and `n` the length up to the first closing one. -/
def Go.laterEnd (t : WordTable) (delimiter : Char) (rest : List Char) (n : Nat) : Nat :=
  let line := (rest.drop (n + 1)).takeWhile fun c => c != '\n'
  ((List.range' (n + 1) line.length).find? fun k =>
    rest[k]? == some delimiter && !rest[k + 1]?.any (t.glued delimiter)
      && fits goSpace (italMid delimiter) rest k).getD n

/-- The gate of an italic match: its length, after the later delimiters. -/
def Go.italic (t : WordTable) (delimiter : Char) (prev : Option Char) (rest : List Char) (n : Nat) :
    Option Nat :=
  let end' :=
    if rest[n + 1]?.any (t.glued delimiter) && !prev.any (t.glued delimiter) then
      Go.laterEnd t delimiter rest n
    else n
  if prev.any (t.glued delimiter) || rest[end' + 1]?.any (t.glued delimiter) then none
  else some end'

/-- What `BodyMarkup` makes of a match at a position. -/
def Go.token (t : WordTable) : Pattern Char Token := fun prev text =>
  match Go.threadTokens t text with
  | none => none
  | some (_, .ital inner) =>
    (Go.italic t '*' prev (text.drop 1) inner.length).map
      fun n => (n + 2, .ital ((text.drop 1).take n))
  | some (_, .italUs inner) =>
    (Go.italic t '_' prev (text.drop 1) inner.length).map
      fun n => (n + 2, .italUs ((text.drop 1).take n))
  | some (n, .mention name) => if t.leftFree prev then some (n, .mention name) else none
  | some found => some found

/-! ### The rendering -/

/-- A piece of a rendered body. -/
inductive Piece where
  | text (raw : List Char)
  | code (inner : List Char)
  | strong (inner : List Char)
  | em (inner : List Char)
  | mention (name : List Char)
  | link (href shown trail : List Char)
  deriving DecidableEq

/-- The tokens as `render` shows them, and the text between them, from a position on. -/
def pieces (render : Token → Piece) (body : List Char) : Nat → List (Span Token) → List Piece
  | last, [] => [.text (body.drop last)]
  | last, s :: rest =>
    .text ((body.drop last).take (s.start - last)) :: render s.value ::
      pieces render body s.stop rest

/-- A link without the punctuation at its end, and that punctuation (`_URL_TRAILING`). -/
def urlTrailing (raw : List Char) : List Char × List Char :=
  let trail := (raw.reverse.takeWhile fun c => ".,;:!?".toList.contains c).reverse
  (raw.take (raw.length - trail.length), trail)

def Py.safeExternalUrl (lower : List Char → List Char) (value : List Char) : List Char :=
  let candidate := Feeds.strip value
  if "http://".toList.isPrefixOf (lower candidate) || "https://".toList.isPrefixOf (lower candidate)
  then candidate else []

/-- A token as `highlight_mentions` renders it. `peer` looks a name up in the roster. -/
def Py.renderToken (lower : List Char → List Char) (peer : List Char → Bool) (allowLinks : Bool) :
    Token → Piece
  | .code inner => .code inner
  | .bold inner => .strong inner
  | .ital inner | .italUs inner => .em inner
  | .mention name => if peer (lower name) then .mention name else .text ('@' :: name)
  | .url raw =>
    let (shown, trail) := urlTrailing raw
    let safe := if allowLinks then Py.safeExternalUrl lower shown else []
    if safe.isEmpty then .text raw else .link safe shown trail

/-- A token as `BodyMarkup` renders it. -/
def Go.renderToken (lower : List Char → List Char) (peer : List Char → Bool) (allowLinks : Bool) :
    Token → Piece
  | .code inner => .code inner
  | .bold inner => .strong inner
  | .ital inner | .italUs inner => .em inner
  | .mention name => if peer (lower name) then .mention name else .text ('@' :: name)
  | .url raw =>
    let (shown, trail) := urlTrailing raw
    if allowLinks && !shown.isEmpty then .link shown shown trail else .text raw

/-- The pieces of `highlight_mentions`. -/
def Py.highlightMentions (t : WordTable) (lower : List Char → List Char) (peer : List Char → Bool)
    (allowLinks : Bool) (body : List Char) : List Piece :=
  pieces (Py.renderToken lower peer allowLinks) body 0 (finditer (Py.threadMdRe t) body)

/-- The pieces of `BodyMarkup`. -/
def Go.bodyMarkup (t : WordTable) (lower : List Char → List Char) (peer : List Char → Bool)
    (allowLinks : Bool) (body : List Char) : List Piece :=
  pieces (Go.renderToken lower peer allowLinks) body 0 (finditer (Go.token t) body)

/-! ### Facts about the tokens -/

section

variable {t : WordTable} {space : Char → Bool} {body text rest name : List Char}
  {prev : Option Char} {p n : Nat} {token : Token}

theorem codeToken_eq_some (h : codeToken text = some (n, token)) :
    0 < n ∧ ∃ inner, token = .code inner := by
  simp only [codeToken] at h
  split at h
  · cases h
    exact ⟨Nat.succ_pos _, _, rfl⟩
  · cases h

theorem boldToken_eq_some (h : boldToken space text = some (n, token)) :
    0 < n ∧ ∃ inner, token = .bold inner := by
  simp only [boldToken] at h
  split at h
  · obtain ⟨k, -, hk⟩ := Option.map_eq_some_iff.mp h
    cases hk
    exact ⟨Nat.succ_pos _, _, rfl⟩
  · cases h

theorem italToken_eq_some {delimiter : Char} {ends : Option Char → Bool}
    {make : List Char → Token} (h : italToken space delimiter ends make text = some (n, token)) :
    0 < n ∧ ∃ inner, token = make inner := by
  simp only [italToken] at h
  split at h
  · obtain ⟨k, -, hk⟩ := Option.map_eq_some_iff.mp h
    cases hk
    exact ⟨Nat.succ_pos _, _, rfl⟩
  · cases h

theorem urlToken_eq_some (h : urlToken space text = some (n, token)) :
    0 < n ∧ ∃ raw, token = .url raw := by
  simp only [urlToken] at h
  split at h
  · rename_i hcond
    cases h
    rw [Bool.and_eq_true, bne_iff_ne] at hcond
    exact ⟨Nat.add_pos_left (Nat.pos_of_ne_zero hcond.1) _, _, rfl⟩
  · cases h

theorem mentionToken_eq_some :
    mentionToken t text = some (n, token) ↔
      text.head? = some '@' ∧ t.nameOf (text.drop 1) ≠ [] ∧
        n = (t.nameOf (text.drop 1)).length + 1 ∧ token = .mention (t.nameOf (text.drop 1)) := by
  simp only [mentionToken]
  split
  · rename_i hcond
    rw [Bool.and_eq_true, beq_iff_eq, Bool.not_eq_true', List.isEmpty_eq_false_iff] at hcond
    constructor
    · intro h
      cases h
      exact ⟨hcond.1, hcond.2, rfl, rfl⟩
    · intro ⟨_, _, hn, htoken⟩
      rw [hn, htoken]
  · rename_i hcond
    rw [Bool.and_eq_true, beq_iff_eq, Bool.not_eq_true', List.isEmpty_eq_false_iff] at hcond
    simp only [reduceCtorEq, false_iff, not_and]
    intro hhead hname
    exact absurd ⟨hhead, hname⟩ hcond

theorem at_sign (h : text.head? = some '@') :
    codeToken text = none ∧ boldToken space text = none ∧ urlToken space text = none ∧
      ∀ delimiter ends make, delimiter ≠ '@' →
        italToken space delimiter ends make text = none := by
  cases text with
  | nil => cases h
  | cons c =>
    obtain rfl : c = '@' := Option.some.inj h
    refine ⟨by simp [codeToken], by simp [boldToken], by simp [urlToken, urlScheme], ?_⟩
    intro delimiter ends make hne
    simp [italToken, hne.symm]

theorem mentionAt_iff :
    MentionAt t body p name ↔
      t.leftFree (Lib.Scan.before body p) = true ∧
        mentionToken t (body.drop p) = some (name.length + 1, .mention name) := by
  rw [mentionToken_eq_some, List.head?_drop, List.drop_drop]
  constructor
  · intro h
    exact ⟨h.left, h.sign, h.name_eq ▸ h.nonempty, by rw [h.name_eq], by rw [h.name_eq]⟩
  · intro ⟨hleft, hsign, hne, _, hname⟩
    have heq := (Token.mention.inj hname).symm
    exact ⟨hsign, hleft, heq, heq ▸ hne⟩

theorem Py.threadMdRe_pos (prev : Option Char) (text : List Char) (n : Nat) (token : Token)
    (h : Py.threadMdRe t prev text = some (n, token)) : 0 < n := by
  simp only [Py.threadMdRe, Option.or_eq_some_iff] at h
  rcases h with h | ⟨-, h | ⟨-, h | ⟨-, h | ⟨-, h | ⟨-, h⟩⟩⟩⟩⟩
  · exact (codeToken_eq_some h).1
  · exact (boldToken_eq_some h).1
  · split at h
    · cases h
    · exact (italToken_eq_some h).1
  · split at h
    · cases h
    · exact (italToken_eq_some h).1
  · split at h
    · rw [(mentionToken_eq_some.mp h).2.2.1]
      exact Nat.succ_pos _
    · cases h
  · exact (urlToken_eq_some h).1

theorem Py.threadMdRe_mention :
    Py.threadMdRe t prev text = some (n, .mention name) ↔
      t.leftFree prev = true ∧ mentionToken t text = some (n, .mention name) := by
  constructor
  · intro h
    simp only [Py.threadMdRe, Option.or_eq_some_iff] at h
    rcases h with h | ⟨-, h | ⟨-, h | ⟨-, h | ⟨-, h | ⟨-, h⟩⟩⟩⟩⟩
    · obtain ⟨-, inner, hinner⟩ := codeToken_eq_some h
      cases hinner
    · obtain ⟨-, inner, hinner⟩ := boldToken_eq_some h
      cases hinner
    · split at h
      · cases h
      · obtain ⟨-, inner, hinner⟩ := italToken_eq_some h
        cases hinner
    · split at h
      · cases h
      · obtain ⟨-, inner, hinner⟩ := italToken_eq_some h
        cases hinner
    · split at h
      · rename_i hleft
        exact ⟨hleft, h⟩
      · cases h
    · obtain ⟨-, raw, hraw⟩ := urlToken_eq_some h
      cases hraw
  · intro ⟨hleft, h⟩
    have hhead := (mentionToken_eq_some.mp h).1
    obtain ⟨hcode, hbold, -, hital⟩ := @at_sign Safety.Py.isSpace text hhead
    simp [Py.threadMdRe, hcode, hbold, hital, hleft, h]

theorem Go.threadTokens_pos (h : Go.threadTokens t text = some (n, token)) : 0 < n := by
  simp only [Go.threadTokens, Option.or_eq_some_iff] at h
  rcases h with h | ⟨-, h | ⟨-, h | ⟨-, h | ⟨-, h | ⟨-, h⟩⟩⟩⟩⟩
  · exact (codeToken_eq_some h).1
  · exact (boldToken_eq_some h).1
  · exact (italToken_eq_some h).1
  · exact (italToken_eq_some h).1
  · rw [(mentionToken_eq_some.mp h).2.2.1]
    exact Nat.succ_pos _
  · exact (urlToken_eq_some h).1

theorem Go.threadTokens_mention :
    Go.threadTokens t text = some (n, .mention name) ↔
      mentionToken t text = some (n, .mention name) := by
  constructor
  · intro h
    simp only [Go.threadTokens, Option.or_eq_some_iff] at h
    rcases h with h | ⟨-, h | ⟨-, h | ⟨-, h | ⟨-, h | ⟨-, h⟩⟩⟩⟩⟩
    · obtain ⟨-, inner, hinner⟩ := codeToken_eq_some h
      cases hinner
    · obtain ⟨-, inner, hinner⟩ := boldToken_eq_some h
      cases hinner
    · obtain ⟨-, inner, hinner⟩ := italToken_eq_some h
      cases hinner
    · obtain ⟨-, inner, hinner⟩ := italToken_eq_some h
      cases hinner
    · exact h
    · obtain ⟨-, raw, hraw⟩ := urlToken_eq_some h
      cases hraw
  · intro h
    have hhead := (mentionToken_eq_some.mp h).1
    obtain ⟨hcode, hbold, -, hital⟩ := @at_sign goSpace text hhead
    simp [Go.threadTokens, hcode, hbold, hital, h]

theorem Go.token_pos (prev : Option Char) (text : List Char) (n : Nat) (token : Token)
    (h : Go.token t prev text = some (n, token)) : 0 < n := by
  simp only [Go.token] at h
  split at h
  · cases h
  · obtain ⟨k, -, hk⟩ := Option.map_eq_some_iff.mp h
    cases hk
    exact Nat.succ_pos _
  · obtain ⟨k, -, hk⟩ := Option.map_eq_some_iff.mp h
    cases hk
    exact Nat.succ_pos _
  · rename_i htoken
    split at h
    · cases h
      exact Go.threadTokens_pos htoken
    · cases h
  · rename_i htoken
    rw [h] at htoken
    exact Go.threadTokens_pos htoken

theorem Go.token_mention :
    Go.token t prev text = some (n, .mention name) ↔
      t.leftFree prev = true ∧ mentionToken t text = some (n, .mention name) := by
  rw [← Go.threadTokens_mention]
  simp only [Go.token]
  split
  · rename_i hnone
    simp [hnone]
  · rename_i htoken
    simp [htoken]
  · rename_i htoken
    simp [htoken]
  · rename_i k other htoken
    rw [htoken]
    split
    · rename_i hleft
      simp [hleft]
    · rename_i hleft
      simp [hleft]
  · rename_i found hital hitalUs hmention htoken
    rw [htoken]
    constructor
    · intro h
      cases h
      exact (hmention n name rfl).elim
    · intro ⟨_, h⟩
      exact h

theorem mention_mem_pieces {render : Token → Piece} {spans : List (Span Token)} (last : Nat) :
    Piece.mention name ∈ pieces render body last spans ↔
      ∃ s ∈ spans, render s.value = .mention name := by
  induction spans generalizing last with
  | nil => simp [pieces]
  | cons s rest ih =>
    simp only [pieces, List.mem_cons, reduceCtorEq, false_or, ih, exists_eq_or_imp]
    exact or_congr eq_comm Iff.rfl

end

/-- A rendering shows a mention exactly where the name is in the roster. -/
structure ShowsPeers (lower : List Char → List Char) (peer : List Char → Bool)
    (render : Token → Piece) : Prop where
  shows : ∀ token name, render token = .mention name ↔
    token = .mention name ∧ peer (lower name) = true

theorem Py.renderToken_shows (lower : List Char → List Char) (peer : List Char → Bool)
    (allowLinks : Bool) : ShowsPeers lower peer (Py.renderToken lower peer allowLinks) where
  shows token name := by
    cases token with
    | mention =>
      simp only [Py.renderToken]
      split
      · rename_i hpeer
        constructor
        · intro h
          cases h
          exact ⟨rfl, hpeer⟩
        · intro ⟨h, _⟩
          cases h
          rfl
      · rename_i hpeer
        constructor
        · intro h
          cases h
        · intro ⟨h, hshown⟩
          cases h
          exact absurd hshown hpeer
    | url =>
      simp only [Py.renderToken]
      generalize (if allowLinks = true then _ else _) = safe
      split <;> simp
    | code | bold | ital | italUs => simp [Py.renderToken]

theorem Go.renderToken_shows (lower : List Char → List Char) (peer : List Char → Bool)
    (allowLinks : Bool) : ShowsPeers lower peer (Go.renderToken lower peer allowLinks) where
  shows token name := by
    cases token with
    | mention other => exact (Py.renderToken_shows lower peer allowLinks).shows (.mention other) name
    | url =>
      simp only [Go.renderToken]
      split <;> simp
    | code | bold | ital | italUs => simp [Go.renderToken]

end SocialActivities.Social
