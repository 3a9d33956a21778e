import SocialActivities.Social.Markup

/-!
# `SocialActivities.Social.MentionPings`: who is pinged and who is highlighted

`resolve_mentions` and `mentions` read the raw body, and `highlight_mentions` and `BodyMarkup` read
its tokens. A mention inside a token (in code, in bold or italic text or in a link) is not a token
of its own: it pings the peer, and nothing is highlighted.

`pings_agree_iff` says when ping and highlight are the same. In Go the body may also hold mentions
that directly follow one another: every other one of them pings nobody (`Mentions.lean`), and all of
them are highlighted.
-/

namespace SocialActivities.Social

open Lib.Scan (Span Pattern finditer matchAt mem_finditer_iff)

/-- No token of the body covers the position. -/
def Uncovered (m : Pattern Char Token) (body : List Char) (p : Nat) : Prop :=
  ∀ s ∈ finditer m body, ¬s.Covers p

namespace Py

/-- The loop of `resolve_mentions`: `roster` is `mention_roster`, `seen` the users found so far. -/
def resolve (lower : List Char → List Char) (roster : List Char → Option Nat)
    (excludeUser : Option Nat) : List Nat → List (List Char) → List Nat
  | _, [] => []
  | seen, token :: rest =>
    match roster (lower token) with
    | none => resolve lower roster excludeUser seen rest
    | some user =>
      if seen.contains user then resolve lower roster excludeUser seen rest
      else if excludeUser == some user then resolve lower roster excludeUser seen rest
      else user :: resolve lower roster excludeUser (user :: seen) rest

def resolveMentions (t : WordTable) (lower : List Char → List Char)
    (roster : List Char → Option Nat) (body : List Char) (excludeUser : Option Nat) : List Nat :=
  resolve lower roster excludeUser [] (pyNames t body)

/-- The peers that are pinged are the peers that are highlighted. -/
def PingsShown (t : WordTable) (lower : List Char → List Char) (roster : List Char → Option Nat)
    (allowLinks : Bool) (body : List Char) : Prop :=
  ∀ user, user ∈ resolveMentions t lower roster body none ↔
    ∃ name, Piece.mention name ∈
        highlightMentions t lower (fun key => (roster key).isSome) allowLinks body ∧
      roster (lower name) = some user

end Py

namespace Go

/-- The loop of `mentions`: the names in lower case, each one once. -/
def distinct (lower : List Char → List Char) : List (List Char) → List (List Char) → List (List Char)
  | _, [] => []
  | seen, token :: rest =>
    if seen.contains (lower token) then distinct lower seen rest
    else lower token :: distinct lower (lower token :: seen) rest

/-- The names that `mentions` looks up. -/
def mentions (t : WordTable) (lower : List Char → List Char) (body : List Char) :
    List (List Char) := distinct lower [] (goNames t body)

/-- The names that are looked up and on the roster are the names that are highlighted. -/
def PingsShown (t : WordTable) (lower : List Char → List Char) (roster : List Char → Bool)
    (allowLinks : Bool) (body : List Char) : Prop :=
  ∀ key, (key ∈ mentions t lower body ∧ roster key = true) ↔
    ∃ name, Piece.mention name ∈ bodyMarkup t lower roster allowLinks body ∧ lower name = key

end Go

section

variable {t : WordTable} {lower : List Char → List Char} {body name : List Char}

/-! ### The pings -/

theorem mem_resolve {roster : List Char → Option Nat} {excludeUser : Option Nat} {user : Nat}
    (seen : List Nat) (names : List (List Char)) :
    user ∈ Py.resolve lower roster excludeUser seen names ↔
      user ∉ seen ∧ excludeUser ≠ some user ∧ ∃ name ∈ names, roster (lower name) = some user := by
  induction names generalizing seen with
  | nil => simp [Py.resolve]
  | cons token rest ih =>
    simp only [Py.resolve, List.exists_mem_cons_iff]
    cases hroster : roster (lower token) with
    | none => simp [ih]
    | some other =>
      simp only [Option.some.injEq]
      by_cases hseen : seen.contains other = true
      · -- A peer of the list before, so not the user that is looked for.
        rw [if_pos hseen, ih]
        have hmem : other ∈ seen := List.contains_iff_mem.mp hseen
        refine and_congr_right fun hnot => and_congr_right fun _ => ?_
        have hne : other ≠ user := fun heq => hnot (heq ▸ hmem)
        simp [hne]
      · rw [if_neg hseen]
        have hnot : other ∉ seen := fun hmem => hseen (List.contains_iff_mem.mpr hmem)
        by_cases hexclude : excludeUser = some other
        · rw [if_pos (beq_iff_eq.mpr hexclude), ih]
          refine and_congr_right fun _ => and_congr_right fun hne => ?_
          have hother : other ≠ user := fun heq => hne (heq ▸ hexclude)
          simp [hother]
        · rw [if_neg (fun h => hexclude (beq_iff_eq.mp h)), List.mem_cons, ih]
          by_cases huser : user = other
          · subst huser
            simp [hnot, hexclude]
          · simp [huser, Ne.symm huser]

theorem mem_resolveMentions {roster : List Char → Option Nat} {excludeUser : Option Nat}
    {user : Nat} :
    user ∈ Py.resolveMentions t lower roster body excludeUser ↔
      excludeUser ≠ some user ∧
        ∃ p name, MentionAt t body p name ∧ roster (lower name) = some user := by
  rw [Py.resolveMentions, mem_resolve]
  simp only [List.not_mem_nil, not_false_eq_true, true_and, mem_pyNames]
  refine and_congr_right fun _ => ?_
  constructor
  · intro ⟨name, ⟨p, h⟩, hroster⟩
    exact ⟨p, name, h, hroster⟩
  · intro ⟨p, name, h, hroster⟩
    exact ⟨name, ⟨p, h⟩, hroster⟩

theorem mem_distinct {key : List Char} (seen names : List (List Char)) :
    key ∈ Go.distinct lower seen names ↔ key ∉ seen ∧ ∃ name ∈ names, lower name = key := by
  induction names generalizing seen with
  | nil => simp [Go.distinct]
  | cons token rest ih =>
    simp only [Go.distinct, List.exists_mem_cons_iff]
    by_cases hseen : seen.contains (lower token) = true
    · rw [if_pos hseen, ih]
      have hmem : lower token ∈ seen := List.contains_iff_mem.mp hseen
      refine and_congr_right fun hnot => ?_
      have hne : lower token ≠ key := fun heq => hnot (heq ▸ hmem)
      simp [hne]
    · rw [if_neg hseen, List.mem_cons, ih]
      have hnot : lower token ∉ seen := fun hmem => hseen (List.contains_iff_mem.mpr hmem)
      by_cases hkey : key = lower token
      · subst hkey
        simp [hnot]
      · simp [hkey, Ne.symm hkey]

theorem mem_mentions {key : List Char} :
    key ∈ Go.mentions t lower body ↔
      ∃ p k name, Place t body p k ∧ k % 2 = 1 ∧ MentionAt t body p name ∧ lower name = key := by
  rw [Go.mentions, mem_distinct]
  simp only [List.not_mem_nil, not_false_eq_true, true_and, mem_goNames]
  constructor
  · intro ⟨name, ⟨p, htaken⟩, hkey⟩
    obtain ⟨k, hplace⟩ := exists_place htaken.1
    exact ⟨p, k, name, hplace, (taken_iff_odd hplace htaken.1).mp htaken, htaken.1, hkey⟩
  · intro ⟨p, k, name, hplace, hodd, h, hkey⟩
    exact ⟨name, ⟨p, (taken_iff_odd hplace h).mpr hodd⟩, hkey⟩

/-! ### The highlights -/

/-- The mention tokens are the mentions that no token covers. -/
theorem mention_token_iff {m : Pattern Char Token}
    (hpos : ∀ prev text n token, m prev text = some (n, token) → 0 < n)
    (hmention : ∀ prev text n name, m prev text = some (n, Token.mention name) ↔
      t.leftFree prev = true ∧ mentionToken t text = some (n, .mention name)) :
    (∃ s ∈ finditer m body, s.value = Token.mention name) ↔
      ∃ p, MentionAt t body p name ∧ Uncovered m body p := by
  constructor
  · rintro ⟨s, hs, hvalue⟩
    obtain ⟨-, hmatch, hfree⟩ := (mem_finditer_iff hpos body s).mp hs
    rw [hvalue, matchAt, hmention] at hmatch
    have hname := mentionToken_eq_some.mp hmatch.2
    refine ⟨s.start, mentionAt_iff.mpr ⟨hmatch.1, ?_⟩, hfree⟩
    rw [hmatch.2, hname.2.2.1, Token.mention.inj hname.2.2.2]
  · rintro ⟨p, h, hfree⟩
    have hlt := (List.getElem?_eq_some_iff.mp h.sign).1
    exact ⟨⟨p, name.length + 1, .mention name⟩,
      (mem_finditer_iff hpos body _).mpr ⟨hlt, (hmention _ _ _ _).mpr (mentionAt_iff.mp h), hfree⟩,
      rfl⟩

variable {peer : List Char → Bool}

/-- The names that are highlighted. -/
theorem mention_shown_iff {m : Pattern Char Token} {render : Token → Piece}
    (hpos : ∀ prev text n token, m prev text = some (n, token) → 0 < n)
    (hmention : ∀ prev text n name, m prev text = some (n, Token.mention name) ↔
      t.leftFree prev = true ∧ mentionToken t text = some (n, .mention name))
    (hshows : ShowsPeers lower peer render) :
    Piece.mention name ∈ pieces render body 0 (finditer m body) ↔
      peer (lower name) = true ∧ ∃ p, MentionAt t body p name ∧ Uncovered m body p := by
  rw [mention_mem_pieces, ← mention_token_iff hpos hmention]
  constructor
  · intro ⟨s, hs, hrender⟩
    obtain ⟨hvalue, hpeer⟩ := (hshows.shows _ _).mp hrender
    exact ⟨hpeer, s, hs, hvalue⟩
  · intro ⟨hpeer, s, hs, hvalue⟩
    exact ⟨s, hs, (hshows.shows _ _).mpr ⟨hvalue, hpeer⟩⟩

theorem mem_highlightMentions {allowLinks : Bool} :
    Piece.mention name ∈ Py.highlightMentions t lower peer allowLinks body ↔
      peer (lower name) = true ∧
        ∃ p, MentionAt t body p name ∧ Uncovered (Py.threadMdRe t) body p :=
  mention_shown_iff Py.threadMdRe_pos (fun _ _ _ _ => Py.threadMdRe_mention)
    (Py.renderToken_shows lower peer allowLinks)

theorem mem_bodyMarkup {allowLinks : Bool} :
    Piece.mention name ∈ Go.bodyMarkup t lower peer allowLinks body ↔
      peer (lower name) = true ∧ ∃ p, MentionAt t body p name ∧ Uncovered (Go.token t) body p :=
  mention_shown_iff Go.token_pos (fun _ _ _ _ => Go.token_mention)
    (Go.renderToken_shows lower peer allowLinks)

/-! ### Ping and highlight -/

theorem Py.pingsShown_iff (roster : List Char → Option Nat) (allowLinks : Bool) :
    Py.PingsShown t lower roster allowLinks body ↔
      ∀ p name user, MentionAt t body p name → roster (lower name) = some user →
        ∃ p' name', MentionAt t body p' name' ∧ Uncovered (Py.threadMdRe t) body p' ∧
          roster (lower name') = some user := by
  simp only [Py.PingsShown, mem_resolveMentions, mem_highlightMentions]
  constructor
  · intro h p name user hmention hroster
    obtain ⟨name', ⟨-, p', hmention', hfree⟩, hroster'⟩ :=
      (h user).mp ⟨by simp, p, name, hmention, hroster⟩
    exact ⟨p', name', hmention', hfree, hroster'⟩
  · intro h user
    constructor
    · intro ⟨_, p, name, hmention, hroster⟩
      obtain ⟨p', name', hmention', hfree, hroster'⟩ := h p name user hmention hroster
      exact ⟨name', ⟨by simp [hroster'], p', hmention', hfree⟩, hroster'⟩
    · intro ⟨name, ⟨_, p, hmention, _⟩, hroster⟩
      exact ⟨by simp, p, name, hmention, hroster⟩

theorem Go.pingsShown_iff (roster : List Char → Bool) (allowLinks : Bool) :
    Go.PingsShown t lower roster allowLinks body ↔
      ∀ key, roster key = true →
        ((∃ p k name, Place t body p k ∧ k % 2 = 1 ∧ MentionAt t body p name ∧ lower name = key) ↔
          ∃ p name, MentionAt t body p name ∧ Uncovered (Go.token t) body p ∧ lower name = key) := by
  simp only [Go.PingsShown, mem_mentions, mem_bodyMarkup]
  refine forall_congr' fun key => ?_
  constructor
  · intro h hroster
    constructor
    · intro hping
      obtain ⟨name, ⟨-, p, hmention, hfree⟩, hkey⟩ := h.mp ⟨hping, hroster⟩
      exact ⟨p, name, hmention, hfree, hkey⟩
    · intro ⟨p, name, hmention, hfree, hkey⟩
      exact (h.mpr ⟨name, ⟨hkey ▸ hroster, p, hmention, hfree⟩, hkey⟩).1
  · intro h
    constructor
    · intro ⟨hping, hroster⟩
      obtain ⟨p, name, hmention, hfree, hkey⟩ := (h hroster).mp hping
      exact ⟨name, ⟨hkey ▸ hroster, p, hmention, hfree⟩, hkey⟩
    · intro ⟨name, ⟨hpeer, p, hmention, hfree⟩, hkey⟩
      rw [hkey] at hpeer
      exact ⟨(h hpeer).mpr ⟨p, name, hmention, hfree, hkey⟩, hpeer⟩

end

/-- Ping and highlight are the same on both servers exactly if, in Python, every peer with a mention
inside a token also has one outside, and, in Go, the names on the roster at odd places are those
outside a token. -/
theorem pings_agree_iff (t : WordTable) (pyLower goLower : List Char → List Char)
    (roster : List Char → Option Nat) (known : List Char → Bool) (allowLinks : Bool)
    (body : List Char) :
    (Py.PingsShown t pyLower roster allowLinks body ∧
        Go.PingsShown t goLower known allowLinks body) ↔
      (∀ p name user, MentionAt t body p name → roster (pyLower name) = some user →
        ∃ p' name', MentionAt t body p' name' ∧ Uncovered (Py.threadMdRe t) body p' ∧
          roster (pyLower name') = some user) ∧
      ∀ key, known key = true →
        ((∃ p k name, Place t body p k ∧ k % 2 = 1 ∧ MentionAt t body p name ∧
            goLower name = key) ↔
          ∃ p name, MentionAt t body p name ∧ Uncovered (Go.token t) body p ∧
            goLower name = key) :=
  and_congr (Py.pingsShown_iff roster allowLinks) (Go.pingsShown_iff known allowLinks)

/-- A roster with one peer. -/
def demoRoster (key : List Char) : Option Nat := if key = ['a'] then some 7 else none

/-- A mention in code pings the peer, and nothing is highlighted. -/
theorem mention_in_code_pings :
    ¬(Py.PingsShown asciiWords id demoRoster true ['\x60', '@', 'a', '\x60'] ∧
      Go.PingsShown asciiWords id (fun key => (demoRoster key).isSome) true
        ['\x60', '@', 'a', '\x60']) := by
  intro ⟨hpy, _⟩
  obtain ⟨name, hmem, -⟩ := (hpy 7).mp (by decide +kernel)
  have hpieces : Py.highlightMentions asciiWords id (fun key => (demoRoster key).isSome) true
      ['\x60', '@', 'a', '\x60'] = [.text [], .code ['@', 'a'], .text []] := by decide +kernel
  rw [hpieces] at hmem
  simp at hmem

end SocialActivities.Social
