import SocialActivities.Lib.Scan

/-!
# `SocialActivities.Social.Mentions`: the names that a post mentions

A mention is a `@` with a name, not glued to a word or another `@`. `MENTION_RE` of the Python
services says so with a lookbehind. `mentionPattern` of the Go server has none, so it consumes the
character before the `@`: and a mention whose left neighbour belongs to the mention before it is
not found.

`MentionAt` is a mention at a position of the text. Python finds all of them (`mem_pyNames`). Of
mentions that directly follow one another Go finds every other one, the first, the third and so on
(`taken_iff_odd`). `names_agree_iff` says when the names are the same anyway.

The word characters are the letters, the numbers and the underscore of the Unicode tables, in both
languages (`WordTable`).
-/

namespace SocialActivities.Social

open Lib.Scan (Span Pattern before finditer matchAt mem_finditer_iff)

/-- The word characters: `\w` of Python, and letters, numbers and the underscore in Go. -/
structure WordTable where
  word : Char → Bool
  ascii : ∀ c : Char, c.toNat < 128 → word c = (c.isAlphanum || c == '_')

namespace WordTable

variable (t : WordTable)

/-- A character of a name. -/
def nameChar (c : Char) : Bool := t.word c || c == '.' || c == '-'

/-- The name at the start of a text: up to 150 characters, as many as there are. -/
def nameOf (text : List Char) : List Char := (text.takeWhile t.nameChar).take 150

/-- A mention may stand after this character. -/
def leftFree (prev : Option Char) : Bool := prev.all fun c => !t.word c && c != '@'

end WordTable

variable (t : WordTable)

/-- `MENTION_RE`, and the name that it captures. -/
def mentionRe : Pattern Char (List Char) := fun prev text =>
  match text with
  | [] => none
  | c :: rest =>
    if c == '@' && t.leftFree prev && !(t.nameOf rest).isEmpty then
      some ((t.nameOf rest).length + 1, t.nameOf rest)
    else none

/-- `mentionPattern`: at the start of the text, or with the character before the mention. -/
def mentionPattern : Pattern Char (List Char) := fun prev text =>
  match text with
  | [] => none
  | c :: rest =>
    if prev.isNone && c == '@' && !(t.nameOf rest).isEmpty then
      some ((t.nameOf rest).length + 1, t.nameOf rest)
    else if !t.word c && c != '@' then
      match rest with
      | [] => none
      | d :: rest =>
        if d == '@' && !(t.nameOf rest).isEmpty then
          some ((t.nameOf rest).length + 2, t.nameOf rest)
        else none
    else none

/-- `MENTION_RE.findall(body)`. -/
def pyNames (body : List Char) : List (List Char) :=
  (finditer (mentionRe t) body).map Span.value

/-- The names of `mentionPattern.FindAllStringSubmatch(body, -1)`. -/
def goNames (body : List Char) : List (List Char) :=
  (finditer (mentionPattern t) body).map Span.value

/-- A mention at a position of the text, and its name. -/
structure MentionAt (body : List Char) (p : Nat) (name : List Char) : Prop where
  sign : body[p]? = some '@'
  left : t.leftFree (before body p) = true
  name_eq : t.nameOf (body.drop (p + 1)) = name
  nonempty : name ≠ []

/-- The place of a mention among mentions that directly follow one another, counted from one. -/
inductive Place (body : List Char) : Nat → Nat → Prop where
  | first (p : Nat) (name : List Char) (h : MentionAt t body p name)
    (hfree : ∀ q other, MentionAt t body q other → q + 1 + other.length ≠ p) : Place body p 1
  | next (q : Nat) (other : List Char) (p : Nat) (name : List Char) (k : Nat)
    (hplace : Place body q k) (hends : MentionAt t body q other) (heq : q + 1 + other.length = p)
    (h : MentionAt t body p name) : Place body p (k + 1)

section

variable {t} {body name other : List Char} {p q n k : Nat}

/-! ### Mentions in the text -/

theorem word_at (t : WordTable) : t.nameChar '@' = false := by
  have hword : t.word '@' = false := by
    rw [t.ascii '@' (by decide)]
    decide
  simp [WordTable.nameChar, hword]

theorem drop_of_getElem? {c : Char} (h : body[p]? = some c) :
    body.drop p = c :: body.drop (p + 1) := by
  obtain ⟨hlt, rfl⟩ := List.getElem?_eq_some_iff.mp h
  exact List.drop_eq_getElem_cons hlt

theorem getElem?_of_drop {c : Char} {rest : List Char} (h : body.drop p = c :: rest) :
    body[p]? = some c ∧ rest = body.drop (p + 1) := by
  have hget : (body.drop p)[0]? = some c := by rw [h]; rfl
  rw [List.getElem?_drop, Nat.add_zero] at hget
  refine ⟨hget, ?_⟩
  rw [drop_of_getElem? hget] at h
  exact (List.cons.inj h).2.symm

theorem MentionAt.name_unique (h : MentionAt t body p name) (h' : MentionAt t body p other) :
    name = other := h.name_eq.symm.trans h'.name_eq

theorem MentionAt.length_pos (h : MentionAt t body p name) : 0 < name.length :=
  List.length_pos_of_ne_nil h.nonempty

theorem MentionAt.not_inside (h : MentionAt t body p name) (h' : MentionAt t body q other)
    (hlt : p < q) : p + 1 + name.length ≤ q := by
  by_contra hin
  have hprefix : name <+: body.drop (p + 1) := by
    rw [← h.name_eq]
    exact (List.take_prefix _ _).trans (List.takeWhile_prefix _)
  have hchars : ∀ c ∈ name, t.nameChar c = true := by
    rw [← h.name_eq]
    intro c hc
    exact List.all_eq_true.mp List.all_takeWhile c (List.mem_of_mem_take hc)
  -- The sign would be a character of the name.
  have hget : name[q - (p + 1)]? = some '@' := by
    obtain ⟨rest, hrest⟩ := hprefix
    rw [← List.getElem?_append_left (show q - (p + 1) < name.length by omega), hrest,
      List.getElem?_drop, show p + 1 + (q - (p + 1)) = q by omega]
    exact h'.sign
  have hname := hchars '@' (List.mem_of_getElem? hget)
  rw [word_at] at hname
  cases hname

theorem MentionAt.start_unique (h : MentionAt t body p name) (h' : MentionAt t body q other)
    (heq : p + 1 + name.length = q + 1 + other.length) : p = q := by
  have hp := h.length_pos
  have hq := h'.length_pos
  rcases Nat.lt_trichotomy p q with hlt | hsame | hgt
  · have hle := h.not_inside h' hlt
    omega
  · exact hsame
  · have hle := h'.not_inside h hgt
    omega

/-! ### Python -/

theorem matchAt_mentionRe :
    matchAt (mentionRe t) body p = some (n, name) ↔
      MentionAt t body p name ∧ n = name.length + 1 := by
  rw [matchAt]
  constructor
  · intro h
    cases hdrop : body.drop p with
    | nil =>
      rw [hdrop] at h
      cases h
    | cons =>
      rw [hdrop] at h
      obtain ⟨hget, hrest⟩ := getElem?_of_drop hdrop
      simp only [mentionRe] at h
      split at h
      · rename_i hcond
        simp only [Bool.and_eq_true, beq_iff_eq, Bool.not_eq_true', List.isEmpty_eq_false_iff] at hcond
        obtain ⟨⟨rfl, hleft⟩, hname⟩ := hcond
        cases h
        exact ⟨⟨hget, hleft, by rw [hrest], hname⟩, rfl⟩
      · cases h
  · rintro ⟨h, hn⟩
    rw [drop_of_getElem? h.sign]
    simp only [mentionRe, h.left, h.name_eq]
    simp [h.nonempty, hn]

theorem mentionRe_pos (prev : Option Char) (text : List Char) (n : Nat) (name : List Char)
    (h : mentionRe t prev text = some (n, name)) : 0 < n := by
  cases text with
  | nil => cases h
  | cons =>
    simp only [mentionRe] at h
    split at h
    · cases h
      exact Nat.succ_pos _
    · cases h

theorem mem_pyNames : name ∈ pyNames t body ↔ ∃ p, MentionAt t body p name := by
  rw [pyNames, List.mem_map]
  constructor
  · rintro ⟨s, hs, rfl⟩
    obtain ⟨-, hmatch, -⟩ := (mem_finditer_iff mentionRe_pos body s).mp hs
    exact ⟨s.start, (matchAt_mentionRe.mp hmatch).1⟩
  · intro ⟨p, h⟩
    refine ⟨⟨p, name.length + 1, name⟩, (mem_finditer_iff mentionRe_pos body _).mpr ⟨?_, ?_, ?_⟩, rfl⟩
    · exact (List.getElem?_eq_some_iff.mp h.sign).1
    · exact matchAt_mentionRe.mpr ⟨h, rfl⟩
    · -- A match that covers the sign would have it in its name.
      intro s hs ⟨hlt, hstop⟩
      obtain ⟨-, hmatch, -⟩ := (mem_finditer_iff mentionRe_pos body s).mp hs
      obtain ⟨hother, hlength⟩ := matchAt_mentionRe.mp hmatch
      have hle := hother.not_inside h hlt
      simp only [Span.stop] at hstop
      omega

/-! ### Go -/

theorem before_succ (body : List Char) (p : Nat) : before body (p + 1) = body[p]? := by
  simp [before]

theorem matchAt_mentionPattern :
    matchAt (mentionPattern t) body p = some (n, name) ↔
      (p = 0 ∧ MentionAt t body 0 name ∧ n = name.length + 1) ∨
        (MentionAt t body (p + 1) name ∧ n = name.length + 2) := by
  rw [matchAt]
  constructor
  · intro h
    cases hdrop : body.drop p with
    | nil =>
      rw [hdrop] at h
      cases h
    | cons c rest =>
      rw [hdrop] at h
      obtain ⟨hget, hrest⟩ := getElem?_of_drop hdrop
      simp only [mentionPattern] at h
      split at h
      · rename_i hcond
        simp only [Bool.and_eq_true, beq_iff_eq, Bool.not_eq_true', List.isEmpty_eq_false_iff] at hcond
        obtain ⟨⟨hstart, rfl⟩, hname⟩ := hcond
        cases h
        have hp : p = 0 := by
          by_contra hne
          obtain ⟨j, rfl⟩ := Nat.exists_eq_succ_of_ne_zero hne
          have hlt := (List.getElem?_eq_some_iff.mp hget).1
          rw [Nat.succ_eq_add_one, before_succ, List.getElem?_eq_getElem (by omega)] at hstart
          cases hstart
        subst hp
        exact Or.inl ⟨rfl, ⟨hget, rfl, by rw [hrest], hname⟩, rfl⟩
      · split at h
        · rename_i hfree
          cases rest with
          | nil => cases h
          | cons =>
            obtain ⟨hsign, hlater⟩ := getElem?_of_drop hrest.symm
            simp only at h
            split at h
            · rename_i hcond
              simp only [Bool.and_eq_true, beq_iff_eq, Bool.not_eq_true',
                List.isEmpty_eq_false_iff] at hcond
              obtain ⟨rfl, hname⟩ := hcond
              cases h
              refine Or.inr ⟨⟨hsign, ?_, by rw [hlater], hname⟩, rfl⟩
              rw [before_succ, hget]
              exact hfree
            · cases h
        · cases h
  · rintro (⟨rfl, h, hn⟩ | ⟨h, hn⟩)
    · rw [drop_of_getElem? h.sign]
      simp only [mentionPattern, h.name_eq]
      simp [before, h.nonempty, hn]
    · have hlt := (List.getElem?_eq_some_iff.mp h.sign).1
      obtain ⟨c, hget⟩ : ∃ c, body[p]? = some c :=
        ⟨_, List.getElem?_eq_getElem (show p < body.length by omega)⟩
      have hleft := h.left
      rw [before_succ, hget] at hleft
      have hfree : (!t.word c && c != '@') = true := hleft
      have hc : (c == '@') = false := by
        rw [Bool.and_eq_true] at hfree
        simpa using hfree.2
      rw [drop_of_getElem? hget, drop_of_getElem? h.sign]
      simp only [mentionPattern, h.name_eq, hfree, hc]
      simp [h.nonempty, hn]

theorem mentionPattern_pos (prev : Option Char) (text : List Char) (n : Nat) (name : List Char)
    (h : mentionPattern t prev text = some (n, name)) : 0 < n := by
  cases text with
  | nil => cases h
  | cons c rest =>
    simp only [mentionPattern] at h
    split at h
    · cases h
      exact Nat.succ_pos _
    · split at h
      · cases rest with
        | nil => cases h
        | cons =>
          simp only at h
          split at h
          · cases h
            exact Nat.succ_pos _
          · cases h
      · cases h

/-- Go finds this mention. -/
def Taken (t : WordTable) (body : List Char) (p : Nat) (name : List Char) : Prop :=
  MentionAt t body p name ∧ ∃ s ∈ finditer (mentionPattern t) body,
    s.value = name ∧ s.stop = p + 1 + name.length ∧ s.start = p - 1

theorem exists_taken {s : Span (List Char)} (hs : s ∈ finditer (mentionPattern t) body) :
    ∃ p, Taken t body p s.value ∧ s.stop = p + 1 + s.value.length ∧ s.start = p - 1 := by
  obtain ⟨-, hmatch, -⟩ := (mem_finditer_iff mentionPattern_pos body s).mp hs
  rcases matchAt_mentionPattern.mp hmatch with ⟨hstart, h, hn⟩ | ⟨h, hn⟩
  · have hstop : s.stop = 0 + 1 + s.value.length := by simp only [Span.stop]; omega
    exact ⟨0, ⟨h, s, hs, rfl, hstop, hstart⟩, hstop, hstart⟩
  · have hstop : s.stop = s.start + 1 + 1 + s.value.length := by simp only [Span.stop]; omega
    exact ⟨s.start + 1, ⟨h, s, hs, rfl, hstop, rfl⟩, hstop, rfl⟩

theorem mem_goNames : name ∈ goNames t body ↔ ∃ p, Taken t body p name := by
  rw [goNames, List.mem_map]
  constructor
  · rintro ⟨s, hs, rfl⟩
    obtain ⟨p, htaken, -⟩ := exists_taken hs
    exact ⟨p, htaken⟩
  · intro ⟨p, htaken⟩
    obtain ⟨-, s, hs, hvalue, -⟩ := htaken
    exact ⟨s, hs, hvalue⟩

theorem taken_iff (h : MentionAt t body p name) :
    Taken t body p name ↔ ∀ q other, Taken t body q other → q + 1 + other.length ≠ p := by
  constructor
  · intro ⟨_, s, hs, hvalue, hstop, hstart⟩ q other ⟨hq, s', hs', hvalue', hstop', hstart'⟩ heq
    -- The character before the mention is inside the other match.
    have hpos := hq.length_pos
    refine ((mem_finditer_iff mentionPattern_pos body s).mp hs).2.2 s' hs' ⟨?_, ?_⟩
    · omega
    · omega
  · intro hfree
    have hlt := (List.getElem?_eq_some_iff.mp h.sign).1
    have huncovered : ∀ s ∈ finditer (mentionPattern t) body, ¬s.Covers (p - 1) := by
      intro s hs ⟨hbefore, hafter⟩
      obtain ⟨q, htaken, hstop, hstart⟩ := exists_taken hs
      have hne := hfree q s.value htaken
      have hle := htaken.1.not_inside h (by omega)
      omega
    rcases Nat.eq_zero_or_pos p with rfl | hp
    · have hmem : (⟨0, name.length + 1, name⟩ : Span (List Char)) ∈
          finditer (mentionPattern t) body :=
        (mem_finditer_iff mentionPattern_pos body _).mpr
          ⟨hlt, matchAt_mentionPattern.mpr (Or.inl ⟨rfl, h, rfl⟩), huncovered⟩
      exact ⟨h, _, hmem, rfl, by simp only [Span.stop]; omega, rfl⟩
    · have hsucc : p - 1 + 1 = p := by omega
      have hmem : (⟨p - 1, name.length + 2, name⟩ : Span (List Char)) ∈
          finditer (mentionPattern t) body :=
        (mem_finditer_iff mentionPattern_pos body _).mpr
          ⟨by simp only; omega, matchAt_mentionPattern.mpr (Or.inr ⟨by rwa [hsucc], rfl⟩), huncovered⟩
      exact ⟨h, _, hmem, rfl, by simp only [Span.stop]; omega, rfl⟩

/-! ### Mentions that directly follow one another -/

theorem exists_place (h : MentionAt t body p name) : ∃ k, Place t body p k := by
  induction p using Nat.strongRecOn generalizing name with
  | _ p ih =>
    by_cases hfree : ∀ q other, MentionAt t body q other → q + 1 + other.length ≠ p
    · exact ⟨1, Place.first p name h hfree⟩
    · simp only [not_forall, not_not] at hfree
      obtain ⟨q, other, hq, heq⟩ := hfree
      obtain ⟨k, hplace⟩ := ih q (by omega) hq
      exact ⟨k + 1, Place.next q other p name k hplace hq heq h⟩

theorem taken_iff_odd (hplace : Place t body p k) (h : MentionAt t body p name) :
    Taken t body p name ↔ k % 2 = 1 := by
  induction hplace generalizing name with
  | first p name' h' hfree =>
    exact iff_of_true ((taken_iff h).mpr fun q other hq => hfree q other hq.1) rfl
  | next q other p name' k hplace hends heq h' ih =>
    -- The mention that ends right before it is the one of the place before.
    have hprev : (∀ q' other', Taken t body q' other' → q' + 1 + other'.length ≠ p) ↔
        ¬Taken t body q other := by
      constructor
      · intro hall htaken
        exact hall q other htaken heq
      · intro hnot q' other' htaken hends'
        have hsame := htaken.1.start_unique hends (hends'.trans heq.symm)
        subst hsame
        exact hnot (htaken.1.name_unique hends ▸ htaken)
    rw [taken_iff h, hprev, ih hends]
    omega

end

/-- The two servers find the same names exactly if every name at an even place among mentions that
directly follow one another is also at an odd place somewhere. -/
theorem names_agree_iff (body : List Char) :
    (∀ name, name ∈ goNames t body ↔ name ∈ pyNames t body) ↔
      ∀ p k name, Place t body p k → k % 2 = 0 → MentionAt t body p name →
        ∃ p' k', Place t body p' k' ∧ k' % 2 = 1 ∧ MentionAt t body p' name := by
  constructor
  · intro h p k name hplace heven hmention
    obtain ⟨p', htaken⟩ := mem_goNames.mp ((h name).mpr (mem_pyNames.mpr ⟨p, hmention⟩))
    obtain ⟨k', hplace'⟩ := exists_place htaken.1
    exact ⟨p', k', hplace', (taken_iff_odd hplace' htaken.1).mp htaken, htaken.1⟩
  · intro h name
    rw [mem_goNames, mem_pyNames]
    constructor
    · intro ⟨p, htaken⟩
      exact ⟨p, htaken.1⟩
    · intro ⟨p, hmention⟩
      obtain ⟨k, hplace⟩ := exists_place hmention
      rcases Nat.mod_two_eq_zero_or_one k with heven | hodd
      · obtain ⟨p', k', hplace', hodd', hmention'⟩ := h p k name hplace heven hmention
        exact ⟨p', (taken_iff_odd hplace' hmention').mpr hodd'⟩
      · exact ⟨p, (taken_iff_odd hplace hmention).mpr hodd⟩

/-- A table with the word characters of ASCII alone. -/
def asciiWords : WordTable where
  word c := c.isAlphanum || c == '_'
  ascii _ _ := rfl

/-- `@a.@b`: the dot belongs to the first name, so Go has no character for the second mention. -/
theorem adjacent_mention_missed :
    ¬∀ name, name ∈ goNames asciiWords ['@', 'a', '.', '@', 'b'] ↔
      name ∈ pyNames asciiWords ['@', 'a', '.', '@', 'b'] := by
  intro h
  have hpy : ['b'] ∈ pyNames asciiWords ['@', 'a', '.', '@', 'b'] := by decide +kernel
  have hgo : ['b'] ∉ goNames asciiWords ['@', 'a', '.', '@', 'b'] := by decide +kernel
  exact hgo ((h ['b']).mpr hpy)

end SocialActivities.Social
