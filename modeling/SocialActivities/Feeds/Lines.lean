import SocialActivities.Feeds.Dates
import SocialActivities.Lib.ContentLines

/-!
# `SocialActivities.Feeds.Lines`: the lines of a calendar (Go and Python)

Both parsers make line endings alike, split the text and join folded lines (`unfold`). Go's scanner gives
no empty line after the last line ending, and refuses a line of 5 MiB.

`unfold_written` says that both get back the lines that a text writes, however it is folded and whichever
line endings it has; Python may see an empty line more.
-/

namespace SocialActivities.Feeds

open Lib.ContentLines

/-- `replace("\r\n", "\n")`. -/
def replaceCrLf : Text → Text
  | '\r' :: '\n' :: s => '\n' :: replaceCrLf s
  | c :: s => c :: replaceCrLf s
  | [] => []

/-- `replace("\r", "\n")`. -/
def replaceCr (s : Text) : Text := s.map fun c => if c = '\r' then '\n' else c

/-- A physical line: it continues the line before, or begins one. -/
def unfoldLine (lines : List Text) (raw : Text) : List Text :=
  match raw with
  | c :: rest =>
    if (c = ' ' ∨ c = '\t') ∧ lines ≠ [] then lines.dropLast ++ [lines.getLastD [] ++ rest] else lines ++ [raw]
  | [] => lines ++ [raw]

/-- The lines of physical lines. -/
def unfold (physical : List Text) : List Text := physical.foldl unfoldLine []

namespace Py

/-- `_unfold`. -/
def unfoldText (text : Text) : List Text := unfold (splitOn '\n' (replaceCr (replaceCrLf text)))

end Py

namespace Go

/-- `bufio.ScanLines`: there is no line behind the last line ending. -/
def scanLines (s : Text) : List Text :=
  let lines := splitOn '\n' s
  if lines.getLastD [] = [] then lines.dropLast else lines

/-- The limit of a calendar and of a line of it, in bytes. -/
def maxBytes : Nat := 5 * 2 ^ 20

def byteLength (s : Text) : Nat := (s.map fun c => c.utf8Size).sum

/-- Why a calendar is refused. -/
inductive CalendarError where
  | body
  | line
  deriving DecidableEq

/-- The lines that `ParseICS` reads. -/
def unfoldText (raw : Text) : Except CalendarError (List Text) :=
  if maxBytes < byteLength raw then .error .body
  else
    let physical := scanLines (replaceCr (replaceCrLf raw))
    if physical.any fun line => decide (maxBytes ≤ byteLength line) then .error .line
    else .ok (unfold physical)

end Go

/-! ### Physical lines -/

variable {p : Text}

theorem replaceCrLf_append (hp : '\r' ∉ p) (s : Text) :
    replaceCrLf (p ++ s) = p ++ replaceCrLf s := by
  induction p with
  | nil => rfl
  | cons c p ih =>
    rw [List.mem_cons, not_or] at hp
    rw [List.cons_append, replaceCrLf.eq_2 _ _ fun _ h _ => hp.1 h.symm, ih hp.2, List.cons_append]

theorem replaceCr_of_clean (hp : '\r' ∉ p) : replaceCr p = p := by
  refine (List.map_congr_left (g := id) fun c hc => ?_).trans (List.map_id p)
  refine if_neg fun h => hp ?_
  rwa [← h]

variable {last : Text} {ended : List (Text × LineEnd)}

theorem replace_joined (hended : ∀ p ∈ ended, '\r' ∉ p.1) (hlast : '\r' ∉ last) :
    replaceCr (replaceCrLf (joined ended last)) = ended.flatMap (fun p => p.1 ++ ['\n']) ++ last := by
  induction ended with
  | nil =>
    have h := replaceCrLf_append hlast []
    rw [List.append_nil] at h
    show replaceCr (replaceCrLf last) = last
    rw [h, replaceCrLf, List.append_nil, replaceCr_of_clean hlast]
  | cons p ended ih =>
    have hp := hended p List.mem_cons_self
    have hrest := ih fun q hq => hended q (List.mem_cons_of_mem _ hq)
    have hjoined : joined (p :: ended) last = p.1 ++ (p.2.chars ++ joined ended last) := by
      simp only [joined, List.flatMap_cons, List.append_assoc]
    have hend : replaceCrLf (p.2.chars ++ joined ended last) = '\n' :: replaceCrLf (joined ended last) := by
      cases p.2 <;> rfl
    rw [hjoined, replaceCrLf_append hp, hend]
    show (p.1 ++ _).map _ = _
    rw [List.map_append]
    show replaceCr p.1 ++ '\n' :: replaceCr (replaceCrLf (joined ended last)) = _
    rw [replaceCr_of_clean hp, hrest, List.flatMap_cons]
    simp only [List.append_assoc, List.cons_append, List.nil_append]

theorem splitOn_ne_nil (separator : Char) (s : Text) : splitOn separator s ≠ [] := by
  cases s with
  | nil => exact List.cons_ne_nil _ _
  | cons =>
    unfold splitOn
    split
    · exact List.cons_ne_nil _ _
    · split <;> exact List.cons_ne_nil _ _

theorem splitOn_of_not_mem {separator : Char} (hp : separator ∉ p) :
    splitOn separator p = [p] := by
  induction p with
  | nil => rfl
  | cons c p ih =>
    rw [List.mem_cons, not_or] at hp
    rw [splitOn, if_neg (Ne.symm hp.1), ih hp.2]

theorem splitOn_append {separator : Char} (hp : separator ∉ p) (s : Text) :
    splitOn separator (p ++ separator :: s) = p :: splitOn separator s := by
  induction p with
  | nil => exact if_pos rfl
  | cons c p ih =>
    rw [List.mem_cons, not_or] at hp
    rw [List.cons_append, splitOn, if_neg (Ne.symm hp.1), ih hp.2]

theorem splitOn_joined (hended : ∀ p ∈ ended, '\n' ∉ p.1) (hlast : '\n' ∉ last) :
    splitOn '\n' (ended.flatMap (fun p => p.1 ++ ['\n']) ++ last) = ended.map Prod.fst ++ [last] := by
  induction ended with
  | nil => exact splitOn_of_not_mem hlast
  | cons p ended ih =>
    rw [List.flatMap_cons, List.append_assoc, List.append_assoc, List.singleton_append,
      splitOn_append (hended p List.mem_cons_self), ih fun q hq => hended q (List.mem_cons_of_mem _ hq)]
    rfl

/-! ### Folded lines -/

variable {lines : List Text}

theorem unfoldLine_first {first : Text}
    (h : ∀ c rest, first = c :: rest → c ≠ ' ' ∧ c ≠ '\t') : unfoldLine lines first = lines ++ [first] := by
  cases first with
  | nil => rfl
  | cons c rest =>
    have ⟨hspace, htab⟩ := h c rest rfl
    exact if_neg fun hblank => hblank.1.elim hspace htab

theorem unfoldLine_continuation (lines : List Text) (line : Text) (c : Continuation) :
    unfoldLine (lines ++ [line]) c.chars = lines ++ [line ++ c.text] := by
  have hblank : (if c.tab then '\t' else ' ') = ' ' ∨ (if c.tab then '\t' else ' ') = '\t' := by
    cases c.tab
    · exact Or.inl rfl
    · exact Or.inr rfl
  unfold unfoldLine Continuation.chars
  simp only [hblank, List.append_ne_nil_of_right_ne_nil _ (List.cons_ne_nil line []), ne_eq, not_false_eq_true,
    and_self, if_true, List.dropLast_concat, List.getLastD_concat]

theorem foldl_unfoldLine {physical : List Text} (h : Laid lines physical)
    (hclean : ∀ line ∈ lines, Clean line) (before : List Text) :
    physical.foldl unfoldLine before = before ++ lines := by
  induction h generalizing before with
  | nil => exact (List.append_nil before).symm
  | @cons lines physical first rest laid ih =>
    have hfirst : ∀ c tail, first = c :: tail → c ≠ ' ' ∧ c ≠ '\t' := by
      intro c tail hc
      refine (hclean _ List.mem_cons_self).start c (tail ++ rest.flatMap Continuation.text) ?_
      rw [hc]
      rfl
    have hrest : ∀ (done : Text) (rest : List Continuation),
        (rest.map Continuation.chars).foldl unfoldLine (before ++ [done]) =
          before ++ [done ++ rest.flatMap Continuation.text] := by
      intro done rest
      induction rest generalizing done with
      | nil => rw [List.map_nil, List.foldl_nil, List.flatMap_nil, List.append_nil]
      | cons c rest ihrest =>
        rw [List.map_cons, List.foldl_cons, unfoldLine_continuation, ihrest, List.flatMap_cons,
          List.append_assoc]
    rw [List.foldl_cons, unfoldLine_first hfirst, List.foldl_append, hrest,
      ih fun line hl => hclean line (List.mem_cons_of_mem _ hl), List.append_assoc]
    rfl

/-! ### Written lines -/

theorem splitOn_replace (hclean : ∀ line ∈ lines, Clean line) {last : Text}
    (hlaid : Laid lines (ended.map Prod.fst ++ [last]) ∨ last = [] ∧ Laid lines (ended.map Prod.fst)) :
    splitOn '\n' (replaceCr (replaceCrLf (joined ended last))) = ended.map Prod.fst ++ [last] := by
  have hpieces : ∀ p ∈ ended.map Prod.fst ++ [last], '\n' ∉ p ∧ '\r' ∉ p := by
    rcases hlaid with hlaid | ⟨hlast, hlaid⟩
    · exact hlaid.clean hclean
    · intro p hp
      rcases List.mem_append.mp hp with hp | hp
      · exact hlaid.clean hclean p hp
      · rw [List.mem_singleton.mp hp, hlast]
        exact ⟨List.not_mem_nil, List.not_mem_nil⟩
  have hended : ∀ p ∈ ended, '\n' ∉ p.1 ∧ '\r' ∉ p.1 := fun p hp =>
    hpieces p.1 (List.mem_append_left _ (List.mem_map_of_mem hp))
  have hlast := hpieces last (List.mem_append_right _ (List.mem_singleton_self last))
  rw [replace_joined (fun p hp => (hended p hp).2) hlast.2,
    splitOn_joined (fun p hp => (hended p hp).1) hlast.1]

theorem filter_unfold_concat (physical : List Text) :
    (unfold (physical ++ [[]])).filter (· ≠ []) = (unfold physical).filter (· ≠ []) := by
  show ((physical ++ [[]]).foldl unfoldLine []).filter _ = (physical.foldl unfoldLine []).filter _
  rw [List.foldl_append]
  show (physical.foldl unfoldLine [] ++ [[]]).filter _ = _
  rw [List.filter_append]
  exact List.append_nil _

theorem filter_unfold (hclean : ∀ line ∈ lines, Clean line) {physical : List Text}
    (hlaid : Laid lines physical ∨ ∃ before, physical = before ++ [[]] ∧ Laid lines before) :
    (unfold physical).filter (· ≠ []) = lines.filter (· ≠ []) := by
  rcases hlaid with hlaid | ⟨before, hphysical, hlaid⟩
  · unfold unfold
    rw [foldl_unfoldLine hlaid hclean, List.nil_append]
  · rw [hphysical, filter_unfold_concat]
    unfold unfold
    rw [foldl_unfoldLine hlaid hclean, List.nil_append]

theorem Py.unfold_written (hclean : ∀ line ∈ lines, Clean line) {text : Text}
    (h : Written lines text) : (Py.unfoldText text).filter (· ≠ []) = lines.filter (· ≠ []) := by
  have ⟨ended, last, htext, hlaid⟩ := h
  unfold Py.unfoldText
  rw [htext, splitOn_replace hclean hlaid]
  refine filter_unfold hclean (hlaid.imp_right fun ⟨hlast, hlaid⟩ => ?_)
  exact ⟨ended.map Prod.fst, by rw [hlast], hlaid⟩

namespace Go

theorem byteLength_cons (c : Char) (s : Text) : byteLength (c :: s) = c.utf8Size + byteLength s := rfl

theorem byteLength_replaceCrLf_le (s : Text) : byteLength (replaceCrLf s) ≤ byteLength s := by
  induction s using replaceCrLf.induct with
  | case1 s ih =>
    simp only [replaceCrLf, byteLength_cons]
    omega
  | case2 c s _ ih =>
    rw [replaceCrLf.eq_2 _ _ (by assumption), byteLength_cons, byteLength_cons]
    omega
  | case3 => exact Nat.le_refl _

theorem byteLength_replaceCr (s : Text) : byteLength (replaceCr s) = byteLength s := by
  induction s with
  | nil => rfl
  | cons c s ih =>
    have hsize : (if c = '\r' then '\n' else c).utf8Size = c.utf8Size := by
      split
      · next h =>
        rw [h]
        decide
      · rfl
    show (if c = '\r' then '\n' else c).utf8Size + byteLength (replaceCr s) = c.utf8Size + byteLength s
    rw [hsize, ih]

theorem byteLength_splitOn_le {separator : Char} {s p : Text} (h : p ∈ splitOn separator s) :
    byteLength p ≤ byteLength s := by
  induction s generalizing p with
  | nil =>
    rw [List.mem_singleton.mp h]
  | cons c s ih =>
    rw [splitOn] at h
    rw [byteLength_cons]
    split at h
    · rcases List.mem_cons.mp h with rfl | h
      · exact Nat.zero_le _
      · exact (ih h).trans (Nat.le_add_left _ _)
    · cases hsplit : splitOn separator s with
      | nil => exact absurd hsplit (splitOn_ne_nil separator s)
      | cons =>
        rw [hsplit] at h ih
        rcases List.mem_cons.mp h with rfl | h
        · exact Nat.add_le_add_left (ih List.mem_cons_self) _
        · exact (ih (List.mem_cons_of_mem _ h)).trans (Nat.le_add_left _ _)

theorem unfoldText_eq {raw : Text} (h : byteLength raw < maxBytes) :
    unfoldText raw = .ok (unfold (scanLines (replaceCr (replaceCrLf raw)))) := by
  have hlines : ((scanLines (replaceCr (replaceCrLf raw))).any fun line =>
      decide (maxBytes ≤ byteLength line)) = false := by
    rw [List.any_eq_false]
    intro line hline hlong
    have hmem : line ∈ splitOn '\n' (replaceCr (replaceCrLf raw)) := by
      unfold scanLines at hline
      dsimp only at hline
      split at hline
      · exact List.dropLast_subset _ hline
      · exact hline
    have hle := byteLength_splitOn_le hmem
    rw [byteLength_replaceCr] at hle
    have hraw := byteLength_replaceCrLf_le raw
    have hlong := of_decide_eq_true hlong
    omega
  unfold unfoldText
  dsimp only
  rw [if_neg (by omega), hlines, if_neg Bool.false_ne_true]

theorem unfold_written {lines : List Text} (hclean : ∀ line ∈ lines, Clean line) {raw : Text}
    (h : Written lines raw) (hsize : byteLength raw < maxBytes) :
    ∃ read, unfoldText raw = .ok read ∧ read.filter (· ≠ []) = lines.filter (· ≠ []) := by
  have ⟨ended, last, hraw, hlaid⟩ := h
  refine ⟨_, unfoldText_eq hsize, ?_⟩
  unfold scanLines
  rw [hraw, splitOn_replace hclean hlaid]
  dsimp only
  rw [List.getLastD_concat, List.dropLast_concat]
  split
  · next hlast =>
    subst hlast
    rw [← filter_unfold_concat]
    refine filter_unfold hclean (hlaid.imp_right fun ⟨_, hlaid⟩ => ?_)
    exact ⟨ended.map Prod.fst, rfl, hlaid⟩
  · next hlast =>
    exact filter_unfold hclean (Or.inl (hlaid.resolve_right fun hnil => hlast hnil.1))

end Go

end SocialActivities.Feeds
