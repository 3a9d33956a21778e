import Mathlib.Data.List.Basic
import SocialActivities.Lib.Checked

/-!
# `SocialActivities.Lib.Pieces`: a format that is walked piece by piece

Many formats are a row of pieces, each of which says where the next one starts. `found` says what stands at a
position. The pieces of the input are a list (`pieces`), and a loop takes each of them in as it comes to it
(`walk`). Where a piece always ends after it starts (`Advances`), the loop is the fold over that list
(`walk_eq`): it never runs out of fuel, and it fails on a broken piece only.
-/

namespace SocialActivities.Lib

variable {α σ ε : Type}

/-- What stands at a position: the end, a piece that is cut off, or a piece and the position after it. -/
inductive Found (α : Type) where
  | ending
  | broken
  | piece (a : α) (next : Nat)

/-- The pieces from a position on, if none of them is broken. -/
def pieces (found : Nat → Found α) : Nat → Nat → Option (List α)
  | 0, _ => none
  | fuel + 1, pos =>
    match found pos with
    | .ending => some []
    | .broken => none
    | .piece a next => (pieces found fuel next).map (a :: ·)

/-- The loop over the pieces. -/
def walk (found : Nat → Found α) (take : σ → α → Except ε σ) (broken stuck : ε) : Nat → Nat → σ → Except ε σ
  | 0, _, _ => .error stuck
  | fuel + 1, pos, s =>
    match found pos with
    | .ending => .ok s
    | .broken => .error broken
    | .piece a next => take s a >>= walk found take broken stuck fuel next

/-- A piece starts before the end of the input, and the next one starts after it. -/
def Advances (found : Nat → Found α) (limit : Nat) : Prop :=
  ∀ pos a next, found pos = .piece a next → pos < limit ∧ pos < next

theorem error_of_seq {x : Except ε α} {e : ε} {f : α → Except ε σ} (hx : ∀ e', x = .error e' → e' = e)
    (hf : ∀ a, f a = .error e) : (x >>= f) = .error e := by
  cases x with
  | error e' => exact congrArg Except.error (hx e' rfl)
  | ok a => exact hf a

theorem walk_eq {found : Nat → Found α} {take : σ → α → Except ε σ} {broken stuck : ε} {limit : Nat}
    (hadvances : Advances found limit) (htake : ∀ s a e, take s a = .error e → e = broken) (fuel pos : Nat)
    (s : σ) (hpositive : 0 < fuel) (hfuel : limit < pos + fuel) :
    walk found take broken stuck fuel pos s =
      (pieces found fuel pos).elim (.error broken) fun as => as.foldlM take s := by
  -- A piece brings the position on by one at least, so what is left of the fuel is still enough.
  induction fuel generalizing pos s with
  | zero => omega
  | succ fuel ih =>
    rw [walk, pieces]
    cases hfound : found pos with
    | ending | broken => rfl
    | piece a next =>
      have ⟨hstart, hnext⟩ := hadvances pos a next hfound
      have hrest : ∀ s, walk found take broken stuck fuel next s = _ := fun s =>
        ih next s (by omega) (by omega)
      show (take s a >>= walk found take broken stuck fuel next) =
        ((pieces found fuel next).map (a :: ·)).elim (.error broken) fun as => as.foldlM take s
      cases hpieces : pieces found fuel next with
      | none =>
        refine error_of_seq (htake s a) fun s' => ?_
        rw [hrest s', hpieces]
        rfl
      | some as =>
        show _ = (a :: as).foldlM take s
        rw [List.foldlM_cons]
        refine congrArg (take s a >>= ·) (funext fun s' => ?_)
        rw [hrest s', hpieces]
        rfl

end SocialActivities.Lib
