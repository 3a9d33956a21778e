import Mathlib.Data.List.Basic

/-!
# `SocialActivities.Lib.Headroom`: a bounded queue that keeps room for one class

A producer offers values to a queue of bounded capacity and a consumer takes them in order. Some
values are durable. The others may be dropped, and are queued only while the queue is less than
half full.

`Faithful` is what such a queue keeps: what was taken and what is queued is, in order, a part of
what was offered, with every durable value as long as the queue is live; and at most half of the
capacity, rounded up, holds values that could have been dropped. There is one rule for each thing
that can happen to the queue: `skip`, `push`, `hand`, `take`, `mono`. `half_durable` says what the
rule leaves to the durable values of a full queue.
-/

namespace SocialActivities.Lib

variable {α : Type}

/-- What a queue keeps that admits a value that is not durable only while it is less than half
full. `live` says that the queue still takes what is offered. -/
structure Faithful (durable : α → Bool) (capacity : Nat) (live : Prop)
    (offered received queue : List α) : Prop where
  ordered : (received ++ queue).Sublist offered
  complete : live → (received ++ queue).filter durable = offered.filter durable
  bounded : queue.length ≤ capacity
  headroom : queue.countP (fun x => !durable x) ≤ (capacity + 1) / 2

namespace Faithful

variable {durable : α → Bool} {capacity : Nat} {live : Prop} {offered received queue : List α}

theorem empty : Faithful durable capacity live [] [] [] where
  ordered := List.Sublist.slnil
  complete _ := rfl
  bounded := Nat.zero_le _
  headroom := Nat.zero_le _

theorem mono {live' : Prop} (h : Faithful durable capacity live offered received queue)
    (hlive : live' → live) : Faithful durable capacity live' offered received queue :=
  ⟨h.ordered, fun hl => h.complete (hlive hl), h.bounded, h.headroom⟩

variable {x : α}

theorem skip (h : Faithful durable capacity live offered received queue)
    (hx : live → durable x = false) :
    Faithful durable capacity live (offered ++ [x]) received queue where
  ordered := h.ordered.trans (List.sublist_append_left _ _)
  complete hl := by
    have hkept := h.complete hl
    simpa [hx hl] using hkept
  bounded := h.bounded
  headroom := h.headroom

/-- A value that is queued: there is room, and more than half of it where the value is not
durable. -/
theorem push (h : Faithful durable capacity live offered received queue)
    (hroom : queue.length < capacity) (hhalf : durable x = false → 2 * queue.length < capacity) :
    Faithful durable capacity live (offered ++ [x]) received (queue ++ [x]) where
  ordered := by
    rw [← List.append_assoc]
    exact h.ordered.append (List.Sublist.refl _)
  complete hl := by
    have hkept := h.complete hl
    rw [← List.append_assoc, List.filter_append, hkept, ← List.filter_append]
  bounded := by
    rw [List.length_append, List.length_singleton]
    omega
  headroom := by
    have hbefore := h.headroom
    cases hx : durable x with
    | true => simpa [hx] using hbefore
    | false =>
      -- All that is queued lies in the first half.
      have hcount : queue.countP (fun y => !durable y) ≤ queue.length := List.countP_le_length
      have hlow := hhalf hx
      simp only [List.countP_append, List.countP_singleton, hx, Bool.not_false, if_true]
      omega

theorem hand (h : Faithful durable capacity live offered received []) (x : α) :
    Faithful durable capacity live (offered ++ [x]) (received ++ [x]) [] where
  ordered := by
    have hbefore := h.ordered
    simp only [List.append_nil] at hbefore ⊢
    exact hbefore.append (List.Sublist.refl _)
  complete hl := by
    have hkept := h.complete hl
    simp only [List.append_nil] at hkept ⊢
    rw [List.filter_append, hkept, ← List.filter_append]
  bounded := h.bounded
  headroom := h.headroom

theorem take (h : Faithful durable capacity live offered received (x :: queue)) :
    Faithful durable capacity live offered (received ++ [x]) queue where
  ordered := by
    simpa using h.ordered
  complete hl := by
    simpa using h.complete hl
  bounded := Nat.le_of_succ_le h.bounded
  headroom := by
    have hbefore := h.headroom
    rw [List.countP_cons] at hbefore
    omega

theorem half_durable (h : Faithful durable capacity live offered received queue)
    (hfull : capacity ≤ queue.length) : capacity / 2 ≤ queue.countP durable := by
  have hlow := h.headroom
  have hsplit : queue.length =
      queue.countP durable + queue.countP (fun x => !durable x) := by
    simpa using List.length_eq_countP_add_countP durable (l := queue)
  omega

end Faithful

end SocialActivities.Lib
