import Mathlib.Tactic.Common

/-!
# `SocialActivities.Lib.Custody`: who answers for a stored object

A store of objects has keys that are drawn once. Jobs draw a key, store the object, and hand the key
over to a table, or they give it up. `Standing` says where one key stands: how many columns of a
table name it, how many jobs carry it (their object is stored, but no row names it yet), how many
jobs have dropped it without having queued it, and whether the object is in the store and the key in
the queue of deletions. A key is `doomed` while a job is deleting its object, and `cleared` from the
answer of the store until the job has removed the queue entry.

`Sound` says that exactly one of them answers for the object: a key has at most one place, a key with
a place is not queued, and the object of a key without a place is queued. The rules follow a key
through its life:

* `Sound.draw`: a job draws a fresh key and stores its object, or fails to.
* `Sound.pass`: the key stays in its place, or goes to another that needs no object.
* `Sound.exchange`: a transaction names what a job carries, and queues what rows no longer name.
* `Sound.discard`: a job queues what it has dropped, and goes on to delete it.
* `Sound.doom`, `Sound.erase` and `Sound.clear`: a job takes a queued key, deletes its object and
  removes the queue entry.
-/

namespace SocialActivities.Lib

/-- Where a key stands. -/
structure Standing where
  drawn : Prop
  carried : Nat
  dropped : Nat
  named : Nat
  stored : Prop
  queued : Prop
  doomed : Prop
  cleared : Prop
  doomed_of_cleared : cleared → doomed

namespace Standing

/-- The places that a key has. -/
def places (c : Standing) : Nat := c.carried + c.dropped + c.named

/-- One place, or the queue, answers for the object of the key. -/
structure Sound (c : Standing) : Prop where
  /-- A key has at most one place. -/
  single : c.places ≤ 1
  /-- The object of a key that a job carries or a row names is in the store. -/
  backed : 0 < c.carried + c.named → c.stored
  /-- A key with a place is not queued, and no job deletes its object. -/
  kept : 0 < c.places → ¬c.queued ∧ ¬c.doomed
  /-- The object of a key without a place is queued. -/
  answered : c.stored → 0 < c.places ∨ c.queued
  /-- The store has confirmed the deletion. -/
  gone : c.cleared → ¬c.stored
  /-- Nothing has happened to a key that was not drawn. -/
  fresh : ¬c.drawn → c.places = 0 ∧ ¬c.stored ∧ ¬c.queued ∧ ¬c.doomed

variable {c c' : Standing}

theorem Sound.places_of_doomed (h : Sound c) (hdoomed : c.doomed) : c.places = 0 := by
  by_contra hpos
  exact (h.kept (by omega)).2 hdoomed

theorem Sound.places_of_queued (h : Sound c) (hqueued : c.queued) : c.places = 0 := by
  by_contra hpos
  exact (h.kept (by omega)).1 hqueued

theorem Sound.drawn_of_queued (h : Sound c) (hqueued : c.queued) : c.drawn := by
  by_contra hno
  exact (h.fresh hno).2.2.1 hqueued

theorem Sound.drawn_of_doomed (h : Sound c) (hdoomed : c.doomed) : c.drawn := by
  by_contra hno
  exact (h.fresh hno).2.2.2 hdoomed

theorem Sound.drawn_of_places (h : Sound c) (hplace : 0 < c.places) : c.drawn := by
  by_contra hno
  have hnone := (h.fresh hno).1
  omega

theorem sound_of_queued (hplaces : c.places = 0) (hdrawn : c.drawn) (hqueued : c.stored → c.queued)
    (hgone : c.cleared → ¬c.stored) : Sound c := by
  constructor
  · omega
  · intro hpos
    unfold places at hplaces
    omega
  · intro hpos
    omega
  · intro hs
    exact Or.inr (hqueued hs)
  · exact hgone
  · intro hno
    exact absurd hdrawn hno

/-- A job draws the key. It carries the key if the store has confirmed the object, and drops the key
otherwise, whether the object is stored or not. -/
theorem Sound.draw (h : Sound c) (hfresh : ¬c.drawn) (hdrawn : c'.drawn)
    (hplaces : c'.places = c.places + 1) (hnamed : c'.named = c.named)
    (hstored : 0 < c'.carried → c'.stored) (hqueued : c'.queued → c.queued)
    (hdoomed : c'.doomed → c.doomed) : Sound c' := by
  have ⟨hnone, _, hnot, hsafe⟩ := h.fresh hfresh
  have hzero : c.named = 0 := by
    unfold places at hnone
    omega
  constructor
  · omega
  · intro hpos
    exact hstored (by omega)
  · intro _
    exact ⟨fun hq => hnot (hqueued hq), fun hd => hsafe (hdoomed hd)⟩
  · intro _
    exact Or.inl (by omega)
  · intro hc
    exact absurd (hdoomed (c'.doomed_of_cleared hc)) hsafe
  · intro hno
    exact absurd hdrawn hno

/-- The key stays in its place, or goes to another. One that comes to be named or carried was named or
carried before. -/
theorem Sound.pass (h : Sound c) (hdrawn : c.drawn → c'.drawn) (hplaces : c'.places = c.places)
    (hbacked : 0 < c'.carried + c'.named → 0 < c.carried + c.named) (hstored : c'.stored ↔ c.stored)
    (hqueued : c'.queued ↔ c.queued) (hdoomed : c'.doomed → c.doomed)
    (hcleared : c'.cleared → c.cleared) : Sound c' := by
  constructor
  · rw [hplaces]
    exact h.single
  · intro hpos
    exact hstored.mpr (h.backed (hbacked hpos))
  · intro hpos
    rw [hplaces] at hpos
    have ⟨hnot, hsafe⟩ := h.kept hpos
    exact ⟨fun hq => hnot (hqueued.mp hq), fun hd => hsafe (hdoomed hd)⟩
  · intro hs
    rw [hplaces, hqueued]
    exact h.answered (hstored.mp hs)
  · intro hc hs
    exact h.gone (hcleared hc) (hstored.mp hs)
  · intro hno
    have ⟨hnone, hs, hq, hd⟩ := h.fresh fun hdr => hno (hdrawn hdr)
    exact ⟨by omega, fun hs' => hs (hstored.mp hs'), fun hq' => hq (hqueued.mp hq'),
      fun hd' => hd (hdoomed hd')⟩

/-- A transaction names `taken` of what a job carries, and rows give up `given` names, which it
queues. -/
theorem Sound.exchange (h : Sound c) {taken given : Nat} (hdrawn : c.drawn → c'.drawn)
    (hcarried : c'.carried + taken = c.carried) (hdropped : c'.dropped = c.dropped)
    (hnamed : c'.named + given = c.named + taken) (hstored : c'.stored ↔ c.stored)
    (hqueued : c'.queued ↔ c.queued ∨ 0 < given) (hdoomed : c'.doomed → c.doomed)
    (hcleared : c'.cleared → c.cleared) : Sound c' := by
  have hsingle := h.single
  unfold places at hsingle
  by_cases hgiven : 0 < given
  · -- The key had its only place in the row.
    refine sound_of_queued (by unfold places; omega) (hdrawn (h.drawn_of_places ?_))
      (fun _ => hqueued.mpr (Or.inr hgiven)) fun hc hs => h.gone (hcleared hc) (hstored.mp hs)
    unfold places
    omega
  · refine h.pass hdrawn (by unfold places; omega) (by omega) hstored ?_ hdoomed hcleared
    rw [hqueued]
    exact or_iff_left hgiven

/-- A job queues `given` of what it has dropped, and goes on to delete the objects. -/
theorem Sound.discard (h : Sound c) {given : Nat} (hdrawn : c.drawn → c'.drawn)
    (hcarried : c'.carried = c.carried) (hdropped : c'.dropped + given = c.dropped)
    (hnamed : c'.named = c.named) (hstored : c'.stored ↔ c.stored)
    (hqueued : c'.queued ↔ c.queued ∨ 0 < given) (hdoomed : c'.doomed → c.doomed ∨ 0 < given)
    (hcleared : c'.cleared → c.cleared) : Sound c' := by
  have hsingle := h.single
  unfold places at hsingle
  by_cases hgiven : 0 < given
  · refine sound_of_queued (by unfold places; omega) (hdrawn (h.drawn_of_places ?_))
      (fun _ => hqueued.mpr (Or.inr hgiven)) fun hc hs => h.gone (hcleared hc) (hstored.mp hs)
    unfold places
    omega
  · refine h.pass hdrawn (by unfold places; omega) (by omega) hstored ?_
      (fun hd => (hdoomed hd).resolve_right hgiven) hcleared
    rw [hqueued]
    exact or_iff_left hgiven

theorem Sound.doom (h : Sound c) (hqueued : c.queued) (hdrawn : c.drawn → c'.drawn)
    (hplaces : c'.places = c.places) (hstill : c'.queued) (hstored : c'.stored ↔ c.stored)
    (hcleared : c'.cleared → c.cleared) : Sound c' :=
  sound_of_queued (hplaces.trans (h.places_of_queued hqueued)) (hdrawn (h.drawn_of_queued hqueued))
    (fun _ => hstill) fun hc hs => h.gone (hcleared hc) (hstored.mp hs)

theorem Sound.erase (h : Sound c) (hdoomed : c.doomed) (hdrawn : c.drawn → c'.drawn)
    (hplaces : c'.places = c.places) (hstored : ¬c'.stored) : Sound c' :=
  sound_of_queued (hplaces.trans (h.places_of_doomed hdoomed)) (hdrawn (h.drawn_of_doomed hdoomed))
    (fun hs => absurd hs hstored) fun _ => hstored

theorem Sound.clear (h : Sound c) (hclear : c.cleared) (hdrawn : c.drawn → c'.drawn)
    (hplaces : c'.places = c.places) (hstored : c'.stored ↔ c.stored) : Sound c' := by
  have hdoomed := c.doomed_of_cleared hclear
  have hgone : ¬c'.stored := fun hs => h.gone hclear (hstored.mp hs)
  exact sound_of_queued (hplaces.trans (h.places_of_doomed hdoomed))
    (hdrawn (h.drawn_of_doomed hdoomed)) (fun hs => absurd hs hgone) fun _ => hgone

end Standing

end SocialActivities.Lib
