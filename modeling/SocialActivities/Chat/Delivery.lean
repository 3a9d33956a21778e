import SocialActivities.Chat.Broker
import SocialActivities.Lib.Headroom
import SocialActivities.Lib.Machine

/-!
# `SocialActivities.Chat.Delivery`: what a subscriber receives

`live_delivery` proves it for every run of the broker. What a subscription has received and what
its queue holds is, in order, a part of the matching events dispatched since it subscribed, and as
long as it is in the map no durable event is missing. Typing events fill at most half of a queue,
rounded up. So only a durable event that finds the queue full of at least half its capacity of
durable events, rounded down, closes a subscription.

`Inv` is the invariant. Each subscription is `Faithful` to the events offered to it, which are the
dispatched ones up to the one under way, if the loop is past the subscription (`Broker.current`).
Between the length check and the `select` statement the queue can only become shorter, so the
check still holds at the send (`Turn.low`).

With an odd capacity the two halves differ: a queue of one event takes a typing event and has then
no room for a durable one (`odd_queue`).
-/

namespace SocialActivities.Chat

open Lib
open Lib.Machine (run steps)

namespace Dispatch

/-- The loop is not past the subscription. -/
def Ahead (d : Dispatch) (id : Nat) : Prop := id ∈ d.rest ∨ d.sending = some id

instance (d : Dispatch) (id : Nat) : Decidable (d.Ahead id) :=
  inferInstanceAs (Decidable (id ∈ d.rest ∨ d.sending = some id))

end Dispatch

namespace Broker

/-- The event under way, if the loop is past the subscription. -/
def current (b : Broker) (id : Nat) : List Event :=
  match b.dispatching with
  | none => []
  | some d => if d.Ahead id then [] else [d.event]

/-- The matching events dispatched to a subscription so far. -/
def offered (b : Broker) (id : Nat) (s : Subscription) : List Event :=
  (b.dispatched.drop s.since ++ b.current id).filter s.matching

theorem current_idle {b : Broker} (h : b.dispatching = none) (id : Nat) : b.current id = [] := by
  rw [current, h]

theorem current_ahead {b : Broker} {d : Dispatch} {id : Nat} (h : b.dispatching = some d)
    (hid : d.Ahead id) : b.current id = [] := by
  rw [current, h]
  exact if_pos hid

theorem current_past {b : Broker} {d : Dispatch} {id : Nat} (h : b.dispatching = some d)
    (hid : ¬d.Ahead id) : b.current id = [d.event] := by
  rw [current, h]
  exact if_neg hid

/-! ### What the writes change -/

variable (b : Broker) (id : Nat) (f : Subscription → Subscription)

@[simp] theorem update_subscribers : (b.update id f).subscribers = b.subscribers := by
  unfold update
  split <;> rfl

@[simp] theorem update_dispatching : (b.update id f).dispatching = b.dispatching := by
  unfold update
  split <;> rfl

@[simp] theorem update_dispatched : (b.update id f).dispatched = b.dispatched := by
  unfold update
  split <;> rfl

@[simp] theorem update_current (j : Nat) : (b.update id f).current j = b.current j := by
  show (match (b.update id f).dispatching with | none => [] | some d => _) = _
  rw [update_dispatching]
  rfl

theorem get?_update (j : Nat) : (b.update id f).objects.get? j =
    if j = id then (b.objects.get? id).map f else b.objects.get? j := by
  unfold update
  split
  · next hnone =>
    split
    · next heq => rw [heq, hnone, Option.map_none]
    · rfl
  · next s hsome =>
    rw [KeyMap.get?_set, hsome, Option.map_some]

theorem mem_delete {b : Broker} {id j : Nat} :
    j ∈ (b.delete id).subscribers ↔ j ∈ b.subscribers ∧ j ≠ id := by
  simp [delete]

end Broker

/-! ### The invariant -/

/-- What holds of a subscription. -/
structure Kept (b : Broker) (id : Nat) (s : Subscription) : Prop where
  faithful :
    Faithful durable s.capacity (id ∈ b.subscribers) (b.offered id s) s.received s.events
  handed : s.waiting = true → s.events = []
  opened : id ∈ b.subscribers → s.done = false
  since : s.since ≤ b.dispatched.length

/-- What holds of a dispatch under way. -/
structure Turn (b : Broker) (d : Dispatch) : Prop where
  nodup : d.rest.Nodup
  apart : ∀ id, d.sending = some id → id ∉ d.rest
  member : ∀ id, d.Ahead id → id ∈ b.subscribers
  aimed : ∀ id s, d.sending = some id → b.objects.get? id = some s → s.matching d.event = true
  low : ∀ id s, d.sending = some id → b.objects.get? id = some s → transient d.event = true →
    2 * s.events.length < s.capacity

/-- The invariant of the broker. -/
structure Inv (b : Broker) : Prop where
  unique : b.subscribers.Nodup
  known : ∀ id ∈ b.subscribers, (b.objects.get? id).isSome = true
  kept : ∀ id s, b.objects.get? id = some s → Kept b id s
  turn : ∀ d, b.dispatching = some d → Turn b d

namespace Kept

variable {b b' : Broker} {id : Nat} {s : Subscription}

theorem frame (h : Kept b id s) (hlive : id ∈ b'.subscribers → id ∈ b.subscribers)
    (hdispatched : b'.dispatched = b.dispatched) (hcurrent : b'.current id = b.current id) :
    Kept b' id s where
  faithful := by
    have hoffered : b'.offered id s = b.offered id s := by
      rw [Broker.offered, Broker.offered, hdispatched, hcurrent]
    rw [hoffered]
    exact h.faithful.mono hlive
  handed := h.handed
  opened hid := h.opened (hlive hid)
  since := hdispatched ▸ h.since

theorem offered_past {d d' : Dispatch} (hd : b.dispatching = some d)
    (hd' : b'.dispatching = some d') (hevent : d'.event = d.event)
    (hdispatched : b'.dispatched = b.dispatched) (hahead : d.Ahead id) (hpast : ¬d'.Ahead id) :
    b'.offered id s = b.offered id s ++ [d.event].filter s.matching := by
  rw [Broker.offered, Broker.offered, hdispatched, Broker.current_ahead hd hahead,
    Broker.current_past hd' hpast, List.append_nil, List.filter_append, hevent]

/-- A subscription that an event passes by: it does not match, it is dropped, or the subscription
is not in the map. -/
theorem miss (h : Kept b id s) {e : Event}
    (hlive : id ∈ b'.subscribers → id ∈ b.subscribers)
    (hdispatched : b'.dispatched = b.dispatched)
    (hoffered : b'.offered id s = b.offered id s ++ [e].filter s.matching)
    (hmiss : id ∈ b'.subscribers → s.matching e = true → durable e = false) : Kept b' id s where
  faithful := by
    rw [hoffered]
    cases hmatch : s.matching e with
    | false => simpa [hmatch] using h.faithful.mono hlive
    | true =>
      simpa [hmatch] using (h.faithful.mono hlive).skip fun hid => hmiss hid hmatch
  handed := h.handed
  opened hid := h.opened (hlive hid)
  since := hdispatched ▸ h.since

theorem push (h : Kept b id s) {e : Event} (hlive : id ∈ b'.subscribers → id ∈ b.subscribers)
    (hdispatched : b'.dispatched = b.dispatched)
    (hoffered : b'.offered id s = b.offered id s ++ [e])
    (hready : s.ready = true)
    (hlow : transient e = true → 2 * s.events.length < s.capacity) : Kept b' id (s.push e) := by
  unfold Subscription.push
  cases hwaiting : s.waiting with
  | true =>
    -- The buffer is empty, and the event goes to the receiver.
    have hempty : s.events = [] := h.handed hwaiting
    have hfaithful := h.faithful.mono hlive
    rw [hempty] at hfaithful
    refine ⟨?_, fun hw => (by cases hw), fun hid => h.opened (hlive hid), hdispatched ▸ h.since⟩
    show Faithful durable s.capacity _ (b'.offered id s) (s.received ++ [e]) s.events
    rw [hempty, hoffered]
    exact hfaithful.hand e
  | false =>
    have hroom : s.events.length < s.capacity := by
      simpa [Subscription.ready, hwaiting] using hready
    have hhalf : durable e = false → 2 * s.events.length < s.capacity := by
      intro hdurable
      exact hlow (by simpa [durable] using hdurable)
    refine ⟨?_, fun hw => ?_, fun hid => h.opened (hlive hid), hdispatched ▸ h.since⟩
    · show Faithful durable s.capacity _ (b'.offered id s) s.received (s.events ++ [e])
      rw [hoffered]
      exact (h.faithful.mono hlive).push hroom hhalf
    · simp at hw

theorem receive (h : Kept b id s) : Kept b id s.receive := by
  cases hevents : s.events with
  | nil =>
    have hreceive : s.receive = { s with waiting := true } := by
      rw [Subscription.receive, hevents]
    rw [hreceive]
    exact ⟨h.faithful, fun _ => hevents, h.opened, h.since⟩
  | cons e events =>
    have hreceive : s.receive =
        { s with events := events, received := s.received ++ [e] } := by
      rw [Subscription.receive, hevents]
    have hfaithful := h.faithful
    rw [hevents] at hfaithful
    rw [hreceive]
    refine ⟨hfaithful.take, fun hw => ?_, h.opened, h.since⟩
    cases (h.handed hw).symm.trans hevents

theorem leave (h : Kept b id s) : Kept b id s.leave :=
  ⟨h.faithful, fun hw => (by cases hw), h.opened, h.since⟩

theorem close (h : Kept b id s) (hid : id ∉ b.subscribers) : Kept b id s.close :=
  ⟨h.faithful, h.handed, fun hlive => absurd hlive hid, h.since⟩

end Kept

namespace Inv

variable {b : Broker}

/-! ### What each step keeps -/

theorem update (h : Inv b) (id : Nat) {f : Subscription → Subscription}
    (hkept : ∀ s, b.objects.get? id = some s → Kept b id (f s))
    (hroom : ∀ s, (f s).kind = s.kind ∧ (f s).room = s.room ∧ (f s).capacity = s.capacity ∧
      (f s).events.length ≤ s.events.length) : Inv (b.update id f) where
  unique := by
    simpa using h.unique
  known j hj := by
    rw [Broker.update_subscribers] at hj
    have hknown := h.known j hj
    rw [b.get?_update id f j]
    split
    · next heq =>
      rw [← heq]
      simpa using hknown
    · exact hknown
  kept j s hget := by
    have hold : Kept b j s := by
      rw [b.get?_update id f j] at hget
      split at hget
      · next heq =>
        obtain ⟨t, ht, hts⟩ := Option.map_eq_some_iff.mp hget
        rw [← hts, heq]
        exact hkept t ht
      · exact h.kept j s hget
    exact hold.frame (fun hlive => by simpa using hlive) (b.update_dispatched id f)
      (b.update_current id f j)
  turn d hd := by
    rw [Broker.update_dispatching] at hd
    have hturn := h.turn d hd
    -- The subscription that the loop is about to send to has not grown.
    have hsame : ∀ j s, (b.update id f).objects.get? j = some s → ∃ t,
        b.objects.get? j = some t ∧ s.kind = t.kind ∧ s.room = t.room ∧ s.capacity = t.capacity ∧
          s.events.length ≤ t.events.length := by
      intro j s hget
      rw [b.get?_update id f j] at hget
      split at hget
      · next heq =>
        obtain ⟨t, ht, hts⟩ := Option.map_eq_some_iff.mp hget
        rw [← hts, heq]
        exact ⟨t, ht, hroom t⟩
      · exact ⟨s, hget, rfl, rfl, rfl, Nat.le_refl _⟩
    refine ⟨hturn.nodup, hturn.apart, fun j hj => ?_, fun j s hj hget => ?_,
      fun j s hj hget htransient => ?_⟩
    · simpa using hturn.member j hj
    · obtain ⟨t, ht, hkind, hroom, _, _⟩ := hsame j s hget
      have hmatch := hturn.aimed j t hj ht
      rw [Subscription.matching, hkind, hroom]
      exact hmatch
    · obtain ⟨t, ht, _, _, hcapacity, hlength⟩ := hsame j s hget
      have hlow := hturn.low j t hj ht htransient
      omega

theorem receive (h : Inv b) (id : Nat) : Inv (b.update id Subscription.receive) := by
  refine h.update id (fun s hs => (h.kept id s hs).receive) fun s => ?_
  unfold Subscription.receive
  cases s.events with
  | nil | cons => simp

theorem leave (h : Inv b) (id : Nat) : Inv (b.update id Subscription.leave) :=
  h.update id (fun s hs => (h.kept id s hs).leave) fun _ => ⟨rfl, rfl, rfl, Nat.le_refl _⟩

theorem closeRemoved (h : Inv b) (id : Nat) : Inv (b.closeRemoved id) := by
  unfold Broker.closeRemoved
  split
  · exact h
  · next hid =>
    exact h.update id (fun s hs => (h.kept id s hs).close hid)
      fun _ => ⟨rfl, rfl, rfl, Nat.le_refl _⟩

theorem subscribe (h : Inv b) (id : Nat) (kind : String) (room : Int) :
    Inv (b.subscribe id kind room) := by
  unfold Broker.subscribe
  split
  · exact h
  · next hfree =>
    simp only [Bool.or_eq_true, not_or, Bool.not_eq_true, Option.isSome_eq_false_iff,
      Option.isNone_iff_eq_none] at hfree
    obtain ⟨hidle, hfresh⟩ := hfree
    split
    · exact h
    · split
      · exact h
      · have hid : id ∉ b.subscribers := by
          intro hlive
          have hknown := h.known id hlive
          rw [hfresh] at hknown
          cases hknown
        refine ⟨List.nodup_cons.mpr ⟨hid, h.unique⟩, fun j hj => ?_, fun j s hget => ?_,
          fun d hd => ?_⟩
        · rw [KeyMap.get?_set]
          split
          · rfl
          · next hne => exact h.known j ((List.mem_cons.mp hj).resolve_left hne)
        · rw [KeyMap.get?_set] at hget
          split at hget
          · -- The new subscription: nothing was offered to it.
            cases hget
            refine ⟨?_, fun _ => rfl, fun _ => rfl, Nat.le_refl _⟩
            show Faithful durable b.queue _
              (List.filter _ (b.dispatched.drop b.dispatched.length ++ b.current j)) [] []
            rw [Broker.current_idle hidle, List.drop_length]
            exact Faithful.empty
          · next hne =>
            refine (h.kept j s hget).frame (fun hlive => ?_) rfl rfl
            exact (List.mem_cons.mp hlive).resolve_left hne
        · rw [hidle] at hd
          cases hd

theorem unsubscribe (h : Inv b) (id : Nat) : Inv (b.unsubscribe id) := by
  unfold Broker.unsubscribe
  split
  · exact h
  · next hidle =>
    refine ⟨h.unique.filter _, fun j hj => h.known j (Broker.mem_delete.mp hj).1,
      fun j s hget => ?_, fun d hd => ?_⟩
    · exact (h.kept j s hget).frame (fun hlive => (Broker.mem_delete.mp hlive).1) rfl rfl
    · have hnone : b.dispatching = none := by simpa using hidle
      rw [show (b.delete id).dispatching = b.dispatching from rfl, hnone] at hd
      cases hd

theorem reset (h : Inv b) : Inv b.reset := by
  unfold Broker.reset
  split
  · exact h
  · next hidle =>
    refine ⟨List.nodup_nil, fun j hj => (by cases hj), fun j s hget => ?_, fun d hd => ?_⟩
    · rw [KeyMap.get?_mapRows] at hget
      have ⟨t, ht, hts⟩ := Option.map_eq_some_iff.mp hget
      have hkept := h.kept j t ht
      have hgone : ∀ b' : Broker, b'.subscribers = [] → j ∈ b'.subscribers → j ∈ b.subscribers := by
        intro b' hnil hlive
        rw [hnil] at hlive
        cases hlive
      rw [← hts]
      split
      · exact Kept.close (hkept.frame (hgone _ rfl) rfl rfl) List.not_mem_nil
      · exact hkept.frame (hgone _ rfl) rfl rfl
    · have hnone : b.dispatching = none := by simpa using hidle
      rw [show (Broker.dispatching _) = b.dispatching from rfl, hnone] at hd
      cases hd

theorem dispatch (h : Inv b) (event : Event) (order : List Nat) :
    Inv (b.dispatch event order) := by
  unfold Broker.dispatch
  split
  · exact h
  · split
    · next hstart =>
      simp only [Bool.and_eq_true, Option.isNone_iff_eq_none, List.isPerm_iff] at hstart
      have ⟨hidle, hperm⟩ := hstart
      refine ⟨h.unique, h.known, fun j s hget => ?_, fun d hd => ?_⟩
      · have hkept := h.kept j s hget
        by_cases hj : j ∈ b.subscribers
        · refine hkept.frame id rfl ?_
          rw [Broker.current_idle hidle, Broker.current_ahead rfl (Or.inl (hperm.mem_iff.mpr hj))]
        · -- It has left the map, and is offered nothing.
          refine hkept.miss (e := event) id rfl ?_ fun hlive => absurd hlive hj
          have hpast : ¬(Dispatch.mk event order none).Ahead j := by
            rintro (hrest | hsend)
            · exact hj (hperm.mem_iff.mp hrest)
            · cases hsend
          rw [Broker.offered, Broker.offered, Broker.current_idle hidle,
            Broker.current_past rfl hpast, List.append_nil, List.filter_append]
      · cases hd
        refine ⟨hperm.nodup_iff.mpr h.unique, fun j hj => (by cases hj), fun j hj => ?_,
          fun j s hj => (by cases hj), fun j s hj => (by cases hj)⟩
        rcases hj with hrest | hsend
        · exact hperm.mem_iff.mp hrest
        · cases hsend
    · exact h

/-- The loop goes past a subscription, and nothing but this one changes. -/
private theorem advance (h : Inv b) {event : Event} {rest before : List Nat} {id : Nat}
    {sending : Option Nat} (hd : b.dispatching = some ⟨event, before, sending⟩)
    (hahead : ∀ j, (Dispatch.mk event before sending).Ahead j ↔ j = id ∨ j ∈ rest)
    (hnodup : (id :: rest).Nodup) {b' : Broker}
    (hd' : b'.dispatching = some ⟨event, rest, none⟩) (hdispatched : b'.dispatched = b.dispatched)
    (hunique : b'.subscribers.Nodup)
    (hothers : ∀ j, j ≠ id → (j ∈ b'.subscribers ↔ j ∈ b.subscribers) ∧
      b'.objects.get? j = b.objects.get? j)
    (hknown : id ∈ b'.subscribers → (b'.objects.get? id).isSome = true)
    (hkept : ∀ s, b'.objects.get? id = some s → Kept b' id s) : Inv b' where
  unique := hunique
  known j hj := by
    by_cases hjid : j = id
    · subst hjid
      exact hknown hj
    · rw [(hothers j hjid).2]
      exact h.known j ((hothers j hjid).1.mp hj)
  kept j s hget := by
    by_cases hjid : j = id
    · subst hjid
      exact hkept s hget
    · rw [(hothers j hjid).2] at hget
      refine (h.kept j s hget).frame (hothers j hjid).1.mp hdispatched ?_
      -- The loop is ahead of another subscription before the step exactly when it is after it.
      by_cases hrest : j ∈ rest
      · rw [Broker.current_ahead hd ((hahead j).mpr (Or.inr hrest)),
          Broker.current_ahead hd' (Or.inl hrest)]
      · have hbefore : ¬(Dispatch.mk event before sending).Ahead j := by
          simp [hahead, hjid, hrest]
        have hafter : ¬(Dispatch.mk event rest none).Ahead j := by
          simp [Dispatch.Ahead, hrest]
        rw [Broker.current_past hd hbefore, Broker.current_past hd' hafter]
  turn d hdd := by
    rw [hd'] at hdd
    cases hdd
    refine ⟨(List.nodup_cons.mp hnodup).2, fun j hj => (by cases hj), fun j hj => ?_,
      fun j s hj => (by cases hj), fun j s hj => (by cases hj)⟩
    have hrest : j ∈ rest := hj.resolve_right (by simp)
    have hjid : j ≠ id := fun heq => (List.nodup_cons.mp hnodup).1 (heq ▸ hrest)
    exact (hothers j hjid).1.mpr ((h.turn _ hd).member j ((hahead j).mpr (Or.inr hrest)))

private theorem ahead_cons (event : Event) (id : Nat) (rest : List Nat) (j : Nat) :
    (Dispatch.mk event (id :: rest) none).Ahead j ↔ j = id ∨ j ∈ rest := by
  simp [Dispatch.Ahead]

private theorem ahead_sending (event : Event) (id : Nat) (rest : List Nat) (j : Nat) :
    (Dispatch.mk event rest (some id)).Ahead j ↔ j = id ∨ j ∈ rest := by
  simp [Dispatch.Ahead, or_comm, eq_comm]

private theorem past_none {event : Event} {id : Nat} {rest : List Nat}
    (hnodup : (id :: rest).Nodup) : ¬(Dispatch.mk event rest none).Ahead id := by
  simpa [Dispatch.Ahead] using (List.nodup_cons.mp hnodup).1

theorem visit (h : Inv b) : Inv b.visit := by
  unfold Broker.visit
  split
  · next event hd =>
    -- `dispatch` returns: the loop is past every subscription.
    refine ⟨h.unique, h.known, fun j s hget => ?_, fun d hdd => (by cases hdd)⟩
    have hkept := h.kept j s hget
    have hpast : ¬(Dispatch.mk event [] none).Ahead j := by
      simp [Dispatch.Ahead]
    have hoffered : Broker.offered { b with
        dispatching := none
        dispatched := b.dispatched ++ [event] } j s = b.offered j s := by
      rw [Broker.offered, Broker.offered, Broker.current_idle rfl, Broker.current_past hd hpast,
        List.append_nil, List.drop_append_of_le_length hkept.since]
    refine ⟨?_, hkept.handed, hkept.opened, ?_⟩
    · rw [hoffered]
      exact hkept.faithful
    · have hsince := hkept.since
      rw [List.length_append]
      omega
  · next event id rest hd =>
    have hturn := h.turn _ hd
    have hnodup : (id :: rest).Nodup := hturn.nodup
    have hlive : id ∈ b.subscribers := hturn.member id (Or.inl List.mem_cons_self)
    -- The event passes the subscription by.
    have hpass : (∀ s, b.objects.get? id = some s → s.matching event = true →
        durable event = false) → Inv { b with dispatching := some ⟨event, rest, none⟩ } := by
      intro hmiss
      refine h.advance hd (ahead_cons event id rest) hnodup rfl rfl h.unique
        (fun j _ => ⟨Iff.rfl, rfl⟩) (h.known id) fun s hs => ?_
      refine (h.kept id s hs).miss (fun hid => hid) rfl ?_ fun _ => hmiss s hs
      exact Kept.offered_past hd rfl rfl rfl (Or.inl List.mem_cons_self) (past_none hnodup)
    split
    · next hnone => exact hpass fun s hs => (by rw [hnone] at hs; cases hs)
    · next s hs =>
      split
      · next hmatch =>
        refine hpass fun t ht hmatching => ?_
        cases hs.symm.trans ht
        rw [hmatching] at hmatch
        cases hmatch
      · split
        · next hdrop =>
          refine hpass fun _ _ _ => ?_
          simp only [Bool.and_eq_true] at hdrop
          rw [durable, hdrop.1, Bool.not_true]
        · -- The loop stops at the subscription: it is still ahead of it.
          next hmatch hdrop =>
          refine ⟨h.unique, h.known, fun j t ht => ?_, fun d hdd => ?_⟩
          · refine (h.kept j t ht).frame (fun hid => hid) rfl ?_
            by_cases hj : j = id ∨ j ∈ rest
            · rw [Broker.current_ahead hd ((ahead_cons event id rest j).mpr hj),
                Broker.current_ahead rfl ((ahead_sending event id rest j).mpr hj)]
            · rw [Broker.current_past hd (fun ha => hj ((ahead_cons event id rest j).mp ha)),
                Broker.current_past rfl fun ha => hj ((ahead_sending event id rest j).mp ha)]
          · cases hdd
            have hnot : id ∉ rest := (List.nodup_cons.mp hnodup).1
            refine ⟨(List.nodup_cons.mp hnodup).2, fun j hj => ?_, fun j hj => ?_,
              fun j t hj ht => ?_, fun j t hj ht htransient => ?_⟩
            · cases hj
              exact hnot
            · exact hturn.member j ((ahead_cons event id rest j).mpr
                ((ahead_sending event id rest j).mp hj))
            · cases hj
              cases hs.symm.trans ht
              simpa using hmatch
            · cases hj
              cases hs.symm.trans ht
              simpa [show transient event = true from htransient] using hdrop
  · exact h

theorem send (h : Inv b) (pick : Bool) : Inv (b.send pick) := by
  unfold Broker.send
  split
  · next event rest id hd =>
    have hturn := h.turn _ hd
    have hnodup : (id :: rest).Nodup := List.nodup_cons.mpr ⟨hturn.apart id rfl, hturn.nodup⟩
    have hahead : (Dispatch.mk event rest (some id)).Ahead id := Or.inr rfl
    have hlive : id ∈ b.subscribers := hturn.member id hahead
    split
    · next hnone =>
      have hknown := h.known id hlive
      rw [hnone] at hknown
      cases hknown
    · next s hs =>
      have hkept := h.kept id s hs
      have hmatch : s.matching event = true := hturn.aimed id s rfl hs
      dsimp only
      -- `done` is open as long as the subscription is in the map.
      rw [hkept.opened hlive, Bool.false_and, if_neg Bool.false_ne_true]
      have hoffered : ∀ b' : Broker, b'.dispatching = some ⟨event, rest, none⟩ →
          b'.dispatched = b.dispatched → b'.offered id s = b.offered id s ++ [event] := by
        intro b' hd' hdispatched
        rw [Kept.offered_past hd hd' rfl hdispatched hahead (past_none hnodup)]
        simp [hmatch]
      split
      · next hready =>
        refine h.advance hd (ahead_sending event id rest) hnodup (by simp) (by simp)
          (by simpa using h.unique) (fun j hj => ?_) (fun _ => ?_) fun t ht => ?_
        · rw [Broker.get?_update, if_neg hj, Broker.update_subscribers]
          exact ⟨Iff.rfl, rfl⟩
        · rw [Broker.get?_update, if_pos rfl, show (Broker.objects _).get? id = some s from hs]
          rfl
        · rw [Broker.get?_update, if_pos rfl, show (Broker.objects _).get? id = some s from hs]
            at ht
          cases ht
          exact hkept.push (fun hid => by simpa using hid) (by simp)
            (hoffered _ (by simp) (by simp)) hready (hturn.low id s rfl hs)
      · split
        · -- A durable event that cannot be queued.
          have hgone : ∀ b' : Broker, id ∉ (b'.delete id).subscribers := by
            intro b' hid
            exact (Broker.mem_delete.mp hid).2 rfl
          refine h.advance hd (ahead_sending event id rest) hnodup (by simp [Broker.delete])
            (by simp [Broker.delete]) ?_ (fun j hj => ?_) (fun hid => absurd hid (hgone _))
            fun t ht => ?_
          · exact List.Nodup.filter _ (by simpa using h.unique)
          · refine ⟨?_, ?_⟩
            · rw [Broker.mem_delete, Broker.update_subscribers]
              exact ⟨fun hid => hid.1, fun hid => ⟨hid, hj⟩⟩
            · show (Broker.objects (Broker.update _ id _)).get? j = _
              rw [Broker.get?_update, if_neg hj]
          · rw [show (Broker.objects (Broker.delete _ id)).get? id =
              (Broker.objects (Broker.update _ id _)).get? id from rfl, Broker.get?_update,
              if_pos rfl, show (Broker.objects _).get? id = some s from hs] at ht
            cases ht
            refine Kept.close (hkept.miss (e := event) (fun hid => absurd hid (hgone _)) ?_ ?_
              fun hid => absurd hid (hgone _)) (hgone _)
            · simp [Broker.delete]
            · rw [hoffered _ (by simp [Broker.delete]) (by simp [Broker.delete])]
              simp [hmatch]
        · next hdurable =>
          -- A typing event that cannot be queued is dropped.
          refine h.advance hd (ahead_sending event id rest) hnodup rfl rfl h.unique
            (fun j _ => ⟨Iff.rfl, rfl⟩) (h.known id) fun t ht => ?_
          cases hs.symm.trans ht
          refine hkept.miss (e := event) (fun hid => hid) rfl ?_ fun _ _ => ?_
          · rw [hoffered { b with dispatching := some ⟨event, rest, none⟩ } rfl rfl]
            simp [hmatch]
          · simpa [durable] using hdurable
  · exact h

theorem step (h : Inv b) (a : Action) : Inv (step b a) := by
  cases a with
  | setReady =>
    refine ⟨h.unique, h.known, fun id s hget => ?_, fun d hd => ?_⟩
    · exact (h.kept id s hget).frame (fun hid => hid) rfl rfl
    · have hturn := h.turn d hd
      exact ⟨hturn.nodup, hturn.apart, hturn.member, hturn.aimed, hturn.low⟩
  | subscribe id kind room => exact h.subscribe id kind room
  | unsubscribe id => exact h.unsubscribe id
  | closeRemoved id => exact h.closeRemoved id
  | reset => exact h.reset
  | dispatch event order => exact h.dispatch event order
  | visit => exact h.visit
  | send pick => exact h.send pick
  | receive id => exact h.receive id
  | leave id => exact h.leave id

theorem new (maxTotal maxRoom queue : Nat) : Inv (Broker.new maxTotal maxRoom queue) where
  unique := List.nodup_nil
  known id hid := by cases hid
  kept id s hget := by cases hget
  turn d hd := by cases hd

end Inv

/-! ### What closes a subscription -/

/-- The `select` statement of a durable event that finds the queue full, at least half of it,
rounded down, durable events. -/
def Overflow (b : Broker) (a : Action) (id : Nat) (s : Subscription) : Prop :=
  ∃ pick event rest, a = .send pick ∧ b.dispatching = some ⟨event, rest, some id⟩ ∧
    s.matching event = true ∧ durable event = true ∧ s.events.length = s.capacity ∧
    s.capacity / 2 ≤ s.events.countP durable

/-- A subscription that is in the map before a step and not after it. -/
def Leaves (b : Broker) (a : Action) (id : Nat) : Prop :=
  id ∈ b.subscribers ∧ id ∉ (step b a).subscribers

theorem visit_subscribers (b : Broker) : b.visit.subscribers = b.subscribers := by
  unfold Broker.visit
  split
  · rfl
  · split
    · rfl
    · split
      · rfl
      · split <;> rfl
  · rfl

/-- The `select` statement takes a subscription out of the map only if it is the one to send to,
the event is durable and the queue is full. -/
theorem send_leaves {b : Broker} {pick : Bool} {id : Nat} {s : Subscription} (h : Inv b)
    (hs : b.objects.get? id = some s) (hleaves : Leaves b (.send pick) id) :
    Overflow b (.send pick) id s := by
  have ⟨hlive, hgone⟩ := hleaves
  have hkept := h.kept id s hs
  simp only [step, Broker.send] at hgone
  split at hgone
  · next event rest j hd =>
    split at hgone
    · exact absurd hlive hgone
    · next t ht =>
      have hturn := h.turn _ hd
      rw [(h.kept j t ht).opened (hturn.member j (Or.inr rfl)), Bool.false_and,
        if_neg Bool.false_ne_true] at hgone
      split at hgone
      · exact absurd hlive (by simpa using hgone)
      · next hfull =>
        split at hgone
        · next hdurable =>
          rw [Broker.mem_delete, Broker.update_subscribers, not_and_not_right] at hgone
          have hid : id = j := hgone hlive
          subst hid
          cases hs.symm.trans ht
          have hcapacity : s.capacity ≤ s.events.length := by
            simp only [Subscription.ready, Bool.or_eq_true, not_or, decide_eq_true_eq] at hfull
            omega
          exact ⟨pick, event, rest, rfl, hd, hturn.aimed id s rfl hs, hdurable,
            Nat.le_antisymm hkept.faithful.bounded hcapacity,
            hkept.faithful.half_durable hcapacity⟩
        · exact absurd hlive hgone
  · exact absurd hlive hgone

/-- A subscription leaves the map where it unsubscribes, where the listener is reset, and where a
durable event finds its queue full. -/
theorem leaves_cases {b : Broker} {a : Action} {id : Nat} {s : Subscription} (h : Inv b)
    (hs : b.objects.get? id = some s) (hleaves : Leaves b a id) :
    a = .unsubscribe id ∨ a = .reset ∨ Overflow b a id s := by
  have ⟨hlive, hgone⟩ := hleaves
  cases a with
  | setReady => exact absurd hlive hgone
  | subscribe =>
    simp only [step, Broker.subscribe] at hgone
    split at hgone
    · exact absurd hlive hgone
    · split at hgone
      · exact absurd hlive hgone
      · split at hgone
        · exact absurd hlive hgone
        · exact absurd (List.mem_cons_of_mem _ hlive) hgone
  | unsubscribe =>
    simp only [step, Broker.unsubscribe] at hgone
    split at hgone
    · exact absurd hlive hgone
    · rw [Broker.mem_delete, not_and_not_right] at hgone
      exact Or.inl (by rw [hgone hlive])
  | closeRemoved =>
    simp only [step, Broker.closeRemoved] at hgone
    split at hgone
    · exact absurd hlive hgone
    · exact absurd hlive (by simpa using hgone)
  | reset => exact Or.inr (Or.inl rfl)
  | dispatch =>
    simp only [step, Broker.dispatch] at hgone
    split at hgone
    · exact absurd hlive hgone
    · split at hgone
      · exact absurd hlive hgone
      · exact absurd hlive hgone
  | visit => exact absurd hlive (by rwa [step, visit_subscribers] at hgone)
  | send => exact Or.inr (Or.inr (send_leaves h hs hleaves))
  | receive | leave => exact absurd hlive (by simpa [step] using hgone)

/-! ### Every run -/

/-- What a subscriber has received and what its queue holds, against the matching events
dispatched so far. -/
structure Delivered (b : Broker) (id : Nat) (s : Subscription) : Prop where
  ordered : (s.received ++ s.events).Sublist (b.offered id s)
  complete : id ∈ b.subscribers →
    (s.received ++ s.events).filter durable = (b.offered id s).filter durable
  bounded : s.events.length ≤ s.capacity
  typing : s.events.countP transient ≤ (s.capacity + 1) / 2
  opened : id ∈ b.subscribers → s.done = false

theorem Kept.delivered {b : Broker} {id : Nat} {s : Subscription} (h : Kept b id s) :
    Delivered b id s where
  ordered := h.faithful.ordered
  complete := h.faithful.complete
  bounded := h.faithful.bounded
  typing := by
    have hlow := h.faithful.headroom
    simpa [durable] using hlow
  opened := h.opened

/-- In every run, whatever the capacity of the queues: subscribers are sent the matching events in
order and all durable ones, at most half of a queue, rounded up, holds typing events, only a
durable event closes a subscription by its queue, which is then full and at least half, rounded
down, durable, and with room for two events a queue of typing events always takes a durable one. -/
theorem live_delivery (maxTotal maxRoom queue : Nat) (as : List Action) :
    (∀ id s, (run step (Broker.new maxTotal maxRoom queue) as).objects.get? id = some s →
      Delivered (run step (Broker.new maxTotal maxRoom queue) as) id s) ∧
    (∀ q ∈ steps step (Broker.new maxTotal maxRoom queue) as, ∀ id s,
      q.1.objects.get? id = some s → Leaves q.1 q.2 id →
        q.2 = .unsubscribe id ∨ q.2 = .reset ∨ Overflow q.1 q.2 id s) ∧
    (∀ q ∈ steps step (Broker.new maxTotal maxRoom queue) as, ∀ id s,
      q.1.objects.get? id = some s → 2 ≤ s.capacity → (∀ e ∈ s.events, transient e = true) →
        ∀ pick, q.2 = .send pick → ¬Leaves q.1 q.2 id) := by
  have hinv : ∀ q ∈ steps step (Broker.new maxTotal maxRoom queue) as, Inv q.1 :=
    Machine.steps_invariant (fun b a h => h.step a) (Inv.new maxTotal maxRoom queue) as
  refine ⟨fun id s hs => ?_, fun q hq id s hs => leaves_cases (hinv q hq) hs,
    fun q hq id s hs hcapacity htyping pick hsend hleaves => ?_⟩
  · have hlast : Inv (run step (Broker.new maxTotal maxRoom queue) as) :=
      Machine.run_invariant (fun b a h => h.step a) (Inv.new maxTotal maxRoom queue) as
    exact (hlast.kept id s hs).delivered
  · rw [hsend] at hleaves
    have ⟨_, _, _, _, _, _, _, _, hhalf⟩ := send_leaves (hinv q hq) hs hleaves
    have hnone : s.events.countP durable = 0 := by
      rw [List.countP_eq_zero]
      intro e he
      simp [durable, htyping e he]
    omega

/-- A subscriber with a queue for one event, a typing event and a durable one. -/
def oddQueue : List Action :=
  [.setReady true, .subscribe 0 "chat" 1,
    .dispatch ⟨"chat", "typing", 1, 0, 9, ""⟩ [0], .visit, .send false, .visit,
    .dispatch ⟨"chat", "message", 1, 2, 0, ""⟩ [0], .visit]

/-- With an odd capacity typing events fill more than half of a queue, and a durable event closes
a subscription with fewer durable events queued than half of the capacity. -/
theorem odd_queue :
    ¬(∀ maxTotal maxRoom queue as id s,
      (run step (Broker.new maxTotal maxRoom queue) as).objects.get? id = some s →
        2 * s.events.countP transient ≤ s.capacity) ∧
    ¬(∀ maxTotal maxRoom queue as pick id s,
      (run step (Broker.new maxTotal maxRoom queue) as).objects.get? id = some s →
      Leaves (run step (Broker.new maxTotal maxRoom queue) as) (.send pick) id →
        s.capacity ≤ 2 * s.events.countP durable) := by
  constructor
  · intro h
    exact absurd (h 2 1 1 oddQueue 0
      ⟨"chat", 1, 1, [⟨"chat", "typing", 1, 0, 9, ""⟩], false, false, [], 0⟩ (by decide +kernel))
      (by decide)
  · intro h
    exact absurd (h 2 1 1 oddQueue false 0
      ⟨"chat", 1, 1, [⟨"chat", "typing", 1, 0, 9, ""⟩], false, false, [], 0⟩ (by decide +kernel)
      ⟨by decide +kernel, by decide +kernel⟩) (by decide)

end SocialActivities.Chat
