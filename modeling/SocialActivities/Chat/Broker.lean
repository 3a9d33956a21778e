import SocialActivities.Lib.KeyMap

/-!
# `SocialActivities.Chat.Broker`: live delivery to the sockets of this process

`chat/broker.go`. The broker holds a set of subscriptions, each with a buffered channel of events.
`dispatch` visits every subscription of the set under the mutex, in the order that Go's map gives,
and sends the event to those of its room without blocking: a typing event is dropped where the
queue is at least half full, and a durable event that cannot be queued closes the subscription.

A subscriber receives while a dispatch is under way. So `dispatch` is several steps here: `visit`
reads the length of the queue and `send` is the `select` statement, with receives in between. The
mutex is that no other operation on the set starts before the dispatch is over.

A channel is its buffer and the receiver that waits on the empty buffer, if there is one: a send
hands the event to it. `received`, `since` and `dispatched` are history: what a subscriber has
received, how many events had been dispatched when it subscribed, and these events.
-/

namespace SocialActivities.Chat

open Lib

/-! ### Events -/

/-- `Event`, without the process-local resolution of the typer. -/
structure Event where
  kind : String
  event : String
  roomID : Int
  messageID : Int
  actorID : Int
  sender : String
deriving DecidableEq

def transient (e : Event) : Bool := e.kind == "chat" && e.event == "typing"

def validEvent (e : Event) : Bool :=
  (e.kind == "chat" || e.kind == "messaging") && 0 < e.roomID &&
    (e.event == "message" && 0 < e.messageID ||
      e.kind == "chat" && e.event == "attachments" && 0 < e.messageID ||
      e.kind == "chat" && e.event == "typing" && 0 < e.actorID && e.sender.utf8ByteSize ≤ 64)

/-- An event whose loss a client cannot see without reloading the durable history. -/
def durable (e : Event) : Bool := !transient e

/-! ### Subscriptions -/

/-- `subscription`: the room it is for, its channel of events and whether `done` is closed. -/
structure Subscription where
  kind : String
  room : Int
  capacity : Nat
  events : List Event
  waiting : Bool
  done : Bool
  received : List Event
  since : Nat
deriving DecidableEq

namespace Subscription

/-- `s.kind == event.Kind && s.room == event.RoomID`. -/
def matching (s : Subscription) (e : Event) : Bool := s.kind == e.kind && s.room == e.roomID

/-- A send on the channel does not block. -/
def ready (s : Subscription) : Bool := s.waiting || s.events.length < s.capacity

/-- A send that does not block: to the receiver that waits, or to the buffer. -/
def push (s : Subscription) (e : Event) : Subscription :=
  if s.waiting then { s with waiting := false, received := s.received ++ [e] }
  else { s with events := s.events ++ [e] }

/-- A receive: from the buffer, or the receiver waits. -/
def receive (s : Subscription) : Subscription :=
  match s.events with
  | [] => { s with waiting := true }
  | e :: events => { s with events := events, received := s.received ++ [e] }

/-- The receiver goes on with another case of its `select` statement. -/
def leave (s : Subscription) : Subscription := { s with waiting := false }

def close (s : Subscription) : Subscription := { s with done := true }

end Subscription

/-! ### The broker -/

/-- A dispatch under way: the event, the subscriptions that the loop has still to visit, and the
one that it is about to send to. -/
structure Dispatch where
  event : Event
  rest : List Nat
  sending : Option Nat
deriving DecidableEq

/-- `Broker`. `objects` are the subscriptions ever made and `subscribers` the keys of the map. -/
structure Broker where
  ready : Bool
  maxTotal : Nat
  maxRoom : Nat
  queue : Nat
  subscribers : List Nat
  objects : KeyMap Nat Subscription
  dispatching : Option Dispatch
  dispatched : List Event

/-- A broker without subscriptions. -/
def Broker.new (maxTotal maxRoom queue : Nat) : Broker :=
  ⟨false, maxTotal, maxRoom, queue, [], KeyMap.empty, none, []⟩

namespace Broker

/-- A subscription changes. -/
def update (b : Broker) (id : Nat) (f : Subscription → Subscription) : Broker :=
  match b.objects.get? id with
  | none => b
  | some s => { b with objects := b.objects.set id (f s) }

/-- `delete(b.subscribers, s)`. -/
def delete (b : Broker) (id : Nat) : Broker :=
  { b with subscribers := b.subscribers.filter (· != id) }

/-- The subscriptions of a room in the map. -/
def roomCount (b : Broker) (kind : String) (room : Int) : Nat :=
  b.subscribers.countP fun id =>
    (b.objects.get? id).any fun s => s.kind == kind && s.room == room

/-- `subscribe`; `id` is the new subscription's address. -/
def subscribe (b : Broker) (id : Nat) (kind : String) (room : Int) : Broker :=
  if b.dispatching.isSome || (b.objects.get? id).isSome then b
  else if !b.ready || b.maxTotal ≤ b.subscribers.length then b
  else if b.maxRoom ≤ b.roomCount kind room then b
  else
    { b with
      subscribers := id :: b.subscribers
      objects := b.objects.set id
        ⟨kind, room, b.queue, [], false, false, [], b.dispatched.length⟩ }

/-- `unsubscribe` as far as the mutex is held. -/
def unsubscribe (b : Broker) (id : Nat) : Broker :=
  if b.dispatching.isSome then b else b.delete id

/-- The rest of `unsubscribe`: the subscription is not in the map any more. -/
def closeRemoved (b : Broker) (id : Nat) : Broker :=
  if id ∈ b.subscribers then b else b.update id Subscription.close

/-- `reset`, after `ready` is cleared. -/
def reset (b : Broker) : Broker :=
  if b.dispatching.isSome then b
  else
    { b with
      objects := b.objects.mapRows fun id s => if id ∈ b.subscribers then s.close else s
      subscribers := [] }

/-- `dispatch` up to its loop, which ranges over the map in some order. -/
def dispatch (b : Broker) (event : Event) (order : List Nat) : Broker :=
  if !validEvent event then b
  else if b.dispatching.isNone && order.isPerm b.subscribers then
    { b with dispatching := some ⟨event, order, none⟩ }
  else b

/-- The loop reaches the next subscription, up to the `select` statement; after the last one
`dispatch` returns. -/
def visit (b : Broker) : Broker :=
  match b.dispatching with
  | some ⟨event, [], none⟩ =>
    { b with dispatching := none, dispatched := b.dispatched ++ [event] }
  | some ⟨event, id :: rest, none⟩ =>
    match b.objects.get? id with
    | none => { b with dispatching := some ⟨event, rest, none⟩ }
    | some s =>
      if !s.matching event then { b with dispatching := some ⟨event, rest, none⟩ }
      else if transient event && s.capacity ≤ 2 * s.events.length then
        { b with dispatching := some ⟨event, rest, none⟩ }
      else { b with dispatching := some ⟨event, rest, some id⟩ }
  | _ => b

/-- The `select` statement. Where `done` is closed and the send does not block either, `pick` is
the choice of the first. -/
def send (b : Broker) (pick : Bool) : Broker :=
  match b.dispatching with
  | some ⟨event, rest, some id⟩ =>
    let next := { b with dispatching := some ⟨event, rest, none⟩ }
    match b.objects.get? id with
    | none => next
    | some s =>
      if s.done && (pick || !s.ready) then next.delete id
      else if s.ready then next.update id fun s => s.push event
      else if !transient event then (next.update id Subscription.close).delete id
      else next
  | _ => b

end Broker

/-! ### Steps -/

/-- What can happen next. -/
inductive Action where
  | setReady (ready : Bool)
  | subscribe (id : Nat) (kind : String) (room : Int)
  | unsubscribe (id : Nat)
  | closeRemoved (id : Nat)
  | reset
  | dispatch (event : Event) (order : List Nat)
  | visit
  | send (pick : Bool)
  | receive (id : Nat)
  | leave (id : Nat)
deriving DecidableEq

/-- One step. An action that is not enabled changes nothing. -/
def step (b : Broker) : Action → Broker
  | .setReady ready => { b with ready := ready }
  | .subscribe id kind room => b.subscribe id kind room
  | .unsubscribe id => b.unsubscribe id
  | .closeRemoved id => b.closeRemoved id
  | .reset => b.reset
  | .dispatch event order => b.dispatch event order
  | .visit => b.visit
  | .send pick => b.send pick
  | .receive id => b.update id Subscription.receive
  | .leave id => b.update id Subscription.leave

end SocialActivities.Chat
