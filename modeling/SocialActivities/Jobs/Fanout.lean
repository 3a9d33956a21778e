import SocialActivities.Lib.Checked
import SocialActivities.Lib.Machine
import Mathlib.Data.List.Nodup

/-!
# `SocialActivities.Jobs.Fanout`: notices for the members of an activity

The handler of `notify.activity_fanout` tells the members of an activity something, in the transaction
that ends the task. A run that fails leaves the tables as they are, and the queue tries again. Between
two runs anything may change: members, blocks, mute settings, notifications (`change`).

The query passes over the members who have the notice, and stops after `maxRecipients` rows. So the run
that ends the task hands the notice to all whom it concerns, or to that number of them.
-/

namespace SocialActivities.Jobs

open Lib

/-- A row of `notifications_notification`. -/
structure Notification where
  recipient : Nat
  kind : String
  title : String
  body : String
  url : String
  deriving DecidableEq

/-- The activity, with the users of its rows of `social_membership` in state `member`, by id. -/
structure Activity where
  owner : Option Nat
  isHidden : Bool
  members : List Nat
  /-- `uq_membership_activity_user`. -/
  unique : members.Nodup

structure World where
  activities : Int → Option Activity
  /-- Blocker and blocked. -/
  blocks : Nat → Nat → Bool
  mutedKinds : Nat → List String
  notifications : List Notification

/-- `platform.Notify`. -/
def notify (w : World) (n : Notification) : World × Bool :=
  if n.kind ≠ "moderation" ∧ n.kind ≠ "system" ∧ n.kind ∈ w.mutedKinds n.recipient then (w, false)
  else ({ w with notifications := w.notifications ++ [n] }, true)

def notificationKinds : List String :=
  ["join_requested", "join_approved", "event_reminder", "activity_cancelled", "activity_updated",
    "announcement", "group_announcement", "meetup_confirmed", "arrival", "connection_request",
    "connection_accepted", "mention", "organizer_role", "activity_match", "gauge_match",
    "group_question", "interest_converted", "rsvp_nudge", "organizer_prep", "supervisor_needed",
    "formative_note", "mod_alert", "moderation", "system"]

def clampText (value : String) (limit : Nat) : String := String.ofList (value.toList.take limit)

/-- The fields of the payload that have their type. -/
structure Payload where
  activityId : Option Int
  kind : Option String
  title : Option String
  body : Option String
  url : Option String
  excludeUserId : Option Int

/-- The path of an activity. -/
def activityUrl (id : Int) : String := "/api/social/activities/" ++ toString id ++ "/"

def Payload.activity (p : Payload) : Int := p.activityId.getD 0

/-- The notice, as a member gets it. -/
def Payload.notice (p : Payload) (recipient : Nat) : Notification where
  recipient := recipient
  kind := p.kind.getD "announcement"
  title := clampText (p.title.getD "") 200
  body := clampText (p.body.getD "") 600
  url := clampText (p.url.getD (activityUrl p.activity)) 300

inductive Error where
  /-- `activity required`. -/
  | activityRequired
  /-- `invalid notification kind`. -/
  | invalidKind
  /-- The database returned an error. -/
  | database
  deriving DecidableEq

def maxRecipients : Nat := 500

section
variable (p : Payload) (w : World)

/-- The notice concerns a member: not the excluded user, and no block with the owner. -/
def concerns (a : Activity) (u : Nat) : Bool :=
  decide ((u : Int) ≠ p.excludeUserId.getD 0) &&
    a.owner.all fun owner => !(w.blocks owner u || w.blocks u owner)

/-- The member has a notification of the kind, title and url. -/
def hasNotice (u : Nat) : Bool :=
  w.notifications.any fun n => n.recipient == u && n.kind == (p.notice u).kind &&
    n.title == (p.notice u).title && n.url == (p.notice u).url

/-- The members of the activity whom the notice concerns, if it is visible. -/
def audience : List Nat :=
  match w.activities p.activity with
  | some a => if a.isHidden then [] else a.members.filter (concerns p w a)
  | none => []

/-- The query, without its limit. -/
def recipients : List Nat := (audience p w).filter fun u => !hasNotice p w u

def activityFanout : Except Error (World × List Nat) := do
  need Error.activityRequired (decide (1 ≤ p.activity))
  need Error.invalidKind (notificationKinds.contains (p.notice 0).kind)
  let ids := (recipients p w).take maxRecipients
  pure (ids.foldl (fun w u => (notify w (p.notice u)).1) w, ids)

end

/-! ### The task -/

inductive Status where
  | pending
  | done
  | failed
  deriving DecidableEq

structure State where
  world : World
  status : Status
  attempts : Nat

inductive Act where
  /-- A worker claims the task. With `fails` a statement of the handler returns an error. -/
  | run (fails : Bool)
  /-- Everything else that is committed. -/
  | change (w : World)

variable (p : Payload) (maxAttempts : Nat)

/-- What the handler does in a run of a pending task. -/
def State.handle (s : State) : Act → Option (Except Error (World × List Nat))
  | .run fails =>
    if s.status = .pending then
      some (if fails then .error .database else activityFanout p s.world)
    else none
  | .change _ => none

def State.step (s : State) (act : Act) : State :=
  match act, s.handle p act with
  | _, some (.ok (w, _)) => ⟨w, .done, s.attempts + 1⟩
  | _, some (.error _) =>
    ⟨s.world, if maxAttempts ≤ s.attempts + 1 then .failed else .pending, s.attempts + 1⟩
  | .change w, none => { s with world := w }
  | .run _, none => s

/-- The members whom a run that commits has handed to the notifier. -/
def State.handed (s : State) (act : Act) : Option (List Nat) :=
  match s.handle p act with
  | some (.ok (_, ids)) => some ids
  | _ => none

/-- The state after a run of the queue, on a new task. -/
def after (w : World) (acts : List Act) : State :=
  Machine.run (State.step p maxAttempts) ⟨w, .pending, 0⟩ acts

/-- What the run that ends the task has done. -/
structure FansOut (w w' : World) (ids : List Nat) : Prop where
  /-- Nobody is handed it twice, or has it. -/
  once : ids.Nodup ∧ ∀ u ∈ ids, hasNotice p w u = false
  /-- Those who have not muted its kind get it, in order, and nothing else changes. -/
  delivered : w' = { w with notifications := w.notifications ++
    (ids.filter fun u => (notify w (p.notice u)).2).map p.notice }
  /-- Everyone whom it concerns has it or is handed it, or comes after the last that is handed it. -/
  reached : ∀ u ∈ audience p w, hasNotice p w u = true ∨ u ∈ ids ∨
    u ∈ (recipients p w).drop maxRecipients

section
variable {p maxAttempts} {w w' : World} {ids : List Nat}

theorem audience_nodup : (audience p w).Nodup := by
  unfold audience
  split
  · rename_i a _
    split
    · exact List.nodup_nil
    · exact a.unique.filter _
  · exact List.nodup_nil

theorem notify_muted (n : Notification) (rows : List Notification) :
    notify { w with notifications := rows } n =
      if (notify w n).2 = true then ({ w with notifications := rows ++ [n] }, true)
      else ({ w with notifications := rows }, false) := by
  unfold notify
  split <;> rfl

theorem foldl_notify (f : Nat → Notification) (ids : List Nat) (rows : List Notification) :
    ids.foldl (fun v u => (notify v (f u)).1) { w with notifications := rows } =
      { w with notifications := rows ++ (ids.filter fun u => (notify w (f u)).2).map f } := by
  -- No notice changes what is muted, so the first world says who gets one.
  induction ids generalizing rows with
  | nil => simp
  | cons u us ih =>
    rw [List.foldl_cons, notify_muted]
    by_cases hmuted : (notify w (f u)).2 = true
    · rw [if_pos hmuted, ih]
      simp [hmuted]
    · rw [if_neg hmuted, ih]
      simp [hmuted]

theorem fansOut_of_ok (h : activityFanout p w = .ok (w', ids)) : FansOut p w w' ids := by
  unfold activityFanout at h
  rw [seq_eq_ok, seq_eq_ok, pure_eq_ok] at h
  obtain ⟨-, -, h⟩ := h
  cases h
  refine ⟨⟨?_, fun u hu => ?_⟩, foldl_notify p.notice _ w.notifications, fun u hu => ?_⟩
  · exact (audience_nodup.filter _).sublist (List.take_sublist ..)
  · simpa using (List.mem_filter.mp (List.mem_of_mem_take hu)).2
  · by_cases hhas : hasNotice p w u = true
    · exact Or.inl hhas
    · have hmem : u ∈ recipients p w := List.mem_filter.mpr ⟨hu, by simpa using hhas⟩
      rw [← List.take_append_drop maxRecipients (recipients p w), List.mem_append] at hmem
      exact Or.inr hmem

theorem handed_eq_some {s : State} {act : Act} (h : s.handed p act = some ids) :
    s.status = .pending ∧ (s.step p maxAttempts act).status = .done ∧
      FansOut p s.world (s.step p maxAttempts act).world ids := by
  unfold State.handed at h
  split at h
  · rename_i w' ids' hhandle
    cases h
    simp only [State.step, hhandle]
    cases act with
    | change => cases hhandle
    | run fails =>
      simp only [State.handle, Option.ite_none_right_eq_some, Option.some.injEq] at hhandle
      obtain ⟨hpending, hok⟩ := hhandle
      split at hok
      · cases hok
      · exact ⟨hpending, trivial, fansOut_of_ok hok⟩
  · cases h

/-- Only a run that commits ends the task as done. -/
theorem handed_eq_none {s : State} {act : Act} (h : s.handed p act = none) :
    (s.step p maxAttempts act).status = .done ↔ s.status = .done := by
  cases act with
  | change => rfl
  | run fails =>
    cases hhandle : s.handle p (.run fails) with
    | none => simp only [State.step, hhandle]
    | some result =>
      cases result with
      | ok => simp only [State.handed, hhandle, reduceCtorEq] at h
      | error =>
        simp only [State.handle, Option.ite_none_right_eq_some] at hhandle
        simp only [State.step, State.handle, hhandle.1, hhandle.2, if_true, reduceCtorEq, iff_false]
        split <;> simp

end

/-- The task is done exactly if one run of it has committed. That run hands the notice to all whom it
concerns, or to as many as the query gives, and to nobody twice. -/
theorem activity_fanout (p : Payload) (maxAttempts : Nat) (w : World) (acts : List Act) :
    ((Machine.emitted (State.step p maxAttempts) (State.handed p) ⟨w, .pending, 0⟩ acts).length =
      if (after p maxAttempts w acts).status = .done then 1 else 0) ∧
    ∀ before act rest, acts = before ++ act :: rest → ∀ ids,
      (after p maxAttempts w before).handed p act = some ids →
        FansOut p (after p maxAttempts w before).world
          (after p maxAttempts w (before ++ [act])).world ids := by
  constructor
  · -- From the end: only a pending task is handed out, and then it is done for good.
    induction acts using List.reverseRecOn with
    | nil => rfl
    | append_singleton acts act ih =>
      have hstep : after p maxAttempts w (acts ++ [act]) =
          (after p maxAttempts w acts).step p maxAttempts act := Machine.run_concat ..
      rw [Machine.emitted_concat, List.length_append, ih, hstep]
      show _ + ((after p maxAttempts w acts).handed p act).toList.length = _
      cases hhanded : (after p maxAttempts w acts).handed p act with
      | none => simp [handed_eq_none hhanded]
      | some ids =>
        obtain ⟨hpending, hdone, -⟩ := @handed_eq_some p maxAttempts _ _ _ hhanded
        simp [hpending, hdone]
  · intro before act rest _ ids hhanded
    have hstep : after p maxAttempts w (before ++ [act]) =
        (after p maxAttempts w before).step p maxAttempts act := Machine.run_concat ..
    rw [hstep]
    exact (handed_eq_some hhanded).2.2

/-- An activity with more members than one run tells. -/
def crowd : World where
  activities _ := some ⟨none, false, List.range' 1 501, List.nodup_range'⟩
  blocks _ _ := false
  mutedKinds _ := []
  notifications := []

def announcement : Payload := ⟨some 1, none, some "News", none, none, none⟩

/-- The task is done, and the last member has not been told. -/
theorem last_member_missed :
    (after announcement 5 crowd [.run false]).status = .done ∧ 501 ∈ audience announcement crowd ∧
      hasNotice announcement (after announcement 5 crowd [.run false]).world 501 = false := by
  have haudience : audience announcement crowd = List.range' 1 501 := by
    refine List.filter_eq_self.mpr fun u hu => ?_
    have hpositive := (List.mem_range'_1.mp hu).1
    simp [concerns, crowd, announcement]
    omega
  have hrecipients : recipients announcement crowd = List.range' 1 501 := by
    rw [recipients, haudience]
    exact List.filter_eq_self.mpr fun u _ => rfl
  have hhanded : State.handed announcement ⟨crowd, .pending, 0⟩ (.run false) =
      some ((recipients announcement crowd).take maxRecipients) := rfl
  obtain ⟨-, hdone, hfans⟩ := @handed_eq_some _ 5 _ _ _ hhanded
  have hstep : after announcement 5 crowd [.run false] =
      State.step announcement 5 ⟨crowd, .pending, 0⟩ (.run false) := Machine.run_cons ..
  rw [hrecipients] at hfans
  rw [hstep, hfans.delivered, hasNotice, List.any_eq_false]
  refine ⟨hdone, by rw [haudience, List.mem_range'_1]; omega, ?_⟩
  intro n hn
  obtain ⟨u, hu, rfl⟩ := List.mem_map.mp hn
  have hlast : u ≠ 501 := by
    rintro rfl
    have htake := (List.mem_filter.mp hu).1
    obtain ⟨i, hi, hget⟩ := List.mem_take_iff_getElem.mp htake
    rw [List.getElem_range'] at hget
    simp only [maxRecipients] at hi
    omega
  simp [Payload.notice, hlast]

end SocialActivities.Jobs
