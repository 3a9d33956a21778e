import SocialActivities.Feeds.Upserts

/-!
# `SocialActivities.Feeds.Deliveries`: the sync of a feed (Go and Python)

A sync parses the text of a feed and writes the events that have not ended. `deliveries` is the parser
again, which also keeps the `UID` of each event as the feed has it (`deliveries_events`). Go writes all
events of a feed or none, Python one after the other up to the first that is refused; either way a sync
is a run of writes (`syncFeed_run`).
-/

namespace SocialActivities.Feeds

open Lib Lib.Machine

/-- A draft, with the `UID` that it was cut from. -/
structure Traced where
  draft : Draft
  uid : Text
  uid_eq : draft.uid = uid.take 200

def Traced.init : Traced := ⟨{}, [], rfl⟩

/-- When the event is over. -/
def RawEvent.over (e : RawEvent) : Int := e.ends.getD e.starts

/-- The writes of events that have not ended. -/
def writesOf {dating : Dating} (feed : Nat) (place : Option Nat) (now : Int) (xs : List (Delivered dating)) :
    List (Write dating) :=
  (xs.filter fun x => !decide (x.event.over < now)).map fun x => ⟨feed, place, x⟩

/-- The writes of a sync, up to the first that is refused. The flag tells whether there was none. -/
def storeAll {dating : Dating} (idOf : Write dating → Text) :
    List (Row dating) → List (Write dating) → List (Row dating) × Bool
  | rows, [] => (rows, true)
  | rows, x :: xs =>
    if rows.any (finds (idOf x) x) ∨ (idOf x).length ≤ idLength then storeAll idOf (store idOf rows x) xs
    else (rows, false)

theorem storeAll_run {dating : Dating} (idOf : Write dating → Text) (rows : List (Row dating))
    (xs : List (Write dating)) : ∃ done, done <+: xs ∧ (storeAll idOf rows xs).1 = run (store idOf) rows done := by
  induction xs generalizing rows with
  | nil => exact ⟨[], List.prefix_rfl, rfl⟩
  | cons x xs ih =>
    rw [storeAll]
    split
    · have ⟨done, hdone, hrun⟩ := ih (store idOf rows x)
      exact ⟨x :: done, List.cons_prefix_cons.mpr ⟨rfl, hdone⟩, hrun⟩
    · exact ⟨[], List.nil_prefix, rfl⟩

/-! ### Go -/

namespace Go

/-- The `UID` of an event, as it is. -/
def readUid (u : Unicode) (uid line : Text) : Text :=
  match property u.goUpper line with
  | none => uid
  | some (key, value) => if key = "UID".toList then trimSpace value else uid

theorem uid_readLine (u : Unicode) {d : Draft} {uid : Text} (h : d.uid = uid.take 200) (line : Text) :
    (readLine u d line).uid = (readUid u uid line).take 200 := by
  unfold readLine readUid
  cases property u.goUpper line with
  | none => exact h
  | some p =>
    have ⟨key, value⟩ := p
    dsimp only
    by_cases huid : key = "UID".toList
    · rw [huid]
      rfl
    · rw [if_neg huid, if_neg huid]
      split_ifs
      all_goals try exact h
      split <;> exact h

def readTraced (u : Unicode) (t : Traced) (line : Text) : Traced :=
  ⟨readLine u t.draft line, readUid u t.uid line, uid_readLine u t.uid_eq line⟩

theorem externalId_eventsOf {u : Unicode} {now : Int} {t : Traced} {e : RawEvent}
    (he : e ∈ eventsOf u now t.draft) :
    e.externalId = rawId dating t.uid (!t.draft.rule.isEmpty) e.starts := by
  unfold eventsOf at he
  cases hstarts : t.draft.starts with
  | none =>
    rw [hstarts] at he
    exact absurd he List.not_mem_nil
  | some =>
    rw [hstarts] at he
    have ⟨date, _, hdate⟩ := List.mem_map.mp he
    rw [← hdate]
    dsimp only
    rw [t.uid_eq]
    unfold rawId
    cases t.draft.rule with
    | nil | cons => rfl

/-- The events of a draft, with their `UID`. -/
def deliver (u : Unicode) (now : Int) (current : Option Traced) : List (Delivered dating) :=
  match current with
  | none => []
  | some t => (eventsOf u now t.draft).attach.map fun e =>
      ⟨t.uid, !t.draft.rule.isEmpty, e.1, externalId_eventsOf e.2⟩

/-- The events of a feed, with their `UID`. -/
def deliveries (u : Unicode) (raw : Text) (now : Int) : Except CalendarError (List (Delivered dating)) := do
  let lines ← unfoldText raw
  pure (((heldAtEnd Traced.init (readTraced u) none lines).flatMap (deliver u now)).take feedMaxEvents)

theorem deliver_events (u : Unicode) (now : Int) (current : Option Traced) :
    (deliver u now current).map Delivered.event = yields u now (current.map Traced.draft) := by
  cases current with
  | none => rfl
  | some t =>
    show ((eventsOf u now t.draft).attach.map _).map _ = eventsOf u now t.draft
    rw [List.map_map]
    exact List.attach_map_subtype_val _

theorem deliveries_events (u : Unicode) (raw : Text) (now : Int) :
    (deliveries u raw now).map (List.map Delivered.event) = parseICS u raw now := by
  unfold deliveries parseICS
  cases unfoldText raw with
  | error => rfl
  | ok lines =>
    have hdrafts : (heldAtEnd Traced.init (readTraced u) none lines).map (Option.map Traced.draft) =
        draftsAtEnd (readLine u) none lines :=
      heldAtEnd_map (fun _ _ => rfl) none lines
    show Except.ok _ = Except.ok _
    rw [List.map_take, List.map_flatMap, parseLines_eq u now none (by decide), ← hdrafts, List.flatMap_map,
      List.nil_append]
    simp only [deliver_events]

/-- The identity of a write. -/
def storedId (x : Write dating) : Text :=
  let uid := x.delivered.event.externalId
  if uid = [] then [] else feedExternalID x.feed uid

/-- The sync of a feed, in one transaction. -/
def syncFeed (u : Unicode) (rows : List (Row dating)) (feed : Nat) (place : Option Nat) (raw : Text)
    (now : Int) : List (Row dating) :=
  match deliveries u raw now with
  | .error _ => rows
  | .ok xs =>
    match storeAll storedId rows (writesOf feed place now xs) with
    | (rows, true) => rows
    | (_, false) => rows

theorem syncFeed_run (u : Unicode) (rows : List (Row dating)) (feed : Nat) (place : Option Nat) (raw : Text)
    (now : Int) : ∃ done, syncFeed u rows feed place raw now = run (store storedId) rows done ∧
      ∀ x ∈ done, ∃ xs, deliveries u raw now = .ok xs ∧ x ∈ writesOf feed place now xs := by
  have hnone : ∀ x ∈ ([] : List (Write dating)), ∃ xs, deliveries u raw now = .ok xs ∧
      x ∈ writesOf feed place now xs := fun _ hx => absurd hx List.not_mem_nil
  unfold syncFeed
  cases hxs : deliveries u raw now with
  | error => exact ⟨[], rfl, hxs ▸ hnone⟩
  | ok xs =>
    have ⟨done, hdone, hrun⟩ := storeAll_run storedId rows (writesOf feed place now xs)
    dsimp only
    cases hall : storeAll storedId rows (writesOf feed place now xs) with
    | mk after all =>
      rw [hall] at hrun
      cases all with
      | true => exact ⟨done, hrun, fun x hx => ⟨xs, rfl, hdone.subset hx⟩⟩
      | false => exact ⟨[], rfl, hxs ▸ hnone⟩

end Go

/-! ### Python -/

namespace Py

/-- The `UID` of an event, as it is. -/
def readUid (u : Unicode) (uid line : Text) : Text :=
  match property u.pyUpper line with
  | none => uid
  | some (key, value) => if key = "UID".toList then strip value else uid

theorem uid_readLine (u : Unicode) {d : Draft} {uid : Text} (h : d.uid = uid.take 200) (line : Text) :
    (readLine u d line).uid = (readUid u uid line).take 200 := by
  unfold readLine readUid
  cases property u.pyUpper line with
  | none => exact h
  | some p =>
    have ⟨key, value⟩ := p
    dsimp only
    by_cases huid : key = "UID".toList
    · rw [huid]
      rfl
    · rw [if_neg huid, if_neg huid]
      split_ifs
      all_goals exact h

def readTraced (u : Unicode) (t : Traced) (line : Text) : Traced :=
  ⟨readLine u t.draft line, readUid u t.uid line, uid_readLine u t.uid_eq line⟩

theorem mem_of_mapM_ok {α β : Type} {f : α → Except Raised β} {as : List α} {bs : List β}
    (h : as.mapM f = .ok bs) {b : β} (hb : b ∈ bs) : ∃ a ∈ as, f a = .ok b := by
  induction as generalizing bs with
  | nil =>
    rw [List.mapM_nil] at h
    rw [← Except.ok.inj h] at hb
    exact absurd hb List.not_mem_nil
  | cons a as ih =>
    rw [List.mapM_cons, bind_eq_ok] at h
    have ⟨b', hb', h⟩ := h
    have ⟨bs', hbs', h⟩ := bind_eq_ok.mp h
    rw [← Except.ok.inj h] at hb
    rcases List.mem_cons.mp hb with rfl | hb
    · exact ⟨a, List.mem_cons_self, hb'⟩
    · have ⟨c, hc, hcb⟩ := ih hbs' hb
      exact ⟨c, List.mem_cons_of_mem _ hc, hcb⟩

variable {years : Years}

theorem externalId_occurrence {d : Draft} {duration : Option Int} {occ : Int} {e : RawEvent}
    (h : occurrence years.text d duration occ = .ok e) :
    e.externalId = occurrenceId (dateOf years.text) d.uid e.starts := by
  unfold occurrence at h
  have ⟨_, _, h⟩ := bind_eq_ok.mp h
  rw [← Except.ok.inj h]

theorem externalId_eventsOf {u : Unicode} {now : Int} {t : Traced} {es : List RawEvent}
    (hes : eventsOf u years.text now t.draft = .ok es) {e : RawEvent} (he : e ∈ es) :
    e.externalId = rawId (dating years) t.uid (!t.draft.rule.isEmpty) e.starts := by
  unfold eventsOf at hes
  cases hstarts : t.draft.starts with
  | none =>
    rw [hstarts] at hes
    rw [← Except.ok.inj hes] at he
    exact absurd he List.not_mem_nil
  | some =>
    rw [hstarts] at hes
    dsimp only at hes
    unfold rawId
    rw [← t.uid_eq]
    split at hes
    · next hrule =>
      rw [← Except.ok.inj hes] at he
      rw [List.mem_singleton.mp he, hrule]
      rfl
    · next hrule =>
      unfold expandedEvents at hes
      have ⟨occurrences, _, hes⟩ := bind_eq_ok.mp hes
      have ⟨occ, _, hocc⟩ := mem_of_mapM_ok hes he
      rw [externalId_occurrence hocc, if_pos (by simpa using hrule)]
      rfl

/-- The events of a draft, with their `UID`. -/
def deliver (years : Years) (u : Unicode) (now : Int) (current : Option Traced) :
    Except Raised (List (Delivered (dating years))) :=
  match current with
  | none => .ok []
  | some t =>
    match hes : eventsOf u years.text now t.draft with
    | .error e => .error e
    | .ok es => .ok (es.attach.map fun e =>
        ⟨t.uid, !t.draft.rule.isEmpty, e.1, externalId_eventsOf hes e.2⟩)

/-- The events of a feed, with their `UID`. -/
def deliveries (years : Years) (u : Unicode) (text : Text) (now : Int) :
    Except Raised (List (Delivered (dating years))) :=
  collect [] ((heldAtEnd Traced.init (readTraced u) none (unfoldText text)).map (deliver years u now))

theorem deliver_events (u : Unicode) (now : Int) (current : Option Traced) :
    (deliver years u now current).map (List.map Delivered.event) =
      yields u years.text now (current.map Traced.draft) := by
  cases current with
  | none => rfl
  | some t =>
    show (deliver years u now (some t)).map _ = eventsOf u years.text now t.draft
    unfold deliver
    dsimp only
    split
    · next e hes =>
      rw [hes]
      rfl
    · next es hes =>
      refine Eq.trans ?_ hes.symm
      show Except.ok ((es.attach.map _).map _) = Except.ok es
      rw [List.map_map]
      exact congrArg Except.ok (List.attach_map_subtype_val es)

theorem collect_map {α β : Type} (f : α → β) (out : List α) (given : List (Except Raised (List α))) :
    (collect out given).map (List.map f) = collect (out.map f) (given.map (Except.map (List.map f))) := by
  induction given generalizing out with
  | nil => rfl
  | cons block given ih =>
    rw [collect, List.map_cons, collect]
    cases block with
    | error => rfl
    | ok =>
      show (Except.map _ (if _ then _ else _)) = if _ then _ else _
      rw [← List.map_append, List.length_map]
      split
      · exact congrArg Except.ok List.map_take
      · exact ih _

theorem deliveries_events (u : Unicode) (text : Text) (now : Int) :
    (deliveries years u text now).map (List.map Delivered.event) = parseIcs u years.text text now := by
  have hdrafts : (heldAtEnd Traced.init (readTraced u) none (unfoldText text)).map
      (Option.map Traced.draft) = draftsAtEnd (readLine u) none (unfoldText text) :=
    heldAtEnd_map (fun _ _ => rfl) none (unfoldText text)
  unfold deliveries parseIcs
  rw [collect_map, parseLines_eq, ← hdrafts, List.map_map, List.map_map]
  congr 1
  exact List.map_congr_left fun current _ => deliver_events u now current

/-- The identity of a write. -/
def storedId (x : Write (dating years)) : Text :=
  let uid := x.delivered.event.externalId
  if uid = [] then [] else feedName x.feed ++ uid

/-- The sync of a feed. What was written before an event that is refused stays. -/
def syncFeed (u : Unicode) (rows : List (Row (dating years))) (feed : Nat) (place : Option Nat) (text : Text)
    (now : Int) : List (Row (dating years)) :=
  match deliveries years u text now with
  | .error _ => rows
  | .ok xs => (storeAll storedId rows (writesOf feed place now xs)).1

theorem syncFeed_run (u : Unicode) (rows : List (Row (dating years))) (feed : Nat) (place : Option Nat)
    (text : Text) (now : Int) : ∃ done, syncFeed u rows feed place text now = run (store storedId) rows done ∧
      ∀ x ∈ done, ∃ xs, deliveries years u text now = .ok xs ∧ x ∈ writesOf feed place now xs := by
  unfold syncFeed
  cases hxs : deliveries years u text now with
  | error => exact ⟨[], rfl, fun _ hx => absurd hx List.not_mem_nil⟩
  | ok xs =>
    have ⟨done, hdone, hrun⟩ := storeAll_run storedId rows (writesOf feed place now xs)
    exact ⟨done, hrun, fun x hx => ⟨xs, rfl, hdone.subset hx⟩⟩

end Py

/-! ### Identities -/

theorem externalId_of_repeats {dating : Dating} {x y : Write dating} (h : Repeats x y) :
    x.delivered.event.externalId = y.delivered.event.externalId := by
  have hday : dating.dayOf x.delivered.event.starts = dating.dayOf y.delivered.event.starts := h.day
  have huid : x.delivered.uid = y.delivered.uid := h.uid
  rw [x.delivered.id_eq, y.delivered.id_eq, huid, h.recurring]
  unfold rawId occurrenceId
  simp only [hday]

/-- Two writes of a feed get one identity in Go. -/
def Go.Confusable (x y : Write dating) : Prop :=
  x.feed = y.feed ∧
    (Alike x.delivered y.delivered ∨
      Digests x.feed x.delivered.event.externalId y.delivered.event.externalId ∨
      Digests x.feed y.delivered.event.externalId x.delivered.event.externalId)

/-- No two of the identities have the same digest. -/
def Go.NoCollision (writes : List (Write dating)) : Prop :=
  ∀ x ∈ writes, ∀ y ∈ writes, sha256 x.delivered.event.externalId = sha256 y.delivered.event.externalId →
    x.delivered.event.externalId = y.delivered.event.externalId

theorem feedName_append_ne_nil (feed : Nat) (s : Text) : feedName feed ++ s ≠ [] := by
  unfold feedName
  exact List.append_ne_nil_of_left_ne_nil (List.append_ne_nil_of_right_ne_nil _ (List.cons_ne_nil _ _)) _

theorem blank_iff {x : Write dating} {id : Text} (h : id ≠ []) :
    (if x.delivered.event.externalId = [] then [] else id) = [] ↔ x.uid = [] := by
  rw [← show x.delivered.event.externalId = [] ↔ x.uid = [] from rawId_eq_nil_iff]
  split
  · next hnil => exact ⟨fun _ => hnil, fun _ => rfl⟩
  · next hnil => exact ⟨fun heq => absurd heq h, fun heq => absurd heq hnil⟩

theorem Go.rules {writes : List (Write dating)} (hsha : NoCollision writes) :
    Rules storedId Confusable writes := by
  refine ⟨fun x => ?_, fun x y hrepeats => ?_, fun x hx y hy hxuid hyuid => ?_⟩
  · refine blank_iff ?_
    unfold feedExternalID
    dsimp only
    split <;> exact feedName_append_ne_nil _ _
  · unfold storedId
    rw [externalId_of_repeats hrepeats, hrepeats.feed]
  · unfold storedId Confusable
    dsimp only
    rw [if_neg (mt rawId_eq_nil_iff.mp hxuid), if_neg (mt rawId_eq_nil_iff.mp hyuid),
      feedExternalID_eq_iff (hsha x hx y hy), rawId_eq_iff hxuid hyuid]

/-- Two writes of a feed get one identity in Python. -/
def Py.Confusable {years : Years} (x y : Write (dating years)) : Prop :=
  x.feed = y.feed ∧ Alike x.delivered y.delivered

theorem Py.rules {years : Years} (writes : List (Write (dating years))) :
    Rules storedId Confusable writes := by
  refine ⟨fun x => blank_iff (feedName_append_ne_nil _ _), fun x y hrepeats => ?_,
    fun x _ y _ hxuid hyuid => ?_⟩
  · unfold storedId
    rw [externalId_of_repeats hrepeats, hrepeats.feed]
  · unfold storedId Confusable
    dsimp only
    rw [if_neg (mt rawId_eq_nil_iff.mp hxuid), if_neg (mt rawId_eq_nil_iff.mp hyuid), ← rawId_eq_iff hxuid hyuid]
    constructor
    · exact fun h => feedName_append_inj h
    · rintro ⟨hfeed, hid⟩
      rw [hfeed, hid]

/-- Over all runs of the writes of feeds: none goes to the row of another occurrence exactly where all are
distinct, and then a repeated one adds no row. -/
theorem feed_identity (years : Years) :
    (∀ writes : List (Write Go.dating), Go.NoCollision writes →
      ((∀ p ∈ steps (store Go.storedId) [] writes, ¬Overwrites Go.storedId p.1 p.2) ↔
        ∀ p ∈ steps (store Go.storedId) [] writes, Distinct Go.Confusable p.1 p.2) ∧
      ((∀ p ∈ steps (store Go.storedId) [] writes, Distinct Go.Confusable p.1 p.2) →
        ∀ before x after, writes = before ++ x :: after → (∃ y ∈ before, Repeats x y) →
          (store Go.storedId (run (store Go.storedId) [] before) x).length =
            (run (store Go.storedId) [] before).length)) ∧
    ∀ writes : List (Write (Py.dating years)),
      ((∀ p ∈ steps (store Py.storedId) [] writes, ¬Overwrites Py.storedId p.1 p.2) ↔
        ∀ p ∈ steps (store Py.storedId) [] writes, Distinct Py.Confusable p.1 p.2) ∧
      ((∀ p ∈ steps (store Py.storedId) [] writes, Distinct Py.Confusable p.1 p.2) →
        ∀ before x after, writes = before ++ x :: after → (∃ y ∈ before, Repeats x y) →
          (store Py.storedId (run (store Py.storedId) [] before) x).length =
            (run (store Py.storedId) [] before).length) := by
  refine ⟨fun writes hsha => ?_, fun writes => ?_⟩
  · have hrules := Go.rules hsha
    exact ⟨hrules.overwrites_iff, fun hdistinct before x after hwrites hrepeats =>
      hrules.length_repeated hdistinct hwrites hrepeats⟩
  · have hrules := Py.rules writes
    exact ⟨hrules.overwrites_iff, fun hdistinct before x after hwrites hrepeats =>
      hrules.length_repeated hdistinct hwrites hrepeats⟩

/-- A single event, as a feed delivers it. -/
def chess (dating : Dating) : Write dating :=
  ⟨1, none, "chess".toList, false, ⟨"Chess".toList, [], [], "chess".toList, 0, none⟩, rfl⟩

/-- A feed that delivers the event twice gets one row. -/
theorem feed_identity_chess :
    (store Go.storedId (store Go.storedId [] (chess Go.dating)) (chess Go.dating)).length = 1 ∧
    (store Py.storedId (store Py.storedId [] (chess (Py.dating .padded))) (chess (Py.dating .padded))).length =
      1 := by
  have hrepeats : ∀ dating, Repeats (chess dating) (chess dating) := fun _ => ⟨rfl, rfl, rfl, rfl, fun _ => rfl⟩
  have huid : ∀ dating, (chess dating).uid ≠ [] := fun _ h =>
    absurd (show "chess".toList = [] from h) (by decide)
  have hsha : Go.NoCollision [chess Go.dating, chess Go.dating] := by
    intro x hx y hy _
    have hx : x = chess Go.dating := by simpa using hx
    have hy : y = chess Go.dating := by simpa using hy
    rw [hx, hy]
  have hgo := ((feed_identity .padded).1 _ hsha).2 (Rules.distinct_twice _ _ (huid _)) [chess Go.dating]
    (chess Go.dating) [] rfl ⟨_, List.mem_singleton_self _, hrepeats _⟩
  have hpy := ((feed_identity .padded).2 [chess (Py.dating .padded), chess (Py.dating .padded)]).2
    (Rules.distinct_twice _ _ (huid _)) [chess (Py.dating .padded)] (chess (Py.dating .padded)) [] rfl
    ⟨_, List.mem_singleton_self _, hrepeats _⟩
  exact ⟨hgo, hpy⟩

/-- Two meetings of a series that were moved: single events, with the `UID` of the series. -/
def movedMeetings : Text :=
  ["BEGIN:VEVENT", "UID:chess", "SUMMARY:Chess", "RECURRENCE-ID:20260601", "DTSTART:20260602", "END:VEVENT",
    "BEGIN:VEVENT", "UID:chess", "SUMMARY:Final", "RECURRENCE-ID:20260608", "DTSTART:20260609",
    "END:VEVENT"].flatMap fun line => line.toList ++ ['\n']

/-- The second meeting goes to the row of the first, which is a week earlier. -/
theorem moved_meeting_overwritten :
    (Go.deliveries .ascii movedMeetings 0).map (List.map fun x => (x.uid, x.event.title)) =
      .ok [("chess".toList, "Chess".toList), ("chess".toList, "Final".toList)] ∧
    (Go.syncFeed .ascii [] 1 none movedMeetings 0).map (fun row => row.written.delivered.event.title) =
      ["Final".toList] ∧
    (Py.deliveries .padded .ascii movedMeetings 0).map (List.map fun x => (x.uid, x.event.title)) =
      .ok [("chess".toList, "Chess".toList), ("chess".toList, "Final".toList)] ∧
    (@Py.syncFeed .padded .ascii [] 1 none movedMeetings 0).map
        (fun row => row.written.delivered.event.title) = ["Final".toList] :=
  ⟨by decide +kernel, by decide +kernel, by decide +kernel, by decide +kernel⟩

end SocialActivities.Feeds
