import SocialActivities.Feeds.Parse

/-!
# `SocialActivities.Feeds.Fields`: the fields of an event are its own (Go and Python)

Both parsers make the events of an event component from the draft that they hold at its end
(`draftsAtEnd`). `drafts_of_lines` says which draft that is: it has read all lines of the component, also
those of the components in it, and there is none if an event was nested in it.

`Undisturbed` is when that is what the own properties of the component say. `event_fields` has the
consequences for either parser: the drafts are those of the own properties exactly then, and the events
are too, up to the cap on the whole feed. How the text is folded and which line endings it has never
matters.
-/

namespace SocialActivities.Feeds

open Lib Lib.Calendar Lib.ContentLines
open Audit (pad)

/-! ### The drafts at the ends -/

/-- What is held at each end of an event, where each begins with `init`. -/
def heldAtEnd {α : Type} (init : α) (read : α → Text → α) : Option α → List Text → List (Option α)
  | _, [] => []
  | current, line :: lines =>
    if line = beginEvent then heldAtEnd init read (some init) lines
    else if line = endEvent then current :: heldAtEnd init read none lines
    else heldAtEnd init read (current.map fun a => read a line) lines

/-- The drafts at the ends of the events. -/
def draftsAtEnd (read : Draft → Text → Draft) : Option Draft → List Text → List (Option Draft) :=
  heldAtEnd {} read

theorem draftsAtEnd_nil (read : Draft → Text → Draft) (current : Option Draft) :
    draftsAtEnd read current [] = [] := rfl

theorem draftsAtEnd_cons (read : Draft → Text → Draft) (current : Option Draft) (line : Text)
    (lines : List Text) :
    draftsAtEnd read current (line :: lines) =
      if line = beginEvent then draftsAtEnd read (some {}) lines
      else if line = endEvent then current :: draftsAtEnd read none lines
      else draftsAtEnd read (current.map fun d => read d line) lines := rfl

def event : List Char := "VEVENT".toList

/-- The components of events, by their end. -/
def events (calendar : Tree) : List Tree := calendar.named event

/-- What is held after the lines of a component. -/
def after (read : Draft → Text → Draft) (current : Option Draft) (content : Tree) : Option Draft :=
  if events content = [] then current.map fun d => content.lines.foldl read d else none

/-- The draft at the end of an event. -/
def held (read : Draft → Text → Draft) (content : Tree) : Option Draft := after read (some {}) content

theorem after_none (read : Draft → Text → Draft) (content : Tree) : after read none content = none := by
  unfold after
  split <;> rfl

theorem beginLine_eq_iff {name : List Char} : beginLine name = beginEvent ↔ name = event := by
  rw [show beginEvent = beginLine event by decide]
  exact List.append_right_inj _

theorem endLine_eq_iff {name : List Char} : endLine name = endEvent ↔ name = event := by
  rw [show endEvent = endLine event by decide]
  exact List.append_right_inj _

theorem beginLine_ne_endEvent (name : List Char) : beginLine name ≠ endEvent := fun h =>
  absurd (List.cons.inj h).1 (by decide)

theorem endLine_ne_beginEvent (name : List Char) : endLine name ≠ beginEvent := fun h =>
  absurd (List.cons.inj h).1 (by decide)

theorem draftsAtEnd_property (read : Draft → Text → Draft) {line : Text} (h : IsProperty line)
    (current : Option Draft) (lines : List Text) :
    draftsAtEnd read current (line :: lines) = draftsAtEnd read (current.map fun d => read d line) lines := by
  have hbegin : line ≠ beginEvent := fun heq => h.no_begin (heq ▸ List.prefix_append _ event)
  have hend : line ≠ endEvent := fun heq => h.no_end (heq ▸ List.prefix_append _ event)
  rw [draftsAtEnd_cons, if_neg hbegin, if_neg hend]

variable {tree : Tree}

theorem drafts_of_lines (read : Draft → Text → Draft) (h : tree.WellFormed)
    (current : Option Draft) (lines : List Text) :
    draftsAtEnd read current (tree.lines ++ lines) =
      (events tree).map (held read) ++ draftsAtEnd read (after read current tree) lines := by
  induction tree generalizing current lines with
  | nil =>
    cases current with
    | none | some => rfl
  | property line rest ih =>
    have hafter : after read (current.map fun d => read d line) rest =
        after read current (.property line rest) := by
      unfold after
      rw [Option.map_map]
      rfl
    rw [Tree.lines, List.cons_append, draftsAtEnd_property read h.1, ih h.2, hafter]
    rfl
  | component name content rest ihcontent ihrest =>
    have ⟨_, _, hcontent, hrest⟩ := h
    have hevents : events (.component name content rest) =
        events content ++ (if name = event then [content] else []) ++ events rest := rfl
    rw [Tree.lines, List.cons_append, List.append_assoc, List.cons_append, draftsAtEnd_cons, hevents]
    by_cases hname : name = event
    · -- The end of an event, where nothing is held on.
      have hafter : after read current (.component name content rest) = none := by
        unfold after
        rw [hevents, if_pos hname, if_neg (by simp)]
      rw [if_pos (beginLine_eq_iff.mpr hname), ihcontent hcontent, draftsAtEnd_cons,
        if_neg (endLine_ne_beginEvent name), if_pos (endLine_eq_iff.mpr hname), ihrest hrest, after_none,
        hafter, if_pos hname]
      simp only [List.map_append, List.map_cons, List.append_assoc, List.cons_append, List.nil_append]
      rfl
    · -- Begin and end of another component are read like properties.
      have hbegin : beginLine name ≠ beginEvent := fun heq => hname (beginLine_eq_iff.mp heq)
      have hend : endLine name ≠ endEvent := fun heq => hname (endLine_eq_iff.mp heq)
      have hafter : after read ((after read (current.map fun d => read d (beginLine name)) content).map
          fun d => read d (endLine name)) rest = after read current (.component name content rest) := by
        unfold after
        rw [hevents, if_neg hname, List.append_nil]
        by_cases hinner : events content = []
        · rw [if_pos hinner, hinner, List.nil_append]
          split
          · simp only [Option.map_map, Tree.lines, Function.comp_def, List.foldl_cons, List.foldl_append]
          · rfl
        · rw [if_neg hinner, if_neg fun h => hinner (List.append_eq_nil_iff.mp h).1]
          split <;> rfl
      rw [if_neg hbegin, if_neg (beginLine_ne_endEvent name), ihcontent hcontent, draftsAtEnd_cons,
        if_neg (endLine_ne_beginEvent name), if_neg hend, ihrest hrest, hafter, if_neg hname, List.append_nil,
        List.map_append, List.append_assoc]

theorem heldAtEnd_map {α β : Type} {init : α} {read : α → Text → α} {read' : β → Text → β} {f : α → β}
    (hread : ∀ a line, f (read a line) = read' (f a) line) (current : Option α) (lines : List Text) :
    (heldAtEnd init read current lines).map (Option.map f) =
      heldAtEnd (f init) read' (current.map f) lines := by
  induction lines generalizing current with
  | nil => rfl
  | cons line lines ih =>
    rw [heldAtEnd, heldAtEnd]
    split
    · exact ih (some init)
    · split
      · rw [List.map_cons, ih none]
        rfl
      · rw [ih, Option.map_map, Option.map_map]
        simp only [Function.comp_def, hread]

theorem draftsAtEnd_filter {read : Draft → Text → Draft} (hblank : ∀ d, read d [] = d)
    (current : Option Draft) (lines : List Text) :
    draftsAtEnd read current (lines.filter (· ≠ [])) = draftsAtEnd read current lines := by
  induction lines generalizing current with
  | nil => rfl
  | cons line lines ih =>
    by_cases hline : line = []
    · rw [List.filter_cons_of_neg (by simp [hline]), ih, draftsAtEnd_cons, hline,
        if_neg (fun h : [] = beginEvent => absurd h (by decide)),
        if_neg (fun h : [] = endEvent => absurd h (by decide))]
      congr 1
      cases current with
      | none => rfl
      | some => rw [Option.map_some, hblank]
    · rw [List.filter_cons_of_pos (by simpa using hline), draftsAtEnd_cons, draftsAtEnd_cons]
      simp only [ih]

theorem drafts_of_written {read : Draft → Text → Draft} (hblank : ∀ d, read d [] = d)
    (h : tree.WellFormed) {lines : List Text}
    (hlines : lines.filter (· ≠ []) = tree.lines.filter (· ≠ [])) :
    draftsAtEnd read none lines = (events tree).map (held read) := by
  have hall := drafts_of_lines read h none []
  rw [List.append_nil] at hall
  rw [← draftsAtEnd_filter hblank, hlines, draftsAtEnd_filter hblank, hall]
  exact List.append_nil _

/-! ### Own properties -/

/-- The draft of the event's own properties. -/
def ownDraft (read : Draft → Text → Draft) (content : Tree) : Draft := content.own.foldl read {}

/-- A draft that gives events. -/
def hasStart (d : Draft) : Bool := d.starts.isSome

/-- The event gets what its own properties say: no line of a component in it was the last to set a field to
another value, and no event is nested in it. An event without a start gets nothing either way. -/
def Undisturbed (read : Draft → Text → Draft) (content : Tree) : Prop :=
  (held read content).filter hasStart = (some (ownDraft read content)).filter hasStart

instance (read : Draft → Text → Draft) (content : Tree) : Decidable (Undisturbed read content) :=
  inferInstanceAs (Decidable (_ = _))

theorem drafts_eq_iff {read : Draft → Text → Draft} {drafts : List (Option Draft)}
    (hdrafts : drafts = (events tree).map (held read)) :
    drafts.map (Option.filter hasStart) =
        (events tree).map (fun content => (some (ownDraft read content)).filter hasStart) ↔
      ∀ content ∈ events tree, Undisturbed read content := by
  rw [hdrafts, List.map_map]
  exact List.map_inj_left

/-! ### Go -/

namespace Go

theorem readLine_nil (u : Unicode) (d : Draft) : readLine u d [] = d := rfl

theorem append_eq {out : List RawEvent} (hout : out.length < feedMaxEvents) (events : List RawEvent) :
    append out events =
      ((out ++ events).take feedMaxEvents, decide (feedMaxEvents ≤ (out ++ events).length)) := by
  induction events generalizing out with
  | nil =>
    rw [append, List.append_nil, List.take_of_length_le hout.le, decide_eq_false (by omega)]
  | cons event events ih =>
    have happend : out ++ event :: events = (out ++ [event]) ++ events := by
      rw [List.append_assoc, List.singleton_append]
    rw [append, happend]
    split
    · next hfull =>
      have hlength : (out ++ [event]).length = feedMaxEvents := by
        rw [List.length_append, List.length_singleton] at hfull ⊢
        omega
      rw [List.take_append_of_le_length hlength.ge, List.take_of_length_le hlength.le,
        decide_eq_true (by rw [List.length_append]; omega)]
    · next hroom => exact ih (by omega)

theorem parseLines_eq (u : Unicode) (now : Int) (current : Option Draft) {out : List RawEvent}
    (hout : out.length < feedMaxEvents) (lines : List Text) :
    parseLines u now current out lines =
      (out ++ (draftsAtEnd (readLine u) current lines).flatMap (yields u now)).take feedMaxEvents := by
  induction lines generalizing current out with
  | nil => rw [parseLines, draftsAtEnd_nil, List.flatMap_nil, List.append_nil, List.take_of_length_le hout.le]
  | cons line lines ih =>
    rw [parseLines, draftsAtEnd_cons]
    split
    · exact ih (some {}) hout
    · split
      · rw [append_eq hout, List.flatMap_cons, ← List.append_assoc]
        by_cases hfull : feedMaxEvents ≤ (out ++ yields u now current).length
        · rw [decide_eq_true hfull, List.take_append_of_le_length hfull]
        · have hroom := Nat.lt_of_not_le hfull
          rw [decide_eq_false hfull, List.take_of_length_le hroom.le]
          exact ih none hroom
      · exact ih _ hout

theorem yields_filter (u : Unicode) (now : Int) (current : Option Draft) :
    yields u now (current.filter hasStart) = yields u now current := by
  cases current with
  | none => rfl
  | some d =>
    cases hstarts : d.starts with
    | some => rw [Option.filter_some, if_pos (by rw [hasStart, hstarts, Option.isSome_some])]
    | none =>
      rw [Option.filter_some, if_neg (by rw [hasStart, hstarts]; decide)]
      show [] = eventsOf u now d
      rw [eventsOf, hstarts]

/-- What a draft should give: one event for each instant, with its fields. -/
def meant (u : Unicode) (now : Int) (d : Draft) : List RawEvent :=
  match d.starts with
  | none => []
  | some starts =>
    let dates := if d.rule = [] then [starts.at dayNanos] else expandRule u starts d.rule now feedDays
    dates.map fun date =>
      { title := d.title
        description := d.description
        url := d.url
        externalId := if d.rule = [] then d.uid else occurrenceId dateOf d.uid date
        starts := date
        ends := d.ends.map fun ends => date + (ends.at dayNanos - starts.at dayNanos) }

/-- What an event should give. -/
def ownEvents (u : Unicode) (now : Int) (content : Tree) : List RawEvent :=
  meant u now (ownDraft (readLine u) content)

/-- The event is shorter than 292 years, so that its length fits in 64 bits. -/
def Spans (d : Draft) : Prop :=
  ∀ starts ends, d.starts = some starts → d.ends = some ends →
    -2 ^ 63 ≤ ends.at dayNanos - starts.at dayNanos ∧ ends.at dayNanos - starts.at dayNanos < 2 ^ 63

theorem eventsOf_eq {u : Unicode} {now : Int} {d : Draft} (hspans : Spans d) :
    eventsOf u now d = meant u now d := by
  unfold eventsOf meant
  cases hstarts : d.starts with
  | none => rfl
  | some starts =>
    cases hends : d.ends with
    | none => simp only [Option.map_none]
    | some ends =>
      have ⟨hle, hlt⟩ := hspans starts ends hstarts hends
      have hsub : sub64 (ends.at dayNanos) (starts.at dayNanos) = ends.at dayNanos - starts.at dayNanos := by
        unfold sub64
        omega
      simp only [Option.map_some, hsub]

theorem parseICS_written (u : Unicode) (now : Int) {tree : Tree} (h : tree.WellFormed) {raw : Text}
    (hraw : Written tree.lines raw) (hsize : byteLength raw < maxBytes) :
    parseICS u raw now =
      .ok (((events tree).flatMap fun content => yields u now (held (readLine u) content)).take feedMaxEvents) := by
  have ⟨lines, hread, hlines⟩ := unfold_written h.clean hraw hsize
  unfold parseICS
  rw [hread, ok_bind, parseLines_eq u now none (by decide), drafts_of_written (readLine_nil u) h hlines,
    List.flatMap_map, List.nil_append]
  rfl

/-- Where nothing is disturbed, the events are those of the own properties. -/
theorem parseICS_own {u : Unicode} {now : Int} {tree : Tree} (h : tree.WellFormed) {raw : Text}
    (hraw : Written tree.lines raw) (hsize : byteLength raw < maxBytes)
    (hown : ∀ content ∈ events tree,
      Undisturbed (readLine u) content ∧ Spans (ownDraft (readLine u) content)) :
    parseICS u raw now = .ok (((events tree).flatMap (ownEvents u now)).take feedMaxEvents) := by
  have heach : (events tree).flatMap (fun content => yields u now (held (readLine u) content)) =
      (events tree).flatMap (ownEvents u now) := by
    refine List.flatMap_congr fun content hcontent => ?_
    have ⟨hundisturbed, hspans⟩ := hown content hcontent
    calc
      yields u now (held (readLine u) content)
        = yields u now (some (ownDraft (readLine u) content)) := by
            rw [← yields_filter, hundisturbed, yields_filter]
      _ = eventsOf u now (ownDraft (readLine u) content) := rfl
      _ = ownEvents u now content := eventsOf_eq hspans
  rw [parseICS_written u now h hraw hsize, heach]

end Go

/-! ### Python -/

namespace Py

theorem readLine_nil (u : Unicode) (d : Draft) : readLine u d [] = d := rfl

/-- Events are collected up to the cap, unless something is raised before. -/
def collect {α : Type} : List α → List (Except Raised (List α)) → Except Raised (List α)
  | out, [] => .ok out
  | out, given :: rest => do
    let events ← given
    let out := out ++ events
    if feedMaxEvents ≤ out.length then .ok (out.take feedMaxEvents) else collect out rest

theorem parseLines_eq (u : Unicode) (yearText : Int → Text) (now : Int) (current : Option Draft)
    (out : List RawEvent) (lines : List Text) :
    parseLines u yearText now current out lines =
      collect out ((draftsAtEnd (readLine u) current lines).map (yields u yearText now)) := by
  induction lines generalizing current out with
  | nil => rfl
  | cons line lines ih =>
    rw [parseLines, draftsAtEnd_cons]
    split
    · exact ih (some {}) out
    · split
      · rw [List.map_cons, collect]
        simp only [ih none]
      · exact ih _ out

theorem yields_filter (u : Unicode) (yearText : Int → Text) (now : Int) (current : Option Draft) :
    yields u yearText now (current.filter hasStart) = yields u yearText now current := by
  cases current with
  | none => rfl
  | some d =>
    cases hstarts : d.starts with
    | some => rw [Option.filter_some, if_pos (by rw [hasStart, hstarts, Option.isSome_some])]
    | none =>
      rw [Option.filter_some, if_neg (by rw [hasStart, hstarts]; decide)]
      show .ok [] = eventsOf u yearText now d
      rw [eventsOf, hstarts]

/-- The end of an occurrence, as long after it as the event's end is after its start. -/
def meantEnd (d : Draft) (starts : Stamp) (occ : Int) : Except Raised (Option Int) :=
  match d.ends with
  | none => .ok none
  | some ends => (dated (occ + (ends.at dayLength - starts.at dayLength))).map some

/-- What a draft should give: one event for each instant, with its fields. -/
def meant (u : Unicode) (yearText : Int → Text) (now : Int) (d : Draft) : Except Raised (List RawEvent) :=
  match d.starts with
  | none => .ok []
  | some starts =>
    if d.rule = [] then
      .ok [⟨d.title, d.description, d.url, d.uid, starts.at dayLength, d.ends.map (Stamp.at dayLength)⟩]
    else do
      let occurrences ← expandRule u starts d.rule now horizonDays
      occurrences.mapM fun occ => do
        let ends ← meantEnd d starts occ
        pure ⟨d.title, d.description, d.url, occurrenceId (dateOf yearText) d.uid occ, occ, ends⟩

/-- What an event should give. -/
def ownEvents (u : Unicode) (yearText : Int → Text) (now : Int) (content : Tree) :
    Except Raised (List RawEvent) := meant u yearText now (ownDraft (readLine u) content)

/-- An event with a rule does not end when it starts. -/
def Lasts (d : Draft) : Prop :=
  ∀ starts ends, d.starts = some starts → d.ends = some ends → d.rule ≠ [] →
    ends.at dayLength ≠ starts.at dayLength

theorem eventsOf_eq {u : Unicode} {yearText : Int → Text} {now : Int} {d : Draft} (hlasts : Lasts d) :
    eventsOf u yearText now d = meant u yearText now d := by
  unfold eventsOf meant
  cases hstarts : d.starts with
  | none => rfl
  | some starts =>
    dsimp only
    split
    · rfl
    · next hrule =>
      unfold expandedEvents
      refine congrArg (expandRule u starts d.rule now horizonDays >>= ·) (funext fun occurrences => ?_)
      refine congrArg (fun f => occurrences.mapM f) (funext fun occ => ?_)
      unfold occurrence occurrenceEnd meantEnd
      cases hends : d.ends with
      | none => rfl
      | some ends =>
        have hne := hlasts starts ends hstarts hends hrule
        simp only [Option.map_some, Int.sub_eq_zero, hne, if_false]

theorem parseIcs_written (u : Unicode) (yearText : Int → Text) (now : Int) {tree : Tree} (h : tree.WellFormed)
    {text : Text} (htext : Written tree.lines text) :
    parseIcs u yearText text now =
      collect [] ((events tree).map fun content => yields u yearText now (held (readLine u) content)) := by
  unfold parseIcs
  rw [parseLines_eq, drafts_of_written (readLine_nil u) h (unfold_written h.clean htext), List.map_map]
  rfl

/-- Where nothing is disturbed, the events are those of the own properties. -/
theorem parseIcs_own {u : Unicode} {yearText : Int → Text} {now : Int} {tree : Tree} (h : tree.WellFormed)
    {text : Text} (htext : Written tree.lines text)
    (hown : ∀ content ∈ events tree,
      Undisturbed (readLine u) content ∧ Lasts (ownDraft (readLine u) content)) :
    parseIcs u yearText text now = collect [] ((events tree).map (ownEvents u yearText now)) := by
  have heach : (events tree).map (fun content => yields u yearText now (held (readLine u) content)) =
      (events tree).map (ownEvents u yearText now) := by
    refine List.map_congr_left fun content hcontent => ?_
    have ⟨hundisturbed, hlasts⟩ := hown content hcontent
    calc
      yields u yearText now (held (readLine u) content)
        = yields u yearText now (some (ownDraft (readLine u) content)) := by
            rw [← yields_filter, hundisturbed, yields_filter]
      _ = eventsOf u yearText now (ownDraft (readLine u) content) := rfl
      _ = ownEvents u yearText now content := eventsOf_eq hlasts
  rw [parseIcs_written u yearText now h htext, heach]

end Py

/-! ### Both languages -/

/-- The fields of an event are those of its own properties exactly where they are undisturbed. -/
theorem event_fields (u : Unicode) (yearText : Int → Text) (now : Int) {tree : Tree} (h : tree.WellFormed) :
    (∀ raw, Written tree.lines raw → Go.byteLength raw < Go.maxBytes →
      (∃ lines, Go.unfoldText raw = .ok lines ∧
        ((draftsAtEnd (Go.readLine u) none lines).map (Option.filter hasStart) =
            (events tree).map (fun content => (some (ownDraft (Go.readLine u) content)).filter hasStart) ↔
          ∀ content ∈ events tree, Undisturbed (Go.readLine u) content)) ∧
      ((∀ content ∈ events tree,
          Undisturbed (Go.readLine u) content ∧ Go.Spans (ownDraft (Go.readLine u) content)) →
        Go.parseICS u raw now = .ok (((events tree).flatMap (Go.ownEvents u now)).take feedMaxEvents)) ∧
      ∀ raw', Written tree.lines raw' → Go.byteLength raw' < Go.maxBytes →
        Go.parseICS u raw' now = Go.parseICS u raw now) ∧
    ∀ text, Written tree.lines text →
      ((draftsAtEnd (Py.readLine u) none (Py.unfoldText text)).map (Option.filter hasStart) =
          (events tree).map (fun content => (some (ownDraft (Py.readLine u) content)).filter hasStart) ↔
        ∀ content ∈ events tree, Undisturbed (Py.readLine u) content) ∧
      ((∀ content ∈ events tree,
          Undisturbed (Py.readLine u) content ∧ Py.Lasts (ownDraft (Py.readLine u) content)) →
        Py.parseIcs u yearText text now = Py.collect [] ((events tree).map (Py.ownEvents u yearText now))) ∧
      ∀ text', Written tree.lines text' → Py.parseIcs u yearText text' now = Py.parseIcs u yearText text now := by
  refine ⟨fun raw hraw hsize => ⟨?_, Go.parseICS_own h hraw hsize, fun raw' hraw' hsize' => ?_⟩,
    fun text htext => ⟨?_, Py.parseIcs_own h htext, fun text' htext' => ?_⟩⟩
  · have ⟨lines, hread, hlines⟩ := Go.unfold_written h.clean hraw hsize
    exact ⟨lines, hread, drafts_eq_iff (drafts_of_written (Go.readLine_nil u) h hlines)⟩
  · rw [Go.parseICS_written u now h hraw hsize, Go.parseICS_written u now h hraw' hsize']
  · exact drafts_eq_iff (drafts_of_written (Py.readLine_nil u) h (Py.unfold_written h.clean htext))
  · rw [Py.parseIcs_written u yearText now h htext, Py.parseIcs_written u yearText now h htext']

/-- An event of a club, with what is nested in it. -/
def clubCalendar (nested : Tree) : Tree :=
  .component event
    (.property "UID:chess".toList (.property "SUMMARY:Chess club".toList
      (.property "DESCRIPTION:Bring a board".toList (.property "DTSTART:20260601T180000Z".toList nested)))) .nil

/-- An alarm that says what to do and when. -/
def quietAlarm : Tree :=
  .component "VALARM".toList (.property "ACTION:AUDIO".toList (.property "TRIGGER:-PT15M".toList .nil)) .nil

/-- An alarm with a text of its own. -/
def alarm : Tree :=
  .component "VALARM".toList (.property "ACTION:DISPLAY".toList (.property "DESCRIPTION:Reminder".toList .nil))
    .nil

def clubText (nested : Tree) (lineEnd : LineEnd) : Text :=
  joined ((clubCalendar nested).lines.map fun line => (line, lineEnd)) []

/-- The event of the club on 1 June 2026. -/
def clubEvent (description : String) (starts : Int) : RawEvent :=
  ⟨"Chess club".toList, description.toList, [], "chess".toList, starts, none⟩

theorem event_fields_quiet :
    Go.parseICS .ascii (clubText quietAlarm .crlf) 0 =
      .ok [clubEvent "Bring a board" (Stamp.at dayNanos ⟨monthStart (2425 * 12 + 5), 18 * 60 * 60 * 10 ^ 9⟩)] ∧
    Py.parseIcs .ascii Go.yearText (clubText quietAlarm .lf) 0 =
      .ok [clubEvent "Bring a board" (Stamp.at dayLength ⟨monthStart (2025 * 12 + 5), 18 * 60 * 60 * 10 ^ 6⟩)] := by
  have h := @event_fields .ascii Go.yearText 0 (clubCalendar quietAlarm) (by decide +kernel)
  have hgo : ∀ content ∈ events (clubCalendar quietAlarm), Undisturbed (Go.readLine .ascii) content ∧
      (ownDraft (Go.readLine .ascii) content).ends = none := by decide +kernel
  have hpy : ∀ content ∈ events (clubCalendar quietAlarm), Undisturbed (Py.readLine .ascii) content ∧
      (ownDraft (Py.readLine .ascii) content).ends = none := by decide +kernel
  constructor
  · rw [(h.1 (clubText quietAlarm .crlf) (written_lines .crlf _) (by decide +kernel)).2.1 fun content hcontent =>
      ⟨(hgo content hcontent).1, fun _ _ _ hends => absurd (hgo content hcontent).2 (by simp [hends])⟩]
    decide +kernel
  · rw [(h.2 (clubText quietAlarm .lf) (written_lines .lf _)).2.1 fun content hcontent =>
      ⟨(hpy content hcontent).1, fun _ _ _ hends => absurd (hpy content hcontent).2 (by simp [hends])⟩]
    decide +kernel

/-- The text of an alarm takes the place of the event's description. -/
theorem alarm_overwrites :
    (clubCalendar alarm).WellFormed ∧
    Written (clubCalendar alarm).lines (clubText alarm .crlf) ∧
    (events (clubCalendar alarm)).flatMap (Go.ownEvents .ascii 0) =
      [clubEvent "Bring a board" (Stamp.at dayNanos ⟨monthStart (2425 * 12 + 5), 18 * 60 * 60 * 10 ^ 9⟩)] ∧
    Go.parseICS .ascii (clubText alarm .crlf) 0 =
      .ok [clubEvent "Reminder" (Stamp.at dayNanos ⟨monthStart (2425 * 12 + 5), 18 * 60 * 60 * 10 ^ 9⟩)] ∧
    Py.collect [] ((events (clubCalendar alarm)).map (Py.ownEvents .ascii Go.yearText 0)) =
      .ok [clubEvent "Bring a board" (Stamp.at dayLength ⟨monthStart (2025 * 12 + 5), 18 * 60 * 60 * 10 ^ 6⟩)] ∧
    Py.parseIcs .ascii Go.yearText (clubText alarm .crlf) 0 =
      .ok [clubEvent "Reminder" (Stamp.at dayLength ⟨monthStart (2025 * 12 + 5), 18 * 60 * 60 * 10 ^ 6⟩)] :=
  ⟨by decide +kernel, written_lines _ _, by decide +kernel, by decide +kernel, by decide +kernel,
    by decide +kernel⟩

end SocialActivities.Feeds
