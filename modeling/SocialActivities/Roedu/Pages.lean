import SocialActivities.Roedu.Admitted
import SocialActivities.Roedu.Read

/-!
# `SocialActivities.Roedu.Pages`: what a read has seen

A read walks the pages of the producer: each page answers the cursor that the one before it names
(`Walk`). `Kept` is what holds of the result after every page, also when the read then fails: one
snapshot, one mark, validated items of these pages, no id twice. `Reading` adds what the loop keeps in its
variables. While it is clean nothing was dropped: the items are all the items of the pages.

`ends_readPage` is the step of one page, and `read_ends` says what a whole read comes to.
-/

namespace SocialActivities.Roedu

open Lib
open Snapshots (GoJson Text int64?)

/-! ### Pages -/

/-- The items of a page. -/
def pageItems (page : Object) : List GoJson := (asArray (page.get "items".toList)).getD []

/-- The cursor that a page names. -/
def nextCursor (page : Object) : Option Text :=
  (asObject (page.get "pagination".toList)).bind fun pagination => asString (pagination.get "next_cursor".toList)

/-- The cursor of the request after these pages. -/
def cursorAfter (pages : List Object) : Text := (pages.getLast?.bind nextCursor).getD []

/-- The pages that a producer gives, one request after the other. -/
inductive Walk (producer : Producer) : List Object → Prop where
  | start : Walk producer []
  | next {pages : List Object} {value : Option (Document NumberText)} {page : Object} (before : Walk producer pages)
      (answer : producer pages.length (cursorAfter pages) = .body value) (decoded : decodePage value = some page) :
      Walk producer (pages ++ [page])

/-- The page says that it is the last one. -/
def Final (page : Object) : Prop :=
  ∃ pagination : Object, page.get "pagination".toList = .object pagination ∧
    pagination.get "next_cursor".toList = .null

/-- A page without withheld items and errors. -/
structure Spotless (page : Object) : Prop where
  withheld : ∃ n, page.get "withheld".toList = .number n ∧ int64? n = some 0
  errors : page.get "errors".toList = .array []

/-- A page of the snapshot, the mode and the mark that the result carries. -/
structure Marked (result : PackRead) (page : Object) : Prop where
  snapshot : page.get "snapshot_id".toList = .string result.snapshot
  generated : stringValue page "snapshot_generated_at".toList = result.generated
  mode : page.get "snapshot_mode".toList = .string result.mode
  whole : page.get "snapshot_complete".toList = .bool (result.mode == "full".toList)
  mark : page.has "local_poc".toList = result.localPOC
  marked : result.localPOC = true → page.get "local_poc".toList = .bool true

/-- What holds of a result after these pages. -/
structure Kept (t : Tables) (c : RoeduClient) (producer : Producer) (pages : List Object) (result : PackRead) :
    Prop where
  walk : Walk producer pages
  bound : pages.length ≤ pageBound
  named : pages ≠ [] → releasePattern result.snapshot = true
  identity : ∀ page ∈ pages, Marked result page
  active : result.localPOC = true → c.localPOCActive t = true
  valid : ∀ item ∈ result.items, validatePageItem t item result.localPOC = .ok ()
  origin : ∀ item ∈ result.items, Json.object item ∈ pages.flatMap pageItems
  nodup : (result.items.map fun item => item.get "id".toList).Nodup
  incomplete : result.localPOC = true → result.complete = false

/-- What holds in the loop when these items of the pages were looked at. -/
structure Reading (t : Tables) (c : RoeduClient) (producer : Producer) (pages : List Object) (seen : List GoJson)
    (s : Paging) : Prop where
  kept : Kept t c producer pages s.result
  unfinished : s.result.complete = false
  ids : s.result.items.map (fun item => item.get "id".toList) = s.seenItem.reverse.map .string
  clean : s.clean = true → (∀ page ∈ pages, Spotless page) ∧ s.result.items.map .object = seen

/-- Nothing was dropped, withheld or left out. -/
structure Whole (pages : List Object) (result : PackRead) : Prop where
  mode : result.mode = "full".toList
  notLocal : result.localPOC = false
  spotless : ∀ page ∈ pages, Spotless page
  items : result.items.map .object = pages.flatMap pageItems

/-- How a read fails: with an error, beside a result of the pages before it. -/
def Returned (t : Tables) (c : RoeduClient) (producer : Producer) : Halt → Prop
  | .panicked => False
  | .failed result _ => ∃ pages, Kept t c producer pages result

variable {t : Tables} {c : RoeduClient} {producer : Producer} {pages : List Object} {result : PackRead}

variable {page : Object}

theorem distinct_of_decoded {value : Option (Document NumberText)} (h : decodePage value = some page) :
    page.Distinct := by
  cases value with
  | none => cases h
  | some document =>
    have ⟨json, hdistinct⟩ := document
    cases json with
    | null =>
      cases h
      exact ⟨List.nodup_nil, trivial⟩
    | object =>
      cases h
      exact hdistinct
    | _ => cases h

theorem Walk.distinct (h : Walk producer pages) (hpage : page ∈ pages) : page.Distinct := by
  induction h with
  | start => cases hpage
  | next _ _ decoded ih =>
    rcases List.mem_append.mp hpage with hpage | hpage
    · exact ih hpage
    · rw [List.mem_singleton.mp hpage]
      exact distinct_of_decoded decoded

theorem distinct_of_pageItem {item : Object} (hpage : page.Distinct) (h : Json.object item ∈ pageItems page) :
    item.Distinct := by
  unfold pageItems at h
  cases hitems : asArray (page.get "items".toList) with
  | none =>
    rw [hitems] at h
    cases h
  | some =>
    rw [hitems, Option.getD_some] at h
    have harray := hpage.get (get?_of_get (asArray_eq_some.mp hitems) (by simp))
    exact Json.distinctItems_iff.mp harray _ h

theorem Walk.distinct_item (h : Walk producer pages) {item : Object}
    (hitem : Json.object item ∈ pages.flatMap pageItems) : item.Distinct := by
  have ⟨page, hpage, hmem⟩ := List.mem_flatMap.mp hitem
  exact distinct_of_pageItem (h.distinct hpage) hmem

theorem Marked.of_same {other : PackRead} (h : Marked result page)
    (hsnapshot : result.snapshot = other.snapshot) (hgenerated : result.generated = other.generated)
    (hmode : result.mode = other.mode) (hlocal : result.localPOC = other.localPOC) : Marked other page where
  snapshot := hsnapshot ▸ h.snapshot
  generated := hgenerated ▸ h.generated
  mode := hmode ▸ h.mode
  whole := hmode ▸ h.whole
  mark := hlocal ▸ h.mark
  marked := hlocal ▸ h.marked

/-- Other items, and another end of the read. -/
theorem Kept.update (h : Kept t c producer pages result) {items : List Object} {complete : Bool}
    (hvalid : ∀ item ∈ items, validatePageItem t item result.localPOC = .ok ())
    (horigin : ∀ item ∈ items, Json.object item ∈ pages.flatMap pageItems)
    (hnodup : (items.map fun item => item.get "id".toList).Nodup)
    (hincomplete : result.localPOC = true → complete = false) :
    Kept t c producer pages { result with items, complete } where
  walk := h.walk
  bound := h.bound
  named := h.named
  identity page hpage := (h.identity page hpage).of_same rfl rfl rfl rfl
  active := h.active
  valid := hvalid
  origin := horigin
  nodup := hnodup
  incomplete := hincomplete

/-! ### One item -/

variable {E : Halt → Prop}

theorem expect_ends {message : String} (h : E (.failed result (.message message)))
    (condition : Bool) : Ends (fun _ => condition = true) E (expect result message condition) :=
  ends_need h condition

theorem required_ends {α : Type} {message : String} (h : E (.failed result (.message message)))
    (value : Option α) : Ends (fun a => value = some a) E (required result message value) := ends_elim h value

/-- The same, for the items of a page with this mark of a snapshot with this mode. -/
structure OfPage (t : Tables) (c : RoeduClient) (producer : Producer) (pages : List Object) (localPOC : Bool)
    (mode : Text) (seen : List GoJson) (s : Paging) : Prop where
  reading : Reading t c producer pages seen s
  mark : s.result.localPOC = localPOC
  mode : s.result.mode = mode

variable {localPOC : Bool}

theorem OfPage.drop {mode : Text} {seen : List GoJson} {s : Paging}
    (h : OfPage t c producer pages localPOC mode seen s) (raw : GoJson) :
    OfPage t c producer pages localPOC mode (seen ++ [raw]) s.drop :=
  have hread := h.reading
  ⟨⟨hread.kept, hread.unfinished, hread.ids, fun hclean => by cases hclean⟩, h.mark, h.mode⟩

theorem ends_readItem {mode : Text} {seen : List GoJson} {s : Paging} {raw : GoJson} (city : Text)
    (hpage : OfPage t c producer pages localPOC mode seen s) (hraw : raw ∈ pages.flatMap pageItems) :
    Ends (OfPage t c producer pages localPOC mode (seen ++ [raw])) (Returned t c producer)
      (readItem t localPOC city s raw) := by
  have ⟨h, hmark, hmode⟩ := hpage
  subst hmark
  unfold readItem
  cases hobject : asObject raw with
  | none => exact hpage.drop raw
  | some item =>
    have hitem := asObject_eq_some.mp hobject
    subst hitem
    dsimp only
    cases hvalid : validatePageItem t item s.result.localPOC with
    | error stop =>
      cases stop with
      | refused => exact hpage.drop _
      | panicked => exact absurd hvalid (avoids_validatePageItem t item _)
    | ok =>
      have hread := readable_of_valid (h.kept.walk.distinct_item hraw) hvalid
      have ⟨id, hid⟩ := hread.id
      have ⟨facets, hfacets⟩ := hread.facets
      have hasFacets : demanded (asObject (item.get "facets".toList)) = .ok facets := by
        rw [hfacets]
        rfl
      have hasId : demanded (asString (item.get "id".toList)) = .ok id := by
        rw [hid]
        rfl
      dsimp only
      rw [hasFacets, ok_bind]
      split
      · exact hpage.drop _
      rw [hasId, ok_bind]
      split
      · exact hpage.drop _
      · next hfresh =>
        have hnew : id ∉ s.seenItem := by simpa using hfresh
        have hids : (s.result.items ++ [item]).map (fun item => item.get "id".toList) =
            (id :: s.seenItem).reverse.map .string := by
          rw [List.map_append, h.ids, List.reverse_cons, List.map_append, List.map_singleton, List.map_singleton, hid]
        have hnodup : ((s.result.items ++ [item]).map fun item => item.get "id".toList).Nodup := by
          have hold := h.ids ▸ h.kept.nodup
          have hinjective : Function.Injective (Json.string : Text → GoJson) := fun _ _ heq => by injection heq
          rw [hids, List.nodup_map_iff hinjective, List.nodup_reverse, List.nodup_cons]
          exact ⟨hnew, List.nodup_reverse.mp ((List.nodup_map_iff hinjective).mp hold)⟩
        have hkept : Kept t c producer pages { s.result with items := s.result.items ++ [item] } :=
          h.kept.update (List.forall_mem_append.mpr ⟨h.kept.valid, List.forall_mem_singleton.mpr hvalid⟩)
            (List.forall_mem_append.mpr ⟨h.kept.origin, List.forall_mem_singleton.mpr hraw⟩) hnodup h.kept.incomplete
        refine ends_bind (expect_ends ⟨pages, hkept⟩ _) fun _ _ _ => ?_
        refine ⟨⟨hkept, h.unfinished, hids, fun hclean => ?_⟩, rfl, hmode⟩
        have ⟨hspotless, hall⟩ := h.clean hclean
        refine ⟨hspotless, ?_⟩
        rw [List.map_append, hall, List.map_singleton]

/-! ### One page -/

/-- What the envelope of a page says: the producer's answer, with a mark only for an active client. -/
theorem ends_readEnvelope (hkept : Kept t c producer pages result) :
    Ends (fun r => (∃ value, producer pages.length (cursorAfter pages) = .body value ∧ decodePage value = some r.1) ∧
        r.1.has "local_poc".toList = r.2 ∧ (r.2 = true → r.1.get "local_poc".toList = .bool true) ∧
        (r.2 = true → c.localPOCActive t = true))
      (Returned t c producer) (readEnvelope t c result (producer pages.length (cursorAfter pages))) := by
  cases hanswer : producer pages.length (cursorAfter pages) with
  | body value =>
    rw [readEnvelope]
    refine ends_bind (required_ends ⟨pages, hkept⟩ _) fun page _ hpage => ?_
    refine ends_bind (expect_ends ⟨pages, hkept⟩ _) fun _ _ hkeys => ?_
    refine ends_bind (expect_ends ⟨pages, hkept⟩ _) fun _ _ hmark => ?_
    refine ⟨⟨value, rfl, hpage⟩, ?_, fun hlocal => ?_, fun hlocal => ?_⟩
    · cases hhas : page.has "local_poc".toList <;> simp_all
    · exact isBool_iff.mp (Bool.and_eq_true_iff.mp hlocal).2
    · -- A marked page has a key more than the contract, which only an active client takes.
      have hhas := (Bool.and_eq_true_iff.mp hlocal).1
      cases hactive : c.localPOCActive t with
      | true => rfl
      | false =>
        have hfields : envelopeFields t c page = pageEnvelopeFields := by simp [envelopeFields, hactive]
        have hkeyed := (exactKeys_iff (by simp [pageEnvelopeFields] : pageEnvelopeFields.Nodup)).mp (hfields ▸ hkeys)
        have hmem := hkeyed.mem_iff.mp (Object.has_iff.mp hhas)
        exact absurd hmem (by simp [pageEnvelopeFields, -String.reduceToList])
  | _ => exact ⟨pages, hkept⟩

theorem ne_nil_of_release {s : Text} (h : releasePattern s = true) : s ≠ [] := by
  rintro rfl
  cases h

/-- The identity of a page is the one of the pages before it. -/
theorem ends_readIdentity (hkept : Kept t c producer pages result) (hopen : result.complete = false)
    (hwalk : Walk producer (pages ++ [page])) (hbound : pages.length < pageBound)
    (hmark : page.has "local_poc".toList = localPOC)
    (hmarked : localPOC = true → page.get "local_poc".toList = .bool true)
    (hactive : localPOC = true → c.localPOCActive t = true) :
    Ends (fun r => Kept t c producer (pages ++ [page]) r.1 ∧ r.1.localPOC = localPOC ∧
        r.1.items = result.items ∧ r.1.complete = false ∧ r.2 = (r.1.mode == "full".toList))
      (Returned t c producer) (readIdentity result page localPOC) := by
  unfold readIdentity
  refine ends_bind (required_ends ⟨pages, hkept⟩ _) fun complete _ hcomplete => ?_
  refine ends_bind (expect_ends ⟨pages, hkept⟩ _) fun _ _ hidentity => ?_
  refine ends_bind (expect_ends ⟨pages, hkept⟩ _) fun _ _ hsame => ?_
  simp only [Bool.and_eq_true, beq_iff_eq] at hidentity
  have ⟨⟨⟨⟨⟨_, hrelease⟩, _⟩, _⟩, hmode⟩, hfull⟩ := hidentity
  have hmodes : stringValue page "snapshot_mode".toList ≠ [] := by
    intro hnil
    rw [hnil] at hmode
    exact absurd hmode (by decide)
  have hwhole : page.get "snapshot_complete".toList = .bool (stringValue page "snapshot_mode".toList == "full".toList) :=
    hfull ▸ asBool_eq_some.mp hcomplete
  -- The pages before have the same identity, if there are any.
  have hbefore : pages ≠ [] → result.snapshot = stringValue page "snapshot_id".toList ∧
      result.generated = stringValue page "snapshot_generated_at".toList ∧
      result.mode = stringValue page "snapshot_mode".toList ∧ result.localPOC = localPOC := by
    intro hpages
    have hnamed := ne_nil_of_release (hkept.named hpages)
    simp only [Bool.or_eq_true, List.isEmpty_iff, Bool.and_eq_true, beq_iff_eq] at hsame
    have ⟨⟨⟨h1, h2⟩, h3⟩, h4⟩ := hsame.resolve_left hnamed
    exact ⟨h1, h2, h3, h4⟩
  have hnone : pages = [] → result.items = [] := by
    rintro rfl
    exact List.eq_nil_iff_forall_not_mem.mpr fun item hitem => by cases hkept.origin item hitem
  refine ⟨?_, rfl, rfl, hopen, hfull⟩
  exact {
    walk := hwalk
    bound := by
      rw [List.length_append, List.length_singleton]
      omega
    named := fun _ => hrelease
    identity := by
      intro other hother
      rcases List.mem_append.mp hother with hother | hother
      · have ⟨h1, h2, h3, h4⟩ := hbefore (List.ne_nil_of_mem hother)
        exact (hkept.identity other hother).of_same h1 h2 h3 h4
      · rw [List.mem_singleton.mp hother]
        exact ⟨(stringValue_iff (ne_nil_of_release hrelease)).mp rfl, rfl, (stringValue_iff hmodes).mp rfl, hwhole,
          hmark, hmarked⟩
    active := hactive
    valid := by
      intro item hitem
      have hpages : pages ≠ [] := fun hnil => by
        rw [hnone hnil] at hitem
        cases hitem
      have ⟨_, _, _, h4⟩ := hbefore hpages
      exact h4 ▸ hkept.valid item hitem
    origin := fun item hitem => by
      rw [List.flatMap_append]
      exact List.mem_append_left _ (hkept.origin item hitem)
    nodup := hkept.nodup
    incomplete := fun _ => hopen }

theorem ends_readWithheld (hE : ∀ error, E (.failed result error)) (page : Object) :
    Ends (fun withheld => ∃ n, page.get "withheld".toList = .number n ∧ int64? n = some (Int.ofNat withheld)) E
      (readWithheld result page) := by
  unfold readWithheld
  refine ends_bind (required_ends (hE _) _) fun withheld _ hwithheld => ?_
  refine ends_bind (expect_ends (hE _) _) fun _ _ hrange => ?_
  have ⟨hpositive, _⟩ := Bool.and_eq_true_iff.mp hrange
  have hcast : Int.ofNat withheld.toNat = withheld := Int.toNat_of_nonneg (by simpa using hpositive)
  cases hvalue : page.get "withheld".toList with
  | number n =>
    rw [hvalue] at hwithheld
    exact ⟨n, rfl, hwithheld.trans (congrArg some hcast.symm)⟩
  | _ =>
    rw [hvalue] at hwithheld
    cases hwithheld

theorem ends_readNote (hE : ∀ error, E (.failed result error)) (conditions : Nat)
    (problem : GoJson) : Ends (fun _ => True) E (readNote result conditions problem) := by
  unfold readNote
  refine ends_bind (expect_ends (hE _) _) fun _ _ htext => ?_
  have ⟨note, hnote, _⟩ := text_iff.mp htext
  subst hnote
  trivial

theorem ends_notes (hE : ∀ error, E (.failed result error)) (conditions : Nat)
    (problems : List GoJson) : Ends (fun _ => True) E (problems.foldlM (readNote result) conditions) := by
  induction problems generalizing conditions with
  | nil => trivial
  | cons problem problems ih =>
    rw [List.foldlM_cons]
    exact ends_bind (ends_readNote hE conditions problem) fun next _ _ => ih next

/-- What the loop has before round `i`. -/
structure Going (t : Tables) (c : RoeduClient) (producer : Producer) (i : Nat) (s : Paging) (pages : List Object) :
    Prop where
  reading : Reading t c producer pages (pages.flatMap pageItems) s
  count : pages.length = i
  cursor : s.cursor = cursorAfter pages

/-- What it has at the end. -/
structure Done (t : Tables) (c : RoeduClient) (producer : Producer) (result : PackRead) (pages : List Object) :
    Prop where
  kept : Kept t c producer pages result
  final : ∃ page ∈ pages.getLast?, Final page
  whole : result.complete = true → Whole pages result

theorem getLast?_append_singleton (pages : List Object) (page : Object) : (pages ++ [page]).getLast? = some page := by
  simp

/-- The end of a round. -/
theorem ends_readPagination {s : Paging} {complete : Bool}
    (h : Reading t c producer (pages ++ [page]) ((pages ++ [page]).flatMap pageItems) s)
    (hcomplete : complete = (s.result.mode == "full".toList)) :
    Ends (fun r => if r.2 then ∃ pages, Done t c producer r.1.result pages
        else ∃ pages', Going t c producer (pages.length + 1) r.1 pages')
      (Returned t c producer) (readPagination s page complete) := by
  unfold readPagination
  refine ends_bind (required_ends ⟨_, h.kept⟩ _) fun pagination _ hpagination => ?_
  refine ends_bind (expect_ends ⟨_, h.kept⟩ _) fun _ _ _ => ?_
  have hpagination := asObject_eq_some.mp hpagination
  split
  · next hnil =>
    refine ⟨pages ++ [page], ?_, ⟨page, getLast?_append_singleton pages page, pagination, hpagination,
      isNil_iff.mp hnil⟩, fun hwhole => ?_⟩
    · refine h.kept.update h.kept.valid h.kept.origin h.kept.nodup fun hlocal => ?_
      rw [hlocal, Bool.not_true, Bool.and_false]
    · simp only [Bool.and_eq_true, Bool.not_eq_true'] at hwhole
      have ⟨⟨hfull, hclean⟩, hlocal⟩ := hwhole
      have ⟨hspotless, hitems⟩ := h.clean hclean
      rw [hcomplete] at hfull
      exact ⟨by simpa using hfull, hlocal, hspotless, hitems⟩
  · refine ends_bind (required_ends ⟨_, h.kept⟩ _) fun next _ hnext => ?_
    refine ends_bind (expect_ends ⟨_, h.kept⟩ _) fun _ _ _ => ?_
    refine ⟨pages ++ [page], ⟨h.kept, h.unfinished, h.ids, h.clean⟩, by simp, ?_⟩
    have hcursor : nextCursor page = some next := by
      unfold nextCursor
      rw [hpagination]
      exact hnext
    show next = cursorAfter (pages ++ [page])
    rw [cursorAfter, getLast?_append_singleton, Option.bind_some, hcursor, Option.getD_some]

theorem ends_readPage (city : Text) {i : Nat} {s : Paging} (h : Going t c producer i s pages) (hi : i < pageBound) :
    Ends (fun r => if r.2 then ∃ pages, Done t c producer r.1.result pages
        else ∃ pages', Going t c producer (i + 1) r.1 pages')
      (Returned t c producer) (readPage t c city producer i s) := by
  have ⟨hreading, hcount, hcursor⟩ := h
  subst hcount
  have hkept := hreading.kept
  unfold readPage
  rw [hcursor]
  refine ends_bind (expect_ends ⟨pages, hkept⟩ _) fun _ _ _ => ?_
  refine ends_bind (ends_readEnvelope hkept) fun (page, localPOC) _ ⟨⟨value, hanswer, hdecoded⟩, hhas, hmarked, hactive⟩ => ?_
  have hwalk : Walk producer (pages ++ [page]) := hkept.walk.next hanswer hdecoded
  refine ends_bind (ends_readIdentity hkept hreading.unfinished hwalk hi hhas hmarked hactive)
    fun (result, complete) _ ⟨hkept, hlocal, hitems, hopen, hcomplete⟩ => ?_
  have hreturned : ∀ error, Returned t c producer (.failed result error) := fun _ => ⟨_, hkept⟩
  refine ends_bind (ends_readWithheld hreturned page) fun withheld _ hwithheld => ?_
  refine ends_bind (required_ends (hreturned _) _) fun producerErrors _ herrors => ?_
  refine ends_bind (ends_notes hreturned _ _) fun conditions _ _ => ?_
  refine ends_bind (required_ends (hreturned _) _) fun items _ hlist => ?_
  have hpageItems : pageItems page = items := by
    rw [pageItems, hlist, Option.getD_some]
  have hall : (pages ++ [page]).flatMap pageItems = pages.flatMap pageItems ++ items := by
    rw [List.flatMap_append, List.flatMap_singleton, hpageItems]
  -- Before the first item of the page only its envelope was read.
  have hstart : Reading t c producer (pages ++ [page]) (pages.flatMap pageItems) { s with
      result
      cursor := cursorAfter pages
      clean := s.clean && withheld == 0 && producerErrors.isEmpty
      withheldTotal := s.withheldTotal + withheld
      refusalConditions := conditions
      producerDirty := s.producerDirty || !producerErrors.isEmpty } := by
    refine ⟨hkept, hopen, ?_, fun hclean => ?_⟩
    · show result.items.map _ = _
      rw [hitems]
      exact hreading.ids
    · simp only [Bool.and_eq_true, beq_iff_eq, List.isEmpty_iff] at hclean
      have ⟨⟨hclean, hzero⟩, hnone⟩ := hclean
      have ⟨hspotless, hseen⟩ := hreading.clean hclean
      have hpage : Spotless page := by
        refine ⟨?_, hnone ▸ asArray_eq_some.mp herrors⟩
        rw [hzero] at hwithheld
        exact hwithheld
      refine ⟨List.forall_mem_append.mpr ⟨hspotless, List.forall_mem_singleton.mpr hpage⟩, ?_⟩
      show result.items.map _ = _
      rw [hitems]
      exact hseen
  have hloop := ends_foldlM (fun seen raw s hraw hpage => ends_readItem city hpage <| by
    rw [hall]
    exact List.mem_append_right _ hraw) (⟨hstart, hlocal, rfl⟩ : OfPage t c producer (pages ++ [page]) localPOC result.mode _ _)
  refine ends_bind hloop fun s _ hpage => ?_
  exact ends_readPagination (hall ▸ hpage.reading) (hpage.mode ▸ hcomplete)

/-! ### The whole read -/

/-- Every event that names a venue comes with the venue. -/
def Accompanied (items : List Object) : Prop :=
  ∀ item ∈ items, item.get "kind".toList = .string "event".toList → item.get "venue_id".toList ≠ .null →
    ∃ venue ∈ items, venue.get "kind".toList = .string "venue".toList ∧
      venue.get "id".toList = item.get "venue_id".toList

theorem venueIds_of_readable {items : List Object} (hread : ∀ item ∈ items, Readable item) :
    ∃ ids, venueIds items = .ok ids ∧ ∀ id ∈ ids, ∃ venue ∈ items,
      venue.get "kind".toList = .string "venue".toList ∧ venue.get "id".toList = .string id := by
  unfold venueIds
  have hvenues : ∀ venue ∈ items.filter fun item => isString "venue".toList (item.get "kind".toList),
      venue ∈ items ∧ venue.get "kind".toList = .string "venue".toList := by
    intro venue hvenue
    have ⟨hmem, hkind⟩ := List.mem_filter.mp hvenue
    exact ⟨hmem, isString_iff.mp hkind⟩
  generalize items.filter (fun item => isString "venue".toList (item.get "kind".toList)) = venues at hvenues
  induction venues with
  | nil => exact ⟨[], rfl, fun id hid => by cases hid⟩
  | cons venue venues ih =>
    have ⟨ids, hids, hall⟩ := ih fun other hother => hvenues other (List.mem_cons_of_mem venue hother)
    have ⟨hmem, hkind⟩ := hvenues venue List.mem_cons_self
    have ⟨id, hid⟩ := (hread venue hmem).id
    have hasId : demanded (asString (venue.get "id".toList)) = .ok id := by
      rw [hid]
      rfl
    refine ⟨id :: ids, ?_, List.forall_mem_cons.mpr ⟨⟨venue, hmem, hkind, hid⟩, hall⟩⟩
    rw [List.mapM_cons, hasId, ok_bind, hids]
    rfl

/-- What a read returns: the items of one snapshot, and all of them if it is complete. -/
structure Delivered (t : Tables) (c : RoeduClient) (producer : Producer) (pages : List Object)
    (result : PackRead) : Prop where
  done : Done t c producer result pages
  accompanied : Accompanied result.items

theorem ends_relate {s : Paging} (h : Done t c producer s.result pages) :
    Ends (Delivered t c producer pages) (Returned t c producer) (relate s) := by
  have hread : ∀ item ∈ s.result.items, Readable item := fun item hitem =>
    readable_of_valid (h.kept.walk.distinct_item (h.kept.origin item hitem)) (h.kept.valid item hitem)
  have ⟨venues, hvenues, hfound⟩ := venueIds_of_readable hread
  have hsub : List.Sublist (s.result.items.filter fun item => !isOrphan venues item) s.result.items :=
    List.filter_sublist
  have hkept : Kept t c producer pages { s.result with
      items := s.result.items.filter fun item => !isOrphan venues item
      complete := s.result.complete && !s.result.items.any (isOrphan venues) } :=
    h.kept.update (fun item hitem => h.kept.valid item (hsub.subset hitem))
      (fun item hitem => h.kept.origin item (hsub.subset hitem)) ((hsub.map _).nodup h.kept.nodup)
      fun hlocal => by rw [h.kept.incomplete hlocal, Bool.false_and]
  unfold relate
  rw [hvenues, ok_bind]
  refine ends_bind (ends_need ⟨pages, hkept⟩ _) fun _ _ _ => ⟨⟨hkept, h.final, fun hwhole => ?_⟩, ?_⟩
  · -- Without orphans nothing was taken out.
    have ⟨hcomplete, hnone⟩ := Bool.and_eq_true_iff.mp hwhole
    have ⟨hmode, hlocal, hspotless, hitems⟩ := h.whole hcomplete
    have hsame : (s.result.items.filter fun item => !isOrphan venues item) = s.result.items := by
      rw [List.filter_eq_self]
      simpa using hnone
    refine ⟨hmode, hlocal, hspotless, ?_⟩
    show (s.result.items.filter _).map _ = _
    rw [hsame]
    exact hitems
  · intro item hitem hkind hvenue
    have ⟨hmem, hkeep⟩ := List.mem_filter.mp hitem
    have ⟨id, hid⟩ := ((hread item hmem).venue hkind).resolve_left hvenue
    have hlisted : id ∈ venues := by
      have hevent : isString "event".toList (item.get "kind".toList) = true := isString_iff.mpr hkind
      have hnil : isNil (Json.string id : GoJson) = false := rfl
      have hprint : sprint (.string id) = id := rfl
      rw [isOrphan, hevent, hid, hnil, hprint] at hkeep
      simpa using hkeep
    have ⟨venue, hother, hvenueKind, hvenueId⟩ := hfound id hlisted
    refine ⟨venue, List.mem_filter.mpr ⟨hother, ?_⟩, hvenueKind, hvenueId.trans hid.symm⟩
    have hdifferent : isString "event".toList (venue.get "kind".toList) = false := by
      rw [hvenueKind]
      decide
    rw [isOrphan, hdifferent]
    rfl

theorem going_start : Going t c producer 0 Paging.start [] where
  reading :=
    { kept :=
        { walk := .start
          bound := Nat.zero_le _
          named := fun h => absurd rfl h
          identity := fun _ h => by cases h
          active := fun h => by cases h
          valid := fun _ h => by cases h
          origin := fun _ h => by cases h
          nodup := List.nodup_nil
          incomplete := fun h => by cases h }
      unfinished := rfl
      ids := rfl
      clean := fun _ => ⟨fun _ h => (by cases h), rfl⟩ }
  count := rfl
  cursor := rfl

theorem ends_read (t : Tables) (c : RoeduClient) (city : Text) (producer : Producer) :
    Ends (fun result => ∃ pages, Delivered t c producer pages result) (Returned t c producer)
      (read t c city producer) := by
  have hround : ∀ i s, i < pageBound → (∃ pages, Going t c producer i s pages) →
      Ends (fun r => if r.2 then ∃ pages, Done t c producer r.1.result pages
          else ∃ pages, Going t c producer (i + 1) r.1 pages)
        (Returned t c producer) (readPage t c city producer i s) := by
    intro i s hi ⟨pages, hgoing⟩
    exact ends_readPage city hgoing hi
  have hexceeded : ∀ s : Paging, (∃ pages, Going t c producer pageBound s pages) →
      Returned t c producer (.failed s.result (.message "RO-EDU page bound exceeded")) :=
    fun s ⟨pages, hgoing⟩ => ⟨pages, hgoing.reading.kept⟩
  have hstart : ∃ pages, Going t c producer 0 Paging.start pages := ⟨[], going_start⟩
  have hloop : Ends (fun s : Paging => ∃ pages, Done t c producer s.result pages) (Returned t c producer)
      (rounds (readPage t c city producer) (fun s => .failed s.result (.message "RO-EDU page bound exceeded"))
        pageBound 0 Paging.start) := ends_rounds hround hexceeded (Nat.zero_add _) hstart
  refine ends_bind hloop fun s _ ⟨pages, hdone⟩ => ?_
  have hrelated := ends_relate hdone
  revert hrelated
  cases relate s with
  | ok => exact fun h => ⟨pages, h⟩
  | error => exact id

end SocialActivities.Roedu
