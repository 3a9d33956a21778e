import SocialActivities.Roedu.Pages
import SocialActivities.Roedu.Statuses

/-!
# `SocialActivities.Roedu.Reads`: the reads of the pack

`read_honest` says what a read that ends without an error returns, and when it may call itself complete.
`denied_stay_out` says which items that their source denied a read returns, whether an error stands beside
them or not. An item with an admission may carry one label of access that the validator refuses for the
others (`private_copy_admitted`).
-/

namespace SocialActivities.Roedu

open Lib
open Snapshots (GoJson Text)

/-- What is returned, with or without an error beside it. -/
def returned : Except Halt PackRead → Option PackRead
  | .ok result => some result
  | .error (.failed result _) => some result
  | .error .panicked => none

/-- A read never panics. It returns validated items of one snapshot, each id once, and each event with its
venue. A read that is complete is of a full snapshot whose pages withheld nothing, and it returns all items
of these pages. -/
theorem read_honest (t : Tables) (c : RoeduClient) (city : Text) (producer : Producer) :
    match read t c city producer with
    | .error .panicked => False
    | .error (.failed _ _) => True
    | .ok result => ∃ pages, Walk producer pages ∧ pages.length ≤ pageBound ∧
        (∃ page ∈ pages.getLast?, Final page) ∧ (∀ page ∈ pages, Marked result page) ∧
        (∀ item ∈ result.items, validatePageItem t item result.localPOC = .ok ()) ∧
        (∀ item ∈ result.items, Json.object item ∈ pages.flatMap pageItems) ∧
        (result.items.map fun item => item.get "id".toList).Nodup ∧ Accompanied result.items ∧
        (result.complete = true → Whole pages result ∧
          ∀ raw ∈ pages.flatMap pageItems, ∃ item ∈ result.items, raw = .object item) := by
  have hends := ends_read t c city producer
  revert hends
  cases read t c city producer with
  | error halt => cases halt with
    | panicked => exact id
    | failed => exact fun _ => trivial
  | ok =>
    intro ⟨pages, hdone, haccompanied⟩
    have hkept := hdone.kept
    refine ⟨pages, hkept.walk, hkept.bound, hdone.final, hkept.identity, hkept.valid, hkept.origin, hkept.nodup,
      haccompanied, fun hcomplete => ?_⟩
    have hwhole := hdone.whole hcomplete
    refine ⟨hwhole, fun raw hraw => ?_⟩
    have ⟨item, hitem, heq⟩ := List.mem_map.mp (hwhole.items ▸ hraw)
    exact ⟨item, hitem, heq.symm⟩

theorem kept_of_returned {t : Tables} {c : RoeduClient} {city : Text} {producer : Producer} {result : PackRead}
    (h : result ∈ returned (read t c city producer)) : ∃ pages, Kept t c producer pages result := by
  have hends := ends_read t c city producer
  revert hends h
  cases read t c city producer with
  | error halt => cases halt with
    | panicked => exact fun h => by cases h
    | failed =>
      intro h hkept
      cases h
      exact hkept
  | ok =>
    intro h ⟨pages, hdone, _⟩
    cases h
    exact ⟨pages, hdone.kept⟩

theorem localPOCActive_iff {t : Tables} {c : RoeduClient} :
    c.localPOCActive t = true ↔ c.localPOC = true ∧ ∃ url, parseUrl c.baseURL = some url ∧ url.user = false ∧
      (url.scheme = "http".toList ∨ url.scheme = "https".toList) ∧ loopbackHost t url.hostname = true := by
  unfold RoeduClient.localPOCActive
  rw [Bool.and_eq_true, option_any_iff]
  simp only [Bool.and_eq_true, Bool.or_eq_true, Bool.not_eq_true', beq_iff_eq, and_assoc]

/-- Whatever a read returns is clear to publish, or it was admitted: by a client that the owner set up for
a local producer, from a page with the mark, in a read that has nothing but such pages and is not
complete. -/
theorem denied_stay_out (t : Tables) (c : RoeduClient) (city : Text) (producer : Producer) :
    ∀ result ∈ returned (read t c city producer), ∃ pages, Walk producer pages ∧
      (∀ page ∈ pages, page.has "local_poc".toList = result.localPOC ∧
        (result.localPOC = true → page.get "local_poc".toList = .bool true)) ∧
      ∀ item ∈ result.items,
        (∃ attestation, Sound Listed .publicPackAccess t item attestation ∧ Cleared item attestation) ∨
        (c.localPOC = true ∧
          (∃ url, parseUrl c.baseURL = some url ∧ url.user = false ∧
            (url.scheme = "http".toList ∨ url.scheme = "https".toList) ∧ loopbackHost t url.hostname = true) ∧
          (∃ page ∈ pages, Json.object item ∈ pageItems page ∧ page.get "local_poc".toList = .bool true) ∧
          result.localPOC = true ∧ result.complete = false ∧
          ∃ attestation admission, item.get "policy_attestation".toList = .object attestation ∧
            Admitted t item attestation admission) := by
  intro result hresult
  have ⟨pages, hkept⟩ := kept_of_returned hresult
  refine ⟨pages, hkept.walk, fun page hpage => ?_, fun item hitem => ?_⟩
  · have hmarks := hkept.identity page hpage
    exact ⟨hmarks.mark, hmarks.marked⟩
  · have horigin := hkept.origin item hitem
    have hdistinct := hkept.walk.distinct_item horigin
    refine (validatePageItem_cases hdistinct (hkept.valid item hitem)).imp_right fun ⟨hlocal, hadmitted⟩ => ?_
    have ⟨hflag, hloopback⟩ := localPOCActive_iff.mp (hkept.active hlocal)
    have ⟨page, hpage, hmem⟩ := List.mem_flatMap.mp horigin
    exact ⟨hflag, hloopback, ⟨page, hpage, hmem, (hkept.identity page hpage).marked hlocal⟩, hlocal,
      hkept.incomplete hlocal, hadmitted⟩

/-! ### A private copy -/

def deniedAttestation : Object :=
  (sampleAttestation.set "effect".toList (jsonText "deny")).set "reasons".toList
    (.array [jsonText "copyright_unknown"])

def sampleMembers : Object :=
  signedMembers "/srv/poc".toList (List.replicate 64 'a') ["copyright_unknown".toList]

/-- An admission with its digest. -/
def sampleAdmission : Object :=
  sampleMembers.set "admission_digest".toList
    (.string (sha256 (canonicalText (admissionMembers "/srv/poc".toList (List.replicate 64 'a')
      ["copyright_unknown".toList]))))

/-- An event whose source denied it, with the label of a private copy. -/
def deniedEvent : Object :=
  (((sampleEvent "scheduled").set "access_type".toList (jsonText "tdm_exception")).set "policy_attestation".toList
    (.object deniedAttestation)).set "local_poc_admission".toList (.object sampleAdmission)

def samplePage : Object :=
  [("pack_id".toList, .string socialPack), ("app".toList, jsonText "social_media_activities_app"),
    ("layer".toList, jsonText "redistributable"), ("schema_version".toList, .number (.ofInt 1)),
    ("snapshot_id".toList, .string ("sha256-".toList ++ List.replicate 64 'a')),
    ("release_id".toList, .string ("sha256-".toList ++ List.replicate 64 'a')),
    ("snapshot_generated_at".toList, jsonText "2026-07-12T08:00:00Z"), ("snapshot_mode".toList, jsonText "full"),
    ("snapshot_complete".toList, .bool true), ("items".toList, .array [.object deniedEvent]),
    ("pagination".toList, .object [("next_cursor".toList, .null)]), ("withheld".toList, .number (.ofInt 0)),
    ("errors".toList, .array []), ("local_poc".toList, .bool true)]

theorem distinct_samplePage : (Json.object samplePage).Distinct := by decide +kernel

/-- A producer of one page. -/
def sampleProducer : Producer := fun _ _ => .body (some ⟨.object samplePage, distinct_samplePage⟩)

def sampleClient : RoeduClient := ⟨"http://localhost".toList, true⟩

/-- The items of private copies in what is returned. -/
def privateCopies (result : PackRead) : List Object :=
  result.items.filter fun item => isString "tdm_exception".toList (item.get "access_type".toList)

/-- A read of the page returns a private copy, and the validator refuses it also with the clearance that its
admission stands for. -/
theorem sample_returned :
    (returned (read .ascii sampleClient [] sampleProducer)).any (fun result =>
      (privateCopies result).any fun item =>
        (asObject (item.get "policy_attestation".toList)).any fun attestation =>
          decide (validatePackItem .ascii (clearedShape item attestation) = .error .refused)) = true := by
  decide +kernel

/-- What a read of the page returns. -/
theorem denied_stay_out_sample :
    ∃ result ∈ returned (read .ascii sampleClient [] sampleProducer), ∃ pages, Walk sampleProducer pages ∧
      ∀ page ∈ pages, page.has "local_poc".toList = result.localPOC := by
  have ⟨result, hresult, _⟩ := option_any_iff.mp sample_returned
  have ⟨pages, hwalk, hmarks, _⟩ := denied_stay_out .ascii sampleClient [] sampleProducer result hresult
  exact ⟨result, hresult, pages, hwalk, fun page hpage => (hmarks page hpage).1⟩

/-- A read returns a private copy. The validator refuses its label of access, also with the clearance that
an admission stands for. -/
theorem private_copy_admitted :
    ∃ result ∈ returned (read .ascii sampleClient [] sampleProducer), ∃ item ∈ result.items, ∃ attestation,
      item.get "policy_attestation".toList = .object attestation ∧
      ¬OneOf (accessTypes .publicPackAccess) (item.get "access_type".toList) ∧
      validatePackItem .ascii (clearedShape item attestation) = .error .refused := by
  have ⟨result, hresult, hcopies⟩ := option_any_iff.mp sample_returned
  have ⟨item, hitem, hrefused⟩ := List.any_eq_true.mp hcopies
  have ⟨attestation, hattestation, hrefused⟩ := option_any_iff.mp hrefused
  have ⟨hmem, hlabel⟩ := List.mem_filter.mp hitem
  refine ⟨result, hresult, item, hmem, attestation, asObject_eq_some.mp hattestation, ?_, of_decide_eq_true hrefused⟩
  rw [isString_iff.mp hlabel, ← any_isString_iff]
  decide +kernel

end SocialActivities.Roedu
