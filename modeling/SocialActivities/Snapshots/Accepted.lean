import SocialActivities.Snapshots.Decoding

/-!
# `SocialActivities.Snapshots.Accepted`: when an export is accepted

The exporters cap the records of three datasets as the loader does, and nothing else. So an export is
accepted exactly when its rows are within the rest of the loader's bounds (`RowsFit`): the byte budgets
of the five files, the cap of the taxonomy, ids above zero, slugs that are not empty, and a clock that is
not ahead by more than five minutes. `load_iff` says it of the files, and `export_accepted_iff` of the rows
of either exporter.
-/

namespace SocialActivities.Snapshots

open Lib

/-! ### The manifest -/

/-- The manifest of an export, as the loader decodes it. -/
def Export.manifestDoc (e : Export) : ManifestDoc :=
  let info := fun name : DatasetName =>
    (name.text, (⟨name.file, e.count name, sha256Sum (e.file name)⟩ : DatasetInfo))
  ⟨2, e.generatedAt, e.site, [info .activities, info .events, info .places, info .taxonomy],
    some (.array (e.licenses.map licenseJson)), e.truncated⟩

variable {e : Export} {now : Nat} {last : Text}

theorem decodeDatasetInfo_json {file digest : Text} {count : Nat} :
    decodeDatasetInfo (datasetInfoJson file count digest) =
      (asInt (some (jsonCount count))).map fun n => ⟨file, n, digest⟩ := by
  have honly : onlyFields ["file".toList, "count".toList, "sha256".toList]
    (datasetInfoJson file count digest) = true := rfl
  have h1 : field? (datasetInfoJson file count digest) "file".toList = some (.string file) := rfl
  have h2 : field? (datasetInfoJson file count digest) "count".toList = some (jsonCount count) := rfl
  have h3 : field? (datasetInfoJson file count digest) "sha256".toList = some (.string digest) := rfl
  unfold decodeDatasetInfo
  rw [if_pos honly, h1, h2, h3]
  cases asInt (some (jsonCount count)) <;> rfl

theorem Export.WellFormed.count_le (hwf : e.WellFormed) {name : DatasetName} (h : name ≠ .taxonomy) :
    (e.count name : Int) ≤ snapshotCaps name := by
  cases name with
  | events => exact e.count_events ▸ Int.ofNat_le.mpr hwf.events_le
  | places => exact e.count_places ▸ Int.ofNat_le.mpr hwf.places_le
  | activities => exact e.count_activities ▸ Int.ofNat_le.mpr hwf.activities_le
  | taxonomy => exact absurd rfl h

theorem snapshotCaps_lt (name : DatasetName) : snapshotCaps name < 2 ^ 63 := by
  cases name <;> decide

/-- The metadata of some datasets can be decoded exactly when their counts are `int`s. -/
theorem mapM_datasetInfo {names : List DatasetName} {infos : List (Text × DatasetInfo)} :
    (names.map fun name =>
      (name.text, datasetInfoJson name.file (e.count name) (sha256Sum (e.file name)))).mapM
        (fun f => (decodeDatasetInfo f.2).map (Prod.mk f.1)) = some infos ↔
      (∀ name ∈ names, (e.count name : Int) < 2 ^ 63) ∧
        names.map (fun name => (name.text, ⟨name.file, e.count name, sha256Sum (e.file name)⟩)) = infos := by
  induction names generalizing infos with
  | nil => exact ⟨fun h => ⟨fun name hname => (by cases hname), Option.some.inj h⟩,
      fun h => congrArg some h.2⟩
  | cons name names ih =>
    rw [List.map_cons, List.mapM_cons, decodeDatasetInfo_json, List.forall_mem_cons, List.map_cons]
    by_cases hlt : (e.count name : Int) < 2 ^ 63
    · rw [asInt_count.mpr ⟨rfl, hlt⟩]
      simp only [Option.map_some, Option.bind_eq_bind, Option.bind_some]
      constructor
      · intro h
        have ⟨rest, hrest, heq⟩ := Option.bind_eq_some_iff.mp h
        have ⟨hcounts, hinfos⟩ := ih.mp hrest
        exact ⟨⟨hlt, hcounts⟩, hinfos ▸ Option.some.inj heq⟩
      · intro ⟨hcounts, hinfos⟩
        rw [ih.mpr ⟨hcounts.2, rfl⟩]
        exact congrArg some hinfos
    · have hnone : asInt (some (jsonCount (e.count name))) = none := by
        rw [Option.eq_none_iff_forall_ne_some]
        exact fun i hi => hlt (asInt_count.mp hi).2
      rw [hnone]
      exact ⟨fun h => (by cases h), fun h => absurd h.1.1 hlt⟩

theorem decodeManifest_manifest {m : ManifestDoc} : decodeManifest e.manifest = some m ↔
    (∀ name, (e.count name : Int) < 2 ^ 63) ∧ e.manifestDoc = m := by
  have honly : onlyFields ["schema_version".toList, "generated_at".toList, "site".toList,
    "datasets".toList, "licenses".toList, "truncated".toList] e.manifest = true := rfl
  have h1 : field? e.manifest "schema_version".toList = some (.number (.ofInt 2)) := rfl
  have h2 : field? e.manifest "generated_at".toList = some (.string e.generatedAt) := rfl
  have h3 : field? e.manifest "site".toList = some (.string e.site) := rfl
  have h4 : field? e.manifest "datasets".toList = some (.object
      ([.activities, .events, .places, .taxonomy].map fun name =>
        (name.text, datasetInfoJson name.file (e.count name) (sha256Sum (e.file name))))) := rfl
  have h5 : field? e.manifest "licenses".toList = some (.array (e.licenses.map licenseJson)) := rfl
  have h6 : field? e.manifest "truncated".toList = some (.bool e.truncated) := rfl
  have hnames : (∀ name ∈ [DatasetName.activities, .events, .places, .taxonomy],
      (e.count name : Int) < 2 ^ 63) ↔ ∀ name, (e.count name : Int) < 2 ^ 63 :=
    ⟨fun h name => h name (by cases name <;> decide), fun h name _ => h name⟩
  have hdatasets : ∀ {infos}, asDatasets (some (.object
      ([.activities, .events, .places, .taxonomy].map fun name =>
        (name.text, datasetInfoJson name.file (e.count name) (sha256Sum (e.file name)))))) = some infos ↔ _ :=
    @mapM_datasetInfo e _
  unfold decodeManifest
  rw [if_pos honly, h1, h2, h3, h4, h5, h6, ← hnames]
  cases hread : asDatasets _ with
  | none =>
    refine ⟨fun h => (by cases h), fun h => ?_⟩
    rw [hdatasets.mpr ⟨h.1, rfl⟩] at hread
    cases hread
  | some =>
    have ⟨hcounts, hinfos⟩ := hdatasets.mp hread
    rw [← hinfos]
    exact ⟨fun h => ⟨hcounts, Option.some.inj h⟩, fun h => congrArg some h.2⟩

theorem isDigest_sha256Sum (d : GoJson) : isDigest (sha256Sum d) = true := by
  have hdigit : ∀ m : Fin 16, ((hexChar m).isDigit ||
    (decide ('a' ≤ hexChar m) && decide (hexChar m ≤ 'f'))) = true := by decide
  unfold isDigest sha256Sum
  rw [length_sha256, Bool.and_eq_true, List.all_eq_true]
  refine ⟨rfl, fun c hc => ?_⟩
  have ⟨m, hm, heq⟩ := exists_hexChar_of_mem_sha256 hc
  rw [heq]
  exact hdigit ⟨m, hm⟩

theorem unique_manifest : uniqueValue 0 e.manifest = true := by
  refine @unique_object 0 _ ["datasets".toList, "generated_at".toList, "licenses".toList,
    "schema_version".toList, "site".toList, "truncated".toList] (by decide) rfl (by decide) ?_
  have hinfo : ∀ name : DatasetName, uniqueValue 2
      (datasetInfoJson name.file (e.count name) (sha256Sum (e.file name))) = true := fun name =>
    @unique_flat 2 _ ["count".toList, "file".toList, "sha256".toList] (by decide) rfl (by decide) rfl
  have hdatasets : uniqueValue 1 (.object ([.activities, .events, .places, .taxonomy].map fun name =>
      (name.text, datasetInfoJson name.file (e.count name) (sha256Sum (e.file name))))) = true := by
    refine @unique_object 1 _
      ["activities".toList, "events".toList, "places".toList, "taxonomy".toList] (by decide) rfl
      (by decide) ?_
    simp only [List.forall_mem_map]
    exact fun name _ => hinfo name
  have hlicenses : uniqueValue 1 (.array (e.licenses.map licenseJson)) = true := by
    refine unique_array (by decide) ?_
    simp only [List.forall_mem_map]
    exact fun l _ => @unique_flat 2 _ ["attribution".toList, "license_name".toList] (by decide) rfl
      (by decide) rfl
  simp only [List.forall_mem_cons]
  exact ⟨hdatasets, rfl, hlicenses, rfl, rfl, rfl, fun f hf => (by cases hf)⟩

theorem decodesCredits_licenses (licenses : List (Text × Text)) :
    decodesCredits (.array (licenses.map licenseJson)) = true := by
  show (licenses.map licenseJson).all _ = true
  rw [List.all_map, List.all_eq_true]
  exact fun l _ => rfl

theorem info?_manifestDoc (name : DatasetName) : e.manifestDoc.info? name =
    some ⟨name.file, e.count name, sha256Sum (e.file name)⟩ := by
  cases name <;> rfl

theorem getLast?_formatStamp (t : Nat) : (formatStamp t).getLast? = some 'Z' := by
  unfold formatStamp
  rw [← List.cons_append, ← List.append_assoc, List.getLast?_append]
  rfl

theorem stamp_accepted {t : Nat} : ((parseStamp (formatStamp t)).any fun generated =>
    decide (generated ≤ now + clockSkew)) = true ↔ t < stampEnd ∧ t ≤ now + clockSkew := by
  by_cases hlt : t < stampEnd
  · rw [parseStamp_formatStamp hlt]
    simp [hlt]
  · rw [parseStamp_late (Nat.le_of_not_lt hlt)]
    simp [hlt]

theorem validateManifest_manifestDoc {t : Nat} (hgenerated : e.generatedAt = formatStamp t) :
    validateManifest now e.manifestDoc = .ok () ↔
      (t < stampEnd ∧ t ≤ now + clockSkew) ∧ ∀ name, (e.count name : Int) ≤ snapshotCaps name := by
  have hlicenses : uniqueValue 0 (.array (e.licenses.map licenseJson)) = true := by
    refine unique_array (by decide) ?_
    simp only [List.forall_mem_map]
    exact fun l _ => @unique_flat 1 _ ["attribution".toList, "license_name".toList] (by decide) rfl
      (by decide) rfl
  have hstamp : (e.manifestDoc.generatedAt.getLast? == some 'Z') = true := by
    show (e.generatedAt.getLast? == some 'Z') = true
    rw [hgenerated, getLast?_formatStamp]
    rfl
  have hcounts : (datasetNames.all fun name => (e.manifestDoc.info? name).any fun d =>
      d.file == name.file && decide (0 ≤ d.count) && decide (d.count ≤ snapshotCaps name) &&
        isDigest d.sha256) = true ↔ ∀ name, (e.count name : Int) ≤ snapshotCaps name := by
    rw [List.all_eq_true]
    constructor
    · intro h name
      have hname : name ∈ datasetNames := by cases name <;> decide
      have hone := h name hname
      rw [info?_manifestDoc] at hone
      simp only [Option.any_some, Bool.and_eq_true, decide_eq_true_eq] at hone
      exact hone.1.2
    · intro h name _
      rw [info?_manifestDoc]
      simp [h name, isDigest_sha256Sum]
  have hschema : (e.manifestDoc.schemaVersion == snapshotSchema &&
    e.manifestDoc.datasets.length == 4) = true := rfl
  have hlicense : e.manifestDoc.licenses = some (.array (e.licenses.map licenseJson)) := rfl
  have hgeneration : e.manifestDoc.generatedAt = formatStamp t := hgenerated
  unfold validateManifest
  rw [seq_eq_ok, seq_eq_ok, seq_eq_ok, need_eq_ok, need_eq_ok, need_eq_ok, hcounts, hschema, hlicense,
    Bool.and_eq_true, hstamp, hgeneration, stamp_accepted]
  simp only [Option.elim_some, ok_bind, hlicenses, decodesCredits_licenses, need_true, true_and, and_true]

/-! ### A load -/

theorem readSnapshotFile_files {name : FileName} {limit : Nat} {d raw : GoJson}
    (hfile : e.files name = some d) :
    readSnapshotFile e.files name limit = .ok raw ↔ fileBytes d ≤ limit ∧ d = raw := by
  unfold readSnapshotFile
  rw [hfile, Option.elim_some, ok_bind, seq_eq_ok, need_eq_ok, decide_eq_true_eq]
  exact and_congr_right fun _ => pure_eq_ok

/-- The load of an export, when it begins. -/
def Export.loading (e : Export) : Loading :=
  ⟨e.manifest, e.manifestDoc, ⟨e.manifest, e.site, some (.array (e.licenses.map licenseJson)),
    e.generatedAt, .null, [], [], [], []⟩⟩

theorem startLoad_files {t : Nat} (hgenerated : e.generatedAt = formatStamp t)
    (hlast : sha256Sum e.manifest ≠ last) {l : Loading} :
    startLoad now last e.files = .ok (some l) ↔ (fileBytes e.manifest ≤ manifestByteCap ∧
      (t < stampEnd ∧ t ≤ now + clockSkew) ∧ ∀ name, (e.count name : Int) ≤ snapshotCaps name) ∧
      e.loading = l := by
  have hfile : e.files .manifest = some e.manifest := rfl
  unfold startLoad
  rw [bind_eq_ok]
  constructor
  · intro ⟨raw, hread, h⟩
    rw [readSnapshotFile_files hfile] at hread
    have ⟨hbytes, hraw⟩ := hread
    rw [← hraw, seq_eq_ok, bind_eq_ok] at h
    have ⟨_, m, hm, hrest⟩ := h
    rw [elim_eq_ok, decodeManifest_manifest] at hm
    rw [← hm.2, seq_eq_ok, validateManifest_manifestDoc hgenerated, if_neg hlast, pure_eq_ok] at hrest
    exact ⟨⟨hbytes, hrest.1⟩, Option.some.inj hrest.2⟩
  · intro ⟨⟨hbytes, hvalid⟩, hl⟩
    have hlt : ∀ name, (e.count name : Int) < 2 ^ 63 := fun name =>
      Int.lt_of_le_of_lt (hvalid.2 name) (snapshotCaps_lt name)
    refine ⟨e.manifest, (readSnapshotFile_files hfile).mpr ⟨hbytes, rfl⟩, ?_⟩
    rw [seq_eq_ok, need_eq_ok, bind_eq_ok]
    refine ⟨unique_manifest, e.manifestDoc,
      elim_eq_ok.mpr (decodeManifest_manifest.mpr ⟨hlt, rfl⟩), ?_⟩
    rw [seq_eq_ok, validateManifest_manifestDoc hgenerated, if_neg hlast, pure_eq_ok]
    exact ⟨hvalid, congrArg some hl⟩

theorem readDataset_frame {dir : Directory} {l l' : Loading} {name : DatasetName}
    (h : readDataset dir l name = .ok l') :
    l'.manifestRaw = l.manifestRaw ∧ l'.manifest = l.manifest := by
  unfold readDataset at h
  rw [bind_eq_ok] at h
  have ⟨info, _, h⟩ := h
  rw [bind_eq_ok] at h
  have ⟨raw, _, h⟩ := h
  rw [seq_eq_ok, bind_eq_ok] at h
  have ⟨_, s, _, h⟩ := h
  rw [← pure_eq_ok.mp h]
  exact ⟨rfl, rfl⟩

theorem readDataset_files (hwf : e.WellFormed) {l : Loading} {name : DatasetName}
    (hmanifest : l.manifest = e.manifestDoc) : (∃ l', readDataset e.files l name = .ok l') ↔
      fileBytes (e.file name) ≤ snapshotByteCaps name ∧ e.SoundKeys name := by
  have hfile : e.files (.dataset name) = some (e.file name) := rfl
  have haccept := @acceptDataset_iff e e.manifestDoc
    ⟨name.file, e.count name, sha256Sum (e.file name)⟩ l.snap name hwf rfl rfl
  unfold readDataset
  rw [hmanifest, info?_manifestDoc, Option.elim_some]
  simp only [ok_bind]
  constructor
  · intro ⟨l', h⟩
    rw [bind_eq_ok] at h
    have ⟨raw, hread, h⟩ := h
    rw [readSnapshotFile_files hfile] at hread
    rw [← hread.2, seq_eq_ok, bind_eq_ok] at h
    have ⟨_, s, hs, _⟩ := h
    exact ⟨hread.1, haccept.mp ⟨s, hs⟩⟩
  · intro ⟨hbytes, hkeys⟩
    have ⟨s, hs⟩ := haccept.mpr hkeys
    rw [(readSnapshotFile_files hfile).mpr ⟨hbytes, rfl⟩, ok_bind, beq_self_eq_true, need_true, ok_bind,
      hs]
    exact ⟨_, rfl⟩

theorem foldlM_readDataset (hwf : e.WellFormed) (names : List DatasetName) {l : Loading}
    (hmanifest : l.manifest = e.manifestDoc) : (∃ l', names.foldlM (readDataset e.files) l = .ok l') ↔
      ∀ name ∈ names, fileBytes (e.file name) ≤ snapshotByteCaps name ∧ e.SoundKeys name := by
  induction names generalizing l with
  | nil => exact ⟨fun _ name hname => (by cases hname), fun _ => ⟨l, rfl⟩⟩
  | cons name names ih =>
    rw [List.forall_mem_cons, ← readDataset_files hwf hmanifest]
    constructor
    · intro ⟨l', h⟩
      rw [List.foldlM_cons, bind_eq_ok] at h
      have ⟨l₁, hfirst, hrest⟩ := h
      exact ⟨⟨l₁, hfirst⟩, (ih ((readDataset_frame hfirst).2.trans hmanifest)).mp ⟨l', hrest⟩⟩
    · intro ⟨⟨l₁, hfirst⟩, hrest⟩
      have ⟨l', hl'⟩ := (ih ((readDataset_frame hfirst).2.trans hmanifest)).mpr hrest
      exact ⟨l', by rw [List.foldlM_cons, hfirst]; exact hl'⟩

theorem foldlM_readDataset_frame {dir : Directory} {names : List DatasetName} {l l' : Loading}
    (h : names.foldlM (readDataset dir) l = .ok l') : l'.manifestRaw = l.manifestRaw := by
  induction names generalizing l with
  | nil => exact congrArg Loading.manifestRaw (pure_eq_ok.mp h).symm
  | cons name names ih =>
    rw [List.foldlM_cons, bind_eq_ok] at h
    have ⟨l₁, hfirst, hrest⟩ := h
    exact (ih hrest).trans (readDataset_frame hfirst).1

/-- **What is accepted.** A snapshot that an exporter wrote is served exactly when its clock is not ahead,
its files are within their budgets, its taxonomy is within its cap, and its keys are sound. -/
theorem load_iff {t : Nat} (hwf : e.WellFormed) (hgenerated : e.generatedAt = formatStamp t)
    (hlast : sha256Sum e.manifest ≠ last) : (∃ snap, load now last e.files = .ok (some snap)) ↔
      (fileBytes e.manifest ≤ manifestByteCap ∧ (t < stampEnd ∧ t ≤ now + clockSkew) ∧
        ∀ name, (e.count name : Int) ≤ snapshotCaps name) ∧
      ∀ name, fileBytes (e.file name) ≤ snapshotByteCaps name ∧ e.SoundKeys name := by
  have hnames : ∀ name : DatasetName, name ∈ datasetNames := fun name => by cases name <;> decide
  unfold load
  constructor
  · intro ⟨snap, h⟩
    rw [bind_eq_ok] at h
    have ⟨first, hstart, h⟩ := h
    cases first with
    | none => exact absurd (pure_eq_ok.mp h) (by simp)
    | some =>
      have ⟨hvalid, hl⟩ := (startLoad_files hgenerated hlast).mp hstart
      simp only [bind_eq_ok] at h
      have ⟨l', hloop, _⟩ := h
      exact ⟨hvalid, fun name =>
        (foldlM_readDataset hwf datasetNames (hl ▸ rfl)).mp ⟨l', hloop⟩ name (hnames name)⟩
  · intro ⟨hvalid, hdatasets⟩
    have hstart := (@startLoad_files e now last t hgenerated hlast e.loading).mpr ⟨hvalid, rfl⟩
    have ⟨l, hloop⟩ := (foldlM_readDataset hwf datasetNames (l := e.loading) rfl).mpr fun name _ =>
      hdatasets name
    have hframe := foldlM_readDataset_frame hloop
    have hfinal : readSnapshotFile e.files .manifest manifestByteCap = .ok e.manifest :=
      (readSnapshotFile_files rfl).mpr ⟨hvalid.1, rfl⟩
    have hsame : (sha256Sum e.manifest == sha256Sum l.manifestRaw) = true := by
      rw [hframe]
      exact beq_self_eq_true _
    refine ⟨{ l.snap with version := sha256Sum l.manifestRaw }, ?_⟩
    rw [hstart, ok_bind]
    simp only [hloop, ok_bind, finishLoad, hfinal, hsame, need_true]
    rfl

/-! ### The sizes of the files -/

theorem textBytes_goString {s : Text} (h : ∀ c ∈ s, goRune c = [c] ∧ textBytes [c] = 1) :
    textBytes (goString s) = s.length + 2 := by
  have hbody : textBytes (s.flatMap goRune) = s.length := by
    induction s with
    | nil => rfl
    | cons c s ih =>
      rw [List.flatMap_cons, textBytes_append, (h c List.mem_cons_self).1, (h c List.mem_cons_self).2,
        ih fun d hd => h d (List.mem_cons_of_mem c hd), List.length_cons, Nat.add_comm]
  have hquote : textBytes ['"'] = 1 := by decide
  unfold goString
  rw [textBytes_cons, textBytes_append, hbody, hquote]
  omega

theorem textBytes_sha256Sum (d : GoJson) : textBytes (goString (sha256Sum d)) = 66 := by
  have hdigit : ∀ m : Fin 16, goRune (hexChar m) = [hexChar m] ∧ textBytes [hexChar m] = 1 := by decide
  have hlength : (sha256Sum d).length = 64 := length_sha256 _
  rw [textBytes_goString, hlength]
  intro c hc
  have ⟨m, hm, heq⟩ := exists_hexChar_of_mem_sha256 hc
  rw [heq]
  exact hdigit ⟨m, hm⟩

/-- The bytes of a dataset without its records. -/
def datasetFrame (generated : Text) (count : Nat) : Nat :=
  fileBytes (.object [("count".toList, jsonCount count), ("generated_at".toList, .string generated),
    ("records".toList, .array []), ("schema_version".toList, .number (.ofInt 2))])

theorem fileBytes_datasetFile (generated : Text) (records : List GoJson) :
    fileBytes (datasetFile generated records) =
      itemBytes records + datasetFrame generated records.length := by
  unfold datasetFile datasetFrame
  simp only [fileBytes_object, List.map_cons, List.map_nil, List.sum_cons, List.sum_nil, fieldBytes,
    fileBytes_array, itemBytes]
  omega

theorem fileBytes_taxonomyFile (generated : Text) (categories types : List GoJson) :
    fileBytes (taxonomyFile generated categories types) =
      itemBytes categories + itemBytes types + fileBytes (taxonomyFile generated [] []) := by
  unfold taxonomyFile
  simp only [fileBytes_object, List.map_cons, List.map_nil, List.sum_cons, List.sum_nil, fieldBytes,
    fileBytes_array, itemBytes]
  omega

/-- A text in the place of a digest. -/
def noDigest : Text := List.replicate 64 '0'

theorem fileBytes_manifestFile (generated site : Text) (counts : DatasetName → Nat)
    (files : DatasetName → GoJson) (licenses : List (Text × Text)) (truncated : Bool) :
    fileBytes (manifestFile generated site counts (fun name => sha256Sum (files name)) licenses
      truncated) = itemBytes (licenses.map licenseJson) +
        fileBytes (manifestFile generated site counts (fun _ => noDigest) [] truncated) := by
  have hnone : textBytes (goString noDigest) = 66 := by decide
  have hinfo : ∀ name, fileBytes (datasetInfoJson name.file (counts name) (sha256Sum (files name))) =
      fileBytes (datasetInfoJson name.file (counts name) noDigest) := fun name => by
    refine fileBytes_object_congr ?_
    show [_, _, textBytes (goString "sha256".toList) + 1 + textBytes (goString (sha256Sum (files name)))] =
      [_, _, textBytes (goString "sha256".toList) + 1 + textBytes (goString noDigest)]
    rw [textBytes_sha256Sum, hnone]
  unfold manifestFile
  simp only [fileBytes_object, List.map_cons, List.map_nil, List.sum_cons, List.sum_nil, fieldBytes,
    fileBytes_array, hinfo, itemBytes]
  omega

/-! ### The rows -/

namespace Database

variable (db : Database)

/-- The events that an exporter takes. -/
def exportedEvents : List EventRow := db.events.take 10000

def exportedPlaces : List PlaceRow := db.places.take 50000

def exportedActivities : List ActivityRow := (db.activities.filter (·.cohort == "adult".toList)).take 2000

/-- Whether some rows were left out. -/
def truncated : Bool :=
  decide (50000 < db.places.length) || decide (10000 < db.events.length) ||
    decide (2000 < (db.activities.filter (·.cohort == "adult".toList)).length)

def counts : DatasetName → Nat
  | .events => db.exportedEvents.length
  | .places => db.exportedPlaces.length
  | .activities => db.exportedActivities.length
  | .taxonomy => db.categories.length + db.types.length

/-- The credits of the manifest. -/
def credits : List (Text × Text) := licensesOf db.exportedPlaces db.exportedEvents

end Database

/-- What an exporter makes of a row. -/
structure View where
  site : Text
  event : EventRow → EventView
  placePath : PlaceRow → Text
  time : Nat → Text
  row_event : ∀ r, (event r).row = r

def jobsView (env : ExportEnv) : View where
  site := env.site
  event := jobsEvent env.unicode
  placePath p := pathText "places".toList p.id (jobsSlug env.unicode p.name "place".toList)
  time := jobsTime
  row_event _ := rfl

def exportView (env : ExportEnv) : View where
  site := trimSite env.site
  event := exportEvent env.unicode
  placePath p := pathText "places".toList p.id (exportSlug env.unicode p.name "place".toList)
  time := isoZ
  row_event _ := rfl

/-- The bounds of the loader, of the rows that an exporter takes. -/
structure RowsFit (now generated : Nat) (v : View) (db : Database) : Prop where
  stamp : generated < stampEnd
  clock : generated ≤ now + clockSkew
  eventIds : ∀ r ∈ db.exportedEvents, 0 < r.id.toInt
  placeIds : ∀ p ∈ db.exportedPlaces, 0 < p.id.toInt
  activityIds : ∀ a ∈ db.exportedActivities, 0 < a.id.toInt
  categorySlugs : ∀ c ∈ db.categories, c.slug ≠ []
  typeSlugs : ∀ t ∈ db.types, t.slug ≠ []
  taxonomySize : db.categories.length + db.types.length ≤ 50000
  eventBytes : itemBytes (db.exportedEvents.map fun r => eventRecord (v.event r)) +
    datasetFrame (formatStamp generated) db.exportedEvents.length ≤ 32 * 2 ^ 20
  placeBytes : itemBytes (db.exportedPlaces.map fun p => placeRecord p (v.placePath p)) +
    datasetFrame (formatStamp generated) db.exportedPlaces.length ≤ 64 * 2 ^ 20
  activityBytes : itemBytes (db.exportedActivities.map fun a => activityRecord a (v.time a.startsAt)) +
    datasetFrame (formatStamp generated) db.exportedActivities.length ≤ 8 * 2 ^ 20
  taxonomyBytes : itemBytes (db.categories.map categoryRecord) + itemBytes (db.types.map typeRecord) +
    fileBytes (taxonomyFile (formatStamp generated) [] []) ≤ 8 * 2 ^ 20
  manifestBytes : itemBytes (db.credits.map licenseJson) + fileBytes (manifestFile (formatStamp generated)
    v.site db.counts (fun _ => noDigest) [] db.truncated) ≤ 2 ^ 20

/-- The export of the rows. -/
def View.export (v : View) (generated : Nat) (db : Database) : Export where
  generatedAt := formatStamp generated
  site := v.site
  events := db.exportedEvents.map v.event
  places := db.exportedPlaces.map fun p => (p, v.placePath p)
  activities := db.exportedActivities.map fun a => (a, v.time a.startsAt)
  categories := db.categories
  types := db.types
  licenses := db.credits
  truncated := db.truncated

theorem truncated_eq {n cap : Nat} : decide (cap < min (cap + 1) n) = decide (cap < n) := by
  rw [decide_eq_decide]
  omega

theorem exportAgentSnapshot_eq (env : ExportEnv) (db : Database) :
    exportAgentSnapshot env db = (jobsView env).export env.now db := by
  unfold exportAgentSnapshot View.export Database.credits Database.exportedEvents
    Database.exportedPlaces Database.exportedActivities Database.truncated
  simp only [List.take_take, List.length_take, truncated_eq]
  rfl

theorem snapshotExport_eq {env : ExportEnv} {db : Database} {e : Export}
    (h : snapshotExport env db = .ok e) : e = (exportView env).export env.now db := by
  unfold snapshotExport at h
  rw [seq_eq_ok, seq_eq_ok, pure_eq_ok] at h
  rw [← h.2.2]
  unfold View.export Database.credits Database.exportedEvents Database.exportedPlaces
    Database.exportedActivities Database.truncated
  simp only [List.take_take, List.length_take, truncated_eq]
  rw [Bool.or_comm (decide (10000 < db.events.length))]
  rfl

theorem wellFormed_export (v : View) (generated : Nat) (db : Database) :
    (v.export generated db).WellFormed where
  eventIds := by
    show ((db.exportedEvents.map v.event).map fun w => w.row.id).Nodup
    rw [List.map_map, show (fun w : EventView => w.row.id) ∘ v.event = EventRow.id from
      funext fun r => congrArg EventRow.id (v.row_event r)]
    exact db.eventIds.sublist ((List.take_sublist _ _).map _)
  placeIds := by
    show ((db.exportedPlaces.map fun p => (p, v.placePath p)).map fun w => w.1.id).Nodup
    rw [List.map_map]
    exact db.placeIds.sublist ((List.take_sublist _ _).map _)
  activityIds := by
    show ((db.exportedActivities.map fun a => (a, v.time a.startsAt)).map fun w => w.1.id).Nodup
    rw [List.map_map]
    exact db.activityIds.sublist (((List.take_sublist _ _).trans List.filter_sublist).map _)
  categorySlugs := db.categorySlugs
  typeSlugs := db.typeSlugs
  adults := by
    show ∀ a ∈ db.exportedActivities.map _, _
    rw [List.forall_mem_map]
    intro a ha
    exact eq_of_beq (List.mem_filter.mp (List.mem_of_mem_take ha)).2
  events_le := by
    show (db.exportedEvents.map _).length ≤ _
    rw [List.length_map]
    exact List.length_take_le _ _
  places_le := by
    show (db.exportedPlaces.map _).length ≤ _
    rw [List.length_map]
    exact List.length_take_le _ _
  activities_le := by
    show (db.exportedActivities.map _).length ≤ _
    rw [List.length_map]
    exact List.length_take_le _ _

theorem forall_datasetName {P : DatasetName → Prop} :
    (∀ name, P name) ↔ P .events ∧ P .places ∧ P .activities ∧ P .taxonomy :=
  ⟨fun h => ⟨h _, h _, h _, h _⟩, fun ⟨hevents, hplaces, hactivities, htaxonomy⟩ name => by
    cases name <;> assumption⟩

theorem count_export (v : View) (generated : Nat) (db : Database) :
    (v.export generated db).count = db.counts := by
  funext name
  cases name with
  | events => exact (Export.count_events _).trans (List.length_map _)
  | places => exact (Export.count_places _).trans (List.length_map _)
  | activities => exact (Export.count_activities _).trans (List.length_map _)
  | taxonomy => exact Export.count_taxonomy _

theorem fileBytes_rows {α β : Type} (generated : Text) (view : α → β) (record : β → GoJson)
    (rows : List α) : fileBytes (datasetFile generated ((rows.map view).map record)) =
      itemBytes (rows.map fun r => record (view r)) + datasetFrame generated rows.length := by
  rw [fileBytes_datasetFile, List.map_map, List.length_map]
  rfl

theorem soundKeys_export {v : View} {generated : Nat} {db : Database} :
    (∀ name, (v.export generated db).SoundKeys name) ↔
      (∀ r ∈ db.exportedEvents, 0 < r.id.toInt) ∧ (∀ p ∈ db.exportedPlaces, 0 < p.id.toInt) ∧
        (∀ a ∈ db.exportedActivities, 0 < a.id.toInt) ∧
          (∀ c ∈ db.categories, c.slug ≠ []) ∧ ∀ t ∈ db.types, t.slug ≠ [] := by
  rw [forall_datasetName]
  show (∀ w ∈ db.exportedEvents.map v.event, 0 < w.row.id.toInt) ∧
    (∀ p ∈ db.exportedPlaces.map fun p => (p, v.placePath p), 0 < p.1.id.toInt) ∧
      (∀ a ∈ db.exportedActivities.map fun a => (a, v.time a.startsAt), 0 < a.1.id.toInt) ∧ _ ↔ _
  simp only [List.forall_mem_map, v.row_event]
  exact Iff.rfl

/-- The bounds of the loader on an export are those on its rows. -/
theorem rowsFit_iff {v : View} {generated : Nat} {db : Database} :
    RowsFit now generated v db ↔ (fileBytes (v.export generated db).manifest ≤ manifestByteCap ∧
      (generated < stampEnd ∧ generated ≤ now + clockSkew) ∧
        ∀ name, ((v.export generated db).count name : Int) ≤ snapshotCaps name) ∧
      ∀ name, fileBytes ((v.export generated db).file name) ≤ snapshotByteCaps name ∧
        (v.export generated db).SoundKeys name := by
  have hwf := wellFormed_export v generated db
  have hmanifest : fileBytes (v.export generated db).manifest = itemBytes (db.credits.map licenseJson) +
      fileBytes (manifestFile (formatStamp generated) v.site (v.export generated db).count
        (fun _ => noDigest) [] db.truncated) := fileBytes_manifestFile _ _ _ _ _ _
  have hevents : (v.export generated db).file .events =
    datasetFile (formatStamp generated) ((db.exportedEvents.map v.event).map eventRecord) := rfl
  have hplaces : (v.export generated db).file .places = datasetFile (formatStamp generated)
    ((db.exportedPlaces.map fun p => (p, v.placePath p)).map fun p => placeRecord p.1 p.2) := rfl
  have hactivities : (v.export generated db).file .activities = datasetFile (formatStamp generated)
    ((db.exportedActivities.map fun a => (a, v.time a.startsAt)).map fun a =>
      activityRecord a.1 a.2) := rfl
  have htaxonomy : (v.export generated db).file .taxonomy = taxonomyFile (formatStamp generated)
    (db.categories.map categoryRecord) (db.types.map typeRecord) := rfl
  have hcounts : (∀ name, ((v.export generated db).count name : Int) ≤ snapshotCaps name) ↔
      db.categories.length + db.types.length ≤ 50000 := by
    constructor
    · intro h
      have hle := h .taxonomy
      rw [Export.count_taxonomy] at hle
      exact Int.ofNat_le.mp hle
    · intro h name
      by_cases hname : name = .taxonomy
      · rw [hname, Export.count_taxonomy]
        exact Int.ofNat_le.mpr h
      · exact hwf.count_le hname
  rw [count_export] at hmanifest
  rw [forall_and, soundKeys_export, hcounts, forall_datasetName, hmanifest, hevents, hplaces, hactivities,
    htaxonomy, fileBytes_rows, fileBytes_rows, fileBytes_rows, fileBytes_taxonomyFile]
  constructor
  · intro h
    exact ⟨⟨h.manifestBytes, ⟨h.stamp, h.clock⟩, h.taxonomySize⟩,
      ⟨h.eventBytes, h.placeBytes, h.activityBytes, h.taxonomyBytes⟩, h.eventIds, h.placeIds,
      h.activityIds, h.categorySlugs, h.typeSlugs⟩
  · intro ⟨⟨hcredits, ⟨hstamp, hclock⟩, hsize⟩, ⟨hevents, hplaces, hactivities, htaxonomy⟩, hids⟩
    exact ⟨hstamp, hclock, hids.1, hids.2.1, hids.2.2.1, hids.2.2.2.1, hids.2.2.2.2, hsize, hevents,
      hplaces, hactivities, htaxonomy, hcredits⟩

theorem export_served_iff {v : View} {generated : Nat} {db : Database}
    (hlast : sha256Sum (v.export generated db).manifest ≠ last) :
    (∃ snap, load now last (v.export generated db).files = .ok (some snap)) ↔
      RowsFit now generated v db :=
  (load_iff (wellFormed_export v generated db) rfl hlast).trans rowsFit_iff.symm

/-- **Everything that fits is accepted.** What either exporter writes is served exactly when the rows it
takes are within the loader's bounds. -/
theorem export_accepted_iff (now : Nat) (last : Text) (env : ExportEnv) (db : Database) :
    (sha256Sum (exportAgentSnapshot env db).manifest ≠ last →
      ((∃ snap, load now last (exportAgentSnapshot env db).files = .ok (some snap)) ↔
        RowsFit now env.now (jobsView env) db)) ∧
    ∀ e, snapshotExport env db = .ok e → sha256Sum e.manifest ≠ last →
      ((∃ snap, load now last e.files = .ok (some snap)) ↔ RowsFit now env.now (exportView env) db) := by
  constructor
  · rw [exportAgentSnapshot_eq]
    exact export_served_iff
  · intro e he
    rw [snapshotExport_eq he]
    exact export_served_iff

/-- An event of the calendar feeds. -/
def feedEvent (description : Text) (id : Int64) : EventRow where
  id := id
  title := "Concert".toList
  description := description
  startsAt := 63930000000000000
  endsAt := none
  url := []
  source := "ical".toList
  attribution := []
  licenseName := []
  provenanceUrl := []
  activity := none
  sourceCategory := []
  lifecycleStatus := "scheduled".toList
  sourceConfidence := none
  sourceRecurrence := []
  sourceTimezone := []
  sourcePriceMin := none
  sourcePriceMax := none
  sourceCurrency := []
  sourceIsFree := none
  sourceAvailability := []
  placeId := none
  placeSummary := none

/-- A database of events of the calendar feeds. -/
def feedDatabase (description : Text) (ids : List Int64) (h : ids.Nodup) : Database where
  places := []
  events := ids.map (feedEvent description)
  activities := []
  categories := [⟨"music".toList, "Music".toList, none⟩]
  types := []
  placeIds := List.nodup_nil
  eventIds := by
    rw [List.map_map]
    exact h.map fun _ _ heq => heq
  activityIds := List.nodup_nil
  categorySlugs := List.nodup_singleton _
  typeSlugs := List.nodup_nil

/-- An exporter at noon of the first day of 2026, or some seconds later. -/
def feedEnv (seconds : Nat) : ExportEnv :=
  ⟨⟨id, Char.toLower, fun _ => false⟩, "https://site".toList, 63902865600000000 + seconds * 1000000⟩

theorem sha256Sum_ne_nil (d : GoJson) : sha256Sum d ≠ [] := by
  intro hnil
  have hlength : (sha256Sum d).length = 64 := length_sha256 _
  rw [hnil] at hlength
  cases hlength

/-- A database of a category alone. -/
def categoryDatabase : Database := feedDatabase [] [] List.nodup_nil

/-- A category alone fits, if its files do with the time they have. -/
theorem rowsFit_category {v : View} {now generated : Nat} {time : Text}
    (htime : formatStamp generated = time) (hsite : v.site = "https://site".toList)
    (hclock : generated < stampEnd ∧ generated ≤ now + clockSkew)
    (hframe : datasetFrame time 0 ≤ 2 ^ 20)
    (htaxonomy : fileBytes (taxonomyFile time (categoryDatabase.categories.map categoryRecord) []) ≤ 2 ^ 20)
    (hmanifest : fileBytes (manifestFile time "https://site".toList categoryDatabase.counts
      (fun _ => noDigest) [] false) ≤ 2 ^ 20) : RowsFit now generated v categoryDatabase := by
  have hempty : itemBytes [] + datasetFrame time 0 ≤ 2 ^ 20 := by
    rw [show itemBytes [] = 0 from rfl, Nat.zero_add]
    exact hframe
  rw [fileBytes_taxonomyFile] at htaxonomy
  subst htime
  constructor
  case stamp => exact hclock.1
  case clock => exact hclock.2
  case manifestBytes =>
    rw [hsite]
    exact (Nat.zero_add _).trans_le hmanifest
  case eventBytes => exact hempty.trans (by decide)
  case placeBytes => exact hempty.trans (by decide)
  case activityBytes => exact hempty.trans (by decide)
  case taxonomyBytes => exact htaxonomy.trans (by decide)
  all_goals decide +kernel

theorem formatStamp_feedEnv :
    formatStamp (feedEnv 0).now = "2026-01-01T12:00:00.000000Z".toList := by decide +kernel

theorem export_accepted_category :
    (∃ snap, load 63902865600000000 []
      (exportAgentSnapshot (feedEnv 0) categoryDatabase).files = .ok (some snap)) ∧
    ∀ e, snapshotExport (feedEnv 0) categoryDatabase = .ok e →
      ∃ snap, load 63902865600000000 [] e.files = .ok (some snap) := by
  have haccepted := export_accepted_iff 63902865600000000 [] (feedEnv 0) categoryDatabase
  have hfits : ∀ v : View, v.site = "https://site".toList →
      RowsFit 63902865600000000 (feedEnv 0).now v categoryDatabase := fun v hsite =>
    rowsFit_category formatStamp_feedEnv hsite (by decide +kernel) (by decide +kernel)
      (by decide +kernel) (by decide +kernel)
  exact ⟨(haccepted.1 (sha256Sum_ne_nil _)).mpr (hfits _ rfl),
    fun e he => (haccepted.2 e he (sha256Sum_ne_nil _)).mpr (hfits _ (by decide))⟩

theorem description_le (v : View) (rows : List EventRow) :
    (rows.map fun r => r.description.length).sum ≤ itemBytes (rows.map fun r => eventRecord (v.event r)) := by
  have hone : ∀ r, r.description.length ≤ fileBytes (eventRecord (v.event r)) := by
    intro r
    have hstring := length_le_fileBytes (v.event r).row.description
    have hfield : fieldBytes ("description".toList, .string (v.event r).row.description) ≤
        fileBytes (eventRecord (v.event r)) := fieldBytes_le (by simp)
    rw [v.row_event] at hstring hfield
    refine hstring.trans (le_trans ?_ hfield)
    exact Nat.le_add_left _ _
  have hsum : (rows.map fun r => r.description.length).sum + rows.length ≤
      ((rows.map fun r => eventRecord (v.event r)).map fun d => fileBytes d + 1).sum := by
    induction rows with
    | nil => exact Nat.le_refl 0
    | cons r rows ih =>
      have hr := hone r
      simp only [List.map_cons, List.sum_cons, List.length_cons]
      omega
  unfold itemBytes
  cases rows with
  | nil => exact Nat.zero_le _
  | cons r rows =>
    rw [List.length_cons] at hsum
    omega

/-- Eight feeds of less than 5 MiB each make more events than the loader reads. -/
theorem long_descriptions_rejected :
    ¬ ∃ snap, load 63902865600000000 [] (exportAgentSnapshot (feedEnv 0)
      (feedDatabase (List.replicate 4200000 'a') [1, 2, 3, 4, 5, 6, 7, 8] (by decide))).files =
        .ok (some snap) := by
  rw [exportAgentSnapshot_eq, export_served_iff (sha256Sum_ne_nil _)]
  intro hfit
  have hbytes := hfit.eventBytes
  have hdescriptions := description_le (jobsView (feedEnv 0)) (feedDatabase (List.replicate 4200000 'a')
    [1, 2, 3, 4, 5, 6, 7, 8] (by decide)).exportedEvents
  have hlength : ((feedDatabase (List.replicate 4200000 'a') [1, 2, 3, 4, 5, 6, 7, 8]
      (by decide)).exportedEvents.map fun r => r.description.length).sum = 8 * 4200000 := by
    have htake : (feedDatabase (List.replicate 4200000 'a') [1, 2, 3, 4, 5, 6, 7, 8]
        (by decide)).exportedEvents =
        List.map (feedEvent (List.replicate 4200000 'a')) [1, 2, 3, 4, 5, 6, 7, 8] := rfl
    have hone : ∀ id, (feedEvent (List.replicate 4200000 'a') id).description.length = 4200000 :=
      fun id => List.length_replicate
    rw [htake]
    simp only [List.map_cons, List.map_nil, hone]
    rfl
  omega

end SocialActivities.Snapshots
