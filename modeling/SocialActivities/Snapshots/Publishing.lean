import SocialActivities.Lib.Machine
import SocialActivities.Snapshots.Accepted

/-!
# `SocialActivities.Snapshots.Publishing`: exporters and the loader on one directory

Any number of exports replace the files of the snapshot directory, each one file by file with the
manifest last, while the loader of the agent API reads them. A replacement is a `rename`, and a read sees
one whole file, so a step of the machine is one replacement or one read. An export that crashes takes no
further step. A read may also fail for a reason of the disk (`fail`).

The datasets that a load takes are those of the export whose manifest it read (`Inv.reading`), because the
manifest has their digests. So what is served is the snapshot of one export (`published_snapshots`). It
also says when the next load serves the export that completed last: when no other export came between.
Where one did, the files are of two exports, and the loader rejects them (`overlap_rejected`).
-/

namespace SocialActivities.Snapshots

open Lib

/-! ### The machine -/

/-- The order in which an export replaces its files. -/
def writeOrder : List FileName :=
  [.dataset .events, .dataset .places, .dataset .activities, .dataset .taxonomy, .manifest]

/-- An export that has begun, and the files that it has yet to replace. -/
structure Publisher where
  snapshot : Export
  left : List FileName

/-- `Loader`, and the load that holds its mutex. -/
structure Loader where
  current : Option Snapshot
  lastManifestDigest : Text
  reading : Option (Loading × List DatasetName)

structure World where
  dir : Directory
  publishers : List Publisher
  loader : Loader

inductive Action where
  /-- An export has read its rows. -/
  | start (e : Export)
  /-- `replace`, of the next file of an export. -/
  | replace (i : Nat)
  /-- `CheckReload`, up to the first dataset. -/
  | beginLoad (now : Nat)
  | readNext
  /-- The end of `load` and of `CheckReload`. -/
  | finish
  /-- A file cannot be read. -/
  | fail

/-- The end of `CheckReload`, for a load without an error. -/
def Loader.store (l : Loader) (snap : Snapshot) : Loader :=
  if snap.version = l.lastManifestDigest then { l with reading := none }
  else ⟨some snap, snap.version, none⟩

/-- The rest of a load, unless there was an error: then what is served stays. -/
def Loader.goOn (l : Loader) (todo : List DatasetName) : Except String Loading → Loader
  | .ok loading => { l with reading := some (loading, todo) }
  | .error _ => { l with reading := none }

def Loader.beginLoad (l : Loader) (dir : Directory) (now : Nat) : Loader :=
  match l.reading with
  | some _ => l
  | none =>
    match startLoad now l.lastManifestDigest dir with
    | .ok (some loading) => { l with reading := some (loading, datasetNames) }
    -- The manifest is the one that is served, or the load failed.
    | _ => l

def Loader.readNext (l : Loader) (dir : Directory) : Loader :=
  match l.reading with
  | some (loading, name :: todo) => l.goOn todo (readDataset dir loading name)
  | _ => l

def Loader.finish (l : Loader) (dir : Directory) : Loader :=
  match l.reading with
  | some (loading, []) =>
    match finishLoad dir loading with
    | .ok snap => l.store snap
    | .error _ => { l with reading := none }
  | _ => l

/-- The next replacement of an export. -/
def World.replace (w : World) (i : Nat) : World :=
  match w.publishers[i]? with
  | some ⟨e, f :: left⟩ =>
    { w with dir := Function.update w.dir f (e.files f), publishers := w.publishers.set i ⟨e, left⟩ }
  | _ => w

def step (w : World) : Action → World
  | .start e => { w with publishers := w.publishers ++ [⟨e, writeOrder⟩] }
  | .replace i => w.replace i
  | .beginLoad now => { w with loader := w.loader.beginLoad w.dir now }
  | .readNext => { w with loader := w.loader.readNext w.dir }
  | .finish => { w with loader := w.loader.finish w.dir }
  | .fail => { w with loader := { w.loader with reading := none } }

/-- An empty directory, and a loader that has read nothing. -/
def emptyWorld : World := ⟨fun _ => none, [], ⟨none, [], none⟩⟩

def run (acts : List Action) : World := Machine.run step emptyWorld acts

/-- The exports that a run starts. -/
def started (acts : List Action) : List Export :=
  acts.filterMap fun a => match a with
    | .start e => some e
    | _ => none

/-- No two files of some exports are different and have one digest. -/
def NoCollision (es : List Export) : Prop :=
  ∀ e ∈ es, ∀ e' ∈ es, ∀ f f' d d', e.files f = some d → e'.files f' = some d' →
    sha256Sum d = sha256Sum d' → d = d'

/-- The snapshot of an export: what a load of its files alone gives. -/
def SnapshotOf (e : Export) (snap : Snapshot) : Prop :=
  ∃ now, load now [] e.files = .ok (some snap)

/-! ### Loads -/

theorem readSnapshotFile_congr {dir dir' : Directory} {f : FileName} {limit : Nat} (h : dir f = dir' f) :
    readSnapshotFile dir f limit = readSnapshotFile dir' f limit := by
  unfold readSnapshotFile
  rw [h]

theorem readSnapshotFile_some {dir : Directory} {f : FileName} {limit : Nat} {d : GoJson}
    (h : readSnapshotFile dir f limit = .ok d) : dir f = some d := by
  unfold readSnapshotFile at h
  rw [bind_eq_ok] at h
  have ⟨d', hfile, h⟩ := h
  rw [elim_eq_ok] at hfile
  rw [seq_eq_ok, pure_eq_ok] at h
  rw [hfile, h.2]

theorem startLoad_some {now : Nat} {last : Text} {dir : Directory} {l : Loading}
    (h : startLoad now last dir = .ok (some l)) :
    dir .manifest = some l.manifestRaw ∧ decodeManifest l.manifestRaw = some l.manifest ∧
      l.snap.manifestRaw = l.manifestRaw ∧ sha256Sum l.manifestRaw ≠ last := by
  unfold startLoad at h
  rw [bind_eq_ok] at h
  have ⟨raw, hread, h⟩ := h
  rw [seq_eq_ok, bind_eq_ok] at h
  have ⟨_, m, hm, h⟩ := h
  rw [elim_eq_ok] at hm
  rw [seq_eq_ok] at h
  have ⟨_, h⟩ := h
  split at h
  · cases h
  · next hne =>
    rw [pure_eq_ok, Option.some_inj] at h
    rw [← h]
    exact ⟨readSnapshotFile_some hread, hm, rfl, hne⟩

theorem startLoad_congr {now : Nat} {last last' : Text} {dir dir' : Directory} {l : Loading}
    (hdir : dir .manifest = dir' .manifest) (hlast : sha256Sum l.manifestRaw ≠ last')
    (h : startLoad now last dir = .ok (some l)) : startLoad now last' dir' = .ok (some l) := by
  have hfirst := startLoad_some h
  unfold startLoad at h ⊢
  rw [readSnapshotFile_congr hdir, bind_eq_ok] at h
  have ⟨raw, hread, hrest⟩ := h
  have hraw : raw = l.manifestRaw := by
    have hsome := readSnapshotFile_some hread
    rw [← hdir, hfirst.1, Option.some_inj] at hsome
    exact hsome.symm
  rw [hread, ok_bind]
  rw [hraw] at hrest ⊢
  simp only [hfirst.2.2.2, if_false] at hrest
  simp only [hlast, if_false]
  exact hrest

theorem readDataset_congr {dir dir' : Directory} {l : Loading} {name : DatasetName}
    (h : dir (.dataset name) = dir' (.dataset name)) :
    readDataset dir l name = readDataset dir' l name := by
  unfold readDataset
  rw [readSnapshotFile_congr h]

theorem readDataset_some {dir : Directory} {l l' : Loading} {name : DatasetName}
    (h : readDataset dir l name = .ok l') : ∃ info d, l.manifest.info? name = some info ∧
      dir (.dataset name) = some d ∧ sha256Sum d = info.sha256 := by
  unfold readDataset at h
  rw [bind_eq_ok] at h
  have ⟨info, hinfo, h⟩ := h
  rw [bind_eq_ok] at h
  have ⟨d, hread, h⟩ := h
  rw [seq_eq_ok, need_eq_ok] at h
  exact ⟨info, d, elim_eq_ok.mp hinfo, readSnapshotFile_some hread, eq_of_beq h.1⟩

theorem acceptDataset_manifestRaw {m : ManifestDoc} {info : DatasetInfo} {name : DatasetName}
    {raw : GoJson} {snap s : Snapshot} (h : acceptDataset m info name raw snap = .ok s) :
    s.manifestRaw = snap.manifestRaw := by
  unfold acceptDataset at h
  split at h
  · rw [seq_eq_ok, pure_eq_ok] at h
    rw [← h.2]
  · rw [seq_eq_ok, bind_eq_ok] at h
    have ⟨_, df, _, h⟩ := h
    rw [seq_eq_ok, seq_eq_ok] at h
    have ⟨_, _, h⟩ := h
    cases name with
    | events =>
      have ⟨rs, _, h⟩ := bind_eq_ok.mp h
      rw [← pure_eq_ok.mp h]
    | places =>
      have ⟨rs, _, h⟩ := bind_eq_ok.mp h
      rw [← pure_eq_ok.mp h]
    | activities =>
      have ⟨rs, _, h⟩ := bind_eq_ok.mp h
      rw [← pure_eq_ok.mp h]
    | taxonomy => rw [← pure_eq_ok.mp h]

theorem readDataset_manifestRaw {dir : Directory} {l l' : Loading} {name : DatasetName}
    (h : readDataset dir l name = .ok l') : l'.snap.manifestRaw = l.snap.manifestRaw := by
  unfold readDataset at h
  rw [bind_eq_ok] at h
  have ⟨info, _, h⟩ := h
  rw [bind_eq_ok] at h
  have ⟨d, _, h⟩ := h
  rw [seq_eq_ok, bind_eq_ok] at h
  have ⟨_, s, hs, h⟩ := h
  rw [← pure_eq_ok.mp h]
  exact acceptDataset_manifestRaw hs

theorem finishLoad_some {dir : Directory} {l : Loading} {snap : Snapshot}
    (h : finishLoad dir l = .ok snap) : { l.snap with version := sha256Sum l.manifestRaw } = snap := by
  unfold finishLoad at h
  cases hread : readSnapshotFile dir .manifest manifestByteCap with
  | error =>
    rw [hread] at h
    cases h
  | ok =>
    rw [hread] at h
    simp only [ok_bind, seq_eq_ok, pure_eq_ok] at h
    exact h.2

/-! ### A load of one export -/

variable {es : List Export} {e e' : Export}

/-- A load that has read the manifest of an export and some of its datasets. -/
def HasRead (e : Export) (done : List DatasetName) (l : Loading) : Prop :=
  ∃ now l₀, startLoad now [] e.files = .ok (some l₀) ∧ done.foldlM (readDataset e.files) l₀ = .ok l

theorem hasRead_frame {done : List DatasetName} {l : Loading} (h : HasRead e done l) :
    l.manifestRaw = e.manifest ∧ l.manifest = e.manifestDoc ∧ l.snap.manifestRaw = e.manifest := by
  have ⟨now, l₀, hstart, hloop⟩ := h
  have ⟨hraw, hdecode, hsnap, _⟩ := startLoad_some hstart
  have hmanifest : l₀.manifestRaw = e.manifest := (Option.some.inj hraw).symm
  rw [hmanifest, decodeManifest_manifest] at hdecode
  have hframe : ∀ {names : List DatasetName} {l₁ l₂ : Loading},
      names.foldlM (readDataset e.files) l₁ = .ok l₂ → l₂.manifestRaw = l₁.manifestRaw ∧
        l₂.manifest = l₁.manifest ∧ l₂.snap.manifestRaw = l₁.snap.manifestRaw := by
    intro names
    induction names with
    | nil =>
      intro l₁ l₂ h
      rw [← pure_eq_ok.mp h]
      exact ⟨rfl, rfl, rfl⟩
    | cons name names ih =>
      intro l₁ l₂ h
      rw [List.foldlM_cons, bind_eq_ok] at h
      have ⟨l₃, hfirst, hrest⟩ := h
      have ⟨hone, htwo, hthree⟩ := ih hrest
      have hread := readDataset_frame hfirst
      exact ⟨hone.trans hread.1, htwo.trans hread.2, hthree.trans (readDataset_manifestRaw hfirst)⟩
  have ⟨hone, htwo, hthree⟩ := hframe hloop
  exact ⟨hone.trans hmanifest, htwo.trans hdecode.2.symm, hthree.trans (hsnap.trans hmanifest)⟩

theorem HasRead.next {done : List DatasetName} {name : DatasetName} {l l' : Loading}
    (h : HasRead e done l) (hread : readDataset e.files l name = .ok l') :
    HasRead e (done ++ [name]) l' := by
  have ⟨now, l₀, hstart, hloop⟩ := h
  refine ⟨now, l₀, hstart, ?_⟩
  rw [List.foldlM_append, hloop, ok_bind, List.foldlM_cons, hread]
  rfl

theorem snapshotOf_hasRead {l : Loading} (h : HasRead e datasetNames l) :
    SnapshotOf e { l.snap with version := sha256Sum e.manifest } := by
  have hframe := hasRead_frame h
  have ⟨now, l₀, hstart, hloop⟩ := h
  have hread : readSnapshotFile e.files .manifest manifestByteCap = .ok e.manifest := by
    unfold startLoad at hstart
    rw [bind_eq_ok] at hstart
    have ⟨raw, hread, _⟩ := hstart
    have hraw : e.manifest = raw := Option.some.inj (readSnapshotFile_some hread)
    rw [hread, hraw]
  refine ⟨now, ?_⟩
  unfold load
  rw [hstart, ok_bind]
  simp only [hloop, ok_bind, finishLoad, hread, hframe.1, beq_self_eq_true, need_true]
  rfl

theorem load_some {now : Nat} {last : Text} {dir : Directory} {snap : Snapshot}
    (h : load now last dir = .ok (some snap)) : ∃ l₀ l, startLoad now last dir = .ok (some l₀) ∧
      datasetNames.foldlM (readDataset dir) l₀ = .ok l ∧ finishLoad dir l = .ok snap := by
  unfold load at h
  rw [bind_eq_ok] at h
  have ⟨first, hstart, h⟩ := h
  cases first with
  | none => cases h
  | some l₀ =>
    simp only [bind_eq_ok] at h
    have ⟨l, hloop, snap', hfinish, heq⟩ := h
    rw [Option.some.inj (pure_eq_ok.mp heq)] at hfinish
    exact ⟨l₀, l, hstart, hloop, hfinish⟩

theorem manifestRaw_snapshotOf {snap : Snapshot} (h : SnapshotOf e snap) :
    snap.manifestRaw = e.manifest ∧ snap.version = sha256Sum e.manifest := by
  have ⟨now, hload⟩ := h
  have ⟨l₀, l, hstart, hloop, hfinish⟩ := load_some hload
  have hread : HasRead e datasetNames l := ⟨now, l₀, hstart, hloop⟩
  rw [← finishLoad_some hfinish]
  exact ⟨(hasRead_frame hread).2.2, congrArg sha256Sum (hasRead_frame hread).1⟩

/-- The digests of a manifest can be read off it. -/
theorem digest_of_manifestFile {generated generated' site site' : Text}
    {counts counts' : DatasetName → Nat} {digest digest' : DatasetName → Text}
    {licenses licenses' : List (Text × Text)} {truncated truncated' : Bool}
    (h : manifestFile generated site counts digest licenses truncated =
      manifestFile generated' site' counts' digest' licenses' truncated') : digest = digest' := by
  simp only [manifestFile, datasetInfoJson, Json.object.injEq, List.cons.injEq, Prod.mk.injEq,
    Json.string.injEq] at h
  funext name
  cases name <;> simp only [h]

theorem files_eq (hsha : NoCollision es) (he : e ∈ es) (he' : e' ∈ es) (h : e.manifest = e'.manifest) :
    e.files = e'.files := by
  funext f
  cases f with
  | manifest => exact congrArg some h
  | dataset name =>
    exact congrArg some (hsha e he e' he' (.dataset name) (.dataset name) _ _ rfl rfl
      (congrFun (digest_of_manifestFile h) name))

/-! ### Whole runs -/

/-- Every file is of a started export, a load in progress is of one export, and so is what is served. -/
structure Inv (es : List Export) (w : World) : Prop where
  dir : ∀ f d, w.dir f = some d → ∃ e ∈ es, e.files f = some d
  publishers : ∀ p ∈ w.publishers, p.snapshot ∈ es
  reading : ∀ l todo, w.loader.reading = some (l, todo) →
    ∃ e ∈ es, ∃ done, done ++ todo = datasetNames ∧ HasRead e done l
  current : ∀ snap, w.loader.current = some snap → ∃ e ∈ es, SnapshotOf e snap
  digest : w.loader.lastManifestDigest ≠ [] →
    ∃ snap, w.loader.current = some snap ∧ snap.version = w.loader.lastManifestDigest

variable {w : World}

theorem inv_emptyWorld (es : List Export) : Inv es emptyWorld where
  dir _ _ h := by cases h
  publishers _ h := by cases h
  reading _ _ h := by cases h
  current _ h := by cases h
  digest h := absurd rfl h

theorem Inv.setReading (hinv : Inv es w) {reading : Option (Loading × List DatasetName)}
    (h : ∀ l todo, reading = some (l, todo) →
      ∃ e ∈ es, ∃ done, done ++ todo = datasetNames ∧ HasRead e done l) :
    Inv es { w with loader := { w.loader with reading := reading } } :=
  ⟨hinv.dir, hinv.publishers, h, hinv.current, hinv.digest⟩

theorem Inv.stopReading (hinv : Inv es w) :
    Inv es { w with loader := { w.loader with reading := none } } :=
  hinv.setReading fun l todo h => by cases h

theorem inv_replace (hinv : Inv es w) (i : Nat) : Inv es (w.replace i) := by
  unfold World.replace
  split
  · next e f left hget =>
    have he : e ∈ es := hinv.publishers _ (List.mem_of_getElem? hget)
    refine ⟨fun g d hd => ?_, fun p hp => ?_, hinv.reading, hinv.current, hinv.digest⟩
    · by_cases hfile : g = f
      · refine ⟨e, he, ?_⟩
        rw [hfile] at hd ⊢
        rw [← hd]
        exact (Function.update_self f (e.files f) w.dir).symm
      · refine hinv.dir g d ?_
        rw [← hd]
        exact (Function.update_of_ne hfile (e.files f) w.dir).symm
    · rcases List.mem_or_eq_of_mem_set hp with hold | hnew
      · exact hinv.publishers p hold
      · exact hnew ▸ he
  · exact hinv

theorem inv_beginLoad (hinv : Inv es w) (now : Nat) :
    Inv es { w with loader := w.loader.beginLoad w.dir now } := by
  unfold Loader.beginLoad
  split
  · exact hinv
  · split
    · next l hstart =>
      refine hinv.setReading fun l' todo h => ?_
      have ⟨hl, htodo⟩ := Prod.mk.inj (Option.some.inj h)
      have ⟨e, he, hfile⟩ := hinv.dir .manifest l.manifestRaw (startLoad_some hstart).1
      have hsame : w.dir .manifest = e.files .manifest := (startLoad_some hstart).1.trans hfile.symm
      refine ⟨e, he, [], htodo.symm, now, l, ?_, hl ▸ rfl⟩
      exact startLoad_congr hsame (sha256Sum_ne_nil _) hstart
    · exact hinv

theorem dataset_eq (hsha : NoCollision es) (hinv : Inv es w) (he : e ∈ es) {done : List DatasetName}
    {l l' : Loading} {name : DatasetName} (hread : HasRead e done l)
    (h : readDataset w.dir l name = .ok l') : w.dir (.dataset name) = e.files (.dataset name) := by
  have ⟨info, d, hinfo, hfile, hdigest⟩ := readDataset_some h
  rw [(hasRead_frame hread).2.1, info?_manifestDoc, Option.some_inj] at hinfo
  have ⟨e', he', hd⟩ := hinv.dir _ _ hfile
  have heq : d = e.file name := hsha e' he' e he _ (.dataset name) _ _ hd rfl (by rw [hdigest, ← hinfo])
  rw [hfile, heq]
  rfl

theorem inv_readNext (hsha : NoCollision es) (hinv : Inv es w) :
    Inv es { w with loader := w.loader.readNext w.dir } := by
  unfold Loader.readNext
  split
  · next l name todo hreading =>
    cases hnext : readDataset w.dir l name with
    | error => exact hinv.stopReading
    | ok =>
      have ⟨e, he, done, hnames, hread⟩ := hinv.reading l (name :: todo) hreading
      refine hinv.setReading fun l₁ todo₁ h => ?_
      have ⟨hl, htodo⟩ := Prod.mk.inj (Option.some.inj h)
      have hsame := dataset_eq hsha hinv he hread hnext
      rw [readDataset_congr hsame] at hnext
      refine ⟨e, he, done ++ [name], ?_, hl ▸ hread.next hnext⟩
      rw [← htodo, List.append_assoc]
      exact hnames
  · exact hinv

theorem inv_finish (hinv : Inv es w) : Inv es { w with loader := w.loader.finish w.dir } := by
  unfold Loader.finish
  split
  · next l hreading =>
    have ⟨e, he, done, hnames, hread⟩ := hinv.reading l [] hreading
    rw [List.append_nil] at hnames
    cases hfinish : finishLoad w.dir l with
    | error => exact hinv.stopReading
    | ok snap =>
      unfold Loader.store
      dsimp only
      split
      · exact hinv.stopReading
      · refine ⟨hinv.dir, hinv.publishers, fun _ _ h => (by cases h), fun s hs => ?_,
          fun _ => ⟨snap, rfl, rfl⟩⟩
        refine ⟨e, he, ?_⟩
        rw [← Option.some.inj hs, ← finishLoad_some hfinish, (hasRead_frame hread).1]
        exact snapshotOf_hasRead (hnames ▸ hread)
  · exact hinv

theorem inv_step (hsha : NoCollision es) {a : Action} (hstart : ∀ e, a = .start e → e ∈ es)
    (hinv : Inv es w) : Inv es (step w a) := by
  cases a with
  | start e =>
    refine ⟨hinv.dir, fun p hp => ?_, hinv.reading, hinv.current, hinv.digest⟩
    rcases List.mem_append.mp hp with hold | hnew
    · exact hinv.publishers p hold
    · rw [List.mem_singleton.mp hnew]
      exact hstart e rfl
  | replace i => exact inv_replace hinv i
  | beginLoad now => exact inv_beginLoad hinv now
  | readNext => exact inv_readNext hsha hinv
  | finish => exact inv_finish hinv
  | fail => exact hinv.stopReading

theorem mem_started {acts : List Action} : e ∈ started acts ↔ Action.start e ∈ acts := by
  unfold started
  rw [List.mem_filterMap]
  constructor
  · intro ⟨a, ha, h⟩
    cases a with
    | start => exact Option.some.inj h ▸ ha
    | replace | beginLoad | readNext | finish | fail => cases h
  · intro h
    exact ⟨.start e, h, rfl⟩

theorem inv_run {acts : List Action} (hsha : NoCollision es) (hstart : ∀ e, .start e ∈ acts → e ∈ es) :
    Inv es (run acts) := by
  refine Machine.run_guarded (fun _ a => ∀ e, a = .start e → e ∈ es)
    (fun w a hinv hguard => inv_step hsha hguard hinv) (inv_emptyWorld es) fun p hp e heq => ?_
  have ⟨before, after, hacts, _⟩ := (Machine.mem_steps step).mp hp
  exact hstart e (hacts ▸ List.mem_append_right before (heq ▸ List.mem_cons_self))

theorem served_step {a : Action} (h : (step w a).loader.current ≠ w.loader.current) :
    a = .finish ∧ ∃ l snap, w.loader.reading = some (l, []) ∧ finishLoad w.dir l = .ok snap ∧
      (step w a).loader.current = some snap := by
  cases a with
  | start => exact absurd rfl h
  | replace i =>
    refine absurd ?_ h
    show (w.replace i).loader.current = _
    unfold World.replace
    split <;> rfl
  | beginLoad now =>
    refine absurd ?_ h
    show (w.loader.beginLoad w.dir now).current = _
    unfold Loader.beginLoad
    split
    · rfl
    · split <;> rfl
  | readNext =>
    refine absurd ?_ h
    show (w.loader.readNext w.dir).current = _
    unfold Loader.readNext
    split
    · next l name todo hreading =>
      cases readDataset w.dir l name <;> rfl
    · rfl
  | finish =>
    refine ⟨rfl, ?_⟩
    have hstep : (step w .finish).loader = w.loader.finish w.dir := rfl
    rw [hstep] at h ⊢
    unfold Loader.finish at h ⊢
    split at h
    · next l hreading =>
      cases hfinish : finishLoad w.dir l with
      | error =>
        rw [hfinish] at h
        exact absurd rfl h
      | ok snap =>
        rw [hfinish] at h
        refine ⟨l, snap, hreading, hfinish, ?_⟩
        unfold Loader.store at h ⊢
        dsimp only at h ⊢
        split
        · next heq =>
          rw [if_pos heq] at h
          exact absurd rfl h
        · rfl
    · exact absurd rfl h
  | fail => exact absurd rfl h

/-! ### The next load -/

/-- One call of `CheckReload` whose reads do not fail, with no replacement in between. -/
def loadAttempt (now : Nat) : List Action :=
  .beginLoad now :: (List.replicate datasetNames.length .readNext ++ [.finish])

theorem run_readNext {todo : List DatasetName} {l l' : Loading}
    (hreading : w.loader.reading = some (l, todo))
    (hloop : todo.foldlM (readDataset w.dir) l = .ok l') :
    Machine.run step w (List.replicate todo.length .readNext) =
      { w with loader := { w.loader with reading := some (l', []) } } := by
  induction todo generalizing w l with
  | nil =>
    rw [← pure_eq_ok.mp hloop, ← hreading]
    rfl
  | cons name todo ih =>
    rw [List.foldlM_cons, bind_eq_ok] at hloop
    have ⟨l₁, hread, hrest⟩ := hloop
    have hstep : step w .readNext =
        { w with loader := { w.loader with reading := some (l₁, todo) } } := by
      show { w with loader := w.loader.readNext w.dir } = _
      unfold Loader.readNext
      rw [hreading]
      show { w with loader := w.loader.goOn todo (readDataset w.dir l name) } = _
      rw [hread]
      rfl
    rw [List.length_cons, List.replicate_succ, Machine.run_cons, hstep]
    exact ih rfl hrest

theorem run_idle (hidle : w.loader.reading = none) (n : Nat) :
    Machine.run step w (List.replicate n .readNext ++ [.finish]) = w := by
  induction n with
  | zero =>
    show { w with loader := w.loader.finish w.dir } = w
    unfold Loader.finish
    rw [hidle]
  | succ n ih =>
    have hstep : step w .readNext = w := by
      show { w with loader := w.loader.readNext w.dir } = w
      unfold Loader.readNext
      rw [hidle]
    rw [List.replicate_succ, List.cons_append, Machine.run_cons, hstep]
    exact ih

theorem attempt_serves (hsha : NoCollision es) (hinv : Inv es w) (he : e ∈ es) (hdir : w.dir = e.files)
    (hidle : w.loader.reading = none) {now : Nat}
    (haccept : ∃ snap, load now [] e.files = .ok (some snap)) :
    ∃ snap, (Machine.run step w (loadAttempt now)).loader.current = some snap ∧ SnapshotOf e snap := by
  by_cases hlast : sha256Sum e.manifest = w.loader.lastManifestDigest
  · -- Its snapshot is served already.
    have hstep : step w (.beginLoad now) = w := by
      show { w with loader := w.loader.beginLoad w.dir now } = w
      unfold Loader.beginLoad
      rw [hidle]
      dsimp only
      split
      · next l hstart =>
        have ⟨hraw, _, _, hne⟩ := startLoad_some hstart
        rw [hdir] at hraw
        rw [← Option.some.inj hraw] at hne
        exact absurd hlast hne
      · rfl
    have ⟨snap, hcurrent, hversion⟩ := hinv.digest (hlast ▸ sha256Sum_ne_nil _)
    have ⟨e', he', hsnap⟩ := hinv.current snap hcurrent
    refine ⟨snap, ?_, ?_⟩
    · rw [loadAttempt, Machine.run_cons, hstep, run_idle hidle]
      exact hcurrent
    · have hdigest : sha256Sum e'.manifest = sha256Sum e.manifest := by
        rw [hlast, ← hversion]
        exact (manifestRaw_snapshotOf hsnap).2.symm
      have hmanifest := hsha e' he' e he .manifest .manifest _ _ rfl rfl hdigest
      have ⟨now', hload⟩ := hsnap
      exact ⟨now', files_eq hsha he' he hmanifest ▸ hload⟩
  · have ⟨snap, hload⟩ := haccept
    have ⟨l₀, l, hstart, hloop, hfinish⟩ := load_some hload
    have hraw : l₀.manifestRaw = e.manifest := (Option.some.inj (startLoad_some hstart).1).symm
    have hbegin : step w (.beginLoad now) =
        { w with loader := { w.loader with reading := some (l₀, datasetNames) } } := by
      show { w with loader := w.loader.beginLoad w.dir now } = _
      unfold Loader.beginLoad
      rw [hidle]
      dsimp only
      rw [hdir, startLoad_congr rfl (hraw ▸ hlast) hstart]
    have hreads := @run_readNext
      { w with loader := { w.loader with reading := some (l₀, datasetNames) } } _ l₀ l rfl (hdir ▸ hloop)
    refine ⟨snap, ?_, now, hload⟩
    rw [loadAttempt, Machine.run_cons, hbegin, Machine.run_append, hreads]
    show (Loader.finish ⟨w.loader.current, w.loader.lastManifestDigest, some (l, [])⟩ w.dir).current = _
    unfold Loader.finish
    dsimp only
    rw [hdir, hfinish]
    have hnew : snap.version ≠ w.loader.lastManifestDigest := by
      rw [(manifestRaw_snapshotOf ⟨now, hload⟩).2]
      exact hlast
    exact congrArg Loader.current (if_neg hnew)

/-! ### An export that nothing interrupts -/

/-- An export in progress, and its files in their places. -/
def InPlace (e : Export) (i : Nat) (w : World) : Prop :=
  ∃ done left, w.publishers[i]? = some ⟨e, left⟩ ∧ done ++ left = writeOrder ∧
    ∀ f ∈ done, w.dir f = e.files f

theorem inPlace_step {i : Nat} {a : Action} (h : InPlace e i w) (hother : ∀ j, a = .replace j → j = i) :
    InPlace e i (step w a) := by
  have ⟨done, left, hget, horder, hfiles⟩ := h
  cases a with
  | start =>
    have hlt := (List.getElem?_eq_some_iff.mp hget).1
    exact ⟨done, left, (List.getElem?_append_left hlt).trans hget, horder, hfiles⟩
  | replace j =>
    rw [hother j rfl]
    show InPlace e i (w.replace i)
    unfold World.replace
    rw [hget]
    cases left with
    | nil => exact h
    | cons f left =>
      have hlt := (List.getElem?_eq_some_iff.mp hget).1
      refine ⟨done ++ [f], left, List.getElem?_set_self hlt, ?_, fun g hg => ?_⟩
      · rw [List.append_assoc]
        exact horder
      · by_cases hfile : g = f
        · rw [hfile]
          exact Function.update_self f (e.files f) w.dir
        · have hdone : g ∈ done := (List.mem_append.mp hg).resolve_right fun hlast =>
            hfile (List.mem_singleton.mp hlast)
          exact (Function.update_of_ne hfile (e.files f) w.dir).trans (hfiles g hdone)
  | beginLoad | readNext | finish | fail => exact h

theorem dir_of_completed {during : List Action} {i : Nat}
    (hfirst : w.publishers[i]? = some ⟨e, writeOrder⟩) (hother : ∀ j, .replace j ∈ during → j = i)
    (hlast : (Machine.run step w during).publishers[i]? = some ⟨e, []⟩) :
    (Machine.run step w during).dir = e.files := by
  have hplace : InPlace e i (Machine.run step w during) :=
    Machine.run_guarded (fun _ a => ∀ j, a = .replace j → j = i) (fun w a h ha => inPlace_step h ha)
      ⟨[], writeOrder, hfirst, rfl, fun f hf => (by cases hf)⟩ fun p hp j heq => by
        have ⟨before, after, hacts, _⟩ := (Machine.mem_steps step).mp hp
        exact hother j (hacts ▸ List.mem_append_right before (heq ▸ List.mem_cons_self))
  have ⟨done, left, hget, horder, hfiles⟩ := hplace
  rw [hlast] at hget
  have hleft : left = [] := (congrArg Publisher.left (Option.some.inj hget)).symm
  rw [hleft, List.append_nil] at horder
  funext f
  refine hfiles f (horder ▸ ?_)
  cases f with
  | manifest => decide
  | dataset name => cases name <;> decide

/-- **No snapshot is mixed.** However exports and loads interleave, and wherever an export stops: what is
served is the snapshot of one export, it changes only when a load ends without an error, and after an
export that completed with no other in between, the next load serves it. -/
theorem published_snapshots {acts : List Action} (hsha : NoCollision (started acts)) :
    (∀ snap, (run acts).loader.current = some snap → ∃ e ∈ started acts, SnapshotOf e snap ∧
      ∀ e' ∈ started acts, SnapshotOf e' snap → e'.files = e.files) ∧
    (∀ p ∈ Machine.steps step emptyWorld acts,
      (step p.1 p.2).loader.current ≠ p.1.loader.current → p.2 = .finish ∧ ∃ l snap,
        p.1.loader.reading = some (l, []) ∧ finishLoad p.1.dir l = .ok snap ∧
          (step p.1 p.2).loader.current = some snap) ∧
    ∀ before during i e now, acts = before ++ during →
      (run before).publishers[i]? = some ⟨e, writeOrder⟩ → (∀ j, .replace j ∈ during → j = i) →
      (run acts).publishers[i]? = some ⟨e, []⟩ → (run acts).loader.reading = none →
      (∃ snap, load now [] e.files = .ok (some snap)) →
      ∃ snap, (Machine.run step (run acts) (loadAttempt now)).loader.current = some snap ∧
        SnapshotOf e snap := by
  have hinv : Inv (started acts) (run acts) := inv_run hsha fun e he => mem_started.mpr he
  refine ⟨fun snap hcurrent => ?_, fun p _ h => served_step h, ?_⟩
  · have ⟨e, he, hsnap⟩ := hinv.current snap hcurrent
    refine ⟨e, he, hsnap, fun e' he' hsnap' => files_eq hsha he' he ?_⟩
    exact (manifestRaw_snapshotOf hsnap').1.symm.trans (manifestRaw_snapshotOf hsnap).1
  · intro before during i e now hacts hfirst hother hlast hidle haccept
    have hrun : run acts = Machine.run step (run before) during :=
      hacts ▸ Machine.run_append step emptyWorld before during
    have hmem : e ∈ started acts := hinv.publishers _ (List.mem_of_getElem? hlast)
    have hdir : (run acts).dir = e.files :=
      hrun ▸ dir_of_completed hfirst hother (hrun ▸ hlast)
    exact attempt_serves hsha hinv hmem hdir hidle haccept

/-- The export of a category alone, at noon or some seconds later. -/
def categoryExport (seconds : Nat) : Export := exportAgentSnapshot (feedEnv seconds) categoryDatabase

theorem formatStamp_feedEnv_one :
    formatStamp (feedEnv 1).now = "2026-01-01T12:00:01.000000Z".toList := by decide +kernel

theorem categoryExport_accepted {seconds : Nat} (h : seconds = 0 ∨ seconds = 1) :
    ∃ snap, load 63902865600000000 [] (categoryExport seconds).files = .ok (some snap) := by
  have hfits : RowsFit 63902865600000000 (feedEnv seconds).now (jobsView (feedEnv seconds))
      categoryDatabase := by
    rcases h with rfl | rfl
    · exact rowsFit_category formatStamp_feedEnv rfl (by decide +kernel) (by decide +kernel)
        (by decide +kernel) (by decide +kernel)
    · exact rowsFit_category formatStamp_feedEnv_one rfl (by decide +kernel) (by decide +kernel)
        (by decide +kernel) (by decide +kernel)
  unfold categoryExport
  rw [exportAgentSnapshot_eq]
  exact (export_served_iff (sha256Sum_ne_nil _)).mpr hfits

theorem noCollision_of_nodup {ds : List GoJson} (hdigests : (ds.map sha256Sum).Nodup)
    (hfiles : ∀ e ∈ es, ∀ f d, e.files f = some d → d ∈ ds) : NoCollision es :=
  fun e he e' he' f f' d d' hd hd' hsha =>
    List.inj_on_of_nodup_map hdigests (hfiles e he f d hd) (hfiles e' he' f' d' hd') hsha

theorem noCollision_categoryExport : NoCollision [categoryExport 0] := by
  -- Of the five files, the three without records are the same.
  have hdigests : ([(categoryExport 0).file .events, (categoryExport 0).file .taxonomy,
      (categoryExport 0).manifest].map sha256Sum).Nodup := by decide +kernel
  refine noCollision_of_nodup hdigests fun e he f d h => ?_
  rw [List.mem_singleton.mp he] at h
  cases f with
  | manifest => simp [← Option.some.inj h]
  | dataset name =>
    have hfile : d = (categoryExport 0).file name := (Option.some.inj h).symm
    rw [hfile]
    cases name with
    | events | places | activities => exact List.mem_cons_self
    | taxonomy => exact List.mem_cons_of_mem _ List.mem_cons_self

theorem published_category : ∃ snap,
    (Machine.run step (run (.start (categoryExport 0) :: List.replicate 5 (.replace 0)))
      (loadAttempt 63902865600000000)).loader.current = some snap ∧ SnapshotOf (categoryExport 0) snap :=
  (@published_snapshots (.start (categoryExport 0) :: List.replicate 5 (.replace 0))
    noCollision_categoryExport).2.2 [.start (categoryExport 0)] (List.replicate 5 (.replace 0)) 0
      (categoryExport 0) 63902865600000000 rfl rfl (by simp) rfl rfl (categoryExport_accepted (Or.inl rfl))

/-- Two exports, of which the second completes between two replacements of the first. -/
def overlap : List Action :=
  [.start (categoryExport 0), .start (categoryExport 1), .replace 0] ++ List.replicate 5 (.replace 1) ++
    List.replicate 4 (.replace 0)

/-- Both exports of `overlap` complete and would be accepted, and the next load serves neither. -/
theorem overlap_rejected :
    (run overlap).publishers = [⟨categoryExport 0, []⟩, ⟨categoryExport 1, []⟩] ∧
    (∃ snap, load 63902865600000000 [] (categoryExport 0).files = .ok (some snap)) ∧
    (∃ snap, load 63902865600000000 [] (categoryExport 1).files = .ok (some snap)) ∧
    (Machine.run step (run overlap) (loadAttempt 63902865600000000)).loader.current = none := by
  refine ⟨rfl, categoryExport_accepted (Or.inl rfl), categoryExport_accepted (Or.inr rfl), ?_⟩
  exact Option.isNone_iff_eq_none.mp (by decide +kernel)

end SocialActivities.Snapshots
