import Nodepool.Builder.BuildInvariant
import Nodepool.Builder.CleanupFootprint

/-!
What cleanup workers, upload workers and users do to builds: they mark and remove only builds
that no worker is building.

A cleanup worker has either read a build that is not BUILDING, or has had the lock of the image
since the build was begun.
-/

namespace Nodepool

open Effect Method

namespace BuildSystem

open BuildWorld

variable {clocked : Prop} {old : List ReadyBuild} {w w' : BuildWorld} {i : BuildThread}
  {key : String × String}

/-- The steps that are allowed in a run, if the clocks are in step. -/
def Allowed (clocked : Prop) (w : BuildWorld) (e : Event buildSystem) : Prop :=
  clocked → InStep w e

abbrev context (clocked : Prop) (old : List ReadyBuild) (i : BuildThread) :
    Context BuilderSig BuildWorld :=
  buildSystem.context (Allowed clocked) (Inv clocked old) (Rely i) (Req clocked i) i

/-- The context of a method that makes only calls which several workers make. -/
abbrev sharedContext (clocked : Prop) (old : List ReadyBuild) (i : BuildThread) :
    Context LauncherSig BuildWorld :=
  (context clocked old i).comap sharedCalls

theorem mem_sharedNext {c : Call} {r : LauncherSig.Reply c}
    (h : (sharedContext clocked old i).step w c r w') : w' ∈ w.sharedNext i c r := by
  obtain ⟨_, rfl, h, -⟩ := h
  exact h

/-! ### What lasts -/

theorem lasting_unbuilt : Lasting (sharedContext clocked old i) (Unbuilt key) where
  rely h hr _ := h.rely hr
  step h _ _ hs _ := h.stepped (sharedNext_stepped (mem_sharedNext hs))

theorem lasting_files : Lasting (sharedContext clocked old i) fun w => key ∈ w.files where
  rely h hr _ := hr.files _ h
  step h _ _ hs _ := files_stepped (sharedNext_stepped (mem_sharedNext hs)) _ h

/-- What is known of a build that has been read: its id is taken, and if it was not BUILDING,
then no worker is building it. -/
def Known (image : String) (build : BuildRecord) (w : BuildWorld) : Prop :=
  build.id ∈ w.used ∧ (build.state ≠ .building → Unbuilt (image, build.id) w)

theorem lasting_known {image : String} {build : BuildRecord} :
    Lasting (sharedContext clocked old i) (Known image build) where
  rely h hr _ := ⟨hr.used _ h.1, fun state => (h.2 state).rely hr⟩
  step h _ _ hs _ :=
    have hs := sharedNext_stepped (mem_sharedNext hs)
    ⟨(fresh_stepped hs).1 _ h.1, fun state => (h.2 state).stepped hs⟩

/-- The calls that mark or remove no build but the given one. -/
def About (key : String × String) : Call → Prop
  | .setBuildRecord image build => (image, build.id) = key ∧ build.state = .deleting
  | .deleteBuildTree image id | .deleteLocalBuild image id | .removeLocalImage image id _ =>
      (image, id) = key
  | _ => True

/-- The calls that mark or remove no build. -/
def Quiet : Call → Prop
  | .setBuildRecord _ _ | .deleteBuildTree _ _ | .deleteLocalBuild _ _
  | .removeLocalImage _ _ _ => False
  | _ => True

theorem about_of_quiet {c : Call} (hc : Quiet c) : About key c := by
  unfold About
  split
  · exact hc.elim
  · exact hc.elim
  · exact hc.elim
  · exact hc.elim
  · trivial

theorem req_of_about {c : Call} (hc : About key c) (h : Unbuilt key w) :
    Req clocked i w (.shared c) := by
  unfold About at hc
  split at hc
  · exact .inl ⟨hc.2, hc.1 ▸ h⟩
  · obtain rfl := hc
    exact h
  · obtain rfl := hc
    exact h.spared
  · obtain rfl := hc
    exact h.spared
  · unfold Req
    split
    all_goals first | trivial | simp_all

theorem req_of_quiet {c : Call} (hc : Quiet c) : Req clocked i w (.shared c) := by
  unfold Req
  split
  all_goals first | trivial | simp_all [Quiet]

theorem stable_about : Stable (sharedContext clocked old i) (About key) (Unbuilt key) where
  rely h hr hi := lasting_unbuilt.rely h hr hi
  req hc h _ := req_of_about hc h
  step hc h hi hs hi' := lasting_unbuilt.step h hi (req_of_about hc h) hs hi'

/-- The frame of a method that marks and removes no build. -/
theorem stable_quiet {B : BuildWorld → Prop} (h : Lasting (sharedContext clocked old i) B) :
    Stable (sharedContext clocked old i) Quiet B where
  rely := h.rely
  req hc _ _ := req_of_quiet hc
  step hc hB hi hs hi' := h.step hB hi (req_of_quiet hc) hs hi'

theorem lasting_true : Lasting (sharedContext clocked old i) fun _ => True :=
  ⟨fun _ _ _ => trivial, fun _ _ _ _ _ => trivial⟩

/-! ### Methods that mark and remove no build -/

section Quiet

open ZooKeeper BuilderCleanup

variable {σ α : Type} {config : BuilderConfig} {image buildId provider : String}

def IsQuiet (m : LauncherM σ α) : Prop := Within Quiet (fun s : σ => s) m

theorem quiet_call {c : Call} (hc : Quiet c) : IsQuiet (call (σ := σ) c) := .perform hc

theorem IsQuiet.wp {m : LauncherM σ α} (h : IsQuiet m) {B : BuildWorld → Prop}
    (lasting : Lasting (sharedContext clocked old i) B) {s : σ} (hB : B w) :
    m.wp (sharedContext clocked old i) (fun _ _ => B) (fun _ _ => B) s w :=
  wp_mono (Within.wp h (stable_quiet lasting) hB) (fun _ _ _ h => h.2) fun _ _ _ h => h.2

theorem getUploadRecords_quiet {states : Option (List UploadState)} :
    IsQuiet (σ := σ) (getUploadRecords image buildId provider states) := by
  refine .bind (quiet_call (c := .getUploadNumbers _ _ _) trivial) fun numbers =>
    .gather (fun number => ?_) numbers
  exact .bind (quiet_call (c := .getUploadRecord _) trivial) fun _ => .pure

theorem getMostRecentUploads_quiet {count : Nat} {state : UploadState} :
    IsQuiet (σ := σ) (getMostRecentUploads count image buildId provider state) :=
  .bind getUploadRecords_quiet fun _ => .pure

theorem getBuilds_quiet {states : Option (List BuildState)} :
    IsQuiet (σ := σ) (getBuilds image states) :=
  .bind (quiet_call (c := .getBuildIds _) trivial) fun ids => .gather (fun _ =>
    .bind (quiet_call (c := .getBuildRecord _ _) trivial) fun _ => .pure) ids

theorem hasUploads_quiet {providers : List String} :
    IsQuiet (σ := σ) (hasUploads image buildId providers) := by
  induction providers with
  | nil => exact .pure
  | cons provider rest ih =>
      exact .bind (quiet_call (c := .getUploadNumbers _ _ _) trivial) fun _ => .ite .pure ih

theorem buildUploadRecencyTable_quiet : IsQuiet (σ := σ) buildUploadRecencyTable := by
  have uploads : ∀ image buildId table provider,
      IsQuiet (σ := σ) (addUploads image buildId table provider) :=
    fun _ _ _ _ => .bind getMostRecentUploads_quiet fun _ => .pure
  have build : ∀ image table build, IsQuiet (σ := σ) (addBuild image table build) :=
    fun _ table _ => .bind (quiet_call (c := .getBuildProviders _ _) trivial) fun providers =>
      .fold (fun _ _ => uploads _ _ _ _) providers table
  have image : ∀ table image, IsQuiet (σ := σ) (addImage table image) :=
    fun _ _ => .bind getBuilds_quiet fun builds => .bind
      (.fold (fun _ _ => build _ _ _) (builds.filterMap id) ∅) fun _ => .pure
  exact .bind (quiet_call (c := .getImageNames) trivial) fun images =>
    .bind (.fold (fun _ _ => image _ _) images ∅) fun _ => .pure

theorem isRecentUpload_quiet {table : RecencyTable} {path : UploadPath} :
    IsQuiet (σ := σ) (isRecentUpload table path) := by
  unfold isRecentUpload
  split
  · exact .throw
  · exact .pure

theorem deleteUpload_quiet {path : UploadPath} : IsQuiet (σ := σ) (ZooKeeper.deleteUpload path) :=
  .tryCatch (quiet_call (c := .deleteUploadTree _) trivial) fun _ => .ite .pure .throw

theorem inProgressUpload_quiet {upload : UploadRecord} :
    IsQuiet (σ := σ) (inProgressUpload upload) :=
  .ite .pure (exceptLock_within (withLock_within
    (quiet_call (c := .acquireUploadLock _ _ _) trivial)
    (quiet_call (c := .releaseUploadLock _ _ _) trivial) .pure) .pure)

theorem imageUploadNumberLock_quiet {path : UploadPath} {body : LauncherM σ α}
    (h : IsQuiet body) : IsQuiet (imageUploadNumberLock path body) :=
  withLock_within (quiet_call (c := .acquireNumberLock _) trivial)
    (quiet_call (c := .releaseNumberLock _) trivial) h

theorem removeUpload_quiet {upload : UploadRecord} :
    IsQuiet (σ := σ) (removeUpload config upload) := by
  refine .bind (.ite .pure .throw) fun _ => .bind (.attempt (.ite
    (quiet_call (c := .deleteExternalImage _ _ _) trivial) .pure)) fun deleted => ?_
  cases deleted with
  | error e => exact quiet_call (c := .log _) trivial
  | ok _ =>
      exact exceptLock_within (imageUploadNumberLock_quiet deleteUpload_quiet)
        (quiet_call (c := .log _) trivial)

theorem deleteUploadAndImage_quiet {upload : UploadRecord} :
    IsQuiet (σ := σ) (deleteUploadAndImage config upload) := by
  have mark : IsQuiet (σ := σ) (markUpload upload) :=
    imageUploadNumberLock_quiet (.bind (quiet_call (c := .time) trivial) fun _ =>
      .bind (quiet_call (c := .buildsExist _) trivial) fun _ =>
        .bind (.ite .pure .throw) fun _ => quiet_call (c := .setUploadRecord _) trivial)
  refine .ite removeUpload_quiet (.bind inProgressUpload_quiet fun inProgress =>
    .ite .pure (.bind (.attempt mark) fun marked => ?_))
  split
  · exact quiet_call (c := .log _) trivial
  · exact .throw
  · exact removeUpload_quiet

theorem cleanupCurrentUpload_quiet {upload : UploadRecord} :
    IsQuiet (σ := σ) (cleanupCurrentUpload config upload) := by
  unfold cleanupCurrentUpload
  split
  · refine .bind inProgressUpload_quiet fun inProgress => .ite .pure (.bind
      (quiet_call (c := .getUploadRecord _) trivial) fun stored => ?_)
    split
    · exact quiet_call (c := .log _) trivial
    · exact .ite deleteUpload_quiet .pure
  · exact deleteUploadAndImage_quiet
  · exact deleteUploadAndImage_quiet
  · exact .pure

theorem forEachManaged_quiet {body : BuilderProvider → LauncherM σ Unit}
    (h : ∀ provider, IsQuiet (body provider)) : IsQuiet (forEachManaged config body) :=
  .forEach (fun provider => .ite (.tryCatch (h provider) fun _ =>
    quiet_call (c := .log _) trivial) .pure) config.providers

theorem cleanupProvider_quiet {table : RecencyTable} {provider : BuilderProvider} :
    IsQuiet (σ := σ) (cleanupProvider config table provider image buildId) :=
  .bind getUploadRecords_quiet fun uploads => .forEach (fun _ =>
    .bind isRecentUpload_quiet fun _ => .ite .pure deleteUploadAndImage_quiet) uploads

/-- What `cleanupBuild` does to the uploads of every build. -/
theorem cleanupUploads_quiet {keep : List String} : IsQuiet (σ := σ)
    (forEachManaged config fun provider => do
      cleanupObsoleteProviderUploads config provider image buildId
      when (buildId ∈ keep) (cleanupCurrentProviderUploads config provider.name image buildId)) :=
  forEachManaged_quiet fun _ => .bind (.ite (.bind getUploadRecords_quiet fun uploads =>
    .forEach (fun _ => deleteUploadAndImage_quiet) uploads) .pure) fun _ =>
      .ite (.bind getUploadRecords_quiet fun cruft =>
        .forEach (fun _ => cleanupCurrentUpload_quiet) cruft) .pure

theorem runPostUploadHook_quiet {provider : UploadProvider} {name externalId format : String} :
    IsQuiet (σ := σ) (UploadWorker.runPostUploadHook provider name externalId format) :=
  UploadWorker.runPostUploadHook_within _ trivial trivial trivial

theorem uploadImage_quiet {provider : UploadProvider} {path : UploadPath}
    {images : List String} :
    IsQuiet (UploadWorker.uploadImage .external provider path images) := by
  refine .bind (.ite .pure .throw) fun _ => .bind (.perform trivial) fun _ =>
    .bind (.ite .pure .throw) fun _ => .bind (.attempt (.perform trivial)) fun uploaded => ?_
  cases uploaded with
  | error e => exact .bind (.perform trivial) fun _ => .pure
  | ok externalId => exact runPostUploadHook_quiet

theorem uploadBuild_quiet {provider : UploadProvider} {image : String} {build : ImageBuild}
    {images : List String} :
    IsQuiet (UploadWorker.uploadBuild .external provider image build images) := by
  refine .bind (.perform trivial) fun upload => .ite .pure (.bind (.perform trivial) fun stored =>
    .ite .pure ?_)
  refine .bind (.bind (.perform trivial) fun _ => .bind (.ite .pure .throw) fun _ =>
    .perform trivial) fun number => .bind uploadImage_quiet fun data => ?_
  exact .bind (.bind (.perform trivial) fun _ => .bind (.ite .pure .throw) fun _ =>
    .perform trivial) fun _ => .pure

theorem checkProviderImageUpload_quiet {provider : UploadProvider} {image : String} :
    IsQuiet (UploadWorker.checkProviderImageUpload .external provider image) := by
  have locked (build : ImageBuild) (images : List String) : IsQuiet
      (UploadWorker.tryUploadBuild .external provider image build images) := by
    refine .tryCatch (.bind (.perform trivial) fun _ => .bind (.ite .pure .throw) fun _ =>
      .bind (.attempt uploadBuild_quiet) fun result => .bind (.perform trivial) fun _ => ?_)
      fun _ => .ite .pure .throw
    cases result with
    | ok b => exact .pure
    | error e => exact .throw
  refine .ite .pure (.bind (.perform trivial) fun builds => ?_)
  cases builds with
  | nil => exact .pure
  | cons build rest =>
      exact .bind (.perform trivial) fun images => .ite .pure (.bind (.perform trivial)
        fun upload => .ite .pure (.ite .pure (locked build images)))

end Quiet

/-! ### Cleanup workers and users -/

section Cleanup

open ZooKeeper BuilderCleanup

variable {σ α : Type} {s : σ} {config : BuilderConfig} {image id : String} {build : BuildRecord}

theorem about_call {c : Call} (hc : About key c) :
    Within (About key) (fun s : σ => s) (call (σ := σ) c) := .perform hc

theorem Inv.unbuilt_of_read (h : Inv clocked old w) {data : BuildData}
    (read : w.read key = some data) (state : data.state ≠ .building) : Unbuilt key w :=
  ⟨h.usedBuilds _ (mem_of_read read), fun j found => state (h.running j key found data read)⟩

/-- There are no files of a build before there is a record. -/
theorem Inv.unbuilt_of_files (h : Inv clocked old w) (mem : key ∈ w.files)
    (read : w.read key = none) : Unbuilt key w := by
  refine ⟨h.usedFiles _ mem, fun j found => ?_⟩
  obtain ⟨data, stored⟩ := h.files j key found mem
  cases read.symm.trans stored

theorem Inv.unbuilt_of_free (h : Inv clocked old w) (free : w.lock key.1 = none)
    (used : key.2 ∈ w.used) : Unbuilt key w :=
  ⟨used, fun j found => by cases free.symm.trans (h.locked j key found)⟩

/-- A build that is read. -/
theorem getBuildRecord_wp : (call (.getBuildRecord image id) : LauncherM σ _).wp
    (sharedContext clocked old i)
    (fun read _ w => ∀ build ∈ read, build.id = id ∧ Known image build w)
    (fun _ _ _ => True) s w := by
  refine wp_perform.mpr fun w₁ _ inv => ⟨trivial, fun read w₂ hs _ => ?_, fun _ _ _ _ => trivial⟩
  obtain ⟨rfl, rfl⟩ := of_mem_ite (mem_sharedNext hs)
  rintro build found
  obtain ⟨data, read, rfl⟩ := Option.map_eq_some_iff.mp found
  have step : Stepped i w₁ (.shared (.getBuildRecord image id)) (w₁.look i image) := .look _ _
  refine ⟨rfl, (fresh_stepped step).1 _ (inv.usedBuilds _ (mem_of_read read)), fun state => ?_⟩
  exact (inv.unbuilt_of_read read state).stepped step

theorem getBuilds_wp : (getBuilds image none : LauncherM σ _).wp (sharedContext clocked old i)
    (fun builds _ w => ∀ read ∈ builds, ∀ build ∈ read, Known image build w)
    (fun _ _ _ => True) s w := by
  have lasting (read : Option BuildRecord) : Lasting (sharedContext clocked old i)
      fun w => ∀ build ∈ read, Known image build w :=
    { rely := fun h hr hi build mem => lasting_known.rely (h build mem) hr hi
      step := fun h hi hq hs hi' build mem => lasting_known.step (h build mem) hi hq hs hi' }
  have ids : IsQuiet (call (σ := σ) (.getBuildIds image)) := quiet_call trivial
  refine wp_bind.mpr (wp_mono (ids.wp lasting_true trivial) (fun ids s w _ => ?_)
    fun _ _ _ _ => trivial)
  refine Lasting.wp_gather lasting fun id s w => ?_
  refine wp_bind.mpr (wp_mono getBuildRecord_wp (fun read s w known => ?_) fun _ _ _ h => h)
  intro read' mem
  obtain rfl : read' = read := by simpa using mem
  exact fun build found => (known build found).2

/-- A build that is not in progress is one that no worker is building. -/
theorem inProgressBuild_wp (known : Known image build w) :
    (inProgressBuild image build : LauncherM σ Bool).wp (sharedContext clocked old i)
      (fun inProgress _ w => inProgress = false → Unbuilt (image, build.id) w)
      (fun _ _ _ => True) s w := by
  unfold inProgressBuild
  split
  · rename_i state
    exact fun _ => known.2 state
  · have body : IsQuiet (σ := σ) (do
        let stored ← call (.getBuildRecord image build.id)
        pure (stored.any (·.state ≠ .building))) := .bind (.perform trivial) fun _ => .pure
    refine wp_tryCatch.mpr (wp_mono (E := fun _ _ _ => True) (Q := fun _ _ =>
      Unbuilt (image, build.id)) ?_ (fun _ _ _ h _ => h) fun e s w _ => ?_)
    · refine wp_bind.mpr (wp_perform.mpr fun w₁ hr inv => ⟨trivial, fun acquired w₂ hs _ => ?_,
        fun _ _ _ _ => trivial⟩)
      cases acquired with
      | false => trivial
      | true =>
          obtain ⟨free, rfl⟩ := of_mem_ite (mem_sharedNext hs)
          have unbuilt : Unbuilt (image, build.id) (w₁.acquire i image) :=
            (inv.unbuilt_of_free free (hr.used _ known.1)).stepped (.acquire image free)
          refine wp_mono (IsQuiet.wp (m := _) ?_ lasting_unbuilt unbuilt) (fun _ _ _ h => h)
            fun _ _ _ _ => trivial
          refine .bind (.ite .pure .throw) fun _ => .bind (.attempt body) fun result =>
            .bind (quiet_call (c := .releaseBuildLock _) trivial) fun _ => ?_
          cases result with
          | ok a => exact .pure
          | error e => exact .throw
    · dsimp only
      split
      · exact fun building => absurd building (by decide)
      · trivial

/-- What is done to a build that is not kept is done to a build that no worker is building. -/
theorem cleanupOldBuild_within {table : RecencyTable} :
    Within (About (image, build.id)) (fun s : σ => s)
      (cleanupOldBuild config table image build) := by
  have quiet {α : Type} {m : LauncherM σ α} (h : IsQuiet m) :
      Within (About (image, build.id)) (fun s : σ => s) m := h.mono fun _ => about_of_quiet
  have mark : Within (About (image, build.id)) (fun s : σ => s) (markBuild image build) :=
    withLock_within (quiet (quiet_call (c := .acquireBuildIdLock _ _) trivial))
      (quiet (quiet_call (c := .releaseBuildIdLock _ _) trivial))
      (.bind (quiet (quiet_call (c := .time) trivial)) fun _ =>
        about_call (c := .setBuildRecord _ _) ⟨rfl, rfl⟩)
  have delete : Within (About (image, build.id)) (fun s : σ => s)
      (ZooKeeper.deleteBuild image build.id) :=
    .bind (quiet (quiet_call (c := .getBuildProviders _ _) trivial)) fun _ =>
      .bind (quiet hasUploads_quiet) fun _ => .ite .pure (.bind
        (.tryCatch (about_call (c := .deleteBuildTree _ _) rfl) fun _ => .ite .pure .throw)
        fun _ => .pure)
  refine .bind (quiet (forEachManaged_quiet fun _ => cleanupProvider_quiet)) fun _ =>
    .bind (quiet (quiet_call (c := .getBuildProviders _ _) trivial)) fun providers =>
      .bind (quiet (.gather (fun _ => getUploadRecords_quiet) providers)) fun uploads =>
        .bind (.ite mark .pure) fun _ => .ite (.bind delete fun _ =>
          .ite (quiet (quiet_call (c := .log _) trivial)) .pure) .pure

theorem cleanupOldBuild_wp {table : RecencyTable} (h : Unbuilt (image, build.id) w) :
    (cleanupOldBuild config table image build : LauncherM σ Unit).wp (sharedContext clocked old i)
      (fun _ _ _ => True) (fun _ _ _ => True) s w :=
  wp_mono (cleanupOldBuild_within.wp stable_about h) (fun _ _ _ _ => trivial)
    fun _ _ _ _ => trivial

theorem cleanupBuild_wp {table : RecencyTable} {keep : List String} {read : Option BuildRecord}
    (known : ∀ build ∈ read, Known image build w) :
    (cleanupBuild config table keep image read : LauncherM σ Unit).wp
      (sharedContext clocked old i) (fun _ _ _ => True) (fun _ _ _ => True) s w := by
  cases read with
  | none => trivial
  | some build =>
      refine wp_bind.mpr (wp_mono (cleanupUploads_quiet.wp lasting_known (known build rfl))
        (fun _ s w known => ?_) fun _ _ _ _ => trivial)
      split
      · rename_i state
        exact cleanupOldBuild_wp (known.2 (by simp [state]))
      · split
        · trivial
        · refine wp_bind.mpr (wp_mono (inProgressBuild_wp known) (fun inProgress s w unbuilt => ?_)
            fun _ _ _ h => h)
          cases inProgress with
          | true => trivial
          | false => exact cleanupOldBuild_wp (unbuilt rfl)

theorem cleanupImage_wp {table : RecencyTable} :
    (cleanupImage config table image : LauncherM σ Unit).wp (sharedContext clocked old i)
      (fun _ _ _ => True) (fun _ _ _ => True) s w := by
  refine wp_bind.mpr (wp_mono getBuilds_wp (fun builds s w known => ?_) fun _ _ _ h => h)
  have lasting (read : Option BuildRecord) : Lasting (sharedContext clocked old i)
      fun w => ∀ build ∈ read, Known image build w :=
    { rely := fun h hr hi build mem => lasting_known.rely (h build mem) hr hi
      step := fun h hi hq hs hi' build mem => lasting_known.step (h build mem) hi hq hs hi' }
  have keep : IsQuiet (σ := σ) (buildsToKeep config image builds) := .ite .pure (.ite .throw .pure)
  refine wp_bind.mpr (wp_mono (keep.wp (Lasting.all lasting builds) known)
    (fun keep s w known => ?_) fun _ _ _ _ => trivial)
  exact Lasting.wp_forEach lasting (fun read s w known => cleanupBuild_wp known) known

/-- What is read of a local build; its files may be removed if the record is gone, marked or
READY. -/
theorem getBuildRecord_local_wp (mem : (image, id) ∈ w.files) :
    (call (.getBuildRecord image id) : LauncherM σ _).wp (sharedContext clocked old i)
      (fun read _ w => (∀ build ∈ read, build.state ≠ .building) → Unbuilt (image, id) w)
      (fun _ _ _ => True) s w := by
  refine wp_perform.mpr fun w₁ hr inv => ⟨trivial, fun read w₂ hs _ => ?_, fun _ _ _ _ => trivial⟩
  obtain ⟨rfl, rfl⟩ := of_mem_ite (mem_sharedNext hs)
  intro state
  have step : Stepped i w₁ (.shared (.getBuildRecord image id)) (w₁.look i image) := .look _ _
  refine Unbuilt.stepped ?_ step
  cases stored : w₁.read (image, id) with
  | none => exact inv.unbuilt_of_files (hr.files _ mem) stored
  | some data =>
      refine inv.unbuilt_of_read stored (state (data.record id) ?_)
      rw [BuildWorld.readRecord, stored]
      rfl

theorem pruneLocalBuildFormats_within : Within (About (image, id)) (fun s : σ => s)
    (pruneLocalBuildFormats config image id) := by
  have quiet {α : Type} {m : LauncherM σ α} (h : IsQuiet m) :
      Within (About (image, id)) (fun s : σ => s) m := h.mono fun _ => about_of_quiet
  unfold pruneLocalBuildFormats
  split
  · exact .throw
  · refine .ite (.bind (.gather (fun p => .ite (.bind (quiet getMostRecentUploads_quiet)
      fun _ => .pure) .pure) config.providers) fun toKeep => ?_) .pure
    refine .bind (quiet (quiet_call (c := .localImages _ _) trivial)) fun files =>
      .forEach (fun extension => ?_) files
    exact .ite (about_call (c := .removeLocalImage _ _ _) rfl) .pure

/-- A local build is deleted, or its formats are, only if no worker is building it. -/
theorem cleanupLocalBuild_wp {localBuild : String × String} (mem : localBuild ∈ w.files) :
    (cleanupLocalBuild config localBuild : LauncherM σ Unit).wp (sharedContext clocked old i)
      (fun _ _ _ => True) (fun _ _ _ => True) s w := by
  obtain ⟨image, id⟩ := localBuild
  refine wp_tryCatch.mpr (wp_mono (E := fun _ _ _ => True) (Q := fun _ _ _ => True) ?_
    (fun _ _ _ h => h) fun e s w _ => (quiet_call (c := .log _) trivial).wp lasting_true trivial)
  refine wp_bind.mpr (wp_mono (getBuildRecord_local_wp mem) (fun read s w unbuilt => ?_)
    fun _ _ _ h => h)
  by_cases state : ∀ build ∈ read, build.state ≠ .building
  · have rest : Within (About (image, id)) (fun s : σ => s) (do
        when (read.all (·.state = .deleting)) (call (.deleteLocalBuild image id))
        when (read.any (·.state = .ready)) (pruneLocalBuildFormats config image id)) :=
      .bind (.ite (about_call (c := .deleteLocalBuild _ _) rfl) .pure) fun _ =>
        .ite pruneLocalBuildFormats_within .pure
    exact wp_mono (rest.wp stable_about (unbuilt state)) (fun _ _ _ _ => trivial)
      fun _ _ _ _ => trivial
  · push Not at state
    obtain ⟨build, found, state⟩ := state
    obtain rfl : read = some build := found
    simp [when, state]

theorem cleanup_wp : (cleanup config : LauncherM σ Unit).wp (sharedContext clocked old i)
    (fun _ _ _ => True) (fun _ _ _ => True) s w := by
  have images : IsQuiet (σ := σ) (call .getImageNames) := quiet_call trivial
  refine wp_bind.mpr (wp_mono (images.wp lasting_true trivial) (fun images s w _ => ?_)
    fun _ _ _ _ => trivial)
  refine wp_bind.mpr (wp_mono (buildUploadRecencyTable_quiet.wp lasting_true trivial)
    (fun table s w _ => ?_) fun _ _ _ _ => trivial)
  refine wp_bind.mpr (wp_mono (wp_forEach (J := fun _ _ => True) (E := fun _ _ _ => True)
    (fun image s w _ => ?_) trivial)
    (fun _ s w _ => ?_) fun _ _ _ _ => trivial)
  · exact wp_tryCatch.mpr (wp_mono cleanupImage_wp (fun _ _ _ h => h) fun _ _ _ _ =>
      (quiet_call (c := .log _) trivial).wp lasting_true trivial)
  · refine wp_bind.mpr (wp_perform.mpr fun w₁ _ _ => ⟨trivial, fun found w₂ hs _ => ?_,
      fun _ _ _ _ => trivial⟩)
    obtain ⟨listed, rfl⟩ := of_mem_ite (mem_sharedNext hs)
    exact Lasting.wp_forEach (fun _ => lasting_files) (fun _ _ _ mem => cleanupLocalBuild_wp mem)
      listed

theorem dibImageDelete_wp : (NodePoolCmd.dibImageDelete image id : LauncherM σ Unit).wp
    (sharedContext clocked old i) (fun _ _ _ => True) (fun _ _ _ => True) s w := by
  refine wp_bind.mpr (wp_mono getBuildRecord_wp (fun read s w known => ?_) fun _ _ _ h => h)
  cases read with
  | none => exact (quiet_call (c := .log _) trivial).wp lasting_true trivial
  | some build =>
      obtain ⟨rfl, stored⟩ := known build rfl
      dsimp only
      split
      · exact (quiet_call (c := .log _) trivial).wp lasting_true trivial
      · rename_i state
        have rest : Within (About (image, build.id)) (fun s : σ => s) (do
            let now ← call .time
            call (.setBuildRecord image { build with state := .deleting, stateTime := now })) :=
          .bind (about_call (c := .time) trivial) fun _ =>
            about_call (c := .setBuildRecord _ _) ⟨rfl, rfl⟩
        exact wp_mono (rest.wp stable_about (stored.2 state)) (fun _ _ _ _ => trivial)
          fun _ _ _ _ => trivial

end Cleanup

end BuildSystem

end Nodepool
