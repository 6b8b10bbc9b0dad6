import Nodepool.Builder.CleanupWorker
import Nodepool.Effect.Footprint

/-!
The footprint of the cleanup worker: which calls its methods can make.
-/

namespace Nodepool

open Effect Method

section Locks

variable {σ α : Type} {P : Call → Prop}

theorem withLock_within {acquire : LauncherM σ Bool} {release : LauncherM σ Unit}
    {body : LauncherM σ α} (ha : Within P (fun s : σ => s) acquire)
    (hr : Within P (fun s : σ => s) release) (hb : Within P (fun s : σ => s) body) :
    Within P (fun s : σ => s) (withLock acquire release body) := by
  refine .bind ha fun acquired => .bind (.ite .pure .throw) fun _ => .bind (.attempt hb) fun r =>
    .bind hr fun _ => ?_
  cases r with
  | ok a => exact .pure
  | error e => exact .throw

theorem exceptLock_within {m handler : LauncherM σ α} (hm : Within P (fun s : σ => s) m)
    (hh : Within P (fun s : σ => s) handler) :
    Within P (fun s : σ => s) (exceptLock m handler) :=
  .tryCatch hm fun _ => .ite hh .throw

end Locks

namespace BuilderCleanup

open ZooKeeper

variable {σ : Type} {config : BuilderConfig} {image buildId provider : String}

/-- The calls of a cleanup worker that neither mark nor remove an upload. -/
def Sparing : Call → Prop
  | .getImageNames | .getBuildIds _ | .getBuildProviders _ _ | .getUploadNumbers _ _ _
  | .getUploadRecord _ | .getBuildRecord _ _ | .buildsExist _ | .time | .log _
  | .acquireUploadLock _ _ _ | .releaseUploadLock _ _ _ | .releaseNumberLock _
  | .acquireBuildLock _ | .releaseBuildLock _ | .acquireBuildIdLock _ _ | .releaseBuildIdLock _ _
  | .setBuildRecord _ _ | .deleteBuildTree _ _ | .deleteExternalImage _ _ _ | .localImages _ _
  | .getLocalBuilds | .deleteLocalBuild _ _ | .removeLocalImage _ _ _ => True
  | _ => False

/-- The calls of a cleanup worker. -/
def Cleaning : Call → Prop
  | .acquireNumberLock _ | .setUploadRecord _ | .deleteUploadTree _ => True
  | c => Sparing c

def Spares {α : Type} (m : LauncherM σ α) : Prop := Within Sparing (fun s : σ => s) m

def Cleans {α : Type} (m : LauncherM σ α) : Prop := Within Cleaning (fun s : σ => s) m

theorem cleaning_of_sparing {c : Call} (hc : Sparing c) : Cleaning c := by
  unfold Cleaning
  split
  · trivial
  · trivial
  · trivial
  · exact hc

theorem Spares.cleans {α : Type} {m : LauncherM σ α} (h : Spares m) : Cleans m :=
  h.mono fun _ => cleaning_of_sparing

theorem spares_call {c : Call} (hc : Sparing c) : Spares (call (σ := σ) c) := .perform hc

theorem cleans_call {c : Call} (hc : Cleaning c) : Cleans (call (σ := σ) c) := .perform hc

theorem getUploadRecords_spares {states : Option (List UploadState)} :
    Spares (σ := σ) (getUploadRecords image buildId provider states) := by
  refine .bind (spares_call (c := .getUploadNumbers _ _ _) trivial) fun numbers =>
    .gather (fun number => ?_) numbers
  exact .bind (spares_call (c := .getUploadRecord _) trivial) fun _ => .pure

theorem getMostRecentUploads_spares {count : Nat} {state : UploadState} :
    Spares (σ := σ) (getMostRecentUploads count image buildId provider state) :=
  .bind getUploadRecords_spares fun _ => .pure

theorem getBuilds_spares {states : Option (List BuildState)} :
    Spares (σ := σ) (getBuilds image states) :=
  .bind (spares_call (c := .getBuildIds _) trivial) fun ids => .gather (fun _ =>
    .bind (spares_call (c := .getBuildRecord _ _) trivial) fun _ => .pure) ids

theorem hasUploads_spares {providers : List String} :
    Spares (σ := σ) (hasUploads image buildId providers) := by
  induction providers with
  | nil => exact .pure
  | cons provider rest ih =>
      exact .bind (spares_call (c := .getUploadNumbers _ _ _) trivial) fun _ => .ite .pure ih

theorem deleteBuild_spares : Spares (σ := σ) (deleteBuild image buildId) :=
  .bind (spares_call (c := .getBuildProviders _ _) trivial) fun _ =>
    .bind hasUploads_spares fun _ => .ite .pure (.bind
      (.tryCatch (spares_call (c := .deleteBuildTree _ _) trivial) fun _ => .ite .pure .throw)
      fun _ => .pure)

theorem buildUploadRecencyTable_spares : Spares (σ := σ) buildUploadRecencyTable := by
  have uploads : ∀ image buildId table provider,
      Spares (σ := σ) (addUploads image buildId table provider) :=
    fun _ _ _ _ => .bind getMostRecentUploads_spares fun _ => .pure
  have build : ∀ image table build, Spares (σ := σ) (addBuild image table build) :=
    fun _ table _ => .bind (spares_call (c := .getBuildProviders _ _) trivial) fun providers =>
      .fold (fun _ _ => uploads _ _ _ _) providers table
  have image : ∀ table image, Spares (σ := σ) (addImage table image) :=
    fun _ _ => .bind getBuilds_spares fun builds => .bind
      (.fold (fun _ _ => build _ _ _) (builds.filterMap id) ∅) fun _ => .pure
  exact .bind (spares_call (c := .getImageNames) trivial) fun images =>
    .bind (.fold (fun _ _ => image _ _) images ∅) fun _ => .pure

theorem isRecentUpload_spares {table : RecencyTable} {path : UploadPath} :
    Spares (σ := σ) (isRecentUpload table path) := by
  unfold isRecentUpload
  split
  · exact .throw
  · exact .pure

theorem deleteUpload_cleans {path : UploadPath} : Cleans (σ := σ) (ZooKeeper.deleteUpload path) :=
  .tryCatch (cleans_call (c := .deleteUploadTree _) trivial) fun _ => .ite .pure .throw

theorem inProgressUpload_spares {upload : UploadRecord} :
    Spares (σ := σ) (inProgressUpload upload) :=
  .ite .pure (exceptLock_within (withLock_within
    (spares_call (c := .acquireUploadLock _ _ _) trivial)
    (spares_call (c := .releaseUploadLock _ _ _) trivial) .pure) .pure)

theorem removeUpload_cleans {upload : UploadRecord} :
    Cleans (σ := σ) (removeUpload config upload) := by
  refine .bind (.ite .pure .throw) fun _ => .bind (.attempt (.ite
    (cleans_call (c := .deleteExternalImage _ _ _) trivial) .pure)) fun deleted => ?_
  cases deleted with
  | error e => exact cleans_call (c := .log _) trivial
  | ok _ =>
      exact exceptLock_within (withLock_within (cleans_call (c := .acquireNumberLock _) trivial)
        (cleans_call (c := .releaseNumberLock _) trivial) deleteUpload_cleans)
        (cleans_call (c := .log _) trivial)

theorem markUpload_cleans {upload : UploadRecord} : Cleans (σ := σ) (markUpload upload) :=
  withLock_within (cleans_call (c := .acquireNumberLock _) trivial)
    (cleans_call (c := .releaseNumberLock _) trivial)
    (.bind (cleans_call (c := .time) trivial) fun _ =>
      .bind (cleans_call (c := .buildsExist _) trivial) fun _ =>
        .bind (.ite .pure .throw) fun _ => cleans_call (c := .setUploadRecord _) trivial)

theorem deleteUploadAndImage_cleans {upload : UploadRecord} :
    Cleans (σ := σ) (deleteUploadAndImage config upload) := by
  refine .ite removeUpload_cleans (.bind inProgressUpload_spares.cleans fun inProgress =>
    .ite .pure (.bind (.attempt markUpload_cleans) fun marked => ?_))
  split
  · exact cleans_call (c := .log _) trivial
  · exact .throw
  · exact removeUpload_cleans

theorem cleanupCurrentUpload_cleans {upload : UploadRecord} :
    Cleans (σ := σ) (cleanupCurrentUpload config upload) := by
  unfold cleanupCurrentUpload
  split
  · refine .bind inProgressUpload_spares.cleans fun inProgress => .ite .pure (.bind
      (cleans_call (c := .getUploadRecord _) trivial) fun stored => ?_)
    split
    · exact cleans_call (c := .log _) trivial
    · exact .ite deleteUpload_cleans .pure
  · exact deleteUploadAndImage_cleans
  · exact deleteUploadAndImage_cleans
  · exact .pure

theorem forEachManaged_cleans {body : BuilderProvider → LauncherM σ Unit}
    (h : ∀ provider, Cleans (body provider)) : Cleans (forEachManaged config body) :=
  .forEach (fun provider => .ite (.tryCatch (h provider) fun _ =>
    cleans_call (c := .log _) trivial) .pure) config.providers

theorem inProgressBuild_spares {build : BuildRecord} :
    Spares (σ := σ) (inProgressBuild image build) :=
  .ite .pure (exceptLock_within (withLock_within
    (spares_call (c := .acquireBuildLock _) trivial)
    (spares_call (c := .releaseBuildLock _) trivial)
    (.bind (spares_call (c := .getBuildRecord _ _) trivial) fun _ => .pure)) .pure)

theorem markBuild_spares {build : BuildRecord} : Spares (σ := σ) (markBuild image build) :=
  withLock_within (spares_call (c := .acquireBuildIdLock _ _) trivial)
    (spares_call (c := .releaseBuildIdLock _ _) trivial)
    (.bind (spares_call (c := .time) trivial) fun _ =>
      spares_call (c := .setBuildRecord _ _) trivial)

/-- What `cleanupOldBuild` does after the uploads. -/
theorem deleteOldBuild_spares {build : BuildRecord} : Spares (σ := σ) (do
    let providers ← call (.getBuildProviders image build.id)
    let uploads ← gather providers fun provider => getUploadRecords image build.id provider none
    when (uploads.all (·.state = .deleting) ∧ build.state ≠ .deleting) (markBuild image build)
    when (uploads = []) do
      let deleted ← deleteBuild image build.id
      when (deleted = false) (call (.log "Unable to delete build because uploads still remain"))) :=
  .bind (spares_call (c := .getBuildProviders _ _) trivial) fun providers =>
    .bind (.gather (fun _ => getUploadRecords_spares) providers) fun _ =>
      .bind (.ite markBuild_spares .pure) fun _ => .ite (.bind deleteBuild_spares fun _ =>
        .ite (spares_call (c := .log _) trivial) .pure) .pure

theorem cleanupOldBuild_cleans {table : RecencyTable} {build : BuildRecord} :
    Cleans (σ := σ) (cleanupOldBuild config table image build) := by
  have uploads : ∀ provider : BuilderProvider,
      Cleans (σ := σ) (cleanupProvider config table provider image build.id) :=
    fun _ => .bind getUploadRecords_spares.cleans fun uploads => .forEach (fun upload =>
      .bind isRecentUpload_spares.cleans fun _ => .ite .pure deleteUploadAndImage_cleans) uploads
  exact .bind (forEachManaged_cleans uploads) fun _ => deleteOldBuild_spares.cleans

theorem cleanupBuild_cleans {table : RecencyTable} {keep : List String}
    {build : Option BuildRecord} :
    Cleans (σ := σ) (cleanupBuild config table keep image build) := by
  cases build with
  | none => exact .throw
  | some build =>
      refine .bind (forEachManaged_cleans fun provider => .bind (.ite (.bind
        getUploadRecords_spares.cleans fun uploads =>
          .forEach (fun _ => deleteUploadAndImage_cleans)
          uploads) .pure) fun _ => .ite (.bind getUploadRecords_spares.cleans fun cruft =>
            .forEach (fun _ => cleanupCurrentUpload_cleans) cruft) .pure) fun _ => ?_
      exact .ite cleanupOldBuild_cleans (.ite .pure (.bind inProgressBuild_spares.cleans fun _ =>
        .ite .pure cleanupOldBuild_cleans))

theorem cleanupImage_cleans {table : RecencyTable} :
    Cleans (σ := σ) (cleanupImage config table image) := by
  refine .bind getBuilds_spares.cleans fun builds => .bind ?_ fun keep =>
    .forEach (fun _ => cleanupBuild_cleans) builds
  exact .ite .pure (.ite .throw .pure)

theorem cleanupLocalBuild_spares {localBuild : String × String} :
    Spares (σ := σ) (cleanupLocalBuild config localBuild) := by
  refine .tryCatch (.bind (spares_call (c := .getBuildRecord _ _) trivial) fun build =>
    .bind (.ite (spares_call (c := .deleteLocalBuild _ _) trivial) .pure) fun _ => .ite ?_ .pure)
    fun _ => spares_call (c := .log _) trivial
  unfold pruneLocalBuildFormats
  split
  · exact .throw
  · refine .ite (.bind (.gather (fun p => .ite (.bind getMostRecentUploads_spares fun _ => .pure)
      .pure) config.providers) fun toKeep => ?_) .pure
    refine .bind (spares_call (c := .localImages _ _) trivial) fun files =>
      .forEach (fun extension => ?_) files
    exact .ite (spares_call (c := .removeLocalImage _ _ _) trivial) .pure

theorem cleanup_cleans : Cleans (σ := σ) (cleanup config) :=
  .bind (cleans_call (c := .getImageNames) trivial) fun images =>
    .bind buildUploadRecencyTable_spares.cleans fun _ =>
      .bind (.forEach (fun _ => .tryCatch cleanupImage_cleans fun _ =>
        cleans_call (c := .log _) trivial) images) fun _ =>
        .bind (cleans_call (c := .getLocalBuilds) trivial) fun localBuilds =>
          .forEach (fun _ => cleanupLocalBuild_spares.cleans) localBuilds

end BuilderCleanup

end Nodepool
