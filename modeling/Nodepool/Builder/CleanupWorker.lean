import Nodepool.Zk.Images

/-!
`CleanupWorker` of `nodepool/builder.py`: remove images from providers, and local builds.

The configuration is the one that the worker has read before the pass. Statistics are left
out.
-/

namespace Nodepool

open Effect Method

/-- The part of a provider's configuration that the cleanup worker reads. -/
structure BuilderProvider where
  name : String
  manageImages : Bool
  imageType : String
  /-- the names of the disk images -/
  diskimages : List String
deriving DecidableEq, Repr

structure DiskImage where
  deleteAfterUpload : Bool
  keepImageTypes : List String
deriving DecidableEq, Repr

structure BuilderConfig where
  providers : List BuilderProvider
  /-- `providers` is a dictionary with the names as keys. -/
  unique : (providers.map (·.name)).Nodup
  diskimages : Dict String DiskImage
  /-- the keys of `provider_managers` -/
  managers : List String

variable {σ : Type}

/-- `with lock: body`, without blocking -/
def withLock {α : Type} (acquire : LauncherM σ Bool) (release : LauncherM σ Unit)
    (body : LauncherM σ α) : LauncherM σ α := do
  let acquired ← acquire
  raiseUnless acquired .zkLock
  let result ← attempt body
  release
  match result with
  | .ok a => pure a
  | .error e => throw e

/-- `try: m` with `handler` for `ZKLockException` only -/
def exceptLock {α : Type} (m handler : LauncherM σ α) : LauncherM σ α :=
  tryCatch m fun e => if e = .zkLock then handler else throw e

def imageUploadLock {α : Type} (path : UploadPath) (body : LauncherM σ α) : LauncherM σ α :=
  withLock (call (.acquireUploadLock path.image path.buildId path.provider))
    (call (.releaseUploadLock path.image path.buildId path.provider)) body

def imageUploadNumberLock {α : Type} (path : UploadPath) (body : LauncherM σ α) : LauncherM σ α :=
  withLock (call (.acquireNumberLock path)) (call (.releaseNumberLock path)) body

def imageBuildLock {α : Type} (image : String) (body : LauncherM σ α) : LauncherM σ α :=
  withLock (call (.acquireBuildLock image)) (call (.releaseBuildLock image)) body

def imageBuildIdLock {α : Type} (image buildId : String) (body : LauncherM σ α) : LauncherM σ α :=
  withLock (call (.acquireBuildIdLock image buildId)) (call (.releaseBuildIdLock image buildId))
    body

/-! ### Records -/

/-- `sort(key=state_time, reverse=True)` -/
def mostRecentFirst {α : Type} (time : α → Nat) (records : List α) : List α :=
  records.insertionSort fun a b => time b ≤ time a

namespace ZooKeeper

/-- `getUploads` with the states to match, if there are any -/
def getUploadRecords (image buildId provider : String) (states : Option (List UploadState)) :
    LauncherM σ (List UploadRecord) := do
  let numbers ← call (.getUploadNumbers image buildId provider)
  gather numbers fun number => do
    let data ← call (.getUploadRecord ⟨image, buildId, provider, number⟩)
    pure (data.toList.filter fun upload => states.all (upload.state ∈ ·))

/-- `getMostRecentBuildImageUploads` -/
def getMostRecentUploads (count : Nat) (image buildId provider : String) (state : UploadState) :
    LauncherM σ (List UploadRecord) := do
  let uploads ← getUploadRecords image buildId provider (some [state])
  pure ((mostRecentFirst UploadRecord.stateTime uploads).take count)

/-- `getBuilds`; without states to match, a build that cannot be decoded is `None`. -/
def getBuilds (image : String) (states : Option (List BuildState)) :
    LauncherM σ (List (Option BuildRecord)) := do
  let ids ← call (.getBuildIds image)
  gather ids fun id => do
    let data ← call (.getBuildRecord image id)
    pure (if states.all fun states => data.any (·.state ∈ states) then [data] else [])

/-- One of the providers has the znode of an upload. -/
def hasUploads (image buildId : String) : List String → LauncherM σ Bool
  | [] => pure false
  | provider :: rest => do
      let numbers ← call (.getUploadNumbers image buildId provider)
      if numbers ≠ [] then pure true else hasUploads image buildId rest

/-- `deleteBuild`; the result is whether there were no uploads. -/
def deleteBuild (image buildId : String) : LauncherM σ Bool := do
  let providers ← call (.getBuildProviders image buildId)
  let uploads ← hasUploads image buildId providers
  if uploads then pure false
  else do
    tryCatch (call (.deleteBuildTree image buildId)) fun e =>
      if e = .noNode then pure () else throw e
    pure true

def deleteUpload (path : UploadPath) : LauncherM σ Unit :=
  tryCatch (call (.deleteUploadTree path)) fun e => if e = .noNode then pure () else throw e

end ZooKeeper

/-! ### The table of recent uploads -/

structure RecentUpload where
  buildId : String
  uploadId : String
  stateTime : Nat
deriving DecidableEq, Repr

/-- For each image, the most recent uploads to each provider. -/
abbrev RecencyTable : Type := Dict String (Dict String (List RecentUpload))

namespace BuilderCleanup

open ZooKeeper

def addUploads (image buildId : String) (table : Dict String (List RecentUpload))
    (provider : String) : LauncherM σ (Dict String (List RecentUpload)) := do
  let uploads ← getMostRecentUploads 2 image buildId provider .ready
  pure (table.insert provider (table.get provider [] ++
    uploads.map fun upload => ⟨buildId, upload.path.number, upload.stateTime⟩))

def addBuild (image : String) (table : Dict String (List RecentUpload)) (build : BuildRecord) :
    LauncherM σ (Dict String (List RecentUpload)) := do
  let providers ← call (.getBuildProviders image build.id)
  fold (addUploads image build.id) providers table

def addImage (table : RecencyTable) (image : String) : LauncherM σ RecencyTable := do
  let builds ← getBuilds image (some [.ready])
  let providers ← fold (addBuild image) (builds.filterMap id) ∅
  pure (table.insert image providers)

/-- `_buildUploadRecencyTable` -/
def buildUploadRecencyTable : LauncherM σ RecencyTable := do
  let images ← call .getImageNames
  let table ← fold addImage images ∅
  pure (table.mapVals fun _ providers => providers.mapVals fun _ uploads =>
    (mostRecentFirst RecentUpload.stateTime uploads).take 2)

/-- `_isRecentUpload`; it raises if the table does not have the image. -/
def isRecentUpload (table : RecencyTable) (path : UploadPath) : LauncherM σ Bool :=
  match table.lookup path.image with
  | none => throw .other
  | some providers => pure ((providers.get path.provider []).any fun recent =>
      recent.buildId = path.buildId ∧ recent.uploadId = path.number)

/-! ### Uploads -/

variable (config : BuilderConfig)

/-- `_inProgressUpload` -/
def inProgressUpload (upload : UploadRecord) : LauncherM σ Bool :=
  if upload.state ≠ .uploading then pure false
  else exceptLock (imageUploadLock upload.path (pure false)) (pure true)

/-- The rest of `_deleteUpload`, for an upload that is marked. -/
def removeUpload (upload : UploadRecord) : LauncherM σ Unit := do
  raiseUnless (upload.path.provider ∈ config.managers) .other
  -- there may be no external id, if ZooKeeper and the cloud are out of sync
  let deleted ← attempt (when (truthy upload.externalId)
    (call (.deleteExternalImage upload.path.provider upload.externalName upload.externalId)))
  match deleted with
  | .error _ => call (.log "Unable to delete image")
  | .ok () =>
      exceptLock (imageUploadNumberLock upload.path (deleteUpload upload.path))
        (call (.log "Unable to get lock on image upload"))

/-- Mark an upload, under the lock of its number. -/
def markUpload (upload : UploadRecord) : LauncherM σ Unit :=
  imageUploadNumberLock upload.path do
    let now ← call .time
    let exist ← call (.buildsExist upload.path.image)
    raiseUnless exist .other
    call (.setUploadRecord { upload with state := .deleting, stateTime := now })

/-- `_deleteUpload` -/
def deleteUploadAndImage (upload : UploadRecord) : LauncherM σ Unit :=
  if upload.state = .deleting then removeUpload config upload
  else do
    let inProgress ← inProgressUpload upload
    if inProgress then pure ()
    else do
      let marked ← attempt (markUpload upload)
      match marked with
      | .error .zkLock => call (.log "Unable to get lock on image upload")
      | .error e => throw e
      | .ok () => removeUpload config { upload with state := .deleting }

/-- `_cleanupProvider` -/
def cleanupProvider (table : RecencyTable) (provider : BuilderProvider) (image buildId : String) :
    LauncherM σ Unit := do
  let uploads ← getUploadRecords image buildId provider.name none
  forEach uploads fun upload => do
    let recent ← isRecentUpload table upload.path
    if recent then pure () else deleteUploadAndImage config upload

/-- `_cleanupObsoleteProviderUploads` -/
def cleanupObsoleteProviderUploads (provider : BuilderProvider) (image buildId : String) :
    LauncherM σ Unit :=
  -- otherwise the image is in use for this provider
  when (image ∉ provider.diskimages) do
    let uploads ← getUploadRecords image buildId provider.name none
    forEach uploads (deleteUploadAndImage config)

/-- An upload of a current build that is not in progress, read as UPLOADING. -/
def removeFailedUpload (upload : UploadRecord) : LauncherM σ Unit := do
  let stored ← call (.getUploadRecord upload.path)
  match stored with
  | none => call (.log "Ignoring invalid or empty image upload")
  | some stored =>
      -- the upload may have been completed since it was read
      when (stored.state = upload.state) (deleteUpload upload.path)

def cleanupCurrentUpload (upload : UploadRecord) : LauncherM σ Unit :=
  match upload.state with
  | .uploading => do
      let inProgress ← inProgressUpload upload
      if inProgress then pure () else removeFailedUpload upload
  | .deleting | .failed => deleteUploadAndImage config upload
  | .ready => pure ()

/-- `_cleanupCurrentProviderUploads`: remove cruft from a build that is kept. -/
def cleanupCurrentProviderUploads (provider image buildId : String) : LauncherM σ Unit := do
  let cruft ← getUploadRecords image buildId provider (some [.uploading, .deleting, .failed])
  forEach cruft (cleanupCurrentUpload config)

/-! ### Builds -/

/-- `_inProgressBuild`; if the state has changed, the build is checked again later. -/
def inProgressBuild (image : String) (build : BuildRecord) : LauncherM σ Bool :=
  if build.state ≠ .building then pure false
  else exceptLock (imageBuildLock image do
    let stored ← call (.getBuildRecord image build.id)
    pure (stored.any (·.state ≠ .building))) (pure true)

/-- The ids of the builds to keep; reading the time of `None` raises. -/
def buildsToKeep (image : String) (builds : List (Option BuildRecord)) :
    LauncherM σ (List String) :=
  if image ∉ config.diskimages then pure []
  else if none ∈ builds then throw .other
  else
    let sorted := mostRecentFirst BuildRecord.stateTime (builds.filterMap id)
    pure (((sorted.filter fun build => build.state = .ready).take 2).map (·.id))

/-- Run the body for each provider that manages images, and log what it raises. -/
def forEachManaged (body : BuilderProvider → LauncherM σ Unit) : LauncherM σ Unit :=
  forEach config.providers fun provider =>
    when (provider.manageImages = true)
      (tryCatch (body provider) fun _ => call (.log "Exception cleaning up uploads of build"))

/-- Mark a build, which permits deleting the local files. -/
def markBuild (image : String) (build : BuildRecord) : LauncherM σ Unit :=
  imageBuildIdLock image build.id do
    let now ← call .time
    call (.setBuildRecord image { build with state := .deleting, stateTime := now })

/-- Delete a build that is not kept, as far as its uploads are gone. -/
def cleanupOldBuild (table : RecencyTable) (image : String) (build : BuildRecord) :
    LauncherM σ Unit := do
  forEachManaged config fun provider => cleanupProvider config table provider image build.id
  let providers ← call (.getBuildProviders image build.id)
  let uploads ← gather providers fun provider => getUploadRecords image build.id provider none
  when (uploads.all (·.state = .deleting) ∧ build.state ≠ .deleting) (markBuild image build)
  when (uploads = []) do
    let deleted ← deleteBuild image build.id
    when (deleted = false) (call (.log "Unable to delete build because uploads still remain"))

/-- One round of the loop of `_cleanupImage`. For `None` nothing is done before its state is
read, which raises. -/
def cleanupBuild (table : RecencyTable) (keep : List String) (image : String)
    (build : Option BuildRecord) : LauncherM σ Unit :=
  match build with
  | none => throw .other
  | some build => do
      forEachManaged config fun provider => do
        cleanupObsoleteProviderUploads config provider image build.id
        when (build.id ∈ keep) (cleanupCurrentProviderUploads config provider.name image build.id)
      if build.state = .deleting then cleanupOldBuild config table image build
      else if build.id ∈ keep then pure ()
      else do
        let inProgress ← inProgressBuild image build
        if inProgress then pure () else cleanupOldBuild config table image build

/-- `_cleanupImage` -/
def cleanupImage (table : RecencyTable) (image : String) : LauncherM σ Unit := do
  let builds ← getBuilds image none
  let keep ← buildsToKeep config image builds
  forEach builds (cleanupBuild config table keep image)

/-! ### Local builds -/

/-- `_pruneLocalBuildFormats`: delete the formats that are uploaded everywhere. -/
def pruneLocalBuildFormats (image buildId : String) : LauncherM σ Unit :=
  match config.diskimages.lookup image with
  | none => throw .other
  | some diskimage => when (diskimage.deleteAfterUpload = true) do
      let toKeep ← gather config.providers fun provider =>
        if provider.manageImages ∧ image ∈ provider.diskimages then do
          let uploads ← getMostRecentUploads 1 image buildId provider.name .ready
          pure (if uploads = [] then [provider.imageType] else [])
        else pure []
      let files ← call (.localImages image buildId)
      forEach files fun extension =>
        when (extension ∉ diskimage.keepImageTypes ++ toKeep)
          (call (.removeLocalImage image buildId extension))

def cleanupLocalBuild (localBuild : String × String) : LauncherM σ Unit :=
  tryCatch (do
      let build ← call (.getBuildRecord localBuild.1 localBuild.2)
      when (build.all (·.state = .deleting)) (call (.deleteLocalBuild localBuild.1 localBuild.2))
      when (build.any (·.state = .ready)) (pruneLocalBuildFormats config localBuild.1 localBuild.2))
    fun _ => call (.log "Exception cleaning up local build")

/-- `_cleanup` -/
def cleanup : LauncherM σ Unit := do
  let images ← call .getImageNames
  let table ← buildUploadRecencyTable
  forEach images fun image =>
    tryCatch (cleanupImage config table image) fun _ => call (.log "Exception cleaning up image")
  let localBuilds ← call .getLocalBuilds
  forEach localBuilds (cleanupLocalBuild config)

end BuilderCleanup

end Nodepool
