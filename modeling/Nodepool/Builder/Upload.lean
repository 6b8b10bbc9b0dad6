import Nodepool.Zk.Images

/-!
`UploadWorker` of `nodepool/builder.py`: upload the most recent build of an image
to one provider. The record of the upload is stored before anything is given to
the cloud, and its path is part of the metadata.
-/

namespace Nodepool

open Effect Method

/-- The part of a provider's configuration that the builder reads. -/
structure UploadProvider where
  name : String
  imageType : String
  /-- `image_name_format`, for an image name, an upload number and a time -/
  imageNameFormat : String → String → Nat → String
  /-- the names of the disk images, and whether each one is paused -/
  diskimages : Dict String Bool
  postUploadHook : Bool

/-- How an adapter uploads an image under a name; the result is the external id. -/
abbrev UploadImage (σ : Type) : Type :=
  (name filename format : String) → Metadata → LauncherM σ String

namespace StateMachineProvider

variable {σ : Type}

def uploadImage (adapter : UploadImage σ) (provider name filename format : String)
    (metadata : Metadata) : LauncherM σ String :=
  adapter name filename format { metadata with providerName := some provider }

end StateMachineProvider

namespace UploadWorker

variable {σ : Type} (adapter : UploadImage σ) (provider : UploadProvider)

def failedUpload : ImageUpload := ⟨.failed, none, none, none⟩

/-- `_uploadImage` after the image was given to the cloud. -/
def runPostUploadHook (name externalId format : String) : LauncherM σ ImageUpload := do
  let hook ← attempt (when provider.postUploadHook (call (.postUploadHook externalId)))
  match hook with
  | .error _ => do
      tryCatch (call (.deleteImage name)) fun _ => call (.log "Unable to delete image")
      pure failedUpload
  | .ok () => pure ⟨.ready, some externalId, some name, some format⟩

theorem runPostUploadHook_within {γ : Type} {P : Call → Prop} {π : σ → γ}
    {name externalId format : String} (hook : P (.postUploadHook externalId))
    (delete : P (.deleteImage name)) (log : P (.log "Unable to delete image")) :
    Within P π (runPostUploadHook provider name externalId format : LauncherM σ ImageUpload) := by
  refine .bind (.attempt (when_within (.perform hook))) fun result => ?_
  cases result with
  | ok v => exact .pure
  | error e => exact .bind (.tryCatch (.perform delete) fun _ => .perform log) fun _ => .pure

/-- `_uploadImage`. The entries that the configuration adds to the metadata of an
image are read by nobody. -/
def uploadImage (path : UploadPath) (images : List String) : LauncherM σ ImageUpload := do
  raiseUnless (provider.imageType ∈ images) .other
  let timestamp ← call .time
  let name := provider.imageNameFormat path.image path.number timestamp
  raiseUnless (path.image ∈ provider.diskimages) .other
  let uploaded ← attempt (StateMachineProvider.uploadImage adapter provider.name name
    (path.image ++ "-" ++ path.buildId) provider.imageType
    { Metadata.empty with buildId := some path.buildId, uploadId := some path.number })
  match uploaded with
  | .error _ => do
      call (.log "Failed to upload build of image to provider")
      pure failedUpload
  | .ok externalId => runPostUploadHook provider name externalId provider.imageType

/-- `with self._zk.imageUploadLock(..., blocking=False): body` -/
def withUploadLock (image buildId : String) (body : LauncherM σ Bool) : LauncherM σ Bool := do
  let acquired ← call (.acquireUploadLock image buildId provider.name)
  raiseUnless acquired .zkLock
  let result ← attempt body
  call (.releaseUploadLock image buildId provider.name)
  match result with
  | .ok b => pure b
  | .error e => throw e

/-- The upload with the lock held. -/
def uploadBuild (image : String) (build : ImageBuild) (images : List String) :
    LauncherM σ Bool := do
  -- verify once more that it hasn't been uploaded since the last check, and that
  -- the build is not being deleted
  let upload ← call (.getMostRecentBuildImageUploads image build.id provider.name)
  if upload ≠ [] then pure false
  else do
    let stored ← call (.getBuild image build.id)
    if stored.all (·.state = .deleting) then pure false
    else do
      let number ← ZooKeeper.createImageUpload image build.id provider.name
        ⟨.uploading, none, none, none⟩
      let data ← uploadImage adapter provider ⟨image, build.id, provider.name, number⟩ images
      ZooKeeper.storeImageUpload ⟨image, build.id, provider.name, number⟩ data
      pure (data.state = .ready)

/-- An upload whose lock is already held is skipped. -/
def tryUploadBuild (image : String) (build : ImageBuild) (images : List String) :
    LauncherM σ Bool :=
  tryCatch (withUploadLock provider image build.id
      (uploadBuild adapter provider image build images))
    fun e => if e = .zkLock then pure false else throw e

/-- `_checkProviderImageUpload`; the result is whether an upload succeeded. -/
def checkProviderImageUpload (image : String) : LauncherM σ Bool := do
  if provider.diskimages.get image false then pure false
  else do
    let builds ← call (.getMostRecentBuilds image)
    match builds with
    | [] => pure false
    | build :: _ => do
        let images ← call (.localImages image build.id)
        if images = [] then pure false
        else do
          let upload ← call (.getMostRecentBuildImageUploads image build.id provider.name)
          if upload ≠ [] then pure false
          else if provider.imageType ∉ build.formats then pure false
          else tryUploadBuild adapter provider image build images

end UploadWorker

end Nodepool
