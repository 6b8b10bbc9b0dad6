import Nodepool.Builder.CleanupWorker
import Nodepool.Effect.Lift

/-!
`BuildWorker` of `nodepool/builder.py`: build the disk images that are due or asked for, and
`dib_image_delete` of `nodepool/cmd/nodepoolcmd.py`.

Whether an image is to be built is checked without the lock of the image first, and once more
with it. The configuration is the one that the worker has read before the pass. The environment
of the subprocess, its log and the statistics are left out, up to the exceptions they can raise.
-/

namespace Nodepool

open Effect Method

/-- The part of a disk image's configuration that the build worker reads. -/
structure BuildDiskImage where
  name : String
  pause : Bool
  imageTypes : List String
  /-- in seconds -/
  rebuildAge : Nat
deriving DecidableEq, Repr

/-- The record of a build, without its id. -/
structure BuildData where
  state : BuildState
  formats : List String
  stateTime : Nat
deriving DecidableEq, Repr

def BuildData.record (data : BuildData) (id : String) : BuildRecord :=
  ⟨⟨id, data.state, data.formats⟩, data.stateTime⟩

def BuildRecord.data (build : BuildRecord) : BuildData :=
  ⟨build.state, build.formats, build.stateTime⟩

/-- How the subprocess ended. -/
structure DibResult where
  /-- there is none of a process that was killed -/
  returncode : Option Int
  didTimeout : Bool
deriving DecidableEq, Repr

inductive BuilderCall where
  /-- a call that other workers make as well -/
  | shared (c : Call)
  /-- `uuid.uuid4().hex` -/
  | newBuildId (image : String)
  | createBuild (image id : String) (data : BuildData)
  | hasBuildRequest (image : String)
  | removeBuildRequest (image : String)
  | getImagePaused (image : String)
  | suspended
  | lost
  | checkConfigRecent
  | assignLostConnection (b : Bool)
  | lostConnection
  | pruneBuildLogs (image : String)
  | runDib (image id : String)
  | /-- wait while the connection to ZooKeeper is suspended or lost -/
    awaitConnection
  | reportBuild (image : String)

abbrev BuilderCall.Val : BuilderCall → Type
  | .shared c => c.Val
  | .newBuildId _ => String
  | .hasBuildRequest _ => Bool
  | .getImagePaused _ => Bool
  | .suspended => Bool
  | .lost => Bool
  | .checkConfigRecent => Bool
  | .lostConnection => Bool
  | .runDib _ _ => DibResult
  | _ => Unit

abbrev BuilderSig : Sig where
  Call := BuilderCall
  Val := BuilderCall.Val
  Err := Err

abbrev BuilderM (σ : Type) : Type → Type := Method BuilderSig σ

def sharedCalls : Sig.Hom LauncherSig BuilderSig := ⟨.shared, fun _ r => r, id⟩

variable {σ α : Type}

/-- A method that makes only calls which other workers make as well. -/
abbrev share (m : LauncherM σ α) : BuilderM σ α := m.lift sharedCalls

namespace ZooKeeper

/-- `getMostRecentBuilds` -/
def getMostRecentBuilds (count : Nat) (image : String) (state : BuildState) :
    LauncherM σ (List BuildRecord) := do
  let builds ← getBuilds image (some [state])
  pure ((mostRecentFirst BuildRecord.stateTime (builds.filterMap id)).take count)

/-- `storeBuild` without an id: a new id is made up. -/
def createBuild (image : String) (data : BuildData) : BuilderM σ String := do
  let id ← perform (S := BuilderSig) (.newBuildId image)
  perform (S := BuilderSig) (.createBuild image id data)
  pure id

end ZooKeeper

namespace BuildWorker

open ZooKeeper

/-- Make a call of the build worker. -/
abbrev builderCall (c : BuilderCall) : BuilderM σ c.Val := perform (S := BuilderSig) c

/-- `_getImageBuildLock` without blocking -/
def getImageBuildLock (image : String) : BuilderM σ Unit := do
  let acquired ← tryCatch (builderCall (.shared (.acquireBuildLock image))) fun e =>
    if e = .noNode then pure false else throw e
  if acquired then pure () else throw .zkLock

/-- `with self._zk.imageBuildLock(image, blocking=False): body` -/
def imageBuildLock (image : String) (body : BuilderM σ Unit) : BuilderM σ Unit := do
  getImageBuildLock image
  let result ← attempt body
  builderCall (.shared (.releaseBuildLock image))
  match result with
  | .ok () => pure ()
  | .error e => throw e

/-- The lock is skipped if it is already held. -/
def withBuildLock (image : String) (body : BuilderM σ Unit) : BuilderM σ Unit :=
  tryCatch (imageBuildLock image body) fun e => if e = .zkLock then pure () else throw e

/-! ### Building -/

def DibResult.failed (result : DibResult) : Bool :=
  result.returncode.any (· ≠ 0) || result.didTimeout

/-- `_buildImage` -/
def buildImage (id : String) (image : BuildDiskImage) : BuilderM σ BuildData := do
  builderCall (.pruneBuildLogs image.name)
  let result ← builderCall (.runDib image.name id)
  builderCall .awaitConnection
  let lost ← builderCall .lostConnection
  let now ← builderCall (.shared .time)
  builderCall (.reportBuild image.name)
  pure (if lost || DibResult.failed result then ⟨.failed, [], now⟩
    else ⟨.ready, image.imageTypes, now⟩)

/-- The outcome of a build; whatever goes wrong, it is stored. -/
def buildOrFail (id : String) (image : BuildDiskImage) (data : BuildData) :
    BuilderM σ BuildData := do
  let built ← attempt (buildImage id image)
  match built with
  | .ok built => pure built
  | .error _ => do
      let now ← builderCall (.shared .time)
      pure { data with state := .failed, stateTime := now }

/-- `_buildWrapper` -/
def buildWrapper (image : BuildDiskImage) : BuilderM σ (Option BuildRecord) := do
  builderCall (.assignLostConnection false)
  let now ← builderCall (.shared .time)
  let data : BuildData := ⟨.building, image.imageTypes, now⟩
  let bnum ← createBuild image.name data
  let data ← buildOrFail bnum image data
  let stored ← attempt (builderCall (.shared (.setBuildRecord image.name (data.record bnum))))
  match stored with
  | .error _ => do
      -- if the record has disappeared, the files of the build are left to this worker
      builderCall (.shared (.deleteLocalBuild image.name bnum))
      let now ← builderCall (.shared .time)
      pure (some ({ data with state := .failed, stateTime := now }.record bnum))
  | .ok () => builderCall (.shared (.getBuildRecord image.name bnum))

/-! ### Checking -/

def microseconds : Nat := 1000000

/-- There is no build for this image, or it has aged out, or it is missing an image type from
the configuration; times are in microseconds. -/
def isDue (image : BuildDiskImage) (now : Nat) : List BuildRecord → Bool
  | [] => true
  | build :: _ =>
      decide ((image.rebuildAge * microseconds : Int) ≤
        (now / microseconds * microseconds : Nat) - (build.stateTime : Int)) ||
      !image.imageTypes.all (· ∈ build.formats)

/-- `builds2 and builds[0].id != builds2[0].id`, which raises if there is no `builds[0]` -/
def newBuild (builds builds2 : List BuildRecord) : BuilderM σ Bool :=
  match builds2, builds with
  | [], _ => pure false
  | _ :: _, [] => throw .other
  | build2 :: _, build :: _ => pure (build.id ≠ build2.id)

/-- What is done with the lock held: check again, and build. -/
def buildScheduled (image : BuildDiskImage) (builds : List BuildRecord) : BuilderM σ Unit := do
  let builds2 ← share (getMostRecentBuilds 1 image.name .ready)
  let new ← newBuild builds builds2
  if new then pure ()
  else do
    let _ ← buildWrapper image
    pure ()

/-- Builds of the image are paused, or there is no format to build. -/
def isPaused (image : BuildDiskImage) : BuilderM σ Bool :=
  if image.pause then pure true
  else do
    let paused ← builderCall (.getImagePaused image.name)
    pure (paused || decide (image.imageTypes = []))

/-- `_checkImageForScheduledImageUpdates` -/
def checkImageForScheduledImageUpdates (image : BuildDiskImage) : BuilderM σ Unit := do
  let paused ← isPaused image
  if paused then pure ()
  else do
    let now ← builderCall (.shared .time)
    let builds ← share (getMostRecentBuilds 1 image.name .ready)
    if isDue image now builds then withBuildLock image.name (buildScheduled image builds)
    else pure ()

/-- What is done with the lock held for a build request. -/
def buildRequested (image : BuildDiskImage) : BuilderM σ Unit := do
  let requested ← builderCall (.hasBuildRequest image.name)
  if requested then do
    let data ← buildWrapper image
    -- remove the request on a successful build
    if data.any (·.state = .ready) then builderCall (.removeBuildRequest image.name) else pure ()
  else pure ()

/-- `_checkImageForManualBuildRequest` -/
def checkImageForManualBuildRequest (image : BuildDiskImage) : BuilderM σ Unit := do
  let paused ← isPaused image
  if paused then pure ()
  else do
    let requested ← builderCall (.hasBuildRequest image.name)
    if requested then withBuildLock image.name (buildRequested image) else pure ()

/-- Check one image, if the configuration is recent; the result is whether it is. -/
def checkRecent (check : BuildDiskImage → BuilderM σ Unit) (image : BuildDiskImage) :
    BuilderM σ Bool := do
  let recent ← builderCall .checkConfigRecent
  if recent then do
    check image
    pure true
  else pure false

/-- The loop over the images, which ends when the worker is told to shut down, when the
connection is suspended, or when the configuration has changed. -/
def forEachImage (check : BuildDiskImage → BuilderM σ Unit) :
    List BuildDiskImage → BuilderM σ Unit
  | [] => pure ()
  | image :: rest => do
      let running ← builderCall (.shared .isRunning)
      let suspended ← builderCall .suspended
      let lost ← builderCall .lost
      if !running || suspended || lost then pure ()
      else do
        let checked ← attempt (checkRecent check image)
        match checked with
        | .ok false => pure ()
        | .ok true => forEachImage check rest
        | .error _ => do
            builderCall (.shared (.log "Exception checking for update of diskimage"))
            forEachImage check rest

/-- `_checkForScheduledImageUpdates` -/
def checkForScheduledImageUpdates (images : List BuildDiskImage) : BuilderM σ Unit :=
  forEachImage checkImageForScheduledImageUpdates images

/-- `_checkForManualBuildRequest` -/
def checkForManualBuildRequest (images : List BuildDiskImage) : BuilderM σ Unit :=
  forEachImage checkImageForManualBuildRequest images

/-- `_run`, after the configuration has been read -/
def run (images : List BuildDiskImage) : BuilderM σ Unit := do
  checkForScheduledImageUpdates images
  checkForManualBuildRequest images

end BuildWorker

/-- `dib_image_delete` -/
def NodePoolCmd.dibImageDelete (image id : String) : LauncherM σ Unit := do
  let build ← call (.getBuildRecord image id)
  match build with
  | none => call (.log "Build not found")
  | some build =>
      if build.state = .building then call (.log "Cannot delete a build in progress")
      else do
        let now ← call .time
        call (.setBuildRecord image { build with state := .deleting, stateTime := now })

end Nodepool
