import Mathlib.Data.List.Sublists
import Nodepool.Builder.CleanupWorker
import Nodepool.Builder.UploadLock

/-!
The upload workers and the cleanup workers of all builders, with builds and uploads in
ZooKeeper and the images of the providers.

Every call may fail, and a call that fails may still have taken effect. What a call lists is
left open; a record is read as it is stored. The lock of an upload, of its number or of a build
makes the znodes above it. Build workers and users store the data of builds at any time.
-/

namespace Nodepool

open Effect Method

inductive BuilderThread where
  | upload (n : Nat)
  | cleanup (n : Nat)
deriving DecidableEq, Repr

structure BuilderWorld where
  /-- the znodes of builds, with their data if they are not empty -/
  builds : Dict (String × String) (Option ImageBuild)
  uploads : Dict UploadPath (Option ImageUpload)
  lock : UploadLockKey → Option BuilderThread
  /-- the number of the next sequential znode -/
  counter : Nat
  /-- the external images that exist, with the uploads that they were created for -/
  images : List (UploadPath × String)
  /-- the build that a worker has found, until it creates a record of an upload or releases
  the lock -/
  checking : BuilderThread → Option (String × String)
  /-- the upload whose record a worker has created, until it has stored the final state or
  released the lock -/
  uploading : BuilderThread → Option UploadPath

def UploadPath.build (p : UploadPath) : String × String := (p.image, p.buildId)

namespace BuilderWorld

def readBuild (w : BuilderWorld) (key : String × String) : Option ImageBuild :=
  (w.builds.lookup key).join

def readUpload (w : BuilderWorld) (p : UploadPath) : Option ImageUpload := (w.uploads.lookup p).join

/-- The znode of a build is made if there is none. -/
def touchBuild (w : BuilderWorld) (key : String × String) : BuilderWorld :=
  { w with builds := w.builds.setdefault key none }

/-- The znodes of an upload and of its build are made if there are none. -/
def touchUpload (w : BuilderWorld) (p : UploadPath) : BuilderWorld :=
  { w.touchBuild p.build with uploads := w.uploads.setdefault p none }

def acquire (w : BuilderWorld) (i : BuilderThread) (key : UploadLockKey) : BuilderWorld :=
  { w with lock := Function.update w.lock key (some i) }

/-- A worker releases a lock, or has tried to. -/
def release (w : BuilderWorld) (i : BuilderThread) (key : UploadLockKey) (released : Bool) :
    BuilderWorld :=
  { w with
    lock := if released ∧ w.lock key = some i then Function.update w.lock key none else w.lock
    checking := Function.update w.checking i none
    uploading := Function.update w.uploading i none }

def check (w : BuilderWorld) (i : BuilderThread) (key : Option (String × String)) : BuilderWorld :=
  { w with checking := Function.update w.checking i key }

/-- The znodes above the new one are made if there are none. -/
def create (w : BuilderWorld) (i : BuilderThread) (p : UploadPath) (data : ImageUpload)
    (uploading : Option UploadPath) : BuilderWorld :=
  { w.touchBuild p.build with
    uploads := w.uploads.insert p (some data)
    counter := w.counter + 1
    checking := Function.update w.checking i none
    uploading := Function.update w.uploading i uploading }

def setBuild (w : BuilderWorld) (key : String × String) (data : ImageBuild) : BuilderWorld :=
  if key ∈ w.builds then { w with builds := w.builds.insert key (some data) } else w

def setUpload (w : BuilderWorld) (p : UploadPath) (data : ImageUpload) : BuilderWorld :=
  if p ∈ w.uploads then { w with uploads := w.uploads.insert p (some data) } else w

/-- The final state of an upload is stored. -/
def finish (w : BuilderWorld) (i : BuilderThread) : BuilderWorld :=
  { w with uploading := Function.update w.uploading i none }

def deleteUpload (w : BuilderWorld) (p : UploadPath) : BuilderWorld :=
  { w with uploads := w.uploads.erase p }

/-- The paths of the uploads of a build. -/
def uploadsOf (w : BuilderWorld) (key : String × String) : List UploadPath :=
  w.uploads.keys.filter fun p => p.build = key

def deleteUploads (w : BuilderWorld) (paths : List UploadPath) : BuilderWorld :=
  { w with uploads := paths.foldl (fun uploads p => uploads.erase p) w.uploads }

/-- A build is deleted with all that is below it. -/
def deleteBuild (w : BuilderWorld) (key : String × String) : BuilderWorld :=
  { w.deleteUploads (w.uploadsOf key) with builds := w.builds.erase key }

/-- An image is created for the upload that a worker is busy with. -/
def addImage (w : BuilderWorld) (i : BuilderThread) (externalId : String) : BuilderWorld :=
  { w with images := (w.uploading i).toList.map (·, externalId) ++ w.images }

def deleteImage (w : BuilderWorld) (provider : String)
    (externalId : Option String) : BuilderWorld :=
  { w with images := w.images.filter fun image =>
      ¬ (image.1.provider = provider ∧ some image.2 = externalId) }

/-- The worlds that a call can lead to if it gets the given reply. `deleteImage` of the upload
worker lacks an argument, and so raises. -/
def next (i : BuilderThread) (w : BuilderWorld) :
    (c : Call) → LauncherSig.Reply c → List BuilderWorld
  | .getBuild image buildId, .ok build =>
      if build = w.readBuild (image, buildId) then
        [w.check i ((build.filter (·.state ≠ .deleting)).map fun _ => (image, buildId))]
      else []
  | .getBuildRecord image buildId, .ok build =>
      if build.map (·.toImageBuild) = w.readBuild (image, buildId) then [w] else []
  | .getUploadRecord p, .ok upload =>
      if upload.map (·.toImageUpload) = w.readUpload p ∧ ∀ u ∈ upload, u.path = p then [w] else []
  | .acquireUploadLock image buildId provider, .ok true =>
      if w.lock ⟨image, buildId, provider⟩ = none then
        [(w.touchBuild (image, buildId)).acquire i ⟨image, buildId, provider⟩]
      else []
  | .acquireUploadLock image buildId _, .ok false => [w.touchBuild (image, buildId)]
  | .acquireUploadLock image buildId provider, .error _ =>
      if w.lock ⟨image, buildId, provider⟩ = none then
        [w, w.touchBuild (image, buildId),
          (w.touchBuild (image, buildId)).acquire i ⟨image, buildId, provider⟩]
      else [w, w.touchBuild (image, buildId)]
  | .releaseUploadLock image buildId provider, .ok _ =>
      [w.release i ⟨image, buildId, provider⟩ true]
  | .releaseUploadLock image buildId provider, .error _ =>
      [w.release i ⟨image, buildId, provider⟩ false, w.release i ⟨image, buildId, provider⟩ true]
  | .createImageUpload image buildId provider data, .ok number =>
      if number = sequenceName w.counter then
        [w.create i ⟨image, buildId, provider, number⟩ data
          (some ⟨image, buildId, provider, number⟩)]
      else []
  | .createImageUpload image buildId provider data, .error _ =>
      [w, w.create i ⟨image, buildId, provider, sequenceName w.counter⟩ data none]
  | .uploadImage _ _ _, .ok externalId => [w.addImage i externalId]
  | .uploadImage name _ _, .error _ => [w, w.addImage i name]
  | .deleteImage _, .ok _ => []
  | .setImageUpload p data, .ok _ => if p ∈ w.uploads then [(w.setUpload p data).finish i] else []
  | .setImageUpload p data, .error _ => [w, (w.setUpload p data).finish i]
  | .acquireNumberLock p, .ok _ => [w.touchUpload p]
  | .acquireNumberLock p, .error _ => [w, w.touchUpload p]
  | .acquireBuildIdLock image buildId, .ok _ => [w.touchBuild (image, buildId)]
  | .acquireBuildIdLock image buildId, .error _ => [w, w.touchBuild (image, buildId)]
  | .setUploadRecord data, .ok _ =>
      if data.path ∈ w.uploads then [w.setUpload data.path data.toImageUpload] else []
  | .setUploadRecord data, .error _ => [w, w.setUpload data.path data.toImageUpload]
  | .setBuildRecord image data, .ok _ =>
      if (image, data.id) ∈ w.builds then [w.setBuild (image, data.id) data.toImageBuild] else []
  | .setBuildRecord image data, .error _ => [w, w.setBuild (image, data.id) data.toImageBuild]
  | .deleteExternalImage provider _ externalId, .ok _ => [w.deleteImage provider externalId]
  | .deleteExternalImage provider _ externalId, .error _ => [w, w.deleteImage provider externalId]
  | .deleteUploadTree p, .ok _ => [w.deleteUpload p]
  | .deleteUploadTree p, .error _ => [w, w.deleteUpload p]
  | .deleteBuildTree image buildId, .ok _ => [w.deleteBuild (image, buildId)]
  | .deleteBuildTree image buildId, .error _ =>
      -- some of the znodes below the build may be gone
      w.deleteBuild (image, buildId) ::
        (w.uploadsOf (image, buildId)).sublists.map w.deleteUploads
  | _, _ => [w]

section Next

variable (i : BuilderThread) (w : BuilderWorld) (image buildId provider : String)

theorem next_getUploadRecord_ok (p : UploadPath) (upload : Option UploadRecord) :
    w.next i (.getUploadRecord p) (.ok upload) =
      if upload.map (·.toImageUpload) = w.readUpload p ∧ ∀ u ∈ upload, u.path = p then [w]
      else [] := rfl

theorem next_acquireUploadLock_true :
    w.next i (.acquireUploadLock image buildId provider) (.ok true) =
      if w.lock ⟨image, buildId, provider⟩ = none then
        [(w.touchBuild (image, buildId)).acquire i ⟨image, buildId, provider⟩]
      else [] := rfl

theorem next_acquireUploadLock_error (e : Err) :
    w.next i (.acquireUploadLock image buildId provider) (.error e) =
      if w.lock ⟨image, buildId, provider⟩ = none then
        [w, w.touchBuild (image, buildId),
          (w.touchBuild (image, buildId)).acquire i ⟨image, buildId, provider⟩]
      else [w, w.touchBuild (image, buildId)] := rfl

theorem next_createImageUpload_ok (data : ImageUpload) (number : String) :
    w.next i (.createImageUpload image buildId provider data) (.ok number) =
      if number = sequenceName w.counter then
        [w.create i ⟨image, buildId, provider, number⟩ data
          (some ⟨image, buildId, provider, number⟩)]
      else [] := rfl

theorem next_setUploadRecord_ok (data : UploadRecord) (v : Unit) :
    w.next i (.setUploadRecord data) (.ok v) =
      if data.path ∈ w.uploads then [w.setUpload data.path data.toImageUpload] else [] := rfl

end Next

/-- A build worker or a user stores the data of a build. -/
inductive Env (w : BuilderWorld) : BuilderWorld → Prop where
  | storeBuild (key : String × String) (data : ImageBuild) :
      Env w { w with builds := w.builds.insert key (some data) }

/-- Builds without uploads. -/
def init (builds : Dict (String × String) (Option ImageBuild)) : BuilderWorld :=
  ⟨builds, ∅, fun _ => none, 0, [], fun _ => none, fun _ => none⟩

end BuilderWorld

/-- What a worker starts: to look for an upload, or a pass of the cleanup. -/
inductive BuilderOp where
  | upload (provider : UploadProvider) (image : String)
  | cleanup (config : BuilderConfig)

def BuilderOp.method : BuilderOp → LauncherM Unit Unit
  | .upload provider image => do
      let _ ← UploadWorker.checkProviderImageUpload .external provider image
      pure ()
  | .cleanup config => BuilderCleanup.cleanup config

abbrev builderSystem : System LauncherSig BuilderWorld BuilderThread where
  State _ := Unit
  Op _ := BuilderOp
  body _ op := op.method.toBody fun _ s => s
  enabled i op _ _ :=
    match i, op with
    | .upload _, .upload _ _ | .cleanup _, .cleanup _ => true
    | _, _ => false
  next := BuilderWorld.next
  env := BuilderWorld.Env

namespace BuilderSystem

open BuilderWorld

def init (builds : Dict (String × String) (Option ImageBuild)) : Config builderSystem where
  world := .init builds
  thread _ := .pure ()

variable {w w' : BuilderWorld} {i j : BuilderThread} {p : UploadPath} {key : String × String}

/-- What a call of a worker can do. -/
inductive Stepped (i : BuilderThread) (w : BuilderWorld) : Call → BuilderWorld → Prop where
  | same (c : Call) : Stepped i w c w
  | check (image buildId : String) (build : Option ImageBuild)
      (read : build = w.readBuild (image, buildId)) :
      Stepped i w (.getBuild image buildId)
        (w.check i ((build.filter (·.state ≠ .deleting)).map fun _ => (image, buildId)))
  | touch (image buildId provider : String) :
      Stepped i w (.acquireUploadLock image buildId provider) (w.touchBuild (image, buildId))
  | acquire (image buildId provider : String) (free : w.lock ⟨image, buildId, provider⟩ = none) :
      Stepped i w (.acquireUploadLock image buildId provider)
        ((w.touchBuild (image, buildId)).acquire i ⟨image, buildId, provider⟩)
  | release (image buildId provider : String) (released : Bool) :
      Stepped i w (.releaseUploadLock image buildId provider)
        (w.release i ⟨image, buildId, provider⟩ released)
  | create (image buildId provider : String) (data : ImageUpload) (started : Bool) :
      Stepped i w (.createImageUpload image buildId provider data)
        (w.create i ⟨image, buildId, provider, sequenceName w.counter⟩ data
          (if started then some ⟨image, buildId, provider, sequenceName w.counter⟩ else none))
  | addImage (name filename : String) (metadata : Metadata) (externalId : String) :
      Stepped i w (.uploadImage name filename metadata) (w.addImage i externalId)
  | finish (p : UploadPath) (data : ImageUpload) :
      Stepped i w (.setImageUpload p data) ((w.setUpload p data).finish i)
  | touchNumber (p : UploadPath) : Stepped i w (.acquireNumberLock p) (w.touchUpload p)
  | touchBuildId (image buildId : String) :
      Stepped i w (.acquireBuildIdLock image buildId) (w.touchBuild (image, buildId))
  | setUpload (data : UploadRecord) :
      Stepped i w (.setUploadRecord data) (w.setUpload data.path data.toImageUpload)
  | setBuild (image : String) (data : BuildRecord) :
      Stepped i w (.setBuildRecord image data) (w.setBuild (image, data.id) data.toImageBuild)
  | deleteImage (provider : String) (name externalId : Option String) :
      Stepped i w (.deleteExternalImage provider name externalId)
        (w.deleteImage provider externalId)
  | deleteUpload (p : UploadPath) : Stepped i w (.deleteUploadTree p) (w.deleteUpload p)
  | deleteUploads (image buildId : String) (paths : List UploadPath)
      (below : paths.Sublist (w.uploadsOf (image, buildId))) :
      Stepped i w (.deleteBuildTree image buildId) (w.deleteUploads paths)
  | deleteBuild (image buildId : String) :
      Stepped i w (.deleteBuildTree image buildId) (w.deleteBuild (image, buildId))

theorem next_stepped {c : Call} {r : LauncherSig.Reply c} (h : w' ∈ w.next i c r) :
    Stepped i w c w' := by
  unfold BuilderWorld.next at h
  split at h
  case h_1 =>
    split at h
    · rename_i read
      obtain rfl := List.mem_singleton.mp h
      exact .check _ _ _ read
    · cases h
  case h_2 | h_3 =>
    split at h
    · obtain rfl := List.mem_singleton.mp h
      exact .same _
    · cases h
  case h_4 =>
    split at h
    · rename_i free
      obtain rfl := List.mem_singleton.mp h
      exact .acquire _ _ _ free
    · cases h
  case h_6 =>
    split at h
    · rename_i free
      rcases List.mem_cons.mp h with rfl | h
      · exact .same _
      rcases List.mem_pair.mp h with rfl | rfl
      · exact .touch _ _ _
      · exact .acquire _ _ _ free
    · rcases List.mem_pair.mp h with rfl | rfl
      · exact .same _
      · exact .touch _ _ _
  case h_9 =>
    split at h
    · rename_i number
      subst number
      obtain rfl := List.mem_singleton.mp h
      exact .create _ _ _ _ true
    · cases h
  case h_10 =>
    rcases List.mem_pair.mp h with rfl | rfl
    · exact .same _
    · exact .create _ _ _ _ false
  case h_12 =>
    rcases List.mem_pair.mp h with rfl | rfl
    · exact .same _
    · exact .addImage _ _ _ _
  case h_13 => cases h
  case h_14 | h_20 | h_22 =>
    split at h
    · obtain rfl := List.mem_singleton.mp h
      constructor
    · cases h
  case h_29 =>
    rcases List.mem_cons.mp h with rfl | h
    · exact .deleteBuild _ _
    · obtain ⟨paths, hp, rfl⟩ := List.mem_map.mp h
      exact .deleteUploads _ _ paths (List.mem_sublists.mp hp)
  case h_8 | h_15 | h_17 | h_19 | h_21 | h_23 | h_25 | h_27 =>
    rcases List.mem_pair.mp h with rfl | rfl <;> constructor
  all_goals
    obtain rfl := List.mem_singleton.mp h
    constructor

end BuilderSystem

end Nodepool
