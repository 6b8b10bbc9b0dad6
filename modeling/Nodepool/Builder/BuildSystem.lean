import Nodepool.Builder.BuildWorker
import Nodepool.Builder.UploadLock
import Nodepool.Effect.Interleave

/-!
The build workers, upload workers and cleanup workers of all builders and the users of the
command line, with the records of builds, the locks of images and the build requests.

The lock of an image excludes every other thread until it is released (no session is lost), and a
call that fails may still have taken effect. What is read of builds is what is stored; the uploads
are left open. Creating the lock of a build, or something below it, makes its znode.
-/

namespace Nodepool

open Effect Method

inductive BuildThread where
  | build (n : Nat)
  | upload (n : Nat)
  | cleanup (n : Nat)
  | user (n : Nat)
deriving DecidableEq, Repr

/-- A build that has been stored as READY: its image and id, and its state time. -/
structure ReadyBuild where
  key : String × String
  time : Nat
deriving DecidableEq, Repr

structure BuildWorld where
  /-- the znodes of builds, with their data if they are not empty -/
  builds : Dict (String × String) (Option BuildData)
  requests : String → Bool
  lock : String → Option BuildThread
  /-- the build ids that are in use, or have been -/
  used : List String
  /-- the builds of which a builder has, or has had, image files -/
  files : List (String × String)
  /-- the build for which a worker has made up an id, until the worker stores how it ended or
  releases the lock -/
  building : BuildThread → Option (String × String)
  /-- the build for which the worker last made up an id, if there was a build request then -/
  asked : BuildThread → Option (String × String)
  /-- the build that a worker has stored as READY, until the worker releases the lock -/
  made : BuildThread → Option (String × String)
  /-- the builds that have been stored as READY, the latest one first -/
  log : List ReadyBuild
  /-- the log when a thread last looked at the builds of an image without its lock -/
  seen : BuildThread → List ReadyBuild

namespace BuildWorld

def read (w : BuildWorld) (key : String × String) : Option BuildData := (w.builds.lookup key).join

/-- `getBuild` -/
def readRecord (w : BuildWorld) (key : String × String) : Option BuildRecord :=
  (w.read key).map (·.record key.2)

/-- The ids are those of the builds of the image. -/
def Lists (w : BuildWorld) (image : String) (ids : List String) : Prop :=
  (∀ id ∈ ids, (image, id) ∈ w.builds) ∧ ∀ key ∈ w.builds.keys, key.1 = image → key.2 ∈ ids

instance (w : BuildWorld) (image : String) (ids : List String) : Decidable (w.Lists image ids) :=
  inferInstanceAs (Decidable (_ ∧ _))

/-- A builder has, or has had, image files of the build. -/
def HasFiles (w : BuildWorld) (key : String × String) : Prop := key ∈ w.files

instance (w : BuildWorld) (key : String × String) : Decidable (w.HasFiles key) :=
  decidable_of_iff (w.files.any (· = key) = true) (by simp [HasFiles])

def look (w : BuildWorld) (i : BuildThread) (image : String) : BuildWorld :=
  if w.lock image = some i then w else { w with seen := Function.update w.seen i w.log }

/-- The znode of a build is made if there is none. -/
def touch (w : BuildWorld) (key : String × String) : BuildWorld :=
  { w with builds := w.builds.setdefault key none, used := key.2 :: w.used }

def acquire (w : BuildWorld) (i : BuildThread) (image : String) : BuildWorld :=
  { w with lock := Function.update w.lock image (some i) }

/-- A thread releases a lock, or has tried to. -/
def release (w : BuildWorld) (i : BuildThread) (image : String) (released : Bool) : BuildWorld :=
  { w with
    lock := if released ∧ w.lock image = some i then Function.update w.lock image none else w.lock
    building := Function.update w.building i none
    made := Function.update w.made i none }

def reserve (w : BuildWorld) (i : BuildThread) (image id : String) : BuildWorld :=
  { w with
    used := id :: w.used
    building := Function.update w.building i (some (image, id))
    asked := Function.update w.asked i (if w.requests image then some (image, id) else none) }

def create (w : BuildWorld) (key : String × String) (data : BuildData) : BuildWorld :=
  if key ∈ w.builds then w else { w with builds := w.builds.insert key (some data) }

/-- What is noted when a thread has stored a build. -/
def finish (w : BuildWorld) (i : BuildThread) (key : String × String) (data : BuildData) :
    BuildWorld :=
  { w with
    building := if w.building i = some key then Function.update w.building i none else w.building
    made := if data.state = .ready then Function.update w.made i (some key) else w.made
    log := if data.state = .ready then ⟨key, data.stateTime⟩ :: w.log else w.log }

def store (w : BuildWorld) (i : BuildThread) (key : String × String) (data : BuildData) :
    BuildWorld :=
  if key ∈ w.builds then
    { w with builds := w.builds.insert key (some data) }.finish i key data
  else w

def delete (w : BuildWorld) (key : String × String) : BuildWorld :=
  { w with builds := w.builds.erase key }

def addFiles (w : BuildWorld) (key : String × String) : BuildWorld :=
  { w with files := key :: w.files }

def removeRequest (w : BuildWorld) (image : String) : BuildWorld :=
  { w with requests := Function.update w.requests image false }

/-- The worlds that a call can lead to if it gets the given reply, for the calls that several
workers make. -/
def sharedNext (i : BuildThread) (w : BuildWorld) :
    (c : Call) → LauncherSig.Reply c → List BuildWorld
  | .getBuildIds image, .ok ids => if w.Lists image ids then [w.look i image] else []
  | .getBuildRecord image id, .ok build =>
      if build = w.readRecord (image, id) then [w.look i image] else []
  | .getLocalBuilds, .ok found => if ∀ key ∈ found, w.HasFiles key then [w] else []
  | .acquireBuildLock image, .ok true => if w.lock image = none then [w.acquire i image] else []
  | .acquireBuildLock image, .error _ =>
      if w.lock image = none then [w, w.acquire i image] else [w]
  | .releaseBuildLock image, .ok _ => [w.release i image true]
  | .releaseBuildLock image, .error _ => [w.release i image false, w.release i image true]
  | .setBuildRecord image build, .ok _ =>
      if (image, build.id) ∈ w.builds then [w.store i (image, build.id) build.data] else []
  | .setBuildRecord image build, .error _ => [w, w.store i (image, build.id) build.data]
  | .deleteBuildTree image id, .ok _ => [w.delete (image, id)]
  | .deleteBuildTree image id, .error _ => [w, w.delete (image, id)]
  | .acquireBuildIdLock image id, _ => [w, w.touch (image, id)]
  | .acquireUploadLock image id _, _ => [w, w.touch (image, id)]
  | .createImageUpload image id _ _, _ => [w, w.touch (image, id)]
  | .acquireNumberLock path, _ => [w, w.touch (path.image, path.buildId)]
  | _, _ => [w]

/-- The worlds that a call can lead to if it gets the given reply. -/
def next (i : BuildThread) (w : BuildWorld) :
    (c : BuilderCall) → BuilderSig.Reply c → List BuildWorld
  | .shared c, r => w.sharedNext i c r
  | .newBuildId image, .ok id => if id ∉ w.used then [w.reserve i image id] else []
  | .createBuild image id data, .ok _ =>
      if (image, id) ∉ w.builds then [w.create (image, id) data] else []
  | .createBuild image id data, .error _ => [w, w.create (image, id) data]
  | .hasBuildRequest image, .ok b => if b = w.requests image then [w] else []
  | .removeBuildRequest image, .ok _ => [w.removeRequest image]
  | .removeBuildRequest image, .error _ => [w, w.removeRequest image]
  -- there may be files of a build that has failed
  | .runDib image id, _ => [w.addFiles (image, id)]
  | _, _ => [w]

/-- A user asks for a build, by `submitBuildRequest`. -/
inductive Env (w : BuildWorld) : BuildWorld → Prop where
  | submit (image : String) :
      Env w { w with requests := Function.update w.requests image true }

/-- The READY builds among the given ones. -/
def readyBuilds (builds : Dict (String × String) (Option BuildData)) : List ReadyBuild :=
  builds.entries.filterMap fun entry => match entry.2 with
    | some data => if data.state = .ready then some ⟨entry.1, data.stateTime⟩ else none
    | none => none

/-- Idle builders, with the builds and the image files of earlier ones. -/
def init (builds : Dict (String × String) (Option BuildData)) (files : List (String × String)) :
    BuildWorld where
  builds := builds
  requests _ := false
  lock _ := none
  used := builds.keys.map Prod.snd ++ files.map Prod.snd
  files := files
  building _ := none
  asked _ := none
  made _ := none
  log := readyBuilds builds
  seen _ := readyBuilds builds

end BuildWorld

/-- What a thread starts: a pass of a worker, or a command. -/
inductive BuildOp where
  | build (images : List BuildDiskImage)
  | upload (provider : UploadProvider) (image : String)
  | cleanup (config : BuilderConfig)
  | delete (image id : String)

def BuildOp.method : BuildOp → BuilderM Unit Unit
  | .build images => BuildWorker.run images
  | .upload provider image => do
      let _ ← share (UploadWorker.checkProviderImageUpload .external provider image)
      pure ()
  | .cleanup config => share (BuilderCleanup.cleanup config)
  | .delete image id => share (NodePoolCmd.dibImageDelete image id)

abbrev buildSystem : System BuilderSig BuildWorld BuildThread where
  State _ := Unit
  Op _ := BuildOp
  body _ op := op.method.toBody fun _ s => s
  enabled i op _ _ :=
    match i, op with
    | .build _, .build _ | .upload _, .upload _ _ | .cleanup _, .cleanup _
    | .user _, .delete _ _ => true
    | _, _ => false
  next := BuildWorld.next
  env := BuildWorld.Env

namespace BuildSystem

open BuildWorld

def init (builds : Dict (String × String) (Option BuildData)) (files : List (String × String)) :
    Config buildSystem where
  world := .init builds files
  thread _ := .pure ()

/-- The clocks of the builders are in step: what a build worker reads is later than the state
times of the builds that have been stored as READY. -/
def InStep (w : BuildWorld) : Event buildSystem → Prop
  | .call (.build _) (.shared .time) (.ok now) => ∀ entry ∈ w.log, entry.time < now
  | _ => True

variable {w w' : BuildWorld} {i j : BuildThread} {key : String × String}

/-- What a call of a thread can do. -/
inductive Stepped (i : BuildThread) (w : BuildWorld) : BuilderCall → BuildWorld → Prop where
  | same (c : BuilderCall) : Stepped i w c w
  | look (c : BuilderCall) (image : String) : Stepped i w c (w.look i image)
  | acquire (image : String) (free : w.lock image = none) :
      Stepped i w (.shared (.acquireBuildLock image)) (w.acquire i image)
  | release (image : String) (released : Bool) :
      Stepped i w (.shared (.releaseBuildLock image)) (w.release i image released)
  | store (image : String) (build : BuildRecord) (stored : (image, build.id) ∈ w.builds) :
      Stepped i w (.shared (.setBuildRecord image build))
        ({ w with builds := w.builds.insert (image, build.id) (some build.data) }.finish i
          (image, build.id) build.data)
  | delete (image id : String) :
      Stepped i w (.shared (.deleteBuildTree image id)) (w.delete (image, id))
  | touch (c : Call) (key : String × String) : Stepped i w (.shared c) (w.touch key)
  | reserve (image id : String) (new : id ∉ w.used) :
      Stepped i w (.newBuildId image) (w.reserve i image id)
  | create (image id : String) (data : BuildData) (new : (image, id) ∉ w.builds) :
      Stepped i w (.createBuild image id data)
        { w with builds := w.builds.insert (image, id) (some data) }
  | remove (image : String) : Stepped i w (.removeBuildRequest image) (w.removeRequest image)
  | addFiles (image id : String) : Stepped i w (.runDib image id) (w.addFiles (image, id))

theorem stepped_store {image : String} {build : BuildRecord} :
    Stepped i w (.shared (.setBuildRecord image build))
      (w.store i (image, build.id) build.data) := by
  unfold BuildWorld.store
  split
  · rename_i stored
    exact .store image build stored
  · exact .same _

theorem stepped_create {image id : String} {data : BuildData} :
    Stepped i w (.createBuild image id data) (w.create (image, id) data) := by
  unfold BuildWorld.create
  split
  · exact .same _
  · rename_i new
    exact .create image id data new

theorem sharedNext_stepped {c : Call} {r : LauncherSig.Reply c} (h : w' ∈ w.sharedNext i c r) :
    Stepped i w (.shared c) w' := by
  unfold sharedNext at h
  split at h
  case h_1 | h_2 =>
    obtain ⟨-, rfl⟩ := of_mem_ite h
    exact .look _ _
  case h_3 =>
    obtain ⟨-, rfl⟩ := of_mem_ite h
    exact .same _
  case h_4 =>
    obtain ⟨free, rfl⟩ := of_mem_ite h
    exact .acquire _ free
  case h_5 =>
    split at h
    · rename_i free
      rcases List.mem_pair.mp h with rfl | rfl
      · exact .same _
      · exact .acquire _ free
    · obtain rfl := List.mem_singleton.mp h
      exact .same _
  case h_6 =>
    obtain rfl := List.mem_singleton.mp h
    exact .release _ _
  case h_7 => rcases List.mem_pair.mp h with rfl | rfl <;> exact .release _ _
  case h_8 =>
    obtain ⟨-, rfl⟩ := of_mem_ite h
    exact stepped_store
  case h_9 =>
    rcases List.mem_pair.mp h with rfl | rfl
    · exact .same _
    · exact stepped_store
  case h_10 =>
    obtain rfl := List.mem_singleton.mp h
    exact .delete _ _
  case h_11 =>
    rcases List.mem_pair.mp h with rfl | rfl
    · exact .same _
    · exact .delete _ _
  case h_12 | h_13 | h_14 | h_15 =>
    rcases List.mem_pair.mp h with rfl | rfl
    · exact .same _
    · exact .touch _ _
  case h_16 =>
    obtain rfl := List.mem_singleton.mp h
    exact .same _

theorem next_stepped {c : BuilderCall} {r : BuilderSig.Reply c} (h : w' ∈ w.next i c r) :
    Stepped i w c w' := by
  unfold BuildWorld.next at h
  split at h
  case h_1 => exact sharedNext_stepped h
  case h_2 =>
    obtain ⟨new, rfl⟩ := of_mem_ite h
    exact .reserve _ _ new
  case h_3 =>
    obtain ⟨-, rfl⟩ := of_mem_ite h
    exact stepped_create
  case h_4 =>
    rcases List.mem_pair.mp h with rfl | rfl
    · exact .same _
    · exact stepped_create
  case h_5 =>
    obtain ⟨-, rfl⟩ := of_mem_ite h
    exact .same _
  case h_6 =>
    obtain rfl := List.mem_singleton.mp h
    exact .remove _
  case h_7 =>
    rcases List.mem_pair.mp h with rfl | rfl
    · exact .same _
    · exact .remove _
  case h_8 =>
    obtain rfl := List.mem_singleton.mp h
    exact .addFiles _ _
  case h_9 =>
    obtain rfl := List.mem_singleton.mp h
    exact .same _

end BuildSystem

end Nodepool
