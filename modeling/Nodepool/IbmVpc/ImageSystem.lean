import Nodepool.Effect.Interleave
import Nodepool.IbmVpc.Adapter
import Nodepool.StateMachine.Cleanup
import Mathlib.Tactic.Simps.Basic

/-!
One provider in IBM Cloud: uploaders that give images to it with the default image
name, and scans for leaked resources. Each image and each stored object carries
the upload that it belongs to, so that what a scan deletes can be compared with the
records of uploads.
-/

namespace Nodepool

open Effect Method

structure CloudImage where
  name : String
  group : String
  /-- `owner_type` is `user` -/
  user : Bool
  /-- the upload that made the image -/
  owner : Option UploadPath
deriving DecidableEq, Repr

structure ImageWorld where
  /-- the stored records of uploads -/
  uploads : List UploadPath
  /-- the records of uploads ever stored -/
  born : List UploadPath
  /-- the upload that an uploader recorded last -/
  current : Nat → Option UploadPath
  images : Dict String CloudImage
  /-- the identifiers of images ever made -/
  imageIds : List String
  /-- the objects in the bucket, by their keys, with the upload that wrote them -/
  objects : Dict String (Option UploadPath)
  /-- instances and floating addresses, as pairs of a name and a resource group -/
  servers : List (String × String)
  groups : List String
  /-- what the manager with this number remembers of its last scan -/
  leaks : Nat → Leaks
  /-- what its present scan has listed last, and not yet deleted -/
  listed : Nat → List Resource

inductive ImageThread where
  | cleanup (k : Nat)
  | uploader (k : Nat)
deriving DecidableEq, Repr

/-- The number of an upload is the name of a sequential znode. -/
def isUploadNumber (number : String) : Bool :=
  number ≠ "" && number.toList.all Char.isDigit

namespace ImageWorld

@[simps -fullyApplied]
def addUpload (w : ImageWorld) (k : Nat) (path : UploadPath) : ImageWorld :=
  { w with
    uploads := path :: w.uploads
    born := path :: w.born
    current := Function.update w.current k (some path) }

@[simps -fullyApplied]
def addImage (w : ImageWorld) (id : String) (image : CloudImage) : ImageWorld :=
  { w with images := w.images.insert id image, imageIds := id :: w.imageIds }

@[simps -fullyApplied]
def removeImage (w : ImageWorld) (id : String) : ImageWorld :=
  { w with images := w.images.erase id }

@[simps -fullyApplied]
def putObject (w : ImageWorld) (key : String) (owner : Option UploadPath) : ImageWorld :=
  { w with objects := w.objects.insert key owner }

@[simps -fullyApplied]
def removeObject (w : ImageWorld) (key : String) : ImageWorld :=
  { w with objects := w.objects.erase key }

@[simps -fullyApplied]
def setListed (w : ImageWorld) (k : Nat) (resources : List Resource) : ImageWorld :=
  { w with listed := Function.update w.listed k resources }

@[simps -fullyApplied]
def setLeaks (w : ImageWorld) (k : Nat) (leaks : Leaks) : ImageWorld :=
  { w with leaks := Function.update w.leaks k leaks }

/-- One page of `listResources`: instances and addresses, images, stored objects. -/
def page (provider : String) (w : ImageWorld) : Nat → List Resource
  | 0 => w.servers.map fun s => IBMVPCAdapter.resource .typeInstance s.1 s.1 (some s.2)
  | 1 => (w.images.entries.filter fun e => e.2.user).map fun e =>
      IBMVPCAdapter.resource .typeImage e.2.name e.1 (some e.2.group)
  | 2 =>
      if IBMVPCAdapter.imageResourceGroupName provider ∈ w.groups then
        w.objects.entries.map fun e => IBMVPCAdapter.resource .typeObject e.1 e.1
          (some (IBMVPCAdapter.imageResourceGroupName provider))
      else []
  | _ => []

/-- `deleteResource` -/
def deleteResource (w : ImageWorld) (r : Resource) : ImageWorld :=
  match r.type with
  | .typeImage => w.removeImage r.id
  | .typeObject => w.removeObject r.id
  | _ => { w with servers := w.servers.filter (·.1 ≠ r.id) }

/-- The upload whose image or object the resource is. -/
def ownerOf (w : ImageWorld) (r : Resource) : Option UploadPath :=
  match r.type with
  | .typeImage => (w.images.lookup r.id).bind (·.owner)
  | .typeObject => (w.objects.lookup r.id).join
  | _ => none

/-- The worlds that a call can lead to if it gets the given reply. -/
def next (provider : String) (me : ImageThread) (w : ImageWorld) :
    (c : Call) → LauncherSig.Reply c → List ImageWorld
  | .createImageUpload image buildId p _, .ok number =>
      match me with
      | .uploader k =>
          if isUploadNumber number = true ∧ ⟨image, buildId, p, number⟩ ∉ w.born
          then [w.addUpload k ⟨image, buildId, p, number⟩] else []
      | .cleanup _ => []
  | .putObject key, _ =>
      match me with
      | .uploader k => [w.putObject key (w.current k), w]
      | .cleanup _ => []
  | .deleteObject key, _ => [w.removeObject key, w]
  | .createResourceGroup name, _ => [{ w with groups := name :: w.groups }, w]
  | .createImage name group _, .ok id =>
      match me with
      | .uploader k =>
          if id ∈ w.imageIds then [] else [w.addImage id ⟨name, group, true, w.current k⟩]
      | .cleanup _ => []
  | .listResources, .ok pages =>
      match me with
      | .cleanup k => if pages = [0, 1, 2] then [w.setListed k []] else []
      | .uploader _ => []
  | .listPage n, .ok resources =>
      match me with
      | .cleanup k => if resources = w.page provider n then [w.setListed k resources] else []
      | .uploader _ => []
  | .deleteResource r, _ =>
      match me with
      | .cleanup k =>
          let w := w.setListed k ((w.listed k).erase r)
          [w.deleteResource r, w]
      | .uploader _ => []
  | .possiblyLeaked, .ok leaks =>
      match me with
      | .cleanup k => if leaks = w.leaks k then [w] else []
      | .uploader _ => []
  | .possiblyLeaked, .error _ => []
  | .assignPossiblyLeaked leaks, .ok _ =>
      match me with
      | .cleanup k => [(w.setLeaks k leaks).setListed k []]
      | .uploader _ => []
  | .assignPossiblyLeaked _, .error _ => []
  | .log _, .error _ => []
  | _, _ => [w]

/-- What happens beside the threads: records, images and objects are deleted by the
cleanup of the builder, and other tenants use the same account. -/
inductive Env (w : ImageWorld) : ImageWorld → Prop where
  | deleteUpload (path : UploadPath) : Env w { w with uploads := w.uploads.filter (· ≠ path) }
  | addImage (id : String) (fresh : id ∉ w.imageIds) (name group : String) (user : Bool) :
      Env w (w.addImage id ⟨name, group, user, none⟩)
  | removeImage (id : String) : Env w (w.removeImage id)
  | putObject (key : String) : Env w (w.putObject key none)
  | removeObject (key : String) : Env w (w.removeObject key)
  | servers (servers : List (String × String)) : Env w { w with servers := servers }

end ImageWorld

/-- What an uploader is asked to do; the image name format is the default. -/
structure UploadOp where
  image : String
  imageType : String
  diskimages : Dict String Bool
  postUploadHook : Bool

def UploadOp.provider (op : UploadOp) (name : String) : UploadProvider where
  name := name
  imageType := op.imageType
  imageNameFormat := IBMVPCAdapter.imageNameFormat
  diskimages := op.diskimages
  postUploadHook := op.postUploadHook

namespace ImageThread

abbrev Op : ImageThread → Type
  | .cleanup _ => Unit
  | .uploader _ => UploadOp

def body (provider : String) : (i : ImageThread) → i.Op → Unit → Prog LauncherSig Unit
  | .cleanup _, _ => (StateMachineProvider.cleanupLeakedResources provider).toBody fun _ s => s
  | .uploader _, op =>
      (UploadWorker.checkProviderImageUpload (IBMVPCAdapter.uploadImage provider)
        (op.provider provider) op.image).toBody fun _ s => s

end ImageThread

abbrev imageSystem (provider : String) : System LauncherSig ImageWorld ImageThread where
  State _ := Unit
  Op := ImageThread.Op
  body := ImageThread.body provider
  enabled _ _ _ _ := true
  next := ImageWorld.next provider
  env := ImageWorld.Env

end Nodepool
