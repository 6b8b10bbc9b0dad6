import Nodepool.Builder.Upload
import Nodepool.Effect.Interleave
import Nodepool.StateMachine.Cleanup
import Nodepool.StateMachine.Launcher
import Mathlib.Tactic.Simps.Basic

/-!
Scans for leaked resources next to everything that creates and deletes records
and resources: any number of scanners, of threads that launch nodes and of
uploaders, for any providers. The cloud makes resources only with metadata that it
was given, and lists them with just that metadata; an identifier is given once.
-/

namespace Nodepool

open Effect Method

structure CloudWorld where
  /-- the stored nodes -/
  nodes : NodeId → Option Node
  nextNode : NodeId
  /-- the provider with which a node was first stored -/
  providerOf : NodeId → Option String
  objects : NodeRef → NodeObject
  nextObject : Nat
  launchers : Nat → NodeLauncher
  nextLauncher : Nat
  /-- the image builds ever made, as pairs of an image and a build -/
  builds : List (String × String)
  /-- the stored records of uploads -/
  uploads : List UploadPath
  /-- the records of uploads ever stored -/
  born : List UploadPath
  /-- the metadata that was given to the cloud -/
  given : List Metadata
  resources : List Resource
  /-- what the manager with this number remembers of its last scan -/
  leaks : Nat → String → Leaks

/-- Who makes calls; a scanner belongs to the manager of a provider. -/
inductive CloudThread where
  | cleanup (k : Nat) (provider : String)
  | launcher (k : Nat)
  | uploader (k : Nat)
deriving DecidableEq, Repr

namespace CloudWorld

@[simps -fullyApplied]
def setNode (w : CloudWorld) (id : NodeId) (node : Option Node) : CloudWorld :=
  { w with nodes := Function.update w.nodes id node }

@[simps -fullyApplied]
def setObject (w : CloudWorld) (o : NodeRef) (object : NodeObject) : CloudWorld :=
  { w with objects := Function.update w.objects o object }

/-- A new node is stored with the next number. -/
@[simps -fullyApplied]
def addNode (w : CloudWorld) (node : Node) : CloudWorld :=
  { w with
    nodes := Function.update w.nodes w.nextNode (some node)
    providerOf := Function.update w.providerOf w.nextNode node.provider
    nextNode := w.nextNode + 1 }

@[simps -fullyApplied]
def addUpload (w : CloudWorld) (path : UploadPath) : CloudWorld :=
  { w with uploads := path :: w.uploads, born := path :: w.born }

@[simps -fullyApplied]
def give (w : CloudWorld) (m : Metadata) : CloudWorld := { w with given := m :: w.given }

@[simps -fullyApplied]
def remove (w : CloudWorld) (r : Resource) : CloudWorld :=
  { w with resources := w.resources.filter (· ≠ r) }

@[simps -fullyApplied]
def setLeaks (w : CloudWorld) (k : Nat) (provider : String) (leaks : Leaks) : CloudWorld :=
  { w with leaks := Function.update w.leaks k (Function.update (w.leaks k) provider leaks) }

/-- The worlds after the record of a node object was stored again. -/
def stored (w : CloudWorld) (o : NodeRef) : List CloudWorld :=
  match (w.objects o).id with
  | none => []
  | some id => if w.nodes id = none then [] else [w.setNode id (some (w.objects o).node)]

/-- The worlds that a call can lead to if it gets the given reply. Listing the
children of a znode gives at least those below which a record is stored. -/
def next (me : CloudThread) (w : CloudWorld) : (c : Call) → LauncherSig.Reply c → List CloudWorld
  | .newNode node, .ok (.own n) =>
      if n = w.nextObject
      then [{ w.setObject (.own n) ⟨none, node, false, false, false⟩ with nextObject := n + 1 }]
      else []
  | .newNode _, _ => []
  | .readNode o, .ok object => if object = w.objects o then [w] else []
  | .readNode _, .error _ => []
  | .assignNode o a, .ok _ => [w.setObject o ((w.objects o).assign a)]
  | .assignNode _ _, .error _ => []
  | .createNode o, .ok _ =>
      [(w.addNode (w.objects o).node).setObject o { w.objects o with id := some w.nextNode }]
  | .setNode o, .ok _ => w.stored o
  | .setNode o, .error _ => w :: w.stored o
  | .getNodeIds, .ok ids =>
      if ids = (List.range w.nextNode).filter fun id => (w.nodes id).isSome then [w] else []
  | .getNode id, .ok node => if node = w.nodes id then [w] else []
  | .getImageNames, .ok images => if ∀ p ∈ w.uploads, p.image ∈ images then [w] else []
  | .getBuildIds image, .ok builds =>
      if ∀ p ∈ w.uploads, p.image = image → p.buildId ∈ builds then [w] else []
  | .getBuildProviders image buildId, .ok providers =>
      if ∀ p ∈ w.uploads, p.image = image → p.buildId = buildId → p.provider ∈ providers
      then [w] else []
  | .getUploadNumbers image buildId provider, .ok numbers =>
      if ∀ p ∈ w.uploads, p.image = image → p.buildId = buildId → p.provider = provider →
        p.number ∈ numbers then [w] else []
  | .getImageUpload path, .ok data => if data.isSome = true ↔ path ∈ w.uploads then [w] else []
  | .getMostRecentBuilds image, .ok builds =>
      if ∀ b ∈ builds, (image, b.id) ∈ w.builds then [w] else []
  | .createImageUpload image buildId provider _, .ok number =>
      if ⟨image, buildId, provider, number⟩ ∈ w.born ∨ number = "" then []
      else [w.addUpload ⟨image, buildId, provider, number⟩]
  | .newLauncher launcher, .ok l =>
      if l = w.nextLauncher
      then [{ w with launchers := Function.update w.launchers l launcher, nextLauncher := l + 1 }]
      else []
  | .newLauncher _, .error _ => []
  | .readLauncher l, .ok launcher =>
      if l < w.nextLauncher ∧ launcher = w.launchers l then [w] else []
  | .readLauncher _, .error _ => []
  | .assignLauncher l a, .ok _ =>
      [{ w with launchers := Function.update w.launchers l ((w.launchers l).assign a) }]
  | .assignLauncher _ _, .error _ => []
  | .getCreateStateMachine _ _ _ _ m, _ => [w, w.give m]
  | .uploadImage _ _ m, _ => [w, w.give m]
  | .listPage _, .ok resources => if ∀ r ∈ resources, r ∈ w.resources then [w] else []
  | .deleteResource r, _ => [w, w.remove r]
  | .possiblyLeaked, .ok leaks =>
      match me with
      | .cleanup k provider => if leaks = w.leaks k provider then [w] else []
      | _ => []
  | .possiblyLeaked, .error _ => []
  | .assignPossiblyLeaked leaks, .ok _ =>
      match me with
      | .cleanup k provider => [w.setLeaks k provider leaks]
      | _ => []
  | .assignPossiblyLeaked _, .error _ => []
  | .log _, .error _ => []
  | _, _ => [w]

/-- What happens beside the threads: handlers and cleanups of any launcher store
and delete nodes, builders make builds and upload records and delete them, and the
cloud makes and removes resources. -/
inductive Env (w : CloudWorld) : CloudWorld → Prop where
  | addNode (node : Node) : Env w (w.addNode node)
  | storeNode (id : NodeId) (node : Node) (exists_ : w.nodes id ≠ none)
      (provider : node.provider = w.providerOf id) : Env w (w.setNode id (some node))
  | deleteNode (id : NodeId) : Env w (w.setNode id none)
  | addBuild (image buildId : String) (fresh : ∀ b ∈ w.builds, b.2 ≠ buildId) :
      Env w { w with builds := (image, buildId) :: w.builds }
  | addUpload (path : UploadPath) (fresh : path ∉ w.born) (number : path.number ≠ "")
      (build : (path.image, path.buildId) ∈ w.builds) : Env w (w.addUpload path)
  | deleteUpload (path : UploadPath) :
      Env w { w with uploads := w.uploads.filter (· ≠ path) }
  | addResource (r : Resource) (given : r.metadata ∈ w.given) :
      Env w { w with resources := r :: w.resources }
  | removeResource (r : Resource) : Env w (w.remove r)

end CloudWorld

/-- A thread that launches nodes: it stores a new node and launches it, or starts
the launch of one again, as the thread pool and the runner do. -/
inductive LaunchOp where
  | launchNode (node : Node) (handler : Nat) (poolName : String) (retries : Nat)
  | startStateMachine (l : Nat)
  | launch (l : Nat)

namespace LaunchOp

/-- A request handler stores a new node before its driver launches it. -/
def storeAndLaunch (node : Node) (handler : Nat) (poolName : String) (retries : Nat) :
    LauncherM Unit Unit := do
  let o ← call (.newNode node)
  ZooKeeper.storeNode o
  let l ← call (.newLauncher (StateMachineNodeLauncher.init handler o (node.provider.getD "")
    poolName retries))
  StateMachineNodeLauncher.launch l

def method : LaunchOp → LauncherM Unit Unit
  | .launchNode node handler poolName retries => storeAndLaunch node handler poolName retries
  | .startStateMachine l => StateMachineNodeLauncher.startStateMachine l
  | .launch l => StateMachineNodeLauncher.launch l

def enabled (op : LaunchOp) : Bool :=
  match op with
  | .launchNode node _ _ _ => node.provider.isSome
  | _ => true

end LaunchOp

/-- Any adapter: what it uploads is decided outside. -/
def UploadImage.external : UploadImage Unit := fun name filename _ metadata =>
  call (.uploadImage name filename metadata)

namespace CloudThread

abbrev Op : CloudThread → Type
  | .cleanup _ _ => Unit
  | .launcher _ => LaunchOp
  | .uploader _ => UploadProvider × String

def body : (i : CloudThread) → i.Op → Unit → Prog LauncherSig Unit
  | .cleanup _ provider, _ =>
      (StateMachineProvider.cleanupLeakedResources provider).toBody fun _ s => s
  | .launcher _, op => op.method.toBody fun _ s => s
  | .uploader _, (provider, image) =>
      (UploadWorker.checkProviderImageUpload .external provider image).toBody fun _ s => s

def enabled : (i : CloudThread) → i.Op → Bool
  | .cleanup _ _, _ => true
  | .launcher _, op => op.enabled
  | .uploader _, _ => true

end CloudThread

abbrev cloudSystem : System LauncherSig CloudWorld CloudThread where
  State _ := Unit
  Op := CloudThread.Op
  body := CloudThread.body
  enabled i op _ _ := i.enabled op
  next := CloudWorld.next
  env := CloudWorld.Env

end Nodepool
