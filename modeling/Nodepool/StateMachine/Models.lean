import Nodepool.Zk.Models

/-!
Objects of `nodepool/driver/statemachine.py` that pass between a state machine
driver and the adapter of its cloud, with the attributes of the driver's own
objects that several threads share.
-/

namespace Nodepool

/-- The metadata that is given to the adapter with an instance or an image, under
the keys that Nodepool sets. An adapter may return them all, or only some. -/
structure Metadata where
  /-- `nodepool_node_id` -/
  nodeId : Option String
  /-- `nodepool_pool_name` -/
  poolName : Option String
  /-- `nodepool_provider_name` -/
  providerName : Option String
  /-- `nodepool_build_id` -/
  buildId : Option String
  /-- `nodepool_upload_id` -/
  uploadId : Option String
deriving DecidableEq, Repr

def Metadata.empty : Metadata := ⟨none, none, none, none, none⟩

inductive ResourceType where
  | typeInstance
  | typeFip
  | typeImage
  | typeObject
  | other (name : String)
deriving DecidableEq, Repr

/-- A cloud resource. -/
structure Resource where
  metadata : Metadata
  type : ResourceType
  name : String
  id : String
deriving DecidableEq, Repr

/-- A truly unique upload id: the build, and the number of the upload. -/
abbrev UploadKey : Type := Option String × String

/-- `possibly_leaked_nodes` and `possibly_leaked_uploads` -/
@[ext] structure Leaks where
  nodes : Dict String Resource
  uploads : Dict UploadKey Resource

instance : DecidableEq Leaks := fun a b =>
  decidable_of_iff (a.nodes.entries = b.nodes.entries ∧ a.uploads.entries = b.uploads.entries)
    ⟨fun h => Leaks.ext (AList.ext h.1) (AList.ext h.2), fun h => by rw [h]; exact ⟨rfl, rfl⟩⟩

def Leaks.empty : Leaks := ⟨∅, ∅⟩

/-- `StateMachine`: the attributes that the driver reads. -/
structure StateMachine where
  state : String
  externalId : Option String
  complete : Bool
  startTime : Nat
deriving DecidableEq, Repr

/-- `Instance`: a server that a create state machine has made, with the attributes
that are modelled of a node. -/
structure Instance where
  externalId : Option String
deriving DecidableEq, Repr

/-- A label of a pool: it names a disk image, or an image that is in the cloud. -/
structure PoolLabel where
  name : String
  diskimage : Option String
  cloudImage : Option String
deriving DecidableEq, Repr

/-- The two lists of a provider: `launchers` and `deleters`. -/
inductive MachineKind where
  | create
  | delete
deriving DecidableEq, Repr

structure NodeLauncher where
  node : NodeRef
  /-- the request handler that made the launcher -/
  handler : Nat
  providerName : String
  poolName : String
  attempts : Nat
  retries : Nat
  /-- `start_future` is not `None` -/
  startFuture : Bool
  startTime : Option Nat
  stateMachine : Option StateMachine
  nodescanRequest : Option Nat
  deleteStateMachine : Option StateMachine
deriving DecidableEq

/-- An assignment to an attribute of a `StateMachineNodeLauncher`. -/
inductive LauncherAttr where
  | attempts (n : Nat)
  | startFuture (submitted : Bool)
  | startTime (t : Option Nat)
  | stateMachine (m : Option StateMachine)
  | nodescanRequest (r : Option Nat)
  | deleteStateMachine (m : Option StateMachine)

def NodeLauncher.assign (l : NodeLauncher) : LauncherAttr → NodeLauncher
  | .attempts n => { l with attempts := n }
  | .startFuture b => { l with startFuture := b }
  | .startTime t => { l with startTime := t }
  | .stateMachine m => { l with stateMachine := m }
  | .nodescanRequest r => { l with nodescanRequest := r }
  | .deleteStateMachine m => { l with deleteStateMachine := m }

namespace NodeLauncher

variable (l : NodeLauncher) (a : LauncherAttr)

@[simp] theorem assign_node : (l.assign a).node = l.node := by cases a <;> rfl

@[simp] theorem assign_handler : (l.assign a).handler = l.handler := by cases a <;> rfl

@[simp] theorem assign_providerName : (l.assign a).providerName = l.providerName := by
  cases a <;> rfl

@[simp] theorem assign_poolName : (l.assign a).poolName = l.poolName := by cases a <;> rfl

end NodeLauncher

end Nodepool
