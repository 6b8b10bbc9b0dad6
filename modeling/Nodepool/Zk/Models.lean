import Nodepool.Quota.Information

/-!
The records of `nodepool/zk/zookeeper.py` and `nodepool/zk/components.py`: node
requests, nodes and registered launcher pools, with the fields that the launcher
reads or writes.

The source keeps one set of state names and lists the valid ones for each class;
here each class has its own enumeration. Connection data of a node (addresses,
keys, user names) is written by the drivers and read by none of the modelled
code, and is left out.
-/

namespace Nodepool

/-- A number that ZooKeeper gives to a node when it is created. -/
abbrev NodeId : Type := Nat

/-- The name of a sequential znode: its number with at least ten digits. -/
def sequenceName (n : Nat) : String :=
  String.ofList (List.replicate (10 - (Nat.toDigits 10 n).length) '0' ++ Nat.toDigits 10 n)

theorem ofDigitChars_sequenceName (n : Nat) :
    Nat.ofDigitChars 10 (sequenceName n).toList 0 = n := by
  rw [sequenceName, String.toList_ofList, Nat.ofDigitChars_append,
    Nat.ofDigitChars_replicate_zero, Nat.mul_zero, Nat.ofDigitChars_ten_toDigits]

theorem sequenceName_injective {m n : Nat} (h : sequenceName m = sequenceName n) : m = n := by
  rw [← ofDigitChars_sequenceName m, h, ofDigitChars_sequenceName n]

theorem sequenceName_ne_empty (n : Nat) : sequenceName n ≠ "" := by
  intro h
  have : (sequenceName n).toList = [] := by rw [h]; rfl
  rw [sequenceName, String.toList_ofList] at this
  exact absurd (List.append_eq_nil_iff.mp this).2 Nat.toDigits_ne_nil

theorem isDigit_of_mem_sequenceName {n : Nat} {c : Char} (h : c ∈ (sequenceName n).toList) :
    c.isDigit = true := by
  rw [sequenceName, String.toList_ofList, List.mem_append] at h
  rcases h with h | h
  · rw [List.eq_of_mem_replicate h]
    rfl
  · exact Nat.isDigit_of_mem_toDigits (by decide) (by decide) h

/-- `NodeRequest.VALID_STATES` -/
inductive RequestState where
  | requested
  | pending
  | fulfilled
  | failed
deriving DecidableEq, Repr

/-- `Node.VALID_STATES` -/
inductive NodeState where
  | building
  | testing
  | ready
  | inUse
  | used
  | hold
  | deleting
  | failed
  | init
  | aborted
  | deleted
deriving DecidableEq, Repr

/-- A node request. `state_time`, which every assignment to the state sets, is left out, and so
are `requestor_data`, `event_id` and `created_time`: the launcher decides nothing by them. -/
structure NodeRequest where
  id : String
  state : RequestState
  declinedBy : List String
  nodeTypes : List String
  nodes : List (Option NodeId)
  reuse : Bool
  requestor : Option String
  provider : Option String
  relativePriority : Int
  tenantName : Option String
deriving DecidableEq, Repr

/-- A node as it is stored; its number is part of its path and not of the data. -/
structure Node where
  state : NodeState
  stateTime : Nat
  type : List String
  provider : Option String
  pool : Option String
  launcher : Option String
  allocatedTo : Option String
  tenantName : Option String
  requestor : Option String
  resources : Option Resources
  externalId : Option String
deriving DecidableEq

/-- The identity of a `Node` object in the memory of the launcher. -/
inductive NodeRef where
  /-- made by a request handler for a node that it launches -/
  | own (n : Nat)
  /-- the object of the node cache for this node -/
  | cached (id : NodeId)
deriving DecidableEq, Repr

/-- A `Node` object: the data, and the local fields that are not serialised. -/
structure NodeObject where
  id : Option NodeId
  node : Node
  /-- the cached list of lock contenders is not empty -/
  lockContenders : Bool
  /-- `lock` is not `None` -/
  lock : Bool
  /-- `_thread_lock` is locked -/
  threadLock : Bool
deriving DecidableEq

/-- An assignment to an attribute of a `Node` object. -/
inductive NodeAttr where
  | state (s : NodeState) (time : Nat)
  | allocatedTo (requestId : Option String)
  | tenantName (name : Option String)
  | requestor (name : Option String)
  | resources (r : Resources)
  | externalId (e : Option String)
  | lock (held : Bool)

def NodeObject.assign (o : NodeObject) : NodeAttr → NodeObject
  | .state s time => { o with node := { o.node with state := s, stateTime := time } }
  | .allocatedTo r => { o with node := { o.node with allocatedTo := r } }
  | .tenantName n => { o with node := { o.node with tenantName := n } }
  | .requestor n => { o with node := { o.node with requestor := n } }
  | .resources r => { o with node := { o.node with resources := some r } }
  | .externalId e => { o with node := { o.node with externalId := e } }
  | .lock held => { o with lock := held }

/-- `BaseBuilder.VALID_STATES` of an image build -/
inductive BuildState where
  | building
  | ready
  | deleting
  | failed
deriving DecidableEq, Repr

/-- A build of a disk image; its identifier is a random number that is given once. -/
structure ImageBuild where
  id : String
  state : BuildState
  formats : List String
deriving DecidableEq, Repr

/-- `ImageUpload.VALID_STATES` -/
inductive UploadState where
  | uploading
  | ready
  | deleting
  | failed
deriving DecidableEq, Repr

structure ImageUpload where
  state : UploadState
  externalId : Option String
  externalName : Option String
  format : Option String
deriving DecidableEq, Repr

/-- Where the record of an upload is stored: the number is a sequential znode below
the image, the build and the provider. -/
structure UploadPath where
  image : String
  buildId : String
  provider : String
  number : String
deriving DecidableEq, Repr

/-- A build as the cleanup worker reads it, with the time of its state. -/
structure BuildRecord extends ImageBuild where
  stateTime : Nat
deriving DecidableEq, Repr

/-- An upload as the cleanup worker reads it, with its path and the time of its state. -/
structure UploadRecord extends ImageUpload where
  path : UploadPath
  stateTime : Nat
deriving DecidableEq, Repr

/-- Not a process, but a provider pool within a launcher. -/
structure PoolComponent where
  id : String
  name : String
  providerName : String
  supportedLabels : List String
  priority : Int
  paused : Bool
deriving DecidableEq, Repr

/-- The truth value of an optional text: `None` and the empty text are false. -/
def truthy (text : Option String) : Bool :=
  match text with
  | none => false
  | some s => s ≠ ""

end Nodepool
