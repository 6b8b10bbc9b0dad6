import Nodepool.Effect.Serial
import Nodepool.Zk.Models

/-!
`MetastaticAdapter` of `nodepool/driver/metastatic/adapter.py`.

The adapter requests backing nodes, and gives out their slots. A `BackingNodeRecord` is an
object that the adapter and the state machines share, so it is kept under its identity, and
a list of records is a list of identities. What is logged is left out.
-/

namespace Nodepool.Metastatic

open Effect Method

structure MetastaticLabel where
  name : String
  backingLabel : String
  maxParallelJobs : Nat
  graceTime : Nat
  minRetentionTime : Nat
  maxAge : Option Nat
deriving DecidableEq, Repr

/-- The configuration of a metastatic provider. -/
structure Provider where
  name : String
  /-- `_getLabel` -/
  label : String → Option MetastaticLabel

structure BackingNodeRecord where
  labelName : String
  slotCount : Nat
  nodeId : Option NodeId
  requestId : Option String
  allocatedNodes : List (Option NodeId)
  failed : Bool
  launched : Nat
  lastUsed : Nat
deriving DecidableEq, Repr

/-- What the adapter writes to the field `user_data` of a backing node. -/
structure UserData where
  owner : String
  label : String
  slots : Nat
  failed : Bool
  launched : Nat
deriving DecidableEq, Repr

/-- What the field `driver_data` of an end node says of its backing node. -/
structure DriverData where
  backingNode : Option NodeId
  slot : Option Nat
deriving DecidableEq, Repr

/-- A node as the initialisation reads it. -/
structure NodeData where
  id : NodeId
  provider : String
  /-- `user_data`, if it can be decoded and has an owner -/
  userData : Option UserData
  driverData : Option DriverData
deriving DecidableEq, Repr

/-- A request for a backing node. -/
structure BackingRequest where
  id : String
  state : RequestState
  nodes : List NodeId
deriving DecidableEq, Repr

/-! ### Calls -/

inductive AdapterCall where
  | time
  | nodeIterator
  | getNodeLockContenders (id : NodeId)
  | getNode (id : Option NodeId)
  | lockNode (id : NodeId) (identifier : String)
  | storeNode (id : Option NodeId) (state : Option NodeState) (userData : Option UserData)
  | forceUnlockNode (id : Option NodeId)
  | storeNodeRequest (nodeType requestor : String)
  | getNodeRequests
  | getNodeRequest (id : String)
  | deleteNodeRequest (id : String)
deriving DecidableEq

/-- `getNode` says whether there is such a node. -/
abbrev AdapterCall.Val : AdapterCall → Type
  | .time => Nat
  | .nodeIterator => List NodeData
  | .getNodeLockContenders _ => List String
  | .getNode _ => Bool
  | .storeNodeRequest _ _ => String
  | .getNodeRequests => List String
  | .getNodeRequest _ => Option BackingRequest
  | _ => Unit

abbrev AdapterSig : Sig where
  Call := AdapterCall
  Val := AdapterCall.Val
  Err := Unit

abbrev call {σ : Type} (c : AdapterCall) : Method AdapterSig σ c.Val := perform (S := AdapterSig) c

/-- `if b: m` -/
def when {σ : Type} (b : Prop) [Decidable b] (m : Method AdapterSig σ Unit) :
    Method AdapterSig σ Unit :=
  if b then m else pure ()

/-- The attributes of `None` cannot be used. -/
def raiseIfNone {σ : Type} (found : Bool) : Method AdapterSig σ Unit :=
  if found then pure () else throw ()

/-! ### Records -/

namespace BackingNodeRecord

def new (labelName : String) (slotCount launched lastUsed : Nat) : BackingNodeRecord :=
  ⟨labelName, slotCount, none, none, List.replicate slotCount none, false, launched, lastUsed⟩

def hasAvailableSlot (bnr : BackingNodeRecord) : Bool :=
  if bnr.failed then false else none ∈ bnr.allocatedNodes

def isEmpty (bnr : BackingNodeRecord) : Bool := bnr.allocatedNodes.all fun slot => slot = none

/-- Nothing if it raises: there is no such slot, or it is taken. -/
def allocateSlot (bnr : BackingNodeRecord) (nodeId : NodeId) (slotId : Option Nat) :
    Option (BackingNodeRecord × Nat) :=
  (slotId <|> bnr.allocatedNodes.idxOf? none).bind fun idx =>
    match bnr.allocatedNodes[idx]? with
    | some none =>
        some ({ bnr with allocatedNodes := bnr.allocatedNodes.set idx (some nodeId) }, idx)
    | _ => none

def deallocateSlot (bnr : BackingNodeRecord) (nodeId : NodeId) (now : Nat) : BackingNodeRecord :=
  { bnr with
    allocatedNodes := bnr.allocatedNodes.set (bnr.allocatedNodes.idxOf (some nodeId)) none
    lastUsed := now }

def backsNode (bnr : BackingNodeRecord) (nodeId : NodeId) : Bool :=
  some nodeId ∈ bnr.allocatedNodes

/-- The record has reached the `max_age` of its label. -/
def isTooOld (bnr : BackingNodeRecord) (config : Option MetastaticLabel) (now : Nat) : Bool :=
  match config with
  | some label => label.maxAge.any fun maxAge => maxAge ≠ 0 ∧ bnr.launched + maxAge < now
  | none => false

/-- `grace_time` and `min_time` of a record whose attribute `failed` is up to date -/
def times (bnr : BackingNodeRecord) (config : Option MetastaticLabel) : Nat × Nat :=
  match config with
  | some label => if bnr.failed then (0, 0) else (label.graceTime, label.minRetentionTime)
  | none => (0, 0)

/-- The record is empty and has been idle for long enough. -/
def isIdle (bnr : BackingNodeRecord) (config : Option MetastaticLabel) (now : Nat) : Bool :=
  bnr.isEmpty ∧ bnr.lastUsed + (bnr.times config).1 < now ∧
    bnr.launched + (bnr.times config).2 < now

/-- The record with `failed` set if it is too old. -/
def aged (bnr : BackingNodeRecord) (config : Option MetastaticLabel) (now : Nat) :
    BackingNodeRecord :=
  if bnr.isTooOld config now then { bnr with failed := true } else bnr

end BackingNodeRecord

/-! ### The adapter -/

structure MetastaticAdapter where
  /-- the records that have been made, and their number -/
  record : Nat → BackingNodeRecord
  objects : Nat
  /-- `label -> [BackingNodeRecord]` -/
  backingNodeRecords : List (String × List Nat)
  performedInit : Bool

abbrev AdapterM : Type → Type := Method AdapterSig MetastaticAdapter

namespace MetastaticAdapter

/-- All records, in the order of the nested loops. -/
def refs (a : MetastaticAdapter) : List Nat := a.backingNodeRecords.flatMap (·.2)

/-- The records of a label, if it has any. -/
def labelRefs (a : MetastaticAdapter) (label : String) : List Nat :=
  ((a.backingNodeRecords.find? fun entry => entry.1 = label).map (·.2)).getD []

def setRecord (a : MetastaticAdapter) (i : Nat) (bnr : BackingNodeRecord) : MetastaticAdapter :=
  { a with record := Function.update a.record i bnr }

/-- `setdefault(label, []).append(i)` -/
def appendRef (label : String) (i : Nat) : List (String × List Nat) → List (String × List Nat)
  | [] => [(label, [i])]
  | (l, is) :: rest =>
      if l = label then (l, is ++ [i]) :: rest else (l, is) :: appendRef label i rest

def removeRef (label : String) (i : Nat) (records : List (String × List Nat)) :
    List (String × List Nat) :=
  records.map fun entry => if entry.1 = label then (entry.1, entry.2.erase i) else entry

def modifyRecord (i : Nat) (f : BackingNodeRecord → BackingNodeRecord) : AdapterM Unit :=
  assign fun a => a.setRecord i (f (a.record i))

/-- `BackingNodeRecord(label_name, slot_count)` -/
def newRecord (labelName : String) (slotCount : Nat) : AdapterM Nat := do
  let launched ← call .time
  let lastUsed ← call .time
  let a ← self
  assign fun a => { a.setRecord a.objects (.new labelName slotCount launched lastUsed) with
    objects := a.objects + 1 }
  pure a.objects

def addBackingNode (label : String) (i : Nat) : AdapterM Unit :=
  assign fun a => { a with backingNodeRecords := appendRef label i a.backingNodeRecords }

/-- `backing_node_records.remove(bnr)` -/
def removeBackingNode (label : String) (i : Nat) : AdapterM Unit :=
  assign fun a => { a with backingNodeRecords := removeRef label i a.backingNodeRecords }

def allocateSlot (i : Nat) (nodeId : NodeId) (slotId : Option Nat) : AdapterM Nat := do
  let a ← self
  match (a.record i).allocateSlot nodeId slotId with
  | none => throw ()
  | some (bnr, slot) => do
      modifyRecord i fun _ => bnr
      pure slot

variable (provider : Provider)

def myId : String := "NodePool:metastatic:" ++ provider.name

def makeBackingNodeUserData (bnr : BackingNodeRecord) : UserData :=
  ⟨myId provider, bnr.labelName, bnr.slotCount, bnr.failed, bnr.launched⟩

/-- One of the nodes that may be our backing nodes. -/
def findBackingNode (backingNodeMap : List (NodeId × Nat)) (node : NodeData) :
    AdapterM (List (NodeId × Nat)) :=
  match node.userData with
  | none => pure backingNodeMap
  | some userData =>
      if userData.owner ≠ myId provider then pure backingNodeMap
      else do
        let contenders ← call (.getNodeLockContenders node.id)
        if contenders.head? ≠ some (myId provider) then pure backingNodeMap
        else do
          let i ← newRecord userData.label userData.slots
          modifyRecord i fun bnr => { bnr with
            nodeId := some node.id, failed := userData.failed, launched := userData.launched }
          addBackingNode userData.label i
          pure ((node.id, i) :: backingNodeMap)

/-- One of the nodes that may be assigned to a backing node. -/
def assignNode (backingNodeMap : List (NodeId × Nat)) (node : NodeData) : AdapterM Unit :=
  if node.provider ≠ provider.name then pure ()
  else match node.driverData with
    | none => pure ()
    | some data => match data.backingNode.bind fun id => backingNodeMap.lookup id with
      | none => pure ()
      | some i => do
          let _ ← allocateSlot i node.id data.slot
          pure ()

def initInner : AdapterM Unit := do
  let nodes ← call .nodeIterator
  let backingNodeMap ← fold (findBackingNode provider) nodes []
  let nodes ← call .nodeIterator
  forEach nodes (assignNode provider backingNodeMap)
  assign fun a => { a with performedInit := true }

def init : AdapterM Unit := do
  let a ← self
  when (a.performedInit = false) (initInner provider)

/-- One round of the loop of `listResources`. -/
def releaseIfIdle (now : Nat) (label : String) (i : Nat) : AdapterM Unit := do
  modifyRecord i fun bnr => bnr.aged (provider.label bnr.labelName) now
  let a ← self
  when ((a.record i).isIdle (provider.label (a.record i).labelName) now = true) do
    -- in case something goes wrong after this point
    modifyRecord i fun bnr => { bnr with failed := true }
    let node ← call (.getNode (a.record i).nodeId)
    when (node = true) do
      call (.storeNode (a.record i).nodeId (some .used) none)
      call (.forceUnlockNode (a.record i).nodeId)
    removeBackingNode label i

/-- The argument is the time that `time.time()` returns. -/
def listResources (now : Nat) : AdapterM Unit := do
  init provider
  let a ← self
  forEach a.backingNodeRecords fun entry => forEach entry.2 (releaseIfIdle provider now entry.1)

def notifyNodescanFailure (label : String) (externalId : NodeId) : AdapterM Unit := do
  let a ← self
  match (a.labelRefs label).find? fun i => (a.record i).backsNode externalId with
  | none => pure ()
  | some i => do
      modifyRecord i fun bnr => { bnr with failed := true }
      let node ← call (.getNode (a.record i).nodeId)
      raiseIfNone node
      let a ← self
      call (.storeNode (a.record i).nodeId none
        (some (makeBackingNodeUserData provider (a.record i))))

def deallocateBackingNodeInner (nodeId : NodeId) : AdapterM Unit := do
  let a ← self
  match a.refs.find? fun i => (a.record i).backsNode nodeId with
  | none => pure ()
  | some i => do
      let now ← call .time
      modifyRecord i fun bnr => bnr.deallocateSlot nodeId now

def deallocateBackingNode (nodeId : NodeId) : AdapterM Unit := do
  init provider
  deallocateBackingNodeInner nodeId

/-- A record with room for a node, which may be a new one. -/
def findRecord (label : MetastaticLabel) : AdapterM Nat := do
  let a ← self
  match (a.labelRefs label.name).find? fun i => (a.record i).hasAvailableSlot with
  | some i => pure i
  | none => do
      let requestId ← call (.storeNodeRequest label.backingLabel (myId provider))
      let i ← newRecord label.name label.maxParallelJobs
      modifyRecord i fun bnr => { bnr with requestId := some requestId }
      addBackingNode label.name i
      pure i

def allocateBackingNode (label : MetastaticLabel) (nodeId : NodeId) : AdapterM (Nat × Nat) := do
  init provider
  -- in case a request for the same node id is retried
  deallocateBackingNodeInner nodeId
  let i ← findRecord provider label
  let slot ← allocateSlot i nodeId none
  pure (i, slot)

/-- `waiting_requests`; of two records with one request the later one counts. -/
def waitingRequests (a : MetastaticAdapter) : List (String × Nat) :=
  (a.refs.filterMap fun i => (a.record i).requestId.bind fun r =>
    if r ≠ "" then some (r, i) else none).reverse

/-- The records of a request that has failed are dropped. -/
def dropRecords (requestId : String) : AdapterM Unit := do
  let a ← self
  forEach a.backingNodeRecords fun entry => forEach entry.2 fun i => do
    let a ← self
    when ((a.record i).requestId = some requestId) do
      modifyRecord i fun bnr => { bnr with failed := true }
      removeBackingNode entry.1 i

/-- The node of a request that is fulfilled becomes the node of its record. -/
def attachNode (request : BackingRequest) (i : Nat) : AdapterM Unit :=
  match request.nodes with
  | [] => throw ()
  | nodeId :: _ => do
      let node ← call (.getNode (some nodeId))
      raiseIfNone node
      call (.lockNode nodeId (myId provider))
      let a ← self
      call (.storeNode (some nodeId) (some .inUse)
        (some (makeBackingNodeUserData provider (a.record i))))
      call (.deleteNodeRequest request.id)
      modifyRecord i fun bnr => { bnr with requestId := none, nodeId := some nodeId }

/-- One round of the loop of `_checkBackingNodeRequests`. -/
def checkRequest (waitingRequests : List (String × Nat)) (id : String) : AdapterM Unit := do
  let request ← call (.getNodeRequest id)
  match request with
  | none => pure ()
  | some request => match waitingRequests.lookup request.id with
    | none => pure ()
    | some i => do
        when (request.state = .failed) (dropRecords request.id)
        when (request.state = .fulfilled) (attachNode provider request i)

def checkBackingNodeRequests : AdapterM Unit := do
  init provider
  let a ← self
  when (a.waitingRequests ≠ []) do
    let ids ← call .getNodeRequests
    forEach ids (checkRequest provider a.waitingRequests)

end MetastaticAdapter

end Nodepool.Metastatic
