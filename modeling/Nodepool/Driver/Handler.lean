import Nodepool.Zk.Client

/-!
`NodeRequestHandler` of `nodepool/driver/__init__.py`: the part of request
handling that all drivers share. A driver supplies its methods in a `Driver`,
and its own attributes as `δ`.
-/

namespace Nodepool

open Effect Method

/-- The nodes that satisfy the types of a request so far, in the order in which
they were added. -/
structure LabelRecorder where
  data : List (String × Option NodeId)
deriving DecidableEq, Repr

namespace LabelRecorder

def empty : LabelRecorder := ⟨[]⟩

def add (r : LabelRecorder) (label : String) (nodeId : Option NodeId) : LabelRecorder :=
  ⟨r.data ++ [(label, nodeId)]⟩

def labels (r : LabelRecorder) : List String := r.data.map (·.1)

/-- The node of the first entry for a label, which is removed. Without such an
entry the source reads an unbound variable. -/
def pop (r : LabelRecorder) (label : String) : Except Err (Option NodeId × LabelRecorder) :=
  match r.data.find? (·.1 = label) with
  | none => .error .other
  | some (_, none) => .ok (none, r)
  | some (_, some id) => .ok (some id, ⟨r.data.erase (label, some id)⟩)

def removeNode (r : LabelRecorder) (id : Option NodeId) : LabelRecorder :=
  ⟨r.data.eraseP (·.2 = id)⟩

end LabelRecorder

structure Handler (δ : Type) where
  request : NodeRequest
  /-- `request.lock` is not `None` -/
  requestLock : Bool
  /-- `request._thread_lock` is locked -/
  requestThreadLock : Bool
  launcherId : String
  nodeset : List NodeRef
  done : Bool
  paused : Bool
  satisfiedTypes : LabelRecorder
  failedNodes : List NodeRef
  readyNodes : List NodeRef
  /-- `provider`, once it has been set -/
  provider : Option (Option ProviderConfig)
  /-- `pool`, once it has been set -/
  pool : Option (Option PoolConfig)
  driver : δ

/-- Methods of a request handler. -/
abbrev HandlerM (δ : Type) : Type → Type := LauncherM (Handler δ)

/-- What a driver implements or overrides. -/
structure Driver (δ : Type) where
  imagesAvailable : HandlerM δ Bool
  hasProviderQuota : List String → HandlerM δ Bool
  hasRemainingQuota : String → HandlerM δ Bool
  checkReusableNode : NodeRef → HandlerM δ Bool
  nodeReusedNotification : NodeRef → HandlerM δ Unit
  setNodeMetadata : NodeRef → HandlerM δ Unit
  launch : NodeRef → HandlerM δ Unit
  launchesComplete : HandlerM δ Bool

/-- `requested - saved` as a multiset, listed by first occurrence. -/
def neededTypes (requested saved : List String) : List String :=
  requested.eraseDups.flatMap fun t => List.replicate (requested.count t - saved.count t) t

/-- The requestor of requests that keep `min-ready` nodes on standby. -/
def minReadyRequestor : String := "NodePool:min-ready"

namespace Handler

variable {δ : Type}

/-- `NodeRequestHandler(pw, request)` for a request that the caller has locked. -/
def init (launcherId : String) (request : NodeRequest) (driver : δ) : Handler δ where
  request := request
  requestLock := true
  requestThreadLock := true
  launcherId := launcherId
  nodeset := []
  done := false
  paused := false
  satisfiedTypes := .empty
  failedNodes := []
  readyNodes := []
  provider := none
  pool := none
  driver := driver

def setState (h : Handler δ) (s : RequestState) : Handler δ :=
  { h with request := { h.request with state := s } }

/-- Technically, the check whether the pool has declined already should not be
necessary. -/
def addDeclinedBy (h : Handler δ) : Handler δ :=
  if h.launcherId ∈ h.request.declinedBy then h
  else { h with request :=
    { h.request with declinedBy := h.request.declinedBy ++ [h.launcherId] } }

/-- A node of the node set satisfies one requested type. -/
def addNode (h : Handler δ) (o : NodeRef) (ntype : String) (id : Option NodeId) : Handler δ :=
  { h with nodeset := h.nodeset ++ [o], satisfiedTypes := h.satisfiedTypes.add ntype id }

end Handler

namespace NodeRequestHandler

variable {δ : Type}

/-! ### Node requests -/

/-- `storeNodeRequest` of the handler's request, which has an identifier. -/
def storeNodeRequest : HandlerM δ Unit := do
  let h ← self
  let stored ← ZooKeeper.getNodeRequest h.request.id
  if stored = none then throw .other
  else call (.setRequest h.request.id h.request)

def unlockNodeRequest : HandlerM δ Unit := do
  let h ← self
  raiseUnless h.requestLock .zkLock
  call (.releaseRequestLock h.request.id)
  assign fun h => { h with requestLock := false }
  assign fun h => { h with requestThreadLock := false }

/-! ### Configuration -/

def setFromPoolWorker : HandlerM δ Unit := do
  let provider ← call .getProviderConfig
  assign fun h => { h with provider := some provider }
  let pool ← call .getPoolConfig
  assign fun h => { h with pool := some pool }

/-- `self.provider`; reading an attribute of `None` raises. -/
def provider : HandlerM δ ProviderConfig := do
  let h ← self
  match h.provider with
  | some (some p) => pure p
  | _ => throw .other

/-- `self.pool` -/
def pool : HandlerM δ PoolConfig := do
  let h ← self
  match h.pool with
  | some (some p) => pure p
  | _ => throw .other

/-! ### Declining -/

def clearNodeAllocation (o : NodeRef) : HandlerM δ Unit := do
  call (.assignNode o (.allocatedTo none))
  tryCatch (ZooKeeper.storeNode o) fun _ => call (.log "Error clearing node allocation of node")

/-- Unlock one node of the node set; errors are logged and passed over. -/
def unlockNodeOfSet (clearAllocation : Bool) (o : NodeRef) : HandlerM δ Unit := do
  let object ← call (.readNode o)
  if object.lock then do
    when clearAllocation (clearNodeAllocation o)
    tryCatch (ZooKeeper.unlockNode o) fun _ => call (.log "Error unlocking node")
  else pure ()

def unlockNodeSet (clearAllocation : Bool) : HandlerM δ Unit := do
  let h ← self
  forEach h.nodeset (unlockNodeOfSet clearAllocation)
  assign fun h => { h with nodeset := [] }

/-- `_declineRequest` -/
def declineLocally : HandlerM δ Unit := do
  assign Handler.addDeclinedBy
  let pools ← call .getRegisteredPools
  let h ← self
  if pools.map (·.id) ⊆ h.request.declinedBy then
    -- all launcher pools have declined it
    assign (·.setState .failed)
  else assign (·.setState .requested)

/-- `_declinedHandlerCleanup` -/
def declinedHandlerCleanup : HandlerM δ Unit := do
  unlockNodeSet true
  assign fun h => { h with paused := false }
  tryCatch (do
      storeNodeRequest
      unlockNodeRequest)
    fun _ => call (.log "Unable to modify missing request")
  assign fun h => { h with done := true }

def declineRequest : HandlerM δ Unit := do
  declineLocally
  declinedHandlerCleanup

/-! ### Filling the node set -/

variable (D : Driver δ)

/-- Allocate a node that has just been locked, and take it into the node set. -/
def useReadyNode (ntype : String) (o : NodeRef) : HandlerM δ Unit := do
  assign fun h => { h with paused := false }
  let h ← self
  call (.assignNode o (.allocatedTo (some h.request.id)))
  call (.assignNode o (.tenantName h.request.tenantName))
  call (.assignNode o (.requestor h.request.requestor))
  ZooKeeper.storeNode o
  let object ← call (.readNode o)
  assign (·.addNode o ntype object.id)
  D.nodeReusedNotification o

/-- Try one node of the cached list; `false` means try the next one. -/
def tryReadyNode (ntype : String) (o : NodeRef) : HandlerM δ Bool := do
  let provider ← provider
  let pool ← pool
  let object ← call (.readNode o)
  -- only interested in nodes from this provider and pool, and the cache may
  -- already show that the node is locked
  if object.node.provider ≠ some provider.name then pure false
  else if object.node.pool ≠ some pool.name then pure false
  else if object.lockContenders then pure false
  else do
    let reusable ← D.checkReusableNode o
    if reusable then do
      let locked ← attempt (ZooKeeper.lockNode o)
      match locked with
      | .error .zkLock => pure false
      | .error e => throw e
      | .ok () => do
          -- the node is read again with the lock held
          let object ← call (.readNode o)
          if object.node.state ≠ .ready then do
            ZooKeeper.unlockNode o
            pure false
          else if truthy object.node.allocatedTo then do
            ZooKeeper.unlockNode o
            pure false
          else do
            useReadyNode D ntype o
            pure true
    else pure false

/-- Try to grab one of the nodes that are already available. -/
def grabReadyNode (ntype : String) : List NodeRef → HandlerM δ Bool
  | [] => pure false
  | o :: os => do
      let got ← tryReadyNode D ntype o
      if got then pure true else grabReadyNode ntype os

/-- The node record of a new node, before the driver adds its metadata. -/
def newNode (h : Handler δ) (provider : ProviderConfig) (pool : PoolConfig) (ntype : String)
    (now : Nat) : Node where
  state := .init
  stateTime := now
  type := [ntype]
  provider := some provider.name
  pool := some pool.name
  launcher := some h.launcherId
  allocatedTo := some h.request.id
  tenantName := h.request.tenantName
  requestor := h.request.requestor
  resources := none
  externalId := none

def launchNewNode (ntype : String) : HandlerM δ Unit := do
  assign fun h => { h with paused := false }
  let provider ← provider
  let pool ← pool
  let now ← call .time
  let h ← self
  let o ← call (.newNode (newNode h provider pool ntype now))
  D.setNodeMetadata o
  -- nodes in INIT state are not locked anywhere, so the lock may come after
  ZooKeeper.storeNode o
  ZooKeeper.lockNode o
  -- the state comes after the lock: unlocked BUILDING nodes are deleted
  ZooKeeper.assignState o .building
  ZooKeeper.storeNode o
  let object ← call (.readNode o)
  assign (·.addNode o ntype object.id)
  D.launch o

/-- There is not enough quota for another node. -/
def atQuota : HandlerM δ Unit := do
  let h ← self
  if h.request.requestor = some minReadyRequestor then declineRequest
  else do
    let provider ← provider
    let pool ← pool
    let _ ← ZooKeeper.deleteOldestUnusedNode provider.name pool.name
    let pauseAtQuota ← call .pauseAtQuota
    if pauseAtQuota then assign fun h => { h with paused := true }
    else declinedHandlerCleanup

/-- The loop of `_waitForNodeSet` over the needed types. -/
def fillNodeSet (readyNodes : Dict String (List NodeRef)) : List String → HandlerM δ Unit
  | [] => pure ()
  | ntype :: ntypes => do
      let h ← self
      let gotANode ← grabReadyNode D ntype (if h.request.reuse then readyNodes.get ntype [] else [])
      if gotANode then fillNodeSet readyNodes ntypes
      else do
        let remaining ← D.hasRemainingQuota ntype
        if remaining then do
          launchNewNode D ntype
          fillNodeSet readyNodes ntypes
        else atQuota

/-- `_waitForNodeSet` -/
def waitForNodeSet : HandlerM δ Unit := do
  let h ← self
  let needed := neededTypes h.request.nodeTypes h.satisfiedTypes.labels
  if h.request.reuse then do
    let readyNodes ← call (.getReadyNodesOfTypes needed)
    fillNodeSet D readyNodes needed
  else fillNodeSet D ∅ needed

/-! ### Running -/

/-- `_invalidNodeTypes` -/
def invalidNodeTypes : HandlerM δ (List String) := do
  let provider ← provider
  let _ ← pool
  let errorLabels ← call .errorLabels
  let h ← self
  pure (h.request.nodeTypes.filter fun t => t ∉ provider.supportedLabels ∨ t ∈ errorLabels)

/-- A reason to decline a request. -/
inductive DeclinedReason where
  | disabled
  | invalidTypes (types : List String)
  | imagesNotAvailable
  | exceedsQuota
deriving DecidableEq, Repr

def getDeclinedReasons : HandlerM δ (List DeclinedReason) := do
  let h ← self
  when (h.provider = none) setFromPoolWorker
  let invalid ← invalidNodeTypes
  let pool ← pool
  let h ← self
  if pool.maxServers.isNonPositive then pure [.disabled]
  else if invalid ≠ [] then pure [.invalidTypes invalid]
  else do
    let available ← D.imagesAvailable
    if available then do
      let quota ← D.hasProviderQuota h.request.nodeTypes
      if quota then pure [] else pure [.exceedsQuota]
    else pure [.imagesNotAvailable]

def acceptRequest : HandlerM δ Unit := do
  assign (·.setState .pending)
  storeNodeRequest

/-- `_runHandler` -/
def runHandler : HandlerM δ Unit := do
  setFromPoolWorker
  let _ ← provider
  let _ ← pool
  let reasons ← getDeclinedReasons D
  if reasons ≠ [] then declineRequest
  else do
    let h ← self
    when (¬ h.paused) acceptRequest
    waitForNodeSet D

/-- Execute node request handling. The node set is kept and added to between calls. -/
def run : HandlerM δ Unit :=
  tryCatch (runHandler D) fun _ => do
    call (.log "Declining node request due to exception in NodeRequestHandler")
    declineRequest

/-! ### Polling -/

/-- Sort a node whose launch is complete; the result is whether it was aborted. -/
def classifyNode (o : NodeRef) : HandlerM δ Bool := do
  let object ← call (.readNode o)
  if object.node.state = .ready then do
    assign fun h => { h with readyNodes := h.readyNodes ++ [o] }
    pure false
  else if object.node.state = .aborted then do
    assign fun h => { h with nodeset := h.nodeset.erase o }
    ZooKeeper.unlockNode o
    pure true
  else do
    assign fun h => { h with failedNodes := h.failedNodes ++ [o] }
    pure false

/-- The aborted nodes, which are unlocked so that they get cleaned up. -/
def classifyNodes : List NodeRef → HandlerM δ (List NodeRef)
  | [] => pure []
  | o :: os => do
      let aborted ← classifyNode o
      let rest ← classifyNodes os
      pure (if aborted then o :: rest else rest)

/-- The request is gone: unallocate the node set so other requests can use it. -/
def requestDisappeared : HandlerM δ Unit := do
  unlockNodeSet true
  tryCatch unlockNodeRequest fun e => if e = .zkLock then pure () else throw e

/-- Aborted nodes have to be created again. -/
def removeAborted (o : NodeRef) : HandlerM δ Unit := do
  let object ← call (.readNode o)
  assign fun h => { h with satisfiedTypes := h.satisfiedTypes.removeNode object.id }

/-- The node for one requested type. -/
def assignNodeToType (ntype : String) : HandlerM δ Unit := do
  let h ← self
  match h.satisfiedTypes.pop ntype with
  | .error e => throw e
  | .ok (id, rest) =>
      assign fun h => { h with
        satisfiedTypes := rest
        request := { h.request with nodes := h.request.nodes ++ [id] } }

/-- The nodes are added to the request in the order in which they were requested. -/
def fulfil : HandlerM δ Unit := do
  let h ← self
  forEach h.request.nodeTypes assignNodeToType
  assign (·.setState .fulfilled)

/-- Give the request back. -/
def finishPoll : HandlerM δ Bool := do
  unlockNodeSet false
  storeNodeRequest
  unlockNodeRequest
  pure true

/-- The part of `poll` that follows when all launches are complete. -/
def pollComplete : HandlerM δ Bool := do
  let h ← self
  let aborted ← classifyNodes h.nodeset
  let stored ← ZooKeeper.getNodeRequest h.request.id
  if stored = none then do
    requestDisappeared
    pure true
  else do
    let h ← self
    if h.failedNodes ≠ [] then do
      declineLocally
      finishPoll
    else if aborted ≠ [] then do
      forEach aborted removeAborted
      assign fun h => { h with paused := true }
      pure false
    else do
      fulfil
      finishPoll

def poll : HandlerM δ Bool := do
  let h ← self
  if h.paused then pure false
  else if h.done then pure true
  else do
    let complete ← D.launchesComplete
    if complete then pollComplete else pure false

end NodeRequestHandler

end Nodepool
