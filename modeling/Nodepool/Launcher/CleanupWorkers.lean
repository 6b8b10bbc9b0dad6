import Nodepool.Zk.Client

/-!
`CleanupWorker` and `DeletedNodeWorker` of `nodepool/launcher.py`: the periodic tasks that
clean up after requests and nodes.
-/

namespace Nodepool

open Effect Method

variable {σ : Type}

namespace ZooKeeper

/-- `lockNodeRequest` without blocking. The object is refreshed, and nobody reads it again. -/
def lockNodeRequest (id : String) : LauncherM σ Unit := do
  let haveLock ← tryCatch (call (.acquireRequestLock id)) fun e =>
    if e = .lockTimeout then throw .timeout
    else if e = .noNode then pure false
    else throw e
  raiseUnless haveLock .zkLock
  let _ ← call (.getRequest id)
  pure ()

/-- `storeNodeRequest` of a request that has an identifier: it must still exist. -/
def storeNodeRequest (id : String) (data : NodeRequest) : LauncherM σ Unit := do
  let stored ← getNodeRequest id
  if stored = none then throw .other
  else call (.setRequest id data)

/-- `deleteNode`: the state is set first, so that others can detect the race between the
deletion of the lock and of the node. -/
def deleteNode (o : NodeRef) : LauncherM σ Unit := do
  let object ← call (.readNode o)
  match object.id with
  | none => pure ()
  | some id => do
      assignState o .deleted
      call (.setNode o)
      call (.deleteRawNode id)
      let object ← call (.readNode o)
      when (object.threadLock = true) (call (.releaseThreadLock o))

end ZooKeeper

/-- `try: lockNode(node, blocking=False)`, with what follows it under `else` -/
def ifLocked (o : NodeRef) (body : LauncherM σ Unit) : LauncherM σ Unit := do
  let locked ← attempt (ZooKeeper.lockNode o)
  match locked with
  | .error .zkLock => pure ()
  | .error e => throw e
  | .ok () => body

/-- `node.provider in self._nodepool.config.providers` -/
def isConfigured (providers : List String) (node : Node) : Bool :=
  node.provider.any (· ∈ providers)

namespace CleanupWorker

/-- `LOCK_CLEANUP`, in seconds. -/
def lockCleanup : Nat := 8 * 60 * 60

/-- Remove request locks where the request no longer exists. -/
def cleanupNodeRequestLocks : LauncherM σ Unit := do
  let requests ← call .getNodeRequestIds
  let now ← call .time
  let locks ← call .requestLockStats
  forEach locks fun lock =>
    -- `lock_stat.stat.mtime` is in milliseconds
    when (lock.1 ∉ requests ∧ 1000 * lockCleanup + lock.2 < 1000 * now)
      (call (.deleteRequestLock lock.1))

def cleanupLeakedInstances : LauncherM σ Unit := do
  let providers ← call .configuredProviders
  forEach providers fun provider =>
    tryCatch (call (.cleanupLeakedResources provider)) fun _ =>
      call (.log "Failure during resource cleanup for provider")

/-- The deallocation of one node of a lost request; the result is whether to go on. -/
def deallocateLost (requestId : String) (o : NodeRef) : LauncherM σ Bool := do
  let object ← call (.readNode o)
  if object.node.allocatedTo ≠ some requestId then pure true
  else do
    let locked ← attempt (ZooKeeper.lockNode o)
    match locked with
    | .error .zkLock => do
        call (.log "Unable to grab lock to deallocate node from request")
        pure false
    | .error e => throw e
    | .ok () => do
        let object ← call (.readNode o)
        -- make sure the state didn't change on us
        if object.node.allocatedTo ≠ some requestId then ZooKeeper.unlockNode o
        else do
          -- the launcher was interrupted between creating the node and locking it
          when (object.node.state = .init) (ZooKeeper.assignState o .deleting)
          call (.assignNode o (.allocatedTo none))
          tryCatch (ZooKeeper.storeNode o) fun _ =>
            call (.log "Unable to deallocate node from request")
          ZooKeeper.unlockNode o
        pure true

def deallocateAllLost (requestId : String) : List NodeRef → LauncherM σ Bool
  | [] => pure true
  | o :: os => do
      let goOn ← deallocateLost requestId o
      if goOn then deallocateAllLost requestId os else pure false

/-- Reset the request state and deallocate nodes. -/
def resetLostRequest (requestId : String) : LauncherM σ Unit := do
  let request ← ZooKeeper.getNodeRequest requestId
  match request with
  -- `req.state` of `None`
  | none => throw .other
  | some request =>
      when (request.state = .pending) do
        let nodes ← call .nodeIterator
        let finished ← deallocateAllLost requestId nodes
        when (finished = true)
          (ZooKeeper.storeNodeRequest requestId { request with state := .requested, nodes := [] })

/-- Look for lost requests and reset them. -/
def cleanupLostRequests : LauncherM σ Unit := do
  let requests ← call .getNodeRequestIds
  forEach requests fun id => do
    let request ← ZooKeeper.getNodeRequest id
    when (request.any (·.state = .pending)) do
      let locked ← attempt (ZooKeeper.lockNodeRequest id)
      match locked with
      | .error .zkLock => pure ()
      | .error e => throw e
      | .ok () => do
          tryCatch (resetLostRequest id) fun _ => call (.log "Error resetting lost request")
          call (.releaseRequestLock id)

/-- Mark a node for deletion that has been in a state for too long. -/
def deleteAged (state : NodeState) (o : NodeRef) : LauncherM σ Unit :=
  ifLocked o do
    let object ← call (.readNode o)
    -- double check the state now that we have a lock
    if object.node.state ≠ state then ZooKeeper.unlockNode o
    else do
      tryCatch (do
          ZooKeeper.assignState o .deleting
          ZooKeeper.storeNode o)
        fun _ => call (.log "Failure marking aged node for delete")
      ZooKeeper.unlockNode o

/-- Delete any server past its max-ready-age; the labels are visited in the order of the
configuration. -/
def cleanupMaxReadyAge : LauncherM σ Unit := do
  let labels ← call .labelMaxReadyAges
  let aged := labels.filter (0 < ·.2)
  let readyNodes ← call (.getReadyNodesOfTypes (aged.map (·.1)))
  forEach aged fun label =>
    forEach (readyNodes.get label.1 []) fun o => do
      let object ← call (.readNode o)
      let providers ← call .configuredProviders
      when (isConfigured providers object.node = true) do
        let now ← call .time
        when (object.node.stateTime + label.2 ≤ now) (deleteAged .ready o)

/-- How long a node may be held; `none` is for ever. -/
def maxUptime (holdExpiration maxHoldAge : Option Nat) : Option Nat :=
  match holdExpiration.filter (0 < ·), maxHoldAge with
  | some e, some m => some (min e m)
  | some e, none => some e
  | none, m => m

/-- Delete any held server past its max-hold-age. -/
def cleanupMaxHoldAge : LauncherM σ Unit := do
  let nodes ← call .nodeIterator
  let held ← gather nodes fun o => do
    let object ← call (.readNode o)
    pure (if object.node.state = .hold then [o] else [])
  forEach held fun o => do
    let object ← call (.readNode o)
    let providers ← call .configuredProviders
    when (isConfigured providers object.node = true) do
      let expiration ← call (.holdExpiration o)
      let maxAge ← call .maxHoldAge
      match maxUptime expiration maxAge with
      | none => pure ()
      | some uptime => do
          let now ← call .time
          when (object.node.stateTime + uptime ≤ now) (deleteAged .hold o)

/-- Remove any nodes that may be totally empty. -/
def cleanupEmptyNodes : LauncherM σ Unit := do
  -- an iterator over the nodes does not come to empty ones
  let ids ← call .getNodes
  forEach ids fun id => do
    let node ← call (.getNode id)
    when (node = none) (call (.deleteRawNode id))

/-- `self._tasks` -/
def tasks : List (LauncherM σ Unit) :=
  [cleanupNodeRequestLocks, cleanupLeakedInstances, cleanupLostRequests, cleanupMaxReadyAge,
    cleanupMaxHoldAge, cleanupEmptyNodes]

/-- `_run` -/
def runTasks : LauncherM σ Unit :=
  forEach tasks fun task => tryCatch task fun _ => call (.log "Exception in CleanupWorker")

end CleanupWorker

namespace DeletedNodeWorker

/-- A node in one of these states can be deleted if it is not locked. -/
def cleanupStates : List NodeState :=
  [.used, .inUse, .building, .failed, .deleting, .deleted, .aborted]

def deleteInstance (o : NodeRef) : LauncherM σ Unit :=
  tryCatch (call (.startNodeCleanup o)) fun _ => call (.log "Could not delete instance on provider")

/-- The request that a node is allocated to is missing. -/
def isLost (o : NodeRef) : LauncherM σ Bool := do
  let object ← call (.readNode o)
  match object.node.allocatedTo with
  | none => pure false
  | some requestId =>
      if object.node.state = .ready ∧ truthy object.node.allocatedTo then do
        let request ← ZooKeeper.getNodeRequest requestId
        pure request.isNone
      else pure false

/-- Deallocate a ready node whose request is missing. -/
def deallocateNode (o : NodeRef) : LauncherM σ Unit := do
  let lost ← isLost o
  when (lost = true) (ifLocked o do
    let stillLost ← isLost o
    when (stillLost = true) do
      call (.assignNode o (.allocatedTo none))
      tryCatch (ZooKeeper.storeNode o) fun _ =>
        call (.log "Failed to deallocate node for missing request")
    ZooKeeper.unlockNode o)

/-- The node was deleted out from under us, and its lock before it. -/
def deleteRemains (o : NodeRef) : LauncherM σ Unit :=
  tryCatch (ZooKeeper.deleteNode o) fun _ => do
    call (.log "Error deleting already deleted znode")
    tryCatch (ZooKeeper.unlockNode o) fun _ => call (.log "Error unlocking already deleted znode")

/-- Hand a node in one of the cleanup states to a deleter, which unlocks it. -/
def deleteNode (o : NodeRef) : LauncherM σ Unit :=
  ifLocked o do
    let object ← call (.readNode o)
    if object.node.state = .deleted ∨ object.node.provider = none then deleteRemains o
    -- double check the state now that we have a lock
    else if object.node.state ∉ cleanupStates then ZooKeeper.unlockNode o
    else deleteInstance o

def cleanupNode (o : NodeRef) : LauncherM σ Unit := do
  let object ← call (.readNode o)
  let providers ← call .configuredProviders
  when (isConfigured providers object.node = true ∧ object.lockContenders = false) do
    deallocateNode o
    let object ← call (.readNode o)
    when (object.node.state ∈ cleanupStates) (deleteNode o)

def cleanupNodes : LauncherM σ Unit := do
  let nodes ← call .nodeIterator
  forEach nodes cleanupNode

/-- `_run` -/
def runCleanup : LauncherM σ Unit :=
  tryCatch cleanupNodes fun _ => call (.log "Exception in DeletedNodeWorker")

end DeletedNodeWorker

end Nodepool
