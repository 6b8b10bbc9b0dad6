import Nodepool.Zk.Client

/-!
`StateMachineNodeLauncher` of `nodepool/driver/statemachine.py`: the launch of one
node, over attributes that the thread pool, the runner of the state machines and
the request handler share.
-/

namespace Nodepool

open Effect Method

namespace StateMachineNodeLauncher

variable {σ : Type}

/-- `StateMachineNodeLauncher(handler, node, provider_config)` -/
def init (handler : Nat) (node : NodeRef) (providerName poolName : String) (retries : Nat) :
    NodeLauncher where
  node := node
  handler := handler
  providerName := providerName
  poolName := poolName
  attempts := 0
  retries := retries
  startFuture := false
  startTime := none
  stateMachine := none
  nodescanRequest := none
  deleteStateMachine := none

/-- The external id of the image of a label: for a disk image that of its most
recent upload, for an image in the cloud none. -/
def imageExternalId (providerName : String) (label : PoolLabel) : LauncherM σ (Option String) :=
  match label.diskimage with
  | none => pure none
  | some diskimage => do
      let image ← call (.getMostRecentImageUpload diskimage providerName)
      match image with
      | none => throw .other
      | some (_, upload) => pure upload.externalId

/-- `startStateMachine`. The attributes of the image that are copied to the node
(user name, ports) are left out. -/
def startStateMachine (l : Nat) : LauncherM σ Unit := do
  let launcher ← call (.readLauncher l)
  let object ← call (.readNode launcher.node)
  let label ← call (.poolLabel launcher.poolName (object.node.type.headD ""))
  let image ← imageExternalId launcher.providerName label
  let quota ← call (.quotaNeededByLabel label.name launcher.poolName)
  call (.assignNode launcher.node (.resources quota.compute))
  ZooKeeper.storeNode launcher.node
  let object ← call (.readNode launcher.node)
  match object.id with
  | none => throw .other  -- the host name cannot be made without a number
  | some id => do
      let machine ← call (.getCreateStateMachine l ("np" ++ sequenceName id) label.name image
        { Metadata.empty with
          nodeId := some (sequenceName id)
          poolName := some launcher.poolName
          providerName := some launcher.providerName })
      call (.assignLauncher l (.stateMachine (some machine)))

/-- Start the launch of the node, or start it again for another attempt. -/
def launch (l : Nat) : LauncherM σ Unit := do
  let launcher ← call (.readLauncher l)
  call (.assignLauncher l (.attempts (launcher.attempts + 1)))
  if launcher.attempts = 0 then do
    -- the first attempt is left to the thread pool, so that the node is stored
    -- asynchronously
    call (.submitStart l)
    call (.assignLauncher l (.startFuture true))
  else startStateMachine l

/-- The values that `updateNodeFromInstance` stores. The connection data that it also
copies is left out. -/
def updateNodeFromInstance (l : Nat) : Option Instance → LauncherM σ Unit
  | none => pure ()
  | some server => do
      let launcher ← call (.readLauncher l)
      call (.assignNode launcher.node (.externalId server.externalId))
      let quota ← call (.getQuotaInformation server)
      call (.assignNode launcher.node (.resources quota.compute))
      ZooKeeper.storeNode launcher.node

/-- Advance the delete state machine of the attempt before; `true` if there is no
delete work to do. -/
def advanceDeleteStateMachine (l : Nat) (machine : StateMachine) : LauncherM σ Bool := do
  if truthy machine.externalId then do
    let advanced ← call (.advanceDelete l)
    match advanced with
    -- in the call in which the machine completes there is still work to do
    | (.ok (), _) => pure false
    | (.error .notFound, _) => do
        call (.log "Instance not found in provider")
        call (.assignLauncher l (.deleteStateMachine none))
        pure true
    | (.error _, machine) => do
        call (.log "Error in launch-delete state machine")
        -- keep trying, to avoid having two servers for the same node id
        let again ← call (.getDeleteStateMachine machine.externalId)
        call (.assignLauncher l (.deleteStateMachine (some again)))
        pure false
  else do
    call (.assignLauncher l (.deleteStateMachine none))
    pure true

def runDeleteStateMachine (l : Nat) : LauncherM σ Bool := do
  let launcher ← call (.readLauncher l)
  match launcher.deleteStateMachine with
  | none => pure true
  | some machine =>
      if machine.complete then do
        call (.assignLauncher l (.deleteStateMachine none))
        pure true
      else advanceDeleteStateMachine l machine

/-- `raise` what a state machine raised. -/
def ofOutcome {α : Type} : Except Err α → LauncherM σ α
  | .ok a => pure a
  | .error e => throw e

/-- The machine is complete: store what is known of its instance, and scan its keys. -/
def submitNodescan (l : Nat) (server : Option Instance) : LauncherM σ Unit := do
  updateNodeFromInstance l server
  let launcher ← call (.readLauncher l)
  let object ← call (.readNode launcher.node)
  let _ ← call (.poolLabel launcher.poolName (object.node.type.headD ""))
  let r ← call (.newNodescanRequest launcher.node)
  call (.assignLauncher l (.nodescanRequest (some r)))
  call (.addNodescanRequest r)

def advanceCreateStateMachine (l : Nat) : LauncherM σ Unit := do
  let (outcome, machine) ← call (.advanceCreate l)
  let server ← ofOutcome outcome
  let launcher ← call (.readLauncher l)
  let object ← call (.readNode launcher.node)
  when (¬ truthy object.node.externalId ∧ truthy machine.externalId) (do
    call (.assignNode launcher.node (.externalId machine.externalId))
    ZooKeeper.storeNode launcher.node)
  when (machine.complete ∧ launcher.nodescanRequest = none) (submitNodescan l server)

/-- The keys have been scanned, and the node is ready. -/
def finishLaunch (l r : Nat) : LauncherM σ Unit := do
  tryCatch (call (.nodescanResult r)) fun _ => do
    call (.log "Exception scanning keys")
    throw .launchKeyscan
  let launcher ← call (.readLauncher l)
  ZooKeeper.assignState launcher.node .ready
  ZooKeeper.storeNode launcher.node

/-- `state_machine.complete and self.nodescan_request and
self.nodescan_request.complete`: the request, if all that holds. -/
def finishedNodescan (machine : StateMachine) : Option Nat → LauncherM σ (Option Nat)
  | none => pure none
  | some r =>
      if machine.complete then do
        let complete ← call (.nodescanComplete r)
        pure (if complete then some r else none)
      else pure none

/-- One pass with a create state machine. -/
def runCreateStateMachine (l : Nat) (machine : StateMachine) : LauncherM σ Unit := do
  let launcher ← call (.readLauncher l)
  when (launcher.startTime = none) (do
    let now ← call .time
    call (.assignLauncher l (.startTime (some now))))
  let scanned ← finishedNodescan machine launcher.nodescanRequest
  match scanned with
  | some r => finishLaunch l r
  | none => do
      let now ← call .time
      let timeout ← call .launchTimeout
      raiseUnless (now - machine.startTime ≤ timeout) .timeout
      let unwound ← runDeleteStateMachine l
      when unwound (advanceCreateStateMachine l)

/-- There is no machine yet: look whether the first launch is over, and raise what it
raised. -/
def awaitStart (l : Nat) : LauncherM σ Unit := do
  let done ← call (.startFutureDone l)
  when done (do
    call (.startFutureResult l)
    let launcher ← call (.readLauncher l)
    match launcher.stateMachine with
    | some machine => runCreateStateMachine l machine
    | none => throw .other)

/-- The body of the `try` statement of `runStateMachine`. -/
def tryStateMachine (l : Nat) : LauncherM σ Unit := do
  let launcher ← call (.readLauncher l)
  match launcher.stateMachine with
  | some machine => runCreateStateMachine l machine
  | none => when launcher.startFuture (awaitStart l)

def removeNodescanRequest (l : Nat) : LauncherM σ Unit := do
  let launcher ← call (.readLauncher l)
  call (.removeNodescanRequest launcher.nodescanRequest)
  call (.assignLauncher l (.nodescanRequest none))

/-- `if self.state_machine: node.external_id = self.state_machine.external_id` -/
def assignExternalId (l : Nat) : LauncherM σ Unit := do
  let launcher ← call (.readLauncher l)
  match launcher.stateMachine with
  | none => pure ()
  | some machine => call (.assignNode launcher.node (.externalId machine.externalId))

/-- `except kze.SessionExpiredError`: the node lock is gone. -/
def lostSession (l : Nat) : LauncherM σ Unit := do
  call (.log "Lost ZooKeeper session trying to launch for node")
  let launcher ← call (.readLauncher l)
  ZooKeeper.assignState launcher.node .failed
  assignExternalId l
  removeNodescanRequest l

/-- `except exceptions.QuotaException` -/
def abortLaunch (l : Nat) : LauncherM σ Unit := do
  call (.log "Aborting node due to quota failure")
  let launcher ← call (.readLauncher l)
  ZooKeeper.assignState launcher.node .aborted
  assignExternalId l
  ZooKeeper.storeNode launcher.node
  call .invalidateQuotaCache
  removeNodescanRequest l

/-- Tell the adapter that the keys could not be scanned, and log the console. -/
def reportKeyscan (l : Nat) : LauncherM σ Unit :=
  tryCatch (do
      let launcher ← call (.readLauncher l)
      let object ← call (.readNode launcher.node)
      let label ← call (.poolLabel launcher.poolName (object.node.type.headD ""))
      call (.notifyNodescanFailure label object.node.externalId)
      call (.getConsoleLog label object.node.externalId))
    fun _ => call (.log "Exception while logging console")

/-- Store the external id that the failed machine has reported, if any. -/
def storeExternalId (l : Nat) : LauncherM σ Unit := do
  let launcher ← call (.readLauncher l)
  match launcher.stateMachine with
  | none => pure ()
  | some machine =>
      when (truthy machine.externalId) (do
        call (.assignNode launcher.node (.externalId machine.externalId))
        ZooKeeper.storeNode launcher.node)

/-- Delete what has been done so far, and launch once more. -/
def retryLaunch (l : Nat) : LauncherM σ Unit := do
  let launcher ← call (.readLauncher l)
  let object ← call (.readNode launcher.node)
  let machine ← call (.getDeleteStateMachine object.node.externalId)
  call (.assignLauncher l (.deleteStateMachine (some machine)))
  launch l

/-- `except Exception` -/
def failAttempt (l : Nat) (e : Err) : LauncherM σ Unit := do
  call (.log "Launch attempt failed")
  storeExternalId l
  when (e = .launchKeyscan) (reportKeyscan l)
  removeNodescanRequest l
  let launcher ← call (.readLauncher l)
  if launcher.retries ≤ launcher.attempts then
    ZooKeeper.assignState launcher.node .failed
  else retryLaunch l

/-- `runStateMachine`, without the statistics. -/
def runStateMachine (l : Nat) : LauncherM σ Unit :=
  tryCatch (tryStateMachine l) fun e =>
    match e with
    | .sessionExpired => lostSession l
    | .quota => abortLaunch l
    | e => failAttempt l e

/-- `complete`: the node is not being built any more. -/
def complete (l : Nat) : LauncherM σ Bool := do
  let launcher ← call (.readLauncher l)
  let object ← call (.readNode launcher.node)
  pure (object.node.state ≠ .building)

end StateMachineNodeLauncher

namespace StateMachineProvider

variable {σ : Type}

/-- What `_runStateMachines` does with one launcher in a round. -/
def runLauncher (l : Nat) : LauncherM σ Unit :=
  tryCatch (do
      StateMachineNodeLauncher.runStateMachine l
      let complete ← StateMachineNodeLauncher.complete l
      when complete (call (.removeLauncher l)))
    fun _ => call (.log "Error running create state machine")

end StateMachineProvider

end Nodepool
