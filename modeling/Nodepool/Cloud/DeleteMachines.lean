import Nodepool.Zk.Client

/-!
The delete state machines of the AWS and Azure adapters (`nodepool/driver/aws/adapter.py`
and `nodepool/driver/azure/adapter.py`), with the adapter methods that look up what is
to be deleted in a cached listing.
-/

namespace Nodepool

open Effect Method

variable {σ : Type}

/-- `lower` of a text without letters beyond ASCII -/
def lower (text : String) : String := String.ofList (text.toList.map Char.toLower)

/-! ### AWS -/

/-- The external id of an AWS node: the instance, and its dedicated host. -/
structure AwsExternalId where
  server : Option String
  host : Option String
deriving DecidableEq, Repr

inductive AwsDeleteState where
  | start
  | hostReleasingStart
  | hostReleasing
  | instanceDeletingStart
  | instanceDeleting
  | complete
deriving DecidableEq, Repr

structure AwsDeleteStateMachine where
  externalId : AwsExternalId
  state : AwsDeleteState
  server : Option Listed
  host : Option Listed
  complete : Bool

def AwsDeleteStateMachine.init (externalId : AwsExternalId) : AwsDeleteStateMachine :=
  ⟨externalId, .start, none, none, false⟩

namespace AwsAdapter

/-- `_deleteInstance` and `_releaseHost`: what is found in the cached listing is handed
to the thread that deletes. -/
def deleteListed (kind : CloudKind) (id warning : String) : LauncherM σ (Option Listed) := do
  let l ← call (.listCached kind)
  match l.find id with
  | none => do
      call (.log warning)
      pure none
  | some found => do
      call (.putDeleteQueue kind id)
      pure (some found)

def deleteInstance (id : String) : LauncherM σ (Option Listed) :=
  deleteListed .server id "Instance not found when deleting"

def releaseHost (id : String) : LauncherM σ (Option Listed) :=
  deleteListed .host id "Host not found when releasing"

/-- A resource that is still listed, but gone. -/
def isGone (kind : CloudKind) (found : Listed) : Bool :=
  match kind with
  | .host => lower found.state ∈ ["released", "released-permanent-failure"]
  | _ => lower found.state = "terminated"

/-- `_refreshDelete` -/
def refreshDelete (kind : CloudKind) : Option Listed → LauncherM σ (Option Listed)
  | none => pure none
  | some object => do
      let l ← call (.listCached kind)
      match l.find object.id with
      | none => pure none
      | some found => pure (if isGone kind found then none else some found)

/-- `_deleteThreadInner`, for one of its two queues. -/
def deleteBatch (kind : CloudKind) : LauncherM σ Unit := do
  let ids ← call (.takeDeleteQueue kind)
  when (ids ≠ []) (call (.deleteResources kind ids))

/-- The task that `LazyExecutorTTLCache` gives to the executor. -/
def update (kind : CloudKind) : LauncherM σ Unit := do
  let listed ← attempt (call (.describe kind))
  let now ← call .time
  call (.finishUpdate kind (listed.map fun l => (now, l)))

end AwsAdapter

namespace AwsDeleteStateMachine

/-- Methods of the state machine. -/
abbrev AwsDeleteM : Type → Type := LauncherM AwsDeleteStateMachine

def setState (state : AwsDeleteState) : AwsDeleteM Unit := assign fun m => { m with state := state }

/-- `if self.state == state: m` -/
def inState (state : AwsDeleteState) (m : AwsDeleteM Unit) : AwsDeleteM Unit := do
  let machine ← self
  when (machine.state = state) m

/-- Where the machine goes first. -/
def begin : AwsDeleteM Unit := do
  let machine ← self
  if machine.externalId.server.isSome then setState .instanceDeletingStart
  else if machine.externalId.host.isSome then setState .hostReleasingStart
  else setState .complete

def startDeleting : AwsDeleteM Unit := do
  let machine ← self
  match machine.externalId.server with
  | none => throw .other
  | some id => do
      let found ← AwsAdapter.deleteInstance id
      assign fun m => { m with server := found }
      setState .instanceDeleting

def awaitDeleted : AwsDeleteM Unit := do
  let machine ← self
  let found ← AwsAdapter.refreshDelete .server machine.server
  assign fun m => { m with server := found }
  if found = none then
    if machine.externalId.host.isSome then setState .hostReleasingStart else setState .complete
  else pure ()

def startReleasing : AwsDeleteM Unit := do
  let machine ← self
  match machine.externalId.host with
  | none => throw .other
  | some id => do
      let found ← AwsAdapter.releaseHost id
      assign fun m => { m with host := found }
      setState .hostReleasing

def awaitReleased : AwsDeleteM Unit := do
  let machine ← self
  let found ← AwsAdapter.refreshDelete .host machine.host
  assign fun m => { m with host := found }
  when (found = none) (setState .complete)

def advance : AwsDeleteM Unit := do
  inState .start begin
  inState .instanceDeletingStart startDeleting
  inState .instanceDeleting awaitDeleted
  inState .hostReleasingStart startReleasing
  inState .hostReleasing awaitReleased
  inState .complete (assign fun m => { m with complete := true })

end AwsDeleteStateMachine

/-! ### Azure -/

inductive AzureDeleteState where
  | start
  | vmDeleting
  | complete
deriving DecidableEq, Repr

structure AzureDeleteStateMachine where
  externalId : String
  state : AzureDeleteState
  vm : Option Listed
  complete : Bool

def AzureDeleteStateMachine.init (externalId : String) : AzureDeleteStateMachine :=
  ⟨externalId, .start, none, false⟩

namespace AzureAdapter

/-- `_listVirtualMachines`, with its `ttl_cache` -/
def listVirtualMachines : LauncherM σ Listing := do
  let cached ← call .ttlCacheGet
  match cached with
  | some l => pure l
  | none => do
      let l ← call (.describe .virtualMachine)
      -- in case of a race, the listing that is already in the cache
      call (.ttlCachePut l)

/-- `_deleteVirtualMachine` -/
def deleteVirtualMachine (name : String) : LauncherM σ (Option Listed) := do
  let l ← listVirtualMachines
  match l.find name with
  | none => do
      call (.log "VM not found when deleting")
      pure none
  | some found => do
      call (.deleteResources .virtualMachine [name])
      pure (some found)

/-- `_refresh_delete` of a virtual machine; its id contains its name. -/
def refreshDelete : Option Listed → LauncherM σ (Option Listed)
  | none => pure none
  | some vm => do
      let l ← listVirtualMachines
      pure (l.find vm.id)

end AzureAdapter

namespace AzureDeleteStateMachine

/-- Methods of the state machine. -/
abbrev AzureDeleteM : Type → Type := LauncherM AzureDeleteStateMachine

def inState (state : AzureDeleteState) (m : AzureDeleteM Unit) : AzureDeleteM Unit := do
  let machine ← self
  when (machine.state = state) m

def startDeleting : AzureDeleteM Unit := do
  let machine ← self
  let found ← AzureAdapter.deleteVirtualMachine machine.externalId
  assign fun m => { m with vm := found, state := .vmDeleting }

def awaitDeleted : AzureDeleteM Unit := do
  let machine ← self
  let found ← AzureAdapter.refreshDelete machine.vm
  assign fun m => { m with vm := found }
  when (found = none) (assign fun m => { m with state := .complete, complete := true })

def advance : AzureDeleteM Unit := do
  inState .start startDeleting
  inState .vmDeleting awaitDeleted

end AzureDeleteStateMachine

end Nodepool
