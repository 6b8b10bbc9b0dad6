import Nodepool.Effect.Program
import Nodepool.StateMachine.Models
import Nodepool.Cloud.Segments
import Nodepool.Cloud.TtlCache

/-!
The calls that the code of a launcher makes: operations of the ZooKeeper client
library, the attributes of objects that several threads share, the configuration,
and the methods that a driver supplies.
-/

namespace Nodepool

open Effect

/-- Exceptions, as far as some `except` clause tells them apart. -/
inductive Err where
  /-- `exceptions.ZKLockException` -/
  | zkLock
  /-- `exceptions.TimeoutException` -/
  | timeout
  /-- `exceptions.QuotaException` -/
  | quota
  /-- `exceptions.NotFound` -/
  | notFound
  /-- `exceptions.LaunchKeyscanException` -/
  | launchKeyscan
  /-- `kze.LockTimeout` -/
  | lockTimeout
  /-- `kze.NoNodeError` -/
  | noNode
  /-- `kze.SessionExpiredError` -/
  | sessionExpired
  | other
deriving DecidableEq, Repr

/-- The part of a provider's configuration that request handlers read. -/
structure ProviderConfig where
  name : String
  /-- `getSupportedLabels` for the pool of the handler -/
  supportedLabels : List String
deriving DecidableEq

structure PoolConfig where
  name : String
  labels : List String
  maxServers : Number
  /-- availability zones; empty where none are configured -/
  azs : List String
deriving DecidableEq

inductive Call where
  /- node requests -/
  | getRequest (id : String)
  | setRequest (id : String) (data : NodeRequest)
  | releaseRequestLock (id : String)
  /- node objects -/
  | newNode (node : Node)
  | readNode (o : NodeRef)
  | assignNode (o : NodeRef) (a : NodeAttr)
  | getNodeRequestIds
  | acquireRequestLock (id : String)
  | requestLockStats
  | deleteRequestLock (id : String)
  /- nodes and their locks -/
  | acquireThreadLock (o : NodeRef)
  | releaseThreadLock (o : NodeRef)
  | acquireLock (o : NodeRef)
  | releaseLock (o : NodeRef)
  | createNode (o : NodeRef)
  | setNode (o : NodeRef)
  | updateNode (o : NodeRef)
  | nodeIterator
  | getReadyNodesOfTypes (labels : List String)
  | getNodes
  | deleteRawNode (id : NodeId)
  | holdExpiration (o : NodeRef)
  /- the launcher -/
  | getRegisteredPools
  | getProviderConfig
  | getPoolConfig
  | errorLabels
  | pauseAtQuota
  | configuredProviders
  | labelMaxReadyAges
  | maxHoldAge
  | time
  | log (message : String)
  /- methods of the driver -/
  | imagesAvailable
  | hasProviderQuota (nodeTypes : List String)
  | hasRemainingQuota (ntype : String)
  | checkReusableNode (o : NodeRef)
  | nodeReusedNotification (o : NodeRef)
  | setNodeMetadata (o : NodeRef)
  | launch (o : NodeRef)
  | launchesComplete
  /- the node cache -/
  | getNodeIds
  | getNode (id : NodeId)
  /- image builds and uploads -/
  | getImageNames
  | getBuildIds (image : String)
  | getBuildProviders (image buildId : String)
  | getUploadNumbers (image buildId provider : String)
  | getImageUpload (path : UploadPath)
  | getBuild (image buildId : String)
  | getMostRecentBuilds (image : String)
  | getMostRecentBuildImageUploads (image buildId provider : String)
  | getMostRecentImageUpload (image provider : String)
  | acquireUploadLock (image buildId provider : String)
  | releaseUploadLock (image buildId provider : String)
  | buildsExist (image : String)
  | createImageUpload (image buildId provider : String) (data : ImageUpload)
  | setImageUpload (path : UploadPath) (data : ImageUpload)
  | localImages (image buildId : String)
  | getBuildRecord (image buildId : String)
  | setBuildRecord (image : String) (data : BuildRecord)
  | deleteBuildTree (image buildId : String)
  | acquireBuildLock (image : String)
  | releaseBuildLock (image : String)
  | acquireBuildIdLock (image buildId : String)
  | releaseBuildIdLock (image buildId : String)
  | getUploadRecord (path : UploadPath)
  | setUploadRecord (data : UploadRecord)
  | deleteUploadTree (path : UploadPath)
  | acquireNumberLock (path : UploadPath)
  | releaseNumberLock (path : UploadPath)
  | deleteExternalImage (provider : String) (name externalId : Option String)
  | getLocalBuilds
  | deleteLocalBuild (image buildId : String)
  | removeLocalImage (image buildId extension : String)
  | postUploadHook (externalId : String)
  /- node launchers -/
  | newLauncher (launcher : NodeLauncher)
  | readLauncher (l : Nat)
  | assignLauncher (l : Nat) (a : LauncherAttr)
  | submitStart (l : Nat)
  | setFutureResult (l : Nat) (result : Except Err Unit)
  | startFutureDone (l : Nat)
  | startFutureResult (l : Nat)
  | removeLauncher (l : Nat)
  | launchTimeout
  | newNodescanRequest (o : NodeRef)
  | addNodescanRequest (r : Nat)
  | removeNodescanRequest (r : Option Nat)
  | nodescanComplete (r : Nat)
  | nodescanResult (r : Nat)
  | invalidateQuotaCache
  | poolLabel (pool ntype : String)
  | quotaNeededByLabel (label pool : String)
  | estimatedNodepoolQuota
  /- the adapter of the cloud -/
  | getCreateStateMachine (l : Nat) (hostname label : String) (image : Option String)
      (metadata : Metadata)
  | advanceCreate (l : Nat)
  | getDeleteStateMachine (externalId : Option String)
  | advanceDelete (l : Nat)
  | getQuotaInformation (server : Instance)
  | notifyNodescanFailure (label : PoolLabel) (externalId : Option String)
  | getConsoleLog (label : PoolLabel) (externalId : Option String)
  /- the manager of a provider, and what runs its state machines -/
  | appendLauncher (handler l : Nat)
  | newDeleter (o : NodeRef)
  | machines (kind : MachineKind)
  | appendMachine (kind : MachineKind) (m : Nat)
  | removeMachine (kind : MachineKind) (m : Nat)
  | runMachine (kind : MachineKind) (m : Nat)
  | machineComplete (kind : MachineKind) (m : Nat)
  | isRunning
  | assignRunning (b : Bool)
  | stopNodescanWorker
  | shutdownStartWorker
  | stopAdapter
  | sleep
  | cleanupLeakedResources (provider : String)
  | startNodeCleanup (o : NodeRef)
  | uploadImage (name filename : String) (metadata : Metadata)
  | deleteImage (name : String)
  | listResources
  | listPage (page : Nat)
  | deleteResource (r : Resource)
  | possiblyLeaked
  | assignPossiblyLeaked (leaks : Leaks)
  /- deletions at AWS and Azure -/
  | newDeleteStateMachine
  | listCached (kind : CloudKind)
  | describe (kind : CloudKind)
  | finishUpdate (kind : CloudKind) (result : Except Err (Nat × Listing))
  | ttlCacheGet
  | ttlCachePut (l : Listing)
  | createResource (kind : CloudKind) (name : String)
  | putDeleteQueue (kind : CloudKind) (id : String)
  | takeDeleteQueue (kind : CloudKind)
  | deleteResources (kind : CloudKind) (ids : List String)
  /- uploads in segments; a segment stands for the future of its upload -/
  | getFileSize (path : String)
  | openFile (path : String)
  | readFile (length : Nat)
  | submitSegment (segment : Segment)
  | waitSegments (futures : List Segment) (firstCompleted : Bool) (deadline : Option Nat)
  | segmentResult (segment : Segment)
  | setSegmentResult (segment : Segment) (result : Except Err Unit)
  | shutdownExecutor
  | azure (request : AzureRequest) (name : String)
  | waitForAsyncOperation (request : AzureRequest)
  | uploadSasChunk (first last : Nat)
  | startSnapshot (volumeSize : Nat)
  | putSnapshotBlock (index length : Nat)
  | addSegmentCount
  | segmentCount
  | completeSnapshot (snapshot : String) (changedBlocks : Nat)
  | deleteSnapshot (snapshot : String)
  | registerImage (name : String) (volumeSize : Nat) (snapshot : String)
  | /-- what does not end -/
    forever
  /- images and object storage of IBM Cloud -/
  | getBucketLocation
  | putObject (key : String)
  | deleteObject (key : String)
  | hasResourceGroup (name : String)
  | createResourceGroup (name : String)
  | createImage (name group url : String)
  | awaitImage (id : String)

/-- What a call returns; `Unit` where the code ignores it. A call that advances a
state machine returns what `advance` returns or raises, and the machine as it is
afterwards. -/
abbrev Call.Val : Call → Type
  | .getRequest _ => NodeRequest
  | .getNodeRequestIds => List String
  | .acquireRequestLock _ => Bool
  | .requestLockStats => List (String × Nat)
  | .newNode _ => NodeRef
  | .readNode _ => NodeObject
  | .acquireThreadLock _ => Bool
  | .acquireLock _ => Bool
  | .updateNode _ => Node
  | .nodeIterator => List NodeRef
  | .getReadyNodesOfTypes _ => Dict String (List NodeRef)
  | .getRegisteredPools => List PoolComponent
  | .getProviderConfig => Option ProviderConfig
  | .getPoolConfig => Option PoolConfig
  | .errorLabels => List String
  | .pauseAtQuota => Bool
  | .configuredProviders => List String
  | .getNodes => List NodeId
  | .labelMaxReadyAges => List (String × Nat)
  | .maxHoldAge => Option Nat
  | .holdExpiration _ => Option Nat
  | .time => Nat
  | .imagesAvailable => Bool
  | .hasProviderQuota _ => Bool
  | .hasRemainingQuota _ => Bool
  | .checkReusableNode _ => Bool
  | .launchesComplete => Bool
  | .getNodeIds => List NodeId
  | .getNode _ => Option Node
  | .getImageNames => List String
  | .getBuildIds _ => List String
  | .getBuildProviders _ _ => List String
  | .getUploadNumbers _ _ _ => List String
  | .getImageUpload _ => Option ImageUpload
  | .getBuild _ _ => Option ImageBuild
  | .getMostRecentBuilds _ => List ImageBuild
  | .getMostRecentBuildImageUploads _ _ _ => List ImageUpload
  | .getMostRecentImageUpload _ _ => Option (UploadPath × ImageUpload)
  | .acquireUploadLock _ _ _ => Bool
  | .buildsExist _ => Bool
  | .createImageUpload _ _ _ _ => String
  | .localImages _ _ => List String
  | .getBuildRecord _ _ => Option BuildRecord
  | .acquireBuildLock _ => Bool
  | .acquireBuildIdLock _ _ => Bool
  | .getUploadRecord _ => Option UploadRecord
  | .acquireNumberLock _ => Bool
  | .getLocalBuilds => List (String × String)
  | .newLauncher _ => Nat
  | .readLauncher _ => NodeLauncher
  | .poolLabel _ _ => PoolLabel
  | .quotaNeededByLabel _ _ => QuotaInformation
  | .estimatedNodepoolQuota => QuotaInformation
  | .startFutureDone _ => Bool
  | .launchTimeout => Nat
  | .newNodescanRequest _ => Nat
  | .nodescanComplete _ => Bool
  | .getCreateStateMachine _ _ _ _ _ => StateMachine
  | .advanceCreate _ => Except Err (Option Instance) × StateMachine
  | .getDeleteStateMachine _ => StateMachine
  | .advanceDelete _ => Except Err Unit × StateMachine
  | .getQuotaInformation _ => QuotaInformation
  | .newDeleter _ => Nat
  | .machines _ => List Nat
  | .machineComplete _ _ => Bool
  | .isRunning => Bool
  | .listCached _ => Listing
  | .describe _ => Listing
  | .ttlCacheGet => Option Listing
  | .ttlCachePut _ => Listing
  | .takeDeleteQueue _ => List String
  | .getFileSize _ => Nat
  | .waitSegments _ _ _ => List Segment
  | .waitForAsyncOperation _ => String
  | .startSnapshot _ => String
  | .putSnapshotBlock _ _ => Bool
  | .segmentCount => Nat
  | .completeSnapshot _ _ => String
  | .registerImage _ _ _ => String
  | .forever => Empty
  | .uploadImage _ _ _ => String
  | .listResources => List Nat
  | .listPage _ => List Resource
  | .possiblyLeaked => Leaks
  | .getBucketLocation => String
  | .hasResourceGroup _ => Bool
  | .createImage _ _ _ => String
  | .awaitImage _ => Bool
  | _ => Unit

abbrev LauncherSig : Sig where
  Call := Call
  Val := Call.Val
  Err := Err

end Nodepool
