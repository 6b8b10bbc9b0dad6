import Mathlib.Data.Option.Basic
import Nodepool.Zk.Models

/-!
The quota checks of the request handlers: `hasProviderQuota`, by which a request
is accepted, and `hasRemainingQuota`, by which one more node is launched
(`nodepool/driver/statemachine.py` and `nodepool/driver/kubernetes/handler.py`),
with `QuotaSupport` of `nodepool/driver/utils.py` below them.

The quota of the tenant is asked for anew only when the cached one has aged; here
it is one fixed value. The adapter's answer for a label is a parameter.
-/

namespace Nodepool

/-- What Python raises for a missing key and for an argument given twice. -/
inductive QuotaError where
  | keyError
  | typeError
deriving DecidableEq, Repr

/-- The limits of a pool. A limit that the pool does not have is `none`, and
`max_resources` is empty for the drivers that have none. -/
structure ProviderPool where
  name : String
  labels : List String
  maxServers : Number
  maxCores : Option Number
  maxRam : Option Number
  maxVolumes : Option Number
  maxVolumeGb : Option Number
  maxResources : Resources
  ignoreProviderQuota : Bool

/-- What an adapter reports that a label needs, in whole numbers. -/
abbrev LabelQuota : Type := { q : QuotaInformation // q.Natural }

structure QuotaSupport where
  providerName : String
  pools : Dict String ProviderPool
  labelQuota : ProviderPool → String → LabelQuota
  getProviderLimits : QuotaInformation
  unmanagedQuotaUsed : QuotaInformation

/-- `bool(value)` of an attribute that may be missing. -/
def Number.truthy (value : Option Number) : Bool := value.any (· ≠ 0)

namespace QuotaInformation

/-- The call `QuotaInformation(**args)`, in which no argument can be called `self`. -/
def call (args : Dict String (Option Number)) : Except QuotaError QuotaInformation :=
  if "self" ∈ args then .error .typeError else .ok (ofArgs args)

end QuotaInformation

namespace QuotaSupport

variable (manager : QuotaSupport)

def quotaNeededByLabel (ntype : String) (pool : ProviderPool) :
    Except QuotaError QuotaInformation :=
  if ntype ∈ pool.labels then .ok (manager.labelQuota pool ntype) else .error .keyError

def estimatedNodepoolQuota : QuotaInformation :=
  manager.getProviderLimits.subtract manager.unmanagedQuotaUsed

/-- `node.resources`, if there are any, and the quota of the node's label otherwise. -/
def nodeResources (node : Node) (ntype : String) (pool : ProviderPool) : QuotaInformation :=
  match node.resources.filter (·.entries ≠ []) with
  | some resources => QuotaInformation.fromResources resources
  | none => manager.labelQuota pool ntype

/-- What one node of the cache counts for. A node of another provider or pool,
and one whose pool or label is no longer configured, is passed over. -/
def quotaUsedByNode (pool : Option ProviderPool) (node : Node) : Option QuotaInformation := do
  guard (node.provider = some manager.providerName)
  guard (pool.all fun p => node.pool = some p.name)
  let providerPool ← manager.pools.lookup (← node.pool)
  let ntype ← node.type.head?
  guard (ntype ∈ providerPool.labels)
  return manager.nodeResources node ntype providerPool

def estimatedNodepoolQuotaUsed (nodes : List Node) (pool : Option ProviderPool) :
    QuotaInformation :=
  (nodes.filterMap (manager.quotaUsedByNode pool)).foldl QuotaInformation.add QuotaInformation.zero

/-- The sum that `hasProviderQuota` of both handlers makes over the requested types. -/
def neededQuota (nodeTypes : List String) (pool : ProviderPool) :
    Except QuotaError QuotaInformation :=
  nodeTypes.foldlM (fun needed ntype => needed.add <$> manager.quotaNeededByLabel ntype pool)
    QuotaInformation.zero

end QuotaSupport

namespace ProviderPool

/-- The arguments that do not depend on the limit on volume sizes. -/
def baseArgs (pool : ProviderPool) : Dict String (Option Number) :=
  let args : Dict String (Option Number) := Dict.ofPairs
    [("cores", pool.maxCores), ("instances", some pool.maxServers), ("ram", pool.maxRam),
      ("default", some .inf)]
  if Number.truthy pool.maxVolumes then args.insert "volumes" pool.maxVolumes else args

/-- The arguments from which both checks of `StateMachineHandler` build the quota
of the pool; they differ in the name under which the limit on volume sizes stands. -/
def limitArgs (pool : ProviderPool) (volumeGb : String) : Dict String (Option Number) :=
  let args :=
    if Number.truthy pool.maxVolumeGb then pool.baseArgs.insert volumeGb pool.maxVolumeGb
    else pool.baseArgs
  Dict.update args (pool.maxResources.mapVals fun _ limit => some limit)

end ProviderPool

/-- A handler as far as its quota checks read it: the manager of its provider and
its pool, which is one of the pools of that provider. -/
structure QuotaHandler where
  manager : QuotaSupport
  pool : ProviderPool
  configured : manager.pools.lookup pool.name = some pool

namespace StateMachineHandler

def hasProviderQuota (handler : QuotaHandler) (nodeTypes : List String) :
    Except QuotaError Bool := do
  let neededQuota ← handler.manager.neededQuota nodeTypes handler.pool
  let cloudQuota := handler.manager.estimatedNodepoolQuota.subtract neededQuota
  if !handler.pool.ignoreProviderQuota && !cloudQuota.nonNegative then
    return false
  else
    let poolQuota ← QuotaInformation.call (handler.pool.limitArgs "volume_gb")
    return (poolQuota.subtract neededQuota).nonNegative

/-- There is room for a demand in what the tenant has left next to the given nodes. -/
def cloudRemains (handler : QuotaHandler) (cloudQuota : QuotaInformation) (nodes : List Node)
    (neededQuota : QuotaInformation) : Bool :=
  ((cloudQuota.subtract (handler.manager.estimatedNodepoolQuotaUsed nodes none)).subtract
    neededQuota).nonNegative

/-- There is room for a demand in what the pool has left next to the given nodes. -/
def poolRemains (handler : QuotaHandler) (nodes : List Node) (neededQuota : QuotaInformation) :
    Except QuotaError Bool := do
  let poolQuota ← QuotaInformation.call (handler.pool.limitArgs "volume-gb")
  let used := handler.manager.estimatedNodepoolQuotaUsed nodes (some handler.pool)
  return ((poolQuota.subtract used).subtract neededQuota).nonNegative

/-- `nodes` are the nodes of the node cache. -/
def hasRemainingQuota (handler : QuotaHandler) (nodes : List Node) (ntype : String) :
    Except QuotaError Bool := do
  let neededQuota ← handler.manager.quotaNeededByLabel ntype handler.pool
  if !handler.pool.ignoreProviderQuota &&
      !cloudRemains handler handler.manager.estimatedNodepoolQuota nodes neededQuota then
    return false
  else poolRemains handler nodes neededQuota

end StateMachineHandler

namespace KubernetesNodeRequestHandler

/-- `KubernetesProvider.getProviderLimits` -/
def providerLimits : QuotaInformation :=
  QuotaInformation.ofArgs (Dict.ofPairs
    [("cores", some .inf), ("instances", some .inf), ("ram", some .inf), ("default", some .inf)])

/-- A handler whose manager is a `KubernetesProvider`, which knows of no limits
and of no use by others. -/
structure Handler extends QuotaHandler where
  limits : manager.getProviderLimits = providerLimits
  unmanaged : manager.unmanagedQuotaUsed = QuotaInformation.zero

/-- The arguments that both checks pass, next to a default of `math.inf`. -/
def baseArgs (pool : ProviderPool) : Dict String (Option Number) :=
  Dict.ofPairs
    [("cores", pool.maxCores), ("instances", some pool.maxServers), ("ram", pool.maxRam)]

def hasProviderQuota (handler : Handler) (nodeTypes : List String) : Except QuotaError Bool := do
  let neededQuota ← handler.manager.neededQuota nodeTypes handler.pool
  let cloudQuota := handler.manager.estimatedNodepoolQuota.subtract neededQuota
  if !handler.pool.ignoreProviderQuota && !cloudQuota.nonNegative then
    return false
  else
    let poolQuota ← QuotaInformation.call
      (AList.insert "default" (some .inf) (baseArgs handler.pool))
    return (poolQuota.subtract neededQuota).nonNegative

/-- The arguments of the quota of the pool in `hasRemainingQuota`. -/
def limitArgs (pool : ProviderPool) : Dict String (Option Number) :=
  Dict.update (baseArgs pool) (pool.maxResources.mapVals fun _ limit => some limit)

/-- `QuotaInformation(**args, default=math.inf)` -/
def callWithDefault (args : Dict String (Option Number)) : Except QuotaError QuotaInformation :=
  if "default" ∈ args then .error .typeError
  else QuotaInformation.call (args.insert "default" (some .inf))

def hasRemainingQuota (handler : Handler) (nodes : List Node) (ntype : String) :
    Except QuotaError Bool := do
  let neededQuota ← handler.manager.quotaNeededByLabel ntype handler.pool
  let cloudQuota := (handler.manager.estimatedNodepoolQuota.subtract
    (handler.manager.estimatedNodepoolQuotaUsed nodes none)).subtract neededQuota
  if !cloudQuota.nonNegative then
    return false
  else
    let poolQuota ← callWithDefault (limitArgs handler.pool)
    let used := handler.manager.estimatedNodepoolQuotaUsed nodes (some handler.pool)
    return ((poolQuota.subtract used).subtract neededQuota).nonNegative

end KubernetesNodeRequestHandler

end Nodepool
