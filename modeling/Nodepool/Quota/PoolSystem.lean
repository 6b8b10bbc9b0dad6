import Nodepool.Driver.HandlerSystem
import Nodepool.Quota.Acceptance
import Nodepool.Zk.Images

/-!
The worker of one pool of a single launcher, which runs the handlers of any number
of requests one after the other, next to everything else that stores and deletes
nodes: the launches it has started, cleanups, and the workers of other pools.

The node cache shows what is stored, and what is recorded for a node is the quota
of its label.
-/

namespace Nodepool

open Effect Method

namespace StateMachineHandler

variable {σ : Type}

/-- Raise what a calculation raises. -/
def ofExcept {α : Type} : Except QuotaError α → LauncherM σ α
  | .ok a => pure a
  | .error _ => throw .other

/-- The nodes that `estimatedNodepoolQuotaUsed` goes through. -/
def cachedNodes : LauncherM σ (List Node) := do
  let nodes ← ZooKeeper.nodeIterator
  pure (nodes.map (·.2))

/-- The check against the quota of the tenant, unless the pool ignores it. -/
def hasCloudQuota (handler : QuotaHandler) (needed : QuotaInformation) : LauncherM σ Bool :=
  if handler.pool.ignoreProviderQuota then pure true
  else do
    let cloudQuota ← call .estimatedNodepoolQuota
    let nodes ← cachedNodes
    pure (cloudRemains handler cloudQuota nodes needed)

/-- `hasRemainingQuota`, which goes through the node cache for either check. -/
def checkRemainingQuota (handler : QuotaHandler) (ntype : String) : LauncherM σ Bool := do
  let needed ← ofExcept (handler.manager.quotaNeededByLabel ntype handler.pool)
  let cloud ← hasCloudQuota handler needed
  if cloud then do
    let nodes ← cachedNodes
    ofExcept (poolRemains handler nodes needed)
  else pure false

/-- The driver of which nothing but `hasRemainingQuota` matters here. -/
def driver (handler : QuotaHandler) : Driver Unit :=
  { Driver.external with hasRemainingQuota := checkRemainingQuota handler }

end StateMachineHandler

/-! ### Nodes of the pool -/

namespace QuotaHandler

variable (handler : QuotaHandler)

/-- The node belongs to the pool. -/
def InPool (node : Node) : Prop :=
  node.provider = some handler.manager.providerName ∧ node.pool = some handler.pool.name

instance (node : Node) : Decidable (handler.InPool node) := by
  unfold InPool
  infer_instance

/-- A node of the pool is one of a configured label, and what is recorded for it, if
anything, is the quota of the label. -/
def Valid (node : Node) : Prop :=
  handler.InPool node → ∃ label ∈ handler.pool.labels, handler.Granted label node

/-- How much of a resource the instance of a node uses: what its label needs. -/
def useOf (node : Option Node) (resource : String) : ℤ :=
  match node with
  | none => 0
  | some node =>
      if handler.InPool node then
        (node.type.head?.map fun label =>
          (handler.manager.labelQuota handler.pool label).1.amount resource).getD 0
      else 0

end QuotaHandler

/-- The fields that say what a node is, and that nobody changes. -/
structure SameNode (node node' : Node) : Prop where
  provider : node'.provider = node.provider
  pool : node'.pool = node.pool
  type : node'.type = node.type

/-! ### The system -/

structure PoolWorld where
  /-- the stored nodes -/
  nodes : NodeId → Option Node
  nextNode : NodeId
  objects : NodeRef → NodeObject
  nextObject : Nat

namespace PoolWorld

@[simps -fullyApplied]
def setNode (w : PoolWorld) (id : NodeId) (node : Option Node) : PoolWorld :=
  { w with nodes := Function.update w.nodes id node }

@[simps -fullyApplied]
def setObject (w : PoolWorld) (o : NodeRef) (object : NodeObject) : PoolWorld :=
  { w with objects := Function.update w.objects o object }

/-- A new node is stored with the next number, and the cache shows it. -/
@[simps -fullyApplied]
def addNode (w : PoolWorld) (node : Node) : PoolWorld :=
  { w with
    nodes := Function.update w.nodes w.nextNode (some node)
    nextNode := w.nextNode + 1
    objects := Function.update w.objects (.cached w.nextNode)
      { w.objects (.cached w.nextNode) with node := node } }

/-- The worlds after the record of a node object was stored again. -/
def stored (w : PoolWorld) (o : NodeRef) : List PoolWorld :=
  match (w.objects o).id with
  | none => []
  | some id => if w.nodes id = none then [] else [w.setNode id (some (w.objects o).node)]

/-- The object belongs to the node cache. -/
def isCached : NodeRef → Bool
  | .cached _ => true
  | .own _ => false

/-- The worlds that a call of the worker can lead to if it gets the given reply. A
store that fails may still have taken effect. -/
def next (w : PoolWorld) : (c : Call) → LauncherSig.Reply c → List PoolWorld
  | .newNode node, .ok (.own n) =>
      if n = w.nextObject
      then [{ w.setObject (.own n) ⟨none, node, false, false, false⟩ with nextObject := n + 1 }]
      else []
  | .newNode _, _ => []
  | .readNode o, .ok object => if object = w.objects o then [w] else []
  | .readNode _, .error _ => []
  | .assignNode o a, .ok _ => [w.setObject o ((w.objects o).assign a)]
  | .assignNode _ _, .error _ => []
  | .createNode o, .ok _ =>
      [(w.addNode (w.objects o).node).setObject o { w.objects o with id := some w.nextNode }]
  | .createNode o, .error _ => [w, w.addNode (w.objects o).node]
  | .setNode o, .ok _ => w.stored o
  | .setNode o, .error _ => w :: w.stored o
  | .updateNode o, .ok node =>
      match (w.objects o).id with
      | none => []
      | some id =>
          if w.nodes id = some node then [w.setObject o { w.objects o with node := node }] else []
  | .nodeIterator, .ok os => if os.all isCached then [w] else []
  | .getReadyNodesOfTypes labels, .ok found =>
      if labels.all fun label => (found.get label []).all isCached then [w] else []
  | .getNodeIds, .ok ids =>
      if ids = (List.range w.nextNode).filter fun id => (w.nodes id).isSome then [w] else []
  | .getNode id, .ok node => if node = w.nodes id then [w] else []
  | _, _ => [w]

/-- What happens beside the worker: nodes are stored, launched and deleted, node
objects are changed by launches and by the cache, and other pools get new nodes. -/
inductive Env (handler : QuotaHandler) (w : PoolWorld) : PoolWorld → Prop where
  | storeNode (id : NodeId) {node node' : Node} (stored : w.nodes id = some node)
      (same : SameNode node node') (valid : handler.Valid node') :
      Env handler w (w.setNode id (some node'))
  | deleteNode (id : NodeId) : Env handler w (w.setNode id none)
  | addNode {node : Node} (other : ¬ handler.InPool node) : Env handler w (w.addNode node)
  | assignNode (o : NodeRef) {object : NodeObject} (id : object.id = (w.objects o).id)
      (same : SameNode (w.objects o).node object.node)
      (valid : handler.Valid (w.objects o).node → handler.Valid object.node) :
      Env handler w (w.setObject o object)

end PoolWorld

/-- What the worker does with the handler of a request. -/
inductive WorkerOp where
  | accept (i : Nat) (launcherId : String) (request : NodeRequest)
  | run (i : Nat)
  | declineRequest (i : Nat)
  | poll (i : Nat)

namespace WorkerOp

/-- Call a method of one handler. -/
def onHandler {α : Type} (m : HandlerM Unit α) (i : Nat) (handlers : Nat → Handler Unit) :
    Prog LauncherSig (Nat → Handler Unit) :=
  (m (handlers i)).bind fun out => .pure (Function.update handlers i out.2)

def body (handler : QuotaHandler) (op : WorkerOp) (handlers : Nat → Handler Unit) :
    Prog LauncherSig (Nat → Handler Unit) :=
  match op with
  | .accept i launcherId request =>
      .pure (Function.update handlers i (.init launcherId request ()))
  | .run i => onHandler (NodeRequestHandler.run (StateMachineHandler.driver handler)) i handlers
  | .declineRequest i => onHandler NodeRequestHandler.declineRequest i handlers
  | .poll i => onHandler (NodeRequestHandler.poll (StateMachineHandler.driver handler)) i handlers

end WorkerOp

abbrev poolSystem (handler : QuotaHandler) : System LauncherSig PoolWorld Unit where
  State _ := Nat → Handler Unit
  Op _ := WorkerOp
  body _ := WorkerOp.body handler
  enabled _ _ _ _ := true
  next _ := PoolWorld.next
  env := PoolWorld.Env handler

end Nodepool
