import Nodepool.Driver.Handler
import Nodepool.Effect.Footprint

/-!
Footprints of the methods of `ZooKeeper` and of `NodeRequestHandler`. The methods
that lock, allocate, launch and unlock nodes leave the record of the request and
its lock alone; only three short methods at the end of each path touch them.
-/

namespace Nodepool

open Effect Method

/-- Calls on node objects, stored nodes and node locks, with the clock and the log. -/
def Call.onNodes : Call → Prop
  | .newNode _ | .readNode _ | .assignNode _ _ | .acquireThreadLock _ | .releaseThreadLock _
  | .acquireLock _ | .releaseLock _ | .createNode _ | .setNode _ | .updateNode _ | .nodeIterator
  | .getReadyNodesOfTypes _ | .time | .log _ => True
  | _ => False

/-- The calls of taking one node lock. -/
def Call.locksNode (o : NodeRef) : Call → Prop
  | .acquireThreadLock o' | .releaseThreadLock o' | .acquireLock o' | .assignNode o' (.lock _)
  | .updateNode o' => o' = o
  | .log _ => True
  | _ => False

theorem Call.onNodes_of_locksNode {o : NodeRef} {c : Call} (h : c.locksNode o) : c.onNodes := by
  cases c <;> trivial

/-- Calls that only look something up. -/
def Call.consults : Call → Prop
  | .getProviderConfig | .getPoolConfig | .errorLabels | .pauseAtQuota | .getRegisteredPools
  | .getRequest _ | .readNode _ | .nodeIterator | .getReadyNodesOfTypes _ | .time | .log _ => True
  | _ => False

/-- Calls that neither change the stored request nor release its lock. -/
def Call.keepsRequest : Call → Prop
  | .setRequest _ _ | .releaseRequestLock _ => False
  | _ => True

theorem Call.keepsRequest_of_consults {c : Call} (h : c.consults) : c.keepsRequest := by
  cases c <;> trivial

theorem Call.keepsRequest_of_onNodes {c : Call} (h : c.onNodes) : c.keepsRequest := by
  cases c <;> trivial

namespace ZooKeeper

variable {σ γ : Type} {π : σ → γ}

theorem getNodeRequest_within {P : Call → Prop} {id : String} (h : P (.getRequest id)) :
    Within P π (getNodeRequest id : LauncherM σ _) :=
  .tryCatch (.bind (.perform h) fun _ => .pure) fun _ => .ite .pure .throw

theorem lockNode_locksNode (o : NodeRef) :
    Within (Call.locksNode o) π (lockNode o : LauncherM σ Unit) := by
  refine .bind (.perform rfl) fun b => .bind (raiseUnless_within b _) fun _ => ?_
  refine .bind (.tryCatch ?_ fun e => ?_) fun _ => .bind (.perform rfl) fun _ => .pure
  · refine .bind (.tryCatch (.perform rfl) fun e => ?_) fun b => ?_
    · exact .ite .throw (.ite .pure .throw)
    · exact .bind (raiseUnless_within b _) fun _ => .perform rfl
  · exact .bind (.tryCatch (.perform rfl) fun _ => .perform trivial) fun _ => .throw

theorem lockNode_within (o : NodeRef) : Within Call.onNodes π (lockNode o : LauncherM σ Unit) :=
  (lockNode_locksNode o).mono fun _ => Call.onNodes_of_locksNode

theorem unlockNode_within (o : NodeRef) :
    Within Call.onNodes π (unlockNode o : LauncherM σ Unit) :=
  .bind (.perform trivial) fun _ => .bind (raiseUnless_within _ _) fun _ =>
    .bind (.perform trivial) fun _ => .bind (.perform trivial) fun _ => .perform trivial

theorem storeNode_within (o : NodeRef) :
    Within Call.onNodes π (storeNode o : LauncherM σ Unit) :=
  .bind (.perform trivial) fun _ => .ite (.perform trivial) (.perform trivial)

theorem assignState_within (o : NodeRef) (s : NodeState) :
    Within Call.onNodes π (assignState o s : LauncherM σ Unit) :=
  .bind (.perform trivial) fun _ => .perform trivial

theorem unusedNodes_within {P : Call → Prop} (hread : ∀ o, P (.readNode o)) (htime : P .time)
    (providerName poolName : String) (os : List NodeRef) :
    Within P π (unusedNodes providerName poolName os : LauncherM σ _) := by
  induction os with
  | nil => exact .pure
  | cons o os ih =>
      refine .bind (.perform (hread o)) fun _ => .bind (.perform htime) fun _ => .ite ?_ ih
      exact .ite (.bind ih fun _ => .pure) (.ite .pure ih)

theorem deleteUnusedNode_within (o : NodeRef) :
    Within Call.onNodes π (deleteUnusedNode o : LauncherM σ Bool) := by
  refine .bind (.attempt (lockNode_within o)) fun locked => ?_
  split
  · exact .pure
  · exact .throw
  · refine .bind (.perform trivial) fun _ => .ite ?_ ?_
    · exact .bind (unlockNode_within o) fun _ => .pure
    · refine .bind (.attempt (.bind (assignState_within o _) fun _ => storeNode_within o)) ?_
      intro stored
      split
      · exact .bind (unlockNode_within o) fun _ => .pure
      · exact .bind (.perform trivial) fun _ => .bind (unlockNode_within o) fun _ => .pure

theorem deleteFirstUnusedNode_within (os : List NodeRef) :
    Within Call.onNodes π (deleteFirstUnusedNode os : LauncherM σ Bool) := by
  induction os with
  | nil => exact .pure
  | cons o os ih => exact .bind (deleteUnusedNode_within o) fun _ => .ite .pure ih

theorem deleteOldestUnusedNode_within (providerName poolName : String) :
    Within Call.onNodes π (deleteOldestUnusedNode providerName poolName : LauncherM σ Bool) := by
  refine .bind (.perform trivial) fun nodes =>
    .bind (unusedNodes_within (fun _ => trivial) trivial _ _ nodes) fun found => ?_
  split
  · exact .pure
  · exact deleteFirstUnusedNode_within _

end ZooKeeper

/-- Every method of the driver has the footprint. -/
structure Driver.Within {δ γ : Type} (P : Call → Prop) (π : Handler δ → γ) (D : Driver δ) :
    Prop where
  imagesAvailable : Method.Within P π D.imagesAvailable
  hasProviderQuota : ∀ types, Method.Within P π (D.hasProviderQuota types)
  hasRemainingQuota : ∀ ntype, Method.Within P π (D.hasRemainingQuota ntype)
  checkReusableNode : ∀ o, Method.Within P π (D.checkReusableNode o)
  nodeReusedNotification : ∀ o, Method.Within P π (D.nodeReusedNotification o)
  setNodeMetadata : ∀ o, Method.Within P π (D.setNodeMetadata o)
  launch : ∀ o, Method.Within P π (D.launch o)
  launchesComplete : Method.Within P π D.launchesComplete

namespace NodeRequestHandler

variable {δ γ : Type} {P : Call → Prop}

/-- A handler without what it has looked up in the configuration, and without the
attributes of its driver. -/
def shared (h : Handler δ) : Handler Unit :=
  { h with provider := none, pool := none, driver := () }

/-- The part of a handler that belongs to its request. -/
def requestPart (h : Handler δ) : NodeRequest × Bool × Bool :=
  (h.request, h.requestLock, h.requestThreadLock)

theorem provider_within {π : Handler δ → γ} : Within P π (provider : HandlerM δ _) := by
  refine .bind .self fun h => ?_
  split
  · exact .pure
  · exact .throw

theorem pool_within {π : Handler δ → γ} : Within P π (pool : HandlerM δ _) := by
  refine .bind .self fun h => ?_
  split
  · exact .pure
  · exact .throw

/-! ### Deciding on a request -/

theorem setFromPoolWorker_within (hP : ∀ c, Call.consults c → P c) :
    Within P shared (setFromPoolWorker : HandlerM δ Unit) :=
  .bind (.perform (hP _ trivial)) fun _ => .bind (.assign fun _ => rfl) fun _ =>
    .bind (.perform (hP _ trivial)) fun _ => .assign fun _ => rfl

theorem getDeclinedReasons_of {D : Driver δ} (hP : ∀ c, Call.consults c → P c)
    (images : Within P shared D.imagesAvailable)
    (quota : ∀ types, Within P shared (D.hasProviderQuota types)) :
    Within P shared (getDeclinedReasons D) := by
  refine .bind .self fun _ => .bind (when_within (setFromPoolWorker_within hP)) fun _ => ?_
  refine .bind (.bind provider_within fun _ => .bind pool_within fun _ =>
    .bind (.perform (hP _ trivial)) fun _ => .bind .self fun _ => .pure) fun _ => ?_
  refine .bind pool_within fun _ => .bind .self fun _ => .ite .pure (.ite .pure ?_)
  exact .bind images fun _ => .ite (.bind (quota _) fun _ => .ite .pure .pure) .pure

theorem getDeclinedReasons_within {D : Driver δ} (hP : ∀ c, Call.consults c → P c)
    (hD : D.Within P shared) : Within P shared (getDeclinedReasons D) :=
  getDeclinedReasons_of hP hD.imagesAvailable hD.hasProviderQuota

/-! ### Methods that keep their hands off the request -/

section Request

abbrev LeavesRequest {α : Type} (m : HandlerM δ α) : Prop :=
  Within Call.keepsRequest requestPart m

theorem leavesRequest_of_onNodes {α : Type} {m : HandlerM δ α}
    (h : Within Call.onNodes requestPart m) : LeavesRequest m :=
  h.mono fun _ => Call.keepsRequest_of_onNodes

theorem leavesRequest_of_shared {α : Type} {m : HandlerM δ α}
    (h : Within Call.keepsRequest shared m) : LeavesRequest m :=
  h.map requestPart

theorem unlockNodeOfSet_leavesRequest (clear : Bool) (o : NodeRef) :
    LeavesRequest (unlockNodeOfSet clear o : HandlerM δ Unit) := by
  refine leavesRequest_of_onNodes (.bind (.perform trivial) fun _ => .ite ?_ .pure)
  refine .bind (when_within (.bind (.perform trivial) fun _ => ?_)) fun _ => ?_
  · exact .tryCatch (ZooKeeper.storeNode_within o) fun _ => .perform trivial
  · exact .tryCatch (ZooKeeper.unlockNode_within o) fun _ => .perform trivial

theorem unlockNodeSet_leavesRequest (clear : Bool) :
    LeavesRequest (unlockNodeSet clear : HandlerM δ Unit) :=
  .bind .self fun _ => .bind (.forEach (unlockNodeOfSet_leavesRequest clear) _) fun _ =>
    .assign fun _ => rfl

variable {D : Driver δ} (hD : D.Within Call.keepsRequest requestPart)
include hD

theorem useReadyNode_leavesRequest (ntype : String) (o : NodeRef) :
    LeavesRequest (useReadyNode D ntype o) :=
  .bind (.assign fun _ => rfl) fun _ => .bind .self fun _ => .bind (.perform trivial) fun _ =>
    .bind (.perform trivial) fun _ => .bind (.perform trivial) fun _ =>
    .bind (leavesRequest_of_onNodes (ZooKeeper.storeNode_within o)) fun _ =>
    .bind (.perform trivial) fun _ =>
      .bind (.assign fun _ => rfl) fun _ => hD.nodeReusedNotification o

theorem tryReadyNode_leavesRequest (ntype : String) (o : NodeRef) :
    LeavesRequest (tryReadyNode D ntype o) := by
  refine .bind provider_within fun _ => .bind pool_within fun _ =>
    .bind (.perform trivial) fun _ => ?_
  refine .ite .pure (.ite .pure (.ite .pure ?_))
  refine .bind (hD.checkReusableNode o) fun _ => .ite ?_ .pure
  refine .bind (.attempt (leavesRequest_of_onNodes (ZooKeeper.lockNode_within o))) fun locked => ?_
  have unlock := leavesRequest_of_onNodes (δ := δ) (ZooKeeper.unlockNode_within o)
  split
  · exact .pure
  · exact .throw
  · refine .bind (.perform trivial) fun _ => .ite (.bind unlock fun _ => .pure) (.ite ?_ ?_)
    · exact .bind unlock fun _ => .pure
    · exact .bind (useReadyNode_leavesRequest hD ntype o) fun _ => .pure

theorem grabReadyNode_leavesRequest (ntype : String) (os : List NodeRef) :
    LeavesRequest (grabReadyNode D ntype os) := by
  induction os with
  | nil => exact .pure
  | cons o os ih => exact .bind (tryReadyNode_leavesRequest hD ntype o) fun _ => .ite .pure ih

theorem launchNewNode_leavesRequest (ntype : String) : LeavesRequest (launchNewNode D ntype) := by
  refine .bind (.assign fun _ => rfl) fun _ => .bind provider_within fun _ =>
    .bind pool_within fun _ => .bind (.perform trivial) fun _ => .bind .self fun _ =>
    .bind (.perform trivial) fun o => .bind (hD.setNodeMetadata o) fun _ => ?_
  have store := leavesRequest_of_onNodes (δ := δ) (ZooKeeper.storeNode_within o)
  exact .bind store fun _ => .bind (leavesRequest_of_onNodes (ZooKeeper.lockNode_within o)) fun _ =>
    .bind (leavesRequest_of_onNodes (ZooKeeper.assignState_within o _)) fun _ =>
    .bind store fun _ => .bind (.perform trivial) fun _ => .bind (.assign fun _ => rfl) fun _ =>
    hD.launch o

end Request

end NodeRequestHandler

end Nodepool
