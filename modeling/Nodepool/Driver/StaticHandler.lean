import Nodepool.Driver.HandlerFootprint
import Nodepool.Effect.Serial

/-!
The handler of a static pool, which can only use nodes that exist: what the calls of
`NodeRequestHandler` return when nobody else changes a node, how the handler takes a node
that it has been offered, and how it gives up. A node is taken if it `Fits` and has not been
taken for another type of the request.
-/

namespace Nodepool.StaticHandler

open Effect Method NodeRequestHandler

/-- A host of the configuration. -/
structure Host where
  hostKeyChecking : Bool
  /-- `nodescan` can connect to it -/
  reachable : Bool

/-- The configuration of the pool, and what does not change while the handler runs. -/
structure StaticPool where
  provider : ProviderConfig
  pool : PoolConfig
  /-- the labels of all pools of the provider -/
  labels : List String
  errorLabels : List String
  registered : List PoolComponent
  /-- the entry for the host of a node in `poolNodes()` -/
  host : NodeRef → Option Host
  /-- somebody else holds the lock of the node -/
  locked : NodeRef → Bool
  now : ℕ

/-- `StaticNodeRequestHandler` -/
def driver : Driver Unit where
  imagesAvailable := pure true
  hasProviderQuota _ := pure true
  -- always at quota, since new nodes cannot be launched
  hasRemainingQuota _ := pure false
  checkReusableNode o := call (.checkReusableNode o)
  nodeReusedNotification _ := pure ()
  setNodeMetadata _ := pure ()
  launch _ := throw .other
  launchesComplete := pure true

/-! ### The world of the handler -/

structure World where
  /-- the node objects, in the order of the iterator -/
  refs : List NodeRef
  object : NodeRef → NodeObject
  /-- the data in ZooKeeper -/
  stored : NodeRef → Node
  request : NodeRequest

namespace World

def setObject (w : World) (o : NodeRef) (object : NodeObject) : World :=
  { w with object := Function.update w.object o object }

def store (w : World) (o : NodeRef) (node : Node) : World :=
  { w with stored := Function.update w.stored o node }

end World

/-- When host-key-checking is disabled, the node is assumed to be live. -/
def StaticPool.live (P : StaticPool) (o : NodeRef) : Bool :=
  match P.host o with
  | none => false
  | some host => !host.hostKeyChecking || host.reachable

/-- `deregisterNode`: a READY node that can be locked is to be deleted. -/
def deregisterNode (P : StaticPool) (w : World) (o : NodeRef) : World :=
  if (w.object o).threadLock ∨ P.locked o then w
  else if (w.stored o).state ≠ .ready then
    w.setObject o { w.object o with node := w.stored o }
  else
    let node := { w.stored o with state := .deleting, stateTime := P.now }
    (w.setObject o { w.object o with node := node }).store o node

/-- `checkNodeLiveness` -/
def checkNodeLiveness (P : StaticPool) (w : World) (o : NodeRef) : Bool × World :=
  if P.live o then (true, w)
  else match P.host o with
    | none => (false, w)
    | some _ => (false, deregisterNode P w o)

/-- Add a node under each of the labels it has. -/
def addReadyNode (w : World) (labels : List String) (ret : Dict String (List NodeRef))
    (o : NodeRef) : Dict String (List NodeRef) :=
  let node := (w.object o).node
  if node.state ≠ .ready ∨ truthy node.allocatedTo then ret
  else (labels.filter (· ∈ node.type)).foldl
    (fun ret label => AList.insert label (ret.get label [] ++ [o]) ret) ret

/-- What the calls return, with nobody else at work. -/
def answer (P : StaticPool) : Answer LauncherSig World := fun w c =>
  match c with
  | .getProviderConfig => (.ok (some P.provider), w)
  | .getPoolConfig => (.ok (some P.pool), w)
  | .errorLabels => (.ok P.errorLabels, w)
  | .pauseAtQuota => (.ok false, w)
  | .getRegisteredPools => (.ok P.registered, w)
  | .checkReusableNode o => (.ok (checkNodeLiveness P w o).1, (checkNodeLiveness P w o).2)
  | .time => (.ok P.now, w)
  | .log _ => (.ok (), w)
  | .getRequest _ => (.ok w.request, w)
  | .setRequest _ data => (.ok (), { w with request := data })
  | .releaseRequestLock _ => (.ok (), w)
  | .nodeIterator => (.ok w.refs, w)
  | .getReadyNodesOfTypes labels => (.ok (w.refs.foldl (addReadyNode w labels) ∅), w)
  | .readNode o => (.ok (w.object o), w)
  | .assignNode o a => (.ok (), w.setObject o ((w.object o).assign a))
  | .acquireThreadLock o =>
      if (w.object o).threadLock then (.ok false, w)
      else (.ok true, w.setObject o { w.object o with threadLock := true })
  | .releaseThreadLock o => (.ok (), w.setObject o { w.object o with threadLock := false })
  | .acquireLock o => (.ok (!P.locked o), w)
  | .releaseLock _ => (.ok (), w)
  | .updateNode o =>
      (.ok (w.stored o), w.setObject o { w.object o with node := w.stored o })
  | .setNode o => (.ok (), w.store o (w.object o).node)
  | _ => (.error .other, w)

/-- Nobody has changed a node since it was cached, and each has an identifier of its own. -/
structure AtRest (w : World) : Prop where
  current : ∀ o, (w.object o).node = w.stored o
  numbered : ∀ o ∈ w.refs, (w.object o).id ≠ none
  distinct : ∀ o ∈ w.refs, ∀ o' ∈ w.refs, (w.object o).id = (w.object o').id → o = o'

/-! ### Nodes that can be used -/

variable (P : StaticPool)

/-- A free node of the type, of the provider and the pool. -/
structure Suits (w : World) (ntype : String) (o : NodeRef) : Prop where
  ready : (w.object o).node.state = .ready
  unallocated : ¬ truthy (w.object o).node.allocatedTo
  type : ntype ∈ (w.object o).node.type
  provider : (w.object o).node.provider = some P.provider.name
  pool : (w.object o).node.pool = some P.pool.name

/-- The handler can use the node: nobody has locked it, and it is live. -/
structure Fits (w : World) (ntype : String) (o : NodeRef) : Prop extends Suits P w ntype o where
  uncontended : (w.object o).lockContenders = false
  live : P.live o = true
  free : (w.object o).threadLock = false
  unlocked : P.locked o = false

instance (w : World) (ntype : String) (o : NodeRef) : Decidable (Suits P w ntype o) :=
  decidable_of_iff ((w.object o).node.state = .ready ∧ ¬ truthy (w.object o).node.allocatedTo ∧
      ntype ∈ (w.object o).node.type ∧ (w.object o).node.provider = some P.provider.name ∧
      (w.object o).node.pool = some P.pool.name)
    ⟨fun h => ⟨h.1, h.2.1, h.2.2.1, h.2.2.2.1, h.2.2.2.2⟩, fun h => ⟨h.1, h.2, h.3, h.4, h.5⟩⟩

instance (w : World) (ntype : String) (o : NodeRef) : Decidable (Fits P w ntype o) :=
  decidable_of_iff (Suits P w ntype o ∧ (w.object o).lockContenders = false ∧
      P.live o = true ∧ (w.object o).threadLock = false ∧ P.locked o = false)
    ⟨fun h => ⟨h.1, h.2.1, h.2.2.1, h.2.2.2.1, h.2.2.2.2⟩, fun h => ⟨h.1, h.2, h.3, h.4, h.5⟩⟩

/-! ### Single calls -/

section Calls

attribute [local simp] answer

variable {P} {w : World} {o : NodeRef} {s : Handler Unit} {E : Err → Handler Unit → World → Prop}

abbrev Γ (P : StaticPool) : Context LauncherSig World := answerContext (answer P)

theorem provider_wp {Q : ProviderConfig → Handler Unit → World → Prop} {p : ProviderConfig}
    (hp : s.provider = some (some p)) (h : Q p s w) : provider.wp (Γ P) Q E s w := by
  rw [provider, wp_bind, wp_self, hp]
  exact h

theorem pool_wp {Q : PoolConfig → Handler Unit → World → Prop} {p : PoolConfig}
    (hp : s.pool = some (some p)) (h : Q p s w) : pool.wp (Γ P) Q E s w := by
  rw [pool, wp_bind, wp_self, hp]
  exact h

theorem returns {c : Call} {Q : c.Val → Handler Unit → World → Prop} {v : c.Val} {w₁ : World}
    (answered : answer P w c = (.ok v, w₁)) (h : Q v s w₁) : (call c).wp (Γ P) Q E s w := by
  refine wp_answer ?_
  rw [answered]
  exact h

theorem checked_live (live : P.live o = true) :
    answer P w (.checkReusableNode o) = (.ok true, w) := by
  simp [answer, checkNodeLiveness, live]

/-- A node that is not live is locked by nobody then, and is to be deleted. -/
theorem checked_dead (dead : ¬ P.live o = true) :
    ∃ object stored, answer P w (.checkReusableNode o) =
      (.ok false, { w with
        object := Function.update w.object o object
        stored := Function.update w.stored o stored }) := by
  have same : { w with
      object := Function.update w.object o (w.object o)
      stored := Function.update w.stored o (w.stored o) } = w := by
    rw [Function.update_eq_self, Function.update_eq_self]
  simp only [answer, checkNodeLiveness, if_neg dead]
  cases P.host o with
  | none => exact ⟨_, _, by rw [same]⟩
  | some host =>
      dsimp only
      unfold deregisterNode
      split
      · exact ⟨_, _, by rw [same]⟩
      split
      · refine ⟨{ w.object o with node := w.stored o }, w.stored o, ?_⟩
        rw [Function.update_eq_self]
        rfl
      · exact ⟨_, _, rfl⟩

theorem answer_acquireThreadLock (free : (w.object o).threadLock = false) :
    answer P w (.acquireThreadLock o) =
      (.ok true, w.setObject o { w.object o with threadLock := true }) := by
  simp [answer, free]

/-- The thread lock of the object is taken already. -/
theorem lockNode_refused {Q : Unit → Handler Unit → World → Prop}
    (held : (w.object o).threadLock = true) (h : E .zkLock s w) :
    (ZooKeeper.lockNode o).wp (Γ P) Q E s w := by
  have refused : answer P w (.acquireThreadLock o) = (.ok false, w) := by simp [answer, held]
  rw [ZooKeeper.lockNode, wp_bind]
  exact returns refused h

/-- Somebody else holds the lock in ZooKeeper; the thread lock is released again. -/
theorem lockNode_elsewhere {Q : Unit → Handler Unit → World → Prop}
    (free : (w.object o).threadLock = false) (locked : P.locked o = true) (h : E .zkLock s w) :
    (ZooKeeper.lockNode o).wp (Γ P) Q E s w := by
  have refused {w' : World} : answer P w' (.acquireLock o) = (.ok false, w') := by
    simp [answer, locked]
  have same : (w.setObject o { w.object o with threadLock := true }).setObject o
      { (w.setObject o { w.object o with threadLock := true }).object o with threadLock := false } =
      w := by
    unfold World.setObject
    simp only [Function.update_self, Function.update_idem]
    rw [show { w.object o with threadLock := false } = w.object o by rw [← free],
      Function.update_eq_self]
  rw [ZooKeeper.lockNode, wp_bind]
  refine returns (answer_acquireThreadLock free) ?_
  rw [wp_bind, raiseUnless, if_pos rfl, wp_pure, wp_bind, wp_tryCatch, wp_bind, wp_tryCatch]
  refine returns refused ?_
  rw [wp_bind, raiseUnless, if_neg Bool.false_ne_true, wp_throw, wp_bind, wp_tryCatch]
  refine returns rfl ?_
  rw [wp_throw, same]
  exact h

/-- An object that has just been set is set again. -/
theorem assignNode_set {object : NodeObject} {a : NodeAttr} {Q : Unit → Handler Unit → World → Prop}
    (h : Q () s (w.setObject o (object.assign a))) :
    (call (.assignNode o a)).wp (Γ P) Q E s (w.setObject o object) := by
  have again : (w.setObject o object).setObject o (((w.setObject o object).object o).assign a) =
      w.setObject o (object.assign a) := by
    simp [World.setObject, Function.update_idem]
  refine returns rfl ?_
  rw [again]
  exact h

theorem updateNode_set {object : NodeObject} {Q : Node → Handler Unit → World → Prop}
    (h : Q (w.stored o) s (w.setObject o { object with node := w.stored o })) :
    (call (.updateNode o)).wp (Γ P) Q E s (w.setObject o object) := by
  have again : answer P (w.setObject o object) (.updateNode o) =
      (.ok (w.stored o), w.setObject o { object with node := w.stored o }) := by
    simp [answer, World.setObject, Function.update_idem]
  exact returns again h

theorem lockNode_free {Q : Unit → Handler Unit → World → Prop}
    (free : (w.object o).threadLock = false) (unlocked : P.locked o = false)
    (h : Q () s (w.setObject o
      { w.object o with threadLock := true, lock := true, node := w.stored o })) :
    (ZooKeeper.lockNode o).wp (Γ P) Q E s w := by
  have granted {w' : World} : answer P w' (.acquireLock o) = (.ok true, w') := by
    simp [answer, unlocked]
  rw [ZooKeeper.lockNode, wp_bind]
  refine returns (answer_acquireThreadLock free) ?_
  rw [wp_bind, raiseUnless, if_pos rfl, wp_pure, wp_bind, wp_tryCatch, wp_bind, wp_tryCatch]
  refine returns granted ?_
  rw [wp_bind, raiseUnless, if_pos rfl, wp_pure]
  refine assignNode_set ?_
  rw [wp_bind]
  refine updateNode_set ?_
  rw [wp_pure]
  exact h

theorem storeNode_wp {Q : Unit → Handler Unit → World → Prop} (numbered : (w.object o).id ≠ none)
    (h : Q () s (w.store o (w.object o).node)) : (ZooKeeper.storeNode o).wp (Γ P) Q E s w := by
  rw [ZooKeeper.storeNode, wp_bind]
  refine returns rfl ?_
  rw [if_neg numbered]
  exact returns rfl h

end Calls

/-! ### Taking nodes -/

section Filling

variable (w₀ : World) (req : NodeRequest) (launcherId : String)

/-- A node object that the handler has locked and allocated. -/
def grabbed (object : NodeObject) : NodeObject :=
  { object with
    lock := true
    threadLock := true
    node := { object.node with
      allocatedTo := some req.id
      tenantName := req.tenantName
      requestor := req.requestor } }

/-- The handler, when it has accepted the request and taken these nodes. -/
def handlerWith (taken : List (String × NodeRef)) : Handler Unit :=
  { Handler.init launcherId { req with state := .pending } () with
    provider := some (some P.provider)
    pool := some (some P.pool)
    nodeset := taken.map (·.2)
    satisfiedTypes := ⟨taken.map fun t => (t.1, (w₀.object t.2).id)⟩ }

/-- The nodes that are taken are locked and allocated; the others are as they were, unless
they have turned out to be dead. -/
structure Taken (P : StaticPool) (w₀ : World) (req : NodeRequest)
    (taken : List (String × NodeRef)) (w : World) : Prop where
  refs : w.refs = w₀.refs
  request : w.request = { req with state := .pending }
  object : ∀ o, P.live o = true → w.object o =
    if o ∈ taken.map (·.2) then grabbed req (w₀.object o) else w₀.object o
  stored : ∀ o, P.live o = true → w.stored o =
    if o ∈ taken.map (·.2) then (grabbed req (w₀.object o)).node else w₀.stored o

variable {P w₀ req launcherId} {taken : List (String × NodeRef)} {w : World} {o : NodeRef}
variable (atRest : AtRest w₀)
include atRest

theorem useReadyNode_wp (ntype : String) {object : NodeObject} (h : Taken P w₀ req taken w)
    (mem : o ∈ w₀.refs) (new : o ∉ taken.map (·.2))
    (assigned : ((object.assign (.allocatedTo (some req.id))).assign
      (.tenantName req.tenantName)).assign (.requestor req.requestor) =
        grabbed req (w₀.object o)) :
    (useReadyNode driver ntype o).wp (Γ P)
      (fun _ s' w' => s' = handlerWith P w₀ req launcherId (taken ++ [(ntype, o)]) ∧
        Taken P w₀ req (taken ++ [(ntype, o)]) w') (fun _ _ _ => False)
      (handlerWith P w₀ req launcherId taken) (w.setObject o object) := by
  have own : (w.setObject o (grabbed req (w₀.object o))).object o = grabbed req (w₀.object o) :=
    Function.update_self ..
  have members (o' : NodeRef) : o' ∈ (taken ++ [(ntype, o)]).map (·.2) ↔
      o' = o ∨ o' ∈ taken.map (·.2) := by
    simp [or_comm]
  rw [useReadyNode, wp_bind, wp_assign, wp_bind, wp_self, wp_bind]
  refine assignNode_set ?_
  rw [wp_bind]
  refine assignNode_set ?_
  rw [wp_bind]
  refine assignNode_set ?_
  change wp (Γ P) _ _ _ _ (w.setObject o (((object.assign (.allocatedTo (some req.id))).assign
    (.tenantName req.tenantName)).assign (.requestor req.requestor)))
  rw [assigned, wp_bind]
  refine storeNode_wp (by rw [own]; exact atRest.numbered o mem) ?_
  rw [wp_bind]
  refine returns rfl ?_
  rw [wp_bind, wp_assign]
  refine ⟨?_, h.refs, h.request, fun o' live => ?_, fun o' live => ?_⟩
  · unfold handlerWith Handler.addNode LabelRecorder.add
    dsimp only [World.store]
    rw [own]
    simp only [List.map_append, List.map_cons, List.map_nil]
    rfl
  · by_cases same : o' = o
    · subst same
      rw [if_pos ((members o').mpr (.inl rfl))]
      exact own
    · have object' : ((w.setObject o (grabbed req (w₀.object o))).store o
          ((w.setObject o (grabbed req (w₀.object o))).object o).node).object o' = w.object o' :=
        Function.update_of_ne same ..
      rw [object', h.object o' live]
      simp only [members, same, false_or]
  · by_cases same : o' = o
    · subst same
      rw [if_pos ((members o').mpr (.inl rfl)), own]
      exact Function.update_self ..
    · have stored' : ((w.setObject o (grabbed req (w₀.object o))).store o
          ((w.setObject o (grabbed req (w₀.object o))).object o).node).stored o' = w.stored o' :=
        Function.update_of_ne same ..
      rw [stored', h.stored o' live]
      simp only [members, same, false_or]

omit atRest in
/-- What a dead node has become does not matter. -/
theorem Taken.dead (h : Taken P w₀ req taken w) (dead : ¬ P.live o = true) (object : NodeObject)
    (node : Node) : Taken P w₀ req taken { w with
      object := Function.update w.object o object
      stored := Function.update w.stored o node } where
  refs := h.refs
  request := h.request
  object o' live := by
    rw [← h.object o' live]
    exact Function.update_of_ne (fun same : o' = o => dead (same ▸ live)) ..
  stored o' live := by
    rw [← h.stored o' live]
    exact Function.update_of_ne (fun same : o' = o => dead (same ▸ live)) ..

/-- What is left after trying one node: it is taken if it fits and is not taken yet. -/
def Tried (P : StaticPool) (w₀ : World) (req : NodeRequest) (launcherId ntype : String)
    (taken : List (String × NodeRef)) (o : NodeRef) (got : Bool) (s : Handler Unit)
    (w : World) : Prop :=
  if Fits P w₀ ntype o ∧ o ∉ taken.map (·.2) then
    got = true ∧ s = handlerWith P w₀ req launcherId (taken ++ [(ntype, o)]) ∧
      Taken P w₀ req (taken ++ [(ntype, o)]) w
  else got = false ∧ s = handlerWith P w₀ req launcherId taken ∧ Taken P w₀ req taken w

omit atRest in
theorem Tried.passed {ntype : String} (h : Taken P w₀ req taken w)
    (unfit : ¬ (Fits P w₀ ntype o ∧ o ∉ taken.map (·.2))) :
    Tried P w₀ req launcherId ntype taken o false (handlerWith P w₀ req launcherId taken) w := by
  rw [Tried, if_neg unfit]
  exact ⟨rfl, rfl, h⟩

/-- The lock of a node that the handler wants. -/
theorem lockReadyNode_wp (ntype : String) (h : Taken P w₀ req taken w) (mem : o ∈ w₀.refs)
    (suits : Suits P w₀ ntype o) (live : P.live o = true)
    (uncontended : (w₀.object o).lockContenders = false) :
    wp (Γ P) (do
        let locked ← attempt (ZooKeeper.lockNode o)
        match locked with
        | .error .zkLock => pure false
        | .error e => throw e
        | .ok () => do
            let object ← call (.readNode o)
            if object.node.state ≠ .ready then do
              ZooKeeper.unlockNode o
              pure false
            else if truthy object.node.allocatedTo then do
              ZooKeeper.unlockNode o
              pure false
            else do
              useReadyNode driver ntype o
              pure true)
      (Tried P w₀ req launcherId ntype taken o) (fun _ _ _ => False)
      (handlerWith P w₀ req launcherId taken) w := by
  rw [wp_bind, wp_attempt]
  by_cases new : o ∈ taken.map (·.2)
  · have held : (w.object o).threadLock = true := by rw [h.object o live, if_pos new]; rfl
    exact lockNode_refused held (Tried.passed h fun fits => fits.2 new)
  have object : w.object o = w₀.object o := by rw [h.object o live, if_neg new]
  cases free : (w.object o).threadLock with
  | true =>
      refine lockNode_refused free (Tried.passed h fun fits => ?_)
      rw [object, fits.1.free] at free
      cases free
  | false =>
      cases locked : P.locked o with
      | true =>
          refine lockNode_elsewhere free locked (Tried.passed h fun fits => ?_)
          rw [fits.1.unlocked] at locked
          cases locked
      | false =>
          have stored : w.stored o = (w₀.object o).node := by
            rw [h.stored o live, if_neg new, atRest.current]
          have fits : Fits P w₀ ntype o := ⟨suits, uncontended, live, object ▸ free, locked⟩
          refine lockNode_free free locked ?_
          dsimp only
          rw [wp_bind]
          refine returns rfl ?_
          have read : (w.setObject o { w.object o with
              threadLock := true, lock := true, node := w.stored o }).object o =
              { w.object o with threadLock := true, lock := true, node := w.stored o } :=
            Function.update_self ..
          rw [read, if_neg (by simp [stored, suits.ready]),
            if_neg (by simpa [stored] using suits.unallocated), wp_bind]
          refine wp_mono (useReadyNode_wp atRest ntype h mem new ?_) ?_ fun _ _ _ h => h
          · rw [object, stored]
            rfl
          · rintro _ s' w' ⟨hs, hw⟩
            rw [wp_pure, Tried, if_pos ⟨fits, new⟩]
            exact ⟨rfl, hs, hw⟩

theorem tryReadyNode_wp (ntype : String) (h : Taken P w₀ req taken w) (mem : o ∈ w₀.refs)
    (ready : (w₀.object o).node.state = .ready)
    (unallocated : ¬ truthy (w₀.object o).node.allocatedTo)
    (type : ntype ∈ (w₀.object o).node.type) :
    (tryReadyNode driver ntype o).wp (Γ P) (Tried P w₀ req launcherId ntype taken o)
      (fun _ _ _ => False) (handlerWith P w₀ req launcherId taken) w := by
  rw [tryReadyNode, wp_bind]
  refine provider_wp rfl ?_
  rw [wp_bind]
  refine pool_wp rfl ?_
  rw [wp_bind]
  refine returns rfl ?_
  by_cases live : P.live o = true
  · -- what the handler looks at before it locks the node is as it was
    have sameProvider : (w.object o).node.provider = (w₀.object o).node.provider := by
      rw [h.object o live]; split <;> rfl
    have samePool : (w.object o).node.pool = (w₀.object o).node.pool := by
      rw [h.object o live]; split <;> rfl
    have sameContenders : (w.object o).lockContenders = (w₀.object o).lockContenders := by
      rw [h.object o live]; split <;> rfl
    rw [sameProvider, samePool, sameContenders]
    split
    · rename_i other
      exact Tried.passed h fun fits => other fits.1.provider
    rename_i provider
    split
    · rename_i other
      exact Tried.passed h fun fits => other fits.1.pool
    rename_i pool
    split
    · rename_i contended
      refine Tried.passed h fun fits => ?_
      rw [fits.1.uncontended] at contended
      cases contended
    rename_i uncontended
    rw [wp_bind]
    refine returns (checked_live live) ?_
    rw [if_pos rfl]
    exact lockReadyNode_wp atRest ntype h mem
      ⟨ready, unallocated, type, not_not.mp provider, not_not.mp pool⟩ live
      (Bool.eq_false_iff.mpr uncontended)
  · have unfit : ¬ (Fits P w₀ ntype o ∧ o ∉ taken.map (·.2)) := fun fits => live fits.1.live
    split
    · exact Tried.passed h unfit
    split
    · exact Tried.passed h unfit
    split
    · exact Tried.passed h unfit
    obtain ⟨object, node, checked⟩ := checked_dead live
    rw [wp_bind]
    refine returns checked ?_
    rw [if_neg Bool.false_ne_true]
    exact Tried.passed (h.dead live object node) unfit

/-- What is left after looking for a node: the one that was found is taken. -/
def Grabbed (P : StaticPool) (w₀ : World) (req : NodeRequest) (launcherId ntype : String)
    (taken : List (String × NodeRef)) (found : Option NodeRef) (got : Bool) (s : Handler Unit)
    (w : World) : Prop :=
  match found with
  | some o => got = true ∧ s = handlerWith P w₀ req launcherId (taken ++ [(ntype, o)]) ∧
      Taken P w₀ req (taken ++ [(ntype, o)]) w
  | none => got = false ∧ s = handlerWith P w₀ req launcherId taken ∧ Taken P w₀ req taken w

/-- The node is in the list of ready nodes for the type. -/
def ReadyFor (w₀ : World) (ntype : String) (o : NodeRef) : Prop :=
  (w₀.object o).node.state = .ready ∧ ¬ truthy (w₀.object o).node.allocatedTo ∧
    ntype ∈ (w₀.object o).node.type

instance (w₀ : World) (ntype : String) (o : NodeRef) : Decidable (ReadyFor w₀ ntype o) :=
  inferInstanceAs (Decidable (_ ∧ _ ∧ _))

theorem grabReadyNode_wp (ntype : String) (h : Taken P w₀ req taken w) (os : List NodeRef)
    (listed : ∀ o ∈ os, o ∈ w₀.refs ∧ ReadyFor w₀ ntype o) :
    (grabReadyNode driver ntype os).wp (Γ P)
      (Grabbed P w₀ req launcherId ntype taken
        (os.find? fun o => Fits P w₀ ntype o ∧ o ∉ taken.map (·.2)))
      (fun _ _ _ => False) (handlerWith P w₀ req launcherId taken) w := by
  induction os generalizing w with
  | nil => exact ⟨rfl, rfl, h⟩
  | cons o os ih =>
      obtain ⟨mem, ready, unallocated, type⟩ := listed o List.mem_cons_self
      rw [grabReadyNode, wp_bind]
      refine wp_mono (tryReadyNode_wp atRest ntype h mem ready unallocated type) ?_ fun _ _ _ h => h
      intro got s₁ w₁ h₁
      by_cases fits : Fits P w₀ ntype o ∧ o ∉ taken.map (·.2)
      · rw [Tried, if_pos fits] at h₁
        obtain ⟨rfl, rfl, h₁⟩ := h₁
        rw [if_pos rfl, List.find?_cons_of_pos (by simpa using fits)]
        exact ⟨rfl, rfl, h₁⟩
      · rw [Tried, if_neg fits] at h₁
        obtain ⟨rfl, rfl, h₁⟩ := h₁
        rw [if_neg Bool.false_ne_true, List.find?_cons_of_neg (by simpa using fits)]
        exact ih h₁ fun o' h' => listed o' (List.mem_cons_of_mem o h')

end Filling

/-! ### Giving up -/

section Giving

variable {P} {s : Handler Unit} {w : World}

/-- The handler is done, and the request is not fulfilled. -/
def GivenUp (s : Handler Unit) (w : World) : Prop :=
  s.done = true ∧ s.paused = false ∧ w.request.state ≠ .fulfilled

theorem stable_true : Stable (Γ P) (fun _ => True) fun _ => True :=
  Stable.alone fun _ _ _ => trivial

/-- An exception of a method that changes no attribute is logged. -/
theorem caught_wp {C : Call → Prop} {m : HandlerM Unit Unit} (hm : Within C id m)
    (message : String) :
    (tryCatch m fun _ => call (.log message)).wp (Γ P) (fun _ s' _ => s' = s)
      (fun _ _ _ => False) s w := by
  rw [wp_tryCatch]
  refine wp_mono ((hm.mono fun _ _ => trivial).wp stable_true trivial) (fun _ _ _ h => h.1) ?_
  exact fun _ _ _ h => returns rfl h.1

theorem unlockNodeOfSet_wp (clear : Bool) (o : NodeRef) :
    (unlockNodeOfSet clear o).wp (Γ P) (fun _ s' _ => s' = s) (fun _ _ _ => False) s w := by
  rw [unlockNodeOfSet, wp_bind]
  refine returns rfl ?_
  split
  · have unlocked (w : World) : (tryCatch (ZooKeeper.unlockNode o)
        fun _ => call (.log "Error unlocking node") : HandlerM Unit Unit).wp (Γ P)
        (fun _ s' _ => s' = s) (fun _ _ _ => False) s w :=
      caught_wp (ZooKeeper.unlockNode_within o) _
    rw [wp_bind]
    unfold when
    split
    · rw [clearNodeAllocation, wp_bind]
      refine returns rfl ?_
      refine wp_mono (caught_wp (ZooKeeper.storeNode_within o) _) ?_ fun _ _ _ h => h
      rintro _ _ w₁ rfl
      exact unlocked w₁
    · exact unlocked w
  · exact rfl

theorem unlockNodeSet_wp (clear : Bool) :
    (unlockNodeSet clear).wp (Γ P) (fun _ s' _ => s' = { s with nodeset := [] })
      (fun _ _ _ => False) s w := by
  rw [unlockNodeSet, wp_bind, wp_self, wp_bind]
  refine wp_mono (wp_forEach (J := fun s' _ => s' = s) ?_ rfl) ?_ fun _ _ _ h => h
  · rintro o _ w' rfl
    exact unlockNodeOfSet_wp clear o
  · rintro _ _ w' rfl
    rfl

theorem getNodeRequest_wp {id : String} {Q : Option NodeRequest → Handler Unit → World → Prop}
    {E : Err → Handler Unit → World → Prop} (h : Q (some w.request) s w) :
    (ZooKeeper.getNodeRequest id).wp (Γ P) Q E s w := by
  rw [ZooKeeper.getNodeRequest, wp_tryCatch, wp_bind]
  exact returns rfl h

theorem storeNodeRequest_wp {Q : Unit → Handler Unit → World → Prop}
    {E : Err → Handler Unit → World → Prop} (h : Q () s { w with request := s.request }) :
    storeNodeRequest.wp (Γ P) Q E s w := by
  rw [storeNodeRequest, wp_bind, wp_self, wp_bind]
  refine getNodeRequest_wp ?_
  rw [if_neg (by simp)]
  exact returns rfl h

theorem declinedHandlerCleanup_wp (hs : s.request.state ≠ .fulfilled) :
    declinedHandlerCleanup.wp (Γ P) (fun _ => GivenUp) (fun _ _ _ => False) s w := by
  rw [declinedHandlerCleanup, wp_bind]
  refine wp_mono (unlockNodeSet_wp true) ?_ fun _ _ _ h => h
  rintro _ _ w₁ rfl
  rw [wp_bind, wp_assign, wp_bind, wp_tryCatch, wp_bind]
  refine storeNodeRequest_wp ?_
  rw [unlockNodeRequest, wp_bind, wp_self, wp_bind]
  unfold raiseUnless
  split
  · rw [wp_pure, wp_bind]
    refine returns rfl ?_
    exact ⟨rfl, rfl, hs⟩
  · rw [wp_throw]
    refine returns rfl ?_
    exact ⟨rfl, rfl, hs⟩

theorem declineRequest_wp :
    declineRequest.wp (Γ P) (fun _ => GivenUp) (fun _ _ _ => False) s w := by
  rw [declineRequest, declineLocally, wp_bind, wp_bind, wp_assign, wp_bind]
  refine returns rfl ?_
  rw [wp_bind, wp_self]
  split
  · refine declinedHandlerCleanup_wp ?_
    exact fun h => by cases h
  · refine declinedHandlerCleanup_wp ?_
    exact fun h => by cases h

/-- Without a free node the handler gives up, unless it raises. -/
theorem atQuota_wp {p : ProviderConfig} {p' : PoolConfig} (hprovider : s.provider = some (some p))
    (hpool : s.pool = some (some p')) (hs : s.request.state ≠ .fulfilled) :
    atQuota.wp (Γ P) (fun _ => GivenUp) (fun _ _ _ => True) s w := by
  rw [atQuota, wp_bind, wp_self]
  split
  · exact wp_mono declineRequest_wp (fun _ _ _ h => h) fun _ _ _ _ => trivial
  · rw [wp_bind]
    refine provider_wp hprovider ?_
    rw [wp_bind]
    refine pool_wp hpool ?_
    rw [wp_bind]
    have aside : Within Call.onNodes id
        (ZooKeeper.deleteOldestUnusedNode p.name p'.name : HandlerM Unit Bool) :=
      ZooKeeper.deleteOldestUnusedNode_within p.name p'.name
    refine wp_mono ((aside.mono fun _ _ => trivial).wp stable_true trivial) ?_
      fun _ _ _ _ => trivial
    rintro _ s₁ w₁ ⟨rfl, -⟩
    rw [wp_bind]
    refine returns rfl ?_
    rw [if_neg Bool.false_ne_true]
    exact wp_mono (declinedHandlerCleanup_wp hs) (fun _ _ _ h => h) fun _ _ _ _ => trivial

end Giving

end Nodepool.StaticHandler
