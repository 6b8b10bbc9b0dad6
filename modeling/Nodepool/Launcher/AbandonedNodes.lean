import Nodepool.Effect.Run
import Nodepool.Launcher.CleanupWorkers

/-!
One pass of the cleanup workers over nodes that everybody else has abandoned: no lock is
held, no node request exists, the cache is coherent and every call succeeds.

What the workers do with a node depends on that node alone, so a population is kept as one
cell for each node, and a method that is about a node replaces its cell.
-/

namespace Nodepool

open Effect Method

/-- What there is of a node: in ZooKeeper, and as the object of the cache. -/
structure NodeCell where
  znode : Bool
  /-- the data of the znode, if it is not empty -/
  data : Option Node
  object : NodeObject
  locked : Bool
  /-- a node deleter has been started for the node -/
  deleter : Bool

namespace NodeCell

/-- The calls that are about one node. -/
def answer (cell : NodeCell) : (c : Call) → LauncherSig.Reply c × NodeCell
  | .readNode _ => (.ok cell.object, cell)
  | .assignNode _ a => (.ok (), { cell with object := cell.object.assign a })
  | .acquireThreadLock _ =>
      (.ok !cell.object.threadLock, { cell with object := { cell.object with threadLock := true } })
  | .releaseThreadLock _ =>
      (.ok (), { cell with object := { cell.object with threadLock := false } })
  | .acquireLock _ =>
      (.ok !cell.locked,
        { cell with locked := true, object := { cell.object with lockContenders := true } })
  | .releaseLock _ =>
      (.ok (), { cell with
        locked := false, object := { cell.object with lockContenders := false } })
  | .updateNode _ =>
      match cell.data with
      | some node => (.ok node, { cell with object := { cell.object with node := node } })
      | none => (.error .noNode, cell)
  | .setNode _ => (.ok (), { cell with data := some cell.object.node })
  | .getNode _ => (.ok cell.data, cell)
  | .deleteRawNode _ => (.ok (), { cell with znode := false, data := none })
  | .startNodeCleanup _ => (.ok (), { cell with deleter := true })
  | _ => (.error .other, cell)

/-- A node with its data, which is locked or not. -/
def of (id : NodeId) (node : Node) (busy : Bool) : NodeCell :=
  ⟨true, some node, ⟨some id, node, busy, busy, busy⟩, busy, false⟩

end NodeCell

/-- The node that a call is about. -/
def Call.about : Call → Option NodeId
  | .readNode (.cached id) | .assignNode (.cached id) _ | .acquireThreadLock (.cached id)
  | .releaseThreadLock (.cached id) | .acquireLock (.cached id) | .releaseLock (.cached id)
  | .updateNode (.cached id) | .setNode (.cached id) | .startNodeCleanup (.cached id)
  | .getNode id | .deleteRawNode id => some id
  | _ => none

structure Population where
  now : Nat
  ids : List NodeId
  cell : NodeId → NodeCell
  requestLocks : List (String × Nat)
  providers : List String
  /-- the labels with their `max_ready_age` -/
  labels : List (String × Nat)
  maxHoldAge : Option Nat
  holdExpiration : NodeId → Option Nat

namespace Population

def set (w : Population) (id : NodeId) (cell : NodeCell) : Population :=
  { w with cell := Function.update w.cell id cell }

/-- The ids of the nodes that are not empty. -/
def nodeIds (w : Population) : List NodeId := w.ids.filter fun id => (w.cell id).data.isSome

/-- `getReadyNodesOfTypes` -/
def readyNodes (w : Population) (labels : List String) : Dict String (List NodeRef) :=
  Dict.ofPairs (labels.map fun label =>
    (label, (w.nodeIds.filter fun id =>
      (w.cell id).object.node.state = .ready ∧ ¬ truthy (w.cell id).object.node.allocatedTo ∧
        label ∈ (w.cell id).object.node.type).map .cached))

/-- What calls return that are not about one node. There are no node requests. -/
def answerOther (w : Population) : (c : Call) → LauncherSig.Reply c × Population
  | .time => (.ok w.now, w)
  | .configuredProviders => (.ok w.providers, w)
  | .labelMaxReadyAges => (.ok w.labels, w)
  | .maxHoldAge => (.ok w.maxHoldAge, w)
  | .holdExpiration (.cached id) => (.ok (w.holdExpiration id), w)
  | .getNodeRequestIds => (.ok [], w)
  | .getRequest _ => (.error .noNode, w)
  | .requestLockStats => (.ok w.requestLocks, w)
  | .deleteRequestLock id =>
      (.ok (), { w with requestLocks := w.requestLocks.filter fun l => l.1 ≠ id })
  | .nodeIterator => (.ok (w.nodeIds.map .cached), w)
  | .getReadyNodesOfTypes labels => (.ok (w.readyNodes labels), w)
  | .getNodes => (.ok (w.ids.filter fun id => (w.cell id).znode), w)
  | .cleanupLeakedResources _ => (.ok (), w)
  | .log _ => (.ok (), w)
  | _ => (.error .other, w)

def answer (w : Population) (c : Call) : LauncherSig.Reply c × Population :=
  match c.about with
  | some id => (((w.cell id).answer c).1, w.set id ((w.cell id).answer c).2)
  | none => w.answerOther c

/-- One pass of all tasks of the `CleanupWorker`, and one of the `DeletedNodeWorker`. -/
def cleanupPass (w : Population) : Population :=
  (DeletedNodeWorker.runCleanup.runAlone answer ()
    (CleanupWorker.runTasks.runAlone answer () w).2).2

/-- Nodes of configured providers that everybody else has abandoned; some may be empty. -/
structure Abandoned (w : Population) : Prop where
  nodup : w.ids.Nodup
  cell : ∀ id ∈ w.ids, (w.cell id).data = none ∨
    ∃ node, w.cell id = .of id node false ∧ isConfigured w.providers node = true

/-- A node that may stay as it is, or that somebody looks after. -/
def Covered (w : Population) (id : NodeId) (node : Node) : Prop :=
  node.state = .ready ∧ truthy node.allocatedTo = false ∨ node.state = .hold ∨
    (w.cell id).deleter = true

/-- The states that no worker cleans up. -/
def Neglected (state : NodeState) : Prop := state = .init ∨ state = .testing

variable {w w' : Population} {id : NodeId} {node : Node} {cell cell' : NodeCell}

theorem set_set : (w.set id cell).set id cell' = w.set id cell' := by
  simp [set]

theorem set_cell_self : w.set id (w.cell id) = w := by
  simp [set]

@[simp] theorem cell_set_self : (w.set id cell).cell id = cell := by simp [set]

theorem cell_set_of_ne {j : NodeId} (h : j ≠ id) : (w.set id cell).cell j = w.cell j := by
  simp [set, h]

/-! ### Calls and locks -/

section Calls

variable {s : Unit}

/-- A call about a node whose cell is known. -/
theorem local_call {c : Call} {v : c.Val} {Q : c.Val → Population → Prop} (ha : c.about = some id)
    (hc : cell.answer c = (.ok v, cell')) (h : Q v (w.set id cell')) :
    Returns answer (call c) s (w.set id cell) Q := by
  have step : answer (w.set id cell) c = (.ok v, w.set id cell') := by
    unfold answer
    rw [ha]
    simp only [cell_set_self, hc, set_set]
  exact Returns.perform step h

theorem other_call {c : Call} {v : c.Val} {Q : c.Val → Population → Prop} (ha : c.about = none)
    (hc : w.answerOther c = (.ok v, w')) (h : Q v w') : Returns answer (call c) s w Q := by
  have step : answer w c = (.ok v, w') := by
    unfold answer
    rw [ha]
    exact hc
  exact Returns.perform step h

theorem lockNode_returns {Q : Unit → Population → Prop}
    (h : Q () (w.set id (.of id node true))) :
    Returns answer (ZooKeeper.lockNode (.cached id)) s (w.set id (.of id node false)) Q := by
  refine .bind (local_call rfl rfl (.bind (.pure ?_)))
  refine .bind (.tryCatch (.bind (.tryCatch (local_call rfl rfl (.bind (.pure ?_))))))
  exact local_call rfl rfl (.bind (local_call rfl rfl (.pure h)))

theorem unlockNode_returns {Q : Unit → Population → Prop}
    (h : Q () (w.set id (.of id node false))) :
    Returns answer (ZooKeeper.unlockNode (.cached id)) s (w.set id (.of id node true)) Q := by
  refine .bind (local_call rfl rfl (.bind (.pure ?_)))
  exact .bind (local_call rfl rfl (.bind (local_call rfl rfl (local_call rfl rfl h))))

/-- Set a new state and store the node. -/
theorem assignState_returns {state : NodeState} {Q : Unit → Population → Prop}
    (h : Q () (w.set id (.of id { node with state := state, stateTime := w.now } true))) :
    Returns answer (do
      ZooKeeper.assignState (.cached id) state
      ZooKeeper.storeNode (.cached id)) s (w.set id (.of id node true)) Q := by
  refine .bind (.bind (other_call rfl rfl (local_call rfl rfl ?_)))
  exact .bind (local_call rfl rfl (local_call rfl rfl h))

theorem at_cell {α : Type} {m : LauncherM Unit α} {Q : α → Population → Prop}
    (hc : w.cell id = cell) (h : Returns answer m s (w.set id cell) Q) :
    Returns answer m s w Q := by
  rwa [← hc, set_cell_self] at h

theorem readNode_returns {Q : NodeObject → Population → Prop} (h : Q (w.cell id).object w) :
    Returns answer (call (.readNode (.cached id))) s w Q :=
  at_cell rfl (local_call rfl rfl (by rwa [set_cell_self]))

theorem when_returns {b : Prop} [Decidable b] {m : LauncherM Unit Unit}
    {Q : Unit → Population → Prop} (pos : b → Returns answer m s w Q) (neg : ¬ b → Q () w) :
    Returns answer (when b m) s w Q := by
  unfold when
  split
  · rename_i hb
    exact pos hb
  · rename_i hb
    exact .pure (neg hb)

end Calls

/-! ### The tasks of the `CleanupWorker` -/

/-- What a task leaves: nodes may be marked for deletion, but not the neglected ones. -/
structure Kept (w w' : Population) : Prop where
  ids : w'.ids = w.ids
  providers : w'.providers = w.providers
  empty : ∀ id, (w.cell id).data = none → (w'.cell id).data = none
  cell : ∀ id node, w.cell id = .of id node false → ∃ node', w'.cell id = .of id node' false ∧
    node'.provider = node.provider ∧ (Neglected node'.state ↔ Neglected node.state)

theorem Kept.of_cell (ids : w'.ids = w.ids) (providers : w'.providers = w.providers)
    (cell : w'.cell = w.cell) : Kept w w' where
  ids := ids
  providers := providers
  empty id h := by rwa [cell]
  cell id node h := ⟨node, by rwa [cell], rfl, Iff.rfl⟩

theorem Kept.refl (w : Population) : Kept w w := .of_cell rfl rfl rfl

theorem Kept.trans {w'' : Population} (h : Kept w w') (h' : Kept w' w'') : Kept w w'' where
  ids := h'.ids.trans h.ids
  providers := h'.providers.trans h.providers
  empty id he := h'.empty id (h.empty id he)
  cell id node hc := by
    obtain ⟨node', hc', provider, neglected⟩ := h.cell id node hc
    obtain ⟨node'', hc'', provider', neglected'⟩ := h'.cell id node' hc'
    exact ⟨node'', hc'', provider'.trans provider, neglected'.trans neglected⟩

theorem Kept.set {node' : Node} (hc : w.cell id = .of id node false)
    (provider : node'.provider = node.provider)
    (neglected : Neglected node'.state ↔ Neglected node.state) :
    Kept w (w.set id (.of id node' false)) where
  ids := rfl
  providers := rfl
  empty j hj := by
    by_cases hji : j = id
    · subst hji
      rw [hc] at hj
      cases hj
    · rwa [cell_set_of_ne hji]
  cell j n hn := by
    by_cases hji : j = id
    · subst hji
      have same : n = node := by
        have := congrArg (fun c : NodeCell => c.object.node) (hn.symm.trans hc)
        exact this
      subst same
      exact ⟨node', cell_set_self, provider, neglected⟩
    · exact ⟨n, by rwa [cell_set_of_ne hji], rfl, Iff.rfl⟩

theorem Abandoned.kept (h : Abandoned w) (hk : Kept w w') : Abandoned w' where
  nodup := by
    rw [hk.ids]
    exact h.nodup
  cell id hid := by
    rw [hk.ids] at hid
    rcases h.cell id hid with empty | ⟨node, hc, configured⟩
    · exact Or.inl (hk.empty id empty)
    · obtain ⟨node', hc', provider, -⟩ := hk.cell id node hc
      refine Or.inr ⟨node', hc', ?_⟩
      rw [hk.providers]
      unfold isConfigured at configured ⊢
      rwa [provider]

/-- The nodes that an iterator comes to. -/
theorem Abandoned.of_mem (h : Abandoned w) (hid : id ∈ w.nodeIds) :
    ∃ node, w.cell id = .of id node false ∧ isConfigured w.providers node = true := by
  obtain ⟨mem, some_⟩ := List.mem_filter.mp hid
  rcases h.cell id mem with empty | found
  · rw [empty] at some_
    cases some_
  · exact found

theorem mem_nodeIds_kept (h : Abandoned w) (hk : Kept w w') (hid : id ∈ w.nodeIds) :
    id ∈ w'.nodeIds := by
  obtain ⟨node, hc, -⟩ := h.of_mem hid
  obtain ⟨node', hc', -⟩ := hk.cell id node hc
  refine List.mem_filter.mpr ⟨?_, ?_⟩
  · rw [hk.ids]
    exact (List.mem_filter.mp hid).1
  · rw [hc']
    rfl

theorem ifLocked_returns {body : LauncherM Unit Unit} {Q : Unit → Population → Prop}
    (hc : w.cell id = .of id node false)
    (h : Returns answer body () (w.set id (.of id node true)) Q) :
    Returns answer (ifLocked (.cached id) body) () w Q :=
  at_cell hc (.bind (.attempt (lockNode_returns h)))

theorem deleteAged_returns {state : NodeState} (hstate : ¬ Neglected state)
    (hc : w.cell id = .of id node false) :
    Returns answer (CleanupWorker.deleteAged state (.cached id)) () w fun _ w' => Kept w w' := by
  refine ifLocked_returns hc (.bind (local_call rfl rfl ?_))
  split
  · exact unlockNode_returns (by rw [← hc, set_cell_self]; exact .refl w)
  · rename_i same
    refine .bind (.tryCatch (assignState_returns (unlockNode_returns ?_)))
    refine Kept.set hc rfl ⟨fun h => ?_, fun h => ?_⟩
    · rcases h with h | h <;> cases h
    · have : node.state = state := not_not.mp same
      rw [this] at h
      exact absurd h hstate

/-- A loop over nodes, each round of which keeps what a task keeps. -/
theorem forEach_kept {f : NodeRef → LauncherM Unit Unit} {os : List NodeRef}
    (nodes : ∀ o ∈ os, ∃ id ∈ w.nodeIds, o = .cached id) (h : Abandoned w)
    (round : ∀ w', Abandoned w' → ∀ id ∈ w'.nodeIds,
      Returns answer (f (.cached id)) () w' fun _ => Kept w') :
    Returns answer (forEach os f) () w fun _ => Kept w := by
  refine (Returns.forEach (J := fun rest w' => Kept w w' ∧ rest ⊆ os) ?_
    ⟨.refl w, List.Subset.refl _⟩).mono fun _ _ h => h.1
  rintro o rest w' ⟨hk, hsub⟩
  obtain ⟨id, hid, rfl⟩ := nodes o (hsub List.mem_cons_self)
  exact (round w' (h.kept hk) id (mem_nodeIds_kept h hk hid)).mono fun _ _ hk' =>
    ⟨hk.trans hk', fun x hx => hsub (List.mem_cons_of_mem _ hx)⟩

theorem cleanupNodeRequestLocks_returns :
    Returns answer CleanupWorker.cleanupNodeRequestLocks () w fun _ => Kept w := by
  refine .bind (other_call rfl rfl (.bind (other_call rfl rfl (.bind (other_call rfl rfl ?_)))))
  refine Returns.forEach (J := fun _ w' => Kept w w') (fun lock rest w' hk => ?_) (.refl w)
  refine when_returns (fun _ => other_call rfl rfl ?_) fun _ => hk
  exact hk.trans (.of_cell rfl rfl rfl)

theorem cleanupLeakedInstances_returns :
    Returns answer CleanupWorker.cleanupLeakedInstances () w fun _ => Kept w := by
  refine .bind (other_call rfl rfl ?_)
  exact Returns.forEach (J := fun _ w' => Kept w w')
    (fun provider rest w' hk => .tryCatch (other_call rfl rfl hk)) (.refl w)

/-- There is no lost request, as there are no requests. -/
theorem cleanupLostRequests_returns :
    Returns answer CleanupWorker.cleanupLostRequests () w fun _ => Kept w :=
  .bind (other_call rfl rfl (.pure (.refl w)))

theorem of_mem_readyNodes {labels : List String} {label : String} {o : NodeRef}
    (ho : o ∈ (w.readyNodes labels).get label []) : ∃ id ∈ w.nodeIds, o = .cached id := by
  revert o
  refine Dict.get_ofPairs (p := fun os : List NodeRef => ∀ {o}, o ∈ os →
    ∃ id ∈ w.nodeIds, o = .cached id) (fun h => absurd h List.not_mem_nil) ?_
  rintro kv hkv o ho
  obtain ⟨l, -, rfl⟩ := List.mem_map.mp hkv
  obtain ⟨id, hid, rfl⟩ := List.mem_map.mp ho
  exact ⟨id, (List.mem_filter.mp hid).1, rfl⟩

theorem not_neglected_ready : ¬ Neglected .ready := fun h => by rcases h with h | h <;> cases h

theorem not_neglected_hold : ¬ Neglected .hold := fun h => by rcases h with h | h <;> cases h

theorem cleanupMaxReadyAge_returns (h : Abandoned w) :
    Returns answer CleanupWorker.cleanupMaxReadyAge () w fun _ => Kept w := by
  refine .bind (other_call rfl rfl (.bind (other_call rfl rfl ?_)))
  refine Returns.forEach (J := fun _ w' => Kept w w') (fun label rest w₁ hk => ?_) (.refl w)
  have nodes : ∀ {labels : List String}, ∀ o ∈ (w.readyNodes labels).get label.1 [],
      ∃ id ∈ w₁.nodeIds, o = .cached id := by
    intro labels o ho
    obtain ⟨id, hid, rfl⟩ := of_mem_readyNodes ho
    exact ⟨id, mem_nodeIds_kept h hk hid, rfl⟩
  refine (forEach_kept nodes (h.kept hk) fun w₂ h₂ id hid => ?_).mono fun _ _ hk' => hk.trans hk'
  obtain ⟨node, hc, -⟩ := h₂.of_mem hid
  refine .bind (readNode_returns (.bind (other_call rfl rfl ?_)))
  refine when_returns (fun _ => .bind (other_call rfl rfl ?_)) fun _ => .refl w₂
  exact when_returns (fun _ => deleteAged_returns not_neglected_ready hc) fun _ => .refl w₂

theorem cleanupMaxHoldAge_returns (h : Abandoned w) :
    Returns answer CleanupWorker.cleanupMaxHoldAge () w fun _ => Kept w := by
  refine .bind (other_call rfl rfl ?_)
  refine .bind ((Returns.gather (J := fun w' => w' = w)
    (p := fun o => ∃ id ∈ w.nodeIds, o = .cached id) ?_ rfl).mono ?_)
  · rintro o ho w₁ rfl
    obtain ⟨id, hid, rfl⟩ := List.mem_map.mp ho
    refine .bind (readNode_returns (.pure ⟨rfl, fun o' ho' => ?_⟩))
    split at ho'
    · obtain rfl := List.mem_singleton.mp ho'
      exact ⟨id, hid, rfl⟩
    · exact absurd ho' List.not_mem_nil
  · rintro held w₁ ⟨rfl, nodes⟩
    refine forEach_kept nodes h fun w₂ h₂ id hid => ?_
    obtain ⟨node, hc, -⟩ := h₂.of_mem hid
    refine .bind (readNode_returns (.bind (other_call rfl rfl ?_)))
    refine when_returns (fun _ => ?_) fun _ => .refl w₂
    refine .bind (other_call rfl rfl (.bind (other_call rfl rfl ?_)))
    split
    · exact .pure (.refl w₂)
    · refine .bind (other_call rfl rfl ?_)
      exact when_returns (fun _ => deleteAged_returns not_neglected_hold hc) fun _ => .refl w₂

theorem Kept.remove (he : (w.cell id).data = none) :
    Kept w (w.set id { w.cell id with znode := false, data := none }) where
  ids := rfl
  providers := rfl
  empty j hj := by
    by_cases hji : j = id
    · subst hji
      rw [cell_set_self]
    · rwa [cell_set_of_ne hji]
  cell j n hn := by
    have hji : j ≠ id := by
      rintro rfl
      rw [hn] at he
      cases he
    exact ⟨n, by rwa [cell_set_of_ne hji], rfl, Iff.rfl⟩

theorem cleanupEmptyNodes_returns :
    Returns answer CleanupWorker.cleanupEmptyNodes () w fun _ => Kept w := by
  refine .bind (other_call rfl rfl ?_)
  refine Returns.forEach (J := fun _ w' => Kept w w') (fun id rest w₁ hk => ?_) (.refl w)
  refine .bind (at_cell rfl (local_call rfl rfl ?_))
  rw [set_cell_self]
  refine when_returns (fun empty => at_cell rfl (local_call rfl rfl ?_)) fun _ => hk
  exact hk.trans (.remove empty)

theorem runTasks_returns (h : Abandoned w) :
    Returns answer CleanupWorker.runTasks () w fun _ => Kept w := by
  have next : ∀ {task rest : LauncherM Unit Unit} {w₁ : Population}, Kept w w₁ →
      (∀ w₁, Abandoned w₁ → Returns answer task () w₁ fun _ => Kept w₁) →
      (∀ w₂, Kept w w₂ → Returns answer rest () w₂ fun _ => Kept w) →
      Returns answer (do
        tryCatch task fun _ => call (.log "Exception in CleanupWorker")
        rest) () w₁ fun _ => Kept w :=
    fun hk ht hr => .bind (.tryCatch ((ht _ (h.kept hk)).mono fun _ _ hk' => hr _ (hk.trans hk')))
  refine next (.refl w) (fun _ _ => cleanupNodeRequestLocks_returns) fun _ hk => ?_
  refine next hk (fun _ _ => cleanupLeakedInstances_returns) fun _ hk => ?_
  refine next hk (fun _ _ => cleanupLostRequests_returns) fun _ hk => ?_
  refine next hk (fun _ => cleanupMaxReadyAge_returns) fun _ hk => ?_
  refine next hk (fun _ => cleanupMaxHoldAge_returns) fun _ hk => ?_
  exact next hk (fun _ _ => cleanupEmptyNodes_returns) fun _ hk => .pure hk

/-! ### The `DeletedNodeWorker` -/

/-- What the worker makes of one node. -/
def Cleaned (id : NodeId) (node : Node) (cell : NodeCell) : Prop :=
  (Neglected node.state ∧ cell = .of id node false) ∨
    ¬ Neglected node.state ∧ ∀ node', cell.data = some node' →
      node'.state = .ready ∧ truthy node'.allocatedTo = false ∨ node'.state = .hold ∨
        cell.deleter = true

/-- No request is found. -/
theorem getNodeRequest_returns {requestId : String} {Q : Option NodeRequest → Population → Prop}
    (h : Q none w) : Returns answer (ZooKeeper.getNodeRequest requestId) () w Q :=
  ⟨none, w, rfl, h⟩

theorem isLost_returns {busy : Bool} {Q : Bool → Population → Prop}
    (h : Q (decide (node.state = .ready ∧ truthy node.allocatedTo = true))
      (w.set id (.of id node busy))) :
    Returns answer (DeletedNodeWorker.isLost (.cached id)) () (w.set id (.of id node busy)) Q := by
  refine .bind (local_call rfl rfl ?_)
  have shown : (NodeCell.of id node busy).object.node = node := rfl
  simp only [shown]
  cases ha : node.allocatedTo with
  | none =>
      rw [ha] at h
      rw [decide_eq_false (by simp [truthy])] at h
      exact .pure h
  | some requestId =>
      rw [ha] at h
      dsimp only
      by_cases lost : node.state = .ready ∧ truthy (some requestId) = true
      · rw [decide_eq_true lost] at h
        rw [if_pos lost]
        exact .bind (getNodeRequest_returns (.pure h))
      · rw [decide_eq_false lost] at h
        rw [if_neg lost]
        exact .pure h

/-- A ready node is deallocated, and any other node stays as it is. -/
theorem deallocateNode_returns {Q : Unit → Population → Prop}
    (lost : node.state = .ready → truthy node.allocatedTo = true →
      Q () (w.set id (.of id { node with allocatedTo := none } false)))
    (kept : ¬ (node.state = .ready ∧ truthy node.allocatedTo = true) →
      Q () (w.set id (.of id node false))) :
    Returns answer (DeletedNodeWorker.deallocateNode (.cached id)) ()
      (w.set id (.of id node false)) Q := by
  refine .bind (isLost_returns (when_returns (fun hl => ?_) fun hl => ?_))
  · have isLost := of_decide_eq_true hl
    refine ifLocked_returns cell_set_self ?_
    rw [set_set]
    refine .bind (isLost_returns (.bind (when_returns (fun _ => ?_) fun h => absurd hl h)))
    refine .bind (local_call rfl rfl (.tryCatch (.bind (local_call rfl rfl ?_))))
    exact local_call rfl rfl (unlockNode_returns (lost isLost.1 isLost.2))
  · exact kept fun h => hl (decide_eq_true h)

/-- A node that has been deleted is removed with its lock. -/
theorem deleteRemains_returns (state : node.state = .deleted) :
    Returns answer (DeletedNodeWorker.deleteRemains (.cached id)) ()
      (w.set id (.of id node true)) fun _ w' => ∃ c, w' = w.set id c ∧ Cleaned id node c := by
  refine .tryCatch (.bind (local_call rfl rfl ?_))
  refine .bind (.bind (other_call rfl rfl (local_call rfl rfl ?_)))
  refine .bind (local_call rfl rfl (.bind (local_call rfl rfl (.bind (local_call rfl rfl ?_)))))
  refine when_returns (fun _ => local_call rfl rfl ?_) fun _ => ?_
  all_goals
    refine ⟨_, rfl, Or.inr ⟨?_, fun _ h => nomatch h⟩⟩
    rw [state]
    rintro (h | h) <;> cases h

theorem deleteNode_returns (state : node.state ∈ DeletedNodeWorker.cleanupStates)
    (configured : node.provider ≠ none) :
    Returns answer (DeletedNodeWorker.deleteNode (.cached id)) () (w.set id (.of id node false))
      fun _ w' => ∃ c, w' = w.set id c ∧ Cleaned id node c := by
  refine ifLocked_returns cell_set_self ?_
  rw [set_set]
  refine .bind (local_call rfl rfl ?_)
  split
  · rename_i deleted
    have deleted : node.state = .deleted ∨ node.provider = none := deleted
    exact deleteRemains_returns (deleted.resolve_right configured)
  · split
    · rename_i changed
      exact absurd state changed
    · refine .tryCatch (local_call rfl rfl ⟨_, rfl, Or.inr ⟨?_, fun _ _ => Or.inr (Or.inr rfl)⟩⟩)
      rintro (h | h) <;> rw [h] at state <;> exact absurd state (by decide)

/-- Apart from the states in which a node is deleted, and those that nobody cleans up,
there are two. -/
theorem state_cases (state : NodeState) (h : state ∉ DeletedNodeWorker.cleanupStates) :
    state = .ready ∨ state = .hold ∨ Neglected state := by
  cases state <;> first
    | exact Or.inl rfl
    | exact Or.inr (Or.inl rfl)
    | exact Or.inr (Or.inr (Or.inl rfl))
    | exact Or.inr (Or.inr (Or.inr rfl))
    | exact absurd (by decide) h

theorem cleanupNode_returns (hc : w.cell id = .of id node false)
    (configured : isConfigured w.providers node = true) :
    Returns answer (DeletedNodeWorker.cleanupNode (.cached id)) () w
      fun _ w' => ∃ c, w' = w.set id c ∧ Cleaned id node c := by
  have provider : node.provider ≠ none := by
    intro h
    rw [isConfigured, h] at configured
    cases configured
  refine at_cell hc (.bind (local_call rfl rfl (.bind (other_call rfl rfl ?_))))
  refine when_returns (fun _ => .bind ?_) fun h => absurd ⟨configured, rfl⟩ h
  refine deallocateNode_returns (fun ready _ => ?_) fun kept => ?_
  · -- a ready node is deallocated, and then left alone
    refine .bind (local_call rfl rfl (when_returns (fun h => ?_) fun _ => ?_))
    · have : node.state ∈ DeletedNodeWorker.cleanupStates := h
      rw [ready] at this
      exact absurd this (by decide)
    · refine ⟨_, rfl, Or.inr ⟨?_, fun node' h => Or.inl ?_⟩⟩
      · rw [ready]
        exact not_neglected_ready
      · cases h
        exact ⟨ready, rfl⟩
  · refine .bind (local_call rfl rfl (when_returns (fun h => ?_) fun h => ?_))
    · exact deleteNode_returns h provider
    · refine ⟨_, rfl, ?_⟩
      rcases state_cases node.state h with ready | hold | neglected
      · refine Or.inr ⟨by rw [ready]; exact not_neglected_ready, fun node' h => Or.inl ?_⟩
        cases h
        exact ⟨ready, Bool.eq_false_iff.mpr fun ha => kept ⟨ready, ha⟩⟩
      · refine Or.inr ⟨by rw [hold]; exact not_neglected_hold, fun node' h => Or.inr (Or.inl ?_)⟩
        cases h
        exact hold
      · exact Or.inl ⟨neglected, rfl⟩

/-- While the worker goes through the nodes: those that it still comes to are as they were. -/
structure Sweep (w : Population) (rest : List NodeRef) (w' : Population) : Prop where
  nodup : rest.Nodup
  nodes : ∀ o ∈ rest, ∃ id ∈ w.nodeIds, o = .cached id
  providers : w'.providers = w.providers
  empty : ∀ id, id ∉ w.nodeIds → w'.cell id = w.cell id
  untouched : ∀ id, .cached id ∈ rest → w'.cell id = w.cell id
  cleaned : ∀ id ∈ w.nodeIds, NodeRef.cached id ∉ rest → ∀ node, w.cell id = .of id node false →
    Cleaned id node (w'.cell id)

theorem Sweep.init (h : Abandoned w) : Sweep w (w.nodeIds.map .cached) w where
  nodup := (h.nodup.filter _).map fun _ _ h => NodeRef.cached.inj h
  nodes o ho := by
    obtain ⟨id, hid, rfl⟩ := List.mem_map.mp ho
    exact ⟨id, hid, rfl⟩
  providers := rfl
  empty _ _ := rfl
  untouched _ _ := rfl
  cleaned id hid hrest := absurd (List.mem_map_of_mem hid) hrest

theorem Sweep.step {rest : List NodeRef} {c : NodeCell} (h : Sweep w (.cached id :: rest) w')
    (hc : w.cell id = .of id node false) (cleaned : Cleaned id node c) :
    Sweep w rest (w'.set id c) where
  nodup := (List.nodup_cons.mp h.nodup).2
  nodes o ho := h.nodes o (List.mem_cons_of_mem _ ho)
  providers := h.providers
  empty j hj := by
    have hji : j ≠ id := by
      rintro rfl
      obtain ⟨k, hk, he⟩ := h.nodes _ List.mem_cons_self
      cases he
      exact hj hk
    rw [cell_set_of_ne hji]
    exact h.empty j hj
  untouched j hj := by
    have hji : j ≠ id := by
      rintro rfl
      exact (List.nodup_cons.mp h.nodup).1 hj
    rw [cell_set_of_ne hji]
    exact h.untouched j (List.mem_cons_of_mem _ hj)
  cleaned j hj hrest n hn := by
    by_cases hji : j = id
    · subst hji
      have same : n = node := congrArg (fun c : NodeCell => c.object.node) (hn.symm.trans hc)
      rw [cell_set_self, same]
      exact cleaned
    · rw [cell_set_of_ne hji]
      refine h.cleaned j hj (fun hmem => ?_) n hn
      rcases List.mem_cons.mp hmem with he | hmem
      · exact hji (NodeRef.cached.inj he)
      · exact hrest hmem

theorem runCleanup_returns (h : Abandoned w) :
    Returns answer DeletedNodeWorker.runCleanup () w fun _ => Sweep w [] := by
  refine .tryCatch (.bind (other_call rfl rfl (Returns.forEach ?_ (.init h))))
  rintro o rest w' sweep
  obtain ⟨id, hid, rfl⟩ := sweep.nodes o List.mem_cons_self
  obtain ⟨node, hc, configured⟩ := h.of_mem hid
  have hc' : w'.cell id = .of id node false := (sweep.untouched id List.mem_cons_self).trans hc
  rw [← sweep.providers] at configured
  refine (cleanupNode_returns hc' configured).mono ?_
  rintro _ _ ⟨c, rfl, cleaned⟩
  exact sweep.step hc cleaned

/-! ### The whole pass -/

/-- A pass ends, and with what both workers leave. -/
theorem cleanupPass_sweep (h : Abandoned w) :
    ∃ w₁, Kept w w₁ ∧ Abandoned w₁ ∧ Sweep w₁ [] (cleanupPass w) := by
  obtain ⟨-, kept⟩ := (runTasks_returns h).runAlone_snd
  have h₁ := h.kept kept
  obtain ⟨-, sweep⟩ := (runCleanup_returns h₁).runAlone_snd
  exact ⟨_, kept, h₁, sweep⟩

/-- **Main result.** One pass takes care of every abandoned node exactly if none of them is
in a state that no worker cleans up. -/
theorem cleanupPass_covers_iff (h : Abandoned w) :
    (∀ id ∈ w.ids, ∀ node, ((cleanupPass w).cell id).data = some node →
      Covered (cleanupPass w) id node) ↔
    ∀ id ∈ w.ids, ∀ node, (w.cell id).data = some node → ¬ Neglected node.state := by
  obtain ⟨w₁, kept, h₁, sweep⟩ := cleanupPass_sweep h
  constructor
  · rintro covered id hid node hd neglected
    obtain ⟨node, hc, -⟩ := (h.cell id hid).resolve_left (by rw [hd]; exact fun h => nomatch h)
    rw [hc] at hd
    cases hd
    -- the node is still there, as it was
    obtain ⟨node', hc', -, same⟩ := kept.cell id node hc
    have hid' : id ∈ w₁.nodeIds := by
      refine List.mem_filter.mpr ⟨by rw [kept.ids]; exact hid, ?_⟩
      rw [hc']
      rfl
    have neglected' := same.mpr neglected
    rcases sweep.cleaned id hid' List.not_mem_nil node' hc' with ⟨-, left⟩ | ⟨not, -⟩
    · have data : ((cleanupPass w).cell id).data = some node' := by rw [left]; rfl
      rcases covered id hid node' data with ⟨ready, -⟩ | hold | deleter
      · rw [ready] at neglected'
        exact not_neglected_ready neglected'
      · rw [hold] at neglected'
        exact not_neglected_hold neglected'
      · rw [left] at deleter
        cases deleter
    · exact not neglected'
  · rintro clean id hid node hd
    by_cases hid' : id ∈ w₁.nodeIds
    · obtain ⟨node', hc', -⟩ := h₁.of_mem hid'
      rcases sweep.cleaned id hid' List.not_mem_nil node' hc' with ⟨neglected, -⟩ | ⟨-, all⟩
      · -- it was neglected before the pass as well
        obtain ⟨node₀, hc₀, -⟩ | empty := (h.cell id hid).symm
        · obtain ⟨node₁, hc₁, -, same⟩ := kept.cell id node₀ hc₀
          have he : node₁ = node' :=
            congrArg (fun c : NodeCell => c.object.node) (hc₁.symm.trans hc')
          rw [he] at same
          exact absurd (same.mp neglected) (clean id hid node₀ (by rw [hc₀]; rfl))
        · have := kept.empty id empty
          rw [hc'] at this
          cases this
      · exact all node hd
    · rw [sweep.empty id hid'] at hd
      have : id ∈ w₁.nodeIds :=
        List.mem_filter.mpr ⟨by rw [kept.ids]; exact hid, by rw [hd]; rfl⟩
      exact absurd this hid'

/-! ### Examples -/

def exampleNode (state : NodeState) : Node where
  state := state
  stateTime := 0
  type := ["small"]
  provider := some "aws"
  pool := some "main"
  launcher := none
  allocatedTo := some "100-0000000001"
  tenantName := none
  requestor := none
  resources := none
  externalId := none

/-- Two nodes of one request that is gone. -/
def exampleNodes (first second : NodeState) : Population where
  now := 100
  ids := [1, 2]
  cell id := .of id (exampleNode (if id = 1 then first else second)) false
  requestLocks := []
  providers := ["aws"]
  labels := []
  maxHoldAge := none
  holdExpiration _ := none

theorem exampleNodes_abandoned (first second : NodeState) :
    Abandoned (exampleNodes first second) where
  nodup := (by decide : [1, 2].Nodup)
  cell id _ := Or.inr ⟨_, rfl, by simp [isConfigured, exampleNodes, exampleNode]⟩

/-- A node that was being built, and a ready one. -/
theorem cleanupPass_covers_iff_exampleNodes :
    (∀ id ∈ (exampleNodes .building .ready).ids, ∀ node,
      ((cleanupPass (exampleNodes .building .ready)).cell id).data = some node →
        Covered (cleanupPass (exampleNodes .building .ready)) id node) ↔
    ∀ id ∈ (exampleNodes .building .ready).ids, ∀ node,
      ((exampleNodes .building .ready).cell id).data = some node → ¬ Neglected node.state :=
  cleanupPass_covers_iff (exampleNodes_abandoned .building .ready)

/-- A node in INIT whose request is gone stays in INIT. -/
theorem not_forall_cleanupPass_covers :
    ¬ ∀ w : Population, Abandoned w →
      ∀ id ∈ w.ids, ∀ node, ((cleanupPass w).cell id).data = some node →
        Covered (cleanupPass w) id node := by
  intro h
  have left : ((cleanupPass (exampleNodes .init .ready)).cell 1).data =
      some (exampleNode .init) := rfl
  have unowned : ((cleanupPass (exampleNodes .init .ready)).cell 1).deleter = false := rfl
  rcases h _ (exampleNodes_abandoned .init .ready) 1 (by decide) _ left with
    ⟨ready, -⟩ | hold | deleter
  · cases ready
  · cases hold
  · exact absurd (unowned.symm.trans deleter) (by decide)

end Population

end Nodepool
