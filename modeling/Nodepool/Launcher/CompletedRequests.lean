import Nodepool.Base.Dict
import Nodepool.Effect.Interleave
import Nodepool.Zk.Models

/-!
`NodePool.removeCompletedRequests`: the min-ready requests of the launcher that are
fulfilled are deleted, and the allocation of their nodes is cleared.

It reads each node and stores it again without its lock. Everybody else changes a node
only with its lock held, so the store can only put back what has changed if somebody else
has held the lock since the read. The comment in the source takes it that nobody does;
the commands `delete` and `hold` do. To whom the node is allocated is not looked at either:
if the request could not be deleted in an earlier call, then the node may have been allocated
to another request in between.
-/

namespace Nodepool

open Effect Method

namespace CompletedRequests

inductive Call where
  | getNodeRequest (id : String)
  | getNode (id : NodeId)
  | storeNode (id : NodeId) (node : Node)
  | deleteNodeRequest (id : String)

abbrev Call.Val : Call → Type
  | .getNodeRequest _ => Option NodeRequest
  | .getNode _ => Option Node
  | _ => Unit

inductive Err where
  /-- an attribute of `None` -/
  | attributeError
  /-- any exception of the client library -/
  | kazoo
deriving DecidableEq

abbrev Store : Sig where
  Call := Call
  Val := Call.Val
  Err := Err

/-- `_submittedRequests`: the min-ready requests by label. -/
abbrev Submitted : Type := Dict String (List NodeRequest)

abbrev NodePoolM : Type → Type := Method Store Submitted

abbrev call (c : Call) : NodePoolM c.Val := perform (S := Store) c

/-! ### The method -/

/-- Reset `allocated_to` of one node of a fulfilled request. -/
def resetAllocatedTo : Option NodeId → NodePoolM Unit
  -- there is no node with the path of `None`
  | none => throw .attributeError
  | some id => do
      let node ← call (.getNode id)
      match node with
      | none => throw .attributeError
      | some node => call (.storeNode id { node with allocatedTo := none })

/-- One submitted request; the result is the request if it is still active. -/
def removeRequest (req : NodeRequest) : NodePoolM (List NodeRequest) := do
  let stored ← call (.getNodeRequest req.id)
  match stored with
  | none => pure []
  | some req =>
      if req.state = .fulfilled then do
        forEach req.nodes resetAllocatedTo
        call (.deleteNodeRequest req.id)
        pure []
      else if req.state = .failed then do
        call (.deleteNodeRequest req.id)
        pure []
      else pure [req]

def removeLabel (label : String) : NodePoolM Unit := do
  let submitted ← self
  let active ← gather (submitted.get label []) removeRequest
  if active ≠ [] then assign fun submitted => submitted.insert label active
  else assign fun submitted => submitted.erase label

def removeCompletedRequests : NodePoolM Unit := do
  let submitted ← self
  forEach submitted.keys removeLabel

/-! ### Everybody else -/

structure World where
  request : String → Option NodeRequest
  node : NodeId → Option Node
  /-- somebody else holds the lock of the node -/
  locked : NodeId → Bool
  /-- nobody else has held the lock of the node since it was last read here -/
  undisturbed : NodeId → Bool
  /-- the request that was last read here -/
  current : Option String

namespace World

def setNode (w : World) (id : NodeId) (node : Option Node) : World :=
  { w with node := Function.update w.node id node }

/-- Somebody else takes the lock of the node. -/
def lockNode (w : World) (id : NodeId) : World :=
  { w with
    locked := Function.update w.locked id true
    undisturbed := Function.update w.undisturbed id false }

def unlockNode (w : World) (id : NodeId) : World :=
  { w with locked := Function.update w.locked id false }

@[simp] theorem setNode_node (w : World) (id : NodeId) (node : Option Node) :
    (w.setNode id node).node id = node := by
  simp [setNode]

theorem setNode_node_ne (w : World) {id id' : NodeId} (h : id' ≠ id) (node : Option Node) :
    (w.setNode id node).node id' = w.node id' := by
  simp [setNode, Function.update_of_ne h]

@[simp] theorem lockNode_locked (w : World) (id : NodeId) : (w.lockNode id).locked id = true := by
  simp [lockNode]

theorem lockNode_locked_ne (w : World) {id id' : NodeId} (h : id' ≠ id) :
    (w.lockNode id).locked id' = w.locked id' := by
  simp [lockNode, Function.update_of_ne h]

@[simp] theorem unlockNode_locked (w : World) (id : NodeId) :
    (w.unlockNode id).locked id = false := by
  simp [unlockNode]

theorem unlockNode_locked_ne (w : World) {id id' : NodeId} (h : id' ≠ id) :
    (w.unlockNode id).locked id' = w.locked id' := by
  simp [unlockNode, Function.update_of_ne h]

@[simp] theorem lockNode_undisturbed (w : World) (id : NodeId) :
    (w.lockNode id).undisturbed id = false := by
  simp [lockNode]

theorem lockNode_undisturbed_ne (w : World) {id id' : NodeId} (h : id' ≠ id) :
    (w.lockNode id).undisturbed id' = w.undisturbed id' := by
  simp [lockNode, Function.update_of_ne h]

/-- The node is allocated to the request that is looked at, if to any. -/
def owns (w : World) (node : Node) : Bool :=
  node.allocatedTo = none || node.allocatedTo = w.current

/-- The worlds that a call can lead to if it gets the given reply. A call that fails may
still have taken effect. -/
def next (w : World) : (c : Call) → Store.Reply c → List World
  | .getNodeRequest id, .ok request =>
      if request = w.request id then [{ w with current := some id }] else []
  | .getNode id, .ok node =>
      if node = w.node id then
        [{ w with undisturbed := Function.update w.undisturbed id !w.locked id }]
      else []
  | .storeNode id node, .ok _ => if w.node id = none then [] else [w.setNode id (some node)]
  | .storeNode id node, .error _ =>
      if w.node id = none then [w] else [w, w.setNode id (some node)]
  | .deleteNodeRequest id, .ok _ => [{ w with request := Function.update w.request id none }]
  | .deleteNodeRequest id, .error _ =>
      [w, { w with request := Function.update w.request id none }]
  | _, .error _ => [w]

end World

/-- What other processes do: they change the nodes that they have locked, make new ones,
and change requests. -/
inductive Other : World → World → Prop where
  | lockNode {w : World} (id : NodeId) (free : w.locked id = false) : Other w (w.lockNode id)
  | setNode {w : World} (id : NodeId) (node : Option Node) (locked : w.locked id = true) :
      Other w (w.setNode id node)
  | unlockNode {w : World} (id : NodeId) : Other w (w.unlockNode id)
  | createNode {w : World} (id : NodeId) (node : Node) (fresh : w.node id = none) :
      Other w (w.setNode id (some node))
  | requests {w : World} (request : String → Option NodeRequest) :
      Other w { w with request := request }

/-- The launcher calls `removeCompletedRequests` again and again. -/
abbrev completedSystem : System Store World Unit where
  State _ := Submitted
  Op _ := Unit
  body _ _ submitted := (removeCompletedRequests submitted).bind fun out => .pure out.2
  enabled _ _ _ _ := true
  next _ := World.next
  env := Other

structure Initial (cfg : Config completedSystem) : Prop where
  thread : ∃ submitted, cfg.thread () = .pure submitted
  undisturbed : ∀ id, cfg.world.undisturbed id = false

/-- A node is stored with what it has, but for an allocation to the request that is looked at,
which is cleared. -/
def NoLostUpdate (w : World) : Event completedSystem → Prop
  | .call () (.storeNode id data) _ => ∀ stored, w.node id = some stored →
      data = { stored with allocatedTo := none } ∧ w.owns stored = true
  | _ => True

/-- A node that is read is not allocated to another request, and when it is stored, nobody else
has held its lock since it was read. -/
def harmless (w : World) : Event completedSystem → Bool
  | .call () (.getNode _) (.ok (some node)) => w.owns node
  | .call () (.storeNode id _) _ => w.undisturbed id
  | _ => true

abbrev Harmless (w : World) (e : Event completedSystem) : Prop := harmless w e = true

/-! ### What holds of the world -/

/-- Who holds a lock has held it since the last read. -/
def Disturbed (w : World) : Prop := ∀ id, w.locked id = true → w.undisturbed id = false

/-- What the others leave alone. -/
structure Rely (w w' : World) : Prop where
  current : w'.current = w.current
  undisturbed : ∀ id, w'.undisturbed id = true → w.undisturbed id = true
  node : ∀ id stored, w'.undisturbed id = true → w.node id = some stored →
    w'.node id = some stored

theorem Rely.refl (w : World) : Rely w w := ⟨rfl, fun _ => id, fun _ _ _ => id⟩

theorem Rely.trans {a b c : World} (h : Rely a b) (h' : Rely b c) : Rely a c where
  current := h'.current.trans h.current
  undisturbed id hu := h.undisturbed id (h'.undisturbed id hu)
  node id stored hu hn := h'.node id stored hu (h.node id stored (h'.undisturbed id hu) hn)

variable {w w' : World}

theorem rely_of_other (h : Other w w') (hi : Disturbed w) : Rely w w' := by
  cases h with
  | lockNode id free =>
      refine ⟨rfl, fun id' hu => ?_, fun _ _ _ hn => hn⟩
      by_cases same : id' = id
      · rw [same, World.lockNode_undisturbed] at hu
        cases hu
      · rwa [World.lockNode_undisturbed_ne w same] at hu
  | setNode id node locked =>
      refine ⟨rfl, fun _ hu => hu, fun id' stored hu hn => ?_⟩
      have other : id' ≠ id := fun same => by
        have := hi id locked
        rw [← same] at this
        rw [show w.undisturbed id' = true from hu] at this
        cases this
      rw [World.setNode_node_ne w other]
      exact hn
  | unlockNode id => exact ⟨rfl, fun _ hu => hu, fun _ _ _ hn => hn⟩
  | createNode id node fresh =>
      refine ⟨rfl, fun _ hu => hu, fun id' stored _ hn => ?_⟩
      have other : id' ≠ id := fun same => by
        rw [same, fresh] at hn
        cases hn
      rw [World.setNode_node_ne w other]
      exact hn
  | requests request => exact ⟨rfl, fun _ hu => hu, fun _ _ _ hn => hn⟩

theorem disturbed_of_other (h : Other w w') (hi : Disturbed w) : Disturbed w' := by
  cases h with
  | lockNode id free =>
      intro id' hl
      by_cases same : id' = id
      · rw [same, World.lockNode_undisturbed]
      · rw [World.lockNode_locked_ne w same] at hl
        rw [World.lockNode_undisturbed_ne w same]
        exact hi id' hl
  | unlockNode id =>
      intro id' hl
      by_cases same : id' = id
      · rw [same, World.unlockNode_locked] at hl
        cases hl
      · rw [World.unlockNode_locked_ne w same] at hl
        exact hi id' hl
  | setNode id node locked => exact hi
  | createNode id node fresh => exact hi
  | requests request => exact hi

theorem disturbed_next (hi : Disturbed w) {c : Call} {r : Store.Reply c} :
    ∀ w' ∈ w.next c r, Disturbed w' := by
  intro w' hmem
  unfold World.next at hmem
  split at hmem
  case h_2 id node => -- the node is read
    split at hmem
    · rw [List.mem_singleton.mp hmem]
      intro id' hl
      dsimp only at hl ⊢
      by_cases same : id' = id
      · subst same
        rw [Function.update_self, hl, Bool.not_true]
      · rw [Function.update_of_ne same]
        exact hi id' hl
    · cases hmem
  all_goals (try split at hmem)
  all_goals first
    | (cases hmem; done)
    | (rw [List.mem_singleton.mp hmem]; exact hi)
    | (rcases List.mem_pair.mp hmem with rfl | rfl <;> exact hi)

/-! ### Runs -/

/-- A call that stores a node which is undisturbed stores what it has. -/
def StoresWhatItRead (w : World) : Call → Prop
  | .storeNode id data => w.undisturbed id = true → ∀ stored, w.node id = some stored →
      data = { stored with allocatedTo := none } ∧ w.owns stored = true
  | _ => True

abbrev Γ : Context Store World :=
  completedSystem.context Harmless Disturbed Rely StoresWhatItRead ()

abbrev Keeps {α : Type} (m : NodePoolM α) : Prop := Method.Keeps Γ (fun _ _ => True) m

theorem keeps_call {c : Call} (h : ∀ w, StoresWhatItRead w c) : Keeps (call c) :=
  .perform (fun _ _ _ => trivial) (fun _ w _ _ => h w) fun _ _ _ _ _ _ _ _ => trivial

theorem keeps_resetAllocatedTo (id : Option NodeId) : Keeps (resetAllocatedTo id) := by
  cases id with
  | none => exact .throw
  | some id =>
      intro s w _
      rw [resetAllocatedTo, wp_bind]
      refine wp_call (P := fun _ => True) (fun _ _ _ => trivial) trivial (fun _ _ _ => trivial) ?_
        fun _ _ _ _ _ _ _ => trivial
      intro found w₁ w₂ _ _ hs _
      have hmem : w₂ ∈ w₁.next (.getNode id) (.ok found) := hs.1
      cases found with
      | none => trivial
      | some node =>
          -- what was read is still there as long as nobody takes the lock
          refine wp_call (P := fun w => w.owns node = true ∧
              (w.undisturbed id = true → w.node id = some node))
            (fun hP hr _ => ⟨?_, fun hu => hr.node id node hu (hP.2 (hr.undisturbed id hu))⟩) ?_ ?_
            (fun _ _ _ _ _ _ _ => trivial) fun _ _ _ _ _ _ _ => trivial
          · have own := hP.1
            unfold World.owns at own ⊢
            rwa [hr.current]
          · have own : w₁.owns node = true := hs.2
            unfold World.next at hmem
            dsimp only at hmem
            split at hmem
            · rename_i same
              rw [List.mem_singleton.mp hmem]
              exact ⟨own, fun _ => same.symm⟩
            · cases hmem
          · intro w₃ hP _ hu stored hstored
            rw [hP.2 hu, Option.some.injEq] at hstored
            subst hstored
            exact ⟨rfl, hP.1⟩

theorem keeps_removeRequest (req : NodeRequest) : Keeps (removeRequest req) := by
  refine .bind (keeps_call fun _ => trivial) fun stored => ?_
  cases stored with
  | none => exact .pure
  | some req =>
      refine .ite ?_ (.ite ?_ .pure)
      · exact .bind (.forEach keeps_resetAllocatedTo _) fun _ =>
          .bind (keeps_call fun _ => trivial) fun _ => .pure
      · exact .bind (keeps_call fun _ => trivial) fun _ => .pure

theorem keeps_removeLabel (label : String) : Keeps (removeLabel label) := by
  refine .bind .self fun submitted => .bind (.gather keeps_removeRequest _) fun active => ?_
  exact .ite (.assign fun _ _ _ => trivial) (.assign fun _ _ _ => trivial)

theorem keeps_removeCompletedRequests : Keeps removeCompletedRequests :=
  .bind .self fun _ => .forEach keeps_removeLabel _

def stores : Outline completedSystem Harmless where
  inv := Disturbed
  rely _ := Rely
  req _ := StoresWhatItRead
  linv _ _ _ := True
  rely_refl _ := Rely.refl
  rely_trans _ := Rely.trans
  linv_stable _ _ _ _ _ _ _ := trivial
  entry _ _ s w _ _ _ _ := Prog.wp_bind.mpr
    (Prog.wp_mono (keeps_removeCompletedRequests s w trivial) fun _ _ _ => trivial)
  call_inv _ _ _ _ _ h _ _ hmem := disturbed_next h _ hmem
  call_rely i j _ _ _ _ hij := absurd (Subsingleton.elim i j) hij
  env_inv h he := disturbed_of_other he h
  env_rely _ _ _ h he := rely_of_other he h

/-- **No lost update.** In every run in which the nodes that are read are not allocated to other
requests, and nobody else holds the lock of a node between the read and the store of it, every
step stores nodes with what they have, but for the allocation that is to be cleared. -/
theorem no_lost_update {init cfg cfg' : Config completedSystem} {e : Event completedSystem}
    (hinit : Initial init) (run : completedSystem.Run Harmless init cfg)
    (harmless : Harmless cfg.world e) (step : completedSystem.Step cfg e cfg') :
    NoLostUpdate cfg.world e := by
  have safe : stores.Safe init := by
    obtain ⟨submitted, idle⟩ := hinit.thread
    exact .of_idle (fun id _ => hinit.undisturbed id) fun _ => ⟨submitted, idle, trivial⟩
  have safe' := stores.sound safe run
  cases step with
  | start i op idle enabled => trivial
  | env h => trivial
  | @call w w' th i c k r next mem =>
      have stored : StoresWhatItRead w c := safe'.req (i := ()) next
      cases c with
      | storeNode id data => exact stored harmless
      | getNodeRequest id => trivial
      | getNode id => trivial
      | deleteNodeRequest id => trivial

/-! ### A node that is deleted by command -/

def exampleRequest : NodeRequest where
  id := "1"
  state := .fulfilled
  declinedBy := []
  nodeTypes := ["label"]
  nodes := [some 1]
  reuse := false
  requestor := some "NodePool:min-ready"
  provider := none
  relativePriority := 0
  tenantName := none

def exampleNode (state : NodeState) : Node where
  state := state
  stateTime := 0
  type := ["label"]
  provider := some "provider"
  pool := some "pool"
  launcher := none
  allocatedTo := some "1"
  tenantName := none
  requestor := none
  resources := none
  externalId := none

def exampleInit : Config completedSystem where
  world := ⟨fun _ => some exampleRequest, fun _ => some (exampleNode .ready), fun _ => false,
    fun _ => false, none⟩
  thread _ := .pure (Dict.ofPairs [("label", [exampleRequest])])

theorem exampleInit_initial : Initial exampleInit := ⟨⟨_, rfl⟩, fun _ => rfl⟩

def exampleAnswer : (c : Call) → Store.Reply c
  | .getNodeRequest _ => .ok (some exampleRequest)
  | .getNode _ => .ok (some (exampleNode .ready))
  | .storeNode _ _ | .deleteNodeRequest _ => .ok ()

/-- The request and its node have been read. -/
def readSchedule : List (System.Action completedSystem) :=
  .start () () :: List.replicate 2 (.reply () exampleAnswer 0)

/-- Nobody interferes. -/
theorem no_lost_update_alone : ∃ (cfg : Config completedSystem) (id : NodeId) (data : Node),
    NoLostUpdate cfg.world (.call () (.storeNode id data) (.ok ())) := by
  have hexec : ∃ cfg cfg' id data,
      System.exec harmless exampleInit readSchedule = some cfg ∧
      harmless cfg.world (.call () (.storeNode id data) (.ok ())) = true ∧
      System.exec1 cfg (.reply () exampleAnswer 0) =
        some (.call () (.storeNode id data) (.ok ()), cfg') :=
    ⟨_, _, _, _, rfl, rfl, rfl⟩
  obtain ⟨cfg, cfg', id, data, hcfg, undisturbed, hstep⟩ := hexec
  exact ⟨cfg, id, data, no_lost_update exampleInit_initial
    (System.exec_run Harmless (fun _ _ h => h) hcfg) undisturbed
    (System.exec1_step hstep)⟩

/-- The command `delete` locks the node after it has been read, stores it as DELETING and
unlocks it; then it is stored as READY. -/
theorem not_forall_no_lost_update : ¬ ∀ (init cfg cfg' : Config completedSystem)
    (e : Event completedSystem), Initial init →
    completedSystem.Run completedSystem.always init cfg → completedSystem.Step cfg e cfg' →
    NoLostUpdate cfg.world e := by
  intro h
  have hexec : ∃ cfg cfg' id data,
      System.exec (fun _ _ => true) exampleInit readSchedule = some cfg ∧ id = 1 ∧
      data.state = .ready ∧ cfg.world.locked 1 = false ∧
      System.exec1 { cfg with world := ((cfg.world.lockNode 1).setNode 1
          (some (exampleNode .deleting))).unlockNode 1 } (.reply () exampleAnswer 0) =
        some (.call () (.storeNode id data) (.ok ()), cfg') :=
    ⟨_, _, _, _, rfl, rfl, rfl, rfl, rfl⟩
  obtain ⟨cfg, cfg', id, data, hcfg, rfl, ready, free, hstep⟩ := hexec
  have read := System.exec_run completedSystem.always (fun _ _ _ => trivial) hcfg
  have locked : completedSystem.Run completedSystem.always exampleInit
      { cfg with world := cfg.world.lockNode 1 } :=
    .tail read trivial (.env (.lockNode 1 free))
  have deleted : completedSystem.Run completedSystem.always exampleInit
      { cfg with world := (cfg.world.lockNode 1).setNode 1 (some (exampleNode .deleting)) } :=
    .tail locked trivial (.env (.setNode 1 _ (cfg.world.lockNode_locked 1)))
  have unlocked : completedSystem.Run completedSystem.always exampleInit
      { cfg with world := ((cfg.world.lockNode 1).setNode 1
        (some (exampleNode .deleting))).unlockNode 1 } :=
    .tail deleted trivial (.env (.unlockNode 1))
  have kept := h _ _ cfg' _ exampleInit_initial unlocked (System.exec1_step hstep)
    (exampleNode .deleting) ((cfg.world.lockNode 1).setNode_node 1 _)
  rw [kept.1] at ready
  cases ready

end CompletedRequests

end Nodepool
