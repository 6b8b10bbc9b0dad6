import Nodepool.Zk.NodeFaults

/-!
`CleanupWorker._resetLostRequest`: the request of a launcher that is gone, with the nodes
that are allocated to it, while the operations of ZooKeeper may fail.

A node that cannot be locked ends the recovery, and so does any exception but one: if the
store of a node raises, that is logged, and the request is reset although the node is still
allocated to it.
-/

namespace Nodepool.LostRequests

open Effect Method NodeFaults CleanupWorker

/-- A pending request, and a coherent node cache. -/
structure Lost (w : World) (id : String) : Prop where
  nodup : w.refs.Nodup
  pending : ∃ request, w.request = some request ∧ request.state = .pending
  coherent : ∀ o ∈ w.refs, (w.object o).node = w.stored o
  /-- the nodes of the cache have been stored -/
  named : ∀ o ∈ w.refs, (w.object o).id ≠ none

/-- What is left after `_resetLostRequest`, whether it returns or raises. -/
def reset (E : Faults) (w : World) (id : String) : World :=
  ((resetLostRequest id : LauncherM Unit Unit).runAlone (answer E) () w).2

/-- The nodes that are stored as allocated to the request. -/
def allocated (w : World) (id : String) : List NodeRef :=
  w.refs.filter fun o => (w.stored o).allocatedTo = some id

/-- The request is left as it is, or it is reset when none of its nodes is allocated to it
any more and those that were `INIT` are `DELETING`. -/
def Recovers (E : Faults) (w : World) (id : String) : Prop :=
  (reset E w id).request = w.request ∨
    (reset E w id).request =
        w.request.map (fun request => { request with state := .requested, nodes := [] }) ∧
      (∀ o ∈ w.refs, ((reset E w id).stored o).allocatedTo ≠ some id) ∧
      ∀ o ∈ allocated w id, (w.stored o).state = .init →
        ((reset E w id).stored o).state = .deleting

/-- Nothing but the stores of nodes raises, and the store of the request takes effect. -/
structure Completes (E : Faults) (w : World) (id : String) : Prop where
  read : E.readRequest w.reads = none
  iterate : E.call .nodeIterator = none
  lock : ∀ o ∈ allocated w id, Lockable E o
  unlock : ∀ o ∈ allocated w id, Unlockable E o
  readAgain : E.readRequest (w.reads + 1) = none
  store : ∀ request e, w.request = some request →
    E.call (.setRequest id { request with state := .requested, nodes := [] }) ≠ some (e, false)

/-- Unless the recovery is given up, the store of every allocated node takes effect. -/
def NodesStored (E : Faults) (w : World) (id : String) : Prop :=
  Completes E w id → ∀ o ∈ allocated w id, stores E o = true

variable {E : Faults} {id : String} {w : World} {o : NodeRef}

/-! ### One node -/

/-- The data that is to be stored of a node of the request. -/
def deallocated (now : ℕ) (node : Node) : Node :=
  { node with
    state := if node.state = .init then .deleting else node.state
    stateTime := if node.state = .init then now else node.stateTime
    allocatedTo := none }

/-- What the recovery of one node leaves behind when it goes on. -/
structure NodeDone (E : Faults) (id : String) (o : NodeRef) (w w' : World) : Prop where
  refs : w'.refs = w.refs
  request : w'.request = w.request
  reads : w'.reads = w.reads
  others : ∀ o' ≠ o, w'.object o' = w.object o' ∧ w'.stored o' = w.stored o'
  lock : (w.stored o).allocatedTo = some id → Lockable E o ∧ Unlockable E o
  stored : w'.stored o =
    if (w.stored o).allocatedTo = some id ∧ stores E o = true then deallocated E.now (w.stored o)
    else w.stored o

/-- The recovery is given up because a lock or unlock operation of the node has failed. -/
structure NodeFailed (E : Faults) (id : String) (o : NodeRef) (w w' : World) : Prop where
  request : w'.request = w.request
  allocated : (w.stored o).allocatedTo = some id
  failed : ¬ (Lockable E o ∧ Unlockable E o)

/-- The node is locked, and stored if the store takes effect. -/
structure NodeStored (E : Faults) (o : NodeRef) (w w' : World) : Prop where
  refs : w'.refs = w.refs
  request : w'.request = w.request
  reads : w'.reads = w.reads
  others : ∀ o' ≠ o, w'.object o' = w.object o' ∧ w'.stored o' = w.stored o'
  held : (w'.object o).lock = true
  stored : w'.stored o =
    if stores E o = true then deallocated E.now (w.stored o) else w.stored o

theorem unlock_wp {w' : World} (mine : (w.stored o).allocatedTo = some id)
    (lockable : Lockable E o) (h : NodeStored E o w w') :
    (do
      ZooKeeper.unlockNode o
      pure true : LauncherM Unit Bool).wp (context E)
      (fun goOn _ w'' => if goOn then NodeDone E id o w w'' else NodeFailed E id o w w'')
      (fun _ _ w'' => NodeFailed E id o w w'') () w' := by
  rw [wp_bind]
  refine unlockNode_wp h.held (fun unlockable => ?_) fun e w'' not same => ?_
  · rw [wp_pure, if_pos rfl]
    have same := sameData_setObject o w' { w'.object o with lock := false, threadLock := false }
    refine ⟨h.refs, h.request, h.reads, fun o' ho => ⟨?_, (h.others o' ho).2⟩,
      fun _ => ⟨lockable, unlockable⟩, ?_⟩
    · exact (same.object o' ho).trans (h.others o' ho).1
    · refine h.stored.trans ?_
      simp only [mine, true_and]
  · exact ⟨same.request.trans h.request, mine, fun h => not h.2⟩

/-- Deallocate a node, store it and unlock it. -/
theorem deallocate_wp {object : NodeObject} (mine : (w.stored o).allocatedTo = some id)
    (lockable : Lockable E o) (named : object.id ≠ none) (held : object.lock = true)
    (data : { object.node with allocatedTo := none } = deallocated E.now (w.stored o)) :
    (do
      call (.assignNode o (.allocatedTo none))
      tryCatch (ZooKeeper.storeNode o) fun _ => call (.log "Unable to deallocate node from request")
      ZooKeeper.unlockNode o
      pure true : LauncherM Unit Bool).wp (context E)
      (fun goOn _ w' => if goOn then NodeDone E id o w w' else NodeFailed E id o w w')
      (fun _ _ w' => NodeFailed E id o w w') () (w.setObject o object) := by
  rw [wp_bind]
  refine assignNode_wp ?_
  set w₁ := (w.setObject o object).setObject o (((w.setObject o object).object o).assign
    (.allocatedTo none)) with hw₁
  have object₁ : w₁.object o = { object with node := deallocated E.now (w.stored o) } := by
    rw [hw₁, World.setObject_self, World.setObject_self, ← data]
    rfl
  have others : ∀ o' ≠ o, w₁.object o' = w.object o' := by
    intro o' ho
    rw [hw₁, World.setObject_ne _ ho, World.setObject_ne _ ho]
  have held₁ : (w₁.object o).lock = true := by rw [object₁]; exact held
  -- the store takes effect or not, and an exception is passed over
  have notStored : stores E o = false → NodeStored E o w w₁ := fun h =>
    ⟨rfl, rfl, rfl, fun o' ho => ⟨others o' ho, rfl⟩, held₁, by rw [h]; rfl⟩
  have isStored : stores E o = true → NodeStored E o w (w₁.store o (w₁.object o).node) := by
    intro h
    refine ⟨rfl, rfl, rfl, fun o' ho => ⟨others o' ho, World.store_ne _ ho _⟩, held₁, ?_⟩
    rw [World.store_self, object₁, h]
    rfl
  rw [wp_bind, wp_tryCatch]
  refine storeNode_wp (by rw [object₁]; exact named) (fun stored => ?_) fun e effect fault => ?_
  · exact unlock_wp mine lockable (isStored (by unfold stores; rw [stored]; rfl))
  · refine log_wp ?_
    cases effect with
    | false => exact unlock_wp mine lockable (notStored (by unfold stores; rw [fault]; rfl))
    | true => exact unlock_wp mine lockable (isStored (by unfold stores; rw [fault]; rfl))

theorem deallocateLost_wp (coherent : (w.object o).node = w.stored o)
    (named : (w.object o).id ≠ none) :
    (deallocateLost id o : LauncherM Unit Bool).wp (context E)
      (fun goOn _ w' => if goOn then NodeDone E id o w w' else NodeFailed E id o w w')
      (fun _ _ w' => NodeFailed E id o w w') () w := by
  unfold deallocateLost
  rw [wp_bind]
  refine readNode_wp ?_
  rw [coherent]
  by_cases mine : (w.stored o).allocatedTo = some id
  case neg =>
    rw [if_pos mine, wp_pure, if_pos rfl]
    refine ⟨rfl, rfl, rfl, fun _ _ => ⟨rfl, rfl⟩, fun h => absurd h mine, ?_⟩
    rw [if_neg fun h => mine h.1]
  rw [if_neg (not_not.mpr mine), wp_bind, wp_attempt]
  refine lockNode_wp (fun lockable => ?_) fun e w' not _ same => ?_
  case refine_2 =>
    have failed : NodeFailed E id o w w' :=
      ⟨same.request, mine, fun (h : Lockable E o ∧ Unlockable E o) => not h.1⟩
    cases e with
    | zkLock =>
        rw [wp_bind]
        exact log_wp failed
    | _ => exact failed
  rw [wp_bind]
  refine readNode_wp ?_
  have data : ((w.locked o).object o).node = w.stored o := by simp [World.locked]
  rw [data, if_neg (not_not.mpr mine)]
  by_cases init : (w.stored o).state = .init
  · rw [when, if_pos init, wp_bind]
    refine assignState_wp ?_
    have same : (w.locked o).setObject o (((w.locked o).object o).assign
        (.state .deleting E.now)) = w.setObject o (((w.locked o).object o).assign
          (.state .deleting E.now)) := by
      simp [World.locked, World.setObject]
    rw [same]
    refine deallocate_wp mine lockable ?_ ?_ ?_
    · simpa [World.locked, NodeObject.assign] using named
    · simp [World.locked, NodeObject.assign]
    · simp [World.locked, NodeObject.assign, deallocated, init]
  · rw [when, if_neg init, wp_bind, wp_pure]
    refine deallocate_wp mine lockable named rfl ?_
    simp [deallocated, init]

/-! ### All nodes -/

/-- What the recovery of all given nodes leaves behind. -/
structure Done (E : Faults) (id : String) (os : List NodeRef) (w w' : World) : Prop where
  request : w'.request = w.request
  reads : w'.reads = w.reads
  lock : ∀ o ∈ os, (w.stored o).allocatedTo = some id → Lockable E o ∧ Unlockable E o
  stored : ∀ o ∈ os, w'.stored o =
    if (w.stored o).allocatedTo = some id ∧ stores E o = true then deallocated E.now (w.stored o)
    else w.stored o
  others : ∀ o, o ∉ os → w'.stored o = w.stored o

/-- The recovery is given up at one of the given nodes. -/
structure Failed (E : Faults) (id : String) (os : List NodeRef) (w w' : World) : Prop where
  request : w'.request = w.request
  failed : ∃ o ∈ os, (w.stored o).allocatedTo = some id ∧ ¬ (Lockable E o ∧ Unlockable E o)

theorem NodeDone.failed {os : List NodeRef} {w₁ w' : World} (done : NodeDone E id o w w₁)
    (fresh : o ∉ os) (h : Failed E id os w₁ w') : Failed E id (o :: os) w w' := by
  obtain ⟨o', mem, mine, not⟩ := h.failed
  have apart : o' ≠ o := fun same => fresh (same ▸ mem)
  rw [(done.others o' apart).2] at mine
  exact ⟨h.request.trans done.request, o', List.mem_cons_of_mem _ mem, mine, not⟩

theorem NodeDone.done {os : List NodeRef} {w₁ w' : World} (done : NodeDone E id o w w₁)
    (fresh : o ∉ os) (h : Done E id os w₁ w') : Done E id (o :: os) w w' := by
  have kept : ∀ o' ∈ os, w₁.stored o' = w.stored o' :=
    fun o' mem => (done.others o' fun same => fresh (same ▸ mem)).2
  refine ⟨h.request.trans done.request, h.reads.trans done.reads, ?_, ?_, ?_⟩
  · intro o' mem mine
    rcases List.mem_cons.mp mem with rfl | mem
    · exact done.lock mine
    · exact h.lock o' mem (by rwa [kept o' mem])
  · intro o' mem
    rcases List.mem_cons.mp mem with rfl | mem
    · exact (h.others o' fresh).trans done.stored
    · have := h.stored o' mem
      rwa [kept o' mem] at this
  · intro o' notMem
    rw [List.mem_cons, not_or] at notMem
    exact (h.others o' notMem.2).trans (done.others o' notMem.1).2

theorem deallocateAllLost_wp {os : List NodeRef} (nodup : os.Nodup)
    (coherent : ∀ o ∈ os, (w.object o).node = w.stored o)
    (named : ∀ o ∈ os, (w.object o).id ≠ none) :
    (deallocateAllLost id os : LauncherM Unit Bool).wp (context E)
      (fun finished _ w' => if finished then Done E id os w w' else Failed E id os w w')
      (fun _ _ w' => Failed E id os w w') () w := by
  induction os generalizing w with
  | nil =>
      exact ⟨rfl, rfl, fun _ h => (nomatch h), fun _ h => (nomatch h), fun _ _ => rfl⟩
  | cons o os ih =>
      obtain ⟨fresh, nodup⟩ := List.nodup_cons.mp nodup
      have failedHere : ∀ {w'}, NodeFailed E id o w w' → Failed E id (o :: os) w w' :=
        fun h => ⟨h.request, o, List.mem_cons_self, h.allocated, h.failed⟩
      unfold deallocateAllLost
      rw [wp_bind]
      refine wp_mono (deallocateLost_wp (coherent o List.mem_cons_self)
        (named o List.mem_cons_self)) ?_ fun _ _ _ h => failedHere h
      rintro goOn ⟨⟩ w₁ h
      cases goOn with
      | false => exact failedHere h
      | true =>
          have done : NodeDone E id o w w₁ := h
          have apart : ∀ {o'}, o' ∈ os → o' ≠ o := fun ho' same => fresh (same ▸ ho')
          rw [if_pos rfl]
          refine wp_mono (ih nodup ?_ ?_) ?_ ?_
          · intro o' ho'
            obtain ⟨object, stored⟩ := done.others o' (apart ho')
            rw [object, stored]
            exact coherent o' (List.mem_cons_of_mem _ ho')
          · intro o' ho'
            rw [(done.others o' (apart ho')).1]
            exact named o' (List.mem_cons_of_mem _ ho')
          · rintro finished ⟨⟩ w₂ h₂
            cases finished with
            | false => exact done.failed fresh h₂
            | true => exact done.done fresh h₂
          · exact fun _ _ _ h₂ => done.failed fresh h₂

/-! ### The request -/

/-- The request as it is stored when its nodes are deallocated. -/
def resetRequest (request : NodeRequest) : NodeRequest :=
  { request with state := .requested, nodes := [] }

/-- What `_resetLostRequest` leaves behind, whether it returns or raises. -/
structure Outcome (E : Faults) (id : String) (w w' : World) : Prop where
  kept : ¬ Completes E w id → w'.request = w.request
  completed : Completes E w id → w'.request = w.request.map resetRequest ∧
    ∀ o ∈ w.refs, w'.stored o =
      if (w.stored o).allocatedTo = some id ∧ stores E o = true then
        deallocated E.now (w.stored o)
      else w.stored o

theorem Outcome.of_not {w' : World} (not : ¬ Completes E w id) (h : w'.request = w.request) :
    Outcome E id w w' :=
  ⟨fun _ => h, fun h => absurd h not⟩

theorem mem_allocated : o ∈ allocated w id ↔ o ∈ w.refs ∧ (w.stored o).allocatedTo = some id := by
  simp [allocated]

/-- Store the request after all nodes have been gone through. -/
theorem storeNodeRequest_wp {request : NodeRequest} {w₁ : World}
    (hrequest : w.request = some request) (read : E.readRequest w.reads = none)
    (iterate : E.call .nodeIterator = none) (done : Done E id w.refs w.readRequest w₁) :
    (ZooKeeper.storeNodeRequest id (resetRequest request) : LauncherM Unit Unit).wp (context E)
      (fun _ _ w' => Outcome E id w w') (fun _ _ w' => Outcome E id w w') () w₁ := by
  have reads : w₁.reads = w.reads + 1 := done.reads
  have kept : w₁.request = w.request := done.request
  have unread : E.readRequest w₁.reads ≠ none → ¬ Completes E w id := by
    intro h completes
    rw [reads] at h
    exact h completes.readAgain
  unfold ZooKeeper.storeNodeRequest
  rw [wp_bind]
  refine getNodeRequest_wp (fun again => ?_) (fun h => .of_not (unread h) kept)
    fun e h => .of_not (unread h) kept
  rw [kept, hrequest, if_neg (by simp)]
  have completes : (∀ e, E.call (.setRequest id (resetRequest request)) ≠ some (e, false)) →
      Completes E w id := by
    intro store
    refine ⟨read, iterate, ?_, ?_, reads ▸ again, ?_⟩
    · intro o mem
      obtain ⟨mem, mine⟩ := mem_allocated.mp mem
      exact (done.lock o mem mine).1
    · intro o mem
      obtain ⟨mem, mine⟩ := mem_allocated.mp mem
      exact (done.lock o mem mine).2
    · intro request' e same
      rw [hrequest] at same
      cases same
      exact store e
  have isStored : (∀ e, E.call (.setRequest id (resetRequest request)) ≠ some (e, false)) →
      Outcome E id w (w₁.readRequest.setRequest (resetRequest request)) := by
    intro store
    refine ⟨fun not => absurd (completes store) not, fun _ => ⟨?_, done.stored⟩⟩
    rw [hrequest]
    rfl
  refine reply_wp rfl (fun stored => isStored (by simp [stored])) fun e effect fault => ?_
  cases effect with
  | true => exact isStored (by simp [fault])
  | false => exact .of_not (fun h => h.store request e hrequest fault) kept

theorem resetLostRequest_wp (lost : Lost w id) :
    (resetLostRequest id : LauncherM Unit Unit).wp (context E)
      (fun _ _ w' => Outcome E id w w') (fun _ _ w' => Outcome E id w w') () w := by
  obtain ⟨request, hrequest, pending⟩ := lost.pending
  have unread : E.readRequest w.reads ≠ none → ¬ Completes E w id := fun h completes =>
    h completes.read
  unfold resetLostRequest
  rw [wp_bind]
  refine getNodeRequest_wp (fun read => ?_) (fun h => .of_not (unread h) rfl)
    fun e h => .of_not (unread h) rfl
  rw [hrequest]
  dsimp only
  rw [when, if_pos pending, wp_bind]
  refine reply_wp rfl (fun iterate => ?_) fun e effect fault => ?_
  case refine_2 =>
    rw [ite_self]
    exact .of_not (fun h => by rw [h.iterate] at fault; cases fault) rfl
  have givenUp : ∀ {w'}, Failed E id w.refs w.readRequest w' → Outcome E id w w' := by
    intro w' h
    obtain ⟨o, mem, mine, not⟩ := h.failed
    have mem' : o ∈ allocated w id := mem_allocated.mpr ⟨mem, mine⟩
    exact .of_not (fun completes => not ⟨completes.lock o mem', completes.unlock o mem'⟩) h.request
  rw [wp_bind]
  refine wp_mono (deallocateAllLost_wp lost.nodup lost.coherent lost.named) ?_
    fun _ _ _ h => givenUp h
  rintro finished ⟨⟩ w₁ h
  cases finished with
  | false => exact givenUp h
  | true => exact storeNodeRequest_wp hrequest read iterate h

theorem reset_outcome (lost : Lost w id) : Outcome E id w (reset E w id) := by
  have spec := runAlone_of_wp (resetLostRequest_wp (E := E) lost)
  unfold reset
  generalize (resetLostRequest id : LauncherM Unit Unit).runAlone (answer E) () w = out at spec ⊢
  obtain ⟨⟨result, ⟨⟩⟩, w'⟩ := out
  cases result <;> exact spec

/-- A lost request is recovered exactly when, unless the recovery is given up, the store of
every node that is allocated to it takes effect. -/
theorem recovers_iff (E : Faults) (w : World) (id : String) (lost : Lost w id) :
    Recovers E w id ↔ NodesStored E w id := by
  obtain ⟨request, hrequest, pending⟩ := lost.pending
  have outcome := reset_outcome (E := E) lost
  unfold Recovers NodesStored
  constructor
  · intro h completes o mem
    obtain ⟨hreset, stored⟩ := outcome.completed completes
    obtain ⟨mem, mine⟩ := mem_allocated.mp mem
    rcases h with kept | ⟨-, free, -⟩
    · rw [hreset, hrequest] at kept
      have := congrArg NodeRequest.state (Option.some.inj kept)
      rw [pending] at this
      cases this
    · by_contra not
      refine free o mem ?_
      rw [stored o mem, if_neg fun h => not h.2]
      exact mine
  · intro h
    by_cases completes : Completes E w id
    · obtain ⟨hreset, stored⟩ := outcome.completed completes
      refine .inr ⟨hreset, ?_, ?_⟩
      · intro o mem mine
        rw [stored o mem] at mine
        by_cases allocated : (w.stored o).allocatedTo = some id
        · rw [if_pos ⟨allocated, h completes o (mem_allocated.mpr ⟨mem, allocated⟩)⟩] at mine
          cases mine
        · rw [if_neg fun h => allocated h.1] at mine
          exact allocated mine
      · intro o mem init
        have mem' := mem_allocated.mp mem
        rw [stored o mem'.1, if_pos ⟨mem'.2, h completes o mem⟩]
        exact if_pos init
    · exact .inl (outcome.kept completes)

/-! ### A node whose store fails -/

/-- A node that is allocated to the request `100-0`. -/
def exampleNode : Node where
  state := .ready
  stateTime := 0
  type := ["small"]
  provider := some "cloud"
  pool := some "main"
  launcher := none
  allocatedTo := some "100-0"
  tenantName := none
  requestor := none
  resources := none
  externalId := none

def exampleRequest : NodeRequest where
  id := "100-0"
  state := .pending
  declinedBy := []
  nodeTypes := ["small"]
  nodes := []
  reuse := true
  requestor := none
  provider := none
  relativePriority := 0
  tenantName := none

def exampleWorld : World where
  refs := [.cached 0]
  object := fun _ => ⟨some 0, exampleNode, false, false, false⟩
  stored := fun _ => exampleNode
  request := some exampleRequest
  reads := 0

theorem exampleWorld_lost : Lost exampleWorld "100-0" where
  nodup := List.nodup_singleton _
  pending := ⟨exampleRequest, rfl, rfl⟩
  coherent := fun _ _ => rfl
  named := fun _ _ => by simp [exampleWorld]

/-- The connection is lost while the node is stored. -/
def exampleFaults : Faults where
  call
    | .setNode _ => some (.other, false)
    | _ => none
  readRequest := fun _ => none
  now := 1

theorem recovers_iff_example :
    Recovers exampleFaults exampleWorld "100-0" ↔ NodesStored exampleFaults exampleWorld "100-0" :=
  recovers_iff exampleFaults exampleWorld "100-0" exampleWorld_lost

/-- The request is reset and the node is still allocated to it. -/
theorem not_forall_recovers :
    ¬ ∀ (E : Faults) (w : World) (id : String), Lost w id → Recovers E w id := by
  intro h
  rcases h exampleFaults exampleWorld "100-0" exampleWorld_lost with kept | ⟨-, free, -⟩
  · have := congrArg (Option.map NodeRequest.state) kept
    exact absurd this (by decide)
  · exact free (.cached 0) (List.mem_singleton_self _) rfl

end Nodepool.LostRequests
