import Nodepool.Effect.Serial
import Nodepool.Zk.Models

/-!
The thread that launches a node of a Kubernetes provider: `NodeLauncher.run` of
`nodepool/driver/utils.py` with `K8SLauncher.launch` of
`nodepool/driver/kubernetes/handler.py`, and `createNamespace` and `createPod` of the
provider. Calls of the Kubernetes API that follow one another without a change to the node
are one call here.

The request handler waits until each of its nodes is ready, failed or aborted.
-/

namespace Nodepool.Kubernetes

open Effect Method

/-- What is raised in the thread, as far as its handlers tell it apart. -/
inductive KubeErr where
  | sessionExpired
  | quota
  | other (statsdKey : Option String)
deriving DecidableEq, Repr

/-- The dictionary that describes how to reach what was created. -/
structure KubeResource where
  name : String
  namespaceName : String
  pod : Option String
deriving DecidableEq, Repr

/-- The `Node` object of the thread. -/
structure KubeNode where
  id : String
  state : NodeState
  externalId : Option String
  hostId : Option String
  interfaceIp : Option String
  connectionPort : Option KubeResource
  connectionType : Option String
  pythonPath : Option String
  shellType : Option String
  resources : Option Resources
  cloud : Option String
deriving DecidableEq

/-- What the thread knows of the label, the pool and the provider. -/
structure KubeLabel where
  name : String
  isNamespace : Bool
  pythonPath : Option String
  shellType : Option String
  poolName : String
  context : Option String
  launchRetries : ℤ

inductive KubeCall where
  /-- the labels of the namespace, and `create_namespace` -/
  | createNamespace (name : String)
  /-- the service account, its secret and its role; the result has the token -/
  | setUpNamespace (name : String)
  /-- `getPodBodyCustom` or `getPodBodyNodepool` -/
  | podBody
  /-- `create_namespaced_pod`, and the wait until it runs -/
  | startPod (name : String)
  /-- `quotaNeededByLabel` -/
  | quotaNeededByLabel
  | cleanupNode (externalId : String)
  | waitForNodeCleanup (externalId : String)
  | storeNode (node : KubeNode)
  | recordLaunchStats (statsdKey : String)

def KubeCall.Val : KubeCall → Type
  | .setUpNamespace _ => KubeResource
  -- the node of the cluster that runs the pod
  | .startPod _ => Option String
  | .quotaNeededByLabel => Resources
  | _ => Unit

abbrev KubeSig : Sig := ⟨KubeCall, KubeCall.Val, KubeErr⟩

/-- Methods of the thread; the attributes are those of its node. -/
abbrev KubeM : Type → Type := Method KubeSig KubeNode

abbrev kubeCall (c : KubeCall) : KubeM c.Val := perform (S := KubeSig) c

section Launcher

variable (label : KubeLabel)

def createNamespace : KubeM KubeResource := do
  let node ← self
  let namespaceName := label.poolName ++ "-" ++ node.id
  kubeCall (.createNamespace namespaceName)
  assign fun node => { node with externalId := some namespaceName }
  kubeCall (.setUpNamespace namespaceName)

def createPod : KubeM KubeResource := do
  kubeCall .podBody
  let resource ← createNamespace label
  let nodeName ← kubeCall (.startPod resource.namespaceName)
  assign fun node => { node with hostId := nodeName }
  pure { resource with pod := some label.name }

/-- `self.zk.storeNode(self.node)` -/
def storeNode : KubeM Unit := do
  let node ← self
  kubeCall (.storeNode node)

def createResource : KubeM KubeResource :=
  if label.isNamespace then createNamespace label else createPod label

def launchLabel : KubeM Unit := do
  let resource ← createResource label
  assign fun node =>
    { node with
      state := .ready
      pythonPath := label.pythonPath
      shellType := label.shellType
      connectionPort := some resource
      connectionType := some (if label.isNamespace then "namespace" else "kubectl")
      interfaceIp := if label.isNamespace then node.interfaceIp else resource.pod }
  let resources ← kubeCall .quotaNeededByLabel
  assign fun node => { node with resources := some resources, cloud := label.context }
  storeNode

/-- If an instance was created, delete it. -/
def cleanupAttempt : KubeM Unit := do
  let node ← self
  match node.externalId with
  | none => pure ()
  | some externalId =>
      if externalId = "" then pure ()
      else do
        kubeCall (.cleanupNode externalId)
        kubeCall (.waitForNodeCleanup externalId)
        assign fun node => { node with externalId := none, interfaceIp := none }
        storeNode

/-- The loop of `launch`, from the given attempt on. -/
def launchFrom (attempts : ℤ) : KubeM Unit :=
  if attempts ≤ label.launchRetries then do
    let launched ← attempt (launchLabel label)
    match launched with
    | .ok () => pure ()
    -- the lock of the node is lost with the session
    | .error .sessionExpired => throw .sessionExpired
    | .error e => do
        cleanupAttempt
        if attempts = label.launchRetries then throw e else launchFrom (attempts + 1)
  else pure ()
termination_by (label.launchRetries + 1 - attempts).toNat

def launch : KubeM Unit := launchFrom label 1

/-- The handlers of `NodeLauncher.run`, with the key under which the launch is reported. -/
def settle : Except KubeErr Unit → KubeM String
  | .ok () => pure "ready"
  | .error .sessionExpired => do
      assign fun node => { node with state := .failed }
      pure "error.zksession"
  | .error .quota => do
      assign fun node => { node with state := .aborted }
      storeNode
      pure "error.quota"
  | .error (.other statsdKey) => do
      assign fun node => { node with state := .failed }
      storeNode
      pure (statsdKey.getD "error.unknown")

/-- `NodeLauncher.run` -/
def run : KubeM Unit := do
  let launched ← attempt (launch label)
  let statsdKey ← settle launched
  tryCatch (kubeCall (.recordLaunchStats statsdKey)) fun _ => pure ()

end Launcher

/-- A state that `launchesComplete` accepts. -/
def Settled (state : NodeState) : Prop := state = .ready ∨ state = .failed ∨ state = .aborted

instance (state : NodeState) : Decidable (Settled state) := by
  unfold Settled; exact inferInstance

/-- `launchesComplete`, with whether each of the threads is alive. -/
def launchesComplete (threads : List Bool) (nodeset : List KubeNode) : Bool :=
  if threads = [] then true
  else if 0 < threads.count true then false
  else nodeset.all fun node => Settled node.state

/-! ### How the thread ends -/

/-- Any call may return anything or raise anything. -/
abbrev anyReply : Unit → (c : KubeCall) → KubeSig.Reply c → Unit → Prop := fun _ _ _ _ => True

/-- The thread of a node has ended, and has left it like this. -/
def Ends (label : KubeLabel) (node node' : KubeNode) : Prop :=
  ∃ result, (run label node).Exec anyReply () (result, node') ()

abbrev kubeCtx : Context KubeSig Unit := aloneContext anyReply

section Ends

variable {label : KubeLabel} {node node' : KubeNode}

theorem wp_kubeCall {c : KubeCall} {Q : c.Val → KubeNode → Unit → Prop}
    {E : KubeErr → KubeNode → Unit → Prop} (normal : ∀ v, Q v node ())
    (exceptional : ∀ e, E e node ()) : (kubeCall c).wp kubeCtx Q E node () :=
  wp_perform.mpr fun _ _ _ => ⟨trivial, fun v _ _ _ => normal v, fun e _ _ _ => exceptional e⟩

/-- Storing the node does not change its state. -/
theorem storeNode_wp {P : NodeState → Prop} (h : P node.state) :
    storeNode.wp kubeCtx (fun _ node _ => P node.state) (fun _ node _ => P node.state) node () :=
  wp_bind.mpr (wp_self.mpr (wp_kubeCall (fun _ => h) fun _ => h))

/-- A label that has been launched has left its node ready. -/
theorem launchLabel_wp (node : KubeNode) :
    (launchLabel label).wp kubeCtx (fun _ node _ => node.state = .ready)
      (fun _ _ _ => True) node () := by
  unfold launchLabel
  refine wp_bind.mpr (wp_mono (wp_alone _ node ()) ?_ fun _ _ _ _ => trivial)
  intro resource node _ _
  refine wp_bind.mpr (wp_assign.mpr (wp_bind.mpr (wp_kubeCall ?_ fun _ => trivial)))
  intro resources
  refine wp_bind.mpr (wp_assign.mpr ?_)
  exact wp_mono (storeNode_wp (P := (· = .ready)) rfl) (fun _ _ _ h => h) fun _ _ _ _ => trivial

/-- A loop that makes attempts returns only after one that has succeeded. -/
theorem launchFrom_wp (attempts : ℤ) (more : attempts ≤ label.launchRetries) (node : KubeNode) :
    (launchFrom label attempts).wp kubeCtx (fun _ node _ => node.state = .ready)
      (fun _ _ _ => True) node () := by
  induction attempts using launchFrom.induct label generalizing node with
  | case1 attempts _ ih =>
      unfold launchFrom
      rw [if_pos more]
      refine wp_bind.mpr (wp_attempt.mpr (wp_mono (launchLabel_wp node) ?_ ?_))
      · exact fun _ _ _ ready => ready
      intro e node₁ _ _
      -- the handler of a failed attempt
      have failed (e : KubeErr) : (do
          cleanupAttempt
          if attempts = label.launchRetries then throw e
            else launchFrom label (attempts + 1) : KubeM Unit).wp kubeCtx
          (fun _ node _ => node.state = .ready) (fun _ _ _ => True) node₁ () := by
        refine wp_bind.mpr (wp_mono (wp_alone _ node₁ ()) ?_ fun _ _ _ _ => trivial)
        intro _ node₂ _ _
        split
        · exact wp_throw.mpr trivial
        · exact ih (by omega) node₂
      cases e with
      | sessionExpired => exact wp_throw.mpr trivial
      | quota | other => exact failed _
  | case2 attempts none => exact absurd more none

/-- The handlers settle a node whose launch has raised, and report one that has not. -/
theorem settle_wp (launched : Except KubeErr Unit) (node : KubeNode)
    (ready : launched = .ok () → node.state = .ready) :
    (settle launched).wp kubeCtx (fun _ node _ => Settled node.state)
      (fun _ node _ => Settled node.state) node () := by
  have stored (key : String) {node : KubeNode} (h : Settled node.state) :
      (do storeNode; pure key : KubeM String).wp kubeCtx (fun _ node _ => Settled node.state)
        (fun _ node _ => Settled node.state) node () :=
    wp_bind.mpr (storeNode_wp h)
  rcases launched with (_ | _ | statsdKey) | ⟨⟩
  · exact wp_bind.mpr (wp_assign.mpr (.inr (.inl rfl)))
  · exact wp_bind.mpr (wp_assign.mpr (stored _ (.inr (.inr rfl))))
  · exact wp_bind.mpr (wp_assign.mpr (stored _ (.inr (.inl rfl))))
  · exact .inl (ready rfl)

/-- Reporting the launch is the last thing that a thread does. -/
theorem run_wp {P : NodeState → Prop} (h : (do settle (← attempt (launch label))).wp kubeCtx
      (fun _ node _ => P node.state) (fun _ node _ => P node.state) node ()) :
    (run label).wp kubeCtx (fun _ node _ => P node.state) (fun _ node _ => P node.state)
      node () := by
  unfold run
  rw [wp_bind] at h ⊢
  refine wp_mono h (fun launched node _ h => ?_) fun _ _ _ h => h
  refine wp_bind.mpr (wp_mono h (fun key node _ h => ?_) fun _ _ _ h => h)
  exact wp_tryCatch.mpr (wp_kubeCall (fun _ => h) fun _ => h)

theorem Ends.sound {P : KubeNode → Prop} (ends : Ends label node node')
    (h : (run label).wp kubeCtx (fun _ node _ => P node) (fun _ node _ => P node) node ()) :
    P node' := by
  obtain ⟨result, exec⟩ := ends
  have := exec.sound h
  cases result <;> exact this

/-- A thread that may make an attempt settles its node, whatever is raised. -/
theorem Ends.settled (ends : Ends label node node') (attempts : 0 < label.launchRetries) :
    Settled node'.state := by
  refine ends.sound (P := fun node => Settled node.state) (run_wp ?_)
  refine wp_bind.mpr (wp_attempt.mpr (wp_mono (launchFrom_wp 1 (by omega) node) ?_ ?_))
  · exact fun _ node _ ready => settle_wp (.ok ()) node fun _ => ready
  · exact fun e node _ _ => settle_wp (.error e) node nofun

/-- A thread that may not make one leaves its node as it is. -/
theorem Ends.unchanged (ends : Ends label node node') (none : ¬ 0 < label.launchRetries) :
    node'.state = node.state := by
  refine ends.sound (P := fun node' => node'.state = node.state)
    (run_wp (P := fun state => state = node.state) ?_)
  refine wp_bind.mpr (wp_attempt.mpr ?_)
  unfold launch launchFrom
  rw [if_neg (by omega)]
  exact rfl

end Ends

/-! ### The handler -/

/-- The threads of the nodes of a request have ended. -/
abbrev AllEnded (launches : List (KubeLabel × KubeNode)) (nodes : List KubeNode) : Prop :=
  List.Forall₂ (fun launch node => Ends launch.1 launch.2 node) launches nodes

theorem launchesComplete_eq_true {nodeset : List KubeNode} (n : ℕ) :
    launchesComplete (List.replicate (n + 1) false) nodeset = true ↔
      ∀ node ∈ nodeset, Settled node.state := by
  unfold launchesComplete
  rw [if_neg (by simp), if_neg (by simp [List.count_replicate])]
  simp

theorem AllEnded.settled {launches : List (KubeLabel × KubeNode)} {nodes : List KubeNode}
    (ended : AllEnded launches nodes)
    (attempts : ∀ launch ∈ launches, 0 < launch.1.launchRetries) :
    ∀ node ∈ nodes, Settled node.state := by
  induction ended with
  | nil => exact fun _ mem => absurd mem List.not_mem_nil
  | cons ends _ ih =>
      have rest := ih fun launch mem => attempts launch (List.mem_cons_of_mem _ mem)
      exact List.forall_mem_cons.mpr ⟨ends.settled (attempts _ List.mem_cons_self), rest⟩

/-- For all nodes that a request handler has launched, and those that were ready before: the
threads settle their nodes, and the handler sees that the launches are complete, just when an
attempt may be made. -/
theorem launches_settle_iff {launchRetries : ℤ} {launches : List (KubeLabel × KubeNode)}
    {nodes reused : List KubeNode} (provider : ∀ launch ∈ launches,
      launch.1.launchRetries = launchRetries)
    (building : ∀ launch ∈ launches, launch.2.state = .building)
    (ready : ∀ node ∈ reused, node.state = .ready) (some : launches ≠ [])
    (ended : AllEnded launches nodes) :
    ((∀ node ∈ nodes, Settled node.state) ∧
      launchesComplete (List.replicate launches.length false) (reused ++ nodes) = true) ↔
      0 < launchRetries := by
  obtain ⟨launch, rest, rfl⟩ := List.exists_cons_of_ne_nil some
  obtain ⟨node, nodes, first, others, rfl⟩ := List.forall₂_cons_left_iff.mp ended
  rw [List.length_cons, launchesComplete_eq_true, List.forall_mem_append]
  constructor
  · rintro ⟨settled, -⟩
    by_contra none
    have unchanged := first.unchanged ((provider launch List.mem_cons_self).symm ▸ none)
    have := settled node List.mem_cons_self
    rw [unchanged, building launch List.mem_cons_self] at this
    rcases this with h | h | h <;> cases h
  · intro attempts
    have settled := AllEnded.settled ended fun launch mem => by
      rw [provider launch mem]
      exact attempts
    exact ⟨settled, fun node mem => .inl (ready node mem), settled⟩

/-! ### One node -/

def exampleLabel (launchRetries : ℤ) : KubeLabel where
  name := "pod-fedora"
  isNamespace := false
  pythonPath := some "auto"
  shellType := none
  poolName := "main"
  context := some "admin"
  launchRetries := launchRetries

def exampleNode : KubeNode where
  id := "0000000001"
  state := .building
  externalId := none
  hostId := none
  interfaceIp := none
  connectionPort := none
  connectionType := none
  pythonPath := none
  shellType := none
  resources := none
  cloud := none

/-- The Kubernetes API refuses every call. -/
def refuse : Answer KubeSig Unit := fun _ _ => (.error (.other none), ())

/-- The node of a thread that has ended. -/
def launched (label : KubeLabel) : KubeNode := ((run label exampleNode).runAlone refuse ()).1.2

theorem ends_launched (label : KubeLabel) : Ends label exampleNode (launched label) :=
  ⟨_, Prog.exec_runAlone (fun _ _ => trivial) (run label exampleNode) ()⟩

theorem launches_settle_iff_once :
    Settled (launched (exampleLabel 1)).state ∧
      launchesComplete [false] [launched (exampleLabel 1)] = true :=
  have ended : AllEnded [(exampleLabel 1, exampleNode)] [launched (exampleLabel 1)] :=
    .cons (ends_launched _) .nil
  have provider : ∀ launch ∈ [(exampleLabel 1, exampleNode)], launch.1.launchRetries = 1 := by
    simp [exampleLabel]
  have noneReused : ∀ node ∈ ([] : List KubeNode), node.state = .ready := by simp
  have complete := (launches_settle_iff provider (by simp [exampleNode]) noneReused (by simp)
    ended).mpr (by decide)
  ⟨complete.1 _ List.mem_cons_self, complete.2⟩

/-- With no retries, the node is never launched, and the handler waits for it. -/
theorem launch_not_settled :
    Ends (exampleLabel 0) exampleNode (launched (exampleLabel 0)) ∧
      ¬ Settled (launched (exampleLabel 0)).state ∧
      launchesComplete [false] [launched (exampleLabel 0)] = false := by
  have state : (launched (exampleLabel 0)).state = .building :=
    (ends_launched (exampleLabel 0)).unchanged (by decide)
  refine ⟨ends_launched _, ?_, ?_⟩
  · rw [state]
    decide
  · simp [launchesComplete, state, Settled]

end Nodepool.Kubernetes
