import Nodepool.Quota.PoolQuota
import Nodepool.StateMachine.Models

/-!
`StateMachineProvider.unmanagedQuotaUsed` next to `estimatedNodepoolQuotaUsed`: the first
goes over the instances in the cloud, by their metadata, and the second over the nodes in
ZooKeeper. Together they charge each instance once.
-/

namespace Nodepool

deriving instance DecidableEq for QuotaInformation

/-- A server that `listInstances` of an adapter returns. -/
structure CloudInstance where
  metadata : Metadata
  /-- `getQuotaInformation()`, unless that is not implemented -/
  quota : Option QuotaInformation
deriving DecidableEq

namespace CloudInstance

def getQuotaInformation (i : CloudInstance) : QuotaInformation := i.quota.getD QuotaInformation.zero

end CloudInstance

namespace StateMachineProvider

/-- The provider owns the instance, and it has not leaked. -/
def manages (provider : String) (nodeIds : List String) (i : CloudInstance) : Bool :=
  truthy i.metadata.providerName && i.metadata.providerName = some provider &&
    (truthy i.metadata.nodeId && i.metadata.nodeId.any (· ∈ nodeIds))

/-- Sums up the quota used by servers unmanaged by nodepool. -/
def unmanagedQuotaUsed (provider : String) (nodes : List (NodeId × Node))
    (instances : List CloudInstance) : QuotaInformation :=
  let nodeIds := nodes.map fun n => sequenceName n.1
  instances.foldl
    (fun used i => if manages provider nodeIds i then used else used.add i.getQuotaInformation)
    QuotaInformation.zero

end StateMachineProvider

namespace InstanceCharges

open StateMachineProvider

variable (manager : QuotaSupport) (nodes : List (NodeId × Node)) (instances : List CloudInstance)

/-- Nodes and instances at rest: nodes have different ids, those of the provider name a pool
and a label that are configured, and an instance whose metadata names the provider and a node
was created by the provider for that node. -/
structure AtRest : Prop where
  named : manager.providerName ≠ ""
  nodup : (nodes.map (·.1)).Nodup
  configured : ∀ n ∈ nodes, n.2.provider = some manager.providerName →
    ∃ name pool label, n.2.pool = some name ∧ manager.pools.lookup name = some pool ∧
      n.2.type.head? = some label ∧ label ∈ pool.labels
  created : ∀ i ∈ instances, ∀ n ∈ nodes, i.metadata.providerName = some manager.providerName →
    i.metadata.nodeId = some (sequenceName n.1) → n.2.provider = some manager.providerName

/-- The metadata of the instance names the provider and an existing node. -/
def NamesNode (i : CloudInstance) : Prop :=
  i.metadata.providerName = some manager.providerName ∧
    ∃ n ∈ nodes, i.metadata.nodeId = some (sequenceName n.1)

/-- The instance is that of the node. -/
def isOf (i : CloudInstance) (n : NodeId × Node) : Bool :=
  i.metadata.providerName = some manager.providerName &&
    i.metadata.nodeId = some (sequenceName n.1)

/-- The instances that are charged as unmanaged, with what each of them is charged for. -/
def unmanagedCharges : List (CloudInstance × QuotaInformation) :=
  (instances.filter fun i =>
    !manages manager.providerName (nodes.map fun n => sequenceName n.1) i).map
      fun i => (i, i.getQuotaInformation)

/-- The nodes that are charged, with what each of them is charged for. -/
def nodeCharges : List ((NodeId × Node) × QuotaInformation) :=
  nodes.filterMap fun n => (manager.quotaUsedByNode none n.2).map (n, ·)

/-- An instance is charged what it says that it uses, or nothing if it does not say. -/
def OwnQuota (i : CloudInstance) (quota : QuotaInformation) : Prop :=
  i.quota = some quota ∨ i.quota = none ∧ ∀ r, quota.reading r = .int 0

/-- A node is charged the resources that are recorded on it, or what its label needs in its
pool if none are. -/
def NodeQuota (n : Node) (quota : QuotaInformation) : Prop :=
  (∃ resources, n.resources = some resources ∧ resources.entries ≠ [] ∧ quota = ⟨resources, 0⟩) ∨
    (∀ resources, n.resources = some resources → resources.entries = []) ∧
      ∃ name pool label, n.pool = some name ∧ manager.pools.lookup name = some pool ∧
        n.type.head? = some label ∧ quota = manager.labelQuota pool label

variable {manager nodes instances}

/-! ### What the two sums are made of -/

theorem unmanagedQuotaUsed_eq :
    unmanagedQuotaUsed manager.providerName nodes instances =
      ((unmanagedCharges manager nodes instances).map (·.2)).foldl
        QuotaInformation.add QuotaInformation.zero := by
  unfold unmanagedQuotaUsed unmanagedCharges
  rw [List.map_map]
  generalize QuotaInformation.zero = used
  induction instances generalizing used with
  | nil => rfl
  | cons i instances ih =>
      rw [List.foldl_cons, ih, List.filter_cons]
      cases manages manager.providerName (nodes.map fun n => sequenceName n.1) i <;> rfl

theorem estimatedNodepoolQuotaUsed_eq :
    manager.estimatedNodepoolQuotaUsed (nodes.map (·.2)) none =
      ((nodeCharges manager nodes).map (·.2)).foldl QuotaInformation.add QuotaInformation.zero := by
  unfold QuotaSupport.estimatedNodepoolQuotaUsed nodeCharges
  rw [List.filterMap_map, List.map_filterMap]
  congr 2
  funext n
  simp [Function.comp_def]

/-! ### The charges for one instance -/

theorem manages_iff (h : AtRest manager nodes instances) (i : CloudInstance) :
    manages manager.providerName (nodes.map fun n => sequenceName n.1) i = true ↔
      NamesNode manager nodes i := by
  unfold manages NamesNode
  constructor
  · intro managed
    simp only [Bool.and_eq_true, decide_eq_true_eq, Option.any_eq_true] at managed
    obtain ⟨⟨-, provider⟩, -, id, hid, mem⟩ := managed
    obtain ⟨n, hn, rfl⟩ := List.mem_map.mp mem
    exact ⟨provider, n, hn, hid⟩
  · rintro ⟨provider, n, hn, hid⟩
    have name : truthy (some manager.providerName) = true := by simp [truthy, h.named]
    have number : truthy (some (sequenceName n.1)) = true := by
      simp [truthy, sequenceName_ne_empty]
    have mem : sequenceName n.1 ∈ nodes.map fun n => sequenceName n.1 := List.mem_map_of_mem hn
    simp only [provider, hid, name, number, Option.any_some, mem, decide_true, Bool.and_self]

/-- A node of the provider is charged. -/
theorem mem_nodeCharges (h : AtRest manager nodes instances) {n : NodeId × Node} (hn : n ∈ nodes)
    (provider : n.2.provider = some manager.providerName) :
    ∃ quota, (n, quota) ∈ nodeCharges manager nodes ∧ NodeQuota manager n.2 quota := by
  obtain ⟨name, pool, label, hpool, lookup, head, mem⟩ := h.configured n hn provider
  refine ⟨manager.nodeResources n.2 label pool, List.mem_filterMap.mpr ⟨n, hn, ?_⟩, ?_⟩
  · simp [QuotaSupport.quotaUsedByNode, provider, hpool, lookup, head, mem]
  · unfold QuotaSupport.nodeResources
    cases hr : n.2.resources.filter (·.entries ≠ []) with
    | some resources =>
        obtain ⟨recorded, nonempty⟩ := Option.filter_eq_some_iff.mp hr
        exact .inl ⟨resources, recorded, of_decide_eq_true nonempty, rfl⟩
    | none =>
        refine .inr ⟨fun resources recorded => ?_, name, pool, label, hpool, lookup, head, rfl⟩
        rw [recorded] at hr
        simpa [Option.filter] using hr

theorem ownQuota (i : CloudInstance) : OwnQuota i i.getQuotaInformation := by
  unfold OwnQuota CloudInstance.getQuotaInformation
  cases i.quota with
  | some own => exact .inl rfl
  | none => exact .inr ⟨rfl, QuotaInformation.reading_zero⟩

/-- As many unmanaged charges as there are instances like this one. -/
theorem filter_unmanagedCharges (i : CloudInstance) :
    (unmanagedCharges manager nodes instances).filter (fun c => c.1 = i) =
      if manages manager.providerName (nodes.map fun n => sequenceName n.1) i then []
      else List.replicate (instances.count i) (i, i.getQuotaInformation) := by
  unfold unmanagedCharges
  induction instances with
  | nil => simp
  | cons j instances ih =>
      by_cases hj : j = i
      · subst hj
        cases hm : manages manager.providerName (nodes.map fun n => sequenceName n.1) j with
        | true =>
            rw [hm] at ih
            rw [List.filter_cons_of_neg (by simp [hm]), ih, if_pos rfl, if_pos rfl]
        | false =>
            rw [hm] at ih
            rw [List.filter_cons_of_pos (by simp [hm]), List.map_cons,
              List.filter_cons_of_pos (by simp), ih, List.count_cons_self]
            rfl
      · rw [List.count_cons_of_ne hj, ← ih, List.filter_cons]
        split
        · rw [List.map_cons, List.filter_cons_of_neg (by simpa using hj)]
        · rfl

theorem of_mem_nodeCharges {charge : (NodeId × Node) × QuotaInformation}
    (h : charge ∈ nodeCharges manager nodes) :
    charge.1 ∈ nodes ∧ manager.quotaUsedByNode none charge.1.2 = some charge.2 := by
  obtain ⟨n, hn, hc⟩ := List.mem_filterMap.mp h
  obtain ⟨quota, hq, rfl⟩ := Option.map_eq_some_iff.mp hc
  exact ⟨hn, hq⟩

theorem nodeCharges_nodup (h : AtRest manager nodes instances) :
    (nodeCharges manager nodes).Nodup := by
  refine List.Nodup.filterMap ?_ (List.Nodup.of_map _ h.nodup)
  intro n n' charge hc hc'
  obtain ⟨quota, -, rfl⟩ := Option.map_eq_some_iff.mp hc
  obtain ⟨quota', -, same⟩ := Option.map_eq_some_iff.mp hc'
  exact (congrArg Prod.fst same).symm

/-- Two charges for the node of one instance are the same. -/
theorem charge_unique (h : AtRest manager nodes instances) {i : CloudInstance}
    {c c' : (NodeId × Node) × QuotaInformation} (hc : c ∈ nodeCharges manager nodes)
    (hc' : c' ∈ nodeCharges manager nodes) (ho : isOf manager i c.1 = true)
    (ho' : isOf manager i c'.1 = true) : c = c' := by
  obtain ⟨hn, hq⟩ := of_mem_nodeCharges hc
  obtain ⟨hn', hq'⟩ := of_mem_nodeCharges hc'
  simp only [isOf, Bool.and_eq_true, decide_eq_true_eq] at ho ho'
  have id : c.1.1 = c'.1.1 :=
    sequenceName_injective (Option.some.inj (ho.2.symm.trans ho'.2))
  have node : c.1 = c'.1 := List.inj_on_of_nodup_map h.nodup hn hn' id
  rw [node, hq'] at hq
  exact Prod.ext node (Option.some.inj hq).symm

/-- Each instance is charged once. One whose metadata names the provider and an existing
node is charged through that node, by the resources of the node, and every other one as
unmanaged, by its own quota. -/
theorem charged_once (manager : QuotaSupport) (nodes : List (NodeId × Node))
    (instances : List CloudInstance) (h : AtRest manager nodes instances) :
    unmanagedQuotaUsed manager.providerName nodes instances =
        ((unmanagedCharges manager nodes instances).map (·.2)).foldl
          QuotaInformation.add QuotaInformation.zero ∧
      manager.estimatedNodepoolQuotaUsed (nodes.map (·.2)) none =
        ((nodeCharges manager nodes).map (·.2)).foldl
          QuotaInformation.add QuotaInformation.zero ∧
      ∀ i ∈ instances,
        (NamesNode manager nodes i →
          (unmanagedCharges manager nodes instances).filter (fun c => c.1 = i) = [] ∧
          ∃ n quota, (nodeCharges manager nodes).filter (fun c => isOf manager i c.1) =
            [(n, quota)] ∧ NodeQuota manager n.2 quota) ∧
        (¬ NamesNode manager nodes i →
          (∃ quota, (unmanagedCharges manager nodes instances).filter (fun c => c.1 = i) =
            List.replicate (instances.count i) (i, quota) ∧ OwnQuota i quota) ∧
          (nodeCharges manager nodes).filter (fun c => isOf manager i c.1) = []) := by
  refine ⟨unmanagedQuotaUsed_eq, estimatedNodepoolQuotaUsed_eq, fun i hi => ⟨?_, ?_⟩⟩
  · intro names
    constructor
    · rw [filter_unmanagedCharges, if_pos ((manages_iff h i).mpr names)]
    · obtain ⟨provider, n, hn, hid⟩ := names
      obtain ⟨quota, mem, charged⟩ :=
        mem_nodeCharges h hn (h.created i hi n hn provider hid)
      have own : isOf manager i n = true := by simp [isOf, provider, hid]
      refine ⟨n, quota, List.perm_singleton.mp ?_, charged⟩
      refine (List.perm_ext_iff_of_nodup ((nodeCharges_nodup h).filter _)
        (List.nodup_singleton _)).mpr fun c => ?_
      rw [List.mem_filter, List.mem_singleton]
      constructor
      · exact fun hc => charge_unique h hc.1 mem hc.2 own
      · rintro rfl
        exact ⟨mem, own⟩
  · intro foreign
    have unmanaged :
        ¬ manages manager.providerName (nodes.map fun n => sequenceName n.1) i = true :=
      fun managed => foreign ((manages_iff h i).mp managed)
    constructor
    · exact ⟨i.getQuotaInformation, by rw [filter_unmanagedCharges, if_neg unmanaged], ownQuota i⟩
    · refine List.filter_eq_nil_iff.mpr fun c hc own => foreign ?_
      simp only [isOf, Bool.and_eq_true, decide_eq_true_eq] at own
      exact ⟨own.1, c.1, (of_mem_nodeCharges hc).1, own.2⟩

/-! ### One node with its instance, and a server of somebody else -/

def examplePool : ProviderPool where
  name := "main"
  labels := ["small"]
  maxServers := .int 4
  maxCores := none
  maxRam := none
  maxVolumes := none
  maxVolumeGb := none
  maxResources := ∅
  ignoreProviderQuota := false

def exampleManager : QuotaSupport where
  providerName := "cloud"
  pools := Dict.ofPairs [("main", examplePool)]
  labelQuota := fun _ _ => ⟨QuotaInformation.zero, QuotaInformation.Natural.zero⟩
  getProviderLimits := QuotaInformation.zero
  unmanagedQuotaUsed := QuotaInformation.zero

def exampleNode : Node where
  state := .ready
  stateTime := 0
  type := ["small"]
  provider := some "cloud"
  pool := some "main"
  launcher := none
  allocatedTo := none
  tenantName := none
  requestor := none
  resources := none
  externalId := none

/-- The instance of the node `0`. -/
def exampleInstance : CloudInstance where
  metadata := { Metadata.empty with
    nodeId := some (sequenceName 0)
    providerName := some "cloud" }
  quota := none

/-- A server of somebody else. -/
def exampleForeign : CloudInstance where
  metadata := Metadata.empty
  quota := some ⟨Dict.ofPairs [("cores", .int 8)], 0⟩

theorem example_atRest :
    AtRest exampleManager [(0, exampleNode)] [exampleInstance, exampleForeign] where
  named := by decide
  nodup := List.nodup_singleton _
  configured := by
    intro n hn _
    obtain rfl := List.mem_singleton.mp hn
    exact ⟨"main", examplePool, "small", rfl, rfl, rfl, List.mem_singleton_self _⟩
  created := by
    intro i _ n hn _ _
    obtain rfl := List.mem_singleton.mp hn
    rfl

theorem charged_once_example :
    (∃ n quota, (nodeCharges exampleManager [(0, exampleNode)]).filter
        (fun c => isOf exampleManager exampleInstance c.1) = [(n, quota)] ∧
      NodeQuota exampleManager n.2 quota) ∧
    ∃ quota, (unmanagedCharges exampleManager [(0, exampleNode)]
        [exampleInstance, exampleForeign]).filter (fun c => c.1 = exampleForeign) =
      List.replicate 1 (exampleForeign, quota) ∧ OwnQuota exampleForeign quota := by
  have charged := (charged_once exampleManager [(0, exampleNode)]
    [exampleInstance, exampleForeign] example_atRest).2.2
  constructor
  · exact ((charged exampleInstance List.mem_cons_self).1
      ⟨rfl, _, List.mem_singleton_self _, rfl⟩).2
  · have foreign : ¬ NamesNode exampleManager [(0, exampleNode)] exampleForeign :=
      fun names => absurd names.1 (by decide)
    exact ((charged exampleForeign (List.mem_cons_of_mem _ List.mem_cons_self)).2 foreign).1

end InstanceCharges

end Nodepool
