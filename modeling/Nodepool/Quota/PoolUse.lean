import Mathlib.Algebra.BigOperators.Group.Finset.Basic
import Mathlib.Algebra.Order.BigOperators.Group.Finset
import Nodepool.Quota.PoolSystem

/-!
A new node is only stored while the nodes of the pool and this one keep the limits
of the pool. The worker is the only one that adds nodes to the pool, so between its
look at the node cache and the store the use of the pool can only shrink.
-/

namespace Nodepool

open Effect Method QuotaInformation

/-! ### Limits -/

namespace ProviderPool

/-- A limit that the configuration of the pool sets on a resource. -/
inductive Limit (pool : ProviderPool) : String → Number → Prop where
  | cores {limit} (h : pool.maxCores = some limit) : Limit pool "cores" limit
  | instances : Limit pool "instances" pool.maxServers
  | ram {limit} (h : pool.maxRam = some limit) : Limit pool "ram" limit
  | volumes {limit} (h : pool.maxVolumes = some limit) : Limit pool "volumes" limit
  | resource {resource limit} (h : pool.maxResources.lookup resource = some limit) :
      Limit pool resource limit

/-- Whatever keeps the first limit keeps the second. -/
def Tightens (limit limit' : Number) : Prop :=
  ∀ use : ℤ, (limit - .int use).isNeg = false → (limit' - .int use).isNeg = false

/-- The limits that `hasRemainingQuota` reads are the configured ones: no limit on
volumes is `0`, which is taken for no limit, unless `max-resources` has one; and no
entry of `max-resources` takes the place of a tighter limit. -/
structure LimitsRead (pool : ProviderPool) : Prop where
  volumes : pool.maxVolumes = some 0 → "volumes" ∈ pool.maxResources
  overrides : ∀ {resource limit limit'}, pool.Limit resource limit →
    pool.maxResources.lookup resource = some limit' → Tightens limit' limit
  default : ∀ {limit}, pool.maxResources.lookup "default" = some limit → limit.isNeg = false

end ProviderPool

/-! ### How worlds follow one another -/

namespace SameNode

theorem refl (node : Node) : SameNode node node := ⟨rfl, rfl, rfl⟩

theorem symm {a b : Node} (h : SameNode a b) : SameNode b a :=
  ⟨h.provider.symm, h.pool.symm, h.type.symm⟩

theorem trans {a b c : Node} (h : SameNode a b) (h' : SameNode b c) : SameNode a c :=
  ⟨h'.provider.trans h.provider, h'.pool.trans h.pool, h'.type.trans h.type⟩

theorem inPool {a b : Node} (h : SameNode a b) {handler : QuotaHandler} :
    handler.InPool b ↔ handler.InPool a := by
  rw [QuotaHandler.InPool, QuotaHandler.InPool, h.provider, h.pool]

theorem useOf {a b : Node} (h : SameNode a b) (handler : QuotaHandler) (r : String) :
    handler.useOf (some b) r = handler.useOf (some a) r := by
  simp only [QuotaHandler.useOf, h.inPool, h.type]

theorem assign {object : NodeObject} (a : NodeAttr) :
    SameNode object.node (object.assign a).node := by
  cases a <;> exact ⟨rfl, rfl, rfl⟩

end SameNode

namespace QuotaHandler

variable {handler : QuotaHandler}

theorem useOf_nonneg (node : Option Node) (r : String) : 0 ≤ handler.useOf node r := by
  unfold useOf
  split
  · exact le_refl 0
  · split
    · rename_i node _
      cases node.type.head? with
      | none => exact le_refl 0
      | some label => exact (handler.manager.labelQuota handler.pool label).2.nonneg r
    · exact le_refl 0

theorem useOf_of_granted {label : String} {node : Node} (h : handler.Granted label node)
    (r : String) : handler.useOf (some node) r =
      (handler.manager.labelQuota handler.pool label).1.amount r := by
  rw [useOf, if_pos ⟨h.provider, h.pool⟩, h.type]
  rfl

/-- Everything but what is recorded of its resources may change of a valid node. -/
theorem Valid.of_same {node node' : Node} (h : handler.Valid node) (same : SameNode node node')
    (resources : node'.resources = node.resources) : handler.Valid node' := by
  intro hp
  obtain ⟨label, hl, hg⟩ := h (same.inPool.mp hp)
  exact ⟨label, hl, same.provider.trans hg.provider, same.pool.trans hg.pool,
    (congrArg List.head? same.type).trans hg.type, by rw [resources]; exact hg.resources⟩

end QuotaHandler

namespace PoolWorld

variable (handler : QuotaHandler)

/-- What holds of the world at all times. -/
structure Consistent (w : PoolWorld) : Prop where
  lt : ∀ {i node}, w.nodes i = some node → i < w.nextNode
  valid : ∀ {i node}, w.nodes i = some node → handler.Valid node
  cached_id : ∀ i, (w.objects (.cached i)).id = some i
  own_lt : ∀ {n i}, (w.objects (.own n)).id = some i → i < w.nextNode
  fresh : ∀ {n}, w.nextObject ≤ n → (w.objects (.own n)).id = none
  /-- an object of a stored node agrees with the record -/
  same : ∀ {o i node}, (w.objects o).id = some i → w.nodes i = some node →
    SameNode node (w.objects o).node ∧ handler.Valid (w.objects o).node

/-- What holds of all later worlds, as long as the worker does not store a new node. -/
structure Later (w w' : PoolWorld) : Prop where
  nextObject : w.nextObject ≤ w'.nextObject
  id : ∀ o, (w'.objects o).id = (w.objects o).id
  own : ∀ {n}, n < w.nextObject → SameNode (w.objects (.own n)).node (w'.objects (.own n)).node ∧
    (handler.Valid (w.objects (.own n)).node → handler.Valid (w'.objects (.own n)).node)
  /-- nodes of the pool are not added -/
  pool : ∀ {i node'}, w'.nodes i = some node' → handler.InPool node' →
    ∃ node, w.nodes i = some node ∧ SameNode node node'

/-- How much of a resource the nodes of the pool use. -/
def use (w : PoolWorld) (resource : String) : ℤ :=
  ∑ i ∈ Finset.range w.nextNode, handler.useOf (w.nodes i) resource

/-- The node keeps the limits of the pool next to the nodes that it has. -/
def Fits (w : PoolWorld) (node : Node) : Prop :=
  ∀ {resource limit}, handler.pool.Limit resource limit →
    (limit - .int (w.use handler resource + handler.useOf (some node) resource)).isNeg = false

/-- What the worker must respect: it stores a new node only where that fits, and
records no resources. -/
def Req (w : PoolWorld) : Call → Prop
  | .createNode o => (∃ n < w.nextObject, o = .own n) ∧ (w.objects o).id = none ∧
      handler.Valid (w.objects o).node ∧
      (handler.InPool (w.objects o).node → w.Fits handler (w.objects o).node)
  | .assignNode _ (.resources _) => False
  | _ => True

/-- The calls on which there is no requirement. -/
def Free : Call → Prop
  | .createNode _ | .assignNode _ (.resources _) => False
  | _ => True

variable {handler} {w w' w'' : PoolWorld}

theorem req_of_free {c : Call} (h : Free c) : w.Req handler c := by
  cases c with
  | createNode => cases h
  | assignNode o a =>
      cases a with
      | resources => cases h
      | _ => trivial
  | _ => trivial

namespace Later

theorem refl (w : PoolWorld) : w.Later handler w :=
  ⟨le_refl _, fun _ => rfl, fun _ => ⟨.refl _, fun h => h⟩, fun h _ => ⟨_, h, .refl _⟩⟩

theorem trans (h : w.Later handler w') (h' : w'.Later handler w'') : w.Later handler w'' where
  nextObject := h.nextObject.trans h'.nextObject
  id o := (h'.id o).trans (h.id o)
  own hn := by
    obtain ⟨same, valid⟩ := h.own hn
    obtain ⟨same', valid'⟩ := h'.own (lt_of_lt_of_le hn h.nextObject)
    exact ⟨same.trans same', fun hv => valid' (valid hv)⟩
  pool hi hp := by
    obtain ⟨node', hi', same'⟩ := h'.pool hi hp
    obtain ⟨node, hi'', same⟩ := h.pool hi' (same'.inPool.mp hp)
    exact ⟨node, hi'', same.trans same'⟩

/-- The use of the pool does not grow. -/
theorem use_le (h : w.Later handler w') (hc : w.Consistent handler) (r : String) :
    w'.use handler r ≤ w.use handler r := by
  have pointwise : ∀ i, handler.useOf (w'.nodes i) r ≤ handler.useOf (w.nodes i) r := by
    intro i
    cases hi : w'.nodes i with
    | none => exact QuotaHandler.useOf_nonneg _ r
    | some node' =>
        by_cases hp : handler.InPool node'
        · obtain ⟨node, hn, same⟩ := h.pool hi hp
          rw [hn, same.useOf handler r]
        · rw [QuotaHandler.useOf, if_neg hp]
          exact QuotaHandler.useOf_nonneg _ r
  have small : ∀ i ∈ Finset.range w'.nextNode, i ∉ Finset.range w.nextNode →
      handler.useOf (w'.nodes i) r ≤ 0 := by
    intro i _ hi
    have none : w.nodes i = none := by
      cases hn : w.nodes i with
      | none => rfl
      | some node => exact absurd (Finset.mem_range.mpr (hc.lt hn)) hi
    have := pointwise i
    rwa [none] at this
  calc w'.use handler r
      = ∑ i ∈ Finset.range w'.nextNode, handler.useOf (w'.nodes i) r := rfl
    _ ≤ ∑ i ∈ Finset.range (max w.nextNode w'.nextNode), handler.useOf (w'.nodes i) r :=
        Finset.sum_le_sum_of_subset_of_nonneg
          (Finset.range_mono (le_max_right _ _)) fun _ _ _ => QuotaHandler.useOf_nonneg _ r
    _ ≤ ∑ i ∈ Finset.range (max w.nextNode w'.nextNode), handler.useOf (w.nodes i) r :=
        Finset.sum_le_sum fun i _ => pointwise i
    _ = w.use handler r := by
        symm
        refine Finset.sum_subset (Finset.range_mono (le_max_left _ _)) fun i _ hi => ?_
        cases hn : w.nodes i with
        | none => rfl
        | some node => exact absurd (Finset.mem_range.mpr (hc.lt hn)) hi

theorem fits (h : w.Later handler w') (hc : w.Consistent handler) {node : Node}
    (fits : w.Fits handler node) : w'.Fits handler node := fun hl =>
  Number.isNeg_sub_int_of_le (add_le_add_left (h.use_le hc _) _) (fits hl)

end Later

/-! ### One step -/

theorem setNode_valid {i : NodeId} {node node' : Node} (hc : w.Consistent handler)
    (stored : w.nodes i = some node) (same : SameNode node node') (valid : handler.Valid node') :
    (w.setNode i (some node')).Consistent handler ∧
      w.Later handler (w.setNode i (some node')) := by
  have cases_ : ∀ {j n}, (w.setNode i (some node')).nodes j = some n →
      (j = i ∧ n = node') ∨ (j ≠ i ∧ w.nodes j = some n) := by
    intro j n hj
    by_cases hji : j = i
    · subst hji
      exact Or.inl ⟨rfl, by simpa using hj.symm⟩
    · exact Or.inr ⟨hji, by simpa [Function.update_of_ne hji] using hj⟩
  refine ⟨⟨fun hj => ?_, fun hj => ?_, hc.cached_id, hc.own_lt, hc.fresh, fun ho hj => ?_⟩,
    ⟨le_refl _, fun _ => rfl, fun _ => ⟨.refl _, fun h => h⟩, fun hj hp => ?_⟩⟩
  · obtain ⟨rfl, -⟩ | ⟨-, hj⟩ := cases_ hj
    · exact hc.lt stored
    · exact hc.lt hj
  · obtain ⟨-, rfl⟩ | ⟨-, hj⟩ := cases_ hj
    · exact valid
    · exact hc.valid hj
  · obtain ⟨rfl, rfl⟩ | ⟨-, hj⟩ := cases_ hj
    · obtain ⟨same', valid'⟩ := hc.same ho stored
      exact ⟨same.symm.trans same', valid'⟩
    · exact hc.same ho hj
  · obtain ⟨rfl, rfl⟩ | ⟨-, hj⟩ := cases_ hj
    · exact ⟨node, stored, same⟩
    · exact ⟨_, hj, .refl _⟩

theorem deleteNode_valid (hc : w.Consistent handler) (i : NodeId) :
    (w.setNode i none).Consistent handler ∧ w.Later handler (w.setNode i none) := by
  have before : ∀ {j n}, (w.setNode i none).nodes j = some n → w.nodes j = some n := by
    intro j n hj
    by_cases hji : j = i
    · subst hji
      simp at hj
    · simpa [Function.update_of_ne hji] using hj
  exact ⟨⟨fun hj => hc.lt (before hj), fun hj => hc.valid (before hj), hc.cached_id, hc.own_lt,
    hc.fresh, fun ho hj => hc.same ho (before hj)⟩,
    ⟨le_refl _, fun _ => rfl, fun _ => ⟨.refl _, fun h => h⟩, fun hj _ => ⟨_, before hj, .refl _⟩⟩⟩

/-- An object may be given other data of the same node. -/
theorem setObject_valid {o : NodeRef} {object : NodeObject} (hc : w.Consistent handler)
    (id : object.id = (w.objects o).id) (same : SameNode (w.objects o).node object.node)
    (valid : handler.Valid (w.objects o).node → handler.Valid object.node) :
    (w.setObject o object).Consistent handler ∧ w.Later handler (w.setObject o object) := by
  have ids : ∀ p, ((w.setObject o object).objects p).id = (w.objects p).id := by
    intro p
    by_cases hp : p = o
    · subst hp
      simpa using id
    · simp [Function.update_of_ne hp]
  have data : ∀ p, SameNode (w.objects p).node ((w.setObject o object).objects p).node ∧
      (handler.Valid (w.objects p).node →
        handler.Valid ((w.setObject o object).objects p).node) := by
    intro p
    by_cases hp : p = o
    · subst hp
      simpa using ⟨same, valid⟩
    · simpa [Function.update_of_ne hp] using SameNode.refl _
  refine ⟨⟨hc.lt, hc.valid, fun i => (ids _).trans (hc.cached_id i),
    fun ho => hc.own_lt (ids _ ▸ ho),
    fun hn => (ids _).trans (hc.fresh hn), fun ho hi => ?_⟩,
    ⟨le_refl _, ids, fun _ => data _, fun hj _ => ⟨_, hj, .refl _⟩⟩⟩
  obtain ⟨same', valid'⟩ := hc.same (ids _ ▸ ho) hi
  exact ⟨same'.trans (data _).1, (data _).2 valid'⟩

/-- A new node is stored. -/
theorem addNode_consistent {node : Node} (hc : w.Consistent handler) (valid : handler.Valid node) :
    (w.addNode node).Consistent handler := by
  have cases_ : ∀ {j n}, (w.addNode node).nodes j = some n →
      (j = w.nextNode ∧ n = node) ∨ (j ≠ w.nextNode ∧ w.nodes j = some n) := by
    intro j n hj
    by_cases hji : j = w.nextNode
    · subst hji
      exact Or.inl ⟨rfl, by simpa using hj.symm⟩
    · exact Or.inr ⟨hji, by simpa [Function.update_of_ne hji] using hj⟩
  have ids : ∀ p, ((w.addNode node).objects p).id = (w.objects p).id := by
    intro p
    by_cases hp : p = .cached w.nextNode
    · subst hp
      simp
    · simp [Function.update_of_ne hp]
  refine ⟨fun hj => ?_, fun hj => ?_, fun i => (ids _).trans (hc.cached_id i), fun ho => ?_,
    fun hn => (ids _).trans (hc.fresh hn), fun {o _ _} ho hj => ?_⟩
  · obtain ⟨rfl, -⟩ | ⟨-, hj⟩ := cases_ hj
    · exact Nat.lt_succ_self _
    · exact Nat.lt_succ_of_lt (hc.lt hj)
  · obtain ⟨-, rfl⟩ | ⟨-, hj⟩ := cases_ hj
    · exact valid
    · exact hc.valid hj
  · exact Nat.lt_succ_of_lt (hc.own_lt (ids _ ▸ ho))
  · rw [ids] at ho
    obtain ⟨rfl, rfl⟩ | ⟨hne, hj⟩ := cases_ hj
    · cases o with
      | own n => exact absurd (hc.own_lt ho) (lt_irrefl _)
      | cached i =>
          obtain rfl : i = w.nextNode := Option.some.inj ((hc.cached_id i).symm.trans ho)
          simpa using ⟨SameNode.refl _, valid⟩
    · have hp : o ≠ .cached w.nextNode := by
        rintro rfl
        exact hne (Option.some.inj (ho.symm.trans (hc.cached_id _)))
      simpa [Function.update_of_ne hp] using hc.same ho hj

theorem addNode_later {node : Node} (other : ¬ handler.InPool node) :
    w.Later handler (w.addNode node) := by
  refine ⟨le_refl _, fun p => ?_, fun {n} _ => ?_, fun {j n} hj hp => ?_⟩
  · by_cases hp : p = .cached w.nextNode
    · subst hp
      simp
    · simp [Function.update_of_ne hp]
  · simpa using SameNode.refl _
  · by_cases hji : j = w.nextNode
    · subst hji
      obtain rfl : node = n := by simpa using hj
      exact absurd hp other
    · exact ⟨n, by simpa [Function.update_of_ne hji] using hj, .refl _⟩

/-- Only a node object that has no number gets one, and only of a stored node. -/
theorem setId_consistent {o : NodeRef} {node : Node} {i : NodeId} (hc : w.Consistent handler)
    (none : (w.objects o).id = none) (stored : w.nodes i = some node)
    (data : (w.objects o).node = node) (made : ∀ n, o = .own n → n < w.nextObject) :
    (w.setObject o { w.objects o with id := some i }).Consistent handler := by
  have hne : ∀ j, o ≠ .cached j := by
    rintro j rfl
    rw [hc.cached_id] at none
    cases none
  refine ⟨hc.lt, hc.valid, fun j => ?_, fun {n j} ho => ?_, fun {n} hn => ?_,
    fun {p j m} hp hj => ?_⟩
  · simpa [Function.update_of_ne (hne j).symm] using hc.cached_id j
  · by_cases h : (.own n : NodeRef) = o
    · subst h
      obtain rfl : i = j := by simpa using ho
      exact hc.lt stored
    · exact hc.own_lt (by simpa [Function.update_of_ne h] using ho)
  · have h : (.own n : NodeRef) ≠ o := fun h => absurd (made n h.symm) (not_lt.mpr hn)
    simpa [Function.update_of_ne h] using hc.fresh hn
  · by_cases h : p = o
    · subst h
      obtain rfl : i = j := by simpa using hp
      obtain rfl : node = m := Option.some.inj (stored.symm.trans hj)
      simpa [data] using ⟨SameNode.refl _, hc.valid stored⟩
    · simpa [Function.update_of_ne h] using hc.same (by simpa [Function.update_of_ne h] using hp) hj

theorem stored_step {o : NodeRef} (hc : w.Consistent handler) (h : w' ∈ w.stored o) :
    w'.Consistent handler ∧ w.Later handler w' := by
  unfold stored at h
  split at h
  · cases h
  · rename_i i hi
    split at h
    · cases h
    · rename_i hn
      obtain ⟨node, hn⟩ := Option.ne_none_iff_exists'.mp hn
      obtain rfl := List.mem_singleton.mp h
      obtain ⟨same, valid⟩ := hc.same hi hn
      exact setNode_valid hc hn same valid

theorem newNode_step (node : Node) (hc : w.Consistent handler) :
    let w' := { w.setObject (.own w.nextObject) ⟨none, node, false, false, false⟩ with
      nextObject := w.nextObject + 1 }
    w'.Consistent handler ∧ w.Later handler w' := by
  have ids : ∀ p, ((w.setObject (.own w.nextObject) ⟨none, node, false, false, false⟩).objects
      p).id = (w.objects p).id := by
    intro p
    by_cases hp : p = .own w.nextObject
    · subst hp
      simpa using (hc.fresh le_rfl).symm
    · simp [Function.update_of_ne hp]
  refine ⟨⟨hc.lt, hc.valid, fun i => (ids _).trans (hc.cached_id i),
    fun ho => hc.own_lt (ids _ ▸ ho),
    fun hn => (ids _).trans (hc.fresh (Nat.le_of_succ_le hn)), fun {o _ _} ho hi => ?_⟩,
    ⟨Nat.le_succ _, ids, fun {n} hn => ?_, fun hj _ => ⟨_, hj, .refl _⟩⟩⟩
  · have ho' := (ids o).symm.trans ho
    have hp : o ≠ .own w.nextObject := by
      rintro rfl
      rw [hc.fresh le_rfl] at ho'
      cases ho'
    simpa [Function.update_of_ne hp] using hc.same ho' hi
  · have hp : (.own n : NodeRef) ≠ .own w.nextObject := fun h => absurd (NodeRef.own.inj h) hn.ne
    simpa [Function.update_of_ne hp] using SameNode.refl _

/-- The calls that leave the world as it is. -/
def Quiet : Call → Prop
  | .newNode _ | .assignNode _ _ | .createNode _ | .setNode _ | .updateNode _ => False
  | _ => True

theorem free_of_quiet {c : Call} (h : Quiet c) : Free c := by
  cases c <;> trivial

theorem next_quiet {c : Call} {r : LauncherSig.Reply c} (hc : Quiet c) (h : w' ∈ w.next c r) :
    w' = w := by
  cases c <;> cases r <;> first | exact absurd hc id | skip
  all_goals
    simp only [next] at h
    first
      | exact List.mem_singleton.mp h
      | cases h
      | (split at h
         · exact List.mem_singleton.mp h
         · cases h)

/-- **Step lemma.** Every call keeps the world consistent, and all but the store of a
new node lead to a later world. -/
theorem next_step {c : Call} {r : LauncherSig.Reply c} (hc : w.Consistent handler)
    (hreq : w.Req handler c) (h : w' ∈ w.next c r) :
    w'.Consistent handler ∧ (Free c → w.Later handler w') := by
  cases c with
  | newNode node =>
      rcases r with e | (n | i)
      · cases h
      · obtain ⟨rfl, rfl⟩ := of_mem_ite h
        exact (newNode_step node hc).imp_right fun h _ => h
      · cases h
  | assignNode o a =>
      cases r with
      | error e => cases h
      | ok v =>
          obtain rfl := List.mem_singleton.mp h
          refine (setObject_valid hc ?_ (.assign a) fun hv => ?_).imp_right fun h _ => h
          · cases a <;> rfl
          · cases a with
            | resources => cases hreq
            | _ => exact hv.of_same ⟨rfl, rfl, rfl⟩ rfl
  | createNode o =>
      obtain ⟨⟨n, hn, rfl⟩, hid, hv, -⟩ := hreq
      have stored := addNode_consistent hc hv
      refine ⟨?_, fun hf => (nomatch hf)⟩
      cases r with
      | error e =>
          rcases List.mem_cons.mp h with rfl | h
          · exact hc
          · obtain rfl := List.mem_singleton.mp h
            exact stored
      | ok v =>
          obtain rfl := List.mem_singleton.mp h
          have same :
              (w.addNode (w.objects (.own n)).node).objects (.own n) = w.objects (.own n) := by
            simp
          have new : (w.addNode (w.objects (.own n)).node).nodes w.nextNode =
              some (w.objects (.own n)).node := by simp
          have := setId_consistent stored (by rw [same, hid]) new (by rw [same])
            fun m hm => NodeRef.own.inj hm ▸ hn
          rwa [same] at this
  | setNode o =>
      have cases_ : w' = w ∨ w' ∈ w.stored o := by
        cases r with
        | error e => exact List.mem_cons.mp h
        | ok v => exact Or.inr h
      rcases cases_ with rfl | h
      · exact ⟨hc, fun _ => .refl _⟩
      · exact (stored_step hc h).imp_right fun h _ => h
  | updateNode o =>
      cases r with
      | error e =>
          obtain rfl := List.mem_singleton.mp h
          exact ⟨hc, fun _ => .refl _⟩
      | ok node =>
          simp only [next] at h
          split at h
          · cases h
          · rename_i i hi
            split at h
            · rename_i hn
              obtain rfl := List.mem_singleton.mp h
              refine (setObject_valid hc ?_ ?_ ?_).imp_right fun h _ => h
              · rfl
              · exact (hc.same hi hn).1.symm
              · exact fun _ => hc.valid hn
            · cases h
  | _ =>
      obtain rfl := next_quiet (by trivial) h
      exact ⟨hc, fun _ => .refl _⟩

/-- What happens beside the worker keeps the world consistent too. -/
theorem Env.step (hc : w.Consistent handler) (h : Env handler w w') :
    w'.Consistent handler ∧ w.Later handler w' := by
  cases h with
  | storeNode i stored same valid => exact setNode_valid hc stored same valid
  | deleteNode i => exact deleteNode_valid hc i
  | addNode other => exact ⟨addNode_consistent hc fun hp => absurd hp other, addNode_later other⟩
  | assignNode o id same valid => exact setObject_valid hc id same valid

/-- The use of the pool with a new node that was just stored. -/
theorem use_addNode (node : Node) (r : String) :
    (w.addNode node).use handler r = w.use handler r + handler.useOf (some node) r := by
  unfold use
  rw [addNode_nextNode, Finset.sum_range_succ]
  congr 1
  · refine Finset.sum_congr rfl fun i hi => ?_
    simp [Function.update_of_ne (Finset.mem_range.mp hi).ne]
  · simp

end PoolWorld

end Nodepool
