import Mathlib.Algebra.BigOperators.Group.List.Basic
import Mathlib.Data.List.Induction
import Nodepool.Quota.PoolQuota

/-!
Whether a request that `hasProviderQuota` accepts can be served on an otherwise
empty provider: each of its nodes in turn passes `hasRemainingQuota`.

Both checks compare the demand of a list of labels with limits, the first for the
whole request and the second for each of its parts, which need no more. They part
where they read different limits for one resource.
-/

namespace Nodepool

open QuotaInformation

theorem Except.bind_eq_ok {ε α β : Type} {x : Except ε α} {f : α → Except ε β} {b : β} :
    (x >>= f) = .ok b ↔ ∃ a, x = .ok a ∧ f a = .ok b := by
  cases x with
  | error e => exact ⟨fun h => (nomatch h), fun ⟨_, h, _⟩ => (nomatch h)⟩
  | ok a => exact ⟨fun h => ⟨a, rfl, h⟩, fun ⟨_, h, h'⟩ => Except.ok.inj h ▸ h'⟩

/-- The check of the quota of the tenant, unless it is ignored, and then of the pool. -/
theorem check_eq_ok {ignore cloud : Bool} {args : Dict String (Option Number)}
    {pool : QuotaInformation → Bool} :
    (if (!ignore && !cloud) = true then pure false
      else do
        let q ← QuotaInformation.call args
        pure (pool q) : Except QuotaError Bool) = .ok true ↔
      (ignore = true ∨ cloud = true) ∧ "self" ∉ args ∧ pool (ofArgs args) = true := by
  rw [QuotaInformation.call]
  by_cases hs : "self" ∈ args
  · cases ignore <;> cases cloud <;> simp [hs, pure, Except.pure, bind, Except.bind]
  · cases ignore <;> cases cloud <;> simp [hs, pure, Except.pure, bind, Except.bind]

namespace QuotaHandler

variable (handler : QuotaHandler)

/-- What the labels of a list need together. -/
def demand (labels : List String) : QuotaInformation :=
  labels.foldl (fun needed label => needed.add (handler.manager.labelQuota handler.pool label).1)
    zero

/-- How much of a resource the labels of a list need together. -/
def amountNeeded (labels : List String) (resource : String) : ℤ :=
  (labels.map fun label => (handler.manager.labelQuota handler.pool label).1.amount resource).sum

/-- One of the labels lists the resource. -/
def Lists (labels : List String) (resource : String) : Prop :=
  ∃ label ∈ labels, resource ∈ (handler.manager.labelQuota handler.pool label).1.compute

/-- A node of the cache that was granted to the request for a label: it belongs to
the pool, and what is recorded for it, if anything, is the quota of the label. -/
structure Granted (label : String) (node : Node) : Prop where
  provider : node.provider = some handler.manager.providerName
  pool : node.pool = some handler.pool.name
  type : node.type.head? = some label
  resources : node.resources = none ∨
    node.resources = some (handler.manager.labelQuota handler.pool label).1.compute

/-- In whatever order the nodes of a request are granted, while the cache has only
the nodes granted so far, there is quota left for the next one. -/
def GrantsEach (hasRemainingQuota : List Node → String → Except QuotaError Bool)
    (nodeTypes : List String) : Prop :=
  ∀ granted label rest nodes, (granted ++ label :: rest).Perm nodeTypes →
    List.Forall₂ handler.Granted granted nodes → hasRemainingQuota nodes label = .ok true

variable {handler : QuotaHandler}

/-! ### Demands -/

theorem demand_append (labels : List String) (label : String) :
    handler.demand (labels ++ [label]) =
      (handler.demand labels).add (handler.manager.labelQuota handler.pool label).1 := by
  simp [demand]

theorem natural_demand (labels : List String) : (handler.demand labels).Natural := by
  induction labels using List.reverseRecOn with
  | nil => exact Natural.zero
  | append_singleton labels label ih =>
      rw [demand_append]
      exact ih.add (handler.manager.labelQuota handler.pool label).2

theorem amount_demand (labels : List String) (r : String) :
    (handler.demand labels).amount r = handler.amountNeeded labels r := by
  induction labels using List.reverseRecOn with
  | nil => exact amount_zero r
  | append_singleton labels label ih =>
      rw [demand_append, amount_add (natural_demand labels).toFinite
        (handler.manager.labelQuota handler.pool label).2.toFinite, ih]
      simp [amountNeeded]

theorem mem_demand {labels : List String} {r : String} :
    r ∈ (handler.demand labels).compute ↔ r ∈ zero.compute ∨ handler.Lists labels r := by
  induction labels using List.reverseRecOn with
  | nil => simp [demand, Lists]
  | append_singleton labels label ih =>
      rw [demand_append, QuotaInformation.add, mem_addSubtract, ih]
      simp only [Lists, List.mem_append, List.mem_singleton]
      constructor
      · rintro (h | h | ⟨l, hl, h⟩)
        · exact Or.inr ⟨label, Or.inr rfl, h⟩
        · exact Or.inl h
        · exact Or.inr ⟨l, Or.inl hl, h⟩
      · rintro (h | ⟨l, hl | rfl, h⟩)
        · exact Or.inr (Or.inl h)
        · exact Or.inr (Or.inr ⟨l, hl, h⟩)
        · exact Or.inl h

/-- A part of a request needs no more than the whole request. -/
theorem amountNeeded_le {part rest types : List String} (h : (part ++ rest).Perm types)
    (r : String) : handler.amountNeeded part r ≤ handler.amountNeeded types r := by
  have hsum : handler.amountNeeded types r =
      handler.amountNeeded part r + handler.amountNeeded rest r := by
    unfold amountNeeded
    rw [← (h.map _).sum_eq, List.map_append, List.sum_append]
  have hrest : 0 ≤ handler.amountNeeded rest r := by
    rw [← amount_demand]
    exact (natural_demand rest).nonneg r
  omega

theorem Lists.of_part {part rest types : List String} (h : (part ++ rest).Perm types)
    {r : String} (hr : handler.Lists part r) : handler.Lists types r := by
  obtain ⟨label, hl, hr⟩ := hr
  exact ⟨label, h.mem_iff.mp (List.mem_append_left rest hl), hr⟩

/-- Limits that a request keeps are kept by each of its parts. -/
theorem nonNegative_of_part {part rest types : List String} (h : (part ++ rest).Perm types)
    {limits : QuotaInformation}
    (hn : (limits.subtract (handler.demand types)).nonNegative = true) :
    (limits.subtract (handler.demand part)).nonNegative = true := by
  refine nonNegative_subtract_of_le (natural_demand types).toFinite
    (natural_demand part).toFinite (fun r hr => ?_) (fun r => ?_) hn
  · exact mem_demand.mpr ((mem_demand.mp hr).imp_right (Lists.of_part h))
  · rw [amount_demand, amount_demand]
    exact amountNeeded_le h r

/-! ### The two sums of the source -/

theorem nodeResources_of_granted {label : String} {node : Node}
    (h : handler.Granted label node) :
    handler.manager.nodeResources node label handler.pool =
      (handler.manager.labelQuota handler.pool label).1 := by
  have recorded : QuotaInformation.fromResources
      (handler.manager.labelQuota handler.pool label).1.compute =
        (handler.manager.labelQuota handler.pool label).1 := by
    rw [fromResources, ← (handler.manager.labelQuota handler.pool label).2.default]
  rcases h.resources with e | e
  · rw [QuotaSupport.nodeResources, e]
    rfl
  · rw [QuotaSupport.nodeResources, e, Option.filter_some]
    split
    · rename_i hs
      split at hs
      · cases hs
        exact recorded
      · cases hs
    · rfl

theorem quotaUsedByNode_of_granted {label : String} {node : Node}
    (h : handler.Granted label node) (hl : label ∈ handler.pool.labels)
    {pool : Option ProviderPool} (hp : pool = none ∨ pool = some handler.pool) :
    handler.manager.quotaUsedByNode pool node =
      some (handler.manager.labelQuota handler.pool label).1 := by
  rcases hp with rfl | rfl <;>
    simp [QuotaSupport.quotaUsedByNode, h.provider, h.pool, handler.configured, h.type, hl,
      nodeResources_of_granted h]

theorem estimatedNodepoolQuotaUsed_of_granted {granted : List String} {nodes : List Node}
    (h : List.Forall₂ handler.Granted granted nodes)
    (hl : ∀ label ∈ granted, label ∈ handler.pool.labels)
    {pool : Option ProviderPool} (hp : pool = none ∨ pool = some handler.pool) :
    handler.manager.estimatedNodepoolQuotaUsed nodes pool = handler.demand granted := by
  have key : nodes.filterMap (handler.manager.quotaUsedByNode pool) =
      granted.map fun label => (handler.manager.labelQuota handler.pool label).1 := by
    induction h with
    | nil => rfl
    | cons hn _ ih =>
        rw [List.forall_mem_cons] at hl
        rw [List.filterMap_cons, quotaUsedByNode_of_granted hn hl.1 hp, List.map_cons, ih hl.2]
  rw [QuotaSupport.estimatedNodepoolQuotaUsed, key, List.foldl_map]
  rfl

/-- The sum of `hasProviderQuota` is the demand of the request, if the pool has all
of its labels, and otherwise it is not reached. -/
theorem neededQuota_eq (types : List String) :
    handler.manager.neededQuota types handler.pool =
      if ∀ label ∈ types, label ∈ handler.pool.labels then .ok (handler.demand types)
      else .error .keyError := by
  induction types using List.reverseRecOn with
  | nil => simp [QuotaSupport.neededQuota, demand]; rfl
  | append_singleton types label ih =>
      rw [QuotaSupport.neededQuota, List.foldlM_append]
      rw [QuotaSupport.neededQuota] at ih
      rw [ih, demand_append]
      by_cases hall : ∀ l ∈ types, l ∈ handler.pool.labels
      · by_cases hl : label ∈ handler.pool.labels
        · have : ∀ l ∈ types ++ [label], l ∈ handler.pool.labels := by
            simpa [List.mem_append, or_imp, forall_and, hl] using hall
          rw [if_pos hall, if_pos this]
          simp [QuotaSupport.quotaNeededByLabel, hl]
          rfl
        · have : ¬ ∀ l ∈ types ++ [label], l ∈ handler.pool.labels := fun h =>
            hl (h label (by simp))
          rw [if_pos hall, if_neg this]
          simp [QuotaSupport.quotaNeededByLabel, hl]
          rfl
      · have : ¬ ∀ l ∈ types ++ [label], l ∈ handler.pool.labels := fun h =>
          hall fun l hl => h l (List.mem_append_left _ hl)
        rw [if_neg hall, if_neg this]
        rfl

/-- A node as it is stored when it is granted for a label. -/
def grantedNode (handler : QuotaHandler) (label : String) : Node where
  state := .building
  stateTime := 0
  type := [label]
  provider := some handler.manager.providerName
  pool := some handler.pool.name
  launcher := none
  allocatedTo := none
  tenantName := none
  requestor := none
  resources := none
  externalId := none

theorem granted_grantedNode (label : String) :
    handler.Granted label (handler.grantedNode label) :=
  ⟨rfl, rfl, rfl, Or.inl rfl⟩

/-- Whether each node of a request is granted is decided by its whole demand: what
a check says of a granted node depends on the demand of the nodes granted so far
and this one, and it says yes to a part of what it says yes to. -/
theorem grantsEach_iff {types : List String}
    {hasRemainingQuota : List Node → String → Except QuotaError Bool} (fits : List String → Prop)
    (check : ∀ granted label nodes, (∀ l ∈ granted ++ [label], l ∈ types) →
      List.Forall₂ handler.Granted granted nodes →
      (hasRemainingQuota nodes label = .ok true ↔ fits (granted ++ [label])))
    (part : ∀ part rest, (part ++ rest).Perm types → fits types → fits part) :
    handler.GrantsEach hasRemainingQuota types ↔ (types ≠ [] → fits types) := by
  constructor
  · intro grants ne
    have split := List.dropLast_append_getLast ne
    have nodes : List.Forall₂ handler.Granted types.dropLast
        (types.dropLast.map handler.grantedNode) :=
      List.forall₂_map_right_iff.mpr
        (List.forall₂_same.mpr fun label _ => granted_grantedNode label)
    have last := grants types.dropLast (types.getLast ne) [] _ (by rw [split]) nodes
    rw [check _ _ _ (fun l hl => by rwa [split] at hl) nodes, split] at last
    exact last
  · intro h granted label rest nodes perm hg
    have perm' : ((granted ++ [label]) ++ rest).Perm types := by simpa using perm
    have sub : ∀ l ∈ granted ++ [label], l ∈ types := fun l hl =>
      perm'.mem_iff.mp (List.mem_append_left rest hl)
    rw [check granted label nodes sub hg]
    refine part _ rest perm' (h ?_)
    rintro rfl
    exact absurd (sub label (by simp)) List.not_mem_nil

end QuotaHandler

/-! ### The limits of `StateMachineHandler` -/

namespace ProviderPool

variable {pool : ProviderPool} {r k : String}

theorem lookup_limitArgs : (pool.limitArgs k).lookup r =
    ((pool.maxResources.lookup r).map some).or
      (if Number.truthy pool.maxVolumeGb = true ∧ r = k then some pool.maxVolumeGb
        else pool.baseArgs.lookup r) := by
  rw [limitArgs, Dict.lookup_update, Dict.lookup_mapVals]
  by_cases h : Number.truthy pool.maxVolumeGb = true
  · by_cases hr : r = k
    · subst hr
      simp [h]
    · simp [h, hr, AList.lookup_insert_ne hr]
  · simp [h]

/-- The first check lists the limit on volume sizes under one name and the second
under another; every other resource has one limit for both. -/
theorem lookup_limitArgs_ne {k' : String} (h : Number.truthy pool.maxVolumeGb = true →
    r ∈ pool.maxResources ∨ (r ≠ k ∧ r ≠ k')) :
    (pool.limitArgs k).lookup r = (pool.limitArgs k').lookup r := by
  rw [lookup_limitArgs, lookup_limitArgs]
  by_cases hv : Number.truthy pool.maxVolumeGb = true
  · rcases h hv with hr | ⟨hk, hk'⟩
    · obtain ⟨v, hv⟩ := Option.isSome_iff_exists.mp (AList.lookup_isSome.mpr hr)
      simp [hv]
    · simp [hk, hk']
  · simp [hv]

theorem lookup_limitArgs_self (h : Number.truthy pool.maxVolumeGb = true)
    (hr : k ∉ pool.maxResources) : (pool.limitArgs k).lookup k = some pool.maxVolumeGb := by
  simp [lookup_limitArgs, h, AList.lookup_eq_none.mpr hr]

theorem lookup_limitArgs_of_notMem (hr : r ∉ pool.maxResources) (hk : r ≠ k)
    (hb : pool.baseArgs.lookup r = none) : (pool.limitArgs k).lookup r = none := by
  simp [lookup_limitArgs, hk, AList.lookup_eq_none.mpr hr, hb]

theorem lookup_baseArgs (h : r ∉ ["cores", "instances", "ram", "default", "volumes"]) :
    pool.baseArgs.lookup r = none := by
  simp only [List.mem_cons, List.not_mem_nil, or_false, not_or] at h
  obtain ⟨h₁, h₂, h₃, h₄, h₅⟩ := h
  have base : (Dict.ofPairs [("cores", pool.maxCores), ("instances", some pool.maxServers),
      ("ram", pool.maxRam), ("default", some .inf)] : Dict String (Option Number)).lookup r =
        none := by
    change ((((∅ : Dict String (Option Number)).insert _ _).insert _ _ |>.insert _ _).insert
      _ _).lookup r = none
    rw [AList.lookup_insert_ne h₄, AList.lookup_insert_ne h₃, AList.lookup_insert_ne h₂,
      AList.lookup_insert_ne h₁]
    rfl
  unfold baseArgs
  split
  · rw [AList.lookup_insert_ne h₅, base]
  · exact base

/-- The limit of the resources that have none of their own. -/
def defaultLimit (pool : ProviderPool) : Number := pool.maxResources.get "default" .inf

theorem lookup_limitArgs_default (h : k ≠ "default") :
    (pool.limitArgs k).lookup "default" = some (some pool.defaultLimit) := by
  have base : pool.baseArgs.lookup "default" = some (some .inf) := by
    unfold baseArgs
    split <;> rfl
  rw [lookup_limitArgs, base, defaultLimit, Dict.get]
  cases pool.maxResources.lookup "default" <;> simp [h.symm]

theorem self_mem_limitArgs (h : k ≠ "self") :
    "self" ∈ pool.limitArgs k ↔ "self" ∈ pool.maxResources := by
  have base : pool.baseArgs.lookup "self" = none := lookup_baseArgs (by decide)
  rw [← AList.lookup_isSome, ← AList.lookup_isSome, lookup_limitArgs, base]
  cases pool.maxResources.lookup "self" <;> simp [h.symm]

theorem reading_limits_congr {k' : String}
    (h : (pool.limitArgs k).lookup r = (pool.limitArgs k').lookup r) (hk : k ≠ "default")
    (hk' : k' ≠ "default") :
    (ofArgs (pool.limitArgs k)).reading r = (ofArgs (pool.limitArgs k')).reading r :=
  reading_ofArgs_congr h (by rw [lookup_limitArgs_default hk, lookup_limitArgs_default hk'])

theorem mem_limits_volumeGb (h : Number.truthy pool.maxVolumeGb = true)
    (hr : "volume-gb" ∉ pool.maxResources) :
    "volume-gb" ∈ (ofArgs (pool.limitArgs "volume-gb")).compute := by
  refine mem_ofArgs.mpr (Or.inr ⟨by decide, ?_⟩)
  rw [← AList.lookup_isSome, lookup_limitArgs_self h hr]
  rfl

theorem reading_limits_volumeGb (h : Number.truthy pool.maxVolumeGb = true)
    (hr : "volume-gb" ∉ pool.maxResources) :
    (ofArgs (pool.limitArgs "volume-gb")).reading "volume-gb" = pool.maxVolumeGb.getD 0 := by
  rw [reading_ofArgs _ (by decide), Dict.get, lookup_limitArgs_self h hr]
  cases hv : pool.maxVolumeGb with
  | none => rw [hv] at h; cases h
  | some v => rfl

/-- A resource that no argument names has the default limit. -/
theorem reading_limits_of_notMem (hr : r ∉ pool.maxResources) (hk : r ≠ k)
    (hb : r ∉ ["cores", "instances", "ram", "default", "volumes"]) (hd : k ≠ "default") :
    (ofArgs (pool.limitArgs k)).reading r = pool.defaultLimit := by
  have hne : r ≠ "default" := fun h => hb (by simp [h])
  rw [reading_ofArgs _ hne, Dict.get, lookup_limitArgs_of_notMem hr hk (lookup_baseArgs hb),
    Dict.get, lookup_limitArgs_default hd]
  rfl

theorem not_mem_limits (hr : r ∉ pool.maxResources) (hk : r ≠ k)
    (hb : r ∉ ["cores", "instances", "ram", "default", "volumes"])
    (hc : r ∉ ["cores", "instances", "ram"]) : r ∉ (ofArgs (pool.limitArgs k)).compute := by
  rw [mem_ofArgs, ← AList.lookup_isSome, lookup_limitArgs_of_notMem hr hk (lookup_baseArgs hb)]
  rintro (h | ⟨_, h⟩)
  · exact hc h
  · cases h

end ProviderPool

namespace StateMachineHandler

variable {handler : QuotaHandler}

open QuotaHandler

/-- The quota of the pool that both checks compare a demand with. -/
def fitsPool (handler : QuotaHandler) (volumeGb : String) (labels : List String) : Prop :=
  "self" ∉ handler.pool.maxResources ∧
    ((ofArgs (handler.pool.limitArgs volumeGb)).subtract (handler.demand labels)).nonNegative = true

/-- The quota of the tenant, unless the pool ignores it. -/
def fitsCloud (handler : QuotaHandler) (labels : List String) : Prop :=
  handler.pool.ignoreProviderQuota = true ∨
    (handler.manager.estimatedNodepoolQuota.subtract (handler.demand labels)).nonNegative = true

theorem hasProviderQuota_iff {types : List String} :
    hasProviderQuota handler types = .ok true ↔ (∀ label ∈ types, label ∈ handler.pool.labels) ∧
      fitsCloud handler types ∧ fitsPool handler "volume_gb" types := by
  unfold hasProviderQuota
  rw [neededQuota_eq, Except.bind_eq_ok]
  constructor
  · rintro ⟨needed, hn, h⟩
    split at hn
    · rename_i hl
      cases hn
      have := check_eq_ok.mp h
      rw [ProviderPool.self_mem_limitArgs (by decide)] at this
      exact ⟨hl, this⟩
    · cases hn
  · rintro ⟨hl, hc, hp⟩
    refine ⟨_, if_pos hl, check_eq_ok.mpr ⟨hc, ?_⟩⟩
    rwa [ProviderPool.self_mem_limitArgs (by decide)]

/-- For nodes of which those before have been granted, the second check is about
the demand of them all. -/
theorem hasRemainingQuota_iff {granted : List String} {label : String} {nodes : List Node}
    (hl : ∀ l ∈ granted ++ [label], l ∈ handler.pool.labels)
    (hg : List.Forall₂ handler.Granted granted nodes) :
    hasRemainingQuota handler nodes label = .ok true ↔
      fitsCloud handler (granted ++ [label]) ∧
        fitsPool handler "volume-gb" (granted ++ [label]) := by
  have hgl : ∀ l ∈ granted, l ∈ handler.pool.labels := fun l h => hl l (List.mem_append_left _ h)
  have hlabel := (handler.manager.labelQuota handler.pool label).2.toFinite
  have hgranted : (handler.demand granted).Finite := (natural_demand granted).toFinite
  unfold hasRemainingQuota poolRemains cloudRemains
  rw [QuotaSupport.quotaNeededByLabel, if_pos (hl label (by simp)), Except.bind_eq_ok]
  simp only [Except.ok.injEq, exists_eq_left']
  rw [check_eq_ok, ProviderPool.self_mem_limitArgs (by decide),
    estimatedNodepoolQuotaUsed_of_granted hg hgl (Or.inl rfl),
    estimatedNodepoolQuotaUsed_of_granted hg hgl (Or.inr rfl),
    nonNegative_subtract_subtract hgranted hlabel, nonNegative_subtract_subtract hgranted hlabel,
    ← demand_append]
  rfl

/-- The limit on volume sizes is one that both checks hold the request to, or the
request keeps it. The first check has it as the limit of a resource `volume_gb`,
which the second one holds to the default. -/
def KeepsVolumeGb (handler : QuotaHandler) (types : List String) : Prop :=
  types ≠ [] → Number.truthy handler.pool.maxVolumeGb = true →
    ("volume-gb" ∉ handler.pool.maxResources →
      (handler.pool.maxVolumeGb.getD 0 -
        .int (handler.amountNeeded types "volume-gb")).isNeg = false) ∧
    ("volume_gb" ∉ handler.pool.maxResources → handler.Lists types "volume_gb" →
      (handler.pool.defaultLimit -
        .int (handler.amountNeeded types "volume_gb")).isNeg = false)

/-- Of a request that keeps the limits of the first check, the second one asks for
the limit on volume sizes besides. -/
theorem fitsPool_iff {types : List String} (h : fitsPool handler "volume_gb" types)
    (ne : types ≠ []) : fitsPool handler "volume-gb" types ↔ KeepsVolumeGb handler types := by
  obtain ⟨hself, h⟩ := h
  have hd : (handler.demand types).Finite := (natural_demand types).toFinite
  rw [nonNegative_subtract_iff hd] at h
  rw [fitsPool, nonNegative_subtract_iff hd]
  constructor
  · intro ⟨_, h'⟩ _ hv
    constructor
    · intro hr
      have := h' "volume-gb" (Or.inr (ProviderPool.mem_limits_volumeGb hv hr))
      rwa [ProviderPool.reading_limits_volumeGb hv hr, amount_demand] at this
    · intro hr lists
      have := h' "volume_gb" (Or.inl (mem_demand.mpr (Or.inr lists)))
      rwa [ProviderPool.reading_limits_of_notMem hr (by decide) (by decide) (by decide),
        amount_demand] at this
  · intro keeps
    refine ⟨hself, fun r hr => ?_⟩
    by_cases same : Number.truthy handler.pool.maxVolumeGb = true →
        r ∈ handler.pool.maxResources ∨ (r ≠ "volume_gb" ∧ r ≠ "volume-gb")
    · -- both checks read one limit for this resource
      have hlookup := ProviderPool.lookup_limitArgs_ne same
      rw [← mem_ofArgs_congr hlookup] at hr
      rw [← ProviderPool.reading_limits_congr hlookup (by decide) (by decide)]
      exact h r hr
    · obtain ⟨hv, neither⟩ := Classical.not_imp.mp same
      obtain ⟨hr', hname⟩ := not_or.mp neither
      rw [amount_demand]
      rcases (not_and_or.mp hname).imp not_not.mp not_not.mp with rfl | rfl
      · rw [ProviderPool.reading_limits_of_notMem hr' (by decide) (by decide) (by decide)]
        refine (keeps ne hv).2 hr' ?_
        rcases hr with hr | hr
        · exact (mem_demand.mp hr).resolve_left (by decide)
        · exact absurd hr (ProviderPool.not_mem_limits hr' (by decide) (by decide) (by decide))
      · rw [ProviderPool.reading_limits_volumeGb hv hr']
        exact (keeps ne hv).1 hr'

/-- An accepted request has each of its nodes granted exactly when it keeps the
limit on volume sizes. -/
theorem grantsEach_iff_keepsVolumeGb {types : List String}
    (accepted : hasProviderQuota handler types = .ok true) :
    handler.GrantsEach (hasRemainingQuota handler) types ↔ KeepsVolumeGb handler types := by
  obtain ⟨hl, hc, hp⟩ := hasProviderQuota_iff.mp accepted
  rw [grantsEach_iff
    (fun labels => fitsCloud handler labels ∧ fitsPool handler "volume-gb" labels)
    (fun granted label nodes sub hg => hasRemainingQuota_iff (fun l h => hl l (sub l h)) hg)]
  · constructor
    · exact fun h ne => (fitsPool_iff hp ne).mp (h ne).2 ne
    · exact fun h ne => ⟨hc, (fitsPool_iff hp ne).mpr h⟩
  · exact fun part rest perm h => ⟨h.1.imp_right (nonNegative_of_part perm),
      h.2.1, nonNegative_of_part perm h.2.2⟩

end StateMachineHandler

/-! ### The limits of `KubernetesNodeRequestHandler` -/

namespace KubernetesNodeRequestHandler

variable {handler : Handler} {pool : ProviderPool} {r : String}

open QuotaHandler

theorem lookup_baseArgs (h : r ∉ ["cores", "instances", "ram"]) :
    (baseArgs pool).lookup r = none := by
  simp only [List.mem_cons, List.not_mem_nil, or_false, not_or] at h
  obtain ⟨h₁, h₂, h₃⟩ := h
  change (((∅ : Dict String (Option Number)).insert _ _).insert _ _ |>.insert _ _).lookup r = none
  rw [AList.lookup_insert_ne h₃, AList.lookup_insert_ne h₂, AList.lookup_insert_ne h₁]
  rfl

theorem notMem_baseArgs (h : r ∉ ["cores", "instances", "ram"]) : r ∉ baseArgs pool :=
  AList.lookup_eq_none.mp (lookup_baseArgs h)

theorem reading_providerLimits (r : String) : providerLimits.reading r = .inf := by
  by_cases h : r ∈ ["cores", "instances", "ram", "default"]
  · simp only [List.mem_cons, List.not_mem_nil, or_false] at h
    rcases h with rfl | rfl | rfl | rfl <;> rfl
  · simp only [List.mem_cons, List.not_mem_nil, or_false, not_or] at h
    obtain ⟨h₁, h₂, h₃, h₄⟩ := h
    rw [providerLimits, reading_ofArgs _ h₄, Dict.get]
    change (((((∅ : Dict String (Option Number)).insert _ _).insert _ _ |>.insert _ _).insert
      _ _).lookup r |>.getD none).getD _ = _
    rw [AList.lookup_insert_ne h₄, AList.lookup_insert_ne h₃, AList.lookup_insert_ne h₂,
      AList.lookup_insert_ne h₁]
    rfl

/-- A Kubernetes provider has no limits, so every demand fits. -/
theorem fitsCloud (handler : Handler) (labels : List String) :
    (handler.manager.estimatedNodepoolQuota.subtract
      (handler.demand labels)).nonNegative = true := by
  rw [QuotaSupport.estimatedNodepoolQuota, handler.limits, handler.unmanaged,
    nonNegative_subtract_subtract Finite.zero (natural_demand labels).toFinite,
    nonNegative_subtract_iff (Finite.zero.add (natural_demand labels).toFinite)]
  intro r _
  rw [reading_providerLimits]
  rfl

theorem lookup_limitArgs : (limitArgs pool).lookup r =
    ((pool.maxResources.lookup r).map some).or ((baseArgs pool).lookup r) := by
  rw [limitArgs, Dict.lookup_update, Dict.lookup_mapVals]

theorem mem_limitArgs : r ∈ limitArgs pool ↔ r ∈ pool.maxResources ∨ r ∈ baseArgs pool := by
  rw [limitArgs, Dict.update, AList.mem_union, Dict.mem_mapVals]

/-- The quota of the pool that the first check compares a demand with. -/
def fitsBase (handler : Handler) (labels : List String) : Prop :=
  ((ofArgs ((baseArgs handler.pool).insert "default" (some .inf))).subtract
    (handler.demand labels)).nonNegative = true

/-- The quota of the pool that the second check compares a demand with; the call
that builds it must succeed. -/
def fitsPool (handler : Handler) (labels : List String) : Prop :=
  "default" ∉ handler.pool.maxResources ∧ "self" ∉ handler.pool.maxResources ∧
    ((ofArgs ((limitArgs handler.pool).insert "default" (some .inf))).subtract
      (handler.demand labels)).nonNegative = true

theorem hasProviderQuota_iff {types : List String} :
    hasProviderQuota handler types = .ok true ↔
      (∀ label ∈ types, label ∈ handler.pool.labels) ∧ fitsBase handler types := by
  unfold hasProviderQuota
  rw [neededQuota_eq, Except.bind_eq_ok]
  constructor
  · rintro ⟨needed, hn, h⟩
    split at hn
    · rename_i hl
      cases hn
      exact ⟨hl, (check_eq_ok.mp h).2.2⟩
    · cases hn
  · rintro ⟨hl, hp⟩
    refine ⟨_, if_pos hl, check_eq_ok.mpr ⟨Or.inr (fitsCloud handler types), ?_, hp⟩⟩
    rw [AList.mem_insert]
    exact fun h => h.elim (by decide) (notMem_baseArgs (by decide))

theorem callWithDefault_eq_ok {args : Dict String (Option Number)} {q : QuotaInformation} :
    callWithDefault args = .ok q ↔ "default" ∉ args ∧ "self" ∉ args ∧
      ofArgs (args.insert "default" (some .inf)) = q := by
  unfold callWithDefault QuotaInformation.call
  by_cases hd : "default" ∈ args
  · simp [hd]
  · by_cases hs : "self" ∈ args
    · simp [hd, hs]
    · simp [hd, hs]

theorem hasRemainingQuota_iff {granted : List String} {label : String} {nodes : List Node}
    (hl : ∀ l ∈ granted ++ [label], l ∈ handler.pool.labels)
    (hg : List.Forall₂ handler.Granted granted nodes) :
    hasRemainingQuota handler nodes label = .ok true ↔
      fitsPool handler (granted ++ [label]) := by
  have hgl : ∀ l ∈ granted, l ∈ handler.pool.labels := fun l h => hl l (List.mem_append_left _ h)
  have hlabel := (handler.manager.labelQuota handler.pool label).2.toFinite
  have hgranted : (handler.demand granted).Finite := (natural_demand granted).toFinite
  unfold hasRemainingQuota
  rw [QuotaSupport.quotaNeededByLabel, if_pos (hl label (by simp)), Except.bind_eq_ok]
  simp only [Except.ok.injEq, exists_eq_left']
  rw [estimatedNodepoolQuotaUsed_of_granted hg hgl (Or.inl rfl),
    estimatedNodepoolQuotaUsed_of_granted hg hgl (Or.inr rfl),
    nonNegative_subtract_subtract hgranted hlabel, ← demand_append, fitsCloud]
  change (callWithDefault (limitArgs handler.pool) >>= _) = _ ↔ _
  rw [Except.bind_eq_ok, fitsPool]
  simp only [callWithDefault_eq_ok, mem_limitArgs, notMem_baseArgs (r := "default") (by decide),
    notMem_baseArgs (r := "self") (by decide), or_false]
  constructor
  · rintro ⟨q, ⟨hd, hs, rfl⟩, h⟩
    refine ⟨hd, hs, ?_⟩
    rw [demand_append, ← nonNegative_subtract_subtract hgranted hlabel]
    exact Except.ok.inj h
  · rintro ⟨hd, hs, h⟩
    refine ⟨_, ⟨hd, hs, rfl⟩, ?_⟩
    rw [demand_append, ← nonNegative_subtract_subtract hgranted hlabel] at h
    exact congrArg Except.ok h

theorem reading_limits_of_mem (hr : r ∈ pool.maxResources) (hne : r ≠ "default") :
    (ofArgs ((limitArgs pool).insert "default" (some .inf))).reading r =
      pool.maxResources.get r 0 := by
  rw [reading_ofArgs _ hne, Dict.get, AList.lookup_insert_ne hne, lookup_limitArgs,
    Dict.lookup_eq_get_of_mem hr 0]
  rfl

/-- The request keeps the limits of `max-resources`, which the first check does
not read, and none of these is called like an argument of the call that builds
the quota from them. -/
def KeepsMaxResources (handler : Handler) (types : List String) : Prop :=
  types ≠ [] → "default" ∉ handler.pool.maxResources ∧ "self" ∉ handler.pool.maxResources ∧
    ∀ r ∈ handler.pool.maxResources,
      (handler.pool.maxResources.get r 0 - .int (handler.amountNeeded types r)).isNeg = false

/-- Of a request that keeps the limits of the first check, the second one asks for
those of `max-resources` besides. -/
theorem fitsPool_iff {types : List String} (h : fitsBase handler types) (ne : types ≠ []) :
    fitsPool handler types ↔ KeepsMaxResources handler types := by
  have hd : (handler.demand types).Finite := (natural_demand types).toFinite
  rw [fitsBase, nonNegative_subtract_iff hd] at h
  rw [fitsPool, nonNegative_subtract_iff hd]
  constructor
  · intro ⟨hdefault, hself, h'⟩ _
    refine ⟨hdefault, hself, fun r hr => ?_⟩
    have hne : r ≠ "default" := fun e => hdefault (e ▸ hr)
    have := h' r (Or.inr (mem_ofArgs.mpr (Or.inr ⟨hne, ?_⟩)))
    · rwa [reading_limits_of_mem hr hne, amount_demand] at this
    · exact (AList.mem_insert _).mpr (Or.inr (mem_limitArgs.mpr (Or.inl hr)))
  · intro keeps
    obtain ⟨hdefault, hself, hkeeps⟩ := keeps ne
    refine ⟨hdefault, hself, fun r hr => ?_⟩
    by_cases hmem : r ∈ handler.pool.maxResources
    · have hne : r ≠ "default" := fun e => hdefault (e ▸ hmem)
      rw [reading_limits_of_mem hmem hne, amount_demand]
      exact hkeeps r hmem
    · have hlookup : ((limitArgs handler.pool).insert "default" (some .inf)).lookup r =
          ((baseArgs handler.pool).insert "default" (some .inf)).lookup r := by
        by_cases hne : r = "default"
        · rw [hne, AList.lookup_insert, AList.lookup_insert]
        · rw [AList.lookup_insert_ne hne, AList.lookup_insert_ne hne, lookup_limitArgs,
            AList.lookup_eq_none.mpr hmem]
          rfl
      rw [mem_ofArgs_congr hlookup] at hr
      rw [reading_ofArgs_congr hlookup (by rw [AList.lookup_insert, AList.lookup_insert])]
      exact h r hr

/-- An accepted request has each of its nodes granted exactly when it keeps the
limits of `max-resources`. -/
theorem grantsEach_iff_keepsMaxResources {types : List String}
    (accepted : hasProviderQuota handler types = .ok true) :
    handler.GrantsEach (hasRemainingQuota handler) types ↔ KeepsMaxResources handler types := by
  obtain ⟨hl, hp⟩ := hasProviderQuota_iff.mp accepted
  rw [grantsEach_iff (fitsPool handler)
    (fun granted label nodes sub hg => hasRemainingQuota_iff (fun l h => hl l (sub l h)) hg)]
  · constructor
    · exact fun h ne => (fitsPool_iff hp ne).mp (h ne) ne
    · exact fun h ne => (fitsPool_iff hp ne).mpr h
  · exact fun part rest perm h => ⟨h.1, h.2.1, nonNegative_of_part perm h.2.2⟩

end KubernetesNodeRequestHandler

/-! ### Accepted requests -/

/-- A handler of either kind of provider. -/
inductive PoolHandler where
  | stateMachine (handler : QuotaHandler)
  | kubernetes (handler : KubernetesNodeRequestHandler.Handler)

namespace PoolHandler

def hasProviderQuota (nodeTypes : List String) : PoolHandler → Except QuotaError Bool
  | .stateMachine handler => StateMachineHandler.hasProviderQuota handler nodeTypes
  | .kubernetes handler => KubernetesNodeRequestHandler.hasProviderQuota handler nodeTypes

/-- Each node of a request is granted on an otherwise empty provider. -/
def GrantsEach (nodeTypes : List String) : PoolHandler → Prop
  | .stateMachine handler =>
      handler.GrantsEach (StateMachineHandler.hasRemainingQuota handler) nodeTypes
  | .kubernetes handler =>
      handler.GrantsEach (KubernetesNodeRequestHandler.hasRemainingQuota handler) nodeTypes

/-- The request keeps the limits that `hasRemainingQuota` reads and
`hasProviderQuota` does not: the one on volume sizes under a state machine
provider, and `max-resources` under a Kubernetes provider. -/
def KeepsLimits (nodeTypes : List String) : PoolHandler → Prop
  | .stateMachine handler => StateMachineHandler.KeepsVolumeGb handler nodeTypes
  | .kubernetes handler => KubernetesNodeRequestHandler.KeepsMaxResources handler nodeTypes

/-- For the requests that `hasProviderQuota` accepts, each node is granted exactly
when the request keeps the limits that only `hasRemainingQuota` reads. -/
theorem grantsEach_iff_keepsLimits (handler : PoolHandler) (nodeTypes : List String)
    (accepted : handler.hasProviderQuota nodeTypes = .ok true) :
    handler.GrantsEach nodeTypes ↔ handler.KeepsLimits nodeTypes := by
  cases handler with
  | stateMachine handler => exact StateMachineHandler.grantsEach_iff_keepsVolumeGb accepted
  | kubernetes handler =>
      exact KubernetesNodeRequestHandler.grantsEach_iff_keepsMaxResources accepted

/-- A pool of an otherwise unlimited provider, with one label. -/
def volumePool (maxVolumeGb : Number) (maxResources : Resources) : ProviderPool where
  name := "main"
  labels := ["volume"]
  maxServers := .int 5
  maxCores := some .inf
  maxRam := some .inf
  maxVolumes := some .inf
  maxVolumeGb := some maxVolumeGb
  maxResources := maxResources
  ignoreProviderQuota := false

/-- What a label needs whose nodes boot from a volume. -/
def volumeQuota : QuotaInformation :=
  ofArgs (Dict.ofPairs [("instances", some (.int 1)), ("cores", some (.int 4)),
    ("ram", some (.int 8192)), ("volumes", some (.int 1)), ("volume-gb", some (.int 200))])

/-- A handler of that pool, under a provider that reports no limits. -/
def volumeHandler (maxVolumeGb : Number) (maxResources : Resources) :
    KubernetesNodeRequestHandler.Handler where
  manager :=
    { providerName := "cloud"
      pools := Dict.ofPairs [("main", volumePool maxVolumeGb maxResources)]
      labelQuota := fun _ _ => ⟨volumeQuota, Natural.of_entries rfl (by decide)⟩
      getProviderLimits := KubernetesNodeRequestHandler.providerLimits
      unmanagedQuotaUsed := zero }
  pool := volumePool maxVolumeGb maxResources
  configured := rfl
  limits := rfl
  unmanaged := rfl

/-- A pool that allows 500 GB of volumes, by its own limit or by `max-resources`,
serves a request for two nodes with 200 GB each. -/
theorem grantsEach_iff_keepsLimits_volume :
    (PoolHandler.stateMachine (volumeHandler (.int 500) ∅).toQuotaHandler).GrantsEach
        ["volume", "volume"] ∧
      (PoolHandler.kubernetes
        (volumeHandler .inf (Dict.ofPairs [("volume-gb", .int 500)]))).GrantsEach
          ["volume", "volume"] := by
  refine ⟨(grantsEach_iff_keepsLimits (.stateMachine _) _ (by decide)).mpr ?_,
    (grantsEach_iff_keepsLimits (.kubernetes _) _ (by decide)).mpr ?_⟩
  · intro _ _
    refine ⟨fun _ => by decide, fun _ lists => ?_⟩
    exact absurd lists (by simp only [QuotaHandler.Lists]; decide)
  · intro _
    exact ⟨by decide, by decide, by decide⟩

/-- With 100 GB allowed, a request for one node with 200 GB is accepted and its
node is never granted. -/
theorem not_forall_grantsEach_of_accepted :
    ¬ ∀ (handler : PoolHandler) (nodeTypes : List String),
      handler.hasProviderQuota nodeTypes = .ok true → handler.GrantsEach nodeTypes := by
  intro h
  have granted := h (.stateMachine (volumeHandler (.int 100) ∅).toQuotaHandler) ["volume"]
    (by decide) [] "volume" [] [] (by decide) .nil
  exact absurd granted (by decide)

end PoolHandler

end Nodepool
