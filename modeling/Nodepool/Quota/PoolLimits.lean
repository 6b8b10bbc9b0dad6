import Nodepool.Quota.PoolUse

/-!
Pool limits are kept: the look at the node cache in `hasRemainingQuota` sees every
node that the pool has when the look is over, so what it grants fits, and still
does when the new node is stored.
-/

namespace Nodepool

open Effect Method QuotaInformation PoolWorld

namespace PoolSystem

variable {handler : QuotaHandler}

/-- The worker starts with any handlers for new requests, in a world with any nodes. -/
structure Initial (handler : QuotaHandler) (cfg : Config (poolSystem handler)) : Prop where
  consistent : cfg.world.Consistent handler
  idle : ∃ handlers, cfg.thread () = .pure handlers ∧ ∀ i, (handlers i).nodeset = []

/-- The context of the worker. -/
abbrev context (handler : QuotaHandler) : Context LauncherSig PoolWorld :=
  (poolSystem handler).context (System.always (poolSystem handler)) (Consistent handler)
    (Later handler) (Req handler) ()

end PoolSystem

/-! ### What the look at the node cache sees -/

/-- If each key of a set has an entry that is worth its share, the entries are
worth the sum. -/
theorem sum_le_sum_entries {α : Type} {f : NodeId × α → ℤ} (nonneg : ∀ e, 0 ≤ f e)
    {entries : List (NodeId × α)} {S : Finset NodeId} {share : NodeId → ℤ}
    (h : ∀ i ∈ S, ∃ e ∈ entries, e.1 = i ∧ share i ≤ f e) :
    ∑ i ∈ S, share i ≤ (entries.map f).sum := by
  induction entries generalizing S with
  | nil =>
      have : S = ∅ := Finset.eq_empty_of_forall_notMem fun i hi => by
        obtain ⟨e, he, -⟩ := h i hi
        exact List.not_mem_nil he
      simp [this]
  | cons e entries ih =>
      rw [List.map_cons, List.sum_cons]
      by_cases first : e.1 ∈ S ∧ share e.1 ≤ f e
      · have rest : ∑ i ∈ S.erase e.1, share i ≤ (entries.map f).sum := by
          refine ih fun i hi => ?_
          obtain ⟨hne, hi⟩ := Finset.mem_erase.mp hi
          obtain ⟨e', he', rfl, hle⟩ := h i hi
          rcases List.mem_cons.mp he' with rfl | he'
          · exact absurd rfl hne
          · exact ⟨e', he', rfl, hle⟩
        rw [← Finset.add_sum_erase S share first.1]
        exact add_le_add first.2 rest
      · have rest : ∑ i ∈ S, share i ≤ (entries.map f).sum := by
          refine ih fun i hi => ?_
          obtain ⟨e', he', rfl, hle⟩ := h i hi
          rcases List.mem_cons.mp he' with rfl | he'
          · exact absurd ⟨hi, hle⟩ first
          · exact ⟨e', he', rfl, hle⟩
        have := nonneg e
        omega

namespace PoolWorld

variable {handler : QuotaHandler} {w w' : PoolWorld}

/-- Each node of the pool is among the nodes that were read. -/
def SeenIn (handler : QuotaHandler) (nodes : List (NodeId × Node)) (w : PoolWorld) : Prop :=
  ∀ {i node}, w.nodes i = some node → handler.InPool node →
    ∃ node', (i, node') ∈ nodes ∧ SameNode node' node

/-- What the nodes that were read are charged is what they use. -/
theorem quotaUsedByNode_of_valid {node : Node} (h : handler.Valid node) :
    (∀ q, handler.manager.quotaUsedByNode (some handler.pool) node = some q → q.Natural) ∧
    ∀ r,
      ((handler.manager.quotaUsedByNode (some handler.pool) node).map fun q => q.amount r).getD 0 =
      handler.useOf (some node) r := by
  by_cases hp : handler.InPool node
  · obtain ⟨label, hl, hg⟩ := h hp
    rw [QuotaHandler.quotaUsedByNode_of_granted hg hl (Or.inr rfl)]
    refine ⟨fun q hq => ?_, fun r => ?_⟩
    · cases hq
      exact (handler.manager.labelQuota handler.pool label).2
    · rw [QuotaHandler.useOf_of_granted hg]
      rfl
  · have : handler.manager.quotaUsedByNode (some handler.pool) node = none := by
      unfold QuotaSupport.quotaUsedByNode
      by_cases h₁ : node.provider = some handler.manager.providerName
      · have h₂ : node.pool ≠ some handler.pool.name := fun h₂ => hp ⟨h₁, h₂⟩
        simp [h₁, h₂]
      · simp [h₁]
    rw [this]
    refine ⟨fun q hq => (nomatch hq), fun r => ?_⟩
    rw [QuotaHandler.useOf, if_neg hp]
    rfl

theorem estimatedNodepoolQuotaUsed_of_valid {nodes : List Node}
    (h : ∀ node ∈ nodes, handler.Valid node) :
    (handler.manager.estimatedNodepoolQuotaUsed nodes (some handler.pool)).Natural ∧
    ∀ r, (handler.manager.estimatedNodepoolQuotaUsed nodes (some handler.pool)).amount r =
      (nodes.map fun node => handler.useOf (some node) r).sum := by
  have natural : ∀ q ∈ nodes.filterMap (handler.manager.quotaUsedByNode (some handler.pool)),
      q.Natural := by
    intro q hq
    obtain ⟨node, hn, hq⟩ := List.mem_filterMap.mp hq
    exact (quotaUsedByNode_of_valid (h node hn)).1 q hq
  obtain ⟨hnat, hsum⟩ := amount_foldl_add natural Natural.zero
  refine ⟨hnat, fun r => ?_⟩
  rw [QuotaSupport.estimatedNodepoolQuotaUsed, hsum r, amount_zero, zero_add]
  clear natural hnat hsum
  induction nodes with
  | nil => rfl
  | cons node nodes ih =>
      rw [List.forall_mem_cons] at h
      have charge := (quotaUsedByNode_of_valid h.1).2 r
      rw [List.map_cons, List.sum_cons, ← charge, ← ih h.2, List.filterMap_cons]
      cases handler.manager.quotaUsedByNode (some handler.pool) node with
      | none => simp
      | some q => simp

/-- The pool uses no more than what the nodes that were read are charged. -/
theorem use_le_estimatedNodepoolQuotaUsed {nodes : List (NodeId × Node)}
    (seen : SeenIn handler nodes w) (valid : ∀ e ∈ nodes, handler.Valid e.2) (r : String) :
    w.use handler r ≤
      (handler.manager.estimatedNodepoolQuotaUsed (nodes.map (·.2))
        (some handler.pool)).amount r := by
  rw [(estimatedNodepoolQuotaUsed_of_valid (List.forall_mem_map.mpr valid)).2 r, List.map_map]
  classical
  have inPool : ∀ i ∈ Finset.range w.nextNode,
      ¬ (∃ node, w.nodes i = some node ∧ handler.InPool node) →
        handler.useOf (w.nodes i) r = 0 := by
    intro i _ hi
    cases hn : w.nodes i with
    | none => rfl
    | some node => rw [QuotaHandler.useOf, if_neg fun hp => hi ⟨node, hn, hp⟩]
  rw [use, ← Finset.sum_filter_of_ne fun i hi hne => by_contra fun h => hne (inPool i hi h)]
  refine sum_le_sum_entries (f := fun e => handler.useOf (some e.2) r)
    (fun e => QuotaHandler.useOf_nonneg _ r) fun i hi => ?_
  obtain ⟨node, hn, hp⟩ := (Finset.mem_filter.mp hi).2
  obtain ⟨node', hmem, same⟩ := seen hn hp
  exact ⟨_, hmem, rfl, by rw [hn, same.useOf]⟩

end PoolWorld

/-! ### What the check grants -/

namespace ProviderPool

variable {pool : ProviderPool}

theorem Limit.of_default {r : String} {limit : Number} (h : pool.Limit r limit)
    (hd : r = "default") : pool.maxResources.lookup r = some limit := by
  cases h with
  | resource h => exact h
  | _ => exact absurd hd (by decide)

theorem lookup_baseArgs_ne {r : String} (h : r ≠ "volumes") : pool.baseArgs.lookup r =
    (Dict.ofPairs [("cores", pool.maxCores), ("instances", some pool.maxServers),
      ("ram", pool.maxRam), ("default", some .inf)] : Dict String (Option Number)).lookup r := by
  unfold baseArgs
  split
  · exact AList.lookup_insert_ne h
  · rfl

/-- For every configured limit the check reads one that is as tight. -/
theorem Limit.tightens_reading {r : String} {limit : Number} (h : pool.Limit r limit)
    (cond : pool.LimitsRead) :
    Tightens ((ofArgs (pool.limitArgs "volume-gb")).reading r) limit ∧
      (r ≠ "default" → r ∈ (ofArgs (pool.limitArgs "volume-gb")).compute) := by
  have overridden : ∀ {limit'}, pool.maxResources.lookup r = some limit' →
      Tightens ((ofArgs (pool.limitArgs "volume-gb")).reading r) limit ∧
        (r ≠ "default" → r ∈ (ofArgs (pool.limitArgs "volume-gb")).compute) := by
    intro limit' hm
    have hl : (pool.limitArgs "volume-gb").lookup r = some (some limit') := by
      rw [lookup_limitArgs, hm]
      rfl
    refine ⟨?_, fun hne => mem_ofArgs.mpr (Or.inr ⟨hne, ?_⟩)⟩
    · have reading : (ofArgs (pool.limitArgs "volume-gb")).reading r = limit' := by
        by_cases hne : r = "default"
        · subst hne
          rw [reading_ofArgs_default, default_ofArgs, Dict.get, hl]
          rfl
        · rw [reading_ofArgs _ hne, Dict.get, hl]
          rfl
      rw [reading]
      exact cond.overrides h hm
    · rw [← AList.lookup_isSome, hl]
      rfl
  have argument : ∀ (h : pool.maxResources.lookup r = none) (hne : r ≠ "default")
      (hv : r ≠ "volume-gb") (hb : pool.baseArgs.lookup r = some (some limit)),
      Tightens ((ofArgs (pool.limitArgs "volume-gb")).reading r) limit ∧
        (r ≠ "default" → r ∈ (ofArgs (pool.limitArgs "volume-gb")).compute) := by
    intro hm hne hv hb
    have hl : (pool.limitArgs "volume-gb").lookup r = some (some limit) := by
      rw [lookup_limitArgs, hm, hb]
      simp [hv]
    refine ⟨?_, fun hne => mem_ofArgs.mpr (Or.inr ⟨hne, ?_⟩)⟩
    · rw [reading_ofArgs _ hne, Dict.get, hl]
      exact fun _ h => h
    · rw [← AList.lookup_isSome, hl]
      rfl
  cases hm : pool.maxResources.lookup r with
  | some limit' => exact overridden hm
  | none =>
      cases h with
      | cores h =>
          refine argument hm (by decide) (by decide) ?_
          rw [lookup_baseArgs_ne (by decide), ← h]
          rfl
      | instances =>
          refine argument hm (by decide) (by decide) ?_
          rw [lookup_baseArgs_ne (by decide)]
          rfl
      | ram h =>
          refine argument hm (by decide) (by decide) ?_
          rw [lookup_baseArgs_ne (by decide), ← h]
          rfl
      | volumes h =>
          have hset : Number.truthy pool.maxVolumes = true := by
            rw [h]
            by_cases hz : limit = 0
            · subst hz
              exact absurd (AList.lookup_isSome.mpr (cond.volumes h)) (by simp [hm])
            · simpa [Number.truthy] using hz
          exact argument hm (by decide) (by decide)
            (by rw [baseArgs, if_pos hset, AList.lookup_insert, h])
      | resource h => rw [hm] at h; cases h

end ProviderPool

namespace PoolWorld

variable {handler : QuotaHandler} {w w' : PoolWorld}

/-- A node with the label keeps the limits of the pool next to the nodes that it has. -/
def FitsLabel (handler : QuotaHandler) (label : String) (w : PoolWorld) : Prop :=
  label ∈ handler.pool.labels ∧ ∀ {resource limit}, handler.pool.Limit resource limit →
    (limit - .int (w.use handler resource +
      (handler.manager.labelQuota handler.pool label).1.amount resource)).isNeg = false

theorem FitsLabel.fits {label : String} (h : FitsLabel handler label w) {node : Node}
    (hg : handler.Granted label node) : w.Fits handler node := by
  intro r limit hl
  rw [QuotaHandler.useOf_of_granted hg]
  exact h.2 hl

theorem FitsLabel.later {label : String} (h : FitsLabel handler label w)
    (hc : w.Consistent handler) (hl : w.Later handler w') : FitsLabel handler label w' :=
  ⟨h.1, fun hlim => Number.isNeg_sub_int_of_le (add_le_add_left (hl.use_le hc _) _) (h.2 hlim)⟩

/-- What the check of the pool grants fits. -/
theorem fitsLabel_of_poolRemains (cond : handler.pool.LimitsRead) {nodes : List (NodeId × Node)}
    (seen : SeenIn handler nodes w) (valid : ∀ e ∈ nodes, handler.Valid e.2) {label : String}
    (hl : label ∈ handler.pool.labels)
    (h : StateMachineHandler.poolRemains handler (nodes.map (·.2))
      (handler.manager.labelQuota handler.pool label).1 = .ok true) :
    FitsLabel handler label w := by
  obtain ⟨natural, -⟩ := estimatedNodepoolQuotaUsed_of_valid (List.forall_mem_map.mpr valid)
  have needed := (handler.manager.labelQuota handler.pool label).2
  refine ⟨hl, fun {r limit} hlim => ?_⟩
  obtain ⟨q, hq, hn⟩ := Except.bind_eq_ok.mp h
  have remains := Except.ok.inj hn
  obtain rfl : ofArgs (handler.pool.limitArgs "volume-gb") = q := by
    unfold QuotaInformation.call at hq
    split at hq
    · cases hq
    · exact Except.ok.inj hq
  rw [nonNegative_subtract_subtract natural.toFinite needed.toFinite,
    nonNegative_subtract_iff (natural.add needed).toFinite] at remains
  obtain ⟨tightens, listed⟩ := hlim.tightens_reading cond
  have used := use_le_estimatedNodepoolQuotaUsed seen valid r
  refine Number.isNeg_sub_int_of_le (add_le_add_left used _) ?_
  rw [← amount_add natural.toFinite needed.toFinite]
  by_cases hr : r ∈ (QuotaInformation.add (handler.manager.estimatedNodepoolQuotaUsed
      (nodes.map (·.2)) (some handler.pool)) (handler.manager.labelQuota handler.pool
        label).1).compute
  · exact tightens _ (remains r (Or.inl hr))
  · by_cases hd : r = "default"
    · -- a limit of this name is the default, which is not negative, and nothing is used
      have zero : (QuotaInformation.add (handler.manager.estimatedNodepoolQuotaUsed
          (nodes.map (·.2)) (some handler.pool)) (handler.manager.labelQuota handler.pool
            label).1).amount r = 0 := by
        rw [amount, reading, Dict.get_of_notMem hr, (natural.add needed).default]
        rfl
      rw [zero]
      have := hlim.of_default hd
      subst hd
      simpa using cond.default this
    · exact tightens _ (remains r (Or.inr (listed hd)))

end PoolWorld

/-! ### Methods -/

namespace PoolSystem

variable {handler : QuotaHandler} {σ : Type} {s : σ} {w : PoolWorld}

/-- An assertion that every later world keeps. -/
def Lasting (handler : QuotaHandler) (B : PoolWorld → Prop) : Prop :=
  ∀ w w', w.Consistent handler ∧ B w → w.Later handler w' → B w'

theorem Lasting.and {B B' : PoolWorld → Prop} (h : Lasting handler B) (h' : Lasting handler B') :
    Lasting handler fun w => B w ∧ B' w :=
  fun w w' hB hl => ⟨h w w' ⟨hB.1, hB.2.1⟩ hl, h' w w' ⟨hB.1, hB.2.2⟩ hl⟩

theorem stable_free {B : PoolWorld → Prop} (lasting : Lasting handler B) :
    Stable (context handler) Free fun w => w.Consistent handler ∧ B w where
  rely h hl hi := ⟨hi, lasting _ _ h hl⟩
  req hc _ _ := req_of_free hc
  step hc h hi hs hi' := ⟨hi', lasting _ _ h ((next_step hi (req_of_free hc) hs.1).2 hc)⟩

/-- A call that only looks something up. -/
theorem wp_lookup {c : Call} (hc : Quiet c) {B : PoolWorld → Prop} (lasting : Lasting handler B)
    (hi : w.Consistent handler) (hB : B w) {Q : c.Val → σ → PoolWorld → Prop}
    {E : Err → σ → PoolWorld → Prop}
    (ok : ∀ v w', w'.Consistent handler → B w' → w' ∈ w'.next c (.ok v) → Q v s w')
    (error : ∀ e w', w'.Consistent handler → B w' → E e s w') :
    (perform c : Method LauncherSig σ _).wp (context handler) Q E s w := by
  refine Method.wp_call (P := fun w => w.Consistent handler ∧ B w)
    (fun h hl hi => ⟨hi, lasting _ _ h hl⟩) ⟨hi, hB⟩
    (fun _ _ _ => req_of_free (free_of_quiet hc)) ?_ ?_
  · intro v w₁ w₂ h hi hs _
    obtain rfl := next_quiet hc hs.1
    exact ok v w₂ hi h.2 hs.1
  · intro e w₁ w₂ h hi hs _
    obtain rfl := next_quiet hc hs.1
    exact error e w₂ hi h.2

/-! ### The check -/

/-- Every node of the pool has one of the numbers. -/
def Covers (handler : QuotaHandler) (ids : List NodeId) (w : PoolWorld) : Prop :=
  ∀ i node, w.nodes i = some node → handler.InPool node → i ∈ ids

/-- If the pool has the node, it was read under its number. -/
def Found (handler : QuotaHandler) (i : NodeId) (found : List (NodeId × Node)) (w : PoolWorld) :
    Prop :=
  ∀ node, w.nodes i = some node → handler.InPool node →
    ∃ node', (i, node') ∈ found ∧ SameNode node' node

theorem covers_lasting (ids : List NodeId) : Lasting handler (Covers handler ids) := by
  intro w w' h hl i node hi hp
  obtain ⟨node₀, hi₀, same⟩ := hl.pool hi hp
  exact h.2 i node₀ hi₀ (same.inPool.mp hp)

theorem found_lasting (i : NodeId) (found : List (NodeId × Node)) :
    Lasting handler (Found handler i found) := by
  intro w w' h hl node hi hp
  obtain ⟨node₀, hi₀, same⟩ := hl.pool hi hp
  obtain ⟨node', hmem, same'⟩ := h.2 node₀ hi₀ (same.inPool.mp hp)
  exact ⟨node', hmem, same'.trans same⟩

/-- One round of `nodeIterator`. -/
def readNode (i : NodeId) : LauncherM σ (List (NodeId × Node)) := do
  let node ← call (.getNode i)
  pure (node.toList.map fun node => (i, node))

theorem readNode_free {γ : Type} {π : σ → γ} (i : NodeId) :
    Within Free π (readNode i : LauncherM σ _) :=
  .bind (.perform (by trivial)) fun _ => .pure

theorem readNode_wp (i : NodeId) (hi : w.Consistent handler) :
    (readNode i : LauncherM σ _).wp (context handler)
      (fun found _ w' => w'.Consistent handler ∧ Found handler i found w' ∧
        ∀ e ∈ found, handler.Valid e.2) (fun _ _ _ => True) s w := by
  refine wp_bind.mpr (wp_lookup (B := fun _ => True) (by trivial) (fun _ _ _ _ => trivial) hi
    trivial
    ?_ fun _ _ _ _ => trivial)
  intro node w₁ hi₁ _ hn
  obtain ⟨rfl, -⟩ := of_mem_ite hn
  refine ⟨hi₁, fun node hn _ => ⟨node, by simp [hn], .refl _⟩, fun e he => ?_⟩
  obtain ⟨node, hn, rfl⟩ := List.mem_map.mp he
  exact hi₁.valid (Option.mem_toList.mp hn)

/-- The read of the node cache sees each node that the pool has in the end. -/
theorem nodeIterator_seen {B : PoolWorld → Prop} (lasting : Lasting handler B)
    (hi : w.Consistent handler) (hB : B w) :
    (ZooKeeper.nodeIterator : LauncherM σ _).wp (context handler)
      (fun nodes s' w' => (s' = s ∧ w'.Consistent handler ∧ B w') ∧
        SeenIn handler nodes w' ∧ ∀ e ∈ nodes, handler.Valid e.2)
      (fun _ s' w' => s' = s ∧ w'.Consistent handler ∧ B w') s w := by
  refine wp_bind.mpr (wp_lookup (by trivial) lasting hi hB ?_ fun _ _ hi hB => ⟨rfl, hi, hB⟩)
  intro ids w₁ hi₁ hB₁ hn
  have covers : Covers handler ids w₁ := by
    obtain ⟨e, -⟩ := of_mem_ite hn
    intro i node hi _
    rw [e, List.mem_filter]
    exact ⟨List.mem_range.mpr (hi₁.lt hi), by simp [hi]⟩
  have frame := (Within.gather (fun i => readNode_free (π := fun s : σ => s) i) ids).wp
    (stable_free lasting) (s := s) ⟨hi₁, hB₁⟩
  have seen : (gather ids readNode : LauncherM σ _).wp (context handler)
      (fun nodes _ w' => Covers handler ids w' ∧
        ∀ i ∈ ids, ∃ found, found ⊆ nodes ∧ Found handler i found w')
      (fun _ _ _ => True) s w₁ := by
    refine wp_mono (Within.wp_gather (fun i => readNode_free (π := fun s : σ => s) i)
      (stable_free (covers_lasting ids)) (fun i found => stable_free (found_lasting i found))
      (fun i _ s w h => wp_mono (readNode_wp i h.1) (fun _ _ _ h => ⟨h.1, h.2.1⟩) fun _ _ _ h => h)
      ⟨hi₁, covers⟩) (fun nodes s' w' h => ⟨h.1.2, fun i hi => ?_⟩) fun _ _ _ h => h
    obtain ⟨found, sub, -, h⟩ := h.2 i hi
    exact ⟨found, sub, h⟩
  have valid : (gather ids readNode : LauncherM σ _).wp (context handler)
      (fun nodes _ w' => w'.Consistent handler ∧ ∀ e ∈ nodes, handler.Valid e.2)
      (fun _ _ _ => True) s w₁ :=
    wp_gather_forall (J := fun _ w => w.Consistent handler) (fun i _ s w h =>
      wp_mono (readNode_wp i h) (fun _ _ _ h => ⟨h.1, h.2.2⟩) fun _ _ _ _ => trivial) hi₁
  refine wp_mono (wp_and frame (wp_and seen valid)) ?_ fun _ _ _ h => h.1
  rintro nodes s' w' ⟨hs, ⟨covers, found⟩, _, valid⟩
  refine ⟨hs, fun {i node} hi hp => ?_, valid⟩
  obtain ⟨part, sub, hpart⟩ := found i (covers i node hi hp)
  obtain ⟨node', hmem, same⟩ := hpart node hi hp
  exact ⟨node', sub hmem, same⟩

theorem cachedNodes_seen {B : PoolWorld → Prop} (lasting : Lasting handler B)
    (hi : w.Consistent handler) (hB : B w) :
    (StateMachineHandler.cachedNodes : LauncherM σ _).wp (context handler)
      (fun found s' w' => (s' = s ∧ w'.Consistent handler ∧ B w') ∧
        ∃ nodes, found = nodes.map (·.2) ∧ SeenIn handler nodes w' ∧
          ∀ e ∈ nodes, handler.Valid e.2)
      (fun _ s' w' => s' = s ∧ w'.Consistent handler ∧ B w') s w := by
  refine wp_bind.mpr (wp_mono (nodeIterator_seen lasting hi hB) ?_ fun _ _ _ h => h)
  exact fun nodes s' w' h => ⟨h.1, nodes, rfl, h.2⟩

theorem cachedNodes_free {γ : Type} {π : σ → γ} :
    Within Free π (StateMachineHandler.cachedNodes : LauncherM σ _) :=
  .bind (.bind (.perform (by trivial)) fun ids => .gather readNode_free ids) fun _ => .pure

theorem wp_ofExcept {Γ : Context LauncherSig PoolWorld} {α : Type} {e : Except QuotaError α}
    {Q : α → σ → PoolWorld → Prop} {E : Err → σ → PoolWorld → Prop}
    (ok : ∀ a, e = .ok a → Q a s w) (error : E .other s w) :
    (StateMachineHandler.ofExcept e : LauncherM σ α).wp Γ Q E s w := by
  cases e with
  | ok a => exact ok a rfl
  | error _ => exact error

/-- What `hasRemainingQuota` grants fits. -/
theorem checkRemainingQuota_fits (cond : handler.pool.LimitsRead) (label : String)
    {B : PoolWorld → Prop} (lasting : Lasting handler B) (hi : w.Consistent handler) (hB : B w) :
    (StateMachineHandler.checkRemainingQuota handler label : LauncherM σ _).wp (context handler)
      (fun b s' w' => (s' = s ∧ w'.Consistent handler ∧ B w') ∧
        (b = true → FitsLabel handler label w'))
      (fun _ s' w' => s' = s ∧ w'.Consistent handler ∧ B w') s w := by
  refine wp_bind.mpr (wp_ofExcept ?_ ⟨rfl, hi, hB⟩)
  intro needed hn
  obtain ⟨hl, rfl⟩ : label ∈ handler.pool.labels ∧
      (handler.manager.labelQuota handler.pool label).1 = needed := by
    unfold QuotaSupport.quotaNeededByLabel at hn
    split at hn
    · rename_i hl
      exact ⟨hl, Except.ok.inj hn⟩
    · cases hn
  have cloud : Within Free (fun s : σ => s) (StateMachineHandler.hasCloudQuota handler
      (handler.manager.labelQuota handler.pool label).1 : LauncherM σ _) :=
    .ite .pure (.bind (.perform (by trivial)) fun _ => .bind cachedNodes_free fun _ => .pure)
  refine wp_bind.mpr (wp_mono (cloud.wp (stable_free lasting) ⟨hi, hB⟩) ?_ fun _ _ _ h => h)
  rintro b s₁ w₁ ⟨rfl, hi₁, hB₁⟩
  split
  · refine wp_bind.mpr (wp_mono (cachedNodes_seen lasting hi₁ hB₁) ?_ fun _ _ _ h => h)
    rintro found s₂ w₂ ⟨keep, nodes, rfl, seen, valid⟩
    refine wp_ofExcept (fun b hr => ⟨keep, fun hb => ?_⟩) keep
    subst hb
    exact fitsLabel_of_poolRemains cond seen valid hl hr
  · exact ⟨⟨rfl, hi₁, hB₁⟩, fun h => (nomatch h)⟩

/-! ### Node objects that have a number -/

/-- The objects of `K` and of the node set are those of stored nodes. -/
def Kept (handler : QuotaHandler) (K : NodeRef → Prop) (h : Handler Unit) (w : PoolWorld) : Prop :=
  w.Consistent handler ∧ ∀ o, K o ∨ o ∈ h.nodeset → (w.objects o).id ≠ none

theorem numbered_lasting (K : NodeRef → Prop) :
    Lasting handler fun w => ∀ o, K o → (w.objects o).id ≠ none :=
  fun _ _ h hl o ho => by rw [hl.id]; exact h.2 o ho

abbrev Keeping (handler : QuotaHandler) (K : NodeRef → Prop) {α : Type}
    (m : HandlerM Unit α) : Prop :=
  Keeps (context handler) (Kept handler K) m

variable {K : NodeRef → Prop}

/-- Methods that store no nodes and leave the node set alone. -/
theorem keeping_free {α : Type} {m : HandlerM Unit α} (h : Within Free (fun h => h.nodeset) m) :
    Keeping handler K m := by
  intro s w hk
  have frame := h.wp (stable_free (numbered_lasting fun o => K o ∨ o ∈ s.nodeset)) (s := s) hk
  have key : ∀ (s' : Handler Unit) (w' : PoolWorld), s'.nodeset = s.nodeset ∧
      w'.Consistent handler ∧ (∀ o, K o ∨ o ∈ s.nodeset → (w'.objects o).id ≠ none) →
        Kept handler K s' w' := by
    rintro s' w' ⟨hs, hi, hn⟩
    exact ⟨hi, by rw [hs]; exact hn⟩
  exact wp_mono frame (fun _ => key) fun _ => key

theorem keeping_call {c : Call} (hc : Free c) : Keeping handler K (call c : HandlerM Unit _) :=
  keeping_free (.perform hc)

/-- Assigning to other attributes than the node set. -/
theorem keeping_assign {f : Handler Unit → Handler Unit} (hf : ∀ h, (f h).nodeset = h.nodeset) :
    Keeping handler K (assign f) :=
  keeping_free (.assign hf)

theorem keeping_provider : Keeping handler K NodeRequestHandler.provider :=
  keeping_free NodeRequestHandler.provider_within

theorem keeping_pool : Keeping handler K NodeRequestHandler.pool :=
  keeping_free NodeRequestHandler.pool_within

theorem free_of_locksNode {o : NodeRef} {c : Call} (h : c.locksNode o) : Free c := by
  cases c with
  | assignNode o a =>
      cases a with
      | resources => cases h
      | _ => trivial
  | createNode => cases h
  | _ => trivial

theorem keeping_lockNode (o : NodeRef) : Keeping handler K (ZooKeeper.lockNode o) :=
  keeping_free ((ZooKeeper.lockNode_locksNode o).mono fun _ => free_of_locksNode)

theorem keeping_unlockNode (o : NodeRef) : Keeping handler K (ZooKeeper.unlockNode o) :=
  keeping_free (.bind (.perform (by trivial)) fun _ => .bind (raiseUnless_within _ _) fun _ =>
    .bind (.perform (by trivial)) fun _ => .bind (.perform (by trivial)) fun _ =>
      .perform (by trivial))

theorem keeping_assignState (o : NodeRef) (state : NodeState) :
    Keeping handler K (ZooKeeper.assignState o state) :=
  keeping_free (.bind (.perform (by trivial)) fun _ => .perform (by trivial))

/-- A node object that has a number is stored under it. -/
theorem keeping_storeNode {o : NodeRef} (ho : K o) : Keeping handler K (ZooKeeper.storeNode o) := by
  intro s w hk
  refine wp_bind.mpr (wp_lookup (by trivial)
    (numbered_lasting fun o => K o ∨ o ∈ s.nodeset) hk.1 hk.2 ?_ fun _ _ hi hn => ⟨hi, hn⟩)
  intro object w₁ hi hn hr
  obtain ⟨rfl, -⟩ := of_mem_ite hr
  rw [if_neg (hn o (Or.inl ho))]
  exact keeping_call (by trivial) s w₁ ⟨hi, hn⟩

/-! ### Declining -/

open NodeRequestHandler

theorem keeping_clearNodeAllocation {o : NodeRef} (ho : K o) :
    Keeping handler K (clearNodeAllocation o) :=
  .bind (keeping_call (by trivial)) fun _ =>
    .tryCatch (keeping_storeNode ho) fun _ => keeping_call (by trivial)

theorem keeping_unlockNodeOfSet (clear : Bool) {o : NodeRef} (ho : K o) :
    Keeping handler K (unlockNodeOfSet clear o) :=
  .bind (keeping_call (by trivial)) fun _ => .ite
    (.bind (.ite (keeping_clearNodeAllocation ho) .pure) fun _ =>
      .tryCatch (keeping_unlockNode o) fun _ => keeping_call (by trivial)) .pure

theorem keeping_unlockNodeSet (clear : Bool) : Keeping handler K (unlockNodeSet clear) := by
  intro s w hk
  have loop : Keeping handler (fun o => K o ∨ o ∈ s.nodeset)
      (forEach s.nodeset (unlockNodeOfSet clear)) :=
    .forEach_mem fun o ho => keeping_unlockNodeOfSet clear (Or.inr ho)
  have hk' : Kept handler (fun o => K o ∨ o ∈ s.nodeset) s w :=
    ⟨hk.1, fun o ho => hk.2 o (ho.elim id Or.inr)⟩
  have less : ∀ (s' : Handler Unit) (w' : PoolWorld),
      Kept handler (fun o => K o ∨ o ∈ s.nodeset) s' w' → Kept handler K s' w' :=
    fun s' w' h => ⟨h.1, fun o ho => h.2 o (ho.imp_left Or.inl)⟩
  refine wp_bind.mpr (wp_bind.mpr (wp_mono (loop s w hk') ?_ fun _ => less))
  exact fun _ s' w' h =>
    ⟨h.1, fun o ho => h.2 o (Or.inl (Or.inl (ho.resolve_right List.not_mem_nil)))⟩

theorem keeping_declineLocally : Keeping handler K declineLocally := by
  have added : ∀ h : Handler Unit, h.addDeclinedBy.nodeset = h.nodeset := by
    intro h
    unfold Handler.addDeclinedBy
    split <;> rfl
  exact .bind (keeping_assign added) fun _ => .bind (keeping_call (by trivial)) fun _ =>
    .bind .self fun _ => .ite (keeping_assign fun _ => rfl) (keeping_assign fun _ => rfl)

theorem keeping_storeNodeRequest : Keeping handler K storeNodeRequest :=
  keeping_free (.bind .self fun _ => .bind (ZooKeeper.getNodeRequest_within (by trivial)) fun _ =>
    .ite .throw (.perform (by trivial)))

theorem keeping_unlockNodeRequest : Keeping handler K unlockNodeRequest :=
  keeping_free (.bind .self fun _ => .bind (raiseUnless_within _ _) fun _ =>
    .bind (.perform (by trivial)) fun _ => .bind (.assign fun _ => rfl) fun _ =>
      .assign fun _ => rfl)

theorem keeping_declinedHandlerCleanup : Keeping handler K declinedHandlerCleanup :=
  .bind (keeping_unlockNodeSet true) fun _ => .bind (keeping_assign fun _ => rfl) fun _ =>
    .bind (.tryCatch (.bind keeping_storeNodeRequest fun _ => keeping_unlockNodeRequest)
      fun _ => keeping_call (by trivial)) fun _ => keeping_assign fun _ => rfl

theorem keeping_declineRequest : Keeping handler K declineRequest :=
  .bind keeping_declineLocally fun _ => keeping_declinedHandlerCleanup

/-! ### Ready nodes -/

theorem keeping_useReadyNode (ntype : String) {o : NodeRef} (ho : K o) :
    Keeping handler K (useReadyNode (StateMachineHandler.driver handler) ntype o) := by
  refine .bind (keeping_assign fun _ => rfl) fun _ => .bind .self fun h =>
    .bind (keeping_call (by trivial)) fun _ => .bind (keeping_call (by trivial)) fun _ =>
    .bind (keeping_call (by trivial)) fun _ => .bind (keeping_storeNode ho) fun _ =>
    .bind (keeping_call (by trivial)) fun object =>
      .bind (.assign fun s w hk => ⟨hk.1, ?_⟩) fun _ =>
    keeping_call (by trivial)
  rintro p (hp | hp)
  · exact hk.2 p (Or.inl hp)
  · rcases List.mem_append.mp hp with hp | hp
    · exact hk.2 p (Or.inr hp)
    · exact hk.2 p (Or.inl (List.mem_singleton.mp hp ▸ ho))

theorem keeping_tryReadyNode (ntype : String) {o : NodeRef} (ho : K o) :
    Keeping handler K (tryReadyNode (StateMachineHandler.driver handler) ntype o) := by
  refine .bind keeping_provider fun _ => .bind keeping_pool fun _ =>
    .bind (keeping_call (by trivial)) fun _ => .ite .pure (.ite .pure (.ite .pure ?_))
  refine .bind (keeping_call (by trivial)) fun _ => .ite ?_ .pure
  refine .bind (.attempt (keeping_lockNode o)) fun locked => ?_
  split
  · exact .pure
  · exact .throw
  · refine .bind (keeping_call (by trivial)) fun _ => .ite ?_ (.ite ?_ ?_)
    · exact .bind (keeping_unlockNode o) fun _ => .pure
    · exact .bind (keeping_unlockNode o) fun _ => .pure
    · exact .bind (keeping_useReadyNode ntype ho) fun _ => .pure

theorem keeping_grabReadyNode (ntype : String) {os : List NodeRef} (hos : ∀ o ∈ os, K o) :
    Keeping handler K (grabReadyNode (StateMachineHandler.driver handler) ntype os) := by
  induction os with
  | nil => exact .pure
  | cons o os ih =>
      rw [List.forall_mem_cons] at hos
      exact .bind (keeping_tryReadyNode ntype hos.1) fun _ => .ite .pure (ih hos.2)

/-! ### Deleting an unused node -/

/-- The candidates are among the nodes that were listed. -/
theorem unusedNodes_wp (providerName poolName : String) {os : List NodeRef} (hos : ∀ o ∈ os, K o)
    {s : Handler Unit} {w : PoolWorld} (hk : Kept handler K s w) :
    (ZooKeeper.unusedNodes providerName poolName os : HandlerM Unit _).wp (context handler)
      (fun found s w => Kept handler K s w ∧ ∀ candidates, found = some candidates →
        ∀ p ∈ candidates, K p.2) (fun _ => Kept handler K) s w := by
  induction os generalizing s w with
  | nil =>
      refine ⟨hk, fun candidates h p hp => ?_⟩
      cases h
      exact absurd hp List.not_mem_nil
  | cons o os ih =>
      rw [List.forall_mem_cons] at hos
      refine wp_bind.mpr (wp_mono (keeping_call (by trivial) s w hk) ?_ fun _ _ _ h => h)
      intro object s₁ w₁ hk₁
      refine wp_bind.mpr (wp_mono (keeping_call (by trivial) s₁ w₁ hk₁) ?_ fun _ _ _ h => h)
      intro now s₂ w₂ hk₂
      split
      · split
        · refine wp_bind.mpr (wp_mono (ih hos.2 hk₂) ?_ fun _ _ _ h => h)
          rintro found s₃ w₃ ⟨hk₃, hfound⟩
          refine ⟨hk₃, fun candidates h p hp => ?_⟩
          obtain ⟨rest, rfl, rfl⟩ := Option.map_eq_some_iff.mp h
          rcases List.mem_cons.mp hp with rfl | hp
          · exact hos.1
          · exact hfound rest rfl p hp
        · split
          · exact ⟨hk₂, fun _ h => (nomatch h)⟩
          · exact ih hos.2 hk₂
      · exact ih hos.2 hk₂

theorem keeping_deleteUnusedNode {o : NodeRef} (ho : K o) :
    Keeping handler K (ZooKeeper.deleteUnusedNode o) := by
  refine .bind (.attempt (keeping_lockNode o)) fun locked => ?_
  split
  · exact .pure
  · exact .throw
  · refine .bind (keeping_call (by trivial)) fun _ => .ite ?_ ?_
    · exact .bind (keeping_unlockNode o) fun _ => .pure
    · refine .bind (.attempt (.bind (keeping_assignState o _) fun _ => keeping_storeNode ho)) ?_
      intro stored
      split
      · exact .bind (keeping_unlockNode o) fun _ => .pure
      · exact .bind (keeping_call (by trivial)) fun _ =>
          .bind (keeping_unlockNode o) fun _ => .pure

theorem keeping_deleteFirstUnusedNode {os : List NodeRef} (hos : ∀ o ∈ os, K o) :
    Keeping handler K (ZooKeeper.deleteFirstUnusedNode os) := by
  induction os with
  | nil => exact .pure
  | cons o os ih =>
      rw [List.forall_mem_cons] at hos
      exact .bind (keeping_deleteUnusedNode hos.1) fun _ => .ite .pure (ih hos.2)

theorem keeping_deleteOldestUnusedNode (cached : ∀ i, K (.cached i))
    (providerName poolName : String) :
    Keeping handler K (ZooKeeper.deleteOldestUnusedNode providerName poolName) := by
  intro s w hk
  refine wp_bind.mpr (wp_lookup (by trivial)
    (numbered_lasting fun o => K o ∨ o ∈ s.nodeset) hk.1 hk.2 ?_ fun _ _ hi hn => ⟨hi, hn⟩)
  intro os w₁ hi hn hr
  have listed : ∀ o ∈ os, K o := by
    obtain ⟨h, -⟩ := of_mem_ite hr
    intro o ho
    cases o with
    | own n => exact absurd (List.all_eq_true.mp h _ ho) (by simp [isCached])
    | cached i => exact cached i
  refine wp_bind.mpr (wp_mono (unusedNodes_wp providerName poolName listed ⟨hi, hn⟩) ?_
    fun _ _ _ h => h)
  rintro found s₂ w₂ ⟨hk₂, hfound⟩
  split
  · exact hk₂
  · rename_i candidates
    refine keeping_deleteFirstUnusedNode (fun o ho => ?_) s₂ w₂ hk₂
    obtain ⟨p, hp, rfl⟩ := List.mem_map.mp ho
    exact hfound candidates rfl p ((List.perm_insertionSort _ _).mem_iff.mp hp)

/-! ### Launching a new node -/

theorem fitsLabel_lasting (label : String) : Lasting handler (FitsLabel handler label) :=
  fun _ _ h hl => FitsLabel.later h.2 h.1 hl

/-- The object of a new node that is not stored yet. -/
structure Unstored (handler : QuotaHandler) (n : Nat) (node : Node) (w : PoolWorld) : Prop where
  made : n < w.nextObject
  id : (w.objects (.own n)).id = none
  same : SameNode node (w.objects (.own n)).node
  valid : handler.Valid (w.objects (.own n)).node

theorem unstored_lasting (n : Nat) (node : Node) : Lasting handler (Unstored handler n node) := by
  rintro w w' ⟨_, h⟩ hl
  obtain ⟨same, valid⟩ := hl.own h.made
  exact ⟨lt_of_lt_of_le h.made hl.nextObject, (hl.id _).trans h.id, h.same.trans same,
    valid h.valid⟩

theorem newNode_valid {label : String} (hl : label ∈ handler.pool.labels) (h : Handler Unit)
    (provider : ProviderConfig) (pool : PoolConfig) (now : Nat) :
    handler.Valid (newNode h provider pool label now) :=
  fun hp => ⟨label, hl, hp.1, hp.2, rfl, Or.inl rfl⟩

/-- The store of a new node that fits is one that the worker may make. -/
theorem req_createNode {label : String} {n : Nat} {node : Node} {w : PoolWorld}
    (fits : FitsLabel handler label w) (new : Unstored handler n node w)
    (type : node.type = [label]) :
    w.Req handler (.createNode (.own n)) := by
  refine ⟨⟨n, new.made, rfl⟩, new.id, new.valid, fun hp => ?_⟩
  obtain ⟨label', -, hg⟩ := new.valid hp
  have : (w.objects (.own n)).node.type = [label] := new.same.type.trans type
  obtain rfl : label = label' := by
    have := hg.type
    rw [‹(w.objects (.own n)).node.type = [label]›] at this
    exact Option.some.inj this
  exact fun {_ _} hl => fits.fits hg hl

theorem createNode_numbered {o : NodeRef} {r : LauncherSig.Reply (.createNode o)} {w w' : PoolWorld}
    (h : w' ∈ w.next (.createNode o) r) :
    (∀ p, (w.objects p).id ≠ none → (w'.objects p).id ≠ none) ∧
      (r.isOk = true → (w'.objects o).id ≠ none) := by
  have added : ∀ p, ((w.addNode (w.objects o).node).objects p).id = (w.objects p).id := by
    intro p
    by_cases hp : p = .cached w.nextNode
    · subst hp
      simp
    · simp [Function.update_of_ne hp]
  cases r with
  | error e =>
      refine ⟨fun p hp => ?_, fun h => (nomatch h)⟩
      rcases List.mem_cons.mp h with rfl | h
      · exact hp
      · obtain rfl := List.mem_singleton.mp h
        rwa [added]
  | ok v =>
      obtain rfl := List.mem_singleton.mp h
      refine ⟨fun p hp => ?_, fun _ => by simp⟩
      by_cases hpo : p = o
      · subst hpo
        simp
      · rw [setObject_objects, Function.update_of_ne hpo, added]
        exact hp

variable {s : Handler Unit} {w : PoolWorld}

/-- A node that fits is stored, and has a number then. -/
theorem storeNewNode_wp {label : String} {n : Nat} {node : Node} (hk : Kept handler K s w)
    (fits : FitsLabel handler label w) (new : Unstored handler n node w)
    (type : node.type = [label]) :
    (ZooKeeper.storeNode (.own n)).wp (context handler)
      (fun _ => Kept handler fun o => K o ∨ o = .own n) (fun _ => Kept handler K) s w := by
  have lasting : Lasting handler _ := (numbered_lasting fun o => K o ∨ o ∈ s.nodeset).and
    ((fitsLabel_lasting label).and (unstored_lasting n node))
  refine wp_bind.mpr (wp_lookup (by trivial) lasting hk.1 ⟨hk.2, fits, new⟩ ?_
    fun _ _ hi h => ⟨hi, h.1⟩)
  rintro object w₁ hi₁ ⟨hn₁, fits₁, new₁⟩ hr
  obtain ⟨rfl, -⟩ := of_mem_ite hr
  rw [if_pos new₁.id]
  refine wp_call (P := fun w => w.Consistent handler ∧ _) (fun h hl hi => ⟨hi, lasting _ _ h hl⟩)
    ⟨hi₁, hn₁, fits₁, new₁⟩ (fun w h _ => req_createNode h.2.2.1 h.2.2.2 type) ?_ ?_
  · rintro v w₂ w₃ h - hs hi₃
    have mem : w₃ ∈ w₂.next (.createNode (.own n)) (.ok v) := hs.1
    obtain ⟨kept, new⟩ := createNode_numbered mem
    refine ⟨hi₃, fun o ho => ?_⟩
    rcases ho with (ho | rfl) | ho
    · exact kept o (h.2.1 o (Or.inl ho))
    · exact new rfl
    · exact kept o (h.2.1 o (Or.inr ho))
  · rintro e w₂ w₃ h - hs hi₃
    have mem : w₃ ∈ w₂.next (.createNode (.own n)) (.error e) := hs.1
    exact ⟨hi₃, fun o ho => (createNode_numbered mem).1 o (h.2.1 o ho)⟩

theorem Kept.mono {K' : NodeRef → Prop} (sub : ∀ o, K o → K' o) (h : Kept handler K' s w) :
    Kept handler K s w :=
  ⟨h.1, fun o ho => h.2 o (ho.imp_left (sub o))⟩

/-- The part of `launchNewNode` that follows when the node is stored. -/
theorem keeping_launchStored (label : String) {o : NodeRef} (ho : K o) :
    Keeping handler K (do
      ZooKeeper.lockNode o
      ZooKeeper.assignState o .building
      ZooKeeper.storeNode o
      let object ← call (.readNode o)
      assign (·.addNode o label object.id)
      (StateMachineHandler.driver handler).launch o) := by
  refine .bind (keeping_lockNode o) fun _ => .bind (keeping_assignState o _) fun _ =>
    .bind (keeping_storeNode ho) fun _ => .bind (keeping_call (by trivial)) fun _ =>
    .bind (.assign fun s w hk => ⟨hk.1, ?_⟩) fun _ => keeping_call (by trivial)
  rintro p (hp | hp)
  · exact hk.2 p (Or.inl hp)
  · rcases List.mem_append.mp hp with hp | hp
    · exact hk.2 p (Or.inr hp)
    · exact hk.2 p (Or.inl (List.mem_singleton.mp hp ▸ ho))

/-- Up to the store of the node, the handler only reads and names it. -/
theorem launchNewNode_wp {label : String} (hk : Kept handler K s w)
    (fits : FitsLabel handler label w) :
    (launchNewNode (StateMachineHandler.driver handler) label).wp (context handler)
      (fun _ => Kept handler K) (fun _ => Kept handler K) s w := by
  have hl := fits.1
  have lasting : Lasting handler _ := (numbered_lasting fun o => K o ∨ o ∈ s.nodeset).and
    (fitsLabel_lasting label)
  have look : ∀ {α : Type} {m : HandlerM Unit α} (h : Within Free (fun h => h.nodeset) m)
      {s' : Handler Unit} {w' : PoolWorld}, s'.nodeset = s.nodeset → w'.Consistent handler ∧
        (∀ o, K o ∨ o ∈ s.nodeset → (w'.objects o).id ≠ none) ∧ FitsLabel handler label w' →
      ∀ {Q : α → Handler Unit → PoolWorld → Prop}, (∀ a s'' w'', s''.nodeset = s.nodeset →
        w''.Consistent handler ∧ (∀ o, K o ∨ o ∈ s.nodeset → (w''.objects o).id ≠ none) ∧
          FitsLabel handler label w'' → Q a s'' w'') →
      m.wp (context handler) Q (fun _ => Kept handler K) s' w' := by
    intro α m h s' w' hs hB Q hQ
    refine wp_mono (h.wp (stable_free lasting) hB)
      (fun a s'' w'' h => hQ a s'' w'' (h.1.trans hs) h.2)
      fun e s'' w'' h => ⟨h.2.1, ?_⟩
    rw [h.1, hs]
    exact h.2.2.1
  refine wp_bind.mpr (wp_assign.mpr (wp_bind.mpr (look provider_within (by rfl)
    ⟨hk.1, hk.2, fits⟩ ?_)))
  intro provider s₂ w₂ hs₂ h₂
  refine wp_bind.mpr (look pool_within hs₂ h₂ ?_)
  intro pool s₃ w₃ hs₃ h₃
  refine wp_bind.mpr (look (.perform (by trivial)) hs₃ h₃ ?_)
  intro now s₄ w₄ hs₄ h₄
  refine wp_bind.mpr (wp_self.mpr (wp_bind.mpr ?_))
  refine wp_call (P := fun w => w.Consistent handler ∧ _) (fun h hl hi => ⟨hi, lasting _ _ h hl⟩)
    h₄ (fun _ _ _ => trivial) ?_ ?_
  · intro o w₅ w₆ h₅ hi₅ hs hi₆
    have mem : w₆ ∈ w₅.next (.newNode (newNode s₄ provider pool label now)) (.ok o) := hs.1
    obtain ⟨hn₆, fits₆⟩ := lasting _ _ h₅ ((next_step
      (c := .newNode (newNode s₄ provider pool label now)) hi₅ trivial mem).2 trivial)
    obtain ⟨n, rfl, new⟩ : ∃ n, o = .own n ∧
        Unstored handler n (newNode s₄ provider pool label now) w₆ := by
      rcases o with n | i
      · obtain ⟨rfl, rfl⟩ := of_mem_ite mem
        refine ⟨_, rfl, Nat.lt_succ_self _, ?_, ?_, ?_⟩
        · simp
        · simpa using SameNode.refl _
        · simpa using newNode_valid hl s₄ provider pool now
      · cases mem
    have lasting' := lasting.and (unstored_lasting n (newNode s₄ provider pool label now))
    refine wp_bind.mpr (wp_lookup (by trivial) lasting' hi₆ ⟨⟨hn₆, fits₆⟩, new⟩ ?_
      fun _ _ hi h => ⟨hi, by rw [hs₄]; exact h.1.1⟩)
    rintro _ w₇ hi₇ ⟨⟨hn₇, fits₇⟩, new₇⟩ -
    refine wp_bind.mpr (wp_mono (storeNewNode_wp ⟨hi₇, by rw [hs₄]; exact hn₇⟩ fits₇ new₇ rfl) ?_
      fun _ _ _ h => h)
    intro _ s₈ w₈ h₈
    exact wp_mono (keeping_launchStored label (Or.inr rfl) s₈ w₈ h₈)
      (fun _ _ _ h => h.mono fun _ => Or.inl) fun _ _ _ h => h.mono fun _ => Or.inl
  · intro e w₅ w₆ h₅ hi₅ hs hi₆
    refine ⟨hi₆, ?_⟩
    have mem : w₆ ∈ w₅.next (.newNode (newNode s₄ provider pool label now)) (.error e) := hs.1
    cases mem

/-! ### Running and polling -/

theorem free_of_consults {c : Call} (h : c.consults) : Free c := by
  cases c <;> trivial

theorem driver_within {γ : Type} {π : Handler Unit → γ} :
    (StateMachineHandler.driver handler).Within Free π :=
  { Driver.external_within fun c h => by cases c <;> trivial with
    hasRemainingQuota := fun label => by
      have raised : ∀ {α : Type} {e : Except QuotaError α},
          Within Free π (StateMachineHandler.ofExcept e : HandlerM Unit α) := by
        intro α e
        cases e with
        | ok a => exact .pure
        | error _ => exact .throw
      refine .bind raised fun needed => .bind (.ite .pure ?_) fun _ => .ite ?_ .pure
      · exact .bind (.perform (by trivial)) fun _ => .bind cachedNodes_free fun _ => .pure
      · exact .bind cachedNodes_free fun _ => raised }

section Run

variable (cond : handler.pool.LimitsRead) (cached : ∀ i, K (.cached i))
include cond cached

omit cond in
theorem keeping_atQuota : Keeping handler K atQuota := by
  refine .bind .self fun _ => .ite keeping_declineRequest ?_
  refine .bind keeping_provider fun _ => .bind keeping_pool fun _ =>
    .bind (keeping_deleteOldestUnusedNode cached _ _) fun _ =>
    .bind (keeping_call (by trivial)) fun _ => .ite (keeping_assign fun _ => rfl)
      keeping_declinedHandlerCleanup

theorem keeping_fillNodeSet {readyNodes : Dict String (List NodeRef)} (types : List String)
    (ready : ∀ t ∈ types, ∀ o ∈ readyNodes.get t [], K o) :
    Keeping handler K (fillNodeSet (StateMachineHandler.driver handler) readyNodes types) := by
  induction types with
  | nil => exact .pure
  | cons t types ih =>
      rw [List.forall_mem_cons] at ready
      have rest := ih ready.2
      refine .bind .self fun h => .bind (keeping_grabReadyNode t ?_) fun got => .ite rest ?_
      · split
        · exact ready.1
        · exact fun o ho => absurd ho List.not_mem_nil
      · intro s w hk
        refine wp_bind.mpr (wp_mono (checkRemainingQuota_fits cond t
          (numbered_lasting fun o => K o ∨ o ∈ s.nodeset) hk.1 hk.2) ?_ ?_)
        · rintro remaining s₁ w₁ ⟨⟨rfl, hk₁⟩, fits⟩
          split
          · exact wp_bind.mpr (wp_mono (launchNewNode_wp hk₁ (fits ‹_›)) (fun _ => rest)
              fun _ _ _ h => h)
          · exact keeping_atQuota cached s₁ w₁ hk₁
        · rintro e s₁ w₁ ⟨rfl, hk₁⟩
          exact hk₁

theorem keeping_waitForNodeSet :
    Keeping handler K (waitForNodeSet (StateMachineHandler.driver handler)) := by
  refine .bind .self fun h => .ite ?_ (keeping_fillNodeSet cond cached _ ?_)
  · intro s w hk
    refine wp_bind.mpr (wp_lookup (by trivial)
      (numbered_lasting fun o => K o ∨ o ∈ s.nodeset) hk.1 hk.2 ?_ fun _ _ hi hn => ⟨hi, hn⟩)
    intro readyNodes w₁ hi hn hr
    refine keeping_fillNodeSet cond cached _ (fun t ht o ho => ?_) s w₁ ⟨hi, hn⟩
    obtain ⟨all, -⟩ := of_mem_ite hr
    have := List.all_eq_true.mp (List.all_eq_true.mp all t ht) o ho
    cases o with
    | own n => exact absurd this (by simp [isCached])
    | cached i => exact cached i
  · intro t _ o ho
    exact absurd ho List.not_mem_nil

theorem keeping_run : Keeping handler K (run (StateMachineHandler.driver handler)) := by
  refine .tryCatch (.bind (keeping_free ?_) fun _ => .bind keeping_provider fun _ =>
    .bind keeping_pool fun _ => .bind (keeping_free ?_) fun reasons =>
    .ite keeping_declineRequest ?_) fun _ =>
      .bind (keeping_call (by trivial)) fun _ => keeping_declineRequest
  · exact (setFromPoolWorker_within fun _ => free_of_consults).map (·.nodeset)
  · exact (getDeclinedReasons_within (fun _ => free_of_consults) driver_within).map (·.nodeset)
  · refine .bind .self fun _ => .bind (.ite ?_ .pure) fun _ => keeping_waitForNodeSet cond cached
    exact .bind (keeping_assign fun _ => rfl) fun _ => keeping_storeNodeRequest

end Run

theorem keeping_classifyNode (o : NodeRef) : Keeping handler K (classifyNode o) := by
  refine .bind (keeping_call (by trivial)) fun _ => .ite ?_ (.ite ?_ ?_)
  · exact .bind (keeping_assign fun _ => rfl) fun _ => .pure
  · refine .bind (.assign fun s w hk => ⟨hk.1, fun p hp => ?_⟩) fun _ =>
      .bind (keeping_unlockNode o) fun _ => .pure
    exact hk.2 p (hp.imp_right List.mem_of_mem_erase)
  · exact .bind (keeping_assign fun _ => rfl) fun _ => .pure

theorem keeping_classifyNodes (os : List NodeRef) : Keeping handler K (classifyNodes os) := by
  induction os with
  | nil => exact .pure
  | cons o os ih => exact .bind (keeping_classifyNode o) fun _ => .bind ih fun _ => .pure

theorem keeping_requestDisappeared : Keeping handler K requestDisappeared :=
  .bind (keeping_unlockNodeSet true) fun _ =>
    .tryCatch keeping_unlockNodeRequest fun _ => .ite .pure .throw

theorem keeping_finishPoll : Keeping handler K finishPoll :=
  .bind (keeping_unlockNodeSet false) fun _ => .bind keeping_storeNodeRequest fun _ =>
    .bind keeping_unlockNodeRequest fun _ => .pure

theorem keeping_assignNodeToType (ntype : String) : Keeping handler K (assignNodeToType ntype) := by
  refine .bind .self fun h => ?_
  split
  · exact .throw
  · exact keeping_assign fun _ => rfl

theorem keeping_poll : Keeping handler K (poll (StateMachineHandler.driver handler)) := by
  refine .bind .self fun _ => .ite .pure (.ite .pure (.bind (keeping_call (by trivial)) fun _ =>
    .ite ?_ .pure))
  refine .bind .self fun _ => .bind (keeping_classifyNodes _) fun aborted =>
    .bind (keeping_free (ZooKeeper.getNodeRequest_within (by trivial))) fun _ => .ite ?_ ?_
  · exact .bind keeping_requestDisappeared fun _ => .pure
  · refine .bind .self fun _ => .ite (.bind keeping_declineLocally fun _ => keeping_finishPoll) ?_
    refine .ite (.bind (.forEach (fun o => ?_) _) fun _ =>
      .bind (keeping_assign fun _ => rfl) fun _ => .pure) ?_
    · exact .bind (keeping_call (by trivial)) fun _ => keeping_assign fun _ => rfl
    · exact .bind (.bind .self fun _ => .bind (.forEach keeping_assignNodeToType _) fun _ =>
        keeping_assign fun _ => rfl) fun _ => keeping_finishPoll

/-! ### Runs -/

/-- The node sets of all handlers consist of objects of stored nodes. -/
def Numbered (handlers : Nat → Handler Unit) (w : PoolWorld) : Prop :=
  ∀ i, ∀ o ∈ (handlers i).nodeset, (w.objects o).id ≠ none

/-- The objects of the node cache and of the node sets. -/
def Held (handlers : Nat → Handler Unit) (o : NodeRef) : Prop :=
  (∃ i, o = .cached i) ∨ ∃ j, o ∈ (handlers j).nodeset

theorem kept_of_numbered {handlers : Nat → Handler Unit} {w : PoolWorld}
    (hi : w.Consistent handler) (h : Numbered handlers w) (i : Nat) :
    Kept handler (Held handlers) (handlers i) w := by
  refine ⟨hi, fun o ho => ?_⟩
  rcases ho with (⟨j, rfl⟩ | ⟨j, hj⟩) | hj
  · rw [hi.cached_id]
    exact Option.some_ne_none j
  · exact h j o hj
  · exact h i o hj

/-- Methods of one handler keep the node sets of the others. -/
theorem onHandler_wp {α : Type} {m : HandlerM Unit α} {handlers : Nat → Handler Unit}
    {w : PoolWorld} (hm : Keeping handler (Held handlers) m) (hi : w.Consistent handler)
    (h : Numbered handlers w) (i : Nat) :
    (WorkerOp.onHandler m i handlers).wp (context handler) Numbered w := by
  unfold WorkerOp.onHandler
  rw [Prog.wp_bind]
  refine Prog.wp_mono (hm (handlers i) w (kept_of_numbered hi h i)) ?_
  have key : ∀ (s : Handler Unit) (w : PoolWorld), Kept handler (Held handlers) s w →
      Numbered (Function.update handlers i s) w := by
    intro s w hk j o ho
    by_cases hji : j = i
    · subst hji
      rw [Function.update_self] at ho
      exact hk.2 o (Or.inr ho)
    · rw [Function.update_of_ne hji] at ho
      exact hk.2 o (Or.inl (Or.inr ⟨j, ho⟩))
  rintro ⟨_ | _, s⟩ w hk
  · exact key s w hk
  · exact key s w hk

def outline (cond : handler.pool.LimitsRead) :
    Outline (poolSystem handler) (System.always (poolSystem handler)) where
  inv := Consistent handler
  rely _ := Later handler
  req _ := Req handler
  linv _ := Numbered
  rely_refl _ := Later.refl
  rely_trans _ := Later.trans
  linv_stable _ _ _ _ h hl _ i o ho := by
    rw [hl.id]
    exact h i o ho
  entry _ op handlers w _ _ hi h := by
    have cached : ∀ i, Held handlers (.cached i) := fun i => Or.inl ⟨i, rfl⟩
    cases op with
    | accept i launcherId request =>
        intro j o ho
        by_cases hji : j = i
        · subst hji
          rw [Function.update_self] at ho
          exact absurd ho List.not_mem_nil
        · rw [Function.update_of_ne hji] at ho
          exact h j o ho
    | run i => exact onHandler_wp (keeping_run cond cached) hi h i
    | declineRequest i => exact onHandler_wp keeping_declineRequest hi h i
    | poll i => exact onHandler_wp keeping_poll hi h i
  call_inv _ _ _ _ _ hi hreq _ hn := (next_step hi hreq hn).1
  call_rely i j _ _ _ _ hij := absurd (Subsingleton.elim i j) hij
  env_inv hi henv := (henv.step hi).1
  env_rely _ _ _ hi henv := (henv.step hi).2

/-- The store of a node adds at most what the node uses. -/
theorem use_createNode_le {w w' : PoolWorld} {o : NodeRef}
    {r : LauncherSig.Reply (.createNode o)} (h : w' ∈ w.next (.createNode o) r)
    (resource : String) :
    w'.use handler resource ≤
      w.use handler resource + handler.useOf (some (w.objects o).node) resource := by
  have added : (w.addNode (w.objects o).node).use handler resource =
      w.use handler resource + handler.useOf (some (w.objects o).node) resource :=
    use_addNode _ resource
  cases r with
  | error e =>
      rcases List.mem_cons.mp h with rfl | h
      · exact le_add_of_nonneg_right (QuotaHandler.useOf_nonneg _ resource)
      · obtain rfl := List.mem_singleton.mp h
        exact added.le
  | ok v =>
      obtain rfl := List.mem_singleton.mp h
      exact added.le

/-- **Pool limits.** Whenever the worker stores a new node of the pool, the nodes of
the pool with this one are within each limit that the pool is configured with, if
the check reads these limits. -/
theorem use_le_limit (cond : handler.pool.LimitsRead) {init cfg cfg' : Config (poolSystem handler)}
    (hinit : Initial handler init)
    (run : (poolSystem handler).Run (System.always (poolSystem handler)) init cfg) {o : NodeRef}
    {r : LauncherSig.Reply (.createNode o)}
    (step : (poolSystem handler).Step cfg (.call () (.createNode o) r) cfg')
    (inPool : handler.InPool (cfg.world.objects o).node) {resource : String} {limit : Number}
    (hl : handler.pool.Limit resource limit) :
    (limit - .int (cfg'.world.use handler resource)).isNeg = false := by
  obtain ⟨handlers, idle, empty⟩ := hinit.idle
  have safe : (outline cond).Safe init := Outline.Safe.of_idle hinit.consistent fun _ =>
    ⟨handlers, idle, fun i o ho => by rw [empty i] at ho; exact absurd ho List.not_mem_nil⟩
  have safe' := (outline cond).sound safe run
  cases step with
  | call _ _ next mem =>
      have hreq := safe'.req next
      exact Number.isNeg_sub_int_of_le (use_createNode_le mem resource)
        (hreq.2.2.2 inPool hl)

/-! ### Examples -/

/-- A handler of a pool with one label, whose nodes need a volume each. -/
def volumesHandler (maxVolumes : Number) : QuotaHandler where
  manager :=
    { (PoolHandler.volumeHandler .inf ∅).manager with
      pools := Dict.ofPairs
        [("main", { PoolHandler.volumePool .inf ∅ with maxVolumes := some maxVolumes })] }
  pool := { PoolHandler.volumePool .inf ∅ with maxVolumes := some maxVolumes }
  configured := rfl

theorem volumesHandler_limitsRead :
    (volumesHandler (.int 1)).pool.LimitsRead where
  volumes h := nomatch h
  overrides _ h := nomatch h
  default h := nomatch h

def volumeRequest : NodeRequest :=
  { HandlerSystem.exampleRequest with nodeTypes := ["volume"] }

/-- The node as the handler makes it. -/
def volumeNode (maxVolumes : Number) : Node :=
  newNode (.init "launcher" volumeRequest ()) ⟨"cloud", ["volume"]⟩
    ⟨"main", ["volume"], maxVolumes, []⟩ "volume" 0

/-- No nodes, and handlers for one request. -/
def volumesInit (maxVolumes : Number) : Config (poolSystem (volumesHandler maxVolumes)) where
  world :=
    { nodes := fun _ => none
      nextNode := 0
      objects := fun o => match o with
        | .own _ => ⟨none, volumeNode maxVolumes, false, false, false⟩
        | .cached i => ⟨some i, volumeNode maxVolumes, false, false, false⟩
      nextObject := 0 }
  thread _ := .pure fun _ => .init "launcher" volumeRequest ()

theorem volumesInit_initial (maxVolumes : Number) :
    Initial (volumesHandler maxVolumes) (volumesInit maxVolumes) where
  consistent :=
    { lt := fun h => nomatch h
      valid := fun h => nomatch h
      cached_id := fun _ => rfl
      own_lt := fun h => nomatch h
      fresh := fun _ => rfl
      same := fun _ h => nomatch h }
  idle := ⟨_, rfl, fun _ => rfl⟩

/-- Answers of calls that succeed, while there are no nodes. -/
def volumesAnswer (maxVolumes : Number) : (c : Call) → LauncherSig.Reply c
  | .getRequest _ => .ok volumeRequest
  | .setRequest _ _ | .setNodeMetadata _ => .ok ()
  | .getProviderConfig => .ok (some ⟨"cloud", ["volume"]⟩)
  | .getPoolConfig => .ok (some ⟨"main", ["volume"], .int 5, []⟩)
  | .errorLabels => .ok []
  | .imagesAvailable => .ok true
  | .hasProviderQuota _ => .ok true
  | .estimatedNodepoolQuota => .ok KubernetesNodeRequestHandler.providerLimits
  | .getNodeIds => .ok []
  | .time => .ok 0
  | .newNode _ => .ok (.own 0)
  | .readNode _ => .ok ⟨none, volumeNode maxVolumes, false, false, false⟩
  | _ => .error .other

/-- The handler runs up to the store of the new node. -/
def volumesSchedule (maxVolumes : Number) :
    List (System.Action (poolSystem (volumesHandler maxVolumes))) :=
  .start () (.run 0) :: List.replicate 14 (.reply () (volumesAnswer maxVolumes) 0)

/-- The store of a node that uses one volume. -/
structure CreatesVolume (maxVolumes : Number)
    (cfg cfg' : Config (poolSystem (volumesHandler maxVolumes))) : Prop where
  run :
    System.exec (fun _ _ => true) (volumesInit maxVolumes) (volumesSchedule maxVolumes) = some cfg
  step : ∃ r, (poolSystem (volumesHandler maxVolumes)).Step cfg
    (.call () (.createNode (.own 0)) r) cfg'
  inPool : (volumesHandler maxVolumes).InPool (cfg.world.objects (.own 0)).node
  use : cfg'.world.use (volumesHandler maxVolumes) "volumes" = 1

theorem volumesSchedule_one : ∃ cfg cfg', CreatesVolume (.int 1) cfg cfg' :=
  ⟨_, _, rfl, ⟨.ok (), .call _ _ rfl List.mem_cons_self⟩, ⟨rfl, rfl⟩, rfl⟩

theorem volumesSchedule_zero : ∃ cfg cfg', CreatesVolume (.int 0) cfg cfg' :=
  ⟨_, _, rfl, ⟨.ok (), .call _ _ rfl List.mem_cons_self⟩, ⟨rfl, rfl⟩, rfl⟩

/-- A pool that allows one volume gets its first node. -/
theorem use_le_limit_volumesSchedule : ∃ cfg cfg', CreatesVolume (.int 1) cfg cfg' ∧
    (Number.int 1 - .int (cfg'.world.use (volumesHandler (.int 1)) "volumes")).isNeg = false := by
  obtain ⟨cfg, cfg', h⟩ := volumesSchedule_one
  obtain ⟨r, step⟩ := h.step
  exact ⟨cfg, cfg', h, use_le_limit volumesHandler_limitsRead (volumesInit_initial _)
    (System.exec_run _ (fun _ _ _ => trivial) h.run) step h.inPool (.volumes rfl)⟩

/-- A pool that allows no volumes gets a node that needs one: the limit `0` is taken
for no limit. -/
theorem not_forall_use_le_limit :
    ¬ ∀ (handler : QuotaHandler) (init cfg cfg' : Config (poolSystem handler)),
      Initial handler init →
      (poolSystem handler).Run (System.always (poolSystem handler)) init cfg →
      ∀ (o : NodeRef) (r : LauncherSig.Reply (.createNode o)),
        (poolSystem handler).Step cfg (.call () (.createNode o) r) cfg' →
        handler.InPool (cfg.world.objects o).node → ∀ resource limit,
          handler.pool.Limit resource limit →
            (limit - .int (cfg'.world.use handler resource)).isNeg = false := by
  intro h
  obtain ⟨cfg, cfg', creates⟩ := volumesSchedule_zero
  obtain ⟨r, step⟩ := creates.step
  have := h _ _ _ _ (volumesInit_initial (.int 0))
    (System.exec_run _ (fun _ _ _ => trivial) creates.run) _ r step creates.inPool _ _
      (.volumes rfl)
  rw [creates.use] at this
  exact absurd this (by decide)

end PoolSystem

end Nodepool
