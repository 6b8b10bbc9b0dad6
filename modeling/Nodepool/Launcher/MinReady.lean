import Nodepool.Launcher.CompletedRequests
import Nodepool.Driver.Handler
import Nodepool.Effect.Lift

/-!
`NodePool.createMinReady`: requests for the nodes that labels keep on standby.

The count of ready nodes comes from the node cache, which shows an earlier state of the
stored nodes. So the requests that are made can be too many by as many nodes as the cache
does not show as ready and free.
-/

namespace Nodepool

open Effect Method
open CompletedRequests (Submitted)

namespace MinReady

inductive Call where
  | completed (c : CompletedRequests.Call)
  /-- the nodes in the node cache -/
  | nodeIterator
  | createNodeRequest (data : NodeRequest)
  | getMostRecentImageUpload (image provider : String)
  | labelReady (provider label : String)

abbrev Call.Val : Call → Type
  | .completed c => c.Val
  | .nodeIterator => List Node
  | .createNodeRequest _ => String
  | .getMostRecentImageUpload _ _ => Bool
  | .labelReady _ _ => Bool

abbrev LauncherStore : Sig where
  Call := Call
  Val := Call.Val
  Err := CompletedRequests.Err

def completedHom : Sig.Hom CompletedRequests.Store LauncherStore where
  call := .completed
  reply _ r := r
  err e := e

abbrev NodePoolM : Type → Type := Method LauncherStore Submitted

abbrev call (c : Call) : NodePoolM c.Val := perform (S := LauncherStore) c

/-! ### Configuration -/

structure LabelInPool where
  name : String
  diskimage : Option String

structure LabelPool where
  provider : String
  manageImages : Bool
  labels : List LabelInPool

structure Label where
  minReady : Int
  pools : List LabelPool

/-! ### The methods -/

/-- A loop that returns at the first element for which the body is true. -/
def firstOf {α : Type} (f : α → NodePoolM Bool) : List α → NodePoolM Bool
  | [] => pure false
  | a :: as => do
      let found ← f a
      if found then pure true else firstOf f as

def poolLabelIsAvailable (provider : String) (label : LabelInPool) : NodePoolM Bool :=
  match label.diskimage with
  | some image => call (.getMostRecentImageUpload image provider)
  | none => call (.labelReady provider label.name)

def labelImageIsAvailable (label : Label) : NodePoolM Bool :=
  firstOf (fun pool =>
    if ¬ pool.manageImages then pure true
    else firstOf (poolLabelIsAvailable pool.provider) pool.labels) label.pools

/-- Add a node under each of the labels it has. -/
def addReadyNode (labels : List String) (ret : Dict String (List Node)) (node : Node) :
    Dict String (List Node) :=
  if node.state ≠ .ready ∨ truthy node.allocatedTo then ret
  else (labels.filter (· ∈ node.type)).foldl
    (fun ret label => AList.insert label (ret.get label [] ++ [node]) ret) ret

def getReadyNodesOfTypes (labels : List String) : NodePoolM (Dict String (List Node)) := do
  let nodes ← call .nodeIterator
  pure (nodes.foldl (addReadyNode labels) ∅)

/-- A request for one node, which forces a new launch. -/
def newRequest (label : String) : NodeRequest where
  id := ""
  state := .requested
  declinedBy := []
  nodeTypes := [label]
  nodes := []
  reuse := false
  requestor := some minReadyRequestor
  provider := none
  relativePriority := 0
  tenantName := none

def createRequest (label : String) : NodePoolM Unit := do
  let id ← call (.createNodeRequest (newRequest label))
  assign fun submitted =>
    submitted.insert label (submitted.get label [] ++ [{ newRequest label with id := id }])

/-- How many nodes of a type have to be created. -/
def nodesNeeded (minReady : Int) (ready : Option (List Node)) : Nat :=
  match ready with
  | none => minReady.toNat
  | some nodes => if nodes.length < minReady then (minReady - nodes.length).toNat else 0

/-- The loop body of `createMinReady`, for one label of the configuration. -/
def createForLabel (neededLabels : List String) (readyNodes : Dict String (List Node))
    (name : String) (label : Label) : NodePoolM Unit :=
  if name ∉ neededLabels then pure ()
  else if label.minReady ≤ 0 then pure ()
  else do
    let need := nodesNeeded label.minReady (readyNodes.lookup name)
    if need = 0 then pure ()
    else do
      let available ← labelImageIsAvailable label
      -- one node at a time, so that the requests can be split up across providers
      if available then forEach (List.replicate need name) createRequest else pure ()

def createMinReady (labels : Dict String Label) : NodePoolM Unit := do
  lift completedHom CompletedRequests.removeCompletedRequests
  let submitted ← self
  let neededLabels := labels.keys.filter (· ∉ submitted.keys)
  let readyNodes ← getReadyNodesOfTypes neededLabels
  forEach labels.entries fun e => createForLabel neededLabels readyNodes e.1 e.2

/-! ### What is stored -/

structure World where
  requests : Dict String NodeRequest
  nodes : Dict NodeId Node
  /-- the nodes as the node cache shows them -/
  cached : List Node
  /-- the requests that have been created, under names that were not in use -/
  created : List NodeRequest
  /-- these names, in order -/
  sequence : Nat → String
  uploaded : String → String → Bool
  labelReady : String → String → Bool

namespace World

def setNode (w : World) (id : NodeId) (node : Node) : World :=
  { w with nodes := w.nodes.mapVals fun id' node' => if id' = id then node else node' }

/-- What the calls return, with nobody else at work. -/
def answer (w : World) : (c : Call) → LauncherStore.Reply c × World
  | .completed (.getNodeRequest id) =>
      (.ok ((w.requests.lookup id).map fun stored => { stored with id := id }), w)
  | .completed (.getNode id) => (.ok (w.nodes.lookup id), w)
  | .completed (.storeNode id node) =>
      if id ∈ w.nodes then (.ok (), w.setNode id node) else (.error .kazoo, w)
  | .completed (.deleteNodeRequest id) => (.ok (), { w with requests := w.requests.erase id })
  | .nodeIterator => (.ok w.cached, w)
  | .createNodeRequest data =>
      (.ok (w.sequence w.created.length), { w with created := w.created ++ [data] })
  | .getMostRecentImageUpload image provider => (.ok (w.uploaded image provider), w)
  | .labelReady provider label => (.ok (w.labelReady provider label), w)

/-- The node is one that `getReadyNodesOfTypes` finds for the label. -/
def Ready (label : String) (node : Node) : Prop :=
  node.state = .ready ∧ ¬ truthy node.allocatedTo ∧ label ∈ node.type

instance (label : String) (node : Node) : Decidable (Ready label node) := by
  unfold Ready
  infer_instance

/-- The READY unallocated nodes of a label that are stored. -/
def ready (w : World) (label : String) : Nat :=
  w.nodes.entries.countP fun e => Ready label e.2

/-- The READY unallocated nodes of a label that the cache shows. -/
def cachedReady (w : World) (label : String) : Nat :=
  w.cached.countP fun node => Ready label node

/-- A request under this name is stored, and it is fulfilled or failed. -/
def Finished (w : World) (id : String) : Prop :=
  ((w.requests.lookup id).any fun stored =>
    stored.state = .fulfilled ∨ stored.state = .failed) = true

instance (w : World) (id : String) : Decidable (w.Finished id) := by
  unfold Finished
  infer_instance

/-- A submitted request as it is stored, if it is still in progress. -/
def unfinished (w : World) (req : NodeRequest) : Option NodeRequest :=
  if w.Finished req.id then none
  else (w.requests.lookup req.id).map fun stored => { stored with id := req.id }

/-- The submitted requests of a label that are still in progress. -/
def unfinishedOf (w : World) (submitted : Submitted) (label : String) : List NodeRequest :=
  (submitted.get label []).filterMap w.unfinished

/-- The nodes of a request, if it is fulfilled. -/
def nodesOf (w : World) (id : String) : List NodeId :=
  match w.requests.lookup id with
  | none => []
  | some stored => if stored.state = .fulfilled then stored.nodes.filterMap (·) else []

end World

/-- None of the nodes of a fulfilled request has been deleted. -/
def Present (w : World) (req : NodeRequest) : Prop :=
  ∀ stored, w.requests.lookup req.id = some stored → stored.state = .fulfilled →
    ∀ n ∈ stored.nodes, ∃ id, n = some id ∧ id ∈ w.nodes

/-- The nodes are as before, except that the allocation of some is cleared. -/
def Freed (w w' : World) (ids : List NodeId) : Prop :=
  ∀ id, w'.nodes.lookup id =
    (w.nodes.lookup id).map fun node => if id ∈ ids then { node with allocatedTo := none } else node

/-- The requests under the given names are deleted, those that are finished, and their
nodes are free. -/
structure Removed (w w' : World) (names : List String) : Prop where
  requests : ∀ id, w'.requests.lookup id =
    if id ∈ names ∧ w.Finished id then none else w.requests.lookup id
  nodes : Freed w w' (names.flatMap w.nodesOf)
  cached : w'.cached = w.cached

variable {w w₁ : World} {s : Submitted}

theorem Freed.congr {ids ids' : List NodeId} (h : Freed w w₁ ids)
    (same : ∀ id, id ∈ ids ↔ id ∈ ids') : Freed w w₁ ids' := by
  intro id
  rw [h id]
  simp only [same]

theorem Freed.setNode {ids : List NodeId} {id : NodeId} {node node₁ : Node} (h : Freed w w₁ ids)
    (hnode : w.nodes.lookup id = some node) (hnode₁ : w₁.nodes.lookup id = some node₁) :
    Freed w (w₁.setNode id { node₁ with allocatedTo := none }) (ids ++ [id]) := by
  intro id'
  have lookup : (w₁.setNode id { node₁ with allocatedTo := none }).nodes.lookup id' =
      (w₁.nodes.lookup id').map fun node' =>
        if id' = id then { node₁ with allocatedTo := none } else node' :=
    Dict.lookup_mapVals _ _ _
  rw [lookup, h id']
  by_cases same : id' = id
  · subst same
    have read := h id'
    rw [hnode, hnode₁, Option.map_some, Option.some.injEq] at read
    rw [hnode, Option.map_some, Option.map_some, Option.map_some, if_pos rfl,
      if_pos (by simp), read]
    split <;> rfl
  · rw [Option.map_map]
    congr 1
    funext node'
    simp [same]

theorem nodesOf_eq_nil {id : String} (h : ¬ w.Finished id) : w.nodesOf id = [] := by
  unfold World.nodesOf
  cases hs : w.requests.lookup id with
  | none => rfl
  | some stored =>
      refine if_neg fun fulfilled => h ?_
      simp [World.Finished, hs, fulfilled]

theorem Removed.init (w : World) : Removed w w [] where
  requests id := by rw [if_neg fun h => List.not_mem_nil h.1]
  nodes id := by simp
  cached := rfl

/-- A name that has been dealt with, or one without a finished request, changes nothing. -/
theorem Removed.skip {names : List String} {id : String} (h : Removed w w₁ names)
    (hid : w.Finished id → id ∈ names) : Removed w w₁ (names ++ [id]) where
  requests id' := by
    rw [h.requests id']
    congr 1
    rw [eq_iff_iff, List.mem_append, List.mem_singleton]
    constructor
    · exact fun h' => ⟨.inl h'.1, h'.2⟩
    · rintro ⟨h' | rfl, hf⟩
      · exact ⟨h', hf⟩
      · exact ⟨hid hf, hf⟩
  nodes := by
    refine h.nodes.congr fun i => ?_
    rw [List.flatMap_append, List.mem_append, List.flatMap_singleton]
    refine ⟨.inl, fun h' => h'.elim (·) fun hi => ?_⟩
    by_cases hf : w.Finished id
    · exact List.mem_flatMap.mpr ⟨id, hid hf, hi⟩
    · rw [nodesOf_eq_nil hf] at hi
      exact absurd hi List.not_mem_nil
  cached := h.cached

theorem Removed.delete {names : List String} {id : String} {w₂ : World} (h : Removed w w₁ names)
    (hid : w.Finished id) (nodes : Freed w w₂ (names.flatMap w.nodesOf ++ w.nodesOf id))
    (requests : w₂.requests = w₁.requests) (cached : w₂.cached = w₁.cached) :
    Removed w { w₂ with requests := w₂.requests.erase id } (names ++ [id]) where
  requests id' := by
    dsimp only
    by_cases same : id' = id
    · subst same
      rw [AList.lookup_erase, if_pos ⟨by simp, hid⟩]
    · rw [AList.lookup_erase_ne same, requests, h.requests id']
      simp [same]
  nodes := by
    rw [List.flatMap_append, List.flatMap_singleton]
    exact nodes
  cached := cached.trans h.cached

theorem Removed.of_same {names : List String} {w₂ : World} (h : Removed w w₁ names)
    (requests : w₂.requests = w₁.requests) (nodes : w₂.nodes = w₁.nodes)
    (cached : w₂.cached = w₁.cached) : Removed w w₂ names where
  requests id := by rw [requests, h.requests id]
  nodes id := by rw [nodes, h.nodes id]
  cached := cached.trans h.cached

/-! ### One call of `removeCompletedRequests` -/

/-- How the removal sees the world. -/
abbrev Γ : Context CompletedRequests.Store World := (answerContext World.answer).comap completedHom

theorem resetAllocatedTo_wp {ids : List NodeId} {id : NodeId} (h : Freed w w₁ ids)
    (stored : id ∈ w.nodes) :
    (CompletedRequests.resetAllocatedTo (some id)).wp Γ
      (fun _ s' w' => s' = s ∧ Freed w w' (ids ++ [id]) ∧ w'.requests = w₁.requests ∧
        w'.cached = w₁.cached) (fun _ _ _ => False) s w₁ := by
  obtain ⟨node, hnode⟩ := Option.isSome_iff_exists.mp (AList.lookup_isSome.mpr stored)
  have found := h id
  rw [hnode, Option.map_some] at found
  rw [CompletedRequests.resetAllocatedTo, wp_bind]
  refine wp_answer_comap ?_
  dsimp only [completedHom, World.answer]
  rw [found]
  refine wp_answer_comap ?_
  dsimp only [completedHom, World.answer]
  rw [if_pos (AList.lookup_isSome.mp (by rw [found]; rfl))]
  exact ⟨rfl, h.setNode hnode found, rfl, rfl⟩

theorem resetNodes_wp (nodes : List (Option NodeId)) {ids : List NodeId} {w₂ : World}
    (h : Freed w w₂ ids) (requests : w₂.requests = w₁.requests) (cached : w₂.cached = w₁.cached)
    (stored : ∀ n ∈ nodes, ∃ id, n = some id ∧ id ∈ w.nodes) :
    (forEach nodes CompletedRequests.resetAllocatedTo).wp Γ
      (fun _ s' w' => s' = s ∧ Freed w w' (ids ++ nodes.filterMap (·)) ∧
        w'.requests = w₁.requests ∧ w'.cached = w₁.cached) (fun _ _ _ => False) s w₂ := by
  induction nodes generalizing ids w₂ with
  | nil => exact ⟨rfl, by simpa using h, requests, cached⟩
  | cons n nodes ih =>
      obtain ⟨id, rfl, hid⟩ := stored n List.mem_cons_self
      rw [forEach, wp_bind]
      refine wp_mono (resetAllocatedTo_wp h hid) ?_ fun _ _ _ h => h
      rintro _ _ w₃ ⟨rfl, h₃, requests₃, cached₃⟩
      refine wp_mono (ih h₃ (requests₃.trans requests) (cached₃.trans cached)
        fun n hn => stored n (List.mem_cons_of_mem _ hn)) ?_ fun _ _ _ h => h
      rintro _ _ w₄ ⟨rfl, h₄, requests₄, cached₄⟩
      refine ⟨rfl, ?_, requests₄, cached₄⟩
      simpa using h₄

theorem removeRequest_wp (req : NodeRequest) {names : List String} (h : Removed w w₁ names)
    (present : Present w req) :
    (CompletedRequests.removeRequest req).wp Γ
      (fun active s' w' => s' = s ∧ active = (w.unfinished req).toList ∧
        Removed w w' (names ++ [req.id])) (fun _ _ _ => False) s w₁ := by
  rw [CompletedRequests.removeRequest, wp_bind]
  refine wp_answer_comap ?_
  dsimp only [completedHom, World.answer]
  rw [h.requests]
  by_cases gone : req.id ∈ names ∧ w.Finished req.id
  · rw [if_pos gone]
    exact ⟨rfl, by simp [World.unfinished, gone.2], h.skip fun _ => gone.1⟩
  rw [if_neg gone]
  cases hs : w.requests.lookup req.id with
  | none =>
      refine ⟨rfl, by simp [World.unfinished, hs], h.skip fun hf => ?_⟩
      simp [World.Finished, hs] at hf
  | some stored =>
      dsimp only [Option.map]
      split
      · rename_i fulfilled
        have hf : w.Finished req.id := by simp [World.Finished, hs, fulfilled]
        rw [wp_bind]
        refine wp_mono (resetNodes_wp stored.nodes h.nodes rfl rfl (present stored hs fulfilled)) ?_
          fun _ _ _ h => h
        rintro _ _ w₂ ⟨rfl, nodes, requests, cached⟩
        rw [wp_bind]
        refine wp_answer_comap ?_
        refine ⟨rfl, by simp [World.unfinished, hf], h.delete hf ?_ requests cached⟩
        simpa [World.nodesOf, hs, fulfilled] using nodes
      · rename_i notFulfilled
        split
        · rename_i failed
          have hf : w.Finished req.id := by simp [World.Finished, hs, failed]
          rw [wp_bind]
          refine wp_answer_comap ?_
          refine ⟨rfl, by simp [World.unfinished, hf], h.delete hf ?_ rfl rfl⟩
          simpa [World.nodesOf, hs, notFulfilled] using h.nodes
        · rename_i notFailed
          have hf : ¬ w.Finished req.id := by
            simp only [World.Finished, hs, Option.any_some, decide_eq_true_eq]
            exact fun h => h.elim notFulfilled notFailed
          exact ⟨rfl, by simp [World.unfinished, hf, hs], h.skip fun h => absurd h hf⟩

theorem removeRequests_wp (reqs : List NodeRequest) {names : List String} (h : Removed w w₁ names)
    (present : ∀ req ∈ reqs, Present w req) :
    (gather reqs CompletedRequests.removeRequest).wp Γ
      (fun active s' w' => s' = s ∧ active = reqs.filterMap w.unfinished ∧
        Removed w w' (names ++ reqs.map (·.id))) (fun _ _ _ => False) s w₁ := by
  induction reqs generalizing names w₁ with
  | nil => exact ⟨rfl, rfl, by simpa using h⟩
  | cons req reqs ih =>
      rw [gather, wp_bind]
      refine wp_mono (removeRequest_wp req h (present req List.mem_cons_self)) ?_ fun _ _ _ h => h
      rintro _ _ w₂ ⟨rfl, rfl, h₂⟩
      rw [wp_bind]
      refine wp_mono (ih h₂ fun req' h' => present req' (List.mem_cons_of_mem _ h')) ?_
        fun _ _ _ h => h
      rintro _ _ w₃ ⟨rfl, rfl, h₃⟩
      refine ⟨rfl, ?_, by simpa using h₃⟩
      cases hu : w.unfinished req <;> simp [hu]

/-- The labels that have been gone through hold the requests in progress, the others hold
what they held. -/
structure Swept (w : World) (submitted : Submitted) (labels : List String) (s : Submitted)
    (w' : World) : Prop where
  done : ∀ label ∈ labels, s.lookup label =
    if w.unfinishedOf submitted label = [] then none else some (w.unfinishedOf submitted label)
  rest : ∀ label, label ∉ labels → s.lookup label = submitted.lookup label
  removed : Removed w w' (labels.flatMap fun label => (submitted.get label []).map (·.id))

theorem removeLabel_wp {submitted : Submitted} {labels : List String} {label : String}
    (h : Swept w submitted labels s w₁) (new : label ∉ labels)
    (present : ∀ req ∈ submitted.get label [], Present w req) :
    (CompletedRequests.removeLabel label).wp Γ
      (fun _ s' w' => Swept w submitted (labels ++ [label]) s' w') (fun _ _ _ => False) s w₁ := by
  have same : s.get label [] = submitted.get label [] := by
    unfold Dict.get
    rw [h.rest label new]
  rw [CompletedRequests.removeLabel, wp_bind, wp_self, wp_bind, same]
  refine wp_mono (removeRequests_wp _ h.removed present) ?_ fun _ _ _ h => h
  rintro _ s₁ w₂ ⟨rfl, rfl, removed⟩
  have others {s' : Submitted} (h' : ∀ label', label' ≠ label → s'.lookup label' = s₁.lookup label')
      (own : s'.lookup label = if w.unfinishedOf submitted label = [] then none
        else some (w.unfinishedOf submitted label)) :
      Swept w submitted (labels ++ [label]) s' w₂ := by
    refine ⟨fun label' hl => ?_, fun label' hl => ?_, by simpa using removed⟩
    · rcases List.mem_append.mp hl with hl | hl
      · rw [h' label' (ne_of_mem_of_not_mem hl new)]
        exact h.done label' hl
      · rw [List.mem_singleton.mp hl]
        exact own
    · rw [List.mem_append, List.mem_singleton, not_or] at hl
      rw [h' label' hl.2]
      exact h.rest label' hl.1
  split
  · rename_i active
    have active : w.unfinishedOf submitted label ≠ [] := active
    refine others (fun label' hne => AList.lookup_insert_ne hne) ?_
    rw [AList.lookup_insert, if_neg active]
    rfl
  · rename_i inactive
    have inactive : w.unfinishedOf submitted label = [] := not_not.mp inactive
    refine others (fun label' hne => AList.lookup_erase_ne hne) ?_
    rw [AList.lookup_erase, if_pos inactive]

theorem removeLabels_wp {submitted : Submitted} (rest : List String) {labels : List String}
    (h : Swept w submitted labels s w₁) (nodup : (labels ++ rest).Nodup)
    (present : ∀ label, ∀ req ∈ submitted.get label [], Present w req) :
    (forEach rest CompletedRequests.removeLabel).wp Γ
      (fun _ s' w' => Swept w submitted (labels ++ rest) s' w') (fun _ _ _ => False) s w₁ := by
  induction rest generalizing labels s w₁ with
  | nil =>
      rw [List.append_nil]
      exact h
  | cons label rest ih =>
      have new : label ∉ labels := fun hl =>
        (List.nodup_append.mp nodup).2.2 label hl label List.mem_cons_self rfl
      rw [forEach, wp_bind]
      refine wp_mono (removeLabel_wp h new (present label)) ?_ fun _ _ _ h => h
      intro _ s₂ w₂ h₂
      have := ih h₂ (by simpa using nodup)
      simpa using this

/-- **Removal.** If no node of a fulfilled request is gone, the finished requests are gone
afterwards, and what is left in `_submittedRequests` are the requests in progress. -/
theorem removeCompletedRequests_wp (submitted : Submitted)
    (present : ∀ label, ∀ req ∈ submitted.get label [], Present w req) :
    CompletedRequests.removeCompletedRequests.wp Γ
      (fun _ s' w' => (∀ label, s'.lookup label = if w.unfinishedOf submitted label = [] then none
          else some (w.unfinishedOf submitted label)) ∧
        Removed w w' (submitted.keys.flatMap fun label => (submitted.get label []).map (·.id)))
      (fun _ _ _ => False) submitted w := by
  rw [CompletedRequests.removeCompletedRequests, wp_bind, wp_self]
  have init : Swept w submitted [] submitted w :=
    ⟨fun _ h => absurd h List.not_mem_nil, fun _ _ => rfl, Removed.init w⟩
  refine wp_mono (removeLabels_wp submitted.keys init (AList.keys_nodup submitted) present) ?_
    fun _ _ _ h => h
  intro _ s' w' h
  refine ⟨fun label => ?_, h.removed⟩
  by_cases hl : label ∈ submitted.keys
  · exact h.done label hl
  · have none_submitted : submitted.lookup label = none :=
      AList.lookup_eq_none.mpr fun hm => hl (AList.mem_keys.mp hm)
    rw [h.rest label hl, none_submitted, if_pos]
    simp [World.unfinishedOf, Dict.get, none_submitted]

/-! ### The nodes that are ready -/

theorem get_addReadyNode {labels : List String} (nodup : labels.Nodup) {label : String}
    (mem : label ∈ labels) (ret : Dict String (List Node)) (node : Node) :
    (addReadyNode labels ret node).get label [] =
      ret.get label [] ++ if World.Ready label node then [node] else [] := by
  have fold : ∀ (labels : List String) (ret : Dict String (List Node)), labels.Nodup →
      Dict.get (labels.foldl (fun (ret : Dict String (List Node)) label =>
        AList.insert label (ret.get label [] ++ [node]) ret) ret) label [] =
          ret.get label [] ++ if label ∈ labels then [node] else [] := by
    intro labels
    induction labels with
    | nil => simp
    | cons first labels ih =>
        intro ret nodup
        rw [List.foldl_cons, ih _ (List.nodup_cons.mp nodup).2]
        by_cases same : label = first
        · subst same
          rw [Dict.get_insert, if_neg (List.nodup_cons.mp nodup).1, List.append_nil,
            if_pos List.mem_cons_self]
        · rw [Dict.get_insert_ne same]
          simp [same]
  unfold addReadyNode
  split
  · rename_i unready
    rw [if_neg, List.append_nil]
    rintro ⟨ready, unallocated, -⟩
    exact unready.elim (fun h => h ready) unallocated
  · rename_i isReady
    rw [not_or, not_not] at isReady
    rw [fold _ _ (nodup.filter _)]
    congr 1
    simp [World.Ready, isReady.1, isReady.2, mem]

theorem get_readyNodes {labels : List String} (nodup : labels.Nodup) {label : String}
    (mem : label ∈ labels) (nodes : List Node) (ret : Dict String (List Node)) :
    ((nodes.foldl (addReadyNode labels) ret).get label []).length =
      (ret.get label []).length + nodes.countP fun node => World.Ready label node := by
  induction nodes generalizing ret with
  | nil => simp
  | cons node nodes ih =>
      rw [List.foldl_cons, ih, get_addReadyNode nodup mem, List.length_append, List.countP_cons]
      by_cases isReady : World.Ready label node
      · simp only [isReady, if_true, List.length_singleton, decide_true]
        omega
      · simp [isReady]

theorem nodesNeeded_eq (minReady : Int) (ready : Dict String (List Node)) (label : String) :
    nodesNeeded minReady (ready.lookup label) =
      (minReady - (ready.get label []).length).toNat := by
  unfold nodesNeeded Dict.get
  cases ready.lookup label with
  | none => simp
  | some nodes =>
      dsimp only [Option.getD]
      split <;> omega

/-! ### One call of `createMinReady` -/

theorem firstOf_wp {α : Type} {f : α → NodePoolM Bool}
    (hf : ∀ a s w, (f a).wp (answerContext World.answer) (fun _ s' w' => s' = s ∧ w' = w)
      (fun _ _ _ => False) s w) (as : List α) :
    (firstOf f as).wp (answerContext World.answer) (fun _ s' w' => s' = s ∧ w' = w)
      (fun _ _ _ => False) s w := by
  induction as with
  | nil => exact ⟨rfl, rfl⟩
  | cons a as ih =>
      rw [firstOf, wp_bind]
      refine wp_mono (hf a s w) ?_ fun _ _ _ h => h
      rintro found _ _ ⟨rfl, rfl⟩
      split
      · exact ⟨rfl, rfl⟩
      · exact ih

theorem labelImageIsAvailable_wp (label : Label) :
    (labelImageIsAvailable label).wp (answerContext World.answer)
      (fun _ s' w' => s' = s ∧ w' = w) (fun _ _ _ => False) s w := by
  refine firstOf_wp (fun pool s w => ?_) label.pools
  split
  · exact ⟨rfl, rfl⟩
  · refine firstOf_wp (fun label s w => ?_) pool.labels
    unfold poolLabelIsAvailable
    split
    · exact wp_answer ⟨rfl, rfl⟩
    · exact wp_answer ⟨rfl, rfl⟩

/-- What the creation of requests leaves alone. -/
structure Beside (label : String) (s : Submitted) (w : World) (s' : Submitted) (w' : World) :
    Prop where
  others : ∀ label', label' ≠ label → s'.get label' [] = s.get label' []
  requests : w'.requests = w.requests
  nodes : w'.nodes = w.nodes
  cached : w'.cached = w.cached

theorem Beside.refl (label : String) (s : Submitted) (w : World) : Beside label s w s w :=
  ⟨fun _ _ => rfl, rfl, rfl, rfl⟩

theorem createRequests_wp (label : String) (need : Nat) :
    (forEach (List.replicate need label) createRequest).wp (answerContext World.answer)
      (fun _ s' w' => Beside label s w s' w' ∧
        (s'.get label []).length = (s.get label []).length + need)
      (fun _ _ _ => False) s w := by
  induction need generalizing s w with
  | zero => exact ⟨.refl label s w, rfl⟩
  | succ need ih =>
      rw [List.replicate_succ, forEach, wp_bind, createRequest, wp_bind]
      refine wp_answer ?_
      dsimp only [World.answer]
      rw [wp_assign]
      refine wp_mono ih ?_ fun _ _ _ h => h
      rintro _ s' w' ⟨beside, count⟩
      refine ⟨⟨fun label' hne => ?_, beside.requests, beside.nodes, beside.cached⟩, ?_⟩
      · rw [beside.others label' hne, Dict.get_insert_ne hne]
      · rw [count, Dict.get_insert, List.length_append, List.length_singleton]
        omega

/-- For one label, either no request is made or as many as are needed. -/
theorem createForLabel_wp (neededLabels : List String) (readyNodes : Dict String (List Node))
    (name : String) (label : Label) :
    (createForLabel neededLabels readyNodes name label).wp (answerContext World.answer)
      (fun _ s' w' => Beside name s w s' w' ∧
        ((s'.get name []).length = (s.get name []).length ∨
          name ∈ neededLabels ∧ 0 < nodesNeeded label.minReady (readyNodes.lookup name) ∧
            (s'.get name []).length =
              (s.get name []).length + nodesNeeded label.minReady (readyNodes.lookup name)))
      (fun _ _ _ => False) s w := by
  have nothing : Beside name s w s w ∧
      ((s.get name []).length = (s.get name []).length ∨
        name ∈ neededLabels ∧ 0 < nodesNeeded label.minReady (readyNodes.lookup name) ∧
          (s.get name []).length =
            (s.get name []).length + nodesNeeded label.minReady (readyNodes.lookup name)) :=
    ⟨.refl name s w, .inl rfl⟩
  unfold createForLabel
  split
  · exact nothing
  rename_i needed
  split
  · exact nothing
  dsimp only
  split
  · exact nothing
  rename_i need
  rw [wp_bind]
  refine wp_mono (labelImageIsAvailable_wp (s := s) (w := w) label) ?_ fun _ _ _ h => h
  rintro available _ _ ⟨rfl, rfl⟩
  split
  · refine wp_mono (createRequests_wp name _) ?_ fun _ _ _ h => h
    exact fun _ _ _ h => ⟨h.1, .inr ⟨not_not.mp needed, Nat.pos_of_ne_zero need, h.2⟩⟩
  · exact nothing

/-- The min-ready number of a label; labels that are not configured have none. -/
def minReadyOf (labels : Dict String Label) (name : String) : Int :=
  (labels.lookup name).elim 0 (·.minReady)

/-- A label has as many requests as before, or it had none and, with the ready nodes that
were found, there are now as many as its min-ready number. -/
def Replenished (labels : Dict String Label) (ready before : String → Nat) (s : Submitted)
    (name : String) : Prop :=
  (s.get name []).length = before name ∨
    before name = 0 ∧ ((s.get name []).length : Int) + ready name = minReadyOf labels name

theorem createForLabels_wp (labels : Dict String Label) {neededLabels : List String}
    {readyNodes : Dict String (List Node)} (ready before : String → Nat) {w₀ : World}
    (vacant : ∀ name ∈ neededLabels, before name = 0)
    (found : ∀ name ∈ neededLabels, (readyNodes.get name []).length = ready name)
    (entries : List ((_ : String) × Label)) (nodup : (entries.map Sigma.fst).Nodup)
    (configured : ∀ e ∈ entries, labels.lookup e.1 = some e.2)
    (rest : ∀ e ∈ entries, (s.get e.1 []).length = before e.1)
    (done : ∀ name, name ∉ entries.map Sigma.fst → Replenished labels ready before s name)
    (requests : w.requests = w₀.requests) (nodes : w.nodes = w₀.nodes)
    (cached : w.cached = w₀.cached) :
    (forEach entries fun e => createForLabel neededLabels readyNodes e.1 e.2).wp
      (answerContext World.answer)
      (fun _ s' w' => (∀ name, Replenished labels ready before s' name) ∧
        w'.requests = w₀.requests ∧ w'.nodes = w₀.nodes ∧ w'.cached = w₀.cached)
      (fun _ _ _ => False) s w := by
  induction entries generalizing s w with
  | nil => exact ⟨fun name => done name List.not_mem_nil, requests, nodes, cached⟩
  | cons e entries ih =>
      obtain ⟨name, label⟩ := e
      rw [List.map_cons, List.nodup_cons] at nodup
      rw [forEach, wp_bind]
      refine wp_mono (createForLabel_wp neededLabels readyNodes name label) ?_ fun _ _ _ h => h
      rintro _ s' w' ⟨beside, count⟩
      refine ih nodup.2 (fun e he => configured e (List.mem_cons_of_mem _ he)) (fun e he => ?_)
        (fun name' hname => ?_) (beside.requests.trans requests) (beside.nodes.trans nodes)
        (beside.cached.trans cached)
      · rw [beside.others e.1 (ne_of_mem_of_not_mem (List.mem_map_of_mem he) nodup.1)]
        exact rest e (List.mem_cons_of_mem _ he)
      · unfold Replenished
        by_cases same : name' = name
        · subst same
          have start := rest ⟨name', label⟩ List.mem_cons_self
          have number : minReadyOf labels name' = label.minReady := by
            unfold minReadyOf
            rw [configured ⟨name', label⟩ List.mem_cons_self]
            rfl
          dsimp only at start
          rw [start] at count
          rcases count with count | ⟨hneeded, positive, count⟩
          · exact .inl count
          · have none_before := vacant name' hneeded
            refine .inr ⟨none_before, ?_⟩
            rw [nodesNeeded_eq, found name' hneeded] at positive count
            rw [number, count]
            omega
        · rw [beside.others name' same]
          exact done name' (by simp [same, hname])

/-- The names of all submitted requests. -/
def namesOf (submitted : Submitted) : List String :=
  submitted.keys.flatMap fun label => (submitted.get label []).map (·.id)

/-- No node of a submitted request that is fulfilled has been deleted. -/
def AllPresent (w : World) (submitted : Submitted) : Prop :=
  ∀ label, ∀ req ∈ submitted.get label [], Present w req

theorem createMinReady_wp (labels : Dict String Label) {submitted : Submitted}
    (present : AllPresent w submitted) :
    (createMinReady labels).wp (answerContext World.answer)
      (fun _ s' w' => (∀ name, Replenished labels w.cachedReady
          (fun name => (w.unfinishedOf submitted name).length) s' name) ∧
        Removed w w' (namesOf submitted)) (fun _ _ _ => False) submitted w := by
  rw [createMinReady, wp_bind, wp_lift]
  refine wp_mono (removeCompletedRequests_wp submitted present) ?_ fun _ _ _ h => h
  rintro _ s₁ w₁ ⟨left, removed⟩
  have outstanding (name : String) : s₁.get name [] = w.unfinishedOf submitted name := by
    unfold Dict.get
    rw [left name]
    split
    · rename_i none_left
      rw [none_left]
      rfl
    · rfl
  rw [wp_bind, wp_self]
  dsimp only
  rw [wp_bind, getReadyNodesOfTypes, wp_bind]
  refine wp_answer ?_
  dsimp only [World.answer]
  rw [wp_pure]
  have nodup : (labels.keys.filter (· ∉ s₁.keys)).Nodup := (AList.keys_nodup labels).filter _
  refine wp_mono (createForLabels_wp labels w.cachedReady
    (fun name => (w.unfinishedOf submitted name).length) (fun name h => ?_) (fun name h => ?_)
    labels.entries labels.nodupKeys (fun e he => ?_) (fun e _ => ?_) (fun name _ => ?_) rfl rfl
    rfl) ?_
    fun _ _ _ h => h
  · have absent : name ∉ s₁.keys := by simpa using (List.mem_filter.mp h).2
    rw [← outstanding name]
    unfold Dict.get
    rw [AList.lookup_eq_none.mpr fun hm => absent (AList.mem_keys.mp hm)]
    rfl
  · rw [get_readyNodes nodup h, Dict.get_of_notMem (AList.notMem_empty name), removed.cached]
    exact Nat.zero_add _
  · exact List.mem_dlookup labels.nodupKeys he
  · rw [outstanding]
  · exact .inl (by rw [outstanding])
  · rintro _ s' w' ⟨replenished, requests, nodes, cached⟩
    exact ⟨replenished, removed.of_same requests nodes cached⟩

/-- **Min-ready bookkeeping.** If no node of a fulfilled request has been deleted, one call
removes the finished requests and frees their nodes. The requests of a label and its stored
ready nodes then are at most its min-ready number, or what it had, and the ready nodes that
the cache does not show. -/
theorem bounded (labels : Dict String Label) {submitted : Submitted}
    (present : AllPresent w submitted) :
    let out := (createMinReady labels).runAlone World.answer submitted w
    out.1.1 = .ok () ∧ Removed w out.2 (namesOf submitted) ∧ ∀ name,
      ((out.1.2.get name []).length : Int) + out.2.ready name ≤
        max (minReadyOf labels name)
            ((w.unfinishedOf submitted name).length + out.2.ready name) +
          (out.2.ready name - w.cachedReady name : Nat) := by
  have spec := runAlone_of_wp (createMinReady_wp labels present)
  generalize (createMinReady labels).runAlone World.answer submitted w = out at spec ⊢
  obtain ⟨⟨result, s'⟩, w'⟩ := out
  cases result with
  | error e => exact spec.elim
  | ok _ =>
      obtain ⟨replenished, removed⟩ := spec
      refine ⟨rfl, removed, fun name => ?_⟩
      have counted := replenished name
      unfold Replenished at counted
      dsimp only at counted ⊢
      omega

/-! ### Examples -/

/-- A min-ready request of one label. -/
def exampleRequest (id : String) (state : RequestState) (nodes : List (Option NodeId)) :
    NodeRequest :=
  { newRequest "small" with id := id, state := state, nodes := nodes }

def exampleNode (allocatedTo : Option String) : Node where
  state := .ready
  stateTime := 0
  type := ["large"]
  provider := some "cloud"
  pool := some "main"
  launcher := none
  allocatedTo := allocatedTo
  tenantName := none
  requestor := none
  resources := none
  externalId := none

def exampleLabels : Dict String Label :=
  .ofPairs [("small", ⟨1, [⟨"cloud", false, []⟩]⟩), ("large", ⟨1, [⟨"cloud", false, []⟩]⟩)]

/-- Two requests in progress for a label that now keeps one node, and a fulfilled one for
another label, whose node the cache still shows as allocated. -/
def exampleWorld : World where
  requests := .ofPairs [
    ("a", exampleRequest "a" .pending []), ("b", exampleRequest "b" .pending []),
    ("c", exampleRequest "c" .fulfilled [some 7])]
  nodes := .ofPairs [(7, exampleNode (some "c"))]
  cached := [exampleNode (some "c")]
  created := []
  sequence n := String.ofList (List.replicate (n + 4) 'n')
  uploaded _ _ := true
  labelReady _ _ := true

def exampleSubmitted : Submitted :=
  .ofPairs [("small", [exampleRequest "a" .requested [], exampleRequest "b" .requested []]),
    ("large", [exampleRequest "c" .requested []])]

theorem exampleWorld_present : AllPresent exampleWorld exampleSubmitted := by
  intro label
  refine Dict.get_ofPairs (p := fun reqs => ∀ req ∈ reqs, Present exampleWorld req)
    (fun _ h => absurd h List.not_mem_nil) ?_
  refine List.forall_mem_cons.mpr
    ⟨List.forall_mem_cons.mpr ⟨?_, List.forall_mem_singleton.mpr ?_⟩,
      List.forall_mem_singleton.mpr (List.forall_mem_singleton.mpr ?_)⟩
  · rintro stored ⟨⟩ fulfilled
    cases fulfilled
  · rintro stored ⟨⟩ fulfilled
    cases fulfilled
  · rintro stored ⟨⟩ -
    exact List.forall_mem_singleton.mpr ⟨7, rfl, by decide⟩

theorem bounded_example :
    let out := (createMinReady exampleLabels).runAlone World.answer exampleSubmitted exampleWorld
    out.1.1 = .ok () ∧ Removed exampleWorld out.2 (namesOf exampleSubmitted) ∧ ∀ name,
      ((out.1.2.get name []).length : Int) + out.2.ready name ≤
        max (minReadyOf exampleLabels name)
            ((exampleWorld.unfinishedOf exampleSubmitted name).length + out.2.ready name) +
          (out.2.ready name - exampleWorld.cachedReady name : Nat) :=
  bounded exampleLabels exampleWorld_present

/-- What the run of the example ends with: the requests that it submitted, and the world. -/
def exampleRun : Submitted × World :=
  let out := (createMinReady exampleLabels).runAlone World.answer exampleSubmitted exampleWorld
  (out.1.2, out.2)

/-- Both labels have more than their min-ready number and more than they had. -/
theorem not_bounded :
    ¬ ((exampleRun.1.get "small" []).length : Int) + exampleRun.2.ready "small" ≤
        max (minReadyOf exampleLabels "small") (exampleRun.2.ready "small") ∧
      ¬ ((exampleRun.1.get "large" []).length : Int) + exampleRun.2.ready "large" ≤
        max (minReadyOf exampleLabels "large") (exampleRun.2.ready "large") := by
  decide

end MinReady

end Nodepool
