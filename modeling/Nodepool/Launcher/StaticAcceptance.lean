import Nodepool.Driver.StaticHandler
import Nodepool.Launcher.AssignHandlers

/-!
Requests for the nodes of a static provider, from the check of `_assignHandlers` on.

`getLabelQuota` counts the nodes of a label that are READY and not allocated, whoever has
registered them and whoever has locked them, and each label of a request is held against it
once. The handler wants a node of its own for each requested type, and takes the first one
that fits. `Satisfiable` is the condition under which it finds them all.
-/

namespace Nodepool.StaticAcceptance

open Effect Method NodeRequestHandler StaticHandler

/-! ### The label quota -/

/-- `label_quota.update`, for one label -/
def countLabel (table : Dict String Number) (label : String) : Dict String Number :=
  table.insert label (table.get label (.int 0) + .int 1)

def getLabelQuota (labels : List String) (nodes : List Node) : AssignHandlers.LabelQuotas where
  table :=
    let free := nodes.filter fun n => n.state = .ready ∧ n.allocatedTo = none
    (free.flatMap (·.type)).foldl countLabel (Dict.setdefaults ∅ labels (.int 0))
  missing := .int 0

/-! ### The needed types -/

theorem nodup_eraseDups (ts : List String) : ts.eraseDups.Nodup := by
  match ts with
  | [] => exact List.nodup_nil
  | t :: ts =>
      rw [List.eraseDups_cons]
      refine List.nodup_cons.mpr ⟨?_, nodup_eraseDups _⟩
      rw [List.mem_eraseDups]
      simp
termination_by ts.length
decreasing_by
  exact Nat.lt_succ_of_le (List.length_filter_le _ _)

theorem count_flatMap_replicate (f : String → ℕ) (t : String) {ts : List String}
    (nodup : ts.Nodup) :
    (ts.flatMap fun t' => List.replicate (f t') t').count t = if t ∈ ts then f t else 0 := by
  induction ts with
  | nil => rfl
  | cons t' ts ih =>
      obtain ⟨new, nodup⟩ := List.nodup_cons.mp nodup
      rw [List.flatMap_cons, List.count_append, ih nodup, List.count_replicate]
      by_cases same : t' = t
      · subst same
        simp [new]
      · simp [same, Ne.symm same]

theorem neededTypes_perm (ts : List String) : (neededTypes ts []).Perm ts := by
  refine List.perm_iff_count.mpr fun t => ?_
  rw [neededTypes, count_flatMap_replicate _ t (nodup_eraseDups ts)]
  by_cases mem : t ∈ ts
  · rw [if_pos (List.mem_eraseDups.mpr mem), List.count_nil, Nat.sub_zero]
  · rw [if_neg (mt List.mem_eraseDups.mp mem), List.count_eq_zero_of_not_mem mem]

/-! ### The lists of ready nodes -/

/-- What the list for a type gets from one node: an entry each time the type is wanted. -/
def entries (w : World) (labels : List String) (t : String) (o : NodeRef) : List NodeRef :=
  if ReadyFor w t o then List.replicate (labels.count t) o else []

theorem get_addLabels (o : NodeRef) (t : String) (ls : List String)
    (ret : Dict String (List NodeRef)) :
    Dict.get (ls.foldl (fun (ret : Dict String (List NodeRef)) label =>
        AList.insert label (ret.get label [] ++ [o]) ret) ret) t [] =
      ret.get t [] ++ List.replicate (ls.count t) o := by
  induction ls generalizing ret with
  | nil => simp
  | cons l ls ih =>
      rw [List.foldl_cons, ih]
      by_cases same : l = t
      · subst same
        rw [Dict.get_insert, List.count_cons_self, List.replicate_succ, List.append_assoc]
        rfl
      · rw [Dict.get_insert_ne (Ne.symm same), List.count_cons_of_ne same]

theorem get_addReadyNode (w : World) (labels : List String) (t : String) (o : NodeRef)
    (ret : Dict String (List NodeRef)) :
    (addReadyNode w labels ret o).get t [] = ret.get t [] ++ entries w labels t o := by
  unfold addReadyNode entries
  by_cases skipped : (w.object o).node.state ≠ .ready ∨ truthy (w.object o).node.allocatedTo
  · dsimp only
    rw [if_pos skipped, if_neg, List.append_nil]
    rintro ⟨ready, unallocated, -⟩
    exact skipped.elim (· ready) unallocated
  · dsimp only
    rw [if_neg skipped, get_addLabels]
    obtain ⟨ready, unallocated⟩ := not_or.mp skipped
    by_cases type : t ∈ (w.object o).node.type
    · rw [if_pos ⟨not_not.mp ready, unallocated, type⟩, List.count_filter (by simpa using type)]
    · rw [if_neg fun h => type h.2.2, List.count_eq_zero_of_not_mem]
      · rfl
      · intro mem
        exact type (by simpa using (List.mem_filter.mp mem).2)

theorem get_readyNodes (w : World) (labels : List String) (t : String) (nodes : List NodeRef)
    (ret : Dict String (List NodeRef)) :
    (nodes.foldl (addReadyNode w labels) ret).get t [] =
      ret.get t [] ++ nodes.flatMap (entries w labels t) := by
  induction nodes generalizing ret with
  | nil => exact (List.append_nil _).symm
  | cons o nodes ih =>
      rw [List.foldl_cons, ih, get_addReadyNode, List.append_assoc, List.flatMap_cons]

/-- The list has a node more than once, in the order of the iterator, and nothing that
cannot be listed. -/
structure Offers (w : World) (nodes : List NodeRef) (t : String) (os : List NodeRef) : Prop where
  listed : ∀ o ∈ os, o ∈ w.refs ∧ ReadyFor w t o
  find : ∀ p : NodeRef → Bool, (∀ o, p o = true → ReadyFor w t o) → os.find? p = nodes.find? p

theorem offers_entries {w : World} {labels : List String} {t : String} (wanted : t ∈ labels) :
    Offers w w.refs t (w.refs.flatMap (entries w labels t)) where
  listed o mem := by
    obtain ⟨o', mem', h⟩ := List.mem_flatMap.mp mem
    unfold entries at h
    split at h
    · rename_i listed
      cases (List.mem_replicate.mp h).2
      exact ⟨mem', listed⟩
    · cases h
  find p hp := by
    induction w.refs with
    | nil => rfl
    | cons o os ih =>
        rw [List.flatMap_cons, List.find?_append, ih]
        unfold entries
        by_cases found : p o = true
        · rw [if_pos (hp o found),
            List.find?_replicate_of_length_pos (List.count_pos_iff.mpr wanted), if_pos found,
            List.find?_cons_of_pos found]
          rfl
        · rw [List.find?_cons_of_neg found]
          split
          · rw [List.find?_replicate_of_neg found]
            rfl
          · rfl

/-! ### The nodes that are chosen -/

variable (P : StaticPool)

/-- For each type in turn the first node that fits and is not taken. -/
def firstFit (w : World) (nodes : List NodeRef) :
    List String → List NodeRef → Option (List (String × NodeRef))
  | [], _ => some []
  | ntype :: ntypes, taken =>
      match nodes.find? fun o => Fits P w ntype o ∧ o ∉ taken with
      | none => none
      | some o => (firstFit w nodes ntypes (taken ++ [o])).map ((ntype, o) :: ·)

theorem firstFit_none {w : World} {nodes taken : List NodeRef} {t : String} {ts : List String}
    (h : (nodes.find? fun o => Fits P w t o ∧ o ∉ taken) = none) :
    firstFit P w nodes (t :: ts) taken = none := by
  rw [firstFit, h]

theorem firstFit_some {w : World} {nodes taken : List NodeRef} {t : String} {ts : List String}
    {o : NodeRef} (h : (nodes.find? fun o => Fits P w t o ∧ o ∉ taken) = some o) :
    firstFit P w nodes (t :: ts) taken =
      (firstFit P w nodes ts (taken ++ [o])).map ((t, o) :: ·) := by
  rw [firstFit, h]

/-- What the chosen nodes are. -/
structure Chosen (w : World) (nodes : List NodeRef) (ts : List String) (taken : List NodeRef)
    (chosen : List (String × NodeRef)) : Prop where
  types : chosen.map (·.1) = ts
  fits : ∀ e ∈ chosen, e.2 ∈ nodes ∧ Fits P w e.1 e.2
  new : ∀ e ∈ chosen, e.2 ∉ taken
  nodup : (chosen.map (·.2)).Nodup

theorem chosen_of_firstFit {w : World} {nodes : List NodeRef} {ts : List String}
    {taken : List NodeRef} {chosen : List (String × NodeRef)}
    (h : firstFit P w nodes ts taken = some chosen) : Chosen P w nodes ts taken chosen := by
  induction ts generalizing taken chosen with
  | nil =>
      cases h
      exact ⟨rfl, fun _ h => (nomatch h), fun _ h => (nomatch h), List.nodup_nil⟩
  | cons t ts ih =>
      cases found : nodes.find? fun o => Fits P w t o ∧ o ∉ taken with
      | none =>
          rw [firstFit_none P found] at h
          cases h
      | some o =>
          rw [firstFit_some P found] at h
          obtain ⟨rest, hrest, rfl⟩ := Option.map_eq_some_iff.mp h
          have ⟨types, fits, new, nodup⟩ := ih hrest
          have ⟨fit, untaken⟩ : Fits P w t o ∧ o ∉ taken := by
            simpa using List.find?_some found
          refine ⟨by rw [List.map_cons, types], ?_, ?_, List.nodup_cons.mpr ⟨?_, nodup⟩⟩
          · rintro e (_ | ⟨_, mem⟩)
            · exact ⟨List.mem_of_find?_eq_some found, fit⟩
            · exact fits e mem
          · rintro e (_ | ⟨_, mem⟩)
            · exact untaken
            · exact fun h => new e mem (List.mem_append_left _ h)
          · intro mem
            obtain ⟨e, he, same⟩ := List.mem_map.mp mem
            exact new e he (same ▸ List.mem_append_right _ (List.mem_singleton_self o))

/-! ### Filling the node set -/

/-- What the handler has come to when it has looked for a node of each type. -/
def Filled (w₀ : World) (req : NodeRequest) (launcherId : String)
    (taken : List (String × NodeRef)) (found : Option (List (String × NodeRef)))
    (s : Handler Unit) (w : World) : Prop :=
  match found with
  | some chosen => s = handlerWith P w₀ req launcherId (taken ++ chosen) ∧
      Taken P w₀ req (taken ++ chosen) w
  | none => GivenUp s w

section Running

variable {P} {w₀ : World} {req : NodeRequest} {launcherId : String} (atRest : AtRest w₀)
include atRest

theorem fillNodeSet_wp {nodes : List NodeRef} {readyNodes : Dict String (List NodeRef)}
    (ntypes : List String) {taken : List (String × NodeRef)} {w : World}
    (offers : ∀ t ∈ ntypes, Offers w₀ nodes t (if req.reuse then readyNodes.get t [] else []))
    (h : Taken P w₀ req taken w) :
    (fillNodeSet driver readyNodes ntypes).wp (Γ P)
      (fun _ => Filled P w₀ req launcherId taken
        (firstFit P w₀ nodes ntypes (taken.map (·.2))))
      (fun _ _ _ => firstFit P w₀ nodes ntypes (taken.map (·.2)) = none)
      (handlerWith P w₀ req launcherId taken) w := by
  induction ntypes generalizing taken w with
  | nil =>
      change _ = handlerWith P w₀ req launcherId (taken ++ []) ∧ Taken P w₀ req (taken ++ []) w
      rw [List.append_nil]
      exact ⟨rfl, h⟩
  | cons t ts ih =>
      have offered := offers t List.mem_cons_self
      have fitsListed (o : NodeRef) (ho : decide (Fits P w₀ t o ∧ o ∉ taken.map (·.2)) = true) :
          ReadyFor w₀ t o := by
        have fits := (of_decide_eq_true ho).1
        exact ⟨fits.ready, fits.unallocated, fits.type⟩
      rw [fillNodeSet, wp_bind, wp_self, wp_bind]
      refine wp_mono (grabReadyNode_wp atRest t h _ offered.listed) ?_ fun _ _ _ h => h.elim
      intro got s₁ w₁ h₁
      change Grabbed P w₀ req launcherId t taken
        (List.find? _ (if req.reuse then readyNodes.get t [] else [])) got s₁ w₁ at h₁
      rw [offered.find _ fitsListed] at h₁
      cases found : nodes.find? fun o => Fits P w₀ t o ∧ o ∉ taken.map (·.2) with
      | none =>
          rw [found] at h₁
          obtain ⟨rfl, rfl, h₁⟩ := h₁
          rw [firstFit_none P found, if_neg Bool.false_ne_true, wp_bind,
            show driver.hasRemainingQuota t = pure false from rfl, wp_pure,
            if_neg Bool.false_ne_true]
          exact wp_mono (atQuota_wp rfl rfl (by simp [handlerWith, Handler.init]))
            (fun _ _ _ h => h) fun _ _ _ _ => rfl
      | some o =>
          rw [found] at h₁
          obtain ⟨rfl, rfl, h₁⟩ := h₁
          rw [firstFit_some P found, if_pos rfl]
          have rest := ih (fun t' h' => offers t' (List.mem_cons_of_mem t h')) h₁
          rw [List.map_append, List.map_singleton] at rest
          cases chosen : firstFit P w₀ nodes ts (taken.map (·.2) ++ [o]) with
          | none =>
              rw [chosen] at rest
              exact wp_mono rest (fun _ _ _ h => h) fun _ _ _ _ => rfl
          | some chosen' =>
              rw [chosen] at rest
              refine wp_mono rest ?_ fun _ _ _ h => ?_
              · rintro _ s₂ w₂ ⟨hs, hw⟩
                rw [List.append_assoc] at hs hw
                exact ⟨hs, hw⟩
              · cases h

/-- The nodes that the handler chooses among. -/
def candidates (w : World) (req : NodeRequest) : List NodeRef := if req.reuse then w.refs else []

theorem waitForNodeSet_wp :
    (waitForNodeSet driver).wp (Γ P)
      (fun _ => Filled P w₀ req launcherId []
        (firstFit P w₀ (candidates w₀ req) (neededTypes req.nodeTypes []) []))
      (fun _ _ _ => firstFit P w₀ (candidates w₀ req) (neededTypes req.nodeTypes []) [] = none)
      (handlerWith P w₀ req launcherId [])
      { w₀ with request := { req with state := .pending } } := by
  have start : Taken P w₀ req [] { w₀ with request := { req with state := .pending } } :=
    ⟨rfl, rfl, fun _ _ => by simp, fun _ _ => by simp⟩
  rw [waitForNodeSet, wp_bind, wp_self]
  change wp (Γ P) (if req.reuse then _ else _) _ _ _ _
  unfold candidates
  by_cases reuse : req.reuse = true
  · rw [if_pos reuse, if_pos reuse, wp_bind]
    refine returns rfl ?_
    refine fillNodeSet_wp atRest _ (fun t wanted => ?_) start
    rw [if_pos reuse, get_readyNodes]
    exact offers_entries wanted
  · rw [if_neg reuse, if_neg reuse]
    refine fillNodeSet_wp atRest _ (fun t _ => ?_) start
    rw [if_neg reuse]
    exact ⟨fun _ h => (nomatch h), fun _ _ => rfl⟩

end Running

/-! ### Running the handler -/

/-- The pool does not decline the request. -/
structure Accepts (req : NodeRequest) : Prop where
  enabled : P.pool.maxServers.isNonPositive = false
  valid : ∀ t ∈ req.nodeTypes, t ∈ P.provider.supportedLabels ∧ t ∉ P.errorLabels

instance (req : NodeRequest) : Decidable (Accepts P req) :=
  decidable_of_iff (P.pool.maxServers.isNonPositive = false ∧
      ∀ t ∈ req.nodeTypes, t ∈ P.provider.supportedLabels ∧ t ∉ P.errorLabels)
    ⟨fun h => ⟨h.1, h.2⟩, fun h => ⟨h.1, h.2⟩⟩

/-- The nodes that the handler chooses, if it accepts the request and finds them all. -/
def choice (w : World) (req : NodeRequest) : Option (List (String × NodeRef)) :=
  if Accepts P req then firstFit P w (candidates w req) (neededTypes req.nodeTypes []) [] else none

section Running

variable {P} {w₀ : World} {req : NodeRequest} {launcherId : String}

/-- The handler when it has read its configuration. -/
def configured (P : StaticPool) (launcherId : String) (req : NodeRequest) : Handler Unit :=
  { Handler.init launcherId req () with
    provider := some (some P.provider)
    pool := some (some P.pool) }

theorem getDeclinedReasons_wp {w : World} {E : Err → Handler Unit → World → Prop} :
    (getDeclinedReasons driver).wp (Γ P)
      (fun reasons s' w' => s' = configured P launcherId req ∧ w' = w ∧
        (reasons = [] ↔ Accepts P req))
      E (configured P launcherId req) w := by
  have invalid : (req.nodeTypes.filter fun t =>
      t ∉ P.provider.supportedLabels ∨ t ∈ P.errorLabels) = [] ↔
      ∀ t ∈ req.nodeTypes, t ∈ P.provider.supportedLabels ∧ t ∉ P.errorLabels := by
    simp [List.filter_eq_nil_iff]
  rw [getDeclinedReasons, wp_bind, wp_self, wp_bind, when,
    if_neg (show ¬ (configured P launcherId req).provider = none from nofun), wp_pure, wp_bind,
    invalidNodeTypes, wp_bind]
  refine provider_wp rfl ?_
  rw [wp_bind]
  refine pool_wp rfl ?_
  rw [wp_bind]
  refine returns rfl ?_
  rw [wp_bind, wp_self, wp_pure, wp_bind]
  refine pool_wp rfl ?_
  rw [wp_bind, wp_self]
  by_cases disabled : P.pool.maxServers.isNonPositive = true
  · rw [if_pos disabled]
    refine ⟨rfl, rfl, iff_of_false nofun fun h => ?_⟩
    rw [h.enabled] at disabled
    cases disabled
  rw [if_neg disabled]
  split
  · rename_i found
    refine ⟨rfl, rfl, iff_of_false nofun fun h => ?_⟩
    exact found (invalid.mpr h.valid)
  · rename_i valid
    refine ⟨rfl, rfl, iff_of_true rfl ?_⟩
    exact ⟨Bool.eq_false_iff.mpr disabled, invalid.mp (not_not.mp valid)⟩

theorem acceptRequest_wp {Q : Unit → Handler Unit → World → Prop}
    {E : Err → Handler Unit → World → Prop}
    (h : Q () (handlerWith P w₀ req launcherId [])
      { w₀ with request := { req with state := .pending } }) :
    acceptRequest.wp (Γ P) Q E (configured P launcherId req) w₀ := by
  rw [acceptRequest, wp_bind, wp_assign]
  exact storeNodeRequest_wp h

variable (atRest : AtRest w₀)
include atRest

theorem runHandler_wp :
    (runHandler driver).wp (Γ P) (fun _ => Filled P w₀ req launcherId [] (choice P w₀ req))
      (fun _ _ _ => choice P w₀ req = none) (Handler.init launcherId req ()) w₀ := by
  rw [runHandler, wp_bind, setFromPoolWorker, wp_bind]
  refine returns rfl ?_
  rw [wp_bind, wp_assign, wp_bind]
  refine returns rfl ?_
  rw [wp_assign]
  change wp (Γ P) _ _ _ (configured P launcherId req) w₀
  rw [wp_bind]
  refine provider_wp rfl ?_
  rw [wp_bind]
  refine pool_wp rfl ?_
  rw [wp_bind]
  refine wp_mono getDeclinedReasons_wp ?_ fun _ _ _ h => h
  rintro reasons _ _ ⟨rfl, rfl, accepts⟩
  unfold choice
  by_cases none : reasons = []
  · rw [if_neg (not_not.mpr none), if_pos (accepts.mp none), wp_bind, wp_self, wp_bind, when,
      if_pos (show ¬ (configured P launcherId req).paused = true from nofun)]
    exact acceptRequest_wp (waitForNodeSet_wp atRest)
  · rw [if_pos none, if_neg (mt accepts.mpr none)]
    exact wp_mono declineRequest_wp (fun _ _ _ h => h) fun _ _ _ _ => rfl

/-- The handler has a node for each type, or it is done and the request is given back. -/
theorem run_wp :
    (run driver).wp (Γ P) (fun _ => Filled P w₀ req launcherId [] (choice P w₀ req))
      (fun _ _ _ => False) (Handler.init launcherId req ()) w₀ := by
  rw [run, wp_tryCatch]
  refine wp_mono (runHandler_wp atRest) (fun _ _ _ h => h) fun e s w none => ?_
  rw [wp_bind]
  refine returns rfl ?_
  rw [none]
  exact declineRequest_wp

end Running

/-! ### Fulfilling the request -/

section Polling

variable {P} {s : Handler Unit} {w : World}

theorem classifyNodes_wp {E : Err → Handler Unit → World → Prop} (os : List NodeRef)
    (ready : ∀ o ∈ os, (w.object o).node.state = .ready) :
    (classifyNodes os : HandlerM Unit _).wp (Γ P)
      (fun aborted s' w' => aborted = [] ∧ w' = w ∧
        s' = { s with readyNodes := s.readyNodes ++ os }) E s w := by
  induction os generalizing s with
  | nil => exact ⟨rfl, rfl, by rw [List.append_nil]⟩
  | cons o os ih =>
      rw [classifyNodes, wp_bind, classifyNode, wp_bind]
      refine returns rfl ?_
      rw [if_pos (ready o List.mem_cons_self), wp_bind, wp_assign, wp_pure, wp_bind]
      refine wp_mono (ih fun o' h => ready o' (List.mem_cons_of_mem o h)) ?_ fun _ _ _ h => h
      rintro _ _ _ ⟨rfl, rfl, rfl⟩
      rw [wp_pure]
      exact ⟨rfl, rfl, by rw [List.append_assoc]; rfl⟩

/-- The first entry for a label is taken off the record. -/
theorem pop_eq {r : LabelRecorder} {t : String} (mem : t ∈ r.labels)
    (numbered : ∀ e ∈ r.data, e.2 ≠ none) :
    ∃ id, (t, some id) ∈ r.data ∧ r.pop t = .ok (some id, ⟨r.data.erase (t, some id)⟩) := by
  cases found : r.data.find? (·.1 = t) with
  | none =>
      obtain ⟨e, he, rfl⟩ := List.mem_map.mp mem
      exact absurd (decide_eq_true rfl) (List.find?_eq_none.mp found e he)
  | some e =>
      obtain ⟨label, _ | id⟩ := e
      · exact absurd rfl (numbered _ (List.mem_of_find?_eq_some found))
      · have same : label = t := by simpa using List.find?_some found
        subst same
        refine ⟨id, List.mem_of_find?_eq_some found, ?_⟩
        rw [LabelRecorder.pop, found]

/-- Each type in turn gets a node of the record: what is assigned and what is left of the
record are the record at the start. -/
theorem assignNodes_wp {E : Err → Handler Unit → World → Prop}
    {all : List (String × Option NodeId)} (nodes : List (Option NodeId))
    (numbered : ∀ e ∈ all, e.2 ≠ none) (ts : List String) (assigned : List (String × Option NodeId))
    (types : (assigned.map (·.1) ++ ts).Perm (all.map (·.1)))
    (record : (assigned ++ s.satisfiedTypes.data).Perm all)
    (stored : s.request.nodes = nodes ++ assigned.map (·.2)) :
    (forEach ts assignNodeToType).wp (Γ P)
      (fun _ s' _ => s'.requestLock = s.requestLock ∧ ∃ assigned' : List (String × Option NodeId),
        assigned'.map (·.1) = assigned.map (·.1) ++ ts ∧ assigned'.Perm all ∧
          s'.request.nodes = nodes ++ assigned'.map (·.2)) E s w := by
  have labels : (s.satisfiedTypes.labels).Perm ts := by
    have := (record.map (·.1)).trans types.symm
    rw [List.map_append] at this
    exact (List.perm_append_left_iff _).mp this
  induction ts generalizing s assigned with
  | nil =>
      have empty : s.satisfiedTypes.data = [] := List.map_eq_nil_iff.mp (List.perm_nil.mp labels)
      rw [empty, List.append_nil] at record
      exact ⟨rfl, assigned, (List.append_nil _).symm, record, stored⟩
  | cons t ts ih =>
      obtain ⟨id, mem, popped⟩ := pop_eq (labels.mem_iff.mpr List.mem_cons_self)
        fun e he => numbered e (record.mem_iff.mp (List.mem_append_right _ he))
      rw [forEach, wp_bind, assignNodeToType, wp_bind, wp_self, popped]
      dsimp only
      rw [wp_assign]
      have record' : (assigned ++ [(t, some id)] ++ s.satisfiedTypes.data.erase (t, some id)).Perm
          all := by
        rw [List.append_assoc]
        exact ((List.perm_cons_erase mem).symm.append_left assigned).trans record
      have types' : ((assigned ++ [(t, some id)]).map (·.1) ++ ts).Perm (all.map (·.1)) := by
        rw [List.map_append, List.append_assoc]
        exact types
      refine wp_mono (ih (assigned ++ [(t, some id)]) types' record' ?_ ?_) ?_ fun _ _ _ h => h
      · rw [stored, List.map_append, List.append_assoc]
        rfl
      · have := (record'.map (·.1)).trans types'.symm
        rw [List.map_append] at this
        exact (List.perm_append_left_iff _).mp this
      · rintro _ s' w' ⟨lock, assigned', first, perm, nodes'⟩
        refine ⟨lock, assigned', ?_, perm, nodes'⟩
        rw [first, List.map_append, List.append_assoc]
        rfl

theorem finishPoll_wp {E : Err → Handler Unit → World → Prop} (locked : s.requestLock = true) :
    finishPoll.wp (Γ P) (fun complete _ w' => complete = true ∧ w'.request = s.request) E s w := by
  rw [finishPoll, wp_bind]
  refine wp_mono (unlockNodeSet_wp false) ?_ fun _ _ _ h => h.elim
  rintro _ _ w₁ rfl
  rw [wp_bind]
  refine storeNodeRequest_wp ?_
  rw [wp_bind, unlockNodeRequest, wp_bind, wp_self, wp_bind, raiseUnless, if_pos locked, wp_pure,
    wp_bind]
  refine returns rfl ?_
  exact ⟨rfl, rfl⟩

end Polling

/-! ### The request in the end -/

/-- The request is fulfilled by free nodes of the provider and pool, one for each type. -/
structure Fulfilled (w : World) (req stored : NodeRequest) : Prop where
  state : stored.state = .fulfilled
  nodes : ∃ nodes, stored.nodes = req.nodes ++ nodes ∧ nodes.Nodup ∧
    List.Forall₂ (fun t n => ∃ o ∈ w.refs, n = (w.object o).id ∧ Suits P w t o) req.nodeTypes nodes

/-- The handler runs, and is then polled. -/
def serve : HandlerM Unit Bool := do
  run driver
  poll driver

/-- The request in ZooKeeper after the handler has run and has been polled. -/
def served (launcherId : String) (w : World) : NodeRequest :=
  (serve.runAlone (answer P) (Handler.init launcherId w.request ()) w).2.request

/-- The pool accepts the request, and the handler finds a node for each type. -/
def Satisfiable (w : World) (req : NodeRequest) : Prop := (choice P w req).isSome = true

instance (w : World) (req : NodeRequest) : Decidable (Satisfiable P w req) :=
  inferInstanceAs (Decidable (_ = _))

section Serving

variable {P} {w₀ : World} {req : NodeRequest} {launcherId : String} (atRest : AtRest w₀)
include atRest

/-- The nodes that were chosen, in the order in which the request gets them. -/
theorem fulfilled_of_assigned {nodes : List NodeRef} {chosen : List (String × NodeRef)}
    {assigned : List (String × Option NodeId)} {stored : NodeRequest}
    (sub : ∀ o ∈ nodes, o ∈ w₀.refs)
    (hc : Chosen P w₀ nodes (neededTypes req.nodeTypes []) [] chosen)
    (types : assigned.map (·.1) = req.nodeTypes)
    (perm : assigned.Perm (chosen.map fun e => (e.1, (w₀.object e.2).id)))
    (state : stored.state = .fulfilled)
    (hnodes : stored.nodes = req.nodes ++ assigned.map (·.2)) : Fulfilled P w₀ req stored := by
  refine ⟨state, assigned.map (·.2), hnodes, ?_, ?_⟩
  · refine ((perm.map (·.2)).nodup_iff).mpr ?_
    rw [List.map_map, show ((·.2) ∘ fun e : String × NodeRef => (e.1, (w₀.object e.2).id)) =
      (fun o => (w₀.object o).id) ∘ (·.2) from rfl, ← List.map_map]
    refine hc.nodup.map_on ?_
    intro o ho o' ho' same
    obtain ⟨e, he, rfl⟩ := List.mem_map.mp ho
    obtain ⟨e', he', rfl⟩ := List.mem_map.mp ho'
    exact atRest.distinct _ (sub _ (hc.fits e he).1) _ (sub _ (hc.fits e' he').1) same
  · rw [← types, List.forall₂_map_left_iff, List.forall₂_map_right_iff, List.forall₂_same]
    intro a ha
    obtain ⟨e, he, rfl⟩ := List.mem_map.mp (perm.mem_iff.mp ha)
    exact ⟨e.2, sub _ (hc.fits e he).1, rfl, (hc.fits e he).2.toSuits⟩

/-- A handler that has all its nodes fulfils the request. -/
theorem poll_chosen_wp {nodes : List NodeRef} {chosen : List (String × NodeRef)} {w : World}
    (sub : ∀ o ∈ nodes, o ∈ w₀.refs)
    (hc : Chosen P w₀ nodes (neededTypes req.nodeTypes []) [] chosen)
    (h : Taken P w₀ req chosen w) :
    (poll driver).wp (Γ P) (fun _ _ w' => Fulfilled P w₀ req w'.request) (fun _ _ _ => False)
      (handlerWith P w₀ req launcherId chosen) w := by
  have ready : ∀ o ∈ chosen.map (·.2), (w.object o).node.state = .ready := by
    intro o mem
    obtain ⟨e, he, rfl⟩ := List.mem_map.mp mem
    rw [h.object _ (hc.fits e he).2.live, if_pos mem]
    exact (hc.fits e he).2.ready
  have numbered : ∀ e ∈ chosen.map fun e => (e.1, (w₀.object e.2).id), e.2 ≠ none := by
    intro e he
    obtain ⟨e', he', rfl⟩ := List.mem_map.mp he
    exact atRest.numbered _ (sub _ (hc.fits e' he').1)
  have types : (req.nodeTypes).Perm
      ((chosen.map fun e => (e.1, (w₀.object e.2).id)).map (·.1)) := by
    rw [List.map_map, show ((·.1) ∘ fun e : String × NodeRef => (e.1, (w₀.object e.2).id)) =
      (·.1) from rfl, hc.types]
    exact (neededTypes_perm req.nodeTypes).symm
  rw [poll, wp_bind, wp_self, if_neg (by simp [handlerWith, Handler.init]),
    if_neg (by simp [handlerWith, Handler.init]), wp_bind,
    show driver.launchesComplete = pure true from rfl, wp_pure, if_pos rfl, pollComplete, wp_bind,
    wp_self, wp_bind]
  refine wp_mono (classifyNodes_wp (chosen.map (·.2)) ready) ?_ fun _ _ _ h => h
  rintro _ _ _ ⟨rfl, rfl, rfl⟩
  rw [wp_bind]
  refine getNodeRequest_wp ?_
  rw [if_neg nofun, wp_bind, wp_self, if_neg (by simp [handlerWith, Handler.init]),
    if_neg (by simp), wp_bind, fulfil, wp_bind, wp_self, wp_bind]
  refine wp_mono (assignNodes_wp req.nodes numbered req.nodeTypes [] types
    (List.Perm.refl _) (List.append_nil _).symm) ?_ fun _ _ _ h => h
  rintro _ s₁ w₁ ⟨lock, assigned, first, perm, hnodes⟩
  rw [wp_assign]
  refine wp_mono (finishPoll_wp lock) ?_ fun _ _ _ h => h
  rintro _ s₂ w₂ ⟨-, stored⟩
  rw [stored]
  exact fulfilled_of_assigned atRest sub hc first perm rfl hnodes

theorem serve_wp :
    serve.wp (Γ P) (fun _ _ w => Fulfilled P w₀ req w.request ↔ Satisfiable P w₀ req)
      (fun _ _ _ => False) (Handler.init launcherId req ()) w₀ := by
  rw [serve, wp_bind]
  refine wp_mono (run_wp atRest) ?_ fun _ _ _ h => h
  intro _ s w filled
  unfold Satisfiable
  cases found : choice P w₀ req with
  | none =>
      rw [found] at filled
      obtain ⟨done, paused, state⟩ := filled
      rw [poll, wp_bind, wp_self, if_neg (by simp [paused]), if_pos done, wp_pure]
      exact iff_of_false (fun h => state h.state) nofun
  | some chosen =>
      rw [found] at filled
      obtain ⟨rfl, taken⟩ := filled
      unfold choice at found
      split at found
      · have sub : ∀ o ∈ candidates w₀ req, o ∈ w₀.refs := by
          unfold candidates
          intro o mem
          split at mem
          · exact mem
          · cases mem
        refine wp_mono (poll_chosen_wp atRest sub (chosen_of_firstFit P found) taken) ?_
          fun _ _ _ h => h
        exact fun _ _ _ h => iff_of_true h rfl
      · cases found

/-- What the handler needs is what it takes. -/
theorem fulfilled_iff_satisfiable (launcherId : String) :
    Fulfilled P w₀ w₀.request (served P launcherId w₀) ↔ Satisfiable P w₀ w₀.request := by
  have run : serve.wp (Γ P)
      (fun _ _ w => Fulfilled P w₀ w₀.request w.request ↔ Satisfiable P w₀ w₀.request)
      (fun _ _ _ => False) (Handler.init launcherId w₀.request ()) w₀ := serve_wp atRest
  have h := runAlone_of_wp run
  unfold served
  split at h
  · rename_i ended
    rw [ended]
    exact h
  · exact h.elim

end Serving

/-- The check of `_assignHandlers`: `counted` are the nodes when the pass began, `handled` the
types of the nodes of the handlers that it has run since. -/
def passesLabelCheck (counted : List Node) (handled : List (List String)) (req : NodeRequest) :
    Bool :=
  let quota := AssignHandlers.adjust (getLabelQuota P.labels counted) handled
  !AssignHandlers.labelsUnavailable (⟨(), 0, some quota⟩ : AssignHandlers.State Unit) req

/-- A request that passes the check is fulfilled if and only if there is a node to choose for
each type it names. -/
theorem accepted_fulfilled_iff {w : World} (atRest : AtRest w) (launcherId : String)
    (counted : List Node) (handled : List (List String)) :
    (passesLabelCheck P counted handled w.request = true →
        Fulfilled P w w.request (served P launcherId w)) ↔
      (passesLabelCheck P counted handled w.request = true → Satisfiable P w w.request) :=
  imp_congr_right fun _ => fulfilled_iff_satisfiable atRest launcherId

/-! ### Two nodes of one label -/

def examplePool : StaticPool where
  provider := { name := "static", supportedLabels := ["small"] }
  pool := { name := "main", labels := ["small"], maxServers := .inf, azs := [] }
  labels := ["small"]
  errorLabels := []
  registered := []
  host _ := some { hostKeyChecking := true, reachable := true }
  locked _ := false
  now := 0

def exampleNode : Node where
  state := .ready
  stateTime := 0
  type := ["small"]
  provider := some "static"
  pool := some "main"
  launcher := none
  allocatedTo := none
  tenantName := none
  requestor := none
  resources := none
  externalId := none

/-- A request for two nodes of one label, in a pool that has the free nodes of `ids`. -/
def exampleWorld (ids : List NodeId) : World where
  refs := ids.map NodeRef.cached
  object
    | .cached id => ⟨some id, exampleNode, false, false, false⟩
    | .own _ => ⟨none, exampleNode, false, false, false⟩
  stored _ := exampleNode
  request := {
    id := "100-1", state := .requested, declinedBy := [], nodeTypes := ["small", "small"]
    nodes := [], reuse := true, requestor := none, provider := none, relativePriority := 0
    tenantName := none }

theorem exampleWorld_atRest (ids : List NodeId) : AtRest (exampleWorld ids) where
  current o := by cases o <;> rfl
  numbered o mem := by
    obtain ⟨id, -, rfl⟩ := List.mem_map.mp mem
    exact nofun
  distinct o mem o' mem' same := by
    obtain ⟨id, -, rfl⟩ := List.mem_map.mp mem
    obtain ⟨id', -, rfl⟩ := List.mem_map.mp mem'
    cases same
    rfl

theorem accepted_fulfilled_iff_two :
    Fulfilled examplePool (exampleWorld [1, 2]) (exampleWorld [1, 2]).request
      (served examplePool "launcher" (exampleWorld [1, 2])) :=
  (accepted_fulfilled_iff examplePool (exampleWorld_atRest [1, 2]) "launcher"
    [exampleNode, exampleNode] []).mpr (fun _ => by decide) (by decide)

/-- One free node lets the request for two pass, which is released then. -/
theorem accepted_not_fulfilled :
    AtRest (exampleWorld [1]) ∧
      passesLabelCheck examplePool [exampleNode] [] (exampleWorld [1]).request = true ∧
      ¬ Fulfilled examplePool (exampleWorld [1]) (exampleWorld [1]).request
        (served examplePool "launcher" (exampleWorld [1])) :=
  ⟨exampleWorld_atRest [1], by decide, fun h =>
    absurd ((fulfilled_iff_satisfiable (exampleWorld_atRest [1]) "launcher").mp h) (by decide)⟩

end Nodepool.StaticAcceptance
