import Nodepool.Metastatic.Adapter

/-!
The requests for backing nodes of a `MetastaticAdapter`, and the records that wait for them.

A request is open from the moment it has been stored until the adapter reads it as
fulfilled or failed. Any call may fail, and requests are answered in any way.
-/

namespace Nodepool.Metastatic

open Effect Method MetastaticAdapter

structure RequestWorld where
  /-- the requests that the adapter has stored -/
  submitted : List String
  /-- the requests that the adapter has read as fulfilled or failed -/
  seen : List String
deriving DecidableEq

namespace RequestWorld

def Open (w : RequestWorld) (r : String) : Prop := r ∈ w.submitted ∧ r ∉ w.seen

instance (w : RequestWorld) (r : String) : Decidable (w.Open r) :=
  inferInstanceAs (Decidable (_ ∧ _))

def see (w : RequestWorld) (r : String) : RequestWorld := { w with seen := r :: w.seen }

/-- What a call does to the requests. ZooKeeper numbers requests, so their ids are new. The
time can always be read. -/
def next (w : RequestWorld) : (c : AdapterCall) → AdapterSig.Reply c → RequestWorld → Prop
  | .time, .error _, _ => False
  | .storeNodeRequest _ _, .ok r, w' =>
      r ∉ w.submitted ∧ w' = { w with submitted := r :: w.submitted }
  | .getNodeRequest _, .ok (some request), w' =>
      w' = if request.state = .failed ∨ request.state = .fulfilled then w.see request.id else w
  | _, _, w' => w' = w

end RequestWorld

inductive AdapterOp where
  | allocateBackingNode (label : MetastaticLabel) (nodeId : NodeId)
  | deallocateBackingNode (nodeId : NodeId)
  | listResources (now : Nat)
  | notifyNodescanFailure (label : String) (externalId : NodeId)
  | checkBackingNodeRequests

def AdapterOp.body (provider : Provider) : AdapterOp → AdapterM Unit
  | .allocateBackingNode label nodeId => do
      let _ ← MetastaticAdapter.allocateBackingNode provider label nodeId
      pure ()
  | .deallocateBackingNode nodeId => MetastaticAdapter.deallocateBackingNode provider nodeId
  | .listResources now => MetastaticAdapter.listResources provider now
  | .notifyNodescanFailure label externalId =>
      MetastaticAdapter.notifyNodescanFailure provider label externalId
  | .checkBackingNodeRequests => MetastaticAdapter.checkBackingNodeRequests provider

/-- Each method holds the allocation lock. -/
abbrev adapterSerial (provider : Provider) : Serial AdapterSig RequestWorld MetastaticAdapter where
  Op := AdapterOp
  body := AdapterOp.body provider
  next := RequestWorld.next

namespace MetastaticAdapter

/-- An adapter that has not been initialised. -/
def new : MetastaticAdapter := ⟨fun _ => .new "" 0 0 0, 0, [], false⟩

/-- A record that `listResources` releases. -/
def Idle (provider : Provider) (now : Nat) (bnr : BackingNodeRecord) : Bool :=
  (bnr.aged (provider.label bnr.labelName) now).isIdle (provider.label bnr.labelName) now

/-- No record is released that waits for an open request. -/
def SparesOpen (provider : Provider) (a : MetastaticAdapter) (w : RequestWorld) :
    AdapterOp → Prop
  | .listResources now => ∀ i ∈ a.refs, ∀ r, (a.record i).requestId = some r → w.Open r →
      Idle provider now (a.record i) = false
  | _ => True

/-- What there is to say about records and their requests. -/
structure Requests where
  refs : List Nat
  objects : Nat
  request : Nat → Option String
  performedInit : Bool

def requests (a : MetastaticAdapter) : Requests :=
  ⟨a.refs, a.objects, fun i => (a.record i).requestId, a.performedInit⟩

structure Tracked (q : Requests) (w : RequestWorld) : Prop where
  nodup : q.refs.Nodup
  made : ∀ i ∈ q.refs, i < q.objects
  submitted : ∀ i ∈ q.refs, ∀ r, q.request i = some r → r ∈ w.submitted
  unique : ∀ i ∈ q.refs, ∀ j ∈ q.refs, ∀ r,
    q.request i = some r → q.request j = some r → i = j
  tracked : ∀ r, w.Open r → ∃ i ∈ q.refs, q.request i = some r
  initial : q.performedInit = false → ∀ i, q.request i = none

variable {provider : Provider} {a : MetastaticAdapter} {w : RequestWorld} {q : Requests}
  {i j : Nat} {r label : String} {records : List (String × List Nat)}

/-! ### Lists of records -/

theorem perm_appendRef :
    List.Perm ((appendRef label i records).flatMap (·.2)) (i :: records.flatMap (·.2)) := by
  induction records with
  | nil => exact .refl _
  | cons entry rest ih =>
      obtain ⟨l, is⟩ := entry
      unfold appendRef
      split
      · simp only [List.flatMap_cons, List.append_assoc]
        exact List.perm_middle
      · simp only [List.flatMap_cons]
        exact (ih.append_left is).trans List.perm_middle

theorem sublist_removeRef :
    List.Sublist ((removeRef label i records).flatMap (·.2)) (records.flatMap (·.2)) := by
  induction records with
  | nil => exact .refl _
  | cons entry rest ih =>
      simp only [removeRef, List.map_cons, List.flatMap_cons]
      refine List.Sublist.append ?_ ih
      split
      · exact List.erase_sublist
      · exact .refl _

theorem mem_removeRef (hj : j ∈ records.flatMap (·.2)) (ne : j ≠ i) :
    j ∈ (removeRef label i records).flatMap (·.2) := by
  obtain ⟨entry, mem, hj⟩ := List.mem_flatMap.mp hj
  refine List.mem_flatMap.mpr ⟨_, List.mem_map_of_mem mem, ?_⟩
  split
  · exact (List.mem_erase_of_ne ne).mpr hj
  · exact hj

/-! ### Records and requests -/

/-- A record is made for a new request. -/
theorem Tracked.add (h : Tracked q w) (init : q.performedInit = true) (fresh : r ∉ w.submitted)
    {refs : List Nat} (perm : refs.Perm (q.objects :: q.refs)) :
    Tracked ⟨refs, q.objects + 1, Function.update q.request q.objects (some r), q.performedInit⟩
      { w with submitted := r :: w.submitted } := by
  have old : ∀ i ∈ q.refs, i ≠ q.objects := fun i hi => Nat.ne_of_lt (h.made i hi)
  have cases : ∀ i, i ∈ refs → i = q.objects ∨ i ∈ q.refs := fun i hi =>
    List.mem_cons.mp (perm.mem_iff.mp hi)
  refine ⟨?_, ?_, ?_, ?_, ?_, ?_⟩
  · exact perm.nodup_iff.mpr (List.nodup_cons.mpr ⟨fun hi => old _ hi rfl, h.nodup⟩)
  · intro i hi
    rcases cases i hi with rfl | hi
    · exact Nat.lt_succ_self _
    · exact Nat.lt_succ_of_lt (h.made i hi)
  · intro i hi s hs
    rcases cases i hi with rfl | hi
    · simp only [Function.update_self, Option.some.injEq] at hs
      exact hs ▸ List.mem_cons_self
    · simp only [Function.update_of_ne (old i hi)] at hs
      exact List.mem_cons_of_mem _ (h.submitted i hi s hs)
  · intro i hi j hj s hs hs'
    rcases cases i hi with rfl | hi <;> rcases cases j hj with rfl | hj
    · rfl
    · simp only [Function.update_self, Option.some.injEq, Function.update_of_ne (old j hj)]
        at hs hs'
      exact absurd (hs ▸ h.submitted j hj s hs') fresh
    · simp only [Function.update_self, Option.some.injEq, Function.update_of_ne (old i hi)]
        at hs hs'
      exact absurd (hs' ▸ h.submitted i hi s hs) fresh
    · simp only [Function.update_of_ne (old i hi), Function.update_of_ne (old j hj)] at hs hs'
      exact h.unique i hi j hj s hs hs'
  · rintro s ⟨hs, unseen⟩
    rcases List.mem_cons.mp hs with rfl | hs
    · exact ⟨q.objects, perm.mem_iff.mpr List.mem_cons_self, by simp⟩
    · obtain ⟨i, hi, hr⟩ := h.tracked s ⟨hs, unseen⟩
      refine ⟨i, perm.mem_iff.mpr (List.mem_cons_of_mem _ hi), ?_⟩
      simp only [Function.update_of_ne (old i hi)]
      exact hr
  · intro hf
    rw [init] at hf
    cases hf

/-- A record without a request is made. -/
theorem Tracked.addIdle (h : Tracked q w) {refs : List Nat} (perm : refs.Perm (q.objects :: q.refs))
    {request : Nat → Option String} (new : request q.objects = none)
    (same : ∀ i, i ≠ q.objects → request i = q.request i) :
    Tracked ⟨refs, q.objects + 1, request, q.performedInit⟩ w := by
  have old : ∀ i ∈ q.refs, i ≠ q.objects := fun i hi => Nat.ne_of_lt (h.made i hi)
  have requested : ∀ i ∈ refs, ∀ s, request i = some s → i ∈ q.refs ∧ q.request i = some s := by
    intro i hi s hs
    rcases List.mem_cons.mp (perm.mem_iff.mp hi) with rfl | hi
    · rw [new] at hs
      cases hs
    · exact ⟨hi, (same i (old i hi)).symm.trans hs⟩
  refine ⟨?_, ?_, ?_, ?_, ?_, ?_⟩
  · exact perm.nodup_iff.mpr (List.nodup_cons.mpr ⟨fun hi => old _ hi rfl, h.nodup⟩)
  · intro i hi
    rcases List.mem_cons.mp (perm.mem_iff.mp hi) with rfl | hi
    · exact Nat.lt_succ_self _
    · exact Nat.lt_succ_of_lt (h.made i hi)
  · intro i hi s hs
    obtain ⟨hi, hs⟩ := requested i hi s hs
    exact h.submitted i hi s hs
  · intro i hi j hj s hs hs'
    obtain ⟨hi, hs⟩ := requested i hi s hs
    obtain ⟨hj, hs'⟩ := requested j hj s hs'
    exact h.unique i hi j hj s hs hs'
  · intro s hs
    obtain ⟨i, hi, hr⟩ := h.tracked s hs
    exact ⟨i, perm.mem_iff.mpr (List.mem_cons_of_mem _ hi), (same i (old i hi)).trans hr⟩
  · intro hf i
    by_cases hi : i = q.objects
    · subst hi
      exact new
    · exact (same i hi).trans (h.initial hf i)

/-- A record is removed whose request is not open. -/
theorem Tracked.remove (h : Tracked q w) {refs : List Nat} (sub : List.Sublist refs q.refs)
    (kept : ∀ j ∈ q.refs, j ≠ i → j ∈ refs)
    (closed : i ∈ q.refs → ∀ r, q.request i = some r → ¬ w.Open r) :
    Tracked { q with refs := refs } w where
  nodup := h.nodup.sublist sub
  made i hi := h.made i (sub.subset hi)
  submitted i hi := h.submitted i (sub.subset hi)
  unique i hi j hj := h.unique i (sub.subset hi) j (sub.subset hj)
  tracked r hr := by
    obtain ⟨j, hj, hs⟩ := h.tracked r hr
    refine ⟨j, kept j hj ?_, hs⟩
    rintro rfl
    exact closed hj r hs hr
  initial := h.initial

theorem Tracked.see (h : Tracked q w) : Tracked q (w.see r) where
  nodup := h.nodup
  made := h.made
  submitted := h.submitted
  unique := h.unique
  tracked s hs := h.tracked s ⟨hs.1, fun hr => hs.2 (List.mem_cons_of_mem _ hr)⟩
  initial := h.initial

/-- A record no longer waits for a request that has been seen. -/
theorem Tracked.clear (h : Tracked q w) (seen : r ∈ w.seen)
    (waited : q.request i = some r ∨ q.request i = none) :
    Tracked { q with request := Function.update q.request i none } w := by
  have cases : ∀ j s, Function.update q.request i none j = some s → q.request j = some s := by
    intro j s hs
    by_cases hj : j = i
    · subst hj
      simp only [Function.update_self] at hs
      cases hs
    · rwa [Function.update_of_ne hj] at hs
  refine ⟨h.nodup, h.made, fun j hj s hs => h.submitted j hj s (cases j s hs),
    fun j hj k hk s hs hs' => h.unique j hj k hk s (cases j s hs) (cases k s hs'), ?_, ?_⟩
  · intro s hs
    obtain ⟨j, hj, hr⟩ := h.tracked s hs
    refine ⟨j, hj, ?_⟩
    have ne : j ≠ i := by
      rintro rfl
      rcases waited with waited | waited
      · rw [waited] at hr
        cases hr
        exact hs.2 seen
      · rw [waited] at hr
        cases hr
    change Function.update q.request i none j = some s
    rwa [Function.update_of_ne ne]
  · intro hf j
    change Function.update q.request i none j = none
    by_cases hj : j = i
    · subst hj
      exact Function.update_self ..
    · rw [Function.update_of_ne hj]
      exact h.initial hf j

/-! ### Calls and attributes -/

/-- The calls that neither store nor read a request. -/
def Quiet : AdapterCall → Prop
  | .storeNodeRequest _ _ | .getNodeRequest _ => False
  | _ => True

theorem next_quiet {c : AdapterCall} {reply : AdapterSig.Reply c} {w w' : RequestWorld}
    (hc : Quiet c) (h : RequestWorld.next w c reply w') : w' = w := by
  cases c with
  | storeNodeRequest _ _ => exact hc.elim
  | getNodeRequest _ => exact hc.elim
  | time =>
      cases reply with
      | error e => exact h.elim
      | ok t => exact h
  | _ => exact h

abbrev ctx (provider : Provider) : Context AdapterSig RequestWorld := (adapterSerial provider).ctx

theorem stable_eq (w : RequestWorld) : Stable (ctx provider) Quiet (· = w) :=
  .alone fun hc hw h => (next_quiet hc h).trans hw

/-- What leaves requests and lists alone keeps every assertion about them. -/
theorem keeps_of_within {α : Type} {m : AdapterM α} (h : Within Quiet requests m)
    (I : Requests → RequestWorld → Prop) :
    Keeps (ctx provider) (fun a w => I (requests a) w) m := by
  intro a w hI
  refine wp_mono (h.wp (stable_eq w) rfl) ?_ ?_
  · rintro _ a' w' ⟨e, rfl⟩
    rwa [e]
  · rintro _ a' w' ⟨e, rfl⟩
    rwa [e]

/-- One call that is quiet. -/
theorem quiet_wp {c : AdapterCall} (hc : Quiet c)
    {Q : c.Val → MetastaticAdapter → RequestWorld → Prop}
    {E : Unit → MetastaticAdapter → RequestWorld → Prop} (normal : ∀ v, Q v a w)
    (exceptional : E () a w) : (call c).wp (ctx provider) Q E a w := by
  refine (stable_eq w).wp_perform hc rfl ?_ ?_
  · rintro v w' rfl
    exact normal v
  · rintro _ w' rfl
    exact exceptional

theorem time_wp {Q : Nat → MetastaticAdapter → RequestWorld → Prop}
    {E : Unit → MetastaticAdapter → RequestWorld → Prop} (h : ∀ t, Q t a w) :
    (call .time).wp (ctx provider) Q E a w := by
  refine wp_perform.mpr ?_
  rintro _ rfl -
  refine ⟨trivial, ?_, fun _ _ step => step.elim⟩
  rintro t _ rfl -
  exact h t

theorem requests_setRecord {bnr : BackingNodeRecord} :
    requests (a.setRecord i bnr) =
      { requests a with request := Function.update (requests a).request i bnr.requestId } := by
  simp only [requests, setRecord, refs, Requests.mk.injEq, true_and, and_true]
  funext j
  by_cases hj : j = i
  · subst hj
    simp
  · simp [Function.update_of_ne hj]

theorem requests_setRecord_same {bnr : BackingNodeRecord}
    (same : bnr.requestId = (a.record i).requestId) :
    requests (a.setRecord i bnr) = requests a := by
  rw [requests_setRecord, same]
  exact congrArg (fun request => { requests a with request := request })
    (Function.update_eq_self i (requests a).request)

theorem modifyRecord_within {f : BackingNodeRecord → BackingNodeRecord}
    (same : ∀ bnr, (f bnr).requestId = bnr.requestId) : Within Quiet requests (modifyRecord i f) :=
  .assign fun _ => requests_setRecord_same (same _)

theorem allocateSlot_requestId {bnr bnr' : BackingNodeRecord} {nodeId : NodeId}
    {slotId : Option Nat} {slot : Nat} (h : bnr.allocateSlot nodeId slotId = some (bnr', slot)) :
    bnr'.requestId = bnr.requestId := by
  obtain ⟨idx, -, taken⟩ := Option.bind_eq_some_iff.mp h
  split at taken
  · cases taken
    rfl
  · cases taken

/-- A slot is taken, or it raises. -/
theorem allocateSlot_wp {nodeId : NodeId} {slotId : Option Nat}
    {I : Requests → RequestWorld → Prop} (h : I (requests a) w) :
    (allocateSlot i nodeId slotId).wp (ctx provider) (fun _ a w => I (requests a) w)
      (fun _ a w => I (requests a) w) a w := by
  refine wp_bind.mpr (wp_self.mpr ?_)
  cases hs : (a.record i).allocateSlot nodeId slotId with
  | none => exact h
  | some taken =>
      have same := requests_setRecord_same (a := a) (i := i) (allocateSlot_requestId hs)
      change I (requests (a.setRecord i taken.1)) w
      rwa [same]

theorem deallocateBackingNodeInner_within {nodeId : NodeId} :
    Within Quiet requests (deallocateBackingNodeInner nodeId) := by
  refine .bind .self fun a => ?_
  split
  · exact .pure
  · exact .bind (.perform trivial) fun _ => modifyRecord_within fun _ => rfl

theorem notifyNodescanFailure_within {externalId : NodeId} :
    Within Quiet requests (MetastaticAdapter.notifyNodescanFailure provider label externalId) := by
  refine .bind .self fun a => ?_
  split
  · exact .pure
  · refine .bind (modifyRecord_within fun _ => rfl) fun _ => ?_
    refine .bind (.perform (S := AdapterSig) (c := .getNode _) trivial) fun _ => ?_
    exact .bind (.ite .pure .throw) fun _ => .bind .self fun _ =>
      .perform (S := AdapterSig) (c := .storeNode _ _ _) trivial

/-! ### Initialisation -/

/-- The adapter with one more record. -/
def made (a : MetastaticAdapter) (label : String) (bnr : BackingNodeRecord) : MetastaticAdapter :=
  { a.setRecord a.objects bnr with
    objects := a.objects + 1
    backingNodeRecords := appendRef label a.objects a.backingNodeRecords }

theorem requests_made {bnr : BackingNodeRecord} :
    requests (a.made label bnr) =
      ⟨(appendRef label a.objects a.backingNodeRecords).flatMap (·.2), (requests a).objects + 1,
        Function.update (requests a).request a.objects bnr.requestId,
        (requests a).performedInit⟩ := by
  have set : requests (a.setRecord a.objects bnr) = _ := requests_setRecord
  exact congrArg (fun request : Nat → Option String => (⟨_, _, request, _⟩ : Requests))
    (congrArg Requests.request set)

/-- A record is made, given what is known of it, and added to the list of its label. -/
theorem makeRecord_wp {α : Type} {name : String} {slots : Nat}
    {f : BackingNodeRecord → BackingNodeRecord} {m : Nat → AdapterM α}
    {Q : α → MetastaticAdapter → RequestWorld → Prop}
    {E : Unit → MetastaticAdapter → RequestWorld → Prop}
    (h : ∀ bnr, bnr.requestId = none →
      (m a.objects).wp (ctx provider) Q E (a.made label (f bnr)) w) :
    (newRecord name slots >>= fun i => modifyRecord i f >>= fun _ =>
      addBackingNode label i >>= fun _ => m i).wp (ctx provider) Q E a w := by
  refine wp_bind.mpr (wp_bind.mpr (time_wp fun launched =>
    wp_bind.mpr (time_wp fun lastUsed => ?_)))
  have result := h (.new name slots launched lastUsed) rfl
  simp only [wp_bind, wp_self, wp_assign, wp_pure, modifyRecord, addBackingNode]
  simpa only [made, setRecord, Function.update_idem, Function.update_self] using result

/-- Nothing has been requested yet. -/
def Uninitialised (a : MetastaticAdapter) (w : RequestWorld) : Prop :=
  Tracked (requests a) w ∧ a.performedInit = false

theorem Uninitialised.made (h : Uninitialised a w) {bnr : BackingNodeRecord}
    (new : bnr.requestId = none) : Uninitialised (a.made label bnr) w := by
  refine ⟨?_, h.2⟩
  rw [requests_made, new]
  exact h.1.addIdle perm_appendRef (Function.update_self ..) fun i hi => Function.update_of_ne hi ..

theorem findBackingNode_wp {map : List (NodeId × Nat)} {node : NodeData} (h : Uninitialised a w) :
    (findBackingNode provider map node).wp (ctx provider) (fun _ => Uninitialised)
      (fun _ => Uninitialised) a w := by
  unfold findBackingNode
  split
  · exact h
  · split
    · exact h
    · refine wp_bind.mpr (quiet_wp (c := .getNodeLockContenders _) trivial (fun contenders => ?_) h)
      split
      · exact h
      · exact makeRecord_wp fun bnr new => h.made new

theorem assignNode_wp {map : List (NodeId × Nat)} {node : NodeData} (h : Uninitialised a w) :
    (assignNode provider map node).wp (ctx provider) (fun _ => Uninitialised)
      (fun _ => Uninitialised) a w := by
  unfold assignNode
  split
  · exact h
  · split
    · exact h
    · split
      · exact h
      · exact wp_bind.mpr (allocateSlot_wp
          (I := fun q w => Tracked q w ∧ q.performedInit = false) h)

/-- After the initialisation either nothing has changed, or nothing has been requested. -/
theorem init_wp (h : Tracked (requests a) w) :
    (MetastaticAdapter.init provider).wp (ctx provider)
      (fun _ a' w' => Tracked (requests a') w' ∧ a'.performedInit = true ∧
        (a' = a ∧ w' = w ∨ ∀ i, (a'.record i).requestId = none))
      (fun _ a' w' => Tracked (requests a') w') a w := by
  refine wp_bind.mpr (wp_self.mpr ?_)
  unfold when
  split
  · rename_i performed
    have start : Uninitialised a w := ⟨h, performed⟩
    refine wp_bind.mpr (quiet_wp (c := .nodeIterator) trivial (fun nodes => ?_) h)
    refine wp_bind.mpr (wp_mono (wp_fold (J := fun _ => Uninitialised)
      (fun _ _ _ _ _ h => findBackingNode_wp h) start) (fun map a₁ w₁ h₁ => ?_) fun _ _ _ h => h.1)
    refine wp_bind.mpr (quiet_wp (c := .nodeIterator) trivial (fun nodes => ?_) h₁.1)
    have loop : Keeps (ctx provider) Uninitialised (forEach nodes (assignNode provider map)) :=
      .forEach (fun _ _ _ h => assignNode_wp h) nodes
    refine wp_bind.mpr (wp_mono (loop a₁ w₁ h₁) (fun _ a₂ w₂ h₂ => ?_) fun _ _ _ h => h.1)
    have requested := h₂.1.initial h₂.2
    exact ⟨{ h₂.1 with initial := fun _ => requested }, rfl, Or.inr requested⟩
  · rename_i performed
    exact ⟨h, Bool.eq_true_of_not_eq_false performed, Or.inl ⟨rfl, rfl⟩⟩

/-! ### Allocation -/

theorem findRecord_wp {l : MetastaticLabel} (h : Tracked (requests a) w)
    (init : a.performedInit = true) :
    (findRecord provider l).wp (ctx provider) (fun _ a w => Tracked (requests a) w)
      (fun _ a w => Tracked (requests a) w) a w := by
  refine wp_bind.mpr (wp_self.mpr ?_)
  split
  · exact h
  · refine wp_bind.mpr (wp_perform.mpr ?_)
    rintro _ rfl -
    refine ⟨trivial, ?_, ?_⟩
    · rintro r w' ⟨fresh, rfl⟩ -
      refine makeRecord_wp fun bnr _ => ?_
      change Tracked (requests (a.made l.name { bnr with requestId := some r })) _
      rw [requests_made]
      exact h.add init fresh perm_appendRef
    · rintro e w' rfl -
      exact h

theorem allocateBackingNode_wp {l : MetastaticLabel} {nodeId : NodeId}
    (h : Tracked (requests a) w) :
    (MetastaticAdapter.allocateBackingNode provider l nodeId).wp (ctx provider)
      (fun _ a w => Tracked (requests a) w) (fun _ a w => Tracked (requests a) w) a w := by
  refine wp_bind.mpr (wp_mono (init_wp h) ?_ fun _ _ _ h => h)
  rintro _ a₁ w₁ ⟨h₁, init₁, -⟩
  have dealloc : Keeps (ctx provider)
      (fun a w => Tracked (requests a) w ∧ (requests a).performedInit = true)
      (deallocateBackingNodeInner nodeId) :=
    keeps_of_within deallocateBackingNodeInner_within fun q w =>
      Tracked q w ∧ q.performedInit = true
  refine wp_bind.mpr (wp_mono (dealloc a₁ w₁ ⟨h₁, init₁⟩) ?_ fun _ _ _ h => h.1)
  rintro _ a₂ w₂ ⟨h₂, init₂⟩
  refine wp_bind.mpr (wp_mono (findRecord_wp h₂ init₂) (fun i a₃ w₃ h₃ => ?_) fun _ _ _ h => h)
  exact wp_bind.mpr (allocateSlot_wp h₃)

/-! ### Removal of records -/

theorem remove_tracked (h : Tracked (requests a) w)
    (closed : i ∈ a.refs → ∀ r, (a.record i).requestId = some r → ¬ w.Open r) :
    Tracked (requests { a with
      backingNodeRecords := removeRef label i a.backingNodeRecords }) w :=
  h.remove sublist_removeRef (fun _ hj ne => mem_removeRef hj ne) closed

theorem aged_aged {bnr : BackingNodeRecord} {config : Option MetastaticLabel} {now : Nat} :
    (bnr.aged config now).aged config now = bnr.aged config now := by
  unfold BackingNodeRecord.aged
  by_cases old : bnr.isTooOld config now = true
  · rw [if_pos old]
    exact ite_id _
  · rw [if_neg old, if_neg old]

theorem aged_requestId {bnr : BackingNodeRecord} {config : Option MetastaticLabel} {now : Nat} :
    (bnr.aged config now).requestId = bnr.requestId := by
  unfold BackingNodeRecord.aged
  split <;> rfl

theorem aged_labelName {bnr : BackingNodeRecord} {config : Option MetastaticLabel} {now : Nat} :
    (bnr.aged config now).labelName = bnr.labelName := by
  unfold BackingNodeRecord.aged
  split <;> rfl

/-- No record that waits for an open request is idle. -/
def Spares (provider : Provider) (now : Nat) (a : MetastaticAdapter) (w : RequestWorld) : Prop :=
  Tracked (requests a) w ∧ SparesOpen provider a w (.listResources now)

theorem Spares.remove {now : Nat} (label : String) (h : Spares provider now a w)
    (closed : i ∈ a.refs → ∀ r, (a.record i).requestId = some r → ¬ w.Open r) :
    Spares provider now { a with
      backingNodeRecords := removeRef label i a.backingNodeRecords } w :=
  ⟨remove_tracked h.1 closed, fun j hj => h.2 j (sublist_removeRef.subset hj)⟩

theorem Spares.setRecord {now : Nat} (h : Spares provider now a w) {bnr : BackingNodeRecord}
    (same : bnr.requestId = (a.record i).requestId)
    (spared : i ∈ a.refs → ∀ r, (a.record i).requestId = some r → w.Open r →
      Idle provider now bnr = false) :
    Spares provider now (a.setRecord i bnr) w := by
  refine ⟨by rw [requests_setRecord_same same]; exact h.1, fun j hj r hr ho => ?_⟩
  by_cases hji : j = i
  · subst hji
    simp only [MetastaticAdapter.setRecord, Function.update_self] at hr ⊢
    exact spared hj r (same ▸ hr) ho
  · simp only [MetastaticAdapter.setRecord, Function.update_of_ne hji] at hr ⊢
    exact h.2 j hj r hr ho

theorem releaseIfIdle_wp {now : Nat} (h : Spares provider now a w) :
    (releaseIfIdle provider now label i).wp (ctx provider) (fun _ => Spares provider now)
      (fun _ a w => Tracked (requests a) w) a w := by
  have aged : Spares provider now
      (a.setRecord i ((a.record i).aged (provider.label (a.record i).labelName) now)) w := by
    refine h.setRecord aged_requestId fun hi r hr ho => ?_
    unfold Idle
    rw [aged_labelName, aged_aged]
    exact h.2 i hi r hr ho
  refine wp_bind.mpr (wp_assign.mpr (wp_bind.mpr (wp_self.mpr ?_)))
  have fixed : ∀ bnr,
      (a.setRecord i (BackingNodeRecord.aged bnr (provider.label bnr.labelName) now)).record i =
        BackingNodeRecord.aged bnr (provider.label bnr.labelName) now :=
    fun _ => Function.update_self ..
  have idle : ∀ bnr : BackingNodeRecord,
      bnr = (a.record i).aged (provider.label (a.record i).labelName) now →
      bnr.isIdle (provider.label bnr.labelName) now = Idle provider now bnr := by
    rintro _ rfl
    unfold Idle
    rw [aged_labelName, aged_aged]
  have record := idle _ (fixed (a.record i))
  generalize a.setRecord i ((a.record i).aged (provider.label (a.record i).labelName) now) = a₁
    at aged record ⊢
  unfold when
  split
  · rename_i released
    rw [record] at released
    have closed : i ∈ a₁.refs → ∀ r, (a₁.record i).requestId = some r → ¬ w.Open r := by
      intro hi r hr ho
      rw [aged.2 i hi r hr ho] at released
      cases released
    have failed : Spares provider now (a₁.setRecord i { a₁.record i with failed := true }) w :=
      aged.setRecord rfl fun hi r hr ho => absurd ho (closed hi r hr)
    have failedClosed : i ∈ a₁.refs → ∀ r,
        ((a₁.setRecord i { a₁.record i with failed := true }).record i).requestId = some r →
          ¬ w.Open r := by
      intro hi r hr
      simp only [MetastaticAdapter.setRecord, Function.update_self] at hr
      exact closed hi r hr
    have removed := failed.remove label failedClosed
    refine wp_bind.mpr (wp_assign.mpr (wp_bind.mpr (quiet_wp (c := .getNode _) trivial
      (fun node => wp_bind.mpr ?_) failed.1)))
    split
    · refine wp_bind.mpr (quiet_wp (c := .storeNode _ _ _) trivial (fun _ => ?_) failed.1)
      exact quiet_wp (c := .forceUnlockNode _) trivial (fun _ => removed) failed.1
    · exact removed
  · exact aged

theorem listResources_wp {now : Nat} (h : Spares provider now a w) :
    (MetastaticAdapter.listResources provider now).wp (ctx provider)
      (fun _ a w => Tracked (requests a) w) (fun _ a w => Tracked (requests a) w) a w := by
  refine wp_bind.mpr (wp_mono (init_wp h.1) ?_ fun _ _ _ h => h)
  rintro _ a₁ w₁ ⟨h₁, -, unchanged⟩
  have start : Spares provider now a₁ w₁ := by
    rcases unchanged with ⟨rfl, rfl⟩ | none
    · exact h
    · refine ⟨h₁, fun i _ r hr => ?_⟩
      rw [none i] at hr
      cases hr
  refine wp_bind.mpr (wp_self.mpr ?_)
  have round : ∀ label refs a w, Spares provider now a w →
      (forEach refs (releaseIfIdle provider now label)).wp (ctx provider)
        (fun _ => Spares provider now) (fun _ a w => Tracked (requests a) w) a w :=
    fun label refs a w h => wp_forEach (fun i _ _ h => releaseIfIdle_wp h) h
  exact wp_mono (wp_forEach (fun entry _ _ h => round entry.1 entry.2 _ _ h) start)
    (fun _ _ _ h => h.1) fun _ _ _ h => h

/-! ### Polling the requests -/

/-- Each of the records waits for its request still, or has got its node. -/
def Waiting (waiting : List (String × Nat)) (a : MetastaticAdapter) (w : RequestWorld) : Prop :=
  Tracked (requests a) w ∧ ∀ entry ∈ waiting,
    (a.record entry.2).requestId = some entry.1 ∨ (a.record entry.2).requestId = none

variable {waiting : List (String × Nat)}

theorem waitingRequests_waiting (h : Tracked (requests a) w) : Waiting a.waitingRequests a w := by
  refine ⟨h, fun entry hentry => Or.inl ?_⟩
  obtain ⟨i, -, hi⟩ := List.mem_filterMap.mp (List.mem_reverse.mp hentry)
  obtain ⟨r, hr, hi⟩ := Option.bind_eq_some_iff.mp hi
  split at hi
  · cases hi
    exact hr
  · cases hi

theorem Waiting.setRecord_same (h : Waiting waiting a w) {bnr : BackingNodeRecord}
    (same : bnr.requestId = (a.record i).requestId) : Waiting waiting (a.setRecord i bnr) w := by
  refine ⟨by rw [requests_setRecord_same same]; exact h.1, fun entry hentry => ?_⟩
  by_cases hi : entry.2 = i
  · have := h.2 entry hentry
    rw [hi] at this ⊢
    simp only [MetastaticAdapter.setRecord, Function.update_self]
    rwa [same]
  · simp only [MetastaticAdapter.setRecord, Function.update_of_ne hi]
    exact h.2 entry hentry

theorem dropRecords_keeps :
    Keeps (ctx provider) (fun a w => Waiting waiting a w ∧ r ∈ w.seen) (dropRecords r) := by
  refine .bind .self fun snapshot => .forEach (fun entry => .forEach (fun i => ?_) _) _
  intro a w h
  refine wp_bind.mpr (wp_self.mpr ?_)
  unfold when
  split
  · rename_i hr
    have failed : Waiting waiting (a.setRecord i { a.record i with failed := true }) w :=
      h.1.setRecord_same rfl
    refine wp_bind.mpr (wp_assign.mpr (wp_assign.mpr ⟨⟨remove_tracked failed.1 ?_, failed.2⟩, h.2⟩))
    intro _ s hs ho
    simp only [MetastaticAdapter.setRecord, Function.update_self] at hs
    rw [hr] at hs
    cases hs
    exact ho.2 h.2
  · exact h

theorem attachNode_wp {request : BackingRequest} (h : Waiting waiting a w)
    (seen : request.id ∈ w.seen) (mem : (request.id, i) ∈ waiting) :
    (attachNode provider request i).wp (ctx provider) (fun _ => Waiting waiting)
      (fun _ => Waiting waiting) a w := by
  unfold attachNode
  split
  · exact h
  · rename_i nodeId _ _
    refine wp_bind.mpr (quiet_wp (c := .getNode _) trivial (fun node => wp_bind.mpr ?_) h)
    unfold raiseIfNone
    split
    · refine wp_bind.mpr (quiet_wp (c := .lockNode _ _) trivial (fun _ => ?_) h)
      refine wp_bind.mpr (wp_self.mpr ?_)
      refine wp_bind.mpr (quiet_wp (c := .storeNode _ _ _) trivial (fun _ => ?_) h)
      refine wp_bind.mpr (quiet_wp (c := .deleteNodeRequest _) trivial (fun _ => ?_) h)
      refine ⟨?_, fun entry hentry => ?_⟩
      · change Tracked (requests (a.setRecord i
          { a.record i with requestId := none, nodeId := some nodeId })) w
        rw [requests_setRecord]
        exact h.1.clear seen (h.2 _ mem)
      · by_cases hi : entry.2 = i
        · simp only [hi, MetastaticAdapter.setRecord, Function.update_self]
          exact Or.inr trivial
        · simp only [MetastaticAdapter.setRecord, Function.update_of_ne hi]
          exact h.2 entry hentry
    · exact h

theorem mem_of_lookup {entries : List (String × Nat)} (h : entries.lookup r = some i) :
    (r, i) ∈ entries := by
  induction entries with
  | nil => cases h
  | cons entry rest ih =>
      obtain ⟨s, j⟩ := entry
      rw [List.lookup_cons] at h
      split at h
      · rename_i e
        cases h
        rw [eq_of_beq e]
        exact List.mem_cons_self
      · exact List.mem_cons_of_mem _ (ih h)

theorem checkRequest_wp (h : Waiting waiting a w) :
    (checkRequest provider waiting r).wp (ctx provider) (fun _ => Waiting waiting)
      (fun _ => Waiting waiting) a w := by
  refine wp_bind.mpr (wp_perform.mpr ?_)
  rintro _ rfl -
  refine ⟨trivial, ?_, ?_⟩
  · rintro found w₁ step -
    cases found with
    | none =>
        have same : w₁ = w := step
        subst same
        exact h
    | some request =>
        have step : w₁ = if request.state = .failed ∨ request.state = .fulfilled
          then w.see request.id else w := step
        have h₁ : Waiting waiting a w₁ := by
          rw [step]
          split
          · exact ⟨h.1.see, h.2⟩
          · exact h
        have seen : request.state = .failed ∨ request.state = .fulfilled →
          request.id ∈ w₁.seen := by
          intro answered
          rw [step, if_pos answered]
          exact List.mem_cons_self
        clear step
        simp only
        split
        · exact h₁
        · rename_i i found
          refine wp_bind.mpr (wp_mono (Q := fun _ a w => Waiting waiting a w ∧
            (request.state = .fulfilled → request.id ∈ w.seen)) ?_ ?_ fun _ _ _ h => h)
          · unfold when
            split
            · rename_i failed
              exact wp_mono (dropRecords_keeps _ _ ⟨h₁, seen (Or.inl failed)⟩)
                (fun _ _ _ h => ⟨h.1, fun _ => h.2⟩) fun _ _ _ h => h.1
            · exact ⟨h₁, fun fulfilled => seen (Or.inr fulfilled)⟩
          · rintro _ a₂ w₂ ⟨h₂, seen₂⟩
            unfold when
            split
            · rename_i fulfilled
              exact attachNode_wp h₂ (seen₂ fulfilled) (mem_of_lookup found)
            · exact h₂
  · rintro e _ rfl -
    exact h

theorem checkBackingNodeRequests_wp (h : Tracked (requests a) w) :
    (MetastaticAdapter.checkBackingNodeRequests provider).wp (ctx provider)
      (fun _ a w => Tracked (requests a) w) (fun _ a w => Tracked (requests a) w) a w := by
  refine wp_bind.mpr (wp_mono (init_wp h) ?_ fun _ _ _ h => h)
  rintro _ a₁ w₁ ⟨h₁, -, -⟩
  refine wp_bind.mpr (wp_self.mpr ?_)
  unfold when
  split
  · refine wp_bind.mpr (quiet_wp (c := .getNodeRequests) trivial (fun ids => ?_) h₁)
    have loop : Keeps (ctx provider) (Waiting a₁.waitingRequests)
        (forEach ids (checkRequest provider a₁.waitingRequests)) :=
      .forEach (fun _ _ _ h => checkRequest_wp h) ids
    exact wp_mono (loop a₁ w₁ (waitingRequests_waiting h₁)) (fun _ _ _ h => h.1) fun _ _ _ h => h.1
  · exact h₁

/-! ### Runs -/

theorem op_wp {op : AdapterOp} (h : Tracked (requests a) w) (spares : SparesOpen provider a w op) :
    (op.body provider).wp (ctx provider) (fun _ a w => Tracked (requests a) w)
      (fun _ a w => Tracked (requests a) w) a w := by
  cases op with
  | allocateBackingNode l nodeId => exact wp_bind.mpr (allocateBackingNode_wp h)
  | deallocateBackingNode nodeId =>
      refine wp_bind.mpr (wp_mono (init_wp h) (fun _ a₁ w₁ h₁ => ?_) fun _ _ _ h => h)
      exact keeps_of_within deallocateBackingNodeInner_within Tracked a₁ w₁ h₁.1
  | listResources now => exact listResources_wp ⟨h, spares⟩
  | notifyNodescanFailure label externalId =>
      exact keeps_of_within notifyNodescanFailure_within Tracked a w h
  | checkBackingNodeRequests => exact checkBackingNodeRequests_wp h

theorem tracked_new : Tracked (requests new) ⟨[], []⟩ where
  nodup := List.nodup_nil
  made _ hi := absurd hi List.not_mem_nil
  submitted _ hi := absurd hi List.not_mem_nil
  unique _ hi := absurd hi List.not_mem_nil
  tracked _ h := absurd h.1 List.not_mem_nil
  initial _ _ := rfl

/-- Each open request belongs to one record, and is in the lists once. -/
theorem one_record {a : MetastaticAdapter} {w : RequestWorld}
    (run : (adapterSerial provider).Run (SparesOpen provider) new ⟨[], []⟩ a w) {r : String}
    (h : w.Open r) : a.refs.countP (fun i => (a.record i).requestId = some r) = 1 := by
  have tracked : Tracked (requests a) w :=
    run.invariant (I := fun a w => Tracked (requests a) w) tracked_new fun _ _ _ => op_wp
  obtain ⟨i, hi, hr⟩ := tracked.tracked r h
  have only : ∀ j ∈ a.refs, decide ((a.record j).requestId = some r) = (j == i) := by
    intro j hj
    by_cases e : j = i
    · subst e
      rw [beq_self_eq_true]
      exact decide_eq_true hr
    · simp only [beq_eq_false_iff_ne.mpr e, decide_eq_false_iff_not]
      exact fun hs => e (tracked.unique j hj i hi r hs hr)
  rw [List.countP_congr fun j hj => by rw [only j hj]]
  exact List.count_eq_one_of_mem tracked.nodup hi

/-- A request is stored, and there are no nodes. -/
def exampleAnswer (w : RequestWorld) : (c : AdapterCall) → AdapterSig.Reply c × RequestWorld
  | .time => (.ok 0, w)
  | .nodeIterator => (.ok [], w)
  | .getNode _ => (.ok false, w)
  | .storeNodeRequest _ _ =>
      if "100-0000000000" ∈ w.submitted then (.error (), w)
      else (.ok "100-0000000000", { w with submitted := "100-0000000000" :: w.submitted })
  | _ => (.error (), w)

theorem exampleAnswer_next (w : RequestWorld) (c : AdapterCall) :
    w.next c (exampleAnswer w c).1 (exampleAnswer w c).2 := by
  cases c with
  | storeNodeRequest _ _ =>
      unfold exampleAnswer
      split
      · rfl
      · rename_i fresh
        exact ⟨fresh, rfl⟩
  | _ => exact rfl

def exampleLabel : MetastaticLabel := ⟨"small", "large", 2, 60, 0, none⟩

def exampleProvider : Provider := ⟨"meta", fun l => if l = "small" then some exampleLabel else none⟩

theorem sparesOpen_of_idle {now : Nat}
    (h : ∀ i ∈ a.refs, Idle provider now (a.record i) = false) :
    SparesOpen provider a w (.listResources now) :=
  fun i mem _ _ _ => h i mem

/-- A node is allocated, and `listResources` runs while it has a slot and again before its grace
time is over. -/
def exampleOps : List AdapterOp :=
  [.allocateBackingNode exampleLabel 7, .listResources 20, .deallocateBackingNode 7,
    .listResources 50]

theorem one_record_example :
    let run := Serial.replay (T := adapterSerial exampleProvider) exampleAnswer new ⟨[], []⟩
      exampleOps
    run.2.Open "100-0000000000" ∧
      run.1.refs.countP (fun i => (run.1.record i).requestId = some "100-0000000000") = 1 := by
  have stored : (Serial.replay (T := adapterSerial exampleProvider) exampleAnswer new ⟨[], []⟩
      exampleOps).2.Open "100-0000000000" := by decide
  have allowed : Serial.Allowed (T := adapterSerial exampleProvider) (SparesOpen exampleProvider)
      exampleAnswer new ⟨[], []⟩ exampleOps :=
    ⟨trivial, sparesOpen_of_idle (by decide), trivial, sparesOpen_of_idle (by decide), trivial⟩
  exact ⟨stored, one_record (Serial.replay_run_of_allowed exampleAnswer_next allowed) stored⟩

/-- The launch is aborted, and the record is released while its request is open. -/
theorem released_open :
    let run := Serial.replay (T := adapterSerial exampleProvider) exampleAnswer new ⟨[], []⟩
      [.allocateBackingNode exampleLabel 7, .deallocateBackingNode 7, .listResources 61]
    (adapterSerial exampleProvider).Run (fun _ _ _ => True) new ⟨[], []⟩ run.1 run.2 ∧
      run.2.Open "100-0000000000" ∧
      run.1.refs.countP (fun i => (run.1.record i).requestId = some "100-0000000000") ≠ 1 :=
  ⟨Serial.replay_run exampleAnswer_next fun _ _ _ _ => trivial, by decide, by decide⟩

end MetastaticAdapter

end Nodepool.Metastatic
