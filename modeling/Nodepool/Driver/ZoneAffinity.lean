import Nodepool.Driver.HandlerSystem
import Nodepool.Effect.Serial

/-!
`StateMachineHandler` of `nodepool/driver/statemachine.py`, as far as it groups the
nodes of a request in one availability zone.

The zone is chosen when it is first needed, and `startStateMachine` of a node reads it in
another thread, at any time from its launch on. So the record of a handler holds every
value that may have been read there: the value at the launch, and all later ones.
-/

namespace Nodepool

open Effect Method

/-- What the choice of a zone depends on. -/
structure ZoneSource where
  /-- `az` of a node object; `updateNodeFromInstance` writes it before the node gets READY -/
  az : NodeRef → Option String
  /-- `random.choice` picks by these numbers, one after another -/
  random : Nat → Nat
  /-- `getAZs` of the adapter at each of these choices -/
  getAZs : Nat → List String

/-- Attributes of `StateMachineHandler`, and what they have been used for. -/
structure Zones where
  chosenAz : Option String
  /-- how often `random.choice` has been called -/
  choices : Nat
  /-- the nodes that the handler was notified of -/
  reused : List NodeRef
  /-- what `startStateMachine` of a launched node can have read as the chosen zone -/
  passed : List (Option String)

namespace Zones

def init : Zones := ⟨none, 0, [], []⟩

/-- The nodes that have been launched already can read a new value too. -/
def choose (z : Zones) (zone : Option String) : Zones :=
  { z with
    chosenAz := zone
    passed := if z.passed = [] then [] else zone :: z.passed }

def chooseIn (z : Zones) (zone : String) : Zones :=
  { z.choose (some zone) with choices := z.choices + 1 }

end Zones

/-- `random.choice`, which raises `IndexError` for an empty sequence. -/
def randomChoice (number : Nat) (zones : List String) : Option String :=
  zones[number % zones.length]?

namespace ZoneAffinity

open NodeRequestHandler

variable (src : ZoneSource)

def checkReusableNode (o : NodeRef) : HandlerM Zones Bool := do
  let h ← self
  if truthy h.driver.chosenAz ∧ src.az o ≠ h.driver.chosenAz then pure false else pure true

/-- If no zone has been chosen yet, select the zone of this ready node. New nodes will
share it as well. -/
def nodeReusedNotification (o : NodeRef) : HandlerM Zones Unit := do
  assign fun h => { h with driver := { h.driver with reused := o :: h.driver.reused } }
  let h ← self
  when (¬ truthy h.driver.chosenAz ∧ truthy (src.az o)) (
    assign fun h => { h with driver := h.driver.choose (src.az o) })

/-- Select a zone if none was set from a selected, existing node. -/
def setNodeMetadata (_ : NodeRef) : HandlerM Zones Unit := do
  let h ← self
  if truthy h.driver.chosenAz then pure ()
  else do
    let pool ← pool
    let zones := if pool.azs ≠ [] then pool.azs else src.getAZs h.driver.choices
    match randomChoice (src.random h.driver.choices) zones with
    | none => throw .other
    | some zone => assign fun h => { h with driver := h.driver.chooseIn zone }

/-- `startStateMachine` of the new launcher is handed to another thread. -/
def launch (o : NodeRef) : HandlerM Zones Unit := do
  assign fun h => { h with
    driver := { h.driver with passed := h.driver.chosenAz :: h.driver.passed } }
  call (.launch o)

def driver : Driver Zones where
  imagesAvailable := call .imagesAvailable
  hasProviderQuota types := call (.hasProviderQuota types)
  hasRemainingQuota ntype := call (.hasRemainingQuota ntype)
  checkReusableNode := checkReusableNode src
  nodeReusedNotification := nodeReusedNotification src
  setNodeMetadata := setNodeMetadata src
  launch := launch
  launchesComplete := call .launchesComplete

def body : HandlerOp → HandlerM Zones Unit
  | .run => run (driver src)
  | .declineRequest => declineRequest
  | .poll => do
      let _ ← poll (driver src)
      pure ()

/-- A handler whose calls may return or raise anything, except that the pool has one of
the given configurations. -/
abbrev serial (configs : Set PoolConfig) : Serial LauncherSig Unit (Handler Zones) where
  Op := HandlerOp
  body := body src
  next _ c r _ :=
    match c, r with
    | .getPoolConfig, .ok (some pool) => pool ∈ configs
    | _, _ => True

/-! ### The invariant -/

/-- What the methods of `NodeRequestHandler` leave alone between two methods of the driver. -/
def placement (h : Handler Zones) : Zones × Option (Option PoolConfig) := (h.driver, h.pool)

/-- The zone is configured, or it is that of a reused node. -/
def Offered (configs : Set PoolConfig) (reused : List NodeRef) (zone : String) : Prop :=
  (∃ pool ∈ configs, zone ∈ pool.azs) ∨ ∃ o ∈ reused, src.az o = some zone

/-- Everything that has been placed so far is in the chosen zone. -/
structure Grouped (configs : Set PoolConfig) (k : Zones × Option (Option PoolConfig)) : Prop where
  pool : ∀ pool, k.2 = some (some pool) → pool ∈ configs
  chosen : ∀ zone, k.1.chosenAz = some zone → zone ≠ "" → Offered src configs k.1.reused zone
  reused : ∀ o ∈ k.1.reused, truthy (src.az o) → src.az o = k.1.chosenAz
  passed : ∀ zone ∈ k.1.passed, truthy zone ∧ zone = k.1.chosenAz

/-- A node that the handler may reuse. -/
def Reusable (o : NodeRef) (k : Zones × Option (Option PoolConfig)) : Prop :=
  truthy k.1.chosenAz → src.az o = k.1.chosenAz

def Chosen (k : Zones × Option (Option PoolConfig)) : Prop := truthy k.1.chosenAz = true

theorem grouped_init (configs : Set PoolConfig) (launcherId : String) (request : NodeRequest) :
    Grouped src configs (placement (Handler.init launcherId request Zones.init)) where
  pool _ h := nomatch h
  chosen _ h := nomatch h
  reused _ h := absurd h List.not_mem_nil
  passed _ h := absurd h List.not_mem_nil

theorem exists_of_truthy {text : Option String} (h : truthy text) :
    ∃ s, text = some s ∧ s ≠ "" := by
  cases text with
  | none => exact absurd h (by simp [truthy])
  | some s => exact ⟨s, rfl, by simpa [truthy] using h⟩

theorem truthy_some {s : String} (h : s ≠ "") : truthy (some s) = true := by
  simpa [truthy] using h

variable {src} {configs : Set PoolConfig}

/-- A node that fits is added to the reused ones, and chooses the zone if none is chosen. -/
theorem Grouped.reuse {z : Zones} {p : Option (Option PoolConfig)} {o : NodeRef}
    (h : Grouped src configs (z, p)) (ho : Reusable src o (z, p)) (hc : truthy z.chosenAz) :
    Grouped src configs ({ z with reused := o :: z.reused }, p) where
  pool := h.pool
  chosen zone hz hne := by
    rcases h.chosen zone hz hne with hp | ⟨o', ho', haz⟩
    · exact .inl hp
    · exact .inr ⟨o', List.mem_cons_of_mem o ho', haz⟩
  reused o' ho' haz := by
    rcases List.mem_cons.mp ho' with rfl | ho'
    · exact ho hc
    · exact h.reused o' ho' haz
  passed := h.passed

/-- As long as no zone is chosen, nothing has been launched, and no reused node has a zone. -/
theorem Grouped.unplaced {z : Zones} {p : Option (Option PoolConfig)}
    (h : Grouped src configs (z, p)) (hc : ¬ truthy z.chosenAz) :
    z.passed = [] ∧ ∀ o ∈ z.reused, ¬ truthy (src.az o) := by
  constructor
  · refine List.eq_nil_iff_forall_not_mem.mpr fun zone hzone => ?_
    obtain ⟨ht, heq⟩ := h.passed zone hzone
    rw [heq] at ht
    exact hc ht
  · intro o ho haz
    rw [h.reused o ho haz] at haz
    exact hc haz

theorem Grouped.reuse_without {z : Zones} {p : Option (Option PoolConfig)} {o : NodeRef}
    (h : Grouped src configs (z, p)) (hc : ¬ truthy z.chosenAz) (haz : ¬ truthy (src.az o)) :
    Grouped src configs ({ z with reused := o :: z.reused }, p) where
  pool := h.pool
  chosen zone hz hne := by
    rw [hz] at hc
    exact absurd (truthy_some hne) hc
  reused o' ho' haz' := by
    rcases List.mem_cons.mp ho' with rfl | ho'
    · exact absurd haz' haz
    · exact absurd haz' ((h.unplaced hc).2 o' ho')
  passed := h.passed

/-- Nothing has been placed before the first choice of a zone. -/
theorem Grouped.choose {z : Zones} {p : Option (Option PoolConfig)} {zone : String}
    {reused : List NodeRef} (h : Grouped src configs (z, p)) (hc : ¬ truthy z.chosenAz)
    (offered : Offered src configs reused zone)
    (hreused : ∀ o ∈ reused, truthy (src.az o) → src.az o = some zone) :
    Grouped src configs ({ z with reused := reused }.choose (some zone), p) where
  pool := h.pool
  chosen zone' hz _ := by
    obtain rfl : zone = zone' := by simpa [Zones.choose] using hz
    exact offered
  reused := hreused
  passed zone' hz := by
    simp [Zones.choose, (h.unplaced hc).1] at hz

theorem Grouped.launch {z : Zones} {p : Option (Option PoolConfig)}
    (h : Grouped src configs (z, p)) (hc : truthy z.chosenAz) :
    Grouped src configs ({ z with passed := z.chosenAz :: z.passed }, p) where
  pool := h.pool
  chosen := h.chosen
  reused := h.reused
  passed zone hz := by
    rcases List.mem_cons.mp hz with rfl | hz
    · exact ⟨hc, rfl⟩
    · exact h.passed zone hz

/-! ### Methods of the driver -/

/-- What a method leaves alone stays as it was found, whatever the calls return. -/
theorem keeps_of_within {α : Type} {B : Zones × Option (Option PoolConfig) → Prop}
    {m : HandlerM Zones α} (h : Within (fun _ => True) placement m) :
    Keeps (serial src configs).ctx (fun s _ => B (placement s)) m := by
  intro s w hB
  refine wp_mono (h.wp (B := fun _ => True) (Stable.alone fun _ _ _ => trivial) trivial) ?_ ?_
  · rintro _ s' _ ⟨same, -⟩
    rw [same]
    exact hB
  · rintro _ s' _ ⟨same, -⟩
    rw [same]
    exact hB

/-- The invariant as an assertion about a handler. -/
abbrev Placed (src : ZoneSource) (configs : Set PoolConfig) (s : Handler Zones) (_ : Unit) : Prop :=
  Grouped src configs (placement s)

variable {s : Handler Zones} {w : Unit}

theorem checkReusableNode_wp (o : NodeRef) (h : Placed src configs s w) :
    (checkReusableNode src o).wp (serial src configs).ctx
      (fun b s w => Placed src configs s w ∧ (b = true → Reusable src o (placement s)))
      (fun _ => Placed src configs) s w := by
  rw [checkReusableNode, wp_bind, wp_self]
  split
  · exact ⟨h, fun hb => Bool.noConfusion hb⟩
  · rename_i hc
    refine ⟨h, fun _ ht => ?_⟩
    by_contra hne
    exact hc ⟨ht, hne⟩

theorem nodeReusedNotification_wp (o : NodeRef) (h : Placed src configs s w)
    (ho : Reusable src o (placement s)) :
    (nodeReusedNotification src o).wp (serial src configs).ctx (fun _ => Placed src configs)
      (fun _ => Placed src configs) s w := by
  rw [nodeReusedNotification, wp_bind, wp_assign, wp_bind, wp_self]
  unfold when
  split
  · rename_i hc
    obtain ⟨zone, haz, -⟩ := exists_of_truthy hc.2
    rw [wp_assign, haz]
    refine Grouped.choose h hc.1 (.inr ⟨o, List.mem_cons_self, haz⟩) fun o' ho' haz' => ?_
    rcases List.mem_cons.mp ho' with rfl | ho'
    · exact haz
    · exact absurd haz' ((h.unplaced hc.1).2 o' ho')
  · rename_i hc
    by_cases ht : truthy s.driver.chosenAz
    · exact h.reuse ho ht
    · exact h.reuse_without ht fun haz => hc ⟨ht, haz⟩

theorem randomChoice_mem {number : Nat} {zones : List String} {zone : String}
    (h : randomChoice number zones = some zone) : zone ∈ zones :=
  List.mem_of_getElem? h

theorem setNodeMetadata_wp (o : NodeRef) (azs : ∀ pool ∈ configs, pool.azs ≠ [] ∧ "" ∉ pool.azs)
    (h : Placed src configs s w) :
    (setNodeMetadata src o).wp (serial src configs).ctx
      (fun _ s w => Placed src configs s w ∧ Chosen (placement s)) (fun _ => Placed src configs)
      s w := by
  rw [setNodeMetadata, wp_bind, wp_self]
  split
  · rename_i hc
    exact ⟨h, hc⟩
  · rename_i hc
    rw [wp_bind, NodeRequestHandler.pool, wp_bind, wp_self]
    split
    · rename_i pool hpool
      have hmem := h.pool pool hpool
      rw [wp_pure, if_pos (azs pool hmem).1]
      dsimp only
      split
      · exact h
      · rename_i zone hzone
        have hin := randomChoice_mem hzone
        have hne : zone ≠ "" := fun he => (azs pool hmem).2 (he ▸ hin)
        have hg : Grouped src configs (s.driver.choose (some zone), s.pool) :=
          Grouped.choose h hc (.inl ⟨pool, hmem, hin⟩) fun o' ho' haz' =>
            absurd haz' ((h.unplaced hc).2 o' ho')
        exact ⟨⟨hg.pool, hg.chosen, hg.reused, hg.passed⟩, truthy_some hne⟩
    · exact h

theorem launch_wp (o : NodeRef) (h : Placed src configs s w) (hc : Chosen (placement s)) :
    (launch o).wp (serial src configs).ctx (fun _ => Placed src configs)
      (fun _ => Placed src configs) s w := by
  rw [launch, wp_bind, wp_assign]
  exact keeps_of_within (B := Grouped src configs) (.perform trivial) _ _ (h.launch hc)

/-! ### Methods that leave the placement alone -/

section Frame

variable {α : Type}

abbrev Aside (m : HandlerM Zones α) : Prop := Within (fun _ => True) placement m

theorem aside_of_within {P : Call → Prop} {m : HandlerM Zones α} (h : Within P placement m) :
    Aside m :=
  h.mono fun _ _ => trivial

theorem aside_call (c : Call) : Aside (call c : HandlerM Zones _) :=
  .perform trivial

theorem storeNodeRequest_aside : Aside storeNodeRequest :=
  .bind .self fun _ => .bind (ZooKeeper.getNodeRequest_within trivial) fun _ =>
    .ite .throw (aside_call _)

theorem unlockNodeRequest_aside : Aside unlockNodeRequest :=
  .bind .self fun _ => .bind (raiseUnless_within _ _) fun _ => .bind (aside_call _) fun _ =>
    .bind (.assign fun _ => rfl) fun _ => .assign fun _ => rfl

theorem unlockNodeOfSet_aside (clear : Bool) (o : NodeRef) : Aside (unlockNodeOfSet clear o) := by
  refine .bind (aside_call _) fun _ => .ite ?_ .pure
  refine .bind (when_within (.bind (aside_call _) fun _ => ?_)) fun _ => ?_
  · exact .tryCatch (aside_of_within (ZooKeeper.storeNode_within o)) fun _ => aside_call _
  · exact .tryCatch (aside_of_within (ZooKeeper.unlockNode_within o)) fun _ => aside_call _

theorem unlockNodeSet_aside (clear : Bool) : Aside (unlockNodeSet clear) :=
  .bind .self fun _ => .bind (.forEach (unlockNodeOfSet_aside clear) _) fun _ =>
    .assign fun _ => rfl

theorem declineLocally_aside : Aside declineLocally := by
  refine .bind (.assign fun h => ?_) fun _ => .bind (aside_call _) fun _ => .bind .self fun _ => ?_
  · unfold Handler.addDeclinedBy
    split <;> rfl
  · exact .ite (.assign fun _ => rfl) (.assign fun _ => rfl)

theorem declinedHandlerCleanup_aside : Aside declinedHandlerCleanup := by
  refine .bind (unlockNodeSet_aside true) fun _ => .bind (.assign fun _ => rfl) fun _ =>
    .bind (.tryCatch ?_ fun _ => aside_call _) fun _ => .assign fun _ => rfl
  exact .bind storeNodeRequest_aside fun _ => unlockNodeRequest_aside

theorem declineRequest_aside : Aside declineRequest :=
  .bind declineLocally_aside fun _ => declinedHandlerCleanup_aside

theorem atQuota_aside : Aside atQuota := by
  refine .bind .self fun _ => .ite declineRequest_aside ?_
  refine .bind provider_within fun _ => .bind pool_within fun _ => .bind ?_ fun _ =>
    .bind (aside_call _) fun _ => .ite (.assign fun _ => rfl) declinedHandlerCleanup_aside
  exact aside_of_within (ZooKeeper.deleteOldestUnusedNode_within _ _)

theorem acceptRequest_aside : Aside acceptRequest :=
  .bind (.assign fun _ => rfl) fun _ => storeNodeRequest_aside

theorem invalidNodeTypes_aside : Aside invalidNodeTypes :=
  .bind provider_within fun _ => .bind pool_within fun _ => .bind (aside_call _) fun _ =>
    .bind .self fun _ => .pure

theorem classifyNode_aside (o : NodeRef) : Aside (classifyNode o) := by
  refine .bind (aside_call _) fun _ => .ite ?_ (.ite ?_ ?_)
  · exact .bind (.assign fun _ => rfl) fun _ => .pure
  · exact .bind (.assign fun _ => rfl) fun _ =>
      .bind (aside_of_within (ZooKeeper.unlockNode_within o)) fun _ => .pure
  · exact .bind (.assign fun _ => rfl) fun _ => .pure

theorem classifyNodes_aside (os : List NodeRef) : Aside (classifyNodes os) := by
  induction os with
  | nil => exact .pure
  | cons o os ih => exact .bind (classifyNode_aside o) fun _ => .bind ih fun _ => .pure

theorem requestDisappeared_aside : Aside requestDisappeared :=
  .bind (unlockNodeSet_aside true) fun _ => .tryCatch unlockNodeRequest_aside fun _ =>
    .ite .pure .throw

theorem assignNodeToType_aside (ntype : String) : Aside (assignNodeToType ntype) := by
  refine .bind .self fun _ => ?_
  split
  · exact .throw
  · exact .assign fun _ => rfl

theorem fulfil_aside : Aside fulfil :=
  .bind .self fun _ => .bind (.forEach assignNodeToType_aside _) fun _ => .assign fun _ => rfl

theorem finishPoll_aside : Aside finishPoll :=
  .bind (unlockNodeSet_aside false) fun _ => .bind storeNodeRequest_aside fun _ =>
    .bind unlockNodeRequest_aside fun _ => .pure

theorem pollComplete_aside : Aside pollComplete := by
  refine .bind .self fun _ => .bind (classifyNodes_aside _) fun aborted =>
    .bind (ZooKeeper.getNodeRequest_within trivial) fun _ =>
      .ite ?_ (.bind .self fun _ => .ite ?_ ?_)
  · exact .bind requestDisappeared_aside fun _ => .pure
  · exact .bind declineLocally_aside fun _ => finishPoll_aside
  · refine .ite (.bind (.forEach (fun o => ?_) _) fun _ => ?_) ?_
    · exact .bind (aside_call _) fun _ => .assign fun _ => rfl
    · exact .bind (.assign fun _ => rfl) fun _ => .pure
    · exact .bind fulfil_aside fun _ => finishPoll_aside

theorem poll_aside : Aside (poll (driver src)) :=
  .bind .self fun _ => .ite .pure (.ite .pure
    (.bind (aside_call _) fun _ => .ite pollComplete_aside .pure))

end Frame

/-! ### The handler -/

/-- A first step that leaves the placement alone, and what is known about it with it. -/
theorem wp_aside {α β : Type} {B : Zones × Option (Option PoolConfig) → Prop}
    {m : HandlerM Zones α} {f : α → HandlerM Zones β} {Q : β → Handler Zones → Unit → Prop}
    (hm : Aside m) (raised : ∀ k, B k → Grouped src configs k) (h : B (placement s))
    (rest : ∀ a s w, B (placement s) →
      (f a).wp (serial src configs).ctx Q (fun _ => Placed src configs) s w) :
    (m >>= f).wp (serial src configs).ctx Q (fun _ => Placed src configs) s w := by
  rw [wp_bind]
  exact wp_mono (keeps_of_within hm s w h) rest fun _ s _ h => raised (placement s) h

theorem setFromPoolWorker_keeps :
    Keeps (serial src configs).ctx (Placed src configs) setFromPoolWorker := by
  refine .bind (keeps_of_within (aside_call _)) fun _ => .bind (.assign fun _ _ h => h) fun _ => ?_
  intro s w h
  rw [wp_bind, wp_perform]
  rintro _ rfl -
  refine ⟨trivial, fun config _ hnext _ => ?_, fun _ _ _ _ => h⟩
  refine ⟨fun pool hpool => ?_, h.chosen, h.reused, h.passed⟩
  cases hpool
  exact hnext

/-- The node is still one that may be reused when the driver is notified of it. -/
theorem useReadyNode_wp (ntype : String) (o : NodeRef) (h : Placed src configs s w)
    (ho : Reusable src o (placement s)) :
    (useReadyNode (driver src) ntype o).wp (serial src configs).ctx (fun _ => Placed src configs)
      (fun _ => Placed src configs) s w := by
  have raised : ∀ k, Grouped src configs k ∧ Reusable src o k → Grouped src configs k :=
    fun _ h => h.1
  refine wp_aside (.assign fun _ => rfl) raised ⟨h, ho⟩ fun _ _ _ h => ?_
  refine wp_aside .self raised h fun _ _ _ h => ?_
  refine wp_aside (aside_call _) raised h fun _ _ _ h => ?_
  refine wp_aside (aside_call _) raised h fun _ _ _ h => ?_
  refine wp_aside (aside_call _) raised h fun _ _ _ h => ?_
  refine wp_aside (aside_of_within (ZooKeeper.storeNode_within o)) raised h fun _ _ _ h => ?_
  refine wp_aside (aside_call _) raised h fun _ _ _ h => ?_
  refine wp_aside (.assign fun _ => rfl) raised h fun _ _ _ h => ?_
  exact nodeReusedNotification_wp o h.1 h.2

theorem tryReadyNode_keeps (ntype : String) (o : NodeRef) :
    Keeps (serial src configs).ctx (Placed src configs) (tryReadyNode (driver src) ntype o) := by
  refine .bind (keeps_of_within provider_within) fun _ => .bind (keeps_of_within pool_within)
    fun _ => .bind (keeps_of_within (aside_call _)) fun _ => .ite .pure (.ite .pure (.ite .pure ?_))
  intro s w h
  rw [wp_bind]
  refine wp_mono (checkReusableNode_wp o h) ?_ fun _ _ _ h => h
  rintro reusable s w ⟨h, ho⟩
  split
  · rename_i hreusable
    have raised : ∀ k, Grouped src configs k ∧ Reusable src o k → Grouped src configs k :=
      fun _ h => h.1
    have unlock : Keeps (serial src configs).ctx (Placed src configs) (do
        ZooKeeper.unlockNode o
        pure false) :=
      .bind (keeps_of_within (aside_of_within (ZooKeeper.unlockNode_within o))) fun _ => .pure
    refine wp_aside (.attempt (aside_of_within (ZooKeeper.lockNode_within o))) raised
      ⟨h, ho hreusable⟩ fun locked s w h => ?_
    split
    · exact h.1
    · exact h.1
    · refine wp_aside (aside_call _) raised h fun _ s w h => ?_
      split
      · exact unlock s w h.1
      · split
        · exact unlock s w h.1
        · rw [wp_bind]
          exact wp_mono (useReadyNode_wp ntype o h.1 h.2) (fun _ _ _ h => h) fun _ _ _ h => h
  · exact h

theorem grabReadyNode_keeps (ntype : String) (os : List NodeRef) :
    Keeps (serial src configs).ctx (Placed src configs) (grabReadyNode (driver src) ntype os) := by
  induction os with
  | nil => exact .pure
  | cons o os ih => exact .bind (tryReadyNode_keeps ntype o) fun _ => .ite .pure ih

theorem getDeclinedReasons_keeps :
    Keeps (serial src configs).ctx (Placed src configs) (getDeclinedReasons (driver src)) := by
  refine .bind .self fun _ => .bind (.ite setFromPoolWorker_keeps .pure) fun _ =>
    .bind (keeps_of_within invalidNodeTypes_aside) fun _ => .bind (keeps_of_within pool_within)
    fun _ => .bind .self fun _ => .ite .pure (.ite .pure ?_)
  refine .bind (keeps_of_within (aside_call _)) fun _ => .ite ?_ .pure
  exact .bind (keeps_of_within (aside_call _)) fun _ => .ite .pure .pure

section Configured

variable (azs : ∀ pool ∈ configs, pool.azs ≠ [] ∧ "" ∉ pool.azs)
include azs

/-- A zone is chosen before the node is stored, so there is one when it is launched. -/
theorem launchNewNode_keeps (ntype : String) :
    Keeps (serial src configs).ctx (Placed src configs) (launchNewNode (driver src) ntype) := by
  refine .bind (.assign fun _ _ h => h) fun _ => .bind (keeps_of_within provider_within) fun _ =>
    .bind (keeps_of_within pool_within) fun _ => .bind (keeps_of_within (aside_call _)) fun _ =>
    .bind .self fun _ => .bind (keeps_of_within (aside_call _)) fun o => ?_
  intro s w h
  rw [wp_bind]
  refine wp_mono (setNodeMetadata_wp o azs h) (fun _ s w h => ?_) fun _ _ _ h => h
  have raised : ∀ k, Grouped src configs k ∧ Chosen k → Grouped src configs k := fun _ h => h.1
  have store := aside_of_within (ZooKeeper.storeNode_within (π := placement) o)
  refine wp_aside store raised h fun _ _ _ h => ?_
  refine wp_aside (aside_of_within (ZooKeeper.lockNode_within o)) raised h fun _ _ _ h => ?_
  refine wp_aside (aside_of_within (ZooKeeper.assignState_within o _)) raised h fun _ _ _ h => ?_
  refine wp_aside store raised h fun _ _ _ h => ?_
  refine wp_aside (aside_call _) raised h fun _ _ _ h => ?_
  refine wp_aside (.assign fun _ => rfl) raised h fun _ _ _ h => ?_
  exact launch_wp o h.1 h.2

theorem fillNodeSet_keeps (readyNodes : Dict String (List NodeRef)) (ntypes : List String) :
    Keeps (serial src configs).ctx (Placed src configs)
      (fillNodeSet (driver src) readyNodes ntypes) := by
  induction ntypes with
  | nil => exact .pure
  | cons ntype ntypes ih =>
      refine .bind .self fun _ => .bind (grabReadyNode_keeps ntype _) fun _ => .ite ih ?_
      refine .bind (keeps_of_within (aside_call _)) fun _ => .ite ?_ ?_
      · exact .bind (launchNewNode_keeps azs ntype) fun _ => ih
      · exact keeps_of_within atQuota_aside

theorem waitForNodeSet_keeps :
    Keeps (serial src configs).ctx (Placed src configs) (waitForNodeSet (driver src)) := by
  refine .bind .self fun _ => .ite ?_ (fillNodeSet_keeps azs _ _)
  exact .bind (keeps_of_within (aside_call _)) fun _ => fillNodeSet_keeps azs _ _

theorem run_keeps : Keeps (serial src configs).ctx (Placed src configs) (run (driver src)) := by
  refine .tryCatch ?_ fun _ => .bind (keeps_of_within (aside_call _)) fun _ =>
    keeps_of_within declineRequest_aside
  refine .bind setFromPoolWorker_keeps fun _ => .bind (keeps_of_within provider_within) fun _ =>
    .bind (keeps_of_within pool_within) fun _ => .bind getDeclinedReasons_keeps fun _ =>
    .ite (keeps_of_within declineRequest_aside) (.bind .self fun _ => .bind ?_ fun _ => ?_)
  · exact .ite (keeps_of_within acceptRequest_aside) .pure
  · exact waitForNodeSet_keeps azs

theorem body_keeps (op : HandlerOp) :
    Keeps (serial src configs).ctx (Placed src configs) (body src op) := by
  cases op with
  | run => exact run_keeps azs
  | declineRequest => exact keeps_of_within declineRequest_aside
  | poll => exact .bind (keeps_of_within poll_aside) fun _ => .pure

/-- **Zone affinity.** However often the handler runs and is polled, every node it launches
is created in one zone, which is configured or that of a reused node, and no reused node is
in another zone. -/
theorem one_zone {launcherId : String} {request : NodeRequest} {h : Handler Zones} {w : Unit}
    (run : (serial src configs).Run (fun _ _ _ => True)
      (Handler.init launcherId request Zones.init) () h w) :
    ∃ zone, (∀ passed ∈ h.driver.passed, passed = some zone) ∧
      (h.driver.passed ≠ [] → zone ≠ "" ∧ Offered src configs h.driver.reused zone) ∧
      ∀ o ∈ h.driver.reused, truthy (src.az o) → src.az o = some zone := by
  have grouped : Grouped src configs (placement h) :=
    run.invariant (grouped_init src configs launcherId request) fun s w op h _ =>
      body_keeps azs op s w h
  by_cases hc : truthy h.driver.chosenAz
  · obtain ⟨zone, hzone, hne⟩ := exists_of_truthy hc
    refine ⟨zone, fun passed hp => ?_, fun _ => ⟨hne, grouped.chosen zone hzone hne⟩, ?_⟩
    · rw [(grouped.passed passed hp).2]
      exact hzone
    · intro o ho haz
      rw [grouped.reused o ho haz]
      exact hzone
  · obtain ⟨none_passed, none_reused⟩ := grouped.unplaced hc
    refine ⟨"", fun passed hp => ?_, fun hp => absurd none_passed hp, fun o ho haz => ?_⟩
    · rw [none_passed] at hp
      exact absurd hp List.not_mem_nil
    · exact absurd haz (none_reused o ho)

end Configured

/-! ### An example -/

/-- A request for two labels, where one node is READY. -/
def exampleRequest : NodeRequest :=
  { HandlerSystem.exampleRequest with nodeTypes := ["small", "large"], reuse := true }

def exampleNode : Node where
  state := .ready
  stateTime := 0
  type := ["small"]
  provider := some "cloud"
  pool := some "main"
  launcher := none
  allocatedTo := none
  tenantName := none
  requestor := none
  resources := none
  externalId := none

def examplePool : PoolConfig := ⟨"main", ["small", "large"], .int 5, ["north", "south"]⟩

def exampleAnswer (w : Unit) : (c : Call) → LauncherSig.Reply c × Unit
  | .getRequest _ => (.ok exampleRequest, w)
  | .getProviderConfig => (.ok (some ⟨"cloud", ["small", "large"]⟩), w)
  | .getPoolConfig => (.ok (some examplePool), w)
  | .errorLabels => (.ok [], w)
  | .getReadyNodesOfTypes _ => (.ok (.ofPairs [("small", [.cached 7])]), w)
  | .readNode _ => (.ok ⟨some 7, exampleNode, false, false, false⟩, w)
  | .newNode _ => (.ok (.own 0), w)
  | .updateNode _ => (.ok exampleNode, w)
  | .time => (.ok 0, w)
  | .acquireThreadLock _ | .acquireLock _ | .imagesAvailable | .hasProviderQuota _
  | .hasRemainingQuota _ | .launchesComplete => (.ok true, w)
  | .assignNode _ _ | .createNode _ | .setNode _ | .setRequest _ _ | .launch _ | .log _ =>
    (.ok (), w)
  | _ => (.error .other, w)

def exampleSource : ZoneSource where
  az
    | .cached _ => some "south"
    | .own _ => none
  random := fun n => n
  getAZs := fun _ => []

theorem exampleAnswer_next (w : Unit) (c : Call) :
    (serial exampleSource {examplePool}).next w c (exampleAnswer w c).1 (exampleAnswer w c).2 := by
  cases c <;> trivial

theorem examplePool_azs :
    ∀ pool ∈ ({examplePool} : Set PoolConfig), pool.azs ≠ [] ∧ "" ∉ pool.azs := by
  rintro pool rfl
  decide

/-- The node that is launched follows the one that is reused. -/
theorem one_zone_example :
    let h := (Serial.replay (T := serial exampleSource {examplePool}) exampleAnswer
      (Handler.init "launcher" exampleRequest Zones.init) () [.run]).1
    h.driver.passed = [some "south"] ∧ h.driver.reused = [.cached 7] ∧
      ∃ zone, (∀ passed ∈ h.driver.passed, passed = some zone) ∧
        (h.driver.passed ≠ [] →
          zone ≠ "" ∧ Offered exampleSource {examplePool} h.driver.reused zone) ∧
        ∀ o ∈ h.driver.reused, truthy (exampleSource.az o) → exampleSource.az o = some zone :=
  ⟨by decide, by decide, one_zone examplePool_azs
    (Serial.replay_run exampleAnswer_next fun _ _ _ _ => trivial)⟩

end ZoneAffinity

end Nodepool
