import Nodepool.Driver.HandlerSystem

/-!
What ZooKeeper stores of the allocation of nodes, over the runs of one request handler.

Beside the locks, the world has the state of each node and whether it is allocated to the
request of the handler, both as its object shows it and as it is stored. Launches run on
their own: a node whose launch is running can become READY at any time.

The invariant is that a node that is stored as allocated, and is READY or can become so,
is locked and in the node set. A handler that gives its request back clears the
allocation of each node before it unlocks it, with one exception: `poll` does not, when a
launch has failed.
-/

namespace Nodepool

open Effect Method NodeRequestHandler

structure AllocationWorld where
  /-- the stored request -/
  request : Option NodeRequest
  requestLocked : Bool
  /-- `node.lock` of the node objects that the handler has locked -/
  lock : NodeRef → Bool
  /-- the handler holds the `_thread_lock` of the node object -/
  threadLock : NodeRef → Bool
  /-- the state of the object -/
  state : NodeRef → NodeState
  /-- the object is allocated to the request of the handler -/
  allocated : NodeRef → Bool
  /-- the record is stored, and allocated to the request of the handler -/
  stored : NodeRef → Bool
  storedState : NodeRef → NodeState
  /-- the launch of the node is running -/
  launching : NodeRef → Bool
  /-- the handler has stored its request as fulfilled -/
  fulfilled : Bool

namespace AllocationWorld

def setThreadLock (w : AllocationWorld) (o : NodeRef) (b : Bool) : AllocationWorld :=
  { w with threadLock := Function.update w.threadLock o b }

def setObject (w : AllocationWorld) (o : NodeRef) (state : NodeState) (allocated : Bool) :
    AllocationWorld :=
  { w with
    state := Function.update w.state o state
    allocated := Function.update w.allocated o allocated }

/-- The object is stored. -/
def store (w : AllocationWorld) (o : NodeRef) : AllocationWorld :=
  { w with
    stored := Function.update w.stored o (w.allocated o)
    storedState := Function.update w.storedState o (w.state o) }

/-- The worlds that a call can lead to if it gets the given reply. -/
def next (w : AllocationWorld) : (c : Call) → LauncherSig.Reply c → List AllocationWorld
  | .getRequest _, .ok data => if w.request = some data then [w] else []
  | .getRequest _, .error e => if e = .noNode ∧ w.request ≠ none then [] else [w]
  | .setRequest _ data, .ok _ =>
      if w.request = none then []
      else [{ w with
        request := some data
        fulfilled := w.fulfilled || decide (data.state = .fulfilled) }]
  | .releaseRequestLock _, .ok _ => [{ w with requestLocked := false }]
  | .newNode node, .ok (.own n) =>
      if w.lock (.own n) ∨ w.threadLock (.own n) ∨ w.stored (.own n) ∨ w.launching (.own n) then []
      else [w.setObject (.own n) node.state node.allocatedTo.isSome]
  | .newNode _, _ => []
  | .readNode o, .ok object =>
      -- an object that the handler has not locked may be changed by others
      if w.threadLock o → object.lock = w.lock o ∧ object.node.state = w.state o then [w] else []
  | .readNode _, .error _ => []
  | .assignNode o (.lock b), .ok _ => [{ w with lock := Function.update w.lock o b }]
  | .assignNode o (.allocatedTo r), .ok _ => [w.setObject o (w.state o) r.isSome]
  | .assignNode o (.state s _), .ok _ => [w.setObject o s (w.allocated o)]
  | .assignNode _ _, .ok _ => [w]
  | .assignNode _ _, .error _ => []
  | .acquireThreadLock o, .ok b =>
      if b then if w.threadLock o then [] else [w.setThreadLock o true] else [w]
  | .acquireThreadLock _, .error _ => []
  | .releaseThreadLock o, .ok _ => if w.threadLock o then [w.setThreadLock o false] else []
  | .releaseThreadLock o, .error _ => if w.threadLock o then [] else [w]
  -- the object shows what is stored
  | .updateNode o, .ok data =>
      if data.state = w.storedState o then [w.setObject o (w.storedState o) (w.stored o)] else []
  | .createNode o, .ok _ | .setNode o, .ok _ => [w.store o]
  | .launch o, _ => [{ w with launching := Function.update w.launching o true }]
  | .launchesComplete, .ok complete =>
      if complete then [{ w with launching := fun _ => false }] else [w]
  | .log _, .error _ => []
  | .time, .error _ => []
  | _, _ => [w]

/-- The others may delete the request; they allocate no node to it. Of the nodes that the
handler has locked they change only those whose launch is running, and only a launch
makes a node READY that is allocated to the request. -/
structure Env (w w' : AllocationWorld) : Prop where
  request : w.request = none → w'.request = none
  requestLocked : w'.requestLocked = w.requestLocked
  lock : w'.lock = w.lock
  threadLock : w'.threadLock = w.threadLock
  stored : ∀ o, w'.stored o = true → w.stored o = true
  ready : ∀ o, w'.stored o = true → w'.storedState o = .ready →
    w.storedState o = .ready ∨ w.launching o = true
  state : ∀ o, w.threadLock o = true → w.launching o = false → w'.state o = w.state o
  state_own : ∀ n, w.launching (.own n) = false → w'.state (.own n) = w.state (.own n)
  allocated : ∀ o, w'.allocated o = true → w.allocated o = true
  /-- a launch sets the state of the object before it stores it -/
  shown : ∀ o, w.threadLock o = true → (w.storedState o = .ready → w.state o = .ready) →
    w'.storedState o = .ready → w'.state o = .ready
  launching : ∀ o, w'.launching o = true → w.launching o = true
  fulfilled : w'.fulfilled = w.fulfilled

theorem Env.refl (w : AllocationWorld) : Env w w :=
  ⟨id, rfl, rfl, rfl, fun _ => id, fun _ _ => .inl, fun _ _ _ => rfl, fun _ _ => rfl, fun _ => id,
    fun _ _ h => h, fun _ => id, rfl⟩

theorem Env.still {w w' : AllocationWorld} (h : Env w w') {o : NodeRef}
    (still : w.launching o = false) : w'.launching o = false := by
  by_contra launching
  rw [Bool.not_eq_false] at launching
  rw [h.launching o launching] at still
  cases still

theorem Env.trans {a b c : AllocationWorld} (h : Env a b) (h' : Env b c) : Env a c where
  request hr := h'.request (h.request hr)
  requestLocked := h'.requestLocked.trans h.requestLocked
  lock := h'.lock.trans h.lock
  threadLock := h'.threadLock.trans h.threadLock
  stored o ho := h.stored o (h'.stored o ho)
  ready o ho hr := by
    rcases h'.ready o ho hr with hb | hb
    · exact h.ready o (h'.stored o ho) hb
    · exact .inr (h.launching o hb)
  state o ho hl :=
    (h'.state o (by rw [h.threadLock]; exact ho) (h.still hl)).trans (h.state o ho hl)
  state_own n hl := (h'.state_own n (h.still hl)).trans (h.state_own n hl)
  allocated o ho := h.allocated o (h'.allocated o ho)
  shown o ho hs := h'.shown o (by rw [h.threadLock]; exact ho) (h.shown o ho hs)
  launching o ho := h.launching o (h'.launching o ho)
  fulfilled := h'.fulfilled.trans h.fulfilled

/-- The record of the node is allocated to the request, and READY. -/
def Kept (w : AllocationWorld) (o : NodeRef) : Prop :=
  w.stored o = true ∧ w.storedState o = .ready

/-- The record of the node is allocated to the request, and READY or can become so. -/
def Live (w : AllocationWorld) (o : NodeRef) : Prop :=
  w.stored o = true ∧ (w.storedState o = .ready ∨ w.launching o = true)

theorem Kept.live {w : AllocationWorld} {o : NodeRef} (h : w.Kept o) : w.Live o :=
  ⟨h.1, .inl h.2⟩

end AllocationWorld

/-- One handler, as in `handlerSystem`. -/
abbrev allocationSystem : System LauncherSig AllocationWorld Unit where
  State _ := HandlerThread
  Op _ := HandlerOp
  body _ := HandlerOp.body
  enabled _ op t w := (w.requestLocked && !t.finished) || (op = .poll && t.handler.done)
  next _ := AllocationWorld.next
  env := AllocationWorld.Env

namespace AllocationSystem

open AllocationWorld

/-- The handler as the pool worker starts with it: nothing is locked, and nothing is
allocated to its request. -/
structure Initial (cfg : Config allocationSystem) : Prop where
  thread : ∃ launcherId request, cfg.thread () = .pure ⟨.init launcherId request (), false⟩
  requestLocked : cfg.world.requestLocked = true
  lock : ∀ o, cfg.world.lock o = false
  threadLock : ∀ o, cfg.world.threadLock o = false
  stored : ∀ o, cfg.world.stored o = false
  fulfilled : cfg.world.fulfilled = false

/-- When all launches are complete, the handler does not hold one node that is READY and
another one that has failed. -/
def NotMixed (w : AllocationWorld) : Prop :=
  (∀ o, w.lock o = true → w.state o ≠ .ready) ∨
    ∀ o, w.lock o = true → w.state o = .ready ∨ w.state o = .aborted

/-- Every call of ZooKeeper succeeds; reading the request may show that it is gone. -/
def zooKeeperSucceeds : Event allocationSystem → Bool
  | .call () (.getRequest _) (.error e) => e = .noNode
  | .call () (.setRequest _ _) (.error _) | .call () (.releaseRequestLock _) (.error _)
  | .call () (.createNode _) (.error _) | .call () (.setNode _) (.error _)
  | .call () (.acquireLock _) (.error _) | .call () (.releaseLock _) (.error _)
  | .call () (.updateNode _) (.error _) | .call () .nodeIterator (.error _)
  | .call () (.getReadyNodesOfTypes _) (.error _)
  | .call () .getRegisteredPools (.error _) => false
  | _ => true

/-- Launches do not leave both READY and failed nodes, and the request is not found missing
when READY nodes have been unlocked for it. -/
def staysApart (w : AllocationWorld) : Event allocationSystem → Prop
  | .call () (.getRequest _) (.error _) => ∀ o, w.Kept o → w.lock o = true
  | .call () .launchesComplete (.ok true) => NotMixed w
  | _ => True

abbrev Allocates (w : AllocationWorld) (e : Event allocationSystem) : Prop :=
  zooKeeperSucceeds e = true ∧ staysApart w e

/-- What the handler must respect: a request that goes back leaves no READY node behind. -/
def Leaves (w : AllocationWorld) : Call → Prop
  | .setRequest _ data =>
      data.state = .requested ∨ data.state = .failed → ∀ o, ¬ w.Kept o
  | _ => True

/-- The context of the handler. -/
abbrev Γ : Context LauncherSig AllocationWorld :=
  allocationSystem.context Allocates (fun _ => True) Env Leaves ()

/-! ### Assertions -/

/-- `l` says which node objects are marked as locked, `t` whose thread lock is held, and
`k` where READY nodes may be stored as allocated; `p` is known unless the request is gone. -/
structure Tidy (p : Prop) (l t k : NodeRef → Bool) (w : AllocationWorld) : Prop where
  lock : w.lock = l
  threadLock : w.threadLock = t
  live : ∀ o, w.Live o → k o = true
  shown : ∀ o, t o = true → w.Kept o → w.state o = .ready
  request : p ∨ w.request = none

variable {p : Prop} {l t k f : NodeRef → Bool} {s : Handler Unit} {w w' : AllocationWorld}
  {o : NodeRef}

theorem live_env (he : Env w w') (h : w'.Live o) : w.Live o := by
  obtain ⟨hs, hr | hl⟩ := h
  · exact ⟨he.stored o hs, he.ready o hs hr⟩
  · exact ⟨he.stored o hs, .inr (he.launching o hl)⟩

theorem Tidy.env (h : Tidy p l t k w) (he : Env w w') : Tidy p l t k w' where
  lock := he.lock.trans h.lock
  threadLock := he.threadLock.trans h.threadLock
  live o ho := h.live o (live_env he ho)
  shown o ho hk := by
    have locked : w.threadLock o = true := by rw [h.threadLock]; exact ho
    exact he.shown o locked (fun hr => h.shown o ho ⟨he.stored o hk.1, hr⟩) hk.2
  request := h.request.imp_right he.request

/-- What most calls do. -/
structure Calm (w w' : AllocationWorld) : Prop where
  lock : w'.lock = w.lock
  threadLock : w'.threadLock = w.threadLock
  stored : w'.stored = w.stored
  storedState : w'.storedState = w.storedState
  launching : ∀ o, w'.launching o = true → w.launching o = true
  shown : ∀ o, w.Kept o → w.state o = .ready → w'.state o = .ready
  request : w.request = none → w'.request = none
  fulfilled : w.fulfilled = true → w'.fulfilled = true

theorem Calm.refl (w : AllocationWorld) : Calm w w :=
  ⟨rfl, rfl, rfl, rfl, fun _ => id, fun _ _ => id, id, id⟩

theorem Calm.live (h : Calm w w') (hl : w'.Live o) : w.Live o := by
  unfold Live at hl ⊢
  rw [h.stored, h.storedState] at hl
  exact ⟨hl.1, hl.2.imp_right (h.launching o)⟩

theorem Calm.kept (h : Calm w w') : w'.Kept o ↔ w.Kept o := by
  unfold Kept
  rw [h.stored, h.storedState]

theorem Tidy.calm (h : Tidy p l t k w) (hc : Calm w w') : Tidy p l t k w' where
  lock := hc.lock.trans h.lock
  threadLock := hc.threadLock.trans h.threadLock
  live o ho := h.live o (hc.live ho)
  shown o ho hk := hc.shown o (hc.kept.mp hk) (h.shown o ho (hc.kept.mp hk))
  request := h.request.imp_right hc.request

/-- Calls that neither lock nor store a node, nor change the state of one, nor launch it. -/
def isCalm : Call → Prop
  | .assignNode _ (.lock _) | .assignNode _ (.state _ _) | .acquireThreadLock _
  | .releaseThreadLock _ | .createNode _ | .setNode _ | .launch _ => False
  | _ => True

theorem calm_setObject {state : NodeState} {allocated : Bool}
    (h : w.Kept o → w.state o = .ready → state = .ready) :
    Calm w (w.setObject o state allocated) := by
  refine ⟨rfl, rfl, rfl, rfl, fun _ => id, ?_, id, id⟩
  intro o' hk hs
  unfold setObject
  dsimp only
  by_cases same : o' = o
  · subst same
    rw [Function.update_self]
    exact h hk hs
  · rw [Function.update_of_ne same]
    exact hs

theorem next_calm {c : Call} (hc : isCalm c) {r : LauncherSig.Reply c} :
    ∀ w' ∈ w.next c r, Calm w w' := by
  intro w' hmem
  unfold next at hmem
  split at hmem
  case h_3 => -- the request is stored
    split at hmem
    · cases hmem
    · rename_i present
      rw [List.mem_singleton.mp hmem]
      exact ⟨rfl, rfl, rfl, rfl, fun _ => id, fun _ _ => id, fun gone => absurd gone present,
        fun done => by dsimp only; rw [done, Bool.true_or]⟩
  case h_5 => -- a new object
    split at hmem
    · cases hmem
    · rename_i fresh
      rw [List.mem_singleton.mp hmem]
      refine calm_setObject fun hk => ?_
      exact absurd (.inr (.inr (.inl hk.1))) fresh
  all_goals first
    | exact hc.elim
    | (cases hmem; done)
    | (rw [List.mem_singleton.mp hmem]; exact .refl w)
    | (rw [List.mem_singleton.mp hmem]; exact calm_setObject fun _ h => h)
    | (rw [List.mem_singleton.mp hmem]
       exact ⟨rfl, rfl, rfl, rfl, fun _ => id, fun _ _ => id, id, id⟩)
    | skip
  all_goals (split at hmem)
  all_goals first
    | (cases hmem; done)
    | (rw [List.mem_singleton.mp hmem]; exact .refl w)
    | (rw [List.mem_singleton.mp hmem]; exact calm_setObject fun hk _ => hk.2)
    | (rw [List.mem_singleton.mp hmem]
       exact ⟨rfl, rfl, rfl, rfl, fun _ h => (nomatch h), fun _ _ => id, id, id⟩)

/-- Calm calls of which nothing is required. -/
def isQuiet : Call → Prop
  | .setRequest _ _ => False
  | c => isCalm c

theorem isCalm_of_isQuiet {c : Call} (h : isQuiet c) : isCalm c := by
  cases c <;> first | exact h | exact h.elim

theorem leaves_of_isQuiet {c : Call} (h : isQuiet c) : Leaves w c := by
  cases c <;> trivial

/-- An assertion that the others keep, and calm calls. -/
structure Soft (B : AllocationWorld → Prop) : Prop where
  env : ∀ {w w'}, B w → Env w w' → B w'
  calm : ∀ {w w'}, B w → Calm w w' → B w'

theorem Soft.stable {B : AllocationWorld → Prop} (h : Soft B) : Stable Γ isQuiet B where
  rely hB he _ := h.env hB he
  req hc _ _ := leaves_of_isQuiet hc
  step hc hB _ hs _ := h.calm hB (next_calm (isCalm_of_isQuiet hc) _ hs.1)

theorem soft_tidy : Soft (Tidy p l t k) := ⟨Tidy.env, Tidy.calm⟩

/-- No launch is running. -/
def Still (w : AllocationWorld) : Prop := ∀ o, w.launching o = false

theorem soft_still : Soft Still where
  env h he o := he.still (h o)
  calm h hc o := by
    by_contra launching
    have := hc.launching o (by simpa using launching)
    rw [h o] at this
    cases this

theorem Soft.and {B B' : AllocationWorld → Prop} (h : Soft B) (h' : Soft B') :
    Soft fun w => B w ∧ B' w :=
  ⟨fun hB he => ⟨h.env hB.1 he, h'.env hB.2 he⟩, fun hB hc => ⟨h.calm hB.1 hc, h'.calm hB.2 hc⟩⟩

/-! ### Calls -/

/-- Calls that always succeed. -/
def succeeds : Call → Prop
  | .readNode _ | .assignNode _ _ | .time | .log _ | .createNode _ | .setNode _
  | .releaseLock _ | .updateNode _ | .getRegisteredPools | .acquireThreadLock _ => True
  | _ => False

theorem no_error {c : Call} (h : succeeds c) {e : Err} (hmem : w' ∈ w.next c (.error e))
    (hok : Allocates w (.call () c (.error e))) : False := by
  cases c with
  | assignNode o a => cases a <;> exact List.not_mem_nil hmem
  | _ => first | exact List.not_mem_nil hmem | exact Bool.false_ne_true hok.1 | exact h

/-- One call that succeeds and keeps an assertion. -/
theorem quiet_wp {B : AllocationWorld → Prop} (soft : Soft B) {c : Call} (hc : isQuiet c)
    (hs : succeeds c) (hB : B w) {Q : c.Val → Handler Unit → AllocationWorld → Prop}
    {X : Err → Handler Unit → AllocationWorld → Prop} (h : ∀ v w', B w' → Q v s w') :
    (call c).wp Γ Q X s w := by
  refine wp_call (P := B) soft.stable.rely hB (fun _ _ _ => leaves_of_isQuiet hc) ?_ ?_
  · exact fun v _ w' hw hi hstep hi' => h v w' (soft.stable.step hc hw hi hstep hi')
  · exact fun e _ _ _ _ hstep _ => (no_error hs hstep.1 hstep.2).elim

/-- Reading an object that the handler has locked shows the lock and the state. -/
theorem readNode_wp {B : AllocationWorld → Prop} (env : ∀ {w w'}, B w → Env w w' → B w')
    (hB : B w) {Q : NodeObject → Handler Unit → AllocationWorld → Prop}
    {X : Err → Handler Unit → AllocationWorld → Prop}
    (h : ∀ object w', B w' → (w'.threadLock o = true →
      object.lock = w'.lock o ∧ object.node.state = w'.state o) → Q object s w') :
    (call (.readNode o)).wp Γ Q X s w := by
  refine wp_call (P := B) (fun hw he _ => env hw he) hB (fun _ _ _ => trivial) ?_ ?_
  · intro object w₁ w₂ hw₁ _ hs _
    have hmem : w₂ ∈ w₁.next (.readNode o) (.ok object) := hs.1
    obtain ⟨shows, rfl⟩ := of_mem_ite hmem
    exact h object w₂ hw₁ shows
  · exact fun _ _ _ _ _ hs _ => absurd hs.1 List.not_mem_nil

/-- A call with one outcome. -/
theorem effect_wp {B : AllocationWorld → Prop} (env : ∀ {w w'}, B w → Env w w' → B w')
    {c : Call} (hs : succeeds c) (hleaves : ∀ w, Leaves w c)
    (effect : AllocationWorld → AllocationWorld)
    (heffect : ∀ w v, w.next c (.ok v) = [effect w]) (hB : B w)
    {Q : c.Val → Handler Unit → AllocationWorld → Prop}
    {X : Err → Handler Unit → AllocationWorld → Prop} (h : ∀ v w', B w' → Q v s (effect w')) :
    (call c).wp Γ Q X s w := by
  refine wp_call (P := B) (fun hw he _ => env hw he) hB (fun w _ _ => hleaves w) ?_ ?_
  · intro v w₁ w₂ hw₁ _ hstep _
    have hmem : w₂ ∈ w₁.next c (.ok v) := hstep.1
    rw [heffect, List.mem_singleton] at hmem
    rw [hmem]
    exact h v w₁ hw₁
  · exact fun e _ _ _ _ hstep _ => (no_error hs hstep.1 hstep.2).elim

/-! ### Storing nodes -/

/-- A store keeps the books in order where READY nodes may be, and elsewhere if the object
is not allocated, or is neither READY nor being launched. -/
theorem Tidy.store (h : Tidy p l t k w) (ho : k o = true ∨ w.allocated o = false ∨
    (w.state o ≠ .ready ∧ w.launching o = false)) : Tidy p l t k (w.store o) where
  lock := h.lock
  threadLock := h.threadLock
  live o' hl := by
    unfold Live AllocationWorld.store at hl
    dsimp only at hl
    by_cases same : o' = o
    · subst same
      rw [Function.update_self, Function.update_self] at hl
      rcases ho with hk | ha | ⟨hs, hn⟩
      · exact hk
      · rw [ha] at hl
        cases hl.1
      · rcases hl.2 with h' | h'
        · exact absurd h' hs
        · rw [hn] at h'
          cases h'
    · rw [Function.update_of_ne same, Function.update_of_ne same] at hl
      exact h.live o' hl
  shown o' ht hk := by
    unfold Kept AllocationWorld.store at hk
    dsimp only at hk
    by_cases same : o' = o
    · subst same
      rw [Function.update_self, Function.update_self] at hk
      exact hk.2
    · rw [Function.update_of_ne same, Function.update_of_ne same] at hk
      exact h.shown o' ht hk
  request := h.request

/-- A node that is stored without allocation is nobody's. -/
theorem Tidy.storeCleared (h : Tidy p l t k w) (ho : w.allocated o = false) :
    Tidy p l t (Function.update k o false) (w.store o) := by
  have stored := h.store (.inr (.inl ho))
  refine ⟨stored.lock, stored.threadLock, ?_, stored.shown, stored.request⟩
  intro o' hl
  by_cases same : o' = o
  · subst same
    have := hl.1
    unfold AllocationWorld.store at this
    dsimp only at this
    rw [Function.update_self, ho] at this
    cases this
  · rw [Function.update_of_ne same]
    exact stored.live o' hl

theorem storeNode_wp {B : AllocationWorld → Prop} (env : ∀ {w w'}, B w → Env w w' → B w')
    (hB : B w) {Q : Unit → Handler Unit → AllocationWorld → Prop}
    {X : Err → Handler Unit → AllocationWorld → Prop} (h : ∀ w', B w' → Q () s (w'.store o)) :
    (ZooKeeper.storeNode o).wp Γ Q X s w := by
  rw [ZooKeeper.storeNode, wp_bind]
  refine readNode_wp env hB fun object w₁ hw₁ _ => ?_
  split
  · exact effect_wp env (by trivial) (fun _ => by trivial) (·.store o) (fun _ _ => rfl) hw₁
      fun _ => h
  · exact effect_wp env (by trivial) (fun _ => by trivial) (·.store o) (fun _ _ => rfl) hw₁
      fun _ => h

/-! ### Taking and releasing node locks -/

/-- An assertion that survives the release of locks. -/
structure Rests (X : AllocationWorld → Prop) : Prop where
  env : ∀ {w w'}, X w → Env w w' → X w'
  lock : ∀ {w} (l : NodeRef → Bool), X w → X { w with lock := l }
  release : ∀ {w} (o : NodeRef), X w → X (w.setThreadLock o false)

theorem rests_true : Rests fun _ => True := ⟨fun h _ => h, fun _ h => h, fun _ h => h⟩

theorem rests_still : Rests Still := ⟨fun h he => soft_still.env h he, fun _ h => h, fun _ h => h⟩

theorem update_release {o : NodeRef} (h : f o = false) :
    Function.update (Function.update f o true) o false = f := by
  rw [Function.update_idem, ← h, Function.update_eq_self]

theorem Tidy.releaseThread (h : Tidy p l t k w) :
    Tidy p l (Function.update t o false) k (w.setThreadLock o false) where
  lock := h.lock
  threadLock := by
    change Function.update w.threadLock o false = _
    rw [h.threadLock]
  live := h.live
  shown o' ht hk := by
    by_cases same : o' = o
    · subst same
      rw [Function.update_self] at ht
      cases ht
    · rw [Function.update_of_ne same] at ht
      exact h.shown o' ht hk
  request := h.request

/-- Taking the thread lock of a node that may not be READY. -/
theorem Tidy.acquireThread (h : Tidy p l t k w) (hk : k o = false) :
    Tidy p l (Function.update t o true) k (w.setThreadLock o true) where
  lock := h.lock
  threadLock := by
    change Function.update w.threadLock o true = _
    rw [h.threadLock]
  live := h.live
  shown o' ht hkept := by
    by_cases same : o' = o
    · subst same
      rw [h.live o' hkept.live] at hk
      cases hk
    · rw [Function.update_of_ne same] at ht
      exact h.shown o' ht hkept
  request := h.request

theorem Tidy.setLock (h : Tidy p l t k w) (b : Bool) :
    Tidy p (Function.update l o b) t k { w with lock := Function.update w.lock o b } :=
  ⟨by rw [h.lock], h.threadLock, h.live, h.shown, h.request⟩

theorem releaseThreadLock_wp {X : AllocationWorld → Prop} (hX : Rests X) (h : Tidy p l t k w)
    (hx : X w) (ho : t o = true) :
    (call (.releaseThreadLock o)).wp Γ
      (fun _ s' w' => s' = s ∧ Tidy p l (Function.update t o false) k w' ∧ X w')
      (fun _ _ _ => False) s w := by
  refine wp_call (P := fun w => Tidy p l t k w ∧ X w)
    (fun h he _ => ⟨h.1.env he, hX.env h.2 he⟩) ⟨h, hx⟩ (fun _ _ _ => trivial) ?_ ?_
  · intro _ w₁ w₂ hw₁ _ hs _
    have hmem : w₂ ∈ w₁.next (.releaseThreadLock o) (.ok ()) := hs.1
    simp only [next, hw₁.1.threadLock, ho, if_true, List.mem_singleton] at hmem
    subst hmem
    exact ⟨rfl, hw₁.1.releaseThread, hX.release o hw₁.2⟩
  · intro e w₁ w₂ hw₁ _ hs _
    have hmem : w₂ ∈ w₁.next (.releaseThreadLock o) (.error e) := hs.1
    simp [next, hw₁.1.threadLock, ho] at hmem

/-- Unlocking a node that is locked does not raise. -/
theorem unlockNode_wp {X : AllocationWorld → Prop} (hX : Rests X) (h : Tidy p f f k w) (hx : X w)
    (ho : f o = true) :
    (ZooKeeper.unlockNode o).wp Γ
      (fun _ s' w' => s' = s ∧
        Tidy p (Function.update f o false) (Function.update f o false) k w' ∧ X w')
      (fun _ _ _ => False) s w := by
  have env : ∀ {l : NodeRef → Bool} {w w'}, Tidy p l f k w ∧ X w → Env w w' →
      Tidy p l f k w' ∧ X w' := fun h he => ⟨h.1.env he, hX.env h.2 he⟩
  rw [ZooKeeper.unlockNode, wp_bind]
  refine readNode_wp env ⟨h, hx⟩ fun object w₁ hw₁ shows => ?_
  have locked : object.lock = true := by
    rw [(shows (by rw [hw₁.1.threadLock]; exact ho)).1, hw₁.1.lock]
    exact ho
  rw [wp_bind, raiseUnless, if_pos locked, wp_pure, wp_bind]
  refine effect_wp env (by trivial) (fun _ => by trivial) id (fun _ _ => rfl) hw₁ fun _ w₂ hw₂ => ?_
  rw [wp_bind]
  refine effect_wp env (by trivial) (fun _ => by trivial)
    (fun w => { w with lock := Function.update w.lock o false }) (fun _ _ => rfl) hw₂
    fun _ w₃ hw₃ => ?_
  exact releaseThreadLock_wp hX (hw₃.1.setLock false) (hX.lock _ hw₃.2) ho

/-- Storing the object does not make the node one that the request holds and that is
READY, or can become so. -/
def Unready (o : NodeRef) (w : AllocationWorld) : Prop :=
  w.allocated o = false ∨ (w.state o ≠ .ready ∧ w.launching o = false)

theorem Unready.env (h : Unready o w) (locked : w.threadLock o = true) (he : Env w w') :
    Unready o w' := by
  rcases h with ha | ⟨hs, hl⟩
  · refine .inl ?_
    by_contra allocated
    rw [Bool.not_eq_false] at allocated
    rw [he.allocated o allocated] at ha
    cases ha
  · exact .inr ⟨by rw [he.state o locked hl]; exact hs, he.still hl⟩

/-- The read that follows taking a lock shows what is stored. -/
theorem updateNode_wp (h : Tidy p l t k w) (ho : k o = false)
    {Q : Node → Handler Unit → AllocationWorld → Prop}
    {X : Err → Handler Unit → AllocationWorld → Prop}
    (hQ : ∀ data w', Tidy p l t k w' → Unready o w' → Q data s w') :
    (call (.updateNode o)).wp Γ Q X s w := by
  refine wp_call (P := Tidy p l t k) (fun h he _ => h.env he) h (fun _ _ _ => trivial) ?_ ?_
  · intro data w₁ w₂ hw₁ hi hs hi'
    refine hQ data w₂ (soft_tidy.stable.step (c := .updateNode o) trivial hw₁ hi hs hi') ?_
    have hmem : w₂ ∈ w₁.next (.updateNode o) (.ok data) := hs.1
    rw [(of_mem_ite hmem).2]
    unfold Unready setObject
    dsimp only
    rw [Function.update_self, Function.update_self]
    cases stored : w₁.stored o with
    | false => exact .inl rfl
    | true =>
        have dead : ¬ w₁.Live o := fun live => by
          rw [hw₁.live o live] at ho
          cases ho
        refine .inr ⟨fun hr => dead ⟨stored, .inl hr⟩, ?_⟩
        by_contra launching
        rw [Bool.not_eq_false] at launching
        exact dead ⟨stored, .inr launching⟩
  · exact fun _ _ _ _ _ hs _ => absurd hs.2.1 Bool.false_ne_true

/-- A node is locked completely or not at all. -/
theorem lockNode_wp (h : Tidy p f f f w) :
    (ZooKeeper.lockNode o).wp Γ
      (fun _ s' w' => s' = s ∧ f o = false ∧
        Tidy p (Function.update f o true) (Function.update f o true) f w' ∧ Unready o w')
      (fun _ s' w' => s' = s ∧ Tidy p f f f w') s w := by
  rw [ZooKeeper.lockNode, wp_bind]
  refine wp_call (P := Tidy p f f f) (fun h he _ => h.env he) h (fun _ _ _ => trivial) ?_ ?_
  · intro b w₁ w₂ hw₁ _ hs _
    have hmem : w₂ ∈ w₁.next (.acquireThreadLock o) (.ok b) := hs.1
    simp only [next] at hmem
    cases b with
    | false =>
        rw [List.mem_singleton.mp hmem]
        exact ⟨rfl, hw₁⟩
    | true =>
        simp only [if_true] at hmem
        split at hmem
        · cases hmem
        rename_i free
        rw [List.mem_singleton.mp hmem]
        have hf : f o = false := by
          rw [hw₁.threadLock] at free
          simpa using free
        have half := hw₁.acquireThread hf
        -- giving up: the thread lock is released and the exception passed on
        have giveUp : ∀ (e : Err) w', Tidy p f (Function.update f o true) f w' →
            ∀ {Q : Unit → Handler Unit → AllocationWorld → Prop}, (do
              tryCatch (call (.releaseThreadLock o)) fun _ =>
                call (.log "Unable to release thread lock")
              throw e : HandlerM Unit Unit).wp Γ Q
              (fun _ s' w' => s' = s ∧ Tidy p f f f w') s w' := by
          intro e w' hw' Q
          rw [wp_bind, wp_tryCatch]
          refine wp_mono (releaseThreadLock_wp rests_true hw' trivial (Function.update_self ..)) ?_
            fun _ _ _ h => h.elim
          rintro _ _ w'' ⟨rfl, hw'', -⟩
          rw [update_release hf] at hw''
          exact ⟨rfl, hw''⟩
        rw [wp_bind, raiseUnless, if_pos rfl, wp_pure, wp_bind, wp_tryCatch, wp_bind, wp_tryCatch]
        refine wp_call (P := Tidy p f (Function.update f o true) f) (fun h he _ => h.env he) half
          (fun _ _ _ => trivial) ?_ ?_
        · intro got w₃ w₄ hw₃ hi hs hi'
          have hw₄ := soft_tidy.stable.step (c := .acquireLock o) trivial hw₃ hi hs hi'
          cases got with
          | false => exact giveUp _ w₄ hw₄
          | true =>
              rw [wp_bind, raiseUnless, if_pos rfl, wp_pure]
              refine effect_wp Tidy.env (by trivial) (fun _ => by trivial)
                (fun w => { w with lock := Function.update w.lock o true }) (fun _ _ => rfl) hw₄
                fun _ w₅ hw₅ => ?_
              rw [wp_bind]
              exact updateNode_wp (hw₅.setLock true) hf fun _ w₆ hw₆ hu => ⟨rfl, hf, hw₆, hu⟩
        · exact fun e _ _ _ _ hstep _ => absurd hstep.2.1 Bool.false_ne_true
  · exact fun _ _ _ _ _ hs _ => absurd hs.1 List.not_mem_nil

end AllocationSystem

end Nodepool
