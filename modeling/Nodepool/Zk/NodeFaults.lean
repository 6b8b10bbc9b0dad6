import Nodepool.Effect.Serial
import Nodepool.Launcher.CleanupWorkers

/-!
Nodes in ZooKeeper and their objects in one launcher, while every operation of ZooKeeper
may fail: a call that raises may or may not have taken effect.

`lockNode_wp`, `unlockNode_wp` and `storeNode_wp` say what the methods of the client do
there; what goes wrong with one node leaves the others as they are.
-/

namespace Nodepool.NodeFaults

open Effect Method

/-- What raises, and whether it has taken effect all the same. Each call that is asked for
here is made at most once; the reads of the request are numbered. -/
structure Faults where
  call : Call → Option (Err × Bool)
  readRequest : ℕ → Option Err
  now : ℕ

/-- The nodes, and the request that a method is about. -/
structure World where
  /-- the node objects, in the order of the iterator -/
  refs : List NodeRef
  object : NodeRef → NodeObject
  /-- the data in ZooKeeper -/
  stored : NodeRef → Node
  request : Option NodeRequest
  /-- how often the request has been read -/
  reads : ℕ

namespace World

def setObject (w : World) (o : NodeRef) (object : NodeObject) : World :=
  { w with object := Function.update w.object o object }

def store (w : World) (o : NodeRef) (node : Node) : World :=
  { w with stored := Function.update w.stored o node }

def setRequest (w : World) (request : NodeRequest) : World := { w with request := some request }

def readRequest (w : World) : World := { w with reads := w.reads + 1 }

@[simp] theorem setObject_self (w : World) (o : NodeRef) (object : NodeObject) :
    (w.setObject o object).object o = object := by
  simp [setObject]

theorem setObject_ne (w : World) {o o' : NodeRef} (h : o' ≠ o) (object : NodeObject) :
    (w.setObject o object).object o' = w.object o' := by
  simp [setObject, h]

@[simp] theorem store_self (w : World) (o : NodeRef) (node : Node) :
    (w.store o node).stored o = node := by
  simp [store]

theorem store_ne (w : World) {o o' : NodeRef} (h : o' ≠ o) (node : Node) :
    (w.store o node).stored o' = w.stored o' := by
  simp [store, h]

end World

/-- The reply to a call that returns `v` and leads to `w'` if nothing goes wrong. -/
def reply {α : Type} (fault : Option (Err × Bool)) (v : α) (w w' : World) :
    Except Err α × World :=
  match fault with
  | none => (.ok v, w')
  | some (e, effect) => (.error e, if effect then w' else w)

def answer (E : Faults) : Answer LauncherSig World := fun w c =>
  match c with
  | .readNode o => (.ok (w.object o), w)
  | .assignNode o a => (.ok (), w.setObject o ((w.object o).assign a))
  | .time => (.ok E.now, w)
  | .log _ => (.ok (), w)
  | .nodeIterator => reply (E.call .nodeIterator) w.refs w w
  | .acquireThreadLock o =>
      reply (E.call (.acquireThreadLock o)) true w
        (w.setObject o { w.object o with threadLock := true })
  | .releaseThreadLock o =>
      reply (E.call (.releaseThreadLock o)) () w
        (w.setObject o { w.object o with threadLock := false })
  | .acquireLock o => reply (E.call (.acquireLock o)) true w w
  | .releaseLock o => reply (E.call (.releaseLock o)) () w w
  | .updateNode o =>
      reply (E.call (.updateNode o)) (w.stored o) w
        (w.setObject o { w.object o with node := w.stored o })
  | .setNode o => reply (E.call (.setNode o)) () w (w.store o (w.object o).node)
  | .getRequest _ =>
      match E.readRequest w.reads, w.request with
      | some e, _ => (.error e, w.readRequest)
      | none, none => (.error .noNode, w.readRequest)
      | none, some request => (.ok request, w.readRequest)
  | .setRequest id data => reply (E.call (.setRequest id data)) () w (w.setRequest data)
  | _ => (.error .other, w)

abbrev context (E : Faults) : Context LauncherSig World := answerContext (answer E)

/-- The two worlds differ in one node object only. -/
structure SameData (o : NodeRef) (w w' : World) : Prop where
  refs : w'.refs = w.refs
  object : ∀ o' ≠ o, w'.object o' = w.object o'
  stored : w'.stored = w.stored
  request : w'.request = w.request
  reads : w'.reads = w.reads

theorem SameData.refl (o : NodeRef) (w : World) : SameData o w w :=
  ⟨rfl, fun _ _ => rfl, rfl, rfl, rfl⟩

theorem SameData.trans {o : NodeRef} {w w' w'' : World} (h : SameData o w w')
    (h' : SameData o w' w'') : SameData o w w'' where
  refs := h'.refs.trans h.refs
  object o' ho := (h'.object o' ho).trans (h.object o' ho)
  stored := h'.stored.trans h.stored
  request := h'.request.trans h.request
  reads := h'.reads.trans h.reads

theorem sameData_setObject (o : NodeRef) (w : World) (object : NodeObject) :
    SameData o w (w.setObject o object) :=
  ⟨rfl, fun _ ho => w.setObject_ne ho object, rfl, rfl, rfl⟩

/-- Nothing goes wrong when the node is locked. -/
structure Lockable (E : Faults) (o : NodeRef) : Prop where
  threadLock : E.call (.acquireThreadLock o) = none
  lock : E.call (.acquireLock o) = none
  update : E.call (.updateNode o) = none

/-- All that can go wrong when the node is locked is that the lock is not to be had. -/
structure OnlyRefused (E : Faults) (o : NodeRef) : Prop where
  threadLock : ∀ e effect, E.call (.acquireThreadLock o) = some (e, effect) → e = .zkLock
  lock : ∀ e effect, E.call (.acquireLock o) = some (e, effect) → e = .zkLock ∨ e = .noNode
  update : E.call (.updateNode o) = none

/-- Nothing goes wrong when the node is unlocked. -/
structure Unlockable (E : Faults) (o : NodeRef) : Prop where
  lock : E.call (.releaseLock o) = none
  threadLock : E.call (.releaseThreadLock o) = none

/-- The store of the node takes effect, whether it raises or not. -/
def stores (E : Faults) (o : NodeRef) : Bool := (E.call (.setNode o)).all (·.2)

instance (E : Faults) (o : NodeRef) : Decidable (Lockable E o) :=
  decidable_of_iff (E.call (.acquireThreadLock o) = none ∧ E.call (.acquireLock o) = none ∧
      E.call (.updateNode o) = none)
    ⟨fun h => ⟨h.1, h.2.1, h.2.2⟩, fun h => ⟨h.1, h.2, h.3⟩⟩

variable {E : Faults} {σ : Type} {o : NodeRef} {s : σ} {w : World} {X : Err → σ → World → Prop}

/-! ### Calls -/

theorem reply_wp {c : Call} {v : c.Val} {w' : World} {Q : c.Val → σ → World → Prop}
    (answered : answer E w c = reply (E.call c) v w w')
    (normal : E.call c = none → Q v s w')
    (exceptional : ∀ e effect, E.call c = some (e, effect) →
      X e s (if effect then w' else w)) :
    (call c : LauncherM σ _).wp (context E) Q X s w := by
  refine wp_answer ?_
  rw [answered]
  unfold reply
  cases hc : E.call c with
  | none => exact normal hc
  | some fault => exact exceptional fault.1 fault.2 hc

theorem readNode_wp {Q : NodeObject → σ → World → Prop} (h : Q (w.object o) s w) :
    (call (.readNode o) : LauncherM σ _).wp (context E) Q X s w := wp_answer h

theorem assignNode_wp {a : NodeAttr} {Q : Unit → σ → World → Prop}
    (h : Q () s (w.setObject o ((w.object o).assign a))) :
    (call (.assignNode o a) : LauncherM σ _).wp (context E) Q X s w := wp_answer h

theorem log_wp {message : String} {Q : Unit → σ → World → Prop} (h : Q () s w) :
    (call (.log message) : LauncherM σ _).wp (context E) Q X s w := wp_answer h

theorem assignState_wp {state : NodeState} {Q : Unit → σ → World → Prop}
    (h : Q () s (w.setObject o ((w.object o).assign (.state state E.now)))) :
    (ZooKeeper.assignState o state : LauncherM σ _).wp (context E) Q X s w := by
  unfold ZooKeeper.assignState
  rw [wp_bind]
  exact wp_answer (assignNode_wp h)

/-- A request that is read is there, or it counts as missing, or the read raises. -/
theorem getNodeRequest_wp {id : String} {Q : Option NodeRequest → σ → World → Prop}
    (normal : E.readRequest w.reads = none → Q w.request s w.readRequest)
    (missing : E.readRequest w.reads ≠ none → Q none s w.readRequest)
    (exceptional : ∀ e, E.readRequest w.reads ≠ none → X e s w.readRequest) :
    (ZooKeeper.getNodeRequest id : LauncherM σ _).wp (context E) Q X s w := by
  unfold ZooKeeper.getNodeRequest
  rw [wp_tryCatch, wp_bind]
  refine wp_answer ?_
  unfold answer
  dsimp only
  cases hr : E.readRequest w.reads with
  | some e =>
      dsimp only
      split
      · exact missing (by simp [hr])
      · exact exceptional e (by simp [hr])
  | none =>
      have := normal hr
      cases hw : w.request with
      | none => rwa [hw] at this
      | some request => rwa [hw] at this

/-! ### Locking, unlocking and storing a node -/

/-- The object of a node that has just been locked. -/
def World.locked (w : World) (o : NodeRef) : World :=
  w.setObject o { w.object o with node := w.stored o, lock := true, threadLock := true }

/-- The object of a node that has just been unlocked. -/
def World.unlocked (w : World) (o : NodeRef) : World :=
  w.setObject o { w.object o with lock := false, threadLock := false }

theorem lockNode_wp {Q : Unit → σ → World → Prop}
    (normal : Lockable E o → Q () s (w.locked o))
    (exceptional : ∀ e w', ¬ Lockable E o → (OnlyRefused E o → e = .zkLock) → SameData o w w' →
      X e s w') :
    (ZooKeeper.lockNode o : LauncherM σ _).wp (context E) Q X s w := by
  unfold ZooKeeper.lockNode
  rw [wp_bind]
  refine reply_wp rfl (fun threadLock => ?_) fun e effect fault => ?_
  · rw [raiseUnless, if_pos rfl, wp_bind, wp_pure, wp_bind, wp_tryCatch]
    set w₁ := w.setObject o { w.object o with threadLock := true } with hw₁
    have same : SameData o w w₁ := sameData_setObject o w _
    -- giving up releases the thread lock if it can
    have giveUp : ∀ e, ¬ Lockable E o → (OnlyRefused E o → e = .zkLock) →
        (do
          tryCatch (call (.releaseThreadLock o)) fun _ =>
            call (.log "Unable to release thread lock")
          throw e : LauncherM σ Unit).wp (context E)
          (fun _ s w => (do let _ ← call (.updateNode o); pure () : LauncherM σ Unit).wp
            (context E) Q X s w) X s w₁ := by
      intro e not refused
      rw [wp_bind, wp_tryCatch]
      refine reply_wp rfl (fun _ => ?_) fun e' effect _ => log_wp ?_
      · exact exceptional e _ not refused (same.trans (sameData_setObject o w₁ _))
      · cases effect with
        | false => exact exceptional e _ not refused same
        | true => exact exceptional e _ not refused (same.trans (sameData_setObject o w₁ _))
    rw [wp_bind, wp_tryCatch]
    refine reply_wp rfl (fun lock => ?_) fun e effect fault => ?_
    · rw [raiseUnless, if_pos rfl, wp_bind, wp_pure]
      refine assignNode_wp ?_
      rw [wp_bind]
      refine reply_wp rfl (fun update => ?_) fun e effect fault => ?_
      · have := normal ⟨threadLock, lock, update⟩
        rw [wp_pure]
        simpa [hw₁, World.locked, World.setObject, NodeObject.assign] using this
      · have not : ¬ Lockable E o := fun h => by rw [h.update] at fault; cases fault
        have refused : OnlyRefused E o → e = .zkLock := fun h => by
          rw [h.update] at fault; cases fault
        have same' := same.trans (sameData_setObject o w₁ ((w₁.object o).assign (.lock true)))
        cases effect with
        | false => exact exceptional e _ not refused same'
        | true => exact exceptional e _ not refused (same'.trans (sameData_setObject o _ _))
    · have not : ¬ Lockable E o := fun h => by rw [h.lock] at fault; cases fault
      rw [ite_self]
      by_cases timeout : e = .lockTimeout
      · rw [if_pos timeout]
        exact giveUp _ not fun h => by rcases h.lock e effect fault with rfl | rfl <;> cases timeout
      · rw [if_neg timeout]
        by_cases noNode : e = .noNode
        · rw [if_pos noNode, wp_pure, raiseUnless, if_neg Bool.false_ne_true, wp_bind, wp_throw]
          exact giveUp _ not fun _ => rfl
        · rw [if_neg noNode]
          exact giveUp _ not fun h => (h.lock e effect fault).resolve_right noNode
  · have not : ¬ Lockable E o := fun h => by rw [h.threadLock] at fault; cases fault
    have refused : OnlyRefused E o → e = .zkLock := fun h => h.threadLock e effect fault
    cases effect with
    | false => exact exceptional e _ not refused (SameData.refl o w)
    | true => exact exceptional e _ not refused (sameData_setObject o w _)

theorem unlockNode_wp {Q : Unit → σ → World → Prop} (held : (w.object o).lock = true)
    (normal : Unlockable E o → Q () s (w.unlocked o))
    (exceptional : ∀ e w', ¬ Unlockable E o → SameData o w w' → X e s w') :
    (ZooKeeper.unlockNode o : LauncherM σ _).wp (context E) Q X s w := by
  unfold ZooKeeper.unlockNode
  rw [wp_bind]
  refine readNode_wp ?_
  rw [raiseUnless, if_pos held, wp_bind, wp_pure, wp_bind]
  refine reply_wp rfl (fun lock => ?_) fun e effect fault => ?_
  · rw [wp_bind]
    refine assignNode_wp ?_
    have same := sameData_setObject o w ((w.object o).assign (.lock false))
    refine reply_wp rfl (fun threadLock => ?_) fun e effect fault => ?_
    · have := normal ⟨lock, threadLock⟩
      simpa [World.unlocked, World.setObject, NodeObject.assign] using this
    · have not : ¬ Unlockable E o := fun h => by rw [h.threadLock] at fault; cases fault
      cases effect with
      | false => exact exceptional e _ not same
      | true => exact exceptional e _ not (same.trans (sameData_setObject o _ _))
  · have not : ¬ Unlockable E o := fun h => by rw [h.lock] at fault; cases fault
    rw [ite_self]
    exact exceptional e _ not (SameData.refl o w)

/-- The node is stored, if that takes effect; an exception is passed to the caller. -/
theorem storeNode_wp {Q : Unit → σ → World → Prop} (id : (w.object o).id ≠ none)
    (normal : E.call (.setNode o) = none → Q () s (w.store o (w.object o).node))
    (exceptional : ∀ e effect, E.call (.setNode o) = some (e, effect) →
      X e s (if effect then w.store o (w.object o).node else w)) :
    (ZooKeeper.storeNode o : LauncherM σ _).wp (context E) Q X s w := by
  unfold ZooKeeper.storeNode
  rw [wp_bind]
  refine readNode_wp ?_
  rw [if_neg id]
  exact reply_wp rfl normal exceptional

end Nodepool.NodeFaults
