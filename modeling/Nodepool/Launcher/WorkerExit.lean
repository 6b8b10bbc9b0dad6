import Nodepool.Driver.HandlerFootprint
import Nodepool.Effect.Serial
import Nodepool.StateMachine.Launcher

/-!
The end of `PoolWorker.run`: what a worker that was told to stop does with its request
handlers, and what becomes of their locks when the launches they have started complete
in the provider manager.

The world has the locks that the handlers of the worker have taken, and the node
objects. What ZooKeeper, the driver and the cloud answer to other calls comes from a
part `R` of the world of which nothing is assumed.
-/

namespace Nodepool.WorkerExit

open Effect Method

variable {R δ : Type}

structure World (R : Type) where
  /-- the node objects of the process -/
  object : NodeRef → NodeObject
  /-- a handler holds the ZooKeeper lock of the node -/
  nodeLock : NodeRef → Bool
  /-- a handler holds the ZooKeeper lock of the request -/
  requestLock : String → Bool
  rest : R

def World.setObject (w : World R) (o : NodeRef) (object : NodeObject) : World R :=
  { w with object := Function.update w.object o object }

/-- What the surroundings answer. -/
structure Surroundings (R : Type) where
  /-- the release of the lock of a node -/
  releaseLock : NodeRef → Except Err Unit
  releaseRequestLock : String → Except Err Unit
  other : R → (c : Call) → LauncherSig.Reply c × R

/-- The answer to a call, and the world after it. -/
def answer (E : Surroundings R) : Answer LauncherSig (World R)
  | w, .readNode o => (.ok (w.object o), w)
  | w, .assignNode o a =>
      (.ok (), w.setObject o ((w.object o).assign a))
  | w, .releaseLock o =>
      match E.releaseLock o with
      | .ok () => (.ok (), { w with nodeLock := Function.update w.nodeLock o false })
      | .error e => (.error e, w)
  | w, .releaseThreadLock o =>
      if (w.object o).threadLock then
        (.ok (), w.setObject o { w.object o with threadLock := false })
      else (.error .other, w)
  | w, .releaseRequestLock id =>
      match E.releaseRequestLock id with
      | .ok () => (.ok (), { w with requestLock := Function.update w.requestLock id false })
      | .error e => (.error e, w)
  | w, .log _ => (.ok (), w)
  | w, c => ((E.other w.rest c).1, { w with rest := (E.other w.rest c).2 })

/-- The handlers of a pool worker. -/
structure Worker (δ : Type) where
  requestHandlers : List (Handler δ)
  pausedHandlers : List (Handler δ)

/-- The cleanup on exit. -/
def cleanup (E : Surroundings R) (worker : Worker δ) (w : World R) : World R :=
  worker.pausedHandlers.foldl (fun w rh =>
    ((NodeRequestHandler.unlockNodeSet true).runAlone (answer E) rh w).2) w

/-- Passes of the provider manager with the launchers of nodes. -/
def launches (E : Surroundings R) (passes : List Nat) (w : World R) : World R :=
  passes.foldl (fun w l =>
    ((StateMachineProvider.runLauncher l : LauncherM Unit Unit).runAlone (answer E) () w).2) w

/-! ### The cleanup -/

/-- Nodes of a list were unlocked, unless their lock could not be released. -/
structure Unlocked (E : Surroundings R) (nodes : List NodeRef) (w w' : World R) : Prop where
  nodeLock : ∀ o, w'.nodeLock o = true ↔ w.nodeLock o = true ∧
    ¬ (o ∈ nodes ∧ (w.object o).lock = true ∧ E.releaseLock o = .ok ())
  lock : ∀ o, (w'.object o).lock = true ↔ (w.object o).lock = true ∧
    ¬ (o ∈ nodes ∧ E.releaseLock o = .ok ())
  requestLock : w'.requestLock = w.requestLock

theorem Unlocked.nil (E : Surroundings R) (w : World R) : Unlocked E [] w w :=
  ⟨fun o => by simp, fun o => by simp, rfl⟩

theorem Unlocked.append {E : Surroundings R} {nodes nodes' : List NodeRef} {w w' w'' : World R}
    (h : Unlocked E nodes w w') (h' : Unlocked E nodes' w' w'') :
    Unlocked E (nodes ++ nodes') w w'' where
  nodeLock o := by
    rw [h'.nodeLock, h.nodeLock, h.lock, List.mem_append]
    tauto
  lock o := by
    rw [h'.lock, h.lock, List.mem_append]
    tauto
  requestLock := h'.requestLock.trans h.requestLock

/-- What does not concern the locks. -/
structure SameLocks (w w' : World R) : Prop where
  nodeLock : w'.nodeLock = w.nodeLock
  lock : ∀ o, (w'.object o).lock = (w.object o).lock
  requestLock : w'.requestLock = w.requestLock

theorem SameLocks.refl (w : World R) : SameLocks w w := ⟨rfl, fun _ => rfl, rfl⟩

theorem SameLocks.trans {w w' w'' : World R} (h : SameLocks w w') (h' : SameLocks w' w'') :
    SameLocks w w'' :=
  ⟨h'.nodeLock.trans h.nodeLock, fun o => (h'.lock o).trans (h.lock o),
    h'.requestLock.trans h.requestLock⟩

theorem Unlocked.of_same {E : Surroundings R} {nodes : List NodeRef} {w w' w'' : World R}
    (h : SameLocks w w') (h' : Unlocked E nodes w' w'') : Unlocked E nodes w w'' where
  nodeLock o := by rw [h'.nodeLock, h.nodeLock, h.lock]
  lock o := by rw [h'.lock, h.lock]
  requestLock := h'.requestLock.trans h.requestLock

/-- Calls that leave all locks alone. -/
def KeepsLocks : Call → Prop
  | .assignNode _ (.lock _) | .releaseLock _ | .releaseRequestLock _ => False
  | _ => True

theorem sameLocks_setObject (w : World R) {o : NodeRef} {object : NodeObject}
    (h : object.lock = (w.object o).lock) : SameLocks w (w.setObject o object) := by
  refine ⟨rfl, fun o' => ?_, rfl⟩
  unfold World.setObject
  dsimp only
  by_cases ho : o' = o
  · subst ho
    rw [Function.update_self, h]
  · rw [Function.update_of_ne ho]

theorem sameLocks_answer (E : Surroundings R) {c : Call} (h : KeepsLocks c) (w : World R) :
    SameLocks w (answer E w c).2 := by
  unfold answer
  split
  case h_1 => exact .refl w
  case h_2 o a =>
    refine sameLocks_setObject w ?_
    cases a <;> first | rfl | exact h.elim
  case h_3 => exact h.elim
  case h_4 o =>
    split
    · exact sameLocks_setObject w rfl
    · exact .refl w
  case h_5 => exact h.elim
  case h_6 => exact .refl w
  case h_7 => exact ⟨rfl, fun _ => rfl, rfl⟩

/-! ### Methods in this world -/

abbrev context (E : Surroundings R) : Context LauncherSig (World R) := answerContext (answer E)

variable {E : Surroundings R} {σ : Type} {s : σ} {w : World R}

theorem call_wp {c : Call} {Q : c.Val → σ → World R → Prop} {X : Err → σ → World R → Prop}
    (h : match answer E w c with
      | (.ok v, w') => Q v s w'
      | (.error e, w') => X e s w') : (call c : LauncherM σ _).wp (context E) Q X s w := by
  refine wp_answer ?_
  revert h
  rcases answer E w c with ⟨_ | _, _⟩
  · exact id
  · exact id

theorem stable_sameLocks (w : World R) : Stable (context E) KeepsLocks (SameLocks w) :=
  Stable.alone fun {c r w₁ w₂} hc hw hstep => by
    have := sameLocks_answer E hc w₁
    rw [← hstep] at this
    exact hw.trans this

theorem keepsLocks_of_within {γ α : Type} {π : σ → γ} {m : LauncherM σ α}
    (h : Within KeepsLocks π m) :
    m.wp (context E) (fun _ s' w' => π s' = π s ∧ SameLocks w w')
      (fun _ s' w' => π s' = π s ∧ SameLocks w w') s w :=
  h.wp (stable_sameLocks w) (.refl w)

/-! ### The cleanup -/

open NodeRequestHandler

theorem clearNodeAllocation_wp {s : Handler δ} (o : NodeRef) :
    (clearNodeAllocation o : HandlerM δ Unit).wp (context E)
      (fun _ s' w' => s' = s ∧ SameLocks w w') (fun _ _ _ => False) s w := by
  have store : Within KeepsLocks id (ZooKeeper.storeNode o : HandlerM δ Unit) :=
    .bind (.perform trivial) fun _ => .ite (.perform trivial) (.perform trivial)
  rw [clearNodeAllocation, wp_bind]
  refine call_wp ?_
  have cleared : SameLocks w (w.setObject o ((w.object o).assign (.allocatedTo none))) :=
    sameLocks_setObject w rfl
  dsimp only [answer]
  rw [wp_tryCatch]
  refine wp_mono (keepsLocks_of_within store) ?_ ?_
  · rintro _ s' w' ⟨rfl, same⟩
    exact ⟨rfl, cleared.trans same⟩
  · rintro _ s' w' ⟨rfl, same⟩
    exact call_wp ⟨rfl, cleared.trans same⟩

/-- A node that is not locked, or cannot be. -/
theorem unlocked_of_kept {o : NodeRef} {w' : World R} (same : SameLocks w w')
    (kept : ¬ ((w.object o).lock = true ∧ E.releaseLock o = .ok ())) : Unlocked E [o] w w' where
  nodeLock o' := by
    rw [same.nodeLock, List.mem_singleton]
    refine (and_iff_left ?_).symm
    rintro ⟨rfl, h⟩
    exact kept h
  lock o' := by
    rw [same.lock, List.mem_singleton]
    constructor
    · rintro h
      refine ⟨h, ?_⟩
      rintro ⟨rfl, released⟩
      exact kept ⟨h, released⟩
    · exact fun h => h.1
  requestLock := same.requestLock

theorem unlocked_of_released {o : NodeRef} {w' : World R} (lock : (w.object o).lock = true)
    (released : E.releaseLock o = .ok ()) (same : SameLocks ({ w with
      nodeLock := Function.update w.nodeLock o false
      object := Function.update w.object o ((w.object o).assign (.lock false)) }) w') :
    Unlocked E [o] w w' where
  nodeLock o' := by
    rw [same.nodeLock, List.mem_singleton]
    by_cases ho : o' = o
    · subst ho
      simp [lock, released]
    · simp [ho]
  lock o' := by
    rw [same.lock, List.mem_singleton]
    by_cases ho : o' = o
    · subst ho
      simp [released, NodeObject.assign]
    · simp [ho]
  requestLock := same.requestLock

/-- Unlocking a node whose object is locked, and passing over an error. -/
theorem tryUnlockNode_wp {s : Handler δ} (o : NodeRef) (message : String)
    (lock : (w.object o).lock = true) :
    (tryCatch (ZooKeeper.unlockNode o) fun _ => call (.log message) : HandlerM δ Unit).wp
      (context E) (fun _ s' w' => s' = s ∧ Unlocked E [o] w w') (fun _ _ _ => False) s w := by
  rw [wp_tryCatch, ZooKeeper.unlockNode, wp_bind]
  refine call_wp ?_
  dsimp only [answer]
  rw [wp_bind, raiseUnless, if_pos lock, wp_pure, wp_bind]
  refine call_wp ?_
  dsimp only [answer]
  cases hr : E.releaseLock o with
  | error e =>
      refine call_wp ⟨rfl, unlocked_of_kept (.refl w) ?_⟩
      rintro ⟨-, released⟩
      rw [hr] at released
      cases released
  | ok =>
      dsimp only
      rw [wp_bind]
      refine call_wp ?_
      dsimp only [answer]
      refine call_wp ?_
      dsimp only [answer]
      split
      case h_1 v w' hstep =>
        refine ⟨rfl, unlocked_of_released lock hr ?_⟩
        split at hstep
        · cases hstep
          exact sameLocks_setObject _ rfl
        · cases hstep
      case h_2 e w' hstep =>
        split at hstep
        · cases hstep
        · cases hstep
          exact call_wp ⟨rfl, unlocked_of_released lock hr (.refl _)⟩

theorem unlockNodeOfSet_wp {s : Handler δ} (o : NodeRef) :
    (unlockNodeOfSet true o : HandlerM δ Unit).wp (context E)
      (fun _ s' w' => s' = s ∧ Unlocked E [o] w w') (fun _ _ _ => False) s w := by
  rw [unlockNodeOfSet, wp_bind]
  refine call_wp ?_
  dsimp only [answer]
  split
  case isTrue lock =>
    rw [wp_bind, Nodepool.when, if_pos rfl]
    refine wp_mono (clearNodeAllocation_wp o) ?_ fun _ _ _ h => h
    rintro _ s' w' ⟨rfl, same⟩
    refine wp_mono (tryUnlockNode_wp o _ (by rw [same.lock]; exact lock)) ?_ fun _ _ _ h => h
    rintro _ s'' w'' ⟨rfl, unlocked⟩
    exact ⟨rfl, unlocked.of_same same⟩
  case isFalse lock =>
    exact ⟨rfl, unlocked_of_kept (.refl w) fun h => lock h.1⟩

theorem forEach_unlock_wp {s : Handler δ} (nodes : List NodeRef) : ∀ w : World R,
    (forEach nodes (unlockNodeOfSet true) : HandlerM δ Unit).wp (context E)
      (fun _ s' w' => s' = s ∧ Unlocked E nodes w w') (fun _ _ _ => False) s w := by
  induction nodes with
  | nil => exact fun w => ⟨rfl, .nil E w⟩
  | cons o nodes ih =>
      intro w
      rw [forEach, wp_bind]
      refine wp_mono (unlockNodeOfSet_wp o) ?_ fun _ _ _ h => h
      rintro _ s' w' ⟨rfl, first⟩
      refine wp_mono (ih w') ?_ fun _ _ _ h => h
      rintro _ s'' w'' ⟨rfl, rest⟩
      exact ⟨rfl, first.append rest⟩

theorem unlockNodeSet_unlocks (rh : Handler δ) (w : World R) :
    Unlocked E rh.nodeset w ((unlockNodeSet true).runAlone (answer E) rh w).2 := by
  have h : (unlockNodeSet true : HandlerM δ Unit).wp (context E)
      (fun _ _ w' => Unlocked E rh.nodeset w w') (fun _ _ _ => False) rh w := by
    rw [unlockNodeSet, wp_bind, wp_self, wp_bind]
    refine wp_mono (forEach_unlock_wp rh.nodeset w) ?_ fun _ _ _ h => h
    rintro _ _ w' ⟨-, unlocked⟩
    exact unlocked
  have := runAlone_of_wp h
  rcases hrun : (unlockNodeSet true : HandlerM δ Unit).runAlone (answer E) rh w with
    ⟨⟨_ | _, _⟩, w'⟩
  · rw [hrun] at this
    exact this.elim
  · rw [hrun] at this
    exact this

/-- The nodes that the paused handlers of a worker have taken. -/
def Worker.pausedNodes (worker : Worker δ) : List NodeRef :=
  worker.pausedHandlers.flatMap (·.nodeset)

theorem cleanup_unlocks (worker : Worker δ) (w : World R) :
    Unlocked E worker.pausedNodes w (cleanup E worker w) := by
  obtain ⟨requestHandlers, pausedHandlers⟩ := worker
  unfold cleanup Worker.pausedNodes
  dsimp only
  induction pausedHandlers generalizing w with
  | nil => exact .nil E w
  | cons rh pausedHandlers ih =>
      rw [List.flatMap_cons, List.foldl_cons]
      exact (unlockNodeSet_unlocks rh w).append (ih _)

/-! ### Launches that complete later -/

section Launchers

open StateMachineNodeLauncher

variable {γ : Type} {π : σ → γ}

theorem storeNode_keeps (o : NodeRef) :
    Within KeepsLocks π (ZooKeeper.storeNode o : LauncherM σ Unit) :=
  .bind (.perform trivial) fun _ => .ite (.perform trivial) (.perform trivial)

theorem assignState_keeps (o : NodeRef) (state : NodeState) :
    Within KeepsLocks π (ZooKeeper.assignState o state : LauncherM σ Unit) :=
  .bind (.perform trivial) fun _ => .perform trivial

theorem imageExternalId_keeps (providerName : String) (label : PoolLabel) :
    Within KeepsLocks π (imageExternalId providerName label : LauncherM σ _) := by
  unfold imageExternalId
  split
  · exact .pure
  · refine .bind (.perform trivial) fun image => ?_
    split
    · exact .throw
    · exact .pure

theorem startStateMachine_keeps (l : Nat) :
    Within KeepsLocks π (startStateMachine l : LauncherM σ Unit) := by
  refine .bind (.perform trivial) fun launcher => .bind (.perform trivial) fun object =>
    .bind (.perform trivial) fun label => .bind (imageExternalId_keeps _ _) fun image =>
    .bind (.perform trivial) fun quota => .bind (.perform trivial) fun _ =>
    .bind (storeNode_keeps _) fun _ => .bind (.perform trivial) fun object => ?_
  split
  · exact .throw
  · exact .bind (.perform trivial) fun machine => .perform trivial

theorem launch_keeps (l : Nat) : Within KeepsLocks π (launch l : LauncherM σ Unit) :=
  .bind (.perform trivial) fun _ => .bind (.perform trivial) fun _ =>
    .ite (.bind (.perform trivial) fun _ => .perform trivial) (startStateMachine_keeps l)

theorem submitNodescan_keeps (l : Nat) (server : Option Instance) :
    Within KeepsLocks π (submitNodescan l server : LauncherM σ Unit) := by
  have update : Within KeepsLocks π (updateNodeFromInstance l server : LauncherM σ Unit) := by
    unfold updateNodeFromInstance
    split
    · exact .pure
    · exact .bind (.perform trivial) fun _ => .bind (.perform trivial) fun _ =>
        .bind (.perform trivial) fun _ => .bind (.perform trivial) fun _ => storeNode_keeps _
  exact .bind update fun _ => .bind (.perform trivial) fun _ => .bind (.perform trivial) fun _ =>
    .bind (.perform trivial) fun _ => .bind (.perform trivial) fun _ =>
    .bind (.perform trivial) fun _ => .perform trivial

theorem advanceCreateStateMachine_keeps (l : Nat) :
    Within KeepsLocks π (advanceCreateStateMachine l : LauncherM σ Unit) := by
  refine .bind (.perform trivial) fun advanced => .bind ?_ fun server =>
    .bind (.perform trivial) fun launcher => .bind (.perform trivial) fun object =>
    .bind (when_within ?_) fun _ => when_within (submitNodescan_keeps l server)
  · unfold ofOutcome
    split
    · exact .pure
    · exact .throw
  · exact .bind (.perform trivial) fun _ => storeNode_keeps _

theorem runDeleteStateMachine_keeps (l : Nat) :
    Within KeepsLocks π (runDeleteStateMachine l : LauncherM σ Bool) := by
  refine .bind (.perform trivial) fun launcher => ?_
  split
  · exact .pure
  · refine .ite (.bind (.perform trivial) fun _ => .pure) ?_
    unfold advanceDeleteStateMachine
    refine .ite (.bind (.perform trivial) fun advanced => ?_)
      (.bind (.perform trivial) fun _ => .pure)
    split
    · exact .pure
    · exact .bind (.perform trivial) fun _ => .bind (.perform trivial) fun _ => .pure
    · exact .bind (.perform trivial) fun _ => .bind (.perform trivial) fun _ =>
        .bind (.perform trivial) fun _ => .pure

theorem finishLaunch_keeps (l r : Nat) :
    Within KeepsLocks π (finishLaunch l r : LauncherM σ Unit) :=
  .bind (.tryCatch (.perform trivial) fun _ => .bind (.perform trivial) fun _ => .throw) fun _ =>
    .bind (.perform trivial) fun _ => .bind (assignState_keeps _ _) fun _ => storeNode_keeps _

theorem runCreateStateMachine_keeps (l : Nat) (machine : StateMachine) :
    Within KeepsLocks π (runCreateStateMachine l machine : LauncherM σ Unit) := by
  refine .bind (.perform trivial) fun launcher => .bind (when_within
    (.bind (.perform trivial) fun _ => .perform trivial)) fun _ => .bind ?_ fun scanned => ?_
  · unfold finishedNodescan
    split
    · exact .pure
    · exact .ite (.bind (.perform trivial) fun _ => .pure) .pure
  · split
    · exact finishLaunch_keeps l _
    · exact .bind (.perform trivial) fun _ => .bind (.perform trivial) fun _ =>
        .bind (raiseUnless_within _ _) fun _ => .bind (runDeleteStateMachine_keeps l) fun _ =>
        when_within (advanceCreateStateMachine_keeps l)

theorem tryStateMachine_keeps (l : Nat) :
    Within KeepsLocks π (tryStateMachine l : LauncherM σ Unit) := by
  refine .bind (.perform trivial) fun launcher => ?_
  split
  · exact runCreateStateMachine_keeps l _
  · refine when_within (.bind (.perform trivial) fun done => when_within ?_)
    refine .bind (.perform trivial) fun _ => .bind (.perform trivial) fun launcher => ?_
    split
    · exact runCreateStateMachine_keeps l _
    · exact .throw

theorem removeNodescanRequest_keeps (l : Nat) :
    Within KeepsLocks π (removeNodescanRequest l : LauncherM σ Unit) :=
  .bind (.perform trivial) fun _ => .bind (.perform trivial) fun _ => .perform trivial

theorem assignExternalId_keeps (l : Nat) :
    Within KeepsLocks π (assignExternalId l : LauncherM σ Unit) := by
  refine .bind (.perform trivial) fun launcher => ?_
  split
  · exact .pure
  · exact .perform trivial

theorem failAttempt_keeps (l : Nat) (e : Err) :
    Within KeepsLocks π (failAttempt l e : LauncherM σ Unit) := by
  refine .bind (.perform trivial) fun _ => .bind ?_ fun _ => .bind (when_within ?_) fun _ =>
    .bind (removeNodescanRequest_keeps l) fun _ => .bind (.perform trivial) fun launcher =>
    .ite (assignState_keeps _ _) ?_
  · refine .bind (.perform trivial) fun launcher => ?_
    split
    · exact .pure
    · exact when_within (.bind (.perform trivial) fun _ => storeNode_keeps _)
  · exact .tryCatch (.bind (.perform trivial) fun _ => .bind (.perform trivial) fun _ =>
      .bind (.perform trivial) fun _ => .bind (.perform trivial) fun _ => .perform trivial)
      fun _ => .perform trivial
  · exact .bind (.perform trivial) fun _ => .bind (.perform trivial) fun _ =>
      .bind (.perform trivial) fun _ => .bind (.perform trivial) fun _ => launch_keeps l

/-- The launch of a node, whatever comes of it, neither takes nor gives back a lock. -/
theorem runLauncher_keeps (l : Nat) :
    Within KeepsLocks π (StateMachineProvider.runLauncher l : LauncherM σ Unit) := by
  refine .tryCatch (.bind (.tryCatch (tryStateMachine_keeps l) fun e => ?_) fun _ =>
    .bind ?_ fun _ => when_within (.perform trivial)) fun _ => .perform trivial
  · split
    · exact .bind (.perform trivial) fun _ => .bind (.perform trivial) fun _ =>
        .bind (assignState_keeps _ _) fun _ => .bind (assignExternalId_keeps l) fun _ =>
        removeNodescanRequest_keeps l
    · exact .bind (.perform trivial) fun _ => .bind (.perform trivial) fun _ =>
        .bind (assignState_keeps _ _) fun _ => .bind (assignExternalId_keeps l) fun _ =>
        .bind (storeNode_keeps _) fun _ => .bind (.perform trivial) fun _ =>
        removeNodescanRequest_keeps l
    · exact failAttempt_keeps l _
  · exact .bind (.perform trivial) fun _ => .bind (.perform trivial) fun _ => .pure

theorem launches_sameLocks (passes : List Nat) (w : World R) :
    SameLocks w (launches E passes w) := by
  unfold launches
  induction passes generalizing w with
  | nil => exact .refl w
  | cons l passes ih =>
      rw [List.foldl_cons]
      refine .trans ?_ (ih _)
      have := runAlone_of_wp (keepsLocks_of_within (E := E) (s := ()) (w := w)
        (runLauncher_keeps (π := fun _ : Unit => ()) l))
      rcases hrun : (StateMachineProvider.runLauncher l : LauncherM Unit Unit).runAlone
        (answer E) () w with ⟨⟨_ | _, _⟩, w'⟩ <;> rw [hrun] at this <;> exact this.2

end Launchers

/-! ### What is still held -/

/-- No lock that a handler of the worker has taken is held. -/
structure NothingLocked (w : World R) : Prop where
  requests : ∀ id, w.requestLock id = false
  nodes : ∀ o, w.nodeLock o = false

/-- When the worker ends, its handlers hold no lock of a request any more, and the nodes
whose locks they hold all belong to handlers that are paused; the objects of those are
marked as locked, and ZooKeeper releases them. -/
structure OnlyPausedNodes (E : Surroundings R) (worker : Worker δ) (w : World R) : Prop where
  requests : ∀ id, w.requestLock id = false
  nodes : ∀ o, w.nodeLock o = true → ∃ rh ∈ worker.pausedHandlers, o ∈ rh.nodeset ∧
    (w.object o).lock = true ∧ E.releaseLock o = .ok ()

/-- After a worker has ended and the launches of its nodes have completed, nothing is
locked exactly when at its end only nodes of paused handlers were. -/
theorem nothingLocked_iff (E : Surroundings R) (worker : Worker δ) (passes : List Nat)
    (w : World R) :
    NothingLocked (launches E passes (cleanup E worker w)) ↔ OnlyPausedNodes E worker w := by
  have unlocked := cleanup_unlocks (E := E) worker w
  have same := launches_sameLocks (E := E) passes (cleanup E worker w)
  have requests : (launches E passes (cleanup E worker w)).requestLock = w.requestLock :=
    same.requestLock.trans unlocked.requestLock
  constructor
  · rintro ⟨hrequests, hnodes⟩
    refine ⟨fun id => by rw [← requests]; exact hrequests id, ?_⟩
    intro o held
    have released := hnodes o
    rw [same.nodeLock, ← Bool.not_eq_true, unlocked.nodeLock, not_and, not_not] at released
    obtain ⟨mem, lock, release⟩ := released held
    obtain ⟨rh, hrh, ho⟩ := List.mem_flatMap.mp mem
    exact ⟨rh, hrh, ho, lock, release⟩
  · rintro ⟨hrequests, hnodes⟩
    refine ⟨fun id => by rw [requests]; exact hrequests id, ?_⟩
    intro o
    rw [same.nodeLock, ← Bool.not_eq_true, unlocked.nodeLock, not_and, not_not]
    intro held
    obtain ⟨rh, hrh, ho, lock, release⟩ := hnodes o held
    exact ⟨List.mem_flatMap.mpr ⟨rh, hrh, ho⟩, lock, release⟩

/-! ### A request that is being handled -/

/-- A handler that has locked its request and one node, which is being launched. -/
def exampleHandler : Handler Unit :=
  { Handler.init "launcher" { id := "100-1", state := .pending, declinedBy := []
                              nodeTypes := ["small"], nodes := [], reuse := true
                              requestor := none, provider := none, relativePriority := 0
                              tenantName := none } () with
    nodeset := [.own 0] }

def exampleWorld : World Unit where
  object _ := { id := some 0
                node := { state := .building, stateTime := 0, type := ["small"]
                          provider := none, pool := none, launcher := none
                          allocatedTo := some "100-1", tenantName := none, requestor := none
                          resources := none, externalId := none }
                lockContenders := false, lock := true, threadLock := true }
  nodeLock o := o = .own 0
  requestLock id := id = "100-1"
  rest := ()

def exampleSurroundings : Surroundings Unit where
  releaseLock _ := .ok ()
  releaseRequestLock _ := .ok ()
  other _ _ := (.error .other, ())

/-- The locks of a handler that is not paused stay, for its request and for its node. -/
theorem not_forall_nothingLocked :
    ¬ ∀ (E : Surroundings Unit) (worker : Worker Unit) (passes : List Nat) (w : World Unit),
      (∀ o, w.nodeLock o = true → ∃ rh ∈ worker.requestHandlers, o ∈ rh.nodeset) →
      (∀ id, w.requestLock id = true → ∃ rh ∈ worker.requestHandlers, rh.request.id = id) →
        NothingLocked (launches E passes (cleanup E worker w)) := by
  intro h
  have held : (launches exampleSurroundings [0]
      (cleanup exampleSurroundings ⟨[exampleHandler], []⟩ exampleWorld)).requestLock =
        exampleWorld.requestLock :=
    (launches_sameLocks _ _).requestLock.trans (cleanup_unlocks _ _).requestLock
  have nothing := h exampleSurroundings ⟨[exampleHandler], []⟩ [0] exampleWorld
    (fun o ho => ⟨exampleHandler, List.mem_singleton_self _, by
      rw [of_decide_eq_true ho]; exact List.mem_singleton_self _⟩)
    (fun id hid => ⟨exampleHandler, List.mem_singleton_self _, (of_decide_eq_true hid).symm⟩)
  have := nothing.requests "100-1"
  rw [held] at this
  cases this

end Nodepool.WorkerExit
