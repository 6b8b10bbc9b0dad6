import Nodepool.Effect.Serial
import Nodepool.Launcher.CleanupWorkers

/-!
One pass of the `DeletedNodeWorker` over the nodes, and the node locks that it takes. A
lock is released by the pass itself, or handed over with the node to a deleter of its
provider.

What the calls return, and whether they raise, is decided from outside. The world keeps
account of the locks, and notes that a call has raised while a lock is held which the pass
then leaves behind.
-/

namespace Nodepool.LockHandover

open Effect Method

variable {R : Type}

structure World (R : Type) where
  /-- the nodes whose ZooKeeper lock the pass holds -/
  held : List NodeRef
  /-- the nodes for which a deleter has been registered -/
  deleters : List NodeRef
  /-- `node.lock` is not `None` -/
  marked : NodeRef → Bool
  threadLock : NodeRef → Bool
  /-- the data of the node objects -/
  node : NodeRef → Node
  /-- a call has raised that strands a lock -/
  stranded : Bool
  rest : R

namespace World

/-- Every lock that the pass still holds belongs to a deleter. -/
def HandedOver (w : World R) : Prop := ∀ o ∈ w.held, o ∈ w.deleters

instance (w : World R) : Decidable w.HandedOver := by
  unfold HandedOver
  infer_instance

def setThreadLock (w : World R) (o : NodeRef) (b : Bool) : World R :=
  { w with threadLock := Function.update w.threadLock o b }

def acquire (w : World R) (o : NodeRef) : World R := { w with held := o :: w.held }

def release (w : World R) (o : NodeRef) : World R := { w with held := w.held.filter (· ≠ o) }

/-- A call has raised; it strands a lock if one is held that no deleter has. -/
def strand (w : World R) : World R := { w with stranded := w.stranded || !decide w.HandedOver }

end World

/-- What the surroundings decide. With every reply the data of node objects may change,
as the node cache changes them. -/
structure Surroundings (R : Type) where
  nodes : R → Except Err (List NodeId)
  lockContenders : R → NodeRef → Bool
  time : R → Nat
  other : R → (NodeRef → Node) → (c : Call) → LauncherSig.Reply c × (NodeRef → Node) × R

/-- The identifier of a cached object. -/
def idOf : NodeRef → Option NodeId
  | .own _ => none
  | .cached id => some id

def World.object (E : Surroundings R) (w : World R) (o : NodeRef) : NodeObject where
  id := idOf o
  node := w.node o
  lockContenders := E.lockContenders w.rest o
  lock := w.marked o
  threadLock := w.threadLock o

/-- What comes of the world when a call returns. -/
def effect (w : World R) : (c : Call) → c.Val → World R
  | .acquireThreadLock o, free => if free then w.setThreadLock o true else w
  | .acquireLock o, got => if got then w.acquire o else w
  | .releaseLock o, _ => w.release o
  -- the lock of a node is below the node
  | .deleteRawNode id, _ => w.release (.cached id)
  | .updateNode o, data => { w with node := Function.update w.node o data }
  | .startNodeCleanup o, _ => { w with deleters := o :: w.deleters }
  | _, _ => w

/-- What comes of the world when a call raises. -/
def failure (w : World R) : Call → Err → World R
  | .getRequest _, e => if e = .noNode then w else w.strand
  | .updateNode _, _ | .releaseLock _, _ | .startNodeCleanup _, _ => w.strand
  | _, _ => w

def reply (E : Surroundings R) (w : World R) (c : Call) : LauncherSig.Reply c × World R :=
  match E.other w.rest w.node c with
  | (.ok v, node, rest) => (.ok v, effect { w with node := node, rest := rest } c v)
  | (.error e, node, rest) => (.error e, failure { w with node := node, rest := rest } c e)

def answer (E : Surroundings R) : Answer LauncherSig (World R)
  | w, .nodeIterator =>
      match E.nodes w.rest with
      | .ok ids => (.ok (ids.map .cached), w)
      | .error e => (.error e, w)
  | w, .readNode o => (.ok (w.object E o), w)
  | w, .assignNode o (.lock b) => (.ok (), { w with marked := Function.update w.marked o b })
  | w, .assignNode o a =>
      (.ok (), { w with node := Function.update w.node o ((w.object E o).assign a).node })
  | w, .log _ => (.ok (), w)
  | w, .time => (.ok (E.time w.rest), w)
  | w, .acquireThreadLock o =>
      if w.threadLock o then (.ok false, w) else reply E w (.acquireThreadLock o)
  | w, .releaseThreadLock o =>
      if w.threadLock o then (.ok (), w.setThreadLock o false) else (.error .other, w)
  | w, c => reply E w c

/-- The world before a pass. -/
def World.start (marked threadLock : NodeRef → Bool) (node : NodeRef → Node) (rest : R) :
    World R where
  held := []
  deleters := []
  marked := marked
  threadLock := threadLock
  node := node
  stranded := false
  rest := rest

def pass (E : Surroundings R) (w : World R) : World R :=
  ((DeletedNodeWorker.cleanupNodes : LauncherM Unit Unit).runAlone (answer E) () w).2

/-! ### Assertions -/

variable {E : Surroundings R} {σ : Type} {s : σ} {w w' : World R} {o : NodeRef}

/-- What does not concern the locks. -/
structure SameLocks (w w' : World R) : Prop where
  held : w'.held = w.held
  deleters : w'.deleters = w.deleters
  marked : w'.marked = w.marked
  threadLock : w'.threadLock = w.threadLock
  stranded : w'.stranded = w.stranded

/-- Between two nodes: what is held is thread-locked too, and a lock is stranded exactly
when a call has raised that strands it. -/
structure Settled (w : World R) : Prop where
  held : ∀ o ∈ w.held, w.threadLock o = true
  deleters : ∀ o ∈ w.deleters, w.threadLock o = true
  stranded : w.stranded = false ↔ w.HandedOver

/-- The pass holds no lock of the node. -/
structure Apart (o : NodeRef) (w : World R) : Prop extends Settled w where
  notHeld : o ∉ w.held
  noDeleter : o ∉ w.deleters

/-- The pass has locked the node, and will have to give the lock away. -/
structure InHand (o : NodeRef) (w : World R) : Prop where
  held : ∀ o ∈ w.held, w.threadLock o = true
  deleters : ∀ o ∈ w.deleters, w.threadLock o = true
  marked : w.marked o = true
  mem : o ∈ w.held
  noDeleter : o ∉ w.deleters
  stranded : w.stranded = false ↔ ∀ o' ∈ w.held, o' ≠ o → o' ∈ w.deleters

theorem Settled.same (h : Settled w) (same : SameLocks w w') : Settled w' := by
  obtain ⟨hheld, hdel, hmarked, hthread, hstr⟩ := same
  refine ⟨?_, ?_, ?_⟩
  · rw [hheld, hthread]
    exact h.held
  · rw [hdel, hthread]
    exact h.deleters
  · unfold World.HandedOver
    rw [hheld, hdel, hstr]
    exact h.stranded

theorem Apart.same (h : Apart o w) (same : SameLocks w w') : Apart o w' :=
  ⟨h.toSettled.same same, by rw [same.held]; exact h.notHeld,
    by rw [same.deleters]; exact h.noDeleter⟩

theorem InHand.same (h : InHand o w) (same : SameLocks w w') : InHand o w' := by
  obtain ⟨hheld, hdel, hmarked, hthread, hstr⟩ := same
  refine ⟨?_, ?_, ?_, ?_, ?_, ?_⟩
  · rw [hheld, hthread]
    exact h.held
  · rw [hdel, hthread]
    exact h.deleters
  · rw [hmarked]
    exact h.marked
  · rw [hheld]
    exact h.mem
  · rw [hdel]
    exact h.noDeleter
  · rw [hheld, hdel, hstr]
    exact h.stranded

/-- A call that raises between two nodes strands nothing that is not stranded yet. -/
theorem Settled.strand (h : Settled w) : Settled w.strand := by
  refine ⟨h.held, h.deleters, ?_⟩
  change (w.stranded || !decide w.HandedOver) = false ↔ w.HandedOver
  rw [Bool.or_eq_false_iff, Bool.not_eq_false', decide_eq_true_iff, h.stranded, and_self]

theorem InHand.not_handedOver (h : InHand o w) : ¬ w.HandedOver :=
  fun handedOver => h.noDeleter (handedOver o h.mem)

/-- A call that raises with a lock in hand strands it. -/
theorem InHand.strand (h : InHand o w) : Settled w.strand := by
  refine ⟨h.held, h.deleters, ?_⟩
  have handedOver := h.not_handedOver
  constructor
  · intro hs
    simp [World.strand, handedOver] at hs
  · exact fun handedOver' => absurd handedOver' handedOver

theorem InHand.release (h : InHand o w) : Apart o (w.release o) := by
  refine ⟨⟨?_, h.deleters, ?_⟩, ?_, h.noDeleter⟩
  · exact fun o' ho' => h.held o' (List.mem_of_mem_filter ho')
  · refine h.stranded.trans ?_
    unfold World.HandedOver World.release
    simp only [List.mem_filter, decide_eq_true_eq, and_imp]
  · simp [World.release]

theorem InHand.handOver (h : InHand o w) :
    Settled { w with deleters := o :: w.deleters } := by
  refine ⟨h.held, ?_, ?_⟩
  · intro o' ho'
    rcases List.mem_cons.mp ho' with rfl | ho'
    · exact h.held o' h.mem
    · exact h.deleters o' ho'
  · refine h.stranded.trans ?_
    unfold World.HandedOver
    constructor
    · intro hs o' ho'
      by_cases same : o' = o
      · exact same ▸ List.mem_cons_self
      · exact List.mem_cons_of_mem o (hs o' ho' same)
    · intro hs o' ho' ne
      exact (List.mem_cons.mp (hs o' ho')).resolve_left ne

theorem Apart.acquire (h : Apart o w) (locked : w.threadLock o = true) :
    InHand o { w.acquire o with marked := Function.update w.marked o true } := by
  refine ⟨?_, h.deleters, Function.update_self .., List.mem_cons_self, h.noDeleter, ?_⟩
  · intro o' ho'
    rcases List.mem_cons.mp ho' with rfl | ho'
    · exact locked
    · exact h.held o' ho'
  · refine h.stranded.trans ?_
    unfold World.HandedOver World.acquire
    constructor
    · intro hs o' ho' ne
      exact hs o' ((List.mem_cons.mp ho').resolve_left ne)
    · intro hs o' ho'
      refine hs o' (List.mem_cons_of_mem o ho') ?_
      rintro rfl
      exact h.notHeld ho'

theorem Apart.setThreadLock (h : Apart o w) (b : Bool) : Apart o (w.setThreadLock o b) := by
  have others : ∀ o', o' ≠ o → (w.setThreadLock o b).threadLock o' = w.threadLock o' :=
    fun o' ne => Function.update_of_ne ne ..
  refine ⟨⟨?_, ?_, h.stranded⟩, h.notHeld, h.noDeleter⟩
  · intro o' ho'
    rw [others o' fun same => h.notHeld (same ▸ ho')]
    exact h.held o' ho'
  · intro o' ho'
    rw [others o' fun same => h.noDeleter (same ▸ ho')]
    exact h.deleters o' ho'

/-! ### Calls -/

abbrev context (E : Surroundings R) : Context LauncherSig (World R) := answerContext (answer E)

variable {Q : σ → World R → Prop} {X : Err → σ → World R → Prop}

/-- A call that the surroundings answer. -/
theorem reply_wp {c : Call} (answered : answer E w c = reply E w c)
    {Q : c.Val → σ → World R → Prop}
    (normal : ∀ w' v, SameLocks w w' → Q v s (effect w' c v))
    (exceptional : ∀ w' e, SameLocks w w' → X e s (failure w' c e)) :
    (call c : LauncherM σ _).wp (context E) Q X s w := by
  refine wp_answer ?_
  rw [answered]
  unfold reply
  split
  case h_1 v w' h =>
    split at h
    · cases h
      exact normal _ v ⟨rfl, rfl, rfl, rfl, rfl⟩
    · cases h
  case h_2 e w' h =>
    split at h
    · cases h
    · cases h
      exact exceptional _ e ⟨rfl, rfl, rfl, rfl, rfl⟩

theorem readNode_wp {Q : NodeObject → σ → World R → Prop} (h : Q (w.object E o) s w) :
    (call (.readNode o) : LauncherM σ _).wp (context E) Q X s w := wp_answer h

theorem log_wp {message : String} {Q : Unit → σ → World R → Prop} (h : Q () s w) :
    (call (.log message) : LauncherM σ _).wp (context E) Q X s w := wp_answer h

/-- An assignment to the data of a node object. -/
theorem assignNode_wp {a : NodeAttr} (ha : ∀ b, a ≠ .lock b) {Q : Unit → σ → World R → Prop}
    (h : ∀ w', SameLocks w w' → Q () s w') :
    (call (.assignNode o a) : LauncherM σ _).wp (context E) Q X s w := by
  refine wp_answer ?_
  unfold answer
  cases a with
  | lock b => exact absurd rfl (ha b)
  | _ => exact h _ ⟨rfl, rfl, rfl, rfl, rfl⟩

theorem assignLock_wp {b : Bool} {Q : Unit → σ → World R → Prop}
    (h : Q () s { w with marked := Function.update w.marked o b }) :
    (call (.assignNode o (.lock b)) : LauncherM σ _).wp (context E) Q X s w := wp_answer h

/-- Calls that change nothing about the locks, whether they raise or not. -/
def Plain : Call → Prop
  | .nodeIterator | .readNode _ | .log _ | .time | .configuredProviders | .createNode _
  | .setNode _ => True
  | .assignNode _ a => ∀ b, a ≠ .lock b
  | _ => False

theorem plain_step {c : Call} (h : Plain c) (w : World R) : SameLocks w (answer E w c).2 := by
  have refl : SameLocks w w := ⟨rfl, rfl, rfl, rfl, rfl⟩
  cases c with
  | nodeIterator =>
      unfold answer
      dsimp only
      split
      · exact refl
      · exact refl
  | assignNode o a =>
      cases a with
      | lock b => exact absurd rfl (h b)
      | _ => exact ⟨rfl, rfl, rfl, rfl, rfl⟩
  | configuredProviders | createNode _ | setNode _ =>
      unfold answer reply
      dsimp only
      split
      · exact ⟨rfl, rfl, rfl, rfl, rfl⟩
      · exact ⟨rfl, rfl, rfl, rfl, rfl⟩
  | readNode _ | log _ | time => exact refl
  | _ => exact h.elim

theorem SameLocks.refl (w : World R) : SameLocks w w := ⟨rfl, rfl, rfl, rfl, rfl⟩

theorem SameLocks.trans {w'' : World R} (h : SameLocks w w') (h' : SameLocks w' w'') :
    SameLocks w w'' :=
  ⟨h'.held.trans h.held, h'.deleters.trans h.deleters, h'.marked.trans h.marked,
    h'.threadLock.trans h.threadLock, h'.stranded.trans h.stranded⟩

theorem plain_wp {α : Type} {m : LauncherM σ α} (h : Within Plain (fun _ => ()) m)
    {Q : α → σ → World R → Prop} (normal : ∀ a s' w', SameLocks w w' → Q a s' w')
    (exceptional : ∀ e s' w', SameLocks w w' → X e s' w') : m.wp (context E) Q X s w := by
  have stable : Stable (context E) Plain (SameLocks w) :=
    Stable.alone fun {c r w₁ w₂} hc hw hstep => by
      have := plain_step (E := E) hc w₁
      rw [← hstep] at this
      exact hw.trans this
  exact wp_mono (h.wp stable (.refl w)) (fun a s' w' h => normal a s' w' h.2)
    fun e s' w' h => exceptional e s' w' h.2

/-! ### Taking and releasing locks -/

theorem releaseThreadLock_wp (h : Apart o w) (locked : w.threadLock o = true) :
    (call (.releaseThreadLock o) : LauncherM σ Unit).wp (context E) (fun _ _ w' => Settled w')
      (fun _ _ _ => False) s w := by
  refine wp_answer ?_
  unfold answer
  dsimp only
  rw [if_pos locked]
  exact (h.setThreadLock false).toSettled

/-- Giving up on a lock that is not to be had. -/
theorem giveUp_wp {α : Type} (e : Err) (h : Apart o w) (locked : w.threadLock o = true)
    {Q : α → σ → World R → Prop} :
    (do
      tryCatch (call (.releaseThreadLock o)) fun _ => call (.log "Unable to release thread lock")
      throw e : LauncherM σ α).wp (context E) Q (fun _ _ w' => Settled w') s w := by
  rw [wp_bind, wp_tryCatch]
  exact wp_mono (releaseThreadLock_wp h locked) (fun _ _ _ h => h) fun _ _ _ h => h.elim

/-- The node is locked, or no lock of it is held. -/
theorem lockNode_wp (h : Settled w) :
    (ZooKeeper.lockNode o : LauncherM σ Unit).wp (context E) (fun _ _ w' => InHand o w')
      (fun _ _ w' => Settled w') s w := by
  rw [ZooKeeper.lockNode, wp_bind]
  by_cases locked : w.threadLock o = true
  · refine wp_answer ?_
    unfold answer
    dsimp only
    rw [if_pos locked]
    exact h
  have apart : Apart o w :=
    ⟨h, fun ho => locked (h.held o ho), fun ho => locked (h.deleters o ho)⟩
  refine reply_wp (by unfold answer; dsimp only; rw [if_neg locked]) ?_ fun w₁ _ same => h.same same
  intro w₁ free same
  cases free with
  | false => exact h.same same
  | true =>
      have apart₁ : Apart o (w₁.setThreadLock o true) := (apart.same same).setThreadLock true
      have locked₁ : (w₁.setThreadLock o true).threadLock o = true := Function.update_self ..
      rw [wp_bind, raiseUnless, if_pos rfl, wp_pure, wp_bind, wp_tryCatch, wp_bind, wp_tryCatch]
      change Method.wp _ _ _ _ s (w₁.setThreadLock o true)
      refine reply_wp rfl ?_ ?_
      · intro w₂ got same₂
        have apart₂ := apart₁.same same₂
        have locked₂ : w₂.threadLock o = true := by
          rw [same₂.threadLock]
          exact locked₁
        rw [wp_bind]
        cases got with
        | false => exact giveUp_wp _ apart₂ locked₂
        | true =>
            refine assignLock_wp ?_
            have inHand := apart₂.acquire locked₂
            rw [wp_bind]
            refine reply_wp rfl ?_ ?_
            · intro w₃ data same₃
              exact (inHand.same same₃).same ⟨rfl, rfl, rfl, rfl, rfl⟩
            · intro w₃ e same₃
              exact (inHand.same same₃).strand
      · intro w₂ e same₂
        have apart₂ := apart₁.same same₂
        have locked₂ : w₂.threadLock o = true := by
          rw [same₂.threadLock]
          exact locked₁
        split
        · exact giveUp_wp _ apart₂ locked₂
        split
        · exact giveUp_wp _ apart₂ locked₂
        · exact giveUp_wp _ apart₂ locked₂

theorem unlockNode_wp (h : InHand o w) :
    (ZooKeeper.unlockNode o : LauncherM σ Unit).wp (context E) (fun _ _ w' => Settled w')
      (fun _ _ w' => Settled w') s w := by
  rw [ZooKeeper.unlockNode, wp_bind]
  refine readNode_wp ?_
  rw [wp_bind, raiseUnless, if_pos (show (w.object E o).lock = true from h.marked), wp_pure,
    wp_bind]
  refine reply_wp rfl ?_ ?_
  · intro w₁ _ same
    have inHand := h.same same
    rw [wp_bind]
    refine assignLock_wp ?_
    have apart : Apart o ({ w₁.release o with
        marked := Function.update (w₁.release o).marked o false }) :=
      ⟨⟨inHand.release.held, inHand.release.deleters, inHand.release.stranded⟩,
        inHand.release.notHeld, inHand.release.noDeleter⟩
    exact wp_mono (releaseThreadLock_wp apart (inHand.held o inHand.mem)) (fun _ _ _ h => h)
      fun _ _ _ h => h.elim
  · exact fun w₁ _ same => (h.same same).strand

/-! ### One node -/

open DeletedNodeWorker

theorem ifLocked_wp {body : LauncherM σ Unit} (h : Settled w)
    (inside : ∀ s' w', InHand o w' → body.wp (context E) (fun _ _ w' => Settled w')
      (fun _ _ w' => Settled w') s' w') :
    (ifLocked o body).wp (context E) (fun _ _ w' => Settled w') (fun _ _ w' => Settled w') s w := by
  rw [ifLocked, wp_bind, wp_attempt]
  refine wp_mono (lockNode_wp h) (fun _ s' w' h' => inside s' w' h') ?_
  intro e s' w' h'
  cases e <;> exact h'

/-- Looking up the request of a node. -/
theorem getNodeRequest_wp {id : String} {P : World R → Prop}
    (stable : ∀ {w w'}, P w → SameLocks w w' → P w') (strand : ∀ {w}, P w → Settled w.strand)
    (h : P w) :
    (ZooKeeper.getNodeRequest id : LauncherM σ _).wp (context E) (fun _ _ w' => P w')
      (fun _ _ w' => Settled w') s w := by
  rw [ZooKeeper.getNodeRequest, wp_tryCatch, wp_bind]
  refine reply_wp rfl ?_ ?_
  · exact fun w₁ _ same => stable h same
  · intro w₁ e same
    change Method.wp _ _ _ _ s (if e = .noNode then w₁ else w₁.strand)
    by_cases absent : e = .noNode
    · rw [if_pos absent, if_pos absent]
      exact stable h same
    · rw [if_neg absent, if_neg absent]
      exact strand (stable h same)

theorem isLost_wp {P : World R → Prop}
    (stable : ∀ {w w'}, P w → SameLocks w w' → P w') (strand : ∀ {w}, P w → Settled w.strand)
    (h : P w) :
    (isLost o : LauncherM σ Bool).wp (context E) (fun _ _ w' => P w')
      (fun _ _ w' => Settled w') s w := by
  rw [isLost, wp_bind]
  refine readNode_wp ?_
  split
  · exact h
  · split
    · rw [wp_bind]
      exact getNodeRequest_wp stable strand h
    · exact h

theorem storeNode_plain (o : NodeRef) :
    Within Plain (fun _ => ()) (ZooKeeper.storeNode o : LauncherM σ Unit) :=
  .bind (.perform trivial) fun _ => .ite (.perform trivial) (.perform trivial)

/-- The deallocation itself; an error is logged. -/
theorem clearAllocation_wp {Q : Unit → σ → World R → Prop}
    (h : ∀ s' w', SameLocks w w' → Q () s' w') :
    (do
      call (.assignNode o (.allocatedTo none))
      tryCatch (ZooKeeper.storeNode o) fun _ =>
        call (.log "Failed to deallocate node for missing request") : LauncherM σ Unit).wp
      (context E) Q X s w := by
  rw [wp_bind]
  refine assignNode_wp (fun _ h => by cases h) fun w₁ same => ?_
  rw [wp_tryCatch]
  refine plain_wp (storeNode_plain o) ?_ ?_
  · exact fun _ s₂ w₂ same₂ => h s₂ w₂ (same.trans same₂)
  · exact fun _ s₂ w₂ same₂ => log_wp (h s₂ w₂ (same.trans same₂))

theorem deallocateNode_wp (h : Settled w) :
    (deallocateNode o : LauncherM σ Unit).wp (context E) (fun _ _ w' => Settled w')
      (fun _ _ w' => Settled w') s w := by
  rw [deallocateNode, wp_bind]
  refine wp_mono (isLost_wp Settled.same Settled.strand h) ?_ fun _ _ _ h => h
  intro lost s₁ w₁ h₁
  unfold Nodepool.when
  split
  case isFalse => exact h₁
  refine ifLocked_wp h₁ fun s₂ w₂ h₂ => ?_
  rw [wp_bind]
  refine wp_mono (isLost_wp InHand.same InHand.strand h₂) ?_ fun _ _ _ h => h
  intro stillLost s₃ w₃ h₃
  rw [wp_bind]
  split
  · exact clearAllocation_wp fun s₄ w₄ same => unlockNode_wp (h₃.same same)
  · exact unlockNode_wp h₃

/-- The record of a node is deleted with its lock. -/
theorem zkDeleteNode_wp {id : NodeId} (h : InHand (.cached id) w) :
    (ZooKeeper.deleteNode (.cached id) : LauncherM σ Unit).wp (context E)
      (fun _ _ w' => Settled w') (fun _ _ w' => InHand (.cached id) w') s w := by
  have remove : ∀ (s₁ : σ) (w₁ : World R), InHand (.cached id) w₁ →
      (do
        call (.deleteRawNode id)
        let object ← call (.readNode (.cached id))
        when (object.threadLock = true) (call (.releaseThreadLock (.cached id))) :
          LauncherM σ Unit).wp (context E) (fun _ _ w' => Settled w')
        (fun _ _ w' => InHand (.cached id) w') s₁ w₁ := by
    intro s₁ w₁ h₁
    rw [wp_bind]
    refine reply_wp rfl ?_ ?_
    · intro w₂ _ same
      change Method.wp _ _ _ _ s₁ (w₂.release (.cached id))
      have inHand := h₁.same same
      have locked : (w₂.release (.cached id)).threadLock (.cached id) = true :=
        inHand.held _ inHand.mem
      rw [wp_bind]
      refine readNode_wp ?_
      unfold Nodepool.when
      rw [if_pos (show ((w₂.release (.cached id)).object E (.cached id)).threadLock = true from
        locked)]
      exact wp_mono (releaseThreadLock_wp inHand.release locked) (fun _ _ _ h => h)
        fun _ _ _ h => h.elim
    · exact fun w₂ _ same => h₁.same same
  rw [ZooKeeper.deleteNode, wp_bind]
  refine readNode_wp ?_
  change (ZooKeeper.assignState (.cached id) .deleted >>= fun _ =>
    call (.setNode (.cached id)) >>= fun _ => _ : LauncherM σ Unit).wp _ _ _ _ _
  have assign : Within Plain (fun _ => ())
      (ZooKeeper.assignState (.cached id) .deleted : LauncherM σ Unit) :=
    .bind (.perform trivial) fun _ => .perform fun _ h => by cases h
  rw [wp_bind]
  refine plain_wp assign ?_ fun _ s₁ w₁ same => h.same same
  intro _ s₁ w₁ same₁
  rw [wp_bind]
  refine plain_wp (.perform (by trivial)) ?_ fun _ s₂ w₂ same => (h.same same₁).same same
  exact fun _ s₂ w₂ same => remove s₂ w₂ ((h.same same₁).same same)

theorem deleteRemains_wp {id : NodeId} (h : InHand (.cached id) w) :
    (deleteRemains (.cached id) : LauncherM σ Unit).wp (context E) (fun _ _ w' => Settled w')
      (fun _ _ w' => Settled w') s w := by
  rw [deleteRemains, wp_tryCatch]
  refine wp_mono (zkDeleteNode_wp h) (fun _ _ _ h => h) ?_
  intro _ s₁ w₁ h₁
  rw [wp_bind]
  refine log_wp ?_
  rw [wp_tryCatch]
  exact wp_mono (unlockNode_wp h₁) (fun _ _ _ h => h) fun _ _ _ h => log_wp h

/-- The lock goes to the deleter, if there is one. -/
theorem deleteInstance_wp (h : InHand o w) :
    (deleteInstance o : LauncherM σ Unit).wp (context E) (fun _ _ w' => Settled w')
      (fun _ _ w' => Settled w') s w := by
  rw [deleteInstance, wp_tryCatch]
  refine reply_wp rfl ?_ ?_
  · exact fun w₁ _ same => (h.same same).handOver
  · exact fun w₁ _ same => log_wp (h.same same).strand

theorem deleteNode_wp {id : NodeId} (h : Settled w) :
    (DeletedNodeWorker.deleteNode (.cached id) : LauncherM σ Unit).wp (context E)
      (fun _ _ w' => Settled w') (fun _ _ w' => Settled w') s w := by
  rw [DeletedNodeWorker.deleteNode]
  refine ifLocked_wp h fun s₁ w₁ h₁ => ?_
  rw [wp_bind]
  refine readNode_wp ?_
  split
  · exact deleteRemains_wp h₁
  split
  · exact unlockNode_wp h₁
  · exact deleteInstance_wp h₁

theorem cleanupNode_wp {id : NodeId} (h : Settled w) :
    (cleanupNode (.cached id) : LauncherM σ Unit).wp (context E) (fun _ _ w' => Settled w')
      (fun _ _ w' => Settled w') s w := by
  rw [cleanupNode, wp_bind]
  refine readNode_wp ?_
  rw [wp_bind]
  refine plain_wp (.perform (by trivial)) ?_ fun _ _ _ same => h.same same
  intro providers s₁ w₁ same
  unfold Nodepool.when
  split
  case isFalse => exact h.same same
  rw [wp_bind]
  refine wp_mono (deallocateNode_wp (h.same same)) ?_ fun _ _ _ h => h
  intro _ s₂ w₂ h₂
  rw [wp_bind]
  refine readNode_wp ?_
  split
  · exact deleteNode_wp h₂
  · exact h₂

theorem forEach_cleanupNode_wp (ids : List NodeId) (h : Settled w) :
    (forEach (ids.map .cached) cleanupNode : LauncherM σ Unit).wp (context E)
      (fun _ _ w' => Settled w') (fun _ _ w' => Settled w') s w := by
  induction ids generalizing s w with
  | nil => exact h
  | cons id ids ih =>
      rw [List.map_cons, forEach, wp_bind]
      exact wp_mono (cleanupNode_wp h) (fun _ s' w' h' => ih h') fun _ _ _ h => h

theorem cleanupNodes_wp (h : Settled w) :
    (cleanupNodes : LauncherM σ Unit).wp (context E) (fun _ _ w' => Settled w')
      (fun _ _ w' => Settled w') s w := by
  rw [cleanupNodes, wp_bind]
  refine wp_answer ?_
  unfold answer
  dsimp only
  cases E.nodes w.rest with
  | ok ids => exact forEach_cleanupNode_wp ids h
  | error e => exact h

/-! ### The pass -/

theorem settled_start (marked threadLock : NodeRef → Bool) (node : NodeRef → Node) (rest : R) :
    Settled (World.start marked threadLock node rest) where
  held _ h := nomatch h
  deleters _ h := nomatch h
  stranded := ⟨fun _ _ h => (nomatch h), fun _ => rfl⟩

theorem settled_pass (h : Settled w) : Settled (pass E w) := by
  have := runAlone_of_wp (cleanupNodes_wp (E := E) (σ := Unit) (s := ()) h)
  unfold pass
  rcases hrun : (cleanupNodes : LauncherM Unit Unit).runAlone (answer E) () w with
    ⟨⟨_ | _, _⟩, w'⟩
  · rw [hrun] at this
    exact this
  · rw [hrun] at this
    exact this

/-- At the end of a pass every lock that it took is released or has gone to a deleter,
exactly when no call has raised that strands a lock. -/
theorem handedOver_iff (E : Surroundings R) (marked threadLock : NodeRef → Bool)
    (node : NodeRef → Node) (rest : R) :
    (pass E (World.start marked threadLock node rest)).HandedOver ↔
      (pass E (World.start marked threadLock node rest)).stranded = false :=
  (settled_pass (settled_start marked threadLock node rest)).stranded.symm

/-! ### A provider that is gone -/

/-- One node that is to be deleted, and a provider manager that cannot be looked up. -/
def exampleSurroundings : Surroundings Unit where
  nodes _ := .ok [0]
  lockContenders _ _ := false
  time _ := 0
  other _ node c := (match c with
    | .configuredProviders => .ok ["cloud"]
    | .acquireThreadLock _ | .acquireLock _ => .ok true
    | .updateNode o => .ok (node o)
    | _ => .error .other, node, ())

def exampleNode : Node where
  state := .deleting
  stateTime := 0
  type := ["small"]
  provider := some "cloud"
  pool := none
  launcher := none
  allocatedTo := none
  tenantName := none
  requestor := none
  resources := none
  externalId := some "server"

theorem not_forall_handedOver :
    ¬ ∀ (E : Surroundings Unit) (marked threadLock : NodeRef → Bool) (node : NodeRef → Node),
      (pass E (World.start marked threadLock node ())).HandedOver := by
  intro h
  have handedOver := h exampleSurroundings (fun _ => false) (fun _ => false) fun _ => exampleNode
  have held : (pass exampleSurroundings (World.start (fun _ => false) (fun _ => false)
      (fun _ => exampleNode) ())).held = [.cached 0] := rfl
  have deleters : (pass exampleSurroundings (World.start (fun _ => false) (fun _ => false)
      (fun _ => exampleNode) ())).deleters = [] := rfl
  have := handedOver (.cached 0) (held ▸ List.mem_singleton_self _)
  rw [deleters] at this
  exact List.not_mem_nil this

end Nodepool.LockHandover
