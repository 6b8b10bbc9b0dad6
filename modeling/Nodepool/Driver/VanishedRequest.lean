import Nodepool.Driver.FinalState
import Nodepool.Driver.LockRelease

/-!
Requests that their client has deleted. A handler looks for the stored request in one
place only, where it accepts the request; a handler that is paused has passed that
place. So the first run of a handler never launches a node for a request that is gone,
and a later run does so if the driver still has quota.
-/

namespace Nodepool

open Effect Method NodeRequestHandler

/-- The calls that make a new node: its object, and its launcher. -/
def Call.startsNode : Call → Prop
  | .newNode _ | .launch _ => True
  | _ => False

instance (c : Call) : Decidable c.startsNode := by
  cases c <;> first | exact instDecidableTrue | exact instDecidableFalse

namespace HandlerSystem

/-- Calls of a handler that is about to give up. -/
def startsNoNode (c : Call) : Prop := ¬ c.startsNode

/-- The context of a handler whose request is gone, and which must start no node. -/
abbrev gone (ok : HandlerWorld → Event handlerSystem → Prop) :
    Context LauncherSig HandlerWorld :=
  handlerSystem.context ok (fun w => w.request = none) (fun _ _ => True)
    (fun _ c => startsNoNode c) ()

variable {ok : HandlerWorld → Event handlerSystem → Prop} {s : Handler Unit} {w : HandlerWorld}

/-! ### The request stays away -/

theorem next_gone (h : w.request = none) (c : Call) (r : LauncherSig.Reply c) :
    ∀ w' ∈ w.next c r, w'.request = none := by
  intro w' hw'
  by_cases hc : c.keepsRequest
  · exact (next_keepsRequest hc w' hw').1.trans h
  · cases c with
    | setRequest id data =>
        cases r with
        | ok _ =>
            rw [HandlerWorld.next_setRequest_ok, if_pos h] at hw'
            cases hw'
        | error _ =>
            rw [HandlerWorld.next_setRequest_error, if_pos h] at hw'
            exact List.mem_singleton.mp hw' ▸ h
    | releaseRequestLock id =>
        cases r with
        | ok _ => exact List.mem_singleton.mp hw' ▸ h
        | error _ =>
            rw [HandlerWorld.next_releaseRequestLock_error] at hw'
            split at hw'
            · cases hw'
            · rcases List.mem_pair.mp hw' with rfl | rfl <;> exact h
    | _ => exact absurd trivial hc

theorem env_gone {w' : HandlerWorld} (h : w.request = none) (he : HandlerWorld.Env w w') :
    w'.request = none := by
  rcases he.request with hr | hr
  · rw [hr]
    exact h
  · exact hr

/-! ### Methods that start no node -/

theorem stable_gone : Stable (gone ok) startsNoNode fun _ => True where
  rely _ _ _ := trivial
  req hc _ _ := hc
  step _ _ _ _ _ := trivial

/-- What a method that starts no node leaves alone. -/
theorem frame {α γ : Type} {π : Handler Unit → γ} {m : HandlerM Unit α}
    (h : Within startsNoNode π m) :
    m.wp (gone ok) (fun _ s' _ => π s' = π s) (fun _ s' _ => π s' = π s) s w :=
  wp_mono (h.wp stable_gone trivial) (fun _ _ _ h => h.1) fun _ _ _ h => h.1

theorem local_wp {c : Call} (hl : isLocal c) (hc : startsNoNode c)
    {Q : c.Val → Handler Unit → HandlerWorld → Prop} {X : Err → Handler Unit → HandlerWorld → Prop}
    (h : ∀ v w', Q v s w') : (call c).wp (gone ok) Q X s w := by
  refine wp_perform.mpr fun w₁ _ _ => ⟨hc, fun v w₂ _ _ => h v w₂, ?_⟩
  intro e w₂ hs _
  have hmem : w₂ ∈ w₁.next c (.error e) := hs.1
  rw [next_isLocal hl] at hmem
  cases hmem

section Footprints

variable {γ : Type} {π : Handler Unit → γ}

theorem startsNoNode_of_consults {c : Call} (h : c.consults) : startsNoNode c := by
  cases c <;> first | exact h.elim | exact id

theorem startsNoNode_of_locksNode {o : NodeRef} {c : Call} (h : c.locksNode o) :
    startsNoNode c := by
  cases c <;> first | exact h.elim | exact id

theorem storeNode_startsNoNode (o : NodeRef) :
    Within startsNoNode π (ZooKeeper.storeNode o : HandlerM Unit Unit) :=
  .bind (.perform id) fun _ => .ite (.perform id) (.perform id)

theorem lockNode_startsNoNode (o : NodeRef) :
    Within startsNoNode π (ZooKeeper.lockNode o : HandlerM Unit Unit) :=
  (ZooKeeper.lockNode_locksNode o).mono fun _ => startsNoNode_of_locksNode

theorem unlockNode_startsNoNode (o : NodeRef) :
    Within startsNoNode π (ZooKeeper.unlockNode o : HandlerM Unit Unit) :=
  .bind (.perform id) fun _ => .bind (raiseUnless_within _ _) fun _ =>
    .bind (.perform id) fun _ => .bind (.perform id) fun _ => .perform id

theorem deleteUnusedNode_startsNoNode (o : NodeRef) :
    Within startsNoNode π (ZooKeeper.deleteUnusedNode o : HandlerM Unit Bool) := by
  refine .bind (.attempt (lockNode_startsNoNode o)) fun locked => ?_
  split
  · exact .pure
  · exact .throw
  · refine .bind (.perform id) fun _ => .ite ?_ ?_
    · exact .bind (unlockNode_startsNoNode o) fun _ => .pure
    · refine .bind (.attempt (.bind (.bind (.perform id) fun _ => .perform id) fun _ =>
        storeNode_startsNoNode o)) fun stored => ?_
      split
      · exact .bind (unlockNode_startsNoNode o) fun _ => .pure
      · exact .bind (.perform id) fun _ => .bind (unlockNode_startsNoNode o) fun _ => .pure

theorem deleteOldestUnusedNode_startsNoNode (providerName poolName : String) :
    Within startsNoNode π
      (ZooKeeper.deleteOldestUnusedNode providerName poolName : HandlerM Unit Bool) := by
  have deleteFirst : ∀ os, Within startsNoNode π
      (ZooKeeper.deleteFirstUnusedNode os : HandlerM Unit Bool) := by
    intro os
    induction os with
    | nil => exact .pure
    | cons o os ih => exact .bind (deleteUnusedNode_startsNoNode o) fun _ => .ite .pure ih
  refine .bind (.perform id) fun nodes =>
    .bind (ZooKeeper.unusedNodes_within (fun _ => id) id _ _ nodes) fun found => ?_
  split
  · exact .pure
  · exact deleteFirst _

theorem storeNodeRequest_startsNoNode :
    Within startsNoNode π (storeNodeRequest : HandlerM Unit Unit) :=
  .bind .self fun _ => .bind (ZooKeeper.getNodeRequest_within id) fun _ =>
    .ite .throw (.perform id)

/-- Taking a node that is there already. -/
theorem addReadyNode_startsNoNode (ntype : String) (o : NodeRef) :
    Within startsNoNode Handler.paused (do
      let h ← self
      call (.assignNode o (.allocatedTo (some h.request.id)))
      call (.assignNode o (.tenantName h.request.tenantName))
      call (.assignNode o (.requestor h.request.requestor))
      ZooKeeper.storeNode o
      let object ← call (.readNode o)
      assign (·.addNode o ntype object.id)
      call (.nodeReusedNotification o) : HandlerM Unit Unit) :=
  .bind .self fun _ => .bind (.perform id) fun _ => .bind (.perform id) fun _ =>
    .bind (.perform id) fun _ => .bind (storeNode_startsNoNode o) fun _ =>
    .bind (.perform id) fun _ => .bind (.assign fun _ => rfl) fun _ => .perform id

end Footprints

/-! ### Declining -/

theorem unlockNodeOfSet_gone (clear : Bool) (o : NodeRef) :
    (unlockNodeOfSet clear o).wp (gone ok) (fun _ s' _ => s' = s) (fun _ _ _ => False) s w := by
  -- an error of either step is logged
  have logged : ∀ {m : HandlerM Unit Unit} {message : String} {s : Handler Unit}
      {w : HandlerWorld}, Within startsNoNode id m →
      (tryCatch m fun _ => call (.log message)).wp (gone ok) (fun _ s' _ => s' = s)
        (fun _ _ _ => False) s w := by
    intro m message s w within
    rw [wp_tryCatch]
    refine wp_mono (frame within) (fun _ _ _ h => h) ?_
    rintro _ s' _ rfl
    exact local_wp (by trivial) (by exact id) fun _ _ => rfl
  rw [unlockNodeOfSet, wp_bind]
  refine local_wp (by trivial) (by exact id) fun object w₁ => ?_
  split
  · rw [wp_bind]
    refine wp_mono (Q := fun _ s' _ => s' = s) (E := fun _ _ _ => False) ?_ ?_ fun _ _ _ h => h
    · unfold Nodepool.when
      split
      · rw [clearNodeAllocation, wp_bind]
        exact local_wp (by trivial) (by exact id) fun _ _ => logged (storeNode_startsNoNode o)
      · rfl
    · rintro _ s' w' rfl
      exact logged (unlockNode_startsNoNode o)
  · rfl

theorem unlockNodeSet_gone (clear : Bool) :
    (unlockNodeSet clear).wp (gone ok) (fun _ s' _ => s' = { s with nodeset := [] })
      (fun _ _ _ => False) s w := by
  rw [unlockNodeSet, wp_bind, wp_self, wp_bind]
  refine wp_mono (wp_forEach (J := fun s' _ => s' = s) ?_ rfl) ?_ fun _ _ _ h => h
  · rintro o _ w' rfl
    exact unlockNodeOfSet_gone clear o
  · rintro _ _ w' rfl
    rfl

theorem declinedHandlerCleanup_gone :
    declinedHandlerCleanup.wp (gone ok) (fun _ s' _ => s'.paused = false)
      (fun _ _ _ => False) s w := by
  have giveBack : Within startsNoNode Handler.paused
      (do storeNodeRequest; unlockNodeRequest : HandlerM Unit Unit) :=
    .bind storeNodeRequest_startsNoNode fun _ => .bind .self fun _ =>
      .bind (raiseUnless_within _ _) fun _ => .bind (.perform id) fun _ =>
      .bind (.assign fun _ => rfl) fun _ => .assign fun _ => rfl
  rw [declinedHandlerCleanup, wp_bind]
  refine wp_mono (unlockNodeSet_gone true) ?_ fun _ _ _ h => h
  rintro _ _ w₁ rfl
  rw [wp_bind, wp_assign, wp_bind, wp_tryCatch]
  refine wp_mono (frame giveBack) (fun _ s₂ w₂ h => h) ?_
  intro _ s₂ w₂ h
  exact local_wp (by trivial) (by exact id) fun _ _ => h

/-- Declining does not fail, or changes nothing about the pause of a handler that is
not paused. -/
def Declines (ok : HandlerWorld → Event handlerSystem → Prop) (s : Handler Unit) : Prop :=
  s.paused = false ∨ ∀ w e, ¬ ok w (.call () .getRegisteredPools (.error e))

theorem declineRequest_gone (h : Declines ok s) :
    declineRequest.wp (gone ok) (fun _ s' _ => s'.paused = false)
      (fun _ s' _ => s'.paused = false) s w := by
  rw [declineRequest, wp_bind, declineLocally, wp_bind, wp_assign, wp_bind]
  refine wp_perform.mpr fun w₁ _ _ => ⟨id, ?_, ?_⟩
  · intro pools w₂ _ _
    rw [wp_bind, wp_self]
    split <;> rw [wp_assign] <;>
      exact wp_mono declinedHandlerCleanup_gone (fun _ _ _ h => h) fun _ _ _ h => False.elim h
  · intro e w₂ hs _
    rcases h with unpaused | always
    · unfold Handler.addDeclinedBy
      split
      · exact unpaused
      · exact unpaused
    · exact absurd hs.2 (always _ e)

/-! ### The first run -/

theorem setFromPoolWorker_startsNoNode :
    Within startsNoNode shared (setFromPoolWorker : HandlerM Unit Unit) :=
  setFromPoolWorker_within fun _ => startsNoNode_of_consults

theorem getDeclinedReasons_startsNoNode :
    Within startsNoNode shared (getDeclinedReasons Driver.external) :=
  getDeclinedReasons_of (fun _ => startsNoNode_of_consults) (.perform (by exact id))
    fun _ => .perform (by exact id)

/-- What the attributes of two handlers have in common that differ in what they have
looked up. -/
theorem paused_of_shared {s s' : Handler Unit} (h : shared s' = shared s) :
    s'.paused = s.paused := by
  have := congrArg Handler.paused h
  exact this

/-- A request that is gone cannot be accepted. -/
theorem acceptRequest_gone :
    acceptRequest.wp (gone ok) (fun _ _ _ => False) (fun _ s' _ => s'.paused = s.paused) s w := by
  rw [acceptRequest, wp_bind, wp_assign, storeNodeRequest, wp_bind, wp_self, wp_bind,
    ZooKeeper.getNodeRequest, wp_tryCatch, wp_bind]
  refine wp_perform.mpr fun w₁ _ vanished => ⟨id, ?_, ?_⟩
  · intro data w₂ hs _
    have hmem : w₂ ∈ w₁.next (.getRequest _) (.ok data) := hs.1
    rw [HandlerWorld.next_getRequest_ok, show w₁.request = none from vanished,
      if_neg (by simp)] at hmem
    cases hmem
  · intro e w₂ _ _
    split
    · rw [wp_pure, if_pos rfl]
      rfl
    · rfl

theorem runHandler_first (unpaused : s.paused = false) :
    (runHandler Driver.external).wp (gone ok) (fun _ s' _ => s'.paused = false)
      (fun _ s' _ => s'.paused = false) s w := by
  rw [runHandler, wp_bind]
  refine wp_mono (frame setFromPoolWorker_startsNoNode) ?_
    fun _ s₁ _ h => (paused_of_shared h).trans unpaused
  intro _ s₁ w₁ h₁
  rw [wp_bind]
  refine wp_mono (frame (π := shared) provider_within) ?_
    fun _ s₂ _ h₂ => (paused_of_shared (h₂.trans h₁)).trans unpaused
  intro _ s₂ w₂ h₂
  rw [wp_bind]
  refine wp_mono (frame (π := shared) pool_within) ?_
    fun _ s₃ _ h₃ => (paused_of_shared (h₃.trans (h₂.trans h₁))).trans unpaused
  intro _ s₃ w₃ h₃
  rw [wp_bind]
  refine wp_mono (frame getDeclinedReasons_startsNoNode) ?_
    fun _ s₄ _ h₄ => (paused_of_shared (h₄.trans (h₃.trans (h₂.trans h₁)))).trans unpaused
  intro reasons s₄ w₄ h₄
  have unpaused₄ : s₄.paused = false :=
    (paused_of_shared (h₄.trans (h₃.trans (h₂.trans h₁)))).trans unpaused
  split
  · exact declineRequest_gone (.inl unpaused₄)
  · rw [wp_bind, wp_self, wp_bind, Nodepool.when, if_pos (by simp [unpaused₄])]
    refine wp_mono acceptRequest_gone (fun _ _ _ h => h.elim) fun _ s₅ _ h₅ => ?_
    exact h₅.trans unpaused₄

/-! ### A paused handler that is run again -/

/-- The steps that a handler may take which was paused: the driver finds no quota for a
node and does not pause at quota, and the registered launchers can be read. -/
structure GivesUp (ok : HandlerWorld → Event handlerSystem → Prop) : Prop where
  remaining : ∀ w ntype, ¬ ok w (.call () (.hasRemainingQuota ntype) (.ok true))
  pause : ∀ w, ¬ ok w (.call () .pauseAtQuota (.ok true))
  pools : ∀ w e, ¬ ok w (.call () .getRegisteredPools (.error e))

/-- A method of whose outcome nothing is needed. -/
theorem pass {α : Type} {m : HandlerM Unit α} (h : Within startsNoNode (fun _ => ()) m)
    {Q : α → Handler Unit → HandlerWorld → Prop} (hq : ∀ a s' w', Q a s' w') :
    m.wp (gone ok) Q (fun _ _ _ => True) s w :=
  wp_mono (frame h) (fun a s' w' _ => hq a s' w') fun _ _ _ _ => trivial

/-- A handler that takes a node is not paused any more. -/
theorem useReadyNode_gone (ntype : String) (o : NodeRef) :
    (useReadyNode Driver.external ntype o).wp (gone ok) (fun _ s' _ => s'.paused = false)
      (fun _ _ _ => True) s w := by
  rw [useReadyNode, wp_bind, wp_assign]
  exact wp_mono (frame (addReadyNode_startsNoNode ntype o)) (fun _ _ _ h => h)
    fun _ _ _ _ => trivial

theorem tryReadyNode_gone (ntype : String) (o : NodeRef) :
    (tryReadyNode Driver.external ntype o).wp (gone ok) (fun got s' _ => got = true →
      s'.paused = false) (fun _ _ _ => True) s w := by
  rw [tryReadyNode, wp_bind]
  refine pass provider_within fun provider _ _ => ?_
  rw [wp_bind]
  refine pass pool_within fun pool _ _ => ?_
  rw [wp_bind]
  refine pass (.perform (by exact id)) fun object _ _ => ?_
  split
  · exact fun h => (nomatch h)
  split
  · exact fun h => (nomatch h)
  split
  · exact fun h => (nomatch h)
  rw [wp_bind]
  refine pass (.perform (by exact id)) fun reusable _ _ => ?_
  split
  case isFalse => exact fun h => (nomatch h)
  rw [wp_bind]
  refine pass (.attempt (lockNode_startsNoNode o)) fun locked _ _ => ?_
  split
  · exact fun h => (nomatch h)
  · trivial
  rw [wp_bind]
  refine pass (.perform (by exact id)) fun object _ _ => ?_
  split
  · rw [wp_bind]
    exact pass (unlockNode_startsNoNode o) fun _ _ _ h => (nomatch h)
  split
  · rw [wp_bind]
    exact pass (unlockNode_startsNoNode o) fun _ _ _ h => (nomatch h)
  rw [wp_bind]
  exact wp_mono (useReadyNode_gone ntype o) (fun _ _ _ h _ => h) fun _ _ _ h => h

theorem grabReadyNode_gone (ntype : String) (os : List NodeRef) :
    (grabReadyNode Driver.external ntype os).wp (gone ok) (fun got s' _ => got = true →
      s'.paused = false) (fun _ _ _ => True) s w := by
  induction os generalizing s w with
  | nil => exact fun h => (nomatch h)
  | cons o os ih =>
      rw [grabReadyNode, wp_bind]
      refine wp_mono (tryReadyNode_gone ntype o) ?_ fun _ _ _ h => h
      intro got s₁ w₁ h₁
      split
      case isTrue hgot => exact fun _ => h₁ hgot
      case isFalse => exact ih

theorem atQuota_gone (gives : GivesUp ok) :
    atQuota.wp (gone ok) (fun _ s' _ => s'.paused = false) (fun _ _ _ => True) s w := by
  rw [atQuota, wp_bind, wp_self]
  split
  · exact wp_mono (declineRequest_gone (.inr gives.pools)) (fun _ _ _ h => h)
      fun _ _ _ _ => trivial
  · rw [wp_bind]
    refine pass provider_within fun provider _ _ => ?_
    rw [wp_bind]
    refine pass pool_within fun pool _ _ => ?_
    rw [wp_bind]
    refine pass (deleteOldestUnusedNode_startsNoNode _ _) fun _ _ _ => ?_
    rw [wp_bind]
    refine wp_perform.mpr fun w₁ _ _ => ⟨id, ?_, fun _ _ _ _ => trivial⟩
    intro pauseAtQuota w₂ hs _
    cases pauseAtQuota with
    | true => exact absurd hs.2 (gives.pause _)
    | false =>
        exact wp_mono declinedHandlerCleanup_gone (fun _ _ _ h => h) fun _ _ _ _ => trivial

/-- The loop ends at quota, or because all nodes are there that the request needs. -/
theorem fillNodeSet_gone (gives : GivesUp ok) (readyNodes : Dict String (List NodeRef))
    (types : List String) (h : types ≠ [] ∨ s.paused = false) :
    (fillNodeSet Driver.external readyNodes types).wp (gone ok) (fun _ s' _ => s'.paused = false)
      (fun _ _ _ => True) s w := by
  induction types generalizing s w with
  | nil => exact h.resolve_left fun h => h rfl
  | cons ntype types ih =>
      rw [fillNodeSet, wp_bind, wp_self, wp_bind]
      refine wp_mono (grabReadyNode_gone ntype _) ?_ fun _ _ _ h => h
      intro got s₁ w₁ h₁
      split
      case isTrue hgot => exact ih (.inr (h₁ hgot))
      case isFalse =>
        rw [wp_bind]
        refine wp_perform.mpr fun w₂ _ _ => ⟨id, ?_, fun _ _ _ _ => trivial⟩
        intro remaining w₃ hs _
        cases remaining with
        | true => exact absurd hs.2 (gives.remaining _ ntype)
        | false => exact atQuota_gone gives

/-- Some node that the request needs is not there yet. -/
def Lacks (h : Handler Unit) : Prop :=
  neededTypes h.request.nodeTypes h.satisfiedTypes.labels ≠ []

instance (h : Handler Unit) : Decidable (Lacks h) := by
  unfold Lacks
  infer_instance

theorem lacks_of_shared {s s' : Handler Unit} (h : shared s' = shared s) (lacks : Lacks s) :
    Lacks s' := by
  have request := congrArg Handler.request h
  have satisfied := congrArg Handler.satisfiedTypes h
  change s'.request = s.request at request
  change s'.satisfiedTypes = s.satisfiedTypes at satisfied
  unfold Lacks
  rw [request, satisfied]
  exact lacks

theorem waitForNodeSet_gone (gives : GivesUp ok) (lacks : Lacks s) :
    (waitForNodeSet Driver.external).wp (gone ok) (fun _ s' _ => s'.paused = false)
      (fun _ _ _ => True) s w := by
  rw [waitForNodeSet, wp_bind, wp_self]
  split
  · rw [wp_bind]
    refine wp_perform.mpr fun w₁ _ _ => ⟨id, ?_, fun _ _ _ _ => trivial⟩
    exact fun readyNodes w₂ _ _ => fillNodeSet_gone gives readyNodes _ (.inl lacks)
  · exact fillNodeSet_gone gives ∅ _ (.inl lacks)

theorem runHandler_again (gives : GivesUp ok) (lacks : Lacks s) :
    (runHandler Driver.external).wp (gone ok) (fun _ s' _ => s'.paused = false)
      (fun _ _ _ => True) s w := by
  rw [runHandler, wp_bind]
  refine wp_mono (frame setFromPoolWorker_startsNoNode) ?_ fun _ _ _ _ => trivial
  intro _ s₁ w₁ h₁
  rw [wp_bind]
  refine wp_mono (frame (π := shared) provider_within) ?_ fun _ _ _ _ => trivial
  intro _ s₂ w₂ h₂
  rw [wp_bind]
  refine wp_mono (frame (π := shared) pool_within) ?_ fun _ _ _ _ => trivial
  intro _ s₃ w₃ h₃
  rw [wp_bind]
  refine wp_mono (frame getDeclinedReasons_startsNoNode) ?_ fun _ _ _ _ => trivial
  intro reasons s₄ w₄ h₄
  have lacks₄ : Lacks s₄ := lacks_of_shared (h₄.trans (h₃.trans (h₂.trans h₁))) lacks
  split
  · exact wp_mono (declineRequest_gone (.inr gives.pools)) (fun _ _ _ h => h)
      fun _ _ _ _ => trivial
  · rw [wp_bind, wp_self, wp_bind, Nodepool.when]
    split
    · exact wp_mono acceptRequest_gone (fun _ _ _ h => h.elim) fun _ _ _ _ => trivial
    · exact waitForNodeSet_gone gives lacks₄

/-! ### Runs -/

/-- A handler that is not paused, or that is and will give up the request. -/
def Harmless (ok : HandlerWorld → Event handlerSystem → Prop) (h : Handler Unit) : Prop :=
  h.paused = false ∨ (GivesUp ok ∧ Lacks h)

theorem run_gone (h : Harmless ok s) :
    (run Driver.external).wp (gone ok) (fun _ s' _ => s'.paused = false)
      (fun _ s' _ => s'.paused = false) s w := by
  rw [run, wp_tryCatch]
  rcases h with unpaused | ⟨gives, lacks⟩
  · refine wp_mono (runHandler_first unpaused) (fun _ _ _ h => h) fun _ s₁ w₁ h₁ => ?_
    rw [wp_bind]
    exact local_wp (by trivial) (by exact id) fun _ _ => declineRequest_gone (.inl h₁)
  · refine wp_mono (runHandler_again gives lacks) (fun _ _ _ h => h) fun _ s₁ w₁ _ => ?_
    rw [wp_bind]
    exact local_wp (by trivial) (by exact id) fun _ _ => declineRequest_gone (.inr gives.pools)

/-- A step of one call of `run`. A handler that was paused when `run` was called finds
no quota for a node and does not pause again, and reads the registered launchers. -/
def duringRun (paused : Bool) (_ : HandlerWorld) : Event handlerSystem → Bool
  | .start () _ => false
  | .call () (.hasRemainingQuota _) (.ok remaining) => !(paused && remaining)
  | .call () .pauseAtQuota (.ok pauseAtQuota) => !(paused && pauseAtQuota)
  | .call () .getRegisteredPools (.error _) => !paused
  | _ => true

abbrev DuringRun (paused : Bool) (w : HandlerWorld) (e : Event handlerSystem) : Prop :=
  duringRun paused w e = true

theorem givesUp_duringRun : GivesUp (DuringRun true) where
  remaining _ _ h := by cases h
  pause _ h := by cases h
  pools _ _ h := by cases h

/-- Nothing is being started, and once `run` has returned the handler is not paused. -/
structure NothingStarted (cfg : Config handlerSystem) : Prop where
  calls : ∀ c k, cfg.thread () = .call c k → ¬ c.startsNode
  unpaused : ∀ t, cfg.thread () = .pure t → t.handler.paused = false

/-- The proof outline of one call of `run`. -/
def oneRun (paused : Bool) : Outline handlerSystem (DuringRun paused) where
  inv w := w.request = none
  rely _ _ _ := True
  req _ _ c := startsNoNode c
  linv _ t _ := t.handler.paused = false
  rely_refl _ _ := trivial
  rely_trans _ _ _ _ _ _ := trivial
  linv_stable _ _ _ _ h _ _ := h
  entry _ _ _ _ started := by cases started
  call_inv _ _ _ _ _ h _ _ hmem := next_gone h _ _ _ hmem
  call_rely _ _ _ _ _ _ _ _ _ _ _ := trivial
  env_inv h he := env_gone h he
  env_rely _ _ _ _ _ := trivial

/-- A run of a handler whose request is gone starts nothing and ends with a handler
that is not paused, if the handler was not paused before or now gives up. -/
theorem nothingStarted_of_vanished {cfg cfg₁ cfg' : Config handlerSystem} {t : HandlerThread}
    (idle : cfg.thread () = .pure t) (vanished : cfg.world.request = none)
    (started : handlerSystem.Step cfg (.start () .run) cfg₁)
    (lacks : t.handler.paused = true → Lacks t.handler)
    (run : handlerSystem.Run (DuringRun t.handler.paused) cfg₁ cfg') : NothingStarted cfg' := by
  have harmless : Harmless (DuringRun t.handler.paused) t.handler := by
    cases hp : t.handler.paused with
    | false => exact .inl hp
    | true => exact .inr ⟨givesUp_duringRun, lacks hp⟩
  have safe : (oneRun t.handler.paused).Safe cfg₁ := by
    cases started with
    | @start w th i op s idle' enabled =>
        have same : Prog.pure t = Prog.pure s := idle.symm.trans idle'
        cases same
        refine ⟨vanished, fun _ => ?_⟩
        dsimp only
        rw [Function.update_self]
        refine Prog.wp_bind.mpr (Prog.wp_mono (run_gone harmless) ?_)
        rintro ⟨_ | _, _⟩ _ h <;> exact h
  have safe' := (oneRun t.handler.paused).sound safe run
  exact ⟨fun c k hc => safe'.req hc, fun t' ht' => safe'.idle ht'⟩

/-! ### A request that is deleted while its handler is paused -/

/-- The handler pauses at quota; later the driver may find quota. -/
def pausingAnswer (remaining pauseAtQuota : Bool) : (c : Call) → LauncherSig.Reply c
  | .pauseAtQuota => .ok pauseAtQuota
  | .hasRemainingQuota _ => .ok remaining
  | .time => .ok 0
  | c => exampleAnswer 1 .requested c

def pauseSchedule : List (System.Action handlerSystem) :=
  .start () .run :: List.replicate 10 (.reply () (pausingAnswer false true) 0)

/-- The request is gone now. -/
def goneAnswer : (c : Call) → LauncherSig.Reply c
  | .getRequest _ => .error .noNode
  | c => pausingAnswer false false c

/-- The driver finds no quota again, and the handler declines. -/
theorem nothingStarted_of_vanished_declines : ∃ (cfg cfg' : Config handlerSystem)
    (t : HandlerThread), cfg.thread () = .pure t ∧ t.handler.paused = true ∧
      NothingStarted cfg' := by
  have hexec : ∃ cfg cfg₁ cfg' t,
      System.exec (fun _ _ => true) exampleInit pauseSchedule = some cfg ∧
      cfg.thread () = .pure t ∧ t.handler.paused = true ∧ Lacks t.handler ∧
      System.exec1 { cfg with world := { cfg.world with request := none } } (.start () .run) =
        some (.start () .run, cfg₁) ∧
      System.exec (duringRun true) cfg₁ (List.replicate 10 (.reply () goneAnswer 0)) =
        some cfg' ∧ ∃ t', cfg'.thread () = .pure t' :=
    ⟨_, _, _, _, rfl, rfl, rfl, by decide, rfl, rfl, _, rfl⟩
  obtain ⟨cfg, cfg₁, cfg', t, -, idle, paused, lacks, started, rest, -⟩ := hexec
  have rerun : handlerSystem.Run (DuringRun t.handler.paused) cfg₁ cfg' := by
    rw [paused]
    exact System.exec_run (DuringRun true) (fun _ _ h => h) rest
  let gone : Config handlerSystem := { cfg with world := { cfg.world with request := none } }
  have idle' : gone.thread () = .pure t := idle
  have step : handlerSystem.Step gone (.start () .run) cfg₁ := System.exec1_step started
  exact ⟨gone, cfg', t, idle', paused,
    nothingStarted_of_vanished idle' rfl step (fun _ => lacks) rerun⟩

/-- A handler that was paused when its request was deleted makes a new node as soon as
the driver has quota for one. -/
theorem not_forall_nothingStarted : ¬ ∀ (init cfg cfg₁ cfg' : Config handlerSystem)
    (t : HandlerThread), Initial init → handlerSystem.Run handlerSystem.always init cfg →
      cfg.thread () = .pure t → cfg.world.request = none →
      handlerSystem.Step cfg (.start () .run) cfg₁ →
      handlerSystem.Run (DuringRun false) cfg₁ cfg' → NothingStarted cfg' := by
  intro h
  have hexec : ∃ cfg cfg₁ cfg' t c k,
      System.exec (fun _ _ => true) exampleInit pauseSchedule = some cfg ∧
      cfg.thread () = .pure t ∧
      System.exec1 { cfg with world := { cfg.world with request := none } } (.start () .run) =
        some (.start () .run, cfg₁) ∧
      System.exec (duringRun false) cfg₁
        (List.replicate 7 (.reply () (pausingAnswer true true) 0)) =
        some cfg' ∧ cfg'.thread () = .call c k ∧ c.startsNode :=
    ⟨_, _, _, _, _, _, rfl, rfl, rfl, rfl, rfl, trivial⟩
  obtain ⟨cfg, cfg₁, cfg', t, c, k, hcfg, idle, started, rest, pending, starts⟩ := hexec
  have before := System.exec_run handlerSystem.always (fun _ _ _ => trivial) hcfg
  have deleted : handlerSystem.Step cfg .env
      { cfg with world := { cfg.world with request := none } } :=
    .env ⟨.inr rfl, rfl, rfl, rfl, fun _ _ => rfl, fun _ => rfl⟩
  have := h _ _ cfg₁ cfg' t exampleInit_initial (.tail before trivial deleted) idle rfl
    (System.exec1_step started) (System.exec_run (DuringRun false) (fun _ _ h => h) rest)
  exact this.calls c k pending starts

end HandlerSystem

end Nodepool
