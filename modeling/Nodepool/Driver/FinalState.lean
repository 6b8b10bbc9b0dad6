import Nodepool.Driver.HandlerFootprint
import Nodepool.Driver.HandlerSystem

/-!
The state in which a handler leaves its request. A handler stores PENDING while it
holds the lock of the request. Each of its exits decides on another state before
the request is stored and unlocked, except for one: without quota, a handler of a
provider that does not pause gives the request back as it is.
-/

namespace Nodepool

open Effect Method NodeRequestHandler

namespace HandlerSystem

/-- A step other than the one into the branch that gives the request back without
declining it: a driver without `PAUSE_AT_QUOTA` is at quota, for a request that
is not for `min-ready` nodes. -/
def pausesAtQuota (_ : HandlerWorld) : Event handlerSystem → Bool
  | .call () .pauseAtQuota (.ok b) => b
  | _ => true

abbrev PausesAtQuota (w : HandlerWorld) (e : Event handlerSystem) : Prop :=
  pausesAtQuota w e = true

/-! ### Assertions -/

def Locked (w : HandlerWorld) : Prop := w.requestLocked = true

/-- The stored request, if there is one, is not left PENDING. -/
def Settled (w : HandlerWorld) : Prop := ∀ r, w.request = some r → r.state ≠ .pending

/-- Once the lock is released the request is settled. -/
def Released (w : HandlerWorld) : Prop := w.requestLocked = false → Settled w

theorem Released.of_locked {w : HandlerWorld} (h : Locked w) : Released w :=
  fun h' => absurd (h.symm.trans h') (by simp)

theorem Released.of_settled {w : HandlerWorld} (h : Settled w) : Released w := fun _ => h

theorem Locked.env {w w' : HandlerWorld} (h : Locked w) (he : HandlerWorld.Env w w') : Locked w' :=
  he.requestLocked.trans h

theorem Settled.env {w w' : HandlerWorld} (h : Settled w) (he : HandlerWorld.Env w w') :
    Settled w' := by
  intro r hr
  rcases he.request with hw | hw
  · exact h r (hw.symm.trans hr)
  · exact absurd (hw.symm.trans hr) (by simp)

theorem Released.env {w w' : HandlerWorld} (h : Released w) (he : HandlerWorld.Env w w') :
    Released w' :=
  fun hl => (h (he.requestLocked.symm.trans hl)).env he

variable {ok : HandlerWorld → Event handlerSystem → Prop}

/-! ### Calls -/

/-- What a call that leaves the request alone does to it. -/
theorem next_keepsRequest {c : Call} (hc : c.keepsRequest) {w : HandlerWorld}
    {r : LauncherSig.Reply c} :
    ∀ w' ∈ w.next c r, w'.request = w.request ∧ w'.requestLocked = w.requestLocked := by
  unfold HandlerWorld.next
  split
  all_goals first
    | exact hc.elim
    | split_ifs <;> simp
    | simp

variable {ok : HandlerWorld → Event handlerSystem → Prop} {s : Handler Unit} {w : HandlerWorld}

/-- Storing the request keeps its lock, whatever comes of it. -/
theorem stable_locked_store :
    Stable (context ok) (fun c => c.keepsRequest ∨ ∃ id data, c = .setRequest id data) Locked where
  rely h he _ := h.env he
  req _ _ _ := trivial
  step {c r w w'} hc h _ hs _ := by
    have hmem : w' ∈ w.next c r := hs.1
    rcases hc with hc | ⟨id, data, rfl⟩
    · exact (next_keepsRequest hc _ hmem).2.trans h
    · cases r with
      | ok _ =>
          rw [HandlerWorld.next_setRequest_ok] at hmem
          split at hmem
          · cases hmem
          · exact List.mem_singleton.mp hmem ▸ h
      | error _ =>
          rw [HandlerWorld.next_setRequest_error] at hmem
          split at hmem
          · exact List.mem_singleton.mp hmem ▸ h
          · rcases List.mem_pair.mp hmem with rfl | rfl <;> exact h

theorem stable_locked : Stable (context ok) Call.keepsRequest Locked :=
  stable_locked_store.mono fun _ => Or.inl

theorem stable_settled :
    Stable (context ok) (fun c => c.keepsRequest ∨ ∃ id, c = .releaseRequestLock id) Settled where
  rely h he _ := h.env he
  req _ _ _ := trivial
  step {c r w w'} hc h _ hs _ := by
    have hrequest : w'.request = w.request := by
      rcases hc with hc | ⟨id, rfl⟩
      · exact (next_keepsRequest hc _ hs.1).1
      · have hmem : w' ∈ w.next (.releaseRequestLock id) r := hs.1
        cases r with
        | ok _ => rw [List.mem_singleton.mp hmem]
        | error _ =>
            rw [HandlerWorld.next_releaseRequestLock_error] at hmem
            split at hmem
            · cases hmem
            · rcases List.mem_pair.mp hmem with rfl | rfl <;> rfl
    intro r hr
    exact h r (hrequest.symm.trans hr)

theorem external_within {γ : Type} {π : Handler Unit → γ} :
    Driver.external.Within Call.keepsRequest π :=
  Driver.external_within fun c h => by cases c <;> trivial

/-- A method that leaves the request alone, run while its lock is held. -/
theorem wp_of_leavesRequest {α : Type} {m : HandlerM Unit α} (hm : LeavesRequest m)
    {Q : α → Handler Unit → HandlerWorld → Prop} {E : Err → Handler Unit → HandlerWorld → Prop}
    (hw : Locked w)
    (normal : ∀ a s' w', requestPart s' = requestPart s → Locked w' → Q a s' w')
    (exceptional : ∀ e s' w', requestPart s' = requestPart s → Locked w' → E e s' w') :
    m.wp (context ok) Q E s w :=
  wp_mono (hm.wp stable_locked hw) (fun a s' w' h => normal a s' w' h.1 h.2)
    fun e s' w' h => exceptional e s' w' h.1 h.2

/-- Logging changes nothing and does not raise. -/
theorem log_wp {message : String} {B : HandlerWorld → Prop}
    {Q : Unit → Handler Unit → HandlerWorld → Prop}
    {E : Err → Handler Unit → HandlerWorld → Prop}
    (stable : ∀ {w w'}, B w → HandlerWorld.Env w w' → B w') (hw : B w) (h : ∀ w, B w → Q () s w) :
    (call (.log message)).wp (context ok) Q E s w := by
  refine wp_call (P := B) (fun h he _ => stable h he) hw (fun _ _ _ => trivial) ?_ ?_
  · intro _ w₁ w₂ hw₁ _ hstep _
    rw [List.mem_singleton.mp hstep.1]
    exact h w₁ hw₁
  · intro _ w₁ w₂ _ _ hstep _
    exact absurd hstep.1 List.not_mem_nil

/-! ### Giving the request back -/

/-- Storing a request in another state settles it; if that fails, the lock is
still held. -/
theorem storeNodeRequest_wp (hs : s.request.state ≠ .pending) (hw : Locked w) :
    storeNodeRequest.wp (context ok) (fun _ s' w' => s' = s ∧ Settled w')
      (fun _ _ w' => Locked w') s w := by
  rw [storeNodeRequest, wp_bind, wp_self, wp_bind]
  have hget :
      Within Call.keepsRequest id (ZooKeeper.getNodeRequest s.request.id : HandlerM Unit _) :=
    ZooKeeper.getNodeRequest_within (by trivial)
  refine wp_mono (hget.wp stable_locked hw) ?_ fun _ _ _ h => h.2
  rintro stored s₁ w₁ ⟨rfl, hw₁⟩
  split
  · exact hw₁
  · refine wp_call (P := Locked) (fun h he _ => h.env he) hw₁ (fun _ _ _ => trivial) ?_ ?_
    · intro v w₂ w₃ _ _ hstep _
      have hmem : w₃ ∈ w₂.next (.setRequest s₁.request.id s₁.request) (.ok v) := hstep.1
      rw [HandlerWorld.next_setRequest_ok] at hmem
      split at hmem
      · cases hmem
      · rw [List.mem_singleton] at hmem
        subst hmem
        refine ⟨rfl, fun r hr => ?_⟩
        cases hr
        exact hs
    · exact fun _ w₂ w₃ hw₂ hi hstep hi' =>
        stable_locked_store.step (Or.inr ⟨_, _, rfl⟩) hw₂ hi hstep hi'

/-- Unlocking a settled request, or failing to. -/
theorem unlockNodeRequest_wp (hw : Settled w) :
    unlockNodeRequest.wp (context ok) (fun _ _ w' => Settled w') (fun _ _ w' => Settled w')
      s w := by
  rw [unlockNodeRequest, wp_bind, wp_self, wp_bind, raiseUnless]
  split
  · rw [wp_pure, wp_bind]
    refine stable_settled.wp_perform (Or.inr ⟨_, rfl⟩) hw ?_ ?_
    · exact fun _ _ h => h
    · exact fun _ _ h => h
  · exact hw

/-- An exception on the way leaves the request locked: once it is unlocked nothing
is left that can raise. -/
theorem declinedHandlerCleanup_wp (hs : s.request.state ≠ .pending) (hw : Locked w) :
    declinedHandlerCleanup.wp (context ok) (fun _ _ w' => Released w') (fun _ _ w' => Locked w')
      s w := by
  rw [declinedHandlerCleanup, wp_bind]
  refine wp_of_leavesRequest (unlockNodeSet_leavesRequest true) hw ?_ fun _ _ _ _ h => h
  intro _ s₁ w₁ hpart hw₁
  have hs₁ : s₁.request.state ≠ .pending := by
    rw [show s₁.request = s.request from congrArg Prod.fst hpart]
    exact hs
  rw [wp_bind, wp_assign, wp_bind, wp_tryCatch, wp_bind]
  refine wp_mono (storeNodeRequest_wp hs₁ hw₁) ?_ ?_
  · rintro _ _ w₂ ⟨-, hw₂⟩
    refine wp_mono (unlockNodeRequest_wp hw₂) (fun _ _ _ => .of_settled) fun _ _ w₃ h => ?_
    exact log_wp (fun h he => h.env he) h fun _ => .of_settled
  · intro _ _ w₂ hw₂
    exact log_wp (fun h he => h.env he) hw₂ fun _ => .of_locked

/-- Deciding how to decline is made before anything is given back. -/
theorem declineLocally_wp (hw : Locked w) :
    declineLocally.wp (context ok) (fun _ s' w' => s'.request.state ≠ .pending ∧ Locked w')
      (fun _ _ w' => Locked w') s w := by
  rw [declineLocally, wp_bind, wp_assign, wp_bind]
  refine stable_locked.wp_perform (by trivial) hw ?_ ?_
  · intro pools w₁ hw₁
    rw [wp_bind, wp_self]
    split
    · exact ⟨by simp [Handler.setState], hw₁⟩
    · exact ⟨by simp [Handler.setState], hw₁⟩
  · exact fun _ _ h => h

/-! ### Running -/

/-- What a method that may give the request back guarantees: a normal exit leaves
the request released, an exceptional one leaves it locked. -/
abbrev Returns {α : Type} (ok : HandlerWorld → Event handlerSystem → Prop) (m : HandlerM Unit α)
    (s : Handler Unit) (w : HandlerWorld) : Prop :=
  m.wp (context ok) (fun _ _ w' => Released w') (fun _ _ w' => Locked w') s w

theorem declineRequest_returns (hw : Locked w) : Returns ok declineRequest s w := by
  rw [Returns, declineRequest, wp_bind]
  refine wp_mono (declineLocally_wp hw) ?_ fun _ _ _ h => h
  exact fun _ _ _ h => declinedHandlerCleanup_wp h.1 h.2

/-- The branch without a pause is the one that `PausesAtQuota` excludes. -/
theorem atQuota_returns (hw : Locked w) : Returns PausesAtQuota atQuota s w := by
  rw [Returns, atQuota, wp_bind, wp_self]
  split
  · exact declineRequest_returns hw
  · rw [wp_bind]
    refine wp_of_leavesRequest provider_within hw ?_ fun _ _ _ _ h => h
    intro provider s₁ w₁ _ hw₁
    rw [wp_bind]
    refine wp_of_leavesRequest pool_within hw₁ ?_ fun _ _ _ _ h => h
    intro pool s₂ w₂ _ hw₂
    rw [wp_bind]
    refine wp_of_leavesRequest (leavesRequest_of_onNodes
      (ZooKeeper.deleteOldestUnusedNode_within _ _)) hw₂ ?_ fun _ _ _ _ h => h
    intro _ s₃ w₃ _ hw₃
    rw [wp_bind]
    refine wp_call (P := Locked) (fun h he _ => h.env he) hw₃ (fun _ _ _ => trivial) ?_ ?_
    · intro pauseAtQuota w₄ w₅ hw₄ _ hstep _
      have hpause : pauseAtQuota = true := hstep.2
      have hw₅ : Locked w₅ := List.mem_singleton.mp hstep.1 ▸ hw₄
      rw [if_pos hpause]
      exact .of_locked hw₅
    · intro _ w₄ w₅ hw₄ _ hstep _
      exact List.mem_singleton.mp hstep.1 ▸ hw₄

theorem fillNodeSet_returns (readyNodes : Dict String (List NodeRef)) (types : List String)
    (hw : Locked w) : Returns PausesAtQuota (fillNodeSet Driver.external readyNodes types) s w := by
  induction types generalizing s w with
  | nil => exact .of_locked hw
  | cons ntype types ih =>
      rw [Returns, fillNodeSet, wp_bind, wp_self, wp_bind]
      refine wp_of_leavesRequest (grabReadyNode_leavesRequest external_within ntype _) hw ?_
        fun _ _ _ _ h => h
      intro got s₁ w₁ _ hw₁
      split
      · exact ih hw₁
      · rw [wp_bind]
        refine wp_of_leavesRequest (external_within.hasRemainingQuota ntype) hw₁ ?_
          fun _ _ _ _ h => h
        intro remaining s₂ w₂ _ hw₂
        split
        · rw [wp_bind]
          refine wp_of_leavesRequest (launchNewNode_leavesRequest external_within ntype) hw₂ ?_
            fun _ _ _ _ h => h
          exact fun _ s₃ w₃ _ hw₃ => ih hw₃
        · exact atQuota_returns hw₂

theorem waitForNodeSet_returns (hw : Locked w) :
    Returns PausesAtQuota (waitForNodeSet Driver.external) s w := by
  rw [Returns, waitForNodeSet, wp_bind, wp_self]
  split
  · rw [wp_bind]
    refine stable_locked.wp_perform (by trivial) hw ?_ fun _ _ h => h
    exact fun readyNodes w₁ hw₁ => fillNodeSet_returns readyNodes _ hw₁
  · exact fillNodeSet_returns ∅ _ hw

/-- Storing the request as PENDING keeps its lock. -/
theorem acceptRequest_keeps_locked (hw : Locked w) :
    acceptRequest.wp (context ok) (fun _ _ w' => Locked w') (fun _ _ w' => Locked w') s w := by
  have hstore : Within (fun c : Call => c.keepsRequest ∨ ∃ id data, c = .setRequest id data)
      (fun _ => ()) (acceptRequest : HandlerM Unit Unit) := by
    refine .bind (.assign fun _ => rfl) fun _ => .bind .self fun _ => .bind ?_ fun _ => ?_
    · exact ZooKeeper.getNodeRequest_within (Or.inl (by trivial))
    · exact .ite .throw (.perform (Or.inr ⟨_, _, rfl⟩))
  exact wp_mono (hstore.wp stable_locked_store hw) (fun _ _ _ h => h.2) fun _ _ _ h => h.2

theorem runHandler_returns (hw : Locked w) :
    Returns PausesAtQuota (runHandler Driver.external) s w := by
  have consults : ∀ c, Call.consults c → c.keepsRequest := fun _ => Call.keepsRequest_of_consults
  rw [Returns, runHandler, wp_bind]
  refine wp_of_leavesRequest (leavesRequest_of_shared (setFromPoolWorker_within consults)) hw ?_
    fun _ _ _ _ h => h
  intro _ s₁ w₁ _ hw₁
  rw [wp_bind]
  refine wp_of_leavesRequest provider_within hw₁ ?_ fun _ _ _ _ h => h
  intro _ s₂ w₂ _ hw₂
  rw [wp_bind]
  refine wp_of_leavesRequest pool_within hw₂ ?_ fun _ _ _ _ h => h
  intro _ s₃ w₃ _ hw₃
  rw [wp_bind]
  refine wp_of_leavesRequest (leavesRequest_of_shared
    (getDeclinedReasons_within consults external_within)) hw₃ ?_ fun _ _ _ _ h => h
  intro reasons s₄ w₄ _ hw₄
  split
  · exact declineRequest_returns hw₄
  · rw [wp_bind, wp_self, wp_bind]
    refine wp_mono (m := when _ acceptRequest) ?_
      (fun _ s₅ w₅ hw₅ => waitForNodeSet_returns hw₅) fun _ _ _ h => h
    unfold Nodepool.when
    split
    · exact acceptRequest_keeps_locked hw₄
    · exact hw₄

theorem run_released (hw : Locked w) :
    (run Driver.external).wp (context PausesAtQuota) (fun _ _ w' => Released w')
      (fun _ _ w' => Released w') s w := by
  rw [run, wp_tryCatch]
  refine wp_mono (runHandler_returns hw) (fun _ _ _ h => h) fun _ s₁ w₁ hw₁ => ?_
  rw [wp_bind]
  refine log_wp (fun h he => h.env he) hw₁ fun w₂ hw₂ => ?_
  exact wp_mono (declineRequest_returns hw₂) (fun _ _ _ h => h) fun _ _ _ => .of_locked

/-! ### Polling -/

theorem finishPoll_released (hs : s.request.state ≠ .pending) (hw : Locked w) :
    finishPoll.wp (context ok) (fun _ _ w' => Released w') (fun _ _ w' => Released w') s w := by
  rw [finishPoll, wp_bind]
  refine wp_of_leavesRequest (unlockNodeSet_leavesRequest false) hw ?_ fun _ _ _ _ => .of_locked
  intro _ s₁ w₁ hpart hw₁
  have hs₁ : s₁.request.state ≠ .pending := by
    rw [show s₁.request = s.request from congrArg Prod.fst hpart]
    exact hs
  rw [wp_bind]
  refine wp_mono (storeNodeRequest_wp hs₁ hw₁) ?_ fun _ _ _ => .of_locked
  rintro _ _ w₂ ⟨-, hw₂⟩
  rw [wp_bind]
  exact wp_mono (unlockNodeRequest_wp hw₂) (fun _ _ _ => .of_settled) fun _ _ _ => .of_settled

theorem classifyNodes_leavesRequest (os : List NodeRef) :
    LeavesRequest (classifyNodes os : HandlerM Unit _) := by
  induction os with
  | nil => exact .pure
  | cons o os ih =>
      refine .bind (.bind (.perform trivial) fun _ => .ite ?_ (.ite ?_ ?_)) fun _ =>
        .bind ih fun _ => .pure
      · exact .bind (.assign fun _ => rfl) fun _ => .pure
      · exact .bind (.assign fun _ => rfl) fun _ =>
          .bind (leavesRequest_of_onNodes (ZooKeeper.unlockNode_within o)) fun _ => .pure
      · exact .bind (.assign fun _ => rfl) fun _ => .pure

theorem removeAborted_leavesRequest (o : NodeRef) :
    LeavesRequest (removeAborted o : HandlerM Unit Unit) :=
  .bind (.perform trivial) fun _ => .assign fun _ => rfl

/-- The nodes are entered and the state is set, or the handler raises. -/
theorem fulfil_wp (hw : Locked w) :
    fulfil.wp (context ok) (fun _ s' w' => s'.request.state ≠ .pending ∧ Locked w')
      (fun _ _ w' => Locked w') s w := by
  have hassign : ∀ t,
      Within Call.keepsRequest (fun _ => ()) (assignNodeToType t : HandlerM Unit _) := by
    intro t
    refine .bind .self fun h => ?_
    split
    · exact .throw
    · exact .assign fun _ => rfl
  rw [fulfil, wp_bind, wp_self, wp_bind]
  refine wp_mono ((Within.forEach hassign _).wp stable_locked hw) ?_ fun _ _ _ h => h.2
  exact fun _ s₁ w₁ h => ⟨by simp [Handler.setState], h.2⟩

/-- Without a stored request there is nothing to leave PENDING. -/
theorem requestDisappeared_wp (hw : Settled w) :
    requestDisappeared.wp (context ok) (fun _ _ w' => Settled w') (fun _ _ w' => Settled w')
      s w := by
  rw [requestDisappeared, wp_bind]
  refine wp_mono ((unlockNodeSet_leavesRequest true).wp (stable_settled.mono fun _ => Or.inl) hw) ?_
    fun _ _ _ h => h.2
  rintro _ s₁ w₁ ⟨-, hw₁⟩
  rw [wp_tryCatch]
  refine wp_mono (unlockNodeRequest_wp hw₁) (fun _ _ _ h => h) fun e _ w₂ hw₂ => ?_
  split
  · exact hw₂
  · exact hw₂

/-- What reading the request tells about the stored one. -/
theorem getNodeRequest_wp (id : String) (hw : Locked w) :
    (ZooKeeper.getNodeRequest id).wp (context ok)
      (fun stored _ w' => Locked w' ∧ (stored = none → Settled w')) (fun _ _ w' => Locked w')
      s w := by
  rw [ZooKeeper.getNodeRequest, wp_tryCatch, wp_bind]
  refine wp_call (P := Locked) (fun h he _ => h.env he) hw (fun _ _ _ => trivial) ?_ ?_
  · intro data w₁ w₂ hw₁ hi hstep hi'
    exact ⟨stable_locked.step (by trivial) hw₁ hi hstep hi', by simp⟩
  · intro e w₁ w₂ hw₁ hi hstep hi'
    have hw₂ : Locked w₂ := stable_locked.step (by trivial) hw₁ hi hstep hi'
    split
    · rename_i he
      have hmem : w₂ ∈ w₁.next (.getRequest id) (.error e) := hstep.1
      rw [HandlerWorld.next_getRequest_error] at hmem
      split at hmem
      · cases hmem
      · rename_i hne
        have hnone : w₁.request = none := by
          by_contra h
          exact hne ⟨he, h⟩
        refine ⟨hw₂, fun _ r hr => ?_⟩
        rw [List.mem_singleton.mp hmem, hnone] at hr
        cases hr
    · exact hw₂

theorem pollComplete_released (hw : Locked w) :
    pollComplete.wp (context ok) (fun _ _ w' => Released w') (fun _ _ w' => Released w') s w := by
  rw [pollComplete, wp_bind, wp_self, wp_bind]
  refine wp_of_leavesRequest (classifyNodes_leavesRequest _) hw ?_ fun _ _ _ _ => .of_locked
  intro aborted s₁ w₁ _ hw₁
  rw [wp_bind]
  refine wp_mono (getNodeRequest_wp _ hw₁) ?_ fun _ _ _ => .of_locked
  rintro stored s₂ w₂ ⟨hw₂, hgone⟩
  split
  · rename_i hnone
    rw [wp_bind]
    exact wp_mono (requestDisappeared_wp (hgone hnone)) (fun _ _ _ => .of_settled)
      fun _ _ _ => .of_settled
  · rw [wp_bind, wp_self]
    split
    · rw [wp_bind]
      refine wp_mono (declineLocally_wp hw₂) ?_ fun _ _ _ => .of_locked
      exact fun _ _ _ h => finishPoll_released h.1 h.2
    · split
      · rw [wp_bind]
        refine wp_of_leavesRequest (.forEach removeAborted_leavesRequest _) hw₂ ?_
          fun _ _ _ _ => .of_locked
        exact fun _ _ _ _ hw₃ => .of_locked hw₃
      · rw [wp_bind]
        refine wp_mono (fulfil_wp hw₂) ?_ fun _ _ _ => .of_locked
        exact fun _ _ _ h => finishPoll_released h.1 h.2

theorem poll_released (hw : Locked w) :
    (poll Driver.external).wp (context ok) (fun _ _ w' => Released w')
      (fun _ _ w' => Released w') s w := by
  rw [poll, wp_bind, wp_self]
  split
  · exact .of_locked hw
  · split
    · exact .of_locked hw
    · rw [wp_bind]
      refine wp_of_leavesRequest external_within.launchesComplete hw ?_ fun _ _ _ _ => .of_locked
      intro complete s₁ w₁ _ hw₁
      split
      · exact pollComplete_released hw₁
      · exact .of_locked hw₁

/-! ### Runs -/

theorem body_released (op : HandlerOp) {t : HandlerThread} {w : HandlerWorld}
    (enabled : handlerSystem.enabled () op t w = true) (h : Released w) :
    (op.body t).wp (context PausesAtQuota) (fun _ w' => Released w') w := by
  have hstart : Locked w ∨ op = .poll ∧ t.handler.done = true := by
    simpa [Locked] using Or.imp_left And.left ((Bool.or_eq_true _ _).mp enabled |>.imp
      (Bool.and_eq_true _ _).mp id)
  cases op with
  | run =>
      obtain hw | ⟨h, -⟩ := hstart
      · refine Prog.wp_bind.mpr (Prog.wp_mono (run_released hw) ?_)
        rintro ⟨_ | _, _⟩ w' h <;> exact h
      · cases h
  | declineRequest =>
      obtain hw | ⟨h, -⟩ := hstart
      · refine Prog.wp_bind.mpr (Prog.wp_mono (declineRequest_returns hw) ?_)
        rintro ⟨_ | _, _⟩ w' h
        · exact .of_locked h
        · exact h
      · cases h
  | poll =>
      have hpoll : (poll Driver.external).wp (context PausesAtQuota) (fun _ _ w' => Released w')
          (fun _ _ w' => Released w') t.handler w := by
        obtain hw | ⟨-, hdone⟩ := hstart
        · exact poll_released hw
        · exact poll_done hdone fun _ => h
      refine Prog.wp_bind.mpr (Prog.wp_mono hpoll ?_)
      rintro ⟨_ | _, _⟩ w' h <;> exact h

/-- The proof outline: between two calls the request is released. -/
def finalState : Outline handlerSystem PausesAtQuota :=
  outline (fun _ w => Released w) Released.env fun op _ _ enabled h => body_released op enabled h

/-- **Final request state.** In every run that does not take the branch which gives
the request back without declining it, a handler that has released the lock leaves
the request REQUESTED, FAILED or FULFILLED. -/
theorem final_state {init cfg : Config handlerSystem} (hinit : Initial init)
    (run : handlerSystem.Run PausesAtQuota init cfg) {t : HandlerThread}
    (idle : cfg.thread () = .pure t) (released : cfg.world.requestLocked = false)
    {r : NodeRequest} (stored : cfg.world.request = some r) :
    r.state = .requested ∨ r.state = .failed ∨ r.state = .fulfilled := by
  have hsafe : finalState.Safe init := by
    obtain ⟨launcherId, request, hthread⟩ := hinit.thread
    refine .of_idle trivial fun _ => ⟨_, hthread, ?_⟩
    exact .of_locked hinit.requestLocked
  have hsettled : Released cfg.world := (finalState.sound hsafe run).idle idle
  have := hsettled released r stored
  cases hr : r.state with
  | requested => exact Or.inl rfl
  | failed => exact Or.inr (Or.inl rfl)
  | fulfilled => exact Or.inr (Or.inr rfl)
  | pending => exact absurd hr this

/-! ### A provider that does not pause -/

/-- At quota: the request is accepted, and then given back without a decision. -/
def giveBackSchedule : List (System.Action handlerSystem) :=
  .start () .run :: List.replicate 7 (.reply () (exampleAnswer 1 .requested) 0) ++
    List.replicate 6 (.reply () (exampleAnswer 1 .pending) 0)

theorem final_state_declineSchedule : ∃ cfg t r,
    handlerSystem.Run PausesAtQuota exampleInit cfg ∧ cfg.thread () = .pure t ∧
      t.finished = true ∧ cfg.world.request = some r ∧
      (r.state = .requested ∨ r.state = .failed ∨ r.state = .fulfilled) := by
  have hexec : ∃ cfg t r, System.exec pausesAtQuota exampleInit declineSchedule = some cfg ∧
      cfg.thread () = .pure t ∧ t.finished = true ∧ cfg.world.requestLocked = false ∧
      cfg.world.request = some r :=
    ⟨_, _, _, rfl, rfl, rfl, rfl, rfl⟩
  obtain ⟨cfg, t, r, hcfg, idle, finished, released, stored⟩ := hexec
  have run := System.exec_run PausesAtQuota (fun _ _ h => h) hcfg
  exact ⟨cfg, t, r, run, idle, finished, stored,
    final_state exampleInit_initial run idle released stored⟩

/-- A static provider at quota stores PENDING and releases the lock. -/
theorem not_forall_final_state : ¬ ∀ (init cfg : Config handlerSystem), Initial init →
    handlerSystem.Run handlerSystem.always init cfg → ∀ t, cfg.thread () = .pure t →
    t.finished = true → cfg.world.requestLocked = false → ∀ r, cfg.world.request = some r →
    r.state = .requested ∨ r.state = .failed ∨ r.state = .fulfilled := by
  intro h
  have hexec : ∃ cfg t r, System.exec (fun _ _ => true) exampleInit giveBackSchedule = some cfg ∧
      cfg.thread () = .pure t ∧ t.finished = true ∧ cfg.world.requestLocked = false ∧
      cfg.world.request = some r ∧ r.state = .pending :=
    ⟨_, _, { exampleRequest with state := .pending }, rfl, rfl, rfl, rfl, rfl, rfl⟩
  obtain ⟨cfg, t, r, hcfg, idle, finished, released, stored, hpending⟩ := hexec
  have run := System.exec_run handlerSystem.always (fun _ _ _ => trivial) hcfg
  have := h _ cfg exampleInit_initial run t idle finished released r stored
  simp [hpending] at this

end HandlerSystem

end Nodepool
