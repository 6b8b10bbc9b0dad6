import Nodepool.Driver.AllocationHandling

/-!
Polling, and whole runs. `poll` gives a request back in three ways. It clears the
allocations if the request is gone, and it keeps them if the request is fulfilled. It also
keeps them if a launch has failed, which leaves nothing allocated only if no other node is
READY; so a poll must not find READY and failed nodes together.
-/

namespace Nodepool

open Effect Method NodeRequestHandler

namespace AllocationSystem

open AllocationWorld

variable {p : Prop} {l t k f : NodeRef → Bool} {s : Handler Unit} {w w' : AllocationWorld}
  {o : NodeRef}

/-! ### Polling -/

/-- What is known while the launched nodes are classified: `κ` says of each node set where
READY nodes may be allocated, `X` is known of the world, and `F` if nodes may have failed. -/
structure Polling (κ : List NodeRef → NodeRef → Bool) (X : AllocationWorld → Prop) (F : Prop) :
    Prop where
  rests : Rests X
  still : ∀ {w}, X w → Still w
  erase : ∀ (os : List NodeRef) (o : NodeRef), os.Nodup →
    Function.update (κ os) o false = κ (os.erase o)
  held : ∀ os o, κ os o = true → held os o = true
  failed : F ∨ ∀ w o, X w → w.threadLock o = true → w.state o = .ready ∨ w.state o = .aborted
  clear : F → ∀ os o, κ os o = false

structure Launched (p : Prop) (κ : List NodeRef → NodeRef → Bool) (X : AllocationWorld → Prop)
    (s : Handler Unit) (w : AllocationWorld) : Prop where
  tidy : Tidy p (held s.nodeset) (held s.nodeset) (κ s.nodeset) w
  rests : X w
  nodup : s.nodeset.Nodup
  requestLock : s.requestLock = true
  done : s.done = false

variable {κ : List NodeRef → NodeRef → Bool} {X : AllocationWorld → Prop} {F : Prop}

/-- A node whose launch has ended and that is not READY is not one of those that may be. -/
theorem Tidy.drop (h : Tidy p l t k w) (still : Still w) (ht : t o = true)
    (hs : w.state o ≠ .ready) : Tidy p l t (Function.update k o false) w := by
  refine ⟨h.lock, h.threadLock, fun o' live => ?_, h.shown, h.request⟩
  by_cases same : o' = o
  · subst same
    rcases live.2 with hr | hl
    · exact absurd (h.shown o' ht ⟨live.1, hr⟩) hs
    · rw [still o'] at hl
      cases hl
  · rw [Function.update_of_ne same]
    exact h.live o' live

theorem classifyNode_wp (polling : Polling κ X F) (h : Launched p κ X s w) (ho : o ∈ s.nodeset) :
    (classifyNode o).wp Γ (fun _ s' w' => Launched p κ X s' w' ∧
        (∀ o' ∈ s.nodeset, o' ≠ o → o' ∈ s'.nodeset) ∧ (s'.failedNodes = s.failedNodes ∨ F))
      (fun _ _ _ => False) s w := by
  have env : ∀ {w w'}, Tidy p (held s.nodeset) (held s.nodeset) (κ s.nodeset) w ∧ X w →
      Env w w' → Tidy p (held s.nodeset) (held s.nodeset) (κ s.nodeset) w' ∧ X w' :=
    fun h he => ⟨h.1.env he, polling.rests.env h.2 he⟩
  rw [classifyNode, wp_bind]
  refine readNode_wp env ⟨h.tidy, h.rests⟩ fun object w₁ hw₁ shows => ?_
  have locked : w₁.threadLock o = true := by
    rw [hw₁.1.threadLock]
    exact held_mem ho
  have state : object.node.state = w₁.state o := (shows locked).2
  split
  · exact ⟨⟨hw₁.1, hw₁.2, h.nodup, h.requestLock, h.done⟩, fun _ ho' _ => ho', .inl rfl⟩
  · rename_i notReady
    split
    · rw [wp_bind, wp_assign, wp_bind]
      rw [state] at notReady
      have dropped := hw₁.1.drop (polling.still hw₁.2) (held_mem ho) notReady
      refine wp_mono (unlockNode_wp polling.rests dropped hw₁.2 (held_mem ho)) ?_
        fun _ _ _ h => h.elim
      rintro _ _ w₂ ⟨rfl, hw₂, hx₂⟩
      rw [held_erase h.nodup, polling.erase _ _ h.nodup] at hw₂
      refine ⟨⟨hw₂, hx₂, h.nodup.erase o, h.requestLock, h.done⟩, ?_, .inl rfl⟩
      exact fun o' ho' different => (List.mem_erase_of_ne different).mpr ho'
    · rename_i notAborted
      refine ⟨⟨hw₁.1, hw₁.2, h.nodup, h.requestLock, h.done⟩, fun _ ho' _ => ho', ?_⟩
      refine .inr (polling.failed.resolve_right fun all => ?_)
      rw [state] at notReady notAborted
      exact (all w₁ o hw₁.2 locked).elim notReady notAborted

theorem classifyNodes_wp (polling : Polling κ X F) (os : List NodeRef) (nodup : os.Nodup)
    (h : Launched p κ X s w) (hos : ∀ o ∈ os, o ∈ s.nodeset) :
    (classifyNodes os).wp Γ
      (fun _ s' w' => Launched p κ X s' w' ∧ (s'.failedNodes = s.failedNodes ∨ F))
      (fun _ _ _ => False) s w := by
  induction os generalizing s w with
  | nil => exact ⟨h, .inl rfl⟩
  | cons o os ih =>
      obtain ⟨fresh, nodup⟩ := List.nodup_cons.mp nodup
      rw [classifyNodes, wp_bind]
      refine wp_mono (classifyNode_wp polling h (hos o List.mem_cons_self)) ?_ fun _ _ _ h => h
      rintro aborted s₁ w₁ ⟨h₁, kept, failed₁⟩
      have hos₁ : ∀ o' ∈ os, o' ∈ s₁.nodeset := fun o' ho' =>
        kept o' (hos o' (List.mem_cons_of_mem o ho')) fun same => fresh (same ▸ ho')
      rw [wp_bind]
      refine wp_mono (ih nodup h₁ hos₁) ?_ fun _ _ _ h => h
      rintro rest s₂ w₂ ⟨h₂, failed₂⟩
      refine ⟨h₂, failed₂.elim (fun same => ?_) .inr⟩
      rw [same]
      exact failed₁

/-- What `poll` guarantees: true means settled, anything else open. -/
abbrev Polls (m : HandlerM Unit Bool) (s : Handler Unit) (w : AllocationWorld) : Prop :=
  m.wp Γ (fun b s' w' => if b then Settled w' else Open s' w') (fun _ s' w' => Open s' w') s w

theorem Launched.congr {s' : Handler Unit} (h : Launched p κ X s w)
    (hs : openPart s' = openPart s) : Launched p κ X s' w := by
  simp only [openPart, Prod.mk.injEq] at hs
  obtain ⟨hn, -, hl, hd⟩ := hs
  exact ⟨by rw [hn]; exact h.tidy, h.rests, by rw [hn]; exact h.nodup, hl.trans h.requestLock,
    hd.trans h.done⟩

theorem soft_launched : Soft (Launched p κ Still s) where
  env h he := ⟨h.tidy.env he, soft_still.env h.rests he, h.nodup, h.requestLock, h.done⟩
  calm h hc := ⟨h.tidy.calm hc, soft_still.calm h.rests hc, h.nodup, h.requestLock, h.done⟩

theorem Launched.toOpen (polling : Polling κ X F) (h : Launched p κ Still s w)
    (known : s.failedNodes = []) : Open s w :=
  ⟨(h.tidy.weaken (polling.held _)).known fun _ => .inl known, h.nodup, h.requestLock, h.done⟩

/-- A request is finished that is fulfilled, or to which no READY node is allocated. -/
theorem finishPoll_polls (h : Launched p κ Still s w)
    (fulfilled : s.request.state = .fulfilled ∨ ∀ o, κ s.nodeset o = false) :
    Polls finishPoll s w := by
  rw [Polls, finishPoll, wp_bind]
  refine wp_mono (unlockNodeSet_wp rests_still h.nodup h.tidy h.rests) ?_ fun _ _ _ h => h.elim
  rintro _ _ w₁ ⟨rfl, hw₁⟩
  have none : ∀ {w}, Tidy p (held []) (held []) (κ s.nodeset) w →
      (∀ o, κ s.nodeset o = false) → ∀ o, ¬ w.Live o := by
    intro w hw clear o live
    have := hw.live o live
    rw [clear o] at this
    cases this
  rw [wp_bind]
  refine storeNodeRequest_wp (soft_tidy.and soft_still) hw₁ ?_ ?_ ?_
  · intro w₂ hw₂ given o kept
    rcases fulfilled with state | clear
    · rcases given with h | h <;> cases state.symm.trans h
    · exact none hw₂.1 clear o kept.live
  · intro w₂ hw₂ stored
    have settled : Settled w₂ := fulfilled.imp stored (none hw₂.1)
    rw [wp_bind]
    refine wp_mono (unlockNodeRequest_wp soft_settled settled h.requestLock) ?_
      fun _ _ _ h => h.elim
    exact fun _ s₃ w₃ hw₃ => hw₃
  · -- the request is gone, and its nodes are not locked any more
    intro e w₂ hw₂ gone kept
    refine ⟨⟨hw₂.1.lock, hw₂.1.threadLock, fun o live => ?_, hw₂.1.shown, .inr gone⟩,
      List.nodup_nil, h.requestLock, h.done⟩
    rcases live.2 with ready | launching
    · have := kept o ⟨live.1, ready⟩
      rw [hw₂.1.lock, held_nil] at this
      cases this
    · rw [hw₂.2 o] at launching
      cases launching

theorem requestDisappeared_settled (nodup : s.nodeset.Nodup) (locked : s.requestLock = true)
    (h : Tidy p (held s.nodeset) (held s.nodeset) (held s.nodeset) w) :
    requestDisappeared.wp Γ (fun _ _ w' => Settled w') (fun _ _ _ => False) s w := by
  rw [requestDisappeared, wp_bind]
  refine wp_mono (unlockNodeSet_cleared nodup h) ?_ fun _ _ _ h => h.elim
  rintro _ _ w₁ ⟨rfl, hw₁⟩
  rw [wp_tryCatch]
  exact wp_mono (unlockNodeRequest_wp soft_settled (.inr hw₁.clear) locked)
    (fun _ _ _ h => h) fun _ _ _ h => h.elim

theorem declineLocally_wp {B : AllocationWorld → Prop} (soft : Soft B) (hB : B w) :
    (declineLocally : HandlerM Unit Unit).wp Γ
      (fun _ s' w' => openPart s' = openPart s ∧ B w') (fun _ _ _ => False) s w := by
  rw [declineLocally, wp_bind, wp_assign, wp_bind]
  refine quiet_wp soft (by trivial) (by trivial) hB fun pools w₁ hw₁ => ?_
  rw [wp_bind, wp_self]
  split
  · exact ⟨addDeclinedBy_openPart s, hw₁⟩
  · exact ⟨addDeclinedBy_openPart s, hw₁⟩

theorem assignTypes_within (types : List String) :
    Within isQuiet openPart (forEach types assignNodeToType : HandlerM Unit Unit) := by
  refine .forEach (fun t => .bind .self fun h => ?_) _
  split
  · exact .throw
  · exact .assign fun _ => rfl

/-- Fulfilling the request may raise, if its nodes do not have the requested types. -/
theorem fulfil_wp (h : Launched p κ Still s w) :
    (fulfil : HandlerM Unit Unit).wp Γ
      (fun _ s' w' => s'.request.state = .fulfilled ∧ openPart s' = openPart s ∧
        Launched p κ Still s w')
      (fun _ s' w' => openPart s' = openPart s ∧ Launched p κ Still s w') s w := by
  rw [fulfil, wp_bind, wp_self, wp_bind]
  refine wp_mono ((assignTypes_within s.request.nodeTypes).wp soft_launched.stable h) ?_
    fun _ _ _ h => h
  exact fun _ s₁ w₁ h₁ => ⟨rfl, h₁⟩

theorem pollComplete_polls (polling : Polling κ X F)
    (h : Launched (s.failedNodes = []) κ X s w) : Polls pollComplete s w := by
  rw [Polls, pollComplete, wp_bind, wp_self, wp_bind]
  refine wp_mono (classifyNodes_wp polling s.nodeset h.nodup h fun _ ho => ho) ?_
    fun _ _ _ h => h.elim
  rintro aborted s₁ w₁ ⟨h₁, failed⟩
  have launched : Launched (s.failedNodes = []) κ Still s₁ w₁ :=
    ⟨h₁.tidy, polling.still h₁.rests, h₁.nodup, h₁.requestLock, h₁.done⟩
  rw [wp_bind]
  refine getNodeRequest_wp soft_launched.env launched ?_ ?_
  · intro data w₂ h₂ present
    have known : s.failedNodes = [] := h₂.tidy.request.resolve_right present
    rw [if_neg (Option.some_ne_none data), wp_bind, wp_self]
    split
    · -- a launch has failed, so no READY node is left
      rename_i some
      have clear : F := failed.resolve_left fun same => some (same.trans known)
      rw [wp_bind]
      refine wp_mono (declineLocally_wp soft_launched h₂) ?_ fun _ _ _ h => h.elim
      rintro _ s₃ w₃ ⟨hs₃, h₃⟩
      exact finishPoll_polls (h₃.congr hs₃) (.inr fun o => polling.clear clear _ o)
    · rename_i none
      have none : s₁.failedNodes = [] := not_not.mp none
      split
      · have remove : ∀ o, Within isQuiet openPart (removeAborted o : HandlerM Unit Unit) :=
          fun o => .bind (.perform trivial) fun _ => .assign fun _ => rfl
        rw [wp_bind]
        refine wp_mono (keeps_open (.forEach remove aborted) _ _ (h₂.toOpen polling none)) ?_
          fun _ _ _ h => h
        exact fun _ s₃ w₃ h₃ => h₃.congr rfl
      · rw [wp_bind]
        refine wp_mono (fulfil_wp h₂) ?_ ?_
        · rintro _ s₃ w₃ ⟨state, hs₃, h₃⟩
          exact finishPoll_polls (h₃.congr hs₃) (.inl state)
        · rintro _ s₃ w₃ ⟨hs₃, h₃⟩
          exact (h₃.toOpen polling none).congr hs₃
  · intro w₂ h₂ gone _
    rw [if_pos rfl, wp_bind]
    exact wp_mono (requestDisappeared_settled h₂.nodup h₂.requestLock
      (h₂.tidy.weaken (polling.held _))) (fun _ _ _ h => h) fun _ _ _ h => h.elim

/-- No node of the node set is READY, so none is allocated and READY. -/
theorem polling_none : Polling (fun _ _ => false) Still True where
  rests := rests_still
  still h := h
  erase _ o _ := Function.update_eq_self (f := fun _ : NodeRef => false) o
  held _ _ h := by cases h
  failed := .inl trivial
  clear _ _ _ := rfl

/-- No launch has failed. -/
def Sound (w : AllocationWorld) : Prop :=
  Still w ∧ ∀ o, w.threadLock o = true → w.state o = .ready ∨ w.state o = .aborted

theorem polling_sound : Polling held Sound False where
  rests :=
    { env := fun h he => ⟨soft_still.env h.1 he, fun o ho => by
        rw [he.threadLock] at ho
        rw [he.state o ho (h.1 o)]
        exact h.2 o ho⟩
      lock := fun _ h => h
      release := fun {w} o h => ⟨h.1, fun o' ho' => by
        refine h.2 o' ?_
        unfold setThreadLock at ho'
        dsimp only at ho'
        by_cases same : o' = o
        · rw [same, Function.update_self] at ho'
          cases ho'
        · rwa [Function.update_of_ne same] at ho'⟩ }
  still h := h.1
  erase _ o nodup := held_erase nodup o
  held _ _ h := h
  failed := .inr fun _ o h => h.2 o
  clear h := h.elim

theorem poll_polls (h : Open s w) : Polls (poll Driver.external) s w := by
  rw [Polls, poll, wp_bind, wp_self]
  split
  · exact h
  rw [if_neg (by rw [h.done]; exact Bool.false_ne_true), wp_bind]
  refine wp_call (P := Open s) (fun h he _ => h.env he) h (fun _ _ _ => trivial) ?_ ?_
  · intro complete w₁ w₂ h₁ hi hs hi'
    have hmem : w₂ ∈ w₁.next .launchesComplete (.ok complete) := hs.1
    have tidy := soft_tidy.stable.step (c := .launchesComplete) trivial h₁.tidy hi hs hi'
    cases complete with
    | false => exact h₁.withTidy tidy
    | true =>
        have same : w₂ = { w₁ with launching := fun _ => false } := List.mem_singleton.mp hmem
        have still : Still w₂ := fun o => by rw [same]
        rw [if_pos rfl]
        rcases (hs.2.2 : NotMixed w₁) with unready | sound
        · refine pollComplete_polls polling_none
            ⟨⟨tidy.lock, tidy.threadLock, fun o live => ?_, tidy.shown, tidy.request⟩, still,
              h₁.nodup, h₁.requestLock, h₁.done⟩
          have locked := tidy.live o live
          rcases live.2 with ready | launching
          · have shown := tidy.shown o locked ⟨live.1, ready⟩
            rw [same] at shown
            exact absurd shown (unready o (by rw [h₁.tidy.lock]; exact locked))
          · rw [still o] at launching
            cases launching
        · refine pollComplete_polls polling_sound
            ⟨tidy, ⟨still, fun o ho => ?_⟩, h₁.nodup, h₁.requestLock, h₁.done⟩
          rw [tidy.threadLock] at ho
          rw [same]
          exact sound o (by rw [h₁.tidy.lock]; exact ho)
  · intro e w₁ w₂ h₁ hi hs hi'
    exact h₁.withTidy (soft_tidy.stable.step (c := .launchesComplete) trivial h₁.tidy hi hs hi')

/-! ### Runs -/

/-- What holds of the handler between two calls: open until it is finished. -/
def InOrder (t : HandlerThread) (w : AllocationWorld) : Prop :=
  if t.finished then Settled w else Open t.handler w

theorem InOrder.env {t : HandlerThread} (h : InOrder t w) (he : Env w w') : InOrder t w' := by
  unfold InOrder at h ⊢
  split
  · rename_i finished
    rw [if_pos finished] at h
    exact soft_settled.env h he
  · rename_i unfinished
    rw [if_neg unfinished] at h
    exact h.env he

/-- How a call ends decides whether the handler is finished. -/
theorem inOrder_finish (returned : Bool)
    (h : if returned then Settled w else Open s w ∨ s.done = true ∧ Settled w) :
    InOrder (HandlerOp.finish false returned s) w := by
  unfold InOrder HandlerOp.finish
  cases returned with
  | true =>
      rw [Bool.or_true, if_pos rfl]
      exact h
  | false =>
      rcases h with hopen | ⟨done, settled⟩
      · rw [hopen.done, Bool.false_or, Bool.or_false, if_neg Bool.false_ne_true]
        exact hopen
      · rw [done, Bool.false_or, Bool.or_false, if_pos rfl]
        exact settled

theorem body_inOrder (op : HandlerOp) {t : HandlerThread}
    (enabled : allocationSystem.enabled () op t w = true) (h : InOrder t w) :
    (op.body t).wp Γ InOrder w := by
  cases hfinished : t.finished with
  | true =>
      -- only polling once more is left, and it does nothing
      have hpoll : op = .poll ∧ t.handler.done = true := by simpa [hfinished] using enabled
      obtain ⟨rfl, done⟩ := hpoll
      have settled : Settled w := by simpa [InOrder, hfinished] using h
      have poll : (NodeRequestHandler.poll Driver.external).wp Γ (fun _ _ => Settled)
          (fun _ _ _ => False) t.handler w := by
        rw [NodeRequestHandler.poll, wp_bind, wp_self]
        split
        · exact settled
        · exact settled
      refine Prog.wp_bind.mpr (Prog.wp_mono poll ?_)
      rintro ⟨_ | _, s'⟩ w' h'
      · exact h'.elim
      · change InOrder _ w'
        simpa [InOrder, HandlerOp.finish, hfinished] using h'
  | false =>
      have hopen : Open t.handler w := by simpa [InOrder, hfinished] using h
      cases op with
      | run =>
          refine Prog.wp_bind.mpr (Prog.wp_mono (run_ends hopen) ?_)
          rintro ⟨_ | _, s'⟩ w' h'
          · exact hfinished ▸ inOrder_finish false (.inl h')
          · exact hfinished ▸ inOrder_finish false h'
      | declineRequest =>
          refine Prog.wp_bind.mpr (Prog.wp_mono (declineRequest_ends hopen) ?_)
          rintro ⟨_ | _, s'⟩ w' h'
          · exact hfinished ▸ inOrder_finish false (.inl h')
          · exact hfinished ▸ inOrder_finish false h'
      | poll =>
          refine Prog.wp_bind.mpr (Prog.wp_mono (poll_polls hopen) ?_)
          rintro ⟨_ | b, s'⟩ w' h'
          · exact hfinished ▸ inOrder_finish false (.inl h')
          · refine hfinished ▸ inOrder_finish b ?_
            cases b with
            | true => exact h'
            | false => exact .inl h'

/-- The proof outline: between two calls the allocations are in order. -/
def allocationRelease : Outline allocationSystem Allocates where
  inv _ := True
  rely _ := Env
  req _ := Leaves
  linv _ := InOrder
  rely_refl _ := Env.refl
  rely_trans _ := Env.trans
  linv_stable _ _ _ _ h hr _ := h.env hr
  entry _ op _ _ _ enabled _ h := body_inOrder op enabled h
  call_inv _ _ _ _ _ _ _ _ _ := trivial
  call_rely i j _ _ _ _ hij := absurd (Subsingleton.elim i j) hij
  env_inv _ _ := trivial
  env_rely _ _ _ _ h := h

/-- The request never goes back while a READY node is allocated to it, and a handler that
has ended without fulfilling it leaves no such node. -/
structure Released (cfg : Config allocationSystem) : Prop where
  leaves : ∀ c k, cfg.thread () = .call c k → Leaves cfg.world c
  ended : ∀ t, cfg.thread () = .pure t → t.finished = true → cfg.world.fulfilled = false →
    ∀ o, ¬ cfg.world.Kept o

/-- **Allocation released with the request.** In every run in which the calls of
ZooKeeper succeed, no poll finds READY and failed nodes together, and the request is not
deleted while it is being stored as fulfilled. -/
theorem allocation_released {init cfg : Config allocationSystem} (hinit : Initial init)
    (run : allocationSystem.Run Allocates init cfg) : Released cfg := by
  have hsafe : allocationRelease.Safe init := by
    obtain ⟨launcherId, request, hthread⟩ := hinit.thread
    refine .of_idle trivial fun _ => ⟨_, hthread, ?_⟩
    refine ⟨⟨funext hinit.lock, funext hinit.threadLock, fun o live => ?_, fun o ho => ?_,
        .inl rfl⟩,
      List.nodup_nil, rfl, rfl⟩
    · have stored := hinit.stored o
      rw [live.1] at stored
      cases stored
    · cases ho
  have safe := allocationRelease.sound hsafe run
  refine ⟨fun c k hc => safe.req hc, fun t idle finished unfulfilled o kept => ?_⟩
  have order : InOrder t cfg.world := safe.idle idle
  rw [InOrder, if_pos finished] at order
  rcases order with fulfilled | clear
  · rw [unfulfilled] at fulfilled
    cases fulfilled
  · exact clear o kept.live

/-! ### Two nodes, of which one cannot be launched -/

/-- A request for two nodes that may be reused. -/
def twoNodesRequest : NodeRequest :=
  { HandlerSystem.exampleRequest with id := "1", nodeTypes := ["l", "l"], reuse := true }

/-- Every stored node is READY, and none is allocated. -/
def twoNodesInit : Config allocationSystem where
  world :=
    { request := some twoNodesRequest
      requestLocked := true
      lock := fun _ => false
      threadLock := fun _ => false
      state := fun _ => .ready
      allocated := fun _ => false
      stored := fun _ => false
      storedState := fun _ => .ready
      launching := fun _ => false
      fulfilled := false }
  thread _ := .pure ⟨.init "launcher" twoNodesRequest (), false⟩

theorem twoNodesInit_initial : Initial twoNodesInit :=
  ⟨⟨_, _, rfl⟩, rfl, fun _ => rfl, fun _ => rfl, fun _ => rfl, rfl⟩

/-- A node that can be reused, or that is one's own. -/
def twoNodesNode (state : NodeState) (allocatedTo : Option String) : Node where
  state := state
  stateTime := 0
  type := ["l"]
  provider := some "p"
  pool := some "q"
  launcher := none
  allocatedTo := allocatedTo
  tenantName := none
  requestor := none
  resources := none
  externalId := none

/-- What calls answer between two changes of the world. -/
structure Moment where
  request : RequestState := .pending
  /-- the thread lock of the node is to be had -/
  free : Bool := false
  lock : Bool := true
  allocatedTo : Option String := some "1"
  /-- the state of the node that the handler has made -/
  own : NodeState := .building
  remaining : Bool := false

def Moment.answer (m : Moment) : (c : Call) → LauncherSig.Reply c
  | .getRequest _ => .ok { twoNodesRequest with state := m.request }
  | .getProviderConfig => .ok (some ⟨"p", ["l"]⟩)
  | .getPoolConfig => .ok (some ⟨"q", ["l"], .int 2, []⟩)
  | .getReadyNodesOfTypes _ => .ok (Dict.ofPairs [("l", [.cached 1])])
  | .newNode _ => .ok (.own 2)
  | .readNode (.cached id) =>
    .ok ⟨some id, twoNodesNode .ready m.allocatedTo, false, m.lock, m.lock⟩
  | .readNode (.own n) => .ok
      ⟨if m.lock then some n else none, twoNodesNode m.own m.allocatedTo, false, m.lock, m.lock⟩
  | .updateNode (.cached _) => .ok (twoNodesNode .ready none)
  | .updateNode (.own _) => .ok (twoNodesNode m.own m.allocatedTo)
  | .checkReusableNode _ | .acquireLock _ | .launchesComplete => .ok true
  | .acquireThreadLock _ => .ok m.free
  | .hasRemainingQuota _ => .ok m.remaining
  | .assignNode _ _ | .createNode _ | .setNode _ | .releaseLock _ | .releaseThreadLock _
  | .nodeReusedNotification _ | .setNodeMetadata _ | .launch _ => .ok ()
  | .time => .ok 0
  | c => HandlerSystem.exampleAnswer 2 .requested c

def calls (n : Nat) (m : Moment) : List (System.Action allocationSystem) :=
  List.replicate n (.reply () m.answer 0)

/-- The READY node is locked and allocated, and then there is quota for another one or not. -/
def reuseSchedule (remaining : Bool) : List (System.Action allocationSystem) :=
  .start () .run ::
    calls 14 { request := .requested, free := true, lock := false, allocatedTo := none } ++
    calls 4 { allocatedTo := none } ++ calls 8 { remaining }

/-- The allocation is cleared. -/
def giveBackSchedule : List (System.Action allocationSystem) :=
  calls 4 {} ++ calls 9 { allocatedTo := none }

/-- A node is made and its launch is started. -/
def launchSchedule : List (System.Action allocationSystem) :=
  calls 9 { free := true, lock := false, own := .init } ++ calls 6 {}

/-- Neither launches nor the request come to an end. -/
def goesOn : Event allocationSystem → Bool
  | .call () (.getRequest _) (.error _) | .call () .launchesComplete _ => false
  | _ => true

theorem staysApart_of_goesOn {e : Event allocationSystem} (h : goesOn e = true) :
    staysApart w e := by
  unfold goesOn at h
  unfold staysApart
  split at h
  · cases h
  · cases h
  · rename_i noError noLaunches
    split
    · exact (noError _ _ rfl).elim
    · exact (noLaunches _ rfl).elim
    · trivial

/-- There is quota for one node only: the node that was reused is given back. -/
theorem allocation_released_declines : ∃ (cfg : Config allocationSystem) (t : HandlerThread),
    cfg.thread () = .pure t ∧ t.finished = true ∧ Released cfg := by
  have hexec : ∃ cfg t, System.exec (fun _ e => zooKeeperSucceeds e && goesOn e) twoNodesInit
      (reuseSchedule false ++ giveBackSchedule) = some cfg ∧ cfg.thread () = .pure t ∧
      t.finished = true :=
    ⟨_, _, rfl, rfl, rfl⟩
  obtain ⟨cfg, t, hcfg, idle, finished⟩ := hexec
  have run := System.exec_run Allocates (fun _ _ h =>
    have both := Bool.and_eq_true_iff.mp h
    ⟨both.1, staysApart_of_goesOn both.2⟩) hcfg
  exact ⟨cfg, t, idle, finished, allocation_released twoNodesInit_initial run⟩

/-- The launch of the new node fails. -/
def launchFails (w : AllocationWorld) : AllocationWorld :=
  { w with
    state := Function.update w.state (.own 2) .failed
    storedState := Function.update w.storedState (.own 2) .failed }

theorem launchFails_env (launching : w.launching (.own 2) = true) : Env w (launchFails w) := by
  have state : ∀ {o}, o ≠ .own 2 → (launchFails w).state o = w.state o := fun h =>
    Function.update_of_ne h _ _
  have storedState : ∀ {o}, o ≠ .own 2 → (launchFails w).storedState o = w.storedState o :=
    fun h => Function.update_of_ne h _ _
  have failed : (launchFails w).storedState (.own 2) = .failed := by
    unfold launchFails
    dsimp only
    rw [Function.update_self]
  refine ⟨id, rfl, rfl, rfl, fun _ => id, fun o _ ready => ?_, fun o _ still => ?_,
    fun n still => ?_, fun _ => id, fun o _ shown ready => ?_, fun _ => id, rfl⟩
  · by_cases same : o = .own 2
    · rw [same, failed] at ready
      cases ready
    · rw [storedState same] at ready
      exact .inl ready
  · refine state fun same => ?_
    rw [same, launching] at still
    cases still
  · refine state fun same => ?_
    rw [same, launching] at still
    cases still
  · by_cases same : o = .own 2
    · rw [same, failed] at ready
      cases ready
    · rw [storedState same] at ready
      rw [state same]
      exact shown ready

/-- A READY node is still allocated to the request when it goes back because the launch of
another one has failed. -/
theorem not_forall_allocation_released : ¬ ∀ init cfg : Config allocationSystem, Initial init →
    allocationSystem.Run (fun _ e => zooKeeperSucceeds e = true) init cfg → Released cfg := by
  intro h
  have hexec : ∃ cfg cfg' id data k,
      System.exec (fun _ e => zooKeeperSucceeds e) twoNodesInit
        (reuseSchedule true ++ launchSchedule) = some cfg ∧
      cfg.world.launching (.own 2) = true ∧
      System.exec (fun _ e => zooKeeperSucceeds e) { cfg with world := launchFails cfg.world }
        (.start () .poll :: calls 16 { own := .failed }) = some cfg' ∧
      cfg'.thread () = .call (.setRequest id data) k ∧ data.state = .failed ∧
      cfg'.world.stored (.cached 1) = true ∧ cfg'.world.storedState (.cached 1) = .ready :=
    ⟨_, _, _, _, _, rfl, rfl, rfl, rfl, rfl, rfl, rfl⟩
  obtain ⟨cfg, cfg', id, data, k, hcfg, launching, hcfg', pending, failed, kept⟩ := hexec
  have before : allocationSystem.Run (fun _ e => zooKeeperSucceeds e = true) twoNodesInit cfg :=
    System.exec_run _ (fun _ _ h => h) hcfg
  have after : allocationSystem.Run (fun _ e => zooKeeperSucceeds e = true)
      { cfg with world := launchFails cfg.world } cfg' :=
    System.exec_run _ (fun _ _ h => h) hcfg'
  have released := h _ cfg' twoNodesInit_initial
    ((System.Run.tail before rfl (.env (launchFails_env launching))).trans after)
  exact released.leaves _ _ pending (.inr failed) (.cached 1) kept

end AllocationSystem

end Nodepool
