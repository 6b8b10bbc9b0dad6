import Nodepool.Driver.AllocationSystem

/-!
What a request handler does to the allocation of nodes until it stops or waits. Between
its steps it is `Open`: exactly the nodes of its node set are locked, and no other node
may be READY and allocated. Giving the request back clears the allocation of each node
before it is unlocked.
-/

namespace Nodepool

open Effect Method NodeRequestHandler

namespace AllocationSystem

open AllocationWorld

variable {p : Prop} {l t k f : NodeRef → Bool} {s : Handler Unit} {w w' : AllocationWorld}
  {o : NodeRef}

/-! ### Unlocking the node set -/

/-- The nodes of a node set. -/
def held (os : List NodeRef) : NodeRef → Bool := fun o => decide (o ∈ os)

theorem held_mem {os : List NodeRef} (h : o ∈ os) : held os o = true := decide_eq_true h

theorem held_nil : held [] = fun _ => false := rfl

theorem held_cons {os : List NodeRef} (fresh : o ∉ os) :
    Function.update (held (o :: os)) o false = held os := by
  funext o'
  by_cases same : o' = o
  · subst same
    rw [Function.update_self, held, decide_eq_false fresh]
  · rw [Function.update_of_ne same, held, held]
    exact decide_eq_decide.mpr ⟨fun h => (List.mem_cons.mp h).resolve_left same,
      List.mem_cons_of_mem o⟩

theorem held_append (os : List NodeRef) (o : NodeRef) :
    Function.update (held os) o true = held (os ++ [o]) := by
  funext o'
  by_cases same : o' = o
  · subst same
    rw [Function.update_self, held_mem (List.mem_append_right os (List.mem_singleton_self _))]
  · rw [Function.update_of_ne same, held, held]
    refine decide_eq_decide.mpr ⟨List.mem_append_left [o], fun h => ?_⟩
    exact (List.mem_append.mp h).resolve_right fun h' => same (List.mem_singleton.mp h')

theorem held_erase {os : List NodeRef} (nodup : os.Nodup) (o : NodeRef) :
    Function.update (held os) o false = held (os.erase o) := by
  funext o'
  by_cases same : o' = o
  · subst same
    rw [Function.update_self, held, decide_eq_false nodup.not_mem_erase]
  · rw [Function.update_of_ne same, held, held]
    exact decide_eq_decide.mpr (List.mem_erase_of_ne same).symm

theorem Tidy.weaken {k' : NodeRef → Bool} (h : Tidy p l t k w)
    (hk : ∀ o, k o = true → k' o = true) : Tidy p l t k' w :=
  ⟨h.lock, h.threadLock, fun o ho => hk o (h.live o ho), h.shown, h.request⟩

theorem Tidy.known {p' : Prop} (h : Tidy p l t k w)
    (hp : p ∨ w.request = none → p' ∨ w.request = none) :
    Tidy p' l t k w :=
  ⟨h.lock, h.threadLock, h.live, h.shown, hp h.request⟩

/-- Clearing the allocation of a node of the node set. -/
theorem clearNodeAllocation_wp (h : Tidy p l t k w) :
    (clearNodeAllocation o).wp Γ
      (fun _ s' w' => s' = s ∧ Tidy p l t (Function.update k o false) w')
      (fun _ _ _ => False) s w := by
  have env : ∀ {w w'}, Tidy p l t k w ∧ w.allocated o = false → Env w w' →
      Tidy p l t k w' ∧ w'.allocated o = false := by
    rintro w w' ⟨h, ha⟩ he
    refine ⟨h.env he, ?_⟩
    by_contra allocated
    rw [Bool.not_eq_false] at allocated
    rw [he.allocated o allocated] at ha
    cases ha
  rw [clearNodeAllocation, wp_bind]
  refine effect_wp Tidy.env (by trivial) (fun _ => by trivial)
    (fun w => w.setObject o (w.state o) false) (fun _ _ => rfl) h fun _ w₁ hw₁ => ?_
  rw [wp_tryCatch]
  refine storeNode_wp env ⟨hw₁.calm (calm_setObject fun _ hr => hr), ?_⟩ fun w₂ hw₂ =>
    ⟨rfl, hw₂.1.storeCleared hw₂.2⟩
  exact Function.update_self ..

/-- One step of unlocking the node set. -/
theorem unlockNodeOfSet_wp {X : AllocationWorld → Prop} (hX : Rests X) (h : Tidy p f f k w)
    (hx : X w) (ho : f o = true) :
    (unlockNodeOfSet false o).wp Γ
      (fun _ s' w' => s' = s ∧
        Tidy p (Function.update f o false) (Function.update f o false) k w' ∧ X w')
      (fun _ _ _ => False) s w := by
  have env : ∀ {w w'}, Tidy p f f k w ∧ X w → Env w w' → Tidy p f f k w' ∧ X w' :=
    fun h he => ⟨h.1.env he, hX.env h.2 he⟩
  rw [unlockNodeOfSet, wp_bind]
  refine readNode_wp env ⟨h, hx⟩ fun object w₁ hw₁ shows => ?_
  have locked : object.lock = true := by
    rw [(shows (by rw [hw₁.1.threadLock]; exact ho)).1, hw₁.1.lock]
    exact ho
  rw [if_pos locked, wp_bind, Nodepool.when, if_neg Bool.false_ne_true, wp_pure, wp_tryCatch]
  exact wp_mono (unlockNode_wp hX hw₁.1 hw₁.2 ho) (fun _ _ _ h => h) fun _ _ _ h => h.elim

/-- One step of unlocking the node set when the allocation is cleared. -/
theorem unlockNodeOfSet_cleared (h : Tidy p f f f w) (ho : f o = true) :
    (unlockNodeOfSet true o).wp Γ
      (fun _ s' w' => s' = s ∧ Tidy p (Function.update f o false) (Function.update f o false)
        (Function.update f o false) w')
      (fun _ _ _ => False) s w := by
  rw [unlockNodeOfSet, wp_bind]
  refine readNode_wp Tidy.env h fun object w₁ hw₁ shows => ?_
  have locked : object.lock = true := by
    rw [(shows (by rw [hw₁.threadLock]; exact ho)).1, hw₁.lock]
    exact ho
  rw [if_pos locked, wp_bind, Nodepool.when, if_pos rfl]
  refine wp_mono (clearNodeAllocation_wp hw₁) ?_ fun _ _ _ h => h.elim
  rintro _ _ w₂ ⟨rfl, hw₂⟩
  rw [wp_tryCatch]
  refine wp_mono (unlockNode_wp rests_true hw₂ trivial ho) ?_ fun _ _ _ h => h.elim
  exact fun _ _ _ h => ⟨h.1, h.2.1⟩

/-- Unlocking the node set without clearing leaves the allocations as they are. -/
theorem unlockNodeSet_wp {X : AllocationWorld → Prop} (hX : Rests X) (nodup : s.nodeset.Nodup)
    (h : Tidy p (held s.nodeset) (held s.nodeset) k w) (hx : X w) :
    (unlockNodeSet false).wp Γ
      (fun _ s' w' => s' = { s with nodeset := [] } ∧ Tidy p (held []) (held []) k w' ∧ X w')
      (fun _ _ _ => False) s w := by
  have loop : ∀ (os : List NodeRef) w, os.Nodup → Tidy p (held os) (held os) k w → X w →
      (forEach os (unlockNodeOfSet false)).wp Γ
        (fun _ s' w' => s' = s ∧ Tidy p (held []) (held []) k w' ∧ X w')
        (fun _ _ _ => False) s w := by
    intro os
    induction os with
    | nil => exact fun w _ h hx => ⟨rfl, h, hx⟩
    | cons o os ih =>
        intro w distinct h hx
        obtain ⟨fresh, distinct⟩ := List.nodup_cons.mp distinct
        rw [forEach, wp_bind]
        refine wp_mono (unlockNodeOfSet_wp hX h hx (held_mem List.mem_cons_self)) ?_
          fun _ _ _ h => h.elim
        rintro _ _ w₁ ⟨rfl, h₁, hx₁⟩
        rw [held_cons fresh] at h₁
        exact ih w₁ distinct h₁ hx₁
  rw [unlockNodeSet, wp_bind, wp_self, wp_bind]
  refine wp_mono (loop _ w nodup h hx) ?_ fun _ _ _ h => h.elim
  rintro _ _ w₁ ⟨rfl, h₁⟩
  exact ⟨rfl, h₁⟩

/-- Unlocking the node set with clearing leaves nothing allocated. -/
theorem unlockNodeSet_cleared (nodup : s.nodeset.Nodup)
    (h : Tidy p (held s.nodeset) (held s.nodeset) (held s.nodeset) w) :
    (unlockNodeSet true).wp Γ
      (fun _ s' w' => s' = { s with nodeset := [] } ∧ Tidy p (held []) (held []) (held []) w')
      (fun _ _ _ => False) s w := by
  have loop : ∀ (os : List NodeRef) w, os.Nodup → Tidy p (held os) (held os) (held os) w →
      (forEach os (unlockNodeOfSet true)).wp Γ
        (fun _ s' w' => s' = s ∧ Tidy p (held []) (held []) (held []) w')
        (fun _ _ _ => False) s w := by
    intro os
    induction os with
    | nil => exact fun w _ h => ⟨rfl, h⟩
    | cons o os ih =>
        intro w distinct h
        obtain ⟨fresh, distinct⟩ := List.nodup_cons.mp distinct
        rw [forEach, wp_bind]
        refine wp_mono (unlockNodeOfSet_cleared h (held_mem List.mem_cons_self)) ?_
          fun _ _ _ h => h.elim
        rintro _ _ w₁ ⟨rfl, h₁⟩
        rw [held_cons fresh] at h₁
        exact ih w₁ distinct h₁
  rw [unlockNodeSet, wp_bind, wp_self, wp_bind]
  refine wp_mono (loop _ w nodup h) ?_ fun _ _ _ h => h.elim
  rintro _ _ w₁ ⟨rfl, h₁⟩
  exact ⟨rfl, h₁⟩

/-! ### The request -/

/-- The request has been stored as fulfilled, or nothing is allocated to it. -/
def Settled (w : AllocationWorld) : Prop := w.fulfilled = true ∨ ∀ o, ¬ w.Live o

theorem soft_settled : Soft Settled where
  env h he := by
    rcases h with done | clear
    · exact .inl (by rw [he.fulfilled]; exact done)
    · exact .inr fun o live => clear o (live_env he live)
  calm h hc := by
    rcases h with done | clear
    · exact .inl (hc.fulfilled done)
    · exact .inr fun o live => clear o (hc.live live)

theorem Tidy.clear (h : Tidy p l t (held []) w) (o : NodeRef) : ¬ w.Live o := fun live => by
  have := h.live o live
  rw [held_nil] at this
  cases this

/-- If the request is gone, every READY node that is allocated to it is locked. -/
theorem getNodeRequest_wp {B : AllocationWorld → Prop} (env : ∀ {w w'}, B w → Env w w' → B w')
    (hB : B w) {id : String} {Q : Option NodeRequest → Handler Unit → AllocationWorld → Prop}
    {X : Err → Handler Unit → AllocationWorld → Prop}
    (found : ∀ data w', B w' → w'.request ≠ none → Q (some data) s w')
    (missing : ∀ w', B w' → w'.request = none → (∀ o, w'.Kept o → w'.lock o = true) →
      Q none s w') : (ZooKeeper.getNodeRequest id).wp Γ Q X s w := by
  rw [ZooKeeper.getNodeRequest, wp_tryCatch, wp_bind]
  refine wp_call (P := B) (fun hw he _ => env hw he) hB (fun _ _ _ => trivial) ?_ ?_
  · intro data w₁ w₂ hw₁ _ hs _
    have hmem : w₂ ∈ w₁.next (.getRequest id) (.ok data) := hs.1
    obtain ⟨present, rfl⟩ := of_mem_ite hmem
    exact found data w₂ hw₁ (by rw [present]; exact Option.some_ne_none data)
  · intro e w₁ w₂ hw₁ _ hs _
    have missed : e = .noNode := of_decide_eq_true hs.2.1
    have kept : ∀ o, w₁.Kept o → w₁.lock o = true := hs.2.2
    subst missed
    have hmem : w₂ ∈ w₁.next (.getRequest id) (.error .noNode) := hs.1
    simp only [next, true_and] at hmem
    split at hmem
    · cases hmem
    · rename_i gone
      rw [List.mem_singleton] at hmem
      subst hmem
      rw [if_pos rfl]
      exact missing w₂ hw₁ (not_not.mp gone) kept

theorem storeNodeRequest_wp {B : AllocationWorld → Prop} (soft : Soft B) (hB : B w)
    (leaves : ∀ w, B w → Leaves w (.setRequest s.request.id s.request))
    {Q : Unit → Handler Unit → AllocationWorld → Prop}
    {X : Err → Handler Unit → AllocationWorld → Prop}
    (stored : ∀ w', B w' → (s.request.state = .fulfilled → w'.fulfilled = true) → Q () s w')
    (missing : ∀ e w', B w' → w'.request = none → (∀ o, w'.Kept o → w'.lock o = true) →
      X e s w') : storeNodeRequest.wp Γ Q X s w := by
  rw [storeNodeRequest, wp_bind, wp_self, wp_bind]
  refine getNodeRequest_wp soft.env hB (fun data w₁ hw₁ _ => ?_) fun w₁ hw₁ gone kept => ?_
  · rw [if_neg (Option.some_ne_none data)]
    refine wp_call (P := B) (fun hw he _ => soft.env hw he) hw₁ (fun w hw _ => leaves w hw) ?_ ?_
    · intro _ w₂ w₃ hw₂ _ hs _
      have hmem : w₃ ∈ w₂.next (.setRequest s.request.id s.request) (.ok ()) := hs.1
      refine stored w₃ (soft.calm hw₂ (next_calm (by trivial) _ hmem)) fun fulfilled => ?_
      rw [(of_mem_ite_not hmem).2]
      dsimp only
      rw [fulfilled, decide_eq_true rfl, Bool.or_true]
    · exact fun _ _ _ _ _ hs _ => absurd hs.2.1 Bool.false_ne_true
  · rw [if_pos rfl]
    exact missing _ w₁ hw₁ gone kept

theorem unlockNodeRequest_wp {B : AllocationWorld → Prop} (soft : Soft B) (hB : B w)
    (locked : s.requestLock = true) :
    unlockNodeRequest.wp Γ (fun _ _ w' => B w') (fun _ _ _ => False) s w := by
  rw [unlockNodeRequest, wp_bind, wp_self, wp_bind, raiseUnless, if_pos locked, wp_pure, wp_bind]
  refine wp_call (P := B) (fun hw he _ => soft.env hw he) hB (fun _ _ _ => trivial) ?_ ?_
  · exact fun v _ _ hw _ hs _ =>
      soft.calm hw (next_calm (c := .releaseRequestLock s.request.id) (r := .ok v) trivial _ hs.1)
  · exact fun _ _ _ _ _ hs _ => absurd hs.2.1 Bool.false_ne_true

/-! ### An open handler -/

/-- The nodes of the node set are the locked ones, and only they may be allocated and
READY. -/
structure Open (s : Handler Unit) (w : AllocationWorld) : Prop where
  tidy : Tidy (s.failedNodes = []) (held s.nodeset) (held s.nodeset) (held s.nodeset) w
  nodup : s.nodeset.Nodup
  requestLock : s.requestLock = true
  done : s.done = false

/-- What `Open` looks at. -/
def openPart (s : Handler Unit) : List NodeRef × List NodeRef × Bool × Bool :=
  (s.nodeset, s.failedNodes, s.requestLock, s.done)

theorem Open.congr {s' : Handler Unit} (h : Open s w) (hs : openPart s' = openPart s) :
    Open s' w := by
  simp only [openPart, Prod.mk.injEq] at hs
  obtain ⟨hn, hf, hl, hd⟩ := hs
  exact ⟨by rw [hn, hf]; exact h.tidy, by rw [hn]; exact h.nodup, hl.trans h.requestLock,
    hd.trans h.done⟩

theorem Open.withTidy (h : Open s w)
    (hw : Tidy (s.failedNodes = []) (held s.nodeset) (held s.nodeset) (held s.nodeset) w') :
    Open s w' :=
  ⟨hw, h.nodup, h.requestLock, h.done⟩

theorem Open.env (h : Open s w) (he : Env w w') : Open s w' := h.withTidy (h.tidy.env he)

/-- A method that makes only quiet calls. -/
theorem keeps_open {α : Type} {m : HandlerM Unit α} (hm : Within isQuiet openPart m) :
    Keeps Γ Open m := by
  intro s w h
  exact wp_mono (hm.wp (s := s) soft_tidy.stable h.tidy)
    (fun _ _ _ h' => (h.withTidy h'.2).congr h'.1) fun _ _ _ h' => (h.withTidy h'.2).congr h'.1

theorem isQuiet_of_consults {c : Call} (h : c.consults) : isQuiet c := by
  cases c <;> trivial

/-! ### Deleting an unused node -/

/-- Unlocking a node that has just been locked. -/
theorem unlockAgain_wp {α : Type} (a : α) (hf : f o = false)
    (h : Tidy p (Function.update f o true) (Function.update f o true) f w) :
    (do
      ZooKeeper.unlockNode o
      pure a : HandlerM Unit α).wp Γ (fun _ s' w' => s' = s ∧ Tidy p f f f w')
      (fun _ _ _ => False) s w := by
  rw [wp_bind]
  refine wp_mono (unlockNode_wp rests_true h trivial (Function.update_self ..)) ?_
    fun _ _ _ h => h.elim
  rintro _ _ w₁ ⟨rfl, h₁, -⟩
  rw [update_release hf] at h₁
  exact ⟨rfl, h₁⟩

/-- Marking a node that is not ready in some other state. -/
theorem assignState_wp {state : NodeState} (hs : state ≠ .ready) (ht : t o = true)
    (hk : k o = false) (h : Tidy p l t k w) (hu : Unready o w) :
    (ZooKeeper.assignState o state).wp Γ
      (fun _ s' w' => s' = s ∧ Tidy p l t k w' ∧ Unready o w') (fun _ _ _ => False) s w := by
  have env : ∀ {w w'}, Tidy p l t k w ∧ Unready o w → Env w w' →
      Tidy p l t k w' ∧ Unready o w' :=
    fun h he => ⟨h.1.env he, h.2.env (by rw [h.1.threadLock]; exact ht) he⟩
  rw [ZooKeeper.assignState, wp_bind]
  refine effect_wp env (by trivial) (fun _ => by trivial) id (fun _ _ => rfl) ⟨h, hu⟩
    fun now w₁ hw₁ => ?_
  refine effect_wp env (by trivial) (fun _ => by trivial)
    (fun w => w.setObject o state (w.allocated o)) (fun _ _ => rfl) hw₁ fun _ w₂ hw₂ => ?_
  refine ⟨rfl, hw₂.1.calm (calm_setObject fun kept => ?_), ?_⟩
  · rw [hw₂.1.live o kept.live] at hk
    cases hk
  · unfold Unready setObject
    dsimp only
    rw [Function.update_self, Function.update_self]
    exact hw₂.2.imp_right fun hr => ⟨hs, hr.2⟩

theorem storeUnready_wp (ht : t o = true) (h : Tidy p l t k w) (hu : Unready o w) :
    (ZooKeeper.storeNode o).wp Γ (fun _ s' w' => s' = s ∧ Tidy p l t k w')
      (fun _ _ _ => False) s w := by
  have env : ∀ {w w'}, Tidy p l t k w ∧ Unready o w → Env w w' →
      Tidy p l t k w' ∧ Unready o w' :=
    fun h he => ⟨h.1.env he, h.2.env (by rw [h.1.threadLock]; exact ht) he⟩
  exact storeNode_wp env ⟨h, hu⟩ fun w₁ hw₁ => ⟨rfl, hw₁.1.store (.inr hw₁.2)⟩

theorem deleteUnusedNode_wp (o : NodeRef) (h : Tidy p f f f w) :
    (ZooKeeper.deleteUnusedNode o).wp Γ (fun _ s' w' => s' = s ∧ Tidy p f f f w')
      (fun _ s' w' => s' = s ∧ Tidy p f f f w') s w := by
  rw [ZooKeeper.deleteUnusedNode, wp_bind, wp_attempt]
  refine wp_mono (lockNode_wp h) ?_ ?_
  · rintro _ _ w₁ ⟨rfl, hf, hw₁, hu⟩
    have locked : Function.update f o true o = true := Function.update_self ..
    have env : ∀ {w w'}, Tidy p (Function.update f o true) (Function.update f o true) f w ∧
        Unready o w → Env w w' →
        Tidy p (Function.update f o true) (Function.update f o true) f w' ∧ Unready o w' :=
      fun h he => ⟨h.1.env he, h.2.env (by rw [h.1.threadLock]; exact locked) he⟩
    dsimp only
    rw [wp_bind]
    refine readNode_wp env ⟨hw₁, hu⟩ fun object w₂ hw₂ _ => ?_
    split
    · exact wp_mono (unlockAgain_wp false hf hw₂.1) (fun _ _ _ h => h) fun _ _ _ h => h.elim
    · rw [wp_bind, wp_attempt, wp_bind]
      refine wp_mono (assignState_wp (by decide) locked hf hw₂.1 hw₂.2) ?_ fun _ _ _ h => h.elim
      rintro _ _ w₃ ⟨rfl, hw₃, hu₃⟩
      refine wp_mono (storeUnready_wp locked hw₃ hu₃) ?_ fun _ _ _ h => h.elim
      rintro _ _ w₄ ⟨rfl, hw₄⟩
      exact wp_mono (unlockAgain_wp true hf hw₄) (fun _ _ _ h => h) fun _ _ _ h => h.elim
  · rintro e _ w₁ ⟨rfl, hw₁⟩
    cases e <;> exact ⟨rfl, hw₁⟩

theorem deleteFirstUnusedNode_wp (os : List NodeRef) (h : Tidy p f f f w) :
    (ZooKeeper.deleteFirstUnusedNode os).wp Γ (fun _ s' w' => s' = s ∧ Tidy p f f f w')
      (fun _ s' w' => s' = s ∧ Tidy p f f f w') s w := by
  induction os generalizing w with
  | nil => exact ⟨rfl, h⟩
  | cons o os ih =>
      rw [ZooKeeper.deleteFirstUnusedNode, wp_bind]
      refine wp_mono (deleteUnusedNode_wp o h) ?_ fun _ _ _ h => h
      rintro deleted _ w₁ ⟨rfl, hw₁⟩
      split
      · exact ⟨rfl, hw₁⟩
      · exact ih hw₁

theorem keeps_open_deleteOldestUnusedNode (providerName poolName : String) :
    Keeps Γ Open (ZooKeeper.deleteOldestUnusedNode providerName poolName) := by
  refine .bind (keeps_open (.perform trivial)) fun nodes => .bind (keeps_open
    (ZooKeeper.unusedNodes_within (fun _ => trivial) trivial _ _ nodes)) fun candidates => ?_
  split
  · exact .pure
  · intro s w h
    refine wp_mono (deleteFirstUnusedNode_wp (s := s) _ h.tidy) ?_ ?_
    · rintro _ _ w' ⟨rfl, hw'⟩
      exact h.withTidy hw'
    · rintro _ _ w' ⟨rfl, hw'⟩
      exact h.withTidy hw'

/-! ### Taking nodes into the node set -/

/-- Appending the node that has been locked. -/
theorem Open.addNode (h : Open s w) {ntype : String} {id : Option NodeId}
    (fresh : held s.nodeset o = false)
    (hw : Tidy (s.failedNodes = []) (Function.update (held s.nodeset) o true)
      (Function.update (held s.nodeset) o true) (Function.update (held s.nodeset) o true) w') :
    Open (s.addNode o ntype id) w' := by
  rw [held_append] at hw
  refine ⟨hw, ?_, h.requestLock, h.done⟩
  refine List.nodup_append.mpr ⟨h.nodup, List.nodup_singleton o, fun o' ho' b hb same => ?_⟩
  rw [List.mem_singleton.mp hb] at same
  rw [← same, held_mem ho'] at fresh
  cases fresh

theorem Tidy.taken (h : Tidy p l t f w) (o : NodeRef) :
    Tidy p l t (Function.update f o true) w :=
  h.weaken fun o' ho' => by
    by_cases same : o' = o
    · rw [same, Function.update_self]
    · rw [Function.update_of_ne same]
      exact ho'

theorem useReadyNode_wp (ntype : String) (o : NodeRef) (h : Open s w)
    (fresh : held s.nodeset o = false)
    (hw : Tidy (s.failedNodes = []) (Function.update (held s.nodeset) o true)
      (Function.update (held s.nodeset) o true) (held s.nodeset) w') :
    (useReadyNode Driver.external ntype o).wp Γ (fun _ => Open) (fun _ => Open) s w' := by
  have held' := hw.taken o
  rw [useReadyNode, wp_bind, wp_assign, wp_bind, wp_self, wp_bind]
  refine quiet_wp soft_tidy (by trivial) (by trivial) held' fun _ w₁ hw₁ => ?_
  rw [wp_bind]
  refine quiet_wp soft_tidy (by trivial) (by trivial) hw₁ fun _ w₂ hw₂ => ?_
  rw [wp_bind]
  refine quiet_wp soft_tidy (by trivial) (by trivial) hw₂ fun _ w₃ hw₃ => ?_
  rw [wp_bind]
  refine storeNode_wp Tidy.env hw₃ fun w₄ hw₄ => ?_
  rw [wp_bind]
  refine quiet_wp soft_tidy (by trivial) (by trivial) (hw₄.store (.inl (Function.update_self ..)))
    fun object w₅ hw₅ => ?_
  rw [wp_bind, wp_assign]
  have h₅ : Open { s with paused := false } w := h.congr rfl
  have reused : Within isQuiet openPart (Driver.external.nodeReusedNotification o) :=
    .perform trivial
  exact keeps_open reused _ _ (h₅.addNode fresh hw₅)

theorem keeps_open_tryReadyNode (ntype : String) (o : NodeRef) :
    Keeps Γ Open (tryReadyNode Driver.external ntype o) := by
  refine .bind (keeps_open provider_within) fun provider => .bind (keeps_open pool_within)
    fun pool => .bind (keeps_open (.perform trivial)) fun object => ?_
  refine .ite .pure (.ite .pure (.ite .pure ?_))
  refine .bind (keeps_open (.perform trivial)) fun _ => .ite ?_ .pure
  intro s w h
  rw [wp_bind, wp_attempt]
  refine wp_mono (lockNode_wp h.tidy) ?_ ?_
  · rintro _ s₁ w₁ ⟨rfl, fresh, hw₁, -⟩
    have unlock : ∀ {w' : AllocationWorld}, Tidy (s₁.failedNodes = [])
        (Function.update (held s₁.nodeset) o true) (Function.update (held s₁.nodeset) o true)
        (held s₁.nodeset) w' → (do
          ZooKeeper.unlockNode o
          pure false : HandlerM Unit Bool).wp Γ (fun _ => Open) (fun _ => Open) s₁ w' := by
      intro w' hw'
      refine wp_mono (unlockAgain_wp false fresh hw') ?_ fun _ _ _ h => h.elim
      rintro _ _ w₂ ⟨rfl, hw₂⟩
      exact h.withTidy hw₂
    dsimp only
    rw [wp_bind]
    refine readNode_wp Tidy.env hw₁ fun object w₂ hw₂ _ => ?_
    split
    · exact unlock hw₂
    · split
      · exact unlock hw₂
      · rw [wp_bind]
        exact wp_mono (useReadyNode_wp ntype o h fresh hw₂) (fun _ _ _ h => h) fun _ _ _ h => h
  · rintro e _ w₁ ⟨rfl, hw₁⟩
    cases e <;> exact h.withTidy hw₁

theorem keeps_open_grabReadyNode (ntype : String) (os : List NodeRef) :
    Keeps Γ Open (grabReadyNode Driver.external ntype os) := by
  induction os with
  | nil => exact .pure
  | cons o os ih => exact .bind (keeps_open_tryReadyNode ntype o) fun _ => .ite .pure ih

/-- A node of the handler's own that is not READY and not being launched. -/
def Made (n : Nat) (w : AllocationWorld) : Prop :=
  w.state (.own n) ≠ .ready ∧ w.launching (.own n) = false

theorem made_env {n : Nat} (h : Made n w) (he : Env w w') : Made n w' :=
  ⟨by rw [he.state_own n h.2]; exact h.1, he.still h.2⟩

theorem newNode_wp {node : Node} (hnode : node.state ≠ .ready) (h : Tidy p l t k w)
    {Q : NodeRef → Handler Unit → AllocationWorld → Prop}
    {X : Err → Handler Unit → AllocationWorld → Prop}
    (hQ : ∀ n w', Tidy p l t k w' → Made n w' → Q (.own n) s w') :
    (call (.newNode node)).wp Γ Q X s w := by
  refine wp_call (P := Tidy p l t k) (fun h he _ => h.env he) h (fun _ _ _ => trivial) ?_ ?_
  · intro o w₁ w₂ hw₁ hi hs hi'
    have hw₂ := soft_tidy.stable.step (c := .newNode node) trivial hw₁ hi hs hi'
    have hmem : w₂ ∈ w₁.next (.newNode node) (.ok o) := hs.1
    cases o with
    | own n =>
        obtain ⟨unused, same⟩ := of_mem_ite_not hmem
        refine hQ n w₂ hw₂ ?_
        rw [same]
        refine ⟨?_, ?_⟩
        · unfold setObject
          dsimp only
          rw [Function.update_self]
          exact hnode
        · by_contra launching
          rw [Bool.not_eq_false] at launching
          exact unused (.inr (.inr (.inr launching)))
    | cached id => cases hmem
  · exact fun _ _ _ _ _ hs _ => absurd hs.1 List.not_mem_nil

/-- The launch of a node of the node set starts. -/
theorem keeps_open_launch (h : Open s w) (ho : o ∈ s.nodeset) :
    (Driver.external.launch o).wp Γ (fun _ => Open) (fun _ => Open) s w := by
  have start : ∀ {w}, Open s w →
      Open s { w with launching := Function.update w.launching o true } := by
    intro w h
    refine h.withTidy ⟨h.tidy.lock, h.tidy.threadLock, ?_, h.tidy.shown, h.tidy.request⟩
    intro o' live
    by_cases same : o' = o
    · rw [same]
      exact held_mem ho
    · refine h.tidy.live o' ⟨live.1, live.2.imp_right fun hl => ?_⟩
      dsimp only at hl
      rwa [Function.update_of_ne same] at hl
  refine wp_call (P := Open s) (fun h he _ => h.env he) h (fun _ _ _ => trivial) ?_ ?_
  · intro _ w₁ w₂ hw₁ _ hs _
    have hmem : w₂ ∈ w₁.next (.launch o) (.ok ()) := hs.1
    rw [List.mem_singleton.mp hmem]
    exact start hw₁
  · intro e w₁ w₂ hw₁ _ hs _
    have hmem : w₂ ∈ w₁.next (.launch o) (.error e) := hs.1
    rw [List.mem_singleton.mp hmem]
    exact start hw₁

theorem keeps_open_launchNewNode (ntype : String) :
    Keeps Γ Open (launchNewNode Driver.external ntype) := by
  refine .bind (.assign fun _ _ h => h.congr rfl) fun _ => .bind (keeps_open provider_within)
    fun provider => .bind (keeps_open pool_within) fun pool =>
    .bind (keeps_open (.perform trivial)) fun now => ?_
  intro s w h
  rw [wp_bind, wp_self, wp_bind]
  refine newNode_wp (by simp [newNode]) h.tidy fun n w₁ hw₁ made => ?_
  have env : ∀ {w w'}, Tidy (s.failedNodes = []) (held s.nodeset) (held s.nodeset)
      (held s.nodeset) w ∧ Made n w → Env w w' → Tidy (s.failedNodes = []) (held s.nodeset)
      (held s.nodeset) (held s.nodeset) w' ∧ Made n w' :=
    fun h he => ⟨h.1.env he, made_env h.2 he⟩
  rw [wp_bind]
  refine wp_call (P := fun w => Tidy (s.failedNodes = []) (held s.nodeset) (held s.nodeset)
      (held s.nodeset) w ∧ Made n w) (fun h he _ => env h he) ⟨hw₁, made⟩
    (fun _ _ _ => trivial) ?_ ?_
  · intro _ w₂ w₃ hw₂ _ hs _
    have hmem : w₃ ∈ w₂.next (.setNodeMetadata (.own n)) (.ok ()) := hs.1
    rw [List.mem_singleton.mp hmem, wp_bind]
    -- the node is stored before it is locked
    refine storeNode_wp env hw₂ fun w₄ hw₄ => ?_
    rw [wp_bind]
    refine wp_mono (lockNode_wp (hw₄.1.store (.inr (.inr hw₄.2)))) ?_ ?_
    · rintro _ s₅ w₅ ⟨rfl, fresh, hw₅, unready⟩
      have locked : Function.update (held s₅.nodeset) (.own n) true (.own n) = true :=
        Function.update_self ..
      rw [wp_bind]
      refine wp_mono (assignState_wp (by decide) locked fresh hw₅ unready) ?_
        fun _ _ _ h => h.elim
      rintro _ _ w₆ ⟨rfl, hw₆, unready⟩
      rw [wp_bind]
      refine wp_mono (storeUnready_wp locked hw₆ unready) ?_ fun _ _ _ h => h.elim
      rintro _ _ w₇ ⟨rfl, hw₇⟩
      rw [wp_bind]
      refine quiet_wp soft_tidy (by trivial) (by trivial) (hw₇.taken (.own n))
        fun object w₈ hw₈ => ?_
      rw [wp_bind, wp_assign]
      exact keeps_open_launch (h.addNode fresh hw₈)
        (List.mem_append_right _ (List.mem_singleton_self _))
    · rintro _ _ w₅ ⟨rfl, hw₅⟩
      exact h.withTidy hw₅
  · intro e w₂ w₃ hw₂ _ hs _
    have hmem : w₃ ∈ w₂.next (.setNodeMetadata (.own n)) (.error e) := hs.1
    rw [List.mem_singleton.mp hmem]
    exact h.withTidy hw₂.1

/-! ### Giving the request back -/

/-- The clean-up never raises, and leaves nothing allocated. -/
theorem declinedHandlerCleanup_wp (h : Open s w) :
    declinedHandlerCleanup.wp Γ (fun _ s' w' => s'.done = true ∧ Settled w')
      (fun _ _ _ => False) s w := by
  rw [declinedHandlerCleanup, wp_bind]
  refine wp_mono (unlockNodeSet_cleared h.nodup h.tidy) ?_ fun _ _ _ h => h.elim
  rintro _ _ w₁ ⟨rfl, hw₁⟩
  have logged : ∀ {s' : Handler Unit} {w'}, Settled w' →
      (call (.log "Unable to modify missing request")).wp Γ
        (fun _ => (assign fun h => { h with done := true } : HandlerM Unit Unit).wp Γ
          (fun _ s' w' => s'.done = true ∧ Settled w') (fun _ _ _ => False))
        (fun _ _ _ => False) s' w' :=
    fun hw' => quiet_wp soft_settled (by trivial) (by trivial) hw' fun _ w₃ hw₃ => ⟨rfl, hw₃⟩
  rw [wp_bind, wp_assign, wp_bind, wp_tryCatch, wp_bind]
  refine storeNodeRequest_wp soft_tidy hw₁ (fun w hw _ o kept => hw.clear o kept.live) ?_ ?_
  · intro w₂ hw₂ _
    refine wp_mono (unlockNodeRequest_wp soft_tidy hw₂ h.requestLock) ?_ fun _ _ _ h => h.elim
    exact fun _ s₃ w₃ hw₃ => ⟨rfl, .inr hw₃.clear⟩
  · exact fun e w₂ hw₂ _ _ => logged (.inr hw₂.clear)

/-- A method after which the handler is done and settled, or still open. -/
abbrev Ends {α : Type} (m : HandlerM Unit α) (s : Handler Unit) (w : AllocationWorld) : Prop :=
  m.wp Γ (fun _ s' w' => Open s' w' ∨ s'.done = true ∧ Settled w') (fun _ s' w' => Open s' w') s w

theorem Ends.bind {α β : Type} {m : HandlerM Unit α} {k : α → HandlerM Unit β} (hm : Keeps Γ Open m)
    (h : Open s w) (hk : ∀ a s' w', Open s' w' → Ends (k a) s' w') : Ends (m >>= k) s w := by
  rw [Ends, wp_bind]
  exact wp_mono (hm _ _ h) hk fun _ _ _ h => h

theorem declinedHandlerCleanup_ends (h : Open s w) : Ends declinedHandlerCleanup s w :=
  wp_mono (declinedHandlerCleanup_wp h) (fun _ _ _ => .inr) fun _ _ _ h => h.elim

theorem addDeclinedBy_openPart (s : Handler Unit) : openPart s.addDeclinedBy = openPart s := by
  unfold Handler.addDeclinedBy
  split <;> rfl

theorem declineLocally_within : Within isQuiet openPart (declineLocally : HandlerM Unit Unit) :=
  .bind (.assign addDeclinedBy_openPart) fun _ => .bind (.perform trivial) fun _ =>
    .bind .self fun _ => .ite (.assign fun _ => rfl) (.assign fun _ => rfl)

theorem declineRequest_ends (h : Open s w) : Ends declineRequest s w :=
  .bind (keeps_open declineLocally_within) h fun _ _ _ h₁ => declinedHandlerCleanup_ends h₁

theorem atQuota_ends (h : Open s w) : Ends atQuota s w := by
  refine .bind .self h fun h₀ s₀ w₀ hopen => ?_
  split
  · exact declineRequest_ends hopen
  · refine .bind (keeps_open provider_within) hopen fun provider s₁ w₁ h₁ => ?_
    refine .bind (keeps_open pool_within) h₁ fun pool s₂ w₂ h₂ => ?_
    refine .bind (keeps_open_deleteOldestUnusedNode _ _) h₂ fun _ s₃ w₃ h₃ => ?_
    refine .bind (keeps_open (.perform trivial)) h₃ fun pauseAtQuota s₄ w₄ h₄ => ?_
    split
    · exact .inl (h₄.congr rfl)
    · exact declinedHandlerCleanup_ends h₄

theorem fillNodeSet_ends (readyNodes : Dict String (List NodeRef)) (types : List String)
    (h : Open s w) : Ends (fillNodeSet Driver.external readyNodes types) s w := by
  induction types generalizing s w with
  | nil => exact .inl h
  | cons ntype types ih =>
      refine .bind .self h fun h₀ s₀ w₀ hopen => ?_
      refine .bind (keeps_open_grabReadyNode ntype _) hopen fun got s₁ w₁ h₁ => ?_
      split
      · exact ih h₁
      · refine .bind (keeps_open (.perform trivial)) h₁ fun remaining s₂ w₂ h₂ => ?_
        split
        · exact .bind (keeps_open_launchNewNode ntype) h₂ fun _ s₃ w₃ h₃ => ih h₃
        · exact atQuota_ends h₂

theorem waitForNodeSet_ends (h : Open s w) : Ends (waitForNodeSet Driver.external) s w := by
  refine .bind .self h fun h₀ s₀ w₀ hopen => ?_
  dsimp only
  split
  · exact .bind (keeps_open (.perform trivial)) hopen fun _ s₁ w₁ h₁ => fillNodeSet_ends _ _ h₁
  · exact fillNodeSet_ends _ _ hopen

/-- The request is stored as PENDING. -/
theorem keeps_open_acceptRequest : Keeps Γ Open (acceptRequest : HandlerM Unit Unit) := by
  intro s w h
  rw [acceptRequest, wp_bind, wp_assign]
  have pending : Open (s.setState .pending) w := h.congr rfl
  refine storeNodeRequest_wp soft_tidy pending.tidy ?_ ?_ ?_
  · exact fun w _ given => by rcases given with h | h <;> cases h
  · exact fun w' hw' _ => pending.withTidy hw'
  · exact fun e w' hw' _ _ => pending.withTidy hw'

theorem keeps_open_of_shared {α : Type} {m : HandlerM Unit α} (hm : Within isQuiet shared m) :
    Keeps Γ Open m :=
  keeps_open (hm.map openPart)

theorem getDeclinedReasons_quiet : Within isQuiet shared (getDeclinedReasons Driver.external) :=
  getDeclinedReasons_of (fun _ => isQuiet_of_consults) (.perform (by trivial))
    fun _ => .perform (by trivial)

theorem runHandler_ends (h : Open s w) : Ends (runHandler Driver.external) s w := by
  have consults : ∀ c, Call.consults c → isQuiet c := fun _ => isQuiet_of_consults
  refine .bind (keeps_open_of_shared (setFromPoolWorker_within consults)) h fun _ s₁ w₁ h₁ => ?_
  refine .bind (keeps_open provider_within) h₁ fun _ s₂ w₂ h₂ => ?_
  refine .bind (keeps_open pool_within) h₂ fun _ s₃ w₃ h₃ => ?_
  refine .bind (keeps_open_of_shared getDeclinedReasons_quiet) h₃ fun reasons s₄ w₄ h₄ => ?_
  split
  · exact declineRequest_ends h₄
  · refine .bind .self h₄ fun h₀ s₅ w₅ h₅ => ?_
    refine .bind ?_ h₅ fun _ s₆ w₆ h₆ => waitForNodeSet_ends h₆
    exact .ite keeps_open_acceptRequest .pure

theorem run_ends (h : Open s w) : Ends (run Driver.external) s w := by
  rw [Ends, run, wp_tryCatch]
  refine wp_mono (runHandler_ends h) (fun _ _ _ h => h) fun _ s₁ w₁ h₁ => ?_
  exact Ends.bind (keeps_open (.perform trivial)) h₁ fun _ s₂ w₂ h₂ => declineRequest_ends h₂

end AllocationSystem

end Nodepool
