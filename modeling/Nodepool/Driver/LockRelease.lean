import Nodepool.Driver.HandlerFootprint
import Nodepool.Driver.HandlerSystem

/-!
The locks that a handler takes. Node locks are taken one by one and released by
walking the node set, so the invariant is that every locked node is in the node
set. It is broken by an exception between taking a lock and appending the node,
and a lock stays behind where releasing it fails or is never reached;
`LocksAreSafe` excludes exactly these steps.
-/

namespace Nodepool

open Effect Method NodeRequestHandler

namespace HandlerSystem

/-- A step after which no lock is left out of reach:
* releasing a node lock does not raise;
* the read that follows taking a node lock does not raise;
* storing a node that is locked and allocated does not raise;
* the clean-up of a declined request does not skip unlocking it. -/
def locksAreSafe (w : HandlerWorld) : Event handlerSystem → Bool
  | .call () (.releaseLock _) (.error _) => false
  | .call () (.updateNode _) (.error _) => false
  | .call () (.createNode o) (.error _) => !w.lock o || (w.allocatedTo o).isNone
  | .call () (.setNode o) (.error _) => !w.lock o || (w.allocatedTo o).isNone
  | .call () (.log message) _ => message ≠ "Unable to modify missing request"
  | _ => true

abbrev LocksAreSafe (w : HandlerWorld) (e : Event handlerSystem) : Prop := locksAreSafe w e = true

/-- The context of the handler in runs whose steps are safe. -/
abbrev Γ : Context LauncherSig HandlerWorld := context LocksAreSafe

/-! ### Assertions -/

/-- `f` says which node objects are locked. -/
structure Locks (f : NodeRef → Bool) (w : HandlerWorld) : Prop where
  lock : w.lock = f
  threadLock : w.threadLock = f

theorem Locks.env {f : NodeRef → Bool} {w w' : HandlerWorld} (h : Locks f w)
    (he : HandlerWorld.Env w w') : Locks f w' :=
  ⟨he.lock.trans h.lock, he.threadLock.trans h.threadLock⟩

theorem Locks.set {f : NodeRef → Bool} {w : HandlerWorld} {o : NodeRef} {b : Bool}
    (hl : w.lock = Function.update f o b) (ht : w.threadLock = f) :
    Locks (Function.update f o b) (w.setThreadLock o b) :=
  ⟨hl, by rw [HandlerWorld.setThreadLock_threadLock, ht]⟩

/-- The node object is marked as allocated, and nobody else can change that now. -/
structure Allocated (f : NodeRef → Bool) (o : NodeRef) (w : HandlerWorld) : Prop extends
    Locks f w where
  allocatedTo : w.allocatedTo o ≠ none
  kept : f o = true ∨ ∃ n, o = .own n

theorem Allocated.env {f : NodeRef → Bool} {o : NodeRef} {w w' : HandlerWorld}
    (h : Allocated f o w) (he : HandlerWorld.Env w w') : Allocated f o w' := by
  refine ⟨h.toLocks.env he, ?_, h.kept⟩
  rcases h.kept with hf | ⟨n, rfl⟩
  · rw [he.allocatedTo o (by rw [h.threadLock]; exact hf)]
    exact h.allocatedTo
  · rw [he.allocatedTo_own n]
    exact h.allocatedTo

/-! ### Calls -/

/-- Calls that neither take nor release a node lock. -/
def keepsLocks : Call → Prop
  | .acquireThreadLock _ | .releaseThreadLock _ | .assignNode _ (.lock _) => False
  | _ => True

/-- Calls that change neither node locks nor allocations. -/
def keepsNodes : Call → Prop
  | .acquireThreadLock _ | .releaseThreadLock _ | .assignNode _ (.lock _)
  | .assignNode _ (.allocatedTo _) | .newNode _ | .updateNode _ => False
  | _ => True

theorem keepsLocks_of_keepsNodes {c : Call} (h : keepsNodes c) : keepsLocks c := by
  cases c with
  | assignNode o a => cases a <;> trivial
  | _ => trivial

theorem keepsNodes_of_consults {c : Call} (h : c.consults) : keepsNodes c := by
  cases c <;> trivial

theorem keepsNodes_of_ofDriver {c : Call} (h : c.ofDriver) : keepsNodes c := by
  cases c <;> trivial

theorem next_keepsLocks {c : Call} (hc : keepsLocks c) {w : HandlerWorld}
    {r : LauncherSig.Reply c} :
    ∀ w' ∈ w.next c r, w'.lock = w.lock ∧ w'.threadLock = w.threadLock := by
  unfold HandlerWorld.next
  split
  all_goals first
    | exact hc.elim
    | split_ifs <;> simp
    | simp

/-- Calls that change no allocation. -/
def keepsAllocations : Call → Prop
  | .assignNode _ (.allocatedTo _) | .newNode _ | .updateNode _ => False
  | _ => True

theorem keepsAllocations_of_keepsNodes {c : Call} (h : keepsNodes c) : keepsAllocations c := by
  cases c with
  | assignNode o a => cases a <;> trivial
  | _ => trivial

theorem next_keepsAllocations {c : Call} (hc : keepsAllocations c) {w : HandlerWorld}
    {r : LauncherSig.Reply c} : ∀ w' ∈ w.next c r, w'.allocatedTo = w.allocatedTo := by
  unfold HandlerWorld.next
  split
  all_goals first
    | exact hc.elim
    | split_ifs <;> simp
    | simp

variable {f : NodeRef → Bool} {s : Handler Unit} {w : HandlerWorld}

theorem stable_locks : Stable Γ keepsLocks (Locks f) where
  rely h he _ := h.env he
  req _ _ _ := trivial
  step hc h _ hs _ :=
    have hkeep := next_keepsLocks hc _ hs.1
    ⟨hkeep.1.trans h.lock, hkeep.2.trans h.threadLock⟩

theorem stable_allocated {o : NodeRef} : Stable Γ keepsNodes (Allocated f o) where
  rely h he _ := h.env he
  req _ _ _ := trivial
  step {c r w w'} hc h hi hs hi' := by
    refine ⟨stable_locks.step (keepsLocks_of_keepsNodes hc) h.toLocks hi hs hi', ?_, h.kept⟩
    rw [next_keepsAllocations (keepsAllocations_of_keepsNodes hc) _ hs.1]
    exact h.allocatedTo

/-- Calls that always succeed: they touch only the memory of the launcher. -/
def isLocal : Call → Prop
  | .readNode _ | .assignNode _ _ | .time | .log _ => True
  | _ => False

theorem next_isLocal {c : Call} (hc : isLocal c) {w : HandlerWorld} {e : Err} :
    w.next c (.error e) = [] := by
  cases c with
  | assignNode o a => cases a <;> rfl
  | _ => first | rfl | exact hc.elim

/-- One local call that keeps an assertion. -/
theorem wp_local {P : Call → Prop} {B : HandlerWorld → Prop} (stable : Stable Γ P B) {c : Call}
    (hc : P c) (hl : isLocal c) (hB : B w) {Q : c.Val → Handler Unit → HandlerWorld → Prop}
    {E : Err → Handler Unit → HandlerWorld → Prop} (h : ∀ v w', B w' → Q v s w') :
    (call c).wp Γ Q E s w := by
  refine wp_call (P := B) stable.rely hB (fun _ hw hi => stable.req hc hw hi) ?_ ?_
  · exact fun v _ w' hw hi hs hi' => h v w' (stable.step hc hw hi hs hi')
  · intro e w₁ w₂ _ _ hs _
    have hmem : w₂ ∈ w₁.next c (.error e) := hs.1
    rw [next_isLocal hl] at hmem
    cases hmem

/-- Reading an object that the handler has locked shows the lock. -/
theorem readNode_wp (o : NodeRef) {B : HandlerWorld → Prop} (hB : B w)
    (env : ∀ {w w'}, B w → HandlerWorld.Env w w' → B w') (hlocks : ∀ w, B w → Locks f w)
    {Q : NodeObject → Handler Unit → HandlerWorld → Prop}
    {E : Err → Handler Unit → HandlerWorld → Prop}
    (h : ∀ object w', B w' → (f o = true → object.lock = true) → Q object s w') :
    (call (.readNode o)).wp Γ Q E s w := by
  refine wp_call (P := B) (fun hw he _ => env hw he) hB (fun _ _ _ => trivial) ?_ ?_
  · intro object w₁ w₂ hw₁ _ hs _
    have hmem : w₂ ∈ w₁.next (.readNode o) (.ok object) := hs.1
    rw [HandlerWorld.next_readNode_ok] at hmem
    split at hmem
    · rename_i hobject
      rw [List.mem_singleton] at hmem
      subst hmem
      refine h object w₂ hw₁ fun hf => ?_
      have hlock := hlocks w₂ hw₁
      rw [(hobject (by rw [hlock.threadLock]; exact hf)).1, hlock.lock]
      exact hf
    · cases hmem
  · exact fun _ _ _ _ _ hs _ => absurd hs.1 List.not_mem_nil

/-! ### Taking and releasing node locks -/

theorem update_release {o : NodeRef} (h : f o = false) :
    Function.update (Function.update f o true) o false = f := by
  rw [Function.update_idem, ← h, Function.update_eq_self]

/-- Between taking the thread lock and the ZooKeeper lock. -/
structure HalfLocked (f : NodeRef → Bool) (o : NodeRef) (w : HandlerWorld) : Prop where
  lock : w.lock = f
  threadLock : w.threadLock = Function.update f o true

theorem HalfLocked.env {o : NodeRef} {w w' : HandlerWorld} (h : HalfLocked f o w)
    (he : HandlerWorld.Env w w') : HalfLocked f o w' :=
  ⟨he.lock.trans h.lock, he.threadLock.trans h.threadLock⟩

theorem stable_halfLocked {o : NodeRef} : Stable Γ keepsLocks (HalfLocked f o) where
  rely h he _ := h.env he
  req _ _ _ := trivial
  step hc h _ hs _ :=
    have hkeep := next_keepsLocks hc _ hs.1
    ⟨hkeep.1.trans h.lock, hkeep.2.trans h.threadLock⟩

theorem acquireThreadLock_wp (o : NodeRef) (hw : Locks f w) :
    (call (.acquireThreadLock o)).wp Γ
      (fun b s' w' => s' = s ∧ if b then f o = false ∧ HalfLocked f o w' else Locks f w')
      (fun _ _ _ => False) s w := by
  refine wp_call (P := Locks f) stable_locks.rely hw (fun _ _ _ => trivial) ?_ ?_
  · intro b w₁ w₂ hw₁ _ hs _
    have hmem : w₂ ∈ w₁.next (.acquireThreadLock o) (.ok b) := hs.1
    rw [HandlerWorld.next_acquireThreadLock_ok] at hmem
    split at hmem
    · rename_i hb
      subst hb
      split at hmem
      · cases hmem
      · rename_i hfree
        rw [List.mem_singleton] at hmem
        subst hmem
        rw [hw₁.threadLock] at hfree
        refine ⟨rfl, by simpa using hfree, hw₁.lock, ?_⟩
        rw [HandlerWorld.setThreadLock_threadLock, hw₁.threadLock]
    · rename_i hb
      rw [List.mem_singleton] at hmem
      subst hmem
      refine ⟨rfl, ?_⟩
      rw [if_neg hb]
      exact hw₁
  · exact fun _ _ _ _ _ hs _ => absurd hs.1 List.not_mem_nil

/-- Releasing the thread lock again, when the ZooKeeper lock was not to be had. -/
theorem releaseThreadLock_half (o : NodeRef) (hf : f o = false) (hw : HalfLocked f o w) :
    (call (.releaseThreadLock o)).wp Γ (fun _ s' w' => s' = s ∧ Locks f w')
      (fun _ _ _ => False) s w := by
  refine wp_call (P := HalfLocked f o) stable_halfLocked.rely hw (fun _ _ _ => trivial) ?_ ?_
  · intro _ w₁ w₂ hw₁ _ hs _
    have hmem : w₂ ∈ w₁.next (.releaseThreadLock o) (.ok ()) := hs.1
    simp only [HandlerWorld.next, hw₁.threadLock, Function.update_self, if_true,
      List.mem_singleton] at hmem
    subst hmem
    refine ⟨rfl, hw₁.lock, ?_⟩
    rw [HandlerWorld.setThreadLock_threadLock, hw₁.threadLock, update_release hf]
  · intro e w₁ w₂ hw₁ _ hs _
    have hmem : w₂ ∈ w₁.next (.releaseThreadLock o) (.error e) := hs.1
    simp [HandlerWorld.next, hw₁.threadLock] at hmem

/-- The read that follows taking a lock does not raise. -/
theorem updateNode_wp (o : NodeRef) (hw : Locks f w) {Q : Node → Handler Unit → HandlerWorld → Prop}
    {E : Err → Handler Unit → HandlerWorld → Prop} (h : ∀ data w', Locks f w' → Q data s w') :
    (call (.updateNode o)).wp Γ Q E s w := by
  refine wp_call (P := Locks f) stable_locks.rely hw (fun _ _ _ => trivial) ?_ ?_
  · exact fun data _ w' hw₁ hi hs hi' => h data w' (stable_locks.step (by trivial) hw₁ hi hs hi')
  · intro _ _ _ _ _ hs _
    exact absurd hs.2 (by simp [locksAreSafe])

/-- A node lock is taken completely or not at all. -/
theorem lockNode_wp (o : NodeRef) (hw : Locks f w) :
    (ZooKeeper.lockNode o).wp Γ
      (fun _ s' w' => s' = s ∧ f o = false ∧ Locks (Function.update f o true) w')
      (fun _ s' w' => s' = s ∧ Locks f w') s w := by
  rw [ZooKeeper.lockNode, wp_bind]
  refine wp_mono (acquireThreadLock_wp o hw) ?_ fun _ _ _ h => h.elim
  rintro (_ | _) s₁ w₁ ⟨rfl, hw₁⟩
  · exact ⟨rfl, hw₁⟩
  obtain ⟨hf, hw₁⟩ := hw₁
  rw [wp_bind, raiseUnless, if_pos rfl, wp_pure, wp_bind, wp_tryCatch]
  -- giving up: the thread lock is released and the exception passed on
  have giveUp : ∀ (e : Err) w', HalfLocked f o w' →
      (do
        tryCatch (call (.releaseThreadLock o)) fun _ => call (.log "Unable to release thread lock")
        throw e : HandlerM Unit Unit).wp Γ
        (fun _ => (do
          let _ ← call (.updateNode o)
          pure () : HandlerM Unit Unit).wp Γ
            (fun _ s' w' => s' = s₁ ∧ f o = false ∧ Locks (Function.update f o true) w')
            (fun _ s' w' => s' = s₁ ∧ Locks f w'))
        (fun _ s' w' => s' = s₁ ∧ Locks f w') s₁ w' := by
    intro e w' hw'
    rw [wp_bind, wp_tryCatch]
    exact wp_mono (releaseThreadLock_half o hf hw') (fun _ _ _ h => h) fun _ _ _ h => h.elim
  have acquire : Within keepsLocks id (tryCatch (call (.acquireLock o)) fun e =>
      if e = .lockTimeout then throw .timeout
      else if e = .noNode then pure false
      else throw e : HandlerM Unit Bool) :=
    .tryCatch (.perform trivial) fun _ => .ite .throw (.ite .pure .throw)
  rw [wp_bind]
  refine wp_mono (acquire.wp stable_halfLocked hw₁) ?_ ?_
  · rintro (_ | _) s₂ w₂ ⟨hs₂, hw₂⟩
    · cases hs₂
      exact giveUp .zkLock w₂ hw₂
    · cases hs₂
      rw [wp_bind, raiseUnless, if_pos rfl, wp_pure]
      refine wp_call (P := HalfLocked f o) stable_halfLocked.rely hw₂ (fun _ _ _ => trivial) ?_ ?_
      · intro _ w₃ w₄ hw₃ _ hs _
        have hmem : w₄ ∈ [w₃.setLock o true] := hs.1
        rw [List.mem_singleton] at hmem
        subst hmem
        have hw₄ : Locks (Function.update f o true) (w₃.setLock o true) :=
          ⟨by rw [HandlerWorld.setLock_lock, hw₃.lock], hw₃.threadLock⟩
        rw [wp_bind]
        exact updateNode_wp o hw₄ fun _ w₅ hw₅ => ⟨rfl, hf, hw₅⟩
      · exact fun _ _ _ _ _ hs _ => absurd hs.1 List.not_mem_nil
  · rintro e s₂ w₂ ⟨hs₂, hw₂⟩
    cases hs₂
    exact giveUp e w₂ hw₂

/-- Between releasing the ZooKeeper lock and the thread lock. -/
structure HalfReleased (f : NodeRef → Bool) (o : NodeRef) (w : HandlerWorld) : Prop where
  lock : w.lock = Function.update f o false
  threadLock : w.threadLock = f

theorem releaseThreadLock_wp (o : NodeRef) (hw : HalfReleased f o w) :
    (call (.releaseThreadLock o)).wp Γ
      (fun _ s' w' => s' = s ∧ Locks (Function.update f o false) w')
      (fun _ s' w' => s' = s ∧ Locks (Function.update f o false) w') s w := by
  have env : ∀ {w w'}, HalfReleased f o w → HandlerWorld.Env w w' → HalfReleased f o w' :=
    fun h he => ⟨he.lock.trans h.lock, he.threadLock.trans h.threadLock⟩
  refine wp_call (P := HalfReleased f o) (fun h he _ => env h he) hw (fun _ _ _ => trivial) ?_ ?_
  · intro _ w₁ w₂ hw₁ _ hs _
    have hmem : w₂ ∈ w₁.next (.releaseThreadLock o) (.ok ()) := hs.1
    rw [HandlerWorld.next_releaseThreadLock_ok] at hmem
    split at hmem
    · rw [List.mem_singleton] at hmem
      subst hmem
      exact ⟨rfl, .set hw₁.lock hw₁.threadLock⟩
    · cases hmem
  · intro e w₁ w₂ hw₁ _ hs _
    have hmem : w₂ ∈ w₁.next (.releaseThreadLock o) (.error e) := hs.1
    rw [HandlerWorld.next_releaseThreadLock_error] at hmem
    split at hmem
    · cases hmem
    · rename_i hfree
      rw [List.mem_singleton] at hmem
      subst hmem
      rw [hw₁.threadLock, Bool.not_eq_true] at hfree
      refine ⟨rfl, hw₁.lock, ?_⟩
      rw [hw₁.threadLock, ← hfree, Function.update_eq_self]

/-- After unlocking a node it is not locked, whether it was locked or not. -/
theorem unlockNode_wp (o : NodeRef) (hw : Locks f w) :
    (ZooKeeper.unlockNode o).wp Γ
      (fun _ s' w' => s' = s ∧ Locks (Function.update f o false) w')
      (fun _ s' w' => s' = s ∧ Locks (Function.update f o false) w') s w := by
  rw [ZooKeeper.unlockNode, wp_bind]
  refine readNode_wp o hw Locks.env (fun _ h => h) ?_
  intro object w₁ hw₁ hobject
  rw [wp_bind, raiseUnless]
  split
  · rw [wp_pure, wp_bind]
    refine wp_call (P := Locks f) stable_locks.rely hw₁ (fun _ _ _ => trivial) ?_ ?_
    · intro _ w₂ w₃ hw₂ hi hs hi'
      have hw₃ : Locks f w₃ := stable_locks.step (by trivial) hw₂ hi hs hi'
      rw [wp_bind]
      refine wp_call (P := Locks f) stable_locks.rely hw₃ (fun _ _ _ => trivial) ?_ ?_
      · intro _ w₄ w₅ hw₄ _ hs _
        have hmem : w₅ ∈ [w₄.setLock o false] := hs.1
        rw [List.mem_singleton] at hmem
        subst hmem
        exact releaseThreadLock_wp o
          ⟨by rw [HandlerWorld.setLock_lock, hw₄.lock], hw₄.threadLock⟩
      · exact fun _ _ _ _ _ hs _ => absurd hs.1 List.not_mem_nil
    · exact fun _ _ _ _ _ hs _ => absurd hs.2 (by simp [locksAreSafe])
  · rename_i hlock
    have hf : f o = false := by
      by_contra hf
      exact hlock (hobject (by simpa using hf))
    exact ⟨rfl, by rwa [← hf, Function.update_eq_self]⟩

/-- Storing a node that has just been locked and allocated does not raise. -/
theorem storeNode_wp (o : NodeRef) (hf : f o = true) (hw : Allocated f o w) :
    (ZooKeeper.storeNode o).wp Γ (fun _ s' w' => s' = s ∧ Locks f w') (fun _ _ _ => False) s w := by
  have store : ∀ {c : Call} {w : HandlerWorld}, keepsNodes c → Allocated f o w →
      (∀ w' (e : Err), Allocated f o w' → locksAreSafe w' (.call () c (.error e)) = false) →
      ∀ {Q : c.Val → Handler Unit → HandlerWorld → Prop}
        {E : Err → Handler Unit → HandlerWorld → Prop},
      (∀ v w', Locks f w' → Q v s w') → (call c).wp Γ Q E s w := by
    intro c w hc hw hsafe Q E h
    refine wp_call (P := Allocated f o) stable_allocated.rely hw (fun _ _ _ => trivial) ?_ ?_
    · exact fun v _ w' hw₁ hi hs hi' => h v w' (stable_allocated.step hc hw₁ hi hs hi').toLocks
    · intro e w₁ _ hw₁ _ hs _
      exact absurd (hs.2.symm.trans (hsafe w₁ e hw₁)) (by simp)
  have hraise : ∀ w', Allocated f o w' → (!w'.lock o || (w'.allocatedTo o).isNone) = false := by
    intro w' hw'
    rw [hw'.lock, hf]
    simpa [Option.isSome_iff_ne_none] using hw'.allocatedTo
  rw [ZooKeeper.storeNode, wp_bind]
  refine readNode_wp (B := Allocated f o) o hw Allocated.env (fun _ h => h.toLocks) ?_
  intro object w₁ hw₁ _
  split
  · exact store (c := .createNode o) trivial hw₁ (fun w' _ => hraise w') fun _ _ h => ⟨rfl, h⟩
  · exact store (c := .setNode o) trivial hw₁ (fun w' _ => hraise w') fun _ _ h => ⟨rfl, h⟩

/-! ### The node set -/

/-- Every locked node is in the node set, and the handler is not done; its two
records of the request lock agree. -/
structure Open (s : Handler Unit) (w : HandlerWorld) : Prop where
  locks : ∃ f, Locks f w ∧ ∀ o, f o = true → o ∈ s.nodeset
  request : s.requestThreadLock = s.requestLock
  done : s.done = false

/-- Nothing is locked any more. -/
structure Closed (s : Handler Unit) (w : HandlerWorld) : Prop where
  locks : Locks (fun _ => false) w
  requestLock : s.requestLock = false
  requestThreadLock : s.requestThreadLock = false

/-- What `Open` looks at. -/
def lockPart (s : Handler Unit) : List NodeRef × Bool × Bool × Bool :=
  (s.nodeset, s.requestLock, s.requestThreadLock, s.done)

theorem Open.congr {s' : Handler Unit} (h : Open s w) (hs : lockPart s' = lockPart s) :
    Open s' w := by
  simp only [lockPart, Prod.mk.injEq] at hs
  obtain ⟨hn, hl, ht, hd⟩ := hs
  exact ⟨by rw [hn]; exact h.locks, by rw [hl, ht]; exact h.request, hd.trans h.done⟩

theorem Open.withLocks {w' : HandlerWorld} (h : Open s w) (hf : ∀ o, f o = true → o ∈ s.nodeset)
    (hw : Locks f w') : Open s w' :=
  ⟨⟨f, hw, hf⟩, h.request, h.done⟩

/-- A method that takes and releases nothing keeps the node set in charge. -/
theorem keeps_open {α : Type} {m : HandlerM Unit α} (hm : Within keepsLocks lockPart m) :
    Keeps Γ Open m := by
  intro s w h
  obtain ⟨f, hw, hf⟩ := h.locks
  have := hm.wp (s := s) stable_locks hw
  exact wp_mono this (fun _ _ _ h' => (h.withLocks hf h'.2).congr h'.1)
    fun _ _ _ h' => (h.withLocks hf h'.2).congr h'.1

theorem keepsLocks_of_consults {c : Call} (h : c.consults) : keepsLocks c :=
  keepsLocks_of_keepsNodes (keepsNodes_of_consults h)

theorem external_within' {γ : Type} {π : Handler Unit → γ} :
    Driver.external.Within keepsLocks π :=
  Driver.external_within fun _ h => keepsLocks_of_keepsNodes (keepsNodes_of_ofDriver h)

/-- Deleting an unused node unlocks it again. -/
theorem deleteUnusedNode_wp (o : NodeRef) (hw : Locks f w) :
    (ZooKeeper.deleteUnusedNode o).wp Γ (fun _ s' w' => s' = s ∧ Locks f w')
      (fun _ s' w' => s' = s ∧ Locks f w') s w := by
  rw [ZooKeeper.deleteUnusedNode, wp_bind, wp_attempt]
  refine wp_mono (lockNode_wp o hw) ?_ ?_
  · rintro _ s₁ w₁ ⟨rfl, hf, hw₁⟩
    have unlock : ∀ {w' : HandlerWorld} (b : Bool), Locks (Function.update f o true) w' →
        (do
          ZooKeeper.unlockNode o
          pure b : HandlerM Unit Bool).wp Γ (fun _ s' w' => s' = s₁ ∧ Locks f w')
          (fun _ s' w' => s' = s₁ ∧ Locks f w') s₁ w' := by
      intro w' b hw'
      have := unlockNode_wp (s := s₁) o hw'
      rw [update_release hf] at this
      rw [wp_bind]
      exact wp_mono this (fun _ _ _ h => h) fun _ _ _ h => h
    rw [wp_bind]
    refine wp_local stable_locks (by trivial) (by trivial) hw₁ fun object w₂ hw₂ => ?_
    split
    · exact unlock false hw₂
    · rw [wp_bind, wp_attempt]
      have store : Within keepsLocks id (do
          ZooKeeper.assignState o .deleting
          ZooKeeper.storeNode o : HandlerM Unit Unit) :=
        .bind (.bind (.perform trivial) fun _ => .perform trivial) fun _ =>
          .bind (.perform trivial) fun _ => .ite (.perform trivial) (.perform trivial)
      refine wp_mono (store.wp stable_locks hw₂) ?_ ?_
      · rintro _ s₃ w₃ ⟨hs₃, hw₃⟩
        cases hs₃
        exact unlock true hw₃
      · rintro _ s₃ w₃ ⟨hs₃, hw₃⟩
        cases hs₃
        simp only
        rw [wp_bind]
        exact wp_local stable_locks (by trivial) (by trivial) hw₃ fun _ _ hw₄ => unlock false hw₄
  · rintro e s₁ w₁ ⟨rfl, hw₁⟩
    cases e <;> exact ⟨rfl, hw₁⟩

theorem deleteFirstUnusedNode_wp (os : List NodeRef) (hw : Locks f w) :
    (ZooKeeper.deleteFirstUnusedNode os).wp Γ (fun _ s' w' => s' = s ∧ Locks f w')
      (fun _ s' w' => s' = s ∧ Locks f w') s w := by
  induction os generalizing w with
  | nil => exact ⟨rfl, hw⟩
  | cons o os ih =>
      rw [ZooKeeper.deleteFirstUnusedNode, wp_bind]
      refine wp_mono (deleteUnusedNode_wp o hw) ?_ fun _ _ _ h => h
      rintro deleted s₁ w₁ ⟨rfl, hw₁⟩
      split
      · exact ⟨rfl, hw₁⟩
      · exact ih hw₁

theorem keeps_open_deleteOldestUnusedNode (providerName poolName : String) :
    Keeps Γ Open (ZooKeeper.deleteOldestUnusedNode providerName poolName) := by
  refine .bind (keeps_open (.perform trivial)) fun nodes => .bind (keeps_open
    (ZooKeeper.unusedNodes_within (fun _ => trivial) trivial _ _ nodes)) fun candidates => ?_
  split
  · exact .pure
  · rename_i found
    intro s w h
    obtain ⟨f, hw, hf⟩ := h.locks
    refine wp_mono (deleteFirstUnusedNode_wp (s := s) _ hw) ?_ ?_
    · rintro _ s' w' ⟨rfl, hw'⟩
      exact h.withLocks hf hw'
    · rintro _ s' w' ⟨rfl, hw'⟩
      exact h.withLocks hf hw'

/-- One step of unlocking the node set. -/
theorem unlockNodeOfSet_wp (clear : Bool) (o : NodeRef) (hw : Locks f w) :
    (unlockNodeOfSet clear o).wp Γ
      (fun _ s' w' => s' = s ∧ Locks (Function.update f o false) w')
      (fun _ s' w' => s' = s ∧ Locks f w') s w := by
  rw [unlockNodeOfSet, wp_bind]
  refine readNode_wp o hw Locks.env (fun _ h => h) ?_
  intro object w₁ hw₁ hobject
  split
  · have hclear : Within keepsLocks id (when clear (clearNodeAllocation o) : HandlerM Unit Unit) :=
      when_within (.bind (.perform trivial) fun _ => .tryCatch (.bind (.perform trivial) fun _ =>
        .ite (.perform trivial) (.perform trivial)) fun _ => .perform trivial)
    rw [wp_bind]
    refine wp_mono (hclear.wp stable_locks hw₁) ?_ fun _ _ _ h => h
    rintro _ s₂ w₂ ⟨hs₂, hw₂⟩
    cases hs₂
    rw [wp_tryCatch]
    refine wp_mono (unlockNode_wp o hw₂) (fun _ _ _ h => h) ?_
    rintro _ s₃ w₃ ⟨rfl, hw₃⟩
    exact wp_local stable_locks (by trivial) (by trivial) hw₃ fun _ _ hw₄ => ⟨rfl, hw₄⟩
  · rename_i hlock
    have hf : f o = false := by
      by_contra hf
      exact hlock (hobject (by simpa using hf))
    exact ⟨rfl, by rwa [← hf, Function.update_eq_self]⟩

theorem forEach_unlock_wp (clear : Bool) (os : List NodeRef) (hw : Locks f w) :
    (forEach os (unlockNodeOfSet clear)).wp Γ
      (fun _ s' w' => s' = s ∧ ∃ g, Locks g w' ∧ ∀ o, g o = true → f o = true ∧ o ∉ os)
      (fun _ s' w' => s' = s ∧ ∃ g, Locks g w' ∧ ∀ o, g o = true → f o = true) s w := by
  induction os generalizing f w with
  | nil => exact ⟨rfl, f, hw, fun o ho => ⟨ho, by simp⟩⟩
  | cons o os ih =>
      have hsub : ∀ o', Function.update f o false o' = true → f o' = true ∧ o' ≠ o := by
        intro o' ho'
        by_cases ho : o' = o
        · subst ho
          simp at ho'
        · exact ⟨by simpa [ho] using ho', ho⟩
      rw [forEach, wp_bind]
      refine wp_mono (unlockNodeOfSet_wp clear o hw) ?_ ?_
      · rintro _ s₁ w₁ ⟨rfl, hw₁⟩
        refine wp_mono (ih hw₁) ?_ ?_
        · rintro _ s₂ w₂ ⟨rfl, g, hg, hsubg⟩
          refine ⟨rfl, g, hg, fun o' ho' => ?_⟩
          obtain ⟨hupd, hnot⟩ := hsubg o' ho'
          obtain ⟨hfo, hne⟩ := hsub o' hupd
          exact ⟨hfo, by simp [hne, hnot]⟩
        · rintro _ s₂ w₂ ⟨rfl, g, hg, hsubg⟩
          exact ⟨rfl, g, hg, fun o' ho' => (hsub o' (hsubg o' ho')).1⟩
      · rintro _ s₁ w₁ ⟨rfl, hw₁⟩
        exact ⟨rfl, f, hw₁, fun _ h => h⟩

/-- Unlocking the node set leaves no node locked. -/
theorem unlockNodeSet_wp (clear : Bool) (h : Open s w) :
    (unlockNodeSet clear).wp Γ
      (fun _ s' w' => s' = { s with nodeset := [] } ∧ Locks (fun _ => false) w')
      (fun _ s' w' => Open s' w') s w := by
  obtain ⟨f, hw, hf⟩ := h.locks
  rw [unlockNodeSet, wp_bind, wp_self, wp_bind]
  refine wp_mono (forEach_unlock_wp (s := s) clear s.nodeset hw) ?_ ?_
  · rintro _ s₁ w₁ ⟨rfl, g, hg, hsub⟩
    refine ⟨rfl, ?_⟩
    have hnone : g = fun _ => false := by
      funext o
      by_contra ho
      obtain ⟨hfo, hnot⟩ := hsub o (by simpa using ho)
      exact hnot (hf o hfo)
    exact hnone ▸ hg
  · rintro _ s₁ w₁ ⟨rfl, g, hg, hsub⟩
    exact h.withLocks (fun o ho => hf o (hsub o ho)) hg

/-! ### Taking nodes into the node set -/

/-- Appending the node that has been locked. -/
theorem Open.addNode {w' : HandlerWorld} (h : Open s w) (hf : ∀ o, f o = true → o ∈ s.nodeset)
    {o : NodeRef} {ntype : String} {id : Option NodeId}
    (hw : Locks (Function.update f o true) w') : Open (s.addNode o ntype id) w' := by
  refine ⟨⟨_, hw, fun o' ho' => ?_⟩, h.request, h.done⟩
  by_cases ho : o' = o
  · simp [Handler.addNode, ho]
  · simp only [Function.update_of_ne ho] at ho'
    simp [Handler.addNode, hf o' ho']

/-- Marking a locked node as allocated. -/
theorem assignAllocatedTo_wp {o : NodeRef} {r : String} (hf : f o = true) (hw : Locks f w)
    {Q : Unit → Handler Unit → HandlerWorld → Prop} {E : Err → Handler Unit → HandlerWorld → Prop}
    (h : ∀ w', Allocated f o w' → Q () s w') :
    (call (.assignNode o (.allocatedTo (some r)))).wp Γ Q E s w := by
  refine wp_call (P := Locks f) stable_locks.rely hw (fun _ _ _ => trivial) ?_ ?_
  · intro _ w₁ w₂ hw₁ hi hs hi'
    have hw₂ : Locks f w₂ := stable_locks.step (by trivial) hw₁ hi hs hi'
    have hmem : w₂ ∈ [w₁.setAllocatedTo o (some r)] := hs.1
    rw [List.mem_singleton] at hmem
    refine h w₂ ⟨hw₂, ?_, Or.inl hf⟩
    rw [hmem]
    simp
  · exact fun _ _ _ _ _ hs _ => absurd hs.1 List.not_mem_nil

theorem useReadyNode_wp (ntype : String) (o : NodeRef) (h : Open s w)
    (hf : ∀ o, f o = true → o ∈ s.nodeset) {w' : HandlerWorld}
    (hw : Locks (Function.update f o true) w') :
    (useReadyNode Driver.external ntype o).wp Γ (fun _ => Open) (fun _ => Open) s w' := by
  have ho : Function.update f o true o = true := Function.update_self ..
  rw [useReadyNode, wp_bind, wp_assign, wp_bind, wp_self, wp_bind]
  refine assignAllocatedTo_wp ho hw fun w₁ hw₁ => ?_
  rw [wp_bind]
  refine wp_local stable_allocated (by trivial) (by trivial) hw₁ fun _ w₂ hw₂ => ?_
  rw [wp_bind]
  refine wp_local stable_allocated (by trivial) (by trivial) hw₂ fun _ w₃ hw₃ => ?_
  rw [wp_bind]
  refine wp_mono (storeNode_wp o ho hw₃) ?_ fun _ _ _ h => h.elim
  rintro _ s₄ w₄ ⟨rfl, hw₄⟩
  rw [wp_bind]
  refine wp_local stable_locks (by trivial) (by trivial) hw₄ fun object w₅ hw₅ => ?_
  rw [wp_bind, wp_assign]
  have h₅ : Open { s with paused := false } w := h.congr rfl
  exact keeps_open (external_within'.nodeReusedNotification o) _ _ (h₅.addNode hf hw₅)

theorem keeps_open_tryReadyNode (ntype : String) (o : NodeRef) :
    Keeps Γ Open (tryReadyNode Driver.external ntype o) := by
  refine .bind (keeps_open provider_within) fun provider => .bind (keeps_open pool_within)
    fun pool => .bind (keeps_open (.perform trivial)) fun object => ?_
  refine .ite .pure (.ite .pure (.ite .pure ?_))
  refine .bind (keeps_open (external_within'.checkReusableNode o)) fun _ => .ite ?_ .pure
  intro s w h
  obtain ⟨f, hw, hf⟩ := h.locks
  rw [wp_bind, wp_attempt]
  refine wp_mono (lockNode_wp o hw) ?_ ?_
  · rintro _ s₁ w₁ ⟨rfl, hfo, hw₁⟩
    have unlock : ∀ {w' : HandlerWorld}, Locks (Function.update f o true) w' →
        (do
          ZooKeeper.unlockNode o
          pure false : HandlerM Unit Bool).wp Γ (fun _ => Open) (fun _ => Open) s₁ w' := by
      intro w' hw'
      have := unlockNode_wp (s := s₁) o hw'
      rw [update_release hfo] at this
      rw [wp_bind]
      refine wp_mono this ?_ ?_
      · rintro _ s₂ w₂ ⟨rfl, hw₂⟩
        exact h.withLocks hf hw₂
      · rintro _ s₂ w₂ ⟨rfl, hw₂⟩
        exact h.withLocks hf hw₂
    rw [wp_bind]
    refine wp_local stable_locks (by trivial) (by trivial) hw₁ fun object w₂ hw₂ => ?_
    split
    · exact unlock hw₂
    · split
      · exact unlock hw₂
      · rw [wp_bind]
        exact wp_mono (useReadyNode_wp ntype o h hf hw₂) (fun _ _ _ h => h) fun _ _ _ h => h
  · rintro e s₁ w₁ ⟨rfl, hw₁⟩
    cases e <;> exact h.withLocks hf hw₁

theorem keeps_open_grabReadyNode (ntype : String) (os : List NodeRef) :
    Keeps Γ Open (grabReadyNode Driver.external ntype os) := by
  induction os with
  | nil => exact .pure
  | cons o os ih => exact .bind (keeps_open_tryReadyNode ntype o) fun _ => .ite .pure ih

/-- A new node object is nobody else's, and nothing is locked with it. -/
theorem newNode_wp {node : Node} (hnode : node.allocatedTo ≠ none) (hw : Locks f w)
    {Q : NodeRef → Handler Unit → HandlerWorld → Prop}
    {E : Err → Handler Unit → HandlerWorld → Prop}
    (h : ∀ n w', Allocated f (.own n) w' → Q (.own n) s w') :
    (call (.newNode node)).wp Γ Q E s w := by
  refine wp_call (P := Locks f) stable_locks.rely hw (fun _ _ _ => trivial) ?_ ?_
  · intro o w₁ w₂ hw₁ hi hs hi'
    have hw₂ : Locks f w₂ := stable_locks.step (by trivial) hw₁ hi hs hi'
    have hmem : w₂ ∈ w₁.next (.newNode node) (.ok o) := hs.1
    cases o with
    | own n =>
        rw [HandlerWorld.next_newNode_own] at hmem
        split at hmem
        · cases hmem
        · rw [List.mem_singleton] at hmem
          refine h n w₂ ⟨hw₂, ?_, Or.inr ⟨n, rfl⟩⟩
          rw [hmem]
          simpa using hnode
    | cached id => cases hmem
  · exact fun _ _ _ _ _ hs _ => absurd hs.1 List.not_mem_nil

/-- Nobody else changes the allocation of a new node, also while it is being locked. -/
theorem stable_ownAllocated (n : Nat) :
    Stable Γ (Call.locksNode (.own n)) fun w => w.allocatedTo (.own n) ≠ none where
  rely h he _ := by rw [he.allocatedTo_own n]; exact h
  req _ _ _ := trivial
  step {c r w w'} hc h _ hs _ := by
    have hmem : w' ∈ w.next c r := hs.1
    suffices w'.allocatedTo = w.allocatedTo by rwa [this]
    by_cases hkeep : keepsAllocations c
    · exact next_keepsAllocations hkeep _ hmem
    · cases c with
      | updateNode o =>
          cases (show o = .own n from hc)
          cases r with
          | ok data =>
              rw [HandlerWorld.next_updateNode_own] at hmem
              split at hmem
              · rw [List.mem_singleton.mp hmem]
              · cases hmem
          | error e => rw [List.mem_singleton.mp hmem]
      | assignNode o a => cases a <;> first | exact hc.elim | exact absurd trivial hkeep
      | _ => first | exact hc.elim | exact absurd trivial hkeep

/-- Locking one's own node keeps its allocation. -/
theorem lockNode_own_wp (n : Nat) (hw : Allocated f (.own n) w) :
    (ZooKeeper.lockNode (.own n)).wp Γ
      (fun _ s' w' => s' = s ∧ f (.own n) = false ∧
        Allocated (Function.update f (.own n) true) (.own n) w')
      (fun _ s' w' => s' = s ∧ Locks f w') s w := by
  have hlock := lockNode_wp (s := s) (.own n) hw.toLocks
  have halloc := (ZooKeeper.lockNode_locksNode (σ := Handler Unit) (π := id) (.own n)).wp (s := s)
    (stable_ownAllocated n) hw.allocatedTo
  refine wp_mono (wp_and hlock halloc) ?_ fun _ _ _ h => h.1
  rintro _ s' w' ⟨⟨hs, hf, hlocks⟩, -, ha⟩
  exact ⟨hs, hf, hlocks, ha, Or.inr ⟨n, rfl⟩⟩

theorem keeps_open_launchNewNode (ntype : String) :
    Keeps Γ Open (launchNewNode Driver.external ntype) := by
  refine .bind (.assign fun _ _ h => h.congr rfl) fun _ => .bind (keeps_open provider_within)
    fun provider => .bind (keeps_open pool_within) fun pool =>
    .bind (keeps_open (.perform trivial)) fun now => ?_
  intro s w h
  obtain ⟨f, hw, hf⟩ := h.locks
  rw [wp_bind, wp_self, wp_bind]
  refine newNode_wp (by simp [newNode]) hw fun n w₁ hw₁ => ?_
  -- the node is stored while it is not locked, so an exception leaves nothing behind
  have before : Within keepsNodes lockPart (do
      Driver.external.setNodeMetadata (.own n)
      ZooKeeper.storeNode (.own n) : HandlerM Unit Unit) :=
    .bind ((Driver.external_within fun _ => keepsNodes_of_ofDriver).setNodeMetadata _) fun _ =>
      .bind (.perform trivial) fun _ => .ite (.perform trivial) (.perform trivial)
  have := before.wp (s := s) stable_allocated hw₁
  rw [wp_bind] at this ⊢
  have leave : ∀ {s' w'}, lockPart s' = lockPart s → Locks f w' → Open s' w' :=
    fun hs' hw' => (h.withLocks hf hw').congr hs'
  refine wp_mono this ?_ fun _ _ _ h₂ => leave h₂.1 h₂.2.toLocks
  intro _ s₂ w₂ h₂
  rw [wp_bind]
  refine wp_mono h₂ ?_ fun _ _ _ h₃ => leave h₃.1 h₃.2.toLocks
  rintro _ s₃ w₃ ⟨hs₃, hw₃⟩
  rw [wp_bind]
  refine wp_mono (lockNode_own_wp n hw₃) ?_ ?_
  · rintro _ s₄ w₄ ⟨rfl, hfo, hw₄⟩
    have ho : Function.update f (.own n) true (.own n) = true := Function.update_self ..
    rw [ZooKeeper.assignState, wp_bind, wp_bind]
    refine wp_local stable_allocated (by trivial) (by trivial) hw₄ fun now w₅ hw₅ => ?_
    refine wp_local stable_allocated (by trivial) (by trivial) hw₅ fun _ w₆ hw₆ => ?_
    rw [wp_bind]
    refine wp_mono (storeNode_wp _ ho hw₆) ?_ fun _ _ _ h => h.elim
    rintro _ s₇ w₇ ⟨rfl, hw₇⟩
    rw [wp_bind]
    refine wp_local stable_locks (by trivial) (by trivial) hw₇ fun object w₈ hw₈ => ?_
    rw [wp_bind, wp_assign]
    have h₈ : Open s₇ w := h.congr hs₃
    have hf₈ : ∀ o, f o = true → o ∈ s₇.nodeset := by
      rw [show s₇.nodeset = s.nodeset from congrArg Prod.fst hs₃]
      exact hf
    exact keeps_open (external_within'.launch _) _ _ (h₈.addNode hf₈ hw₈)
  · rintro _ s₄ w₄ ⟨rfl, hw₄⟩
    exact leave hs₃ hw₄

/-! ### Giving everything back -/

theorem within_storeNodeRequest {γ : Type} {π : Handler Unit → γ} :
    Within keepsLocks π (storeNodeRequest : HandlerM Unit Unit) :=
  .bind .self fun _ => .bind (ZooKeeper.getNodeRequest_within trivial) fun _ =>
    .ite .throw (.perform trivial)

/-- Unlocking the request, with no node locked, closes the handler; if that fails,
the request is still recorded as locked. -/
theorem unlockNodeRequest_wp' (h : Open s w) (hw : Locks (fun _ => false) w) :
    unlockNodeRequest.wp Γ (fun _ s' w' => Closed s' w')
      (fun e s' w' => Open s' w' ∧ (e = .zkLock → Closed s' w')) s w := by
  rw [unlockNodeRequest, wp_bind, wp_self, wp_bind, raiseUnless]
  split
  · rw [wp_pure, wp_bind]
    refine wp_call (P := Locks fun _ => false) stable_locks.rely hw (fun _ _ _ => trivial) ?_ ?_
    · intro _ w₁ w₂ hw₁ hi hs hi'
      rw [wp_bind]
      exact ⟨stable_locks.step (by trivial) hw₁ hi hs hi', rfl, rfl⟩
    · intro e w₁ w₂ hw₁ hi hs hi'
      have hw₂ : Locks (fun _ => false) w₂ := stable_locks.step (by trivial) hw₁ hi hs hi'
      refine ⟨h.withLocks (by simp) hw₂, fun he => ?_⟩
      subst he
      exact absurd hs.1 List.not_mem_nil
  · rename_i hlock
    rw [Bool.not_eq_true] at hlock
    exact ⟨h, fun _ => ⟨hw, hlock, h.request.trans hlock⟩⟩

/-- The clean-up closes the handler, in runs where it does not skip the unlocking. -/
theorem declinedHandlerCleanup_wp' (h : Open s w) :
    declinedHandlerCleanup.wp Γ (fun _ s' w' => s'.done = true ∧ Closed s' w')
      (fun _ s' w' => Open s' w') s w := by
  rw [declinedHandlerCleanup, wp_bind]
  refine wp_mono (unlockNodeSet_wp true h) ?_ fun _ _ _ h => h
  rintro _ s₁ w₁ ⟨rfl, hw₁⟩
  have skipped : ∀ {s' : Handler Unit} {w' : HandlerWorld} {Q E}, Open s' w' →
      (call (.log "Unable to modify missing request")).wp Γ Q E s' w' := by
    intro s' w' Q E h'
    refine wp_call (P := fun _ => True) (fun _ _ _ => trivial) trivial (fun _ _ _ => trivial) ?_ ?_
    · exact fun _ _ _ _ _ hs _ => absurd hs.2 (by simp [locksAreSafe])
    · exact fun _ _ _ _ _ hs _ => absurd hs.1 List.not_mem_nil
  have h₁ : Open { s with nodeset := [], paused := false } w₁ :=
    ⟨⟨_, hw₁, by simp⟩, h.request, h.done⟩
  rw [wp_bind, wp_assign, wp_bind, wp_tryCatch, wp_bind]
  refine wp_mono (Within.wp (π := id) within_storeNodeRequest stable_locks hw₁) ?_ ?_
  · rintro _ s₂ w₂ ⟨hs₂, hw₂⟩
    cases hs₂
    refine wp_mono (unlockNodeRequest_wp' (h₁.withLocks (by simp) hw₂) hw₂) ?_ ?_
    · exact fun _ s₃ w₃ h₃ => ⟨rfl, h₃.locks, h₃.requestLock, h₃.requestThreadLock⟩
    · exact fun _ _ _ h₃ => skipped h₃.1
  · rintro _ s₂ w₂ ⟨hs₂, hw₂⟩
    cases hs₂
    exact skipped (h₁.withLocks (by simp) hw₂)

/-! ### Running -/

/-- A method after which the handler is closed if it is done, and otherwise open. -/
abbrev Ends {α : Type} (m : HandlerM Unit α) (s : Handler Unit) (w : HandlerWorld) : Prop :=
  m.wp Γ (fun _ s' w' => Open s' w' ∨ s'.done = true ∧ Closed s' w') (fun _ s' w' => Open s' w') s w

theorem keeps_open_declineLocally : Keeps Γ Open (declineLocally : HandlerM Unit Unit) := by
  refine keeps_open (.bind (.assign fun s => ?_) fun _ => .bind (.perform trivial) fun _ =>
    .bind .self fun _ => .ite (.assign fun _ => rfl) (.assign fun _ => rfl))
  unfold Handler.addDeclinedBy
  split <;> rfl

theorem declineRequest_ends (h : Open s w) : Ends declineRequest s w := by
  rw [Ends, declineRequest, wp_bind]
  refine wp_mono (keeps_open_declineLocally _ _ h) ?_ fun _ _ _ h => h
  exact fun _ s₁ w₁ h₁ => wp_mono (declinedHandlerCleanup_wp' h₁) (fun _ _ _ => Or.inr)
    fun _ _ _ h => h

theorem Ends.bind {α β : Type} {m : HandlerM Unit α} {k : α → HandlerM Unit β} (hm : Keeps Γ Open m)
    (h : Open s w) (hk : ∀ a s' w', Open s' w' → Ends (k a) s' w') : Ends (m >>= k) s w := by
  rw [Ends, wp_bind]
  exact wp_mono (hm _ _ h) hk fun _ _ _ h => h

theorem atQuota_ends (h : Open s w) : Ends atQuota s w := by
  refine .bind .self h fun h₀ s₀ w₀ hopen => ?_
  split
  · exact declineRequest_ends hopen
  · refine .bind (keeps_open provider_within) hopen fun provider s₁ w₁ h₁ => ?_
    refine .bind (keeps_open pool_within) h₁ fun pool s₂ w₂ h₂ => ?_
    refine .bind (keeps_open_deleteOldestUnusedNode _ _) h₂ fun _ s₃ w₃ h₃ => ?_
    refine .bind (keeps_open (.perform trivial)) h₃ fun pauseAtQuota s₄ w₄ h₄ => ?_
    split
    · exact Or.inl (h₄.congr rfl)
    · exact wp_mono (declinedHandlerCleanup_wp' h₄) (fun _ _ _ => Or.inr) fun _ _ _ h => h

theorem fillNodeSet_ends (readyNodes : Dict String (List NodeRef)) (types : List String)
    (h : Open s w) : Ends (fillNodeSet Driver.external readyNodes types) s w := by
  induction types generalizing s w with
  | nil => exact Or.inl h
  | cons ntype types ih =>
      refine .bind .self h fun h₀ s₀ w₀ hopen => ?_
      refine .bind (keeps_open_grabReadyNode ntype _) hopen fun got s₁ w₁ h₁ => ?_
      split
      · exact ih h₁
      · refine .bind (keeps_open (external_within'.hasRemainingQuota ntype)) h₁
          fun remaining s₂ w₂ h₂ => ?_
        split
        · exact .bind (keeps_open_launchNewNode ntype) h₂ fun _ s₃ w₃ h₃ => ih h₃
        · exact atQuota_ends h₂

theorem waitForNodeSet_ends (h : Open s w) : Ends (waitForNodeSet Driver.external) s w := by
  refine .bind .self h fun h₀ s₀ w₀ hopen => ?_
  simp only
  split
  · exact .bind (keeps_open (.perform trivial)) hopen fun _ s₁ w₁ h₁ => fillNodeSet_ends _ _ h₁
  · exact fillNodeSet_ends _ _ hopen

theorem keeps_open_of_shared {α : Type} {m : HandlerM Unit α} (hm : Within keepsLocks shared m) :
    Keeps Γ Open m :=
  keeps_open (hm.map lockPart)

theorem runHandler_ends (h : Open s w) : Ends (runHandler Driver.external) s w := by
  have consults : ∀ c, Call.consults c → keepsLocks c := fun _ => keepsLocks_of_consults
  refine .bind (keeps_open_of_shared (setFromPoolWorker_within consults)) h fun _ s₁ w₁ h₁ => ?_
  refine .bind (keeps_open provider_within) h₁ fun _ s₂ w₂ h₂ => ?_
  refine .bind (keeps_open pool_within) h₂ fun _ s₃ w₃ h₃ => ?_
  refine .bind (keeps_open_of_shared (getDeclinedReasons_within consults external_within')) h₃
    fun reasons s₄ w₄ h₄ => ?_
  split
  · exact declineRequest_ends h₄
  · refine .bind .self h₄ fun h₀ s₅ w₅ h₅ => ?_
    have haccept : Within keepsLocks lockPart (acceptRequest : HandlerM Unit Unit) :=
      .bind (.assign fun _ => rfl) fun _ => within_storeNodeRequest
    exact .bind (keeps_open (when_within haccept)) h₅ fun _ s₆ w₆ h₆ => waitForNodeSet_ends h₆

theorem run_ends (h : Open s w) :
    (run Driver.external).wp Γ (fun _ s' w' => Open s' w' ∨ s'.done = true ∧ Closed s' w')
      (fun _ s' w' => Open s' w') s w := by
  rw [run, wp_tryCatch]
  refine wp_mono (runHandler_ends h) (fun _ _ _ h => h) fun _ s₁ w₁ h₁ => ?_
  exact Ends.bind (keeps_open (.perform trivial)) h₁ fun _ s₂ w₂ h₂ => declineRequest_ends h₂

/-! ### Polling -/

theorem keeps_open_classifyNode (o : NodeRef) : Keeps Γ Open (classifyNode o) := by
  refine .bind (keeps_open (.perform trivial)) fun object => .ite ?_ (.ite ?_ ?_)
  · exact .bind (.assign fun _ _ h => h.congr rfl) fun _ => .pure
  · -- the node leaves the node set before it is unlocked
    intro s w h
    obtain ⟨f, hw, hf⟩ := h.locks
    have hrest : ∀ o', Function.update f o false o' = true → o' ∈ s.nodeset.erase o := by
      intro o' ho'
      by_cases ho : o' = o
      · subst ho
        simp at ho'
      · rw [Function.update_of_ne ho] at ho'
        exact (List.mem_erase_of_ne ho).mpr (hf o' ho')
    have leave : ∀ {w' : HandlerWorld}, Locks (Function.update f o false) w' →
        Open { s with nodeset := s.nodeset.erase o } w' :=
      fun hw' => ⟨⟨_, hw', hrest⟩, h.request, h.done⟩
    rw [wp_bind, wp_assign, wp_bind]
    refine wp_mono (unlockNode_wp o hw) ?_ ?_
    · rintro _ s₁ w₁ ⟨rfl, hw₁⟩
      exact leave hw₁
    · rintro _ s₁ w₁ ⟨rfl, hw₁⟩
      exact leave hw₁
  · exact .bind (.assign fun _ _ h => h.congr rfl) fun _ => .pure

theorem keeps_open_classifyNodes (os : List NodeRef) : Keeps Γ Open (classifyNodes os) := by
  induction os with
  | nil => exact .pure
  | cons o os ih => exact .bind (keeps_open_classifyNode o) fun _ => .bind ih fun _ => .pure

theorem keeps_open_fulfil : Keeps Γ Open (fulfil : HandlerM Unit Unit) := by
  have hassign : ∀ t, Within keepsLocks lockPart (assignNodeToType t : HandlerM Unit Unit) := by
    intro t
    refine .bind .self fun h => ?_
    split
    · exact .throw
    · exact .assign fun _ => rfl
  exact keeps_open (.bind .self fun _ => .bind (.forEach hassign _) fun _ => .assign fun _ => rfl)

/-- What `poll` guarantees: true means closed, anything else open. -/
abbrev Polls (m : HandlerM Unit Bool) (s : Handler Unit) (w : HandlerWorld) : Prop :=
  m.wp Γ (fun b s' w' => if b then Closed s' w' else Open s' w') (fun _ s' w' => Open s' w') s w

theorem Polls.bind {α : Type} {m : HandlerM Unit α} {k : α → HandlerM Unit Bool}
    (hm : Keeps Γ Open m) (h : Open s w) (hk : ∀ a s' w', Open s' w' → Polls (k a) s' w') :
    Polls (m >>= k) s w := by
  rw [Polls, wp_bind]
  exact wp_mono (hm _ _ h) hk fun _ _ _ h => h

theorem finishPoll_polls (h : Open s w) : Polls finishPoll s w := by
  rw [Polls, finishPoll, wp_bind]
  refine wp_mono (unlockNodeSet_wp false h) ?_ fun _ _ _ h => h
  rintro _ s₁ w₁ ⟨rfl, hw₁⟩
  have h₁ : Open { s with nodeset := [] } w₁ := ⟨⟨_, hw₁, by simp⟩, h.request, h.done⟩
  rw [wp_bind]
  refine wp_mono (Within.wp (π := id) within_storeNodeRequest stable_locks hw₁) ?_ ?_
  · rintro _ s₂ w₂ ⟨hs₂, hw₂⟩
    cases hs₂
    rw [wp_bind]
    exact wp_mono (unlockNodeRequest_wp' (h₁.withLocks (by simp) hw₂) hw₂) (fun _ _ _ h => h)
      fun _ _ _ h => h.1
  · rintro _ s₂ w₂ ⟨hs₂, hw₂⟩
    cases hs₂
    exact h₁.withLocks (by simp) hw₂

theorem requestDisappeared_closed (h : Open s w) :
    requestDisappeared.wp Γ (fun _ s' w' => Closed s' w') (fun _ s' w' => Open s' w') s w := by
  rw [requestDisappeared, wp_bind]
  refine wp_mono (unlockNodeSet_wp true h) ?_ fun _ _ _ h => h
  rintro _ s₁ w₁ ⟨rfl, hw₁⟩
  have h₁ : Open { s with nodeset := [] } w₁ := ⟨⟨_, hw₁, by simp⟩, h.request, h.done⟩
  rw [wp_tryCatch]
  refine wp_mono (unlockNodeRequest_wp' h₁ hw₁) (fun _ _ _ h => h) ?_
  rintro e s₂ w₂ ⟨h₂, hclosed⟩
  split
  · exact hclosed ‹_›
  · exact h₂

theorem pollComplete_polls (h : Open s w) : Polls pollComplete s w := by
  refine .bind .self h fun h₀ s₀ w₀ hopen => ?_
  refine .bind (keeps_open_classifyNodes _) hopen fun aborted s₁ w₁ h₁ => ?_
  refine .bind (keeps_open (ZooKeeper.getNodeRequest_within trivial)) h₁ fun stored s₂ w₂ h₂ => ?_
  split
  · rw [Polls, wp_bind]
    exact wp_mono (requestDisappeared_closed h₂) (fun _ _ _ h => h) fun _ _ _ h => h
  · refine .bind .self h₂ fun h₀ s₃ w₃ h₃ => ?_
    split
    · exact .bind keeps_open_declineLocally h₃ fun _ s₄ w₄ h₄ => finishPoll_polls h₄
    · split
      · have hremove : ∀ o, Keeps Γ Open (removeAborted o : HandlerM Unit Unit) := fun o =>
          keeps_open (.bind (.perform trivial) fun _ => .assign fun _ => rfl)
        refine .bind (.forEach hremove _) h₃ fun _ s₄ w₄ h₄ => ?_
        exact h₄.congr rfl
      · exact .bind keeps_open_fulfil h₃ fun _ s₄ w₄ h₄ => finishPoll_polls h₄

theorem poll_polls (h : Open s w) : Polls (poll Driver.external) s w := by
  rw [Polls, poll, wp_bind, wp_self]
  split
  · exact h
  · rw [if_neg (by simp [h.done])]
    refine Polls.bind (keeps_open external_within'.launchesComplete) h fun complete s₁ w₁ h₁ => ?_
    split
    · exact pollComplete_polls h₁
    · exact h₁

/-! ### Runs -/

/-- What holds of the handler between two calls: open until it is finished. -/
def LocksInOrder (t : HandlerThread) (w : HandlerWorld) : Prop :=
  if t.finished then Closed t.handler w else Open t.handler w

theorem Closed.env {w' : HandlerWorld} (h : Closed s w) (he : HandlerWorld.Env w w') :
    Closed s w' :=
  ⟨h.locks.env he, h.requestLock, h.requestThreadLock⟩

theorem Open.env {w' : HandlerWorld} (h : Open s w) (he : HandlerWorld.Env w w') : Open s w' := by
  obtain ⟨f, hw, hf⟩ := h.locks
  exact h.withLocks hf (hw.env he)

theorem LocksInOrder.env {t : HandlerThread} {w' : HandlerWorld} (h : LocksInOrder t w)
    (he : HandlerWorld.Env w w') : LocksInOrder t w' := by
  unfold LocksInOrder at h ⊢
  split
  · rename_i ht
    rw [if_pos ht] at h
    exact h.env he
  · rename_i ht
    rw [if_neg ht] at h
    exact h.env he

/-- How a call ends decides whether the handler is finished. -/
theorem locksInOrder_finish (returned : Bool)
    (h : if returned then Closed s w else Open s w ∨ s.done = true ∧ Closed s w) :
    LocksInOrder (HandlerOp.finish false returned s) w := by
  unfold LocksInOrder HandlerOp.finish
  cases returned with
  | true => simpa using h
  | false =>
      rcases h with hopen | ⟨hdone, hclosed⟩
      · simpa [hopen.done] using hopen
      · simpa [hdone] using hclosed

theorem body_locksInOrder (op : HandlerOp) {t : HandlerThread}
    (enabled : handlerSystem.enabled () op t w = true) (h : LocksInOrder t w) :
    (op.body t).wp Γ LocksInOrder w := by
  cases hfinished : t.finished with
  | true =>
      -- only polling once more is left, and it does nothing
      have hpoll : op = .poll ∧ t.handler.done = true := by simpa [hfinished] using enabled
      obtain ⟨rfl, hdone⟩ := hpoll
      have hclosed : Closed t.handler w := by simpa [LocksInOrder, hfinished] using h
      refine Prog.wp_bind.mpr (Prog.wp_mono (poll_done (E := fun _ _ _ => False)
        (Q := fun _ s' w' => Closed s' w') hdone fun _ => hclosed) ?_)
      rintro ⟨_ | _, s'⟩ w' h'
      · exact h'.elim
      · change LocksInOrder _ w'
        simpa [LocksInOrder, HandlerOp.finish, hfinished] using h'
  | false =>
      have hopen : Open t.handler w := by simpa [LocksInOrder, hfinished] using h
      cases op with
      | run =>
          refine Prog.wp_bind.mpr (Prog.wp_mono (run_ends hopen) ?_)
          rintro ⟨_ | _, s'⟩ w' h'
          · exact hfinished ▸ locksInOrder_finish false (Or.inl h')
          · exact hfinished ▸ locksInOrder_finish false h'
      | declineRequest =>
          refine Prog.wp_bind.mpr (Prog.wp_mono (declineRequest_ends hopen) ?_)
          rintro ⟨_ | _, s'⟩ w' h'
          · exact hfinished ▸ locksInOrder_finish false (Or.inl h')
          · exact hfinished ▸ locksInOrder_finish false h'
      | poll =>
          refine Prog.wp_bind.mpr (Prog.wp_mono (poll_polls hopen) ?_)
          rintro ⟨_ | b, s'⟩ w' h'
          · exact hfinished ▸ locksInOrder_finish false (Or.inl h')
          · refine hfinished ▸ locksInOrder_finish b ?_
            cases b with
            | true => exact h'
            | false => exact Or.inl h'

/-- The proof outline: between two calls the locks are in order. -/
def lockRelease : Outline handlerSystem LocksAreSafe :=
  outline LocksInOrder LocksInOrder.env fun op _ _ enabled h => body_locksInOrder op enabled h

/-- **No locks leaked.** In every run whose steps leave no lock out of reach, a
finished handler has released every node lock that it took, and its request. -/
theorem locks_released {init cfg : Config handlerSystem} (hinit : Initial init)
    (run : handlerSystem.Run LocksAreSafe init cfg) {t : HandlerThread}
    (idle : cfg.thread () = .pure t) (finished : t.finished = true) :
    (∀ o, cfg.world.lock o = false ∧ cfg.world.threadLock o = false) ∧
      t.handler.requestLock = false ∧ t.handler.requestThreadLock = false := by
  have hsafe : lockRelease.Safe init := by
    obtain ⟨launcherId, request, hthread⟩ := hinit.thread
    refine .of_idle trivial fun _ => ⟨_, hthread, ?_⟩
    exact ⟨⟨fun _ => false, ⟨funext hinit.lock, funext hinit.threadLock⟩, by simp⟩, rfl, rfl⟩
  have horder : LocksInOrder t cfg.world := (lockRelease.sound hsafe run).idle idle
  have hclosed : Closed t.handler cfg.world := by simpa [LocksInOrder, finished] using horder
  exact ⟨fun o => ⟨congrFun hclosed.locks.lock o, congrFun hclosed.locks.threadLock o⟩,
    hclosed.requestLock, hclosed.requestThreadLock⟩

/-- The request may reuse a node, and the cache shows one. -/
def reuseInit : Config handlerSystem where
  world := { exampleInit.world with request := some { exampleRequest with reuse := true } }
  thread _ := .pure ⟨.init "launcher" { exampleRequest with reuse := true } (), false⟩

def readyNode : Node where
  state := .ready
  stateTime := 0
  type := ["label"]
  provider := some "provider"
  pool := some "pool"
  launcher := none
  allocatedTo := none
  tenantName := none
  requestor := none
  resources := none
  externalId := none

/-- Everything works. -/
def fulfilAnswer (w : HandlerWorld) : (c : Call) → LauncherSig.Reply c
  | .getRequest _ => match w.request with
      | some r => .ok r
      | none => .error .noNode
  | .getReadyNodesOfTypes _ => .ok (Dict.ofPairs [("label", [.cached 1])])
  | .readNode o => .ok
      ⟨some 1, { readyNode with allocatedTo := w.allocatedTo o }, false, w.lock o, w.threadLock o⟩
  | .updateNode o => .ok { readyNode with allocatedTo := w.allocatedTo o }
  | .checkReusableNode _ | .acquireThreadLock _ | .acquireLock _ | .launchesComplete => .ok true
  | .assignNode _ _ | .setNode _ | .nodeReusedNotification _ | .releaseLock _
  | .releaseThreadLock _ => .ok ()
  | c => exampleAnswer 1 .requested c

/-- The node is locked and becomes the node set of the request. -/
def acceptSchedule : List (System.Action handlerSystem) :=
  .start () .run :: List.replicate 22 (.respond () fulfilAnswer 0)

/-- The request is fulfilled. -/
def fulfilSchedule : List (System.Action handlerSystem) :=
  .start () .poll :: List.replicate 11 (.respond () fulfilAnswer 0)

theorem reuseInit_initial : Initial reuseInit := ⟨⟨_, _, rfl⟩, rfl, fun _ => rfl, fun _ => rfl⟩

/-- The handler has the lock of a node when it has accepted the request, and none when the
request is fulfilled. -/
theorem locks_released_fulfilSchedule : ∃ mid cfg t,
    handlerSystem.Run LocksAreSafe reuseInit mid ∧ mid.world.lock (.cached 1) = true ∧
      handlerSystem.Run LocksAreSafe mid cfg ∧ cfg.thread () = .pure t ∧ t.finished = true ∧
      (∀ o, cfg.world.lock o = false ∧ cfg.world.threadLock o = false) ∧
      t.handler.requestLock = false ∧ t.handler.requestThreadLock = false := by
  have replay : ((System.exec locksAreSafe reuseInit acceptSchedule).any fun mid =>
      mid.world.lock (.cached 1) && (System.exec locksAreSafe mid fulfilSchedule).any fun cfg =>
        cfg.idle () HandlerThread.finished) = true := by
    decide +kernel
  obtain ⟨mid, before, replay⟩ := System.exists_run_of_exec LocksAreSafe (fun _ _ h => h) replay
  obtain ⟨locked, replay⟩ := Bool.and_eq_true_iff.mp replay
  obtain ⟨cfg, after, idle⟩ := System.exists_run_of_exec LocksAreSafe (fun _ _ h => h) replay
  obtain ⟨t, idle, finished⟩ := Config.idle_iff.mp idle
  exact ⟨mid, cfg, t, before, locked, after, idle, finished,
    locks_released reuseInit_initial (before.trans after) idle finished⟩

/-! ### A node that is deleted while it is being locked -/

def reuseAnswer (stored : NodeRequest) : (c : Call) → LauncherSig.Reply c
  | .getRequest _ => .ok stored
  | .getReadyNodesOfTypes _ => .ok (Dict.ofPairs [("label", [.cached 1])])
  | .readNode _ => .ok ⟨some 1, readyNode, false, false, false⟩
  | .checkReusableNode _ => .ok true
  | .acquireThreadLock _ | .acquireLock _ => .ok true
  | .assignNode _ _ => .ok ()
  -- the record is gone when the handler reads it with the lock held
  | .updateNode _ => .error .noNode
  | c => exampleAnswer 1 stored.state c

/-- The request is accepted, the node is locked, reading it raises, and the request
is declined. -/
def reuseSchedule : List (System.Action handlerSystem) :=
  .start () .run ::
    List.replicate 7 (.reply () (reuseAnswer { exampleRequest with reuse := true }) 0) ++
    List.replicate 12
      (.reply () (reuseAnswer { exampleRequest with reuse := true, state := .pending }) 0)

theorem not_forall_locks_released : ¬ ∀ (init cfg : Config handlerSystem), Initial init →
    handlerSystem.Run handlerSystem.always init cfg → ∀ t, cfg.thread () = .pure t →
    t.finished = true →
    (∀ o, cfg.world.lock o = false ∧ cfg.world.threadLock o = false) ∧
      t.handler.requestLock = false ∧ t.handler.requestThreadLock = false := by
  intro h
  have hexec : ∃ cfg t, System.exec (fun _ _ => true) reuseInit reuseSchedule = some cfg ∧
      cfg.thread () = .pure t ∧ t.finished = true ∧ cfg.world.lock (.cached 1) = true :=
    ⟨_, _, rfl, rfl, rfl, rfl⟩
  obtain ⟨cfg, t, hcfg, idle, finished, hlocked⟩ := hexec
  have run := System.exec_run handlerSystem.always (fun _ _ _ => trivial) hcfg
  have := ((h _ cfg reuseInit_initial run t idle finished).1 (.cached 1)).1
  simp [hlocked] at this

end HandlerSystem

end Nodepool
