import Nodepool.Driver.HandlerFootprint
import Nodepool.Effect.Interleave
import Mathlib.Tactic.Simps.Basic

/-!
One request handler with its request locked, run against any behaviour of its
driver and of ZooKeeper. The world records what the outcome of calls is compared
with: the stored request, and the locks that the handler itself has taken on its
request and on node objects.
-/

namespace Nodepool

open Effect Method

/-- Any driver: what its methods do is decided call by call from outside. -/
def Driver.external : Driver Unit where
  imagesAvailable := call .imagesAvailable
  hasProviderQuota types := call (.hasProviderQuota types)
  hasRemainingQuota ntype := call (.hasRemainingQuota ntype)
  checkReusableNode o := call (.checkReusableNode o)
  nodeReusedNotification o := call (.nodeReusedNotification o)
  setNodeMetadata o := call (.setNodeMetadata o)
  launch o := call (.launch o)
  launchesComplete := call .launchesComplete

/-- The calls that stand for methods of the driver. -/
def Call.ofDriver : Call → Prop
  | .imagesAvailable | .hasProviderQuota _ | .hasRemainingQuota _ | .checkReusableNode _
  | .nodeReusedNotification _ | .setNodeMetadata _ | .launch _ | .launchesComplete => True
  | _ => False

theorem Driver.external_within {γ : Type} {P : Call → Prop} {π : Handler Unit → γ}
    (hP : ∀ c, Call.ofDriver c → P c) : Driver.external.Within P π where
  imagesAvailable := .perform (hP _ trivial)
  hasProviderQuota _ := .perform (hP _ trivial)
  hasRemainingQuota _ := .perform (hP _ trivial)
  checkReusableNode _ := .perform (hP _ trivial)
  nodeReusedNotification _ := .perform (hP _ trivial)
  setNodeMetadata _ := .perform (hP _ trivial)
  launch _ := .perform (hP _ trivial)
  launchesComplete := .perform (hP _ trivial)

structure HandlerWorld where
  /-- the stored request -/
  request : Option NodeRequest
  /-- the handler holds the ZooKeeper lock of its request -/
  requestLocked : Bool
  /-- `node.lock` of the node objects that the handler has locked -/
  lock : NodeRef → Bool
  /-- the handler holds the `_thread_lock` of the node object -/
  threadLock : NodeRef → Bool
  allocatedTo : NodeRef → Option String

namespace HandlerWorld

@[simps -fullyApplied]
def setLock (w : HandlerWorld) (o : NodeRef) (b : Bool) : HandlerWorld :=
  { w with lock := Function.update w.lock o b }

@[simps -fullyApplied]
def setThreadLock (w : HandlerWorld) (o : NodeRef) (b : Bool) : HandlerWorld :=
  { w with threadLock := Function.update w.threadLock o b }

@[simps -fullyApplied]
def setAllocatedTo (w : HandlerWorld) (o : NodeRef) (r : Option String) : HandlerWorld :=
  { w with allocatedTo := Function.update w.allocatedTo o r }

/-- The worlds that a call can lead to if it gets the given reply. A call that
fails may still have taken effect in ZooKeeper. -/
def next (w : HandlerWorld) : (c : Call) → LauncherSig.Reply c → List HandlerWorld
  | .getRequest _, .ok data => if w.request = some data then [w] else []
  | .getRequest _, .error e => if e = .noNode ∧ w.request ≠ none then [] else [w]
  | .setRequest _ data, .ok _ => if w.request = none then [] else [{ w with request := some data }]
  | .setRequest _ data, .error _ =>
      if w.request = none then [w] else [w, { w with request := some data }]
  | .releaseRequestLock _, .ok _ => [{ w with requestLocked := false }]
  | .releaseRequestLock _, .error e =>
      -- the client library does not raise the exceptions of the launcher
      if e = .zkLock then [] else [w, { w with requestLocked := false }]
  | .newNode node, .ok (.own n) =>
      if w.lock (.own n) ∨ w.threadLock (.own n) then []
      else [w.setAllocatedTo (.own n) node.allocatedTo]
  | .newNode _, _ => []
  | .readNode o, .ok object =>
      -- an object that the handler has not locked may be changed by others
      if w.threadLock o → object.lock = w.lock o ∧ object.node.allocatedTo = w.allocatedTo o
      then [w] else []
  | .readNode _, .error _ => []
  | .assignNode o (.lock b), .ok _ => [w.setLock o b]
  | .assignNode o (.allocatedTo r), .ok _ => [w.setAllocatedTo o r]
  | .assignNode _ _, .ok _ => [w]
  | .assignNode _ _, .error _ => []
  | .acquireThreadLock o, .ok b =>
      if b then if w.threadLock o then [] else [w.setThreadLock o true] else [w]
  | .acquireThreadLock _, .error _ => []
  | .releaseThreadLock o, .ok _ => if w.threadLock o then [w.setThreadLock o false] else []
  | .releaseThreadLock o, .error _ => if w.threadLock o then [] else [w]
  -- nobody else changes a node in INIT state, so its maker reads what it stored
  | .updateNode (.own n), .ok data => if data.allocatedTo = w.allocatedTo (.own n) then [w] else []
  | .updateNode (.cached id), .ok data => [w.setAllocatedTo (.cached id) data.allocatedTo]
  | .log _, .error _ => []
  | .time, .error _ => []
  | _, _ => [w]

section Next

variable (w : HandlerWorld) (o : NodeRef) (id : String) (e : Err)

theorem next_getRequest_ok (data : NodeRequest) :
    w.next (.getRequest id) (.ok data) = if w.request = some data then [w] else [] := rfl

theorem next_getRequest_error :
    w.next (.getRequest id) (.error e) = if e = .noNode ∧ w.request ≠ none then [] else [w] := rfl

theorem next_setRequest_ok (data : NodeRequest) (v : Unit) :
    w.next (.setRequest id data) (.ok v) =
      if w.request = none then [] else [{ w with request := some data }] := rfl

theorem next_setRequest_error (data : NodeRequest) :
    w.next (.setRequest id data) (.error e) =
      if w.request = none then [w] else [w, { w with request := some data }] := rfl

theorem next_releaseRequestLock_error :
    w.next (.releaseRequestLock id) (.error e) =
      if e = .zkLock then [] else [w, { w with requestLocked := false }] := rfl

theorem next_newNode_own (node : Node) (n : Nat) :
    w.next (.newNode node) (.ok (.own n)) =
      if w.lock (.own n) ∨ w.threadLock (.own n) then []
      else [w.setAllocatedTo (.own n) node.allocatedTo] := rfl

theorem next_readNode_ok (object : NodeObject) :
    w.next (.readNode o) (.ok object) =
      if w.threadLock o → object.lock = w.lock o ∧ object.node.allocatedTo = w.allocatedTo o
      then [w] else [] := rfl

theorem next_acquireThreadLock_ok (b : Bool) :
    w.next (.acquireThreadLock o) (.ok b) =
      if b then if w.threadLock o then [] else [w.setThreadLock o true] else [w] := rfl

theorem next_releaseThreadLock_ok (v : Unit) :
    w.next (.releaseThreadLock o) (.ok v) =
      if w.threadLock o then [w.setThreadLock o false] else [] := rfl

theorem next_releaseThreadLock_error :
    w.next (.releaseThreadLock o) (.error e) = if w.threadLock o then [] else [w] := rfl

theorem next_updateNode_own (n : Nat) (data : Node) :
    w.next (.updateNode (.own n)) (.ok data) =
      if data.allocatedTo = w.allocatedTo (.own n) then [w] else [] := rfl

end Next

/-- The others may delete the request, and may change the allocation of cached nodes
that the handler has not locked. -/
structure Env (w w' : HandlerWorld) : Prop where
  request : w'.request = w.request ∨ w'.request = none
  requestLocked : w'.requestLocked = w.requestLocked
  lock : w'.lock = w.lock
  threadLock : w'.threadLock = w.threadLock
  allocatedTo : ∀ o, w.threadLock o = true → w'.allocatedTo o = w.allocatedTo o
  allocatedTo_own : ∀ n, w'.allocatedTo (.own n) = w.allocatedTo (.own n)

theorem Env.refl (w : HandlerWorld) : Env w w :=
  ⟨Or.inl rfl, rfl, rfl, rfl, fun _ _ => rfl, fun _ => rfl⟩

theorem Env.trans {a b c : HandlerWorld} (h : Env a b) (h' : Env b c) : Env a c where
  request := by
    rcases h'.request with hr | hr
    · rw [hr]; exact h.request
    · exact Or.inr hr
  requestLocked := h'.requestLocked.trans h.requestLocked
  lock := h'.lock.trans h.lock
  threadLock := h'.threadLock.trans h.threadLock
  allocatedTo o ho := (h'.allocatedTo o (by rw [h.threadLock]; exact ho)).trans (h.allocatedTo o ho)
  allocatedTo_own n := (h'.allocatedTo_own n).trans (h.allocatedTo_own n)

end HandlerWorld

/-- A handler, and whether it is finished: `done` was set, or `poll` returned true. -/
structure HandlerThread where
  handler : Handler Unit
  finished : Bool

/-- What the pool worker calls on a handler whose request it has locked. -/
inductive HandlerOp where
  | run
  | declineRequest
  | poll
deriving DecidableEq, Repr

namespace HandlerOp

open NodeRequestHandler

def finish (finished returned : Bool) (h : Handler Unit) : HandlerThread :=
  ⟨h, finished || h.done || returned⟩

def body (op : HandlerOp) (t : HandlerThread) : Prog LauncherSig HandlerThread :=
  match op with
  | .run => (NodeRequestHandler.run Driver.external t.handler).bind
      fun out => .pure (finish t.finished false out.2)
  | .declineRequest => (NodeRequestHandler.declineRequest t.handler).bind
      fun out => .pure (finish t.finished false out.2)
  | .poll => (NodeRequestHandler.poll Driver.external t.handler).bind
      fun out => .pure (finish t.finished (match out.1 with | .ok b => b | .error _ => false) out.2)

end HandlerOp

/-- The handler is called in any order while it holds its lock and is not
finished; a handler that is done is polled once more to be removed. -/
abbrev handlerSystem : System LauncherSig HandlerWorld Unit where
  State _ := HandlerThread
  Op _ := HandlerOp
  body _ := HandlerOp.body
  enabled _ op t w := (w.requestLocked && !t.finished) || (op = .poll && t.handler.done)
  next _ := HandlerWorld.next
  env := HandlerWorld.Env

namespace HandlerSystem

/-- The handler as the pool worker starts with it, in a world where it holds the
lock of its request and no other. -/
structure Initial (cfg : Config handlerSystem) : Prop where
  thread : ∃ launcherId request, cfg.thread () = .pure ⟨.init launcherId request (), false⟩
  requestLocked : cfg.world.requestLocked = true
  lock : ∀ o, cfg.world.lock o = false
  threadLock : ∀ o, cfg.world.threadLock o = false

/-- The context of the one thread, for runs whose steps satisfy `ok`. -/
abbrev context (ok : HandlerWorld → Event handlerSystem → Prop) :
    Context LauncherSig HandlerWorld :=
  handlerSystem.context ok (fun _ => True) HandlerWorld.Env (fun _ _ => True) ()

variable {ok : HandlerWorld → Event handlerSystem → Prop}

/-- Polling a handler that is done does nothing. -/
theorem poll_done {s : Handler Unit} {w : HandlerWorld}
    {Q : Bool → Handler Unit → HandlerWorld → Prop}
    {E : Err → Handler Unit → HandlerWorld → Prop} (hdone : s.done = true) (h : ∀ b, Q b s w) :
    (NodeRequestHandler.poll Driver.external).wp (context ok) Q E s w := by
  rw [NodeRequestHandler.poll, wp_bind, wp_self]
  split
  · exact h false
  · exact h true

/-- What is left to prove about the handler alone: `L` holds of it between two
calls of its methods. -/
def outline (L : HandlerThread → HandlerWorld → Prop)
    (stable : ∀ {t w w'}, L t w → HandlerWorld.Env w w' → L t w')
    (entry : ∀ op {t w}, handlerSystem.enabled () op t w = true → L t w →
      (op.body t).wp (context ok) L w) : Outline handlerSystem ok where
  inv _ := True
  rely _ := HandlerWorld.Env
  req _ _ _ := True
  linv _ := L
  rely_refl _ := HandlerWorld.Env.refl
  rely_trans _ := HandlerWorld.Env.trans
  linv_stable _ _ _ _ h hr _ := stable h hr
  entry _ op _ _ _ hen _ hl := entry op hen hl
  call_inv _ _ _ _ _ _ _ _ _ := trivial
  call_rely i j _ _ _ _ hij := absurd (Subsingleton.elim i j) hij
  env_inv _ _ := trivial
  env_rely _ _ _ _ h := h

/-! ### An example -/

/-- A request for one label, as a handler finds it. -/
def exampleRequest : NodeRequest where
  id := "100-0000000001"
  state := .requested
  declinedBy := []
  nodeTypes := ["label"]
  nodes := []
  reuse := false
  requestor := some "zuul"
  provider := none
  relativePriority := 0
  tenantName := none

def exampleInit : Config handlerSystem where
  world := ⟨some exampleRequest, true, fun _ => false, fun _ => false, fun _ => none⟩
  thread _ := .pure ⟨.init "launcher" exampleRequest (), false⟩

theorem exampleInit_initial : Initial exampleInit :=
  ⟨⟨_, _, rfl⟩, rfl, fun _ => rfl, fun _ => rfl⟩

/-- Answers of calls that succeed, for a pool with the given limit, when the stored
request has the given state and there is no quota left. -/
def exampleAnswer (maxServers : Int) (stored : RequestState) : (c : Call) → LauncherSig.Reply c
  | .getRequest _ => .ok { exampleRequest with state := stored }
  | .setRequest _ _ | .releaseRequestLock _ | .log _ => .ok ()
  | .getProviderConfig => .ok (some ⟨"provider", ["label"]⟩)
  | .getPoolConfig => .ok (some ⟨"pool", ["label"], .int maxServers, []⟩)
  | .errorLabels => .ok []
  | .imagesAvailable => .ok true
  | .hasProviderQuota _ => .ok true
  | .hasRemainingQuota _ => .ok false
  | .nodeIterator => .ok []
  | .pauseAtQuota => .ok false
  | .getRegisteredPools => .ok []
  | _ => .error .other

/-- A pool without servers declines at once: seven calls, among them the store and
the release. -/
def declineSchedule : List (System.Action handlerSystem) :=
  .start () .run :: List.replicate 7 (.reply () (exampleAnswer 0 .requested) 0)

end HandlerSystem

end Nodepool
