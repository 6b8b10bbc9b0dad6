import Nodepool.Driver.HandlerSystem
import Nodepool.Launcher.CleanupWorkers

/-!
Any number of pools and cleanup workers, of any number of launchers, that handle, decline and reset
one node request.

The world has the stored request, who holds its lock, and the pools that are registered as each
launcher sees them. Nobody loses its session, a release of the lock that raises has not released
it, and the node cache leaves a locked request object alone. The in-process lock of the request
object counts as part of the lock.
-/

namespace Nodepool

open Effect Method

/-- Who takes the lock of a request. -/
inductive Party where
  /-- the worker of the pool with this identifier -/
  | pool (id : String)
  /-- the cleanup worker of a launcher -/
  | cleanup (launcher : String)
deriving DecidableEq

structure DeclineWorld where
  /-- the stored request -/
  request : Option NodeRequest
  /-- who holds the lock of the request -/
  holder : Option Party
  /-- the registered pools, as each party sees them -/
  pools : Party → List PoolComponent
  /-- the registered pools when the party has last asked for them -/
  asked : Party → List PoolComponent
  /-- the request was unlocked as FAILED or FULFILLED -/
  closed : Bool

/-- Nobody works on the request any more. -/
def NodeRequest.isFinal (r : NodeRequest) : Bool := r.state = .failed ∨ r.state = .fulfilled

namespace DeclineWorld

/-- The worlds that a call of a party can lead to if it gets the given reply; calls for other
requests are not followed. -/
def next (requestId : String) (i : Party) (w : DeclineWorld) :
    (c : Call) → LauncherSig.Reply c → List DeclineWorld
  | .getRequest id, .ok data => if id = requestId → w.request = some data then [w] else []
  | .getRequest id, .error e =>
      if id = requestId ∧ e = .noNode ∧ w.request ≠ none then [] else [w]
  | .setRequest id data, .ok _ =>
      if id ≠ requestId then [w]
      else if w.request = none then [] else [{ w with request := some data }]
  | .setRequest id data, .error _ =>
      if id ≠ requestId ∨ w.request = none then [w] else [w, { w with request := some data }]
  | .acquireRequestLock id, .ok b =>
      if b ∧ id = requestId then
        if w.holder = none then [{ w with holder := some i }] else []
      else [w]
  | .releaseRequestLock id, .ok _ =>
      if id = requestId then
        [{ w with holder := none, closed := w.closed || w.request.any (·.isFinal) }]
      else [w]
  | .releaseRequestLock _, .error e => if e = .zkLock then [] else [w]
  | .getRegisteredPools, .ok pools =>
      if pools = w.pools i then [{ w with asked := Function.update w.asked i pools }] else []
  -- the cached registry, and objects in memory
  | .getRegisteredPools, .error _ | .readNode _, .error _ | .assignNode _ _, .error _
  | .log _, .error _ => []
  | _, _ => [w]

/-- The client may delete the request, and pools come and go. -/
structure Env (w w' : DeclineWorld) : Prop where
  request : w'.request = w.request ∨ w'.request = none
  holder : w'.holder = w.holder
  asked : w'.asked = w.asked
  closed : w'.closed = w.closed

end DeclineWorld

namespace PoolWorker

/-- `lockNodeRequest` without blocking -/
def lockNodeRequest : HandlerM Unit Unit := do
  let h ← self
  let haveLock ← tryCatch (call (.acquireRequestLock h.request.id)) fun e =>
    if e = .lockTimeout then throw .timeout
    else if e = .noNode then pure false
    else throw e
  raiseUnless haveLock .zkLock
  assign fun h => { h with requestLock := true }
  let data ← call (.getRequest h.request.id)
  assign fun h => { h with request := data }

/-- The part of `_assignHandlers` that takes a request; the result is whether the handler is
kept. -/
def takeRequest (decline : Bool) : HandlerM Unit Bool := do
  let locked ← attempt lockNodeRequest
  match locked with
  | .error .zkLock => pure false
  | .error .noNode => pure false
  | .error e => throw e
  | .ok () => do
      let h ← self
      -- make sure the state didn't change on us after getting the lock
      if h.request.state ≠ .requested then do
        NodeRequestHandler.unlockNodeRequest
        pure false
      else if h.launcherId ∈ h.request.declinedBy then do
        NodeRequestHandler.unlockNodeRequest
        pure false
      else if decline then do
        NodeRequestHandler.declineRequest
        pure false
      else do
        NodeRequestHandler.run Driver.external
        pure true

/-- What a pool worker does with the request, and with the handler that it has for it. -/
inductive Op where
  /-- take the request, of which the cache has an older version, with reasons to decline it or
  without -/
  | take (cached : NodeRequest) (decline : Bool)
  /-- another try of a handler that is paused -/
  | run
  | poll

/-- The handler that is kept after it was run. -/
def Op.body (launcherId : String) (op : Op) (handler : Option (Handler Unit)) :
    Prog LauncherSig (Option (Handler Unit)) :=
  match op, handler with
  | .take cached decline, _ =>
      (takeRequest decline { Handler.init launcherId cached () with requestLock := false }).bind
        fun out => .pure (match out.1 with
          | .ok true => some out.2
          | _ => none)
  | .run, some h =>
      (NodeRequestHandler.run Driver.external h).bind fun out => .pure (some out.2)
  | .poll, some h =>
      (NodeRequestHandler.poll Driver.external h).bind fun out => .pure (match out.1 with
        | .ok true => none
        | _ => some out.2)
  | _, none => .pure none

def Op.enabled (requestId : String) : Op → Option (Handler Unit) → Bool
  | .take cached _, none => cached.id = requestId
  | .run, some h => h.paused
  | .poll, some _ => true
  | _, _ => false

end PoolWorker

/-- Everyone who takes the lock of one request. -/
abbrev declineSystem (requestId : String) : System LauncherSig DeclineWorld Party where
  State
    | .pool _ => Option (Handler Unit)
    | .cleanup _ => Unit
  Op
    | .pool _ => PoolWorker.Op
    | .cleanup _ => Unit
  body
    | .pool id => PoolWorker.Op.body id
    | .cleanup _ => fun _ =>
        (CleanupWorker.cleanupLostRequests : LauncherM Unit Unit).toBody fun _ s => s
  enabled
    | .pool _ => fun op handler _ => op.enabled requestId handler
    | .cleanup _ => fun _ _ _ => true
  next := DeclineWorld.next requestId
  env := DeclineWorld.Env

end Nodepool
