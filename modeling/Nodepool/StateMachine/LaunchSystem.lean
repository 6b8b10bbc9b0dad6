import Nodepool.Effect.Interleave
import Nodepool.StateMachine.Launcher

/-!
The launch of one node: the launcher, which a thread of the pool starts and the
runner of the create state machines advances, with the machines of the adapter and
the instances that they make.

Beside what the code reads and writes, the world records what happens in the cloud:
the attempt that each instance belongs to, and the attempts of whose instance the
deletion was started.
-/

namespace Nodepool

open Effect Method

structure LaunchWorld where
  /-- the node object of the launcher -/
  object : NodeObject
  /-- the record of the node -/
  stored : Node
  launcher : NodeLauncher
  /-- the result of `start_future`, once it is done -/
  future : Option (Except Err Unit)
  /-- the launcher is not in the list of the runner any more -/
  removed : Bool
  /-- the number of create state machines that were made -/
  made : Nat
  /-- the attempt of the machine that was made last has failed -/
  failed : Bool
  /-- the instances that exist: attempt and external id -/
  live : List (Nat × String)
  /-- the attempts of whose instance the deletion was started -/
  doomed : List Nat

namespace LaunchWorld

@[simps -fullyApplied]
def setObject (w : LaunchWorld) (object : NodeObject) : LaunchWorld := { w with object := object }

@[simps -fullyApplied]
def store (w : LaunchWorld) : LaunchWorld := { w with stored := w.object.node }

@[simps -fullyApplied]
def assign (w : LaunchWorld) (a : LauncherAttr) : LaunchWorld :=
  { w with launcher := w.launcher.assign a }

/-- The instance of an attempt whose machine has the given external id. -/
def reported (attempt : Nat) (externalId : Option String) : List (Nat × String) :=
  if truthy externalId then externalId.toList.map (attempt, ·) else []

/-- The create state machine was advanced, and says what its instance is. -/
@[simps -fullyApplied]
def advance (w : LaunchWorld) (outcome : Except Err (Option Instance)) (machine : StateMachine) :
    LaunchWorld :=
  { w with
    launcher := w.launcher.assign (.stateMachine (some machine))
    failed := w.failed || !outcome.toBool
    live := w.live.filter (fun p => p.1 ≠ w.made) ++ reported w.made machine.externalId }

/-- The worlds after the create state machine was advanced. A machine that changes its
external id in place changes that of a node to which the same object was assigned. -/
def advanceCreate (w : LaunchWorld) (outcome : Except Err (Option Instance))
    (machine : StateMachine) : List LaunchWorld :=
  match w.launcher.stateMachine with
  | none => []
  | some old =>
      w.advance outcome machine ::
        if truthy old.externalId ∧ w.object.node.externalId = old.externalId then
          [(w.advance outcome machine).setObject (w.object.assign (.externalId machine.externalId))]
        else []

/-- The instance is gone: the delete state machine is complete, or did not find it. -/
def gone (outcome : Except Err Unit) (machine : StateMachine) : Bool :=
  machine.complete || match outcome with
    | .ok _ => false
    | .error e => e = .notFound

/-- The delete state machine was advanced; it keeps its external id. -/
def advanceDelete (w : LaunchWorld) (outcome : Except Err Unit) (machine : StateMachine) :
    List LaunchWorld :=
  match w.launcher.deleteStateMachine with
  | none => []
  | some old =>
      if machine.externalId = old.externalId then
        [{ w with
            launcher := w.launcher.assign (.deleteStateMachine (some machine))
            doomed := w.doomed ++
              (w.live.filter fun p => old.externalId = some p.2).map Prod.fst
            live := if gone outcome machine then w.live.filter fun p => old.externalId ≠ some p.2
              else w.live }]
      else []

def futureResult (w : LaunchWorld) (r : Except Err Unit) : List LaunchWorld :=
  match w.future, r with
  | some (.ok _), .ok _ => [w]
  | some (.error e), .error e' => if e = e' then [w] else []
  | _, _ => []

/-- The worlds that a call can lead to if it gets the given reply. A store that fails
may still have taken effect. The node has been created before it is launched. A machine
that was just made has no instance, and a machine that is made to delete one is not
complete. -/
def next (w : LaunchWorld) : (c : Call) → LauncherSig.Reply c → List LaunchWorld
  | .readLauncher _, .ok launcher => if launcher = w.launcher then [w] else []
  | .readLauncher _, .error _ => []
  | .readNode _, .ok object => if object = w.object then [w] else []
  | .readNode _, .error _ => []
  | .assignNode _ a, .ok _ => [w.setObject (w.object.assign a)]
  | .assignNode _ _, .error _ => []
  | .assignLauncher _ a, .ok _ => [w.assign a]
  | .assignLauncher _ _, .error _ => []
  | .createNode _, _ => []
  | .setNode _, .ok _ => [w.store]
  | .setNode _, .error _ => [w, w.store]
  | .setFutureResult _ r, _ => [{ w with future := some r }]
  | .startFutureDone _, .ok done => if done = w.future.isSome then [w] else []
  | .startFutureDone _, .error _ => []
  | .startFutureResult _, r => w.futureResult r
  | .getCreateStateMachine _ _ _ _ _, .ok machine =>
      if machine.externalId = none ∧ machine.complete = false
      then [{ w with made := w.made + 1, failed := false }]
      else []
  | .advanceCreate _, .ok (outcome, machine) => w.advanceCreate outcome machine
  | .advanceCreate _, .error _ => []
  | .getDeleteStateMachine _, .ok machine => if machine.complete = false then [w] else []
  | .advanceDelete _, .ok (outcome, machine) => w.advanceDelete outcome machine
  | .advanceDelete _, .error _ => []
  | .log message, .ok _ =>
      [{ w with failed := w.failed || message = "Launch attempt failed" }]
  | .log _, .error _ => []
  | .time, .error _ => []
  | .removeLauncher _, .ok _ => [{ w with removed := true }]
  | .removeLauncher _, .error _ => []
  | _, _ => [w]

/-- What happens beside the two threads: the request handler assigns other attributes
of the node, and stores it. The node is locked, so nobody else stores it. -/
inductive Env (w : LaunchWorld) : LaunchWorld → Prop where
  | assignNode {object : NodeObject} (id : object.id = w.object.id)
      (state : object.node.state = w.object.node.state)
      (externalId : object.node.externalId = w.object.node.externalId) : Env w (w.setObject object)
  | storeNode : Env w w.store

/-- The world after the first call of `launch` for a new node. -/
def init (id : NodeId) (node : Node) (handler : Nat) (providerName poolName : String)
    (retries : Nat) : LaunchWorld where
  object := ⟨some id, { node with state := .building, externalId := none }, false, true, true⟩
  stored := { node with state := .building, externalId := none }
  launcher :=
    { StateMachineNodeLauncher.init handler (.own 0) providerName poolName retries with
      attempts := 1
      startFuture := true }
  future := none
  removed := false
  made := 0
  failed := false
  live := []
  doomed := []

end LaunchWorld

inductive LaunchThread where
  /-- the thread of the pool that runs `startStateMachine` -/
  | starter
  /-- the runner of the create state machines -/
  | runner
deriving DecidableEq

namespace LaunchThread

/-- A future runs its function once, and keeps the result or the exception. -/
def startFuture (l : Nat) : LauncherM Unit Unit := do
  let result ← attempt (StateMachineNodeLauncher.startStateMachine l)
  call (.setFutureResult l result)

def method (l : Nat) : LaunchThread → LauncherM Unit Unit
  | .starter => startFuture l
  | .runner => StateMachineProvider.runLauncher l

def enabled (w : LaunchWorld) : LaunchThread → Bool
  | .starter => w.future.isNone
  | .runner => !w.removed

end LaunchThread

/-- The two threads, for the launcher with number `l`. -/
abbrev launchSystem (l : Nat) : System LauncherSig LaunchWorld LaunchThread where
  State _ := Unit
  Op _ := Unit
  body i _ := (LaunchThread.method l i).toBody fun _ s => s
  enabled i _ _ w := LaunchThread.enabled w i
  next _ := LaunchWorld.next
  env := LaunchWorld.Env

namespace LaunchSystem

/-- The launcher of a new node, before anything has run. -/
def init (l : Nat) (id : NodeId) (node : Node) (handler : Nat) (providerName poolName : String)
    (retries : Nat) : Config (launchSystem l) where
  world := .init id node handler providerName poolName retries
  thread _ := .pure ()

/-! ### Examples -/

def exampleNode : Node where
  state := .init
  stateTime := 0
  type := ["small"]
  provider := some "cloud"
  pool := some "main"
  launcher := none
  allocatedTo := none
  tenantName := none
  requestor := none
  resources := none
  externalId := none

/-- A launch with two attempts. -/
def exampleInit : Config (launchSystem 0) := init 0 0 exampleNode 0 "cloud" "main" 2

/-- Answers of calls that succeed, where the create state machine advances as given. -/
def exampleAnswer (label : Except Err PoolLabel)
    (advanced : Except Err (Option Instance) × StateMachine) (w : LaunchWorld) :
    (c : Call) → LauncherSig.Reply c
  | .readLauncher _ => .ok w.launcher
  | .readNode _ => .ok w.object
  | .poolLabel _ _ => label
  | .quotaNeededByLabel _ _ => .ok ⟨∅, 0⟩
  | .getCreateStateMachine _ _ _ _ _ => .ok ⟨"start", none, false, 0⟩
  | .advanceCreate _ => .ok advanced
  | .getDeleteStateMachine externalId => .ok ⟨"start", externalId, false, 0⟩
  | .advanceDelete _ => .ok (.ok (), ⟨"complete", some "server", true, 0⟩)
  | .assignNode _ _ | .assignLauncher _ _ | .setNode _ | .log _ | .removeNodescanRequest _
  | .setFutureResult _ _ => .ok ()
  | .time | .launchTimeout => .ok 0
  | _ => .error .other

def smallLabel : PoolLabel := ⟨"small", none, some "image"⟩

/-- The next calls of a thread. -/
def calls (i : LaunchThread) (label : Except Err PoolLabel)
    (advanced : Except Err (Option Instance) × StateMachine) (n : Nat) :
    List (System.Action (launchSystem 0)) :=
  List.replicate n (.respond i (exampleAnswer label advanced) 0)

end LaunchSystem

end Nodepool
