import Nodepool.StateMachine.Launcher

/-!
`StateMachineProvider` of `nodepool/driver/statemachine.py`: the threads that run the
state machines of a provider, the thread that stops it, and the methods by which
other threads hand state machines over.

The loops of the threads do not end by themselves, so each thread keeps a phase, and
a method takes it from one phase to the next.
-/

namespace Nodepool

open Effect Method

/-- Where `_runStateMachines` is in its loop. -/
inductive RunnerPhase where
  /-- before the test of `while self.running` -/
  | waiting
  /-- in the loop over the state machines, with `to_remove` -/
  | visiting (index : Nat) (toRemove : List Nat)
  | removing (toRemove : List Nat)
  | ended
deriving DecidableEq

inductive StopPhase where
  | waiting
  | stopped
deriving DecidableEq

namespace StateMachineProvider

/-- `while self.running` -/
def beginRound : LauncherM RunnerPhase Unit := do
  let running ← call .isRunning
  assign fun _ => if running then .visiting 0 [] else .ended

/-- Run a state machine, and say whether it is complete. -/
def runMachine (kind : MachineKind) (m : Nat) : LauncherM RunnerPhase Bool :=
  tryCatch (do
      call (.runMachine kind m)
      call (.machineComplete kind m))
    fun _ => do
      call (.log "Error running state machine")
      pure false

/-- `for sm in state_machines`: the next one. The iterator reads the list each time, so
it comes to what is appended meanwhile. -/
def visitNext (kind : MachineKind) (index : Nat) (toRemove : List Nat) :
    LauncherM RunnerPhase Unit := do
  let machines ← call (.machines kind)
  match machines[index]? with
  | none => assign fun _ => .removing toRemove
  | some m => do
      let complete ← runMachine kind m
      assign fun _ => .visiting (index + 1) (if complete then toRemove ++ [m] else toRemove)

def removeNext (kind : MachineKind) : List Nat → LauncherM RunnerPhase Unit
  | [] => do
      call .sleep
      assign fun _ => .waiting
  | m :: toRemove => do
      call (.removeMachine kind m)
      assign fun _ => .removing toRemove

/-- `_runStateMachines`, from where it is to the next phase. -/
def runStateMachines (kind : MachineKind) : LauncherM RunnerPhase Unit := do
  let phase ← self
  match phase with
  | .waiting => beginRound
  | .visiting index toRemove => visitNext kind index toRemove
  | .removing toRemove => removeNext kind toRemove
  | .ended => pure ()

/-- What is left of `_stop` after its loop. -/
def finishStop : LauncherM StopPhase Unit := do
  call (.assignRunning false)
  call .stopNodescanWorker
  call .shutdownStartWorker
  call .stopAdapter
  assign fun _ => .stopped

/-- `while self.launchers or self.deleters: time.sleep(1)`: one test of the condition,
in a provider that was started. -/
def stop : LauncherM StopPhase Unit := do
  let launchers ← call (.machines .create)
  if launchers ≠ [] then call .sleep
  else do
    let deleters ← call (.machines .delete)
    if deleters ≠ [] then call .sleep else finishStop

variable {σ : Type}

/-- `startNodeCleanup`: what becomes of the deleter that it returns is left out. -/
def startNodeCleanup (o : NodeRef) : LauncherM σ Unit := do
  let m ← call (.newDeleter o)
  call (.appendMachine .delete m)

end StateMachineProvider

/-- `StateMachineHandler.launch` -/
def StateMachineHandler.launch {σ : Type} (handler : Nat) (node : NodeRef)
    (providerName poolName : String) (retries : Nat) : LauncherM σ Unit := do
  let l ← call (.newLauncher
    (StateMachineNodeLauncher.init handler node providerName poolName retries))
  StateMachineNodeLauncher.launch l
  call (.appendLauncher handler l)
  call (.appendMachine .create l)

end Nodepool
