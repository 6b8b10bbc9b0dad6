import Mathlib.Algebra.BigOperators.Group.List.Basic
import Mathlib.Algebra.Ring.Nat
import Mathlib.Data.List.Count
import Nodepool.StateMachine.Models

/-!
The limit on concurrent launches of a state machine provider: `max_concurrency` against
the launches that `StateMachineHandler.alive_thread_count` counts, summed over the request
handlers of all pools of the provider.

A launcher is complete when its node is no longer `BUILDING`, and stays in the list of its
handler afterwards. `alive_thread_count` counts the complete ones.
-/

namespace Nodepool.LaunchConcurrency

/-- The launchers of a request handler, by number. -/
structure StateMachineHandler where
  launchers : List Nat
deriving DecidableEq

structure PoolWorker where
  requestHandlers : List StateMachineHandler
  /-- the handler that `_assignHandlers` has accepted a request with and is running -/
  assigning : Option StateMachineHandler
deriving DecidableEq

/-- The pool workers of one provider, and what they have launched. -/
structure Provider where
  poolWorkers : List PoolWorker
  /-- every launcher that has been made -/
  launchers : List Nat
  /-- the state of the node of a launcher -/
  nodeState : Nat → NodeState

namespace Provider

variable (p : Provider)

/-- `StateMachineNodeLauncher.complete` -/
def complete (nl : Nat) : Bool := p.nodeState nl ≠ .building

def aliveThreadCount (h : StateMachineHandler) : Nat := (h.launchers.filter p.complete).length

/-- `PoolWorker.activeThreads` -/
def activeThreads (w : PoolWorker) : Nat := (w.requestHandlers.map p.aliveThreadCount).sum

/-- The active threads of all pools of the provider. -/
def totalThreads : Nat := (p.poolWorkers.map p.activeThreads).sum

/-- The check that defers a request, for `max_concurrency`. -/
def limited (maxConcurrency : Int) : Bool :=
  0 < maxConcurrency && maxConcurrency ≤ p.totalThreads

/-- The launchers of the handlers that the pool workers list. -/
def listed : List Nat :=
  (p.poolWorkers.flatMap (·.requestHandlers)).flatMap (·.launchers)

/-- The number of listed launchers whose node has left `BUILDING`. -/
def finished : Nat := p.listed.countP fun nl => p.nodeState nl ≠ .building

/-- The number of launches of the provider's pools that are not complete. -/
def incomplete : Nat := p.launchers.countP fun nl => p.nodeState nl = .building

def setWorker (i : Nat) (w : PoolWorker) : Provider :=
  { p with poolWorkers := p.poolWorkers.set i w }

/-- A new launcher, whose node is `BUILDING`. -/
def addLauncher (nl : Nat) : Provider :=
  { p with
    launchers := p.launchers ++ [nl]
    nodeState := Function.update p.nodeState nl .building }

def setNodeState (nl : Nat) (state : NodeState) : Provider :=
  { p with nodeState := Function.update p.nodeState nl state }

theorem length_filter_flatMap {α : Type} (f : α → List Nat) (as : List α) (q : Nat → Bool) :
    (as.map fun a => ((f a).filter q).length).sum = (as.flatMap f).countP q := by
  induction as with
  | nil => rfl
  | cons a as ih =>
      rw [List.map_cons, List.sum_cons, ih, List.flatMap_cons, List.countP_append]
      exact congrArg (· + _) List.countP_eq_length_filter.symm

/-- What counts as active are the listed launchers that are complete. -/
theorem totalThreads_eq : p.totalThreads = p.finished := by
  unfold totalThreads finished listed
  induction p.poolWorkers with
  | nil => rfl
  | cons w ws ih =>
      rw [List.map_cons, List.sum_cons, ih, List.flatMap_cons, List.flatMap_append,
        List.countP_append]
      exact congrArg (· + _) (length_filter_flatMap _ _ _)

end Provider

/-- What happens at a provider. `considered` is the concurrency check for a request that
one of its pools would accept, with its result. -/
inductive Event where
  | considered (worker : Nat) (refused : Bool)
  | launched
  | appended
  | dropped
  | completed
  | polled

/-- One step of the pool workers of a provider. -/
inductive Step (maxConcurrency : Int) : Provider → Event → Provider → Prop
  | refuse {p : Provider} {i : Nat} (refused : p.limited maxConcurrency = true) :
      Step maxConcurrency p (.considered i true) p
  | accept {p : Provider} {i : Nat} {w : PoolWorker} (worker : p.poolWorkers[i]? = some w)
      (passes : p.limited maxConcurrency = false) :
      Step maxConcurrency p (.considered i false)
        (p.setWorker i { w with assigning := some ⟨[]⟩ })
  /-- the handler that is being run launches a node -/
  | launch {p : Provider} {i n : Nat} {w : PoolWorker} {h : StateMachineHandler}
      (worker : p.poolWorkers[i]? = some w) (assigning : w.assigning = some h)
      (fresh : n ∉ p.launchers) :
      Step maxConcurrency p .launched
        ((p.addLauncher n).setWorker i { w with assigning := some ⟨h.launchers ++ [n]⟩ })
  /-- a paused handler launches a node when it is run again -/
  | relaunch {p : Provider} {i j n : Nat} {w : PoolWorker} {h : StateMachineHandler}
      (worker : p.poolWorkers[i]? = some w) (handler : w.requestHandlers[j]? = some h)
      (fresh : n ∉ p.launchers) :
      Step maxConcurrency p .launched
        ((p.addLauncher n).setWorker i
          { w with requestHandlers := w.requestHandlers.set j ⟨h.launchers ++ [n]⟩ })
  | append {p : Provider} {i : Nat} {w : PoolWorker} {h : StateMachineHandler}
      (worker : p.poolWorkers[i]? = some w) (assigning : w.assigning = some h) :
      Step maxConcurrency p .appended (p.setWorker i ⟨w.requestHandlers ++ [h], none⟩)
  /-- an exception ends the assignment of handlers -/
  | drop {p : Provider} {i : Nat} {w : PoolWorker} (worker : p.poolWorkers[i]? = some w) :
      Step maxConcurrency p .dropped (p.setWorker i { w with assigning := none })
  /-- the node of a launcher reaches another state -/
  | finish {p : Provider} {n : Nat} {state : NodeState} (final : state ≠ .building) :
      Step maxConcurrency p .completed (p.setNodeState n state)
  /-- the handlers that `_removeCompletedHandlers` keeps -/
  | poll {p : Provider} {i : Nat} {w : PoolWorker} {kept : List StateMachineHandler}
      (worker : p.poolWorkers[i]? = some w) (sublist : kept.Sublist w.requestHandlers) :
      Step maxConcurrency p .polled (p.setWorker i { w with requestHandlers := kept })

/-- A provider that has launched nothing, with the given number of pools. -/
def initial (pools : Nat) : Provider where
  poolWorkers := List.replicate pools ⟨[], none⟩
  launchers := []
  nodeState := fun _ => .init

/-- The runs of a provider, with what happened in each state. -/
inductive Run (c : Int) (pools : Nat) : List (Provider × Event) → Provider → Prop
  | start : Run c pools [] (initial pools)
  | step {trace : List (Provider × Event)} {p p' : Provider} {e : Event}
      (run : Run c pools trace p) (next : Step c p e p') :
      Run c pools (trace ++ [(p, e)]) p'

/-- The concurrency check is exact: a request is accepted only while fewer launches than
allowed are incomplete, and refused only when there are not. -/
def Exact (maxConcurrency : Int) (trace : List (Provider × Event)) : Prop :=
  ∀ p i refused, (p, Event.considered i refused) ∈ trace →
    (refused = false ↔ (p.incomplete : Int) < maxConcurrency)

/-- The finished launches of listed handlers and the incomplete launches of the provider
are on the same side of the limit. -/
def Agrees (maxConcurrency : Int) (p : Provider) : Prop :=
  (p.finished : Int) < maxConcurrency ↔ (p.incomplete : Int) < maxConcurrency

variable {c : Int} {pools : Nat}

theorem limited_eq_false (positive : 0 < c) (p : Provider) :
    p.limited c = false ↔ (p.finished : Int) < c := by
  rw [← p.totalThreads_eq]
  simp [Provider.limited, positive]

/-- The result of the check is what the code counts. -/
theorem Step.considered {p p' : Provider} {i : Nat} {refused : Bool}
    (h : Step c p (.considered i refused) p') : refused = p.limited c := by
  cases h with
  | refuse refused => exact refused.symm
  | accept _ passes => exact passes.symm

theorem Run.considered {trace : List (Provider × Event)} {p : Provider}
    (run : Run c pools trace p) :
    ∀ q i refused, (q, Event.considered i refused) ∈ trace → refused = q.limited c := by
  induction run with
  | start => exact fun _ _ _ h => nomatch h
  | step _ next ih =>
      intro q i refused mem
      rcases List.mem_append.mp mem with old | new
      · exact ih q i refused old
      · cases List.mem_singleton.mp new
        exact next.considered

/-- Over a run, the concurrency check is exact exactly when, each time a request is
considered, as many launches are finished as are incomplete, as far as the limit tells
the two apart. -/
theorem exact_iff (positive : 0 < c) {trace : List (Provider × Event)} {p : Provider}
    (run : Run c pools trace p) :
    Exact c trace ↔ ∀ q i refused, (q, Event.considered i refused) ∈ trace → Agrees c q := by
  refine forall_congr' fun q => forall_congr' fun i => forall_congr' fun refused =>
    forall_congr' fun mem => ?_
  rw [run.considered q i refused mem, limited_eq_false positive]
  rfl

/-! ### One launch at a time -/

/-- A request is accepted, and its handler launches a node. -/
theorem run_example : ∃ trace p, Run 1 1 trace p ∧ p.limited 1 = false ∧ p.incomplete = 1 ∧
    p.poolWorkers[0]? = some ⟨[⟨[0]⟩], none⟩ :=
  ⟨_, _, .step (.step (.step .start
    (.accept (i := 0) (w := ⟨[], none⟩) rfl (by decide)))
    (.launch (i := 0) (n := 0) (w := ⟨[], some ⟨[]⟩⟩) (h := ⟨[]⟩) rfl rfl (by decide)))
    (.append (i := 0) (w := ⟨[], some ⟨[0]⟩⟩) (h := ⟨[0]⟩) rfl rfl), by decide, by decide, rfl⟩

/-- The next request is accepted while the launch goes on. -/
theorem not_forall_exact :
    ¬ ∀ (c : Int) (pools : Nat), 0 < c → ∀ trace p, Run c pools trace p → Exact c trace := by
  intro h
  obtain ⟨trace, p, run, passes, busy, worker⟩ := run_example
  have next := run.step (.accept (i := 0) worker passes)
  have exact := (h 1 1 (by decide) _ _ next p 0 false (by simp)).mp rfl
  rw [busy] at exact
  exact absurd exact (by decide)

theorem exact_iff_example : ∃ trace p, Run 1 1 trace p ∧
    (Exact 1 trace ↔
      ∀ q i refused, (q, Event.considered i refused) ∈ trace → Agrees 1 q) := by
  obtain ⟨trace, p, run, -⟩ := run_example
  exact ⟨trace, p, run, exact_iff (by decide) run⟩

end Nodepool.LaunchConcurrency
