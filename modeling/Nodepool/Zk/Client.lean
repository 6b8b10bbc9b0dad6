import Mathlib.Data.List.Sort
import Nodepool.Effect.Footprint
import Nodepool.Launcher.Calls

/-!
The methods of class `ZooKeeper` that request handlers call, over the operations
of the client library.
-/

namespace Nodepool

open Effect Method

/-- Methods of objects of the launcher. -/
abbrev LauncherM (σ : Type) : Type → Type := Method LauncherSig σ

variable {σ : Type}

/-- Make a call, with the type of its value spelt out for `do` blocks. -/
abbrev call {σ : Type} (c : Call) : LauncherM σ c.Val := perform (S := LauncherSig) c

/-- `if not b: raise e` -/
def raiseUnless (b : Bool) (e : Err) : LauncherM σ Unit := if b then pure () else throw e

/-- `if b: m` -/
def when (b : Prop) [Decidable b] (m : LauncherM σ Unit) : LauncherM σ Unit :=
  if b then m else pure ()

section Footprint

variable {γ : Type} {P : Call → Prop} {π : σ → γ}

theorem raiseUnless_within (b : Bool) (e : Err) :
    Within P π (raiseUnless b e : LauncherM σ Unit) :=
  .ite .pure .throw

theorem when_within {b : Prop} [Decidable b] {m : LauncherM σ Unit} (h : Within P π m) :
    Within P π (when b m) :=
  .ite h .pure

end Footprint

namespace ZooKeeper

def getNodeRequest (id : String) : LauncherM σ (Option NodeRequest) :=
  tryCatch (do
    let data ← call (.getRequest id)
    pure (some data))
  fun e => if e = .noNode then pure none else throw e

/-- Lock a node without blocking, and refresh the object with the latest data. -/
def lockNode (o : NodeRef) : LauncherM σ Unit := do
  let haveThreadLock ← call (.acquireThreadLock o)
  raiseUnless haveThreadLock .zkLock
  tryCatch (do
      let haveLock ← tryCatch (call (.acquireLock o)) fun e =>
        if e = .lockTimeout then throw .timeout
        else if e = .noNode then pure false
        else throw e
      raiseUnless haveLock .zkLock
      call (.assignNode o (.lock true)))
    fun e => do
      tryCatch (call (.releaseThreadLock o)) fun _ => call (.log "Unable to release thread lock")
      throw e
  let _ ← call (.updateNode o)
  pure ()

def unlockNode (o : NodeRef) : LauncherM σ Unit := do
  let object ← call (.readNode o)
  raiseUnless object.lock .zkLock
  call (.releaseLock o)
  call (.assignNode o (.lock false))
  call (.releaseThreadLock o)

/-- Store a new or existing node. -/
def storeNode (o : NodeRef) : LauncherM σ Unit := do
  let object ← call (.readNode o)
  if object.id = none then call (.createNode o) else call (.setNode o)

def assignState (o : NodeRef) (s : NodeState) : LauncherM σ Unit := do
  let now ← call .time
  call (.assignNode o (.state s now))

/-- `MAX_DELETE_AGE`, in seconds. -/
def maxDeleteAge : Nat := 5 * 60

/-- The candidates of `deleteOldestUnusedNode` with their `state_time`, or `none`
if a node of the pool is already being deleted. -/
def unusedNodes (providerName poolName : String) :
    List NodeRef → LauncherM σ (Option (List (Nat × NodeRef)))
  | [] => pure (some [])
  | o :: os => do
      let object ← call (.readNode o)
      let now ← call .time
      if object.node.provider = some providerName ∧ object.node.pool = some poolName then
        if object.node.state = .ready ∧ ¬ truthy object.node.allocatedTo then do
          let rest ← unusedNodes providerName poolName os
          pure (rest.map ((object.node.stateTime, o) :: ·))
        -- `time.time() - node.state_time / 1000 < MAX_DELETE_AGE`
        else if object.node.state = .deleting ∧
            1000 * now < object.node.stateTime + 1000 * maxDeleteAge then
          pure none
        else unusedNodes providerName poolName os
      else unusedNodes providerName poolName os

/-- Lock one candidate and set it to be deleted; `false` means try the next one. -/
def deleteUnusedNode (o : NodeRef) : LauncherM σ Bool := do
  let locked ← attempt (lockNode o)
  match locked with
  | .error .zkLock => pure false
  | .error e => throw e
  | .ok () => do
      let object ← call (.readNode o)
      if object.node.state ≠ .ready ∨ truthy object.node.allocatedTo then do
        unlockNode o
        pure false
      else do
        let stored ← attempt (do
          assignState o .deleting
          storeNode o)
        match stored with
        | .ok () => do
            unlockNode o
            pure true
        | .error _ => do
            call (.log "Error attempting to update unused node")
            unlockNode o
            pure false

def deleteFirstUnusedNode : List NodeRef → LauncherM σ Bool
  | [] => pure false
  | o :: os => do
      let deleted ← deleteUnusedNode o
      if deleted then pure true else deleteFirstUnusedNode os

/-- Delete the oldest unused (READY and unlocked) node of a pool. -/
def deleteOldestUnusedNode (providerName poolName : String) : LauncherM σ Bool := do
  let nodes ← call .nodeIterator
  let candidates ← unusedNodes providerName poolName nodes
  match candidates with
  | none => pure false
  | some candidates =>
      deleteFirstUnusedNode ((candidates.insertionSort fun a b => a.1 ≤ b.1).map (·.2))

end ZooKeeper

end Nodepool
