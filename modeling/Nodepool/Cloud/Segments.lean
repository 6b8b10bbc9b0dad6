import Mathlib.Data.List.Basic

/-!
The segments in which `ImageUploader` of `nodepool/driver/utils.py` uploads a file, how it waits
for them, and what an upload asks of Azure.
-/

namespace Nodepool

/-- A segment of a file; `length` is the length of its data. -/
structure Segment where
  index : Nat
  offset : Nat
  length : Nat
deriving DecidableEq, Repr

/-- `enumerate(range(0, self.size, self.segment_size))` -/
def segments (size segmentSize : Nat) : List Segment :=
  (List.range ((size + segmentSize - 1) / segmentSize)).map fun index =>
    ⟨index, index * segmentSize, min segmentSize (size - index * segmentSize)⟩

/-- `concurrent.futures.wait` returns with these futures, or it has timed out. The time that it
may take is computed before it starts, so the clock then reads the deadline or a later time. -/
def Waited {Future Time : Type} [LE Time] (isDone : Future → Prop) (futures : List Future)
    (firstCompleted : Bool) (deadline : Option Time) (now : Time) (done : List Future) : Prop :=
  (∀ future ∈ done, future ∈ futures ∧ isDone future) ∧ done.Nodup ∧
    ((if firstCompleted then done ≠ [] else ∀ future ∈ futures, future ∈ done) ∨
      ∃ time ∈ deadline, time ≤ now)

/-- The asynchronous operations of an upload to Azure. -/
inductive AzureRequest where
  | createDisk
  | beginGetAccess
  | endGetAccess
  | createImage
  | deleteDisk
deriving DecidableEq, Repr

end Nodepool
