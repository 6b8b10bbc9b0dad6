import Mathlib.Algebra.Ring.Parity
import Mathlib.Data.List.TakeWhile
import Mathlib.Tactic

/-!
One iteration of `NodescanWorker.run` of `nodepool/driver/statemachine.py`, once `poll` has
returned: the worker advances its active requests one after another, and removes those that are
complete from the list that it goes through.
-/

namespace Nodepool.Nodescan

/-- What the iteration finds: the descriptor of the socket of each request, if there is one, the
descriptors that `poll` has returned, and which requests are complete once they have been
advanced, or have failed. -/
structure Batch (Request Fd : Type) where
  fileno : Request → Option Fd
  ready : List Fd
  completes : Request → Bool → Bool

structure Worker (Request : Type) where
  active : List Request
  pending : List Request
  /-- the requests that have been advanced, with `socket_ready` -/
  advanced : List (Request × Bool)

section Iteration

variable {Request Fd : Type} [DecidableEq Request] [DecidableEq Fd]

namespace Batch

variable (b : Batch Request Fd)

/-- `request.sock and request.sock.fileno() in ready` -/
def socketReady (request : Request) : Bool := (b.fileno request).any (· ∈ b.ready)

/-- The request is complete when the iteration has dealt with it. -/
def done (request : Request) : Bool := b.completes request (b.socketReady request)

end Batch

/-- `removeRequest` -/
def Worker.removeRequest (w : Worker Request) (request : Request) : Worker Request :=
  { w with active := w.active.erase request, pending := w.pending.erase request }

/-- The body of the loop. -/
def visit (b : Batch Request Fd) (w : Worker Request) (request : Request) : Worker Request :=
  let w := { w with advanced := w.advanced ++ [(request, b.socketReady request)] }
  if b.done request then w.removeRequest request else w

theorem length_visit_le (b : Batch Request Fd) (w : Worker Request) (request : Request) :
    (visit b w request).active.length ≤ w.active.length := by
  unfold visit
  dsimp only
  split
  · exact List.length_erase_le
  · exact le_rfl

/-- `for request in self._active_requests`, from an index on; the list is read anew for each
index. -/
def iterate (b : Batch Request Fd) (i : ℕ) (w : Worker Request) : Worker Request :=
  if h : i < w.active.length then iterate b (i + 1) (visit b w w.active[i]) else w
termination_by w.active.length - i
decreasing_by
  have := length_visit_le b w w.active[i]
  omega

/-! ### Which requests the loop comes to -/

/-- After these requests, the loop passes over the next one. -/
def passesOver (b : Batch Request Fd) (before : List Request) : Bool :=
  before.foldl (fun skip request => !skip && b.done request) false

/-- The requests that the loop comes to. -/
def visited (b : Batch Request Fd) : Bool → List Request → List Request
  | _, [] => []
  | true, _ :: rest => visited b false rest
  | false, request :: rest => request :: visited b (b.done request) rest

variable {b : Batch Request Fd} {w : Worker Request}

theorem visit_advanced (b : Batch Request Fd) (w : Worker Request) (request : Request) :
    (visit b w request).advanced = w.advanced ++ [(request, b.socketReady request)] := by
  unfold visit
  dsimp only
  split <;> rfl

/-- What is left of the list when the loop has come to a request. -/
theorem visit_active {before rest : List Request} {request : Request}
    (active : w.active = before ++ request :: rest) (distinct : w.active.Nodup) :
    (visit b w request).active =
      if b.done request then before ++ rest else before ++ request :: rest := by
  rw [active] at distinct
  have apart : request ∉ before := fun mem =>
    (List.nodup_append.mp distinct).2.2 request mem request List.mem_cons_self rfl
  unfold visit
  dsimp only
  split
  · simp only [Worker.removeRequest, active]
    rw [List.erase_append_right _ apart, List.erase_cons_head]
  · exact active

theorem iterate_of_le {i : ℕ} (h : w.active.length ≤ i) : iterate b i w = w := by
  unfold iterate
  exact dif_neg (Nat.not_lt.mpr h)

theorem iterate_of_active {before rest : List Request} {request : Request}
    (active : w.active = before ++ request :: rest) :
    iterate b before.length w = iterate b (before.length + 1) (visit b w request) := by
  rw [iterate, dif_pos (by rw [active, List.length_append, List.length_cons]; omega)]
  congr 2
  simp [active]

/-- The loop from an index on, with what is before the index and what is after it. -/
theorem iterate_advanced {before rest : List Request} (active : w.active = before ++ rest)
    (distinct : w.active.Nodup) :
    (iterate b before.length w).advanced =
      w.advanced ++ (visited b false rest).map fun request => (request, b.socketReady request) := by
  induction rest using List.twoStepInduction generalizing w before with
  | nil =>
      rw [iterate_of_le (by rw [active, List.append_nil])]
      simp [visited]
  | singleton request =>
      have left := visit_active (b := b) active distinct
      rw [iterate_of_active active, iterate_of_le, visit_advanced]
      · cases b.done request <;> rfl
      · rw [left]
        split <;> simp
  | cons_cons request next rest after_next after =>
      have left := visit_active (b := b) active distinct
      rw [iterate_of_active active]
      by_cases done : b.done request
      · -- the next request has taken the place of the one that was removed
        rw [if_pos done, List.append_cons] at left
        have distinct' : (visit b w request).active.Nodup := by
          rw [active] at distinct
          rw [left, ← List.append_cons]
          have fewer := List.sublist_cons_self request (next :: rest)
          exact distinct.sublist (fewer.append_left before)
        have := after_next left distinct'
        rw [List.length_append, List.length_singleton, visit_advanced] at this
        have step : visited b false (request :: next :: rest) =
            request :: visited b (b.done request) (next :: rest) := rfl
        rw [this, step, done]
        simp [visited]
      · rw [if_neg done, List.append_cons] at left
        have distinct' : (visit b w request).active.Nodup := by
          rw [left, ← List.append_cons, ← active]
          exact distinct
        have := after next left distinct'
        rw [List.length_append, List.length_singleton, visit_advanced] at this
        have step : visited b false (request :: next :: rest) =
            request :: visited b (b.done request) (next :: rest) := rfl
        rw [this, step, eq_false_of_ne_true done]
        simp

omit [DecidableEq Request] in
/-- The loop comes to a request just if it does not pass over it. -/
theorem mem_visited {before after : List Request} {request : Request} {skip : Bool}
    (distinct : (before ++ request :: after).Nodup) :
    request ∈ visited b skip (before ++ request :: after) ↔
      before.foldl (fun skip request => !skip && b.done request) skip = false := by
  induction before generalizing skip with
  | nil =>
      have apart : request ∉ after := (List.nodup_cons.mp distinct).1
      have notLater (skip : Bool) {l : List Request} (notMem : request ∉ l) :
          request ∉ visited b skip l := by
        induction l generalizing skip with
        | nil => cases skip <;> exact List.not_mem_nil
        | cons first l ih =>
            have differs : request ≠ first := List.ne_of_not_mem_cons notMem
            have notMem := List.not_mem_of_not_mem_cons notMem
            cases skip with
            | true => exact ih false notMem
            | false =>
                exact List.not_mem_cons_of_ne_of_not_mem differs (ih (b.done first) notMem)
      rw [List.nil_append]
      cases skip with
      | true => exact iff_of_false (notLater false apart) nofun
      | false => exact iff_of_true List.mem_cons_self rfl
  | cons first before ih =>
      obtain ⟨apart, distinct⟩ := List.nodup_cons.mp distinct
      rw [List.foldl_cons]
      cases skip with
      | true => exact ih distinct
      | false =>
          have differs : request ≠ first := fun same =>
            apart (same ▸ List.mem_append_right _ List.mem_cons_self)
          rw [← ih distinct]
          exact List.mem_cons.trans (or_iff_right differs)

/-- The requests directly before that are complete when they have been dealt with. -/
def doneBefore (b : Batch Request Fd) (before : List Request) : ℕ :=
  (before.reverse.takeWhile b.done).length

omit [DecidableEq Request] in
theorem passesOver_iff (b : Batch Request Fd) (before : List Request) :
    passesOver b before = false ↔ Even (doneBefore b before) := by
  unfold passesOver doneBefore
  induction before using List.reverseRecOn with
  | nil => exact iff_of_true rfl Even.zero
  | append_singleton before request ih =>
      rw [List.foldl_append, List.foldl_cons, List.foldl_nil, List.reverse_append,
        List.reverse_singleton, List.singleton_append, List.takeWhile_cons]
      cases done : b.done request with
      | false => simp
      | true =>
          rw [if_pos rfl, List.length_cons, Nat.even_add_one, ← ih]
          cases before.foldl (fun skip request => !skip && b.done request) false <;> decide

/-- Each request whose socket `poll` has reported is advanced as one whose socket is ready. -/
def NoEventLost (b : Batch Request Fd) (w : Worker Request) : Prop :=
  ∀ request ∈ w.active, b.socketReady request = true →
    (request, true) ∈ (iterate b 0 w).advanced

/-- No event is lost in an iteration exactly if an even number of requests that are complete
comes directly before each request that is ready. -/
theorem noEventLost_iff (b : Batch Request Fd) {active pending : List Request}
    (distinct : active.Nodup) :
    NoEventLost b ⟨active, pending, []⟩ ↔
      ∀ before request after, active = before ++ request :: after →
        b.socketReady request = true → Even (doneBefore b before) := by
  have whole : (⟨active, pending, []⟩ : Worker Request).active = [] ++ active := rfl
  have advanced := iterate_advanced (b := b) whole distinct
  rw [List.length_nil, List.nil_append] at advanced
  have came {request : Request} (ready : b.socketReady request = true) :
      (request, true) ∈ (iterate b 0 ⟨active, pending, []⟩).advanced ↔
        request ∈ visited b false active := by
    rw [advanced]
    constructor
    · intro mem
      obtain ⟨_, mem, same⟩ := List.mem_map.mp mem
      exact (Prod.mk.inj same).1 ▸ mem
    · exact fun mem => List.mem_map.mpr ⟨request, mem, by rw [ready]⟩
  constructor
  · rintro kept before request after rfl ready
    have mem := (came ready).mp (kept request (by simp) ready)
    exact (passesOver_iff b before).mp ((mem_visited distinct).mp mem)
  · intro even request mem ready
    obtain ⟨before, after, rfl⟩ := List.append_of_mem mem
    refine (came ready).mpr ((mem_visited distinct).mpr ?_)
    exact (passesOver_iff b before).mpr (even before request after rfl ready)

end Iteration

/-! ### Two requests -/

/-- Two requests with the descriptors 5 and 6, both of them reported; the first one is complete
when it is advanced, or not. -/
def exampleBatch (completes : Bool) : Batch ℕ ℕ where
  fileno request := some (request + 5)
  ready := [5, 6]
  completes request _ := completes && request = 0

theorem noEventLost_iff_example : NoEventLost (exampleBatch false) ⟨[0, 1], [], []⟩ :=
  (noEventLost_iff (exampleBatch false) (by decide)).mpr fun before request after _ _ => by
    have : doneBefore (exampleBatch false) before = 0 := by
      unfold doneBefore
      cases before.reverse <;> rfl
    rw [this]
    exact Even.zero

/-- The second request is passed over. -/
theorem exampleBatch_lost :
    (iterate (exampleBatch true) 0 ⟨[0, 1], [], []⟩).advanced = [(0, true)] ∧
      ¬ NoEventLost (exampleBatch true) ⟨[0, 1], [], []⟩ := by
  have whole : (⟨[0, 1], [], []⟩ : Worker ℕ).active = [] ++ [0, 1] := rfl
  have advanced : (iterate (exampleBatch true) 0 ⟨[0, 1], [], []⟩).advanced = [(0, true)] :=
    iterate_advanced (b := exampleBatch true) whole (by decide)
  refine ⟨advanced, fun kept => ?_⟩
  have := kept 1 (by decide) rfl
  rw [advanced] at this
  exact absurd this (by decide)

end Nodepool.Nodescan
