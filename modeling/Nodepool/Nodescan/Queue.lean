import Mathlib.Tactic
import Nodepool.Base.Always

/-!
The requests of the `NodescanWorker` of `nodepool/driver/statemachine.py`: `addRequest` and
`removeRequest` are called by any number of threads, while the worker promotes pending requests
and removes those that are complete. Each operation on a list is one step.
-/

namespace Nodepool.Nodescan.Queue

/-- Where the thread of the worker is in `run`. -/
inductive Phase (Request : Type) where
  /-- it looks at the pending requests next -/
  | top
  /-- there was a pending request -/
  | sawPending
  /-- and there was room for it -/
  | sawRoom
  /-- it has taken a request from the pending list -/
  | holding (request : Request)
  /-- it advances the active requests -/
  | advancing
  /-- it removes a request that is complete -/
  | removing (request : Request)
  /-- the active list is behind it -/
  | removingPending (request : Request)
  /-- the thread has ended with an `IndexError` -/
  | ended

structure State (Request : Type) where
  maxRequests : ℕ
  active : List Request
  pending : List Request
  /-- the calls of `addRequest` that have made their comparison, and whether there was no room -/
  adding : List (Request × Bool)
  /-- the calls of `removeRequest` under way, and whether the active list is behind them -/
  removing : List (Request × Bool)
  worker : Phase Request
  complete : List Request
  /-- the requests for which `removeRequest` has been called -/
  removed : List Request
  /-- the requests that were put in a list, in this order -/
  added : List Request
  /-- the requests that have become active, in this order -/
  activated : List Request

def initial (Request : Type) (maxRequests : ℕ) : State Request where
  maxRequests := maxRequests
  active := []
  pending := []
  adding := []
  removing := []
  worker := .top
  complete := []
  removed := []
  added := []
  activated := []

inductive Action (Request : Type) where
  /-- `addRequest` is called with a new request, and compares the length of the active list -/
  | addRequest (request : Request)
  /-- and it puts the request in the pending list or in the active one -/
  | append (request : Request) (full : Bool)
  | removeRequest (request : Request)
  /-- a call of `removeRequest` goes through its next list -/
  | remove (request : Request) (pending : Bool)
  /-- the worker takes its next step; while it advances requests, one may become complete -/
  | work (completes : Option Request)

section Step

variable {Request : Type} [DecidableEq Request]

namespace State

def append (s : State Request) (request : Request) (full : Bool) : State Request :=
  let s := { s with
    adding := s.adding.erase (request, full)
    added := s.added ++ [request] }
  if full then { s with pending := s.pending ++ [request] }
  else { s with
    active := s.active ++ [request]
    activated := s.activated ++ [request] }

def remove (s : State Request) (request : Request) (pending : Bool) : State Request :=
  let s := { s with removing := s.removing.erase (request, pending) }
  if pending then { s with pending := s.pending.erase request }
  else { s with
    active := s.active.erase request
    removing := (request, true) :: s.removing }

def work (s : State Request) (completes : Option Request) : State Request :=
  match s.worker with
  | .top => { s with worker := if s.pending.isEmpty then .advancing else .sawPending }
  | .sawPending =>
      { s with worker := if s.active.length < s.maxRequests then .sawRoom else .advancing }
  | .sawRoom =>
      match s.pending with
      | [] => { s with worker := .ended }
      | request :: pending => { s with pending := pending, worker := .holding request }
  | .holding request => { s with
      active := s.active ++ [request]
      activated := s.activated ++ [request]
      worker := .top }
  | .advancing =>
      match completes with
      | none => { s with worker := .top }
      | some request => { s with
          complete := request :: s.complete
          worker := .removing request }
  | .removing request => { s with
      active := s.active.erase request
      worker := .removingPending request }
  | .removingPending request => { s with
      pending := s.pending.erase request
      worker := .advancing }
  | .ended => s

end State

def step (s : State Request) : Action Request → State Request
  | .addRequest request =>
      if request ∈ s.added ++ s.adding.map Prod.fst then s
      else { s with
        adding := s.adding ++ [(request, decide (s.maxRequests ≤ s.active.length))] }
  | .append request full => if (request, full) ∈ s.adding then s.append request full else s
  | .removeRequest request => { s with
      removed := request :: s.removed
      removing := (request, false) :: s.removing }
  | .remove request pending =>
      if (request, pending) ∈ s.removing then s.remove request pending else s
  | .work completes => s.work completes

/-! ### What is asked -/

namespace State

variable (s : State Request)

/-- The request is complete, or `removeRequest` has been called for it. -/
def Gone (request : Request) : Prop := request ∈ s.complete ∨ request ∈ s.removed

def Live (request : Request) : Prop := request ∈ s.added ∧ ¬ s.Gone request

def InOneList (request : Request) : Prop :=
  s.active.count request + s.pending.count request = 1

/-- What the worker has in its hand. -/
def held : List Request :=
  match s.worker with
  | .holding request => [request]
  | _ => []

/-- The requests that have not become active yet. -/
def waiting : List Request := s.held ++ s.pending

/-- The bound on the active requests and their order. -/
structure Ordered : Prop where
  bound : s.active.length ≤ s.maxRequests
  /-- requests become active in the order in which they were added -/
  order : s.activated.Sublist s.added
  /-- and not before one that was added earlier and is still waiting -/
  turn : ∀ waits ∈ s.waiting, ∀ request ∈ s.activated, [request, waits].Sublist s.added

def Right : Prop := (∀ request, s.Live request → s.InOneList request) ∧ s.Ordered

/-- The same, apart from the request that the worker has in its hand. -/
def RightButHeld : Prop :=
  (∀ request, s.Live request → s.worker ≠ .holding request → s.InOneList request) ∧ s.Ordered

/-- The worker has no request in its hand that is still to be scanned. -/
def HandFree : Prop := ∀ request, s.worker = .holding request → s.Gone request

end State

/-- A request is put in the active list only when there is room for it, and without a detour
through the pending list only when no other one is waiting. -/
def Orderly (s : State Request) : Action Request → Prop
  | .append request full => (request, full) ∈ s.adding → full = false →
      s.active.length < s.maxRequests ∧ s.waiting = []
  | .work _ => ∀ request, s.worker = .holding request → s.active.length < s.maxRequests
  | _ => True

/-- A request that the worker takes from the pending list is no longer to be scanned. -/
def TakesGone (s : State Request) (action : Action Request) : Prop :=
  ∀ completes request, action = .work completes → s.worker = .sawRoom →
    s.pending.head? = some request → s.Gone request

/-! ### What is kept -/

structure Inv (s : State Request) : Prop where
  /-- a request is added once -/
  distinct : (s.added ++ s.adding.map Prod.fst).Nodup
  ordered : (s.activated ++ s.waiting).Sublist s.added
  within : s.active ⊆ s.activated
  /-- it is in one list or in the hand of the worker -/
  once : ∀ request, s.Live request → s.active.count request + s.waiting.count request = 1
  bound : s.active.length ≤ s.maxRequests
  /-- what is removed is no longer to be scanned -/
  leaving : ∀ request pending, (request, pending) ∈ s.removing → s.Gone request
  completed : ∀ request, s.worker = .removing request ∨ s.worker = .removingPending request →
    s.Gone request

variable {s : State Request}

theorem Inv.initial (maxRequests : ℕ) : Inv (initial Request maxRequests) where
  distinct := List.nodup_nil
  ordered := List.Sublist.refl []
  within := List.Subset.refl []
  once _ live := absurd live.1 List.not_mem_nil
  bound := Nat.zero_le maxRequests
  leaving _ _ mem := absurd mem List.not_mem_nil
  completed _ worker := by rcases worker with worker | worker <;> cases worker

theorem count_erase_of_live {request live : Request} (gone : s.Gone request) (isLive : s.Live live)
    (l : List Request) : (l.erase request).count live = l.count live := by
  refine List.count_erase_of_ne ?_
  rintro rfl
  exact isLive.2 gone

theorem Inv.addRequest (inv : Inv s) (request : Request) :
    Inv (step s (.addRequest request)) := by
  unfold step
  dsimp only
  split
  · exact inv
  · rename_i new
    refine { inv with distinct := ?_ }
    rw [List.map_append, ← List.append_assoc]
    exact List.nodup_append.mpr ⟨inv.distinct, List.nodup_singleton request, fun a mem b memB => by
      rw [List.mem_singleton.mp memB]
      rintro rfl
      exact new mem⟩

/-- What is known of a request that is about to be put in a list. -/
theorem Inv.fresh (inv : Inv s) {request : Request} {full : Bool}
    (mem : (request, full) ∈ s.adding) : request ∉ s.added := fun added =>
  (List.nodup_append.mp inv.distinct).2.2 request added request
    (List.mem_map_of_mem (f := Prod.fst) mem) rfl

theorem Inv.distinct_append (inv : Inv s) {request : Request} {full : Bool}
    (mem : (request, full) ∈ s.adding) :
    ((s.added ++ [request]) ++ (s.adding.erase (request, full)).map Prod.fst).Nodup := by
  have perm := (List.perm_cons_erase mem).map Prod.fst
  rw [List.append_assoc]
  exact (perm.append_left s.added).nodup_iff.mp inv.distinct

theorem Inv.mem_added (inv : Inv s) {request : Request}
    (mem : request ∈ s.activated ++ s.waiting) : request ∈ s.added :=
  inv.ordered.subset mem

/-- A request that is put in a list has been in none. -/
theorem Inv.count_fresh (inv : Inv s) {request : Request} (fresh : request ∉ s.added) :
    s.active.count request = 0 ∧ s.waiting.count request = 0 := by
  constructor
  · exact List.count_eq_zero.mpr fun mem =>
      fresh (inv.mem_added (List.mem_append_left _ (inv.within mem)))
  · exact List.count_eq_zero.mpr fun mem => fresh (inv.mem_added (List.mem_append_right _ mem))

theorem Inv.append (inv : Inv s) {request : Request} {full : Bool}
    (orderly : Orderly s (.append request full)) : Inv (step s (.append request full)) := by
  unfold step
  dsimp only
  split
  · rename_i mem
    have fresh := inv.fresh mem
    obtain ⟨notActive, notWaiting⟩ := inv.count_fresh fresh
    have older {other : Request} (differs : other ≠ request)
        (live : other ∈ s.added ++ [request] ∧ ¬ s.Gone other) :
        s.active.count other + s.waiting.count other = 1 := by
      have added : other ∈ s.added := by
        rcases List.mem_append.mp live.1 with added | new
        · exact added
        · exact absurd (List.mem_singleton.mp new) differs
      exact inv.once other ⟨added, live.2⟩
    cases full with
    | true =>
        have waiting : (s.append request true).waiting = s.waiting ++ [request] :=
          (List.append_assoc s.held s.pending [request]).symm
        refine ⟨inv.distinct_append mem, ?_, inv.within, ?_, inv.bound, inv.leaving,
          inv.completed⟩
        · rw [waiting, ← List.append_assoc]
          exact inv.ordered.append_right [request]
        · intro other live
          rw [waiting, List.count_append]
          by_cases same : other = request
          · subst same
            rw [List.count_singleton_self]
            change s.active.count other + _ = 1
            rw [notActive, notWaiting]
          · rw [List.count_singleton, if_neg (by simpa using Ne.symm same)]
            exact older same live
    | false =>
        obtain ⟨room, none⟩ := orderly mem rfl
        have waiting : (s.append request false).waiting = [] := none
        refine ⟨inv.distinct_append mem, ?_, ?_, ?_, ?_, inv.leaving, inv.completed⟩
        · have ordered := inv.ordered
          rw [none, List.append_nil] at ordered
          rw [waiting, List.append_nil]
          exact ordered.append_right [request]
        · exact List.append_subset.mpr ⟨fun _ mem => List.mem_append_left _ (inv.within mem),
            List.subset_append_right _ _⟩
        · intro other live
          rw [waiting]
          change (s.active ++ [request]).count other + 0 = 1
          rw [List.count_append]
          by_cases same : other = request
          · subst same
            rw [List.count_singleton_self, notActive]
          · rw [List.count_singleton, if_neg (by simpa using Ne.symm same)]
            have := older same live
            rw [none] at this
            exact this
        · change (s.active ++ [request]).length ≤ s.maxRequests
          rw [List.length_append]
          exact room
  · exact inv

theorem Inv.removeRequest (inv : Inv s) (request : Request) :
    Inv (step s (.removeRequest request)) := by
  have gone {other : Request} (gone : s.Gone other) :
      (step s (.removeRequest request)).Gone other :=
    gone.imp_right (List.mem_cons_of_mem request)
  refine ⟨inv.distinct, inv.ordered, inv.within, ?_, inv.bound, ?_, ?_⟩
  · exact fun other live => inv.once other ⟨live.1, fun was => live.2 (gone was)⟩
  · intro other pending mem
    rcases List.mem_cons.mp mem with same | mem
    · cases same
      exact .inr List.mem_cons_self
    · exact gone (inv.leaving other pending mem)
  · exact fun other worker => gone (inv.completed other worker)

theorem Inv.remove (inv : Inv s) (request : Request) (pending : Bool) :
    Inv (step s (.remove request pending)) := by
  unfold step
  dsimp only
  split
  · rename_i mem
    have gone := inv.leaving request pending mem
    cases pending with
    | true =>
        refine ⟨inv.distinct, ?_, inv.within, ?_, inv.bound, ?_, inv.completed⟩
        · have fewer : (s.held ++ s.pending.erase request).Sublist s.waiting :=
            List.erase_sublist.append_left s.held
          exact (fewer.append_left s.activated).trans inv.ordered
        · intro other live
          change s.active.count other + (s.held ++ s.pending.erase request).count other = 1
          rw [List.count_append, count_erase_of_live gone live, ← List.count_append]
          exact inv.once other live
        · exact fun other pending mem => inv.leaving other pending (List.mem_of_mem_erase mem)
    | false =>
        refine ⟨inv.distinct, inv.ordered, ?_, ?_, ?_, ?_, inv.completed⟩
        · exact fun _ mem => inv.within (List.mem_of_mem_erase mem)
        · intro other live
          change (s.active.erase request).count other + s.waiting.count other = 1
          rw [count_erase_of_live gone live]
          exact inv.once other live
        · exact List.length_erase_le.trans inv.bound
        · intro other pending mem
          rcases List.mem_cons.mp mem with same | mem
          · cases same
            exact gone
          · exact inv.leaving other pending (List.mem_of_mem_erase mem)
  · exact inv

/-- The worker goes on, with nothing in its hand and nothing to remove. -/
theorem Inv.goOn (inv : Inv s) (empty : s.held = []) (worker : Phase Request)
    (idle : worker = .top ∨ worker = .sawPending ∨ worker = .sawRoom ∨ worker = .advancing ∨
      worker = .ended) : Inv { s with worker := worker } := by
  have waiting : ({ s with worker := worker } : State Request).waiting = s.waiting := by
    unfold State.waiting
    rw [empty]
    rcases idle with rfl | rfl | rfl | rfl | rfl <;> rfl
  refine { inv with
    ordered := waiting ▸ inv.ordered
    once := fun other live => ?_
    completed := ?_ }
  · rw [waiting]
    exact inv.once other live
  · rintro request (removing | removing) <;> cases removing <;> simp at idle

theorem Inv.work (inv : Inv s) {completes : Option Request}
    (orderly : Orderly s (.work completes)) : Inv (step s (.work completes)) := by
  obtain ⟨maxRequests, active, pending, adding, removing, worker, complete, removed, added,
    activated⟩ := s
  cases worker with
  | top =>
      unfold step State.work
      refine inv.goOn rfl _ ?_
      split <;> simp
  | sawPending =>
      unfold step State.work
      refine inv.goOn rfl _ ?_
      split <;> simp
  | sawRoom =>
      cases pending with
      | nil => exact inv.goOn rfl .ended (by simp)
      | cons request pending =>
          exact { inv with completed := by rintro request (worker | worker) <;> cases worker }
  | holding request =>
      refine { inv with ordered := ?_, within := ?_, once := ?_, bound := ?_, completed := ?_ }
      · have ordered : (activated ++ request :: pending).Sublist added := inv.ordered
        rw [List.append_cons] at ordered
        exact ordered
      · exact List.append_subset.mpr ⟨fun _ mem => List.mem_append_left _ (inv.within mem),
          List.subset_append_right _ _⟩
      · intro other live
        have once : active.count other + (request :: pending).count other = 1 :=
          inv.once other live
        change (active ++ [request]).count other + pending.count other = 1
        rw [List.count_append, Nat.add_assoc, ← List.count_append, List.singleton_append]
        exact once
      · change (active ++ [request]).length ≤ maxRequests
        rw [List.length_append]
        exact orderly request rfl
      · rintro request (worker | worker) <;> cases worker
  | advancing =>
      cases completes with
      | none => exact inv.goOn rfl .top (.inl rfl)
      | some request =>
          refine ⟨inv.distinct, inv.ordered, inv.within, ?_, inv.bound, ?_, ?_⟩
          · exact fun other live => inv.once other
              ⟨live.1, fun was => live.2 (was.imp_left (List.mem_cons_of_mem request))⟩
          · exact fun other pending mem =>
              (inv.leaving other pending mem).imp_left (List.mem_cons_of_mem request)
          · rintro other (worker | worker) <;> cases worker
            exact .inl List.mem_cons_self
  | removing request =>
      have gone := inv.completed request (.inl rfl)
      refine ⟨inv.distinct, inv.ordered, ?_, ?_, ?_, inv.leaving, ?_⟩
      · exact fun _ mem => inv.within (List.mem_of_mem_erase mem)
      · intro other live
        change (active.erase request).count other + pending.count other = 1
        rw [count_erase_of_live gone live]
        exact inv.once other live
      · exact List.length_erase_le.trans inv.bound
      · rintro other (worker | worker) <;> cases worker
        exact gone
  | removingPending request =>
      have gone := inv.completed request (.inr rfl)
      refine ⟨inv.distinct, ?_, inv.within, ?_, inv.bound, inv.leaving, ?_⟩
      · have fewer : (pending.erase request).Sublist pending := List.erase_sublist
        exact (fewer.append_left activated).trans inv.ordered
      · intro other live
        change active.count other + (pending.erase request).count other = 1
        rw [count_erase_of_live gone live]
        exact inv.once other live
      · rintro other (worker | worker) <;> cases worker
  | ended => exact inv

theorem Inv.after (inv : Inv s) (action : Action Request) (orderly : Orderly s action) :
    Inv (step s action) := by
  cases action with
  | addRequest request => exact inv.addRequest request
  | append request full => exact inv.append orderly
  | removeRequest request => exact inv.removeRequest request
  | remove request pending => exact inv.remove request pending
  | work completes => exact inv.work orderly

omit [DecidableEq Request] in
theorem held_of_holding {request : Request} (holding : s.worker = .holding request) :
    s.held = [request] := by
  unfold State.held
  rw [holding]

omit [DecidableEq Request] in
theorem held_of_ne (free : ∀ request, s.worker ≠ .holding request) : s.held = [] := by
  unfold State.held
  cases worker : s.worker with
  | holding request => exact absurd worker (free request)
  | top => rfl
  | sawPending => rfl
  | sawRoom => rfl
  | advancing => rfl
  | removing request => rfl
  | removingPending request => rfl
  | ended => rfl

/-- Where a live request is. -/
theorem Inv.inOneList_iff (inv : Inv s) {request : Request} (live : s.Live request) :
    s.InOneList request ↔ s.worker ≠ .holding request := by
  have once := inv.once request live
  unfold State.waiting at once
  rw [List.count_append] at once
  unfold State.InOneList
  by_cases holding : ∃ other, s.worker = .holding other
  · obtain ⟨other, holding⟩ := holding
    rw [held_of_holding holding] at once
    rw [holding]
    by_cases same : request = other
    · subst same
      rw [List.count_singleton_self] at once
      exact iff_of_false (by omega) (fun ne => ne rfl)
    · rw [List.count_singleton, if_neg (by simpa using Ne.symm same)] at once
      refine iff_of_true (by omega) fun holding => same ?_
      cases holding
      rfl
  · rw [held_of_ne fun other => not_exists.mp holding other] at once
    exact iff_of_true (by simpa using once) (not_exists.mp holding request)

theorem Inv.inOrder (inv : Inv s) : s.Ordered where
  bound := inv.bound
  order := (List.sublist_append_left s.activated s.waiting).trans inv.ordered
  turn _ memWaits _ mem :=
    ((List.singleton_sublist.mpr mem).append (List.singleton_sublist.mpr memWaits)).trans
      inv.ordered

theorem Inv.rightButHeld (inv : Inv s) : s.RightButHeld :=
  ⟨fun _ live free => (inv.inOneList_iff live).mpr free, inv.inOrder⟩

omit [DecidableEq Request] in
/-- A request that comes last does not come before another one. -/
theorem not_sublist_append_singleton {l : List Request} {request waits : Request}
    (fresh : request ∉ l) : ¬ [request, waits].Sublist (l ++ [request]) := by
  intro sub
  obtain ⟨left, right, parts, subLeft, subRight⟩ := List.sublist_append_iff.mp sub
  cases left with
  | nil =>
      have := subRight.length_le
      rw [← (List.nil_append right).symm.trans parts.symm |>.symm] at this
      exact absurd this (by simp)
  | cons first left =>
      have same : request = first := (List.cons.inj parts).1
      exact fresh (same ▸ subLeft.subset List.mem_cons_self)

/-- What is asked, apart from the request in the hand of the worker, holds after a step exactly
if the step is orderly. -/
theorem Inv.rightButHeld_step (inv : Inv s) (action : Action Request) :
    (step s action).RightButHeld ↔ Orderly s action := by
  constructor
  · rintro ⟨-, ordered⟩
    cases action with
    | append request full =>
        rintro mem rfl
        unfold step at ordered
        dsimp only at ordered
        rw [if_pos mem] at ordered
        constructor
        · have bound : (s.active ++ [request]).length ≤ s.maxRequests := ordered.bound
          rw [List.length_append] at bound
          exact bound
        · refine List.eq_nil_iff_forall_not_mem.mpr fun waits memWaits => ?_
          have turn : [request, waits].Sublist (s.added ++ [request]) :=
            ordered.turn waits memWaits request (List.mem_append_right _ List.mem_cons_self)
          exact not_sublist_append_singleton (inv.fresh mem) turn
    | work completes =>
        intro request holding
        have bound := ordered.bound
        unfold step State.work at bound
        dsimp only at bound
        rw [holding] at bound
        have bound : (s.active ++ [request]).length ≤ s.maxRequests := bound
        rw [List.length_append] at bound
        exact bound
    | addRequest request => trivial
    | removeRequest request => trivial
    | remove request pending => trivial
  · exact fun orderly => (inv.after action orderly).rightButHeld

/-- What is asked holds in full if moreover the hand of the worker is free. -/
theorem Inv.right_iff (inv : Inv s) : s.Right ↔ s.HandFree := by
  constructor
  · rintro ⟨inOne, -⟩ request holding
    by_contra notGone
    have mem : request ∈ s.waiting := by
      unfold State.waiting
      rw [held_of_holding holding]
      exact List.mem_cons_self
    have live : s.Live request := ⟨inv.mem_added (List.mem_append_right _ mem), notGone⟩
    exact (inv.inOneList_iff live).mp (inOne request live) holding
  · intro free
    refine ⟨fun request live => (inv.inOneList_iff live).mpr fun holding => ?_, inv.inOrder⟩
    exact live.2 (free request holding)

/-- A request that is gone stays so. -/
theorem gone_step {request : Request} (gone : s.Gone request) (action : Action Request) :
    (step s action).Gone request := by
  cases action with
  | addRequest other =>
      unfold step
      dsimp only
      split <;> exact gone
  | append other full =>
      unfold step State.append
      dsimp only
      split
      · split <;> exact gone
      · exact gone
  | removeRequest other => exact gone.imp_right (List.mem_cons_of_mem other)
  | remove other pending =>
      unfold step State.remove
      dsimp only
      split
      · split <;> exact gone
      · exact gone
  | work completes =>
      obtain ⟨maxRequests, active, pending, adding, removing, worker, complete, removed, added,
        activated⟩ := s
      cases worker with
      | sawRoom => cases pending <;> exact gone
      | advancing =>
          cases completes with
          | none => exact gone
          | some other => exact gone.imp_left (List.mem_cons_of_mem other)
      | top => exact gone
      | sawPending => exact gone
      | holding other => exact gone
      | removing other => exact gone
      | removingPending other => exact gone
      | ended => exact gone

/-- The hand of the worker stays free exactly if it takes only what is gone. -/
theorem handFree_step (free : s.HandFree) (action : Action Request) :
    (step s action).HandFree ↔ TakesGone s action := by
  constructor
  · rintro freeAfter completes request rfl sawRoom first
    obtain ⟨maxRequests, active, pending, adding, removing, worker, complete, removed, added,
      activated⟩ := s
    cases sawRoom
    cases pending with
    | nil => cases first
    | cons other pending =>
        cases first
        exact freeAfter request rfl
  · intro takesGone request holding
    cases action with
    | addRequest other =>
        refine gone_step (free request ?_) (.addRequest other)
        unfold step at holding
        dsimp only at holding
        split at holding <;> exact holding
    | append other full =>
        refine gone_step (free request ?_) (.append other full)
        unfold step State.append at holding
        dsimp only at holding
        split at holding
        · split at holding <;> exact holding
        · exact holding
    | removeRequest other => exact gone_step (free request holding) (.removeRequest other)
    | remove other pending =>
        refine gone_step (free request ?_) (.remove other pending)
        unfold step State.remove at holding
        dsimp only at holding
        split at holding
        · split at holding <;> exact holding
        · exact holding
    | work completes =>
        obtain ⟨maxRequests, active, pending, adding, removing, worker, complete, removed, added,
          activated⟩ := s
        cases worker with
        | sawRoom =>
            cases pending with
            | nil => cases holding
            | cons other pending =>
                cases holding
                exact takesGone completes request rfl rfl rfl
        | advancing => cases completes <;> cases holding
        | top =>
            unfold step State.work at holding
            dsimp only at holding
            split at holding <;> cases holding
        | sawPending =>
            unfold step State.work at holding
            dsimp only at holding
            split at holding <;> cases holding
        | holding other => cases holding
        | removing other => cases holding
        | removingPending other => cases holding
        | ended => cases holding

/-- In every run, apart from the request that the worker has in its hand, each request is in one
list, the bound is kept and requests become active in their order, exactly if each step is
orderly; and this holds of all requests exactly if moreover the worker takes no request from the
pending list that is still to be scanned. -/
theorem right_run_iff (maxRequests : ℕ) (actions : List (Action Request)) :
    (Always step (fun s action => (step s action).RightButHeld) (initial Request maxRequests)
        actions ↔
      Always step Orderly (initial Request maxRequests) actions) ∧
    (Always step (fun s action => (step s action).Right) (initial Request maxRequests) actions ↔
      Always step (fun s action => Orderly s action ∧ TakesGone s action)
        (initial Request maxRequests) actions) := by
  constructor
  · exact always_iff (Inv.initial maxRequests)
      (fun _ action inv orderly => inv.after action orderly)
      fun _ action inv => inv.rightButHeld_step action
  · refine always_iff (I := fun s => Inv s ∧ s.HandFree) ⟨Inv.initial maxRequests, nofun⟩ ?_ ?_
    · rintro s action ⟨inv, free⟩ ⟨orderly, takesGone⟩
      exact ⟨inv.after action orderly, (handFree_step free action).mpr takesGone⟩
    · rintro s action ⟨inv, free⟩
      constructor
      · intro right
        have orderly := (inv.rightButHeld_step action).mp
          ⟨fun request live _ => right.1 request live, right.2⟩
        exact ⟨orderly, (handFree_step free action).mp
          ((inv.after action orderly).right_iff.mp right)⟩
      · rintro ⟨orderly, takesGone⟩
        exact (inv.after action orderly).right_iff.mpr ((handFree_step free action).mpr takesGone)

end Step

/-! ### Room for one request -/

/-- Request 0 is active and request 1 waits. The worker sees no room, and request 0 becomes
complete; before the worker looks again, request 2 finds the room. -/
def overtaking : List (Action ℕ) :=
  [.addRequest 0, .append 0 false, .addRequest 1, .append 1 true, .work none, .work none,
    .work (some 0), .work none, .addRequest 2, .append 2 false]

/-- Two threads find the same room. -/
def sameRoom : List (Action ℕ) :=
  [.addRequest 0, .addRequest 1, .append 0 false, .append 1 false]

theorem overtaking_not_right :
    ¬ Always step (fun s action => (step s action).Right) (initial ℕ 1) overtaking ∧
      ¬ Always step (fun s action => (step s action).Right) (initial ℕ 1) sameRoom := by
  constructor
  · rintro ⟨-, -, -, -, -, -, -, -, -, ⟨-, ordered⟩, -⟩
    have turn : [2, 1].Sublist [0, 1, 2] :=
      ordered.turn 1 List.mem_cons_self 2 (List.mem_cons_of_mem 0 List.mem_cons_self)
    exact absurd turn (by decide)
  · rintro ⟨-, -, -, ⟨-, ordered⟩, -⟩
    have bound : 2 ≤ 1 := ordered.bound
    exact absurd bound (by decide)

end Nodepool.Nodescan.Queue
