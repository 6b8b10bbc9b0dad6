import Mathlib.Data.Prod.Lex
import Mathlib.Data.String.Basic
import Nodepool.Base.Sorted
import Nodepool.Base.Text
import Nodepool.Launcher.Calls
import Nodepool.Launcher.Deferral

/-!
One pass of `PoolWorker._assignHandlers` over the node requests.

What the pass asks of others (the clock, the driver, ZooKeeper, the handlers) is a
`Worker` over any state `S` of the rest of the process. Questions do not change the
state; locking, running and declining a request may. The pass keeps a list of what it
decided about each request it came to.
-/

namespace Nodepool.AssignHandlers

open Sorted

/-- A reason of `getDeclinedReasons`. -/
inductive Reason where
  | disabled
  | invalidTypes (types : List String)
  | imagesNotAvailable
  | exceedsQuota
deriving DecidableEq, Repr

/-- What became of a request that the pass came to. -/
inductive Outcome where
  | notRequested
  | declinedBefore
  | yieldedToProvider
  | yieldedToPriority
  | yieldedToLabels
  | labelsUnavailable
  | exceedsTenantQuota
  | pausedHandlers
  | limited
  | lockedByOther
  | removed
  | stateChanged
  | alreadyDeclined
  | declined (reasons : List Reason)
  | assigned
  /-- an exception that is not caught in the loop -/
  | raised (e : Err)
deriving DecidableEq, Repr

/-- What is read of a handler that has been run. -/
structure Handled where
  paused : Bool
  /-- the types of each node of its node set -/
  nodeset : List (List String)

/-- What a pass of a pool worker depends on. -/
structure Worker (S : Type) where
  pool : PoolWorker
  maxConcurrency : Int
  /-- the pools that are registered when the pass begins -/
  launcherPools : List PoolComponent
  running : S → Bool
  monotonic : S → Nat
  timeout : Nat
  /-- What `PoolWorker.run` does when the pass yields. -/
  betweenChunks : S → Except Err Unit × S
  checkTenantQuota : S → NodeRequest → Bool
  hasTenantQuota : S → NodeRequest → Except Err Bool
  /-- `pool.max_servers` -/
  maxServers : S → Number
  invalidNodeTypes : S → NodeRequest → Except Err (List String)
  imagesAvailable : S → NodeRequest → Except Err Bool
  hasProviderQuota : S → NodeRequest → Except Err Bool
  hasPausedHandlers : S → Bool
  activeThreads : S → Int
  /-- The request as it is read again with its lock held. -/
  lockNodeRequest : S → NodeRequest → Except Err NodeRequest × S
  unlockNodeRequest : S → NodeRequest → Except Err Unit × S
  run : S → NodeRequest → Except Err Handled × S
  declineRequest : S → NodeRequest → Except Err Unit × S
  /-- Add a handler to those of the worker. -/
  append : S → NodeRequest → Handled → S

/-- The mapping that `getLabelQuota` returns: a `Counter`, in which a missing label counts
as `0`, or a `defaultdict` of `math.inf`. Its method `get` knows nothing of this. -/
structure LabelQuotas where
  table : Dict String Number
  missing : Number

/-- The state of a pass between two requests. -/
structure State (S : Type) where
  world : S
  start : Nat
  /-- `label_quota`, for a provider with quota support -/
  labelQuota : Option LabelQuotas

variable {S : Type} (w : Worker S)

/-- Yield when the pass has taken too long. -/
def yieldIfLate (s : State S) : Except Err Unit × State S :=
  if w.monotonic s.world - s.start > w.timeout then
    let (outcome, world) := w.betweenChunks s.world
    match outcome with
    | .error e => (.error e, { s with world := world })
    | .ok () => (.ok (), { s with world := world, start := w.monotonic world })
  else (.ok (), s)

/-- `not all(label_quota.get(l, math.inf) > 0 for l in req.node_types)` -/
def labelsUnavailable (s : State S) (req : NodeRequest) : Bool :=
  match s.labelQuota with
  | none => false
  | some quota => req.nodeTypes.any fun l => !(quota.table.get l .inf).isPositive

def getDeclinedReasons (s : S) (req : NodeRequest) : Except Err (List Reason) := do
  let invalid ← w.invalidNodeTypes s req
  if (w.maxServers s).isNonPositive then return [.disabled]
  else if invalid ≠ [] then return [.invalidTypes invalid]
  else if ¬ (← w.imagesAvailable s req) then return [.imagesNotAvailable]
  else if ¬ (← w.hasProviderQuota s req) then return [.exceedsQuota]
  else return []

/-- An error when the quota of the tenant is checked defers the request. -/
def exceedsTenantQuota (s : S) (req : NodeRequest) : Bool :=
  if w.checkTenantQuota s req then
    match w.hasTenantQuota s req with
    | .ok fits => !fits
    | .error _ => true
  else false

/-- Why the pass passes over a request before it asks the driver. -/
def deferred (s : State S) (req : NodeRequest) : Option Outcome :=
  if req.state ≠ .requested then some .notRequested
  else if w.pool.launcherId ∈ req.declinedBy then some .declinedBefore
  else if w.pool.yieldsToProvider w.launcherPools req then some .yieldedToProvider
  else if w.pool.yieldsToPriority w.launcherPools req then some .yieldedToPriority
  else if w.pool.yieldsToLabels w.launcherPools req then some .yieldedToLabels
  else if labelsUnavailable s req then some .labelsUnavailable
  else if exceedsTenantQuota w s.world req then some .exceedsTenantQuota
  else none

/-- `label_quota[node_type] -= 1`. Neither mapping raises the `KeyError` that is suppressed. -/
def LabelQuotas.decrement (quota : LabelQuotas) (nodeType : String) : LabelQuotas :=
  { quota with
    table := quota.table.insert nodeType (quota.table.get nodeType quota.missing - .int 1) }

/-- Adjust the label quota to the nodes of a handler. -/
def adjust (quota : LabelQuotas) (nodeset : List (List String)) : LabelQuotas :=
  nodeset.flatten.foldl LabelQuotas.decrement quota

/-- The request is locked: run a handler for it, or decline it. -/
def handle (s : State S) (req : NodeRequest) (reasons : List Reason) : Outcome × State S :=
  if reasons = [] then
    match w.run s.world req with
    | (.error e, world) => (.raised e, { s with world := world })
    | (.ok rh, world) =>
        (.assigned, { s with
          world := w.append world req rh
          labelQuota := s.labelQuota.map fun quota => adjust quota rh.nodeset })
  else
    match w.declineRequest s.world req with
    | (.error e, world) => (.raised e, { s with world := world })
    | (.ok (), world) => (.declined reasons, { s with world := world })

/-- Unlock a request that has changed. -/
def release (s : State S) (req : NodeRequest) (o : Outcome) : Outcome × State S :=
  match w.unlockNodeRequest s.world req with
  | (.error e, world) => (.raised e, { s with world := world })
  | (.ok (), world) => (o, { s with world := world })

def lockAndHandle (s : State S) (req : NodeRequest) (reasons : List Reason) : Outcome × State S :=
  match w.lockNodeRequest s.world req with
  | (.error .zkLock, world) => (.lockedByOther, { s with world := world })
  | (.error .noNode, world) => (.removed, { s with world := world })
  | (.error e, world) => (.raised e, { s with world := world })
  | (.ok req, world) =>
      let s := { s with world := world }
      if req.state ≠ .requested then release w s req .stateChanged
      else if w.pool.launcherId ∈ req.declinedBy then release w s req .alreadyDeclined
      else handle w s req reasons

/-- One request of the pass. -/
def consider (s : State S) (req : NodeRequest) : Outcome × State S :=
  match deferred w s req with
  | some o => (o, s)
  | none =>
      match getDeclinedReasons w s.world req with
      | .error e => (.raised e, s)
      | .ok reasons =>
          if reasons = [] ∧ w.hasPausedHandlers s.world then (.pausedHandlers, s)
          else if reasons = [] ∧ 0 < w.maxConcurrency ∧
              w.maxConcurrency ≤ w.activeThreads s.world then (.limited, s)
          else lockAndHandle w s req reasons

/-- How a pass ends. -/
inductive End where
  | finished
  | stopped
  /-- the exception leaves the generator, which is not resumed -/
  | raised (e : Err)

structure Pass (S : Type) where
  considered : List (NodeRequest × Outcome)
  ending : End
  state : State S

/-- The loop over the sorted requests. -/
def loop : List NodeRequest → State S → Pass S
  | [], s => ⟨[], .finished, s⟩
  | req :: reqs, s =>
      if w.running s.world then
        match yieldIfLate w s with
        | (.error e, s) => ⟨[], .raised e, s⟩
        | (.ok (), s) =>
            match consider w s req with
            | (.raised e, s) => ⟨[(req, .raised e)], .raised e, s⟩
            | (o, s) =>
                let rest := loop reqs s
                { rest with considered := (req, o) :: rest.considered }
      else ⟨[], .stopped, s⟩

/-- `NodeRequest.priority`: the queue priority, which the id begins with, the relative priority,
and the order of submission. -/
def priority (req : NodeRequest) : Except Err (String ×ₗ ℤ ×ₗ String) :=
  match Text.split '-' req.id with
  | [precedence, sequence] => .ok (toLex (precedence, toLex (req.relativePriority, sequence)))
  -- not two values to unpack
  | _ => .error .other

/-- `_sort_key`: the requests that this pool can serve come first, then the priority. -/
def sortKey (pool : PoolWorker) (req : NodeRequest) : Except Err (ℕ ×ₗ String ×ₗ ℤ ×ₗ String) := do
  let p ← priority req
  pure (toLex ((pool.missingLabels req).eraseDups.length, p))

/-- A key that raises leaves the generator before its loop. -/
def assignHandlers (requests : List NodeRequest) (s : State S) : Pass S :=
  match sorted (sortKey w.pool) requests with
  | .error e => ⟨[], .raised e, s⟩
  | .ok requests => loop w requests s

/-! ### Passes in two parts -/

theorem loop_append (l₁ l₂ : List NodeRequest) : ∀ s : State S, loop w (l₁ ++ l₂) s =
    match loop w l₁ s with
    | ⟨considered, .finished, s'⟩ =>
        { loop w l₂ s' with considered := considered ++ (loop w l₂ s').considered }
    | pass => pass := by
  induction l₁ with
  | nil => exact fun s => rfl
  | cons req l₁ ih =>
      intro s
      rw [List.cons_append, loop, loop]
      split
      case isFalse => rfl
      case isTrue =>
        split
        case h_1 => rfl
        case h_2 s₁ _ =>
          split
          case h_1 => rfl
          case h_2 o s₂ _ _ =>
            rw [ih s₂]
            obtain ⟨considered, ending, s₃⟩ := loop w l₁ s₂
            cases ending <;> rfl

/-- The pass considers requests of its list only. -/
theorem mem_of_considered {req : NodeRequest} {o : Outcome} (l : List NodeRequest) :
    ∀ s : State S, (req, o) ∈ (loop w l s).considered → req ∈ l := by
  induction l with
  | nil => exact fun _ h => (nomatch h)
  | cons r l ih =>
      intro s h
      rw [loop] at h
      split at h
      case isFalse => cases h
      case isTrue =>
        split at h
        case h_1 => cases h
        case h_2 s₁ _ =>
          split at h
          case h_1 =>
            cases List.mem_singleton.mp h
            exact List.mem_cons_self
          case h_2 o' s₂ _ _ =>
            rcases List.mem_cons.mp h with h | h
            · cases h
              exact List.mem_cons_self
            · exact List.mem_cons_of_mem _ (ih s₂ h)

/-! ### The pass after it has yielded -/

/-- The loop from a request on, once it is known whether the pass yields before it. -/
def resume (req : NodeRequest) (reqs : List NodeRequest) (s : State S) : Pass S :=
  match consider w s req with
  | (.raised e, s) => ⟨[(req, .raised e)], .raised e, s⟩
  | (o, s) => { loop w reqs s with considered := (req, o) :: (loop w reqs s).considered }

theorem loop_cons (req : NodeRequest) (reqs : List NodeRequest) (s : State S) :
    loop w (req :: reqs) s =
      if w.running s.world then
        match yieldIfLate w s with
        | (.error e, s) => ⟨[], .raised e, s⟩
        | (.ok (), s) => resume w req reqs s
      else ⟨[], .stopped, s⟩ := rfl

/-- The request that the pass resumes with is considered, whatever comes of it. -/
theorem mem_resume (req : NodeRequest) (reqs : List NodeRequest) (s : State S) :
    ∃ o, (req, o) ∈ (resume w req reqs s).considered := by
  unfold resume
  split
  · exact ⟨_, List.mem_singleton_self _⟩
  · exact ⟨_, List.mem_cons_self⟩

/-- A pass that has just yielded is not late. -/
theorem yieldIfLate_again {s s' : State S} (h : yieldIfLate w s = (.ok (), s')) :
    yieldIfLate w s' = (.ok (), s') := by
  unfold yieldIfLate at h
  split at h
  case isTrue late =>
    cases hb : w.betweenChunks s.world with
    | mk outcome world =>
        rw [hb] at h
        cases outcome with
        | error e => cases h
        | ok =>
            cases h
            unfold yieldIfLate
            exact if_neg (by simp)
  case isFalse notLate =>
    cases h
    exact if_neg notLate

/-! ### A request whose decision functions raise -/

/-- The functions that decide whether the driver declines the request raise in every
state. -/
def Raises (bad : NodeRequest) : Prop := ∀ s, ∃ e, getDeclinedReasons w s bad = .error e

/-- What a pass considered, without one of the requests. -/
def others (bad : NodeRequest) (considered : List (NodeRequest × Outcome)) :
    List (NodeRequest × Outcome) :=
  considered.filter fun c => c.1 ≠ bad

/-- The pass comes to the request and asks the driver about it, or the worker is
stopped while the pass yields before it. -/
def Disturbs (earlier : List NodeRequest) (bad : NodeRequest) (s : State S) : Prop :=
  ∃ considered s₁ s₂, loop w earlier s = ⟨considered, .finished, s₁⟩ ∧
    w.running s₁.world = true ∧ yieldIfLate w s₁ = (.ok (), s₂) ∧
      (deferred w s₂ bad = none ∨ w.running s₂.world = false)

theorem others_append (bad : NodeRequest) (l₁ l₂ : List (NodeRequest × Outcome)) :
    others bad (l₁ ++ l₂) = others bad l₁ ++ others bad l₂ := List.filter_append ..

theorem others_loop {bad : NodeRequest} {l : List NodeRequest} (h : bad ∉ l) (s : State S) :
    others bad (loop w l s).considered = (loop w l s).considered := by
  refine List.filter_eq_self.mpr ?_
  rintro ⟨req, o⟩ hmem
  refine decide_eq_true ?_
  rintro rfl
  exact h (mem_of_considered w l s hmem)

theorem deferred_ne_raised {s : State S} {req : NodeRequest} {o : Outcome}
    (h : deferred w s req = some o) (e : Err) : o ≠ .raised e := by
  unfold deferred at h
  rintro rfl
  split_ifs at h <;> cases h

theorem resume_deferred {s : State S} {req : NodeRequest} {o : Outcome}
    (h : deferred w s req = some o) (reqs : List NodeRequest) :
    (resume w req reqs s).considered = (req, o) :: (loop w reqs s).considered := by
  unfold resume consider
  rw [h]
  dsimp only
  split
  case h_1 e _ same => exact absurd (congrArg Prod.fst same) (deferred_ne_raised w h e)
  case h_2 o' s' _ same =>
    cases same
    rfl

theorem resume_raises {s : State S} {req : NodeRequest} {e : Err}
    (h : deferred w s req = none) (he : getDeclinedReasons w s.world req = .error e)
    (reqs : List NodeRequest) : (resume w req reqs s).considered = [(req, .raised e)] := by
  unfold resume consider
  rw [h]
  dsimp only
  rw [he]

/-- After the part of the pass before it, a request that disturbs the pass hides every
later one, and one that does not leaves them as they are. -/
theorem others_loop_iff {bad : NodeRequest} (raises : Raises w bad) {later : List NodeRequest}
    (hlater : bad ∉ later) (s : State S) :
    others bad (loop w (bad :: later) s).considered = (loop w later s).considered ↔
      later = [] ∨ ¬ (w.running s.world = true ∧ ∃ s', yieldIfLate w s = (.ok (), s') ∧
        (deferred w s' bad = none ∨ w.running s'.world = false)) := by
  cases later with
  | nil =>
      refine iff_of_true ?_ (.inl rfl)
      refine List.filter_eq_nil_iff.mpr ?_
      rintro ⟨req, o⟩ hmem
      have := List.mem_singleton.mp (mem_of_considered w [bad] s hmem)
      simp [this]
  | cons next later =>
      rw [or_iff_right (List.cons_ne_nil _ _)]
      have hnext : bad ∉ next :: later := hlater
      rw [loop_cons, loop_cons w next]
      by_cases running : w.running s.world = true
      case neg =>
        rw [if_neg running, if_neg running]
        exact iff_of_true rfl fun h => running h.1
      case pos =>
        rw [if_pos running, if_pos running]
        rcases hy : yieldIfLate w s with ⟨outcome, s'⟩
        cases outcome with
        | error e =>
            refine iff_of_true rfl ?_
            rintro ⟨-, s'', h, -⟩
            cases h
        | ok =>
            dsimp only
            -- the next request is considered when this one is absent
            obtain ⟨o, ho⟩ := mem_resume w next later s'
            have hidden : ∀ l : List (NodeRequest × Outcome), others bad l = [] →
                others bad l ≠ (resume w next later s').considered := by
              intro l hl same
              rw [← same, hl] at ho
              cases ho
            cases hd : deferred w s' bad with
            | none =>
                obtain ⟨e, he⟩ := raises s'.world
                rw [resume_raises w hd he]
                exact iff_of_false (hidden _ (by simp [others]))
                  fun h => h ⟨running, s', rfl, .inl hd⟩
            | some o' =>
                rw [resume_deferred w hd]
                have drop : ∀ l, others bad ((bad, o') :: l) = others bad l :=
                  fun l => List.filter_cons_of_neg (by simp)
                rw [drop, others_loop w hnext, loop_cons, yieldIfLate_again w hy]
                by_cases again : w.running s'.world = true
                · rw [if_pos again]
                  refine iff_of_true rfl ?_
                  rintro ⟨-, s'', h, asked | stops⟩
                  · cases h
                    rw [hd] at asked
                    cases asked
                  · cases h
                    rw [again] at stops
                    cases stops
                · rw [if_neg again]
                  refine iff_of_false ?_ fun h => h ⟨running, s', rfl, .inr (by simpa using again)⟩
                  intro same
                  rw [← same] at ho
                  cases ho

/-- The same for a request at any position of the sorted requests. -/
theorem others_loop_append_iff {bad : NodeRequest} (raises : Raises w bad)
    {earlier later : List NodeRequest} (hearlier : bad ∉ earlier) (hlater : bad ∉ later)
    (s : State S) :
    others bad (loop w (earlier ++ bad :: later) s).considered =
        (loop w (earlier ++ later) s).considered ↔
      later = [] ∨ ¬ Disturbs w earlier bad s := by
  rw [loop_append, loop_append]
  unfold Disturbs
  have kept := others_loop w hearlier s
  cases hpass : loop w earlier s with
  | mk considered ending s₁ =>
      rw [hpass] at kept
      cases ending with
      | finished =>
          dsimp only at kept ⊢
          rw [others_append, kept, List.append_cancel_left_eq, others_loop_iff w raises hlater]
          refine or_congr_right (not_congr ?_)
          constructor
          · rintro ⟨running, s₂, hy, h⟩
            exact ⟨considered, s₁, s₂, rfl, running, hy, h⟩
          · rintro ⟨_, _, s₂, same, running, hy, h⟩
            cases same
            exact ⟨running, s₂, hy, h⟩
      | stopped =>
          refine iff_of_true kept (.inr ?_)
          rintro ⟨_, _, _, same, -⟩
          cases same
      | raised e =>
          refine iff_of_true kept (.inr ?_)
          rintro ⟨_, _, _, same, -⟩
          cases same

/-! ### The pass with a request and without it -/

/-- Every other request is considered in the pass exactly as it would be if one request
were absent. -/
def AsIfAbsent (requests : List NodeRequest) (bad : NodeRequest) (s : State S) : Prop :=
  others bad (assignHandlers w requests s).considered =
    (assignHandlers w (requests.filter (· ≠ bad)) s).considered

/-- The pass comes to its first request. -/
def Starts (s : State S) : Prop := w.running s.world = true ∧ ∃ s', yieldIfLate w s = (.ok (), s')

/-- The request comes last, or the pass does not get to ask the driver about it: the
pass ends before it, or the request is passed over for another reason. Nor is the worker
stopped while the pass yields just before it. If the key of the request raises, then no other
request may be there that the pass comes to; if the key of another one does, then the pass comes
to none. -/
def Harmless (requests : List NodeRequest) (bad : NodeRequest) (s : State S) : Prop :=
  match sorted (sortKey w.pool) (requests.filter (· ≠ bad)), sorted (sortKey w.pool) requests with
  | .error _, _ => True
  | .ok rest, .error _ => rest = [] ∨ ¬ Starts w s
  | .ok _, .ok order => ∀ earlier later, order = earlier ++ bad :: later →
      later = [] ∨ ¬ Disturbs w earlier bad s

/-- The pass considers nothing if there is nothing, or if it does not come to the first request. -/
theorem considered_loop_eq_nil_iff (l : List NodeRequest) (s : State S) :
    (loop w l s).considered = [] ↔ l = [] ∨ ¬ Starts w s := by
  cases l with
  | nil => exact iff_of_true rfl (.inl rfl)
  | cons req l =>
      rw [loop_cons]
      by_cases running : w.running s.world = true
      · rw [if_pos running]
        rcases hy : yieldIfLate w s with ⟨e | _, s'⟩
        · refine iff_of_true rfl (.inr ?_)
          rintro ⟨-, s'', h⟩
          cases hy.symm.trans h
        · obtain ⟨o, considered⟩ := mem_resume w req l s'
          refine iff_of_false (fun h => ?_) ?_
          · rw [h] at considered
            cases considered
          · rintro (h | h)
            · cases h
            · exact h ⟨running, s', hy⟩
      · rw [if_neg running]
        exact iff_of_true rfl (.inr fun h => running h.1)

/-- A request for which the decision functions raise leaves the others as they are
exactly when the pass does not come to ask about it before it has come to them. -/
theorem asIfAbsent_iff (requests : List NodeRequest) (nodup : requests.Nodup)
    (bad : NodeRequest) (mem : bad ∈ requests) (raises : Raises w bad) (s : State S) :
    AsIfAbsent w requests bad s ↔ Harmless w requests bad s := by
  unfold AsIfAbsent Harmless assignHandlers
  cases without : sorted (sortKey w.pool) (requests.filter (· ≠ bad)) with
  | error e =>
      obtain ⟨r, hr, e', raised⟩ := exists_key_error without
      obtain ⟨e'', all⟩ := sorted_raises (sortKey w.pool) (List.mem_of_mem_filter hr) raised
      rw [all]
      exact iff_of_true rfl trivial
  | ok rest =>
      cases all : sorted (sortKey w.pool) requests with
      | error e => exact eq_comm.trans (considered_loop_eq_nil_iff w rest s)
      | ok order =>
          have perm : order.Perm requests := sorted_perm all
          obtain ⟨earlier, later, split⟩ := List.append_of_mem (perm.mem_iff.mpr mem)
          have nodup' : (earlier ++ bad :: later).Nodup := split ▸ perm.nodup_iff.mpr nodup
          obtain ⟨-, hcons, disjoint⟩ := List.nodup_append.mp nodup'
          have hearlier : bad ∉ earlier := fun h => disjoint bad h bad List.mem_cons_self rfl
          have hlater : bad ∉ later := (List.nodup_cons.mp hcons).1
          have keep : ∀ {l : List NodeRequest}, bad ∉ l → l.filter (· ≠ bad) = l := by
            intro l hl
            refine List.filter_eq_self.mpr fun r hr => decide_eq_true ?_
            rintro rfl
            exact hl hr
          obtain rfl : rest = earlier ++ later := by
            have filtered := (sorted_filter (· ≠ bad) all).symm.trans without
            rw [split, List.filter_append, List.filter_cons_of_neg (by simp), keep hearlier,
              keep hlater] at filtered
            exact (Except.ok.inj filtered).symm
          dsimp only
          rw [split, others_loop_append_iff w raises hearlier hlater]
          constructor
          · intro h earlier' later' split'
            -- the request has one position only
            obtain ⟨rfl, -, rfl⟩ := (List.append_cons_inj_of_notMem hearlier hlater).mp split'
            exact h
          · exact fun h => h earlier later rfl

/-! ### A driver that raises for one request -/

/-- A request for one label. -/
def exampleRequest (id ntype : String) : NodeRequest where
  id := id
  state := .requested
  declinedBy := []
  nodeTypes := [ntype]
  nodes := []
  reuse := true
  requestor := none
  provider := none
  relativePriority := 0
  tenantName := none

/-- Looking for the images of the request `100-1` raises; everything else succeeds. -/
def exampleWorker : Worker Unit where
  pool := PoolWorker.preferredPool
  maxConcurrency := -1
  launcherPools := []
  running := fun _ => true
  monotonic := fun _ => 0
  timeout := 15
  betweenChunks := fun _ => (.ok (), ())
  checkTenantQuota := fun _ _ => false
  hasTenantQuota := fun _ _ => .ok true
  maxServers := fun _ => .int 1
  invalidNodeTypes := fun _ req => .ok (req.nodeTypes.filter (· ≠ "small"))
  imagesAvailable := fun _ req => if req.id = "100-1" then .error .other else .ok true
  hasProviderQuota := fun _ _ => .ok true
  hasPausedHandlers := fun _ => false
  activeThreads := fun _ => 0
  lockNodeRequest := fun _ req => (.ok req, ())
  unlockNodeRequest := fun _ _ => (.ok (), ())
  run := fun _ _ => (.ok ⟨false, []⟩, ())
  declineRequest := fun _ _ => (.ok (), ())
  append := fun _ _ _ => ()

def exampleState : State Unit := ⟨(), 0, none⟩

theorem raises_example : Raises exampleWorker (exampleRequest "100-1" "small") :=
  fun _ => ⟨.other, rfl⟩

theorem asIfAbsent_iff_example :
    AsIfAbsent exampleWorker [exampleRequest "100-0" "small", exampleRequest "100-1" "small"]
        (exampleRequest "100-1" "small") exampleState ↔
      Harmless exampleWorker [exampleRequest "100-0" "small", exampleRequest "100-1" "small"]
        (exampleRequest "100-1" "small") exampleState :=
  asIfAbsent_iff exampleWorker _ (by decide) _ (by decide) (fun _ => ⟨.other, rfl⟩) _

/-- A request that the pool does not serve comes after the failing one. -/
theorem sorted_example : sorted (sortKey exampleWorker.pool)
    [exampleRequest "100-1" "small", exampleRequest "100-0" "large"] =
      .ok [exampleRequest "100-1" "small", exampleRequest "100-0" "large"] := by
  rfl

/-- That request should be declined, and is not considered at all. -/
theorem not_forall_asIfAbsent :
    ¬ ∀ (w : Worker Unit) (requests : List NodeRequest) (bad : NodeRequest) (s : State Unit),
      requests.Nodup → bad ∈ requests → Raises w bad → AsIfAbsent w requests bad s := by
  intro h
  have same := h exampleWorker [exampleRequest "100-1" "small", exampleRequest "100-0" "large"]
    (exampleRequest "100-1" "small") exampleState (by decide) (by decide) raises_example
  have without := sorted_filter (· ≠ exampleRequest "100-1" "small") sorted_example
  unfold AsIfAbsent assignHandlers at same
  rw [sorted_example, without] at same
  exact absurd same (by decide)

end Nodepool.AssignHandlers
