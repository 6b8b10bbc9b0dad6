import Mathlib.Tactic
import Nodepool.Base.Always
import Nodepool.Cloud.TtlCache

/-!
`LazyExecutorTTLCache` with the calls that it decorates and the executor that brings it up to
date, for any times and outcomes.

A call holds the lock of the cache from its start to its end, so it is one step. A refresh
ends at any time between two calls, with the time at which it ended and its value, or with an
exception.
-/

namespace Nodepool.LazyCache

variable {ε α : Type}

/-- What the wrapped method does: it returns a value at a time, or raises. -/
abbrev Outcome (ε α : Type) : Type := Except ε (ℕ × α)

structure State (ε α : Type) where
  cache : LazyExecutorTTLCache ε α
  /-- the refreshes that the executor was given and that have not ended -/
  running : ℕ
  /-- the completed refreshes that the cache has collected, the latest one first -/
  collected : List (ℕ × α)

def initial (ttl : ℕ) : State ε α := ⟨.init ttl, 0, []⟩

inductive Action (ε α : Type) where
  /-- a call at a time, and what the method does if the call has to wait for it -/
  | call (now : ℕ) (fetched : Outcome ε α)
  /-- a refresh ends -/
  | finish (outcome : Outcome ε α)

/-- The refresh that the next call collects. -/
def ended (c : LazyExecutorTTLCache ε α) : List (ℕ × α) :=
  match c.future with
  | some (.done (.ok refresh)) => [refresh]
  | _ => []

/-- The call submits a refresh. -/
def submits (before after : LazyExecutorTTLCache ε α) : ℕ :=
  if before.future.isNone && after.future.isSome then 1 else 0

/-- A call of the decorated method, once it has collected the refresh that has ended. -/
def answer (s : State ε α) (now : ℕ) (fetched : Outcome ε α) : Except ε α × State ε α :=
  match s.cache.lookup now with
  | (some value, cache) => (.ok value, { s with
      cache := cache
      running := s.running + submits s.cache cache })
  | (none, cache) =>
      match fetched with
      | .error e => (.error e, { s with cache := cache })
      | .ok (time, value) => (.ok value, { s with
          cache := cache.store time value
          collected := (time, value) :: s.collected })

/-- A call of the decorated method. -/
def call (s : State ε α) (now : ℕ) (fetched : Outcome ε α) : Except ε α × State ε α :=
  match s.cache.resolve with
  | (.error e, cache) => (.error e, { s with cache := cache })
  | (.ok (), cache) => answer ⟨cache, s.running, ended s.cache ++ s.collected⟩ now fetched

def perform (s : State ε α) : Action ε α → State ε α
  | .call now fetched => (call s now fetched).2
  | .finish outcome =>
      if s.running = 0 then s
      else { s with cache := s.cache.finish outcome, running := s.running - 1 }

/-- What is asked of a call. -/
structure CallRight (s : State ε α) (now : ℕ) (fetched : Outcome ε α) : Prop where
  /-- at most one refresh is outstanding -/
  one : (call s now fetched).2.running ≤ 1
  /-- after the first value, the latest one that has been collected is returned -/
  returns : s.collected ≠ [] → ∃ refresh ∈ (call s now fetched).2.collected.head?,
    (call s now fetched).1 = .ok refresh.2
  /-- a refresh is outstanding after the call if the latest one is too old -/
  starts : s.collected ≠ [] →
    (∀ refresh ∈ (call s now fetched).2.collected.head?, refresh.1 + s.cache.ttl ≤ now) →
    (call s now fetched).2.running = 1

def Right (s : State ε α) (action : Action ε α) : Prop :=
  s.running ≤ 1 ∧ ∀ now fetched, action = .call now fetched → CallRight s now fetched

/-- The action is not a call that finds a refresh that has raised. -/
def NotFailed (s : State ε α) (action : Action ε α) : Prop :=
  ∀ now fetched, action = .call now fetched → ∀ e, s.cache.future ≠ some (.done (.error e))

/-- The cache and the executor agree, and the cache has what was collected last. -/
structure Inv (s : State ε α) : Prop where
  idle : s.cache.future ≠ some .submitted → s.running = 0
  busy : s.cache.future = some .submitted → s.running = 1
  latest : s.collected = [] ∧ s.cache.lastTime = none ∧ s.cache.future = none ∨
    ∃ refresh, s.collected.head? = some refresh ∧ s.cache.lastTime = some refresh.1 ∧
      s.cache.lastValue = some refresh.2

section Call

variable {s : State ε α} {now : ℕ} {fetched : Outcome ε α}

theorem Inv.initial (ttl : ℕ) : Inv (initial ttl : State ε α) :=
  ⟨fun _ => rfl, nofun, .inl ⟨rfl, rfl, rfl⟩⟩

theorem Inv.running_le (inv : Inv s) : s.running ≤ 1 := by
  by_cases h : s.cache.future = some .submitted
  · exact (inv.busy h).le
  · exact (inv.idle h).trans_le (Nat.zero_le 1)

/-- What a call does that finds no value. -/
theorem answer_of_none (none : s.cache.lastTime = none) :
    answer s now fetched = match fetched with
      | .error e => (.error e, s)
      | .ok (time, value) => (.ok value, { s with
          cache := s.cache.store time value
          collected := (time, value) :: s.collected }) := by
  unfold answer LazyExecutorTTLCache.lookup
  rw [none]

/-- What a call does that finds a value that is not too old. -/
theorem answer_of_hit {refresh : ℕ × α} (time : s.cache.lastTime = some refresh.1)
    (value : s.cache.lastValue = some refresh.2) (hit : now < refresh.1 + s.cache.ttl) :
    answer s now fetched = (.ok refresh.2, s) := by
  unfold answer LazyExecutorTTLCache.lookup
  simp only [time, if_pos hit, value, submits]
  cases s.cache.future <;> simp

/-- What a call does that finds a value that is too old. -/
theorem answer_of_miss {refresh : ℕ × α} (time : s.cache.lastTime = some refresh.1)
    (value : s.cache.lastValue = some refresh.2) (miss : ¬ now < refresh.1 + s.cache.ttl) :
    answer s now fetched = (.ok refresh.2, { s with
      cache := { s.cache with future := some (s.cache.future.getD .submitted) }
      running := s.running + if s.cache.future.isNone then 1 else 0 }) := by
  unfold answer LazyExecutorTTLCache.lookup
  simp only [time, if_neg miss, value, submits, Option.isSome_some, Bool.and_true]

/-- What a call does once nothing is left to be collected. -/
theorem answer_spec (now : ℕ) (fetched : Outcome ε α) (inv : Inv s)
    (resolved : ∀ r, s.cache.future ≠ some (.done r)) :
    Inv (answer s now fetched).2 ∧ ∀ refresh ∈ s.collected.head?,
      (answer s now fetched).1 = .ok refresh.2 ∧
      (answer s now fetched).2.collected = s.collected ∧
      (refresh.1 + s.cache.ttl ≤ now → (answer s now fetched).2.running = 1) := by
  rcases inv.latest with ⟨none, time, idle⟩ | ⟨refresh, head, time, value⟩
  · rw [answer_of_none time, none]
    refine ⟨?_, fun _ mem => nomatch mem⟩
    cases fetched with
    | error e => exact inv
    | ok fetched => exact ⟨inv.idle, inv.busy, .inr ⟨fetched, rfl, rfl, rfl⟩⟩
  by_cases hit : now < refresh.1 + s.cache.ttl
  · rw [answer_of_hit time value hit]
    refine ⟨inv, fun refresh' mem => ?_⟩
    obtain rfl : refresh = refresh' := Option.some.inj (head.symm.trans mem)
    exact ⟨rfl, rfl, fun old => absurd hit (Nat.not_lt.mpr old)⟩
  -- the refresh is submitted unless one is outstanding
  have running : s.running + (if s.cache.future.isNone then 1 else 0) = 1 ∧
      s.cache.future.getD .submitted = .submitted := by
    cases future : s.cache.future with
    | none => exact ⟨by rw [inv.idle (by rw [future]; nofun)]; rfl, rfl⟩
    | some update =>
        cases update with
        | submitted => exact ⟨by rw [inv.busy future]; rfl, rfl⟩
        | done r => exact absurd future (resolved r)
  rw [answer_of_miss time value hit, running.1, running.2]
  refine ⟨⟨fun h => absurd rfl h, fun _ => rfl, .inr ⟨refresh, head, time, value⟩⟩, ?_⟩
  intro refresh' mem
  obtain rfl : refresh = refresh' := Option.some.inj (head.symm.trans mem)
  exact ⟨rfl, rfl, fun _ => rfl⟩

/-- A call that finds a refresh that has raised. -/
theorem call_of_failed {e : ε} (failed : s.cache.future = some (.done (.error e))) :
    call s now fetched = (.error e, { s with cache := { s.cache with future := none } }) := by
  unfold call LazyExecutorTTLCache.resolve
  rw [failed]

/-- Any other call answers once it has collected what there is. -/
theorem call_of_not_failed (now : ℕ) (fetched : Outcome ε α) (inv : Inv s)
    (notFailed : ∀ e, s.cache.future ≠ some (.done (.error e))) :
    ∃ t : State ε α, call s now fetched = answer t now fetched ∧ Inv t ∧
      (∀ r, t.cache.future ≠ some (.done r)) ∧ t.cache.ttl = s.cache.ttl ∧
      (s.collected ≠ [] → t.collected ≠ []) := by
  unfold call LazyExecutorTTLCache.resolve ended
  cases future : s.cache.future with
  | none =>
      refine ⟨s, rfl, inv, fun r => ?_, rfl, id⟩
      rw [future]
      nofun
  | some update =>
      cases update with
      | submitted =>
          refine ⟨s, rfl, inv, fun r => ?_, rfl, id⟩
          rw [future]
          nofun
      | done r =>
          cases r with
          | error e => exact absurd future (notFailed e)
          | ok refresh =>
              have idle : s.running = 0 := inv.idle (by rw [future]; nofun)
              refine ⟨_, rfl, ⟨fun _ => idle, nofun, .inr ⟨refresh, rfl, rfl, rfl⟩⟩, nofun, rfl, ?_⟩
              exact fun _ => List.cons_ne_nil _ _

theorem Inv.call (inv : Inv s) : Inv (call s now fetched).2 := by
  by_cases failed : ∃ e, s.cache.future = some (.done (.error e))
  · obtain ⟨e, failed⟩ := failed
    rw [call_of_failed failed]
    refine ⟨fun _ => inv.idle (by rw [failed]; nofun), nofun, ?_⟩
    rcases inv.latest with ⟨-, -, none⟩ | latest
    · exact absurd (failed.symm.trans none) nofun
    · exact .inr latest
  · obtain ⟨t, same, inv, resolved, -⟩ :=
      call_of_not_failed now fetched inv (not_exists.mp failed)
    rw [same]
    exact (answer_spec now fetched inv resolved).1

theorem Inv.perform (inv : Inv s) (action : Action ε α) : Inv (perform s action) := by
  cases action with
  | call now fetched => exact inv.call
  | finish outcome =>
      simp only [LazyCache.perform]
      by_cases idle : s.running = 0
      · rwa [if_pos idle]
      rw [if_neg idle]
      refine ⟨fun _ => ?_, nofun, ?_⟩
      · exact Nat.sub_eq_zero_of_le inv.running_le
      rcases inv.latest with ⟨-, -, none⟩ | latest
      · exact absurd (inv.idle (by rw [none]; nofun)) idle
      · exact .inr latest

/-- A call does what is asked of it unless it finds a refresh that has raised. -/
theorem callRight_iff (inv : Inv s) : CallRight s now fetched ↔
    ∀ e, s.cache.future ≠ some (.done (.error e)) := by
  constructor
  · rintro right e failed
    have some : s.collected ≠ [] := by
      rintro none
      rcases inv.latest with ⟨-, -, idle⟩ | ⟨refresh, head, -⟩
      · exact absurd (failed.symm.trans idle) nofun
      · rw [none] at head
        cases head
    obtain ⟨refresh, -, returns⟩ := right.returns some
    rw [call_of_failed failed] at returns
    cases returns
  · intro notFailed
    obtain ⟨t, same, inv', resolved, ttl, kept⟩ :=
      call_of_not_failed now fetched inv notFailed
    obtain ⟨inv'', answers⟩ := answer_spec now fetched inv' resolved
    have latest (some : s.collected ≠ []) : ∃ refresh, refresh ∈ t.collected.head? :=
      ⟨_, List.head?_eq_some_head (kept some)⟩
    refine ⟨inv.call.running_le, fun some => ?_, fun some old => ?_⟩
    all_goals
      obtain ⟨refresh, head⟩ := latest some
      obtain ⟨returns, collected, starts⟩ := answers refresh head
      rw [same] at *
    · exact ⟨refresh, collected ▸ head, returns⟩
    · exact starts (ttl ▸ old refresh (collected ▸ head))

end Call

/-- In every run, each call does what is asked of it exactly if none of them finds a refresh that
has raised. -/
theorem lazyCache_iff (ttl : ℕ) (actions : List (Action ε α)) :
    Always perform Right (initial ttl) actions ↔ Always perform NotFailed (initial ttl) actions :=
  always_iff (Inv.initial ttl) (fun _ action inv _ => inv.perform action) fun s action inv => by
    constructor
    · rintro ⟨-, right⟩ now fetched rfl
      exact (callRight_iff inv).mp (right now fetched rfl)
    · intro notFailed
      refine ⟨inv.running_le, ?_⟩
      rintro now fetched rfl
      exact (callRight_iff inv).mpr (notFailed now fetched rfl)

/-! ### A refresh that raises -/

/-- A value is fetched, is too old at the second call, and cannot be brought up to date. -/
def exampleActions : List (Action Unit ℕ) :=
  [.call 0 (.ok (0, 7)), .call 20 (.error ()), .finish (.error ()), .call 30 (.error ())]

theorem exampleActions_not_right : ¬ Always perform Right (initial 10) exampleActions := by
  rintro ⟨-, -, -, ⟨-, right⟩, -⟩
  obtain ⟨refresh, -, returns⟩ := (right 30 (.error ()) rfl).returns (List.cons_ne_nil _ _)
  cases returns

end Nodepool.LazyCache
