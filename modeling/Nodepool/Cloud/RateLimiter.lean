import Mathlib.Tactic
import Nodepool.Base.Spaced

/-!
The `RateLimiter` of `nodepool/driver/utils.py`, with any number of threads that enter it at any
time.

Each read of the clock, each comparison and each operation on the lock is one step, and time
passes between any two steps, so that a sleep ends before or after the delay it was asked for. Both
`__enter__` of the limiter and that of a `RateLimitInstance` call `_enter`; the `__exit__` of
either does nothing to the limiter.
-/

namespace Nodepool.RateLimit

structure RateLimiter (Thread : Type) where
  delta : ℚ
  lastTs : Option ℚ
  /-- the thread that has the lock -/
  lock : Option Thread

def RateLimiter.init (Thread : Type) (rateLimit : Option ℚ) : RateLimiter Thread where
  delta :=
    match rateLimit with
    | none => 0
    | some rate => if rate = 0 then 0 else 1 / rate
  lastTs := none
  lock := none

/-- Where a thread is in `_enter`. -/
inductive Phase where
  | outside
  | acquiring
  /-- it has the lock, and looks whether there has been an entry -/
  | acquired
  /-- it reads the clock at the top of the loop -/
  | looping (totalDelay : ℚ)
  | comparing (now totalDelay : ℚ)
  | sleeping (delay totalDelay : ℚ)
  /-- it reads the clock for its entry -/
  | leaving (totalDelay : ℚ)
  | recording (ts totalDelay : ℚ)
  | releasing (totalDelay : ℚ)
  | returned (totalDelay : ℚ)
  | raised
deriving DecidableEq

def Phase.hasLock : Phase → Bool
  | .outside | .acquiring | .returned _ | .raised => false
  | _ => true

structure State (Thread : Type) extends RateLimiter Thread where
  clock : ℚ
  phase : Thread → Phase
  /-- what `last_ts` has been set to, one time for each entry, the earliest one first -/
  granted : List ℚ

def initial (Thread : Type) (rateLimit : Option ℚ) (clock : ℚ) : State Thread where
  toRateLimiter := .init Thread rateLimit
  clock := clock
  phase := fun _ => .outside
  granted := []

inductive Action (Thread : Type) where
  /-- time passes -/
  | tick (elapsed : ℚ≥0)
  /-- a thread that is not in `_enter` calls it -/
  | enter (thread : Thread)
  /-- a thread takes its next step; one that sleeps wakes up -/
  | advance (thread : Thread)
  /-- the sleep of a thread raises an exception -/
  | interrupt (thread : Thread)

variable {Thread : Type}

section Step

variable [DecidableEq Thread]

namespace State

def goTo (s : State Thread) (thread : Thread) (phase : Phase) : State Thread :=
  { s with phase := Function.update s.phase thread phase }

/-- An exception leaves `_enter`, which releases the lock. -/
def raise (s : State Thread) (thread : Thread) : State Thread :=
  { s with lock := none }.goTo thread .raised

def compare (s : State Thread) (thread : Thread) (now totalDelay : ℚ) : State Thread :=
  match s.lastTs with
  -- `now - None` is a `TypeError`
  | none => s.raise thread
  | some lastTs =>
      let delta := now - lastTs
      if s.delta ≤ delta then s.goTo thread (.leaving totalDelay)
      else s.goTo thread (.sleeping (s.delta - delta) totalDelay)

def record (s : State Thread) (thread : Thread) (ts totalDelay : ℚ) : State Thread :=
  { s with lastTs := some ts, granted := s.granted ++ [ts] }.goTo thread (.releasing totalDelay)

def advance (s : State Thread) (thread : Thread) : State Thread :=
  match s.phase thread with
  | .outside | .returned _ | .raised => s
  | .acquiring =>
      if s.lock.isNone then { s with lock := some thread }.goTo thread .acquired else s
  -- the first entry and all later ones set `last_ts` in the same way
  | .acquired => s.goTo thread (if s.lastTs.isNone then .leaving 0 else .looping 0)
  | .looping totalDelay => s.goTo thread (.comparing s.clock totalDelay)
  | .comparing now totalDelay => s.compare thread now totalDelay
  | .sleeping delay totalDelay => s.goTo thread (.looping (totalDelay + delay))
  | .leaving totalDelay => s.goTo thread (.recording s.clock totalDelay)
  | .recording ts totalDelay => s.record thread ts totalDelay
  | .releasing totalDelay => { s with lock := none }.goTo thread (.returned totalDelay)

def enter (s : State Thread) (thread : Thread) : State Thread :=
  match s.phase thread with
  | .outside | .returned _ | .raised => s.goTo thread .acquiring
  | _ => s

def interrupt (s : State Thread) (thread : Thread) : State Thread :=
  match s.phase thread with
  | .sleeping _ _ => s.raise thread
  | _ => s

end State

def step (s : State Thread) : Action Thread → State Thread
  | .tick elapsed => { s with clock := s.clock + elapsed }
  | .enter thread => s.enter thread
  | .advance thread => s.advance thread
  | .interrupt thread => s.interrupt thread

/-- The state after the actions, from a limiter that is new. -/
def run (rateLimit : Option ℚ) (clock : ℚ) (actions : List (Action Thread)) : State Thread :=
  actions.foldl step (initial Thread rateLimit clock)

end Step

/-! ### What is kept -/

/-- A time at which the next entry may be recorded. -/
def State.Late (s : State Thread) (time : ℚ) : Prop :=
  ∀ lastTs ∈ s.lastTs, lastTs + s.delta ≤ time

/-- What a thread knows in a phase, as no other one can record an entry. -/
def State.Knows (s : State Thread) : Phase → Prop
  | .looping _ => s.lastTs ≠ none
  | .comparing now _ => s.lastTs ≠ none ∧ now ≤ s.clock
  | .sleeping delay _ => s.lastTs ≠ none ∧ 0 < delay
  | .leaving _ => s.Late s.clock
  | .recording ts _ => s.Late ts
  | _ => True

structure Inv (s : State Thread) : Prop where
  locked : ∀ thread, (s.phase thread).hasLock = true → s.lock = some thread
  knows : ∀ thread, s.Knows (s.phase thread)
  latest : s.granted.getLast? = s.lastTs
  spaced : Spaced s.delta s.granted

variable {s : State Thread} {thread other : Thread} {phase : Phase}

theorem Inv.initial (rateLimit : Option ℚ) (clock : ℚ) : Inv (initial Thread rateLimit clock) where
  locked _ has := nomatch has
  knows _ := trivial
  latest := rfl
  spaced := spaced_nil

/-- Nothing is asked of a thread that does not have the lock. -/
theorem knows_of_not_hasLock (without : phase.hasLock = false) : s.Knows phase := by
  cases phase with
  | outside | acquiring | returned | raised => trivial
  | acquired | looping | comparing | sleeping | leaving | recording | releasing => cases without

/-- One thread has the lock. -/
theorem Inv.not_hasLock (inv : Inv s) (differs : s.lock ≠ some thread) :
    (s.phase thread).hasLock = false :=
  Bool.eq_false_iff.mpr fun has => differs (inv.locked thread has)

theorem Inv.knows_of (inv : Inv s) (isIn : s.phase thread = phase) : s.Knows phase :=
  isIn ▸ inv.knows thread

/-- What was late enough stays so. -/
theorem Inv.tick (inv : Inv s) (elapsed : ℚ≥0) :
    Inv { s with clock := s.clock + elapsed } := by
  have later : s.clock ≤ s.clock + elapsed := le_add_of_nonneg_right elapsed.coe_nonneg
  refine ⟨inv.locked, fun thread => ?_, inv.latest, inv.spaced⟩
  have knows := inv.knows thread
  change State.Knows _ (s.phase thread)
  cases isIn : s.phase thread with
  | comparing =>
      rw [isIn] at knows
      exact ⟨knows.1, knows.2.trans later⟩
  | leaving =>
      rw [isIn] at knows
      exact fun lastTs mem => (knows lastTs mem).trans later
  | _ =>
      rw [isIn] at knows
      exact knows

variable [DecidableEq Thread]

namespace State

@[simp] theorem goTo_phase_self : (s.goTo thread phase).phase thread = phase :=
  Function.update_self ..

theorem goTo_phase_of_ne (differs : other ≠ thread) :
    (s.goTo thread phase).phase other = s.phase other :=
  Function.update_of_ne differs ..

end State

/-- A thread goes to a phase that it may be in. -/
theorem Inv.goTo (inv : Inv s) (locked : phase.hasLock = true → s.lock = some thread)
    (knows : s.Knows phase) : Inv (s.goTo thread phase) where
  locked other has := by
    by_cases same : other = thread
    · subst same
      rw [State.goTo_phase_self] at has
      exact locked has
    · rw [State.goTo_phase_of_ne same] at has
      exact inv.locked other has
  knows other := by
    by_cases same : other = thread
    · subst same
      rw [State.goTo_phase_self]
      exact knows
    · rw [State.goTo_phase_of_ne same]
      exact inv.knows other
  latest := inv.latest
  spaced := inv.spaced

/-- The thread with the lock goes to a phase in which it keeps it. -/
theorem Inv.move (inv : Inv s) (has : (s.phase thread).hasLock = true) (knows : s.Knows phase) :
    Inv (s.goTo thread phase) :=
  inv.goTo (fun _ => inv.locked thread has) knows

theorem Inv.acquire (inv : Inv s) (free : s.lock = none) :
    Inv ({ s with lock := some thread }.goTo thread .acquired) := by
  have without (other : Thread) : (s.phase other).hasLock = false :=
    inv.not_hasLock (by rw [free]; nofun)
  have taken : Inv { s with lock := some thread } :=
    ⟨fun other has => absurd has (by simp [without other]), inv.knows, inv.latest, inv.spaced⟩
  exact taken.goTo (fun _ => rfl) trivial

theorem Inv.release (inv : Inv s) (has : (s.phase thread).hasLock = true)
    (without : phase.hasLock = false) : Inv ({ s with lock := none }.goTo thread phase) := by
  have left : Inv (s.goTo thread phase) :=
    inv.goTo (fun has => absurd has (by simp [without])) (knows_of_not_hasLock without)
  refine ⟨fun other has' => ?_, left.knows, left.latest, left.spaced⟩
  -- only the thread that releases the lock has had it
  obtain rfl : other = thread :=
    Option.some.inj ((left.locked other has').symm.trans (inv.locked thread has))
  exact absurd has' (by simp [without])

theorem Inv.record (inv : Inv s) {ts totalDelay : ℚ}
    (recording : s.phase thread = .recording ts totalDelay) :
    Inv (s.record thread ts totalDelay) := by
  have has : (s.phase thread).hasLock = true := by rw [recording]; rfl
  have late : s.Late ts := inv.knows_of recording
  have left : Inv (s.goTo thread (.releasing totalDelay)) := inv.move has trivial
  refine ⟨left.locked, fun other => ?_, ?_, ?_⟩
  · by_cases same : other = thread
    · subst same
      change State.Knows _ ((s.goTo other (.releasing totalDelay)).phase other)
      rw [State.goTo_phase_self]
      trivial
    · refine knows_of_not_hasLock (left.not_hasLock ?_)
      change s.lock ≠ some other
      rw [inv.locked thread has]
      exact fun equal => same (Option.some.inj equal).symm
  · exact List.getLast?_concat ..
  · exact inv.spaced.concat fun last isLast => late last (inv.latest ▸ isLast)

/-- What follows a comparison with an entry. -/
theorem compare_of_some {lastTs now totalDelay : ℚ} (some : s.lastTs = some lastTs) :
    s.compare thread now totalDelay = s.goTo thread
      (if s.delta ≤ now - lastTs then .leaving totalDelay
      else .sleeping (s.delta - (now - lastTs)) totalDelay) := by
  unfold State.compare
  rw [some]
  exact (apply_ite (s.goTo thread) _ _ _).symm

theorem Inv.compare (inv : Inv s) {now totalDelay : ℚ}
    (comparing : s.phase thread = .comparing now totalDelay) :
    Inv (s.compare thread now totalDelay) := by
  have has : (s.phase thread).hasLock = true := by rw [comparing]; rfl
  obtain ⟨some, past⟩ : s.lastTs ≠ none ∧ now ≤ s.clock := inv.knows_of comparing
  obtain ⟨lastTs, isLast⟩ := Option.ne_none_iff_exists'.mp some
  rw [compare_of_some isLast]
  split
  · rename_i enough
    refine inv.move has fun last mem => ?_
    obtain rfl : lastTs = last := Option.some.inj (isLast.symm.trans mem)
    linarith
  · rename_i short
    exact inv.move has ⟨some, sub_pos.mpr (not_le.mp short)⟩

theorem Inv.advance (inv : Inv s) (thread : Thread) : Inv (s.advance thread) := by
  have move {phase next : Phase} (isIn : s.phase thread = phase) (has : phase.hasLock = true)
      (knows : s.Knows phase → s.Knows next) : Inv (s.goTo thread next) :=
    inv.move (isIn ▸ has) (knows (inv.knows_of isIn))
  unfold State.advance
  cases isIn : s.phase thread with
  | outside | returned | raised => exact inv
  | acquiring =>
      dsimp only
      split
      · rename_i free
        exact inv.acquire (Option.isNone_iff_eq_none.mp free)
      · exact inv
  | acquired =>
      cases isLast : s.lastTs with
      | none => exact move isIn rfl fun _ last mem => absurd (isLast.symm.trans mem) nofun
      | some lastTs => exact move isIn rfl fun _ none => absurd (isLast.symm.trans none) nofun
  | looping => exact move isIn rfl fun some => ⟨some, le_rfl⟩
  | comparing => exact inv.compare isIn
  | sleeping => exact move isIn rfl And.left
  | leaving => exact move isIn rfl id
  | recording => exact inv.record isIn
  | releasing => exact inv.release (by rw [isIn]; rfl) rfl

theorem Inv.enter (inv : Inv s) (thread : Thread) : Inv (s.enter thread) := by
  unfold State.enter
  split
  · exact inv.goTo nofun trivial
  · exact inv.goTo nofun trivial
  · exact inv.goTo nofun trivial
  · exact inv

theorem Inv.interrupt (inv : Inv s) (thread : Thread) : Inv (s.interrupt thread) := by
  unfold State.interrupt
  split
  · rename_i isIn
    exact inv.release (by rw [isIn]; rfl) rfl
  · exact inv

/-- Every action keeps the invariant. -/
theorem Inv.step (inv : Inv s) (action : Action Thread) : Inv (step s action) := by
  cases action with
  | tick elapsed => exact inv.tick elapsed
  | enter thread => exact inv.enter thread
  | advance thread => exact inv.advance thread
  | interrupt thread => exact inv.interrupt thread

theorem Inv.steps (inv : Inv s) (actions : List (Action Thread)) :
    Inv (actions.foldl RateLimit.step s) := by
  induction actions generalizing s with
  | nil => exact inv
  | cons action actions ih => exact ih (inv.step action)

theorem compare_delta (s : State Thread) (thread : Thread) (now totalDelay : ℚ) :
    (s.compare thread now totalDelay).delta = s.delta := by
  cases isLast : s.lastTs with
  | none =>
      unfold State.compare
      rw [isLast]
      rfl
  | some lastTs =>
      rw [compare_of_some isLast]
      rfl

/-- The interval of a limiter does not change. -/
theorem step_delta (s : State Thread) (action : Action Thread) :
    (step s action).delta = s.delta := by
  cases action with
  | tick => rfl
  | enter thread =>
      change (s.enter thread).delta = s.delta
      unfold State.enter
      cases s.phase thread <;> rfl
  | advance thread =>
      change (s.advance thread).delta = s.delta
      unfold State.advance
      cases s.phase thread with
      | acquiring =>
          dsimp only
          split <;> rfl
      | comparing => exact compare_delta ..
      | _ => rfl
  | interrupt thread =>
      change (s.interrupt thread).delta = s.delta
      unfold State.interrupt
      cases s.phase thread <;> rfl

theorem steps_delta (s : State Thread) (actions : List (Action Thread)) :
    (actions.foldl step s).delta = s.delta := by
  induction actions generalizing s with
  | nil => rfl
  | cons action actions ih => exact (ih (step s action)).trans (step_delta s action)

/-- The entries of any run are spaced. -/
theorem run_spaced (rateLimit : Option ℚ) (clock : ℚ) (actions : List (Action Thread)) :
    Spaced (RateLimiter.init Thread rateLimit).delta (run rateLimit clock actions).granted := by
  have inv : Inv (run rateLimit clock actions) := (Inv.initial rateLimit clock).steps actions
  have delta : (run rateLimit clock actions).delta = (RateLimiter.init Thread rateLimit).delta :=
    steps_delta _ actions
  exact delta ▸ inv.spaced

/-- Two entries are as many intervals apart as there are steps between them. -/
theorem entries_apart (rateLimit : Option ℚ) (clock : ℚ) (actions : List (Action Thread)) {i j : ℕ}
    (order : i < j) (bound : j < (run rateLimit clock actions).granted.length) :
    ((j : ℚ) - i) * (RateLimiter.init Thread rateLimit).delta ≤
      (run rateLimit clock actions).granted[j] - (run rateLimit clock actions).granted[i] := by
  have apart := (run_spaced rateLimit clock actions).apart order.le bound
  rw [nsmul_eq_mul, Nat.cast_sub order.le] at apart
  exact le_sub_iff_add_le'.mpr apart

/-- Two threads enter at once; the second one has its sleep cut short, and then sleeps for too
long. -/
def exampleActions : List (Action Bool) :=
  [.enter false, .enter true, .advance false, .advance false, .advance false, .advance false,
    .advance false, .advance true, .advance true, .tick (1 / 4), .advance true, .advance true,
    .tick (1 / 8), .advance true, .advance true, .advance true,
    .tick (1 / 2), .advance true, .advance true, .advance true,
    .tick (1 / 8), .advance true, .advance true, .advance true]

example : (run (some 2) 0 exampleActions).granted = [0, 1] := by decide +kernel

theorem entries_apart_example : ∃ _ : 1 < (run (some 2) 0 exampleActions).granted.length,
    (((1 : ℕ) : ℚ) - (0 : ℕ)) * (RateLimiter.init Bool (some 2)).delta ≤
      (run (some 2) 0 exampleActions).granted[1] - (run (some 2) 0 exampleActions).granted[0] :=
  have bound : 1 < (run (some 2) 0 exampleActions).granted.length := by decide +kernel
  ⟨bound, entries_apart (some 2) 0 exampleActions Nat.one_pos bound⟩

/-- In an interval there are at most as many entries as the rate allows, and one. -/
theorem entries_within {rate : ℚ} (positive : 0 < rate) (clock : ℚ) (actions : List (Action Thread))
    {first last : ℚ} (order : first ≤ last) :
    (((run (some rate) clock actions).granted.filter fun ts =>
      first ≤ ts ∧ ts ≤ last).length : ℚ) ≤ (last - first) * rate + 1 := by
  have delta : (RateLimiter.init Thread (some rate)).delta = 1 / rate := if_neg positive.ne'
  have spaced := run_spaced (some rate) clock actions
  rw [delta] at spaced
  have within := spaced.within (one_div_pos.mpr positive).le order
  rw [nsmul_eq_mul, mul_one_div, div_le_iff₀ positive] at within
  refine le_trans ?_ (add_le_add_left within 1)
  exact_mod_cast le_tsub_add

/-! ### Exceptions -/

/-- The delay that a thread asks for is positive. -/
theorem run_delay_pos (rateLimit : Option ℚ) (clock : ℚ) (actions : List (Action Thread))
    {delay totalDelay : ℚ}
    (sleeping : (run rateLimit clock actions).phase thread = .sleeping delay totalDelay) :
    0 < delay :=
  (((Inv.initial rateLimit clock).steps actions).knows_of sleeping).2

/-- No thread has left `_enter` with an exception. -/
def Quiet (s : State Thread) : Prop := ∀ thread, s.phase thread ≠ .raised

omit [DecidableEq Thread] in
theorem Quiet.initial (rateLimit : Option ℚ) (clock : ℚ) :
    Quiet (initial Thread rateLimit clock) := by
  intro thread
  change Phase.outside ≠ .raised
  nofun

theorem Quiet.goTo (quiet : Quiet s) (goesOn : phase ≠ .raised) : Quiet (s.goTo thread phase) := by
  intro other
  by_cases same : other = thread
  · subst same
    rwa [State.goTo_phase_self]
  · rw [State.goTo_phase_of_ne same]
    exact quiet other

/-- A step of a thread raises no exception. -/
theorem Quiet.advance (quiet : Quiet s) (inv : Inv s) (thread : Thread) :
    Quiet (s.advance thread) := by
  unfold State.advance
  cases isIn : s.phase thread with
  | outside | returned | raised => exact quiet
  | acquiring =>
      dsimp only
      split
      · exact Quiet.goTo (s := { s with lock := some thread }) quiet nofun
      · exact quiet
  | acquired =>
      dsimp only
      split
      · exact quiet.goTo nofun
      · exact quiet.goTo nofun
  | comparing now totalDelay =>
      obtain ⟨lastTs, isLast⟩ := Option.ne_none_iff_exists'.mp (inv.knows_of isIn).1
      change Quiet (s.compare thread now totalDelay)
      rw [compare_of_some isLast]
      split
      · exact quiet.goTo nofun
      · exact quiet.goTo nofun
  | recording ts totalDelay =>
      exact Quiet.goTo (s := { s with lastTs := some ts, granted := s.granted ++ [ts] }) quiet nofun
  | releasing => exact Quiet.goTo (s := { s with lock := none }) quiet nofun
  | looping | sleeping | leaving => exact quiet.goTo nofun

theorem Quiet.enter (quiet : Quiet s) (thread : Thread) : Quiet (s.enter thread) := by
  unfold State.enter
  cases s.phase thread with
  | outside | returned | raised => exact quiet.goTo nofun
  | _ => exact quiet

theorem Quiet.steps (quiet : Quiet s) (inv : Inv s) {actions : List (Action Thread)}
    (slept : ∀ thread, .interrupt thread ∉ actions) : Quiet (actions.foldl step s) := by
  induction actions generalizing s with
  | nil => exact quiet
  | cons action actions ih =>
      refine ih ?_ (inv.step action) fun thread mem => slept thread (List.mem_cons_of_mem _ mem)
      cases action with
      | tick => exact quiet
      | enter thread => exact quiet.enter thread
      | advance thread => exact quiet.advance inv thread
      | interrupt thread => exact absurd List.mem_cons_self (slept thread)

/-- A thread leaves `_enter` with an exception only if a sleep has raised it. -/
theorem run_quiet (rateLimit : Option ℚ) (clock : ℚ) {actions : List (Action Thread)}
    (slept : ∀ thread, .interrupt thread ∉ actions) : Quiet (run rateLimit clock actions) :=
  (Quiet.initial rateLimit clock).steps (Inv.initial rateLimit clock) slept

end Nodepool.RateLimit
