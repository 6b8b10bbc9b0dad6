import Nodepool.Effect.Footprint
import Nodepool.Effect.Interleave
import Nodepool.StateMachine.Provider

/-!
The stop of a provider, while request handlers go on launching nodes through it and a
worker that deletes nodes has looked it up before.

What a state machine does when it is run is the subject of other modules. Here it may
complete in any run, or not, and it may raise.
-/

namespace Nodepool

open Effect Method

structure StopWorld where
  /-- `launchers` and `deleters` -/
  machines : MachineKind → List Nat
  running : Bool
  /-- the executor takes no more work -/
  shutdown : Bool
  /-- the state machines that are complete -/
  complete : MachineKind → List Nat
  /-- all that were ever appended -/
  appended : MachineKind → List Nat
  /-- those that the runner has run in its present round -/
  ran : MachineKind → List Nat
  /-- `_stop` has left its loop -/
  left : Bool

inductive StopThread where
  | stop
  | runner (kind : MachineKind)
  | handler (n : Nat)
  | deleteWorker (n : Nat)
deriving DecidableEq

/-- A node that a request handler launches. -/
structure LaunchRequest where
  node : NodeRef
  providerName : String
  poolName : String
  retries : Nat

namespace StopWorld

def append (w : StopWorld) (kind : MachineKind) (m : Nat) : StopWorld :=
  { w with
    machines := Function.update w.machines kind (w.machines kind ++ [m])
    appended := Function.update w.appended kind (w.appended kind ++ [m]) }

def remove (w : StopWorld) (kind : MachineKind) (m : Nat) : StopWorld :=
  { w with machines := Function.update w.machines kind ((w.machines kind).erase m) }

def finish (w : StopWorld) (kind : MachineKind) (m : Nat) : StopWorld :=
  { w with complete := Function.update w.complete kind (m :: w.complete kind) }

def run (w : StopWorld) (kind : MachineKind) (m : Nat) : StopWorld :=
  { w with ran := Function.update w.ran kind (m :: w.ran kind) }

/-- The runner begins another round. -/
def restart (w : StopWorld) : StopThread → StopWorld
  | .runner kind => { w with ran := Function.update w.ran kind [] }
  | _ => w

/-- `_stop` finds no deleters either, and leaves its loop. -/
def leave (w : StopWorld) : StopThread → MachineKind → List Nat → StopWorld
  | .stop, .delete, [] => { w with left := true }
  | _, _, _ => w

/-- The worlds that a call can lead to if it gets the given reply. -/
def next (i : StopThread) (w : StopWorld) : (c : Call) → LauncherSig.Reply c → List StopWorld
  | .machines kind, .ok ms => if ms = w.machines kind then [w.leave i kind ms] else []
  | .machines _, .error _ => []
  | .appendMachine kind m, .ok _ => [w.append kind m]
  | .appendMachine _ _, .error _ => []
  | .removeMachine kind m, .ok _ => if m ∈ w.machines kind then [w.remove kind m] else []
  | .removeMachine kind m, .error _ => if m ∈ w.machines kind then [] else [w]
  | .runMachine kind m, _ => [w.run kind m, (w.run kind m).finish kind m]
  | .machineComplete kind m, .ok b => if b = decide (m ∈ w.complete kind) then [w] else []
  | .machineComplete _ _, .error _ => []
  | .isRunning, .ok b => if b = w.running then [w.restart i] else []
  | .isRunning, .error _ => []
  | .assignRunning b, .ok _ => [{ w with running := b }]
  | .assignRunning _, .error _ => []
  | .submitStart _, .ok _ => if w.shutdown then [] else [w]
  | .shutdownStartWorker, _ => [{ w with shutdown := true }]
  | .sleep, .error _ => []
  | .log _, .error _ => []
  | _, _ => [w]

/-- A launcher is also complete when something else changes the state of its node. -/
inductive Env (w : StopWorld) : StopWorld → Prop where
  | finish (kind : MachineKind) (m : Nat) : Env w (w.finish kind m)

/-- The provider has been started. -/
def init : StopWorld where
  machines _ := []
  running := true
  shutdown := false
  complete _ := []
  appended _ := []
  ran _ := []
  left := false

end StopWorld

namespace StopThread

abbrev State : StopThread → Type
  | .stop => StopPhase
  | .runner _ => RunnerPhase
  | .handler _ => Unit
  | .deleteWorker _ => Unit

abbrev Op : StopThread → Type
  | .stop => Unit
  | .runner _ => Unit
  | .handler _ => LaunchRequest
  | .deleteWorker _ => NodeRef

/-- The phase of a runner after a step; an exception ends its thread. -/
def after : Except Err Unit → RunnerPhase → RunnerPhase
  | .ok _, phase => phase
  | .error _, _ => .ended

/-- An exception in a handler or in the worker is logged by the caller. -/
def body : (i : StopThread) → i.Op → i.State → Prog LauncherSig i.State
  | .stop, _ => StateMachineProvider.stop.toBody fun _ s => s
  | .runner kind, _ => (StateMachineProvider.runStateMachines kind).toBody after
  | .handler n, r =>
      (StateMachineHandler.launch n r.node r.providerName r.poolName r.retries).toBody fun _ s => s
  | .deleteWorker _, o => (StateMachineProvider.startNodeCleanup o).toBody fun _ s => s

def enabled : (i : StopThread) → i.State → Bool
  | .stop, s => s ≠ .stopped
  | .runner _, s => s ≠ .ended
  | .handler _, _ => true
  | .deleteWorker _, _ => true

def initial : (i : StopThread) → i.State
  | .stop => .waiting
  | .runner _ => .waiting
  | .handler _ => ()
  | .deleteWorker _ => ()

end StopThread

abbrev stopSystem : System LauncherSig StopWorld StopThread where
  State := StopThread.State
  Op := StopThread.Op
  body := StopThread.body
  enabled i _ s _ := StopThread.enabled i s
  next := StopWorld.next
  env := StopWorld.Env

namespace StopSystem

open StopWorld

def init : Config stopSystem where
  world := StopWorld.init
  thread i := .pure i.initial

/-- The two lists are empty together when `_stop` leaves its loop, and nothing is
appended to them after that. -/
def Unraced (w : StopWorld) : Event stopSystem → Prop
  | .call .stop (.machines .delete) (.ok []) => w.machines .create = []
  | .call _ (.appendMachine _ _) _ => w.left = false
  | _ => True

variable {w w' w'' : StopWorld} {i : StopThread} {kind : MachineKind}

/-! ### Invariant, rely and requirement -/

structure Invariant (w : StopWorld) : Prop where
  kept : ∀ kind, ∀ m ∈ w.appended kind, m ∈ w.complete kind ∨ m ∈ w.machines kind
  empty : w.left = true → ∀ kind, w.machines kind = []
  stopped : w.running = false → w.left = true

/-- What the other threads do to the runner of the given machines. -/
structure Grows (kind : MachineKind) (w w' : StopWorld) : Prop where
  machines : w.machines kind <+: w'.machines kind
  complete : ∀ m ∈ w.complete kind, m ∈ w'.complete kind
  ran : w'.ran kind = w.ran kind
  running : w.running = false → w'.running = false

theorem Grows.refl (kind : MachineKind) (w : StopWorld) : Grows kind w w :=
  ⟨List.prefix_refl _, fun _ h => h, rfl, fun h => h⟩

theorem Grows.trans (h : Grows kind w w') (h' : Grows kind w' w'') : Grows kind w w'' where
  machines := h.machines.trans h'.machines
  complete m hm := h'.complete m (h.complete m hm)
  ran := h'.ran.trans h.ran
  running hr := h'.running (h.running hr)

def rely : StopThread → StopWorld → StopWorld → Prop
  | .stop, w, w' => w.left = true → w'.left = true
  | .runner kind, w, w' => Grows kind w w'
  | .handler _, _, _ => True
  | .deleteWorker _, _, _ => True

/-- Only the runner of a list takes machines from it, and only complete ones; `running`
is cleared when `_stop` has left its loop. -/
def Req (i : StopThread) (w : StopWorld) : Call → Prop
  | .removeMachine kind m => i = .runner kind ∧ m ∈ w.complete kind ∧ m ∈ w.machines kind
  | .runMachine kind _ => i = .runner kind
  | .assignRunning b => b = false ∧ w.left = true
  | _ => True

/-- What holds of a runner between two of its phases. -/
def At (kind : MachineKind) (w : StopWorld) : RunnerPhase → Prop
  | .waiting => True
  | .visiting index toRemove => index ≤ (w.machines kind).length ∧
      (∀ m ∈ (w.machines kind).take index, m ∈ w.ran kind) ∧
      List.Sublist toRemove ((w.machines kind).take index) ∧ ∀ m ∈ toRemove, m ∈ w.complete kind
  | .removing toRemove => List.Subperm toRemove (w.machines kind) ∧
      ∀ m ∈ toRemove, m ∈ w.complete kind
  | .ended => w.running = false

theorem At.grows {phase : RunnerPhase} (h : At kind w phase) (hg : Grows kind w w') :
    At kind w' phase := by
  cases phase with
  | waiting => trivial
  | visiting index toRemove =>
      obtain ⟨le, ran, sub, complete⟩ := h
      have take : (w'.machines kind).take index = (w.machines kind).take index := by
        obtain ⟨later, happ⟩ := hg.machines
        rw [← happ, List.take_append_of_le_length le]
      refine ⟨le.trans hg.machines.length_le, ?_, ?_, fun m hm => hg.complete m (complete m hm)⟩
      · rwa [take, hg.ran]
      · rwa [take]
  | removing toRemove =>
      exact ⟨h.1.trans hg.machines.sublist.subperm, fun m hm => hg.complete m (h.2 m hm)⟩
  | ended => exact hg.running h

/-! ### One step -/

theorem mem_machines {ms : List Nat} (h : w' ∈ w.next i (.machines kind) (.ok ms)) :
    ms = w.machines kind ∧ w' = w.leave i kind ms := by
  have h : w' ∈ if ms = w.machines kind then [w.leave i kind ms] else [] := h
  split at h
  · rename_i hms
    exact ⟨hms, List.mem_singleton.mp h⟩
  · cases h

theorem leave_eq (w : StopWorld) (i : StopThread) (kind : MachineKind) (ms : List Nat) :
    w.leave i kind ms = w ∨
      (i = .stop ∧ kind = .delete ∧ ms = []) ∧ w.leave i kind ms = { w with left := true } := by
  unfold leave
  split
  · exact Or.inr ⟨⟨rfl, rfl, rfl⟩, rfl⟩
  · exact Or.inl rfl

theorem mem_removeMachine {m : Nat} {r : LauncherSig.Reply (.removeMachine kind m)}
    (present : m ∈ w.machines kind) (h : w' ∈ w.next i (.removeMachine kind m) r) :
    w' = w.remove kind m := by
  cases r with
  | error e =>
      have h : w' ∈ if m ∈ w.machines kind then [] else [w] := h
      rw [if_pos present] at h
      cases h
  | ok v =>
      have h : w' ∈ if m ∈ w.machines kind then [w.remove kind m] else [] := h
      rw [if_pos present] at h
      exact List.mem_singleton.mp h

theorem mem_runMachine {m : Nat} {r : LauncherSig.Reply (.runMachine kind m)}
    (h : w' ∈ w.next i (.runMachine kind m) r) :
    w' = w.run kind m ∨ w' = (w.run kind m).finish kind m :=
  List.mem_pair.mp h

theorem mem_machineComplete {m : Nat} {b : Bool}
    (h : w' ∈ w.next i (.machineComplete kind m) (.ok b)) :
    w' = w ∧ (b = true → m ∈ w.complete kind) := by
  have h : w' ∈ if b = decide (m ∈ w.complete kind) then [w] else [] := h
  split at h
  · rename_i hb
    exact ⟨List.mem_singleton.mp h, fun ht => of_decide_eq_true (hb.symm.trans ht)⟩
  · cases h

theorem mem_isRunning {b : Bool} (h : w' ∈ w.next i .isRunning (.ok b)) :
    b = w.running ∧ w' = w.restart i := by
  have h : w' ∈ if b = w.running then [w.restart i] else [] := h
  split at h
  · rename_i hb
    exact ⟨hb, List.mem_singleton.mp h⟩
  · cases h

/-- The calls that change nothing that is modelled here, but for the executor. -/
def Plain : Call → Prop
  | .machines _ | .appendMachine _ _ | .removeMachine _ _ | .runMachine _ _ | .isRunning
  | .assignRunning _ => False
  | _ => True

theorem next_plain {c : Call} {r : LauncherSig.Reply c} (hc : Plain c) (h : w' ∈ w.next i c r) :
    w' = { w with shutdown := w'.shutdown } := by
  cases c with
  | machines kind | appendMachine kind m | removeMachine kind m | runMachine kind m | isRunning
  | assignRunning b => cases hc
  | machineComplete kind m =>
      cases r with
      | error e => cases h
      | ok b =>
          obtain ⟨rfl, -⟩ := mem_machineComplete h
          rfl
  | submitStart l =>
      cases r with
      | error e =>
          obtain rfl := List.mem_singleton.mp h
          rfl
      | ok v =>
          have h : w' ∈ if w.shutdown then [] else [w] := h
          split at h
          · cases h
          · obtain rfl := List.mem_singleton.mp h
            rfl
  | sleep | log message =>
      cases r with
      | error e => cases h
      | ok v =>
          obtain rfl := List.mem_singleton.mp h
          rfl
  | _ =>
      cases r <;>
        (obtain rfl := List.mem_singleton.mp h
         rfl)

theorem Invariant.append (h : Invariant w) (open_ : w.left = false) (kind : MachineKind) (m : Nat) :
    Invariant (w.append kind m) where
  kept k x hx := by
    by_cases hk : k = kind
    · subst hk
      simp only [StopWorld.append, Function.update_self, List.mem_append, List.mem_singleton]
        at hx ⊢
      rcases hx with hx | rfl
      · exact (h.kept k x hx).imp_right Or.inl
      · exact Or.inr (Or.inr rfl)
    · simp only [StopWorld.append, Function.update_of_ne hk] at hx ⊢
      exact h.kept k x hx
  empty hl := absurd (open_.symm.trans hl) (by decide)
  stopped := h.stopped

theorem Invariant.remove (h : Invariant w) {m : Nat} (complete : m ∈ w.complete kind) :
    Invariant (w.remove kind m) where
  kept k x hx := by
    refine (h.kept k x hx).elim Or.inl fun present => ?_
    by_cases hk : k = kind
    · subst hk
      by_cases hxm : x = m
      · exact Or.inl (by rw [hxm]; exact complete)
      · refine Or.inr ?_
        simp only [StopWorld.remove, Function.update_self]
        exact (List.mem_erase_of_ne hxm).mpr present
    · simp only [StopWorld.remove, Function.update_of_ne hk]
      exact Or.inr present
  empty hl k := by
    by_cases hk : k = kind
    · subst hk
      simp only [StopWorld.remove, Function.update_self, h.empty hl k, List.erase_nil]
    · simp only [StopWorld.remove, Function.update_of_ne hk]
      exact h.empty hl k
  stopped := h.stopped

theorem mem_finish {k : MachineKind} {x m : Nat} (hx : x ∈ w.complete k) :
    x ∈ (w.finish kind m).complete k := by
  by_cases hk : k = kind
  · subst hk
    simp only [StopWorld.finish, Function.update_self]
    exact List.mem_cons_of_mem m hx
  · simpa only [StopWorld.finish, Function.update_of_ne hk] using hx

theorem Invariant.finish (h : Invariant w) (kind : MachineKind) (m : Nat) :
    Invariant (w.finish kind m) :=
  ⟨fun k x hx => (h.kept k x hx).imp_left mem_finish, h.empty, h.stopped⟩

/-- Every call that respects the requirement keeps the invariant, in a run without the
race. -/
theorem next_invariant {c : Call} {r : LauncherSig.Reply c} (h : Invariant w) (hreq : Req i w c)
    (hok : Unraced w (.call i c r)) (hs : w' ∈ w.next i c r) : Invariant w' := by
  by_cases plain : Plain c
  · rw [next_plain plain hs]
    exact ⟨h.kept, h.empty, h.stopped⟩
  cases c with
  | machines kind =>
      cases r with
      | error e => cases hs
      | ok ms =>
          obtain ⟨hms, rfl⟩ := mem_machines hs
          rcases leave_eq w i kind ms with hl | ⟨⟨rfl, rfl, rfl⟩, hl⟩
          · rwa [hl]
          · rw [hl]
            refine ⟨h.kept, fun _ k => ?_, fun _ => rfl⟩
            cases k with
            | create => exact hok
            | delete => exact hms.symm
  | appendMachine kind m =>
      cases r with
      | error e => cases hs
      | ok v =>
          obtain rfl := List.mem_singleton.mp hs
          have open_ : w.left = false := by cases i <;> exact hok
          exact h.append open_ kind m
  | removeMachine kind m =>
      rw [mem_removeMachine hreq.2.2 hs]
      exact h.remove hreq.2.1
  | runMachine kind m =>
      have hrun : Invariant (w.run kind m) := ⟨h.kept, h.empty, h.stopped⟩
      rcases mem_runMachine hs with rfl | rfl
      · exact hrun
      · exact hrun.finish kind m
  | isRunning =>
      cases r with
      | error e => cases hs
      | ok b =>
          obtain ⟨-, rfl⟩ := mem_isRunning hs
          cases i <;> exact ⟨h.kept, h.empty, h.stopped⟩
  | assignRunning b =>
      cases r with
      | error e => cases hs
      | ok v =>
          obtain rfl := List.mem_singleton.mp hs
          exact ⟨h.kept, h.empty, fun _ => hreq.2⟩
  | _ => exact absurd trivial plain

theorem grows_finish (k : MachineKind) (kind : MachineKind) (m : Nat) :
    Grows k w (w.finish kind m) :=
  ⟨List.prefix_refl _, fun _ h => mem_finish h, rfl, fun h => h⟩

/-- What a thread does to the runner of other machines. -/
theorem next_grows {c : Call} {r : LauncherSig.Reply c} (hi : i ≠ .runner kind)
    (hreq : Req i w c) (hs : w' ∈ w.next i c r) : Grows kind w w' := by
  by_cases plain : Plain c
  · rw [next_plain plain hs]
    exact ⟨List.prefix_refl _, fun _ h => h, rfl, fun h => h⟩
  cases c with
  | machines k =>
      cases r with
      | error e => cases hs
      | ok ms =>
          obtain ⟨-, rfl⟩ := mem_machines hs
          rcases leave_eq w i k ms with hl | ⟨-, hl⟩
          · rw [hl]
            exact .refl kind w
          · rw [hl]
            exact ⟨List.prefix_refl _, fun _ h => h, rfl, fun h => h⟩
  | appendMachine k m =>
      cases r with
      | error e => cases hs
      | ok v =>
          obtain rfl := List.mem_singleton.mp hs
          refine ⟨?_, fun _ h => h, rfl, fun h => h⟩
          by_cases hk : kind = k
          · subst hk
            simp only [StopWorld.append, Function.update_self]
            exact List.prefix_append _ _
          · simp only [StopWorld.append, Function.update_of_ne hk]
            exact List.prefix_refl _
  | removeMachine k m =>
      have hk : kind ≠ k := fun h => hi (by rw [h]; exact hreq.1)
      rw [mem_removeMachine hreq.2.2 hs]
      refine ⟨?_, fun _ h => h, rfl, fun h => h⟩
      simp only [StopWorld.remove, Function.update_of_ne hk]
      exact List.prefix_refl _
  | runMachine k m =>
      have hk : kind ≠ k := fun h => hi (by rw [h]; exact hreq)
      have ran : Grows kind w (w.run k m) :=
        ⟨List.prefix_refl _, fun _ h => h, Function.update_of_ne hk _ _, fun h => h⟩
      rcases mem_runMachine hs with rfl | rfl
      · exact ran
      · exact ran.trans (grows_finish kind k m)
  | isRunning =>
      cases r with
      | error e => cases hs
      | ok b =>
          obtain ⟨-, rfl⟩ := mem_isRunning hs
          cases i with
          | runner k =>
              have hk : kind ≠ k := fun h => hi (by rw [h])
              exact ⟨List.prefix_refl _, fun _ h => h, Function.update_of_ne hk _ _, fun h => h⟩
          | _ => exact .refl kind w
  | assignRunning b =>
      cases r with
      | error e => cases hs
      | ok v =>
          obtain rfl := List.mem_singleton.mp hs
          exact ⟨List.prefix_refl _, fun _ h => h, rfl, fun _ => hreq.1⟩
  | _ => exact absurd trivial plain

/-- Once `_stop` has left its loop, it has. -/
theorem next_left {c : Call} {r : LauncherSig.Reply c} (hs : w' ∈ w.next i c r)
    (h : w.left = true) : w'.left = true := by
  by_cases plain : Plain c
  · rw [next_plain plain hs]
    exact h
  cases c with
  | machines k =>
      cases r with
      | error e => cases hs
      | ok ms =>
          obtain ⟨-, rfl⟩ := mem_machines hs
          rcases leave_eq w i k ms with hl | ⟨-, hl⟩
          · rwa [hl]
          · rw [hl]
  | removeMachine k m =>
      by_cases present : m ∈ w.machines k
      · rw [mem_removeMachine present hs]
        exact h
      · cases r <;> simp only [next, if_neg present] at hs
        · obtain rfl := List.mem_singleton.mp hs
          exact h
        · cases hs
  | runMachine k m => rcases mem_runMachine hs with rfl | rfl <;> exact h
  | isRunning =>
      cases r with
      | error e => cases hs
      | ok b =>
          obtain ⟨-, rfl⟩ := mem_isRunning hs
          cases i <;> exact h
  | appendMachine _ _ | assignRunning _ =>
      cases r with
      | error e => cases hs
      | ok v =>
          obtain rfl := List.mem_singleton.mp hs
          exact h
  | _ => exact absurd trivial plain

/-! ### The methods of the threads -/

abbrev context (i : StopThread) : Context LauncherSig StopWorld :=
  stopSystem.context Unraced Invariant (rely i) (Req i) i

section Runner

variable {s : RunnerPhase} {index m : Nat} {toRemove : List Nat}

/-- The runner ends in one of its phases, and never by an exception. -/
abbrev Runs {α : Type} (kind : MachineKind) (method : LauncherM RunnerPhase α) (s : RunnerPhase)
    (w : StopWorld) : Prop :=
  method.wp (context (.runner kind)) (fun _ s w => At kind w s) (fun _ _ _ => False) s w

theorem beginRound_wp : Runs kind StateMachineProvider.beginRound s w := by
  refine wp_bind.mpr (Method.wp_call (P := fun _ => True) (fun _ _ _ => trivial) trivial
    (fun _ _ _ => trivial) ?_ fun _ _ _ _ _ hs _ => nomatch hs.1)
  intro b w₁ w₂ _ _ hs _
  obtain ⟨rfl, rfl⟩ := mem_isRunning hs.1
  change At kind _ (if w₁.running then _ else _)
  cases hr : w₁.running with
  | true =>
      exact ⟨Nat.zero_le _, fun x hx => absurd hx List.not_mem_nil, List.nil_sublist _,
        fun x hx => absurd hx List.not_mem_nil⟩
  | false => exact hr

/-- The state machine at the present index. -/
def Visits (kind : MachineKind) (index m : Nat) (toRemove : List Nat) (w : StopWorld) : Prop :=
  At kind w (.visiting index toRemove) ∧ (w.machines kind)[index]? = some m

theorem Visits.grows (h : Visits kind index m toRemove w) (hg : Grows kind w w') :
    Visits kind index m toRemove w' := by
  refine ⟨h.1.grows hg, ?_⟩
  obtain ⟨later, happ⟩ := hg.machines
  obtain ⟨lt, -⟩ := List.getElem?_eq_some_iff.mp h.2
  rw [← happ, List.getElem?_append_left lt, h.2]

theorem Visits.run (h : Visits kind index m toRemove w) :
    Visits kind index m toRemove (w.run kind m) ∧ m ∈ (w.run kind m).ran kind := by
  obtain ⟨⟨le, ran, sub, complete⟩, current⟩ := h
  have present : ∀ x, x ∈ m :: w.ran kind → x ∈ (w.run kind m).ran kind := fun x hx => by
    simpa only [StopWorld.run, Function.update_self] using hx
  exact ⟨⟨⟨le, fun x hx => present x (List.mem_cons_of_mem m (ran x hx)), sub, complete⟩, current⟩,
    present m List.mem_cons_self⟩

/-- The next phase, when the state machine has been run. -/
theorem Visits.next {b : Bool} (h : Visits kind index m toRemove w) (hran : m ∈ w.ran kind)
    (hb : b = true → m ∈ w.complete kind) :
    At kind w (.visiting (index + 1) (if b then toRemove ++ [m] else toRemove)) := by
  obtain ⟨⟨-, ran, sub, complete⟩, current⟩ := h
  obtain ⟨lt, -⟩ := List.getElem?_eq_some_iff.mp current
  have take : (w.machines kind).take (index + 1) = (w.machines kind).take index ++ [m] := by
    rw [List.take_add_one, current]
    rfl
  refine ⟨lt, ?_, ?_, ?_⟩
  · rw [take]
    intro x hx
    rcases List.mem_append.mp hx with hx | hx
    · exact ran x hx
    · rw [List.mem_singleton.mp hx]
      exact hran
  · rw [take]
    cases b with
    | true => exact sub.append (.refl [m])
    | false => exact sub.trans (List.sublist_append_left _ [m])
  · cases b with
    | false => exact complete
    | true =>
        intro x hx
        rcases List.mem_append.mp hx with hx | hx
        · exact complete x hx
        · rw [List.mem_singleton.mp hx]
          exact hb rfl

/-- A state machine that was run, completely if the result says so. -/
def Ran (kind : MachineKind) (index m : Nat) (toRemove : List Nat) (b : Bool) (w : StopWorld) :
    Prop :=
  Visits kind index m toRemove w ∧ m ∈ w.ran kind ∧ (b = true → m ∈ w.complete kind)

theorem Ran.grows {b : Bool} (h : Ran kind index m toRemove b w) (hg : Grows kind w w') :
    Ran kind index m toRemove b w' :=
  ⟨h.1.grows hg, by rw [hg.ran]; exact h.2.1, fun hb => hg.complete m (h.2.2 hb)⟩

theorem runMachine_wp (h : Visits kind index m toRemove w) :
    (StateMachineProvider.runMachine kind m).wp (context (.runner kind))
      (fun b _ w => Ran kind index m toRemove b w) (fun _ _ _ => False) s w := by
  have after : ∀ (r : LauncherSig.Reply (.runMachine kind m)) (w₁ w₂ : StopWorld),
      Visits kind index m toRemove w₁ → w₂ ∈ w₁.next (.runner kind) (.runMachine kind m) r →
      Ran kind index m toRemove false w₂ := by
    intro r w₁ w₂ h₁ mem
    have hrun : Ran kind index m toRemove false (w₁.run kind m) :=
      ⟨h₁.run.1, h₁.run.2, fun hb => nomatch hb⟩
    rcases mem_runMachine mem with rfl | rfl
    · exact hrun
    · exact hrun.grows (grows_finish kind kind m)
  refine wp_tryCatch.mpr (wp_bind.mpr (Method.wp_call (P := Visits kind index m toRemove)
    (fun h hg _ => h.grows hg) h (fun _ _ _ => rfl) ?_ ?_))
  · intro _ w₁ w₂ h₁ _ hs _
    refine Method.wp_call (P := Ran kind index m toRemove false) (fun h hg _ => h.grows hg)
      (after (.ok ()) w₁ w₂ h₁ hs.1) (fun _ _ _ => trivial) ?_ fun _ _ _ _ _ hs _ => nomatch hs.1
    intro b w₃ w₄ h₃ _ hs _
    have mem : w₄ ∈ w₃.next (.runner kind) (.machineComplete kind m) (.ok b) := hs.1
    obtain ⟨rfl, hb⟩ := mem_machineComplete mem
    exact ⟨h₃.1, h₃.2.1, hb⟩
  · intro e w₁ w₂ h₁ _ hs _
    refine wp_bind.mpr (Method.wp_call (P := Ran kind index m toRemove false)
      (fun h hg _ => h.grows hg) (after (.error e) w₁ w₂ h₁ hs.1) (fun _ _ _ => trivial) ?_
      fun _ _ _ _ _ hs _ => nomatch hs.1)
    intro _ w₃ w₄ h₃ _ hs _
    obtain rfl := List.mem_singleton.mp hs.1
    exact h₃

theorem visitNext_wp (h : At kind w (.visiting index toRemove)) :
    Runs kind (StateMachineProvider.visitNext kind index toRemove) s w := by
  refine wp_bind.mpr (Method.wp_call (P := fun w => At kind w (.visiting index toRemove))
    (fun h hg _ => h.grows hg) h (fun _ _ _ => trivial) ?_ fun _ _ _ _ _ hs _ => nomatch hs.1)
  intro ms w₁ w₂ h₁ _ hs _
  obtain ⟨rfl, hw⟩ := mem_machines hs.1
  obtain rfl : w₂ = w₁ := hw
  cases current : (w₂.machines kind)[index]? with
  | none =>
      have sub := h₁.2.2.1.trans (List.take_sublist index (w₂.machines kind))
      exact ⟨sub.subperm, h₁.2.2.2⟩
  | some m =>
      refine wp_bind.mpr (wp_mono (runMachine_wp (m := m) ⟨h₁, current⟩) ?_ fun _ _ _ h => h)
      intro b s₃ w₃ h₃
      exact h₃.1.next h₃.2.1 h₃.2.2

theorem removeNext_wp (h : At kind w (.removing toRemove)) :
    Runs kind (StateMachineProvider.removeNext kind toRemove) s w := by
  cases toRemove with
  | nil =>
      exact wp_bind.mpr (Method.wp_call (P := fun _ => True) (fun _ _ _ => trivial) trivial
        (fun _ _ _ => trivial) (fun _ _ _ _ _ _ _ => trivial)
        fun _ _ _ _ _ hs _ => nomatch hs.1)
  | cons m rest =>
      have present : ∀ {w}, At kind w (.removing (m :: rest)) → m ∈ w.machines kind :=
        fun h => h.1.subset List.mem_cons_self
      refine wp_bind.mpr (Method.wp_call (P := fun w => At kind w (.removing (m :: rest)))
        (fun h hg _ => h.grows hg) h
        (fun _ h _ => ⟨rfl, h.2 m List.mem_cons_self, present h⟩) ?_ ?_)
      · intro _ w₁ w₂ h₁ _ hs _
        have mem : w₂ ∈ w₁.next (.runner kind) (.removeMachine kind m) (.ok ()) := hs.1
        obtain rfl := mem_removeMachine (present h₁) mem
        have erased : List.Subperm rest ((w₁.machines kind).erase m) := by
          simpa using h₁.1.erase m
        refine ⟨?_, fun x hx => h₁.2 x (List.mem_cons_of_mem m hx)⟩
        simpa only [StopWorld.remove, Function.update_self] using erased
      · intro e w₁ w₂ h₁ _ hs _
        have mem : w₂ ∈ w₁.next (.runner kind) (.removeMachine kind m) (.error e) := hs.1
        simp only [StopWorld.next, if_pos (present h₁)] at mem
        cases mem

theorem runStateMachines_wp (h : At kind w s) :
    Runs kind (StateMachineProvider.runStateMachines kind) s w := by
  cases s with
  | waiting => exact beginRound_wp
  | visiting index toRemove => exact visitNext_wp h
  | removing toRemove => exact removeNext_wp h
  | ended => exact h

end Runner

theorem req_of_plain {c : Call} (hc : Plain c) : Req i w c := by
  cases c with
  | removeMachine kind m | runMachine kind m | assignRunning b => cases hc
  | _ => trivial

/-- `_stop` clears `running` when it has left its loop. -/
theorem stop_wp {s : StopPhase} :
    StateMachineProvider.stop.wp (context .stop) (fun _ _ _ => True) (fun _ _ _ => True) s w := by
  have any : ∀ {α : Type} {m : LauncherM StopPhase α}, Within Plain (fun _ => ()) m →
      ∀ s w, m.wp (context .stop) (fun _ _ _ => True) (fun _ _ _ => True) s w := by
    intro α m within s w
    have stable : Stable (context .stop) Plain fun _ => True :=
      { rely := fun _ _ _ => trivial
        req := fun {c _} hc _ _ => req_of_plain hc
        step := fun _ _ _ _ _ => trivial }
    exact wp_mono (within.wp stable trivial) (fun _ _ _ _ => trivial) fun _ _ _ _ => trivial
  have sleep : Within Plain (fun _ => ()) (call .sleep : LauncherM StopPhase _) :=
    .perform trivial
  refine wp_bind.mpr (Method.wp_call (P := fun _ => True) (fun _ _ _ => trivial) trivial
    (fun _ _ _ => trivial) ?_ fun _ _ _ _ _ _ _ => trivial)
  intro launchers w₁ w₂ _ _ _ _
  split
  · exact any sleep _ _
  refine wp_bind.mpr (Method.wp_call (P := fun _ => True) (fun _ _ _ => trivial) trivial
    (fun _ _ _ => trivial) ?_ fun _ _ _ _ _ _ _ => trivial)
  intro deleters w₃ w₄ _ _ hs _
  split
  · exact any sleep _ _
  rename_i none_left
  obtain rfl : deleters = [] := by simpa using none_left
  obtain ⟨-, rfl⟩ := mem_machines hs.1
  refine wp_bind.mpr (Method.wp_call (P := fun w => w.left = true) (fun h hr _ => hr h) rfl
    (fun _ h _ => ⟨rfl, h⟩) (fun _ _ _ _ _ _ _ => ?_) fun _ _ _ _ _ hs _ => nomatch hs.1)
  have rest : Within Plain (fun _ => ()) (do
      call .stopNodescanWorker
      call .shutdownStartWorker
      call .stopAdapter
      assign fun _ => .stopped : LauncherM StopPhase Unit) :=
    .bind (.perform trivial) fun _ => .bind (.perform trivial) fun _ =>
      .bind (.perform trivial) fun _ => .assign fun _ => rfl
  exact any rest _ _

/-- The calls that hand over a state machine to its runner. -/
def HandsOver : Call → Prop
  | .appendMachine _ _ => True
  | c => Plain c

theorem handsOver_storeNode {σ : Type} (o : NodeRef) :
    Within HandsOver (fun _ : σ => ()) (ZooKeeper.storeNode o) :=
  .bind (.perform trivial) fun _ => .ite (.perform trivial) (.perform trivial)

theorem handsOver_startStateMachine {σ : Type} (l : Nat) :
    Within HandsOver (fun _ : σ => ()) (StateMachineNodeLauncher.startStateMachine l) := by
  have image : ∀ provider label, Within HandsOver (fun _ : σ => ())
      (StateMachineNodeLauncher.imageExternalId provider label) := by
    intro provider label
    unfold StateMachineNodeLauncher.imageExternalId
    cases label.diskimage with
    | none => exact .pure
    | some diskimage =>
        refine .bind (.perform trivial) fun image => ?_
        cases image with
        | none => exact .throw
        | some image => exact .pure
  refine .bind (.perform trivial) fun _ => .bind (.perform trivial) fun _ =>
    .bind (.perform trivial) fun _ => .bind (image _ _) fun _ => .bind (.perform trivial) fun _ =>
    .bind (.perform trivial) fun _ => .bind (handsOver_storeNode _) fun _ =>
    .bind (.perform trivial) fun object => ?_
  cases object.id with
  | none => exact .throw
  | some id => exact .bind (.perform trivial) fun _ => .perform trivial

theorem handsOver_launch {σ : Type} (handler : Nat) (node : NodeRef)
    (providerName poolName : String) (retries : Nat) :
    Within HandsOver (fun _ : σ => ())
      (StateMachineHandler.launch handler node providerName poolName retries) := by
  have launch : ∀ l, Within HandsOver (fun _ : σ => ()) (StateMachineNodeLauncher.launch l) :=
    fun l => .bind (.perform trivial) fun _ => .bind (.perform trivial) fun _ =>
      .ite (.bind (.perform trivial) fun _ => .perform trivial) (handsOver_startStateMachine l)
  exact .bind (.perform trivial) fun l =>
    .bind (launch l) fun _ => .bind (.perform trivial) fun _ =>
    .perform trivial

theorem handsOver_startNodeCleanup {σ : Type} (o : NodeRef) :
    Within HandsOver (fun _ : σ => ()) (StateMachineProvider.startNodeCleanup o) :=
  .bind (.perform trivial) fun _ => .perform trivial

/-- A thread that hands over state machines has no obligations. -/
theorem handsOver_wp {α : Type} {m : LauncherM Unit α} (within : Within HandsOver (fun _ => ()) m)
    {s : Unit} :
    m.wp (context i) (fun _ _ _ => True) (fun _ _ _ => True) s w := by
  have stable : Stable (context i) HandsOver fun _ => True :=
    { rely := fun _ _ _ => trivial
      req := fun {c _} hc _ _ => by
        cases c with
        | removeMachine kind m | runMachine kind m | assignRunning b => cases hc
        | _ => trivial
      step := fun _ _ _ _ _ => trivial }
  exact wp_mono (within.wp stable trivial) (fun _ _ _ _ => trivial) fun _ _ _ _ => trivial

/-! ### Runs -/

/-- What holds of the attributes of a thread while it is idle. -/
def idle : (i : StopThread) → i.State → StopWorld → Prop
  | .runner kind, phase, w => At kind w phase
  | _, _, _ => True

def outline : Outline stopSystem Unraced where
  inv := Invariant
  rely := rely
  req := Req
  linv := idle
  rely_refl i w := by
    cases i with
    | stop => exact fun h => h
    | runner kind => exact .refl kind w
    | _ => trivial
  rely_trans i _ _ _ h h' := by
    cases i with
    | stop => exact fun hl => h' (h hl)
    | runner kind => exact Grows.trans h h'
    | _ => trivial
  linv_stable i _ _ _ h hr _ := by
    cases i with
    | runner kind => exact At.grows h hr
    | _ => trivial
  entry i op s w _ _ _ h := by
    cases i with
    | stop =>
        change (StateMachineProvider.stop.toBody (fun _ s => s) s).wp (context .stop)
          (fun _ _ => True) w
        exact wp_toBody.mpr stop_wp
    | runner kind =>
        change ((StateMachineProvider.runStateMachines kind).toBody StopThread.after s).wp
          (context (.runner kind)) (fun phase w => At kind w phase) w
        exact wp_toBody.mpr (wp_mono (runStateMachines_wp h) (fun _ _ _ h => h)
          fun _ _ _ h => absurd h id)
    | handler n =>
        change ((StateMachineHandler.launch n op.node op.providerName op.poolName op.retries).toBody
          (fun _ s => s) s).wp (context (.handler n)) (fun _ _ => True) w
        exact wp_toBody.mpr (handsOver_wp (i := .handler n) (handsOver_launch _ _ _ _ _))
    | deleteWorker n =>
        change ((StateMachineProvider.startNodeCleanup op).toBody (fun _ s => s) s).wp
          (context (.deleteWorker n)) (fun _ _ => True) w
        exact wp_toBody.mpr (handsOver_wp (i := .deleteWorker n) (handsOver_startNodeCleanup op))
  call_inv _ _ _ _ _ h hreq hok hs := next_invariant h hreq hok hs
  call_rely i j _ _ _ _ hij _ hreq _ hs := by
    cases j with
    | stop => exact next_left hs
    | runner kind => exact next_grows hij hreq hs
    | _ => trivial
  env_inv h henv := by
    cases henv with
    | finish kind m => exact h.finish kind m
  env_rely j _ _ _ henv := by
    cases henv with
    | finish kind m =>
        cases j with
        | stop => exact fun h => h
        | runner k => exact grows_finish k kind m
        | _ => trivial

theorem init_safe : outline.Safe init := by
  refine Outline.Safe.of_idle ⟨fun _ m hm => absurd hm List.not_mem_nil,
    fun hl => absurd hl (by decide), fun hr => absurd hr (by decide)⟩ fun i => ⟨i.initial, rfl, ?_⟩
  cases i <;> trivial

/-- In a round, the runner runs the state machines of its list one after the other: it
has run all that stand before the present index. -/
theorem visited_ran {cfg : Config stopSystem} (run : stopSystem.Run Unraced init cfg)
    {kind : MachineKind} {index : Nat} {toRemove : List Nat}
    (visiting : cfg.thread (.runner kind) = .pure (.visiting index toRemove)) :
    ∀ m ∈ (cfg.world.machines kind).take index, m ∈ cfg.world.ran kind := by
  have h : At kind cfg.world (.visiting index toRemove) :=
    (outline.sound init_safe run).idle visiting
  exact h.2.1

/-- **Main result.** A state machine that was appended is complete, or it is in the list
and its runner has not ended; in every run in which the two lists are empty together
when `_stop` leaves its loop, and in which nothing is appended after that. -/
theorem not_stranded {cfg : Config stopSystem} (run : stopSystem.Run Unraced init cfg)
    (kind : MachineKind) (m : Nat) (appended : m ∈ cfg.world.appended kind) :
    m ∈ cfg.world.complete kind ∨
      m ∈ cfg.world.machines kind ∧ cfg.thread (.runner kind) ≠ .pure .ended := by
  have safe := outline.sound init_safe run
  have inv : Invariant cfg.world := safe.inv
  refine (inv.kept kind m appended).imp_right fun present => ⟨present, fun ended => ?_⟩
  have stopped : cfg.world.running = false := safe.idle ended
  rw [inv.empty (inv.stopped stopped) kind] at present
  exact List.not_mem_nil present

/-! ### Examples -/

/-- Answers of calls that succeed; the worker makes deleters with number 7. -/
def exampleAnswer (w : StopWorld) : (c : Call) → LauncherSig.Reply c
  | .machines kind => .ok (w.machines kind)
  | .machineComplete kind m => .ok (decide (m ∈ w.complete kind))
  | .isRunning => .ok w.running
  | .newDeleter _ => .ok 7
  | .appendMachine _ _ | .runMachine _ _ | .removeMachine _ _ | .assignRunning _ | .sleep
  | .stopNodescanWorker | .shutdownStartWorker | .stopAdapter => .ok ()
  | _ => .error .other

def exampleNext (i : StopThread) (n : Nat) : List (System.Action stopSystem) :=
  List.replicate n (.respond i exampleAnswer 0)

/-- `Unraced` as a test. -/
def unraced (w : StopWorld) : Event stopSystem → Bool
  | .call .stop (.machines .delete) (.ok []) => w.machines .create = []
  | .call _ (.appendMachine _ _) _ => !w.left
  | _ => true

theorem unraced_of_test (w : StopWorld) (e : Event stopSystem) (h : unraced w e = true) :
    Unraced w e := by
  unfold unraced at h
  unfold Unraced
  split <;> simp_all

/-- A deleter is appended, completes in its first round and is removed. -/
def deleterSchedule : List (System.Action stopSystem) :=
  .start (.deleteWorker 0) (.own 0) :: exampleNext (.deleteWorker 0) 2 ++
    .start (.runner .delete) () :: exampleNext (.runner .delete) 1 ++
    .start (.runner .delete) () :: exampleNext (.runner .delete) 1 ++
    -- of the two outcomes of a run, the second is that the machine is complete
    .respond (.runner .delete) exampleAnswer 1 :: exampleNext (.runner .delete) 1 ++
    .start (.runner .delete) () :: exampleNext (.runner .delete) 1 ++
    .start (.runner .delete) () :: exampleNext (.runner .delete) 1 ++
    .start (.runner .delete) () :: exampleNext (.runner .delete) 1

/-- `_stop` leaves its loop and ends, and then the runner of the deleters does. -/
def stopSchedule : List (System.Action stopSystem) :=
  .start .stop () :: exampleNext .stop 6 ++
    .start (.runner .delete) () :: exampleNext (.runner .delete) 1

/-- The provider is stopped after a deleter has completed. -/
theorem not_stranded_stopSchedule : ∃ cfg, stopSystem.Run Unraced init cfg ∧
    cfg.thread .stop = .pure .stopped ∧ cfg.thread (.runner .delete) = .pure .ended ∧
      7 ∈ cfg.world.appended .delete ∧ 7 ∈ cfg.world.complete .delete := by
  have replay : ((System.exec unraced init (deleterSchedule ++ stopSchedule)).any fun cfg =>
      cfg.world.appended .delete = [7] && cfg.idle .stop (· = .stopped) &&
        cfg.idle (.runner .delete) (· = .ended)) = true := by
    decide +kernel
  obtain ⟨cfg, run, replay⟩ := System.exists_run_of_exec Unraced unraced_of_test replay
  obtain ⟨replay, ended⟩ := Bool.and_eq_true_iff.mp replay
  obtain ⟨appended, stopped⟩ := Bool.and_eq_true_iff.mp replay
  obtain ⟨s, stop, stopped⟩ := Config.idle_iff.mp stopped
  obtain ⟨phase, runner, ended⟩ := Config.idle_iff.mp ended
  obtain rfl := of_decide_eq_true stopped
  obtain rfl := of_decide_eq_true ended
  have mem : 7 ∈ cfg.world.appended .delete := by
    rw [of_decide_eq_true appended]
    exact List.mem_singleton_self 7
  exact ⟨cfg, run, stop, runner, mem,
    (not_stranded run .delete 7 mem).resolve_right fun present => present.2 runner⟩

/-- `_stop` leaves its loop, and the runner of the deleters ends, between the making of a
deleter and its being appended. -/
theorem not_forall_not_stranded :
    ¬ ∀ cfg : Config stopSystem, stopSystem.Run (System.always stopSystem) init cfg →
      ∀ kind, ∀ m ∈ cfg.world.appended kind, m ∈ cfg.world.complete kind ∨
        m ∈ cfg.world.machines kind ∧ cfg.thread (.runner kind) ≠ .pure .ended := by
  intro h
  have hexec : ∃ cfg, System.exec (fun _ _ => true) init
      (.start (.deleteWorker 0) (.own 0) :: exampleNext (.deleteWorker 0) 1 ++
        .start .stop () :: exampleNext .stop 3 ++
        .start (.runner .delete) () :: exampleNext (.runner .delete) 1 ++
        exampleNext (.deleteWorker 0) 1) = some cfg ∧
      cfg.world.appended .delete = [7] ∧ cfg.world.complete .delete = [] ∧
      cfg.thread (.runner .delete) = .pure .ended := ⟨_, rfl, rfl, rfl, rfl⟩
  obtain ⟨cfg, hcfg, happ, hcomplete, ended⟩ := hexec
  have stranded := h cfg (System.exec_run _ (fun _ _ _ => trivial) hcfg) .delete 7
    (by rw [happ]; exact List.mem_singleton_self 7)
  rcases stranded with complete | ⟨-, alive⟩
  · rw [hcomplete] at complete
    exact List.not_mem_nil complete
  · exact alive ended

end StopSystem

end Nodepool
