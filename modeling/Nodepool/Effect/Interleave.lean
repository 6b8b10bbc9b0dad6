import Mathlib.Logic.Function.Basic
import Nodepool.Effect.Logic

/-!
Threads that run methods over one world, one call at a time.

A `System` gives each thread its attributes, the operations it may start while
idle, and the effect of its calls. A `Step` starts an operation, performs the
next call of one thread, or lets the surroundings act; so two threads interleave
at every call. `Run ok` are the runs all of whose steps satisfy `ok`, which is
how a property that holds under a condition on the steps is stated.

`Outline` collects what a thread-modular proof supplies: a world invariant, for
each thread what it relies on and what it respects, and a local invariant of its
attributes that each operation restores. `Outline.sound` turns it into an
invariant of every run. `exec` replays a schedule, and `exec_run` makes the
replay a run.
-/

namespace Nodepool.Effect

structure System (S : Sig) (W ι : Type) where
  State : ι → Type
  Op : ι → Type
  body : (i : ι) → Op i → State i → Prog S (State i)
  enabled : (i : ι) → Op i → State i → W → Bool
  /-- The worlds a call of thread `i` can lead to if it gets the given reply. -/
  next : ι → W → (c : S.Call) → S.Reply c → List W
  /-- What anything that is not one of the threads can do to the world. -/
  env : W → W → Prop

variable {S : Sig} {W ι : Type}

/-- An idle thread is a finished program that holds its attributes. -/
structure Config (T : System S W ι) where
  world : W
  thread : (i : ι) → Prog S (T.State i)

/-- Of a call that gets its reply only if `p` holds. -/
theorem of_mem_ite {p : Prop} [Decidable p] {w w' : W} (mem : w' ∈ if p then [w] else []) :
    p ∧ w' = w := by
  obtain ⟨holds, mem⟩ := List.mem_ite_nil_right.mp mem
  exact ⟨holds, List.mem_singleton.mp mem⟩

/-- Of a call that gets its reply only if `p` does not hold. -/
theorem of_mem_ite_not {p : Prop} [Decidable p] {w w' : W} (mem : w' ∈ if p then [] else [w]) :
    ¬ p ∧ w' = w := by
  obtain ⟨fails, mem⟩ := List.mem_ite_nil_left.mp mem
  exact ⟨fails, List.mem_singleton.mp mem⟩

inductive Event (T : System S W ι) where
  | start (i : ι) (op : T.Op i)
  | call (i : ι) (c : S.Call) (r : S.Reply c)
  | env

namespace System

variable (T : System S W ι) [DecidableEq ι]

inductive Step : Config T → Event T → Config T → Prop where
  | start {w th} (i : ι) (op : T.Op i) {s : T.State i} (idle : th i = .pure s)
      (enabled : T.enabled i op s w = true) :
      Step ⟨w, th⟩ (.start i op) ⟨w, Function.update th i (T.body i op s)⟩
  | call {w w' th} (i : ι) {c : S.Call} {k : S.Reply c → Prog S (T.State i)} (r : S.Reply c)
      (next : th i = .call c k) (mem : w' ∈ T.next i w c r) :
      Step ⟨w, th⟩ (.call i c r) ⟨w', Function.update th i (k r)⟩
  | env {w w' th} (h : T.env w w') : Step ⟨w, th⟩ .env ⟨w', th⟩

/-- The runs from `init` whose steps all satisfy `ok` in the world they start from. -/
inductive Run (ok : W → Event T → Prop) (init : Config T) : Config T → Prop where
  | refl : Run ok init init
  | tail {c c' : Config T} {e : Event T} : Run ok init c → ok c.world e → T.Step c e c' →
      Run ok init c'

/-- Every step is allowed. -/
def always : W → Event T → Prop := fun _ _ => True

variable {T}

theorem Run.mono {ok ok' : W → Event T → Prop} {init c : Config T}
    (h : T.Run ok init c) (imp : ∀ w e, ok w e → ok' w e) : T.Run ok' init c := by
  induction h with
  | refl => exact .refl
  | tail _ hok hs ih => exact .tail ih (imp _ _ hok) hs

theorem Run.trans {ok : W → Event T → Prop} {a b c : Config T}
    (h : T.Run ok a b) (h' : T.Run ok b c) : T.Run ok a c := by
  induction h' with
  | refl => exact h
  | tail _ hok hs ih => exact .tail ih hok hs

/-! ### Replaying a schedule -/

/-- One entry of a schedule: start an operation, or answer the pending call of a
thread and choose among the worlds it can lead to. -/
inductive Action (T : System S W ι) where
  | start (i : ι) (op : T.Op i)
  | reply (i : ι) (answer : (c : S.Call) → S.Reply c) (choice : Nat)
  /-- the answer may depend on the world -/
  | respond (i : ι) (answer : W → (c : S.Call) → S.Reply c) (choice : Nat)

def exec1 (cfg : Config T) : Action T → Option (Event T × Config T)
  | .start i op =>
      match cfg.thread i with
      | .pure s => if T.enabled i op s cfg.world
          then some (.start i op, ⟨cfg.world, Function.update cfg.thread i (T.body i op s)⟩)
          else none
      | .call _ _ => none
  | .reply i answer choice =>
      match cfg.thread i with
      | .pure _ => none
      | .call c k => (T.next i cfg.world c (answer c))[choice]?.map fun w =>
          (.call i c (answer c), ⟨w, Function.update cfg.thread i (k (answer c))⟩)
  | .respond i answer choice =>
      match cfg.thread i with
      | .pure _ => none
      | .call c k => (T.next i cfg.world c (answer cfg.world c))[choice]?.map fun w =>
          (.call i c (answer cfg.world c),
            ⟨w, Function.update cfg.thread i (k (answer cfg.world c))⟩)

/-- Replay a schedule as long as its steps are allowed. -/
def exec (allow : W → Event T → Bool) (cfg : Config T) : List (Action T) → Option (Config T)
  | [] => some cfg
  | a :: as => (exec1 cfg a).bind fun (e, cfg') =>
      if allow cfg.world e then exec allow cfg' as else none

theorem exec1_step {cfg cfg' : Config T} {a : Action T} {e : Event T}
    (h : exec1 cfg a = some (e, cfg')) : T.Step cfg e cfg' := by
  cases a with
  | start i op =>
      simp only [exec1] at h
      split at h
      · rename_i s idle
        split at h
        · rename_i enabled
          cases h
          exact .start i op idle enabled
        · cases h
      · cases h
  | reply i answer choice =>
      simp only [exec1] at h
      split at h
      · cases h
      · rename_i c k next
        obtain ⟨w, hw, hcfg⟩ := Option.map_eq_some_iff.mp h
        cases hcfg
        exact .call i (answer c) next (List.mem_of_getElem? hw)
  | respond i answer choice =>
      simp only [exec1] at h
      split at h
      · cases h
      · rename_i c k next
        obtain ⟨w, hw, hcfg⟩ := Option.map_eq_some_iff.mp h
        cases hcfg
        exact .call i (answer cfg.world c) next (List.mem_of_getElem? hw)

/-- Whatever a schedule replays to is reached by a run. -/
theorem exec_run (ok : W → Event T → Prop) {allow : W → Event T → Bool}
    (imp : ∀ w e, allow w e = true → ok w e) {cfg cfg' : Config T} {as : List (Action T)}
    (h : exec allow cfg as = some cfg') : T.Run ok cfg cfg' := by
  induction as generalizing cfg with
  | nil => cases h; exact .refl
  | cons a as ih =>
      obtain ⟨⟨e, mid⟩, h₁, h₂⟩ := Option.bind_eq_some_iff.mp h
      simp only at h₂
      split at h₂
      · rename_i hallow
        exact (Run.tail .refl (imp _ _ hallow) (exec1_step h₁)).trans (ih h₂)
      · cases h₂

/-- A replay that ends in a configuration which passes a test is a run to such a configuration. -/
theorem exists_run_of_exec (ok : W → Event T → Prop) {allow : W → Event T → Bool}
    (imp : ∀ w e, allow w e = true → ok w e) {cfg : Config T} {as : List (Action T)}
    {test : Config T → Bool} (h : (exec allow cfg as).any test = true) :
    ∃ cfg', T.Run ok cfg cfg' ∧ test cfg' = true := by
  obtain ⟨cfg', replayed, passed⟩ := Option.any_eq_true _ _ |>.mp h
  exact ⟨cfg', exec_run ok imp replayed, passed⟩

end System

/-- The thread is idle, and its attributes pass the test. -/
def Config.idle {T : System S W ι} (cfg : Config T) (i : ι) (test : T.State i → Bool) : Bool :=
  match cfg.thread i with
  | .pure s => test s
  | .call _ _ => false

theorem Config.idle_iff {T : System S W ι} {cfg : Config T} {i : ι} {test : T.State i → Bool} :
    cfg.idle i test = true ↔ ∃ s, cfg.thread i = .pure s ∧ test s = true := by
  unfold Config.idle
  cases cfg.thread i with
  | pure s => simp
  | call c k => simp

/-! ### Thread-modular proofs -/

/-- The context in which thread `i` runs, given the invariant of the world and
what the thread relies on and respects. -/
def System.context (T : System S W ι) (ok : W → Event T → Prop) (inv : W → Prop)
    (rely : W → W → Prop) (req : W → S.Call → Prop) (i : ι) : Context S W where
  step w c r w' := w' ∈ T.next i w c r ∧ ok w (.call i c r)
  rely := rely
  inv := inv
  req := req

/-- What a thread-modular proof about the runs of `T` under `ok` supplies. -/
structure Outline (T : System S W ι) (ok : W → Event T → Prop) where
  inv : W → Prop
  rely : ι → W → W → Prop
  req : ι → W → S.Call → Prop
  /-- What holds of the attributes of a thread while it is idle. -/
  linv : (i : ι) → T.State i → W → Prop
  rely_refl : ∀ i w, rely i w w
  rely_trans : ∀ i {a b c}, rely i a b → rely i b c → rely i a c
  linv_stable : ∀ i {s w w'}, linv i s w → rely i w w' → inv w' → linv i s w'
  entry : ∀ i op {s w}, ok w (.start i op) → T.enabled i op s w = true → inv w → linv i s w →
    (T.body i op s).wp (T.context ok inv (rely i) (req i) i) (linv i) w
  call_inv : ∀ i {w c r w'}, inv w → req i w c → ok w (.call i c r) → w' ∈ T.next i w c r → inv w'
  call_rely : ∀ i j {w c r w'}, i ≠ j → inv w → req i w c → ok w (.call i c r) →
    w' ∈ T.next i w c r → rely j w w'
  env_inv : ∀ {w w'}, inv w → T.env w w' → inv w'
  env_rely : ∀ j {w w'}, inv w → T.env w w' → rely j w w'

namespace Outline

variable {T : System S W ι} {ok : W → Event T → Prop} (O : Outline T ok)

abbrev ctx (i : ι) : Context S W := T.context ok O.inv (O.rely i) (O.req i) i

/-- The invariant of a configuration: the rest of every thread is safe. -/
structure Safe (cfg : Config T) : Prop where
  inv : O.inv cfg.world
  wp : ∀ i, (cfg.thread i).wp (O.ctx i) (O.linv i) cfg.world

variable {O}

theorem Safe.idle {cfg : Config T} (h : O.Safe cfg) {i : ι} {s : T.State i}
    (idle : cfg.thread i = .pure s) : O.linv i s cfg.world := by
  have := h.wp i
  rwa [idle] at this

theorem Safe.req {cfg : Config T} (h : O.Safe cfg) {i : ι} {c : S.Call}
    {k : S.Reply c → Prog S (T.State i)} (next : cfg.thread i = .call c k) :
    O.req i cfg.world c := by
  have := h.wp i
  rw [next] at this
  exact (this _ (O.rely_refl i _) h.inv).1

/-- A configuration with idle threads is safe if their attributes are. -/
theorem Safe.of_idle {cfg : Config T} (hinv : O.inv cfg.world)
    (idle : ∀ i, ∃ s, cfg.thread i = .pure s ∧ O.linv i s cfg.world) : O.Safe cfg := by
  refine ⟨hinv, fun i => ?_⟩
  obtain ⟨s, hs, hl⟩ := idle i
  rw [hs]
  exact hl

variable [DecidableEq ι]

theorem Safe.step {cfg cfg' : Config T} {e : Event T} (h : O.Safe cfg) (hok : ok cfg.world e)
    (hs : T.Step cfg e cfg') : O.Safe cfg' := by
  cases hs with
  | @start w th i op s idle enabled =>
      refine ⟨h.inv, fun j => ?_⟩
      by_cases hij : j = i
      · subst hij
        simpa using O.entry j op hok enabled h.inv (h.idle idle)
      · simpa [Function.update_of_ne hij] using h.wp j
  | @call w w' th i c k r next mem =>
      have hreq := h.req next
      have hinv := O.call_inv i h.inv hreq hok mem
      refine ⟨hinv, fun j => ?_⟩
      by_cases hij : j = i
      · subst hij
        have hwp : (th j).wp (O.ctx j) (O.linv j) w := h.wp j
        rw [next] at hwp
        simpa using (hwp w (O.rely_refl j w) h.inv).2 r w' ⟨mem, hok⟩ hinv
      · simp only [Function.update_of_ne hij]
        exact Prog.wp_rely (O.rely_trans j) (fun hl hr hi => O.linv_stable j hl hr hi) (h.wp j)
          (O.call_rely i j (Ne.symm hij) h.inv hreq hok mem) hinv
  | @env w w' th henv =>
      have hinv := O.env_inv h.inv henv
      exact ⟨hinv, fun j => Prog.wp_rely (O.rely_trans j)
        (fun hl hr hi => O.linv_stable j hl hr hi) (h.wp j) (O.env_rely j h.inv henv) hinv⟩

/-- Every configuration of a run is safe if the first one is. -/
theorem sound {init cfg : Config T} (h : O.Safe init) (run : T.Run ok init cfg) : O.Safe cfg := by
  induction run with
  | refl => exact h
  | tail _ hok hs ih => exact ih.step hok hs

end Outline

/-! ### Methods as the operations of a thread -/

namespace Method

/-- Run a method to its end and keep the attributes; the caller logs an exception. -/
def toBody {σ α : Type} (m : Method S σ α) (after : Except S.Err α → σ → σ) (s : σ) : Prog S σ :=
  (m s).bind fun (r, s') => .pure (after r s')

theorem wp_toBody {σ α : Type} {Γ : Context S W} {m : Method S σ α}
    {after : Except S.Err α → σ → σ} {L : σ → W → Prop} {s : σ} {w : W} :
    (m.toBody after s).wp Γ L w ↔
      m.wp Γ (fun a s w => L (after (.ok a) s) w) (fun e s w => L (after (.error e) s) w) s w := by
  unfold toBody
  rw [Prog.wp_bind]
  constructor <;> intro h <;> refine Prog.wp_mono h ?_ <;> rintro ⟨_ | _, _⟩ _ h <;> exact h

/-- A method that respects its context, of which nothing else is said. -/
theorem wp_toBody_of_respects {σ α : Type} {Γ : Context S W} {m : Method S σ α}
    {s : σ} {w : W} (after : Except S.Err α → σ → σ)
    (h : m.wp Γ (fun _ _ _ => True) (fun _ _ _ => True) s w) :
    (m.toBody after s).wp Γ (fun _ _ => True) w :=
  wp_toBody.mpr h

end Method

end Nodepool.Effect
