import Mathlib.Logic.Function.Basic
import Mathlib.Tactic
import Nodepool.Base.Always

/-!
The components of `nodepool/zk/components.py`: `BaseComponent.__setattr__` and `register`, next
to the znodes that ZooKeeper holds for the component.

A `set` fails if there is no znode or if its version is not the expected one. Any call may
also raise because of the connection, before or after ZooKeeper has carried it out. Only the
component writes its znodes, and they are gone when its session has expired.
-/

namespace Nodepool.Component

/-- What is in the dictionary `content`, and what is stored of it. -/
abbrev Content (V : Type) : Type := String → Option V

structure ZNode (V : Type) where
  content : Content V
  version : ℕ

structure State (V : Type) where
  content : Content V
  /-- the sequence number at the end of `path` -/
  path : Option ℕ
  /-- `_zstat.version` -/
  version : ℕ
  znodes : ℕ → Option (ZNode V)
  /-- the sequence number of the next znode -/
  next : ℕ

/-- What happens to a call besides what ZooKeeper answers. -/
inductive Fault where
  | none
  /-- the call raises, and ZooKeeper may have carried it out -/
  | raises (applied : Bool)
deriving DecidableEq

variable {V : Type}

def initial (content : Content V) : State V := ⟨content, none, 0, fun _ => none, 0⟩

/-- `kazoo_client.set` with the content; whether it returns, or raises `NoNodeError`, which
is logged. -/
def set (s : State V) (path : ℕ) (fault : Fault) : State V × Bool :=
  match s.znodes path with
  | none => (s, fault = .none)
  | some znode =>
      -- `BadVersionError`
      if znode.version ≠ s.version then (s, false)
      else
        let znodes := Function.update s.znodes path (some ⟨s.content, znode.version + 1⟩)
        match fault with
        | .none => ({ s with znodes := znodes, version := znode.version + 1 }, true)
        | .raises true => ({ s with znodes := znodes }, false)
        | .raises false => (s, false)

/-- `__setattr__`, and whether it returns. -/
def setattr [DecidableEq V] (s : State V) (name : String) (value : V) (fault : Fault) :
    State V × Bool :=
  match s.content name with
  -- an attribute like any other
  | none => (s, true)
  | some old =>
      if old = value then (s, true)
      else
        let s := { s with content := Function.update s.content name (some value) }
        match s.path with
        | none => (s, true)
        | some path => set s path fault

/-- `register`, at the start and after a session was lost. -/
def register (modelApi : V) (s : State V) (fault : Fault) : State V × Bool :=
  let s := { s with content := Function.update s.content "model_api" (some modelApi) }
  let created :=
    { s with
      znodes := Function.update s.znodes s.next (some ⟨s.content, 0⟩)
      next := s.next + 1 }
  match fault with
  | .none => ({ created with path := some s.next, version := 0 }, true)
  | .raises true => (created, false)
  | .raises false => (s, false)

inductive Action (V : Type) where
  | assign (name : String) (value : V) (fault : Fault)
  | register (fault : Fault)
  /-- the session expires -/
  | expire

section Steps

variable [DecidableEq V] (modelApi : V)

def perform (s : State V) : Action V → State V × Bool
  | .assign name value fault => setattr s name value fault
  | .register fault => register modelApi s fault
  | .expire => ({ s with znodes := fun _ => none }, true)

/-- A run of the component. -/
abbrev Run (P : State V → Action V → Prop) (s : State V) (actions : List (Action V)) : Prop :=
  Always (fun s action => (perform modelApi s action).1) P s actions

end Steps

/-- If its znode exists, then ZooKeeper has the content of the component. -/
def Stored (s : State V) : Prop :=
  ∀ path ∈ s.path, ∀ znode ∈ s.znodes path, znode.content = s.content

/-- After an assignment that returns, ZooKeeper has the content. -/
def Follows [DecidableEq V] (modelApi : V) (s : State V) (action : Action V) : Prop :=
  ∀ name value fault, action = .assign name value fault → (perform modelApi s action).2 = true →
    Stored (perform modelApi s action).1

/-- The assignment leaves the content as it is. -/
def Unchanged (s : State V) (name : String) (value : V) : Prop :=
  ∀ old ∈ s.content name, old = value

/-- An assignment that leaves the content as it is finds nothing that is still to be stored. -/
def Settled (s : State V) (action : Action V) : Prop :=
  ∀ name value fault, action = .assign name value fault → Unchanged s name value → Stored s

section Follows

variable {s : State V}

/-- A write that returns has stored the content, or there is no znode. -/
theorem stored_set {path : ℕ} {fault : Fault} (at_path : s.path = some path)
    (returns : (set s path fault).2 = true) : Stored (set s path fault).1 := by
  unfold set at returns ⊢
  cases found : s.znodes path with
  | none =>
      intro path' mem znode exist
      obtain rfl : path = path' := Option.some.inj (at_path.symm.trans mem)
      exact absurd (found.symm.trans exist) nofun
  | some znode =>
      simp only [found] at returns ⊢
      split at returns
      · cases returns
      cases fault with
      | none =>
          rename_i same
          rw [if_neg same]
          intro path' mem znode' exist
          obtain rfl : path = path' := Option.some.inj (at_path.symm.trans mem)
          have written : Function.update s.znodes path (some ⟨s.content, znode.version + 1⟩) path =
              some znode' := exist
          rw [Function.update_self] at written
          cases written
          rfl
      | raises applied => cases applied <;> cases returns

variable [DecidableEq V]

theorem setattr_unchanged {name : String} {value : V} (h : Unchanged s name value)
    (fault : Fault) : setattr s name value fault = (s, true) := by
  unfold setattr
  cases found : s.content name with
  | none => rfl
  | some old => exact if_pos (h old found)

/-- An assignment that changes the content stores it if it returns. -/
theorem stored_setattr {name : String} {value : V} (h : ¬ Unchanged s name value) {fault : Fault}
    (returns : (setattr s name value fault).2 = true) :
    Stored (setattr s name value fault).1 := by
  unfold Unchanged at h
  push Not at h
  obtain ⟨old, found, changed⟩ := h
  unfold setattr at returns ⊢
  rw [Option.mem_def] at found
  simp only [found, if_neg changed] at returns ⊢
  cases at_path : s.path with
  | none => exact fun path mem => nomatch mem
  | some path =>
      rw [at_path] at returns
      exact stored_set rfl returns

/-- The step lemma. -/
theorem follows_iff_settled (modelApi : V) (s : State V) (action : Action V) :
    Follows modelApi s action ↔ Settled s action := by
  constructor
  · rintro follows name value fault rfl unchanged
    have := follows name value fault rfl
    rw [perform, setattr_unchanged unchanged] at this
    exact this rfl
  · rintro settled name value fault rfl returns
    by_cases unchanged : Unchanged s name value
    · rw [perform, setattr_unchanged unchanged]
      exact settled name value fault rfl unchanged
    · exact stored_setattr unchanged returns

/-- In every run, the content that is stored follows the attributes, exactly if an assignment
that leaves the content as it is never comes while a write that failed is outstanding. -/
theorem follows_run_iff (modelApi : V) (s : State V) (actions : List (Action V)) :
    Run modelApi (Follows modelApi) s actions ↔ Run modelApi Settled s actions :=
  always_iff (I := fun _ => True) trivial (fun _ _ _ _ => trivial)
    fun s action _ => follows_iff_settled modelApi s action

end Follows

/-! ### How a write gets to be outstanding -/

/-- If its znode exists, the component knows it. -/
def Synced (s : State V) : Prop :=
  ∀ path ∈ s.path, ∀ znode ∈ s.znodes path, znode.content = s.content ∧ znode.version = s.version

def Action.faultless : Action V → Prop
  | .assign _ _ fault | .register fault => fault = .none
  | .expire => True

section Synced

variable {s : State V}

theorem synced_initial (content : Content V) : Synced (initial content) := fun _ mem => nomatch mem

/-- A write stores the content that it is given, whatever was stored before. -/
theorem synced_set {path : ℕ} (at_path : s.path = some path)
    (known : ∀ znode ∈ s.znodes path, znode.version = s.version) : Synced (set s path .none).1 := by
  unfold set
  cases found : s.znodes path with
  | none =>
      intro path' mem znode exist
      obtain rfl : path = path' := Option.some.inj (at_path.symm.trans mem)
      exact absurd (found.symm.trans exist) nofun
  | some znode =>
      dsimp only
      rw [if_neg (not_not.mpr (known znode found))]
      intro path' mem znode' exist
      obtain rfl : path = path' := Option.some.inj (at_path.symm.trans mem)
      have written : Function.update s.znodes path (some ⟨s.content, znode.version + 1⟩) path =
          some znode' := exist
      rw [Function.update_self] at written
      cases written
      exact ⟨rfl, rfl⟩

variable [DecidableEq V]

theorem Synced.perform {modelApi : V} {action : Action V} (synced : Synced s)
    (faultless : action.faultless) : Synced (perform modelApi s action).1 := by
  cases action with
  | assign name value fault =>
      cases faultless
      change Synced (setattr s name value .none).1
      unfold setattr
      cases found : s.content name with
      | none => exact synced
      | some old =>
          dsimp only
          split
          · exact synced
          cases at_path : s.path with
          | none => exact fun path mem => nomatch mem
          | some path =>
              exact synced_set rfl fun znode exist => (synced path at_path znode exist).2
  | register fault =>
      cases faultless
      intro path mem znode exist
      cases mem
      have created : Function.update s.znodes s.next
          (some ⟨Function.update s.content "model_api" (some modelApi), 0⟩) s.next = some znode :=
        exist
      rw [Function.update_self] at created
      cases created
      exact ⟨rfl, rfl⟩
  | expire => exact fun _ _ _ exist => nomatch exist

/-- As long as no call is disturbed, every assignment is stored: a write becomes outstanding
only by an exception of the connection. -/
theorem follows_of_faultless (modelApi : V) (content : Content V) {actions : List (Action V)}
    (faultless : ∀ action ∈ actions, action.faultless) :
    Run modelApi (Follows modelApi) (initial content) actions := by
  refine always_of (synced_initial content) fun s action mem synced =>
    ⟨synced.perform (faultless action mem), ?_⟩
  refine (follows_iff_settled modelApi s action).mpr ?_
  exact fun _ _ _ _ _ path mem znode exist => (synced path mem znode exist).1

end Synced

/-! ### A pool -/

/-- A value in the content of a pool. -/
inductive Value where
  | none
  | text (s : String)
  | number (n : ℕ)
  | flag (b : Bool)
  | texts (l : List String)
deriving DecidableEq

/-- The content of a pool before it is registered. -/
def exampleContent : List (String × Value) :=
  [("hostname", .text "launcher"), ("state", .text "running"), ("kind", .text "pool"),
    ("version", .none), ("model_api", .number 0), ("id", .text "launcher-main"),
    ("name", .text "main"), ("provider_name", .text "cloud"),
    ("supported_labels", .texts ["small", "large"]), ("priority", .number 100),
    ("paused", .flag false)]

def examplePool : State Value :=
  (register (.number 0) (initial fun name => exampleContent.lookup name) .none).1

/-- The priority is stored. The next assignment fails because the connection is lost, and the last
one finds that nothing is to be done. -/
def exampleActions : List (Action Value) :=
  [.assign "priority" (.number 50) .none, .assign "paused" (.flag true) (.raises false),
    .assign "paused" (.flag true) .none]

theorem exampleActions_not_follows :
    ¬ Run (.number 0) (Follows (.number 0)) examplePool exampleActions := by
  rintro ⟨-, -, last, -⟩
  have stored := last "paused" (.flag true) .none rfl rfl 0 rfl _ rfl
  exact absurd (congrFun stored "paused") (by decide)

end Nodepool.Component
