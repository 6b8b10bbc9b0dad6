import Mathlib.Tactic
import Nodepool.Base.Always

/-!
Cached nodes and node requests of `nodepool/zk/zookeeper.py` while they are locked, changed and
unlocked by the threads of this process, while other processes store the same records, and while
the event worker and the playback worker of `NodepoolTreeCache` bring the cache up to date.

The records exist all the time, and a record has data. `lockNodeRequest`, `unlockNodeRequest` and
`storeNodeRequest` take the same steps as `lockNode`, `unlockNode` and `storeNode`.
-/

namespace Nodepool.LockedCache

/-- How far the thread of this process has come that has the `_thread_lock` of the object. -/
inductive Phase where
  /-- there is none -/
  | unlocked
  /-- it has acquired the lock in ZooKeeper -/
  | acquired
  /-- and has set the attribute `lock` of the object -/
  | attached
  /-- and has updated the object; `lockNode` has returned -/
  | locked
  /-- `unlockNode` has released the lock in ZooKeeper -/
  | released
deriving DecidableEq

/-- A record and its cached object. -/
structure Record (V : Type) where
  /-- what ZooKeeper has stored -/
  data : V
  /-- counts the changes of the record -/
  mzxid : ℕ
  /-- the attributes of the cached object -/
  content : V
  /-- the `mzxid` of its `stat` -/
  stat : ℕ
  phase : Phase
  /-- another process has the lock in ZooKeeper -/
  elsewhere : Bool
  /-- the events that the event worker has not handled yet -/
  events : ℕ
  /-- the playback queue, with what was fetched -/
  playback : List (V × ℕ)
  /-- what the playback worker updates the object with, once it has made its checks -/
  updating : Option (V × ℕ)

/-- A cached object that is up to date. -/
def Record.start {V : Type} (data : V) (mzxid : ℕ) : Record V where
  data := data
  mzxid := mzxid
  content := data
  stat := mzxid
  phase := .unlocked
  elsewhere := false
  events := 0
  playback := []
  updating := none

inductive Action (V : Type) where
  /-- `lockNode` acquires the lock, sets the attribute and updates the object -/
  | acquire
  | attach
  | refresh
  /-- the holder of the lock changes the object and stores it -/
  | store (value : V)
  /-- `unlockNode` releases the lock and resets the attribute -/
  | release
  | detach
  /-- another process locks the record, stores it and unlocks it -/
  | otherAcquire
  | otherStore (value : V)
  | otherRelease
  /-- the event worker handles an event -/
  | fetch
  /-- the playback worker makes its checks, and updates the object -/
  | check
  | update

section Record

variable {V : Type}

namespace Record

variable (r : Record V)

/-- The lock in ZooKeeper is held by this process. -/
def holdsLock : Bool :=
  match r.phase with
  | .acquired => true
  | .attached => true
  | .locked => true
  | _ => false

/-- `getattr(old_obj, 'lock', None)` -/
def lock : Bool :=
  match r.phase with
  | .attached => true
  | .locked => true
  | .released => true
  | _ => false

/-- `kazoo_client.set`, and the event of the change -/
def set (value : V) : Record V :=
  { r with data := value, mzxid := r.mzxid + 1, events := r.events + 1 }

/-- The checks of `_handlePlayback`. -/
def check : Record V :=
  match r.updating, r.playback with
  | none, item :: playback =>
      if item.2 ≤ r.stat then { r with playback := playback }
      else if r.lock then { r with playback := playback }
      else { r with playback := playback, updating := some item }
  | _, _ => r

/-- A step that cannot be taken leaves the record as it is. -/
def step : Action V → Record V
  | .acquire =>
      if r.phase = .unlocked ∧ r.elsewhere = false then { r with phase := .acquired } else r
  | .attach => if r.phase = .acquired then { r with phase := .attached } else r
  | .refresh =>
      if r.phase = .attached then { r with
        content := r.data
        stat := r.mzxid
        phase := .locked }
      else r
  | .store value => if r.phase = .locked then { r.set value with content := value } else r
  | .release => if r.phase = .locked then { r with phase := .released } else r
  | .detach => if r.phase = .released then { r with phase := .unlocked } else r
  | .otherAcquire => if r.holdsLock then r else { r with elsewhere := true }
  | .otherStore value => if r.elsewhere then r.set value else r
  | .otherRelease => { r with elsewhere := false }
  | .fetch =>
      if r.events = 0 then r
      else { r with
        events := r.events - 1
        playback := r.playback ++ [(r.data, r.mzxid)] }
  | .check => r.check
  | .update =>
      match r.updating with
      | none => r
      | some item => { r with content := item.1, stat := item.2, updating := none }

/-- What is on its way to the cached object. -/
def coming : List (V × ℕ) := r.updating.toList ++ r.playback

def Drained : Prop := r.events = 0 ∧ r.coming = []

/-- The object has what is stored once the local lock is released and the queues are drained. -/
def Right : Prop := r.phase = .unlocked → r.Drained → r.content = r.data

end Record

/-- The attribute is not set between the checks of the playback worker and its update, and the
playback worker does not come to an update between the release of the lock and the reset of the
attribute. -/
def Orderly (r : Record V) : Action V → Prop
  | .attach => r.phase = .acquired → r.updating = none
  | .check => r.phase = .released → ∀ item ∈ r.playback.head?, item.2 ≤ r.stat
  | _ => True

/-! ### What is kept -/

structure Inv (r : Record V) : Prop where
  stat_le : r.stat ≤ r.mzxid
  /-- the object has what is stored if it was updated with it -/
  current : r.stat = r.mzxid → r.content = r.data
  /-- what was fetched was stored, and the latest of it is what is stored now -/
  fetched : ∀ item ∈ r.coming, item.2 ≤ r.mzxid ∧ (item.2 = r.mzxid → item.1 = r.data)
  /-- if every event is handled, what was stored last was fetched last -/
  last : r.events = 0 → ∀ item ∈ r.coming.getLast?, item.2 = r.mzxid
  exclusive : r.holdsLock = true → r.elsewhere = false
  /-- the object that is locked has what is stored -/
  held : r.phase = .locked → r.content = r.data
  drained : r.phase ≠ .attached → r.Drained → r.content = r.data
  /-- the playback worker updates no object that is locked -/
  apart : r.updating ≠ none → r.lock = false

theorem Inv.start (data : V) (mzxid : ℕ) : Inv (Record.start data mzxid) where
  stat_le := le_rfl
  current _ := rfl
  fetched _ mem := absurd mem List.not_mem_nil
  last _ _ mem := absurd mem (Option.not_mem_none _)
  exclusive := nofun
  held := nofun
  drained _ _ := rfl
  apart updating := absurd rfl updating

variable {r : Record V}

theorem Inv.right (inv : Inv r) : r.Right := fun unlocked =>
  inv.drained fun attached => nomatch unlocked.symm.trans attached

theorem lock_eq_true :
    r.lock = true ↔ r.phase = .attached ∨ r.phase = .locked ∨ r.phase = .released := by
  unfold Record.lock
  cases r.phase <;> simp

theorem holdsLock_eq_true :
    r.holdsLock = true ↔ r.phase = .acquired ∨ r.phase = .attached ∨ r.phase = .locked := by
  unfold Record.holdsLock
  cases r.phase <;> simp

/-- The next item of those that are coming. -/
theorem Inv.last_of_single (inv : Inv r) {item : V × ℕ} (coming : r.coming = [item])
    (events : r.events = 0) : item.2 = r.mzxid :=
  inv.last events item (by rw [coming]; rfl)

/-- A new value is stored. -/
theorem Inv.set_fetched (inv : Inv r) (value : V) (item : V × ℕ) (mem : item ∈ r.coming) :
    item.2 ≤ r.mzxid + 1 ∧ (item.2 = r.mzxid + 1 → item.1 = value) := by
  have le := (inv.fetched item mem).1
  exact ⟨Nat.le_succ_of_le le, fun same => absurd same (Nat.lt_succ_of_le le).ne⟩

theorem Inv.acquire (inv : Inv r) : Inv (r.step .acquire) := by
  unfold Record.step
  dsimp only
  split
  · rename_i free
    obtain ⟨unlocked, notElsewhere⟩ := free
    exact { inv with
      exclusive := fun _ => notElsewhere
      held := nofun
      drained := fun _ => inv.drained fun attached => nomatch unlocked.symm.trans attached
      apart := fun _ => rfl }
  · exact inv

theorem Inv.attach (inv : Inv r) (orderly : Orderly r .attach) : Inv (r.step .attach) := by
  unfold Record.step
  dsimp only
  split
  · rename_i acquired
    exact { inv with
      exclusive := fun _ => inv.exclusive (holdsLock_eq_true.mpr (.inl acquired))
      held := nofun
      drained := fun notAttached => absurd rfl notAttached
      apart := fun updating => absurd (orderly acquired) updating }
  · exact inv

theorem Inv.refresh (inv : Inv r) : Inv (r.step .refresh) := by
  unfold Record.step
  dsimp only
  split
  · rename_i attached
    have locked : r.lock = true := lock_eq_true.mpr (.inl attached)
    exact { inv with
      stat_le := le_rfl
      current := fun _ => rfl
      exclusive := fun _ => inv.exclusive (holdsLock_eq_true.mpr (.inr (.inl attached)))
      held := fun _ => rfl
      drained := fun _ _ => rfl
      apart := fun updating => absurd ((inv.apart updating).symm.trans locked) Bool.false_ne_true }
  · exact inv

theorem Inv.store (inv : Inv r) (value : V) : Inv (r.step (.store value)) := by
  unfold Record.step
  dsimp only
  split
  · exact { inv with
      stat_le := Nat.le_succ_of_le inv.stat_le
      current := fun _ => rfl
      fetched := inv.set_fetched value
      last := nofun
      held := fun _ => rfl
      drained := fun _ _ => rfl }
  · exact inv

theorem Inv.release (inv : Inv r) : Inv (r.step .release) := by
  unfold Record.step
  dsimp only
  split
  · rename_i locked
    have lock : r.lock = true := lock_eq_true.mpr (.inr (.inl locked))
    exact { inv with
      exclusive := nofun
      held := nofun
      drained := fun _ _ => inv.held locked
      apart := fun updating => absurd ((inv.apart updating).symm.trans lock) Bool.false_ne_true }
  · exact inv

theorem Inv.detach (inv : Inv r) : Inv (r.step .detach) := by
  unfold Record.step
  dsimp only
  split
  · rename_i released
    exact { inv with
      exclusive := nofun
      held := nofun
      drained := fun _ => inv.drained fun attached => nomatch released.symm.trans attached
      apart := fun _ => rfl }
  · exact inv

theorem Inv.otherAcquire (inv : Inv r) : Inv (r.step .otherAcquire) := by
  unfold Record.step
  dsimp only
  split
  · exact inv
  · rename_i free
    exact { inv with exclusive := fun holds => absurd holds free }

theorem Inv.otherStore (inv : Inv r) (value : V) : Inv (r.step (.otherStore value)) := by
  unfold Record.step
  dsimp only
  split
  · rename_i elsewhere
    have notLocked : r.phase ≠ .locked := by
      intro locked
      have holds : r.holdsLock = true := holdsLock_eq_true.mpr (.inr (.inr locked))
      exact Bool.false_ne_true ((inv.exclusive holds).symm.trans elsewhere)
    exact { inv with
      stat_le := Nat.le_succ_of_le inv.stat_le
      current := fun same => absurd same (Nat.lt_succ_of_le inv.stat_le).ne
      fetched := inv.set_fetched value
      last := nofun
      held := fun locked => absurd locked notLocked
      drained := fun _ drained => nomatch drained.1 }
  · exact inv

theorem Inv.fetch (inv : Inv r) : Inv (r.step .fetch) := by
  unfold Record.step
  dsimp only
  split
  · exact inv
  · have coming : r.updating.toList ++ (r.playback ++ [(r.data, r.mzxid)]) =
        r.coming ++ [(r.data, r.mzxid)] := (List.append_assoc _ _ _).symm
    exact { inv with
      fetched := fun item mem => by
        have mem : item ∈ r.coming ++ [(r.data, r.mzxid)] := coming ▸ mem
        rcases List.mem_append.mp mem with before | new
        · exact inv.fetched item before
        · rw [List.mem_singleton.mp new]
          exact ⟨le_rfl, fun _ => rfl⟩
      last := fun _ item mem => by
        have mem : item ∈ (r.coming ++ [(r.data, r.mzxid)]).getLast? := coming ▸ mem
        rw [List.getLast?_append] at mem
        cases mem
        rfl
      drained := fun _ drained => by
        have : r.coming ++ [(r.data, r.mzxid)] = [] := coming ▸ drained.2
        exact absurd this (List.append_ne_nil_of_right_ne_nil _ (List.cons_ne_nil _ _)) }

/-- The items behind the first one. -/
theorem Inv.last_tail (inv : Inv r) {item : V × ℕ} {rest : List (V × ℕ)}
    (coming : r.coming = item :: rest) (events : r.events = 0) :
    ∀ other ∈ rest.getLast?, other.2 = r.mzxid := by
  intro other mem
  refine inv.last events other ?_
  rw [coming]
  cases rest with
  | nil => cases mem
  | cons next rest => exact mem

/-- The playback worker passes over an item, of an object that is up to date or that is being
locked. -/
theorem Inv.skip (inv : Inv r) {item : V × ℕ} {playback : List (V × ℕ)}
    (idle : r.updating = none) (first : r.playback = item :: playback)
    (upToDate : r.phase ≠ .attached → item.2 = r.mzxid → r.content = r.data) :
    Inv { r with playback := playback } := by
  have coming : r.coming = item :: playback := by
    unfold Record.coming
    rw [idle, first]
    rfl
  have left : ({ r with playback := playback } : Record V).coming = playback := by
    unfold Record.coming
    rw [idle]
    rfl
  exact { inv with
    fetched := fun other mem => by
      rw [left] at mem
      exact inv.fetched other (coming ▸ List.mem_cons_of_mem item mem)
    last := fun events => by
      rw [left]
      exact inv.last_tail coming events
    drained := fun notAttached drained => by
      have none := left.symm.trans drained.2
      exact upToDate notAttached (inv.last_of_single (by rw [coming, none]) drained.1) }

theorem Inv.check (inv : Inv r) (orderly : Orderly r .check) : Inv (r.step .check) := by
  change Inv r.check
  unfold Record.check
  split
  · rename_i item playback idle first
    split
    · rename_i older
      refine inv.skip idle first fun _ same => inv.current ?_
      exact Nat.le_antisymm inv.stat_le (same ▸ older)
    · rename_i newer
      split
      · rename_i lock
        refine inv.skip idle first fun notAttached _ => ?_
        rcases lock_eq_true.mp lock with attached | locked | released
        · exact absurd attached notAttached
        · exact inv.held locked
        · have head : item ∈ r.playback.head? := by rw [first]; rfl
          exact absurd (orderly released item head) newer
      · rename_i notLocked
        have coming : r.coming = item :: playback := by
          unfold Record.coming
          rw [idle, first]
          rfl
        exact { inv with
          fetched := fun other mem => inv.fetched other (coming.symm ▸ mem)
          last := fun events other mem => inv.last events other (coming.symm ▸ mem)
          drained := fun _ drained => nomatch drained.2
          apart := fun _ => eq_false_of_ne_true notLocked }
  · exact inv

theorem Inv.update (inv : Inv r) : Inv (r.step .update) := by
  unfold Record.step
  dsimp only
  split
  · exact inv
  · rename_i item updating
    have notLocked : r.lock = false := inv.apart (by rw [updating]; exact Option.some_ne_none item)
    have coming : r.coming = item :: r.playback := by
      unfold Record.coming
      rw [updating]
      rfl
    obtain ⟨le, same⟩ := inv.fetched item (coming ▸ List.mem_cons_self)
    exact { inv with
      stat_le := le
      current := same
      fetched := fun other mem => inv.fetched other (coming ▸ List.mem_cons_of_mem item mem)
      last := inv.last_tail coming
      held := fun locked => by
        have lock : r.lock = true := lock_eq_true.mpr (.inr (.inl locked))
        exact absurd (notLocked.symm.trans lock) Bool.false_ne_true
      drained := fun _ drained => by
        have none : r.playback = [] := drained.2
        exact same (inv.last_of_single (by rw [coming, none]) drained.1)
      apart := fun updating => absurd rfl updating }

theorem Inv.step (inv : Inv r) (action : Action V) (orderly : Orderly r action) :
    Inv (r.step action) := by
  cases action with
  | acquire => exact inv.acquire
  | attach => exact inv.attach orderly
  | refresh => exact inv.refresh
  | store value => exact inv.store value
  | release => exact inv.release
  | detach => exact inv.detach
  | otherAcquire => exact inv.otherAcquire
  | otherStore value => exact inv.otherStore value
  | otherRelease => exact { inv with exclusive := fun _ => rfl }
  | fetch => exact inv.fetch
  | check => exact inv.check orderly
  | update => exact inv.update

end Record

/-! ### The cache -/

section Cache

variable {Key V : Type} [DecidableEq Key]

/-- The records with their cached objects, by their keys. -/
abbrev State (Key V : Type) : Type := Key → Record V

def initial (data : Key → V) (mzxid : Key → ℕ) : State Key V := fun key =>
  Record.start (data key) (mzxid key)

def perform (s : State Key V) (action : Key × Action V) : State Key V :=
  Function.update s action.1 ((s action.1).step action.2)

/-- In every run whose steps are orderly, each object has what is stored whenever it is not
locked and its queues are drained. -/
theorem right_run (data : Key → V) (mzxid : Key → ℕ) (actions : List (Key × Action V))
    (orderly : Always perform (fun s action => Orderly (s action.1) action.2) (initial data mzxid)
      actions) :
    Always perform (fun s action => ∀ key, (perform s action key).Right) (initial data mzxid)
      actions := by
  have start : ∀ key, Inv (initial data mzxid key) := fun key => Inv.start (data key) (mzxid key)
  refine orderly.imp (I := fun s => ∀ key, Inv (s key)) start fun s action inv orderly => ?_
  have after : ∀ key, Inv (perform s action key) := by
    intro key
    unfold perform
    by_cases same : key = action.1
    · subst same
      rw [Function.update_self]
      exact (inv action.1).step action.2 orderly
    · rw [Function.update_of_ne same]
      exact inv key
  exact ⟨after, fun key => (after key).right⟩

/-- A node is locked and unlocked, and then stored by another process. -/
def exampleStore : List (Unit × Action ℕ) :=
  [.acquire, .attach, .refresh, .release, .detach, .otherAcquire, .otherStore 1, .otherRelease,
    .fetch, .check, .update].map ((), ·)

theorem right_run_example :
    Always perform (fun s action => ∀ key, (perform s action key).Right)
      (initial (fun _ => 0) fun _ => 0) exampleStore :=
  right_run (fun _ => 0) (fun _ => 0) exampleStore
    ⟨trivial, fun _ => rfl, trivial, trivial, trivial, trivial, trivial, trivial, trivial, nofun,
      trivial, trivial⟩

/-- Another process stores the node, and the playback worker comes to the event, before the
attribute is reset. -/
def exampleDropped : List (Unit × Action ℕ) :=
  [.acquire, .attach, .refresh, .release, .otherAcquire, .otherStore 1, .otherRelease, .fetch,
    .check, .detach].map ((), ·)

/-- The node is locked between the checks of the playback worker and its update, and the event of
the second change comes while it is locked. -/
def exampleOverwritten : List (Unit × Action ℕ) :=
  [.otherAcquire, .otherStore 1, .fetch, .check, .otherStore 2, .otherRelease, .acquire, .attach,
    .refresh, .update, .fetch, .check, .release, .detach].map ((), ·)

theorem exampleDropped_not_right :
    ¬ Always perform (fun s action => ∀ key, (perform s action key).Right)
        (initial (fun _ => 0) fun _ => 0) exampleDropped ∧
      ¬ Always perform (fun s action => ∀ key, (perform s action key).Right)
        (initial (fun _ => 0) fun _ => 0) exampleOverwritten := by
  constructor
  · rintro ⟨-, -, -, -, -, -, -, -, -, right, -⟩
    have same : 0 = 1 := right () rfl ⟨rfl, rfl⟩
    exact absurd same (by decide)
  · rintro ⟨-, -, -, -, -, -, -, -, -, -, -, -, -, right, -⟩
    have same : 1 = 2 := right () rfl ⟨rfl, rfl⟩
    exact absurd same (by decide)

end Cache

end Nodepool.LockedCache
