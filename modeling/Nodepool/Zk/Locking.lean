import Nodepool.Launcher.Calls

/-!
`lockNode` and `lockNodeRequest` of class `ZooKeeper` (`nodepool/zk/zookeeper.py`):
an object has a lock of this process and a lock in ZooKeeper, and both are taken
before its data is read again.

The lock in ZooKeeper and the reading of the data belong to the client library, so
their outcomes are given. Of the lock this takes what the library documents: it is
held when `acquire` has returned `True`, and not when it has returned `False` or
raised. The texts of the errors and the log are left out.
-/

namespace Nodepool.Locking

/-- How a kind of record is read from the text that is stored for it. -/
structure Format (Doc Data : Type) where
  /-- `_bytesToDict` -/
  bytesToDict : String → Except Err Doc
  /-- `{}` -/
  empty : Doc
  /-- `updateFromDict`; what it has assigned stays when it raises. -/
  updateFromDict : Doc → Data → Except Err Unit × Data

/-- An object with its locks. A call that waits for the lock of the process finds the
object as it is when the wait ends. -/
structure Lockable (Data : Type) where
  data : Data
  stat : Nat
  /-- `_thread_lock` is held. -/
  threadLock : Bool
  /-- The lock in ZooKeeper is held through the object. -/
  zkLock : Bool
  /-- `lock` is not `None`. -/
  lock : Bool
deriving DecidableEq, Repr

/-- What the client library answers during a call. -/
structure Outcomes where
  /-- `Lock.acquire` -/
  acquire : Except Err Bool
  /-- `get`, the text and its version -/
  get : Except Err (String × Nat)

variable {Doc Data : Type}

/-- A method of an object; what it has assigned stays when it raises. -/
abbrev LockM (Data : Type) : Type → Type := ExceptT Err (StateM (Lockable Data))

/-- `_thread_lock.acquire`. A call that does not block cannot be given a timeout. -/
def acquireThreadLock (blocking : Bool) (timeout : Option Nat) : LockM Data Bool := do
  if ¬ blocking ∧ timeout.isSome then throw .other
  if (← get).threadLock then
    return false
  else
    modify fun o => { o with threadLock := true }
    return true

/-- `_thread_lock.release` -/
def releaseThreadLock : LockM Data Unit := do
  if (← get).threadLock then modify fun o => { o with threadLock := false } else throw .other

/-- `lock.acquire` -/
def acquireLock (outcomes : Outcomes) : LockM Data Bool := do
  let haveLock ← outcomes.acquire
  if haveLock then modify fun o => { o with zkLock := true }
  return haveLock

/-- The document that is stored: an object that exists without data has an empty one. -/
def document (format : Format Doc Data) (text : String) : Except Err Doc :=
  if text = "" then .ok format.empty else format.bytesToDict text

/-- `updateNode` and `updateNodeRequest` -/
def update (format : Format Doc Data) (outcomes : Outcomes) : LockM Data Unit := do
  let (text, stat) ← outcomes.get
  let d ← document format text
  let (outcome, data) := format.updateFromDict d (← get).data
  modify fun o => { o with data := data }
  outcome
  modify fun o => { o with stat := stat }

/-- `Lock.acquire`, with the two errors that are told apart. -/
def tryAcquireLock (outcomes : Outcomes) : LockM Data Bool :=
  tryCatch (acquireLock outcomes) fun e =>
    if e = .lockTimeout then throw .timeout
    else if e = .noNode then return false
    else throw e

/-- Take both locks; the lock of the process is given back when the other cannot be
had. `locked` is what is done when they are held. -/
def acquireBoth (outcomes : Outcomes) (blocking : Bool) (timeout : Option Nat)
    (locked : LockM Data Unit) : LockM Data Unit := do
  let haveThreadLock ← acquireThreadLock blocking timeout
  if ¬ haveThreadLock then throw (if blocking then .timeout else .zkLock)
  tryCatch (do
      let haveLock ← tryAcquireLock outcomes
      if ¬ haveLock then throw .zkLock
      modify fun o => { o with lock := true }
      locked)
    fun e => do
      tryCatch releaseThreadLock fun _ => pure ()
      throw e

def lockNodeRequest (format : Format Doc Data) (outcomes : Outcomes) (blocking : Bool)
    (timeout : Option Nat) : LockM Data Unit := do
  acquireBoth outcomes blocking timeout (pure ())
  update format outcomes

def lockNode (format : Format Doc Data) (outcomes : Outcomes) (blocking : Bool)
    (timeout : Option Nat) (ephemeral : Bool) : LockM Data Unit := do
  acquireBoth outcomes blocking timeout
    (if ephemeral then pure () else tryCatch releaseThreadLock fun _ => pure ())
  update format outcomes

/-! ### Taking both locks -/

/-- The object with both locks held. -/
def Lockable.held (o : Lockable Data) : Lockable Data :=
  { o with threadLock := true, zkLock := true, lock := true }

/-- The locks of two objects are the same. -/
structure SameLocks (o o' : Lockable Data) : Prop where
  threadLock : o'.threadLock = o.threadLock
  zkLock : o'.zkLock = o.zkLock
  lock : o'.lock = o.lock

theorem SameLocks.refl (o : Lockable Data) : SameLocks o o := ⟨rfl, rfl, rfl⟩

/-- The two locks can be had: the lock of the process is free, the call does not
combine a timeout with not blocking, and the lock in ZooKeeper is granted. -/
structure Granted (o : Lockable Data) (outcomes : Outcomes) (blocking : Bool)
    (timeout : Option Nat) : Prop where
  arguments : blocking = true ∨ timeout = none
  threadLock : o.threadLock = false
  acquire : outcomes.acquire = .ok true

theorem acquireBoth_granted {o : Lockable Data} {outcomes : Outcomes} {blocking : Bool}
    {timeout : Option Nat} (h : Granted o outcomes blocking timeout) :
    (acquireBoth outcomes blocking timeout (pure ())).run.run o = (.ok (), o.held) := by
  obtain ⟨data, stat, threadLock, zkLock, lock⟩ := o
  obtain ⟨acquire, get⟩ := outcomes
  obtain ⟨arguments, rfl, rfl⟩ := h
  cases blocking with
  | true => rfl
  | false =>
      have : timeout = none := arguments.resolve_left (by decide)
      subst this
      rfl

theorem acquireBoth_refused {o : Lockable Data} {outcomes : Outcomes} {blocking : Bool}
    {timeout : Option Nat} (h : ¬ Granted o outcomes blocking timeout) :
    ∃ e o', (acquireBoth outcomes blocking timeout (pure ())).run.run o = (.error e, o') ∧
      SameLocks o o' := by
  obtain ⟨data, stat, threadLock, zkLock, lock⟩ := o
  obtain ⟨acquire, get⟩ := outcomes
  by_cases arguments : blocking = true ∨ timeout = none
  case neg =>
    -- the arguments are refused before anything is taken
    rw [not_or] at arguments
    obtain ⟨nonblocking, given⟩ := arguments
    obtain ⟨t, rfl⟩ := Option.ne_none_iff_exists'.mp given
    rw [Bool.not_eq_true] at nonblocking
    subst nonblocking
    exact ⟨_, _, rfl, rfl, rfl, rfl⟩
  case pos =>
    have allowed : ¬ (¬ blocking ∧ timeout.isSome) := by
      rintro ⟨nonblocking, given⟩
      rcases arguments with rfl | rfl
      · exact nonblocking rfl
      · cases given
    cases threadLock with
    | true =>
        refine ⟨if blocking then .timeout else .zkLock, ⟨data, stat, true, zkLock, lock⟩, ?_,
          rfl, rfl, rfl⟩
        unfold acquireBoth acquireThreadLock
        rw [if_neg allowed]
        rfl
    | false =>
        have thrown : ∀ e : Err,
            ∃ e', (acquireBoth ⟨.error e, get⟩ blocking timeout (pure ())).run.run
            ⟨data, stat, false, zkLock, lock⟩ = (.error e', ⟨data, stat, false, zkLock, lock⟩) := by
          intro e
          unfold acquireBoth acquireThreadLock
          rw [if_neg allowed]
          cases e <;> exact ⟨_, rfl⟩
        cases acquire with
        | error e =>
            obtain ⟨e', run⟩ := thrown e
            exact ⟨e', _, run, .refl _⟩
        | ok granted =>
            cases granted with
            | true => exact absurd ⟨arguments, rfl, rfl⟩ h
            | false =>
                refine ⟨.zkLock, ⟨data, stat, false, zkLock, lock⟩, ?_, rfl, rfl, rfl⟩
                unfold acquireBoth acquireThreadLock
                rw [if_neg allowed]
                rfl

/-! ### Reading the data again -/

/-- The data of the record, read into an object, if all of that succeeds. -/
def reread (format : Format Doc Data) (outcomes : Outcomes) (data : Data) :
    Option (Data × Nat) :=
  match outcomes.get with
  | .error _ => none
  | .ok (text, stat) =>
      match document format text with
      | .error _ => none
      | .ok d =>
          match format.updateFromDict d data with
          | (.error _, _) => none
          | (.ok (), data) => some (data, stat)

theorem lift_ok_bind {α β : Type} (a : α) (f : α → LockM Data β) :
    ((liftM (Except.ok a : Except Err α) : LockM Data α) >>= f) = f a := rfl

/-- Either the record is read and the object has its data, or an error is raised; the
locks stay as they are. -/
theorem update_run (format : Format Doc Data) (outcomes : Outcomes) (o : Lockable Data) :
    (∃ data stat, reread format outcomes o.data = some (data, stat) ∧
      (update format outcomes).run.run o = (.ok (), { o with data := data, stat := stat })) ∨
    (reread format outcomes o.data = none ∧
      ∃ e o', (update format outcomes).run.run o = (.error e, o') ∧ SameLocks o o') := by
  obtain ⟨old, version, threadLock, zkLock, lock⟩ := o
  unfold reread update
  cases outcomes.get with
  | error e => exact .inr ⟨rfl, e, _, rfl, .refl _⟩
  | ok read =>
      obtain ⟨text, stat⟩ := read
      rw [lift_ok_bind]
      dsimp only
      cases document format text with
      | error e => exact .inr ⟨rfl, e, _, rfl, .refl _⟩
      | ok d =>
          rw [lift_ok_bind]
          dsimp only
          change (∃ data stat', (match format.updateFromDict d old with
            | (.error _, _) => none
            | (.ok (), data) => some (data, stat)) = some (data, stat') ∧
              ((liftM (format.updateFromDict d old).1 : LockM Data Unit) >>= fun _ =>
                modify fun o => { o with stat := stat }).run.run
                  ⟨(format.updateFromDict d old).2, version, threadLock, zkLock, lock⟩ = _) ∨
            ((match format.updateFromDict d old with
            | (.error _, _) => none
            | (.ok (), data) => some (data, stat)) = none ∧
              ∃ e o', ((liftM (format.updateFromDict d old).1 : LockM Data Unit) >>= fun _ =>
                modify fun o => { o with stat := stat }).run.run
                  ⟨(format.updateFromDict d old).2, version, threadLock, zkLock, lock⟩ = _ ∧ _)
          obtain ⟨outcome, data⟩ := format.updateFromDict d old
          cases outcome with
          | error e => exact .inr ⟨rfl, e, _, rfl, rfl, rfl, rfl⟩
          | ok => exact .inl ⟨data, stat, rfl, rfl⟩

/-! ### All or nothing -/

/-- What a call must leave behind: with both locks held, the object marked as locked and
its data the latest, or with an error and the locks as they were. -/
def AllOrNothing (format : Format Doc Data) (outcomes : Outcomes) (m : LockM Data Unit)
    (o : Lockable Data) : Prop :=
  match m.run.run o with
  | (.ok (), o') => o'.threadLock = true ∧ o'.zkLock = true ∧ o'.lock = true ∧
      reread format outcomes o.data = some (o'.data, o'.stat)
  | (.error _, o') => SameLocks o o'

/-- The record can be read once the locks are held, whenever they are. -/
def Readable (format : Format Doc Data) (outcomes : Outcomes) (blocking : Bool)
    (timeout : Option Nat) (o : Lockable Data) : Prop :=
  Granted o outcomes blocking timeout → (reread format outcomes o.data).isSome

theorem bind_run {α β : Type} {m : LockM Data α} {f : α → LockM Data β} {o o' : Lockable Data}
    {a : α} (h : m.run.run o = (.ok a, o')) : (m >>= f).run.run o = (f a).run.run o' := by
  change (m.run >>= ExceptT.bindCont f).run o = _
  rw [StateT.run_bind, h]
  rfl

theorem bind_run_error {α β : Type} {m : LockM Data α} {f : α → LockM Data β}
    {o o' : Lockable Data} {e : Err} (h : m.run.run o = (.error e, o')) :
    (m >>= f).run.run o = (.error e, o') := by
  change (m.run >>= ExceptT.bindCont f).run o = _
  rw [StateT.run_bind, h]
  rfl

/-- Taking both locks and then reading the record is all or nothing exactly when the
record can be read. -/
theorem acquireBoth_update_iff (format : Format Doc Data) (outcomes : Outcomes)
    (blocking : Bool) (timeout : Option Nat) (o : Lockable Data) :
    AllOrNothing format outcomes (do
        acquireBoth outcomes blocking timeout (pure ())
        update format outcomes) o ↔
      Readable format outcomes blocking timeout o := by
  unfold AllOrNothing Readable
  by_cases granted : Granted o outcomes blocking timeout
  case pos =>
    rw [bind_run (acquireBoth_granted granted)]
    obtain ⟨data, stat, hread, hrun⟩ | ⟨hread, e, o', hrun, same⟩ :=
      update_run format outcomes o.held
    · rw [hrun]
      have hread : reread format outcomes o.data = some (data, stat) := hread
      exact ⟨fun _ _ => by rw [hread]; rfl, fun _ => ⟨rfl, rfl, rfl, hread⟩⟩
    · -- the locks are held, and nothing gives them back
      rw [hrun]
      have hread : reread format outcomes o.data = none := hread
      constructor
      · intro h _
        have : true = o.threadLock := same.threadLock.symm.trans h.threadLock
        rw [granted.threadLock] at this
        cases this
      · intro h
        rw [hread] at h
        cases h granted
  case neg =>
    obtain ⟨e, o', hrun, same⟩ := acquireBoth_refused granted
    rw [bind_run_error hrun]
    exact ⟨fun _ h => absurd h granted, fun _ => same⟩

/-- Locking a node with an ephemeral lock, and locking a request, is all or nothing
exactly when the record can still be read after both locks have been taken. -/
theorem allOrNothing_iff (format : Format Doc Data) (outcomes : Outcomes)
    (blocking : Bool) (timeout : Option Nat) (o : Lockable Data) :
    (AllOrNothing format outcomes (lockNode format outcomes blocking timeout true) o ↔
      Readable format outcomes blocking timeout o) ∧
    (AllOrNothing format outcomes (lockNodeRequest format outcomes blocking timeout) o ↔
      Readable format outcomes blocking timeout o) :=
  ⟨acquireBoth_update_iff format outcomes blocking timeout o,
    acquireBoth_update_iff format outcomes blocking timeout o⟩

/-- The record is deleted when both locks have been taken: the call raises, with both
of them held. -/
theorem not_forall_allOrNothing :
    ¬ ∀ (format : Format Unit Unit) (outcomes : Outcomes) (blocking : Bool)
        (timeout : Option Nat) (o : Lockable Unit),
      o.threadLock = false → o.zkLock = false → o.lock = false →
        AllOrNothing format outcomes (lockNode format outcomes blocking timeout true) o ∧
          AllOrNothing format outcomes (lockNodeRequest format outcomes blocking timeout) o := by
  intro h
  have same := (h ⟨fun _ => .ok (), (), fun _ _ => (.ok (), ())⟩ ⟨.ok true, .error .noNode⟩
    false none ⟨(), 0, false, false, false⟩ rfl rfl rfl).1
  exact absurd (same : SameLocks _ _).threadLock (by decide)

end Nodepool.Locking
