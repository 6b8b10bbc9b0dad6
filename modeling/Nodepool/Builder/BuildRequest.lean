import Mathlib.Data.List.Perm.Basic
import Mathlib.Tactic

/-!
`getBuildRequest` and `_latestImageBuildStat` of `nodepool/zk/zookeeper.py`, for an image whose
builders take and release the image build lock, create build records, and have them deleted.

The znode of the lock is made the first time that the lock is taken, and the lock is held while
it has a child. ZooKeeper gives a time to every znode that is created, and its clock does not go
back. It lists the build records in any order. Build records that `importImageData` restores are
not covered.
-/

namespace Nodepool.BuildRequest

/-- The znode of the image build lock. -/
structure Lock where
  created : ℕ
  /-- there is a holder; whether it has created its build record -/
  holder : Option Bool
deriving DecidableEq, Repr

/-- The znodes of an image. -/
structure State where
  now : ℕ
  /-- when the build request was made -/
  request : Option ℕ
  lock : Option Lock
  /-- ids of build records and when they were created -/
  builds : List (String × ℕ)
deriving DecidableEq, Repr

def initial : State := ⟨0, none, none, []⟩

inductive Event where
  | tick
  /-- `submitBuildRequest` -/
  | submit
  /-- `removeBuildRequest` -/
  | remove
  | acquire
  | release
  /-- `storeBuild` without an id, by the holder of the lock or by a builder that has lost it -/
  | storeBuild (id : String) (byHolder : Bool)
  | deleteBuild (id : String)
deriving DecidableEq, Repr

/-- The lock is taken if it is free. -/
def acquire (s : State) : State :=
  match s.lock with
  | none => { s with lock := some ⟨s.now, some false⟩ }
  | some lock =>
      match lock.holder with
      | none => { s with lock := some { lock with holder := some false } }
      | some _ => s

/-- A build record is created by a builder that has had the lock, so nothing is stored before there
is a znode of the lock. -/
def step (s : State) : Event → State
  | .tick => { s with now := s.now + 1 }
  | .submit => { s with request := some (s.request.getD s.now) }
  | .remove => { s with request := none }
  | .acquire => acquire s
  | .release => { s with lock := s.lock.map fun lock => { lock with holder := none } }
  | .storeBuild id byHolder =>
      match s.lock with
      | none => s
      | some lock =>
          { s with
            builds := s.builds ++ [(id, s.now)]
            lock := some { lock with holder := lock.holder.map (byHolder || ·) } }
  | .deleteBuild id => { s with builds := s.builds.filter fun build => build.1 ≠ id }

def run (events : List Event) : State := events.foldl step initial

/-- `_latestImageBuildStat`, with the build records as ZooKeeper lists them. -/
def latestImageBuildStat (listing : List (String × ℕ)) : Option ℕ := listing.head?.map Prod.snd

structure ImageBuildRequest where
  pending : Bool
  stateTime : ℕ
deriving DecidableEq, Repr

def getBuildRequest (s : State) (listing : List (String × ℕ)) : Option ImageBuildRequest :=
  s.request.map fun created =>
    let pending := match s.lock with
      | none => true
      | some lock =>
          if lock.holder.isSome then
            match latestImageBuildStat listing with
            | none => true
            | some build => build < lock.created
          else true
    ⟨pending, created⟩

/-- The lock is held, and its holder has created its build record. -/
def Building (s : State) : Prop := ∃ lock ∈ s.lock, lock.holder = some true

/-- What is asked of a request that is reported. -/
def Reports (s : State) (listing : List (String × ℕ)) : Prop :=
  ∀ request ∈ getBuildRequest s listing, request.pending = false ↔ Building s

/-- While the lock is held, its holder has created its build record just if there is one. -/
def OnlyHolder (s : State) : Prop :=
  ∀ lock ∈ s.lock, ∀ recorded ∈ lock.holder, recorded = true ↔ s.builds ≠ []

/-! ### The times of the znodes -/

/-- No build record is older than the lock. -/
structure Inv (s : State) : Prop where
  locked : s.lock = none → s.builds = []
  past : ∀ lock ∈ s.lock, lock.created ≤ s.now
  younger : ∀ lock ∈ s.lock, ∀ build ∈ s.builds, lock.created ≤ build.2

theorem Inv.initial : Inv initial := ⟨fun _ => rfl, nofun, nofun⟩

/-- Only the holder of the lock changes. -/
theorem Inv.hold {s : State} (inv : Inv s) {lock : Lock} (found : s.lock = some lock)
    (holder : Option Bool) : Inv { s with lock := some { lock with holder := holder } } := by
  refine ⟨nofun, ?_, ?_⟩
  · rintro _ ⟨⟩
    exact inv.past lock found
  · rintro _ ⟨⟩
    exact inv.younger lock found

theorem Inv.acquire {s : State} (inv : Inv s) : Inv (acquire s) := by
  unfold BuildRequest.acquire
  cases found : s.lock with
  | none =>
      refine ⟨nofun, ?_, ?_⟩
      · rintro _ ⟨⟩
        exact le_rfl
      · intro _ _ build mem
        simp [inv.locked found] at mem
  | some lock =>
      cases holder : lock.holder with
      | none =>
          simp only [holder]
          exact inv.hold found _
      | some recorded =>
          simp only [holder]
          exact inv

theorem Inv.storeBuild {s : State} (inv : Inv s) (id : String) :
    s.lock ≠ none → Inv { s with builds := s.builds ++ [(id, s.now)] } := by
  intro locked
  refine ⟨fun none => absurd none locked, inv.past, fun lock found build mem => ?_⟩
  rcases List.mem_append.mp mem with old | new
  · exact inv.younger lock found build old
  · rw [List.mem_singleton.mp new]
    exact inv.past lock found

/-- The step lemma. -/
theorem Inv.step {s : State} (inv : Inv s) (event : Event) : Inv (step s event) := by
  cases event with
  | tick =>
    exact ⟨inv.locked, fun lock mem => (inv.past lock mem).trans (Nat.le_succ _), inv.younger⟩
  | submit | remove => exact ⟨inv.locked, inv.past, inv.younger⟩
  | acquire => exact inv.acquire
  | release =>
      simp only [BuildRequest.step]
      cases found : s.lock with
      | none => exact ⟨fun _ => inv.locked found, nofun, nofun⟩
      | some lock => exact inv.hold found none
  | storeBuild id byHolder =>
      simp only [BuildRequest.step]
      cases found : s.lock with
      | none => exact inv
      | some lock => exact (inv.storeBuild id (by simp [found])).hold found _
  | deleteBuild id =>
      refine ⟨fun none => ?_, inv.past, fun lock found build mem => ?_⟩
      · simp only [BuildRequest.step, inv.locked none, List.filter_nil]
      · exact inv.younger lock found build (List.mem_filter.mp mem).1

/-- The run lemma. -/
theorem Inv.run (events : List Event) : Inv (run events) := by
  unfold BuildRequest.run
  induction events using List.reverseRecOn with
  | nil => exact .initial
  | append_singleton events event ih =>
      rw [List.foldl_append]
      exact ih.step event

/-- The comparison of the times comes out the same for every build record. -/
theorem pending_eq {s : State} (inv : Inv s) {lock : Lock} (found : s.lock = some lock)
    {listing : List (String × ℕ)} (listed : listing.Perm s.builds) :
    (match latestImageBuildStat listing with
      | none => true
      | some build => decide (build < lock.created)) = decide (s.builds = []) := by
  cases listing with
  | nil => simp [latestImageBuildStat, List.nil_perm.mp listed]
  | cons build listing =>
      have mem : build ∈ s.builds := listed.mem_iff.mp List.mem_cons_self
      have younger := inv.younger lock found build mem
      simp [latestImageBuildStat, List.ne_nil_of_mem mem, younger]

/-- After every history, and in whatever order the build records are listed, a build request is
reported right exactly if, should the lock be held, its holder has created its build record just
if there is one. -/
theorem reports_iff (events : List Event) (listing : List (String × ℕ))
    (listed : listing.Perm (run events).builds) :
    Reports (run events) listing ↔ ((run events).request.isSome → OnlyHolder (run events)) := by
  have inv := Inv.run events
  generalize run events = s at *
  unfold Reports getBuildRequest
  cases s.request with
  | none => simp
  | some created =>
      simp only [Option.map_some, Option.mem_def, Option.some.injEq, forall_eq', Option.isSome_some,
        forall_true_left]
      unfold Building OnlyHolder
      cases found : s.lock with
      | none => simp
      | some lock =>
          cases holder : lock.holder with
          | none => simp [holder]
          | some recorded =>
              simp only [pending_eq inv found listed, holder]
              have held : (∃ l ∈ some lock, l.holder = some true) ↔ recorded = true := by
                simp [holder]
              rw [held, if_pos Option.isSome_some, decide_eq_false_iff_not]
              constructor
              · rintro reports _ ⟨⟩ _ mem
                obtain rfl : recorded = _ := Option.some.inj (holder.symm.trans mem)
                exact reports.symm
              · exact fun only => (only lock rfl recorded holder).symm

/-! ### Two builds -/

/-- One build, and the build request of another one. -/
def firstBuild : List Event :=
  [.acquire, .storeBuild "5e1f" true, .tick, .release, .submit, .tick]

theorem reports_iff_first :
    Reports (run (firstBuild.take 2 ++ [.submit])) [("5e1f", 0)] :=
  (reports_iff (firstBuild.take 2 ++ [.submit]) [("5e1f", 0)] (.refl _)).mpr (by
    rintro - _ ⟨⟩ _ ⟨⟩
    decide)

/-- Once a builder has taken the lock for the second build, and before it has created the build
record, the request is reported as one that is being built. -/
theorem secondBuild_reported :
    getBuildRequest (run (firstBuild ++ [.acquire])) [("5e1f", 0)] = some ⟨false, 1⟩ ∧
      ¬ Building (run (firstBuild ++ [.acquire])) ∧
      ¬ Reports (run (firstBuild ++ [.acquire])) [("5e1f", 0)] := by
  have idle : ¬ Building (run (firstBuild ++ [.acquire])) := by
    rintro ⟨_, ⟨⟩, h⟩
    cases h
  exact ⟨rfl, idle, fun reports => idle ((reports ⟨false, 1⟩ rfl).mp rfl)⟩

end Nodepool.BuildRequest
