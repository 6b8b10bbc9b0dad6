import Nodepool.Zk.TreeCache
import Nodepool.Zk.ZNodeTree

/-!
`NodepoolTreeCache` of `nodepool/zk/zookeeper.py` over any number of connections to ZooKeeper: what
is written while there is none has no event, and `_start` drops what is queued and walks through
the tree again while it is written.

Paths are those below the root of the cache. No cached object is locked in this process. A `get`
fails only while the connection is lost, and what is stored at a path that the cache parses can be
decoded.
-/

namespace Nodepool.CacheSession

open TreeCache (EventType Item CacheClass Lawful answer seen updateObject handlePlayback)

/-- What `_walkTree` does next at a path. -/
inductive Visit where
  | node (path : ZPath)
  /-- the event is emitted, and the children are listed next -/
  | children (path : ZPath)
deriving DecidableEq

inductive Walk where
  /-- There is no connection, be it suspended or lost. -/
  | lost
  /-- The watch is added, and the walk asks next whether the root exists. -/
  | started
  | walking (todo : List Visit) (seen : List ZPath)
  /-- These paths are in `_cached_paths` and were not seen. -/
  | unseen (paths : List ZPath)
  /-- `_ready` is set, and there is a connection. -/
  | ready
deriving DecidableEq

structure State (K D O : Type) where
  tree : Dict ZPath (TreeCache.ZNode D)
  zxid : ℕ
  /-- `_event_queue` behind `_playback_queue` -/
  queue : List (Item ZPath D)
  cached : Dict K (O × ℕ)
  cachedPaths : List ZPath
  walk : Walk

inductive Action (D : Type) where
  | create (path : ZPath) (data : Option D)
  | set (path : ZPath) (data : Option D)
  | delete (path : ZPath)
  /-- The connection is suspended or lost. -/
  | lose
  /-- `_start`: there is a connection, or the walk has raised -/
  | start
  | walk
  | handle
  | play
  /-- The `get` of the next event raises. -/
  | fail

/-- The paths of the children of a znode. -/
def children {D : Type} (tree : Dict ZPath (TreeCache.ZNode D)) (path : ZPath) : List ZPath :=
  tree.keys.filter fun child => child ≠ [] ∧ child.tail = path

section Step

variable {K D O : Type} [DecidableEq K] (C : CacheClass ZPath K D O)

/-- `_cacheListener` -/
def emit (s : State K D O) (type : EventType) (path : ZPath) : State K D O :=
  { s with queue := s.queue ++ [⟨type, path, none⟩] }

/-- A change of the tree, with its event if there is a watch. -/
def write (s : State K D O) (tree : Dict ZPath (TreeCache.ZNode D)) (type : EventType)
    (path : ZPath) : State K D O :=
  match s.walk with
  | .lost => { s with tree := tree, zxid := s.zxid + 1 }
  | _ => emit { s with tree := tree, zxid := s.zxid + 1 } type path

/-- `_walkTree` -/
def walkTree (s : State K D O) : State K D O :=
  match s.walk with
  | .lost => s
  | .started =>
      { s with walk := .walking (if [] ∈ s.tree then [.node []] else []) [] }
  | .walking (.node path :: todo) seen =>
      { emit s .none path with walk := .walking (.children path :: todo) (path :: seen) }
  | .walking (.children path :: todo) seen =>
      -- a `NoNodeError` is caught
      { s with walk := .walking ((children s.tree path).map .node ++ todo) seen }
  | .walking [] seen => { s with walk := .unseen (s.cachedPaths.filter (· ∉ seen)) }
  | .unseen (path :: paths) => { emit s .none path with walk := .unseen paths }
  | .unseen [] => { s with walk := .ready }
  | .ready => s

/-- `_handleCacheEvent`: the root is ignored -/
def handleCacheEvent (tree : Dict ZPath (TreeCache.ZNode D)) :
    List (Item ZPath D) → List (Item ZPath D)
  | [] => []
  | item :: queue =>
      match item.fetched with
      | none =>
          if item.path = [] then queue
          else { item with fetched := some (answer C tree item) } :: queue
      | some _ => item :: handleCacheEvent tree queue

/-- `_handlePlayback` -/
def playback (s : State K D O) (item : Item ZPath D) (fetched : Option (TreeCache.ZNode D)) :
    State K D O :=
  { s with
    cachedPaths := if seen item.type fetched then s.cachedPaths.insert item.path
      else s.cachedPaths.filter (· ≠ item.path)
    cached := handlePlayback C s.cached item fetched }

/-- What an action does. A connection that is only suspended leaves `_ready` set in the source,
until `_start` clears it; here the cache is not ready without a connection. -/
def step (s : State K D O) : Action D → State K D O
  | .create path data =>
      if path ∈ s.tree ∨ path ≠ [] ∧ path.tail ∉ s.tree then s
      else write s (s.tree.insert path ⟨data, s.zxid + 1⟩) .created path
  | .set path data =>
      if path ∈ s.tree then write s (s.tree.insert path ⟨data, s.zxid + 1⟩) .changed path else s
  | .delete path =>
      if path ∈ s.tree ∧ children s.tree path = [] then write s (s.tree.erase path) .deleted path
      else s
  | .lose => { s with walk := .lost }
  | .start => { s with queue := [], walk := .started }
  | .walk => walkTree s
  | .handle => { s with queue := handleCacheEvent C s.tree s.queue }
  | .play =>
      match s.queue with
      | [] => s
      | item :: queue =>
          match item.fetched with
          | none => s
          | some fetched => playback C { s with queue := queue } item fetched
  | .fail =>
      match s.walk with
      | .lost => { s with queue := s.queue.tail }
      | _ => s

end Step

/-! ### What is kept -/

section Invariant

variable {K D O : Type} [DecidableEq K] (C : CacheClass ZPath K D O)
  (Content : K → O → D → Prop)

/-- What holds of every tree of znodes. -/
def Closed (tree : Dict ZPath (TreeCache.ZNode D)) : Prop :=
  ∀ path ∈ tree, path ≠ [] → path.tail ∈ tree

/-- The walk comes to the path by way of the visit, if the path exists. -/
def Visit.Covers (path : ZPath) : Visit → Prop
  | .node above => above <:+ path
  | .children above => ∃ child, child ≠ [] ∧ child.tail = above ∧ child <:+ path

/-- The walk has still to emit an event for the path. -/
def Walk.Awaits (tree : Dict ZPath (TreeCache.ZNode D)) (path : ZPath) : Walk → Prop
  | .lost => True
  | .started => True
  | .walking todo seen =>
      (path ∈ tree ∧ ∃ visit ∈ todo, visit.Covers path) ∨ (path ∉ tree ∧ path ∉ seen)
  | .unseen paths => path ∉ tree ∧ path ∈ paths
  | .ready => False

/-- What is known of the last event of a path. -/
structure Last (tree : Dict ZPath (TreeCache.ZNode D)) (item : Item ZPath D) : Prop where
  gone : item.type = .deleted → item.path ∉ tree
  present : item.type = .created ∨ item.type = .changed → item.path ∈ tree
  fetched : ∀ fetched, item.fetched = some fetched →
    item.type = .none ∨ (C.parsePath item.path).isSome = true →
    fetched = tree.lookup item.path

/-- The last event of each path shows what is stored there. -/
def Settled (tree : Dict ZPath (TreeCache.ZNode D)) : List (Item ZPath D) → Prop
  | [] => True
  | item :: queue =>
      (item.path ≠ [] → (∀ later ∈ queue, later.path ≠ item.path) → Last C tree item) ∧
        Settled tree queue

/-- The cached object is that of the data that is stored. -/
def Matches (tree : Dict ZPath (TreeCache.ZNode D)) (cached : Dict K (O × ℕ)) (path : ZPath)
    (key : K) : Prop :=
  match tree.lookup path with
  | some ⟨some data, mzxid⟩ => ∃ object, cached.lookup key = some (object, mzxid) ∧
      Content key object data
  | _ => cached.lookup key = none

/-- What the cache holds of a path is what is stored. -/
structure Agrees (tree : Dict ZPath (TreeCache.ZNode D)) (cached : Dict K (O × ℕ))
    (cachedPaths : List ZPath) (path : ZPath) : Prop where
  present : path ∈ cachedPaths ↔ path ∈ tree
  object : ∀ key, C.parsePath path = some key → Matches Content tree cached path key

/-- What is cached is not later than what is stored, and the same if it has the same version. -/
structure Versions (s : State K D O) : Prop where
  bound : ∀ path node, s.tree.lookup path = some node → node.mzxid ≤ s.zxid
  known : ∀ key object stat, s.cached.lookup key = some (object, stat) → stat ≤ s.zxid ∧
    (∃ path, C.parsePath path = some key ∧ path ∈ s.cachedPaths) ∧ ∃ data, Content key object data
  version : ∀ path key node object stat, C.parsePath path = some key →
    s.tree.lookup path = some node → s.cached.lookup key = some (object, stat) →
    stat ≤ node.mzxid ∧
      (stat = node.mzxid → ∃ data, node.data = some data ∧ Content key object data)
  fetched : ∀ item ∈ s.queue, ∀ read, item.fetched = some (some read) →
    read.mzxid ≤ s.zxid ∧ ∀ node, s.tree.lookup item.path = some node →
      read.mzxid ≤ node.mzxid ∧ (read.mzxid = node.mzxid → read = node)

structure Inv (s : State K D O) : Prop extends Versions C Content s where
  closed : Closed s.tree
  noRoot : [] ∉ s.cachedPaths
  handled : ∀ item ∈ s.queue, ∀ fetched, item.fetched = some fetched →
    item.path ≠ [] ∧ (item.type = .deleted → fetched = none)
  settled : s.walk ≠ .lost → Settled C s.tree s.queue
  agrees : ∀ path, path ≠ [] → (∀ item ∈ s.queue, item.path ≠ path) →
    ¬ s.walk.Awaits s.tree path → Agrees C Content s.tree s.cached s.cachedPaths path

variable {C} {Content} {s : State K D O}

omit [DecidableEq K] in
theorem mem_of_suffix {tree : Dict ZPath (TreeCache.ZNode D)} (closed : Closed tree)
    {path above : ZPath} (mem : path ∈ tree) (suffix : above <:+ path) : above ∈ tree := by
  obtain ⟨names, rfl⟩ := suffix
  induction names with
  | nil => exact mem
  | cons name names ih => exact ih (closed _ mem nofun)

theorem mem_congr {tree tree' : Dict ZPath (TreeCache.ZNode D)} {path : ZPath}
    (same : tree'.lookup path = tree.lookup path) : path ∈ tree' ↔ path ∈ tree := by
  rw [← AList.lookup_isSome, same, AList.lookup_isSome]

/-! ### Versions -/

/-- No event of the queue that has been handled is new. -/
theorem Versions.enqueue (versions : Versions C Content s) {queue : List (Item ZPath D)}
    {walk : Walk} (sub : ∀ item ∈ queue, item.fetched.isSome = true → item ∈ s.queue) :
    Versions C Content { s with queue := queue, walk := walk } where
  bound := versions.bound
  known := versions.known
  version := versions.version
  fetched item mem read isRead :=
    versions.fetched item (sub item mem (by rw [isRead]; rfl)) read isRead

theorem Versions.tree (versions : Versions C Content s)
    {tree : Dict ZPath (TreeCache.ZNode D)} {path : ZPath}
    (same : ∀ other, other ≠ path → tree.lookup other = s.tree.lookup other)
    (new : ∀ node, tree.lookup path = some node → node.mzxid = s.zxid + 1) :
    Versions C Content { s with tree := tree, zxid := s.zxid + 1 } where
  bound other node stored := by
    change tree.lookup other = some node at stored
    by_cases here : other = path
    · exact (new node (here ▸ stored)).le
    · rw [same other here] at stored
      exact Nat.le_succ_of_le (versions.bound other node stored)
  known key object stat isCached :=
    (versions.known key object stat isCached).imp_left Nat.le_succ_of_le
  version other key node object stat parsed stored isCached := by
    change tree.lookup other = some node at stored
    by_cases here : other = path
    · have older := (versions.known key object stat isCached).1
      have newer := new node (here ▸ stored)
      exact ⟨by omega, fun equal => by omega⟩
    · rw [same other here] at stored
      exact versions.version other key node object stat parsed stored isCached
  fetched item mem read isRead := by
    obtain ⟨older, stores⟩ := versions.fetched item mem read isRead
    refine ⟨Nat.le_succ_of_le older, fun node stored => ?_⟩
    change tree.lookup item.path = some node at stored
    by_cases here : item.path = path
    · have newer := new node (here ▸ stored)
      exact ⟨by omega, fun equal => by omega⟩
    · rw [same item.path here] at stored
      exact stores node stored

/-! ### The event worker -/

omit [DecidableEq K] in
/-- An event of the queue is one that was there, or the answer to it. -/
theorem mem_handleCacheEvent {tree : Dict ZPath (TreeCache.ZNode D)}
    {queue : List (Item ZPath D)} {item : Item ZPath D}
    (mem : item ∈ handleCacheEvent C tree queue) : item ∈ queue ∨
      ∃ before ∈ queue, before.path ≠ [] ∧ before.fetched = none ∧
        item = { before with fetched := some (answer C tree before) } := by
  induction queue with
  | nil => cases mem
  | cons first queue ih =>
      unfold handleCacheEvent at mem
      split at mem
      · rename_i unfetched
        split at mem
        · exact .inl (List.mem_cons_of_mem _ mem)
        · rename_i notRoot
          rcases List.mem_cons.mp mem with same | mem
          · exact .inr ⟨first, List.mem_cons_self, notRoot, unfetched, same⟩
          · exact .inl (List.mem_cons_of_mem _ mem)
      · rcases List.mem_cons.mp mem with same | mem
        · exact .inl (same ▸ List.mem_cons_self)
        · rcases ih mem with before | ⟨before, memBefore, rest⟩
          · exact .inl (List.mem_cons_of_mem _ before)
          · exact .inr ⟨before, List.mem_cons_of_mem _ memBefore, rest⟩

omit [DecidableEq K] in
/-- The events of the other paths than the root stay. -/
theorem mem_path_handleCacheEvent (tree : Dict ZPath (TreeCache.ZNode D))
    {queue : List (Item ZPath D)} {item : Item ZPath D} (mem : item ∈ queue)
    (notRoot : item.path ≠ []) : ∃ later ∈ handleCacheEvent C tree queue,
      later.path = item.path := by
  induction queue with
  | nil => cases mem
  | cons first queue ih =>
      unfold handleCacheEvent
      rcases List.mem_cons.mp mem with rfl | mem
      · split
        · rw [if_neg notRoot]
          exact ⟨_, List.mem_cons_self, rfl⟩
        · exact ⟨_, List.mem_cons_self, rfl⟩
      · split
        · split
          · exact ⟨item, mem, rfl⟩
          · exact ⟨item, List.mem_cons_of_mem _ mem, rfl⟩
        · obtain ⟨later, memLater, same⟩ := ih mem
          exact ⟨later, List.mem_cons_of_mem _ memLater, same⟩

omit [DecidableEq K] in
theorem paths_handleCacheEvent {tree : Dict ZPath (TreeCache.ZNode D)}
    {queue : List (Item ZPath D)} {path : ZPath} (notRoot : path ≠ [])
    (last : ∀ later ∈ handleCacheEvent C tree queue, later.path ≠ path) :
    ∀ later ∈ queue, later.path ≠ path := by
  rintro later mem rfl
  obtain ⟨other, memOther, same⟩ := mem_path_handleCacheEvent (C := C) tree mem notRoot
  exact last other memOther same

omit [DecidableEq K] in
theorem last_answer {tree : Dict ZPath (TreeCache.ZNode D)} {item : Item ZPath D}
    (last : Last C tree item) :
    Last C tree { item with fetched := some (answer C tree item) } where
  gone := last.gone
  present := last.present
  fetched fetched read relevant := by
    cases read
    unfold answer
    split
    · rename_i deleted
      exact (AList.lookup_eq_none.mpr (last.gone deleted)).symm
    · split
      · rename_i ignored
        rcases relevant with walked | parsed
        · exact absurd walked ignored.2
        · have parsed : (C.parsePath item.path).isSome = true := parsed
          rw [ignored.1] at parsed
          cases parsed
      · rfl

omit [DecidableEq K] in
theorem settled_handleCacheEvent {tree : Dict ZPath (TreeCache.ZNode D)}
    {queue : List (Item ZPath D)} (settled : Settled C tree queue) :
    Settled C tree (handleCacheEvent C tree queue) := by
  induction queue with
  | nil => trivial
  | cons item queue ih =>
      unfold handleCacheEvent
      split
      · split
        · exact settled.2
        · exact ⟨fun notRoot last => last_answer (settled.1 notRoot last), settled.2⟩
      · exact ⟨fun notRoot last => settled.1 notRoot (paths_handleCacheEvent notRoot last),
          ih settled.2⟩

theorem Versions.handle (versions : Versions C Content s) :
    Versions C Content { s with queue := handleCacheEvent C s.tree s.queue } where
  bound := versions.bound
  known := versions.known
  version := versions.version
  fetched item mem read isRead := by
    rcases mem_handleCacheEvent mem with mem | ⟨before, mem, -, -, rfl⟩
    · exact versions.fetched item mem read isRead
    · have stored := TreeCache.lookup_of_answer (Option.some.inj isRead)
      refine ⟨versions.bound before.path read stored, fun node stored' => ?_⟩
      have same : read = node := Option.some.inj (stored.symm.trans stored')
      rw [same]
      exact ⟨le_rfl, fun _ => rfl⟩

theorem Inv.handle (inv : Inv C Content s) :
    Inv C Content { s with queue := handleCacheEvent C s.tree s.queue } where
  toVersions := inv.toVersions.handle
  closed := inv.closed
  noRoot := inv.noRoot
  handled item mem fetched isFetched := by
    rcases mem_handleCacheEvent mem with mem | ⟨before, -, notRoot, -, rfl⟩
    · exact inv.handled item mem fetched isFetched
    · refine ⟨notRoot, fun deleted => ?_⟩
      rw [← Option.some.inj isFetched]
      exact if_pos deleted
  settled connected := settled_handleCacheEvent (inv.settled connected)
  agrees path notRoot last := inv.agrees path notRoot (paths_handleCacheEvent notRoot last)

/-! ### Writes -/

/-- A new event has not been handled. -/
theorem mem_of_fetched {queue : List (Item ZPath D)} {item : Item ZPath D} {type : EventType}
    {path : ZPath} (mem : item ∈ queue ++ [⟨type, path, none⟩])
    (isFetched : item.fetched.isSome = true) : item ∈ queue := by
  rcases List.mem_append.mp mem with mem | mem
  · exact mem
  · rw [List.mem_singleton.mp mem] at isFetched
    cases isFetched

omit [DecidableEq K] in
theorem settled_append {tree tree' : Dict ZPath (TreeCache.ZNode D)}
    {queue : List (Item ZPath D)} {path : ZPath} {type : EventType}
    (same : ∀ other, other ≠ path → tree'.lookup other = tree.lookup other)
    (gone : type = .deleted → path ∉ tree')
    (present : type = .created ∨ type = .changed → path ∈ tree') (settled : Settled C tree queue) :
    Settled C tree' (queue ++ [⟨type, path, none⟩]) := by
  induction queue with
  | nil => exact ⟨fun _ _ => ⟨gone, present, nofun⟩, trivial⟩
  | cons item queue ih =>
      refine ⟨fun notRoot isLast => ?_, ih settled.2⟩
      have apart : path ≠ item.path := isLast _ (List.mem_append_right _ List.mem_cons_self)
      have last := settled.1 notRoot fun later mem => isLast later (List.mem_append_left _ mem)
      have lookup := same item.path apart.symm
      exact {
        gone := fun deleted => mt (mem_congr lookup).mp (last.gone deleted)
        present := fun changed => (mem_congr lookup).mpr (last.present changed)
        fetched := fun fetched read relevant =>
          (last.fetched fetched read relevant).trans lookup.symm }

theorem Agrees.congr {tree tree' : Dict ZPath (TreeCache.ZNode D)} {cached : Dict K (O × ℕ)}
    {cachedPaths : List ZPath} {path : ZPath} (same : tree'.lookup path = tree.lookup path)
    (agrees : Agrees C Content tree cached cachedPaths path) :
    Agrees C Content tree' cached cachedPaths path where
  present := agrees.present.trans (mem_congr same).symm
  object key parsed := by
    have matched := agrees.object key parsed
    unfold Matches at matched ⊢
    rwa [same]

omit [DecidableEq K] in
/-- Whether an event is awaited depends on the existence of the path alone. -/
theorem awaits_congr {tree tree' : Dict ZPath (TreeCache.ZNode D)} {path : ZPath} {walk : Walk}
    (same : path ∈ tree' ↔ path ∈ tree) : walk.Awaits tree' path ↔ walk.Awaits tree path := by
  cases walk <;> simp only [Walk.Awaits, same]

/-- What is kept when a new version is stored at a path, or the path is removed. -/
theorem Inv.write (inv : Inv C Content s) {tree : Dict ZPath (TreeCache.ZNode D)} {path : ZPath}
    {type : EventType} (closed : Closed tree)
    (same : ∀ other, other ≠ path → tree.lookup other = s.tree.lookup other)
    (new : ∀ node, tree.lookup path = some node → node.mzxid = s.zxid + 1)
    (gone : type = .deleted → path ∉ tree)
    (present : type = .created ∨ type = .changed → path ∈ tree) :
    Inv C Content (write s tree type path) := by
  have versions := inv.toVersions.tree same new
  unfold CacheSession.write
  split
  · rename_i lost
    exact {
      toVersions := versions
      closed := closed
      noRoot := inv.noRoot
      handled := inv.handled
      settled := fun connected => absurd lost connected
      agrees := fun other _ _ awaits => absurd (by rw [lost]; trivial) awaits }
  · rename_i connected
    refine {
      toVersions := versions.enqueue fun _ => mem_of_fetched
      closed := closed
      noRoot := inv.noRoot
      handled := fun item mem fetched isFetched =>
        inv.handled item (mem_of_fetched mem (by rw [isFetched]; rfl)) fetched isFetched
      settled := fun _ => settled_append same gone present (inv.settled connected)
      agrees := fun other notRoot last awaits => ?_ }
    have apart : path ≠ other := last _ (List.mem_append_right _ List.mem_cons_self)
    have lookup := same other apart.symm
    refine (inv.agrees other notRoot (fun item mem => last item (List.mem_append_left _ mem))
      fun awaited => awaits ?_).congr lookup
    exact (awaits_congr (mem_congr lookup)).mpr awaited

omit [DecidableEq K] in
theorem Closed.insert {tree : Dict ZPath (TreeCache.ZNode D)} (closed : Closed tree)
    {path : ZPath} {node : TreeCache.ZNode D} (parent : path ≠ [] → path.tail ∈ tree) :
    Closed (tree.insert path node) := by
  intro other mem notRoot
  refine (AList.mem_insert _).mpr (.inr ?_)
  rcases (AList.mem_insert _).mp mem with rfl | mem
  · exact parent notRoot
  · exact closed other mem notRoot

theorem mem_children {tree : Dict ZPath (TreeCache.ZNode D)} {path child : ZPath} :
    child ∈ children tree path ↔ child ∈ tree ∧ child ≠ [] ∧ child.tail = path := by
  unfold children
  rw [List.mem_filter, decide_eq_true_iff]
  exact Iff.rfl

omit [DecidableEq K] in
theorem Closed.erase {tree : Dict ZPath (TreeCache.ZNode D)} (closed : Closed tree)
    {path : ZPath} (childless : children tree path = []) : Closed (tree.erase path) := by
  intro other mem notRoot
  obtain ⟨-, mem⟩ := AList.mem_erase.mp mem
  refine AList.mem_erase.mpr ⟨fun same => ?_, closed other mem notRoot⟩
  exact List.ne_nil_of_mem (mem_children.mpr ⟨mem, notRoot, same⟩) childless

theorem Inv.insert (inv : Inv C Content s) {path : ZPath} (data : Option D) {type : EventType}
    (present : type ≠ .deleted) (parent : path ≠ [] → path.tail ∈ s.tree) :
    Inv C Content
      (CacheSession.write s (s.tree.insert path ⟨data, s.zxid + 1⟩) type path) := by
  refine inv.write (inv.closed.insert parent) (fun other apart => AList.lookup_insert_ne apart)
    (fun node stored => ?_) (fun deleted => absurd deleted present)
    fun _ => (AList.mem_insert _).mpr (.inl rfl)
  rw [AList.lookup_insert] at stored
  cases stored
  rfl

theorem Inv.erase (inv : Inv C Content s) {path : ZPath} (childless : children s.tree path = []) :
    Inv C Content (CacheSession.write s (s.tree.erase path) .deleted path) := by
  have gone : (s.tree.erase path).lookup path = none := AList.lookup_erase path s.tree
  refine inv.write (inv.closed.erase childless) (fun other apart => AList.lookup_erase_ne apart)
    (fun node stored => ?_) (fun _ => AList.lookup_eq_none.mp gone) nofun
  rw [gone] at stored
  cases stored

/-! ### The walk -/

/-- The walk emits the event of a path, and goes on. -/
theorem Inv.emit (inv : Inv C Content s) {path : ZPath} {walk : Walk} (connected : s.walk ≠ .lost)
    (awaits : ∀ other, other ≠ path → s.walk.Awaits s.tree other → walk.Awaits s.tree other) :
    Inv C Content { CacheSession.emit s .none path with walk := walk } where
  toVersions := inv.toVersions.enqueue fun _ => mem_of_fetched
  closed := inv.closed
  noRoot := inv.noRoot
  handled item mem fetched isFetched :=
    inv.handled item (mem_of_fetched mem (by rw [isFetched]; rfl)) fetched isFetched
  settled _ := settled_append (fun _ _ => rfl) nofun (by rintro (same | same) <;> cases same)
    (inv.settled connected)
  agrees other notRoot last notAwaited := by
    have apart : path ≠ other := last _ (List.mem_append_right _ List.mem_cons_self)
    exact inv.agrees other notRoot (fun item mem => last item (List.mem_append_left _ mem))
      fun awaited => notAwaited (awaits other apart.symm awaited)

/-- What is neither cached nor stored is as it should be. -/
theorem Inv.agrees_of_absent (inv : Inv C Content s) (lawful : Lawful C Content) {path : ZPath}
    (gone : path ∉ s.tree) (absent : path ∉ s.cachedPaths) :
    Agrees C Content s.tree s.cached s.cachedPaths path where
  present := iff_of_false absent gone
  object key parsed := by
    unfold Matches
    rw [AList.lookup_eq_none.mpr gone]
    rw [AList.lookup_eq_none, ← AList.lookup_isSome, Option.not_isSome_iff_eq_none,
      Option.eq_none_iff_forall_ne_some]
    rintro ⟨object, stat⟩ isCached
    obtain ⟨-, ⟨other, parsed', mem⟩, -⟩ := inv.known key object stat isCached
    exact absent (lawful.injective parsed' parsed ▸ mem)

/-- The walk goes on without an event, and paths that it no longer comes to are neither stored nor
cached. -/
theorem Inv.advance (inv : Inv C Content s) (lawful : Lawful C Content) {walk : Walk}
    (connected : s.walk ≠ .lost)
    (awaits : ∀ path, s.walk.Awaits s.tree path → walk.Awaits s.tree path ∨
      path ∉ s.tree ∧ path ∉ s.cachedPaths) :
    Inv C Content { s with walk := walk } where
  toVersions := inv.toVersions.enqueue fun _ mem _ => mem
  closed := inv.closed
  noRoot := inv.noRoot
  handled := inv.handled
  settled _ := inv.settled connected
  agrees path notRoot last notAwaited := by
    by_cases awaited : s.walk.Awaits s.tree path
    · obtain ⟨gone, absent⟩ := (awaits path awaited).resolve_left notAwaited
      exact inv.agrees_of_absent lawful gone absent
    · exact inv.agrees path notRoot last awaited

omit [DecidableEq K] in
theorem covers_children {path above : ZPath} (covers : (Visit.node above).Covers path)
    (apart : path ≠ above) : (Visit.children above).Covers path := by
  obtain ⟨names, rfl⟩ := covers
  induction names using List.reverseRecOn with
  | nil => exact absurd rfl apart
  | append_singleton names name =>
      exact ⟨name :: above, nofun, rfl, names, by simp⟩

omit [DecidableEq K] in
theorem Visit.Covers.trans {visit : Visit} {path below : ZPath} (covers : visit.Covers path)
    (suffix : path <:+ below) : visit.Covers below := by
  cases visit with
  | node above => exact List.IsSuffix.trans covers suffix
  | children above => exact covers.imp fun _ h => ⟨h.1, h.2.1, h.2.2.trans suffix⟩

omit [DecidableEq K] in
/-- What a step of the walk can be: what is still to come covers what it did before, but for what
has its event now, and what is neither stored nor cached. -/
theorem walkTree_cases (s : State K D O) (closed : Closed s.tree) :
    walkTree s = s ∨
      (∃ walk, s.walk ≠ .lost ∧ walkTree s = { s with walk := walk } ∧
        ∀ path, s.walk.Awaits s.tree path →
          walk.Awaits s.tree path ∨ path ∉ s.tree ∧ path ∉ s.cachedPaths) ∨
      ∃ path walk, s.walk ≠ .lost ∧ walkTree s = { emit s .none path with walk := walk } ∧
        (∀ other, other ≠ path → s.walk.Awaits s.tree other → walk.Awaits s.tree other) ∧
        ∀ above, above <:+ path → above ≠ path → path ∈ s.tree → s.walk.Awaits s.tree above →
          walk.Awaits s.tree path := by
  unfold walkTree
  split
  · exact .inl rfl
  · rename_i started
    refine .inr (.inl ⟨_, by rw [started]; nofun, rfl, fun path _ => .inl ?_⟩)
    by_cases mem : path ∈ s.tree
    · have root : [] ∈ s.tree := mem_of_suffix closed mem List.nil_suffix
      refine .inl ⟨mem, .node [], ?_, List.nil_suffix⟩
      rw [if_pos root]
      exact List.mem_cons_self
    · exact .inr ⟨mem, List.not_mem_nil⟩
  · rename_i path todo seen walking
    refine .inr (.inr ⟨path, _, by rw [walking]; nofun, rfl, fun other apart awaited => ?_,
      fun above suffix apart mem awaited => ?_⟩)
    · rw [walking] at awaited
      rcases awaited with ⟨mem, visit, memVisit, covers⟩ | ⟨notMem, unseen⟩
      · refine .inl ⟨mem, ?_⟩
        rcases List.mem_cons.mp memVisit with rfl | memVisit
        · exact ⟨_, List.mem_cons_self, covers_children covers apart⟩
        · exact ⟨visit, List.mem_cons_of_mem _ memVisit, covers⟩
      · exact .inr ⟨notMem, fun mem => (List.mem_cons.mp mem).elim apart unseen⟩
    · rw [walking] at awaited
      rcases awaited with ⟨-, visit, memVisit, covers⟩ | ⟨notMem, -⟩
      · refine .inl ⟨mem, ?_⟩
        rcases List.mem_cons.mp memVisit with rfl | memVisit
        · have below : path <:+ above := covers
          exact absurd (suffix.eq_of_length_le below.length_le) apart
        · exact ⟨visit, List.mem_cons_of_mem _ memVisit, covers.trans suffix⟩
      · exact absurd (mem_of_suffix closed mem suffix) notMem
  · rename_i path todo seen walking
    refine .inr (.inl ⟨_, by rw [walking]; nofun, rfl, fun other awaited => .inl ?_⟩)
    rw [walking] at awaited
    rcases awaited with ⟨mem, visit, memVisit, covers⟩ | unseen
    · refine .inl ⟨mem, ?_⟩
      rcases List.mem_cons.mp memVisit with rfl | memVisit
      · obtain ⟨child, notRoot, parent, suffix⟩ := covers
        refine ⟨.node child, List.mem_append_left _ (List.mem_map_of_mem ?_), suffix⟩
        exact mem_children.mpr ⟨mem_of_suffix closed mem suffix, notRoot, parent⟩
      · exact ⟨visit, List.mem_append_right _ memVisit, covers⟩
    · exact .inr unseen
  · rename_i seen walking
    refine .inr (.inl ⟨_, by rw [walking]; nofun, rfl, fun path awaited => ?_⟩)
    rw [walking] at awaited
    rcases awaited with ⟨-, visit, memVisit, -⟩ | ⟨notMem, unseen⟩
    · cases memVisit
    · by_cases mem : path ∈ s.cachedPaths
      · exact .inl ⟨notMem, List.mem_filter.mpr ⟨mem, decide_eq_true unseen⟩⟩
      · exact .inr ⟨notMem, mem⟩
  · rename_i path paths unseen
    refine .inr (.inr ⟨path, _, by rw [unseen]; nofun, rfl, fun other apart awaited => ?_,
      fun above suffix _ mem awaited => ?_⟩)
    · rw [unseen] at awaited
      exact ⟨awaited.1, (List.mem_cons.mp awaited.2).resolve_left apart⟩
    · rw [unseen] at awaited
      exact absurd (mem_of_suffix closed mem suffix) awaited.1
  · rename_i unseen
    refine .inr (.inl ⟨_, by rw [unseen]; nofun, rfl, fun path awaited => ?_⟩)
    rw [unseen] at awaited
    cases awaited.2
  · exact .inl rfl

theorem Inv.walkTree (inv : Inv C Content s) (lawful : Lawful C Content) :
    Inv C Content (walkTree s) := by
  rcases walkTree_cases s inv.closed with
    same | ⟨walk, connected, same, awaits⟩ | ⟨path, walk, connected, same, awaits, -⟩
  · rw [same]
    exact inv
  · rw [same]
    exact inv.advance lawful connected awaits
  · rw [same]
    exact inv.emit connected awaits

/-! ### The playback worker -/

/-- The objects of the other paths have only been shown the event. -/
theorem lookup_handlePlayback_ne (cached : Dict K (O × ℕ)) {item : Item ZPath D}
    (fetched : Option (TreeCache.ZNode D)) {key : K} (apart : C.parsePath item.path ≠ some key) :
    (handlePlayback C cached item fetched).lookup key = (cached.lookup key).map fun object =>
      (C.preCacheHook item.path (seen item.type fetched) key object.1, object.2) := by
  unfold handlePlayback
  dsimp only
  split
  · rw [Dict.lookup_mapVals]
  · rename_i other parsed
    have other_ne : key ≠ other := fun same => apart (parsed.trans (congrArg some same.symm))
    rw [TreeCache.lookup_updateObject_ne other_ne, Dict.lookup_mapVals]

/-- The object of the path: it has the data that was fetched, or it was as new and has only been
shown the event, or it is gone. -/
theorem lookup_handlePlayback (lawful : Lawful C Content) {cached : Dict K (O × ℕ)}
    {item : Item ZPath D} (fetched : Option (TreeCache.ZNode D)) {key : K}
    (parsed : C.parsePath item.path = some key)
    (known : ∀ object stat, cached.lookup key = some (object, stat) →
      ∃ data, Content key object data) :
    (∃ data mzxid object, fetched = some ⟨some data, mzxid⟩ ∧ Content key object data ∧
        (handlePlayback C cached item fetched).lookup key = some (object, mzxid)) ∨
      (∃ data mzxid object stat, fetched = some ⟨some data, mzxid⟩ ∧ mzxid ≤ stat ∧
        cached.lookup key = some (object, stat) ∧
        (handlePlayback C cached item fetched).lookup key =
          some (C.preCacheHook item.path (seen item.type fetched) key object, stat)) ∨
      (∀ data mzxid, fetched ≠ some ⟨some data, mzxid⟩) ∧
        (handlePlayback C cached item fetched).lookup key = none := by
  have unfolded : handlePlayback C cached item fetched = updateObject C
      (cached.mapVals fun key object =>
        (C.preCacheHook item.path (seen item.type fetched) key object.1, object.2))
      key fetched := by
    unfold handlePlayback
    dsimp only
    rw [parsed]
  rw [unfolded]
  refine (TreeCache.lookup_updateObject lawful parsed (fun object stat isCached => ?_)
    fetched).imp_right (.imp_left ?_)
  · rw [Dict.lookup_mapVals] at isCached
    obtain ⟨⟨old, version⟩, was, same⟩ := Option.map_eq_some_iff.mp isCached
    cases same
    exact (known old version was).imp fun _ => lawful.hook
  · rintro ⟨data, mzxid, object, stat, same, le, isCached, after⟩
    rw [Dict.lookup_mapVals] at isCached
    obtain ⟨⟨old, version⟩, was, same'⟩ := Option.map_eq_some_iff.mp isCached
    cases same'
    exact ⟨data, mzxid, old, version, same, le, was, after⟩

/-- An object that is cached was so before, or has the data that was fetched. -/
theorem cached_handlePlayback (lawful : Lawful C Content) {cached : Dict K (O × ℕ)}
    {item : Item ZPath D} {fetched : Option (TreeCache.ZNode D)} {key : K} {object : O} {stat : ℕ}
    (known : ∀ object stat, cached.lookup key = some (object, stat) →
      ∃ data, Content key object data)
    (isCached : (handlePlayback C cached item fetched).lookup key = some (object, stat)) :
    (∃ old, cached.lookup key = some (old, stat) ∧ (∀ data, Content key old data →
        Content key object data) ∧ (C.parsePath item.path = some key → fetched ≠ none)) ∨
      C.parsePath item.path = some key ∧
        ∃ data, fetched = some ⟨some data, stat⟩ ∧ Content key object data := by
  by_cases parsed : C.parsePath item.path = some key
  · rcases lookup_handlePlayback lawful fetched parsed known with
      ⟨data, mzxid, object', same, content, after⟩ |
      ⟨data, mzxid, old, stat', same, -, was, after⟩ | ⟨-, after⟩
    · cases isCached.symm.trans after
      exact .inr ⟨parsed, data, same, content⟩
    · cases isCached.symm.trans after
      exact .inl ⟨old, was, fun _ => lawful.hook, fun _ => by rw [same]; nofun⟩
    · cases isCached.symm.trans after
  · rw [lookup_handlePlayback_ne _ _ parsed] at isCached
    obtain ⟨⟨old, _⟩, was, same⟩ := Option.map_eq_some_iff.mp isCached
    cases same
    exact .inl ⟨old, was, fun _ => lawful.hook, fun same => absurd same parsed⟩

theorem mem_playback_ne {item : Item ZPath D} {fetched : Option (TreeCache.ZNode D)}
    {path : ZPath} (apart : path ≠ item.path) :
    path ∈ (playback C s item fetched).cachedPaths ↔ path ∈ s.cachedPaths := by
  unfold playback
  dsimp only
  split
  · rw [List.mem_insert_iff]
    exact or_iff_right apart
  · rw [List.mem_filter, decide_eq_true_iff]
    exact and_iff_left apart

theorem mem_playback {item : Item ZPath D} {fetched : Option (TreeCache.ZNode D)} :
    item.path ∈ (playback C s item fetched).cachedPaths ↔ seen item.type fetched = true := by
  unfold playback
  dsimp only
  split
  · rename_i isSeen
    exact iff_of_true (List.mem_insert_self) isSeen
  · rename_i unseen
    rw [List.mem_filter, decide_eq_true_iff]
    exact iff_of_false (fun mem => mem.2 rfl) unseen

theorem seen_of_fetched {type : EventType} {fetched : Option (TreeCache.ZNode D)}
    (deleted : type = .deleted → fetched = none) (exists' : fetched ≠ none) :
    seen type fetched = true := by
  cases type with
  | none => exact Option.isSome_iff_ne_none.mpr exists'
  | created => rfl
  | changed => rfl
  | deleted => exact absurd (deleted rfl) exists'

theorem Versions.playback (lawful : Lawful C Content) (versions : Versions C Content s)
    {item : Item ZPath D} {queue : List (Item ZPath D)} {fetched : Option (TreeCache.ZNode D)}
    (first : s.queue = item :: queue) (isFetched : item.fetched = some fetched)
    (deleted : item.type = .deleted → fetched = none) :
    Versions C Content (CacheSession.playback C { s with queue := queue } item fetched) := by
  have read {node : TreeCache.ZNode D} (same : fetched = some node) := versions.fetched item
    (first ▸ List.mem_cons_self) node (isFetched.trans (congrArg some same))
  have known {key : K} (object : O) (stat : ℕ) (was : s.cached.lookup key = some (object, stat)) :=
    (versions.known key object stat was).2.2
  refine {
    bound := versions.bound
    known := fun key object stat isCached => ?_
    version := fun path key node object stat parsed stored isCached => ?_
    fetched := fun other mem => versions.fetched other (first ▸ List.mem_cons_of_mem item mem) }
  · rcases cached_handlePlayback lawful known isCached with
      ⟨old, was, content, exists'⟩ | ⟨parsed, data, same, content⟩
    · obtain ⟨le, ⟨path, parsed, mem⟩, data, before⟩ := versions.known key old stat was
      refine ⟨le, ⟨path, parsed, ?_⟩, data, content data before⟩
      by_cases here : path = item.path
      · subst here
        exact mem_playback.mpr (seen_of_fetched deleted (exists' parsed))
      · exact (mem_playback_ne here).mpr mem
    · refine ⟨(read same).1, ⟨item.path, parsed, mem_playback.mpr ?_⟩, data, content⟩
      exact seen_of_fetched deleted (by rw [same]; nofun)
  · rcases cached_handlePlayback lawful known isCached with
      ⟨old, was, content, -⟩ | ⟨parsed', data, same, content⟩
    · obtain ⟨le, versions⟩ := versions.version path key node old stat parsed stored was
      refine ⟨le, fun equal => ?_⟩
      obtain ⟨data, hasData, before⟩ := versions equal
      exact ⟨data, hasData, content data before⟩
    · obtain rfl : item.path = path := lawful.injective parsed' parsed
      obtain ⟨le, versions⟩ := (read same).2 node stored
      exact ⟨le, fun equal => ⟨data, by rw [← versions equal], content⟩⟩

/-- The last event of a path makes the cache agree with what is stored there. -/
theorem Inv.agrees_playback (lawful : Lawful C Content) (inv : Inv C Content s)
    {item : Item ZPath D} {fetched : Option (TreeCache.ZNode D)} (last : Last C s.tree item)
    (isFetched : item.fetched = some fetched) :
    Agrees C Content s.tree (playback C s item fetched).cached
      (playback C s item fetched).cachedPaths item.path where
  present := by
    rw [mem_playback]
    cases type : item.type with
    | none =>
        rw [last.fetched fetched isFetched (.inl type)]
        change (s.tree.lookup item.path).isSome = true ↔ item.path ∈ s.tree
        exact AList.lookup_isSome
    | created => exact iff_of_true rfl (last.present (.inl type))
    | changed => exact iff_of_true rfl (last.present (.inr type))
    | deleted => exact iff_of_false nofun (last.gone type)
  object key parsed := by
    have stored := last.fetched fetched isFetched (.inr (by rw [parsed]; rfl))
    unfold Matches
    rw [← stored]
    rcases lookup_handlePlayback lawful fetched parsed
        (fun object stat was => (inv.known key object stat was).2.2) with
      ⟨data, mzxid, object, same, content, after⟩ |
      ⟨data, mzxid, old, stat, same, le, was, after⟩ | ⟨noData, after⟩
    · rw [same] at after ⊢
      exact ⟨object, after, content⟩
    · obtain ⟨ge, versions⟩ := inv.version item.path key _ old stat parsed
        (stored.symm.trans same) was
      have equal : stat = mzxid := Nat.le_antisymm ge le
      obtain ⟨data', hasData, content⟩ := versions equal
      cases hasData
      rw [same, equal] at after
      rw [same]
      exact ⟨_, after, lawful.hook content⟩
    · split
      · exact absurd rfl (noData _ _)
      · exact after

theorem Agrees.playback_ne (lawful : Lawful C Content) {item : Item ZPath D}
    {fetched : Option (TreeCache.ZNode D)} {path : ZPath} (apart : path ≠ item.path)
    (agrees : Agrees C Content s.tree s.cached s.cachedPaths path) :
    Agrees C Content s.tree (playback C s item fetched).cached
      (playback C s item fetched).cachedPaths path where
  present := (mem_playback_ne apart).trans agrees.present
  object key parsed := by
    have matched := agrees.object key parsed
    have other_ne : C.parsePath item.path ≠ some key := fun same =>
      apart (lawful.injective parsed same)
    unfold Matches playback at *
    dsimp only
    rw [lookup_handlePlayback_ne _ _ other_ne]
    split at matched
    · obtain ⟨object, isCached, content⟩ := matched
      rw [isCached]
      exact ⟨_, rfl, lawful.hook content⟩
    · rw [matched]
      rfl

theorem Inv.playback (lawful : Lawful C Content) (inv : Inv C Content s) {item : Item ZPath D}
    {queue : List (Item ZPath D)} {fetched : Option (TreeCache.ZNode D)}
    (first : s.queue = item :: queue) (isFetched : item.fetched = some fetched) :
    Inv C Content (CacheSession.playback C { s with queue := queue } item fetched) := by
  obtain ⟨notRoot, deleted⟩ := inv.handled item (first ▸ List.mem_cons_self) fetched isFetched
  refine {
    toVersions := inv.toVersions.playback lawful first isFetched deleted
    closed := inv.closed
    noRoot := fun mem => inv.noRoot ((mem_playback_ne (C := C) notRoot.symm).mp mem)
    handled := fun other mem => inv.handled other (first ▸ List.mem_cons_of_mem item mem)
    settled := fun connected => ?_
    agrees := fun path notRoot last awaits => ?_ }
  · have settled := inv.settled connected
    rw [first] at settled
    exact settled.2
  · by_cases here : path = item.path
    · subst here
      have connected : s.walk ≠ .lost := fun lost => awaits (by
        change s.walk.Awaits s.tree item.path
        rw [lost]
        trivial)
      have settled := inv.settled connected
      rw [first] at settled
      exact inv.agrees_playback lawful (settled.1 notRoot last) isFetched
    · refine (inv.agrees path notRoot (fun other mem => ?_) awaits).playback_ne lawful here
      rw [first] at mem
      rcases List.mem_cons.mp mem with rfl | mem
      · exact fun same => here same.symm
      · exact last other mem

theorem Inv.step (lawful : Lawful C Content) (inv : Inv C Content s) (action : Action D) :
    Inv C Content (step C s action) := by
  unfold CacheSession.step
  cases action with
  | create path data =>
      dsimp only
      split
      · exact inv
      · rename_i allowed
        rw [not_or, not_and_not_right] at allowed
        exact inv.insert data nofun allowed.2
  | set path data =>
      dsimp only
      split
      · rename_i mem
        exact inv.insert data nofun (inv.closed path mem)
      · exact inv
  | delete path =>
      dsimp only
      split
      · rename_i allowed
        exact inv.erase allowed.2
      · exact inv
  | lose =>
      exact {
        toVersions := inv.toVersions.enqueue fun _ mem _ => mem
        closed := inv.closed
        noRoot := inv.noRoot
        handled := inv.handled
        settled := fun connected => absurd rfl connected
        agrees := fun _ _ _ awaits => absurd trivial awaits }
  | start =>
      exact {
        toVersions := inv.toVersions.enqueue fun _ mem => nomatch mem
        closed := inv.closed
        noRoot := inv.noRoot
        handled := fun _ mem => nomatch mem
        settled := fun _ => trivial
        agrees := fun _ _ _ awaits => absurd trivial awaits }
  | walk => exact inv.walkTree lawful
  | handle => exact inv.handle
  | play =>
      dsimp only
      split
      · exact inv
      · rename_i item queue first
        split
        · exact inv
        · rename_i fetched isFetched
          exact inv.playback lawful first isFetched
  | fail =>
      dsimp only
      split
      · rename_i lost
        exact {
          toVersions := inv.toVersions.enqueue fun _ mem _ => List.mem_of_mem_tail mem
          closed := inv.closed
          noRoot := inv.noRoot
          handled := fun item mem => inv.handled item (List.mem_of_mem_tail mem)
          settled := fun connected => absurd lost connected
          agrees := fun _ _ _ awaits => absurd (by rw [lost]; trivial) awaits }
      · exact inv

/-! ### Runs -/

/-- A cache that is not connected yet, over a tree that exists. -/
def initial (tree : Dict ZPath (TreeCache.ZNode D)) (zxid : ℕ) : State K D O :=
  ⟨tree, zxid, [], ∅, [], .lost⟩

omit [DecidableEq K] in
theorem Inv.initial [DecidableEq K] {tree : Dict ZPath (TreeCache.ZNode D)} {zxid : ℕ}
    (closed : Closed tree) (bound : ∀ path node, tree.lookup path = some node → node.mzxid ≤ zxid) :
    Inv C Content (initial tree zxid) where
  bound := bound
  known _ _ _ isCached := nomatch (AList.lookup_empty _).symm.trans isCached
  version _ _ _ _ _ _ _ isCached := nomatch (AList.lookup_empty _).symm.trans isCached
  fetched _ mem := nomatch mem
  closed := closed
  noRoot mem := nomatch mem
  handled _ mem := nomatch mem
  settled connected := absurd rfl connected
  agrees _ _ _ awaits := absurd trivial awaits

theorem Inv.run (lawful : Lawful C Content) (inv : Inv C Content s) (actions : List (Action D)) :
    Inv C Content (actions.foldl (CacheSession.step C) s) := by
  induction actions generalizing s with
  | nil => exact inv
  | cons action actions ih => exact ih (inv.step lawful action)

variable (C) (Content) in
/-- The cache holds what is stored, and nothing else. -/
structure Coherent (s : State K D O) : Prop where
  paths : ∀ path, path ∈ s.cachedPaths ↔ path ∈ s.tree ∧ path ≠ []
  objects : ∀ path key, C.parsePath path = some key → Matches Content s.tree s.cached path key
  stored : ∀ key object stat, s.cached.lookup key = some (object, stat) → ∃ path data,
    C.parsePath path = some key ∧ s.tree.lookup path = some ⟨some data, stat⟩ ∧
    Content key object data

theorem Inv.coherent (rooted : C.parsePath [] = none) (inv : Inv C Content s)
    (ready : s.walk = .ready) (drained : s.queue = []) : Coherent C Content s := by
  have agrees {path : ZPath} (notRoot : path ≠ []) : Agrees C Content s.tree s.cached
      s.cachedPaths path := by
    refine inv.agrees path notRoot ?_ ?_
    · rw [drained]
      nofun
    · rw [ready]
      exact id
  have objects {path : ZPath} {key : K} (parsed : C.parsePath path = some key) :
      Matches Content s.tree s.cached path key := by
    refine (agrees ?_).object key parsed
    rintro rfl
    cases rooted.symm.trans parsed
  refine {
    paths := fun path => ?_
    objects := fun _ _ => objects
    stored := fun key object stat isCached => ?_ }
  · by_cases root : path = []
    · subst root
      exact iff_of_false inv.noRoot fun h => h.2 rfl
    · exact (agrees root).present.trans (and_iff_left root).symm
  · obtain ⟨-, ⟨path, parsed, -⟩, -⟩ := inv.known key object stat isCached
    have matched := objects parsed
    unfold Matches at matched
    split at matched
    · rename_i data mzxid stored
      obtain ⟨object', isCached', content⟩ := matched
      cases isCached.symm.trans isCached'
      exact ⟨path, data, parsed, stored, content⟩
    · cases isCached.symm.trans matched

/-- Whatever is written, and however often the connection is lost and the tree is walked through,
once the cache is ready and nothing is queued it holds what is stored. -/
theorem coherent_run (lawful : Lawful C Content) (rooted : C.parsePath [] = none)
    {tree : Dict ZPath (TreeCache.ZNode D)} {zxid : ℕ} (closed : Closed tree)
    (bound : ∀ path node, tree.lookup path = some node → node.mzxid ≤ zxid)
    (actions : List (Action D)) (s : State K D O)
    (run : actions.foldl (CacheSession.step C) (CacheSession.initial tree zxid) = s)
    (ready : s.walk = .ready) (drained : s.queue = []) : Coherent C Content s :=
  (run ▸ (Inv.initial closed bound).run lawful actions : Inv C Content s).coherent rooted ready
    drained

end Invariant

/-! ### The cache of the requests -/

/-- The identifier of a record that is stored below the root. -/
def parseRecordPath : ZPath → Option String
  | [id] => if id = "lock" then none else some id
  | _ => none

theorem parseRecordPath_eq_some {path : ZPath} {id : String} :
    parseRecordPath path = some id ↔ path = [id] ∧ id ≠ "lock" := by
  unfold parseRecordPath
  split
  · rename_i name
    rw [Option.ite_none_left_eq_some, Option.some_inj, List.cons.injEq]
    constructor
    · rintro ⟨notLock, rfl⟩
      exact ⟨⟨rfl, rfl⟩, notLock⟩
    · rintro ⟨⟨rfl, -⟩, notLock⟩
      exact ⟨notLock, rfl⟩
  · rename_i other
    exact iff_of_false nofun fun h => other id h.1

/-- `RequestCache`: each attribute of a request is read anew when it is updated. -/
def RequestCache (D : Type) : CacheClass ZPath String D (String × D) where
  parsePath := parseRecordPath
  preCacheHook _ _ _ request := request
  objectFromDict d id := (id, d)
  updateFromDict d request := (request.1, d)

theorem requestCache_lawful (D : Type) :
    Lawful (RequestCache D) fun id request data => request = (id, data) where
  injective parsed parsed' :=
    (parseRecordPath_eq_some.mp parsed).1.trans (parseRecordPath_eq_some.mp parsed').1.symm
  hook := id
  fresh _ := rfl
  update content := congrArg (·.1, _) content

/-- A tree with nothing but the root of the cache. -/
def exampleTree : Dict ZPath (TreeCache.ZNode ℕ) := (∅ : Dict _ _).insert [] ⟨none, 0⟩

theorem lookup_exampleTree (path : ZPath) :
    exampleTree.lookup path = if path = [] then some ⟨none, 0⟩ else none := by
  by_cases root : path = []
  · subst root
    rfl
  · rw [if_neg root]
    exact (AList.lookup_insert_ne root).trans (AList.lookup_empty path)

theorem exampleTree_closed : Closed exampleTree := by
  intro path mem root
  have isSome := AList.lookup_isSome.mpr mem
  rw [lookup_exampleTree, if_neg root] at isSome
  cases isSome

theorem exampleTree_bound (path : ZPath) (node : TreeCache.ZNode ℕ)
    (stored : exampleTree.lookup path = some node) : node.mzxid ≤ 0 := by
  rw [lookup_exampleTree] at stored
  split at stored
  · cases stored
    exact le_rfl
  · cases stored

/-- A request is cached and removed while there is no connection, and another is stored during the
walk. -/
def exampleActions : List (Action ℕ) :=
  [.start, .walk, .walk, .walk, .create ["1"] (some 7), .handle, .handle, .play, .lose,
    .delete ["1"], .start, .walk, .walk, .create ["2"] (some 8)] ++
    List.replicate 12 .walk ++ List.replicate 8 .handle ++ List.replicate 8 .play

theorem coherent_run_example : Coherent (RequestCache ℕ) (fun id request data =>
    request = (id, data)) (exampleActions.foldl (step (RequestCache ℕ)) (initial exampleTree 0)) :=
  coherent_run (requestCache_lawful ℕ) rfl exampleTree_closed exampleTree_bound exampleActions _ rfl
    (by decide +kernel) (by decide +kernel)

end Nodepool.CacheSession
