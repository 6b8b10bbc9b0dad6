import Nodepool.Zk.CacheSession

/-!
What the threads of a `NodepoolTreeCache` do by themselves: while nothing is written and the
connection stays, the walk ends and the queues are drained.
-/

namespace Nodepool.CacheSession

open TreeCache (EventType Item CacheClass Lawful)

variable {K D O : Type} [DecidableEq K] {C : CacheClass ZPath K D O} {s s' s'' : State K D O}

/-- What the walk and the two workers do. -/
inductive Action.IsOwn : Action D → Prop where
  | walk : IsOwn .walk
  | handle : IsOwn .handle
  | play : IsOwn .play

variable (C) in
/-- The threads of the cache can get from one state to the other. -/
def Reaches (s s' : State K D O) : Prop :=
  ∃ actions : List (Action D), (∀ action ∈ actions, action.IsOwn) ∧
    actions.foldl (step C) s = s'

theorem Reaches.refl (s : State K D O) : Reaches C s s := ⟨[], nofun, rfl⟩

theorem Reaches.trans (first : Reaches C s s') (second : Reaches C s' s'') : Reaches C s s'' := by
  obtain ⟨actions, own, rfl⟩ := first
  obtain ⟨more, ownMore, rfl⟩ := second
  refine ⟨actions ++ more, fun action mem => ?_, List.foldl_append⟩
  exact (List.mem_append.mp mem).elim (own action) (ownMore action)

theorem Reaches.single {action : Action D} (own : action.IsOwn) (s : State K D O) :
    Reaches C s (step C s action) :=
  ⟨[action], fun _ mem => List.mem_singleton.mp mem ▸ own, rfl⟩

/-- The tree is that of the other state. -/
theorem Reaches.tree (reaches : Reaches C s s') : s'.tree = s.tree := by
  obtain ⟨actions, own, rfl⟩ := reaches
  induction actions generalizing s with
  | nil => rfl
  | cons action actions ih =>
      refine (ih fun other mem => own other (List.mem_cons_of_mem action mem)).trans ?_
      cases own action List.mem_cons_self with
      | walk =>
          change (walkTree s).tree = s.tree
          unfold walkTree
          split <;> rfl
      | handle => rfl
      | play =>
          unfold step
          dsimp only
          split
          · rfl
          · split <;> rfl

/-! ### The walk -/

/-- Another step of the walk gets there. -/
theorem Reaches.ofWalk (reaches : Reaches C (walkTree s) s') : Reaches C s s' :=
  (Reaches.single .walk s).trans reaches

/-- If the walk gets through each of some paths, it gets through them all. -/
theorem reaches_nodes {tree : Dict ZPath (TreeCache.ZNode D)} {paths : List ZPath}
    {todo : List Visit} {seen : List ZPath}
    (each : ∀ path ∈ paths, ∀ {s : State K D O} {todo : List Visit} {seen : List ZPath},
      s.tree = tree → s.walk = .walking (.node path :: todo) seen →
      ∃ s' seen', Reaches C s s' ∧ s'.walk = .walking todo seen')
    (same : s.tree = tree) (walking : s.walk = .walking (paths.map .node ++ todo) seen) :
    ∃ s' seen', Reaches C s s' ∧ s'.walk = .walking todo seen' := by
  induction paths generalizing s seen with
  | nil => exact ⟨s, seen, .refl s, walking⟩
  | cons path paths ih =>
      obtain ⟨s', seen', reaches, walking'⟩ := each path List.mem_cons_self same walking
      obtain ⟨s'', seen'', reaches', walking''⟩ := ih
        (fun other mem => each other (List.mem_cons_of_mem path mem)) (reaches.tree.trans same)
        walking'
      exact ⟨s'', seen'', reaches.trans reaches', walking''⟩

omit [DecidableEq K] in
theorem walkTree_children {path : ZPath} {todo : List Visit} {seen : List ZPath}
    (walking : s.walk = .walking (.children path :: todo) seen) :
    (walkTree s).tree = s.tree ∧
      (walkTree s).walk = .walking ((children s.tree path).map .node ++ todo) seen := by
  unfold walkTree
  rw [walking]
  exact ⟨rfl, rfl⟩

omit [DecidableEq K] in
theorem walkTree_node {path : ZPath} {todo : List Visit} {seen : List ZPath}
    (walking : s.walk = .walking (.node path :: todo) seen) : (walkTree s).tree = s.tree ∧
      (walkTree s).walk = .walking (.children path :: todo) (path :: seen) := by
  unfold walkTree
  rw [walking]
  exact ⟨rfl, rfl⟩

/-- The walk gets through what is at a path and below it, by induction on how far the tree goes
down from there. -/
theorem reaches_node (height : ℕ) {path : ZPath} {todo : List Visit} {seen : List ZPath}
    (walking : s.walk = .walking (.node path :: todo) seen)
    (low : ∀ below ∈ s.tree, path <:+ below → below.length ≤ path.length + height) :
    ∃ s' seen', Reaches C s s' ∧ s'.walk = .walking todo seen' := by
  induction height generalizing s path todo seen with
  | zero =>
      obtain ⟨tree, walking⟩ := walkTree_node walking
      obtain ⟨tree', walking'⟩ := walkTree_children walking
      have childless : children (walkTree s).tree path = [] := by
        refine List.eq_nil_iff_forall_not_mem.mpr fun child mem => ?_
        obtain ⟨mem, notRoot, parent⟩ := mem_children.mp mem
        have length := low child (tree ▸ mem) (parent ▸ List.tail_suffix child)
        have tail := congrArg List.length parent
        rw [List.length_tail] at tail
        have := List.length_pos_iff.mpr notRoot
        omega
      rw [childless] at walking'
      exact ⟨_, _, .ofWalk (.ofWalk (.refl _)), walking'⟩
  | succ height ih =>
      obtain ⟨tree, walking⟩ := walkTree_node walking
      obtain ⟨tree', walking'⟩ := walkTree_children walking
      have each : ∀ child ∈ children s.tree path, ∀ {s' : State K D O} {todo : List Visit}
          {seen : List ZPath}, s'.tree = s.tree → s'.walk = .walking (.node child :: todo) seen →
          ∃ s'' seen', Reaches C s' s'' ∧ s''.walk = .walking todo seen' := by
        intro child mem s' todo seen same walking
        refine ih walking fun below memBelow suffix => ?_
        obtain ⟨-, notRoot, parent⟩ := mem_children.mp mem
        have above : path <:+ child := parent ▸ List.tail_suffix child
        have length := low below (same ▸ memBelow) (above.trans suffix)
        have tail := congrArg List.length parent
        rw [List.length_tail] at tail
        have := List.length_pos_iff.mpr notRoot
        omega
      rw [tree] at walking'
      obtain ⟨s', seen', reaches, walking''⟩ := reaches_nodes each (tree'.trans tree) walking'
      exact ⟨s', seen', .ofWalk (.ofWalk reaches), walking''⟩

/-- There is no path in a tree that is longer than some number. -/
theorem exists_height (tree : Dict ZPath (TreeCache.ZNode D)) :
    ∃ height, ∀ path ∈ tree, path.length ≤ height := by
  refine ⟨(tree.keys.map List.length).sum, fun path mem => ?_⟩
  exact List.single_le_sum (fun _ _ => Nat.zero_le _) _
    (List.mem_map_of_mem (AList.mem_keys.mp mem))

/-- The walk gets through what it has still to do. -/
theorem reaches_walked {todo : List Visit} {seen : List ZPath}
    (walking : s.walk = .walking todo seen) :
    ∃ s' seen', Reaches C s s' ∧ s'.walk = .walking [] seen' := by
  obtain ⟨height, low⟩ := exists_height s.tree
  have each {path : ZPath} {s' : State K D O} {todo : List Visit} {seen : List ZPath}
      (same : s'.tree = s.tree) (walking : s'.walk = .walking (.node path :: todo) seen) :
      ∃ s'' seen', Reaches C s' s'' ∧ s''.walk = .walking todo seen' :=
    reaches_node height walking fun below mem _ =>
      (low below (same ▸ mem)).trans (Nat.le_add_left _ _)
  suffices ∀ s' : State K D O, s'.tree = s.tree → ∀ seen, s'.walk = .walking todo seen →
      ∃ s'' seen', Reaches C s' s'' ∧ s''.walk = .walking [] seen' from
    this s rfl seen walking
  clear walking
  induction todo with
  | nil => exact fun s' _ seen walking => ⟨s', seen, .refl s', walking⟩
  | cons visit todo ih =>
      intro s' same seen walking
      have visited : ∃ s'' seen', Reaches C s' s'' ∧ s''.walk = .walking todo seen' := by
        cases visit with
        | node path => exact each same walking
        | children path =>
            obtain ⟨tree, walking⟩ := walkTree_children walking
            obtain ⟨s'', seen', reaches, walking⟩ := reaches_nodes (C := C)
              (fun _ _ _ _ _ => each) (tree.trans same) walking
            exact ⟨s'', seen', .ofWalk reaches, walking⟩
      obtain ⟨s'', seen', reaches, walking⟩ := visited
      obtain ⟨s₃, seen₃, reaches', walking⟩ := ih s'' (reaches.tree.trans same) seen' walking
      exact ⟨s₃, seen₃, reaches.trans reaches', walking⟩

theorem reaches_unseen {paths : List ZPath} (unseen : s.walk = .unseen paths) :
    ∃ s', Reaches C s s' ∧ s'.walk = .ready := by
  induction paths generalizing s with
  | nil =>
      refine ⟨walkTree s, .ofWalk (.refl _), ?_⟩
      unfold walkTree
      rw [unseen]
  | cons path paths ih =>
      obtain ⟨s', reaches, ready⟩ := ih (s := walkTree s) (by unfold walkTree; rw [unseen])
      exact ⟨s', .ofWalk reaches, ready⟩

theorem reaches_ready (connected : s.walk ≠ .lost) : ∃ s', Reaches C s s' ∧ s'.walk = .ready := by
  have walked {s : State K D O} {todo : List Visit} {seen : List ZPath}
      (walking : s.walk = .walking todo seen) : ∃ s', Reaches C s s' ∧ s'.walk = .ready := by
    obtain ⟨s', seen', reaches, walking⟩ := reaches_walked walking
    have unseen : (walkTree s').walk = .unseen (s'.cachedPaths.filter (· ∉ seen')) := by
      unfold walkTree
      rw [walking]
    obtain ⟨s'', reaches', ready⟩ := reaches_unseen (C := C) unseen
    exact ⟨s'', reaches.trans (.ofWalk reaches'), ready⟩
  cases walk : s.walk with
  | lost => exact absurd walk connected
  | started =>
      have walking : (walkTree s).walk =
          .walking (if [] ∈ s.tree then [.node []] else []) [] := by
        unfold walkTree
        rw [walk]
      obtain ⟨s', reaches, ready⟩ := walked walking
      exact ⟨s', .ofWalk reaches, ready⟩
  | walking todo seen => exact walked walk
  | unseen paths => exact reaches_unseen walk
  | ready => exact ⟨s, .refl s, walk⟩

/-! ### The queues -/

/-- The playback worker gets through an event that has been handled. -/
theorem reaches_played {item : Item ZPath D} {queue : List (Item ZPath D)}
    {fetched : Option (TreeCache.ZNode D)} (first : s.queue = item :: queue)
    (isFetched : item.fetched = some fetched) :
    ∃ s', Reaches C s s' ∧ s'.walk = s.walk ∧ s'.queue = queue := by
  refine ⟨_, .single .play s, ?_⟩
  unfold step
  dsimp only
  rw [first]
  dsimp only
  rw [isFetched]
  exact ⟨rfl, rfl⟩

/-- The workers get through what is queued, one event after the other. -/
theorem reaches_drained (s : State K D O) :
    ∃ s', Reaches C s s' ∧ s'.walk = s.walk ∧ s'.queue = [] := by
  generalize queue : s.queue = events
  induction events generalizing s with
  | nil => exact ⟨s, .refl s, rfl, queue⟩
  | cons item rest ih =>
      have next : ∃ s', Reaches C s s' ∧ s'.walk = s.walk ∧ s'.queue = rest := by
        cases fetched : item.fetched with
        | some answer => exact reaches_played queue fetched
        | none =>
            have handled := Reaches.single (C := C) .handle s
            unfold step at handled
            dsimp only at handled
            rw [queue, handleCacheEvent, fetched] at handled
            dsimp only at handled
            split at handled
            · exact ⟨_, handled, rfl, rfl⟩
            · obtain ⟨s', reaches, walk, drained⟩ := reaches_played (C := C) (s := { s with
                queue := { item with fetched := some (TreeCache.answer C s.tree item) } :: rest })
                rfl rfl
              exact ⟨s', handled.trans reaches, walk, drained⟩
      obtain ⟨s', reaches, walk, rest⟩ := next
      obtain ⟨s'', reaches', walk', drained⟩ := ih s' rest
      exact ⟨s'', reaches.trans reaches', walk'.trans walk, drained⟩

/-- From every state that is reached in which there is a connection, the threads of the cache can
bring it to hold what is stored, if nothing is written and the connection stays. -/
theorem settles {Content : K → O → D → Prop} (lawful : Lawful C Content)
    (rooted : C.parsePath [] = none) {tree : Dict ZPath (TreeCache.ZNode D)} {zxid : ℕ}
    (closed : Closed tree) (bound : ∀ path node, tree.lookup path = some node → node.mzxid ≤ zxid)
    (actions : List (Action D)) (s : State K D O)
    (run : actions.foldl (step C) (initial tree zxid) = s) (connected : s.walk ≠ .lost) :
    ∃ own : List (Action D), (∀ action ∈ own, action.IsOwn) ∧
      (own.foldl (step C) s).walk = .ready ∧ (own.foldl (step C) s).queue = [] ∧
      (own.foldl (step C) s).tree = s.tree ∧ Coherent C Content (own.foldl (step C) s) := by
  obtain ⟨s', reaches, ready⟩ := reaches_ready (C := C) connected
  obtain ⟨s'', reaches', walk, drained⟩ := reaches_drained (C := C) s'
  have inv : Inv C Content s := run ▸ (Inv.initial closed bound).run lawful actions
  have all := reaches.trans reaches'
  have tree := all.tree
  obtain ⟨own, isOwn, rfl⟩ := all
  have ready := walk.trans ready
  exact ⟨own, isOwn, ready, drained, tree, (inv.run lawful own).coherent rooted ready drained⟩

/-- The second connection has begun, and the walk is on its way. -/
def exampleWalking : State String ℕ (String × ℕ) :=
  (exampleActions.take 14).foldl (step (RequestCache ℕ)) (initial exampleTree 0)

theorem settles_example : ∃ own : List (Action ℕ), (∀ action ∈ own, action.IsOwn) ∧
    (own.foldl (step (RequestCache ℕ)) exampleWalking).walk = .ready ∧
    (own.foldl (step (RequestCache ℕ)) exampleWalking).queue = [] ∧
    (own.foldl (step (RequestCache ℕ)) exampleWalking).tree = exampleWalking.tree ∧
    Coherent (RequestCache ℕ) (fun id request data => request = (id, data))
      (own.foldl (step (RequestCache ℕ)) exampleWalking) :=
  settles (requestCache_lawful ℕ) rfl exampleTree_closed exampleTree_bound (exampleActions.take 14)
    exampleWalking rfl (by decide +kernel)

end Nodepool.CacheSession
