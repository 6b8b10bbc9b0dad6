import Mathlib.Tactic
import Nodepool.Base.Always
import Nodepool.Base.Dict

/-!
`NodepoolTreeCache` of `nodepool/zk/zookeeper.py`: the events of the znodes below its root, the
event worker, which fetches what is stored, and the playback worker, which brings the cached
objects up to date. What the two workers have not dealt with yet is one queue.

No cached object is locked in this process, and the texts of the log are left out.
-/

namespace Nodepool.TreeCache

inductive EventType where
  /-- of a walk through the tree -/
  | none
  | created
  | changed
  | deleted
deriving DecidableEq

/-- What is stored at a path; there is no data if it is empty. -/
structure ZNode (D : Type) where
  data : Option D
  mzxid : ℕ

/-- The methods for subclasses. -/
structure CacheClass (P K D O : Type) where
  parsePath : P → Option K
  /-- what becomes of the objects before the cache is updated -/
  preCacheHook : P → Bool → K → O → O
  objectFromDict : D → K → O
  updateFromDict : D → O → O

/-- An event on its way to the cache. -/
structure Item (P D : Type) where
  type : EventType
  path : P
  /-- the result of the `get`, if there was one, once the event worker has handled the event -/
  fetched : Option (Option (ZNode D))

structure State (P K D O : Type) where
  tree : Dict P (ZNode D)
  zxid : ℕ
  queue : List (Item P D)
  /-- the objects with the `mzxid` of their `stat` -/
  cached : Dict K (O × ℕ)

inductive Action (P D : Type) where
  | create (path : P) (data : Option D)
  | set (path : P) (data : Option D)
  | delete (path : P)
  /-- a walk through the tree comes to the path -/
  | walk (path : P)
  /-- the event worker handles the next event, and the server answers -/
  | handle
  /-- the playback worker takes the next event -/
  | play

section Step

variable {P K D O : Type} [DecidableEq P] [DecidableEq K] (C : CacheClass P K D O)

/-- What is known of a path when its event has been handled; a path that is not cached is fetched
only to see whether it exists. -/
def answer (tree : Dict P (ZNode D)) (item : Item P D) : Option (ZNode D) :=
  if item.type = .deleted then none
  else if C.parsePath item.path = none ∧ item.type ≠ .none then none
  else tree.lookup item.path

/-- `_handleCacheEvent` -/
def handleCacheEvent (tree : Dict P (ZNode D)) : List (Item P D) → List (Item P D)
  | [] => []
  | item :: queue =>
      match item.fetched with
      | none => { item with fetched := some (answer C tree item) } :: queue
      | some _ => item :: handleCacheEvent tree queue

/-- Whether the path exists, as the playback worker sees it. -/
def seen (type : EventType) (fetched : Option (ZNode D)) : Bool :=
  match type with
  | .none => fetched.isSome
  | .created => true
  | .changed => true
  | .deleted => false

/-- The update of the object with the key. -/
def updateObject (cached : Dict K (O × ℕ)) (key : K) (fetched : Option (ZNode D)) :
    Dict K (O × ℕ) :=
  match fetched with
  | some ⟨some data, mzxid⟩ =>
      match cached.lookup key with
      | some (old, stat) =>
          -- not to older data
          if mzxid ≤ stat then cached
          else cached.insert key (C.updateFromDict data old, mzxid)
      | none => cached.insert key (C.objectFromDict data key, mzxid)
  | _ => cached.erase key

/-- `_handlePlayback` -/
def handlePlayback (cached : Dict K (O × ℕ)) (item : Item P D) (fetched : Option (ZNode D)) :
    Dict K (O × ℕ) :=
  let cached := cached.mapVals fun key object =>
    (C.preCacheHook item.path (seen item.type fetched) key object.1, object.2)
  match C.parsePath item.path with
  | none => cached
  | some key => updateObject C cached key fetched

/-- A change of the tree, with its event. -/
def write (s : State P K D O) (tree : Dict P (ZNode D)) (type : EventType) (path : P) :
    State P K D O :=
  { s with tree := tree, zxid := s.zxid + 1, queue := s.queue ++ [⟨type, path, none⟩] }

def step (s : State P K D O) : Action P D → State P K D O
  | .create path data =>
      if path ∈ s.tree then s
      else write s (s.tree.insert path ⟨data, s.zxid + 1⟩) .created path
  | .set path data =>
      if path ∈ s.tree then write s (s.tree.insert path ⟨data, s.zxid + 1⟩) .changed path else s
  | .delete path => if path ∈ s.tree then write s (s.tree.erase path) .deleted path else s
  | .walk path => { s with queue := s.queue ++ [⟨.none, path, none⟩] }
  | .handle => { s with queue := handleCacheEvent C s.tree s.queue }
  | .play =>
      match s.queue with
      | [] => s
      | item :: queue =>
          match item.fetched with
          | none => s
          | some fetched =>
              { s with queue := queue, cached := handlePlayback C s.cached item fetched }

/-! ### What is kept -/

/-- What an object has to have in common with the data, and how the methods keep it. -/
structure Lawful (Content : K → O → D → Prop) : Prop where
  injective : ∀ {p q key}, C.parsePath p = some key → C.parsePath q = some key → p = q
  hook : ∀ {path present key object data}, Content key object data →
    Content key (C.preCacheHook path present key object) data
  fresh : ∀ {path key data}, C.parsePath path = some key →
    Content key (C.objectFromDict data key) data
  update : ∀ {key object old data}, Content key object old →
    Content key (C.updateFromDict data object) data

/-- What is known of the last event of a path. -/
structure Final (tree : Dict P (ZNode D)) (item : Item P D) : Prop where
  gone : item.type = .deleted → tree.lookup item.path = none
  fetched : ∀ fetched, item.fetched = some fetched → (C.parsePath item.path).isSome = true →
    fetched = tree.lookup item.path

/-- The last event of each path shows what is stored there. -/
def Settled (tree : Dict P (ZNode D)) : List (Item P D) → Prop
  | [] => True
  | item :: queue =>
      ((∀ later ∈ queue, later.path ≠ item.path) → Final C tree item) ∧ Settled tree queue

variable (Content : K → O → D → Prop)

/-- The cached object is that of the data that is stored. -/
def Matches (s : State P K D O) (path : P) (key : K) : Prop :=
  match s.tree.lookup path with
  | some ⟨some data, mzxid⟩ => ∃ object, s.cached.lookup key = some (object, mzxid) ∧
      Content key object data
  | _ => s.cached.lookup key = none

structure Inv (s : State P K D O) : Prop where
  settled : Settled C s.tree s.queue
  matched : ∀ path key, C.parsePath path = some key → (∀ item ∈ s.queue, item.path ≠ path) →
    Matches Content s path key
  /-- the version of an object is not later than that of its znode, and has its data if it is
  the same -/
  version : ∀ path key node object stat, C.parsePath path = some key →
    s.tree.lookup path = some node → s.cached.lookup key = some (object, stat) →
    stat ≤ node.mzxid ∧
      (stat = node.mzxid → ∃ data, node.data = some data ∧ Content key object data)
  fetched : ∀ item ∈ s.queue, ∀ read, item.fetched = some (some read) →
    read.mzxid ≤ s.zxid ∧ ∀ node, s.tree.lookup item.path = some node →
      read.mzxid ≤ node.mzxid ∧ (read.mzxid = node.mzxid → read = node)
  bound : ∀ path node, s.tree.lookup path = some node → node.mzxid ≤ s.zxid
  known : ∀ key object stat, s.cached.lookup key = some (object, stat) → stat ≤ s.zxid ∧
    (∃ path, C.parsePath path = some key) ∧ ∃ data, Content key object data

variable {C} {Content} {s : State P K D O}

/-! ### The writes -/

omit [DecidableEq K] in
theorem settled_append {tree tree' : Dict P (ZNode D)} {queue : List (Item P D)} {path : P}
    {type : EventType} (same : ∀ other, other ≠ path → tree'.lookup other = tree.lookup other)
    (gone : type = .deleted → tree'.lookup path = none) (settled : Settled C tree queue) :
    Settled C tree' (queue ++ [⟨type, path, none⟩]) := by
  induction queue with
  | nil => exact ⟨fun _ => ⟨gone, nofun⟩, trivial⟩
  | cons item queue ih =>
      refine ⟨fun last => ?_, ih settled.2⟩
      have apart : path ≠ item.path := last _ (List.mem_append_right _ List.mem_cons_self)
      have final := settled.1 fun later mem => last later (List.mem_append_left _ mem)
      have lookup := same item.path apart.symm
      exact {
        gone := fun deleted => lookup.trans (final.gone deleted)
        fetched := fun fetched read isSome =>
          (final.fetched fetched read isSome).trans lookup.symm }

/-- What is kept by a write that stores a new version at one path, or removes it. -/
theorem Inv.write (inv : Inv C Content s) {tree : Dict P (ZNode D)} {path : P} {type : EventType}
    (same : ∀ other, other ≠ path → tree.lookup other = s.tree.lookup other)
    (new : ∀ node, tree.lookup path = some node → node.mzxid = s.zxid + 1)
    (gone : type = .deleted → tree.lookup path = none) :
    Inv C Content (write s tree type path) where
  settled := settled_append same gone inv.settled
  matched other key parsed last := by
    have apart : path ≠ other := last _ (List.mem_append_right _ List.mem_cons_self)
    have before := inv.matched other key parsed fun item mem =>
      last item (List.mem_append_left _ mem)
    unfold Matches at before ⊢
    change match tree.lookup other with
      | some ⟨some data, mzxid⟩ => _
      | _ => _
    rw [same other apart.symm]
    exact before
  version other key node object stat parsed stored isCached := by
    change tree.lookup other = some node at stored
    by_cases here : other = path
    · subst here
      have older := (inv.known key object stat isCached).1
      have newer := new node stored
      exact ⟨by omega, fun equal => by omega⟩
    · rw [same other here] at stored
      exact inv.version other key node object stat parsed stored isCached
  fetched item mem read isRead := by
    rcases List.mem_append.mp mem with mem | mem
    · obtain ⟨older, versions⟩ := inv.fetched item mem read isRead
      refine ⟨Nat.le_succ_of_le older, fun node stored => ?_⟩
      change tree.lookup item.path = some node at stored
      by_cases here : item.path = path
      · have newer := new node (here ▸ stored)
        exact ⟨by omega, fun equal => by omega⟩
      · rw [same item.path here] at stored
        exact versions node stored
    · rw [List.mem_singleton.mp mem] at isRead
      cases isRead
  bound other node stored := by
    change tree.lookup other = some node at stored
    by_cases here : other = path
    · exact (new node (here ▸ stored)).le
    · rw [same other here] at stored
      exact Nat.le_succ_of_le (inv.bound other node stored)
  known key object stat isCached :=
    (inv.known key object stat isCached).imp_left Nat.le_succ_of_le

theorem Inv.insert (inv : Inv C Content s) (path : P) (data : Option D) {type : EventType}
    (present : type ≠ .deleted) :
    Inv C Content (TreeCache.write s (s.tree.insert path ⟨data, s.zxid + 1⟩) type path) := by
  refine inv.write (fun other apart => AList.lookup_insert_ne apart) (fun node stored => ?_)
    (fun deleted => absurd deleted present)
  rw [AList.lookup_insert] at stored
  cases stored
  rfl

theorem Inv.erase (inv : Inv C Content s) (path : P) :
    Inv C Content (TreeCache.write s (s.tree.erase path) .deleted path) := by
  have gone : (s.tree.erase path).lookup path = none := AList.lookup_erase path s.tree
  refine inv.write (fun other apart => AList.lookup_erase_ne apart) (fun node stored => ?_)
    fun _ => gone
  rw [gone] at stored
  cases stored

theorem Inv.walk (inv : Inv C Content s) (path : P) :
    Inv C Content { s with queue := s.queue ++ [⟨.none, path, none⟩] } where
  settled := settled_append (fun _ _ => rfl) nofun inv.settled
  matched other key parsed last := inv.matched other key parsed fun item mem =>
    last item (List.mem_append_left _ mem)
  version := inv.version
  fetched item mem read isRead := by
    rcases List.mem_append.mp mem with mem | mem
    · exact inv.fetched item mem read isRead
    · rw [List.mem_singleton.mp mem] at isRead
      cases isRead
  bound := inv.bound
  known := inv.known

/-! ### The event worker -/

omit [DecidableEq K] in
/-- An event of the queue is one that was there, or the answer to it. -/
theorem mem_handleCacheEvent {tree : Dict P (ZNode D)} {queue : List (Item P D)} {item : Item P D}
    (mem : item ∈ handleCacheEvent C tree queue) :
    item ∈ queue ∨
      ∃ before ∈ queue, item = { before with fetched := some (answer C tree before) } := by
  induction queue with
  | nil => cases mem
  | cons first queue ih =>
      unfold handleCacheEvent at mem
      split at mem
      · rcases List.mem_cons.mp mem with same | mem
        · exact .inr ⟨first, List.mem_cons_self, same⟩
        · exact .inl (List.mem_cons_of_mem _ mem)
      · rcases List.mem_cons.mp mem with same | mem
        · exact .inl (same ▸ List.mem_cons_self)
        · rcases ih mem with before | ⟨before, memBefore, same⟩
          · exact .inl (List.mem_cons_of_mem _ before)
          · exact .inr ⟨before, List.mem_cons_of_mem _ memBefore, same⟩

omit [DecidableEq K] in
theorem map_path_handleCacheEvent (tree : Dict P (ZNode D)) (queue : List (Item P D)) :
    (handleCacheEvent C tree queue).map (·.path) = queue.map (·.path) := by
  induction queue with
  | nil => rfl
  | cons first queue ih =>
      unfold handleCacheEvent
      split
      · rfl
      · rw [List.map_cons, ih, List.map_cons]

omit [DecidableEq K] in
theorem paths_handleCacheEvent {tree : Dict P (ZNode D)} {queue : List (Item P D)} {path : P}
    (last : ∀ later ∈ handleCacheEvent C tree queue, later.path ≠ path) :
    ∀ later ∈ queue, later.path ≠ path := by
  intro later mem same
  have mapped : later.path ∈ (handleCacheEvent C tree queue).map (·.path) := by
    rw [map_path_handleCacheEvent]
    exact List.mem_map_of_mem mem
  obtain ⟨other, memOther, sameOther⟩ := List.mem_map.mp mapped
  exact last other memOther (sameOther.trans same)

omit [DecidableEq K] in
theorem final_answer {tree : Dict P (ZNode D)} {item : Item P D} (final : Final C tree item) :
    Final C tree { item with fetched := some (answer C tree item) } where
  gone := final.gone
  fetched fetched read isSome := by
    cases read
    unfold answer
    split
    · rename_i deleted
      exact (final.gone deleted).symm
    · split
      · rename_i unparsed
        have isSome : (C.parsePath item.path).isSome = true := isSome
        rw [unparsed.1] at isSome
        cases isSome
      · rfl

omit [DecidableEq K] in
theorem settled_handleCacheEvent {tree : Dict P (ZNode D)} {queue : List (Item P D)}
    (settled : Settled C tree queue) : Settled C tree (handleCacheEvent C tree queue) := by
  induction queue with
  | nil => trivial
  | cons item queue ih =>
      unfold handleCacheEvent
      split
      · exact ⟨fun last => final_answer (settled.1 last), settled.2⟩
      · exact ⟨fun last => settled.1 (paths_handleCacheEvent last), ih settled.2⟩

omit [DecidableEq K] in
theorem lookup_of_answer {tree : Dict P (ZNode D)} {item : Item P D} {node : ZNode D}
    (read : answer C tree item = some node) : tree.lookup item.path = some node := by
  unfold answer at read
  split at read
  · cases read
  · split at read
    · cases read
    · exact read

theorem Inv.handle (inv : Inv C Content s) :
    Inv C Content { s with queue := handleCacheEvent C s.tree s.queue } where
  settled := settled_handleCacheEvent inv.settled
  matched path key parsed last := inv.matched path key parsed (paths_handleCacheEvent last)
  version := inv.version
  fetched item mem read isRead := by
    rcases mem_handleCacheEvent mem with mem | ⟨before, mem, rfl⟩
    · exact inv.fetched item mem read isRead
    · have stored := lookup_of_answer (Option.some.inj isRead)
      refine ⟨inv.bound before.path read stored, fun node stored' => ?_⟩
      have same : read = node := Option.some.inj (stored.symm.trans stored')
      rw [same]
      exact ⟨le_rfl, fun _ => rfl⟩
  bound := inv.bound
  known := inv.known

/-! ### The playback worker -/

/-- The hook changes no more of the objects than their contents allow. -/
theorem Inv.hook (lawful : Lawful C Content) (inv : Inv C Content s) (path : P) (present : Bool) :
    Inv C Content { s with cached := s.cached.mapVals fun key object =>
      (C.preCacheHook path present key object.1, object.2) } := by
  have before {key : K} {object : O} {stat : ℕ}
      (isCached : (s.cached.mapVals fun key object =>
        (C.preCacheHook path present key object.1, object.2)).lookup key = some (object, stat)) :
      ∃ old, s.cached.lookup key = some (old, stat) ∧
        object = C.preCacheHook path present key old := by
    rw [Dict.lookup_mapVals] at isCached
    obtain ⟨⟨old, _⟩, was, same⟩ := Option.map_eq_some_iff.mp isCached
    cases same
    exact ⟨old, was, rfl⟩
  refine { inv with matched := ?_, version := ?_, known := ?_ }
  · intro other key parsed last
    have matched := inv.matched other key parsed last
    unfold Matches at matched ⊢
    dsimp only
    rw [Dict.lookup_mapVals]
    split at matched
    · rename_i data mzxid stored
      obtain ⟨object, isCached, content⟩ := matched
      rw [isCached]
      exact ⟨_, rfl, lawful.hook content⟩
    · rw [matched]
      rfl
  · intro other key node object stat parsed stored isCached
    obtain ⟨old, was, rfl⟩ := before isCached
    obtain ⟨le, versions⟩ := inv.version other key node old stat parsed stored was
    refine ⟨le, fun same => ?_⟩
    obtain ⟨data, hasData, content⟩ := versions same
    exact ⟨data, hasData, lawful.hook content⟩
  · intro key object stat isCached
    obtain ⟨old, was, rfl⟩ := before isCached
    obtain ⟨le, parsed, data, content⟩ := inv.known key old stat was
    exact ⟨le, parsed, data, lawful.hook content⟩

omit [DecidableEq P] in
theorem lookup_updateObject_ne {cached : Dict K (O × ℕ)} {key other : K} (apart : other ≠ key)
    (fetched : Option (ZNode D)) :
    (updateObject C cached key fetched).lookup other = cached.lookup other := by
  unfold updateObject
  split
  · split
    · split
      · rfl
      · exact AList.lookup_insert_ne apart
    · exact AList.lookup_insert_ne apart
  · exact AList.lookup_erase_ne apart

omit [DecidableEq P] in
/-- The object after its update: it is new, or as it was because it is not older, or gone. -/
theorem lookup_updateObject (lawful : Lawful C Content) {cached : Dict K (O × ℕ)} {path : P}
    {key : K} (parsed : C.parsePath path = some key)
    (known : ∀ object stat, cached.lookup key = some (object, stat) →
      ∃ data, Content key object data) (fetched : Option (ZNode D)) :
    (∃ data mzxid object, fetched = some ⟨some data, mzxid⟩ ∧ Content key object data ∧
        (updateObject C cached key fetched).lookup key = some (object, mzxid)) ∨
      (∃ data mzxid object stat, fetched = some ⟨some data, mzxid⟩ ∧ mzxid ≤ stat ∧
        cached.lookup key = some (object, stat) ∧
        (updateObject C cached key fetched).lookup key = some (object, stat)) ∨
      (∀ data mzxid, fetched ≠ some ⟨some data, mzxid⟩) ∧
        (updateObject C cached key fetched).lookup key = none := by
  unfold updateObject
  split
  · rename_i data mzxid
    split
    · rename_i old stat isCached
      split
      · rename_i older
        exact .inr (.inl ⟨data, mzxid, old, stat, rfl, older, isCached, isCached⟩)
      · obtain ⟨oldData, content⟩ := known old stat isCached
        exact .inl ⟨data, mzxid, _, rfl, lawful.update content, AList.lookup_insert _⟩
    · exact .inl ⟨data, mzxid, _, rfl, lawful.fresh parsed, AList.lookup_insert _⟩
  · rename_i noData
    exact .inr (.inr ⟨noData, AList.lookup_erase key cached⟩)

/-- The next event is of a path that is not cached. -/
theorem Inv.pass (inv : Inv C Content s) {item : Item P D} {queue : List (Item P D)}
    (first : s.queue = item :: queue) (unparsed : C.parsePath item.path = none) :
    Inv C Content { s with queue := queue } where
  settled := by
    have settled := inv.settled
    rw [first] at settled
    exact settled.2
  matched path key parsed last := inv.matched path key parsed fun other mem => by
    rw [first] at mem
    rcases List.mem_cons.mp mem with rfl | mem
    · rintro rfl
      exact nomatch unparsed.symm.trans parsed
    · exact last other mem
  version := inv.version
  fetched other mem := inv.fetched other (first ▸ List.mem_cons_of_mem item mem)
  bound := inv.bound
  known := inv.known

/-- The next event updates an object. -/
theorem Inv.updateObject (lawful : Lawful C Content) (inv : Inv C Content s) {item : Item P D}
    {queue : List (Item P D)} {key : K} {fetched : Option (ZNode D)}
    (first : s.queue = item :: queue) (parsed : C.parsePath item.path = some key)
    (isFetched : item.fetched = some fetched) :
    Inv C Content { s with
      queue := queue
      cached := TreeCache.updateObject C s.cached key fetched } := by
  have settled := inv.settled
  rw [first] at settled
  have after := lookup_updateObject lawful parsed (fun object stat isCached =>
    (inv.known key object stat isCached).2.2) fetched
  have read {node : ZNode D} (same : fetched = some node) := inv.fetched item
    (first ▸ List.mem_cons_self) node (isFetched.trans (congrArg some same))
  refine {
    settled := settled.2
    matched := ?_
    version := ?_
    fetched := fun other mem => inv.fetched other (first ▸ List.mem_cons_of_mem item mem)
    bound := inv.bound
    known := ?_ }
  · intro path other parsed' last
    by_cases here : path = item.path
    · subst here
      obtain rfl : key = other := Option.some.inj (parsed.symm.trans parsed')
      have stored : fetched = s.tree.lookup item.path :=
        (settled.1 last).fetched fetched isFetched (by rw [parsed]; rfl)
      unfold Matches
      dsimp only
      rw [← stored]
      rcases after with ⟨data, mzxid, object, same, content, isCached⟩ |
        ⟨data, mzxid, object, stat, same, le, was, isCached⟩ | ⟨noData, isCached⟩
      · rw [same] at isCached ⊢
        exact ⟨object, isCached, content⟩
      · obtain ⟨ge, versions⟩ := inv.version item.path key _ object stat parsed
          (stored.symm.trans same) was
        have equal : stat = mzxid := Nat.le_antisymm ge le
        obtain ⟨data', hasData, content⟩ := versions equal
        cases hasData
        rw [same, equal] at isCached
        rw [same]
        exact ⟨object, isCached, content⟩
      · cases fetched with
        | none => exact isCached
        | some node =>
            obtain ⟨data, mzxid⟩ := node
            cases data with
            | none => exact isCached
            | some data => exact absurd rfl (noData data mzxid)
    · have apart : other ≠ key := fun same => here (lawful.injective parsed' (same ▸ parsed))
      have before := inv.matched path other parsed' fun later mem => by
        rw [first] at mem
        rcases List.mem_cons.mp mem with rfl | mem
        · exact fun same => here same.symm
        · exact last later mem
      unfold Matches at before ⊢
      dsimp only
      rw [lookup_updateObject_ne apart]
      exact before
  · intro path other node object stat parsed' stored isCached
    by_cases same : other = key
    · subst same
      obtain rfl : item.path = path := lawful.injective parsed parsed'
      rcases after with ⟨data, mzxid, object', same, content, isCached'⟩ |
        ⟨data, mzxid, object', stat', same, le, was, isCached'⟩ | ⟨noData, isCached'⟩
      · cases isCached.symm.trans isCached'
        obtain ⟨le, versions⟩ := (read same).2 node stored
        exact ⟨le, fun equal => ⟨data, by rw [← versions equal], content⟩⟩
      · cases isCached.symm.trans isCached'
        exact inv.version item.path other node object stat parsed stored was
      · exact nomatch isCached.symm.trans isCached'
    · have isCached : (TreeCache.updateObject C s.cached key fetched).lookup other =
          some (object, stat) := isCached
      rw [lookup_updateObject_ne same] at isCached
      exact inv.version path other node object stat parsed' stored isCached
  · intro other object stat isCached
    by_cases same : other = key
    · subst same
      rcases after with ⟨data, mzxid, object', same, content, isCached'⟩ |
        ⟨data, mzxid, object', stat', same, le, was, isCached'⟩ | ⟨noData, isCached'⟩
      · cases isCached.symm.trans isCached'
        exact ⟨(read same).1, ⟨item.path, parsed⟩, data, content⟩
      · cases isCached.symm.trans isCached'
        exact inv.known other object stat was
      · exact nomatch isCached.symm.trans isCached'
    · have isCached : (TreeCache.updateObject C s.cached key fetched).lookup other =
          some (object, stat) := isCached
      rw [lookup_updateObject_ne same] at isCached
      exact inv.known other object stat isCached

theorem Inv.step (lawful : Lawful C Content) (inv : Inv C Content s) (action : Action P D) :
    Inv C Content (step C s action) := by
  unfold TreeCache.step
  cases action with
  | create path data =>
      dsimp only
      split
      · exact inv
      · exact inv.insert path data nofun
  | set path data =>
      dsimp only
      split
      · exact inv.insert path data nofun
      · exact inv
  | delete path =>
      dsimp only
      split
      · exact inv.erase path
      · exact inv
  | walk path => exact inv.walk path
  | handle => exact inv.handle
  | play =>
      dsimp only
      split
      · exact inv
      · rename_i item queue first
        split
        · exact inv
        · rename_i fetched isFetched
          have hooked := inv.hook lawful item.path (seen item.type fetched)
          unfold handlePlayback
          dsimp only
          split
          · rename_i unparsed
            exact hooked.pass first unparsed
          · rename_i key parsed
            exact hooked.updateObject lawful first parsed isFetched

/-- A cache that is started on a tree: the first walk comes to every path. -/
def start (tree : Dict P (ZNode D)) (zxid : ℕ) : State P K D O where
  tree := tree
  zxid := zxid
  queue := tree.keys.map fun path => ⟨.none, path, none⟩
  cached := ∅

omit [DecidableEq K] in
theorem settled_walk (tree : Dict P (ZNode D)) (paths : List P) :
    Settled C tree (paths.map fun path => ⟨.none, path, none⟩) := by
  induction paths with
  | nil => trivial
  | cons path paths ih => exact ⟨fun _ => ⟨nofun, nofun⟩, ih⟩

theorem Inv.start {tree : Dict P (ZNode D)} {zxid : ℕ}
    (bound : ∀ path node, tree.lookup path = some node → node.mzxid ≤ zxid) :
    Inv C Content (start tree zxid) where
  settled := settled_walk tree tree.keys
  matched path key _ last := by
    have gone : tree.lookup path = none := by
      refine AList.lookup_eq_none.mpr fun mem => ?_
      exact last ⟨.none, path, none⟩ (List.mem_map_of_mem (AList.mem_keys.mp mem)) rfl
    unfold Matches TreeCache.start
    dsimp only
    rw [gone]
    exact AList.lookup_empty key
  version _ _ _ _ _ _ _ isCached := nomatch (AList.lookup_empty _).symm.trans isCached
  fetched item mem read isRead := by
    obtain ⟨path, -, rfl⟩ := List.mem_map.mp mem
    cases isRead
  bound := bound
  known _ _ _ isCached := nomatch (AList.lookup_empty _).symm.trans isCached

/-! ### When the queues are drained -/

omit [DecidableEq K] in
/-- What is selected of the values, by the keys. -/
theorem filterMap_entries {R V : Type} [DecidableEq K] (d : Dict K V) (f : V → Option R) :
    d.entries.filterMap (fun entry => f entry.2) =
      d.keys.filterMap fun key => (d.lookup key).bind f := by
  unfold AList.keys List.keys
  rw [List.filterMap_map]
  refine List.filterMap_congr fun entry mem => ?_
  have : d.lookup entry.1 = some entry.2 := AList.mem_lookup_iff.mpr mem
  rw [Function.comp_apply, this]
  rfl

/-- The list of the cached objects of a kind, and the list of what is read for some paths, are the
same up to their order, if there is a path for each of the objects and each object agrees with
what is read for its path. -/
theorem Inv.perm_of_drained {R : Type} (lawful : Lawful C Content) (inv : Inv C Content s)
    (drained : s.queue = []) (select : O → Option R) (read : P → Option R) {paths : List P}
    (distinct : paths.Nodup)
    (agrees : ∀ path ∈ paths, match s.tree.lookup path with
      | some ⟨some data, _⟩ => ∃ key, C.parsePath path = some key ∧
          ∀ object stat, s.cached.lookup key = some (object, stat) → Content key object data →
            select object = read path
      | _ => read path = none)
    (covers : ∀ path key object data mzxid, C.parsePath path = some key →
      s.tree.lookup path = some ⟨some data, mzxid⟩ → Content key object data →
      (select object).isSome = true → path ∈ paths) :
    (s.cached.entries.filterMap fun entry => select entry.2.1).Perm (paths.filterMap read) := by
  have matched {path : P} {key : K} (parsed : C.parsePath path = some key) :=
    inv.matched path key parsed (by rw [drained]; exact fun _ mem => absurd mem List.not_mem_nil)
  let value : K → Option R := fun key => (s.cached.lookup key).bind fun entry => select entry.1
  have found {path : P} (mem : path ∈ paths) : (C.parsePath path).bind value = read path := by
    have agree := agrees path mem
    split at agree
    · rename_i data mzxid stored
      obtain ⟨key, parsed, same⟩ := agree
      have match' := matched parsed
      unfold Matches at match'
      rw [stored] at match'
      obtain ⟨object, isCached, content⟩ := match'
      rw [parsed, ← same object mzxid isCached content]
      change (s.cached.lookup key).bind _ = _
      rw [isCached]
      rfl
    · rename_i noData
      rw [agree]
      cases parsed : C.parsePath path with
      | none => rfl
      | some key =>
          have match' := matched parsed
          unfold Matches at match'
          split at match'
          · rename_i data mzxid stored
            exact absurd stored (noData data mzxid)
          · change (s.cached.lookup key).bind _ = none
            rw [match']
            rfl
  have entries : (s.cached.entries.filterMap fun entry => select entry.2.1) =
      s.cached.keys.filterMap value := filterMap_entries s.cached fun entry => select entry.1
  have reads : paths.filterMap read = (paths.filterMap C.parsePath).filterMap value := by
    rw [List.filterMap_filterMap]
    exact List.filterMap_congr fun path mem => (found mem).symm
  have filtered (keys : List K) :
      keys.filterMap value = (keys.filter fun key => (value key).isSome).filterMap value := by
    rw [List.filterMap_filter]
    refine List.filterMap_congr fun key _ => ?_
    cases value key <;> rfl
  rw [entries, reads, filtered s.cached.keys, filtered (paths.filterMap C.parsePath)]
  refine List.Perm.filterMap value ((List.perm_ext_iff_of_nodup ?_ ?_).mpr fun key => ?_)
  · exact s.cached.nodupKeys.filter _
  · refine List.Nodup.filter _ (distinct.filterMap fun path other key mem memOther => ?_)
    exact lawful.injective mem memOther
  · rw [List.mem_filter, List.mem_filter]
    refine and_congr_left fun isSome => ?_
    constructor
    · intro mem
      obtain ⟨⟨object, stat⟩, isCached⟩ := Option.isSome_iff_exists.mp
        (AList.lookup_isSome.mpr (AList.mem_keys.mpr mem))
      obtain ⟨-, ⟨path, parsed⟩, -⟩ := inv.known key object stat isCached
      have match' := matched parsed
      unfold Matches at match'
      split at match'
      · rename_i data mzxid stored
        obtain ⟨object', isCached', content⟩ := match'
        have selected : (select object').isSome = true := by
          have isSome : ((s.cached.lookup key).bind fun entry => select entry.1).isSome = true :=
            isSome
          rw [isCached'] at isSome
          exact isSome
        exact List.mem_filterMap.mpr
          ⟨path, covers path key object' data mzxid parsed stored content selected, parsed⟩
      · exact nomatch isCached.symm.trans match'
    · intro mem
      have isSome : ((s.cached.lookup key).bind fun entry => select entry.1).isSome = true := isSome
      obtain ⟨_, selected⟩ := Option.isSome_iff_exists.mp isSome
      obtain ⟨entry, isCached, -⟩ := Option.bind_eq_some_iff.mp selected
      exact AList.mem_keys.mp (AList.lookup_isSome.mp (by rw [isCached]; rfl))

/-- What is reached from the start of a cache on a tree of some kind, when the tree is written in
some ways. -/
inductive Reachable (C : CacheClass P K D O) (Tree : Dict P (ZNode D) → Prop)
    (Own : Dict P (ZNode D) → Action P D → Prop) : State P K D O → Prop where
  | start {tree : Dict P (ZNode D)} {zxid : ℕ} :
      (∀ path node, tree.lookup path = some node → node.mzxid ≤ zxid) → Tree tree →
      Reachable C Tree Own (start tree zxid)
  | step {s : State P K D O} (action : Action P D) :
      Reachable C Tree Own s → Own s.tree action → Reachable C Tree Own (step C s action)

theorem Reachable.run {Tree : Dict P (ZNode D) → Prop} {Own : Dict P (ZNode D) → Action P D → Prop}
    {actions : List (Action P D)} (reachable : Reachable C Tree Own s)
    (own : Always (TreeCache.step C) (fun s action => Own s.tree action) s actions) :
    Reachable C Tree Own (actions.foldl (TreeCache.step C) s) := by
  induction actions generalizing s with
  | nil => exact reachable
  | cons action actions ih => exact ih (reachable.step action own.1) own.2

theorem Reachable.inv (lawful : Lawful C Content) {Tree : Dict P (ZNode D) → Prop}
    {Own : Dict P (ZNode D) → Action P D → Prop} (reachable : Reachable C Tree Own s) :
    Inv C Content s := by
  induction reachable with
  | start bound _ => exact Inv.start bound
  | step action _ _ ih => exact ih.step lawful action

/-- What is kept by the ways of writing holds of every tree that is reached. -/
theorem Reachable.tree {Tree : Dict P (ZNode D) → Prop}
    {Own : Dict P (ZNode D) → Action P D → Prop} (reachable : Reachable C Tree Own s)
    (insert : ∀ tree path data mzxid, Tree tree →
      (path ∉ tree ∧ Own tree (.create path data) ∨ path ∈ tree ∧ Own tree (.set path data)) →
      Tree (tree.insert path ⟨data, mzxid⟩))
    (erase : ∀ tree path, Tree tree → Own tree (.delete path) → Tree (tree.erase path)) :
    Tree s.tree := by
  induction reachable with
  | start _ tree => exact tree
  | @step s action _ own ih =>
      cases action with
      | create path data =>
          unfold TreeCache.step
          dsimp only
          split
          · exact ih
          · rename_i new
            exact insert s.tree path data _ ih (.inl ⟨new, own⟩)
      | set path data =>
          unfold TreeCache.step
          dsimp only
          split
          · rename_i mem
            exact insert s.tree path data _ ih (.inr ⟨mem, own⟩)
          · exact ih
      | delete path =>
          unfold TreeCache.step
          dsimp only
          split
          · exact erase s.tree path ih own
          · exact ih
      | walk path => exact ih
      | handle => exact ih
      | play =>
          unfold TreeCache.step
          dsimp only
          split
          · exact ih
          · split <;> exact ih

end Step

end Nodepool.TreeCache
