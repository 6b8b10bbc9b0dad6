import Nodepool.Zk.CacheSession

/-!
The `NodeCache` of `nodepool/zk/zookeeper.py`, whose nodes have the contenders for their locks:
the znodes below the lock of a node are no objects of the cache, but `preCacheHook` marks the
cached node with them.
-/

namespace Nodepool.CacheSession

open TreeCache (EventType Item CacheClass Lawful answer seen updateObject handlePlayback)

section Marks

variable {K D O : Type} [DecidableEq K] (C : CacheClass ZPath K D O)
  (Content : K → O → D → Prop) (Marked : O → ZPath → Prop) (owner : ZPath → Option ZPath)

/-- A path that is shown as a mark of the object of the path that owns it. -/
structure Owns (path mark : ZPath) (key : K) : Prop where
  owner : owner mark = some path
  parsed : C.parsePath path = some key

/-- How the methods of a cache treat the marks of its objects. -/
structure Marking : Prop where
  above : ∀ {path mark}, owner mark = some path → path <:+ mark ∧ path ≠ mark
  hook : ∀ {path mark key event present object}, Owns C owner path mark key →
    (Marked (C.preCacheHook event present key object) mark ↔
      if event = mark then present = true else Marked object mark)
  fresh : ∀ {path mark key data}, Owns C owner path mark key →
    ¬ Marked (C.objectFromDict data key) mark
  update : ∀ {path mark key data object}, Owns C owner path mark key →
    (Marked (C.updateFromDict data object) mark ↔ Marked object mark)

/-- The playback of the event shows that its path exists. -/
def Shown (item : Item ZPath D) : Prop :=
  item.type = .created ∨ item.type = .changed ∨ item.type = .none ∧ item.fetched ≠ some none

/-- The playback of the event leaves an object at its path. -/
def Kept (item : Item ZPath D) : Prop := item.type ≠ .deleted ∧ item.fetched ≠ some none

/-- Whether there is an object at the path, and whether it has the mark, after an event, if it is
known before. -/
def follow (path mark : ZPath) (known : Prop × Prop) (item : Item ZPath D) : Prop × Prop :=
  if item.path = mark then (known.1, known.1 ∧ Shown item)
  else if item.path = path then (Kept item, known.2 ∧ Kept item)
  else known

/-- The object is cached, and it has the mark. -/
def shows (cached : Dict K (O × ℕ)) (key : K) (mark : ZPath) : Prop × Prop :=
  (∃ object, cached.lookup key = some object,
    ∃ object, cached.lookup key = some object ∧ Marked object.1 mark)

/-- There is data wherever the cache parses the path. -/
def Filled (tree : Dict ZPath (TreeCache.ZNode D)) : Prop :=
  ∀ path node, tree.lookup path = some node → (C.parsePath path).isSome = true →
    node.data.isSome = true

/-- The action stores data where the cache parses the path. -/
def Action.fills : Action D → Bool
  | .create path data => (C.parsePath path).isNone || data.isSome
  | .set path data => (C.parsePath path).isNone || data.isSome
  | _ => true

structure MarkInv (s : State K D O) : Prop extends Inv C Content s where
  filled : Filled C s.tree
  read : ∀ item ∈ s.queue, ∀ node, item.fetched = some (some node) →
    (C.parsePath item.path).isSome = true → node.data.isSome = true
  noted : ∀ {path mark key}, Owns C owner path mark key →
    (shows Marked s.cached key mark).2 → mark ∈ s.cachedPaths
  unmarked : ∀ {path mark key}, Owns C owner path mark key → mark ∉ s.tree →
    (∀ item ∈ s.queue, item.path ≠ mark) → ¬ s.walk.Awaits s.tree mark →
    ¬ (shows Marked s.cached key mark).2
  marked : ∀ {path mark key}, Owns C owner path mark key → mark ∈ s.tree →
    ¬ s.walk.Awaits s.tree mark →
    (s.queue.foldl (follow path mark) (shows Marked s.cached key mark)).2

variable {C} {Content} {Marked} {owner} {s : State K D O}

/-! ### Following the events of a node and a mark -/

omit [DecidableEq K] in
theorem foldl_follow_mono {path mark : ZPath} {known known' : Prop × Prop}
    (le : (known.1 → known'.1) ∧ (known.2 → known'.2)) (queue : List (Item ZPath D)) :
    ((queue.foldl (follow path mark) known).1 → (queue.foldl (follow path mark) known').1) ∧
      ((queue.foldl (follow path mark) known).2 → (queue.foldl (follow path mark) known').2) := by
  induction queue generalizing known known' with
  | nil => exact le
  | cons item queue ih =>
      refine ih ?_
      unfold follow
      split
      · exact ⟨le.1, And.imp_left le.1⟩
      · split
        · exact ⟨id, And.imp_left le.2⟩
        · exact le

omit [DecidableEq K] in
/-- The last event of a path that exists leaves an object there. -/
theorem Last.kept {tree : Dict ZPath (TreeCache.ZNode D)} {item : Item ZPath D}
    (last : Last C tree item) (mem : item.path ∈ tree)
    (parsed : (C.parsePath item.path).isSome = true) : Kept item := by
  refine ⟨fun deleted => last.gone deleted mem, fun isFetched => ?_⟩
  have missing := last.fetched none isFetched (.inr parsed)
  exact AList.lookup_eq_none.mp missing.symm mem

omit [DecidableEq K] in
/-- Once its events have been played there is an object at a path that exists. -/
theorem foldl_follow_fst {tree : Dict ZPath (TreeCache.ZNode D)} {queue : List (Item ZPath D)}
    {path mark : ZPath} {known : Prop × Prop} (settled : Settled C tree queue)
    (mem : path ∈ tree) (notRoot : path ≠ []) (parsed : (C.parsePath path).isSome = true)
    (apart : path ≠ mark) (isKnown : (∀ item ∈ queue, item.path ≠ path) → known.1) :
    (queue.foldl (follow path mark) known).1 := by
  induction queue generalizing known with
  | nil => exact isKnown nofun
  | cons item queue ih =>
      refine ih settled.2 fun none => ?_
      unfold follow
      by_cases here : item.path = path
      · subst here
        rw [if_neg apart, if_pos rfl]
        exact (settled.1 notRoot none).kept mem parsed
      · have isKnown : known.1 := isKnown fun other memOther => by
          rcases List.mem_cons.mp memOther with rfl | memOther
          · exact here
          · exact none other memOther
        split
        · exact isKnown
        · exact isKnown

omit [DecidableEq K] in
theorem Owns.notRoot {path mark : ZPath} {key : K} (owns : Owns C owner path mark key)
    (rooted : C.parsePath [] = none) : path ≠ [] := fun same =>
  nomatch rooted.symm.trans ((congrArg C.parsePath same.symm).trans owns.parsed)

/-- Once what is queued has been played, the node of a mark is cached, if it exists. -/
theorem MarkInv.cached (inv : MarkInv C Content Marked owner s) (marking : Marking C Marked owner)
    (rooted : C.parsePath [] = none) {path mark : ZPath} {key : K}
    (owns : Owns C owner path mark key) (mem : path ∈ s.tree)
    (awaits : ¬ s.walk.Awaits s.tree path) :
    (s.queue.foldl (follow path mark) (shows Marked s.cached key mark)).1 := by
  have notRoot := owns.notRoot rooted
  have isSome : (C.parsePath path).isSome = true := by rw [owns.parsed]; rfl
  have connected : s.walk ≠ .lost := fun lost => awaits (by rw [lost]; trivial)
  refine foldl_follow_fst (inv.settled connected) mem notRoot isSome
    (marking.above owns.owner).2 fun last => ?_
  obtain ⟨⟨data, mzxid⟩, stored⟩ := Option.isSome_iff_exists.mp (AList.lookup_isSome.mpr mem)
  have matched := (inv.agrees path notRoot last awaits).object key owns.parsed
  obtain ⟨data, rfl⟩ := Option.isSome_iff_exists.mp (inv.filled path _ stored isSome)
  unfold Matches at matched
  rw [stored] at matched
  obtain ⟨object, isCached, -⟩ := matched
  exact ⟨_, isCached⟩

omit [DecidableEq K] in
/-- If the walk has still to come to a path that exists, then also to what is below. -/
theorem awaits_below {tree tree' : Dict ZPath (TreeCache.ZNode D)} {path below : ZPath}
    {walk : Walk} (mem : path ∈ tree) (suffix : path <:+ below) (memBelow : below ∈ tree')
    (awaits : walk.Awaits tree path) : walk.Awaits tree' below := by
  cases walk with
  | lost => trivial
  | started => trivial
  | walking todo seen =>
      rcases awaits with ⟨-, visit, memVisit, covers⟩ | unseen
      · exact .inl ⟨memBelow, visit, memVisit, covers.trans suffix⟩
      · exact absurd mem unseen.1
  | unseen paths => exact absurd mem awaits.1
  | ready => exact awaits

/-! ### What the actions keep of the marks -/

/-- What a walk leaves of the marks when it emits the event of a path. -/
theorem MarkInv.foldl_append (inv : MarkInv C Content Marked owner s)
    (marking : Marking C Marked owner) (rooted : C.parsePath [] = none) {path mark event : ZPath}
    {key : K} {type : EventType} (owns : Owns C owner path mark key)
    (present : type ≠ .deleted)
    (marked : event ≠ mark → (s.queue.foldl (follow path mark) (shows Marked s.cached key mark)).2)
    (cached : event = mark → path ∈ s.tree ∧ ¬ s.walk.Awaits s.tree path) :
    ((s.queue ++ [(⟨type, event, none⟩ : Item ZPath D)]).foldl (follow path mark)
      (shows Marked s.cached key mark)).2 := by
  rw [List.foldl_append, List.foldl_cons, List.foldl_nil]
  unfold follow
  dsimp only
  split
  · rename_i here
    obtain ⟨mem, awaits⟩ := cached here
    refine ⟨inv.cached marking rooted owns mem awaits, ?_⟩
    unfold Shown
    cases type with
    | none => exact .inr (.inr ⟨rfl, nofun⟩)
    | created => exact .inl rfl
    | changed => exact .inr (.inl rfl)
    | deleted => exact absurd rfl present
  · rename_i apart
    split
    · exact ⟨marked apart, present, nofun⟩
    · exact marked apart

omit [DecidableEq K] in
theorem Filled.insert {tree : Dict ZPath (TreeCache.ZNode D)} (filled : Filled C tree)
    {path : ZPath} {data : Option D} {mzxid : ℕ}
    (fills : ((C.parsePath path).isNone || data.isSome) = true) :
    Filled C (tree.insert path ⟨data, mzxid⟩) := by
  intro other node stored parsed
  by_cases here : other = path
  · subst here
    rw [AList.lookup_insert] at stored
    cases stored
    refine (Bool.or_eq_true_iff.mp fills).resolve_left fun unparsed => ?_
    rw [Option.isNone_iff_eq_none.mp unparsed] at parsed
    cases parsed
  · rw [AList.lookup_insert_ne here] at stored
    exact filled other node stored parsed

omit [DecidableEq K] in
theorem Filled.erase {tree : Dict ZPath (TreeCache.ZNode D)} (filled : Filled C tree)
    {path : ZPath} : Filled C (tree.erase path) := by
  intro other node stored parsed
  by_cases here : other = path
  · subst here
    rw [AList.lookup_erase] at stored
    cases stored
  · rw [AList.lookup_erase_ne here] at stored
    exact filled other node stored parsed

/-- A write leaves the marks as they should be, if it removes no znode that has others below. -/
theorem MarkInv.write (inv : MarkInv C Content Marked owner s) (marking : Marking C Marked owner)
    (rooted : C.parsePath [] = none) {tree : Dict ZPath (TreeCache.ZNode D)} {event : ZPath}
    {type : EventType} (after : Inv C Content (CacheSession.write s tree type event))
    (filled : Filled C tree)
    (same : ∀ other, other ≠ event → tree.lookup other = s.tree.lookup other)
    (lowest : type = .deleted → event ∉ tree ∧ ∀ below ∈ s.tree, event <:+ below → below = event)
    (parent : ∀ path, path <:+ event → path ≠ event → path ∈ s.tree) :
    MarkInv C Content Marked owner (CacheSession.write s tree type event) := by
  unfold CacheSession.write at after ⊢
  split at after
  · rename_i lost
    exact {
      toInv := after
      filled := filled
      read := inv.read
      noted := inv.noted
      unmarked := fun _ _ _ awaits => absurd (by rw [lost]; trivial) awaits
      marked := fun _ _ awaits => absurd (by rw [lost]; trivial) awaits }
  · refine {
      toInv := after
      filled := filled
      read := fun item mem node isFetched =>
        inv.read item (mem_of_fetched mem (by rw [isFetched]; rfl)) node isFetched
      noted := inv.noted
      unmarked := fun {path mark key} owns gone last awaits => ?_
      marked := fun {path mark key} owns mem awaits => ?_ }
    · have apart : event ≠ mark := last _ (List.mem_append_right _ List.mem_cons_self)
      have lookup := same mark apart.symm
      exact inv.unmarked owns (mt (mem_congr lookup).mpr gone)
        (fun item mem => last item (List.mem_append_left _ mem))
        fun awaited => awaits ((awaits_congr (mem_congr lookup)).mpr awaited)
    · change mark ∈ tree at mem
      change ¬ s.walk.Awaits tree mark at awaits
      obtain ⟨suffix, below⟩ := marking.above owns.owner
      have marked (apart : event ≠ mark) :
          (s.queue.foldl (follow path mark) (shows Marked s.cached key mark)).2 := by
        have lookup := mem_congr (same mark apart.symm)
        exact inv.marked owns (lookup.mp mem) fun awaited =>
          awaits ((awaits_congr lookup).mpr awaited)
      have stays : type ≠ .deleted ∨ event ≠ mark ∧ event ≠ path := by
        by_cases deleted : type = .deleted
        · obtain ⟨gone, lowest⟩ := lowest deleted
          have apart : event ≠ mark := fun here => gone (here ▸ mem)
          refine .inr ⟨apart, fun here => ?_⟩
          have memBefore := (mem_congr (same mark apart.symm)).mp mem
          exact apart (lowest mark memBefore (here ▸ suffix)).symm
        · exact .inl deleted
      rcases stays with present | ⟨apart, apart'⟩
      · refine inv.foldl_append marking rooted owns present marked fun here => ?_
        have memPath := parent path (here ▸ suffix) (here ▸ below)
        exact ⟨memPath, fun awaited => awaits (awaits_below memPath suffix mem awaited)⟩
      · rw [emit, List.foldl_append, List.foldl_cons, List.foldl_nil, follow, if_neg apart,
          if_neg apart']
        exact marked apart

/-- The walk emits the event of a path. -/
theorem MarkInv.emit (inv : MarkInv C Content Marked owner s) (marking : Marking C Marked owner)
    (rooted : C.parsePath [] = none) {event : ZPath} {walk : Walk}
    (after : Inv C Content { CacheSession.emit s .none event with walk := walk })
    (awaits : ∀ other, other ≠ event → s.walk.Awaits s.tree other → walk.Awaits s.tree other)
    (below : ∀ path, path <:+ event → path ≠ event → event ∈ s.tree → s.walk.Awaits s.tree path →
      walk.Awaits s.tree event) :
    MarkInv C Content Marked owner { CacheSession.emit s .none event with walk := walk } where
  toInv := after
  filled := inv.filled
  read item mem node isFetched :=
    inv.read item (mem_of_fetched mem (by rw [isFetched]; rfl)) node isFetched
  noted := inv.noted
  unmarked owns gone last notAwaited := by
    have apart : event ≠ _ := last _ (List.mem_append_right _ List.mem_cons_self)
    exact inv.unmarked owns gone (fun item mem => last item (List.mem_append_left _ mem))
      fun awaited => notAwaited (awaits _ apart.symm awaited)
  marked {path mark key} owns mem notAwaited := by
    obtain ⟨suffix, apart⟩ := marking.above owns.owner
    refine inv.foldl_append marking rooted owns ?_ (fun here => ?_) fun here => ?_
    · exact nofun
    · exact inv.marked owns mem fun awaited => notAwaited (awaits mark (Ne.symm here) awaited)
    · subst here
      exact ⟨mem_of_suffix inv.closed mem suffix, fun awaited =>
        notAwaited (below path suffix apart mem awaited)⟩

/-- The walk goes on without an event. -/
theorem MarkInv.advance (inv : MarkInv C Content Marked owner s) {walk : Walk}
    (after : Inv C Content { s with walk := walk })
    (awaits : ∀ path, s.walk.Awaits s.tree path → walk.Awaits s.tree path ∨
      path ∉ s.tree ∧ path ∉ s.cachedPaths) :
    MarkInv C Content Marked owner { s with walk := walk } where
  toInv := after
  filled := inv.filled
  read := inv.read
  noted := inv.noted
  unmarked {path mark key} owns gone last notAwaited := by
    by_cases awaited : s.walk.Awaits s.tree mark
    · intro marked
      exact ((awaits mark awaited).resolve_left notAwaited).2 (inv.noted owns marked)
    · exact inv.unmarked owns gone last awaited
  marked {path mark key} owns mem notAwaited :=
    inv.marked owns mem fun awaited => ((awaits mark awaited).resolve_left notAwaited).1 mem

theorem MarkInv.walkTree (inv : MarkInv C Content Marked owner s) (lawful : Lawful C Content)
    (marking : Marking C Marked owner) (rooted : C.parsePath [] = none) :
    MarkInv C Content Marked owner (walkTree s) := by
  have after := inv.toInv.walkTree lawful
  rcases walkTree_cases s inv.closed with
    same | ⟨walk, -, same, awaits⟩ | ⟨path, walk, -, same, awaits, below⟩
  · rw [same]
    exact inv
  · rw [same] at after ⊢
    exact inv.advance after awaits
  · rw [same] at after ⊢
    exact inv.emit marking rooted after awaits below

/-! ### The workers -/

omit [DecidableEq K] in
/-- That an event is handled does not show what exists to be gone. -/
theorem foldl_follow_handle {tree : Dict ZPath (TreeCache.ZNode D)} {path mark : ZPath}
    (memPath : path ∈ tree) (memMark : mark ∈ tree) (parsed : (C.parsePath path).isSome = true)
    (queue : List (Item ZPath D)) (known : Prop × Prop) (notRoot : path ≠ [] ∧ mark ≠ []) :
    (handleCacheEvent C tree queue).foldl (follow path mark) known =
      queue.foldl (follow path mark) known := by
  induction queue generalizing known with
  | nil => rfl
  | cons item queue ih =>
      unfold handleCacheEvent
      split
      · rename_i unfetched
        split
        · rename_i root
          rw [List.foldl_cons, follow, if_neg fun same => notRoot.2 (same.symm.trans root),
            if_neg fun same => notRoot.1 (same.symm.trans root)]
        · rw [List.foldl_cons, List.foldl_cons]
          congr 1
          unfold follow
          dsimp only
          split
          · rename_i here
            have shown : Shown { item with fetched := some (answer C tree item) } ↔ Shown item := by
              unfold Shown
              dsimp only
              rw [unfetched]
              refine or_congr_right (or_congr_right (and_congr_right fun walked => ?_))
              refine iff_of_true (fun missing => ?_) nofun
              have missing : answer C tree item = none := Option.some.inj missing
              unfold answer at missing
              rw [if_neg (by rw [walked]; nofun), if_neg fun ignored => ignored.2 walked,
                here] at missing
              exact AList.lookup_eq_none.mp missing memMark
            rw [shown]
          · split
            · rename_i here
              have kept : Kept { item with fetched := some (answer C tree item) } ↔
                  Kept item := by
                unfold Kept
                dsimp only
                rw [unfetched]
                refine and_congr_right fun present => iff_of_true (fun missing => ?_) nofun
                have missing : answer C tree item = none := Option.some.inj missing
                unfold answer at missing
                rw [if_neg present, here, if_neg fun ignored => by
                  rw [ignored.1] at parsed
                  cases parsed] at missing
                exact AList.lookup_eq_none.mp missing memPath
              rw [kept]
            · rfl
      · rw [List.foldl_cons, List.foldl_cons]
        exact ih _

omit [DecidableEq K] in
theorem Owns.mark_notRoot {path mark : ZPath} {key : K} (owns : Owns C owner path mark key)
    (marking : Marking C Marked owner) : mark ≠ [] := by
  obtain ⟨suffix, apart⟩ := marking.above owns.owner
  rintro rfl
  exact apart (List.suffix_nil.mp suffix)

theorem MarkInv.handle (inv : MarkInv C Content Marked owner s) (marking : Marking C Marked owner)
    (rooted : C.parsePath [] = none) :
    MarkInv C Content Marked owner { s with queue := handleCacheEvent C s.tree s.queue } where
  toInv := inv.toInv.handle
  filled := inv.filled
  read item mem node isFetched parsed := by
    rcases mem_handleCacheEvent mem with mem | ⟨before, -, -, -, rfl⟩
    · exact inv.read item mem node isFetched parsed
    · have stored := TreeCache.lookup_of_answer (Option.some.inj isFetched)
      exact inv.filled before.path node stored parsed
  noted := inv.noted
  unmarked owns gone last notAwaited :=
    inv.unmarked owns gone (paths_handleCacheEvent (owns.mark_notRoot marking) last) notAwaited
  marked {path mark key} owns mem notAwaited := by
    change ((handleCacheEvent C s.tree s.queue).foldl (follow path mark)
      (shows Marked s.cached key mark)).2
    rw [foldl_follow_handle (mem_of_suffix inv.closed mem (marking.above owns.owner).1) mem
      (by rw [owns.parsed]; rfl) s.queue _ ⟨owns.notRoot rooted, owns.mark_notRoot marking⟩]
    exact inv.marked owns mem notAwaited

/-- An object that has the mark after an event was shown it by the event, or had it before. -/
theorem shows_handlePlayback (marking : Marking C Marked owner) {cached : Dict K (O × ℕ)}
    {item : Item ZPath D} {fetched : Option (TreeCache.ZNode D)} {path mark : ZPath} {key : K}
    (owns : Owns C owner path mark key)
    (marked : (shows Marked (handlePlayback C cached item fetched) key mark).2) :
    if item.path = mark then seen item.type fetched = true
    else (shows Marked cached key mark).2 := by
  obtain ⟨⟨object, stat⟩, isCached, marked⟩ := marked
  -- what the hook has made of an object that was cached
  have hooked {old : O} {version : ℕ} (was : cached.lookup key = some (old, version))
      (marked : Marked (C.preCacheHook item.path (seen item.type fetched) key old) mark) :
      if item.path = mark then seen item.type fetched = true
      else (shows Marked cached key mark).2 := by
    have marked := (marking.hook owns).mp marked
    split at marked
    · rename_i here
      rw [if_pos here]
      exact marked
    · rename_i apart
      rw [if_neg apart]
      exact ⟨_, was, marked⟩
  by_cases parsed : C.parsePath item.path = some key
  · unfold handlePlayback at isCached
    rw [parsed] at isCached
    dsimp only at isCached
    unfold updateObject at isCached
    split at isCached
    · split at isCached
      · rename_i old version was
        rw [Dict.lookup_mapVals] at was
        obtain ⟨⟨before, version⟩, wasBefore, same⟩ := Option.map_eq_some_iff.mp was
        cases same
        split at isCached
        · rw [Dict.lookup_mapVals, wasBefore] at isCached
          cases isCached
          exact hooked wasBefore marked
        · rw [AList.lookup_insert] at isCached
          cases isCached
          exact hooked wasBefore ((marking.update owns).mp marked)
      · rw [AList.lookup_insert] at isCached
        cases isCached
        exact absurd marked (marking.fresh owns)
    · rw [AList.lookup_erase] at isCached
      cases isCached
  · rw [lookup_handlePlayback_ne _ _ parsed] at isCached
    obtain ⟨⟨before, version⟩, was, same⟩ := Option.map_eq_some_iff.mp isCached
    cases same
    exact hooked was marked

/-- The playback of an event does to an object and its mark what is followed of them. -/
theorem follow_handlePlayback (lawful : Lawful C Content) (marking : Marking C Marked owner)
    {cached : Dict K (O × ℕ)} {item : Item ZPath D} {fetched : Option (TreeCache.ZNode D)}
    (isFetched : item.fetched = some fetched)
    (filled : ∀ node, fetched = some node → (C.parsePath item.path).isSome = true →
      node.data.isSome = true)
    {path mark : ZPath} {key : K} (owns : Owns C owner path mark key) :
    ((follow path mark (shows Marked cached key mark) item).1 →
        (shows Marked (handlePlayback C cached item fetched) key mark).1) ∧
      ((follow path mark (shows Marked cached key mark) item).2 →
        (shows Marked (handlePlayback C cached item fetched) key mark).2) := by
  obtain ⟨-, apart⟩ := marking.above owns.owner
  unfold follow
  by_cases here : item.path = path
  · -- the object itself is updated
    have parsed : C.parsePath item.path = some key := here ▸ owns.parsed
    rw [if_neg fun same => apart (here.symm.trans same), if_pos here]
    have unfolded : handlePlayback C cached item fetched = updateObject C
        (cached.mapVals fun key object =>
          (C.preCacheHook item.path (seen item.type fetched) key object.1, object.2))
        key fetched := by
      unfold handlePlayback
      dsimp only
      rw [parsed]
    have object (kept : Kept item) : ∃ data mzxid, fetched = some ⟨some data, mzxid⟩ := by
      obtain ⟨⟨data, mzxid⟩, rfl⟩ := Option.ne_none_iff_exists'.mp fun missing =>
        kept.2 (isFetched.trans (congrArg some missing))
      obtain ⟨data, rfl⟩ := Option.isSome_iff_exists.mp (filled _ rfl (by rw [parsed]; rfl))
      exact ⟨data, mzxid, rfl⟩
    rw [unfolded]
    constructor
    · intro kept
      obtain ⟨data, mzxid, rfl⟩ := object kept
      unfold updateObject
      dsimp only
      split
      · rename_i old stat was
        split
        · exact ⟨_, was⟩
        · exact ⟨_, AList.lookup_insert _⟩
      · exact ⟨_, AList.lookup_insert _⟩
    · rintro ⟨⟨⟨old, stat⟩, was, marked⟩, kept⟩
      obtain ⟨data, mzxid, rfl⟩ := object kept
      have hooked : Marked (C.preCacheHook item.path (seen item.type (some ⟨some data, mzxid⟩))
          key old) mark := by
        refine (marking.hook owns).mpr ?_
        rw [if_neg fun same => apart (here.symm.trans same)]
        exact marked
      unfold updateObject
      dsimp only
      rw [Dict.lookup_mapVals, was]
      dsimp only [Option.map_some]
      split
      · exact ⟨_, by rw [Dict.lookup_mapVals, was]; rfl, hooked⟩
      · exact ⟨_, AList.lookup_insert _, (marking.update owns).mpr hooked⟩
  · have other : C.parsePath item.path ≠ some key := fun same =>
      here (lawful.injective same owns.parsed)
    have lookup := lookup_handlePlayback_ne cached fetched other
    constructor
    · intro known
      have known : (shows Marked cached key mark).1 := by
        split at known
        · exact known
        · exact known
      obtain ⟨object, was⟩ := known
      exact ⟨_, by rw [lookup, was]; rfl⟩
    · intro known
      split at known
      · rename_i isMark
        obtain ⟨⟨object, was⟩, shown⟩ := known
        refine ⟨_, by rw [lookup, was]; rfl, (marking.hook owns).mpr ?_⟩
        rw [if_pos isMark]
        rcases shown with created | changed | ⟨walked, present⟩
        · rw [created]
          rfl
        · rw [changed]
          rfl
        · rw [walked]
          refine Option.isSome_iff_ne_none.mpr fun missing => present ?_
          rw [isFetched, missing]
      · rename_i notMark
        obtain ⟨⟨object, stat⟩, was, marked⟩ := known
        refine ⟨_, by rw [lookup, was]; rfl, (marking.hook owns).mpr ?_⟩
        rw [if_neg notMark]
        exact marked

theorem MarkInv.playback (inv : MarkInv C Content Marked owner s) (lawful : Lawful C Content)
    (marking : Marking C Marked owner) {item : Item ZPath D} {queue : List (Item ZPath D)}
    {fetched : Option (TreeCache.ZNode D)} (first : s.queue = item :: queue)
    (isFetched : item.fetched = some fetched) :
    MarkInv C Content Marked owner
      (CacheSession.playback C { s with queue := queue } item fetched) := by
  have filled (node : TreeCache.ZNode D) (same : fetched = some node) :=
    inv.read item (first ▸ List.mem_cons_self) node (isFetched.trans (congrArg some same))
  refine {
    toInv := inv.toInv.playback lawful first isFetched
    filled := inv.filled
    read := fun other mem => inv.read other (first ▸ List.mem_cons_of_mem item mem)
    noted := fun {path mark key} owns marked => ?_
    unmarked := fun {path mark key} owns gone last awaits marked => ?_
    marked := fun {path mark key} owns mem awaits => ?_ }
  · have before := shows_handlePlayback marking owns marked
    split at before
    · rename_i here
      exact here ▸ mem_playback.mpr before
    · rename_i apart
      exact (mem_playback_ne (Ne.symm apart)).mpr (inv.noted owns before)
  · have before := shows_handlePlayback marking owns marked
    split at before
    · rename_i here
      subst here
      have notRoot := owns.mark_notRoot marking
      have connected : s.walk ≠ .lost := fun lost => awaits (by
        change s.walk.Awaits s.tree item.path
        rw [lost]
        trivial)
      have settled := inv.settled connected
      rw [first] at settled
      have last := settled.1 notRoot last
      have present := (inv.toInv.agrees_playback lawful last isFetched).present
      exact gone (present.mp (mem_playback.mpr before))
    · rename_i apart
      refine inv.unmarked owns gone (fun other mem => ?_) awaits before
      rw [first] at mem
      rcases List.mem_cons.mp mem with rfl | mem
      · exact apart
      · exact last other mem
  · have marked := inv.marked owns mem awaits
    rw [first, List.foldl_cons] at marked
    exact (foldl_follow_mono (follow_handlePlayback lawful marking isFetched filled owns) queue).2
      marked

theorem MarkInv.step (inv : MarkInv C Content Marked owner s) (lawful : Lawful C Content)
    (marking : Marking C Marked owner) (rooted : C.parsePath [] = none) {action : Action D}
    (fills : action.fills C = true) : MarkInv C Content Marked owner (step C s action) := by
  have after := inv.toInv.step lawful action
  unfold CacheSession.step at after ⊢
  cases action with
  | create path data =>
      dsimp only at after ⊢
      split
      · exact inv
      · rename_i allowed
        rw [if_neg allowed] at after
        rw [not_or, not_and_not_right] at allowed
        refine inv.write marking rooted after (inv.filled.insert fills)
          (fun other apart => AList.lookup_insert_ne apart) nofun fun above suffix apart => ?_
        have notRoot : path ≠ [] := fun root => apart (root ▸ List.suffix_nil.mp (root ▸ suffix))
        refine mem_of_suffix inv.closed (allowed.2 notRoot) ?_
        cases path with
        | nil => exact absurd rfl notRoot
        | cons name parent => exact (List.suffix_cons_iff.mp suffix).resolve_left apart
  | set path data =>
      dsimp only at after ⊢
      split
      · rename_i mem
        rw [if_pos mem] at after
        exact inv.write marking rooted after (inv.filled.insert fills)
          (fun other apart => AList.lookup_insert_ne apart) nofun
          fun above suffix _ => mem_of_suffix inv.closed mem suffix
      · exact inv
  | delete path =>
      dsimp only at after ⊢
      split
      · rename_i allowed
        rw [if_pos allowed] at after
        refine inv.write marking rooted after inv.filled.erase
          (fun other apart => AList.lookup_erase_ne apart)
          (fun _ => ⟨AList.lookup_eq_none.mp (AList.lookup_erase path s.tree), ?_⟩)
          fun above suffix _ => mem_of_suffix inv.closed allowed.1 suffix
        intro below mem suffix
        by_contra apart
        obtain ⟨child, notRoot, parent, suffix⟩ := covers_children suffix apart
        have child := mem_children.mpr ⟨mem_of_suffix inv.closed mem suffix, notRoot, parent⟩
        rw [allowed.2] at child
        cases child
      · exact inv
  | lose =>
      exact {
        toInv := after
        filled := inv.filled
        read := inv.read
        noted := inv.noted
        unmarked := fun _ _ _ awaits => absurd trivial awaits
        marked := fun _ _ awaits => absurd trivial awaits }
  | start =>
      exact {
        toInv := after
        filled := inv.filled
        read := fun _ mem => nomatch mem
        noted := inv.noted
        unmarked := fun _ _ _ awaits => absurd trivial awaits
        marked := fun _ _ awaits => absurd trivial awaits }
  | walk => exact inv.walkTree lawful marking rooted
  | handle => exact inv.handle marking rooted
  | play =>
      dsimp only
      split
      · exact inv
      · rename_i item queue first
        split
        · exact inv
        · rename_i fetched isFetched
          exact inv.playback lawful marking first isFetched
  | fail =>
      dsimp only at after ⊢
      split at after
      · rename_i lost
        exact {
          toInv := after
          filled := inv.filled
          read := fun item mem => inv.read item (List.mem_of_mem_tail mem)
          noted := inv.noted
          unmarked := fun _ _ _ awaits => absurd (by rw [lost]; trivial) awaits
          marked := fun _ _ awaits => absurd (by rw [lost]; trivial) awaits }
      · exact inv

theorem MarkInv.initial {tree : Dict ZPath (TreeCache.ZNode D)} {zxid : ℕ} (closed : Closed tree)
    (bound : ∀ path node, tree.lookup path = some node → node.mzxid ≤ zxid)
    (filled : Filled C tree) : MarkInv C Content Marked owner (initial tree zxid) where
  toInv := Inv.initial closed bound
  filled := filled
  read _ mem := nomatch mem
  noted := by
    rintro path mark key - ⟨object, isCached, -⟩
    cases (AList.lookup_empty key).symm.trans isCached
  unmarked _ _ _ awaits := absurd trivial awaits
  marked _ _ awaits := absurd trivial awaits

theorem MarkInv.run (inv : MarkInv C Content Marked owner s) (lawful : Lawful C Content)
    (marking : Marking C Marked owner) (rooted : C.parsePath [] = none) {actions : List (Action D)}
    (fills : ∀ action ∈ actions, action.fills C = true) :
    MarkInv C Content Marked owner (actions.foldl (CacheSession.step C) s) := by
  induction actions generalizing s with
  | nil => exact inv
  | cons action actions ih =>
      exact ih (inv.step lawful marking rooted (fills action List.mem_cons_self))
        fun other mem => fills other (List.mem_cons_of_mem action mem)

end Marks

/-! ### The cache of the nodes -/

/-- A cached node: each attribute is read anew when it is updated. -/
structure CachedNode (D : Type) where
  id : String
  data : D
  lockContenders : List String
deriving DecidableEq

/-- `_parseNodePath` -/
def parseNodePath : ZPath → Option String := parseRecordPath

/-- `_parseNodeLockPath` -/
def parseNodeLockPath : ZPath → Option (String × String)
  | [contender, lock, node] => if lock = "lock" then some (node, contender) else none
  | _ => none

def CachedNode.contend {D : Type} (node : CachedNode D) (present : Bool) (contender : String) :
    CachedNode D :=
  { node with
    lockContenders := if present then node.lockContenders.insert contender
      else node.lockContenders.filter (· ≠ contender) }

def NodeCache (D : Type) : CacheClass ZPath String D (CachedNode D) where
  parsePath := parseNodePath
  preCacheHook path present key node :=
    match parseNodeLockPath path with
    | some (id, contender) => if id = key then node.contend present contender else node
    | none => node
  objectFromDict d id := ⟨id, d, []⟩
  updateFromDict d node := { node with data := d }

/-- The path of the node whose lock the path contends for. -/
def lockedNode (path : ZPath) : Option ZPath := (parseNodeLockPath path).map fun key => [key.1]

/-- The node shows the contender at the path. -/
def HasContender {D : Type} (node : CachedNode D) (path : ZPath) : Prop :=
  ∃ contender ∈ node.lockContenders, path.head? = some contender

variable {D : Type}

theorem parseNodePath_eq_some {path : ZPath} {id : String} :
    parseNodePath path = some id ↔ path = [id] ∧ id ≠ "lock" := parseRecordPath_eq_some

theorem parseNodeLockPath_eq_some {path : ZPath} {id contender : String} :
    parseNodeLockPath path = some (id, contender) ↔ path = [contender, "lock", id] := by
  unfold parseNodeLockPath
  split
  · rename_i name lock node
    rw [Option.ite_none_right_eq_some, Option.some_inj, Prod.mk.injEq, List.cons.injEq,
      List.cons.injEq, List.cons.injEq]
    constructor
    · rintro ⟨rfl, rfl, rfl⟩
      exact ⟨rfl, rfl, rfl, rfl⟩
    · rintro ⟨rfl, rfl, rfl, -⟩
      exact ⟨rfl, rfl, rfl⟩
  · rename_i other
    exact iff_of_false nofun fun h => other contender "lock" id h

theorem lockedNode_eq_some {path node : ZPath} :
    lockedNode path = some node ↔ ∃ contender id, path = [contender, "lock", id] ∧ node = [id] := by
  unfold lockedNode
  rw [Option.map_eq_some_iff]
  constructor
  · rintro ⟨⟨id, contender⟩, parsed, rfl⟩
    exact ⟨contender, id, parseNodeLockPath_eq_some.mp parsed, rfl⟩
  · rintro ⟨contender, id, rfl, rfl⟩
    exact ⟨(id, contender), parseNodeLockPath_eq_some.mpr rfl, rfl⟩

/-- A cached node has the identifier of its path and the data that was stored. -/
def NodeContent (id : String) (node : CachedNode D) (data : D) : Prop :=
  node.id = id ∧ node.data = data

theorem nodeCache_hook (path : ZPath) (present : Bool) (key : String) (node : CachedNode D) :
    ∃ contenders, (NodeCache D).preCacheHook path present key node =
      { node with lockContenders := contenders } := by
  change ∃ contenders, (match parseNodeLockPath path with
    | some (id, contender) => if id = key then node.contend present contender else node
    | none => node) = _
  split
  · split
    · exact ⟨_, rfl⟩
    · exact ⟨_, rfl⟩
  · exact ⟨_, rfl⟩

theorem nodeCache_lawful : Lawful (NodeCache D) NodeContent where
  injective parsed parsed' :=
    (parseNodePath_eq_some.mp parsed).1.trans (parseNodePath_eq_some.mp parsed').1.symm
  hook {path present key node data} content := by
    obtain ⟨contenders, same⟩ := nodeCache_hook path present key node
    rw [same]
    exact content
  fresh _ := ⟨rfl, rfl⟩
  update content := ⟨content.1, rfl⟩

theorem nodeCache_marking : Marking (NodeCache D) HasContender lockedNode where
  above {path mark} owned := by
    obtain ⟨contender, id, rfl, rfl⟩ := lockedNode_eq_some.mp owned
    exact ⟨⟨[contender, "lock"], rfl⟩, nofun⟩
  hook {path mark key event present node} owns := by
    obtain ⟨contender, id, rfl, rfl⟩ := lockedNode_eq_some.mp owns.owner
    have parsed : parseNodePath [id] = some key := owns.parsed
    obtain rfl : id = key := List.head_eq_of_cons_eq (parseNodePath_eq_some.mp parsed).1
    change HasContender (match parseNodeLockPath event with
      | some (other, contender) => if other = id then node.contend present contender else node
      | none => node) _ ↔ _
    have shows (contenders : List String) : HasContender { node with lockContenders := contenders }
        [contender, "lock", id] ↔ contender ∈ contenders := by
      constructor
      · rintro ⟨other, mem, head⟩
        cases head
        exact mem
      · exact fun mem => ⟨contender, mem, rfl⟩
    split
    · rename_i other name parsed
      obtain rfl := parseNodeLockPath_eq_some.mp parsed
      by_cases here : other = id
      · subst here
        rw [if_pos rfl]
        unfold CachedNode.contend
        rw [shows]
        by_cases same : name = contender
        · subst same
          rw [if_pos rfl]
          cases present with
          | true => exact iff_of_true List.mem_insert_self rfl
          | false =>
              refine iff_of_false (fun mem => ?_) nofun
              exact (decide_eq_true_iff.mp (List.mem_filter.mp mem).2) rfl
        · rw [if_neg fun equal => same (List.head_eq_of_cons_eq equal), shows node.lockContenders]
          cases present with
          | true =>
              exact List.mem_insert_iff.trans (or_iff_right fun equal => same equal.symm)
          | false =>
              refine List.mem_filter.trans (and_iff_left ?_)
              exact decide_eq_true fun equal => same equal.symm
      · rw [if_neg here, if_neg]
        rintro equal
        cases equal
        exact here rfl
    · rename_i unparsed
      rw [if_neg]
      rintro rfl
      rw [parseNodeLockPath_eq_some.mpr rfl] at unparsed
      cases unparsed
  fresh := by
    rintro path mark key data - ⟨contender, mem, -⟩
    cases mem
  update _ := Iff.rfl

/-! ### What is cached in the end -/

/-- What a cache of nodes holds that has seen everything. -/
structure Current (s : State String D (CachedNode D)) : Prop where
  paths : ∀ path, path ∈ s.cachedPaths ↔ path ∈ s.tree ∧ path ≠ []
  nodes : ∀ id, id ∈ s.cached ↔ [id] ∈ s.tree ∧ id ≠ "lock"
  node : ∀ id node stat, s.cached.lookup id = some (node, stat) → node.id = id ∧
    s.tree.lookup [id] = some ⟨some node.data, stat⟩ ∧
    ∀ contender, contender ∈ node.lockContenders ↔ [contender, "lock", id] ∈ s.tree

/-- Whatever is written, and however often the connection is lost, once the cache is ready and
nothing is queued it holds each node with the data that is stored and with the contenders for its
lock that exist. -/
theorem nodeCache_current {tree : Dict ZPath (TreeCache.ZNode D)} {zxid : ℕ} (closed : Closed tree)
    (bound : ∀ path node, tree.lookup path = some node → node.mzxid ≤ zxid)
    (filled : Filled (NodeCache D) tree) {actions : List (Action D)}
    (fills : ∀ action ∈ actions, action.fills (NodeCache D) = true)
    {s : State String D (CachedNode D)}
    (run : actions.foldl (step (NodeCache D)) (initial tree zxid) = s) (ready : s.walk = .ready)
    (drained : s.queue = []) : Current s := by
  have inv : MarkInv (NodeCache D) NodeContent HasContender lockedNode s :=
    run ▸ (MarkInv.initial closed bound filled).run nodeCache_lawful nodeCache_marking rfl fills
  have coherent := inv.coherent rfl ready drained
  have notAwaited (path : ZPath) : ¬ s.walk.Awaits s.tree path := by
    rw [ready]
    exact id
  have stored {id : String} {node : CachedNode D} {stat : ℕ}
      (isCached : s.cached.lookup id = some (node, stat)) : id ≠ "lock" ∧ node.id = id ∧
      s.tree.lookup [id] = some ⟨some node.data, stat⟩ := by
    obtain ⟨path, data, parsed, stored, same, rfl⟩ := coherent.stored id node stat isCached
    obtain ⟨rfl, notLock⟩ := parseNodePath_eq_some.mp parsed
    exact ⟨notLock, same, stored⟩
  refine {
    paths := coherent.paths
    nodes := fun id => ?_
    node := fun id node stat isCached => ?_ }
  · constructor
    · intro mem
      obtain ⟨⟨node, stat⟩, isCached⟩ := Option.isSome_iff_exists.mp (AList.lookup_isSome.mpr mem)
      obtain ⟨notLock, -, stored⟩ := stored isCached
      exact ⟨AList.lookup_isSome.mp (by rw [stored]; rfl), notLock⟩
    · rintro ⟨mem, notLock⟩
      have parsed : (NodeCache D).parsePath [id] = some id :=
        parseNodePath_eq_some.mpr ⟨rfl, notLock⟩
      obtain ⟨⟨data, mzxid⟩, stored⟩ := Option.isSome_iff_exists.mp (AList.lookup_isSome.mpr mem)
      obtain ⟨data, rfl⟩ := Option.isSome_iff_exists.mp
        (inv.filled [id] _ stored (by rw [parsed]; rfl))
      have matched := coherent.objects [id] id parsed
      unfold Matches at matched
      rw [stored] at matched
      obtain ⟨object, isCached, -⟩ := matched
      exact AList.lookup_isSome.mp (by rw [isCached]; rfl)
  · obtain ⟨notLock, same, stored⟩ := stored isCached
    refine ⟨same, stored, fun contender => ?_⟩
    have owns : Owns (NodeCache D) lockedNode [id] [contender, "lock", id] id := {
      owner := lockedNode_eq_some.mpr ⟨contender, id, rfl, rfl⟩
      parsed := parseNodePath_eq_some.mpr ⟨rfl, notLock⟩ }
    constructor
    · intro mem
      by_contra gone
      refine inv.unmarked owns gone ?_ (notAwaited _) ⟨(node, stat), isCached, contender, mem, rfl⟩
      rw [drained]
      nofun
    · intro mem
      have marked := inv.marked owns mem (notAwaited _)
      rw [drained] at marked
      obtain ⟨object, isCached', other, mem, head⟩ := marked
      cases isCached.symm.trans isCached'
      cases head
      exact mem

/-- A node is stored and locked, the lock passes on while there is no connection, and a second node
is stored during the walk. -/
def exampleLock : List (Action ℕ) :=
  [.start, .walk, .walk, .walk, .create ["1"] (some 7), .create ["lock", "1"] none,
    .create ["a", "lock", "1"] none, .handle, .handle, .play, .lose, .handle, .fail,
    .delete ["a", "lock", "1"], .create ["b", "lock", "1"] none, .start, .walk, .walk,
    .create ["2"] (some 8), .walk, .walk, .walk, .walk, .walk, .walk, .walk, .walk, .walk, .walk,
    .walk, .walk, .walk] ++ List.replicate 12 .handle ++ List.replicate 12 .play

theorem nodeCache_current_example :
    Current (exampleLock.foldl (step (NodeCache ℕ)) (initial exampleTree 0)) := by
  refine nodeCache_current exampleTree_closed exampleTree_bound (fun path node stored parsed => ?_)
    (by decide) rfl (by decide +kernel) (by decide +kernel)
  rw [lookup_exampleTree] at stored
  split at stored
  · rename_i root
    subst root
    cases parsed
  · cases stored

end Nodepool.CacheSession
