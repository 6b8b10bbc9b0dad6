import Mathlib.Data.List.ReduceOption
import Nodepool.Zk.CachedLists

/-!
What the caches hold once every event has been played back, and when the lists that are read
through them agree with the lists that are read from ZooKeeper.
-/

namespace Nodepool.CachedLists

open Nodepool.TreeCache

section Lists

variable {T : Type}

/-! ### The trees and the caches that are reached -/

theorem OwnImages.insert {tree : ImageTree T} (own : OwnImages tree) {path : ImagePath}
    {data : Option (ImageDoc T)} (mzxid : ℕ) (parents : ∀ parent ∈ path.parent, parent ∈ tree)
    (name : ∀ image buildId, path = .build image buildId → buildId ≠ "lock")
    (storable : Storable path data) : OwnImages (tree.insert path ⟨data, mzxid⟩) where
  closed other mem parent isParent := by
    rw [AList.mem_insert] at mem ⊢
    rcases mem with rfl | mem
    · exact .inr (parents parent isParent)
    · exact .inr (own.closed other mem parent isParent)
  names image buildId mem := by
    rcases (AList.mem_insert _).mp mem with same | mem
    · exact name image buildId same.symm
    · exact own.names image buildId mem
  storable other node stored := by
    by_cases same : other = path
    · subst same
      rw [AList.lookup_insert] at stored
      cases stored
      exact storable
    · rw [AList.lookup_insert_ne same] at stored
      exact own.storable other node stored

theorem OwnImages.erase {tree : ImageTree T} (own : OwnImages tree) {path : ImagePath}
    (leaf : ∀ child ∈ tree, path ∉ child.parent) : OwnImages (tree.erase path) where
  closed other mem parent isParent := by
    rw [AList.mem_erase] at mem ⊢
    refine ⟨?_, own.closed other mem.2 parent isParent⟩
    rintro rfl
    exact leaf other mem.2 isParent
  names image buildId mem := own.names image buildId (AList.mem_erase.mp mem).2
  storable other node stored := by
    by_cases same : other = path
    · subst same
      rw [AList.lookup_erase] at stored
      cases stored
    · rw [AList.lookup_erase_ne same] at stored
      exact own.storable other node stored

theorem Zk.Reachable.ownImages {zk : Zk T} (reachable : zk.Reachable) :
    OwnImages zk.images.tree := by
  refine reachable.images.tree (fun tree path data mzxid own write => ?_) fun tree path own leaf =>
    own.erase leaf
  rcases write with ⟨-, parents, name, storable⟩ | ⟨mem, storable⟩
  · exact own.insert mzxid parents name storable
  · refine own.insert mzxid (own.closed path mem) ?_ storable
    rintro image buildId rfl
    exact own.names image buildId mem

theorem Zk.Reachable.ownNodes {zk : Zk T} (reachable : zk.Reachable) : OwnNodes zk.nodes.tree := by
  refine reachable.nodes.tree (fun tree path data mzxid own write => ?_)
    fun tree path own _ mem => ?_
  · intro mem
    rcases (AList.mem_insert _).mp mem with same | mem
    · rcases write with ⟨-, differs⟩ | ⟨there, -⟩
      · exact differs same.symm
      · exact own (same ▸ there)
    · exact own mem
  · exact own (AList.mem_erase.mp mem).2

theorem Zk.Reachable.ownRequests {zk : Zk T} (reachable : zk.Reachable) :
    OwnRequests zk.requests.tree := by
  refine reachable.requests.tree (fun tree path data mzxid own write => ?_)
    fun tree path own _ => ?_
  · constructor
    · intro mem
      rcases (AList.mem_insert _).mp mem with same | mem
      · rcases write with ⟨-, differs, -⟩ | ⟨there, -⟩
        · exact differs same.symm
        · exact own.names (same ▸ there)
      · exact own.names mem
    · intro other node stored
      by_cases same : other = path
      · subst same
        rw [AList.lookup_insert] at stored
        cases stored
        rcases write with ⟨-, -, full⟩ | ⟨-, full⟩
        · exact full
        · exact full
      · rw [AList.lookup_insert_ne same] at stored
        exact own.full other node stored
  · constructor
    · exact fun mem => own.names (AList.mem_erase.mp mem).2
    · intro other node stored
      by_cases same : other = path
      · subst same
        rw [AList.lookup_erase] at stored
        cases stored
      · rw [AList.lookup_erase_ne same] at stored
        exact own.full other node stored

/-- What a cached image, build or upload has in common with the data. -/
def Content : ImageKey → ImageObject T → ImageDoc T → Prop
  | .image i, .image o, _ => o.imageName = i
  | .build i b, .build o, d => ∃ fmts, o = { ImageBuild.fromDict d i b with formats := fmts } ∧
      (d.formats ≠ [] → fmts = d.formats)
  | .upload i b p n, .upload o, d => o = ImageUpload.fromDict d b p i n
  | _, _, _ => False

theorem content_image {key : ImageKey} {o : Image} {d : ImageDoc T}
    (content : Content key (.image o) d) : ∃ i, key = .image i := by
  cases key with
  | image i => exact ⟨i, rfl⟩
  | build i b => cases content
  | upload i b p n => cases content

theorem content_build {key : ImageKey} {o : ImageBuild T} {d : ImageDoc T}
    (content : Content key (.build o) d) : ∃ i b fmts, key = .build i b ∧
      o = { ImageBuild.fromDict d i b with formats := fmts } ∧
      (d.formats ≠ [] → fmts = d.formats) := by
  cases key with
  | image i => cases content
  | build i b =>
      obtain ⟨fmts, same, kept⟩ := content
      exact ⟨i, b, fmts, rfl, same, kept⟩
  | upload i b p n => cases content

theorem content_upload {key : ImageKey} {o : ImageUpload T} {d : ImageDoc T}
    (content : Content key (.upload o) d) :
    ∃ i b p n, key = .upload i b p n ∧ o = ImageUpload.fromDict d b p i n := by
  cases key with
  | image i => cases content
  | build i b => cases content
  | upload i b p n => exact ⟨i, b, p, n, rfl, content⟩

/-- The path of the object with the key. -/
def ImageKey.path : ImageKey → ImagePath
  | .image i => .image i
  | .build i b => .build i b
  | .upload i b p n => .upload i b p n

theorem path_of_parsePath {path : ImagePath} {key : ImageKey}
    (parsed : (ImageCache (T := T)).parsePath path = some key) : path = key.path := by
  cases path with
  | image i =>
      obtain ⟨-, same⟩ := Option.ite_none_left_eq_some.mp parsed
      cases same
      rfl
  | build i b =>
      obtain ⟨-, same⟩ := Option.ite_none_left_eq_some.mp parsed
      cases same
      rfl
  | upload i b p n =>
      obtain ⟨-, same⟩ := Option.ite_none_left_eq_some.mp parsed
      cases same
      rfl
  | pause i => cases parsed
  | requestBuild i => cases parsed
  | builds i => cases parsed
  | providers i b => cases parsed
  | provider i b p => cases parsed
  | images i b p => cases parsed

theorem imageCache_lawful : Lawful (ImageCache (T := T)) Content where
  injective parsed parsed' := (path_of_parsePath parsed).trans (path_of_parsePath parsed').symm
  hook {path present key object data} content := by
    cases object with
    | build o => cases path <;> exact content
    | upload o => cases path <;> exact content
    | image o =>
        cases path with
        | pause i =>
            change Content key (if key = .image i then _ else _) data
            split
            · cases key <;> exact content
            · exact content
        | image i => exact content
        | requestBuild i => exact content
        | builds i => exact content
        | build i b => exact content
        | providers i b => exact content
        | provider i b p => exact content
        | images i b p => exact content
        | upload i b p n => exact content
  fresh {path key data} _ := by
    cases key with
    | image i => rfl
    | build i b => exact ⟨_, rfl, fun any => if_neg any⟩
    | upload i b p n => rfl
  update {key object old data} content := by
    cases object with
    | image o =>
        obtain ⟨i, rfl⟩ := content_image content
        exact content
    | build o =>
        obtain ⟨i, b, fmts, rfl, rfl, -⟩ := content_build content
        exact ⟨if data.formats = [] then fmts else data.formats, rfl, fun any => if_neg any⟩
    | upload o =>
        obtain ⟨i, b, p, n, rfl, rfl⟩ := content_upload content
        rfl

theorem recordCache_lawful (D : Type) :
    Lawful (RecordCache D) fun key object data => object = (key, data) where
  injective parsed parsed' := by
    obtain ⟨-, same⟩ := (Option.ite_none_left_eq_some).mp parsed
    obtain ⟨-, same'⟩ := (Option.ite_none_left_eq_some).mp parsed'
    cases same
    cases same'
    rfl
  hook content := content
  fresh _ := rfl
  update content := by
    rw [content]
    rfl

/-! ### Nodes and requests -/

section Records

variable {D : Type} {s : State String String D (String × D)}

theorem cached_id (inv : Inv (RecordCache D) (fun key object data => object = (key, data)) s)
    {entry : Sigma fun _ : String => (String × D) × ℕ} (mem : entry ∈ s.cached.entries) :
    s.cached.lookup entry.2.1.1 = some entry.2 := by
  have isCached : s.cached.lookup entry.1 = some entry.2 := AList.mem_lookup_iff.mpr mem
  obtain ⟨-, -, data, content⟩ := inv.known entry.1 entry.2.1 entry.2.2 isCached
  rw [content]
  exact isCached

/-- The cached records are those that are read from the tree. -/
theorem perm_records (inv : Inv (RecordCache D) (fun key object data => object = (key, data)) s)
    (drained : s.queue = []) (names : "lock" ∉ s.tree) :
    (s.cached.entries.map (·.2.1)).Perm (s.tree.keys.filterMap fun id =>
      ((s.tree.lookup id).bind (·.data)).map (id, ·)) := by
  have perm := inv.perm_of_drained (recordCache_lawful D) drained some
    (fun id => ((s.tree.lookup id).bind (·.data)).map (id, ·)) s.tree.nodupKeys
    (fun path mem => ?_) fun path _ _ data mzxid _ stored _ _ => ?_
  · rwa [List.filterMap_eq_map'] at perm
  · split
    · rename_i data mzxid stored
      have differs : path ≠ "lock" := by
        rintro rfl
        exact names (AList.mem_keys.mpr mem)
      refine ⟨path, if_neg differs, fun object stat _ content => ?_⟩
      rw [content, stored]
      rfl
    · rename_i noData
      cases stored : s.tree.lookup path with
      | none => rfl
      | some node =>
          obtain ⟨data, mzxid⟩ := node
          cases data with
          | none => rfl
          | some data => exact absurd stored (noData data mzxid)
  · exact AList.mem_keys.mp (AList.lookup_isSome.mp (by rw [stored]; rfl))

end Records

variable {zk : Zk T}

theorem perm_nodeIterator (reachable : zk.Reachable) (drained : zk.Drained) :
    (nodeIterator zk true).Perm (nodeIterator zk false) := by
  have inv := reachable.nodes.inv (recordCache_lawful (NodeDoc T))
  have cached : nodeIterator zk true = zk.nodes.cached.entries.map (·.2.1) := by
    unfold nodeIterator
    rw [if_pos rfl, List.filterMap_map, ← List.filterMap_eq_map']
    refine List.filterMap_congr fun entry mem => ?_
    rw [Function.comp_apply, cached_id inv mem]
    rfl
  rw [cached]
  exact perm_records inv drained.nodes reachable.ownNodes

theorem SameRows.refl {R : Type} (rows : Except Err (List R)) : SameRows rows rows := by
  cases rows with
  | error e => exact trivial
  | ok rows => exact List.Perm.refl rows

theorem SameRows.trans {R : Type} {a b c : Except Err (List R)} (h : SameRows a b)
    (h' : SameRows b c) : SameRows a c := by
  cases a with
  | error e => cases b with
    | error e' => cases c with
      | error e'' => exact trivial
      | ok rows => exact h'.elim
    | ok rows => exact h.elim
  | ok rows => cases b with
    | error e' => exact h.elim
    | ok rows' => cases c with
      | error e'' => exact h'.elim
      | ok rows'' => exact List.Perm.trans h h'

/-- The order in which rows are made does not tell whether one of them raises. -/
theorem sameRows_mapM {α R : Type} (f : α → Except Err R) {l l' : List α} (perm : l.Perm l') :
    SameRows (l.mapM f) (l'.mapM f) := by
  induction perm with
  | nil => exact .refl _
  | @cons a l l' perm ih =>
      rw [List.mapM_cons, List.mapM_cons]
      cases f a with
      | error e => exact trivial
      | ok r =>
          generalize l.mapM f = rows at ih ⊢
          generalize l'.mapM f = rows' at ih ⊢
          cases rows with
          | error e => cases rows' with
            | error e' => exact trivial
            | ok rows' => exact ih.elim
          | ok rows => cases rows' with
            | error e' => exact ih.elim
            | ok rows' => exact List.Perm.cons r ih
  | swap a b l =>
      simp only [List.mapM_cons]
      cases f a <;> cases f b <;> cases l.mapM f <;>
        first | exact trivial | exact List.Perm.swap _ _ _
  | trans _ _ ih ih' => exact ih.trans ih'

theorem sameRows_nodeList (reachable : zk.Reachable) (drained : zk.Drained) (age : T → String)
    (parseInt : String → Option ℤ) (nodeId : Option String) :
    SameRows (nodeList age parseInt zk nodeId true) (nodeList age parseInt zk nodeId false) := by
  have same := sameRows_mapM (nodeRow age parseInt) (perm_nodeIterator reachable drained)
  unfold nodeList
  cases nodeId with
  | none => exact same
  | some id =>
      dsimp only
      split
      · exact .refl _
      · exact same

/-- Reading one after another, when none of them raises. -/
theorem mapM_ok {α β : Type} {f : α → Except Err β} {g : α → β} {l : List α}
    (ok : ∀ a ∈ l, f a = .ok (g a)) : l.mapM f = .ok (l.map g) := by
  induction l with
  | nil => rfl
  | cons a l ih =>
      rw [List.mapM_cons, ok a List.mem_cons_self,
        ih fun b mem => ok b (List.mem_cons_of_mem a mem)]
      rfl

theorem perm_requestList (reachable : zk.Reachable) (drained : zk.Drained) :
    ∃ cached rows, requestList zk true = .ok cached ∧ requestList zk false = .ok rows ∧
      cached.Perm rows := by
  have inv := reachable.requests.inv (recordCache_lawful RequestDoc)
  have own := reachable.ownRequests
  have cached : (zk.requests.cached.entries.map (·.2.1.1)).mapM (getCachedNodeRequest zk) =
      .ok (zk.requests.cached.entries.map fun entry => some entry.2.1) := by
    have each := mapM_ok (f := getCachedNodeRequest zk)
      (g := fun id => (zk.requests.cached.lookup id).map (·.1))
      (l := zk.requests.cached.entries.map (·.2.1.1)) fun id mem => ?_
    · rw [each, List.map_map]
      refine congrArg Except.ok (List.map_congr_left fun entry mem => ?_)
      rw [Function.comp_apply, cached_id inv mem]
      rfl
    · obtain ⟨entry, memEntry, rfl⟩ := List.mem_map.mp mem
      unfold getCachedNodeRequest
      rw [cached_id inv memEntry]
      rfl
  have read : zk.requests.tree.keys.mapM (getNodeRequest zk.requests.tree) =
      .ok (zk.requests.tree.keys.map fun id =>
        ((zk.requests.tree.lookup id).bind (·.data)).map (id, ·)) := by
    refine mapM_ok fun id mem => ?_
    unfold getNodeRequest
    cases stored : zk.requests.tree.lookup id with
    | none => rfl
    | some node =>
        have full := own.full id node stored
        obtain ⟨data, mzxid⟩ := node
        cases data with
        | none => cases full
        | some data => rfl
  have perm := (perm_records inv drained.requests own.names).map requestRow
  refine ⟨_, _, ?_, ?_, perm⟩
  · unfold requestList nodeRequestIterator
    rw [if_pos rfl, cached]
    change Except.ok (((zk.requests.cached.entries.map fun entry =>
      some entry.2.1).reduceOption).map requestRow) = _
    rw [List.reduceOption, List.filterMap_map]
    have some_map : zk.requests.cached.entries.filterMap (id ∘ fun entry => some entry.2.1) =
        zk.requests.cached.entries.map (·.2.1) := congrFun List.filterMap_eq_map _
    rw [some_map]
  · unfold requestList nodeRequestIterator
    rw [if_neg Bool.false_ne_true, read]
    change Except.ok (((zk.requests.tree.keys.map fun id =>
      ((zk.requests.tree.lookup id).bind (·.data)).map (id, ·)).reduceOption).map requestRow) = _
    rw [List.reduceOption, List.filterMap_map]
    rfl

/-! ### The paths of the builds and the uploads -/

section Paths

variable {tree : ImageTree T} {i b p n : String}

/-- The names of the paths of one form are listed, each of them once. -/
theorem named_keys (tree : ImageTree T) {f : ImagePath → Option String} {g : String → ImagePath}
    {listed : String → Prop}
    (named : ∀ path name, f path = some name ↔ path = g name ∧ listed name) :
    (tree.keys.filterMap f).Nodup ∧
      ∀ name, name ∈ tree.keys.filterMap f ↔ g name ∈ tree ∧ listed name := by
  constructor
  · refine tree.nodupKeys.filterMap fun path other name mem memOther => ?_
    exact ((named path name).mp mem).1.trans ((named other name).mp memOther).1.symm
  · intro name
    rw [List.mem_filterMap]
    constructor
    · rintro ⟨path, mem, same⟩
      obtain ⟨rfl, isListed⟩ := (named path name).mp same
      exact ⟨AList.mem_keys.mpr mem, isListed⟩
    · rintro ⟨mem, isListed⟩
      exact ⟨g name, AList.mem_keys.mp mem, (named (g name) name).mpr ⟨rfl, isListed⟩⟩

theorem imageNames_spec (tree : ImageTree T) : (getImageNames tree).Nodup ∧
    ∀ i, i ∈ getImageNames tree ↔ .image i ∈ tree ∧ True := by
  refine named_keys tree fun path name => ?_
  cases path <;> simp

theorem buildIds_spec (tree : ImageTree T) (i : String) : (getBuildIds tree i).Nodup ∧
    ∀ b, b ∈ getBuildIds tree i ↔ .build i b ∈ tree ∧ b ≠ "lock" := by
  refine named_keys tree fun path name => ?_
  cases path <;> grind

theorem buildProviders_spec (tree : ImageTree T) (i b : String) :
    (getBuildProviders tree i b).Nodup ∧
      ∀ p, p ∈ getBuildProviders tree i b ↔ .provider i b p ∈ tree ∧ True := by
  refine named_keys tree fun path name => ?_
  cases path <;> grind

theorem uploadNumbers_spec (tree : ImageTree T) (i b p : String) :
    (getImageUploadNumbers tree i b p).Nodup ∧
      ∀ n, n ∈ getImageUploadNumbers tree i b p ↔ .upload i b p n ∈ tree ∧ n ≠ "lock" := by
  refine named_keys tree fun path name => ?_
  cases path <;> grind

theorem mem_getImageNames : i ∈ getImageNames tree ↔ .image i ∈ tree :=
  ((imageNames_spec tree).2 i).trans (and_iff_left trivial)

theorem mem_getBuildIds : b ∈ getBuildIds tree i ↔ .build i b ∈ tree ∧ b ≠ "lock" :=
  (buildIds_spec tree i).2 b

theorem mem_getBuildProviders : p ∈ getBuildProviders tree i b ↔ .provider i b p ∈ tree :=
  ((buildProviders_spec tree i b).2 p).trans (and_iff_left trivial)

theorem mem_getImageUploadNumbers :
    n ∈ getImageUploadNumbers tree i b p ↔ .upload i b p n ∈ tree ∧ n ≠ "lock" :=
  (uploadNumbers_spec tree i b p).2 n

/-- Lists that have nothing in common, one after another. -/
theorem nodup_flatMap_of {α β : Type} {l : List α} {f : α → List β} (distinct : l.Nodup)
    (each : ∀ a ∈ l, (f a).Nodup) (apart : ∀ a a' x, x ∈ f a → x ∈ f a' → a = a') :
    (l.flatMap f).Nodup :=
  List.nodup_flatMap.mpr
    ⟨each, distinct.imp fun differs x mem mem' => differs (apart _ _ x mem mem')⟩

def buildPaths (tree : ImageTree T) : List ImagePath :=
  (getImageNames tree).flatMap fun image => (getBuildIds tree image).map (.build image)

def uploadPaths (tree : ImageTree T) : List ImagePath :=
  (getImageNames tree).flatMap fun image =>
    (getBuildIds tree image).flatMap fun buildNo =>
      (getBuildProviders tree image buildNo).flatMap fun provider =>
        (getImageUploadNumbers tree image buildNo provider).map (.upload image buildNo provider)

theorem nodup_buildPaths (tree : ImageTree T) : (buildPaths tree).Nodup := by
  refine nodup_flatMap_of (imageNames_spec tree).1 (fun i _ => ?_) fun i i' path mem mem' => ?_
  · exact (buildIds_spec tree i).1.map fun b b' same => (ImagePath.build.inj same).2
  · obtain ⟨b, -, rfl⟩ := List.mem_map.mp mem
    obtain ⟨b', -, same⟩ := List.mem_map.mp mem'
    exact (ImagePath.build.inj same).1.symm

theorem nodup_uploadPaths (tree : ImageTree T) : (uploadPaths tree).Nodup := by
  refine nodup_flatMap_of (imageNames_spec tree).1 (fun i _ => ?_) fun i i' path mem mem' => ?_
  · refine nodup_flatMap_of (buildIds_spec tree i).1 (fun b _ => ?_) fun b b' path mem mem' => ?_
    · refine nodup_flatMap_of (buildProviders_spec tree i b).1 (fun p _ => ?_)
        fun p p' path mem mem' => ?_
      · exact (uploadNumbers_spec tree i b p).1.map fun n n' same =>
          (ImagePath.upload.inj same).2.2.2
      · obtain ⟨n, -, rfl⟩ := List.mem_map.mp mem
        obtain ⟨n', -, same⟩ := List.mem_map.mp mem'
        exact (ImagePath.upload.inj same).2.2.1.symm
    · obtain ⟨p, -, mem⟩ := List.mem_flatMap.mp mem
      obtain ⟨p', -, mem'⟩ := List.mem_flatMap.mp mem'
      obtain ⟨n, -, rfl⟩ := List.mem_map.mp mem
      obtain ⟨n', -, same⟩ := List.mem_map.mp mem'
      exact (ImagePath.upload.inj same).2.1.symm
  · obtain ⟨b, -, mem⟩ := List.mem_flatMap.mp mem
    obtain ⟨b', -, mem'⟩ := List.mem_flatMap.mp mem'
    obtain ⟨p, -, mem⟩ := List.mem_flatMap.mp mem
    obtain ⟨p', -, mem'⟩ := List.mem_flatMap.mp mem'
    obtain ⟨n, -, rfl⟩ := List.mem_map.mp mem
    obtain ⟨n', -, same⟩ := List.mem_map.mp mem'
    exact (ImagePath.upload.inj same).1.symm

theorem OwnImages.builds (own : OwnImages tree) (mem : .build i b ∈ tree) : .image i ∈ tree :=
  own.closed (.builds i) (own.closed (.build i b) mem (.builds i) rfl) (.image i) rfl

theorem OwnImages.provider (own : OwnImages tree) (mem : .upload i b p n ∈ tree) :
    .provider i b p ∈ tree :=
  own.closed (.images i b p) (own.closed (.upload i b p n) mem (.images i b p) rfl)
    (.provider i b p) rfl

theorem OwnImages.build (own : OwnImages tree) (mem : .provider i b p ∈ tree) :
    .build i b ∈ tree :=
  own.closed (.providers i b) (own.closed (.provider i b p) mem (.providers i b) rfl)
    (.build i b) rfl

theorem mem_buildPaths (own : OwnImages tree) {path : ImagePath} : path ∈ buildPaths tree ↔
    ∃ i b, path = .build i b ∧ .build i b ∈ tree ∧ b ≠ "lock" := by
  unfold buildPaths
  rw [List.mem_flatMap]
  constructor
  · rintro ⟨i, -, mem⟩
    obtain ⟨b, memIds, rfl⟩ := List.mem_map.mp mem
    exact ⟨i, b, rfl, mem_getBuildIds.mp memIds⟩
  · rintro ⟨i, b, rfl, mem, differs⟩
    exact ⟨i, mem_getImageNames.mpr (own.builds mem),
      List.mem_map_of_mem (mem_getBuildIds.mpr ⟨mem, differs⟩)⟩

theorem mem_uploadPaths (own : OwnImages tree) {path : ImagePath} : path ∈ uploadPaths tree ↔
    ∃ i b p n, path = .upload i b p n ∧ .upload i b p n ∈ tree ∧ n ≠ "lock" := by
  unfold uploadPaths
  rw [List.mem_flatMap]
  constructor
  · rintro ⟨i, -, mem⟩
    obtain ⟨b, -, mem⟩ := List.mem_flatMap.mp mem
    obtain ⟨p, -, mem⟩ := List.mem_flatMap.mp mem
    obtain ⟨n, memNumbers, rfl⟩ := List.mem_map.mp mem
    exact ⟨i, b, p, n, rfl, mem_getImageUploadNumbers.mp memNumbers⟩
  · rintro ⟨i, b, p, n, rfl, mem, differs⟩
    have memProvider := own.provider mem
    have memBuild := own.build memProvider
    refine ⟨i, mem_getImageNames.mpr (own.builds memBuild), List.mem_flatMap.mpr
      ⟨b, mem_getBuildIds.mpr ⟨memBuild, own.names i b memBuild⟩, List.mem_flatMap.mpr
        ⟨p, mem_getBuildProviders.mpr memProvider, ?_⟩⟩⟩
    exact List.mem_map_of_mem (mem_getImageUploadNumbers.mpr ⟨mem, differs⟩)

end Paths

/-! ### Builds and uploads -/

section Images

theorem Zk.Reachable.inv (reachable : zk.Reachable) : Inv ImageCache Content zk.images :=
  reachable.images.inv imageCache_lawful

/-- What is stored for a cached object. -/
theorem stored_of_cached (reachable : zk.Reachable) (drained : zk.Drained) {key : ImageKey}
    {object : ImageObject T} {stat : ℕ}
    (isCached : zk.images.cached.lookup key = some (object, stat)) :
    ∃ data, zk.images.tree.lookup key.path = some ⟨some data, stat⟩ ∧ Content key object data := by
  have inv := reachable.inv
  obtain ⟨-, ⟨path, parsed⟩, -⟩ := inv.known key object stat isCached
  have matched := inv.matched path key parsed (by
    rw [drained.images]
    exact fun _ mem => absurd mem List.not_mem_nil)
  rw [path_of_parsePath parsed] at matched
  unfold Matches at matched
  split at matched
  · rename_i data mzxid stored
    obtain ⟨object', isCached', content⟩ := matched
    cases isCached.symm.trans isCached'
    exact ⟨data, stored, content⟩
  · exact nomatch isCached.symm.trans matched

/-- No image is ever cached, since its znode has no data. -/
theorem getCachedImages_eq_nil (reachable : zk.Reachable) (drained : zk.Drained) :
    getCachedImages zk.images.cached = [] := by
  unfold getCachedImages
  refine List.filterMap_eq_nil_iff.mpr fun entry mem => ?_
  have isCached : zk.images.cached.lookup entry.1 = some entry.2 := AList.mem_lookup_iff.mpr mem
  obtain ⟨data, stored, content⟩ := stored_of_cached reachable drained isCached
  have isRecord := (reachable.ownImages.storable entry.1.path _ stored data rfl).1
  split
  · rename_i o isImage
    rw [isImage] at content
    obtain ⟨i, key⟩ := content_image content
    rw [key] at isRecord
    cases isRecord
  · rfl

/-- A cached build is that of its image and identifier. -/
theorem lookup_of_mem_getCachedBuilds (reachable : zk.Reachable) (drained : zk.Drained)
    {build : ImageBuild T} (mem : build ∈ getCachedBuilds zk.images.cached) :
    ∃ stat, zk.images.cached.lookup (.build build.imageName build.id) =
      some (.build build, stat) := by
  unfold getCachedBuilds at mem
  obtain ⟨entry, memEntry, same⟩ := List.mem_filterMap.mp mem
  have isCached : zk.images.cached.lookup entry.1 = some entry.2 :=
    AList.mem_lookup_iff.mpr memEntry
  obtain ⟨data, -, content⟩ := stored_of_cached reachable drained isCached
  split at same
  · rename_i o isBuild
    cases same
    rw [isBuild] at content
    obtain ⟨i, b, fmts, key, rfl, -⟩ := content_build content
    rw [key] at isCached
    exact ⟨entry.2.2, isCached.trans (congrArg (fun o => some (o, entry.2.2)) isBuild)⟩
  · cases same

/-- The upload that an object is. -/
def asUpload : ImageObject T → Option (ImageUpload T)
  | .upload o => some o
  | _ => none

/-- The upload for a path. -/
def readUpload (tree : ImageTree T) : ImagePath → Option (ImageUpload T)
  | .upload i b p n => getImageUpload tree i b p n
  | _ => none

/-- The uploads that are cached are those that are read from the tree. -/
theorem perm_imageUploads (reachable : zk.Reachable) (drained : zk.Drained) :
    (getCachedImageUploads zk.images.cached).Perm (imageUploads zk.images.tree) := by
  have own := reachable.ownImages
  have perm := reachable.inv.perm_of_drained imageCache_lawful drained.images asUpload
    (readUpload zk.images.tree) (nodup_uploadPaths zk.images.tree) (fun path mem => ?_)
    fun path key object data mzxid parsed stored content selected => ?_
  · have uploads : (uploadPaths zk.images.tree).filterMap (readUpload zk.images.tree) =
        imageUploads zk.images.tree := by
      unfold uploadPaths imageUploads
      simp only [List.filterMap_flatMap, List.filterMap_map]
      rfl
    rw [uploads] at perm
    exact perm
  · obtain ⟨i, b, p, n, rfl, -, differs⟩ := (mem_uploadPaths own).mp mem
    split
    · rename_i data mzxid stored
      refine ⟨.upload i b p n, if_neg differs, fun object stat _ content => ?_⟩
      cases object with
      | image o => cases content
      | build o => cases content
      | upload o =>
          cases content
          change some _ = getImageUpload zk.images.tree i b p n
          unfold getImageUpload
          rw [stored]
          rfl
    · rename_i noData
      change getImageUpload zk.images.tree i b p n = none
      unfold getImageUpload
      cases stored : zk.images.tree.lookup (.upload i b p n) with
      | none => rfl
      | some node =>
          obtain ⟨data, mzxid⟩ := node
          cases data with
          | none => rfl
          | some data => exact absurd stored (noData data mzxid)
  · cases object with
    | image o => cases selected
    | build o => cases selected
    | upload o =>
        obtain ⟨i, b, p, n, rfl, -⟩ := content_upload content
        have same := path_of_parsePath parsed
        subst same
        have differs : n ≠ "lock" := by
          rintro rfl
          cases parsed
        have isSome : (zk.images.tree.lookup (.upload i b p n)).isSome = true :=
          (congrArg Option.isSome stored).trans rfl
        exact (mem_uploadPaths own).mpr ⟨i, b, p, n, rfl, AList.lookup_isSome.mp isSome, differs⟩

theorem perm_imageList (reachable : zk.Reachable) (drained : zk.Drained) (int : T → ℤ) :
    (imageList int zk true).Perm (imageList int zk false) :=
  (perm_imageUploads reachable drained).map (imageRow int)

end Images

/-! ### `dib_image_list` -/

section Dib

/-- The rows of `dib_image_list` from the cache: no image is paused. -/
theorem dibImageList_cached (reachable : zk.Reachable) (drained : zk.Drained) (int : T → ℤ) :
    dibImageList int zk true = (getCachedBuilds zk.images.cached).map (dibImageRow int false) := by
  unfold dibImageList buildsOf
  rw [if_pos rfl, getCachedImages_eq_nil reachable drained]
  rfl

theorem getBuild_eq_some {tree : ImageTree T} {i b : String} {build : ImageBuild T} :
    getBuild tree i b = some build ↔
      ∃ data mzxid, tree.lookup (.build i b) = some ⟨some data, mzxid⟩ ∧
        ImageBuild.fromDict data i b = build := by
  unfold getBuild
  constructor
  · intro read
    obtain ⟨data, hasData, same⟩ := Option.map_eq_some_iff.mp read
    obtain ⟨node, stored, hasData⟩ := Option.bind_eq_some_iff.mp hasData
    obtain ⟨_, mzxid⟩ := node
    cases hasData
    exact ⟨data, mzxid, stored, same⟩
  · rintro ⟨data, mzxid, stored, rfl⟩
    rw [stored]
    rfl

/-- The row for a path. -/
def readDibRow (int : T → ℤ) (tree : ImageTree T) : ImagePath → Option DibImageRow
  | .build i b => (getBuild tree i b).map (dibImageRow int (getImagePaused tree i))
  | _ => none

theorem get_imagePaused {tree : ImageTree T} {i : String} (mem : i ∈ getImageNames tree) :
    (Dict.ofPairs ((getImageNames tree).map fun i => (i, getImagePaused tree i))).get i false =
      getImagePaused tree i := by
  have lookup : (Dict.ofPairs ((getImageNames tree).map fun i => (i, getImagePaused tree i))).lookup
      i = some (getImagePaused tree i) := by
    refine (Dict.lookup_ofPairs fun k v v' memV memV' => ?_).mpr (List.mem_map_of_mem mem)
    obtain ⟨j, -, same⟩ := List.mem_map.mp memV
    obtain ⟨j', -, same'⟩ := List.mem_map.mp memV'
    cases same
    cases same'
    rfl
  unfold Dict.get
  rw [lookup]
  rfl

theorem dibImageList_read (int : T → ℤ) : dibImageList int zk false =
    (buildPaths zk.images.tree).filterMap (readDibRow int zk.images.tree) := by
  unfold dibImageList buildsOf buildPaths
  rw [if_neg Bool.false_ne_true]
  dsimp only
  rw [List.map_flatMap, List.filterMap_flatMap]
  refine List.flatMap_congr fun i mem => ?_
  rw [List.map_filterMap, List.filterMap_map]
  refine List.filterMap_congr fun b _ => ?_
  change (getBuild zk.images.tree i b).map _ = (getBuild zk.images.tree i b).map _
  cases read : getBuild zk.images.tree i b with
  | none => rfl
  | some build =>
      obtain ⟨data, mzxid, -, rfl⟩ := getBuild_eq_some.mp read
      change some (dibImageRow int (Dict.get _ i false) _) = some _
      rw [get_imagePaused mem]

/-- A row shows its image and its build. -/
theorem row_inj {int : T → ℤ} {paused paused' : Bool} {build build' : ImageBuild T}
    (same : dibImageRow int paused build = dibImageRow int paused' build') :
    build.imageName = build'.imageName ∧ build.id = build'.id := by
  have image : build.imageName = build'.imageName := congrArg DibImageRow.image same
  have id : build.imageName ++ "-" ++ build.id = build'.imageName ++ "-" ++ build'.id :=
    congrArg DibImageRow.id same
  rw [image] at id
  refine ⟨image, String.ext ?_⟩
  have := congrArg String.toList id
  simp only [String.toList_append] at this
  exact List.append_cancel_left this

/-- The formats of a new object. -/
theorem formats_fromDict (d : ImageDoc T) (i b : String) :
    (ImageBuild.fromDict d i b).formats = d.formats := by
  unfold ImageBuild.fromDict ImageBuild.updateFromDict
  dsimp only
  split
  · rename_i none
    exact none.symm
  · rfl

/-- The build that an object is. -/
def asBuild : ImageObject T → Option (ImageBuild T)
  | .build o => some o
  | _ => none

theorem perm_dibImageList (reachable : zk.Reachable) (drained : zk.Drained) (int : T → ℤ)
    (unpaused : zk.Unpaused) (kept : zk.FormatsKept) :
    (dibImageList int zk true).Perm (dibImageList int zk false) := by
  have own := reachable.ownImages
  let select (o : ImageObject T) : Option DibImageRow := (asBuild o).map (dibImageRow int false)
  have perm := reachable.inv.perm_of_drained imageCache_lawful drained.images select
    (readDibRow int zk.images.tree) (nodup_buildPaths zk.images.tree) (fun path mem => ?_)
    fun path key object data mzxid parsed stored content selected => ?_
  · rw [dibImageList_cached reachable drained, dibImageList_read]
    have rows : (getCachedBuilds zk.images.cached).map (dibImageRow int false) =
        zk.images.cached.entries.filterMap fun entry => select entry.2.1 := by
      unfold getCachedBuilds
      rw [List.map_filterMap]
      refine List.filterMap_congr fun entry _ => ?_
      cases entry.2.1 <;> rfl
    rw [rows]
    exact perm
  · obtain ⟨i, b, rfl, -, differs⟩ := (mem_buildPaths own).mp mem
    split
    · rename_i data mzxid stored
      refine ⟨.build i b, if_neg differs, fun object stat isCached content => ?_⟩
      cases object with
      | image o => cases content
      | upload o => cases content
      | build o =>
          obtain ⟨fmts, rfl, keeps⟩ := content
          have read : getBuild zk.images.tree i b = some (ImageBuild.fromDict data i b) :=
            getBuild_eq_some.mpr ⟨data, mzxid, stored, rfl⟩
          have shows : fmts = (ImageBuild.fromDict data i b).formats := by
            rw [formats_fromDict]
            by_cases none : data.formats = []
            · rw [none]
              exact kept i b _ _ read ((formats_fromDict data i b).trans none)
                (List.mem_filterMap.mpr ⟨⟨_, _⟩, AList.mem_lookup_iff.mp isCached, rfl⟩) rfl rfl
            · exact keeps none
          change some _ = (getBuild zk.images.tree i b).map _
          rw [read, unpaused i b (by rw [read]; rfl), shows]
          rfl
    · rename_i noData
      change (getBuild zk.images.tree i b).map _ = none
      cases read : getBuild zk.images.tree i b with
      | none => rfl
      | some build =>
          obtain ⟨data, mzxid, stored, -⟩ := getBuild_eq_some.mp read
          exact absurd stored (noData data mzxid)
  · cases object with
    | image o => cases selected
    | upload o => cases selected
    | build o =>
        obtain ⟨i, b, fmts, rfl, -⟩ := content_build content
        have same := path_of_parsePath parsed
        subst same
        have differs : b ≠ "lock" := by
          rintro rfl
          cases parsed
        have isSome : (zk.images.tree.lookup (.build i b)).isSome = true :=
          (congrArg Option.isSome stored).trans rfl
        exact (mem_buildPaths own).mpr ⟨i, b, rfl, AList.lookup_isSome.mp isSome, differs⟩

/-- If the rows agree, the row of a build that is stored is that of its cached object. -/
theorem row_of_perm (reachable : zk.Reachable) (drained : zk.Drained) {int : T → ℤ}
    (perm : (dibImageList int zk true).Perm (dibImageList int zk false)) {i b : String}
    {build : ImageBuild T} (read : getBuild zk.images.tree i b = some build) :
    ∃ cached ∈ getCachedBuilds zk.images.cached, cached.imageName = i ∧ cached.id = b ∧
      dibImageRow int false cached = dibImageRow int (getImagePaused zk.images.tree i) build := by
  obtain ⟨data, mzxid, stored, rfl⟩ := getBuild_eq_some.mp read
  have memTree : .build i b ∈ zk.images.tree := AList.lookup_isSome.mp (by rw [stored]; rfl)
  have memPaths : .build i b ∈ buildPaths zk.images.tree :=
    (mem_buildPaths reachable.ownImages).mpr
      ⟨i, b, rfl, memTree, reachable.ownImages.names i b memTree⟩
  have mem : dibImageRow int (getImagePaused zk.images.tree i) (ImageBuild.fromDict data i b) ∈
      dibImageList int zk false := by
    rw [dibImageList_read]
    refine List.mem_filterMap.mpr ⟨.build i b, memPaths, ?_⟩
    change (getBuild zk.images.tree i b).map _ = _
    rw [read]
    rfl
  have mem := perm.mem_iff.mpr mem
  rw [dibImageList_cached reachable drained] at mem
  obtain ⟨cached, memCached, same⟩ := List.mem_map.mp mem
  obtain ⟨image, id⟩ := row_inj same
  exact ⟨cached, memCached, image, id, same⟩

theorem perm_dibImageList_iff (reachable : zk.Reachable) (drained : zk.Drained) (int : T → ℤ) :
    (dibImageList int zk true).Perm (dibImageList int zk false) ↔ zk.Unpaused ∧ zk.FormatsKept := by
  constructor
  · intro perm
    constructor
    · intro i b isSome
      obtain ⟨build, read⟩ := Option.isSome_iff_exists.mp isSome
      obtain ⟨cached, memCached, image, id, same⟩ := row_of_perm reachable drained perm read
      obtain ⟨stat, isCached⟩ := lookup_of_mem_getCachedBuilds reachable drained memCached
      obtain ⟨data, stored, fmts, isBuild, -⟩ := stored_of_cached reachable drained isCached
      have valid := (reachable.ownImages.storable _ _ stored data rfl).2
      by_contra paused
      rw [eq_true_of_ne_false paused] at same
      have ofData : cached.state = data.state := congrArg ImageBuild.state isBuild
      have state : cached.state = "paused" := congrArg DibImageRow.state same
      rw [← ofData, state] at valid
      exact absurd valid (by decide)
    · intro i b build stored read none memCached image id
      obtain ⟨cached, memCached', image', id', same⟩ := row_of_perm reachable drained perm read
      obtain ⟨stat, isCached⟩ := lookup_of_mem_getCachedBuilds reachable drained memCached
      obtain ⟨stat', isCached'⟩ := lookup_of_mem_getCachedBuilds reachable drained memCached'
      rw [image, id] at isCached
      rw [image', id'] at isCached'
      cases isCached.symm.trans isCached'
      have shown : StoredModels.formats build.formats = StoredModels.formats stored.formats :=
        congrArg DibImageRow.formats same
      rw [none] at shown
      exact StoredModels.formats_eq_nil_iff.mp shown
  · exact fun ⟨unpaused, kept⟩ => perm_dibImageList reachable drained int unpaused kept

end Dib

/-! ### The most recent upload -/

section Recent

variable [LinearOrder T] {image provider state : String}

def Wanted (image provider state : String) (upload : ImageUpload T) : Prop :=
  upload.imageName = image ∧ upload.providerName = provider ∧ upload.state = state

/-- What the loop has found: one of the uploads that are wanted, and none of them is later. -/
def Latest (image provider state : String) (uploads : List (ImageUpload T))
    (recent : Option (ImageUpload T)) : Prop :=
  (∀ upload ∈ recent, upload ∈ uploads ∧ Wanted image provider state upload) ∧
    ∀ upload ∈ uploads, Wanted image provider state upload →
      ∃ latest ∈ recent, upload.stateTime ≤ latest.stateTime

theorem latest_mostRecent (image provider state : String) (uploads : List (ImageUpload T)) :
    Latest image provider state uploads (mostRecent image provider state uploads) := by
  unfold mostRecent
  induction uploads using List.reverseRecOn with
  | nil => exact ⟨nofun, nofun⟩
  | append_singleton uploads upload ih =>
      rw [List.foldl_append, List.foldl_cons, List.foldl_nil]
      generalize List.foldl _ none uploads = recent at ih
      have passed (unwanted : ¬ Wanted image provider state upload) :
          Latest image provider state (uploads ++ [upload]) recent := by
        constructor
        · exact fun found mem => (ih.1 found mem).imp_left (List.mem_append_left [upload])
        · intro other mem wanted
          rcases List.mem_append.mp mem with mem | mem
          · exact ih.2 other mem wanted
          · exact absurd (List.mem_singleton.mp mem ▸ wanted) unwanted
      split
      · rename_i differs
        exact passed fun wanted => differs wanted.1
      · rename_i isImage
        split
        · rename_i differs
          exact passed fun wanted => differs wanted.2.1
        · rename_i isProvider
          split
          · rename_i differs
            exact passed fun wanted => differs wanted.2.2
          · rename_i isState
            have wanted : Wanted image provider state upload :=
              ⟨not_not.mp isImage, not_not.mp isProvider, not_not.mp isState⟩
            have taken (later : ∀ found ∈ recent, found.stateTime ≤ upload.stateTime) :
                Latest image provider state (uploads ++ [upload]) (some upload) := by
              constructor
              · intro found mem
                cases mem
                exact ⟨List.mem_append_right _ List.mem_cons_self, wanted⟩
              · intro other mem wanted
                rcases List.mem_append.mp mem with mem | mem
                · obtain ⟨latest, isLatest, le⟩ := ih.2 other mem wanted
                  exact ⟨upload, rfl, le.trans (later latest isLatest)⟩
                · exact ⟨upload, rfl, (List.mem_singleton.mp mem ▸ le_rfl)⟩
            cases recent with
            | none => exact taken nofun
            | some found =>
                dsimp only
                split
                · rename_i later
                  refine taken fun other same => ?_
                  cases same
                  exact later.le
                · rename_i notLater
                  constructor
                  · exact fun found mem => (ih.1 found mem).imp_left (List.mem_append_left [upload])
                  · intro other mem wanted
                    rcases List.mem_append.mp mem with mem | mem
                    · exact ih.2 other mem wanted
                    · exact ⟨found, rfl, List.mem_singleton.mp mem ▸ not_lt.mp notLater⟩

/-- The most recent upload depends only on which of the uploads are wanted, if their times
differ. -/
theorem mostRecent_congr {uploads uploads' : List (ImageUpload T)}
    (same : ∀ upload, Wanted image provider state upload → (upload ∈ uploads ↔ upload ∈ uploads'))
    (distinct : ∀ u ∈ uploads, ∀ v ∈ uploads, u.stateTime = v.stateTime → u = v) :
    mostRecent image provider state uploads = mostRecent image provider state uploads' := by
  have latest := latest_mostRecent image provider state uploads
  have latest' := latest_mostRecent image provider state uploads'
  cases found : mostRecent image provider state uploads with
  | none =>
      cases found' : mostRecent image provider state uploads' with
      | none => rfl
      | some other =>
          obtain ⟨mem, wanted⟩ := latest'.1 other found'
          obtain ⟨_, isLatest, -⟩ := latest.2 other ((same other wanted).mpr mem) wanted
          rw [found] at isLatest
          cases isLatest
  | some upload =>
      obtain ⟨mem, wanted⟩ := latest.1 upload found
      obtain ⟨other, isLatest', le⟩ := latest'.2 upload ((same upload wanted).mp mem) wanted
      obtain ⟨mem', wanted'⟩ := latest'.1 other isLatest'
      have memOther := (same other wanted').mpr mem'
      obtain ⟨latestOther, isLatest, le'⟩ := latest.2 other memOther wanted'
      rw [found] at isLatest
      cases isLatest
      rw [distinct upload mem other memOther (le_antisymm le le')]
      exact isLatest'.symm

end Recent

section Agreement

variable [LinearOrder T]

omit [LinearOrder T] in
theorem getImageUpload_eq_some {tree : ImageTree T} {i b p n : String} {upload : ImageUpload T}
    (read : getImageUpload tree i b p n = some upload) : .upload i b p n ∈ tree ∧
      upload.imageName = i ∧ upload.providerName = p := by
  unfold getImageUpload at read
  obtain ⟨data, hasData, rfl⟩ := Option.map_eq_some_iff.mp read
  obtain ⟨node, stored, -⟩ := Option.bind_eq_some_iff.mp hasData
  exact ⟨AList.lookup_isSome.mp (by rw [stored]; rfl), rfl, rfl⟩

omit [LinearOrder T] in
theorem mem_imageUploads {tree : ImageTree T} (own : OwnImages tree) {upload : ImageUpload T} :
    upload ∈ imageUploads tree ↔
      ∃ i b p n, n ≠ "lock" ∧ getImageUpload tree i b p n = some upload := by
  unfold imageUploads
  simp only [List.mem_flatMap, List.mem_filterMap, mem_getImageNames, mem_getBuildIds,
    mem_getBuildProviders, mem_getImageUploadNumbers]
  constructor
  · rintro ⟨i, -, b, -, p, -, n, ⟨-, differs⟩, read⟩
    exact ⟨i, b, p, n, differs, read⟩
  · rintro ⟨i, b, p, n, differs, read⟩
    have mem := (getImageUpload_eq_some read).1
    have memProvider := own.provider mem
    have memBuild := own.build memProvider
    exact ⟨i, own.builds memBuild, b, ⟨memBuild, own.names i b memBuild⟩, p, memProvider, n,
      ⟨mem, differs⟩, read⟩

theorem recent_eq (reachable : zk.Reachable) (drained : zk.Drained) (distinct : zk.DistinctTimes)
    (image provider state : String) : getMostRecentImageUpload zk image provider state true =
      getMostRecentImageUpload zk image provider state false := by
  have own := reachable.ownImages
  have cached {upload : ImageUpload T} : upload ∈ getCachedImageUploads zk.images.cached ↔
      ∃ i b p n, n ≠ "lock" ∧ getImageUpload zk.images.tree i b p n = some upload :=
    (perm_imageUploads reachable drained).mem_iff.trans (mem_imageUploads own)
  unfold getMostRecentImageUpload
  rw [if_pos rfl, if_neg Bool.false_ne_true]
  refine mostRecent_congr (fun upload wanted => ?_) fun u mem v mem' sameTime => ?_
  · rw [cached, List.mem_flatMap]
    constructor
    · rintro ⟨i, b, p, n, differs, read⟩
      obtain ⟨mem, isImage, isProvider⟩ := getImageUpload_eq_some read
      obtain rfl := isImage.symm.trans wanted.1
      obtain rfl := isProvider.symm.trans wanted.2.1
      have memBuild := own.build (own.provider mem)
      refine ⟨b, mem_getBuildIds.mpr ⟨memBuild, own.names _ b memBuild⟩, List.mem_filterMap.mpr
        ⟨n, mem_getImageUploadNumbers.mpr ⟨mem, differs⟩, ?_⟩⟩
      rw [read, Option.filter_some, if_pos (decide_eq_true wanted.2.2)]
    · rintro ⟨b, -, mem⟩
      obtain ⟨n, memNumbers, read⟩ := List.mem_filterMap.mp mem
      exact ⟨image, b, provider, n, (mem_getImageUploadNumbers.mp memNumbers).2,
        (Option.filter_eq_some_iff.mp read).1⟩
  · obtain ⟨i, b, p, n, -, read⟩ := cached.mp mem
    obtain ⟨i', b', p', n', -, read'⟩ := cached.mp mem'
    exact distinct i b p n i' b' p' n' u v read read' sameTime

/-- When everything has reached the caches, what is read through them agrees with what is read
from ZooKeeper exactly if no image that has a build is paused, and no cached build has kept
formats that its record does not have any more. -/
theorem agrees_iff (int : T → ℤ) (age : T → String) (parseInt : String → Option ℤ) (zk : Zk T)
    (reachable : zk.Reachable) (drained : zk.Drained) (distinct : zk.DistinctTimes) :
    Agrees int age parseInt zk ↔ zk.Unpaused ∧ zk.FormatsKept := by
  constructor
  · exact fun agrees => (perm_dibImageList_iff reachable drained int).mp agrees.dibImageList
  · intro conditions
    exact {
      dibImageList := (perm_dibImageList_iff reachable drained int).mpr conditions
      imageList := perm_imageList reachable drained int
      nodeList := sameRows_nodeList reachable drained age parseInt
      requestList := perm_requestList reachable drained
      recent := recent_eq reachable drained distinct }

end Agreement

end Lists

/-! ### A build -/

/-- An image with a build is stored, then perhaps paused, and the caches are brought up to date. -/
def exampleActions (pause : Bool) : List (Action ImagePath (ImageDoc ℕ)) :=
  [.create (.image "i") none, .create (.builds "i") none,
    .create (.build "i" "b") (some ⟨"ready", 7, .null, ["qcow2"], .null, .null⟩)] ++
  (if pause then [.create (.pause "i") none] else []) ++
  [.handle, .play, .handle, .play, .handle, .play, .handle, .play]

def exampleZk (pause : Bool) : Zk ℕ where
  images := (exampleActions pause).foldl (step ImageCache) (start ∅ 0)
  nodes := start ∅ 0
  requests := start ∅ 0

theorem exampleZk_reachable (pause : Bool) : (exampleZk pause).Reachable where
  images := by
    refine Reachable.run (.start nofun ⟨nofun, nofun, nofun⟩) ?_
    have name : ∀ image buildId, ImagePath.build "i" "b" = .build image buildId →
        buildId ≠ "lock" := by
      rintro _ _ ⟨⟩
      decide
    have valid : Storable (.build "i" "b")
        (some (⟨"ready", 7, .null, ["qcow2"], .null, .null⟩ : ImageDoc ℕ)) := by
      rintro d ⟨⟩
      exact ⟨rfl, by decide⟩
    cases pause with
    | false =>
        exact ⟨⟨nofun, nofun, nofun⟩, ⟨by decide, nofun, nofun⟩, ⟨by decide, name, valid⟩, trivial,
          trivial, trivial, trivial, trivial, trivial, trivial, trivial, trivial⟩
    | true =>
        exact ⟨⟨nofun, nofun, nofun⟩, ⟨by decide, nofun, nofun⟩, ⟨by decide, name, valid⟩,
          ⟨by decide, nofun, nofun⟩, trivial, trivial, trivial, trivial, trivial, trivial, trivial,
          trivial, trivial⟩
  nodes := .start nofun nofun
  requests := .start nofun ⟨nofun, nofun⟩

theorem exampleZk_drained (pause : Bool) : (exampleZk pause).Drained where
  images := by cases pause <;> rfl
  nodes := rfl
  requests := rfl

theorem exampleZk_distinct (pause : Bool) : (exampleZk pause).DistinctTimes := by
  intro i b p n i' b' p' n' u u' read
  cases pause <;> cases read

/-- The pause is seen only without the cache. -/
theorem exampleZk_disagrees : (exampleZk true).Reachable ∧ (exampleZk true).Drained ∧
    (exampleZk true).DistinctTimes ∧
    ¬ Agrees Int.ofNat (fun _ => "") (fun _ => none) (exampleZk true) := by
  refine ⟨exampleZk_reachable true, exampleZk_drained true, exampleZk_distinct true,
    fun agrees => ?_⟩
  have perm : List.Perm [(⟨"i-b", "i", .null, ["qcow2"], "ready", 7⟩ : DibImageRow)]
    [⟨"i-b", "i", .null, ["qcow2"], "paused", 7⟩] := agrees.dibImageList
  have same := List.cons.inj (List.perm_singleton.mp perm)
  exact absurd (congrArg DibImageRow.state same.1) (by decide)

/-! ### A build with two uploads, a node and a request -/

def uploadDoc (time : ℕ) (externalId : String) : ImageDoc ℕ :=
  ⟨"ready", time, .null, [], .str externalId, .str externalId⟩

/-- The uploads are stored while the caches are handling what was stored before. -/
def uploadActions : List (Action ImagePath (ImageDoc ℕ)) :=
  exampleActions false ++
  [.create (.providers "i" "b") none, .create (.provider "i" "b" "p") none,
    .create (.images "i" "b" "p") none, .handle,
    .create (.upload "i" "b" "p" "1") (some (uploadDoc 8 "x")), .handle, .play,
    .create (.upload "i" "b" "p" "2") (some (uploadDoc 9 "y")), .handle, .handle, .handle,
    .play, .play, .play, .play]

def uploadZk : Zk ℕ where
  images := uploadActions.foldl (step ImageCache) (start ∅ 0)
  nodes := [Action.create "0000000001" (some ⟨"ready", 5, [.str "small"], fun _ => .null⟩), .handle,
    .play].foldl (step (RecordCache (NodeDoc ℕ))) (start ∅ 0)
  requests := [Action.create "100-0000000001" (some ⟨"requested", fun _ => .null⟩), .handle,
    .play].foldl (step (RecordCache RequestDoc)) (start ∅ 0)

theorem uploadZk_reachable : uploadZk.Reachable where
  images := by
    unfold uploadZk uploadActions
    rw [List.foldl_append]
    refine Reachable.run (exampleZk_reachable false).images ?_
    have valid (n : String) (time : ℕ) (externalId : String) : Storable (.upload "i" "b" "p" n)
        (some (uploadDoc time externalId)) := by
      rintro d ⟨⟩
      exact ⟨rfl, (by decide : "ready" ∈ validStates)⟩
    exact ⟨⟨by decide, nofun, nofun⟩, ⟨by decide, nofun, nofun⟩, ⟨by decide, nofun, nofun⟩,
      trivial, ⟨by decide, nofun, valid _ _ _⟩, trivial, trivial, ⟨by decide, nofun, valid _ _ _⟩,
      trivial, trivial, trivial, trivial, trivial, trivial, trivial, trivial⟩
  nodes := by
    refine Reachable.run (.start nofun nofun) ⟨?_, trivial, trivial, trivial⟩
    exact (by decide : ("0000000001" : String) ≠ "lock")
  requests := by
    refine Reachable.run (.start nofun ⟨nofun, nofun⟩) ⟨?_, trivial, trivial, trivial⟩
    exact ⟨by decide, rfl⟩

theorem uploadZk_drained : uploadZk.Drained := ⟨rfl, rfl, rfl⟩

theorem uploadZk_keys : uploadZk.images.tree.keys = [.upload "i" "b" "p" "2",
    .upload "i" "b" "p" "1", .images "i" "b" "p", .provider "i" "b" "p", .providers "i" "b",
    .build "i" "b", .builds "i", .image "i"] := rfl

theorem mem_uploadZk {path : ImagePath} {node : ZNode (ImageDoc ℕ)}
    (stored : uploadZk.images.tree.lookup path = some node) :
    path ∈ uploadZk.images.tree.keys :=
  AList.mem_keys.mp (AList.lookup_isSome.mp (by rw [stored]; rfl))

theorem uploadZk_distinct : uploadZk.DistinctTimes := by
  have one {i b p n : String} {u : ImageUpload ℕ}
      (read : getImageUpload uploadZk.images.tree i b p n = some u) :
      u = .fromDict (uploadDoc 9 "y") "b" "p" "i" "2" ∨
        u = .fromDict (uploadDoc 8 "x") "b" "p" "i" "1" := by
    obtain ⟨d, stored, rfl⟩ := Option.map_eq_some_iff.mp read
    obtain ⟨node, stored, data⟩ := Option.bind_eq_some_iff.mp stored
    have mem := mem_uploadZk stored
    simp only [uploadZk_keys, List.mem_cons, List.not_mem_nil, or_false, reduceCtorEq,
      ImagePath.upload.injEq] at mem
    rcases mem with ⟨rfl, rfl, rfl, rfl⟩ | ⟨rfl, rfl, rfl, rfl⟩
    · cases stored
      cases data
      exact .inl rfl
    · cases stored
      cases data
      exact .inr rfl
  intro i b p n i' b' p' n' u u' read read' same
  rcases one read with rfl | rfl <;> rcases one read' with rfl | rfl
  · rfl
  · cases same
  · cases same
  · rfl

theorem uploadZk_unpaused : uploadZk.Unpaused := by
  intro image buildId _
  refine decide_eq_false fun paused => ?_
  have mem := AList.mem_keys.mp paused
  rw [uploadZk_keys] at mem
  simp at mem

theorem uploadZk_formatsKept : uploadZk.FormatsKept := by
  intro image buildId build stored read none
  obtain ⟨d, found, rfl⟩ := Option.map_eq_some_iff.mp read
  obtain ⟨node, found, data⟩ := Option.bind_eq_some_iff.mp found
  have mem := mem_uploadZk found
  simp only [uploadZk_keys, List.mem_cons, List.not_mem_nil, or_false, reduceCtorEq,
    ImagePath.build.injEq, false_or] at mem
  obtain ⟨rfl, rfl⟩ := mem
  cases found
  cases data
  cases none

/-- Both uploads, the node and the request are listed, and the lists agree. -/
theorem agrees_iff_example :
    (imageList Int.ofNat uploadZk true).length = 2 ∧
      (nodeList (fun _ => "") (fun _ => none) uploadZk none true).map List.length = .ok 1 ∧
      (requestList uploadZk true).map List.length = .ok 1 ∧
      Agrees Int.ofNat (fun _ => "") (fun _ => none) uploadZk :=
  ⟨rfl, rfl, rfl, (agrees_iff _ _ _ uploadZk uploadZk_reachable uploadZk_drained
    uploadZk_distinct).mpr ⟨uploadZk_unpaused, uploadZk_formatsKept⟩⟩

end Nodepool.CachedLists
