import Nodepool.Zk.Paths

/-!
The paths below the roots of `ZooKeeper`: records, the directories above them, flags, locks and
the contenders for locks. A cache gives its parsers the paths below its own root only.
-/

namespace Nodepool.ZkPaths

/-- The trees of znodes. -/
inductive Tree where
  | images
  | nodes
  | requests
  | requestLocks
  | launchers
  | elections
deriving DecidableEq, Repr

def Tree.root : Tree → String
  | images => IMAGE_ROOT
  | nodes => NODE_ROOT
  | requests => REQUEST_ROOT
  | requestLocks => REQUEST_LOCK_ROOT
  | launchers => LAUNCHER_ROOT
  | elections => ELECTION_ROOT

inductive Lock where
  | imageBuild (image : String)
  | imageBuildId (image buildId : String)
  | imageUpload (image buildId provider : String)
  | imageUploadNumber (image buildId provider uploadNumber : String)
  | node (node : String)
  | request (request : String)

def Lock.path : Lock → String
  | .imageBuild name => imageBuildLockPath name
  | .imageBuildId name buildId => imageBuildIdLockPath name buildId
  | .imageUpload name buildId provider => imageUploadLockPath name buildId provider
  | .imageUploadNumber name buildId provider number =>
      imageUploadNumberLockPath name buildId provider number
  | .node id => nodeLockPath id
  | .request id => requestLockPath id

def Lock.tree : Lock → Tree
  | .node _ => .nodes
  | .request _ => .requestLocks
  | _ => .images

/-- What follows the root. -/
def Lock.names : Lock → List String
  | .imageBuild name => [name, "builds", "lock"]
  | .imageBuildId name buildId => [name, "builds", buildId, "lock"]
  | .imageUpload name buildId provider =>
      [name, "builds", buildId, "providers", provider, "images", "lock"]
  | .imageUploadNumber name buildId provider number =>
      [name, "builds", buildId, "providers", provider, "images", number, "lock"]
  | .node id => [id, "lock"]
  | .request id => [id]

def Lock.components : Lock → List String
  | .imageBuild name => [name]
  | .imageBuildId name buildId => [name, buildId]
  | .imageUpload name buildId provider => [name, buildId, provider]
  | .imageUploadNumber name buildId provider number =>
      [name, buildId, provider, number]
  | .node id => [id]
  | .request id => [id]

/-- What has a path that the builders make: `uploads` is the directory of a provider, and a
contender for a lock is below the lock. -/
inductive Znode where
  | image (image : String)
  | buildRequest (image : String)
  | pause (image : String)
  | builds (image : String)
  | build (image buildId : String)
  | providers (image buildId : String)
  | imageProvider (image buildId provider : String)
  | uploads (image buildId provider : String)
  | upload (image buildId provider upload : String)
  | node (node : String)
  | request (request : String)
  | launcher (launcher : String)
  | election (election : String)
  | lock (lock : Lock)
  | contender (lock : Lock) (contender : String)

def Znode.path : Znode → String
  | .image name => imagePath name
  | .buildRequest name => imageBuildRequestPath name
  | .pause name => imagePausePath name
  | .builds name => imageBuildsPath name
  | .build name buildId => imageBuildIdPath name buildId
  | .providers name buildId => imageProviderPath name buildId
  | .imageProvider name buildId provider => imageProviderPath name buildId ++ "/" ++ provider
  | .uploads name buildId provider => imageUploadPath name buildId provider
  | .upload name buildId provider number => imageUploadPath name buildId provider ++ "/" ++ number
  | .node id => nodePath id
  | .request id => requestPath id
  | .launcher id => launcherPath id
  | .election id => electionPath id
  | .lock l => l.path
  | .contender l c => l.path ++ "/" ++ c

def Znode.tree : Znode → Tree
  | .node _ => .nodes
  | .request _ => .requests
  | .launcher _ => .launchers
  | .election _ => .elections
  | .lock l | .contender l _ => l.tree
  | _ => .images

/-- What follows the root. -/
def Znode.names : Znode → List String
  | .image name => [name]
  | .buildRequest name => [name, "request-build"]
  | .pause name => [name, "pause"]
  | .builds name => [name, "builds"]
  | .build name buildId => [name, "builds", buildId]
  | .providers name buildId => [name, "builds", buildId, "providers"]
  | .imageProvider name buildId provider => [name, "builds", buildId, "providers", provider]
  | .uploads name buildId provider =>
      [name, "builds", buildId, "providers", provider, "images"]
  | .upload name buildId provider number =>
      [name, "builds", buildId, "providers", provider, "images", number]
  | .node id => [id]
  | .request id => [id]
  | .launcher id => [id]
  | .election id => [id]
  | .lock l => l.names
  | .contender l c => l.names ++ [c]

def Znode.components : Znode → List String
  | .image name | .buildRequest name | .pause name | .builds name => [name]
  | .build name buildId | .providers name buildId => [name, buildId]
  | .imageProvider name buildId provider | .uploads name buildId provider =>
      [name, buildId, provider]
  | .upload name buildId provider number => [name, buildId, provider, number]
  | .node name | .request name | .launcher name | .election name => [name]
  | .lock l => l.components
  | .contender l c => l.components ++ [c]

theorem join_append_singleton {parts : List String} (nonempty : parts ≠ []) (last : String) :
    Text.join '/' (parts ++ [last]) = Text.join '/' parts ++ "/" ++ last := by
  induction parts with
  | nil => exact absurd rfl nonempty
  | cons part parts ih =>
      cases parts with
      | nil => rw [List.cons_append, List.nil_append, join_cons, join_singleton, join_singleton,
          String.append_assoc]
      | cons next parts =>
          rw [List.cons_append, List.cons_append, join_cons, ← List.cons_append,
            ih (List.cons_ne_nil _ _), join_cons]
          simp only [String.append_assoc]

theorem Lock.path_eq (lock : Lock) :
    lock.path = lock.tree.root ++ Text.join '/' ("" :: lock.names) := by
  cases lock <;>
    simp [Lock.path, Lock.tree, Tree.root, Lock.names, join_cons, join_singleton,
      imageBuildLockPath, imageBuildIdLockPath, imageUploadLockPath, imageUploadNumberLockPath,
      nodeLockPath, requestLockPath, imageBuildIdPath, imageUploadPath, imageBuildsPath,
      imagePath, String.append_assoc] <;>
    simp only [← String.append_assoc, String.reduceAppend]

theorem Znode.path_eq (z : Znode) :
    z.path = z.tree.root ++ Text.join '/' ("" :: z.names) := by
  cases z with
  | lock lock => exact lock.path_eq
  | contender lock contender =>
      change lock.path ++ "/" ++ contender =
        lock.tree.root ++ Text.join '/' (("" :: lock.names) ++ [contender])
      rw [join_append_singleton (List.cons_ne_nil _ _), lock.path_eq, String.append_assoc,
        String.append_assoc, String.append_assoc]
  | _ =>
      simp [Znode.path, Znode.tree, Tree.root, Znode.names, join_cons, join_singleton,
        imagePath, imageBuildRequestPath, imagePausePath, imageBuildsPath, imageBuildIdPath,
        imageProviderPath, imageUploadPath, nodePath, requestPath, launcherPath, electionPath,
        String.append_assoc] <;>
      simp only [← String.append_assoc, String.reduceAppend]

/-! ### Which znodes a parser takes for a record -/

def Record.tree : Record → Tree
  | .image | .imagePause | .imageBuild | .imageUpload => .images
  | .node | .nodeLock => .nodes
  | .request => .requests

theorem Record.tree_root (r : Record) : r.tree.root = r.root := by cases r <;> rfl

theorem Lock.noSlash_names {lock : Lock} (valid : ∀ c ∈ lock.components, Component c) :
    ∀ name ∈ lock.names, '/' ∉ name.toList := by
  have slash {c : String} (mem : c ∈ lock.components) : '/' ∉ c.toList := (valid c mem).noSlash
  cases lock <;> simp [Lock.names, Lock.components] at slash ⊢ <;> simp [slash]

theorem Znode.noSlash_names {z : Znode} (valid : ∀ c ∈ z.components, Component c) :
    ∀ name ∈ z.names, '/' ∉ name.toList := by
  cases z with
  | lock lock => exact lock.noSlash_names valid
  | contender lock contender =>
      obtain ⟨lockValid, contenderValid⟩ := List.forall_mem_append.mp valid
      exact List.forall_mem_append.mpr ⟨Lock.noSlash_names lockValid,
        fun name mem => (contenderValid name mem).noSlash⟩
  | _ =>
      have slash {c : String} (mem : c ∈ Znode.components _) : '/' ∉ c.toList :=
        (valid c mem).noSlash
      simp [Znode.names, Znode.components] at slash ⊢
      simp [slash]

/-- No parser accepts a lock in the tree of its records. -/
theorem Lock.not_accepted {r : Record} {lock : Lock} (same : r.tree = lock.tree)
    (length : lock.names.length = r.template.length) : r.accepts ("" :: lock.names) = false := by
  cases lock <;> cases r <;>
    simp_all [Record.tree, Lock.tree, Lock.names, Record.template, Record.accepts, notLock]

/-- A contender is as deep as a record of its tree only below the lock of a node. -/
theorem Lock.eq_node_of_contender {r : Record} {lock : Lock} (same : r.tree = lock.tree)
    (length : (lock.names ++ [""]).length = r.template.length) :
    r = .nodeLock ∧ ∃ id, lock = .node id := by
  cases lock <;> cases r <;>
    simp_all [Record.tree, Lock.tree, Lock.names, Record.template]

/-- The names of a znode that a parser accepts suit the template of the record. -/
theorem suits_names {r : Record} {z : Znode} (same : r.tree = z.tree)
    (valid : ∀ c ∈ z.components, Component c) (length : z.names.length = r.template.length)
    (accepted : r.accepts ("" :: z.names) = true) : List.Forall₂ Suits r.template z.names := by
  have component {c : String} (mem : c ∈ z.components) : c ≠ "" ∧ c ≠ "lock" :=
    ⟨(valid c mem).nonempty, (valid c mem).notLock⟩
  cases z with
  | lock lock =>
      change r.accepts ("" :: lock.names) = true at accepted
      rw [Lock.not_accepted same length] at accepted
      cases accepted
  | contender lock contender =>
      have length : (lock.names ++ [""]).length = r.template.length := by
        simpa [Znode.names] using length
      obtain ⟨rfl, id, rfl⟩ := Lock.eq_node_of_contender same length
      exact .cons (component List.mem_cons_self) (.cons rfl
        (.cons (component (List.mem_cons_of_mem _ List.mem_cons_self)) .nil))
  | _ =>
      cases r <;>
        simp_all [Record.tree, Znode.tree, Znode.names, Record.template, Record.accepts,
          Znode.components, Suits]

/-! ### The trees are apart -/

/-- The letter after `/nodepool/` tells the trees apart, but for those of the requests. -/
theorem Tree.letter {r : Record} {t : Tree} (same : r.root.toList[10]? = t.root.toList[10]?) :
    r.tree = t ∨ r = .request ∧ t = .requestLocks := by
  revert same
  cases r <;> cases t <;> decide

theorem tree_of_prefix {r : Record} {t : Tree} {rest tail : String}
    (same : r.root ++ rest = t.root ++ tail) :
    r.tree = t ∨ r = .request ∧ t = .requestLocks := by
  have long : 10 < r.root.toList.length := by cases r <;> decide
  have long' : 10 < t.root.toList.length := by cases t <;> decide
  refine Tree.letter ?_
  have letters := congrArg (fun s : String => s.toList[10]?) same
  simpa only [String.toList_append, List.getElem?_append_left long,
    List.getElem?_append_left long'] using letters

/-- In the tree of the record, what the parser accepts are the names. -/
theorem parts_znode {r : Record} {z : Znode} (same : r.tree = z.tree)
    (valid : ∀ c ∈ z.components, Component c) {parts : List String}
    (accepted : r.parts z.path = some parts) : parts = "" :: z.names := by
  obtain ⟨⟨rest, path_eq, rfl⟩, -⟩ := parts_eq_some.mp accepted
  rw [z.path_eq, ← same, r.tree_root, ← String.toList_inj, String.toList_append,
    String.toList_append] at path_eq
  rw [← String.toList_inj.mp (List.append_cancel_left path_eq)]
  exact Text.split_join (List.cons_ne_nil _ _)
    (List.forall_mem_cons.mpr ⟨List.not_mem_nil, Znode.noSlash_names valid⟩)

/-- In the tree of the locks the rest of the root is the first part for the parser of requests. -/
theorem parts_requestLocks {z : Znode} (tree : z.tree = .requestLocks)
    (valid : ∀ c ∈ z.components, Component c) {parts : List String}
    (accepted : Record.request.parts z.path = some parts) : parts = "-lock" :: z.names := by
  obtain ⟨⟨rest, path_eq, rfl⟩, -⟩ := parts_eq_some.mp accepted
  have names : z.names ≠ [] := by
    cases z with
    | lock lock => cases lock <;> exact List.cons_ne_nil _ _
    | contender lock contender => exact List.append_ne_nil_of_right_ne_nil _ (List.cons_ne_nil _ _)
    | _ => exact List.cons_ne_nil _ _
  obtain ⟨first, names', same⟩ := List.exists_cons_of_ne_nil names
  have root : Tree.requestLocks.root = Record.request.root ++ "-lock" := by decide
  have joined : "-lock" ++ Text.join '/' ("" :: z.names) = Text.join '/' ("-lock" :: z.names) := by
    rw [same, join_cons, join_cons, String.empty_append]
  rw [z.path_eq, tree, root, String.append_assoc, joined, ← String.toList_inj,
    String.toList_append, String.toList_append] at path_eq
  rw [← String.toList_inj.mp (List.append_cancel_left path_eq)]
  exact Text.split_join (List.cons_ne_nil _ _)
    (List.forall_mem_cons.mpr ⟨by decide, Znode.noSlash_names valid⟩)

/-- The lock of a request is taken for the request. -/
theorem parse_requestLock {request : String} (valid : Component request) :
    Record.request.parse (requestLockPath request) = some [request] := by
  have split : Text.split '/' ("-lock/" ++ request) = ["-lock", request] := by
    have joined : "-lock/" ++ request = Text.join '/' ["-lock", request] := by
      rw [join_cons, join_singleton, ← String.append_assoc]
      rfl
    rw [joined]
    exact Text.split_join (List.cons_ne_nil _ _) (List.forall_mem_cons.mpr
      ⟨by decide, List.forall_mem_cons.mpr ⟨valid.noSlash, nofun⟩⟩)
  have path_eq : requestLockPath request = Record.request.root ++ ("-lock/" ++ request) := by
    rw [← String.append_assoc]
    rfl
  rw [parse_eq, parts_eq_some.mpr ⟨⟨_, path_eq, split.symm⟩, rfl, ?_⟩]
  · rfl
  · simpa [Record.accepts, notLock] using valid.notLock

/-- Each parser inverts its builder at the paths that the builders make, but for the lock of a
request, and image parsers do not share a path. -/
theorem inverts_iff_not_requestLock (r : Record) (z : Znode)
    (valid : ∀ c ∈ z.components, Component c) :
    (Inverts r z.path ↔ ¬ (r = .request ∧ ∃ request, z = .lock (.request request))) ∧
      ∀ (path : String) (r' : Record) (key key' : List String), r.ofImages = true →
        r'.ofImages = true → r.parse path = some key → r'.parse path = some key' → r = r' := by
  refine ⟨⟨?_, fun other => ?_⟩, fun _ _ _ _ => image_parser_unique⟩
  · rintro inverts ⟨rfl, request, rfl⟩
    have build := ((inverts [request]).mp
      (parse_requestLock (valid request List.mem_cons_self))).2
    -- the roots differ after `/nodepool/requests`
    have paths : requestPath request = requestLockPath request := Option.some_inj.mp build
    have letters := congrArg (fun s : String => s.toList[18]?) paths
    simp [requestPath, requestLockPath, REQUEST_ROOT, REQUEST_LOCK_ROOT] at letters
  · refine inverts_of_suits fun parts accepted => ?_
    obtain ⟨⟨rest, path_eq, -⟩, length, tested⟩ := parts_eq_some.mp accepted
    rcases tree_of_prefix (path_eq.symm.trans z.path_eq) with same | ⟨rfl, tree⟩
    · obtain rfl := parts_znode same valid accepted
      exact .cons rfl (suits_names same valid (Nat.succ_injective length) tested)
    · have parts_eq := parts_requestLocks tree valid accepted
      rw [parts_eq, List.length_cons] at length
      have deep : z.names.length = 1 := Nat.succ_injective length
      cases z with
      | lock lock =>
          cases lock with
          | request request => exact absurd ⟨rfl, request, rfl⟩ other
          | _ => cases tree
      | contender lock contender =>
          cases lock with
          | request request => cases deep
          | _ => cases tree
      | _ => cases tree

/-- An upload is found, and the lock of a request is taken for the request. -/
theorem inverts_iff_not_requestLock_example :
    Inverts .imageUpload
        (imageUploadPath "fake" "0000000001" "cloud" ++ "/" ++ "0000000002") ∧
      ¬ Inverts .request (requestLockPath "100-0000000001") :=
  ⟨(inverts_iff_not_requestLock .imageUpload (.upload "fake" "0000000001" "cloud" "0000000002")
      (by decide)).1.mpr nofun,
    fun inverts => (inverts_iff_not_requestLock .request (.lock (.request "100-0000000001"))
      (by decide)).1.mp inverts
        ⟨rfl, _, rfl⟩⟩

/-- The lock of a request is taken for a request. -/
theorem requestLock_parsed :
    parseRequestPath (requestLockPath "100-0000000001") = some ["100-0000000001"] ∧
      ¬ Inverts .request (requestLockPath "100-0000000001") := by
  have parsed : parseRequestPath (requestLockPath "100-0000000001") = some ["100-0000000001"] := by
    decide
  refine ⟨parsed, fun h => ?_⟩
  have := (h _).mp parsed
  exact absurd this.2 (by decide)

end Nodepool.ZkPaths
