import Mathlib.Data.List.Forall2
import Nodepool.Base.Text

/-!
The paths of records in ZooKeeper: the builders and the parsers of `nodepool/zk/zookeeper.py`.

A parser takes the root off the path, splits the rest at the slashes, and tests the number of
the parts and one of them. A builder puts the components of a key between fixed names. Each
record has a `template` of names and places for components, which both are compared with.
-/

namespace Nodepool.ZkPaths

def IMAGE_ROOT : String := "/nodepool/images"

def LAUNCHER_ROOT : String := "/nodepool/launchers"

def NODE_ROOT : String := "/nodepool/nodes"

def REQUEST_ROOT : String := "/nodepool/requests"

def REQUEST_LOCK_ROOT : String := "/nodepool/requests-lock"

def ELECTION_ROOT : String := "/nodepool/elections"

/-! ### Builders -/

def electionPath (election : String) : String := ELECTION_ROOT ++ "/" ++ election

def imagePath (image : String) : String := IMAGE_ROOT ++ "/" ++ image

def imageBuildRequestPath (image : String) : String := imagePath image ++ "/request-build"

def imageBuildsPath (image : String) : String := imagePath image ++ "/builds"

def imagePausePath (image : String) : String := imagePath image ++ "/pause"

def imageBuildIdPath (image buildId : String) : String := imageBuildsPath image ++ "/" ++ buildId

def imageBuildLockPath (image : String) : String := imageBuildsPath image ++ "/lock"

def imageBuildIdLockPath (image buildId : String) : String :=
  imageBuildIdPath image buildId ++ "/lock"

def imageProviderPath (image buildId : String) : String :=
  imageBuildsPath image ++ "/" ++ buildId ++ "/providers"

def imageUploadPath (image buildId provider : String) : String :=
  imageBuildsPath image ++ "/" ++ buildId ++ "/providers/" ++ provider ++ "/images"

def imageUploadLockPath (image buildId provider : String) : String :=
  imageUploadPath image buildId provider ++ "/lock"

def imageUploadNumberLockPath (image buildId provider uploadNumber : String) : String :=
  imageUploadPath image buildId provider ++ "/" ++ uploadNumber ++ "/lock"

def launcherPath (launcher : String) : String := LAUNCHER_ROOT ++ "/" ++ launcher

def nodePath (node : String) : String := NODE_ROOT ++ "/" ++ node

def nodeLockPath (node : String) : String := NODE_ROOT ++ "/" ++ node ++ "/lock"

def requestPath (request : String) : String := REQUEST_ROOT ++ "/" ++ request

def requestLockPath (request : String) : String := REQUEST_LOCK_ROOT ++ "/" ++ request

/-! ### Parsers -/

/-- `path[len(root):]`, if `path.startswith(root)` -/
def strip (root path : String) : Option String :=
  if root.toList <+: path.toList then some (String.ofList (path.toList.drop root.toList.length))
  else none

/-- The parts of a path that a parser accepts. -/
def acceptedParts (root : String) (length : ℕ) (accepts : List String → Bool) (path : String) :
    Option (List String) :=
  ((strip root path).map (Text.split '/')).filter fun parts =>
    parts.length = length ∧ accepts parts

/-- `parts[-1] != 'lock'` -/
def notLock (parts : List String) : Bool := parts.getLast? ≠ some "lock"

/-- `(parts[i], parts[j], ...)` -/
def select (indices : List ℕ) (parts : List String) : List String := indices.map (parts.getD · "")

def parseImagePath (path : String) : Option (List String) :=
  (acceptedParts IMAGE_ROOT 2 notLock path).map (select [1])

def parseImagePausePath (path : String) : Option (List String) :=
  (acceptedParts IMAGE_ROOT 3 (fun parts => parts.getD 2 "" = "pause") path).map (select [1])

def parseImageBuildPath (path : String) : Option (List String) :=
  (acceptedParts IMAGE_ROOT 4 notLock path).map (select [1, 3])

def parseImageUploadPath (path : String) : Option (List String) :=
  (acceptedParts IMAGE_ROOT 8 notLock path).map (select [1, 3, 5, 7])

def parseNodePath (path : String) : Option (List String) :=
  (acceptedParts NODE_ROOT 2 notLock path).map (select [1])

def parseNodeLockPath (path : String) : Option (List String) :=
  (acceptedParts NODE_ROOT 4 (fun parts => parts.getD 2 "" = "lock") path).map (select [1, 3])

def parseRequestPath (path : String) : Option (List String) :=
  (acceptedParts REQUEST_ROOT 2 notLock path).map (select [1])

/-! ### Records -/

inductive Record where
  | image
  | imagePause
  | imageBuild
  | imageUpload
  | node
  /-- a contender for the lock of a node -/
  | nodeLock
  | request
deriving DecidableEq, Repr

namespace Record

def parse : Record → String → Option (List String)
  | image => parseImagePath
  | imagePause => parseImagePausePath
  | imageBuild => parseImageBuildPath
  | imageUpload => parseImageUploadPath
  | node => parseNodePath
  | nodeLock => parseNodeLockPath
  | request => parseRequestPath

/-- The path for a key with the right number of components. -/
def build : Record → List String → Option String
  | image, [name] => some (imagePath name)
  | imagePause, [name] => some (imagePausePath name)
  | imageBuild, [name, buildId] => some (imageBuildIdPath name buildId)
  | imageUpload, [name, buildId, provider, upload] =>
      some (imageUploadPath name buildId provider ++ "/" ++ upload)
  | node, [id] => some (nodePath id)
  | nodeLock, [id, contender] => some (nodeLockPath id ++ "/" ++ contender)
  | request, [id] => some (requestPath id)
  | _, _ => none

def root : Record → String
  | image | imagePause | imageBuild | imageUpload => IMAGE_ROOT
  | node | nodeLock => NODE_ROOT
  | request => REQUEST_ROOT

/-- What is tested of the parts, but for their number. -/
def accepts : Record → List String → Bool
  | imagePause => fun parts => parts.getD 2 "" = "pause"
  | nodeLock => fun parts => parts.getD 2 "" = "lock"
  | _ => notLock

/-- The names, and the places for components (`none`), that follow the root. -/
def template : Record → List (Option String)
  | image | node | request => [none]
  | imagePause => [none, some "pause"]
  | imageBuild => [none, some "builds", none]
  | imageUpload =>
      [none, some "builds", none, some "providers", none, some "images", none]
  | nodeLock => [none, some "lock", none]

end Record

/-- A component of a key. -/
structure Component (c : String) : Prop where
  nonempty : c ≠ ""
  noSlash : '/' ∉ c.toList
  notLock : c ≠ "lock"

instance (c : String) : Decidable (Component c) :=
  decidable_of_iff (c ≠ "" ∧ '/' ∉ c.toList ∧ c ≠ "lock")
    ⟨fun ⟨nonempty, noSlash, notLock⟩ => ⟨nonempty, noSlash, notLock⟩,
      fun h => ⟨h.nonempty, h.noSlash, h.notLock⟩⟩

/-- The parser returns a key exactly if the path is the one that is built from it. -/
def Inverts (r : Record) (path : String) : Prop :=
  ∀ key, r.parse path = some key ↔ (∀ c ∈ key, Component c) ∧ r.build key = some path

/-! ### Templates -/

/-- Put the components of a key into their places. -/
def fill : List (Option String) → List String → Option (List String)
  | [], [] => some []
  | some name :: t, key => (fill t key).map (name :: ·)
  | none :: t, c :: key => (fill t key).map (c :: ·)
  | _, _ => none

/-- Take the components from their places. -/
def slots : List (Option String) → List String → List String
  | some _ :: t, _ :: parts => slots t parts
  | none :: t, part :: parts => part :: slots t parts
  | _, _ => []

/-- A part that belongs in its place. -/
def Suits : Option String → String → Prop
  | some name, part => part = name
  | none, part => part ≠ "" ∧ part ≠ "lock"

theorem fill_eq_some {t : List (Option String)} {key parts : List String}
    (filled : fill t key = some parts) (valid : ∀ c ∈ key, Component c) :
    List.Forall₂ Suits t parts ∧ slots t parts = key := by
  induction t generalizing key parts with
  | nil =>
      cases key with
      | nil =>
          cases filled
          exact ⟨.nil, rfl⟩
      | cons => cases filled
  | cons slot t ih =>
      cases slot with
      | some name =>
          obtain ⟨rest, hrest, rfl⟩ := Option.map_eq_some_iff.mp filled
          obtain ⟨suits, same⟩ := ih hrest valid
          exact ⟨.cons rfl suits, same⟩
      | none =>
          cases key with
          | nil => cases filled
          | cons c key =>
              obtain ⟨rest, hrest, rfl⟩ := Option.map_eq_some_iff.mp filled
              obtain ⟨suits, same⟩ := ih hrest fun c' h => valid c' (List.mem_cons_of_mem c h)
              have hc := valid c List.mem_cons_self
              exact ⟨.cons ⟨hc.nonempty, hc.notLock⟩ suits, congrArg (c :: ·) same⟩

theorem fill_slots {t : List (Option String)} {parts : List String}
    (suits : List.Forall₂ Suits t parts) (noSlash : ∀ p ∈ parts, '/' ∉ p.toList) :
    fill t (slots t parts) = some parts ∧ ∀ c ∈ slots t parts, Component c := by
  induction suits with
  | nil => exact ⟨rfl, nofun⟩
  | @cons slot part t parts suit suits ih =>
      obtain ⟨filled, valid⟩ := ih fun p h => noSlash p (List.mem_cons_of_mem part h)
      cases slot with
      | some name =>
          refine ⟨?_, valid⟩
          cases suit
          exact Option.map_eq_some_iff.mpr ⟨parts, filled, rfl⟩
      | none =>
          refine ⟨Option.map_eq_some_iff.mpr ⟨parts, filled, rfl⟩, ?_⟩
          intro c mem
          rcases List.mem_cons.mp mem with rfl | mem
          · exact ⟨suit.1, noSlash c List.mem_cons_self, suit.2⟩
          · exact valid c mem

/-! ### Parsing and building by the template -/

theorem strip_eq_some {root path rest : String} : strip root path = some rest ↔
    path = root ++ rest := by
  unfold strip
  constructor
  · intro h
    split at h
    · rename_i starts
      obtain ⟨tail, htail⟩ := starts
      cases h
      rw [← String.toList_inj, String.toList_append, String.toList_ofList, ← htail,
        List.drop_left]
    · cases h
  · rintro rfl
    rw [String.toList_append, if_pos (List.prefix_append _ _), List.drop_left,
      String.ofList_toList]

variable {r : Record} {path : String}

/-- The parts that the parser of a record accepts. -/
def Record.parts (r : Record) (path : String) : Option (List String) :=
  acceptedParts r.root (r.template.length + 1) r.accepts path

theorem parts_eq_some {parts : List String} : r.parts path = some parts ↔
    (∃ rest, path = r.root ++ rest ∧ parts = Text.split '/' rest) ∧
      parts.length = r.template.length + 1 ∧ r.accepts parts = true := by
  rw [Record.parts, acceptedParts, Option.filter_eq_some_iff, Option.map_eq_some_iff]
  refine and_congr ?_ (by simp)
  constructor
  · rintro ⟨rest, starts, rfl⟩
    exact ⟨rest, strip_eq_some.mp starts, rfl⟩
  · rintro ⟨rest, rfl, rfl⟩
    exact ⟨rest, strip_eq_some.mpr rfl, rfl⟩

theorem parse_eq (r : Record) (path : String) : r.parse path =
    (r.parts path).map (slots (some "" :: r.template)) := by
  have same {indices : List ℕ} (h : ∀ parts : List String,
      parts.length = r.template.length + 1 →
        select indices parts = slots (some "" :: r.template) parts) :
      (r.parts path).map (select indices) = (r.parts path).map (slots (some "" :: r.template)) := by
    cases accepted : r.parts path with
    | none => rfl
    | some parts => exact congrArg some (h parts (parts_eq_some.mp accepted).2.1)
  cases r with
  | image | node | request =>
      refine same fun parts length => ?_
      match parts, length with
      | [_, _], _ => rfl
  | imagePause =>
      refine same fun parts length => ?_
      match parts, length with
      | [_, _, _], _ => rfl
  | imageBuild | nodeLock =>
      refine same fun parts length => ?_
      match parts, length with
      | [_, _, _, _], _ => rfl
  | imageUpload =>
      refine same fun parts length => ?_
      match parts, length with
      | [_, _, _, _, _, _, _, _], _ => rfl

theorem join_cons (part next : String) (parts : List String) :
    Text.join '/' (part :: next :: parts) = part ++ ("/" ++ Text.join '/' (next :: parts)) := by
  rw [← String.toList_inj, Text.join, String.toList_append, String.toList_append, Text.join,
    String.toList_ofList, String.toList_ofList]
  cases parts <;> simp [List.intercalate]

theorem join_singleton (part : String) : Text.join '/' [part] = part := by
  rw [← String.toList_inj, Text.join, String.toList_ofList]
  simp [List.intercalate]

theorem build_eq (r : Record) (key : List String) : r.build key =
    (fill r.template key).map fun parts => r.root ++ Text.join '/' ("" :: parts) := by
  cases r with
  | image =>
      match key with
      | [_] => simp [Record.build, Record.template, Record.root, fill, join_cons, join_singleton,
          imagePath, String.append_assoc]
      | [] => rfl
      | _ :: _ :: _ => rfl
  | imagePause =>
      match key with
      | [_] => simp [Record.build, Record.template, Record.root, fill, join_cons, join_singleton,
          imagePath, imagePausePath, String.append_assoc]
      | [] => rfl
      | _ :: _ :: _ => rfl
  | imageBuild =>
      match key with
      | [_, _] =>
          simp [Record.build, Record.template, Record.root, fill, join_cons, join_singleton,
            imagePath, imageBuildsPath, imageBuildIdPath, String.append_assoc]
          simp only [← String.append_assoc, String.reduceAppend]
      | [] => rfl
      | [_] => rfl
      | _ :: _ :: _ :: _ => rfl
  | imageUpload =>
      match key with
      | [_, _, _, _] =>
          simp [Record.build, Record.template, Record.root, fill, join_cons, join_singleton,
            imagePath, imageBuildsPath, imageUploadPath, String.append_assoc]
          simp only [← String.append_assoc, String.reduceAppend]
      | [] => rfl
      | [_] => rfl
      | [_, _] => rfl
      | [_, _, _] => rfl
      | _ :: _ :: _ :: _ :: _ :: _ => rfl
  | node =>
      match key with
      | [_] => simp [Record.build, Record.template, Record.root, fill, join_cons, join_singleton,
          nodePath, String.append_assoc]
      | [] => rfl
      | _ :: _ :: _ => rfl
  | nodeLock =>
      match key with
      | [_, _] =>
          simp [Record.build, Record.template, Record.root, fill, join_cons, join_singleton,
            nodeLockPath, String.append_assoc]
          simp only [← String.append_assoc, String.reduceAppend]
      | [] => rfl
      | [_] => rfl
      | _ :: _ :: _ :: _ => rfl
  | request =>
      match key with
      | [_] => simp [Record.build, Record.template, Record.root, fill, join_cons, join_singleton,
          requestPath, String.append_assoc]
      | [] => rfl
      | _ :: _ :: _ => rfl

/-- Parts that suit the template pass the tests of the parser. -/
theorem accepts_of_suits {parts : List String} (suits : List.Forall₂ Suits r.template parts) :
    r.accepts ("" :: parts) = true := by
  cases r with
  | image | node | request =>
      match parts, suits with
      | [_], .cons suit .nil => simpa [Record.accepts, notLock] using suit.2
  | imagePause =>
      match parts, suits with
      | [_, _], .cons _ (.cons name .nil) => exact decide_eq_true name
  | nodeLock =>
      match parts, suits with
      | [_, _, _], .cons _ (.cons name (.cons _ .nil)) => exact decide_eq_true name
  | imageBuild =>
      match parts, suits with
      | [_, _, _], .cons _ (.cons _ (.cons suit .nil)) =>
          simpa [Record.accepts, notLock] using suit.2
  | imageUpload =>
      match parts, suits with
      | [_, _, _, _, _, _, _],
          .cons _ (.cons _ (.cons _ (.cons _ (.cons _ (.cons _ (.cons suit .nil)))))) =>
          simpa [Record.accepts, notLock] using suit.2

theorem noSlash_of_template {name : String} (mem : some name ∈ r.template) :
    '/' ∉ name.toList := by
  cases r <;> simp [Record.template] at mem <;> aesop

theorem noSlash_of_fill {t : List (Option String)} {key parts : List String}
    (names : ∀ name, some name ∈ t → '/' ∉ name.toList) (valid : ∀ c ∈ key, Component c)
    (filled : fill t key = some parts) : ∀ p ∈ parts, '/' ∉ p.toList := by
  induction t generalizing key parts with
  | nil =>
      cases key with
      | nil =>
          cases filled
          exact nofun
      | cons => cases filled
  | cons slot t ih =>
      have names' : ∀ name, some name ∈ t → '/' ∉ name.toList := fun name h =>
        names name (List.mem_cons_of_mem slot h)
      cases slot with
      | some name =>
          obtain ⟨rest, hrest, rfl⟩ := Option.map_eq_some_iff.mp filled
          exact List.forall_mem_cons.mpr
            ⟨names name List.mem_cons_self, ih names' valid hrest⟩
      | none =>
          cases key with
          | nil => cases filled
          | cons c key =>
              obtain ⟨rest, hrest, rfl⟩ := Option.map_eq_some_iff.mp filled
              exact List.forall_mem_cons.mpr ⟨(valid c List.mem_cons_self).noSlash,
                ih names' (fun c' h => valid c' (List.mem_cons_of_mem c h)) hrest⟩

/-! ### A parser inverts its builder -/

/-- What is built from a key is split into the parts that fill the template. -/
theorem built {key : List String} (valid : ∀ c ∈ key, Component c) (h : r.build key = some path) :
    ∃ parts, fill r.template key = some parts ∧
      ∀ rest, path = r.root ++ rest → Text.split '/' rest = "" :: parts := by
  rw [build_eq] at h
  obtain ⟨parts, filled, rfl⟩ := Option.map_eq_some_iff.mp h
  refine ⟨parts, filled, fun rest same => ?_⟩
  have same : rest = Text.join '/' ("" :: parts) := by
    rw [← String.toList_inj] at same ⊢
    rw [String.toList_append, String.toList_append] at same
    exact (List.append_cancel_left same).symm
  rw [same]
  exact Text.split_join (List.cons_ne_nil _ _) (List.forall_mem_cons.mpr
    ⟨List.not_mem_nil, noSlash_of_fill (fun _ => noSlash_of_template) valid filled⟩)

/-- The parser accepts what is built from a key. -/
theorem parse_of_build {key : List String} (valid : ∀ c ∈ key, Component c)
    (h : r.build key = some path) : r.parse path = some key := by
  obtain ⟨parts, filled, split⟩ := built valid h
  obtain ⟨suits, same⟩ := fill_eq_some filled valid
  rw [build_eq, filled] at h
  have path_eq : path = r.root ++ Text.join '/' ("" :: parts) := (Option.some_inj.mp h).symm
  rw [parse_eq, Option.map_eq_some_iff]
  refine ⟨"" :: parts, parts_eq_some.mpr ⟨⟨_, path_eq, (split _ path_eq).symm⟩, ?_,
    accepts_of_suits suits⟩, same⟩
  rw [List.length_cons, suits.length_eq]

/-- The parser inverts the builder at a path whose parts, if it accepts them, have the names in
their places and neither an empty component nor `lock`. -/
theorem inverts_of_suits (h : ∀ parts, r.parts path = some parts →
    List.Forall₂ Suits (some "" :: r.template) parts) : Inverts r path := by
  intro key
  refine ⟨fun parsed => ?_, fun ⟨valid, build⟩ => parse_of_build valid build⟩
  rw [parse_eq] at parsed
  obtain ⟨parts, accepted, rfl⟩ := Option.map_eq_some_iff.mp parsed
  obtain ⟨⟨rest, path_eq, parts_eq⟩, -⟩ := parts_eq_some.mp accepted
  obtain ⟨first, others, empty, suits, same⟩ := List.forall₂_cons_left_iff.mp (h parts accepted)
  cases empty
  subst same
  have noSlash : ∀ p ∈ others, '/' ∉ p.toList := fun p mem =>
    Text.notMem_of_mem_split (parts_eq ▸ List.mem_cons_of_mem _ mem)
  obtain ⟨filled, valid⟩ := fill_slots suits noSlash
  refine ⟨valid, ?_⟩
  rw [build_eq]
  change (fill r.template (slots r.template others)).map _ = _
  rw [filled, Option.map_some, parts_eq, Text.join_split, path_eq]

/-- The parsers of `ImageCache` and of the pause flag. -/
def Record.ofImages : Record → Bool
  | image | imagePause | imageBuild | imageUpload => true
  | _ => false

theorem length_of_parse {key : List String} (h : r.parse path = some key) :
    ∃ rest, path = r.root ++ rest ∧ (Text.split '/' rest).length = r.template.length + 1 := by
  rw [parse_eq] at h
  obtain ⟨parts, accepted, -⟩ := Option.map_eq_some_iff.mp h
  obtain ⟨⟨rest, path_eq, rfl⟩, length, -⟩ := parts_eq_some.mp accepted
  exact ⟨rest, path_eq, length⟩

/-- At most one of the image parsers accepts a path. -/
theorem image_parser_unique {r' : Record} {key key' : List String} (image : r.ofImages = true)
    (image' : r'.ofImages = true) (h : r.parse path = some key) (h' : r'.parse path = some key') :
    r = r' := by
  obtain ⟨rest, path_eq, length⟩ := length_of_parse h
  obtain ⟨rest', path_eq', length'⟩ := length_of_parse h'
  have root : r.root = r'.root := by
    cases r <;> cases image <;> cases r' <;> cases image' <;> rfl
  have same : rest = rest' := by
    rw [path_eq, root, ← String.toList_inj, String.toList_append, String.toList_append] at path_eq'
    exact String.toList_inj.mp (List.append_cancel_left path_eq')
  subst same
  have templates : r.template.length = r'.template.length :=
    Nat.succ_injective (length.symm.trans length')
  cases r <;> cases image <;> cases r' <;> cases image' <;> first | rfl | cases templates

end Nodepool.ZkPaths
